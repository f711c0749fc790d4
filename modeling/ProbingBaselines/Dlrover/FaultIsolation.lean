import ProbingBaselines.Dlrover.CheckRounds

/-!
# Isolating a faulty node

Two rounds are meant to tell a faulty node from the others of its group: in the second round the
nodes of the failed group, the slowest ones by then, are to meet normal nodes
(`rdzv_manager.py:599-611`). The fault is found if and only if nobody shares the faulty node's group
in both rounds. With times that stay below 3600 when rounded, that fails only for five nodes, of
which the last three are one group: two of them stand in the middle of the second order.
-/

namespace ProbingBaselines.Dlrover

open Lib

/-- The nodes by time, those with one time in the order of their reports. -/
def byTime (ranks reports : List Int) (b : Int) (time : Int → ℚ) : List Int :=
  reports.insertionSort fun x y ↦ firstTime ranks b time x ≤ firstTime ranks b time y

/-- `r` has `b` in its group of the second round, in which the nodes stand by time. -/
def MeetsSecond (ranks reports : List Int) (b : Int) (time : Int → ℚ) (r : Int) : Prop :=
  Pairing.Opposite ranks.length ((byTime ranks reports b time).idxOf r)
    ((byTime ranks reports b time).idxOf b)

instance (ranks reports : List Int) (b : Int) (time : Int → ℚ) (r : Int) :
    Decidable (MeetsSecond ranks reports b time r) :=
  inferInstanceAs (Decidable (Pairing.Opposite _ _ _))

/-- Nobody else meets `b` twice. -/
def Isolated (ranks reports : List Int) (b : Int) (time : Int → ℚ) : Prop :=
  ∀ r ∈ ranks, r ≠ b → MeetsFirst ranks b r → ¬MeetsSecond ranks reports b time r

instance (ranks reports : List Int) (b : Int) (time : Int → ℚ) :
    Decidable (Isolated ranks reports b time) :=
  inferInstanceAs (Decidable (∀ r ∈ ranks, r ≠ b → MeetsFirst ranks b r →
    ¬MeetsSecond ranks reports b time r))

/-- With five nodes, `b` is one of the three with the largest ranks and not the last of them to
report. -/
def InThreeOfFive (ranks reports : List Int) (b : Int) : Prop :=
  ranks.length = 5 ∧ 2 ≤ (ranks.insertionSort (· ≤ ·)).idxOf b ∧
    ∃ r ∈ ranks, 2 ≤ (ranks.insertionSort (· ≤ ·)).idxOf r ∧ reports.idxOf b < reports.idxOf r

/-- The group of `b` in the first round, in the order of the reports. -/
def firstGroup (ranks reports : List Int) (b : Int) : List Int :=
  reports.filter fun r ↦ MeetsFirst ranks b r

section Positions

variable {ranks reports : List Int} {b : Int} {time : Int → ℚ}

/-- The place of a rank in the order of the ranks. -/
theorem place_lt (ranks : List Int) {r : Int} (hr : r ∈ ranks) :
    (ranks.insertionSort (· ≤ ·)).idxOf r < ranks.length := by
  have lt := List.idxOf_lt_length_of_mem ((List.mem_insertionSort (· ≤ ·)).mpr hr)
  rwa [List.length_insertionSort] at lt

theorem mem_firstGroup (perm : reports.Perm ranks) {r : Int} :
    r ∈ firstGroup ranks reports b ↔ r ∈ ranks ∧ MeetsFirst ranks b r := by
  rw [firstGroup, List.mem_filter, perm.mem_iff, decide_eq_true_iff]

/-- How many nodes the group of `b` has in the first round. -/
theorem length_firstGroup (distinct : ranks.Nodup) (perm : reports.Perm ranks) (faulty : b ∈ ranks)
    (four : 4 ≤ ranks.length) :
    (firstGroup ranks reports b).length =
      if ranks.length % 2 = 1 ∧ ranks.length ≤ (ranks.insertionSort (· ≤ ·)).idxOf b + 3 then 3
      else 2 := by
  have sorted := List.perm_insertionSort (· ≤ ·) ranks
  have nodup := sorted.nodup_iff.mpr distinct
  have length := List.length_insertionSort (· ≤ ·) ranks
  have hb := place_lt ranks faulty
  have place : ∀ r ∈ firstGroup ranks reports b, r ∈ ranks.insertionSort (· ≤ ·) := by
    intro r hr
    exact sorted.mem_iff.mpr ((mem_firstGroup perm).mp hr).1
  generalize hp : (ranks.insertionSort (· ≤ ·)).idxOf b = p at hb ⊢
  -- the places of the group are an interval
  have interval : ((firstGroup ranks reports b).map (ranks.insertionSort (· ≤ ·)).idxOf).Perm
      (if ranks.length % 2 = 1 ∧ ranks.length ≤ p + 3 then List.range' (ranks.length - 3) 3
        else List.range' (p / 2 * 2) 2) := by
    have distinct' : ((firstGroup ranks reports b).map
        (ranks.insertionSort (· ≤ ·)).idxOf).Nodup := by
      apply List.Nodup.map_on _ ((perm.nodup_iff.mpr distinct).filter _)
      intro r hr q _ eq
      exact (List.idxOf_inj (place r hr)).mp eq
    rw [List.perm_ext_iff_of_nodup distinct' (by split <;> exact List.nodup_range')]
    intro i
    have mem : i ∈ (firstGroup ranks reports b).map (ranks.insertionSort (· ≤ ·)).idxOf ↔
        i < ranks.length ∧ Pairing.Adjacent ranks.length i p := by
      rw [List.mem_map]
      constructor
      · rintro ⟨r, hr, rfl⟩
        have meets := ((mem_firstGroup perm).mp hr).2
        rw [MeetsFirst, hp] at meets
        exact ⟨place_lt ranks (sorted.mem_iff.mp (place r hr)), meets⟩
      · rintro ⟨lt, meets⟩
        have bound : i < (ranks.insertionSort (· ≤ ·)).length := by omega
        have at_i := List.Nodup.idxOf_getElem nodup i bound
        refine ⟨(ranks.insertionSort (· ≤ ·))[i], (mem_firstGroup perm).mpr ⟨?_, ?_⟩, at_i⟩
        · exact sorted.mem_iff.mp (List.getElem_mem bound)
        · rw [MeetsFirst, at_i, hp]
          exact meets
    rw [mem, Pairing.Adjacent]
    split <;> rw [List.mem_range'_1] <;> omega
  have size := interval.length_eq
  rw [List.length_map] at size
  rw [size]
  split <;> exact List.length_range'

/-- The nodes of `b`'s first group are the last ones in the second order. -/
theorem byTime_eq (perm : reports.Perm ranks) (below : ∀ r ∈ ranks, round3 (time r) < 3600) :
    byTime ranks reports b time =
      (reports.filter fun r ↦ firstTime ranks b time r < 3600).insertionSort
        (fun x y ↦ firstTime ranks b time x ≤ firstTime ranks b time y) ++
      firstGroup ranks reports b := by
  have slow : ∀ r ∈ reports, firstTime ranks b time r = 3600 ↔ MeetsFirst ranks b r := by
    intro r hr
    have lt := below r (perm.mem_iff.mp hr)
    rw [firstTime]
    split
    · next meets => simp [meets]
    · next apart => simp [apart, ne_of_lt lt]
  have le : ∀ r ∈ reports, firstTime ranks b time r ≤ 3600 := by
    intro r hr
    rw [firstTime]
    split
    · exact le_refl _
    · exact le_of_lt (below r (perm.mem_iff.mp hr))
  rw [byTime, insertionSort_top le]
  congr 1
  apply List.filter_congr
  intro r hr
  exact decide_eq_decide.mpr (slow r hr)

/-- Their places in the second order. -/
theorem idxOf_byTime (perm : reports.Perm ranks) (below : ∀ r ∈ ranks, round3 (time r) < 3600) :
    ∃ front, front + (firstGroup ranks reports b).length = ranks.length ∧
      ∀ r ∈ firstGroup ranks reports b,
        (byTime ranks reports b time).idxOf r = front + (firstGroup ranks reports b).idxOf r := by
  have order := byTime_eq (b := b) perm below
  have total : (byTime ranks reports b time).length = ranks.length := by
    rw [byTime, List.length_insertionSort, perm.length_eq]
  rw [order, List.length_append] at total
  refine ⟨_, total, ?_⟩
  intro r hr
  rw [order]
  apply List.idxOf_append_of_notMem
  rw [List.mem_insertionSort, List.mem_filter, firstTime, if_pos ((mem_firstGroup perm).mp hr).2]
  simp

/-- If all healthy times stay below 3600 when rounded, somebody meets `b` twice only in the group of
three among five nodes. -/
theorem isolated_iff (distinct : ranks.Nodup) (perm : reports.Perm ranks) (faulty : b ∈ ranks)
    (four : 4 ≤ ranks.length) (below : ∀ r ∈ ranks, round3 (time r) < 3600) :
    Isolated ranks reports b time ↔ ¬InThreeOfFive ranks reports b := by
  have nodup := perm.nodup_iff.mpr distinct
  have count := length_firstGroup distinct perm faulty four
  have mem : ∀ {r}, r ∈ firstGroup ranks reports b ↔ r ∈ ranks ∧ MeetsFirst ranks b r :=
    mem_firstGroup perm
  have self := mem.mpr ⟨faulty, meetsFirst_self ranks b⟩
  have member : ∀ i, i < (firstGroup ranks reports b).length →
      ∃ q ∈ firstGroup ranks reports b, (firstGroup ranks reports b).idxOf q = i := by
    intro i hi
    exact ⟨_, List.getElem_mem hi, List.Nodup.idxOf_getElem (nodup.filter _) i hi⟩
  rcases idxOf_byTime (b := b) perm below with ⟨front, total, place⟩
  constructor
  · rintro isolated ⟨five, largest, r, hr, large, later⟩
    have inGroup : r ∈ firstGroup ranks reports b := by
      rw [mem, MeetsFirst, Pairing.Adjacent]
      exact ⟨hr, by omega⟩
    have before : (firstGroup ranks reports b).idxOf b < (firstGroup ranks reports b).idxOf r := by
      rcases Nat.lt_trichotomy ((firstGroup ranks reports b).idxOf b)
        ((firstGroup ranks reports b).idxOf r) with lt | eq | gt
      · exact lt
      · rw [(List.idxOf_inj self).mp eq] at later
        omega
      · have := idxOf_lt_of_filter nodup inGroup self gt
        omega
    have bound := List.idxOf_lt_length_of_mem inGroup
    rw [if_pos (by omega)] at count
    -- the other one of the first two of the group
    rcases member (1 - (firstGroup ranks reports b).idxOf b) (by omega) with ⟨q, hq, at_q⟩
    have ne : q ≠ b := by
      rintro rfl
      omega
    apply isolated q (mem.mp hq).1 ne (mem.mp hq).2
    rw [MeetsSecond, place q hq, place b self, Pairing.Opposite]
    omega
  · intro safe r hr ne meets meets'
    have inGroup := mem.mpr ⟨hr, meets⟩
    rw [MeetsSecond, place r inGroup, place b self, Pairing.Opposite] at meets'
    have differ := mt (List.idxOf_inj inGroup).mp ne
    have bound := List.idxOf_lt_length_of_mem inGroup
    have bound' := List.idxOf_lt_length_of_mem self
    have three : (firstGroup ranks reports b).length = 3 ∧ ranks.length = 5 ∧
        ranks.length ≤ (ranks.insertionSort (· ≤ ·)).idxOf b + 3 ∧
        (firstGroup ranks reports b).idxOf b ≤ 1 := by
      split at count <;> omega
    rcases member 2 (by omega) with ⟨q, hq, at_q⟩
    have later := idxOf_lt_of_filter nodup self hq (by rw [← firstGroup]; omega)
    have meets_q := (mem.mp hq).2
    rw [MeetsFirst, Pairing.Adjacent] at meets_q
    exact safe ⟨three.2.1, by omega, q, (mem.mp hq).1, by omega, later⟩

end Positions

namespace CheckRound

open NetworkCheckManager

variable {ranks : List Int} {b : Int} {s : NetworkCheckManager}

/-- The two rounds tell exactly the faulty node if and only if nobody else meets it twice. -/
theorem checkFaultNode_eq_iff {first second : CheckRound} (distinct : ranks.Nodup)
    (faulty : b ∈ ranks) (idle : s.base.waitingNodes = .empty) (free : s.base.rdzvBlocked = false)
    (even : s.base.rdzvRound % 2 = 0) (round0 : first.Covers s ranks)
    (round1 : second.Covers (first.play b s) ranks) :
    (second.play b (first.play b s)).checkFaultNode.1 = .ok ([b], .nodeFailure) ↔
      Isolated ranks (reportedRanks first.acts) b first.time := by
  rcases round0.first distinct faulty idle free even with ⟨idle', free', next, status, times⟩
  have odd : (first.play b s).base.rdzvRound % 2 ≠ 0 := by omega
  have self : (!decide (MeetsFirst ranks b b)) = false := by
    rw [decide_eq_true (meetsFirst_self ranks b)]
    rfl
  have told : (second.play b (first.play b s)).checkFaultNode.1 =
      .ok ((reportedRanks first.acts).filter (fun r ↦ !!decide (MeetsFirst ranks b r) &&
        decide (MeetsSecond ranks (reportedRanks first.acts) b first.time r)), .nodeFailure) :=
    round1.second distinct faulty idle' free' odd round0.reported self status times
  have reported : ∀ {r}, r ∈ reportedRanks first.acts ↔ r ∈ ranks := round0.reported.mem_iff
  rw [told, Except.ok.injEq, Prod.mk.injEq, and_iff_left rfl,
    filter_eq_singleton (round0.reported.nodup_iff.mpr distinct) (reported.mpr faulty)]
  · constructor
    · intro others r hr ne meets meets'
      have := others r (reported.mpr hr) ne
      rw [decide_eq_true meets, decide_eq_true meets'] at this
      cases this
    · intro isolated r hr ne
      rw [Bool.not_not, Bool.and_eq_false_iff, decide_eq_false_iff_not, decide_eq_false_iff_not]
      by_cases meets : MeetsFirst ranks b r
      · exact .inr (isolated r (reported.mp hr) ne meets)
      · exact .inl meets
  · rw [self, decide_eq_true (.inl rfl)]
    rfl

/-- After the two rounds exactly the faulty node is told if and only if nobody else meets it twice.
With times that stay below 3600 when rounded, that fails only in the group of three of five. -/
theorem checkFaultNode_isolates {first second : CheckRound} (distinct : ranks.Nodup)
    (four : 4 ≤ ranks.length) (faulty : b ∈ ranks) (idle : s.base.waitingNodes = .empty)
    (free : s.base.rdzvBlocked = false) (even : s.base.rdzvRound % 2 = 0)
    (round0 : first.Covers s ranks) (round1 : second.Covers (first.play b s) ranks) :
    ((second.play b (first.play b s)).checkFaultNode.1 = .ok ([b], .nodeFailure) ↔
      Isolated ranks (reportedRanks first.acts) b first.time) ∧
    ((∀ r ∈ ranks, round3 (first.time r) < 3600) →
      ((second.play b (first.play b s)).checkFaultNode.1 = .ok ([b], .nodeFailure) ↔
        ¬InThreeOfFive ranks (reportedRanks first.acts) b)) := by
  have exact_iff := checkFaultNode_eq_iff distinct faulty idle free even round0 round1
  refine ⟨exact_iff, ?_⟩
  intro below
  rw [exact_iff]
  exact isolated_iff distinct round0.reported faulty four below

/-! ### Five nodes -/

/-- The nodes join, one of them polls, and all report with time 1 unless they fail. -/
def plainRound (ranks : List Int) : CheckRound where
  joins := ranks.map fun r ↦ (⟨r, r, 8, ""⟩, TrainingSystem.quietEnv 10)
  poll := (0, TrainingSystem.quietEnv 60)
  acts := ranks.map .report
  time := fun _ ↦ 1

/-- A manager that waits for five nodes. -/
def fiveManager : NetworkCheckManager :=
  { NetworkCheckManager.init with base := RdzvManager.init.updateRdzvParams 5 5 30 1 }

theorem plainRound_covers : (plainRound [0, 1, 2, 3, 4]).Covers fiveManager [0, 1, 2, 3, 4] where
  joined := by decide
  known := by decide
  alive := fun _ ↦ rfl
  completed := rfl
  reported := .refl _

theorem plainRound_covers_again {b : Int} (hb : b ∈ [2, 4]) :
    (plainRound [0, 1, 2, 3, 4]).Covers ((plainRound [0, 1, 2, 3, 4]).play b fiveManager)
      [0, 1, 2, 3, 4] where
  joined := by decide
  known := by decide
  alive := fun _ ↦ rfl
  completed := by
    rcases List.mem_pair.mp hb with rfl | rfl <;> rfl
  reported := .refl _

/-- Node 4, the last of the three, is found. -/
theorem checkFaultNode_isolates_last :
    ((plainRound [0, 1, 2, 3, 4]).play 4
      ((plainRound [0, 1, 2, 3, 4]).play 4 fiveManager)).checkFaultNode.1 =
        .ok ([4], .nodeFailure) := by
  have rounds := checkFaultNode_isolates (b := 4) (by decide) (by decide) (by decide) rfl rfl rfl
    plainRound_covers (plainRound_covers_again (by decide))
  exact rounds.1.mpr (by decide +kernel)

/-- Node 2 is not: node 3 is told too. -/
theorem isolation_fails :
    ∃ (ranks : List Int) (b : Int) (s : NetworkCheckManager) (first second : CheckRound),
      ranks.Nodup ∧ 4 ≤ ranks.length ∧ b ∈ ranks ∧ s.base.waitingNodes = .empty ∧
      s.base.rdzvBlocked = false ∧ s.base.rdzvRound = 0 ∧
      first.Covers s ranks ∧ second.Covers (first.play b s) ranks ∧
      (∀ r, first.time r < 3600 ∧ second.time r < 3600) ∧
      ∀ reason, (second.play b (first.play b s)).checkFaultNode.1 ≠ .ok ([b], reason) := by
  have told : ((plainRound [0, 1, 2, 3, 4]).play 2
      ((plainRound [0, 1, 2, 3, 4]).play 2 fiveManager)).checkFaultNode.1 =
        .ok ([2, 3], .nodeFailure) := by
    decide +kernel
  refine ⟨[0, 1, 2, 3, 4], 2, fiveManager, plainRound [0, 1, 2, 3, 4], plainRound [0, 1, 2, 3, 4],
    by decide, by decide, by decide, rfl, rfl, rfl, plainRound_covers,
    plainRound_covers_again (by decide), ?_, ?_⟩
  · intro r
    have one : (1 : ℚ) < 3600 := by norm_num
    exact ⟨one, one⟩
  · intro reason
    rw [told]
    simp

end CheckRound

end ProbingBaselines.Dlrover
