import Mathlib.Order.Bounds.Basic
import ProbingBaselines.Greyhound.GlobalAnalyzer

/-!
# Communication times of the pipeline stages

`parse_communication_results` (`detector/control_plane/mitigation_plan.py:50-75`) sorts the
data-parallel communicators by their first rank and takes the largest time of a window of
tensor-parallel degree from every communicator on. The stages are the blocks of that many
communicators, and a window of more than one communicator runs past the end of the list.
-/

namespace ProbingBaselines.Greyhound.ControlPlane

open Lib

/-- The results of the tasks of a communicator, each by rank. -/
abbrev TaskResults := List (Dict Nat PerformanceMetric)

/-- `max` of a list, which raises where the list is empty; `mitigation_plan.py:61`. -/
def taskMaxTime (taskResult : Dict Nat PerformanceMetric) : Option ℚ :=
  (taskResult.values.map (·.avgLat)).max?

/-- `mitigation_plan.py:58-62`. -/
def commMaxTime (communicatorResults : TaskResults) : Option ℚ :=
  communicatorResults.foldlM (fun commMaxTime r ↦ (taskMaxTime r).map (max commMaxTime)) 0

/-- The time of a communicator, with its first rank. -/
def commItem (e : List Nat × TaskResults) : Option (Nat × ℚ) :=
  (commMaxTime e.2).bind fun time ↦ e.1.head?.map fun first ↦ (first, time)

/-- `comm_times`; `mitigation_plan.py:56-63`. -/
def commTimes (commResults : Dict (List Nat) TaskResults) : Option (Dict Nat ℚ) :=
  (commResults.items.mapM commItem).map Dict.ofItems

/-- The largest time of the window from a place on, `none` where an index is out of range;
`mitigation_plan.py:72`. -/
def windowMax (commItems : List (Nat × ℚ)) (tpDegree i : Nat) : Option ℚ :=
  ((List.range' i tpDegree).mapM fun j ↦ commItems[j]?.map Prod.snd).bind List.max?

/-- The number of parts of the text under `0_tp`; `mitigation_plan.py:65-66`. -/
def tpDegree (tpRanks : String) : Nat := (tpRanks.toList.splitOn '_').length

/-- `parse_communication_results`, `none` where it raises; `mitigation_plan.py:50-75`. -/
def parseCommunicationResults (tpRanks : String) (commResults : Dict (List Nat) TaskResults) :
    Option (List ℚ) :=
  (commTimes commResults).bind fun commTimes ↦
    let commItems := commTimes.items.insertionSort (·.1 ≤ ·.1)
    (List.range commItems.length).mapM (windowMax commItems (tpDegree tpRanks))

/-! ### The stages -/

/-- The average latencies in some results. -/
def resultLatencies (results : TaskResults) : Set ℚ :=
  {x | ∃ r ∈ results, ∃ metric ∈ r.values, metric.avgLat = x}

/-- The communicators in the order of their first ranks. -/
def byFirstRank (commResults : Dict (List Nat) TaskResults) : List (Nat × TaskResults) :=
  (commResults.items.map fun e ↦ (e.1.headD 0, e.2)).insertionSort (·.1 ≤ ·.1)

/-- The latencies of a block of `t` communicators. -/
def stageLatencies (commResults : Dict (List Nat) TaskResults) (t stage : Nat) : Set ℚ :=
  {x | ∃ e ∈ ((byFirstRank commResults).drop (stage * t)).take t, x ∈ resultLatencies e.2}

/-- A value for each of `p` stages, the largest latency of its `t` communicators. -/
def PerStage (commResults : Dict (List Nat) TaskResults) (t p : Nat) (times : List ℚ) : Prop :=
  times.length = p ∧
    ∀ stage time, times[stage]? = some time → IsGreatest (stageLatencies commResults t stage) time

/-- The results of `t` by `p` communicators with different first ranks, each with a task that has a
result. -/
structure StageResults (commResults : Dict (List Nat) TaskResults) (t p : Nat) : Prop where
  number : commResults.items.length = t * p
  ranked : ∀ e ∈ commResults.items, e.1 ≠ []
  distinct : (commResults.keys.map (·.headD 0)).Nodup
  measured : ∀ e ∈ commResults.items, ∃ r ∈ e.2, r.values ≠ []

/-! ### The time of a communicator -/

/-- The loop over the tasks raises at a task without a result, and otherwise gives the largest
latency, or its start if that is larger. -/
theorem foldlM_taskMaxTime (results : TaskResults) (start : ℚ) :
    ((∃ r ∈ results, r.values = []) ∧
      results.foldlM (fun time r ↦ (taskMaxTime r).map (max time)) start = none) ∨
    ((∀ r ∈ results, r.values ≠ []) ∧ ∃ time,
      results.foldlM (fun time r ↦ (taskMaxTime r).map (max time)) start = some time ∧
      IsGreatest (insert start (resultLatencies results)) time) := by
  induction results generalizing start with
  | nil =>
    right
    refine ⟨by simp, start, rfl, Set.mem_insert _ _, ?_⟩
    rintro x (rfl | ⟨r, mem, -⟩)
    · exact le_refl x
    · cases mem
  | cons r results ih =>
    rw [List.foldlM_cons]
    cases found : taskMaxTime r with
    | none =>
      left
      rw [taskMaxTime, List.max?_eq_none_iff, List.map_eq_nil_iff] at found
      exact ⟨⟨r, List.mem_cons_self, found⟩, rfl⟩
    | some top =>
      have some : r.values ≠ [] := by
        intro none
        rw [taskMaxTime, none] at found
        cases found
      rw [taskMaxTime, List.max?_eq_some_iff] at found
      show (_ ∧ List.foldlM _ (max start top) results = none) ∨ _ ∧ ∃ time,
        List.foldlM _ (max start top) results = _ ∧ _
      rcases ih (max start top) with ⟨⟨r', mem, none⟩, eq⟩ | ⟨all, time, eq, greatest⟩
      · exact .inl ⟨⟨r', List.mem_cons_of_mem _ mem, none⟩, eq⟩
      · right
        refine ⟨List.forall_mem_cons.mpr ⟨some, all⟩, time, eq, ?_, ?_⟩
        · rcases greatest.1 with rfl | ⟨r', mem, metric, mem', rfl⟩
          · rcases max_choice start top with eq | eq
            · rw [eq]
              exact Set.mem_insert _ _
            · obtain ⟨metric, mem, lat⟩ := List.mem_map.mp found.1
              rw [eq, ← lat]
              exact .inr ⟨r, List.mem_cons_self, metric, mem, rfl⟩
          · exact .inr ⟨r', List.mem_cons_of_mem _ mem, metric, mem', rfl⟩
        · have above : max start top ≤ time := greatest.2 (Set.mem_insert _ _)
          rintro x (rfl | ⟨r', mem, metric, mem', rfl⟩)
          · exact (le_max_left _ _).trans above
          · rcases List.mem_cons.mp mem with rfl | mem
            · have below := found.2 _ (List.mem_map_of_mem mem')
              exact below.trans ((le_max_right _ _).trans above)
            · exact greatest.2 (.inr ⟨r', mem, metric, mem', rfl⟩)

/-- A communicator has a time exactly if all its tasks have results. -/
theorem commMaxTime_isSome {results : TaskResults} :
    (commMaxTime results).isSome ↔ ∀ r ∈ results, r.values ≠ [] := by
  rcases foldlM_taskMaxTime results 0 with ⟨⟨r, mem, none⟩, eq⟩ | ⟨all, time, eq, -⟩
  · rw [commMaxTime, eq]
    constructor
    · intro h
      cases h
    · intro all
      exact absurd none (all r mem)
  · rw [commMaxTime, eq]
    exact ⟨fun _ ↦ all, fun _ ↦ rfl⟩

/-- A time is the largest latency or zero. -/
theorem commMaxTime_greatest {results : TaskResults} {time : ℚ}
    (eq : commMaxTime results = some time) :
    IsGreatest (insert 0 (resultLatencies results)) time := by
  rcases foldlM_taskMaxTime results 0 with ⟨-, none⟩ | ⟨-, time', eq', greatest⟩
  · rw [commMaxTime, none] at eq
    cases eq
  · rw [commMaxTime, eq'] at eq
    cases eq
    exact greatest

/-- A time is the largest latency exactly if there is a latency that is not negative. -/
theorem commMaxTime_greatest_iff {results : TaskResults} {time : ℚ}
    (eq : commMaxTime results = some time) :
    IsGreatest (resultLatencies results) time ↔ ∃ x ∈ resultLatencies results, 0 ≤ x := by
  have greatest := commMaxTime_greatest eq
  constructor
  · intro h
    exact ⟨time, h.1, greatest.2 (Set.mem_insert _ _)⟩
  · rintro ⟨x, mem, nonneg⟩
    refine ⟨?_, fun y hy ↦ greatest.2 (.inr hy)⟩
    rcases greatest.1 with rfl | inside
    · rwa [← le_antisymm (greatest.2 (.inr mem)) nonneg]
    · exact inside

/-! ### The communicators -/

section

variable {commResults : Dict (List Nat) TaskResults} {t p : Nat}

/-- The entry of a communicator in the sorted list. -/
def timed (e : Nat × TaskResults) : Nat × ℚ := (e.1, (commMaxTime e.2).getD 0)

theorem mem_byFirstRank {results : TaskResults} :
    (∃ first, (first, results) ∈ byFirstRank commResults) ↔ results ∈ commResults.values := by
  simp only [byFirstRank, List.mem_insertionSort, Dict.values, List.mem_map, Prod.mk.injEq]
  constructor
  · rintro ⟨first, e, mem, -, eq⟩
    exact ⟨e, mem, eq⟩
  · rintro ⟨e, mem, eq⟩
    exact ⟨_, e, mem, rfl, eq⟩

theorem length_byFirstRank : (byFirstRank commResults).length = commResults.items.length := by
  rw [byFirstRank, List.length_insertionSort, List.length_map]

/-- The sorted times are those of the sorted communicators. -/
theorem commTimes_eq (h : StageResults commResults t p)
    (all : ∀ e ∈ commResults.items, (commMaxTime e.2).isSome) :
    ∃ times, commTimes commResults = some times ∧
      times.items.insertionSort (·.1 ≤ ·.1) = (byFirstRank commResults).map timed := by
  have read : commResults.items.mapM commItem =
      some (commResults.items.map fun e ↦ timed (e.1.headD 0, e.2)) := by
    apply mapM_eq_map
    intro e mem
    obtain ⟨first, rest, eq⟩ := List.exists_cons_of_ne_nil (h.ranked e mem)
    obtain ⟨time, found⟩ := Option.isSome_iff_exists.mp (all e mem)
    simp [commItem, timed, eq, found]
  have firsts : ((commResults.items.map fun e ↦ timed (e.1.headD 0, e.2)).map Prod.fst).Nodup := by
    have distinct := h.distinct
    rw [Dict.keys, List.map_map] at distinct
    rw [List.map_map]
    exact distinct
  refine ⟨_, by rw [commTimes, read]; rfl, ?_⟩
  rw [Dict.items_ofItems firsts, byFirstRank,
    List.map_insertionSort (·.1 ≤ ·.1) (·.1 ≤ ·.1) timed _ (fun _ _ _ _ ↦ Iff.rfl), List.map_map]
  rfl

theorem commMaxTime_isSome_of_commTimes (some : (commTimes commResults).isSome) :
    ∀ e ∈ commResults.items, (commMaxTime e.2).isSome := by
  intro e mem
  rw [commTimes, Option.isSome_map, isSome_mapM_iff] at some
  exact Option.isSome_of_isSome_bind (some e mem)

/-- A window of one communicator. -/
theorem windowMax_one (items : List (Nat × ℚ)) (i : Nat) :
    windowMax items 1 i = items[i]?.map Prod.snd := by
  cases found : items[i]? <;> simp [windowMax, found]

/-- The window from the last place on, if it has a value, is not longer than one. -/
theorem windowMax_last {items : List (Nat × ℚ)} {n : Nat}
    (some : (windowMax items n (items.length - 1)).isSome) : n ≤ 1 := by
  by_contra long
  have all := Option.isSome_of_isSome_bind some
  rw [isSome_mapM_iff] at all
  have past := all items.length (by rw [List.mem_range'_1]; omega)
  simp at past

/-- With windows of one the times are those of the sorted communicators. -/
theorem parseCommunicationResults_one {tpRanks : String} (h : StageResults commResults t p)
    (one : tpDegree tpRanks = 1) (all : ∀ e ∈ commResults.items, (commMaxTime e.2).isSome) :
    parseCommunicationResults tpRanks commResults =
      some (((byFirstRank commResults).map timed).map Prod.snd) := by
  obtain ⟨times, eq, sorted⟩ := commTimes_eq h all
  rw [parseCommunicationResults, eq, Option.bind_some, sorted, one]
  have windows := mapM_getElem? (((byFirstRank commResults).map timed).map Prod.snd)
  rw [List.length_map] at windows
  simpa only [funext (windowMax_one _), List.getElem?_map] using windows

/-- A stage of one communicator. -/
theorem stageLatencies_one {i : Nat} {e : Nat × TaskResults}
    (found : (byFirstRank commResults)[i]? = some e) :
    stageLatencies commResults 1 i = resultLatencies e.2 := by
  have block : ((byFirstRank commResults).drop (i * 1)).take 1 = [e] := by
    rw [Nat.mul_one, List.take_one, List.head?_drop, found]
    rfl
  ext x
  simp only [stageLatencies, block, List.mem_singleton, exists_eq_left]
  rfl

/-- With windows of one the times are those of the stages exactly if no communicator has negative
latencies only. -/
theorem perStage_one_iff (number : commResults.items.length = 1 * p)
    (all : ∀ e ∈ commResults.items, (commMaxTime e.2).isSome) :
    PerStage commResults 1 p (((byFirstRank commResults).map timed).map Prod.snd) ↔
      ∀ results ∈ commResults.values, ∃ x ∈ resultLatencies results, 0 ≤ x := by
  have time : ∀ e ∈ byFirstRank commResults, commMaxTime e.2 = some (timed e).2 := by
    intro e mem
    obtain ⟨e', mem', eq⟩ := List.mem_map.mp (mem_byFirstRank.mp ⟨e.1, mem⟩)
    obtain ⟨m, found⟩ := Option.isSome_iff_exists.mp (all e' mem')
    rw [← eq, timed, ← eq, found]
    rfl
  constructor
  · rintro ⟨-, greatest⟩ results mem
    obtain ⟨first, mem⟩ := mem_byFirstRank.mpr mem
    obtain ⟨i, hi, eq⟩ := List.mem_iff_getElem.mp mem
    have found : (byFirstRank commResults)[i]? = some (first, results) := by
      rw [List.getElem?_eq_getElem hi, eq]
    have top := greatest i (timed (first, results)).2 (by simp [found])
    rw [stageLatencies_one found] at top
    exact (commMaxTime_greatest_iff (time _ mem)).mp top
  · intro nonneg
    refine ⟨?_, ?_⟩
    · rw [List.length_map, List.length_map, length_byFirstRank, number, Nat.one_mul]
    · intro i m found
      rw [List.getElem?_map, List.getElem?_map, Option.map_map, Option.map_eq_some_iff] at found
      obtain ⟨e, found, rfl⟩ := found
      have mem := List.mem_of_getElem? found
      rw [stageLatencies_one found]
      apply (commMaxTime_greatest_iff (time e mem)).mpr
      exact nonneg _ (mem_byFirstRank.mp ⟨e.1, mem⟩)

/-- The result has a value for each stage, the largest latency of its communicators, exactly if a
stage has one communicator, which has a latency that is not negative and results for all tasks. -/
theorem parseCommunicationResults_perStage {tpRanks : String} (h : StageResults commResults t p)
    (degree : tpDegree tpRanks = t) (stages : 1 ≤ p) :
    (∃ times, parseCommunicationResults tpRanks commResults = some times ∧
      PerStage commResults t p times) ↔
    t = 1 ∧ ∀ results ∈ commResults.values,
      (∀ r ∈ results, r.values ≠ []) ∧ ∃ x ∈ resultLatencies results, 0 ≤ x := by
  constructor
  · rintro ⟨times, eq, perStage⟩
    obtain ⟨d, eq', windows⟩ := Option.bind_eq_some_iff.mp eq
    have all := commMaxTime_isSome_of_commTimes (by rw [eq']; rfl)
    have one : t = 1 := by
      obtain ⟨d', same, sorted⟩ := commTimes_eq h all
      rw [eq'] at same
      cases same
      have length : (d.items.insertionSort (·.1 ≤ ·.1)).length = t * p := by
        rw [sorted, List.length_map, length_byFirstRank, h.number]
      have positive : 1 ≤ t := by
        rw [← degree, tpDegree]
        exact List.length_pos_of_ne_nil (List.splitOn_ne_nil _ _)
      have nonempty := Nat.mul_le_mul positive stages
      have last := (isSome_mapM_iff.mp (Option.isSome_of_mem windows)) (t * p - 1)
        (by rw [List.mem_range]; omega)
      rw [degree, ← length] at last
      exact le_antisymm (windowMax_last last) positive
    subst one
    rw [parseCommunicationResults_one h degree all, Option.some.injEq] at eq
    rw [← eq, perStage_one_iff h.number all] at perStage
    refine ⟨rfl, ?_⟩
    intro results mem
    refine ⟨?_, perStage results mem⟩
    obtain ⟨e, known, rfl⟩ := List.mem_map.mp mem
    exact commMaxTime_isSome.mp (all e known)
  · rintro ⟨rfl, values⟩
    have all : ∀ e ∈ commResults.items, (commMaxTime e.2).isSome := fun e mem ↦
      commMaxTime_isSome.mpr (values e.2 (List.mem_map_of_mem mem)).1
    refine ⟨_, parseCommunicationResults_one h degree all, ?_⟩
    exact (perStage_one_iff h.number all).mpr fun results mem ↦ (values results mem).2

end

/-- Each of four communicators of two ranks, with the result of one task. -/
def eightRankResults : Dict (List Nat) TaskResults :=
  Dict.ofItems ([[0, 2], [1, 3], [4, 6], [5, 7]].map fun ranks ↦
    (ranks, [Dict.ofItems (ranks.map fun r ↦ (r, (⟨1, 3, 2, 0⟩ : PerformanceMetric)))]))

/-- With two tensor-parallel ranks the last window runs past the four communicators. -/
theorem parseCommunicationResults_raises :
    StageResults eightRankResults 2 2 ∧ tpDegree "0_1" = 2 ∧
      parseCommunicationResults "0_1" eightRankResults = none := by
  refine ⟨⟨?_, ?_, ?_, ?_⟩, ?_, ?_⟩ <;> decide +kernel

/-- Two stages of one communicator. -/
def fourRankResults : Dict (List Nat) TaskResults :=
  Dict.ofItems ([[2, 3], [0, 1]].map fun ranks ↦
    (ranks, [Dict.ofItems (ranks.map fun r ↦ (r, (⟨1, 3, 2, 0⟩ : PerformanceMetric)))]))

theorem parseCommunicationResults_perStage_two :
    (∃ times, parseCommunicationResults "0" fourRankResults = some times ∧
      PerStage fourRankResults 1 2 times) ↔
    1 = 1 ∧ ∀ results ∈ fourRankResults.values,
      (∀ r ∈ results, r.values ≠ []) ∧ ∃ x ∈ resultLatencies results, 0 ≤ x := by
  apply parseCommunicationResults_perStage
  · constructor <;> decide +kernel
  · decide +kernel
  · decide

end ProbingBaselines.Greyhound.ControlPlane
