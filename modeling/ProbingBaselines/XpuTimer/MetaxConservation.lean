import Mathlib.Data.List.Nodup
import Mathlib.Data.List.Perm.Basic
import Mathlib.Data.List.Range
import ProbingBaselines.Lib.Run
import ProbingBaselines.XpuTimer.MetaxManager

/-!
# Conservation of ops and launches

Whatever the interleaving of hook threads and poller: every op is in one place, every sampled
launch is in flight or folded, once, and the statistics count exactly the folded launches. An op
that the poller has folded and not yet released is still the poller's, but its launch is no
longer in flight.
-/

namespace ProbingBaselines.XpuTimer

open Lib

/-! ### The statistics -/

namespace Stats

theorem get_modify (stats : Stats) (name : String) (f : KernelStat → KernelStat) (key : String) :
    (stats.modify name f).get key = if key = name then f (stats.get name) else stats.get key := by
  induction stats with
  | nil =>
    by_cases h : key = name
    · simp [modify, get, h]
    · simp [modify, get, h, List.lookup_cons, beq_eq_false_iff_ne.mpr h]
  | cons p rest ih =>
    obtain ⟨k, s⟩ := p
    rw [modify]
    split
    · next hk =>
      subst hk
      by_cases h : key = k
      · simp [get, h]
      · simp [get, h, List.lookup_cons, beq_eq_false_iff_ne.mpr h]
    · next hk =>
      by_cases h : key = k
      · subst h
        simp [get, hk]
      · have hne := beq_eq_false_iff_ne.mpr h
        have hne' := beq_eq_false_iff_ne.mpr (Ne.symm hk)
        simp only [get, List.lookup_cons, hne, hne'] at ih ⊢
        exact ih

/-- A field that a fold keeps. -/
theorem field_modify {β : Type} (g : KernelStat → β) (f : KernelStat → KernelStat)
    (hf : ∀ s, g (f s) = g s) (stats : Stats) (name key : String) :
    g ((stats.modify name f).get key) = g (stats.get key) := by
  rw [get_modify]
  split
  · next hk => rw [hf, hk]
  · rfl

/-- A counter that a fold raises by one. -/
theorem counter_modify (g : KernelStat → Nat) (f : KernelStat → KernelStat)
    (hf : ∀ s, g (f s) = g s + 1) (stats : Stats) (name key : String) :
    g ((stats.modify name f).get key) = g (stats.get key) + if name = key then 1 else 0 := by
  rw [get_modify]
  by_cases hk : key = name
  · rw [if_pos hk, if_pos hk.symm, hf, hk]
  · rw [if_neg hk, if_neg (Ne.symm hk), Nat.add_zero]

theorem total_modify (stats : Stats) (name : String) (f : KernelStat → KernelStat) :
    (stats.modify name f).total + (stats.get name).count =
      stats.total + (f (stats.get name)).count := by
  induction stats with
  | nil => simp [modify, total, get, KernelStat.zero]
  | cons p rest ih =>
    obtain ⟨k, s⟩ := p
    rw [modify]
    split
    · next hk =>
      subst hk
      simp only [total, get, List.map_cons, List.sum_cons, List.lookup_cons_self, Option.getD_some]
      omega
    · next hk =>
      have hne := beq_eq_false_iff_ne.mpr (Ne.symm hk)
      simp only [total, get, List.map_cons, List.sum_cons, List.lookup_cons, hne] at ih ⊢
      omega

end Stats

/-! ### Where ops and launches are -/

namespace Poller

/-- The ops the poller has. -/
def owned : Poller → List Nat
  | .idle => []
  | .scanning rest pending => rest ++ pending
  | .ready op _ rest pending => op :: (rest ++ pending)
  | .hanging op _ rest pending => op :: (rest ++ pending)
  | .releasing op rest pending => op :: (rest ++ pending)

/-- The ops the poller has and whose launch it has not folded. -/
def unfolded : Poller → List Nat
  | .releasing _ rest pending => rest ++ pending
  | p => p.owned

/-- The op seen ready and not yet folded. -/
def inHand : Poller → List Nat
  | .ready op _ _ _ => [op]
  | _ => []

/-- The op found hanging and not yet folded so. -/
def hung : Poller → List Nat
  | .hanging op _ _ _ => [op]
  | _ => []

end Poller

namespace Manager

/-- The ops held by hook threads. -/
def held (m : Manager) : List Nat := m.calls.map HookCall.op

/-- Every place an op can be in, one after the other. -/
def places (m : Manager) : List Nat := m.pool ++ (m.held ++ (m.work ++ m.poller.owned))

/-- The ops of the launches that are held by a hook thread or the poller, or queued. -/
def inFlight (m : Manager) : List Nat := m.held ++ (m.work ++ m.poller.unfolded)

/-- The launches of ops. -/
def launches (m : Manager) (ops : List Nat) : List Nat := ops.map fun i ↦ (m.ops i).launch

/-- What every reachable state satisfies. -/
structure Conserved (m : Manager) : Prop where
  places : m.places.Perm (List.range m.allocated)
  launches : (m.launches m.inFlight ++ m.folded.map Prod.fst).Perm (List.range m.sampled)
  seen : m.seenReady = m.folded.map Prod.fst ++ m.launches m.poller.inHand
  counts : ∀ key, (m.stats.get key).count = m.folded.countP (·.2 = key) + m.metas.count key
  total : m.stats.total = m.folded.length + m.metas.length
  hangCounts : ∀ key, (m.stats.get key).hangCount = m.hangs.countP (·.2 = key)
  hangs : (m.hangs.map Prod.fst).Nodup
  hangs_lt : ∀ l ∈ m.hangs.map Prod.fst, l < m.sampled
  unreported : ∀ i ∈ m.inFlight, (m.ops i).hangReported = false →
    (m.ops i).launch ∉ m.hangs.map Prod.fst
  hung : ∀ i ∈ m.poller.hung, (m.ops i).hangReported = true ∧
    (m.ops i).launch ∉ m.hangs.map Prod.fst

variable {m m' : Manager}

/-- No op is in two places. -/
theorem Conserved.nodup (h : m.Conserved) : m.places.Nodup :=
  h.places.nodup_iff.mpr List.nodup_range

/-- An op in the pool or not yet created is not in flight. -/
private theorem Conserved.not_inFlight (h : m.Conserved) {op : Nat}
    (hop : op ∈ m.pool ∨ op = m.allocated) : op ∉ m.inFlight := by
  have hsub : ∀ i ∈ m.inFlight, i ∈ m.held ++ (m.work ++ m.poller.owned) := by
    intro i hi
    simp only [inFlight, List.mem_append] at hi ⊢
    rcases hi with hi | hi | hi
    · exact .inl hi
    · exact .inr (.inl hi)
    · refine .inr (.inr ?_)
      cases hp : m.poller with
      | releasing op rest pending =>
        rw [hp] at hi
        exact List.mem_cons_of_mem _ hi
      | _ =>
        rw [hp] at hi
        exact hi
  intro hin
  cases hop with
  | inl hp =>
    have := List.nodup_append.mp h.nodup
    exact this.2.2 _ hp _ (hsub _ hin) rfl
  | inr he =>
    have hm : op ∈ m.places := List.mem_append_right _ (hsub _ hin)
    have := List.mem_range.mp (h.places.subset hm)
    omega

private theorem inHand_subset (m : Manager) : m.poller.inHand ⊆ m.inFlight := by
  intro i hi
  refine List.mem_append_right _ (List.mem_append_right _ ?_)
  cases hp : m.poller with
  | ready op us rest pending =>
    rw [hp] at hi
    rw [List.mem_singleton.mp hi]
    exact List.mem_cons_self
  | _ =>
    rw [hp] at hi
    cases hi

private theorem hung_subset (m : Manager) : m.poller.hung ⊆ m.inFlight := by
  intro i hi
  refine List.mem_append_right _ (List.mem_append_right _ ?_)
  cases hp : m.poller with
  | hanging op us rest pending =>
    rw [hp] at hi
    rw [List.mem_singleton.mp hi]
    exact List.mem_cons_self
  | _ =>
    rw [hp] at hi
    cases hi

/-- A step that moves ops about, keeps each op's launch and flag and folds nothing. -/
private theorem Conserved.move (h : m.Conserved) (hplaces : m'.places.Perm m.places)
    (hflight : m'.inFlight.Perm m.inFlight) (ha : m'.allocated = m.allocated)
    (hs : m'.sampled = m.sampled) (hl : ∀ i, (m'.ops i).launch = (m.ops i).launch)
    (hr : ∀ i, (m'.ops i).hangReported = false → (m.ops i).hangReported = false)
    (hseen : m'.seenReady = m.folded.map Prod.fst ++ m.launches m'.poller.inHand)
    (hstats : m'.stats = m.stats) (hf : m'.folded = m.folded) (hh : m'.hangs = m.hangs)
    (hm : m'.metas = m.metas)
    (hhung : ∀ i ∈ m'.poller.hung, (m'.ops i).hangReported = true ∧
      (m.ops i).launch ∉ m.hangs.map Prod.fst) :
    m'.Conserved where
  places := by rw [ha]; exact hplaces.trans h.places
  launches := by
    have : m'.launches m'.inFlight = m.launches m'.inFlight := List.map_congr_left fun i _ ↦ hl i
    rw [this, hf, hs]
    exact ((hflight.map _).append_right _).trans h.launches
  seen := by
    have : m'.launches m'.poller.inHand = m.launches m'.poller.inHand :=
      List.map_congr_left fun i _ ↦ hl i
    rw [this, hf]
    exact hseen
  counts := by rw [hstats, hf, hm]; exact h.counts
  total := by rw [hstats, hf, hm]; exact h.total
  hangCounts := by rw [hstats, hh]; exact h.hangCounts
  hangs := by rw [hh]; exact h.hangs
  hangs_lt := by rw [hh, hs]; exact h.hangs_lt
  unreported := by
    intro i hi hrep
    rw [hl, hh]
    exact h.unreported i (hflight.subset hi) (hr i hrep)
  hung := by
    intro i hi
    rw [hl, hh]
    exact hhung i hi

/-! ### Steps of the hook threads -/

/-- An acquired op was the last of the pool or is new, and is that of the next launch. -/
private theorem acquire_cases {op : Nat} {m₁ : Manager} (hacq : m.acquire = (op, m₁)) :
    (op ∈ m.pool ∨ op = m.allocated) ∧
      ∃ pool alloc, m₁ = { m with
          pool := pool
          allocated := alloc
          ops := Function.update m.ops op
            { m.ops op with hangReported := false, launch := m.sampled }
          sampled := m.sampled + 1 } ∧
        ((alloc = m.allocated ∧ (pool ++ [op]).Perm m.pool) ∨
          (alloc = m.allocated + 1 ∧ op = m.allocated ∧ pool = m.pool)) := by
  unfold Manager.acquire at hacq
  cases hlast : m.pool.getLast? with
  | none =>
    rw [hlast] at hacq
    cases hacq
    exact ⟨.inr rfl, _, _, rfl, .inr ⟨rfl, rfl, rfl⟩⟩
  | some last =>
    rw [hlast] at hacq
    cases hacq
    have hsplit : m.pool.dropLast ++ [op] = m.pool := List.dropLast_append_getLast? op hlast
    exact ⟨.inl (List.mem_of_getLast? hlast), _, _, rfl, .inl ⟨rfl, .of_eq hsplit⟩⟩

/-- An acquired op leaves the pool, or is new, for a launch of its own. -/
private theorem Conserved.acquire (h : m.Conserved) {t op : Nat} {m₁ : Manager}
    (hacq : m.acquire = (op, m₁)) :
    ({ m₁ with calls := ⟨t, op, false⟩ :: m₁.calls } : Manager).Conserved := by
  obtain ⟨hop, pool, alloc, rfl, hpool⟩ := acquire_cases hacq
  -- the op is that of no launch in flight
  have hnot := h.not_inFlight hop
  have hsame (i : Nat) (hi : i ∈ m.inFlight) :
      Function.update m.ops op { m.ops op with hangReported := false, launch := m.sampled } i =
        m.ops i := by
    refine Function.update_of_ne ?_ _ _
    rintro rfl
    exact hnot hi
  have hlaunches {ops : List Nat} (hops : ops ⊆ m.inFlight) :
      ops.map (fun i ↦ (Function.update m.ops op
        { m.ops op with hangReported := false, launch := m.sampled } i).launch) =
      ops.map fun i ↦ (m.ops i).launch :=
    List.map_congr_left fun i hi ↦ by rw [hsame i (hops hi)]
  refine ⟨?_, ?_, ?_, h.counts, h.total, h.hangCounts, h.hangs, ?_, ?_, ?_⟩
  · have hp := h.places
    simp only [Manager.places, held] at hp ⊢
    cases hpool with
    | inl hpool =>
      obtain ⟨rfl, hpool⟩ := hpool
      refine List.Perm.trans ?_ hp
      rw [List.map_cons, List.cons_append]
      have hfront := ((List.perm_append_singleton op pool).symm.trans hpool).append_right
        (m.calls.map HookCall.op ++ (m.work ++ m.poller.owned))
      exact List.perm_middle.trans hfront
    | inr hpool =>
      obtain ⟨rfl, rfl, rfl⟩ := hpool
      rw [List.range_succ, List.map_cons, List.cons_append]
      exact (List.perm_middle.trans (hp.cons _)).trans (List.perm_append_singleton _ _).symm
  · have hl := h.launches
    simp only [Manager.launches, inFlight, held, List.map_cons, List.cons_append,
      Function.update_self, List.range_succ] at hl ⊢
    refine ((List.Perm.cons _ ?_).trans (List.perm_append_singleton _ _).symm)
    have hflight := hlaunches (List.Subset.refl m.inFlight)
    simp only [inFlight, held] at hflight
    rw [hflight]
    exact hl
  · simp only [Manager.launches, hlaunches (inHand_subset m)]
    exact h.seen
  · intro l hl
    exact Nat.lt_succ_of_lt (h.hangs_lt l hl)
  · intro i hi hrep
    simp only [inFlight, held, List.map_cons, List.cons_append, List.mem_cons] at hi
    cases hi with
    | inl hi =>
      subst hi
      simp only [Function.update_self]
      intro hmem
      exact Nat.lt_irrefl _ (h.hangs_lt _ hmem)
    | inr hi =>
      simp only [hsame i hi] at hrep ⊢
      exact h.unreported i hi hrep
  · intro i hi
    simp only [hsame i (hung_subset m hi)]
    exact h.hung i hi

private theorem Conserved.launch (h : m.Conserved) {c : MetaxConfig} {t : Nat}
    (hs : launch c t m = some m') : m'.Conserved := by
  have counted (n : Nat → Nat) : ({ m with launched := n } : Manager).Conserved :=
    h.move (.refl _) (.refl _) rfl rfl (fun _ ↦ rfl) (fun _ hr ↦ hr) h.seen rfl rfl rfl rfl h.hung
  unfold Manager.launch at hs
  split at hs
  · contradiction
  · simp only at hs
    split at hs
    · cases hs
      exact counted _
    · cases hs
      exact (counted _).acquire rfl

/-- The held ops with one call taken out and its op in front. -/
private theorem held_perm {t : Nat} {call : HookCall}
    (hf : m.calls.find? (·.thread = t) = some call) :
    (call.op :: (m.calls.erase call).map HookCall.op).Perm m.held := by
  have := (List.perm_cons_erase (List.mem_of_find?_eq_some hf)).map HookCall.op
  exact this.symm

private theorem Conserved.label (h : m.Conserved) {t now : Nat} {kernel : KernelName}
    (hs : label t kernel now m = some m') : m'.Conserved := by
  unfold Manager.label at hs
  split at hs
  · next t' op hf =>
    cases hs
    have hheld := held_perm hf
    refine h.move ?_ ?_ rfl rfl (fun i ↦ ?_) (fun i ↦ ?_) ?_ rfl rfl rfl rfl ?_
    · exact (hheld.append_right _).append_left _
    · exact hheld.append_right _
    · by_cases hi : i = op
      · subst hi
        simp
      · simp [Function.update_of_ne hi]
    · by_cases hi : i = op
      · subst hi
        simp
      · simp [Function.update_of_ne hi]
    · exact h.seen
    · intro i hi
      obtain ⟨hrep, hno⟩ := h.hung i hi
      refine ⟨?_, hno⟩
      by_cases he : i = op
      · subst he
        simpa using hrep
      · simpa [Function.update_of_ne he] using hrep
  · contradiction

private theorem Conserved.enqueue (h : m.Conserved) {t : Nat} (hs : enqueue t m = some m') :
    m'.Conserved := by
  unfold Manager.enqueue at hs
  split at hs
  · next t' op hf =>
    cases hs
    have hheld := held_perm hf
    -- the op goes from the front of the held ops to the end of the queue
    have hmove (tail : List Nat) : ((m.calls.erase ⟨t', op, true⟩).map HookCall.op ++
        ((m.work ++ [op]) ++ tail)).Perm (m.held ++ (m.work ++ tail)) := by
      refine List.Perm.trans ?_ (hheld.append_right _)
      rw [List.cons_append, List.append_assoc, List.singleton_append]
      refine List.Perm.trans ?_ List.perm_middle
      exact List.perm_middle.append_left _
    exact h.move ((hmove _).append_left _) (hmove _) rfl rfl (fun _ ↦ rfl) (fun _ hr ↦ hr) h.seen
      rfl rfl rfl rfl h.hung
  · contradiction

/-! ### Steps of the poller -/

private theorem Conserved.swap (h : m.Conserved) (hs : swap m = some m') : m'.Conserved := by
  unfold Manager.swap at hs
  split at hs
  · next hp =>
    cases hs
    have hseen := h.seen
    rw [hp] at hseen
    refine h.move ?_ ?_ rfl rfl (fun _ ↦ rfl) (fun _ hr ↦ hr) hseen rfl rfl rfl rfl
      (by simp [Poller.hung])
    · simp [Manager.places, held, Poller.owned, hp]
    · simp [inFlight, held, Poller.unfolded, Poller.owned, hp]
  · contradiction

private theorem Conserved.pushBack (h : m.Conserved) (hs : pushBack m = some m') :
    m'.Conserved := by
  unfold Manager.pushBack at hs
  split at hs
  · next pending hp =>
    cases hs
    have hseen := h.seen
    rw [hp] at hseen
    refine h.move ?_ ?_ rfl rfl (fun _ ↦ rfl) (fun _ hr ↦ hr) hseen rfl rfl rfl rfl
      (by simp [Poller.hung])
    · simp [Manager.places, held, Poller.owned, hp]
    · simp [inFlight, held, Poller.unfolded, Poller.owned, hp]
  · contradiction

private theorem Conserved.release (h : m.Conserved) (hs : release m = some m') :
    m'.Conserved := by
  unfold Manager.release at hs
  split at hs
  · next op rest pending hp =>
    cases hs
    have hseen := h.seen
    rw [hp] at hseen
    refine h.move ?_ ?_ rfl rfl (fun _ ↦ rfl) (fun _ hr ↦ hr) hseen rfl rfl rfl rfl
      (by simp [Poller.hung])
    · simp only [Manager.places, held, Poller.owned, hp]
      rw [List.perm_iff_count]
      intro i
      simp only [List.count_append, List.count_cons, List.count_nil]
      omega
    · simp [inFlight, held, Poller.unfolded, Poller.owned, hp]
  · contradiction

private theorem Conserved.query (h : m.Conserved) {c : MetaxConfig} {success : Bool} {ms : ℚ}
    {now : Nat} (hs : query c success ms now m = some m') : m'.Conserved := by
  unfold Manager.query at hs
  split at hs
  · next op rest pending hp =>
    have hseen := h.seen
    rw [hp] at hseen
    have hin : op ∈ m.inFlight := by simp [inFlight, hp, Poller.unfolded, Poller.owned]
    split at hs
    · cases hs
      refine h.move ?_ ?_ rfl rfl (fun _ ↦ rfl) (fun _ hr ↦ hr) ?_ rfl rfl rfl rfl
        (by simp [Poller.hung])
      · simp [Manager.places, held, Poller.owned, hp]
      · simp [inFlight, held, Poller.unfolded, Poller.owned, hp]
      · rw [hseen]
        simp [Poller.inHand, Manager.launches]
    · simp only at hs
      split at hs
      · next hhang =>
        cases hs
        refine h.move ?_ ?_ rfl rfl (fun i ↦ ?_) (fun i ↦ ?_) hseen rfl rfl rfl rfl ?_
        · simp [Manager.places, held, Poller.owned, hp]
        · simp [inFlight, held, Poller.unfolded, Poller.owned, hp]
        · by_cases hi : i = op
          · subst hi
            simp
          · simp [Function.update_of_ne hi]
        · by_cases hi : i = op
          · subst hi
            simp
          · simp [Function.update_of_ne hi]
        · intro i hi
          rw [Poller.hung, List.mem_singleton] at hi
          subst hi
          exact ⟨by simp, h.unreported i hin hhang.1⟩
      · cases hs
        refine h.move ?_ ?_ rfl rfl (fun _ ↦ rfl) (fun _ hr ↦ hr) hseen rfl rfl rfl rfl
          (by simp [Poller.hung])
        · simp only [Manager.places, held, Poller.owned, hp]
          rw [List.perm_iff_count]
          intro i
          simp only [List.count_append, List.count_cons, List.count_nil]
          omega
        · simp only [inFlight, held, Poller.unfolded, Poller.owned, hp]
          rw [List.perm_iff_count]
          intro i
          simp only [List.count_append, List.count_cons, List.count_nil]
          omega
  · contradiction

private theorem Conserved.foldReady (h : m.Conserved) {c : MetaxConfig} {op : Nat} {us : ℚ}
    {rest pending : List Nat} (hp : m.poller = .ready op us rest pending)
    {trace : List TraceLine} :
    ({ m with
      stats := m.stats.modify (m.ops op).name (foldReady c (m.ops op) us)
      trace := trace
      poller := .releasing op rest pending
      folded := m.folded ++ [((m.ops op).launch, (m.ops op).name)] } : Manager).Conserved where
  places := by
    have := h.places
    rw [Manager.places, hp] at this
    exact this
  launches := by
    have hl := h.launches
    rw [inFlight, hp] at hl
    refine List.Perm.trans ?_ hl
    simp only [Manager.launches, inFlight, held, Poller.unfolded, Poller.owned, List.map_append,
      List.map_cons, List.map_nil]
    rw [List.perm_iff_count]
    intro i
    simp only [List.count_append, List.count_cons, List.count_nil]
    omega
  seen := by
    have := h.seen
    rw [hp] at this
    rw [this]
    simp [Poller.inHand, Manager.launches]
  counts := by
    intro key
    have hcount := Stats.counter_modify KernelStat.count (Manager.foldReady c (m.ops op) us)
      (fun _ ↦ rfl) m.stats (m.ops op).name key
    rw [hcount, h.counts key, List.countP_append, List.countP_singleton]
    simp only [decide_eq_true_eq]
    omega
  total := by
    have htotal := h.total
    have hmod := m.stats.total_modify (m.ops op).name (Manager.foldReady c (m.ops op) us)
    simp only [Manager.foldReady] at hmod ⊢
    rw [List.length_append, List.length_singleton]
    omega
  hangCounts := by
    intro key
    have hkept := Stats.field_modify KernelStat.hangCount (Manager.foldReady c (m.ops op) us)
      (fun _ ↦ rfl) m.stats (m.ops op).name key
    exact hkept.trans (h.hangCounts key)
  hangs := h.hangs
  hangs_lt := h.hangs_lt
  unreported := by
    intro i hi
    refine h.unreported i ?_
    simp only [inFlight, held, Poller.unfolded, Poller.owned, hp, List.mem_append, List.mem_cons]
      at hi ⊢
    exact hi.imp_right (Or.imp_right .inr)
  hung := fun _ hi ↦ absurd hi List.not_mem_nil

/-- Two ops in flight have two launches. -/
private theorem Conserved.launch_inj (h : m.Conserved) {i j : Nat} (hi : i ∈ m.inFlight)
    (hj : j ∈ m.inFlight) (he : (m.ops i).launch = (m.ops j).launch) : i = j := by
  have hn : (m.launches m.inFlight).Nodup :=
    (List.nodup_append.mp (h.launches.nodup_iff.mpr List.nodup_range)).1
  exact List.inj_on_of_nodup_map hn hi hj he

private theorem Conserved.foldHang (h : m.Conserved) {op us : Nat} {rest pending : List Nat}
    (hp : m.poller = .hanging op us rest pending) :
    ({ m with
      stats := m.stats.modify (m.ops op).name (foldHang (m.ops op))
      poller := .scanning rest (pending ++ [op])
      hangs := m.hangs ++ [((m.ops op).launch, (m.ops op).name)] } : Manager).Conserved := by
  have hmoved : (rest ++ (pending ++ [op])).Perm (op :: (rest ++ pending)) := by
    rw [← List.append_assoc]
    exact List.perm_append_singleton _ _
  have hflight : (m.held ++ (m.work ++ (rest ++ (pending ++ [op])))).Perm m.inFlight := by
    rw [inFlight, hp]
    exact (hmoved.append_left _).append_left _
  obtain ⟨hrep, hno⟩ := h.hung op (by rw [hp]; exact List.mem_singleton_self op)
  have hin : op ∈ m.inFlight := hung_subset m (by rw [hp]; exact List.mem_singleton_self op)
  constructor
  · have := h.places
    rw [Manager.places, hp] at this
    exact ((hmoved.append_left _).append_left _ |>.append_left _).trans this
  · exact ((hflight.map _).append_right _).trans h.launches
  · have := h.seen
    rw [hp] at this
    exact this
  · intro key
    have hkept := Stats.field_modify KernelStat.count (Manager.foldHang (m.ops op))
      (fun _ ↦ rfl) m.stats (m.ops op).name key
    exact hkept.trans (h.counts key)
  · have hmod := m.stats.total_modify (m.ops op).name (Manager.foldHang (m.ops op))
    have htotal := h.total
    simp only [Manager.foldHang] at hmod ⊢
    omega
  · intro key
    have hcount := Stats.counter_modify KernelStat.hangCount (Manager.foldHang (m.ops op))
      (fun _ ↦ rfl) m.stats (m.ops op).name key
    rw [hcount, h.hangCounts key, List.countP_append, List.countP_singleton]
    simp only [decide_eq_true_eq]
  · rw [List.map_append, List.nodup_append]
    refine ⟨h.hangs, List.nodup_singleton _, ?_⟩
    intro a ha b hb he
    rw [List.map_cons, List.map_nil, List.mem_singleton] at hb
    rw [he, hb] at ha
    exact hno ha
  · intro l hl
    rw [List.map_append, List.mem_append] at hl
    cases hl with
    | inl hl => exact h.hangs_lt l hl
    | inr hl =>
      rw [List.map_cons, List.map_nil, List.mem_singleton] at hl
      rw [hl]
      have hmem : (m.ops op).launch ∈ m.launches m.inFlight ++ m.folded.map Prod.fst :=
        List.mem_append_left _ (List.mem_map_of_mem hin)
      exact List.mem_range.mp (h.launches.subset hmem)
  · intro i hi hf
    have hi' := hflight.subset hi
    rw [List.map_append, List.mem_append, not_or]
    refine ⟨h.unreported i hi' hf, ?_⟩
    rw [List.map_cons, List.map_nil, List.mem_singleton]
    intro he
    rw [h.launch_inj hi' hin he, hrep] at hf
    contradiction
  · exact fun _ hi ↦ absurd hi List.not_mem_nil

private theorem Conserved.fold (h : m.Conserved) {c : MetaxConfig} (hs : fold c m = some m') :
    m'.Conserved := by
  unfold Manager.fold at hs
  split at hs
  · next hp =>
    cases hs
    exact h.foldReady hp
  · next hp =>
    cases hs
    exact h.foldHang hp
  · contradiction

private theorem Conserved.collMeta (h : m.Conserved) (name : String) (bytes : Nat) :
    (recordCollMeta name bytes m).Conserved where
  places := h.places
  launches := h.launches
  seen := h.seen
  counts := by
    intro key
    have hcount := Stats.counter_modify KernelStat.count
      (fun s ↦ { s with type := "coll", count := s.count + 1 }) (fun _ ↦ rfl) m.stats
      ("coll:" ++ name) key
    simp only [recordCollMeta]
    rw [hcount, h.counts key, List.count_append, List.count_singleton]
    simp only [beq_iff_eq]
    omega
  total := by
    have htotal := h.total
    have hmod := m.stats.total_modify ("coll:" ++ name)
      fun s ↦ { s with type := "coll", count := s.count + 1 }
    simp only [recordCollMeta] at hmod ⊢
    rw [List.length_append, List.length_singleton]
    omega
  hangCounts := by
    intro key
    have hkept := Stats.field_modify KernelStat.hangCount
      (fun s ↦ { s with type := "coll", count := s.count + 1 }) (fun _ ↦ rfl) m.stats
      ("coll:" ++ name) key
    exact hkept.trans (h.hangCounts key)
  hangs := h.hangs
  hangs_lt := h.hangs_lt
  unreported := h.unreported
  hung := h.hung

private theorem conserved_init : init.Conserved where
  places := .refl _
  launches := .refl _
  seen := rfl
  counts := fun _ ↦ rfl
  total := rfl
  hangCounts := fun _ ↦ rfl
  hangs := List.nodup_nil
  hangs_lt := fun _ hl ↦ absurd hl List.not_mem_nil
  unreported := fun _ hi ↦ absurd hi List.not_mem_nil
  hung := fun _ hi ↦ absurd hi List.not_mem_nil

private theorem Conserved.step (h : m.Conserved) {c : MetaxConfig} {a : MetaxAct}
    (hs : step c m a = some m') : m'.Conserved := by
  cases a with
  | launch t => exact h.launch hs
  | label t kernel now => exact h.label hs
  | enqueue t => exact h.enqueue hs
  | swap => exact h.swap hs
  | query success ms now => exact h.query hs
  | fold => exact h.fold hs
  | release => exact h.release hs
  | pushBack => exact h.pushBack hs
  | collMeta name bytes =>
    cases hs
    exact h.collMeta name bytes

/-- In every reachable state each op is in exactly one of the pool, a hook thread's hands, the
work queue and the poller's lists; each sampled launch is in flight or folded, once, and folded
only after its stop event was seen ready; each name counts the launches folded under it (and
its collective calls), and its hangs, at most one a launch; and the counts, less the collective
calls, and the launches queued and held make up the launches sampled. -/
theorem metax_conservation (c : MetaxConfig) (acts : List MetaxAct) (m : Manager)
    (run : Run (step c) anyStep init acts m) :
    m.places.Perm (List.range m.allocated) ∧
    (m.launches m.inFlight ++ m.folded.map Prod.fst).Perm (List.range m.sampled) ∧
    m.seenReady = m.folded.map Prod.fst ++ m.launches m.poller.inHand ∧
    (∀ key, (m.stats.get key).count = m.folded.countP (·.2 = key) + m.metas.count key) ∧
    (∀ key, (m.stats.get key).hangCount = m.hangs.countP (·.2 = key)) ∧
    (m.hangs.map Prod.fst).Nodup ∧
    m.stats.total + m.work.length + (m.held.length + m.poller.unfolded.length) =
      m.sampled + m.metas.length := by
  have h : m.Conserved := run.invariant conserved_init fun _ _ _ ht _ hs ↦ ht.step hs
  refine ⟨h.places, h.launches, h.seen, h.counts, h.hangCounts, h.hangs, ?_⟩
  have hlen := h.launches.length_eq
  simp only [Manager.launches, inFlight, List.length_append, List.length_map, List.length_range]
    at hlen
  have := h.total
  omega

/-- Two threads launch; the first launch hangs, is put back behind the second and is then found
ready. -/
theorem metax_conservation_requeued :
    ∃ m, Run (step ⟨1, 2, 0, by decide⟩) anyStep init
        [.launch 0, .label 0 (.function "gemm") 0, .launch 1, .enqueue 0,
          .collMeta "mcclAllReduce" 8, .label 1 (.collective "mcclAllReduce" 8) 5, .swap,
          .query false 0 2001, .fold, .enqueue 1, .pushBack, .swap, .query false 0 2006, .fold,
          .query true 3 2007, .fold] m ∧
      (m.pool, m.work, m.folded.map Prod.fst, m.hangs.map Prod.fst) = ([], [], [0], [0, 1]) ∧
      m.stats.total + m.work.length + (m.held.length + m.poller.unfolded.length) =
        m.sampled + m.metas.length := by
  have eval : (List.foldlM (step ⟨1, 2, 0, by decide⟩) init
      [.launch 0, .label 0 (.function "gemm") 0, .launch 1, .enqueue 0, .collMeta "mcclAllReduce" 8,
        .label 1 (.collective "mcclAllReduce" 8) 5, .swap, .query false 0 2001, .fold, .enqueue 1,
        .pushBack, .swap, .query false 0 2006, .fold, .query true 3 2007, .fold]).map
      (fun m ↦ (m.pool, m.work, m.folded.map Prod.fst, m.hangs.map Prod.fst)) =
      some ([], [], [0], [0, 1]) := by
    decide +kernel
  obtain ⟨m, hm, he⟩ := Option.map_eq_some_iff.mp eval
  have run := run_of_foldlM hm
  exact ⟨m, run, he, (metax_conservation _ _ m run).2.2.2.2.2.2⟩

end Manager

end ProbingBaselines.XpuTimer
