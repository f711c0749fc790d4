import Mathlib.Data.List.Nodup
import Mathlib.Data.List.Perm.Basic
import Mathlib.Data.List.Range
import ProbingBaselines.Lib.Run
import ProbingBaselines.XpuTimer.GpuTimerManager

/-!
# Recycling of timers

`pop` hands out a front item judged hung without taking it off the queue, and `doWork` then
trusts an `is_ready` it has not refreshed (`common/manager.cc:563-569`). No queued timer is
recycled all the same: an item is judged hung only after it was found not ready, and nothing is
found ready as long as it stays at the front.
-/

namespace ProbingBaselines.XpuTimer

open Lib

namespace WorkPc

/-- The item taken off the queue and not yet returned. -/
def owned : WorkPc → List Nat
  | .processing v => [v]
  | .returning v => [v]
  | _ => []

/-- The item taken off the queue and not yet rebuilt. -/
def unbuilt : WorkPc → List Nat
  | .processing v => [v]
  | _ => []

end WorkPc

namespace GpuTimer

theorem isHang_launch (t : GpuTimer) (timeout now : Int) :
    (t.isHang timeout now).2.launch = t.launch := by
  unfold isHang
  split
  · rfl
  · split <;> rfl

theorem isHang_hangCounter (t : GpuTimer) (timeout now : Int) :
    (t.isHang timeout now).2.hangCounter = t.hangCounter ∨
      (t.isHang timeout now).2.hangCounter = 0 := by
  unfold isHang
  split
  · exact .inl rfl
  · split <;> exact .inr rfl

/-- Only a timer that was found not ready is judged hung. -/
theorem hangCounter_of_isHang {t : GpuTimer} {timeout now : Int}
    (h : (t.isHang timeout now).1 = true) : 0 < t.hangCounter := by
  unfold isHang at h
  split at h
  · contradiction
  · next hge => simp only [hangCounterEstimator] at hge; omega

theorem isReady_launch (t : GpuTimer) (ready : Bool) : (t.isReady ready).2.launch = t.launch := by
  unfold isReady
  split
  · rfl
  · split <;> rfl

theorem eq_of_isReady {t : GpuTimer} {ready : Bool} (h : (t.isReady ready).1 = true) :
    (t.isReady ready).2 = t := by
  unfold isReady at h ⊢
  split
  · rfl
  · next hhost =>
    split
    · rfl
    · next hready => simp [hhost, hready] at h

end GpuTimer

namespace GpuTimerManager

@[simp]
theorem setTimer_timers (m : GpuTimerManager) (v : Nat) (t : GpuTimer) (i : Nat) :
    (m.setTimer v t).timers i = if i = v then t else m.timers i :=
  Function.update_apply ..

/-- The timers held by launch threads. -/
def held (m : GpuTimerManager) : List Nat := m.calls.map LaunchCall.timer

/-- Every place a timer can be in, one after the other. -/
def places (m : GpuTimerManager) : List Nat :=
  m.eventPool ++ (m.held ++ (m.workingQueue ++ m.pc.owned))

/-- The launches of timers. -/
def launches (m : GpuTimerManager) (items : List Nat) : List Nat :=
  items.map fun v ↦ (m.timers v).launch

/-- What every reachable state satisfies. Only the front item can have been found not ready, and
the last answer `doWork` kept is then still that one. -/
structure Recycled (m : GpuTimerManager) : Prop where
  places : m.places.Perm (List.range m.allocated)
  order : m.popped ++ m.launches m.workingQueue = List.range m.recorded
  processed : m.processed.map Processed.launch ++ m.launches m.pc.unbuilt = m.popped
  owned : ∀ v ∈ m.pc.owned, (m.timers v).launch ∈ m.popped
  behind : ∀ v ∈ m.workingQueue.tail, (m.timers v).hangCounter = 0
  front : ∀ v, m.workingQueue.head? = some v → 0 < (m.timers v).hangCounter → m.isReady = false
  hanging : ∀ v, m.pc = .hanging v → m.isReady = false ∧ m.workingQueue.head? = some v
  ready : ∀ call ∈ m.calls, call.isReset = true → (m.timers call.timer).hangCounter = 0

variable {m m' : GpuTimerManager}

/-- No timer is in two places. -/
theorem Recycled.nodup (h : m.Recycled) : m.places.Nodup :=
  h.places.nodup_iff.mpr List.nodup_range

/-- A held timer is neither queued nor with `doWork`. -/
theorem Recycled.not_queued (h : m.Recycled) {v : Nat} (hv : v ∈ m.held) :
    v ∉ m.workingQueue ∧ v ∉ m.pc.owned := by
  have hrest := (List.nodup_append.mp h.nodup).2.1
  have hapart := (List.nodup_append.mp hrest).2.2
  constructor
  · intro hq
    exact hapart v hv v (List.mem_append_left _ hq) rfl
  · intro ho
    exact hapart v hv v (List.mem_append_right _ ho) rfl

/-- The launches, in terms of timers that agree on the items. -/
private theorem launches_congr {items : List Nat}
    (h : ∀ v ∈ items, (m'.timers v).launch = (m.timers v).launch) :
    m'.launches items = m.launches items :=
  List.map_congr_left h

/-- A change of timers that keeps launches and at most clears hang counters. -/
private theorem Recycled.retime (h : m.Recycled) (timers : Nat → GpuTimer) (st : TimerStatics)
    (dumped : List Kernel) (hl : ∀ v, (timers v).launch = (m.timers v).launch)
    (hc : ∀ v, (timers v).hangCounter = (m.timers v).hangCounter ∨ (timers v).hangCounter = 0) :
    ({ m with timers := timers, statics := st, dumped := dumped } : GpuTimerManager).Recycled := by
  have cleared {v : Nat} (hv : (m.timers v).hangCounter = 0) : (timers v).hangCounter = 0 := by
    cases hc v with
    | inl hsame => rw [hsame, hv]
    | inr hzero => exact hzero
  constructor
  · exact h.places
  · rw [launches_congr fun v _ ↦ hl v]
    exact h.order
  · rw [launches_congr fun v _ ↦ hl v]
    exact h.processed
  · intro v hv
    show (timers v).launch ∈ m.popped
    rw [hl]
    exact h.owned v hv
  · intro v hv
    exact cleared (h.behind v hv)
  · intro v hv hpos
    apply h.front v hv
    cases hc v with
    | inl hsame => exact hsame ▸ hpos
    | inr hzero =>
      rw [hzero] at hpos
      contradiction
  · exact h.hanging
  · intro call hcall hreset
    exact cleared (h.ready call hcall hreset)

/-- One timer changed so. -/
private theorem Recycled.setTimer (h : m.Recycled) {v : Nat} {t : GpuTimer}
    (hl : t.launch = (m.timers v).launch)
    (hc : t.hangCounter = (m.timers v).hangCounter ∨ t.hangCounter = 0) :
    (m.setTimer v t).Recycled := by
  apply h.retime (Function.update m.timers v t) m.statics m.dumped
  · intro i
    by_cases hi : i = v
    · subst hi
      rw [Function.update_self, hl]
    · rw [Function.update_of_ne hi]
  · intro i
    by_cases hi : i = v
    · subst hi
      rw [Function.update_self]
      exact hc
    · rw [Function.update_of_ne hi]
      exact .inl rfl

/-! ### Steps of the launch threads -/

private theorem Recycled.getEvent (h : m.Recycled) {thread : Nat}
    (hs : getEvent thread m = some m') : m'.Recycled := by
  unfold GpuTimerManager.getEvent at hs
  split at hs
  · contradiction
  · split at hs
    · next hpool =>
      cases hs
      have hnew : (m.setTimer m.allocated
          { m.timers m.allocated with hangCounter := 0 }).Recycled :=
        h.setTimer rfl (.inr rfl)
      refine ⟨?_, hnew.order, hnew.processed, hnew.owned, hnew.behind, hnew.front, hnew.hanging, ?_⟩
      · have hp := h.places
        simp only [GpuTimerManager.places, held, hpool, List.nil_append, List.map_cons,
          List.cons_append, List.range_succ] at hp ⊢
        exact (hp.cons _).trans (List.perm_append_singleton _ _).symm
      · intro call hcall hreset
        cases hcall with
        | head => contradiction
        | tail _ hcall => exact hnew.ready call hcall hreset
    · next v pool hpool =>
      cases hs
      refine ⟨?_, h.order, h.processed, h.owned, h.behind, h.front, h.hanging, ?_⟩
      · have hp := h.places
        simp only [GpuTimerManager.places, held, hpool, List.map_cons, List.cons_append] at hp ⊢
        exact List.perm_middle.trans hp
      · intro call hcall hreset
        cases hcall with
        | head => contradiction
        | tail _ hcall => exact h.ready call hcall hreset

/-- The held timers with one call taken out and its timer in front. -/
private theorem held_erase_perm {call : LaunchCall} (hcall : call ∈ m.calls) :
    (call.timer :: (m.calls.erase call).map LaunchCall.timer).Perm m.held :=
  ((List.perm_cons_erase hcall).map LaunchCall.timer).symm

private theorem Recycled.reset (h : m.Recycled) {thread : Nat} {kernel : Kernel} {isHost : Bool}
    {now : Int} (hs : reset thread kernel isHost now m = some m') : m'.Recycled := by
  unfold GpuTimerManager.reset at hs
  split at hs
  · next thread' v hf =>
    cases hs
    have hset : (m.setTimer v ((m.timers v).reset kernel isHost now)).Recycled :=
      h.setTimer rfl (.inr rfl)
    refine ⟨?_, hset.order, hset.processed, hset.owned, hset.behind, hset.front, hset.hanging, ?_⟩
    · refine List.Perm.trans ?_ h.places
      exact ((held_erase_perm (List.mem_of_find?_eq_some hf)).append_right _).append_left _
    · intro call hcall hreset
      cases hcall with
      | head => simp [GpuTimerManager.setTimer, GpuTimer.reset]
      | tail _ hcall => exact hset.ready call (List.mem_of_mem_erase hcall) hreset
  · contradiction

theorem unbuilt_subset (pc : WorkPc) : pc.unbuilt ⊆ pc.owned := by
  intro v hv
  cases pc with
  | processing w => exact hv
  | _ => cases hv

/-- A held timer goes to the end of the queue, its hang counter clear, for the next launch. -/
private theorem Recycled.enqueue (h : m.Recycled) {call : LaunchCall} (hcall : call ∈ m.calls)
    (hreset : call.isReset = true) {timers : Nat → GpuTimer}
    (hlaunch : (timers call.timer).launch = m.recorded)
    (hother : ∀ i, i ≠ call.timer → (timers i).launch = (m.timers i).launch)
    (hcounter : ∀ i, (timers i).hangCounter = (m.timers i).hangCounter) :
    ({ m with
      timers := timers
      calls := m.calls.erase call
      workingQueue := m.workingQueue ++ [call.timer]
      recorded := m.recorded + 1 } : GpuTimerManager).Recycled := by
  obtain ⟨hqueue, howned⟩ := h.not_queued (v := call.timer) (List.mem_map_of_mem hcall)
  have hclear : (m.timers call.timer).hangCounter = 0 := h.ready _ hcall hreset
  constructor
  · refine List.Perm.trans ?_ h.places
    refine List.Perm.append_left _ (List.Perm.trans ?_ ((held_erase_perm hcall).append_right _))
    simp only [held, List.append_assoc, List.cons_append, List.nil_append]
    exact (List.perm_middle.append_left _).trans List.perm_middle
  · have hqueued : m.workingQueue.map (fun i ↦ (timers i).launch) = m.launches m.workingQueue :=
      List.map_congr_left fun i hi ↦ hother i (ne_of_mem_of_not_mem hi hqueue)
    simp only [GpuTimerManager.launches, List.map_append, List.map_cons, List.map_nil, hlaunch,
      List.range_succ, ← List.append_assoc]
    rw [hqueued, h.order]
  · rw [← h.processed]
    congr 1
    apply launches_congr
    intro i hi
    exact hother i (ne_of_mem_of_not_mem (unbuilt_subset _ hi) howned)
  · intro i hi
    show (timers i).launch ∈ m.popped
    rw [hother i (ne_of_mem_of_not_mem hi howned)]
    exact h.owned i hi
  · intro i hi
    show (timers i).hangCounter = 0
    rw [hcounter]
    cases hq : m.workingQueue with
    | nil =>
      rw [hq] at hi
      cases hi
    | cons w queue =>
      simp only [hq, List.cons_append, List.tail_cons, List.mem_append, List.mem_singleton] at hi
      cases hi with
      | inl hi => exact h.behind i (by rw [hq]; exact hi)
      | inr hi => rw [hi, hclear]
  · intro i hi hpos
    simp only [hcounter] at hi hpos
    cases hq : m.workingQueue with
    | nil =>
      simp only [hq, List.nil_append, List.head?_cons, Option.some.injEq] at hi
      subst hi
      omega
    | cons w queue =>
      simp only [hq, List.cons_append, List.head?_cons] at hi
      exact h.front i (by rw [hq]; exact hi) hpos
  · intro i hi
    obtain ⟨hready, hhead⟩ := h.hanging i hi
    exact ⟨hready, by simp [hhead]⟩
  · intro other hmem hres
    show (timers other.timer).hangCounter = 0
    rw [hcounter]
    exact h.ready other (List.mem_of_mem_erase hmem) hres

private theorem Recycled.recordEvent (h : m.Recycled) {thread : Nat}
    (hs : recordEvent thread m = some m') : m'.Recycled := by
  unfold GpuTimerManager.recordEvent at hs
  split at hs
  · next thread' v hf =>
    cases hs
    apply h.enqueue (List.mem_of_find?_eq_some hf) rfl
    · simp
    · intro i hi
      simp [hi]
    · intro i
      by_cases hi : i = v
      · subst hi
        simp
      · simp [hi]
  · contradiction

/-! ### Steps of `doWork` -/

/-- The front item is taken off the queue, found ready. -/
private theorem Recycled.take (h : m.Recycled) (hpc : m.pc = .popping) {v : Nat} {queue : List Nat}
    (hq : m.workingQueue = v :: queue) (isReady isHangFlag : Bool) :
    ({ m with
      isReady := isReady
      isHangFlag := isHangFlag
      workingQueue := queue
      pc := .processing v
      popped := m.popped ++ [(m.timers v).launch] } : GpuTimerManager).Recycled := by
  have hbehind : ∀ i ∈ queue, (m.timers i).hangCounter = 0 := by
    intro i hi
    exact h.behind i (by rw [hq]; exact hi)
  constructor
  · have hp := h.places
    simp only [GpuTimerManager.places, held, hq, hpc, WorkPc.owned, List.append_nil] at hp ⊢
    refine List.Perm.trans ?_ hp
    exact ((List.perm_append_singleton v queue).append_left _).append_left _
  · have ho := h.order
    simp only [GpuTimerManager.launches, hq, List.map_cons] at ho ⊢
    rw [List.append_assoc, List.singleton_append]
    exact ho
  · have hp := h.processed
    rw [hpc] at hp
    rw [← hp]
    simp [GpuTimerManager.launches, WorkPc.unbuilt]
  · intro i hi
    rw [List.mem_singleton.mp hi]
    exact List.mem_append_right _ (List.mem_singleton_self _)
  · intro i hi
    exact hbehind i (List.mem_of_mem_tail hi)
  · intro i hi hpos
    have := hbehind i (List.mem_of_mem_head? hi)
    simp only at hpos
    omega
  · intro i hi
    contradiction
  · exact h.ready

/-- The front item is found not ready: its hang counter goes up. -/
private theorem Recycled.notReady (h : m.Recycled) {v : Nat} {queue : List Nat}
    (hq : m.workingQueue = v :: queue) {t : GpuTimer} (hl : t.launch = (m.timers v).launch)
    (isHangFlag : Bool) :
    ({ m.setTimer v t with
      isReady := false
      isHangFlag := isHangFlag } : GpuTimerManager).Recycled := by
  have hlaunch (i : Nat) : ((m.setTimer v t).timers i).launch = (m.timers i).launch := by
    rw [setTimer_timers]
    split
    · next hi => rw [hi, hl]
    · rfl
  -- a queued item other than the front, and a held one, is not the front
  have hcons : (v :: queue).Nodup := by
    rw [← hq]
    exact (List.nodup_append.mp (List.nodup_append.mp (List.nodup_append.mp h.nodup).2.1).2.1).1
  have hother {i : Nat} (hi : i ≠ v) (hzero : (m.timers i).hangCounter = 0) :
      ((m.setTimer v t).timers i).hangCounter = 0 := by
    rw [setTimer_timers, if_neg hi]
    exact hzero
  constructor
  · exact h.places
  · exact (congrArg (m.popped ++ ·) (launches_congr fun i _ ↦ hlaunch i)).trans h.order
  · exact (congrArg (m.processed.map Processed.launch ++ ·)
      (launches_congr fun i _ ↦ hlaunch i)).trans h.processed
  · intro i hi
    show ((m.setTimer v t).timers i).launch ∈ m.popped
    rw [hlaunch]
    exact h.owned i hi
  · intro i hi
    have hmem : i ∈ m.workingQueue.tail := hi
    apply hother _ (h.behind i hmem)
    rw [hq] at hmem
    exact ne_of_mem_of_not_mem hmem (List.nodup_cons.mp hcons).1
  · intro i hi hpos
    rfl
  · intro i hi
    exact ⟨rfl, (h.hanging i hi).2⟩
  · intro call hcall hreset
    apply hother _ (h.ready call hcall hreset)
    rintro rfl
    apply (h.not_queued (List.mem_map_of_mem hcall)).1
    rw [hq]
    exact List.mem_cons_self

private theorem Recycled.pop (h : m.Recycled) {timeout now : Int} {ready : Bool}
    (hs : pop timeout ready now m = some m') : m'.Recycled := by
  unfold GpuTimerManager.pop at hs
  split at hs
  · cases hs
    exact h
  · next v queue hpc hq =>
    have hhang : (m.setTimer v ((m.timers v).isHang timeout now).2).Recycled :=
      h.setTimer (GpuTimer.isHang_launch ..) (GpuTimer.isHang_hangCounter ..)
    simp only at hs
    split at hs
    · next hjudged =>
      -- a front item judged hung was found not ready, and no item has been found ready since
      cases hs
      have hstale : m.isReady = false := by
        apply h.front v
        · rw [hq, List.head?_cons]
        · exact GpuTimer.hangCounter_of_isHang hjudged
      refine ⟨?_, hhang.order, ?_, ?_, hhang.behind, hhang.front, ?_, hhang.ready⟩
      · have hp := hhang.places
        rw [GpuTimerManager.places, show (m.setTimer v _).pc = .popping from hpc] at hp
        exact hp
      · have hp := hhang.processed
        rw [show (m.setTimer v _).pc = .popping from hpc] at hp
        exact hp
      · intro i hi
        cases hi
      · intro i hi
        cases hi
        exact ⟨hstale, by simp [GpuTimerManager.setTimer, hq]⟩
    · split at hs
      · next hready =>
        cases hs
        have htimer := GpuTimer.eq_of_isReady hready
        rw [htimer]
        have htake := hhang.take (v := v) hpc hq
        simp only [GpuTimerManager.setTimer, Function.update_idem, Function.update_self] at htake ⊢
        exact htake _ _
      · next hready =>
        cases hs
        have hnot := hhang.notReady (v := v) hq
          (t := (((m.timers v).isHang timeout now).2.isReady ready).2)
          (by rw [GpuTimer.isReady_launch, setTimer_timers, if_pos rfl])
        rw [Bool.not_eq_true] at hready
        rw [hready]
        exact hnot _
  · contradiction

/-- A hang dump numbers the queued kernels and moves nothing. -/
theorem printHangName_eq (m : GpuTimerManager) (items : List Nat) :
    ∃ timers st, m.printHangName items =
        { m with
          timers := timers
          statics := st
          dumped := m.dumped ++ items.map fun v ↦ (m.timers v).kernel } ∧
      (∀ v, (timers v).launch = (m.timers v).launch) ∧
      (∀ v, (timers v).hangCounter = (m.timers v).hangCounter) ∧
      ∀ v, (timers v).kernel = (m.timers v).kernel := by
  induction items generalizing m with
  | nil => exact ⟨m.timers, m.statics, by simp [printHangName], by simp, by simp, by simp⟩
  | cons v items ih =>
    have hkeep {α : Type} (f : GpuTimer → α)
        (hf : f (m.statics.reBuild (m.timers v)).2 = f (m.timers v)) (i : Nat) :
        f ((m.setTimer v (m.statics.reBuild (m.timers v)).2).timers i) = f (m.timers i) := by
      rw [setTimer_timers]
      split
      · next hi => rw [hi, hf]
      · rfl
    obtain ⟨timers, st, heq, hl, hc, hk⟩ :=
      ih { m.setTimer v (m.statics.reBuild (m.timers v)).2 with
        statics := (m.statics.reBuild (m.timers v)).1
        dumped := m.dumped ++ [(m.timers v).kernel] }
    refine ⟨timers, st, ?_, ?_, ?_, ?_⟩
    · rw [printHangName]
      refine heq.trans ?_
      simp only [GpuTimerManager.setTimer, List.map_cons, List.append_assoc, List.singleton_append]
      congr 3
      exact List.map_congr_left fun i _ ↦ hkeep GpuTimer.kernel rfl i
    · intro i
      rw [hl]
      exact hkeep GpuTimer.launch rfl i
    · intro i
      rw [hc]
      exact hkeep GpuTimer.hangCounter rfl i
    · intro i
      rw [hk]
      exact hkeep GpuTimer.kernel rfl i

/-- What `doHang` does with `is_ready` false: it dumps the queue, the first time, and the
iteration or the process ends. -/
theorem doHang_cases {hangKill : Bool} (hs : doHang hangKill m = some m')
    (hready : m.isReady = false) :
    (∃ v, m.pc = .hanging v) ∧
      ((m.hasDoHang = true ∧ m' = { m with pc := .popping }) ∨
        (m.hasDoHang = false ∧ m' = { m.printHangName m.workingQueue with
          hasDoHang := true
          pc := if hangKill then .exited else .popping })) := by
  unfold doHang at hs
  split at hs
  · next v hpc =>
    refine ⟨⟨v, hpc⟩, ?_⟩
    obtain ⟨timers, st, heq, -⟩ := m.printHangName_eq m.workingQueue
    cases hdone : m.hasDoHang with
    | true => exact .inl ⟨rfl, by simpa [hdone, hpc, hready] using hs.symm⟩
    | false =>
      refine .inr ⟨rfl, ?_⟩
      rw [heq] at hs ⊢
      cases hangKill with
      | true => simpa [hdone] using hs.symm
      | false => simpa [hdone, hpc, hready] using hs.symm
  · contradiction

/-- With nothing in hand, `doWork` may as well be before `pop`, or gone. -/
private theorem Recycled.repc (h : m.Recycled) (hpc : m.pc.owned = []) {pc : WorkPc}
    (hpc' : pc = .popping ∨ pc = .exited) (hasDoHang : Bool) :
    ({ m with pc := pc, hasDoHang := hasDoHang } : GpuTimerManager).Recycled := by
  have hnone : m.pc.unbuilt = [] := List.subset_nil.mp (hpc ▸ unbuilt_subset m.pc)
  have howned : pc.owned = [] := by cases hpc' with | _ h => rw [h]; rfl
  have hunbuilt : pc.unbuilt = [] := List.subset_nil.mp (howned ▸ unbuilt_subset pc)
  refine ⟨?_, h.order, ?_, ?_, h.behind, h.front, ?_, h.ready⟩
  · have hp := h.places
    simp only [GpuTimerManager.places, held, hpc, howned] at hp ⊢
    exact hp
  · have hp := h.processed
    simp only [hnone, hunbuilt] at hp ⊢
    exact hp
  · intro v hv
    simp only [howned] at hv
    cases hv
  · intro v hv
    simp only at hv
    cases hpc' with
    | _ h => rw [h] at hv; contradiction

private theorem Recycled.doHang (h : m.Recycled) {hangKill : Bool}
    (hs : doHang hangKill m = some m') : m'.Recycled := by
  have hready : m.isReady = false := by
    unfold GpuTimerManager.doHang at hs
    split at hs
    · next v hpc => exact (h.hanging v hpc).1
    · contradiction
  obtain ⟨⟨v, hpc⟩, hcases⟩ := doHang_cases hs hready
  have hnone : m.pc.owned = [] := by rw [hpc]; rfl
  cases hcases with
  | inl hdone =>
    rw [hdone.2]
    exact h.repc hnone (.inl rfl) m.hasDoHang
  | inr hdump =>
    obtain ⟨timers, st, heq, hl, hc, -⟩ := m.printHangName_eq m.workingQueue
    rw [hdump.2, heq]
    have hdumped := h.retime timers st
      (m.dumped ++ m.workingQueue.map fun v ↦ (m.timers v).kernel) hl fun i ↦ .inl (hc i)
    apply hdumped.repc hnone _ true
    cases hangKill with
    | true => exact .inr rfl
    | false => exact .inl rfl

/-- What `doWork` does with the item it has popped. -/
theorem process_cases (hs : process m = some m') :
    ∃ v, m.pc = .processing v ∧
      m' = { m.setTimer v (m.statics.reBuild (m.timers v)).2 with
        statics := (m.statics.reBuild (m.timers v)).1
        pc := .returning v
        processed := m.processed ++ [⟨(m.timers v).launch, (m.timers v).kernel,
          (m.statics.reBuild (m.timers v)).2.traceId, (m.statics.reBuild (m.timers v)).2.seq,
          m.dumped⟩] } := by
  unfold process at hs
  split at hs
  · next v hpc => exact ⟨v, hpc, (Option.some.inj hs).symm⟩
  · contradiction

private theorem Recycled.process (h : m.Recycled) (hs : process m = some m') : m'.Recycled := by
  obtain ⟨v, hpc, rfl⟩ := process_cases hs
  have hset : (m.setTimer v (m.statics.reBuild (m.timers v)).2).Recycled :=
    h.setTimer rfl (.inl rfl)
  have hpc' : (m.setTimer v (m.statics.reBuild (m.timers v)).2).pc = .processing v := hpc
  refine ⟨?_, hset.order, ?_, ?_, hset.behind, hset.front, ?_, hset.ready⟩
  · have hp := hset.places
    rw [GpuTimerManager.places, hpc'] at hp
    exact hp
  · have hp := h.processed
    rw [hpc] at hp
    simp only [List.map_append, GpuTimerManager.launches, WorkPc.unbuilt, List.map_nil,
      List.append_nil]
    exact hp
  · have ho := hset.owned
    rw [hpc'] at ho
    exact ho
  · intro i hi
    contradiction

private theorem Recycled.returnObject (h : m.Recycled) (hs : returnObject m = some m') :
    m'.Recycled := by
  unfold GpuTimerManager.returnObject at hs
  split at hs
  · next v hpc =>
    cases hs
    refine ⟨?_, h.order, ?_, ?_, h.behind, h.front, ?_, h.ready⟩
    · have hp := h.places
      rw [GpuTimerManager.places, hpc] at hp
      refine List.Perm.trans ?_ hp
      rw [List.perm_iff_count]
      intro i
      simp only [GpuTimerManager.places, held, WorkPc.owned, List.count_append, List.count_nil]
      omega
    · have hp := h.processed
      rw [hpc] at hp
      exact hp
    · intro i hi
      cases hi
    · intro i hi
      contradiction
  · contradiction

theorem recycled_init : init.Recycled where
  places := .refl _
  order := rfl
  processed := rfl
  owned := fun _ hv ↦ absurd hv List.not_mem_nil
  behind := fun _ hv ↦ absurd hv List.not_mem_nil
  front := fun _ hv ↦ nomatch hv
  hanging := fun _ hv ↦ nomatch hv
  ready := fun _ hc ↦ absurd hc List.not_mem_nil

theorem Recycled.step (h : m.Recycled) {timeout : Int} {hangKill : Bool} {a : TimerAct}
    (hs : step timeout hangKill m a = some m') : m'.Recycled := by
  cases a with
  | getEvent thread => exact h.getEvent hs
  | reset thread kernel isHost now => exact h.reset hs
  | recordEvent thread => exact h.recordEvent hs
  | pop ready now => exact h.pop hs
  | doHang => exact h.doHang hs
  | process => exact h.process hs
  | returnObject => exact h.returnObject hs

/-- Every reachable state keeps its timers apart and its launches in order. -/
theorem recycled_of_run {timeout : Int} {hangKill : Bool} {acts : List TimerAct}
    (run : Run (step timeout hangKill) anyStep init acts m) : m.Recycled :=
  run.invariant recycled_init fun _ _ _ h _ hs ↦ h.step hs

/-- In every reachable state no timer is both queued and in the pool; the item `doWork` rebuilds
or returns was taken off the queue by `pop` and is in neither; and the launches rebuilt, with
the one in hand, are the launches popped, which with those still queued are the launches
recorded, in the order recorded. -/
theorem queued_not_recycled (timeout : Int) (hangKill : Bool) (acts : List TimerAct)
    (m : GpuTimerManager) (run : Run (step timeout hangKill) anyStep init acts m) :
    (∀ v ∈ m.workingQueue, v ∉ m.eventPool) ∧
    (∀ v, m.pc = .processing v ∨ m.pc = .returning v →
      (m.timers v).launch ∈ m.popped ∧ v ∉ m.workingQueue ∧ v ∉ m.eventPool) ∧
    m.processed.map Processed.launch ++ m.launches m.pc.unbuilt = m.popped ∧
    m.popped ++ m.launches m.workingQueue = List.range m.recorded := by
  have h := recycled_of_run run
  have hnodup := List.nodup_append.mp h.nodup
  have hqueue := (List.nodup_append.mp (List.nodup_append.mp hnodup.2.1).2.1).2.2
  refine ⟨?_, ?_, h.processed, h.order⟩
  · intro v hq hp
    exact hnodup.2.2 v hp v (List.mem_append_right _ (List.mem_append_left _ hq)) rfl
  · intro v hpc
    have hv : v ∈ m.pc.owned := by
      cases hpc with
      | _ hpc => rw [hpc]; exact List.mem_singleton_self v
    refine ⟨h.owned v hv, ?_, ?_⟩
    · intro hq
      exact hqueue v hq v hv rfl
    · intro hp
      exact hnodup.2.2 v hp v (List.mem_append_right _ (List.mem_append_right _ hv)) rfl

/-- Two threads launch; the second kernel is ready at once, its timer is reused for a third. -/
theorem queued_not_recycled_reused :
    ∃ m, Run (step 300 false) anyStep init
        [.getEvent 0, .getEvent 1, .reset 1 ⟨"gemm", 8, none⟩ false 0,
          .reset 0 ⟨"nccl_allreduce", 8, some 7⟩ false 1, .recordEvent 1, .pop false 1,
          .recordEvent 0, .pop true 2, .process, .returnObject, .getEvent 2,
          .reset 2 ⟨"gemm", 8, none⟩ false 3, .recordEvent 2, .pop true 4, .process] m ∧
      (m.workingQueue, m.eventPool, m.popped, m.recorded) = ([1], [], [0, 1], 3) ∧
      m.popped ++ m.launches m.workingQueue = List.range m.recorded := by
  have eval : (List.foldlM (step 300 false) init
      [.getEvent 0, .getEvent 1, .reset 1 ⟨"gemm", 8, none⟩ false 0,
        .reset 0 ⟨"nccl_allreduce", 8, some 7⟩ false 1, .recordEvent 1, .pop false 1,
        .recordEvent 0, .pop true 2, .process, .returnObject, .getEvent 2,
        .reset 2 ⟨"gemm", 8, none⟩ false 3, .recordEvent 2, .pop true 4, .process]).map
      (fun m ↦ (m.workingQueue, m.eventPool, m.popped, m.recorded)) =
      some ([1], [], [0, 1], 3) := by
    decide +kernel
  obtain ⟨m, hm, he⟩ := Option.map_eq_some_iff.mp eval
  have run := run_of_foldlM hm
  exact ⟨m, run, he, (queued_not_recycled _ _ _ m run).2.2.2⟩

end GpuTimerManager

end ProbingBaselines.XpuTimer
