import Mathlib.Data.List.Dedup
import Mathlib.Data.List.Perm.Subperm
import ProbingBaselines.Greyhound.Validation
import ProbingBaselines.Lib.Run

/-!
# Tasks are executed once and their results attributed to them

Every rank passes through the same stages for the task the controller is on, whatever the
other parties do: its key is written, fetched, acknowledged, the call executed, the result
written, stored by the controller and deleted. A step of a party moves one rank one stage on
and leaves every other rank's stage alone; a task is over when every named rank is through.
-/

namespace ProbingBaselines.Greyhound

open Lib

/-! ### The stages of one rank -/

/-- Between tasks, for a worker: nothing fetched that it has not reported. -/
def WorkerPc.Idle {R : Type} : WorkerPc R → Prop
  | .polling | .checking | .broadcasting | .resumed => True
  | _ => False

namespace Phase

variable {P : Type}

/-- The dictionary of the current task. -/
def results : Phase P → Results P
  | .collecting _ results => results
  | .deleting _ _ results => results
  | _ => ∅

/-- Whether the task of a rank is still to be written. -/
def due : Phase P → Nat → Prop
  | .dispatching left, r => r ∈ left.map Prod.fst
  | _, _ => False

/-- Whether the controller has stored a rank's result and not deleted it yet. -/
def holds : Phase P → Nat → Prop
  | .deleting r _ _, r' => r' = r
  | _, _ => False

end Phase

/-- What concerns one rank in the current task: its two keys, its worker, its entry in the
dictionary, its calls and executions in this task, whether its write is due and whether its
result is stored but not deleted. -/
structure View (R P : Type) where
  key : Option (List Char)
  pc : WorkerPc R
  result : Option R
  stored : Option P
  entered : List Execution
  executed : List (Execution × R)
  due : Prop
  held : Prop

/-- The stages of a rank through a task, by the job the task has for it. -/
inductive Stage {R P : Type} (fromBytes : R → P) : Option Job → View R P → Prop where
  | unnamed {key : Option (List Char)} {pc : WorkerPc R} (quiet : skips key = true)
      (idle : pc.Idle) : Stage fromBytes none ⟨key, pc, none, none, [], [], False, False⟩
  | unwritten {j : Job} {key : Option (List Char)} {pc : WorkerPc R} (quiet : skips key = true)
      (idle : pc.Idle) : Stage fromBytes (some j) ⟨key, pc, none, none, [], [], True, False⟩
  | written {j : Job} {pc : WorkerPc R} (idle : pc.Idle) :
      Stage fromBytes (some j) ⟨some j.text, pc, none, none, [], [], False, False⟩
  | fetched {j : Job} :
      Stage fromBytes (some j) ⟨some j.text, .acking j.text, none, none, [], [], False, False⟩
  | running {j : Job} :
      Stage fromBytes (some j) ⟨some taskAcked, .running (.p2p j.args), none, none,
        [.p2p j.args], [], False, False⟩
  | executed {j : Job} {x : R} :
      Stage fromBytes (some j) ⟨some taskAcked, .reporting x, none, none,
        [.p2p j.args], [(.p2p j.args, x)], False, False⟩
  | reported {j : Job} {x : R} {pc : WorkerPc R} (idle : pc.Idle) :
      Stage fromBytes (some j) ⟨some taskAcked, pc, some x, none,
        [.p2p j.args], [(.p2p j.args, x)], False, False⟩
  | stored {j : Job} {x : R} {pc : WorkerPc R} (idle : pc.Idle) :
      Stage fromBytes (some j) ⟨some taskAcked, pc, some x, some (fromBytes x),
        [.p2p j.args], [(.p2p j.args, x)], False, True⟩
  | collected {j : Job} {x : R} {pc : WorkerPc R} (idle : pc.Idle) :
      Stage fromBytes (some j) ⟨some taskAcked, pc, none, some (fromBytes x),
        [.p2p j.args], [(.p2p j.args, x)], False, False⟩

namespace Stage

variable {R P : Type} {fromBytes : R → P} {j : Option Job} {v : View R P}

/-- An idle worker may move anywhere it is idle. -/
theorem move (h : Stage fromBytes j v) (idle : v.pc.Idle) {pc : WorkerPc R} (hp : pc.Idle) :
    Stage fromBytes j { v with pc := pc } := by
  cases h with
  | unnamed quiet _ => exact .unnamed quiet hp
  | unwritten quiet _ => exact .unwritten quiet hp
  | written _ => exact .written hp
  | reported _ => exact .reported hp
  | stored _ => exact .stored hp
  | collected _ => exact .collected hp
  | fetched => exact idle.elim
  | running => exact idle.elim
  | executed => exact idle.elim

/-- An idle worker that does not skip its key finds the text of its job. -/
theorem of_not_skips (h : Stage fromBytes j v) (idle : v.pc.Idle) (hk : skips v.key = false) :
    ∃ a, j = some a ∧ v = ⟨some a.text, v.pc, none, none, [], [], False, False⟩ := by
  have acked : skips (some taskAcked) = true := by decide
  cases h with
  | written _ => exact ⟨_, rfl, rfl⟩
  | unnamed quiet _ => simp [quiet] at hk
  | unwritten quiet _ => simp [quiet] at hk
  | reported _ => simp [acked] at hk
  | stored _ => simp [acked] at hk
  | collected _ => simp [acked] at hk
  | fetched => exact idle.elim
  | running => exact idle.elim
  | executed => exact idle.elim

/-- A worker about to acknowledge carries the text of its job. -/
theorem of_acking (h : Stage fromBytes j v) {content : List Char} (hp : v.pc = .acking content) :
    ∃ a, j = some a ∧ content = a.text ∧
      v = ⟨some a.text, .acking a.text, none, none, [], [], False, False⟩ := by
  cases h with
  | fetched => exact ⟨_, rfl, (WorkerPc.acking.inj hp).symm, rfl⟩
  | running => cases hp
  | executed => cases hp
  | _ =>
    subst hp
    contradiction

/-- A worker inside its call executes its job. -/
theorem of_running (h : Stage fromBytes j v) {e : Execution} (hp : v.pc = .running e) :
    ∃ a, j = some a ∧ e = .p2p a.args ∧
      v = ⟨some taskAcked, .running (.p2p a.args), none, none, [.p2p a.args], [], False,
        False⟩ := by
  cases h with
  | running => exact ⟨_, rfl, (WorkerPc.running.inj hp).symm, rfl⟩
  | fetched => cases hp
  | executed => cases hp
  | _ =>
    subst hp
    contradiction

/-- A worker about to report has executed its job once. -/
theorem of_reporting (h : Stage fromBytes j v) {x : R} (hp : v.pc = .reporting x) :
    ∃ a, j = some a ∧ v = ⟨some taskAcked, .reporting x, none, none, [.p2p a.args],
      [(.p2p a.args, x)], False, False⟩ := by
  cases h with
  | executed =>
    cases hp
    exact ⟨_, rfl, rfl⟩
  | fetched => cases hp
  | running => cases hp
  | _ =>
    subst hp
    contradiction

/-- A result in Redis that the controller does not hold is that of an executed job. -/
theorem of_result (h : Stage fromBytes j v) {x : R} (hr : v.result = some x) (hh : ¬ v.held) :
    ∃ a, j = some a ∧ v.pc.Idle ∧ v = ⟨some taskAcked, v.pc, some x, none, [.p2p a.args],
      [(.p2p a.args, x)], False, False⟩ := by
  cases h with
  | reported idle =>
    cases hr
    exact ⟨_, rfl, idle, rfl⟩
  | stored _ => exact (hh trivial).elim
  | _ => cases hr

/-- A result the controller holds is in the dictionary already. -/
theorem of_held (h : Stage fromBytes j v) (hh : v.held) :
    ∃ a x, j = some a ∧ v.pc.Idle ∧ v = ⟨some taskAcked, v.pc, some x, some (fromBytes x),
      [.p2p a.args], [(.p2p a.args, x)], False, True⟩ := by
  cases h with
  | stored idle => exact ⟨_, _, rfl, idle, rfl⟩
  | _ => exact hh.elim

/-- A write that is due finds the rank between tasks. -/
theorem of_due (h : Stage fromBytes j v) (hd : v.due) :
    ∃ a, j = some a ∧ v.pc.Idle ∧ skips v.key = true ∧
      v = ⟨v.key, v.pc, none, none, [], [], True, False⟩ := by
  cases h with
  | unwritten quiet idle => exact ⟨_, rfl, idle, quiet, rfl⟩
  | _ => exact hd.elim

/-- A dictionary entry belongs to a named rank. -/
theorem isSome_of_stored (h : Stage fromBytes j v) (hs : v.stored.isSome) : j.isSome := by
  cases h with
  | unnamed _ _ => exact hs
  | _ => rfl

/-- Once stored and deleted, the rank is through its task. -/
theorem of_stored (h : Stage fromBytes j v) (hs : v.stored.isSome) (hh : ¬ v.held) :
    ∃ a x, j = some a ∧ v.pc.Idle ∧ v = ⟨some taskAcked, v.pc, none, some (fromBytes x),
      [.p2p a.args], [(.p2p a.args, x)], False, False⟩ := by
  cases h with
  | collected idle => exact ⟨_, _, rfl, idle, rfl⟩
  | stored _ => exact (hh trivial).elim
  | _ => cases hs

/-- In a task a rank enters nothing, or the call of its job. -/
theorem entered_cases {a : Job} (h : Stage fromBytes (some a) v) :
    v.entered = [] ∨ v.entered = [.p2p a.args] := by
  cases h with
  | unwritten _ _ => exact .inl rfl
  | written _ => exact .inl rfl
  | fetched => exact .inl rfl
  | _ => exact .inr rfl

/-- No worker stops on a text it cannot parse. -/
theorem pc_ne_crashed (h : Stage fromBytes j v) : v.pc ≠ .crashed := by
  intro hp
  cases h with
  | fetched => cases hp
  | running => cases hp
  | executed => cases hp
  | _ =>
    subst hp
    contradiction

/-- A rank the task does not name does nothing. -/
theorem of_unnamed (h : Stage fromBytes none v) :
    v.pc.Idle ∧ skips v.key = true ∧ v = ⟨v.key, v.pc, none, none, [], [], False, False⟩ := by
  cases h with
  | unnamed quiet idle => exact ⟨idle, quiet, rfl⟩

end Stage

namespace Setup

variable {R P : Type} (S : Setup R P)

/-- The job of a rank in the current task. -/
def currentJob (s : Fleet R P) (r : Nat) : Option Job :=
  s.todo.head?.bind fun t ↦ t.job S.clique r

/-- A rank's view, given its calls and executions in the current task. -/
def view (s : Fleet R P) (entered : List Execution) (executed : List (Execution × R)) (r : Nat) :
    View R P where
  key := s.taskKey r
  pc := (s.workers r).pc
  result := s.resultKey r
  stored := s.phase.results.lookup r
  entered := entered
  executed := executed
  due := s.phase.due r
  held := s.phase.holds r

/-- The calls that tasks ask of a rank. -/
def callsOf (tasks : List CommTask) (r : Nat) : List Execution :=
  tasks.filterMap fun t ↦ (t.job S.clique r).map fun j ↦ .p2p j.args

/-- A task's dictionary holds, for each rank it names, the result of the rank's one execution
of its job, and nothing else. -/
def Settled (t : CommTask) (results : Results P) (executed : Nat → List (Execution × R)) : Prop :=
  ∀ r, match t.job S.clique r with
    | none => executed r = [] ∧ results.lookup r = none
    | some j => ∃ x, executed r = [(.p2p j.args, x)] ∧ results.lookup r = some (S.fromBytes x)

/-- What every reachable state satisfies, `past` being the finished tasks each with what the
ranks executed for it. -/
structure DispatchInv (tasks : List CommTask)
    (past : List (CommTask × (Nat → List (Execution × R)))) (s : Fleet R P) : Prop where
  split : past.map Prod.fst ++ s.todo = tasks
  settled : List.Forall₂ (fun p results ↦ S.Settled p.1 results p.2) past s.collected
  left : ∀ left, s.phase = .dispatching left → ∃ t, s.todo.head? = some t ∧
    left <:+ t.writes S.clique
  stage : ∀ r, ∃ entered executed,
    s.entered r = S.callsOf (past.map Prod.fst) r ++ entered ∧
    s.executed r = (past.map fun p ↦ p.2 r).flatten ++ executed ∧
    Stage S.fromBytes (S.currentJob s r) (view s entered executed r)

variable {S} {tasks : List CommTask} {past : List (CommTask × (Nat → List (Execution × R)))}
  {s s' : Fleet R P}

/-! ### Steps of the workers -/

/-- A step that changes only what concerns one rank, and keeps its stage, keeps the
invariant. -/
private theorem DispatchInv.onRank (h : S.DispatchInv tasks past s) (r : Nat)
    (ht : s'.todo = s.todo) (hc : s'.collected = s.collected) (hp : s'.phase = s.phase)
    (others : ∀ r', r' ≠ r → s'.taskKey r' = s.taskKey r' ∧
      (s'.workers r').pc = (s.workers r').pc ∧ s'.resultKey r' = s.resultKey r' ∧
      s'.entered r' = s.entered r' ∧ s'.executed r' = s.executed r')
    (own : ∀ en ex, Stage S.fromBytes (S.currentJob s r) (view s en ex r) →
      ∃ en' ex', s'.entered r = s.entered r ++ en' ∧ s'.executed r = s.executed r ++ ex' ∧
        Stage S.fromBytes (S.currentJob s r) (view s' (en ++ en') (ex ++ ex') r)) :
    S.DispatchInv tasks past s' where
  split := by rw [ht]; exact h.split
  settled := by rw [hc]; exact h.settled
  left := by rw [ht, hp]; exact h.left
  stage := by
    intro r'
    obtain ⟨en, ex, he, hx, hs⟩ := h.stage r'
    have hj : S.currentJob s' r' = S.currentJob s r' := by rw [currentJob, currentJob, ht]
    rw [hj]
    by_cases hr : r' = r
    · subst hr
      obtain ⟨en', ex', he', hx', hs'⟩ := own en ex hs
      refine ⟨en ++ en', ex ++ ex', ?_, ?_, hs'⟩
      · rw [he', he, List.append_assoc]
      · rw [hx', hx, List.append_assoc]
    · obtain ⟨h1, h2, h3, h4, h5⟩ := others r' hr
      refine ⟨en, ex, by rw [h4, he], by rw [h5, hx], ?_⟩
      rw [view, h1, h2, h3, hp]
      exact hs

private theorem afterTask_idle (r : Nat) : (S.afterTask r).Idle := by
  unfold afterTask
  split <;> trivial

/-- A step that only moves an idle worker to another idle point. -/
private theorem DispatchInv.move (h : S.DispatchInv tasks past s) {r : Nat} {w : Worker R}
    (idle : (s.workers r).pc.Idle) (hw : w.pc.Idle) (ht : s'.todo = s.todo)
    (hc : s'.collected = s.collected) (hp : s'.phase = s.phase)
    (hk : s'.taskKey = s.taskKey) (hr : s'.resultKey = s.resultKey)
    (he : s'.entered = s.entered) (hx : s'.executed = s.executed)
    (hv : s'.workers = Function.update s.workers r w) : S.DispatchInv tasks past s' := by
  refine h.onRank r ht hc hp ?_ ?_
  · intro r' hne
    rw [hk, hr, he, hx, hv, Function.update_of_ne hne]
    exact ⟨rfl, rfl, rfl, rfl, rfl⟩
  · intro en ex hs
    refine ⟨[], [], by simp [he], by simp [hx], ?_⟩
    have := hs.move idle hw
    rw [view, List.append_nil, List.append_nil, hk, hr, hp, hv, Function.update_self]
    exact this

private theorem DispatchInv.poll (h : S.DispatchInv tasks past s) {r : Nat}
    (hs : S.pollStep r s = some s') : S.DispatchInv tasks past s' := by
  obtain ⟨hpc, ⟨-, rfl⟩ | ⟨hk, rfl⟩⟩ := pollStep_cases hs
  · exact h.move (by rw [hpc]; trivial) (w := ⟨S.afterTask r, _⟩) (afterTask_idle r)
      rfl rfl rfl rfl rfl rfl rfl rfl
  · refine h.onRank r rfl rfl rfl ?_ ?_
    · intro r' hne
      simp [moveTo, Function.update_of_ne hne]
    · intro en ex hst
      refine ⟨[], [], by simp [moveTo], by simp [moveTo], ?_⟩
      have idle : (s.workers r).pc.Idle := by rw [hpc]; trivial
      obtain ⟨a, hj, hv⟩ := hst.of_not_skips idle hk
      simp only [view, View.mk.injEq] at hv
      obtain ⟨h1, _, h3, h4, h5, h6, h7, h8⟩ := hv
      rw [hj]
      simp only [view, moveTo, Function.update_self, h1, h3, h4, h5, h6, h7, h8,
        Option.getD_some, List.append_nil]
      exact .fetched

/-- The task that a rank's current job is of. -/
theorem DispatchInv.task_of_currentJob (h : S.DispatchInv tasks past s) {r : Nat} {j : Job}
    (hj : S.currentJob s r = some j) :
    ∃ t ∈ tasks, s.todo.head? = some t ∧ t.job S.clique r = some j := by
  rw [currentJob, Option.bind_eq_some_iff] at hj
  obtain ⟨t, ht, hj⟩ := hj
  refine ⟨t, ?_, ht, hj⟩
  rw [← h.split]
  exact List.mem_append_right _ (List.mem_of_head? ht)

/-- A worker parses the text of its current job back into the job's arguments. -/
theorem DispatchInv.execution_text (h : S.DispatchInv tasks past s)
    (wf : ∀ t ∈ tasks, t.WellFormed S.clique) {r : Nat} {j : Job} (hj : S.currentJob s r = some j) :
    execution j.text = some (.p2p j.args) := by
  obtain ⟨t, hm, -, hj⟩ := h.task_of_currentJob hj
  obtain ⟨hpeer, haddr⟩ := (wf t hm).job_bounded hj
  rw [execution, if_neg (Job.text_ne (by decide)), parseTask_text hpeer haddr]
  rfl

private theorem DispatchInv.ack (h : S.DispatchInv tasks past s)
    (wf : ∀ t ∈ tasks, t.WellFormed S.clique) {r : Nat} (hs : ackStep r s = some s') :
    S.DispatchInv tasks past s' := by
  obtain ⟨content, hpc, hcase⟩ := ackStep_cases hs
  obtain ⟨en, ex, -, -, hst⟩ := h.stage r
  obtain ⟨a, hj, rfl, -⟩ := hst.of_acking hpc
  rw [h.execution_text wf hj] at hcase
  obtain ⟨hnone, -⟩ | ⟨e, he, rfl⟩ := hcase
  · contradiction
  · cases he
    refine h.onRank r rfl rfl rfl ?_ ?_
    · intro r' hne
      simp [moveTo, Function.update_of_ne hne]
    · intro en ex hst
      refine ⟨[.p2p a.args], [], by simp, by simp [moveTo], ?_⟩
      obtain ⟨b, hb, -, hv⟩ := hst.of_acking hpc
      obtain rfl : a = b := Option.some.inj (hj.symm.trans hb)
      simp only [view, View.mk.injEq] at hv
      obtain ⟨_, _, h3, h4, h5, h6, h7, h8⟩ := hv
      rw [hj]
      simp only [view, moveTo, Function.update_self, h3, h4, h5, h6, h7, h8, List.nil_append]
      exact .running

private theorem DispatchInv.finish (h : S.DispatchInv tasks past s) {r : Nat} {x : R}
    (hs : S.finishStep r x s = some s') : S.DispatchInv tasks past s' := by
  obtain ⟨e, hpc, -, rfl⟩ := finishStep_cases hs
  refine h.onRank r rfl rfl rfl ?_ ?_
  · intro r' hne
    simp [moveTo, Function.update_of_ne hne]
  · intro en ex hst
    refine ⟨[], [(e, x)], by simp [moveTo], by simp, ?_⟩
    obtain ⟨a, hj, rfl, hv⟩ := hst.of_running hpc
    simp only [view, View.mk.injEq] at hv
    obtain ⟨h1, _, h3, h4, h5, h6, h7, h8⟩ := hv
    rw [hj]
    simp only [view, moveTo, Function.update_self, h1, h3, h4, h5, h6, h7, h8, List.nil_append,
      List.append_nil]
    exact .executed

private theorem DispatchInv.report (h : S.DispatchInv tasks past s) {r : Nat}
    (hs : S.reportStep r s = some s') : S.DispatchInv tasks past s' := by
  obtain ⟨x, hpc, rfl⟩ := reportStep_cases hs
  refine h.onRank r rfl rfl rfl ?_ ?_
  · intro r' hne
    simp [moveTo, Function.update_of_ne hne]
  · intro en ex hst
    refine ⟨[], [], by simp [moveTo], by simp [moveTo], ?_⟩
    obtain ⟨a, hj, hv⟩ := hst.of_reporting hpc
    simp only [view, View.mk.injEq] at hv
    obtain ⟨h1, _, _, h4, h5, h6, h7, h8⟩ := hv
    rw [hj]
    simp only [view, moveTo, Function.update_self, h1, h4, h5, h6, h7, h8, List.append_nil]
    exact .reported (afterTask_idle r)

private theorem DispatchInv.check (h : S.DispatchInv tasks past s)
    (hs : S.checkStep s = some s') : S.DispatchInv tasks past s' := by
  obtain ⟨hpc, rfl⟩ := checkStep_cases hs
  exact h.move (by rw [hpc]; trivial) (w := ⟨.broadcasting, _⟩) trivial
    rfl rfl rfl rfl rfl rfl rfl rfl

private theorem DispatchInv.leave (h : S.DispatchInv tasks past s) {r : Nat}
    (hs : leaveStep r s = some s') : S.DispatchInv tasks past s' := by
  obtain ⟨hpc, ⟨-, rfl⟩ | ⟨-, rfl⟩⟩ := leaveStep_cases hs
  · exact h.move (by rw [hpc]; trivial) (w := ⟨.polling, _⟩) trivial rfl rfl rfl rfl rfl rfl rfl rfl
  · exact h.move (by rw [hpc]; trivial) (w := ⟨.resumed, _⟩) trivial rfl rfl rfl rfl rfl rfl rfl rfl

/-! ### Steps of the controller -/

/-- A step that changes the phase, and one rank's keys at most, keeps the invariant if it
keeps the stage of each rank. -/
private theorem DispatchInv.onPhase (h : S.DispatchInv tasks past s) (ht : s'.todo = s.todo)
    (hc : s'.collected = s.collected) (he : s'.entered = s.entered) (hx : s'.executed = s.executed)
    (hl : ∀ left, s'.phase = .dispatching left →
      ∃ left', s.phase = .dispatching left' ∧ left <:+ left')
    (hs : ∀ r en ex, Stage S.fromBytes (S.currentJob s r) (view s en ex r) →
      Stage S.fromBytes (S.currentJob s r) (view s' en ex r)) : S.DispatchInv tasks past s' where
  split := by rw [ht]; exact h.split
  settled := by rw [hc]; exact h.settled
  left := by
    intro left hp
    obtain ⟨left', hp', hsuf⟩ := hl left hp
    obtain ⟨t, hd, hw⟩ := h.left left' hp'
    exact ⟨t, by rw [ht, hd], hsuf.trans hw⟩
  stage := by
    intro r
    obtain ⟨en, ex, h1, h2, h3⟩ := h.stage r
    have hj : S.currentJob s' r = S.currentJob s r := by rw [currentJob, currentJob, ht]
    exact ⟨en, ex, by rw [he, h1], by rw [hx, h2], hj ▸ hs r en ex h3⟩

/-- The controller moves to a phase that means the same to every rank. -/
private theorem DispatchInv.rephase (h : S.DispatchInv tasks past s) {phase : Phase P}
    {pausing : Bool} (hl : ∀ left, phase ≠ .dispatching left)
    (hr : phase.results = s.phase.results) (hd : ∀ r, phase.due r = s.phase.due r)
    (hh : ∀ r, phase.holds r = s.phase.holds r) :
    S.DispatchInv tasks past { s with phase := phase, pausing := pausing } := by
  refine h.onPhase rfl rfl rfl rfl (fun left hp ↦ absurd hp (hl left)) fun r en ex hs ↦ ?_
  simp only [view, hr, hd, hh]
  exact hs

/-- The controller writes the task of one rank. -/
private theorem DispatchInv.write (h : S.DispatchInv tasks past s)
    (wf : ∀ t ∈ tasks, t.WellFormed S.clique) {r : Nat} {j : Job} {left : List (Nat × Job)}
    (hp : s.phase = .dispatching ((r, j) :: left)) :
    S.DispatchInv tasks past { s with
      taskKey := Function.update s.taskKey r (some j.text)
      phase := .dispatching left } := by
  obtain ⟨t, hd, hsuf⟩ := h.left _ hp
  have hm : t ∈ tasks := by
    rw [← h.split]
    exact List.mem_append_right _ (List.mem_of_head? hd)
  have hnodup := (wf t hm).nodup_writes.sublist (hsuf.sublist.map Prod.fst)
  rw [List.map_cons, List.nodup_cons] at hnodup
  have hjob : S.currentJob s r = some j := by
    rw [currentJob, hd]
    exact (wf t hm).job_eq_some.mpr (hsuf.subset List.mem_cons_self)
  refine h.onPhase rfl rfl rfl rfl ?_ ?_
  · intro left' hp'
    cases hp'
    exact ⟨_, hp, List.suffix_cons _ _⟩
  · intro r' en ex hs
    by_cases hr : r' = r
    · subst hr
      obtain ⟨a, ha, idle, -, hv⟩ := hs.of_due (by simp [view, hp, Phase.due])
      simp only [view, View.mk.injEq] at hv
      obtain ⟨_, _, h3, _, h5, h6, _, _⟩ := hv
      have hno : (r' ∈ left.map Prod.fst) = False := eq_false hnodup.1
      rw [hjob]
      simp only [view, Function.update_self, h3, h5, h6, Phase.results, Phase.due, Phase.holds, hno]
      exact .written idle
    · have hdue : s.phase.due r' = (r' ∈ left.map Prod.fst) := by
        simp [hp, Phase.due, hr]
      have hres : s.phase.results = ∅ := by rw [hp]; rfl
      have hhold : s.phase.holds r' = False := by rw [hp]; rfl
      rw [view, hdue, hres, hhold] at hs
      simp only [view, Function.update_of_ne hr, Phase.results, Phase.due, Phase.holds]
      exact hs

/-- The controller stores the result of one rank. -/
private theorem DispatchInv.store (h : S.DispatchInv tasks past s) {r : Nat} {x : R}
    {visit visit' : List Nat} {results : Results P} (hp : s.phase = .collecting visit results)
    (hr : s.resultKey r = some x) :
    S.DispatchInv tasks past { s with
      phase := .deleting r visit' (results.insert r (S.fromBytes x)) } := by
  refine h.onPhase rfl rfl rfl rfl (fun left hp' ↦ Phase.noConfusion rfl (heq_of_eq hp')) ?_
  intro r' en ex hs
  by_cases he : r' = r
  · subst he
    obtain ⟨a, hj, idle, hv⟩ := hs.of_result hr (by simp [view, hp, Phase.holds])
    simp only [view, View.mk.injEq] at hv
    obtain ⟨h1, _, _, _, h5, h6, _, _⟩ := hv
    rw [hj]
    simp only [view, h1, hr, h5, h6, Phase.results, Phase.due, Phase.holds, AList.lookup_insert]
    exact .stored idle
  · have hdue : s.phase.due r' = False := by rw [hp]; rfl
    have hres : s.phase.results = results := by rw [hp]; rfl
    have hhold : s.phase.holds r' = False := by rw [hp]; rfl
    rw [view, hdue, hres, hhold] at hs
    simp only [view, Phase.results, Phase.due, Phase.holds, he, AList.lookup_insert_ne he]
    exact hs

/-- The controller deletes the result it has stored. -/
private theorem DispatchInv.delete (h : S.DispatchInv tasks past s) {r : Nat}
    {visit visit' : List Nat} {results : Results P} (hp : s.phase = .deleting r visit results) :
    S.DispatchInv tasks past { s with
      resultKey := Function.update s.resultKey r none
      phase := .collecting visit' results } := by
  refine h.onPhase rfl rfl rfl rfl (fun left hp' ↦ Phase.noConfusion rfl (heq_of_eq hp')) ?_
  intro r' en ex hs
  have hdue : s.phase.due r' = False := by rw [hp]; rfl
  have hres : s.phase.results = results := by rw [hp]; rfl
  by_cases he : r' = r
  · subst he
    obtain ⟨a, x, hj, idle, hv⟩ := hs.of_held (by simp [view, hp, Phase.holds])
    simp only [view, View.mk.injEq] at hv
    obtain ⟨h1, _, _, h4, h5, h6, _, _⟩ := hv
    rw [hj]
    rw [hres] at h4
    simp only [view, h1, h4, h5, h6, Phase.results, Phase.due, Phase.holds, Function.update_self]
    exact .collected idle
  · have hhold : s.phase.holds r' = False := by simp [hp, Phase.holds, he]
    rw [view, hdue, hres, hhold] at hs
    simp only [view, Phase.results, Phase.due, Phase.holds, Function.update_of_ne he]
    exact hs

/-- A dictionary with as many keys as the task has ranks has them all. -/
private theorem DispatchInv.complete (h : S.DispatchInv tasks past s)
    (wf : ∀ t ∈ tasks, t.WellFormed S.clique) {t : CommTask} (hd : s.todo.head? = some t)
    (hn : s.phase.results.keys.length = t.allRanks.length) {r : Nat}
    (hj : (t.job S.clique r).isSome) : (s.phase.results.lookup r).isSome := by
  have hm : t ∈ tasks := by
    rw [← h.split]
    exact List.mem_append_right _ (List.mem_of_head? hd)
  have hw := wf t hm
  have hsub : s.phase.results.keys ⊆ (t.senders ++ t.recvers).map S.clique.group2global := by
    intro k hk
    rw [← hw.isSome_job]
    obtain ⟨en, ex, -, -, hs⟩ := h.stage k
    have := hs.isSome_of_stored (by
      rw [view, AList.lookup_isSome, AList.mem_keys]
      exact hk)
    rwa [currentJob, hd] at this
  have hlen : ((t.senders ++ t.recvers).map S.clique.group2global).length ≤
      s.phase.results.keys.length := by
    rw [hn, CommTask.allRanks, List.dedup_eq_self.mpr (List.Nodup.of_map _ hw.named),
      List.length_map]
  have hperm := ((AList.keys_nodup _).subperm hsub).perm_of_length_le hlen
  rw [AList.lookup_isSome, AList.mem_keys]
  exact hperm.symm.subset (hw.isSome_job.mp hj)

/-- A task begins for a rank between tasks. -/
private theorem stage_begin {ts : List CommTask} (wf : ∀ t ∈ ts, t.WellFormed S.clique) {r : Nat}
    {key : Option (List Char)} {pc : WorkerPc R} (quiet : skips key = true) (idle : pc.Idle) :
    Stage S.fromBytes (ts.head?.bind fun t ↦ t.job S.clique r)
      ⟨key, pc, none, (S.begin ts).results.lookup r, [], [], (S.begin ts).due r,
        (S.begin ts).holds r⟩ := by
  cases ts with
  | nil => exact .unnamed quiet idle
  | cons t ts =>
    have hw := wf t List.mem_cons_self
    have hdue : r ∈ (t.writes S.clique).map Prod.fst ↔ (t.job S.clique r).isSome := by
      rw [hw.map_writes.mem_iff, hw.isSome_job]
    simp only [begin, Phase.results, Phase.due, Phase.holds, AList.lookup_empty, List.head?_cons,
      Option.bind_some]
    cases hr : t.job S.clique r with
    | none =>
      have hno : (r ∈ (t.writes S.clique).map Prod.fst) = False := by simp [hdue, hr]
      rw [hno]
      exact .unnamed quiet idle
    | some j =>
      have hyes : (r ∈ (t.writes S.clique).map Prod.fst) = True := by simp [hdue, hr]
      rw [hyes]
      exact .unwritten quiet idle

/-- The controller has collected the current task and turns to the next. -/
private theorem DispatchInv.next (h : S.DispatchInv tasks past s)
    (wf : ∀ t ∈ tasks, t.WellFormed S.clique) {t : CommTask} {ts : List CommTask}
    (hd : s.todo = t :: ts) {results : Results P} (hp : s.phase = .collecting [] results)
    (hn : results.keys.length = t.allRanks.length) :
    (∀ r, (s.workers r).pc.Idle) ∧ ∃ past, S.DispatchInv tasks past { s with
      todo := ts
      collected := s.collected ++ [results]
      phase := S.begin ts } := by
  have hres : s.phase.results = results := by rw [hp]; rfl
  have hhead : s.todo.head? = some t := by rw [hd]; rfl
  choose en ex hen hex hst using h.stage
  have hjob (r : Nat) : S.currentJob s r = t.job S.clique r := by rw [currentJob, hhead]; rfl
  -- every rank is through the task or was never in it
  have through (r : Nat) : (s.workers r).pc.Idle ∧ skips (s.taskKey r) = true ∧
      s.resultKey r = none ∧
      en r = ((t.job S.clique r).map fun j ↦ Execution.p2p j.args).toList ∧
      (match t.job S.clique r with
        | none => ex r = [] ∧ results.lookup r = none
        | some j => ∃ x, ex r = [(.p2p j.args, x)] ∧ results.lookup r = some (S.fromBytes x)) := by
    have hs := hst r
    rw [hjob] at hs
    cases hr : t.job S.clique r with
    | none =>
      rw [hr] at hs
      obtain ⟨idle, quiet, hv⟩ := hs.of_unnamed
      simp only [view, View.mk.injEq] at hv
      obtain ⟨_, _, h3, h4, h5, h6, _, _⟩ := hv
      exact ⟨idle, quiet, h3, h5, h6, hres ▸ h4⟩
    | some j =>
      have hsome := h.complete wf hhead (by rw [hres, hn]) (r := r) (by rw [hr]; rfl)
      obtain ⟨a, x, ha, idle, hv⟩ := hs.of_stored hsome (by simp [view, hp, Phase.holds])
      simp only [view, View.mk.injEq] at hv
      obtain ⟨h1, _, h3, h4, h5, h6, _, _⟩ := hv
      obtain rfl : j = a := Option.some.inj (hr.symm.trans ha)
      exact ⟨idle, by rw [h1]; decide, h3, h5, x, h6, hres ▸ h4⟩
  refine ⟨fun r ↦ (through r).1, past ++ [(t, ex)], ?_, ?_, ?_, ?_⟩
  · rw [List.map_append, List.append_assoc, ← h.split, hd]
    rfl
  · exact List.rel_append h.settled (.cons (fun r ↦ (through r).2.2.2.2) .nil)
  · intro left hl
    cases ts with
    | nil => cases hl
    | cons t' ts =>
      cases hl
      exact ⟨t', rfl, List.suffix_refl _⟩
  · intro r
    obtain ⟨idle, quiet, hrk, hcalls, -⟩ := through r
    refine ⟨[], [], ?_, ?_, ?_⟩
    · rw [hen, hcalls, callsOf, callsOf, List.map_append, List.filterMap_append, List.append_nil]
      congr 1
    · rw [hex, List.map_append, List.flatten_append, List.append_nil]
      simp
    · have hm : ∀ t' ∈ ts, t'.WellFormed S.clique := by
        intro t' ht'
        refine wf t' ?_
        rw [← h.split, hd]
        exact List.mem_append_right _ (List.mem_cons_of_mem _ ht')
      simp only [view, hrk]
      exact stage_begin hm quiet idle

/-- A step of the controller stays in the task, or every worker is between tasks. -/
private theorem DispatchInv.control (h : S.DispatchInv tasks past s)
    (wf : ∀ t ∈ tasks, t.WellFormed S.clique) (hs : S.controlStep s = some s') :
    S.DispatchInv tasks past s' ∨
      (∀ r, (s.workers r).pc.Idle) ∧ ∃ past, S.DispatchInv tasks past s' := by
  have same {phase : Phase P} {pausing : Bool} (hl : ∀ left, phase ≠ .dispatching left)
      (hr : phase.results = s.phase.results) (hd : ∀ r, phase.due r = s.phase.due r)
      (hh : ∀ r, phase.holds r = s.phase.holds r) :
      S.DispatchInv tasks past { s with phase := phase, pausing := pausing } ∨
        (∀ r, (s.workers r).pc.Idle) ∧ ∃ past,
          S.DispatchInv tasks past { s with phase := phase, pausing := pausing } :=
    .inl (h.rephase hl hr hd hh)
  unfold controlStep at hs
  split at hs
  · next hp =>
    cases hs
    exact .inl (h.write wf hp)
  · next hp =>
    cases hs
    exact same (by simp) (by rw [hp]; rfl) (by simp [hp, Phase.due]) (by simp [hp, Phase.holds])
  · next hp =>
    cases hs
    exact same (by simp) (by rw [hp]; rfl) (by simp [hp, Phase.due]) (by simp [hp, Phase.holds])
  · next hp =>
    split at hs <;> cases hs
    · exact same (by simp) (by rw [hp]; rfl) (by simp [hp, Phase.due]) (by simp [hp, Phase.holds])
    · exact same (by simp) (by rw [hp]; rfl) (by simp [hp, Phase.due]) (by simp [hp, Phase.holds])
  · next hp =>
    split at hs <;> cases hs
    · exact same (by simp) (by rw [hp]; rfl) (by simp [hp, Phase.due]) (by simp [hp, Phase.holds])
    · split
      · exact same (by simp) (by rw [hp]; rfl) (by simp [hp, Phase.due]) (by simp [hp, Phase.holds])
      · exact same (by simp) (by rw [hp]; rfl) (by simp [hp, Phase.due]) (by simp [hp, Phase.holds])
  · next hd hp =>
    split at hs
    · next hn =>
      cases hs
      exact .inr (h.next wf hd hp hn)
    · contradiction
  · next hp =>
    split at hs
    · cases hs
      exact same (by simp) (by rw [hp]; rfl) (by simp [hp, Phase.due]) (by simp [hp, Phase.holds])
    · next hr =>
      cases hs
      exact .inl (h.store hp hr)
  · next hp =>
    cases hs
    exact .inl (h.delete hp)
  · next hp =>
    cases hs
    exact same (by simp) (by rw [hp]; rfl) (by simp [hp, Phase.due]) (by simp [hp, Phase.holds])
  · contradiction

private theorem DispatchInv.pass (h : S.DispatchInv tasks past s) {order : List Nat}
    (hs : passStep order s = some s') : S.DispatchInv tasks past s' := by
  unfold passStep at hs
  split at hs
  · next hp =>
    split at hs
    · cases hs
      exact h.rephase (by simp) (by rw [hp]; rfl) (by simp [hp, Phase.due])
        (by simp [hp, Phase.holds])
    · contradiction
  · contradiction

theorem dispatchInv_start (wf : ∀ t ∈ tasks, t.WellFormed S.clique) (h : S.Start tasks s) :
    S.DispatchInv tasks [] s where
  split := h.todo
  settled := by rw [h.collected]; exact .nil
  left := by
    intro left hl
    rw [h.phase] at hl
    cases tasks with
    | nil => cases hl
    | cons t ts =>
      cases hl
      exact ⟨t, by rw [h.todo]; rfl, List.suffix_refl _⟩
  stage := by
    intro r
    have quiet := h.taskKey r
    have idle : (s.workers r).pc.Idle := by rw [h.workers]; trivial
    refine ⟨[], [], h.entered r, h.executed r, ?_⟩
    simp only [view, currentJob, h.resultKey, h.phase, h.todo]
    exact stage_begin wf quiet idle

/-- A step stays in the task, or it is the controller's and every worker is between tasks. -/
theorem DispatchInv.step (h : S.DispatchInv tasks past s) (wf : ∀ t ∈ tasks, t.WellFormed S.clique)
    {a : Act R} (hs : S.step s a = some s') :
    S.DispatchInv tasks past s' ∨
      a = .control ∧ (∀ r, (s.workers r).pc.Idle) ∧ ∃ past, S.DispatchInv tasks past s' := by
  cases a with
  | control =>
    cases h.control wf hs with
    | inl h => exact .inl h
    | inr h => exact .inr ⟨rfl, h⟩
  | pass order => exact .inl (h.pass hs)
  | poll r => exact .inl (h.poll hs)
  | ack r => exact .inl (h.ack wf hs)
  | finish r x => exact .inl (h.finish hs)
  | report r => exact .inl (h.report hs)
  | check => exact .inl (h.check hs)
  | leave r => exact .inl (h.leave hs)

/-- Every reachable state satisfies the invariant. -/
theorem dispatchInv_run (wf : ∀ t ∈ tasks, t.WellFormed S.clique) {start : Fleet R P}
    (h : S.Start tasks start) {ok : Fleet R P → Act R → Prop} {acts : List (Act R)}
    (run : Run S.step ok start acts s) : ∃ past, S.DispatchInv tasks past s := by
  apply run.invariant ⟨[], dispatchInv_start wf h⟩
  rintro t u a ⟨past, ht⟩ - hs
  cases ht.step wf hs with
  | inl h => exact ⟨past, h⟩
  | inr h => exact h.2.2

/-- What a rank has executed of the current task: nothing while its write is due, its text is
in its key, or its worker is on the way to the end of the call, then its job once. -/
def Underway (S : Setup R P) (s : Fleet R P) (r : Nat) (executed : List (Execution × R)) : Prop :=
  match S.currentJob s r with
  | none => executed = []
  | some j =>
    (executed = [] ∧
      (s.phase.due r ∨ (s.taskKey r = some j.text ∧ (s.workers r).pc.Idle) ∨
        (s.workers r).pc = .acking j.text ∨ (s.workers r).pc = .running (.p2p j.args))) ∨
    ∃ x, executed = [(.p2p j.args, x)]

private theorem underway_of_stage {r : Nat} {en : List Execution} {ex : List (Execution × R)}
    (h : Stage S.fromBytes (S.currentJob s r) (view s en ex r)) : S.Underway s r ex := by
  unfold Underway
  generalize hj : S.currentJob s r = j at h
  generalize hv : view s en ex r = v at h
  cases h <;> simp only [view, View.mk.injEq] at hv <;> obtain ⟨h1, h2, -, -, -, h6, h7, -⟩ := hv
  · exact h6
  · exact .inl ⟨h6, .inl (h7 ▸ trivial)⟩
  · next idle => exact .inl ⟨h6, .inr (.inl ⟨h1, h2 ▸ idle⟩)⟩
  · exact .inl ⟨h6, .inr (.inr (.inl h2))⟩
  · exact .inl ⟨h6, .inr (.inr (.inr h2))⟩
  · exact .inr ⟨_, h6⟩
  · exact .inr ⟨_, h6⟩
  · exact .inr ⟨_, h6⟩
  · exact .inr ⟨_, h6⟩

/-- Whatever the interleaving and whenever calls return: the tasks collected so far and those
still to do are the tasks given, each collected task was executed exactly once by each rank it
names, with the role, peer and address written for it, its dictionary holds exactly the results
of these executions, and of the current task each rank has executed at most its own job once,
which is never lost. -/
theorem tasks_executed_once (S : Setup R P) (tasks : List CommTask)
    (wf : ∀ t ∈ tasks, t.WellFormed S.clique) (start : Fleet R P) (h : S.Start tasks start)
    (acts : List (Act R)) (s : Fleet R P) (run : Run S.step anyStep start acts s) :
    ∃ past : List (CommTask × (Nat → List (Execution × R))),
      past.map Prod.fst ++ s.todo = tasks ∧
      List.Forall₂ (fun p results ↦ S.Settled p.1 results p.2) past s.collected ∧
      ∀ r, ∃ current, s.executed r = (past.map fun p ↦ p.2 r).flatten ++ current ∧
        S.Underway s r current := by
  obtain ⟨past, hinv⟩ := dispatchInv_run wf h run
  refine ⟨past, hinv.split, hinv.settled, fun r ↦ ?_⟩
  obtain ⟨en, ex, -, hx, hs⟩ := hinv.stage r
  exact ⟨ex, hx, underway_of_stage hs⟩

/-- Rank 0 sends to rank 1 and takes its task before the receiver's key is written; the results
are read in the order of their arrival, in two passes. -/
theorem tasks_executed_once_pair :
    let S : Setup Nat Nat := ⟨pairClique, 0, id, fun _ _ _ ↦ true⟩
    let acts : List (Act Nat) := [.control, .poll 0, .control, .control, .ack 0, .poll 1, .ack 1,
      .control, .control, .control, .finish 1 70, .finish 0 60, .report 0, .pass [1, 0], .control,
      .control, .control, .report 1, .pass [0, 1], .control, .control, .control, .control]
    ∃ s, Run S.step anyStep (S.fresh [⟨[0], [1]⟩]) acts s ∧
      s.collected.map (fun d ↦ (d.lookup 0, d.lookup 1)) = [(some 60, some 70)] ∧
      ∃ past : List (CommTask × (Nat → List (Execution × Nat))),
        past.map Prod.fst ++ s.todo = [⟨[0], [1]⟩] ∧
        List.Forall₂ (fun p results ↦ S.Settled p.1 results p.2) past s.collected ∧
        ∀ r, ∃ current, s.executed r = (past.map fun p ↦ p.2 r).flatten ++ current ∧
          S.Underway s r current := by
  intro S acts
  have wf : ∀ t ∈ [CommTask.mk [0] [1]], t.WellFormed S.clique := by
    intro t ht
    rw [List.mem_singleton] at ht
    subst ht
    exact ⟨rfl, by decide, by decide⟩
  have eval : (acts.foldlM S.step (S.fresh [⟨[0], [1]⟩])).map
      (fun s ↦ s.collected.map fun d ↦ (d.lookup 0, d.lookup 1)) = some [(some 60, some 70)] := by
    decide +kernel
  obtain ⟨s, hs, hc⟩ := Option.map_eq_some_iff.mp eval
  have run := run_of_foldlM hs
  exact ⟨s, run, hc, tasks_executed_once S _ wf _ (S.start_fresh _) _ s run⟩

end Setup

end ProbingBaselines.Greyhound
