import ProbingBaselines.Dlrover.PrimeCalls

/-!
# The main loop of the prime manager

`start` creates a new `_main_loop` for every restart (`manager.py:189-201`), and a restart that a
main loop runs itself cancels and replaces the loop it is called from. The old loop goes on after
the call: after the failover of a finished job it leaves (`manager.py:248-255`), but after one for
`failover_trigger_strategy` 2 it does not (`manager.py:219-227`). While the stage is RUNNING, one
loop monitors the job as long as `start` finds no other one alive.
-/

namespace ProbingBaselines.Dlrover

open Lib

variable {V R N : Type}

namespace PrimeFrame

/-- A main loop in the failover of `failover_trigger_strategy` 2. -/
def handlesFailure : PrimeFrame V N → Bool
  | .mainLoop .failureHandled => true
  | _ => false

/-- A main loop in the failover of a finished job. -/
def handlesFinish : PrimeFrame V N → Bool
  | .mainLoop .finishedHandled => true
  | _ => false

end PrimeFrame

/-! ### The stack of a main loop -/

/-- The stack of the loop that monitors the job, with what its task is about to see: it has not
replaced itself, and an exception that reaches it stops the job. -/
inductive Staying : List (PrimeFrame V N) → Option (Option PrimeError) → Prop where
  | looping (above : List (PrimeFrame V N)) (place : LoopAt) (sig : Option (Option PrimeError))
    (unfinished : place ≠ .finishedHandled) (inside : place ≠ .exit) :
    Staying (above ++ [.mainLoop place]) sig
  | asked (sig : Option (Option PrimeError)) :
    Staying [.processFailover .start, .mainLoop .finishedHandled] sig
  | restarting (above : List (PrimeFrame V N)) (withNodeRelaunch : Option V) (place : JobAt)
    (sig : Option (Option PrimeError)) (early : place = .start ∨ place = .relaunched) :
    Staying (above ++ [.restartJob withNodeRelaunch place, .processFailover .restarted,
      .mainLoop .finishedHandled]) sig
  | unwinding (e : PrimeError) :
    Staying [.processFailover .restarted, .mainLoop .finishedHandled] (some (some e))
  | failed (e : PrimeError) : Staying [.mainLoop .finishedHandled] (some (some e))

/-- The stack of a loop that has replaced itself: its task is the running one and returns from call
to call without an await. -/
inductive Leaving : List (PrimeFrame V N) → Option (Option PrimeError) → Prop where
  | started (withNodeRelaunch : Option V) :
    Leaving [.restartJob withNodeRelaunch .started, .processFailover .restarted,
      .mainLoop .finishedHandled] (some none)
  | restarted : Leaving [.processFailover .restarted, .mainLoop .finishedHandled] (some none)
  | handled (sig : Option PrimeError) : Leaving [.mainLoop .finishedHandled] (some sig)
  | exit : Leaving [.mainLoop .exit] (some none)

theorem Staying.ne_nil {stack : List (PrimeFrame V N)} {sig : Option (Option PrimeError)}
    (h : Staying stack sig) : stack ≠ [] := by
  cases h <;> simp

/-- A suspended loop is resumed as it stands. -/
theorem Staying.resume {stack : List (PrimeFrame V N)} (h : Staying stack none)
    (sig : Option (Option PrimeError)) : Staying stack sig := by
  cases h with
  | looping above place _ unfinished inside => exact .looping above place sig unfinished inside
  | asked => exact .asked sig
  | restarting above withNodeRelaunch place _ early =>
    exact .restarting above withNodeRelaunch place sig early

/-- The main loop is the bottom frame of the stack. -/
theorem Staying.bottom {stack : List (PrimeFrame V N)} {sig : Option (Option PrimeError)}
    (h : Staying stack sig) : ∃ above place, stack = above ++ [.mainLoop place] := by
  cases h with
  | looping above place => exact ⟨above, place, rfl⟩
  | asked => exact ⟨[_], _, rfl⟩
  | restarting above withNodeRelaunch place =>
    exact ⟨above ++ [.restartJob withNodeRelaunch place, .processFailover .restarted],
      .finishedHandled, by simp⟩
  | unwinding => exact ⟨[_], _, rfl⟩
  | failed => exact ⟨[], _, rfl⟩

theorem Leaving.running {stack : List (PrimeFrame V N)} {sig : Option (Option PrimeError)}
    (h : Leaving stack sig) : sig.isSome := by
  cases h <;> rfl

/-- A frame that awaits another one is not a main loop, so a stack has at most one. -/
theorem isMainLoop_above {above : List (PrimeFrame V N)} {bottom : PrimeFrame V N}
    (stack : TaskWorld.IsStack PrimeFrame.calledBy (above ++ [bottom])) :
    ∀ f ∈ above, f.isMainLoop = false := by
  induction above with
  | nil => simp
  | cons f above ih =>
    intro g mem
    rcases List.mem_cons.mp mem with rfl | mem
    · obtain ⟨h, hh⟩ : ∃ h, (above ++ [bottom]).head? = some h := by
        cases above <;> simp
      have called : g.calledBy (above ++ [bottom]).head? := stack.1
      rw [hh] at called
      exact PrimeFrame.not_isMainLoop_of_calledBy called
    · exact ih stack.2 g mem

/-- The callers of `start`: a loop at the bottom has replaced itself, if it comes from the failover
of a finished job. -/
theorem leaving_of_start {place : StartAt} {rest : List (PrimeFrame V N)}
    (stack : TaskWorld.IsStack PrimeFrame.calledBy (.start place :: rest))
    (finish : rest.any PrimeFrame.handlesFailure = false)
    (loop : rest.any PrimeFrame.isMainLoop = true) : Leaving rest (some none) := by
  obtain ⟨rest, rfl | ⟨withNodeRelaunch, rfl⟩⟩ := PrimeFrame.calledBy_start stack
  · cases PrimeFrame.bottom_of_uncalled stack.2 fun _ h ↦ h
    contradiction
  obtain rfl | ⟨rest, rfl | ⟨actor, up, rfl⟩⟩ := PrimeFrame.calledBy_restartJob stack.2
  · contradiction
  · obtain rfl | ⟨rest, rfl | rfl⟩ := PrimeFrame.calledBy_processFailover stack.2.2
    · contradiction
    · simp [PrimeFrame.handlesFailure] at finish
    · cases PrimeFrame.bottom_of_uncalled stack.2.2.2 fun _ h ↦ h
      exact .started withNodeRelaunch
  · cases PrimeFrame.bottom_of_uncalled stack.2.2 fun _ h ↦ h
    contradiction

/-! ### Frames while the job runs -/

namespace PrimeManager

/-- A main loop at the top of its stack goes on, unless it stops the job. -/
theorem execMainLoop_staying {job : PrimeJob V R} {s : PrimeManager V R N} {place : LoopAt}
    {sig : Option PrimeError} (unfinished : place ≠ .finishedHandled) (inside : place ≠ .exit)
    (uncancelled : sig ≠ some .cancelled) (on : s.stage = .running)
    (running : (s.execMainLoop job place sig).data.stage = .running) :
    Staying (s.execMainLoop job place sig).next.frames
      (s.execMainLoop job place sig).next.signal := by
  have stays : ∀ (place : LoopAt) sig, place ≠ .finishedHandled → place ≠ .exit →
      Staying (N := N) (V := V) [.mainLoop place] sig :=
    fun place sig h h' ↦ .looping [] place sig h h'
  cases sig with
  | some e =>
    cases e with
    | cancelled => contradiction
    | error | timeout => exact absurd running (s.stage_requestStop 1)
  | none =>
    cases place with
    | finishedHandled | exit => contradiction
    | test =>
      simp only [execMainLoop, if_pos on]
      split <;> exact stays _ _ (by simp) (by simp)
    | acquiring | slept => exact stays _ _ (by simp) (by simp)
    | acquired =>
      simp only [execMainLoop]
      split
      · exact .looping [.processFailover .start] .failureHandled _ (by simp) (by simp)
      · exact stays _ _ (by simp) (by simp)
    | failureHandled =>
      simp only [execMainLoop] at running ⊢
      split
      · next finished =>
        split
        · exact .asked _
        · next success =>
          rw [if_pos finished, if_neg success] at running
          exact absurd running (s.stage_requestStop 0)
      · exact stays _ _ (by simp) (by simp)

/-- Before `restart_job` has reset the stage it goes on, fails or stops the job. -/
theorem execRestartJob_staying {job : PrimeJob V R} {s : PrimeManager V R N} {live : Nat → Bool}
    {withNodeRelaunch : Option V} {place : JobAt} {sig : Option PrimeError}
    (early : place = .start ∨ place = .relaunched)
    (running : (s.execRestartJob job live withNodeRelaunch place sig).data.stage = .running) :
    Staying ((s.execRestartJob job live withNodeRelaunch place sig).next.frames ++
      [.processFailover .restarted, .mainLoop .finishedHandled])
      (s.execRestartJob job live withNodeRelaunch place sig).next.signal := by
  cases sig with
  | some e => obtain rfl | rfl := early <;> exact .unwinding e
  | none =>
    obtain rfl | rfl := early
    · simp only [execRestartJob]
      split
      · exact .unwinding .error
      · split
        · next v => exact .restarting [.relaunchSingle v .start] _ .relaunched _ (.inr rfl)
        · exact .restarting [] _ .relaunched _ (.inr rfl)
    · simp only [execRestartJob] at running ⊢
      split
      · next budget =>
        rw [if_pos budget] at running
        exact absurd running (stage_requestStop _ 1)
      · next budget =>
        rw [if_neg budget] at running
        cases task : s.task with
        | none => exact .unwinding .error
        | some t =>
          simp only [task] at running
          split at running <;> contradiction

/-- The failover of a finished job restarts the job or stops it. -/
theorem execProcessFailover_staying [DecidableEq V] [DecidableEq R] {job : PrimeJob V R}
    {s : PrimeManager V R N} {sig : Option PrimeError}
    (starts : sig = none → s.isFailoverStage job (some job.globalRole) = false)
    (running : (s.execProcessFailover job .start sig).data.stage = .running) :
    Staying ((s.execProcessFailover job .start sig).next.frames ++ [.mainLoop .finishedHandled])
      (s.execProcessFailover job .start sig).next.signal := by
  cases sig with
  | some e => exact .failed e
  | none =>
    simp only [execProcessFailover, starts rfl, Bool.false_eq_true, if_false] at running ⊢
    split
    · exact .restarting [] _ .start _ (.inl rfl)
    · next strategy =>
      rw [if_neg strategy] at running
      exact absurd running (stage_requestStop _ 1)

variable [DecidableEq V] [DecidableEq R] [DecidableEq N]

/-- A stage that is RUNNING after a frame was so before, or `start` has set it. -/
theorem exec_running {job : PrimeJob V R} {ctx : TaskContext} {s : PrimeManager V R N}
    {f : PrimeFrame V N} {sig : Option PrimeError} {input : PrimeInput N}
    (running : (s.exec job ctx f sig input).data.stage = .running) :
    (f = .start .started ∧ sig = none) ∨
      (s.stage = .running ∧ (s.exec job ctx f sig input).data.task = s.task ∧
        (s.exec job ctx f sig input).effect = .none) := by
  have kind := s.exec_control job ctx sig input f
  generalize s.exec job ctx f sig input = o at kind running
  cases kind with
  | same control effect =>
    have stage : o.data.stage = s.stage := congrArg PrimeControl.stage control
    exact .inr ⟨stage ▸ running, congrArg PrimeControl.task control, effect⟩
  | stops control _ =>
    have stage : o.data.stage = _ := congrArg PrimeControl.stage control
    exact absurd (stage ▸ running) s.control.stage_requestStop
  | ends | ready => contradiction
  | runs => exact .inl ⟨rfl, rfl⟩
  | restarts withNodeRelaunch t o _ _ control _ =>
    have stage : o.data.stage = .ready := congrArg PrimeControl.stage control
    rw [stage] at running
    contradiction
  | again actors o _ _ control effect =>
    have stage : o.data.stage = s.stage := congrArg PrimeControl.stage control
    exact .inr ⟨stage ▸ running, congrArg PrimeControl.task control, effect⟩

/-- The stored task is the last one that was started, and only it is cancelled. -/
theorem exec_task (job : PrimeJob V R) (ctx : TaskContext) (s : PrimeManager V R N)
    (f : PrimeFrame V N) (sig : Option PrimeError) (input : PrimeInput N) :
    (∀ t, (s.exec job ctx f sig input).effect = .cancel t → s.task = some t) ∧
      ((s.exec job ctx f sig input).data.task = s.task ∨
        ((s.exec job ctx f sig input).data.task = some ctx.fresh ∧
          (s.exec job ctx f sig input).effect = .spawn (.mainLoop .test))) := by
  have kind := s.exec_control job ctx sig input f
  generalize s.exec job ctx f sig input = o at kind
  have silent : ∀ {e : TaskEffect (PrimeFrame V N)}, e = .none → ∀ t, e = .cancel t →
      s.task = some t := by
    rintro _ rfl t cancel
    contradiction
  cases kind with
  | same control effect => exact ⟨silent effect, .inl (congrArg PrimeControl.task control)⟩
  | stops control effect =>
    exact ⟨silent effect, .inl
      ((congrArg PrimeControl.task control).trans s.control.task_requestStop)⟩
  | ends | ready => exact ⟨silent rfl, .inl rfl⟩
  | runs =>
    refine ⟨?_, .inr ⟨rfl, rfl⟩⟩
    intro t cancel
    contradiction
  | restarts withNodeRelaunch t _ task _ control effect =>
    refine ⟨fun t' cancel ↦ ?_, .inl (congrArg PrimeControl.task control)⟩
    rw [effect] at cancel
    split at cancel
    · cases cancel
      exact task
    · contradiction
  | again _ _ _ _ control effect =>
    exact ⟨silent effect, .inl (congrArg PrimeControl.task control)⟩

/-- The loop that monitors the job keeps doing so while the stage is RUNNING. -/
theorem exec_staying {job : PrimeJob V R} {ctx : TaskContext} {s : PrimeManager V R N}
    {f : PrimeFrame V N} {rest : List (PrimeFrame V N)} {sig : Option PrimeError}
    {input : PrimeInput N} (staying : Staying (f :: rest) (some sig))
    (uncancelled : sig ≠ some .cancelled) (on : s.stage = .running)
    (starts : f = .processFailover .start → sig = none →
      rest.any PrimeFrame.handlesFinish = true →
        s.isFailoverStage job (some job.globalRole) = false)
    (running : (s.exec job ctx f sig input).data.stage = .running) :
    Staying ((s.exec job ctx f sig input).next.frames ++ rest)
      (s.exec job ctx f sig input).next.signal := by
  generalize stack : f :: rest = frames at staying
  cases staying with
  | looping above place _ unfinished inside =>
    rcases above with _ | ⟨f', above⟩
    · cases stack
      rw [List.append_nil]
      exact execMainLoop_staying unfinished inside uncancelled on running
    · rw [List.cons_append, List.cons.injEq] at stack
      rcases stack with ⟨rfl, rfl⟩
      rw [← List.append_assoc]
      exact .looping _ place _ unfinished inside
  | asked =>
    cases stack
    exact execProcessFailover_staying (fun none ↦ starts rfl none rfl) running
  | restarting above withNodeRelaunch place _ early =>
    rcases above with _ | ⟨f', above⟩
    · cases stack
      exact execRestartJob_staying early running
    · rw [List.cons_append, List.cons.injEq] at stack
      rcases stack with ⟨rfl, rfl⟩
      rw [← List.append_assoc]
      exact .restarting _ withNodeRelaunch place _ early
  | unwinding e =>
    cases stack
    exact .failed e
  | failed e =>
    cases stack
    cases e with
    | cancelled => contradiction
    | error | timeout => exact absurd running (s.stage_requestStop 1)

/-- A loop that has replaced itself leaves. -/
theorem exec_leaving {job : PrimeJob V R} {ctx : TaskContext} {s : PrimeManager V R N}
    {f : PrimeFrame V N} {rest : List (PrimeFrame V N)} {sig : Option PrimeError}
    {input : PrimeInput N} (leaving : Leaving (f :: rest) (some sig))
    (running : (s.exec job ctx f sig input).data.stage = .running) :
    (s.exec job ctx f sig input).next.frames ++ rest = [] ∨
      Leaving ((s.exec job ctx f sig input).next.frames ++ rest)
        (s.exec job ctx f sig input).next.signal := by
  cases leaving with
  | started => exact .inr .restarted
  | restarted =>
    simp only [exec, execProcessFailover]
    split <;> exact .inr (.handled _)
  | handled =>
    cases sig with
    | none => exact .inr .exit
    | some e => cases e <;> exact .inl rfl
  | exit => exact .inl rfl

end PrimeManager

/-! ### Runs -/

namespace PrimeWorld

/-- The tasks of the activations of `_main_loop` that have not returned. -/
def mainLoops (w : PrimeWorld V R N) : List Nat :=
  (w.frames.filter fun e ↦ e.2.isMainLoop).map Prod.fst

/-- While the job runs, and no coroutine is between two awaits, one main loop is live, and it is the
stored task. -/
def OneLoop (w : PrimeWorld V R N) : Prop :=
  w.running = none → w.data.stage = .running → ∃ t, w.data.task = some t ∧ w.mainLoops = [t]

/-- A frame of the task meets the test. -/
def stackHas (w : PrimeWorld V R N) (t : Nat) (p : PrimeFrame V N → Bool) : Bool :=
  (w.tasks.get? t).any fun stack ↦ stack.any p

/-- `start` goes on only when no main loop is live but the one that called it for a finished job,
and the failover of a finished job is not skipped in the RUNNING stage for a global one in progress.
-/
def monitorsOnce [DecidableEq R] (job : PrimeJob V R) (w : PrimeWorld V R N) : PrimeLabel V N → Bool
  | .exec _ => w.top.all fun
    | (t, .start .started, none) =>
      w.mainLoops.all (· = t) && !w.stackHas t PrimeFrame.handlesFailure
    | (t, .processFailover .start, none) =>
      !(w.data.stage = .running && w.data.isFailoverStage job (some job.globalRole) &&
        w.stackHas t PrimeFrame.handlesFinish)
    | _ => true
  | _ => true

/-- The task monitors the job, and every other main loop is leaving. -/
structure MonitoredBy (w : PrimeWorld V R N) (monitor : Nat) : Prop where
  task : w.data.task = some monitor
  kept : monitor ∉ w.cancels
  uncancelled : w.signalOf monitor ≠ some (some .cancelled)
  stack : ∃ stack, (monitor, stack) ∈ w.tasks.items ∧ Staying stack (w.signalOf monitor)
  others : ∀ e ∈ w.tasks.items, e.1 ≠ monitor → e.2.any PrimeFrame.isMainLoop = true →
    Leaving e.2 (w.signalOf e.1)

structure Monitored (w : PrimeWorld V R N) : Prop where
  valid : w.Valid
  stacked : w.Stacked PrimeFrame.calledBy
  cancels : ∀ t ∈ w.cancels, t < w.fresh
  task : ∀ t, w.data.task = some t → t < w.fresh
  monitor : w.data.stage = .running → ∃ t, w.MonitoredBy t

theorem mem_mainLoops {w : PrimeWorld V R N} {e : Nat × List (PrimeFrame V N)}
    (mem : e ∈ w.tasks.items) (loop : e.2.any PrimeFrame.isMainLoop = true) :
    e.1 ∈ w.mainLoops := by
  rcases List.any_eq_true.mp loop with ⟨f, hf, loop⟩
  apply List.mem_map.mpr
  refine ⟨(e.1, f), List.mem_filter.mpr ⟨?_, loop⟩, rfl⟩
  exact List.mem_flatMap.mpr ⟨e, mem, List.mem_map.mpr ⟨f, hf, rfl⟩⟩

/-- A monitor whose loop is the only one. -/
theorem MonitoredBy.mainLoops {w : PrimeWorld V R N} {t : Nat} (h : w.MonitoredBy t)
    (stacked : w.Stacked PrimeFrame.calledBy) (idle : w.running = none) : w.mainLoops = [t] := by
  obtain ⟨stack, mem, staying⟩ := h.stack
  obtain ⟨above, place, rfl⟩ := staying.bottom
  have own : ((above ++ [PrimeFrame.mainLoop place]).map fun f ↦ (t, f)).filter
      (fun e : Nat × PrimeFrame V N ↦ e.2.isMainLoop) = [(t, .mainLoop place)] := by
    have silent := isMainLoop_above (stacked _ mem)
    rw [List.map_append, List.filter_append, List.filter_eq_nil_iff.mpr]
    · rfl
    · intro e he
      rcases List.mem_map.mp he with ⟨f, above, rfl⟩
      simp [silent f above]
  have others : (w.others t).filter (fun e ↦ e.2.isMainLoop) = [] := by
    apply List.filter_eq_nil_iff.mpr
    intro e he loop
    rcases List.mem_flatMap.mp he with ⟨e', he', hf⟩
    rcases List.mem_map.mp hf with ⟨f, frame, rfl⟩
    rcases Dict.mem_items_erase.mp he' with ⟨mem', other⟩
    have leaving := h.others e' mem' other (List.any_eq_true.mpr ⟨f, frame, loop⟩)
    have running := leaving.running
    rw [TaskWorld.signalOf_idle idle] at running
    contradiction
  have perm := (TaskWorld.frames_perm (Dict.get?_eq_some_iff.mpr mem)).filter
    fun e ↦ e.2.isMainLoop
  rw [List.filter_append, own, others, List.append_nil] at perm
  rw [PrimeWorld.mainLoops, perm.eq_singleton]
  rfl

theorem Monitored.oneLoop {w : PrimeWorld V R N} (h : w.Monitored) : w.OneLoop := by
  intro idle running
  obtain ⟨t, monitor⟩ := h.monitor running
  exact ⟨t, monitor.task, monitor.mainLoops h.stacked idle⟩

variable {job : PrimeJob V R} {w w' : PrimeWorld V R N}

/-- A task that is resumed is not the monitor's, or goes on from where it waited. -/
theorem MonitoredBy.resumed {m t : Nat} {sig : Option PrimeError} {f : PrimeFrame V N}
    {rest : List (PrimeFrame V N)} (h : w.MonitoredBy m) (idle : w.running = none)
    (stack : w.tasks.get? t = some (f :: rest))
    (wakes : t ∉ w.cancels → w.data.wakes job (w.context t) f sig) :
    MonitoredBy { w with
      cancels := w.cancels.filter fun t' ↦ t' ≠ t, running := some (t, sig) } m := by
  have signal (t' : Nat) : TaskWorld.signalOf { w with
      cancels := w.cancels.filter fun t' ↦ t' ≠ t, running := some (t, sig) } t' =
        if t' = t then some sig else none := TaskWorld.signalOf_running rfl t'
  constructor
  · exact h.task
  · intro mem
    exact h.kept (List.mem_filter.mp mem).1
  · rw [signal]
    split
    · next self =>
      cases self
      intro cancelled
      have awake := wakes h.kept
      cases Option.some.inj cancelled
      exact absurd awake (by simp [PrimeManager.wakes_cancelled])
    · simp
  · obtain ⟨stack', mem, staying⟩ := h.stack
    rw [TaskWorld.signalOf_idle idle] at staying
    exact ⟨stack', mem, staying.resume _⟩
  · intro e mem other loop
    have running := (h.others e mem other loop).running
    rw [TaskWorld.signalOf_idle idle] at running
    contradiction

/-- `start` goes on: the new loop is the monitor, and its caller is leaving. -/
theorem monitoredBy_fresh {t : Nat} {rest : List (PrimeFrame V N)} (valid : w.Valid)
    (stacked : w.Stacked PrimeFrame.calledBy) (cancels : ∀ t ∈ w.cancels, t < w.fresh)
    (stack : w.tasks.get? t = some (.start .started :: rest))
    (alone : ∀ t' ∈ w.mainLoops, t' = t)
    (finish : rest.any PrimeFrame.handlesFailure = false) :
    MonitoredBy (w.settle t rest ⟨{ w.data with task := some w.fresh, stage := .running }, .ret,
      .spawn (.mainLoop .test)⟩) w.fresh := by
  have mem := Dict.get?_eq_some_iff.mp stack
  have old : t < w.fresh := valid.numbered t (Dict.mem_iff.mpr ⟨_, mem⟩)
  have signal (t' : Nat) := w.signalOf_settle t rest
    (⟨{ w.data with task := some w.fresh, stage := .running }, .ret, .spawn (.mainLoop .test)⟩ :
      PrimeOutcome V R N) t'
  constructor
  · rw [TaskWorld.data_settle]
  · rw [TaskWorld.cancels_settle]
    intro mem
    exact Nat.lt_irrefl _ (cancels _ mem)
  · rw [signal, if_neg fun both ↦ Nat.ne_of_gt old both.1]
    simp
  · refine ⟨[.mainLoop .test], TaskWorld.mem_settle_spawned rfl, ?_⟩
    exact .looping [] .test _ (by simp) (by simp)
  · intro e he other loop
    rcases TaskWorld.mem_settle he with ⟨rfl, some⟩ | ⟨f, -, rfl⟩ | ⟨there, he⟩
    · rw [signal, if_pos ⟨rfl, some⟩]
      exact leaving_of_start (stacked _ mem) finish loop
    · contradiction
    · exact absurd (alone _ (mem_mainLoops he loop)) there

/-- A new task that is not a main loop leaves the loops alone. -/
theorem MonitoredBy.called {m : Nat} (h : w.MonitoredBy m) (valid : w.Valid)
    (idle : w.running = none) {result : PrimeManager V R N × Option (PrimeFrame V N)}
    (task : result.1.task = w.data.task) (silent : ∀ f, result.2 = some f → f.isMainLoop = false) :
    MonitoredBy (w.called result) m := by
  have signal (t : Nat) : (w.called result).signalOf t = none :=
    TaskWorld.signalOf_idle (by rw [TaskWorld.running_called, idle]) t
  constructor
  · rw [TaskWorld.data_called, task, h.task]
  · rw [TaskWorld.cancels_called]
    exact h.kept
  · rw [signal]
    simp
  · obtain ⟨own, mem, staying⟩ := h.stack
    rw [TaskWorld.signalOf_idle idle] at staying
    have old := valid.numbered m (Dict.mem_iff.mpr ⟨_, mem⟩)
    exact ⟨own, TaskWorld.mem_called_of_mem mem old, (signal m).symm ▸ staying⟩
  · intro e mem other loop
    rcases TaskWorld.mem_called mem with ⟨f, start, rfl⟩ | mem
    · simp [silent f start] at loop
    · have running := (h.others e mem other loop).running
      rw [TaskWorld.signalOf_idle idle] at running
      contradiction

theorem Monitored.called (h : w.Monitored) (idle : w.running = none)
    (result : PrimeManager V R N × Option (PrimeFrame V N)) (task : result.1.task = w.data.task)
    (before : result.1.stage = .running → w.data.stage = .running)
    (silent : ∀ f, result.2 = some f → f.isMainLoop = false ∧ f.calledBy none) :
    Monitored (w.called result) := by
  have fresh := w.fresh_called result
  refine ⟨TaskWorld.valid_called h.valid idle result,
    TaskWorld.stacked_called h.stacked result fun f start ↦ (silent f start).2, ?_, ?_, ?_⟩
  · intro t mem
    rw [TaskWorld.cancels_called] at mem
    exact Nat.lt_of_lt_of_le (h.cancels t mem) fresh.1
  · intro t some
    rw [TaskWorld.data_called] at some
    exact Nat.lt_of_lt_of_le (h.task t (task ▸ some)) fresh.1
  · intro on
    rw [TaskWorld.data_called] at on
    obtain ⟨m, monitor⟩ := h.monitor (before on)
    exact ⟨m, monitor.called h.valid idle task fun f start ↦ (silent f start).1⟩

/-- A manager without tasks, which does not run. -/
theorem monitored_empty {s : PrimeManager V R N} (task : s.task = none)
    (off : s.stage ≠ .running) : Monitored (⟨s, .empty, [], 0, none⟩ : PrimeWorld V R N) where
  valid := TaskWorld.valid_empty s
  stacked := TaskWorld.stacked_empty _ s
  cancels _ mem := absurd mem List.not_mem_nil
  task t some := by
    rw [task] at some
    contradiction
  monitor on := absurd on off

/-- A manager whose only task is a new main loop. -/
theorem monitored_first (s : PrimeManager V R N) :
    Monitored (TaskWorld.spawn ⟨{ s with task := some 0 }, .empty, [], 0, none⟩ (.mainLoop .test) :
      PrimeWorld V R N) where
  valid := TaskWorld.valid_called (TaskWorld.valid_empty s) rfl
    ({ s with task := some 0 }, some (PrimeFrame.mainLoop LoopAt.test))
  stacked := TaskWorld.stacked_called (TaskWorld.stacked_empty _ s)
    ({ s with task := some 0 }, some (PrimeFrame.mainLoop LoopAt.test))
    (by simp [PrimeFrame.calledBy])
  cancels _ mem := absurd mem List.not_mem_nil
  task t some := by
    cases Option.some.inj some
    exact Nat.zero_lt_one
  monitor _ := by
    refine ⟨0, rfl, List.not_mem_nil, by simp [TaskWorld.signalOf, TaskWorld.spawn],
      ⟨[.mainLoop .test], Dict.mem_items_insert.mpr (.inl ⟨rfl, rfl⟩), ?_⟩, ?_⟩
    · exact .looping [] .test _ (by simp) (by simp)
    · intro e mem other _
      rcases Dict.mem_items_insert.mp mem with ⟨eq, -⟩ | ⟨-, mem⟩
      · exact absurd eq other
      · exact absurd mem List.not_mem_nil

theorem monitored_recovered [DecidableEq R] (job : PrimeJob V R) (loaded : PrimeManager V R N) :
    (recovered job loaded).Monitored := by
  rw [recovered]
  split
  · split
    · refine (monitored_first _).called rfl (_, some (.processFailover .start)) rfl id ?_
      intro f starts
      cases starts
      exact ⟨rfl, trivial⟩
    · exact monitored_first _
  · exact monitored_empty rfl (by simp [PrimeManager.doStop])

variable [DecidableEq V] [DecidableEq R] [DecidableEq N]

/-- The frames that replace an executed one of a leaving loop leave as well. -/
theorem MonitoredBy.leaves {m t : Nat} {sig : Option PrimeError} {f : PrimeFrame V N}
    {rest : List (PrimeFrame V N)} {input : PrimeInput N} (h : w.MonitoredBy m)
    (running : w.running = some (t, sig)) (stack : w.tasks.get? t = some (f :: rest))
    (still : (w.data.exec job (w.context t) f sig input).data.stage = .running) (other : m ≠ t)
    (some : (w.data.exec job (w.context t) f sig input).next.frames ++ rest ≠ [])
    (loop : ((w.data.exec job (w.context t) f sig input).next.frames ++ rest).any
      PrimeFrame.isMainLoop = true) :
    Leaving ((w.data.exec job (w.context t) f sig input).next.frames ++ rest)
      (w.data.exec job (w.context t) f sig input).next.signal := by
  have next := w.data.exec_next job sig input (w.context t) f
  have before : (f :: rest).any PrimeFrame.isMainLoop = true := by
    rcases List.any_eq_true.mp loop with ⟨f', mem', loop'⟩
    rcases List.mem_append.mp mem' with new | below
    · exact List.any_eq_true.mpr ⟨f, List.mem_cons_self, next.isMainLoop_of_mem new loop'⟩
    · exact List.any_eq_true.mpr ⟨f', List.mem_cons_of_mem _ below, loop'⟩
  have leaving := h.others (t, f :: rest) (Dict.get?_eq_some_iff.mp stack) (Ne.symm other) before
  rw [w.signalOf_running running t, if_pos rfl] at leaving
  exact (PrimeManager.exec_leaving leaving still).resolve_left some

/-- A frame that does not change the stage: the monitor keeps going, and so do the leaving loops. -/
theorem MonitoredBy.executed {m t : Nat} {sig : Option PrimeError} {f : PrimeFrame V N}
    {rest : List (PrimeFrame V N)} {input : PrimeInput N} (h : w.MonitoredBy m) (valid : w.Valid)
    (running : w.running = some (t, sig)) (stack : w.tasks.get? t = some (f :: rest))
    (starts : f = .processFailover .start → sig = none →
      rest.any PrimeFrame.handlesFinish = true →
        w.data.isFailoverStage job (some job.globalRole) = false)
    (on : w.data.stage = .running)
    (still : (w.data.exec job (w.context t) f sig input).data.stage = .running)
    (task : (w.data.exec job (w.context t) f sig input).data.task = w.data.task)
    (effect : (w.data.exec job (w.context t) f sig input).effect = .none) :
    MonitoredBy (w.settle t rest (w.data.exec job (w.context t) f sig input)) m := by
  have next := w.data.exec_next job sig input (w.context t) f
  have mem := Dict.get?_eq_some_iff.mp stack
  have old : ∀ {e : Nat × List (PrimeFrame V N)}, e ∈ w.tasks.items → e.1 < w.fresh :=
    fun mem ↦ valid.numbered _ (Dict.mem_iff.mpr ⟨_, mem⟩)
  have signal := w.signalOf_running running
  have leaves : ∀ other, _ := fun other ↦ h.leaves running stack still other
  generalize outcome : w.data.exec job (w.context t) f sig input = o at *
  have cancels : (w.settle t rest o).cancels = w.cancels := by
    rw [TaskWorld.cancels_settle, effect]
  obtain ⟨own, ownMem, staying⟩ := h.stack
  by_cases self : m = t
  · subst self
    have same : own = f :: rest :=
      Option.some.inj ((Dict.get?_eq_some_iff.mpr ownMem).symm.trans stack)
    subst same
    have uncancelled := h.uncancelled
    rw [signal m, if_pos rfl] at staying uncancelled
    have stays : Staying (o.next.frames ++ rest) o.next.signal := by
      rw [← outcome]
      apply PrimeManager.exec_staying staying (fun eq ↦ uncancelled (congrArg some eq)) on starts
      rw [outcome]
      exact still
    have own : (w.settle m rest o).signalOf m = o.next.signal := by
      rw [TaskWorld.signalOf_settle, if_pos ⟨rfl, stays.ne_nil⟩]
    constructor
    · rw [TaskWorld.data_settle, task, h.task]
    · rw [cancels]
      exact h.kept
    · rw [own]
      intro cancelled
      exact uncancelled (congrArg some (next.received cancelled))
    · rw [own]
      exact ⟨_, TaskWorld.mem_settle_self (old mem) stays.ne_nil, stays⟩
    · intro e he other loop
      rcases TaskWorld.mem_settle he with ⟨rfl, -⟩ | ⟨f', spawn, -⟩ | ⟨-, he⟩
      · contradiction
      · rw [effect] at spawn
        contradiction
      · have running := (h.others e he other loop).running
        rw [signal, if_neg other] at running
        contradiction
  · have own : (w.settle t rest o).signalOf m = none := by
      rw [TaskWorld.signalOf_settle, if_neg fun both ↦ self both.1]
    rw [signal m, if_neg self] at staying
    constructor
    · rw [TaskWorld.data_settle, task, h.task]
    · rw [cancels]
      exact h.kept
    · rw [own]
      simp
    · rw [own]
      exact ⟨_, TaskWorld.mem_settle_of_ne ownMem self (old ownMem), staying⟩
    · intro e he other loop
      rcases TaskWorld.mem_settle he with ⟨rfl, some⟩ | ⟨f', spawn, -⟩ | ⟨there, he⟩
      · rw [TaskWorld.signalOf_settle, if_pos ⟨rfl, some⟩]
        exact leaves self some loop
      · rw [effect] at spawn
        contradiction
      · have running := (h.others e he other loop).running
        rw [signal, if_neg there] at running
        contradiction

theorem monitored_step (h : w.Monitored) {l : PrimeLabel V N}
    (meets : monitorsOnce job w l = true) (taken : step job w l = some w') : w'.Monitored := by
  have valid := TaskWorld.valid_step taken h.valid
  have stacked := stacked_step h.stacked taken
  cases TaskWorld.step_cases taken with
  | resumed t sig f rest idle stack _ wakes =>
    refine ⟨valid, stacked, ?_, h.task, ?_⟩
    · intro t' mem
      exact h.cancels t' (List.mem_filter.mp mem).1
    · intro on
      obtain ⟨m, monitor⟩ := h.monitor on
      exact ⟨m, monitor.resumed idle stack wakes⟩
  | executed t sig f rest input running stack _ =>
    have mem := Dict.get?_eq_some_iff.mp stack
    have old : t < w.fresh := h.valid.numbered t (Dict.mem_iff.mpr ⟨_, mem⟩)
    have has (p : PrimeFrame V N → Bool) : w.stackHas t p = (f :: rest).any p := by
      simp [stackHas, stack]
    rw [monitorsOnce, TaskWorld.top_eq running stack] at meets
    have fresh := w.fresh_settle t rest (w.data.exec job (w.context t) f sig input)
    have tasks := w.data.exec_task job (w.context t) f sig input
    refine ⟨valid, stacked, ?_, ?_, ?_⟩
    · intro t' mem'
      rw [TaskWorld.cancels_settle] at mem'
      split at mem'
      · next t'' cancel =>
        rcases List.mem_cons.mp mem' with rfl | mem'
        · exact Nat.lt_of_lt_of_le (h.task _ (tasks.1 _ cancel)) fresh.1
        · exact Nat.lt_of_lt_of_le (h.cancels _ mem') fresh.1
      · exact Nat.lt_of_lt_of_le (h.cancels _ mem') fresh.1
    · intro t' task
      rw [TaskWorld.data_settle] at task
      rcases tasks.2 with same | ⟨new, spawn⟩
      · exact Nat.lt_of_lt_of_le (h.task _ (same ▸ task)) fresh.1
      · cases new.symm.trans task
        exact fresh.2 _ spawn
    · intro on
      rw [TaskWorld.data_settle] at on
      rcases PrimeManager.exec_running on with ⟨rfl, rfl⟩ | ⟨before, task, effect⟩
      · have alone : (w.mainLoops.all (· = t) &&
            !w.stackHas t PrimeFrame.handlesFailure) = true := meets
        rw [Bool.and_eq_true_iff, List.all_eq_true, has, Bool.not_eq_true'] at alone
        refine ⟨w.fresh, monitoredBy_fresh h.valid h.stacked h.cancels stack ?_ alone.2⟩
        intro t' mem'
        exact of_decide_eq_true (alone.1 t' mem')
      · obtain ⟨m, monitor⟩ := h.monitor before
        refine ⟨m, monitor.executed h.valid running stack ?_ before on task effect⟩
        rintro rfl rfl finish
        simpa [before, has, finish] using meets
  | called x idle =>
    have calls := w.data.call_stage job x
    exact h.called idle _ calls.1 calls.2 fun f start ↦ (w.data.call_starts job start).2

/-- In every run in which `start` never finds another main loop alive, and no failover of a finished
job is skipped, one loop monitors a running job. -/
theorem mainLoop_isUnique {start : PrimeWorld V R N} (boots : Boots job start)
    {labels : List (PrimeLabel V N)}
    (run : Run (step job) (fun w l ↦ monitorsOnce job w l = true) start labels w) : w.OneLoop := by
  have monitored : w.Monitored := by
    refine run.invariant ?_ fun _ _ _ h meets taken ↦ monitored_step h meets taken
    obtain rfl | ⟨loaded, rfl⟩ := boots
    · exact monitored_empty rfl (by simp)
    · exact monitored_recovered job loaded
  exact monitored.oneLoop

/-- The worker fails; the main loop finds it finished, restarts the job and leaves, and the new loop
goes on. -/
def soloRestart : List (PrimeLabel Nat Nat) :=
  soloStart ++ [.call (.reportExecutionResult 0 ⟨true, 5⟩), .resume 1 none, goesOn, goesOn, goesOn,
    goesOn, goesOn, goesOn, .resume 1 (some .cancelled), goesOn, goesOn, .resume 1 none, goesOn,
    goesOn, .resume 1 none, goesOn, .resume 1 none, .exec { nodeInfos := [7] }, goesOn, goesOn,
    goesOn, goesOn, goesOn, .resume 1 none, goesOn, goesOn, goesOn, goesOn, goesOn]

theorem mainLoop_isUnique_run :
    ∃ w : PrimeWorld Nat Nat Nat,
      Run (step { soloJob with failoverTriggerStrategy := 0 })
        (fun w l ↦ monitorsOnce { soloJob with failoverTriggerStrategy := 0 } w l = true) init
        soloRestart w ∧
        (w.data.jobRestarts = 1 ∧ w.data.task = some 2 ∧ w.mainLoops = [2]) ∧ w.OneLoop := by
  obtain ⟨w, run, restarted⟩ : ∃ w : PrimeWorld Nat Nat Nat,
      Run (step { soloJob with failoverTriggerStrategy := 0 })
        (fun w l ↦ monitorsOnce { soloJob with failoverTriggerStrategy := 0 } w l = true) init
        soloRestart w ∧
        decide (w.data.jobRestarts = 1 ∧ w.data.task = some 2 ∧ w.mainLoops = [2]) = true :=
    run_of_guarded_any (by decide +kernel)
  exact ⟨w, run, of_decide_eq_true restarted, mainLoop_isUnique (.inl rfl) run⟩

/-- The main loop handles the failure right away, and the restart is done. -/
def soloFailover : List (PrimeLabel Nat Nat) :=
  soloStart ++ [.call (.reportExecutionResult 0 ⟨true, 5⟩), .resume 1 none, goesOn, goesOn, goesOn,
    goesOn, goesOn, .resume 1 (some .cancelled), goesOn, goesOn, .resume 1 none, goesOn, goesOn,
    .resume 1 none, goesOn, .resume 1 none, .exec { nodeInfos := [7] }, goesOn, goesOn, goesOn,
    goesOn, goesOn, .resume 1 none, goesOn, goesOn, goesOn, goesOn]

/-- With `failover_trigger_strategy` 2 the loop that restarted the job goes on beside the new one.
-/
theorem mainLoop_isNotUnique :
    ∃ w : PrimeWorld Nat Nat Nat,
      Run (step soloJob) anyStep init soloFailover w ∧ w.mainLoops.length = 2 ∧ ¬ w.OneLoop := by
  obtain ⟨w, run, both⟩ : ∃ w : PrimeWorld Nat Nat Nat,
      Run (step soloJob) anyStep init soloFailover w ∧
        decide (w.running = none ∧ w.data.stage = .running ∧ w.mainLoops.length = 2) = true :=
    run_of_any (by decide +kernel)
  obtain ⟨idle, running, two⟩ := of_decide_eq_true both
  refine ⟨w, run, two, ?_⟩
  intro unique
  obtain ⟨t, -, one⟩ := unique idle running
  rw [one] at two
  simp at two

end PrimeWorld

end ProbingBaselines.Dlrover
