import ProbingBaselines.Dlrover.PrimeControl

/-!
# Stops of the prime manager

`request_stop` (`manager.py:553-570`) moves the stage to STOPPING or STOPPED. The coroutines that
write READY or RUNNING after an await do not look at the stage again: `prepare` after its actors are
set up, `start` after they were told to start, and `restart_job` after its node relaunch. A stop
that lands in one of these awaits is undone. Until one of them goes on after a stop, the stop is
final.
-/

namespace ProbingBaselines.Dlrover

open Lib

namespace PrimeControl

/-- What a stop promises: the stage does not become READY or RUNNING again, no `restart_job`
restarts actors any more, and the assertion of `wait` (`manager.py:585-589`) holds. -/
structure StopFinal (c : PrimeControl) : Prop where
  stage : c.stopRequested = true → c.stage ≠ .ready ∧ c.stage ≠ .running
  actors : c.lateRestarts = 0
  wait : c.stoppedEvent = true → c.stage = .stopped

/-- The stage tells whether a stop was requested. -/
structure Stops (c : PrimeControl) : Prop where
  requested : c.stopRequested = true ↔ c.stage = .stopping ∨ c.stage = .stopped
  event : c.stoppedEvent = true → c.stage = .stopped
  actors : c.lateRestarts = 0

variable {c : PrimeControl}

theorem Stops.stopFinal (h : c.Stops) : c.StopFinal where
  stage requested := by
    rcases h.requested.mp requested with eq | eq <;> simp [eq]
  actors := h.actors
  wait := h.event

theorem Stops.requestStop (h : c.Stops) : c.requestStop.Stops := by
  rcases h with ⟨requested, event, actors⟩
  rw [PrimeControl.requestStop]
  cases stage : c.stage with
  | init | ready | running => constructor <;> simp_all
  | stopping | stopped => constructor <;> simp_all

/-- Before a stop the stage may be set to anything but STOPPING and STOPPED. -/
theorem Stops.proceed (h : c.Stops) (before : c.stopRequested = false) {stage : MasterStage}
    (task : Option Nat) (live : stage ≠ .stopping ∧ stage ≠ .stopped) :
    Stops { c with stage := stage, task := task } := by
  have silent : c.stoppedEvent = false := by
    by_contra set
    have stopped := h.event (Bool.eq_true_of_not_eq_false set)
    have requested := h.requested.mpr (.inr stopped)
    rw [before] at requested
    contradiction
  constructor
  · simp [before, live]
  · simp [silent]
  · exact h.actors

end PrimeControl

section

variable {V R N : Type} [DecidableEq V] [DecidableEq R] [DecidableEq N]

namespace PrimeManager

/-- The frames that write READY or RUNNING, or restart the actors of the job. -/
def proceeds (job : PrimeJob V R) (s : PrimeManager V R N) :
    PrimeFrame V N → Option PrimeError → Bool
  | .prepare .setUp, none | .start .started, none => true
  | .restartJob _ .relaunched, none => s.task.isSome && s.jobRestartCount < job.jobMaxRestart
  | .restartActors actors true .start, none => (s.countRestarts job actors).2
  | _, _ => false

/-- A frame keeps the invariant, if it does not proceed after a stop. -/
theorem exec_stops {job : PrimeJob V R} {s : PrimeManager V R N} {f : PrimeFrame V N}
    {sig : Option PrimeError} (h : s.control.Stops)
    (respects : s.stopRequested = true → s.proceeds job f sig = false) (ctx : TaskContext)
    (input : PrimeInput N) : (s.exec job ctx f sig input).data.control.Stops := by
  have before : s.proceeds job f sig = true → s.stopRequested = false := by
    intro goes
    by_contra requested
    rw [respects (Bool.eq_true_of_not_eq_false requested)] at goes
    contradiction
  have kind := s.exec_control job ctx sig input f
  generalize s.exec job ctx f sig input = o at kind
  cases kind with
  | same control _ => rwa [control]
  | stops control _ =>
    rw [control]
    exact h.requestStop
  | ends stopping =>
    have requested := h.requested.mpr (.inl stopping)
    constructor
    · simpa [control, doStop] using requested
    · simp [control, doStop]
    · exact h.actors
  | ready => exact h.proceed (before rfl) s.task (by simp)
  | runs => exact h.proceed (before rfl) (some ctx.fresh) (by simp)
  | restarts withNodeRelaunch t o task budget control _ =>
    rw [control]
    exact h.proceed (before (by simp [proceeds, task, budget])) s.task (by simp)
  | again actors o requested counted =>
    rw [before counted] at requested
    contradiction

end PrimeManager

namespace PrimeWorld

/-- After a stop, no frame goes on that proceeds. -/
def respectsStop (job : PrimeJob V R) (w : PrimeWorld V R N) : PrimeLabel V N → Bool
  | .exec _ => !w.data.stopRequested || w.top.all fun (_, f, sig) ↦ !w.data.proceeds job f sig
  | _ => true

theorem step_stops {job : PrimeJob V R} {w w' : PrimeWorld V R N} {l : PrimeLabel V N}
    (h : w.data.control.Stops) (respects : respectsStop job w l = true)
    (taken : step job w l = some w') : w'.data.control.Stops := by
  cases TaskWorld.step_cases taken with
  | resumed => exact h
  | executed t sig f rest input running stack allowed =>
    rw [TaskWorld.data_settle]
    apply PrimeManager.exec_stops h
    intro requested
    rw [respectsStop, TaskWorld.top_eq running stack, requested] at respects
    simpa using respects
  | called x idle =>
    rw [TaskWorld.data_called]
    rcases w.data.call_control job x with same | stop
    · exact same ▸ h
    · exact stop ▸ h.requestStop

/-- In every run in which no frame proceeds after the first stop request, the stop is final. -/
theorem stop_isFinal {job : PrimeJob V R} {w : PrimeWorld V R N} {labels : List (PrimeLabel V N)}
    (run : Run (step job) (fun w l ↦ respectsStop job w l = true) init labels w) :
    w.data.control.StopFinal := by
  have stops : w.data.control.Stops := by
    refine run.invariant ⟨?_, ?_, rfl⟩ fun _ _ _ h respects taken ↦ step_stops h respects taken
    · simp [init, PrimeManager.control]
    · simp [init, PrimeManager.control]
  exact stops.stopFinal

end PrimeWorld

end

namespace PrimeWorld

/-- A stop of the running job: the main loop carries it out, and a later restart request fails. -/
def soloStop : List (PrimeLabel Nat Nat) :=
  soloStart ++ [.call .stop, .resume 1 none, goesOn, goesOn, .call .restart, .resume 2 none,
    goesOn]

theorem stop_isFinal_run :
    ∃ w : PrimeWorld Nat Nat Nat,
      Run (step soloJob) (fun w l ↦ respectsStop soloJob w l = true) init soloStop w ∧
        (w.data.stopRequested ∧ w.data.stoppedEvent) ∧ w.data.control.StopFinal := by
  obtain ⟨w, run, stopped⟩ : ∃ w : PrimeWorld Nat Nat Nat,
      Run (step soloJob) (fun w l ↦ respectsStop soloJob w l = true) init soloStop w ∧
        (w.data.stopRequested && w.data.stoppedEvent) = true :=
    run_of_guarded_any (by decide +kernel)
  exact ⟨w, run, Bool.and_eq_true_iff.mp stopped, stop_isFinal run⟩

/-- The stop lands while `start` waits for its actors. They are killed, and then the job runs. -/
theorem stop_isNotFinal :
    ∃ w : PrimeWorld Nat Nat Nat,
      Run (step soloJob) anyStep init (soloPrepare ++ [.call .stop, .resume 0 none, goesOn]) w ∧
        w.data.stopRequested = true ∧ w.data.stoppedEvent = true ∧ w.data.stage = .running ∧
          ¬ w.data.control.StopFinal := by
  obtain ⟨w, run, undone⟩ : ∃ w : PrimeWorld Nat Nat Nat,
      Run (step soloJob) anyStep init (soloPrepare ++ [.call .stop, .resume 0 none, goesOn]) w ∧
        decide (w.data.stopRequested = true ∧ w.data.stoppedEvent = true ∧
          w.data.stage = .running) = true :=
    run_of_any (by decide +kernel)
  obtain ⟨requested, event, running⟩ := of_decide_eq_true undone
  refine ⟨w, run, requested, event, running, ?_⟩
  intro final
  exact (final.stage requested).2 running

end PrimeWorld

end ProbingBaselines.Dlrover
