import ProbingBaselines.Dlrover.PrimeCoroutines

/-!
# The control state of the prime manager

What the coroutines do to the stage, to `_stopped_event` and to `_task`: once for all frames, so
that the results about stops and about the main loop need not look at the coroutines again.
-/

namespace ProbingBaselines.Dlrover

open Lib

variable {V R N : Type}

/-- The stage and what goes with it. -/
structure PrimeControl where
  stage : MasterStage
  stoppedEvent : Bool
  task : Option Nat
  stopRequested : Bool
  lateRestarts : Nat

/-- What a stop request does to it. -/
def PrimeControl.requestStop (c : PrimeControl) : PrimeControl :=
  match c.stage with
  | .stopping | .stopped => { c with stopRequested := true }
  | .running => { c with stage := .stopping, stopRequested := true }
  | .init | .ready => { c with stage := .stopped, stoppedEvent := true, stopRequested := true }

theorem PrimeControl.stage_requestStop (c : PrimeControl) : c.requestStop.stage ≠ .running := by
  rw [PrimeControl.requestStop]
  split <;> simp_all

theorem PrimeControl.task_requestStop (c : PrimeControl) : c.requestStop.task = c.task := by
  rw [PrimeControl.requestStop]
  split <;> rfl

namespace PrimeManager

def control (s : PrimeManager V R N) : PrimeControl :=
  ⟨s.stage, s.stoppedEvent, s.task, s.stopRequested, s.lateRestarts⟩

/-! ### Functions without an await -/

theorem control_requestStop (s : PrimeManager V R N) (code : Int) :
    (s.requestStop code).control = s.control.requestStop := by
  rw [requestStop, PrimeControl.requestStop]
  cases stage : s.stage <;> simp [control, doStop, stage]

theorem stage_requestStop (s : PrimeManager V R N) (code : Int) :
    (s.requestStop code).stage ≠ .running := by
  have stage : (s.requestStop code).stage = s.control.requestStop.stage :=
    congrArg PrimeControl.stage (s.control_requestStop code)
  rw [stage]
  exact s.control.stage_requestStop

@[simp]
theorem control_setFailoverStage [DecidableEq R] (s : PrimeManager V R N) (role : R) :
    (s.setFailoverStage role).control = s.control := by
  rw [setFailoverStage]
  split <;> rfl

theorem control_clearFailoverStage [DecidableEq R] {s t : PrimeManager V R N} {role : Option R}
    (h : s.clearFailoverStage role = some t) : t.control = s.control := by
  cases role with
  | none =>
    cases h
    rfl
  | some role =>
    rw [clearFailoverStage] at h
    split at h
    · cases h
      rfl
    · contradiction

theorem control_of_vertex {s t : PrimeManager V R N} {vertex : V → VertexState N}
    (eq : t = { s with vertex := vertex }) : t.control = s.control := by
  rw [eq]
  rfl

variable [DecidableEq V]

/-- Updates of vertices change nothing else. -/
theorem updateVertices_eq (vs : List V) (f : VertexState N → VertexState N) :
    ∀ s : PrimeManager V R N, ∃ vertex, s.updateVertices vs f = { s with vertex := vertex } := by
  induction vs with
  | nil => exact fun s ↦ ⟨s.vertex, rfl⟩
  | cons v vs ih =>
    intro s
    obtain ⟨vertex, eq⟩ := ih (s.updateVertex v f)
    exact ⟨vertex, eq⟩

/-- So does the loop that stores the node infos. -/
theorem informVertices_eq (infos : List (V × N)) :
    ∀ s : PrimeManager V R N, ∃ vertex, infos.foldl (fun s (v, node) ↦
      s.updateVertex v fun x ↦ { x with nodeInfo := some node, isReady := true }) s =
        { s with vertex := vertex } := by
  induction infos with
  | nil => exact fun s ↦ ⟨s.vertex, rfl⟩
  | cons info infos ih =>
    intro s
    obtain ⟨vertex, eq⟩ := ih (s.updateVertex info.1 fun x ↦
      { x with nodeInfo := some info.2, isReady := true })
    exact ⟨vertex, eq⟩

theorem recordFailure_eq (job : PrimeJob V R) (s : PrimeManager V R N) :
    ∃ vertex, s.recordFailure job = { s with vertex := vertex } := by
  rw [recordFailure]
  split
  · exact ⟨s.vertex, rfl⟩
  · exact ⟨_, rfl⟩

/-- The counting loop of `restart_actors` changes counts and may request a stop. -/
theorem countRestarts_eq (job : PrimeJob V R) (vs : List V) : ∀ s : PrimeManager V R N,
    ∃ vertex, s.countRestarts job vs = ({ s with vertex := vertex }, true) ∨
      s.countRestarts job vs = (({ s with vertex := vertex } : PrimeManager V R N).requestStop 1,
        false) := by
  induction vs with
  | nil => exact fun s ↦ ⟨s.vertex, .inl rfl⟩
  | cons v vs ih =>
    intro s
    rw [countRestarts]
    split
    · exact ⟨_, .inr rfl⟩
    · obtain ⟨vertex, eq⟩ := ih (s.updateVertex v fun x ↦
        { x with restartCount := x.restartCount + 1 })
      exact ⟨vertex, eq⟩

theorem dealWithActorRestarting_eq [DecidableEq R] [DecidableEq N] (job : PrimeJob V R)
    (s : PrimeManager V R N) (v : V) :
    ∃ vertex, (s.dealWithActorRestarting job v).1 = { s with vertex := vertex } := by
  rw [dealWithActorRestarting]
  split
  · exact ⟨_, rfl⟩
  · split
    · exact ⟨_, rfl⟩
    · split
      · exact ⟨_, rfl⟩
      · split <;> exact ⟨_, rfl⟩

/-! ### The coroutines -/

/-- What executing a frame does to the control state: nothing, a stop request, or one of the five
places that read the stage or write it. -/
inductive ControlCase [DecidableEq R] [DecidableEq N] (job : PrimeJob V R) (ctx : TaskContext)
    (s : PrimeManager V R N) :
    PrimeFrame V N → Option PrimeError → PrimeOutcome V R N → Prop where
  | same {f : PrimeFrame V N} {sig : Option PrimeError} {o : PrimeOutcome V R N}
    (control : o.data.control = s.control) (effect : o.effect = .none) :
    ControlCase job ctx s f sig o
  | stops {f : PrimeFrame V N} {sig : Option PrimeError} {o : PrimeOutcome V R N}
    (control : o.data.control = s.control.requestStop) (effect : o.effect = .none) :
    ControlCase job ctx s f sig o
  | ends (stopping : s.stage = .stopping) :
    ControlCase job ctx s (.mainLoop .exit) none ⟨s.doStop, .ret, .none⟩
  | ready (next : Next (PrimeFrame V N) PrimeError) :
    ControlCase job ctx s (.prepare .setUp) none ⟨{ s with stage := .ready }, next, .none⟩
  | runs : ControlCase job ctx s (.start .started) none
    ⟨{ s with task := some ctx.fresh, stage := .running }, .ret, .spawn (.mainLoop .test)⟩
  | restarts (withNodeRelaunch : Option V) (t : Nat) (o : PrimeOutcome V R N)
    (task : s.task = some t) (budget : s.jobRestartCount < job.jobMaxRestart)
    (control : o.data.control = { s.control with stage := .ready })
    (effect : o.effect = if ctx.live t then .cancel t else .none) :
    ControlCase job ctx s (.restartJob withNodeRelaunch .relaunched) none o
  | again (actors : List V) (o : PrimeOutcome V R N) (requested : s.stopRequested = true)
    (counted : (s.countRestarts job actors).2 = true)
    (control : o.data.control = { s.control with lateRestarts := s.lateRestarts + 1 })
    (effect : o.effect = .none) :
    ControlCase job ctx s (.restartActors actors true .start) none o

section

variable [DecidableEq R] [DecidableEq N] (job : PrimeJob V R) (ctx : TaskContext)
  (s : PrimeManager V R N) (sig : Option PrimeError) (input : PrimeInput N)

theorem execMasterStart_control (place : MasterStartAt) :
    ControlCase job ctx s (.masterStart place) sig (s.execMasterStart place sig) := by
  cases sig <;> cases place <;> exact .same rfl rfl

theorem execPrepare_control (place : PrepareAt) :
    ControlCase job ctx s (.prepare place) sig (s.execPrepare job place sig input) := by
  cases sig with
  | some e => exact .same rfl rfl
  | none =>
    cases place with
    | start =>
      simp only [execPrepare]
      split <;> exact .same rfl rfl
    | created => exact .same rfl rfl
    | setUp => exact .ready _
    | checked => exact .same rfl rfl

theorem execSetupActors_control (actors : List V) (place : SetupAt) :
    ControlCase job ctx s (.setupActors actors place) sig
      (s.execSetupActors actors place sig input) := by
  cases sig with
  | some e => exact .same rfl rfl
  | none =>
    cases place with
    | start | setUp => exact .same rfl rfl
    | informed =>
      obtain ⟨vertex, eq⟩ := informVertices_eq (actors.zip input.nodeInfos) s
      exact .same (control_of_vertex eq) rfl

theorem execNodesCheck_control (place : CheckAt) :
    ControlCase job ctx s (.nodesCheck place) sig (s.execNodesCheck job place sig) := by
  cases sig with
  | some e => exact .same rfl rfl
  | none =>
    cases place with
    | start =>
      simp only [execNodesCheck]
      split <;> exact .same rfl rfl
    | checked => exact .same rfl rfl

theorem execStart_control (place : StartAt) :
    ControlCase job ctx s (.start place) sig (s.execStart ctx.fresh place sig) := by
  cases sig with
  | some e => exact .same rfl rfl
  | none =>
    cases place with
    | start =>
      simp only [execStart]
      split <;> exact .same rfl rfl
    | started => exact .runs

theorem execMainLoop_control (place : LoopAt) :
    ControlCase job ctx s (.mainLoop place) sig (s.execMainLoop job place sig) := by
  cases sig with
  | some e =>
    cases e with
    | cancelled => exact .same rfl rfl
    | error | timeout => exact .stops (s.control_requestStop 1) rfl
  | none =>
    cases place with
    | test =>
      simp only [execMainLoop]
      split
      · split <;> exact .same rfl rfl
      · exact .same rfl rfl
    | acquired =>
      simp only [execMainLoop]
      split <;> exact .same rfl rfl
    | failureHandled =>
      simp only [execMainLoop]
      split
      · split
        · exact .same rfl rfl
        · exact .stops (s.control_requestStop 0) rfl
      · exact .same rfl rfl
    | acquiring | slept | finishedHandled => exact .same rfl rfl
    | exit =>
      simp only [execMainLoop]
      split
      · next stopping => exact .ends stopping
      · exact .same rfl rfl

theorem execRestartActors_control (actors : List V) (byJob : Bool) (place : RestartActorsAt) :
    ControlCase job ctx s (.restartActors actors byJob place) sig
      (s.execRestartActors job actors byJob place sig input) := by
  cases sig with
  | some e => exact .same rfl rfl
  | none =>
    cases place with
    | restarted => exact .same rfl rfl
    | setUp =>
      obtain ⟨vertex, eq⟩ := updateVertices_eq actors
        (fun x ↦ { x with restarting := false, result := none }) s
      exact .same (control_of_vertex eq) rfl
    | start =>
      obtain ⟨vertex, counted | counted⟩ := countRestarts_eq job actors s
      · obtain ⟨vertex', eq⟩ := updateVertices_eq actors (fun x ↦ { x with restarting := true })
          { s with vertex := vertex }
        by_cases late : (byJob && s.stopRequested) = true
        · have requested := Bool.and_eq_true_iff.mp late
          cases requested.1
          apply ControlCase.again actors _ requested.2 (by rw [counted])
          · simp only [execRestartActors, counted, eq, if_pos late]
            split <;> rfl
          · simp only [execRestartActors, counted]
            split <;> rfl
        · apply ControlCase.same
          · simp only [execRestartActors, counted, eq, if_neg late]
            split <;> rfl
          · simp only [execRestartActors, counted]
            split <;> rfl
      · apply ControlCase.stops
        · simp only [execRestartActors, counted]
          exact control_requestStop _ 1
        · simp only [execRestartActors, counted]

theorem execDoFailover_control (actor : V) (place : FailoverAt) :
    ControlCase job ctx s (.doFailover actor place) sig
      (s.execDoFailover job actor place sig input) := by
  cases sig with
  | some e => exact .same rfl rfl
  | none =>
    cases place with
    | start =>
      simp only [execDoFailover]
      split
      · split <;> exact .same (by simp) rfl
      · exact .same (by simp) rfl
    | relaunched up =>
      simp only [execDoFailover]
      split
      · exact .same rfl rfl
      · split
        · exact .same rfl rfl
        · split <;> exact .same rfl rfl
    | setUp | recovered | ready => exact .same rfl rfl
    | handled up =>
      simp only [execDoFailover]
      split <;> exact .same rfl rfl
    | restarted up =>
      simp only [execDoFailover]
      split
      · exact .same rfl rfl
      · next s₁ first =>
        have kept : s₁.control = s.control := by
          cases up with
          | true =>
            rw [if_pos rfl] at first
            exact control_clearFailoverStage first
          | false => exact congrArg control (Option.some.inj first).symm
        split
        · exact .same kept rfl
        · next s₂ second => exact .same ((control_clearFailoverStage second).trans kept) rfl

theorem execRelaunchNodes_control (nodes : List N) (group : Bool) (place : RelaunchAt) :
    ControlCase job ctx s (.relaunchNodes nodes group place) sig
      (s.execRelaunchNodes job nodes group place sig input) := by
  cases sig with
  | some e => cases e <;> cases place <;> exact .same rfl rfl
  | none =>
    cases place with
    | start =>
      simp only [execRelaunchNodes]
      split
      · exact .stops (s.control_requestStop 1) rfl
      · split <;> exact .same rfl rfl
    | asked =>
      simp only [execRelaunchNodes]
      split <;> exact .same rfl rfl
    | waiting => exact .same rfl rfl

theorem execRelaunchSingle_control (actor : V) (place : SingleAt N) :
    ControlCase job ctx s (.relaunchSingle actor place) sig
      (s.execRelaunchSingle actor place sig input) := by
  cases sig with
  | some e =>
    cases place with
    | start | grouped => exact .same rfl rfl
    | relaunched node =>
      cases e with
      | timeout =>
        simp only [execRelaunchSingle]
        split <;> exact .same rfl rfl
      | error | cancelled => exact .same rfl rfl
  | none =>
    cases place with
    | start =>
      simp only [execRelaunchSingle]
      split <;> exact .same rfl rfl
    | relaunched node | grouped => exact .same rfl rfl

theorem execRelaunchGroup_control (nodes : List N) (place : GroupAt) :
    ControlCase job ctx s (.relaunchGroup nodes place) sig
      (s.execRelaunchGroup nodes place sig) := by
  cases sig with
  | some e => cases e <;> cases place <;> exact .same rfl rfl
  | none => cases place <;> exact .same rfl rfl

theorem execRestartJob_control (withNodeRelaunch : Option V) (place : JobAt) :
    ControlCase job ctx s (.restartJob withNodeRelaunch place) sig
      (s.execRestartJob job ctx.live withNodeRelaunch place sig) := by
  cases sig with
  | some e => cases e <;> cases place <;> exact .same rfl rfl
  | none =>
    cases place with
    | start =>
      simp only [execRestartJob]
      split
      · exact .same rfl rfl
      · split <;> exact .same rfl rfl
    | relaunched =>
      by_cases budget : s.jobRestartCount + 1 > job.jobMaxRestart
      · apply ControlCase.stops
        · simp only [execRestartJob, if_pos budget]
          exact control_requestStop _ 1
        · simp only [execRestartJob, if_pos budget]
      · cases task : s.task with
        | none =>
          apply ControlCase.same
          · simp only [execRestartJob, if_neg budget, task]
            simp only [control, task]
          · simp only [execRestartJob, if_neg budget, task]
        | some t =>
          apply ControlCase.restarts withNodeRelaunch t _ task (by omega)
          · simp only [execRestartJob, if_neg budget, task]
            split <;> simp only [control, task]
          · simp only [execRestartJob, if_neg budget, task]
            split <;> rfl
    | awaited t | restarted | checked | started => exact .same rfl rfl

theorem execProcessFailover_control (place : ProcessAt) :
    ControlCase job ctx s (.processFailover place) sig (s.execProcessFailover job place sig) := by
  cases sig with
  | some e => exact .same rfl rfl
  | none =>
    cases place with
    | start =>
      simp only [execProcessFailover]
      split
      · exact .same rfl rfl
      · obtain ⟨vertex, eq⟩ := recordFailure_eq job (s.setFailoverStage job.globalRole)
        have kept :
            ((s.setFailoverStage job.globalRole).recordFailure job).control = s.control := by
          rw [eq]
          exact s.control_setFailoverStage job.globalRole
        split
        · exact .same kept rfl
        · apply ControlCase.stops _ rfl
          rw [control_requestStop, kept]
    | restarted =>
      simp only [execProcessFailover]
      split
      · exact .same rfl rfl
      · next cleared => exact .same (control_clearFailoverStage cleared) rfl

/-- What each frame does to the control state. -/
theorem exec_control (f : PrimeFrame V N) :
    ControlCase job ctx s f sig (s.exec job ctx f sig input) := by
  cases f with
  | masterStart place => exact s.execMasterStart_control job ctx sig place
  | prepare place => exact s.execPrepare_control job ctx sig input place
  | setupActors actors place => exact s.execSetupActors_control job ctx sig input actors place
  | nodesCheck place => exact s.execNodesCheck_control job ctx sig place
  | start place => exact s.execStart_control job ctx sig place
  | mainLoop place => exact s.execMainLoop_control job ctx sig place
  | restartActors actors byJob place =>
    exact s.execRestartActors_control job ctx sig input actors byJob place
  | doFailover actor place => exact s.execDoFailover_control job ctx sig input actor place
  | relaunchNodes nodes group place =>
    exact s.execRelaunchNodes_control job ctx sig input nodes group place
  | relaunchSingle actor place => exact s.execRelaunchSingle_control job ctx sig input actor place
  | relaunchGroup nodes place => exact s.execRelaunchGroup_control job ctx sig nodes place
  | restartJob withNodeRelaunch place =>
    exact s.execRestartJob_control job ctx sig withNodeRelaunch place
  | processFailover place => exact s.execProcessFailover_control job ctx sig place

end

/-- A frame starts nothing but a main loop. -/
theorem exec_spawned [DecidableEq R] [DecidableEq N] (job : PrimeJob V R) (ctx : TaskContext)
    (s : PrimeManager V R N) (f : PrimeFrame V N) (sig : Option PrimeError) (input : PrimeInput N) :
    ∀ g ∈ (s.exec job ctx f sig input).effect.spawned, g = .mainLoop .test := by
  have kind := s.exec_control job ctx sig input f
  generalize s.exec job ctx f sig input = o at kind
  have silent : ∀ {e : TaskEffect (PrimeFrame V N)}, e = .none →
      ∀ g ∈ e.spawned, g = .mainLoop .test := by
    rintro _ rfl g mem
    contradiction
  cases kind with
  | same _ effect | stops _ effect | again _ _ _ _ _ effect => exact silent effect
  | ends | ready => exact silent rfl
  | runs => exact fun g mem ↦ List.mem_singleton.mp mem
  | restarts _ _ _ _ _ _ effect =>
    rw [effect]
    split <;> exact fun g mem ↦ absurd mem List.not_mem_nil

/-- A call from outside may request a stop. -/
theorem call_control [DecidableEq R] [DecidableEq N] (job : PrimeJob V R) (s : PrimeManager V R N)
    (x : PrimeCall V) :
    (s.call job x).1.control = s.control ∨ (s.call job x).1.control = s.control.requestStop := by
  cases x with
  | stop => exact .inr (s.control_requestStop 1)
  | start | restart | restartActors actors => exact .inl rfl
  | reportActorRestarted v =>
    apply Or.inl
    simp only [call]
    split
    · obtain ⟨vertex, eq⟩ := dealWithActorRestarting_eq job s v
      exact control_of_vertex eq
    · rfl
  | reportExecutionResult v result =>
    apply Or.inl
    simp only [call]
    split <;> rfl

/-- It leaves the task alone and does not make the job run. -/
theorem call_stage [DecidableEq R] [DecidableEq N] (job : PrimeJob V R) (s : PrimeManager V R N)
    (x : PrimeCall V) : (s.call job x).1.task = s.task ∧
      ((s.call job x).1.stage = .running → s.stage = .running) := by
  rcases s.call_control job x with same | stop
  · have stage : (s.call job x).1.stage = s.stage := congrArg PrimeControl.stage same
    exact ⟨congrArg PrimeControl.task same, fun running ↦ stage ▸ running⟩
  · have stage : (s.call job x).1.stage = _ := congrArg PrimeControl.stage stop
    refine ⟨(congrArg PrimeControl.task stop).trans s.control.task_requestStop, ?_⟩
    intro running
    exact absurd (stage ▸ running) s.control.stage_requestStop

end PrimeManager

end ProbingBaselines.Dlrover
