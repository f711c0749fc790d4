import ProbingBaselines.Dlrover.PrimeManager

/-!
# The coroutines of the prime manager

Each coroutine as a function of its place, the exception it sees and the answer of the environment.
An exception that a coroutine does not catch unwinds it.
-/

namespace ProbingBaselines.Dlrover

open Lib

variable {V R N : Type}

/-- What executing one frame yields. -/
abbrev PrimeOutcome (V R N : Type) := Outcome (PrimeManager V R N) (PrimeFrame V N) PrimeError

namespace PrimeManager

variable [DecidableEq V] [DecidableEq R] [DecidableEq N]

/-- `PrimeMaster.start` (`master.py:61-64`). -/
def execMasterStart (s : PrimeManager V R N) :
    MasterStartAt → Option PrimeError → PrimeOutcome V R N
  | _, some e => ⟨s, .throw e, .none⟩
  | .start, none => ⟨s, .call (.masterStart .prepared) (.prepare .start), .none⟩
  | .prepared, none => ⟨s, .call (.masterStart .started) (.start .start), .none⟩
  | .started, none => ⟨s, .ret, .none⟩

/-- `prepare` (`manager.py:141-154`); the placement group may not be allocated. -/
def execPrepare (job : PrimeJob V R) (s : PrimeManager V R N) :
    PrepareAt → Option PrimeError → PrimeInput N → PrimeOutcome V R N
  | _, some e, _ => ⟨s, .throw e, .none⟩
  | .start, none, input =>
    if input.fails then ⟨s, .throw .error, .none⟩ else ⟨s, .await (.prepare .created), .none⟩
  | .created, none, _ => ⟨s, .call (.prepare .setUp) (.setupActors job.vertices .start), .none⟩
  | .setUp, none, _ =>
    ⟨{ s with stage := .ready }, .call (.prepare .checked) (.nodesCheck .start), .none⟩
  | .checked, none, _ => ⟨s, .ret, .none⟩

/-- `_setup_actors` (`manager.py:156-169`). -/
def execSetupActors (s : PrimeManager V R N) (actors : List V) :
    SetupAt → Option PrimeError → PrimeInput N → PrimeOutcome V R N
  | _, some e, _ => ⟨s, .throw e, .none⟩
  | .start, none, _ => ⟨s, .await (.setupActors actors .setUp), .none⟩
  | .setUp, none, _ => ⟨s, .await (.setupActors actors .informed), .none⟩
  | .informed, none, input =>
    ⟨(actors.zip input.nodeInfos).foldl (fun s (v, node) ↦
      s.updateVertex v fun x ↦ { x with nodeInfo := some node, isReady := true }) s, .ret, .none⟩

/-- `_nodes_check` (`manager.py:171-187`). -/
def execNodesCheck (job : PrimeJob V R) (s : PrimeManager V R N) :
    CheckAt → Option PrimeError → PrimeOutcome V R N
  | _, some e => ⟨s, .throw e, .none⟩
  | .start, none =>
    if job.roles.filterMap job.subMaster = [] then ⟨s, .ret, .none⟩
    else ⟨s, .await (.nodesCheck .checked), .none⟩
  | .checked, none => ⟨s, .ret, .none⟩

/-- `start` (`manager.py:189-201`); the new main loop gets the number `fresh`. -/
def execStart (s : PrimeManager V R N) (fresh : Nat) :
    StartAt → Option PrimeError → PrimeOutcome V R N
  | _, some e => ⟨s, .throw e, .none⟩
  | .start, none =>
    if s.stage = .ready then ⟨s, .await (.start .started), .none⟩ else ⟨s, .throw .error, .none⟩
  | .started, none =>
    ⟨{ s with task := some fresh, stage := .running }, .ret, .spawn (.mainLoop .test)⟩

/-- `_main_loop` (`manager.py:203-270`). Its handler lets only a cancellation through. -/
def execMainLoop (job : PrimeJob V R) (s : PrimeManager V R N) :
    LoopAt → Option PrimeError → PrimeOutcome V R N
  | _, some .cancelled => ⟨s, .throw .cancelled, .none⟩
  | _, some _ => ⟨s.requestStop 1, .ret, .none⟩
  | .test, none =>
    if s.stage = .running then
      if 0 < s.notify then ⟨{ s with notify := s.notify - 1 }, .goto (.mainLoop .acquired), .none⟩
      else ⟨s, .await (.mainLoop .acquiring), .none⟩
    else ⟨s, .goto (.mainLoop .exit), .none⟩
  | .acquiring, none => ⟨{ s with notify := s.notify - 1 }, .goto (.mainLoop .acquired), .none⟩
  | .acquired, none =>
    if job.roles.any (s.hasAnyFailure job) ∧ job.failoverTriggerStrategy = 2 then
      ⟨s, .call (.mainLoop .failureHandled) (.processFailover .start), .none⟩
    else ⟨s, .goto (.mainLoop .failureHandled), .none⟩
  | .failureHandled, none =>
    let drivers := job.roles.filter job.isDriver
    if drivers.all (s.finished job) then
      if drivers.any (s.hasAnyFailure job) then
        ⟨s, .call (.mainLoop .finishedHandled) (.processFailover .start), .none⟩
      else ⟨s.requestStop 0, .goto (.mainLoop .exit), .none⟩
    else ⟨s, .await (.mainLoop .slept), .none⟩
  | .slept, none => ⟨s, .goto (.mainLoop .test), .none⟩
  | .finishedHandled, none => ⟨s, .goto (.mainLoop .exit), .none⟩
  | .exit, none => ⟨if s.stage = .stopping then s.doStop else s, .ret, .none⟩

/-- `restart_actors` (`manager.py:272-290`); `ray.kill` may fail for an actor. -/
def execRestartActors (job : PrimeJob V R) (s : PrimeManager V R N) (actors : List V)
    (byJob : Bool) : RestartActorsAt → Option PrimeError → PrimeInput N → PrimeOutcome V R N
  | _, some e, _ => ⟨s, .throw e, .none⟩
  | .start, none, input =>
    match s.countRestarts job actors with
    | (s, false) => ⟨s, .ret, .none⟩
    | (s, true) =>
      let s := s.updateVertices actors fun x ↦ { x with restarting := true }
      let s := { s with
        actorRestarts := fun v ↦ s.actorRestarts v + actors.count v
        lateRestarts := if byJob && s.stopRequested then s.lateRestarts + 1 else s.lateRestarts }
      if input.fails then ⟨s, .throw .error, .none⟩
      else ⟨s, .await (.restartActors actors byJob .restarted), .none⟩
  | .restarted, none, _ =>
    ⟨s, .call (.restartActors actors byJob .setUp) (.setupActors actors .start), .none⟩
  | .setUp, none, _ =>
    ⟨s.updateVertices actors fun x ↦ { x with restarting := false, result := none }, .ret, .none⟩

/-- `_do_failover` (`manager.py:337-382`). -/
def execDoFailover (job : PrimeJob V R) (s : PrimeManager V R N) (actor : V) :
    FailoverAt → Option PrimeError → PrimeInput N → PrimeOutcome V R N
  | _, some e, _ => ⟨s, .throw e, .none⟩
  | .start, none, _ =>
    let s := s.setFailoverStage (job.role actor)
    if (s.vertex actor).perNodeFailureCount > job.perNodeMaxFailure actor then
      if (s.vertex actor).nodeInfo = none then ⟨s, .throw .error, .none⟩
      else ⟨s.setFailoverStage job.globalRole,
        .call (.doFailover actor (.relaunched true)) (.relaunchSingle actor .start), .none⟩
    else ⟨s, .goto (.doFailover actor (.relaunched false)), .none⟩
  | .relaunched up, none, _ =>
    match job.subMaster (job.role actor) with
    | none => ⟨s, .call (.doFailover actor (.restarted up)) (.restartJob none .start), .none⟩
    | some subMaster =>
      if subMaster = actor then
        ⟨s, .call (.doFailover actor (.setUp up)) (.setupActors [actor] .start), .none⟩
      else if (s.vertex subMaster).isReady then
        ⟨s, .await (.doFailover actor (.handled up)), .none⟩
      else ⟨s, .await (.doFailover actor (.ready up)), .none⟩
  | .setUp up, none, _ => ⟨s, .await (.doFailover actor (.recovered up)), .none⟩
  | .recovered _, none, _ => ⟨s, .ret, .none⟩
  | .ready up, none, _ => ⟨s, .await (.doFailover actor (.handled up)), .none⟩
  | .handled up, none, input =>
    if input.handled then ⟨s, .ret, .none⟩
    else ⟨s, .call (.doFailover actor (.restarted up)) (.restartJob none .start), .none⟩
  | .restarted up, none, _ =>
    match if up then s.clearFailoverStage (some job.globalRole) else some s with
    | none => ⟨s, .throw .error, .none⟩
    | some s =>
      match s.clearFailoverStage (some (job.role actor)) with
      | none => ⟨s, .throw .error, .none⟩
      | some s => ⟨s, .ret, .none⟩

/-- `_relaunch_nodes` (`manager.py:384-434`). -/
def execRelaunchNodes (job : PrimeJob V R) (s : PrimeManager V R N) (nodes : List N)
    (group : Bool) : RelaunchAt → Option PrimeError → PrimeInput N → PrimeOutcome V R N
  | .start, none, input =>
    if s.nodeRestartCount ≥ job.nodeMaxRestart then ⟨s.requestStop 1, .ret, .none⟩
    else
      let s := { s with removedNodes := s.removedNodes ++ nodes.filter fun n ↦ n ∉ s.removedNodes }
      if input.fails then ⟨s.discardNodes nodes, .throw .error, .none⟩
      else ⟨s, .await (.relaunchNodes nodes group .asked), .none⟩
  | .asked, none, input =>
    let s := { s with
      nodeRestartCount := s.nodeRestartCount + input.relaunched.length
      relaunchedNodes := s.relaunchedNodes ++ input.relaunched }
    let s := s.discardNodes (nodes.filter fun n ↦ n ∉ input.relaunched)
    if input.relaunched = [] then ⟨s, .ret, .none⟩
    else ⟨s, .await (.relaunchNodes nodes group .waiting), .none⟩
  | .waiting, none, _ => ⟨s, .ret, .none⟩
  | _, some .error, _ => ⟨s.discardNodes nodes, .throw .error, .none⟩
  | _, some e, _ => ⟨s, .throw e, .none⟩

/-- `_relaunch_single_node_by_actor` (`manager.py:436-485`). -/
def execRelaunchSingle (s : PrimeManager V R N) (actor : V) :
    SingleAt N → Option PrimeError → PrimeInput N → PrimeOutcome V R N
  | .start, none, _ =>
    match (s.vertex actor).nodeInfo with
    | none => ⟨s, .ret, .none⟩
    | some node =>
      ⟨s, .call (.relaunchSingle actor (.relaunched node)) (.relaunchNodes [node] false .start),
        .none⟩
  | .relaunched _, none, _ =>
    ⟨s.updateVertex actor fun x ↦ { x with perNodeFailureCount := 0 }, .ret, .none⟩
  | .relaunched node, some .timeout, input =>
    if input.fails then ⟨s, .throw .error, .none⟩
    else ⟨s, .call (.relaunchSingle actor .grouped)
      (.relaunchGroup (getNodeGroup node input.rayNodes) .start), .none⟩
  | .relaunched _, some .error, _ => ⟨s, .ret, .none⟩
  | .grouped, none, _ => ⟨s, .ret, .none⟩
  | _, some e, _ => ⟨s, .throw e, .none⟩

/-- `_relaunch_node_group` (`manager.py:487-507`). -/
def execRelaunchGroup (s : PrimeManager V R N) (nodes : List N) :
    GroupAt → Option PrimeError → PrimeOutcome V R N
  | _, some .cancelled => ⟨s, .throw .cancelled, .none⟩
  | .start, none =>
    ⟨s, .call (.relaunchGroup nodes .done) (.relaunchNodes nodes true .start), .none⟩
  | _, _ => ⟨s, .ret, .none⟩

/-- `restart_job` (`manager.py:509-551`). A task that has ended is not waited for. -/
def execRestartJob (job : PrimeJob V R) (s : PrimeManager V R N) (live : Nat → Bool)
    (withNodeRelaunch : Option V) : JobAt → Option PrimeError → PrimeOutcome V R N
  | .awaited _, none | .awaited _, some .cancelled =>
    ⟨s, .call (.restartJob withNodeRelaunch .restarted) (.restartActors job.vertices true .start),
      .none⟩
  | _, some e => ⟨s, .throw e, .none⟩
  | .start, none =>
    if s.stage ≠ .running ∨ s.task = none then ⟨s, .throw .error, .none⟩
    else match withNodeRelaunch with
      | some v => ⟨s, .call (.restartJob withNodeRelaunch .relaunched) (.relaunchSingle v .start),
          .none⟩
      | none => ⟨s, .goto (.restartJob withNodeRelaunch .relaunched), .none⟩
  | .relaunched, none =>
    let s := { s with jobRestartCount := s.jobRestartCount + 1 }
    if s.jobRestartCount > job.jobMaxRestart then ⟨s.requestStop 1, .ret, .none⟩
    else match s.task with
      | none => ⟨s, .throw .error, .none⟩
      | some t =>
        let s := { s with stage := .ready, jobRestarts := s.jobRestarts + 1 }
        if live t then ⟨s, .await (.restartJob withNodeRelaunch (.awaited t)), .cancel t⟩
        else ⟨s, .goto (.restartJob withNodeRelaunch (.awaited t)), .none⟩
  | .restarted, none =>
    ⟨s, .call (.restartJob withNodeRelaunch .checked) (.nodesCheck .start), .none⟩
  | .checked, none => ⟨s, .call (.restartJob withNodeRelaunch .started) (.start .start), .none⟩
  | .started, none => ⟨s, .ret, .none⟩

/-- `_process_failover` (`manager.py:749-797`) for the global role. -/
def execProcessFailover (job : PrimeJob V R) (s : PrimeManager V R N) :
    ProcessAt → Option PrimeError → PrimeOutcome V R N
  | _, some e => ⟨s, .throw e, .none⟩
  | .start, none =>
    if s.isFailoverStage job (some job.globalRole) then ⟨s, .ret, .none⟩
    else
      let s := (s.setFailoverStage job.globalRole).recordFailure job
      let demand := s.nodeRelaunchDemand job
      if job.failoverExecStrategy = 1 ∨ job.failoverExecStrategy = 2 then
        ⟨s, .call (.processFailover .restarted) (.restartJob demand .start), .none⟩
      else ⟨s.requestStop 1, .goto (.processFailover .restarted), .none⟩
  | .restarted, none =>
    match s.clearFailoverStage (some job.globalRole) with
    | none => ⟨s, .throw .error, .none⟩
    | some s => ⟨s, .ret, .none⟩

/-- The frames of all coroutines. -/
def exec (job : PrimeJob V R) (ctx : TaskContext) (s : PrimeManager V R N)
    (frame : PrimeFrame V N) (sig : Option PrimeError) (input : PrimeInput N) :
    PrimeOutcome V R N :=
  match frame with
  | .masterStart place => s.execMasterStart place sig
  | .prepare place => s.execPrepare job place sig input
  | .setupActors actors place => s.execSetupActors actors place sig input
  | .nodesCheck place => s.execNodesCheck job place sig
  | .start place => s.execStart ctx.fresh place sig
  | .mainLoop place => s.execMainLoop job place sig
  | .restartActors actors byJob place => s.execRestartActors job actors byJob place sig input
  | .doFailover actor place => s.execDoFailover job actor place sig input
  | .relaunchNodes nodes group place => s.execRelaunchNodes job nodes group place sig input
  | .relaunchSingle actor place => s.execRelaunchSingle actor place sig input
  | .relaunchGroup nodes place => s.execRelaunchGroup nodes place sig
  | .restartJob withNodeRelaunch place => s.execRestartJob job ctx.live withNodeRelaunch place sig
  | .processFailover place => s.execProcessFailover job place sig

/-- When the environment may resume a frame. A task begins normally; the main loop is woken by the
semaphore or after its sleep; `await self._task` ends with the task, and a wait for the sub-master
once it is ready; every other await is for remote calls, which may fail. Only `_relaunch_nodes` has
a timeout. -/
def wakes (job : PrimeJob V R) (ctx : TaskContext) (s : PrimeManager V R N) :
    PrimeFrame V N → Option PrimeError → Bool
  | .mainLoop .acquiring, none => 0 < s.notify
  | .restartJob _ (.awaited t), none => !ctx.live t
  | .doFailover actor (.ready _), none =>
    (job.subMaster (job.role actor)).any fun v ↦ (s.vertex v).isReady
  | .masterStart .start, none | .restartActors _ _ .start, none | .restartJob _ .start, none
  | .doFailover _ .start, none | .processFailover .start, none | .mainLoop .test, none
  | .mainLoop .slept, none => true
  | .prepare .created, sig | .setupActors _ .setUp, sig | .setupActors _ .informed, sig
  | .nodesCheck .checked, sig | .start .started, sig | .restartActors _ _ .restarted, sig
  | .doFailover _ (.recovered _), sig | .doFailover _ (.handled _), sig =>
    sig = none ∨ sig = some .error
  | .relaunchNodes _ _ .asked, sig | .relaunchNodes _ _ .waiting, sig => sig ≠ some .cancelled
  | _, _ => false

/-- `relaunch_nodes_impl` answers with a sub-list of the nodes it was asked for. -/
def allows (_ : PrimeManager V R N) :
    PrimeFrame V N → Option PrimeError → PrimeInput N → Bool
  | .relaunchNodes nodes _ .asked, none, input => input.relaunched.isSublist nodes
  | _, _, _ => true

/-- The RPCs (`master.py:61-68`, `master.py:109-127`, `master.py:146-153`). One that names an actor
which is not in the graph raises. -/
def call (job : PrimeJob V R) (s : PrimeManager V R N) :
    PrimeCall V → PrimeManager V R N × Option (PrimeFrame V N)
  | .start => (s, some (.masterStart .start))
  | .restart => (s, some (.restartJob none .start))
  | .restartActors actors =>
    (s, if actors.all (· ∈ job.vertices) then some (.restartActors actors false .start) else none)
  | .stop => (s.requestStop 1, none)
  | .reportActorRestarted v =>
    if v ∈ job.vertices then
      let (s, creates) := s.dealWithActorRestarting job v
      (s, if creates then some (.doFailover v .start) else none)
    else (s, none)
  | .reportExecutionResult v result =>
    if v ∈ job.vertices then
      (({ s with notify := s.notify + 1 } : PrimeManager V R N).updateVertex v fun x ↦
        { x with result := some result }, none)
    else (s, none)

end PrimeManager

section

variable [DecidableEq V] [DecidableEq R] [DecidableEq N]

/-- The manager as a system of tasks. -/
def primeCoroutines (job : PrimeJob V R) :
    Coroutines (PrimeManager V R N) (PrimeFrame V N) PrimeError (PrimeInput N) (PrimeCall V) where
  exec := PrimeManager.exec job
  allows := PrimeManager.allows
  wakes := PrimeManager.wakes job
  cancelled := .cancelled
  call x s := s.call job x

/-- The manager with its tasks. -/
abbrev PrimeWorld (V R N : Type) := TaskWorld (PrimeManager V R N) (PrimeFrame V N) PrimeError

abbrev PrimeLabel (V N : Type) := TaskLabel PrimeError (PrimeInput N) (PrimeCall V)

namespace PrimeWorld

/-- One step of the event loop. -/
def step (job : PrimeJob V R) (w : PrimeWorld V R N) (l : PrimeLabel V N) :
    Option (PrimeWorld V R N) :=
  TaskWorld.step (primeCoroutines job) w l

/-- A new manager. -/
def init : PrimeWorld V R N := ⟨{}, .empty, [], 0, none⟩

/-- `self_recover` (`manager.py:618-643`) of a manager that has loaded its runtime state. -/
def recovered (job : PrimeJob V R) (loaded : PrimeManager V R N) : PrimeWorld V R N :=
  let s := { loaded with notify := 1, stoppedEvent := false, task := none }
  if s.stage = .running then
    let w : PrimeWorld V R N := TaskWorld.spawn ⟨{ s with task := some 0 }, .empty, [], 0, none⟩
      (.mainLoop .test)
    if s.isFailoverStage job none then
      TaskWorld.spawn { w with data := { w.data with failoverStage := [] } }
        (.processFailover .start)
    else w
  else ⟨{ s with failoverStage := [] }.doStop, .empty, [], 0, none⟩

/-- A manager begins as a new one or recovers. -/
def Boots (job : PrimeJob V R) (w : PrimeWorld V R N) : Prop :=
  w = init ∨ ∃ loaded, w = recovered job loaded

end PrimeWorld

end

/-! ### A job with one worker -/

/-- The worker is vertex 0 of the driver role 0; 9 is the global role. -/
def soloJob : PrimeJob Nat Nat where
  roles := [0]
  instances _ := [0]
  subMaster _ := none
  role _ := 0
  isDriver _ := true
  maxRestart _ := 1
  perNodeMaxFailure _ := 1
  nodeMaxRestart := 1
  jobMaxRestart := 2
  failoverTriggerStrategy := 2
  failoverExecStrategy := 1
  globalRole := 9

/-- The label of an executed frame that does not depend on an answer. -/
def goesOn : PrimeLabel Nat Nat := .exec {}

/-- `PrimeMaster.start` until the actors were told to start; task 0 waits for them. -/
def soloPrepare : List (PrimeLabel Nat Nat) :=
  [.call .start, .resume 0 none, goesOn, goesOn, .resume 0 none, goesOn, goesOn, .resume 0 none,
    goesOn, .resume 0 none, .exec { nodeInfos := [7] }, goesOn, goesOn, goesOn, goesOn, goesOn]

/-- The rest of it: task 1 is the main loop. -/
def soloStart : List (PrimeLabel Nat Nat) :=
  soloPrepare ++ [.resume 0 none, goesOn, goesOn]

end ProbingBaselines.Dlrover
