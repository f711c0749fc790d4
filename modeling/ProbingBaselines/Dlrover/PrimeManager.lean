import Mathlib.Data.List.Basic
import Mathlib.Data.List.Sort
import ProbingBaselines.Lib.Coroutine

/-!
# The prime manager

`PrimeManager` (`unified/controller/manager.py:88-797`) runs a job of Ray actors: it creates and
starts them, monitors them in a main loop, restarts the job on failures and relaunches nodes. Its
coroutines run on one event loop and interleave where they await; each of them is a frame below with
one place for each of its awaits and calls. Remote calls answer, fail or time out as they like. The
RPCs of `PrimeMaster` (`unified/controller/master.py:40-153`) start the tasks.
-/

namespace ProbingBaselines.Dlrover

open Lib

/-- `MasterStage` (`unified/common/enums.py:17-22`). -/
inductive MasterStage where
  | init
  | ready
  | running
  | stopping
  | stopped
  deriving DecidableEq

/-- The exceptions that handlers tell apart; `error` is every other `Exception`, of an assertion, a
missing key or a failed remote call. -/
inductive PrimeError where
  | error
  | timeout
  | cancelled
  deriving DecidableEq

/-- `ExecutionResult` (`unified/common/actor_base.py:90-95`). -/
structure ExecutionResult where
  isFailure : Bool
  timestamp : Int

/-- The graph of the job and its configuration; the vertices are the instances of the roles and
their sub-masters (`unified/controller/schedule/graph.py`, `unified/common/config.py`). -/
structure PrimeJob (V R : Type) where
  roles : List R
  instances : R → List V
  subMaster : R → Option V
  role : V → R
  isDriver : R → Bool
  maxRestart : V → Nat
  perNodeMaxFailure : V → Nat
  nodeMaxRestart : Nat
  jobMaxRestart : Nat
  failoverTriggerStrategy : Int
  failoverExecStrategy : Int
  globalRole : R

/-- The runtime state of a vertex (`graph.py:51-61`). -/
structure VertexState (N : Type) where
  perNodeFailureCount : Nat := 0
  restartCount : Nat := 0
  restarting : Bool := false
  nodeInfo : Option N := none
  result : Option ExecutionResult := none
  isReady : Bool := false

/-- `RuntimeState` and the fields of the manager (`manager.py:62-118`). `task` is `_task`, `notify`
the value of `_notify_main_loop`. The last five fields are history: a stop was requested, the
restarts of actors by a job restart after that, the nodes relaunched, the job restarts carried out
and the restarts of each actor. -/
structure PrimeManager (V R N : Type) where
  stage : MasterStage := .init
  failoverStage : List R := []
  exitCode : Int := 0
  jobRestartCount : Nat := 0
  nodeRestartCount : Nat := 0
  removedNodes : List N := []
  vertex : V → VertexState N := fun _ ↦ {}
  notify : Nat := 1
  stoppedEvent : Bool := false
  task : Option Nat := none
  stopRequested : Bool := false
  lateRestarts : Nat := 0
  relaunchedNodes : List N := []
  jobRestarts : Nat := 0
  actorRestarts : V → Nat := fun _ ↦ 0

/-! ### Places in the coroutines -/

inductive MasterStartAt where
  | start
  | prepared
  | started

inductive PrepareAt where
  | start
  | created
  | setUp
  | checked

inductive SetupAt where
  | start
  | setUp
  | informed

inductive CheckAt where
  | start
  | checked

inductive StartAt where
  | start
  | started

/-- `failureHandled` comes after the failover of `failover_trigger_strategy` 2, `finishedHandled`
after that of a finished job. -/
inductive LoopAt where
  | test
  | acquiring
  | acquired
  | failureHandled
  | slept
  | finishedHandled
  | exit

inductive RestartActorsAt where
  | start
  | restarted
  | setUp

/-- `up` is `upgrade_to_global_failover`. -/
inductive FailoverAt where
  | start
  | relaunched (up : Bool)
  | setUp (up : Bool)
  | recovered (up : Bool)
  | ready (up : Bool)
  | handled (up : Bool)
  | restarted (up : Bool)

inductive RelaunchAt where
  | start
  | asked
  | waiting

/-- `relaunched` holds the node that was asked for. -/
inductive SingleAt (N : Type) where
  | start
  | relaunched (node : N)
  | grouped

inductive GroupAt where
  | start
  | done

/-- `awaited` holds the task that `await self._task` waits for. -/
inductive JobAt where
  | start
  | relaunched
  | awaited (t : Nat)
  | restarted
  | checked
  | started

inductive ProcessAt where
  | start
  | restarted

/-- A coroutine with its arguments and its place. `byJob` marks a call of `restart_actors` by
`restart_job`, `group` a call of `_relaunch_nodes` for a node group. -/
inductive PrimeFrame (V N : Type) where
  | masterStart (place : MasterStartAt)
  | prepare (place : PrepareAt)
  | setupActors (actors : List V) (place : SetupAt)
  | nodesCheck (place : CheckAt)
  | start (place : StartAt)
  | mainLoop (place : LoopAt)
  | restartActors (actors : List V) (byJob : Bool) (place : RestartActorsAt)
  | doFailover (actor : V) (place : FailoverAt)
  | relaunchNodes (nodes : List N) (group : Bool) (place : RelaunchAt)
  | relaunchSingle (actor : V) (place : SingleAt N)
  | relaunchGroup (nodes : List N) (place : GroupAt)
  | restartJob (withNodeRelaunch : Option V) (place : JobAt)
  | processFailover (place : ProcessAt)

/-- What the environment answers: whether a local call of Ray raises, the nodes that
`relaunch_nodes_impl` relaunched, the nodes of the cluster with their group label, the node infos of
the actors, and whether the sub-master handled the failover. -/
structure PrimeInput (N : Type) where
  fails : Bool := false
  relaunched : List N := []
  rayNodes : List (N × String) := []
  nodeInfos : List N := []
  handled : Bool := false

/-- The RPCs of the master. -/
inductive PrimeCall (V : Type) where
  | start
  | restart
  | restartActors (actors : List V)
  | stop
  | reportActorRestarted (actor : V)
  | reportExecutionResult (actor : V) (result : ExecutionResult)

section

variable {V R N : Type} [DecidableEq V] [DecidableEq R] [DecidableEq N]

/-- `graph.vertices` (`graph.py:284-292`). -/
def PrimeJob.vertices (job : PrimeJob V R) : List V :=
  job.roles.flatMap job.instances ++ job.roles.filterMap job.subMaster

namespace PrimeManager

/-! ### Functions without an await -/

def updateVertex (s : PrimeManager V R N) (v : V) (f : VertexState N → VertexState N) :
    PrimeManager V R N :=
  { s with vertex := fun v' ↦ if v' = v then f (s.vertex v) else s.vertex v' }

def updateVertices (s : PrimeManager V R N) (vs : List V) (f : VertexState N → VertexState N) :
    PrimeManager V R N :=
  vs.foldl (fun s v ↦ s.updateVertex v f) s

/-- `_do_stop` (`manager.py:577-583`). -/
def doStop (s : PrimeManager V R N) : PrimeManager V R N :=
  { s with stage := .stopped, stoppedEvent := true }

/-- `request_stop` (`manager.py:553-570`). -/
def requestStop (s : PrimeManager V R N) (code : Int) : PrimeManager V R N :=
  let s := { s with stopRequested := true }
  if s.stage = .stopping ∨ s.stage = .stopped then s
  else if s.stage = .running then
    { s with exitCode := code, stage := .stopping, notify := s.notify + 1 }
  else { s with exitCode := code }.doStop

/-- `_set_failover_stage` (`manager.py:662-665`). -/
def setFailoverStage (s : PrimeManager V R N) (role : R) : PrimeManager V R N :=
  if role ∈ s.failoverStage then s else { s with failoverStage := s.failoverStage ++ [role] }

/-- `_clear_failover_stage` (`manager.py:667-673`); `pop` raises for a missing key. -/
def clearFailoverStage (s : PrimeManager V R N) : Option R → Option (PrimeManager V R N)
  | none => some { s with failoverStage := [] }
  | some role =>
    if role ∈ s.failoverStage then
      some { s with failoverStage := s.failoverStage.filter fun r ↦ r ≠ role }
    else none

/-- `is_failover_stage` (`manager.py:675-685`). -/
def isFailoverStage (job : PrimeJob V R) (s : PrimeManager V R N) : Option R → Bool
  | none => s.failoverStage.length = 0
  | some role => job.globalRole ∈ s.failoverStage || role ∈ s.failoverStage

/-- `deal_with_actor_restarting` (`manager.py:292-335`): the new state and whether a failover task
is created. -/
def dealWithActorRestarting (job : PrimeJob V R) (s : PrimeManager V R N) (v : V) :
    PrimeManager V R N × Bool :=
  let s := s.updateVertex v fun x ↦ { x with isReady := false }
  if (s.vertex v).restarting then (s, false)
  else if s.stage ≠ .running ∨ s.isFailoverStage job (some (job.role v)) then (s, false)
  else match (s.vertex v).nodeInfo with
    | none => (s, false)
    | some node =>
      if node ∈ s.removedNodes then
        (s.updateVertex v fun x ↦ { x with perNodeFailureCount := 0 }, false)
      else
        (s.updateVertex v fun x ↦ { x with perNodeFailureCount := x.perNodeFailureCount + 1 }, true)

/-- `DLExecutionVertex.is_failure` (`graph.py:114-115`). -/
def isFailure (s : PrimeManager V R N) (v : V) : Bool :=
  (s.vertex v).result.any ExecutionResult.isFailure

/-- `_record_failure` for the global role (`manager.py:687-727`). The test of
`is_failure_responsibility` is never met, since it reads the method `is_success` and not its value
(`graph.py:117-136`): the first failed instance by its timestamp is counted. -/
def recordFailure (job : PrimeJob V R) (s : PrimeManager V R N) : PrimeManager V R N :=
  let failed := (job.roles.flatMap job.instances).filter s.isFailure
  let timestamp (v : V) : Int := (s.vertex v).result.elim 0 ExecutionResult.timestamp
  match failed.insertionSort fun a b ↦ timestamp a ≤ timestamp b with
  | [] => s
  | v :: _ =>
    s.updateVertex v fun x ↦ { x with perNodeFailureCount := x.perNodeFailureCount + 1 }

/-- `get_node_relaunch_demand_actor` (`graph.py:244-266`). -/
def nodeRelaunchDemandActor (job : PrimeJob V R) (s : PrimeManager V R N) (role : R) : Option V :=
  ((job.instances role).insertionSort fun a b ↦
    (s.vertex b).perNodeFailureCount ≤ (s.vertex a).perNodeFailureCount).find? fun v ↦
      (s.vertex v).perNodeFailureCount > job.perNodeMaxFailure v

/-- `_get_node_relaunch_demand` for the global role (`manager.py:729-747`). -/
def nodeRelaunchDemand (job : PrimeJob V R) (s : PrimeManager V R N) : Option V :=
  job.roles.findSome? (s.nodeRelaunchDemandActor job)

/-- `DLWorkloadRole.get_result` is there (`graph.py:232-237`). -/
def finished (job : PrimeJob V R) (s : PrimeManager V R N) (role : R) : Bool :=
  (job.instances role).all fun v ↦ (s.vertex v).result.isSome

/-- `DLWorkloadRole.has_any_failure` (`graph.py:239-242`). -/
def hasAnyFailure (job : PrimeJob V R) (s : PrimeManager V R N) (role : R) : Bool :=
  (job.instances role).any s.isFailure

/-- The counting loop of `restart_actors` (`manager.py:275-281`): whether it goes through. -/
def countRestarts (job : PrimeJob V R) : List V → PrimeManager V R N → PrimeManager V R N × Bool
  | [], s => (s, true)
  | v :: vs, s =>
    let s := s.updateVertex v fun x ↦ { x with restartCount := x.restartCount + 1 }
    if (s.vertex v).restartCount > job.maxRestart v then (s.requestStop 1, false)
    else countRestarts job vs s

/-- `removed_nodes.discard` for each of the nodes. -/
def discardNodes (s : PrimeManager V R N) (nodes : List N) : PrimeManager V R N :=
  { s with removedNodes := s.removedNodes.filter fun n ↦ n ∉ nodes }

end PrimeManager

/-- `get_node_group` (`unified/util/node_helper.py:79-109`). -/
def getNodeGroup (target : N) (rayNodes : List (N × String)) : List N :=
  let label := (rayNodes.find? fun n ↦ n.1 = target).elim "" Prod.snd
  if label = "" then [target] else (rayNodes.filter fun n ↦ n.2 = label).map Prod.fst

end

end ProbingBaselines.Dlrover
