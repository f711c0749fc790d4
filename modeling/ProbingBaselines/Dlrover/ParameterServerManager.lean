import ProbingBaselines.Dlrover.DistributedJobManager
import ProbingBaselines.Lib.ObjectTable
import Mathlib.Data.List.Sort

/-!
# The parameter servers

`ParameterServerManager` with the parameter servers of the job context, and what the job manager
does with their pod events, reports and resource usage. The manager keeps references to nodes across
its calls, while `update_job_node` stores a deep copy, so that nodes are objects here. A node that
is made and stored at once is one object, since nobody keeps the one that was copied.
-/

namespace ProbingBaselines.Dlrover.JobManager

open Lib

/-- The manager, lists of nodes being lists of references. The last five fields are history: the
number of servers that was last asked for, the ids of the servers that were asked for and neither
dropped nor replaced, those that `_scale_down_ps` chose, those with a migrated server that was
running when a cluster was formed, and the `remove_nodes` of the plans of
`process_after_ps_cluster_ready`, the newest first. -/
structure ParameterServerManager where
  nodes : ObjectTable Nat Node
  preDroppedPs : List Nat
  migratedPsNodes : Dict Nat Nat
  nextTrainingPsCluster : List Nat
  trainingPsCluster : List Nat
  psClusterChanged : Bool
  count : Nat
  requested : List Nat
  chosen : List Nat
  replaced : List Nat
  removeNodes : List (List Nat)

namespace ParameterServerManager

variable (m : ParameterServerManager)

/-! ### Nodes -/

def node (r : Nat) : Node := m.nodes.object r

/-- A node is changed in place. -/
def setNode (r : Nat) (n : Node) : ParameterServerManager := { m with nodes := m.nodes.set r n }

/-- `_update_node` and `update_job_node`, of a parameter server. -/
def updateNode (r : Nat) : ParameterServerManager :=
  { m with nodes := m.nodes.store (m.node r).id r }

/-- `_update_node` of a node that was just made. -/
def addNode (n : Node) : ParameterServerManager := { m with nodes := m.nodes.add n.id n }

/-- `get_next_node_id`. -/
def nextNodeId : Nat := (m.nodes.table.keys.map fun id ↦ id + 1).foldr max 0

/-- `_get_alive_ps` (`ps.py:191-198`). -/
def alivePs : List Nat :=
  m.nodes.table.values.filter fun r ↦
    (m.node r).status = .running ∧ (m.node r).isReleased = false

/-- A job with as many parameter servers, as `init_job_node_meta` makes them (`job.py:115-147`). The
manager is made before the nodes are stored, so that it has no cluster yet. -/
def init (maxRelaunchCount count : Nat) : ParameterServerManager where
  nodes :=
    (List.range count).foldl
      (fun t id ↦ t.add id { type := .ps, id, rankIndex := id, maxRelaunchCount })
      { object := fun _ ↦ { type := .ps, id := 0, rankIndex := 0, maxRelaunchCount }
        next := 0
        table := .empty }
  preDroppedPs := []
  migratedPsNodes := .empty
  nextTrainingPsCluster := []
  trainingPsCluster := []
  psClusterChanged := true
  count := count
  requested := List.range count
  chosen := []
  replaced := []
  removeNodes := []

/-! ### The training cluster -/

/-- `_init_training_ps_cluster` (`ps.py:70-85`). -/
def initTrainingPsCluster : ParameterServerManager :=
  let servers := m.nodes.table.values.filter fun r ↦
    (m.node r).id ∉ m.migratedPsNodes ∧ (m.node r).isReleased = false ∧ (m.node r).alive
  { m with
    trainingPsCluster := m.trainingPsCluster ++ servers
    nextTrainingPsCluster := m.nextTrainingPsCluster ++ servers }

/-- What `get_training_ps_cluster` does to the manager (`ps.py:272-281`). -/
def loadTrainingPsCluster : ParameterServerManager :=
  if m.trainingPsCluster = [] then m.initTrainingPsCluster else m

/-- What `get_training_ps_cluster` returns. -/
def getTrainingPsCluster : List Nat :=
  m.loadTrainingPsCluster.trainingPsCluster.filter fun r ↦
    (m.node r).isReleased = false ∧ (m.node r).status ≠ .failed

/-- The rest of `relaunch_node` (`ps.py:87-105`) for an object that is released by then. -/
def launchFor (r : Nat) (node : Node) : ParameterServerManager :=
  let id := m.nextNodeId
  { m.addNode (node.generateRelaunchNode id) with
    trainingPsCluster := m.trainingPsCluster.replace r m.nodes.next
    psClusterChanged := true
    requested := id :: m.requested.filter fun id ↦ id ≠ node.id }

/-- `_relaunch_node` (`dist_job_manager.py:1090-1126`), as far as it concerns the nodes. -/
def relaunchNode (r : Nat) : ParameterServerManager :=
  let node := { m.node r with isReleased := true }
  let m := (m.setNode r node).launchFor r node
  (m.setNode r { node with relaunchable := false }).updateNode r

/-! ### Scaling -/

/-- One round of `_scale_up_ps` (`ps.py:131-150`). -/
def scaleUpServer (env : Env) (memory rank : Nat) : ParameterServerManager :=
  let id := m.nextNodeId
  { m.addNode
      { type := .ps, id, rankIndex := rank, critical := true
        maxRelaunchCount := env.maxRelaunchNum, memory } with
    requested := id :: m.requested }

/-- `_scale_up_ps`, `first` being the number of alive servers. -/
def scaleUpPs (m : ParameterServerManager) (env : Env) (memory first : Nat) :
    Nat → ParameterServerManager
  | 0 => m
  | up + 1 => (m.scaleUpPs env memory first up).scaleUpServer env memory (first + up)

/-- The servers that `_scale_down_ps` drops, the last first. -/
def droppedPs (down : Nat) : List Nat := m.alivePs.reverse.take down

/-- `_scale_down_ps` (`ps.py:153-168`). -/
def scaleDownPs (down : Nat) : ParameterServerManager :=
  let ids := (m.droppedPs down).map fun r ↦ (m.node r).id
  { m with
    preDroppedPs := m.droppedPs down
    psClusterChanged := true
    requested := m.requested.filter fun id ↦ id ∉ ids
    chosen := ids ++ m.chosen }

/-- `adjust_ps` (`ps.py:107-122`). -/
def adjustPs (env : Env) (memory count : Nat) : ParameterServerManager :=
  let alive := m.getTrainingPsCluster.length
  let m := { m.loadTrainingPsCluster with count }
  if alive < count then
    { m with psClusterChanged := true }.scaleUpPs env memory alive (count - alive)
  else if count < alive then m.scaleDownPs (alive - count)
  else m

/-- `_migrate_parameter_server` (`ps.py:335-372`). -/
def migrateParameterServer (env : Env) (oldId memory : Nat) : ParameterServerManager :=
  if oldId ∈ m.migratedPsNodes then m
  else
    match m.nodes.find? oldId with
    | none => m
    | some original =>
      let id := m.nextNodeId
      let stored := m.nodes.next
      { m.addNode
          { type := .ps, id, rankIndex := original.rankIndex, critical := true
            maxRelaunchCount := env.maxRelaunchNum, memory } with
        psClusterChanged := true
        migratedPsNodes := m.migratedPsNodes.insert oldId stored
        requested := id :: m.requested.filter fun id ↦ id ≠ oldId }

/-- `migrate_parameter_servers`, each server with its new memory. -/
def migrateParameterServers (env : Env) (servers : List (Nat × Nat)) : ParameterServerManager :=
  servers.foldl (fun m server ↦ m.migrateParameterServer env server.1 server.2) m

/-! ### A new cluster -/

/-- `_wait_ps_node`, `waited` being the servers that were made long enough ago. -/
def waitPsNode (waited : Nat → Bool) (n : Node) : Prop :=
  n.isReleased = false ∧ ¬ (waited n.id ∧ n.status = .initial) ∧
    n.status ∈ [NodeStatus.initial, .pending]

instance (waited : Nat → Bool) (n : Node) : Decidable (waitPsNode waited n) :=
  inferInstanceAs (Decidable (_ ∧ _))

/-- One round of the second loop of `_pre_drop_migrated_ps`. -/
def preDropServer (r : Nat) : ParameterServerManager :=
  if (m.node r).id ∈ m.migratedPsNodes ∧ (m.node r).status = .running ∧ r ∉ m.preDroppedPs then
    let m := (m.setNode r { m.node r with migrated := true }).updateNode r
    { m with preDroppedPs := m.preDroppedPs ++ [r] }
  else m

/-- `_pre_drop_migrated_ps` (`ps.py:249-264`). -/
def preDropMigratedPs (alive : List Nat) : ParameterServerManager :=
  if ∃ r ∈ m.migratedPsNodes.values, (m.node r).status ≠ .running then m
  else alive.foldl preDropServer m

/-- `_get_all_non_migrated_ps` (`ps.py:237-247`): a server for each rank, in the order of the
ranks. -/
def nonMigratedPs : List Nat :=
  let m' := m.preDropMigratedPs m.alivePs
  let servers := (m.alivePs.filter fun r ↦ r ∉ m'.preDroppedPs).map fun r ↦
    ((m'.node r).rankIndex, r)
  ((Dict.ofItems servers).items.insertionSort fun a b ↦ a.1 ≤ b.1).map Prod.snd

/-- The servers whose migrated server is running in the job context. -/
def replacedPs : List Nat :=
  (m.migratedPsNodes.items.filter fun e ↦
    (m.nodes.find? (m.node e.2).id).any fun n ↦ n.status = .running).map Prod.fst

/-- Whether `get_next_training_ps_cluster` forms a new cluster. -/
def forms (waited : Nat → Bool) : Prop :=
  m.psClusterChanged = true ∧ ∀ r ∈ m.nodes.table.values, ¬ waitPsNode waited (m.node r)

instance (waited : Nat → Bool) : Decidable (m.forms waited) := inferInstanceAs (Decidable (_ ∧ _))

/-- `get_next_training_ps_cluster` (`ps.py:200-216`). -/
def getNextTrainingPsCluster (waited : Nat → Bool) : ParameterServerManager :=
  if m.forms waited then
    { m.preDropMigratedPs m.alivePs with
      nextTrainingPsCluster := m.nonMigratedPs
      replaced := m.replacedPs ++ m.replaced }
  else m

/-- One round of the loop of `process_after_ps_cluster_ready`. -/
def removeServer (r : Nat) : ParameterServerManager :=
  let m :=
    (m.setNode r
      { m.node r with critical := false, relaunchable := false, isReleased := true }).updateNode r
  { m with migratedPsNodes := m.migratedPsNodes.erase (m.node r).id }

/-- `process_after_ps_cluster_ready` (`ps.py:171-189`). -/
def processAfterPsClusterReady : ParameterServerManager :=
  let m :=
    { m with
      psClusterChanged := false
      trainingPsCluster := m.nextTrainingPsCluster
      removeNodes := (m.preDroppedPs.reverse.map fun r ↦ (m.node r).id) :: m.removeNodes }
  { m.preDroppedPs.reverse.foldl removeServer m with preDroppedPs := [] }

/-! ### The job manager -/

/-- The rest of `_process_event` once the flow is found (`dist_job_manager.py:877-926`). -/
def followFlow (env : Env) (e : NodeEvent) (flow : NodeStateFlow) (r : Nat) :
    ParameterServerManager :=
  if flow.fromStatus = .succeeded then m
  else
    let m :=
      (m.setNode r
        { m.node r with status := e.node.status, exitReason := e.node.exitReason }).updateNode r
    if shouldRelaunch env (m.node r) flow then
      (m.setNode r (countRelaunch env (m.node r))).relaunchNode r
    else m

/-- `_process_event` of a parameter server (`dist_job_manager.py:790-926`). `cur_node` is the object
that was stored before, also after its first copy is. -/
def processEvent (env : Env) (e : NodeEvent) : ParameterServerManager :=
  if e.skipped env then m
  else
    match m.nodes.ref? e.node.id with
    | none => m
    | some r =>
      let m := (m.setNode r ((m.node r).updateInfo e.node)).updateNode r
      if e.eventType = .exit then m
      else
        match getNodeStateFlow (m.node r).status e.eventType e.node.status with
        | some (some flow) => m.followFlow env e flow r
        | _ => m

/-- `update_node_resource_usage` of a server whose request for cpus is known
(`dist_job_manager.py:1299-1328`). The usage itself is left out. -/
def updateNodeResourceUsage (id : Nat) : ParameterServerManager :=
  match m.nodes.ref? id with
  | none => m
  | some r => m.updateNode r

/-- `_relaunch_node` of the node that is stored, as for a failure report. -/
def relaunchStored (id : Nat) : ParameterServerManager :=
  match m.nodes.ref? id with
  | none => m
  | some r => m.relaunchNode r

/-! ### Steps -/

/-- What the manager of the parameter servers is asked to do. -/
inductive Action where
  | adjustPs (env : Env) (memory count : Nat)
  | migrateParameterServers (env : Env) (servers : List (Nat × Nat))
  | relaunchNode (id : Nat)
  | event (env : Env) (e : NodeEvent)
  | resourceUsage (id : Nat)
  | getTrainingPsCluster
  | getNextTrainingPsCluster (waited : Nat → Bool)
  | processAfterPsClusterReady

def step : Action → Option ParameterServerManager
  | .adjustPs env memory count => some (m.adjustPs env memory count)
  | .migrateParameterServers env servers => some (m.migrateParameterServers env servers)
  | .relaunchNode id => some (m.relaunchStored id)
  | .event env e => some (m.processEvent env e)
  | .resourceUsage id => some (m.updateNodeResourceUsage id)
  | .getTrainingPsCluster => some m.loadTrainingPsCluster
  | .getNextTrainingPsCluster waited => some (m.getNextTrainingPsCluster waited)
  | .processAfterPsClusterReady => some m.processAfterPsClusterReady

end ParameterServerManager

end ProbingBaselines.Dlrover.JobManager
