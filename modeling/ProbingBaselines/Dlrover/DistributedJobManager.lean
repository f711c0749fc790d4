import ProbingBaselines.Dlrover.Node
import ProbingBaselines.Lib.Dict
import ProbingBaselines.Lib.Run

/-!
# The distributed job manager

`DistributedJobManager` with its job context and the managers of the node types: what it does with a
pod event, a list of pods, a failure report, an address update, a group that hangs, and a change of
the number of workers. Each of them is one step. A node that is changed in place and a node that is
changed and stored as a copy are both a new value in the dictionary. The names, times and hosts of
nodes, which no decision looks at, are left out.
-/

namespace ProbingBaselines.Dlrover.JobManager

open Lib

/-- A replacement that was launched for a node: the node as it was when the decision was made, the
node that was launched, and whether a failure report asked for it. -/
structure Replacement where
  source : Node
  new : Node
  reported : Bool

/-- The manager, the nodes being kept by type and id, the groups by group and rank. The last two
fields are history: all nodes that were put into the `remove_nodes` of a plan, and all replacements
of `_relaunch_node`, the newest first. -/
structure DistributedJobManager where
  types : List NodeType
  jobNodes : Dict (NodeType × Nat) Node
  jobNodeGroups : Dict (Int × Nat) Node
  maxGroupIdx : Int
  relaunchedGroups : List Int
  groupRelaunchCount : Nat
  nodeRankIter : Nat
  removeNodes : List Node
  replacements : List Replacement

/-- What the manager reads of its surroundings in one step: whether the pods listed for a deleted
event have a running one, the stage of the job and the settings. -/
structure Env where
  samePodRunning : Bool := false
  enableRelaunchNode : Bool := true
  stopping : Bool := false
  restarting : Bool := false
  relaunchAlways : Bool := false
  allReduce : Bool := true
  removeExitedNode : Bool := false
  adjustOomResource : Nat → Nat := id
  maxRelaunchNum : Nat := 3
  maxRelaunchCount : Nat := 3
  maxGroupRelaunchCount : Nat := 3

/-- `NodeResourceLimit.MAX_MEMORY`. -/
def maxMemory : Nat := 65536

namespace DistributedJobManager

variable (m : DistributedJobManager)

/-! ### The job context -/

/-- The node that is stored. -/
def node? (key : NodeType × Nat) : Option Node := m.jobNodes.get? key

/-- The nodes of a type, in the order of the dictionary. -/
def nodesOf (type : NodeType) : List Node := m.jobNodes.values.filter fun n ↦ n.type = type

/-- `_preprocess`. -/
def preprocess (type : NodeType) : NodeType :=
  if type = .chief ∧ .chief ∉ m.types then .master else type

/-- `update_job_node`. -/
def updateJobNode (n : Node) : DistributedJobManager :=
  { m with
    types := if n.type ∈ m.types then m.types else m.types ++ [n.type]
    jobNodes := m.jobNodes.insert n.key n }

/-- `update_job_node_by_group` of a node with a group. -/
def updateJobNodeByGroup (n : Node) (group : Int) : DistributedJobManager :=
  { m with jobNodeGroups := m.jobNodeGroups.insert (group, n.rankIndex) n }

/-- `_update_node`, and the same two calls of the job manager. -/
def updateNode (n : Node) : DistributedJobManager :=
  match n.group with
  | some group =>
    if n.hasGroup then (m.updateJobNode n).updateJobNodeByGroup n group else m.updateJobNode n
  | none => m.updateJobNode n

/-- `_init_nodes`: the nodes a job starts with (`dist_job_manager.py:474-500`). -/
def initNodes (types : List NodeType) (nodes : List Node) : DistributedJobManager :=
  nodes.foldl updateJobNode
    { types, jobNodes := .empty, jobNodeGroups := .empty, maxGroupIdx := 1000
      relaunchedGroups := [], groupRelaunchCount := 0, removeNodes := [], replacements := []
      nodeRankIter := (nodes.filter fun n ↦ n.type = .worker).length }

/-! ### Relaunching -/

/-- The type whose nodes the manager of a node counts: one manager has the chief and the master. -/
def managedType (type : NodeType) : NodeType :=
  if type = .master then m.preprocess .chief else m.preprocess type

/-- `get_next_node_id` of the manager of a type (`training_node.py:213-227`). -/
def nextNodeId (type : NodeType) : Nat :=
  ((m.nodesOf (m.managedType type)).map fun n ↦ n.id + 1).foldr max 0

/-- What `relaunch_node` of a manager leaves: the state, its argument, the node it launches and the
`remove_nodes` of its plan. -/
structure Relaunched where
  manager : DistributedJobManager
  node : Node
  launched : Node
  removeNodes : List Node

/-- `TrainingNodeManager.relaunch_node` (`training_node.py:252-268`). -/
def relaunchTrainingNode (node : Node) (removeExitedNode : Bool) : Relaunched :=
  let launched := node.generateRelaunchNode (m.nextNodeId node.type)
  let m := m.updateNode launched
  if removeExitedNode ∧ ¬ node.isReleased ∧ node.exited then
    let node := { node with isReleased := true }
    ⟨m.updateNode node, node, launched, [node]⟩
  else ⟨m, node, launched, []⟩

/-- `ParameterServerManager.relaunch_node` (`ps.py:87-105`), as far as it concerns the job context.
The node is released by then, so that it never gets into the plan. -/
def relaunchPs (node : Node) : Relaunched :=
  let node := { node with isReleased := true }
  let launched := node.generateRelaunchNode (m.nextNodeId node.type)
  ⟨m.updateNode launched, node, launched, []⟩

/-- `_relaunch_node` (`dist_job_manager.py:1090-1126`), `source` being the node when the decision
was made. -/
def relaunchNode (node source : Node) (removeExitedNode reported : Bool) : DistributedJobManager :=
  let r :=
    if node.type = .ps then m.relaunchPs node else m.relaunchTrainingNode node removeExitedNode
  let removed := r.removeNodes ++ if removeExitedNode then [r.node] else []
  let node := { r.node with relaunchable := false }
  let m := r.manager.updateNode node
  { m with
    removeNodes := m.removeNodes ++ removed
    replacements := ⟨source, r.launched, reported⟩ :: m.replacements }

end DistributedJobManager

/-- The decision of `_should_relaunch` (`dist_job_manager.py:996-1088`). -/
def shouldRelaunch (env : Env) (node : Node) (flow : NodeStateFlow) : Bool :=
  if ¬ (flow.shouldRelaunch ∧ env.enableRelaunchNode ∧ node.relaunchable) then false
  else if env.stopping then false
  else if env.restarting then false
  else if node.exitReason = .fatalError ∧ ¬ env.relaunchAlways then false
  else if node.exitReason = .relaunched then false
  else if node.exitReason = .oom then
    if env.allReduce then false
    else if maxMemory ≤ node.memory then false
    else if node.maxRelaunchCount ≤ node.relaunchCount then false
    else true
  else if node.exitReason ≠ .killed then
    if node.maxRelaunchCount ≤ node.relaunchCount then false else true
  else true

/-- What `_should_relaunch` does to a node that is to be relaunched. -/
def countRelaunch (env : Env) (node : Node) : Node :=
  let node :=
    if node.exitReason = .oom then
      { node with isRecoveredOom := true, memory := env.adjustOomResource node.memory }
    else node
  { node with relaunchCount := node.relaunchCount + 1 }

/-- `is_positive_exit`. -/
def isPositiveExit (reason : NodeExitReason) : Prop :=
  reason ∈ [NodeExitReason.diagFail, .noHeartbeat]

instance (reason : NodeExitReason) : Decidable (isPositiveExit reason) :=
  inferInstanceAs (Decidable (_ ∈ _))

/-- The first lines of `_process_event`: the event is skipped if the pods of the node that are
listed have a running one. -/
def NodeEvent.skipped (env : Env) (e : NodeEvent) : Prop :=
  (e.eventType = .deleted ∨ e.node.status = .deleted) ∧ ¬ isPositiveExit e.node.exitReason ∧
    env.samePodRunning

instance (env : Env) (e : NodeEvent) : Decidable (e.skipped env) :=
  inferInstanceAs (Decidable (_ ∧ _))

namespace DistributedJobManager

variable (m : DistributedJobManager)

/-- The rest of `_process_event` once the flow is found (`dist_job_manager.py:877-926`). The
callbacks and the last branch, which may stop the job, do not touch nodes that are stored. -/
def followFlow (env : Env) (e : NodeEvent) (flow : NodeStateFlow) (node : Node) :
    DistributedJobManager :=
  if flow.fromStatus = .succeeded then m
  else
    -- the phase of the event is stored, and `flow.to_status` only logged
    let node := { node with status := e.node.status, exitReason := e.node.exitReason }
    let m := m.updateNode node
    if shouldRelaunch env node flow then
      m.relaunchNode (countRelaunch env node) node env.removeExitedNode false
    else m

/-- `_process_event` (`dist_job_manager.py:790-926`), an exception being caught by its caller. -/
def processEvent (env : Env) (e : NodeEvent) : DistributedJobManager :=
  if e.skipped env then m
  else
    match m.node? e.node.key with
    | none => m
    | some node =>
      let node := node.updateInfo e.node
      let m := m.updateNode node
      -- the process ends with `close_job`
      if e.eventType = .exit then m
      else
        match getNodeStateFlow node.status e.eventType e.node.status with
        | some (some flow) => m.followFlow env e flow node
        | _ => m

/-! ### Events the manager makes itself -/

/-- What `_get_dead_node_event` finds for a node that lost its heartbeat, and its processing
(`dist_job_manager.py:532-609`). -/
def noHeartbeat (env : Env) (key : NodeType × Nat) : DistributedJobManager :=
  match m.node? key with
  | none => m
  | some node =>
    if node.status = .running then
      m.processEvent env ⟨.deleted, { node with status := .failed, exitReason := .noHeartbeat }⟩
    else m

/-- `_process_node_action` (`dist_job_manager.py:757-780`). -/
def processNodeAction (env : Env) (type : NodeType) (id : Nat) : DistributedJobManager :=
  match m.node? (m.preprocess type, id) with
  | none => m
  | some node =>
    m.processEvent env ⟨.deleted, { node with status := .failed, exitReason := .diagFail }⟩

/-- The level of a training exception. -/
inductive TrainingExceptionLevel where
  | processError | nodeError | rdzvError | warning | error | other

/-- `process_error`: whether to relaunch the node. -/
def processError : TrainingExceptionLevel → Bool
  | .nodeError => true
  | _ => false

/-- `handle_training_failure` (`dist_job_manager.py:1434-1456`). A node that is not there raises. -/
def handleTrainingFailure (env : Env) (type : NodeType) (id : Nat)
    (errorData : Option NodeExitReason) (level : TrainingExceptionLevel) : DistributedJobManager :=
  match m.node? (m.preprocess type, id) with
  | none => m
  | some node =>
    let node := { node with exitReason := errorData.getD node.exitReason }
    -- the node that is stored is changed in place
    let m := m.updateJobNode node
    if node.isReleased then m
    else if processError level ∧ node.relaunchable then
      m.relaunchNode node node env.removeExitedNode true
    else m

/-- `update_node_service_addr` (`dist_job_manager.py:1330-1338`). -/
def updateNodeServiceAddr (type : NodeType) (id : Nat) : DistributedJobManager :=
  match m.node? (m.preprocess type, id) with
  | none => m
  | some node => m.updateJobNode { node with status := .running, isReleased := false }

/-- One node of `remove_training_nodes`. -/
def removeTrainingNode (n : Node) : DistributedJobManager :=
  if n.status ∈ [NodeStatus.running, .pending] ∧ ¬ n.isReleased then
    let n :=
      { n with critical := false, relaunchable := false, isReleased := true, status := .deleted }
    { m.updateJobNode n with removeNodes := m.removeNodes ++ [n] }
  else m

/-- `remove_training_nodes` (`dist_job_manager.py:1357-1377`), which raises in a job without the
types. -/
def removeTrainingNodes : DistributedJobManager :=
  if .worker ∈ m.types ∧ .ps ∈ m.types then
    (m.nodesOf .worker ++ m.nodesOf .ps).foldl removeTrainingNode m
  else m

/-! ### Lists of pods -/

/-- What `_process_list_nodes` does with one pod of the list (`dist_job_manager.py:644-678`). -/
def processListNode (env : Env) (pod : Node) : DistributedJobManager :=
  let m :=
    if pod.key ∉ m.jobNodes ∧ pod.status ≠ .deleted then m.updateNode pod else m
  let m :=
    match m.node? pod.key with
    | some node =>
      if pod.type = NodeType.worker ∧ node.group ≠ pod.group then
        m.updateJobNode { node with group := pod.group, groupSize := pod.groupSize }
      else m
    | none => m
  m.processEvent env
    { eventType := if pod.status = .deleted then .deleted else .modified, node := pod }

/-- The events `_process_list_nodes` makes for a node that is not on the list
(`dist_job_manager.py:680-719`). -/
def lostEvents (pods : List Node) (node : Node) : List NodeEvent :=
  let exist := pods.filter fun pod ↦ pod.type = node.type
  if node.isReleased ∨ node.id ∈ exist.map Node.id then []
  else if node.status ≠ .initial then
    [⟨.deleted, { node with isReleased := true, status := .deleted }⟩]
  else
    (exist.filter fun pod ↦ node.rankIndex = pod.rankIndex ∧ node.id < pod.id).map fun _ ↦
      ⟨.deleted, { node with isReleased := true, status := .deleted, exitReason := .relaunched }⟩

/-- `_process_list_nodes`, each event with surroundings of its own. A pod of a type that the job
does not have raises and ends it. -/
def processListNodes (env : Nat → Env) (pods : List Node) : DistributedJobManager :=
  let known := pods.takeWhile fun pod ↦ pod.type ∈ m.types
  let m := known.zipIdx.foldl (fun m pod ↦ m.processListNode (env pod.2) pod.1) m
  if known.length < pods.length then m
  else
    let events := m.types.flatMap fun type ↦ (m.nodesOf type).flatMap (lostEvents pods)
    events.zipIdx.foldl (fun m e ↦ m.processEvent (env (pods.length + e.2)) e.1) m

/-! ### Workers -/

/-- `remove_node` of the worker manager (`training_node.py:237-250`). -/
def removeNode (id : Nat) : DistributedJobManager :=
  match m.node? (.worker, id) with
  | none => m
  | some worker =>
    if worker.status ∈ [NodeStatus.deleted, .initial] then m
    else
      let worker := { worker with isReleased := true }
      { m.updateNode worker with removeNodes := m.removeNodes ++ [worker] }

/-- One round of `_scale_up_workers` (`worker.py:161-178`). -/
def scaleUpWorker (env : Env) (memory : Nat) : DistributedJobManager :=
  { m.updateNode
      { type := .worker, id := m.nextNodeId .worker, rankIndex := m.nodeRankIter, memory,
        maxRelaunchCount := env.maxRelaunchNum } with
    nodeRankIter := m.nodeRankIter + 1 }

/-- `_scale_up_workers`. -/
def scaleUpWorkers (m : DistributedJobManager) (env : Env) (memory : Nat) :
    Nat → DistributedJobManager
  | 0 => m
  | up + 1 => (m.scaleUpWorkers env memory up).scaleUpWorker env memory

/-- `_scale_down_workers` (`worker.py:180-191`), the workers being those alive, the last first. -/
def scaleDownWorkers (m : DistributedJobManager) : Nat → List Node → DistributedJobManager
  | _, [] => m
  | 0, _ => m
  | down + 1, worker :: rest =>
    if worker.critical then m.scaleDownWorkers (down + 1) rest
    else
      let worker := { worker with relaunchable := false, isReleased := true }
      { m.updateJobNode worker with removeNodes := m.removeNodes ++ [worker] }.scaleDownWorkers
        down rest

/-- The workers `adjust_worker` counts. -/
def aliveWorkers : List Node := (m.nodesOf .worker).filter fun n ↦ n.alive

/-- `adjust_worker` (`worker.py:133-157`). -/
def adjustWorker (env : Env) (memory num : Nat) : DistributedJobManager :=
  let alive := m.aliveWorkers
  if alive.length < num then m.scaleUpWorkers env memory (num - alive.length)
  else if num < alive.length then m.scaleDownWorkers (alive.length - num) alive.reverse
  else m

/-- `migrate_workers` for one worker (`worker.py:240-265`). One that is not there raises. -/
def migrateWorker (env : Env) (id memory : Nat) : DistributedJobManager :=
  match m.node? (.worker, id) with
  | none => m
  | some old =>
    if old.critical then m
    else
      let old := { old with migrated := true, relaunchable := false, isReleased := true }
      let m := { m.updateJobNode old with removeNodes := m.removeNodes ++ [old] }
      m.updateNode
        { type := .worker, id := m.nextNodeId .worker, rankIndex := old.rankIndex, memory,
          maxRelaunchCount := env.maxRelaunchCount }

/-- `migrate_workers`: what comes after a worker that is not there is not done. -/
def migrateWorkers (m : DistributedJobManager) (env : Env) :
    List (Nat × Nat) → DistributedJobManager
  | [] => m
  | worker :: rest =>
    if (m.node? (.worker, worker.1)).isSome then
      (m.migrateWorker env worker.1 worker.2).migrateWorkers env rest
    else m

/-! ### Groups -/

/-- `job_node_group(group).values()`. -/
def jobNodeGroup (group : Int) : List Node :=
  (m.jobNodeGroups.items.filter fun e ↦ e.1.1 = group).map Prod.snd

/-- `_should_relaunch_node_group` (`dist_job_manager.py:957-994`). -/
def shouldRelaunchNodeGroup (env : Env) (group : Int) : Bool :=
  if group ∈ m.relaunchedGroups then false
  else if env.maxGroupRelaunchCount < m.groupRelaunchCount then false
  else env.enableRelaunchNode && (m.jobNodeGroup group).all Node.relaunchable && !env.stopping

/-- `_relaunch_node_group` (`dist_job_manager.py:1128-1175`). -/
def relaunchNodeGroup (group : Int) : DistributedJobManager :=
  let groupIdx := m.maxGroupIdx + 1
  let groupNodes := m.jobNodeGroup group
  let launch := (groupNodes.filter fun n ↦ n.type = .worker).map fun n ↦
    { n with group := some groupIdx }
  let m := { m with maxGroupIdx := groupIdx }
  let m := launch.foldl
    (fun m n ↦
      let r := m.relaunchTrainingNode n true
      { r.manager with removeNodes := r.manager.removeNodes ++ r.removeNodes }) m
  let m := groupNodes.foldl
    (fun m n ↦
      { m.updateNode { n with relaunchable := false } with removeNodes := m.removeNodes ++ [n] }) m
  { m with
    relaunchedGroups := m.relaunchedGroups ++ [group]
    groupRelaunchCount := m.groupRelaunchCount + 1 }

/-- `handle_node_group_pending` for one of the pending groups. -/
def handleNodeGroupPending (env : Env) (group : Int) : DistributedJobManager :=
  if m.shouldRelaunchNodeGroup env group then m.relaunchNodeGroup group else m

/-! ### Steps -/

/-- What the manager is asked to do. -/
inductive Action where
  | event (env : Env) (e : NodeEvent)
  | listNodes (env : Nat → Env) (pods : List Node)
  | noHeartbeat (env : Env) (key : NodeType × Nat)
  | nodeAction (env : Env) (type : NodeType) (id : Nat)
  | trainingFailure (env : Env) (type : NodeType) (id : Nat) (errorData : Option NodeExitReason)
      (level : TrainingExceptionLevel)
  | serviceAddr (type : NodeType) (id : Nat)
  | removeTrainingNodes
  | adjustWorker (env : Env) (memory num : Nat)
  | migrateWorkers (env : Env) (workers : List (Nat × Nat))
  | removeNode (id : Nat)
  | groupPending (env : Env) (group : Int)

def step : Action → Option DistributedJobManager
  | .event env e => some (m.processEvent env e)
  | .listNodes env pods => some (m.processListNodes env pods)
  | .noHeartbeat env key => some (m.noHeartbeat env key)
  | .nodeAction env type id => some (m.processNodeAction env type id)
  | .trainingFailure env type id errorData level =>
    some (m.handleTrainingFailure env type id errorData level)
  | .serviceAddr type id => some (m.updateNodeServiceAddr type id)
  | .removeTrainingNodes => some m.removeTrainingNodes
  | .adjustWorker env memory num => some (m.adjustWorker env memory num)
  | .migrateWorkers env workers => some (m.migrateWorkers env workers)
  | .removeNode id => some (m.removeNode id)
  | .groupPending env group => some (m.handleNodeGroupPending env group)

end DistributedJobManager

end ProbingBaselines.Dlrover.JobManager
