import ProbingBaselines.Dlrover.DistributedJobManager

/-!
# What a step does to the nodes

The nodes that are stored after each update, and the cases of an event. New ids are fresh as long as
a job does not have both a chief and a master, which one manager counts together.
-/

namespace ProbingBaselines.Dlrover.JobManager

open Lib

namespace DistributedJobManager

variable {m : DistributedJobManager} {n node : Node} {k : NodeType × Nat}

/-! ### Updates of the job context -/

theorem node?_updateJobNode :
    (m.updateJobNode n).node? k = if k = n.key then some n else m.node? k := Dict.get?_insert

theorem jobNodes_updateNode (m : DistributedJobManager) (n : Node) :
    (m.updateNode n).jobNodes = (m.updateJobNode n).jobNodes ∧
      (m.updateNode n).types = (m.updateJobNode n).types ∧
      (m.updateNode n).replacements = m.replacements ∧
      (m.updateNode n).removeNodes = m.removeNodes ∧
      (m.updateNode n).nodeRankIter = m.nodeRankIter := by
  unfold updateNode
  split
  · split <;> exact ⟨rfl, rfl, rfl, rfl, rfl⟩
  · exact ⟨rfl, rfl, rfl, rfl, rfl⟩

theorem node?_updateNode :
    (m.updateNode n).node? k = if k = n.key then some n else m.node? k := by
  rw [← node?_updateJobNode, node?, node?, (jobNodes_updateNode m n).1]

/-- A node that is stored is the one that was just stored or was there before. -/
theorem node?_updateNode_cases {n' : Node} (found : (m.updateNode n).node? k = some n') :
    k = n.key ∧ n' = n ∨ m.node? k = some n' := by
  rw [node?_updateNode] at found
  split at found
  · next eq =>
    cases found
    exact .inl ⟨eq, rfl⟩
  · exact .inr found

@[simp] theorem replacements_updateNode : (m.updateNode n).replacements = m.replacements :=
  (jobNodes_updateNode m n).2.2.1

@[simp] theorem removeNodes_updateNode : (m.updateNode n).removeNodes = m.removeNodes :=
  (jobNodes_updateNode m n).2.2.2.1

@[simp] theorem nodeRankIter_updateNode : (m.updateNode n).nodeRankIter = m.nodeRankIter :=
  (jobNodes_updateNode m n).2.2.2.2

theorem types_updateNode (known : n.type ∈ m.types) : (m.updateNode n).types = m.types :=
  (jobNodes_updateNode m n).2.1.trans (if_pos known)

theorem mem_nodesOf {type : NodeType} :
    n ∈ m.nodesOf type ↔ ∃ k, m.node? k = some n ∧ n.type = type := by
  unfold nodesOf node? Dict.values
  rw [List.mem_filter, List.mem_map]
  constructor
  · rintro ⟨⟨e, mem, rfl⟩, eq⟩
    exact ⟨e.1, Dict.get?_eq_some_iff.mpr mem, of_decide_eq_true eq⟩
  · rintro ⟨k, found, eq⟩
    exact ⟨⟨(k, n), Dict.get?_eq_some_iff.mp found, rfl⟩, decide_eq_true eq⟩

/-! ### New ids -/

/-- Each node is kept under its own key, the job has its type, and there is a chief or a master but
not both. -/
structure WellFormed (m : DistributedJobManager) : Prop where
  keyed : ∀ {k n}, m.node? k = some n → n.key = k
  typed : ∀ {k n}, m.node? k = some n → n.type ∈ m.types
  oneChief : .chief ∈ m.types → .master ∉ m.types

theorem WellFormed.updateNode (wf : m.WellFormed) (known : n.type ∈ m.types) :
    (m.updateNode n).WellFormed where
  keyed {k n'} found := by
    rcases node?_updateNode_cases found with ⟨rfl, rfl⟩ | found
    · rfl
    · exact wf.keyed found
  typed {k n'} found := by
    rw [types_updateNode known]
    rcases node?_updateNode_cases found with ⟨-, rfl⟩ | found
    · exact known
    · exact wf.typed found
  oneChief := by
    rw [types_updateNode known]
    exact wf.oneChief

/-- Only the nodes and the types matter. -/
theorem WellFormed.congr {m' : DistributedJobManager} (wf : m.WellFormed)
    (nodes : m'.jobNodes = m.jobNodes) (types : m'.types = m.types) : m'.WellFormed where
  keyed found := wf.keyed (by rwa [node?, nodes] at found)
  typed found := by
    rw [types]
    exact wf.typed (by rwa [node?, nodes] at found)
  oneChief := by
    rw [types]
    exact wf.oneChief

theorem WellFormed.updateJobNode (wf : m.WellFormed) (known : n.type ∈ m.types) :
    (m.updateJobNode n).WellFormed :=
  (wf.updateNode known).congr (jobNodes_updateNode m n).1.symm (jobNodes_updateNode m n).2.1.symm

theorem initNodes_wellFormed {types : List NodeType} {nodes : List Node}
    (known : ∀ n ∈ nodes, n.type ∈ types) (oneChief : .chief ∈ types → .master ∉ types) :
    (initNodes types nodes).WellFormed := by
  have fold : ∀ (nodes : List Node) (m : DistributedJobManager), (∀ n ∈ nodes, n.type ∈ m.types) →
      m.WellFormed → (nodes.foldl DistributedJobManager.updateJobNode m).WellFormed := by
    intro nodes
    induction nodes with
    | nil => exact fun _ _ wf ↦ wf
    | cons n nodes ih =>
      intro m known wf
      have here := known n List.mem_cons_self
      refine ih _ (fun n' mem ↦ ?_) (wf.updateJobNode here)
      rw [← (jobNodes_updateNode m n).2.1, types_updateNode here]
      exact known n' (List.mem_cons_of_mem _ mem)
  apply fold nodes _ known
  constructor
  · intro k n found
    cases found
  · intro k n found
    cases found
  · exact oneChief

theorem WellFormed.managedType (wf : m.WellFormed) {type : NodeType} (known : type ∈ m.types) :
    m.managedType type = type := by
  unfold DistributedJobManager.managedType preprocess
  split
  · next eq =>
    rw [if_pos ⟨rfl, fun chief ↦ wf.oneChief chief (eq ▸ known)⟩]
    exact eq.symm
  · apply if_neg
    rintro ⟨rfl, absent⟩
    exact absent known

theorem le_foldr_max {a : Nat} {l : List Nat} (mem : a ∈ l) : a ≤ l.foldr max 0 := by
  induction l with
  | nil => exact absurd mem List.not_mem_nil
  | cons b l ih =>
    rw [List.foldr_cons]
    rcases List.mem_cons.mp mem with rfl | mem
    · exact Nat.le_max_left _ _
    · exact Nat.le_trans (ih mem) (Nat.le_max_right _ _)

/-- A new id is larger than those of all nodes of the type. -/
theorem WellFormed.id_lt_nextNodeId (wf : m.WellFormed) (found : m.node? k = some n) :
    n.id < m.nextNodeId n.type := by
  unfold nextNodeId
  rw [wf.managedType (wf.typed found)]
  exact le_foldr_max (List.mem_map.mpr ⟨n, mem_nodesOf.mpr ⟨k, found, rfl⟩, rfl⟩)

theorem WellFormed.nextNodeId_fresh (wf : m.WellFormed) (type : NodeType) :
    m.node? (type, m.nextNodeId type) = none := by
  cases found : m.node? (type, m.nextNodeId type) with
  | none => rfl
  | some n =>
    have key := wf.keyed found
    have lt := wf.id_lt_nextNodeId found
    rw [show n.type = type from congrArg Prod.fst key,
      show n.id = m.nextNodeId type from congrArg Prod.snd key] at lt
    exact absurd lt (Nat.lt_irrefl _)

/-! ### Relaunching a node -/

/-- The node that is launched for `node`. -/
def launchedNode (m : DistributedJobManager) (node : Node) : Node :=
  node.generateRelaunchNode (m.nextNodeId node.type)

/-- What becomes of `node` itself. -/
def replacedNode (node : Node) (removeExitedNode : Bool) : Node :=
  { node with
    relaunchable := false
    isReleased := node.isReleased || node.type = .ps || (removeExitedNode && node.exited) }

/-- What the manager of the node does: the node that is launched is stored, and perhaps the old
one. -/
theorem relaunched_cases (m : DistributedJobManager) (node : Node) (removeExitedNode : Bool) :
    let r :=
      if node.type = .ps then m.relaunchPs node else m.relaunchTrainingNode node removeExitedNode
    r.launched = m.launchedNode node ∧
      r.node = { node with isReleased := (replacedNode node removeExitedNode).isReleased } ∧
      (∀ n ∈ r.removeNodes, n = r.node) ∧
      (r.manager = m.updateNode (m.launchedNode node) ∧ r.removeNodes = [] ∨
        removeExitedNode = true ∧
          r.manager = (m.updateNode (m.launchedNode node)).updateNode r.node) := by
  intro r
  by_cases ps : node.type = .ps
  · rw [show r = m.relaunchPs node from if_pos ps]
    refine ⟨rfl, ?_, fun n mem ↦ absurd mem List.not_mem_nil, .inl ⟨rfl, rfl⟩⟩
    simp [relaunchPs, replacedNode, ps]
  · rw [show r = m.relaunchTrainingNode node removeExitedNode from if_neg ps]
    unfold relaunchTrainingNode
    split
    · next removed =>
      refine ⟨rfl, ?_, fun n mem ↦ List.mem_singleton.mp mem, .inr ⟨removed.1, rfl⟩⟩
      simp [replacedNode, removed]
    · next kept =>
      have same : (replacedNode node removeExitedNode).isReleased = node.isReleased := by
        simp only [replacedNode, ps, decide_false, Bool.or_false]
        cases released : node.isReleased
        · cases removeExitedNode
          · rfl
          · simp_all
        · rfl
      refine ⟨rfl, ?_, fun n mem ↦ absurd mem List.not_mem_nil, .inl ⟨rfl, rfl⟩⟩
      rw [same]

/-- A relaunch stores the node that is launched, perhaps the old one, and then the old one as it is
to be. Only when exited nodes are to be removed does it put anything into `remove_nodes`. -/
theorem relaunchNode_eq (m : DistributedJobManager) (node source : Node)
    (removeExitedNode reported : Bool) :
    ∃ w removed,
      m.relaunchNode node source removeExitedNode reported =
        { w.updateNode (replacedNode node removeExitedNode) with
          removeNodes := m.removeNodes ++ removed
          replacements := ⟨source, m.launchedNode node, reported⟩ :: m.replacements } ∧
      (removeExitedNode = false → removed = []) ∧ (∀ r ∈ removed, r.type = node.type) ∧
      (w = m.updateNode (m.launchedNode node) ∨ removeExitedNode = true ∧
        w = (m.updateNode (m.launchedNode node)).updateNode
          { node with isReleased := (replacedNode node removeExitedNode).isReleased }) := by
  have cases := relaunched_cases m node removeExitedNode
  unfold relaunchNode
  generalize (if node.type = .ps then m.relaunchPs node
    else m.relaunchTrainingNode node removeExitedNode) = r at cases ⊢
  rcases cases with ⟨launched, node_eq, own, manager⟩
  have final : { r.node with relaunchable := false } = replacedNode node removeExitedNode := by
    rw [node_eq]
    rfl
  have removed : r.manager.removeNodes = m.removeNodes ∧
      r.manager.replacements = m.replacements := by
    rcases manager with ⟨manager, -⟩ | ⟨-, manager⟩ <;> simp [manager]
  refine ⟨r.manager, r.removeNodes ++ if removeExitedNode then [r.node] else [], ?_, ?_, ?_, ?_⟩
  · simp only [final, launched, removeNodes_updateNode, replacements_updateNode, removed]
  · rintro rfl
    rcases manager with ⟨-, none⟩ | ⟨on, -⟩
    · rw [none]
      rfl
    · cases on
  · intro n mem
    have self : n = r.node := by
      rcases List.mem_append.mp mem with mem | mem
      · exact own n mem
      · split at mem
        · exact List.mem_singleton.mp mem
        · exact absurd mem List.not_mem_nil
    rw [self, node_eq]
  · rcases manager with ⟨manager, -⟩ | ⟨on, manager⟩
    · exact .inl manager
    · rw [node_eq] at manager
      exact .inr ⟨on, manager⟩

variable {source : Node} {removeExitedNode reported : Bool}

theorem node?_relaunchNode :
    (m.relaunchNode node source removeExitedNode reported).node? k =
      if k = node.key then some (replacedNode node removeExitedNode)
      else if k = (m.launchedNode node).key then some (m.launchedNode node)
      else m.node? k := by
  rcases relaunchNode_eq m node source removeExitedNode reported with ⟨w, removed, eq, -, -, cases⟩
  rw [eq]
  show (w.updateNode (replacedNode node removeExitedNode)).node? k = _
  rw [node?_updateNode, show (replacedNode node removeExitedNode).key = node.key from rfl]
  split
  · rfl
  · next ne =>
    rcases cases with rfl | ⟨-, rfl⟩
    · rw [node?_updateNode]
    · have other : k ≠ Node.key { node with
          isReleased := (replacedNode node removeExitedNode).isReleased } := ne
      rw [node?_updateNode, if_neg other, node?_updateNode]

@[simp] theorem replacements_relaunchNode :
    (m.relaunchNode node source removeExitedNode reported).replacements =
      ⟨source, m.launchedNode node, reported⟩ :: m.replacements := by
  rcases relaunchNode_eq m node source removeExitedNode reported with ⟨w, removed, eq, -, -, -⟩
  rw [eq]

theorem types_relaunchNode (known : node.type ∈ m.types) :
    (m.relaunchNode node source removeExitedNode reported).types = m.types := by
  rcases relaunchNode_eq m node source removeExitedNode reported with ⟨w, removed, eq, -, -, cases⟩
  have launched : (m.updateNode (m.launchedNode node)).types = m.types := types_updateNode known
  have types : w.types = m.types := by
    rcases cases with rfl | ⟨-, rfl⟩
    · exact launched
    · rw [types_updateNode, launched]
      rwa [launched]
  rw [eq]
  show (w.updateNode (replacedNode node removeExitedNode)).types = m.types
  rw [types_updateNode, types]
  rwa [types]

theorem WellFormed.relaunchNode (wf : m.WellFormed) (known : node.type ∈ m.types) :
    (m.relaunchNode node source removeExitedNode reported).WellFormed where
  keyed {k n} found := by
    rw [node?_relaunchNode] at found
    split at found
    · next eq =>
      cases found
      exact eq.symm
    · split at found
      · next eq =>
        cases found
        exact eq.symm
      · exact wf.keyed found
  typed {k n} found := by
    rw [types_relaunchNode known]
    rw [node?_relaunchNode] at found
    split at found
    · cases found
      exact known
    · split at found
      · cases found
        exact known
      · exact wf.typed found
  oneChief := by
    rw [types_relaunchNode known]
    exact wf.oneChief

/-! ### Events -/

theorem key_countRelaunch (env : Env) (node : Node) : (countRelaunch env node).key = node.key := by
  unfold countRelaunch
  split <;> rfl

theorem status_countRelaunch (env : Env) (node : Node) :
    (countRelaunch env node).status = node.status := by
  unfold countRelaunch
  split <;> rfl

/-- The node of an event once its status is stored. -/
def eventNode (node : Node) (e : NodeEvent) : Node :=
  { node.updateInfo e.node with status := e.node.status, exitReason := e.node.exitReason }

/-- The two updates of an event with a flow. -/
theorem node?_eventNode {e : NodeEvent} (wf : m.WellFormed)
    (found : m.node? e.node.key = some node) :
    ((m.updateNode (node.updateInfo e.node)).updateNode (eventNode node e)).node? k =
      if k = e.node.key then some (eventNode node e) else m.node? k := by
  have key := wf.keyed found
  rw [node?_updateNode, show (eventNode node e).key = e.node.key from key]
  split
  · rfl
  · next ne =>
    rw [node?_updateNode, Node.key_updateInfo, key, if_neg ne]

/-- A flow that `_process_event` follows for an event of `node`. -/
structure Follows (env : Env) (e : NodeEvent) (node : Node) (flow : NodeStateFlow) : Prop where
  unskipped : ¬ e.skipped env
  found : getNodeStateFlow node.status e.eventType e.node.status = some (some flow)
  fromStatus : flow.fromStatus ≠ .succeeded

/-- The table has no flow for `"exit"`. -/
theorem Follows.ne_exit {env : Env} {e : NodeEvent} {flow : NodeStateFlow}
    (h : Follows env e node flow) : e.eventType ≠ .exit := by
  rcases getNodeStateFlow_some h.found with ⟨mem, -, type, -⟩
  intro eq
  rw [eq] at type
  have table : ∀ flow ∈ nodeStateFlows, NodeEventType.exit ∉ flow.eventType := by decide
  exact table flow mem type

/-- What an event does: nothing, or it updates its node, or it stores the status as well, or the
node is relaunched on top of that. -/
inductive EventEffect (m : DistributedJobManager) (env : Env) (e : NodeEvent) :
    DistributedJobManager → Prop where
  | ignored (h : e.skipped env ∨ m.node? e.node.key = none) : EventEffect m env e m
  | updated (node : Node) (found : m.node? e.node.key = some node) (unskipped : ¬ e.skipped env)
      (quiet : ∀ flow, ¬ Follows env e node flow) :
    EventEffect m env e (m.updateNode (node.updateInfo e.node))
  | followed (node : Node) (flow : NodeStateFlow) (found : m.node? e.node.key = some node)
      (follows : Follows env e node flow)
      (kept : shouldRelaunch env (eventNode node e) flow = false) :
    EventEffect m env e ((m.updateNode (node.updateInfo e.node)).updateNode (eventNode node e))
  | relaunched (node : Node) (flow : NodeStateFlow) (found : m.node? e.node.key = some node)
      (follows : Follows env e node flow)
      (relaunch : shouldRelaunch env (eventNode node e) flow = true) :
    EventEffect m env e
      (((m.updateNode (node.updateInfo e.node)).updateNode (eventNode node e)).relaunchNode
        (countRelaunch env (eventNode node e)) (eventNode node e) env.removeExitedNode false)

theorem processEvent_effect (m : DistributedJobManager) (env : Env) (e : NodeEvent) :
    EventEffect m env e (m.processEvent env e) := by
  unfold processEvent
  split
  · next skipped => exact .ignored (.inl skipped)
  · next unskipped =>
    split
    · next absent => exact .ignored (.inr absent)
    · next node found =>
      simp only
      split
      · next exit =>
        exact .updated node found unskipped fun flow follows ↦ follows.ne_exit exit
      · split
        · next flow flow_found =>
          unfold followFlow
          split
          · next succeeded =>
            refine .updated node found unskipped fun flow' follows ↦ ?_
            have same := follows.found.symm.trans flow_found
            cases same
            exact follows.fromStatus succeeded
          · next fromStatus =>
            have follows : Follows env e node flow := ⟨unskipped, flow_found, fromStatus⟩
            simp only
            split
            · next relaunch => exact .relaunched node flow found follows relaunch
            · next kept => exact .followed node flow found follows (Bool.eq_false_iff.mpr kept)
        · next none_found =>
          exact .updated node found unskipped fun flow follows ↦ none_found flow follows.found

end DistributedJobManager

end ProbingBaselines.Dlrover.JobManager
