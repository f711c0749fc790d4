import ProbingBaselines.Dlrover.NodeUpdates

/-!
# Scaling the workers

`adjust_worker`, `migrate_workers` and `remove_node` of the worker manager between pod events. A
worker that leaves is marked as released, but every event of its pod that is processed resets the
mark, and `adjust_worker` counts workers without a look at it.
-/

namespace ProbingBaselines.Dlrover.JobManager

open Lib

/-- An alive worker that was not released. -/
def Node.active (n : Node) : Prop := n.type = .worker ∧ n.alive ∧ n.isReleased = false

instance (n : Node) : Decidable n.active := inferInstanceAs (Decidable (_ ∧ _))

namespace DistributedJobManager

variable {m m' s t : DistributedJobManager} {n node old : Node} {k k' : NodeType × Nat}

/-- The number of alive workers that were not released. -/
def activeCount (m : DistributedJobManager) : Nat := m.jobNodes.items.countP fun e ↦ e.2.active

/-- The ids of the workers that were put into `remove_nodes`. -/
def removedWorkers (m : DistributedJobManager) : List Nat :=
  (m.removeNodes.filter fun n ↦ n.type = .worker).map Node.id

/-- The state between two steps, as the initial one is. -/
structure Scaled (m : DistributedJobManager) : Prop where
  wellFormed : m.WellFormed
  hasWorkers : .worker ∈ m.types
  ranks : ∀ {k n}, m.node? k = some n → n.type = .worker → n.rankIndex < m.nodeRankIter
  distinct : ∀ {k k' n n'}, m.node? k = some n → m.node? k' = some n' → n.active → n'.active →
    n.rankIndex = n'.rankIndex → k = k'
  released : ∀ id ∈ m.removedWorkers, ∃ n, m.node? (.worker, id) = some n ∧ n.isReleased = true
  once : m.removedWorkers.Nodup

/-- An event of a pod that `PodWatcher` parsed: it stores the status its flow leads to, it is not
about a worker that was released, and it does not relaunch one while exited nodes are removed. -/
structure EventKeeps (m : DistributedJobManager) (env : Env) (e : NodeEvent) : Prop where
  parsed : e.node.isReleased = false
  unreleased : ∀ n, m.node? e.node.key = some n → ¬ e.skipped env → n.type = .worker →
    n.isReleased = false
  phase : ∀ n flow, m.node? e.node.key = some n → Follows env e n flow → n.type = .worker →
    e.node.status = flow.toStatus
  kept : ∀ n flow, m.node? e.node.key = some n → Follows env e n flow → n.type = .worker →
    shouldRelaunch env (eventNode n e) flow = true → env.removeExitedNode = false

/-- A worker that can be migrated: it was not released and no other alive, unreleased worker has its
rank. A critical one is skipped. -/
def Migratable (m : DistributedJobManager) (id : Nat) : Prop :=
  ∀ n, m.node? (.worker, id) = some n → n.critical = false → n.isReleased = false ∧
    ∀ k n', m.node? k = some n' → n'.active → n'.rankIndex = n.rankIndex → k = (.worker, id)

/-- The workers can be migrated one after the other. -/
def MigrateKeeps (m : DistributedJobManager) (env : Env) : List (Nat × Nat) → Prop
  | [] => True
  | worker :: rest =>
    m.Migratable worker.1 ∧
      ((m.node? (.worker, worker.1)).isSome →
        (m.migrateWorker env worker.1 worker.2).MigrateKeeps env rest)

/-- The steps that keep the marks. -/
def ScaleKeeps (m : DistributedJobManager) : Action → Prop
  | .event env e => m.EventKeeps env e
  | .adjustWorker .. => ∀ k n, m.node? k = some n → n.type = .worker → n.alive →
    n.isReleased = false
  | .migrateWorkers env workers => m.MigrateKeeps env workers
  | .removeNode id => ∀ n, m.node? (.worker, id) = some n →
    n.status ∉ [NodeStatus.deleted, .initial] → n.isReleased = false
  | _ => False

/-! ### Storing a node -/

/-- A node is stored again: it has its rank, it does not become active, and a worker that was
released stays so. -/
theorem Scaled.store {o : Node} (h : m.Scaled) (found : m.node? n.key = some o)
    (rank : n.type = .worker → n.rankIndex = o.rankIndex) (active : n.active → o.active)
    (released : n.type = .worker → o.isReleased = true → n.isReleased = true) :
    (m.updateNode n).Scaled := by
  have wf := h.wellFormed
  have type : o.type = n.type := congrArg Prod.fst (wf.keyed found)
  have known : n.type ∈ m.types := by
    rw [← type]
    exact wf.typed found
  -- an active node was one before, with the same rank
  have before : ∀ k n', (m.updateNode n).node? k = some n' → n'.active →
      ∃ b, m.node? k = some b ∧ b.active ∧ b.rankIndex = n'.rankIndex := by
    intro k n' found' act
    rcases node?_updateNode_cases found' with ⟨rfl, rfl⟩ | same
    · exact ⟨o, found, active act, (rank act.1).symm⟩
    · exact ⟨n', same, act, rfl⟩
  have removed : (m.updateNode n).removedWorkers = m.removedWorkers := by
    unfold removedWorkers
    rw [removeNodes_updateNode]
  constructor
  · exact wf.updateNode known
  · rw [types_updateNode known]
    exact h.hasWorkers
  · intro k n' found' worker
    rw [nodeRankIter_updateNode]
    rcases node?_updateNode_cases found' with ⟨rfl, rfl⟩ | same
    · rw [rank worker]
      exact h.ranks found (type.trans worker)
    · exact h.ranks same worker
  · intro k k' n₁ n₂ found₁ found₂ act₁ act₂ eq
    rcases before k n₁ found₁ act₁ with ⟨o₁, old₁, actO₁, rank₁⟩
    rcases before k' n₂ found₂ act₂ with ⟨o₂, old₂, actO₂, rank₂⟩
    exact h.distinct old₁ old₂ actO₁ actO₂ ((rank₁.trans eq).trans rank₂.symm)
  · rw [removed]
    intro id mem
    rcases h.released id mem with ⟨n', found', rel⟩
    rw [node?_updateNode]
    split
    · next eq =>
      rw [eq, found] at found'
      cases found'
      exact ⟨n, rfl, released (congrArg Prod.fst eq).symm rel⟩
    · exact ⟨n', found', rel⟩
  · rw [removed]
    exact h.once

/-- A new node, whose rank no active worker has if it is to be active itself. -/
theorem Scaled.add (h : m.Scaled) (known : n.type ∈ m.types) (fresh : m.node? n.key = none)
    (rank : n.type = .worker → n.rankIndex < m.nodeRankIter)
    (free : n.active → ∀ k n', m.node? k = some n' → n'.active → n'.rankIndex ≠ n.rankIndex) :
    (m.updateNode n).Scaled := by
  have removed : (m.updateNode n).removedWorkers = m.removedWorkers := by
    unfold removedWorkers
    rw [removeNodes_updateNode]
  constructor
  · exact h.wellFormed.updateNode known
  · rw [types_updateNode known]
    exact h.hasWorkers
  · intro k n' found' worker
    rw [nodeRankIter_updateNode]
    rcases node?_updateNode_cases found' with ⟨-, rfl⟩ | same
    · exact rank worker
    · exact h.ranks same worker
  · intro k k' n₁ n₂ found₁ found₂ act₁ act₂ eq
    rcases node?_updateNode_cases found₁ with ⟨rfl, rfl⟩ | same₁
    · rcases node?_updateNode_cases found₂ with ⟨rfl, rfl⟩ | same₂
      · rfl
      · exact absurd eq.symm (free act₁ k' n₂ same₂ act₂)
    · rcases node?_updateNode_cases found₂ with ⟨rfl, rfl⟩ | same₂
      · exact absurd eq (free act₂ k n₁ same₁ act₁)
      · exact h.distinct same₁ same₂ act₁ act₂ eq
  · rw [removed]
    intro id mem
    rcases h.released id mem with ⟨n', found', rel⟩
    rw [node?_updateNode]
    split
    · next eq =>
      rw [eq, fresh] at found'
      cases found'
    · exact ⟨n', found', rel⟩
  · rw [removed]
    exact h.once

/-- Only the nodes, the types, the next rank and the workers that were removed matter. -/
theorem Scaled.congr (h : m.Scaled) (nodes : m'.jobNodes = m.jobNodes) (types : m'.types = m.types)
    (iter : m'.nodeRankIter = m.nodeRankIter) (removed : m'.removedWorkers = m.removedWorkers) :
    m'.Scaled := by
  have same : m'.node? = m.node? := by
    unfold node?
    rw [nodes]
  constructor
  · exact h.wellFormed.congr nodes types
  · rw [types]
    exact h.hasWorkers
  · rw [same, iter]
    exact h.ranks
  · rw [same]
    exact h.distinct
  · rw [removed, same]
    exact h.released
  · rw [removed]
    exact h.once

/-- A worker that is released by now and was not before is put into `remove_nodes`. -/
theorem Scaled.remove (h : m.Scaled) (found : m.node? (.worker, n.id) = some n)
    (worker : n.type = .worker) (released : n.isReleased = true) (fresh : n.id ∉ m.removedWorkers) :
    Scaled { m with removeNodes := m.removeNodes ++ [n] } := by
  have removed : removedWorkers { m with removeNodes := m.removeNodes ++ [n] } =
      m.removedWorkers ++ [n.id] := by
    unfold removedWorkers
    simp [worker]
  constructor
  · exact h.wellFormed.congr rfl rfl
  · exact h.hasWorkers
  · exact h.ranks
  · exact h.distinct
  · rw [removed]
    intro id mem
    rcases List.mem_append.mp mem with mem | mem
    · exact h.released id mem
    · rw [List.mem_singleton.mp mem]
      exact ⟨n, found, released⟩
  · rw [removed, List.nodup_append]
    refine ⟨h.once, List.nodup_singleton _, ?_⟩
    rintro id mem id' mem' rfl
    rw [List.mem_singleton.mp mem'] at mem
    exact fresh mem

theorem Scaled.not_removed (h : m.Scaled) {id : Nat} (found : m.node? (.worker, id) = some n)
    (unreleased : n.isReleased = false) : id ∉ m.removedWorkers := by
  intro mem
  rcases h.released id mem with ⟨n', found', rel⟩
  rw [found] at found'
  cases found'
  rw [unreleased] at rel
  cases rel

/-! ### Events -/

/-- A worker that is relaunched has ended, and no active worker has its rank. -/
theorem Scaled.relaunchNode {o source : Node} {removeExitedNode reported : Bool} (h : m.Scaled)
    (found : m.node? node.key = some o)
    (ended : node.type = .worker → removeExitedNode = false ∧ ¬ node.alive ∧
      node.rankIndex = o.rankIndex ∧ (o.isReleased = true → node.isReleased = true) ∧
      ∀ k n', m.node? k = some n' → n'.active → n'.rankIndex ≠ node.rankIndex) :
    (m.relaunchNode node source removeExitedNode reported).Scaled := by
  have wf := h.wellFormed
  have type : o.type = node.type := congrArg Prod.fst (wf.keyed found)
  have unused : m.node? (m.launchedNode node).key = none := wf.nextNodeId_fresh node.type
  have ne : node.key ≠ (m.launchedNode node).key := by
    intro eq
    rw [← eq, found] at unused
    cases unused
  have launched : (m.updateNode (m.launchedNode node)).Scaled := by
    apply h.add _ unused
    · intro worker
      rw [show (m.launchedNode node).rankIndex = o.rankIndex from (ended worker).2.2.1]
      exact h.ranks found (type.trans worker)
    · exact fun active ↦ (ended active.1).2.2.2.2
    · show node.type ∈ m.types
      rw [← type]
      exact wf.typed found
  have found' : (m.updateNode (m.launchedNode node)).node? node.key = some o := by
    rw [node?_updateNode, if_neg ne]
    exact found
  rcases relaunchNode_eq m node source removeExitedNode reported with
    ⟨w, removed, eq, off, types, cases⟩
  have final : (w.updateNode (replacedNode node removeExitedNode)).Scaled ∧
      w.removeNodes = m.removeNodes := by
    rcases cases with rfl | ⟨on, rfl⟩
    · refine ⟨launched.store found' ?_ ?_ ?_, removeNodes_updateNode⟩
      · exact fun worker ↦ (ended worker).2.2.1
      · exact fun active ↦ absurd active.2.1 (ended active.1).2.1
      · intro worker released
        have := (ended worker).2.2.2.1 released
        simp [replacedNode, this]
    · -- exited nodes are removed, so that this is no worker
      have other : node.type ≠ .worker := by
        intro worker
        rw [(ended worker).1] at on
        cases on
      have mid := launched.store
        (n := { node with isReleased := (replacedNode node removeExitedNode).isReleased }) found'
        (fun worker ↦ absurd worker other) (fun active ↦ absurd active.1 other)
        (fun worker ↦ absurd worker other)
      refine ⟨mid.store (o := { node with
        isReleased := (replacedNode node removeExitedNode).isReleased }) ?_ ?_ ?_ ?_, by simp⟩
      · rw [node?_updateNode]
        exact if_pos rfl
      · exact fun worker ↦ absurd worker other
      · exact fun active ↦ absurd active.1 other
      · exact fun worker ↦ absurd worker other
  rw [eq]
  refine final.1.congr rfl rfl rfl ?_
  unfold removedWorkers
  rw [removeNodes_updateNode, final.2]
  show ((m.removeNodes ++ removed).filter _).map _ = _
  by_cases worker : node.type = .worker
  · rw [off (ended worker).1, List.append_nil]
  · have none : removed.filter (fun n ↦ decide (n.type = .worker)) = [] := by
      rw [List.filter_eq_nil_iff]
      intro r mem is_worker
      exact worker ((types r mem).symm.trans (of_decide_eq_true is_worker))
    rw [List.filter_append, none, List.append_nil]

/-- A flow that relaunches goes from an alive status to one that is not, and no flow makes a node
alive again. -/
theorem flow_alive : ∀ flow ∈ nodeStateFlows,
    (flow.shouldRelaunch → flow.fromStatus ∈ [NodeStatus.initial, .pending, .running] ∧
      flow.toStatus ∉ [NodeStatus.initial, .pending, .running]) ∧
    (flow.toStatus ∈ [NodeStatus.initial, .pending, .running] →
      flow.fromStatus ∈ [NodeStatus.initial, .pending, .running]) := by decide

theorem shouldRelaunch_flow {env : Env} {flow : NodeStateFlow}
    (h : shouldRelaunch env node flow = true) : flow.shouldRelaunch = true := by
  unfold shouldRelaunch at h
  split at h
  · cases h
  · next all => exact (Decidable.not_not.mp all).1

theorem Scaled.processEvent {env : Env} {e : NodeEvent} (h : m.Scaled)
    (keeps : m.EventKeeps env e) :
    (m.processEvent env e).Scaled := by
  have wf := h.wellFormed
  have updated : ∀ node, m.node? e.node.key = some node → ¬ e.skipped env →
      (m.updateNode (node.updateInfo e.node)).Scaled := by
    intro node found unskipped
    apply h.store (o := node)
    · rwa [Node.key_updateInfo, wf.keyed found]
    · exact fun _ ↦ rfl
    · exact fun active ↦ ⟨active.1, active.2.1, keeps.unreleased node found unskipped active.1⟩
    · intro worker released
      rw [keeps.unreleased node found unskipped worker] at released
      cases released
  have stored : ∀ node flow, m.node? e.node.key = some node → Follows env e node flow →
      ((m.updateNode (node.updateInfo e.node)).updateNode (eventNode node e)).Scaled := by
    intro node flow found follows
    rcases getNodeStateFlow_some follows.found with ⟨mem, fromStatus, -⟩
    apply (updated node found follows.unskipped).store (o := node.updateInfo e.node)
    · rw [node?_updateNode]
      exact if_pos rfl
    · exact fun _ ↦ rfl
    · intro active
      refine ⟨active.1, ?_, active.2.2⟩
      have alive : e.node.status ∈ [NodeStatus.initial, .pending, .running] := active.2.1
      rw [keeps.phase node flow found follows active.1] at alive
      show node.status ∈ [NodeStatus.initial, .pending, .running]
      rw [← fromStatus]
      exact (flow_alive flow mem).2 alive
    · exact fun _ released ↦ released
  have effect := processEvent_effect m env e
  generalize m.processEvent env e = u at effect ⊢
  cases effect with
  | ignored => exact h
  | updated node found unskipped => exact updated node found unskipped
  | followed node flow found follows => exact stored node flow found follows
  | relaunched node flow found follows relaunch =>
    rcases getNodeStateFlow_some follows.found with ⟨mem, fromStatus, -⟩
    have alive := (flow_alive flow mem).1 (shouldRelaunch_flow relaunch)
    have key := key_countRelaunch env (eventNode node e)
    apply (stored node flow found follows).relaunchNode (o := eventNode node e)
    · rw [node?_updateNode]
      exact if_pos key
    · intro worker
      have worker : node.type = .worker := by
        rwa [show (countRelaunch env (eventNode node e)).type = node.type from
          congrArg Prod.fst key] at worker
      have same : (countRelaunch env (eventNode node e)).rankIndex = node.rankIndex ∧
          (countRelaunch env (eventNode node e)).isReleased = (eventNode node e).isReleased := by
        unfold countRelaunch
        split <;> exact ⟨rfl, rfl⟩
      have dead : e.node.status ∉ [NodeStatus.initial, .pending, .running] := by
        rw [keeps.phase node flow found follows worker]
        exact alive.2
      refine ⟨keeps.kept node flow found follows worker relaunch, ?_, same.1, ?_, ?_⟩
      · unfold Node.alive
        rwa [status_countRelaunch]
      · rw [same.2]
        exact id
      · -- the node was the active worker of its rank
        have was_active : node.active := by
          refine ⟨worker, ?_, keeps.unreleased node found follows.unskipped worker⟩
          unfold Node.alive
          rw [← fromStatus]
          exact alive.1
        intro k n' found' active eq
        rw [node?_eventNode wf found] at found'
        split at found'
        · cases found'
          exact dead active.2.1
        · next ne => exact ne (h.distinct found' found active was_active (eq.trans same.1))

/-! ### Removing workers -/

/-- A worker that was not released is, and is put into `remove_nodes`. -/
theorem Scaled.release {o : Node} (h : m.Scaled) (found : m.node? n.key = some o)
    (rank : n.rankIndex = o.rankIndex) (worker : n.type = .worker)
    (released : n.isReleased = true) (unreleased : o.isReleased = false)
    (nodes : m'.jobNodes = (m.updateNode n).jobNodes) (types : m'.types = (m.updateNode n).types)
    (iter : m'.nodeRankIter = m.nodeRankIter) (removed : m'.removeNodes = m.removeNodes ++ [n]) :
    m'.Scaled := by
  have key : n.key = (.worker, n.id) := Prod.ext worker rfl
  have stored : (m.updateNode n).Scaled := by
    apply h.store found (fun _ ↦ rank)
    · intro active
      rw [active.2.2] at released
      cases released
    · intro _ already
      rw [unreleased] at already
      cases already
  have here : (m.updateNode n).node? (.worker, n.id) = some n := by
    rw [node?_updateNode]
    exact if_pos key.symm
  have fresh : n.id ∉ (m.updateNode n).removedWorkers := by
    unfold removedWorkers
    rw [removeNodes_updateNode]
    rw [key] at found
    exact h.not_removed found unreleased
  refine (stored.remove here worker released fresh).congr nodes types ?_ ?_
  · exact iter.trans nodeRankIter_updateNode.symm
  · unfold removedWorkers
    rw [removed, removeNodes_updateNode]

/-- The count after a node is stored again. -/
theorem activeCount_updateNode (found : m.node? n.key = some old)
    (nodes : m'.jobNodes = (m.updateNode n).jobNodes) :
    m'.activeCount + (if old.active then 1 else 0) =
      m.activeCount + (if n.active then 1 else 0) := by
  have count := Dict.countP_insert (v := n) (fun e ↦ decide e.2.active)
    (Dict.get?_eq_some_iff.mp found)
  simp only [decide_eq_true_eq] at count
  unfold activeCount
  rw [nodes, (jobNodes_updateNode m n).1]
  exact count

theorem Scaled.removeNode {id : Nat} (h : m.Scaled)
    (keeps : ∀ n, m.node? (.worker, id) = some n → n.status ∉ [NodeStatus.deleted, .initial] →
      n.isReleased = false) : (m.removeNode id).Scaled := by
  unfold DistributedJobManager.removeNode
  split
  · exact h
  · next n found =>
    split
    · exact h
    · next leaves =>
      have key := h.wellFormed.keyed found
      apply h.release (n := { n with isReleased := true }) (o := n)
      · show m.node? n.key = some n
        rwa [key]
      · rfl
      · exact congrArg Prod.fst key
      · rfl
      · exact keeps n found leaves
      · rfl
      · rfl
      · exact nodeRankIter_updateNode
      · rfl

/-- One active worker is released and put into `remove_nodes`. -/
theorem Scaled.scaleDownWorker {w left : Node} (h : m.Scaled) (found : m.node? w.key = some w)
    (active : w.active) (same : left.key = w.key ∧ left.rankIndex = w.rankIndex)
    (released : left.isReleased = true)
    (next : m' = { m.updateJobNode left with removeNodes := m.removeNodes ++ [left] }) :
    m'.Scaled ∧ m'.activeCount + 1 = m.activeCount ∧
      ∀ k, k ≠ w.key → m'.node? k = m.node? k := by
  have nodes : m'.jobNodes = (m.updateNode left).jobNodes := by
    rw [next, (jobNodes_updateNode m left).1]
  rw [← same.1] at found
  refine ⟨?_, ?_, ?_⟩
  · apply h.release found same.2 _ released active.2.2 nodes
    · rw [next, (jobNodes_updateNode m left).2.1]
    · rw [next]
      rfl
    · rw [next]
    · exact (congrArg Prod.fst same.1).trans active.1
  · have inactive : ¬ left.active := by
      intro still
      rw [still.2.2] at released
      cases released
    have count := activeCount_updateNode found nodes
    rwa [if_pos active, if_neg inactive] at count
  · intro k ne
    rw [node?, nodes]
    show (m.updateNode left).node? k = m.node? k
    rw [node?_updateNode, if_neg (same.1 ▸ ne)]

/-- `_scale_down_workers` over active workers releases as many as it is to, but not the critical
ones. -/
theorem Scaled.scaleDownWorkers (h : m.Scaled) (down : Nat) (workers : List Node)
    (stored : ∀ w ∈ workers, m.node? w.key = some w ∧ w.active)
    (nodup : (workers.map Node.key).Nodup) :
    (m.scaleDownWorkers down workers).Scaled ∧
      (m.scaleDownWorkers down workers).activeCount +
        min down (workers.countP fun w ↦ !w.critical) = m.activeCount := by
  induction workers generalizing m down with
  | nil =>
    unfold DistributedJobManager.scaleDownWorkers
    exact ⟨h, by simp⟩
  | cons w rest ih =>
    rw [List.map_cons, List.nodup_cons] at nodup
    cases down with
    | zero =>
      unfold DistributedJobManager.scaleDownWorkers
      exact ⟨h, by simp⟩
    | succ down =>
      unfold DistributedJobManager.scaleDownWorkers
      rw [List.countP_cons]
      split
      · next critical =>
        have others := ih h (down + 1)
          (fun w' mem ↦ stored w' (List.mem_cons_of_mem _ mem)) nodup.2
        simp only [critical, Bool.not_true, Bool.false_eq_true, if_false, Nat.add_zero]
        exact others
      · next plain =>
        rcases stored w List.mem_cons_self with ⟨found, active⟩
        dsimp only
        generalize eq : ({ w with relaunchable := false, isReleased := true } : Node) = left
        generalize next_eq : ({ m.updateJobNode left with removeNodes := m.removeNodes ++ [left] } :
          DistributedJobManager) = next
        rcases h.scaleDownWorker found active (by rw [← eq]; exact ⟨rfl, rfl⟩) (by rw [← eq])
          next_eq.symm with ⟨scaled, count, kept⟩
        have rest_stored : ∀ w' ∈ rest, next.node? w'.key = some w' ∧ w'.active := by
          intro w' mem
          rcases stored w' (List.mem_cons_of_mem _ mem) with ⟨found', active'⟩
          refine ⟨(kept _ fun key ↦ ?_).trans found', active'⟩
          exact nodup.1 (List.mem_map.mpr ⟨w', mem, key⟩)
        have others := ih scaled down rest_stored nodup.2
        refine ⟨others.1, ?_⟩
        have sum := others.2
        simp only [plain, Bool.not_false, if_true]
        omega

/-! ### Adding workers -/

theorem Scaled.scaleUpWorker (h : m.Scaled) (env : Env) (memory : Nat) :
    (m.scaleUpWorker env memory).Scaled ∧
      (m.scaleUpWorker env memory).activeCount = m.activeCount + 1 := by
  have fresh := h.wellFormed.nextNodeId_fresh .worker
  unfold DistributedJobManager.scaleUpWorker
  generalize eq : (Node.mk .worker (m.nextNodeId .worker) m.nodeRankIter .initial 0 false
    env.maxRelaunchNum true false (.other "") memory false false none none) = n
  have key : n.key = (.worker, m.nextNodeId .worker) := by
    rw [← eq]
    rfl
  have active : n.active := by
    rw [← eq]
    exact ⟨rfl, List.mem_cons_self, rfl⟩
  have rank : n.rankIndex = m.nodeRankIter := by rw [← eq]
  rw [← key] at fresh
  -- the next rank can be handed out first
  have next : Scaled { m with nodeRankIter := m.nodeRankIter + 1 } :=
    { wellFormed := h.wellFormed.congr rfl rfl
      hasWorkers := h.hasWorkers
      ranks := fun found worker ↦ Nat.lt_succ_of_lt (h.ranks found worker)
      distinct := h.distinct
      released := h.released
      once := h.once }
  have added := next.add (n := n) (by rw [active.1]; exact h.hasWorkers) fresh
    (fun _ ↦ by rw [rank]; exact Nat.lt_succ_self _) (by
      intro _ k n' found active' same
      have lt := h.ranks found active'.1
      rw [same, rank] at lt
      exact absurd lt (Nat.lt_irrefl _))
  constructor
  · refine added.congr ?_ ?_ ?_ ?_
    · rw [(jobNodes_updateNode m n).1, (jobNodes_updateNode _ n).1]
      rfl
    · rw [(jobNodes_updateNode m n).2.1, (jobNodes_updateNode _ n).2.1]
      rfl
    · rw [nodeRankIter_updateNode]
    · unfold removedWorkers
      rw [removeNodes_updateNode, removeNodes_updateNode]
  · show (m.updateNode n).jobNodes.items.countP _ = _
    rw [(jobNodes_updateNode m n).1]
    show (m.jobNodes.insert n.key n).items.countP _ = _
    rw [Dict.items_insert_of_not_mem _ (Dict.get?_eq_none_iff.mp fresh), List.countP_append]
    simp [activeCount, active]

theorem Scaled.scaleUpWorkers (h : m.Scaled) (env : Env) (memory up : Nat) :
    (m.scaleUpWorkers env memory up).Scaled ∧
      (m.scaleUpWorkers env memory up).activeCount = m.activeCount + up := by
  induction up with
  | zero => exact ⟨h, rfl⟩
  | succ up ih =>
    have one := ih.1.scaleUpWorker env memory
    exact ⟨one.1, by rw [DistributedJobManager.scaleUpWorkers, one.2, ih.2]; rfl⟩

/-- The workers `adjust_worker` counts are those that are active, if none of them was released. -/
theorem aliveWorkers_active (h : m.Scaled)
    (unreleased : ∀ k n, m.node? k = some n → n.type = .worker → n.alive → n.isReleased = false) :
    (∀ w ∈ m.aliveWorkers, m.node? w.key = some w ∧ w.active) ∧
      (m.aliveWorkers.map Node.key).Nodup ∧ m.aliveWorkers.length = m.activeCount := by
  have wf := h.wellFormed
  refine ⟨?_, ?_, ?_⟩
  · intro w mem
    rcases List.mem_filter.mp mem with ⟨mem, alive⟩
    rcases mem_nodesOf.mp mem with ⟨k, found, worker⟩
    refine ⟨by rwa [wf.keyed found], worker, of_decide_eq_true alive, ?_⟩
    exact unreleased k w found worker (of_decide_eq_true alive)
  · have keys : m.jobNodes.values.map Node.key = m.jobNodes.keys := by
      unfold Dict.values Dict.keys
      rw [List.map_map]
      apply List.map_congr_left
      intro e mem
      exact wf.keyed (Dict.get?_eq_some_iff.mpr mem)
    have nodup : (m.jobNodes.values.map Node.key).Nodup := by
      rw [keys]
      exact m.jobNodes.keys_nodup
    exact nodup.sublist ((List.filter_sublist.trans List.filter_sublist).map _)
  · unfold aliveWorkers nodesOf activeCount Dict.values
    rw [← List.countP_eq_length_filter, List.countP_filter, List.countP_map]
    apply List.countP_congr
    intro e mem
    have found : m.node? e.1 = some e.2 := Dict.get?_eq_some_iff.mpr mem
    rw [decide_eq_true_eq, Function.comp_apply, Bool.and_eq_true, decide_eq_true_eq,
      decide_eq_true_eq]
    constructor
    · rintro ⟨alive, worker⟩
      exact ⟨worker, alive, unreleased e.1 e.2 found worker alive⟩
    · rintro ⟨worker, alive, -⟩
      exact ⟨alive, worker⟩

theorem Scaled.adjustWorker {env : Env} {memory num : Nat} (h : m.Scaled)
    (unreleased : ∀ k n, m.node? k = some n → n.type = .worker → n.alive → n.isReleased = false) :
    (m.adjustWorker env memory num).Scaled ∧
      (m.adjustWorker env memory num).activeCount =
        max num (m.aliveWorkers.countP Node.critical) := by
  rcases aliveWorkers_active h unreleased with ⟨stored, nodup, length⟩
  have parts := List.length_eq_countP_add_countP Node.critical (l := m.aliveWorkers)
  unfold DistributedJobManager.adjustWorker
  dsimp only
  split
  · next up =>
    have added := h.scaleUpWorkers env memory (num - m.aliveWorkers.length)
    exact ⟨added.1, by rw [added.2]; omega⟩
  · split
    · next down =>
      have dropped := h.scaleDownWorkers (m.aliveWorkers.length - num)
        m.aliveWorkers.reverse (fun w mem ↦ stored w (List.mem_reverse.mp mem)) (by
          rw [List.map_reverse, List.nodup_reverse]
          exact nodup)
      have plain : m.aliveWorkers.reverse.countP (fun w ↦ !w.critical) =
          m.aliveWorkers.countP fun w ↦ decide ¬ w.critical = true := by
        rw [List.countP_reverse]
        apply List.countP_congr
        simp
      refine ⟨dropped.1, ?_⟩
      have sum := dropped.2
      rw [plain] at sum
      omega
    · exact ⟨h, by omega⟩

theorem Scaled.migrateWorker {env : Env} {id memory : Nat} (h : m.Scaled)
    (keeps : m.Migratable id) : (m.migrateWorker env id memory).Scaled := by
  unfold DistributedJobManager.migrateWorker
  split
  · exact h
  · next n found =>
    split
    · exact h
    · next plain =>
      rcases keeps n found (Bool.eq_false_iff.mpr plain) with ⟨unreleased, free⟩
      have key := h.wellFormed.keyed found
      have rank := h.ranks found (congrArg Prod.fst key)
      dsimp only
      generalize eq : ({ n with migrated := true, relaunchable := false, isReleased := true } :
        Node) = old
      have same : old.key = n.key ∧ old.rankIndex = n.rankIndex ∧ old.isReleased = true := by
        rw [← eq]
        exact ⟨rfl, rfl, rfl⟩
      have left : Scaled
          { m.updateJobNode old with removeNodes := m.removeNodes ++ [old] } := by
        apply h.release (n := old) (o := n)
        · rw [same.1, key]
          exact found
        · exact same.2.1
        · exact congrArg Prod.fst (same.1.trans key)
        · exact same.2.2
        · exact unreleased
        · exact (jobNodes_updateNode m old).1.symm
        · exact (jobNodes_updateNode m old).2.1.symm
        · rfl
        · rfl
      apply left.add
      · exact left.hasWorkers
      · exact left.wellFormed.nextNodeId_fresh .worker
      · intro _
        exact rank
      · intro _ k n' found' active' eq_rank
        replace found' : (m.updateJobNode old).node? k = some n' := found'
        rw [node?_updateJobNode] at found'
        split at found'
        · cases found'
          exact Bool.noConfusion (same.2.2.symm.trans active'.2.2)
        · next ne =>
          exact ne ((free k n' found' active' eq_rank).trans
            (same.1.trans key).symm)

theorem Scaled.migrateWorkers {env : Env} {workers : List (Nat × Nat)} (h : m.Scaled)
    (keeps : m.MigrateKeeps env workers) : (m.migrateWorkers env workers).Scaled := by
  induction workers generalizing m with
  | nil => exact h
  | cons worker rest ih =>
    unfold DistributedJobManager.migrateWorkers
    split
    · next known => exact ih (h.migrateWorker keeps.1) (keeps.2 known)
    · exact h

/-! ### Runs -/

theorem Scaled.step {a : Action} (h : m.Scaled) (keeps : m.ScaleKeeps a)
    (taken : m.step a = some m') : m'.Scaled := by
  cases a with
  | event env e =>
    cases taken
    exact h.processEvent keeps
  | adjustWorker env memory num =>
    cases taken
    exact (h.adjustWorker keeps).1
  | migrateWorkers env workers =>
    cases taken
    exact h.migrateWorkers keeps
  | removeNode id =>
    cases taken
    exact h.removeNode keeps
  | _ => exact absurd keeps not_false

/-- In every run of such steps: a worker that was put into `remove_nodes` is released, none is put
there twice, the ranks of the alive, unreleased workers differ, and each `adjust_worker` reaches its
target. -/
theorem scaling_reaches_target {as : List Action} (start : s.Scaled)
    (run : Run DistributedJobManager.step ScaleKeeps s as t) :
    (∀ id ∈ t.removedWorkers, ∃ n, t.node? (.worker, id) = some n ∧ n.isReleased = true) ∧
    t.removedWorkers.Nodup ∧
    (∀ k k' n n', t.node? k = some n → t.node? k' = some n' → n.active → n'.active →
      n.rankIndex = n'.rankIndex → k = k') ∧
    ∀ env memory num, t.ScaleKeeps (.adjustWorker env memory num) →
      (t.adjustWorker env memory num).activeCount =
        max num (t.aliveWorkers.countP Node.critical) := by
  have scaled : t.Scaled :=
    run.invariant (P := Scaled) start fun _ _ _ h keeps taken ↦ h.step keeps taken
  exact ⟨scaled.released, scaled.once, fun _ _ _ _ found found' ↦ scaled.distinct found found',
    fun _ _ _ keeps ↦ (scaled.adjustWorker keeps).2⟩

/-- The steps that are looked at here, with the nodes of pod events as `PodWatcher` makes them. -/
def ScalingAction : Action → Prop
  | .event _ e => e.node.isReleased = false
  | .adjustWorker .. | .migrateWorkers .. | .removeNode .. => True
  | _ => False

/-- A job with three workers. -/
def threeWorkers : DistributedJobManager :=
  initNodes [.worker]
    [{ type := .worker, id := 0, rankIndex := 0, status := .running, maxRelaunchCount := 3 },
     { type := .worker, id := 1, rankIndex := 1, status := .running, maxRelaunchCount := 3 },
     { type := .worker, id := 2, rankIndex := 2, status := .running, maxRelaunchCount := 3 }]

theorem threeWorkers_scaled : threeWorkers.Scaled where
  wellFormed := initNodes_wellFormed (by decide) (by decide)
  hasWorkers := by decide
  ranks {k n} found _ := by
    have all : ∀ e ∈ threeWorkers.jobNodes.items, e.2.rankIndex < threeWorkers.nodeRankIter := by
      decide
    exact all _ (Dict.get?_eq_some_iff.mp found)
  distinct {k k' n n'} found found' _ _ eq := by
    have all : ∀ e ∈ threeWorkers.jobNodes.items, ∀ e' ∈ threeWorkers.jobNodes.items,
        e.2.rankIndex = e'.2.rankIndex → e.1 = e'.1 := by decide
    exact all _ (Dict.get?_eq_some_iff.mp found) _ (Dict.get?_eq_some_iff.mp found') eq
  released id mem := absurd mem List.not_mem_nil
  once := List.nodup_nil

/-- Worker 1 is killed and relaunched, the three that are alive are scaled up to four, and worker 0
is removed. -/
theorem scaling_reaches_target_four :
    let killed : NodeEvent := ⟨.modified,
      { type := .worker, id := 1, rankIndex := 1, status := .failed, exitReason := .killed,
        maxRelaunchCount := 3 }⟩
    let relaunched := threeWorkers.processEvent {} killed
    let scaled := relaunched.adjustWorker {} 0 4
    let t := scaled.removeNode 0
    scaled.activeCount = max 4 (relaunched.aliveWorkers.countP Node.critical) ∧
      t.removedWorkers = [0] ∧
      (∀ id ∈ t.removedWorkers, ∃ n, t.node? (.worker, id) = some n ∧ n.isReleased = true) ∧
      t.removedWorkers.Nodup ∧
      ∀ k k' n n', t.node? k = some n → t.node? k' = some n' → n.active → n'.active →
        n.rankIndex = n'.rankIndex → k = k' := by
  intro killed relaunched scaled t
  have killedKeeps : threeWorkers.ScaleKeeps (.event {} killed) := by
    have all : ∀ e ∈ threeWorkers.jobNodes.items, e.2.isReleased = false := by decide
    constructor
    · rfl
    · exact fun n found _ _ ↦ all _ (Dict.get?_eq_some_iff.mp found)
    · exact fun n flow _ follows _ ↦ getNodeStateFlow_toStatus follows.found (.inl (by decide))
    · exact fun _ _ _ _ _ _ ↦ rfl
  have adjustKeeps : relaunched.ScaleKeeps (.adjustWorker {} 0 4) := by
    intro k n found _ _
    have all : ∀ e ∈ relaunched.jobNodes.items, e.2.isReleased = false := by decide
    exact all _ (Dict.get?_eq_some_iff.mp found)
  have removeKeeps : scaled.ScaleKeeps (.removeNode 0) := by
    intro n found _
    have all : ∀ e ∈ scaled.jobNodes.items, e.2.isReleased = false := by decide
    exact all _ (Dict.get?_eq_some_iff.mp found)
  have first : Run DistributedJobManager.step ScaleKeeps threeWorkers [.event {} killed]
      relaunched := .snoc (l := []) _ .nil killedKeeps rfl
  have run : Run DistributedJobManager.step ScaleKeeps threeWorkers
      [.event {} killed, .adjustWorker {} 0 4, .removeNode 0] t :=
    .snoc (l := [_, _]) _ (.snoc (l := [_]) _ first adjustKeeps rfl) removeKeeps rfl
  obtain ⟨released, once, distinct, -⟩ := scaling_reaches_target threeWorkers_scaled run
  refine ⟨?_, by decide, released, once, distinct⟩
  exact (scaling_reaches_target threeWorkers_scaled first).2.2.2 {} 0 4 adjustKeeps

/-- An event of the pod of a worker that was removed takes its mark away; and when three workers are
scaled down to two twice, before the pod is gone, one of them is removed twice. -/
theorem scaling_loses_marks :
    ¬ (∀ (s t : DistributedJobManager) (as : List Action), s.Scaled →
      Run DistributedJobManager.step (fun _ a ↦ ScalingAction a) s as t →
      ∀ id ∈ t.removedWorkers, ∃ n, t.node? (.worker, id) = some n ∧ n.isReleased = true) ∧
    ¬ (∀ (s t : DistributedJobManager) (as : List Action), s.Scaled →
      Run DistributedJobManager.step (fun _ a ↦ ScalingAction a) s as t →
      t.removedWorkers.Nodup) := by
  constructor
  · intro every
    let e : NodeEvent := ⟨.modified,
      { type := .worker, id := 0, rankIndex := 0, status := .running, maxRelaunchCount := 3 }⟩
    have run := every threeWorkers ((threeWorkers.removeNode 0).processEvent {} e)
      [.removeNode 0, .event {} e] threeWorkers_scaled
      (.snoc (l := [_]) _ (.snoc (l := []) _ .nil trivial rfl) rfl rfl) 0 (by decide)
    rcases run with ⟨n, found, released⟩
    have reset : (((threeWorkers.removeNode 0).processEvent {} e).node? (.worker, 0)).map
        Node.isReleased = some false := by decide
    rw [found, Option.map_some, released] at reset
    cases reset
  · intro every
    have run := every threeWorkers ((threeWorkers.adjustWorker {} 0 2).adjustWorker {} 0 2)
      [.adjustWorker {} 0 2, .adjustWorker {} 0 2] threeWorkers_scaled
      (.snoc (l := [_]) _ (.snoc (l := []) _ .nil trivial rfl) trivial rfl)
    revert run
    decide

end DistributedJobManager

end ProbingBaselines.Dlrover.JobManager
