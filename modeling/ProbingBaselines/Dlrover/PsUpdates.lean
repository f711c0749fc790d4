import ProbingBaselines.Dlrover.NodeUpdates
import ProbingBaselines.Dlrover.ParameterServerManager

/-!
# What a step does to the parameter servers

A node that is changed is changed as an object, and a copy of it is stored: the object that is
stored then is none of those the manager keeps.
-/

namespace ProbingBaselines.Dlrover.JobManager

open Lib

namespace ParameterServerManager

variable {m m' : ParameterServerManager} {n c : Node} {r id : Nat}

/-- Each node is stored under its id, and the manager keeps nodes that were stored once. -/
structure WellFormed (m : ParameterServerManager) : Prop where
  nodes : m.nodes.WellFormed
  keyed : ∀ {id r}, m.nodes.ref? id = some r → (m.node r).id = id
  dropped : ∀ r ∈ m.preDroppedPs, r < m.nodes.next ∧ m.nodes.ref? (m.node r).id ≠ none
  migrated : ∀ id ∈ m.migratedPsNodes, m.nodes.ref? id ≠ none

theorem WellFormed.used (wf : m.WellFormed) : ∀ r ∈ m.preDroppedPs, r < m.nodes.next :=
  fun r mem ↦ (wf.dropped r mem).1

theorem WellFormed.find?_of_ref (stored : m.nodes.ref? id = some r) :
    m.nodes.find? id = some (m.node r) := by
  unfold ObjectTable.find?
  rw [stored]
  rfl

/-- Only the nodes and what the manager keeps of them matter. -/
theorem WellFormed.congr (wf : m.WellFormed) (nodes : m'.nodes = m.nodes)
    (dropped : ∀ r ∈ m'.preDroppedPs, r < m.nodes.next ∧ m.nodes.ref? (m.node r).id ≠ none)
    (migrated : ∀ id ∈ m'.migratedPsNodes, m.nodes.ref? id ≠ none) : m'.WellFormed where
  nodes := by
    rw [nodes]
    exact wf.nodes
  keyed := by
    unfold node
    rw [nodes]
    exact wf.keyed
  dropped := by
    unfold node
    rw [nodes]
    exact dropped
  migrated := by
    rw [nodes]
    exact migrated

theorem nextNodeId_fresh (m : ParameterServerManager) : m.nodes.ref? m.nextNodeId = none := by
  unfold ObjectTable.ref?
  rw [Dict.get?_eq_none_iff]
  intro mem
  have listed : m.nextNodeId + 1 ∈ m.nodes.table.keys.map fun id ↦ id + 1 :=
    List.mem_map.mpr ⟨m.nextNodeId, mem, rfl⟩
  exact absurd (DistributedJobManager.le_foldr_max listed) (Nat.not_succ_le_self _)

/-! ### One object -/

theorem node_setNode (r' : Nat) : (m.setNode r n).node r' = if r' = r then n else m.node r' :=
  ObjectTable.object_set

theorem node_setNode_self : (m.setNode r n).node r = n := (node_setNode r).trans (if_pos rfl)

/-- An object is changed in place, which other ids do not see. -/
theorem WellFormed.find?_setNode (wf : m.WellFormed) (same : n.id = (m.node r).id) {k : Nat}
    (ne : k ≠ n.id) : (m.setNode r n).nodes.find? k = m.nodes.find? k := by
  unfold ObjectTable.find?
  show (m.nodes.ref? k).map (m.nodes.set r n).object = _
  cases stored : m.nodes.ref? k with
  | none => rfl
  | some r' =>
    have other : r' ≠ r := by
      rintro rfl
      exact ne ((wf.keyed stored).symm.trans same.symm)
    rw [Option.map_some, Option.map_some, ObjectTable.object_set, if_neg other]

theorem WellFormed.setNode (wf : m.WellFormed) (same : n.id = (m.node r).id) :
    (m.setNode r n).WellFormed := by
  have ids : ∀ r', ((m.setNode r n).node r').id = (m.node r').id := by
    intro r'
    rw [node_setNode]
    split
    · next eq => rw [eq, same]
    · rfl
  constructor
  · exact wf.nodes.set
  · intro id r' stored
    rw [ids]
    exact wf.keyed stored
  · intro r' mem
    rw [ids]
    exact wf.dropped r' mem
  · exact wf.migrated

theorem node_addNode (lt : r < m.nodes.next) : (m.addNode n).node r = m.node r :=
  ObjectTable.object_add_of_lt lt

/-- A new node is stored. -/
theorem WellFormed.addNode (wf : m.WellFormed) : (m.addNode n).WellFormed := by
  constructor
  · exact wf.nodes.add
  · intro k r stored
    have stored : (m.nodes.add n.id n).ref? k = some r := stored
    rw [ObjectTable.ref?_add] at stored
    split at stored
    · next eq =>
      cases stored
      show ((m.nodes.add n.id n).object m.nodes.next).id = k
      rw [ObjectTable.object_add_next, eq]
    · rw [node_addNode (wf.nodes.used stored)]
      exact wf.keyed stored
  · intro r mem
    rcases wf.dropped r mem with ⟨lt, stored⟩
    refine ⟨Nat.lt_succ_of_lt lt, ?_⟩
    rw [node_addNode lt]
    exact ObjectTable.ref?_add_ne_none stored
  · exact fun k mem ↦ ObjectTable.ref?_add_ne_none (wf.migrated k mem)

/-! ### Changing a node -/

/-- Object `r` became `n` and a copy of `n` is stored. -/
structure Rewritten (m m' : ParameterServerManager) (r : Nat) (n : Node) : Prop where
  wellFormed : m'.WellFormed
  next : m.nodes.next ≤ m'.nodes.next
  node : ∀ r' < m.nodes.next, m'.node r' = if r' = r then n else m.node r'
  find : ∀ k, m'.nodes.find? k = if k = n.id then some n else m.nodes.find? k
  ref : ∀ k, k ≠ n.id → m'.nodes.ref? k = m.nodes.ref? k
  copied : ∀ r', m'.nodes.ref? n.id = some r' → m.nodes.next ≤ r'
  rest : m' = { m with nodes := m'.nodes }

theorem Rewritten.ref_ne_none (h : Rewritten m m' r n) : m'.nodes.ref? n.id ≠ none :=
  ObjectTable.ref?_ne_none ((h.find n.id).trans (if_pos rfl))

/-- A copy is none of the objects that are kept. -/
theorem Rewritten.kept (h : Rewritten m m' r n) {refs : List Nat}
    (used : ∀ r ∈ refs, r < m.nodes.next) {k : Nat} :
    m'.nodes.Kept refs k ↔ k ≠ n.id ∧ m.nodes.Kept refs k := by
  constructor
  · rintro ⟨r', mem, stored⟩
    have ne : k ≠ n.id := by
      rintro rfl
      exact absurd (used r' mem) (Nat.not_lt_of_le (h.copied r' stored))
    exact ⟨ne, r', mem, (h.ref k ne).symm.trans stored⟩
  · rintro ⟨ne, r', mem, stored⟩
    exact ⟨r', mem, (h.ref k ne).trans stored⟩

theorem WellFormed.rewritten (wf : m.WellFormed) (same : n.id = (m.node r).id) :
    Rewritten m ((m.setNode r n).updateNode r) r n := by
  have here : (m.setNode r n).node r = n := node_setNode_self
  have stored : (m.setNode r n).updateNode r = (m.setNode r n).addNode n := by
    unfold updateNode ObjectTable.store
    rw [here]
    rw [show (m.setNode r n).nodes.object r = n from here]
    rfl
  rw [stored]
  have changed := wf.setNode same
  constructor
  · exact changed.addNode
  · exact Nat.le_succ _
  · intro r' lt'
    rw [node_addNode (m := m.setNode r n) lt', node_setNode]
  · intro k
    show ((m.setNode r n).nodes.add n.id n).find? k = _
    rw [changed.nodes.find?_add]
    split
    · rfl
    · next ne => exact wf.find?_setNode same ne
  · intro k ne
    show ((m.setNode r n).nodes.add n.id n).ref? k = _
    rw [ObjectTable.ref?_add, if_neg ne]
    rfl
  · intro r' stored
    have stored : ((m.setNode r n).nodes.add n.id n).ref? n.id = some r' := stored
    rw [ObjectTable.ref?_add, if_pos rfl] at stored
    cases stored
    exact Nat.le_refl _
  · rfl

/-- The object is changed again, the first copy being the one that is stored by then. -/
theorem Rewritten.again (h : Rewritten m m' r c) (lt : r < m.nodes.next) (same : n.id = c.id) :
    Rewritten m ((m'.setNode r n).updateNode r) r n := by
  have here : m'.node r = c := (h.node r lt).trans (if_pos rfl)
  have next := h.wellFormed.rewritten (r := r) (n := n) (by rw [here, same])
  constructor
  · exact next.wellFormed
  · exact Nat.le_trans h.next next.next
  · intro r' lt'
    rw [next.node r' (Nat.lt_of_lt_of_le lt' h.next)]
    split
    · rfl
    · next ne => rw [h.node r' lt', if_neg ne]
  · intro k
    rw [next.find]
    split
    · rfl
    · next ne => rw [h.find, if_neg (same ▸ ne)]
  · intro k ne
    rw [next.ref k ne, h.ref k (same ▸ ne)]
  · exact fun r' stored ↦ Nat.le_trans h.next (next.copied r' stored)
  · rw [next.rest, h.rest]

/-! ### Relaunching a node -/

/-- Node `c`, object `r`, was relaunched as the node `new`. -/
structure Relaunched (m m' : ParameterServerManager) (r : Nat) (c : Node) (new : Nat) : Prop where
  wellFormed : m'.WellFormed
  fresh : m.nodes.ref? new = none
  next : m.nodes.next ≤ m'.nodes.next
  node : ∀ r' < m.nodes.next, m'.node r' =
    if r' = r then { c with isReleased := true, relaunchable := false } else m.node r'
  find : ∀ k, m'.nodes.find? k =
    if k = c.id then some { c with isReleased := true, relaunchable := false }
    else if k = new then some (c.generateRelaunchNode new) else m.nodes.find? k
  ref : ∀ k, k ≠ c.id → k ≠ new → m'.nodes.ref? k = m.nodes.ref? k
  copied : ∀ r', m'.nodes.ref? c.id = some r' ∨ m'.nodes.ref? new = some r' → m.nodes.next ≤ r'
  requested : m'.requested = new :: m.requested.filter fun k ↦ k ≠ c.id
  preDroppedPs : m'.preDroppedPs = m.preDroppedPs
  migratedPsNodes : m'.migratedPsNodes = m.migratedPsNodes
  count : m'.count = m.count
  history : m'.chosen = m.chosen ∧ m'.replaced = m.replaced ∧ m'.removeNodes = m.removeNodes

/-- Only the node that is relaunched and the new one get another object. -/
theorem Relaunched.kept {new : Nat} (h : Relaunched m m' r c new) {refs : List Nat}
    (used : ∀ r ∈ refs, r < m.nodes.next) {k : Nat} :
    m'.nodes.Kept refs k ↔ k ≠ c.id ∧ m.nodes.Kept refs k := by
  constructor
  · rintro ⟨r', mem, stored⟩
    have old : ¬ m.nodes.next ≤ r' := Nat.not_le_of_lt (used r' mem)
    have ne : k ≠ c.id := by
      rintro rfl
      exact old (h.copied r' (.inl stored))
    have ne_new : k ≠ new := by
      rintro rfl
      exact old (h.copied r' (.inr stored))
    exact ⟨ne, r', mem, (h.ref k ne ne_new).symm.trans stored⟩
  · rintro ⟨ne, r', mem, stored⟩
    have ne_new : k ≠ new := by
      rintro rfl
      rw [h.fresh] at stored
      cases stored
    exact ⟨r', mem, (h.ref k ne ne_new).trans stored⟩

theorem setNode_setNode : (m.setNode r c).setNode r n = m.setNode r n := by
  unfold setNode ObjectTable.set
  simp only [Function.update_idem]

/-- What `relaunch_node` leaves, before the old node is stored. -/
theorem WellFormed.launchFor (wf : m.WellFormed) : (m.launchFor r c).WellFormed :=
  (wf.addNode (n := c.generateRelaunchNode m.nextNodeId)).congr rfl wf.addNode.dropped
    wf.addNode.migrated

theorem WellFormed.find?_launchFor (wf : m.WellFormed) (k : Nat) :
    (m.launchFor r c).nodes.find? k =
      if k = m.nextNodeId then some (c.generateRelaunchNode m.nextNodeId)
      else m.nodes.find? k := wf.nodes.find?_add

theorem ref?_launchFor (k : Nat) : (m.launchFor r c).nodes.ref? k =
    if k = m.nextNodeId then some m.nodes.next else m.nodes.ref? k := ObjectTable.ref?_add

theorem WellFormed.relaunched (wf : m.WellFormed) (lt : r < m.nodes.next)
    (same : c.id = (m.node r).id) (known : m.nodes.ref? c.id ≠ none) :
    Relaunched m ((m.setNode r c).relaunchNode r) r c m.nextNodeId := by
  have fresh := m.nextNodeId_fresh
  have ne_new : c.id ≠ m.nextNodeId := by
    intro eq
    rw [eq] at known
    exact known fresh
  unfold ParameterServerManager.relaunchNode
  rw [node_setNode_self]
  dsimp only
  rw [setNode_setNode]
  -- the node is released, and the new one is stored
  generalize released_eq : ({ c with isReleased := true } : Node) = released
  generalize old_eq : ({ c with isReleased := true, relaunchable := false } : Node) = old
  have id : released.id = c.id ∧ old.id = c.id := by
    rw [← released_eq, ← old_eq]
    exact ⟨rfl, rfl⟩
  have wf_set : (m.setNode r released).WellFormed := wf.setNode (id.1.trans same)
  have launched : released.generateRelaunchNode m.nextNodeId =
      c.generateRelaunchNode m.nextNodeId := by
    rw [← released_eq]
    rfl
  have new_id : (m.setNode r released).nextNodeId = m.nextNodeId := rfl
  have node : ∀ r' < m.nodes.next, ((m.setNode r released).launchFor r released).node r' =
      if r' = r then released else m.node r' := by
    intro r' lt'
    rw [← node_setNode]
    exact node_addNode (m := m.setNode r released) lt'
  have node_r := (node r lt).trans (if_pos rfl)
  -- then the old node is stored
  have last := (wf_set.launchFor (r := r) (c := released)).rewritten (r := r) (n := old)
    (by rw [node_r, id.1, id.2])
  generalize ((((m.setNode r released).launchFor r released).setNode r old).updateNode r) = m'
    at last ⊢
  have next : m.nodes.next < m'.nodes.next := last.next
  constructor
  · exact last.wellFormed
  · exact fresh
  · exact Nat.le_of_lt next
  · intro r' lt'
    rw [last.node r' (Nat.lt_succ_of_lt lt'), node r' lt', old_eq]
    split
    · rfl
    · rfl
  · intro k
    rw [last.find, id.2, old_eq]
    split
    · rfl
    · next ne =>
      rw [wf_set.find?_launchFor, new_id, launched]
      split
      · rfl
      · exact wf.find?_setNode (id.1.trans same) (id.1 ▸ ne)
  · intro k ne ne'
    rw [last.ref k (id.2 ▸ ne), ref?_launchFor, new_id, if_neg ne']
    rfl
  · rintro r' (stored | stored)
    · exact Nat.le_of_lt (last.copied r' (id.2 ▸ stored))
    · rw [last.ref _ (id.2 ▸ ne_new.symm), ref?_launchFor, new_id, if_pos rfl] at stored
      cases stored
      exact Nat.le_refl _
  · rw [last.rest]
    show _ :: m.requested.filter _ = _
    rw [id.1, new_id]
  · rw [last.rest]
    rfl
  · rw [last.rest]
    rfl
  · rw [last.rest]
    rfl
  · rw [last.rest]
    exact ⟨rfl, rfl, rfl⟩

/-- A node that was changed before it is relaunched. -/
theorem Rewritten.relaunched {mid : ParameterServerManager} {new : Nat} (h : Rewritten m mid r n)
    (same : c.id = n.id) (next : Relaunched mid m' r c new) : Relaunched m m' r c new := by
  have ne_new : new ≠ n.id := by
    rintro rfl
    exact h.ref_ne_none next.fresh
  constructor
  · exact next.wellFormed
  · exact (h.ref new ne_new).symm.trans next.fresh
  · exact Nat.le_trans h.next next.next
  · intro r' lt
    rw [next.node r' (Nat.lt_of_lt_of_le lt h.next), h.node r' lt]
    split
    · rfl
    · rfl
  · intro k
    rw [next.find]
    split
    · rfl
    · next ne =>
      rw [same] at ne
      rw [h.find, if_neg ne]
  · intro k ne ne'
    rw [next.ref k ne ne', h.ref k (same ▸ ne)]
  · exact fun r' stored ↦ Nat.le_trans h.next (next.copied r' stored)
  · rw [next.requested, h.rest]
  · rw [next.preDroppedPs, h.rest]
  · rw [next.migratedPsNodes, h.rest]
  · rw [next.count, h.rest]
  · rw [next.history.1, next.history.2.1, next.history.2.2, h.rest]
    exact ⟨rfl, rfl, rfl⟩

theorem setNode_self : m.setNode r (m.node r) = m := by
  unfold setNode ObjectTable.set node
  rw [Function.update_eq_self]

/-- A copy of an object is stored, without a change. -/
theorem WellFormed.rewrittenStored (wf : m.WellFormed) (r : Nat) :
    Rewritten m (m.updateNode r) r (m.node r) := by
  have rewritten := wf.rewritten (r := r) (n := m.node r) rfl
  rwa [setNode_self] at rewritten

/-- The node that is stored is relaunched, without a change before. -/
theorem WellFormed.relaunchedStored (wf : m.WellFormed) (stored : m.nodes.ref? id = some r) :
    Relaunched m (m.relaunchNode r) r (m.node r) m.nextNodeId := by
  have relaunched := wf.relaunched (c := m.node r) (wf.nodes.used stored) rfl (by
    rw [wf.keyed stored, stored]
    exact Option.some_ne_none _)
  rwa [setNode_self] at relaunched

/-! ### Events -/

open DistributedJobManager (Follows eventNode key_countRelaunch)

theorem countRelaunch_unchanged (env : Env) (node : Node) :
    (countRelaunch env node).id = node.id ∧
      (countRelaunch env node).rankIndex = node.rankIndex := by
  unfold countRelaunch
  split <;> exact ⟨rfl, rfl⟩

/-- What an event does: nothing, or it updates its node, or it stores the status as well, or the
node is relaunched on top of that. -/
inductive EventEffect (m : ParameterServerManager) (env : Env) (e : NodeEvent) :
    ParameterServerManager → Prop where
  | ignored (h : e.skipped env ∨ m.nodes.ref? e.node.id = none) : EventEffect m env e m
  | updated {m' : ParameterServerManager} (r : Nat) (stored : m.nodes.ref? e.node.id = some r)
      (unskipped : ¬ e.skipped env) (quiet : ∀ flow, ¬ Follows env e (m.node r) flow)
      (rewritten : Rewritten m m' r ((m.node r).updateInfo e.node)) : EventEffect m env e m'
  | followed {m' : ParameterServerManager} (r : Nat) (flow : NodeStateFlow)
      (stored : m.nodes.ref? e.node.id = some r) (follows : Follows env e (m.node r) flow)
      (rewritten : Rewritten m m' r (eventNode (m.node r) e)) : EventEffect m env e m'
  | relaunched {m' : ParameterServerManager} (r new : Nat) (flow : NodeStateFlow)
      (stored : m.nodes.ref? e.node.id = some r) (follows : Follows env e (m.node r) flow)
      (relaunched : Relaunched m m' r (countRelaunch env (eventNode (m.node r) e)) new) :
    EventEffect m env e m'

theorem WellFormed.processEvent_effect (wf : m.WellFormed) (env : Env) (e : NodeEvent) :
    EventEffect m env e (m.processEvent env e) := by
  unfold processEvent
  split
  · next skipped => exact .ignored (.inl skipped)
  · next unskipped =>
    split
    · next absent => exact .ignored (.inr absent)
    · next r stored =>
      have lt := wf.nodes.used stored
      have updated : Rewritten m
          ((m.setNode r ((m.node r).updateInfo e.node)).updateNode r) r
          ((m.node r).updateInfo e.node) := wf.rewritten rfl
      generalize (m.setNode r ((m.node r).updateInfo e.node)).updateNode r = m' at updated ⊢
      have node : m'.node r = (m.node r).updateInfo e.node := (updated.node r lt).trans (if_pos rfl)
      dsimp only
      split
      · next exit => exact .updated r stored unskipped (fun flow h ↦ h.ne_exit exit) updated
      · rw [node, Node.status_updateInfo]
        split
        · next flow found =>
          unfold followFlow
          split
          · next succeeded =>
            refine .updated r stored unskipped (fun flow' h ↦ ?_) updated
            cases h.found.symm.trans found
            exact h.fromStatus succeeded
          · next fromStatus =>
            have follows : Follows env e (m.node r) flow := ⟨unskipped, found, fromStatus⟩
            rw [node]
            have followed : Rewritten m ((m'.setNode r
                { (m.node r).updateInfo e.node with
                  status := e.node.status
                  exitReason := e.node.exitReason }).updateNode r) r (eventNode (m.node r) e) :=
              updated.again lt rfl
            dsimp only
            generalize (m'.setNode r _).updateNode r = mid at followed ⊢
            have node : mid.node r = eventNode (m.node r) e :=
              (followed.node r lt).trans (if_pos rfl)
            rw [node]
            split
            · have same : (countRelaunch env (eventNode (m.node r) e)).id =
                  (eventNode (m.node r) e).id :=
                congrArg Prod.snd (key_countRelaunch env _)
              have relaunched := followed.wellFormed.relaunched
                (Nat.lt_of_lt_of_le lt followed.next) (same.trans (by rw [node]))
                (same ▸ followed.ref_ne_none)
              exact .relaunched r _ flow stored follows (followed.relaunched same relaunched)
            · exact .followed r flow stored follows followed
        · next none_found =>
          exact .updated r stored unskipped (fun flow h ↦ none_found flow h.found) updated

/-! ### The training cluster -/

/-- Only the lists of the cluster change. -/
theorem loadTrainingPsCluster_eq (m : ParameterServerManager) : ∃ training next,
    m.loadTrainingPsCluster =
      { m with trainingPsCluster := training, nextTrainingPsCluster := next } := by
  unfold loadTrainingPsCluster
  split
  · exact ⟨_, _, rfl⟩
  · exact ⟨m.trainingPsCluster, m.nextTrainingPsCluster, rfl⟩

/-! ### Dropping migrated servers -/

theorem WellFormed.mem_alivePs (wf : m.WellFormed) : r ∈ m.alivePs ↔
    m.nodes.ref? (m.node r).id = some r ∧ (m.node r).status = .running ∧
      (m.node r).isReleased = false := by
  unfold alivePs Dict.values
  rw [List.mem_filter, List.mem_map, decide_eq_true_eq]
  constructor
  · rintro ⟨⟨⟨id, r'⟩, mem, rfl⟩, alive⟩
    have stored : m.nodes.ref? id = some r' := Dict.get?_eq_some_iff.mpr mem
    exact ⟨by rwa [wf.keyed stored], alive⟩
  · rintro ⟨stored, alive⟩
    exact ⟨⟨_, Dict.get?_eq_some_iff.mp stored, rfl⟩, alive⟩

theorem WellFormed.alivePs_nodup (wf : m.WellFormed) : m.alivePs.Nodup := by
  unfold alivePs Dict.values
  refine (List.Nodup.map_on ?_ m.nodes.table.items_nodup).filter _
  rintro ⟨id, r⟩ mem ⟨id', r'⟩ mem' rfl
  have same := wf.nodes.distinct (Dict.get?_eq_some_iff.mpr mem) (Dict.get?_eq_some_iff.mpr mem')
  cases same
  rfl

/-- What `_pre_drop_migrated_ps` does with some of the alive servers: nodes are marked as migrated,
and alive servers that were migrated are put into the list. -/
structure PreDropped (m : ParameterServerManager) (l : List Nat) (m' : ParameterServerManager) :
    Prop where
  wellFormed : m'.WellFormed
  next : m.nodes.next ≤ m'.nodes.next
  node : ∀ r < m.nodes.next, ∃ b, m'.node r = { m.node r with migrated := b }
  find : ∀ id n', m'.nodes.find? id = some n' →
    ∃ n b, m.nodes.find? id = some n ∧ n' = { n with migrated := b }
  found : ∀ id n, m.nodes.find? id = some n →
    ∃ b, m'.nodes.find? id = some { n with migrated := b }
  kept : ∀ id, m.nodes.Kept m.preDroppedPs id → m'.nodes.Kept m'.preDroppedPs id
  listed : ∀ r, r ∈ m'.preDroppedPs ↔
    r ∈ m.preDroppedPs ∨ r ∈ l ∧ (m.node r).id ∈ m.migratedPsNodes
  rest : m' = { m with nodes := m'.nodes, preDroppedPs := m'.preDroppedPs }

theorem PreDropped.refl (wf : m.WellFormed) : PreDropped m [] m where
  wellFormed := wf
  next := Nat.le_refl _
  node r _ := ⟨(m.node r).migrated, rfl⟩
  find _ n found := ⟨n, n.migrated, found, rfl⟩
  found _ n found := ⟨n.migrated, found⟩
  kept _ kept := kept
  listed r := by simp
  rest := rfl

/-- One more server. -/
theorem PreDropped.snoc {l : List Nat} {mid : ParameterServerManager} (h : PreDropped m l mid)
    (lt : r < m.nodes.next) (one : PreDropped mid [r] m') : PreDropped m (l ++ [r]) m' where
  wellFormed := one.wellFormed
  next := Nat.le_trans h.next one.next
  node r' lt' := by
    rcases h.node r' lt' with ⟨b, eq⟩
    rcases one.node r' (Nat.lt_of_lt_of_le lt' h.next) with ⟨b', eq'⟩
    exact ⟨b', by rw [eq', eq]⟩
  find k n' found := by
    rcases one.find k n' found with ⟨n₁, b, before, rfl⟩
    rcases h.find k n₁ before with ⟨n, b', start, rfl⟩
    exact ⟨n, b, start, rfl⟩
  found k n found := by
    rcases h.found k n found with ⟨b, found⟩
    rcases one.found k _ found with ⟨b', found⟩
    exact ⟨b', found⟩
  kept k kept := one.kept k (h.kept k kept)
  listed r' := by
    rw [one.listed, h.listed, List.mem_append]
    have migrated : mid.migratedPsNodes = m.migratedPsNodes := by rw [h.rest]
    rcases h.node r lt with ⟨b, eq⟩
    have same : (mid.node r).id = (m.node r).id := by rw [eq]
    constructor
    · rintro ((dropped | ⟨mem, key⟩) | ⟨mem, key⟩)
      · exact .inl dropped
      · exact .inr ⟨.inl mem, key⟩
      · rw [List.mem_singleton.mp mem, migrated, same] at key
        exact .inr ⟨.inr mem, by rwa [List.mem_singleton.mp mem]⟩
    · rintro (dropped | ⟨mem | mem, key⟩)
      · exact .inl (.inl dropped)
      · exact .inl (.inr ⟨mem, key⟩)
      · refine .inr ⟨mem, ?_⟩
        rw [List.mem_singleton.mp mem] at key ⊢
        rwa [migrated, same]
  rest := by rw [one.rest, h.rest]

/-- An alive server is marked as migrated and put into the list. -/
theorem Rewritten.preDropped (wf : m.WellFormed)
    (marked : Rewritten m m' r { m.node r with migrated := true })
    (stored : m.nodes.ref? (m.node r).id = some r) (new : r ∉ m.preDroppedPs)
    (migrated : (m.node r).id ∈ m.migratedPsNodes) :
    PreDropped m [r] { m' with preDroppedPs := m'.preDroppedPs ++ [r] } := by
  have lt := wf.nodes.used stored
  have dropped : m'.preDroppedPs = m.preDroppedPs := by rw [marked.rest]
  have node_r : m'.node r = { m.node r with migrated := true } :=
    (marked.node r lt).trans (if_pos rfl)
  have found_r : m.nodes.find? (m.node r).id = some (m.node r) := WellFormed.find?_of_ref stored
  have known : m'.nodes.ref? (m'.node r).id ≠ none := by
    rw [node_r]
    exact marked.ref_ne_none
  constructor
  · refine marked.wellFormed.congr rfl (fun r' mem ↦ ?_) marked.wellFormed.migrated
    rcases List.mem_append.mp mem with mem | mem
    · exact marked.wellFormed.dropped r' mem
    · rw [List.mem_singleton.mp mem]
      exact ⟨Nat.lt_of_lt_of_le lt marked.next, known⟩
  · exact marked.next
  · intro r' lt'
    show ∃ b, m'.node r' = _
    rw [marked.node r' lt']
    split
    · next eq => exact ⟨true, by rw [eq]⟩
    · exact ⟨(m.node r').migrated, rfl⟩
  · intro k n' found
    have found : m'.nodes.find? k = some n' := found
    rw [marked.find] at found
    split at found
    · next eq =>
      cases found
      exact ⟨m.node r, true, by rw [eq]; exact found_r, rfl⟩
    · exact ⟨n', n'.migrated, found, rfl⟩
  · intro k n found
    show ∃ b, m'.nodes.find? k = _
    rw [marked.find]
    split
    · next eq =>
      rw [eq] at found
      cases found_r.symm.trans found
      exact ⟨true, rfl⟩
    · exact ⟨n.migrated, found⟩
  · rintro k ⟨r', mem, stored'⟩
    have ne : k ≠ (m.node r).id := by
      rintro rfl
      cases stored.symm.trans stored'
      exact new mem
    refine ⟨r', ?_, (marked.ref k ne).trans stored'⟩
    show r' ∈ m'.preDroppedPs ++ [r]
    rw [dropped]
    exact List.mem_append_left _ mem
  · intro r'
    show r' ∈ m'.preDroppedPs ++ [r] ↔ _
    rw [dropped, List.mem_append]
    refine or_congr_right ⟨fun mem ↦ ⟨mem, ?_⟩, And.left⟩
    rwa [List.mem_singleton.mp mem]
  · rw [marked.rest]

/-- The other servers stay alive. -/
theorem Rewritten.mem_alivePs {r' : Nat} (h : Rewritten m m' r n) (wf : m.WellFormed)
    (stored : m.nodes.ref? n.id = some r) (alive : r' ∈ m.alivePs) (ne : r' ≠ r) :
    r' ∈ m'.alivePs := by
  rcases wf.mem_alivePs.mp alive with ⟨stored', runs⟩
  have other : (m.node r').id ≠ n.id := by
    intro eq
    rw [eq, stored] at stored'
    cases stored'
    exact ne rfl
  rw [h.wellFormed.mem_alivePs, h.node r' (wf.nodes.used stored'), if_neg ne, h.ref _ other]
  exact ⟨stored', runs⟩

theorem WellFormed.preDropServer (wf : m.WellFormed) (alive : r ∈ m.alivePs) :
    PreDropped m [r] (m.preDropServer r) ∧
      ∀ r' ∈ m.alivePs, r' ≠ r → r' ∈ (m.preDropServer r).alivePs := by
  rcases wf.mem_alivePs.mp alive with ⟨stored, running, unreleased⟩
  unfold ParameterServerManager.preDropServer
  split
  · next drop =>
    have marked := wf.rewritten (r := r) (n := { m.node r with migrated := true }) rfl
    exact ⟨marked.preDropped wf stored drop.2.2 drop.1,
      fun r' mem ne ↦ marked.mem_alivePs wf stored mem ne⟩
  · next keep =>
    refine ⟨?_, fun r' mem _ ↦ mem⟩
    have none := PreDropped.refl wf
    refine { none with listed := fun r' ↦ ⟨.inl, ?_⟩ }
    rintro (mem | ⟨mem, key⟩)
    · exact mem
    · rw [List.mem_singleton.mp mem] at key ⊢
      by_contra absent
      exact keep ⟨key, running, absent⟩

/-- The servers that are alive are gone through in turn. -/
theorem WellFormed.preDropServers (wf : m.WellFormed) :
    PreDropped m m.alivePs (m.alivePs.foldl ParameterServerManager.preDropServer m) := by
  have fold : ∀ (l done : List Nat) (mid : ParameterServerManager), PreDropped m done mid →
      (∀ r ∈ l, r ∈ m.alivePs ∧ r ∈ mid.alivePs) → l.Nodup →
      PreDropped m (done ++ l) (l.foldl ParameterServerManager.preDropServer mid) := by
    intro l
    induction l with
    | nil =>
      intro done mid h _ _
      rwa [List.append_nil]
    | cons r l ih =>
      intro done mid h alive nodup
      rcases List.nodup_cons.mp nodup with ⟨new, nodup⟩
      rcases alive r List.mem_cons_self with ⟨first, here⟩
      have lt := wf.nodes.used (wf.mem_alivePs.mp first).1
      rcases h.wellFormed.preDropServer here with ⟨one, others⟩
      have rest := ih (done ++ [r]) _ (h.snoc lt one) (fun r' mem ↦ ?_) nodup
      · rwa [List.append_assoc] at rest
      · rcases alive r' (List.mem_cons_of_mem _ mem) with ⟨start, now⟩
        refine ⟨start, others r' now ?_⟩
        rintro rfl
        exact new mem
  have all := fold m.alivePs [] m (.refl wf) (fun r mem ↦ ⟨mem, mem⟩) wf.alivePs_nodup
  exact all

/-- What `_pre_drop_migrated_ps` does: nothing while one of the nodes that are kept of the new
servers does not run. -/
theorem WellFormed.preDropMigratedPs (wf : m.WellFormed) :
    (∃ r ∈ m.migratedPsNodes.values, (m.node r).status ≠ .running) ∧
      m.preDropMigratedPs m.alivePs = m ∧ PreDropped m [] m ∨
    PreDropped m m.alivePs (m.preDropMigratedPs m.alivePs) := by
  unfold ParameterServerManager.preDropMigratedPs
  split
  · next waits => exact .inl ⟨waits, rfl, .refl wf⟩
  · exact .inr wf.preDropServers

/-- What it does in either case. -/
theorem WellFormed.preDropped (wf : m.WellFormed) :
    ∃ l, (∀ r ∈ l, r ∈ m.alivePs) ∧ PreDropped m l (m.preDropMigratedPs m.alivePs) := by
  rcases wf.preDropMigratedPs with ⟨-, eq, none⟩ | all
  · rw [eq]
    exact ⟨[], fun _ mem ↦ absurd mem List.not_mem_nil, none⟩
  · exact ⟨m.alivePs, fun _ mem ↦ mem, all⟩

/-- While all the objects that are kept of the new servers run, every alive server that was migrated
is dropped. -/
theorem WellFormed.preDropped_of_running (wf : m.WellFormed)
    (running : ∀ r ∈ m.migratedPsNodes.values, (m.node r).status = .running) :
    PreDropped m m.alivePs (m.preDropMigratedPs m.alivePs) := by
  rcases wf.preDropMigratedPs with ⟨⟨r, mem, stopped⟩, -, -⟩ | dropped
  · exact absurd (running r mem) stopped
  · exact dropped

theorem PreDropped.node_id {l : List Nat} (h : PreDropped m l m') (lt : r < m.nodes.next) :
    (m'.node r).id = (m.node r).id := by
  rcases h.node r lt with ⟨b, eq⟩
  rw [eq]

/-- The server waits to be removed. -/
def Waits (m : ParameterServerManager) (id : Nat) : Prop :=
  ∃ r ∈ m.preDroppedPs, (m.node r).id = id

theorem PreDropped.waits {l : List Nat} (h : PreDropped m l m') (wf : m.WellFormed)
    (waits : m.Waits id) : m'.Waits id := by
  rcases waits with ⟨r, mem, rfl⟩
  exact ⟨r, (h.listed r).mpr (.inl mem), h.node_id (wf.used r mem)⟩

/-- The servers of a new cluster are alive and not to be dropped. -/
theorem mem_nonMigratedPs (mem : r ∈ m.nonMigratedPs) :
    r ∈ m.alivePs ∧ r ∉ (m.preDropMigratedPs m.alivePs).preDroppedPs := by
  unfold nonMigratedPs at mem
  dsimp only at mem
  rcases List.mem_map.mp mem with ⟨e, sorted, rfl⟩
  have server := Dict.mem_items_ofItems ((List.mem_insertionSort _).mp sorted)
  rcases List.mem_map.mp server with ⟨r', listed, rfl⟩
  rcases List.mem_filter.mp listed with ⟨alive, free⟩
  exact ⟨alive, of_decide_eq_true free⟩

/-! ### Removing servers -/

/-- What `process_after_ps_cluster_ready` does with some of the servers to be dropped: their ids
have nodes that are released. -/
structure Removed (m : ParameterServerManager) (l : List Nat) (m' : ParameterServerManager) :
    Prop where
  wellFormed : m'.WellFormed
  next : m.nodes.next ≤ m'.nodes.next
  ids : ∀ r < m.nodes.next, (m'.node r).id = (m.node r).id
  find : ∀ k n', m'.nodes.find? k = some n' →
    (∃ r ∈ l, (m.node r).id = k) ∧ n'.isReleased = true ∨
      (∀ r ∈ l, (m.node r).id ≠ k) ∧ m.nodes.find? k = some n'
  found : ∀ k n, (∀ r ∈ l, (m.node r).id ≠ k) → m.nodes.find? k = some n →
    m'.nodes.find? k = some n
  migrated : ∀ k ∈ m'.migratedPsNodes, k ∈ m.migratedPsNodes
  rest : m' = { m with nodes := m'.nodes, migratedPsNodes := m'.migratedPsNodes }

theorem Removed.snoc {l : List Nat} {mid : ParameterServerManager} (h : Removed m l mid)
    (lt : r < m.nodes.next) : Removed m (l ++ [r]) (mid.removeServer r) := by
  unfold removeServer
  generalize left_eq : ({ mid.node r with
    critical := false, relaunchable := false, isReleased := true } : Node) = left
  have left_id : left.id = (mid.node r).id := by rw [← left_eq]
  have released : left.isReleased = true := by rw [← left_eq]
  have id : left.id = (m.node r).id := left_id.trans (h.ids r lt)
  have one := h.wellFormed.rewritten left_id
  dsimp only
  generalize (mid.setNode r left).updateNode r = last at one ⊢
  have migrated : last.migratedPsNodes = mid.migratedPsNodes := by rw [one.rest]
  constructor
  · refine one.wellFormed.congr rfl one.wellFormed.dropped fun k mem ↦ ?_
    exact one.wellFormed.migrated k (Dict.mem_erase.mp mem).1
  · exact Nat.le_trans h.next one.next
  · intro r' lt'
    show (last.node r').id = _
    rw [one.node r' (Nat.lt_of_lt_of_le lt' h.next)]
    split
    · next eq => rw [eq, id]
    · exact h.ids r' lt'
  · intro k n' found
    have found : last.nodes.find? k = some n' := found
    rw [one.find] at found
    split at found
    · next eq =>
      cases found
      exact .inl ⟨⟨r, List.mem_append_right _ List.mem_cons_self, id.symm.trans eq.symm⟩, released⟩
    · next ne =>
      rcases h.find k n' found with ⟨⟨r', mem, eq⟩, rel⟩ | ⟨other, before⟩
      · exact .inl ⟨⟨r', List.mem_append_left _ mem, eq⟩, rel⟩
      · refine .inr ⟨fun r' mem ↦ ?_, before⟩
        rcases List.mem_append.mp mem with mem | mem
        · exact other r' mem
        · rw [List.mem_singleton.mp mem, ← id]
          exact fun eq ↦ ne eq.symm
  · intro k n other found
    show last.nodes.find? k = some n
    rw [one.find, if_neg]
    · exact h.found k n (fun r' mem ↦ other r' (List.mem_append_left _ mem)) found
    · intro eq
      exact other r (List.mem_append_right _ List.mem_cons_self) (id.symm.trans eq.symm)
  · intro k mem
    apply h.migrated k
    rw [← migrated]
    exact (Dict.mem_erase.mp mem).1
  · rw [one.rest, h.rest]

theorem WellFormed.removeServers (wf : m.WellFormed) (l : List Nat)
    (used : ∀ r ∈ l, r < m.nodes.next) :
    Removed m l (l.foldl removeServer m) := by
  have fold : ∀ (l done : List Nat) (mid : ParameterServerManager), Removed m done mid →
      (∀ r ∈ l, r < m.nodes.next) → Removed m (done ++ l) (l.foldl removeServer mid) := by
    intro l
    induction l with
    | nil =>
      intro done mid h _
      rwa [List.append_nil]
    | cons r l ih =>
      intro done mid h used
      have rest := ih (done ++ [r]) _ (h.snoc (used r List.mem_cons_self))
        fun r' mem ↦ used r' (List.mem_cons_of_mem _ mem)
      rwa [List.append_assoc] at rest
  refine fold l [] m ⟨wf, Nat.le_refl _, fun _ _ ↦ rfl, fun k n found ↦ .inr ⟨?_, found⟩,
    fun _ _ _ found ↦ found, fun _ mem ↦ mem, rfl⟩ used
  exact fun _ mem ↦ absurd mem List.not_mem_nil

/-- What `process_after_ps_cluster_ready` does: the servers that wait are released, and the new plan
removes them. -/
structure Processed (m m' : ParameterServerManager) : Prop where
  wellFormed : m'.WellFormed
  find : ∀ id n, m'.nodes.find? id = some n →
    m.Waits id ∧ n.isReleased = true ∨ ¬ m.Waits id ∧ m.nodes.find? id = some n
  found : ∀ id n, ¬ m.Waits id → m.nodes.find? id = some n → m'.nodes.find? id = some n
  preDroppedPs : m'.preDroppedPs = []
  migrated : ∀ id ∈ m'.migratedPsNodes, id ∈ m.migratedPsNodes
  removeNodes : ∃ plan, m'.removeNodes = plan :: m.removeNodes ∧ ∀ id, id ∈ plan ↔ m.Waits id
  kept : m'.requested = m.requested ∧ m'.count = m.count
  history : m'.chosen = m.chosen ∧ m'.replaced = m.replaced

theorem WellFormed.processed (wf : m.WellFormed) : Processed m m.processAfterPsClusterReady := by
  unfold processAfterPsClusterReady
  dsimp only
  generalize start_eq : ({ m with
    psClusterChanged := false
    trainingPsCluster := m.nextTrainingPsCluster
    removeNodes := (m.preDroppedPs.reverse.map fun r ↦ (m.node r).id) :: m.removeNodes } :
    ParameterServerManager) = start
  have wf_start : start.WellFormed := start_eq ▸ wf.congr rfl wf.dropped wf.migrated
  have waits : ∀ {id}, m.Waits id ↔ ∃ r ∈ m.preDroppedPs.reverse, (start.node r).id = id := by
    intro id
    rw [← start_eq]
    exact exists_congr fun r ↦ and_congr_left' List.mem_reverse.symm
  have removed := wf_start.removeServers m.preDroppedPs.reverse fun r mem ↦ by
    rw [← start_eq]
    exact wf.used r (List.mem_reverse.mp mem)
  generalize m.preDroppedPs.reverse.foldl removeServer start = last at removed ⊢
  have free : ∀ {id}, ¬ m.Waits id → ∀ r ∈ m.preDroppedPs.reverse, (start.node r).id ≠ id :=
    fun {id} free r mem eq ↦ free (waits.mpr ⟨r, mem, eq⟩)
  have nodes : start.nodes = m.nodes := by rw [← start_eq]
  constructor
  · exact removed.wellFormed.congr rfl (fun r mem ↦ absurd mem List.not_mem_nil)
      removed.wellFormed.migrated
  · intro id n found
    rcases removed.find id n found with ⟨waiting, released⟩ | ⟨other, before⟩
    · exact .inl ⟨waits.mpr waiting, released⟩
    · refine .inr ⟨fun waiting ↦ ?_, nodes ▸ before⟩
      rcases waits.mp waiting with ⟨r, mem, eq⟩
      exact other r mem eq
  · intro id n waiting found
    exact removed.found id n (free waiting) (nodes ▸ found)
  · rfl
  · intro id mem
    have before := removed.migrated id mem
    rwa [← start_eq] at before
  · refine ⟨m.preDroppedPs.reverse.map fun r ↦ (m.node r).id, ?_, fun id ↦ ?_⟩
    · rw [removed.rest, ← start_eq]
    · rw [waits, ← start_eq]
      exact List.mem_map
  · rw [removed.rest, ← start_eq]
    exact ⟨rfl, rfl⟩
  · rw [removed.rest, ← start_eq]
    exact ⟨rfl, rfl⟩

/-! ### The start of a job -/

/-- Server `k` is object `k`. -/
theorem init_nodes (maxRelaunchCount count : Nat) :
    (init maxRelaunchCount count).nodes.WellFormed ∧
      (init maxRelaunchCount count).nodes.next = count ∧
      (∀ k, (init maxRelaunchCount count).nodes.ref? k = if k < count then some k else none) ∧
      ∀ k < count, (init maxRelaunchCount count).node k =
        { type := .ps, id := k, rankIndex := k, maxRelaunchCount } := by
  induction count with
  | zero =>
    refine ⟨⟨fun stored ↦ ?_, fun stored ↦ ?_⟩, rfl, fun k ↦ rfl, fun k lt ↦ ?_⟩
    · cases stored
    · cases stored
    · exact absurd lt (Nat.not_lt_zero k)
  | succ count ih =>
    rcases ih with ⟨wf, next, ref, node⟩
    have succ : (init maxRelaunchCount (count + 1)).nodes =
        (init maxRelaunchCount count).nodes.add count
          { type := .ps, id := count, rankIndex := count, maxRelaunchCount } := by
      unfold init
      dsimp only
      rw [List.range_succ, List.foldl_append]
      rfl
    refine ⟨succ ▸ wf.add, ?_, fun k ↦ ?_, fun k lt ↦ ?_⟩
    · rw [succ, ObjectTable.next_add, next]
    · rw [succ, ObjectTable.ref?_add, ref, next]
      split
      · next eq => rw [eq, if_pos (Nat.lt_succ_self _)]
      · next ne =>
        have iff : k < count ↔ k < count + 1 := by omega
        simp only [iff]
    · unfold ParameterServerManager.node
      rw [succ]
      by_cases eq : k = count
      · rw [eq]
        have last := ObjectTable.object_add_next (t := (init maxRelaunchCount count).nodes)
          (k := count)
          (a := ({ type := .ps, id := count, rankIndex := count, maxRelaunchCount } : Node))
        rwa [next] at last
      · have lt' : k < count := Nat.lt_of_le_of_ne (Nat.le_of_lt_succ lt) eq
        rw [ObjectTable.object_add_of_lt (by rw [next]; exact lt')]
        exact node k lt'

theorem init_wellFormed (maxRelaunchCount count : Nat) :
    (init maxRelaunchCount count).WellFormed := by
  rcases init_nodes maxRelaunchCount count with ⟨wf, -, ref, node⟩
  constructor
  · exact wf
  · intro id r stored
    rw [ref] at stored
    split at stored
    · next lt =>
      cases stored
      rw [node id lt]
    · cases stored
  · exact fun r mem ↦ absurd mem List.not_mem_nil
  · exact fun id mem ↦ absurd mem (Dict.not_mem_empty id)

/-! ### Runs -/

/-- A pod event as `PodWatcher` makes it: no pod is released. -/
def PodAction : Action → Prop
  | .event _ e => e.node.isReleased = false
  | _ => True

/-- The manager after some steps. -/
def play (m : ParameterServerManager) (as : List Action) : ParameterServerManager :=
  as.foldl (fun m a ↦ (m.step a).getD m) m

/-- Steps whose conditions are met in turn. -/
theorem run_play {ok : ParameterServerManager → Action → Prop} {as : List Action}
    (meets : FoldMeets (fun m a ↦ (m.step a).getD m) ok m as) : Run step ok m as (m.play as) := by
  induction as generalizing m with
  | nil => exact .nil
  | cons a as ih =>
    have taken : m.step a = some ((m.step a).getD m) := by cases a <;> rfl
    exact .cons a meets.1 taken (ih meets.2)

/-- A pod event of a server. -/
def serverEvent (id : Nat) (status : NodeStatus) : NodeEvent :=
  ⟨.modified, { type := .ps, id, rankIndex := 0, status, maxRelaunchCount := 3 }⟩

end ParameterServerManager

end ProbingBaselines.Dlrover.JobManager
