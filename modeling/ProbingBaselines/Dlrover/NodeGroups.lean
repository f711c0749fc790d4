import ProbingBaselines.Dlrover.StatusTransitions

/-!
# The node groups

`_job_node_groups` keeps one node for each rank of a group. Every update of a node writes it there,
so that a late event of a node that was replaced, and the relaunch itself, put the old node in the
place of the new one.
-/

namespace ProbingBaselines.Dlrover.JobManager

open Lib

namespace DistributedJobManager

variable {m m' s t : DistributedJobManager} {n node old : Node} {k : NodeType × Nat}
  {group : Int} {rank : Nat}

/-- The node that is kept for a rank of a group. -/
def groupNode? (m : DistributedJobManager) (group : Int) (rank : Nat) : Option Node :=
  m.jobNodeGroups.get? (group, rank)

/-- A node that is stored in a group, under a rank. -/
structure InGroup (m : DistributedJobManager) (group : Int) (rank : Nat) (n : Node) : Prop where
  stored : m.node? n.key = some n
  hasGroup : n.hasGroup
  group : n.group = some group
  rank : n.rankIndex = rank

/-- For each rank of a group the newest node is kept. -/
structure GroupsNewest (m : DistributedJobManager) : Prop where
  known : ∀ {group rank e}, m.groupNode? group rank = some e →
    ∃ n, m.InGroup group rank n ∧ n.key = e.key
  newest : ∀ {group rank n}, m.InGroup group rank n →
    ∃ e, m.groupNode? group rank = some e ∧ n.id ≤ e.id

/-- Groups are for workers, the node that is kept for a rank has that rank, and it is the newest. -/
structure Grouped (m : DistributedJobManager) : Prop where
  wellFormed : m.WellFormed
  workers : ∀ {group rank n}, m.InGroup group rank n → n.type = .worker
  own : ∀ {group rank e}, m.groupNode? group rank = some e →
    e.hasGroup ∧ e.group = some group ∧ e.rankIndex = rank
  newest : m.GroupsNewest

/-- The steps that are looked at here. -/
def GroupAction : Action → Prop
  | .event .. | .listNodes .. | .noHeartbeat .. | .nodeAction .. | .trainingFailure ..
  | .groupPending .. => True
  | _ => False

/-- An event of a node in a group: the node is the newest of its rank, and is not relaunched. -/
def NewestEvent (m : DistributedJobManager) (env : Env) (e : NodeEvent) : Prop :=
  ∀ n group, m.node? e.node.key = some n → n.hasGroup → n.group = some group → ¬ e.skipped env →
    (∀ n', m.InGroup group n.rankIndex n' → n'.id ≤ n.id) ∧
      ∀ flow, Follows env e n flow → shouldRelaunch env (eventNode n e) flow = false

/-- A group that can be relaunched: its new index is new, and none of its workers has exited without
being released. -/
structure GroupRelaunchKeeps (m : DistributedJobManager) (group : Int) : Prop where
  fresh : ∀ rank n, ¬ m.InGroup (m.maxGroupIdx + 1) rank n
  running : ∀ n ∈ m.jobNodeGroup group, n.type = .worker → n.isReleased = true ∨ ¬ n.exited

/-- The state in which the event for a listed pod is processed. -/
def listedNode (m : DistributedJobManager) (pod : Node) : DistributedJobManager :=
  let m :=
    if pod.key ∉ m.jobNodes ∧ pod.status ≠ .deleted then m.updateNode pod else m
  match m.node? pod.key with
  | some node =>
    if pod.type = NodeType.worker ∧ node.group ≠ pod.group then
      m.updateJobNode { node with group := pod.group, groupSize := pod.groupSize }
    else m
  | none => m

/-- The event for a listed pod. -/
def listedEvent (pod : Node) : NodeEvent :=
  { eventType := if pod.status = .deleted then .deleted else .modified, node := pod }

/-- A listed pod: in a group, a new node is a worker and the newest of its rank, and a node whose
group changes had none and gets an event that is not skipped. -/
structure ListedKeeps (m : DistributedJobManager) (env : Env) (pod : Node) : Prop where
  added : pod.key ∉ m.jobNodes → pod.status ≠ .deleted → ∀ group, pod.hasGroup →
    pod.group = some group → pod.type = .worker ∧
      ∀ n', m.InGroup group pod.rankIndex n' → n'.id ≤ pod.id
  changed : ∀ n, m.node? pod.key = some n → pod.type = .worker → n.group ≠ pod.group →
    ¬ n.hasGroup ∧ (pod.hasGroup → ¬ (listedEvent pod).skipped env)
  event : (m.listedNode pod).NewestEvent env (listedEvent pod)

/-- A list whose pods, and the events for the nodes it does not have, are such in their turn. -/
def ListKeeps (m : DistributedJobManager) (env : Nat → Env) (pods : List Node) : Prop :=
  let known := pods.takeWhile fun pod ↦ pod.type ∈ m.types
  FoldMeets (fun m pod ↦ m.processListNode (env pod.2) pod.1)
    (fun m pod ↦ m.ListedKeeps (env pod.2) pod.1) m known.zipIdx ∧
  let m := known.zipIdx.foldl (fun m pod ↦ m.processListNode (env pod.2) pod.1) m
  let events := m.types.flatMap fun type ↦ (m.nodesOf type).flatMap (lostEvents pods)
  (¬ known.length < pods.length →
    FoldMeets (fun m e ↦ m.processEvent (env (pods.length + e.2)) e.1)
      (fun m e ↦ m.NewestEvent (env (pods.length + e.2)) e.1) m events.zipIdx)

/-- The steps that keep the newest node of each rank. -/
def GroupKeeps (m : DistributedJobManager) : Action → Prop
  | .event env e => m.NewestEvent env e
  | .listNodes env pods => m.ListKeeps env pods
  | .noHeartbeat env key => ∀ n, m.node? key = some n → n.status = .running →
    m.NewestEvent env ⟨.deleted, { n with status := .failed, exitReason := .noHeartbeat }⟩
  | .nodeAction env type id => ∀ n, m.node? (m.preprocess type, id) = some n →
    m.NewestEvent env ⟨.deleted, { n with status := .failed, exitReason := .diagFail }⟩
  | .trainingFailure _ type id _ level => ∀ n, m.node? (m.preprocess type, id) = some n →
    n.hasGroup → n.isReleased = false → ¬ (processError level ∧ n.relaunchable)
  | .groupPending env group => m.shouldRelaunchNodeGroup env group = true →
    m.GroupRelaunchKeeps group
  | _ => False

/-! ### Storing a node -/

theorem updateNode_grouped (hasGroup : n.hasGroup) (eq : n.group = some group) :
    m.updateNode n = (m.updateJobNode n).updateJobNodeByGroup n group := by
  unfold updateNode
  rw [eq]
  exact if_pos hasGroup

theorem groupNode?_updateNode (hasGroup : n.hasGroup) (eq : n.group = some group) {g : Int}
    {r : Nat} : (m.updateNode n).groupNode? g r =
      if (g, r) = (group, n.rankIndex) then some n else m.groupNode? g r := by
  rw [updateNode_grouped hasGroup eq]
  exact Dict.get?_insert

theorem groupNode?_updateNode_of_not (none : ¬ n.hasGroup) {g : Int} {r : Nat} :
    (m.updateNode n).groupNode? g r = m.groupNode? g r := by
  unfold updateNode
  split
  · rw [if_neg none]
    rfl
  · rfl

/-- The nodes of a group once `n` is stored. -/
theorem inGroup_updateNode_cases {g : Int} {r : Nat} {n' : Node}
    (inside : (m.updateNode n).InGroup g r n') : n' = n ∨ n'.key ≠ n.key ∧ m.InGroup g r n' := by
  have stored := inside.stored
  rw [node?_updateNode] at stored
  split at stored
  · cases stored
    exact .inl rfl
  · next key => exact .inr ⟨key, stored, inside.hasGroup, inside.group, inside.rank⟩

/-- A node that is not stored anew stays in its group. -/
theorem InGroup.updateNode {g : Int} {r : Nat} {n' : Node} (inside : m.InGroup g r n')
    (other : n'.key ≠ n.key) : (m.updateNode n).InGroup g r n' := by
  refine ⟨?_, inside.hasGroup, inside.group, inside.rank⟩
  rw [node?_updateNode, if_neg other]
  exact inside.stored

theorem inGroup_self (hasGroup : n.hasGroup) (eq : n.group = some group) :
    (m.updateNode n).InGroup group n.rankIndex n := by
  refine ⟨?_, hasGroup, eq, rfl⟩
  rw [node?_updateNode]
  exact if_pos rfl

/-- A node of a group is stored again or is new, and is the newest of its rank. -/
theorem Grouped.store (h : m.Grouped) (known : n.type ∈ m.types) (worker : n.type = .worker)
    (hasGroup : n.hasGroup) (eq : n.group = some group)
    (again : ∀ old, m.node? n.key = some old → old.hasGroup → m.InGroup group n.rankIndex old)
    (newest : ∀ n', m.InGroup group n.rankIndex n' → n'.id ≤ n.id) : (m.updateNode n).Grouped := by
  have wf := h.wellFormed.updateNode known
  have here : (m.updateNode n).InGroup group n.rankIndex n := inGroup_self hasGroup eq
  constructor
  · exact wf
  · intro g r n' inside
    rcases inGroup_updateNode_cases inside with rfl | ⟨-, inside⟩
    · exact worker
    · exact h.workers inside
  · intro g r e found
    rw [groupNode?_updateNode hasGroup eq] at found
    split at found
    · next at_rank =>
      cases found
      cases at_rank
      exact ⟨hasGroup, eq, rfl⟩
    · exact h.own found
  · constructor
    · intro g r e found
      rw [groupNode?_updateNode hasGroup eq] at found
      split at found
      · next at_rank =>
        cases found
        cases at_rank
        exact ⟨n, here, rfl⟩
      · next elsewhere =>
        rcases h.newest.known found with ⟨n', inside, key⟩
        refine ⟨n', inside.updateNode fun same ↦ ?_, key⟩
        -- the node under this key would be of the other rank
        have old := again n' (by rw [← same]; exact inside.stored) inside.hasGroup
        have same_group := Option.some.inj (inside.group.symm.trans old.group)
        have same_rank := inside.rank.symm.trans old.rank
        exact elsewhere (Prod.ext same_group same_rank)
    · intro g r n' inside
      rcases inGroup_updateNode_cases inside with rfl | ⟨-, inside⟩
      · refine ⟨n', ?_, Nat.le_refl _⟩
        rw [groupNode?_updateNode hasGroup eq]
        have same := Option.some.inj (eq.symm.trans inside.group)
        exact if_pos (Prod.ext same.symm inside.rank.symm)
      · rw [groupNode?_updateNode hasGroup eq]
        split
        · next at_rank =>
          cases at_rank
          exact ⟨n, rfl, newest n' inside⟩
        · exact h.newest.newest inside

/-- A node without a group is stored. -/
theorem Grouped.storeUngrouped (h : m.Grouped) (known : n.type ∈ m.types) (none : ¬ n.hasGroup)
    (again : ∀ old, m.node? n.key = some old → ¬ old.hasGroup) : (m.updateNode n).Grouped := by
  have cases : ∀ {g r n'}, (m.updateNode n).InGroup g r n' ↔ m.InGroup g r n' := by
    intro g r n'
    constructor
    · intro inside
      rcases inGroup_updateNode_cases inside with rfl | ⟨-, inside⟩
      · exact absurd inside.hasGroup none
      · exact inside
    · intro inside
      refine inside.updateNode fun key ↦ ?_
      exact again n' (by rw [← key]; exact inside.stored) inside.hasGroup
  constructor
  · exact h.wellFormed.updateNode known
  · intro g r n' inside
    exact h.workers (cases.mp inside)
  · intro g r e found
    rw [groupNode?_updateNode_of_not none] at found
    exact h.own found
  · constructor
    · intro g r e found
      rw [groupNode?_updateNode_of_not none] at found
      rcases h.newest.known found with ⟨n', inside, key⟩
      exact ⟨n', cases.mpr inside, key⟩
    · intro g r n' inside
      rw [groupNode?_updateNode_of_not none]
      exact h.newest.newest (cases.mp inside)

/-- Only the nodes that are found, the types and the groups matter. -/
theorem Grouped.ext (h : m.Grouped) (nodes : ∀ k, m'.node? k = m.node? k)
    (types : m'.types = m.types) (groups : m'.jobNodeGroups = m.jobNodeGroups) : m'.Grouped := by
  have same : ∀ {g r n}, m'.InGroup g r n ↔ m.InGroup g r n := by
    intro g r n
    exact ⟨fun i ↦ ⟨(nodes _).symm.trans i.stored, i.hasGroup, i.group, i.rank⟩,
      fun i ↦ ⟨(nodes _).trans i.stored, i.hasGroup, i.group, i.rank⟩⟩
  have kept : ∀ {g r}, m'.groupNode? g r = m.groupNode? g r := by
    intro g r
    unfold groupNode?
    rw [groups]
  constructor
  · constructor
    · intro k n found
      exact h.wellFormed.keyed ((nodes k).symm.trans found)
    · intro k n found
      rw [types]
      exact h.wellFormed.typed ((nodes k).symm.trans found)
    · rw [types]
      exact h.wellFormed.oneChief
  · exact fun inside ↦ h.workers (same.mp inside)
  · intro g r e found
    exact h.own (kept ▸ found)
  · constructor
    · intro g r e found
      rcases h.newest.known (kept ▸ found) with ⟨n, inside, key⟩
      exact ⟨n, same.mpr inside, key⟩
    · intro g r n inside
      rw [kept]
      exact h.newest.newest (same.mp inside)

theorem Grouped.congr (h : m.Grouped) (nodes : m'.jobNodes = m.jobNodes)
    (types : m'.types = m.types)
    (groups : m'.jobNodeGroups = m.jobNodeGroups) : m'.Grouped := by
  refine h.ext (fun k ↦ ?_) types groups
  unfold node?
  rw [nodes]

/-- A node with the key and the group of a stored one has its type, and is in a group if that one
is. -/
theorem Grouped.of_found (h : m.Grouped) (found : m.node? n.key = some old)
    (groups : n.group = old.group ∧ n.groupSize = old.groupSize ∧ n.rankIndex = old.rankIndex) :
    old.key = n.key ∧ n.type = old.type ∧ n.type ∈ m.types ∧ (n.hasGroup ↔ old.hasGroup) := by
  have key := h.wellFormed.keyed found
  have type : n.type = old.type := (congrArg Prod.fst key).symm
  refine ⟨key, type, type ▸ h.wellFormed.typed found, ?_⟩
  unfold Node.hasGroup
  rw [groups.1, groups.2.1]

/-- A node that is stored again, being the newest of its rank if it is in a group. -/
theorem Grouped.again (h : m.Grouped) (found : m.node? n.key = some old)
    (groups : n.group = old.group ∧ n.groupSize = old.groupSize ∧ n.rankIndex = old.rankIndex)
    (newest : ∀ group, n.hasGroup → n.group = some group →
      ∀ n', m.InGroup group n.rankIndex n' → n'.id ≤ n.id) : (m.updateNode n).Grouped := by
  rcases h.of_found found groups with ⟨key, type, known, same⟩
  by_cases hasGroup : n.hasGroup
  · rcases Option.isSome_iff_exists.mp hasGroup.1 with ⟨group, eq⟩
    have inside : m.InGroup group n.rankIndex old :=
      ⟨by rwa [key], same.mp hasGroup, groups.1.symm.trans eq, groups.2.2.symm⟩
    refine h.store known (type.trans (h.workers inside)) hasGroup eq ?_ (newest group hasGroup eq)
    intro old' found' _
    rw [found] at found'
    cases found'
    exact inside
  · refine h.storeUngrouped known hasGroup fun old' found' ↦ ?_
    rw [found] at found'
    cases found'
    exact fun inside ↦ hasGroup (same.mpr inside)

/-- A node is changed in place, which does not write it to its group. -/
theorem Grouped.inPlace (h : m.Grouped) (found : m.node? n.key = some old)
    (groups : n.group = old.group ∧ n.groupSize = old.groupSize ∧ n.rankIndex = old.rankIndex) :
    (m.updateJobNode n).Grouped := by
  rcases h.of_found found groups with ⟨key, type, known, same⟩
  -- the nodes of a group are those from before, with the new value of this one
  have cases : ∀ {g r n'}, (m.updateJobNode n).InGroup g r n' →
      ∃ n₀, m.InGroup g r n₀ ∧ n₀.key = n'.key := by
    intro g r n' inside
    have stored := inside.stored
    rw [node?_updateJobNode] at stored
    split at stored
    · cases stored
      have before : m.node? old.key = some old := by rwa [key]
      exact ⟨old, ⟨before, same.mp inside.hasGroup, groups.1.symm.trans inside.group,
        groups.2.2.symm.trans inside.rank⟩, key⟩
    · exact ⟨n', ⟨stored, inside.hasGroup, inside.group, inside.rank⟩, rfl⟩
  constructor
  · exact h.wellFormed.updateJobNode known
  · intro g r n' inside
    rcases cases inside with ⟨n₀, inside, eq⟩
    exact (congrArg Prod.fst eq).symm.trans (h.workers inside)
  · exact h.own
  · constructor
    · intro g r e kept
      rcases h.newest.known kept with ⟨n', inside, eq⟩
      by_cases here : n'.key = n.key
      · have stored := inside.stored
        rw [here, found] at stored
        cases stored
        refine ⟨n, ⟨?_, same.mpr inside.hasGroup, groups.1.trans inside.group,
          groups.2.2.trans inside.rank⟩, here ▸ eq⟩
        rw [node?_updateJobNode]
        exact if_pos rfl
      · refine ⟨n', ⟨?_, inside.hasGroup, inside.group, inside.rank⟩, eq⟩
        rw [node?_updateJobNode, if_neg here]
        exact inside.stored
    · intro g r n' inside
      rcases cases inside with ⟨n₀, inside, eq⟩
      rcases h.newest.newest inside with ⟨e, kept, le⟩
      have id : n₀.id = n'.id := congrArg Prod.snd eq
      exact ⟨e, kept, id ▸ le⟩

/-! ### Events -/

/-- A node without a group is relaunched. -/
theorem Grouped.relaunchNode {source : Node} {removeExitedNode reported : Bool} (h : m.Grouped)
    (found : m.node? node.key = some old) (none : ¬ node.hasGroup) (ungrouped : ¬ old.hasGroup) :
    (m.relaunchNode node source removeExitedNode reported).Grouped := by
  have wf := h.wellFormed
  have type : node.type = old.type := (congrArg Prod.fst (wf.keyed found)).symm
  have known : node.type ∈ m.types := type ▸ wf.typed found
  have fresh : m.node? (m.launchedNode node).key = Option.none := wf.nextNodeId_fresh node.type
  have launched : (m.updateNode (m.launchedNode node)).Grouped := by
    refine h.storeUngrouped known none fun old' found' ↦ ?_
    rw [fresh] at found'
    cases found'
  have types : (m.updateNode (m.launchedNode node)).types = m.types := types_updateNode known
  rcases relaunchNode_eq m node source removeExitedNode reported with ⟨w, removed, eq, -, -, cases⟩
  -- whatever is stored under the key of the node has no group
  have stored : w.Grouped ∧ w.types = m.types ∧
      ∀ n, w.node? node.key = some n → ¬ n.hasGroup := by
    have before : ∀ n, (m.updateNode (m.launchedNode node)).node? node.key = some n →
        ¬ n.hasGroup := by
      intro n found'
      rcases node?_updateNode_cases found' with ⟨-, rfl⟩ | found'
      · exact none
      · rw [found] at found'
        cases found'
        exact ungrouped
    rcases cases with rfl | ⟨-, rfl⟩
    · exact ⟨launched, types, before⟩
    · refine ⟨launched.storeUngrouped (by rw [types]; exact known) none before, ?_, ?_⟩
      · rw [types_updateNode (by rw [types]; exact known), types]
      · intro n found'
        rcases node?_updateNode_cases found' with ⟨-, rfl⟩ | found'
        · exact none
        · exact before n found'
  rcases stored with ⟨grouped, typesW, old⟩
  rw [eq]
  have final : (w.updateNode (replacedNode node removeExitedNode)).Grouped :=
    grouped.storeUngrouped (by rw [typesW]; exact known) none old
  exact final.congr rfl rfl rfl

theorem hasGroup_countRelaunch {env : Env} :
    (countRelaunch env node).hasGroup ↔ node.hasGroup := by
  unfold countRelaunch
  split <;> exact Iff.rfl

/-- An event whose first update leaves the groups as they should be. -/
theorem processEvent_grouped {env : Env} {e : NodeEvent}
    (ignored : e.skipped env ∨ m.node? e.node.key = none → m.Grouped)
    (first : ∀ node, m.node? e.node.key = some node → ¬ e.skipped env →
      (m.updateNode (node.updateInfo e.node)).Grouped)
    (keeps : m.NewestEvent env e) : (m.processEvent env e).Grouped := by
  have second : ∀ node, m.node? e.node.key = some node → ¬ e.skipped env →
      ((m.updateNode (node.updateInfo e.node)).updateNode (eventNode node e)).Grouped := by
    intro node found unskipped
    have stored : (m.updateNode (node.updateInfo e.node)).node? (eventNode node e).key =
        some (node.updateInfo e.node) := node?_updateNode.trans (if_pos rfl)
    refine (first node found unskipped).again stored ⟨rfl, rfl, rfl⟩ ?_
    intro group hasGroup eq n' inside
    rcases inGroup_updateNode_cases inside with rfl | ⟨-, inside⟩
    · exact Nat.le_refl _
    · exact (keeps node group found hasGroup eq unskipped).1 n' inside
  have effect := processEvent_effect m env e
  generalize m.processEvent env e = m' at effect ⊢
  cases effect with
  | ignored h => exact ignored h
  | updated node found unskipped => exact first node found unskipped
  | followed node flow found follows => exact second node found follows.unskipped
  | relaunched node flow found follows relaunch =>
    have none : ¬ node.hasGroup := by
      intro hasGroup
      rcases Option.isSome_iff_exists.mp hasGroup.1 with ⟨group, eq⟩
      rw [(keeps node group found hasGroup eq follows.unskipped).2 flow follows] at relaunch
      cases relaunch
    have uncounted : ¬ (countRelaunch env (eventNode node e)).hasGroup := by
      rw [hasGroup_countRelaunch]
      exact none
    have stored : ((m.updateNode (node.updateInfo e.node)).updateNode (eventNode node e)).node?
        (countRelaunch env (eventNode node e)).key = some (eventNode node e) := by
      rw [key_countRelaunch, node?_updateNode]
      exact if_pos rfl
    exact (second node found follows.unskipped).relaunchNode stored uncounted none

theorem Grouped.processEvent (h : m.Grouped) {env : Env} {e : NodeEvent}
    (keeps : m.NewestEvent env e) : (m.processEvent env e).Grouped := by
  refine processEvent_grouped (fun _ ↦ h) ?_ keeps
  intro node found unskipped
  have stored : m.node? (node.updateInfo e.node).key = some node := by
    rwa [Node.key_updateInfo, h.wellFormed.keyed found]
  refine h.again stored ⟨rfl, rfl, rfl⟩ ?_
  intro group hasGroup eq
  exact (keeps node group found hasGroup eq unskipped).1

theorem Grouped.noHeartbeat (h : m.Grouped) {env : Env} {k : NodeType × Nat}
    (keeps : m.GroupKeeps (.noHeartbeat env k)) : (m.noHeartbeat env k).Grouped := by
  unfold DistributedJobManager.noHeartbeat
  split
  · exact h
  · next node found =>
    split
    · next running => exact h.processEvent (keeps node found running)
    · exact h

theorem Grouped.processNodeAction (h : m.Grouped) {env : Env} {type : NodeType} {id : Nat}
    (keeps : m.GroupKeeps (.nodeAction env type id)) :
    (m.processNodeAction env type id).Grouped := by
  unfold DistributedJobManager.processNodeAction
  split
  · exact h
  · next node found => exact h.processEvent (keeps node found)

theorem Grouped.handleTrainingFailure (h : m.Grouped) {env : Env} {type : NodeType} {id : Nat}
    {errorData : Option NodeExitReason} {level : TrainingExceptionLevel}
    (keeps : m.GroupKeeps (.trainingFailure env type id errorData level)) :
    (m.handleTrainingFailure env type id errorData level).Grouped := by
  unfold DistributedJobManager.handleTrainingFailure
  split
  · exact h
  · next node found =>
    have stored : m.node? node.key = some node := by rwa [h.wellFormed.keyed found]
    have changed := h.inPlace (n := { node with exitReason := errorData.getD node.exitReason })
      stored ⟨rfl, rfl, rfl⟩
    simp only
    split
    · exact changed
    · next unreleased =>
      split
      · next relaunch =>
        have none : ¬ node.hasGroup := fun hasGroup ↦
          keeps node found hasGroup (Bool.eq_false_iff.mpr unreleased) relaunch
        refine changed.relaunchNode (node?_updateJobNode.trans (if_pos rfl)) none none
      · exact changed

/-! ### Group relaunch -/

theorem mem_jobNodeGroup {e : Node} :
    e ∈ m.jobNodeGroup group ↔ ∃ rank, m.groupNode? group rank = some e := by
  unfold jobNodeGroup groupNode?
  rw [List.mem_map]
  constructor
  · rintro ⟨⟨⟨g, rank⟩, e'⟩, mem, rfl⟩
    rcases List.mem_filter.mp mem with ⟨stored, eq⟩
    have same : g = group := of_decide_eq_true eq
    rw [same] at stored
    exact ⟨rank, Dict.get?_eq_some_iff.mpr stored⟩
  · rintro ⟨rank, found⟩
    refine ⟨((group, rank), e), List.mem_filter.mpr ⟨Dict.get?_eq_some_iff.mp found, ?_⟩, rfl⟩
    exact decide_eq_true rfl

theorem Grouped.groupNode?_of_mem (h : m.Grouped) {e : Node} (mem : e ∈ m.jobNodeGroup group) :
    m.groupNode? group e.rankIndex = some e := by
  rcases mem_jobNodeGroup.mp mem with ⟨rank, found⟩
  rw [(h.own found).2.2]
  exact found

/-- The nodes that are kept for a group have different ranks. -/
theorem Grouped.ranks_nodup (h : m.Grouped) (group : Int) :
    ((m.jobNodeGroup group).map Node.rankIndex).Nodup := by
  unfold jobNodeGroup
  rw [List.map_map]
  apply List.Nodup.map_on
  · rintro ⟨⟨g, r⟩, e⟩ mem ⟨⟨g', r'⟩, e'⟩ mem' eq
    rcases List.mem_filter.mp mem with ⟨stored, here⟩
    rcases List.mem_filter.mp mem' with ⟨stored', here'⟩
    have rank := (h.own (Dict.get?_eq_some_iff.mpr stored)).2.2
    have rank' := (h.own (Dict.get?_eq_some_iff.mpr stored')).2.2
    have sameGroup : g = g' := (of_decide_eq_true here).trans (of_decide_eq_true here').symm
    have sameRank : r = r' := rank.symm.trans (eq.trans rank')
    cases sameGroup
    cases sameRank
    rw [Dict.value_unique stored stored']
  · exact m.jobNodeGroups.items_nodup.filter _

/-- The new nodes of a group that is relaunched get an index that no node has yet. -/
theorem Grouped.launchGroup (h : m.Grouped) (idx : Int) (launch : List Node)
    (known : .worker ∈ m.types)
    (members : ∀ n ∈ launch, n.type = .worker ∧ n.hasGroup ∧ n.group = some idx ∧
      (n.isReleased = true ∨ ¬ n.exited))
    (fresh : ∀ n ∈ launch, ∀ n', ¬ m.InGroup idx n.rankIndex n')
    (ranks : (launch.map Node.rankIndex).Nodup) :
    let m' := launch.foldl
      (fun m n ↦
        let r := m.relaunchTrainingNode n true
        { r.manager with removeNodes := r.manager.removeNodes ++ r.removeNodes }) m
    m'.Grouped ∧ ∀ g r, g ≠ idx → m'.groupNode? g r = m.groupNode? g r := by
  induction launch generalizing m with
  | nil => exact ⟨h, fun _ _ _ ↦ rfl⟩
  | cons n launch ih =>
    rcases members n List.mem_cons_self with ⟨worker, hasGroup, eq, stays⟩
    have kept : ¬ (true = true ∧ ¬ n.isReleased = true ∧ n.exited) := by
      rintro ⟨-, unreleased, exited⟩
      exact stays.elim unreleased fun not ↦ not exited
    have launched : m.relaunchTrainingNode n true =
        ⟨m.updateNode (m.launchedNode n), n, m.launchedNode n, []⟩ := if_neg kept
    rcases List.nodup_cons.mp ranks with ⟨new, ranks⟩
    have type : n.type ∈ m.types := worker ▸ known
    have absent := h.wellFormed.nextNodeId_fresh n.type
    have stored : (m.updateNode (m.launchedNode n)).Grouped := by
      refine h.store type worker hasGroup eq ?_ ?_
      · intro old found _
        rw [show (m.launchedNode n).key = (n.type, m.nextNodeId n.type) from rfl, absent] at found
        cases found
      · exact fun n' inside ↦ absurd inside (fresh n List.mem_cons_self n')
    have next : ({ m.updateNode (m.launchedNode n) with
        removeNodes := (m.updateNode (m.launchedNode n)).removeNodes ++ [] }).Grouped :=
      stored.congr rfl rfl rfl
    have types : (m.updateNode (m.launchedNode n)).types = m.types := types_updateNode type
    have rest := ih next (types.symm ▸ known : NodeType.worker ∈ (m.updateNode _).types)
      (fun n' mem ↦ members n' (List.mem_cons_of_mem _ mem)) ?_ ranks
    · simp only [List.foldl_cons, launched]
      refine ⟨rest.1, fun g r ne ↦ (rest.2 g r ne).trans ?_⟩
      have other :=
        groupNode?_updateNode (m := m) (n := m.launchedNode n) hasGroup eq (g := g) (r := r)
      exact other.trans (if_neg fun at_rank ↦ ne (congrArg Prod.fst at_rank))
    · intro n' mem n'' inside
      have inside' : (m.updateNode (m.launchedNode n)).InGroup idx n'.rankIndex n'' :=
        ⟨inside.stored, inside.hasGroup, inside.group, inside.rank⟩
      rcases inGroup_updateNode_cases inside' with rfl | ⟨-, before⟩
      · exact new (List.mem_map.mpr ⟨n', mem, inside.rank.symm⟩)
      · exact fresh n' (List.mem_cons_of_mem _ mem) n'' before

/-- The old nodes of the group are stored again. -/
theorem Grouped.retireGroup (h : m.Grouped) (nodes : List Node)
    (kept : ∀ e ∈ nodes, m.groupNode? group e.rankIndex = some e)
    (ranks : (nodes.map Node.rankIndex).Nodup) :
    (nodes.foldl
      (fun m n ↦
        { m.updateNode { n with relaunchable := false } with
          removeNodes := m.removeNodes ++ [n] }) m).Grouped := by
  induction nodes generalizing m with
  | nil => exact h
  | cons n nodes ih =>
    have found := kept n List.mem_cons_self
    have own := h.own found
    rcases h.newest.known found with ⟨old, inside, key⟩
    rcases List.nodup_cons.mp ranks with ⟨new, ranks⟩
    have worker : n.type = .worker := (congrArg Prod.fst key).symm.trans (h.workers inside)
    have stored : m.node? n.key = some old := key ▸ inside.stored
    have type : n.type ∈ m.types :=
      worker ▸ h.workers inside ▸ h.wellFormed.typed inside.stored
    have retired : (m.updateNode { n with relaunchable := false }).Grouped := by
      refine h.store type worker own.1 own.2.1 ?_ ?_
      · intro old' found' _
        have same : some old' = some old := found'.symm.trans stored
        cases same
        exact inside
      · intro n' other
        rcases h.newest.newest other with ⟨e, kept, le⟩
        have same : some e = some n := kept.symm.trans found
        cases same
        exact le
    refine ih (retired.congr rfl rfl rfl) ?_ ranks
    intro e mem
    have other := groupNode?_updateNode (m := m) (n := { n with relaunchable := false }) own.1
      own.2.1 (g := group) (r := e.rankIndex)
    refine other.trans ((if_neg fun at_rank ↦ ?_).trans (kept e (List.mem_cons_of_mem _ mem)))
    exact new (List.mem_map.mpr ⟨e, mem, congrArg Prod.snd at_rank⟩)

theorem Grouped.relaunchNodeGroup (h : m.Grouped) (keeps : m.GroupRelaunchKeeps group) :
    (m.relaunchNodeGroup group).Grouped := by
  have members : ∀ e ∈ m.jobNodeGroup group, e.hasGroup ∧ e.group = some group ∧
      e.type = .worker ∧ .worker ∈ m.types := by
    intro e mem
    rcases mem_jobNodeGroup.mp mem with ⟨rank, found⟩
    rcases h.own found with ⟨hasGroup, eq, -⟩
    rcases h.newest.known found with ⟨n, inside, key⟩
    have worker := h.workers inside
    refine ⟨hasGroup, eq, (congrArg Prod.fst key).symm.trans worker, ?_⟩
    exact worker ▸ h.wellFormed.typed inside.stored
  unfold DistributedJobManager.relaunchNodeGroup
  cases nodes : m.jobNodeGroup group with
  | nil => exact h.congr rfl rfl rfl
  | cons first rest =>
    rw [← nodes]
    have mem : first ∈ m.jobNodeGroup group := nodes ▸ List.mem_cons_self
    have other : group ≠ m.maxGroupIdx + 1 := by
      intro eq
      rcases h.newest.known (h.groupNode?_of_mem mem) with ⟨n, inside, -⟩
      exact keeps.fresh _ n (eq ▸ inside)
    have known := (members first mem).2.2.2
    have start : ({ m with maxGroupIdx := m.maxGroupIdx + 1 }).Grouped := h.congr rfl rfl rfl
    have launch := start.launchGroup (m.maxGroupIdx + 1)
      (((m.jobNodeGroup group).filter fun n ↦ n.type = .worker).map fun n ↦
        { n with group := some (m.maxGroupIdx + 1) }) known ?_ ?_ ?_
    · have retired := launch.1.retireGroup (m.jobNodeGroup group)
        (fun e mem ↦ (launch.2 _ _ other).trans (h.groupNode?_of_mem mem)) (h.ranks_nodup group)
      exact retired.congr rfl rfl rfl
    · intro n launched
      rcases List.mem_map.mp launched with ⟨e, mem, rfl⟩
      rcases List.mem_filter.mp mem with ⟨mem, worker⟩
      have worker : e.type = .worker := of_decide_eq_true worker
      exact ⟨worker, ⟨rfl, (members e mem).1.2⟩, rfl, keeps.running e mem worker⟩
    · intro n _ n' inside
      exact keeps.fresh n.rankIndex n'
        ⟨inside.stored, inside.hasGroup, inside.group, inside.rank⟩
    · rw [List.map_map]
      exact (h.ranks_nodup group).sublist (List.filter_sublist.map _)

/-! ### Lists of pods -/

/-- The event for a listed pod whose node gets the group of the pod. -/
theorem Grouped.regroup (h : m.Grouped) {env : Env} {pod : Node}
    (found : m.node? pod.key = some node) (worker : pod.type = .worker)
    (none : ¬ node.hasGroup) (unskipped : pod.hasGroup → ¬ (listedEvent pod).skipped env)
    (keeps : (m.updateJobNode
        { node with group := pod.group, groupSize := pod.groupSize }).NewestEvent env
      (listedEvent pod)) :
    ((m.updateJobNode
        { node with group := pod.group, groupSize := pod.groupSize }).processEvent env
      (listedEvent pod)).Grouped := by
  have key := h.wellFormed.keyed found
  have type : node.type = pod.type := congrArg Prod.fst key
  have known : node.type ∈ m.types := h.wellFormed.typed found
  generalize changed : { node with group := pod.group, groupSize := pod.groupSize } = n at keeps ⊢
  have same : n.key = pod.key ∧ n.type = pod.type ∧ n.type ∈ m.types := by
    rw [← changed]
    exact ⟨key, type, known⟩
  have before : ∀ old, m.node? n.key = some old → ¬ old.hasGroup := by
    intro old found'
    rw [same.1, found] at found'
    cases found'
    exact none
  by_cases hasGroup : n.hasGroup
  · have pod_hasGroup : pod.hasGroup := by
      rw [← changed] at hasGroup
      exact hasGroup
    have stored : (m.updateJobNode n).node? pod.key = some n := by
      rw [node?_updateJobNode]
      exact if_pos same.1.symm
    refine processEvent_grouped ?_ ?_ keeps
    · rintro (skipped | absent)
      · exact absurd skipped (unskipped pod_hasGroup)
      · cases absent.symm.trans stored
    · intro n' found' _
      have eq : some n' = some n := found'.symm.trans stored
      cases eq
      rcases Option.isSome_iff_exists.mp hasGroup.1 with ⟨group, eq⟩
      have first : (m.updateNode (n.updateInfo pod)).Grouped := by
        refine h.store same.2.2 (same.2.1.trans worker) hasGroup eq ?_ ?_
        · intro old found' inside
          exact absurd inside (before old found')
        · intro n' inside
          have newest := (keeps n group stored hasGroup eq (unskipped pod_hasGroup)).1 n'
          refine newest ⟨?_, inside.hasGroup, inside.group, inside.rank⟩
          rw [node?_updateJobNode, if_neg]
          · exact inside.stored
          · intro here
            exact before n' (here ▸ inside.stored) inside.hasGroup
      refine first.ext (fun k ↦ ?_) ?_ ?_
      · show ((m.updateJobNode n).updateNode (n.updateInfo pod)).node? k = _
        rw [node?_updateNode, node?_updateNode, node?_updateJobNode]
        split
        · rfl
        · next ne => exact if_neg ne
      · show ((m.updateJobNode n).updateNode (n.updateInfo pod)).types = _
        have types := types_updateNode (m := m) (n := n) same.2.2
        rw [(jobNodes_updateNode m n).2.1] at types
        rw [types_updateNode, types_updateNode, types]
        · exact same.2.2
        · rw [types]
          exact same.2.2
      · show ((m.updateJobNode n).updateNode (n.updateInfo pod)).jobNodeGroups = _
        have hasGroup' : (n.updateInfo pod).hasGroup := hasGroup
        rw [updateNode_grouped hasGroup' eq, updateNode_grouped hasGroup' eq]
        rfl
  · have ungrouped : (m.updateJobNode n).Grouped := by
      refine (h.storeUngrouped same.2.2 hasGroup before).congr (jobNodes_updateNode m n).1.symm
        (jobNodes_updateNode m n).2.1.symm ?_
      unfold updateNode
      split
      · rw [if_neg hasGroup]
      · rfl
    exact ungrouped.processEvent keeps

theorem Grouped.processListNode (h : m.Grouped) {env : Env} {pod : Node}
    (known : pod.type ∈ m.types) (keeps : m.ListedKeeps env pod) :
    (m.processListNode env pod).Grouped := by
  show ((m.listedNode pod).processEvent env (listedEvent pod)).Grouped
  have event := keeps.event
  unfold listedNode at event ⊢
  by_cases absent : pod.key ∉ m.jobNodes ∧ pod.status ≠ .deleted
  · have fresh : m.node? pod.key = none := Dict.get?_eq_none_iff.mpr absent.1
    have added : (m.updateNode pod).Grouped := by
      by_cases hasGroup : pod.hasGroup
      · rcases Option.isSome_iff_exists.mp hasGroup.1 with ⟨group, eq⟩
        rcases keeps.added absent.1 absent.2 group hasGroup eq with ⟨worker, newest⟩
        refine h.store known worker hasGroup eq (fun old found _ ↦ ?_) newest
        cases fresh.symm.trans found
      · refine h.storeUngrouped known hasGroup fun old found ↦ ?_
        cases fresh.symm.trans found
    have stored : (m.updateNode pod).node? pod.key = some pod := node?_updateNode.trans (if_pos rfl)
    have same : ¬ (pod.type = .worker ∧ pod.group ≠ pod.group) := fun h ↦ h.2 rfl
    simp only [if_pos absent, stored, if_neg same] at event ⊢
    exact added.processEvent event
  · simp only [if_neg absent] at event ⊢
    cases found : m.node? pod.key with
    | none =>
      simp only [found] at event ⊢
      exact h.processEvent event
    | some node =>
      simp only [found] at event ⊢
      by_cases regrouped : pod.type = .worker ∧ node.group ≠ pod.group
      · simp only [if_pos regrouped] at event ⊢
        rcases keeps.changed node found regrouped.1 regrouped.2 with ⟨none, unskipped⟩
        exact h.regroup found regrouped.1 none unskipped event
      · simp only [if_neg regrouped] at event ⊢
        exact h.processEvent event

theorem Grouped.processListNodes (h : m.Grouped) {env : Nat → Env} {pods : List Node}
    (keeps : m.ListKeeps env pods) : (m.processListNodes env pods).Grouped := by
  rcases keeps with ⟨listed, lost⟩
  have first := listed.invariant (P := fun m' ↦ m'.Grouped ∧ m'.types = m.types) ⟨h, rfl⟩ ?_
  · unfold DistributedJobManager.processListNodes
    dsimp only
    split
    · exact first.1
    · next all =>
      exact (lost all).invariant first.1 fun m' e _ grouped newest ↦ grouped.processEvent newest
  · rintro m' ⟨pod, i⟩ mem ⟨grouped, types⟩ ok
    have mem := List.fst_mem_of_mem_zipIdx mem
    have listed := List.mem_takeWhile_imp mem
    have known : pod.type ∈ m'.types := types ▸ of_decide_eq_true listed
    refine ⟨grouped.processListNode known ok, ?_⟩
    exact (processListNode_evolves grouped.wellFormed known).types.trans types

/-! ### Runs -/

/-- A job starts without groups. -/
theorem initNodes_grouped {types : List NodeType} {nodes : List Node}
    (known : ∀ n ∈ nodes, n.type ∈ types) (oneChief : .chief ∈ types → .master ∉ types)
    (none : ∀ n ∈ nodes, ¬ n.hasGroup) : (initNodes types nodes).Grouped := by
  have fold : ∀ (l : List Node) (m : DistributedJobManager), m.jobNodeGroups = .empty →
      (∀ {k n}, m.node? k = some n → ¬ n.hasGroup) → (∀ n ∈ l, ¬ n.hasGroup) →
      (l.foldl updateJobNode m).jobNodeGroups = .empty ∧
        ∀ {k n}, (l.foldl updateJobNode m).node? k = some n → ¬ n.hasGroup := by
    intro l
    induction l with
    | nil => exact fun _ empty ungrouped _ ↦ ⟨empty, ungrouped⟩
    | cons n l ih =>
      intro m empty ungrouped all
      refine ih (m.updateJobNode n) empty ?_ fun n' mem ↦ all n' (List.mem_cons_of_mem _ mem)
      intro k n' found
      rw [node?_updateJobNode] at found
      split at found
      · cases found
        exact all n List.mem_cons_self
      · exact ungrouped found
  have start := fold nodes
    { types, jobNodes := .empty, jobNodeGroups := .empty, maxGroupIdx := 1000
      relaunchedGroups := [], groupRelaunchCount := 0, removeNodes := [], replacements := []
      nodeRankIter := (nodes.filter fun n ↦ n.type = .worker).length }
    rfl (fun found ↦ by cases found) none
  have empty : ∀ {g r e}, (initNodes types nodes).groupNode? g r ≠ some e := by
    intro g r e found
    unfold groupNode? initNodes at found
    rw [start.1] at found
    cases found
  have ungrouped : ∀ {g r n}, ¬ (initNodes types nodes).InGroup g r n :=
    fun inside ↦ start.2 inside.stored inside.hasGroup
  constructor
  · exact initNodes_wellFormed known oneChief
  · exact fun inside ↦ absurd inside ungrouped
  · exact fun found ↦ absurd found empty
  · exact ⟨fun found ↦ absurd found empty, fun inside ↦ absurd inside ungrouped⟩

/-- One step keeps the newest node of each rank. -/
theorem Grouped.step (h : m.Grouped) {a : Action} (keeps : m.GroupKeeps a)
    (taken : m.step a = some m') : m'.Grouped := by
  cases a with
  | event env e =>
    cases taken
    exact h.processEvent keeps
  | listNodes env pods =>
    cases taken
    exact h.processListNodes keeps
  | noHeartbeat env key =>
    cases taken
    exact h.noHeartbeat keeps
  | nodeAction env type id =>
    cases taken
    exact h.processNodeAction keeps
  | trainingFailure env type id errorData level =>
    cases taken
    exact h.handleTrainingFailure keeps
  | groupPending env group =>
    cases taken
    unfold handleNodeGroupPending
    split
    · next relaunch => exact h.relaunchNodeGroup (keeps relaunch)
    · exact h
  | serviceAddr | removeTrainingNodes | adjustWorker | migrateWorkers | removeNode =>
    exact keeps.elim

/-- While only the newest node of a rank has events that are processed, none of them relaunches it,
and groups are relaunched under an index that is new, the group map holds the newest node of each
rank. -/
theorem groups_keep_newest {as : List Action} (start : s.Grouped)
    (run : Run step GroupKeeps s as t) :
    t.GroupsNewest := by
  have grouped : t.Grouped :=
    run.invariant start fun t u a h keeps taken ↦ Grouped.step h keeps taken
  exact grouped.newest

/-- A worker of group 1. -/
def groupWorker (id : Nat) (status : NodeStatus) : Node :=
  { type := .worker, id, rankIndex := 0, status, maxRelaunchCount := 3, group := some 1
    groupSize := some 1 }

/-- A job whose worker runs in group 1. -/
def oneGroup : DistributedJobManager :=
  (initNodes [.worker] []).updateNode (groupWorker 0 .running)

theorem oneGroup_grouped : oneGroup.Grouped := by
  have start : (initNodes [.worker] []).Grouped :=
    initNodes_grouped (by decide) (by decide) (by decide)
  refine start.store (n := groupWorker 0 .running) (by decide) rfl (by decide) rfl ?_ ?_
  · intro old found
    cases found
  · intro n' inside
    cases inside.stored

/-- The group hangs and is relaunched. -/
theorem groups_keep_newest_relaunched :
    (oneGroup.handleNodeGroupPending {} 1).GroupsNewest := by
  have keeps : oneGroup.GroupKeeps (.groupPending {} 1) := by
    intro _
    constructor
    · intro rank n inside
      rcases node?_updateNode_cases inside.stored with ⟨-, rfl⟩ | found
      · cases inside.group
      · cases found
    · decide
  exact groups_keep_newest oneGroup_grouped (.snoc (l := []) _ .nil keeps rfl)

/-- The worker fails and is relaunched, the new one runs, and a late event of the old one comes. -/
def lateEvent : List Action :=
  [.event {} ⟨.modified, groupWorker 0 .failed⟩, .event {} ⟨.modified, groupWorker 1 .running⟩,
    .event {} ⟨.modified, groupWorker 0 .failed⟩]

/-- What these events leave. -/
def afterLateEvent : DistributedJobManager :=
  ((oneGroup.processEvent {} ⟨.modified, groupWorker 0 .failed⟩).processEvent {}
    ⟨.modified, groupWorker 1 .running⟩).processEvent {} ⟨.modified, groupWorker 0 .failed⟩

/-- The map then has the old worker, as it has between the relaunch and the first event of the new
one. -/
theorem groups_lose_newest :
    ¬ (∀ (s t : DistributedJobManager) (as : List Action), s.Grouped →
      Run step (fun _ a ↦ GroupAction a) s as t → t.GroupsNewest) := by
  intro every
  have run : Run step (fun _ a ↦ GroupAction a) oneGroup lateEvent afterLateEvent :=
    .cons _ trivial rfl (.cons _ trivial rfl (.cons _ trivial rfl .nil))
  have new : afterLateEvent.InGroup 1 0 { groupWorker 1 .running with relaunchCount := 1 } :=
    ⟨by decide, by decide, rfl, rfl⟩
  rcases (every _ _ lateEvent oneGroup_grouped run).newest new with ⟨e, found, le⟩
  have old : (afterLateEvent.groupNode? 1 0).map Node.id = some 0 := by decide
  rw [found, Option.map_some, Option.some.injEq] at old
  rw [old] at le
  exact absurd le (by decide)

end DistributedJobManager

end ProbingBaselines.Dlrover.JobManager
