import ProbingBaselines.Dlrover.PsUpdates

/-!
# One parameter server for each rank

New servers get the ranks from the number of servers that train, and those that are dropped are the
last created. So a cluster has one server for each rank as long as the servers that train are those
that were asked for, and the last created ones have the highest ranks.
-/

namespace ProbingBaselines.Dlrover.JobManager

open Lib

namespace ParameterServerManager

open DistributedJobManager (Follows eventNode key_countRelaunch)

variable {m m' s t : ParameterServerManager} {n c old : Node} {r id lo hi : Nat}

/-- Each of the servers that were asked for runs. -/
def AllRunning (m : ParameterServerManager) : Prop :=
  ∀ id ∈ m.requested, ∃ n, m.nodes.find? id = some n ∧ n.status = .running

/-- The next cluster has one server for each rank, in the order of the ranks, and it runs and was
not released. -/
structure OnePerRank (m : ParameterServerManager) : Prop where
  ranks : m.nextTrainingPsCluster.map (fun r ↦ (m.node r).rankIndex) = List.range m.count
  running : ∀ r ∈ m.nextTrainingPsCluster,
    (m.node r).status = .running ∧ (m.node r).isReleased = false

/-- Each rank below `lo` has a server that was asked for, and a server that runs and is not to be
dropped has a rank below `hi`. -/
structure Cover (m : ParameterServerManager) (lo hi : Nat) : Prop where
  wellFormed : m.WellFormed
  served : ∀ rank < lo, ∃ id ∈ m.requested, ∃ n, m.nodes.find? id = some n ∧
    n.rankIndex = rank ∧ n.isReleased = false
  inside : ∀ id n, m.nodes.find? id = some n → n.status = .running → n.isReleased = false →
    ¬ m.nodes.Kept m.preDroppedPs id → n.rankIndex < hi
  apart : ∀ r ∈ m.preDroppedPs, (m.node r).id ∉ m.requested
  unmigrated : ∀ id ∈ m.migratedPsNodes, id ∉ m.requested

/-- The state between two steps. -/
def Covered (m : ParameterServerManager) : Prop := m.Cover m.count m.count

/-- An event that does not leave a server running whose rank is not below the count. -/
def EventCovers (m : ParameterServerManager) (env : Env) (e : NodeEvent) : Prop :=
  e.node.isReleased = false ∧
    ∀ n, m.nodes.find? e.node.id = some n → ¬ e.skipped env → m.count ≤ n.rankIndex →
      (∀ flow, Follows env e n flow → e.node.status ≠ .running) ∧
        ((∀ flow, ¬ Follows env e n flow) → n.status ≠ .running)

/-- A call of `adjust_ps`: what it adds begins at a rank that is served and ends beyond all others,
and what it drops is the servers whose rank is not below the new count. -/
structure AdjustCovers (m : ParameterServerManager) (count : Nat) : Prop where
  up : m.getTrainingPsCluster.length < count →
    m.getTrainingPsCluster.length ≤ m.count ∧ m.count ≤ count
  same : m.getTrainingPsCluster.length = count → m.count = count
  kept : count < m.getTrainingPsCluster.length →
    ∀ r ∈ m.alivePs, r ∉ m.droppedPs (m.getTrainingPsCluster.length - count) →
      (m.node r).rankIndex < count
  served : count < m.getTrainingPsCluster.length →
    ∀ rank < count, ∃ id ∈ m.requested, ∃ r, m.nodes.ref? id = some r ∧
      (m.node r).rankIndex = rank ∧ (m.node r).isReleased = false ∧
        r ∉ m.droppedPs (m.getTrainingPsCluster.length - count)

/-- The steps that keep one server for each rank. -/
def ClusterKeeps (m : ParameterServerManager) : Action → Prop
  | .event env e => m.EventCovers env e
  | .adjustPs _ _ count => m.AdjustCovers count
  | .resourceUsage id => ∀ n, m.nodes.find? id = some n → n.status = .running →
    n.isReleased = false → n.rankIndex < m.count
  | _ => True

/-! ### Changes of the nodes -/

/-- Only the nodes, what is to be dropped, what was asked for and what was migrated matter. -/
theorem Cover.congr (h : m.Cover lo hi) (nodes : m'.nodes = m.nodes)
    (dropped : m'.preDroppedPs = m.preDroppedPs) (requested : m'.requested = m.requested)
    (migrated : m'.migratedPsNodes = m.migratedPsNodes) : m'.Cover lo hi where
  wellFormed := h.wellFormed.congr nodes (dropped ▸ h.wellFormed.dropped)
    (migrated ▸ h.wellFormed.migrated)
  served := by
    rw [nodes, requested]
    exact h.served
  inside := by
    rw [nodes, dropped]
    exact h.inside
  apart := by
    unfold node
    rw [nodes, dropped, requested]
    exact h.apart
  unmigrated := by
    rw [migrated, requested]
    exact h.unmigrated

/-- Fewer ranks are to be served, and more may be. -/
theorem Cover.mono (h : m.Cover lo hi) {l u : Nat} (le : l ≤ lo) (le' : hi ≤ u) : m.Cover l u where
  wellFormed := h.wellFormed
  served rank lt := h.served rank (Nat.lt_of_lt_of_le lt le)
  inside id n found running unreleased dropped :=
    Nat.lt_of_lt_of_le (h.inside id n found running unreleased dropped) le'
  apart := h.apart
  unmigrated := h.unmigrated

/-- A node is stored again, with its rank. -/
theorem Cover.rewritten (h : m.Cover lo hi) (rewritten : Rewritten m m' r n)
    (stored : m.nodes.ref? n.id = some r) (rank : n.rankIndex = (m.node r).rankIndex)
    (released : (m.node r).isReleased = false → n.isReleased = false)
    (inside : n.status = .running → n.isReleased = false → n.rankIndex < hi) : m'.Cover lo hi := by
  have wf := h.wellFormed
  have found := WellFormed.find?_of_ref stored
  have dropped : m'.preDroppedPs = m.preDroppedPs := by rw [rewritten.rest]
  have requested : m'.requested = m.requested := by rw [rewritten.rest]
  constructor
  · exact rewritten.wellFormed
  · intro k lt
    rcases h.served k lt with ⟨id, mem, n', found', rank', unreleased⟩
    refine ⟨id, requested ▸ mem, ?_⟩
    rw [rewritten.find]
    split
    · next eq =>
      rw [eq, found] at found'
      cases found'
      exact ⟨n, rfl, rank.trans rank', released unreleased⟩
    · exact ⟨n', found', rank', unreleased⟩
  · intro id n' found' running unreleased free
    rw [rewritten.find] at found'
    split at found'
    · cases found'
      exact inside running unreleased
    · next ne =>
      refine h.inside id n' found' running unreleased fun kept ↦ free ?_
      rw [dropped]
      exact (rewritten.kept wf.used).mpr ⟨ne, kept⟩
  · intro r' mem
    rw [dropped] at mem
    rw [rewritten.node r' (wf.used r' mem), requested]
    split
    · next eq =>
      rw [← wf.keyed stored, ← eq]
      exact h.apart r' mem
    · exact h.apart r' mem
  · rw [requested, show m'.migratedPsNodes = m.migratedPsNodes by rw [rewritten.rest]]
    exact h.unmigrated

/-- A node is relaunched, with its rank. -/
theorem Cover.relaunched {new : Nat} (h : m.Cover lo hi) (relaunched : Relaunched m m' r c new)
    (stored : m.nodes.ref? c.id = some r) (rank : c.rankIndex = (m.node r).rankIndex) :
    m'.Cover lo hi := by
  have wf := h.wellFormed
  have found := WellFormed.find?_of_ref stored
  have unknown := ObjectTable.find?_eq_none relaunched.fresh
  have ne_new : new ≠ c.id := by
    rintro rfl
    cases stored.symm.trans relaunched.fresh
  constructor
  · exact relaunched.wellFormed
  · intro k lt
    rcases h.served k lt with ⟨id, mem, n', found', rank', unreleased⟩
    rw [relaunched.requested]
    by_cases eq : id = c.id
    · rw [eq, found] at found'
      cases found'
      refine ⟨new, List.mem_cons_self, c.generateRelaunchNode new, ?_, rank.trans rank', rfl⟩
      rw [relaunched.find, if_neg ne_new, if_pos rfl]
    · have ne : id ≠ new := by
        rintro rfl
        cases found'.symm.trans unknown
      refine ⟨id, ?_, n', ?_, rank', unreleased⟩
      · exact List.mem_cons_of_mem _ (List.mem_filter.mpr ⟨mem, decide_eq_true eq⟩)
      · rw [relaunched.find, if_neg eq, if_neg ne]
        exact found'
  · intro id n' found' running unreleased free
    rw [relaunched.find] at found'
    split at found'
    · cases found'
      cases unreleased
    · next ne =>
      split at found'
      · cases found'
        cases running
      · refine h.inside id n' found' running unreleased fun kept ↦ free ?_
        rw [relaunched.preDroppedPs]
        exact (relaunched.kept wf.used).mpr ⟨ne, kept⟩
  · intro r' mem
    rw [relaunched.preDroppedPs] at mem
    rcases wf.dropped r' mem with ⟨lt, known⟩
    have same : (m'.node r').id = (m.node r').id := by
      rw [relaunched.node r' lt]
      split
      · next eq => rw [eq, wf.keyed stored]
      · rfl
    rw [same, relaunched.requested]
    intro asked
    rcases List.mem_cons.mp asked with eq | asked
    · rw [eq, relaunched.fresh] at known
      exact known rfl
    · exact h.apart r' mem (List.mem_filter.mp asked).1
  · intro id mem asked
    rw [relaunched.migratedPsNodes] at mem
    rw [relaunched.requested] at asked
    rcases List.mem_cons.mp asked with rfl | asked
    · exact wf.migrated id mem relaunched.fresh
    · exact h.unmigrated id mem (List.mem_filter.mp asked).1

/-- A new node, which does not run yet. -/
theorem Cover.add (h : m.Cover lo hi) (m' : ParameterServerManager)
    (new : n.id = m.nextNodeId) (waits : n.status = .initial)
    (unreleased : n.isReleased = false) {l : List Nat} (requested : m'.requested = n.id :: l)
    (sub : ∀ id ∈ l, id ∈ m.requested) (nodes : m'.nodes = (m.addNode n).nodes)
    (dropped : m'.preDroppedPs = m.preDroppedPs)
    (migrated : ∀ id ∈ m'.migratedPsNodes, id ∈ m.migratedPsNodes ∨
      id ∉ l ∧ m.nodes.ref? id ≠ none)
    {k : Nat} (served : ∀ rank < k, rank = n.rankIndex ∨ ∃ id ∈ l, ∃ n',
      m.nodes.find? id = some n' ∧ n'.rankIndex = rank ∧ n'.isReleased = false) :
    m'.Cover k hi := by
  have wf := h.wellFormed
  have fresh : m.nodes.ref? n.id = none := new ▸ m.nextNodeId_fresh
  have find : ∀ id, m'.nodes.find? id = if id = n.id then some n else m.nodes.find? id := by
    intro id
    rw [nodes]
    exact wf.nodes.find?_add
  have known : ∀ id, m.nodes.ref? id ≠ none → id ≠ n.id := by
    rintro id stored rfl
    exact stored fresh
  constructor
  · have added := wf.addNode (n := n)
    refine added.congr nodes (dropped ▸ added.dropped) fun id mem ↦ ?_
    rcases migrated id mem with mem | ⟨-, stored⟩
    · exact added.migrated id mem
    · exact ObjectTable.ref?_add_ne_none stored
  · intro rank lt
    rw [requested]
    rcases served rank lt with eq | ⟨id, mem, n', found, rank', unreleased'⟩
    · exact ⟨n.id, List.mem_cons_self, n, (find n.id).trans (if_pos rfl), eq.symm, unreleased⟩
    · refine ⟨id, List.mem_cons_of_mem _ mem, n', (find id).trans ((if_neg ?_).trans found), rank',
        unreleased'⟩
      rintro rfl
      exact ObjectTable.ref?_ne_none found fresh
  · intro id n' found running unreleased' free
    rw [find] at found
    split at found
    · cases found
      rw [waits] at running
      cases running
    · next ne =>
      refine h.inside id n' found running unreleased' fun kept ↦ free ?_
      rw [dropped, nodes]
      exact (ObjectTable.kept_add wf.used).mpr ⟨ne, kept⟩
  · intro r' mem
    rw [dropped] at mem
    rcases wf.dropped r' mem with ⟨lt, stored⟩
    have same : m'.node r' = m.node r' := by
      unfold node
      rw [nodes]
      exact ObjectTable.object_add_of_lt lt
    rw [same, requested]
    intro asked
    rcases List.mem_cons.mp asked with eq | asked
    · exact known _ stored eq
    · exact h.apart r' mem (sub _ asked)
  · intro id mem asked
    rw [requested] at asked
    rcases migrated id mem with mem | ⟨unasked, stored⟩
    · rcases List.mem_cons.mp asked with eq | asked
      · exact known id (wf.migrated id mem) eq
      · exact h.unmigrated id mem (sub id asked)
    · rcases List.mem_cons.mp asked with eq | asked
      · exact known id stored eq
      · exact unasked asked

/-! ### Events -/

theorem Covered.processEvent (h : m.Covered) {env : Env} {e : NodeEvent}
    (keeps : m.EventCovers env e) : (m.processEvent env e).Covered := by
  rcases keeps with ⟨parsed, outside⟩
  have wf := h.wellFormed
  -- an event that leaves its server running is of a rank below the count
  have inside : ∀ r, m.nodes.ref? e.node.id = some r → ¬ e.skipped env →
      ¬ ((∀ flow, Follows env e (m.node r) flow → e.node.status ≠ .running) ∧
        ((∀ flow, ¬ Follows env e (m.node r) flow) → (m.node r).status ≠ .running)) →
      (m.node r).rankIndex < m.count := by
    intro r stored unskipped running
    by_contra beyond
    exact running (outside _ (WellFormed.find?_of_ref stored) unskipped (Nat.le_of_not_lt beyond))
  have effect := wf.processEvent_effect env e
  generalize m.processEvent env e = m' at effect ⊢
  cases effect with
  | ignored => exact h
  | updated r stored unskipped quiet rewritten =>
    have count : m'.count = m.count := by rw [rewritten.rest]
    have key := wf.keyed stored
    unfold Covered
    rw [count]
    refine h.rewritten rewritten (n := (m.node r).updateInfo e.node) ?_ rfl (fun _ ↦ parsed) ?_
    · exact (congrArg m.nodes.ref? key).trans stored
    · exact fun running _ ↦ inside r stored unskipped fun ended ↦ ended.2 quiet running
  | followed r flow stored follows rewritten =>
    have count : m'.count = m.count := by rw [rewritten.rest]
    have key := wf.keyed stored
    unfold Covered
    rw [count]
    refine h.rewritten rewritten (n := eventNode (m.node r) e) ?_ rfl (fun _ ↦ parsed) ?_
    · exact (congrArg m.nodes.ref? key).trans stored
    · exact fun running _ ↦
        inside r stored follows.unskipped fun ended ↦ ended.1 flow follows running
  | relaunched r new flow stored follows relaunched =>
    have counted := countRelaunch_unchanged env (eventNode (m.node r) e)
    unfold Covered
    rw [relaunched.count]
    refine h.relaunched relaunched ?_ counted.2
    rw [counted.1]
    exact (congrArg m.nodes.ref? (wf.keyed stored)).trans stored

theorem Covered.relaunchStored (h : m.Covered) (id : Nat) : (m.relaunchStored id).Covered := by
  have wf := h.wellFormed
  unfold ParameterServerManager.relaunchStored
  split
  · exact h
  · next r stored =>
    have key := wf.keyed stored
    have relaunched := wf.relaunchedStored stored
    unfold Covered
    rw [relaunched.count]
    exact h.relaunched relaunched (by rw [key]; exact stored) rfl

theorem Covered.updateNodeResourceUsage (h : m.Covered) {id : Nat}
    (keeps : m.ClusterKeeps (.resourceUsage id)) : (m.updateNodeResourceUsage id).Covered := by
  have wf := h.wellFormed
  unfold ParameterServerManager.updateNodeResourceUsage
  split
  · exact h
  · next r stored =>
    have key := wf.keyed stored
    have rewritten := wf.rewrittenStored r
    have count : (m.updateNode r).count = m.count := rfl
    unfold Covered
    rw [count]
    refine h.rewritten rewritten (by rw [key]; exact stored) rfl (fun unreleased ↦ unreleased) ?_
    exact keeps (m.node r) (WellFormed.find?_of_ref stored)

/-! ### Scaling -/

theorem Covered.loadTrainingPsCluster (h : m.Covered) : m.loadTrainingPsCluster.Covered := by
  rcases m.loadTrainingPsCluster_eq with ⟨training, next, eq⟩
  rw [eq]
  exact Cover.congr h rfl rfl rfl rfl

/-- New servers take the ranks that follow. -/
theorem Cover.scaleUpPs (h : m.Cover lo hi) (env : Env) (memory up : Nat) :
    (m.scaleUpPs env memory lo up).Cover (lo + up) hi := by
  induction up with
  | zero => exact h
  | succ up ih =>
    refine ih.add (m.scaleUpPs env memory lo (up + 1)) rfl rfl rfl rfl (fun _ mem ↦ mem) rfl rfl
      (fun _ mem ↦ .inl mem) ?_
    intro rank lt
    by_cases eq : rank = lo + up
    · exact .inl eq
    · exact .inr (ih.served rank (Nat.lt_of_le_of_ne (Nat.le_of_lt_succ lt) eq))

theorem count_scaleUpPs (env : Env) (memory first up : Nat) :
    (m.scaleUpPs env memory first up).count = m.count := by
  induction up with
  | zero => rfl
  | succ up ih => exact ih

/-- The last created of the alive servers are dropped. -/
theorem Cover.scaleDownPs (h : m.Cover lo hi) {down k : Nat}
    (kept : ∀ r ∈ m.alivePs, r ∉ m.droppedPs down → (m.node r).rankIndex < k)
    (served : ∀ rank < k, ∃ id ∈ m.requested, ∃ r, m.nodes.ref? id = some r ∧
      (m.node r).rankIndex = rank ∧ (m.node r).isReleased = false ∧ r ∉ m.droppedPs down) :
    (m.scaleDownPs down).Cover k k := by
  have wf := h.wellFormed
  have alive : ∀ r ∈ m.droppedPs down, m.nodes.ref? (m.node r).id = some r :=
    fun r mem ↦ (wf.mem_alivePs.mp (List.mem_reverse.mp (List.mem_of_mem_take mem))).1
  have stays : ∀ {id}, id ∈ (m.scaleDownPs down).requested ↔
      id ∈ m.requested ∧ ∀ r ∈ m.droppedPs down, (m.node r).id ≠ id := by
    intro id
    unfold ParameterServerManager.scaleDownPs
    simp only [List.mem_filter, decide_eq_true_eq, List.mem_map, not_exists, not_and]
  constructor
  · refine wf.congr rfl (fun r mem ↦ ?_) wf.migrated
    have stored := alive r mem
    refine ⟨wf.nodes.used stored, ?_⟩
    rw [stored]
    exact Option.some_ne_none _
  · intro rank lt
    rcases served rank lt with ⟨id, mem, r, stored, eq, unreleased, free⟩
    refine ⟨id, stays.mpr ⟨mem, ?_⟩, m.node r, WellFormed.find?_of_ref stored, eq, unreleased⟩
    rintro r' dropped rfl
    cases (alive r' dropped).symm.trans stored
    exact free dropped
  · intro id n found running unreleased free
    rcases ObjectTable.find?_eq_some_iff.mp found with ⟨r, stored, rfl⟩
    have key := wf.keyed stored
    refine kept r (wf.mem_alivePs.mpr ⟨?_, running, unreleased⟩) fun dropped ↦ free ?_
    · rw [key]
      exact stored
    · exact ⟨r, dropped, stored⟩
  · intro r mem asked
    exact (stays.mp asked).2 r mem rfl
  · intro id mem asked
    exact h.unmigrated id mem (stays.mp asked).1

theorem Covered.adjustPs (h : m.Covered) {env : Env} {memory count : Nat}
    (keeps : m.AdjustCovers count) : (m.adjustPs env memory count).Covered := by
  rcases m.loadTrainingPsCluster_eq with ⟨training, next, eq⟩
  unfold ParameterServerManager.adjustPs
  dsimp only
  rw [eq]
  split
  · next up =>
    rcases keeps.up up with ⟨le, le'⟩
    have changed : Cover
        { m with
          trainingPsCluster := training
          nextTrainingPsCluster := next
          psClusterChanged := true
          count }
        m.getTrainingPsCluster.length count := (h.mono le le').congr rfl rfl rfl rfl
    have grown := changed.scaleUpPs env memory (count - m.getTrainingPsCluster.length)
    unfold Covered
    rw [count_scaleUpPs]
    rwa [Nat.add_sub_cancel' (Nat.le_of_lt up)] at grown
  · have loaded : Cover
        { m with trainingPsCluster := training, nextTrainingPsCluster := next, count }
        m.count m.count := Cover.congr h rfl rfl rfl rfl
    split
    · next down => exact loaded.scaleDownPs (keeps.kept down) (keeps.served down)
    · next eq ne =>
      have same := keeps.same (Nat.le_antisymm (Nat.le_of_not_lt ne) (Nat.le_of_not_lt eq))
      unfold Covered
      rwa [same] at loaded

theorem Cover.migrateParameterServer (h : m.Cover lo hi) (env : Env) (oldId memory : Nat) :
    (m.migrateParameterServer env oldId memory).Cover lo hi := by
  unfold ParameterServerManager.migrateParameterServer
  split
  · exact h
  · split
    · exact h
    · next original found =>
      have stored := ObjectTable.ref?_ne_none found
      apply h.add (n := { type := .ps, id := m.nextNodeId, rankIndex := original.rankIndex
                          critical := true, maxRelaunchCount := env.maxRelaunchNum, memory })
        (l := m.requested.filter fun id ↦ id ≠ oldId)
      · rfl
      · rfl
      · rfl
      · rfl
      · exact fun id mem ↦ (List.mem_filter.mp mem).1
      · rfl
      · rfl
      · intro id mem
        rcases Dict.mem_insert.mp mem with rfl | mem
        · refine .inr ⟨fun mem ↦ ?_, stored⟩
          exact of_decide_eq_true (List.mem_filter.mp mem).2 rfl
        · exact .inl mem
      · intro rank lt
        rcases h.served rank lt with ⟨id, mem, n, found', rank', unreleased⟩
        by_cases eq : id = oldId
        · rw [eq, found] at found'
          cases found'
          exact .inl rank'.symm
        · refine .inr ⟨id, ?_, n, found', rank', unreleased⟩
          exact List.mem_filter.mpr ⟨mem, decide_eq_true eq⟩

theorem count_migrateParameterServer (env : Env) (oldId memory : Nat) :
    (m.migrateParameterServer env oldId memory).count = m.count := by
  unfold migrateParameterServer
  split
  · rfl
  · split <;> rfl

theorem Covered.migrateParameterServers (h : m.Covered) (env : Env) (servers : List (Nat × Nat)) :
    (m.migrateParameterServers env servers).Covered := by
  unfold ParameterServerManager.migrateParameterServers
  induction servers generalizing m with
  | nil => exact h
  | cons server servers ih =>
    apply ih
    unfold Covered
    rw [count_migrateParameterServer]
    exact Cover.migrateParameterServer h env server.1 server.2

/-! ### A new cluster -/

/-- Migrated servers are dropped, which nobody asks for. -/
theorem Cover.preDropped {l : List Nat} (h : m.Cover lo hi) (dropped : PreDropped m l m')
    (alive : ∀ r ∈ l, r ∈ m.alivePs) : m'.Cover lo hi := by
  have wf := h.wellFormed
  have requested : m'.requested = m.requested := by rw [dropped.rest]
  constructor
  · exact dropped.wellFormed
  · intro rank lt
    rcases h.served rank lt with ⟨id, mem, n, found, rank', unreleased⟩
    rcases dropped.found id n found with ⟨b, found'⟩
    exact ⟨id, requested ▸ mem, _, found', rank', unreleased⟩
  · intro id n' found running unreleased free
    rcases dropped.find id n' found with ⟨n, b, before, rfl⟩
    exact h.inside id n before running unreleased fun kept ↦ free (dropped.kept id kept)
  · intro r mem
    rw [requested]
    rcases (dropped.listed r).mp mem with mem | ⟨mem, migrated⟩
    · rw [dropped.node_id (wf.used r mem)]
      exact h.apart r mem
    · rw [dropped.node_id (wf.nodes.used (wf.mem_alivePs.mp (alive r mem)).1)]
      exact h.unmigrated _ migrated
  · rw [requested, show m'.migratedPsNodes = m.migratedPsNodes by rw [dropped.rest]]
    exact h.unmigrated

theorem Covered.getNextTrainingPsCluster (h : m.Covered) (waited : Nat → Bool) :
    (m.getNextTrainingPsCluster waited).Covered := by
  unfold ParameterServerManager.getNextTrainingPsCluster
  split
  · rcases h.wellFormed.preDropped with ⟨l, alive, dropped⟩
    have cover := Cover.preDropped h dropped alive
    have count : (m.preDropMigratedPs m.alivePs).count = m.count := by rw [dropped.rest]
    unfold Covered
    dsimp only
    rw [count]
    exact cover.congr rfl rfl rfl rfl
  · exact h

/-- The servers that are removed were not asked for. -/
theorem Covered.processAfterPsClusterReady (h : m.Covered) :
    m.processAfterPsClusterReady.Covered := by
  have processed := h.wellFormed.processed
  generalize m.processAfterPsClusterReady = m' at processed ⊢
  have requested := processed.kept.1
  unfold Covered
  rw [processed.kept.2]
  constructor
  · exact processed.wellFormed
  · intro rank lt
    rcases h.served rank lt with ⟨id, mem, n, found, rank', unreleased⟩
    refine ⟨id, requested ▸ mem, n, processed.found id n ?_ found, rank', unreleased⟩
    rintro ⟨r, dropped, rfl⟩
    exact h.apart r dropped mem
  · intro id n found running unreleased _
    rcases processed.find id n found with ⟨-, released⟩ | ⟨free, before⟩
    · rw [released] at unreleased
      cases unreleased
    · refine h.inside id n before running unreleased ?_
      rintro ⟨r, mem, stored⟩
      exact free ⟨r, mem, h.wellFormed.keyed stored⟩
  · rw [processed.preDroppedPs]
    exact fun r mem ↦ absurd mem List.not_mem_nil
  · intro id mem
    rw [requested]
    exact h.unmigrated id (processed.migrated id mem)

/-- A dictionary that has the keys below `k`, in the order of the keys. -/
theorem sorted_keys {d : Dict Nat Nat} {k : Nat} (keys : ∀ rank, rank ∈ d ↔ rank < k) :
    (d.items.insertionSort fun a b ↦ a.1 ≤ b.1).map Prod.fst = List.range k := by
  have sorted : ((d.items.insertionSort fun a b ↦ a.1 ≤ b.1).map Prod.fst).Pairwise (· ≤ ·) := by
    rw [List.pairwise_map]
    exact List.pairwise_insertionSort _ _
  have perm : ((d.items.insertionSort fun a b ↦ a.1 ≤ b.1).map Prod.fst).Perm (List.range k) := by
    refine ((List.perm_insertionSort _ _).map Prod.fst).trans ?_
    refine (List.perm_ext_iff_of_nodup d.keys_nodup List.nodup_range).mpr fun rank ↦ ?_
    rw [List.mem_range]
    exact keys rank
  exact perm.eq_of_pairwise' sorted List.pairwise_le_range

/-- The ranks of the alive servers that are not to be dropped are those below the count. -/
theorem Covered.rank_iff {l : List Nat} (h : m.Covered) (running : m.AllRunning)
    (dropped : PreDropped m l m') (alive : ∀ r ∈ l, r ∈ m.alivePs) (rank : Nat) :
    (∃ r ∈ m.alivePs, r ∉ m'.preDroppedPs ∧ (m'.node r).rankIndex = rank) ↔ rank < m.count := by
  have wf := h.wellFormed
  have cover := Cover.preDropped h dropped alive
  have requested : m'.requested = m.requested := by rw [dropped.rest]
  constructor
  · rintro ⟨r, mem, free, rfl⟩
    rcases wf.mem_alivePs.mp mem with ⟨stored, runs, unreleased⟩
    rcases dropped.node r (wf.nodes.used stored) with ⟨b, eq⟩
    rw [eq]
    refine h.inside _ (m.node r) (WellFormed.find?_of_ref stored) runs unreleased ?_
    rintro ⟨r', mem', stored'⟩
    cases stored.symm.trans stored'
    exact free ((dropped.listed r).mpr (.inl mem'))
  · intro lt
    rcases h.served rank lt with ⟨id, mem, n, found, rfl, unreleased⟩
    rcases running id mem with ⟨n', found', runs⟩
    cases found.symm.trans found'
    rcases ObjectTable.find?_eq_some_iff.mp found with ⟨r, stored, rfl⟩
    have key := wf.keyed stored
    have mem_alive : r ∈ m.alivePs := by
      refine wf.mem_alivePs.mpr ⟨?_, runs, unreleased⟩
      rw [key]
      exact stored
    rcases dropped.node r (wf.nodes.used stored) with ⟨b, eq⟩
    refine ⟨r, mem_alive, fun mem' ↦ ?_, by rw [eq]; rfl⟩
    refine cover.apart r mem' ?_
    rw [eq, requested]
    exact key ▸ mem

/-- A cluster that is formed while all servers that were asked for run. -/
theorem Covered.onePerRank {waited : Nat → Bool} (h : m.Covered) (forms : m.forms waited)
    (running : m.AllRunning) : (m.getNextTrainingPsCluster waited).OnePerRank := by
  have wf := h.wellFormed
  rcases wf.preDropped with ⟨l, alive, dropped⟩
  have rank_iff := h.rank_iff running dropped alive
  have count : (m.preDropMigratedPs m.alivePs).count = m.count := by rw [dropped.rest]
  unfold ParameterServerManager.getNextTrainingPsCluster
  rw [if_pos forms]
  unfold nonMigratedPs
  dsimp only
  generalize m.preDropMigratedPs m.alivePs = m' at dropped rank_iff count ⊢
  generalize servers_eq : ((m.alivePs.filter fun r ↦ r ∉ m'.preDroppedPs).map fun r ↦
    ((m'.node r).rankIndex, r)) = servers
  have server : ∀ {e}, e ∈ servers ↔
      e.2 ∈ m.alivePs ∧ e.2 ∉ m'.preDroppedPs ∧ (m'.node e.2).rankIndex = e.1 := by
    intro e
    rw [← servers_eq, List.mem_map]
    constructor
    · rintro ⟨r, mem, rfl⟩
      rcases List.mem_filter.mp mem with ⟨alive, free⟩
      exact ⟨alive, of_decide_eq_true free, rfl⟩
    · rintro ⟨alive, free, rank⟩
      exact ⟨e.2, List.mem_filter.mpr ⟨alive, decide_eq_true free⟩, by rw [rank]⟩
  have sorted := sorted_keys (d := Dict.ofItems servers) (k := m.count) fun rank ↦ by
    rw [Dict.mem_ofItems, ← rank_iff rank, List.mem_map]
    constructor
    · rintro ⟨e, mem, rfl⟩
      exact ⟨e.2, server.mp mem⟩
    · rintro ⟨r, mem⟩
      exact ⟨(rank, r), server.mpr mem, rfl⟩
  have items : ∀ e ∈ (Dict.ofItems servers).items.insertionSort fun a b ↦ a.1 ≤ b.1,
      e.2 ∈ m.alivePs ∧ (m'.node e.2).rankIndex = e.1 := by
    intro e mem
    have listed := Dict.mem_items_ofItems ((List.mem_insertionSort _).mp mem)
    exact (server.mp listed).imp_right And.right
  constructor
  · show (List.map _ _).map (fun r ↦ (m'.node r).rankIndex) = List.range m'.count
    rw [count, ← sorted, List.map_map]
    exact List.map_congr_left fun e mem ↦ (items e mem).2
  · intro r listed
    show (m'.node r).status = .running ∧ (m'.node r).isReleased = false
    rcases List.mem_map.mp listed with ⟨e, mem, rfl⟩
    rcases wf.mem_alivePs.mp (items e mem).1 with ⟨stored, runs⟩
    rcases dropped.node e.2 (wf.nodes.used stored) with ⟨b, eq⟩
    rw [eq]
    exact runs

/-! ### Runs -/

theorem init_covered (maxRelaunchCount count : Nat) : (init maxRelaunchCount count).Covered := by
  rcases init_nodes maxRelaunchCount count with ⟨-, -, ref, node⟩
  constructor
  · exact init_wellFormed maxRelaunchCount count
  · intro rank lt
    have stored : (init maxRelaunchCount count).nodes.ref? rank = some rank :=
      (ref rank).trans (if_pos lt)
    refine ⟨rank, List.mem_range.mpr lt, _, WellFormed.find?_of_ref stored, ?_, ?_⟩
    · rw [node rank lt]
    · rw [node rank lt]
  · intro id n found running
    rcases ObjectTable.find?_eq_some_iff.mp found with ⟨r, stored, rfl⟩
    rw [ref] at stored
    split at stored
    · next lt =>
      cases stored
      rw [show (init maxRelaunchCount count).nodes.object id = _ from node id lt] at running
      cases running
    · cases stored
  · exact fun r mem ↦ absurd mem List.not_mem_nil
  · exact fun id mem ↦ absurd mem (Dict.not_mem_empty id)

/-- One step keeps a server for each rank. -/
theorem Covered.step (h : m.Covered) {a : Action} (keeps : m.ClusterKeeps a)
    (taken : m.step a = some m') : m'.Covered := by
  cases a with
  | adjustPs env memory count =>
    cases taken
    exact h.adjustPs keeps
  | migrateParameterServers env servers =>
    cases taken
    exact h.migrateParameterServers env servers
  | relaunchNode id =>
    cases taken
    exact h.relaunchStored id
  | event env e =>
    cases taken
    exact h.processEvent keeps
  | resourceUsage id =>
    cases taken
    exact h.updateNodeResourceUsage keeps
  | getTrainingPsCluster =>
    cases taken
    exact h.loadTrainingPsCluster
  | getNextTrainingPsCluster waited =>
    cases taken
    exact h.getNextTrainingPsCluster waited
  | processAfterPsClusterReady =>
    cases taken
    exact h.processAfterPsClusterReady

/-- In a job whose calls of `adjust_ps` add servers at the end of the ranks and drop the highest
ones, and in which no event leaves a server beyond the count running, a cluster that is formed while
all servers that were asked for run has one for each rank. -/
theorem cluster_one_per_rank {maxRelaunchCount count : Nat} {as : List Action}
    {waited : Nat → Bool} (run : Run step ClusterKeeps (init maxRelaunchCount count) as t)
    (forms : t.forms waited) (running : t.AllRunning) :
    (t.getNextTrainingPsCluster waited).OnePerRank := by
  have covered : t.Covered :=
    run.invariant (init_covered maxRelaunchCount count) fun t u a h keeps taken ↦ h.step keeps taken
  exact covered.onePerRank forms running

theorem eventCovers_of_rank {env : Env} {e : NodeEvent} (parsed : e.node.isReleased = false)
    (rank : (m.nodes.find? e.node.id).all (fun n ↦ n.rankIndex < m.count) = true) :
    m.EventCovers env e := by
  refine ⟨parsed, fun n found _ beyond ↦ ?_⟩
  rw [found, Option.all_some, decide_eq_true_eq] at rank
  exact absurd rank (Nat.not_lt_of_le beyond)

theorem allRunning_of_all
    (all : m.requested.all (fun id ↦ (m.nodes.find? id).any fun n ↦ n.status = .running) = true) :
    m.AllRunning := by
  intro id mem
  have running := List.all_eq_true.mp all id mem
  cases found : m.nodes.find? id with
  | none =>
    rw [found] at running
    cases running
  | some n =>
    rw [found, Option.any_some, decide_eq_true_eq] at running
    exact ⟨n, rfl, running⟩

/-- Two servers run and make a cluster, and a third one is added. -/
def thirdServer : List Action :=
  [.event {} (serverEvent 0 .running), .event {} (serverEvent 1 .running),
    .getNextTrainingPsCluster fun _ ↦ false, .processAfterPsClusterReady, .adjustPs {} 0 3,
    .event {} (serverEvent 2 .running)]

/-- The new cluster has all three. -/
theorem cluster_one_per_rank_third :
    (((init 3 2).play thirdServer).getNextTrainingPsCluster fun _ ↦ false).OnePerRank := by
  have grows : ((init 3 2).play (thirdServer.take 4)).AdjustCovers 3 := by
    constructor
    · decide +kernel
    · decide +kernel
    · exact fun down ↦ absurd down (by decide +kernel)
    · exact fun down ↦ absurd down (by decide +kernel)
  have run : Run step ClusterKeeps (init 3 2) thirdServer ((init 3 2).play thirdServer) :=
    run_play ⟨eventCovers_of_rank rfl (by decide +kernel),
      eventCovers_of_rank rfl (by decide +kernel), trivial, trivial, grows,
      eventCovers_of_rank rfl (by decide +kernel), trivial⟩
  exact cluster_one_per_rank run (by decide +kernel) (allRunning_of_all (by decide +kernel))

/-- The server of rank 1 fails, and server 3 takes its place. Then two servers are asked for. -/
def middleFails : List Action :=
  [.event {} (serverEvent 0 .running), .event {} (serverEvent 1 .running),
    .event {} (serverEvent 2 .running), .event {} (serverEvent 1 .failed),
    .event {} (serverEvent 3 .running), .getNextTrainingPsCluster fun _ ↦ false,
    .processAfterPsClusterReady, .adjustPs {} 0 2]

/-- Server 3 is dropped, and the new cluster has the ranks 0 and 2. -/
theorem cluster_lacks_rank :
    ¬ (∀ (maxRelaunchCount count : Nat) (as : List Action) (t : ParameterServerManager)
        (waited : Nat → Bool),
      Run step (fun _ a ↦ PodAction a) (init maxRelaunchCount count) as t → t.forms waited →
      t.AllRunning → (t.getNextTrainingPsCluster waited).OnePerRank) := by
  intro every
  have run : Run step (fun _ a ↦ PodAction a) (init 3 3) middleFails
      ((init 3 3).play middleFails) :=
    run_play ⟨rfl, rfl, rfl, rfl, rfl, trivial, trivial, trivial, trivial⟩
  have ranks := (every 3 3 middleFails _ (fun _ ↦ false) run (by decide +kernel)
    (allRunning_of_all (by decide +kernel))).ranks
  revert ranks
  decide +kernel

end ParameterServerManager

end ProbingBaselines.Dlrover.JobManager
