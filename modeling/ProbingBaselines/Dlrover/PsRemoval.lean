import ProbingBaselines.Dlrover.PsUpdates

/-!
# Removing parameter servers

A server that is to be dropped is kept as an object, and a new cluster leaves out the objects that
are kept. So a server is left out and removed once as long as the object that is stored is still the
one that was kept, and a migrated server is noticed only if the object that was kept of the new one
runs.
-/

namespace ProbingBaselines.Dlrover.JobManager

open Lib

namespace ParameterServerManager

open DistributedJobManager (Follows eventNode)

variable {m m' s t : ParameterServerManager} {n c : Node} {r id : Nat}

/-- The number of plans that remove the server. -/
def plansWith (m : ParameterServerManager) (id : Nat) : Nat :=
  m.removeNodes.countP fun plan ↦ id ∈ plan

/-- The server runs and was not released. -/
def Alive (m : ParameterServerManager) (id : Nat) : Prop :=
  ∃ n, m.nodes.find? id = some n ∧ n.status = .running ∧ n.isReleased = false

/-- A server that is dropped waits and is in no plan, or is in one plan, and it is in one plan after
the next one. -/
structure RemovedOnce (m : ParameterServerManager) : Prop where
  once : ∀ id, id ∈ m.chosen ∨ id ∈ m.replaced →
    m.Waits id ∧ m.plansWith id = 0 ∨ ¬ m.Waits id ∧ m.plansWith id = 1
  next : ∀ id, id ∈ m.chosen ∨ id ∈ m.replaced → m.processAfterPsClusterReady.plansWith id = 1

/-- The cluster that is formed has no server that was chosen, or whose migrated server runs. -/
def LeavesOut (m : ParameterServerManager) (waited : Nat → Bool) : Prop :=
  ∀ r ∈ (m.getNextTrainingPsCluster waited).nextTrainingPsCluster, ∀ id,
    id ∈ m.chosen ∨ id ∈ m.replacedPs → ((m.getNextTrainingPsCluster waited).node r).id ≠ id

/-- What is known of the servers that were dropped. -/
structure Tracked (m : ParameterServerManager) : Prop where
  wellFormed : m.WellFormed
  kept : ∀ id ∈ m.chosen, m.Alive id → m.nodes.Kept m.preDroppedPs id
  ended : ∀ id, m.plansWith id ≠ 0 → ¬ m.Alive id
  apart : ∀ id, m.Waits id → m.plansWith id = 0
  once : ∀ id, m.plansWith id ≤ 1
  listed : ∀ id, id ∈ m.chosen ∨ id ∈ m.replaced → m.Waits id ∨ m.plansWith id ≠ 0

/-- An event that does not leave a server running that was chosen or removed. -/
def EventRemoves (m : ParameterServerManager) (env : Env) (e : NodeEvent) : Prop :=
  e.node.isReleased = false ∧
    ∀ n, m.nodes.find? e.node.id = some n → ¬ e.skipped env →
      e.node.id ∈ m.chosen ∨ m.plansWith e.node.id ≠ 0 →
      (∀ flow, Follows env e n flow → e.node.status ≠ .running) ∧
        ((∀ flow, ¬ Follows env e n flow) → n.status ≠ .running)

/-- The steps that keep track of the servers: what was chosen gets no update while it runs, the
servers that wait are among those that are chosen next, and when a cluster is formed the objects
that are kept of the new servers run, and the old ones do unless they were dropped before. -/
def RemovalKeeps (m : ParameterServerManager) : Action → Prop
  | .event env e => m.EventRemoves env e
  | .resourceUsage id => id ∈ m.chosen → ¬ m.Alive id
  | .adjustPs _ _ count => count < m.getTrainingPsCluster.length →
    ∀ r ∈ m.preDroppedPs, r ∈ m.droppedPs (m.getTrainingPsCluster.length - count)
  | .getNextTrainingPsCluster waited => m.forms waited → ∀ id ∈ m.replacedPs,
    (∀ r ∈ m.migratedPsNodes.values, (m.node r).status = .running) ∧
      (m.Waits id ∨ m.plansWith id ≠ 0 ∨ m.Alive id)
  | _ => True

/-! ### Changes of the nodes -/

/-- The nodes are changed, the objects that are kept keep their ids, and a server that is alive was
so before, unless it is neither chosen nor in a plan. -/
theorem Tracked.change (h : m.Tracked) (wf : m'.WellFormed)
    (dropped : m'.preDroppedPs = m.preDroppedPs)
    (history : m'.chosen = m.chosen ∧ m'.replaced = m.replaced ∧ m'.removeNodes = m.removeNodes)
    (ids : ∀ r ∈ m.preDroppedPs, (m'.node r).id = (m.node r).id)
    (alive : ∀ id, id ∈ m.chosen ∨ m.plansWith id ≠ 0 → m'.Alive id →
      m.Alive id ∧ (m.nodes.Kept m.preDroppedPs id → m'.nodes.Kept m.preDroppedPs id)) :
    m'.Tracked := by
  have waits : ∀ {id}, m'.Waits id ↔ m.Waits id := by
    intro id
    unfold Waits
    rw [dropped]
    constructor
    · rintro ⟨r, mem, eq⟩
      exact ⟨r, mem, (ids r mem).symm.trans eq⟩
    · rintro ⟨r, mem, eq⟩
      exact ⟨r, mem, (ids r mem).trans eq⟩
  have plans : ∀ id, m'.plansWith id = m.plansWith id := by
    intro id
    unfold plansWith
    rw [history.2.2]
  constructor
  · exact wf
  · rw [history.1, dropped]
    intro id mem runs
    rcases alive id (.inl mem) runs with ⟨before, keeps⟩
    exact keeps (h.kept id mem before)
  · intro id planned runs
    rw [plans] at planned
    exact h.ended id planned (alive id (.inr planned) runs).1
  · exact fun id waiting ↦ (plans id).trans (h.apart id (waits.mp waiting))
  · exact fun id ↦ (plans id).symm ▸ h.once id
  · rw [history.1, history.2.1]
    intro id dropped
    rw [waits, plans]
    exact h.listed id dropped

/-- Only the nodes, what is to be dropped and the history matter. -/
theorem Tracked.congr (h : m.Tracked) (nodes : m'.nodes = m.nodes)
    (dropped : m'.preDroppedPs = m.preDroppedPs)
    (migrated : ∀ id ∈ m'.migratedPsNodes, m.nodes.ref? id ≠ none)
    (history : m'.chosen = m.chosen ∧ m'.replaced = m.replaced ∧ m'.removeNodes = m.removeNodes) :
    m'.Tracked := by
  have wf := h.wellFormed.congr nodes (dropped ▸ h.wellFormed.dropped) migrated
  refine h.change wf dropped history ?_ ?_
  · intro r _
    unfold node
    rw [nodes]
  · intro id _ alive
    unfold Alive at alive
    rw [nodes] at alive ⊢
    exact ⟨alive, fun kept ↦ kept⟩

/-- A node is stored again. -/
theorem Tracked.rewritten (h : m.Tracked) (rewritten : Rewritten m m' r n)
    (own : n.id = (m.node r).id)
    (stays : n.id ∈ m.chosen ∨ m.plansWith n.id ≠ 0 →
      ¬ (n.status = .running ∧ n.isReleased = false)) : m'.Tracked := by
  have used := h.wellFormed.used
  refine h.change rewritten.wellFormed (by rw [rewritten.rest]) (by rw [rewritten.rest]; simp) ?_ ?_
  · intro r' mem
    rw [rewritten.node r' (used r' mem)]
    split
    · next eq => rw [eq, own]
    · rfl
  · rintro id chosen ⟨n', found, runs⟩
    rw [rewritten.find] at found
    split at found
    · next eq =>
      cases found
      exact absurd runs (stays (eq ▸ chosen))
    · next ne =>
      exact ⟨⟨n', found, runs⟩, fun kept ↦ (rewritten.kept used).mpr ⟨ne, kept⟩⟩

/-- A node is relaunched. -/
theorem Tracked.relaunched {new : Nat} (h : m.Tracked) (relaunched : Relaunched m m' r c new)
    (own : c.id = (m.node r).id) : m'.Tracked := by
  have used := h.wellFormed.used
  refine h.change relaunched.wellFormed relaunched.preDroppedPs relaunched.history ?_ ?_
  · intro r' mem
    rw [relaunched.node r' (used r' mem)]
    split
    · next eq => rw [eq, ← own]
    · rfl
  · rintro id chosen ⟨n', found, running, unreleased⟩
    rw [relaunched.find] at found
    split at found
    · cases found
      cases unreleased
    · next ne =>
      split at found
      · cases found
        cases running
      · exact ⟨⟨n', found, running, unreleased⟩,
          fun kept ↦ (relaunched.kept used).mpr ⟨ne, kept⟩⟩

/-- A new node, which does not run yet. -/
theorem Tracked.add (h : m.Tracked) (waits : n.status = .initial) : (m.addNode n).Tracked := by
  have used := h.wellFormed.used
  refine h.change h.wellFormed.addNode rfl ⟨rfl, rfl, rfl⟩ ?_ ?_
  · intro r mem
    rw [node_addNode (used r mem)]
  · rintro id chosen ⟨n', found, running, unreleased⟩
    have found : (m.nodes.add n.id n).find? id = some n' := found
    rw [h.wellFormed.nodes.find?_add] at found
    split at found
    · cases found
      rw [waits] at running
      cases running
    · next ne =>
      exact ⟨⟨n', found, running, unreleased⟩,
        fun kept ↦ (ObjectTable.kept_add used).mpr ⟨ne, kept⟩⟩

/-! ### Events -/

theorem Tracked.processEvent (h : m.Tracked) {env : Env} {e : NodeEvent}
    (keeps : m.EventRemoves env e) : (m.processEvent env e).Tracked := by
  have wf := h.wellFormed
  have effect := wf.processEvent_effect env e
  generalize m.processEvent env e = m' at effect ⊢
  cases effect with
  | ignored => exact h
  | updated r stored unskipped quiet rewritten =>
    have key := wf.keyed stored
    refine h.rewritten rewritten rfl fun dropped runs ↦ ?_
    have ends := keeps.2 _ (WellFormed.find?_of_ref stored) unskipped (key ▸ dropped)
    exact ends.2 quiet runs.1
  | followed r flow stored follows rewritten =>
    have key := wf.keyed stored
    refine h.rewritten rewritten rfl fun dropped runs ↦ ?_
    have ends := keeps.2 _ (WellFormed.find?_of_ref stored) follows.unskipped (key ▸ dropped)
    exact ends.1 flow follows runs.1
  | relaunched r new flow stored follows relaunched =>
    exact h.relaunched relaunched (countRelaunch_unchanged env _).1

theorem Tracked.relaunchStored (h : m.Tracked) (id : Nat) : (m.relaunchStored id).Tracked := by
  unfold ParameterServerManager.relaunchStored
  split
  · exact h
  · next r stored => exact h.relaunched (h.wellFormed.relaunchedStored stored) rfl

theorem Tracked.updateNodeResourceUsage (h : m.Tracked) {id : Nat}
    (keeps : m.RemovalKeeps (.resourceUsage id)) : (m.updateNodeResourceUsage id).Tracked := by
  have wf := h.wellFormed
  unfold ParameterServerManager.updateNodeResourceUsage
  split
  · exact h
  · next r stored =>
    have key := wf.keyed stored
    refine h.rewritten (wf.rewrittenStored r) rfl fun dropped runs ↦ ?_
    have alive : m.Alive id := ⟨m.node r, WellFormed.find?_of_ref stored, runs⟩
    rw [key] at dropped
    rcases dropped with chosen | planned
    · exact keeps chosen alive
    · exact h.ended id planned alive

/-! ### Scaling and migration -/

theorem Tracked.loadTrainingPsCluster (h : m.Tracked) : m.loadTrainingPsCluster.Tracked := by
  rcases m.loadTrainingPsCluster_eq with ⟨training, next, eq⟩
  rw [eq]
  exact h.congr rfl rfl h.wellFormed.migrated ⟨rfl, rfl, rfl⟩

theorem Tracked.scaleUpPs (h : m.Tracked) (env : Env) (memory first up : Nat) :
    (m.scaleUpPs env memory first up).Tracked := by
  induction up with
  | zero => exact h
  | succ up ih =>
    have added := ih.add (n :=
      { type := .ps, id := (m.scaleUpPs env memory first up).nextNodeId
        rankIndex := first + up, critical := true
        maxRelaunchCount := env.maxRelaunchNum, memory }) rfl
    exact added.congr rfl rfl added.wellFormed.migrated ⟨rfl, rfl, rfl⟩

theorem Tracked.plansWith_alive (h : m.Tracked) (alive : m.Alive id) : m.plansWith id = 0 := by
  by_contra planned
  exact h.ended id planned alive

theorem WellFormed.alive_of_mem (wf : m.WellFormed) (mem : r ∈ m.alivePs) :
    m.Alive (m.node r).id :=
  ⟨m.node r, WellFormed.find?_of_ref (wf.mem_alivePs.mp mem).1, (wf.mem_alivePs.mp mem).2⟩

theorem WellFormed.mem_of_alive (wf : m.WellFormed) (alive : m.Alive id) :
    ∃ r ∈ m.alivePs, m.nodes.ref? id = some r ∧ (m.node r).id = id := by
  rcases alive with ⟨n, found, runs⟩
  rcases ObjectTable.find?_eq_some_iff.mp found with ⟨r, stored, rfl⟩
  have key := wf.keyed stored
  refine ⟨r, wf.mem_alivePs.mpr ⟨?_, runs⟩, stored, key⟩
  rw [key]
  exact stored

/-- The servers that wait are chosen again. -/
theorem Tracked.scaleDownPs (h : m.Tracked) {down : Nat}
    (again : ∀ r ∈ m.preDroppedPs, r ∈ m.droppedPs down) : (m.scaleDownPs down).Tracked := by
  have wf := h.wellFormed
  have alive : ∀ r ∈ m.droppedPs down, r ∈ m.alivePs :=
    fun r mem ↦ List.mem_reverse.mp (List.mem_of_mem_take mem)
  have waits : ∀ {id}, m.Waits id → (m.scaleDownPs down).Waits id := by
    rintro id ⟨r, mem, eq⟩
    exact ⟨r, again r mem, eq⟩
  constructor
  · refine wf.congr rfl (fun r mem ↦ ?_) wf.migrated
    have stored := (wf.mem_alivePs.mp (alive r mem)).1
    refine ⟨wf.nodes.used stored, ?_⟩
    rw [stored]
    exact Option.some_ne_none _
  · intro id mem runs
    rcases List.mem_append.mp mem with new | old
    · rcases List.mem_map.mp new with ⟨r, dropped, rfl⟩
      exact ⟨r, dropped, (wf.mem_alivePs.mp (alive r dropped)).1⟩
    · rcases h.kept id old runs with ⟨r, waiting, stored⟩
      exact ⟨r, again r waiting, stored⟩
  · exact h.ended
  · rintro id ⟨r, dropped, rfl⟩
    exact h.plansWith_alive (wf.alive_of_mem (alive r dropped))
  · exact h.once
  · rintro id (mem | replaced)
    · rcases List.mem_append.mp mem with new | old
      · rcases List.mem_map.mp new with ⟨r, mem, eq⟩
        exact .inl ⟨r, mem, eq⟩
      · exact (h.listed id (.inl old)).imp_left waits
    · exact (h.listed id (.inr replaced)).imp_left waits

theorem Tracked.adjustPs (h : m.Tracked) {env : Env} {memory count : Nat}
    (keeps : m.RemovalKeeps (.adjustPs env memory count)) :
    (m.adjustPs env memory count).Tracked := by
  have wf := h.wellFormed
  rcases m.loadTrainingPsCluster_eq with ⟨training, next, eq⟩
  unfold ParameterServerManager.adjustPs
  dsimp only
  rw [eq]
  split
  · have changed : Tracked
        { m with
          trainingPsCluster := training
          nextTrainingPsCluster := next
          psClusterChanged := true
          count } := h.congr rfl rfl wf.migrated ⟨rfl, rfl, rfl⟩
    exact changed.scaleUpPs env memory _ _
  · have loaded : Tracked
        { m with trainingPsCluster := training, nextTrainingPsCluster := next, count } :=
      h.congr rfl rfl wf.migrated ⟨rfl, rfl, rfl⟩
    split
    · next down => exact loaded.scaleDownPs (keeps down)
    · exact loaded

theorem Tracked.migrateParameterServer (h : m.Tracked) (env : Env) (oldId memory : Nat) :
    (m.migrateParameterServer env oldId memory).Tracked := by
  unfold ParameterServerManager.migrateParameterServer
  split
  · exact h
  · split
    · exact h
    · next original found =>
      have added := h.add (n :=
        { type := .ps, id := m.nextNodeId, rankIndex := original.rankIndex, critical := true
          maxRelaunchCount := env.maxRelaunchNum, memory }) rfl
      refine added.congr rfl rfl (fun id mem ↦ ?_) ⟨rfl, rfl, rfl⟩
      rcases Dict.mem_insert.mp mem with rfl | mem
      · exact ObjectTable.ref?_add_ne_none (ObjectTable.ref?_ne_none found)
      · exact added.wellFormed.migrated id mem

theorem Tracked.migrateParameterServers (h : m.Tracked) (env : Env) (servers : List (Nat × Nat)) :
    (m.migrateParameterServers env servers).Tracked := by
  unfold ParameterServerManager.migrateParameterServers
  induction servers generalizing m with
  | nil => exact h
  | cons server servers ih => exact ih (h.migrateParameterServer env server.1 server.2)

/-! ### A new cluster -/

theorem mem_keys_of_replacedPs (mem : id ∈ m.replacedPs) : id ∈ m.migratedPsNodes := by
  rcases List.mem_map.mp mem with ⟨e, listed, rfl⟩
  exact List.mem_map.mpr ⟨e, (List.mem_filter.mp listed).1, rfl⟩

/-- Dropping alive servers makes none alive, and none of them is in a plan. -/
theorem Tracked.preDropped {l : List Nat} (h : m.Tracked) (dropped : PreDropped m l m')
    (alive : ∀ r ∈ l, r ∈ m.alivePs) : m'.Tracked := by
  have wf := h.wellFormed
  have plans : ∀ id, m'.plansWith id = m.plansWith id := by
    intro id
    unfold plansWith
    rw [dropped.rest]
  have before : ∀ {id}, m'.Alive id → m.Alive id := by
    rintro id ⟨n', found, runs⟩
    rcases dropped.find id n' found with ⟨n, b, found₀, rfl⟩
    exact ⟨n, found₀, runs⟩
  have chosen : m'.chosen = m.chosen := by rw [dropped.rest]
  have replaced : m'.replaced = m.replaced := by rw [dropped.rest]
  constructor
  · exact dropped.wellFormed
  · rw [chosen]
    exact fun id mem runs ↦ dropped.kept id (h.kept id mem (before runs))
  · exact fun id planned runs ↦ h.ended id (plans id ▸ planned) (before runs)
  · rintro id ⟨r, mem, rfl⟩
    rw [plans]
    rcases (dropped.listed r).mp mem with mem | ⟨mem, -⟩
    · rw [dropped.node_id (wf.used r mem)]
      exact h.apart _ ⟨r, mem, rfl⟩
    · rw [dropped.node_id (wf.nodes.used (wf.mem_alivePs.mp (alive r mem)).1)]
      exact h.plansWith_alive (wf.alive_of_mem (alive r mem))
  · exact fun id ↦ (plans id).symm ▸ h.once id
  · intro id mem
    rw [chosen, replaced] at mem
    rw [plans]
    exact (h.listed id mem).imp_left fun waiting ↦ dropped.waits wf waiting

/-- A server whose new server runs is dropped, unless it was before. -/
theorem Tracked.replaced_listed (h : m.Tracked) {waited : Nat → Bool} (forms : m.forms waited)
    (keeps : m.RemovalKeeps (.getNextTrainingPsCluster waited)) (replaced : id ∈ m.replacedPs) :
    (m.preDropMigratedPs m.alivePs).Waits id ∨ m.plansWith id ≠ 0 := by
  have wf := h.wellFormed
  rcases keeps forms id replaced with ⟨running, state⟩
  have dropped := wf.preDropped_of_running running
  rcases state with waiting | planned | alive
  · exact .inl (dropped.waits wf waiting)
  · exact .inr planned
  · rcases wf.mem_of_alive alive with ⟨r, mem, stored, rfl⟩
    have listed : r ∈ (m.preDropMigratedPs m.alivePs).preDroppedPs :=
      (dropped.listed r).mpr (.inr ⟨mem, mem_keys_of_replacedPs replaced⟩)
    exact .inl ⟨r, listed, dropped.node_id (wf.nodes.used stored)⟩

theorem Tracked.getNextTrainingPsCluster (h : m.Tracked) {waited : Nat → Bool}
    (keeps : m.RemovalKeeps (.getNextTrainingPsCluster waited)) :
    (m.getNextTrainingPsCluster waited).Tracked := by
  unfold ParameterServerManager.getNextTrainingPsCluster
  split
  · next forms =>
    rcases h.wellFormed.preDropped with ⟨l, alive, dropped⟩
    have tracked := h.preDropped dropped alive
    have listed : ∀ {id}, id ∈ m.replacedPs →
        (m.preDropMigratedPs m.alivePs).Waits id ∨ m.plansWith id ≠ 0 :=
      fun replaced ↦ h.replaced_listed forms keeps replaced
    have plans : (m.preDropMigratedPs m.alivePs).removeNodes = m.removeNodes := by
      rw [dropped.rest]
    have before : (m.preDropMigratedPs m.alivePs).replaced = m.replaced := by rw [dropped.rest]
    generalize m.preDropMigratedPs m.alivePs = m' at tracked listed plans before ⊢
    refine ⟨tracked.wellFormed.congr rfl tracked.wellFormed.dropped tracked.wellFormed.migrated,
      tracked.kept, tracked.ended, tracked.apart, tracked.once, ?_⟩
    rintro id (chosen | mem)
    · exact tracked.listed id (.inl chosen)
    · rcases List.mem_append.mp mem with new | old
      · refine (listed new).imp_right fun planned ↦ ?_
        unfold plansWith
        rwa [plans]
      · exact tracked.listed id (.inr (before ▸ old))
  · exact h

/-- A server that was chosen is no longer alive or the object that is kept, and one that is replaced
is dropped now. -/
theorem Tracked.leavesOut (h : m.Tracked) {waited : Nat → Bool}
    (keeps : m.RemovalKeeps (.getNextTrainingPsCluster waited)) (forms : m.forms waited) :
    m.LeavesOut waited := by
  have wf := h.wellFormed
  unfold LeavesOut
  unfold ParameterServerManager.getNextTrainingPsCluster
  rw [if_pos forms]
  intro r listed id left_out
  rcases mem_nonMigratedPs listed with ⟨mem, free⟩
  have stored := (wf.mem_alivePs.mp mem).1
  rcases wf.preDropped with ⟨l, alive, dropped⟩
  show ((m.preDropMigratedPs m.alivePs).node r).id ≠ id
  rw [dropped.node_id (wf.nodes.used stored)]
  rintro rfl
  rcases left_out with chosen | replaced
  · rcases h.kept _ chosen (wf.alive_of_mem mem) with ⟨r', waiting, stored'⟩
    cases stored.symm.trans stored'
    exact free ((dropped.listed r).mpr (.inl waiting))
  · have all := wf.preDropped_of_running (keeps forms _ replaced).1
    exact free ((all.listed r).mpr (.inr ⟨mem, mem_keys_of_replacedPs replaced⟩))

/-! ### The plans -/

open Classical in
/-- The new plan removes the servers that wait. -/
theorem Processed.plansWith (processed : Processed m m') (id : Nat) :
    m'.plansWith id = (if m.Waits id then 1 else 0) + m.plansWith id := by
  rcases processed.removeNodes with ⟨plan, plans, mem⟩
  unfold ParameterServerManager.plansWith
  rw [plans, List.countP_cons, Nat.add_comm]
  simp only [decide_eq_true_eq, mem]

theorem Tracked.processAfterPsClusterReady (h : m.Tracked) :
    m.processAfterPsClusterReady.Tracked := by
  have processed := h.wellFormed.processed
  generalize m.processAfterPsClusterReady = m' at processed ⊢
  have before : ∀ {id}, m'.Alive id → ¬ m.Waits id ∧ m.Alive id := by
    rintro id ⟨n, found, running, unreleased⟩
    rcases processed.find id n found with ⟨-, released⟩ | ⟨free, found⟩
    · rw [released] at unreleased
      cases unreleased
    · exact ⟨free, n, found, running, unreleased⟩
  have idle : ∀ id, ¬ m'.Waits id := by
    rintro id ⟨r, mem, -⟩
    rw [processed.preDroppedPs] at mem
    cases mem
  constructor
  · exact processed.wellFormed
  · intro id mem runs
    rw [processed.history.1] at mem
    rcases before runs with ⟨free, alive⟩
    rcases h.kept id mem alive with ⟨r, waiting, stored⟩
    exact absurd ⟨r, waiting, h.wellFormed.keyed stored⟩ free
  · intro id planned runs
    rcases before runs with ⟨free, alive⟩
    rw [processed.plansWith, if_neg free, h.plansWith_alive alive] at planned
    exact planned rfl
  · exact fun id waiting ↦ absurd waiting (idle id)
  · intro id
    rw [processed.plansWith]
    split
    · next waiting => rw [h.apart id waiting]
    · rw [Nat.zero_add]
      exact h.once id
  · intro id mem
    rw [processed.history.1, processed.history.2] at mem
    right
    rw [processed.plansWith]
    rcases h.listed id mem with waiting | planned
    · rw [if_pos waiting]
      omega
    · omega

theorem Tracked.removedOnce (h : m.Tracked) : m.RemovedOnce := by
  have plan := h.wellFormed.processed.plansWith
  constructor
  · intro id mem
    by_cases waiting : m.Waits id
    · exact .inl ⟨waiting, h.apart id waiting⟩
    · have planned := (h.listed id mem).resolve_left waiting
      exact .inr ⟨waiting, Nat.le_antisymm (h.once id) (Nat.pos_of_ne_zero planned)⟩
  · intro id mem
    rw [plan]
    split
    · next waiting => rw [h.apart id waiting]
    · next free =>
      have planned := (h.listed id mem).resolve_left free
      have once := h.once id
      omega

/-! ### Runs -/

theorem init_tracked (maxRelaunchCount count : Nat) : (init maxRelaunchCount count).Tracked := by
  constructor
  · exact init_wellFormed maxRelaunchCount count
  · exact fun id mem ↦ absurd mem List.not_mem_nil
  · exact fun id planned ↦ absurd rfl planned
  · exact fun id _ ↦ rfl
  · exact fun id ↦ Nat.zero_le 1
  · rintro id (mem | mem)
    · cases mem
    · cases mem

/-- One step keeps track of the servers. -/
theorem Tracked.step (h : m.Tracked) {a : Action} (keeps : m.RemovalKeeps a)
    (taken : m.step a = some m') : m'.Tracked := by
  cases a with
  | adjustPs env memory count =>
    cases taken
    exact h.adjustPs keeps
  | migrateParameterServers env servers =>
    cases taken
    exact h.migrateParameterServers env servers
  | relaunchNode id =>
    cases taken
    exact h.relaunchStored id
  | event env e =>
    cases taken
    exact h.processEvent keeps
  | resourceUsage id =>
    cases taken
    exact h.updateNodeResourceUsage keeps
  | getTrainingPsCluster =>
    cases taken
    exact h.loadTrainingPsCluster
  | getNextTrainingPsCluster waited =>
    cases taken
    exact h.getNextTrainingPsCluster keeps
  | processAfterPsClusterReady =>
    cases taken
    exact h.processAfterPsClusterReady

/-- In a run that keeps track of them, a server that was chosen or replaced waits until the next
plan removes it, no other plan does, and no cluster that is formed has it. -/
theorem dropped_removed_once {maxRelaunchCount count : Nat} {as : List Action}
    (run : Run step RemovalKeeps (init maxRelaunchCount count) as t) :
    t.RemovedOnce ∧ ∀ waited, t.RemovalKeeps (.getNextTrainingPsCluster waited) →
      t.forms waited → t.LeavesOut waited := by
  have tracked : t.Tracked :=
    run.invariant (init_tracked maxRelaunchCount count) fun t u a h keeps taken ↦ h.step keeps taken
  exact ⟨tracked.removedOnce, fun waited keeps forms ↦ tracked.leavesOut keeps forms⟩

/-- An event of a server that was neither chosen nor removed. -/
theorem eventRemoves_of_free {env : Env} {e : NodeEvent} (parsed : e.node.isReleased = false)
    (unchosen : e.node.id ∉ m.chosen) (unplanned : m.plansWith e.node.id = 0) :
    m.EventRemoves env e :=
  ⟨parsed, fun _ _ _ dropped ↦ absurd unplanned (dropped.resolve_left unchosen)⟩

theorem removalKeeps_of_none {waited : Nat → Bool} (none : m.replacedPs = []) :
    m.RemovalKeeps (.getNextTrainingPsCluster waited) := by
  intro _ id mem
  rw [none] at mem
  cases mem

theorem alive_of_any (any : (m.nodes.find? id).any (fun n ↦
    n.status = .running ∧ n.isReleased = false) = true) : m.Alive id := by
  cases found : m.nodes.find? id with
  | none =>
    rw [found] at any
    cases any
  | some n =>
    rw [found, Option.any_some, decide_eq_true_eq] at any
    exact ⟨n, found, any⟩

/-- Server 0 is replaced by server 2 and removed, and then server 2 is chosen. -/
def replacedThenChosen : List Action :=
  [.event {} (serverEvent 0 .running), .event {} (serverEvent 1 .running),
    .migrateParameterServers {} [(0, 0)], .event {} (serverEvent 2 .running),
    .getNextTrainingPsCluster fun _ ↦ false, .processAfterPsClusterReady, .adjustPs {} 0 1]

/-- Server 0 was in one plan, server 2 waits for the next one, and neither is in the next
cluster. -/
theorem dropped_removed_once_replaced :
    ((init 3 2).play replacedThenChosen).RemovedOnce ∧
      ((init 3 2).play replacedThenChosen).LeavesOut fun _ ↦ false := by
  have replaced : ((init 3 2).play (replacedThenChosen.take 4)).RemovalKeeps
      (.getNextTrainingPsCluster fun _ ↦ false) := by
    have replacedPs : ((init 3 2).play (replacedThenChosen.take 4)).replacedPs = [0] := by
      decide +kernel
    intro _ id mem
    rw [replacedPs, List.mem_singleton] at mem
    rw [mem]
    exact ⟨by decide +kernel, .inr (.inr (alive_of_any (by decide +kernel)))⟩
  have chosen : ((init 3 2).play (replacedThenChosen.take 6)).RemovalKeeps (.adjustPs {} 0 1) :=
    fun _ ↦ by decide +kernel
  have run : Run step RemovalKeeps (init 3 2) replacedThenChosen
      ((init 3 2).play replacedThenChosen) :=
    run_play ⟨eventRemoves_of_free rfl (by decide +kernel) (by decide +kernel),
      eventRemoves_of_free rfl (by decide +kernel) (by decide +kernel), trivial,
      eventRemoves_of_free rfl (by decide +kernel) (by decide +kernel), replaced, trivial, chosen,
      trivial⟩
  rcases dropped_removed_once run with ⟨once, leaves⟩
  exact ⟨once, leaves _ (removalKeeps_of_none (by decide +kernel)) (by decide +kernel)⟩

/-- Server 1 is chosen, and then its pod sends an event. -/
def chosenThenEvent : List Action :=
  [.event {} (serverEvent 0 .running), .event {} (serverEvent 1 .running),
    .getNextTrainingPsCluster fun _ ↦ false, .processAfterPsClusterReady, .adjustPs {} 0 1,
    .event {} (serverEvent 1 .running)]

/-- Server 1 replaces server 0, and its pod is pending before it runs. -/
def pendingThenReplaced : List Action :=
  [.event {} (serverEvent 0 .running), .migrateParameterServers {} [(0, 0)],
    .event {} (serverEvent 1 .pending), .event {} (serverEvent 1 .running),
    .getNextTrainingPsCluster fun _ ↦ false]

/-- The object that is stored of server 1 is not the one that is kept: after `chosenThenEvent` the
next cluster has server 1, and after `pendingThenReplaced` no plan removes server 0. -/
theorem dropped_stays :
    ¬ (∀ (maxRelaunchCount count : Nat) (as : List Action) (t : ParameterServerManager)
        (waited : Nat → Bool),
      Run step (fun _ a ↦ PodAction a) (init maxRelaunchCount count) as t → t.forms waited →
      t.LeavesOut waited) ∧
    ¬ (∀ (maxRelaunchCount count : Nat) (as : List Action) (t : ParameterServerManager),
      Run step (fun _ a ↦ PodAction a) (init maxRelaunchCount count) as t → t.RemovedOnce) := by
  constructor
  · intro every
    have run : Run step (fun _ a ↦ PodAction a) (init 3 2) chosenThenEvent
        ((init 3 2).play chosenThenEvent) :=
      run_play ⟨rfl, rfl, trivial, trivial, trivial, rfl, trivial⟩
    have leaves := every 3 2 chosenThenEvent _ (fun _ ↦ false) run (by decide +kernel)
    -- object 6 is the copy of server 1 that is stored
    exact leaves 6 (by decide +kernel) 1 (.inl (by decide +kernel)) (by decide +kernel)
  · intro every
    have run : Run step (fun _ a ↦ PodAction a) (init 3 1) pendingThenReplaced
        ((init 3 1).play pendingThenReplaced) :=
      run_play ⟨rfl, trivial, rfl, rfl, trivial, trivial⟩
    have once := (every 3 1 pendingThenReplaced _ run).next 0 (.inr (by decide +kernel))
    revert once
    decide +kernel

end ParameterServerManager

end ProbingBaselines.Dlrover.JobManager
