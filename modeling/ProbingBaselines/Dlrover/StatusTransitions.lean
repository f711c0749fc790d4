import Mathlib.Data.List.TakeWhile
import ProbingBaselines.Dlrover.NodeUpdates

/-!
# Changes of the status of a node

The status that is stored for a node under pod events, reconciliation with a list of pods, address
updates and the removal of the training nodes. An event stores the phase it carries and not the
status its flow leads to, and an address update makes any node run.
-/

namespace ProbingBaselines.Dlrover.JobManager

open Lib

namespace DistributedJobManager

variable {m m' : DistributedJobManager} {n node : Node} {k : NodeType × Nat}

/-- The steps that are looked at here. -/
def StatusAction : Action → Prop
  | .event .. | .listNodes .. | .serviceAddr .. | .removeTrainingNodes => True
  | _ => False

/-- The phase of an event that has a flow is the status the flow leads to. -/
def PhaseStored (m : DistributedJobManager) (env : Env) (e : NodeEvent) : Prop :=
  ∀ node flow, m.node? e.node.key = some node → Follows env e node flow →
    e.node.status = flow.toStatus

/-- The steps that keep to the state machine: the events do, and an address update is for a node
that has not ended. -/
def StatusOk (m : DistributedJobManager) : Action → Prop
  | .event env e => m.PhaseStored env e
  | .serviceAddr type id => ∀ n, m.node? (m.preprocess type, id) = some n → n.alive
  | a => StatusAction a

/-- No node is lost, and each status is as before or has changed along `ALLOWED_TRANSITIONS`. -/
def StatusesFollow (m m' : DistributedJobManager) : Prop :=
  ∀ k n, m.node? k = some n → ∃ n', m'.node? k = some n' ∧
    (n'.status = n.status ∨ Allowed n.status n'.status)

/-- A step that keeps to the state machine. -/
structure StatusStep (m : DistributedJobManager) (a : Action) (m' : DistributedJobManager) :
    Prop where
  follow : m.StatusesFollow m'
  stored : ∀ env e node flow, a = .event env e → m.node? e.node.key = some node →
    Follows env e node flow → ∃ n', m'.node? e.node.key = some n' ∧ n'.status = flow.toStatus

/-- The state stays well formed, with the same types, and the statuses follow. -/
structure Evolves (m m' : DistributedJobManager) : Prop where
  wellFormed : m'.WellFormed
  types : m'.types = m.types
  follow : m.StatusesFollow m'

theorem Evolves.refl (wf : m.WellFormed) : m.Evolves m :=
  ⟨wf, rfl, fun _ n found ↦ ⟨n, found, .inl rfl⟩⟩

theorem Evolves.trans {m'' : DistributedJobManager} (h : m.Evolves m') (h' : m'.Evolves m'') :
    m.Evolves m'' where
  wellFormed := h'.wellFormed
  types := h'.types.trans h.types
  follow k n found := by
    rcases h.follow k n found with ⟨n', found', change⟩
    rcases h'.follow k n' found' with ⟨n'', found'', change'⟩
    refine ⟨n'', found'', ?_⟩
    rcases change with same | allowed
    · rwa [same] at change'
    · rcases change' with same' | allowed'
      · rw [same']
        exact .inr allowed
      · exact .inr (allowed.trans allowed')

/-- Only the nodes and the types matter. -/
theorem Evolves.congr {m'' : DistributedJobManager} (h : m.Evolves m')
    (nodes : m''.jobNodes = m'.jobNodes) (types : m''.types = m'.types) : m.Evolves m'' where
  wellFormed := h.wellFormed.congr nodes types
  types := types.trans h.types
  follow k n found := by
    rw [node?, nodes]
    exact h.follow k n found

theorem storeNode_evolves (wf : m.WellFormed) (known : n.type ∈ m.types)
    (change : ∀ old, m.node? n.key = some old →
      n.status = old.status ∨ Allowed old.status n.status) : m.Evolves (m.updateNode n) where
  wellFormed := wf.updateNode known
  types := types_updateNode known
  follow k old found := by
    rw [node?_updateNode]
    split
    · next eq =>
      rw [eq] at found
      exact ⟨n, rfl, change old found⟩
    · exact ⟨old, found, .inl rfl⟩

theorem updateNode_evolves {o : Node} (wf : m.WellFormed) (found : m.node? n.key = some o)
    (change : n.status = o.status ∨ Allowed o.status n.status) :
    m.Evolves (m.updateNode n) := by
  apply storeNode_evolves wf
  · rw [show n.type = o.type from (congrArg Prod.fst (wf.keyed found)).symm]
    exact wf.typed found
  · intro old found'
    rw [found] at found'
    cases found'
    exact change

theorem updateJobNode_evolves {o : Node} (wf : m.WellFormed) (found : m.node? n.key = some o)
    (change : n.status = o.status ∨ Allowed o.status n.status) :
    m.Evolves (m.updateJobNode n) :=
  (updateNode_evolves wf found change).congr (jobNodes_updateNode m n).1.symm
    (jobNodes_updateNode m n).2.1.symm

/-- The node that is launched is new. -/
theorem relaunchNode_evolves {source : Node} {removeExitedNode reported : Bool}
    (wf : m.WellFormed) (found : m.node? node.key = some n) (same : node.status = n.status) :
    m.Evolves (m.relaunchNode node source removeExitedNode reported) where
  wellFormed := wf.relaunchNode (by
    have := wf.typed found
    rwa [show n.type = node.type from congrArg Prod.fst (wf.keyed found)] at this)
  types := types_relaunchNode (by
    have := wf.typed found
    rwa [show n.type = node.type from congrArg Prod.fst (wf.keyed found)] at this)
  follow k old found' := by
    rw [node?_relaunchNode]
    split
    · next eq =>
      rw [eq, found] at found'
      cases found'
      exact ⟨_, rfl, .inl same⟩
    · split
      · next eq =>
        rw [eq] at found'
        exact absurd (found'.symm.trans (wf.nextNodeId_fresh node.type)) (Option.some_ne_none _)
      · exact ⟨old, found', .inl rfl⟩

/-! ### The steps -/

theorem Follows.allowed {env : Env} {e : NodeEvent} {flow : NodeStateFlow}
    (h : Follows env e node flow) : Allowed node.status flow.toStatus := by
  rcases getNodeStateFlow_some h.found with ⟨mem, fromStatus, -⟩
  rw [← fromStatus]
  exact (nodeStateFlows_sound flow mem).1

theorem processEvent_evolves {env : Env} {e : NodeEvent} (wf : m.WellFormed)
    (phase : m.PhaseStored env e) : m.Evolves (m.processEvent env e) := by
  have updated : ∀ node, m.node? e.node.key = some node →
      m.Evolves (m.updateNode (node.updateInfo e.node)) := by
    intro node found
    apply updateNode_evolves (o := node) wf
    · rwa [Node.key_updateInfo, wf.keyed found]
    · exact .inl rfl
  have stored : ∀ node flow, m.node? e.node.key = some node → Follows env e node flow →
      m.Evolves ((m.updateNode (node.updateInfo e.node)).updateNode (eventNode node e)) := by
    intro node flow found follows
    have first := updated node found
    refine first.trans (updateNode_evolves (o := node.updateInfo e.node) first.wellFormed ?_
      (.inr ?_))
    · rw [node?_updateNode]
      exact if_pos rfl
    · show Allowed node.status e.node.status
      rw [phase node flow found follows]
      exact follows.allowed
  have effect := processEvent_effect m env e
  generalize m.processEvent env e = u at effect ⊢
  cases effect with
  | ignored => exact .refl wf
  | updated node found => exact updated node found
  | followed node flow found follows => exact stored node flow found follows
  | relaunched node flow found follows =>
    have first := stored node flow found follows
    refine first.trans (relaunchNode_evolves (n := eventNode node e) first.wellFormed ?_ ?_)
    · rw [node?_updateNode]
      exact if_pos (key_countRelaunch env _)
    · exact status_countRelaunch env _

/-- After an event with a flow its node has the phase of the event. -/
theorem processEvent_status {env : Env} {e : NodeEvent} {flow : NodeStateFlow}
    (wf : m.WellFormed) (found : m.node? e.node.key = some node)
    (follows : Follows env e node flow) :
    ∃ n', (m.processEvent env e).node? e.node.key = some n' ∧ n'.status = e.node.status := by
  have key : e.node.key = (eventNode node e).key := (wf.keyed found).symm
  have effect := processEvent_effect m env e
  generalize m.processEvent env e = u at effect ⊢
  cases effect with
  | ignored h =>
    rcases h with skipped | absent
    · exact absurd skipped follows.unskipped
    · rw [found] at absent
      cases absent
  | updated node' found' _ quiet =>
    rw [found] at found'
    cases found'
    exact absurd follows (quiet flow)
  | followed node' flow' found' =>
    rw [found] at found'
    cases found'
    refine ⟨eventNode node e, ?_, rfl⟩
    rw [node?_updateNode]
    exact if_pos key
  | relaunched node' flow' found' =>
    rw [found] at found'
    cases found'
    refine ⟨replacedNode (countRelaunch env (eventNode node e)) env.removeExitedNode, ?_, ?_⟩
    · rw [node?_relaunchNode]
      exact if_pos (key.trans (key_countRelaunch env _).symm)
    · exact status_countRelaunch env _

theorem processListNode_evolves {env : Env} {pod : Node} (wf : m.WellFormed)
    (known : pod.type ∈ m.types) : m.Evolves (m.processListNode env pod) := by
  unfold processListNode
  have added : m.Evolves
      (if pod.key ∉ m.jobNodes ∧ pod.status ≠ .deleted then m.updateNode pod else m) := by
    split
    · next absent =>
      apply storeNode_evolves wf known
      intro old found
      rw [show m.node? pod.key = none from Dict.get?_eq_none_iff.mpr absent.1] at found
      cases found
    · exact .refl wf
  generalize (if pod.key ∉ m.jobNodes ∧ pod.status ≠ .deleted then m.updateNode pod else m) = m₁
    at added ⊢
  simp only
  -- The event is processed in what the update of the group leaves.
  have processed : ∀ m₂, m₁.Evolves m₂ → m.Evolves (m₂.processEvent env
      { eventType := if pod.status = .deleted then .deleted else .modified, node := pod }) := by
    intro m₂ grouped
    refine (added.trans grouped).trans (processEvent_evolves grouped.wellFormed ?_)
    intro node flow _ follows
    apply getNodeStateFlow_toStatus follows.found
    by_cases deleted : pod.status = .deleted
    · exact .inr deleted
    · left
      simp only [if_neg deleted]
      decide
  apply processed
  split
  · next node found =>
    split
    · have key := added.wellFormed.keyed found
      apply updateJobNode_evolves (o := node) added.wellFormed
      · show m₁.node? node.key = some node
        rwa [key]
      · exact .inl rfl
    · exact .refl added.wellFormed
  · exact .refl added.wellFormed

/-- A fold of steps. -/
theorem foldl_evolves {α : Type} {f : DistributedJobManager → α → DistributedJobManager}
    {l : List α} {p : α → Prop} (wf : m.WellFormed) (all : ∀ a ∈ l, p a)
    (step : ∀ (m' : DistributedJobManager) (a : α), m'.WellFormed → m'.types = m.types → p a →
      m'.Evolves (f m' a)) :
    m.Evolves (l.foldl f m) := by
  have fold : ∀ (l : List α) (m' : DistributedJobManager), (∀ a ∈ l, p a) → m.Evolves m' →
      m.Evolves (l.foldl f m') := by
    intro l
    induction l with
    | nil => exact fun _ _ h ↦ h
    | cons a l ih =>
      intro m' all h
      apply ih _ fun b mem ↦ all b (List.mem_cons_of_mem _ mem)
      exact h.trans (step m' a h.wellFormed h.types (all a List.mem_cons_self))
  exact fold l m all (.refl wf)

theorem processListNodes_evolves {env : Nat → Env} {pods : List Node} (wf : m.WellFormed) :
    m.Evolves (m.processListNodes env pods) := by
  unfold processListNodes
  dsimp only
  have first : m.Evolves
      ((pods.takeWhile fun pod ↦ decide (pod.type ∈ m.types)).zipIdx.foldl
        (fun m pod ↦ m.processListNode (env pod.2) pod.1) m) := by
    apply foldl_evolves (p := fun pod ↦ pod.1.type ∈ m.types) wf
    · rintro ⟨pod, i⟩ mem
      have mem := List.fst_mem_of_mem_zipIdx mem
      have known := List.mem_takeWhile_imp mem
      exact of_decide_eq_true known
    · intro m' pod wf' types known
      apply processListNode_evolves wf'
      rwa [types]
  split
  · exact first
  · refine first.trans (foldl_evolves (p := fun e : NodeEvent × Nat ↦ e.1.node.status = .deleted)
      first.wellFormed ?_ ?_)
    · rintro ⟨e, i⟩ mem
      have mem := List.fst_mem_of_mem_zipIdx mem
      rcases List.mem_flatMap.mp mem with ⟨type, -, mem⟩
      rcases List.mem_flatMap.mp mem with ⟨n, -, mem⟩
      unfold lostEvents at mem
      simp only at mem
      split at mem
      · exact absurd mem List.not_mem_nil
      · split at mem
        · rw [List.mem_singleton.mp mem]
        · rcases List.mem_map.mp mem with ⟨pod, -, rfl⟩
          rfl
    · rintro m' ⟨e, i⟩ wf' - deleted
      apply processEvent_evolves wf'
      intro node flow _ follows
      exact getNodeStateFlow_toStatus follows.found (.inr deleted)

theorem removeTrainingNodes_evolves (wf : m.WellFormed) : m.Evolves m.removeTrainingNodes := by
  unfold removeTrainingNodes
  split
  · -- what is removed was running or pending when the list was made, or is deleted by now
    have fold : ∀ (l : List Node) (m' : DistributedJobManager), m.Evolves m' →
        (∀ n ∈ l, ∃ old, m'.node? n.key = some old ∧
          (old.status = n.status ∨ old.status = .deleted)) →
        m.Evolves (l.foldl removeTrainingNode m') := by
      intro l
      induction l with
      | nil => exact fun _ h _ ↦ h
      | cons n l ih =>
        intro m' h current
        rcases current n List.mem_cons_self with ⟨old, found, status⟩
        rw [List.foldl_cons]
        unfold removeTrainingNode
        split
        · next running =>
          refine ih _ (h.trans ((updateJobNode_evolves (n := { n with
            critical := false, relaunchable := false, isReleased := true, status := .deleted })
            h.wellFormed found (.inr ?_)).congr rfl rfl)) ?_
          · have table : ∀ status ∈ [NodeStatus.running, .pending, .deleted],
                Allowed status .deleted := by decide
            apply table
            rcases status with same | deleted
            · rw [same]
              exact List.mem_append_left [.deleted] running.1
            · rw [deleted]
              decide
          · intro n' mem
            rcases current n' (List.mem_cons_of_mem _ mem) with ⟨old', found', status'⟩
            show ∃ old, (m'.updateJobNode _).node? n'.key = some old ∧ _
            rw [node?_updateJobNode]
            split
            · exact ⟨_, rfl, .inr rfl⟩
            · exact ⟨old', found', status'⟩
        · exact ih m' h fun n' mem ↦ current n' (List.mem_cons_of_mem _ mem)
    apply fold _ m (.refl wf)
    intro n mem
    have stored : ∃ k, m.node? k = some n := by
      rcases List.mem_append.mp mem with mem | mem <;>
        exact (mem_nodesOf.mp mem).imp fun _ h ↦ h.1
    rcases stored with ⟨k, found⟩
    refine ⟨n, ?_, .inl rfl⟩
    rwa [wf.keyed found]
  · exact .refl wf

theorem updateNodeServiceAddr_evolves {type : NodeType} {id : Nat} (wf : m.WellFormed)
    (alive : ∀ n, m.node? (m.preprocess type, id) = some n → n.alive) :
    m.Evolves (m.updateNodeServiceAddr type id) := by
  unfold updateNodeServiceAddr
  split
  · exact .refl wf
  · next n found =>
    have table : ∀ status ∈ [NodeStatus.initial, .pending, .running], Allowed status .running := by
      decide
    have key := wf.keyed found
    apply updateJobNode_evolves (o := n) wf
    · show m.node? n.key = some n
      rwa [key]
    · exact .inr (table _ (alive n found))

/-- What each of the steps does to the statuses. -/
theorem step_evolves {a : Action} (wf : m.WellFormed) (ok : m.StatusOk a)
    (taken : m.step a = some m') : m.Evolves m' := by
  cases a with
  | event env e =>
    cases taken
    exact processEvent_evolves wf ok
  | listNodes env pods =>
    cases taken
    exact processListNodes_evolves wf
  | serviceAddr type id =>
    cases taken
    exact updateNodeServiceAddr_evolves wf ok
  | removeTrainingNodes =>
    cases taken
    exact removeTrainingNodes_evolves wf
  | _ => exact absurd ok not_false

/-- In every run of such steps each status only changes along `ALLOWED_TRANSITIONS`, a node that
ended stays so, and after each event with a flow the status is the one the flow leads to. -/
theorem status_follows_flows {s t : DistributedJobManager} {as : List Action} (start : s.WellFormed)
    (run : Run step StatusOk s as t) :
    t.WellFormed ∧ s.StatusesFollow t ∧
    (∀ k n, s.node? k = some n → n.status ∈ [NodeStatus.succeeded, .failed, .deleted] →
      ∃ n', t.node? k = some n' ∧ ¬ n'.alive) ∧
    ∀ a u, t.StatusOk a → t.step a = some u → t.StatusStep a u := by
  have evolves : s.Evolves t := by
    apply run.invariant (P := fun t ↦ s.Evolves t) (.refl start)
    intro t u a h ok taken
    exact h.trans (step_evolves h.wellFormed ok taken)
  refine ⟨evolves.wellFormed, evolves.follow, ?_, ?_⟩
  · intro k n found ended
    rcases evolves.follow k n found with ⟨n', found', change⟩
    refine ⟨n', found', ?_⟩
    have still : n'.status ∈ [NodeStatus.succeeded, .failed, .deleted] := by
      rcases change with same | allowed
      · rwa [same]
      · exact allowed.ended ended
    have apart : ∀ status ∈ [NodeStatus.succeeded, .failed, .deleted],
        status ∉ [NodeStatus.initial, .pending, .running] := by decide
    exact apart _ still
  · intro a u ok taken
    refine ⟨(step_evolves evolves.wellFormed ok taken).follow, ?_⟩
    rintro env e node flow rfl found follows
    cases taken
    rcases processEvent_status evolves.wellFormed found follows with ⟨n', found', status⟩
    exact ⟨n', found', status.trans (ok node flow found follows)⟩

/-- A job with one worker, which is pending. -/
def pendingWorker : DistributedJobManager :=
  initNodes [.worker]
    [{ type := .worker, id := 0, rankIndex := 0, status := .pending, maxRelaunchCount := 3 }]

theorem pendingWorker_wellFormed : pendingWorker.WellFormed :=
  initNodes_wellFormed (by decide) (by decide)

/-- An event of this worker. -/
def workerEvent (eventType : NodeEventType) (status : NodeStatus) : NodeEvent :=
  ⟨eventType,
    { type := .worker, id := 0, rankIndex := 0, status := status, maxRelaunchCount := 3 }⟩

/-- The worker starts to run. -/
theorem status_follows_flows_started :
    pendingWorker.StatusesFollow
      (pendingWorker.processEvent {} (workerEvent .modified .running)) := by
  have ok : pendingWorker.StatusOk (.event {} (workerEvent .modified .running)) :=
    fun _ _ _ follows ↦ getNodeStateFlow_toStatus follows.found (.inl (by decide))
  exact (status_follows_flows pendingWorker_wellFormed (.snoc (l := []) _ .nil ok rfl)).2.1

/-- When the pending worker is deleted its status stays pending, and when a deleted one reports an
address it runs. -/
theorem status_not_followed :
    ¬ (∀ (s t : DistributedJobManager) (as : List Action), s.WellFormed →
      Run step (fun _ a ↦ StatusAction a) s as t →
      ∀ a u, StatusAction a → t.step a = some u → t.StatusStep a u) ∧
    ¬ (∀ (s t : DistributedJobManager) (as : List Action), s.WellFormed →
      Run step (fun _ a ↦ StatusAction a) s as t →
      ∀ k n, s.node? k = some n → n.status ∈ [NodeStatus.succeeded, .failed, .deleted] →
        ∃ n', t.node? k = some n' ∧ ¬ n'.alive) := by
  constructor
  · intro every
    have steps := every pendingWorker _ [] pendingWorker_wellFormed .nil
      (.event {} (workerEvent .deleted .pending)) _ trivial rfl
    rcases steps.stored {} (workerEvent .deleted .pending)
      { type := .worker, id := 0, rankIndex := 0, status := .pending, maxRelaunchCount := 3 }
      ⟨.pending, .deleted, [.modified, .deleted], none, true⟩ rfl rfl
      ⟨by decide, by decide, by decide⟩ with ⟨n', found, status⟩
    have stored : ((pendingWorker.processEvent {} (workerEvent .deleted .pending)).node?
        (.worker, 0)).map Node.status = some .pending := by decide
    rw [show (pendingWorker.processEvent {} (workerEvent .deleted .pending)).node? (.worker, 0) =
      some n' from found, Option.map_some, status] at stored
    cases stored
  · intro every
    have wf : (pendingWorker.processEvent {} (workerEvent .deleted .deleted)).WellFormed :=
      (processEvent_evolves pendingWorker_wellFormed
        fun _ _ _ follows ↦ getNodeStateFlow_toStatus follows.found (.inr rfl)).wellFormed
    have again := every _ _ [.serviceAddr .worker 0] wf (.snoc (l := []) _ .nil trivial rfl)
      (.worker, 0)
    have stored : ((pendingWorker.processEvent {} (workerEvent .deleted .deleted)).node?
        (.worker, 0)).map Node.status = some .deleted := by decide
    rcases Option.map_eq_some_iff.mp stored with ⟨n, found, status⟩
    rcases again n found (by rw [status]; decide) with ⟨n', found', ended⟩
    have runs : (((pendingWorker.processEvent {}
        (workerEvent .deleted .deleted)).updateNodeServiceAddr .worker 0).node? (.worker, 0)).map
          Node.status = some .running := by decide
    rw [show ((pendingWorker.processEvent {} (workerEvent .deleted .deleted)).updateNodeServiceAddr
        .worker 0).node? (.worker, 0) = some n' from found', Option.map_some] at runs
    apply ended
    unfold Node.alive
    rw [Option.some.inj runs]
    decide

end DistributedJobManager

end ProbingBaselines.Dlrover.JobManager
