import Mathlib.Data.List.TakeWhile
import ProbingBaselines.Dlrover.NodeGroups

/-!
# Reconciliation with a list of pods

Where `_process_list_nodes` leaves the nodes. The event it makes for a pod or for a node that is not
on the list only changes that node, apart from a node that is launched under a new id, so that each
status is decided by the one event. A worker that succeeded keeps its status when its pod is gone:
the watcher deletes such pods itself.
-/

namespace ProbingBaselines.Dlrover.JobManager

open Lib

namespace DistributedJobManager

variable {m m' : DistributedJobManager} {n node : Node} {k : NodeType × Nat} {env : Nat → Env}
  {pods : List Node}

/-- The nodes when the turn of a pod comes. -/
def beforeTurn (m : DistributedJobManager) (env : Nat → Env) (pods : List Node) (i : Nat) :
    DistributedJobManager :=
  (pods.take i).zipIdx.foldl (fun m pod ↦ m.processListNode (env pod.2) pod.1) m

/-- The events for the nodes that are not on the list. -/
def allLostEvents (m : DistributedJobManager) (pods : List Node) : List NodeEvent :=
  m.types.flatMap fun type ↦ (m.nodesOf type).flatMap (lostEvents pods)

/-- The list has a running pod with the labels of a node. -/
def RunsOnList (pods : List Node) (n : Node) : Prop :=
  ∃ pod ∈ pods, pod.key = n.key ∧ pod.rankIndex = n.rankIndex ∧ pod.status = .running

/-- The check for a running pod is answered by the list. -/
structure CheckedByList (m : DistributedJobManager) (env : Nat → Env) (pods : List Node) :
    Prop where
  listed : ∀ i pod, pods[i]? = some pod → ((env i).samePodRunning ↔ RunsOnList pods pod)
  lost : ∀ i e, ((m.beforeTurn env pods pods.length).allLostEvents pods)[i]? = some e →
    ((env (pods.length + i)).samePodRunning ↔ RunsOnList pods e.node)

/-- The moves of a listed pod that have a flow, and the one from a status to itself. -/
def Moves (fromStatus toStatus : NodeStatus) : Prop :=
  Allowed fromStatus toStatus ∧ ¬ (fromStatus = .initial ∧ toStatus = .succeeded)

/-- The statuses after a reconciliation are those of the list. -/
structure Converged (m m' : DistributedJobManager) (pods : List Node) : Prop where
  listed : ∀ pod ∈ pods, pod.status ≠ .deleted → ∃ n, m'.node? pod.key = some n ∧
    ((∀ o, m.node? pod.key = some o → Allowed o.status pod.status) → n.status = pod.status)
  lost : ∀ k n, m.node? k = some n → n.status ≠ .initial → n.isReleased = false →
    (∀ pod ∈ pods, pod.key ≠ k) → ∃ n', m'.node? k = some n' ∧ n'.status = .deleted

/-! ### Nodes an event is not for -/

/-- The node is as before, or it was just launched. -/
def Untouched (m m' : DistributedJobManager) (k : NodeType × Nat) : Prop :=
  m'.node? k = m.node? k ∨
    m.node? k = none ∧ ∃ n, m'.node? k = some n ∧ n.status = .initial

theorem Untouched.found (h : m.Untouched m' k) (found : m.node? k = some n) :
    m'.node? k = some n := by
  rcases h with same | ⟨absent, -⟩
  · rw [same, found]
  · rw [found] at absent
    cases absent

theorem Untouched.trans {m'' : DistributedJobManager} (h : m.Untouched m' k)
    (h' : m'.Untouched m'' k) : m.Untouched m'' k := by
  rcases h with same | ⟨absent, n, found, initial⟩
  · unfold Untouched
    rwa [← same]
  · exact .inr ⟨absent, n, h'.found found, initial⟩

theorem processEvent_untouched {env : Env} {e : NodeEvent} (wf : m.WellFormed)
    (ne : k ≠ e.node.key) : m.Untouched (m.processEvent env e) k := by
  have effect := processEvent_effect m env e
  generalize m.processEvent env e = u at effect ⊢
  have stored : ∀ node, m.node? e.node.key = some node →
      ((m.updateNode (node.updateInfo e.node)).updateNode (eventNode node e)).node? k =
        m.node? k := by
    intro node found
    rw [node?_eventNode wf found, if_neg ne]
  cases effect with
  | ignored => exact .inl rfl
  | updated node found =>
    left
    rw [node?_updateNode, Node.key_updateInfo, wf.keyed found, if_neg ne]
  | followed node flow found => exact .inl (stored node found)
  | relaunched node flow found =>
    have stored_key := wf.keyed found
    have own : (eventNode node e).key = e.node.key := stored_key
    have key := (key_countRelaunch env (eventNode node e)).trans own
    have known : (node.updateInfo e.node).type ∈ m.types := by
      have typed := wf.typed found
      exact typed
    have wf' : ((m.updateNode (node.updateInfo e.node)).updateNode
        (eventNode node e)).WellFormed := by
      apply (wf.updateNode known).updateNode
      rw [types_updateNode known]
      exact known
    have before := stored node found
    generalize (m.updateNode (node.updateInfo e.node)).updateNode (eventNode node e) = w
      at wf' before ⊢
    have launched : (w.relaunchNode (countRelaunch env (eventNode node e)) (eventNode node e)
        env.removeExitedNode false).node? k =
        if k = (w.launchedNode (countRelaunch env (eventNode node e))).key then
          some (w.launchedNode (countRelaunch env (eventNode node e)))
        else w.node? k := by
      rw [node?_relaunchNode, key, if_neg ne]
    unfold Untouched
    rw [launched, ← before]
    split
    · next eq =>
      right
      refine ⟨?_, _, rfl, rfl⟩
      rw [eq]
      exact wf'.nextNodeId_fresh _
    · exact .inl rfl

/-! ### The node of an event -/

/-- What an event that is not skipped makes of its node. -/
theorem processEvent_self {env : Env} {e : NodeEvent} (wf : m.WellFormed)
    (found : m.node? e.node.key = some node) (unskipped : ¬ e.skipped env) :
    ∃ n', (m.processEvent env e).node? e.node.key = some n' ∧
      (e.node.isReleased → n'.isReleased) ∧
      ((∃ flow, Follows env e node flow) → n'.status = e.node.status) ∧
      ((∀ flow, ¬ Follows env e node flow) → n'.status = node.status) := by
  have key := wf.keyed found
  have effect := processEvent_effect m env e
  generalize m.processEvent env e = u at effect ⊢
  cases effect with
  | ignored h =>
    rcases h with skipped | absent
    · exact absurd skipped unskipped
    · rw [found] at absent
      cases absent
  | updated node' found' _ quiet =>
    rw [found] at found'
    cases found'
    refine ⟨node.updateInfo e.node, ?_, id, ?_, fun _ ↦ rfl⟩
    · rw [node?_updateNode]
      exact if_pos key.symm
    · rintro ⟨flow, follows⟩
      exact absurd follows (quiet flow)
  | followed node' flow found' follows =>
    rw [found] at found'
    cases found'
    refine ⟨eventNode node e, ?_, id, fun _ ↦ rfl, fun quiet ↦ absurd follows (quiet flow)⟩
    rw [node?_updateNode]
    exact if_pos key.symm
  | relaunched node' flow found' follows =>
    rw [found] at found'
    cases found'
    have status := status_countRelaunch env (eventNode node e)
    have released : (countRelaunch env (eventNode node e)).isReleased = e.node.isReleased := by
      unfold countRelaunch
      split <;> rfl
    refine ⟨replacedNode (countRelaunch env (eventNode node e)) env.removeExitedNode, ?_, ?_,
      fun _ ↦ status, fun quiet ↦ absurd follows (quiet flow)⟩
    · rw [node?_relaunchNode]
      exact if_pos (key.symm.trans (key_countRelaunch env (eventNode node e)).symm)
    · intro given
      simp only [replacedNode, released, given, Bool.true_or]

/-- The flows for a listed pod. -/
theorem Moves.flow {a b : NodeStatus} (moves : Moves a b) (ne : a ≠ b) (undeleted : b ≠ .deleted) :
    ∃ flow, getNodeStateFlow a .modified b = some (some flow) ∧ flow.fromStatus ≠ .succeeded := by
  have table : ∀ b ∈ (allowedTransitions a).getD [], a ≠ b → b ≠ .deleted →
      ¬ (a = .initial ∧ b = .succeeded) →
      (getNodeStateFlow a .modified b).join.any (fun flow ↦ flow.fromStatus ≠ .succeeded) := by
    cases a <;> decide
  have holds := table b moves.1 ne undeleted moves.2
  rcases Option.any_eq_true_iff_get _ _ |>.mp holds with ⟨some?, other⟩
  refine ⟨_, ?_, of_decide_eq_true other⟩
  rw [← Option.join_eq_some_iff, Option.some_get]

/-! ### Listed pods -/

/-- What happens to the nodes before the event of a listed pod. -/
theorem node?_listedNode {pod : Node} (wf : m.WellFormed) (known : pod.type ∈ m.types) :
    (m.listedNode pod).WellFormed ∧
      (∀ k, k ≠ pod.key → (m.listedNode pod).node? k = m.node? k) ∧
      (m.node? pod.key = none → pod.status ≠ .deleted →
        (m.listedNode pod).node? pod.key = some pod) ∧
      ∀ o, m.node? pod.key = some o →
        ∃ n, (m.listedNode pod).node? pod.key = some n ∧ n.status = o.status := by
  unfold listedNode
  by_cases absent : pod.key ∉ m.jobNodes ∧ pod.status ≠ .deleted
  · have fresh : m.node? pod.key = none := Dict.get?_eq_none_iff.mpr absent.1
    have stored : (m.updateNode pod).node? pod.key = some pod := node?_updateNode.trans (if_pos rfl)
    have same : ¬ (pod.type = .worker ∧ pod.group ≠ pod.group) := fun h ↦ h.2 rfl
    simp only [if_pos absent, stored, if_neg same]
    refine ⟨wf.updateNode known, fun k ne ↦ ?_, fun _ _ ↦ trivial, fun o found ↦ ?_⟩
    · rw [node?_updateNode, if_neg ne]
    · cases fresh.symm.trans found
  · simp only [if_neg absent]
    cases found : m.node? pod.key with
    | none =>
      refine ⟨wf, fun _ _ ↦ rfl, fun _ undeleted ↦ ?_, fun o found' ↦ ?_⟩
      · exact absurd ⟨Dict.get?_eq_none_iff.mp found, undeleted⟩ absent
      · cases found'
    | some node =>
      have key := wf.keyed found
      by_cases regrouped : pod.type = .worker ∧ node.group ≠ pod.group
      · have typed := wf.typed found
        simp only [if_pos regrouped]
        refine ⟨wf.updateJobNode typed, fun k ne ↦ ?_, fun none ↦ ?_, fun o found' ↦ ?_⟩
        · rw [node?_updateJobNode]
          exact if_neg fun eq ↦ ne (eq.trans key)
        · cases none
        · cases found'
          refine ⟨{ node with group := pod.group, groupSize := pod.groupSize }, ?_, rfl⟩
          rw [node?_updateJobNode]
          exact if_pos key.symm
      · simp only [if_neg regrouped]
        refine ⟨wf, fun _ _ ↦ trivial, fun none ↦ ?_, fun o found' ↦ ?_⟩
        · cases none
        · cases found'
          exact ⟨node, found, rfl⟩

theorem processListNode_untouched {env : Env} {pod : Node} (wf : m.WellFormed)
    (known : pod.type ∈ m.types) (ne : k ≠ pod.key) :
    m.Untouched (m.processListNode env pod) k := by
  rcases node?_listedNode wf known with ⟨wf', other, -, -⟩
  have before : m.Untouched (m.listedNode pod) k := .inl (other k ne)
  exact before.trans (processEvent_untouched (e := listedEvent pod) wf' ne)

/-- A listed pod gives its node its status. -/
theorem processListNode_self (env : Env) {pod : Node} (wf : m.WellFormed)
    (known : pod.type ∈ m.types) (undeleted : pod.status ≠ .deleted) :
    ∃ n, (m.processListNode env pod).node? pod.key = some n ∧
      ((∀ o, m.node? pod.key = some o → Moves o.status pod.status) → n.status = pod.status) := by
  rcases node?_listedNode wf known with ⟨wf', -, added, present⟩
  have event : (listedEvent pod).eventType = .modified := if_neg undeleted
  have unskipped : ¬ (listedEvent pod).skipped env := by
    rintro ⟨deleted | deleted, -⟩
    · rw [event] at deleted
      cases deleted
    · exact undeleted deleted
  have before : ∃ n, (m.listedNode pod).node? pod.key = some n ∧
      ((∀ o, m.node? pod.key = some o → Moves o.status pod.status) →
        n.status = pod.status ∨ Moves n.status pod.status) := by
    cases found : m.node? pod.key with
    | none => exact ⟨pod, added found undeleted, fun _ ↦ .inl rfl⟩
    | some o =>
      rcases present o found with ⟨n, stored, status⟩
      refine ⟨n, stored, fun moves ↦ .inr ?_⟩
      rw [status]
      exact moves o rfl
  rcases before with ⟨n, stored, moves⟩
  rcases processEvent_self (e := listedEvent pod) wf' stored unskipped with
    ⟨n', found, -, followed, quiet⟩
  refine ⟨n', found, fun allowed ↦ ?_⟩
  by_cases same : n.status = pod.status
  · -- there is no flow from a status to itself
    refine (quiet fun flow follows ↦ ?_).trans same
    have ne := (getNodeStateFlow_some follows.found).2.2.2.2.1
    unfold adjustedPhase at ne
    rw [event, if_neg] at ne
    · exact ne same.symm
    · rintro ⟨modified, -⟩
      cases modified
  · rcases ((moves allowed).resolve_left same).flow same undeleted with ⟨flow, eq, fromStatus⟩
    refine followed ⟨flow, unskipped, ?_, fromStatus⟩
    rw [event]
    exact eq

/-- A fold of steps leaves the nodes alone that none of them is for. -/
theorem foldl_untouched {α : Type} {f : DistributedJobManager → α → DistributedJobManager}
    {l : List α} {key : α → NodeType × Nat} {p : α → Prop} (wf : m.WellFormed)
    (all : ∀ a ∈ l, p a)
    (step : ∀ (m' : DistributedJobManager) (a : α), m'.WellFormed → m'.types = m.types → p a →
      m'.Evolves (f m' a) ∧ (k ≠ key a → m'.Untouched (f m' a) k))
    (other : ∀ a ∈ l, k ≠ key a) : m.Untouched (l.foldl f m) k := by
  have fold : ∀ (l : List α) (m' : DistributedJobManager), (∀ a ∈ l, p a ∧ k ≠ key a) →
      m.Evolves m' → m.Untouched m' k → m.Untouched (l.foldl f m') k := by
    intro l
    induction l with
    | nil => exact fun _ _ _ h ↦ h
    | cons a l ih =>
      intro m' all evolves h
      have here := all a List.mem_cons_self
      rcases step m' a evolves.wellFormed evolves.types here.1 with ⟨evolves', untouched⟩
      apply ih _ fun b mem ↦ all b (List.mem_cons_of_mem _ mem)
      · exact evolves.trans evolves'
      · exact h.trans (untouched here.2)
  exact fold l m (fun a mem ↦ ⟨all a mem, other a mem⟩) (.refl wf) (.inl rfl)

/-! ### Nodes that are not listed -/

/-- The event for a node whose pod is gone. -/
structure IsLost (env : Env) (e : NodeEvent) : Prop where
  eventType : e.eventType = .deleted
  status : e.node.status = .deleted
  released : e.node.isReleased
  unskipped : ¬ e.skipped env

/-- The statuses from which a node whose pod is gone becomes deleted. -/
def goneStatuses : List NodeStatus := [.pending, .running, .failed, .deleted]

theorem lostEvents_shape {e : NodeEvent} (mem : e ∈ lostEvents pods n) :
    e.eventType = .deleted ∧ e.node.status = .deleted ∧ e.node.isReleased ∧ e.node.key = n.key ∧
      ∀ pod ∈ pods, pod.key ≠ n.key := by
  unfold lostEvents at mem
  simp only at mem
  split at mem
  · exact absurd mem List.not_mem_nil
  · next there =>
    have absent : ∀ pod ∈ pods, pod.key ≠ n.key := by
      intro pod listed key
      apply there
      right
      have type : pod.type = n.type := congrArg Prod.fst key
      have id : pod.id = n.id := congrArg Prod.snd key
      rw [← id]
      exact List.mem_map_of_mem (List.mem_filter.mpr ⟨listed, decide_eq_true type⟩)
    split at mem
    · rw [List.mem_singleton.mp mem]
      exact ⟨rfl, rfl, rfl, rfl, absent⟩
    · rcases List.mem_map.mp mem with ⟨pod, -, rfl⟩
      exact ⟨rfl, rfl, rfl, rfl, absent⟩

/-- A node that is neither listed nor released gets an event unless it is still `INITIAL`. -/
theorem exists_lostEvents (started : n.status ≠ .initial) (kept : n.isReleased = false)
    (absent : ∀ pod ∈ pods, pod.key ≠ n.key) : ∃ e, e ∈ lostEvents pods n := by
  unfold lostEvents
  simp only
  rw [if_neg, if_pos started]
  · exact ⟨_, List.mem_singleton.mpr rfl⟩
  · rintro (released | listed)
    · rw [kept] at released
      cases released
    · rcases List.mem_map.mp listed with ⟨pod, mem, id⟩
      rcases List.mem_filter.mp mem with ⟨mem, type⟩
      exact absent pod mem (Prod.ext (of_decide_eq_true type) id)

theorem mem_allLostEvents (wf : m.WellFormed) {e : NodeEvent} :
    e ∈ m.allLostEvents pods ↔ ∃ k n, m.node? k = some n ∧ e ∈ lostEvents pods n := by
  unfold allLostEvents
  constructor
  · intro mem
    rcases List.mem_flatMap.mp mem with ⟨type, -, mem⟩
    rcases List.mem_flatMap.mp mem with ⟨n, stored, mem⟩
    rcases mem_nodesOf.mp stored with ⟨k, found, -⟩
    exact ⟨k, n, found, mem⟩
  · rintro ⟨k, n, found, mem⟩
    have stored := mem_nodesOf.mpr ⟨k, found, rfl⟩
    exact List.mem_flatMap.mpr ⟨n.type, wf.typed found, List.mem_flatMap.mpr ⟨n, stored, mem⟩⟩

/-- A node whose pod is gone is released, and deleted unless it succeeded. -/
theorem processEvent_lost {env : Env} {e : NodeEvent} (wf : m.WellFormed) (lost : IsLost env e)
    (found : m.node? e.node.key = some node) :
    ∃ n', (m.processEvent env e).node? e.node.key = some n' ∧ n'.isReleased ∧
      (node.status ∈ goneStatuses → n'.status = .deleted) ∧
      (node.status = .succeeded → n'.status = .succeeded) := by
  rcases processEvent_self wf found lost.unskipped with ⟨n', found', released, followed, quiet⟩
  refine ⟨n', found', released lost.released, fun gone ↦ ?_, fun succeeded ↦ ?_⟩
  · by_cases deleted : node.status = .deleted
    · refine (quiet fun flow follows ↦ ?_).trans deleted
      have none : getNodeStateFlow .deleted .deleted .deleted = some none := by decide
      have eq := follows.found
      rw [deleted, lost.eventType, lost.status, none] at eq
      cases eq
    · have table : ∀ status ∈ goneStatuses, status ≠ .deleted →
          ∃ flow ∈ nodeStateFlows, getNodeStateFlow status .deleted .deleted = some (some flow) ∧
            flow.fromStatus ≠ .succeeded := by decide
      rcases table node.status gone deleted with ⟨flow, -, eq, fromStatus⟩
      refine (followed ⟨flow, lost.unskipped, ?_, fromStatus⟩).trans lost.status
      rw [lost.eventType, lost.status]
      exact eq
  · refine (quiet fun flow follows ↦ ?_).trans succeeded
    have same := (getNodeStateFlow_some follows.found).2.1
    exact follows.fromStatus (same.trans succeeded)

/-- The same for all these events. -/
theorem foldl_lost (env : Nat → Env) {l : List (NodeEvent × Nat)} (wf : m.WellFormed)
    (lost : ∀ e ∈ l, IsLost (env e.2) e.1) (found : m.node? k = some n) :
    ∃ n', (l.foldl (fun m e ↦ m.processEvent (env e.2) e.1) m).node? k = some n' ∧
      (n.isReleased ∨ (∃ e ∈ l, e.1.node.key = k) → n'.isReleased) ∧
      (n.status = .deleted ∨ n.status ∈ goneStatuses ∧ (∃ e ∈ l, e.1.node.key = k) →
        n'.status = .deleted) ∧
      (n.status = .succeeded → n'.status = .succeeded) := by
  induction l generalizing m n with
  | nil =>
    refine ⟨n, found, ?_, ?_, id⟩
    · rintro (released | ⟨e, mem, -⟩)
      · exact released
      · exact absurd mem List.not_mem_nil
    · rintro (deleted | ⟨-, e, mem, -⟩)
      · exact deleted
      · exact absurd mem List.not_mem_nil
  | cons e l ih =>
    have here := lost e List.mem_cons_self
    have wf' : (m.processEvent (env e.2) e.1).WellFormed :=
      (processEvent_evolves wf fun _ _ _ follows ↦
        getNodeStateFlow_toStatus follows.found (.inr here.status)).wellFormed
    have rest := fun {n} ↦ @ih (m.processEvent (env e.2) e.1) n wf' fun a mem ↦
      lost a (List.mem_cons_of_mem _ mem)
    rw [List.foldl_cons]
    by_cases own : e.1.node.key = k
    · subst own
      rcases processEvent_lost wf here found with ⟨n₁, found₁, released, gone, succeeded⟩
      rcases rest found₁ with ⟨n', found', released', gone', succeeded'⟩
      refine ⟨n', found', fun _ ↦ released' (.inl released), fun status ↦ ?_, fun status ↦ ?_⟩
      · apply gone'
        left
        apply gone
        rcases status with deleted | ⟨gone, -⟩
        · rw [deleted]
          decide
        · exact gone
      · exact succeeded' (succeeded status)
    · have apart : m.Untouched (m.processEvent (env e.2) e.1) k :=
        processEvent_untouched wf (Ne.symm own)
      have found₁ := apart.found found
      rcases rest found₁ with ⟨n', found', released', gone', succeeded'⟩
      have later : (∃ a ∈ e :: l, a.1.node.key = k) → ∃ a ∈ l, a.1.node.key = k := by
        rintro ⟨a, mem, key⟩
        rcases List.mem_cons.mp mem with rfl | mem
        · exact absurd key own
        · exact ⟨a, mem, key⟩
      exact ⟨n', found', fun h ↦ released' (h.imp_right later),
        fun h ↦ gone' (h.imp_right fun h ↦ ⟨h.1, later h.2⟩), succeeded'⟩

/-! ### The whole list -/

theorem beforeTurn_evolves (env : Nat → Env) (wf : m.WellFormed)
    (known : ∀ pod ∈ pods, pod.type ∈ m.types) (i : Nat) :
    m.Evolves (m.beforeTurn env pods i) := by
  apply foldl_evolves (p := fun pod ↦ pod.1.type ∈ m.types) wf
  · rintro ⟨pod, j⟩ mem
    have mem := List.fst_mem_of_mem_zipIdx mem
    exact known pod (List.mem_of_mem_take mem)
  · intro m' pod wf' types known
    apply processListNode_evolves wf'
    rwa [types]

/-- The turns of some of the pods leave the other nodes alone. -/
theorem turns_untouched {l : List (Node × Nat)} (wf : m.WellFormed)
    (known : ∀ pod ∈ l, pod.1.type ∈ m.types) (other : ∀ pod ∈ l, k ≠ pod.1.key) :
    m.Untouched (l.foldl (fun m pod ↦ m.processListNode (env pod.2) pod.1) m) k := by
  apply foldl_untouched (p := fun pod : Node × Nat ↦ pod.1.type ∈ m.types) wf known _ other
  intro m' pod wf' types known
  rw [← types] at known
  exact ⟨processListNode_evolves wf' known, processListNode_untouched wf' known⟩

/-- The events of all the nodes whose pods are gone come after the turns of all pods. -/
theorem processListNodes_eq (known : ∀ pod ∈ pods, pod.type ∈ m.types) :
    m.processListNodes env pods =
      ((m.beforeTurn env pods pods.length).allLostEvents pods).zipIdx.foldl
        (fun m e ↦ m.processEvent (env (pods.length + e.2)) e.1)
        (m.beforeTurn env pods pods.length) := by
  have all : (pods.takeWhile fun pod ↦ decide (pod.type ∈ m.types)) = pods := by
    rw [List.takeWhile_eq_self_iff]
    exact fun pod mem ↦ decide_eq_true (known pod mem)
  unfold processListNodes beforeTurn allLostEvents
  simp only [all, List.take_length, Nat.lt_irrefl, if_false]

/-- The events at the end of a reconciliation, with their surroundings. -/
theorem isLost_of_mem (wf : m.WellFormed) (known : ∀ pod ∈ pods, pod.type ∈ m.types)
    (checked : m.CheckedByList env pods) {e : NodeEvent × Nat}
    (mem : e ∈ ((m.beforeTurn env pods pods.length).allLostEvents pods).zipIdx) :
    IsLost (env (pods.length + e.2)) e.1 := by
  have get : ((m.beforeTurn env pods pods.length).allLostEvents pods)[e.2]? = some e.1 :=
    List.mem_zipIdx_iff_getElem?.mp mem
  have wf' := (beforeTurn_evolves env wf known pods.length).wellFormed
  rcases (mem_allLostEvents wf').mp (List.mem_of_getElem? get) with ⟨k, n, -, mem⟩
  rcases lostEvents_shape mem with ⟨type, status, released, key, absent⟩
  refine ⟨type, status, released, ?_⟩
  rintro ⟨-, -, running⟩
  rcases (checked.lost e.2 e.1 get).mp running with ⟨pod, listed, same, -⟩
  exact absent pod listed (same.trans key)

/-- The events at the end are for nodes that are stored and not listed. -/
theorem lost_keyed (wf : m.WellFormed) {e : NodeEvent × Nat}
    (mem : e ∈ (m.allLostEvents pods).zipIdx) :
    (∃ n, m.node? e.1.node.key = some n) ∧ ∀ pod ∈ pods, pod.key ≠ e.1.node.key := by
  have mem := List.fst_mem_of_mem_zipIdx mem
  rcases (mem_allLostEvents wf).mp mem with ⟨k, n, found, mem⟩
  rcases lostEvents_shape mem with ⟨-, -, -, key, absent⟩
  rw [key, wf.keyed found]
  refine ⟨⟨n, found⟩, fun pod listed ↦ ?_⟩
  rw [← wf.keyed found]
  exact absent pod listed

theorem lost_untouched (env : Nat → Env) {l : List (NodeEvent × Nat)} (wf : m.WellFormed)
    (lost : ∀ e ∈ l, IsLost (env e.2) e.1) (other : ∀ e ∈ l, k ≠ e.1.node.key) :
    m.Untouched (l.foldl (fun m e ↦ m.processEvent (env e.2) e.1) m) k := by
  refine foldl_untouched (p := fun e : NodeEvent × Nat ↦ e.1.node.status = .deleted) wf
    (fun e mem ↦ (lost e mem).status) ?_ other
  intro m' e wf' _ deleted
  refine ⟨processEvent_evolves wf' fun _ _ _ follows ↦ ?_, processEvent_untouched wf'⟩
  exact getNodeStateFlow_toStatus follows.found (.inr deleted)

/-- A listed pod keeps the node that it had, which gets its status unless it cannot move there. -/
theorem listed_converge (wf : m.WellFormed) (known : ∀ pod ∈ pods, pod.type ∈ m.types)
    (distinct : (pods.map Node.key).Nodup) (checked : m.CheckedByList env pods) {i : Nat}
    {pod : Node} (get : pods[i]? = some pod) (undeleted : pod.status ≠ .deleted) :
    (∀ o, m.node? pod.key = some o → (m.beforeTurn env pods i).node? pod.key = some o) ∧
      ∃ n, (m.processListNodes env pods).node? pod.key = some n ∧
        ((∀ o, (m.beforeTurn env pods i).node? pod.key = some o → Moves o.status pod.status) →
          n.status = pod.status) := by
  rcases List.getElem?_eq_some_iff.mp get with ⟨inside, here⟩
  have parts : pods = pods.take i ++ pod :: pods.drop (i + 1) := by
    rw [← here, ← List.drop_eq_getElem_cons inside, List.take_append_drop]
  -- the other pods have other nodes
  have others : ∀ pod' ∈ pods.take i ++ pods.drop (i + 1), pod.key ≠ pod'.key := by
    rw [parts, List.map_append, List.map_cons, List.nodup_middle, List.nodup_cons] at distinct
    intro pod' mem same
    apply distinct.1
    rw [same, ← List.map_append]
    exact List.mem_map_of_mem mem
  have mem := List.mem_of_getElem? get
  have turn := beforeTurn_evolves env wf known i
  have before : m.Untouched (m.beforeTurn env pods i) pod.key := by
    apply turns_untouched wf
    · rintro ⟨pod', j⟩ mem
      have mem := List.fst_mem_of_mem_zipIdx mem
      exact known pod' (List.mem_of_mem_take mem)
    · rintro ⟨pod', j⟩ mem
      have mem := List.fst_mem_of_mem_zipIdx mem
      exact others pod' (List.mem_append_left _ mem)
  refine ⟨fun o found ↦ before.found found, ?_⟩
  have typed : pod.type ∈ (m.beforeTurn env pods i).types := by
    rw [turn.types]
    exact known pod mem
  rcases processListNode_self (env i) turn.wellFormed typed undeleted with ⟨n, found, status⟩
  refine ⟨n, ?_, status⟩
  have step : (m.beforeTurn env pods i).Evolves
      ((m.beforeTurn env pods i).processListNode (env i) pod) :=
    processListNode_evolves turn.wellFormed typed
  have after : m.beforeTurn env pods pods.length =
      ((pods.drop (i + 1)).zipIdx (i + 1)).foldl
        (fun m pod ↦ m.processListNode (env pod.2) pod.1)
        ((m.beforeTurn env pods i).processListNode (env i) pod) := by
    have length : (pods.take i).length = i := List.length_take_of_le (Nat.le_of_lt inside)
    unfold beforeTurn
    rw [List.take_length]
    conv_lhs => rw [parts]
    rw [List.zipIdx_append, List.foldl_append, List.zipIdx_cons, List.foldl_cons, length,
      Nat.zero_add]
  have rest : ((m.beforeTurn env pods i).processListNode (env i) pod).Untouched
      (m.beforeTurn env pods pods.length) pod.key := by
    rw [after]
    apply turns_untouched step.wellFormed
    · rintro ⟨pod', j⟩ mem
      have mem := List.fst_mem_of_mem_zipIdx mem
      rw [step.types, turn.types]
      exact known pod' (List.mem_of_mem_drop mem)
    · rintro ⟨pod', j⟩ mem
      have mem := List.fst_mem_of_mem_zipIdx mem
      exact others pod' (List.mem_append_right _ mem)
  have first := beforeTurn_evolves env wf known pods.length
  rw [processListNodes_eq known]
  refine (lost_untouched (fun j ↦ env (pods.length + j)) first.wellFormed
    (fun e mem ↦ isLost_of_mem wf known checked mem) ?_).found (rest.found found)
  exact fun e mem' same ↦ (lost_keyed first.wellFormed mem').2 pod mem same

/-- A node whose pod is gone is released, and deleted if it had not succeeded. -/
theorem lost_converge (wf : m.WellFormed) (known : ∀ pod ∈ pods, pod.type ∈ m.types)
    (checked : m.CheckedByList env pods) (found : m.node? k = some n)
    (started : n.status ≠ .initial) (kept : n.isReleased = false)
    (absent : ∀ pod ∈ pods, pod.key ≠ k) :
    ∃ n', (m.processListNodes env pods).node? k = some n' ∧ n'.isReleased ∧
      (n.status ∈ goneStatuses → n'.status = .deleted) ∧
      (n.status = .succeeded → n'.status = .succeeded) := by
  have first := beforeTurn_evolves env wf known pods.length
  have found' : (m.beforeTurn env pods pods.length).node? k = some n := by
    refine (turns_untouched wf ?_ ?_).found found
    · rintro ⟨pod, j⟩ mem
      have mem := List.fst_mem_of_mem_zipIdx mem
      exact known pod (List.mem_of_mem_take mem)
    · rintro ⟨pod, j⟩ mem
      have mem := List.fst_mem_of_mem_zipIdx mem
      exact (absent pod (List.mem_of_mem_take mem)).symm
  have own := wf.keyed found
  have event : ∃ e ∈ ((m.beforeTurn env pods pods.length).allLostEvents pods).zipIdx,
      e.1.node.key = k := by
    rcases exists_lostEvents started kept (own ▸ absent) with ⟨e, mem⟩
    have all := (mem_allLostEvents first.wellFormed).mpr ⟨k, n, found', mem⟩
    rcases List.getElem?_of_mem all with ⟨j, get⟩
    refine ⟨(e, j), List.mem_zipIdx_iff_getElem?.mpr get, ?_⟩
    rw [← own]
    exact (lostEvents_shape mem).2.2.2.1
  rw [processListNodes_eq known]
  rcases foldl_lost (fun j ↦ env (pods.length + j)) first.wellFormed
    (fun e mem ↦ isLost_of_mem wf known checked mem) found' with
    ⟨n', stored, released, gone, succeeded⟩
  exact ⟨n', stored, released (.inr event), fun status ↦ gone (.inr ⟨status, event⟩), succeeded⟩

/-- No node is left that has started, is not listed and is not released. -/
theorem started_released (wf : m.WellFormed) (known : ∀ pod ∈ pods, pod.type ∈ m.types)
    (checked : m.CheckedByList env pods)
    (found : (m.processListNodes env pods).node? k = some n) (started : n.status ≠ .initial)
    (absent : ∀ pod ∈ pods, pod.key ≠ k) : n.isReleased := by
  have first := beforeTurn_evolves env wf known pods.length
  have lost := fun e mem ↦ isLost_of_mem (e := e) wf known checked mem
  rw [processListNodes_eq known] at found
  by_cases event : ∃ e ∈ ((m.beforeTurn env pods pods.length).allLostEvents pods).zipIdx,
      e.1.node.key = k
  · have stored : ∃ n, (m.beforeTurn env pods pods.length).node? k = some n := by
      rcases event with ⟨e, mem, rfl⟩
      exact (lost_keyed first.wellFormed mem).1
    rcases stored with ⟨n₁, found₁⟩
    rcases foldl_lost (fun j ↦ env (pods.length + j)) first.wellFormed lost found₁ with
      ⟨n', found', released, -⟩
    cases found.symm.trans found'
    exact released (.inr event)
  · have untouched := lost_untouched (fun j ↦ env (pods.length + j)) first.wellFormed lost
      fun e mem same ↦ event ⟨e, mem, same.symm⟩
    rcases untouched with same | ⟨-, n', found', initial⟩
    · have found₁ : (m.beforeTurn env pods pods.length).node? k = some n := same.symm.trans found
      by_contra kept
      have own := first.wellFormed.keyed found₁
      rcases exists_lostEvents started (Bool.eq_false_iff.mpr kept) (own ▸ absent) with ⟨e, mem⟩
      have all := (mem_allLostEvents first.wellFormed).mpr ⟨k, n, found₁, mem⟩
      rcases List.getElem?_of_mem all with ⟨j, get⟩
      refine event ⟨(e, j), List.mem_zipIdx_iff_getElem?.mpr get, ?_⟩
      rw [← own]
      exact (lostEvents_shape mem).2.2.2.1
    · cases found.symm.trans found'
      exact absurd initial started

/-- After a reconciliation each listed pod has a node with its status, unless its node could not
move there. A node whose pod is gone is released, and deleted if it had not succeeded before; no
other node is left that has started and is not released. -/
theorem listNodes_converge (wf : m.WellFormed) (known : ∀ pod ∈ pods, pod.type ∈ m.types)
    (distinct : (pods.map Node.key).Nodup) (checked : m.CheckedByList env pods) :
    (∀ i pod, pods[i]? = some pod → pod.status ≠ .deleted →
      (∀ o, m.node? pod.key = some o → (m.beforeTurn env pods i).node? pod.key = some o) ∧
      ∃ n, (m.processListNodes env pods).node? pod.key = some n ∧
        ((∀ o, (m.beforeTurn env pods i).node? pod.key = some o → Moves o.status pod.status) →
          n.status = pod.status)) ∧
    (∀ k n, m.node? k = some n → n.status ≠ .initial → n.isReleased = false →
      (∀ pod ∈ pods, pod.key ≠ k) →
      ∃ n', (m.processListNodes env pods).node? k = some n' ∧ n'.isReleased ∧
        (n.status ∈ goneStatuses → n'.status = .deleted) ∧
        (n.status = .succeeded → n'.status = .succeeded)) ∧
    ∀ k n, (m.processListNodes env pods).node? k = some n → n.status ≠ .initial →
      (∀ pod ∈ pods, pod.key ≠ k) → n.isReleased := by
  refine ⟨fun i pod get undeleted ↦ ?_, fun k n found started kept absent ↦ ?_,
    fun k n found started absent ↦ ?_⟩
  · exact listed_converge wf known distinct checked get undeleted
  · exact lost_converge wf known checked found started kept absent
  · exact started_released wf known checked found started absent

/-- The list has no pod for a node whose pod is gone. -/
theorem checkedByList_of_listed (wf : m.WellFormed) (known : ∀ pod ∈ pods, pod.type ∈ m.types)
    (listed : ∀ i pod, pods[i]? = some pod → ((env i).samePodRunning ↔ RunsOnList pods pod))
    (gone : ∀ i, (env (pods.length + i)).samePodRunning = false) : m.CheckedByList env pods where
  listed := listed
  lost i e get := by
    have wf' := (beforeTurn_evolves env wf known pods.length).wellFormed
    rcases (mem_allLostEvents wf').mp (List.mem_of_getElem? get) with ⟨k, n, -, mem⟩
    rcases lostEvents_shape mem with ⟨-, -, -, key, absent⟩
    constructor
    · intro running
      rw [gone i] at running
      cases running
    · rintro ⟨pod, mem, same, -⟩
      exact absurd (same.trans key) (absent pod mem)

/-- A worker of a job. -/
def listedWorker (id : Nat) (status : NodeStatus) : Node :=
  { type := .worker, id, rankIndex := id, status, maxRelaunchCount := 3 }

/-- A running worker and one that is pending. -/
def twoWorkers : DistributedJobManager :=
  initNodes [.worker] [listedWorker 0 .running, listedWorker 1 .pending]

/-- The pod of the pending worker runs by now, and that of the running one is gone. -/
theorem listNodes_converge_two :
    (∃ n, (twoWorkers.processListNodes (fun i ↦ { samePodRunning := i = 0 })
      [listedWorker 1 .running]).node? (.worker, 1) = some n ∧ n.status = .running) ∧
    ∃ n, (twoWorkers.processListNodes (fun i ↦ { samePodRunning := i = 0 })
      [listedWorker 1 .running]).node? (.worker, 0) = some n ∧ n.status = .deleted := by
  have wf : twoWorkers.WellFormed := initNodes_wellFormed (by decide) (by decide)
  have known : ∀ pod ∈ [listedWorker 1 .running], pod.type ∈ twoWorkers.types := by decide
  have checked : twoWorkers.CheckedByList (fun i ↦ { samePodRunning := i = 0 })
      [listedWorker 1 .running] := by
    refine checkedByList_of_listed wf known (fun i pod get ↦ ?_) fun i ↦ ?_
    · rcases List.getElem?_eq_some_iff.mp get with ⟨inside, rfl⟩
      have first : i = 0 := Nat.lt_one_iff.mp inside
      subst first
      exact ⟨fun _ ↦ ⟨_, List.mem_cons_self, rfl, rfl, rfl⟩, fun _ ↦ rfl⟩
    · exact decide_eq_false (Nat.add_one_ne_zero i ∘ (Nat.add_comm i 1).trans)
  rcases listNodes_converge wf known (by decide) checked with ⟨listed, lost, -⟩
  constructor
  · rcases listed 0 _ rfl (by decide) with ⟨-, n, found, status⟩
    refine ⟨n, found, status fun o before ↦ ?_⟩
    have stored : twoWorkers.node? (.worker, 1) = some (listedWorker 1 .pending) := by decide
    cases stored.symm.trans before
    exact ⟨by decide, by decide⟩
  · rcases lost (.worker, 0) (listedWorker 0 .running) (by decide) (by decide) rfl (by decide) with
      ⟨n, found, -, status, -⟩
    exact ⟨n, found, status (by decide)⟩

/-- A worker that succeeded, which the watcher lists no more. -/
def succeededWorker : DistributedJobManager :=
  initNodes [.worker] [listedWorker 0 .succeeded]

theorem listNodes_not_converged :
    ¬ ∀ (m : DistributedJobManager) (env : Nat → Env) (pods : List Node), m.WellFormed →
      (∀ pod ∈ pods, pod.type ∈ m.types) → (pods.map Node.key).Nodup → m.CheckedByList env pods →
      Converged m (m.processListNodes env pods) pods := by
  intro every
  have wf : succeededWorker.WellFormed := initNodes_wellFormed (by decide) (by decide)
  have checked : succeededWorker.CheckedByList (fun _ ↦ {}) [] := by
    refine checkedByList_of_listed wf (by decide) (fun i pod get ↦ ?_) fun _ ↦ rfl
    rw [List.getElem?_nil] at get
    cases get
  have converged := every succeededWorker _ [] wf (by decide) List.nodup_nil checked
  rcases converged.lost (.worker, 0) (listedWorker 0 .succeeded) (by decide) (by decide) rfl
    (by decide) with ⟨n, found, status⟩
  have stored : ((succeededWorker.processListNodes (fun _ ↦ {}) []).node? (.worker, 0)).map
      Node.status = some .succeeded := by decide
  rw [found, Option.map_some, status] at stored
  cases stored

end DistributedJobManager

end ProbingBaselines.Dlrover.JobManager
