import ProbingBaselines.Dlrover.NetworkGroups

/-!
# Fault checks across membership changes

`check_fault_node` (`rdzv_manager.py:806-839`) collects the ranks whose status is a failure and
looks each of them up in the node map. The statuses of an even round are kept for the odd round
after it, whose nodes may be others: the rank of a node that failed and is gone raises, after it has
been put into the fault nodes.
-/

namespace ProbingBaselines.Dlrover

open Lib

namespace NetworkCheckManager

/-- All nodes have reported and no fault is known yet, so that the statuses are looked at. -/
def Evaluates (m : NetworkCheckManager) : Prop :=
  m.base.rdzvNodes.items ≠ [] ∧ ¬ m.reportedNodes.length < m.base.rdzvNodes.items.length ∧
    m.faultNodes = []

instance (m : NetworkCheckManager) : Decidable m.Evaluates :=
  inferInstanceAs (Decidable (_ ∧ _ ∧ _))

/-- Every rank with a failure is that of a node. -/
def FailedKnown (m : NetworkCheckManager) : Prop := ∀ r ∈ m.failedRanks, r ∈ m.base.rdzvNodes

instance (m : NetworkCheckManager) : Decidable m.FailedKnown :=
  inferInstanceAs (Decidable (∀ r ∈ _, _))

/-- The fault nodes are nodes, or there are no nodes. -/
def FaultsKnown (m : NetworkCheckManager) : Prop :=
  m.base.rdzvNodes.items = [] ∨ ∀ r ∈ m.faultNodes, r ∈ m.base.rdzvNodes

/-- Without an evaluation a check answers with the fault nodes it has and changes nothing. -/
theorem checkFaultNode_of_not_evaluates {m : NetworkCheckManager} (h : ¬ m.Evaluates) :
    m.base.rdzvNodes.items = [] ∧ m.checkFaultNode = (.ok ([], .noInit), m) ∨
      m.base.rdzvNodes.items ≠ [] ∧
        ∃ reason, m.checkFaultNode = (.ok (m.faultNodes, reason), m) := by
  unfold checkFaultNode
  by_cases none : m.base.rdzvNodes.items = []
  · exact .inl ⟨none, if_pos none⟩
  · right
    refine ⟨none, ?_⟩
    rw [if_neg none]
    by_cases waiting : m.reportedNodes.length < m.base.rdzvNodes.items.length
    · exact ⟨_, if_pos waiting⟩
    · have known : m.faultNodes ≠ [] := fun empty ↦ h ⟨none, waiting, empty⟩
      rw [if_neg waiting, if_neg known]
      exact ⟨_, rfl⟩

/-- An evaluation takes the failed ranks for the fault nodes, and raises when one is not a node. -/
theorem checkFaultNode_of_evaluates {m : NetworkCheckManager} (h : m.Evaluates) :
    m.checkFaultNode.2.faultNodes = m.failedRanks ∧
      (¬ m.FailedKnown → m.checkFaultNode.1 = .error .keyError) ∧
      (m.FailedKnown → ∃ reason, reason ≠ .waitingNode ∧
        m.checkFaultNode.1 = .ok (m.failedRanks, reason)) := by
  have unknown : (m.failedRanks.any fun rank ↦ rank ∉ m.base.rdzvNodes) = true ↔
      ¬ m.FailedKnown := by
    simp only [List.any_eq_true, FailedKnown, not_forall, exists_prop]
    exact exists_congr fun r ↦ and_congr_right fun _ ↦ decide_eq_true_iff
  unfold checkFaultNode
  rw [if_neg h.1, if_neg h.2.1, if_pos h.2.2]
  simp only [unknown]
  by_cases known : m.FailedKnown
  · rw [if_neg (not_not.mpr known)]
    by_cases none : m.failedRanks = []
    · rw [if_pos none]
      refine ⟨?_, fun unknown ↦ absurd known unknown, fun _ ↦ ⟨.none, by decide, by rw [none]⟩⟩
      simp only
      split <;> rfl
    · rw [if_neg none]
      exact ⟨rfl, fun unknown ↦ absurd known unknown, fun _ ↦ ⟨.nodeFailure, by decide, rfl⟩⟩
  · rw [if_pos known]
    exact ⟨rfl, fun _ ↦ rfl, fun h ↦ absurd h known⟩

end NetworkCheckManager

/-! ### Runs with their fault checks -/

/-- A call of `check_fault_node`: what it returned or raised, the nodes at that time, and the fault
nodes before and after it. -/
structure FaultCheck where
  outcome : Except RdzvError (List Int × FailureReason)
  nodes : NodeMap
  before : List Int
  after : List Int

/-- The call returns ranks of nodes, and one that waits changes no fault nodes. -/
def FaultCheck.Safe (c : FaultCheck) : Prop :=
  ∃ ranks reason, c.outcome = .ok (ranks, reason) ∧ (∀ r ∈ ranks, r ∈ c.nodes) ∧
    (reason = .waitingNode → c.after = c.before)

/-- The manager with its callers, and the calls of `check_fault_node` so far. -/
structure FaultCheckSystem where
  system : NetworkSystem
  checks : List FaultCheck

namespace FaultCheckSystem

def init : FaultCheckSystem := ⟨.init, []⟩

/-- The call that a step makes. -/
def made (m : NetworkCheckManager) : NetworkAct → List FaultCheck
  | .checkFaultNode =>
    [⟨m.checkFaultNode.1, m.base.rdzvNodes, m.faultNodes, m.checkFaultNode.2.faultNodes⟩]
  | _ => []

def step (s : FaultCheckSystem) (a : NetworkAct) : Option FaultCheckSystem :=
  (s.system.step a).map fun system ↦ ⟨system, s.checks ++ made s.system.manager a⟩

/-- A check that looks at the statuses finds the failures at nodes. -/
def KnowsFailed (s : FaultCheckSystem) : NetworkAct → Prop
  | .checkFaultNode => s.system.manager.Evaluates → s.system.manager.FailedKnown
  | _ => True

/-- What every state of such a run satisfies. -/
structure ChecksSafe (s : FaultCheckSystem) : Prop where
  known : s.system.manager.FaultsKnown
  safe : ∀ c ∈ s.checks, c.Safe

theorem init_checksSafe : ChecksSafe init :=
  ⟨.inl rfl, fun _ hc ↦ absurd hc List.not_mem_nil⟩

/-- A check in a state whose fault nodes are nodes. -/
theorem made_safe {m : NetworkCheckManager} (known : m.FaultsKnown)
    (failed : m.Evaluates → m.FailedKnown) : ∀ c ∈ made m .checkFaultNode, c.Safe := by
  intro c hc
  rw [List.mem_singleton.mp hc]
  by_cases evaluates : m.Evaluates
  · rcases m.checkFaultNode_of_evaluates evaluates with ⟨-, -, ok⟩
    rcases ok (failed evaluates) with ⟨reason, ne, outcome⟩
    exact ⟨_, reason, outcome, failed evaluates, fun waiting ↦ absurd waiting ne⟩
  · rcases m.checkFaultNode_of_not_evaluates evaluates with ⟨-, eq⟩ | ⟨some, reason, eq⟩
    · simp only [eq]
      exact ⟨[], .noInit, rfl, fun r hr ↦ absurd hr List.not_mem_nil, fun _ ↦ rfl⟩
    · simp only [eq]
      exact ⟨m.faultNodes, reason, rfl, known.resolve_left some, fun _ ↦ rfl⟩

/-- The fault nodes stay nodes when neither changes, or when the nodes go. -/
theorem faultsKnown_of_same {m m' : NetworkCheckManager} (known : m.FaultsKnown)
    (faults : m'.faultNodes = m.faultNodes)
    (nodes : m'.base.rdzvNodes.items = [] ∨ m'.base.rdzvNodes = m.base.rdzvNodes) :
    m'.FaultsKnown := by
  rcases nodes with empty | same
  · exact .inl empty
  · rw [NetworkCheckManager.FaultsKnown, faults, same]
    exact known

theorem faultsKnown_checkCompleted {m : NetworkCheckManager} (known : m.FaultsKnown) (env : Env) :
    (m.checkCompleted env).2.FaultsKnown := by
  rcases m.checkCompleted_cases env with ⟨-, eq⟩ | ⟨-, eq⟩ | ⟨num, -, -, -, eq⟩
  · rw [eq]
    exact known
  · rw [eq]
    exact faultsKnown_of_same known rfl (.inr (m.base.dropFailed_drops env.failed).same.1)
  · -- a completed rendezvous starts without fault nodes
    rw [eq]
    exact .inr fun r hr ↦ absurd hr List.not_mem_nil

theorem faultsKnown_checkFaultNode {m : NetworkCheckManager} (known : m.FaultsKnown)
    (failed : m.Evaluates → m.FailedKnown) : m.checkFaultNode.2.FaultsKnown := by
  by_cases evaluates : m.Evaluates
  · right
    rw [(m.checkFaultNode_of_evaluates evaluates).1, m.checkFaultNode_frame.2.1]
    exact failed evaluates
  · rcases m.checkFaultNode_of_not_evaluates evaluates with ⟨-, eq⟩ | ⟨-, reason, eq⟩ <;>
      rw [eq] <;> exact known

/-- A step of the manager that finds the failures at nodes keeps the fault nodes among them. -/
theorem faultsKnown_step {s t : NetworkSystem} {a : NetworkAct} (known : s.manager.FaultsKnown)
    (failed : a = .checkFaultNode → s.manager.Evaluates → s.manager.FailedKnown)
    (taken : s.step a = some t) : t.manager.FaultsKnown := by
  cases a with
  | clearGroups req =>
    cases taken
    exact known
  | join i env =>
    simp only [NetworkSystem.step, NetworkSystem.locked] at taken
    split at taken
    · next req _ =>
      split at taken
      · cases taken
      · cases taken
        refine faultsKnown_of_same known ?_ ?_
        · rfl
        simp only [NetworkCheckManager.joinRendezvous]
        unfold RdzvManager.joinRendezvous
        split
        · exact .inr rfl
        · exact .inl rfl
    · cases taken
  | beginPoll r env =>
    simp only [NetworkSystem.step, NetworkSystem.locked] at taken
    split at taken
    · cases taken
    · cases taken
      exact faultsKnown_checkCompleted known env
  | endPoll =>
    simp only [NetworkSystem.step] at taken
    split at taken
    · cases taken
      exact known
    · cases taken
  | removeAliveNode nodeId =>
    simp only [NetworkSystem.step, NetworkSystem.locked] at taken
    split at taken
    · cases taken
    · cases taken
      exact faultsKnown_of_same known rfl
        (.inr (s.manager.base.removeAliveNode_drops nodeId).same.1)
  | report r succeed elapsedTime =>
    cases taken
    exact known
  | checkFaultNode =>
    simp only [NetworkSystem.step, NetworkSystem.locked] at taken
    split at taken
    · cases taken
    · cases taken
      exact faultsKnown_checkFaultNode known (failed rfl)
  | updateRdzvParams minNodes maxNodes waitingTimeout nodeUnit =>
    simp only [NetworkSystem.step, NetworkSystem.locked] at taken
    split at taken
    · cases taken
    · cases taken
      refine faultsKnown_of_same known ?_ ?_
      · rfl
      right
      simp only
      unfold RdzvManager.updateRdzvParams
      split <;> rfl

theorem step_cases {s t : FaultCheckSystem} {a : NetworkAct} (taken : s.step a = some t) :
    s.system.step a = some t.system ∧ t.checks = s.checks ++ made s.system.manager a := by
  rcases Option.map_eq_some_iff.mp taken with ⟨system, stepped, rfl⟩
  exact ⟨stepped, rfl⟩

theorem ChecksSafe.step {s t : FaultCheckSystem} {a : NetworkAct} (h : ChecksSafe s)
    (knows : s.KnowsFailed a) (taken : s.step a = some t) : ChecksSafe t := by
  rcases step_cases taken with ⟨stepped, checks⟩
  have failed : a = .checkFaultNode → s.system.manager.Evaluates →
      s.system.manager.FailedKnown := by
    rintro rfl
    exact knows
  refine ⟨faultsKnown_step h.known failed stepped, ?_⟩
  rw [checks]
  intro c hc
  rcases List.mem_append.mp hc with hc | hc
  · exact h.safe c hc
  · by_cases check : a = .checkFaultNode
    · subst check
      exact made_safe h.known (failed rfl) c hc
    · cases a <;> first | exact absurd rfl check | exact absurd hc List.not_mem_nil

/-- The calls of a run are all safe just when each that looked at the statuses found the failures at
nodes. -/
theorem checks_safe_iff {acts : List NetworkAct} {s : FaultCheckSystem}
    (run : Run step anyStep init acts s) :
    (∀ c ∈ s.checks, c.Safe) ↔ Run step KnowsFailed init acts s := by
  constructor
  · intro safe
    induction run with
    | nil => exact .nil
    | @snoc acts t u a run _ taken ih =>
      rcases step_cases taken with ⟨-, checks⟩
      rw [checks] at safe
      refine .snoc a (ih fun c hc ↦ safe c (List.mem_append_left _ hc)) ?_ taken
      by_cases check : a = .checkFaultNode
      · subst check
        intro evaluates
        by_contra unknown
        rcases safe _ (List.mem_append_right _ List.mem_cons_self) with ⟨ranks, reason, ok, -⟩
        rw [(t.system.manager.checkFaultNode_of_evaluates evaluates).2.1 unknown] at ok
        cases ok
      · cases a <;> first | exact absurd rfl check | exact trivial
  · intro known
    have safe : ChecksSafe s :=
      known.invariant init_checksSafe fun _ _ _ h knows taken ↦ h.step knows taken
    exact safe.safe

instance (s : FaultCheckSystem) (a : NetworkAct) : Decidable (s.KnowsFailed a) :=
  match a with
  | .checkFaultNode =>
    inferInstanceAs (Decidable (s.system.manager.Evaluates → s.system.manager.FailedKnown))
  | .clearGroups _ => .isTrue trivial
  | .join _ _ => .isTrue trivial
  | .beginPoll _ _ => .isTrue trivial
  | .endPoll => .isTrue trivial
  | .removeAliveNode _ => .isTrue trivial
  | .report _ _ _ => .isTrue trivial
  | .updateRdzvParams _ _ _ _ => .isTrue trivial

/-- Three nodes are checked, and node 2 fails. -/
def nodeFails : List NetworkAct :=
  .updateRdzvParams 2 3 30 1 :: ([0, 1, 2].flatMap NetworkSystem.joinSteps ++
    NetworkSystem.pollSteps 0 60 ++
    [.report 0 true 1, .report 1 true 1, .report 2 false 9, .checkFaultNode])

/-- The other two are checked again. -/
def nodeGone : List NetworkAct :=
  [0, 1].flatMap NetworkSystem.joinSteps ++ NetworkSystem.pollSteps 0 60 ++
    [.report 0 true 1, .report 1 true 1, .checkFaultNode]

/-- The second check raises. -/
theorem checks_raise : ∃ s, Run step anyStep init (nodeFails ++ nodeGone) s ∧
    ¬ ∀ c ∈ s.checks, c.Safe := by
  have raised : ((nodeFails ++ nodeGone).foldlM step init).any (fun s ↦
      s.checks.any fun c ↦ !c.outcome.isOk) = true := by
    decide +kernel
  rcases run_of_any raised with ⟨s, run, some⟩
  refine ⟨s, run, fun safe ↦ ?_⟩
  rcases List.any_eq_true.mp some with ⟨c, hc, error⟩
  rcases safe c hc with ⟨ranks, reason, ok, -⟩
  rw [ok] at error
  cases error

/-- The first check finds node 2. -/
theorem checks_safe_three : ∃ s, Run step anyStep init nodeFails s ∧ s.checks.length = 1 ∧
    ∀ c ∈ s.checks, c.Safe := by
  have checked : (nodeFails.foldlM
      (fun (s : FaultCheckSystem) a ↦ if s.KnowsFailed a then s.step a else none)
      init).any (fun s ↦ s.checks.length = 1) = true := by
    decide +kernel
  rcases run_of_guarded_any checked with ⟨s, run, one⟩
  have any : Run step anyStep init nodeFails s := run.mono fun _ _ _ ↦ trivial
  exact ⟨s, any, of_decide_eq_true one, (checks_safe_iff any).mpr run⟩

end FaultCheckSystem

end ProbingBaselines.Dlrover
