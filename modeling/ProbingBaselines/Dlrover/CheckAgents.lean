import ProbingBaselines.Lib.Run
import ProbingBaselines.Dlrover.GroupNodeCheck

/-!
# The agents of the node-group check

Each node runs `NodeCheckElasticAgent.run` (`training.py:2103-2204`): it joins the rendezvous, runs
the check of its group, reports, and asks for faulty nodes and stragglers before the next round.
What it reports is not the result of the check but whether any of its checks so far succeeded
(`training.py:2127`). A node that passed within its node group has succeeded for good: whatever
happens across the node groups, no failure is reported, and the master finds no faulty node.
-/

namespace ProbingBaselines.Dlrover

open Lib

/-- How `run` ends: with an answer, or with one of the two errors. -/
inductive CheckOutcome where
  | returned (success : Bool)
  | nodeFailed
  | straggler

/-- Where an agent is in its loop. -/
inductive AgentStage where
  | ready
  | joining (req : JoinRendezvousRequest)
  | waiting
  | checking (phase : GroupNodeCheckPhase)
  | reported
  | faultsChecked (faultNodes : List Int) (reason : FailureReason)
  | finished (outcome : CheckOutcome)

/-- An agent in `run`; `results` are the results of its checks by phase. -/
structure CheckAgent where
  checkRound : Nat
  excludeStraggler : Bool
  i : Nat
  success : Bool
  stage : AgentStage
  results : List (GroupNodeCheckPhase × Bool)

namespace CheckAgent

def start (checkRound : Nat) (excludeStraggler : Bool) : CheckAgent :=
  ⟨checkRound, excludeStraggler, 0, false, .ready, []⟩

/-- The end of the loop; `training.py:2192-2204`. -/
def outcome (a : CheckAgent) (nodeRank : Int) (faultNodes stragglers : List Int) : CheckOutcome :=
  if nodeRank ∈ faultNodes then .nodeFailed
  else if nodeRank ∈ stragglers ∧ a.excludeStraggler then .straggler
  else .returned a.success

/-- The next turn of the loop, if there is one. -/
def next (a : CheckAgent) (nodeRank : Int) (faultNodes stragglers : List Int) : CheckAgent :=
  if a.i + 1 < a.checkRound then { a with i := a.i + 1, stage := .ready }
  else { a with stage := .finished (a.outcome nodeRank faultNodes stragglers) }

/-- What follows the answers of a round; `training.py:2162-2190`. -/
def decideNext (a : CheckAgent) (nodeRank : Int) (faultNodes : List Int) (reason : FailureReason)
    (stragglers : List Int) (runningNodes : Nat) : CheckAgent :=
  if reason = .nextPhase then a.next nodeRank faultNodes stragglers
  else if faultNodes ≠ [] ∨ stragglers ≠ [] ∧ a.excludeStraggler then
    if runningNodes ≤ 3 then { a with stage := .finished .nodeFailed }
    else a.next nodeRank faultNodes stragglers
  else { a with stage := .finished (.returned a.success) }

/-- The agent after a check; `training.py:2127-2131`. -/
def record (a : CheckAgent) (phase : GroupNodeCheckPhase) (result : Bool) : CheckAgent :=
  { a with
    success := a.success || result
    stage := .reported
    results := a.results ++ [(phase, result)] }

end CheckAgent

structure CheckSystem where
  manager : GroupNodeManager
  agents : Dict Int CheckAgent

inductive AgentAct where
  | startRun (nodeRank : Int) (checkRound : Nat) (excludeStraggler : Bool)
  | clearGroups (req : JoinRendezvousRequest)
  | join (nodeRank : Int) (env : Env)
  | getCommWorld (nodeRank : Int) (env : Env)
  | finishCheck (nodeRank : Int) (result : Bool) (elapsedTime : ℚ)
  | checkFaultNode (nodeRank : Int) (timedOut : Bool)
  | checkStraggler (nodeRank : Int) (timedOut : Bool) (runningNodes : Nat)
  | removeAliveNode (nodeId : Int)
  | updateRdzvParams (minNodes maxNodes : Int) (waitingTimeout : ℚ) (nodeUnit : Int)

namespace CheckSystem

def init : CheckSystem := ⟨.init, .empty⟩

def setAgent (s : CheckSystem) (nodeRank : Int) (manager : GroupNodeManager) (a : CheckAgent) :
    CheckSystem :=
  ⟨manager, s.agents.insert nodeRank a⟩

/-- A step of an agent at the given stage. -/
def withAgent (s : CheckSystem) (nodeRank : Int) (f : CheckAgent → Option CheckSystem) :
    Option CheckSystem :=
  (s.agents.get? nodeRank).bind f

def step (s : CheckSystem) : AgentAct → Option CheckSystem
  | .startRun r checkRound excludeStraggler =>
    some (s.setAgent r s.manager (.start checkRound excludeStraggler))
  | .clearGroups req => s.withAgent req.nodeRank fun a ↦
    match a.stage with
    | .ready => some (s.setAgent req.nodeRank
        { s.manager with check := s.manager.check.clearGroups } { a with stage := .joining req })
    | _ => none
  | .join r env => s.withAgent r fun a ↦
    match a.stage with
    | .joining req => some (s.setAgent r
        { s.manager with check := s.manager.check.joinRendezvous req env }
        { a with stage := .waiting })
    | _ => none
  | .getCommWorld r env => s.withAgent r fun a ↦
    match a.stage with
    | .waiting =>
      match s.manager.getCommWorld r env with
      | (.ok world, manager) => some (s.setAgent r manager
          (if r ∈ world.world then { a with stage := .checking manager.currentPhase } else a))
      | (.error _, manager) => some (s.setAgent r manager a)
    | _ => none
  | .finishCheck r result elapsedTime => s.withAgent r fun a ↦
    match a.stage with
    | .checking phase =>
      let a := a.record phase result
      some (s.setAgent r (s.manager.reportNetworkCheckResult r a.success
        (round3 (if result then elapsedTime else 3600))) a)
    | _ => none
  | .checkFaultNode r timedOut => s.withAgent r fun a ↦
    match a.stage with
    | .reported =>
      match s.manager.checkFaultNode with
      | (.ok (nodes, reason), manager) => some (s.setAgent r manager
          (if (reason = .waitingNode ∨ reason = .noInit) ∧ timedOut = false then a
            else { a with stage := .faultsChecked nodes reason }))
      | (.error _, manager) => some (s.setAgent r manager a)
    | _ => none
  | .checkStraggler r timedOut runningNodes => s.withAgent r fun a ↦
    match a.stage with
    | .faultsChecked nodes reason =>
      let (stragglers, manager) := s.manager.getStraggler
      some (s.setAgent r manager
        (if stragglers.2 = .waitingNode ∧ timedOut = false then a
          else a.decideNext r nodes reason stragglers.1 runningNodes))
    | _ => none
  | .removeAliveNode nodeId =>
    some { s with manager := s.manager.setBase (s.manager.check.base.removeAliveNode nodeId) }
  | .updateRdzvParams minNodes maxNodes waitingTimeout nodeUnit =>
    let base := s.manager.check.base.updateRdzvParams minNodes maxNodes waitingTimeout nodeUnit
    some { s with manager := s.manager.setBase base }

/-- The agent of a node that runs a check, and the phase of the check. -/
def checkOf (s : CheckSystem) (r : Int) : Option (CheckAgent × GroupNodeCheckPhase) :=
  match s.agents.get? r with
  | some a =>
    match a.stage with
    | .checking phase => some (a, phase)
    | _ => none
  | none => none

/-- All nodes pass within their node groups: a check of the first phase succeeds, and the checks
of the later phases are of nodes that have passed it. -/
def PassesIntra (s : CheckSystem) : AgentAct → Prop
  | .finishCheck r result _ => ∀ x ∈ s.checkOf r,
      if x.2 = .intraInitial then result = true else (.intraInitial, true) ∈ x.1.results
  | _ => True

instance (s : CheckSystem) (a : AgentAct) : Decidable (s.PassesIntra a) :=
  match a with
  | .finishCheck r result _ => inferInstanceAs (Decidable (∀ x ∈ s.checkOf r,
      if x.2 = .intraInitial then result = true else (.intraInitial, true) ∈ x.1.results))
  | .startRun _ _ _ => .isTrue trivial
  | .clearGroups _ => .isTrue trivial
  | .join _ _ => .isTrue trivial
  | .getCommWorld _ _ => .isTrue trivial
  | .checkFaultNode _ _ => .isTrue trivial
  | .checkStraggler _ _ _ => .isTrue trivial
  | .removeAliveNode _ => .isTrue trivial
  | .updateRdzvParams _ _ _ _ => .isTrue trivial

/-! ### No status fails -/

/-- A status that is a success everywhere and no fault. -/
structure Clean (s : NetworkCheckManager) : Prop where
  status : ∀ e ∈ s.nodeStatus.items, e.2 = true
  faults : s.faultNodes = []

theorem Clean.failedRanks {s : NetworkCheckManager} (h : Clean s) : s.failedRanks = [] := by
  rw [NetworkCheckManager.failedRanks, List.map_eq_nil_iff, List.filter_eq_nil_iff]
  intro e he
  simp [h.status e he]

theorem Clean.report {s : NetworkCheckManager} (h : Clean s) (r : Int) (elapsedTime : ℚ) :
    Clean (s.reportNetworkCheckResult r true elapsedTime) where
  status := by
    rintro ⟨r', ok⟩ mem
    rcases Dict.mem_items_insert.mp mem with ⟨-, rfl⟩ | ⟨-, mem⟩
    · exact Bool.or_true _
    · exact h.status _ mem
  faults := h.faults

theorem Clean.startRound {s : GroupNodeManager} (h : Clean s.check) : Clean s.startRound.check where
  status := by
    intro e he
    simp only [GroupNodeManager.startRound, GroupNodeManager.groupNodes_check] at he
    split at he
    · cases he
    · exact h.status e he
  faults := rfl

theorem Clean.getCommWorld {s : GroupNodeManager} (h : Clean s.check) (r : Int) (env : Env) :
    Clean (s.getCommWorld r env).2.check := by
  have base : ∀ base, Clean (s.setBase base).check := fun _ ↦ ⟨h.status, h.faults⟩
  unfold GroupNodeManager.getCommWorld
  split
  · split
    · exact base _
    · exact base _
    · exact (base _).startRound
  · exact h

theorem Clean.getStraggler {s : GroupNodeManager} (h : Clean s.check) :
    Clean s.getStraggler.2.check := by
  simp only [GroupNodeManager.getStraggler, NetworkCheckManager.getStraggler]
  split
  · exact h
  · split
    · exact ⟨h.status, h.faults⟩
    · exact h

/-- Without a failed status no fault is found, whatever the phase. -/
theorem Clean.checkFaultNode {s : GroupNodeManager} (h : Clean s.check) :
    (∃ reason, s.checkFaultNode.1 = .ok ([], reason)) ∧ Clean s.checkFaultNode.2.check := by
  have none := h.failedRanks
  unfold GroupNodeManager.checkFaultNode
  split
  · exact ⟨⟨_, rfl⟩, h⟩
  · split
    · rw [h.faults]
      exact ⟨⟨_, rfl⟩, h⟩
    · simp only [h.faults, if_true, none, List.any_nil, Bool.false_eq_true, if_false]
      split
      · split
        · exact ⟨⟨_, rfl⟩, h.status, rfl⟩
        · exact ⟨⟨_, rfl⟩, h.status, rfl⟩
      · exact ⟨⟨_, rfl⟩, h.status, rfl⟩

/-- An agent that has passed the first phase reports successes only. -/
def Passed (a : CheckAgent) : Prop := (.intraInitial, true) ∈ a.results → a.success = true

/-- What holds while all nodes pass within their node groups. -/
structure Masked (s : CheckSystem) : Prop where
  agents : ∀ e ∈ s.agents.items, Passed e.2
  clean : Clean s.manager.check

theorem Masked.setAgent {s : CheckSystem} (h : Masked s) {r : Int} {manager : GroupNodeManager}
    {a : CheckAgent} (passed : Passed a) (clean : Clean manager.check) :
    Masked (s.setAgent r manager a) where
  agents := by
    rintro ⟨r', a'⟩ mem
    rcases Dict.mem_items_insert.mp mem with ⟨-, rfl⟩ | ⟨-, mem⟩
    · exact passed
    · exact h.agents _ mem
  clean := clean

theorem Passed.record {a : CheckAgent} (h : Passed a) {phase : GroupNodeCheckPhase} {result : Bool}
    (passes : if phase = .intraInitial then result = true else (.intraInitial, true) ∈ a.results) :
    (a.record phase result).success = true := by
  rw [CheckAgent.record]
  split at passes
  · rw [passes]
    exact Bool.or_true _
  · rw [h passes]
    rfl

theorem Passed.decideNext {a : CheckAgent} (h : Passed a) (r : Int) (faultNodes : List Int)
    (reason : FailureReason) (stragglers : List Int) (runningNodes : Nat) :
    Passed (a.decideNext r faultNodes reason stragglers runningNodes) := by
  have next : Passed (a.next r faultNodes stragglers) := by
    unfold CheckAgent.next
    split <;> exact h
  unfold CheckAgent.decideNext
  split
  · exact next
  · split
    · split
      · exact h
      · exact next
    · exact h

theorem withAgent_eq_some {s t : CheckSystem} {r : Int} {f : CheckAgent → Option CheckSystem}
    (h : s.withAgent r f = some t) : ∃ a, s.agents.get? r = some a ∧ f a = some t :=
  Option.bind_eq_some_iff.mp h

theorem Masked.passed {s : CheckSystem} (h : Masked s) {r : Int} {a : CheckAgent}
    (found : s.agents.get? r = some a) : Passed a :=
  h.agents _ (Dict.get?_eq_some_iff.mp found)

/-- A poll that hands out a world starts the agent's check. -/
theorem Masked.getCommWorld {s t : CheckSystem} (h : Masked s) {r : Int} {env : Env}
    (taken : s.step (.getCommWorld r env) = some t) : Masked t := by
  rcases withAgent_eq_some taken with ⟨a, found, taken⟩
  have passed := h.passed found
  have clean := h.clean.getCommWorld r env
  split at taken
  · split at taken
    · next eq =>
      rw [eq] at clean
      cases taken
      refine h.setAgent ?_ clean
      split <;> exact passed
    · next eq =>
      rw [eq] at clean
      cases taken
      exact h.setAgent passed clean
  · cases taken

/-- Whatever its result, an agent reports a success. -/
theorem Masked.finishCheck {s t : CheckSystem} (h : Masked s) {r : Int} {result : Bool}
    {elapsedTime : ℚ} (ok : s.PassesIntra (.finishCheck r result elapsedTime))
    (taken : s.step (.finishCheck r result elapsedTime) = some t) : Masked t := by
  rcases withAgent_eq_some taken with ⟨a, found, taken⟩
  split at taken
  · next phase checking =>
    have passes := ok (a, phase) (by simp [checkOf, found, checking])
    have success := (h.passed found).record passes
    cases taken
    refine h.setAgent (fun _ ↦ success) ?_
    rw [success]
    exact h.clean.report r _
  · cases taken

theorem Masked.checkFaultNode {s t : CheckSystem} (h : Masked s) {r : Int} {timedOut : Bool}
    (taken : s.step (.checkFaultNode r timedOut) = some t) : Masked t := by
  rcases withAgent_eq_some taken with ⟨a, found, taken⟩
  have passed := h.passed found
  have clean := h.clean.checkFaultNode.2
  split at taken
  · split at taken
    · next eq =>
      rw [eq] at clean
      cases taken
      refine h.setAgent ?_ clean
      split <;> exact passed
    · next eq =>
      rw [eq] at clean
      cases taken
      exact h.setAgent passed clean
  · cases taken

theorem Masked.checkStraggler {s t : CheckSystem} (h : Masked s) {r : Int} {timedOut : Bool}
    {runningNodes : Nat} (taken : s.step (.checkStraggler r timedOut runningNodes) = some t) :
    Masked t := by
  rcases withAgent_eq_some taken with ⟨a, found, taken⟩
  have passed := h.passed found
  split at taken
  · cases taken
    refine h.setAgent ?_ h.clean.getStraggler
    split
    · exact passed
    · exact passed.decideNext _ _ _ _ _
  · cases taken

theorem Masked.step {s t : CheckSystem} {act : AgentAct} (h : Masked s) (ok : s.PassesIntra act)
    (taken : s.step act = some t) : Masked t := by
  cases act with
  | startRun r checkRound excludeStraggler =>
    cases taken
    refine h.setAgent ?_ h.clean
    intro mem
    cases mem
  | clearGroups req =>
    rcases withAgent_eq_some taken with ⟨a, found, taken⟩
    have passed := h.passed found
    split at taken
    · cases taken
      exact h.setAgent passed ⟨h.clean.status, h.clean.faults⟩
    · cases taken
  | join r env =>
    rcases withAgent_eq_some taken with ⟨a, found, taken⟩
    have passed := h.passed found
    split at taken
    · cases taken
      exact h.setAgent passed ⟨h.clean.status, h.clean.faults⟩
    · cases taken
  | getCommWorld r env => exact h.getCommWorld taken
  | finishCheck r result elapsedTime => exact h.finishCheck ok taken
  | checkFaultNode r timedOut => exact h.checkFaultNode taken
  | checkStraggler r timedOut runningNodes => exact h.checkStraggler taken
  | removeAliveNode nodeId =>
    cases taken
    exact ⟨h.agents, h.clean.status, h.clean.faults⟩
  | updateRdzvParams minNodes maxNodes waitingTimeout nodeUnit =>
    cases taken
    exact ⟨h.agents, h.clean.status, h.clean.faults⟩

theorem run_masked {acts : List AgentAct} {s : CheckSystem}
    (run : Run step PassesIntra init acts s) : Masked s := by
  apply run.invariant
  · exact ⟨fun _ mem ↦ absurd mem List.not_mem_nil, fun _ mem ↦ absurd mem List.not_mem_nil, rfl⟩
  · intro s t act h ok taken
    exact h.step ok taken

/-- Node `x` has failed across the node groups in both phases. -/
def FailsInter (s : CheckSystem) (x : Int) : Prop :=
  ∃ a, s.agents.get? x = some a ∧ (.interInitial, false) ∈ a.results ∧
    (.interDiagnostic, false) ∈ a.results

/-- The check of faults tells node `x`. -/
def Told (s : CheckSystem) (x : Int) : Prop :=
  ∃ nodes reason, s.manager.checkFaultNode.1 = .ok (nodes, reason) ∧ x ∈ nodes

/-- When all nodes pass within their node groups, a failure across them is never told: that all
such failures are told is true only where there is none. -/
theorem interFailure_told_iff {acts : List AgentAct} {s : CheckSystem}
    (run : Run step PassesIntra init acts s) :
    (∀ x, FailsInter s x → Told s x) ↔ ∀ x, ¬FailsInter s x := by
  constructor
  · intro told x fails
    rcases told x fails with ⟨nodes, reason, eq, mem⟩
    rcases (run_masked run).clean.checkFaultNode.1 with ⟨reason', none⟩
    rw [none] at eq
    cases eq
    cases mem
  · intro none x fails
    exact absurd fails (none x)

/-! ### Two node groups of three -/

/-- Nodes 0 to 2 are one node group, 3 to 5 the other. -/
def sixEnv : Env := ⟨10, fun _ ↦ ("", ""), fun id ↦ (id / 3, 3, ""), fun _ ↦ false⟩

def sixNodes : List Int := [0, 1, 2, 3, 4, 5]

/-- The nodes join, and the check of the listed ones fails. -/
def checkSteps (failing : List Int) : List AgentAct :=
  (sixNodes.flatMap fun r ↦ [.clearGroups ⟨r, r, 8, ""⟩, .join r sixEnv]) ++
    (sixNodes.map fun r ↦ .getCommWorld r sixEnv) ++
    sixNodes.map fun r ↦ .finishCheck r (decide (r ∉ failing)) 1

/-- All of them ask for the result. -/
def resultSteps : List AgentAct :=
  (sixNodes.map fun r ↦ .checkFaultNode r false) ++ sixNodes.map fun r ↦ .checkStraggler r false 6

/-- The link of node 0 fails in both rounds across the node groups. -/
def sixRun : List AgentAct :=
  .updateRdzvParams 6 6 30 1 :: (sixNodes.map (.startRun · 3 true) ++
    checkSteps [] ++ resultSteps ++ checkSteps [0, 3] ++ resultSteps ++ checkSteps [0, 4])

/-- The state after the third round. -/
theorem sixRun_ends : ∃ s, Run step PassesIntra init sixRun s ∧ FailsInter s 0 ∧
    s.manager.currentPhase = .interDiagnostic ∧
    s.manager.check.reportedNodes.length = s.manager.check.base.rdzvNodes.items.length ∧
    s.manager.checkFaultNode.1 = .ok ([], .none) := by
  have eval : (sixRun.foldlM (fun s a ↦ if PassesIntra s a then step s a else none) init).map
      (fun s ↦ decide (∃ a ∈ s.agents.get? 0, (.interInitial, false) ∈ a.results ∧
          (.interDiagnostic, false) ∈ a.results) &&
        decide (s.manager.currentPhase = .interDiagnostic) &&
        decide (s.manager.check.reportedNodes.length =
          s.manager.check.base.rdzvNodes.items.length) &&
        decide (s.manager.checkFaultNode.1 = .ok ([], .none))) = some true := by
    decide +kernel
  rcases Option.map_eq_some_iff.mp eval with ⟨s, hs, holds⟩
  simp only [Bool.and_eq_true, decide_eq_true_eq] at holds
  rcases holds with ⟨⟨⟨⟨a, agent, fails⟩, phase⟩, all⟩, told⟩
  exact ⟨s, run_of_guarded hs, ⟨a, agent, fails⟩, phase, all, told⟩

theorem interFailure_told_iff_six : ∃ s, Run step PassesIntra init sixRun s ∧
    ¬∀ x, FailsInter s x → Told s x := by
  rcases sixRun_ends with ⟨s, run, fails, -⟩
  refine ⟨s, run, ?_⟩
  intro told
  exact (interFailure_told_iff run).mp told 0 fails

/-- Node 0 fails in both rounds across the node groups, and nobody is told. -/
theorem interFailure_missed : ∃ acts s, Run step PassesIntra init acts s ∧
    s.manager.currentPhase = .interDiagnostic ∧
    s.manager.check.reportedNodes.length = s.manager.check.base.rdzvNodes.items.length ∧
    FailsInter s 0 ∧ ¬Told s 0 := by
  rcases sixRun_ends with ⟨s, run, fails, phase, all, told⟩
  refine ⟨sixRun, s, run, phase, all, fails, ?_⟩
  rintro ⟨nodes, reason, eq, mem⟩
  rw [told] at eq
  cases eq
  cases mem

end CheckSystem

end ProbingBaselines.Dlrover
