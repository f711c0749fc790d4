import ProbingBaselines.Dlrover.NetworkGroups
import ProbingBaselines.Dlrover.CheckPartition

/-!
# The worlds of the checks

Runs of both check managers with the groups of each completed check: any joins, removals, reports
and polls, from any state. All groups of a run split their nodes just when each poll that completed
a check found a world that can be split. The base class leaves out a node without a time in its
second round, although its first round puts every node somewhere.
-/

namespace ProbingBaselines.Dlrover

open Lib

/-- The nodes and groups of a completed check, and whether it checks within the node groups. -/
structure Formation where
  nodes : NodeMap
  intra : Bool
  groups : List NodeMap

def Formation.Splits (f : Formation) : Prop :=
  SplitsWorld f.nodes f.intra (f.groups.map Dict.keys)

/-- A poll completes the rendezvous, or drops the nodes that failed and no more. -/
theorem checkRdzvCompleted_or (s : RdzvManager) (env : Env) :
    (∃ result, result ≠ .ok true ∧
      s.checkRdzvCompleted env = (result, s.dropFailed env.failed)) ∨
    ∃ num, s.checkRdzvCompleted env = (.ok true, (s.dropFailed env.failed).complete num) := by
  rcases s.checkRdzvCompleted_cases env with eq | ⟨e, eq, -⟩ | ⟨num, -, -, eq⟩
  · refine .inl ⟨_, ?_, eq⟩
    intro same
    cases same
  · refine .inl ⟨_, ?_, eq⟩
    intro same
    cases same
  · exact .inr ⟨num, eq⟩

/-! ### The base class -/

namespace NetworkSystem

/-- The check that a poll completes. -/
def formations (s : NetworkSystem) : NetworkAct → List Formation
  | .beginPoll _ env =>
    -- only a completion moves the round on
    if s.manager.base.rdzvRound < (s.manager.checkCompleted env).2.base.rdzvRound then
      [⟨(s.manager.checkCompleted env).2.base.rdzvNodes, false,
        (s.manager.checkCompleted env).2.nodeGroups⟩]
    else []
  | _ => []

/-- A poll completes a check when no groups are left and the base class has completed a
rendezvous. -/
theorem formations_beginPoll (s : NetworkSystem) (r : Int) (env : Env) :
    (s.manager.nodeGroups = [] ∧ (s.manager.base.checkRdzvCompleted env).1 = .ok true ∧
      s.formations (.beginPoll r env) =
        [⟨(s.manager.base.checkRdzvCompleted env).2.rdzvNodes, false,
          groupNodes (s.manager.base.checkRdzvCompleted env).2.rdzvNodes s.manager.nodeTimes
            s.manager.base.rdzvRound⟩]) ∨
    ¬ (s.manager.nodeGroups = [] ∧ (s.manager.base.checkRdzvCompleted env).1 = .ok true) ∧
      s.formations (.beginPoll r env) = [] := by
  have round := (s.manager.base.dropFailed_drops env.failed).same.2.1
  by_cases formed : s.manager.nodeGroups = []
  · rcases checkRdzvCompleted_or s.manager.base env with ⟨result, not, eq⟩ | ⟨num, eq⟩
    · right
      have poll : (s.manager.checkCompleted env).2.base.rdzvRound = s.manager.base.rdzvRound := by
        rw [NetworkCheckManager.checkCompleted, if_pos formed, eq]
        rcases result with e | _ | _
        · exact round
        · exact round
        · exact absurd rfl not
      rw [formations, poll, if_neg (Nat.lt_irrefl _), eq]
      exact ⟨fun ok ↦ not ok.2, rfl⟩
    · left
      have poll : (s.manager.checkCompleted env).2 = NetworkCheckManager.startRound
          { s.manager with base := (s.manager.base.dropFailed env.failed).complete num } := by
        rw [NetworkCheckManager.checkCompleted, if_pos formed, eq]
      have next : s.manager.base.rdzvRound < (NetworkCheckManager.startRound { s.manager with
          base := (s.manager.base.dropFailed env.failed).complete num }).base.rdzvRound :=
        Nat.lt_succ_of_le round.ge
      rw [formations, poll, if_pos next, eq, ← round]
      exact ⟨formed, rfl, rfl⟩
  · right
    have poll : (s.manager.checkCompleted env).2 = s.manager := by
      rw [NetworkCheckManager.checkCompleted, if_neg formed]
    rw [formations, poll, if_neg (Nat.lt_irrefl _)]
    exact ⟨fun both ↦ formed both.1, rfl⟩

/-- When the poll completes a second round, all nodes of the world have a time. -/
def Splittable (s : NetworkSystem) : NetworkAct → Prop
  | .beginPoll _ env =>
    s.manager.nodeGroups = [] → (s.manager.base.checkRdzvCompleted env).1 = .ok true →
      s.manager.base.rdzvRound % 2 = 1 →
      ∀ r ∈ (s.manager.base.checkRdzvCompleted env).2.rdzvNodes, r ∈ s.manager.nodeTimes
  | _ => True

theorem splits_groupNodes_iff (nodes : NodeMap) (nodeTimes : Dict Int ℚ) (round : Nat) :
    SplitsWorld nodes false ((groupNodes nodes nodeTimes round).map Dict.keys) ↔
      (round % 2 = 1 → ∀ r ∈ nodes, r ∈ nodeTimes) := by
  unfold groupNodes
  split
  · next even =>
    refine iff_of_true (splits_groupAdjacent fun off ↦ absurd off Bool.false_ne_true) fun odd ↦ ?_
    rw [even] at odd
    cases odd
  · next odd =>
    rw [splits_groupEnds_iff fun off ↦ absurd off Bool.false_ne_true]
    exact ⟨fun timed _ ↦ timed, fun timed ↦ timed (by omega)⟩

theorem formations_split_iff (s : NetworkSystem) (a : NetworkAct) :
    (∀ f ∈ s.formations a, f.Splits) ↔ s.Splittable a := by
  cases a with
  | beginPoll r env =>
    rcases s.formations_beginPoll r env with ⟨formed, ok, eq⟩ | ⟨not, eq⟩
    · rw [eq, List.forall_mem_singleton]
      exact (splits_groupNodes_iff _ _ _).trans ⟨fun h _ _ ↦ h, fun h ↦ h formed ok⟩
    · rw [eq]
      exact iff_of_true (fun f hf ↦ absurd hf List.not_mem_nil)
        fun formed ok ↦ absurd ⟨formed, ok⟩ not
  | _ => exact iff_of_true (fun f hf ↦ absurd hf List.not_mem_nil) trivial

end NetworkSystem

/-! ### Node groups -/

/-- The manager of node groups, and the joins between their clear and their locked part. -/
structure GroupNodeSystem where
  manager : GroupNodeManager
  joining : List JoinRendezvousRequest

inductive GroupNodeAct where
  | clearGroups (req : JoinRendezvousRequest)
  | join (i : Nat) (env : Env)
  | getCommWorld (nodeRank : Int) (env : Env)
  | removeAliveNode (nodeId : Int)
  | report (nodeRank : Int) (succeed : Bool) (elapsedTime : ℚ)
  | checkFaultNode
  | getStraggler
  | updateRdzvParams (minNodes maxNodes : Int) (waitingTimeout : ℚ) (nodeUnit : Int)

namespace GroupNodeSystem

def init : GroupNodeSystem := ⟨.init, []⟩

def step (s : GroupNodeSystem) : GroupNodeAct → Option GroupNodeSystem
  | .clearGroups req =>
    some ⟨{ s.manager with check := s.manager.check.clearGroups }, s.joining ++ [req]⟩
  | .join i env =>
    (s.joining[i]?).map fun req ↦
      ⟨{ s.manager with check := s.manager.check.joinRendezvous req env }, s.joining.eraseIdx i⟩
  | .getCommWorld nodeRank env => some { s with manager := (s.manager.getCommWorld nodeRank env).2 }
  | .removeAliveNode nodeId =>
    some { s with manager := s.manager.setBase (s.manager.check.base.removeAliveNode nodeId) }
  | .report nodeRank succeed elapsedTime =>
    some { s with
      manager := s.manager.reportNetworkCheckResult nodeRank succeed elapsedTime }
  | .checkFaultNode => some { s with manager := s.manager.checkFaultNode.2 }
  | .getStraggler => some { s with manager := s.manager.getStraggler.2 }
  | .updateRdzvParams minNodes maxNodes waitingTimeout nodeUnit =>
    some { s with
      manager := s.manager.setBase
        (s.manager.check.base.updateRdzvParams minNodes maxNodes waitingTimeout nodeUnit) }

/-- The check that a poll completes. -/
def formations (s : GroupNodeSystem) : GroupNodeAct → List Formation
  | .getCommWorld nodeRank env =>
    if s.manager.check.base.rdzvRound <
        (s.manager.getCommWorld nodeRank env).2.check.base.rdzvRound then
      [⟨(s.manager.getCommWorld nodeRank env).2.check.base.rdzvNodes,
        (s.manager.getCommWorld nodeRank env).2.currentPhase.isIntra,
        (s.manager.getCommWorld nodeRank env).2.check.nodeGroups⟩]
    else []
  | _ => []

/-- When the poll completes a check, its world can be split. -/
def Splittable (s : GroupNodeSystem) : GroupNodeAct → Prop
  | .getCommWorld _ env =>
    s.manager.check.nodeGroups = [] → (s.manager.check.base.checkRdzvCompleted env).1 = .ok true →
      (s.manager.setBase (s.manager.check.base.checkRdzvCompleted env).2).Splittable
        s.manager.check.base.rdzvRound
  | _ => True

theorem formations_getCommWorld (s : GroupNodeSystem) (r : Int) (env : Env) :
    (s.manager.check.nodeGroups = [] ∧
      (s.manager.check.base.checkRdzvCompleted env).1 = .ok true ∧
      s.formations (.getCommWorld r env) =
        [⟨(s.manager.check.base.checkRdzvCompleted env).2.rdzvNodes,
          ((s.manager.setBase (s.manager.check.base.checkRdzvCompleted env).2).groupNodes
            s.manager.check.base.rdzvRound).2.currentPhase.isIntra,
          ((s.manager.setBase (s.manager.check.base.checkRdzvCompleted env).2).groupNodes
            s.manager.check.base.rdzvRound).1⟩]) ∨
    ¬ (s.manager.check.nodeGroups = [] ∧
        (s.manager.check.base.checkRdzvCompleted env).1 = .ok true) ∧
      s.formations (.getCommWorld r env) = [] := by
  have round := (s.manager.check.base.dropFailed_drops env.failed).same.2.1
  by_cases formed : s.manager.check.nodeGroups = []
  · rcases checkRdzvCompleted_or s.manager.check.base env with ⟨result, not, eq⟩ | ⟨num, eq⟩
    · right
      have poll : (s.manager.getCommWorld r env).2.check.base.rdzvRound =
          s.manager.check.base.rdzvRound := by
        rw [GroupNodeManager.getCommWorld, if_pos formed, eq]
        rcases result with e | _ | _
        · exact round
        · exact round
        · exact absurd rfl not
      rw [formations, poll, if_neg (Nat.lt_irrefl _), eq]
      exact ⟨fun ok ↦ not ok.2, rfl⟩
    · left
      have poll : (s.manager.getCommWorld r env).2 = (s.manager.setBase
          ((s.manager.check.base.dropFailed env.failed).complete num)).startRound := by
        rw [GroupNodeManager.getCommWorld, if_pos formed, eq]
      have base := GroupNodeManager.startRound_base (s.manager.setBase
        ((s.manager.check.base.dropFailed env.failed).complete num))
      have next : s.manager.check.base.rdzvRound <
          ((s.manager.setBase ((s.manager.check.base.dropFailed env.failed).complete
            num)).startRound).check.base.rdzvRound := by
        rw [base]
        exact Nat.lt_succ_of_le round.ge
      rw [formations, poll, if_pos next, eq, base, ← round]
      exact ⟨formed, rfl, rfl⟩
  · right
    have poll : (s.manager.getCommWorld r env).2 = s.manager := by
      rw [GroupNodeManager.getCommWorld, if_neg formed]
    rw [formations, poll, if_neg (Nat.lt_irrefl _)]
    exact ⟨fun both ↦ formed both.1, rfl⟩

theorem formations_split_iff (s : GroupNodeSystem) (a : GroupNodeAct) :
    (∀ f ∈ s.formations a, f.Splits) ↔ s.Splittable a := by
  cases a with
  | getCommWorld r env =>
    rcases s.formations_getCommWorld r env with ⟨formed, ok, eq⟩ | ⟨not, eq⟩
    · have splits := (s.manager.setBase
        (s.manager.check.base.checkRdzvCompleted env).2).groupNodes_splits_iff
          s.manager.check.base.rdzvRound
      rw [GroupNodeManager.setBase_base] at splits
      rw [eq, List.forall_mem_singleton, Formation.Splits, splits]
      exact ⟨fun h _ _ ↦ h, fun h ↦ h formed ok⟩
    · rw [eq]
      exact iff_of_true (fun f hf ↦ absurd hf List.not_mem_nil)
        fun formed ok ↦ absurd ⟨formed, ok⟩ not
  | _ => exact iff_of_true (fun f hf ↦ absurd hf List.not_mem_nil) trivial

end GroupNodeSystem

/-! ### Runs -/

/-- In the runs of both managers, from any state, the groups of all checks split their nodes just
when each poll finds a world that can be split. -/
theorem checks_split_iff {start : NetworkSystem} {acts : List NetworkAct}
    {s : Recorded NetworkSystem Formation}
    (run : Run (record NetworkSystem.step NetworkSystem.formations) anyStep ⟨start, []⟩ acts s)
    {groupStart : GroupNodeSystem} {groupActs : List GroupNodeAct}
    {t : Recorded GroupNodeSystem Formation}
    (groupRun : Run (record GroupNodeSystem.step GroupNodeSystem.formations) anyStep
      ⟨groupStart, []⟩ groupActs t) :
    ((∀ f ∈ s.made, f.Splits) ↔
      Run (record NetworkSystem.step NetworkSystem.formations)
        (fun s a ↦ s.state.Splittable a) ⟨start, []⟩ acts s) ∧
    ((∀ f ∈ t.made, f.Splits) ↔
      Run (record GroupNodeSystem.step GroupNodeSystem.formations)
        (fun s a ↦ s.state.Splittable a) ⟨groupStart, []⟩ groupActs t) := by
  constructor
  · exact run.forall_made_iff NetworkSystem.formations_split_iff
  · exact groupRun.forall_made_iff GroupNodeSystem.formations_split_iff

/-- The node with id and rank `r` joins, the node groups having `size` nodes. -/
def groupJoin (size r : Int) : List GroupNodeAct :=
  [.clearGroups ⟨r, r, 8, ""⟩,
    .join 0 ⟨10, fun _ ↦ ("", ""), fun id ↦ (id / size, size, ""), fun _ ↦ false⟩]

/-- All of `ranks` join, and one of them polls. -/
def groupCheck (size : Int) (ranks : List Int) : List GroupNodeAct :=
  .updateRdzvParams ranks.length ranks.length 30 1 ::
    (ranks.flatMap (groupJoin size) ++ [.getCommWorld 0 (TrainingSystem.quietEnv 11)])

/-- Five nodes in pairs, and two node groups of two. -/
theorem checks_split_iff_pairs :
    ∃ s t, s.made.length = 1 ∧ t.made.length = 1 ∧
      ((∀ f ∈ s.made, f.Splits) ↔
        Run (record NetworkSystem.step NetworkSystem.formations)
          (fun s a ↦ s.state.Splittable a) ⟨.init, []⟩ NetworkSystem.fiveJoined s) ∧
      ((∀ f ∈ t.made, f.Splits) ↔
        Run (record GroupNodeSystem.step GroupNodeSystem.formations)
          (fun s a ↦ s.state.Splittable a) ⟨.init, []⟩ (groupCheck 2 [0, 1, 2, 3]) t) := by
  have pairs : (NetworkSystem.fiveJoined.foldlM
      (record NetworkSystem.step NetworkSystem.formations) ⟨.init, []⟩).any
      (fun s ↦ decide (s.made.length = 1)) = true := by
    decide +kernel
  have groups : ((groupCheck 2 [0, 1, 2, 3]).foldlM
      (record GroupNodeSystem.step GroupNodeSystem.formations) ⟨.init, []⟩).any
      (fun t ↦ decide (t.made.length = 1)) = true := by
    decide +kernel
  rcases run_of_any pairs with ⟨s, run, one⟩
  rcases run_of_any groups with ⟨t, groupRun, groupOne⟩
  exact ⟨s, t, of_decide_eq_true one, of_decide_eq_true groupOne, checks_split_iff run groupRun⟩

/-- Node 2 is late for the first round of a check. -/
def lateNode : List NetworkAct :=
  .updateRdzvParams 2 3 30 1 :: ([0, 1].flatMap NetworkSystem.joinSteps ++
    NetworkSystem.pollSteps 0 60 ++ [.report 0 true 1, .report 1 true 1] ++
    [0, 1, 2].flatMap NetworkSystem.joinSteps ++ NetworkSystem.pollSteps 0 61)

/-- A node without a time is in no group, and the third node of a node group is alone. -/
theorem checks_leave_out :
    (∃ acts s, Run (record NetworkSystem.step NetworkSystem.formations) anyStep ⟨.init, []⟩
      acts s ∧ ∃ f ∈ s.made, ¬ f.Splits) ∧
    ∃ acts s, Run (record GroupNodeSystem.step GroupNodeSystem.formations) anyStep ⟨.init, []⟩
      acts s ∧ ∃ f ∈ s.made, ¬ f.Splits := by
  constructor
  · have eval : (lateNode.foldlM (record NetworkSystem.step NetworkSystem.formations)
        ⟨.init, []⟩).any (fun s ↦ decide (∃ f ∈ s.made, ∃ r ∈ f.nodes.keys,
          r ∉ (f.groups.map Dict.keys).flatten)) = true := by
      decide +kernel
    rcases run_of_any eval with ⟨s, run, holds⟩
    rcases of_decide_eq_true holds with ⟨f, hf, r, hr, left⟩
    exact ⟨lateNode, s, run, f, hf, fun splits ↦ left (splits.covered r hr)⟩
  · have eval : ((groupCheck 3 [0, 1, 2, 3, 4, 5]).foldlM
        (record GroupNodeSystem.step GroupNodeSystem.formations) ⟨.init, []⟩).any (fun s ↦
          decide (∃ f ∈ s.made, ∃ e ∈ f.nodes.items, [e.1] ∈ f.groups.map Dict.keys ∧
            ∃ e' ∈ f.nodes.items, e'.1 ≠ e.1 ∧ e'.2.nodeGroup = e.2.nodeGroup)) = true := by
      decide +kernel
    rcases run_of_any eval with ⟨s, run, holds⟩
    rcases of_decide_eq_true holds with ⟨f, hf, e, he, alone, e', he', ne, same⟩
    exact ⟨_, s, run, f, hf, fun splits ↦ splits.paired e he alone e' he' ⟨ne, fun _ ↦ same⟩⟩

end ProbingBaselines.Dlrover
