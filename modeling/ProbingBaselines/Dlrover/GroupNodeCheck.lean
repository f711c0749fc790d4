import ProbingBaselines.Dlrover.NetworkCheck

/-!
# The network check of node groups

`GroupNodeNetworkCheckRendezvousManager` (`rdzv_manager.py:880-1199`) checks nodes that belong to
node groups in cycles of three rounds: first within the node groups, then, unless that found a
failure, across them, and a third round with shifted pairs tells the faulty nodes.
-/

namespace ProbingBaselines.Dlrover

open Lib

inductive GroupNodeCheckPhase where
  | intraInitial
  | intraDiagnostic
  | interInitial
  | interDiagnostic
  deriving DecidableEq

/-! ### Groups -/

/-- The ranks of each node group, sorted; `rdzv_manager.py:898-914`. -/
def buildNodeGroupMap (nodes : NodeMap) : Dict Int (List Int) :=
  (Dict.groupBy (fun e : Int × NodeTopologyMeta ↦ e.2.nodeGroup)
    (nodes.items.filter fun e ↦ 0 ≤ e.2.nodeGroup)).mapValues
      fun es ↦ (es.map Prod.fst).insertionSort (· ≤ ·)

/-- The neighbours of a list, the last one alone if need be. -/
def pairsOf : List Int → List (List Int)
  | a :: b :: rest => [a, b] :: pairsOf rest
  | [a] => [[a]]
  | [] => []

/-- `rdzv_manager.py:972-984`. -/
def groupIntraInitial (nodes : NodeMap) (nodeGroupMap : Dict Int (List Int)) : List NodeMap :=
  nodeGroupMap.values.flatMap fun ranks ↦ (pairsOf ranks).map nodes.select

/-- `sorted(ranks, key=lambda r: self._node_times.get(r, 0))`. -/
def sortRanksByTime (nodeTimes : Dict Int ℚ) (ranks : List Int) : List Int :=
  ranks.insertionSort fun a b ↦ (nodeTimes.get? a).getD 0 ≤ (nodeTimes.get? b).getD 0

/-- The ends of a sorted node group, and the node in the middle in the last group so far;
`rdzv_manager.py:994-1014`. -/
def groupCross (nodes : NodeMap) (groups : List NodeMap) (sortedRanks : List Int) : List NodeMap :=
  let pairs := (List.range (sortedRanks.length / 2)).filterMap fun left ↦ do
    let a ← sortedRanks[left]?
    let b ← sortedRanks[sortedRanks.length - 1 - left]?
    return [a, b]
  let groups := groups ++ pairs.map nodes.select
  if sortedRanks.length % 2 = 1 then
    mergeLast groups (nodes.select sortedRanks[sortedRanks.length / 2]?.toList)
  else groups

/-- `rdzv_manager.py:986-1015`. -/
def groupIntraDiagnostic (nodes : NodeMap) (nodeTimes : Dict Int ℚ)
    (nodeGroupMap : Dict Int (List Int)) : List NodeMap :=
  (nodeGroupMap.values.map (sortRanksByTime nodeTimes)).foldl (groupCross nodes) []

/-- A single node joins the last group. -/
def addGroup (groups : List NodeMap) (group : NodeMap) : List NodeMap :=
  if 1 < group.items.length then groups ++ [group]
  else if group.items = [] then groups
  else mergeLast groups group

/-- The nodes at each position of the lists; `rdzv_manager.py:1028-1045`. -/
def groupByPosition (nodes : NodeMap) (rankLists : List (List Int)) : List NodeMap :=
  (List.range ((rankLists.map List.length).foldl max 0)).foldl
    (fun groups pos ↦ addGroup groups (nodes.select (rankLists.filterMap (·[pos]?)))) []

/-- The node groups by their index. -/
def sortedGroups (nodeGroupMap : Dict Int (List Int)) : List (List Int) :=
  (nodeGroupMap.items.insertionSort fun a b ↦ a.1 ≤ b.1).map Prod.snd

/-- `rdzv_manager.py:1017-1045`. -/
def groupInterInitial (nodes : NodeMap) (nodeGroupMap : Dict Int (List Int)) : List NodeMap :=
  groupByPosition nodes (sortedGroups nodeGroupMap)

/-- `rdzv_manager.py:1047-1088`: the `i`-th node group, by time, is rotated by `i`. -/
def groupInterDiagnostic (nodes : NodeMap) (nodeTimes : Dict Int ℚ)
    (nodeGroupMap : Dict Int (List Int)) : List NodeMap :=
  groupByPosition nodes ((sortedGroups nodeGroupMap).mapIdx fun i ranks ↦
    (sortRanksByTime nodeTimes ranks).rotate i)

/-! ### The manager -/

structure GroupNodeManager where
  check : NetworkCheckManager
  currentPhase : GroupNodeCheckPhase
  nodeGroupMap : Dict Int (List Int)
  intraPassed : Bool

namespace GroupNodeManager

def init : GroupNodeManager := ⟨.init, .intraInitial, .empty, false⟩

/-- `rdzv_manager.py:965-970`. -/
def hasIntraFailures (s : GroupNodeManager) : Bool := s.check.nodeStatus.values.any fun ok ↦ !ok

/-- `_group_nodes`; `rdzv_manager.py:916-963`. Without node groups the base class groups the
nodes, whose third round of three has no groups. -/
def groupNodes (s : GroupNodeManager) (round : Nat) : List NodeMap × GroupNodeManager :=
  let nodes := s.check.base.rdzvNodes
  let times := s.check.nodeTimes
  let s := { s with nodeGroupMap := buildNodeGroupMap nodes }
  if s.nodeGroupMap.items = [] then
    match round % 3 with
    | 0 => (groupAdjacent nodes, s)
    | 1 => (groupEnds nodes (sortByTime nodes times), s)
    | _ => ([], s)
  else
    match round % 3 with
    | 0 => (groupIntraInitial nodes s.nodeGroupMap,
        { s with currentPhase := .intraInitial, intraPassed := false })
    | 1 =>
      if s.hasIntraFailures then
        (groupIntraDiagnostic nodes times s.nodeGroupMap,
          { s with currentPhase := .intraDiagnostic })
      else
        (groupInterInitial nodes s.nodeGroupMap,
          { s with currentPhase := .interInitial, intraPassed := true })
    | _ => (groupInterDiagnostic nodes times s.nodeGroupMap,
        { s with currentPhase := .interDiagnostic })

/-- What a completion of the base does to the check; `rdzv_manager.py:1097-1119`. -/
def startRound (s : GroupNodeManager) : GroupNodeManager :=
  let round := s.check.base.rdzvRound
  let (groups, s) := s.groupNodes round
  let clear := decide (round % 3 = 0) || decide (round % 3 = 1) && s.intraPassed
  { s with
    check :=
      { s.check with
        faultNodes := []
        stragglerNodes := []
        nodeGroups := groups
        nodeStatus := if clear then .empty else s.check.nodeStatus
        nodeTimes := if clear then .empty else s.check.nodeTimes
        reportedNodes := []
        base := { s.check.base with rdzvRound := round + 1 } } }

def setBase (s : GroupNodeManager) (base : RdzvManager) : GroupNodeManager :=
  { s with check := { s.check with base := base } }

/-- `rdzv_manager.py:1090-1136`. -/
def getCommWorld (s : GroupNodeManager) (nodeRank : Int) (env : Env) :
    Except RdzvError CommWorld × GroupNodeManager :=
  if s.check.nodeGroups = [] then
    match s.check.base.checkRdzvCompleted env with
    | (.error e, base) => (.error e, s.setBase base)
    | (.ok false, base) => (.ok ((s.setBase base).check.findGroup nodeRank), s.setBase base)
    | (.ok true, base) =>
      (.ok ((s.setBase base).startRound.check.findGroup nodeRank), (s.setBase base).startRound)
  else (.ok (s.check.findGroup nodeRank), s)

def joinRendezvous (s : GroupNodeManager) (req : JoinRendezvousRequest) (env : Env) :
    GroupNodeManager :=
  { s with check := s.check.clearGroups.joinRendezvous req env }

def reportNetworkCheckResult (s : GroupNodeManager) (nodeRank : Int) (succeed : Bool)
    (elapsedTime : ℚ) : GroupNodeManager :=
  { s with check := s.check.reportNetworkCheckResult nodeRank succeed elapsedTime }

def getStraggler (s : GroupNodeManager) : (List Int × FailureReason) × GroupNodeManager :=
  (s.check.getStraggler.1, { s with check := s.check.getStraggler.2 })

/-- `rdzv_manager.py:1138-1199`. -/
def checkFaultNode (s : GroupNodeManager) :
    Except RdzvError (List Int × FailureReason) × GroupNodeManager :=
  if s.check.base.rdzvNodes.items = [] then (.ok ([], .noInit), s)
  else if s.check.reportedNodes.length < s.check.base.rdzvNodes.items.length then
    (.ok (s.check.faultNodes, .waitingNode), s)
  else if s.check.faultNodes = [] then
    let s := { s with check := { s.check with faultNodes := s.check.failedRanks } }
    if s.check.faultNodes.any fun rank ↦ rank ∉ s.check.base.rdzvNodes then (.error .keyError, s)
    else if s.check.faultNodes = [] then
      if s.check.detectStragglers = [] then
        if s.currentPhase = .intraInitial then (.ok ([], .nextPhase), s)
        else (.ok ([], .none), s.setBase
          { s.check.base with rdzvRound := (s.check.base.rdzvRound + 2) / 3 * 3 })
      else (.ok ([], .none), s)
    else (.ok (s.check.faultNodes, .nodeFailure), s)
  else (.ok (s.check.faultNodes, .nodeFailure), s)

/-- The grouping leaves the check alone. -/
theorem groupNodes_check (s : GroupNodeManager) (round : Nat) :
    (s.groupNodes round).2.check = s.check := by
  unfold groupNodes
  simp only
  split
  · split <;> rfl
  · split
    · rfl
    · split <;> rfl
    · rfl

theorem setBase_base (s : GroupNodeManager) (base : RdzvManager) :
    (s.setBase base).check.base = base := rfl

theorem startRound_base (s : GroupNodeManager) :
    s.startRound.check.base = { s.check.base with rdzvRound := s.check.base.rdzvRound + 1 } := by
  simp only [startRound, groupNodes_check]

end GroupNodeManager

end ProbingBaselines.Dlrover
