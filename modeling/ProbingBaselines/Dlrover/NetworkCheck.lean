import Mathlib.Data.Rat.Floor
import ProbingBaselines.Lib.Pairing
import ProbingBaselines.Dlrover.ElasticTraining

/-!
# The network check

`NetworkCheckRendezvousManager` (`rdzv_manager.py:599-880`) splits the nodes of a completed
rendezvous into groups of two, in even rounds by rank and in odd rounds by the reported times, the
fastest with the slowest. The nodes report their results, which are or-ed over two rounds, and the
manager tells the faulty ones.
-/

namespace ProbingBaselines.Dlrover

open Lib

/-- Python's `round(x, 3)`: the nearest thousandth, ties to even. -/
def round3 (x : ℚ) : ℚ :=
  let low := ⌊x * 1000⌋
  let rest := x * 1000 - low
  let nearest : Int := if 1 / 2 < rest ∨ rest = 1 / 2 ∧ low % 2 = 1 then low + 1 else low
  nearest / 1000

/-- `NetworkFailureReason`; `none` is the empty text. -/
inductive FailureReason where
  | none
  | noInit
  | nodeFailure
  | waitingNode
  | nextPhase
  deriving DecidableEq

/-! ### Groups -/

/-- `node_groups[-1].update(group)`, or a group of its own when there is no other. -/
def mergeLast (groups : List NodeMap) (group : NodeMap) : List NodeMap :=
  match groups.getLast? with
  | some last => groups.dropLast ++ [last.update group]
  | none => [group]

/-- A node joins the open group, which is closed with two nodes. -/
def pairNode (acc : List NodeMap × NodeMap) (e : Int × NodeTopologyMeta) :
    List NodeMap × NodeMap :=
  let group := acc.2.insert e.1 e.2
  if group.items.length = 2 then (acc.1 ++ [group], .empty) else (acc.1, group)

/-- Neighbours together, a node left over goes to the last group; `rdzv_manager.py:694-705`. -/
def groupAdjacent (nodes : NodeMap) : List NodeMap :=
  let (groups, group) := nodes.items.foldl pairNode ([], .empty)
  if group.items.length = 1 then mergeLast groups group else groups

/-- The pairs of the loop `while right >= left`, in which `right = len(cur_nodes) - 1 - left`. -/
def endPairs (curNodes : List Int) : List (List Int) :=
  (List.range ((curNodes.length + 1) / 2)).filterMap fun left ↦ do
    let node0 ← curNodes[left]?
    let node1 ← curNodes[curNodes.length - 1 - left]?
    return [node0, node1]

/-- The first with the last, and so on; the node in the middle goes to the last group.
`rdzv_manager.py:712-729`. -/
def groupEnds (nodes : NodeMap) (curNodes : List Int) : List NodeMap :=
  let groups := (endPairs curNodes).map nodes.select
  let full := groups.filter fun group ↦ group.items.length = 2
  match groups.getLast? with
  | some group => if group.items.length = 1 then mergeLast full group else full
  | none => full

/-- The ranks of the nodes by time; `rdzv_manager.py:708-711`. -/
def sortByTime (nodes : NodeMap) (nodeTimes : Dict Int ℚ) : List Int :=
  ((nodeTimes.items.insertionSort fun a b ↦ a.2 ≤ b.2).map Prod.fst).filter fun r ↦ r ∈ nodes

/-- `_group_nodes`; `rdzv_manager.py:684-730`. -/
def groupNodes (nodes : NodeMap) (nodeTimes : Dict Int ℚ) (round : Nat) : List NodeMap :=
  if round % 2 = 0 then groupAdjacent nodes else groupEnds nodes (sortByTime nodes nodeTimes)

/-! ### The manager -/

structure NetworkCheckManager where
  base : RdzvManager
  nodeStatus : Dict Int Bool
  nodeTimes : Dict Int ℚ
  reportedNodes : List Int
  nodeGroups : List NodeMap
  faultNodes : List Int
  stragglerNodes : List Int

namespace NetworkCheckManager

def init : NetworkCheckManager where
  base := .init
  nodeStatus := .empty
  nodeTimes := .empty
  reportedNodes := []
  nodeGroups := []
  faultNodes := []
  stragglerNodes := []

/-- The part of `join_rendezvous` before the lock is taken; `rdzv_manager.py:801`. -/
def clearGroups (s : NetworkCheckManager) : NetworkCheckManager := { s with nodeGroups := [] }

/-- The part under the lock. -/
def joinRendezvous (s : NetworkCheckManager) (req : JoinRendezvousRequest) (env : Env) :
    NetworkCheckManager :=
  { s with base := s.base.joinRendezvous req env }

/-- What a completion of the base does to the check; `rdzv_manager.py:646-661`. -/
def startRound (s : NetworkCheckManager) : NetworkCheckManager :=
  let status := if s.base.rdzvRound % 2 = 0 then (.empty, .empty) else (s.nodeStatus, s.nodeTimes)
  { s with
    faultNodes := []
    stragglerNodes := []
    nodeGroups := groupNodes s.base.rdzvNodes s.nodeTimes s.base.rdzvRound
    nodeStatus := status.1
    nodeTimes := status.2
    reportedNodes := []
    base := { s.base with rdzvRound := s.base.rdzvRound + 1 } }

/-- `get_comm_world` up to the search for the group; `rdzv_manager.py:643-673`. -/
def checkCompleted (s : NetworkCheckManager) (env : Env) :
    Except RdzvError Unit × NetworkCheckManager :=
  if s.nodeGroups = [] then
    match s.base.checkRdzvCompleted env with
    | (.error e, base) => (.error e, { s with base := base })
    | (.ok false, base) => (.ok (), { s with base := base })
    | (.ok true, base) => (.ok (), startRound { s with base := base })
  else (.ok (), s)

/-- The search for the group; `rdzv_manager.py:675-678`. -/
def findGroup (s : NetworkCheckManager) (nodeRank : Int) : CommWorld :=
  match s.nodeGroups.findIdx? fun group ↦ nodeRank ∈ group with
  | some i => ⟨s.base.rdzvRound, i, s.nodeGroups.getD i .empty⟩
  | none => ⟨s.base.rdzvRound, 0, s.base.rdzvNodes⟩

/-- `get_comm_world` with no join in between. -/
def getCommWorld (s : NetworkCheckManager) (nodeRank : Int) (env : Env) :
    Except RdzvError CommWorld × NetworkCheckManager :=
  match s.checkCompleted env with
  | (.error e, s) => (.error e, s)
  | (.ok (), s) => (.ok (s.findGroup nodeRank), s)

/-- `rdzv_manager.py:751-760`. -/
def reportNetworkCheckResult (s : NetworkCheckManager) (nodeRank : Int) (succeed : Bool)
    (elapsedTime : ℚ) : NetworkCheckManager :=
  { s with
    reportedNodes := s.reportedNodes.insert nodeRank
    nodeStatus := s.nodeStatus.insert nodeRank
      ((s.nodeStatus.get? nodeRank).getD succeed || succeed)
    nodeTimes := s.nodeTimes.insert nodeRank
      (round3 (min ((s.nodeTimes.get? nodeRank).getD elapsedTime) elapsedTime)) }

/-- `rdzv_manager.py:858-877`. -/
def detectStragglers (s : NetworkCheckManager) : List Int :=
  let times := s.nodeTimes.values.insertionSort (· ≤ ·)
  let i := times.length / 2
  let medTime := if times.length % 2 = 0 then (times.getD i 0 + times.getD (i - 1) 0) / 2
    else times.getD i 0
  (s.nodeTimes.items.filter fun e ↦ medTime * 2 < e.2).map Prod.fst

/-- The ranks whose status is a failure. -/
def failedRanks (s : NetworkCheckManager) : List Int :=
  (s.nodeStatus.items.filter fun e ↦ !e.2).map Prod.fst

/-- `rdzv_manager.py:806-839`; the list of a set, whose order Python leaves open. -/
def checkFaultNode (s : NetworkCheckManager) :
    Except RdzvError (List Int × FailureReason) × NetworkCheckManager :=
  if s.base.rdzvNodes.items = [] then (.ok ([], .noInit), s)
  else if s.reportedNodes.length < s.base.rdzvNodes.items.length then
    (.ok (s.faultNodes, .waitingNode), s)
  else if s.faultNodes = [] then
    let s := { s with faultNodes := s.failedRanks }
    if s.faultNodes.any fun rank ↦ rank ∉ s.base.rdzvNodes then (.error .keyError, s)
    else if s.faultNodes = [] then
      let s := if s.detectStragglers = [] then
          { s with base := { s.base with rdzvRound := (s.base.rdzvRound + 1) / 2 * 2 } }
        else s
      (.ok ([], .none), s)
    else (.ok (s.faultNodes, .nodeFailure), s)
  else (.ok (s.faultNodes, .nodeFailure), s)

/-- `rdzv_manager.py:841-856`. -/
def getStraggler (s : NetworkCheckManager) :
    (List Int × FailureReason) × NetworkCheckManager :=
  if s.reportedNodes.length < s.base.rdzvNodes.items.length then
    ((s.stragglerNodes, .waitingNode), s)
  else if s.stragglerNodes = [] then
    let s := { s with stragglerNodes := s.detectStragglers }
    ((s.stragglerNodes, .none), s)
  else ((s.stragglerNodes, .none), s)

end NetworkCheckManager

namespace NetworkCheckManager

/-- What the first part of a poll does. -/
theorem checkCompleted_cases (s : NetworkCheckManager) (env : Env) :
    (s.nodeGroups ≠ [] ∧ s.checkCompleted env = (.ok (), s)) ∨
    (s.nodeGroups = [] ∧
      (s.checkCompleted env).2 = { s with base := s.base.dropFailed env.failed }) ∨
    ∃ num, s.nodeGroups = [] ∧ s.base.rdzvBlocked = false ∧
      (s.base.dropFailed env.failed).completedNum env.now = .ok (some num) ∧
      s.checkCompleted env = (.ok (),
        startRound { s with base := (s.base.dropFailed env.failed).complete num }) := by
  by_cases none : s.nodeGroups = []
  · right
    rcases s.base.checkRdzvCompleted_cases env with eq | ⟨e, eq, -⟩ | ⟨num, free, completed, eq⟩
    · left
      rw [checkCompleted, if_pos none, eq]
      exact ⟨none, rfl⟩
    · left
      rw [checkCompleted, if_pos none, eq]
      exact ⟨none, rfl⟩
    · right
      rw [checkCompleted, if_pos none, eq]
      exact ⟨num, none, free, completed, rfl⟩
  · left
    exact ⟨none, if_neg none⟩

/-- The check of faults leaves the groups and nodes alone and may skip to the next even round. -/
theorem checkFaultNode_frame (s : NetworkCheckManager) :
    s.checkFaultNode.2.nodeGroups = s.nodeGroups ∧
      s.checkFaultNode.2.base.rdzvNodes = s.base.rdzvNodes ∧
      s.base.rdzvRound ≤ s.checkFaultNode.2.base.rdzvRound := by
  have next : s.base.rdzvRound ≤ (s.base.rdzvRound + 1) / 2 * 2 := by omega
  unfold checkFaultNode
  split
  · exact ⟨rfl, rfl, le_refl _⟩
  · split
    · exact ⟨rfl, rfl, le_refl _⟩
    · split
      · simp only
        split
        · exact ⟨rfl, rfl, le_refl _⟩
        · split
          · split
            · exact ⟨rfl, rfl, next⟩
            · exact ⟨rfl, rfl, le_refl _⟩
          · exact ⟨rfl, rfl, le_refl _⟩
      · exact ⟨rfl, rfl, le_refl _⟩

end NetworkCheckManager

/-! ### The nodes of the groups -/

/-- The ranks in all groups. -/
def groupedRanks (groups : List NodeMap) : List Int := groups.flatMap Dict.keys

theorem groupedRanks_eq (groups : List NodeMap) :
    groupedRanks groups = (groups.map Dict.keys).flatten :=
  List.flatMap_def

theorem length_items (group : NodeMap) : group.items.length = group.keys.length := by
  rw [Dict.keys, List.length_map]

theorem mergeLast_cons (group : NodeMap) {groups : List NodeMap} (some : groups ≠ [])
    (rest : NodeMap) : mergeLast (group :: groups) rest = group :: mergeLast groups rest := by
  cases groups using List.reverseRecOn with
  | nil => exact absurd rfl some
  | append_singleton groups last =>
    have concat : ∀ groups, mergeLast (groups ++ [last]) rest = groups ++ [last.update rest] := by
      intro groups
      simp only [mergeLast, List.getLast?_concat, List.dropLast_concat]
    rw [← List.cons_append, concat, concat, List.cons_append]

/-- The groups already closed stay in front. -/
theorem foldl_pairNode (items : List (Int × NodeTopologyMeta)) (groups : List NodeMap)
    (group : NodeMap) :
    items.foldl pairNode (groups, group) =
      (groups ++ (items.foldl pairNode ([], group)).1, (items.foldl pairNode ([], group)).2) := by
  induction items generalizing groups group with
  | nil => simp
  | cons e items ih =>
    rw [List.foldl_cons, List.foldl_cons]
    by_cases two : (group.insert e.1 e.2).items.length = 2
    · have step : ∀ groups, pairNode (groups, group) e =
          (groups ++ [group.insert e.1 e.2], .empty) := fun groups ↦ if_pos two
      rw [step, step, ih, List.nil_append, ih [_]]
      simp
    · have step : ∀ groups, pairNode (groups, group) e = (groups, group.insert e.1 e.2) :=
        fun groups ↦ if_neg two
      rw [step, step, ih]

/-- The first two nodes are a group. -/
theorem foldl_pairNode_cons_cons {a b : Int × NodeTopologyMeta} (ne : a.1 ≠ b.1)
    (rest : List (Int × NodeTopologyMeta)) :
    ∃ group : NodeMap, group.keys = [a.1, b.1] ∧
      (a :: b :: rest).foldl pairNode ([], .empty) =
        (group :: (rest.foldl pairNode ([], .empty)).1, (rest.foldl pairNode ([], .empty)).2) := by
  have first := Dict.keys_insert_of_not_mem a.2 (Dict.not_mem_empty a.1)
  have fresh : b.1 ∉ (Dict.empty : NodeMap).insert a.1 a.2 := by
    rw [Dict.mem_insert]
    rintro (eq | mem)
    · exact ne eq.symm
    · exact Dict.not_mem_empty _ mem
  have both := Dict.keys_insert_of_not_mem b.2 fresh
  rw [first] at both
  refine ⟨_, both, ?_⟩
  have one : pairNode ([], .empty) a = ([], (Dict.empty : NodeMap).insert a.1 a.2) := by
    rw [pairNode, length_items, first]
    rfl
  have two : pairNode ([], (Dict.empty : NodeMap).insert a.1 a.2) b =
      ([((Dict.empty : NodeMap).insert a.1 a.2).insert b.1 b.2], .empty) := by
    rw [pairNode, length_items, both]
    rfl
  rw [List.foldl_cons, List.foldl_cons, one, two, foldl_pairNode]
  rfl

theorem foldl_pairNode_singleton (a : Int × NodeTopologyMeta) :
    ∃ group : NodeMap, group.keys = [a.1] ∧ [a].foldl pairNode ([], .empty) = ([], group) := by
  have keys := Dict.keys_insert_of_not_mem a.2 (Dict.not_mem_empty a.1)
  refine ⟨_, keys, ?_⟩
  rw [List.foldl_cons, List.foldl_nil, pairNode, length_items, keys]
  rfl

/-- The groups with the node left over. -/
def closeGroups (acc : List NodeMap × NodeMap) : List NodeMap :=
  if acc.2.items.length = 1 then mergeLast acc.1 acc.2 else acc.1

theorem keys_closeGroups (items : List (Int × NodeTopologyMeta))
    (nodup : (items.map Prod.fst).Nodup) :
    (closeGroups (items.foldl pairNode ([], .empty))).map Dict.keys =
      Pairing.adjacent (items.map Prod.fst) := by
  match items, nodup with
  | [], _ => rfl
  | [a], _ =>
    rcases foldl_pairNode_singleton a with ⟨group, keys, eq⟩
    rw [eq, closeGroups, length_items, keys]
    simp [mergeLast, keys, Pairing.adjacent]
  | [a, b, c], nodup =>
    have distinct := nodup
    simp only [List.map_cons, List.nodup_cons, List.mem_cons, not_or] at distinct
    rcases foldl_pairNode_cons_cons distinct.1.1 [c] with ⟨group, keys, eq⟩
    rcases foldl_pairNode_singleton c with ⟨last, left, eq'⟩
    have all : (group.update last).keys = [a.1, b.1, c.1] := by
      rw [Dict.keys_update, keys, left]
      · rfl
      · rw [keys, left]
        exact nodup
    rw [eq, eq', closeGroups, length_items, left]
    simp [mergeLast, all, Pairing.adjacent]
  | [a, b], nodup =>
    have distinct := nodup
    simp only [List.map_cons, List.nodup_cons, List.mem_cons, not_or] at distinct
    rcases foldl_pairNode_cons_cons distinct.1.1 [] with ⟨group, keys, eq⟩
    rw [eq]
    simp [closeGroups, keys, Pairing.adjacent]
  | a :: b :: c :: d :: rest, nodup =>
    have distinct := nodup
    simp only [List.map_cons, List.nodup_cons, List.mem_cons, not_or] at distinct
    have ih := keys_closeGroups (c :: d :: rest) nodup.of_cons.of_cons
    rcases foldl_pairNode_cons_cons distinct.1.1 (c :: d :: rest) with ⟨group, keys, eq⟩
    rcases foldl_pairNode_cons_cons distinct.2.2.1.1 rest with ⟨next, -, eq'⟩
    have some : ((c :: d :: rest).foldl pairNode ([], .empty)).1 ≠ [] := by
      rw [eq']
      simp
    have cons : closeGroups ((a :: b :: c :: d :: rest).foldl pairNode ([], .empty)) =
        group :: closeGroups ((c :: d :: rest).foldl pairNode ([], .empty)) := by
      rw [eq, closeGroups, closeGroups, mergeLast_cons group some]
      split <;> rfl
    rw [cons, List.map_cons, keys, ih]
    rfl

/-- Neighbours by rank. -/
theorem keys_groupAdjacent (nodes : NodeMap) :
    (groupAdjacent nodes).map Dict.keys = Pairing.adjacent nodes.keys :=
  keys_closeGroups nodes.items nodes.nodup

theorem groupedRanks_groupAdjacent (nodes : NodeMap) :
    groupedRanks (groupAdjacent nodes) = nodes.keys := by
  rw [groupedRanks_eq, keys_groupAdjacent, Pairing.flatten_adjacent]

theorem endPairs_cons_append (a b : Int) (mid : List Int) :
    endPairs (a :: (mid ++ [b])) = [a, b] :: endPairs mid := by
  have half : ((a :: (mid ++ [b])).length + 1) / 2 = (mid.length + 1) / 2 + 1 := by
    rw [List.length_cons, List.length_append, List.length_singleton]
    omega
  rw [endPairs, half]
  exact Pairing.filterMap_mirrored_cons_append a b (by omega)

theorem endPairs_singleton (a : Int) : endPairs [a] = [[a, a]] := by
  simp [endPairs, List.range_succ]

theorem select_pair {nodes : NodeMap} {a b : Int} (ne : a ≠ b) (ha : a ∈ nodes) (hb : b ∈ nodes) :
    (nodes.select [a, b]).keys = [a, b] := by
  apply Dict.keys_select
  · simpa using ne
  · simp [ha, hb]

theorem select_twice {nodes : NodeMap} {a : Int} (ha : a ∈ nodes) :
    (nodes.select [a, a]).keys = [a] := by
  rcases Dict.mem_iff.mp ha with ⟨node, hnode⟩
  have found := Dict.get?_eq_some_iff.mpr hnode
  have select : nodes.select [a, a] = ((Dict.empty : NodeMap).insert a node).insert a node := by
    simp [Dict.select, found, Dict.ofItems]
  rw [select, Dict.keys_insert_of_mem _ (Dict.mem_insert.mpr (.inl rfl)),
    Dict.keys_insert_of_not_mem _ (Dict.not_mem_empty a)]
  rfl

/-- The outermost ranks of a list that has each once, and what is left between them. -/
theorem select_outer {nodes : NodeMap} {a b : Int} {mid : List Int}
    (nodup : (a :: (mid ++ [b])).Nodup) (known : ∀ r ∈ a :: (mid ++ [b]), r ∈ nodes) :
    (nodes.select [a, b]).keys = [a, b] ∧ mid.Nodup ∧ ∀ r ∈ mid, r ∈ nodes := by
  have perm : ([a, b] ++ mid).Perm (a :: (mid ++ [b])) :=
    (List.perm_append_singleton b mid).symm.cons a
  have parts := List.nodup_append.mp (perm.nodup_iff.mpr nodup)
  have known' : ∀ r ∈ [a, b] ++ mid, r ∈ nodes := fun r hr ↦ known r (perm.mem_iff.mp hr)
  have ne : a ≠ b := by simpa using parts.1
  exact ⟨select_pair ne (known' a (by simp)) (known' b (by simp)), parts.2.1,
    fun r hr ↦ known' r (List.mem_append_right _ hr)⟩

/-- The groups of ends with the node in the middle. -/
def closeEnds (groups : List NodeMap) : List NodeMap :=
  let full := groups.filter fun group ↦ group.items.length = 2
  match groups.getLast? with
  | some group => if group.items.length = 1 then mergeLast full group else full
  | none => full

/-- A pair in front of the others. -/
theorem closeEnds_cons {group next : NodeMap} {groups : List NodeMap}
    (two : group.keys.length = 2) (two' : next.keys.length = 2) :
    closeEnds (group :: next :: groups) = group :: closeEnds (next :: groups) := by
  have full : ∀ {g : NodeMap} (_ : g.keys.length = 2) gs,
      (g :: gs).filter (fun group ↦ decide (group.items.length = 2)) =
        g :: gs.filter fun group ↦ group.items.length = 2 := by
    intro g hg gs
    rw [List.filter_cons, if_pos (by simpa [length_items] using hg)]
  simp only [closeEnds, List.getLast?_cons_cons, full two, full two']
  rw [List.getLast?_cons]
  simp only
  split
  · exact mergeLast_cons group (List.cons_ne_nil _ _) _
  · rfl

theorem keys_closeEnds {nodes : NodeMap} {curNodes : List Int} (nodup : curNodes.Nodup)
    (known : ∀ r ∈ curNodes, r ∈ nodes) :
    (closeEnds ((endPairs curNodes).map nodes.select)).map Dict.keys = Pairing.ends curNodes := by
  induction curNodes using List.bidirectionalRec with
  | nil => simp [closeEnds, endPairs, Pairing.ends]
  | singleton a =>
    have keys := select_twice (known a (by simp))
    simp [closeEnds, endPairs_singleton, length_items, keys, mergeLast, Pairing.ends]
  | cons_append a mid b ih =>
    rcases select_outer nodup known with ⟨keys, inner, known'⟩
    have rest := ih inner known'
    rw [Pairing.ends_cons_append, endPairs_cons_append, List.map_cons]
    cases mid using List.bidirectionalRec with
    | nil => simp [closeEnds, endPairs, length_items, keys, Pairing.ends]
    | singleton c =>
      have single := select_twice (known' c (by simp))
      have all : ((nodes.select [a, b]).update (nodes.select [c, c])).keys = [a, b, c] := by
        rw [Dict.keys_update, keys, single]
        · rfl
        · rw [keys, single]
          exact ((List.perm_append_singleton b [c]).symm.cons a).nodup_iff.mpr nodup
      simp [closeEnds, endPairs_singleton, length_items, keys, single, mergeLast, all]
    | cons_append c mid d =>
      have keys' := (select_outer inner known').1
      rw [endPairs_cons_append, List.map_cons] at rest ⊢
      rw [closeEnds_cons (by rw [keys]; rfl) (by rw [keys']; rfl), List.map_cons, rest, keys,
        if_neg (by simp)]

/-- The ends of the list. -/
theorem keys_groupEnds {nodes : NodeMap} {curNodes : List Int} (nodup : curNodes.Nodup)
    (known : ∀ r ∈ curNodes, r ∈ nodes) :
    (groupEnds nodes curNodes).map Dict.keys = Pairing.ends curNodes :=
  keys_closeEnds nodup known

theorem groupedRanks_groupEnds {nodes : NodeMap} {curNodes : List Int} (nodup : curNodes.Nodup)
    (known : ∀ r ∈ curNodes, r ∈ nodes) :
    (groupedRanks (groupEnds nodes curNodes)).Perm curNodes := by
  rw [groupedRanks_eq, keys_groupEnds nodup known]
  exact Pairing.flatten_ends_perm curNodes

theorem sortByTime_nodup (nodes : NodeMap) (nodeTimes : Dict Int ℚ) :
    (sortByTime nodes nodeTimes).Nodup := by
  have perm := (List.perm_insertionSort (fun a b : Int × ℚ ↦ a.2 ≤ b.2) nodeTimes.items).map
    Prod.fst
  exact (perm.nodup_iff.mpr nodeTimes.nodup).filter _

/-- The order of nodes whose times are given by a key. -/
theorem sortByTime_eq {nodes : NodeMap} {nodeTimes : Dict Int ℚ} {ranks : List Int} {key : Int → ℚ}
    (times : nodeTimes.items = ranks.map fun r ↦ (r, key r)) (known : ∀ r ∈ ranks, r ∈ nodes) :
    sortByTime nodes nodeTimes = ranks.insertionSort fun x y ↦ key x ≤ key y := by
  have pairs := List.map_insertionSort (fun x y : Int ↦ key x ≤ key y)
    (fun x y : Int × ℚ ↦ x.2 ≤ y.2) (fun r ↦ (r, key r)) ranks fun _ _ _ _ ↦ Iff.rfl
  have first : (ranks.insertionSort fun x y ↦ key x ≤ key y).map (Prod.fst ∘ fun r ↦ (r, key r)) =
      ranks.insertionSort fun x y ↦ key x ≤ key y := List.map_id _
  rw [sortByTime, times, ← pairs, List.map_map, first, List.filter_eq_self]
  intro r hr
  exact decide_eq_true (known r ((List.mem_insertionSort _).mp hr))

theorem NetworkCheckManager.failedRanks_eq {s : NetworkCheckManager} {ranks : List Int}
    {passed : Int → Bool} (status : s.nodeStatus.items = ranks.map fun r ↦ (r, passed r)) :
    s.failedRanks = ranks.filter fun r ↦ !passed r := by
  have first : ∀ l : List Int, l.map (Prod.fst ∘ fun r ↦ (r, passed r)) = l := fun l ↦ List.map_id _
  rw [failedRanks, status, List.filter_map, List.map_map, first]
  rfl

/-- No rank is in two groups. -/
theorem groupNodes_nodup (nodes : NodeMap) (nodeTimes : Dict Int ℚ) (round : Nat) :
    (groupedRanks (groupNodes nodes nodeTimes round)).Nodup := by
  unfold groupNodes
  split
  · rw [groupedRanks_groupAdjacent]
    exact nodes.keys_nodup
  · have known : ∀ r ∈ sortByTime nodes nodeTimes, r ∈ nodes := by
      intro r hr
      simpa using (List.mem_filter.mp hr).2
    exact (groupedRanks_groupEnds (sortByTime_nodup nodes nodeTimes) known).nodup_iff.mpr
      (sortByTime_nodup nodes nodeTimes)

end ProbingBaselines.Dlrover
