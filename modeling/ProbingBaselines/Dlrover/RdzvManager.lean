import Mathlib.Algebra.Order.Ring.Rat
import Mathlib.Data.List.Sort
import ProbingBaselines.Lib.Dict

/-!
# The rendezvous manager of the job master

The state that all rendezvous managers share, and the operations on it
(`master/elastic_training/rdzv_manager.py:69-454`). Every operation holds the manager's lock, so
it is one function of the state. A node map that has been handed out is never changed in place:
a join replaces `_rdzv_nodes` and a completion builds a new one.
-/

namespace ProbingBaselines.Dlrover

open Lib

/-- `net_topology.py:22-32`. -/
structure NodeTopologyMeta where
  nodeId : Int
  nodeRank : Int
  processNum : Nat
  nodeIp : String
  asw : String
  psw : String
  nodeGroup : Int
  nodeGroupSize : Int
  nodeGroupId : String
  deriving DecidableEq

/-- Nodes by rank. -/
abbrev NodeMap := Dict Int NodeTopologyMeta

/-- `rdzv_manager.py:45-66`. -/
structure RendezvousParameters where
  minNodes : Int
  maxNodes : Int
  waitingTimeout : ℚ

/-- What the operations raise. -/
inductive RdzvError where
  | zeroDivision
  | stopIteration
  | keyError
  deriving DecidableEq

/-- What a call reads outside of the manager: the clock, the switches of an address, the node
group of a node id and the node ids whose node has failed and exited. -/
structure Env where
  now : ℚ
  query : String → String × String
  nodeGroup : Int → Int × Int × String
  failed : Int → Bool

structure JoinRendezvousRequest where
  nodeId : Int
  nodeRank : Int
  localWorldSize : Nat
  nodeIp : String

/-- The node that a request adds; `rdzv_manager.py:350-364`. -/
def JoinRendezvousRequest.nodeMeta (req : JoinRendezvousRequest) (env : Env) :
    NodeTopologyMeta where
  nodeId := req.nodeId
  nodeRank := req.nodeRank
  processNum := req.localWorldSize
  nodeIp := req.nodeIp
  asw := (env.query req.nodeIp).1
  psw := (env.query req.nodeIp).2
  nodeGroup := (env.nodeGroup req.nodeId).1
  nodeGroupSize := (env.nodeGroup req.nodeId).2.1
  nodeGroupId := (env.nodeGroup req.nodeId).2.2

structure RdzvManager where
  waitingNodes : NodeMap
  rdzvNodes : NodeMap
  lastcallTime : ℚ
  rdzvParams : RendezvousParameters
  rdzvRound : Nat
  nodeUnit : Int
  latestRdzvNodes : List Int
  saveCkptNodes : Dict Int Int
  rdzvBlocked : Bool

namespace RdzvManager

def init : RdzvManager where
  waitingNodes := .empty
  rdzvNodes := .empty
  lastcallTime := 0
  rdzvParams := ⟨0, 0, 30⟩
  rdzvRound := 0
  nodeUnit := 1
  latestRdzvNodes := []
  saveCkptNodes := .empty
  rdzvBlocked := false

def setRdzvBlocked (s : RdzvManager) (blocked : Bool) : RdzvManager :=
  { s with rdzvBlocked := blocked }

def clearWaitingNodes (s : RdzvManager) : RdzvManager := { s with waitingNodes := .empty }

/-- The first waiting rank with this node id leaves; `rdzv_manager.py:139-157`. -/
def removeAliveNode (s : RdzvManager) (nodeId : Int) : RdzvManager :=
  match s.waitingNodes.items.find? fun e ↦ e.2.nodeId = nodeId with
  | some e => if 0 ≤ e.1 then { s with waitingNodes := s.waitingNodes.erase e.1 } else s
  | none => s

/-- `rdzv_manager.py:159-181`. -/
def updateRdzvParams (s : RdzvManager) (minNodes maxNodes : Int) (waitingTimeout : ℚ)
    (nodeUnit : Int) : RdzvManager :=
  if s.rdzvParams.maxNodes = 0 then
    { s with rdzvParams := ⟨minNodes, maxNodes, waitingTimeout⟩, nodeUnit := nodeUnit }
  else s

/-- `rdzv_manager.py:340-388`; the answer is the round, which a join keeps. -/
def joinRendezvous (s : RdzvManager) (req : JoinRendezvousRequest) (env : Env) : RdzvManager :=
  if req.nodeRank ∈ s.waitingNodes then s
  else
    { s with
      waitingNodes := s.waitingNodes.insert req.nodeRank (req.nodeMeta env)
      rdzvNodes := .empty
      lastcallTime := env.now }

/-- `rdzv_manager.py:406-427`. -/
def numNodesWaiting (s : RdzvManager) : Nat :=
  let hasNodeRestart := s.waitingNodes.keys.any fun nodeRank ↦ nodeRank ∈ s.latestRdzvNodes
  if hasNodeRestart || decide (s.nodeUnit ≤ s.waitingNodes.items.length) then
    s.waitingNodes.items.length
  else 0

/-- `rdzv_manager.py:429-436`. -/
def syncCkptNodes (s : RdzvManager) (nodeId step : Int) : Bool × RdzvManager :=
  let s := { s with saveCkptNodes := s.saveCkptNodes.insert nodeId step }
  let answer := decide (s.saveCkptNodes.values.dedup.length ≤ 1) &&
    decide (s.saveCkptNodes.items.length = s.latestRdzvNodes.length)
  (answer, s)

/-- `rdzv_manager.py:183-193`. -/
def dropFailed (s : RdzvManager) (failed : Int → Bool) : RdzvManager :=
  (s.waitingNodes.values.map NodeTopologyMeta.nodeId).foldl
    (fun s nodeId ↦ if failed nodeId then s.removeAliveNode nodeId else s) s

/-- The number of nodes to take, if the rendezvous is complete; `rdzv_manager.py:204-217`. -/
def completedNum (s : RdzvManager) (now : ℚ) : Except RdzvError (Option Int) :=
  let waitingNum : Int := s.waitingNodes.items.length
  if waitingNum = s.rdzvParams.maxNodes then .ok (some waitingNum)
  else if s.rdzvParams.minNodes ≤ waitingNum ∧
      s.rdzvParams.waitingTimeout ≤ now - s.lastcallTime then
    if s.nodeUnit = 0 then .error .zeroDivision
    else .ok (some (waitingNum.fdiv s.nodeUnit * s.nodeUnit))
  else .ok none

/-- The nodes with the smallest ranks leave the waiting map; `rdzv_manager.py:219-230`. The
number is never negative: rounding with a negative unit goes up. -/
def complete (s : RdzvManager) (num : Int) : RdzvManager :=
  let nodeIds := (s.waitingNodes.keys.insertionSort (· ≤ ·)).take num.toNat
  let rdzvNodes := s.waitingNodes.select nodeIds
  { s with
    rdzvNodes := rdzvNodes
    latestRdzvNodes := rdzvNodes.keys
    waitingNodes := s.waitingNodes.filter fun i ↦ i ∉ rdzvNodes
    lastcallTime := 0 }

/-- `rdzv_manager.py:183-251`. -/
def checkRdzvCompleted (s : RdzvManager) (env : Env) : Except RdzvError Bool × RdzvManager :=
  let s := s.dropFailed env.failed
  if s.rdzvBlocked then (.ok false, s)
  else
    match s.completedNum env.now with
    | .error e => (.error e, s)
    | .ok none => (.ok false, s)
    | .ok (some num) => (.ok true, s.complete num)

/-! ### Removals -/

/-- Between `s` and `t` only waiting nodes were lost, all of them with a `gone` node id. -/
structure Drops (gone : Int → Prop) (s t : RdzvManager) : Prop where
  frame : t = { s with waitingNodes := t.waitingNodes }
  sublist : t.waitingNodes.items.Sublist s.waitingNodes.items
  removed : ∀ e ∈ s.waitingNodes.items, e.1 ∉ t.waitingNodes → gone e.2.nodeId

theorem Drops.refl (gone : Int → Prop) (s : RdzvManager) : Drops gone s s :=
  ⟨rfl, .refl _, fun _ he lost ↦ absurd (Dict.mem_of_mem_items he) lost⟩

theorem Drops.trans {gone : Int → Prop} {s t u : RdzvManager} (h : Drops gone s t)
    (h' : Drops gone t u) : Drops gone s u where
  frame := by
    rw [h'.frame, h.frame]
  sublist := h'.sublist.trans h.sublist
  removed := by
    intro e he lost
    by_cases kept : e.1 ∈ t.waitingNodes
    · rcases Dict.mem_iff.mp kept with ⟨v, hv⟩
      have same := Dict.value_unique (h.sublist.mem hv) he
      rw [← same]
      exact h'.removed _ hv lost
    · exact h.removed e he kept

theorem Drops.mem_items {gone : Int → Prop} {s t : RdzvManager} (h : Drops gone s t)
    {e : Int × NodeTopologyMeta} (he : e ∈ t.waitingNodes.items) : e ∈ s.waitingNodes.items :=
  h.sublist.mem he

theorem Drops.mem {gone : Int → Prop} {s t : RdzvManager} (h : Drops gone s t) {r : Int}
    (hr : r ∈ t.waitingNodes) : r ∈ s.waitingNodes := by
  rcases Dict.mem_iff.mp hr with ⟨v, hv⟩
  exact Dict.mem_iff.mpr ⟨v, h.mem_items hv⟩

/-- What a removal leaves alone. -/
theorem Drops.same {gone : Int → Prop} {s t : RdzvManager} (h : Drops gone s t) :
    t.rdzvNodes = s.rdzvNodes ∧ t.rdzvRound = s.rdzvRound ∧ t.rdzvBlocked = s.rdzvBlocked ∧
      t.rdzvParams = s.rdzvParams ∧ t.nodeUnit = s.nodeUnit ∧ t.lastcallTime = s.lastcallTime := by
  rw [h.frame]
  exact ⟨rfl, rfl, rfl, rfl, rfl, rfl⟩

theorem removeAliveNode_drops (s : RdzvManager) (nodeId : Int) :
    Drops (· = nodeId) s (s.removeAliveNode nodeId) := by
  unfold removeAliveNode
  split
  · next e found =>
    split
    · refine ⟨rfl, List.filter_sublist, ?_⟩
      intro e' he' lost
      have same : e'.1 = e.1 := by
        by_contra ne
        exact lost (Dict.mem_erase.mpr ⟨Dict.mem_of_mem_items he', ne⟩)
      have eq : e' = e := List.inj_on_of_nodup_map s.waitingNodes.nodup he'
        (List.mem_of_find?_eq_some found) same
      rw [eq]
      simpa using List.find?_some found
    · exact .refl _ s
  · exact .refl _ s

theorem dropFailed_drops (s : RdzvManager) (failed : Int → Bool) :
    Drops (failed · = true) s (s.dropFailed failed) := by
  have fold : ∀ (ids : List Int) (t : RdzvManager), Drops (failed · = true) s t →
      Drops (failed · = true) s
        (ids.foldl (fun s nodeId ↦ if failed nodeId then s.removeAliveNode nodeId else s) t) := by
    intro ids
    induction ids with
    | nil => exact fun t ht ↦ ht
    | cons id ids ih =>
      intro t ht
      apply ih
      dsimp only
      by_cases hid : failed id = true
      · rw [if_pos hid]
        have drops := removeAliveNode_drops t id
        refine ht.trans ⟨drops.frame, drops.sublist, ?_⟩
        intro e he lost
        rw [drops.removed e he lost]
        exact hid
      · rw [if_neg hid]
        exact ht
  exact fold _ s (.refl _ s)

/-! ### Completion -/

/-- The ranks taken by a completion. -/
def chosen (s : RdzvManager) (num : Int) : List Int :=
  (s.waitingNodes.keys.insertionSort (· ≤ ·)).take num.toNat

theorem chosen_nodup (s : RdzvManager) (num : Int) : (s.chosen num).Nodup := by
  have sorted : (s.waitingNodes.keys.insertionSort (· ≤ ·)).Nodup :=
    (List.perm_insertionSort _ _).nodup_iff.mpr s.waitingNodes.keys_nodup
  exact sorted.sublist (List.take_sublist _ _)

theorem mem_of_mem_chosen {s : RdzvManager} {num : Int} {r : Int} (h : r ∈ s.chosen num) :
    r ∈ s.waitingNodes :=
  (List.mem_insertionSort _).mp (List.mem_of_mem_take h)

/-- Nobody left waiting has a smaller rank than a chosen node. -/
theorem chosen_smallest {s : RdzvManager} {num : Int} {r q : Int} (hr : r ∈ s.chosen num)
    (hq : q ∈ s.waitingNodes) (left : q ∉ s.chosen num) : r < q := by
  have le : r ≤ q := by
    have sorted := List.pairwise_insertionSort (· ≤ ·) s.waitingNodes.keys
    rw [← List.take_append_drop num.toNat (s.waitingNodes.keys.insertionSort (· ≤ ·)),
      List.pairwise_append] at sorted
    apply sorted.2.2 r hr q
    have mem : q ∈ s.waitingNodes.keys.insertionSort (· ≤ ·) := (List.mem_insertionSort _).mpr hq
    rw [← List.take_append_drop num.toNat (s.waitingNodes.keys.insertionSort (· ≤ ·)),
      List.mem_append] at mem
    exact mem.resolve_left left
  have ne : r ≠ q := by
    rintro rfl
    exact left hr
  omega

theorem complete_keys (s : RdzvManager) (num : Int) :
    (s.complete num).rdzvNodes.keys = s.chosen num :=
  Dict.keys_select (s.chosen_nodup num) fun _ hr ↦ mem_of_mem_chosen hr

theorem mem_complete_rdzvNodes {s : RdzvManager} {num : Int} {r : Int} :
    r ∈ (s.complete num).rdzvNodes ↔ r ∈ s.chosen num := by
  rw [Dict.mem_def, complete_keys]

/-- A chosen node keeps its data. -/
theorem mem_waiting_of_mem_complete {s : RdzvManager} {num : Int} {e : Int × NodeTopologyMeta}
    (h : e ∈ (s.complete num).rdzvNodes.items) : e ∈ s.waitingNodes.items :=
  Dict.mem_items_of_mem_select h

theorem complete_waiting_items (s : RdzvManager) (num : Int) :
    (s.complete num).waitingNodes.items =
      s.waitingNodes.items.filter fun e ↦ e.1 ∉ s.chosen num := by
  apply List.filter_congr
  intro e _
  exact decide_eq_decide.mpr (not_congr mem_complete_rdzvNodes)

theorem mem_complete_waiting {s : RdzvManager} {num : Int} {r : Int} :
    r ∈ (s.complete num).waitingNodes ↔ r ∈ s.waitingNodes ∧ r ∉ s.chosen num := by
  rw [complete, Dict.mem_filter, decide_eq_true_iff]
  exact and_congr_right fun _ ↦ not_congr mem_complete_rdzvNodes

/-- What a check of the completion does. -/
theorem checkRdzvCompleted_cases (s : RdzvManager) (env : Env) :
    (s.checkRdzvCompleted env = (.ok false, s.dropFailed env.failed)) ∨
    (∃ e, s.checkRdzvCompleted env = (.error e, s.dropFailed env.failed) ∧
      (s.dropFailed env.failed).completedNum env.now = .error e) ∨
    ∃ num, s.rdzvBlocked = false ∧
      (s.dropFailed env.failed).completedNum env.now = .ok (some num) ∧
      s.checkRdzvCompleted env = (.ok true, (s.dropFailed env.failed).complete num) := by
  have blocked := (s.dropFailed_drops env.failed).same.2.2.1
  simp only [checkRdzvCompleted, blocked]
  cases s.rdzvBlocked with
  | true => simp
  | false =>
    cases h : (s.dropFailed env.failed).completedNum env.now with
    | error e => simp
    | ok num => cases num <;> simp

end RdzvManager

end ProbingBaselines.Dlrover
