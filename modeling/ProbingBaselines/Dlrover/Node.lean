import Mathlib.Tactic.TypeStar

/-!
# Nodes and the status flow

The records the job manager keeps of its nodes (`common/node.py`), the events that change them, and
the table that says which change of status an event makes (`status_flow.py:18-164`).
-/

namespace ProbingBaselines.Dlrover.JobManager

/-- `NodeStatus`. A pod has the phases `Pending`, `Running`, `Succeeded`, `Failed` and `Unknown`. -/
inductive NodeStatus where
  | initial | pending | running | succeeded | failed | deleted | finished | unknown
deriving DecidableEq

def NodeStatus.all : List NodeStatus :=
  [.initial, .pending, .running, .succeeded, .failed, .deleted, .finished, .unknown]

theorem NodeStatus.mem_all (status : NodeStatus) : status ∈ all := by
  cases status <;> decide

/-- `NodeType`, without the master itself. -/
inductive NodeType where
  | worker | ps | evaluator | chief | master
deriving DecidableEq

/-- The type of an event: that of a watched pod, or `"exit"`. -/
inductive NodeEventType where
  | added | modified | deleted | exit | other
deriving DecidableEq

def NodeEventType.all : List NodeEventType := [.added, .modified, .deleted, .exit, .other]

theorem NodeEventType.mem_all (eventType : NodeEventType) : eventType ∈ all := by
  cases eventType <;> decide

/-- `NodeExitReason`, a text. The reasons no decision looks at, and what a node reports of itself,
are `other`. -/
inductive NodeExitReason where
  | killed | oom | fatalError | noHeartbeat | diagFail | relaunched
  | other (text : String)
deriving DecidableEq

/-- `Node` (`node.py:164-231`). -/
structure Node where
  type : NodeType
  id : Nat
  rankIndex : Nat
  status : NodeStatus := .initial
  relaunchCount : Nat := 0
  critical : Bool := false
  maxRelaunchCount : Nat
  relaunchable : Bool := true
  isReleased : Bool := false
  exitReason : NodeExitReason := .other ""
  memory : Nat := 0
  isRecoveredOom : Bool := false
  migrated : Bool := false
  group : Option Int := none
  groupSize : Option Int := none
deriving DecidableEq

structure NodeEvent where
  eventType : NodeEventType
  node : Node

namespace Node

/-- Where the job context keeps the node. -/
def key (n : Node) : NodeType × Nat := (n.type, n.id)

def exited (n : Node) : Prop := n.status ∈ [NodeStatus.failed, .succeeded, .finished]

instance (n : Node) : Decidable n.exited := inferInstanceAs (Decidable (_ ∈ _))

/-- `ALIVE_STATUS` (`training_node.py:41`). -/
def alive (n : Node) : Prop := n.status ∈ [NodeStatus.initial, .pending, .running]

instance (n : Node) : Decidable n.alive := inferInstanceAs (Decidable (_ ∈ _))

def hasGroup (n : Node) : Prop := n.group.isSome ∧ n.groupSize.isSome

instance (n : Node) : Decidable n.hasGroup := inferInstanceAs (Decidable (_ ∧ _))

/-- `update_info` with what the node of an event says (`node.py:248-270`). -/
def updateInfo (n event : Node) : Node :=
  { n with
    relaunchCount := max n.relaunchCount event.relaunchCount
    isReleased := event.isReleased }

/-- `generate_relaunch_node` (`node.py:287-311`): what is not reset is inherited. -/
def generateRelaunchNode (n : Node) (newId : Nat) : Node :=
  { n with
    id := newId
    status := .initial
    isReleased := false
    relaunchable := true }

@[simp] theorem key_updateInfo (n event : Node) : (n.updateInfo event).key = n.key := rfl

@[simp] theorem status_updateInfo (n event : Node) : (n.updateInfo event).status = n.status := rfl

end Node

/-! ### The status flow -/

/-- `NodeStateFlow`. A flow without a phase takes every phase. -/
structure NodeStateFlow where
  fromStatus : NodeStatus
  toStatus : NodeStatus
  eventType : List NodeEventType
  phase : Option NodeStatus
  shouldRelaunch : Bool
deriving DecidableEq

/-- `NODE_STATE_FLOWS`. -/
def nodeStateFlows : List NodeStateFlow :=
  [⟨.initial, .pending, [.added, .modified], some .pending, false⟩,
   ⟨.initial, .running, [.added, .modified], some .running, false⟩,
   ⟨.initial, .failed, [.added, .modified], some .failed, true⟩,
   ⟨.initial, .deleted, [.deleted], none, true⟩,
   ⟨.pending, .running, [.added, .modified], some .running, false⟩,
   ⟨.pending, .succeeded, [.added, .modified], some .succeeded, false⟩,
   ⟨.pending, .failed, [.added, .modified], some .failed, true⟩,
   ⟨.running, .succeeded, [.added, .modified], some .succeeded, false⟩,
   ⟨.running, .failed, [.added, .modified], some .failed, true⟩,
   ⟨.pending, .deleted, [.modified, .deleted], none, true⟩,
   ⟨.running, .deleted, [.modified, .deleted], none, true⟩,
   ⟨.succeeded, .deleted, [.modified, .deleted], none, false⟩,
   ⟨.failed, .deleted, [.modified, .deleted], none, false⟩]

/-- `ALLOWED_TRANSITIONS`. Two statuses are not among its keys. -/
def allowedTransitions : NodeStatus → Option (List NodeStatus)
  | .initial => some [.initial, .pending, .running, .succeeded, .failed, .deleted]
  | .pending => some [.pending, .running, .succeeded, .failed, .deleted]
  | .running => some [.running, .succeeded, .failed, .deleted]
  | .succeeded => some [.succeeded, .deleted]
  | .failed => some [.failed, .deleted]
  | .deleted => some [.deleted]
  | .finished => none
  | .unknown => none

/-- The phase `get_node_state_flow` looks for. -/
def adjustedPhase (fromStatus : NodeStatus) (eventType : NodeEventType) (phase : NodeStatus) :
    NodeStatus :=
  if eventType = .deleted ∧ fromStatus = .pending then .deleted else phase

/-- `get_node_state_flow` (`status_flow.py:150-164`). `none` is the `KeyError` of a status that is
not a key of `ALLOWED_TRANSITIONS`. -/
def getNodeStateFlow (fromStatus : NodeStatus) (eventType : NodeEventType) (phase : NodeStatus) :
    Option (Option NodeStateFlow) :=
  let phase := adjustedPhase fromStatus eventType phase
  if fromStatus = phase then some none
  else
    match allowedTransitions fromStatus with
    | none => none
    | some allowed =>
      if phase ∉ allowed then some none
      else some (nodeStateFlows.find? fun flow ↦
        flow.fromStatus = fromStatus ∧ eventType ∈ flow.eventType ∧
          (flow.phase = none ∨ flow.phase = some phase))

/-- A change of status that `ALLOWED_TRANSITIONS` has. -/
def Allowed (fromStatus toStatus : NodeStatus) : Prop :=
  toStatus ∈ (allowedTransitions fromStatus).getD []

instance (fromStatus toStatus : NodeStatus) : Decidable (Allowed fromStatus toStatus) :=
  inferInstanceAs (Decidable (_ ∈ _))

/-- What a flow that is found says. -/
theorem getNodeStateFlow_some {fromStatus phase : NodeStatus} {eventType : NodeEventType}
    {flow : NodeStateFlow}
    (found : getNodeStateFlow fromStatus eventType phase = some (some flow)) :
    flow ∈ nodeStateFlows ∧ flow.fromStatus = fromStatus ∧ eventType ∈ flow.eventType ∧
      (flow.phase = none ∨ flow.phase = some (adjustedPhase fromStatus eventType phase)) ∧
      adjustedPhase fromStatus eventType phase ≠ fromStatus ∧
      Allowed fromStatus (adjustedPhase fromStatus eventType phase) := by
  unfold getNodeStateFlow at found
  simp only at found
  split at found
  · cases found
  · next ne =>
    split at found
    · cases found
    · next allowed key =>
      split at found
      · cases found
      · next mem =>
        have found := Option.some.inj found
        have meets := List.find?_some found
        rw [decide_eq_true_eq] at meets
        refine ⟨List.mem_of_find?_eq_some found, meets.1, meets.2.1, meets.2.2, Ne.symm ne, ?_⟩
        unfold Allowed
        rw [key]
        exact Decidable.not_not.mp mem

/-- Only an event of type `DELETED` with another phase leads to a status other than its phase. -/
theorem getNodeStateFlow_toStatus {fromStatus phase : NodeStatus} {eventType : NodeEventType}
    {flow : NodeStateFlow} (found : getNodeStateFlow fromStatus eventType phase = some (some flow))
    (h : eventType ≠ .deleted ∨ phase = .deleted) : phase = flow.toStatus := by
  have table : ∀ fromStatus ∈ NodeStatus.all, ∀ eventType ∈ NodeEventType.all,
      ∀ phase ∈ NodeStatus.all, eventType ≠ .deleted ∨ phase = .deleted →
        ((getNodeStateFlow fromStatus eventType phase).join.map NodeStateFlow.toStatus).getD phase =
          phase := by
    decide +kernel
  have value := table fromStatus (NodeStatus.mem_all _) eventType (NodeEventType.mem_all _) phase
    (NodeStatus.mem_all _) h
  rw [found] at value
  exact value.symm

/-- A flow goes along `ALLOWED_TRANSITIONS`, and one that takes every phase ends in `DELETED`. -/
theorem nodeStateFlows_sound : ∀ flow ∈ nodeStateFlows,
    Allowed flow.fromStatus flow.toStatus ∧
      flow.phase.getD .deleted = flow.toStatus ∧
      (flow.shouldRelaunch → flow.toStatus = .failed ∨ flow.toStatus = .deleted) := by decide

theorem Allowed.trans {a b c : NodeStatus} (hab : Allowed a b) (hbc : Allowed b c) :
    Allowed a c := by
  have table : ∀ b ∈ (allowedTransitions a).getD [], ∀ c ∈ (allowedTransitions b).getD [],
      c ∈ (allowedTransitions a).getD [] := by
    cases a <;> decide
  exact table b hab c hbc

/-- A node that ended does not come back. -/
theorem Allowed.ended {a b : NodeStatus} (h : Allowed a b)
    (ended : a ∈ [NodeStatus.succeeded, .failed, .deleted]) :
    b ∈ [NodeStatus.succeeded, .failed, .deleted] := by
  have table : ∀ a ∈ [NodeStatus.succeeded, .failed, .deleted],
      ∀ b ∈ (allowedTransitions a).getD [], b ∈ [NodeStatus.succeeded, .failed, .deleted] := by
    decide
  exact table a ended b h

end ProbingBaselines.Dlrover.JobManager
