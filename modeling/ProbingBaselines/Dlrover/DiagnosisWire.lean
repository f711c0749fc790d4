import Mathlib.Data.Rat.Floor
import ProbingBaselines.Dlrover.DiagnosisActionQueue
import ProbingBaselines.Dlrover.ShardCheckpoint

/-!
# Diagnosis actions on the wire

`DiagnosisAction.to_json` writes the attributes of an action, `from_json` calls the constructor of
the class with them (`diagnosis/common/diagnosis_action.py:44-313`). The constructors of the job
actions take neither a timestamp nor an expiry from what they are given.
-/

namespace ProbingBaselines.Dlrover

open Lib

/-- `DiagnosisConstant.MASTER_INSTANCE`. -/
def masterInstance : Int := -1

/-- `DiagnosisConstant.ACTION_EXPIRED_TIME_PERIOD_DEFAULT`. -/
def actionExpiredTimePeriodDefault : Int := 60 * 5

/-- The attributes that `DiagnosisAction.__init__` sets. -/
structure ActionBase where
  actionType : String
  instanceId : Int
  timestamp : Int
  expiredTimePeriod : Int
  executableTimePeriod : Int

namespace ActionBase

/-- `DiagnosisAction.__init__` (`diagnosis_action.py:44-67`), which may read the clock. -/
def init (now : Int) (actionType : String)
    (instanceId timestamp expiredTimePeriod executableTimePeriod : Int) : ActionBase where
  actionType := actionType
  instanceId := instanceId
  timestamp := if timestamp = 0 then now else timestamp
  expiredTimePeriod :=
    if expiredTimePeriod = 0 then actionExpiredTimePeriodDefault else expiredTimePeriod
  executableTimePeriod := executableTimePeriod

/-- `is_expired`. -/
def isExpired (a : ActionBase) (now : Int) : Bool := hasExpired a.timestamp a.expiredTimePeriod now

/-- `is_executable`. -/
def isExecutable (a : ActionBase) (now : Int) : Bool :=
  hasExpired a.timestamp a.executableTimePeriod now

/-- `update_timestamp` (`diagnosis_action.py:99-110`); a positive executable period is tested, but
it is the expiry that is set. -/
def updateTimestamp (a : ActionBase) (timestamp : ℚ)
    (expiredTimePeriod executableTimePeriod : Int) : ActionBase :=
  let a := if 0 < timestamp then { a with timestamp := ⌊timestamp⌋ } else a
  let a := if 0 < expiredTimePeriod then { a with expiredTimePeriod := expiredTimePeriod } else a
  if 0 < executableTimePeriod then { a with expiredTimePeriod := expiredTimePeriod } else a

/-- An update sets the timestamp and the expiry, and nothing else. -/
theorem updateTimestamp_eq (a : ActionBase) (timestamp : ℚ)
    (expiredTimePeriod executableTimePeriod : Int) :
    ∃ t e, a.updateTimestamp timestamp expiredTimePeriod executableTimePeriod =
      { a with timestamp := t, expiredTimePeriod := e } := by
  unfold updateTimestamp
  split_ifs <;> exact ⟨_, _, rfl⟩

end ActionBase

/-- The classes of actions that travel between the master and the agents. -/
inductive ActionClass where
  | event
  | node
  | job
  | jobAbortion
  | jobRestart

/-- The attributes of an `EventAction`. -/
structure EventDetails where
  eventType : String
  eventInstance : String
  eventAction : String
  eventMsg : String
  eventLabels : Option (Dict String String)

/-- The attributes of a `NodeAction`. -/
structure NodeDetails where
  nodeId : Int
  nodeType : String
  nodeStatus : String
  reason : String

/-- The attributes of a `JobAction`. -/
structure JobDetails where
  reason : String
  msg : String

namespace ActionClass

/-- The attributes that a class adds to those of `DiagnosisAction`. -/
def Details : ActionClass → Type
  | event => EventDetails
  | node => NodeDetails
  | job | jobAbortion | jobRestart => JobDetails

/-- What the constructor of a class fixes and no method changes. -/
def Fixes : ActionClass → ActionBase → Prop
  | event, a => a.actionType = "event"
  | node, a => a.executableTimePeriod = 0
  | job, a => a.instanceId = masterInstance ∧ a.executableTimePeriod = 0
  | jobAbortion, a => a.actionType = "job_abortion" ∧ a.instanceId = masterInstance ∧
      a.executableTimePeriod = 0
  | jobRestart, a => a.actionType = "job_restart" ∧ a.instanceId = masterInstance ∧
      a.executableTimePeriod = 0

end ActionClass

/-- An object of a class. -/
@[ext]
structure ClassAction (c : ActionClass) where
  base : ActionBase
  details : c.Details
  fixed : c.Fixes base

/-- `EventAction.__init__` (`diagnosis_action.py:139-163`). -/
def eventAction (now : Int) (details : EventDetails)
    (timestamp expiredTimePeriod executableTimePeriod instanceId : Int) : ClassAction .event :=
  ⟨.init now "event" instanceId timestamp expiredTimePeriod executableTimePeriod, details, rfl⟩

/-- `NodeAction.__init__` (`diagnosis_action.py:200-221`). -/
def nodeAction (now : Int) (details : NodeDetails) (instanceId : Int) (actionType : String)
    (timestamp expiredTimePeriod : Int) : ClassAction .node :=
  ⟨.init now actionType instanceId timestamp expiredTimePeriod 0, details, rfl⟩

/-- `JobAction.__init__` (`diagnosis_action.py:253-267`). -/
def jobAction (now : Int) (actionType : String) (details : JobDetails) : ClassAction .job :=
  ⟨.init now actionType masterInstance 0 0 0, details, rfl, rfl⟩

/-- `JobAbortionAction.__init__` (`diagnosis_action.py:289-299`). -/
def jobAbortionAction (now : Int) (details : JobDetails) : ClassAction .jobAbortion :=
  ⟨.init now "job_abortion" masterInstance 0 0 0, details, rfl, rfl, rfl⟩

/-- `JobRestartAction.__init__` (`diagnosis_action.py:303-313`). -/
def jobRestartAction (now : Int) (details : JobDetails) : ClassAction .jobRestart :=
  ⟨.init now "job_restart" masterInstance 0 0 0, details, rfl, rfl, rfl⟩

namespace Json

/-- A keyword argument with its default. -/
def intArg (v : Json) (name : String) (default : Int) : Option Int :=
  (v.field name).elim (some default) asInt

def strArg (v : Json) (name default : String) : Option String :=
  (v.field name).elim (some default) asStr

/-- A dictionary of strings, or `None`. -/
def asLabels : Json → Option (Option (Dict String String))
  | null => some none
  | obj fields => do
    let items ← fields.mapM fun e ↦ e.2.asStr.map (e.1, ·)
    some (some (Dict.ofItems items))
  | _ => none

def ofLabels (labels : Option (Dict String String)) : Json :=
  labels.elim null fun d ↦ obj (d.items.map fun e ↦ (e.1, str e.2))

theorem asLabels_ofLabels (labels : Option (Dict String String)) :
    (ofLabels labels).asLabels = some labels := by
  cases labels with
  | none => rfl
  | some d =>
    have items : (d.items.map fun e ↦ (e.1, str e.2)).mapM
        (fun e : String × Json ↦ e.2.asStr.map (e.1, ·)) = some d.items := by
      rw [mapM_map_eq_some (fun e : String × String ↦ (e.1, str e.2)) _ id fun _ ↦ rfl, List.map_id]
    have back : Dict.ofItems d.items = d := Dict.ext (Dict.items_ofItems d.nodup)
    simp [ofLabels, asLabels, items, back]

end Json

namespace ClassAction

variable {c : ActionClass}

/-- `update_timestamp` on an object of a class. -/
def updateTimestamp (a : ClassAction c) (timestamp : ℚ)
    (expiredTimePeriod executableTimePeriod : Int) : ClassAction c where
  base := a.base.updateTimestamp timestamp expiredTimePeriod executableTimePeriod
  details := a.details
  fixed := by
    obtain ⟨t, e, eq⟩ :=
      a.base.updateTimestamp_eq timestamp expiredTimePeriod executableTimePeriod
    have fixed := a.fixed
    rw [eq]
    cases c <;> exact fixed

/-- The attributes of a class, without their leading underscores. -/
def detailFields : (c : ActionClass) → c.Details → List (String × Json)
  | .event, (d : EventDetails) => [("event_type", .str d.eventType),
      ("event_instance", .str d.eventInstance), ("event_action", .str d.eventAction),
      ("event_msg", .str d.eventMsg), ("event_labels", .ofLabels d.eventLabels)]
  | .node, (d : NodeDetails) => [("node_id", .int d.nodeId), ("node_type", .str d.nodeType),
      ("node_status", .str d.nodeStatus), ("reason", .str d.reason)]
  | .job, (d : JobDetails) | .jobAbortion, (d : JobDetails) | .jobRestart, (d : JobDetails) =>
    [("reason", .str d.reason), ("msg", .str d.msg)]

/-- `to_json` (`diagnosis_action.py:95-97`): the attributes in the order in which they are set. -/
def toJson (a : ClassAction c) : Json :=
  .obj ([("action_type", .str a.base.actionType), ("instance", .int a.base.instanceId),
    ("timestamp", .int a.base.timestamp), ("expired_time_period", .int a.base.expiredTimePeriod),
    ("executable_time_period", .int a.base.executableTimePeriod)] ++ detailFields c a.details)

/-- The arguments of a job action. -/
def jobDetails (v : Json) : Option JobDetails := do
  some ⟨← v.strArg "reason" "", ← v.strArg "msg" ""⟩

/-- `from_json` (`diagnosis_action.py:118-120`); a keyword that the constructor does not name is
dropped. -/
def fromJson (now : Int) (v : Json) : (c : ActionClass) → Option (ClassAction c)
  | .event => do
    let labels ← (v.field "event_labels").elim (some none) Json.asLabels
    let details := ⟨← v.strArg "event_type" "", ← v.strArg "event_instance" "",
      ← v.strArg "event_action" "", ← v.strArg "event_msg" "", labels⟩
    some (eventAction now details (← v.intArg "timestamp" 0) (← v.intArg "expired_time_period" 0)
      (← v.intArg "executable_time_period" 0) (← v.intArg "instance" masterInstance))
  | .node => do
    let details := ⟨← (← v.field "node_id").asInt, ← (← v.field "node_type").asStr,
      ← v.strArg "node_status" "", ← v.strArg "reason" ""⟩
    some (nodeAction now details (← v.intArg "instance" masterInstance)
      (← v.strArg "action_type" "no_action") (← v.intArg "timestamp" 0)
      (← v.intArg "expired_time_period" 0))
  | .job => do some (jobAction now (← (← v.field "action_type").asStr) (← jobDetails v))
  | .jobAbortion => do some (jobAbortionAction now (← jobDetails v))
  | .jobRestart => do some (jobRestartAction now (← jobDetails v))

/-- What the constructor of a class makes of an object that it is given. -/
def rebuilt (now : Int) : (c : ActionClass) → ActionBase → ActionBase
  | .event, a => .init now "event" a.instanceId a.timestamp a.expiredTimePeriod
      a.executableTimePeriod
  | .node, a => .init now a.actionType a.instanceId a.timestamp a.expiredTimePeriod 0
  | .job, a => .init now a.actionType masterInstance 0 0 0
  | .jobAbortion, _ => .init now "job_abortion" masterInstance 0 0 0
  | .jobRestart, _ => .init now "job_restart" masterInstance 0 0 0

theorem rebuilt_fixes (now : Int) (a : ActionBase) : c.Fixes (rebuilt now c a) := by
  cases c with
  | event | node => rfl
  | job => exact ⟨rfl, rfl⟩
  | jobAbortion | jobRestart => exact ⟨rfl, rfl, rfl⟩

/-- The class attributes always come back; the others as the constructor makes them. -/
theorem fromJson_toJson (now : Int) (a : ClassAction c) :
    fromJson now a.toJson c = some ⟨rebuilt now c a.base, a.details, rebuilt_fixes now a.base⟩ := by
  rcases a with ⟨base, details, fixed⟩
  cases c with
  | event =>
    rcases details with ⟨eventType, eventInstance, eventAction, eventMsg, eventLabels⟩
    have labels := Json.asLabels_ofLabels eventLabels
    simp [fromJson, toJson, detailFields, Json.field, Json.intArg, Json.strArg, Json.asInt,
      Json.asStr, labels, Dlrover.eventAction, rebuilt]
  | node =>
    rcases details with ⟨nodeId, nodeType, nodeStatus, reason⟩
    simp [fromJson, toJson, detailFields, Json.field, Json.intArg, Json.strArg, Json.asInt,
      Json.asStr, nodeAction, rebuilt]
  | job | jobAbortion | jobRestart =>
    rcases details with ⟨reason, msg⟩
    simp [fromJson, jobDetails, toJson, detailFields, Json.field, Json.strArg, Json.asStr,
      jobAction, jobAbortionAction, jobRestartAction, rebuilt]

end ClassAction

/-- The condition under which an action that is decoded when the clock reads `now` is the same. -/
def ActionClass.Survives (now : Int) (a : ActionBase) : ActionClass → Prop
  | .event | .node => (a.timestamp = 0 → now = 0) ∧ a.expiredTimePeriod ≠ 0
  | .job | .jobAbortion | .jobRestart =>
    a.timestamp = now ∧ a.expiredTimePeriod = actionExpiredTimePeriodDefault

namespace ClassAction

variable {c : ActionClass}

theorem rebuilt_eq_iff (now : Int) {a : ActionBase} (fixed : c.Fixes a) :
    rebuilt now c a = a ↔ c.Survives now a := by
  rcases a with ⟨actionType, instanceId, timestamp, expiredTimePeriod, executableTimePeriod⟩
  cases c with
  | event =>
    cases fixed
    simp only [rebuilt, ActionBase.init, ActionClass.Survives, ActionBase.mk.injEq]
    grind [actionExpiredTimePeriodDefault]
  | node =>
    cases fixed
    simp only [rebuilt, ActionBase.init, ActionClass.Survives, ActionBase.mk.injEq]
    grind [actionExpiredTimePeriodDefault]
  | job =>
    rcases fixed with ⟨rfl, rfl⟩
    simp [rebuilt, ActionBase.init, ActionClass.Survives, eq_comm]
  | jobAbortion | jobRestart =>
    rcases fixed with ⟨rfl, rfl, rfl⟩
    simp [rebuilt, ActionBase.init, ActionClass.Survives, eq_comm]

/-- An update of the executable period alone takes the expiry away, and no decoder gives the action
back. -/
theorem updateTimestamp_lost (now : Int) (a : ClassAction c) (timestamp : ℚ)
    {executableTimePeriod : Int} (pos : 0 < executableTimePeriod) :
    fromJson now (a.updateTimestamp timestamp 0 executableTimePeriod).toJson c ≠
      some (a.updateTimestamp timestamp 0 executableTimePeriod) := by
  set b := a.updateTimestamp timestamp 0 executableTimePeriod with hb
  have zero : b.base.expiredTimePeriod = 0 := by
    simp only [hb, updateTimestamp, ActionBase.updateTimestamp, if_pos pos]
  rw [fromJson_toJson, Ne, Option.some.injEq, ClassAction.ext_iff]
  rintro ⟨eq, -⟩
  have survives := (rebuilt_eq_iff now b.fixed).mp eq
  cases c with
  | event | node => exact survives.2 zero
  | job | jobAbortion | jobRestart => exact absurd (zero.symm.trans survives.2) (by decide)

end ClassAction

/-- Two actions are expired, and executable, at the same times. -/
def ActionBase.SameDecisions (a b : ActionBase) : Prop :=
  ∀ now, b.isExpired now = a.isExpired now ∧ b.isExecutable now = a.isExecutable now

theorem hasExpired_ext {t p u q : Int} (h : ∀ now, hasExpired t p now = hasExpired u q now) :
    t + p = u + q := by
  have left := h (t + p)
  have right := h (u + q)
  simp only [hasExpired, le_refl, decide_true, decide_eq_true_eq, true_eq_decide_iff] at left right
  omega

namespace ClassAction

variable {c : ActionClass}

/-- The decisions are the same only if the timestamp and the expiry are. -/
theorem survives_of_sameDecisions {now : Int} {a : ActionBase} (fixed : c.Fixes a)
    (same : a.SameDecisions (rebuilt now c a)) : c.Survives now a := by
  have expired := hasExpired_ext fun t ↦ (same t).1
  have executable := hasExpired_ext fun t ↦ (same t).2
  cases c with
  | event =>
    simp only [rebuilt, ActionBase.init, actionExpiredTimePeriodDefault] at expired executable
    refine ⟨fun zero ↦ ?_, fun zero ↦ ?_⟩
    · grind
    · grind
  | node =>
    simp only [ActionClass.Fixes] at fixed
    simp only [rebuilt, ActionBase.init, actionExpiredTimePeriodDefault] at expired executable
    refine ⟨fun zero ↦ ?_, fun zero ↦ ?_⟩
    · grind
    · grind
  | job | jobAbortion | jobRestart =>
    simp only [ActionClass.Fixes] at fixed
    simp only [rebuilt, ActionBase.init, actionExpiredTimePeriodDefault] at expired executable
    simp only [ActionClass.Survives, actionExpiredTimePeriodDefault]
    grind

/-- An action comes back from the wire as it was, and with the same decisions at every time, exactly
if its class passes the timestamp and the expiry on, or the decoder would set the same ones. -/
theorem wire_iff (now : Int) (a : ClassAction c) :
    ∃ b, fromJson now a.toJson c = some b ∧
      (b = a ∧ a.base.SameDecisions b.base ↔ c.Survives now a.base) ∧
      (a.base.SameDecisions b.base ↔ c.Survives now a.base) := by
  have eq_iff := rebuilt_eq_iff now a.fixed
  have decides : a.base.SameDecisions (rebuilt now c a.base) ↔ c.Survives now a.base := by
    refine ⟨survives_of_sameDecisions a.fixed, fun survives t ↦ ?_⟩
    rw [eq_iff.mpr survives]
    exact ⟨rfl, rfl⟩
  refine ⟨_, fromJson_toJson now a, ?_, decides⟩
  rw [and_iff_left_of_imp, ClassAction.ext_iff]
  · exact (and_iff_left rfl).trans eq_iff
  · intro eq
    rw [eq]
    exact fun _ ↦ ⟨rfl, rfl⟩

end ClassAction

/-- A restart that the agent reports at 1000 and the master decodes at 1005. -/
theorem jobRestart_not_survives :
    ∃ b,
      ClassAction.fromJson 1005 (jobRestartAction 1000 ⟨"hang", ""⟩).toJson .jobRestart = some b ∧
      b.base.timestamp ≠ (jobRestartAction 1000 ⟨"hang", ""⟩).base.timestamp ∧
      b.base.isExpired 1302 ≠ (jobRestartAction 1000 ⟨"hang", ""⟩).base.isExpired 1302 :=
  ⟨_, ClassAction.fromJson_toJson 1005 _, by decide, by decide⟩

end ProbingBaselines.Dlrover
