import Mathlib.Algebra.Order.BigOperators.Group.List
import Mathlib.Algebra.Order.Field.Basic
import Mathlib.Algebra.Order.Ring.Rat
import Mathlib.Tactic.Linarith
import ProbingBaselines.Lib.Dict
import ProbingBaselines.Lib.Run

/-!
# The history of training steps

`StepEvents` (`common/event/context.py:32-239`) keeps the last steps that the trainer has reported,
each under the timestamp at which it began. A full history loses its first entry before the event is
checked, and the check looks for the last key of the list of keys that was taken before.
-/

namespace ProbingBaselines.Dlrover

open Lib

/-- `TrainEventState`. -/
inductive TrainEventState
  | once
  | start
  | finish
  deriving DecidableEq

/-- `EventTypeName`; `finish` is `END`. -/
inductive EventTypeName
  | begin
  | finish
  | instant
  deriving DecidableEq

structure AtorchEvent where
  timestamp : Option Int
  step : Option Int
  name : String
  type : EventTypeName

structure AtorchStepEvent where
  eventName : String
  eventState : TrainEventState
  beginTimestamp : Int
  endTimestamp : Int
  localtime : Int
  step : Int
  stepTime : Int

/-- Whose event it is: `add_step_event`, or `_add_generic_event` with its `evt_type`. -/
inductive EventKind
  | step
  | generic (evtType : String)

namespace EventKind

/-- The step with which an event may begin after a step has ended. -/
def Follows : EventKind → Int → Int → Prop
  | .step, last, now => now = last
  | .generic _, _, _ => True

/-- The step with which an event may end that has begun with a step. -/
def Completes : EventKind → Int → Int → Prop
  | .step, begun, now => begun < now
  | .generic _, begun, now => begun = now

instance (kind : EventKind) (last step : Int) : Decidable (kind.Follows last step) := by
  cases kind <;> unfold Follows <;> infer_instance

instance (kind : EventKind) (begun step : Int) : Decidable (kind.Completes begun step) := by
  cases kind <;> unfold Completes <;> infer_instance

end EventKind

/-- `_step_events`, by the timestamps of the beginnings. -/
abbrev StepHistory := Dict Int AtorchStepEvent

inductive AddOutcome where
  | accepted
  | rejected
  | raised

structure AddResult where
  events : StepHistory
  outcome : AddOutcome

namespace StepEvents

/-- The entry of a step that begins. -/
def begun (event : AtorchEvent) (timestamp step now : Int) : AtorchStepEvent where
  eventName := event.name
  eventState := .start
  beginTimestamp := timestamp
  endTimestamp := 0
  localtime := now
  step := step
  stepTime := 0

/-- The entry of a step that has ended. -/
def ended (entry : AtorchStepEvent) (timestamp step now : Int) : AtorchStepEvent :=
  { entry with
    endTimestamp := timestamp
    stepTime := timestamp - entry.beginTimestamp
    step
    eventState := .finish
    localtime := now }

/-- The history without its first entry, if it is full. -/
def evicted (maxEvents : Nat) (history : StepHistory) : StepHistory :=
  if maxEvents ≤ history.keys.length then history.popFirst else history

/-- `add_step_event` (`context.py:99-165`) and `_add_generic_event` (`context.py:173-239`). A
`KeyError` leaves the history without the entry that was popped. -/
def addEvent (maxEvents : Nat) (kind : EventKind) (history : StepHistory) (event : AtorchEvent)
    (now : Int) : AddResult :=
  let keys := history.keys
  match event.timestamp, event.step with
  | some timestamp, some step =>
    let history := evicted maxEvents history
    match event.type, keys.getLast? with
    | .begin, none => ⟨history.insert timestamp (begun event timestamp step now), .accepted⟩
    | .begin, some lastKey =>
      match history.get? lastKey with
      | none => ⟨history, .raised⟩
      | some last =>
        if ¬kind.Follows last.step step ∨ last.eventState ≠ .finish then ⟨history, .rejected⟩
        else if timestamp < last.endTimestamp then ⟨history, .rejected⟩
        else ⟨history.insert timestamp (begun event timestamp step now), .accepted⟩
    | .finish, none => ⟨history, .rejected⟩
    | .finish, some lastKey =>
      match history.get? lastKey with
      | none => ⟨history, .raised⟩
      | some entry =>
        if ¬kind.Completes entry.step step ∨ entry.eventState ≠ .start then ⟨history, .rejected⟩
        else if timestamp < entry.beginTimestamp then ⟨history, .rejected⟩
        else ⟨history.insert lastKey (ended entry timestamp step now), .accepted⟩
    | .instant, _ => ⟨history, .rejected⟩
  | _, _ => ⟨history, .rejected⟩

def addStepEvent (maxEvents : Nat) := addEvent maxEvents .step

def addCkptEvent (maxEvents : Nat) := addEvent maxEvents (.generic "ckpt")

def addEvalEvent (maxEvents : Nat) := addEvent maxEvents (.generic "eval")

/-- The loop of `last_steps_avg_time` over the entries, the last one first. -/
def sumSteps (lastSteps : Nat) : List AtorchStepEvent → Int → Nat → Int × Nat
  | [], total, steps => (total, steps)
  | e :: rest, total, steps =>
    if e.stepTime ≠ 0 then
      if lastSteps ≤ steps + 1 then (total + e.stepTime, steps + 1)
      else sumSteps lastSteps rest (total + e.stepTime) (steps + 1)
    else sumSteps lastSteps rest total steps

inductive AverageError where
  | zeroDivisionError

/-- `last_steps_avg_time` (`context.py:74-97`). -/
def lastStepsAvgTime (history : StepHistory) (lastSteps : Nat) : Except AverageError (Option ℚ) :=
  if history.keys.length < lastSteps then .ok none
  else
    let (total, steps) := sumSteps lastSteps history.values.reverse 0 0
    if steps = 0 then .error .zeroDivisionError else .ok (some (total / steps))

end StepEvents

/-- The calls of the methods; `now` is what the clock reads. -/
inductive StepCall where
  | add (kind : EventKind) (event : AtorchEvent) (now : Int)
  | average (lastSteps : Nat)

namespace StepEvents

def step (maxEvents : Nat) (history : StepHistory) : StepCall → Option StepHistory
  | .add kind event now => some (addEvent maxEvents kind history event now).events
  | .average _ => some history

/-! ### What is kept -/

/-- A step that has ended. -/
structure Completed (e : AtorchStepEvent) : Prop where
  state : e.eventState = .finish
  le : e.beginTimestamp ≤ e.endTimestamp
  stepTime : e.stepTime = e.endTimestamp - e.beginTimestamp

/-- A step that has begun and not ended. -/
structure Begun (e : AtorchStepEvent) : Prop where
  state : e.eventState = .start
  stepTime : e.stepTime = 0

/-- The entries are ordered strictly by their beginnings, and only the last one may be open. -/
structure Ordered (items : List (Int × AtorchStepEvent)) : Prop where
  key : ∀ e ∈ items, e.2.beginTimestamp = e.1
  sorted : items.Pairwise fun e e' ↦ e.2.beginTimestamp < e'.2.beginTimestamp
  completed : ∀ e ∈ items.dropLast, Completed e.2
  last : ∀ e ∈ items.getLast?, Completed e.2 ∨ Begun e.2

/-- A history of at most `maxEvents` entries, in order. -/
structure WellFormed (maxEvents : Nat) (history : StepHistory) : Prop where
  size : history.items.length ≤ maxEvents
  ordered : Ordered history.items

section Kept

variable {front items : List (Int × AtorchStepEvent)} {e : Int × AtorchStepEvent}

theorem ordered_nil : Ordered [] where
  key _ h := absurd h List.not_mem_nil
  sorted := .nil
  completed _ h := absurd h List.not_mem_nil
  last _ h := absurd h (Option.not_mem_none _)

theorem ordered_concat_iff : Ordered (front ++ [e]) ↔
    (∀ e' ∈ front, e'.2.beginTimestamp = e'.1 ∧ Completed e'.2 ∧
      e'.2.beginTimestamp < e.2.beginTimestamp) ∧
    front.Pairwise (fun e e' ↦ e.2.beginTimestamp < e'.2.beginTimestamp) ∧
    e.2.beginTimestamp = e.1 ∧ (Completed e.2 ∨ Begun e.2) := by
  constructor
  · intro h
    have sorted := List.pairwise_append.mp h.sorted
    have completed := h.completed
    rw [List.dropLast_concat] at completed
    refine ⟨fun e' he' ↦ ⟨h.key e' (List.mem_append_left _ he'), completed e' he',
      sorted.2.2 e' he' e List.mem_cons_self⟩, sorted.1, h.key e List.mem_concat_self, h.last e ?_⟩
    rw [List.getLast?_concat]
    rfl
  · rintro ⟨each, sorted, key, last⟩
    refine ⟨?_, ?_, ?_, ?_⟩
    · intro e' he'
      rcases List.mem_append.mp he' with he' | he'
      · exact (each e' he').1
      · rw [List.mem_singleton.mp he']
        exact key
    · rw [List.pairwise_append]
      refine ⟨sorted, List.pairwise_singleton _ _, fun e' he' e'' he'' ↦ ?_⟩
      rw [List.mem_singleton.mp he'']
      exact (each e' he').2.2
    · rw [List.dropLast_concat]
      exact fun e' he' ↦ (each e' he').2.1
    · rw [List.getLast?_concat]
      rintro _ ⟨⟩
      exact last

/-- Without its first entry a history is still in order. -/
theorem Ordered.tail (h : Ordered items) : Ordered items.tail := by
  cases items with
  | nil => exact h
  | cons a items =>
    rcases List.eq_nil_or_concat' items with rfl | ⟨front, e, rfl⟩
    · exact ordered_nil
    · rw [← List.cons_append] at h
      rw [List.tail_cons]
      have parts := ordered_concat_iff.mp h
      exact ordered_concat_iff.mpr ⟨fun e' he' ↦ parts.1 e' (List.mem_cons_of_mem _ he'),
        (List.pairwise_cons.mp parts.2.1).2, parts.2.2⟩

/-- A step that begins after the last one has ended. -/
theorem Ordered.concat (h : Ordered (front ++ [e])) (completed : Completed e.2)
    {new : Int × AtorchStepEvent} (key : new.2.beginTimestamp = new.1) (begun : Begun new.2)
    (later : e.2.beginTimestamp < new.2.beginTimestamp) : Ordered (front ++ [e] ++ [new]) := by
  have parts := ordered_concat_iff.mp h
  refine ordered_concat_iff.mpr ⟨fun e' he' ↦ ?_, h.sorted, key, .inr begun⟩
  rcases List.mem_append.mp he' with he' | he'
  · have each := parts.1 e' he'
    exact ⟨each.1, each.2.1, each.2.2.trans later⟩
  · rw [List.mem_singleton.mp he']
    exact ⟨parts.2.2.1, completed, later⟩

/-- Another entry in the place of the last one, with the same beginning. -/
theorem Ordered.replace (h : Ordered (front ++ [e])) {entry : AtorchStepEvent}
    (same : entry.beginTimestamp = e.2.beginTimestamp) (entryOk : Completed entry ∨ Begun entry) :
    Ordered (front ++ [(e.1, entry)]) := by
  have parts := ordered_concat_iff.mp h
  refine ordered_concat_iff.mpr ⟨fun e' he' ↦ ?_, parts.2.1, same.trans parts.2.2.1, entryOk⟩
  rw [same]
  exact parts.1 e' he'

end Kept

/-! ### One event -/

/-- The event passes the check against the last entry. -/
def Accepts (kind : EventKind) (history : StepHistory) (type : EventTypeName)
    (timestamp step : Int) : Prop :=
  match type with
  | .begin => ∀ e ∈ history.items.getLast?, kind.Follows e.2.step step ∧
      e.2.eventState = .finish ∧ e.2.endTimestamp ≤ timestamp
  | .finish => ∃ e ∈ history.items.getLast?, kind.Completes e.2.step step ∧
      e.2.eventState = .start ∧ e.2.beginTimestamp ≤ timestamp
  | .instant => False

instance (kind : EventKind) (history : StepHistory) (type : EventTypeName)
    (timestamp step : Int) : Decidable (Accepts kind history type timestamp step) := by
  cases type <;> unfold Accepts <;> infer_instance

section OneEvent

variable {maxEvents : Nat} {kind : EventKind} {history : StepHistory} {event : AtorchEvent}
  {now timestamp step k : Int} {v : AtorchStepEvent} {front : List (Int × AtorchStepEvent)}

theorem length_keys (history : StepHistory) : history.keys.length = history.items.length :=
  List.length_map _

/-- The last entry is found under its key. -/
theorem get?_last (eq : history.items = front ++ [(k, v)]) : history.get? k = some v := by
  rw [Dict.get?_eq_some_iff, eq]
  exact List.mem_concat_self

theorem evicted_of_lt (h : history.items.length < maxEvents) :
    evicted maxEvents history = history := by
  rw [evicted, length_keys, if_neg (Nat.not_le.mpr h)]

theorem items_evicted (h : maxEvents ≤ history.items.length) :
    (evicted maxEvents history).items = history.items.tail := by
  rw [evicted, length_keys, if_pos h]
  rfl

/-- Without a timestamp or a step nothing happens. -/
theorem addEvent_invalid (h : event.timestamp = none ∨ event.step = none) :
    addEvent maxEvents kind history event now = ⟨history, .rejected⟩ := by
  rw [addEvent]
  rcases h with h | h
  · simp only [h]
  · cases event.timestamp <;> simp only [h]

theorem addEvent_empty (pos : 0 < maxEvents) (empty : history.items = [])
    (ht : event.timestamp = some timestamp) (hs : event.step = some step) :
    addEvent maxEvents kind history event now = match event.type with
      | .begin => ⟨history.insert timestamp (begun event timestamp step now), .accepted⟩
      | .finish | .instant => ⟨history, .rejected⟩ := by
  have keys : history.keys = [] := by rw [Dict.keys, empty, List.map_nil]
  have whole : evicted maxEvents history = history := evicted_of_lt (by rwa [empty])
  cases type : event.type <;>
    simp only [addEvent, ht, hs, keys, whole, type, List.getLast?_nil]

/-- The only entry is popped, and then looked up. -/
theorem addEvent_single (small : maxEvents ≤ 1) (single : history.items = [(k, v)])
    (ht : event.timestamp = some timestamp) (hs : event.step = some step) :
    addEvent maxEvents kind history event now =
      ⟨evicted maxEvents history, if event.type = .instant then .rejected else .raised⟩ := by
  have keys : history.keys = [k] := by rw [Dict.keys, single]; rfl
  have full : maxEvents ≤ history.items.length := by rwa [single]
  have gone : (evicted maxEvents history).get? k = none := by
    rw [Dict.get?_eq_none_iff]
    apply Dict.not_mem_of_items
    rw [items_evicted full, single]
    rfl
  cases type : event.type <;>
    simp only [addEvent, ht, hs, keys, type, List.getLast?_singleton, gone] <;> rfl

variable (last : history.items.getLast? = some (k, v))
  (kept : (evicted maxEvents history).get? k = some v)
  (ht : event.timestamp = some timestamp) (hs : event.step = some step)

include last in
theorem getLast?_keys : history.keys.getLast? = some k := by
  rw [Dict.keys, List.getLast?_map, last]
  rfl

include last in
theorem accepts_begin_iff : Accepts kind history .begin timestamp step ↔
    kind.Follows v.step step ∧ v.eventState = .finish ∧ v.endTimestamp ≤ timestamp := by
  constructor
  · intro accepts
    exact accepts (k, v) last
  · intro check e he
    cases Option.some.inj (last.symm.trans he)
    exact check

include last in
theorem accepts_finish_iff : Accepts kind history .finish timestamp step ↔
    kind.Completes v.step step ∧ v.eventState = .start ∧ v.beginTimestamp ≤ timestamp := by
  constructor
  · rintro ⟨e, he, check⟩
    cases Option.some.inj (last.symm.trans he)
    exact check
  · intro check
    exact ⟨(k, v), last, check⟩

include last kept ht hs in
/-- The last entry is kept, and the event passes the check. -/
theorem addEvent_accepted (accepts : Accepts kind history event.type timestamp step) :
    addEvent maxEvents kind history event now = ⟨(evicted maxEvents history).insert
      (if event.type = .begin then timestamp else k)
      (if event.type = .begin then begun event timestamp step now else ended v timestamp step now),
      .accepted⟩ := by
  have key := getLast?_keys last
  cases type : event.type with
  | begin =>
    rw [type, accepts_begin_iff last] at accepts
    simp only [addEvent, ht, hs, key, type, kept, if_true]
    rw [if_neg (not_or.mpr ⟨not_not.mpr accepts.1, not_not.mpr accepts.2.1⟩),
      if_neg (Int.not_lt.mpr accepts.2.2)]
  | finish =>
    rw [type, accepts_finish_iff last] at accepts
    simp only [addEvent, ht, hs, key, type, kept]
    rw [if_neg (not_or.mpr ⟨not_not.mpr accepts.1, not_not.mpr accepts.2.1⟩),
      if_neg (Int.not_lt.mpr accepts.2.2)]
    rfl
  | instant =>
    rw [type] at accepts
    exact accepts.elim

include last kept ht hs in
theorem addEvent_rejected (refused : ¬Accepts kind history event.type timestamp step) :
    addEvent maxEvents kind history event now = ⟨evicted maxEvents history, .rejected⟩ := by
  have key := getLast?_keys last
  cases type : event.type with
  | begin =>
    simp only [addEvent, ht, hs, key, type, kept]
    split_ifs with state early
    · rfl
    · rfl
    · rw [type, accepts_begin_iff last] at refused
      have passed := not_or.mp state
      exact absurd ⟨not_not.mp passed.1, not_not.mp passed.2, Int.not_lt.mp early⟩ refused
  | finish =>
    simp only [addEvent, ht, hs, key, type, kept]
    split_ifs with state early
    · rfl
    · rfl
    · rw [type, accepts_finish_iff last] at refused
      have passed := not_or.mp state
      exact absurd ⟨not_not.mp passed.1, not_not.mp passed.2, Int.not_lt.mp early⟩ refused
  | instant => simp only [addEvent, ht, hs, type]

end OneEvent

/-! ### Every event -/

section EveryEvent

variable {maxEvents : Nat} {kind : EventKind} {history : StepHistory} {event : AtorchEvent}
  {now : Int}

/-- What an event does to a history: nothing, when it has no timestamp or no step; it begins an
empty one; it fails, when the only entry was popped; or it is checked against the last entry. -/
theorem addEvent_cases (event : AtorchEvent) (pos : 0 < maxEvents)
    (wf : WellFormed maxEvents history) :
    (event.timestamp = none ∨ event.step = none) ∨
    ∃ timestamp step, event.timestamp = some timestamp ∧ event.step = some step ∧
      (history.items = [] ∨
        (∃ k v, history.items = [(k, v)] ∧ maxEvents = 1) ∨
        ∃ front k v, history.items.getLast? = some (k, v) ∧
          (evicted maxEvents history).items = front ++ [(k, v)] ∧
          (maxEvents ≤ history.items.length → 1 < maxEvents)) := by
  cases ht : event.timestamp with
  | none => exact .inl (.inl rfl)
  | some timestamp =>
    cases hs : event.step with
    | none => exact .inl (.inr rfl)
    | some step =>
      refine .inr ⟨timestamp, step, rfl, rfl, ?_⟩
      rcases List.eq_nil_or_concat' history.items with empty | ⟨front, ⟨k, v⟩, eq⟩
      · exact .inl empty
      · right
        have last : history.items.getLast? = some (k, v) := by rw [eq, List.getLast?_concat]
        by_cases full : maxEvents ≤ history.items.length
        · have items := items_evicted full
          rw [eq] at items
          cases front with
          | nil =>
            have size := wf.size
            rw [eq] at size full
            refine .inl ⟨k, v, eq, ?_⟩
            simp only [List.nil_append, List.length_singleton] at size full
            omega
          | cons a front =>
            refine .inr ⟨front, k, v, last, items, fun _ ↦ ?_⟩
            have size := wf.size
            rw [eq] at size
            simp only [List.cons_append, List.length_cons, List.length_append] at size
            omega
        · refine .inr ⟨front, k, v, last, ?_, fun h ↦ absurd h full⟩
          rw [evicted_of_lt (Nat.not_le.mp full), eq]

theorem length_evicted_lt (pos : 0 < maxEvents) (wf : WellFormed maxEvents history) :
    (evicted maxEvents history).items.length < maxEvents := by
  have size := wf.size
  by_cases full : maxEvents ≤ history.items.length
  · rw [items_evicted full, List.length_tail]
    omega
  · rw [evicted_of_lt (Nat.not_le.mp full)]
    exact Nat.not_le.mp full

theorem ordered_evicted (wf : WellFormed maxEvents history) :
    Ordered (evicted maxEvents history).items := by
  by_cases full : maxEvents ≤ history.items.length
  · rw [items_evicted full]
    exact wf.ordered.tail
  · rw [evicted_of_lt (Nat.not_le.mp full)]
    exact wf.ordered

section Insert

variable {kept : StepHistory} {front : List (Int × AtorchStepEvent)} {k timestamp step : Int}
  {v : AtorchStepEvent}

/-- A step that begins when the last one has ended; at the very time at which that one began, it
takes its place. -/
theorem wellFormed_begin (size : kept.items.length < maxEvents) (ordered : Ordered kept.items)
    (eq : kept.items = front ++ [(k, v)]) (state : v.eventState = .finish)
    (le : v.endTimestamp ≤ timestamp) :
    WellFormed maxEvents (kept.insert timestamp (begun event timestamp step now)) := by
  rw [eq] at ordered
  have parts := ordered_concat_iff.mp ordered
  have completed : Completed v := by
    rcases parts.2.2.2 with completed | open'
    · exact completed
    · exact absurd (state.symm.trans open'.state) (by decide)
  have key : v.beginTimestamp = k := parts.2.2.1
  have length : front.length + 1 < maxEvents := by simpa [eq] using size
  rcases Int.lt_or_eq_of_le (completed.le.trans le) with later | same
  · have fresh : timestamp ∉ kept := by
      intro mem
      rcases Dict.mem_iff.mp mem with ⟨w, hw⟩
      rw [eq] at hw
      rcases List.mem_append.mp hw with hw | hw
      · have each := parts.1 _ hw
        have below : w.beginTimestamp < v.beginTimestamp := each.2.2
        have key' : w.beginTimestamp = timestamp := each.1
        omega
      · cases List.mem_singleton.mp hw
        omega
    have items := Dict.items_insert_of_not_mem (begun event timestamp step now) fresh
    rw [eq] at items
    constructor
    · simp only [items, List.length_append, List.length_singleton]
      omega
    · rw [items]
      exact ordered.concat completed rfl ⟨rfl, rfl⟩ later
  · have at_k : timestamp = k := same.symm.trans key
    subst at_k
    have items := Dict.items_insert_last eq (begun event timestamp step now)
    constructor
    · rw [items]
      simpa using Nat.le_of_lt length
    · rw [items]
      exact ordered.replace same.symm (.inr ⟨rfl, rfl⟩)

/-- The last step ends. -/
theorem wellFormed_finish (size : kept.items.length < maxEvents) (ordered : Ordered kept.items)
    (eq : kept.items = front ++ [(k, v)]) (le : v.beginTimestamp ≤ timestamp) :
    WellFormed maxEvents (kept.insert k (ended v timestamp step now)) := by
  have items := Dict.items_insert_last eq (ended v timestamp step now)
  rw [eq] at ordered
  have length : front.length + 1 < maxEvents := by simpa [eq] using size
  constructor
  · rw [items]
    simpa using Nat.le_of_lt length
  · rw [items]
    exact ordered.replace rfl (.inl ⟨rfl, le, rfl⟩)

end Insert

/-- A history stays well formed, whatever the event is and whether or not the call fails. -/
theorem wellFormed_addEvent (pos : 0 < maxEvents) (wf : WellFormed maxEvents history) :
    WellFormed maxEvents (addEvent maxEvents kind history event now).events := by
  have size := length_evicted_lt pos wf
  have ordered := ordered_evicted wf
  have kept_wf : WellFormed maxEvents (evicted maxEvents history) := ⟨size.le, ordered⟩
  rcases addEvent_cases event pos wf with invalid |
    ⟨timestamp, step, ht, hs, empty | ⟨k, v, single, one⟩ | ⟨front, k, v, last, kept, -⟩⟩
  · rw [addEvent_invalid invalid]
    exact wf
  · rw [addEvent_empty pos empty ht hs]
    cases event.type with
    | begin =>
      have fresh : timestamp ∉ history := Dict.not_mem_of_items empty timestamp
      have items := Dict.items_insert_of_not_mem (begun event timestamp step now) fresh
      rw [empty, List.nil_append] at items
      constructor
      · rw [items]
        exact pos
      · rw [items]
        exact ordered_concat_iff.mpr ⟨fun _ h ↦ absurd h List.not_mem_nil, .nil, rfl,
          .inr ⟨rfl, rfl⟩⟩
    | finish => exact wf
    | instant => exact wf
  · rw [addEvent_single (by omega) single ht hs]
    exact kept_wf
  · have found := get?_last kept
    by_cases accepts : Accepts kind history event.type timestamp step
    · rw [addEvent_accepted last found ht hs accepts]
      cases type : event.type with
      | begin =>
        rw [type, accepts_begin_iff last] at accepts
        exact wellFormed_begin size ordered kept accepts.2.1 accepts.2.2
      | finish =>
        rw [type, accepts_finish_iff last] at accepts
        exact wellFormed_finish size ordered kept accepts.2.2
      | instant =>
        rw [type] at accepts
        exact accepts.elim
    · rw [addEvent_rejected last found ht hs accepts]
      exact kept_wf

/-- The call did not fail, and a rejected event has left the history as it was. -/
structure GoodResult (history : StepHistory) (r : AddResult) : Prop where
  not_raised : r.outcome ≠ .raised
  unchanged : r.outcome = .rejected → r.events = history

theorem goodResult_accepted (events : StepHistory) : GoodResult history ⟨events, .accepted⟩ where
  not_raised := by simp
  unchanged := by simp

theorem goodResult_rejected_iff {events : StepHistory} :
    GoodResult history ⟨events, .rejected⟩ ↔ events = history :=
  ⟨fun good ↦ good.unchanged rfl, fun eq ↦ ⟨by simp, fun _ ↦ eq⟩⟩

/-- To pop from a full history is to change it. -/
theorem evicted_ne (pos : 0 < maxEvents) (full : maxEvents ≤ history.items.length) :
    evicted maxEvents history ≠ history := by
  intro same
  have items := congrArg List.length (items_evicted full)
  rw [same, List.length_tail] at items
  omega

/-- When the history is full it has more than one entry, and the event is accepted. -/
def AddOk (maxEvents : Nat) (kind : EventKind) (history : StepHistory) (event : AtorchEvent) :
    Prop :=
  match event.timestamp, event.step with
  | some timestamp, some step => maxEvents ≤ history.items.length →
      1 < maxEvents ∧ Accepts kind history event.type timestamp step
  | _, _ => True

instance : Decidable (AddOk maxEvents kind history event) := by
  unfold AddOk
  split <;> infer_instance

theorem addOk_iff {timestamp step : Int} (ht : event.timestamp = some timestamp)
    (hs : event.step = some step) : AddOk maxEvents kind history event ↔
      (maxEvents ≤ history.items.length →
        1 < maxEvents ∧ Accepts kind history event.type timestamp step) := by
  rw [AddOk, ht, hs]

theorem goodAdd_iff (pos : 0 < maxEvents) (wf : WellFormed maxEvents history) :
    GoodResult history (addEvent maxEvents kind history event now) ↔
      AddOk maxEvents kind history event := by
  rcases addEvent_cases event pos wf with invalid |
    ⟨timestamp, step, ht, hs, empty | ⟨k, v, single, one⟩ | ⟨front, k, v, last, kept, several⟩⟩
  · rw [addEvent_invalid invalid]
    refine iff_of_true (goodResult_rejected_iff.mpr rfl) ?_
    rcases invalid with none | none
    · simp only [AddOk, none]
    · cases ht : event.timestamp <;> simp only [AddOk, none, ht]
  · have good : GoodResult history (addEvent maxEvents kind history event now) := by
      rw [addEvent_empty pos empty ht hs]
      cases event.type with
      | begin => exact goodResult_accepted _
      | finish => exact goodResult_rejected_iff.mpr rfl
      | instant => exact goodResult_rejected_iff.mpr rfl
    refine iff_of_true good ((addOk_iff ht hs).mpr fun full ↦ ?_)
    rw [empty, List.length_nil] at full
    omega
  · -- the only entry was popped, and then looked up
    have full : maxEvents ≤ history.items.length := by
      rw [single, one]
      exact Nat.le_refl 1
    rw [addEvent_single (by omega) single ht hs, addOk_iff ht hs]
    refine iff_of_false ?_ ?_
    · intro good
      by_cases type : event.type = .instant
      · exact evicted_ne pos full (good.unchanged (if_pos type))
      · exact good.not_raised (if_neg type)
    · intro ok
      have more := (ok full).1
      omega
  · have found := get?_last kept
    rw [addOk_iff ht hs]
    by_cases accepts : Accepts kind history event.type timestamp step
    · rw [addEvent_accepted last found ht hs accepts]
      exact iff_of_true (goodResult_accepted _) fun full ↦ ⟨several full, accepts⟩
    · rw [addEvent_rejected last found ht hs accepts, goodResult_rejected_iff]
      constructor
      · intro same full
        exact absurd same (evicted_ne pos full)
      · intro ok
        apply evicted_of_lt
        by_contra full
        exact accepts (ok (Nat.not_lt.mp full)).2

end EveryEvent

/-! ### The average -/

/-- The times of the steps that have ended, the last one first. -/
def endedTimes (history : StepHistory) : List Int :=
  (history.values.filter fun e ↦ e.eventState = .finish).reverse.map AtorchStepEvent.stepTime

/-- The times of the most recent steps that have ended; of one step at least. -/
def recentTimes (history : StepHistory) (lastSteps : Nat) : List Int :=
  (endedTimes history).take (max lastSteps 1)

/-- `None`, or the mean of the times of the most recent steps. -/
def GoodAverage (history : StepHistory) (lastSteps : Nat) : Prop :=
  lastStepsAvgTime history lastSteps = .ok none ∨
    recentTimes history lastSteps ≠ [] ∧ lastStepsAvgTime history lastSteps =
      .ok (some ((recentTimes history lastSteps).sum / (recentTimes history lastSteps).length))

/-- The history is short, or steps have ended and each of the most recent ones took some time. -/
def AverageOk (history : StepHistory) (lastSteps : Nat) : Prop :=
  history.items.length < lastSteps ∨
    recentTimes history lastSteps ≠ [] ∧ 0 ∉ recentTimes history lastSteps

instance (history : StepHistory) (lastSteps : Nat) : Decidable (AverageOk history lastSteps) :=
  inferInstanceAs (Decidable (_ ∨ _))

section Zeros

variable {l : List Int} {m n : Nat}

theorem take_filter_of_not_mem (h : 0 ∉ l.take m) : (l.filter (· ≠ 0)).take m = l.take m := by
  induction l generalizing m with
  | nil => rfl
  | cons c l ih =>
    cases m with
    | zero => rfl
    | succ m =>
      rw [List.take_succ_cons, List.mem_cons, not_or] at h
      rw [List.filter_cons_of_pos (by simpa using Ne.symm h.1), List.take_succ_cons,
        List.take_succ_cons, ih h.2]

/-- Leaving zeros out makes room for more. -/
theorem sum_take_le (nonneg : ∀ c ∈ l, 0 ≤ c) (le : m ≤ n) :
    (l.take m).sum ≤ ((l.filter (· ≠ 0)).take n).sum := by
  induction l generalizing m n with
  | nil => simp
  | cons c l ih =>
    have rest : ∀ c ∈ l, 0 ≤ c := fun c hc ↦ nonneg c (List.mem_cons_of_mem _ hc)
    cases m with
    | zero =>
      rw [List.take_zero, List.sum_nil]
      apply List.sum_nonneg
      intro d hd
      exact nonneg d (List.mem_of_mem_filter (List.mem_of_mem_take hd))
    | succ m =>
      rcases Nat.exists_eq_add_of_le' (Nat.le_trans (Nat.succ_pos m) le) with ⟨n, rfl⟩
      rw [List.take_succ_cons, List.sum_cons]
      by_cases zero : c = 0
      · rw [List.filter_cons_of_neg (by simpa using zero), zero, Int.zero_add]
        exact ih rest (by omega)
      · rw [List.filter_cons_of_pos (by simpa using zero), List.take_succ_cons, List.sum_cons]
        have more := ih rest (Nat.le_of_succ_le_succ le)
        omega

/-- A zero makes room for one more. -/
theorem sum_take_le_of_mem (nonneg : ∀ c ∈ l, 0 ≤ c) (mem : 0 ∈ l.take m) (le : m ≤ n + 1) :
    (l.take m).sum ≤ ((l.filter (· ≠ 0)).take n).sum := by
  induction l generalizing m n with
  | nil => simp at mem
  | cons c l ih =>
    have rest : ∀ c ∈ l, 0 ≤ c := fun c hc ↦ nonneg c (List.mem_cons_of_mem _ hc)
    cases m with
    | zero => simp at mem
    | succ m =>
      rw [List.take_succ_cons, List.mem_cons] at mem
      rw [List.take_succ_cons, List.sum_cons]
      by_cases zero : c = 0
      · rw [List.filter_cons_of_neg (by simpa using zero), zero, Int.zero_add]
        exact sum_take_le rest (Nat.le_of_succ_le_succ le)
      · have inner : 0 ∈ l.take m := mem.resolve_left (Ne.symm zero)
        have some : 0 < m := by
          rcases Nat.eq_zero_or_pos m with rfl | pos
          · simp at inner
          · exact pos
        rcases Nat.exists_eq_add_of_le' (show 1 ≤ n by omega) with ⟨n, rfl⟩
        rw [List.filter_cons_of_pos (by simpa using zero), List.take_succ_cons, List.sum_cons]
        have more : (l.take m).sum ≤ ((l.filter (· ≠ 0)).take n).sum := ih rest inner (by omega)
        omega

/-- With a zero among the first numbers, their mean is below the mean of the first ones that are not
zero. -/
theorem mean_lt_of_mem (nonneg : ∀ c ∈ l, 0 ≤ c) (mem : 0 ∈ l.take m)
    (some : (l.filter (· ≠ 0)).take m ≠ []) :
    ((l.take m).sum : ℚ) / (l.take m).length <
      (((l.filter (· ≠ 0)).take m).sum : ℚ) / ((l.filter (· ≠ 0)).take m).length := by
  have positive : ∀ c ∈ l.filter (· ≠ 0), 0 < c := by
    intro c hc
    rw [List.mem_filter, decide_eq_true_eq] at hc
    have := nonneg c hc.1
    omega
  have count : ((l.filter (· ≠ 0)).take m).length ≤ (l.take m).length := by
    have filtered := List.length_filter_le (fun c : Int ↦ decide (c ≠ 0)) l
    simp only [List.length_take]
    omega
  have length_pos : 0 < ((l.filter (· ≠ 0)).take m).length := List.length_pos_of_ne_nil some
  have sum_pos : 0 < ((l.filter (· ≠ 0)).take m).sum :=
    List.sum_pos _ (fun c hc ↦ positive c (List.mem_of_mem_take hc)) some
  have sums := sum_take_le nonneg (Nat.le_refl m)
  have strict : ((l.filter (· ≠ 0)).take m).length < (l.take m).length ∨
      (l.take m).sum < ((l.filter (· ≠ 0)).take m).sum := by
    rcases Nat.lt_or_ge (l.filter (· ≠ 0)).length m with short | enough
    · -- all the others are there, and the zero is not one of them
      have fewer : (l.filter (· ≠ 0)).length < l.length :=
        List.length_filter_lt_length_iff_exists.mpr ⟨0, List.mem_of_mem_take mem, by simp⟩
      left
      rw [List.length_take, List.length_take]
      omega
    · -- one more number is added up
      rcases Nat.exists_eq_add_of_le' (show 1 ≤ m by
        rw [List.length_take] at length_pos
        omega) with ⟨m, rfl⟩
      have room : (l.take (m + 1)).sum ≤ ((l.filter (· ≠ 0)).take m).sum :=
        sum_take_le_of_mem nonneg mem (Nat.le_refl _)
      right
      rw [List.take_succ_eq_append_getElem enough, List.sum_append, List.sum_singleton]
      have last := positive _ (List.getElem_mem enough)
      omega
  have length_pos' : (0 : ℚ) < ((l.filter (· ≠ 0)).take m).length := by exact_mod_cast length_pos
  have count' : (((l.filter (· ≠ 0)).take m).length : ℚ) ≤ (l.take m).length := by
    exact_mod_cast count
  have sum_pos' : (0 : ℚ) < ((l.filter (· ≠ 0)).take m).sum := by exact_mod_cast sum_pos
  have sums' : ((l.take m).sum : ℚ) ≤ ((l.filter (· ≠ 0)).take m).sum := by exact_mod_cast sums
  rcases strict with shorter | less
  · have shorter' : (((l.filter (· ≠ 0)).take m).length : ℚ) < (l.take m).length := by
      exact_mod_cast shorter
    exact div_lt_div₀' sums' shorter' sum_pos' length_pos'
  · have less' : ((l.take m).sum : ℚ) < ((l.filter (· ≠ 0)).take m).sum := by exact_mod_cast less
    exact div_lt_div₀ less' count' sum_pos'.le length_pos'

end Zeros

section Average

variable {maxEvents : Nat} {history : StepHistory} {lastSteps : Nat}

/-- The loop adds up the last times that are not zero. -/
theorem sumSteps_eq (lastSteps : Nat) (entries : List AtorchStepEvent) (total : Int) (steps : Nat)
    (more : steps < max lastSteps 1) :
    sumSteps lastSteps entries total steps =
      (total + (((entries.map AtorchStepEvent.stepTime).filter (· ≠ 0)).take
          (max lastSteps 1 - steps)).sum,
        steps + (((entries.map AtorchStepEvent.stepTime).filter (· ≠ 0)).take
          (max lastSteps 1 - steps)).length) := by
  induction entries generalizing total steps with
  | nil => simp [sumSteps]
  | cons e rest ih =>
    rw [sumSteps, List.map_cons]
    have left : max lastSteps 1 - steps = (max lastSteps 1 - (steps + 1)) + 1 := by omega
    split_ifs with nonzero enough
    · have none : max lastSteps 1 - (steps + 1) = 0 := by omega
      rw [List.filter_cons_of_pos (by simpa using nonzero), left, List.take_succ_cons, none,
        List.take_zero, List.sum_cons, List.sum_nil, List.length_singleton, Int.add_zero]
    · rw [List.filter_cons_of_pos (by simpa using nonzero), left, List.take_succ_cons,
        ih _ _ (by omega), List.sum_cons, List.length_cons]
      simp only [Prod.mk.injEq]
      constructor
      · omega
      · omega
    · rw [List.filter_cons_of_neg (by simpa using nonzero), ih _ _ more]

theorem completed_or_begun (ordered : Ordered history.items) {e : AtorchStepEvent}
    (mem : e ∈ history.values) : Completed e ∨ Begun e := by
  rcases List.mem_map.mp mem with ⟨item, hitem, rfl⟩
  rcases List.eq_nil_or_concat' history.items with empty | ⟨front, last, eq⟩
  · rw [empty] at hitem
    exact absurd hitem List.not_mem_nil
  · rw [eq] at hitem ordered
    have parts := ordered_concat_iff.mp ordered
    rcases List.mem_append.mp hitem with front | last
    · exact .inl (parts.1 item front).2.1
    · rw [List.mem_singleton.mp last]
      exact parts.2.2.2

/-- A step that has not ended has no time. -/
theorem filter_endedTimes (ordered : Ordered history.items) :
    (history.values.reverse.map AtorchStepEvent.stepTime).filter (· ≠ 0) =
      (endedTimes history).filter (· ≠ 0) := by
  rw [endedTimes, List.filter_map, List.filter_map, ← List.filter_reverse, List.filter_filter]
  congr 1
  apply List.filter_congr
  intro e he
  rcases completed_or_begun ordered (List.mem_reverse.mp he) with completed | open'
  · simp [completed.state]
  · simp [open'.stepTime]

theorem endedTimes_nonneg (ordered : Ordered history.items) : ∀ c ∈ endedTimes history, 0 ≤ c := by
  intro c hc
  rcases List.mem_map.mp hc with ⟨e, he, rfl⟩
  rw [List.mem_reverse, List.mem_filter, decide_eq_true_eq] at he
  rcases completed_or_begun ordered he.1 with completed | open'
  · rw [completed.stepTime]
    have le := completed.le
    omega
  · rw [open'.stepTime]

theorem lastStepsAvgTime_eq (ordered : Ordered history.items)
    (enough : lastSteps ≤ history.items.length) :
    lastStepsAvgTime history lastSteps =
      if (((endedTimes history).filter (· ≠ 0)).take (max lastSteps 1)).length = 0 then
        .error .zeroDivisionError
      else .ok (some ((((endedTimes history).filter (· ≠ 0)).take (max lastSteps 1)).sum /
        (((endedTimes history).filter (· ≠ 0)).take (max lastSteps 1)).length)) := by
  rw [lastStepsAvgTime, length_keys, if_neg (Nat.not_lt.mpr enough),
    sumSteps_eq lastSteps _ 0 0 (by omega), filter_endedTimes ordered]
  simp only [Int.zero_add, Nat.zero_add, Nat.sub_zero]

/-- The average is right exactly if the history is short, or steps have ended and none of the most
recent ones took no time. -/
theorem goodAverage_iff (ordered : Ordered history.items) :
    GoodAverage history lastSteps ↔ AverageOk history lastSteps := by
  rcases Nat.lt_or_ge history.items.length lastSteps with short | enough
  · refine iff_of_true (.inl ?_) (.inl short)
    rw [lastStepsAvgTime, length_keys, if_pos short]
  · have average := lastStepsAvgTime_eq ordered enough
    have not_none : lastStepsAvgTime history lastSteps ≠ .ok none := by
      rw [average]
      split_ifs <;> simp
    rw [GoodAverage, AverageOk, or_iff_right not_none, or_iff_right (Nat.not_lt.mpr enough),
      average]
    apply and_congr_right
    intro some
    by_cases mem : 0 ∈ recentTimes history lastSteps
    · refine iff_of_false ?_ (not_not.mpr mem)
      split_ifs with none
      · simp
      · have filtered := mt List.length_eq_zero_iff.mpr none
        have lt := mean_lt_of_mem (endedTimes_nonneg ordered) mem filtered
        rw [Except.ok.injEq, Option.some_inj]
        exact ne_of_gt lt
    · have same := take_filter_of_not_mem mem
      have length : (recentTimes history lastSteps).length ≠ 0 :=
        mt List.length_eq_zero_iff.mp some
      rw [same]
      refine iff_of_true ?_ mem
      exact if_neg length

end Average

/-! ### Runs -/

/-- The call is as it should be. -/
def Good (maxEvents : Nat) (history : StepHistory) : StepCall → Prop
  | .add kind event now => GoodResult history (addEvent maxEvents kind history event now)
  | .average lastSteps => GoodAverage history lastSteps

def CallOk (maxEvents : Nat) (history : StepHistory) : StepCall → Prop
  | .add kind event _ => AddOk maxEvents kind history event
  | .average lastSteps => AverageOk history lastSteps

instance (maxEvents : Nat) (history : StepHistory) (call : StepCall) :
    Decidable (CallOk maxEvents history call) := by
  cases call <;> unfold CallOk <;> infer_instance

section Runs

variable {maxEvents : Nat} {history : StepHistory} {calls : List StepCall}

theorem good_iff (pos : 0 < maxEvents) (wf : WellFormed maxEvents history) (call : StepCall) :
    Good maxEvents history call ↔ CallOk maxEvents history call := by
  cases call with
  | add kind event now => exact goodAdd_iff pos wf
  | average lastSteps => exact goodAverage_iff wf.ordered

theorem wellFormed_empty : WellFormed maxEvents .empty := ⟨Nat.zero_le _, ordered_nil⟩

theorem wellFormed_step (pos : 0 < maxEvents) {next : StepHistory} {call : StepCall}
    (wf : WellFormed maxEvents history) (taken : step maxEvents history call = some next) :
    WellFormed maxEvents next := by
  cases call with
  | add kind event now =>
    cases taken
    exact wellFormed_addEvent pos wf
  | average lastSteps =>
    cases taken
    exact wf

/-- After any calls the history is well formed; and all calls were right exactly if, whenever the
history was full, it had more than one entry and the event was accepted, and whenever an average was
asked for, the history was short or its most recent steps took some time. -/
theorem history_iff (pos : 0 < maxEvents)
    (run : Run (step maxEvents) anyStep .empty calls history) :
    WellFormed maxEvents history ∧
      (Run (step maxEvents) (Good maxEvents) .empty calls history ↔
        Run (step maxEvents) (CallOk maxEvents) .empty calls history) := by
  have keep : ∀ t u a, WellFormed maxEvents t → step maxEvents t a = some u →
      WellFormed maxEvents u := fun t u a wf taken ↦ wellFormed_step pos wf taken
  refine ⟨run.invariant wellFormed_empty fun t u a wf _ ↦ keep t u a wf, ?_, ?_⟩
  · exact fun good ↦ good.mono_of_invariant wellFormed_empty keep fun u a wf ↦
      (good_iff pos wf a).mp
  · exact fun ok ↦ ok.mono_of_invariant wellFormed_empty keep fun u a wf ↦
      (good_iff pos wf a).mpr

end Runs

/-- A step is reported to begin. -/
def stepBegins (timestamp step : Int) : StepCall :=
  .add .step ⟨some timestamp, some step, "#step", .begin⟩ timestamp

/-- A step is reported to end. -/
def stepEnds (timestamp step : Int) : StepCall :=
  .add .step ⟨some timestamp, some step, "#step", .finish⟩ timestamp

/-- Two steps in a history of two entries. -/
theorem history_iff_two :
    ∃ history, Run (step 2) (Good 2) .empty [stepBegins 10 0, stepEnds 15 1, stepBegins 16 1,
        .average 1, stepEnds 20 2, .average 1] history ∧ WellFormed 2 history := by
  have ok : ∃ history, Run (step 2) (CallOk 2) .empty [stepBegins 10 0, stepEnds 15 1,
      stepBegins 16 1, .average 1, stepEnds 20 2, .average 1] history ∧ true = true :=
    run_of_guarded_any (by decide +kernel)
  rcases ok with ⟨history, run, -⟩
  have both := history_iff (by decide) (run.mono fun _ _ _ ↦ trivial)
  exact ⟨history, both.2.mpr run, both.1⟩

/-- The second event fails when one entry is kept, a repeated one costs a full history its first
entry, and there is no average before a step has ended. -/
theorem history_not_good :
    (∃ history, Run (step 1) anyStep .empty [stepBegins 10 0] history ∧
      ¬Good 1 history (stepEnds 15 1)) ∧
    (∃ history, Run (step 2) anyStep .empty [stepBegins 10 0, stepEnds 15 1, stepBegins 16 1]
        history ∧ ¬Good 2 history (stepBegins 16 1)) ∧
    ∃ history, Run (step 100) anyStep .empty [stepBegins 10 0] history ∧
      ¬Good 100 history (.average 1) := by
  have not_good : ∀ (maxEvents : Nat) (history : StepHistory) (calls : List StepCall)
      (call : StepCall), 0 < maxEvents → Run (step maxEvents) anyStep .empty calls history →
        (!decide (CallOk maxEvents history call)) = true → ¬Good maxEvents history call := by
    intro maxEvents history calls call pos run test good
    have wf := run.invariant wellFormed_empty fun t u a wf _ ↦ wellFormed_step pos wf
    simp [(good_iff pos wf call).mp good] at test
  have single : ∃ history, Run (step 1) anyStep .empty [stepBegins 10 0] history ∧
      (!decide (CallOk 1 history (stepEnds 15 1))) = true := run_of_any (by decide +kernel)
  have repeated : ∃ history, Run (step 2) anyStep .empty
      [stepBegins 10 0, stepEnds 15 1, stepBegins 16 1] history ∧
        (!decide (CallOk 2 history (stepBegins 16 1))) = true := run_of_any (by decide +kernel)
  have early : ∃ history, Run (step 100) anyStep .empty [stepBegins 10 0] history ∧
      (!decide (CallOk 100 history (.average 1))) = true := run_of_any (by decide +kernel)
  refine ⟨?_, ?_, ?_⟩
  · rcases single with ⟨history, run, test⟩
    exact ⟨history, run, not_good _ _ _ _ (by decide) run test⟩
  · rcases repeated with ⟨history, run, test⟩
    exact ⟨history, run, not_good _ _ _ _ (by decide) run test⟩
  · rcases early with ⟨history, run, test⟩
    exact ⟨history, run, not_good _ _ _ _ (by decide) run test⟩

end StepEvents

end ProbingBaselines.Dlrover
