import Mathlib.Data.List.Basic
import ProbingBaselines.Lib.Dict
import ProbingBaselines.Lib.Run

/-!
# The queue of diagnosis actions

`DiagnosisActionQueue` (`diagnosis/common/diagnosis_action.py:329-400`) keeps one deque of actions
for each instance. `add_action` scans the deque before it appends; `next_action` takes actions from
the front, sets those aside that are not due, and puts them back or makes them the new deque. Each
test of an action reads the clock anew; a call carries its readings, by the position of the action
in the scan.
-/

namespace ProbingBaselines.Dlrover

open Lib

/-- `DiagnosisActionType` (`diagnosis/common/constants.py:71-90`). -/
inductive DiagnosisActionType where
  | none
  | any
  | log
  | jobAbort
  | jobRestart
  | masterRelaunchWorker
  | event
  | restartWorker
  | relaunchWorker
  | collectMetric
  | restartJob
  | abortJob
  deriving DecidableEq

/-- The fields of an `EventAction` that `is_same_action` compares. -/
structure EventFields where
  eventType : String
  eventMsg : String
  deriving DecidableEq

/-- A `DiagnosisAction` (`diagnosis_action.py:29-64`); `event` is there for an `EventAction`. Times
are in seconds. -/
structure DiagnosisAction where
  actionType : DiagnosisActionType
  instanceId : Int
  timestamp : Int
  expiredTimePeriod : Int
  executableTimePeriod : Int
  event : Option EventFields
  deriving DecidableEq

/-- `has_expired` (`util/time_util.py:22-34`) at a reading of the clock. -/
def hasExpired (timestamp timePeriod now : Int) : Bool := timestamp + timePeriod ≤ now

namespace DiagnosisAction

/-- `is_expired` (`diagnosis_action.py:89-90`). -/
def isExpired (a : DiagnosisAction) (now : Int) : Bool :=
  hasExpired a.timestamp a.expiredTimePeriod now

/-- `is_executable` (`diagnosis_action.py:92-93`). -/
def isExecutable (a : DiagnosisAction) (now : Int) : Bool :=
  hasExpired a.timestamp a.executableTimePeriod now

/-- `is_needed` (`diagnosis_action.py:112-116`). -/
def isNeeded (a : DiagnosisAction) (now : Int) : Bool := !a.isExpired now && a.actionType ≠ .none

end DiagnosisAction

/-- The readings made while one queued action is examined by `add_action`: in `is_same_action` for
the new and for the queued action, and in `is_needed`. -/
structure AddReading where
  newExpired : Int
  queuedExpired : Int
  needed : Int

/-- The readings made while one action is examined by `next_action`. -/
structure NextReading where
  expired : Int
  executable : Int

/-- `is_same_action` (`diagnosis_action.py:316-328`). -/
def isSameAction (r : AddReading) (action1 action2 : DiagnosisAction) : Bool :=
  match action1.event, action2.event with
  | some e1, some e2 =>
    e1.eventType = e2.eventType && action1.instanceId = action2.instanceId &&
      action1.actionType = action2.actionType && e1.eventMsg = e2.eventMsg &&
      !action1.isExpired r.newExpired && !action2.isExpired r.queuedExpired
  | _, _ => false

/-- A `deque`; without `maxlen` it is unbounded. -/
structure ActionDeque where
  maxlen : Option Nat
  items : List DiagnosisAction

namespace ActionDeque

/-- `append`: a full deque drops its first item. -/
def append (d : ActionDeque) (a : DiagnosisAction) : ActionDeque :=
  if d.maxlen = some d.items.length then { d with items := (d.items ++ [a]).tail }
  else { d with items := d.items ++ [a] }

/-- `appendleft`: a full deque drops its last item. -/
def appendleft (d : ActionDeque) (a : DiagnosisAction) : ActionDeque :=
  if d.maxlen = some d.items.length then { d with items := (a :: d.items).dropLast }
  else { d with items := a :: d.items }

end ActionDeque

/-- `DiagnosisConstant.MAX_ACTION_QUEUE_SIZE` (`constants.py:44`). -/
def maxActionQueueSize : Nat := 1000

/-- The deques by instance. -/
abbrev DiagnosisActionQueue := Dict Int ActionDeque

namespace DiagnosisActionQueue

/-- The loop of `add_action` returns at the first queued action that is the same or that is not
needed (`diagnosis_action.py:343-348`). -/
def blocked (newAction : DiagnosisAction) : List DiagnosisAction → (Nat → AddReading) → Bool
  | [], _ => false
  | action :: rest, clock =>
    isSameAction (clock 0) newAction action || !action.isNeeded (clock 0).needed ||
      blocked newAction rest fun i ↦ clock (i + 1)

/-- `add_action` (`diagnosis_action.py:334-352`). -/
def addAction (q : DiagnosisActionQueue) (newAction : DiagnosisAction) (clock : Nat → AddReading) :
    DiagnosisActionQueue :=
  let q := if newAction.instanceId ∈ q then q
    else q.insert newAction.instanceId ⟨some maxActionQueueSize, []⟩
  match q.get? newAction.instanceId with
  | some actions =>
    if blocked newAction actions.items clock then q
    else q.insert newAction.instanceId (actions.append newAction)
  | none => q

/-- The loop of `next_action` (`diagnosis_action.py:377-396`) over the actions that are left and
those set aside: the action found with the two lists at that point, or the final list. -/
def nextLoop : List DiagnosisAction → List DiagnosisAction → (Nat → NextReading) →
    Option DiagnosisAction × List DiagnosisAction × List DiagnosisAction
  | [], waiting, _ => (none, [], waiting)
  | action :: actions, waiting, clock =>
    if action.isExpired (clock 0).expired then nextLoop actions waiting fun i ↦ clock (i + 1)
    else if action.isExecutable (clock 0).executable then (some action, actions, waiting)
    else nextLoop actions (waiting ++ [action]) fun i ↦ clock (i + 1)

/-- `next_action` (`diagnosis_action.py:363-400`): the action returned, `none` for a `NoAction`, and
the queue after the call. -/
def nextAction (q : DiagnosisActionQueue) (inst : Int) (clock : Nat → NextReading) :
    Option DiagnosisAction × DiagnosisActionQueue :=
  match q.get? inst with
  | none => (none, q)
  | some actions =>
    if actions.items = [] then (none, q)
    else match nextLoop actions.items [] clock with
      | (some action, left, waiting) =>
        (some action,
          q.insert inst (waiting.foldr (fun w d ↦ d.appendleft w) { actions with items := left }))
      | (none, _, waiting) => (none, q.insert inst ⟨none, waiting⟩)

/-- The actions queued for an instance. -/
def queued (q : DiagnosisActionQueue) (inst : Int) : List DiagnosisAction :=
  (q.get? inst).elim [] ActionDeque.items

end DiagnosisActionQueue

/-- A call; `now` is the time at which the need for a new action is judged, which the code does not
do. -/
inductive QueueAct where
  | addAction (newAction : DiagnosisAction) (now : Int) (clock : Nat → AddReading)
  | nextAction (inst : Int) (clock : Nat → NextReading)

namespace DiagnosisActionQueue

def step (q : DiagnosisActionQueue) : QueueAct → Option DiagnosisActionQueue
  | .addAction newAction _ clock => some (q.addAction newAction clock)
  | .nextAction inst clock => some (q.nextAction inst clock).2

/-- The listed actions that are not expired, each at its reading. -/
def unexpired : List DiagnosisAction → (Nat → NextReading) → List DiagnosisAction
  | [], _ => []
  | action :: rest, clock =>
    (if action.isExpired (clock 0).expired then [] else [action]) ++
      unexpired rest fun i ↦ clock (i + 1)

/-- An action that may be returned at the `i`-th place of the scan. -/
def Due (clock : Nat → NextReading) (i : Nat) (a : DiagnosisAction) : Prop :=
  a.isExpired (clock i).expired = false ∧ a.isExecutable (clock i).executable = true

/-- What `next_action` has to do with a list of actions: return the first that is due, drop the
expired ones before it, and keep all others in their order. -/
def NextMeets (clock : Nat → NextReading) (actions : List DiagnosisAction)
    (found : Option DiagnosisAction) (left : List DiagnosisAction) : Prop :=
  match found with
  | none => (∀ i a, actions[i]? = some a → ¬ Due clock i a) ∧ left = unexpired actions clock
  | some a => ∃ front back, actions = front ++ a :: back ∧ Due clock front.length a ∧
    (∀ i b, front[i]? = some b → ¬ Due clock i b) ∧ left = unexpired front clock ++ back

/-- No queued action is the same as the new one. -/
def NoneSame (newAction : DiagnosisAction) (actions : List DiagnosisAction)
    (clock : Nat → AddReading) : Prop :=
  ∀ i a, actions[i]? = some a → isSameAction (clock i) newAction a = false

/-- What a call has to do to the queue. -/
def CallMeets (q q' : DiagnosisActionQueue) : QueueAct → Prop
  | .addAction newAction now clock =>
    (newAction.isNeeded now → NoneSame newAction (q.queued newAction.instanceId) clock →
      q'.queued newAction.instanceId =
        (if (q.queued newAction.instanceId).length = maxActionQueueSize
          then (q.queued newAction.instanceId).tail else q.queued newAction.instanceId) ++
          [newAction]) ∧
    ∀ inst, inst ≠ newAction.instanceId → q'.queued inst = q.queued inst
  | .nextAction inst clock =>
    NextMeets clock (q.queued inst) (q.nextAction inst clock).1 (q'.queued inst) ∧
    ∀ other, other ≠ inst → q'.queued other = q.queued other

/-- No deque is longer than allowed. -/
def Bounded (q : DiagnosisActionQueue) : Prop :=
  ∀ inst, (q.queued inst).length ≤ maxActionQueueSize

/-- Nothing queued is unneeded when a needed action is added that is not the same as a queued one,
and an unbounded deque to which an action is appended has room. -/
def Admits (q : DiagnosisActionQueue) : QueueAct → Prop
  | .addAction newAction now clock =>
    (newAction.isNeeded now → NoneSame newAction (q.queued newAction.instanceId) clock →
      ∀ i (a : DiagnosisAction), (q.queued newAction.instanceId)[i]? = some a →
        a.isNeeded (clock i).needed) ∧
    ∀ d ∈ q.get? newAction.instanceId, d.maxlen = none → blocked newAction d.items clock = false →
      d.items.length < maxActionQueueSize
  | .nextAction _ _ => True

/-! ### One call -/

theorem unexpired_length (actions : List DiagnosisAction) :
    ∀ clock, (unexpired actions clock).length ≤ actions.length := by
  induction actions with
  | nil => exact fun clock ↦ Nat.le_refl 0
  | cons a actions ih =>
    intro clock
    have := ih fun i ↦ clock (i + 1)
    rw [unexpired, List.length_append, List.length_cons]
    split <;> simp <;> omega

/-- The scan of `add_action` goes through exactly if every queued action differs and is needed. -/
theorem blocked_eq_false {newAction : DiagnosisAction} (actions : List DiagnosisAction) :
    ∀ clock, blocked newAction actions clock = false ↔
      NoneSame newAction actions clock ∧
        ∀ i (a : DiagnosisAction), actions[i]? = some a → a.isNeeded (clock i).needed := by
  induction actions with
  | nil => simp [blocked, NoneSame]
  | cons action rest ih =>
    intro clock
    rw [blocked, Bool.or_eq_false_iff, Bool.or_eq_false_iff, ih, Bool.not_eq_false', NoneSame,
      NoneSame]
    constructor
    · rintro ⟨⟨differs, needed⟩, restDiffer, restNeeded⟩
      constructor <;> intro i a found
      · cases i with
        | zero => exact Option.some.inj found ▸ differs
        | succ i => exact restDiffer i a found
      · cases i with
        | zero => exact Option.some.inj found ▸ needed
        | succ i => exact restNeeded i a found
    · rintro ⟨differ, needed⟩
      exact ⟨⟨differ 0 action rfl, needed 0 action rfl⟩, fun i ↦ differ (i + 1),
        fun i ↦ needed (i + 1)⟩

/-- A property of all actions of the scan, one after the other. -/
theorem not_due_cons {clock : Nat → NextReading} {action : DiagnosisAction}
    {rest : List DiagnosisAction} (first : ¬ Due clock 0 action)
    (others : ∀ i a, rest[i]? = some a → ¬ Due (fun i ↦ clock (i + 1)) i a) :
    ∀ i a, (action :: rest)[i]? = some a → ¬ Due clock i a := by
  intro i a found
  cases i with
  | zero => exact Option.some.inj found ▸ first
  | succ i => exact others i a found

/-- The scan of `next_action` ends at the first action that is due, if there is one; the actions
before it that are not expired are set aside. -/
theorem nextLoop_cases (actions : List DiagnosisAction) : ∀ waiting clock,
    ((∀ i a, actions[i]? = some a → ¬ Due clock i a) ∧
      nextLoop actions waiting clock = (none, [], waiting ++ unexpired actions clock)) ∨
    ∃ front a back, actions = front ++ a :: back ∧ Due clock front.length a ∧
      (∀ i b, front[i]? = some b → ¬ Due clock i b) ∧
      nextLoop actions waiting clock = (some a, back, waiting ++ unexpired front clock) := by
  induction actions with
  | nil => exact fun waiting clock ↦ .inl ⟨by simp, by simp [nextLoop, unexpired]⟩
  | cons action rest ih =>
    intro waiting clock
    rw [nextLoop]
    split
    · next expired =>
      have skip : ¬ Due clock 0 action := fun due ↦ by simp [due.1] at expired
      rcases ih waiting fun i ↦ clock (i + 1) with
        ⟨none, eq⟩ | ⟨front, a, back, eq, due, early, loop⟩
      · refine .inl ⟨not_due_cons skip none, ?_⟩
        rw [eq, unexpired, if_pos expired, List.nil_append]
      · refine .inr ⟨action :: front, a, back, by rw [eq]; rfl, due, not_due_cons skip early, ?_⟩
        rw [loop, unexpired, if_pos expired, List.nil_append]
    · next unexp =>
      split
      · next executable =>
        refine .inr ⟨[], action, rest, rfl, ⟨by simpa using unexp, executable⟩, by simp, ?_⟩
        rw [unexpired, List.append_nil]
      · next early =>
        have skip : ¬ Due clock 0 action := fun due ↦ early due.2
        rcases ih (waiting ++ [action]) fun i ↦ clock (i + 1) with
          ⟨none, eq⟩ | ⟨front, a, back, eq, due, before, loop⟩
        · refine .inl ⟨not_due_cons skip none, ?_⟩
          rw [eq, unexpired, if_neg unexp, List.append_assoc]
        · refine .inr ⟨action :: front, a, back, by rw [eq]; rfl, due, not_due_cons skip before, ?_⟩
          rw [loop, unexpired, if_neg unexp, List.append_assoc]

/-- Putting actions back at the front of a deque with room for them. -/
theorem foldr_appendleft (waiting : List DiagnosisAction) {d : ActionDeque}
    (room : ∀ n ∈ d.maxlen, waiting.length + d.items.length ≤ n) :
    waiting.foldr (fun w d ↦ d.appendleft w) d = { d with items := waiting ++ d.items } := by
  induction waiting with
  | nil => rfl
  | cons w waiting ih =>
    rw [List.foldr_cons, ih]
    · rw [ActionDeque.appendleft, if_neg]
      · rfl
      · intro full
        have := room _ full
        simp only [List.length_cons, List.length_append] at this
        omega
    · intro n hn
      have := room n hn
      rw [List.length_cons] at this
      omega

theorem queued_insert (q : DiagnosisActionQueue) (inst other : Int) (d : ActionDeque) :
    queued (q.insert inst d) other = if other = inst then d.items else q.queued other := by
  rw [queued, Dict.get?_insert]
  split <;> rfl

/-! ### Runs -/

/-- Every deque is within the bound, its own one included. -/
def Fits (q : DiagnosisActionQueue) : Prop :=
  ∀ inst, ∀ d ∈ q.get? inst, d.items.length ≤ maxActionQueueSize ∧
    (d.maxlen = none ∨ d.maxlen = some maxActionQueueSize)

theorem Fits.insert {q : DiagnosisActionQueue} (h : q.Fits) (inst : Int) {d : ActionDeque}
    (length : d.items.length ≤ maxActionQueueSize)
    (maxlen : d.maxlen = none ∨ d.maxlen = some maxActionQueueSize) :
    Fits (q.insert inst d) := by
  intro other d' found
  rw [Dict.get?_insert] at found
  split at found
  · cases found
    exact ⟨length, maxlen⟩
  · exact h other d' found

theorem Fits.bounded {q : DiagnosisActionQueue} (h : q.Fits) : q.Bounded := by
  intro inst
  rw [queued]
  cases found : q.get? inst with
  | none => exact Nat.zero_le _
  | some d => exact (h inst d found).1

/-- The queue with a deque for the instance; `add_action` makes a bounded one if there is none. -/
def withDeque (q : DiagnosisActionQueue) (inst : Int) : DiagnosisActionQueue :=
  if inst ∈ q then q else q.insert inst ⟨some maxActionQueueSize, []⟩

/-- It queues the same actions, and its deque is the old one or has the bound. -/
theorem withDeque_spec {q : DiagnosisActionQueue} (inst : Int) (h : q.Fits) :
    (q.withDeque inst).Fits ∧ (∀ other, (q.withDeque inst).queued other = q.queued other) ∧
      ∃ d, (q.withDeque inst).get? inst = some d ∧ d.items = q.queued inst ∧
        (q.get? inst = some d ∨ d.maxlen = some maxActionQueueSize) := by
  rw [withDeque]
  split
  · next known =>
    refine ⟨h, fun other ↦ rfl, ?_⟩
    cases found : q.get? inst with
    | none => exact absurd known (Dict.get?_eq_none_iff.mp found)
    | some d => exact ⟨d, rfl, by rw [queued, found]; rfl, .inl rfl⟩
  · next fresh =>
    have none := Dict.get?_eq_none_iff.mpr fresh
    have empty : q.queued inst = [] := by rw [queued, none]; rfl
    refine ⟨h.insert inst (Nat.zero_le _) (.inr rfl), ?_, _, Dict.get?_insert.trans (if_pos rfl),
      empty.symm, .inr rfl⟩
    intro other
    rw [queued_insert]
    split
    · next eq => rw [eq, empty]
    · rfl

theorem addAction_eq {q : DiagnosisActionQueue} {newAction : DiagnosisAction} {d : ActionDeque}
    (clock : Nat → AddReading) (found : (q.withDeque newAction.instanceId).get?
      newAction.instanceId = some d) :
    q.addAction newAction clock = if blocked newAction d.items clock
      then q.withDeque newAction.instanceId
      else (q.withDeque newAction.instanceId).insert newAction.instanceId (d.append newAction) := by
  rw [withDeque] at found
  simp only [addAction, found, withDeque]

/-- Appending to a deque that is within the bound, and below it if it is unbounded. -/
theorem append_spec {d : ActionDeque} (a : DiagnosisAction)
    (length : d.items.length ≤ maxActionQueueSize)
    (maxlen : d.maxlen = some maxActionQueueSize ∨
      d.maxlen = none ∧ d.items.length < maxActionQueueSize) :
    (d.append a).maxlen = d.maxlen ∧ (d.append a).items.length ≤ maxActionQueueSize ∧
      (d.append a).items =
        (if d.items.length = maxActionQueueSize then d.items.tail else d.items) ++ [a] := by
  have pos : 0 < maxActionQueueSize := by decide
  rw [ActionDeque.append]
  by_cases full : d.items.length = maxActionQueueSize
  · have bound : d.maxlen = some d.items.length := by
      rcases maxlen with bound | ⟨-, room⟩
      · rw [bound, full]
      · omega
    rw [if_pos bound, if_pos full]
    refine ⟨rfl, ?_, ?_⟩
    · simp only [List.length_tail, List.length_append, List.length_singleton]
      omega
    · apply List.tail_append_of_ne_nil
      intro nil
      rw [nil] at full
      simp only [List.length_nil] at full
      omega
  · have room : d.maxlen ≠ some d.items.length := by
      rcases maxlen with bound | ⟨none, -⟩
      · rw [bound]
        intro eq
        exact full (Option.some.inj eq).symm
      · rw [none]
        simp
    rw [if_neg room, if_neg full]
    refine ⟨rfl, ?_, rfl⟩
    simp only [List.length_append, List.length_singleton]
    omega

theorem addAction_fits {q : DiagnosisActionQueue} {newAction : DiagnosisAction} {now : Int}
    {clock : Nat → AddReading} (h : q.Fits) (admits : q.Admits (.addAction newAction now clock)) :
    (q.addAction newAction clock).Fits ∧
      CallMeets q (q.addAction newAction clock) (.addAction newAction now clock) := by
  rcases withDeque_spec newAction.instanceId h with ⟨fits, same, d, found, items, origin⟩
  have bound := fits _ d found
  rw [addAction_eq clock found]
  split
  · next stops =>
    refine ⟨fits, ?_, fun inst _ ↦ same inst⟩
    intro needed differs
    have goesOn := (blocked_eq_false _ clock).mpr ⟨differs, admits.1 needed differs⟩
    rw [← items, stops] at goesOn
    contradiction
  · next goesOn =>
    have maxlen : d.maxlen = some maxActionQueueSize ∨
        d.maxlen = none ∧ d.items.length < maxActionQueueSize := by
      rcases origin with old | fresh
      · rcases bound.2 with none | some
        · exact .inr ⟨none, admits.2 d old none (by simpa using goesOn)⟩
        · exact .inl some
      · exact .inl fresh
    rcases append_spec newAction bound.1 maxlen with ⟨kept, length, appended⟩
    refine ⟨fits.insert _ length (by rw [kept]; exact bound.2), ?_, ?_⟩
    · intro _ _
      rw [queued_insert, if_pos rfl, appended, items]
    · intro inst other
      rw [queued_insert, if_neg other, same]

theorem nextAction_fits {q : DiagnosisActionQueue} {inst : Int} {clock : Nat → NextReading}
    (h : q.Fits) :
    (q.nextAction inst clock).2.Fits ∧
      CallMeets q (q.nextAction inst clock).2 (.nextAction inst clock) := by
  rw [CallMeets, nextAction]
  cases found : q.get? inst with
  | none =>
    have empty : q.queued inst = [] := by rw [queued, found]; rfl
    refine ⟨h, ?_, fun other _ ↦ rfl⟩
    rw [empty]
    exact ⟨by simp, rfl⟩
  | some actions =>
    have items : q.queued inst = actions.items := by rw [queued, found]; rfl
    have bound := h inst actions found
    simp only
    split
    · next none =>
      refine ⟨h, ?_, fun other _ ↦ rfl⟩
      rw [items, none]
      exact ⟨by simp, rfl⟩
    · rcases nextLoop_cases actions.items [] clock with
        ⟨none, loop⟩ | ⟨front, a, back, split, due, early, loop⟩
      · rw [loop, List.nil_append]
        have shorter := unexpired_length actions.items clock
        refine ⟨h.insert inst (by simp only; omega) (.inl rfl), ?_, ?_⟩
        · rw [queued_insert, if_pos rfl, items]
          exact ⟨none, rfl⟩
        · intro other ne
          rw [queued_insert, if_neg ne]
      · rw [loop, List.nil_append]
        have shorter := unexpired_length front clock
        have length : actions.items.length = front.length + (back.length + 1) := by
          rw [split, List.length_append, List.length_cons]
        have back_eq := foldr_appendleft (unexpired front clock)
          (d := { actions with items := back }) (by
            intro n hn
            rcases bound.2 with none | some
            · rw [none] at hn
              contradiction
            · rw [some] at hn
              cases hn
              simp only
              omega)
        simp only [back_eq]
        refine ⟨h.insert inst (by simp only [List.length_append]; omega) bound.2, ?_, ?_⟩
        · rw [queued_insert, if_pos rfl, items]
          exact ⟨front, back, split, due, early, rfl⟩
        · intro other ne
          rw [queued_insert, if_neg ne]

/-- Every call does to a queue within its bounds what it has to do, and keeps the bounds. -/
theorem step_fits {q q' : DiagnosisActionQueue} {a : QueueAct} (admits : q.Admits a)
    (taken : q.step a = some q') (h : q.Fits) : q'.Fits ∧ CallMeets q q' a := by
  cases a with
  | addAction newAction now clock =>
    cases taken
    exact addAction_fits h admits
  | nextAction inst clock =>
    cases taken
    exact nextAction_fits h

theorem run_fits {q : DiagnosisActionQueue} {acts : List QueueAct}
    (run : Run step Admits Dict.empty acts q) : q.Fits := by
  apply run.invariant (P := Fits)
  · intro inst d found
    contradiction
  · intro t u a h admits taken
    exact (step_fits admits taken h).1

/-- In every run whose calls meet the condition the queue stays within its bound, and the next call
that meets it adds or returns what it has to and keeps the rest. -/
theorem diagnosisActionQueue_keeps {q : DiagnosisActionQueue} {acts : List QueueAct}
    (run : Run step Admits Dict.empty acts q) :
    q.Bounded ∧ ∀ a q', q.Admits a → q.step a = some q' → CallMeets q q' a := by
  refine ⟨(run_fits run).bounded, ?_⟩
  intro a q' admits taken
  exact (step_fits admits taken (run_fits run)).2

/-! ### Calls at one time -/

/-- An action that is due `executable` seconds after it was made and expires after 60. -/
def actionDueAfter (executable : Int) : DiagnosisAction :=
  ⟨.relaunchWorker, 0, 100, 60, executable, none⟩

/-- Two actions are queued, and the one that is due leaves the queue before the other. -/
theorem diagnosisActionQueue_keeps_run :
    ∃ q : DiagnosisActionQueue, q.queued 0 = [actionDueAfter 50, actionDueAfter 0] ∧
      (q.nextAction 0 fun _ ↦ ⟨110, 110⟩).1 = some (actionDueAfter 0) ∧ q.Bounded ∧
      CallMeets q (q.nextAction 0 fun _ ↦ ⟨110, 110⟩).2 (.nextAction 0 fun _ ↦ ⟨110, 110⟩) := by
  have first : Run step Admits Dict.empty
      [.addAction (actionDueAfter 50) 110 fun _ ↦ ⟨110, 110, 110⟩] _ :=
    .snoc (l := []) _ .nil ⟨by simp [queued, Dict.get?], by simp [Dict.get?]⟩ rfl
  have admits : Admits (addAction .empty (actionDueAfter 50) fun _ ↦ ⟨110, 110, 110⟩)
      (.addAction (actionDueAfter 0) 110 fun _ ↦ ⟨110, 110, 110⟩) := by
    constructor
    · intro _ _ i a found
      have mem : a ∈ [actionDueAfter 50] := List.mem_of_getElem? found
      rw [List.mem_singleton.mp mem]
      rfl
    · intro d found unbounded
      cases found
      contradiction
  have run := first.snoc _ admits rfl
  have keeps := diagnosisActionQueue_keeps run
  exact ⟨_, by decide, by decide, keeps.1, keeps.2 (.nextAction 0 fun _ ↦ ⟨110, 110⟩) _ trivial rfl⟩

/-- An unbounded deque grows with every action that is added. -/
theorem addAction_unbounded {q : DiagnosisActionQueue} {k : Nat}
    (h : q.get? 0 = some ⟨none, List.replicate k (actionDueAfter 50)⟩) :
    (q.addAction (actionDueAfter 50) fun _ ↦ ⟨110, 110, 110⟩).get? 0 =
      some ⟨none, List.replicate (k + 1) (actionDueAfter 50)⟩ := by
  have known : (0 : Int) ∈ q := by
    by_contra fresh
    rw [Dict.get?_eq_none_iff.mpr fresh] at h
    contradiction
  have goesOn : blocked (actionDueAfter 50) (List.replicate k (actionDueAfter 50))
      (fun _ ↦ ⟨110, 110, 110⟩) = false := by
    rw [blocked_eq_false]
    constructor
    · intro i a _
      rfl
    · intro i a found
      rw [List.eq_of_mem_replicate (List.mem_of_getElem? found)]
      decide
  have key : (actionDueAfter 50).instanceId = 0 := rfl
  simp only [addAction, key, if_pos known, h, goesOn, Bool.false_eq_true, if_false]
  rw [Dict.get?_insert, if_pos rfl, ActionDeque.append, if_neg (by simp), List.replicate_succ']

/-- Once `next_action` has replaced a deque, it can hold any number of actions. -/
theorem queue_unbounded (k : Nat) :
    ∃ acts q, Run step anyStep Dict.empty acts q ∧
      q.get? 0 = some ⟨none, List.replicate (k + 1) (actionDueAfter 50)⟩ := by
  induction k with
  | zero =>
    have run : Run step anyStep Dict.empty
        [.addAction (actionDueAfter 50) 110 fun _ ↦ ⟨110, 110, 110⟩,
          .nextAction 0 fun _ ↦ ⟨110, 110⟩] _ := run_of_foldlM rfl
    exact ⟨_, _, run, rfl⟩
  | succ k ih =>
    obtain ⟨acts, q, run, found⟩ := ih
    exact ⟨_, _, run.snoc (.addAction (actionDueAfter 50) 110 fun _ ↦ ⟨110, 110, 110⟩) trivial rfl,
      addAction_unbounded found⟩

/-- A needed action is not added while an expired one is queued, and the queue can outgrow its
bound. -/
theorem diagnosisActionQueue_loses :
    (∃ acts q a q', Run step anyStep Dict.empty acts q ∧ step q a = some q' ∧ ¬ CallMeets q q' a) ∧
      ∃ acts q, Run step anyStep Dict.empty acts q ∧ ¬ Bounded q := by
  constructor
  · have run : Run step anyStep Dict.empty
        [.addAction (actionDueAfter 0) 100 fun _ ↦ ⟨100, 100, 100⟩] _ := run_of_foldlM rfl
    refine ⟨_, _, .addAction { actionDueAfter 0 with timestamp := 200 } 200 fun _ ↦ ⟨200, 200, 200⟩,
      _, run, rfl, ?_⟩
    intro meets
    have appended := meets.1 (by decide) (fun _ _ _ ↦ rfl)
    exact absurd appended (by decide)
  · obtain ⟨acts, q, run, found⟩ := queue_unbounded maxActionQueueSize
    refine ⟨acts, q, run, ?_⟩
    intro bounded
    have := bounded 0
    rw [queued, found] at this
    simp only [Option.elim_some, List.length_replicate] at this
    omega

end DiagnosisActionQueue

end ProbingBaselines.Dlrover
