import Mathlib.Data.List.Infix
import ProbingBaselines.Lib.Dict
import ProbingBaselines.Lib.Run

/-!
# Duration spans and the events they export

Source `xputimer-metax/dlrover/python/training_event` (`emitter.py`, `event.py`, `exporter.py`).
Dictionaries have addresses. The BEGIN event of a span holds a copy of its content, the END event
holds the dictionary of the span itself, and a worker formats what is in the queue later. Calls and
the formatting of an event are atomic, and the formatter does not raise.
-/

namespace ProbingBaselines.Dlrover.TrainingEvent

open Lib

universe u

variable {α : Type u}

/-- A value of a content dictionary: one that a span writes itself, or whatever a caller passes. -/
inductive ContentValue (α : Type u) where
  | bool (b : Bool)
  | str (s : String)
  | other (v : α)
  deriving DecidableEq

abbrev Content (α : Type u) := Dict String (ContentValue α)

/-- `EventType`, `event.py:48-50`. -/
inductive EventType where
  | BEGIN
  | END
  | INSTANT
  deriving DecidableEq

/-- `Event`, `event.py:59-71`, with the address of its content. The time, the process and the target
are fixed when it is made and not read here. -/
structure Event where
  eventId : String
  name : String
  eventType : EventType
  content : Nat

/-- `DurationSpan`, `emitter.py:149-154`, with the address of its content. -/
structure DurationSpan where
  name : String
  content : Nat
  isBegin : Bool
  isEnd : Bool
  eventId : String

/-- An event with, for the record, the span that emitted it and the content of the span at that
moment. -/
structure Emission (α : Type u) where
  span : Nat
  event : Event
  content : Content α

/-- The dictionaries, the spans, and the `AsyncExporter` with the event its worker holds and the
events it has formatted, each with the content it was written with. -/
structure Tracing (α : Type u) where
  contents : List (Content α)
  spans : List DurationSpan
  running : Bool
  maxQueueSize : Int
  queue : List (Emission α)
  inHand : Option (Emission α)
  formatted : List (Emission α × Content α)
  droppedEvents : Nat

namespace Tracing

/-- A new span and an empty exporter. -/
def start (running : Bool) (maxQueueSize : Int) (name : String) (content : Content α)
    (eventId : String) : Tracing α where
  contents := [content]
  spans := [⟨name, 0, false, false, eventId⟩]
  running := running
  maxQueueSize := maxQueueSize
  queue := []
  inHand := none
  formatted := []
  droppedEvents := 0

def read (s : Tracing α) (a : Nat) : Content α := s.contents[a]?.getD .empty

def write (s : Tracing α) (a : Nat) (c : Content α) : Tracing α :=
  { s with contents := s.contents.set a c }

def setSpan (s : Tracing α) (i : Nat) (span : DurationSpan) : Tracing α :=
  { s with spans := s.spans.set i span }

/-- Whether `put_nowait` raises `Full`; a size that is not positive is no bound. -/
def queueFull (s : Tracing α) : Bool := 0 < s.maxQueueSize ∧ s.maxQueueSize ≤ s.queue.length

/-- `AsyncExporter.export`, `exporter.py:95-113`. -/
def exportEvent (s : Tracing α) (e : Emission α) : Tracing α :=
  if !s.running then s
  else if s.queueFull then { s with droppedEvents := s.droppedEvents + 1 }
  else { s with queue := s.queue ++ [e] }

/-- `EventEmitter.begin` and `EventEmitter.end`, `emitter.py:54-62`, for a content at an address. -/
def emit (s : Tracing α) (i : Nat) (span : DurationSpan) (eventType : EventType) (a : Nat) :
    Tracing α :=
  s.exportEvent ⟨i, ⟨span.eventId, span.name, eventType, a⟩, s.read span.content⟩

/-- `begin`, `emitter.py:177-181`. -/
def beginSpan (s : Tracing α) (i : Nat) (span : DurationSpan) : Tracing α :=
  if span.isBegin then s
  else
    let copy := s.contents.length
    let s := { s with contents := s.contents ++ [s.read span.content] }
    (s.setSpan i { span with isBegin := true }).emit i span .BEGIN copy

/-- `end`, `emitter.py:208-215`: the event gets the dictionary of the span. -/
def endSpan (s : Tracing α) (i : Nat) (span : DurationSpan) : Tracing α :=
  if span.isEnd then s
  else if !span.isBegin then s
  else (s.setSpan i { span with isEnd := true }).emit i span .END span.content

/-- `stage`, `emitter.py:228-236`; an ended span or one that has not begun gives a stub. -/
def stage (s : Tracing α) (span : DurationSpan) (stage : String) (content : Option (Content α))
    (eventId : String) : Tracing α :=
  if span.isEnd || !span.isBegin then s
  else
    let stageContent :=
      match content with
      | none => s.read span.content
      | some content => (s.read span.content).update content
    { s with
      contents := s.contents ++ [stageContent]
      spans := s.spans ++
        [⟨span.name ++ "#" ++ stage, s.contents.length, false, false, eventId⟩] }

/-- `extra_dict`, `emitter.py:282-286`. -/
def extraDict (s : Tracing α) (span : DurationSpan) (content : Content α) : Tracing α :=
  if span.isEnd then s else s.write span.content ((s.read span.content).update content)

/-- `extra_args`, `emitter.py:257-261`. -/
def extraArgs (s : Tracing α) (span : DurationSpan) (kwargs : Content α) : Tracing α :=
  s.extraDict span kwargs

/-- The content after the assignments of `success`, `emitter.py:301,302`. -/
def successContent (kwargs content : Content α) : Content α :=
  (content.insert "success" (.bool true)).update kwargs

/-- The content after the assignments of `fail`, `emitter.py:318-320`. -/
def failContent (error : String) (kwargs content : Content α) : Content α :=
  ((content.insert "success" (.bool false)).insert "error" (.str error)).update kwargs

/-- `success`, `emitter.py:301-303`: the content changes also when the span has ended. -/
def success (s : Tracing α) (i : Nat) (span : DurationSpan) (kwargs : Content α) : Tracing α :=
  (s.write span.content (successContent kwargs (s.read span.content))).endSpan i span

/-- `fail`, `emitter.py:318-321`. -/
def fail (s : Tracing α) (i : Nat) (span : DurationSpan) (error : String) (kwargs : Content α) :
    Tracing α :=
  (s.write span.content (failContent error kwargs (s.read span.content))).endSpan i span

/-! ### Steps -/

/-- A call on a span or a step of the worker. -/
inductive Act (α : Type u) where
  | begin (i : Nat)
  | endSpan (i : Nat)
  | success (i : Nat) (kwargs : Content α)
  | fail (i : Nat) (error : String) (kwargs : Content α)
  | extraArgs (i : Nat) (kwargs : Content α)
  | extraDict (i : Nat) (content : Content α)
  | stage (i : Nat) (stage : String) (content : Option (Content α)) (eventId : String)
  | get
  | format

/-- One step; the worker's part is `exporter.py:84-93`. -/
def step (s : Tracing α) : Act α → Option (Tracing α)
  | .begin i => s.spans[i]?.map fun span ↦ s.beginSpan i span
  | .endSpan i => s.spans[i]?.map fun span ↦ s.endSpan i span
  | .success i kwargs => s.spans[i]?.map fun span ↦ s.success i span kwargs
  | .fail i error kwargs => s.spans[i]?.map fun span ↦ s.fail i span error kwargs
  | .extraArgs i kwargs => s.spans[i]?.map fun span ↦ s.extraArgs span kwargs
  | .extraDict i content => s.spans[i]?.map fun span ↦ s.extraDict span content
  | .stage i stage content eventId =>
    s.spans[i]?.map fun span ↦ s.stage span stage content eventId
  | .get =>
    match s.running, s.inHand, s.queue with
    | true, none, e :: rest => some { s with inHand := some e, queue := rest }
    | _, _, _ => none
  | .format =>
    s.inHand.map fun e ↦
      { s with inHand := none, formatted := s.formatted ++ [(e, s.read e.event.content)] }

/-! ### What the events should be -/

/-- The events of a span with their ids. -/
def eventsOf (i : Nat) (emissions : List (Emission α)) : List (EventType × String) :=
  (emissions.filter (·.span = i)).map fun e ↦ (e.event.eventType, e.event.eventId)

/-- Every span has written a BEGIN and after it an END with the same id, as far as it got, and each
with the content that the span had when it was emitted. -/
structure Frozen (s : Tracing α) : Prop where
  order : ∀ i, ∃ id, eventsOf i (s.formatted.map Prod.fst) <+: [(.BEGIN, id), (.END, id)]
  contents : ∀ x ∈ s.formatted, x.2 = x.1.content

/-- The events that wait to be formatted. -/
def pending (s : Tracing α) : List (Emission α) := s.inHand.toList ++ s.queue

/-- All events the exporter took. -/
def kept (s : Tracing α) : List (Emission α) := s.formatted.map Prod.fst ++ s.pending

/-- The END event of the span waits to be formatted. -/
def EndPending (s : Tracing α) (i : Nat) : Prop :=
  ∃ e ∈ s.pending, e.span = i ∧ e.event.eventType = .END

/-- While the END event of the span waits, the assignments leave the content as it is. -/
def KeepsEnd (s : Tracing α) (i : Nat) (assign : Content α → Content α) : Prop :=
  ∀ span ∈ s.spans[i]?, s.EndPending i → assign (s.read span.content) = s.read span.content

/-- An END event that the exporter would take now has its BEGIN event in front of it. -/
def BeginFirst (s : Tracing α) (i : Nat) : Prop :=
  ∀ span ∈ s.spans[i]?, span.isBegin → !span.isEnd → s.running → !s.queueFull →
    ∃ e ∈ s.kept, e.span = i ∧ e.event.eventType = .BEGIN

/-- The condition on a step. -/
def Harmless (s : Tracing α) : Act α → Prop
  | .endSpan i => s.BeginFirst i
  | .success i kwargs => s.BeginFirst i ∧ s.KeepsEnd i (successContent kwargs)
  | .fail i error kwargs => s.BeginFirst i ∧ s.KeepsEnd i (failContent error kwargs)
  | _ => True

section

variable [DecidableEq α]

instance decidableKeepsEnd (s : Tracing α) (i : Nat) (assign : Content α → Content α) :
    Decidable (s.KeepsEnd i assign) :=
  inferInstanceAs (Decidable (∀ span ∈ s.spans[i]?, (∃ e ∈ s.pending, e.span = i ∧ _) → _))

instance decidableBeginFirst (s : Tracing α) (i : Nat) : Decidable (s.BeginFirst i) :=
  inferInstanceAs (Decidable (∀ span ∈ s.spans[i]?, span.isBegin → !span.isEnd → s.running →
    !s.queueFull → ∃ e ∈ s.kept, _))

instance decidableHarmless (s : Tracing α) (a : Act α) : Decidable (s.Harmless a) :=
  match a with
  | .endSpan i => inferInstanceAs (Decidable (s.BeginFirst i))
  | .success i kwargs =>
    inferInstanceAs (Decidable (s.BeginFirst i ∧ s.KeepsEnd i (successContent kwargs)))
  | .fail i error kwargs =>
    inferInstanceAs (Decidable (s.BeginFirst i ∧ s.KeepsEnd i (failContent error kwargs)))
  | .begin _ | .extraArgs _ _ | .extraDict _ _ | .stage _ _ _ _ | .get | .format => .isTrue trivial

end

/-! ### The dictionaries -/

theorem read_write_self (s : Tracing α) {a : Nat} (bound : a < s.contents.length)
    (c : Content α) : (s.write a c).read a = c := by
  simp [read, write, bound]

theorem read_write_ne (s : Tracing α) {a b : Nat} (ne : a ≠ b) (c : Content α) :
    (s.write a c).read b = s.read b := by
  simp [read, write, ne]

/-- A new dictionary leaves the ones that were there. -/
theorem read_append {s t : Tracing α} {c : Content α} (grown : t.contents = s.contents ++ [c])
    {a : Nat} (bound : a < s.contents.length) : t.read a = s.read a := by
  rw [read, read, grown, List.getElem?_append_left bound]

/-! ### The invariant -/

/-- A waiting event: its dictionary still has the content it was emitted with, and the only span
that may have this dictionary is the one whose END event it is. -/
structure Stored (s : Tracing α) (e : Emission α) : Prop where
  bound : e.event.content < s.contents.length
  value : s.read e.event.content = e.content
  owner : ∀ (i : Nat) (span : DurationSpan), s.spans[i]? = some span →
    span.content = e.event.content → i = e.span ∧ e.event.eventType = .END ∧ span.isEnd = true

/-- The events of a span fit its two flags. -/
structure EventsFit (span : DurationSpan) (events : List (EventType × String)) : Prop where
  order : events <+: [(.BEGIN, span.eventId), (.END, span.eventId)]
  unbegun : span.isBegin = false → events = []
  unended : span.isEnd = false → events <+: [(.BEGIN, span.eventId)]

/-- What holds as long as every step is harmless. -/
structure Inv (s : Tracing α) : Prop where
  allocated : ∀ (i : Nat) (span : DurationSpan), s.spans[i]? = some span →
    span.content < s.contents.length
  apart : ∀ (i j : Nat) (a b : DurationSpan), s.spans[i]? = some a → s.spans[j]? = some b →
    a.content = b.content → i = j
  stored : ∀ e ∈ s.pending, s.Stored e
  done : ∀ x ∈ s.formatted, x.2 = x.1.content
  fits : ∀ (i : Nat) (span : DurationSpan), s.spans[i]? = some span →
    EventsFit span (eventsOf i s.kept)
  others : ∀ i, s.spans[i]? = none → eventsOf i s.kept = []

theorem inv_start (running : Bool) (maxQueueSize : Int) (name : String) (content : Content α)
    (eventId : String) : Inv (start running maxQueueSize name content eventId) where
  allocated i span get := by
    cases i with
    | zero =>
      cases get
      exact Nat.zero_lt_one
    | succ i => cases get
  apart i j a b get get' _ := by
    cases i with
    | zero =>
      cases j with
      | zero => rfl
      | succ j => cases get'
    | succ i => cases get
  stored _ mem := absurd mem List.not_mem_nil
  done _ mem := absurd mem List.not_mem_nil
  fits _ _ _ := ⟨List.nil_prefix, fun _ ↦ rfl, fun _ ↦ List.nil_prefix⟩
  others _ _ := rfl

section

variable {s : Tracing α} {i : Nat} {span : DurationSpan}

theorem getElem?_setSpan_self (get : s.spans[i]? = some span) (next : DurationSpan) :
    (s.setSpan i next).spans[i]? = some next := by
  rw [setSpan, List.getElem?_set_self (List.getElem?_eq_some_iff.mp get).1]

/-- An event that the exporter took is listed among those of its span. -/
theorem mem_eventsOf {e : Emission α} (mem : e ∈ s.kept) (of_span : e.span = i) :
    (e.event.eventType, e.event.eventId) ∈ eventsOf i s.kept :=
  List.mem_map_of_mem (List.mem_filter.mpr ⟨mem, decide_eq_true of_span⟩)

/-- A span that has not ended has no END event. -/
theorem Inv.not_endPending (inv : s.Inv) (get : s.spans[i]? = some span)
    (unended : span.isEnd = false) : ¬s.EndPending i := by
  rintro ⟨e, mem, of_span, is_end⟩
  have listed := mem_eventsOf (List.mem_append_right _ mem) of_span
  have only := ((inv.fits i span get).unended unended).mem listed
  rw [List.mem_singleton, is_end] at only
  cases (Prod.mk.inj only).1

/-- A step that leaves the spans alone, and the content of the events that wait after it: events
only move on, from the queue to the worker and from there to the formatted ones. -/
theorem Inv.carry {t : Tracing α} (inv : s.Inv) (grown : s.contents.length ≤ t.contents.length)
    (spans : t.spans = s.spans) (waiting : ∀ e ∈ t.pending, e ∈ s.pending)
    (reads : ∀ e ∈ t.pending, t.read e.event.content = e.content) (kept : t.kept = s.kept)
    (done : ∀ x ∈ t.formatted, x.2 = x.1.content) : t.Inv where
  allocated j other get := (inv.allocated j other (spans ▸ get)).trans_le grown
  apart j k a b get get' := inv.apart j k a b (spans ▸ get) (spans ▸ get')
  stored e mem := by
    have held := inv.stored e (waiting e mem)
    exact ⟨held.bound.trans_le grown, reads e mem, fun j other get ↦
      held.owner j other (spans ▸ get)⟩
  done := done
  fits j other get := by
    rw [kept]
    exact inv.fits j other (spans ▸ get)
  others j none := by
    rw [kept]
    exact inv.others j (spans ▸ none)

/-- Assignments to the content of a span, unless its END event waits and they change it. -/
theorem Inv.write (inv : s.Inv) (get : s.spans[i]? = some span) {c : Content α}
    (keeps : s.EndPending i → c = s.read span.content) : (s.write span.content c).Inv := by
  have same_length : (s.write span.content c).contents.length = s.contents.length :=
    List.length_set
  refine inv.carry same_length.ge rfl (fun _ mem ↦ mem) (fun e mem ↦ ?_) rfl inv.done
  have held := inv.stored e mem
  by_cases same : span.content = e.event.content
  · rcases held.owner i span get same with ⟨of_span, is_end, -⟩
    rw [← held.value, ← same, read_write_self s (inv.allocated i span get)]
    exact keeps ⟨e, mem, of_span.symm, is_end⟩
  · rw [read_write_ne s same]
    exact held.value

/-- A new dictionary. -/
theorem Inv.alloc (inv : s.Inv) (c : Content α) :
    Inv { s with contents := s.contents ++ [c] } := by
  have longer : s.contents.length ≤ (s.contents ++ [c]).length := by
    rw [List.length_append]
    exact Nat.le_add_right _ _
  refine inv.carry longer rfl (fun _ mem ↦ mem) (fun e mem ↦ ?_) rfl inv.done
  have held := inv.stored e mem
  rw [read_append rfl held.bound]
  exact held.value

/-- A span that only sets its flags. -/
theorem Inv.setSpan (inv : s.Inv) (get : s.spans[i]? = some span) (next : DurationSpan)
    (content : next.content = span.content) (ended : span.isEnd = true → next.isEnd = true)
    (fit : EventsFit next (eventsOf i s.kept)) : (s.setSpan i next).Inv := by
  have earlier : ∀ (j : Nat) (other : DurationSpan), (s.setSpan i next).spans[j]? = some other →
      ∃ old : DurationSpan, s.spans[j]? = some old ∧ old.content = other.content ∧
        (old.isEnd = true → other.isEnd = true) := by
    intro j other get'
    rcases getElem?_set_cases get' with ⟨rfl, rfl⟩ | ⟨-, get'⟩
    · exact ⟨span, get, content.symm, ended⟩
    · exact ⟨other, get', rfl, id⟩
  refine ⟨fun j other get' ↦ ?_, fun j k a b geta getb same ↦ ?_, fun e mem ↦ ?_, inv.done,
    fun j other get' ↦ ?_, fun j none ↦ inv.others j ?_⟩
  · rcases earlier j other get' with ⟨old, get_old, same, -⟩
    exact same ▸ inv.allocated j old get_old
  · rcases earlier j a geta with ⟨a', get_a, same_a, -⟩
    rcases earlier k b getb with ⟨b', get_b, same_b, -⟩
    exact inv.apart j k a' b' get_a get_b (same_a.trans (same.trans same_b.symm))
  · have held := inv.stored e mem
    refine ⟨held.bound, held.value, fun j other get' same ↦ ?_⟩
    rcases earlier j other get' with ⟨old, get_old, same_old, ended_old⟩
    rcases held.owner j old get_old (same_old.trans same) with ⟨of_span, is_end, was_ended⟩
    exact ⟨of_span, is_end, ended_old was_ended⟩
  · rcases getElem?_set_cases get' with ⟨rfl, rfl⟩ | ⟨-, get'⟩
    · exact fit
    · exact inv.fits j other get'
  · simpa [Tracing.setSpan] using none

/-- One more event of a span. -/
theorem eventsOf_concat (j : Nat) (emissions : List (Emission α)) (e : Emission α) :
    eventsOf j (emissions ++ [e]) = eventsOf j emissions ++
      if e.span = j then [(e.event.eventType, e.event.eventId)] else [] := by
  rw [eventsOf, eventsOf, List.filter_append, List.map_append]
  by_cases same : e.span = j <;> simp [same]

/-- An event is handed to the exporter, which may drop it. -/
theorem Inv.exportEvent (inv : s.Inv) {e : Emission α} (held : s.Stored e)
    (get : s.spans[e.span]? = some span)
    (fit : s.running → !s.queueFull →
      EventsFit span (eventsOf e.span s.kept ++ [(e.event.eventType, e.event.eventId)])) :
    (s.exportEvent e).Inv := by
  unfold Tracing.exportEvent
  split
  · exact inv
  · next running =>
    split
    · exact inv.carry le_rfl rfl (fun _ mem ↦ mem) (fun e mem ↦ (inv.stored e mem).value) rfl
        inv.done
    · next room =>
      have longer : Tracing.kept { s with queue := s.queue ++ [e] } = s.kept ++ [e] := by
        simp [Tracing.kept, Tracing.pending]
      refine ⟨inv.allocated, inv.apart, fun e' mem ↦ ?_, inv.done, fun j other get' ↦ ?_,
        fun j none ↦ ?_⟩
      · have mem : e' ∈ s.pending ++ [e] := by
          rw [Tracing.pending, List.append_assoc]
          exact mem
        rcases List.mem_append.mp mem with old | new
        · have held' := inv.stored e' old
          exact ⟨held'.bound, held'.value, held'.owner⟩
        · rw [List.mem_singleton.mp new]
          exact ⟨held.bound, held.value, held.owner⟩
      · show EventsFit other (eventsOf j (Tracing.kept { s with queue := s.queue ++ [e] }))
        rw [longer, eventsOf_concat]
        split
        · next same =>
          subst same
          cases get.symm.trans get'
          exact fit (by simpa using running) (by simpa using room)
        · rw [List.append_nil]
          exact inv.fits j other get'
      · show eventsOf j (Tracing.kept { s with queue := s.queue ++ [e] }) = []
        have other : e.span ≠ j := by
          rintro rfl
          cases get.symm.trans none
        rw [longer, eventsOf_concat, if_neg other, List.append_nil]
        exact inv.others j none

/-- `begin` emits a copy. -/
theorem Inv.beginSpan (inv : s.Inv) (get : s.spans[i]? = some span) : (s.beginSpan i span).Inv := by
  unfold Tracing.beginSpan
  split
  · exact inv
  · next unbegun =>
    rw [Bool.not_eq_true] at unbegun
    have none_yet := (inv.fits i span get).unbegun unbegun
    have grown := inv.alloc (s.read span.content)
    have begun := grown.setSpan get { span with isBegin := true } rfl (fun ended ↦ ended)
      ⟨(inv.fits i span get).order, fun stuck ↦ (by cases stuck), (inv.fits i span get).unended⟩
    refine begun.exportEvent ⟨?_, ?_, fun j other get' same ↦ ?_⟩
      (getElem?_setSpan_self get _) fun _ _ ↦ ?_
    · simp [Tracing.setSpan]
    · have bound := inv.allocated i span get
      have copied : Tracing.read { s with contents := s.contents ++ [s.read span.content] }
          s.contents.length = s.read span.content := by
        rw [Tracing.read, List.getElem?_concat_length, Option.getD_some]
      exact copied.trans (read_append rfl bound).symm
    · have below : other.content < s.contents.length := by
        rcases getElem?_set_cases get' with ⟨rfl, rfl⟩ | ⟨-, get'⟩
        · exact inv.allocated i span get
        · exact inv.allocated j other get'
      exact absurd same (Nat.ne_of_lt below)
    · have still : eventsOf i (Tracing.kept (Tracing.setSpan { s with
          contents := s.contents ++ [s.read span.content] } i { span with isBegin := true })) =
          [] := none_yet
      dsimp only
      rw [still]
      exact ⟨⟨[(.END, span.eventId)], rfl⟩, fun stuck ↦ (by cases stuck),
        fun _ ↦ List.prefix_refl _⟩

/-- `end` emits the dictionary of the span, behind the BEGIN event. -/
theorem Inv.endSpan (inv : s.Inv) (get : s.spans[i]? = some span) (first : s.BeginFirst i) :
    (s.endSpan i span).Inv := by
  unfold Tracing.endSpan
  split
  · exact inv
  · next unended =>
    rw [Bool.not_eq_true] at unended
    split
    · exact inv
    · next begun =>
      have begun : span.isBegin = true := by simpa using begun
      have fits := inv.fits i span get
      have ended := inv.setSpan get { span with isEnd := true } rfl (fun _ ↦ rfl)
        ⟨fits.order, fits.unbegun, fun stuck ↦ (by cases stuck)⟩
      refine ended.exportEvent ⟨inv.allocated i span get, rfl, fun j other get' same ↦ ?_⟩
        (getElem?_setSpan_self get _) fun running room ↦ ?_
      · rcases getElem?_set_cases get' with ⟨rfl, rfl⟩ | ⟨differs, get'⟩
        · exact ⟨rfl, rfl, rfl⟩
        · exact absurd (inv.apart i j span other get get' same.symm) differs
      · rcases first span get begun (by rw [unended]; rfl) running room with
          ⟨e, mem, of_span, is_begin⟩
        have listed := mem_eventsOf mem of_span
        have only : eventsOf i s.kept = [(.BEGIN, span.eventId)] := by
          rcases List.prefix_cons_iff.mp (fits.unended unended) with none | ⟨rest, eq, nil⟩
          · rw [none] at listed
            cases listed
          · rw [eq, List.prefix_nil.mp nil]
        have still : eventsOf i (Tracing.kept (s.setSpan i { span with isEnd := true })) =
            [(.BEGIN, span.eventId)] := only
        dsimp only
        rw [still]
        exact ⟨List.prefix_refl _, fun unbegun ↦ absurd (begun.symm.trans unbegun) (by decide),
          fun stuck ↦ (by cases stuck)⟩

/-- `stage` makes a span with a dictionary of its own. -/
theorem Inv.stage (inv : s.Inv) (stage : String) (content : Option (Content α))
    (eventId : String) : (s.stage span stage content eventId).Inv := by
  unfold Tracing.stage
  split
  · exact inv
  · generalize (match content with
      | none => s.read span.content
      | some content => (s.read span.content).update content) = c
    have grown := inv.alloc c
    have cases_of : ∀ (j : Nat) (other : DurationSpan),
        (s.spans ++ [⟨span.name ++ "#" ++ stage, s.contents.length, false, false,
          eventId⟩])[j]? = some other →
        s.spans[j]? = some other ∨ j = s.spans.length ∧ other.content = s.contents.length ∧
          other.isBegin = false ∧ other.isEnd = false := by
      intro j other get
      rw [List.getElem?_append] at get
      split at get
      · exact .inl get
      · next outside =>
        rcases List.getElem?_eq_some_iff.mp get with ⟨short, rfl⟩
        rw [List.length_singleton] at short
        exact .inr ⟨by omega, by simp⟩
    refine ⟨fun j other get ↦ ?_, fun j k a b get get' same ↦ ?_, fun e mem ↦ ?_, inv.done,
      fun j other get ↦ ?_, fun j none ↦ ?_⟩
    · rcases cases_of j other get with old | ⟨-, new, -⟩
      · exact grown.allocated j other old
      · rw [new, List.length_append]
        exact Nat.lt_succ_self _
    · rcases cases_of j a get with old | ⟨rfl, new, -⟩ <;>
        rcases cases_of k b get' with old' | ⟨rfl, new', -⟩
      · exact inv.apart j k a b old old' same
      · exact absurd (same.trans new') (Nat.ne_of_lt (inv.allocated j a old))
      · exact absurd (same.symm.trans new) (Nat.ne_of_lt (inv.allocated k b old'))
      · rfl
    · have held := grown.stored e mem
      refine ⟨held.bound, held.value, fun j other get same ↦ ?_⟩
      rcases cases_of j other get with old | ⟨-, new, -⟩
      · exact held.owner j other old same
      · exact absurd (same.symm.trans new) (Nat.ne_of_lt (inv.stored e mem).bound)
    · rcases cases_of j other get with old | ⟨rfl, -, unbegun, unended⟩
      · exact inv.fits j other old
      · have none_yet := inv.others s.spans.length (List.getElem?_eq_none (Nat.le_refl _))
        exact ⟨none_yet ▸ List.nil_prefix, fun _ ↦ none_yet, fun _ ↦ none_yet ▸ List.nil_prefix⟩
    · refine inv.others j (List.getElem?_eq_none ?_)
      have long := List.getElem?_eq_none_iff.mp none
      rw [List.length_append] at long
      exact (Nat.le_add_right _ _).trans long

theorem Inv.extraDict (inv : s.Inv) (get : s.spans[i]? = some span) (content : Content α) :
    (s.extraDict span content).Inv := by
  unfold Tracing.extraDict
  split
  · exact inv
  · next unended =>
    rw [Bool.not_eq_true] at unended
    exact inv.write get fun waits ↦ absurd waits (inv.not_endPending get unended)

/-- The assignments of `success` and `fail`, and the `end` behind them. -/
theorem Inv.assign (inv : s.Inv) (get : s.spans[i]? = some span)
    {assign : Content α → Content α} (first : s.BeginFirst i) (keeps : s.KeepsEnd i assign) :
    ((s.write span.content (assign (s.read span.content))).endSpan i span).Inv :=
  (inv.write get (keeps span get)).endSpan get first

end

/-- A harmless step keeps the invariant. -/
theorem inv_step {s t : Tracing α} {a : Act α} (inv : s.Inv) (harmless : s.Harmless a)
    (taken : s.step a = some t) : t.Inv := by
  cases a with
  | begin i =>
    rcases Option.map_eq_some_iff.mp taken with ⟨span, get, rfl⟩
    exact inv.beginSpan get
  | endSpan i =>
    rcases Option.map_eq_some_iff.mp taken with ⟨span, get, rfl⟩
    exact inv.endSpan get harmless
  | success i kwargs =>
    rcases Option.map_eq_some_iff.mp taken with ⟨span, get, rfl⟩
    exact inv.assign get harmless.1 harmless.2
  | fail i error kwargs =>
    rcases Option.map_eq_some_iff.mp taken with ⟨span, get, rfl⟩
    exact inv.assign get harmless.1 harmless.2
  | extraArgs i kwargs =>
    rcases Option.map_eq_some_iff.mp taken with ⟨span, get, rfl⟩
    exact inv.extraDict get kwargs
  | extraDict i content =>
    rcases Option.map_eq_some_iff.mp taken with ⟨span, get, rfl⟩
    exact inv.extraDict get content
  | stage i stage content eventId =>
    rcases Option.map_eq_some_iff.mp taken with ⟨span, get, rfl⟩
    exact inv.stage stage content eventId
  | get =>
    simp only [step] at taken
    split at taken
    · next e rest _ free head =>
      cases taken
      have same : Tracing.pending { s with inHand := some e, queue := rest } = s.pending := by
        rw [Tracing.pending, Tracing.pending, free, head]
        rfl
      refine inv.carry le_rfl rfl (fun _ mem ↦ same ▸ mem)
        (fun e mem ↦ (inv.stored e (same ▸ mem)).value) ?_ inv.done
      rw [Tracing.kept, Tracing.kept, same]
    · contradiction
  | format =>
    rcases Option.map_eq_some_iff.mp taken with ⟨e, hand, rfl⟩
    have mem_hand : e ∈ s.pending := by
      rw [Tracing.pending, hand]
      exact List.mem_append_left _ List.mem_cons_self
    refine inv.carry le_rfl rfl (fun _ mem ↦ List.mem_append_right _ mem)
      (fun e mem ↦ (inv.stored e (List.mem_append_right _ mem)).value) ?_ fun x mem ↦ ?_
    · simp [Tracing.kept, Tracing.pending, hand]
    · rcases List.mem_append.mp mem with old | new
      · exact inv.done x old
      · rw [List.mem_singleton.mp new]
        exact (inv.stored e mem_hand).value

/-- The invariant says more than that the events are frozen. -/
theorem Inv.frozen {s : Tracing α} (inv : s.Inv) : s.Frozen where
  contents := inv.done
  order i := by
    have front : eventsOf i (s.formatted.map Prod.fst) <+: eventsOf i s.kept :=
      ((List.prefix_append _ _).filter _).map _
    cases get : s.spans[i]? with
    | none =>
      rw [inv.others i get] at front
      exact ⟨"", List.prefix_nil.mp front ▸ List.nil_prefix⟩
    | some span => exact ⟨span.eventId, front.trans (inv.fits i span get).order⟩

/-- In a run of harmless steps the exported events are frozen at every moment. -/
theorem frozen_of_harmless {running : Bool} {maxQueueSize : Int} {name : String}
    {content : Content α} {eventId : String} {acts : List (Act α)} {s : Tracing α}
    (run : Run step Harmless (start running maxQueueSize name content eventId) acts s) :
    s.Frozen :=
  (run.invariant (inv_start running maxQueueSize name content eventId)
    fun _ _ _ inv harmless taken ↦ inv_step inv harmless taken).frozen

/-- A span that succeeds once and is marked again after both of its events are written. -/
theorem frozen_of_harmless_success :
    ∃ (acts : List (Act Nat)) (s : Tracing Nat),
      Run step Harmless (start true 1024 "foo" .empty "1a2b") acts s ∧ s.Frozen ∧
        s.formatted.length = 2 := by
  have run : ∃ s : Tracing Nat, Run step Harmless (start true 1024 "foo" .empty "1a2b")
      [.begin 0, .extraArgs 0 (.ofItems [("a", .other 1)]), .success 0 .empty, .get, .format, .get,
        .format, .fail 0 "late" .empty] s ∧ decide (s.formatted.length = 2) = true :=
    run_of_guarded_any (by decide)
  rcases run with ⟨s, run, two⟩
  exact ⟨_, s, run, frozen_of_harmless run, of_decide_eq_true two⟩

/-- A span marked as failed right after it succeeded: its END event is written with the failure. -/
theorem not_frozen_late_fail :
    ∃ (acts : List (Act Nat)) (s : Tracing Nat),
      Run step anyStep (start true 1024 "foo" .empty "1a2b") acts s ∧ ¬s.Frozen := by
  have run : ∃ s : Tracing Nat, Run step anyStep (start true 1024 "foo" .empty "1a2b")
      [.begin 0, .success 0 .empty, .fail 0 "late" .empty, .get, .format, .get, .format] s ∧
        s.formatted.any (fun x ↦ x.2 ≠ x.1.content) = true := run_of_any (by decide)
  rcases run with ⟨s, run, changed⟩
  refine ⟨_, s, run, fun frozen ↦ ?_⟩
  rcases List.any_eq_true.mp changed with ⟨x, mem, differs⟩
  exact of_decide_eq_true differs (frozen.contents x mem)

end Tracing

end ProbingBaselines.Dlrover.TrainingEvent
