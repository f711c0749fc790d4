import ProbingBaselines.Lib.Dict
import ProbingBaselines.Lib.Run

/-!
# Profile results of the fail-slow events

In every fail-slow event the local controllers write the profile results of their communicators to
redis, each at its own time (`detector/control_plane/local_controller.py:33-41`, `:116-153`), while
the global controller polls for them until their number does not grow any more, and deletes them
(`detector/control_plane/global_analyzer.py:139-165`, `global_controller.py:172-177`). The map of an
event has the results of the event and no others as long as the results come while the controller
polls, and its last poll finds all that there are.
-/

namespace ProbingBaselines.Greyhound.ProfileResults

open Lib

variable {V : Type}

/-- What happens in one event: the results reported, by communicator address, the map returned and
the entries deleted. -/
structure Event (V : Type) where
  reported : Dict Nat V
  returned : Option (Dict Nat V)
  deleted : Dict Nat V

def Event.empty : Event V := ⟨.empty, none, .empty⟩

/-- Where the global controller is in `wait_and_build_performance_map`, with the addresses that the
scan has still to return. -/
inductive Phase (V : Type) where
  | idle
  | sleeping (commPerfs : Dict Nat V) (oldNumRecords : Nat)
  | polling (commPerfs : Dict Nat V) (oldNumRecords : Nat) (pending : List Nat)
  | deleting (commPerfs : Dict Nat V) (perfKeys pending : List Nat)

/-- The keys `Perf_*` of redis, the global controller and the events. -/
structure State (V : Type) where
  storage : Dict Nat V
  phase : Phase V
  current : Option (Event V)
  past : List (Event V)

inductive Action (V : Type) where
  | handleFailslow
  | report (commAddr : Nat) (result : V)
  | poll
  | get (commAddr : Nat)
  | compare
  | scanKey (commAddr : Nat)
  | delete

/-- The comparison after a poll: the new `old_num_records`, or `none` where the loop is left;
`global_analyzer.py:151-161`. -/
def compareRecords (commPerfs : Dict Nat V) (oldNumRecords : Nat) : Option Nat :=
  if commPerfs.items.length = 0 then some oldNumRecords
  else if commPerfs.items.length ≠ oldNumRecords then some commPerfs.items.length
  else none

/-- A scan returns every key that is there from its beginning to its end, and may return others. -/
def step (s : State V) : Action V → Option (State V)
  | .handleFailslow =>
    match s.phase with
    | .idle => some ⟨s.storage, .sleeping .empty 0, some .empty, s.past ++ s.current.toList⟩
    | _ => none
  | .report commAddr result =>
    s.current.bind fun e ↦
      if commAddr ∈ e.reported then none
      else some { s with
        storage := s.storage.insert commAddr result
        current := some { e with reported := e.reported.insert commAddr result } }
  | .poll =>
    match s.phase with
    | .sleeping commPerfs oldNumRecords =>
      some { s with phase := .polling commPerfs oldNumRecords s.storage.keys }
    | _ => none
  | .get commAddr =>
    match s.phase with
    | .polling commPerfs oldNumRecords pending =>
      (s.storage.get? commAddr).map fun result ↦
        { s with
          phase := .polling (commPerfs.insert commAddr result) oldNumRecords
            (pending.erase commAddr) }
    | _ => none
  | .compare =>
    match s.phase with
    | .polling commPerfs oldNumRecords [] =>
      match compareRecords commPerfs oldNumRecords with
      | some oldNumRecords => some { s with phase := .sleeping commPerfs oldNumRecords }
      | none => some { s with phase := .deleting commPerfs [] s.storage.keys }
    | _ => none
  | .scanKey commAddr =>
    match s.phase with
    | .deleting commPerfs perfKeys pending =>
      if commAddr ∈ s.storage then
        some { s with
          phase := .deleting commPerfs (perfKeys ++ [commAddr]) (pending.erase commAddr) }
      else none
    | _ => none
  | .delete =>
    match s.phase with
    | .deleting commPerfs perfKeys [] =>
      s.current.map fun e ↦
        { s with
          storage := s.storage.filter (· ∉ perfKeys)
          phase := .idle
          current := some { e with
            returned := some commPerfs
            deleted := s.storage.filter (· ∈ perfKeys) } }
    | _ => none

/-- The map of an event has what was reported in it and nothing else, and nothing was deleted that
the map does not have. -/
def Event.Exact (e : Event V) : Prop :=
  ∃ commPerfs, e.returned = some commPerfs ∧
    (∀ a, commPerfs.get? a = e.reported.get? a) ∧
    ∀ a result, e.deleted.get? a = some result → commPerfs.get? a = some result

/-- The global controller has started redis and handled no event yet. -/
structure Start (s : State V) : Prop where
  storage : s.storage = .empty
  phase : s.phase = .idle
  current : s.current = none
  past : s.past = []

/-- Results are reported while the global controller polls, and it stops polling with all that are
in redis. -/
def Admitted (s : State V) : Action V → Prop
  | .report _ _ =>
    match s.phase with
    | .sleeping _ _ | .polling _ _ _ => True
    | _ => False
  | .compare =>
    match s.phase with
    | .polling commPerfs oldNumRecords _ =>
      compareRecords commPerfs oldNumRecords = none → ∀ a ∈ s.storage.keys, a ∈ commPerfs
    | _ => True
  | _ => True

instance (s : State V) (a : Action V) : Decidable (Admitted s a) := by
  unfold Admitted
  split
  · split <;> infer_instance
  · split <;> infer_instance
  · infer_instance

/-! ### What is in redis -/

/-- Redis has what was reported in the event, and the map some of that. -/
structure Gathering (storage commPerfs : Dict Nat V) (e : Event V) : Prop where
  stored : ∀ a, storage.get? a = e.reported.get? a
  read : ∀ a result, commPerfs.get? a = some result → storage.get? a = some result

/-- Redis, the global controller and the event that it handles. -/
inductive InEvent (storage : Dict Nat V) : Phase V → Option (Event V) → Prop where
  | before (empty : ∀ a, a ∉ storage) : InEvent storage .idle none
  | finished {e : Event V} (exact : e.Exact) (empty : ∀ a, a ∉ storage) :
      InEvent storage .idle (some e)
  | sleeping {e : Event V} {commPerfs : Dict Nat V} {oldNumRecords : Nat}
      (gathering : Gathering storage commPerfs e) :
      InEvent storage (.sleeping commPerfs oldNumRecords) (some e)
  | polling {e : Event V} {commPerfs : Dict Nat V} {oldNumRecords : Nat} {pending : List Nat}
      (gathering : Gathering storage commPerfs e) :
      InEvent storage (.polling commPerfs oldNumRecords pending) (some e)
  | deleting {e : Event V} {commPerfs : Dict Nat V} {perfKeys pending : List Nat}
      (gathering : Gathering storage commPerfs e) (all : ∀ a ∈ storage, a ∈ commPerfs)
      (scanned : ∀ a ∈ storage, a ∈ perfKeys ∨ a ∈ pending) :
      InEvent storage (.deleting commPerfs perfKeys pending) (some e)

structure Inv (s : State V) : Prop where
  inEvent : InEvent s.storage s.phase s.current
  past : ∀ e ∈ s.past, e.Exact

namespace Gathering

variable {storage commPerfs : Dict Nat V} {e : Event V}

/-- An event begins with nothing in redis. -/
theorem start (empty : ∀ a, a ∉ storage) : Gathering storage .empty Event.empty := by
  constructor
  · intro a
    rw [Dict.get?_eq_none_iff.mpr (empty a)]
    rfl
  · intro a result found
    cases found

/-- A communicator that has not reported before reports. -/
theorem report (h : Gathering storage commPerfs e) {commAddr : Nat} (result : V)
    (first : commAddr ∉ e.reported) : Gathering (storage.insert commAddr result) commPerfs
      { e with reported := e.reported.insert commAddr result } := by
  constructor
  · intro a
    rw [Dict.get?_insert, Dict.get?_insert, h.stored a]
  · intro a result' found
    have known := h.read a result' found
    rw [Dict.get?_insert, if_neg, known]
    rintro rfl
    rw [h.stored, Dict.get?_eq_none_iff.mpr first] at known
    cases known

/-- A result that is in redis is read. -/
theorem get (h : Gathering storage commPerfs e) {commAddr : Nat} {result : V}
    (found : storage.get? commAddr = some result) :
    Gathering storage (commPerfs.insert commAddr result) e := by
  refine ⟨h.stored, ?_⟩
  intro a result' eq
  rw [Dict.get?_insert] at eq
  split at eq
  · next here =>
    rw [here, found, ← eq]
  · exact h.read a result' eq

/-- A map with all that is in redis has what was reported. -/
theorem whole (h : Gathering storage commPerfs e) (all : ∀ a ∈ storage, a ∈ commPerfs) (a : Nat) :
    commPerfs.get? a = e.reported.get? a := by
  rw [← h.stored a]
  by_cases known : a ∈ storage
  · obtain ⟨result, mem⟩ := Dict.mem_iff.mp (all a known)
    have found := Dict.get?_eq_some_iff.mpr mem
    rw [found, h.read a result found]
  · have absent : a ∉ commPerfs := by
      intro mem
      obtain ⟨result, mem⟩ := Dict.mem_iff.mp mem
      have found := h.read a result (Dict.get?_eq_some_iff.mpr mem)
      exact known (Dict.mem_of_mem_items (Dict.get?_eq_some_iff.mp found))
    rw [Dict.get?_eq_none_iff.mpr absent, Dict.get?_eq_none_iff.mpr known]

end Gathering

/-- The deletion leaves nothing in redis and deletes what the map has. -/
theorem Gathering.delete {storage commPerfs : Dict Nat V} {e : Event V}
    (h : Gathering storage commPerfs e) (all : ∀ a ∈ storage, a ∈ commPerfs) {perfKeys : List Nat}
    (scanned : ∀ a ∈ storage, a ∈ perfKeys) :
    Event.Exact { e with
      returned := some commPerfs
      deleted := storage.filter (· ∈ perfKeys) } ∧ ∀ a, a ∉ storage.filter (· ∉ perfKeys) := by
  constructor
  · refine ⟨commPerfs, rfl, h.whole all, ?_⟩
    intro a result found
    rw [Dict.get?_filter] at found
    split at found
    · rw [h.whole all, ← h.stored, found]
    · cases found
  · intro a mem
    obtain ⟨known, other⟩ := Dict.mem_filter.mp mem
    exact absurd (scanned a known) (of_decide_eq_true other)

/-- What an admitted step keeps. -/
theorem inv_step {s t : State V} {a : Action V} (h : Inv s) (admitted : Admitted s a)
    (taken : step s a = some t) : Inv t := by
  obtain ⟨storage, phase, current, past⟩ := s
  obtain ⟨inEvent, exact⟩ := h
  cases a with
  | handleFailslow =>
    cases inEvent with
    | before empty =>
      cases taken
      exact ⟨.sleeping (.start empty), by simpa using exact⟩
    | finished done empty =>
      cases taken
      refine ⟨.sleeping (.start empty), ?_⟩
      intro e mem
      rcases List.mem_append.mp mem with mem | mem
      · exact exact e mem
      · rwa [List.mem_singleton.mp mem]
    | sleeping | polling | deleting => cases taken
  | report commAddr result =>
    obtain ⟨e, here, eq⟩ := Option.bind_eq_some_iff.mp taken
    obtain ⟨first, eq⟩ := Option.ite_none_left_eq_some.mp eq
    cases here
    cases eq
    cases inEvent with
    | sleeping gathering => exact ⟨.sleeping (gathering.report result first), exact⟩
    | polling gathering => exact ⟨.polling (gathering.report result first), exact⟩
    | finished | deleting => exact admitted.elim
  | poll =>
    cases inEvent with
    | sleeping gathering =>
      cases taken
      exact ⟨.polling gathering, exact⟩
    | before | finished | polling | deleting => cases taken
  | get commAddr =>
    cases inEvent with
    | polling gathering =>
      obtain ⟨result, found, eq⟩ := Option.map_eq_some_iff.mp taken
      cases eq
      exact ⟨.polling (gathering.get found), exact⟩
    | before | finished | sleeping | deleting => cases taken
  | compare =>
    cases inEvent with
    | @polling e commPerfs oldNumRecords pending gathering =>
      cases pending with
      | nil =>
        simp only [step] at taken
        split at taken
        · cases taken
          exact ⟨.sleeping gathering, exact⟩
        · next leaves =>
          cases taken
          exact ⟨.deleting gathering (admitted leaves) fun a mem ↦ .inr mem, exact⟩
      | cons => cases taken
    | before | finished | sleeping | deleting => cases taken
  | scanKey commAddr =>
    cases inEvent with
    | deleting gathering all scanned =>
      obtain ⟨known, eq⟩ := Option.ite_none_right_eq_some.mp taken
      cases eq
      refine ⟨.deleting gathering all ?_, exact⟩
      intro a mem
      by_cases here : a = commAddr
      · exact .inl (by simp [here])
      · rcases scanned a mem with done | left
        · exact .inl (List.mem_append_left _ done)
        · exact .inr ((List.mem_erase_of_ne here).mpr left)
    | before | finished | sleeping | polling => cases taken
  | delete =>
    cases inEvent with
    | @deleting e commPerfs perfKeys pending gathering all scanned =>
      cases pending with
      | nil =>
        cases taken
        obtain ⟨done, empty⟩ := gathering.delete all fun a mem ↦
          (scanned a mem).resolve_right List.not_mem_nil
        exact ⟨.finished done empty, exact⟩
      | cons => cases taken
    | before | finished | sleeping | polling => cases taken

theorem Start.inv {s : State V} (h : Start s) : Inv s := by
  obtain ⟨storage, phase, current, past⟩ := s
  obtain ⟨rfl, rfl, rfl, rfl⟩ := h
  exact ⟨.before Dict.not_mem_empty, fun _ mem ↦ absurd mem List.not_mem_nil⟩

/-- In every event the map has what was reported in it and nothing else, and nothing is deleted
unread, as long as results are reported while the global controller polls and it stops polling with
all that are in redis. -/
theorem events_exact {s t : State V} {actions : List (Action V)} (start : Start s)
    (run : Run step Admitted s actions t) :
    (∀ e ∈ t.past, e.Exact) ∧ (t.phase = .idle → ∀ e ∈ t.current, e.Exact) := by
  have h := run.invariant (P := Inv) start.inv fun _ _ _ h admitted taken ↦
    inv_step h admitted taken
  refine ⟨h.past, ?_⟩
  intro idle e here
  have inEvent := h.inEvent
  rw [idle, Option.mem_def.mp here] at inEvent
  cases inEvent with
  | finished exact _ => exact exact

/-- Redis has just been started. -/
def fresh : State Nat := ⟨.empty, .idle, none, []⟩

theorem start_fresh : Start fresh := ⟨rfl, rfl, rfl, rfl⟩

/-- Two communicators report at different times of the first event, none in the second so far. -/
def reportInTime : List (Action Nat) :=
  [.handleFailslow, .poll, .report 1 10, .compare, .poll, .get 1, .report 2 20, .compare, .poll,
    .get 1, .get 2, .compare, .poll, .get 2, .get 1, .compare, .scanKey 1, .scanKey 2, .delete,
    .handleFailslow]

theorem events_exact_inTime : ∃ t, Run step Admitted fresh reportInTime t ∧ t.past.length = 1 ∧
    (∀ e ∈ t.past, e.Exact) ∧ (t.phase = .idle → ∀ e ∈ t.current, e.Exact) := by
  obtain ⟨t, run, one⟩ : ∃ t, Run step Admitted fresh reportInTime t ∧
      decide (t.past.length = 1) = true := run_of_guarded_any (by decide +kernel)
  exact ⟨t, run, of_decide_eq_true one, events_exact start_fresh run⟩

/-- The second communicator reports when the controller has stopped polling, and its result is the
only one of the next event. -/
def reportLate : List (Action Nat) :=
  [.handleFailslow, .report 1 10, .poll, .get 1, .compare, .poll, .get 1, .compare, .report 2 20,
    .scanKey 1, .delete, .handleFailslow, .poll, .get 2, .compare, .poll, .get 2, .compare,
    .scanKey 2, .delete]

/-- Without a condition on the reports a result may be missing in its event and turn up in the next
one. -/
theorem events_mixed :
    ¬ ∀ (s t : State Nat) (actions : List (Action Nat)), Start s → Run step anyStep s actions t →
      (∀ e ∈ t.past, e.Exact) ∧ (t.phase = .idle → ∀ e ∈ t.current, e.Exact) := by
  intro every
  obtain ⟨t, run, late⟩ : ∃ t, Run step anyStep fresh reportLate t ∧
      (t.past.any fun e ↦ e.reported.get? 2 = some 20 ∧ e.returned.bind (·.get? 2) = none) = true :=
    run_of_any (by decide +kernel)
  obtain ⟨e, mem, missing⟩ := List.any_eq_true.mp late
  obtain ⟨reported, absent⟩ := of_decide_eq_true missing
  obtain ⟨commPerfs, returned, same, -⟩ := (every fresh t reportLate start_fresh run).1 e mem
  rw [returned, Option.bind_some, same, reported] at absent
  cases absent

end ProbingBaselines.Greyhound.ProfileResults
