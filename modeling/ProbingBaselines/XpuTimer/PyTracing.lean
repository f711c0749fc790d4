import Mathlib.Algebra.BigOperators.Group.List.Basic
import Mathlib.Algebra.GroupWithZero.Nat
import Mathlib.Data.List.DropRight
import Mathlib.Logic.Function.Basic
import ProbingBaselines.Lib.Run

/-!
# Host-tracing buffers

The profiler and the callback of the garbage collector write the calls of each traced function to a
buffer of 512 slots (`python/py_tracing.c:138-169`, `:287-318`). A call's start makes room when the
buffer is full; its end takes up the slot, and the end of a collection takes up two. An event is a
critical section under the mutex, with the reads of `start_tracing` around it.
-/

namespace ProbingBaselines.XpuTimer

open Lib

/-- `PY_TRACING_BUFFER_SIZE`; `python/py_tracing_data.h:17`. -/
def pyTracingBufferSize : Nat := 512

/-- `PY_TRACING_GC`, the tag of the garbage collector. -/
def pyTracingGc : Nat := 0

inductive PayloadType where
  | uninitialized
  | gc

/-- `XpuTimerPyTracingData`; `gcDebug` is the payload. -/
structure PyTracingData where
  start : Nat
  stop : Nat
  count : Nat
  gcDebug : Int × Int
  type : PayloadType

/-- `XpuTimerPyTracingDataArray`. A slot from the buffer's size on is one that it does not have. -/
structure PyTracingDataArray where
  data : Nat → PyTracingData
  cur : Nat

/-- `getEmptyPyTracingDataArray` fills the array with zeros; `py_tracing_manager.cc:31-37`. -/
def PyTracingDataArray.empty : PyTracingDataArray := ⟨fun _ ↦ ⟨0, 0, 0, (0, 0), .uninitialized⟩, 0⟩

def PyTracingDataArray.write (a : PyTracingDataArray) (f : PyTracingData → PyTracingData) :
    PyTracingDataArray :=
  { a with data := Function.update a.data a.cur (f (a.data a.cur)) }

/-- The current array of a tag and its number of calls. -/
structure NamedTracingData where
  currData : PyTracingDataArray
  count : Nat

/-- `info` of the callback: whether it is a dict, and its two numbers if they are there. -/
abbrev GcInfo := Option (Option Int × Option Int)

namespace NamedTracingData

/-- A full array is replaced; `py_tracing.c:147-154`, `:292-299`. -/
def makeRoom (d : NamedTracingData) : NamedTracingData :=
  if d.currData.cur = pyTracingBufferSize then { d with currData := .empty } else d

/-- The start of a call, and the slot it is written to; `py_tracing.c:145-155`, `:290-300`. -/
def recordStart (d : NamedTracingData) (now : Nat) : NamedTracingData × List Nat :=
  let d := d.makeRoom
  ({ d with currData := d.currData.write fun e ↦ { e with start := now } }, [d.currData.cur])

/-- The end of a call; `py_tracing.c:161-163`, `:312-313`. -/
def recordReturn (d : NamedTracingData) (now : Nat) : NamedTracingData × List Nat :=
  let written := d.currData.write fun e ↦ { e with count := d.count, stop := now }
  ({ d with currData := { written with cur := written.cur + 1 } }, [d.currData.cur])

/-- The end of a collection; `py_tracing.c:267-285`, `:307-310`. -/
def recordGc (d : NamedTracingData) (now : Nat) (info : GcInfo) : NamedTracingData × List Nat :=
  let written := d.currData.write fun e ↦
    { e with
      count := d.count
      type := .gc
      gcDebug := match info with
        | none => e.gcDebug
        | some (collected, uncollectable) => (collected.getD (-1), uncollectable.getD (-1))
      stop := now }
  ({ d with currData := { written with cur := written.cur + 1 } }, [d.currData.cur])

end NamedTracingData

/-- The flag and the data of each tag. -/
structure PyTracing where
  startTracing : Bool
  named : Nat → NamedTracingData

/-- Events of traced functions and of the garbage collector, each with the times it reads; a switch
of tracing; and a fetch of what a tag's array holds. `between` is a switch that comes between the
two tests of `start_tracing` at the end of a collection. -/
inductive PyTracingEvent where
  | call (tag now : Nat)
  | ret (tag now : Nat)
  | gcStart (now : Nat)
  | gcStop (now now' : Nat) (info : GcInfo) (between : Option Bool)
  | switch (on : Bool)
  | fetch (tag : Nat)

namespace PyTracing

/-- Tracing is off and the arrays are empty. -/
def init : PyTracing := ⟨false, fun _ ↦ ⟨.empty, 0⟩⟩

def setNamed (s : PyTracing) (tag : Nat) (d : NamedTracingData) : PyTracing :=
  { s with named := Function.update s.named tag d }

/-- `profiler` at a call; `py_tracing.c:144-156`. -/
def profilerCall (s : PyTracing) (tag now : Nat) : PyTracing × List Nat :=
  if s.startTracing then
    let (d, slots) := (s.named tag).recordStart now
    (s.setNamed tag d, slots)
  else (s, [])

/-- `profiler` at a return; `py_tracing.c:157-167`. -/
def profilerReturn (s : PyTracing) (tag now : Nat) : PyTracing × List Nat :=
  let (d, slots) := if s.startTracing then (s.named tag).recordReturn now else (s.named tag, [])
  (s.setNamed tag { d with count := d.count + 1 }, slots)

/-- `gcCallback` at a start; `py_tracing.c:290-301`. -/
def gcStart (s : PyTracing) (now : Nat) : PyTracing × List Nat :=
  if s.startTracing then
    let (d, slots) := (s.named pyTracingGc).recordStart now
    (s.setNamed pyTracingGc d, slots)
  else (s, [])

/-- `gcCallback` at a stop; `py_tracing.c:302-317`. -/
def gcStop (s : PyTracing) (now now' : Nat) (info : GcInfo) (between : Option Bool) :
    PyTracing × List Nat :=
  let d := s.named pyTracingGc
  let inner := between.getD s.startTracing
  let (d, slots) :=
    if s.startTracing then
      let (d, first) := if inner then d.recordGc now info else (d, [])
      let (d, second) := d.recordReturn now'
      (d, first ++ second)
    else (d, [])
  ({ s with startTracing := inner }.setNamed pyTracingGc { d with count := d.count + 1 }, slots)

/-- `xpu_timer_get_partial_py_tracing_data_array`: the array, and a new one in its place, unless
nothing is in it; `py_tracing.c:370-383`. -/
def getPartial (s : PyTracing) (tag : Nat) : Option PyTracingDataArray × PyTracing :=
  let d := s.named tag
  if d.currData.cur = 0 then (none, s)
  else (some d.currData, s.setNamed tag { d with currData := .empty })

/-- An event, with the slots it writes to in order. -/
def step (s : PyTracing) : PyTracingEvent → PyTracing × List Nat
  | .call tag now => s.profilerCall tag now
  | .ret tag now => s.profilerReturn tag now
  | .gcStart now => s.gcStart now
  | .gcStop now now' info between => s.gcStop now now' info between
  | .switch on => ({ s with startTracing := on }, [])
  | .fetch tag => ((s.getPartial tag).2, [])

def next (s : PyTracing) (e : PyTracingEvent) : PyTracing := (s.step e).1

/-- The index of the next slot of a tag. -/
def cur (s : PyTracing) (tag : Nat) : Nat := (s.named tag).currData.cur

/-- All indices are within the buffer or at its end. -/
def Within (s : PyTracing) : Prop := ∀ tag, s.cur tag ≤ pyTracingBufferSize

/-- The event writes to slots of the buffer and leaves the index within it or at its end. -/
def InBounds (s : PyTracing) (e : PyTracingEvent) : Prop :=
  (∀ slot ∈ (s.step e).2, slot < pyTracingBufferSize) ∧ (s.next e).Within

/-- A return that is traced finds a free slot, and the stop of a collection that is traced two, or
one if tracing is switched off between its two tests. -/
def Room (s : PyTracing) : PyTracingEvent → Prop
  | .ret tag _ => s.startTracing = true → s.cur tag < pyTracingBufferSize
  | .gcStop _ _ _ between => s.startTracing = true →
    s.cur pyTracingGc + (if between = some false then 1 else 2) ≤ pyTracingBufferSize
  | _ => True

end PyTracing

/-! ### The order of starts and ends -/

/-- What an event is for the buffer of a tag: a start that is traced, an end that takes up slots, or
a fetch. -/
inductive TracingMark where
  | start
  | finish (slots : Nat)
  | fetch
  deriving DecidableEq

namespace TracingMark

def isFinish : TracingMark → Bool
  | .finish _ => true
  | _ => false

/-- The slots that the ends of some marks take up. -/
def slots (marks : List TracingMark) : Nat :=
  (marks.map fun | .finish n => n | _ => 0).sum

/-- The slots that have been taken up since the last fetch. -/
def sinceFetch (marks : List TracingMark) : Nat :=
  slots (marks.rtakeWhile fun mark ↦ mark ≠ .fetch)

/-- Counted from the last fetch, no run of ends without a start between them goes past a multiple of
the buffer's size. -/
def Paced (marks : List TracingMark) : Prop :=
  ∀ before run rest, marks = before ++ run ++ rest → (∀ mark ∈ run, mark.isFinish = true) →
    sinceFetch before % pyTracingBufferSize + slots run ≤ pyTracingBufferSize

end TracingMark

namespace PyTracingEvent

/-- Whether tracing is on after an event. -/
def switched (on : Bool) : PyTracingEvent → Bool
  | .switch on' => on'
  | .gcStop _ _ _ between => between.getD on
  | _ => on

/-- The mark of an event, with tracing on or off before it. -/
def mark (tag : Nat) (on : Bool) : PyTracingEvent → List TracingMark
  | .call tag' _ => if on ∧ tag = tag' then [.start] else []
  | .ret tag' _ => if on ∧ tag = tag' then [.finish 1] else []
  | .gcStart _ => if on ∧ tag = pyTracingGc then [.start] else []
  | .gcStop _ _ _ between =>
    if on ∧ tag = pyTracingGc then [.finish (if between = some false then 1 else 2)] else []
  | .switch _ => []
  | .fetch tag' => if tag = tag' then [.fetch] else []

/-- The marks of some events. -/
def marks (tag : Nat) : Bool → List PyTracingEvent → List TracingMark
  | _, [] => []
  | on, e :: events => e.mark tag on ++ marks tag (e.switched on) events

end PyTracingEvent

namespace PyTracing

variable {s : PyTracing}

theorem cur_setNamed (s : PyTracing) (tag tag' : Nat) (d : NamedTracingData) :
    (s.setNamed tag d).cur tag' = if tag' = tag then d.currData.cur else s.cur tag' := by
  simp only [cur, setNamed, Function.update_apply]
  split <;> rfl

/-- A new entry for one tag keeps the indices within the buffer if its own is. -/
theorem Within.setNamed_iff (within : s.Within) (tag : Nat) (d : NamedTracingData) :
    (s.setNamed tag d).Within ↔ d.currData.cur ≤ pyTracingBufferSize := by
  constructor
  · intro all
    have here := all tag
    rwa [cur_setNamed, if_pos rfl] at here
  · intro here tag'
    rw [cur_setNamed]
    split
    · exact here
    · exact within tag'

/-- A start writes to a slot of the buffer. -/
theorem cur_makeRoom_lt {d : NamedTracingData} (within : d.currData.cur ≤ pyTracingBufferSize) :
    d.makeRoom.currData.cur < pyTracingBufferSize := by
  rw [NamedTracingData.makeRoom]
  split
  · exact Nat.succ_pos _
  · next room => exact Nat.lt_of_le_of_ne within room

theorem inBounds_start (within : s.Within) (tag now : Nat) :
    (∀ slot ∈ ((s.named tag).recordStart now).2, slot < pyTracingBufferSize) ∧
      (s.setNamed tag ((s.named tag).recordStart now).1).Within := by
  have room := cur_makeRoom_lt (within tag)
  rw [within.setNamed_iff]
  constructor
  · intro slot mem
    rw [List.mem_singleton.mp mem]
    exact room
  · exact Nat.le_of_lt room

theorem inBounds_return (within : s.Within) (tag now : Nat) :
    s.InBounds (.ret tag now) ↔ s.Room (.ret tag now) := by
  simp only [InBounds, next, step, profilerReturn, Room]
  rw [within.setNamed_iff]
  cases s.startTracing with
  | true =>
    simp only [if_true, NamedTracingData.recordReturn, PyTracingDataArray.write, List.mem_singleton,
      forall_eq, forall_const]
    exact ⟨fun h ↦ h.1, fun room ↦ ⟨room, room⟩⟩
  | false =>
    simp only [Bool.false_eq_true, if_false, List.not_mem_nil, false_implies, implies_true,
      true_and, iff_true]
    exact within tag

/-- With a free slot for each write, the slots are those from the index on. -/
theorem inBounds_gcStop (within : s.Within) (now now' : Nat) (info : GcInfo)
    (between : Option Bool) :
    s.InBounds (.gcStop now now' info between) ↔ s.Room (.gcStop now now' info between) := by
  have within' : ∀ on, Within { s with startTracing := on } := fun _ ↦ within
  have here := within pyTracingGc
  simp only [cur] at here
  simp only [InBounds, next, step, gcStop, Room]
  rw [(within' _).setNamed_iff]
  cases s.startTracing with
  | true =>
    have inner : between.getD true = !decide (between = some false) := by
      cases between with
      | none => rfl
      | some on => cases on <;> rfl
    rw [inner]
    simp only [if_true, forall_const]
    by_cases off : between = some false
    · simp only [off, decide_true, Bool.not_true, Bool.false_eq_true, if_false, if_true,
        NamedTracingData.recordReturn, PyTracingDataArray.write, List.nil_append,
        List.mem_singleton, forall_eq]
      exact ⟨fun h ↦ h.1, fun room ↦ ⟨room, room⟩⟩
    · simp only [off, decide_false, Bool.not_false, if_true, if_false,
        NamedTracingData.recordGc, NamedTracingData.recordReturn, PyTracingDataArray.write,
        List.cons_append, List.nil_append, List.mem_cons, List.not_mem_nil, or_false,
        forall_eq_or_imp, forall_eq, cur]
      omega
  | false =>
    simp only [Bool.false_eq_true, if_false, List.not_mem_nil, false_implies, implies_true,
      true_and, iff_true]
    exact here

/-- An event is in bounds if and only if it has room. -/
theorem inBounds_iff_room (within : s.Within) (e : PyTracingEvent) : s.InBounds e ↔ s.Room e := by
  cases e with
  | call tag now =>
    simp only [InBounds, next, step, profilerCall, Room, iff_true]
    split
    · exact inBounds_start within tag now
    · exact ⟨fun _ mem ↦ absurd mem List.not_mem_nil, within⟩
  | ret tag now => exact inBounds_return within tag now
  | gcStart now =>
    simp only [InBounds, next, step, gcStart, Room, iff_true]
    split
    · exact inBounds_start within pyTracingGc now
    · exact ⟨fun _ mem ↦ absurd mem List.not_mem_nil, within⟩
  | gcStop now now' info between => exact inBounds_gcStop within now now' info between
  | switch on => exact ⟨fun _ ↦ trivial, fun _ ↦ ⟨fun _ mem ↦ absurd mem List.not_mem_nil, within⟩⟩
  | fetch tag =>
    simp only [InBounds, next, step, getPartial, Room, iff_true]
    refine ⟨fun _ mem ↦ absurd mem List.not_mem_nil, ?_⟩
    split
    · exact within
    · exact (within.setNamed_iff _ _).mpr (Nat.zero_le _)

theorem run_inBounds_iff (within : s.Within) (events : List PyTracingEvent) :
    FoldMeets next InBounds s events ↔ FoldMeets next Room s events := by
  induction events generalizing s with
  | nil => exact Iff.rfl
  | cons e events ih =>
    constructor
    · rintro ⟨bounds, rest⟩
      exact ⟨(inBounds_iff_room within e).mp bounds, (ih bounds.2).mp rest⟩
    · rintro ⟨room, rest⟩
      have bounds := (inBounds_iff_room within e).mpr room
      exact ⟨bounds, (ih bounds.2).mpr rest⟩

end PyTracing

/-! ### Starts and ends, and the index -/

namespace TracingMark

/-- What a mark does to the index. -/
def move (cur : Nat) : TracingMark → Nat
  | .start => if cur = pyTracingBufferSize then 0 else cur
  | .finish n => cur + n
  | .fetch => 0

/-- The index after some marks. -/
def cursor (marks : List TracingMark) : Nat := marks.foldl move 0

theorem cursor_concat (marks : List TracingMark) (mark : TracingMark) :
    cursor (marks ++ [mark]) = move (cursor marks) mark := by
  rw [cursor, List.foldl_append]
  rfl

theorem slots_concat (marks : List TracingMark) (n : Nat) :
    slots (marks ++ [.finish n]) = slots marks + n := by
  simp [slots]

theorem sinceFetch_concat (marks : List TracingMark) (mark : TracingMark) :
    sinceFetch (marks ++ [mark]) =
      match mark with
      | .start => sinceFetch marks
      | .finish n => sinceFetch marks + n
      | .fetch => 0 := by
  cases mark with
  | start => simp [sinceFetch, slots]
  | fetch => simp [sinceFetch, slots]
  | finish n =>
    rw [sinceFetch, List.rtakeWhile_concat_pos _ _ _ (by simp), slots_concat, sinceFetch]

/-- What the index after some marks says of them: it is at the end of each run of ends behind them,
and at that of one of them. -/
structure Tracked (marks : List TracingMark) : Prop where
  within : cursor marks ≤ pyTracingBufferSize
  total : cursor marks % pyTracingBufferSize = sinceFetch marks % pyTracingBufferSize
  above : ∀ before run, marks = before ++ run → (∀ mark ∈ run, mark.isFinish = true) →
    sinceFetch before % pyTracingBufferSize + slots run ≤ cursor marks
  reached : ∃ before run, marks = before ++ run ∧ (∀ mark ∈ run, mark.isFinish = true) ∧
    sinceFetch before % pyTracingBufferSize + slots run = cursor marks

/-- Where no end is last, the only run behind the marks is the empty one. -/
theorem Tracked.of_fresh {marks : List TracingMark} {mark : TracingMark}
    (fresh : mark.isFinish = false)
    (cursor_eq : cursor (marks ++ [mark]) = sinceFetch (marks ++ [mark]) % pyTracingBufferSize) :
    Tracked (marks ++ [mark]) := by
  have lt : sinceFetch (marks ++ [mark]) % pyTracingBufferSize < pyTracingBufferSize :=
    Nat.mod_lt _ (by decide)
  refine ⟨by omega, by rw [cursor_eq, Nat.mod_mod], ?_, ?_⟩
  · intro before run split ends
    rcases List.eq_nil_or_concat run with rfl | ⟨front, last, rfl⟩
    · rw [List.append_nil] at split
      rw [← split, cursor_eq]
      rfl
    · rw [List.concat_eq_append, ← List.append_assoc] at split
      have same := (List.append_inj' split rfl).2
      have last_end := ends last (by simp)
      rw [← (List.cons.inj same).1, fresh] at last_end
      cases last_end
  · exact ⟨_, [], (List.append_nil _).symm, fun _ mem ↦ absurd mem List.not_mem_nil,
      cursor_eq.symm⟩

/-- An end keeps the index tracked if its slots are left. -/
theorem Tracked.finish {marks : List TracingMark} (tracked : Tracked marks) {n : Nat}
    (room : cursor marks + n ≤ pyTracingBufferSize) : Tracked (marks ++ [.finish n]) := by
  have moved : cursor (marks ++ [.finish n]) = cursor marks + n := cursor_concat _ _
  have total : (cursor marks + n) % pyTracingBufferSize =
      (sinceFetch marks + n) % pyTracingBufferSize := by
    rw [Nat.add_mod, tracked.total, ← Nat.add_mod]
  refine ⟨moved ▸ room, by rw [moved, sinceFetch_concat, total], ?_, ?_⟩
  · intro before run split ends
    rcases List.eq_nil_or_concat run with rfl | ⟨front, last, rfl⟩
    · rw [List.append_nil] at split
      rw [← split, sinceFetch_concat, moved, ← total]
      exact Nat.mod_le _ _
    · rw [List.concat_eq_append, ← List.append_assoc] at split
      obtain ⟨split, same⟩ := List.append_inj' split rfl
      rw [List.concat_eq_append, ← (List.cons.inj same).1, slots_concat, moved, ← Nat.add_assoc]
      refine Nat.add_le_add_right (tracked.above before front split fun mark mem ↦ ?_) n
      exact ends mark (by simp [mem])
  · obtain ⟨before, run, split, ends, at_end⟩ := tracked.reached
    refine ⟨before, run ++ [.finish n], by rw [split, List.append_assoc], ?_, ?_⟩
    · intro mark mem
      rcases List.mem_append.mp mem with old | new
      · exact ends mark old
      · rw [List.mem_singleton.mp new]
        rfl
    · rw [slots_concat, moved, ← Nat.add_assoc, at_end]

theorem paced_nil : Paced [] := by
  intro before run rest split _
  obtain ⟨rfl, rfl, rfl⟩ : before = [] ∧ run = [] ∧ rest = [] := by simpa using split.symm
  exact Nat.zero_le _

/-- One more mark keeps the pace if it is an end that finds its slots, or no end. -/
theorem paced_concat_iff {marks : List TracingMark} (tracked : Tracked marks)
    (mark : TracingMark) :
    Paced (marks ++ [mark]) ↔
      Paced marks ∧ ∀ n, mark = .finish n → cursor marks + n ≤ pyTracingBufferSize := by
  constructor
  · intro paced
    refine ⟨fun before run rest split ends ↦ ?_, ?_⟩
    · refine paced before run (rest ++ [mark]) ?_ ends
      rw [split, List.append_assoc _ rest]
    · rintro n rfl
      obtain ⟨before, run, split, ends, at_end⟩ := tracked.reached
      have whole := paced before (run ++ [.finish n]) [] (by simp [split]) (by
        intro mark mem
        rcases List.mem_append.mp mem with old | new
        · exact ends mark old
        · rw [List.mem_singleton.mp new]
          rfl)
      rw [slots_concat] at whole
      omega
  · rintro ⟨paced, room⟩ before run rest split ends
    rcases List.eq_nil_or_concat rest with rfl | ⟨rest, last, rfl⟩
    · rcases List.eq_nil_or_concat run with rfl | ⟨front, last, rfl⟩
      · have lt : sinceFetch before % pyTracingBufferSize < pyTracingBufferSize :=
          Nat.mod_lt _ (by decide)
        exact Nat.le_of_lt lt
      · rw [List.append_nil, List.concat_eq_append, ← List.append_assoc] at split
        obtain ⟨fronts, same⟩ := List.append_inj' split rfl
        rw [List.concat_eq_append] at ends ⊢
        have is_end := ends last (by simp)
        cases last with
        | start => cases is_end
        | fetch => cases is_end
        | finish n =>
          have above := tracked.above before front fronts fun mark mem ↦ ends mark (by simp [mem])
          have room := room n (List.cons.inj same).1
          rw [slots_concat]
          omega
    · rw [List.concat_eq_append, ← List.append_assoc] at split
      exact paced before run rest (List.append_inj' split rfl).1 ends

/-- Marks that keep the pace are tracked by the index. -/
theorem Paced.tracked {marks : List TracingMark} (paced : Paced marks) : Tracked marks := by
  induction marks using List.reverseRecOn with
  | nil =>
    refine ⟨Nat.zero_le _, rfl, ?_, [], [], rfl, fun _ mem ↦ absurd mem List.not_mem_nil, rfl⟩
    intro before run split _
    obtain ⟨rfl, rfl⟩ : before = [] ∧ run = [] := by simpa using split.symm
    exact Nat.zero_le _
  | append_singleton marks mark ih =>
    have tracked := ih fun before run rest split ends ↦
      paced before run (rest ++ [mark]) (by rw [split, List.append_assoc _ rest]) ends
    cases mark with
    | start =>
      refine .of_fresh rfl ?_
      rw [cursor_concat, sinceFetch_concat, ← tracked.total, move]
      have within := tracked.within
      split
      · next full => rw [full, Nat.mod_self]
      · next room => rw [Nat.mod_eq_of_lt (Nat.lt_of_le_of_ne within room)]
    | fetch =>
      refine .of_fresh rfl ?_
      rw [cursor_concat, sinceFetch_concat, move]
      rfl
    | finish n => exact tracked.finish (((paced_concat_iff tracked _).mp paced).2 n rfl)

end TracingMark

namespace PyTracingEvent

theorem marks_concat (tag : Nat) (on : Bool) (events : List PyTracingEvent) (e : PyTracingEvent) :
    marks tag on (events ++ [e]) =
      marks tag on events ++ e.mark tag (events.foldl switched on) := by
  induction events generalizing on with
  | nil => simp [marks]
  | cons first events ih => rw [List.cons_append, marks, marks, ih, List.append_assoc]; rfl

end PyTracingEvent

namespace PyTracing

variable {s : PyTracing}

theorem startTracing_next (s : PyTracing) (e : PyTracingEvent) :
    (s.next e).startTracing = e.switched s.startTracing := by
  cases e with
  | call tag now =>
    simp only [next, step, profilerCall]
    split <;> rfl
  | gcStart now =>
    simp only [next, step, gcStart]
    split <;> rfl
  | fetch tag =>
    simp only [next, step, getPartial]
    split <;> rfl
  | ret tag now => rfl
  | gcStop now now' info between => rfl
  | switch on => rfl

theorem cur_recordStart (d : NamedTracingData) (now : Nat) :
    (d.recordStart now).1.currData.cur = TracingMark.move d.currData.cur .start := by
  simp only [NamedTracingData.recordStart, PyTracingDataArray.write, NamedTracingData.makeRoom,
    TracingMark.move]
  split <;> rfl

/-- An event moves the index of a tag as its mark says. -/
theorem cur_next (s : PyTracing) (e : PyTracingEvent) (tag : Nat) :
    (s.next e).cur tag = (e.mark tag s.startTracing).foldl TracingMark.move (s.cur tag) := by
  cases e with
  | call tag' now =>
    simp only [next, step, profilerCall, PyTracingEvent.mark]
    cases s.startTracing with
    | false => rfl
    | true =>
      simp only [if_true, true_and, cur_setNamed, cur_recordStart]
      split
      · next eq => rw [eq]; rfl
      · rfl
  | ret tag' now =>
    simp only [next, step, profilerReturn, PyTracingEvent.mark, cur_setNamed]
    cases s.startTracing with
    | false =>
      split
      · next eq => rw [eq]; rfl
      · rfl
    | true =>
      simp only [if_true, true_and]
      split
      · next eq => rw [eq]; rfl
      · rfl
  | gcStart now =>
    simp only [next, step, gcStart, PyTracingEvent.mark]
    cases s.startTracing with
    | false => rfl
    | true =>
      simp only [if_true, true_and, cur_setNamed, cur_recordStart]
      split
      · next eq => rw [eq]; rfl
      · rfl
  | gcStop now now' info between =>
    simp only [next, step, gcStop, PyTracingEvent.mark, cur_setNamed]
    cases s.startTracing with
    | false =>
      split
      · next eq => rw [eq]; rfl
      · rfl
    | true =>
      simp only [if_true, true_and]
      split
      · next eq =>
        rw [eq]
        rcases between with _ | _ | _ <;> rfl
      · rfl
  | switch on => rfl
  | fetch tag' =>
    simp only [next, step, getPartial, PyTracingEvent.mark]
    split
    · next zero =>
      split
      · next eq => rw [eq, cur, zero]; rfl
      · rfl
    · rw [cur_setNamed]
      split <;> rfl

/-- An event has room if its ends find their slots. -/
theorem room_iff (s : PyTracing) (e : PyTracingEvent) :
    s.Room e ↔ ∀ tag n, .finish n ∈ e.mark tag s.startTracing →
      s.cur tag + n ≤ pyTracingBufferSize := by
  cases e with
  | ret tag now =>
    simp only [Room, PyTracingEvent.mark]
    constructor
    · intro room tag' n mem
      split at mem
      · next traced =>
        cases List.mem_singleton.mp mem
        rw [traced.2]
        exact room traced.1
      · cases mem
    · intro room on
      exact room tag 1 (by simp [on])
  | gcStop now now' info between =>
    simp only [Room, PyTracingEvent.mark]
    constructor
    · intro room tag n mem
      split at mem
      · next traced =>
        cases List.mem_singleton.mp mem
        rw [traced.2]
        exact room traced.1
      · cases mem
    · intro room on
      exact room pyTracingGc _ (by simp [on])
  | call tag now | gcStart now | fetch tag =>
    simp only [Room, PyTracingEvent.mark, true_iff]
    intro tag' n mem
    split at mem
    · cases List.mem_singleton.mp mem
    · cases mem
  | switch on => simp [Room, PyTracingEvent.mark]

theorem mark_eq (e : PyTracingEvent) (tag : Nat) (on : Bool) :
    e.mark tag on = [] ∨ ∃ mark, e.mark tag on = [mark] := by
  cases e with
  | switch on => exact .inl rfl
  | _ =>
    simp only [PyTracingEvent.mark]
    split
    · exact .inr ⟨_, rfl⟩
    · exact .inl rfl

/-- The flag and the indices after some events. -/
theorem foldl_next (events : List PyTracingEvent) :
    (events.foldl next init).startTracing = events.foldl PyTracingEvent.switched false ∧
      ∀ tag, (events.foldl next init).cur tag =
        TracingMark.cursor (PyTracingEvent.marks tag false events) := by
  induction events using List.reverseRecOn with
  | nil => exact ⟨rfl, fun _ ↦ rfl⟩
  | append_singleton events e ih =>
    simp only [List.foldl_append, List.foldl_cons, List.foldl_nil]
    refine ⟨by rw [startTracing_next, ih.1], fun tag ↦ ?_⟩
    rw [cur_next, ih.1, ih.2, PyTracingEvent.marks_concat, TracingMark.cursor,
      ← List.foldl_append, TracingMark.cursor]

/-- From the start on, each event writes to slots of the buffers and leaves the indices within them
or at their end if and only if no run of ends of a tag goes past a multiple of the buffer's size. -/
theorem tracing_inBounds_iff (events : List PyTracingEvent) :
    FoldMeets next InBounds init events ↔
      ∀ tag, TracingMark.Paced (PyTracingEvent.marks tag false events) := by
  rw [run_inBounds_iff fun _ ↦ Nat.zero_le _]
  induction events using List.reverseRecOn with
  | nil => exact ⟨fun _ _ ↦ TracingMark.paced_nil, fun _ ↦ trivial⟩
  | append_singleton events e ih =>
    obtain ⟨flag, indices⟩ := foldl_next events
    have last : FoldMeets next Room (events.foldl next init) [e] ↔
        ∀ tag n, .finish n ∈ e.mark tag (events.foldl PyTracingEvent.switched false) →
          TracingMark.cursor (PyTracingEvent.marks tag false events) + n ≤
            pyTracingBufferSize := by
      rw [FoldMeets, FoldMeets, and_true, room_iff, flag]
      simp only [indices]
    have each (tag : Nat)
        (paced : TracingMark.Paced (PyTracingEvent.marks tag false events)) :
        TracingMark.Paced (PyTracingEvent.marks tag false (events ++ [e])) ↔
          ∀ n, .finish n ∈ e.mark tag (events.foldl PyTracingEvent.switched false) →
            TracingMark.cursor (PyTracingEvent.marks tag false events) + n ≤
              pyTracingBufferSize := by
      rw [PyTracingEvent.marks_concat]
      rcases mark_eq e tag (events.foldl PyTracingEvent.switched false) with none | ⟨mark, one⟩
      · simp [none, paced]
      · simp only [one, TracingMark.paced_concat_iff paced.tracked, paced, true_and,
          List.mem_singleton, eq_comm]
    rw [foldMeets_append, ih, last]
    constructor
    · rintro ⟨paced, room⟩ tag
      exact (each tag (paced tag)).mpr (room tag)
    · intro paced
      have before (tag : Nat) : TracingMark.Paced (PyTracingEvent.marks tag false events) := by
        intro front run rest split ends
        refine paced tag front run
          (rest ++ e.mark tag (events.foldl PyTracingEvent.switched false)) ?_ ends
        rw [PyTracingEvent.marks_concat, split, List.append_assoc _ rest]
      exact ⟨before, fun tag ↦ (each tag (before tag)).mp (paced tag)⟩

/-! ### Calls that fill the buffer -/

/-- A traced call that finds a free slot leaves the index where it is. -/
theorem cur_call (tag now : Nat) (on : s.startTracing = true)
    (room : s.cur tag < pyTracingBufferSize) :
    (s.next (.call tag now)).startTracing = true ∧
      (s.next (.call tag now)).cur tag = s.cur tag := by
  have kept : (s.named tag).makeRoom = s.named tag := if_neg (Nat.ne_of_lt room)
  simp only [next, step, profilerCall, on, if_true, NamedTracingData.recordStart, kept,
    cur_setNamed]
  exact ⟨on, rfl⟩

/-- A traced return moves it on. -/
theorem cur_ret (tag now : Nat) (on : s.startTracing = true) :
    (s.next (.ret tag now)).startTracing = true ∧
      (s.next (.ret tag now)).cur tag = s.cur tag + 1 := by
  simp only [next, step, profilerReturn, on, if_true, NamedTracingData.recordReturn, cur_setNamed]
  exact ⟨on, rfl⟩

/-- Calls of a function, one after the other. -/
def calls (tag n : Nat) : List PyTracingEvent :=
  (List.replicate n [.call tag 0, .ret tag 0]).flatten

theorem foldl_calls (tag n : Nat) (on : s.startTracing = true)
    (room : s.cur tag + n ≤ pyTracingBufferSize) :
    ((calls tag n).foldl next s).startTracing = true ∧
      ((calls tag n).foldl next s).cur tag = s.cur tag + n := by
  induction n generalizing s with
  | zero => exact ⟨on, rfl⟩
  | succ n ih =>
    rw [calls, List.replicate_succ, List.flatten_cons, List.foldl_append]
    simp only [List.foldl_cons, List.foldl_nil]
    have called : _ ∧ (s.next (.call tag 0)).cur tag = s.cur tag := cur_call tag 0 on (by omega)
    have returned := cur_ret tag 0 called.1
    rw [called.2] at returned
    have rest := ih returned.1 (by omega)
    rw [returned.2] at rest
    exact ⟨rest.1, rest.2.trans (by omega)⟩

/-- A function is called 511 times and then once more, and calls itself: both returns take up a
slot, but only one is left. -/
theorem recursion_out_of_bounds : ¬∀ events, FoldMeets next InBounds init events := by
  intro every
  let recursion : List PyTracingEvent := [.call 1 0, .call 1 0, .ret 1 0, .ret 1 0]
  have bounds := every (([.switch true] : List PyTracingEvent) ++ (calls 1 511 ++ recursion))
  rw [run_inBounds_iff (fun _ ↦ Nat.zero_le _), foldMeets_append, foldMeets_append] at bounds
  have room := bounds.2.2
  have filled := foldl_calls (s := init.next (.switch true)) 1 511 rfl (by decide)
  have start : (init.next (.switch true)).cur 1 = 0 := rfl
  rw [start] at filled
  simp only [List.foldl_cons, List.foldl_nil] at room
  -- One slot is left: the calls keep it, the first return takes it.
  generalize (calls 1 511).foldl next (init.next (.switch true)) = s at room filled
  have first := cur_call 1 0 filled.1 (by rw [filled.2]; decide)
  have second := cur_call 1 0 first.1 (by rw [first.2, filled.2]; decide)
  have inner := cur_ret 1 0 second.1
  have outer : _ < pyTracingBufferSize := room.2.2.2.1 inner.1
  rw [inner.2, second.2, first.2, filled.2] at outer
  exact absurd outer (by decide)

end PyTracing

end ProbingBaselines.XpuTimer
