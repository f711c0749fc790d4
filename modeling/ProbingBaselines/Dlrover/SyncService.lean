import Mathlib.Algebra.Order.Ring.Rat
import Mathlib.Data.List.Nodup
import ProbingBaselines.Lib.Dict
import ProbingBaselines.Lib.Run

/-!
# Worker synchronisation

The `SyncService` of the master: the first worker that joins a sync puts all running workers on its
list, and a worker is taken off when it joins, exits, or the sync times out. `join_sync` and the
sweep of the timeout thread hold one lock; `remove_exited_worker_sync` takes no lock, so its steps
fall between any two steps of the others. `sync_finished` and the barriers read and write nothing
that matters here.
-/

namespace ProbingBaselines.Dlrover

open Lib

/-- A worker on a list: its type and its id. -/
abbrev SyncWorker := String × Int

/-- Where a `join_sync` stands: before it stores the running workers it has read under a new name,
before the membership test, before `remove`, or before the test for an empty list. -/
inductive JoinPhase where
  | create (running : {l : List SyncWorker // l.Nodup})
  | test
  | remove
  | close
deriving DecidableEq

/-- The `join_sync` that holds the lock. -/
structure JoinCall where
  name : String
  worker : SyncWorker
  phase : JoinPhase

/-- Where a `remove_exited_worker_sync` stands: at the head of its loop, before the membership test
of a name, or before the `remove` from its list. -/
inductive ExitPhase where
  | next
  | test (name : String)
  | remove (name : String)
deriving DecidableEq

/-- A running `remove_exited_worker_sync`: `size` is the length of the dictionary its iterator was
made from, `rest` the names still to come. -/
structure ExitCall where
  worker : SyncWorker
  size : Nat
  rest : List String
  phase : ExitPhase

namespace ExitPhase

/-- The list the call is about to take its worker off. -/
def removing : ExitPhase → Option String
  | .remove name => some name
  | _ => none

end ExitPhase

namespace ExitCall

/-- The names whose list the call has not finished with. -/
def pending (c : ExitCall) : List String :=
  match c.phase with
  | .next => c.rest
  | .test name => name :: c.rest
  | .remove name => name :: c.rest

end ExitCall

/-- The thread of `delete_sync_timeout_worker`. `rest` are the start times the outer loop has not
read yet, `found` is `timeout_workers`, and `index` is the position of the iterator over the list
the inner loop edits. -/
inductive Sweeper where
  | sleeping
  | names (rest : List (String × ℚ)) (found : List SyncWorker)
  | workers (name : String) (index : Nat) (rest : List (String × ℚ)) (found : List SyncWorker)
  | remove (name : String) (worker : SyncWorker) (index : Nat) (rest : List (String × ℚ))
      (found : List SyncWorker)
  | handing (found : List SyncWorker)
  | dead
deriving DecidableEq

namespace Sweeper

/-- The list the inner loop is on. -/
def on : Sweeper → Option String
  | .workers name _ _ _ => some name
  | .remove name _ _ _ _ => some name
  | _ => none

/-- The start time the outer loop reads next. -/
def due : Sweeper → Option (String × ℚ)
  | .names (e :: _) _ => some e
  | _ => none

/-- The removal the inner loop is about to make. -/
def removing : Sweeper → Option (String × SyncWorker)
  | .remove name worker _ _ _ => some (name, worker)
  | _ => none

def locked : Sweeper → Bool
  | .names _ _ => true
  | .workers _ _ _ _ => true
  | .remove _ _ _ _ _ => true
  | _ => false

def found : Sweeper → List SyncWorker
  | .handing found => found
  | _ => []

end Sweeper

/-- The service and the calls that are under way (`sync_service.py:25-35`). -/
structure SyncService where
  syncObjsTarget : Dict String (List SyncWorker)
  syncStartTime : Dict String ℚ
  timeout : ℚ
  join : Option JoinCall
  exits : Dict Nat ExitCall
  sweeper : Sweeper

/-- One step of one thread. What a call reads from outside is part of its label: the running
workers, which the job manager keeps by id, the clock, and whether `remove_worker` returned. -/
inductive SyncAct where
  | join (name : String) (worker : SyncWorker) (running : {l : List SyncWorker // l.Nodup})
  | joinStep (now : ℚ)
  | exitStart (call : Nat) (worker : SyncWorker)
  | exitStep (call : Nat)
  | sweepStart
  | sweepStep (now : ℚ)
  | handOver (worker : SyncWorker) (returned : Bool)

/-- The list under a name. -/
def listOf (d : Dict String (List SyncWorker)) (name : String) : List SyncWorker :=
  (d.get? name).getD []

namespace SyncService

def init (timeout : ℚ) : SyncService := ⟨.empty, .empty, timeout, none, .empty, .sleeping⟩

/-- The list of a sync. -/
def remaining (s : SyncService) (name : String) : List SyncWorker := listOf s.syncObjsTarget name

/-- `self._sync_objs_target[sync_name].remove(worker)`. -/
def takeOff (s : SyncService) (name : String) (worker : SyncWorker) : SyncService :=
  { s with syncObjsTarget := s.syncObjsTarget.insert name ((s.remaining name).erase worker) }

/-- Nobody holds `self._lock`. -/
def LockFree (s : SyncService) : Prop := s.join = none ∧ s.sweeper.locked = false

instance (s : SyncService) : Decidable s.LockFree := inferInstanceAs (Decidable (_ ∧ _))

/-- `join_sync` takes the lock and, for a new name, reads the running workers
(`sync_service.py:45-49`). -/
def joinSync (s : SyncService) (name : String) (worker : SyncWorker)
    (running : {l : List SyncWorker // l.Nodup}) : SyncService :=
  if name ∈ s.syncObjsTarget then { s with join := some ⟨name, worker, .test⟩ }
  else { s with join := some ⟨name, worker, .create running⟩ }

/-- The other steps of `join_sync` (`sync_service.py:50-66`). When an exit has taken the worker off
after the membership test, `remove` raises and the lock is released. -/
def joinStep (s : SyncService) (now : ℚ) (j : JoinCall) : SyncService :=
  match j.phase with
  | .create running =>
    { s with
      syncObjsTarget := s.syncObjsTarget.insert j.name running
      syncStartTime := s.syncStartTime.insert j.name now
      join := some { j with phase := .test } }
  | .test =>
    if j.worker ∈ s.remaining j.name then { s with join := some { j with phase := .remove } }
    else { s with join := none }
  | .remove =>
    if j.worker ∈ s.remaining j.name then
      { s.takeOff j.name j.worker with join := some { j with phase := .close } }
    else { s with join := none }
  | .close =>
    if s.remaining j.name = [] then
      { s with syncStartTime := s.syncStartTime.erase j.name, join := none }
    else { s with join := none }

/-- `remove_exited_worker_sync` makes its iterator (`sync_service.py:87-89`). -/
def exitStart (s : SyncService) (call : Nat) (worker : SyncWorker) : SyncService :=
  { s with
    exits := s.exits.insert call
      ⟨worker, s.syncObjsTarget.items.length, s.syncObjsTarget.keys, .next⟩ }

/-- One step of the loop of `remove_exited_worker_sync` (`sync_service.py:89-100`). The call ends
when its iterator is exhausted, when the iterator raises because the dictionary has another size
now, and when `remove` raises because the worker is gone. -/
def exitStep (s : SyncService) (call : Nat) (c : ExitCall) : SyncService :=
  match c.phase with
  | .next =>
    if s.syncObjsTarget.items.length ≠ c.size then { s with exits := s.exits.erase call }
    else
      match c.rest with
      | [] => { s with exits := s.exits.erase call }
      | name :: rest =>
        { s with exits := s.exits.insert call { c with rest := rest, phase := .test name } }
  | .test name =>
    if c.worker ∈ s.remaining name then
      { s with exits := s.exits.insert call { c with phase := .remove name } }
    else { s with exits := s.exits.insert call { c with phase := .next } }
  | .remove name =>
    if c.worker ∈ s.remaining name then
      { s.takeOff name c.worker with
        exits := s.exits.insert call { c with phase := .next } }
    else { s with exits := s.exits.erase call }

/-- One step of a sweep (`sync_service.py:103-117`). The inner loop iterates over the list by
position while it takes workers off it. -/
def sweepStep (s : SyncService) (now : ℚ) : Option SyncService :=
  match s.sweeper with
  | .sleeping => none
  | .names [] found => some { s with sweeper := .handing found }
  | .names ((name, startTime) :: rest) found =>
    if s.timeout < now - startTime then some { s with sweeper := .workers name 0 rest found }
    else some { s with sweeper := .names rest found }
  | .workers name index rest found =>
    match (s.remaining name)[index]? with
    | some worker => some { s with sweeper := .remove name worker (index + 1) rest found }
    | none => some { s with sweeper := .names rest found }
  | .remove name worker index rest found =>
    if worker ∈ s.remaining name then
      some { s.takeOff name worker with
        sweeper := .workers name index rest (found.insert worker) }
    else some { s with sweeper := .dead }
  | .handing [] => some { s with sweeper := .sleeping }
  | .handing (_ :: _) => none
  | .dead => none

/-- `remove_worker` is called for one of the workers found; if it raises, the thread ends. The
`DistributedJobManager` looks the pair up among the worker ids (`dist_job_manager.py:1246-1248`). -/
def handOver (s : SyncService) (worker : SyncWorker) (returned : Bool) : SyncService :=
  { s with
    sweeper := if returned then .handing (s.sweeper.found.erase worker) else .dead }

def step (s : SyncService) : SyncAct → Option SyncService
  | .join name worker running =>
    if s.LockFree then some (s.joinSync name worker running) else none
  | .joinStep now => s.join.map (s.joinStep now)
  | .exitStart call worker => if call ∈ s.exits then none else some (s.exitStart call worker)
  | .exitStep call => (s.exits.get? call).map (s.exitStep call)
  | .sweepStart =>
    if s.LockFree ∧ s.sweeper = .sleeping then
      some { s with sweeper := .names s.syncStartTime.items [] }
    else none
  | .sweepStep now => s.sweepStep now
  | .handOver worker returned =>
    if worker ∈ s.sweeper.found then some (s.handOver worker returned) else none

/-- An exit call has found the worker on the list and is about to take it off. -/
def ExitDue (s : SyncService) (name : String) (worker : SyncWorker) : Prop :=
  ∃ c ∈ s.exits.values, c.phase = .remove name ∧ c.worker = worker

instance (s : SyncService) (name : String) (worker : SyncWorker) :
    Decidable (s.ExitDue name worker) :=
  inferInstanceAs (Decidable (∃ c ∈ s.exits.values, c.phase = .remove name ∧ c.worker = worker))

/-- The lists a step has left empty that were not empty before. -/
def emptied (s next : SyncService) : List String :=
  next.syncObjsTarget.keys.filter fun name ↦
    next.remaining name = [] ∧ s.syncObjsTarget.get? name ≠ some []

end SyncService

/-- The service with its history: the workers running at the first join of a name, who joined and
who exited under which name, the lists a sweep found past their timeout, the workers handed to
`remove_worker`, and the names whose list became empty without a join that closed it. -/
structure SyncLedger where
  service : SyncService
  initial : Dict String (List SyncWorker)
  joined : List (String × SyncWorker)
  exited : List (String × SyncWorker)
  judged : List (String × List SyncWorker)
  handed : List SyncWorker
  leftOpen : List String

namespace SyncLedger

def init (timeout : ℚ) : SyncLedger := ⟨.init timeout, .empty, [], [], [], [], []⟩

/-- What a step adds to the history. -/
def log (s : SyncLedger) (next : SyncService) : SyncAct → SyncLedger
  | .join name worker _ => { s with service := next, joined := (name, worker) :: s.joined }
  | .joinStep _ =>
    match s.service.join with
    | some ⟨name, _, .create running⟩ =>
      { s with
        service := next
        initial := s.initial.insert name running
        leftOpen := s.leftOpen ++ s.service.emptied next }
    | _ => { s with service := next }
  | .exitStart _ worker =>
    { s with
      service := next
      exited := s.exited ++ (s.service.syncObjsTarget.keys ++
        (s.service.join.map JoinCall.name).toList).map (·, worker) }
  | .exitStep _ =>
    { s with service := next, leftOpen := s.leftOpen ++ s.service.emptied next }
  | .sweepStart => { s with service := next }
  | .sweepStep now =>
    { s with
      service := next
      judged := s.judged ++ ((s.service.sweeper.due.filter fun e ↦
        s.service.timeout < now - e.2).map fun e ↦ (e.1, s.service.remaining e.1)).toList
      leftOpen := s.leftOpen ++ s.service.emptied next }
  | .handOver worker _ => { s with service := next, handed := worker :: s.handed }

def step (s : SyncLedger) (a : SyncAct) : Option SyncLedger :=
  (s.service.step a).map (s.log · a)

/-- The worker joined, exited, or was on the list when a sweep found it past its timeout. -/
def Gone (s : SyncLedger) (name : String) (worker : SyncWorker) : Prop :=
  (name, worker) ∈ s.joined ∨ (name, worker) ∈ s.exited ∨
    ∃ e ∈ s.judged, e.1 = name ∧ worker ∈ e.2

instance (s : SyncLedger) (name : String) (worker : SyncWorker) :
    Decidable (s.Gone name worker) :=
  inferInstanceAs (Decidable ((name, worker) ∈ s.joined ∨ (name, worker) ∈ s.exited ∨
    ∃ e ∈ s.judged, e.1 = name ∧ worker ∈ e.2))

/-- No call is at work on the list of a name. -/
def Settled (s : SyncLedger) (name : String) : Prop :=
  (∀ j ∈ s.service.join, j.name ≠ name) ∧ (∀ c ∈ s.service.exits.values, name ∉ c.pending) ∧
    s.service.sweeper.on ≠ some name

instance (s : SyncLedger) (name : String) : Decidable (s.Settled name) :=
  inferInstanceAs (Decidable ((∀ j ∈ s.service.join, j.name ≠ name) ∧
    (∀ c ∈ s.service.exits.values, name ∉ c.pending) ∧ s.service.sweeper.on ≠ some name))

/-- When the bookkeeping is right. No exit call is under way while a join reads the running workers
for a new name and stores them. Nobody takes a worker off a list while an exit call or a sweep has
found it there and is about to take it off itself, and no exit call takes one off the list a sweep
is on. A list that a sweep finds past its timeout has at most one worker, and did not become empty
before without a join that closed it. And `remove_worker` raises for no worker but the last. -/
def Admitted (s : SyncLedger) : SyncAct → Prop
  | .join name _ _ => name ∈ s.service.syncObjsTarget ∨ s.service.exits.items = []
  | .joinStep _ => ∀ j ∈ s.service.join, j.phase = .remove → ¬ s.service.ExitDue j.name j.worker
  | .exitStart _ _ => ∀ j ∈ s.service.join, j.name ∈ s.service.syncObjsTarget
  | .exitStep call => ∀ c ∈ s.service.exits.get? call, ∀ name ∈ c.phase.removing,
      s.service.sweeper.on ≠ some name ∧
      ∀ e ∈ s.service.exits.items, e.1 ≠ call → e.2.phase = .remove name → e.2.worker ≠ c.worker
  | .sweepStart => True
  | .sweepStep now =>
      (∀ e ∈ s.service.sweeper.due, s.service.timeout < now - e.2 →
        (s.service.remaining e.1).length ≤ 1 ∧ e.1 ∉ s.leftOpen) ∧
      ∀ e ∈ s.service.sweeper.removing, ¬ s.service.ExitDue e.1 e.2
  | .handOver worker returned => returned = true ∨ ∀ w ∈ s.service.sweeper.found, w = worker

instance (s : SyncLedger) : (a : SyncAct) → Decidable (s.Admitted a)
  | .join _ _ _ => inferInstanceAs (Decidable (_ ∨ _))
  | .joinStep _ => inferInstanceAs (Decidable (∀ j ∈ s.service.join,
      j.phase = .remove → ¬ s.service.ExitDue j.name j.worker))
  | .exitStart _ _ =>
    inferInstanceAs (Decidable (∀ j ∈ s.service.join, j.name ∈ s.service.syncObjsTarget))
  | .exitStep call => inferInstanceAs (Decidable (∀ c ∈ s.service.exits.get? call,
      ∀ name ∈ c.phase.removing, s.service.sweeper.on ≠ some name ∧
      ∀ e ∈ s.service.exits.items, e.1 ≠ call → e.2.phase = .remove name →
        e.2.worker ≠ c.worker))
  | .sweepStart => .isTrue trivial
  | .sweepStep now => inferInstanceAs (Decidable ((∀ e ∈ s.service.sweeper.due,
      s.service.timeout < now - e.2 →
        (s.service.remaining e.1).length ≤ 1 ∧ e.1 ∉ s.leftOpen) ∧
      ∀ e ∈ s.service.sweeper.removing, ¬ s.service.ExitDue e.1 e.2))
  | .handOver worker returned =>
    inferInstanceAs (Decidable (returned = true ∨ ∀ w ∈ s.service.sweeper.found, w = worker))

end SyncLedger

end ProbingBaselines.Dlrover
