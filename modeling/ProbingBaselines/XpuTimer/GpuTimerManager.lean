import Mathlib.Data.List.Basic
import Mathlib.Logic.Function.Basic

/-!
# The GPU timer manager

Launch threads take a timer from the pool, reset it for their kernel and push it on the working
queue (`nvidia/hook.cc:76-87`, `common/manager.cc:426-428`, `:497-504`), and one thread runs
`doWork` over the queue (`common/manager.cc:535-608`) through `BlockingDeque::pop` and
`TimerPool` (`common/util.h:176-259`). A timer's rebuild callback numbers its kernel
(`nvidia/nvidia_timer.cc:278-319`, `nvidia/intercepted.cc:117-175`), and runs for the item
`doWork` processes and, in a hang dump, for every queued item. Each critical section is one
step; event answers and clocks come from outside. A timer is its address.
-/

namespace ProbingBaselines.XpuTimer

/-- What a launch's rebuild callback returns and numbers: the kernel's name, its problem size
and, for a collective, the hash of its communicator; `intercepted.cc:117-175`. -/
structure Kernel where
  name : String
  problemSize : Nat
  commHash : Option Nat
  deriving DecidableEq

/-- The static members of `NvidiaGpuTimer`; `nvidia_timer.cc:84-88`. -/
structure TimerStatics where
  ncclSeqNum : Nat → Nat
  tracingMetas : String → Option Nat
  traceIdCounter : Nat → Nat
  kernelEncodingCounter : Nat

/-- A timer, with the kernel of its rebuild callback and what the last rebuild set. `launch`
is the number of the recorded launch it was last queued for. -/
structure GpuTimer where
  isHost : Bool
  hangCounter : Nat
  launchTimeForHang : Int
  kernel : Kernel
  name : String
  traceCode : Nat
  traceId : Nat
  seq : Option Nat
  launch : Nat

namespace TimerStatics

/-- The number of a kernel in its communicator; `intercepted.cc:164`. -/
def nextSeq (st : TimerStatics) : Option Nat → TimerStatics × Option Nat
  | none => (st, none)
  | some h =>
    ({ st with ncclSeqNum := Function.update st.ncclSeqNum h (st.ncclSeqNum h + 1) },
      some (st.ncclSeqNum h + 1))

/-- The code of a name, a new one if it has none; `nvidia_timer.cc:285-289`. -/
def encode (st : TimerStatics) (name : String) : TimerStatics × Nat :=
  match st.tracingMetas name with
  | some code => (st, code)
  | none =>
    ({ st with
      tracingMetas := Function.update st.tracingMetas name (some st.kernelEncodingCounter)
      kernelEncodingCounter := st.kernelEncodingCounter + 1 }, st.kernelEncodingCounter)

/-- `reBuild`; `nvidia_timer.cc:145`, `:280-312`. -/
def reBuild (st : TimerStatics) (t : GpuTimer) : TimerStatics × GpuTimer :=
  let (st, seq) := st.nextSeq t.kernel.commHash
  let (st, code) := st.encode t.kernel.name
  let id := st.traceIdCounter code + 1
  ({ st with traceIdCounter := Function.update st.traceIdCounter code id },
    { t with name := t.kernel.name, traceCode := code, traceId := id, seq := seq })

end TimerStatics

/-- `hang_counter_estimator_`; `nvidia_timer.h:294`. -/
def hangCounterEstimator : Nat := 10000

namespace GpuTimer

/-- `isHang`; `nvidia_timer.cc:150-161`. -/
def isHang (t : GpuTimer) (timeout now : Int) : Bool × GpuTimer :=
  if t.hangCounter < hangCounterEstimator then (false, t)
  else if timeout < now - t.launchTimeForHang then
    (true, { t with hangCounter := 0, launchTimeForHang := now })
  else (false, { t with hangCounter := 0 })

/-- `isReady`, for the answer of `cudaEventQuery`; `nvidia_timer.cc:119-124`. -/
def isReady (t : GpuTimer) (ready : Bool) : Bool × GpuTimer :=
  if t.isHost then (true, t)
  else if ready then (true, t)
  else (false, { t with hangCounter := t.hangCounter + 1 })

/-- `reset` for a kernel on a stream, or on the host; `nvidia_timer.cc:316-347`. -/
def reset (t : GpuTimer) (kernel : Kernel) (isHost : Bool) (now : Int) : GpuTimer :=
  { t with
    isHost := isHost
    kernel := kernel
    launchTimeForHang := if isHost then t.launchTimeForHang else now
    hangCounter := 0 }

end GpuTimer

/-- A launch thread between `getEvent` and `recordEvent`; a launch inside a hooked launch counts
as a thread of its own. -/
structure LaunchCall where
  thread : Nat
  timer : Nat
  isReset : Bool
  deriving DecidableEq

/-- Where `doWork` stands: before `pop`, with an item judged hung, about to rebuild, about to
return, or the process gone. -/
inductive WorkPc where
  | popping
  | hanging (item : Nat)
  | processing (item : Nat)
  | returning (item : Nat)
  | exited
  deriving DecidableEq

/-- An item `doWork` has rebuilt: its launch, its kernel, the numbers it was given, and the
kernels a hang dump had rebuilt before. -/
structure Processed where
  launch : Nat
  kernel : Kernel
  traceId : Nat
  seq : Option Nat
  dumpedBefore : List Kernel
  deriving DecidableEq

/-- The manager: `isReady` and `isHangFlag` are the locals of `doWork` that outlive an
iteration. `recorded` counts the launches queued; `popped`, `processed` and `dumped` only record
the launches taken off the queue and what `doWork` and the hang dump have rebuilt. -/
structure GpuTimerManager where
  timers : Nat → GpuTimer
  allocated : Nat
  eventPool : List Nat
  calls : List LaunchCall
  workingQueue : List Nat
  pc : WorkPc
  isReady : Bool
  isHangFlag : Bool
  hasDoHang : Bool
  loopCount : Nat
  statics : TimerStatics
  recorded : Nat
  popped : List Nat
  processed : List Processed
  dumped : List Kernel

/-- A step of a launch thread or of `doWork`. -/
inductive TimerAct where
  | getEvent (thread : Nat)
  | reset (thread : Nat) (kernel : Kernel) (isHost : Bool) (now : Int)
  | recordEvent (thread : Nat)
  | pop (ready : Bool) (now : Int)
  | doHang
  | process
  | returnObject

namespace GpuTimerManager

/-- Nothing launched. -/
def init : GpuTimerManager where
  timers := fun _ ↦ ⟨false, 0, 0, ⟨"", 0, none⟩, "", 0, 0, none, 0⟩
  allocated := 0
  eventPool := []
  calls := []
  workingQueue := []
  pc := .popping
  isReady := false
  isHangFlag := false
  hasDoHang := false
  loopCount := 0
  statics := ⟨fun _ ↦ 0, fun _ ↦ none, fun _ ↦ 0, 0⟩
  recorded := 0
  popped := []
  processed := []
  dumped := []

/-- One timer changed. -/
def setTimer (m : GpuTimerManager) (v : Nat) (t : GpuTimer) : GpuTimerManager :=
  { m with timers := Function.update m.timers v t }

/-- `getEvent`: the front of the pool, or a new timer; `manager.cc:426-428`,
`util.h:234-244`. -/
def getEvent (thread : Nat) (m : GpuTimerManager) : Option GpuTimerManager :=
  if m.calls.any (·.thread = thread) then none
  else
    match m.eventPool with
    | [] => some { m with
        allocated := m.allocated + 1
        calls := ⟨thread, m.allocated, false⟩ :: m.calls
        timers := Function.update m.timers m.allocated
          { m.timers m.allocated with hangCounter := 0 } }
    | v :: pool => some { m with eventPool := pool, calls := ⟨thread, v, false⟩ :: m.calls }

/-- `reset`; `hook.cc:80-83`. -/
def reset (thread : Nat) (kernel : Kernel) (isHost : Bool) (now : Int) (m : GpuTimerManager) :
    Option GpuTimerManager :=
  match m.calls.find? (·.thread = thread) with
  | some ⟨thread, v, false⟩ =>
    some { m.setTimer v ((m.timers v).reset kernel isHost now) with
      calls := ⟨thread, v, true⟩ :: m.calls.erase ⟨thread, v, false⟩ }
  | _ => none

/-- `recordEvent`; `manager.cc:497-504`, `util.h:190-195`. -/
def recordEvent (thread : Nat) (m : GpuTimerManager) : Option GpuTimerManager :=
  match m.calls.find? (·.thread = thread) with
  | some ⟨thread, v, true⟩ =>
    some { m.setTimer v { m.timers v with launch := m.recorded } with
      calls := m.calls.erase ⟨thread, v, true⟩
      workingQueue := m.workingQueue ++ [v]
      recorded := m.recorded + 1 }
  | _ => none

/-- `pop` and the tests after it up to `doHang`; `util.h:197-211`, `manager.cc:558-565`. An
empty queue times out. -/
def pop (timeout : Int) (ready : Bool) (now : Int) (m : GpuTimerManager) :
    Option GpuTimerManager :=
  match m.pc, m.workingQueue with
  | .popping, [] => some m
  | .popping, v :: queue =>
    let (hang, t) := (m.timers v).isHang timeout now
    let m := { m.setTimer v t with isHangFlag := hang }
    if hang then some { m with pc := .hanging v }
    else
      let (isReady, t) := t.isReady ready
      let m := { m.setTimer v t with isReady := isReady }
      if isReady then
        some { m with workingQueue := queue, pc := .processing v, popped := m.popped ++ [t.launch] }
      else some m
  | _, _ => none

/-- `printHangName`: every queued item is rebuilt; `util.h:213-220`. -/
def printHangName (m : GpuTimerManager) : List Nat → GpuTimerManager
  | [] => m
  | v :: queue =>
    let (st, t) := m.statics.reBuild (m.timers v)
    printHangName { m.setTimer v t with
      statics := st
      dumped := m.dumped ++ [(m.timers v).kernel] } queue

/-- `doHang`, once, and the test of `is_ready` after it; `manager.cc:393-424`, `:563-569`. -/
def doHang (hangKill : Bool) (m : GpuTimerManager) : Option GpuTimerManager :=
  match m.pc with
  | .hanging v =>
    let m := if m.hasDoHang then m
      else { m.printHangName m.workingQueue with
        hasDoHang := true
        pc := if hangKill then .exited else m.pc }
    if m.pc = .exited then some m
    else some { m with pc := if m.isReady then .processing v else .popping }
  | _ => none

/-- `work_item->reBuild()`; `manager.cc:571-572`. -/
def process (m : GpuTimerManager) : Option GpuTimerManager :=
  match m.pc with
  | .processing v =>
    let (st, t) := m.statics.reBuild (m.timers v)
    some { m.setTimer v t with
      statics := st
      pc := .returning v
      processed := m.processed ++ [⟨t.launch, t.kernel, t.traceId, t.seq, m.dumped⟩] }
  | _ => none

/-- The rest of an iteration, up to `returnObject`; `manager.cc:580-607`. An item of problem
size zero does not count as a loop after the warmup. -/
def returnObject (m : GpuTimerManager) : Option GpuTimerManager :=
  match m.pc with
  | .returning v =>
    let loopCount :=
      if 1000 ≤ m.loopCount ∧ (m.timers v).kernel.problemSize = 0 then m.loopCount
      else if m.loopCount % 50000 = 0 then 1002
      else m.loopCount + 1
    some { m with eventPool := m.eventPool ++ [v], loopCount := loopCount, pc := .popping }
  | _ => none

/-- A step of any thread. -/
def step (timeout : Int) (hangKill : Bool) (m : GpuTimerManager) :
    TimerAct → Option GpuTimerManager
  | .getEvent thread => getEvent thread m
  | .reset thread kernel isHost now => reset thread kernel isHost now m
  | .recordEvent thread => recordEvent thread m
  | .pop ready now => pop timeout ready now m
  | .doHang => doHang hangKill m
  | .process => process m
  | .returnObject => returnObject m

end GpuTimerManager

end ProbingBaselines.XpuTimer
