import Mathlib.Algebra.Group.Nat.Defs
import Mathlib.Logic.Function.Basic
import ProbingBaselines.Lib.Barrier
import ProbingBaselines.Lib.Run

/-!
# Dumping and force-resetting the kernel trace

The daemon turns a `DumpKernelTrace` request into stores to the shared `ShmSwitch`
(`server/hosting_service_server_client.cc:279-318`), which the poller thread of every local rank
reads once for each work item (`common/manager.cc:101-158`, `:279-365`, `:580-592`). Ranks meet
in named barriers: after a dump, and twice in a force-reset. A step is one access to the switch
or to a barrier, with the local code up to the next one.
-/

namespace ProbingBaselines.XpuTimer

open Lib

/-! ### The switch and the daemon -/

/-- The fields of `ShmSwitch` that control a dump; `common/util.h:113-131`. -/
structure ShmSwitch where
  dumpCount : Nat
  startDump : Int
  timestamp : Int
  resetFlag : Bool
  dumpKernelType : Nat

/-- `ShmSwitch::reset()`; `common/util.cc:35-39`. -/
def ShmSwitch.default : ShmSwitch := ⟨1000, 0, 0, false, 0⟩

/-- A store to one field of the switch. -/
inductive SwitchStore where
  | dumpCount (v : Nat)
  | startDump (v : Int)
  | timestamp (v : Int)
  | resetFlag (v : Bool)
  | dumpKernelType (v : Nat)
  deriving DecidableEq

def ShmSwitch.store (sw : ShmSwitch) : SwitchStore → ShmSwitch
  | .dumpCount v => { sw with dumpCount := v }
  | .startDump v => { sw with startDump := v }
  | .timestamp v => { sw with timestamp := v }
  | .resetFlag v => { sw with resetFlag := v }
  | .dumpKernelType v => { sw with dumpKernelType := v }

/-- `constant::Metrics::ALL_KERNEL_TYPE`; `common/constant.h:82-85`. -/
def allKernelType : Nat := 2 * 2 ^ 2 - 1

structure DumpKernelTraceRequest where
  dumpCount : Nat
  dumpKernelType : Nat
  dumpTime : Int
  reset : Bool
  deriving DecidableEq

/-- The stores that start a dump, in order; `hosting_service_server_client.cc:313-315` and
`common/util.cc:41-55`. -/
def DumpKernelTraceRequest.stores (req : DumpKernelTraceRequest) : List SwitchStore :=
  [.dumpCount req.dumpCount, .startDump 0, .timestamp req.dumpTime,
    .dumpKernelType (if req.dumpKernelType = 0 then allKernelType else req.dumpKernelType),
    .startDump 1]

/-- Where a handler of `DumpKernelTrace` stands: about to read `reset_flag`, about to read
`start_dump`, or with stores left to do. -/
inductive HandlerPc where
  | done
  | arrived (req : DumpKernelTraceRequest)
  | checking (req : DumpKernelTraceRequest)
  | storing (left : List SwitchStore)
  deriving DecidableEq

/-! ### The ranks -/

/-- The barriers of the kernel trace manager. -/
inductive TraceBarrier where
  | init
  | resetTrace
  | reset
  | afterDump
  deriving DecidableEq

/-- What `pushTrace` reads of a work item: its kernel type, and whether it adds a trace. -/
structure WorkItem where
  kernelType : Nat
  recorded : Bool
  deriving DecidableEq

/-- Where a rank's poller stands. `checked` has read `reset_flag` as false, `noticed` as true;
`armed` has read a `start_dump`; `pushing` is past `triggerTrace`; `counting` is inside
`prepareDump`; `dumping` inside `dumpKernelTraceAndHostTrace`; `clearing` is past
`reset_trace_barrier`, `resetting` about to call `reset("reset")`; and `stopping` is past the
barrier of `reset`. -/
inductive TracePc where
  | starting
  | idle
  | checked (item : WorkItem)
  | noticed
  | armed (item : WorkItem)
  | pushing (item : WorkItem)
  | counting
  | dumping
  | waiting (b : TraceBarrier)
  | clearing
  | resetting
  | stopping (b : TraceBarrier)
  deriving DecidableEq

/-- The barrier a rank is in. -/
def TracePc.barrier? : TracePc → Option TraceBarrier
  | .waiting b => some b
  | _ => none

/-- The fields of `KernelTraceManager`; `traces` is the number of collected traces. -/
structure TraceRank where
  pc : TracePc
  hasTriggerTrace : Bool
  hasDoPrepareForDump : Bool
  kernelTraceCount : Nat
  kernelDumpType : Nat
  traces : Nat

/-- `pushTrace` finds the buffer full; `common/manager.cc:334-341`. -/
def TraceRank.isFull (t : TraceRank) (item : WorkItem) : Bool :=
  t.kernelDumpType.testBit item.kernelType && t.traces == t.kernelTraceCount

structure TraceSystem where
  switch : ShmSwitch
  ranks : Nat → TraceRank
  entered : TraceBarrier → Nat → Nat
  handlers : Nat → HandlerPc

namespace TraceSystem

/-- The barrier each rank is in. -/
def loc (s : TraceSystem) (r : Nat) : Option TraceBarrier := (s.ranks r).pc.barrier?

/-- Every rank about to make the first `reset`, with `XPU_TIMER_TIMELINE_TRACE_COUNT` as trace
count; `common/manager.cc:54-99`. -/
def start (traceCount : Nat) : TraceSystem where
  switch := .default
  ranks := fun _ ↦ ⟨.starting, false, false, traceCount, 0, 0⟩
  entered := fun _ _ ↦ 0
  handlers := fun _ ↦ .done

def setRank (s : TraceSystem) (r : Nat) (t : TraceRank) : TraceSystem :=
  { s with ranks := Function.update s.ranks r t }

def setPc (s : TraceSystem) (r : Nat) (pc : TracePc) : TraceSystem :=
  s.setRank r { s.ranks r with pc := pc }

/-- Entry of `InterProcessBarrier`. -/
def enterBarrier (s : TraceSystem) (r : Nat) (b : TraceBarrier) : TraceSystem :=
  { s.setPc r (.waiting b) with entered := enter s.entered b r }

/-- `reset` up to its barrier; `common/manager.cc:126-132`. -/
def reset (s : TraceSystem) (r : Nat) (b : TraceBarrier) : TraceSystem :=
  (s.setRank r { s.ranks r with
    hasDoPrepareForDump := false
    hasTriggerTrace := false }).enterBarrier r b

def store (s : TraceSystem) (w : SwitchStore) : TraceSystem := { s with switch := s.switch.store w }

/-- `triggerTrace` reads `reset_flag`; `common/manager.cc:101-102`. -/
def triggerTrace (r : Nat) (item : WorkItem) (s : TraceSystem) : Option TraceSystem :=
  match (s.ranks r).pc with
  | .idle =>
    if s.switch.resetFlag then some (s.setPc r .noticed) else some (s.setPc r (.checked item))
  | _ => none

/-- The rank's next access, `now` being the clock; `common/manager.cc:103-158`, `:279-365`. -/
def advance (n r : Nat) (now : Int) (s : TraceSystem) : Option TraceSystem :=
  let t := s.ranks r
  match t.pc with
  | .starting => some (s.reset r .init)
  | .idle => none
  | .noticed => some (s.enterBarrier r .resetTrace)
  | .checked item =>
    if t.hasTriggerTrace then some (s.setPc r (.pushing item))
    else if s.switch.startDump = 0 then some (s.setPc r .idle)
    else some (s.setPc r (.armed item))
  | .armed item =>
    if s.switch.timestamp ≤ now then
      some (s.setRank r { t with pc := .pushing item, hasTriggerTrace := true })
    else some (s.setPc r .idle)
  | .pushing item =>
    if t.hasDoPrepareForDump = false then
      some (s.setRank r { t with
        pc := .counting
        hasDoPrepareForDump := true
        kernelDumpType := s.switch.dumpKernelType })
    else if t.isFull item then some (s.setPc r .dumping)
    else if t.kernelDumpType.testBit item.kernelType && item.recorded then
      some (s.setRank r { t with pc := .idle, traces := t.traces + 1 })
    else some (s.setPc r .idle)
  | .counting => some (s.setRank r { t with pc := .idle, kernelTraceCount := s.switch.dumpCount })
  | .dumping => some (s.reset r .afterDump)
  | .waiting b =>
    if Released n s.entered b r then
      some (s.setPc r (if b = .resetTrace then .clearing else .stopping b))
    else none
  | .clearing => some ((s.store (.resetFlag false)).setPc r .resetting)
  | .resetting => some (s.reset r .reset)
  | .stopping b =>
    -- the guard of a dump clears the traces after `reset`
    some ((s.store (.startDump 0)).setRank r { t with
      pc := .idle
      traces := if b = .afterDump then 0 else t.traces })

/-- A handler's next access; `hosting_service_server_client.cc:291-315`. -/
def handle (i : Nat) (s : TraceSystem) : Option TraceSystem :=
  match s.handlers i with
  | .done => none
  | .arrived req =>
    let pc := if s.switch.resetFlag then .done
      else if req.reset then .storing [.startDump 0, .resetFlag true]
      else .checking req
    some { s with handlers := Function.update s.handlers i pc }
  | .checking req =>
    let pc := if s.switch.startDump ≠ 0 then .done else .storing req.stores
    some { s with handlers := Function.update s.handlers i pc }
  | .storing [] => some { s with handlers := Function.update s.handlers i .done }
  | .storing (w :: left) =>
    some { s.store w with handlers := Function.update s.handlers i (.storing left) }

end TraceSystem

/-- A work item becomes ready, a rank goes on, a request arrives, a handler goes on. -/
inductive TraceAct where
  | item (r : Nat) (item : WorkItem)
  | advance (r : Nat) (now : Int)
  | request (i : Nat) (req : DumpKernelTraceRequest)
  | handle (i : Nat)

namespace TraceSystem

/-- A step among `n` local ranks. -/
def step (n : Nat) (s : TraceSystem) : TraceAct → Option TraceSystem
  | .item r item => if r < n then s.triggerTrace r item else none
  | .advance r now => if r < n then s.advance n r now else none
  | .request i req =>
    if s.handlers i = .done then
      some { s with handlers := Function.update s.handlers i (.arrived req) }
    else none
  | .handle i => s.handle i

/-- The rank is in a barrier that some rank has yet to enter. -/
def Waits (n : Nat) (s : TraceSystem) (r : Nat) (b : TraceBarrier) : Prop :=
  s.loc r = some b ∧ ¬Released n s.entered b r

instance (n : Nat) (s : TraceSystem) (r : Nat) (b : TraceBarrier) : Decidable (s.Waits n r b) :=
  inferInstanceAs (Decidable (_ ∧ _))

end TraceSystem

end ProbingBaselines.XpuTimer
