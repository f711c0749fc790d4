import Mathlib.Algebra.Order.Field.Rat
import Mathlib.Logic.Function.Basic

/-!
# The MetaX timer manager

The event-pair pool, the work queue and the statistics of the MetaX probe
(`xpu_timer/metax_probe/xpu_timer_metax_hook.cc`), driven by hook threads inside
`mcLaunchKernel` (`:516-542`), collective hooks (`:272-279`) and one poller thread inside
`drain_once` (`:369-405`). Each critical section is one step, and so is each answer of
`EventQuery`; clocks, answers and elapsed times come from outside. An op is the address of a
`TimedOp`; latencies are rationals, counters natural numbers.
-/

namespace ProbingBaselines.XpuTimer

/-- The knobs the manager reads; `xpu_timer_metax_hook.cc:86-94`, with `launch_sample` at
least one (`:102`). -/
structure MetaxConfig where
  launchSample : Nat
  hangTimeoutMs : Int
  slowReportUs : Int
  launchSample_pos : 0 < launchSample

/-- `KernelStat`; `xpu_timer_metax_hook.cc:211-218`. -/
structure KernelStat where
  count : Nat
  sumUs : ℚ
  maxUs : ℚ
  hangCount : Nat
  slowCount : Nat
  type : String

/-- A fresh entry, as `operator[]` inserts. -/
def KernelStat.zero : KernelStat := ⟨0, 0, 0, 0, 0, ""⟩

/-- `TimedOp` without its event handles; `xpu_timer_metax_hook.cc:221-229`. `launch` is the
number of the sampled launch the op was last acquired for. -/
structure TimedOp where
  name : String
  type : String
  problemSize : Nat
  launchWallUs : Nat
  hangReported : Bool
  launch : Nat

/-- `std::unordered_map<std::string, KernelStat>`. -/
abbrev Stats := List (String × KernelStat)

namespace Stats

/-- The entry of a name, zero if absent. -/
def get (stats : Stats) (name : String) : KernelStat := (stats.lookup name).getD .zero

/-- A change of `stats[name]`. -/
def modify (name : String) (f : KernelStat → KernelStat) : Stats → Stats
  | [] => [(name, f .zero)]
  | (k, s) :: rest => if k = name then (k, f s) :: rest else (k, s) :: modify name f rest

/-- The sum of all counts. -/
def total (stats : Stats) : Nat := (stats.map fun p ↦ p.2.count).sum

end Stats

/-- A thread inside `mcLaunchKernel`, with its op; `labelled` once name and start are
recorded. -/
structure HookCall where
  thread : Nat
  op : Nat
  labelled : Bool
  deriving DecidableEq

/-- Where the poller stands: outside `drain_once`, at the next op of `local` with the ops of
`still_pending`, about to fold the one in hand (as ready, with its latency, or as a hang, with
the time outstanding), or about to release it. -/
inductive Poller where
  | idle
  | scanning (rest pending : List Nat)
  | ready (op : Nat) (us : ℚ) (rest pending : List Nat)
  | hanging (op : Nat) (us : Nat) (rest pending : List Nat)
  | releasing (op : Nat) (rest pending : List Nat)

/-- A line of the trace file; `xpu_timer_metax_hook.cc:424-428`. -/
structure TraceLine where
  tsUs : Nat
  name : String
  type : String
  durUs : ℚ
  psize : Nat

/-- The manager. `allocated` counts the ops ever created and `sampled` the sampled launches;
`seenReady`, `folded`, `hangs` and `metas` only record the launches whose stop event was seen
ready, the launches folded (with their name, as ready and as hangs) and the keys of the
collective calls, oldest first. -/
structure Manager where
  ops : Nat → TimedOp
  allocated : Nat
  pool : List Nat
  launched : Nat → Nat
  calls : List HookCall
  work : List Nat
  poller : Poller
  stats : Stats
  collBytes : String → Nat
  trace : List TraceLine
  maxOutstandingUs : Nat
  queuePeak : Nat
  sampled : Nat
  seenReady : List Nat
  folded : List (Nat × String)
  hangs : List (Nat × String)
  metas : List String

/-- The kernel a launch is for: inside a collective call, or by the name of its function. -/
inductive KernelName where
  | collective (api : String) (bytes : Nat)
  | function (name : String)

/-- An op named for its kernel and started; `xpu_timer_metax_hook.cc:530-538`, `:257-260`. -/
def TimedOp.label (o : TimedOp) (kernel : KernelName) (now : Nat) : TimedOp :=
  match kernel with
  | .collective api bytes =>
    { o with
      name := "coll_kernel:" ++ api
      type := "collective"
      problemSize := bytes
      launchWallUs := now }
  | .function name =>
    { o with
      name := name
      type := "kernel"
      problemSize := 0
      launchWallUs := now }

@[simp]
theorem TimedOp.label_launch (o : TimedOp) (kernel : KernelName) (now : Nat) :
    (o.label kernel now).launch = o.launch := by
  cases kernel <;> rfl

@[simp]
theorem TimedOp.label_hangReported (o : TimedOp) (kernel : KernelName) (now : Nat) :
    (o.label kernel now).hangReported = o.hangReported := by
  cases kernel <;> rfl

/-- A step of a hook thread, of the poller, or of a collective hook. -/
inductive MetaxAct where
  | launch (thread : Nat)
  | label (thread : Nat) (kernel : KernelName) (now : Nat)
  | enqueue (thread : Nat)
  | swap
  | query (success : Bool) (elapsedMs : ℚ) (now : Nat)
  | fold
  | release
  | pushBack
  | collMeta (name : String) (bytes : Nat)

namespace Manager

/-- Nothing allocated, nothing queued. -/
def init : Manager where
  ops := fun _ ↦ ⟨"", "", 0, 0, false, 0⟩
  allocated := 0
  pool := []
  launched := fun _ ↦ 0
  calls := []
  work := []
  poller := .idle
  stats := []
  collBytes := fun _ ↦ 0
  trace := []
  maxOutstandingUs := 0
  queuePeak := 0
  sampled := 0
  seenReady := []
  folded := []
  hangs := []
  metas := []

/-- `acquire`: the back of the pool, or a new op; `xpu_timer_metax_hook.cc:241-255`. -/
def acquire (m : Manager) : Nat × Manager :=
  let (op, m) := match m.pool.getLast? with
    | some op => (op, { m with pool := m.pool.dropLast })
    | none => (m.allocated, { m with allocated := m.allocated + 1 })
  (op, { m with
    ops := Function.update m.ops op { m.ops op with hangReported := false, launch := m.sampled }
    sampled := m.sampled + 1 })

/-- Entry of `mcLaunchKernel`: every `launch_sample`-th call of a thread acquires an op;
`xpu_timer_metax_hook.cc:525-528`. -/
def launch (c : MetaxConfig) (t : Nat) (m : Manager) : Option Manager :=
  if m.calls.any (·.thread = t) then none
  else
    let n := (m.launched t + 1) % 2 ^ 64
    let m := { m with launched := Function.update m.launched t n }
    if n % c.launchSample ≠ 0 then some m
    else
      let (op, m) := m.acquire
      some { m with calls := ⟨t, op, false⟩ :: m.calls }

/-- The thread names its op and records the start event; `xpu_timer_metax_hook.cc:529-538`. -/
def label (t : Nat) (kernel : KernelName) (now : Nat) (m : Manager) : Option Manager :=
  match m.calls.find? (·.thread = t) with
  | some ⟨t, op, false⟩ =>
    some { m with
      ops := Function.update m.ops op ((m.ops op).label kernel now)
      calls := ⟨t, op, true⟩ :: m.calls.erase ⟨t, op, false⟩ }
  | _ => none

/-- `record_stop_and_enqueue`; `xpu_timer_metax_hook.cc:261-265`. -/
def enqueue (t : Nat) (m : Manager) : Option Manager :=
  match m.calls.find? (·.thread = t) with
  | some ⟨t, op, true⟩ =>
    some { m with
      calls := m.calls.erase ⟨t, op, true⟩
      work := m.work ++ [op] }
  | _ => none

/-- The swap at the start of `drain_once`; `xpu_timer_metax_hook.cc:370-375`. -/
def swap (m : Manager) : Option Manager :=
  match m.poller with
  | .idle => some { m with
      work := []
      poller := .scanning m.work []
      queuePeak := max m.queuePeak m.work.length }
  | _ => none

/-- The answer of `EventQuery` for the next op of `local`, with the hang check of an op that is
not ready; `xpu_timer_metax_hook.cc:377-398`. -/
def query (c : MetaxConfig) (success : Bool) (elapsedMs : ℚ) (now : Nat) (m : Manager) :
    Option Manager :=
  match m.poller with
  | .scanning (op :: rest) pending =>
    if success then some { m with
      poller := .ready op (elapsedMs * 1000) rest pending
      seenReady := m.seenReady ++ [(m.ops op).launch] }
    else
      let outstandingUs := (now + 2 ^ 64 - (m.ops op).launchWallUs) % 2 ^ 64
      let m := { m with maxOutstandingUs := max m.maxOutstandingUs outstandingUs }
      if (m.ops op).hangReported = false ∧
          (c.hangTimeoutMs * 1000 % 2 ^ 64).toNat < outstandingUs then
        some { m with
          ops := Function.update m.ops op { m.ops op with hangReported := true }
          poller := .hanging op outstandingUs rest pending }
      else some { m with poller := .scanning rest (pending ++ [op]) }
  | _ => none

/-- `fold(op, us, hang=false)`; `xpu_timer_metax_hook.cc:408-430`. -/
def foldReady (c : MetaxConfig) (o : TimedOp) (us : ℚ) (s : KernelStat) : KernelStat :=
  { s with
    type := o.type
    count := s.count + 1
    sumUs := s.sumUs + us
    maxUs := max s.maxUs us
    slowCount := if 0 < c.slowReportUs ∧ (c.slowReportUs : ℚ) ≤ us then s.slowCount + 1
      else s.slowCount }

/-- `fold(op, us, hang=true)`; `xpu_timer_metax_hook.cc:408-413`. -/
def foldHang (o : TimedOp) (s : KernelStat) : KernelStat :=
  { s with type := o.type, hangCount := s.hangCount + 1 }

/-- `fold` of the op in hand; `xpu_timer_metax_hook.cc:382`, `:391`, `:398`. -/
def fold (c : MetaxConfig) (m : Manager) : Option Manager :=
  match m.poller with
  | .ready op us rest pending =>
    let o := m.ops op
    some { m with
      stats := m.stats.modify o.name (foldReady c o us)
      trace := m.trace ++ [⟨o.launchWallUs, o.name, o.type, us, o.problemSize⟩]
      poller := .releasing op rest pending
      folded := m.folded ++ [(o.launch, o.name)] }
  | .hanging op _ rest pending =>
    let o := m.ops op
    some { m with
      stats := m.stats.modify o.name (foldHang o)
      poller := .scanning rest (pending ++ [op])
      hangs := m.hangs ++ [(o.launch, o.name)] }
  | _ => none

/-- `release`; `xpu_timer_metax_hook.cc:433-436`. -/
def release (m : Manager) : Option Manager :=
  match m.poller with
  | .releasing op rest pending =>
    some { m with pool := m.pool ++ [op], poller := .scanning rest pending }
  | _ => none

/-- The push-back at the end of `drain_once`; `xpu_timer_metax_hook.cc:401-404`. -/
def pushBack (m : Manager) : Option Manager :=
  match m.poller with
  | .scanning [] pending => some { m with work := m.work ++ pending, poller := .idle }
  | _ => none

/-- `record_coll_meta`; `xpu_timer_metax_hook.cc:272-279`. -/
def recordCollMeta (name : String) (bytes : Nat) (m : Manager) : Manager :=
  { m with
    stats := m.stats.modify ("coll:" ++ name) fun s ↦
      { s with type := "coll", count := s.count + 1 }
    collBytes := Function.update m.collBytes name ((m.collBytes name + bytes) % 2 ^ 64)
    metas := m.metas ++ ["coll:" ++ name] }

/-- A step of any thread. -/
def step (c : MetaxConfig) (m : Manager) : MetaxAct → Option Manager
  | .launch t => launch c t m
  | .label t kernel now => label t kernel now m
  | .enqueue t => enqueue t m
  | .swap => swap m
  | .query success elapsedMs now => query c success elapsedMs now m
  | .fold => fold c m
  | .release => release m
  | .pushBack => pushBack m
  | .collMeta name bytes => some (recordCollMeta name bytes m)

end Manager

end ProbingBaselines.XpuTimer
