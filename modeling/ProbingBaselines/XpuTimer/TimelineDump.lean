import ProbingBaselines.XpuTimer.KernelTrace

/-!
# What a timeline dump holds

A dump is written when as many traces are collected as the rank was asked for
(`common/manager.cc:279-287`, `:329-365`). The count is taken over anew after each trigger, and only
a dump clears the traces: those that a force-reset left behind are dumped with the next ones, or are
already more than asked for. A log of each rank tells under which trigger a trace was pushed.
-/

namespace ProbingBaselines.XpuTimer

open Lib

/-- The triggers of a rank, and for each collected trace how many there were when it was pushed. -/
structure DumpLog where
  triggers : Nat
  collected : List Nat

/-- Ranks and their logs. -/
structure LoggedSystem where
  system : TraceSystem
  log : Nat → DumpLog

namespace LoggedSystem

/-- What the rank's next access adds to its log. -/
def record (s : TraceSystem) (r : Nat) (now : Int) (log : DumpLog) : DumpLog :=
  let t := s.ranks r
  match t.pc with
  | .armed _ => if s.switch.timestamp ≤ now then { log with triggers := log.triggers + 1 } else log
  | .pushing item =>
    if t.hasDoPrepareForDump && !t.isFull item &&
        (t.kernelDumpType.testBit item.kernelType && item.recorded) then
      { log with collected := log.collected ++ [log.triggers] }
    else log
  | .stopping .afterDump => { log with collected := [] }
  | _ => log

def step (n : Nat) (s : LoggedSystem) (a : TraceAct) : Option LoggedSystem :=
  (s.system.step n a).map fun next ↦
    { system := next
      log := match a with
        | .advance r now => Function.update s.log r (record s.system r now (s.log r))
        | _ => s.log }

def start (traceCount : Nat) : LoggedSystem := ⟨.start traceCount, fun _ ↦ ⟨0, []⟩⟩

/-- A trigger finds nothing collected, and the trace whose start a full buffer tells is there: the
count is not zero. -/
def Clean (s : LoggedSystem) : TraceAct → Prop
  | .advance r now =>
    let t := s.system.ranks r
    match t.pc with
    | .armed _ => s.system.switch.timestamp ≤ now → t.traces = 0
    | .pushing item => t.hasDoPrepareForDump = true → t.isFull item = true → t.kernelTraceCount ≠ 0
    | _ => True
  | _ => True

instance (s : LoggedSystem) (a : TraceAct) : Decidable (s.Clean a) := by
  unfold Clean
  split
  · dsimp only
    split <;> infer_instance
  · infer_instance

end LoggedSystem

/-- What a rank has collected after clean triggers. -/
structure CleanRank (t : TraceRank) (log : DumpLog) : Prop where
  size : log.collected.length = t.traces
  le : t.traces ≤ t.kernelTraceCount
  fresh : t.hasTriggerTrace = true → ∀ g ∈ log.collected, g = log.triggers
  prepared : t.hasDoPrepareForDump = true → t.hasTriggerTrace = true
  unprepared : t.hasTriggerTrace = true → t.hasDoPrepareForDump = false → t.traces = 0
  armed : ∀ item, t.pc = .armed item → t.hasTriggerTrace = false
  pushing : ∀ item, t.pc = .pushing item → t.hasTriggerTrace = true
  counting : t.pc = .counting → t.traces = 0
  dumping : t.pc = .dumping →
    t.hasTriggerTrace = true ∧ t.traces = t.kernelTraceCount ∧ t.kernelTraceCount ≠ 0

namespace CleanRank

variable {t : TraceRank} {log : DumpLog}

/-- A move to where nothing is collected or dumped. -/
theorem setPc (h : CleanRank t log) {pc : TracePc}
    (armed : ∀ item, pc = .armed item → t.hasTriggerTrace = false)
    (pushing : ∀ item, pc = .pushing item → t.hasTriggerTrace = true)
    (counting : pc ≠ .counting) (dumping : pc ≠ .dumping) : CleanRank { t with pc := pc } log where
  size := h.size
  le := h.le
  fresh := h.fresh
  prepared := h.prepared
  unprepared := h.unprepared
  armed := armed
  pushing := pushing
  counting := fun eq ↦ absurd eq counting
  dumping := fun eq ↦ absurd eq dumping

theorem reset (h : CleanRank t log) (b : TraceBarrier) :
    CleanRank { t with
      hasDoPrepareForDump := false
      hasTriggerTrace := false
      pc := .waiting b } log where
  size := h.size
  le := h.le
  fresh := nofun
  prepared := nofun
  unprepared := nofun
  armed := nofun
  pushing := nofun
  counting := nofun
  dumping := nofun

/-- A trigger that finds nothing. -/
theorem trigger (h : CleanRank t log) (item : WorkItem) (none : t.traces = 0) :
    CleanRank { t with pc := .pushing item, hasTriggerTrace := true }
      { log with triggers := log.triggers + 1 } where
  size := h.size
  le := h.le
  fresh := by
    have empty : log.collected = [] := List.eq_nil_of_length_eq_zero (h.size.trans none)
    intro _ g mem
    rw [empty] at mem
    contradiction
  prepared := fun _ ↦ rfl
  unprepared := fun _ _ ↦ none
  armed := nofun
  pushing := fun _ _ ↦ rfl
  counting := nofun
  dumping := nofun

/-- `prepareDump` reads the kernel types. -/
theorem prepare (h : CleanRank t log) {item : WorkItem} (pc : t.pc = .pushing item)
    (unprepared : t.hasDoPrepareForDump = false) (types : Nat) :
    CleanRank { t with
      pc := .counting
      hasDoPrepareForDump := true
      kernelDumpType := types } log where
  size := h.size
  le := h.le
  fresh := h.fresh
  prepared := fun _ ↦ h.pushing item pc
  unprepared := nofun
  armed := nofun
  pushing := nofun
  counting := fun _ ↦ h.unprepared (h.pushing item pc) unprepared
  dumping := nofun

/-- `prepareDump` takes the count over. -/
theorem recount (h : CleanRank t log) (pc : t.pc = .counting) (count : Nat) :
    CleanRank { t with pc := .idle, kernelTraceCount := count } log where
  size := h.size
  le := by
    rw [h.counting pc]
    exact Nat.zero_le count
  fresh := h.fresh
  prepared := h.prepared
  unprepared := h.unprepared
  armed := nofun
  pushing := nofun
  counting := nofun
  dumping := nofun

/-- `pushTrace` finds the buffer full. -/
theorem full (h : CleanRank t log) {item : WorkItem} (pc : t.pc = .pushing item)
    (full : t.isFull item = true) (some_trace : t.kernelTraceCount ≠ 0) :
    CleanRank { t with pc := .dumping } log where
  size := h.size
  le := h.le
  fresh := h.fresh
  prepared := h.prepared
  unprepared := h.unprepared
  armed := nofun
  pushing := nofun
  counting := nofun
  dumping := by
    simp only [TraceRank.isFull, Bool.and_eq_true, beq_iff_eq] at full
    exact fun _ ↦ ⟨h.pushing item pc, full.2, some_trace⟩

/-- `pushTrace` adds a trace. -/
theorem push (h : CleanRank t log) {item : WorkItem}
    (prepared : t.hasDoPrepareForDump = true) (room : t.isFull item = false)
    (selected : t.kernelDumpType.testBit item.kernelType = true) :
    CleanRank { t with pc := .idle, traces := t.traces + 1 }
      { log with collected := log.collected ++ [log.triggers] } where
  size := by rw [List.length_append, List.length_singleton, h.size]
  le := by
    have le := h.le
    simp only [TraceRank.isFull, selected, Bool.true_and, beq_eq_false_iff_ne] at room
    exact Nat.lt_of_le_of_ne le room
  fresh := by
    intro triggered g mem
    rcases List.mem_append.mp mem with old | new
    · exact h.fresh triggered g old
    · exact List.mem_singleton.mp new
  prepared := h.prepared
  unprepared := fun _ unprepared ↦ by
    rw [prepared] at unprepared
    contradiction
  armed := nofun
  pushing := nofun
  counting := nofun
  dumping := nofun

/-- The guard of a dump clears the traces. -/
theorem clear (h : CleanRank t log) :
    CleanRank { t with pc := .idle, traces := 0 } { log with collected := [] } where
  size := rfl
  le := Nat.zero_le _
  fresh := fun _ _ mem ↦ absurd mem List.not_mem_nil
  prepared := h.prepared
  unprepared := fun _ _ ↦ rfl
  armed := nofun
  pushing := nofun
  counting := nofun
  dumping := nofun

end CleanRank

namespace LoggedSystem

variable {n r : Nat} {now : Int}

theorem ranks_reset (s : TraceSystem) (b : TraceBarrier) :
    (s.reset r b).ranks = Function.update s.ranks r { s.ranks r with
      hasDoPrepareForDump := false
      hasTriggerTrace := false
      pc := .waiting b } := by
  simp only [TraceSystem.reset, TraceSystem.enterBarrier, TraceSystem.setPc, TraceSystem.setRank,
    Function.update_self, Function.update_idem]

/-- Only the rank that goes on changes. -/
theorem moved_clean {s next : TraceSystem} {t : TraceRank} {log : DumpLog}
    (moved : next.ranks = Function.update s.ranks r t) (clean : CleanRank t log) :
    CleanRank (next.ranks r) log ∧ ∀ q ≠ r, next.ranks q = s.ranks q := by
  rw [moved, Function.update_self]
  exact ⟨clean, fun q ne ↦ Function.update_of_ne ne _ _⟩

/-- The access of `pushTrace`. -/
theorem advance_pushing_clean {s : LoggedSystem} {next : TraceSystem} {item : WorkItem}
    (h : CleanRank (s.system.ranks r) (s.log r)) (pc : (s.system.ranks r).pc = .pushing item)
    (meets : (s.system.ranks r).hasDoPrepareForDump = true → (s.system.ranks r).isFull item = true →
      (s.system.ranks r).kernelTraceCount ≠ 0)
    (taken : s.system.advance n r now = some next) :
    CleanRank (next.ranks r) (record s.system r now (s.log r)) ∧
      ∀ q ≠ r, next.ranks q = s.system.ranks q := by
  simp only [TraceSystem.advance, pc] at taken
  simp only [record, pc]
  split at taken
  · next unprepared =>
    cases taken
    simp only [unprepared, Bool.false_and, Bool.false_eq_true, if_false]
    exact moved_clean rfl (h.prepare pc unprepared _)
  · next prepared =>
    rw [Bool.not_eq_false] at prepared
    split at taken
    · next full =>
      cases taken
      simp only [full, Bool.not_true, Bool.and_false, Bool.false_and, Bool.false_eq_true, if_false]
      exact moved_clean rfl (h.full pc full (meets prepared full))
    · next room =>
      rw [Bool.not_eq_true] at room
      split at taken
      · next pushes =>
        cases taken
        have adds : ((s.system.ranks r).hasDoPrepareForDump && !(s.system.ranks r).isFull item &&
            ((s.system.ranks r).kernelDumpType.testBit item.kernelType &&
              item.recorded)) = true := by
          rw [prepared, room, pushes]
          rfl
        simp only [if_pos adds]
        rw [Bool.and_eq_true] at pushes
        exact moved_clean rfl (h.push prepared room pushes.1)
      · next skips =>
        cases taken
        simp only [skips, Bool.and_false, Bool.false_eq_true, if_false]
        exact moved_clean rfl (h.setPc nofun nofun nofun nofun)

/-- A rank's access keeps what it has collected exact, and leaves the other ranks alone. -/
theorem advance_clean {s : LoggedSystem} {next : TraceSystem}
    (h : CleanRank (s.system.ranks r) (s.log r)) (meets : s.Clean (.advance r now))
    (taken : s.system.advance n r now = some next) :
    CleanRank (next.ranks r) (record s.system r now (s.log r)) ∧
      ∀ q ≠ r, next.ranks q = s.system.ranks q := by
  simp only [Clean] at meets
  simp only [TraceSystem.advance] at taken
  simp only [record]
  cases pc : (s.system.ranks r).pc with
  | starting =>
    rw [pc] at taken
    cases taken
    exact moved_clean (ranks_reset _ _) (h.reset _)
  | idle =>
    rw [pc] at taken
    cases taken
  | noticed =>
    rw [pc] at taken
    cases taken
    exact moved_clean rfl (h.setPc nofun nofun nofun nofun)
  | checked item =>
    rw [pc] at taken
    simp only at taken
    split at taken
    · next triggered =>
      cases taken
      exact moved_clean rfl (h.setPc nofun (fun _ _ ↦ triggered) nofun nofun)
    · next untriggered =>
      split at taken
      · cases taken
        exact moved_clean rfl (h.setPc nofun nofun nofun nofun)
      · cases taken
        have armed : ∀ item', TracePc.armed item = .armed item' →
            (s.system.ranks r).hasTriggerTrace = false :=
          fun _ _ ↦ Bool.eq_false_iff.mpr untriggered
        exact moved_clean rfl (h.setPc armed nofun nofun nofun)
  | armed item =>
    rw [pc] at taken meets
    simp only at taken meets
    split at taken
    · next due =>
      cases taken
      simp only [if_pos due]
      exact moved_clean rfl (h.trigger item (meets due))
    · next early =>
      cases taken
      simp only [if_neg early]
      exact moved_clean rfl (h.setPc nofun nofun nofun nofun)
  | pushing item =>
    rw [pc] at meets
    have pushed := advance_pushing_clean h pc meets taken
    simp only [record, pc] at pushed
    exact pushed
  | counting =>
    rw [pc] at taken
    cases taken
    exact moved_clean rfl (h.recount pc _)
  | dumping =>
    rw [pc] at taken
    cases taken
    exact moved_clean (ranks_reset _ _) (h.reset _)
  | waiting b =>
    rw [pc] at taken
    simp only at taken
    split at taken
    · cases taken
      apply moved_clean rfl (h.setPc _ _ _ _)
      all_goals split <;> nofun
    · cases taken
  | clearing =>
    rw [pc] at taken
    cases taken
    exact moved_clean rfl (h.setPc nofun nofun nofun nofun)
  | resetting =>
    rw [pc] at taken
    cases taken
    exact moved_clean (ranks_reset _ _) (h.reset _)
  | stopping b =>
    rw [pc] at taken
    cases taken
    cases b with
    | afterDump => exact moved_clean rfl h.clear
    | _ => exact moved_clean rfl (h.setPc nofun nofun nofun nofun)

theorem ranks_handle {s next : TraceSystem} {i : Nat} (taken : s.handle i = some next) :
    next.ranks = s.ranks := by
  simp only [TraceSystem.handle] at taken
  split at taken <;> cases taken <;> rfl

/-- A work item is only taken up by a rank that waits for one. -/
theorem triggerTrace_clean {s : LoggedSystem} {item : WorkItem} {next : TraceSystem}
    (h : ∀ q, CleanRank (s.system.ranks q) (s.log q))
    (taken : s.system.triggerTrace r item = some next) (q : Nat) :
    CleanRank (next.ranks q) (s.log q) := by
  have moved : ∀ pc : TracePc, (∀ item, pc ≠ .armed item) → (∀ item, pc ≠ .pushing item) →
      pc ≠ .counting → pc ≠ .dumping →
      CleanRank ((s.system.setPc r pc).ranks q) (s.log q) := by
    intro pc armed pushing counting dumping
    rw [TraceSystem.setPc, TraceSystem.setRank]
    by_cases same : q = r
    · subst same
      simp only [Function.update_self]
      exact (h q).setPc (fun item eq ↦ absurd eq (armed item))
        (fun item eq ↦ absurd eq (pushing item)) counting dumping
    · simp only [Function.update_of_ne same]
      exact h q
  simp only [TraceSystem.triggerTrace] at taken
  split at taken
  · split at taken
    · cases taken
      exact moved .noticed nofun nofun nofun nofun
    · cases taken
      exact moved (.checked item) nofun nofun nofun nofun
  · cases taken

theorem step_clean {s next : LoggedSystem} {a : TraceAct}
    (h : ∀ q, CleanRank (s.system.ranks q) (s.log q)) (meets : s.Clean a)
    (taken : s.step n a = some next) (q : Nat) :
    CleanRank (next.system.ranks q) (next.log q) := by
  rcases Option.map_eq_some_iff.mp taken with ⟨system, moved, rfl⟩
  cases a with
  | item r item =>
    simp only [TraceSystem.step] at moved
    split at moved
    · exact triggerTrace_clean h moved q
    · cases moved
  | advance r now =>
    simp only [TraceSystem.step] at moved
    split at moved
    · rcases advance_clean (h r) meets moved with ⟨here, elsewhere⟩
      by_cases same : q = r
      · subst same
        simp only [Function.update_self]
        exact here
      · simp only [Function.update_of_ne same, elsewhere q same]
        exact h q
    · cases moved
  | request i req =>
    simp only [TraceSystem.step] at moved
    split at moved
    · cases moved
      exact h q
    · cases moved
  | handle i =>
    simp only [ranks_handle moved]
    exact h q

theorem start_clean (traceCount q : Nat) :
    CleanRank ((start traceCount).system.ranks q) ((start traceCount).log q) where
  size := rfl
  le := Nat.zero_le _
  fresh := nofun
  prepared := nofun
  unprepared := nofun
  armed := nofun
  pushing := nofun
  counting := nofun
  dumping := nofun

/-- However the ranks and the daemon's handlers interleave, a rank has collected at most as many
traces as it is asked for, and dumps exactly as many, all pushed after the trigger of the dump,
provided that each trigger finds nothing collected and no full buffer is asked for nothing. -/
theorem dump_exact (n traceCount : Nat) (acts : List TraceAct) (s : LoggedSystem)
    (run : Run (step n) Clean (start traceCount) acts s) (r : Nat) :
    (s.log r).collected.length = (s.system.ranks r).traces ∧
      (s.system.ranks r).traces ≤ (s.system.ranks r).kernelTraceCount ∧
      ((s.system.ranks r).pc = .dumping →
        (s.log r).collected.length = (s.system.ranks r).kernelTraceCount ∧
          0 < (s.system.ranks r).kernelTraceCount ∧
          ∀ g ∈ (s.log r).collected, g = (s.log r).triggers) := by
  have clean : ∀ q, CleanRank (s.system.ranks q) (s.log q) :=
    run.invariant (start_clean traceCount) fun _ _ _ h meets taken ↦ step_clean h meets taken
  have h := clean r
  refine ⟨h.size, h.le, ?_⟩
  intro dumping
  rcases h.dumping dumping with ⟨triggered, exact, some_trace⟩
  exact ⟨h.size.trans exact, Nat.pos_of_ne_zero some_trace, h.fresh triggered⟩

/-! ### Runs of one rank -/

/-- The first `reset`. -/
def firstReset : List TraceAct := List.replicate 3 (.advance 0 0)

/-- A request of `count` events of any kind, and the item that triggers the collection. -/
def requestDump (count : Nat) : List TraceAct :=
  .request 0 ⟨count, 0, 0, false⟩ :: (List.replicate 8 (TraceAct.handle 0) ++
    .item 0 ⟨1, true⟩ :: List.replicate 4 (TraceAct.advance 0 0))

/-- An item that is pushed, or finds the buffer full. -/
def pushItem : List TraceAct := [.item 0 ⟨1, true⟩, .advance 0 0, .advance 0 0]

/-- A force-reset, and the item at which the rank notices it. -/
def forceReset : List TraceAct :=
  .request 0 ⟨0, 0, 0, true⟩ :: (List.replicate 4 (TraceAct.handle 0) ++
    .item 0 ⟨1, true⟩ :: List.replicate 6 (TraceAct.advance 0 0))

theorem dump_exact_two :
    ∃ s, Run (step 1) Clean (start 1000)
        (firstReset ++ requestDump 2 ++ pushItem ++ pushItem ++ pushItem) s ∧
      (s.system.ranks 0).pc = .dumping ∧
      (s.log 0).collected.length = (s.system.ranks 0).traces ∧
      (s.system.ranks 0).traces ≤ (s.system.ranks 0).kernelTraceCount ∧
      ((s.system.ranks 0).pc = .dumping →
        (s.log 0).collected.length = (s.system.ranks 0).kernelTraceCount ∧
          0 < (s.system.ranks 0).kernelTraceCount ∧
          ∀ g ∈ (s.log 0).collected, g = (s.log 0).triggers) := by
  have dumps : ((firstReset ++ requestDump 2 ++ pushItem ++ pushItem ++ pushItem).foldlM
      (fun s a ↦ if Clean s a then step 1 s a else none) (start 1000)).any
      (fun s ↦ decide ((s.system.ranks 0).pc = .dumping)) = true := by
    decide +kernel
  rcases run_of_guarded_any dumps with ⟨s, run, dumping⟩
  exact ⟨s, run, of_decide_eq_true dumping, dump_exact 1 1000 _ s run 0⟩

/-- Two of three events are collected when a force-reset comes. A request of one event then finds
more than it asks for, and a request of two dumps those from before its trigger. -/
theorem dump_stale :
    (∃ s, Run (step 1) anyStep (start 1000)
        (firstReset ++ requestDump 3 ++ pushItem ++ pushItem ++ forceReset ++ requestDump 1) s ∧
      (s.system.ranks 0).kernelTraceCount < (s.log 0).collected.length) ∧
    ∃ s, Run (step 1) anyStep (start 1000)
        (firstReset ++ requestDump 3 ++ pushItem ++ pushItem ++ forceReset ++ requestDump 2 ++
          pushItem) s ∧
      (s.system.ranks 0).pc = .dumping ∧ ∃ g ∈ (s.log 0).collected, g ≠ (s.log 0).triggers := by
  constructor
  · have exceeds : ((firstReset ++ requestDump 3 ++ pushItem ++ pushItem ++ forceReset ++
        requestDump 1).foldlM (step 1) (start 1000)).any
        (fun s ↦ decide ((s.system.ranks 0).kernelTraceCount < (s.log 0).collected.length)) =
        true := by
      decide +kernel
    rcases run_of_any exceeds with ⟨s, run, exceeds⟩
    exact ⟨s, run, of_decide_eq_true exceeds⟩
  · have stale : ((firstReset ++ requestDump 3 ++ pushItem ++ pushItem ++ forceReset ++
        requestDump 2 ++ pushItem).foldlM (step 1) (start 1000)).any
        (fun s ↦ decide ((s.system.ranks 0).pc = .dumping ∧
          ∃ g ∈ (s.log 0).collected, g ≠ (s.log 0).triggers)) = true := by
      decide +kernel
    rcases run_of_any stale with ⟨s, run, stale⟩
    have stale := of_decide_eq_true stale
    exact ⟨s, run, stale.1, stale.2⟩

end LoggedSystem

end ProbingBaselines.XpuTimer
