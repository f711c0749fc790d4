import Mathlib.Data.Finset.Card
import Mathlib.Data.List.DropRight

/-!
# When an adjustment of the workers is finished

Source `xputimer-metax/dlrover/python/master/monitor/perf_monitor.py`. The monitor keeps the last
reports of the global step with the number of workers at that time. An adjustment counts as
finished when the last report and one that is old enough agree with the target; the reports
between these two are not looked at.
-/

namespace ProbingBaselines.Dlrover

/-- `GlobalStepRecord`, `perf_monitor.py:25-36`. -/
structure GlobalStepRecord where
  globalStep : Int
  timestamp : Int
  workerNum : Nat

/-- The part of `PerfMonitor` that concerns the steps, `perf_monitor.py:48-58`. -/
structure PerfMonitor where
  globalStepRecords : List GlobalStepRecord
  workers : Finset (String × Int)
  maxRecordCount : Int
  globalStep : Int
  targetWorkerNum : Int
  sampleCount : Nat

namespace PerfMonitor

/-- A new monitor, `perf_monitor.py:48-58`. -/
def init (maxRecordCount : Int) : PerfMonitor where
  globalStepRecords := []
  workers := ∅
  maxRecordCount := maxRecordCount
  globalStep := 0
  targetWorkerNum := 0
  sampleCount := 0

/-- `set_target_worker_num`, `perf_monitor.py:60-65`. -/
def setTargetWorkerNum (m : PerfMonitor) (workerNum : Int) : PerfMonitor :=
  { m with targetWorkerNum := workerNum }

/-- `add_running_worker`, `perf_monitor.py:145,146`. -/
def addRunningWorker (m : PerfMonitor) (type : String) (workerId : Int) : PerfMonitor :=
  { m with workers := insert (type, workerId) m.workers }

/-- `remove_running_worker`, `perf_monitor.py:148-159`. -/
def removeRunningWorker (m : PerfMonitor) (type : String) (workerId : Int) : PerfMonitor :=
  { m with workers := m.workers.erase (type, workerId) }

/-- `collect_global_step`, `perf_monitor.py:84-126`, without the reports to the log. A step that is
not above the last one leaves no record. -/
def collectGlobalStep (m : PerfMonitor) (globalStep timestamp : Int) : PerfMonitor :=
  if m.globalStepRecords.getLast?.all (·.globalStep < globalStep) then
    let records := m.globalStepRecords ++ [⟨globalStep, timestamp, m.workers.card⟩]
    { m with
      globalStep := globalStep
      sampleCount := m.sampleCount + 1
      globalStepRecords := if m.maxRecordCount < records.length then records.tail else records }
  else
    { m with globalStep := globalStep }

/-- `worker_adjustment_finished`, `perf_monitor.py:205-221`. -/
def workerAdjustmentFinished (m : PerfMonitor) (secondsForStableWorkerCount : Int) : Bool :=
  match m.globalStepRecords.getLast? with
  | none => false
  | some last =>
    if last.workerNum ≠ m.targetWorkerNum then false
    else
      m.globalStepRecords.reverse.any fun record ↦
        record.workerNum = last.workerNum ∧
          secondsForStableWorkerCount ≤ last.timestamp - record.timestamp

/-! ### The calls -/

/-- A call of the monitor. -/
inductive Call where
  | collectGlobalStep (globalStep timestamp : Int)
  | addRunningWorker (type : String) (workerId : Int)
  | removeRunningWorker (type : String) (workerId : Int)
  | setTargetWorkerNum (workerNum : Int)

/-- The monitor after a call. -/
def perform (m : PerfMonitor) : Call → PerfMonitor
  | .collectGlobalStep globalStep timestamp => m.collectGlobalStep globalStep timestamp
  | .addRunningWorker type workerId => m.addRunningWorker type workerId
  | .removeRunningWorker type workerId => m.removeRunningWorker type workerId
  | .setTargetWorkerNum workerNum => m.setTargetWorkerNum workerNum

/-- The monitor after the calls. -/
def after (maxRecordCount : Int) (calls : List Call) : PerfMonitor :=
  calls.foldl perform (init maxRecordCount)

/-! ### The stable period -/

/-- Whether a record is at least the given time older than the last one. -/
def oldEnough (m : PerfMonitor) (seconds : Int) (record : GlobalStepRecord) : Bool :=
  m.globalStepRecords.getLast?.any fun last ↦ seconds ≤ last.timestamp - record.timestamp

/-- The records from the youngest that is old enough up to the last one. -/
def stablePeriod (m : PerfMonitor) (seconds : Int) : Option (List GlobalStepRecord) :=
  (m.globalStepRecords.rdropWhile (!m.oldEnough seconds ·)).getLast?.map
    (· :: m.globalStepRecords.rtakeWhile (!m.oldEnough seconds ·))

/-- The records reach back far enough, and all of the period have the target number of workers. -/
def StableAtTarget (m : PerfMonitor) (seconds : Int) : Prop :=
  ∃ period, m.stablePeriod seconds = some period ∧
    ∀ record ∈ period, record.workerNum = m.targetWorkerNum

/-- The last record and one that is old enough have the target number of workers, and a record of
the period has another one. -/
def Disturbed (m : PerfMonitor) (seconds : Int) : Prop :=
  (∃ last, m.globalStepRecords.getLast? = some last ∧ last.workerNum = m.targetWorkerNum) ∧
    (∃ record ∈ m.globalStepRecords,
      m.oldEnough seconds record ∧ record.workerNum = m.targetWorkerNum) ∧
    ∃ period, m.stablePeriod seconds = some period ∧
      ∃ record ∈ period, record.workerNum ≠ m.targetWorkerNum

/-! ### What the answer says -/

section

variable {m : PerfMonitor} {seconds : Int}

/-- The answer looks at the last record and asks for one that is old enough. -/
theorem workerAdjustmentFinished_iff :
    m.workerAdjustmentFinished seconds = true ↔
      (∃ last, m.globalStepRecords.getLast? = some last ∧
        last.workerNum = m.targetWorkerNum) ∧
      ∃ record ∈ m.globalStepRecords,
        m.oldEnough seconds record ∧ record.workerNum = m.targetWorkerNum := by
  unfold workerAdjustmentFinished oldEnough
  cases end_eq : m.globalStepRecords.getLast? with
  | none => simp
  | some last =>
    by_cases same : (last.workerNum : Int) = m.targetWorkerNum
    · simp only [same, ne_eq, not_true_eq_false, if_false, List.any_eq_true, List.mem_reverse,
        decide_eq_true_eq, Option.any_some, Option.some.injEq, exists_eq_left', true_and]
      refine exists_congr fun record ↦ and_congr_right fun _ ↦ ?_
      rw [and_comm, ← same, Int.natCast_inj]
    · simp [same]

/-- The period starts at a record that is old enough and ends where the records end. -/
theorem stablePeriod_spec {period : List GlobalStepRecord}
    (found : m.stablePeriod seconds = some period) :
    period <:+ m.globalStepRecords ∧
      ∃ record ∈ period, m.oldEnough seconds record := by
  rcases Option.map_eq_some_iff.mp found with ⟨youngest, end_eq, rfl⟩
  rcases List.getLast?_eq_some_iff.mp end_eq with ⟨older, split⟩
  refine ⟨⟨older, ?_⟩, youngest, List.mem_cons_self, ?_⟩
  · have whole := List.rdropWhile_append_rtakeWhile
      (p := (!m.oldEnough seconds ·)) (l := m.globalStepRecords)
    rw [split, List.append_assoc, List.singleton_append] at whole
    exact whole
  · have nonempty : m.globalStepRecords.rdropWhile (!m.oldEnough seconds ·) ≠ [] := by
      rw [split]
      exact List.append_ne_nil_of_right_ne_nil _ (List.cons_ne_nil _ _)
    have stop := List.rdropWhile_last_not _ _ nonempty
    rw [List.getLast?_eq_some_getLast nonempty] at end_eq
    rw [Option.some.inj end_eq] at stop
    simpa using stop

/-- There is a period when a record is old enough. -/
theorem exists_stablePeriod {record : GlobalStepRecord} (mem : record ∈ m.globalStepRecords)
    (old : m.oldEnough seconds record) : ∃ period, m.stablePeriod seconds = some period := by
  have nonempty : m.globalStepRecords.rdropWhile (!m.oldEnough seconds ·) ≠ [] := by
    intro none_old
    have young := List.rdropWhile_eq_nil_iff.mp none_old record mem
    simp [old] at young
  exact ⟨_, by rw [stablePeriod, List.getLast?_eq_some_getLast nonempty, Option.map_some]⟩

/-- The last record belongs to the period. -/
theorem getLast_mem_stablePeriod {period : List GlobalStepRecord}
    (found : m.stablePeriod seconds = some period) :
    ∃ last ∈ period, m.globalStepRecords.getLast? = some last := by
  rcases stablePeriod_spec found with ⟨suffix, record, mem, -⟩
  have nonempty := List.ne_nil_of_mem mem
  refine ⟨period.getLast nonempty, List.getLast_mem nonempty, ?_⟩
  rw [suffix.getLast nonempty]
  exact List.getLast?_eq_some_getLast _

/-- An undisturbed period at the target is seen as such. -/
theorem StableAtTarget.finished (stable : m.StableAtTarget seconds) :
    m.workerAdjustmentFinished seconds = true := by
  rcases stable with ⟨period, found, at_target⟩
  rcases stablePeriod_spec found with ⟨suffix, record, mem, old⟩
  rcases getLast_mem_stablePeriod found with ⟨last, last_mem, last_eq⟩
  exact workerAdjustmentFinished_iff.mpr
    ⟨⟨last, last_eq, at_target last last_mem⟩, record, suffix.mem mem, old, at_target record mem⟩

/-- A positive answer is right just when the period was not disturbed. -/
theorem stableAtTarget_iff_of_finished (finished : m.workerAdjustmentFinished seconds = true) :
    m.StableAtTarget seconds ↔ ¬m.Disturbed seconds := by
  have ⟨last_target, record, mem, old, target⟩ := workerAdjustmentFinished_iff.mp finished
  rcases exists_stablePeriod mem old with ⟨period, found⟩
  constructor
  · rintro ⟨period', found', at_target⟩ ⟨-, -, period'', found'', other, other_mem, differs⟩
    cases found'.symm.trans found''
    exact differs (at_target other other_mem)
  · intro undisturbed
    refine ⟨period, found, fun other other_mem ↦ ?_⟩
    by_contra differs
    exact undisturbed
      ⟨last_target, ⟨record, mem, old, target⟩, period, found, other, other_mem, differs⟩

end

/-- After any calls the answer agrees with the stable period just when the period was not
disturbed between two records with the target number. -/
theorem workerAdjustmentFinished_agrees_iff (maxRecordCount seconds : Int) (calls : List Call) :
    (((after maxRecordCount calls).workerAdjustmentFinished seconds = true ↔
        (after maxRecordCount calls).StableAtTarget seconds) ↔
      ¬(after maxRecordCount calls).Disturbed seconds) := by
  generalize after maxRecordCount calls = m
  constructor
  · intro agrees disturbed
    have finished := workerAdjustmentFinished_iff.mpr ⟨disturbed.1, disturbed.2.1⟩
    exact (stableAtTarget_iff_of_finished finished).mp (agrees.mp finished) disturbed
  · intro undisturbed
    exact ⟨fun finished ↦ (stableAtTarget_iff_of_finished finished).mpr undisturbed,
      StableAtTarget.finished⟩

/-- A worker that leaves for one report and comes back: the answer is that the adjustment is
finished, although the middle record of the period has one worker. -/
theorem not_workerAdjustmentFinished_agrees :
    ∃ calls : List Call,
      (after 50 calls).workerAdjustmentFinished 300 = true ∧
        ¬(after 50 calls).StableAtTarget 300 := by
  refine ⟨[.setTargetWorkerNum 2, .addRunningWorker "worker" 0, .addRunningWorker "worker" 1,
    .collectGlobalStep 1 1, .removeRunningWorker "worker" 1, .collectGlobalStep 301 151,
    .addRunningWorker "worker" 1, .collectGlobalStep 601 301], by decide, ?_⟩
  rintro ⟨period, found, at_target⟩
  have middle : (⟨301, 151, 1⟩ : GlobalStepRecord) ∈ period := by
    cases found
    exact List.mem_cons_of_mem _ List.mem_cons_self
  exact absurd (at_target _ middle) (by decide)

end PerfMonitor

end ProbingBaselines.Dlrover
