import Mathlib.Algebra.BigOperators.Group.List.Basic
import Mathlib.Algebra.Order.BigOperators.Group.List
import ProbingBaselines.Lib.Run
import ProbingBaselines.Dlrover.BatchDatasetManager

/-!
# The shards of a worker

`ShardingClient` (`elastic_agent/sharding/client.py:61-185`) keeps the tasks that it has fetched, by
their ids and in the order in which they came, until the records of as many batches have been
reported. What a batch has left over counts for the next pending task.
-/

namespace ProbingBaselines.Dlrover

open Lib

/-- `task.shard.end - task.shard.start`. -/
def Task.recordCount (task : Task) : Int := task.shard.stop - task.shard.start

/-- The part of a `ShardingClient` that fetching and reporting use. -/
structure ShardingClient where
  batchSize : Int
  pendingTasks : Dict Int Task
  reportedRecordCount : Dict Int Int
  currentTask : Option Task
  batchCount : Nat
  shardCount : Nat
  maxShardCount : Nat

/-- A call of `_report_task`. -/
structure TaskReport where
  task : Task
  errMsg : String

namespace ShardingClient

/-- `__init__`; `maxShardCount` is `sys.maxsize`. -/
def init (batchSize : Int) (maxShardCount : Nat) : ShardingClient where
  batchSize := batchSize
  pendingTasks := .empty
  reportedRecordCount := .empty
  currentTask := none
  batchCount := 0
  shardCount := 0
  maxShardCount := maxShardCount

/-- `get_task` (`client.py:114-130`), given the task of the last call of the master. -/
def getTask (s : ShardingClient) (task : Task) : ShardingClient × Option Task :=
  if s.maxShardCount ≤ s.shardCount then (s, none)
  else if 0 < task.recordCount then
    let pendingTasks := s.pendingTasks.insert task.taskId task
    let currentTask := if pendingTasks.items.length = 1 then some task else s.currentTask
    ({ s with pendingTasks, currentTask, shardCount := s.shardCount + 1 }, some task)
  else (s, none)

/-- `batch_size if batch_size else self._batch_size`. -/
def recordCount (s : ShardingClient) (batchSize : Option Int) : Int :=
  if batchSize.getD 0 = 0 then s.batchSize else batchSize.getD 0

/-- The loop over the task ids (`client.py:160-181`), with the records that are left. -/
def reportLoop (errMsg : String) :
    List Int → Int → ShardingClient → ShardingClient × List TaskReport
  | [], _, s => (s, [])
  | taskId :: taskIds, recordCount, s =>
    if 0 < recordCount then
      match s.pendingTasks.get? taskId with
      | none => reportLoop errMsg taskIds recordCount s
      | some task =>
        let curCount := (s.reportedRecordCount.get? taskId).getD 0
        if task.recordCount ≤ curCount + recordCount then
          let reported := { s with
            reportedRecordCount := s.reportedRecordCount.erase taskId
            pendingTasks := s.pendingTasks.erase taskId }
          let rest := reportLoop errMsg taskIds (curCount + recordCount - task.recordCount) reported
          (rest.1, ⟨task, errMsg⟩ :: rest.2)
        else
          let counts := s.reportedRecordCount.insert taskId (curCount + recordCount)
          reportLoop errMsg taskIds 0 { s with reportedRecordCount := counts }
    else reportLoop errMsg taskIds recordCount s

/-- `report_batch_done` (`client.py:144-185`), with the tasks that it reports to the master. -/
def reportBatchDone (s : ShardingClient) (batchSize : Option Int) (errMsg : String)
    (taskIds : List Int) : ShardingClient × List TaskReport :=
  if s.pendingTasks.items = [] then (s, [])
  else
    let counted := { s with batchCount := s.batchCount + 1 }
    let taskIds := if taskIds = [] then s.pendingTasks.keys else taskIds
    let (t, reports) := reportLoop errMsg taskIds (s.recordCount batchSize) counted
    ({ t with currentTask := t.pendingTasks.values.head?.orElse fun _ ↦ t.currentTask }, reports)

end ShardingClient

/-! ### One call of the loop -/

/-- The records of some tasks. -/
def recordsOf (tasks : List Task) : Int := (tasks.map Task.recordCount).sum

@[simp]
theorem recordsOf_nil : recordsOf [] = 0 := rfl

@[simp]
theorem recordsOf_cons (task : Task) (tasks : List Task) :
    recordsOf (task :: tasks) = task.recordCount + recordsOf tasks := List.sum_cons

@[simp]
theorem recordsOf_append (tasks more : List Task) :
    recordsOf (tasks ++ more) = recordsOf tasks + recordsOf more := by
  rw [recordsOf, List.map_append, List.sum_append]
  rfl

theorem recordsOf_nonneg {tasks : List Task} (h : ∀ task ∈ tasks, 0 < task.recordCount) :
    0 ≤ recordsOf tasks := by
  apply List.sum_nonneg
  intro n hn
  rcases List.mem_map.mp hn with ⟨task, mem, rfl⟩
  exact (h task mem).le

/-- `d` records are carried over to the first pending task, which has more. -/
inductive Carries : List (Int × Task) → List (Int × Int) → Int → Prop where
  | nothing {pending : List (Int × Task)} : Carries pending [] 0
  | part {taskId : Int} {task : Task} {pending : List (Int × Task)} {d : Int} (pos : 0 < d)
    (lt : d < task.recordCount) : Carries ((taskId, task) :: pending) [(taskId, d)] d

theorem Carries.nonneg {pending : List (Int × Task)} {counts : List (Int × Int)} {d : Int}
    (h : Carries pending counts d) : 0 ≤ d := by
  cases h with
  | nothing => exact le_rfl
  | part pos lt => exact pos.le

theorem carries_nil {counts : List (Int × Int)} {d : Int} (h : Carries [] counts d) :
    counts = [] ∧ d = 0 := by
  cases h
  exact ⟨rfl, rfl⟩

namespace ShardingClient

theorem reportLoop_nonpos {errMsg : String} {taskIds : List Int} {n : Int} (h : n ≤ 0)
    (s : ShardingClient) : reportLoop errMsg taskIds n s = (s, []) := by
  induction taskIds with
  | nil => rfl
  | cons taskId taskIds ih => rw [reportLoop, if_neg h.not_gt, ih]

theorem reportLoop_max (errMsg : String) (taskIds : List Int) (n : Int) (s : ShardingClient) :
    reportLoop errMsg taskIds (max 0 n) s = reportLoop errMsg taskIds n s := by
  rcases le_total 0 n with nonneg | nonpos
  · rw [max_eq_right nonneg]
  · rw [max_eq_left nonpos, reportLoop_nonpos le_rfl, reportLoop_nonpos nonpos]

variable {s : ShardingClient}

/-- The count of the first pending task is what is carried over, and it is the only one. -/
theorem count_of_carries {taskId : Int} {task : Task} {pending : List (Int × Task)} {c : Int}
    (carries : Carries ((taskId, task) :: pending) s.reportedRecordCount.items c) :
    (s.reportedRecordCount.get? taskId).getD 0 = c ∧
      (s.reportedRecordCount.erase taskId).items = [] ∧
      ∀ d, (s.reportedRecordCount.insert taskId d).items = [(taskId, d)] := by
  cases counts : s.reportedRecordCount.items with
  | nil =>
    rw [counts] at carries
    cases carries
    rw [Dict.eq_empty_of_items counts]
    exact ⟨rfl, rfl, fun d ↦ rfl⟩
  | cons count rest =>
    rw [counts] at carries
    cases carries with
    | part pos lt =>
      have mem : (taskId, c) ∈ s.reportedRecordCount.items := by
        rw [counts]
        exact List.mem_singleton_self _
      have known : taskId ∈ s.reportedRecordCount := Dict.mem_of_mem_items mem
      refine ⟨?_, Dict.items_erase_cons counts, fun d ↦ ?_⟩
      · rw [Dict.get?_eq_some_iff.mpr mem, Option.getD_some]
      · have items : (s.reportedRecordCount.insert taskId d).items =
            s.reportedRecordCount.items.map fun e ↦ if e.1 = taskId then (taskId, d) else e :=
          if_pos known
        rw [items, counts, List.map_singleton, if_pos rfl]

/-- The loop over the pending tasks reports the first `k` of them, those whose records have come in;
the rest is carried over. -/
theorem reportLoop_spec (errMsg : String) {pending : List (Int × Task)}
    (items : s.pendingTasks.items = pending) {c n : Int}
    (carries : Carries pending s.reportedRecordCount.items c) (nonneg : 0 ≤ n)
    (le : n + c ≤ recordsOf (pending.map Prod.snd)) :
    ∃ k, let r := reportLoop errMsg (pending.map Prod.fst) n s
      r.2 = (pending.take k).map (fun e ↦ ⟨e.2, errMsg⟩) ∧ r.1.pendingTasks.items = pending.drop k ∧
      Carries (pending.drop k) r.1.reportedRecordCount.items
        (n + c - recordsOf ((pending.take k).map Prod.snd)) := by
  induction pending generalizing s c n with
  | nil =>
    rcases carries_nil carries with ⟨counts, rfl⟩
    have zero : n = 0 := by
      simp only [List.map_nil, recordsOf_nil] at le
      omega
    refine ⟨0, rfl, items, ?_⟩
    simpa [reportLoop, zero, counts] using Carries.nothing
  | cons e pending ih =>
    rcases e with ⟨taskId, task⟩
    rcases count_of_carries carries with ⟨count, erased, inserted⟩
    have found : s.pendingTasks.get? taskId = some task := by
      rw [Dict.get?_eq_some_iff, items]
      exact List.mem_cons_self
    simp only [List.map_cons, recordsOf_cons] at le
    rcases nonneg.eq_or_lt with rfl | pos
    · refine ⟨0, ?_⟩
      rw [reportLoop_nonpos le_rfl]
      simpa [items] using carries
    · by_cases full : task.recordCount ≤ c + n
      · have rest := ih (s := { s with
            reportedRecordCount := s.reportedRecordCount.erase taskId
            pendingTasks := s.pendingTasks.erase taskId })
          (c := 0) (n := c + n - task.recordCount)
          (Dict.items_erase_cons items) (by simpa only [erased] using Carries.nothing)
          (by omega) (by omega)
        rcases rest with ⟨k, reports, left, counts⟩
        refine ⟨k + 1, ?_⟩
        simp only [List.map_cons, reportLoop, if_pos pos, found, count, if_pos full]
        refine ⟨?_, left, ?_⟩
        · rw [reports]
          rfl
        · have eq : n + c - recordsOf (((taskId, task) :: pending).take (k + 1) |>.map Prod.snd) =
              c + n - task.recordCount + 0 - recordsOf ((pending.take k).map Prod.snd) := by
            simp only [List.take_succ_cons, List.map_cons, recordsOf_cons]
            omega
          rw [eq]
          exact counts
      · refine ⟨0, ?_⟩
        simp only [List.map_cons, reportLoop, if_pos pos, found, count, if_neg full,
          reportLoop_nonpos le_rfl]
        refine ⟨rfl, items, ?_⟩
        rw [inserted]
        have eq :
            n + c - recordsOf (((taskId, task) :: pending).take 0 |>.map Prod.snd) = c + n := by
          simp only [List.take_zero, List.map_nil, recordsOf_nil]
          omega
        rw [eq]
        refine .part ?_ (by omega)
        have carried := carries.nonneg
        omega

/-- A batch reports the first `k` pending tasks and carries the rest of its records over. -/
theorem reportBatchDone_spec (batchSize : Option Int) (errMsg : String) {c : Int}
    (carries : Carries s.pendingTasks.items s.reportedRecordCount.items c)
    (le : max 0 (s.recordCount batchSize) + c ≤ recordsOf s.pendingTasks.values) :
    ∃ k, let r := s.reportBatchDone batchSize errMsg []
      r.2 = (s.pendingTasks.items.take k).map (fun e ↦ ⟨e.2, errMsg⟩) ∧
      r.1.pendingTasks.items = s.pendingTasks.items.drop k ∧
      Carries (s.pendingTasks.items.drop k) r.1.reportedRecordCount.items
        (max 0 (s.recordCount batchSize) + c -
          recordsOf ((s.pendingTasks.items.take k).map Prod.snd)) := by
  by_cases none : s.pendingTasks.items = []
  · refine ⟨0, ?_⟩
    rw [Dict.values, none, List.map_nil, recordsOf_nil] at le
    rw [none] at carries ⊢
    rcases carries_nil carries with ⟨counts, rfl⟩
    have zero : max 0 (s.recordCount batchSize) = 0 := by
      have pos : 0 ≤ max 0 (s.recordCount batchSize) := le_max_left _ _
      omega
    rw [reportBatchDone, if_pos none, zero]
    simpa [none, counts] using Carries.nothing
  · have loop := reportLoop_spec errMsg (s := { s with batchCount := s.batchCount + 1 }) rfl carries
      (le_max_left 0 (s.recordCount batchSize)) le
    rw [reportLoop_max] at loop
    rw [reportBatchDone, if_neg none, if_pos rfl]
    exact loop

end ShardingClient

/-! ### Runs -/

/-- A client with the tasks that it has fetched, those that it has reported, and the number of
records of the batches that were reported to it. -/
structure ShardAccount where
  client : ShardingClient
  fetched : List Task
  reports : List TaskReport
  records : Int

inductive ClientCall where
  | getTask (task : Task)
  | reportBatchDone (batchSize : Option Int) (errMsg : String)

namespace ShardAccount

def init (batchSize : Int) (maxShardCount : Nat) : ShardAccount :=
  ⟨.init batchSize maxShardCount, [], [], 0⟩

/-- The records of a call; a negative number stands for none. -/
def callRecords (s : ShardAccount) (batchSize : Option Int) : Int :=
  max 0 (s.client.recordCount batchSize)

def step (s : ShardAccount) : ClientCall → Option ShardAccount
  | .getTask task =>
    let r := s.client.getTask task
    some { s with client := r.1, fetched := s.fetched ++ r.2.toList }
  | .reportBatchDone batchSize errMsg =>
    let r := s.client.reportBatchDone batchSize errMsg []
    some ⟨r.1, s.fetched, s.reports ++ r.2, s.records + s.callRecords batchSize⟩

/-- No more records are reported than have been fetched. -/
def withinFetched (s : ShardAccount) : ClientCall → Prop
  | .getTask _ => True
  | .reportBatchDone batchSize _ => s.records + s.callRecords batchSize ≤ recordsOf s.fetched

/-- A task that is handed out is not pending. -/
def notPending (s : ShardAccount) : ClientCall → Prop
  | .getTask task => 0 < task.recordCount → task.taskId ∉ s.client.pendingTasks
  | .reportBatchDone _ _ => True

instance (s : ShardAccount) (call : ClientCall) : Decidable (s.withinFetched call) := by
  cases call <;> (unfold withinFetched; infer_instance)

instance (s : ShardAccount) (call : ClientCall) : Decidable (s.notPending call) := by
  cases call <;> (unfold notPending; infer_instance)

/-- The tasks that were reported. -/
def reported (s : ShardAccount) : List Task := s.reports.map TaskReport.task

/-- The tasks are reported once and in the order in which they were fetched, each when the records
of all tasks up to it have been reported; the partial counts are the records of the others. -/
structure FifoExact (s : ShardAccount) : Prop where
  order : s.reported = s.fetched.take s.reported.length
  exact : ∀ i < s.fetched.length,
    i < s.reported.length ↔ recordsOf (s.fetched.take (i + 1)) ≤ s.records
  carried : s.client.reportedRecordCount.values.sum = s.records - recordsOf s.reported

/-- The pending tasks are those that were fetched and not reported, and the first of them carries
the records that are left. -/
structure Inv (s : ShardAccount) : Prop where
  fetched : s.fetched = s.reported ++ s.client.pendingTasks.values
  sizes : ∀ task ∈ s.fetched, 0 < task.recordCount
  carries : Carries s.client.pendingTasks.items s.client.reportedRecordCount.items
    (s.records - recordsOf s.reported)

theorem inv_init (batchSize : Int) (maxShardCount : Nat) : (init batchSize maxShardCount).Inv where
  fetched := rfl
  sizes _ mem := absurd mem List.not_mem_nil
  carries := .nothing

end ShardAccount

theorem Carries.concat {pending : List (Int × Task)} {counts : List (Int × Int)} {d : Int}
    (h : Carries pending counts d) (e : Int × Task) : Carries (pending ++ [e]) counts d := by
  cases h with
  | nothing => exact .nothing
  | part pos lt => exact .part pos lt

namespace ShardAccount

variable {s t : ShardAccount}

theorem inv_getTask {task : Task} (inv : s.Inv) (fresh : s.notPending (.getTask task))
    (taken : s.step (.getTask task) = some t) : t.Inv := by
  simp only [step, ShardingClient.getTask] at taken
  split at taken
  · cases taken
    simpa using inv
  · split at taken
    · next size =>
      cases taken
      have items := Dict.items_insert_of_not_mem task (fresh size)
      refine ⟨?_, ?_, ?_⟩
      · simp only [Dict.values, items, List.map_append, List.map_singleton, Option.toList_some]
        rw [inv.fetched, List.append_assoc]
        rfl
      · intro task' mem
        rcases List.mem_append.mp mem with old | new
        · exact inv.sizes task' old
        · rw [List.mem_singleton.mp new]
          exact size
      · rw [items]
        exact inv.carries.concat _
    · cases taken
      simpa using inv

theorem step_reportBatchDone (s : ShardAccount) (batchSize : Option Int) (errMsg : String) :
    s.step (.reportBatchDone batchSize errMsg) =
      some ⟨(s.client.reportBatchDone batchSize errMsg []).1, s.fetched,
        s.reports ++ (s.client.reportBatchDone batchSize errMsg []).2,
        s.records + s.callRecords batchSize⟩ := rfl

theorem inv_reportBatchDone {batchSize : Option Int} {errMsg : String} (inv : s.Inv)
    (within : s.withinFetched (.reportBatchDone batchSize errMsg))
    (taken : s.step (.reportBatchDone batchSize errMsg) = some t) : t.Inv := by
  have total : recordsOf s.fetched =
      recordsOf s.reported + recordsOf s.client.pendingTasks.values := by
    rw [inv.fetched, recordsOf_append]
  have bound : s.records + s.callRecords batchSize ≤ recordsOf s.fetched := within
  have le : max 0 (s.client.recordCount batchSize) + (s.records - recordsOf s.reported) ≤
      recordsOf s.client.pendingTasks.values := by
    rw [callRecords] at bound
    omega
  rcases ShardingClient.reportBatchDone_spec batchSize errMsg inv.carries le with
    ⟨k, reports, rest, counts⟩
  rw [step_reportBatchDone, Option.some.injEq] at taken
  have front : TaskReport.task ∘ (fun e : Int × Task ↦ ⟨e.2, errMsg⟩) = Prod.snd := rfl
  have now : t.reported = s.reported ++ (s.client.pendingTasks.items.take k).map Prod.snd := by
    rw [← taken, reported, List.map_append, reports, List.map_map, front]
    rfl
  subst taken
  refine ⟨?_, inv.sizes, ?_⟩
  · rw [now, Dict.values, rest, List.append_assoc, ← List.map_append, List.take_append_drop]
    exact inv.fetched
  · have eq : s.records + s.callRecords batchSize - (recordsOf s.reported +
          recordsOf ((s.client.pendingTasks.items.take k).map Prod.snd)) =
        max 0 (s.client.recordCount batchSize) + (s.records - recordsOf s.reported) -
          recordsOf ((s.client.pendingTasks.items.take k).map Prod.snd) := by
      rw [callRecords]
      omega
    rw [now, recordsOf_append, rest, eq]
    exact counts

/-- A run keeps the books. -/
theorem inv_of_run {s : ShardAccount} {calls : List ClientCall} {batchSize : Int}
    {maxShardCount : Nat}
    (run : Run step (fun s call ↦ s.withinFetched call ∧ s.notPending call)
      (init batchSize maxShardCount) calls s) : s.Inv := by
  refine run.invariant (inv_init batchSize maxShardCount) ?_
  intro t u call inv meets taken
  cases call with
  | getTask task => exact inv_getTask inv meets.2 taken
  | reportBatchDone n errMsg => exact inv_reportBatchDone inv meets.1 taken

theorem sum_counts {pending : List (Int × Task)} {counts : List (Int × Int)} {d : Int}
    (h : Carries pending counts d) : (counts.map Prod.snd).sum = d := by
  cases h with
  | nothing => rfl
  | part pos lt => exact List.sum_singleton

theorem recordsOf_take_le (tasks : List Task) (h : ∀ task ∈ tasks, 0 < task.recordCount)
    (k : Nat) :
    recordsOf (tasks.take k) ≤ recordsOf tasks := by
  have split : recordsOf tasks = recordsOf (tasks.take k) + recordsOf (tasks.drop k) := by
    rw [← recordsOf_append, List.take_append_drop]
  have rest := recordsOf_nonneg fun task (mem : task ∈ tasks.drop k) ↦
    h task (List.mem_of_mem_drop mem)
  omega

theorem lt_of_carries {taskId : Int} {task : Task} {pending : List (Int × Task)}
    {counts : List (Int × Int)} {d : Int} (h : Carries ((taskId, task) :: pending) counts d)
    (size : 0 < task.recordCount) : d < task.recordCount := by
  cases h with
  | nothing => exact size
  | part pos lt => exact lt

theorem Inv.fifoExact (inv : s.Inv) : s.FifoExact where
  order := by
    rw [inv.fetched, List.take_left]
  carried := sum_counts inv.carries
  exact i hi := by
    have carried := inv.carries.nonneg
    constructor
    · intro lt
      have front : s.fetched.take (i + 1) = s.reported.take (i + 1) := by
        rw [inv.fetched, List.take_append_of_le_length lt]
      have le := recordsOf_take_le s.reported
        (fun task mem ↦ inv.sizes task (inv.fetched ▸ List.mem_append_left _ mem)) (i + 1)
      rw [front]
      omega
    · intro le
      by_contra ge
      rw [not_lt] at ge
      have sizes := inv.sizes
      have left := inv.carries
      cases items : s.client.pendingTasks.items with
      | nil =>
        have values : s.client.pendingTasks.values = [] := by rw [Dict.values, items, List.map_nil]
        rw [inv.fetched, values, List.append_nil] at hi
        exact absurd hi ge.not_gt
      | cons e rest =>
        -- the first pending task is among those up to `i`, and it has more records than are left
        have values : s.client.pendingTasks.values = e.2 :: rest.map Prod.snd := by
          rw [Dict.values, items, List.map_cons]
        rw [inv.fetched, values] at sizes
        have sizes : ∀ task ∈ e.2 :: (rest.map Prod.snd).take (i - s.reported.length),
            0 < task.recordCount := by
          rintro task (_ | ⟨_, mem⟩)
          · exact sizes e.2 (by simp)
          · exact sizes task (by simp [List.mem_of_mem_take mem])
        have later := recordsOf_nonneg fun task mem ↦ sizes task (List.mem_cons_of_mem _ mem)
        rw [items] at left
        have short := lt_of_carries left (sizes e.2 List.mem_cons_self)
        have front : s.fetched.take (i + 1) =
            s.reported ++ e.2 :: (rest.map Prod.snd).take (i - s.reported.length) := by
          have eq : i + 1 = s.reported.length + (i - s.reported.length + 1) := by omega
          rw [inv.fetched, values, eq, List.take_length_add_append, List.take_succ_cons]
        rw [front, recordsOf_append, recordsOf_cons] at le
        omega

/-- Within the records fetched, and with no task handed out while it is pending, the accounting is
exact in every state. -/
theorem fifoExact_of_run {s : ShardAccount} {calls : List ClientCall} {batchSize : Int}
    {maxShardCount : Nat}
    (run : Run step (fun s call ↦ s.withinFetched call ∧ s.notPending call)
      (init batchSize maxShardCount) calls s) : s.FifoExact :=
  (inv_of_run run).fifoExact

/-- Tasks of an evaluation. -/
def shardTask (taskId start stop : Int) : Task := ⟨taskId, .evaluation, ⟨"", start, stop, none⟩, 0⟩

/-- Two shards of three and of two records, in batches of two, two and one. -/
def twoShards : List ClientCall :=
  [.getTask (shardTask 0 0 3), .getTask (shardTask 1 3 5), .reportBatchDone none "",
    .reportBatchDone none "", .reportBatchDone (some 1) ""]

theorem fifoExact_of_run_two :
    ∃ s, Run step (fun s call ↦ s.withinFetched call ∧ s.notPending call) (init 2 10) twoShards s ∧
      s.FifoExact ∧ s.reported = [shardTask 0 0 3, shardTask 1 3 5] := by
  have eval : (twoShards.foldlM (fun s call ↦
      if withinFetched s call ∧ notPending s call then step s call else none) (init 2 10)).any
        (fun s ↦ s.reported = [shardTask 0 0 3, shardTask 1 3 5]) = true := by
    decide +kernel
  rcases run_of_guarded_any eval with ⟨s, run, holds⟩
  exact ⟨s, run, fifoExact_of_run run, of_decide_eq_true holds⟩

/-- Task 0 is handed out again, as the master does with a task that it has taken back, while it is
pending; four records are reported. -/
def refetched : List ClientCall :=
  [.getTask (shardTask 0 0 2), .getTask (shardTask 0 0 2), .reportBatchDone none "",
    .reportBatchDone none ""]

theorem refetched_not_fifoExact :
    ∃ s, Run step withinFetched (init 2 10) refetched s ∧ ¬ s.FifoExact := by
  have eval : (refetched.foldlM (fun s call ↦
      if withinFetched s call then step s call else none) (init 2 10)).any
        (fun s ↦ s.fetched.length = 2 ∧ s.reported.length = 1 ∧
          recordsOf (s.fetched.take 2) ≤ s.records) = true := by
    decide +kernel
  rcases run_of_guarded_any eval with ⟨s, run, holds⟩
  rcases of_decide_eq_true holds with ⟨fetched, reported, le⟩
  refine ⟨s, run, fun fifo ↦ ?_⟩
  have second := (fifo.exact 1 (by omega)).mpr le
  omega

end ShardAccount

end ProbingBaselines.Dlrover
