import Mathlib.Data.Rat.Floor
import ProbingBaselines.Dlrover.DatasetSplitter
import ProbingBaselines.Lib.Dict

/-!
# The task manager of a batch dataset

`BatchDatasetManager` (`master/shard/batch_dataset_manager.py:29-151`) turns shards into numbered
tasks, hands them to the workers and takes their reports. A failed task is queued again until it has
failed too often. `TaskManager` holds its lock around every call, so each is one function of the
state; the clock and the random source are arguments.
-/

namespace ProbingBaselines.Dlrover

open Lib

/-- `elastic_training.proto:5-12`. -/
inductive TaskType where
  | none
  | training
  | evaluation
  | prediction
  | wait
  | trainEndCallback
  deriving DecidableEq

/-- `base_dataset_manager.py:22-40`. -/
structure Task where
  taskId : Int
  taskType : TaskType
  shard : Shard
  retryCount : Nat
  deriving DecidableEq

def Task.createInvalidTask : Task := ⟨-1, .none, ⟨"", -1, -1, none⟩, 0⟩

/-- The task after one more failure. -/
def Task.failed (task : Task) : Task := { task with retryCount := task.retryCount + 1 }

/-- What a task keeps for good. -/
def Task.ident (task : Task) : Int × Shard := (task.taskId, task.shard)

/-- `base_dataset_manager.py:43-57`. -/
structure DoingTask where
  task : Task
  nodeType : String
  nodeId : Int
  startTime : Int

/-- `_MAX_TASK_RETRIES`. -/
def maxTaskRetries : Nat := 3

/-- The shard size is a multiple of the batch size (`servicer.py:512-516`), which is thus not zero
either. -/
structure BatchDatasetManager where
  taskType : TaskType
  batchSize : Nat
  datasetSplitter : DatasetSplitter
  todo : List Task
  doing : Dict Int DoingTask
  taskId : Nat
  completedStep : Nat
  maxTaskCompletedTime : ℚ
  latestTaskEndTime : Int
  batchSize_pos : 0 < batchSize

/-- Tasks for the shards in order, numbered from `first`. -/
def numberTasks (taskType : TaskType) : Nat → List Shard → List Task
  | _, [] => []
  | first, shard :: shards =>
    ⟨first, taskType, shard, 0⟩ :: numberTasks taskType (first + 1) shards

namespace BatchDatasetManager

/-- `BatchDatasetManager.__init__`. -/
def new (taskType : TaskType) (batchSize : Nat) (datasetSplitter : DatasetSplitter)
    (hb : 0 < batchSize) : BatchDatasetManager :=
  ⟨taskType, batchSize, datasetSplitter, [], .empty, 0, 0, 0, 0, hb⟩

/-- `_create_todo_tasks`. -/
def createTodoTasks (s : BatchDatasetManager) (shards : List Shard) : BatchDatasetManager :=
  { s with
    todo := s.todo ++ numberTasks s.taskType s.taskId shards
    taskId := s.taskId + shards.length }

/-- A new epoch starts when nothing is left to hand out; `batch_dataset_manager.py:55-61`. -/
def startEpoch (s : BatchDatasetManager) (rand : Nat → Nat) : BatchDatasetManager :=
  if s.todo = [] ∧ s.datasetSplitter.epochFinished = false then
    let (shards, datasetSplitter) := s.datasetSplitter.createShards rand
    createTodoTasks { s with datasetSplitter := datasetSplitter } shards
  else s

/-- `batch_dataset_manager.py:52-75`. -/
def getTask (s : BatchDatasetManager) (nodeType : String) (nodeId : Int) (now : ℚ)
    (rand : Nat → Nat) : Task × BatchDatasetManager :=
  let s := s.startEpoch rand
  match s.todo with
  | [] => (Task.createInvalidTask, s)
  | task :: todo =>
    (task, { s with
      todo := todo
      doing := s.doing.insert task.taskId ⟨task, nodeType, nodeId, ⌊now⌋⟩ })

def completed (s : BatchDatasetManager) : Bool :=
  s.datasetSplitter.epochFinished && decide (s.todo = []) && decide (s.doing.items = [])

/-- `recover_task`; a task that has failed too often is dropped. -/
def recoverTask (s : BatchDatasetManager) (task : Task) : BatchDatasetManager :=
  if maxTaskRetries < task.failed.retryCount then s
  else { s with todo := s.todo ++ [task.failed] }

/-- `_update_completed_step`. -/
def updateCompletedStep (s : BatchDatasetManager) (task : Task) (now : ℚ) : BatchDatasetManager :=
  let recordCount := (task.shard.stop - task.shard.start).toNat
  { s with
    completedStep := s.completedStep + ceilQuotient recordCount s.batchSize
    latestTaskEndTime := ⌊now⌋ }

/-- `batch_dataset_manager.py:102-128`. -/
def reportTaskStatus (s : BatchDatasetManager) (taskId : Int) (success : Bool) (now : ℚ) :
    (Bool × Option DoingTask) × BatchDatasetManager :=
  match s.doing.get? taskId with
  | none => ((false, none), s)
  | some doingTask =>
    let s := { s with doing := s.doing.erase taskId }
    if success then
      let s := s.updateCompletedStep doingTask.task now
      let taskCompletedTime := now - doingTask.startTime
      ((true, some doingTask),
        { s with maxTaskCompletedTime := max s.maxTaskCompletedTime taskCompletedTime })
    else
      ((false, some { doingTask with task := doingTask.task.failed }),
        s.recoverTask doingTask.task)

/-- The tasks that a node is processing. -/
def doingIds (s : BatchDatasetManager) (nodeType : String) (nodeId : Int) : List Int :=
  (s.doing.items.filter fun e ↦ e.2.nodeId = nodeId ∧ e.2.nodeType = nodeType).map Prod.fst

/-- What `TaskManager.recover_tasks` does to one dataset; `task_manager.py:174-201`. -/
def recoverTasks (s : BatchDatasetManager) (nodeType : String) (nodeId : Int) (now : ℚ) :
    BatchDatasetManager :=
  (s.doingIds nodeType nodeId).foldl (fun s id ↦ (s.reportTaskStatus id false now).2) s

/-! ### What each operation does -/

/-- The tasks that a new epoch creates, if one starts. -/
def newTasks (s : BatchDatasetManager) (rand : Nat → Nat) : List Task :=
  if s.todo = [] ∧ s.datasetSplitter.epochFinished = false then
    numberTasks s.taskType s.taskId (s.datasetSplitter.createShards rand).1
  else []

/-- Either an epoch starts on an empty queue, or nothing changes. -/
theorem startEpoch_cases (s : BatchDatasetManager) (rand : Nat → Nat) :
    (s.todo = [] ∧ s.datasetSplitter.epochFinished = false ∧
      s.startEpoch rand = { s with
        datasetSplitter := (s.datasetSplitter.createShards rand).2
        todo := s.newTasks rand
        taskId := s.taskId + (s.datasetSplitter.createShards rand).1.length } ∧
      s.newTasks rand = numberTasks s.taskType s.taskId (s.datasetSplitter.createShards rand).1) ∨
    (¬(s.todo = [] ∧ s.datasetSplitter.epochFinished = false) ∧
      s.startEpoch rand = s ∧ s.newTasks rand = []) := by
  by_cases fresh : s.todo = [] ∧ s.datasetSplitter.epochFinished = false
  · left
    refine ⟨fresh.1, fresh.2, ?_, if_pos fresh⟩
    simp only [startEpoch, newTasks, if_pos fresh, createTodoTasks]
    rw [fresh.1, List.nil_append]
  · right
    exact ⟨fresh, if_neg fresh, if_neg fresh⟩

/-- The queue after the start of a call. -/
theorem startEpoch_todo (s : BatchDatasetManager) (rand : Nat → Nat) :
    (s.startEpoch rand).todo = s.todo ++ s.newTasks rand ∧
      (s.startEpoch rand).doing = s.doing := by
  rcases s.startEpoch_cases rand with ⟨none, -, eq, -⟩ | ⟨-, eq, new⟩
  · rw [eq, none, List.nil_append]
    exact ⟨rfl, rfl⟩
  · rw [eq, new, List.append_nil]
    exact ⟨rfl, rfl⟩

/-- The first task of the queue is handed out, or the queue is empty. -/
theorem getTask_cases (s : BatchDatasetManager) (nodeType : String) (nodeId : Int) (now : ℚ)
    (rand : Nat → Nat) :
    (s.todo ++ s.newTasks rand = [] ∧
      s.getTask nodeType nodeId now rand = (Task.createInvalidTask, s.startEpoch rand)) ∨
    ∃ task todo, s.todo ++ s.newTasks rand = task :: todo ∧
      s.getTask nodeType nodeId now rand = (task, { s.startEpoch rand with
        todo := todo
        doing := s.doing.insert task.taskId ⟨task, nodeType, nodeId, ⌊now⌋⟩ }) := by
  rcases s.startEpoch_todo rand with ⟨queue, doing⟩
  cases h : s.todo ++ s.newTasks rand with
  | nil =>
    left
    rw [h] at queue
    exact ⟨rfl, by simp only [getTask, queue]⟩
  | cons task todo =>
    right
    rw [h] at queue
    refine ⟨task, todo, rfl, ?_⟩
    simp only [getTask, queue, doing]

/-- A report is ignored, or it completes the task, or it fails the task. -/
theorem reportTaskStatus_cases (s : BatchDatasetManager) (taskId : Int) (success : Bool)
    (now : ℚ) :
    (s.doing.get? taskId = none ∧ s.reportTaskStatus taskId success now = ((false, none), s)) ∨
    ∃ doingTask, s.doing.get? taskId = some doingTask ∧
      (s.reportTaskStatus taskId success now).2.doing = s.doing.erase taskId ∧
      (s.reportTaskStatus taskId success now).2.datasetSplitter = s.datasetSplitter ∧
      (s.reportTaskStatus taskId success now).2.taskId = s.taskId ∧
      (s.reportTaskStatus taskId success now).2.todo =
        if success = false ∧ doingTask.task.failed.retryCount ≤ maxTaskRetries
        then s.todo ++ [doingTask.task.failed] else s.todo := by
  cases found : s.doing.get? taskId with
  | none =>
    left
    refine ⟨rfl, ?_⟩
    simp only [reportTaskStatus, found]
  | some doingTask =>
    right
    refine ⟨doingTask, rfl, ?_⟩
    simp only [reportTaskStatus, found]
    cases success with
    | true => exact ⟨rfl, rfl, rfl, rfl⟩
    | false =>
      by_cases spent : maxTaskRetries < doingTask.task.failed.retryCount
      · simp only [Bool.false_eq_true, if_false, recoverTask, if_pos spent, true_and,
          if_neg (Nat.not_le.mpr spent)]
      · simp only [Bool.false_eq_true, if_false, recoverTask, if_neg spent, true_and,
          if_pos (Nat.not_lt.mp spent)]

/-- Only a success of a task being processed counts. -/
theorem reportTaskStatus_counts {s : BatchDatasetManager} {taskId : Int} {success : Bool} {now : ℚ}
    (counts : (s.reportTaskStatus taskId success now).1.1 = true) :
    success = true ∧ taskId ∈ s.doing := by
  simp only [reportTaskStatus] at counts
  split at counts
  · contradiction
  · next d found =>
    cases success with
    | true => exact ⟨rfl, Dict.mem_of_mem_items (Dict.get?_eq_some_iff.mp found)⟩
    | false => exact absurd counts Bool.false_ne_true

end BatchDatasetManager

/-! ### Numbering -/

theorem numberTasks_ids (taskType : TaskType) (first : Nat) (shards : List Shard) :
    (numberTasks taskType first shards).map Task.taskId =
      (List.range' first shards.length).map fun n : Nat ↦ (n : Int) := by
  induction shards generalizing first with
  | nil => rfl
  | cons shard shards ih =>
    rw [numberTasks, List.map_cons, ih, List.length_cons, List.range'_succ, List.map_cons]

theorem numberTasks_shards (taskType : TaskType) (first : Nat) (shards : List Shard) :
    (numberTasks taskType first shards).map Task.shard = shards := by
  induction shards generalizing first with
  | nil => rfl
  | cons shard shards ih => rw [numberTasks, List.map_cons, ih]

theorem retryCount_of_mem_numberTasks {taskType : TaskType} {first : Nat} {shards : List Shard}
    {task : Task} (h : task ∈ numberTasks taskType first shards) : task.retryCount = 0 := by
  induction shards generalizing first with
  | nil => exact absurd h List.not_mem_nil
  | cons shard shards ih =>
    rcases List.mem_cons.mp h with rfl | h
    · rfl
    · exact ih h

theorem id_of_mem_numberTasks {taskType : TaskType} {first : Nat} {shards : List Shard}
    {task : Task} (h : task ∈ numberTasks taskType first shards) :
    first ≤ task.taskId ∧ task.taskId < first + shards.length := by
  have mem : task.taskId ∈ (numberTasks taskType first shards).map Task.taskId :=
    List.mem_map_of_mem h
  rw [numberTasks_ids] at mem
  rcases List.mem_map.mp mem with ⟨n, hn, eq⟩
  have range := List.mem_range'_1.mp hn
  omega

namespace BatchDatasetManager

/-- Every task waiting or being processed has a number from `lo` to the counter, and is listed
under it. -/
structure Numbered (lo : Nat) (s : BatchDatasetManager) : Prop where
  todo : ∀ t ∈ s.todo, lo ≤ t.taskId ∧ t.taskId < s.taskId
  doing : ∀ e ∈ s.doing.items, e.2.task.taskId = e.1 ∧ lo ≤ e.1 ∧ e.1 < s.taskId
  counter : lo ≤ s.taskId

namespace Numbered

variable {lo : Nat} {s : BatchDatasetManager}

theorem startEpoch (h : Numbered lo s) (rand : Nat → Nat) : Numbered lo (s.startEpoch rand) := by
  rcases s.startEpoch_cases rand with ⟨-, -, eq, new⟩ | ⟨-, eq, -⟩
  · have counter := h.counter
    rw [eq, new]
    constructor
    · intro t ht
      have range := id_of_mem_numberTasks ht
      simp only
      omega
    · intro e he
      have range := h.doing e he
      simp only
      omega
    · simp only
      omega
  · rw [eq]
    exact h

theorem getTask (h : Numbered lo s) (nodeType : String) (nodeId : Int) (now : ℚ)
    (rand : Nat → Nat) : Numbered lo (s.getTask nodeType nodeId now rand).2 := by
  have start := h.startEpoch rand
  rcases s.startEpoch_todo rand with ⟨queue, doing⟩
  rcases s.getTask_cases nodeType nodeId now rand with ⟨-, eq⟩ | ⟨task, todo, some, eq⟩
  · rw [eq]
    exact start
  · rw [some] at queue
    rw [eq]
    have first := start.todo task (queue ▸ List.mem_cons_self)
    refine ⟨fun t ht ↦ start.todo t (queue ▸ List.mem_cons_of_mem _ ht), ?_, start.counter⟩
    intro e he
    rcases Dict.mem_items_insert.mp he with ⟨hid, hd⟩ | ⟨-, he⟩
    · rw [hid, hd]
      exact ⟨rfl, first⟩
    · rw [← doing] at he
      exact start.doing e he

theorem reportTaskStatus (h : Numbered lo s) (taskId : Int) (success : Bool) (now : ℚ) :
    Numbered lo (s.reportTaskStatus taskId success now).2 := by
  rcases s.reportTaskStatus_cases taskId success now with
    ⟨-, eq⟩ | ⟨d, hd, doing, -, counter, todo⟩
  · rw [eq]
    exact h
  · have busy := h.doing _ (Dict.get?_eq_some_iff.mp hd)
    constructor
    · intro t ht
      rw [counter]
      rw [todo] at ht
      split at ht
      · rcases List.mem_append.mp ht with ht | ht
        · exact h.todo t ht
        · rw [List.mem_singleton.mp ht]
          have id : d.task.failed.taskId = taskId := busy.1
          rw [id]
          exact busy.2
      · exact h.todo t ht
    · intro e he
      rw [doing] at he
      rw [counter]
      exact h.doing e (Dict.mem_items_erase.mp he).1
    · rw [counter]
      exact h.counter

theorem recoverTasks (h : Numbered lo s) (nodeType : String) (nodeId : Int) (now : ℚ) :
    Numbered lo (s.recoverTasks nodeType nodeId now) := by
  have fold : ∀ (ids : List Int) (s : BatchDatasetManager), Numbered lo s →
      Numbered lo (ids.foldl (fun s id ↦ (s.reportTaskStatus id false now).2) s) := by
    intro ids
    induction ids with
    | nil => exact fun s h ↦ h
    | cons id ids ih => exact fun s h ↦ ih _ (h.reportTaskStatus id false now)
  exact fold _ s h

/-- The task handed out has a number below the counter. -/
theorem getTask_lt (h : Numbered lo s) (nodeType : String) (nodeId : Int) (now : ℚ)
    (rand : Nat → Nat) :
    (s.getTask nodeType nodeId now rand).1.taskId <
      (s.getTask nodeType nodeId now rand).2.taskId := by
  rcases s.getTask_cases nodeType nodeId now rand with ⟨-, eq⟩ | ⟨task, todo, some, eq⟩
  · rw [eq]
    simp only [Task.createInvalidTask]
    omega
  · have mem : task ∈ (s.startEpoch rand).todo := by
      rw [(s.startEpoch_todo rand).1, some]
      exact List.mem_cons_self
    rw [eq]
    exact ((h.startEpoch rand).todo task mem).2

theorem new (taskType : TaskType) (batchSize : Nat) (datasetSplitter : DatasetSplitter)
    (hb : 0 < batchSize) : Numbered 0 (.new taskType batchSize datasetSplitter hb) :=
  ⟨fun _ h ↦ absurd h List.not_mem_nil, fun _ h ↦ absurd h List.not_mem_nil, Nat.zero_le _⟩

end Numbered

/-! ### The counter -/

theorem le_getTask_taskId (s : BatchDatasetManager) (nodeType : String) (nodeId : Int) (now : ℚ)
    (rand : Nat → Nat) : s.taskId ≤ (s.getTask nodeType nodeId now rand).2.taskId := by
  have start : s.taskId ≤ (s.startEpoch rand).taskId := by
    rcases s.startEpoch_cases rand with ⟨-, -, eq, -⟩ | ⟨-, eq, -⟩
    · rw [eq]
      exact Nat.le_add_right _ _
    · rw [eq]
  rcases s.getTask_cases nodeType nodeId now rand with ⟨-, eq⟩ | ⟨task, todo, -, eq⟩
  · rw [eq]
    exact start
  · rw [eq]
    exact start

theorem reportTaskStatus_taskId (s : BatchDatasetManager) (taskId : Int) (success : Bool)
    (now : ℚ) : (s.reportTaskStatus taskId success now).2.taskId = s.taskId := by
  rcases s.reportTaskStatus_cases taskId success now with ⟨-, eq⟩ | ⟨d, -, -, -, counter, -⟩
  · rw [eq]
  · exact counter

theorem recoverTasks_taskId (s : BatchDatasetManager) (nodeType : String) (nodeId : Int)
    (now : ℚ) : (s.recoverTasks nodeType nodeId now).taskId = s.taskId := by
  have fold : ∀ (ids : List Int) (s : BatchDatasetManager),
      (ids.foldl (fun s id ↦ (s.reportTaskStatus id false now).2) s).taskId = s.taskId := by
    intro ids
    induction ids with
    | nil => exact fun s ↦ rfl
    | cons id ids ih =>
      intro s
      rw [List.foldl_cons, ih, reportTaskStatus_taskId]
  exact fold _ s

end BatchDatasetManager

end ProbingBaselines.Dlrover
