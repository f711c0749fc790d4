import ProbingBaselines.Dlrover.StreamingDataset

/-!
# Checkpoints of a stream

`StreamingDatasetSplitter.to_checkpoint` (`dataset_splitter.py:416-420`) returns the `__dict__` of
the splitter itself, after it has put the plain map of the offsets in the place of the
`PartitionOffsets`. The manager of the stream (`streaming_dataset_manager.py:167-204`) goes on with
this splitter. Through JSON the keys of the map become strings, and a list with a `Shard` in it
cannot be written. A restored task has the name of the dataset as its partition and as its number.
Until the first checkpoint such a manager runs as the one of `StreamingDataset`.
-/

namespace ProbingBaselines.Dlrover

open Lib

/-- The attribute `_partition_offset`: a `PartitionOffsets`, or the map that `to_checkpoint` has put
in its place. -/
inductive OffsetsAttribute where
  | object (offsets : PartitionOffsets)
  | plain (offsets : Dict PartitionName Int)
  deriving DecidableEq

/-- The attributes of a `StreamingDatasetSplitter`. -/
structure SplitterAttributes where
  datasetName : String
  epoch : Int
  datasetSize : Int
  shardSize : Nat
  numEpochs : Int
  partitionOffset : OffsetsAttribute
  shuffle : Bool
  maxShardCount : Option Nat
  fetchDataSize : Nat
  shards : List PartitionShard
  deriving DecidableEq

namespace SplitterAttributes

/-- `StreamingDatasetSplitter.__init__`. -/
def new (datasetName : String) (shardSize : Nat) (partitionOffset : PartitionOffsets)
    (numEpochs datasetSize : Int) (shuffle : Bool) (maxShardCount : Option Nat)
    (fetchDataSize : Nat) : SplitterAttributes :=
  ⟨datasetName, 0, datasetSize, shardSize, numEpochs, .object partitionOffset, shuffle,
    maxShardCount, fetchDataSize, []⟩

def epochFinished (s : SplitterAttributes) : Bool := s.datasetSize = 0

/-- The splitter with a `PartitionOffsets` in its attribute. -/
def withOffsets (s : SplitterAttributes) (offsets : PartitionOffsets) :
    StreamingDatasetSplitter :=
  ⟨s.shardSize, offsets, s.datasetSize, s.fetchDataSize, s.shards⟩

/-- `create_shards`. A map has none of the methods that the loop and the log call. -/
def createShards (s : SplitterAttributes) : Except StreamError SplitterAttributes :=
  match s.partitionOffset with
  | .object offsets =>
    (s.withOffsets offsets).createShards.map fun sp ↦
      { s with
        partitionOffset := .object sp.partitionOffset
        datasetSize := sp.datasetSize
        shards := sp.shards }
  | .plain _ => .error (if s.shardSize = 0 then .zeroDivision else .attributeError)

/-- `to_checkpoint`; the attributes returned are those the splitter has from now on. -/
def toCheckpoint (s : SplitterAttributes) : Except StreamError SplitterAttributes :=
  match s.partitionOffset with
  | .object offsets => .ok { s with partitionOffset := .plain offsets.partitionOffsets }
  | .plain _ => .error .attributeError

/-- `from_checkpoint`; `PartitionOffsets` asks its argument for its keys. -/
def fromCheckpoint (s : SplitterAttributes) : Except StreamError SplitterAttributes :=
  match s.partitionOffset with
  | .object _ => .error .attributeError
  | .plain offsets =>
    .ok (.new s.datasetName s.shardSize (.new offsets) s.numEpochs s.datasetSize s.shuffle
      s.maxShardCount s.fetchDataSize)

end SplitterAttributes

/-- The number of a task; a restored task has the name of the dataset for it. -/
inductive TaskKey where
  | int (n : Int)
  | str (s : String)
  deriving DecidableEq

structure KeyedTask where
  taskId : TaskKey
  taskType : TaskType
  shard : PartitionShard
  retryCount : Nat
  deriving DecidableEq

/-- The task of `_create_todo_tasks`. -/
def StreamTask.keyed (task : StreamTask) : KeyedTask :=
  ⟨.int task.taskId, task.taskType, task.shard, task.retryCount⟩

structure KeyedDoingTask where
  task : KeyedTask
  nodeType : String
  nodeId : Int
  startTime : Int

/-- `base_dataset_manager.py:60-82`; `splitter` are the attributes of a splitter. -/
structure StreamShardCheckpoint where
  datasetName : String
  todo : List (Int × Int)
  doing : List (Int × Int)
  epoch : Int
  splitter : SplitterAttributes
  deriving DecidableEq

/-- The string that `json.dumps` writes for a key. -/
def jsonKey : PartitionName → String
  | .int n => toString n
  | .str s => s

/-- The map that JSON gives back for a map; of equal keys the last wins. -/
def jsonOffsets (offsets : Dict PartitionName Int) : Dict PartitionName Int :=
  .ofItems (offsets.items.map fun e ↦ (.str (jsonKey e.1), e.2))

/-- `from_json` after `to_json`. Numbers, strings, truth values, `None` and lists of them come back;
an object of a class raises. -/
def StreamShardCheckpoint.throughJson (c : StreamShardCheckpoint) :
    Except StreamError StreamShardCheckpoint :=
  match c.splitter.partitionOffset with
  | .object _ => .error .typeError
  | .plain offsets =>
    if c.splitter.shards = [] then
      .ok { c with splitter := { c.splitter with partitionOffset := .plain (jsonOffsets offsets) } }
    else .error .typeError

/-- A `StreamingDatasetManager` whose splitter may have been checkpointed and whose tasks may have
been restored. -/
structure CheckpointedStream where
  taskType : TaskType
  batchSize : Nat
  datasetSplitter : SplitterAttributes
  todo : List KeyedTask
  doing : Dict TaskKey KeyedDoingTask
  taskId : Nat
  completedStep : Nat
  maxTaskCompletedTime : ℚ

namespace CheckpointedStream

/-- `StreamingDatasetManager.__init__`. -/
def new (taskType : TaskType) (batchSize : Nat) (datasetSplitter : SplitterAttributes) :
    CheckpointedStream :=
  ⟨taskType, batchSize, datasetSplitter, [], .empty, 0, 0, 0⟩

/-- `streaming_dataset_manager.py:58-65`. -/
def refill (s : CheckpointedStream) : Except StreamError CheckpointedStream :=
  if s.todo = [] ∧ s.datasetSplitter.epochFinished = false then
    s.datasetSplitter.createShards.map fun datasetSplitter ↦
      { s with
        datasetSplitter := datasetSplitter
        todo := (numberStreamTasks s.taskType s.taskId datasetSplitter.shards).map
          StreamTask.keyed
        taskId := s.taskId + datasetSplitter.shards.length }
  else .ok s

/-- `get_task_from_todo`. A map has no attribute `partition_num`, and the loop divides by it. -/
def getTaskFromTodo (s : CheckpointedStream) (workerId : Int) :
    Except StreamError (Option KeyedTask) × CheckpointedStream :=
  match s.datasetSplitter.partitionOffset with
  | .plain _ => (.error .attributeError, s)
  | .object offsets =>
    if s.todo ≠ [] ∧ offsets.partitionNum = 0 then (.error .zeroDivision, s)
    else
      let fits := fun task : KeyedTask ↦ decide (offsets.Routes task.shard.name workerId)
      (.ok (s.todo.find? fits), { s with todo := s.todo.eraseP fits })

/-- `Task.create_invalid_task`. -/
def invalidTask : KeyedTask := StreamingDatasetManager.invalidTask.keyed

/-- `streaming_dataset_manager.py:55-79`. -/
def getTask (s : CheckpointedStream) (nodeType : String) (nodeId : Int) (now : ℚ) :
    Except StreamError KeyedTask × CheckpointedStream :=
  match s.refill with
  | .error e => (.error e, s)
  | .ok s =>
    if s.todo = [] then (.ok invalidTask, s)
    else
      match s.getTaskFromTodo nodeId with
      | (.error e, s) => (.error e, s)
      | (.ok none, s) => (.error .attributeError, s)
      | (.ok (some task), s) =>
        (.ok task, { s with doing := s.doing.insert task.taskId ⟨task, nodeType, nodeId, ⌊now⌋⟩ })

/-- `recover_task`. -/
def recoverTask (s : CheckpointedStream) (task : KeyedTask) : CheckpointedStream :=
  let task := { task with retryCount := task.retryCount + 1 }
  if maxTaskRetries < task.retryCount then s else { s with todo := s.todo ++ [task] }

/-- `_update_completed_step`. -/
def updateCompletedStep (s : CheckpointedStream) (task : KeyedTask) :
    Except StreamError CheckpointedStream :=
  if s.batchSize = 0 then .error .zeroDivision
  else
    let recordCount := (task.shard.stop - task.shard.start).toNat
    .ok { s with completedStep := s.completedStep + ceilQuotient recordCount s.batchSize }

/-- `streaming_dataset_manager.py:105-130`. -/
def reportTaskStatus (s : CheckpointedStream) (taskId : TaskKey) (success : Bool) (now : ℚ) :
    Except StreamError Bool × CheckpointedStream :=
  match s.doing.get? taskId with
  | none => (.error .keyError, s)
  | some doingTask =>
    let s := { s with doing := s.doing.erase taskId }
    if success then
      match s.updateCompletedStep doingTask.task with
      | .error e => (.error e, s)
      | .ok s =>
        let taskCompletedTime := now - doingTask.startTime
        (.ok true, { s with
          maxTaskCompletedTime := max s.maxTaskCompletedTime taskCompletedTime })
    else (.ok false, s.recoverTask doingTask.task)

def extent (task : KeyedTask) : Int × Int := (task.shard.start, task.shard.stop)

/-- `streaming_dataset_manager.py:167-183`; the checkpoint and the manager share the splitter's
attributes. -/
def checkpoint (s : CheckpointedStream) :
    Except StreamError StreamShardCheckpoint × CheckpointedStream :=
  match s.datasetSplitter.toCheckpoint with
  | .error e => (.error e, s)
  | .ok splitter =>
    (.ok {
      datasetName := splitter.datasetName
      todo := s.todo.map extent
      doing := s.doing.values.map fun doingTask ↦ extent doingTask.task
      epoch := splitter.epoch
      splitter := splitter }, { s with datasetSplitter := splitter })

/-- `streaming_dataset_manager.py:198-204`. -/
def restoredTask (taskType : TaskType) (datasetName : String) (indices : Int × Int) : KeyedTask :=
  ⟨.str datasetName, taskType, ⟨.str datasetName, indices.1, indices.2⟩, 0⟩

/-- `streaming_dataset_manager.py:185-204`; `doing` and the counter stay as they are. -/
def restoreCheckpoint (s : CheckpointedStream) (c : StreamShardCheckpoint) :
    Except StreamError CheckpointedStream :=
  c.splitter.fromCheckpoint.map fun datasetSplitter ↦
    { s with
      datasetSplitter := datasetSplitter
      todo := (c.doing ++ c.todo).map (restoredTask s.taskType datasetSplitter.datasetName) }

/-- A checkpoint of `s`, written and read as JSON and restored into `m`. -/
def roundTrip (s m : CheckpointedStream) : Except StreamError CheckpointedStream :=
  s.checkpoint.1.bind fun c ↦ c.throughJson.bind m.restoreCheckpoint

/-- The tasks that are being processed or waiting. -/
def outstanding (s : CheckpointedStream) : List KeyedTask :=
  s.doing.values.map KeyedDoingTask.task ++ s.todo

end CheckpointedStream

/-- The offsets of the partitions, whichever object holds them. -/
def OffsetsAttribute.offsets : OffsetsAttribute → Dict PartitionName Int
  | object offsets => offsets.partitionOffsets
  | plain offsets => offsets

namespace CheckpointedStream

/-- `t` takes up what was left in `s`. -/
structure Resumes (s t : CheckpointedStream) : Prop where
  shards : (t.todo.map KeyedTask.shard).Perm (s.outstanding.map KeyedTask.shard)
  ids : (t.todo.map KeyedTask.taskId).Nodup
  offsets : ∀ p, t.datasetSplitter.partitionOffset.offsets.get? p =
    s.datasetSplitter.partitionOffset.offsets.get? p
  size : t.datasetSplitter.datasetSize = s.datasetSplitter.datasetSize
  doing : t.doing.items = []

/-- The checkpoint of `s` loses nothing on its way into `m`. -/
def Lossless (s m : CheckpointedStream) : Prop := ∃ t, s.roundTrip m = .ok t ∧ Resumes s t

/-- Taking the checkpoint changes nothing, and the checkpoint loses nothing. -/
def Snapshot (s m : CheckpointedStream) : Prop := s.checkpoint.2 = s ∧ s.Lossless m

/-- The states whose checkpoint loses nothing: it can be written, no key changes on the way, and
there is at most one task, which already has the name of the dataset. -/
structure Survives (s m : CheckpointedStream) : Prop where
  object : ∃ offsets, s.datasetSplitter.partitionOffset = .object offsets
  keys : ∀ p ∈ s.datasetSplitter.partitionOffset.offsets, ∃ name, p = .str name
  shards : s.datasetSplitter.shards = []
  names : ∀ task ∈ s.outstanding, task.shard.name = .str s.datasetSplitter.datasetName
  single : s.outstanding.length ≤ 1
  doing : m.doing.items = []

end CheckpointedStream

/-! ### Without checkpoints -/

namespace StreamingDatasetSplitter

/-- What cutting shards leaves as it is. -/
def kept (s : StreamingDatasetSplitter) : Nat × Nat × List PartitionName :=
  (s.shardSize, s.fetchDataSize, s.partitionOffset.partitions)

theorem cutShard_kept {s t : StreamingDatasetSplitter} (h : s.cutShard = .ok t) :
    t.kept = s.kept := by
  rw [cutShard] at h
  split at h
  · contradiction
  · split at h
    · contradiction
    · cases h
      rfl

theorem cutShards_kept {n : Nat} {s t : StreamingDatasetSplitter} (h : cutShards n s = .ok t) :
    t.kept = s.kept := by
  induction n generalizing s with
  | zero =>
    cases h
    rfl
  | succ n ih =>
    rw [cutShards] at h
    cases first : s.cutShard with
    | error e =>
      rw [first] at h
      contradiction
    | ok u =>
      rw [first] at h
      exact (ih h).trans (cutShard_kept first)

theorem createShards_kept {s t : StreamingDatasetSplitter} (h : s.createShards = .ok t) :
    t.kept = s.kept := by
  rw [createShards] at h
  split at h
  · contradiction
  · exact cutShards_kept h

end StreamingDatasetSplitter

namespace StreamingDatasetManager

theorem refill_kept {m n : StreamingDatasetManager} (refilled : m.refill = .ok n) :
    n.datasetSplitter.kept = m.datasetSplitter.kept := by
  rw [refill] at refilled
  split at refilled
  · cases cut : m.datasetSplitter.createShards with
    | error e =>
      rw [cut] at refilled
      contradiction
    | ok sp =>
      rw [cut] at refilled
      cases refilled
      exact StreamingDatasetSplitter.createShards_kept cut
  · cases refilled
    rfl

theorem getTask_kept (m : StreamingDatasetManager) (nodeType : String) (nodeId : Int) (now : ℚ) :
    (m.getTask nodeType nodeId now).2.datasetSplitter.kept = m.datasetSplitter.kept := by
  cases refilled : m.refill with
  | error e => simp only [getTask, refilled]
  | ok n => rw [StreamLedger.getTask_splitter refilled, refill_kept refilled]

end StreamingDatasetManager

def StreamDoingTask.keyed (doingTask : StreamDoingTask) : KeyedDoingTask :=
  ⟨doingTask.task.keyed, doingTask.nodeType, doingTask.nodeId, doingTask.startTime⟩

namespace CheckpointedStream

/-- `s` is the manager `m`, of which no checkpoint was taken. -/
structure Simulates (m : StreamingDatasetManager) (s : CheckpointedStream) : Prop where
  taskType : s.taskType = m.taskType
  batchSize : s.batchSize = m.batchSize
  splitter : ∃ offsets, s.datasetSplitter.partitionOffset = .object offsets ∧
    s.datasetSplitter.withOffsets offsets = m.datasetSplitter
  todo : s.todo = m.todo.map StreamTask.keyed
  doing : ∀ k, s.doing.get? (.int k) = (m.doing.get? k).map StreamDoingTask.keyed
  taskId : s.taskId = m.taskId
  completedStep : s.completedStep = m.completedStep
  maxTaskCompletedTime : s.maxTaskCompletedTime = m.maxTaskCompletedTime

variable {m : StreamingDatasetManager} {s : CheckpointedStream}

theorem simulates_new (taskType : TaskType) (batchSize : Nat) (name : String) (size : Nat)
    (offsets : Dict PartitionName Int) (numEpochs total : Int) (shuffle : Bool)
    (maxCount : Option Nat) (fetch : Nat) :
    Simulates (.new taskType batchSize size offsets total fetch)
      (.new taskType batchSize
        (.new name size (.new offsets) numEpochs total shuffle maxCount fetch)) :=
  ⟨rfl, rfl, ⟨_, rfl, rfl⟩, rfl, fun _ ↦ rfl, rfl, rfl, rfl⟩

theorem Simulates.refill (h : Simulates m s) :
    (∃ e, m.refill = .error e ∧ s.refill = .error e) ∨
      ∃ n t, m.refill = .ok n ∧ s.refill = .ok t ∧ Simulates n t := by
  rcases h.splitter with ⟨offsets, held, same⟩
  have due : (s.todo = [] ∧ s.datasetSplitter.epochFinished = false) ↔ m.RefillDue := by
    rw [StreamingDatasetManager.RefillDue, h.todo, List.map_eq_nil_iff, ← same]
    rfl
  by_cases wanted : m.RefillDue
  · simp only [StreamingDatasetManager.refill, CheckpointedStream.refill, if_pos wanted,
      if_pos (due.mpr wanted), SplitterAttributes.createShards, held, same]
    cases cut : m.datasetSplitter.createShards with
    | error e => exact .inl ⟨e, rfl, rfl⟩
    | ok sp =>
      have kept := StreamingDatasetSplitter.createShards_kept cut
      rw [← same, StreamingDatasetSplitter.kept, StreamingDatasetSplitter.kept] at kept
      simp only [SplitterAttributes.withOffsets, Prod.mk.injEq] at kept
      refine .inr ⟨_, _, rfl, rfl, h.taskType, h.batchSize, ⟨sp.partitionOffset, rfl, ?_⟩, ?_,
        h.doing, ?_, h.completedStep, h.maxTaskCompletedTime⟩
      · rw [SplitterAttributes.withOffsets, ← kept.1, ← kept.2.1]
      · rw [h.taskType, h.taskId]
      · rw [h.taskId]
  · have stays := mt due.mp wanted
    exact .inr ⟨m, s, if_neg wanted, if_neg stays, h⟩

/-- A request gets the same answer of both, if the stream has a partition. -/
theorem Simulates.getTask (h : Simulates m s)
    (partitioned : m.datasetSplitter.partitionOffset.partitions ≠ []) (nodeType : String)
    (nodeId : Int) (now : ℚ) :
    Simulates (m.getTask nodeType nodeId now).2 (s.getTask nodeType nodeId now).2 ∧
      (s.getTask nodeType nodeId now).1 =
        (m.getTask nodeType nodeId now).1.map StreamTask.keyed := by
  simp only [CheckpointedStream.getTask, StreamingDatasetManager.getTask]
  rcases h.refill with ⟨e, refused, raised⟩ | ⟨n, t, filled, refilled, after⟩
  · rw [refused, raised]
    exact ⟨h, rfl⟩
  · simp only [filled, refilled]
    by_cases empty : n.todo = []
    · have none : t.todo = [] := by rw [after.todo, empty, List.map_nil]
      simp only [if_pos empty, if_pos none]
      exact ⟨after, rfl⟩
    · have some : t.todo ≠ [] := by
        rw [after.todo]
        exact mt List.map_eq_nil_iff.mp empty
      rcases after.splitter with ⟨offsets, held, same⟩
      have own : n.datasetSplitter.partitionOffset = offsets := by
        rw [← same]
        rfl
      have many : ¬(t.todo ≠ [] ∧ offsets.partitionNum = 0) := by
        rintro ⟨-, none⟩
        apply partitioned
        have partitions : n.datasetSplitter.partitionOffset.partitions =
            m.datasetSplitter.partitionOffset.partitions :=
          congrArg (fun kept ↦ kept.2.2) (StreamingDatasetManager.refill_kept filled)
        rw [← partitions, own]
        exact List.length_eq_zero_iff.mp none
      have fits : (fun task : KeyedTask ↦ decide (offsets.Routes task.shard.name nodeId)) ∘
          StreamTask.keyed = n.fits nodeId := by
        rw [← own]
        rfl
      simp only [if_neg empty, if_neg some, CheckpointedStream.getTaskFromTodo, held, if_neg many,
        StreamingDatasetManager.getTaskFromTodo]
      rw [after.todo, List.find?_map, List.eraseP_map, fits]
      have rest : Simulates { n with todo := n.todo.eraseP (n.fits nodeId) }
          { t with todo := (n.todo.eraseP (n.fits nodeId)).map StreamTask.keyed } :=
        ⟨after.taskType, after.batchSize, after.splitter, rfl, after.doing, after.taskId,
          after.completedStep, after.maxTaskCompletedTime⟩
      cases n.todo.find? (n.fits nodeId) with
      | none => exact ⟨rest, rfl⟩
      | some task =>
        have handed : ∀ k, (t.doing.insert (.int task.taskId)
            ⟨task.keyed, nodeType, nodeId, ⌊now⌋⟩).get? (.int k) =
            ((n.doing.insert task.taskId ⟨task, nodeType, nodeId, ⌊now⌋⟩).get? k).map
              StreamDoingTask.keyed := by
          intro k
          simp only [Dict.get?_insert, TaskKey.int.injEq, after.doing]
          split <;> rfl
        exact ⟨⟨rest.taskType, rest.batchSize, rest.splitter, rest.todo, handed, rest.taskId,
          rest.completedStep, rest.maxTaskCompletedTime⟩, rfl⟩

theorem Simulates.recoverTask (h : Simulates m s) (task : StreamTask) :
    Simulates (m.recoverTask task) (s.recoverTask task.keyed) := by
  by_cases often : maxTaskRetries < task.retryCount + 1
  · have own : m.recoverTask task = m := if_pos often
    have other : s.recoverTask task.keyed = s := if_pos often
    rw [own, other]
    exact h
  · have own : m.recoverTask task =
        { m with todo := m.todo ++ [{ task with retryCount := task.retryCount + 1 }] } :=
      if_neg often
    have other : s.recoverTask task.keyed =
        { s with todo := s.todo ++ [{ task.keyed with retryCount := task.retryCount + 1 }] } :=
      if_neg often
    rw [own, other]
    refine ⟨h.taskType, h.batchSize, h.splitter, ?_, h.doing, h.taskId, h.completedStep,
      h.maxTaskCompletedTime⟩
    rw [h.todo, List.map_append]
    rfl

theorem Simulates.updateCompletedStep (h : Simulates m s) (task : StreamTask) :
    (∃ e, m.updateCompletedStep task = .error e ∧ s.updateCompletedStep task.keyed = .error e) ∨
      ∃ n t, m.updateCompletedStep task = .ok n ∧ s.updateCompletedStep task.keyed = .ok t ∧
        Simulates n t := by
  simp only [StreamingDatasetManager.updateCompletedStep, CheckpointedStream.updateCompletedStep]
  by_cases none : m.batchSize = 0
  · exact .inl ⟨_, if_pos none, if_pos (h.batchSize.trans none)⟩
  · refine .inr ⟨_, _, if_neg none, if_neg fun zero ↦ none (h.batchSize.symm.trans zero),
      h.taskType, h.batchSize, h.splitter, h.todo, h.doing, h.taskId, ?_, h.maxTaskCompletedTime⟩
    simp only [h.completedStep, h.batchSize, StreamTask.keyed]

/-- A report has the same effect on both. -/
theorem Simulates.reportTaskStatus (h : Simulates m s) (taskId : Int) (success : Bool) (now : ℚ) :
    Simulates (m.reportTaskStatus taskId success now).2
        (s.reportTaskStatus (.int taskId) success now).2 ∧
      (s.reportTaskStatus (.int taskId) success now).1 =
        (m.reportTaskStatus taskId success now).1 := by
  simp only [CheckpointedStream.reportTaskStatus, StreamingDatasetManager.reportTaskStatus,
    h.doing]
  cases m.doing.get? taskId with
  | none => exact ⟨h, rfl⟩
  | some doingTask =>
    have erased : ∀ k, (s.doing.erase (.int taskId)).get? (.int k) =
        ((m.doing.erase taskId).get? k).map StreamDoingTask.keyed := by
      intro k
      simp only [Dict.erase, Dict.get?_filter, h.doing, ne_eq, TaskKey.int.injEq]
      split <;> rfl
    have rest : Simulates { m with doing := m.doing.erase taskId }
        { s with doing := s.doing.erase (.int taskId) } :=
      ⟨h.taskType, h.batchSize, h.splitter, h.todo, erased, h.taskId, h.completedStep,
        h.maxTaskCompletedTime⟩
    cases success with
    | false => exact ⟨rest.recoverTask doingTask.task, rfl⟩
    | true =>
      simp only [Option.map_some, if_true, StreamDoingTask.keyed]
      rcases rest.updateCompletedStep doingTask.task with
        ⟨e, refused, raised⟩ | ⟨n, t, counted, counts, after⟩
      · rw [refused, raised]
        exact ⟨rest, rfl⟩
      · rw [counted, counts]
        have longest : max t.maxTaskCompletedTime (now - doingTask.startTime) =
            max n.maxTaskCompletedTime (now - doingTask.startTime) := by
          rw [after.maxTaskCompletedTime]
        exact ⟨⟨after.taskType, after.batchSize, after.splitter, after.todo, after.doing,
          after.taskId, after.completedStep, longest⟩, rfl⟩

end CheckpointedStream

/-! ### The way through JSON -/

theorem mem_jsonOffsets {offsets : Dict PartitionName Int} {p : PartitionName}
    (h : p ∈ jsonOffsets offsets) : ∃ name, p = .str name := by
  rw [jsonOffsets, Dict.mem_ofItems, List.map_map] at h
  rcases List.mem_map.mp h with ⟨e, -, rfl⟩
  exact ⟨jsonKey e.1, rfl⟩

/-- Only string keys come back as they were. -/
theorem jsonOffsets_get?_iff {offsets : Dict PartitionName Int} :
    (∀ p, (jsonOffsets offsets).get? p = offsets.get? p) ↔
      ∀ p ∈ offsets, ∃ name, p = .str name := by
  constructor
  · intro same p hp
    suffices mem : p ∈ jsonOffsets offsets from mem_jsonOffsets mem
    by_contra lost
    have none := Dict.get?_eq_none_iff.mpr lost
    rw [same] at none
    exact Dict.get?_eq_none_iff.mp none hp
  · intro strings p
    have back : (offsets.items.map fun e ↦ (PartitionName.str (jsonKey e.1), e.2)) =
        offsets.items := by
      conv_rhs => rw [← List.map_id offsets.items]
      apply List.map_congr_left
      intro e he
      rcases strings e.1 (Dict.mem_of_mem_items he) with ⟨name, key⟩
      rw [key, jsonKey, ← key]
      rfl
    have same : jsonOffsets offsets = offsets := by
      apply Dict.ext
      rw [jsonOffsets, back]
      exact Dict.items_ofItems offsets.nodup
    rw [same]

namespace CheckpointedStream

/-- What a round trip gives. -/
theorem roundTrip_object {s : CheckpointedStream} {offsets : PartitionOffsets}
    (object : s.datasetSplitter.partitionOffset = .object offsets) (m : CheckpointedStream) :
    s.roundTrip m = if s.datasetSplitter.shards = [] then
      .ok { m with
        datasetSplitter := .new s.datasetSplitter.datasetName s.datasetSplitter.shardSize
          (.new (jsonOffsets offsets.partitionOffsets)) s.datasetSplitter.numEpochs
          s.datasetSplitter.datasetSize s.datasetSplitter.shuffle s.datasetSplitter.maxShardCount
          s.datasetSplitter.fetchDataSize
        todo := s.outstanding.map fun task ↦
          restoredTask m.taskType s.datasetSplitter.datasetName (extent task) }
      else .error .typeError := by
  have taken : s.datasetSplitter.toCheckpoint = .ok { s.datasetSplitter with
      partitionOffset := .plain offsets.partitionOffsets } := by
    simp only [SplitterAttributes.toCheckpoint, object]
  simp only [roundTrip, checkpoint, taken, Except.bind, StreamShardCheckpoint.throughJson]
  by_cases empty : s.datasetSplitter.shards = []
  · simp only [if_pos empty, restoreCheckpoint, SplitterAttributes.fromCheckpoint, Except.map,
      SplitterAttributes.new, outstanding, List.map_append, List.map_map, Function.comp_def]
  · simp only [if_neg empty]

theorem roundTrip_plain {s : CheckpointedStream} {offsets : Dict PartitionName Int}
    (plain : s.datasetSplitter.partitionOffset = .plain offsets) (m : CheckpointedStream) :
    s.roundTrip m = .error .attributeError := by
  have raised : s.datasetSplitter.toCheckpoint = .error .attributeError := by
    simp only [SplitterAttributes.toCheckpoint, plain]
  simp only [roundTrip, checkpoint, raised]
  rfl

/-- Restored tasks are numbered alike. -/
theorem restored_ids (taskType : TaskType) (name : String) (tasks : List KeyedTask) :
    (tasks.map fun task ↦ restoredTask taskType name (extent task)).map KeyedTask.taskId =
      List.replicate tasks.length (.str name) := by
  rw [List.map_map]
  exact List.map_const' ..

theorem lossless_iff {s m : CheckpointedStream} : s.Lossless m ↔ s.Survives m := by
  constructor
  · rintro ⟨t, trip, resumes⟩
    cases held : s.datasetSplitter.partitionOffset with
    | plain offsets =>
      rw [roundTrip_plain held] at trip
      contradiction
    | object offsets =>
      rw [roundTrip_object held] at trip
      by_cases empty : s.datasetSplitter.shards = []
      · rw [if_pos empty] at trip
        cases trip
        refine ⟨⟨offsets, held⟩, ?_, empty, ?_, ?_, resumes.doing⟩
        · have same := resumes.offsets
          rw [held] at same ⊢
          exact jsonOffsets_get?_iff.mp same
        · intro task mem
          have covered := resumes.shards.mem_iff.mpr (List.mem_map_of_mem mem)
          rw [List.map_map] at covered
          rcases List.mem_map.mp covered with ⟨other, -, same⟩
          rw [← same]
          rfl
        · have ids := resumes.ids
          rw [restored_ids] at ids
          exact List.nodup_replicate.mp ids
      · rw [if_neg empty] at trip
        contradiction
  · intro h
    rcases h.object with ⟨offsets, held⟩
    have keys := h.keys
    rw [held] at keys
    refine ⟨_, (roundTrip_object held m).trans (if_pos h.shards), ?_, ?_, ?_, rfl, h.doing⟩
    · have same : (s.outstanding.map fun task ↦
          restoredTask m.taskType s.datasetSplitter.datasetName (extent task)).map
          KeyedTask.shard = s.outstanding.map KeyedTask.shard := by
        rw [List.map_map]
        apply List.map_congr_left
        intro task mem
        rw [Function.comp_apply, restoredTask, ← h.names task mem]
        rfl
      rw [same]
    · rw [restored_ids]
      exact List.nodup_replicate.mpr h.single
    · rw [held]
      exact jsonOffsets_get?_iff.mpr keys

/-- A checkpoint is never a snapshot: it replaces the offsets of the splitter, or raises. -/
theorem not_snapshot (s m : CheckpointedStream) : ¬s.Snapshot m := by
  rintro ⟨unchanged, t, trip, -⟩
  cases held : s.datasetSplitter.partitionOffset with
  | plain offsets =>
    rw [roundTrip_plain held] at trip
    contradiction
  | object offsets =>
    have now := congrArg (fun s ↦ s.datasetSplitter.partitionOffset) unchanged
    simp only [checkpoint, SplitterAttributes.toCheckpoint, held] at now
    contradiction

end CheckpointedStream

/-! ### Runs with checkpoints -/

/-- `saved` holds the checkpoints that could be written, as they are read. -/
structure StreamSystem where
  manager : CheckpointedStream
  saved : List StreamShardCheckpoint

inductive StreamSystemAct where
  | getTask (nodeType : String) (nodeId : Int) (now : ℚ)
  | reportTaskStatus (taskId : TaskKey) (success : Bool) (now : ℚ)
  | checkpoint
  | restore (index : Nat) (fresh : Bool)

namespace StreamSystem

def init (blank : CheckpointedStream) : StreamSystem := ⟨blank, []⟩

/-- What JSON makes of the checkpoint of a manager. -/
def written (m : CheckpointedStream) : Except StreamError StreamShardCheckpoint :=
  m.checkpoint.1.bind StreamShardCheckpoint.throughJson

/-- A checkpoint is restored into the manager, or into the blank one of a new master. -/
def step (blank : CheckpointedStream) (s : StreamSystem) : StreamSystemAct → Option StreamSystem
  | .getTask nodeType nodeId now =>
    some { s with manager := (s.manager.getTask nodeType nodeId now).2 }
  | .reportTaskStatus taskId success now =>
    some { s with manager := (s.manager.reportTaskStatus taskId success now).2 }
  | .checkpoint =>
    some ⟨s.manager.checkpoint.2, s.saved ++ (written s.manager).toOption.toList⟩
  | .restore index fresh => do
    let c ← s.saved[index]?
    let manager ← ((if fresh then blank else s.manager).restoreCheckpoint c).toOption
    some { s with manager := manager }

end StreamSystem

/-- No task finds its worker: the offsets are a plain map, or the partitions have strings for
names. -/
def OffsetsAttribute.Unroutable (held : OffsetsAttribute) : Prop :=
  ∀ offsets, held = .object offsets → ∀ p ∈ offsets.partitions, ∃ name, p = .str name

namespace PartitionOffsets

/-- A worker is found by the number that the name of a partition leads to. -/
theorem not_routes {s : PartitionOffsets} (strings : ∀ p ∈ s.partitions, ∃ name, p = .str name)
    (name : PartitionName) (workerId : Int) : ¬s.Routes name workerId := by
  intro routes
  cases name with
  | str name => cases routes
  | int n =>
    rw [Routes, getPartitionIndexByName] at routes
    by_cases negative : n < 0
    · rw [if_pos negative] at routes
      contradiction
    · rw [if_neg negative] at routes
      rcases strings _ (List.mem_of_getElem? routes) with ⟨name, same⟩
      contradiction

end PartitionOffsets

namespace CheckpointedStream

theorem createShards_unroutable {s t : SplitterAttributes} (h : s.partitionOffset.Unroutable)
    (cut : s.createShards = .ok t) : t.partitionOffset.Unroutable := by
  rw [SplitterAttributes.createShards] at cut
  cases held : s.partitionOffset with
  | plain offsets =>
    rw [held] at cut
    contradiction
  | object offsets =>
    simp only [held] at cut
    cases shards : (s.withOffsets offsets).createShards with
    | error e =>
      rw [shards] at cut
      contradiction
    | ok sp =>
      rw [shards] at cut
      cases cut
      intro offsets' same
      cases same
      have partitions : sp.partitionOffset.partitions = offsets.partitions :=
        congrArg (fun kept ↦ kept.2.2) (StreamingDatasetSplitter.createShards_kept shards)
      rw [partitions]
      exact h offsets held

theorem refill_unroutable {s t : CheckpointedStream}
    (h : s.datasetSplitter.partitionOffset.Unroutable) (refilled : s.refill = .ok t) :
    t.datasetSplitter.partitionOffset.Unroutable := by
  rw [refill] at refilled
  split at refilled
  · cases cut : s.datasetSplitter.createShards with
    | error e =>
      rw [cut] at refilled
      contradiction
    | ok splitter =>
      rw [cut] at refilled
      cases refilled
      exact createShards_unroutable h cut
  · cases refilled
    exact h

/-- Looking for a task leaves the splitter as it is, and finds none without a route. -/
theorem getTaskFromTodo_unroutable {s : CheckpointedStream}
    (h : s.datasetSplitter.partitionOffset.Unroutable) (workerId : Int) :
    (s.getTaskFromTodo workerId).2.datasetSplitter = s.datasetSplitter ∧
      ∀ task, (s.getTaskFromTodo workerId).1 ≠ .ok (some task) := by
  rw [getTaskFromTodo]
  cases held : s.datasetSplitter.partitionOffset with
  | plain offsets => exact ⟨rfl, fun task found ↦ by cases found⟩
  | object offsets =>
    by_cases empty : s.todo ≠ [] ∧ offsets.partitionNum = 0
    · simp only [if_pos empty]
      exact ⟨trivial, fun task found ↦ by cases found⟩
    · simp only [if_neg empty]
      refine ⟨trivial, ?_⟩
      intro task found
      have fits := List.find?_some (Except.ok.inj found)
      exact PartitionOffsets.not_routes (h offsets held) _ _ (of_decide_eq_true fits)

/-- A request that no task can be routed to gets none, and changes nothing about that. -/
theorem getTask_unroutable {s : CheckpointedStream}
    (h : s.datasetSplitter.partitionOffset.Unroutable) (nodeType : String) (nodeId : Int)
    (now : ℚ) :
    (s.getTask nodeType nodeId now).2.datasetSplitter.partitionOffset.Unroutable ∧
      ∀ task, (s.getTask nodeType nodeId now).1 = .ok task → task = invalidTask := by
  rw [getTask]
  cases refilled : s.refill with
  | error e => exact ⟨h, fun task got ↦ by cases got⟩
  | ok t =>
    have after := refill_unroutable h refilled
    by_cases empty : t.todo = []
    · simp only [if_pos empty]
      exact ⟨after, fun task got ↦ (Except.ok.inj got).symm⟩
    · simp only [if_neg empty]
      rcases getTaskFromTodo_unroutable after nodeId with ⟨splitter, nothing⟩
      rcases found : t.getTaskFromTodo nodeId with ⟨e | _ | task, u⟩
      · rw [found] at splitter
        simp only at splitter ⊢
        exact ⟨splitter ▸ after, fun task got ↦ by cases got⟩
      · rw [found] at splitter
        simp only at splitter ⊢
        exact ⟨splitter ▸ after, fun task got ↦ by cases got⟩
      · rw [found] at nothing
        exact absurd rfl (nothing task)

theorem reportTaskStatus_splitter (s : CheckpointedStream) (taskId : TaskKey) (success : Bool)
    (now : ℚ) : (s.reportTaskStatus taskId success now).2.datasetSplitter = s.datasetSplitter := by
  unfold reportTaskStatus
  split
  · rfl
  · cases success with
    | true =>
      simp only [if_true, updateCompletedStep]
      by_cases batch : s.batchSize = 0
      · simp only [if_pos batch]
      · simp only [if_neg batch]
    | false =>
      simp only [Bool.false_eq_true, if_false, recoverTask]
      split <;> rfl

/-- The splitter that a checkpoint was taken of holds a map. -/
theorem checkpoint_unroutable (s : CheckpointedStream) :
    s.checkpoint.2.datasetSplitter.partitionOffset.Unroutable := by
  intro offsets held
  simp only [checkpoint] at held
  cases before : s.datasetSplitter.partitionOffset with
  | object offsets' =>
    simp only [SplitterAttributes.toCheckpoint, before] at held
    cases held
  | plain map =>
    simp only [SplitterAttributes.toCheckpoint, before] at held
    cases held

end CheckpointedStream

namespace StreamSystem

/-- The offsets in the checkpoints that were read have strings for keys. -/
def Read (saved : List StreamShardCheckpoint) : Prop :=
  ∀ c ∈ saved, ∃ offsets, c.splitter.partitionOffset = .plain offsets ∧
    ∀ p ∈ offsets, ∃ name, p = .str name

variable {blank : CheckpointedStream} {s t : StreamSystem} {a : StreamSystemAct}

theorem throughJson_plain {c d : StreamShardCheckpoint} (h : c.throughJson = .ok d) :
    ∃ offsets, d.splitter.partitionOffset = .plain (jsonOffsets offsets) := by
  rw [StreamShardCheckpoint.throughJson] at h
  split at h
  · contradiction
  · next offsets _ =>
    split at h
    · cases h
      exact ⟨offsets, rfl⟩
    · contradiction

theorem step_read (h : Read s.saved) (taken : step blank s a = some t) : Read t.saved := by
  cases a with
  | getTask nodeType nodeId now =>
    cases taken
    exact h
  | reportTaskStatus taskId success now =>
    cases taken
    exact h
  | checkpoint =>
    cases taken
    intro c hc
    rcases List.mem_append.mp hc with hc | hc
    · exact h c hc
    · cases text : written s.manager with
      | error e =>
        rw [text] at hc
        cases hc
      | ok d =>
        rw [text] at hc
        obtain rfl : c = d := by simpa [Except.toOption] using hc
        rw [written] at text
        cases taken : s.manager.checkpoint.1 with
        | error e =>
          rw [taken] at text
          contradiction
        | ok d =>
          rw [taken] at text
          rcases throughJson_plain text with ⟨offsets, plain⟩
          exact ⟨_, plain, fun p hp ↦ mem_jsonOffsets hp⟩
  | restore index fresh =>
    simp only [step, Option.bind_eq_bind, Option.bind_eq_some_iff] at taken
    rcases taken with ⟨c, -, manager, -, same⟩
    cases same
    exact h

/-- Whatever is restored, no task finds its worker. -/
theorem step_unroutable (read : Read s.saved)
    (h : s.manager.datasetSplitter.partitionOffset.Unroutable)
    (taken : step blank s a = some t) :
    t.manager.datasetSplitter.partitionOffset.Unroutable := by
  cases a with
  | getTask nodeType nodeId now =>
    cases taken
    exact (CheckpointedStream.getTask_unroutable h nodeType nodeId now).1
  | reportTaskStatus taskId success now =>
    cases taken
    rw [CheckpointedStream.reportTaskStatus_splitter]
    exact h
  | checkpoint =>
    cases taken
    exact s.manager.checkpoint_unroutable
  | restore index fresh =>
    simp only [step, Option.bind_eq_bind, Option.bind_eq_some_iff] at taken
    rcases taken with ⟨c, hc, manager, restored, same⟩
    cases same
    rcases read c (List.mem_of_getElem? hc) with ⟨offsets, plain, strings⟩
    simp only [CheckpointedStream.restoreCheckpoint, SplitterAttributes.fromCheckpoint, plain]
      at restored
    cases restored
    intro offsets' same
    cases same
    exact strings

/-- In every state of every run: a checkpoint is no snapshot; it loses nothing just when there is
at most one task with the name of the dataset, no shard is listed and the keys are strings; and from
then on no worker ever gets a task again, whatever is restored. -/
theorem checkpoint_no_snapshot {acts : List StreamSystemAct}
    (run : Run (step blank) anyStep (init blank) acts s) :
    (∀ m, ¬s.manager.Snapshot m) ∧ (∀ m, s.manager.Lossless m ↔ s.manager.Survives m) ∧
      ∀ t later u, step blank s .checkpoint = some t → Run (step blank) anyStep t later u →
        ∀ nodeType nodeId now task, (u.manager.getTask nodeType nodeId now).1 = .ok task →
          task = CheckpointedStream.invalidTask := by
  have read : Read s.saved := by
    refine run.invariant (P := fun s ↦ Read s.saved) (fun c hc ↦ absurd hc List.not_mem_nil) ?_
    intro t u a h _ taken
    exact step_read h taken
  refine ⟨s.manager.not_snapshot, fun m ↦ CheckpointedStream.lossless_iff, ?_⟩
  intro t later u taken after nodeType nodeId now task got
  have invariant : Read u.saved ∧ u.manager.datasetSplitter.partitionOffset.Unroutable := by
    refine after.invariant (P := fun s ↦ Read s.saved ∧
      s.manager.datasetSplitter.partitionOffset.Unroutable) ⟨step_read read taken, ?_⟩ ?_
    · cases taken
      exact s.manager.checkpoint_unroutable
    · rintro t u a ⟨read, h⟩ _ taken
      exact ⟨step_read read taken, step_unroutable read h taken⟩
  exact (CheckpointedStream.getTask_unroutable invariant.2 nodeType nodeId now).2 task got

/-- A request or a report of the stream, in a system with checkpoints. -/
def unsaved : StreamAct → StreamSystemAct
  | .getTask nodeType nodeId now => .getTask nodeType nodeId now
  | .reportTaskStatus taskId success now => .reportTaskStatus (.int taskId) success now

/-- Until the first checkpoint the system runs as the stream does that has none. -/
theorem run_simulates {taskType : TaskType} {batchSize : Nat} {name : String} {size : Nat}
    {offsets : Dict PartitionName Int} {numEpochs total : Int} {shuffle : Bool}
    {maxCount : Option Nat} {fetch : Nat} (partitioned : offsets.keys ≠ [])
    {acts : List StreamAct} {ledger : StreamLedger}
    (run : Run StreamLedger.step anyStep
      (StreamLedger.init (.new taskType batchSize size offsets total fetch)) acts ledger) :
    let blank := CheckpointedStream.new taskType batchSize
      (.new name size (.new offsets) numEpochs total shuffle maxCount fetch)
    ∃ s, Run (step blank) anyStep (init blank) (acts.map unsaved) s ∧
      CheckpointedStream.Simulates ledger.manager s.manager ∧
      ledger.manager.datasetSplitter.kept = (size, fetch, offsets.keys) := by
  induction run with
  | nil => exact ⟨_, .nil, CheckpointedStream.simulates_new .., rfl⟩
  | @snoc acts ledger next a run _ taken ih =>
    rcases ih with ⟨s, before, agree, kept⟩
    rw [List.map_append, List.map_singleton]
    cases a with
    | getTask nodeType nodeId now =>
      cases taken
      have same : ledger.manager.datasetSplitter.partitionOffset.partitions = offsets.keys :=
        congrArg (fun kept ↦ kept.2.2) kept
      have partitions : ledger.manager.datasetSplitter.partitionOffset.partitions ≠ [] := by
        rw [same]
        exact partitioned
      refine ⟨_, .snoc _ before trivial rfl, (agree.getTask partitions nodeType nodeId now).1, ?_⟩
      rw [StreamingDatasetManager.getTask_kept, kept]
    | reportTaskStatus taskId success now =>
      cases taken
      refine ⟨_, .snoc _ before trivial rfl, (agree.reportTaskStatus taskId success now).1, ?_⟩
      rw [StreamLedger.reportTaskStatus_splitter, kept]

/-- Four records in the partitions `0` and `1`. -/
def twoPartitionStream : CheckpointedStream :=
  .new .training 1 (.new "logs" 2 (.new (.ofItems [(.int 0, 1), (.int 1, 0)])) 1 4 false none 10000)

/-- The shard of the second partition. -/
def secondTask : KeyedTask := ⟨.int 1, .training, ⟨.int 1, 0, 2⟩, 0⟩

/-- The second worker would get its task, and gets none after the checkpoint. -/
theorem checkpoint_no_snapshot_two :
    ∃ acts s, Run (step twoPartitionStream) anyStep (init twoPartitionStream) acts s ∧
      (s.manager.getTask "worker" 1 0).1 = .ok secondTask ∧
      (∀ m, ¬s.manager.Snapshot m) ∧
      ∀ task, (s.manager.checkpoint.2.getTask "worker" 1 0).1 = .ok task →
        task = CheckpointedStream.invalidTask := by
  have eval : ([.getTask "worker" 0 0].foldlM (step twoPartitionStream)
      (init twoPartitionStream)).any (fun s ↦
        decide ((s.manager.getTask "worker" 1 0).1 = .ok secondTask)) = true := by
    decide +kernel
  rcases run_of_any eval with ⟨s, run, holds⟩
  have facts := checkpoint_no_snapshot run
  refine ⟨_, s, run, of_decide_eq_true holds, facts.1, ?_⟩
  exact facts.2.2 _ [] _ rfl .nil "worker" 1 0

/-- After the first worker has got its task, the second would get its own; after a checkpoint the
request raises, and so does writing the checkpoint. Before any request the checkpoint can be
written, but the partitions are restored under other names. -/
theorem checkpoint_disturbs :
    (∃ acts s, Run (step twoPartitionStream) anyStep (init twoPartitionStream) acts s ∧
      (∀ m, ¬s.manager.Snapshot m) ∧
      (s.manager.getTask "worker" 1 0).1 = .ok secondTask ∧
      (s.manager.checkpoint.2.getTask "worker" 1 0).1 = .error .attributeError ∧
      written s.manager = .error .typeError) ∧
    ((written twoPartitionStream).map fun c ↦ c.splitter.partitionOffset.offsets.items) =
      .ok [(.str "0", 1), (.str "1", 0)] := by
  constructor
  · have eval : ([.getTask "worker" 0 0].foldlM (step twoPartitionStream)
        (init twoPartitionStream)).any (fun s ↦
          decide ((s.manager.getTask "worker" 1 0).1 = .ok secondTask ∧
            (s.manager.checkpoint.2.getTask "worker" 1 0).1 = .error .attributeError ∧
            written s.manager = .error .typeError)) = true := by
      decide +kernel
    rcases run_of_any eval with ⟨s, run, holds⟩
    exact ⟨_, s, run, s.manager.not_snapshot, of_decide_eq_true holds⟩
  · decide +kernel

end StreamSystem

end ProbingBaselines.Dlrover
