import ProbingBaselines.Dlrover.BatchDatasetManager
import ProbingBaselines.Lib.Run

/-!
# Shards of a stream

`PartitionOffsets` and `StreamingDatasetSplitter` (`dataset_splitter.py:45-89,366-483`) cut shards
off the partitions of a message queue in turn, and `StreamingDatasetManager`
(`streaming_dataset_manager.py:32-165`) hands them out as tasks. The splitter appends to the list of
its shards, and every refill of the queue makes tasks of the whole list. A task goes to the worker
for which the index of its partition fits; `partition_name_index` leads from positions to names, and
is asked with a name.
-/

namespace ProbingBaselines.Dlrover

open Lib

/-- A key of the partition map. -/
inductive PartitionName where
  | int (n : Int)
  | str (s : String)
  deriving DecidableEq

/-- What the operations raise. -/
inductive StreamError where
  | zeroDivision
  | typeError
  | attributeError
  | keyError
  deriving DecidableEq

/-- `partitions` are the keys at the construction, `partition_num` is their number. -/
structure PartitionOffsets where
  partitionOffsets : Dict PartitionName Int
  startPartition : Nat
  partitions : List PartitionName
  deriving DecidableEq

namespace PartitionOffsets

/-- `PartitionOffsets.__init__`. -/
def new (partitionOffsets : Dict PartitionName Int) : PartitionOffsets :=
  ⟨partitionOffsets, 0, partitionOffsets.keys⟩

def partitionNum (s : PartitionOffsets) : Nat := s.partitions.length

/-- `partition_name_index` is `dict(enumerate(partitions))`. -/
def getPartitionIndexByName (s : PartitionOffsets) : PartitionName → Option PartitionName
  | .int n => if n < 0 then none else s.partitions[n.toNat]?
  | .str _ => none

/-- The partition that is `i` places further on. -/
def roundRobin (s : PartitionOffsets) (i : Nat) : Option PartitionName :=
  s.partitions[(s.startPartition + i) % s.partitionNum]?

/-- The name of a partition is routed to a worker. -/
def Routes (s : PartitionOffsets) (name : PartitionName) (workerId : Int) : Prop :=
  s.getPartitionIndexByName name = some (.int (workerId % s.partitionNum))

instance (s : PartitionOffsets) (name : PartitionName) (workerId : Int) :
    Decidable (s.Routes name workerId) :=
  inferInstanceAs (Decidable (_ = _))

/-- Routing depends on the names of the partitions only. -/
theorem Routes.congr {s t : PartitionOffsets} {name : PartitionName} {workerId : Int}
    (h : s.Routes name workerId) (same : t.partitions = s.partitions) :
    t.Routes name workerId := by
  cases name <;>
    simpa only [Routes, getPartitionIndexByName, partitionNum, same] using h

end PartitionOffsets

structure PartitionShard where
  name : PartitionName
  start : Int
  stop : Int
  deriving DecidableEq

/-- `datasetSize` is the number of records left, `-1` for a stream without end. -/
structure StreamingDatasetSplitter where
  shardSize : Nat
  partitionOffset : PartitionOffsets
  datasetSize : Int
  fetchDataSize : Nat
  shards : List PartitionShard

namespace StreamingDatasetSplitter

def epochFinished (s : StreamingDatasetSplitter) : Bool := s.datasetSize = 0

/-- The number of shards of a refill; a negative count makes no shard. -/
def shardCount (s : StreamingDatasetSplitter) : Nat :=
  if s.datasetSize = -1 then s.fetchDataSize / s.shardSize
  else s.datasetSize.toNat / s.shardSize

/-- The shard of a partition that begins at `start`; `dataset_splitter.py:469-475`. -/
def addShard (s : StreamingDatasetSplitter) (name : PartitionName) (start : Int) :
    StreamingDatasetSplitter :=
  let stop := start + s.shardSize
  { s with
    shards := s.shards ++ [⟨name, start, stop⟩]
    datasetSize := if s.datasetSize = -1 then -1 else s.datasetSize - s.shardSize
    partitionOffset := { s.partitionOffset with
      startPartition := s.partitionOffset.startPartition + 1
      partitionOffsets := s.partitionOffset.partitionOffsets.insert name stop } }

/-- The body of the loop; `dataset_splitter.py:467-475`. -/
def cutShard (s : StreamingDatasetSplitter) : Except StreamError StreamingDatasetSplitter :=
  match s.partitionOffset.roundRobin 0 with
  | none => .error .zeroDivision
  | some name =>
    match s.partitionOffset.partitionOffsets.get? name with
    | none => .error .typeError
    | some start => .ok (s.addShard name start)

def cutShards : Nat → StreamingDatasetSplitter → Except StreamError StreamingDatasetSplitter
  | 0, s => .ok s
  | n + 1, s => s.cutShard.bind (cutShards n)

/-- `create_shards`. The quotient of the sizes raises for a shard size of zero. -/
def createShards (s : StreamingDatasetSplitter) : Except StreamError StreamingDatasetSplitter :=
  if s.shardSize = 0 then .error .zeroDivision else cutShards s.shardCount s

end StreamingDatasetSplitter

structure StreamTask where
  taskId : Int
  taskType : TaskType
  shard : PartitionShard
  retryCount : Nat

structure StreamDoingTask where
  task : StreamTask
  nodeType : String
  nodeId : Int
  startTime : Int

structure StreamingDatasetManager where
  taskType : TaskType
  batchSize : Nat
  datasetSplitter : StreamingDatasetSplitter
  todo : List StreamTask
  doing : Dict Int StreamDoingTask
  taskId : Nat
  completedStep : Nat
  maxTaskCompletedTime : ℚ

/-- Tasks for the shards in order, numbered from `first`. -/
def numberStreamTasks (taskType : TaskType) : Nat → List PartitionShard → List StreamTask
  | _, [] => []
  | first, shard :: shards =>
    ⟨first, taskType, shard, 0⟩ :: numberStreamTasks taskType (first + 1) shards

namespace StreamingDatasetManager

/-- `StreamingDatasetManager.__init__` over a new splitter. -/
def new (taskType : TaskType) (batchSize shardSize : Nat) (offsets : Dict PartitionName Int)
    (datasetSize : Int) (fetchDataSize : Nat) : StreamingDatasetManager :=
  ⟨taskType, batchSize, ⟨shardSize, .new offsets, datasetSize, fetchDataSize, []⟩, [], .empty, 0, 0,
    0⟩

/-- A refill is due: nothing is left to hand out and the stream has not ended. -/
def RefillDue (s : StreamingDatasetManager) : Prop :=
  s.todo = [] ∧ s.datasetSplitter.epochFinished = false

instance (s : StreamingDatasetManager) : Decidable s.RefillDue :=
  inferInstanceAs (Decidable (_ ∧ _))

/-- `streaming_dataset_manager.py:58-65`; all shards of the splitter become tasks. -/
def refill (s : StreamingDatasetManager) : Except StreamError StreamingDatasetManager :=
  if s.RefillDue then
    s.datasetSplitter.createShards.map fun datasetSplitter ↦
      { s with
        datasetSplitter := datasetSplitter
        todo := numberStreamTasks s.taskType s.taskId datasetSplitter.shards
        taskId := s.taskId + datasetSplitter.shards.length }
  else .ok s

/-- The task fits the worker. -/
def fits (s : StreamingDatasetManager) (workerId : Int) (task : StreamTask) : Bool :=
  decide (s.datasetSplitter.partitionOffset.Routes task.shard.name workerId)

/-- `get_task_from_todo`. -/
def getTaskFromTodo (s : StreamingDatasetManager) (workerId : Int) :
    Option StreamTask × StreamingDatasetManager :=
  (s.todo.find? (s.fits workerId), { s with todo := s.todo.eraseP (s.fits workerId) })

/-- `Task.create_invalid_task`. -/
def invalidTask : StreamTask := ⟨-1, .none, ⟨.str "", -1, -1⟩, 0⟩

/-- `streaming_dataset_manager.py:55-79`; `None` has no attribute `task_id`. -/
def getTask (s : StreamingDatasetManager) (nodeType : String) (nodeId : Int) (now : ℚ) :
    Except StreamError StreamTask × StreamingDatasetManager :=
  match s.refill with
  | .error e => (.error e, s)
  | .ok s =>
    if s.todo = [] then (.ok invalidTask, s)
    else
      match s.getTaskFromTodo nodeId with
      | (none, s) => (.error .attributeError, s)
      | (some task, s) =>
        (.ok task, { s with doing := s.doing.insert task.taskId ⟨task, nodeType, nodeId, ⌊now⌋⟩ })

def completed (s : StreamingDatasetManager) : Bool :=
  s.datasetSplitter.epochFinished && decide (s.todo = []) && decide (s.doing.items = [])

/-- `recover_task`. -/
def recoverTask (s : StreamingDatasetManager) (task : StreamTask) : StreamingDatasetManager :=
  let task := { task with retryCount := task.retryCount + 1 }
  if maxTaskRetries < task.retryCount then s else { s with todo := s.todo ++ [task] }

/-- `_update_completed_step`; it raises for a batch size of zero. -/
def updateCompletedStep (s : StreamingDatasetManager) (task : StreamTask) :
    Except StreamError StreamingDatasetManager :=
  if s.batchSize = 0 then .error .zeroDivision
  else
    let recordCount := (task.shard.stop - task.shard.start).toNat
    .ok { s with completedStep := s.completedStep + ceilQuotient recordCount s.batchSize }

/-- `streaming_dataset_manager.py:105-130`; unlike that of a batch dataset, it raises for a task
that is not being processed. -/
def reportTaskStatus (s : StreamingDatasetManager) (taskId : Int) (success : Bool) (now : ℚ) :
    Except StreamError Bool × StreamingDatasetManager :=
  match s.doing.get? taskId with
  | none => (.error .keyError, s)
  | some doingTask =>
    let s := { s with doing := s.doing.erase taskId }
    if success then
      match s.updateCompletedStep doingTask.task with
      | .error e => (.error e, s)
      | .ok s =>
        let taskCompletedTime := now - doingTask.startTime
        (.ok true, { s with
          maxTaskCompletedTime := max s.maxTaskCompletedTime taskCompletedTime })
    else (.ok false, s.recoverTask doingTask.task)

/-- The tasks that the refill of a call makes. -/
def newTasks (s : StreamingDatasetManager) : List StreamTask :=
  match s.refill with
  | .ok t => if s.RefillDue then t.todo else []
  | .error _ => []

end StreamingDatasetManager

/-! ### Cutting -/

/-- A relation between all elements of one kind, kind by kind. -/
theorem pairwise_of_filter {α κ : Type} [DecidableEq κ] {f : α → κ} {R : α → α → Prop}
    {l : List α} (each : ∀ p, (l.filter fun a ↦ f a = p).Pairwise R) :
    l.Pairwise fun a b ↦ f a = f b → R a b := by
  induction l with
  | nil => exact .nil
  | cons a l ih =>
    rw [List.pairwise_cons]
    constructor
    · intro b hb same
      have kind := each (f a)
      simp only [List.filter_cons, decide_true, if_true, List.pairwise_cons] at kind
      exact kind.1 b (List.mem_filter.mpr ⟨hb, decide_eq_true same.symm⟩)
    · apply ih
      intro p
      exact (each p).sublist ((List.sublist_cons_self a l).filter _)

namespace StreamingDatasetSplitter

/-- The shards of a partition follow one another from its first offset on, and the next one starts
where they end. -/
structure Cut (size : Nat) (offsets : Dict PartitionName Int) (s : StreamingDatasetSplitter) :
    Prop where
  size_eq : s.shardSize = size
  partitions : s.partitionOffset.partitions = offsets.keys
  names : ∀ c ∈ s.shards, c.name ∈ offsets
  ranges : ∀ p first, offsets.get? p = some first → ∃ k : Nat,
    (s.shards.filter fun c ↦ c.name = p).map (fun c ↦ (c.start, c.stop)) =
      ((List.range k).map fun i : Nat ↦ (first + i * size, first + (i + 1) * size)) ∧
    s.partitionOffset.partitionOffsets.get? p = some (first + k * size)

theorem roundRobin_mem {s : PartitionOffsets} {i : Nat} {name : PartitionName}
    (h : s.roundRobin i = some name) : name ∈ s.partitions :=
  List.mem_of_getElem? h

theorem roundRobin_isSome {s : PartitionOffsets} (pos : 0 < s.partitionNum) (i : Nat) :
    ∃ name, s.roundRobin i = some name := by
  have lt : (s.startPartition + i) % s.partitionNum < s.partitions.length := Nat.mod_lt _ pos
  exact ⟨_, List.getElem?_eq_getElem lt⟩

theorem Cut.addShard {size : Nat} {offsets : Dict PartitionName Int}
    {s : StreamingDatasetSplitter} (h : Cut size offsets s) {name : PartitionName} {start : Int}
    (known : name ∈ offsets) (next : s.partitionOffset.partitionOffsets.get? name = some start) :
    Cut size offsets (s.addShard name start) where
  size_eq := h.size_eq
  partitions := h.partitions
  names := by
    intro c hc
    rcases List.mem_append.mp hc with hc | hc
    · exact h.names c hc
    · rw [List.mem_singleton.mp hc]
      exact known
  ranges := by
    intro p first hp
    rcases h.ranges p first hp with ⟨k, ranges, offset⟩
    simp only [StreamingDatasetSplitter.addShard, List.filter_append, List.map_append, ranges,
      Dict.get?_insert]
    by_cases same : name = p
    · subst same
      obtain rfl : start = first + k * size := Option.some.inj (next.symm.trans offset)
      refine ⟨k + 1, ?_, ?_⟩
      · rw [List.range_succ, List.map_append]
        simp [h.size_eq, Int.add_mul, Int.add_assoc]
      · simp [h.size_eq, Int.add_mul, Int.add_assoc]
    · refine ⟨k, ?_, ?_⟩
      · simp [same]
      · rw [if_neg (Ne.symm same)]
        exact offset

/-- One more shard is cut off the next partition. -/
theorem Cut.cutShard {size : Nat} {offsets : Dict PartitionName Int}
    {s : StreamingDatasetSplitter} (h : Cut size offsets s)
    (pos : 0 < s.partitionOffset.partitionNum) :
    ∃ name start, s.partitionOffset.roundRobin 0 = some name ∧
      s.cutShard = .ok (s.addShard name start) ∧ Cut size offsets (s.addShard name start) := by
  rcases roundRobin_isSome pos 0 with ⟨name, turn⟩
  have known : name ∈ offsets := by
    rw [Dict.mem_def, ← h.partitions]
    exact roundRobin_mem turn
  rcases Dict.mem_iff.mp known with ⟨first, hfirst⟩
  rcases h.ranges name first (Dict.get?_eq_some_iff.mpr hfirst) with ⟨k, -, offset⟩
  refine ⟨name, first + k * size, turn, ?_, h.addShard known offset⟩
  rw [StreamingDatasetSplitter.cutShard, turn]
  simp only [offset]

theorem roundRobin_addShard (s : StreamingDatasetSplitter) (name : PartitionName) (start : Int)
    (i : Nat) : (s.addShard name start).partitionOffset.roundRobin i =
      s.partitionOffset.roundRobin (i + 1) := by
  simp only [PartitionOffsets.roundRobin, StreamingDatasetSplitter.addShard,
    PartitionOffsets.partitionNum, Nat.add_assoc, Nat.add_comm 1 i]

/-- The shards of a whole loop are cut off the partitions in turn; `enough` holds for a count that
the splitter has computed. -/
theorem Cut.cutShards {size : Nat} {offsets : Dict PartitionName Int} (n : Nat)
    {s : StreamingDatasetSplitter} (h : Cut size offsets s)
    (pos : 0 < s.partitionOffset.partitionNum)
    (enough : s.datasetSize = -1 ∨ (n * size : Nat) ≤ s.datasetSize) :
    ∃ t, cutShards n s = .ok t ∧ Cut size offsets t ∧
      t.shards.map PartitionShard.name =
        s.shards.map PartitionShard.name ++
          (List.range n).filterMap (fun i ↦ s.partitionOffset.roundRobin i) ∧
      t.datasetSize = (if s.datasetSize = -1 then -1 else s.datasetSize - (n * size : Nat)) ∧
      t.partitionOffset.partitions = s.partitionOffset.partitions := by
  induction n generalizing s with
  | zero =>
    refine ⟨s, rfl, h, (List.append_nil _).symm, ?_, rfl⟩
    split <;> omega
  | succ n ih =>
    rcases h.cutShard pos with ⟨name, start, turn, cut, h'⟩
    have left : (s.addShard name start).datasetSize =
        if s.datasetSize = -1 then -1 else s.datasetSize - size := by
      simp only [StreamingDatasetSplitter.addShard, h.size_eq]
    rw [Nat.add_mul, Nat.one_mul] at enough
    have enough' : (s.addShard name start).datasetSize = -1 ∨
        (n * size : Nat) ≤ (s.addShard name start).datasetSize := by
      rw [left]
      split <;> omega
    rcases ih h' pos enough' with ⟨t, rest, ht, names, size_left, partitions⟩
    refine ⟨t, ?_, ht, ?_, ?_, partitions⟩
    · rw [StreamingDatasetSplitter.cutShards, cut]
      exact rest
    · simp only [roundRobin_addShard] at names
      rw [names, List.range_succ_eq_map, List.filterMap_cons, turn, List.filterMap_map]
      simp only [StreamingDatasetSplitter.addShard, List.map_append, List.map_cons, List.map_nil,
        List.append_assoc, List.cons_append, List.nil_append]
      rfl
    · rw [size_left, left, Nat.add_mul, Nat.one_mul]
      split <;> split <;> omega

/-- A refill of `shardCount` shards. Without partitions it raises if it has anything to cut. -/
theorem Cut.createShards {size : Nat} {offsets : Dict PartitionName Int}
    {s : StreamingDatasetSplitter} (h : Cut size offsets s) (divisible : size ≠ 0)
    (some : 0 < s.shardCount → 0 < s.partitionOffset.partitionNum) :
    ∃ t, s.createShards = .ok t ∧ Cut size offsets t ∧
      t.shards.map PartitionShard.name = s.shards.map PartitionShard.name ++
        (List.range s.shardCount).filterMap (fun i ↦ s.partitionOffset.roundRobin i) ∧
      t.datasetSize =
        (if s.datasetSize = -1 then -1 else s.datasetSize - (s.shardCount * size : Nat)) ∧
      t.partitionOffset.partitions = s.partitionOffset.partitions := by
  have size_ne : s.shardSize ≠ 0 := by
    rw [h.size_eq]
    exact divisible
  rw [StreamingDatasetSplitter.createShards, if_neg size_ne]
  by_cases none : s.shardCount = 0
  · rw [none]
    refine ⟨s, rfl, h, (List.append_nil _).symm, ?_, rfl⟩
    split <;> omega
  · apply h.cutShards _ (some (Nat.pos_of_ne_zero none))
    by_cases endless : s.datasetSize = -1
    · exact .inl endless
    · right
      have positive : 0 ≤ s.datasetSize := by
        by_contra negative
        apply none
        rw [shardCount, if_neg endless, Int.toNat_of_nonpos (by omega), Nat.zero_div]
      rw [shardCount, if_neg endless, h.size_eq]
      have le := Nat.div_mul_le_self s.datasetSize.toNat size
      omega

/-- Two shards of one partition do not overlap. -/
theorem Cut.disjoint {size : Nat} {offsets : Dict PartitionName Int}
    {s : StreamingDatasetSplitter} (h : Cut size offsets s) :
    s.shards.Pairwise fun a b ↦ a.name = b.name → a.stop ≤ b.start := by
  apply pairwise_of_filter
  intro p
  by_cases known : p ∈ offsets
  · rcases Dict.mem_iff.mp known with ⟨first, hfirst⟩
    rcases h.ranges p first (Dict.get?_eq_some_iff.mpr hfirst) with ⟨k, ranges, -⟩
    have ordered : ((List.range k).map fun i : Nat ↦
        (first + i * size, first + (i + 1) * size)).Pairwise fun a b ↦ a.2 ≤ b.1 := by
      rw [List.pairwise_map]
      apply List.pairwise_lt_range.imp
      intro i j lt
      have le : ((i + 1) * size : Nat) ≤ j * size := Nat.mul_le_mul_right _ lt
      have cast : ((i : Int) + 1) * size ≤ (j : Int) * size := by exact_mod_cast le
      exact Int.add_le_add_left cast first
    rw [← ranges, List.pairwise_map] at ordered
    exact ordered
  · have none : (s.shards.filter fun c ↦ c.name = p) = [] := by
      rw [List.filter_eq_nil_iff]
      intro c hc named
      exact known (of_decide_eq_true named ▸ h.names c hc)
    rw [none]
    exact .nil

end StreamingDatasetSplitter

theorem numberStreamTasks_shards (taskType : TaskType) (first : Nat)
    (shards : List PartitionShard) :
    (numberStreamTasks taskType first shards).map StreamTask.shard = shards := by
  induction shards generalizing first with
  | nil => rfl
  | cons shard shards ih => rw [numberStreamTasks, List.map_cons, ih]

/-! ### Runs -/

/-- `created` are the tasks made so far, in order; `asked` tells whether there was a request. -/
structure StreamLedger where
  manager : StreamingDatasetManager
  created : List StreamTask
  asked : Bool

inductive StreamAct where
  | getTask (nodeType : String) (nodeId : Int) (now : ℚ)
  | reportTaskStatus (taskId : Int) (success : Bool) (now : ℚ)

namespace StreamLedger

def init (manager : StreamingDatasetManager) : StreamLedger := ⟨manager, [], false⟩

def step (s : StreamLedger) : StreamAct → Option StreamLedger
  | .getTask nodeType nodeId now =>
    some ⟨(s.manager.getTask nodeType nodeId now).2, s.created ++ s.manager.newTasks, true⟩
  | .reportTaskStatus taskId success now =>
    some { s with manager := (s.manager.reportTaskStatus taskId success now).2 }

/-- A refill is made only while the splitter has cut no shard before; and a worker asks only when a
task of the queue, or else a shard that the refill is about to cut, is routed to it. -/
def Admitted (s : StreamLedger) : StreamAct → Prop
  | .getTask _ nodeId _ =>
    (s.manager.RefillDue → s.manager.datasetSplitter.shards = [] ∧
      (0 < s.manager.datasetSplitter.shardCount →
        ∃ i < s.manager.datasetSplitter.shardCount,
          ∃ name ∈ s.manager.datasetSplitter.partitionOffset.roundRobin i,
            s.manager.datasetSplitter.partitionOffset.Routes name nodeId)) ∧
    (s.manager.todo ≠ [] → ∃ task ∈ s.manager.todo, s.manager.fits nodeId task = true)
  | .reportTaskStatus .. => True

instance (s : StreamLedger) : (a : StreamAct) → Decidable (s.Admitted a)
  | .getTask _ nodeId _ =>
    haveI : ∀ o : Option PartitionName, Decidable (∃ name ∈ o,
        s.manager.datasetSplitter.partitionOffset.Routes name nodeId) := fun o ↦
      match o with
      | none => .isFalse (by simp)
      | some name => decidable_of_iff
          (s.manager.datasetSplitter.partitionOffset.Routes name nodeId) (by simp)
    inferInstanceAs (Decidable (_ ∧ _))
  | .reportTaskStatus .. => inferInstanceAs (Decidable True)

/-- What the ledger keeps: its tasks are the splitter's shards, and a bounded stream whose size is a
multiple of the shard size is used up by the first request. -/
structure Streamed (size : Nat) (offsets : Dict PartitionName Int) (total : Int)
    (s : StreamLedger) : Prop where
  issued : s.created.map StreamTask.shard = s.manager.datasetSplitter.shards
  cut : s.manager.datasetSplitter.Cut size offsets
  bounded : 0 ≤ total → (size : Int) ∣ total →
    s.manager.datasetSplitter.datasetSize = if s.asked then 0 else total
  fresh : s.asked = false → s.manager.todo = [] ∧ s.manager.doing.items = []

section Streamed

variable {size : Nat} {offsets : Dict PartitionName Int} {total : Int} {s t : StreamLedger}

/-- What the refill of an admitted request does. -/
theorem Streamed.refill (h : Streamed size offsets total s) {nodeType : String} {nodeId : Int}
    {now : ℚ} (admitted : s.Admitted (.getTask nodeType nodeId now)) :
    (¬s.manager.RefillDue ∧ s.manager.refill = .ok s.manager ∧ s.manager.newTasks = []) ∨
    (s.manager.RefillDue ∧ size = 0 ∧ s.manager.refill = .error .zeroDivision ∧
      s.manager.newTasks = []) ∨
    (s.manager.RefillDue ∧ size ≠ 0 ∧ ∃ sp, sp.Cut size offsets ∧
      sp.shards.map PartitionShard.name =
        (List.range s.manager.datasetSplitter.shardCount).filterMap
          (fun i ↦ s.manager.datasetSplitter.partitionOffset.roundRobin i) ∧
      sp.datasetSize = (if s.manager.datasetSplitter.datasetSize = -1 then -1 else
        s.manager.datasetSplitter.datasetSize -
          (s.manager.datasetSplitter.shardCount * size : Nat)) ∧
      sp.partitionOffset.partitions = s.manager.datasetSplitter.partitionOffset.partitions ∧
      s.manager.newTasks = numberStreamTasks s.manager.taskType s.manager.taskId sp.shards ∧
      s.manager.refill = .ok { s.manager with
        datasetSplitter := sp
        todo := numberStreamTasks s.manager.taskType s.manager.taskId sp.shards
        taskId := s.manager.taskId + sp.shards.length }) := by
  by_cases due : s.manager.RefillDue
  · right
    rcases admitted.1 due with ⟨first, routed⟩
    by_cases zero : size = 0
    · left
      have error : s.manager.refill = .error .zeroDivision := by
        have size_eq : s.manager.datasetSplitter.shardSize = 0 := by rw [h.cut.size_eq, zero]
        rw [StreamingDatasetManager.refill, if_pos due, StreamingDatasetSplitter.createShards,
          if_pos size_eq]
        rfl
      refine ⟨due, zero, error, ?_⟩
      simp only [StreamingDatasetManager.newTasks, error]
    · right
      have some : 0 < s.manager.datasetSplitter.shardCount →
          0 < s.manager.datasetSplitter.partitionOffset.partitionNum := by
        intro count
        rcases routed count with ⟨i, -, name, turn, -⟩
        exact List.length_pos_of_mem (StreamingDatasetSplitter.roundRobin_mem turn)
      rcases h.cut.createShards zero some with ⟨sp, create, cut, names, left, partitions⟩
      rw [first, List.map_nil, List.nil_append] at names
      have refill : s.manager.refill = .ok { s.manager with
          datasetSplitter := sp
          todo := numberStreamTasks s.manager.taskType s.manager.taskId sp.shards
          taskId := s.manager.taskId + sp.shards.length } := by
        rw [StreamingDatasetManager.refill, if_pos due, create]
        rfl
      refine ⟨due, zero, sp, cut, names, left, partitions, ?_, refill⟩
      simp only [StreamingDatasetManager.newTasks, refill, if_pos due]
  · left
    have same : s.manager.refill = .ok s.manager := if_neg due
    refine ⟨due, same, ?_⟩
    simp only [StreamingDatasetManager.newTasks, same, if_neg due]

/-- Handing out a task leaves the splitter as the refill left it. -/
theorem getTask_splitter {m n : StreamingDatasetManager} (refill : m.refill = .ok n)
    (nodeType : String) (nodeId : Int) (now : ℚ) :
    (m.getTask nodeType nodeId now).2.datasetSplitter = n.datasetSplitter := by
  simp only [StreamingDatasetManager.getTask, refill, StreamingDatasetManager.getTaskFromTodo]
  split
  · rfl
  · cases n.todo.find? (n.fits nodeId) <;> rfl

theorem Streamed.getTask (h : Streamed size offsets total s) {nodeType : String} {nodeId : Int}
    {now : ℚ} (admitted : s.Admitted (.getTask nodeType nodeId now))
    (taken : s.step (.getTask nodeType nodeId now) = some t) : Streamed size offsets total t := by
  cases taken
  rcases h.refill admitted with ⟨due, refill, new⟩ | ⟨due, zero, refill, new⟩ |
    ⟨due, pos, sp, cut, -, left, -, new, refill⟩
  · have splitter := getTask_splitter refill nodeType nodeId now
    constructor
    · rw [splitter, new, List.append_nil]
      exact h.issued
    · rw [splitter]
      exact h.cut
    · intro positive multiple
      have before := h.bounded positive multiple
      rw [splitter, if_pos rfl]
      cases asked : s.asked with
      | true =>
        rw [asked, if_pos rfl] at before
        exact before
      | false =>
        -- nothing was queued yet, so the stream has ended
        by_contra more
        apply due
        refine ⟨(h.fresh asked).1, ?_⟩
        simpa [StreamingDatasetSplitter.epochFinished] using more
    · exact nofun
  · have same : (s.manager.getTask nodeType nodeId now).2 = s.manager := by
      simp only [StreamingDatasetManager.getTask, refill]
    constructor
    · rw [same, new, List.append_nil]
      exact h.issued
    · rw [same]
      exact h.cut
    · intro positive multiple
      have before := h.bounded positive multiple
      rw [zero, Int.natCast_zero, Int.zero_dvd] at multiple
      rw [multiple, ite_self] at before
      rw [same, before, if_pos rfl]
    · exact nofun
  · have splitter := getTask_splitter refill nodeType nodeId now
    constructor
    · rw [splitter, new, List.map_append, numberStreamTasks_shards, h.issued, (admitted.1 due).1,
        List.nil_append]
    · rw [splitter]
      exact cut
    · intro positive multiple
      have before := h.bounded positive multiple
      have going : s.manager.datasetSplitter.datasetSize ≠ 0 := by
        have unfinished := due.2
        simpa [StreamingDatasetSplitter.epochFinished] using unfinished
      have whole : s.manager.datasetSplitter.datasetSize = total := by
        split at before
        · exact absurd before going
        · exact before
      have endless : ¬s.manager.datasetSplitter.datasetSize = -1 := by omega
      rw [splitter, if_pos rfl]
      show sp.datasetSize = 0
      have cast : (total.toNat : Int) = total := Int.toNat_of_nonneg positive
      rw [← cast] at multiple
      rw [left, if_neg endless, StreamingDatasetSplitter.shardCount, if_neg endless,
        h.cut.size_eq, whole, Nat.div_mul_cancel (Int.natCast_dvd_natCast.mp multiple)]
      omega
    · exact nofun

theorem reportTaskStatus_splitter (m : StreamingDatasetManager) (taskId : Int) (success : Bool)
    (now : ℚ) : (m.reportTaskStatus taskId success now).2.datasetSplitter = m.datasetSplitter := by
  unfold StreamingDatasetManager.reportTaskStatus
  split
  · rfl
  · cases success with
    | true =>
      simp only [if_true, StreamingDatasetManager.updateCompletedStep]
      by_cases batch : m.batchSize = 0
      · simp only [if_pos batch]
      · simp only [if_neg batch]
    | false =>
      simp only [Bool.false_eq_true, if_false, StreamingDatasetManager.recoverTask]
      split <;> rfl

theorem Streamed.report (h : Streamed size offsets total s) {taskId : Int} {success : Bool}
    {now : ℚ} (taken : s.step (.reportTaskStatus taskId success now) = some t) :
    Streamed size offsets total t := by
  cases taken
  have splitter := reportTaskStatus_splitter s.manager taskId success now
  refine ⟨?_, ?_, ?_, ?_⟩
  · rw [splitter]
    exact h.issued
  · rw [splitter]
    exact h.cut
  · rw [splitter]
    exact h.bounded
  · intro unasked
    rcases h.fresh unasked with ⟨todo, doing⟩
    have unknown : s.manager.doing.get? taskId = none :=
      Dict.get?_eq_none_iff.mpr (Dict.not_mem_of_items doing taskId)
    simp only [StreamingDatasetManager.reportTaskStatus, unknown]
    exact ⟨todo, doing⟩

theorem step_streamed {a : StreamAct} (h : Streamed size offsets total s)
    (admitted : s.Admitted a) (taken : s.step a = some t) : Streamed size offsets total t := by
  cases a with
  | getTask nodeType nodeId now => exact h.getTask admitted taken
  | reportTaskStatus taskId success now => exact h.report taken

/-- An admitted request gets a task of the queue, if there is one after the refill. -/
theorem Streamed.served (h : Streamed size offsets total s) {nodeType : String} {nodeId : Int}
    {now : ℚ} (admitted : s.Admitted (.getTask nodeType nodeId now)) {m : StreamingDatasetManager}
    (refill : s.manager.refill = .ok m) (queued : m.todo ≠ []) :
    ∃ task ∈ m.todo, (s.manager.getTask nodeType nodeId now).1 = .ok task := by
  have fitting : ∃ task ∈ m.todo, m.fits nodeId task = true := by
    rcases h.refill admitted with ⟨-, same, -⟩ | ⟨-, -, error, -⟩ |
      ⟨due, -, sp, -, names, -, partitions, -, same⟩
    · rw [same] at refill
      cases refill
      exact admitted.2 queued
    · rw [error] at refill
      contradiction
    · rw [same] at refill
      cases refill
      have some : 0 < s.manager.datasetSplitter.shardCount := by
        apply Nat.pos_of_ne_zero
        intro none
        rw [none, List.range_zero, List.filterMap_nil, List.map_eq_nil_iff] at names
        apply queued
        rw [names]
        rfl
      rcases (admitted.1 due).2 some with ⟨i, hi, name, turn, routes⟩
      have mem : name ∈ sp.shards.map PartitionShard.name := by
        rw [names]
        exact List.mem_filterMap.mpr ⟨i, List.mem_range.mpr hi, turn⟩
      rcases List.mem_map.mp mem with ⟨c, hc, rfl⟩
      rw [← numberStreamTasks_shards s.manager.taskType s.manager.taskId sp.shards] at hc
      rcases List.mem_map.mp hc with ⟨task, htask, rfl⟩
      exact ⟨task, htask, decide_eq_true (routes.congr partitions)⟩
  cases found : m.todo.find? (m.fits nodeId) with
  | none =>
    rcases fitting with ⟨task, mem, fits⟩
    exact absurd fits (List.find?_eq_none.mp found task mem)
  | some task =>
    refine ⟨task, List.mem_of_find?_eq_some found, ?_⟩
    simp only [StreamingDatasetManager.getTask, refill, if_neg queued,
      StreamingDatasetManager.getTaskFromTodo, found]

end Streamed

/-- Over every run of admitted requests: the shards of each partition follow one another from its
first offset on, and no two of its tasks overlap; a request gets a task of the queue if there is
one; and a bounded stream whose size is a multiple of the shard size is completed once all its
tasks are reported. -/
theorem stream_issued {taskType : TaskType} {batchSize size : Nat}
    {offsets : Dict PartitionName Int} {total : Int} {fetch : Nat}
    (multiple : 0 ≤ total → (size : Int) ∣ total) {acts : List StreamAct} {s : StreamLedger}
    (run : Run step Admitted (init (.new taskType batchSize size offsets total fetch)) acts s) :
    ((∀ t ∈ s.created, t.shard.name ∈ offsets) ∧
      ∀ p first, offsets.get? p = some first → ∃ k : Nat,
        ((s.created.map StreamTask.shard).filter fun c ↦ c.name = p).map
          (fun c ↦ (c.start, c.stop)) =
          (List.range k).map fun i : Nat ↦ (first + i * size, first + (i + 1) * size)) ∧
    ((s.created.map StreamTask.shard).Pairwise fun a b ↦ a.name = b.name → a.stop ≤ b.start) ∧
    (∀ nodeType nodeId now m, s.Admitted (.getTask nodeType nodeId now) →
      s.manager.refill = .ok m → m.todo ≠ [] →
        ∃ task ∈ m.todo, (s.manager.getTask nodeType nodeId now).1 = .ok task) ∧
    (0 ≤ total → s.asked = true → s.manager.todo = [] → s.manager.doing.items = [] →
      s.manager.completed = true) := by
  have h : Streamed size offsets total s := by
    apply run.invariant (P := Streamed size offsets total)
    · refine ⟨rfl, ⟨rfl, rfl, fun _ hc ↦ absurd hc List.not_mem_nil, ?_⟩, fun _ _ ↦ rfl,
        fun _ ↦ ⟨rfl, rfl⟩⟩
      intro p first hp
      refine ⟨0, rfl, ?_⟩
      rw [Int.natCast_zero, Int.zero_mul, Int.add_zero]
      exact hp
    · intro t u a h admitted taken
      exact step_streamed h admitted taken
  refine ⟨⟨?_, ?_⟩, ?_, ?_, ?_⟩
  · intro t ht
    apply h.cut.names
    rw [← h.issued]
    exact List.mem_map_of_mem ht
  · intro p first hp
    rcases h.cut.ranges p first hp with ⟨k, ranges, -⟩
    rw [h.issued]
    exact ⟨k, ranges⟩
  · rw [h.issued]
    exact h.cut.disjoint
  · intro nodeType nodeId now m admitted refill queued
    exact h.served admitted refill queued
  · intro positive asked todo doing
    have left := h.bounded positive (multiple positive)
    rw [asked, if_pos rfl] at left
    simp [StreamingDatasetManager.completed, StreamingDatasetSplitter.epochFinished, left, todo,
      doing]

/-- The stream of the partitions `0` and `1`. -/
def twoPartitions (total : Int) (fetch : Nat) : StreamingDatasetManager :=
  .new .training 1 2 (.ofItems [(.int 0, 1), (.int 1, 0)]) total fetch

def askBy (n : Int) : StreamAct := .getTask "worker" n 0

/-- Four records: each of two workers gets the shard of its partition. -/
theorem stream_issued_two :
    ∃ acts s, Run step Admitted (init (twoPartitions 4 0)) acts s ∧
      s.created.map StreamTask.shard = [⟨.int 0, 1, 3⟩, ⟨.int 1, 0, 2⟩] ∧
      s.manager.completed = true := by
  have eval : ([askBy 0, askBy 1, .reportTaskStatus 0 true 1, .reportTaskStatus 1 true 1].foldlM
      (fun s a ↦ if Admitted s a then step s a else none) (init (twoPartitions 4 0))).map
      (fun s ↦ decide (s.created.map StreamTask.shard = [⟨.int 0, 1, 3⟩, ⟨.int 1, 0, 2⟩] ∧
        s.asked = true ∧ s.manager.todo = [] ∧ s.manager.doing.items = [])) = some true := by
    decide +kernel
  rcases Option.map_eq_some_iff.mp eval with ⟨s, hs, holds⟩
  rcases of_decide_eq_true holds with ⟨created, asked, todo, doing⟩
  have run := run_of_guarded hs
  have completed := (stream_issued (by decide) run).2.2.2 (by decide) asked todo doing
  exact ⟨_, s, run, created, completed⟩

/-- A stream without end issues its first shards again at the second refill; a worker raises when
only the tasks of the other partition are left; and of three records in shards of two, one remains
for ever, so that the stream is never completed. -/
theorem stream_misissued :
    (∃ acts s, Run step anyStep (init (twoPartitions (-1) 4)) acts s ∧
      ∃ a ∈ s.created, ∃ b ∈ s.created, a.taskId ≠ b.taskId ∧ a.shard = b.shard) ∧
    (∃ acts s, Run step anyStep (init (twoPartitions 4 0)) acts s ∧ s.manager.todo ≠ [] ∧
      (s.manager.getTask "worker" 0 0).1 = .error .attributeError) ∧
    ∃ acts s, Run step anyStep (init (twoPartitions 3 0)) acts s ∧ s.created.length = 1 ∧
      s.manager.todo = [] ∧ s.manager.doing.items = [] ∧ s.manager.completed = false := by
  refine ⟨?_, ?_, ?_⟩
  · have eval : ([askBy 0, askBy 1, askBy 0].foldlM step (init (twoPartitions (-1) 4))).map
        (fun s ↦ decide (∃ a ∈ s.created, ∃ b ∈ s.created, a.taskId ≠ b.taskId ∧
          a.shard = b.shard)) = some true := by
      decide +kernel
    rcases Option.map_eq_some_iff.mp eval with ⟨s, hs, holds⟩
    exact ⟨_, s, run_of_foldlM hs, of_decide_eq_true holds⟩
  · have eval : ([askBy 0].foldlM step (init (twoPartitions 4 0))).map (fun s ↦
        decide (s.manager.todo ≠ []) &&
          match (s.manager.getTask "worker" 0 0).1 with
          | .error e => decide (e = .attributeError)
          | .ok _ => false) = some true := by
      decide +kernel
    rcases Option.map_eq_some_iff.mp eval with ⟨s, hs, holds⟩
    rcases Bool.and_eq_true_iff.mp holds with ⟨queued, raised⟩
    refine ⟨_, s, run_of_foldlM hs, of_decide_eq_true queued, ?_⟩
    split at raised
    · next e error => rw [error, of_decide_eq_true raised]
    · contradiction
  · have eval : ([askBy 0, .reportTaskStatus 0 true 1].foldlM step
        (init (twoPartitions 3 0))).map (fun s ↦ decide (s.created.length = 1 ∧
          s.manager.todo = [] ∧ s.manager.doing.items = [] ∧ s.manager.completed = false)) =
        some true := by
      decide +kernel
    rcases Option.map_eq_some_iff.mp eval with ⟨s, hs, holds⟩
    exact ⟨_, s, run_of_foldlM hs, of_decide_eq_true holds⟩

end StreamLedger

end ProbingBaselines.Dlrover
