import ProbingBaselines.Dlrover.BatchDatasetManager

/-!
# The number of shards that are left

`get_shard_count` (`master/shard/dataset_splitter.py:140-143`) multiplies the full shards of the
dataset by the epochs left, and `get_task_count` adds the tasks of the queue. They are compared with
the calls of `create_shards` that are still to come and with the tasks that `get_task` still hands
out: the last partial shard is not counted, and a sub-epoch is counted as a whole epoch.
-/

namespace ProbingBaselines.Dlrover

/-! ### How many shards a range has -/

theorem ceilQuotient_eq {a b : Nat} (pos : 0 < b) :
    ceilQuotient a b = a / b + if a % b = 0 then 0 else 1 := by
  have split_a : b * (a / b) + a % b = a := Nat.div_add_mod a b
  have lt : a % b < b := Nat.mod_lt a pos
  rw [ceilQuotient, Nat.div_eq_iff pos]
  split
  · next full =>
    rw [Nat.add_zero, Nat.mul_comm]
    omega
  · next partly =>
    rw [Nat.add_mul, Nat.one_mul, Nat.mul_comm]
    omega

theorem ceilQuotient_eq_div {a b : Nat} (pos : 0 < b) : ceilQuotient a b = a / b ↔ b ∣ a := by
  rw [ceilQuotient_eq pos, Nat.dvd_iff_mod_eq_zero]
  split <;> omega

theorem ceilQuotient_le {a b k : Nat} (pos : 0 < b) : ceilQuotient a b ≤ k ↔ a ≤ k * b := by
  rw [← Nat.not_lt, lt_ceilQuotient pos, Nat.not_lt]

theorem mod_of_dvd_succ {n m : Nat} (h : m ∣ n + 1) : n % m = m - 1 := by
  rcases h with ⟨k, hk⟩
  cases k with
  | zero => omega
  | succ k =>
    have pos : 0 < m := Nat.pos_of_ne_zero fun zero ↦ by rw [zero, Nat.zero_mul] at hk; omega
    have eq : n = m * k + (m - 1) := by
      rw [Nat.mul_succ] at hk
      omega
    rw [eq, Nat.mul_add_mod, Nat.mod_eq_of_lt (Nat.sub_lt pos Nat.one_pos)]

theorem length_fullShards (name : String) (size startIdx num : Nat) :
    (fullShards name size startIdx num).length = num := by
  induction num generalizing startIdx with
  | zero => rfl
  | succ num ih => rw [fullShards, List.length_cons, ih]

theorem length_createShardsWithRange {size : Nat} (pos : 0 < size) (name : String)
    (startIdx endIdx : Nat) :
    (createShardsWithRange name size startIdx endIdx).length =
      ceilQuotient (endIdx - startIdx) size := by
  have split_len : (endIdx - startIdx) / size * size + (endIdx - startIdx) % size =
      endIdx - startIdx := Nat.div_add_mod' _ _
  have left : endIdx - (startIdx + (endIdx - startIdx) / size * size) =
      (endIdx - startIdx) % size := by omega
  rw [createShardsWithRange, left, Nat.mod_mod, List.length_append, length_fullShards,
    ceilQuotient_eq pos]
  by_cases none : (endIdx - startIdx) % size = 0
  · rw [if_neg (not_not.mpr none), if_pos none, List.length_nil]
  · rw [if_pos none, if_neg none, List.length_singleton]

namespace TableDatasetSplitter

variable {s : TableDatasetSplitter}

theorem length_epochShards_of_fits (fits : s.shardCount ≤ s.maxShardCount) :
    s.epochShards.length = s.shardCount := by
  rw [epochShards_of_fits fits, length_createShardsWithRange s.shardSize_pos, Nat.sub_zero,
    shardCount]

theorem length_epochShards_of_huge (huge : s.maxShardCount < s.shardCount) :
    s.epochShards.length = ceilQuotient (s.subepochRange.2 - s.subepochRange.1) s.shardSize := by
  rw [epochShards, if_neg (Nat.not_le.mpr huge), length_createShardsWithRange s.shardSize_pos]

/-- A sub-epoch has no more shards than are allowed in the memory. -/
theorem length_epochShards_le (huge : s.maxShardCount < s.shardCount) :
    s.epochShards.length ≤ s.maxShardCount := by
  rw [length_epochShards_of_huge huge, ceilQuotient_le s.shardSize_pos]
  simp only [subepochRange]
  omega

/-- A huge dataset has at least as many full shards as are allowed in the memory. -/
theorem maxShardCount_le (huge : s.maxShardCount < s.shardCount) :
    s.maxShardCount ≤ s.datasetSize / s.shardSize := by
  have count : s.shardCount ≤ s.datasetSize / s.shardSize + 1 := by
    rw [shardCount, ceilQuotient_eq s.shardSize_pos]
    split <;> omega
  omega

/-- When there are no more full shards than that, the last sub-epoch is one partial shard. -/
theorem length_last_epochShards (set : s.SubepochsSet) (huge : s.maxShardCount < s.shardCount)
    (full : s.datasetSize / s.shardSize = s.maxShardCount)
    (last : s.epoch % s.subepochNumPerEpoch = s.subepochNumPerEpoch - 1) :
    s.epochShards.length ≤ 1 := by
  have pos := s.maxShardCount_pos
  have split_size : s.shardSize * s.maxShardCount + s.datasetSize % s.shardSize =
      s.datasetSize := full ▸ Nat.div_add_mod _ _
  have lt : s.datasetSize % s.shardSize < s.shardSize := Nat.mod_lt _ s.shardSize_pos
  have one : 1 < s.subepochNumPerEpoch := by
    rw [set huge, lt_ceilQuotient pos]
    omega
  rw [length_epochShards_of_huge huge, ceilQuotient_le s.shardSize_pos]
  simp only [subepochRange, last]
  have block : s.maxShardCount * s.shardSize ≤
      (s.subepochNumPerEpoch - 1) * (s.maxShardCount * s.shardSize) :=
    Nat.le_mul_of_pos_left _ (by omega)
  rw [Nat.mul_comm] at split_size
  omega

end TableDatasetSplitter

/-! ### The calls that are left -/

namespace DatasetSplitter

def shardSize : DatasetSplitter → Nat
  | table s => s.shardSize
  | text s => s.shardSize

/-- `DatasetSplitter.get_shard_count`. -/
def getShardCount (s : DatasetSplitter) : Int :=
  let remainEpoch := s.numEpochs - s.epoch
  let shardCountPerEpoch := s.datasetSize / s.shardSize
  shardCountPerEpoch * remainEpoch

/-- The splitter after one call of `create_shards` for each random source. -/
def afterCalls (s : DatasetSplitter) (rands : List (Nat → Nat)) : DatasetSplitter :=
  rands.foldl (fun s rand ↦ (s.createShards rand).2) s

/-- The calls of `create_shards` until the epochs are finished produce these shards. -/
inductive Produces : DatasetSplitter → List Shard → Prop where
  | finished {s : DatasetSplitter} (finished : s.epochFinished = true) : Produces s []
  | call {s : DatasetSplitter} {shards : List Shard} (rand : Nat → Nat)
      (unfinished : s.epochFinished = false) (rest : Produces (s.createShards rand).2 shards) :
      Produces s ((s.createShards rand).1 ++ shards)

/-- The number of shards that the next call produces. -/
def epochLength : DatasetSplitter → Nat
  | table s => s.epochShards.length
  | text s => ceilQuotient s.datasetSize s.shardSize

/-- The number of shards that `calls` calls produce from epoch `e` on. -/
def shardsFrom (s : DatasetSplitter) : Nat → Nat → Nat
  | _, 0 => 0
  | e, calls + 1 => (s.setEpoch e).epochLength + s.shardsFrom (e + 1) calls

/-- The number of calls until the epochs are finished, when they ever are. -/
def callsLeft (s : DatasetSplitter) : Nat := (s.numEpochs - s.epoch).toNat

theorem length_createShards {s : DatasetSplitter} (h : s.WellFormed) (rand : Nat → Nat) :
    (s.createShards rand).1.length = s.epochLength := by
  cases s with
  | table s =>
    rcases s.createShards_spec h.2 rand with ⟨shards, perm, eq⟩
    simp only [createShards, eq, epochLength]
    exact perm.length_eq
  | text s =>
    simp only [createShards, TextDatasetSplitter.createShards, epochLength,
      TextDatasetSplitter.createShardsWithIndices, TextDatasetSplitter.length_shardsAt,
      List.length_map, List.length_range]

/-- A call changes nothing that the later epochs depend on. -/
theorem epochLength_createShards (s : DatasetSplitter) (rand : Nat → Nat) (e : Nat) :
    ((s.createShards rand).2.setEpoch e).epochLength = (s.setEpoch e).epochLength := by
  cases s <;> rfl

theorem shardsFrom_createShards (s : DatasetSplitter) (rand : Nat → Nat) (e calls : Nat) :
    (s.createShards rand).2.shardsFrom e calls = s.shardsFrom e calls := by
  induction calls generalizing e with
  | zero => rfl
  | succ calls ih => rw [shardsFrom, shardsFrom, ih, epochLength_createShards]

theorem setEpoch_self (s : DatasetSplitter) : s.setEpoch s.epoch = s := by
  cases s <;> rfl

/-- The number of shards that the remaining calls produce. -/
def shardsLeft (s : DatasetSplitter) : Nat := s.shardsFrom s.epoch s.callsLeft

theorem shardsLeft_finished {s : DatasetSplitter} (finished : s.epochFinished = true) :
    s.shardsLeft = 0 := by
  have none : s.callsLeft = 0 := by
    rw [epochFinished_iff] at finished
    rw [callsLeft]
    omega
  rw [shardsLeft, none, shardsFrom]

theorem callsLeft_call {s : DatasetSplitter} (finite : 0 < s.numEpochs)
    (unfinished : s.epochFinished = false) (rand : Nat → Nat) :
    s.callsLeft = (s.createShards rand).2.callsLeft + 1 := by
  rcases s.createShards_frame rand with ⟨epoch, numEpochs, -, -⟩
  have some : ¬(0 < s.numEpochs ∧ s.numEpochs ≤ s.epoch) := by
    rw [← epochFinished_iff, unfinished]
    exact Bool.false_ne_true
  rw [callsLeft, callsLeft, epoch, numEpochs]
  omega

theorem shardsLeft_call {s : DatasetSplitter} (finite : 0 < s.numEpochs)
    (unfinished : s.epochFinished = false) (rand : Nat → Nat) :
    s.shardsLeft = s.epochLength + (s.createShards rand).2.shardsLeft := by
  rw [shardsLeft, shardsLeft, callsLeft_call finite unfinished rand, shardsFrom,
    (s.createShards_frame rand).1, shardsFrom_createShards, setEpoch_self]

/-- However the remaining calls shuffle, they produce that many shards. -/
theorem Produces.length_eq {s : DatasetSplitter} {shards : List Shard} (h : s.Produces shards)
    (wf : s.WellFormed) (finite : 0 < s.numEpochs) : shards.length = s.shardsLeft := by
  induction h with
  | finished finished => rw [shardsLeft_finished finished, List.length_nil]
  | call rand unfinished rest ih =>
    have later := ih (wf.createShards rand) (by rw [(createShards_frame _ rand).2.1]; exact finite)
    rw [List.length_append, later, length_createShards wf, ← shardsLeft_call finite unfinished]

theorem exists_produces {s : DatasetSplitter} (finite : 0 < s.numEpochs) :
    ∃ shards, s.Produces shards := by
  induction calls : s.callsLeft generalizing s with
  | zero =>
    refine ⟨[], .finished (epochFinished_iff.mpr ⟨finite, ?_⟩)⟩
    rw [callsLeft] at calls
    omega
  | succ left ih =>
    have unfinished : s.epochFinished = false := by
      rw [← Bool.not_eq_true, epochFinished_iff]
      rw [callsLeft] at calls
      omega
    have less := callsLeft_call finite unfinished fun i ↦ i
    rw [← (s.createShards_frame fun i ↦ i).2.1] at finite
    rcases ih finite (by omega) with ⟨shards, rest⟩
    exact ⟨_, .call _ unfinished rest⟩

/-! ### When the count is exact -/

/-- The full shards are all shards of an epoch and epochs are left, or none is left, or the calls
have gone on beyond the last epoch and there are no full shards to count. -/
def CountsWhole (size shardSize : Nat) (remainEpoch : Int) : Prop :=
  remainEpoch = 0 ∨ 0 < remainEpoch ∧ shardSize ∣ size ∨ remainEpoch < 0 ∧ size < shardSize

/-- When the epochs counted have as many shards each as the dataset has full ones. -/
def CountsExactly : DatasetSplitter → Prop
  | table s =>
    if s.shardCount ≤ s.maxShardCount then
      CountsWhole s.datasetSize s.shardSize (s.numEpochs - s.epoch)
    else s.numEpochs = s.epoch ∨
      (s.epoch < s.numEpochs ∧ s.maxShardCount = 1 ∧ s.datasetSize / s.shardSize = 1)
  | text s => CountsWhole s.datasetSize s.shardSize (s.numEpochs - s.epoch)

theorem countsWhole_iff {size shardSize : Nat} (pos : 0 < shardSize) (remainEpoch : Int) :
    ((size / shardSize : Nat) : Int) * remainEpoch =
        (ceilQuotient size shardSize * remainEpoch.toNat : Nat) ↔
      CountsWhole size shardSize remainEpoch := by
  rcases lt_trichotomy remainEpoch 0 with beyond | none | some
  · rw [Int.toNat_of_nonpos (Int.le_of_lt beyond), Nat.mul_zero, Nat.cast_zero, mul_eq_zero,
      Nat.cast_eq_zero, Nat.div_eq_zero_iff, CountsWhole]
    omega
  · rw [none, CountsWhole]
    simp
  · obtain ⟨n, rfl⟩ := Int.eq_ofNat_of_zero_le (Int.le_of_lt some)
    rw [Int.toNat_natCast, ← Nat.cast_mul, Nat.cast_inj, Nat.mul_left_inj (by omega), eq_comm,
      ceilQuotient_eq_div pos, CountsWhole]
    omega

theorem shardsFrom_const {s : DatasetSplitter} {length : Nat}
    (const : ∀ e, (s.setEpoch e).epochLength = length) (e calls : Nat) :
    s.shardsFrom e calls = length * calls := by
  induction calls generalizing e with
  | zero => rfl
  | succ calls ih => rw [shardsFrom, const, ih, Nat.mul_succ, Nat.add_comm]

/-- All epochs but the last at the most, and the last. -/
theorem shardsFrom_le {s : DatasetSplitter} {most : Nat}
    (le : ∀ e, (s.setEpoch e).epochLength ≤ most) (e calls : Nat) :
    s.shardsFrom e (calls + 1) ≤ most * calls + (s.setEpoch (e + calls)).epochLength := by
  induction calls generalizing e with
  | zero => rw [shardsFrom, shardsFrom, Nat.mul_zero, Nat.zero_add, Nat.add_zero, Nat.add_zero]
  | succ calls ih =>
    have later := ih (e + 1)
    have first := le e
    rw [shardsFrom, Nat.mul_succ]
    rw [Nat.add_right_comm, Nat.add_assoc] at later
    omega

/-- The epochs of a huge dataset are whole rounds of sub-epochs. -/
def WholeRounds : DatasetSplitter → Prop
  | table s => s.maxShardCount < s.shardCount → (s.subepochNumPerEpoch : Int) ∣ s.numEpochs
  | text _ => True

theorem Constructed.wholeRounds {s : DatasetSplitter} (h : Constructed s) : s.WholeRounds := by
  cases h with
  | table datasetName datasetSize shardSize numEpochs shuffle maxShardCount hs hm =>
    intro huge
    rw [(TableDatasetSplitter.new_configured datasetName datasetSize shardSize numEpochs
      shuffle maxShardCount hs hm).numEpochs_eq, if_pos huge]
    exact Dvd.intro_left _ rfl
  | text => trivial

theorem WholeRounds.createShards {s : DatasetSplitter} (h : s.WholeRounds) (rand : Nat → Nat) :
    (s.createShards rand).2.WholeRounds := by
  cases s with
  | table s => exact h
  | text s => trivial

/-- In a huge dataset a sub-epoch is counted with at least as many shards as it can have, and the
last one has fewer unless each has one. -/
theorem getShardCount_huge {s : TableDatasetSplitter} (huge : s.maxShardCount < s.shardCount)
    (set : s.SubepochsSet) (rounds : (table s).WholeRounds) :
    (table s).getShardCount = (table s).shardsLeft ↔ (table s).CountsExactly := by
  have most : ∀ e, ((table s).setEpoch e).epochLength ≤ s.maxShardCount := fun e ↦
    TableDatasetSplitter.length_epochShards_le (s := { s with epoch := e }) huge
  have enough := TableDatasetSplitter.maxShardCount_le huge
  have pos := s.maxShardCount_pos
  rw [CountsExactly, if_neg (Nat.not_le.mpr huge)]
  simp only [getShardCount, datasetSize, shardSize, numEpochs, epoch, shardsLeft, callsLeft]
  generalize full_eq : s.datasetSize / s.shardSize = full at *
  rcases lt_trichotomy (s.numEpochs - s.epoch) 0 with beyond | none | some
  · -- fewer than none are counted
    rw [Int.toNat_of_nonpos (Int.le_of_lt beyond), shardsFrom, Nat.cast_zero, mul_eq_zero,
      Nat.cast_eq_zero]
    omega
  · rw [none, Int.toNat_zero, shardsFrom, Int.mul_zero]
    omega
  · obtain ⟨calls, left⟩ : ∃ calls : Nat, s.numEpochs - s.epoch = (calls + 1 : Nat) :=
      ⟨(s.numEpochs - s.epoch).toNat - 1, by omega⟩
    rw [left, Int.toNat_natCast, ← Nat.cast_mul, Nat.cast_inj]
    have bound := shardsFrom_le most s.epoch calls
    constructor
    · intro exactly
      right
      have le : full * (calls + 1) ≤ s.maxShardCount * (calls + 1) := by
        rw [exactly, Nat.mul_succ]
        have last := most (s.epoch + calls)
        omega
      have full_le : full ≤ s.maxShardCount := Nat.le_of_mul_le_mul_right le calls.succ_pos
      have eq : full = s.maxShardCount := by omega
      have index : (s.epoch + calls) % s.subepochNumPerEpoch = s.subepochNumPerEpoch - 1 := by
        apply mod_of_dvd_succ
        have succ : ((s.epoch + calls + 1 : Nat) : Int) = s.numEpochs := by omega
        rw [← Int.natCast_dvd_natCast, succ]
        exact rounds huge
      have one := TableDatasetSplitter.length_last_epochShards
        (s := { s with epoch := s.epoch + calls }) set huge (full_eq.trans eq) index
      rw [exactly.symm, eq, Nat.mul_succ] at bound
      simp only [setEpoch, epochLength] at bound
      omega
    · intro ones
      have single : ∀ e, ((table s).setEpoch e).epochLength = 1 := by
        intro e
        have some : ((table s).setEpoch e).epochLength ≠ 0 := by
          intro none
          have empty := (TableDatasetSplitter.epochShards_eq_nil
            (s := { s with epoch := e }) set).mp (List.length_eq_zero_iff.mp none)
          have zero : s.datasetSize = 0 := empty
          rw [zero, Nat.zero_div] at full_eq
          omega
        have le := most e
        omega
      rw [shardsFrom_const single]
      have full_one : full = 1 := by omega
      rw [full_one]

theorem getShardCount_exact_iff {s : DatasetSplitter} (wf : s.WellFormed) (rounds : s.WholeRounds) :
    s.getShardCount = s.shardsLeft ↔ s.CountsExactly := by
  cases s with
  | table s =>
    by_cases huge : s.maxShardCount < s.shardCount
    · exact getShardCount_huge huge wf.1 rounds
    · have fits : s.shardCount ≤ s.maxShardCount := Nat.not_lt.mp huge
      have const : ∀ e, ((table s).setEpoch e).epochLength = s.shardCount := fun e ↦
        TableDatasetSplitter.length_epochShards_of_fits (s := { s with epoch := e }) fits
      rw [CountsExactly, if_pos fits, shardsLeft, shardsFrom_const const, ←
        countsWhole_iff s.shardSize_pos]
      rfl
  | text s =>
    have const : ∀ e, ((text s).setEpoch e).epochLength = ceilQuotient s.datasetSize s.shardSize :=
      fun _ ↦ rfl
    rw [CountsExactly, shardsLeft, shardsFrom_const const, ← countsWhole_iff s.shardSize_pos]
    rfl

/-- What holds of a constructed splitter with epochs holds after any number of calls. -/
theorem afterCalls_spec {s : DatasetSplitter} (wf : s.WellFormed) (rounds : s.WholeRounds)
    (finite : 0 < s.numEpochs) (rands : List (Nat → Nat)) :
    (s.afterCalls rands).WellFormed ∧ (s.afterCalls rands).WholeRounds ∧
      0 < (s.afterCalls rands).numEpochs := by
  induction rands generalizing s with
  | nil => exact ⟨wf, rounds, finite⟩
  | cons rand rands ih =>
    apply ih (wf.createShards rand) (rounds.createShards rand)
    rw [(s.createShards_frame rand).2.1]
    exact finite

end DatasetSplitter

/-! ### The tasks that are left -/

namespace BatchDatasetManager

/-- `DatasetManger.get_task_count`. -/
def getTaskCount (m : BatchDatasetManager) : Int :=
  let epochTaskCount := m.datasetSplitter.getShardCount
  m.todo.length + epochTaskCount

/-- The calls of `get_task` hand out these tasks until the queue and the epochs are used up. -/
inductive HandsOut : BatchDatasetManager → List Task → Prop where
  | exhausted {m : BatchDatasetManager} (none : m.todo = [])
      (finished : m.datasetSplitter.epochFinished = true) : HandsOut m []
  | task {m : BatchDatasetManager} {tasks : List Task} (nodeType : String) (nodeId : Int) (now : ℚ)
      (rand : Nat → Nat) (some : (m.startEpoch rand).todo ≠ [])
      (rest : HandsOut (m.getTask nodeType nodeId now rand).2 tasks) :
      HandsOut m ((m.getTask nodeType nodeId now rand).1 :: tasks)
  -- an epoch without shards
  | invalid {m : BatchDatasetManager} {tasks : List Task} (nodeType : String) (nodeId : Int)
      (now : ℚ) (rand : Nat → Nat) (none : (m.startEpoch rand).todo = [])
      (rest : HandsOut (m.getTask nodeType nodeId now rand).2 tasks) : HandsOut m tasks

/-- The tasks that are queued or still to be created. -/
def tasksLeft (m : BatchDatasetManager) : Nat := m.todo.length + m.datasetSplitter.shardsLeft

/-- The splitter of the manager is one that counts for it. -/
structure Counting (m : BatchDatasetManager) : Prop where
  wellFormed : m.datasetSplitter.WellFormed
  finite : 0 < m.datasetSplitter.numEpochs

theorem length_newTasks {m : BatchDatasetManager} (shards : List Shard) (first : Nat) :
    (numberTasks m.taskType first shards).length = shards.length := by
  rw [← List.length_map Task.shard, numberTasks_shards]

theorem Counting.startEpoch {m : BatchDatasetManager} (h : m.Counting) (rand : Nat → Nat) :
    (m.startEpoch rand).Counting ∧ (m.startEpoch rand).tasksLeft = m.tasksLeft := by
  rcases m.startEpoch_cases rand with ⟨none, unfinished, eq, new⟩ | ⟨-, eq, -⟩
  · rw [eq]
    constructor
    · refine ⟨h.wellFormed.createShards rand, ?_⟩
      simp only
      rw [(DatasetSplitter.createShards_frame _ rand).2.1]
      exact h.finite
    · simp only [tasksLeft, new, none, length_newTasks]
      rw [DatasetSplitter.length_createShards h.wellFormed,
        ← DatasetSplitter.shardsLeft_call h.finite unfinished, List.length_nil, Nat.zero_add]
  · rw [eq]
    exact ⟨h, rfl⟩

/-- A call that finds the queue empty changes only the epoch. -/
theorem getTask_of_nil {m : BatchDatasetManager} {rand : Nat → Nat}
    (none : (m.startEpoch rand).todo = []) (nodeType : String) (nodeId : Int) (now : ℚ) :
    (m.getTask nodeType nodeId now rand).2 = m.startEpoch rand := by
  simp only [getTask, none]

/-- A call that finds a task takes it off the queue. -/
theorem getTask_of_cons {m : BatchDatasetManager} {rand : Nat → Nat}
    (some : (m.startEpoch rand).todo ≠ []) (nodeType : String) (nodeId : Int) (now : ℚ) :
    (m.getTask nodeType nodeId now rand).2.datasetSplitter =
        (m.startEpoch rand).datasetSplitter ∧
      (m.getTask nodeType nodeId now rand).2.todo.length + 1 =
        (m.startEpoch rand).todo.length := by
  cases h : (m.startEpoch rand).todo with
  | nil => exact absurd h some
  | cons task todo =>
    simp only [getTask, h, true_and]
    rfl

theorem HandsOut.length_eq {m : BatchDatasetManager} {tasks : List Task} (h : m.HandsOut tasks)
    (counting : m.Counting) : tasks.length = m.tasksLeft := by
  induction h with
  | exhausted none finished =>
    rw [tasksLeft, none, DatasetSplitter.shardsLeft_finished finished]
    rfl
  | @task m _ nodeType nodeId now rand some rest ih =>
    rcases counting.startEpoch rand with ⟨start, eq⟩
    rcases getTask_of_cons some nodeType nodeId now with ⟨splitter, length⟩
    have later := ih ⟨splitter ▸ start.wellFormed, splitter ▸ start.finite⟩
    rw [List.length_cons, later, ← eq, tasksLeft, tasksLeft, splitter]
    omega
  | invalid nodeType nodeId now rand none rest ih =>
    rcases counting.startEpoch rand with ⟨start, eq⟩
    rw [getTask_of_nil none] at ih
    rw [ih start, eq]

theorem exists_handsOut {m : BatchDatasetManager} (counting : m.Counting) :
    ∃ tasks, m.HandsOut tasks := by
  induction work : m.tasksLeft + m.datasetSplitter.callsLeft using Nat.strong_induction_on
    generalizing m with
  | _ work ih =>
    rcases counting.startEpoch fun i ↦ i with ⟨start, total⟩
    by_cases some : (m.startEpoch fun i ↦ i).todo = []
    · rcases m.startEpoch_cases fun i ↦ i with ⟨-, unfinished, eq, -⟩ | ⟨used, eq, -⟩
      · have fewer := DatasetSplitter.callsLeft_call counting.finite unfinished fun i ↦ i
        have splitter : (m.startEpoch fun i ↦ i).datasetSplitter =
            (m.datasetSplitter.createShards fun i ↦ i).2 := by rw [eq]
        rw [← splitter] at fewer
        rcases ih _ (by omega) start rfl with ⟨tasks, rest⟩
        rw [← getTask_of_nil some "" 0 0] at rest
        exact ⟨tasks, .invalid "" 0 0 _ some rest⟩
      · rw [eq] at some
        refine ⟨[], .exhausted some ?_⟩
        rw [← Bool.not_eq_false]
        exact fun unfinished ↦ used ⟨some, unfinished⟩
    · have no_more : (m.startEpoch fun i ↦ i).datasetSplitter.callsLeft ≤
          m.datasetSplitter.callsLeft := by
        rcases m.startEpoch_cases fun i ↦ i with ⟨-, unfinished, eq, -⟩ | ⟨-, eq, -⟩
        · rw [eq, DatasetSplitter.callsLeft_call counting.finite unfinished fun i ↦ i]
          exact Nat.le_succ _
        · rw [eq]
      rcases getTask_of_cons some "" 0 0 with ⟨splitter, length⟩
      have next : (m.getTask "" 0 0 fun i ↦ i).2.Counting :=
        ⟨splitter ▸ start.wellFormed, splitter ▸ start.finite⟩
      have fewer : (m.getTask "" 0 0 fun i ↦ i).2.tasksLeft + 1 = m.tasksLeft := by
        rw [← total, tasksLeft, tasksLeft, splitter]
        omega
      rw [← splitter] at no_more
      rcases ih _ (by omega) next rfl with ⟨tasks, rest⟩
      exact ⟨_, .task "" 0 0 _ some rest⟩

end BatchDatasetManager

/-! ### The counts -/

namespace DatasetSplitter

/-- Of any splitter with epochs and after any number of calls: both counts are exact just when the
epochs left have no partial shard and are not cut into sub-epochs of several shards. -/
theorem getShardCount_eq_iff {s : DatasetSplitter} (constructed : s.Constructed)
    (finite : 0 < s.numEpochs) (rands : List (Nat → Nat)) :
    ((∃ shards, (s.afterCalls rands).Produces shards) ∧
      ∀ shards, (s.afterCalls rands).Produces shards →
        ((s.afterCalls rands).getShardCount = shards.length ↔
          (s.afterCalls rands).CountsExactly)) ∧
    ∀ m : BatchDatasetManager, m.datasetSplitter = s.afterCalls rands →
      (∃ tasks, m.HandsOut tasks) ∧
      ∀ tasks, m.HandsOut tasks →
        (m.getTaskCount = tasks.length ↔ (s.afterCalls rands).CountsExactly) := by
  rcases afterCalls_spec constructed.wellFormed constructed.wholeRounds finite rands with
    ⟨wf, rounds, some⟩
  refine ⟨⟨exists_produces some, ?_⟩, ?_⟩
  · intro shards h
    rw [h.length_eq wf some, getShardCount_exact_iff wf rounds]
  · intro m splitter
    have counting : m.Counting := ⟨splitter ▸ wf, splitter ▸ some⟩
    refine ⟨BatchDatasetManager.exists_handsOut counting, ?_⟩
    intro tasks h
    rw [h.length_eq counting, BatchDatasetManager.tasksLeft, BatchDatasetManager.getTaskCount,
      splitter, Nat.cast_add, add_right_inj, getShardCount_exact_iff wf rounds]

/-- Ten records in shards of three: three shards are counted and four are produced. -/
theorem getShardCount_partial :
    ∃ s : DatasetSplitter, s.Constructed ∧ 0 < s.numEpochs ∧
      ∃ shards, s.Produces shards ∧ s.getShardCount ≠ shards.length := by
  refine ⟨_, .table "d" 10 3 1 false 5 (Nat.succ_pos 2) (Nat.succ_pos 4), by decide, _,
    .call (fun i ↦ i) (by decide) (.finished (by decide)), by decide⟩

/-- Ten records in shards of five, twice. -/
theorem getShardCount_whole :
    ∃ tasks,
      (BatchDatasetManager.new .training 1
        (.table (.new "d" 10 5 2 false 5 (Nat.succ_pos 4) (Nat.succ_pos 4)))
        Nat.one_pos).HandsOut tasks ∧ tasks.length = 4 := by
  have counts := (getShardCount_eq_iff
    (.table "d" 10 5 2 false 5 (Nat.succ_pos 4) (Nat.succ_pos 4)) (by decide) []).2
    (.new .training 1 _ Nat.one_pos) rfl
  rcases counts.1 with ⟨tasks, h⟩
  have exactly := (counts.2 tasks h).mpr (.inr (.inl (by decide)))
  exact ⟨tasks, h, Nat.cast_inj.mp exactly.symm⟩

end DatasetSplitter

end ProbingBaselines.Dlrover
