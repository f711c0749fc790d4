import Mathlib.Data.List.Basic
import Mathlib.Data.Nat.Count
import Mathlib.Data.Int.CardIntervalMod

/-!
# Splitting a static dataset into shards

`TableDatasetSplitter` and `TextDatasetSplitter` (`master/shard/dataset_splitter.py:26-324`). A
table is cut into index ranges; one with more shards than `max_shard_count` is cut into sub-epochs,
and the number of epochs is multiplied accordingly. A text dataset may also carry the shuffled line
numbers of each shard. Sizes are below `2 ^ 53`, where `math.ceil` of the float quotient of two
integers is the exact ceiling.
-/

namespace ProbingBaselines.Dlrover

structure Shard where
  name : String
  start : Int
  stop : Int
  recordIndices : Option (List Nat)
  deriving DecidableEq

/-- Record `i` is in the index range of the shard. -/
def Shard.Covers (shard : Shard) (i : Nat) : Prop := shard.start ≤ i ∧ (i : Int) < shard.stop

instance (shard : Shard) (i : Nat) : Decidable (shard.Covers i) :=
  inferInstanceAs (Decidable (_ ∧ _))

/-- `math.ceil(a / b)`. -/
def ceilQuotient (a b : Nat) : Nat := (a + b - 1) / b

theorem lt_ceilQuotient {a b k : Nat} (pos : 0 < b) : k < ceilQuotient a b ↔ k * b < a := by
  rw [ceilQuotient, Nat.lt_iff_add_one_le, Nat.le_div_iff_mul_le pos, Nat.add_mul, Nat.one_mul]
  omega

/-! ### Shuffling -/

/-- `random.shuffle`: from the last place down, each element changes places with one at or before
it; `rand` is the random source. -/
def shuffle {α : Type} (rand : Nat → Nat) (xs : List α) : List α :=
  ((List.range' 1 (xs.length - 1)).reverse.foldl
    (fun (ys : Array α) i ↦ ys.swapIfInBounds i (rand i % (i + 1))) xs.toArray).toList

theorem swapIfInBounds_perm {α : Type} (xs : Array α) (i j : Nat) :
    (xs.swapIfInBounds i j).Perm xs := by
  unfold Array.swapIfInBounds
  split
  · split
    · exact Array.swap_perm _ _
    · exact .refl _
  · exact .refl _

theorem shuffle_perm {α : Type} (rand : Nat → Nat) (xs : List α) : (shuffle rand xs).Perm xs := by
  have fold : ∀ (is : List Nat) (ys : Array α), ys.toList.Perm xs →
      (is.foldl (fun (ys : Array α) i ↦ ys.swapIfInBounds i (rand i % (i + 1))) ys).toList.Perm
        xs := by
    intro is
    induction is with
    | nil => exact fun ys h ↦ h
    | cons i is ih =>
      intro ys h
      apply ih
      exact (swapIfInBounds_perm ys i _).toList.trans h
  exact fold _ _ (.refl _)

/-! ### Tables -/

/-- `num` shards of `size` records from `startIdx` on. -/
def fullShards (name : String) (size : Nat) : Nat → Nat → List Shard
  | _, 0 => []
  | startIdx, num + 1 =>
    ⟨name, startIdx, (startIdx + size : Nat), none⟩ :: fullShards name size (startIdx + size) num

/-- `dataset_splitter.py:234-256`; no caller passes a `startIdx` beyond `endIdx`. -/
def createShardsWithRange (name : String) (size startIdx endIdx : Nat) : List Shard :=
  let numShards := (endIdx - startIdx) / size
  let lastIdx := startIdx + numShards * size
  let numRecordsLeft := (endIdx - lastIdx) % size
  fullShards name size startIdx numShards ++
    if numRecordsLeft ≠ 0 then [⟨name, lastIdx, (lastIdx + numRecordsLeft : Nat), none⟩] else []

structure TableDatasetSplitter where
  datasetName : String
  datasetSize : Nat
  shardSize : Nat
  numEpochs : Int
  shuffle : Bool
  maxShardCount : Nat
  subepochNumPerEpoch : Nat
  shards : List Shard
  epoch : Nat
  shardSize_pos : 0 < shardSize
  maxShardCount_pos : 0 < maxShardCount

namespace TableDatasetSplitter

def shardCount (s : TableDatasetSplitter) : Nat := ceilQuotient s.datasetSize s.shardSize

/-- `_split_epoch_for_huge_dataset`. -/
def splitEpochForHugeDataset (s : TableDatasetSplitter) : TableDatasetSplitter :=
  if s.maxShardCount < s.shardCount then
    let subepochNumPerEpoch := ceilQuotient s.shardCount s.maxShardCount
    { s with
      subepochNumPerEpoch := subepochNumPerEpoch
      numEpochs := s.numEpochs * subepochNumPerEpoch }
  else s

/-- `TableDatasetSplitter.__init__`. -/
def new (datasetName : String) (datasetSize shardSize : Nat) (numEpochs : Int) (shuffle : Bool)
    (maxShardCount : Nat) (hs : 0 < shardSize) (hm : 0 < maxShardCount) : TableDatasetSplitter :=
  splitEpochForHugeDataset
    ⟨datasetName, datasetSize, shardSize, numEpochs, shuffle, maxShardCount, 0, [], 0, hs, hm⟩

/-- The index range of the next sub-epoch; `dataset_splitter.py:223-227`. -/
def subepochRange (s : TableDatasetSplitter) : Nat × Nat :=
  let subepochIdx := s.epoch % s.subepochNumPerEpoch
  let subepochSize := s.maxShardCount * s.shardSize
  let startIdx := subepochIdx * subepochSize
  (startIdx, min (startIdx + subepochSize) s.datasetSize)

/-- `TableDatasetSplitter.create_shards`; a dataset that fits keeps its shards from epoch to
epoch and shuffles them in place. -/
def createShards (s : TableDatasetSplitter) (rand : Nat → Nat) :
    List Shard × TableDatasetSplitter :=
  let shards :=
    if s.shardCount ≤ s.maxShardCount then
      if s.shards = [] then createShardsWithRange s.datasetName s.shardSize 0 s.datasetSize
      else s.shards
    else createShardsWithRange s.datasetName s.shardSize s.subepochRange.1 s.subepochRange.2
  let shards := if s.shuffle then Dlrover.shuffle rand shards else shards
  (shards, { s with shards := shards, epoch := s.epoch + 1 })

/-- The shards of the next epoch before they are shuffled. -/
def epochShards (s : TableDatasetSplitter) : List Shard :=
  if s.shardCount ≤ s.maxShardCount then
    createShardsWithRange s.datasetName s.shardSize 0 s.datasetSize
  else createShardsWithRange s.datasetName s.shardSize s.subepochRange.1 s.subepochRange.2

/-- The shards kept from epoch to epoch are those of the whole dataset in some order. -/
def Kept (s : TableDatasetSplitter) : Prop :=
  s.shards = [] ∨ s.maxShardCount < s.shardCount ∨ s.shards.Perm s.epochShards

theorem createShards_spec (s : TableDatasetSplitter) (kept : s.Kept) (rand : Nat → Nat) :
    ∃ shards, shards.Perm s.epochShards ∧
      s.createShards rand = (shards, { s with shards := shards, epoch := s.epoch + 1 }) := by
  have shuffled : ∀ l : List Shard,
      (if s.shuffle then Dlrover.shuffle rand l else l).Perm l := by
    intro l
    split
    · exact shuffle_perm rand l
    · exact .refl l
  refine ⟨_, (shuffled _).trans ?_, rfl⟩
  unfold epochShards
  split
  · next fits =>
    split
    · exact .refl _
    · next some =>
      rcases kept with none | huge | perm
      · exact absurd none some
      · omega
      · rw [epochShards, if_pos fits] at perm
        exact perm
  · exact .refl _

theorem epochShards_of_fits {s : TableDatasetSplitter} (fits : s.shardCount ≤ s.maxShardCount) :
    s.epochShards = createShardsWithRange s.datasetName s.shardSize 0 s.datasetSize :=
  if_pos fits

theorem Kept.next {s : TableDatasetSplitter} {shards : List Shard}
    (perm : shards.Perm s.epochShards) (epoch : Nat) :
    Kept { s with shards := shards, epoch := epoch } := by
  by_cases huge : s.maxShardCount < s.shardCount
  · exact .inr (.inl huge)
  · have fits : s.shardCount ≤ s.maxShardCount := Nat.not_lt.mp huge
    rw [epochShards_of_fits fits] at perm
    right
    right
    rw [@epochShards_of_fits { s with shards := shards, epoch := epoch } fits]
    exact perm

end TableDatasetSplitter

/-! ### Coverage of a table -/

section Coverage

variable {name : String} {size : Nat}

theorem covers_mk {a b i : Nat} {indices : Option (List Nat)} :
    (⟨name, a, b, indices⟩ : Shard).Covers i ↔ a ≤ i ∧ i < b := by
  simp only [Shard.Covers]
  omega

theorem countP_fullShards (pos : 0 < size) (i startIdx num : Nat) :
    (fullShards name size startIdx num).countP (fun c ↦ c.Covers i) =
      if startIdx ≤ i ∧ i < startIdx + num * size then 1 else 0 := by
  induction num generalizing startIdx with
  | zero =>
    rw [if_neg (by omega)]
    rfl
  | succ num ih =>
    rw [fullShards, List.countP_cons, ih, Nat.add_mul, Nat.one_mul]
    simp only [decide_eq_true_eq, covers_mk]
    generalize num * size = rest
    split <;> split <;> split <;> omega

/-- The shards of a range have every record of it exactly once. -/
theorem countP_createShardsWithRange (pos : 0 < size) {startIdx endIdx : Nat}
    (le : startIdx ≤ endIdx) (i : Nat) :
    (createShardsWithRange name size startIdx endIdx).countP (fun c ↦ c.Covers i) =
      if startIdx ≤ i ∧ i < endIdx then 1 else 0 := by
  have split_len : (endIdx - startIdx) / size * size + (endIdx - startIdx) % size =
      endIdx - startIdx := Nat.div_add_mod' _ _
  have left_lt : (endIdx - startIdx) % size < size := Nat.mod_lt _ pos
  have left : (endIdx - (startIdx + (endIdx - startIdx) / size * size)) % size =
      (endIdx - startIdx) % size := by
    have eq : endIdx - (startIdx + (endIdx - startIdx) / size * size) =
        (endIdx - startIdx) % size := by omega
    rw [eq, Nat.mod_eq_of_lt left_lt]
  rw [createShardsWithRange, left, List.countP_append, countP_fullShards pos]
  generalize (endIdx - startIdx) / size * size = full at *
  generalize (endIdx - startIdx) % size = rest at *
  by_cases none : rest = 0
  · rw [if_neg (not_not.mpr none), List.countP_nil]
    split <;> split <;> omega
  · rw [if_pos none, List.countP_singleton]
    simp only [decide_eq_true_eq, covers_mk]
    split <;> split <;> split <;> omega

theorem fullShards_size {startIdx num : Nat} {c : Shard}
    (h : c ∈ fullShards name size startIdx num) : c.stop - c.start = size := by
  induction num generalizing startIdx with
  | zero => exact absurd h List.not_mem_nil
  | succ num ih =>
    rcases List.mem_cons.mp h with rfl | h
    · simp only
      omega
    · exact ih h

/-- No shard is empty or larger than the shard size. -/
theorem createShardsWithRange_size (pos : 0 < size) {startIdx endIdx : Nat} {c : Shard}
    (h : c ∈ createShardsWithRange name size startIdx endIdx) :
    1 ≤ c.stop - c.start ∧ c.stop - c.start ≤ size := by
  rcases List.mem_append.mp h with h | h
  · have eq := fullShards_size h
    omega
  · split at h
    · next some =>
      rw [List.mem_singleton] at h
      subst h
      have lt := Nat.mod_lt (endIdx - (startIdx + (endIdx - startIdx) / size * size)) pos
      simp only
      omega
    · exact absurd h List.not_mem_nil

end Coverage

namespace TableDatasetSplitter

/-- The number of sub-epochs of a huge dataset is the one computed by the constructor. -/
def SubepochsSet (s : TableDatasetSplitter) : Prop :=
  s.maxShardCount < s.shardCount →
    s.subepochNumPerEpoch = ceilQuotient s.shardCount s.maxShardCount

/-- Epoch `e` has record `i`: every epoch does, or the sub-epoch of the record's block. -/
def CoversAt (s : TableDatasetSplitter) (e i : Nat) : Prop :=
  s.shardCount ≤ s.maxShardCount ∨
    e % s.subepochNumPerEpoch = i / (s.maxShardCount * s.shardSize)

instance (s : TableDatasetSplitter) (e i : Nat) : Decidable (s.CoversAt e i) :=
  inferInstanceAs (Decidable (_ ∨ _))

theorem lt_subepochs {s : TableDatasetSplitter} {k : Nat} :
    k < ceilQuotient s.shardCount s.maxShardCount ↔
      k * (s.maxShardCount * s.shardSize) < s.datasetSize := by
  rw [lt_ceilQuotient s.maxShardCount_pos, shardCount, lt_ceilQuotient s.shardSize_pos,
    Nat.mul_assoc]

theorem subepochIdx_lt {s : TableDatasetSplitter} (set : s.SubepochsSet)
    (huge : s.maxShardCount < s.shardCount) (e : Nat) :
    e % s.subepochNumPerEpoch * (s.maxShardCount * s.shardSize) < s.datasetSize := by
  have some : 0 < ceilQuotient s.shardCount s.maxShardCount := by
    rw [lt_ceilQuotient s.maxShardCount_pos]
    omega
  apply lt_subepochs.mp
  rw [set huge]
  exact Nat.mod_lt _ some

/-- An epoch has each record of the dataset in one shard, or in none. -/
theorem countP_epochShards {s : TableDatasetSplitter} (set : s.SubepochsSet) {i : Nat}
    (hi : i < s.datasetSize) :
    s.epochShards.countP (fun c ↦ c.Covers i) = if s.CoversAt s.epoch i then 1 else 0 := by
  unfold epochShards
  split
  · next fits =>
    rw [countP_createShardsWithRange s.shardSize_pos (Nat.zero_le _), if_pos ⟨Nat.zero_le _, hi⟩,
      if_pos (.inl fits)]
  · next huge =>
    have lt := subepochIdx_lt set (by omega) s.epoch
    have block : 0 < s.maxShardCount * s.shardSize :=
      Nat.mul_pos s.maxShardCount_pos s.shardSize_pos
    rw [countP_createShardsWithRange s.shardSize_pos (by simp only [subepochRange]; omega)]
    apply if_congr _ rfl rfl
    have which : s.CoversAt s.epoch i ↔
        i / (s.maxShardCount * s.shardSize) = s.epoch % s.subepochNumPerEpoch := by
      constructor
      · intro h
        exact (h.resolve_left huge).symm
      · intro h
        exact .inr h.symm
    rw [which, Nat.div_eq_iff block]
    simp only [subepochRange]
    omega

theorem epochShards_eq_nil {s : TableDatasetSplitter} (set : s.SubepochsSet) :
    s.epochShards = [] ↔ s.datasetSize = 0 := by
  constructor
  · intro none
    by_contra some
    -- the first record of the sub-epoch is in a shard
    have record : ∃ i < s.datasetSize, s.CoversAt s.epoch i := by
      by_cases huge : s.maxShardCount < s.shardCount
      · refine ⟨_, subepochIdx_lt set huge s.epoch, .inr ?_⟩
        exact (Nat.mul_div_cancel _ (Nat.mul_pos s.maxShardCount_pos s.shardSize_pos)).symm
      · exact ⟨0, Nat.pos_of_ne_zero some, .inl (Nat.not_lt.mp huge)⟩
    rcases record with ⟨i, hi, covers⟩
    have count := countP_epochShards set hi
    rw [none, if_pos covers, List.countP_nil] at count
    contradiction
  · intro zero
    have count : s.shardCount = 0 := by
      rw [shardCount, ceilQuotient, zero]
      exact Nat.div_eq_of_lt (by have pos := s.shardSize_pos; omega)
    rw [epochShards_of_fits (by omega), zero, createShardsWithRange, Nat.sub_zero, Nat.zero_div,
      Nat.zero_mul, Nat.zero_sub, Nat.zero_mod]
    rfl

theorem epochShards_size {s : TableDatasetSplitter} {c : Shard} (h : c ∈ s.epochShards) :
    1 ≤ c.stop - c.start ∧ c.stop - c.start ≤ s.shardSize := by
  unfold epochShards at h
  split at h <;> exact createShardsWithRange_size s.shardSize_pos h

/-- All epochs together, sub-epochs included, have each record `numEpochs` times. -/
theorem count_coversAt {s : TableDatasetSplitter} (set : s.SubepochsSet) {i : Nat}
    (hi : i < s.datasetSize) {numEpochs : Nat}
    (epochs : s.numEpochs = if s.maxShardCount < s.shardCount
      then (numEpochs : Int) * s.subepochNumPerEpoch else numEpochs) :
    Nat.count (fun e ↦ s.CoversAt e i) s.numEpochs.toNat = numEpochs := by
  by_cases huge : s.maxShardCount < s.shardCount
  · have total : s.numEpochs.toNat = numEpochs * s.subepochNumPerEpoch := by
      rw [epochs, if_pos huge]
      exact Int.toNat_natCast (numEpochs * s.subepochNumPerEpoch)
    have block : i / (s.maxShardCount * s.shardSize) < s.subepochNumPerEpoch := by
      rw [set huge]
      apply lt_subepochs.mpr
      exact (Nat.div_mul_le_self _ _).trans_lt hi
    have positive : 0 < s.subepochNumPerEpoch := Nat.zero_lt_of_lt block
    have which : ∀ e, s.CoversAt e i ↔
        e ≡ i / (s.maxShardCount * s.shardSize) [MOD s.subepochNumPerEpoch] := by
      intro e
      rw [Nat.ModEq, Nat.mod_eq_of_lt block]
      exact or_iff_right (Nat.not_le.mpr huge)
    simp only [which]
    rw [total, Nat.count_modEq_card _ positive, Nat.mul_div_cancel _ positive, Nat.mul_mod_left,
      if_neg (Nat.not_lt_zero _), Nat.add_zero]
  · have always : ∀ e, s.CoversAt e i ↔ True := fun e ↦ iff_true_intro (.inl (Nat.not_lt.mp huge))
    simp only [always, epochs, if_neg huge, Int.toNat_natCast, Nat.count_true]

/-- What the constructor fixes for good: the sizes and the numbers of epochs and sub-epochs. -/
structure Configured (datasetSize shardSize : Nat) (numEpochs : Int) (s : TableDatasetSplitter) :
    Prop where
  datasetSize_eq : s.datasetSize = datasetSize
  shardSize_eq : s.shardSize = shardSize
  set : s.SubepochsSet
  numEpochs_eq : s.numEpochs = if s.maxShardCount < s.shardCount
    then numEpochs * s.subepochNumPerEpoch else numEpochs

theorem new_configured (name : String) (datasetSize shardSize : Nat) (numEpochs : Int)
    (shuffle : Bool) (maxShardCount : Nat) (hs : 0 < shardSize) (hm : 0 < maxShardCount) :
    Configured datasetSize shardSize numEpochs
      (new name datasetSize shardSize numEpochs shuffle maxShardCount hs hm) := by
  unfold new splitEpochForHugeDataset
  split
  · next huge => exact ⟨rfl, rfl, fun _ ↦ rfl, (if_pos huge).symm⟩
  · next fits => exact ⟨rfl, rfl, fun huge ↦ absurd huge fits, (if_neg fits).symm⟩

theorem new_start (name : String) (datasetSize shardSize : Nat) (numEpochs : Int)
    (shuffle : Bool) (maxShardCount : Nat) (hs : 0 < shardSize) (hm : 0 < maxShardCount) :
    (new name datasetSize shardSize numEpochs shuffle maxShardCount hs hm).epoch = 0 ∧
      (new name datasetSize shardSize numEpochs shuffle maxShardCount hs hm).shards = [] := by
  unfold new splitEpochForHugeDataset
  split <;> exact ⟨rfl, rfl⟩

end TableDatasetSplitter

/-! ### Text files -/

structure TextDatasetSplitter where
  datasetName : String
  datasetSize : Nat
  shardSize : Nat
  numEpochs : Int
  shuffle : Bool
  shards : List Shard
  epoch : Nat
  shardSize_pos : 0 < shardSize

namespace TextDatasetSplitter

/-- `TextDatasetSplitter.__init__`. -/
def new (datasetName : String) (datasetSize shardSize : Nat) (numEpochs : Int) (shuffle : Bool)
    (hs : 0 < shardSize) : TextDatasetSplitter :=
  ⟨datasetName, datasetSize, shardSize, numEpochs, shuffle, [], 0, hs⟩

/-- One shard for each start index. With shuffling a shard takes as many line numbers off the
front as it has records. -/
def shardsAt (s : TextDatasetSplitter) : List Nat → List Nat → List Shard
  | [], _ => []
  | shardStartIdx :: starts, recordIndices =>
    let shardEndIdx := min (shardStartIdx + s.shardSize) s.datasetSize
    let size := shardEndIdx - shardStartIdx
    if s.shuffle then
      ⟨s.datasetName, shardStartIdx, shardEndIdx, some (recordIndices.take size)⟩ ::
        s.shardsAt starts (recordIndices.drop size)
    else ⟨s.datasetName, shardStartIdx, shardEndIdx, some []⟩ :: s.shardsAt starts recordIndices

/-- `TextDatasetSplitter._create_shards_with_indices` over the whole dataset. -/
def createShardsWithIndices (s : TextDatasetSplitter) (rand : Nat → Nat) : List Shard :=
  let recordIndices := List.range s.datasetSize
  let recordIndices := if s.shuffle then Dlrover.shuffle rand recordIndices else recordIndices
  -- `range(0, dataset_size, shard_size)`
  let starts := (List.range (ceilQuotient s.datasetSize s.shardSize)).map fun k : Nat ↦
    k * s.shardSize
  s.shardsAt starts recordIndices

def createShards (s : TextDatasetSplitter) (rand : Nat → Nat) :
    List Shard × TextDatasetSplitter :=
  let shards := s.createShardsWithIndices rand
  (shards, { s with shards := shards, epoch := s.epoch + 1 })

theorem length_shardsAt (s : TextDatasetSplitter) (starts recordIndices : List Nat) :
    (s.shardsAt starts recordIndices).length = starts.length := by
  induction starts generalizing recordIndices with
  | nil => rfl
  | cons start starts ih =>
    rw [shardsAt]
    split <;> rw [List.length_cons, ih, List.length_cons]

theorem createShardsWithIndices_eq_nil (s : TextDatasetSplitter) (rand : Nat → Nat) :
    s.createShardsWithIndices rand = [] ↔ s.datasetSize = 0 := by
  have count : 0 < ceilQuotient s.datasetSize s.shardSize ↔ 0 < s.datasetSize := by
    rw [lt_ceilQuotient s.shardSize_pos, Nat.zero_mul]
  rw [← List.length_eq_zero_iff, createShardsWithIndices, length_shardsAt, List.length_map,
    List.length_range]
  omega

end TextDatasetSplitter

/-! ### Either kind -/

/-- The splitters of a batch dataset; `new_dataset_splitter` picks one by the storage type. -/
inductive DatasetSplitter where
  | table (s : TableDatasetSplitter)
  | text (s : TextDatasetSplitter)

namespace DatasetSplitter

def datasetName : DatasetSplitter → String
  | table s => s.datasetName
  | text s => s.datasetName

def datasetSize : DatasetSplitter → Nat
  | table s => s.datasetSize
  | text s => s.datasetSize

def numEpochs : DatasetSplitter → Int
  | table s => s.numEpochs
  | text s => s.numEpochs

def epoch : DatasetSplitter → Nat
  | table s => s.epoch
  | text s => s.epoch

def setEpoch : DatasetSplitter → Nat → DatasetSplitter
  | table s, epoch => table { s with epoch := epoch }
  | text s, epoch => text { s with epoch := epoch }

def createShards : DatasetSplitter → (Nat → Nat) → List Shard × DatasetSplitter
  | table s, rand => ((s.createShards rand).1, table (s.createShards rand).2)
  | text s, rand => ((s.createShards rand).1, text (s.createShards rand).2)

/-- `DatasetSplitter.epoch_finished`; no positive number of epochs means that they never end. -/
def epochFinished (s : DatasetSplitter) : Bool :=
  if s.numEpochs ≤ 0 then false else decide (s.numEpochs ≤ s.epoch)

theorem epochFinished_iff {s : DatasetSplitter} :
    s.epochFinished = true ↔ 0 < s.numEpochs ∧ s.numEpochs ≤ s.epoch := by
  unfold epochFinished
  split
  · next infinite =>
    refine iff_of_false Bool.false_ne_true ?_
    omega
  · next finite =>
    rw [decide_eq_true_iff, and_iff_right (Int.not_le.mp finite)]

@[simp]
theorem epoch_setEpoch (s : DatasetSplitter) (epoch : Nat) : (s.setEpoch epoch).epoch = epoch := by
  cases s <;> rfl

/-- A set of shards is one more epoch of the same dataset. -/
theorem createShards_frame (s : DatasetSplitter) (rand : Nat → Nat) :
    (s.createShards rand).2.epoch = s.epoch + 1 ∧
      (s.createShards rand).2.numEpochs = s.numEpochs ∧
      (s.createShards rand).2.datasetName = s.datasetName ∧
      (s.createShards rand).2.datasetSize = s.datasetSize := by
  cases s <;> exact ⟨rfl, rfl, rfl, rfl⟩

/-- What a constructor returns. -/
inductive Constructed : DatasetSplitter → Prop where
  | table (datasetName : String) (datasetSize shardSize : Nat) (numEpochs : Int) (shuffle : Bool)
      (maxShardCount : Nat) (hs : 0 < shardSize) (hm : 0 < maxShardCount) :
      Constructed
        (.table (.new datasetName datasetSize shardSize numEpochs shuffle maxShardCount hs hm))
  | text (datasetName : String) (datasetSize shardSize : Nat) (numEpochs : Int) (shuffle : Bool)
      (hs : 0 < shardSize) :
      Constructed (.text (.new datasetName datasetSize shardSize numEpochs shuffle hs))

/-- A table's sub-epochs are set and its kept shards are those of the whole table. -/
def WellFormed : DatasetSplitter → Prop
  | table s => s.SubepochsSet ∧ s.Kept
  | text _ => True

theorem Constructed.wellFormed {s : DatasetSplitter} (h : Constructed s) : s.WellFormed := by
  cases h with
  | table datasetName datasetSize shardSize numEpochs shuffle maxShardCount hs hm =>
    constructor
    · exact (TableDatasetSplitter.new_configured datasetName datasetSize shardSize numEpochs
        shuffle maxShardCount hs hm).set
    · exact .inl (TableDatasetSplitter.new_start datasetName datasetSize shardSize numEpochs
        shuffle maxShardCount hs hm).2
  | text => trivial

theorem WellFormed.createShards {s : DatasetSplitter} (h : s.WellFormed) (rand : Nat → Nat) :
    (s.createShards rand).2.WellFormed := by
  cases s with
  | table s =>
    rcases s.createShards_spec h.2 rand with ⟨shards, perm, eq⟩
    simp only [DatasetSplitter.createShards, eq, WellFormed]
    exact ⟨h.1, .next perm _⟩
  | text s => trivial

/-- An epoch has no shards just when the dataset has no records. -/
theorem createShards_eq_nil {s : DatasetSplitter} (h : s.WellFormed) (rand : Nat → Nat) :
    (s.createShards rand).1 = [] ↔ s.datasetSize = 0 := by
  cases s with
  | table s =>
    rcases s.createShards_spec h.2 rand with ⟨shards, perm, eq⟩
    simp only [DatasetSplitter.createShards, eq, DatasetSplitter.datasetSize]
    rw [← TableDatasetSplitter.epochShards_eq_nil h.1]
    exact ⟨fun none ↦ (none ▸ perm).symm.eq_nil, fun none ↦ (none ▸ perm).eq_nil⟩
  | text s => exact s.createShardsWithIndices_eq_nil rand

end DatasetSplitter

end ProbingBaselines.Dlrover
