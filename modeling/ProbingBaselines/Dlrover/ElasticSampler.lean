import Mathlib.Data.List.Basic
import Mathlib.Data.List.Dedup
import Mathlib.Data.List.Nodup
import Mathlib.Data.List.NodupEquivFin
import ProbingBaselines.Lib.Dict
import ProbingBaselines.Lib.Slice
import ProbingBaselines.Dlrover.DatasetSplitter

/-!
# The elastic distributed sampler

`ElasticDistributedSampler` (`trainer/torch/elastic/sampler.py:25-155`) deals the indices of a
dataset out to the ranks and can go on in the middle of an epoch, with another number of ranks. The
parent class is `torch.utils.data.DistributedSampler`, whose constructor sets `total_size`, and
`torch.randperm` yields the permutation of an epoch; both are parameters here.
-/

namespace ProbingBaselines.Dlrover

open Lib

/-- What the sampler uses of PyTorch: `total_size` of the parent class for a dataset size, a number
of replicas and `drop_last`, and `torch.randperm` of a generator with a seed. -/
structure TorchSampling where
  totalSize : Nat → Nat → Bool → Nat
  randperm : Int → Nat → List Nat

/-- The documented behaviour: the parent class makes the data evenly divisible across the replicas,
by dropping its tail or by adding indices, and `randperm` is a permutation. -/
structure TorchSampling.Documented (torch : TorchSampling) : Prop where
  totalSize_drop : ∀ size replicas, torch.totalSize size replicas true = size / replicas * replicas
  totalSize_pad : ∀ size replicas,
    torch.totalSize size replicas false = ceilQuotient size replicas * replicas
  randperm_perm : ∀ seed size, (torch.randperm seed size).Perm (List.range size)

/-- The state of a checkpoint: `{"completed_num": ..., "epoch": ...}`. -/
structure SamplerState where
  completedNum : Option Nat
  epoch : Option Nat

/-- The sampler of one rank; `datasetSize` is `len(self.dataset)`. -/
structure ElasticDistributedSampler where
  datasetSize : Nat
  numReplicas : Nat
  rank : Nat
  shuffle : Bool
  seed : Int
  dropLast : Bool
  epoch : Nat
  numSamples : Nat
  totalSize : Nat
  epochCheckpoint : Dict Nat Nat

/-- `num_samples` for `size` samples: with `drop_last` the nearest length that is evenly divisible.
For fewer samples than replicas `math.ceil` of the negative fraction is 0, as is the quotient of
the truncated difference. -/
def numSamplesFor (dropLast : Bool) (size replicas : Nat) : Nat :=
  if dropLast && size % replicas ≠ 0 then ceilQuotient (size - replicas) replicas
  else ceilQuotient size replicas

/-- `l[:n]`. -/
def sliceTo {α : Type} (l : List α) (n : Int) : List α :=
  l.take (if 0 ≤ n then n else l.length + n).toNat

/-- The extra samples that make the indices evenly divisible (`sampler.py:90-98`). `none` stands for
the division by zero of an empty list that is to grow. -/
def padIndices (indices : List Nat) (totalSize : Nat) : Option (List Nat) :=
  let paddingSize : Int := totalSize - indices.length
  if paddingSize ≤ indices.length then some (indices ++ sliceTo indices paddingSize)
  else if indices.length = 0 then none
  else
    some (indices ++ sliceTo
      (List.replicate (ceilQuotient paddingSize.toNat indices.length) indices).flatten paddingSize)

/-- The two branches that make the indices evenly divisible (`sampler.py:87-103`). -/
def evenIndices (dropLast : Bool) (indices : List Nat) (totalSize : Nat) : Option (List Nat) :=
  if dropLast then some (indices.take totalSize) else padIndices indices totalSize

variable {size replicas : Nat}

@[simp]
theorem numSamplesFor_false : numSamplesFor false size replicas = ceilQuotient size replicas := rfl

@[simp]
theorem numSamplesFor_true (pos : 0 < replicas) :
    numSamplesFor true size replicas = size / replicas := by
  unfold numSamplesFor ceilQuotient
  have parts := Nat.div_add_mod size replicas
  have rest := Nat.mod_lt size pos
  generalize size / replicas = q at *
  generalize size % replicas = r at *
  split
  · next uneven =>
    have r_pos : 0 < r := by
      simp at uneven
      omega
    rcases Nat.eq_zero_or_pos q with rfl | q_pos
    · exact Nat.div_eq_of_lt (by omega)
    · have le : replicas ≤ replicas * q := Nat.le_mul_of_pos_right replicas q_pos
      have top : size - replicas + replicas - 1 = (r - 1) + replicas * q := by omega
      rw [top, Nat.add_mul_div_left _ _ pos, Nat.div_eq_of_lt (by omega), Nat.zero_add]
  · next even =>
    have r_zero : r = 0 := by
      simp at even
      exact even
    have top : size + replicas - 1 = (replicas - 1) + replicas * q := by omega
    rw [top, Nat.add_mul_div_left _ _ pos, Nat.div_eq_of_lt (by omega), Nat.zero_add]

theorem le_ceilQuotient_mul (size : Nat) (pos : 0 < replicas) :
    size ≤ ceilQuotient size replicas * replicas :=
  Nat.not_lt.mp fun lt ↦ Nat.lt_irrefl _ ((lt_ceilQuotient pos).mpr lt)

/-- The padding is shorter than the number of replicas. -/
theorem ceilQuotient_mul_sub_lt (size : Nat) (pos : 0 < replicas) :
    ceilQuotient size replicas * replicas - size < replicas := by
  have h := Nat.div_mul_le_self (size + replicas - 1) replicas
  unfold ceilQuotient
  omega

/-- The samples of fewer samples are within those of more. -/
theorem numSamplesFor_mono (dropLast : Bool) {size' : Nat} (pos : 0 < replicas)
    (le : size ≤ size') :
    numSamplesFor dropLast size replicas ≤ numSamplesFor dropLast size' replicas := by
  cases dropLast with
  | false => exact Nat.div_le_div_right (by omega)
  | true =>
    rw [numSamplesFor_true pos, numSamplesFor_true pos]
    exact Nat.div_le_div_right le

/-- `total_size` of the parent class is that of all the samples. -/
theorem TorchSampling.Documented.totalSize {torch : TorchSampling} (h : torch.Documented)
    (dropLast : Bool) (pos : 0 < replicas) :
    torch.totalSize size replicas dropLast = numSamplesFor dropLast size replicas * replicas := by
  cases dropLast with
  | false => exact h.totalSize_pad size replicas
  | true => rw [h.totalSize_drop, numSamplesFor_true pos]

/-- Lists grow by the padding, which is made of their own elements, in order from the first. -/
theorem padIndices_eq {indices : List Nat} {total : Nat} (le : indices.length ≤ total)
    (empty : indices = [] → total = 0) :
    ∃ extra, padIndices indices total = some (indices ++ extra) ∧
      extra.length = total - indices.length ∧ extra ⊆ indices ∧
      ∀ k ≤ extra.length, indices.take k ⊆ extra.take k := by
  have diff : ((total : Int) - indices.length).toNat = total - indices.length := by omega
  have nonneg : 0 ≤ (total : Int) - indices.length := by omega
  unfold padIndices sliceTo
  simp only [if_pos nonneg, diff]
  split
  · next short =>
    refine ⟨_, rfl, ?_, List.take_subset _ _, ?_⟩
    · rw [List.length_take]
      omega
    · intro k hk
      rw [List.length_take] at hk
      rw [List.take_take, Nat.min_eq_left (by omega)]
      exact fun _ ↦ id
  · next long =>
    have ne : indices.length ≠ 0 := by
      intro zero
      have := empty (List.length_eq_zero_iff.mp zero)
      omega
    have pos : 0 < indices.length := Nat.pos_of_ne_zero ne
    rw [if_neg ne]
    have enough := le_ceilQuotient_mul (total - indices.length) pos
    have length : (List.replicate (ceilQuotient (total - indices.length) indices.length)
        indices).flatten.length = ceilQuotient (total - indices.length) indices.length *
          indices.length := by
      simp
    refine ⟨_, rfl, ?_, ?_, ?_⟩
    · rw [List.length_take, length]
      omega
    · intro x hx
      rcases List.mem_flatten.mp (List.mem_of_mem_take hx) with ⟨l, hl, mem⟩
      rwa [List.eq_of_mem_replicate hl] at mem
    · intro k hk
      have some : 0 < ceilQuotient (total - indices.length) indices.length := by
        rw [lt_ceilQuotient pos]
        omega
      rw [List.length_take] at hk
      rw [List.take_take, Nat.min_eq_left (by omega)]
      rcases Nat.exists_eq_succ_of_ne_zero some.ne' with ⟨m, hm⟩
      rw [hm, List.replicate_succ, List.flatten_cons, List.take_append]
      exact List.subset_append_left _ _

/-- Indices evened out for the replicas: with `drop_last` the first ones,
otherwise all of them with some of their first ones again. -/
theorem evenIndices_eq (dropLast : Bool) (indices : List Nat) (pos : 0 < replicas) :
    ∃ padded,
      evenIndices dropLast indices (numSamplesFor dropLast indices.length replicas * replicas) =
        some padded ∧
      padded.length = numSamplesFor dropLast indices.length replicas * replicas ∧
      (dropLast = true → padded = indices.take (indices.length / replicas * replicas)) ∧
      (dropLast = false → ∃ extra, padded = indices ++ extra ∧ extra.length < replicas ∧
        extra ⊆ indices ∧ ∀ k ≤ extra.length, indices.take k ⊆ extra.take k) := by
  cases dropLast with
  | true =>
    rw [numSamplesFor_true pos]
    refine ⟨_, rfl, ?_, fun _ ↦ rfl, ?_⟩
    · rw [List.length_take]
      exact Nat.min_eq_left (Nat.div_mul_le_self _ _)
    · intro keeps
      cases keeps
  | false =>
    rw [numSamplesFor_false]
    have le := le_ceilQuotient_mul indices.length pos
    have empty : indices = [] → ceilQuotient indices.length replicas * replicas = 0 := by
      rintro rfl
      rw [List.length_nil, ceilQuotient, Nat.div_eq_of_lt (by omega), Nat.zero_mul]
    rcases padIndices_eq le empty with ⟨extra, eq, length, sub, starts⟩
    refine ⟨_, eq, ?_, ?_, fun _ ↦ ⟨extra, rfl, ?_, sub, starts⟩⟩
    · rw [List.length_append, length]
      omega
    · intro drops
      cases drops
    · rw [length]
      exact ceilQuotient_mul_sub_lt _ pos

namespace ElasticDistributedSampler

/-- `__init__`: `_init_num_samples` of the parent class is what `numSamplesFor` computes, and every
`__iter__` sets `num_samples` before it uses it, unless `load_state_dict` has. -/
def new (torch : TorchSampling) (datasetSize numReplicas rank : Nat) (shuffle : Bool) (seed : Int)
    (dropLast : Bool) : ElasticDistributedSampler where
  datasetSize := datasetSize
  numReplicas := numReplicas
  rank := rank
  shuffle := shuffle
  seed := seed
  dropLast := dropLast
  epoch := 0
  numSamples := numSamplesFor dropLast datasetSize numReplicas
  totalSize := torch.totalSize datasetSize numReplicas dropLast
  epochCheckpoint := .empty

def setEpoch (s : ElasticDistributedSampler) (epoch : Nat) : ElasticDistributedSampler :=
  { s with epoch := epoch }

/-- `_init_num_samples`. -/
def initNumSamples (s : ElasticDistributedSampler) : ElasticDistributedSampler :=
  { s with numSamples := numSamplesFor s.dropLast s.datasetSize s.numReplicas }

/-- The indices of the epoch, before the completed ones are taken off. -/
def epochIndices (torch : TorchSampling) (s : ElasticDistributedSampler) : List Nat :=
  if s.shuffle then torch.randperm (s.seed + s.epoch) s.datasetSize else List.range s.datasetSize

/-- `__iter__` (`sampler.py:71-108`): the sampler afterwards and the indices it yields, `none` if
an assertion fails. -/
def iter (torch : TorchSampling) (s : ElasticDistributedSampler) :
    Option (ElasticDistributedSampler × List Nat) :=
  let s := if s.epoch ∈ s.epochCheckpoint then s else s.initNumSamples
  let completedNum := (s.epochCheckpoint.get? s.epoch).getD 0
  let indices := (s.epochIndices torch).drop completedNum
  let totalSize := s.numSamples * s.numReplicas
  (evenIndices s.dropLast indices totalSize).bind fun indices ↦
    if indices.length ≠ totalSize then none
    else
      let mine := slice indices s.rank s.totalSize s.numReplicas
      if mine.length ≠ s.numSamples then none else some (s, mine)

/-- `state_dict(iter_step, micro_batch_size)`. -/
def stateDict (s : ElasticDistributedSampler) (iterStep microBatchSize : Nat) : SamplerState :=
  ⟨some (iterStep * microBatchSize * s.numReplicas), some s.epoch⟩

/-- `completed_num` of a loaded state. A count past the dataset size, which padding can lead to, is
taken modulo the size. -/
def loadedNum (s : ElasticDistributedSampler) (state : SamplerState) : Nat :=
  let completedNum := state.completedNum.getD 0
  if completedNum > s.datasetSize then completedNum % s.datasetSize else completedNum

/-- `load_state_dict`. -/
def loadStateDict (s : ElasticDistributedSampler) (state : SamplerState) :
    ElasticDistributedSampler :=
  let epoch := state.epoch.getD 0
  let completedNum := s.loadedNum state
  { s with
    epoch := epoch
    epochCheckpoint := s.epochCheckpoint.insert epoch completedNum
    numSamples := numSamplesFor s.dropLast (s.datasetSize - completedNum) s.numReplicas }

variable {torch : TorchSampling}

theorem epochIndices_perm (documented : torch.Documented) (s : ElasticDistributedSampler) :
    (s.epochIndices torch).Perm (List.range s.datasetSize) := by
  unfold epochIndices
  split
  · exact documented.randperm_perm _ _
  · exact .refl _

/-- No assertion fails for a rank when the indices left are evened out for `numSamples`. -/
theorem iter_eq {s : ElasticDistributedSampler} (t : ElasticDistributedSampler) (completed : Nat)
    {padded : List Nat} (ready : (if s.epoch ∈ s.epochCheckpoint then s else s.initNumSamples) = t)
    (checkpoint : (t.epochCheckpoint.get? t.epoch).getD 0 = completed)
    (even : evenIndices t.dropLast ((t.epochIndices torch).drop completed)
      (t.numSamples * t.numReplicas) = some padded)
    (length : padded.length = t.numSamples * t.numReplicas)
    (total : t.numSamples * t.numReplicas ≤ t.totalSize) (rank : t.rank < t.numReplicas) :
    s.iter torch = some (t, slice padded t.rank t.totalSize t.numReplicas) := by
  unfold iter
  simp only [ready, checkpoint, even, Option.bind_some, length, ne_eq, not_true_eq_false,
    ↓reduceIte, length_slice length total rank]

end ElasticDistributedSampler

/-- An epoch that `before` ranks begin and `after` ranks go on with: each of the first has consumed
`iterStep * microBatchSize` of its samples when the rank `saver` calls `state_dict`. -/
structure Resume where
  datasetSize : Nat
  before : Nat
  after : Nat
  saver : Nat
  iterStep : Nat
  microBatchSize : Nat
  shuffle : Bool
  seed : Int
  dropLast : Bool
  epoch : Nat

namespace Resume

open ElasticDistributedSampler

/-- There is a sample, a rank before and a rank after, and no rank has consumed more than its
`num_samples`. -/
structure WellFormed (x : Resume) : Prop where
  datasetSize_pos : 0 < x.datasetSize
  before_pos : 0 < x.before
  after_pos : 0 < x.after
  consumes : x.iterStep * x.microBatchSize ≤ numSamplesFor x.dropLast x.datasetSize x.before

/-- The sampler of a rank in the first run. -/
def first (torch : TorchSampling) (x : Resume) (rank : Nat) : ElasticDistributedSampler :=
  (new torch x.datasetSize x.before rank x.shuffle x.seed x.dropLast).setEpoch x.epoch

/-- The saved state. -/
def state (torch : TorchSampling) (x : Resume) : SamplerState :=
  (x.first torch x.saver).stateDict x.iterStep x.microBatchSize

/-- The sampler of a rank in the second run, with the state loaded. -/
def second (torch : TorchSampling) (x : Resume) (rank : Nat) : ElasticDistributedSampler :=
  (new torch x.datasetSize x.after rank x.shuffle x.seed x.dropLast).loadStateDict (x.state torch)

/-- The indices a sampler yields. -/
def yields (torch : TorchSampling) (s : ElasticDistributedSampler) : List Nat :=
  ((s.iter torch).map Prod.snd).getD []

/-- The indices consumed before `state_dict` and those yielded after `load_state_dict`. -/
def seen (torch : TorchSampling) (x : Resume) : List Nat :=
  ((List.range x.before).flatMap fun rank ↦
    (yields torch (x.first torch rank)).take (x.iterStep * x.microBatchSize)) ++
  (List.range x.after).flatMap fun rank ↦ yields torch (x.second torch rank)

/-- `completed_num` of the saved state. -/
def completedNum (x : Resume) : Nat := x.iterStep * x.microBatchSize * x.before

/-- No assertion fails in the sampler and it yields `num_samples` indices. -/
def Yields (torch : TorchSampling) (s : ElasticDistributedSampler) : Prop :=
  ∃ t indices, s.iter torch = some (t, indices) ∧ indices.length = t.numSamples

/-- Every index is seen, or all but a few are with `drop_last`, and few are seen more than once. -/
structure Covers (torch : TorchSampling) (x : Resume) : Prop where
  first : ∀ rank < x.before, Yields torch (x.first torch rank)
  second : ∀ rank < x.after, Yields torch (x.second torch rank)
  covered : x.dropLast = false → ∀ i < x.datasetSize, i ∈ x.seen torch
  dropped : x.dropLast = true →
    ((List.range x.datasetSize).filter fun i ↦ i ∉ x.seen torch).length < x.before + x.after
  repeated : ((List.range x.datasetSize).filter fun i ↦ 2 ≤ (x.seen torch).count i).length ≤
    (x.before - 1) + (x.after - 1)

variable {torch : TorchSampling} {x : Resume}

/-- The indices of the epoch. -/
def indices (torch : TorchSampling) (x : Resume) : List Nat :=
  (x.first torch x.saver).epochIndices torch

/-- Where the second run goes on. -/
def resumedAt (x : Resume) : Nat :=
  if x.completedNum > x.datasetSize then x.completedNum % x.datasetSize else x.completedNum

/-- The ranks of one run deal the indices that are left out among them, evened out. -/
theorem deal {replicas size : Nat} {dropLast : Bool} (left : List Nat)
    (s t : Nat → ElasticDistributedSampler) (documented : torch.Documented) (pos : 0 < replicas)
    (le : left.length ≤ size)
    (ready : ∀ r, (if (s r).epoch ∈ (s r).epochCheckpoint then s r else (s r).initNumSamples) = t r)
    (left_eq : ∀ r, ((t r).epochIndices torch).drop
      (((t r).epochCheckpoint.get? (t r).epoch).getD 0) = left)
    (data : ∀ r, (t r).dropLast = dropLast ∧ (t r).numReplicas = replicas ∧ (t r).rank = r ∧
      (t r).numSamples = numSamplesFor dropLast left.length replicas ∧
      (t r).totalSize = torch.totalSize size replicas dropLast) :
    ∃ padded, evenIndices dropLast left (numSamplesFor dropLast left.length replicas * replicas) =
        some padded ∧
      padded.length = numSamplesFor dropLast left.length replicas * replicas ∧
      (∀ r < replicas, Yields torch (s r) ∧
        (yields torch (s r)).length = numSamplesFor dropLast left.length replicas) ∧
      ∀ k ≤ numSamplesFor dropLast left.length replicas,
        ((List.range replicas).flatMap fun r ↦ (yields torch (s r)).take k).Perm
          (padded.take (k * replicas)) := by
  rcases evenIndices_eq dropLast left pos with ⟨padded, even, length, -, -⟩
  have total : numSamplesFor dropLast left.length replicas * replicas ≤
      torch.totalSize size replicas dropLast := by
    rw [documented.totalSize dropLast pos]
    exact Nat.mul_le_mul_right replicas (numSamplesFor_mono dropLast pos le)
  have eq : ∀ r < replicas, (s r).iter torch =
      some (t r, slice padded r (torch.totalSize size replicas dropLast) replicas) := by
    intro r lt
    rcases data r with ⟨drop, reps, rank, samples, size⟩
    rw [← samples, ← reps] at even length
    rw [← size, ← samples, ← reps] at total
    rw [← left_eq r, ← drop] at even
    rw [← reps] at lt
    have h := iter_eq (t r) _ (ready r) rfl even length total (rank.trans_lt lt)
    rw [rank, size, reps] at h
    exact h
  refine ⟨padded, even, length, ?_, ?_⟩
  · intro r lt
    have samples := length_slice length total lt
    refine ⟨⟨t r, _, eq r lt, samples.trans (data r).2.2.2.1.symm⟩, ?_⟩
    unfold yields
    rw [eq r lt]
    exact samples
  · intro k hk
    have same : ((List.range replicas).flatMap fun r ↦ (yields torch (s r)).take k) =
        (List.range replicas).flatMap fun r ↦
          (slice padded r (torch.totalSize size replicas dropLast) replicas).take k := by
      apply List.flatMap_congr
      intro r hr
      unfold yields
      rw [eq r (List.mem_range.mp hr)]
      rfl
    rw [same]
    exact flatMap_take_slice_perm length total hk

/-- What the ranks of both runs see: the first `completedNum` of the evened out indices, and the
evened out rest. -/
theorem seen_perm (documented : torch.Documented) (wf : x.WellFormed) :
    ∃ padded rest,
      evenIndices x.dropLast (x.indices torch)
        (numSamplesFor x.dropLast x.datasetSize x.before * x.before) = some padded ∧
      padded.length = numSamplesFor x.dropLast x.datasetSize x.before * x.before ∧
      evenIndices x.dropLast ((x.indices torch).drop x.resumedAt)
        (numSamplesFor x.dropLast (x.datasetSize - x.resumedAt) x.after * x.after) = some rest ∧
      (∀ rank < x.before, Yields torch (x.first torch rank)) ∧
      (∀ rank < x.after, Yields torch (x.second torch rank)) ∧
      (x.seen torch).Perm (padded.take x.completedNum ++ rest) := by
  have size : (x.indices torch).length = x.datasetSize := by
    have perm := epochIndices_perm documented (x.first torch x.saver)
    exact perm.length_eq.trans (List.length_range)
  have left : ((x.indices torch).drop x.resumedAt).length = x.datasetSize - x.resumedAt := by
    rw [List.length_drop, size]
  have checkpoint : ∀ r, (x.second torch r).epochCheckpoint.get? (x.second torch r).epoch =
      some x.resumedAt := fun _ ↦ Dict.get?_insert.trans (if_pos rfl)
  rcases deal (x.indices torch) (x.first torch) (fun r ↦ (x.first torch r).initNumSamples)
    documented wf.before_pos size.le (fun _ ↦ rfl) (fun _ ↦ rfl)
    (fun _ ↦ ⟨rfl, rfl, rfl, by rw [size]; rfl, rfl⟩) with ⟨padded, even, length, first, consumed⟩
  rcases deal ((x.indices torch).drop x.resumedAt) (x.second torch) (x.second torch)
    documented wf.after_pos (left.trans_le (Nat.sub_le _ _))
    (fun r ↦ if_pos (Dict.mem_insert.mpr (Or.inl rfl)))
    (fun r ↦ by rw [checkpoint r]; rfl)
    (fun _ ↦ ⟨rfl, rfl, rfl, by rw [left]; rfl, rfl⟩) with ⟨rest, even', length', second, yielded⟩
  rw [size] at even length consumed
  rw [left] at even' length' second yielded
  refine ⟨padded, rest, even, length, even', fun r lt ↦ (first r lt).1,
    fun r lt ↦ (second r lt).1, (consumed _ wf.consumes).append ?_⟩
  have whole := yielded _ (Nat.le_refl _)
  rw [← length', List.take_length] at whole
  refine (List.Perm.of_eq ?_).trans whole
  apply List.flatMap_congr
  intro r hr
  exact (List.take_of_length_le (second r (List.mem_range.mp hr)).2.le).symm

theorem length_indices (documented : torch.Documented) (x : Resume) :
    (x.indices torch).length = x.datasetSize :=
  (epochIndices_perm documented (x.first torch x.saver)).length_eq.trans List.length_range

theorem nodup_indices (documented : torch.Documented) (x : Resume) : (x.indices torch).Nodup :=
  (epochIndices_perm documented (x.first torch x.saver)).nodup_iff.mpr List.nodup_range

theorem mem_indices (documented : torch.Documented) {i : Nat} :
    i ∈ x.indices torch ↔ i < x.datasetSize :=
  (epochIndices_perm documented (x.first torch x.saver)).mem_iff.trans List.mem_range

/-- Without `drop_last`, all indices are padded with some of their first ones again. -/
theorem padded_eq {left padded : List Nat} {replicas : Nat}
    (pos : 0 < replicas) (even : evenIndices false left
      (numSamplesFor false left.length replicas * replicas) = some padded) :
    ∃ extra, padded = left ++ extra ∧ extra.length < replicas ∧ extra ⊆ left ∧
      ∀ k ≤ extra.length, left.take k ⊆ extra.take k := by
  rcases evenIndices_eq false left pos with ⟨_, even', -, -, spec⟩
  cases even.symm.trans even'
  exact spec rfl

/-- With `drop_last`, the tail is cut off. -/
theorem dropped_eq {left padded : List Nat} {replicas : Nat} (pos : 0 < replicas)
    (even : evenIndices true left (numSamplesFor true left.length replicas * replicas) =
      some padded) :
    padded = left.take (left.length / replicas * replicas) := by
  rcases evenIndices_eq true left pos with ⟨_, even', -, spec, -⟩
  cases even.symm.trans even'
  exact spec rfl

/-- With `drop_last` no more than the dataset is completed. -/
theorem WellFormed.completedNum_le (wf : x.WellFormed) (drop : x.dropLast = true) :
    x.completedNum ≤ x.datasetSize := by
  have consumes := wf.consumes
  rw [drop, numSamplesFor_true wf.before_pos] at consumes
  exact (Nat.mul_le_mul_right x.before consumes).trans (Nat.div_mul_le_self _ _)

/-- The indices seen when no more than the dataset is completed: with `drop_last` the first ones,
each once; without it all of them, and fewer than `after` again. -/
theorem seen_of_le (documented : torch.Documented) (wf : x.WellFormed)
    (le : x.completedNum ≤ x.datasetSize) :
    (x.dropLast = true → ∃ kept, x.datasetSize < kept + x.after ∧
      (x.seen torch).Perm ((x.indices torch).take kept)) ∧
    (x.dropLast = false → ∃ extra, extra.length < x.after ∧
      (x.seen torch).Perm (x.indices torch ++ extra)) := by
  have size := length_indices documented x
  have resumed : x.resumedAt = x.completedNum := if_neg (by omega)
  rcases seen_perm documented wf with ⟨padded, rest, even, length, even', -, -, perm⟩
  have left : ((x.indices torch).drop x.completedNum).length =
      x.datasetSize - x.completedNum := by
    rw [List.length_drop, size]
  rw [resumed, ← left] at even'
  rw [← size] at even
  constructor
  · intro drop
    have consumes : x.completedNum ≤ x.datasetSize / x.before * x.before := by
      have h := wf.consumes
      rw [drop, numSamplesFor_true wf.before_pos] at h
      exact Nat.mul_le_mul_right x.before h
    rw [drop] at even even'
    have first := dropped_eq wf.before_pos even
    have second := dropped_eq wf.after_pos even'
    rw [left] at second
    rw [size] at first
    refine ⟨x.completedNum + (x.datasetSize - x.completedNum) / x.after * x.after, ?_, ?_⟩
    · have rest := Nat.lt_div_mul_add (a := x.datasetSize - x.completedNum) wf.after_pos
      omega
    · rw [first, second, List.take_take, Nat.min_eq_left consumes, ← List.take_add] at perm
      exact perm
  · intro pad
    rw [pad] at even even'
    rcases padded_eq wf.before_pos even with ⟨extra, first, -⟩
    rcases padded_eq wf.after_pos even' with ⟨extra', second, few, -⟩
    refine ⟨extra', few, ?_⟩
    rw [first, second, List.take_append_of_le_length (by omega), ← List.append_assoc,
      List.take_append_drop] at perm
    exact perm

/-- Past the end of the dataset, which only padding leads to, every index is seen twice. -/
theorem seen_of_lt (documented : torch.Documented) (wf : x.WellFormed)
    (lt : x.datasetSize < x.completedNum) :
    ∀ i < x.datasetSize, 2 ≤ (x.seen torch).count i := by
  have size := length_indices documented x
  have pad : x.dropLast = false := by
    rw [← Bool.not_eq_true]
    intro drop
    exact absurd (wf.completedNum_le drop) (Nat.not_le.mpr lt)
  have resumed : x.resumedAt = x.completedNum % x.datasetSize := if_pos lt
  rcases seen_perm documented wf with ⟨padded, rest, even, length, even', -, -, perm⟩
  have left : ((x.indices torch).drop x.resumedAt).length = x.datasetSize - x.resumedAt := by
    rw [List.length_drop, size]
  have enough : x.completedNum ≤ padded.length := by
    rw [length]
    exact Nat.mul_le_mul_right x.before wf.consumes
  rw [← left, pad] at even'
  rw [← size, pad] at even
  rcases padded_eq wf.before_pos even with ⟨extra, rfl, -, -, starts⟩
  rcases padded_eq wf.after_pos even' with ⟨extra', rfl, -⟩
  rw [List.length_append, size] at enough
  intro i hi
  have mem : i ∈ x.indices torch := (mem_indices documented).mpr hi
  have again : i ∈ extra.take (x.completedNum - x.datasetSize) ++
      ((x.indices torch).drop x.resumedAt ++ extra') := by
    rcases Nat.lt_or_ge (x.completedNum - x.datasetSize) x.datasetSize with short | long
    · have rest : x.completedNum % x.datasetSize = x.completedNum - x.datasetSize := by
        rw [Nat.mod_eq_sub_mod lt.le, Nat.mod_eq_of_lt short]
      rw [← List.take_append_drop (x.completedNum - x.datasetSize) (x.indices torch)] at mem
      rcases List.mem_append.mp mem with early | late
      · exact List.mem_append_left _ (starts _ (by omega) early)
      · rw [resumed, rest]
        exact List.mem_append_right _ (List.mem_append_left _ late)
    · apply List.mem_append_left
      apply starts _ (by omega)
      rw [List.take_of_length_le (by omega)]
      exact mem
  rw [perm.count_eq, List.take_append, List.take_of_length_le (by omega), size,
    List.append_assoc, List.count_append]
  have one := List.one_le_count_iff.mpr mem
  have two := List.one_le_count_iff.mpr again
  omega

theorem ranks_yield (documented : torch.Documented) (wf : x.WellFormed) :
    (∀ rank < x.before, Yields torch (x.first torch rank)) ∧
      ∀ rank < x.after, Yields torch (x.second torch rank) := by
  rcases seen_perm documented wf with ⟨-, -, -, -, -, first, second, -⟩
  exact ⟨first, second⟩

/-- With `drop_last` only the samples that do not fill all ranks of the second run are dropped. -/
theorem length_dropped_lt (documented : torch.Documented) (wf : x.WellFormed)
    (drop : x.dropLast = true) :
    ((List.range x.datasetSize).filter fun i ↦ i ∉ x.seen torch).length < x.before + x.after := by
  rcases (seen_of_le documented wf (wf.completedNum_le drop)).1 drop with ⟨kept, few, perm⟩
  have sub : ((List.range x.datasetSize).filter fun i ↦ i ∉ x.seen torch) ⊆
      (x.indices torch).drop kept := by
    intro i hi
    rcases List.mem_filter.mp hi with ⟨range, unseen⟩
    have mem : i ∈ x.indices torch := (mem_indices documented).mpr (List.mem_range.mp range)
    rw [← List.take_append_drop kept (x.indices torch)] at mem
    rcases List.mem_append.mp mem with early | late
    · exact absurd (perm.mem_iff.mpr early) (of_decide_eq_true unseen)
    · exact late
  have le := ((List.nodup_range.filter _).subperm sub).length_le
  rw [List.length_drop, length_indices documented] at le
  have pos := wf.before_pos
  omega

/-- While no more than the dataset is completed, only padding of the second run is seen again. -/
theorem length_repeated_le (documented : torch.Documented) (wf : x.WellFormed)
    (le : x.completedNum ≤ x.datasetSize) :
    ((List.range x.datasetSize).filter fun i ↦ 2 ≤ (x.seen torch).count i).length ≤
      x.after - 1 := by
  have nodup := nodup_indices documented x
  cases h : x.dropLast with
  | true =>
    rcases (seen_of_le documented wf le).1 h with ⟨kept, -, perm⟩
    have none_twice : ((List.range x.datasetSize).filter fun i ↦
        2 ≤ (x.seen torch).count i) = [] := by
      apply List.filter_eq_nil_iff.mpr
      intro i _ twice
      have once := List.nodup_iff_count_le_one.mp (nodup.sublist (List.take_sublist kept _)) i
      have twice := of_decide_eq_true twice
      rw [perm.count_eq] at twice
      omega
    rw [none_twice]
    exact Nat.zero_le _
  | false =>
    rcases (seen_of_le documented wf le).2 h with ⟨extra, few, perm⟩
    have sub : ((List.range x.datasetSize).filter fun i ↦ 2 ≤ (x.seen torch).count i) ⊆
        extra := by
      intro i hi
      have twice := of_decide_eq_true (List.mem_filter.mp hi).2
      have once := List.nodup_iff_count_le_one.mp nodup i
      rw [perm.count_eq, List.count_append] at twice
      exact List.one_le_count_iff.mp (by omega)
    have sub_len := ((List.nodup_range.filter _).subperm sub).length_le
    omega

/-- Every index is seen without `drop_last`. -/
theorem mem_seen (documented : torch.Documented) (wf : x.WellFormed) (pad : x.dropLast = false) :
    ∀ i < x.datasetSize, i ∈ x.seen torch := by
  intro i hi
  rcases Nat.lt_or_ge x.datasetSize x.completedNum with lt | le
  · have twice := seen_of_lt documented wf lt i hi
    exact List.one_le_count_iff.mp (by omega)
  · rcases (seen_of_le documented wf le).2 pad with ⟨extra, -, perm⟩
    exact perm.mem_iff.mpr (List.mem_append_left _ ((mem_indices documented).mpr hi))

/-- A resumed epoch covers the dataset, and only padding is seen twice, exactly if no more than the
dataset was completed before, or the dataset is so small that all of it counts as padding. In the
first case not even the number of indices seen exceeds the dataset by more than the padding. -/
theorem resume_covers (documented : torch.Documented) (wf : x.WellFormed) :
    (x.Covers torch ↔
      x.completedNum ≤ x.datasetSize ∨ x.datasetSize ≤ (x.before - 1) + (x.after - 1)) ∧
    (x.completedNum ≤ x.datasetSize →
      (x.seen torch).length ≤ x.datasetSize + ((x.before - 1) + (x.after - 1))) := by
  rcases ranks_yield documented wf with ⟨first, second⟩
  have covered := mem_seen documented wf
  have dropped := length_dropped_lt documented wf
  refine ⟨⟨?_, ?_⟩, ?_⟩
  · intro covers
    rcases Nat.lt_or_ge x.datasetSize x.completedNum with lt | le
    · right
      have all : ((List.range x.datasetSize).filter fun i ↦ 2 ≤ (x.seen torch).count i) =
          List.range x.datasetSize := by
        apply List.filter_eq_self.mpr
        intro i hi
        exact decide_eq_true (seen_of_lt documented wf lt i (List.mem_range.mp hi))
      have few := covers.repeated
      rwa [all, List.length_range] at few
    · exact Or.inl le
  · rintro (le | small)
    · refine ⟨first, second, covered, dropped, ?_⟩
      exact (length_repeated_le documented wf le).trans (Nat.le_add_left _ _)
    · refine ⟨first, second, covered, dropped, ?_⟩
      refine (List.length_filter_le _ _).trans ?_
      rwa [List.length_range]
  · intro le
    have few := wf.after_pos
    have size := length_indices documented x
    cases h : x.dropLast with
    | true =>
      rcases (seen_of_le documented wf le).1 h with ⟨kept, -, perm⟩
      rw [perm.length_eq, List.length_take, size]
      omega
    | false =>
      rcases (seen_of_le documented wf le).2 h with ⟨extra, few, perm⟩
      rw [perm.length_eq, List.length_append, size]
      omega

/-- The parent class as it is documented, and a `randperm` that reverses. -/
def reversing : TorchSampling where
  totalSize size replicas dropLast :=
    (if dropLast then size / replicas else ceilQuotient size replicas) * replicas
  randperm _ size := (List.range size).reverse

theorem reversing_documented : reversing.Documented where
  totalSize_drop _ _ := rfl
  totalSize_pad _ _ := rfl
  randperm_perm _ _ := List.reverse_perm _

/-- Ten samples: two ranks complete two steps of two, three ranks go on. -/
def tenSamples : Resume where
  datasetSize := 10
  before := 2
  after := 3
  saver := 0
  iterStep := 2
  microBatchSize := 2
  shuffle := true
  seed := 0
  dropLast := false
  epoch := 1

theorem resume_covers_ten :
    tenSamples.WellFormed ∧ tenSamples.Covers reversing ∧
      tenSamples.seen reversing = [9, 7, 5, 3, 8, 6, 4, 2, 1, 0, 1] ∧
      (tenSamples.seen reversing).length ≤ 10 + ((2 - 1) + (3 - 1)) := by
  have wf : tenSamples.WellFormed := ⟨by decide, by decide, by decide, by decide⟩
  rcases resume_covers reversing_documented wf with ⟨covers, few⟩
  exact ⟨wf, covers.mpr (Or.inl (by decide)), by decide, few (by decide)⟩

/-- Five samples of which the two ranks complete all and the padding: the count is taken modulo the
size, and four of the samples are yielded again, and one more is padding. -/
def fiveSamples : Resume where
  datasetSize := 5
  before := 2
  after := 1
  saver := 1
  iterStep := 3
  microBatchSize := 1
  shuffle := false
  seed := 0
  dropLast := false
  epoch := 0

theorem resume_repeats :
    fiveSamples.WellFormed ∧ fiveSamples.seen reversing = [0, 2, 4, 1, 3, 0, 1, 2, 3, 4] ∧
      ¬ fiveSamples.Covers reversing := by
  have wf : fiveSamples.WellFormed := ⟨by decide, by decide, by decide, by decide⟩
  have seen : fiveSamples.seen reversing = [0, 2, 4, 1, 3, 0, 1, 2, 3, 4] := by decide
  refine ⟨wf, seen, ?_⟩
  intro covers
  have few := covers.repeated
  rw [seen] at few
  contradiction

end Resume

end ProbingBaselines.Dlrover
