import ProbingBaselines.Lib.Binary64
import ProbingBaselines.Lib.Dict
import ProbingBaselines.Lib.PyIndex
import ProbingBaselines.Lib.WhileLoop

/-!
# Calls of a role in batches

`RoleGroup.call_batch` (`unified/api/runtime/rpc_helper.py:267-300`) cuts the list arguments of a
call into one block for each actor of the role, and `FutureSequence` reads the blocks of the results
as one sequence. The size of a block is rounded up, so that the last blocks may start behind the end
of the lists.
-/

namespace ProbingBaselines.Dlrover

open Lib

variable {α β : Type}

/-- An argument of a call: a list, or something that is no `Sequence`. -/
inductive Argument (α : Type)
  | sequence (l : List α)
  | other (v : α)

namespace Argument

def sequence? : Argument α → Option (List α)
  | .sequence l => some l
  | .other _ => none

/-- `arg[start:end] if isinstance(arg, Sequence) else arg`. -/
def slice (start stop : Nat) : Argument α → Argument α
  | .sequence l => .sequence ((l.take stop).drop start)
  | .other v => .other v

end Argument

structure Arguments (α : Type) where
  args : List (Argument α)
  kwargs : Dict String (Argument α)

namespace Arguments

/-- The list arguments. -/
def sequences (c : Arguments α) : List (List α) :=
  (c.args ++ c.kwargs.values).filterMap Argument.sequence?

/-- `sub_args` and `sub_kwargs`. -/
def slice (c : Arguments α) (start stop : Nat) : Arguments α where
  args := c.args.map (Argument.slice start stop)
  kwargs := c.kwargs.mapValues (Argument.slice start stop)

/-- There are list arguments, all of the same length. -/
structure HasSize (c : Arguments α) (size : Nat) : Prop where
  some : c.sequences ≠ []
  length : ∀ l ∈ c.sequences, l.length = size

end Arguments

/-- The method gives for lists of a length as many results, each from the elements at its place. -/
def MapsElementwise (method : Arguments α → List β) (f : Arguments α → β) : Prop :=
  ∀ c size, c.HasSize size → method c = (List.range size).map fun i ↦ f (c.slice i (i + 1))

/-- `FutureSequence`, with the results of its futures. -/
structure FutureSequence (β : Type) where
  futures : List (List β)
  lens : List Int

namespace FutureSequence

/-- The loop of `__getitem__` (`rpc_helper.py:314-321`). -/
def walk : List Int → List (List β) → Int → Except SequenceError β
  | len :: lens, future :: futures, index =>
    if len ≤ index then walk lens futures (index - len) else itemAt future index
  | _, _, _ => .error .indexError

def getItem (fs : FutureSequence β) (index : Int) : Except SequenceError β :=
  walk fs.lens fs.futures index

/-- `len(fs)`, which must not be negative. -/
def len (fs : FutureSequence β) : Except SequenceError Nat :=
  if fs.lens.sum < 0 then .error .valueError else .ok fs.lens.sum.toNat

/-- `fs[s]` for a slice. -/
def getSlice (fs : FutureSequence β) (s : PySlice) : Except SequenceError (List β) := do
  let length ← fs.len
  let indices ← s.indices length
  indices.mapM fs.getItem

def wait (fs : FutureSequence β) : List β := fs.futures.flatten

/-- The loop of `Sequence.__iter__`: the next index and what has been yielded. -/
def advance (fs : FutureSequence β) (t : Nat × List β) : Nat × List β :=
  match fs.getItem t.1 with
  | .ok v => (t.1 + 1, t.2 ++ [v])
  | .error _ => t

/-- `list(fs)` is `l`. -/
def Iterates (fs : FutureSequence β) (l : List β) : Prop :=
  EndsWith (fun t : Nat × List β ↦ (fs.getItem t.1).isOk) fs.advance (fun t ↦ t.2 = l) (0, [])

end FutureSequence

namespace RoleGroup

inductive BatchError
  | valueError
  | assertionError
  | overflowError
  deriving DecidableEq

/-- `math.ceil(size / len(self.actors))`: the quotient is a float. -/
def subBatchSize (size actors : Nat) : Except BatchError Nat :=
  match Double.round (size / actors) with
  | .finite x => .ok ⌈x⌉₊
  | .inf | .nan => .error .overflowError

/-- The asserted condition of `call_batch`. The second test goes over the keyword arguments as
`for v in kwargs`, over their names. -/
def BatchAsserted (c : Arguments α) (size : Nat) : Prop :=
  (∀ l ∈ c.args.filterMap Argument.sequence?, l.length = size) ∧
    ∀ name ∈ c.kwargs.keys, name.length = size

instance (c : Arguments α) (size : Nat) : Decidable (BatchAsserted c size) :=
  inferInstanceAs (Decidable (_ ∧ _))

/-- `start` of the actor `i`. -/
def start (sub i : Nat) : Nat := i * sub

/-- `end` of the actor `i`. -/
def stop (sub size i : Nat) : Nat := min ((i + 1) * sub) size

/-- What is appended to `lens`. -/
def lenAt (sub size i : Nat) : Int := (stop sub size i : Int) - start sub i

/-- `RoleGroup.call_batch`: the arguments that are sent to the actors, and what is returned. -/
def callBatch (actors : Nat) (method : Arguments α → List β) (size : Nat) (c : Arguments α) :
    Except BatchError (List (Arguments α) × FutureSequence β) :=
  if actors = 0 then .error .valueError
  else if BatchAsserted c size then do
    let sub ← subBatchSize size actors
    let sent := (List.range actors).map fun i ↦ c.slice (start sub i) (stop sub size i)
    return (sent, ⟨sent.map method, (List.range actors).map (lenAt sub size)⟩)
  else .error .assertionError

/-- The calls sent have each list argument in blocks, in order, and the sequence returned is like
the list of all results. -/
structure OrderedBatch (c : Arguments α) (size : Nat) (sent : List (Arguments α))
    (fs : FutureSequence β) : Prop where
  sent : ∀ (k : Nat) (l : List α), c.sequences[k]? = some l →
    (sent.map fun part ↦ part.sequences[k]?.getD []).flatten = l
  len : fs.len = .ok size
  item : ∀ i : Int, -size ≤ i → i < size → ∃ v, fs.getItem i = .ok v ∧ itemAt fs.wait i = .ok v
  slice : ∀ s : PySlice, fs.getSlice s = itemsAt fs.wait s
  outside : ∀ i : Int, i < -size ∨ size ≤ i → fs.getItem i = .error .indexError
  iterates : fs.Iterates fs.wait

/-! ### Slices of arguments -/

section Slices

variable {c : Arguments α} {size start stop : Nat}

theorem sequences_slice (c : Arguments α) (start stop : Nat) :
    (c.slice start stop).sequences = c.sequences.map fun l ↦ (l.take stop).drop start := by
  have each : ∀ l : List (Argument α),
      (l.map (Argument.slice start stop)).filterMap Argument.sequence? =
        (l.filterMap Argument.sequence?).map fun l ↦ (l.take stop).drop start := by
    intro l
    rw [List.filterMap_map, List.map_filterMap]
    apply List.filterMap_congr
    intro a _
    cases a <;> rfl
  have values : (c.kwargs.mapValues (Argument.slice start stop)).values =
      c.kwargs.values.map (Argument.slice start stop) := by
    simp only [Dict.values, Dict.mapValues, List.map_map]
    rfl
  rw [Arguments.sequences, Arguments.slice, values, ← List.map_append, each]
  rfl

theorem hasSize_slice (h : c.HasSize size) (le : stop ≤ size) :
    (c.slice start stop).HasSize (stop - start) := by
  constructor
  · rw [sequences_slice]
    exact mt List.map_eq_nil_iff.mp h.some
  · intro l mem
    rw [sequences_slice, List.mem_map] at mem
    rcases mem with ⟨l, mem, rfl⟩
    rw [List.length_drop, List.length_take, h.length l mem, Nat.min_eq_left le]

theorem argument_slice_slice (a : Argument α) {i : Nat} (lt : start + i < stop) :
    (a.slice start stop).slice i (i + 1) = a.slice (start + i) (start + i + 1) := by
  cases a with
  | other v => rfl
  | sequence l =>
    simp only [Argument.slice, Argument.sequence.injEq]
    apply List.ext_getElem?
    intro k
    simp only [List.getElem?_drop, List.getElem?_take]
    split_ifs <;> first | rfl | omega | congr 1; omega

theorem slice_slice (c : Arguments α) {i : Nat} (lt : start + i < stop) :
    (c.slice start stop).slice i (i + 1) = c.slice (start + i) (start + i + 1) := by
  have each : (Argument.slice i (i + 1) : Argument α → Argument α) ∘ Argument.slice start stop =
      Argument.slice (start + i) (start + i + 1) :=
    funext fun a ↦ argument_slice_slice a lt
  simp only [Arguments.slice, Dict.mapValues, List.map_map, each, Arguments.mk.injEq, true_and]
  apply Dict.ext
  apply List.map_congr_left
  intro e _
  exact congrArg (e.1, ·) (argument_slice_slice e.2 lt)

/-- A block of the results is the method's result on the block. -/
theorem method_slice {method : Arguments α → List β} {f : Arguments α → β}
    (elementwise : MapsElementwise method f) (h : c.HasSize size) (le : stop ≤ size) :
    method (c.slice start stop) = ((method c).take stop).drop start := by
  rw [elementwise _ _ (hasSize_slice h le), elementwise _ _ h, ← List.map_take, ← List.map_drop,
    List.take_range, Nat.min_eq_left le]
  apply List.ext_getElem
  · simp
  · intro i hi hi'
    rw [List.length_map, List.length_range] at hi
    simp only [List.getElem_map, List.getElem_range, List.getElem_drop]
    rw [slice_slice c (by omega)]

end Slices

/-! ### Reading the blocks -/

section Blocks

variable {γ : Type} {all : List γ} {sub m i j : Nat}

/-- The block of the actor `i`. -/
def block (all : List γ) (sub i : Nat) : List γ :=
  (all.take (stop sub all.length i)).drop (start sub i)

theorem stop_le (sub size i : Nat) : stop sub size i ≤ size := Nat.min_le_right _ _

theorem lenAt_eq (le : (i + 1) * sub ≤ size) : lenAt sub size i = sub := by
  rw [lenAt, stop, start, Nat.min_eq_left le, Nat.add_one_mul]
  omega

theorem lenAt_nonpos {size : Nat} (le : size ≤ i * sub) : lenAt sub size i ≤ 0 := by
  rw [lenAt, stop, start]
  omega

theorem block_eq (all : List γ) (sub i : Nat) :
    block all sub i = (all.take ((i + 1) * sub)).drop (i * sub) := by
  rw [block, stop, start, ← List.take_eq_take_min]

theorem length_block : (block all sub i).length = stop sub all.length i - start sub i := by
  rw [block, List.length_drop, List.length_take, Nat.min_eq_left (stop_le _ _ _)]

/-- The blocks of the first actors, put together. -/
theorem flatten_blocks (all : List γ) (sub m : Nat) :
    ((List.range m).map (block all sub)).flatten = all.take (m * sub) := by
  induction m with
  | zero => simp
  | succ m ih =>
    have le : m * sub ≤ (m + 1) * sub := Nat.mul_le_mul_right sub (Nat.le_succ m)
    have front : all.take (m * sub) = (all.take ((m + 1) * sub)).take (m * sub) := by
      rw [List.take_take, Nat.min_eq_left le]
    rw [List.range_succ, List.map_append, List.flatten_append, ih, List.map_singleton,
      List.flatten_singleton, block_eq, front, List.take_append_drop]

/-- Behind the end of the results the walk finds nothing, as no block there is longer than the
index. -/
theorem walk_error {lens : List Int} {futures : List (List γ)} (short : ∀ len ∈ lens, len ≤ 0)
    {index : Int} (nonneg : 0 ≤ index) :
    FutureSequence.walk lens futures index = .error .indexError := by
  induction lens generalizing futures index with
  | nil => rfl
  | cons len lens ih =>
    cases futures with
    | nil => rfl
    | cons future futures =>
      have le := short len List.mem_cons_self
      rw [FutureSequence.walk, if_pos (by omega)]
      exact ih (fun l hl ↦ short l (List.mem_cons_of_mem _ hl)) (by omega)

/-- The walk from the block `i` on finds the result `j`, if the blocks reach the end. -/
theorem walk_blocks (cover : all.length ≤ (i + m) * sub) (le : i * sub ≤ j) :
    FutureSequence.walk ((List.range' i m).map (lenAt sub all.length))
      ((List.range' i m).map (block all sub)) ((j : Int) - (i * sub : Nat)) = placeAt all j := by
  induction m generalizing i with
  | zero => rw [placeAt_of_le (Nat.le_trans cover le)]; rfl
  | succ m ih =>
    have step : (i + 1) * sub = i * sub + sub := Nat.add_one_mul i sub
    rw [List.range'_succ, List.map_cons, List.map_cons, FutureSequence.walk]
    by_cases inside : j < stop sub all.length i
    · -- the block has the result
      rw [if_neg (by rw [lenAt, start]; omega),
        show (j : Int) - (i * sub : Nat) = ((j - i * sub : Nat) : Int) by omega, itemAt_natCast,
        placeAt, placeAt, block, start, List.getElem?_drop, Nat.add_sub_cancel' le,
        List.getElem?_take_of_lt inside]
    · rw [if_pos (by rw [lenAt, start]; omega)]
      by_cases full : (i + 1) * sub ≤ all.length
      · -- the block is a full one
        have next : (j : Int) - (i * sub : Nat) - sub = j - ((i + 1) * sub : Nat) := by omega
        rw [lenAt_eq full, next]
        apply ih
        · rwa [Nat.add_assoc, Nat.add_comm 1]
        · rwa [stop, Nat.min_eq_left full, Nat.not_lt] at inside
      · rw [stop, Nat.min_eq_right (by omega), Nat.not_lt] at inside
        rw [placeAt_of_le inside]
        apply walk_error
        · intro len mem
          rcases List.mem_map.mp mem with ⟨k, hk, rfl⟩
          have above : (i + 1) * sub ≤ k * sub :=
            Nat.mul_le_mul_right sub (List.mem_range'_1.mp hk).1
          exact lenAt_nonpos (by omega)
        · rw [lenAt, stop, start]
          omega

/-- The futures and lengths of `n` blocks. -/
def blocks (all : List γ) (sub n : Nat) : FutureSequence γ :=
  ⟨(List.range n).map (block all sub), (List.range n).map (lenAt sub all.length)⟩

variable {n : Nat}

theorem wait_blocks (cover : all.length ≤ n * sub) : (blocks all sub n).wait = all := by
  rw [FutureSequence.wait, blocks, flatten_blocks, List.take_of_length_le cover]

theorem getItem_blocks (cover : all.length ≤ n * sub) (j : Nat) :
    (blocks all sub n).getItem j = placeAt all j := by
  have walk := walk_blocks (i := 0) (m := n) (by rwa [Nat.zero_add]) (Nat.zero_mul sub ▸ j.zero_le)
  rw [FutureSequence.getItem, blocks, List.range_eq_range', ← walk]
  simp

/-- Iterating stops at the first index behind the end. -/
theorem iterates_blocks (cover : all.length ≤ n * sub) : (blocks all sub n).Iterates all := by
  have rest : ∀ k ≤ all.length, EndsWith
      (fun t : Nat × List γ ↦ ((blocks all sub n).getItem t.1).isOk) (blocks all sub n).advance
      (fun t ↦ t.2 = all) (all.length - k, all.take (all.length - k)) := by
    intro k le
    induction k with
    | zero =>
      have stops : ((blocks all sub n).getItem all.length).isOk = false := by
        rw [getItem_blocks cover, placeAt_of_le (Nat.le_refl _)]
        rfl
      rw [Nat.sub_zero, EndsWith.iff_of_done (by exact stops)]
      exact List.take_of_length_le (Nat.le_refl _)
    | succ k ih =>
      have lt : all.length - (k + 1) < all.length := by omega
      have item : (blocks all sub n).getItem (all.length - (k + 1) : Nat) =
          .ok all[all.length - (k + 1)] := by
        rw [getItem_blocks cover, placeAt_of_lt lt]
      have next : all.length - k = all.length - (k + 1) + 1 := by omega
      have more := ih (by omega)
      rw [EndsWith.iff_of_again (by rw [item]; rfl), FutureSequence.advance]
      simp only [item]
      rwa [next, List.take_succ_eq_append_getElem lt] at more
  have start := rest all.length (Nat.le_refl _)
  rwa [Nat.sub_self, List.take_zero] at start

/-- A negative index is looked up in the first block. -/
theorem getItem_blocks_neg {i : Int} (neg : i < 0) (some : 0 < n) :
    (blocks all sub n).getItem i = itemAt (block all sub 0) i := by
  rcases Nat.exists_eq_add_of_le' some with ⟨k, rfl⟩
  have nonneg : 0 ≤ lenAt sub all.length 0 := by
    rw [lenAt, stop, start]
    omega
  rw [FutureSequence.getItem, blocks, List.range_succ_eq_map, List.map_cons, List.map_cons,
    FutureSequence.walk, if_neg (by omega)]

/-- When the first block has everything, the others do not add to the length. -/
theorem sum_lenAt_le {size : Nat} (first : size ≤ sub) (m : Nat) :
    ((List.range m).map (lenAt sub size)).sum ≤ size := by
  induction m with
  | zero => simp
  | succ m ih =>
    rw [List.range_succ, List.map_append, List.sum_append, List.map_singleton, List.sum_singleton]
    rcases Nat.eq_zero_or_pos m with rfl | pos
    · simp only [List.range_zero, List.map_nil, List.sum_nil, lenAt, stop, start]
      omega
    · have above : 1 * sub ≤ m * sub := Nat.mul_le_mul_right sub pos
      have short : lenAt sub size m ≤ 0 := lenAt_nonpos (by omega)
      omega

theorem sum_lenAt_full {size m : Nat} (full : m * sub ≤ size) :
    ((List.range m).map (lenAt sub size)).sum = (m * sub : Nat) := by
  induction m with
  | zero => simp
  | succ m ih =>
    have step : (m + 1) * sub = m * sub + sub := Nat.add_one_mul m sub
    rw [List.range_succ, List.map_append, List.sum_append, List.map_singleton, List.sum_singleton,
      ih (by omega), lenAt_eq full, step]
    omega

/-- The length is right exactly if the last block does not start behind the end. -/
theorem sum_lenAt_eq_iff {size : Nat} (first : size ≤ sub) (m : Nat) :
    ((List.range (m + 1)).map (lenAt sub size)).sum = size ↔ m * sub ≤ size := by
  have le := stop_le sub size m
  rw [List.range_succ, List.map_append, List.sum_append, List.map_singleton, List.sum_singleton]
  constructor
  · intro eq
    have front := sum_lenAt_le first m
    simp only [lenAt, start] at eq front ⊢
    omega
  · intro inside
    have step : (m + 1) * sub = m * sub + sub := Nat.add_one_mul m sub
    rw [sum_lenAt_full inside, lenAt, stop, start, Nat.min_eq_right (by omega)]
    omega

end Blocks

/-! ### The size of the blocks -/

section BlockSize

variable {size n sub : Nat}

theorem subBatchSize_eq_ok_iff : subBatchSize size n = .ok sub ↔
    roundDouble (size / n) < 2 ^ 1024 ∧ sub = ⌈roundDouble (size / n)⌉₊ := by
  rw [subBatchSize, Double.round]
  split_ifs with finite
  · simp only [Except.ok.injEq, finite, true_and, eq_comm]
  · simp [finite]

/-- Two actors or more share what is at least two elements. -/
theorem ceil_lt_of_two_le (actors : 2 ≤ n) (elements : 2 ≤ size) :
    ⌈roundDouble ((size : ℚ) / n)⌉₊ < size := by
  -- a power of two lies between the half and the whole
  have half : (size : ℚ) / n ≤ (1 : ℕ) * 2 ^ (Nat.log 2 (size - 1) : ℤ) := by
    have below : size - 1 < 2 ^ (Nat.log 2 (size - 1) + 1) := Nat.lt_pow_succ_log_self (by decide) _
    have double : size ≤ 2 ^ Nat.log 2 (size - 1) * 2 := by
      rw [pow_succ] at below
      omega
    have double' : (size : ℚ) ≤ 2 ^ Nat.log 2 (size - 1) * 2 := by exact_mod_cast double
    have two : (2 : ℚ) ≤ n := by exact_mod_cast actors
    rw [div_le_iff₀ (by linarith), Nat.cast_one, one_mul, zpow_natCast]
    calc (size : ℚ) ≤ 2 ^ Nat.log 2 (size - 1) * 2 := double'
      _ ≤ 2 ^ Nat.log 2 (size - 1) * n := by gcongr
  have rounded := roundDouble_mono (by positivity) half
  rw [roundDouble_exact (by norm_num) (by omega), Nat.cast_one, one_mul, zpow_natCast] at rounded
  have whole : 2 ^ Nat.log 2 (size - 1) ≤ size - 1 := Nat.pow_log_le_self 2 (by omega)
  have le : ⌈roundDouble ((size : ℚ) / n)⌉₊ ≤ 2 ^ Nat.log 2 (size - 1) := by
    rw [Nat.ceil_le]
    exact_mod_cast rounded
  omega

/-- A whole number is rounded to a whole number. -/
theorem exists_roundDouble_natCast (k : ℕ) : ∃ z : ℤ, roundDouble k = z := by
  rcases Nat.lt_or_ge k (2 ^ 53) with small | large
  · exact ⟨k, by rw [roundDouble_natCast small, Int.cast_natCast]⟩
  · have log : 53 ≤ Int.log 2 (k : ℚ) := by
      rw [← Int.zpow_le_iff_le_log (by decide) (by positivity)]
      exact_mod_cast large
    have bit : 0 ≤ lastBit k := by
      simp only [lastBit]
      omega
    rcases Int.eq_ofNat_of_zero_le bit with ⟨e, he⟩
    refine ⟨nearestEven ((k : ℚ) / 2 ^ lastBit k) * 2 ^ e, ?_⟩
    rw [roundDouble, he]
    push_cast
    rw [zpow_natCast]

/-- The ceiling of a rounded size reaches the size only if the rounded size does. -/
theorem le_ceil_roundDouble_iff (k : ℕ) : k ≤ ⌈roundDouble k⌉₊ ↔ (k : ℚ) ≤ roundDouble k := by
  rcases exists_roundDouble_natCast k with ⟨z, hz⟩
  constructor
  · intro le
    rw [hz, Nat.ceil_intCast] at le
    rw [hz]
    have nonneg := roundDouble_nonneg (Nat.cast_nonneg' (α := ℚ) k)
    rw [hz] at nonneg
    have nonneg' : 0 ≤ z := by exact_mod_cast nonneg
    have le' : (k : Int) ≤ z := by omega
    exact_mod_cast le'
  · intro le
    exact_mod_cast le.trans (Nat.le_ceil _)

/-- The first block holds everything, and the last one does not start behind the end. -/
theorem blocks_fit_iff (some : 0 < n) :
    (∃ sub, subBatchSize size n = .ok sub ∧ size ≤ sub ∧ (n - 1) * sub ≤ size) ↔
      size = 0 ∨ size = 1 ∧ n ≤ 2 ∨
        n = 1 ∧ (size : ℚ) ≤ roundDouble size ∧ roundDouble size < 2 ^ 1024 := by
  simp only [subBatchSize_eq_ok_iff]
  constructor
  · rintro ⟨sub, ⟨finite, rfl⟩, first, last⟩
    rcases Nat.eq_zero_or_pos size with zero | pos
    · exact .inl zero
    · rcases Nat.lt_or_ge 1 n with several | single
      · rcases Nat.lt_or_ge 1 size with large | small
        · have lt := ceil_lt_of_two_le several large
          omega
        · have above := Nat.mul_le_mul_left (n - 1) (Nat.le_trans pos first)
          exact .inr (.inl ⟨by omega, by omega⟩)
      · have one : n = 1 := by omega
        subst one
        rw [Nat.cast_one, div_one] at finite first
        exact .inr (.inr ⟨rfl, (le_ceil_roundDouble_iff size).mp first, finite⟩)
  · have overflow : ∀ x : ℚ, x ≤ 1 → x < 2 ^ 1024 := fun x le ↦
      le.trans_lt (one_lt_pow₀ (by norm_num) (by norm_num))
    rintro (rfl | ⟨rfl, le⟩ | ⟨rfl, le, finite⟩)
    · refine ⟨0, ?_, Nat.le_refl 0, Nat.le_of_eq (Nat.mul_zero _)⟩
      rw [Nat.cast_zero, zero_div, roundDouble_zero, Nat.ceil_zero]
      exact ⟨overflow 0 (by norm_num), rfl⟩
    · have ceil : roundDouble ((1 : ℕ) / (n : ℚ)) ≤ 1 ∧ ⌈roundDouble ((1 : ℕ) / (n : ℚ))⌉₊ = 1 := by
        rcases Nat.lt_or_ge 1 n with two | one
        · have exact := roundDouble_exact (n := 1) (e := -1) (by norm_num) (by norm_num)
          have half : ((1 : ℕ) : ℚ) * 2 ^ (-1 : ℤ) = (1 : ℕ) / (n : ℚ) := by
            rw [show n = 2 by omega]
            norm_num
          rw [half] at exact
          rw [exact, show n = 2 by omega]
          constructor
          · norm_num
          · rw [Nat.ceil_eq_iff (by norm_num)]
            norm_num
        · rw [show n = 1 by omega, Nat.cast_one, div_one, ← Nat.cast_one,
            roundDouble_natCast (by norm_num)]
          simp
      exact ⟨1, ⟨overflow _ ceil.1, ceil.2.symm⟩, Nat.le_refl 1, by omega⟩
    · refine ⟨⌈roundDouble (size : ℚ)⌉₊, ?_, (le_ceil_roundDouble_iff size).mpr le, by simp⟩
      rw [Nat.cast_one, div_one]
      exact ⟨finite, rfl⟩

end BlockSize

/-! ### The whole call -/

section Call

variable {c : Arguments α} {method : Arguments α → List β} {f : Arguments α → β} {size n sub : Nat}
  {sent : List (Arguments α)} {fs : FutureSequence β}

theorem length_method (elementwise : MapsElementwise method f) (h : c.HasSize size) :
    (method c).length = size := by
  rw [elementwise c size h, List.length_map, List.length_range]

/-- What a call sends and returns. -/
theorem callBatch_eq_ok_iff (pos : 0 < n) (elementwise : MapsElementwise method f)
    (h : c.HasSize size) : callBatch n method size c = .ok (sent, fs) ↔
      (∀ name ∈ c.kwargs.keys, name.length = size) ∧ ∃ sub, subBatchSize size n = .ok sub ∧
        sent = (List.range n).map (fun i ↦ c.slice (start sub i) (stop sub size i)) ∧
        fs = blocks (method c) sub n := by
  have positional : ∀ l ∈ c.args.filterMap Argument.sequence?, l.length = size := by
    intro l mem
    apply h.length
    rw [Arguments.sequences, List.filterMap_append]
    exact List.mem_append_left _ mem
  have asserted : BatchAsserted c size ↔ ∀ name ∈ c.kwargs.keys, name.length = size :=
    and_iff_right positional
  rw [callBatch, if_neg (Nat.pos_iff_ne_zero.mp pos), ← asserted]
  split_ifs with names
  · cases found : subBatchSize size n with
    | error e => simp [names]
    | ok sub =>
      have futures : ((List.range n).map fun i ↦ c.slice (start sub i) (stop sub size i)).map
          method = (List.range n).map (block (method c) sub) := by
        rw [List.map_map]
        apply List.map_congr_left
        intro i _
        rw [Function.comp_apply, method_slice elementwise h (stop_le _ _ _), block,
          length_method elementwise h]
      have returned : blocks (method c) sub n =
          ⟨((List.range n).map fun i ↦ c.slice (start sub i) (stop sub size i)).map method,
            (List.range n).map (lenAt sub size)⟩ := by
        rw [blocks, futures, length_method elementwise h]
      simp only [names, true_and, Except.ok.injEq, exists_eq_left', returned]
      constructor
      · intro eq
        cases eq
        exact ⟨rfl, rfl⟩
      · rintro ⟨rfl, rfl⟩
        rfl
  · simp [names]

/-- The lists are sent in blocks. -/
theorem sent_blocks (h : c.HasSize size) (cover : size ≤ n * sub) {k : Nat} {l : List α}
    (at_k : c.sequences[k]? = some l) :
    (((List.range n).map fun i ↦ c.slice (start sub i) (stop sub size i)).map fun part ↦
      part.sequences[k]?.getD []).flatten = l := by
  have length : l.length = size := h.length l (List.mem_of_getElem? at_k)
  have parts : ((List.range n).map fun i ↦ c.slice (start sub i) (stop sub size i)).map
      (fun part ↦ part.sequences[k]?.getD []) = (List.range n).map (block l sub) := by
    rw [List.map_map]
    apply List.map_congr_left
    intro i _
    rw [Function.comp_apply, sequences_slice, List.getElem?_map, at_k, block, length]
    rfl
  rw [parts, flatten_blocks, List.take_of_length_le (by omega)]

/-- The call is as the list of all results exactly if the first block holds everything and the last
one does not start behind the end. -/
theorem orderedBatch_iff (pos : 0 < n) (h : c.HasSize size)
    {all : List β} (length : all.length = size) :
    OrderedBatch c size ((List.range n).map fun i ↦ c.slice (start sub i) (stop sub size i))
      (blocks all sub n) ↔ size ≤ sub ∧ (n - 1) * sub ≤ size := by
  rcases Nat.exists_eq_add_of_le' pos with ⟨m, rfl⟩
  have first_length : (block all sub 0).length = min sub size := by
    rw [length_block, stop, start, Nat.zero_add, Nat.one_mul, Nat.zero_mul, Nat.sub_zero, length]
  have sum_iff : ∀ first : size ≤ sub,
      (blocks all sub (m + 1)).lens.sum = size ↔ m * sub ≤ size := by
    intro first
    rw [blocks, length]
    exact sum_lenAt_eq_iff first m
  constructor
  · intro batch
    have first : size ≤ sub := by
      rcases Nat.eq_zero_or_pos size with zero | more
      · rw [zero]
        exact Nat.zero_le sub
      · by_contra short
        rcases batch.item (-size) (Int.le_refl _) (by omega) with ⟨v, item, -⟩
        rw [getItem_blocks_neg (by omega) pos, itemAt_error (.inl (by omega))] at item
        cases item
    refine ⟨first, (sum_iff first).mp ?_⟩
    have len := batch.len
    rw [FutureSequence.len] at len
    split_ifs at len with negative
    have total := Except.ok.inj len
    rw [← total, Int.toNat_of_nonneg (Int.not_lt.mp negative)]
  · rintro ⟨first, last⟩
    have cover : all.length ≤ (m + 1) * sub := by
      rw [length]
      exact Nat.le_trans first (Nat.le_mul_of_pos_left sub pos)
    have len : (blocks all sub (m + 1)).len = .ok size := by
      rw [FutureSequence.len, (sum_iff first).mpr last, if_neg (by omega), Int.toNat_natCast]
    have front : block all sub 0 = all := by
      rw [block, start, Nat.zero_mul, List.drop_zero, List.take_of_length_le]
      rw [length, stop, Nat.zero_add, Nat.one_mul, Nat.min_eq_right first]
    have negative : ∀ i : Int, i < 0 → (blocks all sub (m + 1)).getItem i = itemAt all i := by
      intro i neg
      rw [getItem_blocks_neg neg pos, front]
    have item : ∀ i : Int, (blocks all sub (m + 1)).getItem i = itemAt all i := by
      intro i
      rcases Int.lt_or_le i 0 with neg | nonneg
      · exact negative i neg
      · rcases Int.eq_ofNat_of_zero_le nonneg with ⟨j, rfl⟩
        rw [getItem_blocks cover, itemAt_natCast]
    have wait := wait_blocks cover
    refine ⟨fun k l at_k ↦ sent_blocks h (length ▸ cover) at_k, len, ?_, ?_, ?_, ?_⟩
    · intro i low high
      rw [← length] at low high
      rcases itemAt_ok low high with ⟨v, hv⟩
      exact ⟨v, (item i).trans hv, wait.symm ▸ hv⟩
    · intro s
      rw [wait, FutureSequence.getSlice, len, ← length]
      exact itemsAt_eq (fun j _ ↦ getItem_blocks cover j) s
    · intro i out
      rw [item, itemAt_error (by omega)]
    · rw [wait]
      exact iterates_blocks cover

/-- A batched call is an ordered partition exactly if the names of the keyword arguments are as long
as the lists and one block has everything. -/
theorem callBatch_iff (pos : 0 < n) (elementwise : MapsElementwise method f)
    (h : c.HasSize size) :
    (∃ sent fs, callBatch n method size c = .ok (sent, fs) ∧ OrderedBatch c size sent fs) ↔
      (∀ name ∈ c.kwargs.keys, name.length = size) ∧
        (size = 0 ∨ size = 1 ∧ n ≤ 2 ∨
          n = 1 ∧ (size : ℚ) ≤ roundDouble size ∧ roundDouble size < 2 ^ 1024) := by
  rw [← blocks_fit_iff pos]
  simp only [callBatch_eq_ok_iff pos elementwise h]
  constructor
  · rintro ⟨_, _, ⟨names, sub, found, rfl, rfl⟩, batch⟩
    have fits := (orderedBatch_iff pos h (length_method elementwise h)).mp batch
    exact ⟨names, sub, found, fits⟩
  · rintro ⟨names, sub, found, fits⟩
    have batch := (orderedBatch_iff pos h (length_method elementwise h)).mpr fits
    exact ⟨_, _, ⟨names, sub, found, rfl, rfl⟩, batch⟩

/-- What every batched call does that passes the assertion, with fewer than `2 ^ 53` elements: each
list is sent in order, and the results are right for an index that is not negative and for a
loop. -/
theorem callBatch_inOrder (pos : 0 < n) (elementwise : MapsElementwise method f)
    (h : c.HasSize size) (names : ∀ name ∈ c.kwargs.keys, name.length = size)
    (bits : size < 2 ^ 53) (bits' : n < 2 ^ 53) :
    ∃ sent fs, callBatch n method size c = .ok (sent, fs) ∧
      (∀ (k : Nat) (l : List α), c.sequences[k]? = some l →
        (sent.map fun part ↦ part.sequences[k]?.getD []).flatten = l) ∧
      fs.wait = method c ∧ (∀ j : Nat, fs.getItem j = itemAt fs.wait j) ∧
      fs.Iterates fs.wait := by
  have quotient : (size : ℚ) / n ≤ size :=
    div_le_self (by positivity) (by exact_mod_cast pos)
  have finite : roundDouble ((size : ℚ) / n) < 2 ^ 1024 := by
    refine (roundDouble_mono (by positivity) quotient).trans_lt ?_
    rw [roundDouble_natCast bits]
    exact Double.natCast_lt_overflow bits
  have found := subBatchSize_eq_ok_iff.mpr ⟨finite, rfl⟩
  have cover := le_mul_ceil_roundDouble bits pos bits'
  have cover' : (method c).length ≤ n * ⌈roundDouble ((size : ℚ) / n)⌉₊ := by
    rwa [length_method elementwise h]
  refine ⟨_, _, (callBatch_eq_ok_iff pos elementwise h).mpr ⟨names, _, found, rfl, rfl⟩,
    fun k l at_k ↦ sent_blocks h cover at_k, ?_⟩
  rw [wait_blocks cover']
  refine ⟨rfl, fun j ↦ ?_, iterates_blocks cover'⟩
  rw [getItem_blocks cover', itemAt_natCast]

end Call

/-- The results of one actor for three elements. -/
theorem callBatch_iff_single :
    ∃ sent fs, callBatch 1 (fun c ↦ (c.sequences.headD []).map (2 * ·)) 3
        (⟨[.sequence [10, 20, 30]], .empty⟩ : Arguments Nat) = .ok (sent, fs) ∧
      OrderedBatch ⟨[.sequence [10, 20, 30]], .empty⟩ 3 sent fs := by
  have elementwise : MapsElementwise
      (fun c : Arguments Nat ↦ (c.sequences.headD []).map (2 * ·))
      (fun c ↦ 2 * (c.sequences.headD []).headD 0) := by
    intro c size h
    cases lists : c.sequences with
    | nil => exact absurd lists h.some
    | cons l rest =>
      have length : l.length = size := h.length l (by rw [lists]; exact List.mem_cons_self)
      simp only [sequences_slice, lists, List.map_cons, List.headD_cons]
      apply List.ext_getElem
      · simp [length]
      · intro i hi hi'
        rw [List.length_map] at hi
        simp [List.headD_eq_head?_getD, List.head?_drop, hi]
  have size : Arguments.HasSize ⟨[.sequence [10, 20, 30]], .empty⟩ 3 := ⟨by decide, by decide⟩
  refine (callBatch_iff (by decide) elementwise size).mpr ⟨by decide, .inr (.inr ⟨rfl, ?_⟩)⟩
  rw [roundDouble_natCast (by norm_num)]
  exact ⟨le_refl _, Double.natCast_lt_overflow (by norm_num)⟩

/-- Five elements for four actors: the last block starts behind the end, and the length is four. -/
theorem callBatch_not_ordered :
    ¬∃ sent fs, callBatch 4 (fun c ↦ (c.sequences.headD []).map (2 * ·)) 5
        (⟨[.sequence [1, 2, 3, 4, 5]], .empty⟩ : Arguments Nat) = .ok (sent, fs) ∧
      OrderedBatch ⟨[.sequence [1, 2, 3, 4, 5]], .empty⟩ 5 sent fs := by
  have sub : subBatchSize 5 4 = .ok 2 := by decide +kernel
  rintro ⟨sent, fs, call, batch⟩
  rw [callBatch, if_neg (by decide), if_pos (by decide), sub] at call
  have lens : fs.lens = [2, 2, 1, -1] := by
    cases call
    decide
  have len := batch.len
  rw [FutureSequence.len, lens] at len
  exact absurd len (by decide)

end RoleGroup

end ProbingBaselines.Dlrover
