import Mathlib.Data.List.Basic
import Mathlib.Data.List.Perm.Basic
import Mathlib.Tactic.Ring

/-!
# Strided slices of a list

General support: `slice l start stop step` has the elements of `l` at `start`, `start + step`, ...
before `stop`. The first `k` elements of the `step` slices of a list, one for each start below
`step`, are together its first `k * step` elements.
-/

namespace ProbingBaselines.Lib

universe u

variable {α : Type u}

/-- The number of indices `start`, `start + step`, ... before `stop`. -/
def sliceCount (start stop step : Nat) : Nat := (stop - start + step - 1) / step

/-- The elements of `l` at `start`, `start + step`, ... before `stop`. -/
def slice (l : List α) (start stop step : Nat) : List α :=
  (List.range' start (sliceCount start (min stop l.length) step) step).filterMap (l[·]?)

/-- Reading the first `n` indices of a list gives its first `n` elements. -/
theorem filterMap_getElem?_range (l : List α) (n : Nat) :
    (List.range n).filterMap (l[·]?) = l.take n := by
  induction n with
  | zero => simp
  | succ n ih =>
    rw [List.range_succ, List.filterMap_append, ih, List.take_add_one]
    cases h : l[n]? with
    | none => simp [h]
    | some x => simp [h]

/-- The indices below `k * step`, dealt out by their remainders. -/
theorem flatMap_range'_perm (k step : Nat) :
    ((List.range step).flatMap fun r ↦ List.range' r k step).Perm (List.range (k * step)) := by
  induction k with
  | zero => simp
  | succ k ih =>
    have last : ((List.range step).flatMap fun r ↦ [r + step * k]) =
        (List.range step).map (k * step + ·) := by
      rw [List.map_eq_flatMap]
      apply List.flatMap_congr
      intro r _
      rw [Nat.add_comm, Nat.mul_comm]
    have split : ∀ r, List.range' r (k + 1) step = List.range' r k step ++ [r + step * k] := by
      intro r
      rw [List.range'_concat]
    simp only [split]
    refine (List.flatMap_append_perm _ _ _).symm.trans ?_
    rw [last, Nat.add_mul, Nat.one_mul, List.range_add]
    exact ih.append_right _

/-- A start below `step` has `k` indices below `k * step`. -/
theorem sliceCount_mul {k step r : Nat} (h : r < step) : sliceCount r (k * step) step = k := by
  unfold sliceCount
  cases k with
  | zero =>
    rw [Nat.zero_mul, Nat.zero_sub, Nat.zero_add]
    exact Nat.div_eq_of_lt (by omega)
  | succ k =>
    have rest : (k + 1) * step - r + step - 1 = (step - 1 - r) + (k + 1) * step := by
      have : step ≤ (k + 1) * step := Nat.le_mul_of_pos_left step (Nat.succ_pos k)
      omega
    rw [rest, Nat.add_mul_div_right _ _ (by omega), Nat.div_eq_of_lt (by omega), Nat.zero_add]

variable {l : List α} {n step stop r : Nat}

/-- A slice of a list of `n * step` elements reads the index `r + step * j` for each `j < n`. -/
theorem slice_eq (length : l.length = n * step) (stop_le : n * step ≤ stop) (h : r < step) :
    slice l r stop step = (List.range' r n step).filterMap (l[·]?) := by
  unfold slice
  rw [length, Nat.min_eq_right stop_le, sliceCount_mul h]

/-- The indices of such a slice are those of the list. -/
theorem lt_length_of_mem_range' (length : l.length = n * step) (h : r < step) {k : Nat}
    (k_le : k ≤ n) : ∀ i ∈ List.range' r k step, i < l.length := by
  intro i hi
  rcases List.mem_range'.mp hi with ⟨j, hj, rfl⟩
  rw [length]
  calc r + step * j < step + step * j := Nat.add_lt_add_right h _
    _ = (j + 1) * step := by ring
    _ ≤ n * step := Nat.mul_le_mul_right step (by omega)

theorem length_filterMap_range' (length : l.length = n * step) (h : r < step) {k : Nat}
    (k_le : k ≤ n) : ((List.range' r k step).filterMap (l[·]?)).length = k := by
  have all : ((List.range' r k step).filterMap (l[·]?)).length = (List.range' r k step).length := by
    rw [List.filterMap_length_eq_length]
    intro i hi
    rw [List.getElem?_eq_getElem (lt_length_of_mem_range' length h k_le i hi)]
    rfl
  rw [all, List.length_range']

theorem length_slice (length : l.length = n * step) (stop_le : n * step ≤ stop) (h : r < step) :
    (slice l r stop step).length = n := by
  rw [slice_eq length stop_le h]
  exact length_filterMap_range' length h (Nat.le_refl n)

/-- The first `k` elements of such a slice. -/
theorem take_slice (length : l.length = n * step) (stop_le : n * step ≤ stop) (h : r < step)
    {k : Nat} (k_le : k ≤ n) :
    (slice l r stop step).take k = (List.range' r k step).filterMap (l[·]?) := by
  have split : List.range' r n step =
      List.range' r k step ++ List.range' (r + step * k) (n - k) step := by
    rw [List.range'_append]
    congr 1
    omega
  rw [slice_eq length stop_le h, split, List.filterMap_append]
  exact List.take_left' (length_filterMap_range' length h k_le)

/-- The first `k` elements of each slice are together the first `k * step` elements of the list. -/
theorem flatMap_take_slice_perm (length : l.length = n * step) (stop_le : n * step ≤ stop)
    {k : Nat} (k_le : k ≤ n) :
    ((List.range step).flatMap fun r ↦ (slice l r stop step).take k).Perm (l.take (k * step)) := by
  have reads : ((List.range step).flatMap fun r ↦ (slice l r stop step).take k) =
      ((List.range step).flatMap fun r ↦ List.range' r k step).filterMap (l[·]?) := by
    rw [List.filterMap_flatMap]
    apply List.flatMap_congr
    intro r hr
    exact take_slice length stop_le (List.mem_range.mp hr) k_le
  rw [reads, ← filterMap_getElem?_range]
  exact (flatMap_range'_perm k step).filterMap _

end ProbingBaselines.Lib
