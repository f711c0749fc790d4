import Mathlib.Data.List.Basic
import Mathlib.Tactic.Linarith

/-!
# Indices and slices of a sequence

General support: a negative index counts from the end of a list, and a slice stands for the indices
of a range that is cut to the list, as Python has them.
-/

namespace ProbingBaselines.Lib

variable {α : Type}

inductive SequenceError where
  | indexError
  | valueError
  deriving DecidableEq

/-- `l[i]` for a number `i` that is not negative. -/
def placeAt (l : List α) (i : Nat) : Except SequenceError α :=
  match l[i]? with
  | some a => .ok a
  | none => .error .indexError

/-- `l[i]`. -/
def itemAt (l : List α) (i : Int) : Except SequenceError α :=
  let j := if i < 0 then i + l.length else i
  if 0 ≤ j then placeAt l j.toNat else .error .indexError

theorem placeAt_of_lt {l : List α} {i : Nat} (h : i < l.length) : placeAt l i = .ok l[i] := by
  rw [placeAt, List.getElem?_eq_getElem h]

theorem placeAt_of_le {l : List α} {i : Nat} (h : l.length ≤ i) :
    placeAt l i = .error .indexError := by
  rw [placeAt, List.getElem?_eq_none h]

theorem itemAt_natCast (l : List α) (i : Nat) : itemAt l i = placeAt l i := by
  have nonneg : ¬(i : Int) < 0 := by omega
  simp only [itemAt, if_neg nonneg]
  rw [if_pos (by omega), Int.toNat_natCast]

theorem itemAt_of_neg {l : List α} {i : Int} (neg : i < 0) (le : 0 ≤ i + l.length) :
    itemAt l i = placeAt l (i + l.length).toNat := by
  simp only [itemAt, if_pos neg, if_pos le]

/-- Out of range on either side. -/
theorem itemAt_error {l : List α} {i : Int} (h : i < -l.length ∨ l.length ≤ i) :
    itemAt l i = .error .indexError := by
  rcases h with low | high
  · have neg : i < 0 := by omega
    simp only [itemAt, if_pos neg]
    rw [if_neg (by omega)]
  · rcases Int.eq_ofNat_of_zero_le (show 0 ≤ i by omega) with ⟨j, rfl⟩
    rw [itemAt_natCast, placeAt_of_le (by omega)]

theorem itemAt_ok {l : List α} {i : Int} (low : -l.length ≤ i) (high : i < l.length) :
    ∃ a, itemAt l i = .ok a := by
  rcases Int.lt_or_le i 0 with neg | nonneg
  · rw [itemAt_of_neg neg (by omega), placeAt_of_lt (by omega)]
    exact ⟨_, rfl⟩
  · rcases Int.eq_ofNat_of_zero_le nonneg with ⟨j, rfl⟩
    rw [itemAt_natCast, placeAt_of_lt (by omega)]
    exact ⟨_, rfl⟩

/-! ### Slices -/

/-- `range(start, stop, step)`, for a step that is not zero. -/
def intRange (start stop step : Int) : List Int :=
  let count := if 0 < step then (stop - start + step - 1) / step
    else (start - stop - step - 1) / -step
  (List.range count.toNat).map fun k : Nat ↦ start + k * step

/-- `slice(start, stop, step)`. -/
structure PySlice where
  start : Option Int
  stop : Option Int
  step : Option Int

/-- An end of a slice, cut to the sequence. -/
def PySlice.cut (length : Nat) (lower upper default : Int) : Option Int → Int
  | none => default
  | some i => if i < 0 then max (i + length) lower else min i upper

/-- `range(*s.indices(length))`. -/
def PySlice.indices (s : PySlice) (length : Nat) : Except SequenceError (List Int) :=
  let step := s.step.getD 1
  if step = 0 then .error .valueError
  else if step < 0 then
    .ok (intRange (cut length (-1) (length - 1) (length - 1) s.start)
      (cut length (-1) (length - 1) (-1) s.stop) step)
  else .ok (intRange (cut length 0 length 0 s.start) (cut length 0 length length s.stop) step)

/-- `l[s]`. -/
def itemsAt (l : List α) (s : PySlice) : Except SequenceError (List α) := do
  let indices ← s.indices l.length
  indices.mapM (itemAt l)

/-- What is below a number of steps, in steps. -/
theorem mul_lt_of_lt_ceil {k : Nat} {gap step : Int} (pos : 0 < step)
    (lt : k < ((gap + step - 1) / step).toNat) : k * step < gap := by
  have le : (k : Int) + 1 ≤ (gap + step - 1) / step := by omega
  have below : ((k : Int) + 1) * step ≤ gap + step - 1 := (Int.le_ediv_iff_mul_le pos).mp le
  linarith

theorem bounds_of_mem_intRange {start stop step i : Int} (mem : i ∈ intRange start stop step) :
    (0 < step → start ≤ i ∧ i < stop) ∧ (step < 0 → stop < i ∧ i ≤ start) := by
  rcases List.mem_map.mp mem with ⟨k, hk, rfl⟩
  rw [List.mem_range] at hk
  constructor
  · intro pos
    rw [if_pos pos] at hk
    have lt := mul_lt_of_lt_ceil pos hk
    have nonneg : 0 ≤ k * step := Int.mul_nonneg (Int.natCast_nonneg k) pos.le
    omega
  · intro neg
    have pos : 0 < -step := by omega
    have gap : start - stop - step - 1 = (start - stop) + -step - 1 := by omega
    rw [if_neg (by omega), gap] at hk
    have lt := mul_lt_of_lt_ceil pos hk
    have nonneg : 0 ≤ k * -step := Int.mul_nonneg (Int.natCast_nonneg k) pos.le
    rw [Int.mul_neg] at lt nonneg
    omega

theorem PySlice.cut_bounds {length : Nat} {lower upper default : Int} (low : lower ≤ 0)
    (high : length - 1 ≤ upper) (le : lower ≤ upper) (hd : lower ≤ default ∧ default ≤ upper)
    (i : Option Int) :
    lower ≤ cut length lower upper default i ∧ cut length lower upper default i ≤ upper := by
  cases i with
  | none => exact hd
  | some i =>
    rw [cut]
    split_ifs <;> omega

/-- A slice has only indices of the sequence, none of them negative. -/
theorem PySlice.bounds_of_mem {s : PySlice} {length : Nat} {indices : List Int}
    (h : s.indices length = .ok indices) {i : Int} (mem : i ∈ indices) : 0 ≤ i ∧ i < length := by
  simp only [PySlice.indices] at h
  split_ifs at h with zero neg
  · rw [← Except.ok.inj h] at mem
    have bounds := (bounds_of_mem_intRange mem).2 neg
    have first : _ ∧ cut length (-1) (length - 1) (length - 1) s.start ≤ length - 1 :=
      cut_bounds (by omega) (by omega) (by omega) (by omega) s.start
    have last : -1 ≤ cut length (-1) (length - 1) (-1) s.stop ∧ _ :=
      cut_bounds (by omega) (by omega) (by omega) (by omega) s.stop
    omega
  · rw [← Except.ok.inj h] at mem
    have bounds := (bounds_of_mem_intRange mem).1 (by omega)
    have first : 0 ≤ cut length 0 length 0 s.start ∧ _ :=
      cut_bounds (by omega) (by omega) (by omega) (by omega) s.start
    have last : _ ∧ cut length 0 length length s.stop ≤ length :=
      cut_bounds (by omega) (by omega) (by omega) (by omega) s.stop
    omega

/-- A slice asks for the items at places from the front only. -/
theorem itemsAt_eq {l : List α} {item : Int → Except SequenceError α}
    (same : ∀ i : Nat, i < l.length → item i = placeAt l i) (s : PySlice) :
    (do let indices ← s.indices l.length; indices.mapM item) = itemsAt l s := by
  rw [itemsAt]
  cases h : s.indices l.length with
  | error e => rfl
  | ok indices =>
    have each : ∀ i ∈ indices, item i = itemAt l i := by
      intro i mem
      have bounds := s.bounds_of_mem h mem
      rcases Int.eq_ofNat_of_zero_le bounds.1 with ⟨j, rfl⟩
      rw [same j (by omega), itemAt_natCast]
    change indices.mapM item = indices.mapM (itemAt l)
    clear h
    induction indices with
    | nil => rfl
    | cons i indices ih =>
      rw [List.mapM_cons, List.mapM_cons, each i List.mem_cons_self,
        ih fun j hj ↦ each j (List.mem_cons_of_mem _ hj)]

end ProbingBaselines.Lib
