import Mathlib.Data.List.DropRight
import Mathlib.Data.Nat.ModEq

/-!
# Circular windows

General support: a window of consecutive slots of a circular store, read oldest first,
and how it changes when the slot after the window is overwritten. Slot contents are
arbitrary; the retained suffix of a growing list is `List.rtake`.
-/

namespace ProbingBaselines.Lib

universe u

variable {β : Type u}

/-- The slot `i` places after `head` in a circle of `M` slots. -/
def slot (M head i : Nat) : Nat := (head + i) % M

/-- A slot of a nonempty circle is one of its slots. -/
theorem slot_lt {M : Nat} (hM : 0 < M) (head i : Nat) : slot M head i < M :=
  Nat.mod_lt _ hM

/-- Zero places after a slot of the circle is that slot. -/
theorem slot_zero {M head : Nat} (hh : head < M) : slot M head 0 = head :=
  Nat.mod_eq_of_lt hh

/-- A full turn returns to the same slot. -/
theorem slot_self {M head : Nat} (hh : head < M) : slot M head M = head := by
  rw [slot, Nat.add_mod_right, Nat.mod_eq_of_lt hh]

/-- Places add up along the circle. -/
theorem slot_slot (M head i j : Nat) : slot M (slot M head i) j = slot M head (i + j) := by
  simp only [slot, Nat.mod_add_mod, Nat.add_assoc]

/-- Fewer than `M` places apart, equal slots are equal places. -/
theorem slot_inj {M head i j : Nat} (hi : i < M) (hj : j < M)
    (h : slot M head i = slot M head j) : i = j := by
  have he : i ≡ j [MOD M] := Nat.ModEq.add_left_cancel' head h
  exact Nat.ModEq.eq_of_lt_of_lt he hi hj

/-- The contents of `n` consecutive slots from `head`, oldest first. -/
def window (M head n : Nat) (cell : Nat → β) : List β :=
  (List.range n).map fun i ↦ cell (slot M head i)

/-- A window has one entry per slot. -/
theorem length_window (M head n : Nat) (cell : Nat → β) : (window M head n cell).length = n := by
  simp [window]

/-- Windows over the same slots agree when the cells of those slots agree. -/
theorem window_congr {M head n : Nat} {cell cell' : Nat → β}
    (h : ∀ i, i < n → cell' (slot M head i) = cell (slot M head i)) :
    window M head n cell' = window M head n cell := by
  apply List.map_congr_left
  intro i hi
  exact h i (List.mem_range.mp hi)

/-- Taking one more slot appends its contents. -/
theorem window_succ (M head n : Nat) (cell : Nat → β) :
    window M head (n + 1) cell = window M head n cell ++ [cell (slot M head n)] := by
  simp [window, List.range_succ]

/-- Moving the start one slot forward drops the oldest entry. -/
theorem window_tail (M head n : Nat) (cell : Nat → β) :
    window M head (n + 1) cell = cell (slot M head 0) :: window M (slot M head 1) n cell := by
  simp only [window, List.range_succ_eq_map, List.map_cons, List.map_map]
  congr 1
  apply List.map_congr_left
  intro i _
  simp only [Function.comp_apply, slot_slot, Nat.succ_eq_add_one, Nat.add_comm]

/-- Overwriting the slot after a window that leaves room appends the new contents. -/
theorem window_push_of_lt {M head n : Nat} (cell : Nat → β) {cell' : Nat → β} (hn : n < M)
    (same : ∀ k, k ≠ slot M head n → cell' k = cell k) :
    window M head (n + 1) cell' = window M head n cell ++ [cell' (slot M head n)] := by
  rw [window_succ, window_congr]
  intro i hi
  apply same
  intro he
  have := slot_inj (by omega) hn he
  omega

/-- Overwriting the oldest slot of a full window drops it and appends the new contents. -/
theorem window_push_full {M head : Nat} (cell : Nat → β) {cell' : Nat → β} (hh : head < M)
    (same : ∀ k, k ≠ head → cell' k = cell k) :
    window M (slot M head 1) M cell' = (window M head M cell).tail ++ [cell' head] := by
  obtain ⟨n, rfl⟩ : ∃ n, M = n + 1 := ⟨M - 1, by omega⟩
  rw [window_succ, window_tail (n + 1) head n cell, List.tail_cons, slot_slot,
    Nat.add_comm 1 n, slot_self hh, window_congr]
  intro i hi
  apply same
  intro he
  rw [slot_slot] at he
  have hz : slot (n + 1) head (1 + i) = slot (n + 1) head 0 := he.trans (slot_zero hh).symm
  have := slot_inj (by omega) (by omega) hz
  omega

/-- Appending to a list shorter than the bound keeps every entry. -/
theorem rtake_concat_of_lt {M : Nat} {xs : List β} (x : β) (h : xs.length < M) :
    (xs ++ [x]).rtake M = xs.rtake M ++ [x] := by
  obtain ⟨n, rfl⟩ : ∃ n, M = n + 1 := ⟨M - 1, by omega⟩
  rw [List.rtake_concat_succ, List.rtake, List.rtake, Nat.sub_eq_zero_of_le (by omega),
    Nat.sub_eq_zero_of_le (by omega)]

/-- Appending to a list at least as long as the bound drops the oldest retained entry. -/
theorem rtake_concat_of_le {M : Nat} {xs : List β} (x : β) (hM : 0 < M) (h : M ≤ xs.length) :
    (xs ++ [x]).rtake M = (xs.rtake M).tail ++ [x] := by
  obtain ⟨n, rfl⟩ : ∃ n, M = n + 1 := ⟨M - 1, by omega⟩
  rw [List.rtake_concat_succ, List.rtake, List.rtake, List.tail_drop]
  congr 2
  omega

end ProbingBaselines.Lib
