import Mathlib.Data.List.Rotate
import Mathlib.Data.List.Lattice
import Mathlib.Data.List.Nodup
import Mathlib.Data.List.Pairwise
import Mathlib.Data.List.Perm.Basic
import ProbingBaselines.Lib.Pairing

/-!
# Columns of rows

General support: rows of elements are regrouped by position. Two elements meet in a column when they
have the same place in their rows. If each row is rotated by its index, what stood last in the rows
no longer meets, as long as there are no more rows than columns.
-/

namespace ProbingBaselines.Lib.Columns

universe u

variable {α : Type u}

/-- The elements at a position, of the rows that have one there. -/
def column (rows : List (List α)) (pos : Nat) : List α := rows.filterMap (·[pos]?)

def columns (width : Nat) (rows : List (List α)) : List (List α) :=
  (List.range width).map (column rows)

/-- The `i`-th row is rotated by `i`. -/
def rotated (rows : List (List α)) : List (List α) := rows.mapIdx fun i row ↦ row.rotate i

variable {rows : List (List α)} {width : Nat}

theorem mem_column {pos : Nat} {x : α} :
    x ∈ column rows pos ↔ ∃ row ∈ rows, row[pos]? = some x :=
  List.mem_filterMap

theorem column_cons (row : List α) (rows : List (List α)) (pos : Nat) :
    column (row :: rows) pos = row[pos]?.toList ++ column rows pos := by
  rw [column, List.filterMap_cons]
  cases row[pos]? <;> rfl

/-- A position that all rows have. -/
theorem length_column {pos : Nat} (full : ∀ row ∈ rows, pos < row.length) :
    (column rows pos).length = rows.length := by
  induction rows with
  | nil => rfl
  | cons row rows ih =>
    have lt := full row List.mem_cons_self
    have rest := ih fun row' hrow' ↦ full row' (List.mem_cons_of_mem _ hrow')
    rw [column_cons, List.getElem?_eq_getElem lt, List.length_append, rest]
    simp [Nat.add_comm]

/-- A row is read off its positions. -/
theorem flatMap_getElem? {row : List α} (short : row.length ≤ width) :
    (List.range width).flatMap (fun pos ↦ row[pos]?.toList) = row := by
  induction row generalizing width with
  | nil => simp
  | cons x row ih =>
    cases width with
    | zero => simp at short
    | succ width =>
      rw [List.range_succ_eq_map, List.flatMap_cons, List.flatMap_map]
      simp only [List.getElem?_cons_zero, List.getElem?_cons_succ, Option.toList_some]
      rw [ih (Nat.le_of_succ_le_succ short)]
      rfl

/-- The columns have the elements of the rows. -/
theorem flatten_columns_perm (short : ∀ row ∈ rows, row.length ≤ width) :
    (columns width rows).flatten.Perm rows.flatten := by
  rw [columns, ← List.flatMap_def]
  induction rows with
  | nil => simp [column]
  | cons row rows ih =>
    have rest := ih fun row' hrow' ↦ short row' (List.mem_cons_of_mem _ hrow')
    have split := (List.flatMap_append_perm (List.range width) (fun pos ↦ row[pos]?.toList)
      (column rows)).symm
    rw [flatMap_getElem? (short row List.mem_cons_self)] at split
    have cons : column (row :: rows) = fun pos ↦ row[pos]?.toList ++ column rows pos :=
      funext (column_cons row rows)
    rw [cons, List.flatten_cons]
    exact split.trans (rest.append_left row)

/-- An element has one place. -/
theorem place_unique (nodup : rows.flatten.Nodup) {row row' : List α} {p q : Nat} {x : α}
    (hrow : row ∈ rows) (hrow' : row' ∈ rows) (at_p : row[p]? = some x)
    (at_q : row'[q]? = some x) : row = row' ∧ p = q := by
  rw [List.nodup_flatten] at nodup
  have symm : Std.Symm (@List.Disjoint α) := ⟨fun _ _ ↦ List.Disjoint.symm⟩
  have same : row = row' := by
    by_contra ne
    exact nodup.2.forall hrow hrow' ne (List.mem_of_getElem? at_p) (List.mem_of_getElem? at_q)
  subst same
  have lt : p < row.length := (List.getElem?_eq_some_iff.mp at_p).1
  exact ⟨rfl, (List.getElem?_inj lt (nodup.1 row hrow)).mp (at_p.trans at_q.symm)⟩

/-- Two elements share a column if and only if they have the same place in their rows. -/
theorem together_columns (nodup : rows.flatten.Nodup) {row row' : List α} {p q : Nat} {x y : α}
    (hrow : row ∈ rows) (hrow' : row' ∈ rows) (at_p : row[p]? = some x)
    (at_q : row'[q]? = some y) (lt : p < width) :
    Pairing.Together (columns width rows) x y ↔ p = q := by
  constructor
  · rintro ⟨col, hcol, hx, hy⟩
    rcases List.mem_map.mp hcol with ⟨pos, -, rfl⟩
    rcases mem_column.mp hx with ⟨rowX, hrowX, at_x⟩
    rcases mem_column.mp hy with ⟨rowY, hrowY, at_y⟩
    have place_x := (place_unique nodup hrow hrowX at_p at_x).2
    have place_y := (place_unique nodup hrow' hrowY at_q at_y).2
    rw [place_x, place_y]
  · rintro rfl
    refine ⟨column rows p, List.mem_map.mpr ⟨p, List.mem_range.mpr lt, rfl⟩, ?_, ?_⟩
    · exact mem_column.mpr ⟨row, hrow, at_p⟩
    · exact mem_column.mpr ⟨row', hrow', at_q⟩

theorem getElem?_rotated (rows : List (List α)) (i : Nat) :
    (rotated rows)[i]? = rows[i]?.map fun row ↦ row.rotate i :=
  List.getElem?_mapIdx

theorem length_of_mem_rotated (full : ∀ row ∈ rows, row.length = width) :
    ∀ row ∈ rotated rows, row.length = width := by
  intro row hrow
  rcases List.mem_mapIdx.mp hrow with ⟨i, lt, rfl⟩
  rw [List.length_rotate]
  exact full _ (List.getElem_mem lt)

theorem flatten_rotated_perm (rows : List (List α)) :
    (rotated rows).flatten.Perm rows.flatten := by
  have perm : ((rows.zipIdx.map fun e ↦ e.1.rotate e.2).flatten).Perm
      (rows.zipIdx.map Prod.fst).flatten := by
    rw [← List.flatMap_def, ← List.flatMap_def]
    apply List.Perm.flatMap_left
    intro e _
    exact List.rotate_perm e.1 e.2
  rw [List.zipIdx_map_fst] at perm
  rw [rotated, List.mapIdx_eq_zipIdx_map]
  exact perm

/-- Where the last element of the `i`-th row stands after the rotation. -/
theorem rotate_last {row : List α} {i : Nat} {x : α} (lt : i < row.length)
    (last : row.getLast? = some x) : (row.rotate i)[row.length - 1 - i]? = some x := by
  have place : (row.length - 1 - i + i) % row.length = row.length - 1 := by
    rw [Nat.sub_add_cancel (by omega), Nat.mod_eq_of_lt (by omega)]
  rw [List.getElem?_rotate (by omega), place, ← List.getLast?_eq_getElem?, last]

/-- The last elements of two rows are apart after the rotation. -/
theorem apart_rotated (nodup : rows.flatten.Nodup) (full : ∀ row ∈ rows, row.length = width)
    (wide : rows.length ≤ width) {row row' : List α} {x y : α} (hrow : row ∈ rows)
    (hrow' : row' ∈ rows) (hx : row.getLast? = some x) (hy : row'.getLast? = some y) (ne : x ≠ y) :
    ¬Pairing.Together (columns width (rotated rows)) x y := by
  have nodup' := (flatten_rotated_perm rows).nodup_iff.mpr nodup
  have place : ∀ {row : List α} {x : α} {i : Nat}, rows[i]? = some row → row.getLast? = some x →
      ∃ turned ∈ rotated rows, turned[width - 1 - i]? = some x := by
    intro row x i hi last
    have lt : i < rows.length := (List.getElem?_eq_some_iff.mp hi).1
    have length := full row (List.mem_of_getElem? hi)
    have turned : (rotated rows)[i]? = some (row.rotate i) := by
      rw [getElem?_rotated, hi]
      rfl
    have at_end := rotate_last (i := i) (by omega) last
    rw [length] at at_end
    exact ⟨row.rotate i, List.mem_of_getElem? turned, at_end⟩
  rcases List.getElem?_of_mem hrow with ⟨i, hi⟩
  rcases List.getElem?_of_mem hrow' with ⟨j, hj⟩
  rcases place hi hx with ⟨turned, mem, at_i⟩
  rcases place hj hy with ⟨turned', mem', at_j⟩
  have lt : i < rows.length := (List.getElem?_eq_some_iff.mp hi).1
  have lt' : j < rows.length := (List.getElem?_eq_some_iff.mp hj).1
  rw [together_columns nodup' mem mem' at_i at_j (by omega)]
  intro same
  have index : i = j := by omega
  subst index
  cases hi.symm.trans hj
  exact ne (Option.some.inj (hx.symm.trans hy))

/-- A column has one element of each row at most. -/
theorem length_column_le (rows : List (List α)) (pos : Nat) :
    (column rows pos).length ≤ rows.length :=
  List.length_filterMap_le _ _

/-- When columns of one element join the columns before them, one is left only if it is all. -/
theorem eq_singleton_of_mem_collected (some : ∀ row ∈ rows, row ≠ []) {a : α}
    (mem : [a] ∈ (columns width rows).foldl Pairing.collect []) :
    (columns width rows).flatten = [a] := by
  by_cases single : rows.length ≤ 1
  · have thin : ∀ part ∈ columns width rows, part.length ≤ 1 := by
      intro part hpart
      rcases List.mem_map.mp hpart with ⟨pos, -, rfl⟩
      exact (length_column_le rows pos).trans single
    rcases Pairing.foldl_collect_thin thin with ⟨none, -⟩ | all
    · rw [none] at mem
      exact absurd mem List.not_mem_nil
    · rw [all] at mem
      exact (List.mem_singleton.mp mem).symm
  · cases width with
    | zero => exact absurd mem List.not_mem_nil
    | succ width =>
      have first : (column rows 0).length = rows.length :=
        length_column fun row hrow ↦ List.length_pos_iff.mpr (some row hrow)
      have two : 1 < (column rows 0).length := by omega
      rw [columns, List.range_succ_eq_map, List.map_cons, List.foldl_cons, Pairing.collect,
        if_pos two, List.nil_append] at mem
      have several := Pairing.foldl_collect_several (List.cons_ne_nil _ _)
        (fun group hgroup ↦ (List.mem_singleton.mp hgroup).symm ▸ two) _ [a] mem
      exact absurd several (Nat.lt_irrefl 1)

end ProbingBaselines.Lib.Columns
