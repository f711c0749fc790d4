import Mathlib.Algebra.BigOperators.Group.List.Basic
import Mathlib.Algebra.Order.BigOperators.Group.List
import Mathlib.Algebra.Order.Field.Basic
import Mathlib.Data.List.Chain
import Mathlib.Data.List.Sort
import Mathlib.Tactic.Linarith
import ProbingBaselines.Greyhound.FindPeriod

/-!
# Validated change points

`validate_performance_drop` (`detector/control_plane/slow_detection.py:38-86`) sorts the change
points of a series of iteration durations, keeps those with a large enough gap before them, and
drops those where the means of the two segments next to them are close. Durations and thresholds
are exact rationals, and `none` stands for NaN.
-/

namespace ProbingBaselines.Greyhound.ControlPlane

/-- A row of the data frame. -/
structure ChangePoint (β : Type) where
  id : Nat
  value : β
  deriving DecidableEq

variable {β : Type}

/-- The entry of the column `diff` for an id, from its predecessor; `slow_detection.py:54-58`. -/
def diff (lengthThresh : ℚ) : Option Nat → Nat → Option ℚ
  | none, id => if id < lengthThresh then some 0 else none
  | some previous, id => some (id - previous)

/-- `(diff > length_thresh) | diff.isnull()`; `slow_detection.py:60`. -/
def farEnough (lengthThresh : ℚ) : Option ℚ → Bool
  | none => true
  | some x => lengthThresh < x

/-- The rows with a large enough gap, behind an id. -/
def keepFar (lengthThresh : ℚ) : Option Nat → List (ChangePoint β) → List (ChangePoint β)
  | _, [] => []
  | previous, row :: rest =>
    if farEnough lengthThresh (diff lengthThresh previous row.id) then
      row :: keepFar lengthThresh (some row.id) rest
    else keepFar lengthThresh (some row.id) rest

/-- The sorted and gap-filtered rows; `slow_detection.py:51-62`. -/
def gapFiltered (lengthThresh : ℚ) (points : List (ChangePoint β)) : List (ChangePoint β) :=
  keepFar lengthThresh none (points.insertionSort fun a b ↦ a.id ≤ b.id)

/-- `np.mean`. -/
def mean (xs : List ℚ) : Option ℚ := if xs = [] then none else some (xs.sum / xs.length)

/-- `np.abs(mean_l - mean_r) / np.max((mean_l, mean_r))`; `slow_detection.py:76-77`. -/
def degradation (left right : List ℚ) : Option ℚ :=
  match mean left, mean right with
  | some l, some r => some (|l - r| / max l r)
  | _, _ => none

/-- `degradation <= degradation_thresh`; `slow_detection.py:78`. -/
def tooSmall (degradationThresh : ℚ) : Option ℚ → Bool
  | some x => x ≤ degradationThresh
  | none => false

/-- The id of the last of some rows, 0 if there is none; `slow_detection.py:63-65`. -/
def leftCp (front : List (ChangePoint β)) : Nat := (front.getLast?.map (·.id)).getD 0

/-- The id of the first of some rows, the given end if there is none; `slow_detection.py:66-68`. -/
def rightCp (stop : Nat) (back : List (ChangePoint β)) : Nat := (back.head?.map (·.id)).getD stop

/-- The comparison of the segments next to a row; `slow_detection.py:74-78`. -/
def removed (iterDurations : List ℚ) (degradationThresh : ℚ) (left : Nat) (row : ChangePoint β)
    (back : List (ChangePoint β)) : Bool :=
  tooSmall degradationThresh (degradation (pySlice iterDurations left row.id)
    (pySlice iterDurations row.id (rightCp (iterDurations.length - 1) back)))

/-- The rows that are not removed, behind the id `left`; `slow_detection.py:72-85`. -/
def dropSmall (iterDurations : List ℚ) (degradationThresh : ℚ) :
    Nat → List (ChangePoint β) → List (ChangePoint β)
  | _, [] => []
  | left, row :: back =>
    if removed iterDurations degradationThresh left row back then
      dropSmall iterDurations degradationThresh row.id back
    else row :: dropSmall iterDurations degradationThresh row.id back

/-- `validate_performance_drop`, `none` where its assertion fails; `slow_detection.py:38-86`. -/
def validatePerformanceDrop (iterDurations : List ℚ) (iterStart : List ℚ)
    (points : List (ChangePoint β)) (lengthThresh degradationThresh : ℚ) :
    Option (List (ChangePoint β)) :=
  if iterDurations.length = iterStart.length then
    if points = [] then some []
    else some (dropSmall iterDurations degradationThresh 0 (gapFiltered lengthThresh points))
  else none

/-! ### Genuine change points -/

/-- The means of two segments differ by more than the fraction `d` of the larger one. -/
def Changes (d : ℚ) (left right : List ℚ) : Prop :=
  left ≠ [] ∧ right ≠ [] ∧
    d * max (left.sum / left.length) (right.sum / right.length) <
      |left.sum / left.length - right.sum / right.length|

/-- The segments of the gap-filtered ids reach to the end of the series, and the means differ at
every id that is returned. -/
structure Genuine (iterDurations : List ℚ) (points : List (ChangePoint β))
    (lengthThresh degradationThresh : ℚ) (returned : List (ChangePoint β)) : Prop where
  increasing : returned.Pairwise (·.id < ·.id)
  first : ∀ row ∈ returned.head?, lengthThresh ≤ row.id
  spaced : (gapFiltered lengthThresh points).IsChain fun a b ↦ lengthThresh < (b.id : ℚ) - a.id
  changes : ∀ front row back, gapFiltered lengthThresh points = front ++ row :: back →
    row ∈ returned → Changes degradationThresh (pySlice iterDurations (leftCp front) row.id)
      (pySlice iterDurations row.id (rightCp iterDurations.length back))

/-- The last of the gap-filtered ids is dropped, or the means differ there as well when the last
duration of the series counts. -/
def LastChanges (iterDurations : List ℚ) (points : List (ChangePoint β))
    (lengthThresh degradationThresh : ℚ) : Prop :=
  ∀ front row, gapFiltered lengthThresh points = front ++ [row] →
    removed iterDurations degradationThresh (leftCp front) row [] ∨
      Changes degradationThresh (pySlice iterDurations (leftCp front) row.id)
        (pySlice iterDurations row.id iterDurations.length)

/-! ### The gap filter -/

theorem keepFar_sublist (lengthThresh : ℚ) (previous : Option Nat) (rows : List (ChangePoint β)) :
    (keepFar lengthThresh previous rows).Sublist rows := by
  induction rows generalizing previous with
  | nil => exact .refl _
  | cons row rest ih =>
    rw [keepFar]
    split
    · exact (ih _).cons_cons row
    · exact (ih _).cons row

/-- Behind an id that is not above them, the rows that are kept are far from it and from each
other. -/
theorem keepFar_some (lengthThresh : ℚ) (previous : Nat) {rows : List (ChangePoint β)}
    (sorted : rows.Pairwise (·.id < ·.id)) (below : ∀ row ∈ rows, previous ≤ row.id) :
    (∀ row ∈ (keepFar lengthThresh (some previous) rows).head?,
      lengthThresh < (row.id : ℚ) - previous) ∧
    (keepFar lengthThresh (some previous) rows).IsChain
      fun a b ↦ lengthThresh < (b.id : ℚ) - a.id := by
  induction rows generalizing previous with
  | nil => simp [keepFar]
  | cons row rest ih =>
    rw [List.pairwise_cons] at sorted
    have later := ih row.id sorted.2 fun r mem ↦ (sorted.1 r mem).le
    rw [keepFar]
    split
    · next far =>
      constructor
      · intro r mem
        cases mem
        simpa [farEnough, diff] using far
      · rw [List.isChain_cons]
        exact later
    · refine ⟨?_, later.2⟩
      intro r mem
      have lower : (previous : ℚ) ≤ row.id := by exact_mod_cast below row List.mem_cons_self
      have := later.1 r mem
      linarith

/-- The first row that is kept is not below the threshold. -/
theorem keepFar_none {lengthThresh : ℚ} (nonneg : 0 ≤ lengthThresh) {rows : List (ChangePoint β)}
    (sorted : rows.Pairwise (·.id < ·.id)) :
    (∀ row ∈ (keepFar lengthThresh none rows).head?, lengthThresh ≤ row.id) ∧
    (keepFar lengthThresh none rows).IsChain fun a b ↦ lengthThresh < (b.id : ℚ) - a.id := by
  cases rows with
  | nil => simp [keepFar]
  | cons row rest =>
    rw [List.pairwise_cons] at sorted
    have later := keepFar_some lengthThresh row.id sorted.2 fun r mem ↦ (sorted.1 r mem).le
    rw [keepFar]
    split
    · next far =>
      constructor
      · intro r mem
        cases mem
        by_contra low
        simp only [diff, if_pos (not_le.mp low), farEnough, decide_eq_true_eq] at far
        exact absurd far (not_lt.mpr nonneg)
      · rw [List.isChain_cons]
        exact later
    · refine ⟨?_, later.2⟩
      intro r mem
      have := later.1 r mem
      have : (0 : ℚ) ≤ row.id := Nat.cast_nonneg _
      linarith

theorem insertionSort_sorted {points : List (ChangePoint β)}
    (distinct : (points.map (·.id)).Nodup) :
    (points.insertionSort fun a b ↦ a.id ≤ b.id).Pairwise (·.id < ·.id) := by
  have perm := List.perm_insertionSort (fun a b : ChangePoint β ↦ a.id ≤ b.id) points
  have total : Std.Total fun a b : ChangePoint β ↦ a.id ≤ b.id :=
    ⟨fun a b ↦ Nat.le_total a.id b.id⟩
  have trans : IsTrans (ChangePoint β) fun a b ↦ a.id ≤ b.id := ⟨fun _ _ _ ↦ Nat.le_trans⟩
  have ordered := List.pairwise_insertionSort (fun a b : ChangePoint β ↦ a.id ≤ b.id) points
  have apart : (points.insertionSort fun a b ↦ a.id ≤ b.id).Pairwise (·.id ≠ ·.id) :=
    List.pairwise_map.mp ((perm.map _).nodup_iff.mpr distinct)
  exact (ordered.and apart).imp fun both ↦ lt_of_le_of_ne both.1 both.2

/-- The gap-filtered ids increase and are ids of the series. -/
theorem gapFiltered_sorted (lengthThresh : ℚ) {points : List (ChangePoint β)}
    (distinct : (points.map (·.id)).Nodup) :
    (gapFiltered lengthThresh points).Pairwise (·.id < ·.id) :=
  (insertionSort_sorted distinct).sublist (keepFar_sublist _ _ _)

theorem mem_of_mem_gapFiltered {lengthThresh : ℚ} {points : List (ChangePoint β)}
    {row : ChangePoint β} (mem : row ∈ gapFiltered lengthThresh points) : row ∈ points := by
  have sorted := (keepFar_sublist _ _ _).subset mem
  rwa [List.mem_insertionSort] at sorted

/-! ### The segments -/

/-- The rows that stay are those that the comparison with their neighbours does not remove. -/
theorem mem_dropSmall {durations : List ℚ} {d : ℚ} {left : Nat} {rows : List (ChangePoint β)}
    {row : ChangePoint β} : row ∈ dropSmall durations d left rows ↔
      ∃ front back, rows = front ++ row :: back ∧
        removed durations d ((front.getLast?.map (·.id)).getD left) row back = false := by
  induction rows generalizing left with
  | nil => simp [dropSmall]
  | cons r rest ih =>
    have split : (∃ front back, r :: rest = front ++ row :: back ∧
        removed durations d ((front.getLast?.map (·.id)).getD left) row back = false) ↔
        (r = row ∧ removed durations d left r rest = false) ∨
          row ∈ dropSmall durations d r.id rest := by
      rw [ih]
      constructor
      · rintro ⟨front, back, eq, stays⟩
        cases front with
        | nil =>
          cases eq
          exact .inl ⟨rfl, stays⟩
        | cons f front =>
          cases eq
          right
          refine ⟨front, back, rfl, ?_⟩
          simpa [List.getLast?_cons, apply_ite] using stays
      · rintro (⟨rfl, stays⟩ | ⟨front, back, rfl, stays⟩)
        · exact ⟨[], rest, rfl, stays⟩
        · refine ⟨r :: front, back, rfl, ?_⟩
          simpa [List.getLast?_cons] using stays
    rw [split, dropSmall]
    cases h : removed durations d left r rest with
    | true => simp
    | false => simp [eq_comm]

theorem dropSmall_sublist (durations : List ℚ) (d : ℚ) (left : Nat)
    (rows : List (ChangePoint β)) : (dropSmall durations d left rows).Sublist rows := by
  induction rows generalizing left with
  | nil => exact .refl _
  | cons row back ih =>
    rw [dropSmall]
    split
    · exact (ih _).cons row
    · exact (ih _).cons_cons row

theorem mean_of_ne {xs : List ℚ} (h : xs ≠ []) : mean xs = some (xs.sum / xs.length) := if_neg h

theorem mean_pos {xs : List ℚ} (h : xs ≠ []) (positive : ∀ x ∈ xs, 0 < x) :
    0 < xs.sum / xs.length := by
  have sum : 0 < xs.sum := List.sum_pos xs positive h
  have length : (0 : ℚ) < xs.length := by exact_mod_cast List.length_pos_iff.mpr h
  exact div_pos sum length

/-- A comparison of two segments that are not empty removes a row unless the means differ. -/
theorem tooSmall_degradation {d : ℚ} {left right : List ℚ} (leftNe : left ≠ [])
    (rightNe : right ≠ []) (positive : ∀ x ∈ left, 0 < x) :
    tooSmall d (degradation left right) = false ↔ Changes d left right := by
  have pos : 0 < max (left.sum / left.length) (right.sum / right.length) :=
    lt_max_of_lt_left (mean_pos leftNe positive)
  simp only [degradation, mean_of_ne leftNe, mean_of_ne rightNe, tooSmall, decide_eq_false_iff_not,
    not_le, lt_div_iff₀ pos, Changes, ne_eq, leftNe, rightNe, not_false_eq_true, true_and]

theorem pySlice_ne {xs : List ℚ} {start stop : Nat} (lt : start < stop)
    (inside : start < xs.length) : pySlice xs start stop ≠ [] := by
  rw [← List.length_pos_iff, length_pySlice]
  omega

theorem mem_of_mem_pySlice {xs : List ℚ} {start stop : Nat} {x : ℚ}
    (mem : x ∈ pySlice xs start stop) : x ∈ xs :=
  List.mem_of_mem_take (List.mem_of_mem_drop mem)

/-- The id before a row is below it. -/
theorem leftCp_lt {lengthThresh : ℚ} (one_le : 1 ≤ lengthThresh) {points : List (ChangePoint β)}
    (distinct : (points.map (·.id)).Nodup) {front back : List (ChangePoint β)}
    {row : ChangePoint β} (split : gapFiltered lengthThresh points = front ++ row :: back) :
    leftCp front < row.id := by
  have sorted := gapFiltered_sorted lengthThresh distinct
  rcases List.eq_nil_or_concat front with rfl | ⟨front, last, rfl⟩
  · have first := (keepFar_none (by linarith) (insertionSort_sorted distinct)).1 row
      (by rw [← gapFiltered, split]; rfl)
    have positive : (0 : ℚ) < row.id := by linarith
    exact_mod_cast positive
  · rw [split, List.concat_eq_append, List.append_assoc, List.pairwise_append] at sorted
    have below := (List.pairwise_cons.mp sorted.2.1).1 row List.mem_cons_self
    simpa [leftCp] using below

/-- The id after a row is above it, and so is the end of the series. -/
theorem lt_rightCp {lengthThresh : ℚ} {points : List (ChangePoint β)}
    (distinct : (points.map (·.id)).Nodup) {front back : List (ChangePoint β)}
    {row : ChangePoint β} (split : gapFiltered lengthThresh points = front ++ row :: back)
    {stop : Nat} (lt : row.id < stop) : row.id < rightCp stop back := by
  have sorted := gapFiltered_sorted lengthThresh distinct
  cases back with
  | nil => exact lt
  | cons next back =>
    rw [split, List.pairwise_append] at sorted
    exact (List.pairwise_cons.mp sorted.2.1).1 next List.mem_cons_self

/-- Between two gap-filtered ids the code compares the segments that count. -/
theorem removed_inner {durations : List ℚ} (positive : ∀ x ∈ durations, 0 < x) {d : ℚ}
    {left : Nat} {row next : ChangePoint β} {back : List (ChangePoint β)} (lt : left < row.id)
    (inside : row.id < durations.length) (after : row.id < next.id) :
    removed durations d left row (next :: back) = false ↔
      Changes d (pySlice durations left row.id)
        (pySlice durations row.id (rightCp durations.length (next :: back))) :=
  tooSmall_degradation (pySlice_ne lt (lt.trans inside)) (pySlice_ne after inside)
    fun x mem ↦ positive x (mem_of_mem_pySlice mem)

/-- The head of sorted rows has the least id. -/
theorem head_le {rows : List (ChangePoint β)} (sorted : rows.Pairwise (·.id < ·.id))
    {row : ChangePoint β} (mem : row ∈ rows) : ∃ head ∈ rows.head?, head.id ≤ row.id := by
  cases rows with
  | nil => cases mem
  | cons head rest =>
    refine ⟨head, rfl, ?_⟩
    rcases List.mem_cons.mp mem with rfl | later
    · exact Nat.le_refl _
    · exact ((List.pairwise_cons.mp sorted).1 row later).le

/-! ### The whole function -/

/-- A gap-filtered row is returned unless its own comparison removes it. -/
theorem mem_dropSmall_at {durations : List ℚ} {d : ℚ} {rows front back : List (ChangePoint β)}
    {row : ChangePoint β} (nodup : rows.Nodup) (split : rows = front ++ row :: back) :
    row ∈ dropSmall durations d 0 rows ↔
      removed durations d (leftCp front) row back = false := by
  rw [mem_dropSmall]
  constructor
  · rintro ⟨front', back', split', stays⟩
    rw [split, List.nodup_append, List.nodup_cons] at nodup
    have notFront : row ∉ front := fun mem ↦ nodup.2.2 row mem row List.mem_cons_self rfl
    rw [split] at split'
    obtain ⟨rfl, -, rfl⟩ :=
      (List.append_cons_inj_of_notMem notFront nodup.2.1.1).mp split'
    exact stays
  · intro stays
    exact ⟨front, back, split, stays⟩

theorem validatePerformanceDrop_eq {durations iterStart : List ℚ} {points : List (ChangePoint β)}
    {lengthThresh degradationThresh : ℚ} (starts : durations.length = iterStart.length) :
    validatePerformanceDrop durations iterStart points lengthThresh degradationThresh =
      some (dropSmall durations degradationThresh 0 (gapFiltered lengthThresh points)) := by
  rw [validatePerformanceDrop, if_pos starts]
  split
  · next empty =>
    rw [empty]
    rfl
  · rfl

/-- Every returned id is genuine exactly if the last gap-filtered id is dropped or the last duration
of the series does not bring the means of its segments together. -/
theorem validatePerformanceDrop_genuine {durations iterStart : List ℚ}
    {points : List (ChangePoint β)} {lengthThresh degradationThresh : ℚ}
    (positive : ∀ x ∈ durations, 0 < x) (starts : durations.length = iterStart.length)
    (distinct : (points.map (·.id)).Nodup) (inside : ∀ row ∈ points, row.id < durations.length)
    (one_le : 1 ≤ lengthThresh) :
    ∃ returned, validatePerformanceDrop durations iterStart points lengthThresh
        degradationThresh = some returned ∧
      (Genuine durations points lengthThresh degradationThresh returned ↔
        LastChanges durations points lengthThresh degradationThresh) := by
  have sorted := gapFiltered_sorted lengthThresh distinct
  have nodup : (gapFiltered lengthThresh points).Nodup :=
    sorted.imp fun lt eq ↦ (congrArg ChangePoint.id eq ▸ lt).ne rfl
  have far := keepFar_none (by linarith : 0 ≤ lengthThresh) (insertionSort_sorted distinct)
  refine ⟨_, validatePerformanceDrop_eq starts, ?_⟩
  have part := dropSmall_sublist durations degradationThresh 0 (gapFiltered lengthThresh points)
  constructor
  · intro genuine front row split
    by_cases stays : removed durations degradationThresh (leftCp front) row []
    · exact .inl stays
    · right
      have returned := (mem_dropSmall_at nodup split).mpr (Bool.eq_false_iff.mpr stays)
      exact genuine.changes front row [] split returned
  · intro last
    constructor
    · exact sorted.sublist part
    · intro row first
      obtain ⟨head, top, le⟩ := head_le sorted (part.subset (List.mem_of_mem_head? first))
      exact (far.1 head top).trans (by exact_mod_cast le)
    · exact far.2
    · intro front row back split returned
      have stays := (mem_dropSmall_at nodup split).mp returned
      have mem : row ∈ gapFiltered lengthThresh points := by
        rw [split]
        exact List.mem_append_right front List.mem_cons_self
      cases back with
      | nil =>
        rcases last front row split with dropped | changes
        · exact absurd (stays.symm.trans dropped) Bool.false_ne_true
        · exact changes
      | cons next back =>
        have after : row.id < next.id := lt_rightCp distinct split (Nat.lt_succ_self _)
        exact (removed_inner positive (leftCp_lt one_le distinct split)
          (inside row (mem_of_mem_gapFiltered mem)) after).mp stays

/-- A series that slows down from 1 to 2 in the middle. -/
theorem validatePerformanceDrop_genuine_slower :
    ∃ returned, validatePerformanceDrop [1, 1, 1, 2, 2, 2] [0, 1, 2, 3, 5, 7] [⟨3, ()⟩] 2 (1 / 10) =
        some returned ∧
      (Genuine [1, 1, 1, 2, 2, 2] [⟨3, ()⟩] 2 (1 / 10) returned ↔
        LastChanges [1, 1, 1, 2, 2, 2] [⟨3, ()⟩] 2 (1 / 10)) :=
  validatePerformanceDrop_genuine (by decide +kernel) (by decide) (by decide) (by decide)
    (by norm_num)

/-- The last id of a series that does not change: its right segment is empty for the code. -/
theorem validatePerformanceDrop_keepsLast : ¬ ∃ returned,
    validatePerformanceDrop [1, 1, 1, 1] [0, 1, 2, 3] [⟨3, ()⟩] 2 (1 / 10) = some returned ∧
      Genuine [1, 1, 1, 1] [⟨3, ()⟩] 2 (1 / 10) returned := by
  have gaps : gapFiltered 2 [(⟨3, ()⟩ : ChangePoint Unit)] = [⟨3, ()⟩] := by decide +kernel
  have output : validatePerformanceDrop [1, 1, 1, 1] [0, 1, 2, 3] [(⟨3, ()⟩ : ChangePoint Unit)] 2
      (1 / 10) = some [⟨3, ()⟩] := by decide +kernel
  rintro ⟨returned, same, genuine⟩
  rw [output, Option.some.injEq] at same
  subst same
  have changes := (genuine.changes [] ⟨3, ()⟩ [] gaps List.mem_cons_self).2.2
  revert changes
  decide +kernel

end ProbingBaselines.Greyhound.ControlPlane
