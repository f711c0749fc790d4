import Mathlib.Algebra.BigOperators.Field
import Mathlib.Algebra.Order.BigOperators.Group.List
import Mathlib.Data.Rat.Floor
import Mathlib.Tactic.FieldSimp
import Mathlib.Tactic.Linarith
import ProbingBaselines.Greyhound.StageTimes

/-!
# Layers of the pipeline stages

`adjust_pipeline_parallel` (`detector/control_plane/mitigation_plan.py:96-111`) gives each stage but
the last its share of the layers rounded to the nearest integer, half to even, and the last stage
what is left. `apply_layer_split` (`detector/control_plane/pp_planner.py:6-12`) writes where the
layers of each stage begin and how many there are. Times are exact rationals.
-/

namespace ProbingBaselines.Greyhound.ControlPlane

open Lib

/-! ### Rounding -/

/-- `round`: the nearest integer, the even one of two. -/
def roundHalfEven (x : ℚ) : ℤ :=
  let k := ⌊x⌋
  if x - k < 1 / 2 then k
  else if 1 / 2 < x - k then k + 1
  else if k % 2 = 0 then k
  else k + 1

/-- What rounding adds. -/
def roundingError (x : ℚ) : ℚ := roundHalfEven x - x

theorem abs_roundingError_le (x : ℚ) : |roundingError x| ≤ 1 / 2 := by
  have lower := Int.floor_le x
  have upper := Int.lt_floor_add_one x
  rw [roundingError, roundHalfEven, abs_le]
  split
  · constructor <;> linarith
  · split
    · push_cast
      constructor <;> linarith
    · split
      · constructor <;> linarith
      · push_cast
        constructor <;> linarith

/-- A half is rounded down to zero. -/
theorem one_le_roundHalfEven {x : ℚ} : 1 ≤ roundHalfEven x ↔ 1 / 2 < x := by
  have lower := Int.floor_le x
  have upper := Int.lt_floor_add_one x
  rcases lt_trichotomy ⌊x⌋ 0 with neg | zero | pos
  · have below : (⌊x⌋ : ℚ) ≤ -1 := by exact_mod_cast (by omega : ⌊x⌋ ≤ -1)
    constructor
    · intro one
      simp only [roundHalfEven] at one
      split_ifs at one <;> omega
    · intro half
      linarith
  · simp only [roundHalfEven, zero, Int.cast_zero, sub_zero]
    split_ifs <;> constructor <;> intro h
    · omega
    · linarith
    · assumption
    · omega
    · omega
    · contradiction
    · omega
    · omega
  · have above : (1 : ℚ) ≤ ⌊x⌋ := by exact_mod_cast pos
    constructor
    · intro _
      linarith
    · intro _
      simp only [roundHalfEven]
      split_ifs <;> omega

/-! ### The split -/

/-- The inverse times, in parts of their sum; `mitigation_plan.py:101-102`. -/
def throughput (stageTimes : List ℚ) : List ℚ :=
  let inverse := stageTimes.map (1 / ·)
  inverse.map (· / inverse.sum)

/-- `layer_split`; `mitigation_plan.py:103-108`. -/
def layerSplit (totalNumLayers : ℤ) (stageTimes : List ℚ) : List ℤ :=
  let rounded := (throughput stageTimes).dropLast.map fun x ↦ roundHalfEven (totalNumLayers * x)
  rounded ++ [totalNumLayers - rounded.sum]

/-- What a re-split writes to redis. -/
inductive SplitKey where
  | ppOffset (i : Nat)
  | ppNumLayers (i : Nat)
  | terminateCtl
  deriving DecidableEq

/-- One round of the loop, with the offset so far; `pp_planner.py:9-11`. -/
def writeStage (s : Dict SplitKey ℤ × ℤ) (e : ℤ × Nat) : Dict SplitKey ℤ × ℤ :=
  ((s.1.insert (.ppOffset e.2) s.2).insert (.ppNumLayers e.2) e.1, s.2 + e.1)

/-- `apply_layer_split`; `pp_planner.py:6-12`. -/
def applyLayerSplit (client : Dict SplitKey ℤ) (layerSplit : List ℤ) : Dict SplitKey ℤ :=
  (layerSplit.zipIdx.foldl writeStage (client, 0)).1

/-- What `adjust_pipeline_parallel` does with the times of the stages;
`mitigation_plan.py:101-111`. -/
def splitByTimes (client : Dict SplitKey ℤ) (totalNumLayers : ℤ) (stageTimes : List ℚ) :
    Dict SplitKey ℤ :=
  (applyLayerSplit client (layerSplit totalNumLayers stageTimes)).insert .terminateCtl 123

/-- `adjust_pipeline_parallel`, `none` where it raises; `mitigation_plan.py:96-111`. -/
def adjustPipelineParallel (client : Dict SplitKey ℤ) (tpRanks : String) (totalNumLayers : ℤ)
    (commResults : Dict (List Nat) TaskResults) : Option (Dict SplitKey ℤ) :=
  (parseCommunicationResults tpRanks commResults).map (splitByTimes client totalNumLayers)

/-! ### What is written -/

/-- The layers of a stage as written, from the first to the one after the last. -/
def stageLayers (client : Dict SplitKey ℤ) (i : Nat) : Option (ℤ × ℤ) :=
  (client.get? (.ppOffset i)).bind fun offset ↦
    (client.get? (.ppNumLayers i)).map fun numLayers ↦ (offset, offset + numLayers)

theorem zipIdx_concat (split : List ℤ) (n : ℤ) :
    (split ++ [n]).zipIdx = split.zipIdx ++ [(n, split.length)] := by
  rw [List.zipIdx_append, Nat.zero_add]
  rfl

/-- The loop has added up the layers of the stages before. -/
theorem foldl_writeStage_offset (client : Dict SplitKey ℤ) (split : List ℤ) :
    (split.zipIdx.foldl writeStage (client, 0)).2 = split.sum := by
  induction split using List.reverseRecOn with
  | nil => rfl
  | append_singleton split n ih =>
    rw [zipIdx_concat, List.foldl_concat, writeStage, ih, List.sum_append, List.sum_singleton]

theorem applyLayerSplit_concat (client : Dict SplitKey ℤ) (split : List ℤ) (n : ℤ) :
    applyLayerSplit client (split ++ [n]) =
      ((applyLayerSplit client split).insert (.ppOffset split.length) split.sum).insert
        (.ppNumLayers split.length) n := by
  have offset := foldl_writeStage_offset client split
  rw [applyLayerSplit, zipIdx_concat, List.foldl_concat, writeStage, offset]
  rfl

/-- A stage begins where the stages before it end. -/
theorem stageLayers_applyLayerSplit (client : Dict SplitKey ℤ) (split : List ℤ) {i : Nat}
    (lt : i < split.length) :
    stageLayers (applyLayerSplit client split) i =
      some ((split.take i).sum, (split.take (i + 1)).sum) := by
  induction split using List.reverseRecOn with
  | nil => exact absurd lt (Nat.not_lt_zero i)
  | append_singleton split n ih =>
    rw [applyLayerSplit_concat]
    rw [List.length_append, List.length_singleton] at lt
    by_cases last : i = split.length
    · subst last
      simp [stageLayers, Dict.get?_insert]
    · have before := ih (by omega)
      rw [stageLayers] at before ⊢
      simp only [Dict.get?_insert, SplitKey.ppOffset.injEq, SplitKey.ppNumLayers.injEq, last,
        if_false, reduceCtorEq, before]
      rw [List.take_append_of_le_length (by omega), List.take_append_of_le_length (by omega)]

theorem sum_take_le {split : List ℤ} (positive : ∀ n ∈ split, 1 ≤ n) (i : Nat) :
    (split.take i).sum ≤ split.sum := by
  have rest : 0 ≤ (split.drop i).sum := by
    apply List.sum_nonneg
    intro n mem
    have := positive n (List.mem_of_mem_drop mem)
    omega
  have whole := List.sum_take_add_sum_drop split i
  omega

/-- With no empty stage every layer is in one stage. -/
theorem existsUnique_stage {split : List ℤ} (positive : ∀ n ∈ split, 1 ≤ n) {layer : ℤ}
    (nonneg : 0 ≤ layer) (lt : layer < split.sum) :
    ∃! i, i < split.length ∧ (split.take i).sum ≤ layer ∧ layer < (split.take (i + 1)).sum := by
  induction split using List.reverseRecOn with
  | nil =>
    rw [List.sum_nil] at lt
    omega
  | append_singleton split n ih =>
    have before : ∀ m ∈ split, 1 ≤ m := fun m mem ↦ positive m (List.mem_append_left _ mem)
    have front : ∀ i, i ≤ split.length → (split ++ [n]).take i = split.take i :=
      fun i le ↦ List.take_append_of_le_length le
    by_cases inside : layer < split.sum
    · obtain ⟨i, ⟨hi, le, above⟩, unique⟩ := ih before inside
      refine ⟨i, ⟨?_, ?_, ?_⟩, ?_⟩
      · rw [List.length_append]
        omega
      · rwa [front i hi.le]
      · rwa [front (i + 1) hi]
      · rintro j ⟨hj, le', above'⟩
        rw [List.length_append, List.length_singleton] at hj
        by_cases last : j = split.length
        · rw [last, front _ le_rfl, List.take_length] at le'
          omega
        · rw [front j (by omega)] at le'
          rw [front (j + 1) (by omega)] at above'
          exact unique j ⟨by omega, le', above'⟩
    · refine ⟨split.length, ⟨?_, ?_, ?_⟩, ?_⟩
      · rw [List.length_append, List.length_singleton]
        omega
      · rw [front _ le_rfl, List.take_length]
        omega
      · rwa [List.take_of_length_le (by rw [List.length_append, List.length_singleton])]
      · rintro j ⟨hj, -, above⟩
        by_contra other
        rw [List.length_append, List.length_singleton] at hj
        rw [front (j + 1) (by omega)] at above
        have := sum_take_le before (j + 1)
        omega

/-- `p` stages with a layer or more each, written as intervals one behind the other that have every
layer once. -/
structure PipelinePartition (totalNumLayers : ℤ) (p : Nat) (layerSplit : List ℤ)
    (client : Dict SplitKey ℤ) : Prop where
  length : layerSplit.length = p
  positive : ∀ n ∈ layerSplit, 1 ≤ n
  sum : layerSplit.sum = totalNumLayers
  written : ∀ i, i < p → client.get? (.ppNumLayers i) = layerSplit[i]?
  first : ∃ stop, stageLayers client 0 = some (0, stop)
  next : ∀ i, i + 1 < p → ∃ start stop stop', stageLayers client i = some (start, stop) ∧
    stageLayers client (i + 1) = some (stop, stop')
  last : ∃ start, stageLayers client (p - 1) = some (start, totalNumLayers)
  partition : ∀ layer, 0 ≤ layer → layer < totalNumLayers →
    ∃! i, i < p ∧ ∃ start stop, stageLayers client i = some (start, stop) ∧
      start ≤ layer ∧ layer < stop

theorem get?_ppNumLayers (client : Dict SplitKey ℤ) (split : List ℤ) {i : Nat}
    (lt : i < split.length) :
    (applyLayerSplit client split).get? (.ppNumLayers i) = split[i]? := by
  induction split using List.reverseRecOn with
  | nil => exact absurd lt (Nat.not_lt_zero i)
  | append_singleton split n ih =>
    rw [applyLayerSplit_concat]
    rw [List.length_append, List.length_singleton] at lt
    by_cases last : i = split.length
    · simp [Dict.get?_insert, last]
    · have inside : i < split.length := by omega
      simp [Dict.get?_insert, last, ih inside, List.getElem?_append_left inside]

/-- What is written is a partition if no stage is empty. -/
theorem pipelinePartition_of_positive (client : Dict SplitKey ℤ) {split : List ℤ}
    (some : split ≠ []) (positive : ∀ n ∈ split, 1 ≤ n) :
    PipelinePartition split.sum split.length split (applyLayerSplit client split) := by
  have layers := fun i ↦ stageLayers_applyLayerSplit client split (i := i)
  have pos := List.length_pos_of_ne_nil some
  constructor
  · rfl
  · exact positive
  · rfl
  · exact fun i ↦ get?_ppNumLayers client split
  · exact ⟨_, layers 0 pos⟩
  · intro i lt
    exact ⟨_, _, _, layers i (by omega), layers (i + 1) lt⟩
  · refine ⟨(split.take (split.length - 1)).sum, ?_⟩
    rw [layers _ (by omega), Nat.sub_add_cancel pos, List.take_length]
  · intro layer nonneg lt
    obtain ⟨i, ⟨hi, le, above⟩, unique⟩ := existsUnique_stage positive nonneg lt
    refine ⟨i, ⟨hi, _, _, layers i hi, le, above⟩, ?_⟩
    rintro j ⟨hj, start, stop, eq, le', above'⟩
    rw [layers j hj] at eq
    cases eq
    exact unique j ⟨hj, le', above'⟩

/-- The signal to stop the training touches none of the stages. -/
theorem PipelinePartition.insert_terminateCtl {p : Nat} {split : List ℤ} {client : Dict SplitKey ℤ}
    {total : ℤ} (h : PipelinePartition total p split client) (signal : ℤ) :
    PipelinePartition total p split (client.insert .terminateCtl signal) := by
  have layers : stageLayers (client.insert .terminateCtl signal) = stageLayers client := by
    funext i
    simp [stageLayers, Dict.get?_insert]
  constructor
  · exact h.length
  · exact h.positive
  · exact h.sum
  · intro i lt
    rw [Dict.get?_insert, if_neg (by simp), h.written i lt]
  all_goals rw [layers]
  · exact h.first
  · exact h.next
  · exact h.last
  · exact h.partition

/-! ### The shares -/

/-- The exact parts of the stages. -/
def shares (totalNumLayers : ℤ) (stageTimes : List ℚ) : List ℚ :=
  (throughput stageTimes).map (totalNumLayers * ·)

variable {stageTimes : List ℚ} {totalNumLayers : ℤ}

theorem shares_sum (totalNumLayers : ℤ) (some : stageTimes ≠ [])
    (positive : ∀ t ∈ stageTimes, 0 < t) :
    (shares totalNumLayers stageTimes).sum = totalNumLayers := by
  have total : 0 < (stageTimes.map (1 / ·)).sum := by
    apply List.sum_pos
    · intro x mem
      obtain ⟨t, known, rfl⟩ := List.mem_map.mp mem
      exact one_div_pos.mpr (positive t known)
    · simpa using some
  have ones : (throughput stageTimes).sum = 1 := by
    simp only [throughput, div_eq_mul_inv _ (List.sum _)]
    rw [List.sum_map_mul_right, List.map_id', mul_inv_cancel₀ total.ne']
  rw [shares, List.sum_map_mul_left, List.map_id', ones, mul_one]

theorem layerSplit_eq : layerSplit totalNumLayers stageTimes =
    (shares totalNumLayers stageTimes).dropLast.map roundHalfEven ++
      [totalNumLayers - ((shares totalNumLayers stageTimes).dropLast.map roundHalfEven).sum] := by
  simp only [layerSplit, shares, ← List.map_dropLast, List.map_map]
  rfl

theorem sum_roundHalfEven (parts : List ℚ) :
    (((parts.map roundHalfEven).sum : ℤ) : ℚ) = parts.sum + (parts.map roundingError).sum := by
  induction parts with
  | nil => simp
  | cons x parts ih =>
    simp only [List.map_cons, List.sum_cons, Int.cast_add, ih, roundingError]
    ring

/-- No stage is empty exactly if every share but the last is above a half and what rounding adds to
them leaves one layer or more of the last share. -/
theorem layerSplit_positive_iff (some : stageTimes ≠ []) (positive : ∀ t ∈ stageTimes, 0 < t) :
    (∀ n ∈ layerSplit totalNumLayers stageTimes, 1 ≤ n) ↔
      (∀ s ∈ (shares totalNumLayers stageTimes).dropLast, 1 / 2 < s) ∧
      ((shares totalNumLayers stageTimes).dropLast.map roundingError).sum ≤
        (shares totalNumLayers stageTimes).getLastD 0 - 1 := by
  have total := shares_sum totalNumLayers some positive
  have parts : shares totalNumLayers stageTimes ≠ [] := by
    simpa [shares, throughput] using some
  rw [layerSplit_eq]
  obtain ⟨front, last, eq⟩ := (List.eq_nil_or_concat _).resolve_left parts
  rw [eq, List.concat_eq_append] at total ⊢
  rw [List.dropLast_concat, List.getLastD_concat]
  rw [List.sum_append, List.sum_singleton] at total
  have rounded := sum_roundHalfEven front
  have left : 1 ≤ totalNumLayers - (front.map roundHalfEven).sum ↔
      (front.map roundingError).sum ≤ last - 1 := by
    rw [← Int.cast_le (R := ℚ), Int.cast_sub, rounded, ← total, Int.cast_one]
    constructor <;> intro h <;> linarith
  simp only [List.forall_mem_append, List.forall_mem_map, List.forall_mem_singleton,
    one_le_roundHalfEven, left]

/-- Rounding adds half a layer per stage at most, so shares of half a layer more than half as many
layers as there are stages are enough. -/
theorem layerSplit_positive_of_le (some : stageTimes ≠ []) (positive : ∀ t ∈ stageTimes, 0 < t)
    (large : ∀ s ∈ shares totalNumLayers stageTimes, ((stageTimes.length : ℚ) + 1) / 2 ≤ s) :
    ∀ n ∈ layerSplit totalNumLayers stageTimes, 1 ≤ n := by
  have parts : shares totalNumLayers stageTimes ≠ [] := by
    simpa [shares, throughput] using some
  have length : (shares totalNumLayers stageTimes).length = stageTimes.length := by
    simp [shares, throughput]
  apply (layerSplit_positive_iff some positive).mpr
  obtain ⟨front, last, eq⟩ := (List.eq_nil_or_concat _).resolve_left parts
  rw [eq, List.concat_eq_append] at large length ⊢
  rw [List.length_append, List.length_singleton] at length
  have stages : (stageTimes.length : ℚ) = front.length + 1 := by exact_mod_cast length.symm
  rw [stages] at large
  rw [List.dropLast_concat, List.getLastD_concat]
  have front_nonneg : (0 : ℚ) ≤ front.length := Nat.cast_nonneg _
  constructor
  · intro s mem
    have := large s (List.mem_append_left _ mem)
    linarith
  · have errors : (front.map roundingError).sum ≤
        (front.map roundingError).length • (1 / 2 : ℚ) := by
      apply List.sum_le_card_nsmul
      intro x mem
      obtain ⟨s, -, rfl⟩ := List.mem_map.mp mem
      exact (le_abs_self _).trans (abs_roundingError_le s)
    rw [List.length_map, nsmul_eq_mul] at errors
    have := large last (List.mem_append_right _ (List.mem_singleton_self _))
    linarith

/-- The intervals written are a partition exactly if no stage is empty. -/
theorem splitByTimes_partition_iff_positive (client : Dict SplitKey ℤ) (some : stageTimes ≠ []) :
    PipelinePartition totalNumLayers stageTimes.length (layerSplit totalNumLayers stageTimes)
        (splitByTimes client totalNumLayers stageTimes) ↔
      ∀ n ∈ layerSplit totalNumLayers stageTimes, 1 ≤ n := by
  constructor
  · exact fun h ↦ h.positive
  · intro nonempty
    have length : (layerSplit totalNumLayers stageTimes).length = stageTimes.length := by
      have pos := List.length_pos_of_ne_nil some
      rw [layerSplit_eq, List.length_append, List.length_map, List.length_dropLast, shares,
        throughput, List.length_map, List.length_map, List.length_map]
      exact Nat.sub_add_cancel pos
    have sum : (layerSplit totalNumLayers stageTimes).sum = totalNumLayers := by
      rw [layerSplit_eq, List.sum_append, List.sum_singleton]
      exact add_sub_cancel _ _
    have whole := pipelinePartition_of_positive client (by simp [layerSplit_eq]) nonempty
    rw [sum, length] at whole
    exact whole.insert_terminateCtl 123

/-- The stages partition the layers, with the intervals written for them, exactly if every share but
the last is above a half and what rounding adds to them leaves one layer or more of the last
share. -/
theorem splitByTimes_partition (client : Dict SplitKey ℤ) (totalNumLayers : ℤ)
    (stageTimes : List ℚ) (some : stageTimes ≠ []) (positive : ∀ t ∈ stageTimes, 0 < t) :
    PipelinePartition totalNumLayers stageTimes.length (layerSplit totalNumLayers stageTimes)
        (splitByTimes client totalNumLayers stageTimes) ↔
      (∀ s ∈ (shares totalNumLayers stageTimes).dropLast, 1 / 2 < s) ∧
      ((shares totalNumLayers stageTimes).dropLast.map roundingError).sum ≤
        (shares totalNumLayers stageTimes).getLastD 0 - 1 := by
  rw [splitByTimes_partition_iff_positive client some, layerSplit_positive_iff some positive]

/-- Three fast stages and a slow one share five layers: the fast ones are rounded up to two each. -/
theorem splitByTimes_negative :
    layerSplit 5 [1 / 3, 1 / 3, 1 / 3, 1] = [2, 2, 2, -1] ∧
      ¬ PipelinePartition 5 4 (layerSplit 5 [1 / 3, 1 / 3, 1 / 3, 1])
        (splitByTimes .empty 5 [1 / 3, 1 / 3, 1 / 3, 1]) := by
  have split : layerSplit 5 [1 / 3, 1 / 3, 1 / 3, 1] = [2, 2, 2, -1] := by decide +kernel
  refine ⟨split, ?_⟩
  intro h
  have := h.positive (-1) (by rw [split]; simp)
  omega

theorem splitByTimes_partition_even :
    PipelinePartition 8 2 (layerSplit 8 [1, 3]) (splitByTimes .empty 8 [1, 3]) ↔
      (∀ s ∈ (shares 8 [1, 3]).dropLast, 1 / 2 < s) ∧
      ((shares 8 [1, 3]).dropLast.map roundingError).sum ≤ (shares 8 [1, 3]).getLastD 0 - 1 :=
  splitByTimes_partition .empty 8 [1, 3] (by decide) (by decide +kernel)

/-! ### From the measured times -/

section

variable {tpRanks : String} {commResults : Dict (List Nat) TaskResults}
  (measured : parseCommunicationResults tpRanks commResults = some stageTimes)
  (some : stageTimes ≠ []) (positive : ∀ t ∈ stageTimes, 0 < t)

include measured some positive

/-- What `adjust_pipeline_parallel` writes from the results of the communicators is a partition
under the condition on the times it reads off them. -/
theorem adjustPipelineParallel_partition_iff (client : Dict SplitKey ℤ) :
    (∃ written, adjustPipelineParallel client tpRanks totalNumLayers commResults = .some written ∧
        PipelinePartition totalNumLayers stageTimes.length (layerSplit totalNumLayers stageTimes)
          written) ↔
      (∀ s ∈ (shares totalNumLayers stageTimes).dropLast, 1 / 2 < s) ∧
      ((shares totalNumLayers stageTimes).dropLast.map roundingError).sum ≤
        (shares totalNumLayers stageTimes).getLastD 0 - 1 := by
  rw [← layerSplit_positive_iff some positive, ← splitByTimes_partition_iff_positive client some,
    adjustPipelineParallel, measured, Option.map_some]
  simp only [Option.some.injEq, exists_eq_left']

/-- Shares of half a layer more than half as many layers as there are stages are enough. -/
theorem adjustPipelineParallel_partition_of_le (client : Dict SplitKey ℤ)
    (large : ∀ s ∈ shares totalNumLayers stageTimes, ((stageTimes.length : ℚ) + 1) / 2 ≤ s) :
    ∃ written, adjustPipelineParallel client tpRanks totalNumLayers commResults = .some written ∧
      PipelinePartition totalNumLayers stageTimes.length (layerSplit totalNumLayers stageTimes)
        written := by
  rw [adjustPipelineParallel_partition_iff measured some positive,
    ← layerSplit_positive_iff some positive]
  exact layerSplit_positive_of_le some positive large

end

end ProbingBaselines.Greyhound.ControlPlane
