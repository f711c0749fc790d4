import Mathlib.Algebra.Order.Field.Basic
import Mathlib.Tactic.Linarith
import Mathlib.Tactic.Ring
import ProbingBaselines.Greyhound.GlobalAnalyzer
import ProbingBaselines.Greyhound.IterTime

/-!
# Iteration times from compute times

`get_time_array` (`detector/control_plane/dp_planner.py:9-31`) gives each data-parallel group an
iteration time: the normal one to those within 1.1 times the median compute time, and to the others
one on the line from the fastest to the slowest of all. Times are exact rationals.
-/

namespace ProbingBaselines.Greyhound.ControlPlane

open Lib

/-- `threshold: float = 1.1`. -/
def defaultThreshold : ℚ := 11 / 10

/-- A division by zero raises. -/
def divide (a b : ℚ) : Option ℚ := if b = 0 then none else some (a / b)

/-- The time of one rank; `dp_planner.py:21-30`. -/
def iterTime (threshold minIterTime slowIterTime minComputeTime maxComputeTime medianComputeTime
    rankLat : ℚ) : Option ℚ :=
  if rankLat ≤ threshold * medianComputeTime then some minIterTime
  else (divide (slowIterTime - minIterTime) (maxComputeTime - minComputeTime)).map fun slope ↦
    let intercept := slowIterTime - slope * maxComputeTime
    slope * rankLat + intercept

/-- `time_array[rank] = time`. -/
def setTime (timeArray : List ℚ) (rank : Nat) (time : ℚ) : Option (List ℚ) :=
  if rank < timeArray.length then some (timeArray.set rank time) else none

/-- `np.median` of a list that is not empty, without rounding. -/
def median (xs : List ℚ) : ℚ := ((middles xs).1 + (middles xs).2) / 2

/-- `get_time_array`, `none` where it raises; `dp_planner.py:9-31`. -/
def getTimeArray (times : IterTimes) (computeTime : Dict Nat PerformanceMetric) (threshold : ℚ) :
    Option (List ℚ) := do
  let minIterTime ← times.minIterTime
  let slowIterTime ← times.curIterTime
  let vals := computeTime.values.map (·.avgLat)
  let minComputeTime ← vals.min?
  let maxComputeTime ← vals.max?
  let time :=
    iterTime threshold minIterTime slowIterTime minComputeTime maxComputeTime (median vals)
  computeTime.items.foldlM (fun timeArray e ↦ (time e.2.avgLat).bind (setTime timeArray e.1))
    (List.replicate computeTime.items.length 0)

/-! ### The line between the fastest and the slowest -/

/-- The value at `x` of the line through `(m, low)` and `(M, high)`. -/
def onLine (low high m M x : ℚ) : ℚ := high - (high - low) / (M - m) * (M - x)

section

variable {low high m M x y : ℚ}

theorem onLine_mono (le : low ≤ high) (lt : m < M) (h : x ≤ y) :
    onLine low high m M x ≤ onLine low high m M y := by
  have slope : 0 ≤ (high - low) / (M - m) := div_nonneg (by linarith) (by linarith)
  have := mul_le_mul_of_nonneg_left (show M - y ≤ M - x by linarith) slope
  unfold onLine
  linarith

theorem onLine_top : onLine low high m M M = high := by
  rw [onLine, sub_self, mul_zero, sub_zero]

theorem onLine_bottom (lt : m < M) : onLine low high m M m = low := by
  have ne : M - m ≠ 0 := by
    intro zero
    linarith
  rw [onLine, div_mul_cancel₀ _ ne]
  ring

end

/-- A median lies between bounds of its values. -/
theorem le_median {xs : List ℚ} (some : xs ≠ []) {a : ℚ} (h : ∀ x ∈ xs, a ≤ x) : a ≤ median xs := by
  have length := List.length_insertionSort (· ≤ ·) xs
  have pos := List.length_pos_iff.mpr some
  have each : ∀ i, i < xs.length → a ≤ (xs.insertionSort (· ≤ ·)).getD i 0 := by
    intro i hi
    rw [List.getD_eq_getElem _ _ (by omega)]
    exact h _ ((List.mem_insertionSort _).mp (List.getElem_mem _))
  have low := each ((xs.length - 1) / 2) (by omega)
  have high := each (xs.length / 2) (by omega)
  simp only [median, middles]
  linarith

/-! ### The array -/

/-- What the loop stores: the values of the keys, and the others as they were. -/
theorem foldlM_setTime {α : Type} {f : α → Option ℚ} {g : α → ℚ} (items : List (Nat × α))
    (values : ∀ e ∈ items, f e.2 = some (g e.2)) (nodup : (items.map Prod.fst).Nodup)
    (array : List ℚ) (within : ∀ e ∈ items, e.1 < array.length) :
    ∃ array', items.foldlM (fun array e ↦ (f e.2).bind (setTime array e.1)) array = some array' ∧
      array'.length = array.length ∧ (∀ e ∈ items, array'[e.1]? = some (g e.2)) ∧
      ∀ r, r ∉ items.map Prod.fst → array'[r]? = array[r]? := by
  induction items generalizing array with
  | nil =>
    refine ⟨array, rfl, rfl, ?_, fun _ _ ↦ rfl⟩
    intro e mem
    cases mem
  | cons e items ih =>
    rw [List.map_cons, List.nodup_cons] at nodup
    have room := within e List.mem_cons_self
    have within' : ∀ e' ∈ items, e'.1 < (array.set e.1 (g e.2)).length := by
      intro e' mem
      rw [List.length_set]
      exact within e' (List.mem_cons_of_mem _ mem)
    rcases ih (fun e' mem ↦ values e' (List.mem_cons_of_mem _ mem)) nodup.2 _ within' with
      ⟨array', fold, length, stored, others⟩
    refine ⟨array', ?_, by rw [length, List.length_set], ?_, ?_⟩
    · rw [List.foldlM_cons, values e List.mem_cons_self, Option.bind_some, setTime, if_pos room]
      exact fold
    · intro e' mem
      rcases List.mem_cons.mp mem with rfl | later
      · rw [others _ nodup.1, List.getElem?_set_self room]
      · exact stored e' later
    · intro r mem
      rw [List.map_cons, List.mem_cons, not_or] at mem
      rw [others r mem.2, List.getElem?_set_ne (Ne.symm mem.1)]

/-- The time of a latency, when there is no division by zero. -/
def timeOf (threshold low high m M median lat : ℚ) : ℚ :=
  if lat ≤ threshold * median then low else onLine low high m M lat

section

variable {threshold low high m M med lat lat' : ℚ}

/-- A latency beyond the threshold is beyond the fastest. -/
theorem lt_of_slow (one : 1 ≤ threshold) (pos : 0 < m) (median : m ≤ med)
    (slow : ¬lat ≤ threshold * med) : m < lat := by
  have := mul_le_mul_of_nonneg_right one (le_of_lt (lt_of_lt_of_le pos median))
  linarith

theorem iterTime_eq (one : 1 ≤ threshold) (pos : 0 < m) (median : m ≤ med) (top : lat ≤ M) :
    iterTime threshold low high m M med lat = some (timeOf threshold low high m M med lat) := by
  unfold iterTime timeOf
  split
  · rfl
  · next slow =>
    have lt := lt_of_slow one pos median slow
    have ne : M - m ≠ 0 := by
      intro zero
      linarith
    rw [divide, if_neg ne, Option.map_some, onLine]
    congr 1
    ring

theorem timeOf_mem (one : 1 ≤ threshold) (pos : 0 < m) (median : m ≤ med) (le : low ≤ high)
    (top : lat ≤ M) :
    low ≤ timeOf threshold low high m M med lat ∧ timeOf threshold low high m M med lat ≤ high := by
  unfold timeOf
  split
  · exact ⟨le_refl _, le⟩
  · next slow =>
    have lt := lt_of_slow one pos median slow
    have wide : m < M := lt_of_lt_of_le lt top
    constructor
    · calc low = onLine low high m M m := (onLine_bottom wide).symm
        _ ≤ onLine low high m M lat := onLine_mono le wide (le_of_lt lt)
    · calc onLine low high m M lat ≤ onLine low high m M M := onLine_mono le wide top
        _ = high := onLine_top

theorem timeOf_mono (one : 1 ≤ threshold) (pos : 0 < m) (median : m ≤ med) (le : low ≤ high)
    (top : lat' ≤ M) (h : lat ≤ lat') :
    timeOf threshold low high m M med lat ≤ timeOf threshold low high m M med lat' := by
  by_cases normal : lat ≤ threshold * med
  · rw [timeOf, if_pos normal]
    exact (timeOf_mem one pos median le top).1
  · have slow : ¬lat' ≤ threshold * med := fun normal' ↦ normal (h.trans normal')
    have wide : m < M := lt_of_lt_of_le (lt_of_slow one pos median slow) top
    rw [timeOf, timeOf, if_neg normal, if_neg slow]
    exact onLine_mono le wide h

end

/-- A table of positive latencies for the ranks below `n`. -/
structure IsLatencyTable (computeTime : Dict Nat PerformanceMetric) (n : Nat) : Prop where
  keys : computeTime.keys.Perm (List.range n)
  nonempty : 0 < n
  pos : ∀ metric ∈ computeTime.values, 0 < metric.avgLat

namespace IsLatencyTable

variable {computeTime : Dict Nat PerformanceMetric} {n : Nat}

theorem items_length (table : IsLatencyTable computeTime n) : computeTime.items.length = n := by
  rw [← List.length_map (f := Prod.fst), ← Dict.keys, table.keys.length_eq, List.length_range]

/-- The latencies are those of the items. -/
theorem mem_latencies {lat : ℚ} :
    lat ∈ computeTime.values.map (·.avgLat) ↔ ∃ e ∈ computeTime.items, e.2.avgLat = lat := by
  rw [Dict.values, List.map_map, List.mem_map]
  rfl

/-- There are a fastest and a slowest group, the median is between them and nothing is zero. -/
theorem extremes (table : IsLatencyTable computeTime n) :
    ∃ m M, (computeTime.values.map (·.avgLat)).min? = some m ∧
      (computeTime.values.map (·.avgLat)).max? = some M ∧
      0 < m ∧ m ≤ median (computeTime.values.map (·.avgLat)) ∧
      (∀ e ∈ computeTime.items, e.2.avgLat ≤ M) ∧ ∃ e ∈ computeTime.items, e.2.avgLat = M := by
  have some_vals : computeTime.values.map (·.avgLat) ≠ [] := by
    rw [Dict.values, List.map_map, ← List.length_pos_iff, List.length_map, table.items_length]
    exact table.nonempty
  rcases Option.isSome_iff_exists.mp (List.isSome_min?_of_ne_nil some_vals) with ⟨m, hm⟩
  rcases Option.isSome_iff_exists.mp (List.isSome_max?_of_ne_nil some_vals) with ⟨M, hM⟩
  have least := List.min?_eq_some_iff.mp hm
  have most := List.max?_eq_some_iff.mp hM
  refine ⟨m, M, hm, hM, ?_, le_median some_vals least.2, ?_, mem_latencies.mp most.1⟩
  · rcases List.mem_map.mp least.1 with ⟨metric, hmetric, rfl⟩
    exact table.pos metric hmetric
  · intro e he
    exact most.2 _ (mem_latencies.mpr ⟨e, he, rfl⟩)

/-- The loop over the items gives each rank the time of its latency, and there are no others. -/
theorem foldlM_setTime (table : IsLatencyTable computeTime n) (f : ℚ → Option ℚ) (g : ℚ → ℚ)
    (values : ∀ e ∈ computeTime.items, f e.2.avgLat = some (g e.2.avgLat)) :
    ∃ timeArray, computeTime.items.foldlM (fun array e ↦ (f e.2.avgLat).bind (setTime array e.1))
        (List.replicate computeTime.items.length 0) = some timeArray ∧
      timeArray.length = n ∧
      (∀ e ∈ computeTime.items, timeArray[e.1]? = some (g e.2.avgLat)) ∧
      ∀ time ∈ timeArray, ∃ e ∈ computeTime.items, time = g e.2.avgLat := by
  have within : ∀ e ∈ computeTime.items,
      e.1 < (List.replicate computeTime.items.length (0 : ℚ)).length := by
    intro e he
    rw [List.length_replicate, table.items_length, ← List.mem_range, ← table.keys.mem_iff]
    exact Dict.mem_of_mem_items he
  rcases ControlPlane.foldlM_setTime (f := fun metric ↦ f metric.avgLat) (g := fun metric ↦
      g metric.avgLat) computeTime.items values computeTime.nodup _ within with
    ⟨timeArray, fold, length, stored, -⟩
  rw [List.length_replicate, table.items_length] at length
  refine ⟨timeArray, fold, length, stored, ?_⟩
  intro time mem
  rcases List.getElem_of_mem mem with ⟨r, hr, rfl⟩
  have key : r ∈ computeTime.keys := table.keys.mem_iff.mpr (List.mem_range.mpr (by omega))
  rcases List.mem_map.mp key with ⟨e, he, rfl⟩
  have eq := stored e he
  rw [List.getElem?_eq_getElem hr, Option.some_inj] at eq
  exact ⟨e, he, eq⟩

end IsLatencyTable

/-- The array of a table of positive latencies: it exists, its times are between the normal one and
the one after the slowdown and grow with the latency, and a rank beyond the threshold sends the
slowest one to the top. -/
theorem getTimeArray_spec {computeTime : Dict Nat PerformanceMetric} {n : Nat} {low high : ℚ}
    (table : IsLatencyTable computeTime n) (le : low ≤ high) :
    ∃ timeArray, getTimeArray ⟨some low, some high⟩ computeTime defaultThreshold = some timeArray ∧
      timeArray.length = n ∧ (∀ time ∈ timeArray, low ≤ time ∧ time ≤ high) ∧
      (∀ e ∈ computeTime.items, ∀ e' ∈ computeTime.items, e.2.avgLat ≤ e'.2.avgLat →
        ∃ time time', timeArray[e.1]? = some time ∧ timeArray[e'.1]? = some time' ∧
          time ≤ time') ∧
      ((∃ metric ∈ computeTime.values,
          defaultThreshold * median (computeTime.values.map (·.avgLat)) < metric.avgLat) →
        ∀ e ∈ computeTime.items, (∀ e' ∈ computeTime.items, e'.2.avgLat ≤ e.2.avgLat) →
          timeArray[e.1]? = some high) := by
  have one : 1 ≤ defaultThreshold := by norm_num [defaultThreshold]
  rcases table.extremes with ⟨m, M, hm, hM, pos, mid, top, slowest_mem⟩
  obtain ⟨med, hmed⟩ : ∃ med, med = median (computeTime.values.map (·.avgLat)) := ⟨_, rfl⟩
  rw [← hmed] at mid ⊢
  rcases table.foldlM_setTime (iterTime defaultThreshold low high m M med)
      (timeOf defaultThreshold low high m M med)
      (fun e he ↦ iterTime_eq one pos mid (top e he)) with
    ⟨timeArray, fold, length, stored, others⟩
  refine ⟨timeArray, ?_, length, ?_, ?_, ?_⟩
  · simp only [getTimeArray, Option.bind_eq_bind, Option.bind_some, hm, hM, ← hmed]
    exact fold
  · intro time mem
    rcases others time mem with ⟨e, he, rfl⟩
    exact timeOf_mem one pos mid le (top e he)
  · intro e he e' he' slower
    exact ⟨_, _, stored e he, stored e' he', timeOf_mono one pos mid le (top e' he') slower⟩
  · rintro ⟨metric, hmetric, slow⟩ e he slowest
    -- The slowest of all is beyond the threshold too, so it is not given the normal time.
    have last : e.2.avgLat = M := by
      rcases slowest_mem with ⟨e', he', rfl⟩
      exact le_antisymm (top e he) (slowest e' he')
    have beyond : ¬M ≤ defaultThreshold * med := by
      rcases List.mem_map.mp hmetric with ⟨e', he', rfl⟩
      have := top e' he'
      linarith
    rw [stored e he, last, timeOf, if_neg beyond, onLine_top]

/-- Two groups, the second of them slow. -/
theorem getTimeArray_spec_two :
    ∃ timeArray, getTimeArray ⟨some 10, some 20⟩
        (Dict.ofItems [(0, ⟨65, 65, 65, 0⟩), (1, ⟨515, 515, 515, 50⟩)]) defaultThreshold =
          some timeArray ∧ timeArray[1]? = some 20 := by
  have table : IsLatencyTable (Dict.ofItems [(0, ⟨65, 65, 65, 0⟩), (1, ⟨515, 515, 515, 50⟩)]) 2 :=
    ⟨by decide, by decide, by decide +kernel⟩
  have le : (10 : ℚ) ≤ 20 := by norm_num
  rcases getTimeArray_spec table le with
    ⟨timeArray, eq, -, -, -, top⟩
  refine ⟨timeArray, eq, ?_⟩
  exact top ⟨⟨515, 515, 515, 50⟩, by decide +kernel, by decide +kernel⟩ (1, ⟨515, 515, 515, 50⟩)
    (by decide +kernel) (by decide +kernel)

end ProbingBaselines.Greyhound.ControlPlane
