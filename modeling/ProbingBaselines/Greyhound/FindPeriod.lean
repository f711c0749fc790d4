import Mathlib.Algebra.Order.Field.Rat
import Mathlib.Data.Nat.Find

/-!
# The repeat pattern of a trace of calls

`find_period` (`detector/control_plane/slow_detection.py:142-163`) looks for the first place of a
sequence of call numbers where as many calls as the first peak of the autocorrelation says are
followed by the same calls again. Comparing two slices asserts that they are equally long, and near
the end of the sequence they are not.
-/

namespace ProbingBaselines.Greyhound.ControlPlane

/-- What `find_period` raises: the assertion of `dist`, or the use of a loop variable that no
iteration has set. -/
inductive PeriodError where
  | assertion
  | unboundLocal
  deriving DecidableEq

variable {ι : Type}

/-- `seq[start: stop]`, for bounds that are not negative. -/
def pySlice (seq : List ι) (start stop : Nat) : List ι := (seq.take stop).drop start

theorem length_pySlice (seq : List ι) (start stop : Nat) :
    (pySlice seq start stop).length = min stop seq.length - start := by
  rw [pySlice, List.length_drop, List.length_take]

/-- From place `i` on the sequence has a pattern of `period` calls twice. -/
def Repeats (seq : List ι) (period i : Nat) : Prop :=
  pySlice seq i (i + period) = pySlice seq (i + period) (i + 2 * period) ∧
    (pySlice seq i (i + period)).length = period ∧
    (pySlice seq (i + period) (i + 2 * period)).length = period

/-- The slices are full up to `2 * period` places from the end. -/
theorem repeats_iff {seq : List ι} {period i : Nat} (pos : 0 < period) :
    Repeats seq period i ↔ i + 2 * period ≤ seq.length ∧
      pySlice seq i (i + period) = pySlice seq (i + period) (i + 2 * period) := by
  simp only [Repeats, length_pySlice]
  constructor
  · rintro ⟨same, -, full⟩
    exact ⟨by omega, same⟩
  · rintro ⟨room, same⟩
    exact ⟨same, by omega, by omega⟩

variable [DecidableEq ι]

/-- The number of places where two sequences differ; `slow_detection.py:143-148`. -/
def dist (seq1 seq2 : List ι) : Except PeriodError Nat :=
  if seq1.length = seq2.length then
    .ok (seq1.length - (seq1.zip seq2).countP fun e ↦ e.1 = e.2)
  else .error .assertion

/-- The loop over the places, with the value of its variable so far; `slow_detection.py:155-160`. -/
def searchLoop (seq : List ι) (period : Nat) : Option Nat → List Nat → Except PeriodError Nat
  | none, [] => .error .unboundLocal
  | some i, [] => .ok i
  | _, i :: rest =>
    match dist (pySlice seq i (i + period)) (pySlice seq (i + period) (i + 2 * period)) with
    | .error e => .error e
    | .ok 0 => .ok i
    | .ok (_ + 1) => searchLoop seq period (some i) rest

/-- `acfPeaks` stands for `find_peaks` on the values of `stattools.acf`;
`slow_detection.py:142-163`. -/
def findPeriod (acfPeaks : List ι → Nat → ℚ → List Nat) (seq : List ι) (nlags : Nat)
    (significanceLevel : ℚ) : Except PeriodError (Int × Option Nat) :=
  match acfPeaks seq nlags significanceLevel with
  | estimatedPeriod :: _ =>
    (searchLoop seq estimatedPeriod none (List.range seq.length)).map fun i ↦
      (↑i, some estimatedPeriod)
  | [] => .ok (-1, none)

/-- The answer is the first repetition, and that there is no pattern where nothing repeats. -/
def FindsPattern (seq : List ι) (peaks : List Nat)
    (answer : Except PeriodError (Int × Option Nat)) : Prop :=
  (∃ p ∈ peaks.head?, ∃ i, Repeats seq p i ∧ (∀ j, j < i → ¬ Repeats seq p j) ∧
    answer = .ok (↑i, some p)) ∨
  (∀ p ∈ peaks.head?, ∀ i, ¬ Repeats seq p i) ∧ answer = .ok (-1, none)

/-! ### Comparing two slices -/

variable {seq : List ι} {period i : Nat}

instance : Decidable (Repeats seq period i) := inferInstanceAs (Decidable (_ ∧ _ ∧ _))

/-- Sequences of one length agree everywhere exactly if they are equal. -/
theorem countP_zip_eq {xs ys : List ι} (length : xs.length = ys.length) :
    xs.length - (xs.zip ys).countP (fun e ↦ e.1 = e.2) = 0 ↔ xs = ys := by
  have bound : (xs.zip ys).length = xs.length := by
    rw [List.length_zip]
    omega
  have all : xs.length - (xs.zip ys).countP (fun e ↦ e.1 = e.2) = 0 ↔
      (xs.zip ys).countP (fun e ↦ e.1 = e.2) = (xs.zip ys).length := by
    have := List.countP_le_length (p := fun e : ι × ι ↦ e.1 = e.2) (l := xs.zip ys)
    omega
  rw [all, List.countP_eq_length]
  constructor
  · intro agree
    apply List.ext_getElem length
    intro k hx hy
    have mem : (xs[k], ys[k]) ∈ xs.zip ys := by
      rw [← List.getElem_zip (h := by omega)]
      exact List.getElem_mem _
    simpa using agree _ mem
  · rintro rfl e mem
    obtain ⟨k, hk, rfl⟩ := List.mem_iff_getElem.mp mem
    simp

/-- What one comparison of the loop does. -/
theorem dist_cases (seq : List ι) (i : Nat) (pos : 0 < period) (inside : i < seq.length) :
    (Repeats seq period i ∧
      dist (pySlice seq i (i + period)) (pySlice seq (i + period) (i + 2 * period)) = .ok 0) ∨
    (¬ Repeats seq period i ∧ i + 2 * period ≤ seq.length ∧ ∃ k,
      dist (pySlice seq i (i + period)) (pySlice seq (i + period) (i + 2 * period)) =
        .ok (k + 1)) ∨
    (¬ Repeats seq period i ∧ seq.length < i + 2 * period ∧
      dist (pySlice seq i (i + period)) (pySlice seq (i + period) (i + 2 * period)) =
        .error .assertion) := by
  rw [repeats_iff pos]
  by_cases room : i + 2 * period ≤ seq.length
  · have length : (pySlice seq i (i + period)).length =
        (pySlice seq (i + period) (i + 2 * period)).length := by
      rw [length_pySlice, length_pySlice]
      omega
    have zero := countP_zip_eq length
    rw [dist, if_pos length]
    by_cases same : pySlice seq i (i + period) = pySlice seq (i + period) (i + 2 * period)
    · exact .inl ⟨⟨room, same⟩, by rw [zero.mpr same]⟩
    · right; left
      obtain ⟨k, differ⟩ := Nat.exists_eq_succ_of_ne_zero (mt zero.mp same)
      exact ⟨fun h ↦ same h.2, room, k, by rw [differ]⟩
  · right; right
    refine ⟨fun h ↦ room h.1, by omega, ?_⟩
    rw [dist, if_neg]
    rw [length_pySlice, length_pySlice]
    omega

/-! ### The loop -/

/-- The loop stops at the first repetition. -/
theorem searchLoop_found (pos : 0 < period) (found : Repeats seq period i) {start n : Nat}
    (whole : start + n = seq.length) (le : start ≤ i)
    (first : ∀ j, j < i → ¬ Repeats seq period j) (last : Option Nat) :
    searchLoop seq period last (List.range' start n) = .ok i := by
  have room := ((repeats_iff pos).mp found).1
  induction n generalizing start last with
  | zero => omega
  | succ n ih =>
    rw [List.range'_succ, searchLoop]
    rcases dist_cases seq start pos (by omega) with
      ⟨here, eq⟩ | ⟨missing, -, k, eq⟩ | ⟨missing, short, eq⟩
    · have : start = i := by
        by_contra ne
        exact first start (by omega) here
      rw [eq, this]
    · have : start ≠ i := by
        rintro rfl
        exact missing found
      simp only [eq]
      exact ih (by omega) (by omega) (some start)
    · omega

/-- Where nothing repeats the loop runs into the assertion. -/
theorem searchLoop_raises (pos : 0 < period) {start n : Nat} (whole : start + (n + 1) = seq.length)
    (missing : ∀ j, ¬ Repeats seq period j) (last : Option Nat) :
    searchLoop seq period last (List.range' start (n + 1)) = .error .assertion := by
  induction n generalizing start last with
  | zero =>
    rw [List.range'_succ, searchLoop]
    rcases dist_cases seq start pos (by omega) with
      ⟨here, -⟩ | ⟨-, room, -⟩ | ⟨-, -, eq⟩
    · exact absurd here (missing start)
    · omega
    · simp only [eq]
  | succ n ih =>
    rw [List.range'_succ, searchLoop]
    rcases dist_cases seq start pos (by omega) with
      ⟨here, -⟩ | ⟨-, -, k, eq⟩ | ⟨-, -, eq⟩
    · exact absurd here (missing start)
    · simp only [eq]
      exact ih (by omega) (some start)
    · simp only [eq]

/-- The first repetition from the start, or the exception. -/
theorem searchLoop_range (seq : List ι) (pos : 0 < period) :
    (∃ i, Repeats seq period i ∧ (∀ j, j < i → ¬ Repeats seq period j) ∧
      searchLoop seq period none (List.range seq.length) = .ok i) ∨
    (∀ i, ¬ Repeats seq period i) ∧
      ∃ e, searchLoop seq period none (List.range seq.length) = .error e := by
  rw [List.range_eq_range']
  by_cases any : ∃ i, Repeats seq period i
  · left
    refine ⟨Nat.find any, Nat.find_spec any, fun j ↦ Nat.find_min any, ?_⟩
    exact searchLoop_found pos (Nat.find_spec any) (Nat.zero_add _) (Nat.zero_le _)
      (fun j ↦ Nat.find_min any) none
  · right
    have missing : ∀ i, ¬ Repeats seq period i := fun i h ↦ any ⟨i, h⟩
    refine ⟨missing, ?_⟩
    cases length : seq.length with
    | zero => exact ⟨_, rfl⟩
    | succ n => exact ⟨_, searchLoop_raises pos (by omega) missing none⟩

/-! ### The whole function -/

/-- An exact repetition at the lag of the first peak is what keeps `find_period` from raising. -/
theorem findPeriod_findsPattern (acfPeaks : List ι → Nat → ℚ → List Nat) (seq : List ι)
    (nlags : Nat) (significanceLevel : ℚ)
    (lags : ∀ seq nlags significanceLevel, ∀ p ∈ acfPeaks seq nlags significanceLevel, 1 ≤ p) :
    FindsPattern seq (acfPeaks seq nlags significanceLevel)
        (findPeriod acfPeaks seq nlags significanceLevel) ↔
      ∀ p ∈ (acfPeaks seq nlags significanceLevel).head?, ∃ i, Repeats seq p i := by
  have positive := lags seq nlags significanceLevel
  rw [findPeriod]
  cases peaks : acfPeaks seq nlags significanceLevel with
  | nil => simp [FindsPattern]
  | cons p rest =>
    rw [peaks] at positive
    simp only [FindsPattern, List.head?_cons, Option.mem_some_iff, forall_eq', exists_eq_left']
    rcases searchLoop_range seq (positive p List.mem_cons_self) with
      ⟨i, found, first, eq⟩ | ⟨missing, e, eq⟩
    · simp only [eq]
      constructor
      · intro _
        exact ⟨i, found⟩
      · intro _
        exact .inl ⟨i, found, first, rfl⟩
    · simp only [eq]
      constructor
      · rintro (⟨i, found, -⟩ | ⟨-, answer⟩)
        · exact ⟨i, found⟩
        · cases answer
      · rintro ⟨i, found⟩
        exact absurd found (missing i)

theorem findPeriod_findsPattern_twice :
    FindsPattern [0, 1, 0, 1, 0, 1, 0, 1] [2]
        (findPeriod (fun _ _ _ ↦ [2]) [0, 1, 0, 1, 0, 1, 0, 1] 200 (7 / 10)) ↔
      ∀ p ∈ [2].head?, ∃ i, Repeats [0, 1, 0, 1, 0, 1, 0, 1] p i := by
  apply findPeriod_findsPattern (fun _ _ _ ↦ [2])
  intro _ _ _ p mem
  rw [List.mem_singleton.mp mem]
  decide

/-- Two calls alternate, and every other time the second one is another: at the lag 2 the
autocorrelation is high and no two slices are equal. -/
theorem findPeriod_raises : ¬ FindsPattern [0, 5, 0, 6, 0, 5, 0, 6, 0, 5, 0, 6, 0, 5, 0, 6] [2]
    (findPeriod (fun _ _ _ ↦ [2]) [0, 5, 0, 6, 0, 5, 0, 6, 0, 5, 0, 6, 0, 5, 0, 6] 200
      (4 / 5)) := by
  have raises : findPeriod (fun _ _ _ ↦ [2])
      [0, 5, 0, 6, 0, 5, 0, 6, 0, 5, 0, 6, 0, 5, 0, 6] 200 (4 / 5) = .error .assertion := by
    decide +kernel
  rw [raises]
  rintro (⟨p, -, i, -, -, answer⟩ | ⟨-, answer⟩)
  · cases answer
  · cases answer

end ProbingBaselines.Greyhound.ControlPlane
