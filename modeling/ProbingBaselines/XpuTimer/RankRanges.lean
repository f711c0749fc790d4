import Mathlib.Data.Finset.Sort
import Mathlib.Data.List.GetD
import ProbingBaselines.Lib.Decimal
import ProbingBaselines.Lib.Runs

/-!
# Rank ranges

A line of the flame graph tells which ranks have a stack and which do not, as ranges
(`py_xpu_timer/stack_viewer.py:48-82`): `@0-2/5-7|3-4`. Two cursors fold the sorted ranks. The
ranges are the maximal runs of the set, and both sets can be read back.
-/

namespace ProbingBaselines.XpuTimer

open Lib

/-! ### The two cursors -/

/-- `high_value + 1 == ranks[high + 1]` moves `high` on; `stack_viewer.py:67-69`. -/
def advanceHigh (ranks : List Nat) (high : Nat) : Nat :=
  if high + 1 < ranks.length ∧ ranks.getD high 0 + 1 = ranks.getD (high + 1) 0 then
    advanceHigh ranks (high + 1)
  else high
termination_by ranks.length - high

theorem le_advanceHigh (ranks : List Nat) (high : Nat) : high ≤ advanceHigh ranks high := by
  fun_induction advanceHigh ranks high with
  | case1 high _ ih => omega
  | case2 high _ => omega

/-- A range as it is written; `stack_viewer.py:72-75`. -/
def formatRange (lowValue highValue : Nat) : String :=
  if lowValue ≠ highValue then toString lowValue ++ "-" ++ toString highValue else toString lowValue

/-- The loop and what is done after it; `stack_viewer.py:64-77`. -/
def foldRanks (ranks : List Nat) (low high : Nat) (strBuf : List String) : List String :=
  if high + 1 < ranks.length then
    let high' := advanceHigh ranks high
    foldRanks ranks (high' + 1) (high' + 1)
      (strBuf ++ [formatRange (ranks.getD low 0) (ranks.getD high' 0)])
  else if high + 1 = ranks.length then strBuf ++ [toString (ranks.getD high 0)]
  else strBuf
termination_by ranks.length - high
decreasing_by
  have := le_advanceHigh ranks high
  omega

/-- `_inner_format`; `stack_viewer.py:53-78`. -/
def innerFormat (ranks : Finset Nat) : String :=
  "/".intercalate (foldRanks ranks.sort 0 0 [])

/-- `_format_rank_str`; `stack_viewer.py:48-82`. -/
def formatRankStr (allRanks ranks : Finset Nat) : String :=
  "@" ++ "|".intercalate [innerFormat ranks, innerFormat (allRanks \ ranks)]

/-- The cursor stops at the end of the run in which it starts. -/
theorem runs_drop {ranks : List Nat} {high : Nat} (h : high < ranks.length) :
    runs (ranks.drop high) = (ranks.getD high 0, ranks.getD (advanceHigh ranks high) 0) ::
      runs (ranks.drop (advanceHigh ranks high + 1)) := by
  fun_induction advanceHigh ranks high with
  | case1 high next ih =>
    rw [List.drop_eq_getElem_cons h, ← List.getD_eq_getElem _ 0 h]
    have rest := ih next.1
    rw [← next.2] at rest
    exact runs_cons_next rest
  | case2 high stop =>
    rw [List.drop_eq_getElem_cons h, ← List.getD_eq_getElem _ 0 h]
    rcases Nat.lt_or_ge (high + 1) ranks.length with more | last
    · rw [List.drop_eq_getElem_cons more, ← List.getD_eq_getElem _ 0 more]
      exact runs_cons_gap fun next ↦ stop ⟨more, next⟩
    · rw [List.drop_of_length_le last]
      rfl

/-- The loop writes the runs from the cursors on. -/
theorem foldRanks_eq (ranks : List Nat) (high : Nat) (strBuf : List String) :
    foldRanks ranks high high strBuf =
      strBuf ++ (runs (ranks.drop high)).map fun run ↦ formatRange run.1 run.2 := by
  induction k : ranks.length - high using Nat.strong_induction_on generalizing high strBuf with
  | _ k ih =>
    have le := le_advanceHigh ranks high
    rw [foldRanks]
    split
    · next more =>
      have here : high < ranks.length := by omega
      rw [ih _ (by omega) _ _ rfl, runs_drop here, List.map_cons, List.append_assoc,
        List.singleton_append]
    · split
      · next last =>
        have here : high < ranks.length := by omega
        rw [List.drop_eq_getElem_cons here, List.drop_of_length_le (by omega),
          ← List.getD_eq_getElem _ 0 here]
        simp [runs, formatRange]
      · rw [List.drop_of_length_le (by omega)]
        simp [runs]

/-! ### Reading the ranges back -/

/-- The number with these digits. -/
def readNumber (digits : List Char) : Nat := Nat.ofDigitChars 10 digits 0

/-- The first and the last number of a range, or the only one. -/
def readBounds : List (List Char) → Option (Nat × Nat)
  | [[]] => none
  | [low] => some (readNumber low, readNumber low)
  | [low, high] => some (readNumber low, readNumber high)
  | _ => none

/-- A piece between slashes: `a-b`, or `a` alone. -/
def readRange (piece : List Char) : Option (Nat × Nat) := readBounds (piece.splitOn '-')

def readRanges (s : List Char) : List (Nat × Nat) := (s.splitOn '/').filterMap readRange

/-- The ranges on both sides of the bar. -/
def readRankStr (s : List Char) : Option (List (Nat × Nat) × List (Nat × Nat)) :=
  match (s.drop 1).splitOn '|' with
  | [has, leak] => some (readRanges has, readRanges leak)
  | _ => none

theorem readNumber_toString (n : Nat) : readNumber (toString n).toList = n := by
  rw [readNumber, Nat.toString_eq_repr, Nat.toList_repr, Nat.ofDigitChars_ten_toDigits]

theorem readRange_formatRange (low high : Nat) :
    readRange (formatRange low high).toList = some (low, high) := by
  have dash := not_mem_toString (c := '-') (by decide)
  by_cases same : low = high
  · have text : (formatRange low high).toList = ['-'].intercalate [(toString low).toList] := by
      simp [formatRange, same]
    rw [readRange, text, List.splitOn_intercalate '-' (by simpa using dash low) (by simp), ← same]
    have digits := toString_ne_nil low
    have number := readNumber_toString low
    cases eq : (toString low).toList with
    | nil => exact absurd eq digits
    | cons c rest =>
      rw [eq] at number
      rw [readBounds, number]
      simp
  · have text : (formatRange low high).toList =
        ['-'].intercalate [(toString low).toList, (toString high).toList] := by
      simp [formatRange, same]
    have both : '-' ∉ (toString low).toList ∧ '-' ∉ (toString high).toList := ⟨dash low, dash high⟩
    rw [readRange, text, List.splitOn_intercalate '-' (by simpa using both) (by simp), readBounds,
      readNumber_toString, readNumber_toString]

/-- A character of a range that is not a digit is the dash. -/
theorem mem_formatRange {low high : Nat} {c : Char} (h : c ∈ (formatRange low high).toList) :
    c.isDigit ∨ c = '-' := by
  unfold formatRange at h
  split at h
  · rw [String.toList_append, String.toList_append, List.mem_append, List.mem_append] at h
    rcases h with (h | h) | h
    · exact .inl (isDigit_of_mem h)
    · exact .inr (List.mem_singleton.mp h)
    · exact .inl (isDigit_of_mem h)
  · exact .inl (isDigit_of_mem h)

/-- The pieces of a text of ranges. -/
theorem readRanges_intercalate (ranges : List (Nat × Nat)) :
    readRanges ("/".intercalate (ranges.map fun r ↦ formatRange r.1 r.2)).toList = ranges := by
  have pieces : ∀ l ∈ (ranges.map fun r ↦ formatRange r.1 r.2).map String.toList, '/' ∉ l := by
    intro l hl mem
    rw [List.map_map] at hl
    rcases List.mem_map.mp hl with ⟨r, -, rfl⟩
    rcases mem_formatRange mem with digit | dash
    · exact absurd digit (by decide)
    · exact absurd dash (by decide)
  rw [readRanges, String.toList_intercalate]
  cases ranges with
  | nil => rfl
  | cons r rest =>
    have split := List.splitOn_intercalate '/' pieces (by simp)
    rw [show "/".toList = ['/'] from rfl, split, List.map_map, List.filterMap_map]
    have each : (readRange ∘ String.toList ∘ fun r : Nat × Nat ↦ formatRange r.1 r.2) = some := by
      funext r
      exact readRange_formatRange r.1 r.2
    rw [each, List.filterMap_some]

/-- The runs of a set are what is written of it. -/
theorem readRanges_innerFormat (ranks : Finset Nat) :
    readRanges (innerFormat ranks).toList = runs ranks.sort := by
  rw [innerFormat, foldRanks_eq, List.nil_append, List.drop_zero, readRanges_intercalate]

theorem mem_of_mem_intercalate {c : Char} {sep : List Char} {texts : List (List Char)}
    (h : c ∈ sep.intercalate texts) : c ∈ sep ∨ ∃ text ∈ texts, c ∈ text := by
  induction texts with
  | nil => cases h
  | cons text texts ih =>
    cases texts with
    | nil =>
      rw [List.intercalate_singleton] at h
      exact .inr ⟨text, List.mem_singleton_self text, h⟩
    | cons next texts =>
      rw [List.intercalate_cons_cons, List.mem_append, List.mem_append] at h
      rcases h with (h | h) | h
      · exact .inr ⟨text, List.mem_cons_self, h⟩
      · exact .inl h
      · rcases ih h with h | ⟨other, mem, h⟩
        · exact .inl h
        · exact .inr ⟨other, List.mem_cons_of_mem _ mem, h⟩

/-- No bar is written within a set. -/
theorem bar_not_mem_innerFormat (ranks : Finset Nat) : '|' ∉ (innerFormat ranks).toList := by
  intro mem
  rw [innerFormat, foldRanks_eq, List.nil_append, List.drop_zero, String.toList_intercalate] at mem
  rcases mem_of_mem_intercalate mem with slash | ⟨text, piece, mem⟩
  · exact absurd slash (by decide)
  · rw [List.map_map] at piece
    rcases List.mem_map.mp piece with ⟨r, -, rfl⟩
    rcases mem_formatRange mem with digit | dash
    · exact absurd digit (by decide)
    · exact absurd dash (by decide)

/-- Ranges that tell a set: they have its numbers, none is empty, and any two have a number between
them that is not in the set. -/
structure IsRangesOf (ranges : List (Nat × Nat)) (ranks : Finset Nat) : Prop where
  numbers : ∀ n, n ∈ ranks ↔ ∃ r ∈ ranges, r.1 ≤ n ∧ n ≤ r.2
  nonempty : ∀ r ∈ ranges, r.1 ≤ r.2
  apart : ranges.Pairwise fun r r' ↦ r.2 + 1 < r'.1

theorem isRangesOf_runs (ranks : Finset Nat) : IsRangesOf (runs ranks.sort) ranks where
  numbers n := by
    have all : n ∈ (runs ranks.sort).flatMap runNumbers ↔ n ∈ ranks := by
      rw [flatMap_runs]
      exact Finset.mem_sort _
    rw [← all, List.mem_flatMap]
    simp only [mem_runNumbers]
  nonempty := runs_le
  apart := runs_pairwise ranks.sortedLT_sort.pairwise

/-- Both sets can be read back from what is written of them. -/
theorem rankRanges_lossless (ranks : Finset Nat) :
    IsRangesOf (readRanges (innerFormat ranks).toList) ranks ∧
      ∀ allRanks, ∃ has leak,
        readRankStr (formatRankStr allRanks ranks).toList = some (has, leak) ∧
          IsRangesOf has ranks ∧ IsRangesOf leak (allRanks \ ranks) := by
  refine ⟨?_, ?_⟩
  · rw [readRanges_innerFormat]
    exact isRangesOf_runs ranks
  · intro allRanks
    refine ⟨runs ranks.sort, runs (allRanks \ ranks).sort, ?_, isRangesOf_runs _, isRangesOf_runs _⟩
    have text : (formatRankStr allRanks ranks).toList.drop 1 = ['|'].intercalate
        [(innerFormat ranks).toList, (innerFormat (allRanks \ ranks)).toList] := by
      simp [formatRankStr]
    rw [readRankStr, text, List.splitOn_intercalate '|'
      (by simp [bar_not_mem_innerFormat]) (by simp)]
    simp only [readRanges_innerFormat]

end ProbingBaselines.XpuTimer
