import Mathlib.Data.List.Pairwise

/-!
# Runs of consecutive numbers

General support: `runs` splits a list of numbers into its maximal runs of consecutive ones, each
given by its first and its last number. The runs give the list back, and those of an increasing list
are apart from each other.
-/

namespace ProbingBaselines.Lib

def runs : List Nat → List (Nat × Nat)
  | [] => []
  | a :: l =>
    match runs l with
    | [] => [(a, a)]
    | (b, c) :: rest => if a + 1 = b then (a, c) :: rest else (a, a) :: (b, c) :: rest

/-- The numbers of a run. -/
def runNumbers (run : Nat × Nat) : List Nat := List.range' run.1 (run.2 + 1 - run.1)

theorem mem_runNumbers {run : Nat × Nat} {n : Nat} :
    n ∈ runNumbers run ↔ run.1 ≤ n ∧ n ≤ run.2 := by
  rw [runNumbers, List.mem_range'_1]
  omega

/-- A number starts a run in front of the others, joins the first of them or stays apart from it. -/
theorem runs_cons_cases (a : Nat) (l : List Nat) :
    (runs l = [] ∧ runs (a :: l) = [(a, a)]) ∨
      (∃ e rest, runs l = (a + 1, e) :: rest ∧ runs (a :: l) = (a, e) :: rest) ∨
      ∃ b e rest, a + 1 ≠ b ∧ runs l = (b, e) :: rest ∧
        runs (a :: l) = (a, a) :: (b, e) :: rest := by
  rw [runs]
  cases runs l with
  | nil => exact .inl ⟨rfl, rfl⟩
  | cons run rest =>
    by_cases next : a + 1 = run.1
    · exact .inr (.inl ⟨run.2, rest, by rw [next], if_pos next⟩)
    · exact .inr (.inr ⟨run.1, run.2, rest, next, rfl, if_neg next⟩)

/-- The first run starts with the first number. -/
theorem runs_cons (a : Nat) (l : List Nat) :
    ∃ e rest, runs (a :: l) = (a, e) :: rest := by
  rcases runs_cons_cases a l with ⟨-, eq⟩ | ⟨e, rest, -, eq⟩ | ⟨b, e, rest, -, -, eq⟩
  · exact ⟨a, [], eq⟩
  · exact ⟨e, rest, eq⟩
  · exact ⟨a, (b, e) :: rest, eq⟩

/-- A number in front of its successor joins its run. -/
theorem runs_cons_next {a e : Nat} {l : List Nat} {rest : List (Nat × Nat)}
    (h : runs l = (a + 1, e) :: rest) : runs (a :: l) = (a, e) :: rest := by
  rcases runs_cons_cases a l with ⟨none, -⟩ | ⟨e, rest, first, eq⟩ | ⟨b, e, rest, gap, first, -⟩
  · rw [none] at h
    cases h
  · rw [h] at first
    cases first
    exact eq
  · rw [h] at first
    cases first
    exact absurd rfl gap

/-- In front of another number it is a run of its own. -/
theorem runs_cons_gap {a b : Nat} {l : List Nat} (gap : a + 1 ≠ b) :
    runs (a :: b :: l) = (a, a) :: runs (b :: l) := by
  rcases runs_cons b l with ⟨c, others, h⟩
  rcases runs_cons_cases a (b :: l) with
    ⟨none, -⟩ | ⟨e, rest, first, -⟩ | ⟨b', e, rest, -, first, eq⟩
  · rw [h] at none
    cases none
  · rw [h] at first
    cases first
    exact absurd rfl gap
  · rw [eq, first]

theorem runs_le {l : List Nat} : ∀ run ∈ runs l, run.1 ≤ run.2 := by
  induction l with
  | nil => exact fun run mem ↦ absurd mem List.not_mem_nil
  | cons a l ih =>
    rcases runs_cons_cases a l with ⟨-, eq⟩ | ⟨e, rest, first, eq⟩ | ⟨b, e, rest, -, first, eq⟩
    · rw [eq]
      exact List.forall_mem_singleton.mpr (Nat.le_refl a)
    · rw [first, List.forall_mem_cons] at ih
      rw [eq, List.forall_mem_cons]
      exact ⟨Nat.le_of_succ_le ih.1, ih.2⟩
    · rw [eq, ← first, List.forall_mem_cons]
      exact ⟨Nat.le_refl a, ih⟩

/-- The runs give the list back. -/
theorem flatMap_runs (l : List Nat) : (runs l).flatMap runNumbers = l := by
  induction l with
  | nil => rfl
  | cons a l ih =>
    have one : runNumbers (a, a) = [a] := by
      rw [runNumbers, Nat.add_sub_cancel_left]
      rfl
    rcases runs_cons_cases a l with ⟨none, eq⟩ | ⟨e, rest, first, eq⟩ | ⟨b, e, rest, -, first, eq⟩
    · rw [none] at ih
      rw [eq, List.flatMap_cons, one, ← ih]
      rfl
    · have le : a + 1 ≤ e := runs_le (l := l) (a + 1, e) (by rw [first]; exact List.mem_cons_self)
      have longer : e + 1 - a = (e + 1 - (a + 1)) + 1 := by omega
      rw [first, List.flatMap_cons] at ih
      rw [eq, List.flatMap_cons, runNumbers, longer, List.range'_succ, List.cons_append]
      exact congrArg (a :: ·) ih
    · rw [eq, ← first, List.flatMap_cons, one, ih]
      rfl

/-- Runs of an increasing list have a number between them that is in neither. -/
theorem runs_pairwise {l : List Nat} (sorted : l.Pairwise (· < ·)) :
    (runs l).Pairwise fun run run' ↦ run.2 + 1 < run'.1 := by
  induction l with
  | nil => exact List.Pairwise.nil
  | cons a l ih =>
    rw [List.pairwise_cons] at sorted
    have apart := ih sorted.2
    rcases runs_cons_cases a l with ⟨-, eq⟩ | ⟨e, rest, first, eq⟩ | ⟨b, e, rest, gap, first, eq⟩
    · rw [eq]
      exact List.pairwise_singleton _ _
    · rw [first, List.pairwise_cons] at apart
      rw [eq, List.pairwise_cons]
      exact apart
    · have le : b ≤ e := runs_le (l := l) (b, e) (by rw [first]; exact List.mem_cons_self)
      have lt : a < b := by
        apply sorted.1
        rw [← flatMap_runs l, first]
        apply List.mem_flatMap_of_mem List.mem_cons_self
        exact mem_runNumbers.mpr ⟨Nat.le_refl b, le⟩
      have after : a + 1 < b := by omega
      rw [first, List.pairwise_cons] at apart
      rw [eq, List.pairwise_cons, List.forall_mem_cons, List.pairwise_cons]
      refine ⟨⟨after, fun run mem ↦ ?_⟩, apart⟩
      have later := apart.1 run mem
      simp only at later ⊢
      omega

end ProbingBaselines.Lib
