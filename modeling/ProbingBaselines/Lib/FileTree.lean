import Mathlib.Data.List.Basic

/-!
# Directories and files

General support: a file system as the list of its directories and files, each under its path. The
operations are those of a POSIX storage that does not fail; the laws say for each of them what is
there afterwards.
-/

namespace ProbingBaselines.Lib

universe u v

/-- A directory, or a file with its content. -/
inductive Inode (β : Type v) where
  | dir
  | file (content : β)

/-- What there is, under its path. -/
abbrev FileTree (κ : Type u) (β : Type v) := List (List κ × Inode β)

namespace FileTree

variable {κ : Type u} {β : Type v} [DecidableEq κ] {d p q : List κ} {fs : FileTree κ β}
  {e : List κ × Inode β}

/-- There is something at or below the path. -/
def Present (d : List κ) (fs : FileTree κ β) : Prop := ∃ e ∈ fs, d <+: e.1

instance (d : List κ) (fs : FileTree κ β) : Decidable (Present d fs) :=
  inferInstanceAs (Decidable (∃ e ∈ fs, d <+: e.1))

/-- Remove what is at and below a path. -/
def rmtree (d : List κ) (fs : FileTree κ β) : FileTree κ β := fs.filter fun e ↦ ¬ d <+: e.1

/-- Make a directory unless there is something at the path. -/
def makedirs (d : List κ) (fs : FileTree κ β) : FileTree κ β :=
  if Present d fs then fs else (d, .dir) :: fs

/-- Write a file, in the place of the one that is there. -/
def write (p : List κ) (content : β) (fs : FileTree κ β) : FileTree κ β :=
  (p, .file content) :: fs.filter fun e ↦ e.1 ≠ p

/-- The entries directly in a directory. -/
def children (d : List κ) (fs : FileTree κ β) : FileTree κ β :=
  fs.filter fun e ↦ d <+: e.1 ∧ e.1.length = d.length + 1

/-- The path below `src` moved below `dst`. -/
def rebase (src dst p : List κ) : List κ :=
  if src <+: p then dst ++ p.drop src.length else p

/-- Move a directory to a path at which there is nothing. -/
def move (src dst : List κ) (fs : FileTree κ β) : FileTree κ β :=
  if Present src fs ∧ ¬ Present dst fs then fs.map fun e ↦ (rebase src dst e.1, e.2) else fs

omit [DecidableEq κ] in
/-- Two paths with something below both lie one below the other. -/
theorem comparable_of_below (hd : d <+: p) (hq : q <+: p) : d <+: q ∨ q <+: d :=
  List.prefix_or_prefix_of_prefix hd hq

theorem mem_rmtree : e ∈ rmtree d fs ↔ e ∈ fs ∧ ¬ d <+: e.1 := by
  rw [rmtree, List.mem_filter, decide_eq_true_eq]

theorem not_present_rmtree : ¬ Present d (rmtree d fs) := by
  rintro ⟨e, mem, below⟩
  exact (mem_rmtree.mp mem).2 below

theorem makedirs_of_not_present (h : ¬ Present d fs) : makedirs d fs = (d, .dir) :: fs :=
  if_neg h

theorem mem_makedirs_rmtree :
    e ∈ makedirs d (rmtree d fs) ↔ e = (d, .dir) ∨ (e ∈ fs ∧ ¬ d <+: e.1) := by
  rw [makedirs_of_not_present not_present_rmtree, List.mem_cons, mem_rmtree]

theorem mem_write {content : β} :
    e ∈ write p content fs ↔ e = (p, .file content) ∨ (e ∈ fs ∧ e.1 ≠ p) := by
  rw [write, List.mem_cons, List.mem_filter, decide_eq_true_eq]

theorem mem_children : e ∈ children d fs ↔ e ∈ fs ∧ d <+: e.1 ∧ e.1.length = d.length + 1 := by
  rw [children, List.mem_filter, decide_eq_true_eq]

/-- Removing a directory leaves the entries of a directory that is neither above nor below it. -/
theorem children_rmtree (hd : ¬ d <+: q) (hq : ¬ q <+: d) :
    children d (rmtree q fs) = children d fs := by
  rw [children, rmtree, List.filter_filter, children]
  apply List.filter_congr
  intro e _
  by_cases below : d <+: e.1
  · have other : ¬ q <+: e.1 := by
      intro h
      exact (comparable_of_below below h).elim hd hq
    simp only [below, other, not_false_eq_true, decide_true, Bool.and_true]
  · simp only [below, false_and, decide_false, Bool.false_and]

/-- What is at the target of a move is what was at the source. -/
theorem mem_move (src : Present p fs) (dst : ¬ Present q fs) :
    e ∈ move p q fs ↔ ∃ f ∈ fs, e = (rebase p q f.1, f.2) := by
  rw [move, if_pos ⟨src, dst⟩, List.mem_map]
  constructor
  · rintro ⟨f, mem, rfl⟩
    exact ⟨f, mem, rfl⟩
  · rintro ⟨f, mem, rfl⟩
    exact ⟨f, mem, rfl⟩

theorem rebase_of_below (tail : List κ) : rebase p q (p ++ tail) = q ++ tail := by
  rw [rebase, if_pos (List.prefix_append p tail), List.drop_left]

theorem rebase_self : rebase p q p = q := by
  rw [rebase, if_pos List.prefix_rfl, List.drop_length, List.append_nil]

theorem rebase_of_not_below {path : List κ} (h : ¬ p <+: path) : rebase p q path = path :=
  if_neg h

/-- A move between two directories leaves what is below neither. -/
theorem mem_move_of_not_below (hp : ¬ p <+: e.1) (hq : ¬ q <+: e.1) :
    e ∈ move p q fs ↔ e ∈ fs := by
  unfold move
  split
  · rw [List.mem_map]
    constructor
    · rintro ⟨f, mem, rfl⟩
      by_cases below : p <+: f.1
      · rcases below with ⟨tail, eq⟩
        rw [← eq, rebase_of_below] at hq
        exact absurd (List.prefix_append q tail) hq
      · rwa [rebase_of_not_below below]
    · intro mem
      exact ⟨e, mem, by rw [rebase_of_not_below hp]⟩
  · rfl

end FileTree

end ProbingBaselines.Lib
