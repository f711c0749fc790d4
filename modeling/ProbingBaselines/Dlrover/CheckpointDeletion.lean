import Mathlib.Data.List.Basic
import Mathlib.Data.List.Nodup
import ProbingBaselines.Lib.Run

/-!
# Deletion of outdated checkpoints

`PosixStorageWithDeletion` (`common/storage.py:264-311`) notes the step in the tracker file before
it writes a new one, and a successful commit hands that step to its strategy.
`KeepLatestStepStrategy` (`storage.py:237-261`) lists these steps and removes the directory of the
first one when the list is full. A save is the directory of the step, the tracker file and the
commit (`elastic_agent/torch/ckpt_saver.py:1018-1077`).
-/

namespace ProbingBaselines.Dlrover

open Lib

/-- `KeepLatestStepStrategy` (`storage.py:247-250`). -/
structure KeepLatestStepStrategy where
  maxToKeep : Nat
  steps : List Int

namespace KeepLatestStepStrategy

def init (maxToKeep : Nat) : KeepLatestStepStrategy := ⟨max maxToKeep 1, []⟩

/-- `clean_up` (`storage.py:252-261`): the new list and the step whose directory is removed. -/
def cleanUp (k : KeepLatestStepStrategy) (step : Int) : KeepLatestStepStrategy × Option Int :=
  let steps := k.steps ++ [step]
  if steps.length = k.maxToKeep then ({ k with steps := steps.tail }, steps.head?)
  else ({ k with steps := steps }, none)

end KeepLatestStepStrategy

/-- The storage with the content of its tracker file, the steps whose directory exists, and the
steps committed with success, the latest first. -/
structure PosixStorageWithDeletion where
  deletionStrategy : KeepLatestStepStrategy
  preStep : Int
  tracker : Option Int
  dirs : List Int
  commits : List Int

/-- A save that writes the tracker file and commits, and one given up before, which only commits its
failure. -/
inductive CkptSaveAct where
  | save (step : Int) (success : Bool)
  | giveUp (step : Int)

namespace PosixStorageWithDeletion

/-- A new storage over a directory in which an earlier one may have left a checkpoint. -/
def init (maxToKeep : Nat) (latest : Option Int) : PosixStorageWithDeletion :=
  ⟨.init maxToKeep, 0, latest, latest.toList, []⟩

/-- `write` of the tracker file (`storage.py:299-305`). -/
def write (s : PosixStorageWithDeletion) (step : Int) : PosixStorageWithDeletion :=
  { s with preStep := s.tracker.getD s.preStep, tracker := some step }

/-- `commit` (`storage.py:307-311`) with `shutil.rmtree` on the directory of the step. -/
def commit (s : PosixStorageWithDeletion) (step : Int) (success : Bool) :
    PosixStorageWithDeletion :=
  if success = false ∨ s.preStep = step ∨ s.preStep = 0 then s
  else
    let (strategy, rmStep) := s.deletionStrategy.cleanUp s.preStep
    { s with deletionStrategy := strategy, dirs := s.dirs.filter fun d ↦ rmStep ≠ some d }

def step (s : PosixStorageWithDeletion) : CkptSaveAct → Option PosixStorageWithDeletion
  | .save step success =>
    let s := { s with dirs := step :: s.dirs }
    let s := (s.write step).commit step success
    some { s with commits := if success then step :: s.commits else s.commits }
  | .giveUp step => some (({ s with dirs := step :: s.dirs } : PosixStorageWithDeletion).commit step
      false)

/-- The distinct steps of a list, each at its first place. -/
def distinct : List Int → List Int
  | [] => []
  | step :: rest => step :: (distinct rest).filter fun d ↦ d ≠ step

/-- The step named in the tracker file has its directory, and so have the `max_to_keep` distinct
steps committed last. -/
structure Keeps (s : PosixStorageWithDeletion) : Prop where
  named : ∀ step ∈ s.tracker, step ∈ s.dirs
  recent : ∀ step ∈ (distinct s.commits).take s.deletionStrategy.maxToKeep, step ∈ s.dirs

/-- A step committed with success is the one committed last, named in the tracker file still; or it
is neither in `_steps` nor among as many distinct steps committed last as `_steps` holds. -/
def NotAgain (s : PosixStorageWithDeletion) : CkptSaveAct → Prop
  | .save step true =>
    (s.tracker = some step ∧ s.commits.head? = some step) ∨
      (step ∉ s.deletionStrategy.steps ∧
        step ∉ (distinct s.commits).take s.deletionStrategy.steps.length)
  | _ => True

instance (s : PosixStorageWithDeletion) : (a : CkptSaveAct) → Decidable (s.NotAgain a)
  | .save _ true => inferInstanceAs (Decidable ((_ ∧ _) ∨ (_ ∧ _)))
  | .save _ false | .giveUp _ => inferInstanceAs (Decidable True)

/-! ### Distinct steps -/

theorem distinct_nodup (steps : List Int) : (distinct steps).Nodup := by
  induction steps with
  | nil => exact List.nodup_nil
  | cons step rest ih =>
    rw [distinct, List.nodup_cons]
    refine ⟨?_, ih.filter _⟩
    simp

/-- A step that is not among the first `n` changes none of them when it is removed. -/
theorem take_filter_of_not_mem {step : Int} (l : List Int) :
    ∀ n, step ∉ l.take n → (l.filter fun d ↦ d ≠ step).take n = l.take n := by
  induction l with
  | nil => simp
  | cons a l ih =>
    intro n absent
    cases n with
    | zero => rfl
    | succ n =>
      rw [List.take_succ_cons, List.mem_cons, not_or] at absent
      have ne : a ≠ step := Ne.symm absent.1
      rw [List.filter_cons_of_pos (by simpa using ne), List.take_succ_cons, List.take_succ_cons,
        ih n absent.2]

/-- Without a step the first `n` are among the first `n + 1` there were. -/
theorem mem_take_of_filter {step d : Int} (l : List Int) (nodup : l.Nodup) :
    ∀ n, d ∈ (l.filter fun d ↦ d ≠ step).take n → d ∈ l.take (n + 1) := by
  induction l with
  | nil => simp
  | cons a l ih =>
    intro n mem
    rw [List.nodup_cons] at nodup
    rw [List.take_succ_cons, List.mem_cons]
    by_cases eq : a = step
    · have all : (l.filter fun d ↦ d ≠ step) = l := by
        rw [List.filter_eq_self]
        intro x hx
        have ne : x ≠ step := by
          rintro rfl
          exact nodup.1 (eq ▸ hx)
        simp [ne]
      rw [List.filter_cons_of_neg (by simpa using eq), all] at mem
      exact .inr mem
    · rw [List.filter_cons_of_pos (by simpa using eq)] at mem
      cases n with
      | zero => simp at mem
      | succ n =>
        rw [List.take_succ_cons, List.mem_cons] at mem
        rcases mem with rfl | mem
        · exact .inl rfl
        · exact .inr (ih nodup.2 n mem)

/-- A list that begins with the step is not changed by committing it once more. -/
theorem distinct_cons_self {step : Int} {commits : List Int} (h : commits.head? = some step) :
    distinct (step :: commits) = distinct commits := by
  cases commits with
  | nil => contradiction
  | cons a rest =>
    have eq : a = step := by simpa using h
    have nodup := distinct_nodup (a :: rest)
    rw [distinct, List.nodup_cons] at nodup
    rw [distinct, distinct, eq, List.filter_cons_of_neg (by simp)]
    congr 1
    rw [List.filter_eq_self]
    intro d hd
    rw [List.mem_filter] at hd
    exact hd.2

/-! ### What a save keeps -/

/-- The invariant: the list is not full, and its `i`-th step from the end is not among the `i + 1`
distinct steps committed last. -/
structure Spaced (s : PosixStorageWithDeletion) : Prop where
  keeps : s.Keeps
  short : s.deletionStrategy.steps.length < s.deletionStrategy.maxToKeep
  apart : ∀ i step, s.deletionStrategy.steps.reverse[i]? = some step →
    step ∉ (distinct s.commits).take (i + 1)

/-- The steps of the list stay apart from the steps committed last when another one is. -/
theorem apart_commit {steps commits : List Int} {new : Int}
    (fresh : new ∉ steps ∧ new ∉ (distinct commits).take steps.length)
    (apart : ∀ i step, steps.reverse[i]? = some step → step ∉ (distinct commits).take (i + 1)) :
    ∀ i step, steps.reverse[i]? = some step → step ∉ (distinct (new :: commits)).take (i + 2) := by
  intro i step found mem
  have known : step ∈ steps := List.mem_reverse.mp (List.mem_of_getElem? found)
  have bound : i + 1 ≤ steps.length := by
    have := (List.getElem?_eq_some_iff.mp found).1
    rwa [List.length_reverse] at this
  rw [distinct, List.take_succ_cons, List.mem_cons] at mem
  rcases mem with rfl | mem
  · exact fresh.1 known
  · have absent : new ∉ (distinct commits).take (i + 1) := fun h ↦
      fresh.2 ((List.take_subset_take_left _ bound) h)
    rw [take_filter_of_not_mem _ _ absent] at mem
    exact apart i step found mem

/-- The steps committed last are the new one and some of those committed last before. -/
theorem recent_commit {commits : List Int} {new step : Int} {n : Nat}
    (mem : step ∈ (distinct (new :: commits)).take n) :
    step = new ∨ step ∈ (distinct commits).take n := by
  cases n with
  | zero => simp at mem
  | succ n =>
    rw [distinct, List.take_succ_cons, List.mem_cons] at mem
    rcases mem with rfl | mem
    · exact .inl rfl
    · exact .inr (mem_take_of_filter _ (distinct_nodup commits) n mem)

/-- A commit that calls no `clean_up`. -/
theorem spaced_quiet {s : PosixStorageWithDeletion} {step : Int} (h : s.Spaced)
    (preStep : Int) (commits : List Int)
    (recent : ∀ n d, d ∈ (distinct commits).take n → d = step ∨ d ∈ (distinct s.commits).take n)
    (apart : ∀ i d, s.deletionStrategy.steps.reverse[i]? = some d →
      d ∉ (distinct commits).take (i + 1)) :
    Spaced ⟨s.deletionStrategy, preStep, some step, step :: s.dirs, commits⟩ where
  keeps.named := by
    intro d hd
    cases hd
    exact List.mem_cons_self
  keeps.recent := by
    intro d hd
    rcases recent _ d hd with rfl | old
    · exact List.mem_cons_self
    · exact List.mem_cons_of_mem _ (h.keeps.recent d old)
  short := h.short
  apart := apart

/-- A commit that hands a step other than the new one to `clean_up`. -/
theorem spaced_cleanUp {s : PosixStorageWithDeletion} {step preStep : Int} (h : s.Spaced)
    (other : preStep ≠ step)
    (fresh : step ∉ s.deletionStrategy.steps ∧
      step ∉ (distinct s.commits).take s.deletionStrategy.steps.length) :
    Spaced ⟨(s.deletionStrategy.cleanUp preStep).1, preStep, some step,
      (step :: s.dirs).filter fun d ↦ (s.deletionStrategy.cleanUp preStep).2 ≠ some d,
      step :: s.commits⟩ := by
  have short := h.short
  have apart : ∀ i d, (s.deletionStrategy.steps ++ [preStep]).reverse[i]? = some d →
      d ∉ (distinct (step :: s.commits)).take (i + 1) := by
    intro i d found
    rw [List.reverse_append, List.reverse_singleton, List.singleton_append] at found
    cases i with
    | zero =>
      have eq : preStep = d := by simpa using found
      simp [distinct, ← eq, other]
    | succ i => exact apart_commit fresh h.apart i d (by simpa using found)
  rw [KeepLatestStepStrategy.cleanUp]
  by_cases full : (s.deletionStrategy.steps ++ [preStep]).length = s.deletionStrategy.maxToKeep
  · simp only [if_pos full]
    cases steps : s.deletionStrategy.steps ++ [preStep] with
    | nil => simp at steps
    | cons rmStep rest =>
      rw [steps] at apart full
      have removed : rmStep ∉ (distinct (step :: s.commits)).take s.deletionStrategy.maxToKeep := by
        rw [← full, List.length_cons]
        apply apart rest.length
        rw [List.reverse_cons, List.getElem?_append_right (by simp)]
        simp
      have new : step ∈ (distinct (step :: s.commits)).take s.deletionStrategy.maxToKeep := by
        rw [← full, List.length_cons, distinct, List.take_succ_cons]
        exact List.mem_cons_self
      have kept : ∀ d ∈ (distinct (step :: s.commits)).take s.deletionStrategy.maxToKeep,
          d ∈ (step :: s.dirs).filter fun d ↦ (rmStep :: rest).head? ≠ some d := by
        intro d hd
        rw [List.mem_filter]
        constructor
        · rcases recent_commit hd with rfl | old
          · exact List.mem_cons_self
          · exact List.mem_cons_of_mem _ (h.keeps.recent d old)
        · have ne : rmStep ≠ d := fun eq ↦ removed (eq ▸ hd)
          simpa using ne
      refine ⟨⟨?_, kept⟩, ?_, ?_⟩
      · intro d hd
        cases hd
        exact kept step new
      · simp only [List.tail_cons]
        rw [List.length_cons] at full
        omega
      · intro i d found
        apply apart i d
        rw [List.reverse_cons, List.getElem?_append_left]
        · exact found
        · exact (List.getElem?_eq_some_iff.mp found).1
  · simp only [if_neg full]
    have all : (step :: s.dirs).filter (fun d ↦ (none : Option Int) ≠ some d) = step :: s.dirs := by
      simp
    refine ⟨⟨?_, ?_⟩, ?_, apart⟩
    · intro d hd
      cases hd
      rw [all]
      exact List.mem_cons_self
    · intro d hd
      rw [all]
      rcases recent_commit hd with rfl | old
      · exact List.mem_cons_self
      · exact List.mem_cons_of_mem _ (h.keeps.recent d old)
    · simp only [List.length_append, List.length_singleton] at full ⊢
      omega

/-- What a successful save does, by the step named in the tracker file before. -/
theorem step_save (s : PosixStorageWithDeletion) (step : Int) :
    s.step (.save step true) =
      if s.tracker.getD s.preStep = step ∨ s.tracker.getD s.preStep = 0 then
        some ⟨s.deletionStrategy, s.tracker.getD s.preStep, some step, step :: s.dirs,
          step :: s.commits⟩
      else
        some ⟨(s.deletionStrategy.cleanUp (s.tracker.getD s.preStep)).1, s.tracker.getD s.preStep,
          some step, (step :: s.dirs).filter fun d ↦
            (s.deletionStrategy.cleanUp (s.tracker.getD s.preStep)).2 ≠ some d,
          step :: s.commits⟩ := by
  simp only [PosixStorageWithDeletion.step, commit, write, Bool.true_eq_false, false_or, if_true]
  by_cases quiet : s.tracker.getD s.preStep = step ∨ s.tracker.getD s.preStep = 0
  · simp only [if_pos quiet]
  · simp only [if_neg quiet]
    rfl

theorem step_spaced {s t : PosixStorageWithDeletion} {a : CkptSaveAct} (meets : s.NotAgain a)
    (taken : s.step a = some t) (h : s.Spaced) : t.Spaced := by
  cases a with
  | giveUp step =>
    cases taken
    refine ⟨⟨?_, ?_⟩, h.short, h.apart⟩
    · exact fun d hd ↦ List.mem_cons_of_mem _ (h.keeps.named d hd)
    · exact fun d hd ↦ List.mem_cons_of_mem _ (h.keeps.recent d hd)
  | save step success =>
    cases success with
    | false =>
      cases taken
      exact spaced_quiet h _ _ (fun n d hd ↦ .inr hd) h.apart
    | true =>
      rw [step_save] at taken
      rcases meets with ⟨tracker, last⟩ | fresh
      · have same : s.tracker.getD s.preStep = step := by rw [tracker]; rfl
        rw [if_pos (.inl same)] at taken
        cases taken
        apply spaced_quiet h
        · intro n d hd
          rw [distinct_cons_self last] at hd
          exact .inr hd
        · intro i d found
          rw [distinct_cons_self last]
          exact h.apart i d found
      · split at taken
        · cases taken
          apply spaced_quiet h
          · exact fun n d hd ↦ recent_commit hd
          · intro i d found mem
            exact apart_commit fresh h.apart i d found
              (List.take_subset_take_left _ (Nat.le_succ _) mem)
        · next cleans =>
          cases taken
          exact spaced_cleanUp h (fun eq ↦ cleans (.inl eq)) fresh

theorem run_spaced {maxToKeep : Nat} {latest : Option Int} {s : PosixStorageWithDeletion}
    {acts : List CkptSaveAct} (run : Run step NotAgain (init maxToKeep latest) acts s) :
    s.Spaced := by
  apply run.invariant (P := Spaced)
  · refine ⟨⟨?_, by simp [init, distinct]⟩, ?_, by simp [init, KeepLatestStepStrategy.init]⟩
    · intro step named
      cases named
      exact List.mem_singleton_self step
    · show 0 < max maxToKeep 1
      omega
  · intro t u a h meets taken
    exact step_spaced meets taken h

/-- Whatever commits fail: the directory that the tracker file names is there, and so are those of
the `max_to_keep` distinct steps committed last, as long as no listed or recent step is committed
again. -/
theorem checkpointDeletion_keeps {maxToKeep : Nat} {latest : Option Int}
    {s : PosixStorageWithDeletion} {acts : List CkptSaveAct}
    (run : Run step NotAgain (init maxToKeep latest) acts s) : s.Keeps :=
  (run_spaced run).keeps

theorem checkpointDeletion_keeps_run :
    ∃ s, Run step NotAgain (init 2 (some 5))
        [.save 10 true, .save 20 false, .save 20 true, .save 20 true, .giveUp 25, .save 30 true,
          .save 10 true] s ∧
      s.dirs = [10, 30, 25, 10] ∧ s.tracker = some 10 ∧ s.Keeps := by
  have run : Run step NotAgain (init 2 (some 5))
      [.save 10 true, .save 20 false, .save 20 true, .save 20 true, .giveUp 25, .save 30 true,
        .save 10 true] _ := run_of_guarded rfl
  exact ⟨_, run, by decide, rfl, checkpointDeletion_keeps run⟩

/-- Two checkpoints are kept. A step that is saved again after the next one loses its directory
although the tracker file names it. -/
theorem checkpointDeletion_loses :
    ∃ s, Run step anyStep (init 2 none) [.save 10 true, .save 20 true, .save 10 true] s ∧
      s.tracker = some 10 ∧ 10 ∉ s.dirs ∧ ¬ s.Keeps := by
  have run : Run step anyStep (init 2 none) [.save 10 true, .save 20 true, .save 10 true] _ :=
    run_of_foldlM rfl
  refine ⟨_, run, rfl, by decide, ?_⟩
  intro keeps
  exact absurd (keeps.named 10 rfl) (by decide)

end PosixStorageWithDeletion

end ProbingBaselines.Dlrover
