import Mathlib.Data.List.Pairwise
import ProbingBaselines.Dlrover.TempDirSaver

/-!
# The commit of the temporary directory

What an attempt has written is below its two directories in the stage directory. From the plan of
the attempt and the results of its threads it follows what is below the target after the commit.
-/

namespace ProbingBaselines.Dlrover

open Lib

namespace TempDirSaver

variable {s t : TempDirSaver}

/-! ## Paths of the stage -/

theorem stageDir_prefix_tempDir (n : Nat) : s.stageDir <+: s.tempDir n := List.prefix_append _ _

theorem stageDir_prefix_doneDir (n : Nat) : s.stageDir <+: s.doneDir n := List.prefix_append _ _

theorem tempDir_unrelated_doneDir (n : Nat) : Unrelated (s.tempDir n) (s.doneDir n) := by
  have ne : toString n ≠ toString n ++ ".done" := by
    intro eq
    have length := congrArg String.length eq
    rw [String.length_append] at length
    have : ".done".length = 5 := rfl
    omega
  have singleton : ∀ a b : String, s.stageDir ++ [a] <+: s.stageDir ++ [b] → a = b := by
    intro a b h
    rw [List.prefix_append_right_inj] at h
    rcases h with ⟨tail, eq⟩
    exact (List.cons.inj eq).1
  exact ⟨fun h ↦ ne (singleton _ _ h), fun h ↦ ne (singleton _ _ h).symm⟩

theorem append_singleton_ne (p : CkptPath) (last : String) : p ++ [last] ≠ p := by
  intro eq
  exact List.cons_ne_nil last [] (List.append_right_eq_self.mp eq)

/-- Nothing lies below two unrelated paths. -/
theorem Unrelated.not_below {p q path : CkptPath} (h : Unrelated p q) (hp : p <+: path) :
    ¬ q <+: path := by
  intro hq
  exact (FileTree.comparable_of_below hp hq).elim h.1 h.2

theorem Unrelated.symm {p q : CkptPath} (h : Unrelated p q) : Unrelated q p := ⟨h.2, h.1⟩

/-- What is unrelated to a path is unrelated to what is below it. -/
theorem Unrelated.below {p q path : CkptPath} (h : Unrelated p q) (hp : p <+: path) :
    Unrelated path q :=
  ⟨fun below ↦ h.1 (hp.trans below), fun below ↦ h.not_below hp below⟩

/-! ## The files of a shard -/

section Files

variable {shard n : Nat} {files : List (String × CkptPath)} {fs : FileTree String CkptFile}
  {e : CkptPath × Inode CkptFile}

/-- The file of a shard at a step. -/
def fileOf (shard n : Nat) (x : String × CkptPath) : CkptPath × Inode CkptFile :=
  (x.2, .file (.shard shard x.1 n))

theorem writeFiles_cons {x : String × CkptPath} :
    writeFiles shard n (x :: files) fs =
      writeFiles shard n files (fs.write x.2 (.shard shard x.1 n)) := rfl

theorem mem_or_of_mem_writeFiles (h : e ∈ writeFiles shard n files fs) :
    e ∈ fs ∨ ∃ x ∈ files, e = fileOf shard n x := by
  induction files generalizing fs with
  | nil => exact .inl h
  | cons x files ih =>
    rw [writeFiles_cons] at h
    rcases ih h with old | ⟨y, hy, eq⟩
    · rcases FileTree.mem_write.mp old with eq | ⟨older, -⟩
      · exact .inr ⟨x, List.mem_cons_self, eq⟩
      · exact .inl older
    · exact .inr ⟨y, List.mem_cons_of_mem _ hy, eq⟩

theorem mem_writeFiles_of_mem (h : e ∈ fs) (other : ∀ x ∈ files, x.2 ≠ e.1) :
    e ∈ writeFiles shard n files fs := by
  induction files generalizing fs with
  | nil => exact h
  | cons x files ih =>
    rw [writeFiles_cons]
    apply ih
    · exact FileTree.mem_write.mpr (.inr ⟨h, (other x List.mem_cons_self).symm⟩)
    · exact fun y hy ↦ other y (List.mem_cons_of_mem _ hy)

theorem fileOf_mem_writeFiles (nodup : (files.map Prod.snd).Nodup) {x : String × CkptPath}
    (hx : x ∈ files) : fileOf shard n x ∈ writeFiles shard n files fs := by
  induction files generalizing fs with
  | nil => contradiction
  | cons y files ih =>
    rw [List.map_cons, List.nodup_cons] at nodup
    rw [writeFiles_cons]
    rcases List.mem_cons.mp hx with rfl | later
    · apply mem_writeFiles_of_mem (FileTree.mem_write.mpr (.inl rfl))
      intro z hz eq
      exact nodup.1 (List.mem_map.mpr ⟨z, hz, eq⟩)
    · exact ih nodup.2 later

end Files

/-! ## Paths in the temporary directory -/

/-- Every path is plain and has a file name. -/
def PlainFiles (files : List (String × CkptPath)) : Prop := ∀ x ∈ files, x.2 ≠ [] ∧ Plain x.2

theorem plain_of_length {path : CkptPath} (h : 2 < path.length) : Plain path := by
  match path with
  | [] | [_] | [_, _] => simp at h
  | _ :: _ :: _ :: _ => trivial

/-- A plain path keeps the name of its file. -/
theorem replaceDir_of_plain {temp path : CkptPath} (ne : path ≠ []) (plain : Plain path) :
    replaceDir temp path = temp ++ [path.getLast ne] := by
  match path with
  | [] => contradiction
  | [_] => rfl
  | [dir, last] => exact if_neg plain
  | _ :: _ :: _ :: _ => rw [replaceDir, List.getLast?_eq_some_getLast ne, Option.toList_some]; nofun

/-- Two plain paths in one directory stay apart. -/
theorem replaceDir_injOn {temp target p q : CkptPath} (hp : p ≠ [] ∧ Plain p)
    (hq : q ≠ [] ∧ Plain q) (inp : p.dropLast = target) (inq : q.dropLast = target)
    (eq : replaceDir temp p = replaceDir temp q) : p = q := by
  rw [replaceDir_of_plain hp.1 hp.2, replaceDir_of_plain hq.1 hq.2, List.append_cancel_left_eq,
    List.singleton_inj] at eq
  rw [← List.dropLast_append_getLast hp.1, ← List.dropLast_append_getLast hq.1, inp, inq, eq]

/-- The paths of a shard moved to the temporary directory. -/
def toTemp (temp : CkptPath) (files : List (String × CkptPath)) : List (String × CkptPath) :=
  files.map fun x ↦ (x.1, replaceDir temp x.2)

theorem below_of_mem_toTemp {temp : CkptPath} {files : List (String × CkptPath)}
    (plain : PlainFiles files) {x : String × CkptPath} (hx : x ∈ toTemp temp files) :
    ∃ last, x.2 = temp ++ [last] := by
  rcases List.mem_map.mp hx with ⟨y, hy, rfl⟩
  exact ⟨_, replaceDir_of_plain (plain y hy).1 (plain y hy).2⟩

theorem replacePathDir_eq_map {tempDir : CkptPath} {paths : List (String × CkptPath)}
    {ckptDir : CkptPath} {r : List (String × CkptPath) × CkptPath}
    (h : replacePathDir tempDir paths ckptDir = some r) :
    r.1 = toTemp tempDir paths := by
  induction paths generalizing ckptDir r with
  | nil =>
    cases h
    rfl
  | cons x paths ih =>
    rcases x with ⟨name, path⟩
    simp only [replacePathDir] at h
    split at h
    · rcases Option.map_eq_some_iff.mp h with ⟨u, hu, rfl⟩
      rw [toTemp, List.map_cons, ih hu, toTemp]
    · cases h

/-! ## The invariant of an attempt -/

/-- Below the temporary directory there are only files of the attempt. -/
structure TempFilled (temp : CkptPath) (n attempt : Nat) (futures : Dict (Nat × Nat) ShardSaving)
    (fs : FileTree String CkptFile) : Prop where
  dir : (temp, .dir) ∈ fs
  only : ∀ e ∈ fs, temp <+: e.1 → e = (temp, .dir) ∨
    ∃ i f, ((attempt, i), f) ∈ futures.items ∧ ∃ x ∈ f.files, e = fileOf i n x

/-- Below the directory of the done files there are only done files of the attempt. -/
structure DoneFilled (done : CkptPath) (attempt : Nat) (fs : FileTree String CkptFile) : Prop where
  dir : (done, .dir) ∈ fs
  only : ∀ e ∈ fs, done <+: e.1 → e = (done, .dir) ∨
    ∃ r, e = (done ++ [r], .file (.done attempt))

/-- The futures of the attempt are those of its plan. -/
structure PlanFollowed (temp : CkptPath) (n attempt : Nat)
    (futures : Dict (Nat × Nat) ShardSaving) (plan : List Planned) (next : Nat) : Prop where
  shards : plan.map Planned.shard = List.range next
  future : ∀ p ∈ plan, ∃ f, ((attempt, p.shard), f) ∈ futures.items ∧ f.step = n ∧
    f.files = toTemp temp p.found
  planned : ∀ i f, ((attempt, i), f) ∈ futures.items → ∃ p ∈ plan, p.shard = i
  plain : ∀ p ∈ plan, PlainFiles p.found

/-- The paths in the temporary directory that the attempt writes to. -/
def tempPaths (temp : CkptPath) (plan : List Planned) : List CkptPath :=
  plan.flatMap fun p ↦ (toTemp temp p.found).map Prod.snd

/-- If the plan has no path twice, a thread that succeeded has left its files. -/
def FilesSaved (temp : CkptPath) (n attempt : Nat) (futures : Dict (Nat × Nat) ShardSaving)
    (plan : List Planned) (fs : FileTree String CkptFile) : Prop :=
  (tempPaths temp plan).Nodup → ∀ i f, ((attempt, i), f) ∈ futures.items →
    f.result = some true → ∀ x ∈ f.files, fileOf i n x ∈ fs

/-- What an attempt has done when its directories are made. -/
structure AtWork (temp done : CkptPath) (n attempt : Nat)
    (futures : Dict (Nat × Nat) ShardSaving) (plan : List Planned)
    (fs : FileTree String CkptFile) (next : Nat) : Prop where
  tempFilled : TempFilled temp n attempt futures fs
  doneFilled : DoneFilled done attempt fs
  followed : PlanFollowed temp n attempt futures plan next
  saved : FilesSaved temp n attempt futures plan fs

/-- The futures are all of earlier attempts. -/
def Fresh (attempt : Nat) (futures : Dict (Nat × Nat) ShardSaving) (plan : List Planned) : Prop :=
  plan = [] ∧ ∀ i f, ((attempt, i), f) ∉ futures.items

def AllSaved (attempt : Nat) (futures : Dict (Nat × Nat) ShardSaving) : Prop :=
  ∀ i f, ((attempt, i), f) ∈ futures.items → f.result = some true

/-- What is to be below a target: its directory and the files of all shards. -/
def Expected (plan : List Planned) (n : Nat) (target : CkptPath)
    (e : CkptPath × Inode CkptFile) : Prop :=
  e = (target, .dir) ∨ ∃ p ∈ plan, ∃ x ∈ p.configured, e = fileOf p.shard n x

/-- Below the target there are exactly the files of all shards. -/
def TargetFilled (shards n : Nat) (target : CkptPath) (plan : List Planned)
    (fs : FileTree String CkptFile) : Prop :=
  plan.map Planned.shard = List.range shards ∧
    ∀ e, target <+: e.1 → (e ∈ fs ↔ Expected plan n target e)

def WorkDone (s : TempDirSaver) (shards n : Nat) : Prop :=
  AtWork (s.tempDir n) (s.doneDir n) n s.attempt s.futures s.plan s.fs shards

def StageKept (s : TempDirSaver) (shards : Nat) : SaverStage → Prop
  | .idle => True
  | .makingTemp _ => Fresh s.attempt s.futures s.plan
  | .makingDone n => Fresh s.attempt s.futures s.plan ∧
      TempFilled (s.tempDir n) n s.attempt s.futures s.fs
  | .preparing n next _ => next ≤ shards ∧ s.WorkDone next n
  | .collecting n _ => s.WorkDone shards n
  | .committing n _ => s.WorkDone shards n ∧ AllSaved s.attempt s.futures
  | .removing n target => s.WorkDone shards n ∧ AllSaved s.attempt s.futures ∧ s.Sane target ∧
      s.readyNum n = s.globalShardNum
  | .moving n target => s.WorkDone shards n ∧ AllSaved s.attempt s.futures ∧ s.Sane target ∧
      s.readyNum n = s.globalShardNum ∧ ¬ FileTree.Present target s.fs
  | .cleaning n target => AllSaved s.attempt s.futures ∧ s.Sane target ∧
      TargetFilled shards n target s.plan s.fs
  | .tracking n target => AllSaved s.attempt s.futures ∧ s.Sane target ∧
      TargetFilled shards n target s.plan s.fs

/-! ## Shard threads -/

/-- What the end of a shard thread does to the storage. -/
structure ThreadEnded (temp done : CkptPath) (k i : Nat) (f : ShardSaving) (result : Bool)
    (fs fs' : FileTree String CkptFile) : Prop where
  only : ∀ e ∈ fs', e ∈ fs ∨ (∃ x ∈ f.files, e = fileOf i f.step x) ∨
    ∃ r, e = (done ++ [r], .file (.done k))
  keeps : ∀ e ∈ fs, (∀ x ∈ f.files, x.2 ≠ e.1) → (∀ r, e.1 ≠ done ++ [r]) → e ∈ fs'
  saved : result = true → (f.files.map Prod.snd).Nodup →
    (∀ x ∈ f.files, ∀ r, x.2 ≠ done ++ [r]) → ∀ x ∈ f.files, fileOf i f.step x ∈ fs'

theorem threadEnded_writeFiles {temp done : CkptPath} {k i m : Nat} {f : ShardSaving}
    {fs : FileTree String CkptFile} :
    ThreadEnded temp done k i f false fs (writeFiles i f.step (f.files.take m) fs) where
  only e he := by
    rcases mem_or_of_mem_writeFiles he with old | ⟨x, hx, eq⟩
    · exact .inl old
    · exact .inr (.inl ⟨x, List.mem_of_mem_take hx, eq⟩)
  keeps e he other _ := mem_writeFiles_of_mem he fun x hx ↦ other x (List.mem_of_mem_take hx)
  saved h := by contradiction

/-- Every way a shard thread ends. -/
theorem runShard_eq (s : TempDirSaver) (k i : Nat) (f : ShardSaving) (outcome : ShardOutcome) :
    ∃ result fs', s.runShard (k, i) f outcome =
        { s with
          fs := fs'
          futures := s.futures.insert (k, i) { f with result := some result } } ∧
      ThreadEnded (s.tempDir f.step) (s.doneDir f.step) k i f result s.fs fs' := by
  have all : f.files.take f.files.length = f.files := List.take_length
  have written : ThreadEnded (s.tempDir f.step) (s.doneDir f.step) k i f false s.fs
      (writeFiles i f.step f.files s.fs) := by
    have whole : ThreadEnded (s.tempDir f.step) (s.doneDir f.step) k i f false s.fs
        (writeFiles i f.step (f.files.take f.files.length) s.fs) := threadEnded_writeFiles
    rwa [all] at whole
  unfold runShard
  simp only
  split
  · exact ⟨false, s.fs, rfl, fun e he ↦ .inl he, fun e he _ _ ↦ he, nofun⟩
  · cases outcome with
    | saved =>
      simp only
      split
      · refine ⟨true, _, rfl, ?_, ?_, ?_⟩
        · intro e he
          rcases FileTree.mem_write.mp he with eq | ⟨old, -⟩
          · exact .inr (.inr ⟨_, eq⟩)
          · exact written.only e old
        · intro e he other notDone
          refine FileTree.mem_write.mpr (.inr ⟨written.keeps e he other notDone, ?_⟩)
          exact notDone _
        · intro _ nodup notDone x hx
          refine FileTree.mem_write.mpr (.inr ⟨fileOf_mem_writeFiles nodup hx, ?_⟩)
          exact notDone x hx _
      · exact ⟨false, _, rfl, written⟩
    | persistFailed m => exact ⟨false, _, rfl, threadEnded_writeFiles⟩
    | doneFailed => exact ⟨false, _, rfl, written⟩

/-- A future that has ended is there under its key, with its step and files. -/
theorem mem_ended {futures : Dict (Nat × Nat) ShardSaving} {key : Nat × Nat} {f : ShardSaving}
    (result : Option Bool) (mem : (key, f) ∈ futures.items) {key' : Nat × Nat} {g : ShardSaving}
    (hg : (key', g) ∈ futures.items) :
    ∃ g', (key', g') ∈ (futures.insert key { f with result := result }).items ∧
      g'.step = g.step ∧ g'.files = g.files := by
  by_cases eq : key' = key
  · subst eq
    cases Dict.value_unique mem hg
    exact ⟨_, Dict.mem_items_insert.mpr (.inl ⟨rfl, rfl⟩), rfl, rfl⟩
  · exact ⟨g, Dict.mem_items_insert.mpr (.inr ⟨eq, hg⟩), rfl, rfl⟩

/-- Two shards of a plan without repeated paths write to different paths. -/
theorem tempPaths_cross {temp : CkptPath} {plan : List Planned}
    (nodup : (tempPaths temp plan).Nodup) {p q : Planned} (hp : p ∈ plan) (hq : q ∈ plan)
    (ne : p ≠ q) {x y : String × CkptPath} (hx : x ∈ toTemp temp p.found)
    (hy : y ∈ toTemp temp q.found) : x.2 ≠ y.2 := by
  rw [tempPaths, List.nodup_flatMap] at nodup
  have symm : Std.Symm (Function.onFun List.Disjoint fun p ↦
      (toTemp temp (Planned.found p)).map Prod.snd) := ⟨fun _ _ h ↦ h.symm⟩
  have apart := nodup.2.forall hp hq ne
  intro eq
  exact apart (List.mem_map_of_mem hx) (eq ▸ List.mem_map_of_mem hy)

theorem nodup_of_tempPaths {temp : CkptPath} {plan : List Planned}
    (nodup : (tempPaths temp plan).Nodup) {p : Planned} (hp : p ∈ plan) :
    ((toTemp temp p.found).map Prod.snd).Nodup :=
  (List.nodup_flatMap.mp nodup).1 p hp

/-! ## The work of an attempt -/

section Work

variable {temp done : CkptPath} {n attempt : Nat} {futures : Dict (Nat × Nat) ShardSaving}
  {plan : List Planned} {fs fs' : FileTree String CkptFile} {next : Nat}

/-- A future of the attempt has its place in the plan. -/
theorem PlanFollowed.of_mem (h : PlanFollowed temp n attempt futures plan next) {i : Nat}
    {f : ShardSaving} (hf : ((attempt, i), f) ∈ futures.items) :
    ∃ p ∈ plan, p.shard = i ∧ f.step = n ∧ f.files = toTemp temp p.found := by
  rcases h.planned i f hf with ⟨p, hp, rfl⟩
  rcases h.future p hp with ⟨g, hg, step, files⟩
  cases Dict.value_unique hf hg
  exact ⟨p, hp, rfl, step, files⟩

/-- The files of a future lie below the temporary directory. -/
theorem PlanFollowed.below (h : PlanFollowed temp n attempt futures plan next) {i : Nat}
    {f : ShardSaving} (hf : ((attempt, i), f) ∈ futures.items) {x : String × CkptPath}
    (hx : x ∈ f.files) : ∃ last, x.2 = temp ++ [last] := by
  rcases h.of_mem hf with ⟨p, hp, -, -, files⟩
  rw [files] at hx
  exact below_of_mem_toTemp (h.plain p hp) hx

/-- Only what is below the two directories matters. -/
theorem AtWork.congr (h : AtWork temp done n attempt futures plan fs next)
    (sameTemp : ∀ e, temp <+: e.1 → (e ∈ fs' ↔ e ∈ fs))
    (sameDone : ∀ e, done <+: e.1 → (e ∈ fs' ↔ e ∈ fs)) :
    AtWork temp done n attempt futures plan fs' next where
  tempFilled := by
    refine ⟨(sameTemp _ List.prefix_rfl).mpr h.tempFilled.dir, ?_⟩
    intro e he below
    exact h.tempFilled.only e ((sameTemp e below).mp he) below
  doneFilled := by
    refine ⟨(sameDone _ List.prefix_rfl).mpr h.doneFilled.dir, ?_⟩
    intro e he below
    exact h.doneFilled.only e ((sameDone e below).mp he) below
  followed := h.followed
  saved := by
    intro nodup i f hf result x hx
    rcases h.followed.below hf hx with ⟨last, eq⟩
    have below : temp <+: (fileOf i n x).1 := by
      rw [fileOf, eq]
      exact List.prefix_append temp [last]
    exact (sameTemp _ below).mpr (h.saved nodup i f hf result x hx)

/-- A thread of the attempt ends. -/
theorem AtWork.run (h : AtWork temp done n attempt futures plan fs next)
    (apart : Unrelated temp done) {i : Nat} {f : ShardSaving} {result : Bool}
    (mem : ((attempt, i), f) ∈ futures.items)
    (ended : ThreadEnded temp done attempt i f result fs fs') :
    AtWork temp done n attempt (futures.insert (attempt, i) { f with result := some result }) plan
      fs' next := by
  rcases h.followed.of_mem mem with ⟨p, hp, rfl, step, files⟩
  have notDone : ∀ x ∈ f.files, ∀ r, x.2 ≠ done ++ [r] := by
    intro x hx r eq
    rcases h.followed.below mem hx with ⟨last, below⟩
    exact apart.not_below (List.prefix_append temp [last])
      (below ▸ eq ▸ List.prefix_append done [r])
  constructor
  · constructor
    · refine ended.keeps _ h.tempFilled.dir ?_ ?_
      · intro x hx eq
        rcases h.followed.below mem hx with ⟨last, below⟩
        exact append_singleton_ne temp last (below.symm.trans eq)
      · intro r (eq : temp = done ++ [r])
        exact apart.2 (eq ▸ List.prefix_append done [r])
    · intro e he below
      rcases ended.only e he with old | ⟨x, hx, rfl⟩ | ⟨r, rfl⟩
      · rcases h.tempFilled.only e old below with eq | ⟨j, g, hg, x, hx, eq⟩
        · exact .inl eq
        · rcases mem_ended (some result) mem hg with ⟨g', hg', -, same⟩
          exact .inr ⟨j, g', hg', x, same ▸ hx, eq⟩
      · exact .inr ⟨p.shard, _, Dict.mem_items_insert.mpr (.inl ⟨rfl, rfl⟩), x, hx, by rw [step]⟩
      · exact absurd (List.prefix_append done [r]) (apart.not_below below)
  · constructor
    · refine ended.keeps _ h.doneFilled.dir ?_ ?_
      · intro x hx (eq : x.2 = done)
        rcases h.followed.below mem hx with ⟨last, below⟩
        exact apart.1 (eq ▸ below ▸ List.prefix_append temp [last])
      · intro r eq
        exact append_singleton_ne done r eq.symm
    · intro e he below
      rcases ended.only e he with old | ⟨x, hx, rfl⟩ | new
      · exact h.doneFilled.only e old below
      · rcases h.followed.below mem hx with ⟨last, eq⟩
        have above : temp <+: x.2 := eq ▸ List.prefix_append temp [last]
        exact absurd below (apart.not_below above)
      · exact .inr new
  · refine ⟨h.followed.shards, ?_, ?_, h.followed.plain⟩
    · intro q hq
      rcases h.followed.future q hq with ⟨g, hg, gstep, gfiles⟩
      rcases mem_ended (some result) mem hg with ⟨g', hg', sameStep, sameFiles⟩
      exact ⟨g', hg', sameStep.trans gstep, sameFiles.trans gfiles⟩
    · intro j g hg
      rcases Dict.mem_items_insert.mp hg with ⟨eq, -⟩ | ⟨-, old⟩
      · exact ⟨p, hp, (Prod.mk.inj eq).2.symm⟩
      · exact h.followed.planned j g old
  · intro nodup j g hg ok x hx
    rcases Dict.mem_items_insert.mp hg with ⟨eq, rfl⟩ | ⟨ne, old⟩
    · cases (Prod.mk.inj eq).2
      have own := nodup_of_tempPaths nodup hp
      rw [← files] at own
      rw [← step]
      exact ended.saved (Option.some.inj ok) own notDone x hx
    · have there := h.saved nodup j g old ok x hx
      rcases h.followed.of_mem old with ⟨q, hq, rfl, -, sameFiles⟩
      have other : p ≠ q := by
        rintro rfl
        exact ne rfl
      refine ended.keeps _ there ?_ ?_
      · intro y hy
        exact tempPaths_cross nodup hp hq other (files ▸ hy) (sameFiles ▸ hx)
      · intro r (eq : x.2 = done ++ [r])
        rcases h.followed.below old hx with ⟨last, below⟩
        exact apart.not_below (List.prefix_append temp [last])
          (below ▸ eq ▸ List.prefix_append done [r])

/-- The directories have been made and nothing has been submitted. -/
theorem atWork_of_fresh (fresh : Fresh attempt futures plan)
    (tempFilled : TempFilled temp n attempt futures fs) (doneFilled : DoneFilled done attempt fs) :
    AtWork temp done n attempt futures plan fs 0 where
  tempFilled := tempFilled
  doneFilled := doneFilled
  followed := by
    rw [fresh.1]
    exact ⟨rfl, nofun, fun i f hf ↦ absurd hf (fresh.2 i f), nofun⟩
  saved _ i f hf := absurd hf (fresh.2 i f)

/-- The next shard is planned and its thread submitted. -/
theorem AtWork.submit (h : AtWork temp done n attempt futures plan fs next) (rank : Nat)
    (configured : List (String × CkptPath)) {found : List (String × CkptPath)}
    (plain : PlainFiles found) :
    AtWork temp done n attempt
      (futures.insert (attempt, next) ⟨n, rank, toTemp temp found, none⟩)
      (plan ++ [⟨next, configured, found⟩]) fs (next + 1) := by
  have new : ∀ i f, ((attempt, i), f) ∈ futures.items → i ≠ next := by
    rintro i f hf rfl
    rcases h.followed.planned i f hf with ⟨p, hp, eq⟩
    have inRange : i ∈ List.range i := h.followed.shards ▸ eq ▸ List.mem_map_of_mem hp
    exact absurd (List.mem_range.mp inRange) (Nat.lt_irrefl i)
  have keep : ∀ i f, ((attempt, i), f) ∈ futures.items → ((attempt, i), f) ∈
      (futures.insert (attempt, next) ⟨n, rank, toTemp temp found, none⟩).items := by
    intro i f hf
    refine Dict.mem_items_insert.mpr (.inr ⟨?_, hf⟩)
    intro eq
    exact new i f hf (Prod.mk.inj eq).2
  refine ⟨⟨h.tempFilled.dir, ?_⟩, h.doneFilled, ⟨?_, ?_, ?_, ?_⟩, ?_⟩
  · intro e he below
    rcases h.tempFilled.only e he below with eq | ⟨i, f, hf, x, hx, eq⟩
    · exact .inl eq
    · exact .inr ⟨i, f, keep i f hf, x, hx, eq⟩
  · rw [List.map_append, h.followed.shards, List.range_succ]
    rfl
  · intro p hp
    rcases List.mem_append.mp hp with old | added
    · rcases h.followed.future p old with ⟨f, hf, step, files⟩
      exact ⟨f, keep _ f hf, step, files⟩
    · cases List.eq_of_mem_singleton added
      exact ⟨_, Dict.mem_items_insert.mpr (.inl ⟨rfl, rfl⟩), rfl, rfl⟩
  · intro i f hf
    rcases Dict.mem_items_insert.mp hf with ⟨eq, -⟩ | ⟨-, old⟩
    · exact ⟨_, List.mem_append_right _ (List.mem_singleton.mpr rfl), (Prod.mk.inj eq).2.symm⟩
    · rcases h.followed.planned i f old with ⟨p, hp, eq⟩
      exact ⟨p, List.mem_append_left _ hp, eq⟩
  · intro p hp
    rcases List.mem_append.mp hp with old | added
    · exact h.followed.plain p old
    · cases List.eq_of_mem_singleton added
      exact plain
  · intro nodup i f hf ok
    rcases Dict.mem_items_insert.mp hf with ⟨-, rfl⟩ | ⟨-, old⟩
    · cases ok
    · rw [tempPaths, List.flatMap_append] at nodup
      exact h.saved nodup.of_append_left i f old ok

end Work

end TempDirSaver

end ProbingBaselines.Dlrover
