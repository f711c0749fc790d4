import ProbingBaselines.Dlrover.TempDirCommit

/-!
# The commit of the temporary directory is atomic

Over the runs whose attempts commit sane plans, what lies outside the stage directory changes only
at the target and only when all done files of the attempt are there, and every committed checkpoint
is complete.
-/

namespace ProbingBaselines.Dlrover

open Lib

namespace TempDirSaver

variable {s t : TempDirSaver} {shards : Nat}

/-- The checkpoint that was committed was complete. -/
def Complete (shards : Nat) (c : Committed) : Prop :=
  c.plan.map Planned.shard = List.range shards ∧
    ∀ e, e ∈ c.found ↔ Expected c.plan c.step c.target e

/-- What every admitted run keeps. -/
structure Kept (shards : Nat) (s : TempDirSaver) : Prop where
  size : s.memory.length = shards
  attempts : ∀ k i f, ((k, i), f) ∈ s.futures.items → k ≤ s.attempt
  files : ∀ k i f, ((k, i), f) ∈ s.futures.items → ∀ x ∈ f.files,
    ∃ last, x.2 = s.tempDir f.step ++ [last]
  paths : ∀ c ∈ s.memory, PlainFiles c.paths
  stage : s.StageKept shards s.stage
  committed : ∀ c ∈ s.committed, Complete shards c
  tracker : s.tracker = s.committed.getLast?.map Committed.step

theorem kept_init (checkpointDir : CkptPath) (shards globalShardNum : Nat)
    (fs : FileTree String CkptFile) :
    Kept shards (init checkpointDir shards globalShardNum fs) where
  size := List.length_replicate
  attempts _ _ _ h := absurd h List.not_mem_nil
  files _ _ _ h := absurd h List.not_mem_nil
  paths c hc x hx := by
    cases List.eq_of_mem_replicate hc
    contradiction
  stage := trivial
  committed _ h := absurd h List.not_mem_nil
  tracker := rfl

/-! ## One step -/

/-- The trainer saves a state dict to the memory. -/
theorem Kept.save (h : Kept shards s) {shard rank n : Nat} {paths : List (String × CkptPath)}
    (deep : ∀ f ∈ paths, 2 ≤ f.2.length) (plain : ∀ f ∈ paths, Plain f.2) :
    Kept shards (s.save shard rank n paths) := by
  refine ⟨List.length_set.trans h.size, h.attempts, h.files, ?_, h.stage, h.committed, h.tracker⟩
  intro c hc x hx
  rcases List.mem_or_eq_of_mem_set hc with old | rfl
  · exact h.paths c old x hx
  · refine ⟨?_, plain x hx⟩
    intro empty
    have long := deep x hx
    rw [empty] at long
    contradiction

/-- The saver goes on to another stage. -/
theorem Kept.restage (h : Kept shards s) (fs : FileTree String CkptFile) (stage : SaverStage)
    (kept : StageKept { s with fs := fs, stage := stage } shards stage) :
    Kept shards { s with fs := fs, stage := stage } :=
  ⟨h.size, h.attempts, h.files, h.paths, kept, h.committed, h.tracker⟩

/-- An attempt begins. -/
theorem Kept.attempt (h : Kept shards s) (n : Nat) :
    Kept shards { s with stage := .makingTemp n, attempt := s.attempt + 1, plan := [] } := by
  refine ⟨h.size, ?_, h.files, h.paths, ?_, h.committed, h.tracker⟩
  · intro k i f hf
    exact Nat.le_succ_of_le (h.attempts k i f hf)
  · refine ⟨rfl, ?_⟩
    intro i f hf
    exact absurd (h.attempts _ i f hf) (Nat.not_succ_le_self s.attempt)

/-- The temporary directory is made anew. -/
theorem Kept.makeTemp (h : Kept shards s) {n : Nat} (stage : s.stage = .makingTemp n) :
    Kept shards { s with
      fs := FileTree.makedirs (s.tempDir n) (FileTree.rmtree (s.tempDir n) s.fs)
      stage := .makingDone n } := by
  have fresh := h.stage
  rw [stage] at fresh
  refine h.restage _ _ ⟨fresh, FileTree.mem_makedirs_rmtree.mpr (.inl rfl), ?_⟩
  intro e he below
  rcases FileTree.mem_makedirs_rmtree.mp he with eq | ⟨-, other⟩
  · exact .inl eq
  · exact absurd below other

/-- The directory of the done files is made anew. -/
theorem Kept.makeDone (h : Kept shards s) {n : Nat} (stage : s.stage = .makingDone n) :
    Kept shards { s with
      fs := FileTree.makedirs (s.doneDir n) (FileTree.rmtree (s.doneDir n) s.fs)
      stage := .preparing n 0 [] } := by
  have kept := h.stage
  rw [stage] at kept
  rcases kept with ⟨fresh, tempFilled⟩
  have apart := tempDir_unrelated_doneDir (s := s) n
  refine h.restage _ _ ⟨Nat.zero_le _, atWork_of_fresh fresh ⟨?_, ?_⟩ ⟨?_, ?_⟩⟩
  · exact FileTree.mem_makedirs_rmtree.mpr (.inr ⟨tempFilled.dir, apart.2⟩)
  · intro e he below
    rcases FileTree.mem_makedirs_rmtree.mp he with rfl | ⟨old, -⟩
    · exact absurd below apart.1
    · exact tempFilled.only e old below
  · exact FileTree.mem_makedirs_rmtree.mpr (.inl rfl)
  · intro e he below
    rcases FileTree.mem_makedirs_rmtree.mp he with eq | ⟨-, other⟩
    · exact .inl eq
    · exact absurd below other

/-- The next shard is prepared, or all have been. -/
theorem Kept.prepare (h : Kept shards s) {n next : Nat} {ckptDir : CkptPath}
    (stage : s.stage = .preparing n next ckptDir) : Kept shards (s.prepare n next ckptDir) := by
  have kept := h.stage
  rw [stage] at kept
  rcases kept with ⟨bound, work⟩
  unfold TempDirSaver.prepare
  split
  · next none =>
    have beyond : shards ≤ next := h.size ▸ List.getElem?_eq_none_iff.mp none
    have all : next = shards := Nat.le_antisymm bound beyond
    exact h.restage s.fs (.collecting n ckptDir) (all ▸ work)
  · next c hc =>
    have hmem : c ∈ s.memory := List.mem_of_getElem? hc
    split
    · exact h.restage s.fs .idle trivial
    · next replaced eq =>
      have toTemp := replacePathDir_eq_map eq
      have below : ∀ x ∈ replaced.1, ∃ last, x.2 = s.tempDir n ++ [last] := by
        rw [toTemp]
        exact fun x hx ↦ below_of_mem_toTemp (h.paths c hmem) hx
      refine ⟨List.length_set.trans h.size, ?_, ?_, ?_, ?_, h.committed, h.tracker⟩
      · intro k i f hf
        rcases Dict.mem_items_insert.mp hf with ⟨eq, -⟩ | ⟨-, old⟩
        · cases eq
          exact Nat.le_refl s.attempt
        · exact h.attempts k i f old
      · intro k i f hf
        rcases Dict.mem_items_insert.mp hf with ⟨-, rfl⟩ | ⟨-, old⟩
        · exact below
        · exact h.files k i f old
      · intro d hd
        rcases List.mem_or_eq_of_mem_set hd with old | rfl
        · exact h.paths d old
        · intro x hx
          rcases below x hx with ⟨last, eq⟩
          have long : 2 < x.2.length := by
            rw [eq, tempDir, stageDir]
            simp only [List.length_append, List.length_singleton]
            omega
          exact ⟨List.ne_nil_of_length_pos (by omega), plain_of_length long⟩
      · have room : next < shards := h.size ▸ (List.getElem?_eq_some_iff.mp hc).1
        have submitted := work.submit c.rank c.configured (h.paths c hmem)
        rw [← toTemp] at submitted
        exact ⟨room, submitted⟩

/-- A shard thread ends, of the attempt or while there is none under way. -/
theorem Kept.run (h : Kept shards s) {k i : Nat} {f : ShardSaving}
    (mem : ((k, i), f) ∈ s.futures.items) (pending : f.result = none)
    (turn : k = s.attempt ∨ s.stage = .idle) {result : Bool} {fs : FileTree String CkptFile}
    (ended : ThreadEnded (s.tempDir f.step) (s.doneDir f.step) k i f result s.fs fs) :
    Kept shards { s with
      fs := fs
      futures := s.futures.insert (k, i) { f with result := some result } } := by
  refine ⟨h.size, ?_, ?_, h.paths, ?_, h.committed, h.tracker⟩
  · intro k' i' g hg
    rcases Dict.mem_items_insert.mp hg with ⟨eq, -⟩ | ⟨-, old⟩
    · cases eq
      exact h.attempts k i f mem
    · exact h.attempts k' i' g old
  · intro k' i' g hg
    rcases Dict.mem_items_insert.mp hg with ⟨-, rfl⟩ | ⟨-, old⟩
    · exact h.files k i f mem
    · exact h.files k' i' g old
  · show StageKept _ shards s.stage
    have kept := h.stage
    rcases turn with rfl | idle
    · have unsaved : ¬ AllSaved s.attempt s.futures := by
        intro all
        rw [all i f mem] at pending
        contradiction
      have work : ∀ {n next}, s.WorkDone next n → AtWork (s.tempDir n) (s.doneDir n) n s.attempt
          (s.futures.insert (s.attempt, i) { f with result := some result }) s.plan fs next := by
        intro n next work
        rcases work.followed.of_mem mem with ⟨-, -, -, step, -⟩
        rw [step] at ended
        exact work.run (tempDir_unrelated_doneDir n) mem ended
      cases stage : s.stage with
      | idle => trivial
      | makingTemp n =>
        rw [stage] at kept
        exact absurd mem (kept.2 i f)
      | makingDone n =>
        rw [stage] at kept
        exact absurd mem (kept.1.2 i f)
      | preparing n next ckptDir =>
        rw [stage] at kept
        exact ⟨kept.1, work kept.2⟩
      | collecting n ckptDir =>
        rw [stage] at kept
        exact work kept
      | committing n target =>
        rw [stage] at kept
        exact absurd kept.2 unsaved
      | removing n target =>
        rw [stage] at kept
        exact absurd kept.2.1 unsaved
      | moving n target =>
        rw [stage] at kept
        exact absurd kept.2.1 unsaved
      | cleaning n target =>
        rw [stage] at kept
        exact absurd kept.1 unsaved
      | tracking n target =>
        rw [stage] at kept
        exact absurd kept.1 unsaved
    · rw [idle]
      trivial

/-- All threads of the attempt have saved their shards. -/
theorem Kept.collect (h : Kept shards s) {n : Nat} {ckptDir : CkptPath}
    (stage : s.stage = .collecting n ckptDir)
    (all : (s.own.all fun e ↦ e.2.result = some true) = true) :
    Kept shards { s with stage := .committing n ckptDir } := by
  have kept := h.stage
  rw [stage] at kept
  refine h.restage s.fs _ ⟨kept, ?_⟩
  intro i f hf
  have mem : ((s.attempt, i), f) ∈ s.own := List.mem_filter.mpr ⟨hf, decide_eq_true rfl⟩
  exact of_decide_eq_true (List.all_eq_true.mp all _ mem)

/-- All done files are there. -/
theorem Kept.check (h : Kept shards s) {n : Nat} {target : CkptPath}
    (stage : s.stage = .committing n target) (ready : s.readyNum n = s.globalShardNum)
    (sane : s.Sane target) : Kept shards { s with stage := .removing n target } := by
  have kept := h.stage
  rw [stage] at kept
  exact h.restage s.fs _ ⟨kept.1, kept.2, sane, ready⟩

/-- What the user configured is removed; the stage directory is elsewhere. -/
theorem Kept.remove (h : Kept shards s) {n : Nat} {target : CkptPath}
    (stage : s.stage = .removing n target) :
    Kept shards { s with
      fs := if target = [] then s.fs else FileTree.rmtree target s.fs
      stage := .moving n target } := by
  have kept := h.stage
  rw [stage] at kept
  rcases kept with ⟨work, all, sane, ready⟩
  rw [if_neg sane.2.2.2.1]
  have temp := sane.2.2.2.2.below (stageDir_prefix_tempDir n)
  have done := sane.2.2.2.2.below (stageDir_prefix_doneDir n)
  have same : ∀ {d : CkptPath}, Unrelated d target → ∀ e : CkptPath × Inode CkptFile, d <+: e.1 →
      (e ∈ FileTree.rmtree target s.fs ↔ e ∈ s.fs) := by
    intro d apart e below
    rw [FileTree.mem_rmtree, and_iff_left (apart.not_below below)]
  refine h.restage _ _ ⟨work.congr (same temp) (same done), all, sane, ?_,
    FileTree.not_present_rmtree⟩
  have children : FileTree.children (s.doneDir n) (FileTree.rmtree target s.fs) =
      FileTree.children (s.doneDir n) s.fs := FileTree.children_rmtree done.1 done.2
  exact (congrArg List.length children).trans ready

theorem rebase_replaceDir {temp target : CkptPath} {x : String × CkptPath}
    (plain : x.2 ≠ [] ∧ Plain x.2) (dir : x.2.dropLast = target) :
    FileTree.rebase temp target (replaceDir temp x.2) = x.2 := by
  rw [replaceDir_of_plain plain.1 plain.2, FileTree.rebase_of_below, ← dir]
  exact List.dropLast_append_getLast plain.1

/-- A sane plan writes every file of the temporary directory once. -/
theorem nodup_tempPaths {n : Nat} {target : CkptPath} (work : s.WorkDone shards n)
    (sane : s.Sane target) : (tempPaths (s.tempDir n) s.plan).Nodup := by
  have eq : tempPaths (s.tempDir n) s.plan =
      (s.plan.flatMap fun p ↦ p.configured.map Prod.snd).map (replaceDir (s.tempDir n)) := by
    rw [tempPaths, List.map_flatMap]
    apply List.flatMap_congr
    intro p hp
    rw [toTemp, List.map_map, List.map_map, sane.1 p hp]
    rfl
  have plain : ∀ path ∈ s.plan.flatMap fun p ↦ p.configured.map Prod.snd,
      (path ≠ [] ∧ Plain path) ∧ path.dropLast = target := by
    intro path hpath
    rcases List.mem_flatMap.mp hpath with ⟨p, hp, inp⟩
    rcases List.mem_map.mp inp with ⟨x, hx, rfl⟩
    exact ⟨work.followed.plain p hp x (sane.1 p hp ▸ hx), sane.2.1 p hp x hx⟩
  rw [eq]
  refine sane.2.2.1.map_on ?_
  intro p hp q hq same
  exact replaceDir_injOn (plain p hp).1 (plain q hq).1 (plain p hp).2 (plain q hq).2 same

/-- The move puts the files of all shards below the target, and nothing else. -/
theorem targetFilled_move {n : Nat} {target : CkptPath} (work : s.WorkDone shards n)
    (all : AllSaved s.attempt s.futures) (sane : s.Sane target)
    (gone : ¬ FileTree.Present target s.fs) :
    TargetFilled shards n target s.plan (FileTree.move (s.tempDir n) target s.fs) := by
  have here : FileTree.Present (s.tempDir n) s.fs := ⟨_, work.tempFilled.dir, List.prefix_rfl⟩
  refine ⟨work.followed.shards, ?_⟩
  intro e below
  rw [FileTree.mem_move here gone]
  constructor
  · rintro ⟨g, hg, rfl⟩
    by_cases inTemp : s.tempDir n <+: g.1
    · rcases work.tempFilled.only g hg inTemp with rfl | ⟨i, f, hf, x, hx, rfl⟩
      · left
        rw [FileTree.rebase_self]
      · rcases work.followed.of_mem hf with ⟨p, hp, rfl, -, files⟩
        rw [files] at hx
        rcases List.mem_map.mp hx with ⟨y, hy, rfl⟩
        have plain := work.followed.plain p hp y hy
        rw [sane.1 p hp] at hy
        refine .inr ⟨p, hp, y, hy, ?_⟩
        rw [fileOf, rebase_replaceDir plain (sane.2.1 p hp y hy), fileOf]
    · rw [FileTree.rebase_of_not_below inTemp] at below
      exact absurd ⟨g, hg, below⟩ gone
  · rintro (rfl | ⟨p, hp, x, hx, rfl⟩)
    · exact ⟨_, work.tempFilled.dir, by rw [FileTree.rebase_self]⟩
    · rcases work.followed.future p hp with ⟨f, hf, -, files⟩
      have found : x ∈ p.found := sane.1 p hp ▸ hx
      have written : (x.1, replaceDir (s.tempDir n) x.2) ∈ f.files := by
        rw [files]
        exact List.mem_map.mpr ⟨x, found, rfl⟩
      refine ⟨_, work.saved (nodup_tempPaths work sane) _ f hf (all _ f hf) _ written, ?_⟩
      rw [fileOf, fileOf, rebase_replaceDir (work.followed.plain p hp x found)
        (sane.2.1 p hp x hx)]

/-- The temporary directory becomes the target. -/
theorem Kept.move (h : Kept shards s) {n : Nat} {target : CkptPath}
    (stage : s.stage = .moving n target) :
    Kept shards { s with
      fs := FileTree.move (s.tempDir n) target s.fs
      stage := .cleaning n target } := by
  have kept := h.stage
  rw [stage] at kept
  rcases kept with ⟨work, all, sane, -, gone⟩
  exact h.restage _ _ ⟨all, sane, targetFilled_move work all sane gone⟩

/-- The done files are removed. -/
theorem Kept.clean (h : Kept shards s) {n : Nat} {target : CkptPath}
    (stage : s.stage = .cleaning n target) :
    Kept shards { s with
      fs := FileTree.rmtree (s.doneDir n) s.fs
      stage := .tracking n target } := by
  have kept := h.stage
  rw [stage] at kept
  rcases kept with ⟨all, sane, shards, filled⟩
  have apart := (sane.2.2.2.2.below (stageDir_prefix_doneDir n)).symm
  refine h.restage _ _ ⟨all, sane, shards, ?_⟩
  intro e below
  rw [FileTree.mem_rmtree, and_iff_left (apart.not_below below)]
  exact filled e below

/-- The tracker file is written. -/
theorem Kept.track (h : Kept shards s) {n : Nat} {target : CkptPath}
    (stage : s.stage = .tracking n target) :
    Kept shards { s with
      tracker := some n
      stage := .idle
      committed :=
        s.committed ++ [⟨n, target, s.fs.filter fun e ↦ target <+: e.1, s.plan⟩] } := by
  have kept := h.stage
  rw [stage] at kept
  rcases kept with ⟨-, sane, shards, filled⟩
  refine ⟨h.size, h.attempts, h.files, h.paths, trivial, ?_, ?_⟩
  · intro c hc
    rcases List.mem_append.mp hc with old | new
    · exact h.committed c old
    · cases List.eq_of_mem_singleton new
      refine ⟨shards, ?_⟩
      intro e
      rw [List.mem_filter, decide_eq_true_eq]
      constructor
      · rintro ⟨mem, below⟩
        exact (filled e below).mp mem
      · intro expected
        have below : target <+: e.1 := by
          rcases expected with rfl | ⟨p, hp, x, hx, rfl⟩
          · exact List.prefix_rfl
          · exact sane.2.1 p hp x hx ▸ List.dropLast_prefix x.2
        exact ⟨(filled e below).mpr expected, below⟩
  · rw [List.getLast?_concat]
    rfl

/-- What a step can do. -/
inductive Moved (s : TempDirSaver) : SaverAct → TempDirSaver → Prop where
  | saved {shard rank n : Nat} {paths : List (String × CkptPath)}
      (deep : ∀ f ∈ paths, 2 ≤ f.2.length) :
      Moved s (.save shard rank n paths) (s.save shard rank n paths)
  | stayed {a : SaverAct} : Moved s a s
  | stopped {a : SaverAct} : Moved s a { s with stage := .idle }
  | attempted {n : Nat} :
      Moved s (.attempt n) { s with
        stage := .makingTemp n
        attempt := s.attempt + 1
        plan := [] }
  | madeTemp {n : Nat} (stage : s.stage = .makingTemp n) :
      Moved s .makeTemp { s with
        fs := FileTree.makedirs (s.tempDir n) (FileTree.rmtree (s.tempDir n) s.fs)
        stage := .makingDone n }
  | madeDone {n : Nat} (stage : s.stage = .makingDone n) :
      Moved s .makeDone { s with
        fs := FileTree.makedirs (s.doneDir n) (FileTree.rmtree (s.doneDir n) s.fs)
        stage := .preparing n 0 [] }
  | prepared {n next : Nat} {ckptDir : CkptPath} (stage : s.stage = .preparing n next ckptDir) :
      Moved s .prepare (s.prepare n next ckptDir)
  | ended {k i : Nat} {outcome : ShardOutcome} {f : ShardSaving} {result : Bool}
      {fs : FileTree String CkptFile} (mem : ((k, i), f) ∈ s.futures.items)
      (pending : f.result = none)
      (ended : ThreadEnded (s.tempDir f.step) (s.doneDir f.step) k i f result s.fs fs) :
      Moved s (.run (k, i) outcome) { s with
        fs := fs
        futures := s.futures.insert (k, i) { f with result := some result } }
  | collected {n : Nat} {ckptDir : CkptPath} (stage : s.stage = .collecting n ckptDir)
      (all : (s.own.all fun e ↦ e.2.result = some true) = true) :
      Moved s (.collect false) { s with stage := .committing n ckptDir }
  | ready {n : Nat} {target : CkptPath} (stage : s.stage = .committing n target)
      (ready : s.readyNum n = s.globalShardNum) :
      Moved s .check { s with stage := .removing n target }
  | timedOut {n : Nat} :
      Moved s .timeout { s with
        fs := FileTree.rmtree (s.doneDir n) (FileTree.rmtree (s.tempDir n) s.fs)
        stage := .idle }
  | removed {n : Nat} {target : CkptPath} (stage : s.stage = .removing n target) :
      Moved s .remove { s with
        fs := if target = [] then s.fs else FileTree.rmtree target s.fs
        stage := .moving n target }
  | moved {n : Nat} {target : CkptPath} (stage : s.stage = .moving n target) :
      Moved s .move { s with
        fs := FileTree.move (s.tempDir n) target s.fs
        stage := .cleaning n target }
  | cleaned {n : Nat} {target : CkptPath} (stage : s.stage = .cleaning n target) :
      Moved s .clean { s with
        fs := FileTree.rmtree (s.doneDir n) s.fs
        stage := .tracking n target }
  | tracked {n : Nat} {target : CkptPath} (stage : s.stage = .tracking n target) :
      Moved s (.track true) { s with
        tracker := some n
        stage := .idle
        committed := s.committed ++ [⟨n, target, s.fs.filter fun e ↦ target <+: e.1, s.plan⟩] }

theorem moved_step {a : SaverAct} (taken : s.step a = some t) : Moved s a t := by
  cases a with
  | save shard rank n paths =>
    rcases Option.ite_none_right_eq_some.mp taken with ⟨deep, eq⟩
    cases eq
    exact .saved deep
  | attempt n =>
    simp only [step] at taken
    split at taken
    · split at taken
      · cases taken
        exact .attempted
      · cases taken
        exact .stayed
    · cases taken
  | makeTemp =>
    simp only [step] at taken
    split at taken
    · next stage =>
      cases taken
      exact .madeTemp stage
    · cases taken
  | makeDone =>
    simp only [step] at taken
    split at taken
    · next stage =>
      cases taken
      exact .madeDone stage
    · cases taken
  | prepare =>
    simp only [step] at taken
    split at taken
    · next stage =>
      cases taken
      exact .prepared stage
    · cases taken
  | run future outcome =>
    simp only [step] at taken
    split at taken
    · next f hf =>
      rcases Option.ite_none_right_eq_some.mp taken with ⟨pending, eq⟩
      cases eq
      rcases s.runShard_eq future.1 future.2 f outcome with ⟨result, fs, eq, ended⟩
      rw [eq]
      exact .ended (Dict.get?_eq_some_iff.mp hf) pending ended
    · cases taken
  | collect raised =>
    simp only [step] at taken
    split at taken
    · next stage =>
      cases raised with
      | true =>
        cases taken
        exact .stopped
      | false =>
        rw [if_neg Bool.false_ne_true] at taken
        split at taken
        · split at taken
          · next all =>
            cases taken
            exact .collected stage all
          · cases taken
            exact .stopped
        · cases taken
    · cases taken
  | check =>
    simp only [step] at taken
    split at taken
    · next stage =>
      split at taken
      · split at taken
        · next ready =>
          cases taken
          exact .ready stage ready
        · cases taken
          exact .stayed
      · cases taken
        exact .stopped
    · cases taken
  | timeout =>
    simp only [step] at taken
    split at taken
    · split at taken
      · cases taken
      · cases taken
        exact .timedOut
    · cases taken
  | remove =>
    simp only [step] at taken
    split at taken
    · next stage =>
      cases taken
      exact .removed stage
    · cases taken
  | move =>
    simp only [step] at taken
    split at taken
    · next stage =>
      split at taken
      · cases taken
        exact .stopped
      · cases taken
        exact .moved stage
    · cases taken
  | clean =>
    simp only [step] at taken
    split at taken
    · next stage =>
      cases taken
      exact .cleaned stage
    · cases taken
  | track written =>
    simp only [step] at taken
    split at taken
    · next stage =>
      cases written with
      | true =>
        cases taken
        exact .tracked stage
      | false =>
        cases taken
        exact .stopped
    · cases taken

theorem kept_step (h : Kept shards s) {a : SaverAct} (admitted : s.Admitted a)
    (taken : s.step a = some t) : Kept shards t := by
  have step := moved_step taken
  cases step with
  | saved deep => exact h.save deep admitted
  | stayed => exact h
  | stopped => exact h.restage s.fs .idle trivial
  | attempted => exact h.attempt _
  | madeTemp stage => exact h.makeTemp stage
  | madeDone stage => exact h.makeDone stage
  | prepared stage => exact h.prepare stage
  | ended mem pending ended => exact h.run mem pending admitted ended
  | collected stage all => exact h.collect stage all
  | ready stage ready =>
    have committable : s.Committable s.stage := admitted
    rw [stage] at committable
    exact h.check stage ready (committable ready)
  | timedOut => exact h.restage _ .idle trivial
  | removed stage => exact h.remove stage
  | moved stage => exact h.move stage
  | cleaned stage => exact h.clean stage
  | tracked stage => exact h.track stage

/-! ## Outside the stage directory -/

/-- All done files of the current attempt are there, and no others. -/
def AllDone (s : TempDirSaver) (n : Nat) : Prop :=
  s.readyNum n = s.globalShardNum ∧
    ∀ e ∈ FileTree.children (s.doneDir n) s.fs,
      ∃ r, e = (s.doneDir n ++ [r], .file (.done s.attempt))

/-- The saver is replacing what is at the target. -/
def Replacing (s : TempDirSaver) (target : CkptPath) : Prop :=
  ∃ n, (s.stage = .removing n target ∨ s.stage = .moving n target) ∧ s.AllDone n

theorem allDone_of_work {n : Nat} (work : s.WorkDone shards n)
    (ready : s.readyNum n = s.globalShardNum) : s.AllDone n := by
  refine ⟨ready, ?_⟩
  intro e he
  rcases FileTree.mem_children.mp he with ⟨mem, below, length⟩
  rcases work.doneFilled.only e mem below with rfl | file
  · exact absurd length (Nat.ne_of_lt (Nat.lt_succ_self _))
  · exact file

/-- An entry outside the stage directory changes only below a target that is being replaced. -/
theorem Kept.outside (h : Kept shards s) {a : SaverAct} (taken : s.step a = some t)
    {e : CkptPath × Inode CkptFile} (out : ¬ s.stageDir <+: e.1) :
    (e ∈ t.fs ↔ e ∈ s.fs) ∨ ∃ target, target <+: e.1 ∧ s.Replacing target := by
  have notTemp : ∀ n, ¬ s.tempDir n <+: e.1 := fun n below ↦
    out ((stageDir_prefix_tempDir n).trans below)
  have notDone : ∀ n, ¬ s.doneDir n <+: e.1 := fun n below ↦
    out ((stageDir_prefix_doneDir n).trans below)
  have made : ∀ d, s.stageDir <+: d →
      (e ∈ FileTree.makedirs d (FileTree.rmtree d s.fs) ↔ e ∈ s.fs) := by
    intro d hd
    have elsewhere : ¬ d <+: e.1 := fun below ↦ out (hd.trans below)
    rw [FileTree.mem_makedirs_rmtree, and_iff_left elsewhere, or_iff_right_iff_imp]
    rintro rfl
    exact absurd List.prefix_rfl elsewhere
  have step := moved_step taken
  cases step with
  | saved _ | stayed | stopped | attempted | collected _ _ | ready _ _ | tracked _ =>
    exact .inl Iff.rfl
  | madeTemp _ => exact .inl (made _ (stageDir_prefix_tempDir _))
  | madeDone _ => exact .inl (made _ (stageDir_prefix_doneDir _))
  | prepared _ =>
    left
    unfold TempDirSaver.prepare
    split
    · exact Iff.rfl
    · split <;> exact Iff.rfl
  | @ended k i _ f _ fs mem _ ended =>
    have inTemp := h.files k i f mem
    left
    constructor
    · intro (there : e ∈ fs)
      rcases ended.only e there with old | ⟨x, hx, rfl⟩ | ⟨r, rfl⟩
      · exact old
      · rcases inTemp x hx with ⟨last, eq⟩
        have below : s.tempDir f.step <+: x.2 := eq ▸ List.prefix_append _ [last]
        exact absurd below (notTemp f.step)
      · exact absurd (List.prefix_append _ [r]) (notDone f.step)
    · intro there
      refine ended.keeps e there ?_ ?_
      · intro x hx same
        rcases inTemp x hx with ⟨last, eq⟩
        exact notTemp f.step (same ▸ eq ▸ List.prefix_append _ [last])
      · intro r eq
        exact notDone f.step (eq ▸ List.prefix_append _ [r])
  | timedOut =>
    left
    rw [FileTree.mem_rmtree, FileTree.mem_rmtree, and_iff_left (notDone _),
      and_iff_left (notTemp _)]
  | @removed n target stage =>
    by_cases below : target <+: e.1
    · have kept := h.stage
      rw [stage] at kept
      exact .inr ⟨target, below, n, .inl stage, allDone_of_work kept.1 kept.2.2.2⟩
    · left
      show e ∈ (if target = [] then s.fs else FileTree.rmtree target s.fs) ↔ e ∈ s.fs
      split
      · exact Iff.rfl
      · rw [FileTree.mem_rmtree, and_iff_left below]
  | @moved n target stage =>
    by_cases below : target <+: e.1
    · have kept := h.stage
      rw [stage] at kept
      exact .inr ⟨target, below, n, .inr stage, allDone_of_work kept.1 kept.2.2.2.1⟩
    · exact .inl (FileTree.mem_move_of_not_below (notTemp n) below)
  | cleaned _ =>
    left
    rw [FileTree.mem_rmtree, and_iff_left (notDone _)]

end TempDirSaver

end ProbingBaselines.Dlrover
