import ProbingBaselines.Dlrover.FsdpSaver

/-!
# When the tracker file names a complete checkpoint

Only the thread of shard 0 and the commit of its agent write the tracker file. That thread is alone
in its call, and the calls of its agent come one after the other, so what it has written is still
there when it gets to the tracker file; the other shards are there if it comes last. The commit gets
as far as the tracker file in jobs of one shard only, and then it names what the thread has written.
-/

namespace ProbingBaselines.Dlrover

open Lib

variable {n : Nat}

namespace FsdpDisk

variable {d d' : FsdpDisk n} {step s : Int} {r q : Fin (n + 1)} {file : CkptFileState}
  {names : Option (List Int)} {id : Nat × Nat}

theorem dirs_setDir_of_ne (ne : s ≠ step) (dir : StepDir n) :
    (d.setDir step dir).dirs s = d.dirs s := Function.update_of_ne ne ..

theorem shards_setShard : ((d.setShard step r file).dirs s).shards q =
    if s = step ∧ q = r then file else (d.dirs s).shards q := by
  unfold setShard setDir
  by_cases same : s = step
  · subst same
    by_cases eq : q = r
    · subst eq
      simp
    · simp [eq]
  · simp [same]

theorem metadata_setShard :
    ((d.setShard step r file).dirs s).metadata = (d.dirs s).metadata := by
  unfold setShard setDir
  by_cases same : s = step
  · subst same
    simp
  · simp [same]

theorem shards_setMetadata :
    ((d.setMetadata step file).dirs s).shards q = (d.dirs s).shards q := by
  unfold setMetadata setDir
  by_cases same : s = step
  · subst same
    simp
  · simp [same]

theorem metadata_setMetadata : ((d.setMetadata step file).dirs s).metadata =
    if s = step then file else (d.dirs s).metadata := by
  unfold setMetadata setDir
  by_cases same : s = step
  · subst same
    simp
  · simp [same]

theorem doneDirs_setDone :
    (d.setDone step names).doneDirs s = if s = step then names else d.doneDirs s := by
  unfold setDone
  by_cases same : s = step
  · subst same
    simp
  · simp [same]

/-- The names that the threads leave in a directory of done files. -/
def NamesKept (d : FsdpDisk n) (step : Int) : Prop :=
  ∀ names, d.doneDirs step = some names → names = [] ∨ names = [fsdpConfigRank]

/-- The files of shard 0 are on the storage. -/
def Own (d : FsdpDisk n) (step : Int) : Prop :=
  (d.dirs step).shards ⟨0, n.succ_pos⟩ = .complete ∧ (d.dirs step).metadata = .complete

theorem complete_of_own (own : d.Own step)
    (others : ∀ r, r ≠ 0 → (d.dirs step).shards r = .complete) : (d.dirs step).Complete := by
  refine ⟨fun r ↦ ?_, own.2⟩
  by_cases same : r = 0
  · subst same
    exact own.1
  · exact others r same

theorem eq_of_single (single : n = 0) (r q : Fin (n + 1)) : r = q := by
  apply Fin.ext
  have lt_r := r.isLt
  have lt_q := q.isLt
  omega

/-- In a job of one shard its files are all files. -/
theorem complete_of_single (single : n = 0) (own : d.Own step) : (d.dirs step).Complete :=
  complete_of_own own fun r ne ↦ absurd (eq_of_single single r 0) ne

/-- The tracker file names a complete checkpoint, or none. -/
def Named (d : FsdpDisk n) : Prop := ∀ step, d.tracker = some step → (d.dirs step).Complete

/-- A change in the directory of a step that the tracker file does not name. -/
theorem Named.setDir (h : d.Named) (dir : StepDir n) (away : d.tracker ≠ some step) :
    (d.setDir step dir).Named := by
  intro s names
  have ne : s ≠ step := by
    rintro rfl
    exact away names
  rw [dirs_setDir_of_ne ne]
  exact h s names

/-- Writing a shard file to its end takes nothing from a complete checkpoint. -/
theorem Named.written (h : d.Named) :
    (d.setShard step r (written ((d.dirs step).shards r) id)).Named := by
  intro s names
  obtain ⟨shards, metadata⟩ := h s names
  refine ⟨fun q ↦ ?_, metadata_setShard.trans metadata⟩
  rw [shards_setShard]
  split
  · next same =>
    obtain ⟨rfl, rfl⟩ := same
    rw [shards q]
    rfl
  · exact shards q

/-- What the threads of the shards other than 0 leave as it is. -/
structure Frame (d d' : FsdpDisk n) : Prop where
  tracker : d'.tracker = d.tracker
  shard : ∀ step, (d'.dirs step).shards 0 = (d.dirs step).shards 0
  metadata : ∀ step, (d'.dirs step).metadata = (d.dirs step).metadata
  done : n = 0 → d'.doneDirs = d.doneDirs
  names : ∀ step, d.NamesKept step → d'.NamesKept step

theorem Frame.refl (d : FsdpDisk n) : Frame d d :=
  ⟨rfl, fun _ ↦ rfl, fun _ ↦ rfl, fun _ ↦ rfl, fun _ ↦ id⟩

theorem Frame.own (h : Frame d d') (own : d.Own step) : d'.Own step :=
  ⟨(h.shard step).trans own.1, (h.metadata step).trans own.2⟩

theorem frame_setShard (other : r ≠ 0) : Frame d (d.setShard step r file) := by
  refine ⟨rfl, fun s ↦ ?_, fun s ↦ metadata_setShard, fun _ ↦ rfl, fun _ ↦ id⟩
  rw [shards_setShard, if_neg fun same ↦ other same.2.symm]

end FsdpDisk

/-- The stages of shard 0 alone. -/
def PersistStage.ofZero : PersistStage → Bool
  | .making => true
  | .opensMetadata => true
  | .writesMetadata => true
  | .opensTracker => true
  | .writesTracker => true
  | _ => false

/-- From the removal of the directory to the tracker file. -/
def PersistStage.away : PersistStage → Bool
  | .making => true
  | .opening => true
  | .writing => true
  | .opensMetadata => true
  | .writesMetadata => true
  | .opensTracker => true
  | _ => false

/-- Shard 0 has its shard file. -/
def PersistStage.hasShard : PersistStage → Bool
  | .opensMetadata => true
  | .writesMetadata => true
  | .opensTracker => true
  | .writesTracker => true
  | .marking => true
  | .saved => true
  | _ => false

/-- Shard 0 has its shard file and `.metadata`. -/
def PersistStage.hasMetadata : PersistStage → Bool
  | .opensTracker => true
  | .writesTracker => true
  | .marking => true
  | .saved => true
  | _ => false

namespace PersistThread

variable {t : PersistThread n} {memory : Fin (n + 1) → Int} {d d' : FsdpDisk n} {id : Nat × Nat}
  {stage : PersistStage}

/-- The steps of a thread, one by one. -/
inductive Moved (t : PersistThread n) (memory : Fin (n + 1) → Int) (d : FsdpDisk n)
    (id : Nat × Nat) : FsdpDisk n → PersistStage → Prop where
  | passed (before : t.stage = .starting) : Moved t memory d id d .preparing
  | refused (before : t.stage = .starting) : Moved t memory d id d .failed
  | removed (before : t.stage = .preparing) (zero : t.rank = 0) :
    Moved t memory d id (d.rmtree t.config) .making
  | waited (before : t.stage = .preparing) (other : t.rank ≠ 0) : Moved t memory d id d .opening
  | made (before : t.stage = .making) : Moved t memory d id (d.makedirs t.config) .opening
  | opened (before : t.stage = .opening) :
    Moved t memory d id (d.setShard t.config t.rank (.partly id)) .writing
  | wrote (before : t.stage = .writing) :
    Moved t memory d id
      (d.setShard t.config t.rank (FsdpDisk.written ((d.dirs t.config).shards t.rank) id))
      (if t.rank = 0 then .opensMetadata else .marking)
  | openedMetadata (before : t.stage = .opensMetadata) :
    Moved t memory d id (d.setMetadata t.config (.partly id)) .writesMetadata
  | wroteMetadata (before : t.stage = .writesMetadata) :
    Moved t memory d id
      (d.setMetadata t.config (FsdpDisk.written (d.dirs t.config).metadata id)) .opensTracker
  | openedTracker (before : t.stage = .opensTracker) :
    Moved t memory d id { d with tracker := none } .writesTracker
  | wroteTracker (before : t.stage = .writesTracker) :
    Moved t memory d id { d with tracker := some t.config } .marking
  | marked (names : List Int) (before : t.stage = .marking)
    (found : d.doneDirs t.step = some names) :
    Moved t memory d id (d.setDone t.step (some (names.insert fsdpConfigRank))) .saved

theorem moved (taken : t.run memory d id = some (d', stage)) : Moved t memory d id d' stage := by
  unfold run at taken
  split at taken
  · next before =>
    cases taken
    split
    · exact .passed before
    · exact .refused before
  · next before =>
    split at taken
    · next zero =>
      cases taken
      exact .removed before zero
    · next other =>
      obtain ⟨_, taken⟩ := Option.ite_none_right_eq_some.mp taken
      cases taken
      exact .waited before other
  · next before =>
    cases taken
    exact .made before
  · next before =>
    obtain ⟨_, taken⟩ := Option.ite_none_right_eq_some.mp taken
    cases taken
    exact .opened before
  · next before =>
    cases taken
    exact .wrote before
  · next before =>
    obtain ⟨_, taken⟩ := Option.ite_none_right_eq_some.mp taken
    cases taken
    exact .openedMetadata before
  · next before =>
    cases taken
    exact .wroteMetadata before
  · next before =>
    cases taken
    exact .openedTracker before
  · next before =>
    cases taken
    exact .wroteTracker before
  · next before =>
    obtain ⟨names, found, taken⟩ := Option.map_eq_some_iff.mp taken
    cases taken
    exact .marked names before found
  · contradiction
  · contradiction

/-- What the stage of the thread of shard 0 says of the storage. -/
structure ZeroKept (d : FsdpDisk n) (id : Nat × Nat) (t : PersistThread n) : Prop where
  single : n = 0 → t.config = t.step
  away : t.stage.away = true → d.tracker ≠ some t.config
  writing : t.stage = .writing → (d.dirs t.config).shards 0 = .partly id
  shard : t.stage.hasShard = true → (d.dirs t.config).shards 0 = .complete
  writesMetadata : t.stage = .writesMetadata → (d.dirs t.config).metadata = .partly id
  metadata : t.stage.hasMetadata = true → (d.dirs t.config).metadata = .complete

theorem ZeroKept.own (h : ZeroKept d id t) (has : t.stage.hasMetadata = true) : d.Own t.config := by
  refine ⟨h.shard ?_, h.metadata has⟩
  revert has
  cases t.stage <;> decide

theorem ZeroKept.frame (h : ZeroKept d id t) (frame : FsdpDisk.Frame d d') :
    ZeroKept d' id t where
  single := h.single
  away now := frame.tracker ▸ h.away now
  writing now := (frame.shard _).trans (h.writing now)
  shard now := (frame.shard _).trans (h.shard now)
  writesMetadata now := (frame.metadata _).trans (h.writesMetadata now)
  metadata now := (frame.metadata _).trans (h.metadata now)

namespace Moved

/-- The done files of all shards have one name. -/
theorem names (m : Moved t memory d id d' stage) {step : Int} (h : d.NamesKept step) :
    d'.NamesKept step := by
  cases m with
  | marked names before found =>
    intro l there
    rw [FsdpDisk.doneDirs_setDone] at there
    split at there
    · next same =>
      cases there
      subst same
      rcases h names found with rfl | rfl
      · exact .inr rfl
      · exact .inr rfl
    · exact h l there
  | passed | refused | removed | waited | made | opened | wrote | openedMetadata | wroteMetadata
    | openedTracker | wroteTracker => exact h

theorem ne_saved (m : Moved t memory d id d' stage) : t.stage ≠ .saved := by
  cases m with
  | passed before | refused before | removed before _ | waited before _ | made before
    | opened before | wrote before | openedMetadata before | wroteMetadata before
    | openedTracker before | wroteTracker before | marked _ before _ =>
    rw [before]
    exact PersistStage.noConfusion

/-- Only the last step of a thread touches the done files. -/
theorem doneDirs (m : Moved t memory d id d' stage) :
    stage = .saved ∨ d'.doneDirs = d.doneDirs := by
  cases m with
  | marked => exact .inl rfl
  | passed | refused | removed | waited | made | opened | wrote | openedMetadata | wroteMetadata
    | openedTracker | wroteTracker => exact .inr rfl

/-- A thread of a shard other than 0 leaves alone the tracker file, the files of shard 0 and the
stages of shard 0. -/
theorem frame (m : Moved t memory d id d' stage) (other : t.rank ≠ 0)
    (shared : t.stage.ofZero = false) : FsdpDisk.Frame d d' ∧ stage.ofZero = false := by
  have names : ∀ step, d.NamesKept step → d'.NamesKept step := fun _ ↦ m.names
  cases m with
  | passed | refused | waited => exact ⟨.refl d, rfl⟩
  | opened before => exact ⟨FsdpDisk.frame_setShard other, rfl⟩
  | wrote before =>
    rw [if_neg other]
    exact ⟨FsdpDisk.frame_setShard other, rfl⟩
  | marked _ before found =>
    exact ⟨⟨rfl, fun _ ↦ rfl, fun _ ↦ rfl,
      fun single ↦ absurd (FsdpDisk.eq_of_single single t.rank 0) other,
      names⟩, rfl⟩
  | removed _ zero => exact absurd zero other
  | made before | openedMetadata before | wroteMetadata before | openedTracker before
    | wroteTracker before =>
    rw [before] at shared
    cases shared

/-- The thread of shard 0 goes on with what it has written. -/
theorem zero (m : Moved t memory d id d' stage) (zero : t.rank = 0) (h : ZeroKept d id t)
    (admitted : t.stage = .preparing → d.tracker ≠ some t.config) :
    ZeroKept d' id { t with stage } := by
  cases m with
  | passed | refused => exact ⟨h.single, nofun, nofun, nofun, nofun, nofun⟩
  | removed before _ => exact ⟨h.single, fun _ ↦ admitted before, nofun, nofun, nofun, nofun⟩
  | waited _ other => exact absurd zero other
  | made before =>
    exact ⟨h.single, fun _ ↦ h.away (by rw [before]; rfl), nofun, nofun, nofun, nofun⟩
  | opened before =>
    refine ⟨h.single, fun _ ↦ h.away (by rw [before]; rfl), fun _ ↦ ?_, nofun, nofun, nofun⟩
    rw [zero, FsdpDisk.shards_setShard]
    exact if_pos ⟨rfl, rfl⟩
  | wrote before =>
    rw [if_pos zero]
    refine ⟨h.single, fun _ ↦ h.away (by rw [before]; rfl), nofun, fun _ ↦ ?_, nofun, nofun⟩
    rw [zero, FsdpDisk.shards_setShard, h.writing before, FsdpDisk.written, if_pos rfl]
    exact if_pos ⟨rfl, rfl⟩
  | openedMetadata before =>
    refine ⟨h.single, fun _ ↦ h.away (by rw [before]; rfl), nofun, fun _ ↦ ?_, fun _ ↦ ?_, nofun⟩
    · exact FsdpDisk.shards_setMetadata.trans (h.shard (by rw [before]; rfl))
    · rw [FsdpDisk.metadata_setMetadata]
      exact if_pos rfl
  | wroteMetadata before =>
    refine ⟨h.single, fun _ ↦ h.away (by rw [before]; rfl), nofun, fun _ ↦ ?_, nofun, fun _ ↦ ?_⟩
    · exact FsdpDisk.shards_setMetadata.trans (h.shard (by rw [before]; rfl))
    · rw [FsdpDisk.metadata_setMetadata, h.writesMetadata before, FsdpDisk.written, if_pos rfl]
      exact if_pos rfl
  | openedTracker before =>
    have own := h.own (by rw [before]; rfl)
    exact ⟨h.single, nofun, nofun, fun _ ↦ own.1, nofun, fun _ ↦ own.2⟩
  | wroteTracker before =>
    have own := h.own (by rw [before]; rfl)
    exact ⟨h.single, nofun, nofun, fun _ ↦ own.1, nofun, fun _ ↦ own.2⟩
  | marked names before found =>
    have own := h.own (by rw [before]; rfl)
    exact ⟨h.single, nofun, nofun, fun _ ↦ own.1, nofun, fun _ ↦ own.2⟩

/-- What the tracker file names stays complete. -/
theorem named (m : Moved t memory d id d' stage) (h : d.Named)
    (shared : t.rank ≠ 0 → t.stage.ofZero = false) (zero : t.rank = 0 → ZeroKept d id t)
    (away : t.stage = .preparing ∧ t.rank = 0 ∨ t.stage = .opening ∧ t.rank ≠ 0 →
      d.tracker ≠ some t.config)
    (last : t.stage = .writesTracker → ∀ r, r ≠ 0 → (d.dirs t.config).shards r = .complete) :
    d'.Named := by
  have isZero : t.stage.ofZero = true → t.rank = 0 := by
    intro now
    by_contra other
    rw [shared other] at now
    contradiction
  cases m with
  | passed | refused | waited => exact h
  | removed before zero => exact h.setDir _ (away (.inl ⟨before, zero⟩))
  | made before =>
    exact h.setDir _ ((zero (isZero (by rw [before]; rfl))).away (by rw [before]; rfl))
  | opened before =>
    by_cases rank : t.rank = 0
    · exact h.setDir _ ((zero rank).away (by rw [before]; rfl))
    · exact h.setDir _ (away (.inr ⟨before, rank⟩))
  | wrote before => exact h.written
  | openedMetadata before =>
    exact h.setDir _ ((zero (isZero (by rw [before]; rfl))).away (by rw [before]; rfl))
  | wroteMetadata before =>
    exact h.setDir _ ((zero (isZero (by rw [before]; rfl))).away (by rw [before]; rfl))
  | openedTracker before => exact nofun
  | wroteTracker before =>
    have own := (zero (isZero (by rw [before]; rfl))).own (by rw [before]; rfl)
    rintro _ ⟨⟩
    exact FsdpDisk.complete_of_own own (last before)
  | marked names before found => exact h

end Moved

end PersistThread

/-! ### The calls -/

/-- The shards have not been submitted. -/
def CallStage.early : CallStage → Bool
  | .checking => true
  | .preparing => true
  | .submitting => true
  | _ => false

/-- The directory of the done files is that of the call. -/
def CallStage.counts : CallStage → Bool
  | .submitting => true
  | .waiting => true
  | .committing => true
  | _ => false

/-- The call is in `commit_checkpoint`. -/
def CallStage.commits : CallStage → Bool
  | .committing => true
  | .tracking => true
  | .cleaning => true
  | _ => false

theorem CallStage.not_commits_of_early {stage : CallStage} (early : stage.early = true) :
    stage.commits = false := by
  cases stage with
  | checking | preparing | submitting => rfl
  | waiting | committing | tracking | cleaning | ended => cases early

theorem CallStage.submitting_of_counts {stage : CallStage} (early : stage.early = true)
    (counts : stage.counts = true) : stage = .submitting := by
  cases stage with
  | submitting => rfl
  | checking | preparing => cases counts
  | waiting | committing | tracking | cleaning | ended => cases early

/-- What holds of a call, and of the storage while a call of the agent of rank 0 is not over. In a
job of one shard a done file means that the thread has saved the shard. -/
structure CallKept (node : Fin (n + 1) → Nat) (d : FsdpDisk n) (i : Nat) (c : FsdpCall n) :
    Prop where
  ranks : ∀ t ∈ c.threads, node t.rank = c.node
  nodup : (c.threads.map (·.rank)).Nodup
  steps : ∀ t ∈ c.threads, t.step = c.step
  shared : ∀ t ∈ c.threads, t.rank ≠ 0 → t.stage.ofZero = false
  early : c.stage.early = true → c.threads = []
  commits : c.stage.commits = true → c.node = node 0
  zero : c.node = node 0 → c.stage = .waiting →
    ∀ j (t : PersistThread n), c.threads[j]? = some t → t.rank = 0 → t.ZeroKept d (i, j)
  names : c.node = node 0 → c.stage.counts = true → d.NamesKept c.step
  submitting : c.node = node 0 → c.stage = .submitting → n = 0 →
    ∀ names, d.doneDirs c.step = some names → names = []
  marked : c.node = node 0 → c.stage = .waiting ∨ c.stage = .committing → n = 0 →
    ∀ names, d.doneDirs c.step = some names → names ≠ [] →
      (∀ t ∈ c.threads, t.stage = .saved) ∧ d.Own c.step
  tracking : c.stage = .tracking → n = 0 ∧ d.Own c.step

namespace CallKept

variable {node : Fin (n + 1) → Nat} {d d' : FsdpDisk n} {i : Nat} {c : FsdpCall n}

/-- A call that is over, or is not one of the agent of rank 0, does not mind the storage. -/
theorem idle (h : CallKept node d i c) (ended : c.node = node 0 → c.stage = .ended) :
    CallKept node d' i c := by
  refine ⟨h.ranks, h.nodup, h.steps, h.shared, h.early, h.commits, fun here now ↦ ?_,
    fun here now ↦ ?_, fun here now ↦ ?_, fun here now ↦ ?_, fun now ↦ ?_⟩
  · rw [ended here] at now
    cases now
  · rw [ended here] at now
    cases now
  · rw [ended here] at now
    cases now
  · rw [ended here] at now
    rcases now with now | now
    · cases now
    · cases now
  · have ended := ended (h.commits (by rw [now]; rfl))
    rw [now] at ended
    cases ended

/-- The call ends. -/
theorem ended (h : CallKept node d i c) : CallKept node d' i { c with stage := .ended } :=
  ⟨h.ranks, h.nodup, h.steps, h.shared, nofun, nofun, fun _ ↦ nofun, fun _ ↦ nofun,
    fun _ ↦ nofun, fun _ ↦ (Or.elim · nofun nofun), nofun⟩

theorem frame (h : CallKept node d i c) (frame : FsdpDisk.Frame d d') : CallKept node d' i c := by
  refine ⟨h.ranks, h.nodup, h.steps, h.shared, h.early, h.commits, fun here now j t at_j zero ↦ ?_,
    fun here now ↦ frame.names _ (h.names here now), fun here now single ↦ ?_,
    fun here now single names found some ↦ ?_, fun now ↦ ?_⟩
  · exact (h.zero here now j t at_j zero).frame frame
  · rw [frame.done single]
    exact h.submitting here now single
  · rw [frame.done single] at found
    obtain ⟨saved, own⟩ := h.marked here now single names found some
    exact ⟨saved, frame.own own⟩
  · exact ⟨(h.tracking now).1, frame.own (h.tracking now).2⟩

/-- The shards of a call have distinct ranks. -/
theorem unique (h : CallKept node d i c) {j k : Nat} {t u : PersistThread n}
    (at_j : c.threads[j]? = some t) (at_k : c.threads[k]? = some u) (same : t.rank = u.rank) :
    j = k := by
  have get_j : (c.threads.map (·.rank))[j]? = some t.rank := by rw [List.getElem?_map, at_j]; rfl
  have get_k : (c.threads.map (·.rank))[k]? = some u.rank := by rw [List.getElem?_map, at_k]; rfl
  have lt : j < (c.threads.map (·.rank)).length := (List.getElem?_eq_some_iff.mp get_j).1
  exact (List.getElem?_inj lt h.nodup).mp (get_j.trans (same ▸ get_k.symm))

/-- A thread of the call moves: that of shard 0 knows what it has written, the others keep the
frame, and in a job of one shard there is no other thread. -/
theorem setThread (h : CallKept node d i c) {j : Nat} {t : PersistThread n} {stage : PersistStage}
    (at_j : c.threads[j]? = some t) (waiting : c.stage = .waiting)
    (shared : t.rank ≠ 0 → stage.ofZero = false)
    (own : t.rank = 0 → PersistThread.ZeroKept d' (i, j) { t with stage })
    (frame : t.rank ≠ 0 → FsdpDisk.Frame d d')
    (names : d.NamesKept c.step → d'.NamesKept c.step)
    (marked : c.node = node 0 → n = 0 → ∀ names, d'.doneDirs c.step = some names → names ≠ [] →
      stage = .saved ∧ d'.Own c.step) :
    CallKept node d' i { c with threads := c.threads.set j { t with stage } } := by
  have mem := List.mem_of_getElem? at_j
  refine ⟨fun u hu ↦ ?_, ?_, fun u hu ↦ ?_, fun u hu ↦ ?_, fun early ↦ ?_, fun commits ↦ ?_,
    fun here _ k u at_k zero ↦ ?_, fun here counts ↦ names (h.names here counts),
    fun _ submitting ↦ ?_, fun here _ single names found some ↦ ?_,
    fun tracking ↦ ?_⟩
  · rcases List.mem_or_eq_of_mem_set hu with old | rfl
    · exact h.ranks u old
    · exact h.ranks t mem
  · have same : (c.threads.set j { t with stage }).map (·.rank) = c.threads.map (·.rank) := by
      have rank_j : (c.threads.map (·.rank))[j]? = some t.rank := by
        rw [List.getElem?_map, at_j]
        rfl
      rw [List.map_set]
      apply List.ext_getElem?
      intro k
      rw [List.getElem?_set]
      split
      · next eq => rw [if_pos (List.getElem?_eq_some_iff.mp rank_j).1, ← eq, rank_j]
      · rfl
    rw [same]
    exact h.nodup
  · rcases List.mem_or_eq_of_mem_set hu with old | rfl
    · exact h.steps u old
    · exact h.steps t mem
  · rcases List.mem_or_eq_of_mem_set hu with old | rfl
    · exact h.shared u old
    · exact shared
  · rw [show c.stage = .waiting from waiting] at early
    cases early
  · exact h.commits commits
  · rcases getElem?_set_cases at_k with ⟨rfl, rfl⟩ | ⟨other, at_k⟩
    · exact own zero
    · have rank : t.rank ≠ 0 := fun rank ↦ other (h.unique at_j at_k (rank.trans zero.symm))
      exact (h.zero here waiting k u at_k zero).frame (frame rank)
  · rw [waiting] at submitting
    cases submitting
  · obtain ⟨saved, written⟩ := marked here single names found some
    refine ⟨fun u hu ↦ ?_, written⟩
    obtain ⟨k, at_k⟩ := List.mem_iff_getElem?.mp hu
    rcases getElem?_set_cases at_k with ⟨rfl, rfl⟩ | ⟨other, at_k⟩
    · exact saved
    · exact absurd (h.unique at_j at_k (FsdpDisk.eq_of_single single _ _)) other
  · rw [waiting] at tracking
    cases tracking

end CallKept

namespace FsdpSavers

variable {node : Fin (n + 1) → Nat} {s t : FsdpSavers n}

/-- What every admitted run keeps. -/
structure Kept (node : Fin (n + 1) → Nat) (s : FsdpSavers n) : Prop where
  named : s.disk.Named
  single : ∀ (i j : Nat) (b c : FsdpCall n), s.calls[i]? = some b → s.calls[j]? = some c →
    b.node = node 0 → c.node = node 0 → b.stage ≠ .ended → c.stage ≠ .ended → i = j
  call : ∀ i c, s.calls[i]? = some c → CallKept node s.disk i c

/-- While a call of the agent of rank 0 is not over, no other one minds the storage. -/
theorem Kept.others (h : Kept node s) {i : Nat} {c : FsdpCall n} (at_i : s.calls[i]? = some c)
    (here : c.node = node 0) (live : c.stage ≠ .ended) (d : FsdpDisk n) {j : Nat}
    {b : FsdpCall n} (other : j ≠ i) (at_j : s.calls[j]? = some b) : CallKept node d j b := by
  apply (h.call j b at_j).idle
  intro there
  by_contra now
  exact other (h.single j i b c at_j at_i there here now live)

/-- A step of one call. -/
theorem Kept.setCall (h : Kept node s) {i : Nat} {c c' : FsdpCall n} {disk : FsdpDisk n}
    {memory : Fin (n + 1) → Int} {stopCommit : Bool}
    (at_i : s.calls[i]? = some c) (same : c'.node = c.node)
    (live : c'.stage ≠ .ended → c.stage ≠ .ended) (named : disk.Named)
    (own : CallKept node disk i c')
    (others : ∀ j b, j ≠ i → s.calls[j]? = some b → CallKept node disk j b) :
    Kept node ⟨memory, disk, s.calls.set i c', stopCommit⟩ := by
  refine ⟨named, fun j k a b at_j at_k ↦ ?_, fun j b at_j ↦ ?_⟩
  · rcases getElem?_set_cases at_j with ⟨rfl, rfl⟩ | ⟨_, old_j⟩
    · rcases getElem?_set_cases at_k with ⟨rfl, rfl⟩ | ⟨_, old_k⟩
      · exact fun _ _ _ _ ↦ rfl
      · rw [same]
        exact fun here there now now' ↦ h.single i k c b at_i old_k here there (live now) now'
    · rcases getElem?_set_cases at_k with ⟨rfl, rfl⟩ | ⟨_, old_k⟩
      · rw [same]
        exact fun here there now now' ↦ h.single j i a c old_j at_i here there now (live now')
      · exact h.single j k a b old_j old_k
  · rcases getElem?_set_cases at_j with ⟨rfl, rfl⟩ | ⟨ne, old⟩
    · exact own
    · exact others j b (Ne.symm ne) old

/-! ### One step -/

/-- The thread of a shard moves. -/
theorem Kept.thread (h : Kept node s) {i j : Nat} {c : FsdpCall n} {t : PersistThread n}
    (at_i : s.calls[i]? = some c) (at_j : c.threads[j]? = some t) (waiting : c.stage = .waiting)
    {disk : FsdpDisk n} {stage : PersistStage} (moved : t.Moved s.memory s.disk (i, j) disk stage)
    (away : t.stage = .preparing ∧ t.rank = 0 ∨ t.stage = .opening ∧ t.rank ≠ 0 →
      s.disk.tracker ≠ some t.config)
    (last : t.stage = .writesTracker →
      ∀ r, r ≠ 0 → (s.disk.dirs t.config).shards r = .complete) :
    Kept node { s.setCall i { c with threads := c.threads.set j { t with stage } } with disk } := by
  have kept := h.call i c at_i
  have mem := List.mem_of_getElem? at_j
  have live : c.stage ≠ .ended := by rw [waiting]; nofun
  have named := moved.named h.named (kept.shared t mem)
    (fun zero ↦ kept.zero ((zero ▸ kept.ranks t mem).symm) waiting j t at_j zero) away last
  by_cases zero : t.rank = 0
  · have here : c.node = node 0 := (zero ▸ kept.ranks t mem).symm
    have own := moved.zero zero (kept.zero here waiting j t at_j zero)
      (fun before ↦ away (.inl ⟨before, zero⟩))
    refine h.setCall at_i rfl id named
      (kept.setThread at_j waiting (absurd zero) (fun _ ↦ own) (absurd zero) moved.names ?_)
      (fun k b other at_k ↦ h.others at_i here live disk other at_k)
    intro _ single names found some
    rcases moved.doneDirs with rfl | same
    · have own := own.own rfl
      rw [show t.config = c.step from
        (kept.zero here waiting j t at_j zero).single single |>.trans (kept.steps t mem)] at own
      exact ⟨rfl, own⟩
    · rw [same] at found
      exact absurd ((kept.marked here (.inl waiting) single names found some).1 t mem)
        moved.ne_saved
  · obtain ⟨frame, shared⟩ := moved.frame zero (kept.shared t mem zero)
    exact h.setCall at_i rfl id named
      (kept.setThread at_j waiting (fun _ ↦ shared) (absurd · zero) (fun _ ↦ frame) moved.names
        fun _ single ↦ absurd (FsdpDisk.eq_of_single single _ _) zero)
      (fun k b _ at_k ↦ (h.call k b at_k).frame frame)

/-- A thread of a shard meets an exception. -/
theorem Kept.threadRaises (h : Kept node s) {i j : Nat} {c : FsdpCall n} {t : PersistThread n}
    (at_i : s.calls[i]? = some c) (at_j : c.threads[j]? = some t) (waiting : c.stage = .waiting)
    (active : ¬ (t.stage = .saved ∨ t.stage = .failed)) :
    Kept node (s.setCall i { c with threads := c.threads.set j { t with stage := .failed } }) := by
  have kept := h.call i c at_i
  have mem := List.mem_of_getElem? at_j
  refine h.setCall at_i rfl id h.named
    (kept.setThread at_j waiting (fun _ ↦ rfl) (fun zero ↦ ?_) (fun _ ↦ .refl s.disk) id ?_)
    (fun k b _ at_k ↦ h.call k b at_k)
  · have here : c.node = node 0 := (zero ▸ kept.ranks t mem).symm
    exact ⟨(kept.zero here waiting j t at_j zero).single, nofun, nofun, nofun, nofun, nofun⟩
  · intro here single names found some
    exact absurd (.inl ((kept.marked here (.inl waiting) single names found some).1 t mem)) active

/-- A call ends. -/
theorem Kept.endCall (h : Kept node s) {i : Nat} {c : FsdpCall n} (at_i : s.calls[i]? = some c) :
    Kept node (s.setStage i c .ended) :=
  h.setCall at_i rfl (absurd rfl) h.named (h.call i c at_i).ended
    (fun k b _ at_k ↦ h.call k b at_k)

/-- A call of the agent of rank 0 ends with a change of its done files. -/
theorem Kept.endCommit (h : Kept node s) {i : Nat} {c : FsdpCall n} (at_i : s.calls[i]? = some c)
    (commits : c.stage.commits = true) :
    Kept node { s.setStage i c .ended with disk := s.disk.setDone c.step none } := by
  have here := (h.call i c at_i).commits commits
  have live : c.stage ≠ .ended := by
    intro ended
    rw [ended] at commits
    cases commits
  exact h.setCall at_i rfl (absurd rfl) h.named (h.call i c at_i).ended
    (fun k b other at_k ↦ h.others at_i here live _ other at_k)

theorem Kept.giveUp (h : Kept node s) {i : Nat} {c : FsdpCall n} (at_i : s.calls[i]? = some c)
    (taken : s.giveUp i c = some t) : Kept node t := by
  unfold FsdpSavers.giveUp at taken
  split at taken
  · contradiction
  · contradiction
  · next stage =>
    cases taken
    exact h.endCommit at_i (by rw [stage]; rfl)
  · cases taken
    exact h.endCall at_i

/-- The shards are submitted; that of rank 0 in a job of one shard with the step that is saved. -/
theorem Kept.submit (h : Kept node s) {i : Nat} {c : FsdpCall n} (at_i : s.calls[i]? = some c)
    (stage : c.stage = .submitting) (admitted : n = 0 → s.memory 0 ≠ 0 → s.memory 0 = c.step) :
    Kept node (s.setCall i { c with stage := .waiting, threads := s.submitted node c }) := by
  have kept := h.call i c at_i
  have started : ∀ t ∈ s.submitted node c, ∃ r, node r = c.node ∧ s.memory r ≠ 0 ∧
      t = ⟨r, c.step, s.memory r, .starting⟩ := by
    intro t mem
    obtain ⟨r, ranks, rfl⟩ := List.mem_map.mp mem
    obtain ⟨here, state⟩ := of_decide_eq_true (List.mem_filter.mp ranks).2
    exact ⟨r, here, state, rfl⟩
  refine h.setCall at_i rfl (fun _ ↦ by rw [stage]; nofun) h.named ⟨fun t mem ↦ ?_, ?_,
    fun t mem ↦ ?_, fun t mem _ ↦ ?_, nofun, nofun, fun _ _ j t at_j zero ↦ ?_,
    fun here _ ↦ kept.names here (by rw [stage]; rfl), fun _ ↦ nofun,
    fun here _ single names found some ↦ ?_, nofun⟩ (fun k b _ at_k ↦ h.call k b at_k)
  · obtain ⟨r, here, _, rfl⟩ := started t mem
    exact here
  · rw [submitted, List.map_map]
    exact ((List.nodup_finRange (n + 1)).filter _).map fun _ _ eq ↦ eq
  · obtain ⟨r, _, _, rfl⟩ := started t mem
    rfl
  · obtain ⟨r, _, _, rfl⟩ := started t mem
    rfl
  · obtain ⟨r, _, state, rfl⟩ := started t (List.mem_of_getElem? at_j)
    cases zero
    exact ⟨fun single ↦ admitted single state, nofun, nofun, nofun, nofun, nofun⟩
  · exact absurd (kept.submitting here stage single names found) some

/-- A call goes on before the submission. -/
theorem Kept.earlyStage (h : Kept node s) {i : Nat} {c : FsdpCall n}
    (at_i : s.calls[i]? = some c) {stage : CallStage} (before : c.stage.early = true)
    (after : stage.early = true) (other : stage = .submitting → c.node ≠ node 0) :
    Kept node (s.setStage i c stage) := by
  have kept := h.call i c at_i
  have none := kept.early before
  have live : c.stage ≠ .ended := by
    intro ended
    rw [ended] at before
    cases before
  have now : ∀ {later : CallStage}, later.early = false → stage ≠ later := by
    rintro _ late rfl
    rw [after] at late
    cases late
  refine h.setCall at_i rfl (fun _ ↦ live) h.named
    ⟨kept.ranks, kept.nodup, kept.steps, kept.shared, fun _ ↦ none, fun commits ↦ ?_,
      fun _ waiting ↦ absurd waiting (now rfl), fun here counts ↦ ?_,
      fun here submitting ↦ absurd here (other submitting),
      fun _ waiting ↦ ?_, fun tracking ↦ absurd tracking (now rfl)⟩
    (fun k b _ at_k ↦ h.call k b at_k)
  · rw [show stage.commits = false from CallStage.not_commits_of_early after] at commits
    cases commits
  · rw [show stage = .submitting from CallStage.submitting_of_counts after counts] at other
    exact absurd here (other rfl)
  · rcases waiting with waiting | committing
    · exact absurd waiting (now rfl)
    · exact absurd committing (now rfl)

/-- The agent of rank 0 makes the directory of the done files anew. -/
theorem Kept.makeDone (h : Kept node s) {i : Nat} {c : FsdpCall n}
    (at_i : s.calls[i]? = some c) (stage : c.stage = .preparing) (here : c.node = node 0) :
    Kept node { s.setStage i c .submitting with disk := s.disk.setDone c.step (some []) } := by
  have kept := h.call i c at_i
  have live : c.stage ≠ .ended := by rw [stage]; nofun
  refine h.setCall at_i rfl (fun _ ↦ live) h.named
    ⟨kept.ranks, kept.nodup, kept.steps, kept.shared, fun _ ↦ kept.early (by rw [stage]; rfl),
      nofun, fun _ ↦ nofun, fun _ _ names found ↦ .inl ?_, fun _ _ _ names found ↦ ?_,
      fun _ ↦ (Or.elim · nofun nofun), nofun⟩
    (fun k b other at_k ↦ h.others at_i here live _ other at_k)
  · rw [FsdpDisk.doneDirs_setDone, if_pos rfl] at found
    exact (Option.some.inj found).symm
  · rw [FsdpDisk.doneDirs_setDone, if_pos rfl] at found
    exact (Option.some.inj found).symm

/-- All shards of the agent of rank 0 are saved. -/
theorem Kept.startCommit (h : Kept node s) {i : Nat} {c : FsdpCall n}
    (at_i : s.calls[i]? = some c) (stage : c.stage = .waiting) (here : c.node = node 0) :
    Kept node { s.setStage i c .committing with stopCommit := false } := by
  have kept := h.call i c at_i
  exact h.setCall at_i rfl (fun _ ↦ by rw [stage]; nofun) h.named
    ⟨kept.ranks, kept.nodup, kept.steps, kept.shared, nofun, fun _ ↦ here, fun _ ↦ nofun,
      fun here _ ↦ kept.names here (by rw [stage]; rfl), fun _ ↦ nofun,
      fun here _ ↦ kept.marked here (.inl stage), nofun⟩
    (fun k b _ at_k ↦ h.call k b at_k)

/-- The commit finds as many done files as there are shards. They all have one name, so there is
one shard. -/
theorem Kept.openTracker (h : Kept node s) {i : Nat} {c : FsdpCall n}
    (at_i : s.calls[i]? = some c) (stage : c.stage = .committing) {names : List Int}
    (found : s.disk.doneDirs c.step = some names) (count : names.length = n + 1) :
    Kept node { s.setStage i c .tracking with disk := { s.disk with tracker := none } } := by
  have kept := h.call i c at_i
  have here := kept.commits (by rw [stage]; rfl)
  have live : c.stage ≠ .ended := by rw [stage]; nofun
  have single : n = 0 ∧ names ≠ [] := by
    rcases kept.names here (by rw [stage]; rfl) names found with rfl | rfl
    · cases count
    · exact ⟨(Nat.succ.inj count).symm, nofun⟩
  exact h.setCall at_i rfl (fun _ ↦ live) nofun
    ⟨kept.ranks, kept.nodup, kept.steps, kept.shared, nofun, fun _ ↦ here, fun _ ↦ nofun,
      fun _ ↦ nofun, fun _ ↦ nofun, fun _ ↦ (Or.elim · nofun nofun), fun _ ↦ ⟨single.1,
        (kept.marked here (.inr stage) single.1 names found single.2).2⟩⟩
    (fun k b other at_k ↦ h.others at_i here live _ other at_k)

/-- The commit writes the tracker file. -/
theorem Kept.writeTracker (h : Kept node s) {i : Nat} {c : FsdpCall n}
    (at_i : s.calls[i]? = some c) (stage : c.stage = .tracking) :
    Kept node { s.setStage i c .cleaning with disk := { s.disk with tracker := some c.step } } := by
  have kept := h.call i c at_i
  have here := kept.commits (by rw [stage]; rfl)
  have live : c.stage ≠ .ended := by rw [stage]; nofun
  obtain ⟨single, own⟩ := kept.tracking stage
  refine h.setCall at_i rfl (fun _ ↦ live) ?_
    ⟨kept.ranks, kept.nodup, kept.steps, kept.shared, nofun, fun _ ↦ here, fun _ ↦ nofun,
      fun _ ↦ nofun, fun _ ↦ nofun, fun _ ↦ (Or.elim · nofun nofun), nofun⟩
    (fun k b other at_k ↦ h.others at_i here live _ other at_k)
  rintro _ ⟨⟩
  exact FsdpDisk.complete_of_single single own

theorem Kept.callStep (h : Kept node s) {i : Nat} {c : FsdpCall n} (at_i : s.calls[i]? = some c)
    (admitted : c.stage = .submitting → n = 0 → s.memory 0 ≠ 0 → s.memory 0 = c.step)
    (taken : s.callStep node i c = some t) : Kept node t := by
  unfold FsdpSavers.callStep at taken
  split at taken
  · next stage =>
    obtain ⟨_, taken⟩ := Option.ite_none_right_eq_some.mp taken
    cases taken
    exact h.earlyStage at_i (by rw [stage]; rfl) rfl nofun
  · next stage =>
    split at taken
    · next here =>
      cases taken
      exact h.makeDone at_i stage here
    · next other =>
      cases taken
      exact h.earlyStage at_i (by rw [stage]; rfl) rfl fun _ ↦ other
  · next stage =>
    cases taken
    exact h.submit at_i stage (admitted stage)
  · next stage =>
    split at taken
    · split at taken
      · next here =>
        cases taken
        exact h.startCommit at_i stage here
      · cases taken
        exact h.endCall at_i
    · obtain ⟨_, taken⟩ := Option.ite_none_right_eq_some.mp taken
      cases taken
      exact h.endCall at_i
  · next stage =>
    split at taken
    · cases taken
      exact h.endCall at_i
    · split at taken
      · cases taken
        exact h.endCall at_i
      · next names found =>
        obtain ⟨count, taken⟩ := Option.ite_none_right_eq_some.mp taken
        cases taken
        exact h.openTracker at_i stage found count
  · next stage =>
    cases taken
    exact h.writeTracker at_i stage
  · next stage =>
    cases taken
    exact h.endCommit at_i (by rw [stage]; rfl)
  · contradiction

/-- An agent stops. -/
theorem Kept.stop (h : Kept node s) (k : Nat) :
    Kept node { s with
      calls := s.calls.map fun c ↦ if c.node = k then { c with stage := .ended } else c } := by
  have before : ∀ (i : Nat) (b : FsdpCall n),
      (s.calls.map fun c ↦ if c.node = k then { c with stage := .ended } else c)[i]? = some b →
      ∃ c, s.calls[i]? = some c ∧ (b = c ∨ b = { c with stage := .ended }) := by
    intro i b at_i
    rw [List.getElem?_map] at at_i
    obtain ⟨c, at_c, rfl⟩ := Option.map_eq_some_iff.mp at_i
    refine ⟨c, at_c, ?_⟩
    split
    · exact .inr rfl
    · exact .inl rfl
  refine ⟨h.named, fun i j b c at_i at_j here there now now' ↦ ?_, fun i b at_i ↦ ?_⟩
  · obtain ⟨b', at_b, rfl | rfl⟩ := before i b at_i
    · obtain ⟨c', at_c, rfl | rfl⟩ := before j c at_j
      · exact h.single i j b c at_b at_c here there now now'
      · exact absurd rfl now'
    · exact absurd rfl now
  · obtain ⟨c, at_c, rfl | rfl⟩ := before i b at_i
    · exact h.call i b at_c
    · exact (h.call i c at_c).ended

/-- A new call; of the agent of rank 0 only when no other one is under way. -/
theorem Kept.save (h : Kept node s) {k : Nat} {step : Int}
    (admitted : k = node 0 → ∀ c ∈ s.calls, c.node = k → c.stage = .ended) :
    Kept node { s with calls := s.calls ++ [⟨k, step, .checking, []⟩] } := by
  have cases_ : ∀ (i : Nat) (b : FsdpCall n),
      (s.calls ++ [⟨k, step, .checking, []⟩])[i]? = some b →
      s.calls[i]? = some b ∨ i = s.calls.length ∧ b = ⟨k, step, .checking, []⟩ := by
    intro i b at_i
    rw [List.getElem?_append] at at_i
    split at at_i
    · exact .inl at_i
    · next late =>
      rw [List.getElem?_singleton] at at_i
      obtain ⟨first, same⟩ := Option.ite_none_right_eq_some.mp at_i
      exact .inr ⟨by omega, (Option.some.inj same).symm⟩
  refine ⟨h.named, fun i j b c at_i at_j here there now now' ↦ ?_, fun i b at_i ↦ ?_⟩
  · rcases cases_ i b at_i with old | ⟨rfl, rfl⟩
    · rcases cases_ j c at_j with old' | ⟨rfl, rfl⟩
      · exact h.single i j b c old old' here there now now'
      · exact absurd (admitted there b (List.mem_of_getElem? old) (here.trans there.symm)) now
    · rcases cases_ j c at_j with old' | ⟨rfl, rfl⟩
      · exact absurd (admitted here c (List.mem_of_getElem? old') (there.trans here.symm)) now'
      · rfl
  · rcases cases_ i b at_i with old | ⟨rfl, rfl⟩
    · exact h.call i b old
    · exact ⟨nofun, List.nodup_nil, nofun, nofun, fun _ ↦ rfl, nofun, fun _ ↦ nofun, fun _ ↦ nofun,
        fun _ ↦ nofun, fun _ ↦ (Or.elim · nofun nofun), nofun⟩

theorem kept_step (h : Kept node s) {a : FsdpSaverAct n} (admitted : s.Admitted node a)
    (taken : s.step node a = some t) : Kept node t := by
  cases a with
  | memory r step =>
    cases taken
    exact ⟨h.named, h.single, h.call⟩
  | save k step =>
    cases taken
    exact h.save admitted
  | call i givesUp =>
    obtain ⟨c, at_i, taken⟩ := Option.bind_eq_some_iff.mp taken
    cases givesUp with
    | true => exact h.giveUp at_i taken
    | false => exact h.callStep at_i (admitted c at_i) taken
  | thread i j raises =>
    obtain ⟨c, at_i, taken⟩ := Option.bind_eq_some_iff.mp taken
    obtain ⟨u, at_j, taken⟩ := Option.bind_eq_some_iff.mp taken
    obtain ⟨waiting, taken⟩ := Option.ite_none_right_eq_some.mp taken
    cases raises with
    | true =>
      obtain ⟨active, taken⟩ := Option.ite_none_left_eq_some.mp taken
      cases taken
      exact h.threadRaises at_i at_j waiting active
    | false =>
      obtain ⟨⟨disk, stage⟩, moved, rfl⟩ := Option.map_eq_some_iff.mp taken
      obtain ⟨away, last⟩ := admitted c at_i u at_j
      exact h.thread at_i at_j waiting (PersistThread.moved moved) away last
  | reset =>
    cases taken
    exact ⟨h.named, h.single, h.call⟩
  | stop k =>
    cases taken
    exact h.stop k

/-! ### The tracker file -/

theorem kept_init {disk : FsdpDisk n} (start : NamesComplete disk) : Kept node (init disk) :=
  ⟨start.named, nofun, nofun⟩

theorem Kept.namesComplete (h : Kept node s) : NamesComplete s.disk := by
  refine ⟨h.named, fun step loaded ↦ h.named step ?_⟩
  exact (Option.filter_eq_some_iff.mp loaded).1

instance (s : FsdpSavers n) : (a : FsdpSaverAct n) → Decidable (s.Admitted node a)
  | .save k _ =>
    inferInstanceAs (Decidable (k = node 0 → ∀ c ∈ s.calls, c.node = k → c.stage = .ended))
  | .call i false =>
    inferInstanceAs (Decidable (∀ c ∈ s.calls[i]?, c.stage = .submitting → n = 0 →
      s.memory 0 ≠ 0 → s.memory 0 = c.step))
  | .thread i j false =>
    inferInstanceAs (Decidable (∀ c ∈ s.calls[i]?, ∀ t ∈ c.threads[j]?,
      (t.stage = .preparing ∧ t.rank = 0 ∨ t.stage = .opening ∧ t.rank ≠ 0 →
        s.disk.tracker ≠ some t.config) ∧
      (t.stage = .writesTracker →
        ∀ r, r ≠ 0 → (s.disk.dirs t.config).shards r = .complete)))
  | .call _ true => .isTrue trivial
  | .thread _ _ true => .isTrue trivial
  | .memory _ _ => .isTrue trivial
  | .reset => .isTrue trivial
  | .stop _ => .isTrue trivial

/-- From a storage whose tracker file names a complete checkpoint, or none, it does so in all runs
in which shard 0 comes last. -/
theorem run_namesComplete {disk : FsdpDisk n} {acts : List (FsdpSaverAct n)}
    (start : NamesComplete disk) (run : Run (step node) (Admitted node) (init disk) acts s) :
    NamesComplete s.disk :=
  (run.invariant (kept_init start) fun _ _ _ kept ok taken ↦
    kept_step kept ok taken).namesComplete

/-- An empty storage. -/
def emptyDisk : FsdpDisk n := ⟨fun _ ↦ ⟨false, fun _ ↦ .absent, .absent⟩, none, fun _ ↦ none⟩

theorem namesComplete_emptyDisk : NamesComplete (emptyDisk : FsdpDisk n) := ⟨nofun, nofun⟩

instance (d : StepDir n) : Decidable d.Complete := inferInstanceAs (Decidable (_ ∧ _))

/-- Both ranks, each on a node of its own, have step 5 in the memory, and both agents are saving
it. -/
def bothSave : List (FsdpSaverAct 1) :=
  (List.finRange 2).map (fun r ↦ .memory r 5) ++
    [.save 0 5, .save 1 5, .call 0 false, .call 1 false, .call 0 false, .call 1 false,
      .call 0 false, .call 1 false]

/-- So many steps of the thread of the first shard of a call. -/
def threadSteps (call : Nat) (steps : Nat) : List (FsdpSaverAct 1) :=
  List.replicate steps (.thread call 0 false)

/-- Shard 1 is written before shard 0 gets to the tracker file. -/
theorem run_namesComplete_two : ∃ s : FsdpSavers 1,
    s.disk.resumeStep = some 5 ∧ NamesComplete s.disk := by
  obtain ⟨s, run, test⟩ : ∃ s, Run (step fun r : Fin 2 ↦ r) (Admitted fun r ↦ r) (init emptyDisk)
      (bothSave ++ threadSteps 0 3 ++ threadSteps 1 5 ++ threadSteps 0 6) s ∧
      decide (s.disk.resumeStep = some 5) = true :=
    run_of_guarded_any (by decide +kernel)
  exact ⟨s, of_decide_eq_true test, run_namesComplete namesComplete_emptyDisk run⟩

/-- Shard 0 is written, with the metadata and the tracker file, and the agent of the other node
stops before it has written shard 1: the step that is loaded is not complete. -/
theorem namesComplete_fails : ∃ s : FsdpSavers 1, ∃ acts,
    Run (step fun r ↦ r) anyStep (init emptyDisk) acts s ∧
      s.disk.tracker = some 5 ∧ s.disk.resumeStep = some 5 ∧ ¬ (s.disk.dirs 5).Complete ∧
      (∀ c ∈ s.calls, c.node = 1 → c.stage = .ended) := by
  obtain ⟨s, run, test⟩ : ∃ s, Run (step fun r : Fin 2 ↦ r) anyStep (init emptyDisk)
      (bothSave ++ threadSteps 0 9 ++ [.stop 1]) s ∧
      decide (s.disk.tracker = some 5 ∧ s.disk.resumeStep = some 5 ∧
        ¬ (s.disk.dirs 5).Complete ∧ (∀ c ∈ s.calls, c.node = 1 → c.stage = .ended)) = true :=
    run_of_any (by decide +kernel)
  exact ⟨s, _, run, of_decide_eq_true test⟩

end FsdpSavers

end ProbingBaselines.Dlrover
