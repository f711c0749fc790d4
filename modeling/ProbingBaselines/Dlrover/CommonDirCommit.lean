import Mathlib.Data.List.Perm.Subperm
import ProbingBaselines.Dlrover.CommonDirMemory

/-!
# A committed checkpoint is complete

A done file stands for a state dict that was written, provided that the thread found the memory
readable. The tracker file is written for as many done files as there are shards.
-/

namespace ProbingBaselines.Dlrover.CommonDir

open Lib

/-- A trainer of the rank has saved a state dict of the step and every state of it is written. -/
def Complete (saves : List Save) (written : List (Save × String)) (rank step : Nat) : Prop :=
  ∃ v ∈ saves, v.rank = rank ∧ v.step = step ∧ ∀ name ∈ v.states, (v, name) ∈ written

section History

variable {saves saves' : List Save} {written written' : List (Save × String)}

/-- What has been written stays written. -/
theorem Complete.mono {rank step : Nat} (h : Complete saves written rank step)
    (known : saves ⊆ saves') (more : written ⊆ written') : Complete saves' written' rank step := by
  rcases h with ⟨v, hv, hrank, hstep, all⟩
  exact ⟨v, known hv, hrank, hstep, fun name hname ↦ more (all name hname)⟩

end History

/-! ## Threads, calls and the storage -/

/-- What a thread that has found the memory readable still has to write, and what it has written. -/
def ThreadKept (saves : List Save) (written : List (Save × String))
    (content : Dict (Nat × String) Save) (th : Thread) : Prop :=
  match th.stage with
  | .writing segment rest => ∃ v ∈ saves, v.rank = th.config.rank ∧ v.step = th.step ∧
      ∀ name ∈ v.states, (v, name) ∈ written ∨
        (name ∈ rest ∧ content.get? (segment, name) = some v)
  | .releasing => Complete saves written th.config.rank th.step
  | .marking => Complete saves written th.config.rank th.step
  | _ => True

/-- The shards a commit has counted are complete. -/
def CallKept (saves : List Save) (written : List (Save × String)) (call : Call) : Prop :=
  match call.stage with
  | .tracking sharding => ∀ r ∈ sharding.ranks, Complete saves written r call.step
  | _ => True

section History

variable {saves saves' : List Save} {written written' : List (Save × String)}

theorem ThreadKept.mono {content : Dict (Nat × String) Save} {th : Thread}
    (h : ThreadKept saves written content th) (known : saves ⊆ saves')
    (more : written ⊆ written') : ThreadKept saves' written' content th := by
  unfold ThreadKept at h ⊢
  split
  · next stage =>
    rw [stage] at h
    rcases h with ⟨v, hv, hrank, hstep, all⟩
    refine ⟨v, known hv, hrank, hstep, ?_⟩
    intro name hname
    rcases all name hname with done | left
    · exact .inl (more done)
    · exact .inr left
  · next stage =>
    rw [stage] at h
    exact h.mono known more
  · next stage =>
    rw [stage] at h
    exact h.mono known more
  · trivial

theorem CallKept.mono {call : Call} (h : CallKept saves written call) (known : saves ⊆ saves')
    (more : written ⊆ written') : CallKept saves' written' call := by
  unfold CallKept at h ⊢
  split
  · next stage =>
    rw [stage] at h
    exact fun r hr ↦ (h r hr).mono known more
  · trivial

/-- Done files are of different ranks, and each stands for a state dict that was written. -/
def DirsKept (saves : List Save) (written : List (Save × String))
    (doneDirs : Dict (String × Nat) (List Nat)) : Prop :=
  ∀ key ranks, (key, ranks) ∈ doneDirs.items →
    ranks.Nodup ∧ ∀ r ∈ ranks, Complete saves written r key.2

/-- A state is written from the segment. -/
theorem ThreadKept.write {content : Dict (Nat × String) Save} {th : Thread} {segment : Nat}
    {name : String} {rest : List String} (h : ThreadKept saves written content th)
    (stage : th.stage = .writing segment (name :: rest)) :
    ThreadKept saves (written ++ (content.get? (segment, name)).toList.map (·, name)) content
      { th with stage := .writing segment rest } := by
  unfold ThreadKept at h
  rw [stage] at h
  rcases h with ⟨v, hv, hrank, hstep, all⟩
  refine ⟨v, hv, hrank, hstep, ?_⟩
  intro other hother
  rcases all other hother with done | ⟨left, there⟩
  · exact .inl (List.mem_append_left _ done)
  · rcases List.mem_cons.mp left with rfl | later
    · left
      rw [there]
      exact List.mem_append_right _ (List.mem_singleton.mpr rfl)
    · exact .inr ⟨later, there⟩

/-- Nothing is left to be written. -/
theorem ThreadKept.complete {content : Dict (Nat × String) Save} {th : Thread} {segment : Nat}
    (h : ThreadKept saves written content th) (stage : th.stage = .writing segment []) :
    Complete saves written th.config.rank th.step := by
  unfold ThreadKept at h
  rw [stage] at h
  rcases h with ⟨v, hv, hrank, hstep, all⟩
  exact ⟨v, hv, hrank, hstep, fun name hname ↦
    (all name hname).resolve_right fun left ↦ List.not_mem_nil left.1⟩

end History

namespace Saver

variable {s t : Saver}

/-- What every admitted run keeps. -/
structure Kept (s : Saver) : Prop where
  shards : ∀ k, ShardKept (s.shards k)
  known : ∀ k, Known s.saves (s.shards k)
  threads : ∀ key th, (key, th) ∈ s.threads.items →
    ThreadKept s.saves s.written (s.shards (th.node, key.2)).content th
  calls : ∀ id call, (id, call) ∈ s.calls.items → CallKept s.saves s.written call
  dirs : DirsKept s.saves s.written s.doneDirs
  commits : ∀ c ∈ s.commits, ∀ r ∈ c.sharding.ranks, Complete s.saves s.written r c.step
  tracker : ∀ dir step, (dir, step) ∈ s.tracker.items → ∃ c ∈ s.commits, c.dir = dir ∧ c.step = step

theorem kept_init (nodes : Nat → Node) : Kept (init nodes) where
  shards _ := shardKept_init
  known _ := known_init
  threads _ _ h := absurd h List.not_mem_nil
  calls _ _ h := absurd h List.not_mem_nil
  dirs _ _ h := absurd h List.not_mem_nil
  commits _ h := absurd h List.not_mem_nil
  tracker _ _ h := absurd h List.not_mem_nil

theorem Kept.setNode (h : Kept s) (n : Nat) (node : Node) : Kept (s.setNode n node) :=
  ⟨h.shards, h.known, h.threads, h.calls, h.dirs, h.commits, h.tracker⟩

theorem Kept.dropCall (h : Kept s) (id : Nat) : Kept (s.dropCall id) where
  shards := h.shards
  known := h.known
  threads := h.threads
  calls id' call hcall := h.calls id' call (Dict.mem_items_erase.mp hcall).1
  dirs := h.dirs
  commits := h.commits
  tracker := h.tracker

theorem Kept.endCall (h : Kept s) (id : Nat) (call : Call) : Kept (s.endCall id call) :=
  (h.setNode _ _).dropCall id

/-- A call is at a stage at which the shards it has counted are complete. -/
theorem Kept.insertCall (h : Kept s) {id : Nat} {call : Call}
    (kept : CallKept s.saves s.written call) : Kept { s with calls := s.calls.insert id call } where
  shards := h.shards
  known := h.known
  threads := h.threads
  calls id' other hother := by
    rcases Dict.mem_items_insert.mp hother with ⟨-, rfl⟩ | ⟨-, old⟩
    · exact kept
    · exact h.calls id' other old
  dirs := h.dirs
  commits := h.commits
  tracker := h.tracker

theorem Kept.insertThread (h : Kept s) {key : Nat × Nat} {th : Thread}
    (kept : ThreadKept s.saves s.written (s.shards (th.node, key.2)).content th) :
    Kept { s with threads := s.threads.insert key th } where
  shards := h.shards
  known := h.known
  threads key' other hother := by
    rcases Dict.mem_items_insert.mp hother with ⟨rfl, rfl⟩ | ⟨-, old⟩
    · exact kept
    · exact h.threads key' other old
  calls := h.calls
  dirs := h.dirs
  commits := h.commits
  tracker := h.tracker

/-- A thread goes on to a stage at which it has nothing to show. -/
theorem Kept.moveThread (h : Kept s) {key : Nat × Nat} {th : Thread} {stage : ThreadStage}
    (free : ∀ saves written content, ThreadKept saves written content { th with stage := stage }) :
    Kept (s.setThread key th stage) :=
  h.insertThread (free _ _ _)

/-- The shards change and the threads that persist them do not see it. -/
theorem Kept.setShards (h : Kept s) {shards : Nat × Nat → Shard} (kept : ∀ k, ShardKept (shards k))
    (known : ∀ k, Known s.saves (shards k))
    (unseen : ∀ key th, (key, th) ∈ s.threads.items →
      (shards (th.node, key.2)).content = (s.shards (th.node, key.2)).content ∨
        th.stage.isWriting = false) :
    Kept { s with shards := shards } where
  shards := kept
  known := known
  threads key th hth := by
    have old := h.threads key th hth
    show ThreadKept s.saves s.written (shards (th.node, key.2)).content th
    rcases unseen key th hth with same | reading
    · rw [same]
      exact old
    · unfold ThreadKept at old ⊢
      split
      · next stage =>
        rw [stage] at reading
        contradiction
      · next stage =>
        rw [stage] at old
        exact old
      · next stage =>
        rw [stage] at old
        exact old
      · trivial
  calls := h.calls
  dirs := h.dirs
  commits := h.commits
  tracker := h.tracker

/-- One shard changes: it keeps its tensors, or no thread persists it. -/
theorem Kept.setShard (h : Kept s) {k : Nat × Nat} {shard : Shard} (kept : ShardKept shard)
    (known : Known s.saves shard)
    (unseen : shard.content = (s.shards k).content ∨
      ∀ e ∈ s.threads.items, (e.2.node, e.1.2) = k → e.2.stage.isWriting = false) :
    Kept (s.setShard k shard) := by
  apply h.setShards
  · exact (Function.forall_update_iff s.shards fun _ ↦ ShardKept).mpr ⟨kept, fun k' _ ↦ h.shards k'⟩
  · exact (Function.forall_update_iff s.shards fun _ ↦ Known s.saves).mpr
      ⟨known, fun k' _ ↦ h.known k'⟩
  · intro key th hth
    by_cases eq : (th.node, key.2) = k
    · rcases unseen with same | alone
      · left
        rw [eq, Function.update_self, same]
      · exact .inr (alone (key, th) hth eq)
    · rw [Function.update_of_ne eq]
      exact .inl rfl

theorem Kept.setDirs (h : Kept s) {doneDirs : Dict (String × Nat) (List Nat)}
    (dirs : DirsKept s.saves s.written doneDirs) : Kept { s with doneDirs := doneDirs } :=
  ⟨h.shards, h.known, h.threads, h.calls, dirs, h.commits, h.tracker⟩

theorem Kept.eraseDir (h : Kept s) (key : String × Nat) :
    Kept { s with doneDirs := s.doneDirs.erase key } :=
  h.setDirs fun key' ranks mem ↦ h.dirs key' ranks (Dict.mem_items_erase.mp mem).1

/-- The history grows. -/
theorem Kept.grow (h : Kept s) (begun : List Save) (more : List (Save × String)) :
    Kept { s with saves := s.saves ++ begun, written := s.written ++ more } :=
  have known : s.saves ⊆ s.saves ++ begun := List.subset_append_left _ _
  have more : s.written ⊆ s.written ++ more := List.subset_append_left _ _
  { shards := h.shards
    known := fun k ↦ (h.known k).mono known
    threads := fun key th hth ↦ (h.threads key th hth).mono known more
    calls := fun id call hcall ↦ (h.calls id call hcall).mono known more
    dirs := fun key ranks mem ↦
      ⟨(h.dirs key ranks mem).1, fun r hr ↦ ((h.dirs key ranks mem).2 r hr).mono known more⟩
    commits := fun c hc r hr ↦ (h.commits c hc r hr).mono known more
    tracker := h.tracker }

/-- A state is written. -/
theorem Kept.write (h : Kept s) (more : List (Save × String)) :
    Kept { s with written := s.written ++ more } := by
  have grown := h.grow [] more
  rwa [List.append_nil] at grown

/-! ## One step -/

/-- The lock of a shard changes. -/
theorem Kept.setLocked (h : Kept s) (k : Nat × Nat) (locked : Bool) :
    Kept (s.setShard k { s.shards k with locked := locked }) :=
  h.setShard ((h.shards k).quiet rfl rfl (.inl rfl)) ((h.known k).same rfl rfl rfl) (.inl rfl)

/-- A thread goes into `persist_to_storage`. -/
theorem Kept.loaded (h : Kept s) {key : Nat × Nat} {th : Thread}
    (readable : (s.shards (th.node, key.2)).Readable th.config th.step) {opened : Shard}
    {found : Option (Nat × List String)}
    (loads : (s.shards (th.node, key.2)).load th.config = (opened, found)) :
    Kept ((s.setShard (th.node, key.2) opened).setThread key th
      (match found with
        | none => .releasing
        | some (segment, states) => .writing segment states)) := by
  have keeps := load_keeps (s.shards (th.node, key.2)) th.config
  rw [loads] at keeps
  rcases keeps with ⟨config, ownConfig, content, trainer⟩
  have opened := h.setShard ((h.shards (th.node, key.2)).quiet config content (.inl trainer))
    ((h.known _).same config ownConfig trainer) (.inl content)
  rcases (h.shards (th.node, key.2)).load readable loads with ⟨empty, all⟩
  rcases readable with ⟨c, hc, -, same, hstep, -, -⟩
  have known : th.config ∈ s.saves := same ▸ (h.known _).config c hc
  apply opened.insertThread
  cases found with
  | none =>
    refine ⟨th.config, known, rfl, hstep, ?_⟩
    rw [empty rfl]
    exact nofun
  | some read =>
    rcases read with ⟨segment, states⟩
    refine ⟨th.config, known, rfl, hstep, ?_⟩
    intro name hname
    right
    show name ∈ states ∧ (Function.update s.shards (th.node, key.2) _ (th.node, key.2)).content.get?
      (segment, name) = some th.config
    rw [Function.update_self, content]
    exact all segment states rfl name hname

/-- A thread that has written its shard writes its done file. -/
theorem Kept.markDone (h : Kept s) {dir : String} {rank step : Nat} {ranks : List Nat}
    (mem : ((dir, step), ranks) ∈ s.doneDirs.items)
    (complete : Complete s.saves s.written rank step) :
    Kept { s with doneDirs := s.doneDirs.insert (dir, step) (ranks.insert rank) } := by
  apply h.setDirs
  intro key others hothers
  rcases Dict.mem_items_insert.mp hothers with ⟨rfl, rfl⟩ | ⟨-, old⟩
  · refine ⟨(h.dirs _ _ mem).1.insert, ?_⟩
    intro r hr
    rcases List.mem_insert_iff.mp hr with rfl | old
    · exact complete
    · exact (h.dirs _ _ mem).2 r old
  · exact h.dirs key others old

theorem Kept.threadStep (h : Kept s) {key : Nat × Nat} {th : Thread} {raises : Bool}
    (mem : (key, th) ∈ s.threads.items)
    (readable : th.stage.isLoading = true → raises = false →
      (s.shards (th.node, key.2)).Readable th.config th.step)
    (taken : s.threadStep key th raises = some t) : Kept t := by
  have kept := h.threads key th mem
  have failed : Kept (s.setThread key th (.final false)) := h.moveThread fun _ _ _ ↦ trivial
  cases stage : th.stage with
  | starting =>
    simp only [Saver.threadStep, stage] at taken
    split at taken
    · cases taken
      exact failed
    · cases taken
      refine Kept.moveThread (h.setShard ?_ ?_ (.inl ?_)) fun _ _ _ ↦ trivial
      · split
        · exact (h.shards _).quiet rfl rfl (.inl rfl)
        · exact h.shards _
      · split
        · exact (h.known _).same rfl rfl rfl
        · exact h.known _
      · split <;> rfl
  | acquiring =>
    simp only [Saver.threadStep, stage] at taken
    split at taken
    · cases taken
    · cases taken
      exact (h.setLocked _ true).moveThread fun _ _ _ ↦ trivial
  | checking =>
    simp only [Saver.threadStep, stage] at taken
    split at taken
    · cases taken
      exact failed
    · split at taken
      · cases taken
        exact h.moveThread fun _ _ _ ↦ trivial
      · cases taken
        exact (h.setLocked _ false).moveThread fun _ _ _ ↦ trivial
  | loading =>
    simp only [Saver.threadStep, stage] at taken
    rw [stage] at readable
    cases raises with
    | true =>
      cases taken
      exact failed
    | false =>
      rw [if_neg Bool.false_ne_true] at taken
      split at taken
      · next loads =>
        cases taken
        exact h.loaded (readable rfl rfl) loads
      · next loads =>
        cases taken
        exact h.loaded (readable rfl rfl) loads
  | writing segment rest =>
    cases rest with
    | nil =>
      simp only [Saver.threadStep, stage] at taken
      cases taken
      exact h.insertThread (kept.complete stage)
    | cons name rest =>
      simp only [Saver.threadStep, stage] at taken
      split at taken
      · cases taken
        exact failed
      · cases taken
        exact (h.write _).insertThread (kept.write stage)
  | releasing =>
    simp only [Saver.threadStep, stage] at taken
    unfold ThreadKept at kept
    rw [stage] at kept
    cases taken
    exact (h.setLocked _ false).insertThread kept
  | marking =>
    simp only [Saver.threadStep, stage] at taken
    unfold ThreadKept at kept
    rw [stage] at kept
    split at taken
    · next ranks there =>
      cases taken
      exact (h.markDone (Dict.get?_eq_some_iff.mp there) kept).moveThread fun _ _ _ ↦ trivial
    · cases taken
      exact failed
  | final saved =>
    simp only [Saver.threadStep, stage] at taken
    cases taken
    exact (h.setLocked _ false).moveThread fun _ _ _ ↦ trivial
  | ended saved =>
    simp only [Saver.threadStep, stage] at taken
    cases taken

/-- The next shard is submitted, or all have been. -/
theorem Kept.submit (h : Kept s) (id : Nat) (call : Call) (next : Nat) :
    Kept (s.submit id call next) := by
  unfold Saver.submit
  split
  · split
    · split
      · exact h.insertCall trivial
      · refine Kept.insertCall (Kept.insertThread h ?_) trivial
        trivial
    · exact h.insertCall trivial
  · exact h.insertCall trivial

theorem Kept.collect (h : Kept s) (id : Nat) (call : Call) (results : List Bool) :
    Kept (s.collect id call results) := by
  unfold Saver.collect
  simp only
  split
  · split
    · exact (h.setNode _ _).insertCall trivial
    · exact (h.setNode _ _).endCall id call
  · exact h.endCall id call

/-- As many done files as shards, all of shards: every shard has one. -/
theorem Kept.commit (h : Kept s) {id : Nat} {call : Call} (admitted : s.CountAdmitted call) :
    Kept (s.commit id call) := by
  unfold Saver.commit
  split
  · exact h.endCall id call
  · next going =>
    split
    · exact h.dropCall id
    · next ranks there =>
      split
      · next counted =>
        rcases h.dirs _ ranks (Dict.get?_eq_some_iff.mp there) with ⟨nodup, complete⟩
        have known := admitted (Bool.eq_false_iff.mpr going) ranks there counted
        have perm := (nodup.subperm known).perm_of_length_le (Nat.le_of_eq counted.symm)
        apply h.insertCall
        intro r hr
        exact complete r (perm.mem_iff.mpr hr)
      · exact h

theorem Kept.track (h : Kept s) {call : Call} {sharding : Sharding}
    (kept : CallKept s.saves s.written call) (stage : call.stage = .tracking sharding)
    (dir : String) : Kept { s with
      tracker := s.tracker.insert dir call.step
      commits := s.commits ++ [Commit.mk dir call.step sharding] } where
  shards := h.shards
  known := h.known
  threads := h.threads
  calls := h.calls
  dirs := h.dirs
  commits c hc := by
    rcases List.mem_append.mp hc with old | new
    · exact h.commits c old
    · cases List.eq_of_mem_singleton new
      unfold CallKept at kept
      rw [stage] at kept
      exact kept
  tracker dir' step mem := by
    rcases Dict.mem_items_insert.mp mem with ⟨rfl, rfl⟩ | ⟨-, old⟩
    · exact ⟨_, List.mem_append_right _ (List.mem_singleton.mpr rfl), rfl, rfl⟩
    · rcases h.tracker dir' step old with ⟨c, hc, same⟩
      exact ⟨c, List.mem_append_left _ hc, same⟩

theorem Kept.callStep (h : Kept s) {id : Nat} {call : Call} {act : CallAct}
    (mem : (id, call) ∈ s.calls.items)
    (admitted : act = .commit → call.stage.isCommitting = true → s.CountAdmitted call)
    (taken : s.callStep id call act = some t) : Kept t := by
  have kept := h.calls id call mem
  unfold Saver.callStep at taken
  simp only at taken
  split at taken
  · split at taken
    · cases taken
      exact (h.setNode _ _).insertCall trivial
    · cases taken
  · split at taken
    · cases taken
    · cases taken
      exact h.dropCall id
  · cases taken
    refine Kept.insertCall (h.setDirs ?_) trivial
    split
    · intro key ranks there
      rcases Dict.mem_items_insert.mp there with ⟨-, rfl⟩ | ⟨-, old⟩
      · exact ⟨List.nodup_nil, nofun⟩
      · exact h.dirs key ranks old
    · exact h.dirs
  · cases taken
    exact h.submit id call _
  · split at taken
    · cases taken
      exact h.dropCall id
    · rcases Option.map_eq_some_iff.mp taken with ⟨results, -, rfl⟩
      exact h.collect id call results
  · next stage =>
    cases taken
    exact h.commit (admitted rfl (by rw [stage]; rfl))
  · cases taken
    exact (h.eraseDir _).endCall id call
  · next stage =>
    split at taken
    · cases taken
      exact (h.track kept stage _).insertCall trivial
    · cases taken
      exact h.dropCall id
  · cases taken
    exact (h.eraseDir _).endCall id call
  · cases taken

/-- One step of a trainer. -/
theorem Kept.trainer (h : Kept s) {k : Nat × Nat} {act : TrainerAct} {shard : Shard} {id : Nat}
    (admitted : s.CopyAdmitted k act) (taken : (s.shards k).trainerStep id act = some shard) :
    Kept { s.setShard k shard with saves := s.saves ++ act.begun id } := by
  have grown : Kept { s with saves := s.saves ++ act.begun id } := by
    have more := h.grow (act.begun id) []
    rwa [List.append_nil] at more
  have fits : act ≠ .copy false := by
    rintro rfl
    exact Bool.false_ne_true admitted.1
  apply grown.setShard ((h.shards k).trainerStep fits taken) ((h.known k).trainerStep taken)
  by_cases copies : ∃ fits, act = .copy fits
  · rcases copies with ⟨fits, rfl⟩
    exact .inr admitted.2
  · exact .inl (content_trainerStep (fun fits eq ↦ copies ⟨fits, eq⟩) taken)

theorem Kept.start (h : Kept s) (node step : Nat) : Kept (s.start node step) := by
  have started : Kept { s with calls := s.calls.insert s.nextCall ⟨node, "", step, .checking⟩ } :=
    h.insertCall trivial
  exact ⟨started.shards, started.known, started.threads, started.calls, started.dirs,
    started.commits, started.tracker⟩

theorem Kept.saveShmToStorage (h : Kept s) (node : Nat) (synced : Option Bool) :
    Kept (s.saveShmToStorage node synced) := by
  unfold Saver.saveShmToStorage
  simp only
  split
  · exact h
  · split
    · exact h
    · split
      · exact h
      · split
        · exact h.setNode _ _
        · split
          · exact h
          · split
            · exact h.start node _
            · exact h

theorem Kept.reset (h : Kept s) (node : Nat) : Kept (s.reset node) := by
  apply (h.setNode node { s.nodes node with stopCommit := true }).setShards
  · intro k
    split
    · exact (h.shards k).quiet rfl rfl (.inl rfl)
    · exact h.shards k
  · intro k
    split
    · exact (h.known k).same rfl rfl rfl
    · exact h.known k
  · intro key th _
    left
    split <;> rfl

theorem kept_step (h : Kept s) {a : SaverAct} (admitted : s.Admitted a)
    (taken : s.step a = some t) : Kept t := by
  cases a with
  | trainer k act =>
    rcases Option.map_eq_some_iff.mp taken with ⟨shard, moved, rfl⟩
    exact h.trainer admitted moved
  | save node step =>
    cases taken
    exact h.start node step
  | breakpoint node synced =>
    cases taken
    exact h.saveShmToStorage node synced
  | call id act =>
    rcases Option.bind_eq_some_iff.mp taken with ⟨call, found, moved⟩
    exact h.callStep (Dict.get?_eq_some_iff.mp found) (fun eq ↦ admitted eq call found) moved
  | thread key raises =>
    rcases Option.bind_eq_some_iff.mp taken with ⟨th, found, moved⟩
    exact h.threadStep (Dict.get?_eq_some_iff.mp found) (admitted th found) moved
  | updateShard node sharding =>
    cases taken
    exact h.setNode _ _
  | register node checkpointDir rank =>
    cases taken
    exact h.setNode _ _
  | reset node =>
    cases taken
    exact h.reset node

/-- Over every run whose threads find the memory readable, whose copies fit and are undisturbed and
whose commits count done files of their shards: a tracker file names a step that was committed, and
for every commit the state dicts of all shards have been written. -/
theorem commit_complete {nodes : Nat → Node} {acts : List SaverAct}
    (run : Run step Admitted (init nodes) acts s) :
    (∀ dir step, (dir, step) ∈ s.tracker.items → ∃ c ∈ s.commits, c.dir = dir ∧ c.step = step) ∧
    ∀ c ∈ s.commits, ∀ r ∈ c.sharding.ranks, Complete s.saves s.written r c.step := by
  have h : Kept s := by
    apply run.invariant (P := Kept) (kept_init nodes)
    intro t u a h admitted taken
    exact kept_step h admitted taken
  exact ⟨h.tracker, h.commits⟩

/-- A node whose one shard is that of its own number, in a training of the given ranks. -/
def nodeOf (sharding : Sharding) (n : Nat) : Node := ⟨1, n, "ckpt", sharding, false, 0, false⟩

/-- The trainer of a node saves one state, from the making of the metadata on. -/
def copyModel : List TrainerAct := [.mark true, .copy true, .finish true, .release]

/-- The first save of the trainer of a node. -/
def saveModel (n step : Nat) : List SaverAct :=
  (.save n step ["model"] ["model"] false :: .agree true :: .create true :: copyModel).map
    (SaverAct.trainer (n, 0))

/-- A call up to the end of its thread, which takes the given number of steps. -/
def persist (call steps : Nat) : List SaverAct :=
  [CallAct.check, .makeDir, .submit, .submit].map (.call call) ++
    List.replicate steps (.thread (call, 0) false) ++ [.call call (.collect false)]

/-- Two nodes save and persist a step, and the one of rank 0 commits it. -/
theorem commit_complete_two :
    ∃ acts, ∃ s : Saver, Run step Admitted (init (nodeOf ⟨[0, 1], by decide⟩)) acts s ∧
      (s.commits.map fun c ↦ (c.step, c.sharding.ranks)) = [(1, [0, 1])] ∧
      ∀ c ∈ s.commits, ∀ r ∈ c.sharding.ranks, Complete s.saves s.written r c.step := by
  have eval : ((saveModel 0 1 ++ saveModel 1 1 ++ [.save 0 1, .save 1 1] ++ persist 0 9 ++
      persist 1 9 ++ [CallAct.commit, .track true, .clean].map (.call 0) : List SaverAct).foldlM
        (fun s a ↦ if Admitted s a then step s a else none)
        (init (nodeOf ⟨[0, 1], by decide⟩))).map (fun s ↦ decide (
          (s.commits.map fun c ↦ (c.step, c.sharding.ranks)) = [(1, [0, 1])])) = some true := by
    decide +kernel
  rcases Option.map_eq_some_iff.mp eval with ⟨s, hs, holds⟩
  have run := run_of_guarded hs
  exact ⟨_, s, run, of_decide_eq_true holds, (commit_complete run).2⟩

/-- The trainer crashes when it has marked the memory for step 2, and the step before is saved at
the breakpoint: the thread writes nothing, its done file is counted, and step 1 is committed. -/
theorem commit_incomplete :
    ∃ acts, ∃ s : Saver, Run step anyStep (init (nodeOf ⟨[0], by decide⟩)) acts s ∧
      ∃ c ∈ s.commits, ∃ r ∈ c.sharding.ranks, ¬ Complete s.saves s.written r c.step := by
  have eval : ((saveModel 0 1 ++ ([.save 0 2 ["model"] ["model"] false, .agree true, .mark true,
      .crash] : List TrainerAct).map (.trainer (0, 0)) ++ [.breakpoint 0 (some true)] ++
      persist 0 7 ++ [CallAct.commit, .track true].map (.call 0) : List SaverAct).foldlM step
        (init (nodeOf ⟨[0], by decide⟩))).map (fun s ↦ decide (
          s.written = [] ∧ (∀ v ∈ s.saves, v.states = ["model"]) ∧
          ∃ c ∈ s.commits, 0 ∈ c.sharding.ranks)) = some true := by
    decide +kernel
  rcases Option.map_eq_some_iff.mp eval with ⟨s, hs, holds⟩
  rcases of_decide_eq_true holds with ⟨nothing, states, c, hc, hr⟩
  refine ⟨_, s, run_of_foldlM hs, c, hc, 0, hr, ?_⟩
  rintro ⟨v, hv, -, -, all⟩
  have written := all "model" (by rw [states v hv]; exact List.mem_singleton.mpr rfl)
  rw [nothing] at written
  exact List.not_mem_nil written

end Saver

end ProbingBaselines.Dlrover.CommonDir
