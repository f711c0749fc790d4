import ProbingBaselines.Dlrover.CommonDirSaver

/-!
# The shared memory of a shard

What the metadata say about the segment of a shard when they are not marked as being written, over
every step of the trainer, and what a thread reads from such a memory.
-/

namespace ProbingBaselines.Dlrover.CommonDir

open Lib

/-- Metadata that are not marked as being written describe the segment, and while a trainer copies
they are marked. -/
structure ShardKept (s : Shard) : Prop where
  clean : ∀ c, s.config = some c → c.writing = false → ∀ name ∈ c.save.states,
    name ∈ c.states ∧ s.content.get? (c.segment, name) = some c.save
  copying : ∀ segment save rest, s.trainer = .copying segment save rest →
    (∀ c, s.config = some c → c.writing = true) ∧
    ∀ name ∈ save.states, name ∈ rest ∨ s.content.get? (segment, name) = some save

/-- The save a trainer is at. -/
def TrainerStage.save : TrainerStage → Option Save
  | .checking save => some save
  | .creating save => some save
  | .marking _ _ save => some save
  | .copying _ save _ => some save
  | _ => none

/-- The metadata and the trainer are of saves that were begun. -/
structure Known (saves : List Save) (s : Shard) : Prop where
  config : ∀ c, s.config = some c → c.save ∈ saves
  ownConfig : ∀ c, s.ownConfig = some c → c.save ∈ saves
  trainer : ∀ v, s.trainer.save = some v → v ∈ saves

section Shard

variable {s t : Shard}

theorem shardKept_init : ShardKept .init := ⟨nofun, nofun⟩

/-- What a step of the trainer can do to the metadata, the tensors and the save it is at. -/
inductive Moved (s : Shard) (act : TrainerAct) (begun : List Save) : Shard → Prop where
  | quiet {t : Shard} (config : t.config = s.config) (content : t.content = s.content)
      (ownConfig : ∀ c, t.ownConfig = some c → s.ownConfig = some c ∨ s.config = some c)
      (trainer : t.trainer = s.trainer ∨
        ∀ segment save rest, t.trainer ≠ .copying segment save rest)
      (save : ∀ v, t.trainer.save = some v → s.trainer.save = some v ∨ v ∈ begun) :
      Moved s act begun t
  | marked {segment : Nat} {first : Bool} {save : Save} {own : Config}
      (stage : s.trainer = .marking segment first save)
      (own_eq : s.markedConfig segment first save = some own) :
      Moved s act begun { s with
        ownConfig := some own
        config := some own
        trainer := .copying segment save save.states }
  | unmarked {segment : Nat} {first : Bool} {save : Save} {own : Config}
      (stage : s.trainer = .marking segment first save)
      (own_eq : s.markedConfig segment first save = some own) :
      Moved s act begun { s with ownConfig := some own, trainer := .idle }
  | copied {segment : Nat} {save : Save} {name : String} {rest : List String} (fits : Bool)
      (copies : act = .copy fits) (stage : s.trainer = .copying segment save (name :: rest)) :
      Moved s act begun { s with
        content := if fits then s.content.insert (segment, name) save
          else s.content.erase (segment, name)
        trainer := .copying segment save rest }
  | finished {segment : Nat} {save : Save} (old : List String)
      (stage : s.trainer = .copying segment save []) :
      Moved s act begun { s with
        ownConfig := some ⟨save, false, segment, save.states ++ old⟩
        config := some ⟨save, false, segment, save.states ++ old⟩
        trainer := .releasing }
  | unfinished {segment : Nat} {save : Save} (old : List String)
      (stage : s.trainer = .copying segment save []) :
      Moved s act begun { s with
        ownConfig := some ⟨save, false, segment, save.states ++ old⟩
        trainer := .idle }

/-- The trainer is at the save it was at or at none, and the metadata are the same. -/
theorem Moved.still {act : TrainerAct} {begun : List Save} (config : t.config = s.config)
    (ownConfig : t.ownConfig = s.ownConfig ∨ t.ownConfig = none) (content : t.content = s.content)
    (trainer : ∀ segment save rest, t.trainer ≠ .copying segment save rest)
    (save : ∀ v, t.trainer.save = some v → s.trainer.save = some v ∨ v ∈ begun) :
    Moved s act begun t := by
  refine .quiet config content ?_ (.inr trainer) save
  intro c hc
  rcases ownConfig with same | gone
  · exact .inl (same ▸ hc)
  · rw [gone] at hc
    cases hc

theorem moved_trainerStep {id : Nat} {act : TrainerAct} (taken : s.trainerStep id act = some t) :
    Moved s act (act.begun id) t := by
  cases act with
  | save rank step paths states blocking =>
    have own : ∀ v, some (Save.mk id rank step paths states) = some v →
        s.trainer.save = some v ∨ v ∈ [Save.mk id rank step paths states] := by
      intro v eq
      exact .inr (List.mem_singleton.mpr (Option.some.inj eq).symm)
    simp only [Shard.trainerStep] at taken
    split at taken
    · split at taken
      · split at taken
        · cases taken
        · cases taken
          exact .still rfl (.inl rfl) rfl nofun own
      · cases taken
        exact .still rfl (.inl rfl) rfl nofun own
    · cases taken
  | agree allReady =>
    simp only [Shard.trainerStep] at taken
    split at taken
    · next save stage =>
      have same : ∀ v, some save = some v → s.trainer.save = some v ∨
          v ∈ (TrainerAct.agree allReady).begun id := by
        intro v eq
        left
        rw [stage]
        exact eq
      split at taken
      · split at taken
        · split at taken
          · cases taken
            exact .still rfl (.inl rfl) rfl nofun same
          · cases taken
            exact .still rfl (.inl rfl) rfl nofun same
        · cases taken
      · split at taken
        · cases taken
          exact .still rfl (.inl rfl) rfl nofun nofun
        · cases taken
          exact .still rfl (.inl rfl) rfl nofun nofun
    · cases taken
  | create sameSize =>
    simp only [Shard.trainerStep] at taken
    split at taken
    · next save stage =>
      have same : ∀ v, some save = some v → s.trainer.save = some v ∨
          v ∈ (TrainerAct.create sameSize).begun id := by
        intro v eq
        left
        rw [stage]
        exact eq
      split at taken
      · cases taken
        exact .still rfl (.inl rfl) rfl nofun same
      · cases taken
        exact .still rfl (.inl rfl) rfl nofun same
    · cases taken
  | mark delivered =>
    simp only [Shard.trainerStep] at taken
    split at taken
    · next stage =>
      split at taken
      · cases taken
      · next own_eq =>
        split at taken
        · cases taken
          exact .marked stage own_eq
        · cases taken
          exact .unmarked stage own_eq
    · cases taken
  | copy fits =>
    simp only [Shard.trainerStep] at taken
    split at taken
    · next stage =>
      cases taken
      exact .copied fits rfl stage
    · cases taken
  | finish delivered =>
    simp only [Shard.trainerStep] at taken
    split at taken
    · next stage =>
      split at taken
      · cases taken
        exact .finished _ stage
      · cases taken
        exact .unfinished _ stage
    · cases taken
  | release =>
    simp only [Shard.trainerStep] at taken
    split at taken
    · cases taken
      exact .still rfl (.inl rfl) rfl nofun nofun
    · cases taken
  | raise =>
    simp only [Shard.trainerStep] at taken
    split at taken
    · cases taken
    · cases taken
      exact .still rfl (.inl rfl) rfl nofun nofun
  | crash =>
    cases taken
    exact .still rfl (.inr rfl) rfl nofun nofun
  | attach =>
    simp only [Shard.trainerStep] at taken
    split at taken
    · next c segment stage _ there _ =>
      split at taken
      · cases taken
      · cases taken
        exact .quiet rfl rfl (fun d hd ↦ .inr (there.trans hd)) (.inl rfl) fun v hv ↦ .inl hv
    · cases taken

/-- A step that leaves the metadata and the tensors, and begins no copy. -/
theorem ShardKept.quiet (h : ShardKept s) (config : t.config = s.config)
    (content : t.content = s.content)
    (trainer : t.trainer = s.trainer ∨
      ∀ segment save rest, t.trainer ≠ .copying segment save rest) : ShardKept t := by
  constructor
  · rw [config, content]
    exact h.clean
  · intro segment save rest copies
    rcases trainer with same | other
    · rw [config, content]
      exact h.copying segment save rest (same ▸ copies)
    · exact absurd copies (other segment save rest)

/-- Either the metadata of the state dict or those of the trainer, marked. -/
theorem markedConfig_spec {segment : Nat} {first : Bool} {save : Save} {own : Config}
    (h : s.markedConfig segment first save = some own) :
    own.writing = true ∧ (own.save = save ∨ ∃ c, s.ownConfig = some c ∧ own.save = c.save) := by
  unfold Shard.markedConfig at h
  split at h
  · cases h
    exact ⟨rfl, .inl rfl⟩
  · rcases Option.map_eq_some_iff.mp h with ⟨c, hc, rfl⟩
    exact ⟨rfl, .inr ⟨c, hc, rfl⟩⟩

/-- One state is copied. -/
theorem ShardKept.copy (h : ShardKept s) {segment : Nat} {save : Save} {name : String}
    {rest : List String} (copies : s.trainer = .copying segment save (name :: rest)) :
    ShardKept { s with
      content := s.content.insert (segment, name) save
      trainer := .copying segment save rest } := by
  rcases h.copying _ _ _ copies with ⟨marked, copied⟩
  constructor
  · intro c hc unmarked
    rw [marked c hc] at unmarked
    contradiction
  · intro segment' save' rest' copies'
    cases copies'
    refine ⟨marked, ?_⟩
    intro other hother
    show other ∈ rest ∨ (s.content.insert (segment, name) save).get? (segment, other) = some save
    rw [Dict.get?_insert]
    rcases copied other hother with left | done
    · rcases List.mem_cons.mp left with rfl | later
      · rw [if_pos rfl]
        exact .inr rfl
      · exact .inl later
    · split
      · exact .inr rfl
      · exact .inr done

/-- All states are copied and the mark is removed. -/
theorem ShardKept.finish (h : ShardKept s) {segment : Nat} {save : Save}
    (copies : s.trainer = .copying segment save []) (old : List String) :
    ShardKept { s with
      ownConfig := some ⟨save, false, segment, save.states ++ old⟩
      config := some ⟨save, false, segment, save.states ++ old⟩
      trainer := .releasing } := by
  refine ⟨?_, nofun⟩
  intro c hc _ name hname
  cases hc
  refine ⟨List.mem_append_left old hname, ?_⟩
  exact ((h.copying _ _ _ copies).2 name hname).resolve_left List.not_mem_nil

/-- A trainer whose copies fit keeps the metadata true. -/
theorem ShardKept.trainerStep (h : ShardKept s) {id : Nat} {act : TrainerAct}
    (fits : act ≠ .copy false) (taken : s.trainerStep id act = some t) : ShardKept t := by
  have moved := moved_trainerStep taken
  cases moved with
  | quiet config content _ trainer _ => exact h.quiet config content trainer
  | marked stage own_eq =>
    have marked := (markedConfig_spec own_eq).1
    constructor
    · intro c hc unmarked
      cases hc
      rw [marked] at unmarked
      contradiction
    · intro segment save rest copies
      cases copies
      refine ⟨?_, fun name hname ↦ .inl hname⟩
      intro c hc
      cases hc
      exact marked
  | unmarked stage own_eq => exact h.quiet rfl rfl (.inr nofun)
  | copied fit copies stage =>
    cases fit with
    | true => exact h.copy stage
    | false => exact absurd copies fits
  | finished old stage => exact h.finish stage old
  | unfinished old stage => exact h.quiet rfl rfl (.inr nofun)

/-- Only a copy changes the tensors. -/
theorem content_trainerStep {id : Nat} {act : TrainerAct} (other : ∀ fits, act ≠ .copy fits)
    (taken : s.trainerStep id act = some t) : t.content = s.content := by
  have moved := moved_trainerStep taken
  cases moved with
  | quiet _ content _ _ _ => exact content
  | copied fits copies _ => exact absurd copies (other fits)
  | marked _ _ | unmarked _ _ | finished _ _ | unfinished _ _ => rfl

theorem known_init : Known [] .init := ⟨nofun, nofun, nofun⟩

/-- The same metadata on the host, and no others at the trainer, which is at the same save. -/
theorem Known.same {saves : List Save} (h : Known saves s) (config : t.config = s.config)
    (ownConfig : t.ownConfig = s.ownConfig) (trainer : t.trainer = s.trainer) : Known saves t := by
  refine ⟨?_, ?_, ?_⟩
  · rw [config]
    exact h.config
  · rw [ownConfig]
    exact h.ownConfig
  · rw [trainer]
    exact h.trainer

theorem Known.mono {saves saves' : List Save} (h : Known saves s) (known : saves ⊆ saves') :
    Known saves' s :=
  ⟨fun c hc ↦ known (h.config c hc), fun c hc ↦ known (h.ownConfig c hc),
    fun v hv ↦ known (h.trainer v hv)⟩

/-- New metadata are those of the save the trainer is at, or of the metadata it has. -/
theorem Known.marked {saves : List Save} (h : Known saves s) {segment : Nat} {first : Bool}
    {save : Save} {own : Config} (stage : s.trainer = .marking segment first save)
    (own_eq : s.markedConfig segment first save = some own) : own.save ∈ saves := by
  rcases (markedConfig_spec own_eq).2 with eq | ⟨c, hc, eq⟩
  · rw [eq]
    exact h.trainer save (by rw [stage]; rfl)
  · rw [eq]
    exact h.ownConfig c hc

theorem Known.trainerStep {saves : List Save} (h : Known saves s) {id : Nat} {act : TrainerAct}
    (taken : s.trainerStep id act = some t) : Known (saves ++ act.begun id) t := by
  have more : saves ⊆ saves ++ act.begun id := List.subset_append_left _ _
  have moved := moved_trainerStep taken
  cases moved with
  | quiet config _ ownConfig _ save =>
    refine ⟨?_, ?_, ?_⟩
    · rw [config]
      exact (h.mono more).config
    · intro c hc
      rcases ownConfig c hc with own | host
      · exact more (h.ownConfig c own)
      · exact more (h.config c host)
    · intro v hv
      rcases save v hv with old | new
      · exact more (h.trainer v old)
      · exact List.mem_append_right saves new
  | marked stage own_eq =>
    have known := more (h.marked stage own_eq)
    refine ⟨?_, ?_, ?_⟩
    · rintro c ⟨⟩
      exact known
    · rintro c ⟨⟩
      exact known
    · rintro v ⟨⟩
      exact more (h.trainer _ (by rw [stage]; rfl))
  | unmarked stage own_eq =>
    refine ⟨(h.mono more).config, ?_, nofun⟩
    rintro c ⟨⟩
    exact more (h.marked stage own_eq)
  | copied fits copies stage =>
    refine ⟨(h.mono more).config, (h.mono more).ownConfig, ?_⟩
    rintro v ⟨⟩
    exact more (h.trainer _ (by rw [stage]; rfl))
  | finished old stage =>
    have known := more (h.trainer _ (by rw [stage]; rfl))
    refine ⟨?_, ?_, nofun⟩
    · rintro c ⟨⟩
      exact known
    · rintro c ⟨⟩
      exact known
  | unfinished old stage =>
    refine ⟨(h.mono more).config, ?_, nofun⟩
    rintro c ⟨⟩
    exact more (h.trainer _ (by rw [stage]; rfl))

/-- The agent opens the segment: the metadata, the tensors and the trainer are the same. -/
theorem load_keeps (s : Shard) (config : Save) :
    (s.load config).1.config = s.config ∧ (s.load config).1.ownConfig = s.ownConfig ∧
      (s.load config).1.content = s.content ∧ (s.load config).1.trainer = s.trainer := by
  unfold Shard.load Shard.reopen
  grind

/-- From a readable memory all states of the save are read, if any. -/
theorem ShardKept.load (h : ShardKept s) {config : Save} {step : Nat}
    (readable : s.Readable config step) {opened : Shard} {found : Option (Nat × List String)}
    (loads : s.load config = (opened, found)) :
    (found = none → config.states = []) ∧
    ∀ segment states, found = some (segment, states) → ∀ name ∈ config.states,
      name ∈ states ∧ s.content.get? (segment, name) = some config := by
  rcases readable with ⟨c, hc, unmarked, rfl, -, handle, paths⟩
  have hc : s.config = some c := hc
  unfold Shard.load at loads
  split at loads
  · next noPaths =>
    cases loads
    constructor
    · intro _
      rw [noPaths] at paths
      exact List.eq_nil_iff_forall_not_mem.mpr fun name hname ↦
        List.not_mem_nil (paths name hname)
    · intro segment states eq
      cases eq
  · next missing _ =>
    rw [hc] at missing
    contradiction
  · next d there _ =>
    rw [hc] at there
    cases there
    rw [unmarked, if_neg Bool.false_ne_true] at loads
    have reads : (if s.handle = none ∨ s.needCreation = true then s.reopen else s).handle =
        some c.segment := by
      rw [← handle]
      split <;> rfl
    simp only [reads] at loads
    cases loads
    constructor
    · intro eq
      cases eq
    · intro segment states eq name hname
      cases eq
      rcases h.clean c hc unmarked name hname with ⟨inTree, content⟩
      exact ⟨List.mem_filter.mpr ⟨inTree, decide_eq_true (paths name hname)⟩, content⟩

end Shard

end ProbingBaselines.Dlrover.CommonDir
