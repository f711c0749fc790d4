import ProbingBaselines.Lib.Run
import ProbingBaselines.Dlrover.FsdpMemory

/-!
# Torn FSDP checkpoints

A rank whose dict has a checkpoint and that is not between the first item of a save and the update
of the dict has the bytes and the metadata of one save, and it is the same save for all such ranks:
the collective calls keep a rank from leaving a save before all have written their items. So only a
trainer that dies in between leaves a torn checkpoint, and only a lock that is lost lets the agent
read a segment in between.
-/

namespace ProbingBaselines.Dlrover

open Lib

variable {n : Nat} {save : FsdpSave n} {sent : Option WriterMetadata} {r : Fin (n + 1)}
  {k k' : FsdpRank} {act : TrainerAct} {buf : List UInt8} {items : List WriteItem}

/-! ### The bytes of a segment -/

/-- Writing the next item behind the items that a buffer begins with. -/
theorem prefix_writeBytes {done : Nat} {item : WriteItem}
    (written : itemBytes (items.take done) <+: buf) (next : items[done]? = some item) :
    itemBytes (items.take (done + 1)) <+:
      writeBytes buf (itemBytes (items.take done)).length item.data := by
  have more : itemBytes (items.take (done + 1)) = itemBytes (items.take done) ++ item.data := by
    simp [itemBytes, List.take_add_one, next]
  have kept : buf.take (itemBytes (items.take done)).length = itemBytes (items.take done) :=
    (List.prefix_iff_eq_take.mp written).symm
  rw [more, writeBytes, kept]
  exact List.prefix_append _ _

/-- The place that a result gives for an item holds the data of the item, in every buffer that has
the items from the offset on. -/
theorem readBytes_writeResults {storageKey : String} {offset : Nat} {front : List UInt8}
    (length : front.length = offset) (written : front ++ itemBytes items <+: buf) :
    (writeResults storageKey offset items).map (fun w ↦
      (w.index, readBytes buf w.storageData.offset w.storageData.length)) =
    items.map fun item ↦ (item.index, item.data) := by
  induction items generalizing offset front with
  | nil => rfl
  | cons item items ih =>
    have split : front ++ itemBytes (item :: items) = front ++ item.data ++ itemBytes items := by
      simp [itemBytes]
    rw [split] at written
    have head : readBytes buf offset item.data.length = item.data := by
      obtain ⟨rest, rfl⟩ := written
      simp [readBytes, ← length]
    rw [writeResults, List.map_cons, List.map_cons, head,
      ih (by rw [List.length_append, length]) written]

/-! ### The steps of a trainer -/

/-- The steps of a trainer, one by one. -/
inductive TrainerMoved (save : FsdpSave n) (sent : Option WriterMetadata) (r : Fin (n + 1))
    (k : FsdpRank) : TrainerAct → FsdpRank → Prop where
  | acquired (step : Nat) (phase : k.phase = .idle) (free : k.lock = none) :
    TrainerMoved save sent r k (.acquire step)
      { k with lock := some .trainer, phase := .entered step true }
  | refused (step : Nat) (phase : k.phase = .idle) :
    TrainerMoved save sent r k (.acquire step) { k with phase := .entered step false }
  | opened (phase : k.phase = .opening) (fresh : k.noCheckpointState = true)
    (size : getBufferSize (save.plans r) ≠ 0) :
    TrainerMoved save sent r k .open
      { k.create (getBufferSize (save.plans r)) with phase := .writing 0 }
  | reopened (phase : k.phase = .opening) (attached : k.attached = true)
    (old : k.noCheckpointState = false) :
    TrainerMoved save sent r k .open { k with phase := .writing 0 }
  | wrote (done : Nat) (buf : List UInt8) (item : WriteItem) (phase : k.phase = .writing done)
    (segment : k.segment = some buf) (next : (save.plans r)[done]? = some item)
    (fits : (itemBytes ((save.plans r).take done)).length + item.data.length ≤ buf.length) :
    TrainerMoved save sent r k .write
      { k with
        segment := some (writeBytes buf (itemBytes ((save.plans r).take done)).length item.data)
        phase := .writing (done + 1) }
  | received (m : WriterMetadata) (phase : k.phase = .finished) (sent_eq : sent = some m) :
    TrainerMoved save sent r k .receive { k with phase := .received m }
  | set (m : WriterMetadata) (phase : k.phase = .received m) :
    TrainerMoved save sent r k .set
      { k with metadata := some ⟨save.config r, m⟩, phase := .releasing true }
  | released (acquired : Bool) (phase : k.phase = .releasing acquired) :
    TrainerMoved save sent r k .release { k.unlock acquired with phase := .idle }
  | read (phase : k.phase = .idle) :
    TrainerMoved save sent r k .read { k with attached := k.attached || k.segment.isSome }
  | crashed (alive : k.phase ≠ .down) :
    TrainerMoved save sent r k .crash
      { k.unlock k.phase.holds with phase := .down, attached := false }

theorem openSegment_moved (phase : k.phase = .opening)
    (taken : k.openSegment (save.plans r) = some k') : TrainerMoved save sent r k .open k' := by
  unfold FsdpRank.openSegment at taken
  split at taken
  · next fresh =>
    split at taken
    · contradiction
    · next size =>
      cases taken
      exact .opened phase fresh size
  · next old =>
    split at taken
    · next attached =>
      cases taken
      exact .reopened phase attached (Bool.eq_false_iff.mpr old)
    · contradiction

theorem writeItem_moved {done : Nat} (phase : k.phase = .writing done)
    (taken : k.writeItem (save.plans r) done = some k') : TrainerMoved save sent r k .write k' := by
  unfold FsdpRank.writeItem at taken
  split at taken
  · next buf item segment next =>
    split at taken
    · next fits =>
      cases taken
      exact .wrote done buf item phase segment next fits.2
    · contradiction
  · contradiction

theorem trainerMoved (taken : k.trainerStep save sent r act = some k') :
    TrainerMoved save sent r k act k' := by
  unfold FsdpRank.trainerStep at taken
  split at taken
  · next step phase =>
    split at taken
    · next free =>
      cases taken
      exact .acquired step phase free
    · cases taken
      exact .refused step phase
  · next phase => exact openSegment_moved phase taken
  · next done phase => exact writeItem_moved phase taken
  · next phase =>
    obtain ⟨m, sent_eq, rfl⟩ := Option.map_eq_some_iff.mp taken
    exact .received m phase sent_eq
  · next m phase =>
    cases taken
    exact .set m phase
  · next acquired phase =>
    cases taken
    exact .released acquired phase
  · next phase =>
    cases taken
    exact .read phase
  · split at taken
    · contradiction
    · next alive =>
      cases taken
      exact .crashed alive
  · contradiction

/-! ### What holds of a rank -/

/-- The save of the phase has begun. -/
def FsdpPhase.saving : FsdpPhase → Bool
  | .opening => true
  | .writing _ => true
  | phase => phase.gathered

/-- What the phase of a rank says of its segment, its lock and the broadcast metadata. -/
structure RankKept (save : FsdpSave n) (sent : Option WriterMetadata) (r : Fin (n + 1))
    (k : FsdpRank) : Prop where
  attached : k.attached = true → ∃ bytes, k.segment = some bytes
  writing : ∀ done, k.phase = .writing done →
    ∃ bytes, k.segment = some bytes ∧ itemBytes ((save.plans r).take done) <+: bytes
  gathered : k.phase.gathered = true →
    ∃ bytes, k.segment = some bytes ∧ itemBytes (save.plans r) <+: bytes
  finished : k.phase = .finished → sent = some save.writerMetadata
  received : ∀ m, k.phase = .received m → m = save.writerMetadata
  linked : ∀ bytes, k.agent ≠ .unlinked bytes
  locked : k.phase.holds = true → k.lock = some .trainer
  nonneg : 0 ≤ k.step

namespace FsdpRank

@[simp] theorem unlock_segment (acquired : Bool) : (k.unlock acquired).segment = k.segment := by
  cases acquired <;> rfl

@[simp] theorem unlock_metadata (acquired : Bool) : (k.unlock acquired).metadata = k.metadata := by
  cases acquired <;> rfl

@[simp] theorem unlock_agent (acquired : Bool) : (k.unlock acquired).agent = k.agent := by
  cases acquired <;> rfl

@[simp] theorem unlock_attached (acquired : Bool) : (k.unlock acquired).attached = k.attached := by
  cases acquired <;> rfl

theorem step_congr (same : k'.metadata = k.metadata) : k'.step = k.step := by
  unfold step
  rw [same]

theorem noCheckpointState_congr (same : k'.metadata = k.metadata) :
    k'.noCheckpointState = k.noCheckpointState := by
  unfold noCheckpointState
  rw [step_congr same]

/-- The dict of the rank tells of a checkpoint, and no items have been written since. -/
def Settled (k : FsdpRank) : Prop := k.noCheckpointState = false ∧ k.phase.torn = false

/-- A segment that was there, or one made for the items, after `init_shared_memory`. -/
theorem create_segment {size : Nat} (size_ne : size ≠ 0) :
    ∃ bytes, (k.create size).segment = some bytes := by
  unfold create CkptMemory.createSharedMemory
  cases k.segment with
  | none => exact ⟨_, if_neg size_ne⟩
  | some bytes =>
    by_cases same : bytes.length = size
    · exact ⟨bytes, by simp [size_ne, same]⟩
    · exact ⟨_, by simp [size_ne, same]; rfl⟩

/-- The agent's handler loses its segment only when one of another size takes its place. -/
theorem create_agent {size : Nat} (linked : ∀ bytes, k.agent ≠ .unlinked bytes)
    (kept : k.agent = .linked → k.replaces size = false) :
    ∀ bytes, (k.create size).agent ≠ .unlinked bytes := by
  intro bytes
  unfold create
  split
  · next handle _ =>
    rw [if_neg (by rw [kept handle]; exact Bool.false_ne_true)]
    exact AgentHandle.noConfusion
  · exact linked bytes

theorem agentBuffer_eq (linked : ∀ bytes, k.agent ≠ .unlinked bytes) :
    k.agentBuffer = k.segment := by
  unfold agentBuffer
  split
  · next bytes handle => exact absurd handle (linked bytes)
  · rfl

end FsdpRank

namespace TrainerMoved

/-- A trainer that is past the collective call was so before. -/
theorem gathered (moved : TrainerMoved save sent r k act k') (now : k'.phase.gathered = true) :
    k.phase.gathered = true := by
  cases moved with
  | received m phase _ => rw [phase]; rfl
  | read phase => exact now
  | acquired | refused | opened | reopened | wrote | set | released | crashed => cases now

/-- A settled rank was so before and has what it had, or it has just put into the dict the metadata
of the save whose items it has written. -/
theorem settled (moved : TrainerMoved save sent r k act k') (kept : RankKept save sent r k)
    (crash : act = .crash → k.noCheckpointState = false → k.phase.torn = false)
    (now : k'.Settled) :
    k.Settled ∧ k'.segment = k.segment ∧ k'.metadata = k.metadata ∨
      k.phase.gathered = true ∧ k'.Whole k'.segment save r := by
  cases moved with
  | acquired step phase _ => exact .inl ⟨⟨now.1, by rw [phase]; rfl⟩, rfl, rfl⟩
  | refused step phase => exact .inl ⟨⟨now.1, by rw [phase]; rfl⟩, rfl, rfl⟩
  | opened phase fresh _ =>
    have old : k.noCheckpointState = false := now.1
    rw [fresh] at old
    contradiction
  | reopened phase _ _ => exact .inl ⟨⟨now.1, by rw [phase]; rfl⟩, rfl, rfl⟩
  | wrote done => exact absurd now.2 (by simp [FsdpPhase.torn])
  | received m => exact absurd now.2 (by simp [FsdpPhase.torn])
  | set m phase =>
    have past : k.phase.gathered = true := by rw [phase]; rfl
    refine .inr ⟨past, kept.gathered past, ?_⟩
    rw [kept.received m phase]
    rfl
  | released acquired phase =>
    refine .inl ⟨⟨?_, by rw [phase]; rfl⟩, k.unlock_segment acquired, k.unlock_metadata acquired⟩
    rw [← FsdpRank.noCheckpointState_congr (k.unlock_metadata acquired)]
    exact now.1
  | read phase => exact .inl ⟨⟨now.1, by rw [phase]; rfl⟩, rfl, rfl⟩
  | crashed alive =>
    have old : k.noCheckpointState = false := by
      rw [← FsdpRank.noCheckpointState_congr (k.unlock_metadata k.phase.holds)]
      exact now.1
    exact .inl ⟨⟨old, crash rfl old⟩, k.unlock_segment _, k.unlock_metadata _⟩

/-- A trainer that is inside `save_state_dict`, or past it, was so before. -/
theorem saving (moved : TrainerMoved save sent r k act k') (now : k'.phase.saving = true) :
    k.phase.saving = true := by
  cases moved with
  | opened phase _ _ => rw [phase]; rfl
  | reopened phase _ _ => rw [phase]; rfl
  | wrote _ _ _ phase _ _ _ => rw [phase]; rfl
  | received m phase _ => rw [phase]; rfl
  | read phase => exact now
  | acquired | refused | set | released | crashed => cases now

/-- While a thread of the agent holds the lock the trainer changes neither lock nor dict. -/
theorem saverLock (moved : TrainerMoved save sent r k act k') (kept : RankKept save sent r k)
    {i : Nat} (lock : k.lock = some (.saver i)) :
    k'.lock = some (.saver i) ∧ k'.metadata = k.metadata := by
  have free : k.phase.holds = false := by
    cases holds : k.phase.holds with
    | false => rfl
    | true =>
      rw [kept.locked holds] at lock
      cases lock
  cases moved with
  | acquired step phase none => rw [none] at lock; cases lock
  | set m phase => rw [phase] at free; cases free
  | released acquired phase =>
    rw [phase] at free
    cases (show acquired = false from free)
    exact ⟨lock, rfl⟩
  | crashed alive => rw [free]; exact ⟨lock, rfl⟩
  | refused | opened | reopened | wrote | received | read => exact ⟨lock, rfl⟩

theorem kept (moved : TrainerMoved save sent r k act k') (kept : RankKept save sent r k)
    (admitted : act = .open → k.noCheckpointState = true → k.agent = .linked →
      k.replaces (getBufferSize (save.plans r)) = false) :
    RankKept save sent r k' := by
  cases moved with
  | acquired step phase free =>
    exact ⟨kept.attached, nofun, nofun, nofun, nofun, kept.linked, fun _ ↦ rfl, kept.nonneg⟩
  | refused step phase =>
    exact ⟨kept.attached, nofun, nofun, nofun, nofun, kept.linked, nofun, kept.nonneg⟩
  | opened phase fresh size =>
    obtain ⟨bytes, segment⟩ := k.create_segment size
    refine ⟨fun _ ↦ ⟨bytes, segment⟩, ?_, nofun, nofun, nofun,
      k.create_agent kept.linked (admitted rfl fresh), fun _ ↦ kept.locked (by rw [phase]; rfl),
      kept.nonneg⟩
    rintro _ ⟨⟩
    exact ⟨bytes, segment, List.nil_prefix⟩
  | reopened phase attached old =>
    obtain ⟨bytes, segment⟩ := kept.attached attached
    refine ⟨kept.attached, ?_, nofun, nofun, nofun, kept.linked,
      fun _ ↦ kept.locked (by rw [phase]; rfl), kept.nonneg⟩
    rintro _ ⟨⟩
    exact ⟨bytes, segment, List.nil_prefix⟩
  | wrote done buf item phase segment next fits =>
    refine ⟨fun _ ↦ ⟨_, rfl⟩, ?_, nofun, nofun, nofun, kept.linked,
      fun _ ↦ kept.locked (by rw [phase]; rfl), kept.nonneg⟩
    rintro _ ⟨⟩
    obtain ⟨bytes, same, written⟩ := kept.writing done phase
    cases segment.symm.trans same
    exact ⟨_, rfl, prefix_writeBytes written next⟩
  | received m phase sent_eq =>
    refine ⟨kept.attached, nofun, fun _ ↦ kept.gathered (by rw [phase]; rfl), nofun, ?_,
      kept.linked, fun _ ↦ kept.locked (by rw [phase]; rfl), kept.nonneg⟩
    rintro _ ⟨⟩
    exact Option.some.inj (sent_eq.symm.trans (kept.finished phase))
  | set m phase =>
    exact ⟨kept.attached, nofun, nofun, nofun, nofun, kept.linked,
      fun _ ↦ kept.locked (by rw [phase]; rfl), Int.natCast_nonneg save.step⟩
  | released acquired phase =>
    refine ⟨fun attached ↦ ?_, nofun, nofun, nofun, nofun, fun bytes ↦ ?_, nofun, ?_⟩
    · rw [FsdpRank.unlock_segment]
      exact kept.attached (by rwa [FsdpRank.unlock_attached] at attached)
    · rw [FsdpRank.unlock_agent]
      exact kept.linked bytes
    · exact (FsdpRank.step_congr (k.unlock_metadata acquired)).symm ▸ kept.nonneg
  | read phase =>
    refine ⟨fun attached ↦ ?_, kept.writing, kept.gathered, kept.finished, kept.received,
      kept.linked, kept.locked, kept.nonneg⟩
    rcases Bool.or_eq_true_iff.mp attached with before | there
    · exact kept.attached before
    · exact Option.isSome_iff_exists.mp there
  | crashed alive =>
    refine ⟨nofun, nofun, nofun, nofun, nofun, fun bytes ↦ ?_, nofun, ?_⟩
    · rw [FsdpRank.unlock_agent]
      exact kept.linked bytes
    · exact (FsdpRank.step_congr (k.unlock_metadata k.phase.holds)).symm ▸ kept.nonneg

end TrainerMoved

theorem FsdpRank.Whole.congr {buf buf' : Option (List UInt8)} (whole : k.Whole buf save r)
    (bytes : buf' = buf) (dict : k'.metadata = k.metadata) : k'.Whole buf' save r := by
  rw [bytes]
  exact ⟨whole.1, dict.trans whole.2⟩

/-- From a whole segment the reader gets for each item of the rank its data, at the place that the
metadata of the save gives for the item (`fsdp_engine.py:250-271`). -/
theorem FsdpRank.Whole.read (whole : k.Whole (some buf) save r) :
    (save.results r).map (fun w ↦
      (w.index, readBytes buf w.storageData.offset w.storageData.length)) =
    (save.plans r).map fun item ↦ (item.index, item.data) := by
  obtain ⟨_, ⟨⟩, written⟩ := whole.1
  exact readBytes_writeResults List.length_nil written

/-- A rank outside of `save_state_dict` says nothing of its segment. -/
theorem RankKept.outside (kept : RankKept save sent r k) {save' : FsdpSave n}
    {sent' : Option WriterMetadata} {phase : FsdpPhase} (writing : ∀ done, phase ≠ .writing done)
    (gathered : phase.gathered = false) (held : phase.holds = true → k.phase.holds = true) :
    RankKept save' sent' r { k with phase } where
  attached := kept.attached
  writing done now := absurd now (writing done)
  gathered now := absurd now (Bool.eq_false_iff.mp gathered)
  finished now := by
    rw [show phase = .finished from now] at gathered
    contradiction
  received m now := by
    rw [show phase = .received m from now] at gathered
    contradiction
  linked := kept.linked
  locked now := kept.locked (held now)
  nonneg := kept.nonneg

/-! ### What holds of a job -/

/-- What the stage of a thread of the agent says of the rank it works for. -/
structure ShardThreadKept (k : FsdpRank) (i : Nat) (t : ShardThread n) : Prop where
  lock : t.stage.holds = true → k.lock = some (.saver i)
  persisting : t.stage = .persisting → k.step = t.step
  step_ne : t.step ≠ 0

namespace FsdpJob

variable {s t : FsdpJob n} {node : Fin (n + 1) → Nat}

structure Kept (s : FsdpJob n) : Prop where
  rank : ∀ r, RankKept s.current s.sent r (s.ranks r)
  begun : ∀ r, (s.ranks r).phase.saving = true → s.saves ≠ []
  whole : ∃ save, ∀ r, (s.ranks r).Settled →
    save ∈ s.saves ∧ (s.ranks r).Whole (s.ranks r).segment save r
  ahead : ∀ q, (s.ranks q).phase.gathered = true → ∀ r, (s.ranks r).Settled →
    (s.ranks r).Whole (s.ranks r).segment s.current r
  thread : ∀ i t, s.threads[i]? = some t → ShardThreadKept (s.ranks t.rank) i t

theorem kept_init (segments : Fin (n + 1) → Option (List UInt8)) : Kept (init segments) where
  rank _ := ⟨nofun, nofun, nofun, nofun, nofun, nofun, nofun, Int.le_refl 0⟩
  begun _ := nofun
  whole := ⟨⟨0, "", fun _ ↦ []⟩, fun _ settled ↦ nomatch settled.1⟩
  ahead _ := nofun
  thread := nofun

@[simp] theorem ranks_setRank_self (r : Fin (n + 1)) (k : FsdpRank) :
    (s.setRank r k).ranks r = k := Function.update_self ..

theorem ranks_setRank_of_ne {r q : Fin (n + 1)} (other : q ≠ r) (k : FsdpRank) :
    (s.setRank r k).ranks q = s.ranks q := Function.update_of_ne other ..

/-- What holds of the rank that moves and of the others holds of all ranks. -/
theorem forall_setRank {P : Fin (n + 1) → FsdpRank → Prop} {r : Fin (n + 1)} {k : FsdpRank}
    (own : P r k) (others : ∀ q, P q (s.ranks q)) (q : Fin (n + 1)) :
    P q ((s.setRank r k).ranks q) := by
  by_cases same : q = r
  · subst same
    rw [ranks_setRank_self]
    exact own
  · rw [ranks_setRank_of_ne same]
    exact others q

theorem setRank_ranks (s : FsdpJob n) (r : Fin (n + 1)) : s.setRank r (s.ranks r) = s := by
  unfold setRank
  rw [Function.update_eq_self]

theorem current_mem (begun : s.saves ≠ []) : s.current ∈ s.saves := by
  unfold current
  rw [List.headD_eq_head?_getD, List.head?_eq_some_head begun]
  exact List.head_mem begun

/-- A trainer that is past the collective call of its save is in the last one. -/
theorem saving_of_gathered {phase : FsdpPhase} (past : phase.gathered = true) :
    phase.saving = true := by
  cases phase with
  | finished => rfl
  | received => rfl
  | idle | entered | opening | writing | releasing | down => cases past

theorem Kept.trainer (h : Kept s) (moved : TrainerMoved s.current s.sent r (s.ranks r) act k)
    (admitted : s.Admitted node (.trainer r act)) : Kept (s.setRank r k) := by
  have settled := moved.settled (h.rank r) (fun crash ↦ by subst crash; exact admitted)
  -- A rank that updates its dict does so behind the collective call of the last save.
  have ahead : ∀ q, (s.ranks q).phase.gathered = true → ∀ p, ((s.setRank r k).ranks p).Settled →
      ((s.setRank r k).ranks p).Whole ((s.setRank r k).ranks p).segment s.current p := by
    intro q past
    refine forall_setRank (P := fun p k ↦ k.Settled → k.Whole k.segment s.current p) ?_
      (h.ahead q past)
    intro now
    obtain ⟨before, bytes, dict⟩ | ⟨_, whole⟩ := settled now
    · exact (h.ahead q past r before).congr bytes dict
    · exact whole
  have gathered : ∀ q, ((s.setRank r k).ranks q).phase.gathered = true →
      (s.ranks q).phase.gathered = true :=
    forall_setRank (P := fun q k ↦ k.phase.gathered = true → (s.ranks q).phase.gathered = true)
      moved.gathered fun _ ↦ id
  refine ⟨?_, ?_, ?_, fun q past ↦ ahead q (gathered q past), fun i t at_i ↦ ?_⟩
  · exact forall_setRank (P := RankKept s.current s.sent)
      (moved.kept (h.rank r) fun opens ↦ by subst opens; exact admitted) h.rank
  · exact forall_setRank (P := fun _ k ↦ k.phase.saving = true → s.saves ≠ [])
      (fun saving ↦ h.begun r (moved.saving saving)) h.begun
  · by_cases past : (s.ranks r).phase.gathered = true
    · have known := current_mem (h.begun r (saving_of_gathered past))
      exact ⟨s.current, fun q now ↦ ⟨known, ahead r past q now⟩⟩
    · obtain ⟨save, whole⟩ := h.whole
      refine ⟨save, forall_setRank (P := fun q k ↦ k.Settled →
        save ∈ s.saves ∧ k.Whole k.segment save q) ?_ whole⟩
      intro now
      obtain ⟨before, bytes, dict⟩ | ⟨now_past, _⟩ := settled now
      · exact ⟨(whole r before).1, (whole r before).2.congr bytes dict⟩
      · exact absurd now_past past
  · have kept := h.thread i t at_i
    by_cases same : t.rank = r
    · subst same
      rw [ranks_setRank_self]
      refine ⟨fun holds ↦ (moved.saverLock (h.rank _) (kept.lock holds)).1, fun stage ↦ ?_,
        kept.step_ne⟩
      have lock := kept.lock (by rw [stage]; rfl)
      rw [FsdpRank.step_congr (moved.saverLock (h.rank _) lock).2]
      exact kept.persisting stage
    · rw [ranks_setRank_of_ne same]
      exact kept

/-- The ranks go together from outside of a save to outside of `save_state_dict`. -/
theorem Kept.together (h : Kept s) {phase : Fin (n + 1) → FsdpPhase} {saves : List (FsdpSave n)}
    (before : ∀ r, (s.ranks r).phase.torn = false) (writing : ∀ r done, phase r ≠ .writing done)
    (gathered : ∀ r, (phase r).gathered = false)
    (held : ∀ r, (phase r).holds = true → (s.ranks r).phase.holds = true)
    (more : s.saves ⊆ saves) (begun : ∀ r, (phase r).saving = true → saves ≠ []) :
    Kept { s.setPhases phase with saves } where
  rank r := (h.rank r).outside (writing r) (gathered r) (held r)
  begun := begun
  whole := by
    obtain ⟨save, whole⟩ := h.whole
    refine ⟨save, fun r settled ↦ ?_⟩
    obtain ⟨known, whole⟩ := whole r ⟨settled.1, before r⟩
    exact ⟨more known, whole⟩
  ahead q past := absurd past (Bool.eq_false_iff.mp (gathered q))
  thread i t at_i := ⟨(h.thread i t at_i).lock, (h.thread i t at_i).persisting,
    (h.thread i t at_i).step_ne⟩

theorem not_torn_of_entered {phase : FsdpPhase} {step : Nat}
    (entered : phase.enteredStep = some step) : phase.torn = false := by
  cases phase with
  | entered => rfl
  | idle | opening | writing | finished | received | releasing | down => cases entered

theorem Kept.ready (h : Kept s) (entered : ∀ r, (s.ranks r).phase.enteredStep = some save.step) :
    Kept (s.ready save) := by
  unfold FsdpJob.ready
  have outside : ∀ r, (s.ranks r).phase.torn = false := fun r ↦ not_torn_of_entered (entered r)
  split
  · next all =>
    exact h.together outside (fun _ ↦ nofun) (fun _ ↦ rfl) (fun r _ ↦ all r)
      (List.subset_cons_self ..) (fun _ _ ↦ List.cons_ne_nil _ _)
  · exact h.together outside (fun _ ↦ nofun) (fun _ ↦ rfl) (fun r held ↦ held)
      (List.Subset.refl _) (fun _ ↦ nofun)

theorem Kept.restart (h : Kept s) (down : ∀ r, (s.ranks r).phase = .down) :
    Kept (s.setPhases fun _ ↦ .idle) :=
  h.together (fun r ↦ by rw [down r]; rfl) (fun _ ↦ nofun) (fun _ ↦ rfl) (fun _ ↦ nofun)
    (List.Subset.refl _) (fun _ ↦ nofun)

/-- The end of the collective call: every rank has written all its items over what was there. -/
theorem Kept.finish (h : Kept s)
    (written : ∀ r, (s.ranks r).phase = .writing (s.current.plans r).length) :
    Kept { s.setPhases fun _ ↦ .finished with sent := some s.current.writerMetadata } where
  rank r := by
    obtain ⟨bytes, segment, items⟩ := (h.rank r).writing _ (written r)
    rw [List.take_length] at items
    exact ⟨(h.rank r).attached, nofun, fun _ ↦ ⟨bytes, segment, items⟩, fun _ ↦ rfl, nofun,
      (h.rank r).linked, fun _ ↦ (h.rank r).locked (by rw [written r]; rfl), (h.rank r).nonneg⟩
  begun r _ := h.begun r (by rw [written r]; rfl)
  whole := ⟨s.current, fun r settled ↦ absurd settled.2 (by simp [setPhases, FsdpPhase.torn])⟩
  ahead q _ r settled := absurd settled.2 (by simp [setPhases, FsdpPhase.torn])
  thread i t at_i := ⟨(h.thread i t at_i).lock, (h.thread i t at_i).persisting,
    (h.thread i t at_i).step_ne⟩

/-- A step of a thread of the agent: the rank keeps its phase, its segment and its dict. -/
theorem Kept.threadStage (h : Kept s) {i : Nat} {t : ShardThread n} {k : FsdpRank}
    {stage : ShardStage}
    (phase : k.phase = (s.ranks t.rank).phase) (segment : k.segment = (s.ranks t.rank).segment)
    (metadata : k.metadata = (s.ranks t.rank).metadata) (rank : RankKept s.current s.sent t.rank k)
    (own : ShardThreadKept k i { t with stage })
    (others : ∀ j u, j ≠ i → s.threads[j]? = some u → u.rank = t.rank →
      ShardThreadKept (s.ranks t.rank) j u → ShardThreadKept k j u) :
    Kept ((s.setRank t.rank k).setThread i t stage) := by
  have settled : k.Settled → (s.ranks t.rank).Settled := by
    intro now
    unfold FsdpRank.Settled at now ⊢
    rwa [FsdpRank.noCheckpointState_congr metadata, phase] at now
  have phases : ∀ q, ((s.setRank t.rank k).ranks q).phase = (s.ranks q).phase :=
    forall_setRank (P := fun q k ↦ k.phase = (s.ranks q).phase) phase fun _ ↦ rfl
  have whole : ∀ save q, ((s.setRank t.rank k).ranks q).Settled →
      (s.ranks q).Settled ∧ ((s.ranks q).Whole (s.ranks q).segment save q →
        ((s.setRank t.rank k).ranks q).Whole ((s.setRank t.rank k).ranks q).segment save q) := by
    intro save
    exact forall_setRank (P := fun q k ↦ k.Settled → (s.ranks q).Settled ∧
        ((s.ranks q).Whole (s.ranks q).segment save q → k.Whole k.segment save q))
      (fun now ↦ ⟨settled now, fun whole ↦ whole.congr segment metadata⟩) (fun _ now ↦ ⟨now, id⟩)
  refine ⟨forall_setRank (P := RankKept s.current s.sent) rank h.rank, fun q saving ↦ ?_, ?_,
    fun q past r now ↦ ?_, fun j u at_j ↦ ?_⟩
  · apply h.begun q
    rw [← phases q]
    exact saving
  · obtain ⟨save, known⟩ := h.whole
    refine ⟨save, fun q now ↦ ?_⟩
    obtain ⟨before, keep⟩ := whole save q now
    exact ⟨(known q before).1, keep (known q before).2⟩
  · obtain ⟨before, keep⟩ := whole s.current r now
    exact keep (h.ahead q (by rw [← phases q]; exact past) r before)
  · show ShardThreadKept ((s.setRank t.rank k).ranks u.rank) j u
    rcases getElem?_set_cases at_j with ⟨rfl, rfl⟩ | ⟨other, at_j⟩
    · rw [ranks_setRank_self]
      exact own
    · by_cases shared : u.rank = t.rank
      · rw [shared, ranks_setRank_self]
        exact others j u (Ne.symm other) at_j shared (shared ▸ h.thread j u at_j)
      · rw [ranks_setRank_of_ne shared]
        exact h.thread j u at_j

/-- A step of a thread that leaves the rank as it is. -/
theorem Kept.setThread (h : Kept s) {i : Nat} {t : ShardThread n} {stage : ShardStage}
    (own : ShardThreadKept (s.ranks t.rank) i { t with stage }) :
    Kept (s.setThread i t stage) := by
  have kept := h.threadStage rfl rfl rfl (h.rank t.rank) own (fun _ _ _ _ _ kept ↦ kept)
  rwa [setRank_ranks] at kept

/-- A thread changes a lock that is free or its own. -/
theorem Kept.setLock (h : Kept s) {i : Nat} {t : ShardThread n} {stage : ShardStage}
    {lock : Option ShmHolder}
    (free : (s.ranks t.rank).lock = none ∨ (s.ranks t.rank).lock = some (.saver i))
    (own : ShardThreadKept { s.ranks t.rank with lock } i { t with stage }) :
    Kept ((s.setLock t.rank lock).setThread i t stage) := by
  have rank := h.rank t.rank
  refine h.threadStage rfl rfl rfl ?_ own ?_
  · refine ⟨rank.attached, rank.writing, rank.gathered, rank.finished, rank.received, rank.linked,
      fun holds ↦ ?_, rank.nonneg⟩
    have trainer := rank.locked holds
    rcases free with free | free
    · rw [free] at trainer
      cases trainer
    · rw [free] at trainer
      cases trainer
  · intro j u other at_j shared kept
    refine ⟨fun holds ↦ ?_, kept.persisting, kept.step_ne⟩
    have saver := kept.lock holds
    rcases free with free | free
    · rw [free] at saver
      cases saver
    · rw [free] at saver
      cases saver
      exact absurd rfl other

/-- `init_shared_memory(create=False)` of the agent. -/
theorem Kept.attach (h : Kept s) {i : Nat} {t : ShardThread n} (at_i : s.threads[i]? = some t)
    {handle : AgentHandle} (linked : ∀ bytes, handle ≠ .unlinked bytes) :
    Kept ((s.setRank t.rank { s.ranks t.rank with agent := handle }).setThread i t .acquiring) := by
  have rank := h.rank t.rank
  refine h.threadStage rfl rfl rfl ?_ ⟨nofun, nofun, (h.thread i t at_i).step_ne⟩ ?_
  · exact ⟨rank.attached, rank.writing, rank.gathered, rank.finished, rank.received, linked,
      rank.locked, rank.nonneg⟩
  · exact fun _ _ _ _ _ kept ↦ ⟨kept.lock, kept.persisting, kept.step_ne⟩

theorem Kept.threadStep (h : Kept s) {i : Nat} {t : ShardThread n} {raises : Bool} {u : FsdpJob n}
    (at_i : s.threads[i]? = some t)
    (admitted : t.stage = .finalRelease →
      (s.ranks t.rank).lock = none ∨ (s.ranks t.rank).lock = some (.saver i))
    (taken : s.threadStep i t raises = some u) : Kept u := by
  have kept := h.thread i t at_i
  unfold FsdpJob.threadStep at taken
  split at taken
  · cases taken
    apply h.attach at_i
    intro bytes
    split
    · exact AgentHandle.noConfusion
    · exact (h.rank t.rank).linked bytes
  · split at taken
    · next free =>
      cases taken
      exact h.setLock (.inl free) ⟨fun _ ↦ rfl, nofun, kept.step_ne⟩
    · contradiction
  · next stage =>
    cases taken
    have lock := kept.lock (by rw [stage]; rfl)
    split
    · next same => exact h.setThread ⟨fun _ ↦ lock, fun _ ↦ same, kept.step_ne⟩
    · exact h.setThread ⟨fun _ ↦ lock, nofun, kept.step_ne⟩
  · next stage =>
    cases taken
    have lock := kept.lock (by rw [stage]; rfl)
    split
    · exact h.setThread ⟨nofun, nofun, kept.step_ne⟩
    · exact h.setThread ⟨fun _ ↦ lock, nofun, kept.step_ne⟩
  · next stage =>
    cases taken
    have lock := kept.lock (by rw [stage]; rfl)
    exact h.setLock (.inr lock) ⟨nofun, nofun, kept.step_ne⟩
  · next stage =>
    cases taken
    exact h.setLock (admitted stage) ⟨nofun, nofun, kept.step_ne⟩
  · contradiction
  · cases taken
    exact h.setThread ⟨nofun, nofun, kept.step_ne⟩

theorem Kept.saveStepCheckpoint (h : Kept s) (k : Nat) (step : Int) :
    Kept (s.saveStepCheckpoint node k step) := by
  unfold FsdpJob.saveStepCheckpoint
  split
  · next consistent =>
    refine ⟨h.rank, h.begun, h.whole, h.ahead, fun i t at_i ↦ ?_⟩
    rw [List.getElem?_append] at at_i
    split at at_i
    · exact h.thread i t at_i
    · obtain ⟨r, mem, rfl⟩ := List.mem_map.mp (List.mem_of_getElem? at_i)
      obtain ⟨here, state⟩ := List.mem_filter.mp mem
      have positive : 0 < (s.ranks r).step :=
        lt_of_le_of_ne (h.rank r).nonneg (Ne.symm (of_decide_eq_true state))
      refine ⟨nofun, nofun, ?_⟩
      rw [show step = (s.ranks r).step from (consistent r here positive).symm]
      exact positive.ne'
  · exact h

theorem Kept.reset (h : Kept s) {k : Nat} (free : ∀ r, node r = k → (s.ranks r).lock = none) :
    Kept { s with
      ranks := fun r ↦ if node r = k then { s.ranks r with lock := none } else s.ranks r } := by
  have same : (fun r ↦ if node r = k then { s.ranks r with lock := none } else s.ranks r) =
      s.ranks := by
    funext r
    split
    · next here =>
      rw [← free r here]
    · rfl
  rw [same]
  exact h

theorem kept_step (h : Kept s) {a : FsdpAct n} (admitted : s.Admitted node a)
    (taken : s.step node a = some t) : Kept t := by
  cases a with
  | trainer r act =>
    obtain ⟨k, moved, rfl⟩ := Option.map_eq_some_iff.mp taken
    exact h.trainer (trainerMoved moved) admitted
  | ready save =>
    obtain ⟨entered, taken⟩ := Option.ite_none_right_eq_some.mp taken
    cases taken
    exact h.ready entered
  | finish =>
    obtain ⟨written, taken⟩ := Option.ite_none_right_eq_some.mp taken
    cases taken
    exact h.finish written
  | restart =>
    obtain ⟨down, taken⟩ := Option.ite_none_right_eq_some.mp taken
    cases taken
    exact h.restart down
  | reset k =>
    cases taken
    exact h.reset admitted
  | saveShm k synced =>
    simp only [step] at taken
    split at taken
    · cases taken
      exact h.saveStepCheckpoint k _
    · cases taken
      exact h
  | saveEvent k step =>
    cases taken
    exact h.saveStepCheckpoint k step
  | endSave k saved =>
    cases taken
    exact ⟨h.rank, h.begun, h.whole, h.ahead, h.thread⟩
  | thread i raises =>
    obtain ⟨u, at_i, taken⟩ := Option.bind_eq_some_iff.mp taken
    exact h.threadStep at_i (admitted u at_i) taken

/-! ### No checkpoint is read torn -/

/-- A rank with a free lock, or one that a thread of the agent holds, is not between two states. -/
theorem Kept.not_torn (h : Kept s) {r : Fin (n + 1)} (lock : (s.ranks r).lock ≠ some .trainer) :
    (s.ranks r).phase.torn = false := by
  cases phase : (s.ranks r).phase with
  | writing | finished | received =>
    exact absurd ((h.rank r).locked (by rw [phase]; rfl)) lock
  | idle | entered | opening | releasing | down => rfl

theorem mem_localRanks {k : Nat} {r : Fin (n + 1)} : r ∈ localRanks node k ↔ node r = k := by
  simp [localRanks]

/-- What `save_shm_to_storage` has tested when it goes on: all ranks of the node have a checkpoint
of the step in their dicts, and no lock is held. -/
theorem shmStep_some {k : Nat} {synced : Option Bool} {step : Int}
    (allowed : s.shmStep node k synced = some step) :
    (∃ r, node r = k) ∧ ∀ r, node r = k → (s.ranks r).noCheckpointState = false ∧
      (s.ranks r).step = step ∧ (s.ranks r).lock = none := by
  unfold shmStep at allowed
  split at allowed
  · contradiction
  · next first rest ranks =>
    obtain ⟨state, allowed⟩ := Option.ite_none_left_eq_some.mp allowed
    obtain ⟨same, allowed⟩ := Option.ite_none_left_eq_some.mp allowed
    obtain ⟨_, allowed⟩ := Option.ite_none_left_eq_some.mp allowed
    obtain ⟨free, allowed⟩ := Option.ite_none_left_eq_some.mp allowed
    obtain ⟨_, allowed⟩ := Option.ite_none_right_eq_some.mp allowed
    cases allowed
    refine ⟨⟨first, mem_localRanks.mp (ranks ▸ List.mem_cons_self)⟩, fun r here ↦ ?_⟩
    have mem : r ∈ first :: rest := ranks ▸ mem_localRanks.mpr here
    simp only [List.any_eq_true, decide_eq_true_eq, Bool.or_eq_true, not_exists, not_and, not_or,
      Decidable.not_not] at state same free
    refine ⟨Bool.eq_false_iff.mpr (state r mem), ?_, free.2 r mem⟩
    rcases List.mem_cons.mp mem with rfl | later
    · rfl
    · exact same r later

theorem Kept.neverTorn (h : Kept s) : s.NeverTorn node := by
  obtain ⟨save, whole⟩ := h.whole
  refine ⟨fun loads ↦ ?_, fun k synced step allowed ↦ ?_, fun t mem stage ↦ ?_⟩
  · obtain ⟨idle, _, state⟩ := loads
    have settled : ∀ r, (s.ranks r).Settled := fun r ↦ ⟨state r, by rw [idle r]; rfl⟩
    exact ⟨save, (whole 0 (settled 0)).1, fun r ↦ (whole r (settled r)).2⟩
  · obtain ⟨⟨first, here⟩, local_⟩ := shmStep_some allowed
    have settled : ∀ r, node r = k → (s.ranks r).Settled := by
      intro r here
      obtain ⟨state, _, free⟩ := local_ r here
      exact ⟨state, h.not_torn (by rw [free]; nofun)⟩
    obtain ⟨known, _, dict⟩ := whole first (settled first here)
    refine ⟨save, known, ?_, fun r here ↦ ?_⟩
    · rw [← (local_ first here).2.1, FsdpRank.step, dict]
      rfl
    · rw [FsdpRank.agentBuffer_eq (h.rank r).linked]
      exact (whole r (settled r here)).2
  · obtain ⟨i, at_i⟩ := List.mem_iff_getElem?.mp mem
    have kept := h.thread i t at_i
    have step := kept.persisting stage
    have lock := kept.lock (by rw [stage]; rfl)
    have settled : (s.ranks t.rank).Settled := by
      refine ⟨decide_eq_false ?_, h.not_torn (by rw [lock]; nofun)⟩
      rw [step]
      exact kept.step_ne
    obtain ⟨known, bytes, dict⟩ := whole t.rank settled
    refine ⟨save, known, ?_, ?_, dict⟩
    · rw [← step, FsdpRank.step, dict]
      rfl
    · rw [FsdpRank.agentBuffer_eq (h.rank t.rank).linked]
      exact bytes

instance (s : FsdpJob n) : (a : FsdpAct n) → Decidable (s.Admitted node a)
  | .trainer r .crash =>
    inferInstanceAs (Decidable ((s.ranks r).noCheckpointState = false →
      (s.ranks r).phase.torn = false))
  | .trainer r .open =>
    inferInstanceAs (Decidable ((s.ranks r).noCheckpointState = true →
      (s.ranks r).agent = .linked →
        (s.ranks r).replaces (getBufferSize (s.current.plans r)) = false))
  | .thread i _ =>
    inferInstanceAs (Decidable (∀ t ∈ s.threads[i]?, t.stage = .finalRelease →
      (s.ranks t.rank).lock = none ∨ (s.ranks t.rank).lock = some (.saver i)))
  | .reset k => inferInstanceAs (Decidable (∀ r, node r = k → (s.ranks r).lock = none))
  | .trainer _ (.acquire _) => .isTrue trivial
  | .trainer _ .write => .isTrue trivial
  | .trainer _ .receive => .isTrue trivial
  | .trainer _ .set => .isTrue trivial
  | .trainer _ .release => .isTrue trivial
  | .trainer _ .read => .isTrue trivial
  | .ready _ => .isTrue trivial
  | .finish => .isTrue trivial
  | .restart => .isTrue trivial
  | .saveShm _ _ => .isTrue trivial
  | .saveEvent _ _ => .isTrue trivial
  | .endSave _ _ => .isTrue trivial

/-- In a job in which no trainer dies over a half-written checkpoint and no lock is lost, no
checkpoint is read torn. -/
theorem run_neverTorn {segments : Fin (n + 1) → Option (List UInt8)} {acts : List (FsdpAct n)}
    (run : Run (step node) (Admitted node) (init segments) acts s) : s.NeverTorn node :=
  (run.invariant (kept_init segments) fun _ _ _ kept ok taken ↦
    kept_step kept ok taken).neverTorn

/-- A save of two items a rank, with the number of the save and of the item as data. -/
def twoItems (step : Nat) : FsdpSave 1 where
  step := step
  dir := "ckpt"
  plans r := [⟨⟨"weight", some [2 * r]⟩, .shard, [UInt8.ofNat step, 0], 4⟩,
    ⟨⟨"bias", some [2 * r + 1]⟩, .shard, [UInt8.ofNat step, 1], 4⟩]

/-- The same steps of the two ranks, one after the other. -/
def both (act : TrainerAct) : List (FsdpAct 1) := (List.finRange 2).map fun r ↦ .trainer r act

/-- Both ranks enter a save and have their segments. -/
def enter (step : Nat) : List (FsdpAct 1) :=
  both (.acquire step) ++ [.ready (twoItems step)] ++ both .open

def saveAll (step : Nat) : List (FsdpAct 1) :=
  enter step ++ both .write ++ both .write ++ [.finish] ++ both .receive ++ both .set ++
    both .release

/-- A job saves a step, dies, loads the step and is persisting it. -/
theorem run_neverTorn_two : ∃ s : FsdpJob 1, s.LoadsMemory ∧
    (∃ t ∈ s.threads, t.stage = .persisting) ∧ s.NeverTorn fun _ ↦ 0 := by
  obtain ⟨s, run, test⟩ : ∃ s, Run (step fun _ : Fin 2 ↦ 0) (Admitted fun _ ↦ 0)
      (init fun _ ↦ none)
      (saveAll 5 ++ both .crash ++ [.restart, .saveShm 0 none, .thread 0 false, .thread 0 false,
        .thread 0 false]) s ∧
      decide (s.LoadsMemory ∧ ∃ t ∈ s.threads, t.stage = .persisting) = true :=
    run_of_guarded_any (by decide +kernel)
  obtain ⟨loads, persists⟩ := of_decide_eq_true test
  exact ⟨s, loads, persists, run_neverTorn run⟩

end FsdpJob

instance {n : Nat} (k : FsdpRank) (buf : Option (List UInt8)) (save : FsdpSave n)
    (r : Fin (n + 1)) : Decidable (k.Whole buf save r) :=
  match buf with
  | none => .isFalse fun whole ↦ nomatch whole.1
  | some bytes =>
    decidable_of_iff (itemBytes (save.plans r) <+: bytes ∧ k.metadata = some (save.metaDict r))
      ⟨fun whole ↦ ⟨⟨bytes, rfl, whole.1⟩, whole.2⟩, fun whole ↦
        ⟨by obtain ⟨_, ⟨⟩, written⟩ := whole.1; exact written, whole.2⟩⟩

namespace FsdpJob

/-- Rank 1 dies between its two items of step 9. The dicts still have step 5, so the memory is
loaded, and persisted, with an item of step 9 beside one of step 5. -/
theorem neverTorn_fails : ∃ s : FsdpJob 1, ∃ acts,
    Run (step fun _ ↦ 0) anyStep (init fun _ ↦ none) acts s ∧
      (s.LoadsMemory ∧
        ¬ ∃ save ∈ s.saves, ∀ r, (s.ranks r).Whole (s.ranks r).segment save r) ∧
      (s.shmStep (fun _ ↦ 0) 0 none = some 5 ∧
        ¬ ∃ save ∈ s.saves, save.step = 5 ∧
          ∀ r, (s.ranks r).Whole (s.ranks r).agentBuffer save r) := by
  obtain ⟨s, run, test⟩ : ∃ s, Run (step fun _ : Fin 2 ↦ 0) anyStep (init fun _ ↦ none)
      (saveAll 5 ++ enter 9 ++ [.trainer 1 .write] ++ both .crash ++ [.restart]) s ∧
      decide ((s.LoadsMemory ∧
        ¬ ∃ save ∈ s.saves, ∀ r, (s.ranks r).Whole (s.ranks r).segment save r) ∧
      (s.shmStep (fun _ ↦ 0) 0 none = some 5 ∧
        ¬ ∃ save ∈ s.saves, save.step = 5 ∧
          ∀ r, (s.ranks r).Whole (s.ranks r).agentBuffer save r)) = true :=
    run_of_any (by decide +kernel)
  exact ⟨s, _, run, of_decide_eq_true test⟩

end FsdpJob

end ProbingBaselines.Dlrover
