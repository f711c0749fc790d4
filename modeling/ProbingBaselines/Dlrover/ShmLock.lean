import Mathlib.Data.List.Basic
import ProbingBaselines.Lib.Dict
import ProbingBaselines.Lib.Run

/-!
# The lock of the shared memory

The trainer writes the state dict of a shard into the shared memory and the saver threads of the
agent persist it, each under the `SharedLock` of the shard. `release` frees the lock whoever holds
it, and `_save_shard` calls it in its body and once more in its `finally`. The steps here are those
of `save_state_dict_to_memory` and `_save_shard`; a release is two steps, as the server tests
`locked()` before it calls `release()`.
-/

namespace ProbingBaselines.Dlrover

open Lib

/-- Who can hold the lock: the trainer or a saver thread. -/
inductive LockParty where
  | trainer
  | saver (thread : Nat)
deriving DecidableEq

/-- Where `save_state_dict_to_memory` stands (`engine.py:365-404`). `acquired` is the answer of
`self._shm_lock.acquire(blocking)`. -/
inductive TrainerPhase where
  | idle
  | waiting
  | checking (acquired : Bool)
  | writing (acquired : Bool)
  | releaseTest
  | releaseFree
deriving DecidableEq

/-- Where a `_save_shard` stands (`ckpt_saver.py:680-735`): before `init_shared_memory`, before
`acquire`, before the test of the step, inside `persist_to_storage`, in the two halves of the
`release` of the body, before the done file, and in the two halves of the `release` of the
`finally`. `matched` says whether the step was the one in memory; `holds` whether the thread has
acquired the lock and not released it. -/
inductive SaverPhase where
  | starting
  | acquiring
  | checking
  | persisting
  | bodyTest (matched : Bool)
  | bodyFree (matched : Bool)
  | doneFile
  | finalTest (holds : Bool)
  | finalFree (holds : Bool)
deriving DecidableEq

/-- The lock of one shard with the parties that use it. `holder` says who acquired the lock last,
`none` that it is not locked; the lock itself carries no owner, and no release looks at it. `freed`
lists for each release that freed the lock who made it and who had acquired it. -/
structure ShmLock where
  holder : Option LockParty
  trainer : TrainerPhase
  savers : Dict Nat SaverPhase
  freed : List (LockParty × LockParty)

/-- How a step of `_save_shard` ends that can end in several ways. -/
inductive SaverOutcome where
  | ok
  | otherStep
  | raised

inductive LockAct where
  | save (blocking : Bool)
  | acquire
  | check (allReady nonempty : Bool)
  | written
  | trainerRaise
  | trainerRelease
  | saverStart (thread : Nat)
  | saverStep (thread : Nat) (outcome : SaverOutcome)

namespace ShmLock

def init : ShmLock := ⟨none, .idle, .empty, []⟩

/-- `self._lock.release()` on a locked lock. -/
def free (s : ShmLock) (party : LockParty) : ShmLock :=
  { s with holder := none, freed := s.freed ++ (s.holder.map (party, ·)).toList }

def setSaver (s : ShmLock) (thread : Nat) (phase : SaverPhase) : ShmLock :=
  { s with savers := s.savers.insert thread phase }

/-- `acquire(blocking)`: a call that does not block answers at once, one that blocks waits for the
lock to be free (`multi_process.py:356-370`). -/
def save (s : ShmLock) (blocking : Bool) : ShmLock :=
  if blocking then { s with trainer := .waiting }
  else if s.holder = none then
    { s with holder := some .trainer, trainer := .checking true }
  else { s with trainer := .checking false }

/-- `check_all_rank_ready` and the test for an empty state dict; all ranks are ready only if this
one is (`engine.py:60-74`). A rank that skips releases the lock if it has acquired it. -/
def check (s : ShmLock) (acquired allReady nonempty : Bool) : ShmLock :=
  if allReady && nonempty then { s with trainer := .writing acquired }
  else if acquired then { s with trainer := .releaseTest }
  else { s with trainer := .idle }

/-- The end of `self._shm_handler.save_state_dict(state_dict)`. -/
def written (s : ShmLock) (acquired : Bool) : ShmLock :=
  if acquired then { s with trainer := .releaseTest } else { s with trainer := .idle }

/-- `release` of the trainer: the test, then the release of the lock, which raises if another
release came between. -/
def trainerRelease (s : ShmLock) : Option ShmLock :=
  match s.trainer with
  | .releaseTest =>
    if s.holder = none then some { s with trainer := .idle }
    else some { s with trainer := .releaseFree }
  | .releaseFree =>
    if s.holder = none then some { s with trainer := .idle }
    else some { s.free .trainer with trainer := .idle }
  | _ => none

/-- One step of `_save_shard`. Every way out of the body, a return or an exception, leads to the
`release` of the `finally`; an exception in the body leaves it with the lock as it was. -/
def saverStep (s : ShmLock) (thread : Nat) (outcome : SaverOutcome) :
    SaverPhase → Option ShmLock
  | .starting =>
    match outcome with
    | .raised => some (s.setSaver thread (.finalTest false))
    | _ => some (s.setSaver thread .acquiring)
  | .acquiring =>
    if s.holder = none then
      some { s.setSaver thread .checking with holder := some (.saver thread) }
    else none
  | .checking =>
    match outcome with
    | .ok => some (s.setSaver thread .persisting)
    | .otherStep => some (s.setSaver thread (.bodyTest false))
    | .raised => some (s.setSaver thread (.finalTest true))
  | .persisting =>
    match outcome with
    | .raised => some (s.setSaver thread (.finalTest true))
    | _ => some (s.setSaver thread (.bodyTest true))
  | .bodyTest matched =>
    if s.holder = none then
      some (s.setSaver thread (if matched then .doneFile else .finalTest false))
    else some (s.setSaver thread (.bodyFree matched))
  | .bodyFree matched =>
    if s.holder = none then some (s.setSaver thread (.finalTest false))
    else
      some ((s.free (.saver thread)).setSaver thread
        (if matched then .doneFile else .finalTest false))
  | .doneFile => some (s.setSaver thread (.finalTest false))
  | .finalTest holds =>
    if s.holder = none then some { s with savers := s.savers.erase thread }
    else some (s.setSaver thread (.finalFree holds))
  | .finalFree _ =>
    if s.holder = none then some { s with savers := s.savers.erase thread }
    else some { s.free (.saver thread) with savers := s.savers.erase thread }

def step (s : ShmLock) : LockAct → Option ShmLock
  | .save blocking => if s.trainer = .idle then some (s.save blocking) else none
  | .acquire =>
    if s.trainer = .waiting ∧ s.holder = none then
      some { s with holder := some .trainer, trainer := .checking true }
    else none
  | .check allReady nonempty =>
    match s.trainer with
    | .checking acquired =>
      if allReady && !acquired then none else some (s.check acquired allReady nonempty)
    | _ => none
  | .written =>
    match s.trainer with
    | .writing acquired => some (s.written acquired)
    | _ => none
  | .trainerRaise =>
    match s.trainer with
    | .checking _ => some { s with trainer := .idle }
    | .writing _ => some { s with trainer := .idle }
    | _ => none
  | .trainerRelease => s.trainerRelease
  | .saverStart thread =>
    if thread ∈ s.savers then none else some (s.setSaver thread .starting)
  | .saverStep thread outcome => (s.savers.get? thread).bind (s.saverStep thread outcome)

/-- The release of the `finally` is harmless: a thread that does not hold the lock any more, or has
not acquired it, comes to that release when the lock is free. -/
def Admitted (s : ShmLock) : LockAct → Prop
  | .saverStep thread _ => s.savers.get? thread = some (.finalTest false) → s.holder = none
  | _ => True

instance (s : ShmLock) : (a : LockAct) → Decidable (s.Admitted a)
  | .saverStep thread _ =>
    inferInstanceAs (Decidable (s.savers.get? thread = some (.finalTest false) → s.holder = none))
  | .save _ => .isTrue trivial
  | .acquire => .isTrue trivial
  | .check _ _ => .isTrue trivial
  | .written => .isTrue trivial
  | .trainerRaise => .isTrue trivial
  | .trainerRelease => .isTrue trivial
  | .saverStart _ => .isTrue trivial

end ShmLock

/-- The trainer acts as the holder of the lock: it is at work under it or about to free it. -/
def TrainerPhase.asHolder : TrainerPhase → Bool
  | .idle => false
  | .waiting => false
  | .checking acquired => acquired
  | .writing _ => true
  | .releaseTest => true
  | .releaseFree => true

/-- The thread acts as the holder of the lock: it is at work under it or about to free it. -/
def SaverPhase.asHolder : SaverPhase → Bool
  | .starting => false
  | .acquiring => false
  | .checking => true
  | .persisting => true
  | .bodyTest _ => true
  | .bodyFree _ => true
  | .doneFile => false
  | .finalTest holds => holds
  | .finalFree _ => true

namespace ShmLock

/-- Who is at work under the lock holds it, and every release was made by the holder. -/
structure Exclusive (s : ShmLock) : Prop where
  trainer : s.trainer.asHolder = true → s.holder = some .trainer
  saver : ∀ thread phase, (thread, phase) ∈ s.savers.items → phase.asHolder = true →
    s.holder = some (.saver thread)
  freed : ∀ e ∈ s.freed, e.1 = e.2

theorem exclusive_init : Exclusive init where
  trainer h := by contradiction
  saver _ _ h := absurd h List.not_mem_nil
  freed _ h := absurd h List.not_mem_nil

variable {s t : ShmLock}

/-- While nobody holds the lock nobody is at work under it. -/
theorem Exclusive.idle (h : Exclusive s) (free : s.holder = none) :
    s.trainer.asHolder = false ∧
      ∀ thread phase, (thread, phase) ∈ s.savers.items → phase.asHolder = false := by
  constructor
  · by_contra holds
    rw [Bool.not_eq_false] at holds
    have held := h.trainer holds
    rw [free] at held
    cases held
  · intro thread phase mem
    by_contra holds
    rw [Bool.not_eq_false] at holds
    have held := h.saver thread phase mem holds
    rw [free] at held
    cases held

/-- The trainer moves on and keeps what it holds, or lets it go without a release. -/
theorem Exclusive.setTrainer (h : Exclusive s) {phase : TrainerPhase}
    (keeps : phase.asHolder = true → s.trainer.asHolder = true) :
    Exclusive { s with trainer := phase } :=
  ⟨fun holds ↦ h.trainer (keeps holds), h.saver, h.freed⟩

/-- The trainer takes the free lock. -/
theorem Exclusive.trainerTakes (h : Exclusive s) (free : s.holder = none) :
    Exclusive { s with holder := some .trainer, trainer := .checking true } where
  trainer _ := rfl
  saver thread phase mem holds := by
    rw [(h.idle free).2 thread phase mem] at holds
    contradiction
  freed := h.freed

/-- A saver thread moves on and keeps what it holds, or lets it go without a release. -/
theorem Exclusive.setSaver (h : Exclusive s) {thread : Nat} {phase next : SaverPhase}
    (mem : (thread, phase) ∈ s.savers.items)
    (keeps : next.asHolder = true → phase.asHolder = true) :
    Exclusive (s.setSaver thread next) where
  trainer := h.trainer
  saver i p hp holds := by
    rcases Dict.mem_items_insert.mp hp with ⟨rfl, rfl⟩ | ⟨-, hp⟩
    · exact h.saver i phase mem (keeps holds)
    · exact h.saver i p hp holds
  freed := h.freed

theorem Exclusive.erase (h : Exclusive s) (thread : Nat) :
    Exclusive { s with savers := s.savers.erase thread } where
  trainer := h.trainer
  saver i p hp := h.saver i p (Dict.mem_items_erase.mp hp).1
  freed := h.freed

/-- The holder releases the lock. -/
theorem Exclusive.free (h : Exclusive s) {party : LockParty} (held : s.holder = some party)
    {phase : TrainerPhase} {savers : Dict Nat SaverPhase} (trainer : phase.asHolder = false)
    (saver : ∀ i p, (i, p) ∈ savers.items → p.asHolder = false) :
    Exclusive { s.free party with trainer := phase, savers := savers } where
  trainer holds := by
    rw [trainer] at holds
    contradiction
  saver i p hp holds := by
    rw [saver i p hp] at holds
    contradiction
  freed e he := by
    rcases List.mem_append.mp he with old | new
    · exact h.freed e old
    · rw [held] at new
      cases List.mem_singleton.mp new
      rfl

/-- While one party holds the lock no other is at work under it. -/
theorem Exclusive.others (h : Exclusive s) {party : LockParty} (held : s.holder = some party) :
    (s.trainer.asHolder = true → party = .trainer) ∧
      ∀ i p, (i, p) ∈ s.savers.items → p.asHolder = true → party = .saver i := by
  constructor
  · intro holds
    have eq := h.trainer holds
    rw [held] at eq
    exact Option.some.inj eq
  · intro i p hp holds
    have eq := h.saver i p hp holds
    rw [held] at eq
    exact Option.some.inj eq

theorem Exclusive.trainerRelease (h : Exclusive s) (taken : s.trainerRelease = some t) :
    Exclusive t := by
  unfold ShmLock.trainerRelease at taken
  split at taken
  · next phase =>
    split at taken
    · cases taken
      exact h.setTrainer nofun
    · cases taken
      exact h.setTrainer fun _ ↦ (by rw [phase]; rfl)
  · next phase =>
    split at taken
    · cases taken
      exact h.setTrainer nofun
    · cases taken
      have held : s.holder = some .trainer := h.trainer (by rw [phase]; rfl)
      refine h.free held rfl ?_
      intro i p hp
      by_contra holds
      rw [Bool.not_eq_false] at holds
      cases (h.others held).2 i p hp holds
  · cases taken

/-- A saver thread that holds the lock releases it and goes on, or ends. -/
theorem Exclusive.saverFree (h : Exclusive s) {thread : Nat} {phase : SaverPhase}
    (savers : Dict Nat SaverPhase) (mem : (thread, phase) ∈ s.savers.items)
    (holds : phase.asHolder = true)
    (rest : ∀ i p, (i, p) ∈ savers.items → p.asHolder = true →
      i ≠ thread ∧ (i, p) ∈ s.savers.items) :
    Exclusive { s.free (.saver thread) with savers := savers } := by
  have held := h.saver thread phase mem holds
  apply h.free held
  · by_contra other
    rw [Bool.not_eq_false] at other
    cases (h.others held).1 other
  · intro i p hp
    by_contra other
    rw [Bool.not_eq_false] at other
    rcases rest i p hp other with ⟨ne, old⟩
    cases (h.others held).2 i p old other
    exact ne rfl

theorem Exclusive.saverStep (h : Exclusive s) {thread : Nat} {outcome : SaverOutcome}
    {phase : SaverPhase} (found : s.savers.get? thread = some phase)
    (admitted : s.Admitted (.saverStep thread outcome))
    (taken : s.saverStep thread outcome phase = some t) : Exclusive t := by
  have mem : (thread, phase) ∈ s.savers.items := Dict.get?_eq_some_iff.mp found
  cases phase with
  | starting =>
    simp only [ShmLock.saverStep] at taken
    split at taken
    · cases taken
      exact h.setSaver mem nofun
    · cases taken
      exact h.setSaver mem nofun
  | acquiring =>
    simp only [ShmLock.saverStep, Option.ite_none_right_eq_some, Option.some.injEq] at taken
    rcases taken with ⟨free, rfl⟩
    rcases h.idle free with ⟨trainer, savers⟩
    refine ⟨?_, ?_, h.freed⟩
    · intro holds
      exact absurd (trainer.symm.trans holds) Bool.false_ne_true
    · intro i p hp holds
      rcases Dict.mem_items_insert.mp hp with ⟨rfl, rfl⟩ | ⟨-, old⟩
      · rfl
      · exact absurd ((savers i p old).symm.trans holds) Bool.false_ne_true
  | checking =>
    simp only [ShmLock.saverStep] at taken
    split at taken
    · cases taken
      exact h.setSaver mem fun _ ↦ rfl
    · cases taken
      exact h.setSaver mem fun _ ↦ rfl
    · cases taken
      exact h.setSaver mem fun _ ↦ rfl
  | persisting =>
    simp only [ShmLock.saverStep] at taken
    split at taken
    · cases taken
      exact h.setSaver mem fun _ ↦ rfl
    · cases taken
      exact h.setSaver mem fun _ ↦ rfl
  | bodyTest matched =>
    simp only [ShmLock.saverStep] at taken
    split at taken
    · cases taken
      exact h.setSaver mem fun _ ↦ rfl
    · cases taken
      exact h.setSaver mem fun _ ↦ rfl
  | bodyFree matched =>
    simp only [ShmLock.saverStep] at taken
    split at taken
    · cases taken
      exact h.setSaver mem nofun
    · cases taken
      apply h.saverFree (s.savers.insert thread _) mem rfl
      intro i p hp holds
      rcases Dict.mem_items_insert.mp hp with ⟨-, rfl⟩ | ⟨ne, old⟩
      · cases matched with
        | true => contradiction
        | false => contradiction
      · exact ⟨ne, old⟩
  | doneFile =>
    simp only [ShmLock.saverStep, Option.some.injEq] at taken
    subst taken
    exact h.setSaver mem nofun
  | finalTest holds =>
    simp only [ShmLock.saverStep] at taken
    split at taken
    · cases taken
      exact h.erase thread
    · next locked =>
      cases taken
      cases holds with
      | true => exact h.setSaver mem fun _ ↦ rfl
      | false => exact absurd (admitted found) locked
  | finalFree holds =>
    simp only [ShmLock.saverStep] at taken
    split at taken
    · cases taken
      exact h.erase thread
    · cases taken
      apply h.saverFree (s.savers.erase thread) mem rfl
      intro i p hp _
      rcases Dict.mem_items_erase.mp hp with ⟨old, ne⟩
      exact ⟨ne, old⟩

/-- One step of either party keeps the lock exclusive. -/
theorem step_exclusive {a : LockAct} (h : Exclusive s) (admitted : s.Admitted a)
    (taken : s.step a = some t) : Exclusive t := by
  cases a with
  | save blocking =>
    rw [step, Option.ite_none_right_eq_some, Option.some.injEq] at taken
    rcases taken with ⟨-, rfl⟩
    unfold ShmLock.save
    split
    · exact h.setTrainer nofun
    · split
      · next free => exact h.trainerTakes free
      · exact h.setTrainer nofun
  | acquire =>
    rw [step, Option.ite_none_right_eq_some, Option.some.injEq] at taken
    rcases taken with ⟨⟨-, free⟩, rfl⟩
    exact h.trainerTakes free
  | check allReady nonempty =>
    simp only [step] at taken
    split at taken
    · next acquired phase =>
      rw [Option.ite_none_left_eq_some, Option.some.injEq] at taken
      rcases taken with ⟨ready, rfl⟩
      unfold ShmLock.check
      split
      · next writes =>
        apply h.setTrainer
        intro _
        rw [phase]
        rw [Bool.and_eq_true] at writes
        rw [writes.1, Bool.true_and, Bool.not_eq_true', Bool.not_eq_false] at ready
        exact ready
      · split
        · next acquired => exact h.setTrainer fun _ ↦ (by rw [phase]; exact acquired)
        · exact h.setTrainer nofun
    · cases taken
  | written =>
    simp only [step] at taken
    split at taken
    · next acquired phase =>
      cases taken
      unfold ShmLock.written
      split
      · exact h.setTrainer fun _ ↦ (by rw [phase]; rfl)
      · exact h.setTrainer nofun
    · cases taken
  | trainerRaise =>
    simp only [step] at taken
    split at taken
    · cases taken
      exact h.setTrainer nofun
    · cases taken
      exact h.setTrainer nofun
    · cases taken
  | trainerRelease => exact h.trainerRelease taken
  | saverStart thread =>
    rw [step, Option.ite_none_left_eq_some, Option.some.injEq] at taken
    rcases taken with ⟨-, rfl⟩
    refine ⟨h.trainer, ?_, h.freed⟩
    intro i p hp holds
    rcases Dict.mem_items_insert.mp hp with ⟨-, rfl⟩ | ⟨-, old⟩
    · contradiction
    · exact h.saver i p old holds
  | saverStep thread outcome =>
    rcases Option.bind_eq_some_iff.mp taken with ⟨phase, found, taken⟩
    exact h.saverStep found admitted taken

/-- Over every run in which each final release of a thread without the lock finds the lock free:
no thread persists the shared memory while the trainer writes it, and no release frees a lock that
another party holds. -/
theorem lock_exclusive {acts : List LockAct} (run : Run step Admitted init acts s) :
    (∀ acquired, s.trainer = .writing acquired →
      ∀ thread, (thread, SaverPhase.persisting) ∉ s.savers.items) ∧
    ∀ e ∈ s.freed, e.1 = e.2 := by
  have h : Exclusive s := by
    apply run.invariant (P := Exclusive) exclusive_init
    intro t u a h admitted taken
    exact step_exclusive h admitted taken
  refine ⟨?_, h.freed⟩
  intro acquired writing thread persisting
  have trainer : s.holder = some .trainer := h.trainer (by rw [writing]; rfl)
  cases (h.others trainer).2 thread _ persisting rfl

/-- A `_save_shard` up to the end of `persist_to_storage`. -/
def saveShard : List LockAct :=
  .saverStart 0 :: List.replicate 4 (.saverStep 0 .ok)

/-- A thread persists and ends before the trainer takes the lock; the trainer writes. -/
theorem lock_exclusive_in_turn :
    ∃ acts s, Run step Admitted init acts s ∧ s.trainer = .writing true ∧
      (∀ thread, (thread, SaverPhase.persisting) ∉ s.savers.items) ∧
      s.freed = [(.saver 0, .saver 0)] ∧ ∀ e ∈ s.freed, e.1 = e.2 := by
  have eval : ((saveShard ++ ([.saverStep 0 .ok, .saverStep 0 .ok, .saverStep 0 .ok,
      .saverStep 0 .ok, .save false, .check true true] : List LockAct)).foldlM
      (fun s a ↦ if Admitted s a then step s a else none) init).map (fun s ↦ decide (
        s.trainer = .writing true ∧ s.freed = [(.saver 0, .saver 0)])) = some true := by
    decide +kernel
  rcases Option.map_eq_some_iff.mp eval with ⟨s, hs, holds⟩
  rcases of_decide_eq_true holds with ⟨writing, freed⟩
  have run := run_of_guarded hs
  rcases lock_exclusive run with ⟨apart, owned⟩
  exact ⟨_, s, run, writing, apart true writing, freed, owned⟩

/-- The trainer takes the lock after a thread has released it in its body; the release of the
`finally` frees it, and the next thread persists while the trainer writes. -/
theorem lock_shared :
    ∃ acts s, Run step anyStep init acts s ∧ s.trainer = .writing true ∧
      (1, SaverPhase.persisting) ∈ s.savers.items ∧ (.saver 0, .trainer) ∈ s.freed := by
  have eval : ((saveShard ++ ([.saverStep 0 .ok, .saverStep 0 .ok, .save false, .check true true,
      .saverStep 0 .ok, .saverStep 0 .ok, .saverStep 0 .ok, .saverStart 1, .saverStep 1 .ok,
      .saverStep 1 .ok, .saverStep 1 .ok] : List LockAct)).foldlM step init).map (fun s ↦ decide (
        s.trainer = .writing true ∧ (1, SaverPhase.persisting) ∈ s.savers.items ∧
        (.saver 0, .trainer) ∈ s.freed)) = some true := by
    decide +kernel
  rcases Option.map_eq_some_iff.mp eval with ⟨s, hs, holds⟩
  exact ⟨_, s, run_of_foldlM hs, of_decide_eq_true holds⟩

end ShmLock

end ProbingBaselines.Dlrover
