import Mathlib.Logic.Function.Basic
import ProbingBaselines.Lib.Dict
import ProbingBaselines.Lib.Run

/-!
# The checkpoint saver with a common directory

`CommonDirCheckpointSaver` on any number of nodes over one storage. The trainer of a shard saves its
state dicts to the shared memory of the shard. The saver of a node persists a step with one thread a
shard, each of which writes a done file; the saver of rank 0 counts the done files and writes the
tracker file. Trainers, savers and threads interleave, writes to the storage fail, and a trainer can
crash at any point.
-/

namespace ProbingBaselines.Dlrover.CommonDir

open Lib

/-- The shards of a training, by the ranks that save them. -/
structure Sharding where
  ranks : List Nat
  nodup : ranks.Nodup

/-- A state dict that a trainer saves, with its configuration. `states` are the names of the states
that are not empty, `paths` those the configuration has a path for; `id` tells the saves apart. -/
structure Save where
  id : Nat
  rank : Nat
  step : Nat
  paths : List String
  states : List String
deriving DecidableEq

/-- The metadata of a shard: the configuration with its flag `writing_shm`, the segment that holds
the tensors, and the names of the states in the tree. -/
structure Config where
  save : Save
  writing : Bool
  segment : Nat
  states : List String

/-- Where `save_state_dict_to_memory` and `save_state_dict` stand (`engine.py:365-404`,
`ckpt_saver.py:303-333`). `first` says that the metadata are made from the state dict; `rest` are
the states that are still to be copied. -/
inductive TrainerStage where
  | idle
  | checking (save : Save)
  | creating (save : Save)
  | marking (segment : Nat) (first : Bool) (save : Save)
  | copying (segment : Nat) (save : Save) (rest : List String)
  | releasing
deriving DecidableEq

/-- A shard on its node. `config` are the metadata on the host and `ownConfig` the copy of the
trainer's process. `content` says for a segment and a state of whose save its tensors are; without
an entry they are of none. `linked` is the segment under the name of the shard, `handle` the one the
agent has open and `attached` the one the trainer has. `acquired` is what the thread that serves the
trainer's connection remembers of the lock. -/
structure Shard where
  config : Option Config
  ownConfig : Option Config
  content : Dict (Nat × String) Save
  segments : Nat
  linked : Option Nat
  handle : Option Nat
  needCreation : Bool
  attached : Option Nat
  locked : Bool
  acquired : Bool
  trainer : TrainerStage

inductive TrainerAct where
  | save (rank step : Nat) (paths states : List String) (blocking : Bool)
  | agree (allReady : Bool)
  | create (sameSize : Bool)
  | mark (delivered : Bool)
  | copy (fits : Bool)
  | finish (delivered : Bool)
  | release
  | raise
  | crash
  | attach
deriving DecidableEq

/-- The save that an act begins. -/
def TrainerAct.begun (id : Nat) : TrainerAct → List Save
  | .save rank step paths states _ => [⟨id, rank, step, paths, states⟩]
  | _ => []

namespace Shard

def init : Shard := ⟨none, none, .empty, 0, none, none, true, none, false, false, .idle⟩

/-- The step in the memory, 0 without a configuration. -/
def memoryStep (s : Shard) : Nat := (s.config.map fun c ↦ c.save.step).getD 0

/-- `init_shared_memory(create=False)` of the agent. -/
def reopen (s : Shard) : Shard := { s with handle := s.linked, needCreation := false }

/-- `shm_lock.release()`, whoever holds the lock. -/
def unlock (s : Shard) : Shard := { s with locked := false }

/-- The metadata `save_state_dict` sets at first: those of the state dict or the ones it has, marked
as being written. -/
def markedConfig (s : Shard) (segment : Nat) (first : Bool) (save : Save) : Option Config :=
  if first then some ⟨save, true, segment, save.states⟩
  else s.ownConfig.map fun c ↦ { c with writing := true }

/-- One step of the trainer, `id` being free. A copy of a state that does not fit the tree leaves
tensors that are of no save. An exception leaves the lock as it is; a crash closes the connection,
and the thread that serves it releases the lock if it remembers to have acquired it
(`multi_process.py:284-333`). -/
def trainerStep (s : Shard) (id : Nat) : TrainerAct → Option Shard
  | .save rank step paths states blocking =>
    match s.trainer with
    | .idle =>
      if s.locked then
        if blocking then none
        else some { s with acquired := false, trainer := .checking ⟨id, rank, step, paths, states⟩ }
      else
        some { s with
          locked := true
          acquired := true
          trainer := .checking ⟨id, rank, step, paths, states⟩ }
    | _ => none
  | .agree allReady =>
    match s.trainer with
    | .checking save =>
      if allReady then
        if s.acquired then
          match s.attached with
          | none => some { s with trainer := .creating save }
          | some segment => some { s with trainer := .marking segment false save }
        else none
      else if s.acquired then some { s with trainer := .releasing }
      else some { s with trainer := .idle }
    | _ => none
  | .create sameSize =>
    match s.trainer with
    | .creating save =>
      match s.linked, sameSize with
      | some segment, true =>
        some { s with attached := some segment, trainer := .marking segment true save }
      | _, _ =>
        some { s with
          segments := s.segments + 1
          linked := some s.segments
          attached := some s.segments
          trainer := .marking s.segments true save }
    | _ => none
  | .mark delivered =>
    match s.trainer with
    | .marking segment first save =>
      match s.markedConfig segment first save with
      | none => none
      | some own =>
        if delivered then
          some { s with
            ownConfig := some own
            config := some own
            trainer := .copying segment save save.states }
        else some { s with ownConfig := some own, trainer := .idle }
    | _ => none
  | .copy fits =>
    match s.trainer with
    | .copying segment save (name :: rest) =>
      some { s with
        content := if fits then s.content.insert (segment, name) save
          else s.content.erase (segment, name)
        trainer := .copying segment save rest }
    | _ => none
  | .finish delivered =>
    match s.trainer with
    | .copying segment save [] =>
      let old := ((s.ownConfig.map Config.states).getD []).filter fun name ↦ name ∉ save.states
      let own : Option Config := some ⟨save, false, segment, save.states ++ old⟩
      if delivered then some { s with ownConfig := own, config := own, trainer := .releasing }
      else some { s with ownConfig := own, trainer := .idle }
    | _ => none
  | .release =>
    match s.trainer with
    | .releasing => some { s with locked := false, acquired := false, trainer := .idle }
    | _ => none
  | .raise => if s.trainer = .idle then none else some { s with trainer := .idle }
  | .crash =>
    some { s with
      ownConfig := none
      attached := none
      locked := if s.acquired then false else s.locked
      acquired := false
      trainer := .idle }
  | .attach =>
    match s.trainer, s.attached, s.config, s.linked with
    | .idle, none, some c, some segment =>
      if c.writing then none else some { s with ownConfig := some c, attached := some segment }
    | _, _, _, _ => none

/-- `persist_to_storage` up to its loop, with `load_state_dict` (`ckpt_saver.py:1079-1087`,
`335-358`): the segment it reads and the states it is going to write, if it writes any. -/
def load (s : Shard) (config : Save) : Shard × Option (Nat × List String) :=
  match config.paths, s.config with
  | [], _ => (s, none)
  | _, none => (s, none)
  | paths, some c =>
    if c.writing then (s, none)
    else
      let opened := if s.handle = none ∨ s.needCreation then s.reopen else s
      match opened.handle with
      | none => (opened, none)
      | some segment => (opened, some (segment, c.states.filter fun name ↦ name ∈ paths))

end Shard

/-- Where a `_save_shard` stands (`ckpt_saver.py:680-735`): before `init_shared_memory`, before
`acquire`, before the test of the step, before and in `persist_to_storage` with the states still to
be written, before the `release` of the body, before the done file, and before the `release` of the
`finally`. -/
inductive ThreadStage where
  | starting
  | acquiring
  | checking
  | loading
  | writing (segment : Nat) (rest : List String)
  | releasing
  | marking
  | final (saved : Bool)
  | ended (saved : Bool)

/-- A `_save_shard` with the configuration it was given. -/
structure Thread where
  node : Nat
  dir : String
  step : Nat
  config : Save
  stage : ThreadStage

/-- Where `save_step_checkpoint` and `commit_checkpoint` stand. `sharding` is what the done files
were counted against. -/
inductive CallStage where
  | checking
  | making
  | submitting (next : Nat)
  | collecting
  | committing
  | tracking (sharding : Sharding)
  | cleaning

/-- A call of `save_step_checkpoint`. -/
structure Call where
  node : Nat
  dir : String
  step : Nat
  stage : CallStage

/-- The saver of a node. `sharding` is the training's when it last told `global_shard_num`. -/
structure Node where
  localShardNum : Nat
  rank : Nat
  checkpointDir : String
  sharding : Sharding
  writingStorage : Bool
  latestStep : Nat
  stopCommit : Bool

/-- The number of shards the saver was told. -/
def Node.globalShardNum (n : Node) : Nat := n.sharding.ranks.length

/-- A step that was written to the tracker file. -/
structure Commit where
  dir : String
  step : Nat
  sharding : Sharding

/-- The nodes with their shards, the calls of `save_step_checkpoint` with their threads, and the
storage: the directories of done files and the tracker files. A thread is under its call and the
shard on its node. `saves` lists the state dicts that trainers began to save, `written` the states
of them that were written to their paths, and `commits` the steps written to a tracker file. -/
structure Saver where
  shards : Nat × Nat → Shard
  nodes : Nat → Node
  calls : Dict Nat Call
  threads : Dict (Nat × Nat) Thread
  nextCall : Nat
  saves : List Save
  doneDirs : Dict (String × Nat) (List Nat)
  tracker : Dict String Nat
  written : List (Save × String)
  commits : List Commit

/-- The steps of a call of `save_step_checkpoint`. -/
inductive CallAct where
  | check
  | giveUp
  | makeDir
  | submit
  | collect (raised : Bool)
  | commit
  | timeout
  | track (written : Bool)
  | clean
deriving DecidableEq

inductive SaverAct where
  | trainer (shard : Nat × Nat) (act : TrainerAct)
  | save (node step : Nat)
  | breakpoint (node : Nat) (synced : Option Bool)
  | call (id : Nat) (act : CallAct)
  | thread (key : Nat × Nat) (raises : Bool)
  | updateShard (node : Nat) (sharding : Sharding)
  | register (node : Nat) (checkpointDir : String) (rank : Nat)
  | reset (node : Nat)

namespace Saver

def init (nodes : Nat → Node) : Saver :=
  ⟨fun _ ↦ .init, nodes, .empty, .empty, 0, [], .empty, .empty, [], []⟩

def setShard (s : Saver) (k : Nat × Nat) (shard : Shard) : Saver :=
  { s with shards := Function.update s.shards k shard }

def setNode (s : Saver) (n : Nat) (node : Node) : Saver :=
  { s with nodes := Function.update s.nodes n node }

def setStage (s : Saver) (id : Nat) (call : Call) (stage : CallStage) : Saver :=
  { s with calls := s.calls.insert id { call with stage := stage } }

def setThread (s : Saver) (key : Nat × Nat) (th : Thread) (stage : ThreadStage) : Saver :=
  { s with threads := s.threads.insert key { th with stage := stage } }

/-- The call raises: `_writing_storage` stays as it is. -/
def dropCall (s : Saver) (id : Nat) : Saver := { s with calls := s.calls.erase id }

/-- The call returns. -/
def endCall (s : Saver) (id : Nat) (call : Call) : Saver :=
  (s.setNode call.node { s.nodes call.node with writingStorage := false }).dropCall id

/-- `save_step_checkpoint` is called. -/
def start (s : Saver) (node step : Nat) : Saver :=
  { s with
    calls := s.calls.insert s.nextCall ⟨node, "", step, .checking⟩
    nextCall := s.nextCall + 1 }

/-- `save_shm_to_storage` (`ckpt_saver.py:795-850`), `synced` being the answer of the master when
there is one. A call for a step that was read before the others saved is a call like that of an
event. -/
def saveShmToStorage (s : Saver) (node : Nat) (synced : Option Bool) : Saver :=
  let n := s.nodes node
  let shards := (List.range n.localShardNum).map fun i ↦ s.shards (node, i)
  match shards.map Shard.memoryStep with
  | [] => s
  | step :: steps =>
    if 0 ∈ step :: steps then s
    else if steps.any fun other ↦ other ≠ step then s
    else if synced = some false then s.setNode node { n with stopCommit := true }
    else if n.writingStorage || shards.any Shard.locked then s
    else if n.latestStep < step then s.start node step
    else s

/-- `_check_shard_step_consistence` (`ckpt_saver.py:777-793`). -/
def consistent (s : Saver) (call : Call) : Bool :=
  (List.range (s.nodes call.node).localShardNum).all fun i ↦
    (s.shards (call.node, i)).memoryStep = 0 || (s.shards (call.node, i)).memoryStep = call.step

/-- The loop that submits a `_save_shard` for each local shard whose step is not 0
(`ckpt_saver.py:984-998`). -/
def submit (s : Saver) (id : Nat) (call : Call) (next : Nat) : Saver :=
  if next < (s.nodes call.node).localShardNum then
    match (s.shards (call.node, next)).config with
    | some c =>
      if c.save.step = 0 then s.setStage id call (.submitting (next + 1))
      else
        { s with
          threads := s.threads.insert (id, next) ⟨call.node, call.dir, call.step, c.save, .starting⟩
        }.setStage id call (.submitting (next + 1))
    | none => s.setStage id call (.submitting (next + 1))
  else s.setStage id call .collecting

/-- The results of the threads of a call, when all have ended. -/
def results (s : Saver) (id : Nat) : Option (List Bool) :=
  (s.threads.items.filter fun e ↦ e.1.1 = id).mapM fun e ↦
    match e.2.stage with
    | .ended saved => some saved
    | _ => none

/-- The end of `save_step_checkpoint` before the commit (`ckpt_saver.py:1000-1027`). -/
def collect (s : Saver) (id : Nat) (call : Call) (results : List Bool) : Saver :=
  let n := s.nodes call.node
  if results.all (· = true) then
    if n.rank = 0 then
      (s.setNode call.node { n with latestStep := call.step, stopCommit := false }).setStage id call
        .committing
    else (s.setNode call.node { n with latestStep := call.step }).endCall id call
  else s.endCall id call

/-- A round of `commit_checkpoint` (`ckpt_saver.py:1043-1057`): `listdir` raises without the
directory. -/
def commit (s : Saver) (id : Nat) (call : Call) : Saver :=
  if (s.nodes call.node).stopCommit then s.endCall id call
  else
    match s.doneDirs.get? (call.dir, call.step) with
    | none => s.dropCall id
    | some ranks =>
      if ranks.length = (s.nodes call.node).globalShardNum then
        s.setStage id call (.tracking (s.nodes call.node).sharding)
      else s

/-- One step of `_save_shard` (`ckpt_saver.py:680-735`). -/
def threadStep (s : Saver) (key : Nat × Nat) (th : Thread) (raises : Bool) : Option Saver :=
  let k := (th.node, key.2)
  let shard := s.shards k
  match th.stage with
  | .starting =>
    if raises then some (s.setThread key th (.final false))
    else
      some ((s.setShard k (if shard.handle = none then shard.reopen else shard)).setThread key th
        .acquiring)
  | .acquiring =>
    if shard.locked then none
    else some ((s.setShard k { shard with locked := true }).setThread key th .checking)
  | .checking =>
    if raises then some (s.setThread key th (.final false))
    else if shard.memoryStep = th.step then some (s.setThread key th .loading)
    else some ((s.setShard k shard.unlock).setThread key th (.final false))
  | .loading =>
    if raises then some (s.setThread key th (.final false))
    else
      match shard.load th.config with
      | (opened, none) => some ((s.setShard k opened).setThread key th .releasing)
      | (opened, some (segment, states)) =>
        some ((s.setShard k opened).setThread key th (.writing segment states))
  | .writing segment (name :: rest) =>
    if raises then some (s.setThread key th (.final false))
    else
      some ({ s with
        written := s.written ++ (shard.content.get? (segment, name)).toList.map (·, name)
      }.setThread key th (.writing segment rest))
  | .writing _ [] => some (s.setThread key th .releasing)
  | .releasing => some ((s.setShard k shard.unlock).setThread key th .marking)
  | .marking =>
    match raises, s.doneDirs.get? (th.dir, th.step) with
    | false, some ranks =>
      some ({ s with
        doneDirs := s.doneDirs.insert (th.dir, th.step) (ranks.insert th.config.rank)
      }.setThread key th (.final true))
    | _, _ => some (s.setThread key th (.final false))
  | .final saved => some ((s.setShard k shard.unlock).setThread key th (.ended saved))
  | .ended _ => none

/-- One step of a call of `save_step_checkpoint` (`ckpt_saver.py:962-1077`); the tracker file is in
the checkpoint directory of the moment. -/
def callStep (s : Saver) (id : Nat) (call : Call) (act : CallAct) : Option Saver :=
  let n := s.nodes call.node
  match act, call.stage with
  | .check, .checking =>
    if s.consistent call then
      some ((s.setNode call.node { n with writingStorage := true }).setStage id
        { call with dir := n.checkpointDir } .making)
    else none
  | .giveUp, .checking => if s.consistent call then none else some (s.dropCall id)
  | .makeDir, .making =>
    some ({ s with
      doneDirs := if n.rank = 0 then s.doneDirs.insert (call.dir, call.step) [] else s.doneDirs
    }.setStage id call (.submitting 0))
  | .submit, .submitting next => some (s.submit id call next)
  | .collect raised, .collecting =>
    if raised then some (s.dropCall id) else (s.results id).map (s.collect id call)
  | .commit, .committing => some (s.commit id call)
  | .timeout, .committing =>
    some ({ s with doneDirs := s.doneDirs.erase (call.dir, call.step) }.endCall id call)
  | .track written, .tracking sharding =>
    if written then
      some ({ s with
        tracker := s.tracker.insert n.checkpointDir call.step
        commits := s.commits ++ [Commit.mk n.checkpointDir call.step sharding]
      }.setStage id call .cleaning)
    else some (s.dropCall id)
  | .clean, .cleaning =>
    some ({ s with doneDirs := s.doneDirs.erase (call.dir, call.step) }.endCall id call)
  | _, _ => none

/-- `reset` when the training processes restart (`ckpt_saver.py:675-678,883-889`). -/
def reset (s : Saver) (node : Nat) : Saver :=
  { s.setNode node { s.nodes node with stopCommit := true } with
    shards := fun k ↦
      if k.1 = node ∧ k.2 < (s.nodes node).localShardNum then
        { s.shards k with needCreation := true, locked := false }
      else s.shards k }

def step (s : Saver) : SaverAct → Option Saver
  | .trainer k act =>
    ((s.shards k).trainerStep s.saves.length act).map fun shard ↦
      { s.setShard k shard with saves := s.saves ++ act.begun s.saves.length }
  | .save node step => some (s.start node step)
  | .breakpoint node synced => some (s.saveShmToStorage node synced)
  | .call id act => (s.calls.get? id).bind fun call ↦ s.callStep id call act
  | .thread key raises => (s.threads.get? key).bind fun th ↦ s.threadStep key th raises
  | .updateShard node sharding =>
    some (s.setNode node { s.nodes node with sharding := sharding })
  | .register node checkpointDir rank =>
    some (s.setNode node { s.nodes node with checkpointDir := checkpointDir, rank := rank })
  | .reset node => some (s.reset node)

end Saver

/-- The memory holds the save of the step whose configuration the thread was given and is not marked
as being written, the save is in the segment the thread is going to read, and there is a path for
each of its states. -/
def Shard.Readable (s : Shard) (config : Save) (step : Nat) : Prop :=
  ∃ c ∈ s.config, c.writing = false ∧ c.save = config ∧ config.step = step ∧
    (if s.handle = none ∨ s.needCreation then s.linked else s.handle) = some c.segment ∧
    ∀ name ∈ config.states, name ∈ config.paths

instance (s : Shard) (config : Save) (step : Nat) : Decidable (s.Readable config step) :=
  inferInstanceAs (Decidable (∃ c ∈ s.config, _ ∧ _ ∧ _ ∧ _ ∧ _))

/-- The thread is in `persist_to_storage`. -/
def ThreadStage.isWriting : ThreadStage → Bool
  | .writing _ _ => true
  | _ => false

/-- The thread is about to persist its shard. -/
def ThreadStage.isLoading : ThreadStage → Bool
  | .loading => true
  | _ => false

/-- The call is about to count the done files. -/
def CallStage.isCommitting : CallStage → Bool
  | .committing => true
  | _ => false

namespace Saver

/-- A copy fits the metadata, and no thread persists the shard meanwhile. -/
def CopyAdmitted (s : Saver) (k : Nat × Nat) : TrainerAct → Prop
  | .copy fits =>
    fits = true ∧ ∀ e ∈ s.threads.items, (e.2.node, e.1.2) = k → e.2.stage.isWriting = false
  | _ => True

instance (s : Saver) (k : Nat × Nat) : DecidablePred (s.CopyAdmitted k)
  | .copy fits => inferInstanceAs (Decidable (fits = true ∧ ∀ e ∈ s.threads.items, _))
  | .save _ _ _ _ _ | .agree _ | .create _ | .mark _ | .finish _ | .release | .raise | .crash
  | .attach => inferInstanceAs (Decidable True)

/-- If there are as many done files as shards they are those of the shards. -/
def CountAdmitted (s : Saver) (call : Call) : Prop :=
  (s.nodes call.node).stopCommit = false → ∀ ranks ∈ s.doneDirs.get? (call.dir, call.step),
    ranks.length = (s.nodes call.node).globalShardNum →
      ∀ r ∈ ranks, r ∈ (s.nodes call.node).sharding.ranks

instance (s : Saver) (call : Call) : Decidable (s.CountAdmitted call) :=
  inferInstanceAs (Decidable (_ → ∀ ranks ∈ s.doneDirs.get? (call.dir, call.step), _))

/-- When a committed checkpoint is complete: a thread that persists its shard finds the memory
readable, a trainer's copy is admitted, and so is the count of a commit. -/
def Admitted (s : Saver) : SaverAct → Prop
  | .trainer k act => s.CopyAdmitted k act
  | .thread key raises =>
    ∀ th ∈ s.threads.get? key, th.stage.isLoading = true → raises = false →
      (s.shards (th.node, key.2)).Readable th.config th.step
  | .call id act =>
    act = .commit → ∀ call ∈ s.calls.get? id, call.stage.isCommitting = true → s.CountAdmitted call
  | _ => True

instance (s : Saver) : DecidablePred s.Admitted
  | .trainer k act => inferInstanceAs (Decidable (s.CopyAdmitted k act))
  | .thread key raises =>
    inferInstanceAs (Decidable (∀ th ∈ s.threads.get? key, th.stage.isLoading = true →
      raises = false → (s.shards (th.node, key.2)).Readable th.config th.step))
  | .call id act =>
    inferInstanceAs (Decidable (act = .commit → ∀ call ∈ s.calls.get? id,
      call.stage.isCommitting = true → s.CountAdmitted call))
  | .save _ _ | .breakpoint _ _ | .updateShard _ _ | .register _ _ _ | .reset _ =>
    inferInstanceAs (Decidable True)

end Saver

end ProbingBaselines.Dlrover.CommonDir
