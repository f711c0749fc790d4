import Mathlib.Algebra.GroupWithZero.Nat
import Mathlib.Data.List.FinRange
import Mathlib.Logic.Function.Basic
import ProbingBaselines.Dlrover.ShmRoundTrip

/-!
# FSDP checkpoints in the shared memory

Every rank writes the items of its part of a distributed checkpoint into a segment of its own and
then puts the configuration of the step, with the metadata that rank 0 has gathered and broadcast,
into a dict that the agent of its node keeps. The next save overwrites the segment in place, and the
dict keeps what it has until the save is over. `SharedLock` guards the segment: the trainer holds it
for the length of a save, and `_save_shard` of the agent while it persists the segment. A release
frees the lock whoever holds it, and so does the agent when the connection of a trainer that holds
it closes.
-/

namespace ProbingBaselines.Dlrover

open Lib

/-! ### The items of a save -/

/-- `MetadataIndex` of the distributed checkpoint; its third field does not count for equality. -/
structure MetadataIndex where
  fqn : String
  offset : Option (List Nat)
deriving DecidableEq

inductive WriteItemType where
  | tensor
  | shard
  | byteIo
deriving DecidableEq

/-- An item that a rank has to write, with the bytes that the planner resolves it to. `tensorSize`
is the `_tensor_item_size` of its `tensor_data`, which for a shard is the size of the whole tensor
(`fsdp_engine.py:110-117`); a `BYTE_IO` item has none. -/
structure WriteItem where
  index : MetadataIndex
  type : WriteItemType
  data : List UInt8
  tensorSize : Nat

/-- `_StorageInfo`. -/
structure StorageInfo where
  relativePath : String
  offset : Nat
  length : Nat
deriving DecidableEq

structure WriteResult where
  index : MetadataIndex
  sizeInBytes : Nat
  storageData : StorageInfo

/-- What a `SharedMemoryWriter` keeps in `self.metadata`; of the `dcp_metadata` only the
`storage_data` that `finish` puts there (`fsdp_engine.py:225-232`). -/
structure WriterMetadata where
  noShardData : Dict String (List UInt8)
  storageData : Dict MetadataIndex StorageInfo
deriving DecidableEq

/-- The dict that a rank shares with the agent: `meta_dict` of `save_to_memory`. -/
structure FsdpMeta where
  config : CheckpointConfig
  writer : WriterMetadata
deriving DecidableEq

/-- The bytes of some items, one behind the other. -/
def itemBytes (items : List WriteItem) : List UInt8 := items.flatMap (·.data)

/-- What an item adds to the size of the segment. -/
def WriteItem.bufferSize (item : WriteItem) : Nat :=
  if item.type ≠ .byteIo then item.tensorSize else item.data.length

/-- `_get_buffer_size` (`fsdp_engine.py:120-130`). -/
def getBufferSize (items : List WriteItem) : Nat := (items.map WriteItem.bufferSize).sum

/-- The results of `_write_item` for the items from an offset on (`fsdp_engine.py:133-155`). -/
def writeResults (storageKey : String) (offset : Nat) : List WriteItem → List WriteResult
  | [] => []
  | item :: items =>
    ⟨item.index, item.data.length, ⟨storageKey, offset, item.data.length⟩⟩ ::
      writeResults storageKey (offset + item.data.length) items

/-- The data of all items but the shards, by the name of the value (`fsdp_engine.py:101-102`). -/
def noShardData (items : List WriteItem) : Dict String (List UInt8) :=
  .ofItems ((items.filter (·.type ≠ .shard)).map fun item ↦ (item.index.fqn, item.data))

/-- A call of `dist_cp.save_state_dict`: the step and the directory of the checkpoint, and the plan
of every rank. The ranks are the numbers up to `n`. -/
structure FsdpSave (n : Nat) where
  step : Nat
  dir : String
  plans : Fin (n + 1) → List WriteItem

/-- `self.file_name` of a rank (`fsdp_engine.py:196, 208`). -/
def shardFile (rank : Nat) : String := "__" ++ toString rank ++ "_0.distcp"

namespace FsdpSave

variable {n : Nat}

def results (save : FsdpSave n) (r : Fin (n + 1)) : List WriteResult :=
  writeResults (shardFile r) 0 (save.plans r)

/-- `finish` of the coordinator, over the metadata that its `write_data` has left
(`fsdp_engine.py:220, 225-232`). -/
def writerMetadata (save : FsdpSave n) : WriterMetadata where
  noShardData := noShardData (save.plans ⟨0, n.succ_pos⟩)
  storageData := .ofItems ((List.finRange (n + 1)).flatMap fun r ↦
    (save.results r).map fun w ↦ (w.index, w.storageData))

/-- `conf` as it is when `metadata.set` sends it: `writing_shm` is still set
(`fsdp_engine.py:502-503, 517-521`). -/
def config (save : FsdpSave n) (r : Fin (n + 1)) : CheckpointConfig :=
  ⟨0, 0, 0, save.step, true, some (.ofItems [("model_states", save.dir ++ "/" ++ shardFile r)])⟩

def metaDict (save : FsdpSave n) (r : Fin (n + 1)) : FsdpMeta :=
  ⟨save.config r, save.writerMetadata⟩

end FsdpSave

/-! ### One rank -/

/-- Who has acquired the lock of a segment: the trainer or a thread of the agent. -/
inductive ShmHolder where
  | trainer
  | saver (thread : Nat)
deriving DecidableEq

/-- Where the trainer of a rank stands in `save_to_memory` (`fsdp_engine.py:471-526`). `entered`
waits for the ranks to agree, `opening` is before the segment is there, `writing k` after `k` items,
`finished` after `save_state_dict`, `received` after the broadcast and `releasing` before the
release of the lock, if the rank has acquired it. -/
inductive FsdpPhase where
  | idle
  | entered (step : Nat) (acquired : Bool)
  | opening
  | writing (items : Nat)
  | finished
  | received (metadata : WriterMetadata)
  | releasing (acquired : Bool)
  | down
deriving DecidableEq

/-- `shared_memory` of the agent's handler: nothing, the segment of the rank, or one that the rank
has since unlinked. -/
inductive AgentHandle where
  | none
  | linked
  | unlinked (bytes : List UInt8)
deriving DecidableEq

/-- `attached` says that `shared_memory` of the trainer's handler is not `None`. -/
structure FsdpRank where
  phase : FsdpPhase
  segment : Option (List UInt8)
  attached : Bool
  metadata : Option FsdpMeta
  lock : Option ShmHolder
  agent : AgentHandle

namespace FsdpPhase

/-- The trainer has acquired the lock and not released it, so that its connection, when it closes,
releases the lock. -/
def holds : FsdpPhase → Bool
  | .entered _ acquired => acquired
  | .opening => true
  | .writing _ => true
  | .finished => true
  | .received _ => true
  | .releasing acquired => acquired
  | .idle => false
  | .down => false

/-- Items have been written of which the dict does not tell. -/
def torn : FsdpPhase → Bool
  | .writing items => decide (0 < items)
  | .finished => true
  | .received _ => true
  | _ => false

/-- All ranks have written all items. -/
def gathered : FsdpPhase → Bool
  | .finished => true
  | .received _ => true
  | _ => false

/-- The step that the rank has entered `save_to_memory` with. -/
def enteredStep : FsdpPhase → Option Nat
  | .entered step _ => some step
  | _ => none

end FsdpPhase

namespace FsdpRank

/-- `get_checkpoint_config(default_config).step`. -/
def step (k : FsdpRank) : Int := (k.metadata.map (·.config.step)).getD 0

def noCheckpointState (k : FsdpRank) : Bool := decide (k.step = 0)

/-- The trainer's `release()`, or that of its closing connection. -/
def unlock (k : FsdpRank) (acquired : Bool) : FsdpRank :=
  if acquired then { k with lock := none } else k

/-- The bytes that the agent's handler has, or has once it attaches itself. -/
def agentBuffer (k : FsdpRank) : Option (List UInt8) :=
  match k.agent with
  | .unlinked bytes => some bytes
  | _ => k.segment

/-- A new segment takes the place of the one of this name. -/
def replaces (k : FsdpRank) (size : Nat) : Bool :=
  CkptMemory.createSharedMemory k.segment size != k.segment

/-- `init_shared_memory(create=True)`. -/
def create (k : FsdpRank) (size : Nat) : FsdpRank :=
  { k with
    segment := CkptMemory.createSharedMemory k.segment size
    attached := true
    agent :=
      match k.agent, k.segment with
      | .linked, some bytes => if k.replaces size then .unlinked bytes else .linked
      | handle, _ => handle }

end FsdpRank

/-- The steps of a trainer that are its own. -/
inductive TrainerAct where
  | acquire (step : Nat)
  | open
  | write
  | receive
  | set
  | release
  | crash
  | read
deriving DecidableEq

namespace FsdpRank

variable {n : Nat}

/-- `write_data` up to its assertion (`fsdp_engine.py:211-214`). -/
def openSegment (k : FsdpRank) (items : List WriteItem) : Option FsdpRank :=
  if k.noCheckpointState then
    if getBufferSize items = 0 then none
    else some { k.create (getBufferSize items) with phase := .writing 0 }
  else if k.attached then some { k with phase := .writing 0 }
  else none

/-- `_write_item`; a write behind the end of the segment raises, and so does a tensor without
elements (`fsdp_engine.py:133-148`). -/
def writeItem (k : FsdpRank) (items : List WriteItem) (done : Nat) : Option FsdpRank :=
  match k.segment, items[done]? with
  | some buf, some item =>
    if (item.type ≠ .byteIo → item.data ≠ []) ∧
        (itemBytes (items.take done)).length + item.data.length ≤ buf.length then
      some { k with
        segment := some (writeBytes buf (itemBytes (items.take done)).length item.data)
        phase := .writing (done + 1) }
    else none
  | _, _ => none

/-- A step of the trainer of rank `r`, where `save` is the save that the ranks are in and `sent`
what the coordinator has broadcast. `read` is a `read_data` of the reader that `load` returns
(`fsdp_engine.py:250-252`). -/
def trainerStep (save : FsdpSave n) (sent : Option WriterMetadata) (r : Fin (n + 1))
    (k : FsdpRank) (act : TrainerAct) : Option FsdpRank :=
  match act, k.phase with
  | .acquire step, .idle =>
    if k.lock = none then some { k with lock := some .trainer, phase := .entered step true }
    else some { k with phase := .entered step false }
  | .open, .opening => k.openSegment (save.plans r)
  | .write, .writing done => k.writeItem (save.plans r) done
  | .receive, .finished => sent.map fun m ↦ { k with phase := .received m }
  | .set, .received m =>
    some { k with metadata := some ⟨save.config r, m⟩, phase := .releasing true }
  | .release, .releasing acquired => some { k.unlock acquired with phase := .idle }
  | .read, .idle => some { k with attached := k.attached || k.segment.isSome }
  | .crash, phase =>
    if phase = .down then none
    else some { k.unlock phase.holds with phase := .down, attached := false }
  | _, _ => none

end FsdpRank

/-! ### The job -/

/-- Where a `_save_shard` stands (`ckpt_saver.py:680-746`): before `init_shared_memory`, before
`acquire`, before the test of the step, before the write of `persist_to_storage`, before the
`release` of the body and before the one of the `finally`. -/
inductive ShardStage where
  | starting
  | acquiring
  | checking
  | persisting
  | bodyRelease
  | finalRelease
  | done
deriving DecidableEq

/-- The thread of the agent holds the lock. -/
def ShardStage.holds : ShardStage → Bool
  | .checking => true
  | .persisting => true
  | .bodyRelease => true
  | _ => false

/-- A call of `_save_shard` for the shard of a rank. -/
structure ShardThread (n : Nat) where
  rank : Fin (n + 1)
  step : Int
  stage : ShardStage

/-- `_latest_step` and `_writing_storage` of the saver of a node. -/
structure NodeSaver where
  latestStep : Int
  writingStorage : Bool

/-- All ranks of a job. `saves` are the calls of `save_state_dict` so far, the last one first, and
`sent` is the object that rank 0 broadcasts. -/
structure FsdpJob (n : Nat) where
  ranks : Fin (n + 1) → FsdpRank
  saves : List (FsdpSave n)
  sent : Option WriterMetadata
  threads : List (ShardThread n)
  nodes : Nat → NodeSaver

/-- The steps of a job. The ranks enter `save_to_memory` one by one and agree in `ready` whether to
save; `finish` ends the collective `save_state_dict`. `restart` starts all trainers anew; `reset` is
`AsyncCheckpointSaver.reset` of the agent of a node, which comes before the agent stops the trainers
that still run. `synced` is the answer of the master, `raises` says that the thread meets an
exception, and `endSave` ends a `save_step_checkpoint`, at any time after it began. -/
inductive FsdpAct (n : Nat) where
  | trainer (r : Fin (n + 1)) (act : TrainerAct)
  | ready (save : FsdpSave n)
  | finish
  | restart
  | reset (node : Nat)
  | saveShm (node : Nat) (synced : Option Bool)
  | saveEvent (node : Nat) (step : Int)
  | endSave (node : Nat) (saved : Option Int)
  | thread (i : Nat) (raises : Bool)

/-- A natural number to so many significant bits, ties to even. -/
def roundBits (bits x : Nat) : Nat :=
  let dropped := 2 ^ (x.log2 + 1 - bits)
  if 2 * (x % dropped) < dropped ∨ 2 * (x % dropped) = dropped ∧ x / dropped % 2 = 0 then
    x / dropped * dropped
  else (x / dropped + 1) * dropped

/-- `torch.tensor([float(step)])`: a double, then a single. -/
def float32 (step : Int) : Int := step.sign * (roundBits 24 (roundBits 53 step.natAbs) : Nat)

namespace FsdpJob

variable {n : Nat}

/-- A job before its first save: the agents have started with empty dicts, and segments may be left
from an earlier job of the same name. -/
def init (segments : Fin (n + 1) → Option (List UInt8)) : FsdpJob n where
  ranks r := ⟨.idle, segments r, false, none, none, .none⟩
  saves := []
  sent := none
  threads := []
  nodes _ := ⟨0, false⟩

/-- The save that the ranks are in, or were in last. -/
def current (s : FsdpJob n) : FsdpSave n := s.saves.headD ⟨0, "", fun _ ↦ []⟩

def setRank (s : FsdpJob n) (r : Fin (n + 1)) (k : FsdpRank) : FsdpJob n :=
  { s with ranks := Function.update s.ranks r k }

def setPhases (s : FsdpJob n) (phase : Fin (n + 1) → FsdpPhase) : FsdpJob n :=
  { s with ranks := fun r ↦ { s.ranks r with phase := phase r } }

def setThread (s : FsdpJob n) (i : Nat) (t : ShardThread n) (stage : ShardStage) : FsdpJob n :=
  { s with threads := s.threads.set i { t with stage } }

def setLock (s : FsdpJob n) (r : Fin (n + 1)) (lock : Option ShmHolder) : FsdpJob n :=
  s.setRank r { s.ranks r with lock }

/-- `check_all_rank_ready` and the branch behind it (`fsdp_engine.py:490-500`). -/
def ready (s : FsdpJob n) (save : FsdpSave n) : FsdpJob n :=
  if ∀ r, (s.ranks r).phase.holds = true then
    { s.setPhases fun _ ↦ .opening with saves := save :: s.saves }
  else s.setPhases fun r ↦ .releasing (s.ranks r).phase.holds

/-- The ranks of a node. -/
def localRanks (node : Fin (n + 1) → Nat) (k : Nat) : List (Fin (n + 1)) :=
  (List.finRange (n + 1)).filter fun r ↦ decide (node r = k)

/-- `save_step_checkpoint` up to the submission of the shards (`ckpt_saver.py:962-1000`). -/
def saveStepCheckpoint (s : FsdpJob n) (node : Fin (n + 1) → Nat) (k : Nat) (step : Int) :
    FsdpJob n :=
  if ∀ r ∈ localRanks node k, 0 < (s.ranks r).step → (s.ranks r).step = step then
    { s with
      nodes := Function.update s.nodes k { s.nodes k with writingStorage := true }
      threads := s.threads ++ ((localRanks node k).filter fun r ↦ (s.ranks r).step ≠ 0).map
        fun r ↦ ⟨r, step, .starting⟩ }
  else s

/-- `save_shm_to_storage` up to the call of `save_step_checkpoint`: the step to save, if none of its
tests turns the call away (`ckpt_saver.py:795-847`). -/
def shmStep (s : FsdpJob n) (node : Fin (n + 1) → Nat) (k : Nat) (synced : Option Bool) :
    Option Int :=
  match localRanks node k with
  | [] => none
  | first :: rest =>
    if (first :: rest).any fun r ↦ (s.ranks r).noCheckpointState then none
    else if rest.any fun r ↦ (s.ranks r).step ≠ (s.ranks first).step then none
    else if synced = some false then none
    else if (s.nodes k).writingStorage ||
        (first :: rest).any fun r ↦ (s.ranks r).lock ≠ none then none
    else if (s.nodes k).latestStep < (s.ranks first).step then some (s.ranks first).step
    else none

/-- One step of `_save_shard`; every way out of the body leads to the `finally`. -/
def threadStep (s : FsdpJob n) (i : Nat) (t : ShardThread n) (raises : Bool) :
    Option (FsdpJob n) :=
  match t.stage, raises with
  | .starting, false =>
    let k := s.ranks t.rank
    let handle := if k.agent = .none ∧ k.segment.isSome then .linked else k.agent
    some ((s.setRank t.rank { k with agent := handle }).setThread i t .acquiring)
  | .acquiring, _ =>
    if (s.ranks t.rank).lock = none then
      some ((s.setLock t.rank (some (.saver i))).setThread i t .checking)
    else none
  | .checking, false =>
    some (s.setThread i t (if (s.ranks t.rank).step = t.step then .persisting else .bodyRelease))
  | .persisting, false =>
    some (s.setThread i t
      (if (s.ranks t.rank).agent = .none then .finalRelease else .bodyRelease))
  | .bodyRelease, _ => some ((s.setLock t.rank none).setThread i t .finalRelease)
  | .finalRelease, _ => some ((s.setLock t.rank none).setThread i t .done)
  | .done, _ => none
  | _, true => some (s.setThread i t .finalRelease)

/-- A step of a job whose ranks run on the given nodes. -/
def step (node : Fin (n + 1) → Nat) (s : FsdpJob n) : FsdpAct n → Option (FsdpJob n)
  | .trainer r act => ((s.ranks r).trainerStep s.current s.sent r act).map (s.setRank r)
  | .ready save =>
    if ∀ r, (s.ranks r).phase.enteredStep = some save.step then some (s.ready save) else none
  | .finish =>
    if ∀ r, (s.ranks r).phase = .writing (s.current.plans r).length then
      some { s.setPhases fun _ ↦ .finished with sent := some s.current.writerMetadata }
    else none
  | .restart =>
    if ∀ r, (s.ranks r).phase = .down then some (s.setPhases fun _ ↦ .idle) else none
  | .reset k =>
    some { s with
      ranks := fun r ↦ if node r = k then { s.ranks r with lock := none } else s.ranks r }
  | .saveShm k synced =>
    match s.shmStep node k synced with
    | some step => some (s.saveStepCheckpoint node k step)
    | none => some s
  | .saveEvent k step => some (s.saveStepCheckpoint node k step)
  | .endSave k saved =>
    some { s with
      nodes := Function.update s.nodes k ⟨saved.getD (s.nodes k).latestStep, false⟩ }
  | .thread i raises => s.threads[i]?.bind fun t ↦ s.threadStep i t raises

/-! ### What a checkpoint in the memory has to be -/

/-- `load` returns the reader of the shared memory on all ranks (`fsdp_engine.py:568-585`), with
`verify_all_rank_step_consistent` (`engine.py:77-98`). -/
def LoadsMemory (s : FsdpJob n) : Prop :=
  (∀ r, (s.ranks r).phase = .idle) ∧
    (∀ r, float32 (s.ranks r).step = float32 (s.ranks ⟨0, n.succ_pos⟩).step) ∧
    ∀ r, (s.ranks r).noCheckpointState = false

instance (s : FsdpJob n) : Decidable s.LoadsMemory :=
  inferInstanceAs (Decidable (_ ∧ _ ∧ _))

end FsdpJob

/-- A buffer begins with the items that a save has for the rank and its dict has the metadata of
that save. What a longer buffer has behind the items belongs to no item. -/
def FsdpRank.Whole {n : Nat} (k : FsdpRank) (buf : Option (List UInt8)) (save : FsdpSave n)
    (r : Fin (n + 1)) : Prop :=
  (∃ bytes, buf = some bytes ∧ itemBytes (save.plans r) <+: bytes) ∧
    k.metadata = some (save.metaDict r)

/-- No checkpoint is read torn: when `load` returns the memory reader all ranks have the bytes and
the metadata of one save, when `save_shm_to_storage` goes on to persist a step the ranks of the node
have those of one save of that step, and so has a rank whose shard is being persisted. -/
structure FsdpJob.NeverTorn {n : Nat} (node : Fin (n + 1) → Nat) (s : FsdpJob n) : Prop where
  load : s.LoadsMemory → ∃ save ∈ s.saves, ∀ r, (s.ranks r).Whole (s.ranks r).segment save r
  shm : ∀ k synced step, s.shmStep node k synced = some step →
    ∃ save ∈ s.saves, save.step = step ∧
      ∀ r, node r = k → (s.ranks r).Whole (s.ranks r).agentBuffer save r
  persist : ∀ t ∈ s.threads, t.stage = .persisting →
    ∃ save ∈ s.saves, save.step = t.step ∧
      (s.ranks t.rank).Whole (s.ranks t.rank).agentBuffer save t.rank

/-- No trainer dies between the first item that it writes over a checkpoint and the update of the
dict; a thread of the agent frees a lock only if it is its own, and the agent frees all locks of a
node only when they are free; and no segment is replaced that the agent is attached to. -/
def FsdpJob.Admitted {n : Nat} (node : Fin (n + 1) → Nat) (s : FsdpJob n) : FsdpAct n → Prop
  | .trainer r .crash =>
    (s.ranks r).noCheckpointState = false → (s.ranks r).phase.torn = false
  | .trainer r .open =>
    (s.ranks r).noCheckpointState = true → (s.ranks r).agent = .linked →
      (s.ranks r).replaces (getBufferSize (s.current.plans r)) = false
  | .thread i _ => ∀ t ∈ s.threads[i]?, t.stage = .finalRelease →
    (s.ranks t.rank).lock = none ∨ (s.ranks t.rank).lock = some (.saver i)
  | .reset k => ∀ r, node r = k → (s.ranks r).lock = none
  | _ => True

end ProbingBaselines.Dlrover
