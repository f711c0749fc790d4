import Mathlib.Data.List.FinRange
import Mathlib.Logic.Function.Basic
import ProbingBaselines.Lib.Run

/-!
# The tracker file of FSDP checkpoints

The saver of every agent persists the shards of its node, one thread a shard, into the directory of
the step. The thread of shard 0 makes the directory and, behind its own shard, writes `.metadata`
and the tracker file; the agent of rank 0 writes the tracker file once more when its commit finds as
many done files as there are shards. The configuration of an FSDP shard leaves `rank` at its
default, so that the done files of all shards have one name.
-/

namespace ProbingBaselines.Dlrover

open Lib

/-- A file on the storage. `partly` is one that a thread has opened, and so truncated, and not
written to the end; the thread is given by its call of `save_step_checkpoint` and its place there.
-/
inductive CkptFileState where
  | absent
  | partly (writer : Nat × Nat)
  | complete
deriving DecidableEq

/-- The directory of a step: `__<rank>_0.distcp` for each rank, and `.metadata`. -/
structure StepDir (n : Nat) where
  present : Bool
  shards : Fin (n + 1) → CkptFileState
  metadata : CkptFileState

/-- The storage: the directories of the steps, the tracker file with `none` for one that is not
there or empty, and the names in the directories of the done files. -/
structure FsdpDisk (n : Nat) where
  dirs : Int → StepDir n
  tracker : Option Int
  doneDirs : Int → Option (List Int)

/-- All shard files and `.metadata` have been written completely. -/
def StepDir.Complete {n : Nat} (d : StepDir n) : Prop :=
  (∀ r, d.shards r = .complete) ∧ d.metadata = .complete

/-- Where a `_save_shard` stands (`ckpt_saver.py:680-746, 1453-1494`): before the lock and the test
of the step, before the directory, between its removal and its creation, before and inside each
`storage.write`, and before the done file. -/
inductive PersistStage where
  | starting
  | preparing
  | making
  | opening
  | writing
  | opensMetadata
  | writesMetadata
  | opensTracker
  | writesTracker
  | marking
  | saved
  | failed
deriving DecidableEq

/-- A call of `_save_shard`; `config` is the step of its `ckpt_config`, and of the directory that
this names. -/
structure PersistThread (n : Nat) where
  rank : Fin (n + 1)
  step : Int
  config : Int
  stage : PersistStage

/-- Where a `save_step_checkpoint` stands: before the check of the steps, before the directory of
the done files, before the submission of the shards, waiting for them, in the loop of
`commit_checkpoint`, inside `update_tracker_file` and before the removal of the done files. -/
inductive CallStage where
  | checking
  | preparing
  | submitting
  | waiting
  | committing
  | tracking
  | cleaning
  | ended
deriving DecidableEq

/-- A call of `save_step_checkpoint` by the agent of a node. -/
structure FsdpCall (n : Nat) where
  node : Nat
  step : Int
  stage : CallStage
  threads : List (PersistThread n)

/-- The savers of all agents. `memory` has the step in the dict of each rank, 0 when there is none;
a dict with a configuration has the `dcp_metadata` as well. `stopCommit` is `_stop_commit` of the
agent of rank 0. -/
structure FsdpSavers (n : Nat) where
  memory : Fin (n + 1) → Int
  disk : FsdpDisk n
  calls : List (FsdpCall n)
  stopCommit : Bool

/-- The steps: `memory` is a save of the trainer to the memory, `save` a call of
`save_step_checkpoint`, for an event or at a breakpoint, and `reset` sets `_stop_commit`. A thread
may raise at any point, a call may give up where it waits for the others or meets an exception, and
an agent may stop, which ends its calls and threads where they are. -/
inductive FsdpSaverAct (n : Nat) where
  | memory (r : Fin (n + 1)) (step : Int)
  | save (node : Nat) (step : Int)
  | call (i : Nat) (givesUp : Bool)
  | thread (i j : Nat) (raises : Bool)
  | reset
  | stop (node : Nat)

namespace FsdpDisk

variable {n : Nat}

def setDir (d : FsdpDisk n) (step : Int) (dir : StepDir n) : FsdpDisk n :=
  { d with dirs := Function.update d.dirs step dir }

def setShard (d : FsdpDisk n) (step : Int) (r : Fin (n + 1)) (file : CkptFileState) : FsdpDisk n :=
  d.setDir step { d.dirs step with shards := Function.update (d.dirs step).shards r file }

def setMetadata (d : FsdpDisk n) (step : Int) (file : CkptFileState) : FsdpDisk n :=
  d.setDir step { d.dirs step with metadata := file }

def setDone (d : FsdpDisk n) (step : Int) (names : Option (List Int)) : FsdpDisk n :=
  { d with doneDirs := Function.update d.doneDirs step names }

/-- `safe_rmtree`. -/
def rmtree (d : FsdpDisk n) (step : Int) : FsdpDisk n :=
  d.setDir step ⟨false, fun _ ↦ .absent, .absent⟩

/-- `safe_makedirs`. -/
def makedirs (d : FsdpDisk n) (step : Int) : FsdpDisk n :=
  d.setDir step { d.dirs step with present := true }

/-- The end of a `storage.write`: the file is complete unless it has been removed, or opened by
another thread, in the meantime. -/
def written (file : CkptFileState) (writer : Nat × Nat) : CkptFileState :=
  if file = .partly writer then .complete else file

/-- The directory that `load` reads through `_get_track_resume_path`, when it does not read the
memory (`fsdp_engine.py:582-602`). -/
def resumeStep (d : FsdpDisk n) : Option Int := d.tracker.filter fun step ↦ (d.dirs step).present

end FsdpDisk

/-- `ckpt_config.rank`: `save_to_memory` makes `CheckpointConfig(step=step)`. -/
def fsdpConfigRank : Int := 0

/-- One step of a thread. Shard 0 of the agent of rank 0 makes the directory, the others wait for
it; an `open` in a directory that is not there raises, and so does the done file. -/
def PersistThread.run {n : Nat} (t : PersistThread n) (memory : Fin (n + 1) → Int)
    (d : FsdpDisk n) (id : Nat × Nat) : Option (FsdpDisk n × PersistStage) :=
  match t.stage with
  | .starting => some (d, if memory t.rank = t.step then .preparing else .failed)
  | .preparing =>
    if t.rank = 0 then some (d.rmtree t.config, .making)
    else if (d.dirs t.config).present then some (d, .opening)
    else none
  | .making => some (d.makedirs t.config, .opening)
  | .opening =>
    if (d.dirs t.config).present then some (d.setShard t.config t.rank (.partly id), .writing)
    else none
  | .writing =>
    some (d.setShard t.config t.rank (FsdpDisk.written ((d.dirs t.config).shards t.rank) id),
      if t.rank = 0 then .opensMetadata else .marking)
  | .opensMetadata =>
    if (d.dirs t.config).present then some (d.setMetadata t.config (.partly id), .writesMetadata)
    else none
  | .writesMetadata =>
    some (d.setMetadata t.config (FsdpDisk.written (d.dirs t.config).metadata id), .opensTracker)
  | .opensTracker => some ({ d with tracker := none }, .writesTracker)
  | .writesTracker => some ({ d with tracker := some t.config }, .marking)
  | .marking =>
    (d.doneDirs t.step).map fun names ↦
      (d.setDone t.step (some (names.insert fsdpConfigRank)), .saved)
  | .saved => none
  | .failed => none

namespace FsdpSavers

variable {n : Nat}

/-- Savers that have just started, over a storage that may have checkpoints. -/
def init (disk : FsdpDisk n) : FsdpSavers n := ⟨fun _ ↦ 0, disk, [], false⟩

def setCall (s : FsdpSavers n) (i : Nat) (c : FsdpCall n) : FsdpSavers n :=
  { s with calls := s.calls.set i c }

def setStage (s : FsdpSavers n) (i : Nat) (c : FsdpCall n) (stage : CallStage) : FsdpSavers n :=
  s.setCall i { c with stage }

/-- The shards that `save_step_checkpoint` submits (`ckpt_saver.py:986-1000`). -/
def submitted (s : FsdpSavers n) (node : Fin (n + 1) → Nat) (c : FsdpCall n) :
    List (PersistThread n) :=
  ((List.finRange (n + 1)).filter fun r ↦ node r = c.node ∧ s.memory r ≠ 0).map fun r ↦
    ⟨r, c.step, s.memory r, .starting⟩

/-- One step of `save_step_checkpoint` and of the `commit_checkpoint` behind it
(`ckpt_saver.py:962-1077`). -/
def callStep (s : FsdpSavers n) (node : Fin (n + 1) → Nat) (i : Nat) (c : FsdpCall n) :
    Option (FsdpSavers n) :=
  match c.stage with
  | .checking =>
    if ∀ r, node r = c.node → 0 < s.memory r → s.memory r = c.step then
      some (s.setStage i c .preparing)
    else none
  | .preparing =>
    if c.node = node 0 then
      some { s.setStage i c .submitting with disk := s.disk.setDone c.step (some []) }
    else some (s.setStage i c .submitting)
  | .submitting =>
    some (s.setCall i { c with stage := .waiting, threads := s.submitted node c })
  | .waiting =>
    if ∀ t ∈ c.threads, t.stage = .saved then
      if c.node = node 0 then some { s.setStage i c .committing with stopCommit := false }
      else some (s.setStage i c .ended)
    else if ∀ t ∈ c.threads, t.stage = .saved ∨ t.stage = .failed then
      some (s.setStage i c .ended)
    else none
  | .committing =>
    if s.stopCommit then some (s.setStage i c .ended)
    else
      match s.disk.doneDirs c.step with
      | none => some (s.setStage i c .ended)
      | some names =>
        if names.length = n + 1 then
          some { s.setStage i c .tracking with disk := { s.disk with tracker := none } }
        else none
  | .tracking =>
    some { s.setStage i c .cleaning with disk := { s.disk with tracker := some c.step } }
  | .cleaning =>
    some { s.setStage i c .ended with disk := s.disk.setDone c.step none }
  | .ended => none

/-- A call ends early: at the timeout of the check or of the commit, which removes the done files,
or by an exception. -/
def giveUp (s : FsdpSavers n) (i : Nat) (c : FsdpCall n) : Option (FsdpSavers n) :=
  match c.stage with
  | .waiting => none
  | .ended => none
  | .committing => some { s.setStage i c .ended with disk := s.disk.setDone c.step none }
  | _ => some (s.setStage i c .ended)

def threadStep (s : FsdpSavers n) (i j : Nat) (c : FsdpCall n) (t : PersistThread n)
    (raises : Bool) : Option (FsdpSavers n) :=
  if c.stage = .waiting then
    if raises then
      if t.stage = .saved ∨ t.stage = .failed then none
      else some (s.setCall i { c with threads := c.threads.set j { t with stage := .failed } })
    else
      (t.run s.memory s.disk (i, j)).map fun (disk, stage) ↦
        { s.setCall i { c with threads := c.threads.set j { t with stage } } with disk }
  else none

/-- A step of the savers of a job whose ranks run on the given nodes. The agent of the node of rank
0 is the one with `_is_agent_rank_0`, and its local shard 0 is that of rank 0. -/
def step (node : Fin (n + 1) → Nat) (s : FsdpSavers n) : FsdpSaverAct n → Option (FsdpSavers n)
  | .memory r step => some { s with memory := Function.update s.memory r step }
  | .save k step => some { s with calls := s.calls ++ [⟨k, step, .checking, []⟩] }
  | .call i givesUp => s.calls[i]?.bind fun c ↦
    if givesUp then s.giveUp i c else s.callStep node i c
  | .thread i j raises => s.calls[i]?.bind fun c ↦ c.threads[j]?.bind fun t ↦
    s.threadStep i j c t raises
  | .reset => some { s with stopCommit := true }
  | .stop k => some { s with
      calls := s.calls.map fun c ↦ if c.node = k then { c with stage := .ended } else c }

/-- What the tracker file names, and what is read through it, is a complete checkpoint. -/
structure NamesComplete (d : FsdpDisk n) : Prop where
  named : ∀ step, d.tracker = some step → (d.dirs step).Complete
  loaded : ∀ step, d.resumeStep = some step → (d.dirs step).Complete

/-- Shard 0 writes the tracker file behind all other shards of the step, no thread removes or opens
files of the step that the tracker names, the agent of rank 0 saves one step at a time, and in a job
of one shard the dict has the step that is saved when the shard is submitted. -/
def Admitted (node : Fin (n + 1) → Nat) (s : FsdpSavers n) : FsdpSaverAct n → Prop
  | .save k _ => k = node 0 → ∀ c ∈ s.calls, c.node = k → c.stage = .ended
  | .call i false => ∀ c ∈ s.calls[i]?, c.stage = .submitting → n = 0 → s.memory 0 ≠ 0 →
    s.memory 0 = c.step
  | .thread i j false => ∀ c ∈ s.calls[i]?, ∀ t ∈ c.threads[j]?,
    (t.stage = .preparing ∧ t.rank = 0 ∨ t.stage = .opening ∧ t.rank ≠ 0 →
      s.disk.tracker ≠ some t.config) ∧
    (t.stage = .writesTracker → ∀ r, r ≠ 0 → (s.disk.dirs t.config).shards r = .complete)
  | _ => True

end FsdpSavers

end ProbingBaselines.Dlrover
