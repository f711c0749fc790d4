import ProbingBaselines.Lib.Dict
import ProbingBaselines.Lib.FileTree
import ProbingBaselines.Lib.Run

/-!
# The checkpoint saver with a temporary directory

`TempDirCheckpointSaver` on one node, of rank 0: it writes the shards into a temporary directory and
moves that over the directory the user configured. The saver's steps, the shard threads and the
trainer, which saves new state dicts to the memory at any time, interleave. The storage is the POSIX
one and does not fail but for the files of a shard, the done file and the tracker file.
-/

namespace ProbingBaselines.Dlrover

open Lib

/-- The components of an absolute path; `[]` stands for the empty text. The directory of a path is
all but its last component. -/
abbrev CkptPath := List String

/-- The content of a file: a state of a shard at a step, or the done file of a shard with the
attempt that wrote it. -/
inductive CkptFile where
  | shard (shard : Nat) (name : String) (step : Nat)
  | done (attempt : Nat)

/-- The configuration of a shard in the memory of the host. `paths` is the field of the
`CheckpointConfig` the host holds, empty for `None`; `configured` are the paths as the trainer saved
them. -/
structure ShardMemory where
  rank : Nat
  step : Nat
  paths : List (String × CkptPath)
  configured : List (String × CkptPath)

/-- A `_save_shard` that was submitted, with the paths it writes to and its result. -/
structure ShardSaving where
  step : Nat
  rank : Nat
  files : List (String × CkptPath)
  result : Option Bool

/-- What an attempt found for a shard: the paths as the trainer saved them, and those it rewrote. -/
structure Planned where
  shard : Nat
  configured : List (String × CkptPath)
  found : List (String × CkptPath)

/-- Where `save_step_checkpoint` and `commit_checkpoint` stand. -/
inductive SaverStage where
  | idle
  | makingTemp (step : Nat)
  | makingDone (step : Nat)
  | preparing (step next : Nat) (ckptDir : CkptPath)
  | collecting (step : Nat) (ckptDir : CkptPath)
  | committing (step : Nat) (target : CkptPath)
  | removing (step : Nat) (target : CkptPath)
  | moving (step : Nat) (target : CkptPath)
  | cleaning (step : Nat) (target : CkptPath)
  | tracking (step : Nat) (target : CkptPath)
deriving DecidableEq

/-- How `_save_shard` ends when the step in the memory is the one of the event: with all files and
the done file, with an exception after some of the files, or with one at the done file. -/
inductive ShardOutcome where
  | saved
  | persistFailed (written : Nat)
  | doneFailed

/-- A committed checkpoint: what is below the target when the tracker file is written, and what the
attempt planned. -/
structure Committed where
  step : Nat
  target : CkptPath
  found : FileTree String CkptFile
  plan : List Planned

/-- The saver. `attempt` counts the attempts and `plan` is what the current one has prepared;
`futures` are under the attempt and the shard. -/
structure TempDirSaver where
  checkpointDir : CkptPath
  globalShardNum : Nat
  memory : List ShardMemory
  fs : FileTree String CkptFile
  tracker : Option Nat
  stage : SaverStage
  attempt : Nat
  futures : Dict (Nat × Nat) ShardSaving
  plan : List Planned
  committed : List Committed

inductive SaverAct where
  | save (shard : Nat) (rank step : Nat) (paths : List (String × CkptPath))
  | attempt (step : Nat)
  | makeTemp
  | makeDone
  | prepare
  | run (future : Nat × Nat) (outcome : ShardOutcome)
  | collect (raised : Bool)
  | check
  | timeout
  | remove
  | move
  | clean
  | track (written : Bool)

namespace TempDirSaver

/-- A saver of `shards` local shards over a storage that has any content. -/
def init (checkpointDir : CkptPath) (shards globalShardNum : Nat)
    (fs : FileTree String CkptFile) : TempDirSaver :=
  ⟨checkpointDir, globalShardNum, List.replicate shards ⟨0, 0, [], []⟩, fs, none, .idle, 0, .empty,
    [], []⟩

/-- `self._STAGE_DIR` in the checkpoint directory. -/
def stageDir (s : TempDirSaver) : CkptPath := s.checkpointDir ++ ["._dlrover_ckpt_stage"]

/-- `_get_tmp_ckpt_dir` (`ckpt_saver.py:1254-1263`). -/
def tempDir (s : TempDirSaver) (step : Nat) : CkptPath := s.stageDir ++ [toString step]

/-- `_get_checkpoint_done_dir` (`ckpt_saver.py:770-775`). -/
def doneDir (s : TempDirSaver) (step : Nat) : CkptPath := s.stageDir ++ [toString step ++ ".done"]

/-- `path.replace(path_dir, temp_dir)`. The text of the directory is in the path a second time only
when the directory has one component and the name of the file starts with it. -/
def replaceDir (tempDir : CkptPath) : CkptPath → CkptPath
  | [dir, last] =>
    if dir.toList <+: last.toList then
      tempDir ++ tempDir.dropLast ++
        [tempDir.getLast?.getD "" ++ String.ofList (last.toList.drop dir.toList.length)]
    else tempDir ++ [last]
  | path => tempDir ++ path.getLast?.toList

/-- The loop of `_replace_path_dir` (`ckpt_saver.py:1228-1252`): the paths in the temporary
directory, and the directory they were in; it raises when there are two. -/
def replacePathDir (tempDir : CkptPath) :
    List (String × CkptPath) → CkptPath → Option (List (String × CkptPath) × CkptPath)
  | [], ckptDir => some ([], ckptDir)
  | (name, path) :: rest, ckptDir =>
    if ckptDir = [] ∨ ckptDir = path.dropLast then
      (replacePathDir tempDir rest path.dropLast).map fun r ↦
        ((name, replaceDir tempDir path) :: r.1, r.2)
    else none

/-- The storage after the files of a shard have been written. -/
def writeFiles (shard step : Nat) (files : List (String × CkptPath))
    (fs : FileTree String CkptFile) : FileTree String CkptFile :=
  files.foldl (fun fs f ↦ fs.write f.2 (.shard shard f.1 step)) fs

/-- `_check_shard_step_consistence` (`ckpt_saver.py:777-793`). -/
def consistent (s : TempDirSaver) (step : Nat) : Bool :=
  s.memory.all fun c ↦ c.step = 0 || c.step = step

/-- The trainer saves a state dict to the memory: the host gets a new configuration. -/
def save (s : TempDirSaver) (shard rank step : Nat) (paths : List (String × CkptPath)) :
    TempDirSaver :=
  { s with memory := s.memory.set shard ⟨rank, step, paths, paths⟩ }

/-- The loop over the local shards: the configuration of the next one is rewritten and its
`_save_shard` submitted (`ckpt_saver.py:1184-1193`). -/
def prepare (s : TempDirSaver) (step next : Nat) (ckptDir : CkptPath) : TempDirSaver :=
  match s.memory[next]? with
  | none => { s with stage := .collecting step ckptDir }
  | some c =>
    match replacePathDir (s.tempDir step) c.paths [] with
    | none => { s with stage := .idle }
    | some replaced =>
      { s with
        memory := s.memory.set next { c with paths := replaced.1 }
        stage := .preparing step (next + 1) replaced.2
        futures := s.futures.insert (s.attempt, next) ⟨step, c.rank, replaced.1, none⟩
        plan := s.plan ++ [⟨next, c.configured, c.paths⟩] }

/-- A `_save_shard` runs (`ckpt_saver.py:680-735`): it fails when the memory holds another step. -/
def runShard (s : TempDirSaver) (future : Nat × Nat) (f : ShardSaving) (outcome : ShardOutcome) :
    TempDirSaver :=
  let ended (result : Bool) (fs : FileTree String CkptFile) : TempDirSaver :=
    { s with fs := fs, futures := s.futures.insert future { f with result := some result } }
  let written := writeFiles future.2 f.step f.files s.fs
  if (s.memory[future.2]?.map ShardMemory.step) ≠ some f.step then ended false s.fs
  else
    match outcome with
    | .saved =>
      if FileTree.Present (s.doneDir f.step) written then
        ended true (written.write (s.doneDir f.step ++ [toString f.rank]) (.done future.1))
      else ended false written
    | .persistFailed k => ended false (writeFiles future.2 f.step (f.files.take k) s.fs)
    | .doneFailed => ended false written

/-- The futures of the current attempt. -/
def own (s : TempDirSaver) : List ((Nat × Nat) × ShardSaving) :=
  s.futures.items.filter fun e ↦ e.1.1 = s.attempt

/-- The number of done files `commit_checkpoint` counts. -/
def readyNum (s : TempDirSaver) (step : Nat) : Nat :=
  (FileTree.children (s.doneDir step) s.fs).length

/-- One step of one of the threads (`ckpt_saver.py:1156-1226,1265-1338`). -/
def step (s : TempDirSaver) : SaverAct → Option TempDirSaver
  | .save shard rank n paths =>
    if ∀ f ∈ paths, 2 ≤ f.2.length then some (s.save shard rank n paths) else none
  | .attempt n =>
    match s.stage with
    | .idle =>
      if s.consistent n then
        some { s with stage := .makingTemp n, attempt := s.attempt + 1, plan := [] }
      else some s
    | _ => none
  | .makeTemp =>
    match s.stage with
    | .makingTemp n =>
      some { s with
        fs := FileTree.makedirs (s.tempDir n) (FileTree.rmtree (s.tempDir n) s.fs)
        stage := .makingDone n }
    | _ => none
  | .makeDone =>
    match s.stage with
    | .makingDone n =>
      some { s with
        fs := FileTree.makedirs (s.doneDir n) (FileTree.rmtree (s.doneDir n) s.fs)
        stage := .preparing n 0 [] }
    | _ => none
  | .prepare =>
    match s.stage with
    | .preparing n next ckptDir => some (s.prepare n next ckptDir)
    | _ => none
  | .run future outcome =>
    match s.futures.get? future with
    | some f => if f.result = none then some (s.runShard future f outcome) else none
    | none => none
  | .collect raised =>
    match s.stage with
    | .collecting n ckptDir =>
      if raised then some { s with stage := .idle }
      else if s.own.all fun e ↦ e.2.result.isSome then
        if s.own.all fun e ↦ e.2.result = some true then
          some { s with stage := .committing n ckptDir }
        else some { s with stage := .idle }
      else none
    | _ => none
  | .check =>
    match s.stage with
    | .committing n target =>
      if FileTree.Present (s.doneDir n) s.fs then
        if s.readyNum n = s.globalShardNum then some { s with stage := .removing n target }
        else some s
      else some { s with stage := .idle }
    | _ => none
  | .timeout =>
    match s.stage with
    | .committing n _ =>
      if s.readyNum n = s.globalShardNum then none
      else
        some { s with
          fs := FileTree.rmtree (s.doneDir n) (FileTree.rmtree (s.tempDir n) s.fs)
          stage := .idle }
    | _ => none
  | .remove =>
    match s.stage with
    | .removing n target =>
      some { s with
        fs := if target = [] then s.fs else FileTree.rmtree target s.fs
        stage := .moving n target }
    | _ => none
  | .move =>
    match s.stage with
    | .moving n target =>
      if target = [] ∧ FileTree.Present (s.tempDir n) s.fs then some { s with stage := .idle }
      else
        some { s with
          fs := FileTree.move (s.tempDir n) target s.fs
          stage := .cleaning n target }
    | _ => none
  | .clean =>
    match s.stage with
    | .cleaning n target =>
      some { s with fs := FileTree.rmtree (s.doneDir n) s.fs, stage := .tracking n target }
    | _ => none
  | .track written =>
    match s.stage with
    | .tracking n target =>
      if written then
        some { s with
          tracker := some n
          stage := .idle
          committed := s.committed ++ [⟨n, target, s.fs.filter fun e ↦ target <+: e.1, s.plan⟩] }
      else some { s with stage := .idle }
    | _ => none

/-- Neither path lies below the other. -/
def Unrelated (p q : CkptPath) : Prop := ¬ p <+: q ∧ ¬ q <+: p

instance (p q : CkptPath) : Decidable (Unrelated p q) := inferInstanceAs (Decidable (_ ∧ _))

/-- The text of the directory is in the path at its start only. -/
def Plain : CkptPath → Prop
  | [dir, last] => ¬ dir.toList <+: last.toList
  | _ => True

instance : DecidablePred Plain
  | [] | [_] | _ :: _ :: _ :: _ => inferInstanceAs (Decidable True)
  | [_, _] => inferInstanceAs (Decidable (¬ _))

/-- The plan of an attempt whose commit replaces what the user configured: every shard was found
with the paths the trainer saved, all of them in the target, which is not above, below or at the
stage directory, and no two of them the same. -/
def Sane (s : TempDirSaver) (target : CkptPath) : Prop :=
  (∀ p ∈ s.plan, p.found = p.configured) ∧
  (∀ p ∈ s.plan, ∀ f ∈ p.configured, f.2.dropLast = target) ∧
  (s.plan.flatMap fun p ↦ p.configured.map Prod.snd).Nodup ∧
  target ≠ [] ∧ Unrelated s.stageDir target

instance (s : TempDirSaver) (target : CkptPath) : Decidable (s.Sane target) :=
  inferInstanceAs (Decidable (_ ∧ _ ∧ _ ∧ _ ∧ _))

/-- If the commit goes through, the plan is sane. -/
def Committable (s : TempDirSaver) : SaverStage → Prop
  | .committing n target => s.readyNum n = s.globalShardNum → s.Sane target
  | _ => True

instance (s : TempDirSaver) : DecidablePred s.Committable
  | .committing _ _ => inferInstanceAs (Decidable (_ → _))
  | .idle | .makingTemp _ | .makingDone _ | .preparing _ _ _ | .collecting _ _ | .removing _ _
  | .moving _ _ | .cleaning _ _ | .tracking _ _ => inferInstanceAs (Decidable True)

/-- When a commit is atomic: the trainer saves plain paths, the attempt that commits has a sane
plan, and a shard thread of an earlier attempt runs only while no attempt is under way. -/
def Admitted (s : TempDirSaver) : SaverAct → Prop
  | .save _ _ _ paths => ∀ f ∈ paths, Plain f.2
  | .check => s.Committable s.stage
  | .run future _ => future.1 = s.attempt ∨ s.stage = .idle
  | _ => True

instance (s : TempDirSaver) : DecidablePred s.Admitted
  | .save _ _ _ paths => inferInstanceAs (Decidable (∀ f ∈ paths, Plain f.2))
  | .check => inferInstanceAs (Decidable (s.Committable s.stage))
  | .run future _ => inferInstanceAs (Decidable (future.1 = s.attempt ∨ s.stage = .idle))
  | .attempt _ | .makeTemp | .makeDone | .prepare | .collect _ | .timeout | .remove | .move
  | .clean | .track _ => inferInstanceAs (Decidable True)

end TempDirSaver

end ProbingBaselines.Dlrover
