import ProbingBaselines.Dlrover.BatchDatasetManager
import ProbingBaselines.Lib.Run
import ProbingBaselines.Lib.MapM

/-!
# Checkpoints of a dataset's shards

A checkpoint (`batch_dataset_manager.py:156-202`, `base_dataset_manager.py:60-90`) lists the shards
that are being processed or waiting; a worker may read it and send it back to the same master or to
a new one. The restored shards become new tasks, numbered on by the manager's own counter. The
system below keeps for each task that a worker has fetched the restore after which it was fetched,
so that a report can be told from a late one.
-/

namespace ProbingBaselines.Dlrover

open Lib

/-- The values that `json` reads and writes here. -/
inductive Json where
  | null
  | int (n : Int)
  | str (s : String)
  | arr (l : List Json)
  | obj (fields : List (String × Json))

namespace Json

def field (v : Json) (name : String) : Option Json :=
  match v with
  | obj fields => (fields.find? fun e ↦ e.1 = name).map Prod.snd
  | _ => none

def asInt : Json → Option Int
  | int n => some n
  | _ => none

def asStr : Json → Option String
  | str s => some s
  | _ => none

def asArr : Json → Option (List Json)
  | arr l => some l
  | _ => none

end Json

/-- `base_dataset_manager.py:60-82`; an entry is a start, an end and perhaps the record indices. -/
structure DatasetShardCheckpoint where
  datasetName : String
  todo : List (List Json)
  doing : List (List Json)
  epoch : Int

namespace DatasetShardCheckpoint

/-- `to_json`; `json.loads` gives back the value that `json.dumps` was given. -/
def toJson (c : DatasetShardCheckpoint) : Json :=
  .obj [("dataset_name", .str c.datasetName), ("todo", .arr (c.todo.map .arr)),
    ("doing", .arr (c.doing.map .arr)), ("epoch", .int c.epoch), ("splitter", .null)]

/-- `from_json`. -/
def fromJson (v : Json) : Option DatasetShardCheckpoint := do
  let datasetName ← (← v.field "dataset_name").asStr
  let todo ← (← (← v.field "todo").asArr).mapM Json.asArr
  let doing ← (← (← v.field "doing").asArr).mapM Json.asArr
  let epoch ← (← v.field "epoch").asInt
  some ⟨datasetName, todo, doing, epoch⟩

theorem fromJson_toJson (c : DatasetShardCheckpoint) : fromJson c.toJson = some c := by
  have entries : ∀ l : List (List Json), (l.map Json.arr).mapM Json.asArr = some l := by
    intro l
    rw [mapM_map_eq_some Json.arr Json.asArr id fun _ ↦ rfl, List.map_id]
  simp [fromJson, toJson, Json.field, Json.asStr, Json.asArr, Json.asInt, entries]

end DatasetShardCheckpoint

/-- The indices of a shard; an empty list and `None` are read alike. -/
def Shard.indices (shard : Shard) : List Nat := shard.recordIndices.getD []

/-- The entry of a shard in a checkpoint; `batch_dataset_manager.py:157-170`. -/
def Shard.entry (shard : Shard) : List Json :=
  [.int shard.start, .int shard.stop] ++
    if shard.indices = [] then [] else [.arr (shard.indices.map fun n : Nat ↦ .int n)]

/-- The shard of an entry; `batch_dataset_manager.py:184-193`. -/
def restoreShard (name : String) (entry : List Json) : Option Shard := do
  let start ← (← entry[0]?).asInt
  let stop ← (← entry[1]?).asInt
  match entry[2]? with
  | none => some ⟨name, start, stop, none⟩
  | some v =>
    let indices ← (← v.asArr).mapM Json.asInt
    some ⟨name, start, stop, some (indices.map Int.toNat)⟩

namespace BatchDatasetManager

/-- `batch_dataset_manager.py:156-177`. -/
def checkpoint (s : BatchDatasetManager) : DatasetShardCheckpoint where
  datasetName := s.datasetSplitter.datasetName
  todo := s.todo.map fun task ↦ task.shard.entry
  doing := s.doing.values.map fun doingTask ↦ doingTask.task.shard.entry
  epoch := s.datasetSplitter.epoch

/-- `batch_dataset_manager.py:179-202`. -/
def restoreCheckpoint (s : BatchDatasetManager) (c : DatasetShardCheckpoint) :
    Option BatchDatasetManager := do
  let shards ← (c.doing ++ c.todo).mapM (restoreShard s.datasetSplitter.datasetName)
  some { s with
    datasetSplitter := s.datasetSplitter.setEpoch c.epoch.toNat
    todo := numberTasks s.taskType s.taskId shards
    doing := .empty
    taskId := s.taskId + shards.length }

/-- `TaskManager.restore_dataset_from_checkpoint` on the dataset named in the checkpoint. -/
def restoreFromJson (s : BatchDatasetManager) (v : Json) : Option BatchDatasetManager :=
  (DatasetShardCheckpoint.fromJson v).bind s.restoreCheckpoint

/-- The part of a shard that a checkpoint keeps. -/
def extent (task : Task) : Int × Int × List Nat :=
  (task.shard.start, task.shard.stop, task.shard.indices)

/-- `t` takes up the work of `s` with new tasks: the shards being processed first, then those
waiting, from the same epoch on. -/
structure Resumes (s t : BatchDatasetManager) (first : Nat) : Prop where
  todo : t.todo.map extent = (s.doing.values.map DoingTask.task ++ s.todo).map extent
  ids : t.todo.map Task.taskId =
    (List.range' first t.todo.length).map fun n : Nat ↦ (n : Int)
  doing : t.doing.items = []
  epoch : t.datasetSplitter.epoch = s.datasetSplitter.epoch

theorem restoreShard_entry (name : String) (shard : Shard) :
    restoreShard name shard.entry = some ⟨name, shard.start, shard.stop,
      if shard.indices = [] then none else some shard.indices⟩ := by
  by_cases none : shard.indices = []
  · rw [Shard.entry, if_pos none, if_pos none]
    rfl
  · have decode : (shard.indices.map fun n : Nat ↦ Json.int n).mapM Json.asInt =
        some (shard.indices.map fun n : Nat ↦ (n : Int)) :=
      mapM_map_eq_some _ Json.asInt _ (fun _ ↦ rfl) _
    have back : (shard.indices.map fun n : Nat ↦ (n : Int)).map Int.toNat = shard.indices := by
      rw [List.map_map]
      exact List.map_id _
    rw [Shard.entry, if_neg none, if_neg none]
    simp [restoreShard, Json.asInt, Json.asArr, decode, back]

/-- A manager that restores the checkpoint of `s` resumes its work. -/
theorem restoreFromJson_checkpoint (s m : BatchDatasetManager) :
    ∃ t, m.restoreFromJson s.checkpoint.toJson = some t ∧ Resumes s t m.taskId ∧
      t.taskId = m.taskId + t.todo.length := by
  let tasks := s.doing.values.map DoingTask.task ++ s.todo
  let shards := tasks.map fun task ↦ (⟨m.datasetSplitter.datasetName, task.shard.start,
    task.shard.stop, if task.shard.indices = [] then none else some task.shard.indices⟩ : Shard)
  have decode : (s.checkpoint.doing ++ s.checkpoint.todo).mapM
      (restoreShard m.datasetSplitter.datasetName) = some shards := by
    have entries : s.checkpoint.doing ++ s.checkpoint.todo =
        tasks.map fun task ↦ task.shard.entry := by
      simp only [checkpoint, tasks, List.map_append, List.map_map, Function.comp_def]
    rw [entries]
    exact mapM_map_eq_some _ _ _ (fun task ↦ restoreShard_entry _ task.shard) tasks
  have extents : (numberTasks m.taskType m.taskId shards).map extent = tasks.map extent := by
    have through : (numberTasks m.taskType m.taskId shards).map extent =
        shards.map fun c ↦ (c.start, c.stop, c.indices) := by
      rw [← numberTasks_shards m.taskType m.taskId shards, List.map_map, numberTasks_shards]
      rfl
    rw [through, List.map_map]
    apply List.map_congr_left
    intro task _
    by_cases none : task.shard.indices = []
    · simp only [Function.comp_apply, extent, none]
      rfl
    · simp only [Function.comp_apply, extent, if_neg none]
      rfl
  have length : (numberTasks m.taskType m.taskId shards).length = shards.length := by
    rw [← List.length_map Task.shard, numberTasks_shards]
  refine ⟨{ m with
    datasetSplitter := m.datasetSplitter.setEpoch s.checkpoint.epoch.toNat
    todo := numberTasks m.taskType m.taskId shards
    doing := .empty
    taskId := m.taskId + shards.length }, ?_, ⟨extents, ?_, rfl, ?_⟩, ?_⟩
  · rw [restoreFromJson, DatasetShardCheckpoint.fromJson_toJson, Option.bind_some,
      restoreCheckpoint, decode]
    rfl
  · rw [numberTasks_ids, length]
  · rw [DatasetSplitter.epoch_setEpoch, checkpoint, Int.toNat_natCast]
  · rw [length]

end BatchDatasetManager

/-! ### Runs with restores -/

/-- A report that counted a task as completed: the restore after which the reporter had fetched its
task, the latest restore at the time of counting, and the task counted. -/
structure Completion where
  fetchedIn : Nat
  countedIn : Nat
  task : Task

/-- `generation` counts the restores. The manager object was created at `createdAt`, and its counter
stood at `firstId` when the latest restore began. `fetched` holds the generation and number of each
task handed to a worker, `saved` the states of which a checkpoint was taken. -/
structure RestoreSystem where
  manager : BatchDatasetManager
  generation : Nat
  createdAt : Nat
  firstId : Nat
  fetched : List (Nat × Int)
  completions : List Completion
  saved : List BatchDatasetManager

inductive RestoreAct where
  | getTask (nodeType : String) (nodeId : Int) (now : ℚ) (rand : Nat → Nat)
  | report (fetchedIn : Nat) (taskId : Int) (success : Bool) (now : ℚ)
  | recoverTasks (nodeType : String) (nodeId : Int) (now : ℚ)
  | checkpoint
  | restore (index : Nat) (fresh : Bool)

namespace RestoreSystem

def init (blank : BatchDatasetManager) : RestoreSystem := ⟨blank, 0, 0, 0, [], [], []⟩

/-- The manager that a checkpoint is restored into. -/
def target (blank : BatchDatasetManager) (s : RestoreSystem) (fresh : Bool) :
    BatchDatasetManager :=
  if fresh then blank else s.manager

/-- A worker only reports tasks that it has fetched; `blank` is the manager that a new master
creates for the dataset. -/
def step (blank : BatchDatasetManager) (s : RestoreSystem) : RestoreAct → Option RestoreSystem
  | .getTask nodeType nodeId now rand =>
    let result := s.manager.getTask nodeType nodeId now rand
    some { s with
      manager := result.2
      fetched := s.fetched ++ [(s.generation, result.1.taskId)] }
  | .report fetchedIn taskId success now =>
    if (fetchedIn, taskId) ∈ s.fetched then
      let result := s.manager.reportTaskStatus taskId success now
      some { s with
        manager := result.2
        completions := s.completions ++ if result.1.1 then
          (result.1.2.toList.map fun d ↦ ⟨fetchedIn, s.generation, d.task⟩) else [] }
    else none
  | .recoverTasks nodeType nodeId now =>
    some { s with manager := s.manager.recoverTasks nodeType nodeId now }
  | .checkpoint => some { s with saved := s.saved ++ [s.manager] }
  | .restore index fresh => do
    let source ← s.saved[index]?
    let manager ← (s.target blank fresh).restoreFromJson source.checkpoint.toJson
    some { s with
      manager := manager
      generation := s.generation + 1
      createdAt := if fresh then s.generation + 1 else s.createdAt
      firstId := (s.target blank fresh).taskId }

/-- A worker that fetched its task from an earlier manager does not report success under a number
that the new manager is having processed. -/
def Distinct (s : RestoreSystem) : RestoreAct → Prop
  | .report fetchedIn taskId success _ =>
    success = true → fetchedIn < s.createdAt → taskId ∉ s.manager.doing
  | _ => True

instance (s : RestoreSystem) : (a : RestoreAct) → Decidable (s.Distinct a)
  | .report fetchedIn taskId success _ =>
    inferInstanceAs (Decidable (success = true → fetchedIn < s.createdAt →
      taskId ∉ s.manager.doing))
  | .getTask .. => inferInstanceAs (Decidable True)
  | .recoverTasks .. => inferInstanceAs (Decidable True)
  | .checkpoint => inferInstanceAs (Decidable True)
  | .restore .. => inferInstanceAs (Decidable True)

/-- Tasks fetched from this manager before the latest restore have numbers that it does not give
again. -/
structure Traced (s : RestoreSystem) : Prop where
  numbered : s.manager.Numbered s.firstId
  created : s.createdAt ≤ s.generation
  past : ∀ f ∈ s.fetched, f.1 ≤ s.generation
  own : ∀ f ∈ s.fetched, s.createdAt ≤ f.1 → f.2 < s.manager.taskId
  late : ∀ f ∈ s.fetched, s.createdAt ≤ f.1 → f.1 < s.generation → f.2 < s.firstId
  counted : ∀ c ∈ s.completions, c.fetchedIn = c.countedIn

section Traced

variable {blank : BatchDatasetManager} {s t : RestoreSystem}

theorem Traced.getTask (h : s.Traced) (nodeType : String) (nodeId : Int) (now : ℚ)
    (rand : Nat → Nat) (taken : s.step blank (.getTask nodeType nodeId now rand) = some t) :
    t.Traced := by
  cases taken
  have counter := s.manager.le_getTask_taskId nodeType nodeId now rand
  refine ⟨h.numbered.getTask nodeType nodeId now rand, h.created, ?_, ?_, ?_, h.counted⟩
  · intro f hf
    rcases List.mem_append.mp hf with hf | hf
    · exact h.past f hf
    · rw [List.mem_singleton.mp hf]
  · intro f hf own
    rcases List.mem_append.mp hf with hf | hf
    · have lt := h.own f hf own
      exact lt.trans_le (Int.ofNat_le.mpr counter)
    · rw [List.mem_singleton.mp hf]
      exact h.numbered.getTask_lt nodeType nodeId now rand
  · intro f hf own before
    rcases List.mem_append.mp hf with hf | hf
    · exact h.late f hf own before
    · rw [List.mem_singleton.mp hf] at before
      exact absurd before (Nat.lt_irrefl _)

/-- A report that counts comes from the current generation. -/
theorem Traced.current (h : s.Traced) {fetchedIn : Nat} {taskId : Int}
    (fetched : (fetchedIn, taskId) ∈ s.fetched) (own : s.createdAt ≤ fetchedIn)
    (busy : taskId ∈ s.manager.doing) : fetchedIn = s.generation := by
  by_contra other
  have past := h.past _ fetched
  have late := h.late _ fetched own (by simp only at past ⊢; omega)
  rcases Dict.mem_iff.mp busy with ⟨d, hd⟩
  have range := h.numbered.doing _ hd
  simp only at late range
  omega

theorem Traced.report (h : s.Traced) {fetchedIn : Nat} {taskId : Int} {success : Bool} {now : ℚ}
    (distinct : s.Distinct (.report fetchedIn taskId success now))
    (taken : s.step blank (.report fetchedIn taskId success now) = some t) : t.Traced := by
  simp only [step] at taken
  split at taken
  · next fetched =>
    cases taken
    have counter := s.manager.reportTaskStatus_taskId taskId success now
    refine ⟨h.numbered.reportTaskStatus taskId success now, h.created, h.past, ?_, h.late, ?_⟩
    · simp only [counter]
      exact h.own
    · intro c hc
      rcases List.mem_append.mp hc with hc | hc
      · exact h.counted c hc
      · split at hc
        · next counts =>
          rcases BatchDatasetManager.reportTaskStatus_counts counts with ⟨succeeded, busy⟩
          have own : s.createdAt ≤ fetchedIn := by
            by_contra earlier
            exact distinct succeeded (Nat.not_le.mp earlier) busy
          rcases List.mem_map.mp hc with ⟨d, -, rfl⟩
          exact h.current fetched own busy
        · exact absurd hc List.not_mem_nil
  · contradiction

theorem Traced.restore (h : s.Traced) {index : Nat} {fresh : Bool}
    (taken : s.step blank (.restore index fresh) = some t) : t.Traced := by
  simp only [step, Option.bind_eq_bind, Option.bind_eq_some_iff] at taken
  rcases taken with ⟨source, -, m, restored, eq⟩
  cases eq
  rcases BatchDatasetManager.restoreFromJson_checkpoint source (s.target blank fresh) with
    ⟨m', restored', resumes, counter⟩
  obtain rfl : m = m' := Option.some.inj (restored.symm.trans restored')
  have numbered : m.Numbered (s.target blank fresh).taskId := by
    constructor
    · intro u hu
      have mem : u.taskId ∈ m.todo.map Task.taskId := List.mem_map_of_mem hu
      rw [resumes.ids] at mem
      rcases List.mem_map.mp mem with ⟨n, hn, eq⟩
      have range := List.mem_range'_1.mp hn
      omega
    · intro e he
      rw [resumes.doing] at he
      exact absurd he List.not_mem_nil
    · omega
  refine ⟨numbered, ?_, ?_, ?_, ?_, h.counted⟩
  · have created := h.created
    simp only
    split <;> omega
  · intro f hf
    exact Nat.le_succ_of_le (h.past f hf)
  · intro f hf own
    have past := h.past f hf
    cases fresh with
    | true =>
      simp only [if_true] at own
      omega
    | false =>
      have lt := h.own f hf own
      simp only [target, Bool.false_eq_true, if_false] at counter
      simp only
      omega
  · intro f hf own _
    have past := h.past f hf
    cases fresh with
    | true =>
      simp only [if_true] at own
      omega
    | false => exact h.own f hf own

theorem step_traced {a : RestoreAct} (h : s.Traced) (distinct : s.Distinct a)
    (taken : s.step blank a = some t) : t.Traced := by
  cases a with
  | getTask nodeType nodeId now rand => exact h.getTask nodeType nodeId now rand taken
  | report fetchedIn taskId success now => exact h.report distinct taken
  | recoverTasks nodeType nodeId now =>
    cases taken
    have counter := s.manager.recoverTasks_taskId nodeType nodeId now
    refine ⟨h.numbered.recoverTasks nodeType nodeId now, h.created, h.past, ?_, h.late, h.counted⟩
    simp only [counter]
    exact h.own
  | checkpoint =>
    cases taken
    exact ⟨h.numbered, h.created, h.past, h.own, h.late, h.counted⟩
  | restore index fresh => exact h.restore taken

end Traced

/-- Every checkpoint taken can be restored, into the manager there is or into a new one, and resumes
the work of its state; and every task counted as completed was reported by a worker that had
fetched it since the latest restore. -/
theorem restore_exact {taskType : TaskType} {batchSize : Nat} {hb : 0 < batchSize}
    {splitter : DatasetSplitter} {acts : List RestoreAct} {s : RestoreSystem}
    (run : Run (step (.new taskType batchSize splitter hb)) Distinct
      (init (.new taskType batchSize splitter hb)) acts s) :
    (∀ m ∈ s.saved, ∀ fresh, ∃ t,
      (s.target (.new taskType batchSize splitter hb) fresh).restoreFromJson
        m.checkpoint.toJson = some t ∧
      m.Resumes t (s.target (.new taskType batchSize splitter hb) fresh).taskId) ∧
    ∀ c ∈ s.completions, c.fetchedIn = c.countedIn := by
  constructor
  · intro m _ fresh
    rcases m.restoreFromJson_checkpoint (s.target (.new taskType batchSize splitter hb) fresh) with
      ⟨t, restored, resumes, -⟩
    exact ⟨t, restored, resumes⟩
  · have traced : s.Traced := by
      apply run.invariant (P := Traced)
      · exact ⟨.new taskType batchSize splitter hb, Nat.le_refl _,
          fun _ h ↦ absurd h List.not_mem_nil, fun _ h ↦ absurd h List.not_mem_nil,
          fun _ h ↦ absurd h List.not_mem_nil, fun _ h ↦ absurd h List.not_mem_nil⟩
      · intro t u a h distinct taken
        exact step_traced h distinct taken
    exact traced.counted

/-- Three shards of two records. -/
def threeShards : BatchDatasetManager :=
  .new .training 1 (.text (.new "t" 6 2 1 true Nat.two_pos)) Nat.one_pos

/-- The next task goes to worker `n`. -/
def fetchBy (n : Int) : RestoreAct := .getTask "worker" n 0 fun _ ↦ 0

/-- A late report meets the same manager after a restore, and another one a new manager. Neither
counts. -/
theorem restore_exact_twice :
    ∃ acts s, Run (step threeShards) Distinct (init threeShards) acts s ∧ s.generation = 2 ∧
      s.completions.length = 2 ∧ ∀ c ∈ s.completions, c.fetchedIn = c.countedIn := by
  have eval : ([fetchBy 0, .checkpoint, .restore 0 false, .report 0 0 true 1, fetchBy 1,
      .report 1 3 true 1, .restore 0 true, .report 0 0 true 1, fetchBy 2,
      .report 2 0 true 1].foldlM
        (fun s a ↦ if Distinct s a then step threeShards s a else none) (init threeShards)).map
      (fun s ↦ decide (s.generation = 2 ∧ s.completions.length = 2)) = some true := by
    decide +kernel
  rcases Option.map_eq_some_iff.mp eval with ⟨s, hs, holds⟩
  rcases of_decide_eq_true holds with ⟨generation, length⟩
  have run := run_of_guarded hs
  exact ⟨_, s, run, generation, length, (restore_exact run).2⟩

/-- Workers 0, 1 and 2 process a shard each, and only the first is done when a checkpoint is taken.
A new master numbers the other two shards 0 and 1 and hands them out again. The report of worker 1
for its old task 1 now completes the shard of worker 2. -/
theorem restore_miscounts :
    ∃ acts s, Run (step threeShards) anyStep (init threeShards) acts s ∧
      ∃ c ∈ s.completions, c.fetchedIn = 0 ∧ c.countedIn = 1 ∧ c.task.shard.start = 4 := by
  have eval : ([fetchBy 0, fetchBy 1, fetchBy 2, .report 0 0 true 1, .checkpoint, .restore 0 true,
      fetchBy 3, fetchBy 4, .report 0 1 true 2].foldlM (step threeShards) (init threeShards)).map
      (fun s ↦ decide (∃ c ∈ s.completions, c.fetchedIn = 0 ∧ c.countedIn = 1 ∧
        c.task.shard.start = 4)) = some true := by
    decide +kernel
  rcases Option.map_eq_some_iff.mp eval with ⟨s, hs, holds⟩
  exact ⟨_, s, run_of_foldlM hs, of_decide_eq_true holds⟩

end RestoreSystem

end ProbingBaselines.Dlrover
