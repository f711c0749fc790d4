import ProbingBaselines.Dlrover.ShardLedger

/-!
# The master's answer to a request for a task

`MasterServicer._get_task` (`servicer.py:210-233`) asks the task manager for a shard. A worker that
gets no shard stops (`elastic_agent/sharding/client.py:114-133`), unless it is told to wait. The
request to wait is meant for a queue that is empty while other workers still process shards which
may come back to it. It is made when the task manager returns no task at all; but an empty queue is
answered with an invalid task, which is an object like any other.
-/

namespace ProbingBaselines.Dlrover

open Lib

/-- The message `comm.Task` with its `comm.Shard`; `comm.py:156-169`. -/
structure TaskMessage where
  taskId : Int
  type : TaskType
  name : String
  start : Int
  stop : Int
  indices : List Nat

/-- The defaults of the message. -/
def TaskMessage.default : TaskMessage := ⟨0, .none, "", 0, 0, []⟩

/-- `TaskManager.get_dataset_task` on the dataset of the request, if there is one. -/
def getDatasetTask (dataset : Option BatchDatasetManager) (nodeType : String) (nodeId : Int)
    (now : ℚ) (rand : Nat → Nat) : Option Task × Option BatchDatasetManager :=
  match dataset with
  | none => (none, none)
  | some dataset =>
    let (task, dataset) := dataset.getTask nodeType nodeId now rand
    (some task, some dataset)

/-- `MasterServicer._get_task`. -/
def serveTask (dataset : Option BatchDatasetManager) (nodeType : String) (nodeId : Int)
    (now : ℚ) (rand : Nat → Nat) : TaskMessage × Option BatchDatasetManager :=
  let res := TaskMessage.default
  match getDatasetTask dataset nodeType nodeId now rand with
  | (some task, dataset) =>
    ({ res with
      taskId := task.taskId
      type := task.taskType
      name := task.shard.name
      start := task.shard.start
      stop := task.shard.stop
      indices := task.shard.recordIndices.getD [] }, dataset)
  | (none, some dataset) =>
    (if dataset.completed then res else { res with type := .wait }, some dataset)
  | (none, none) => (res, none)

namespace BatchDatasetManager

/-- What a worker hears, and the dataset at that moment. -/
def answer (s : BatchDatasetManager) (nodeType : String) (nodeId : Int) (now : ℚ)
    (rand : Nat → Nat) : TaskMessage × BatchDatasetManager :=
  ((serveTask (some s) nodeType nodeId now rand).1, (s.getTask nodeType nodeId now rand).2)

/-- The end of the data is announced only on a completed dataset; a worker for whom there is no
shard while another one processes some is told to wait. -/
structure Announced (nodeType : String) (nodeId : Int) (res : TaskMessage)
    (s : BatchDatasetManager) : Prop where
  last : res.taskId = -1 → res.type ≠ .wait → s.completed = true
  wait : res.taskId = -1 → (∃ e ∈ s.doing.items, ¬(e.2.nodeId = nodeId ∧ e.2.nodeType = nodeType)) →
    res.type = .wait

/-- There is a shard for the asker: one is queued, or an epoch with records can start. -/
def Deliverable (s : BatchDatasetManager) : Prop :=
  s.todo ≠ [] ∨ s.datasetSplitter.epochFinished = false ∧ 0 < s.datasetSplitter.datasetSize

/-- Nothing is being processed and the epochs are used up, if need be by this call. -/
def Drained (s : BatchDatasetManager) : Prop :=
  s.doing.items = [] ∧ (s.datasetSplitter.epochFinished = true ∨
    0 < s.datasetSplitter.numEpochs ∧ s.datasetSplitter.numEpochs ≤ s.datasetSplitter.epoch + 1)

theorem completed_iff {s : BatchDatasetManager} :
    s.completed = true ↔ s.datasetSplitter.epochFinished = true ∧ s.todo = [] ∧
      s.doing.items = [] := by
  simp only [completed, Bool.and_eq_true, decide_eq_true_eq, and_assoc]

/-- The queue is empty after the start of a call just when there is no shard for the asker. -/
theorem queue_eq_nil {s : BatchDatasetManager} (wf : s.datasetSplitter.WellFormed)
    (rand : Nat → Nat) : s.todo ++ s.newTasks rand = [] ↔ ¬s.Deliverable := by
  have none : numberTasks s.taskType s.taskId (s.datasetSplitter.createShards rand).1 = [] ↔
      s.datasetSplitter.datasetSize = 0 := by
    rw [← DatasetSplitter.createShards_eq_nil wf rand,
      ← List.map_eq_nil_iff (f := Task.shard), numberTasks_shards]
  rw [List.append_eq_nil_iff, Deliverable, newTasks]
  by_cases fresh : s.todo = [] ∧ s.datasetSplitter.epochFinished = false
  · rw [if_pos fresh, none]
    simp only [fresh.1, fresh.2, ne_eq, not_true_eq_false, true_and, false_or]
    omega
  · rw [if_neg fresh]
    constructor
    · rintro ⟨todo, -⟩ (some | ⟨unfinished, -⟩)
      · exact some todo
      · exact fresh ⟨todo, unfinished⟩
    · intro nothing
      exact ⟨by_contra fun some ↦ nothing (.inl some), rfl⟩

/-- A call on an empty queue leaves a completed dataset just when it was drained. -/
theorem completed_startEpoch {s : BatchDatasetManager} (rand : Nat → Nat)
    (empty : s.todo ++ s.newTasks rand = []) :
    (s.startEpoch rand).completed = true ↔ s.Drained := by
  rcases s.startEpoch_todo rand with ⟨queue, doing⟩
  rw [completed_iff, queue, doing, empty, Drained]
  rcases s.startEpoch_cases rand with ⟨todo, unfinished, eq, -⟩ | ⟨other, eq, -⟩
  · rcases s.datasetSplitter.createShards_frame rand with ⟨epoch, numEpochs, -, -⟩
    have next : (s.startEpoch rand).datasetSplitter.epochFinished = true ↔
        0 < s.datasetSplitter.numEpochs ∧
          s.datasetSplitter.numEpochs ≤ s.datasetSplitter.epoch + 1 := by
      rw [eq, DatasetSplitter.epochFinished_iff]
      simp only [epoch, numEpochs]
      omega
    rw [next, unfinished]
    simp only [Bool.false_eq_true, false_or, true_and]
    exact and_comm
  · have todo : s.todo = [] := (List.append_eq_nil_iff.mp empty).1
    have finished : s.datasetSplitter.epochFinished = true := by
      by_contra unfinished
      exact other ⟨todo, Bool.eq_false_iff.mpr unfinished⟩
    rw [eq, finished]
    simp only [true_and, true_or, and_true]

/-- The message for a task. -/
theorem answer_fst (s : BatchDatasetManager) (nodeType : String) (nodeId : Int) (now : ℚ)
    (rand : Nat → Nat) :
    (s.answer nodeType nodeId now rand).1.taskId = (s.getTask nodeType nodeId now rand).1.taskId ∧
      (s.answer nodeType nodeId now rand).1.type =
        (s.getTask nodeType nodeId now rand).1.taskType :=
  ⟨rfl, rfl⟩

/-- A request is answered as it should be just when there is a shard for the asker or the dataset
is drained. -/
theorem announced_iff {s : BatchDatasetManager} (wf : s.datasetSplitter.WellFormed)
    (numbered : s.Numbered 0) (nodeType : String) (nodeId : Int) (now : ℚ) (rand : Nat → Nat) :
    Announced nodeType nodeId (s.answer nodeType nodeId now rand).1
      (s.answer nodeType nodeId now rand).2 ↔ s.Deliverable ∨ s.Drained := by
  rcases s.answer_fst nodeType nodeId now rand with ⟨id, type⟩
  rcases s.getTask_cases nodeType nodeId now rand with ⟨empty, eq⟩ | ⟨task, todo, some, eq⟩
  · have idle := (queue_eq_nil wf rand).mp empty
    have after : (s.answer nodeType nodeId now rand).2 = s.startEpoch rand := by
      rw [answer, eq]
    rw [eq] at id type
    rw [after, or_iff_right idle, ← completed_startEpoch rand empty]
    constructor
    · intro announced
      apply announced.last id
      rw [type]
      exact nofun
    · intro completed
      refine ⟨fun _ _ ↦ completed, ?_⟩
      rintro - ⟨e, he, -⟩
      rw [(completed_iff.mp completed).2.2] at he
      exact absurd he List.not_mem_nil
  · have shard : s.Deliverable := by
      by_contra idle
      rw [(queue_eq_nil wf rand).mpr idle] at some
      contradiction
    have valid : (s.answer nodeType nodeId now rand).1.taskId ≠ -1 := by
      have mem : task ∈ (s.startEpoch rand).todo := by
        rw [(s.startEpoch_todo rand).1, some]
        exact List.mem_cons_self
      have positive := ((numbered.startEpoch rand).todo task mem).1
      rw [id, eq]
      intro invalid
      have same : task.taskId = -1 := invalid
      omega
    exact iff_of_true ⟨fun h ↦ absurd h valid, fun h ↦ absurd h valid⟩ (.inl shard)

end BatchDatasetManager

namespace ShardLedger

/-- The splitter stays well-formed and the tasks numbered from zero. -/
def Sound (s : ShardLedger) : Prop :=
  s.manager.datasetSplitter.WellFormed ∧ s.manager.Numbered 0

theorem step_sound {s t : ShardLedger} {a : ShardAct} (h : s.Sound) (taken : s.step a = some t) :
    t.Sound := by
  have report : ∀ (s : ShardLedger) (taskId : Int) (success : Bool) (now : ℚ), s.Sound →
      (s.report taskId success now).Sound := by
    intro s taskId success now h
    by_cases known : taskId ∈ s.manager.doing
    · rcases Dict.mem_iff.mp known with ⟨d, found⟩
      rcases report_known found success now with ⟨_, -, -, -, splitter, -⟩
      refine ⟨splitter ▸ h.1, ?_⟩
      rw [report_manager]
      exact h.2.reportTaskStatus taskId success now
    · rw [report_unknown known]
      exact h
  cases a with
  | getTask nodeType nodeId now rand =>
    cases taken
    refine ⟨?_, h.2.getTask nodeType nodeId now rand⟩
    have splitter : (s.getTask nodeType nodeId now rand).manager.datasetSplitter =
        (s.manager.startEpoch rand).datasetSplitter := by
      rcases s.manager.getTask_cases nodeType nodeId now rand with ⟨-, eq⟩ | ⟨task, todo, -, eq⟩
      · rw [ShardLedger.getTask, eq]
      · rw [ShardLedger.getTask, eq]
    rw [splitter]
    rcases s.manager.startEpoch_cases rand with ⟨-, -, eq, -⟩ | ⟨-, eq, -⟩
    · rw [eq]
      exact h.1.createShards rand
    · rw [eq]
      exact h.1
  | reportTaskStatus taskId success now =>
    cases taken
    exact report s taskId success now h
  | recoverTasks nodeType nodeId now =>
    cases taken
    have fold : ∀ (ids : List Int) (s : ShardLedger), s.Sound →
        (ids.foldl (fun s id ↦ s.report id false now) s).Sound := by
      intro ids
      induction ids with
      | nil => exact fun s h ↦ h
      | cons id ids ih => exact fun s h ↦ ih _ (report s id false now h)
    exact fold _ s h

theorem run_sound {taskType : TaskType} {batchSize : Nat} {hb : 0 < batchSize}
    {splitter : DatasetSplitter} (new : splitter.Constructed) {acts : List ShardAct}
    {s : ShardLedger}
    (run : Run step anyStep (init (.new taskType batchSize splitter hb)) acts s) : s.Sound := by
  apply run.invariant (P := Sound)
  · exact ⟨new.wellFormed, .new taskType batchSize splitter hb⟩
  · intro t u a h _ taken
    exact step_sound h taken

/-- In every run of workers fetching, completing, failing and dying, a request is answered as it
should be just when there is a shard for the asker or the dataset is drained. -/
theorem endOfData_iff {taskType : TaskType} {batchSize : Nat} {hb : 0 < batchSize}
    {splitter : DatasetSplitter} (new : splitter.Constructed) {acts : List ShardAct}
    {s : ShardLedger}
    (run : Run step anyStep (init (.new taskType batchSize splitter hb)) acts s)
    (nodeType : String) (nodeId : Int) (now : ℚ) (rand : Nat → Nat) :
    BatchDatasetManager.Announced nodeType nodeId
      (s.manager.answer nodeType nodeId now rand).1 (s.manager.answer nodeType nodeId now rand).2 ↔
      s.manager.Deliverable ∨ s.manager.Drained := by
  rcases run_sound new run with ⟨wf, numbered⟩
  exact BatchDatasetManager.announced_iff wf numbered nodeType nodeId now rand

/-- One shard, fetched by worker 0 and completed: the next request hears of the end. -/
theorem endOfData_iff_drained :
    ∃ acts s, Run step anyStep (init (.new .training 1
        (.table (.new "t" 2 2 1 false 50000 (by decide) (by decide))) (by decide))) acts s ∧
      s.manager.Drained ∧
        BatchDatasetManager.Announced "worker" 1 (s.manager.answer "worker" 1 0 fun _ ↦ 0).1
          (s.manager.answer "worker" 1 0 fun _ ↦ 0).2 := by
  have eval : ([.getTask "worker" 0 0 (fun _ ↦ 0), .reportTaskStatus 0 true 1].foldlM step
      (init (.new .training 1 (.table (.new "t" 2 2 1 false 50000 (by decide) (by decide)))
        (by decide)))).map (fun s ↦ decide (s.manager.doing.items = [] ∧
          s.manager.datasetSplitter.epochFinished = true)) = some true := by
    decide +kernel
  rcases Option.map_eq_some_iff.mp eval with ⟨s, hs, holds⟩
  have run := run_of_foldlM hs
  rcases of_decide_eq_true holds with ⟨idle, finished⟩
  have drained : s.manager.Drained := ⟨idle, .inl finished⟩
  exact ⟨_, s, run, drained, (endOfData_iff (.table ..) run "worker" 1 0 fun _ ↦ 0).mpr
    (.inr drained)⟩

/-- While worker 0 processes the only shard, worker 1 is told that there is no more. -/
theorem endOfData_early :
    ∃ acts s, Run step anyStep (init (.new .training 1
        (.table (.new "t" 2 2 1 false 50000 (by decide) (by decide))) (by decide))) acts s ∧
      (s.manager.answer "worker" 1 0 fun _ ↦ 0).1.taskId = -1 ∧
      (s.manager.answer "worker" 1 0 fun _ ↦ 0).1.type ≠ .wait ∧
      (s.manager.answer "worker" 1 0 fun _ ↦ 0).2.completed = false ∧
      ∃ e ∈ (s.manager.answer "worker" 1 0 fun _ ↦ 0).2.doing.items, e.2.nodeId = 0 := by
  have eval : ([.getTask "worker" 0 0 (fun _ ↦ 0)].foldlM step
      (init (.new .training 1 (.table (.new "t" 2 2 1 false 50000 (by decide) (by decide)))
        (by decide)))).map (fun s ↦
          decide ((s.manager.answer "worker" 1 0 fun _ ↦ 0).1.taskId = -1 ∧
            (s.manager.answer "worker" 1 0 fun _ ↦ 0).1.type ≠ .wait ∧
            (s.manager.answer "worker" 1 0 fun _ ↦ 0).2.completed = false ∧
            ∃ e ∈ (s.manager.answer "worker" 1 0 fun _ ↦ 0).2.doing.items, e.2.nodeId = 0)) =
      some true := by
    decide +kernel
  rcases Option.map_eq_some_iff.mp eval with ⟨s, hs, holds⟩
  exact ⟨_, s, run_of_foldlM hs, of_decide_eq_true holds⟩

end ShardLedger

end ProbingBaselines.Dlrover
