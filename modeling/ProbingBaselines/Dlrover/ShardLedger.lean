import ProbingBaselines.Dlrover.BatchDatasetManager
import ProbingBaselines.Lib.Run

/-!
# The ledger of a dataset's shards

Every task that a `BatchDatasetManager` has created is waiting, being processed, completed or
dropped, whatever the workers report and in which order. The ledger adds to the manager the tasks it
has created, those completed and dropped, and the failures counted so far.
-/

namespace ProbingBaselines.Dlrover

open Lib

structure ShardLedger where
  manager : BatchDatasetManager
  created : List Task
  completed : List Task
  dropped : List Task
  failures : List Int

inductive ShardAct where
  | getTask (nodeType : String) (nodeId : Int) (now : ℚ) (rand : Nat → Nat)
  | reportTaskStatus (taskId : Int) (success : Bool) (now : ℚ)
  | recoverTasks (nodeType : String) (nodeId : Int) (now : ℚ)

namespace ShardLedger

def init (manager : BatchDatasetManager) : ShardLedger := ⟨manager, [], [], [], []⟩

def getTask (s : ShardLedger) (nodeType : String) (nodeId : Int) (now : ℚ) (rand : Nat → Nat) :
    ShardLedger :=
  { s with
    manager := (s.manager.getTask nodeType nodeId now rand).2
    created := s.created ++ s.manager.newTasks rand }

/-- The books of one report. -/
def report (s : ShardLedger) (taskId : Int) (success : Bool) (now : ℚ) : ShardLedger :=
  let manager := (s.manager.reportTaskStatus taskId success now).2
  match s.manager.doing.get? taskId with
  | none => { s with manager := manager }
  | some doingTask =>
    if success then { s with manager := manager, completed := s.completed ++ [doingTask.task] }
    else
      { s with
        manager := manager
        failures := s.failures ++ [taskId]
        dropped := if maxTaskRetries < doingTask.task.failed.retryCount
          then s.dropped ++ [doingTask.task.failed] else s.dropped }

def recoverTasks (s : ShardLedger) (nodeType : String) (nodeId : Int) (now : ℚ) : ShardLedger :=
  (s.manager.doingIds nodeType nodeId).foldl (fun s id ↦ s.report id false now) s

def step (s : ShardLedger) : ShardAct → Option ShardLedger
  | .getTask nodeType nodeId now rand => some (s.getTask nodeType nodeId now rand)
  | .reportTaskStatus taskId success now => some (s.report taskId success now)
  | .recoverTasks nodeType nodeId now => some (s.recoverTasks nodeType nodeId now)

/-- The books follow the manager's own report. -/
theorem report_manager (s : ShardLedger) (taskId : Int) (success : Bool) (now : ℚ) :
    (s.report taskId success now).manager =
      (s.manager.reportTaskStatus taskId success now).2 := by
  unfold report
  split
  · rfl
  · split <;> rfl

/-- The same for a recovery. -/
theorem recoverTasks_manager (s : ShardLedger) (nodeType : String) (nodeId : Int) (now : ℚ) :
    (s.recoverTasks nodeType nodeId now).manager = s.manager.recoverTasks nodeType nodeId now := by
  have fold : ∀ (ids : List Int) (s : ShardLedger),
      (ids.foldl (fun s id ↦ s.report id false now) s).manager =
        ids.foldl (fun m id ↦ (m.reportTaskStatus id false now).2) s.manager := by
    intro ids
    induction ids with
    | nil => exact fun s ↦ rfl
    | cons id ids ih =>
      intro s
      rw [List.foldl_cons, List.foldl_cons, ih, report_manager]
  exact fold _ s

/-- Every task on the books. -/
def held (s : ShardLedger) : List Task :=
  s.manager.todo ++ s.manager.doing.values.map DoingTask.task ++ s.completed ++ s.dropped

/-! ### Accounts -/

/-- `held` are the tasks created, numbered from zero, each with the failures counted for it. -/
structure Accounted (held created : List Task) (failures : List Int) (next : Nat) : Prop where
  perm : (held.map Task.ident).Perm (created.map Task.ident)
  ids : created.map Task.taskId = (List.range next).map fun n : Nat ↦ (n : Int)
  failures_lt : ∀ id ∈ failures, id < next
  retries : ∀ t ∈ held, t.retryCount = failures.count t.taskId

namespace Accounted

variable {held held' created : List Task} {failures : List Int} {next : Nat}

theorem congr (h : Accounted held created failures next) (same : held'.Perm held) :
    Accounted held' created failures next where
  perm := (same.map _).trans h.perm
  ids := h.ids
  failures_lt := h.failures_lt
  retries := fun t ht ↦ h.retries t (same.mem_iff.mp ht)

theorem created_nodup (h : Accounted held created failures next) :
    (created.map Task.taskId).Nodup := by
  rw [h.ids]
  exact List.nodup_range.map Nat.cast_injective

theorem ids_perm (h : Accounted held created failures next) :
    (held.map Task.taskId).Perm (created.map Task.taskId) := by
  have perm := h.perm.map Prod.fst
  simpa only [List.map_map, Function.comp_def, Task.ident] using perm

theorem held_nodup (h : Accounted held created failures next) : (held.map Task.taskId).Nodup :=
  h.ids_perm.nodup_iff.mpr h.created_nodup

theorem id_lt (h : Accounted held created failures next) {t : Task} (ht : t ∈ held) :
    0 ≤ t.taskId ∧ t.taskId < next := by
  have mem : t.taskId ∈ created.map Task.taskId := h.ids_perm.mem_iff.mp (List.mem_map_of_mem ht)
  rw [h.ids] at mem
  rcases List.mem_map.mp mem with ⟨n, hn, eq⟩
  rw [← eq]
  have lt := List.mem_range.mp hn
  omega

/-- New tasks are entered under the next numbers. -/
theorem extend (h : Accounted held created failures next) (taskType : TaskType)
    (shards : List Shard) :
    Accounted (held ++ numberTasks taskType next shards)
      (created ++ numberTasks taskType next shards) failures (next + shards.length) where
  perm := by
    rw [List.map_append, List.map_append]
    exact h.perm.append_right _
  ids := by
    rw [List.map_append, h.ids, numberTasks_ids, ← List.map_append, List.range'_eq_map_range,
      ← List.range_add]
  failures_lt := by
    intro id hid
    have lt := h.failures_lt id hid
    omega
  retries := by
    intro t ht
    rcases List.mem_append.mp ht with ht | ht
    · exact h.retries t ht
    · have new : t.taskId ∈ (numberTasks taskType next shards).map Task.taskId :=
        List.mem_map_of_mem ht
      rw [numberTasks_ids] at new
      rcases List.mem_map.mp new with ⟨n, hn, eq⟩
      have ge := (List.mem_range'_1.mp hn).1
      rw [retryCount_of_mem_numberTasks ht, eq_comm, List.count_eq_zero]
      intro mem
      have lt := h.failures_lt _ mem
      omega

/-- One more failure of a task on the books. -/
theorem fail {t : Task} {rest : List Task} (h : Accounted (t :: rest) created failures next) :
    Accounted (t.failed :: rest) created (failures ++ [t.taskId]) next where
  perm := h.perm
  ids := h.ids
  failures_lt := by
    intro id hid
    rcases List.mem_append.mp hid with hid | hid
    · exact h.failures_lt id hid
    · rw [List.mem_singleton.mp hid]
      exact (h.id_lt List.mem_cons_self).2
  retries := by
    intro u hu
    rw [List.count_append]
    rcases List.mem_cons.mp hu with rfl | hu
    · have counted := h.retries t List.mem_cons_self
      simp only [Task.failed, counted, List.count_cons_self, List.count_nil]
    · have other : t.taskId ≠ u.taskId := by
        intro eq
        have nodup := h.held_nodup
        rw [List.map_cons, List.nodup_cons] at nodup
        exact nodup.1 (eq ▸ List.mem_map_of_mem hu)
      rw [h.retries u (List.mem_cons_of_mem _ hu), List.count_singleton,
        beq_eq_false_iff_ne.mpr other]
      rfl

end Accounted

/-! ### What the operations do to the books -/

/-- A call of `get_task` enters the tasks of a new epoch and moves at most one task. -/
theorem getTask_held (s : ShardLedger) (nodeType : String) (nodeId : Int) (now : ℚ)
    (rand : Nat → Nat) (absent : ∀ t ∈ s.manager.todo ++ s.manager.newTasks rand,
      t.taskId ∉ s.manager.doing) :
    (s.getTask nodeType nodeId now rand).held.Perm (s.held ++ s.manager.newTasks rand) := by
  rcases s.manager.startEpoch_todo rand with ⟨queue, doing⟩
  rcases s.manager.getTask_cases nodeType nodeId now rand with ⟨none, eq⟩ | ⟨task, todo, some, eq⟩
  · rcases List.append_eq_nil_iff.mp none with ⟨todo, new⟩
    simp only [held, getTask, eq, queue, doing, todo, new, List.append_nil]
    exact .refl _
  · have new : task.taskId ∉ s.manager.doing := absent task (some ▸ List.mem_cons_self)
    simp only [held, getTask, eq, Dict.values, Dict.items_insert_of_not_mem _ new,
      List.map_append, List.map_cons, List.map_nil]
    rw [List.perm_iff_count]
    intro t
    have moved := congrArg (List.count t) some
    simp only [List.count_append, List.count_cons, List.count_nil] at moved ⊢
    omega

/-- A report of an unknown task changes nothing. -/
theorem report_unknown {s : ShardLedger} {taskId : Int} (unknown : taskId ∉ s.manager.doing)
    (success : Bool) (now : ℚ) : s.report taskId success now = s := by
  have found : s.manager.doing.get? taskId = none := Dict.get?_eq_none_iff.mpr unknown
  rcases s.manager.reportTaskStatus_cases taskId success now with ⟨-, eq⟩ | ⟨d, hd, -⟩
  · simp only [report, found, eq]
  · rw [found] at hd
    contradiction

/-- A report of a task being processed takes it off the list. It is entered again as completed,
or after one more failure as waiting or dropped. -/
theorem report_known {s : ShardLedger} {taskId : Int} {d : DoingTask}
    (found : (taskId, d) ∈ s.manager.doing.items) (success : Bool) (now : ℚ) :
    ∃ rest, s.held.Perm (d.task :: rest) ∧
      (s.report taskId success now).held.Perm
        ((if success then d.task else d.task.failed) :: rest) ∧
      (s.report taskId success now).manager.doing = s.manager.doing.erase taskId ∧
      (s.report taskId success now).manager.datasetSplitter = s.manager.datasetSplitter ∧
      (s.report taskId success now).manager.taskId = s.manager.taskId ∧
      (s.report taskId success now).created = s.created ∧
      (s.report taskId success now).failures =
        if success then s.failures else s.failures ++ [taskId] := by
  have hget := Dict.get?_eq_some_iff.mpr found
  rcases s.manager.reportTaskStatus_cases taskId success now with
    ⟨none, -⟩ | ⟨d', hd', doing, splitter, next, todo⟩
  · rw [hget] at none
    contradiction
  obtain rfl : d = d' := Option.some.inj (hget.symm.trans hd')
  have off := (Dict.erase_perm found).map fun e ↦ e.2.task
  refine ⟨s.manager.todo ++ (s.manager.doing.erase taskId).values.map DoingTask.task ++
    s.completed ++ s.dropped, ?_, ?_⟩
  · rw [List.perm_iff_count]
    intro t
    have moved := off.count_eq t
    simp only [held, Dict.values, List.map_map, Function.comp_def, List.map_cons,
      List.count_append, List.count_cons] at moved ⊢
    omega
  · have same := s.report_manager taskId success now
    rw [same, doing, splitter, next]
    refine ⟨?_, rfl, rfl, rfl, ?_⟩
    · rw [held, same, doing, todo, List.perm_iff_count]
      intro t
      cases success with
      | true =>
        simp only [report, hget, Bool.true_eq_false, false_and, if_false, if_true,
          List.count_append, List.count_cons, List.count_nil]
        omega
      | false =>
        by_cases spent : maxTaskRetries < d.task.failed.retryCount
        · simp only [report, hget, Bool.false_eq_true, true_and, if_false, if_pos spent,
            if_neg (Nat.not_le.mpr spent), List.count_append, List.count_cons, List.count_nil]
          omega
        · simp only [report, hget, Bool.false_eq_true, true_and, if_false, if_neg spent,
            if_pos (Nat.not_lt.mp spent), List.count_append, List.count_cons, List.count_nil]
          omega
    · simp only [report, hget]
      cases success with
      | true => exact ⟨rfl, rfl⟩
      | false => exact ⟨rfl, rfl⟩

/-! ### Recovery of a dead worker -/

/-- A failure takes the task off the list of its worker and puts it into the queue or drops it. -/
theorem report_failed (s : ShardLedger) (taskId : Int) (now : ℚ) :
    (s.report taskId false now).manager.doing = s.manager.doing.erase taskId ∧
      (∀ d, (taskId, d) ∈ s.manager.doing.items →
        d.task.failed ∈ (s.report taskId false now).manager.todo ++
          (s.report taskId false now).dropped) ∧
      s.manager.todo ⊆ (s.report taskId false now).manager.todo ∧
      s.dropped ⊆ (s.report taskId false now).dropped := by
  rcases s.manager.reportTaskStatus_cases taskId false now with
    ⟨none, eq⟩ | ⟨d, hd, doing, -, -, todo⟩
  · have unknown : taskId ∉ s.manager.doing := Dict.get?_eq_none_iff.mp none
    rw [report_unknown unknown, Dict.erase_of_not_mem unknown]
    exact ⟨rfl, fun d hd ↦ absurd (Dict.mem_of_mem_items hd) unknown, fun _ h ↦ h, fun _ h ↦ h⟩
  · simp only [report, hd, Bool.false_eq_true, if_false, true_and] at todo ⊢
    refine ⟨doing, ?_⟩
    rw [todo]
    by_cases spent : maxTaskRetries < d.task.failed.retryCount
    · rw [if_pos spent, if_neg (Nat.not_le.mpr spent)]
      refine ⟨?_, fun _ h ↦ h, List.subset_append_left _ _⟩
      intro d' hd'
      obtain rfl : d' = d := Dict.value_unique hd' (Dict.get?_eq_some_iff.mp hd)
      simp
    · rw [if_neg spent, if_pos (Nat.not_lt.mp spent)]
      refine ⟨?_, List.subset_append_left _ _, fun _ h ↦ h⟩
      intro d' hd'
      obtain rfl : d' = d := Dict.value_unique hd' (Dict.get?_eq_some_iff.mp hd)
      simp

/-- The same for a list of tasks. -/
theorem foldl_report_failed (now : ℚ) (ids : List Int) (s : ShardLedger) :
    let t := ids.foldl (fun s id ↦ s.report id false now) s
    (∀ e ∈ t.manager.doing.items, e ∈ s.manager.doing.items ∧ e.1 ∉ ids) ∧
      (∀ e ∈ s.manager.doing.items, e.1 ∈ ids →
        e.2.task.failed ∈ t.manager.todo ++ t.dropped) ∧
      s.manager.todo ⊆ t.manager.todo ∧ s.dropped ⊆ t.dropped := by
  induction ids generalizing s with
  | nil =>
    exact ⟨fun e he ↦ ⟨he, List.not_mem_nil⟩, fun e _ h ↦ absurd h List.not_mem_nil,
      fun _ h ↦ h, fun _ h ↦ h⟩
  | cons id ids ih =>
    rcases s.report_failed id now with ⟨doing, entered, todo, dropped⟩
    rcases ih (s.report id false now) with ⟨left, rest, todo', dropped'⟩
    refine ⟨?_, ?_, fun _ h ↦ todo' (todo h), fun _ h ↦ dropped' (dropped h)⟩
    · intro e he
      rcases left e he with ⟨mem, other⟩
      rw [doing] at mem
      rcases Dict.mem_items_erase.mp mem with ⟨mem, ne⟩
      exact ⟨mem, List.not_mem_cons_of_ne_of_not_mem ne other⟩
    · intro e he hid
      by_cases same : e.1 = id
      · have first := entered e.2 (by rw [← same]; exact he)
        rcases List.mem_append.mp first with first | first
        · exact List.mem_append_left _ (todo' first)
        · exact List.mem_append_right _ (dropped' first)
      · apply rest e
        · rw [doing]
          exact Dict.mem_items_erase.mpr ⟨he, same⟩
        · exact (List.mem_cons.mp hid).resolve_left same

/-- After the recovery of a node nothing is on its list any more, and what was is in the queue
or dropped. -/
theorem recoverTasks_spec (s : ShardLedger) (nodeType : String) (nodeId : Int) (now : ℚ) :
    let t := s.recoverTasks nodeType nodeId now
    (∀ e ∈ t.manager.doing.items, ¬(e.2.nodeId = nodeId ∧ e.2.nodeType = nodeType)) ∧
      ∀ e ∈ s.manager.doing.items, e.2.nodeId = nodeId ∧ e.2.nodeType = nodeType →
        e.2.task.failed ∈ t.manager.todo ++ t.dropped := by
  rcases foldl_report_failed now (s.manager.doingIds nodeType nodeId) s with ⟨left, entered, -⟩
  have listed : ∀ e ∈ s.manager.doing.items, e.2.nodeId = nodeId ∧ e.2.nodeType = nodeType →
      e.1 ∈ s.manager.doingIds nodeType nodeId := by
    intro e he owner
    exact List.mem_map_of_mem (List.mem_filter.mpr ⟨he, decide_eq_true owner⟩)
  constructor
  · intro e he owner
    rcases left e he with ⟨mem, other⟩
    exact other (listed e mem owner)
  · intro e he owner
    exact entered e he (listed e he owner)

/-! ### The whole run -/

/-- The shards created so far are those of the epochs started, each of them once. -/
structure Covered (datasetSize shardSize : Nat) (numEpochs : Nat) (sp : TableDatasetSplitter)
    (shards : List Shard) : Prop where
  configured : sp.Configured datasetSize shardSize numEpochs
  kept : sp.Kept
  positive : 0 < sp.numEpochs
  within : sp.epoch ≤ sp.numEpochs
  count : ∀ i < datasetSize,
    shards.countP (fun c ↦ c.Covers i) = Nat.count (fun e ↦ sp.CoversAt e i) sp.epoch
  size : ∀ c ∈ shards, 1 ≤ c.stop - c.start ∧ c.stop - c.start ≤ shardSize

theorem Covered.create {datasetSize shardSize numEpochs : Nat} {sp : TableDatasetSplitter}
    {shards : List Shard} (h : Covered datasetSize shardSize numEpochs sp shards)
    (unfinished : (DatasetSplitter.table sp).epochFinished = false) (rand : Nat → Nat) :
    Covered datasetSize shardSize numEpochs (sp.createShards rand).2
      (shards ++ (sp.createShards rand).1) := by
  rcases sp.createShards_spec h.kept rand with ⟨new, perm, eq⟩
  rw [eq]
  refine ⟨⟨h.configured.datasetSize_eq, h.configured.shardSize_eq, h.configured.set,
    h.configured.numEpochs_eq⟩, ?_, h.positive, ?_, ?_, ?_⟩
  · exact .next perm _
  · have going : ¬sp.numEpochs ≤ sp.epoch := by
      intro last
      have finished := (DatasetSplitter.epochFinished_iff (s := .table sp)).mpr ⟨h.positive, last⟩
      rw [unfinished] at finished
      contradiction
    simp only
    omega
  · intro i hi
    have here : i < sp.datasetSize := by
      rw [h.configured.datasetSize_eq]
      exact hi
    have epoch := TableDatasetSplitter.countP_epochShards h.configured.set here
    rw [List.countP_append, h.count i hi, perm.countP_eq, epoch]
    exact (Nat.count_succ _ _).symm
  · intro c hc
    rcases List.mem_append.mp hc with hc | hc
    · exact h.size c hc
    · have bound := TableDatasetSplitter.epochShards_size (perm.mem_iff.mp hc)
      rw [h.configured.shardSize_eq] at bound
      exact bound

theorem covered_new (name : String) (datasetSize shardSize numEpochs : Nat) (shuffle : Bool)
    (maxShardCount : Nat) (hs : 0 < shardSize) (hm : 0 < maxShardCount) (he : 1 ≤ numEpochs) :
    Covered datasetSize shardSize numEpochs
      (.new name datasetSize shardSize numEpochs shuffle maxShardCount hs hm) [] := by
  have configured := TableDatasetSplitter.new_configured name datasetSize shardSize numEpochs
    shuffle maxShardCount hs hm
  rcases TableDatasetSplitter.new_start name datasetSize shardSize numEpochs shuffle maxShardCount
    hs hm with ⟨epoch, shards⟩
  generalize TableDatasetSplitter.new name datasetSize shardSize numEpochs shuffle maxShardCount
    hs hm = sp at *
  have positive : 0 < sp.numEpochs := by
    rw [configured.numEpochs_eq]
    split
    · next huge =>
      have some : 0 < sp.subepochNumPerEpoch := by
        rw [configured.set huge, lt_ceilQuotient sp.maxShardCount_pos]
        omega
      exact Int.mul_pos (by omega) (by omega)
    · omega
  refine ⟨configured, .inl shards, positive, by omega, ?_, fun c hc ↦ absurd hc List.not_mem_nil⟩
  intro i _
  rw [epoch, Nat.count_zero, List.countP_nil]

/-- When the splitter has finished its epochs, each record was in `numEpochs` shards. -/
theorem Covered.finished {datasetSize shardSize numEpochs : Nat} {sp : TableDatasetSplitter}
    {shards : List Shard} (h : Covered datasetSize shardSize numEpochs sp shards)
    (finished : (DatasetSplitter.table sp).epochFinished = true) {i : Nat} (hi : i < datasetSize) :
    shards.countP (fun c ↦ c.Covers i) = numEpochs := by
  have last : sp.epoch = sp.numEpochs.toNat := by
    have reached : sp.numEpochs ≤ sp.epoch :=
      (DatasetSplitter.epochFinished_iff.mp finished).2
    have within := h.within
    omega
  have here : i < sp.datasetSize := by
    rw [h.configured.datasetSize_eq]
    exact hi
  rw [h.count i hi, last]
  exact TableDatasetSplitter.count_coversAt h.configured.set here h.configured.numEpochs_eq

/-- The books balance, and the shards on them are those of the table. -/
structure Balanced (datasetSize shardSize numEpochs : Nat) (s : ShardLedger) : Prop where
  accounted : Accounted s.held s.created s.failures s.manager.taskId
  keyed : ∀ e ∈ s.manager.doing.items, e.2.task.taskId = e.1
  spent : ∀ t ∈ s.dropped, maxTaskRetries < t.retryCount
  covered : ∃ sp, s.manager.datasetSplitter = .table sp ∧
    Covered datasetSize shardSize numEpochs sp (s.created.map Task.shard)

section Balanced

variable {datasetSize shardSize numEpochs : Nat} {s : ShardLedger}

theorem Balanced.getTask (h : Balanced datasetSize shardSize numEpochs s) (nodeType : String)
    (nodeId : Int) (now : ℚ) (rand : Nat → Nat) :
    Balanced datasetSize shardSize numEpochs (s.getTask nodeType nodeId now rand) := by
  -- the tasks of a new epoch are entered first
  have entered : ∃ shards, s.manager.newTasks rand =
        numberTasks s.manager.taskType s.manager.taskId shards ∧
      (s.manager.startEpoch rand).taskId = s.manager.taskId + shards.length ∧
      ∃ sp, (s.manager.startEpoch rand).datasetSplitter = .table sp ∧
        Covered datasetSize shardSize numEpochs sp (s.created.map Task.shard ++ shards) := by
    rcases h.covered with ⟨sp, table, covered⟩
    rcases s.manager.startEpoch_cases rand with ⟨-, unfinished, eq, new⟩ | ⟨-, eq, new⟩
    · rw [table] at unfinished
      refine ⟨_, new, by rw [eq], (sp.createShards rand).2, ?_, ?_⟩
      · rw [eq, table]
        rfl
      · rw [table]
        exact covered.create unfinished rand
    · refine ⟨[], by rw [new]; rfl, by rw [eq]; rfl, sp, by rw [eq, table], ?_⟩
      rw [List.append_nil]
      exact covered
  rcases entered with ⟨shards, new, next, sp, table, covered⟩
  have books := h.accounted.extend s.manager.taskType shards
  rw [← new, ← next] at books
  have absent : ∀ t ∈ s.manager.todo ++ s.manager.newTasks rand, t.taskId ∉ s.manager.doing := by
    intro t ht mem
    rcases Dict.mem_iff.mp mem with ⟨d, hd⟩
    have busy : d.task ∈ s.manager.doing.values.map DoingTask.task :=
      List.mem_map_of_mem (List.mem_map_of_mem hd)
    have id : d.task.taskId = t.taskId := h.keyed _ hd
    have order : (s.manager.todo ++ s.manager.newTasks rand ++
        (s.manager.doing.values.map DoingTask.task ++ (s.completed ++ s.dropped))).Perm
        (s.held ++ s.manager.newTasks rand) := by
      rw [List.perm_iff_count]
      intro u
      simp only [held, List.count_append]
      omega
    have nodup := (order.map Task.taskId).nodup_iff.mpr books.held_nodup
    rw [List.map_append, List.nodup_append] at nodup
    exact nodup.2.2 _ (List.mem_map_of_mem ht) _
      (List.mem_map_of_mem (List.mem_append_left _ busy)) id.symm
  have frame : (s.getTask nodeType nodeId now rand).manager.taskId =
        (s.manager.startEpoch rand).taskId ∧
      (s.getTask nodeType nodeId now rand).manager.datasetSplitter =
        (s.manager.startEpoch rand).datasetSplitter ∧
      ∀ e ∈ (s.getTask nodeType nodeId now rand).manager.doing.items,
        e.2.task.taskId = e.1 := by
    rcases s.manager.getTask_cases nodeType nodeId now rand with ⟨-, eq⟩ | ⟨task, todo, -, eq⟩
    · rw [ShardLedger.getTask, eq]
      refine ⟨rfl, rfl, ?_⟩
      rw [(s.manager.startEpoch_todo rand).2]
      exact h.keyed
    · rw [ShardLedger.getTask, eq]
      refine ⟨rfl, rfl, ?_⟩
      intro e he
      rcases Dict.mem_items_insert.mp he with ⟨hid, hd⟩ | ⟨-, he⟩
      · rw [hid, hd]
      · exact h.keyed e he
  constructor
  · rw [frame.1]
    exact books.congr (s.getTask_held nodeType nodeId now rand absent)
  · exact frame.2.2
  · exact h.spent
  · refine ⟨sp, frame.2.1.trans table, ?_⟩
    rw [ShardLedger.getTask, List.map_append, new, numberTasks_shards]
    exact covered

theorem Balanced.report (h : Balanced datasetSize shardSize numEpochs s) (taskId : Int)
    (success : Bool) (now : ℚ) :
    Balanced datasetSize shardSize numEpochs (s.report taskId success now) := by
  by_cases known : taskId ∈ s.manager.doing
  · rcases Dict.mem_iff.mp known with ⟨d, found⟩
    rcases report_known found success now with
      ⟨rest, before, after, doing, splitter, next, created, failures⟩
    have id : d.task.taskId = taskId := h.keyed _ found
    have books : Accounted (d.task :: rest) s.created s.failures s.manager.taskId :=
      h.accounted.congr before.symm
    constructor
    · rw [created, failures, next]
      refine .congr ?_ after
      cases success with
      | true => exact books
      | false =>
        rw [← id]
        exact books.fail
    · intro e he
      rw [doing] at he
      exact h.keyed e (Dict.mem_items_erase.mp he).1
    · intro t ht
      simp only [ShardLedger.report, Dict.get?_eq_some_iff.mpr found] at ht
      split at ht
      · exact h.spent t ht
      · simp only at ht
        split at ht
        · next spent =>
          rcases List.mem_append.mp ht with ht | ht
          · exact h.spent t ht
          · rw [List.mem_singleton.mp ht]
            exact spent
        · exact h.spent t ht
    · rw [splitter, created]
      exact h.covered
  · rw [report_unknown known]
    exact h

theorem Balanced.recoverTasks (h : Balanced datasetSize shardSize numEpochs s) (nodeType : String)
    (nodeId : Int) (now : ℚ) :
    Balanced datasetSize shardSize numEpochs (s.recoverTasks nodeType nodeId now) := by
  have fold : ∀ (ids : List Int) (s : ShardLedger), Balanced datasetSize shardSize numEpochs s →
      Balanced datasetSize shardSize numEpochs
        (ids.foldl (fun s id ↦ s.report id false now) s) := by
    intro ids
    induction ids with
    | nil => exact fun s h ↦ h
    | cons id ids ih => exact fun s h ↦ ih _ (h.report id false now)
  exact fold _ s h

theorem step_balanced {t : ShardLedger} {a : ShardAct}
    (h : Balanced datasetSize shardSize numEpochs s) (taken : s.step a = some t) :
    Balanced datasetSize shardSize numEpochs t := by
  cases a with
  | getTask nodeType nodeId now rand =>
    cases taken
    exact h.getTask nodeType nodeId now rand
  | reportTaskStatus taskId success now =>
    cases taken
    exact h.report taskId success now
  | recoverTasks nodeType nodeId now =>
    cases taken
    exact h.recoverTasks nodeType nodeId now

end Balanced

/-- The manager of a table. -/
def tableManager (taskType : TaskType) (batchSize : Nat) (hb : 0 < batchSize) (name : String)
    (datasetSize shardSize numEpochs : Nat) (shuffle : Bool) (maxShardCount : Nat)
    (hs : 0 < shardSize) (hm : 0 < maxShardCount) : BatchDatasetManager :=
  .new taskType batchSize
    (.table (.new name datasetSize shardSize numEpochs shuffle maxShardCount hs hm)) hb

theorem run_balanced {taskType : TaskType} {batchSize : Nat} {hb : 0 < batchSize} {name : String}
    {datasetSize shardSize numEpochs : Nat} {shuffle : Bool} {maxShardCount : Nat}
    {hs : 0 < shardSize} {hm : 0 < maxShardCount} (he : 1 ≤ numEpochs) {acts : List ShardAct}
    {s : ShardLedger}
    (run : Run step anyStep (init (tableManager taskType batchSize hb name datasetSize shardSize
      numEpochs shuffle maxShardCount hs hm)) acts s) :
    Balanced datasetSize shardSize numEpochs s := by
  apply run.invariant (P := Balanced datasetSize shardSize numEpochs)
  · exact ⟨⟨.refl _, rfl, fun _ h ↦ absurd h List.not_mem_nil, fun _ h ↦ absurd h List.not_mem_nil⟩,
      fun _ h ↦ absurd h List.not_mem_nil, fun _ h ↦ absurd h List.not_mem_nil,
      _, rfl, covered_new name datasetSize shardSize numEpochs shuffle maxShardCount hs hm he⟩
  · intro t u a h _ taken
    exact step_balanced h taken

/-- In every history of a table's tasks: no task number is given twice; the tasks created are those
waiting, being processed, completed and dropped, the last after more than three failures; every
shard has between one record and the shard size; when the dataset is completed each record was in
`numEpochs` shards; and the recovery of a node clears its list into the queue or drops. -/
theorem ledger_balances {taskType : TaskType} {batchSize : Nat} {hb : 0 < batchSize} {name : String}
    {datasetSize shardSize numEpochs : Nat} {shuffle : Bool} {maxShardCount : Nat}
    {hs : 0 < shardSize} {hm : 0 < maxShardCount} (he : 1 ≤ numEpochs) {acts : List ShardAct}
    {s : ShardLedger}
    (run : Run step anyStep (init (tableManager taskType batchSize hb name datasetSize shardSize
      numEpochs shuffle maxShardCount hs hm)) acts s) :
    (s.created.map Task.taskId).Nodup ∧
    ((s.manager.todo ++ s.manager.doing.values.map DoingTask.task ++ s.completed ++
      s.dropped).map Task.ident).Perm (s.created.map Task.ident) ∧
    (∀ t ∈ s.dropped, 3 < s.failures.count t.taskId) ∧
    (∀ t ∈ s.created, 1 ≤ t.shard.stop - t.shard.start ∧
      t.shard.stop - t.shard.start ≤ shardSize) ∧
    (s.manager.completed = true → ∀ i < datasetSize,
      s.created.countP (fun t ↦ t.shard.Covers i) = numEpochs) ∧
    ∀ nodeType nodeId now,
      (∀ e ∈ (s.manager.recoverTasks nodeType nodeId now).doing.items,
        ¬(e.2.nodeId = nodeId ∧ e.2.nodeType = nodeType)) ∧
      ∀ e ∈ s.manager.doing.items, e.2.nodeId = nodeId ∧ e.2.nodeType = nodeType →
        ∃ t ∈ (s.manager.recoverTasks nodeType nodeId now).todo ++
          (s.recoverTasks nodeType nodeId now).dropped, t.ident = e.2.task.ident := by
  have h := run_balanced he run
  rcases h.covered with ⟨sp, table, covered⟩
  refine ⟨h.accounted.created_nodup, h.accounted.perm, ?_, ?_, ?_, ?_⟩
  · intro t ht
    rw [← h.accounted.retries t (List.mem_append_right _ ht)]
    exact h.spent t ht
  · intro t ht
    exact covered.size _ (List.mem_map_of_mem ht)
  · intro completed i hi
    simp only [BatchDatasetManager.completed, Bool.and_eq_true] at completed
    rw [table] at completed
    have count := covered.finished completed.1.1 hi
    rwa [List.countP_map] at count
  · intro nodeType nodeId now
    rcases s.recoverTasks_spec nodeType nodeId now with ⟨cleared, entered⟩
    rw [← recoverTasks_manager]
    exact ⟨cleared, fun e he owner ↦ ⟨_, entered e he owner, rfl⟩⟩

/-- Two epochs of five records in sub-epochs of one shard of two. The first task fails once, and
worker 1 dies with the second. -/
theorem ledger_balances_two_epochs :
    ∃ acts s, Run step anyStep (init (tableManager .training 1 (by decide) "t" 5 2 2 true 1
        (by decide) (by decide))) acts s ∧ s.manager.completed = true ∧ s.failures = [0, 1] ∧
      ∀ i < 5, s.created.countP (fun t ↦ t.shard.Covers i) = 2 := by
  let get (n : Int) : ShardAct := .getTask "worker" n 0 fun _ ↦ 0
  let done (id : Int) : ShardAct := .reportTaskStatus id true 1
  have eval : ([get 0, .reportTaskStatus 0 false 1, get 0, get 1, .recoverTasks "worker" 1 1,
      done 0, done 1, get 0, done 1, get 0, done 2, get 0, done 3, get 0, done 4, get 0,
      done 5].foldlM step
      (init (tableManager .training 1 (by decide) "t" 5 2 2 true 1 (by decide) (by decide)))).map
      (fun s ↦ decide (s.manager.completed = true ∧ s.failures = [0, 1])) = some true := by
    decide +kernel
  rcases Option.map_eq_some_iff.mp eval with ⟨s, hs, holds⟩
  have run := run_of_foldlM hs
  have facts := of_decide_eq_true holds
  exact ⟨_, s, run, facts.1, facts.2, (ledger_balances (by decide) run).2.2.2.2.1 facts.1⟩

end ShardLedger

end ProbingBaselines.Dlrover
