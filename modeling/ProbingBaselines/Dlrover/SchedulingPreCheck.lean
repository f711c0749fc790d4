import Mathlib.Algebra.Order.Ring.Rat
import Mathlib.Data.List.Nodup
import Mathlib.Data.List.ReduceOption
import Mathlib.Tactic.Linarith
import ProbingBaselines.Dlrover.PendingGroups

/-!
# The scheduling pre-check

`SchedulingPreCheckOperator` (`master/diagnosis/precheck_operator.py:91-345`) waits until no node
that training needs is pending, or one has been for too long. For a job with parameter servers a
comparison of creation times stops the check where one is missing, pending servers that are not
overdue are forgotten when no worker is, and of the workers with rank 0 only the first one counts.
-/

namespace ProbingBaselines.Dlrover.JobManager

/-- `TypeError`: `<` between a time and `None`. -/
inductive TypeError where
  | notSupported

/-- `PendingTimeoutStrategyType` (`constants.py:146-149`). -/
def strategySkip : Int := 0
def strategyNecessary : Int := 1

namespace GroupNode

/-- Not released, and pending or initial; `precheck_operator.py:163-165`. -/
def StillPending (n : GroupNode) : Prop :=
  n.isReleased = false ∧ n.status ∈ [NodeStatus.pending, .initial]

instance decidableStillPending (n : GroupNode) : Decidable n.StillPending :=
  inferInstanceAs (Decidable (_ ∧ _))

/-- Created longer ago than the timeout. -/
def Overdue (now timeout : ℚ) (n : GroupNode) : Prop :=
  n.createTime.any fun created ↦ timeout < now - created

instance decidableOverdue (now timeout : ℚ) (n : GroupNode) : Decidable (n.Overdue now timeout) :=
  inferInstanceAs (Decidable (_ = true))

end GroupNode

/-- `min(nodes, key=lambda x: x.create_time)` of a node and the ones after it: the first of the
oldest. A comparison with a missing time fails. -/
def minCreateTime : GroupNode → List GroupNode → Except TypeError GroupNode
  | first, [] => .ok first
  | first, n :: rest =>
    match n.createTime, first.createTime with
    | some created, some oldest => minCreateTime (if created < oldest then n else first) rest
    | _, _ => .error .notSupported

/-- The oldest of the pending nodes when it is overdue; `precheck_operator.py:172-190` for the
servers, `:221-239` for the workers. -/
def firstOverdue (now timeout : ℚ) : List GroupNode → Except TypeError (Option GroupNode)
  | [] => .ok none
  | n :: rest => do
    let first ← minCreateTime n rest
    return if first.Overdue now timeout then some first else none

/-- `check_allreduce_job_pending` (`precheck_operator.py:100-150`). -/
def checkAllreduceJobPending (now timeout : ℚ) (curNodes : List (Option GroupNode)) :
    Except TypeError (Bool × Option GroupNode) :=
  let pendingWorkers := curNodes.reduceOption.filter fun n ↦ n.StillPending
  if pendingWorkers = [] then .ok (false, none)
  else
    match pendingWorkers.find? fun n ↦ n.createTime.isNone with
    | some _ => .ok (true, none)
    | none => do
      let overdue ← firstOverdue now timeout pendingWorkers
      return (true, overdue)

/-- `check_ps_job_pending` (`precheck_operator.py:152-242`). -/
def checkPsJobPending (now timeout : ℚ) (strategy : Int) (curNodes : List (Option GroupNode)) :
    Except TypeError (Bool × Option GroupNode) := do
  let pending := curNodes.reduceOption.filter fun n ↦ n.StillPending
  let pendingPs := pending.filter fun n ↦ n.type = .ps
  let pendingWorkers := pending.filter fun n ↦ n.type ≠ .ps
  match ← firstOverdue now timeout pendingPs with
  | some ps => return (true, some ps)
  | none =>
    if pendingWorkers = [] then return (false, none)
    else if strategy = strategyNecessary then
      match pendingWorkers.find? fun n ↦ n.rankIndex = 0 with
      | none => return (false, none)
      | some worker0 =>
        return (true, if worker0.Overdue now timeout then some worker0 else none)
    else
      let overdue ← firstOverdue now timeout pendingWorkers
      return (true, overdue)

/-! ### The check -/

/-- `PreCheckResult`. -/
structure PreCheckResult where
  result : Nat := 0
  resultMsg : String := ""
  abnormalNodes : List GroupNode := []

def PreCheckResult.isSuccess (r : PreCheckResult) : Bool := r.result = 0

/-- What one round of the check sees: the time and the nodes of the job context. -/
structure CheckRound where
  now : ℚ
  psNodes : List (Option GroupNode)
  workerNodes : List (Option GroupNode)

/-- The job's kind and configuration, and whether `wait_scheduling_started` saw a created node. -/
structure PreCheckJob where
  jobType : DistributionStrategy
  strategy : Int
  timeout : ℚ
  schedulingStarted : Bool

/-- `PENDING_TIMEOUT_MSG` and `SCHEDULING_FAILED_MSG` (`precheck_operator.py:92,93`). -/
def pendingTimeoutMsg : String := "PRE_CHECK_PENDING_TIMEOUT"
def schedulingFailedMsg : String := "SCHEDULING_FAILED"

/-- The texts of `DistributionStrategy` (`constants.py:306-310`). -/
def DistributionStrategy.text : DistributionStrategy → String
  | .local => "Local"
  | .ps => "ParameterServerStrategy"
  | .allreduce => "AllreduceStrategy"
  | .custom => "CustomStrategy"

/-- The pending nodes of one round, `precheck_operator.py:296-312`. -/
def pendingResult (j : PreCheckJob) (r : CheckRound) : Except TypeError (Bool × Option GroupNode) :=
  match j.jobType with
  | .allreduce => checkAllreduceJobPending r.now j.timeout r.workerNodes
  | _ => checkPsJobPending r.now j.timeout j.strategy (r.psNodes ++ r.workerNodes)

/-- The loop of `check` (`precheck_operator.py:293-334`) over the rounds there are; `none` while it
waits for the next one. -/
def checkLoop (j : PreCheckJob) : List CheckRound → Except TypeError (Option PreCheckResult)
  | [] => .ok none
  | r :: rounds =>
    match pendingResult j r with
    | .error e => .error e
    | .ok (false, _) => .ok (some {})
    | .ok (true, some node) =>
      .ok (some { result := 1, resultMsg := pendingTimeoutMsg, abnormalNodes := [node] })
    | .ok (true, none) => checkLoop j rounds

/-- `check` (`precheck_operator.py:268-334`). -/
def preCheck (j : PreCheckJob) (rounds : List CheckRound) :
    Except TypeError (Option PreCheckResult) :=
  if j.timeout ≤ 0 ∨ j.strategy = strategySkip then
    .ok (some { resultMsg :=
      "Skip SchedulingPreCheckOperator for 'skip' pending timeout strategy." })
  else if j.schedulingStarted = false then
    .ok (some { result := 1, resultMsg := schedulingFailedMsg })
  else if j.jobType = .allreduce ∨ j.jobType = .ps then checkLoop j rounds
  else
    .ok (some { resultMsg := "Skip SchedulingPreCheckOperator for " ++ j.jobType.text ++ "." })

/-! ### What the check is for -/

namespace GroupNode

/-- Training does not start without the node: every server, and every worker, or only those of rank
0 under the strategy `NECESSARY`. -/
def Needed (strategy : Int) (n : GroupNode) : Prop :=
  n.type = .ps ∨ strategy ≠ strategyNecessary ∨ n.rankIndex = 0

/-- A node of the list that training needs and that is pending. -/
def Waits (strategy : Int) (curNodes : List (Option GroupNode)) (n : GroupNode) : Prop :=
  some n ∈ curNodes ∧ n.StillPending ∧ n.Needed strategy

end GroupNode

/-- The two components say whether a needed node is pending, and which one for too long. -/
def JudgesPending (now timeout : ℚ) (strategy : Int) (curNodes : List (Option GroupNode)) : Prop :=
  ∃ hasPending overdue,
    checkPsJobPending now timeout strategy curNodes = .ok (hasPending, overdue) ∧
    (hasPending = true ↔ ∃ n, GroupNode.Waits strategy curNodes n) ∧
    (∀ n, overdue = some n → GroupNode.Waits strategy curNodes n ∧ n.Overdue now timeout) ∧
    (overdue = none → ∀ n, GroupNode.Waits strategy curNodes n → ¬n.Overdue now timeout)

/-- The pending servers and the pending other nodes of a list, in their order. -/
def pendingPs (curNodes : List (Option GroupNode)) : List GroupNode :=
  (curNodes.reduceOption.filter fun n ↦ n.StillPending).filter fun n ↦ n.type = .ps

def pendingWorkers (curNodes : List (Option GroupNode)) : List GroupNode :=
  (curNodes.reduceOption.filter fun n ↦ n.StillPending).filter fun n ↦ n.type ≠ .ps

/-- The pending workers of rank 0. -/
def pendingWorkers0 (curNodes : List (Option GroupNode)) : List GroupNode :=
  (pendingWorkers curNodes).filter fun n ↦ n.rankIndex = 0

/-- The minimum of the creation times can be taken. -/
def TimesComparable (nodes : List GroupNode) : Prop :=
  nodes.length ≤ 1 ∨ ∀ n ∈ nodes, n.createTime.isSome

/-- Pending servers come with a pending worker of rank 0, and of these workers the first one is
overdue when one is. -/
def NecessaryCondition (now timeout : ℚ) (curNodes : List (Option GroupNode)) : Prop :=
  (pendingWorkers0 curNodes = [] → pendingPs curNodes = []) ∧
    ∀ n ∈ pendingWorkers0 curNodes, n.Overdue now timeout →
      (pendingWorkers0 curNodes).head?.any fun n ↦ n.Overdue now timeout

/-- Pending servers come with a pending worker, and the times of the workers can be compared. -/
def OldestCondition (curNodes : List (Option GroupNode)) : Prop :=
  (pendingWorkers curNodes = [] → pendingPs curNodes = []) ∧
    TimesComparable (pendingWorkers curNodes)

/-- The times of the servers can be compared, and unless one of them is overdue the workers answer
for them. -/
def PendingCondition (now timeout : ℚ) (strategy : Int) (curNodes : List (Option GroupNode)) :
    Prop :=
  TimesComparable (pendingPs curNodes) ∧
    ((∃ n ∈ pendingPs curNodes, n.Overdue now timeout) ∨
      if strategy = strategyNecessary then NecessaryCondition now timeout curNodes
      else OldestCondition curNodes)

instance decidableTimesComparable (nodes : List GroupNode) : Decidable (TimesComparable nodes) :=
  inferInstanceAs (Decidable (_ ∨ _))

instance decidableNecessaryCondition (now timeout : ℚ) (curNodes : List (Option GroupNode)) :
    Decidable (NecessaryCondition now timeout curNodes) :=
  inferInstanceAs (Decidable ((_ → _) ∧ ∀ n ∈ _, _ → _))

instance decidableOldestCondition (curNodes : List (Option GroupNode)) :
    Decidable (OldestCondition curNodes) :=
  inferInstanceAs (Decidable ((_ → _) ∧ _))

instance decidablePendingCondition (now timeout : ℚ) (strategy : Int)
    (curNodes : List (Option GroupNode)) :
    Decidable (PendingCondition now timeout strategy curNodes) :=
  inferInstanceAs (Decidable (_ ∧ (_ ∨ ite _ _ _)))

/-! ### The oldest node -/

section

variable {now timeout : ℚ}

theorem minCreateTime_cons {first n : GroupNode} {rest : List GroupNode} {created oldest : ℚ}
    (n_eq : n.createTime = some created) (first_eq : first.createTime = some oldest) :
    minCreateTime first (n :: rest) =
      minCreateTime (if created < oldest then n else first) rest := by
  rw [minCreateTime, n_eq, first_eq]

theorem minCreateTime_of_some (first : GroupNode) {rest : List GroupNode}
    (times : ∀ n ∈ first :: rest, n.createTime.isSome) :
    ∃ m, minCreateTime first rest = .ok m ∧ m ∈ first :: rest ∧
      ∀ n ∈ first :: rest, m.created ≤ n.created := by
  induction rest generalizing first with
  | nil =>
    refine ⟨first, rfl, List.mem_cons_self, fun n mem ↦ ?_⟩
    rw [List.mem_singleton.mp mem]
  | cons n rest ih =>
    obtain ⟨oldest, first_eq⟩ := Option.isSome_iff_exists.mp (times first List.mem_cons_self)
    obtain ⟨created, n_eq⟩ := Option.isSome_iff_exists.mp
      (times n (List.mem_cons_of_mem _ List.mem_cons_self))
    rw [minCreateTime_cons n_eq first_eq]
    have first_time := GroupNode.created_eq first_eq
    have n_time := GroupNode.created_eq n_eq
    split
    · next older =>
      obtain ⟨m, ok, mem, least⟩ := ih n fun x mem ↦
        times x (List.mem_cons_of_mem _ mem)
      refine ⟨m, ok, List.mem_cons_of_mem _ mem, fun x hx ↦ ?_⟩
      rcases List.mem_cons.mp hx with rfl | hx
      · have := least n List.mem_cons_self
        linarith
      · exact least x hx
    · next younger =>
      obtain ⟨m, ok, mem, least⟩ := ih first fun x mem ↦ times x (by
        rcases List.mem_cons.mp mem with rfl | mem
        · exact List.mem_cons_self
        · exact List.mem_cons_of_mem _ (List.mem_cons_of_mem _ mem))
      refine ⟨m, ok, ?_, fun x hx ↦ ?_⟩
      · rcases List.mem_cons.mp mem with rfl | mem
        · exact List.mem_cons_self
        · exact List.mem_cons_of_mem _ (List.mem_cons_of_mem _ mem)
      · rcases List.mem_cons.mp hx with rfl | hx
        · exact least x List.mem_cons_self
        · rcases List.mem_cons.mp hx with rfl | hx
          · have := least first List.mem_cons_self
            linarith
          · exact least x (List.mem_cons_of_mem _ hx)

/-- A node without a time is not one with a time. -/
theorem mem_of_missing {n x : GroupNode} {nodes : List GroupNode} {t : ℚ}
    (mem : x ∈ n :: nodes) (absent : x.createTime = none) (n_time : n.createTime = some t) :
    x ∈ nodes := by
  rcases List.mem_cons.mp mem with rfl | mem
  · rw [n_time] at absent
    cases absent
  · exact mem

/-- The comparison of two or more nodes fails where a time is missing. -/
theorem minCreateTime_error {first n : GroupNode} {rest : List GroupNode}
    (missing : ∃ x ∈ first :: n :: rest, x.createTime = none) :
    minCreateTime first (n :: rest) = .error .notSupported := by
  induction rest generalizing first n with
  | nil =>
    rw [minCreateTime]
    split
    · next created oldest n_eq first_eq =>
      obtain ⟨x, mem, absent⟩ := missing
      have later := mem_of_missing (mem_of_missing mem absent first_eq) absent n_eq
      exact absurd later List.not_mem_nil
    · rfl
  | cons y rest ih =>
    rw [minCreateTime]
    split
    · next created oldest n_eq first_eq =>
      obtain ⟨x, mem, absent⟩ := missing
      have later := mem_of_missing (mem_of_missing mem absent first_eq) absent n_eq
      exact ih ⟨x, List.mem_cons_of_mem _ later, absent⟩
    · rfl

theorem overdue_of_older {m n : GroupNode} (m_time : m.createTime.isSome)
    (le : m.created ≤ n.created) (overdue : n.Overdue now timeout) : m.Overdue now timeout := by
  obtain ⟨t, m_eq⟩ := Option.isSome_iff_exists.mp m_time
  simp only [GroupNode.Overdue] at overdue ⊢
  cases n_eq : n.createTime with
  | none =>
    rw [n_eq] at overdue
    cases overdue
  | some s =>
    rw [n_eq, Option.any_some, decide_eq_true_eq] at overdue
    rw [GroupNode.created_eq m_eq, GroupNode.created_eq n_eq] at le
    rw [m_eq, Option.any_some, decide_eq_true_eq]
    linarith

/-- Where the times can be compared an overdue node is found, if there is one. -/
theorem firstOverdue_ok (now timeout : ℚ) {nodes : List GroupNode}
    (comparable : TimesComparable nodes) :
    ∃ overdue, firstOverdue now timeout nodes = .ok overdue ∧
      (∀ n, overdue = some n → n ∈ nodes ∧ n.Overdue now timeout) ∧
      (overdue = none → ∀ n ∈ nodes, ¬n.Overdue now timeout) := by
  cases nodes with
  | nil =>
    exact ⟨none, rfl, by rintro n ⟨⟩, fun _ n mem ↦ absurd mem List.not_mem_nil⟩
  | cons first rest =>
    -- The oldest node, and that it is overdue when any node is.
    obtain ⟨m, ok, mem, oldest⟩ : ∃ m, minCreateTime first rest = .ok m ∧ m ∈ first :: rest ∧
        ∀ n ∈ first :: rest, n.Overdue now timeout → m.Overdue now timeout := by
      rcases comparable with single | times
      · have alone : rest = [] := by
          rw [List.length_cons] at single
          exact List.length_eq_zero_iff.mp (by omega)
        rw [alone]
        refine ⟨first, rfl, List.mem_cons_self, fun n mem overdue ↦ ?_⟩
        rw [← List.mem_singleton.mp mem]
        exact overdue
      · obtain ⟨m, ok, mem, least⟩ := minCreateTime_of_some first times
        exact ⟨m, ok, mem, fun n hn ↦ overdue_of_older (times m mem) (least n hn)⟩
    refine ⟨if m.Overdue now timeout then some m else none, ?_, fun n eq ↦ ?_,
      fun eq n hn late ↦ ?_⟩
    · rw [firstOverdue, ok]
      rfl
    · split at eq
      · next late =>
        cases eq
        exact ⟨mem, late⟩
      · cases eq
    · rw [if_pos (oldest n hn late)] at eq
      cases eq

theorem firstOverdue_error (now timeout : ℚ) {nodes : List GroupNode}
    (incomparable : ¬TimesComparable nodes) :
    firstOverdue now timeout nodes = .error .notSupported := by
  rw [TimesComparable, not_or] at incomparable
  obtain ⟨many, missing⟩ := incomparable
  cases nodes with
  | nil => exact absurd (Nat.zero_le 1) many
  | cons first rest =>
    cases rest with
    | nil => exact absurd le_rfl many
    | cons n rest =>
      have absent : ∃ x ∈ first :: n :: rest, x.createTime = none := by
        by_contra present
        refine missing fun x mem ↦ ?_
        rw [Option.isSome_iff_ne_none]
        exact fun eq ↦ present ⟨x, mem, eq⟩
      rw [firstOverdue, minCreateTime_error absent]
      rfl

end

/-! ### When the pending nodes are judged right -/

section

variable {now timeout : ℚ} {strategy : Int} {curNodes : List (Option GroupNode)}

theorem pendingPs_mem_iff {n : GroupNode} :
    n ∈ pendingPs curNodes ↔ some n ∈ curNodes ∧ n.StillPending ∧ n.type = .ps := by
  simp only [pendingPs, List.mem_filter, List.reduceOption_mem_iff, decide_eq_true_eq, and_assoc]

theorem pendingWorkers_mem_iff {n : GroupNode} :
    n ∈ pendingWorkers curNodes ↔ some n ∈ curNodes ∧ n.StillPending ∧ n.type ≠ .ps := by
  simp only [pendingWorkers, List.mem_filter, List.reduceOption_mem_iff, decide_eq_true_eq,
    and_assoc]

theorem pendingWorkers0_mem_iff {n : GroupNode} :
    n ∈ pendingWorkers0 curNodes ↔ n ∈ pendingWorkers curNodes ∧ n.rankIndex = 0 := by
  rw [pendingWorkers0, List.mem_filter, decide_eq_true_eq]

/-- What training waits for is a pending server or a pending worker that is needed. -/
theorem waits_iff {n : GroupNode} :
    n.Waits strategy curNodes ↔
      n ∈ pendingPs curNodes ∨
        n ∈ pendingWorkers curNodes ∧ (strategy ≠ strategyNecessary ∨ n.rankIndex = 0) := by
  rw [pendingPs_mem_iff, pendingWorkers_mem_iff, GroupNode.Waits, GroupNode.Needed]
  by_cases server : n.type = .ps <;> simp [server, and_assoc]

theorem judges_iff_of_result {hasPending : Bool} {overdue : Option GroupNode}
    (result : checkPsJobPending now timeout strategy curNodes = .ok (hasPending, overdue)) :
    JudgesPending now timeout strategy curNodes ↔
      (hasPending = true ↔ ∃ n, GroupNode.Waits strategy curNodes n) ∧
      (∀ n, overdue = some n → GroupNode.Waits strategy curNodes n ∧ n.Overdue now timeout) ∧
      (overdue = none → ∀ n, GroupNode.Waits strategy curNodes n → ¬n.Overdue now timeout) := by
  constructor
  · rintro ⟨hasPending', overdue', result', right⟩
    rw [result] at result'
    cases result'
    exact right
  · exact fun right ↦ ⟨hasPending, overdue, result, right⟩

/-- An answer that nothing is pending is right just when no server is, as no worker is needed. -/
theorem judges_nothing_iff
    (result : checkPsJobPending now timeout strategy curNodes = .ok (false, none))
    (workers : ∀ n ∈ pendingWorkers curNodes, ¬(strategy ≠ strategyNecessary ∨ n.rankIndex = 0)) :
    JudgesPending now timeout strategy curNodes ↔ pendingPs curNodes = [] := by
  have waits_ps (n : GroupNode) : n.Waits strategy curNodes ↔ n ∈ pendingPs curNodes := by
    rw [waits_iff]
    exact or_iff_left fun worker ↦ workers n worker.1 worker.2
  rw [judges_iff_of_result result]
  simp only [waits_ps]
  constructor
  · rintro ⟨none_waits, -⟩
    refine List.eq_nil_iff_forall_not_mem.mpr fun n mem ↦ ?_
    exact Bool.false_ne_true (none_waits.mpr ⟨n, mem⟩)
  · intro no_ps
    rw [no_ps]
    refine ⟨⟨fun h ↦ absurd h Bool.false_ne_true, ?_⟩, ?_, ?_⟩
    · rintro ⟨n, mem⟩
      exact absurd mem List.not_mem_nil
    · rintro n ⟨⟩
    · exact fun _ n mem ↦ absurd mem List.not_mem_nil

/-- With no server overdue the answer is that about the workers. -/
theorem checkPsJobPending_workers (strategy : Int)
    (servers : firstOverdue now timeout (pendingPs curNodes) = .ok none)
    (some_worker : pendingWorkers curNodes ≠ []) :
    checkPsJobPending now timeout strategy curNodes =
      if strategy = strategyNecessary then
        match (pendingWorkers0 curNodes).head? with
        | none => .ok (false, none)
        | some worker0 => .ok (true, if worker0.Overdue now timeout then some worker0 else none)
      else do
        let overdue ← firstOverdue now timeout (pendingWorkers curNodes)
        return (true, overdue) := by
  change firstOverdue now timeout (pendingPs curNodes) >>= _ = _
  rw [servers, pendingWorkers0, List.head?_filter]
  exact if_neg some_worker

/-- An overdue node that training waits for is a worker when no server is overdue. -/
theorem worker_of_overdue (on_time : ∀ n ∈ pendingPs curNodes, ¬n.Overdue now timeout)
    {n : GroupNode} (waits : n.Waits strategy curNodes) (late : n.Overdue now timeout) :
    n ∈ pendingWorkers curNodes ∧ (strategy ≠ strategyNecessary ∨ n.rankIndex = 0) :=
  (waits_iff.mp waits).resolve_left fun mem ↦ on_time n mem late

theorem judges_no_worker_iff (servers : firstOverdue now timeout (pendingPs curNodes) = .ok none)
    (no_worker : pendingWorkers curNodes = []) :
    JudgesPending now timeout strategy curNodes ↔ pendingPs curNodes = [] := by
  have result : checkPsJobPending now timeout strategy curNodes = .ok (false, none) := by
    change firstOverdue now timeout (pendingPs curNodes) >>= _ = _
    rw [servers]
    exact if_pos no_worker
  refine judges_nothing_iff result fun n mem ↦ ?_
  rw [no_worker] at mem
  exact absurd mem List.not_mem_nil

/-- Under the strategy `NECESSARY` the answer is that about the first worker of rank 0. -/
theorem judges_worker0_iff (servers : firstOverdue now timeout (pendingPs curNodes) = .ok none)
    (on_time : ∀ n ∈ pendingPs curNodes, ¬n.Overdue now timeout)
    (some_worker : pendingWorkers curNodes ≠ []) (necessary : strategy = strategyNecessary) :
    JudgesPending now timeout strategy curNodes ↔ NecessaryCondition now timeout curNodes := by
  rw [NecessaryCondition]
  have answer := checkPsJobPending_workers strategy servers some_worker
  rw [if_pos necessary] at answer
  cases head : (pendingWorkers0 curNodes).head? with
  | none =>
    have no_worker0 := List.head?_eq_none_iff.mp head
    rw [head] at answer
    rw [judges_nothing_iff answer, no_worker0]
    · simp
    · rintro n mem (other | zero)
      · exact other necessary
      · have mem0 := pendingWorkers0_mem_iff.mpr ⟨mem, zero⟩
        rw [no_worker0] at mem0
        exact absurd mem0 List.not_mem_nil
  | some worker0 =>
    rw [head] at answer
    have mem0 := List.mem_of_head? head
    obtain ⟨mem, zero⟩ := pendingWorkers0_mem_iff.mp mem0
    have waits : worker0.Waits strategy curNodes := waits_iff.mpr (.inr ⟨mem, .inr zero⟩)
    have some_worker0 : pendingWorkers0 curNodes ≠ [] := List.ne_nil_of_mem mem0
    rw [judges_iff_of_result answer, Option.any_some]
    constructor
    · rintro ⟨-, -, all_on_time⟩
      refine ⟨fun none_left ↦ absurd none_left some_worker0, fun n mem_n late ↦ ?_⟩
      by_contra first_on_time
      rw [decide_eq_true_eq] at first_on_time
      obtain ⟨mem', zero'⟩ := pendingWorkers0_mem_iff.mp mem_n
      exact all_on_time (if_neg first_on_time) n (waits_iff.mpr (.inr ⟨mem', .inr zero'⟩)) late
    · rintro ⟨-, first_late⟩
      refine ⟨iff_of_true rfl ⟨worker0, waits⟩, fun n eq ↦ ?_, fun eq n waits_n late ↦ ?_⟩
      · split at eq
        · next late =>
          cases eq
          exact ⟨waits, late⟩
        · cases eq
      · obtain ⟨mem', needed⟩ := worker_of_overdue on_time waits_n late
        have zero' := needed.resolve_left fun other ↦ other necessary
        have late0 := first_late n (pendingWorkers0_mem_iff.mpr ⟨mem', zero'⟩) late
        rw [if_pos (of_decide_eq_true late0)] at eq
        cases eq

/-- Under the other strategies it is that about the oldest worker. -/
theorem judges_workers_iff (servers : firstOverdue now timeout (pendingPs curNodes) = .ok none)
    (on_time : ∀ n ∈ pendingPs curNodes, ¬n.Overdue now timeout)
    (some_worker : pendingWorkers curNodes ≠ []) (other : strategy ≠ strategyNecessary) :
    JudgesPending now timeout strategy curNodes ↔ TimesComparable (pendingWorkers curNodes) := by
  have answer := checkPsJobPending_workers strategy servers some_worker
  rw [if_neg other] at answer
  by_cases times : TimesComparable (pendingWorkers curNodes)
  · obtain ⟨overdue, workers, found, all_on_time⟩ :=
      firstOverdue_ok now timeout times
    rw [workers] at answer
    refine iff_of_true ((judges_iff_of_result answer).mpr ⟨?_, fun n eq ↦ ?_, ?_⟩) times
    · obtain ⟨n, mem⟩ := List.exists_mem_of_ne_nil _ some_worker
      exact iff_of_true rfl ⟨n, waits_iff.mpr (.inr ⟨mem, .inl other⟩)⟩
    · obtain ⟨mem, late⟩ := found n eq
      exact ⟨waits_iff.mpr (.inr ⟨mem, .inl other⟩), late⟩
    · exact fun eq n waits late ↦ all_on_time eq n (worker_of_overdue on_time waits late).1 late
  · rw [firstOverdue_error now timeout times] at answer
    refine iff_of_false ?_ times
    rintro ⟨hasPending, overdue, returned, -⟩
    rw [answer] at returned
    cases returned

/-- The pending nodes are judged right just when the condition holds. -/
theorem judgesPending_iff_condition :
    JudgesPending now timeout strategy curNodes ↔
      PendingCondition now timeout strategy curNodes := by
  by_cases comparable : TimesComparable (pendingPs curNodes)
  · rw [PendingCondition, and_iff_right comparable]
    obtain ⟨overdue, servers, found, on_time⟩ := firstOverdue_ok now timeout comparable
    cases overdue with
    | some ps =>
      obtain ⟨mem, late⟩ := found ps rfl
      have result : checkPsJobPending now timeout strategy curNodes = .ok (true, some ps) := by
        change firstOverdue now timeout (pendingPs curNodes) >>= _ = _
        rw [servers]
        rfl
      have waits : ps.Waits strategy curNodes := waits_iff.mpr (.inl mem)
      refine iff_of_true ((judges_iff_of_result result).mpr ⟨?_, ?_, ?_⟩) (.inl ⟨ps, mem, late⟩)
      · exact iff_of_true rfl ⟨ps, waits⟩
      · rintro n ⟨⟩
        exact ⟨waits, late⟩
      · rintro ⟨⟩
    | none =>
      have on_time := on_time rfl
      have no_server : ¬∃ n ∈ pendingPs curNodes, n.Overdue now timeout := by
        rintro ⟨n, mem, late⟩
        exact on_time n mem late
      rw [or_iff_right no_server]
      by_cases no_worker : pendingWorkers curNodes = []
      · have no_worker0 : pendingWorkers0 curNodes = [] := by
          rw [pendingWorkers0, no_worker, List.filter_nil]
        rw [judges_no_worker_iff servers no_worker, NecessaryCondition, OldestCondition, no_worker0,
          no_worker]
        split
        · simp
        · simp [TimesComparable]
      · split
        · next necessary => exact judges_worker0_iff servers on_time no_worker necessary
        · next other =>
          rw [judges_workers_iff servers on_time no_worker other]
          exact (and_iff_right fun none_left ↦ absurd none_left no_worker).symm
  · have result : checkPsJobPending now timeout strategy curNodes = .error .notSupported := by
      have failed := firstOverdue_error now timeout comparable
      change firstOverdue now timeout (pendingPs curNodes) >>= _ = _
      rw [failed]
      rfl
    refine iff_of_false ?_ fun condition ↦ comparable condition.1
    rintro ⟨hasPending, overdue, returned, -⟩
    rw [result] at returned
    cases returned

/-- Where every round is judged right, the loop of a job with servers ends with success only in a
round in which nothing that training needs is pending. -/
theorem checkLoop_success {j : PreCheckJob} (ps : j.jobType = .ps) {rounds : List CheckRound}
    (right : ∀ r ∈ rounds,
      JudgesPending r.now j.timeout j.strategy (r.psNodes ++ r.workerNodes))
    {result : PreCheckResult} (ended : checkLoop j rounds = .ok (some result))
    (success : result.isSuccess = true) :
    ∃ before r after, rounds = before ++ r :: after ∧
      (∀ r' ∈ before, pendingResult j r' = .ok (true, none)) ∧
      ∀ n, ¬GroupNode.Waits j.strategy (r.psNodes ++ r.workerNodes) n := by
  induction rounds with
  | nil => cases ended
  | cons r rounds ih =>
    obtain ⟨hasPending, overdue, judged, pending_iff, -⟩ := right r List.mem_cons_self
    have pending : pendingResult j r = .ok (hasPending, overdue) := by
      rw [pendingResult, ps]
      exact judged
    rw [checkLoop, pending] at ended
    cases hasPending with
    | false =>
      exact ⟨[], r, rounds, rfl, fun _ mem ↦ absurd mem List.not_mem_nil, fun n waits ↦
        Bool.false_ne_true (pending_iff.mpr ⟨n, waits⟩)⟩
    | true =>
      cases overdue with
      | some node =>
        cases ended
        cases success
      | none =>
        obtain ⟨before, r', after, split, waiting, nothing⟩ :=
          ih (fun r mem ↦ right r (List.mem_cons_of_mem _ mem)) ended
        refine ⟨r :: before, r', after, by rw [split]; rfl, fun x mem ↦ ?_, nothing⟩
        rcases List.mem_cons.mp mem with rfl | mem
        · exact pending
        · exact waiting x mem

end

/-- With any timeout and strategy the pending nodes are judged right just when the condition holds,
and where it holds in every round the check of a job with servers and an enabled strategy succeeds
only once nothing that training needs is pending. -/
theorem judgesPending_iff (j : PreCheckJob) :
    (∀ (now : ℚ) (curNodes : List (Option GroupNode)),
      JudgesPending now j.timeout j.strategy curNodes ↔
        PendingCondition now j.timeout j.strategy curNodes) ∧
    ∀ (rounds : List CheckRound) (result : PreCheckResult),
      j.jobType = .ps → 0 < j.timeout → j.strategy ≠ strategySkip →
      (∀ r ∈ rounds,
        PendingCondition r.now j.timeout j.strategy (r.psNodes ++ r.workerNodes)) →
      preCheck j rounds = .ok (some result) → result.isSuccess = true →
        ∃ before r after, rounds = before ++ r :: after ∧
          (∀ r' ∈ before, pendingResult j r' = .ok (true, none)) ∧
          ∀ n, ¬GroupNode.Waits j.strategy (r.psNodes ++ r.workerNodes) n := by
  refine ⟨fun _ _ ↦ judgesPending_iff_condition, ?_⟩
  intro rounds result ps enabled strategy conditions ended success
  rw [preCheck, if_neg (by rw [not_or]; exact ⟨not_le.mpr enabled, strategy⟩)] at ended
  split at ended
  · cases ended
    cases success
  · rw [if_pos (.inr ps)] at ended
    exact checkLoop_success ps (fun r mem ↦ judgesPending_iff_condition.mpr (conditions r mem))
      ended success

/-- A node created at time 0. -/
def createdNode (type : NodeType) (status : NodeStatus) : GroupNode where
  type := type
  id := 0
  rankIndex := 0
  status := status
  maxRelaunchCount := 3
  createTime := some 0

/-- A worker that is pending in the first round and runs in the second one. -/
def waitingRounds : List CheckRound :=
  [⟨10, [some (createdNode .ps .running)], [some (createdNode .worker .pending)]⟩,
    ⟨25, [some (createdNode .ps .running)], [some (createdNode .worker .running)]⟩]

theorem preCheck_waits_for_worker :
    ∃ result, preCheck ⟨.ps, 2, 900, true⟩ waitingRounds = .ok (some result) ∧
      result.isSuccess = true ∧
      ∃ before r after, waitingRounds = before ++ r :: after ∧
        (∀ r' ∈ before, pendingResult ⟨.ps, 2, 900, true⟩ r' = .ok (true, none)) ∧
        ∀ n, ¬GroupNode.Waits 2 (r.psNodes ++ r.workerNodes) n := by
  have ended : (preCheck ⟨.ps, 2, 900, true⟩ waitingRounds).toOption.join.any
      PreCheckResult.isSuccess = true := by decide +kernel
  cases result : preCheck ⟨.ps, 2, 900, true⟩ waitingRounds with
  | error e =>
    rw [result] at ended
    cases ended
  | ok end? =>
    rw [result] at ended
    obtain ⟨last, rfl, success⟩ : ∃ last, end? = some last ∧ last.isSuccess = true :=
      (Option.any_eq_true _ _).mp ended
    exact ⟨last, rfl, success, (judgesPending_iff ⟨.ps, 2, 900, true⟩).2 _ last rfl (by decide)
      (by decide) (by decide +kernel) result success⟩

/-- A server that has been pending for ten seconds, with no worker pending: the check passes. -/
theorem not_judgesPending_server :
    ¬JudgesPending 10 900 2 [some (createdNode .ps .pending)] := by
  rw [judgesPending_iff_condition]
  decide +kernel

end ProbingBaselines.Dlrover.JobManager
