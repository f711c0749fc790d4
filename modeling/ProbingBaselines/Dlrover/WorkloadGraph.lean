import Mathlib.Data.List.Sort
import ProbingBaselines.Dlrover.PrimeManager
import ProbingBaselines.Dlrover.WorkloadConfig

/-!
# The execution graph of a unified job

The workers and the sub-masters of the roles (`unified/controller/schedule/graph.py:38-304`). A
vertex is an object that the manager changes in place; here it is found by its role and its rank.
-/

namespace ProbingBaselines.Dlrover

open Lib

/-- `DiagnosticResponsibility` (`unified/common/enums.py:34-40`). -/
inductive DiagnosticResponsibility where
  | rootCause
  | related
  | beAffected
  | unknown
  deriving DecidableEq

/-- A worker's vertex (`graph.py:38-170`) with what the placement and the failover read; of its
diagnostic that is the responsibility. -/
structure WorkerVertex where
  nodeRank : Nat
  worldSize : Nat
  rank : Nat
  localWorldSize : Nat
  localRank : Nat
  bundleIndex : Int
  totalFailureCount : Nat
  perNodeFailureCount : Nat
  result : Option ExecutionResult
  diagnostic : Option DiagnosticResponsibility

namespace WorkerVertex

/-- `inc_failure_count` (`graph.py:93-101`). -/
def incFailureCount (v : WorkerVertex) : WorkerVertex :=
  { v with
    totalFailureCount := v.totalFailureCount + 1
    perNodeFailureCount := v.perNodeFailureCount + 1 }

/-- `is_success`. -/
def isSuccess (v : WorkerVertex) : Bool := v.result.any (!·.isFailure)

/-- `is_failure`. -/
def isFailure (v : WorkerVertex) : Bool := v.result.any ExecutionResult.isFailure

/-- A method that is tested and not called is true. -/
def methodTruth : Bool := true

/-- `is_failure_responsibility` (`graph.py:125-133`), which tests `self.is_success`. -/
def isFailureResponsibility (v : WorkerVertex) : Bool :=
  if methodTruth || v.diagnostic.isNone then false
  else v.diagnostic = some .rootCause || v.diagnostic = some .related

end WorkerVertex

/-- A role (`graph.py:208-266`); of its sub-master there is no more than whether there is one. -/
structure DLWorkloadRole where
  name : String
  spec : WorkloadDesc
  instanceNumber : Nat
  instances : List WorkerVertex
  subMaster : Bool

namespace DLWorkloadRole

/-- The worker of a rank, in `__post_init__`. -/
def newWorker (spec : WorkloadDesc) (instanceNumber i : Nat) : WorkerVertex where
  nodeRank := i / spec.perGroup
  worldSize := instanceNumber
  rank := i
  localWorldSize := spec.perGroup
  localRank := i % spec.perGroup
  bundleIndex := -1
  totalFailureCount := 0
  perNodeFailureCount := 0
  result := none
  diagnostic := none

/-- `__post_init__` (`graph.py:214-230`). -/
def init (name : String) (spec : WorkloadDesc) (instanceNumber : Nat) : DLWorkloadRole where
  name := name
  spec := spec
  instanceNumber := instanceNumber
  instances := (List.range instanceNumber).map (newWorker spec instanceNumber)
  subMaster := 0 < instanceNumber && spec.backend = .elastic

/-- `get_node_relaunch_demand_actor` (`graph.py:244-266`), which sorts in descending order. -/
def getNodeRelaunchDemandActor (role : DLWorkloadRole) : Option WorkerVertex :=
  (role.instances.insertionSort fun a b ↦ b.perNodeFailureCount ≤ a.perNodeFailureCount).find?
    fun v ↦ role.spec.perNodeMaxFailure < v.perNodeFailureCount

end DLWorkloadRole

/-- The place of a worker: its role and its index among the instances. -/
abbrev WorkerRef := String × Nat

/-- `DLExecutionGraph`, without what `build_cache` derives from the roles. -/
structure DLExecutionGraph where
  roles : Dict String DLWorkloadRole

namespace DLExecutionGraph

/-- `create` (`graph.py:294-304`). -/
def create (c : DLConfig) : DLExecutionGraph where
  roles := .ofItems (c.workloads.items.map fun e ↦ (e.1, .init e.1 e.2 e.2.total))

def worker (g : DLExecutionGraph) (ref : WorkerRef) : Option WorkerVertex :=
  (g.roles.get? ref.1).bind (·.instances[ref.2]?)

/-- A worker is changed in place. -/
def modifyWorker (g : DLExecutionGraph) (ref : WorkerRef) (f : WorkerVertex → WorkerVertex) :
    DLExecutionGraph :=
  match g.roles.get? ref.1 with
  | some role => ⟨g.roles.insert ref.1 { role with instances := role.instances.modify ref.2 f }⟩
  | none => g

/-- The workers of the roles, with their places. -/
def workersOf (roles : List (String × DLWorkloadRole)) : List (WorkerRef × WorkerVertex) :=
  roles.flatMap fun e ↦ e.2.instances.zipIdx.map fun v ↦ ((e.1, v.2), v.1)

theorem mem_workersOf {roles : List (String × DLWorkloadRole)} {ref : WorkerRef}
    {v : WorkerVertex} :
    (ref, v) ∈ workersOf roles ↔
      ∃ role, (ref.1, role) ∈ roles ∧ role.instances[ref.2]? = some v := by
  rcases ref with ⟨name, i⟩
  simp only [workersOf, List.mem_flatMap, List.mem_map, Prod.mk.injEq, Prod.exists,
    List.mem_zipIdx_iff_getElem?]
  constructor
  · rintro ⟨name, role, mem, v, i, at_i, ⟨rfl, rfl⟩, rfl⟩
    exact ⟨role, mem, at_i⟩
  · rintro ⟨role, mem, at_i⟩
    exact ⟨name, role, mem, v, i, at_i, ⟨rfl, rfl⟩, rfl⟩

theorem worker_of_mem {g : DLExecutionGraph} {roles : List (String × DLWorkloadRole)}
    (among : ∀ e ∈ roles, e ∈ g.roles.items) {ref : WorkerRef} {v : WorkerVertex}
    (mem : (ref, v) ∈ workersOf roles) : g.worker ref = some v := by
  rcases mem_workersOf.mp mem with ⟨role, mem, at_i⟩
  rw [worker, Dict.get?_eq_some_iff.mpr (among _ mem)]
  exact at_i

/-- What is not of a worker: the role with its instances left out, and how many they are. -/
def rest (g : DLExecutionGraph) (name : String) : Option (DLWorkloadRole × Nat) :=
  (g.roles.get? name).map fun role ↦ ({ role with instances := [] }, role.instances.length)

variable (g : DLExecutionGraph) (ref : WorkerRef) (f : WorkerVertex → WorkerVertex)

theorem modifyWorker_keys : (g.modifyWorker ref f).roles.keys = g.roles.keys := by
  unfold modifyWorker
  split
  · next role found =>
    exact Dict.keys_insert_of_mem _ (Dict.mem_of_mem_items (Dict.get?_eq_some_iff.mp found))
  · rfl

theorem modifyWorker_rest (name : String) : (g.modifyWorker ref f).rest name = g.rest name := by
  unfold modifyWorker
  split
  · next role found =>
    simp only [rest, Dict.get?_insert]
    split
    · next eq =>
      subst eq
      simp [found]
    · rfl
  · rfl

theorem modifyWorker_worker (ref' : WorkerRef) :
    (g.modifyWorker ref f).worker ref' =
      (g.worker ref').map fun v ↦ if ref' = ref then f v else v := by
  rcases ref with ⟨name, i⟩
  rcases ref' with ⟨name', j⟩
  unfold modifyWorker
  split
  · next role found =>
    simp only [worker, Dict.get?_insert]
    split
    · next eq =>
      subst eq
      simp only at found
      simp only [found, Option.bind_some, List.getElem?_modify, Prod.mk.injEq, true_and]
      by_cases same : i = j
      · simp [same]
      · simp [same, Ne.symm same]
    · next ne => simp [ne]
  · next missing =>
    simp only [worker]
    by_cases same : name' = name
    · subst same
      simp [missing]
    · simp [same]

end DLExecutionGraph

end ProbingBaselines.Dlrover
