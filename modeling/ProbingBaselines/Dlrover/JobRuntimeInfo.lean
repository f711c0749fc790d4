import ProbingBaselines.Lib.Dict
import ProbingBaselines.Lib.ExactFloat

/-!
# Runtime records of a job and what the optimizer reads from them

Source `xputimer-metax/dlrover/go/brain/pkg/common` (`job_metrics.go`, `job_resource.go`) and
`pkg/optimizer/implementation/utils` (`runtime.go`, `math.go`, `optimize_algorithm.go`). Numbers
are exact. The order of a dictionary's items is the one in which a loop over the map takes them.
-/

namespace ProbingBaselines.Dlrover

open Lib

/-- A `map[uint64]float64`; `none` is the nil map. -/
abbrev ResourceMap := Option (Dict Nat ℚ)

namespace ResourceMap

/-- What `range` goes through. -/
def entries (m : ResourceMap) : List (Nat × ℚ) := m.elim [] Dict.items

def ids (m : ResourceMap) : List Nat := (entries m).map Prod.fst

/-- `len(m)`. -/
def size (m : ResourceMap) : Nat := (entries m).length

/-- The comparison of two id sets by `reflect.DeepEqual`, `optimize_algorithm.go:222`. -/
def sameIds (m n : ResourceMap) : Bool := (ids m).all (· ∈ ids n) && (ids n).all (· ∈ ids m)

end ResourceMap

/-- `JobRuntimeInfo`, `job_metrics.go:67-75`. -/
structure JobRuntimeInfo where
  globalStep : Nat
  timeStamp : Nat
  speed : ℚ
  workerMemory : ResourceMap
  workerCPU : ResourceMap
  psMemory : ResourceMap
  psCPU : ResourceMap

/-! ### Plans -/

/-- `PodResource`, `job_resource.go:17-26`. -/
structure PodResource where
  cpuCore : ExactFloat
  memory : ExactFloat
  gpuCore : ExactFloat
  gpuType : String

/-- `TaskGroupResource`, `job_resource.go:29-34`. -/
structure TaskGroupResource where
  count : Int
  resource : PodResource

/-- `AlgorithmOptimizePlan` with its `JobResource`, `optimize_plan.go:17-19` and
`job_resource.go:37-42`. -/
structure AlgorithmOptimizePlan where
  taskGroupResources : Dict String TaskGroupResource := .empty
  podResources : Dict String PodResource := .empty

/-- The resource types a record has, `implementation/common/common.go`. -/
inductive ResourceType where
  | psCPU
  | psMemory
  | workerCPU
  | workerMemory

/-- `getResourceAccordingToType`, `runtime.go:79-96`. -/
def getResourceAccordingToType (rt : JobRuntimeInfo) : ResourceType → ResourceMap
  | .psCPU => rt.psCPU
  | .psMemory => rt.psMemory
  | .workerCPU => rt.workerCPU
  | .workerMemory => rt.workerMemory

/-- The last `sampleStep` records, the latest first. -/
def lastRecords (rts : List JobRuntimeInfo) (sampleStep : Nat) : List JobRuntimeInfo :=
  rts.reverse.take sampleStep

/-- The sum and the number of the values seen of each node. -/
structure NodeSums where
  nodeSumRes : Dict Nat ℚ := .empty
  nodeRecordNum : Dict Nat ℚ := .empty

namespace NodeSums

/-- One round of the loop at `runtime.go:40-43`. -/
def add (s : NodeSums) (e : Nat × ℚ) : NodeSums where
  nodeSumRes := s.nodeSumRes.insert e.1 ((s.nodeSumRes.get? e.1).getD 0 + e.2)
  nodeRecordNum := s.nodeRecordNum.insert e.1 ((s.nodeRecordNum.get? e.1).getD 0 + 1)

def addAll (s : NodeSums) (entries : List (Nat × ℚ)) : NodeSums := entries.foldl add s

end NodeSums

/-- `CalculateJobNodeAvgResources`, `runtime.go:23-54`. -/
def calculateJobNodeAvgResources (rts : List JobRuntimeInfo) (sampleStep : Nat)
    (resType : ResourceType) : Dict Nat ℚ :=
  match (lastRecords rts sampleStep).mapM (getResourceAccordingToType · resType) with
  | none => .empty
  | some resources =>
    let sums := resources.foldl (fun s r ↦ s.addAll r.items) ({} : NodeSums)
    .ofItems (sums.nodeSumRes.items.map fun e ↦
      (e.1, if 0 < e.2 then e.2 / (sums.nodeRecordNum.get? e.1).getD 0 else 0))

/-- `CalculateJobNodeMaxResource`, `runtime.go:57-77`. -/
def calculateJobNodeMaxResource (runtimeInfos : List JobRuntimeInfo) (sampleStep : Nat)
    (resType : ResourceType) : ResourceMap :=
  ((lastRecords runtimeInfos sampleStep).mapM (getResourceAccordingToType · resType)).map
    fun resources ↦ (resources.flatMap Dict.items).foldl
      (fun maxRes e ↦ if (maxRes.get? e.1).getD 0 < e.2 then maxRes.insert e.1 e.2 else maxRes)
      .empty

/-- `GetMaxUtil`, `math.go:68-82`. -/
def getMaxUtil (useds : ResourceMap) (requireds : Dict Nat ℚ) : ExactFloat :=
  (ResourceMap.entries useds).foldl
    (fun maxUtil e ↦
      match requireds.get? e.1 with
      | none => maxUtil
      | some required =>
        let util := .num e.2 / .num required
        if maxUtil = .num 0 ∨ maxUtil < util then util else maxUtil)
    (.num 0)

/-- `FilterRuntimeInfosWithLatestPS`, `optimize_algorithm.go:204-228`. -/
def filterRuntimeInfosWithLatestPS (runtimeInfos : List JobRuntimeInfo) : List JobRuntimeInfo :=
  let lastPs := runtimeInfos.getLast?.bind JobRuntimeInfo.psCPU
  runtimeInfos.filter fun info ↦ ResourceMap.sameIds lastPs info.psCPU

/-- `CheckHotCPUNodes`, `optimize_algorithm.go:231-251`. -/
def checkHotCPUNodes (runtimeInfos : List JobRuntimeInfo) (nodeCPUs : Dict Nat ℚ)
    (hotThreshold : ℚ) (sampleStep : Nat) : List Nat :=
  if runtimeInfos.length < sampleStep then []
  else
    ((calculateJobNodeAvgResources runtimeInfos sampleStep .psCPU).items.filter fun e ↦
      match nodeCPUs.get? e.1 with
      | none => false
      | some totalCPU => decide (.num hotThreshold < ExactFloat.num e.2 / .num totalCPU)).map
        Prod.fst

/-! ### What the averages are -/

theorem NodeSums.recordNum_nonneg {s : NodeSums}
    (nonneg : ∀ n, 0 ≤ (s.nodeRecordNum.get? n).getD 0) (entries : List (Nat × ℚ)) :
    ∀ n, 0 ≤ ((s.addAll entries).nodeRecordNum.get? n).getD 0 := by
  induction entries generalizing s with
  | nil => exact nonneg
  | cons e entries ih =>
    refine ih fun n ↦ ?_
    rw [NodeSums.add, Dict.get?_insert]
    split
    · exact add_nonneg (nonneg e.1) zero_le_one
    · exact nonneg n

/-- An average is never negative, whatever was recorded. -/
theorem calculateJobNodeAvgResources_nonneg {rts : List JobRuntimeInfo} {sampleStep : Nat}
    {resType : ResourceType} {e : Nat × ℚ}
    (mem : e ∈ (calculateJobNodeAvgResources rts sampleStep resType).items) : 0 ≤ e.2 := by
  rw [calculateJobNodeAvgResources] at mem
  split at mem
  · exact absurd mem List.not_mem_nil
  · next resources _ =>
    have nums : ∀ (maps : List (Dict Nat ℚ)) (s : NodeSums),
        (∀ n, 0 ≤ (s.nodeRecordNum.get? n).getD 0) →
        ∀ n, 0 ≤ ((maps.foldl (fun s r ↦ s.addAll r.items) s).nodeRecordNum.get? n).getD 0 := by
      intro maps
      induction maps with
      | nil => exact fun _ nonneg ↦ nonneg
      | cons r maps ih => exact fun s nonneg ↦ ih _ (s.recordNum_nonneg nonneg r.items)
    rcases List.mem_map.mp (Dict.mem_items_ofItems mem) with ⟨sum, -, rfl⟩
    dsimp only
    split
    · next pos => exact div_nonneg pos.le (nums resources {} (fun _ ↦ le_rfl) sum.1)
    · exact le_rfl

end ProbingBaselines.Dlrover
