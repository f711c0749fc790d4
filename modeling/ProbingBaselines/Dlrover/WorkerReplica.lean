import Mathlib.Data.Rat.Floor
import Mathlib.Tactic.Linarith
import ProbingBaselines.Dlrover.HotPs

/-!
# Scaling the workers of a running job

Source `xputimer-metax/dlrover/go/brain/pkg/optimizer/implementation/optalgorithm`
(`optimize_job_worker_resource.go`). An `int` has 64 bits: a sum wraps around, and a double out of
range converts to the least `int`, as on the amd64 that the image is built for
(`docker/brain.dockerfile:12`). The conversion of the count to `int32` keeps its 32 bits. In the
stable phase only an increased speed is checked before the step limit, so with a stable speed the
count may reach the largest one at once.
-/

namespace ProbingBaselines.Dlrover

open Lib

/-- An index outside the history, which stops the program. -/
inductive GoPanic where
  | indexOutOfRange (i : Int) (len : Nat)

/-- `infos[i]`. -/
def recordAt (infos : List JobRuntimeInfo) (i : Int) : Except GoPanic JobRuntimeInfo :=
  if i < 0 then .error (.indexOutOfRange i infos.length)
  else
    match infos[i.toNat]? with
    | some info => .ok info
    | none => .error (.indexOutOfRange i infos.length)

/-- The phases a job is configured with; any other text is `other`. -/
inductive OptimizePhase where
  | initial
  | sample
  | stable
  | other

/-- `speedDecelerated`, `speedIncreased` and `speedStable`. -/
inductive SpeedState where
  | decelerated
  | increased
  | stable
  deriving DecidableEq

/-- The hyperparameters and the dataset, as far as they are read. -/
structure TrainingHyperParams where
  batchSize : Nat
  epoch : Int
  maxSteps : Nat

/-- What is left of a number in the 64 bits of an `int`. -/
def int64 (x : Int) : Int := x.bmod 18446744073709551616

/-- The numbers below the bound of `int`. -/
abbrev IsInt (x : Int) : Prop := x < 9223372036854775808

/-- The conversion of a double to `int`. -/
def toInt : IntConversion (-9223372036854775808) 9223372036854775808 := .least _ _ (by decide)

/-- The configured values as parsed; `strconv.Atoi` gives an `int`. -/
structure WorkerConfig where
  maxReplicaCount : Int
  cpuUtilCompCount : Int
  cpuUtilLessPercent : ℚ
  stepCountThreshold : Int
  speedLessPercent : ℚ
  workerReplicaDecreaseCount : Int
  psCPUOverload : ℚ
  psCPUExhaustedThreshold : ℚ
  workerMaxInitCountPerStep : Int
  workerMaxCountPerStep : Int
  workerMemoryMarginPercent : ℚ
  workerCPUMarginCores : ℚ
  phase : OptimizePhase
  maxReplicaCount_int : IsInt maxReplicaCount
  workerMaxCountPerStep_int : IsInt workerMaxCountPerStep

/-- `len(info.WorkerCPU)`. -/
def workerNum (info : JobRuntimeInfo) : Nat := ResourceMap.size info.workerCPU

/-- What the algorithm reads of a job; `hyperParams` and `datasetSize` are `none` where they do not
parse. The length of a map is an `int`. -/
structure WorkerInput where
  conf : WorkerConfig
  psCPUs : Dict Nat ℚ
  jobRuntime : List JobRuntimeInfo
  hyperParams : Option TrainingHyperParams
  datasetSize : Option Nat
  workerNum_int : ∀ info ∈ jobRuntime, IsInt (workerNum info)

/-- `defaultEnoughRecordNum`, `initTrainingRecordNumThres` and `maxWorkerIncreasedMemory`,
`optimize_job_worker_resource.go:33-38`. -/
def defaultEnoughRecordNum : Nat := 3
def initTrainingRecordNumThres : Nat := 6
def maxWorkerIncreasedMemory : ℚ := 8589934592

/-- `initStepTime` and `defaultInitWorker`, `optimize_algorithm.go:25,26`. -/
def initStepTime : ℚ := 1800
def defaultInitWorker : Int := 10

/-! ### The records that count -/

/-- Whether the record at `j` shows that the one at `i` with the given utilization is no
singularity, `optimize_job_worker_resource.go:382-391`. -/
def showsNoSingularity (infos : List JobRuntimeInfo) (cpus : Dict Nat ℚ) (lessPercent : ℚ)
    (cpuUtil : ExactFloat) (i j : Int) : Except GoPanic Bool :=
  if j < 0 ∨ j = i ∨ infos.length ≤ j then .ok false
  else do
    let compInfo ← recordAt infos j
    let compCPUUtil := getMaxUtil compInfo.psCPU cpus
    return cpuUtil ≤ compCPUUtil ∨ (cpuUtil - compCPUUtil) / cpuUtil < .num lessPercent

/-- Whether a record is kept, given those kept before it,
`optimize_job_worker_resource.go:358-397`. -/
def keepsRecord (infos : List JobRuntimeInfo) (cpus : Dict Nat ℚ) (overloadCPUUtil : ℚ)
    (count : Int) (lessPercent : ℚ) (newInfos : List JobRuntimeInfo) (info : JobRuntimeInfo)
    (i : Nat) : Except GoPanic Bool :=
  if ¬ResourceMap.sameIds (infos.getLast?.bind JobRuntimeInfo.psCPU) info.psCPU then .ok false
  else if newInfos.length = 0 ∨ i = infos.length - 1 then .ok true
  else
    let cpuUtil := getMaxUtil info.psCPU cpus
    if cpuUtil ≤ .num overloadCPUUtil then .ok true
    else
      let first := int64 (i - count)
      let last := int64 (i + count)
      ((List.range (last - first + 1).toNat).map fun (k : Nat) ↦ (first + k : Int)).anyM
        (showsNoSingularity infos cpus lessPercent cpuUtil i)

/-- `preProcessRuntimeInfos`, `optimize_job_worker_resource.go:344-400`. -/
def preProcessRuntimeInfos (infos : List JobRuntimeInfo) (cpus : Dict Nat ℚ)
    (overloadCPUUtil : ℚ) (count : Int) (lessPercent : ℚ) :
    Except GoPanic (List JobRuntimeInfo) :=
  infos.zipIdx.foldlM
    (fun newInfos e ↦ do
      let keep ← keepsRecord infos cpus overloadCPUUtil count lessPercent newInfos e.1 e.2
      return if keep then newInfos ++ [e.1] else newInfos)
    []

/-! ### The speed -/

/-- The loop that looks for the last change of the number of workers,
`optimize_job_worker_resource.go:245-255`, with the first `i` records left. -/
def lastReplicaInter (infos : List JobRuntimeInfo) : Nat → Nat → Int
  | 0, _ => -1
  | i + 1, curReplica =>
    let n := (infos[i]?.map workerNum).getD 0
    if curReplica = 0 then lastReplicaInter infos i n
    else if curReplica ≠ n then i
    else lastReplicaInter infos i curReplica

/-- The sum of the speeds at the indices, in their order. -/
def totalSpeed (infos : List JobRuntimeInfo) (indices : List Int) : Except GoPanic ℚ :=
  indices.foldlM (fun total i ↦ do return total + (← recordAt infos i).speed) 0

/-- `speedLessThan`, `optimize_job_worker_resource.go:284-286`. -/
def speedLessThan (preSpeed posSpeed : ExactFloat) (lessPercent : ℚ) : Bool :=
  posSpeed < preSpeed && .num lessPercent ≤ (preSpeed - posSpeed) / preSpeed

/-- `getTrainingSpeedState`, `optimize_job_worker_resource.go:243-282`. -/
def getTrainingSpeedState (infos : List JobRuntimeInfo) (count : Int) (lessPercent : ℚ) :
    Except GoPanic SpeedState := do
  let l : Int := infos.length
  let last := lastReplicaInter infos infos.length 0
  if l - count - 1 < last then return .stable
  else if last < count - 1 then return .increased
  let preTotalSpeed ← totalSpeed infos
    ((List.range count.toNat).map fun (k : Nat) ↦ last - (k : Int))
  let posTotalSpeed ← totalSpeed infos
    ((List.range count.toNat).map fun (k : Nat) ↦ last + 1 + (k : Int))
  let preAvgSpeed := ExactFloat.num preTotalSpeed / .num count
  let posAvgSpeed := ExactFloat.num posTotalSpeed / .num count
  if speedLessThan preAvgSpeed posAvgSpeed lessPercent then return .decelerated
  else if preAvgSpeed < posAvgSpeed then return .increased
  else return .stable

/-- `computePreAvgSpeed`, `optimize_job_worker_resource.go:321-335`. -/
def computePreAvgSpeed (infos : List JobRuntimeInfo) (maxCount : Int) :
    Except GoPanic ExactFloat := do
  let l : Int := infos.length
  let count := min l maxCount
  if count = 0 then return .num 0
  let total ← ((List.range count.toNat).map fun (k : Nat) ↦ l - 1 - (k : Int)).foldlM
    (fun total i ↦ do
      let info ← recordAt infos i
      return total + ExactFloat.num info.speed / .num (workerNum info))
    (ExactFloat.num 0)
  return total / .num count

/-- `computeInitPerStepTime`, `optimize_job_worker_resource.go:288-319`; `none` is its error. -/
def computeInitPerStepTime (hyperParams : Option TrainingHyperParams) (datasetSize : Option Nat)
    (speed : ExactFloat) : Option ExactFloat := do
  let params ← hyperParams
  let size ← datasetSize
  let steps := ExactFloat.num size / .num params.batchSize
  let steps := if 0 < params.epoch then .num params.epoch * steps else steps
  let steps := if 0 < params.maxSteps ∧ .num params.maxSteps < steps then .num params.maxSteps
    else steps
  return steps / speed

/-! ### The count -/

/-- `computeWorkerReplicaForIdlePSCPU`, `optimize_job_worker_resource.go:236-241`. -/
def computeWorkerReplicaForIdlePSCPU (psCPU : ExactFloat) (psCPUOverload : ℚ) (replica : Int) :
    Int :=
  if .num psCPUOverload ≤ psCPU then replica
  else toInt.conv (ExactFloat.num psCPUOverload / psCPU * .num replica).ceil

/-- The conversion of an `int` to `int32`. -/
def int32 (x : Int) : Int := x.bmod 4294967296

/-- The count after the phase of a job whose servers have room,
`optimize_job_worker_resource.go:157-177`. -/
def phaseReplica (i : WorkerInput) (infos : List JobRuntimeInfo) (speedState : SpeedState)
    (currWorkerReplica replica : Int) : Except GoPanic Int :=
  let stepped := int64 (currWorkerReplica +
    min i.conf.workerMaxCountPerStep (int64 (replica - currWorkerReplica)))
  let sampled := do
    let avgSpeed ← computePreAvgSpeed infos i.conf.stepCountThreshold
    if avgSpeed = .num 0 then return stepped
    else
      match computeInitPerStepTime i.hyperParams i.datasetSize avgSpeed with
      | none => return replica
      | some time =>
        if time ≤ .num initStepTime then return defaultInitWorker
        else return min i.conf.workerMaxInitCountPerStep replica
  match i.conf.phase with
  | .initial => sampled
  | .sample => sampled
  | .stable => .ok (if speedState = .increased then stepped else replica)
  | .other => .ok replica

/-- `maxPSCPUUtil`, `optimize_job_worker_resource.go:139,140`. -/
def maxPSCPUUtil (i : WorkerInput) (infos : List JobRuntimeInfo) : ExactFloat :=
  getMaxUtil (calculateJobNodeMaxResource infos nRecordToAvgResource .psCPU) i.psCPUs

/-- `exhaustedPSNodes`, `optimize_job_worker_resource.go:144`. -/
def exhaustedPSNodes (i : WorkerInput) (infos : List JobRuntimeInfo) : List Nat :=
  checkHotCPUNodes infos i.psCPUs i.conf.psCPUExhaustedThreshold defaultEnoughRecordNum

/-- The count before the largest one is applied, `optimize_job_worker_resource.go:135-178`. -/
def workerReplica (i : WorkerInput) (infos : List JobRuntimeInfo) : Except GoPanic Int := do
  let latestRuntimeInfo ← recordAt infos (infos.length - 1)
  let currWorkerReplica : Int := workerNum latestRuntimeInfo
  let speedState ← getTrainingSpeedState infos i.conf.stepCountThreshold i.conf.speedLessPercent
  if 0 < (exhaustedPSNodes i infos).length then
    return if i.conf.workerReplicaDecreaseCount < currWorkerReplica then
        int64 (currWorkerReplica - i.conf.workerReplicaDecreaseCount)
      else currWorkerReplica
  else if maxPSCPUUtil i infos < .num i.conf.psCPUOverload ∧ speedState ≠ .decelerated then
    phaseReplica i infos speedState currWorkerReplica
      (if maxPSCPUUtil i infos ≤ .num 0 then
          int64 (currWorkerReplica + i.conf.workerMaxCountPerStep)
        else computeWorkerReplicaForIdlePSCPU (maxPSCPUUtil i infos) i.conf.psCPUOverload
          currWorkerReplica)
  else
    return currWorkerReplica

/-- The resource of one worker, `optimize_job_worker_resource.go:180-212`. -/
def workerResource (conf : WorkerConfig) (infos : List JobRuntimeInfo) : PodResource :=
  let workerCPU :=
    if infos.length < initTrainingRecordNumThres then
      calculateJobNodeMaxResource infos nRecordToAvgResource .workerCPU
    else
      some (calculateJobNodeAvgResources infos nRecordToAvgResource .workerCPU)
  let cpuCore := (ResourceMap.entries workerCPU).foldl
    (fun cpuCore e ↦ if cpuCore < e.2 then e.2 else cpuCore) 0
  let memory := (infos.flatMap fun info ↦ ResourceMap.entries info.workerMemory).foldl
    (fun memory e ↦ if memory < e.2 then e.2 else memory) 0
  let addMemory := memory * conf.workerMemoryMarginPercent
  let addMemory := if maxWorkerIncreasedMemory < addMemory then maxWorkerIncreasedMemory
    else addMemory
  { cpuCore := .num (if 0 < cpuCore then ⌈cpuCore + conf.workerCPUMarginCores⌉ else cpuCore)
    memory := .num (memory + addMemory)
    gpuCore := .num 0
    gpuType := "" }

/-- `OptimizeJobWorkerResource` from the parsed records on,
`optimize_job_worker_resource.go:57-234`. -/
def optimizeJobWorkerResource (i : WorkerInput) : Except GoPanic (Option AlgorithmOptimizePlan) :=
  if i.jobRuntime.length = 0 then .ok none
  else do
    let infos ← preProcessRuntimeInfos i.jobRuntime i.psCPUs i.conf.psCPUOverload
      i.conf.cpuUtilCompCount i.conf.cpuUtilLessPercent
    if infos.length < i.conf.cpuUtilCompCount then return none
    let replica ← workerReplica i infos
    let replica := if i.conf.maxReplicaCount < replica then i.conf.maxReplicaCount else replica
    return some
      { taskGroupResources := .ofItems
          [("worker", { count := int32 replica, resource := workerResource i.conf infos })] }

/-! ### What the count is bounded by -/

/-- Positive counts and overload thresholds. -/
structure WorkerConfig.Positive (conf : WorkerConfig) : Prop where
  maxReplicaCount : 0 < conf.maxReplicaCount
  cpuUtilCompCount : 0 < conf.cpuUtilCompCount
  stepCountThreshold : 0 < conf.stepCountThreshold
  workerReplicaDecreaseCount : 0 < conf.workerReplicaDecreaseCount
  psCPUOverload : 0 < conf.psCPUOverload
  psCPUExhaustedThreshold : 0 < conf.psCPUExhaustedThreshold
  workerMaxInitCountPerStep : 0 < conf.workerMaxInitCountPerStep
  workerMaxCountPerStep : 0 < conf.workerMaxCountPerStep

/-- A count that moves by a step from the current one, down only when a server is exhausted. -/
structure Stepwise (conf : WorkerConfig) (current count : Int) (exhausted : Prop) : Prop where
  one : 1 ≤ count
  largest : count ≤ conf.maxReplicaCount
  step : count ≤ current + conf.workerMaxCountPerStep
  decrease : count < min current conf.maxReplicaCount →
    exhausted ∧ min current conf.maxReplicaCount - conf.workerReplicaDecreaseCount ≤ count

/-- The number is in the interval after a shift by a positive multiple of `2^32`. -/
def ShiftedInto (x lower upper : Int) : Prop :=
  ∃ k : Int, 0 < k ∧ lower + k * 4294967296 ≤ x ∧ x ≤ upper + k * 4294967296

namespace WorkerInput

/-- The records that are kept. -/
def infos (i : WorkerInput) : List JobRuntimeInfo :=
  (preProcessRuntimeInfos i.jobRuntime i.psCPUs i.conf.psCPUOverload i.conf.cpuUtilCompCount
    i.conf.cpuUtilLessPercent).toOption.getD []

def speedState (i : WorkerInput) : SpeedState :=
  (getTrainingSpeedState i.infos i.conf.stepCountThreshold i.conf.speedLessPercent).toOption.getD
    .stable

/-- Some server is exhausted. -/
def Exhausted (i : WorkerInput) : Prop := 0 < (exhaustedPSNodes i i.infos).length

instance decidableExhausted (i : WorkerInput) : Decidable i.Exhausted :=
  inferInstanceAs (Decidable (_ < _))

/-- The servers have room for more workers. -/
def HasRoom (i : WorkerInput) : Prop :=
  maxPSCPUUtil i i.infos < .num i.conf.psCPUOverload ∧ i.speedState ≠ .decelerated

instance decidableHasRoom (i : WorkerInput) : Decidable i.HasRoom :=
  inferInstanceAs (Decidable (_ ∧ _))

/-- The number of workers at which the busiest server would be overloaded, or the bound of `int` if
that is less. -/
def overloadingCount (i : WorkerInput) (current : Int) : Int :=
  match maxPSCPUUtil i i.infos with
  | .num util => min ⌈i.conf.psCPUOverload / util * current⌉ 9223372036854775808
  | _ => current

/-- The number of workers that the stable phase asks for, if an `int` had no bound. -/
def targetCount (i : WorkerInput) (current : Int) : Int :=
  if i.Exhausted then
    if i.conf.workerReplicaDecreaseCount < current then current - i.conf.workerReplicaDecreaseCount
    else current
  else if i.HasRoom then
    if maxPSCPUUtil i i.infos ≤ .num 0 then current + i.conf.workerMaxCountPerStep
    else if i.speedState = .increased then
      min (current + i.conf.workerMaxCountPerStep) (i.overloadingCount current)
    else i.overloadingCount current
  else current

/-- The number of workers is limited by a step, unless the servers have room, some of them are in
use, and the speed is stable; then the servers or the largest count must leave only a step. -/
def StepLimited (i : WorkerInput) (current : Int) : Prop :=
  i.Exhausted ∨ ¬i.HasRoom ∨ maxPSCPUUtil i i.infos ≤ .num 0 ∨ i.speedState = .increased ∨
    i.overloadingCount current ≤ current + i.conf.workerMaxCountPerStep ∨
    i.conf.maxReplicaCount ≤ current + i.conf.workerMaxCountPerStep

/-- The number of workers that the largest count leaves of it; one that is no `int` wraps to a
negative number, which is below the largest count. -/
def askedCount (i : WorkerInput) (current : Int) : Int :=
  if i.targetCount current < 9223372036854775808 then
    min (i.targetCount current) i.conf.maxReplicaCount
  else i.targetCount current

/-- The count that is asked for fits an `int32` and is limited by a step, or it is some `2^32` too
large for a count within a step. -/
def StepCondition (i : WorkerInput) (current : Int) : Prop :=
  i.askedCount current < 2147483648 ∧ i.StepLimited current ∨
    ShiftedInto (i.askedCount current)
      (max 1 (min current i.conf.maxReplicaCount -
        if i.Exhausted then i.conf.workerReplicaDecreaseCount else 0))
      (min 2147483647 (min i.conf.maxReplicaCount (current + i.conf.workerMaxCountPerStep)))

end WorkerInput

/-! ### No index is outside the history -/

theorem recordAt_ok {infos : List JobRuntimeInfo} (i : Int) (lower : 0 ≤ i)
    (upper : i < infos.length) : ∃ info, recordAt infos i = .ok info := by
  have inside : i.toNat < infos.length := by omega
  refine ⟨infos[i.toNat], ?_⟩
  rw [recordAt, if_neg (not_lt.mpr lower), List.getElem?_eq_getElem inside]

theorem recordAt_last {infos : List JobRuntimeInfo} {last : JobRuntimeInfo}
    (h : infos.getLast? = some last) : recordAt infos (infos.length - 1) = .ok last := by
  have nonempty : infos ≠ [] := by
    rintro rfl
    cases h
  have pos := List.length_pos_iff.mpr nonempty
  have place : ((infos.length : Int) - 1).toNat = infos.length - 1 := by omega
  rw [recordAt, if_neg (by omega), place, ← List.getLast?_eq_getElem?, h]

theorem anyM_ok {α : Type} {f : α → Except GoPanic Bool} {l : List α}
    (each : ∀ x ∈ l, ∃ b, f x = .ok b) : ∃ b, l.anyM f = .ok b := by
  induction l with
  | nil => exact ⟨false, rfl⟩
  | cons x l ih =>
    obtain ⟨b, first⟩ := each x List.mem_cons_self
    obtain ⟨c, rest⟩ := ih fun y mem ↦ each y (List.mem_cons_of_mem _ mem)
    cases b with
    | true => exact ⟨true, by rw [List.anyM, first]; rfl⟩
    | false => exact ⟨c, by rw [List.anyM, first]; exact rest⟩

theorem foldlM_ok {α β : Type} {f : β → α → Except GoPanic β} {l : List α}
    (each : ∀ b, ∀ x ∈ l, ∃ c, f b x = .ok c) (b : β) : ∃ c, l.foldlM f b = .ok c := by
  induction l generalizing b with
  | nil => exact ⟨b, rfl⟩
  | cons x l ih =>
    obtain ⟨c, first⟩ := each b x List.mem_cons_self
    obtain ⟨d, rest⟩ := ih (fun b y mem ↦ each b y (List.mem_cons_of_mem _ mem)) c
    exact ⟨d, by rw [List.foldlM_cons, first]; exact rest⟩

theorem foldlM_concat {α β : Type} {f : β → α → Except GoPanic β} {l : List α} {b c : β}
    (h : l.foldlM f b = .ok c) (x : α) : (l ++ [x]).foldlM f b = f c x := by
  rw [List.foldlM_append, h]
  change [x].foldlM f c = f c x
  rw [List.foldlM_cons]
  exact bind_pure _

theorem keepsRecord_ok (infos : List JobRuntimeInfo) (cpus : Dict Nat ℚ) (overloadCPUUtil : ℚ)
    (count : Int) (lessPercent : ℚ) (newInfos : List JobRuntimeInfo) (info : JobRuntimeInfo)
    (i : Nat) :
    ∃ b, keepsRecord infos cpus overloadCPUUtil count lessPercent newInfos info i = .ok b := by
  rw [keepsRecord]
  split
  · exact ⟨_, rfl⟩
  · split
    · exact ⟨_, rfl⟩
    · dsimp only
      split
      · exact ⟨_, rfl⟩
      · refine anyM_ok fun j _ ↦ ?_
        rw [showsNoSingularity]
        split
        · exact ⟨_, rfl⟩
        · next inside =>
          obtain ⟨info, known⟩ := recordAt_ok j (by omega) (show j < infos.length by omega)
          rw [known]
          exact ⟨_, rfl⟩

theorem sameIds_self (m : ResourceMap) : ResourceMap.sameIds m m = true := by
  simp [ResourceMap.sameIds]

/-- The last record of a history is the last one that is kept. -/
theorem preProcessRuntimeInfos_ok {infos : List JobRuntimeInfo} {last : JobRuntimeInfo}
    (h : infos.getLast? = some last) (cpus : Dict Nat ℚ) (overloadCPUUtil : ℚ) (count : Int)
    (lessPercent : ℚ) :
    ∃ kept, preProcessRuntimeInfos infos cpus overloadCPUUtil count lessPercent =
      .ok (kept ++ [last]) := by
  obtain ⟨front, split⟩ := List.getLast?_eq_some_iff.mp h
  have step (newInfos : List JobRuntimeInfo) (e : JobRuntimeInfo × Nat) : ∃ kept,
      (do
        let keep ← keepsRecord infos cpus overloadCPUUtil count lessPercent newInfos e.1 e.2
        return if keep then newInfos ++ [e.1] else newInfos) = Except.ok kept := by
    obtain ⟨b, keeps⟩ :=
      keepsRecord_ok infos cpus overloadCPUUtil count lessPercent newInfos e.1 e.2
    rw [keeps]
    exact ⟨_, rfl⟩
  obtain ⟨kept, before⟩ := foldlM_ok (l := front.zipIdx) (fun b x _ ↦ step b x) []
  have final : keepsRecord infos cpus overloadCPUUtil count lessPercent kept last front.length =
      .ok true := by
    have place : front.length = infos.length - 1 := by
      rw [split, List.length_append, List.length_singleton, Nat.add_sub_cancel]
    rw [keepsRecord, h, Option.bind_some, sameIds_self, if_neg (by simp), if_pos (.inr place)]
  refine ⟨kept, ?_⟩
  rw [preProcessRuntimeInfos]
  conv_lhs =>
    rw [split, List.zipIdx_append, List.zipIdx_singleton, Nat.zero_add, ← split]
  rw [foldlM_concat before]
  dsimp only
  rw [final]
  rfl

theorem totalSpeed_ok {infos : List JobRuntimeInfo} {count : Nat} (index : Nat → Int)
    (inside : ∀ k < count, 0 ≤ index k ∧ index k < infos.length) :
    ∃ total, totalSpeed infos ((List.range count).map index) = .ok total := by
  refine foldlM_ok (fun total i mem ↦ ?_) 0
  obtain ⟨k, hk, rfl⟩ := List.mem_map.mp mem
  obtain ⟨lower, upper⟩ := inside k (List.mem_range.mp hk)
  obtain ⟨info, known⟩ := recordAt_ok (index k) lower upper
  rw [known]
  exact ⟨_, rfl⟩

theorem getTrainingSpeedState_ok (infos : List JobRuntimeInfo) {count : Int} (pos : 0 < count)
    (lessPercent : ℚ) : ∃ state, getTrainingSpeedState infos count lessPercent = .ok state := by
  rw [getTrainingSpeedState]
  dsimp only
  generalize lastReplicaInter infos infos.length 0 = last
  split
  · exact ⟨_, rfl⟩
  · split
    · exact ⟨_, rfl⟩
    · have before : ∀ k < count.toNat, 0 ≤ last - (k : Int) ∧ last - (k : Int) < infos.length :=
        fun k hk ↦ by omega
      have behind :
          ∀ k < count.toNat, 0 ≤ last + 1 + (k : Int) ∧ last + 1 + (k : Int) < infos.length :=
        fun k hk ↦ by omega
      obtain ⟨pre, pre_ok⟩ := totalSpeed_ok (fun (k : Nat) ↦ last - (k : Int)) before
      obtain ⟨pos, pos_ok⟩ := totalSpeed_ok (fun (k : Nat) ↦ last + 1 + (k : Int)) behind
      rw [pre_ok, pos_ok]
      dsimp only [bind, Except.bind]
      split
      · exact ⟨_, rfl⟩
      · split
        · exact ⟨_, rfl⟩
        · exact ⟨_, rfl⟩

/-! ### Numbers in 64 and in 32 bits -/

theorem int64_spec (x : Int) : ∃ k : Int, int64 x = x - k * 18446744073709551616 ∧
    -9223372036854775808 ≤ int64 x ∧ int64 x < 9223372036854775808 := by
  rw [int64, Int.bmod]
  split
  · exact ⟨x / 18446744073709551616, by omega, by omega, by omega⟩
  · exact ⟨x / 18446744073709551616 + 1, by omega, by omega, by omega⟩

theorem int64_of_lt {x : Int} (lower : 0 ≤ x) (upper : IsInt x) : int64 x = x := by
  obtain ⟨k, eq, lower', upper'⟩ := int64_spec x
  omega

theorem int32_spec (x : Int) : ∃ k : Int, int32 x = x - k * 4294967296 ∧
    -2147483648 ≤ int32 x ∧ int32 x < 2147483648 := by
  rw [int32, Int.bmod]
  split
  · exact ⟨x / 4294967296, by omega, by omega, by omega⟩
  · exact ⟨x / 4294967296 + 1, by omega, by omega, by omega⟩

theorem int32_of_lt {x : Int} (lower : 0 ≤ x) (upper : x < 2147483648) : int32 x = x := by
  obtain ⟨k, eq, lower', upper'⟩ := int32_spec x
  omega

/-! ### The count of a stable job -/

namespace WorkerInput

variable {i : WorkerInput} {last : JobRuntimeInfo}

theorem infos_ok (h : i.jobRuntime.getLast? = some last) :
    preProcessRuntimeInfos i.jobRuntime i.psCPUs i.conf.psCPUOverload i.conf.cpuUtilCompCount
        i.conf.cpuUtilLessPercent = .ok i.infos ∧ i.infos.getLast? = some last := by
  obtain ⟨kept, ok⟩ := preProcessRuntimeInfos_ok h i.psCPUs i.conf.psCPUOverload
    i.conf.cpuUtilCompCount i.conf.cpuUtilLessPercent
  have eq : i.infos = kept ++ [last] := by
    rw [infos, ok]
    rfl
  exact ⟨by rw [ok, eq], by rw [eq, List.getLast?_concat]⟩

theorem speedState_ok (positive : i.conf.Positive) :
    getTrainingSpeedState i.infos i.conf.stepCountThreshold i.conf.speedLessPercent =
      .ok i.speedState := by
  obtain ⟨state, ok⟩ := getTrainingSpeedState_ok i.infos positive.stepCountThreshold
    i.conf.speedLessPercent
  rw [speedState, ok]
  rfl

/-- Where servers with room are in use, the extrapolation is a number above the current count. -/
theorem overloadingCount_eq {current : Int} (fits : IsInt current) (room : i.HasRoom)
    (used : ¬maxPSCPUUtil i i.infos ≤ .num 0) (pos : 0 < current) :
    computeWorkerReplicaForIdlePSCPU (maxPSCPUUtil i i.infos) i.conf.psCPUOverload current =
        int64 (i.overloadingCount current) ∧
      current < i.overloadingCount current ∧ i.overloadingCount current ≤ 9223372036854775808 := by
  obtain ⟨util, eq, util_pos, below⟩ := ExactFloat.eq_num_of_bounds used room.1
  have more : 1 < i.conf.psCPUOverload / util := (one_lt_div util_pos).mpr below
  have pos' : (0 : ℚ) < current := Int.cast_pos.mpr pos
  have above : current < ⌈i.conf.psCPUOverload / util * current⌉ := Int.lt_ceil.mpr (by nlinarith)
  rw [computeWorkerReplicaForIdlePSCPU, overloadingCount, eq,
    if_neg (not_le.mpr below ∘ ExactFloat.num_le_num.mp), ExactFloat.num_div_num util_pos.ne',
    ExactFloat.num_mul_num, ExactFloat.ceil_num]
  dsimp only
  generalize ⌈i.conf.psCPUOverload / util * current⌉ = count at above
  refine ⟨?_, by omega, by omega⟩
  rw [toInt, IntConversion.least]
  simp only [truncate_intCast]
  obtain ⟨k, wrapped, lower, upper⟩ := int64_spec (min count 9223372036854775808)
  split <;> omega

/-- The code computes the count that the stable phase asks for, in an `int`. -/
theorem workerReplica_eq (positive : i.conf.Positive) (stable : i.conf.phase = .stable)
    (h : i.jobRuntime.getLast? = some last) (workers : 0 < workerNum last) :
    workerReplica i i.infos = .ok (int64 (i.targetCount (workerNum last))) := by
  have fits : IsInt (workerNum last) := i.workerNum_int last (List.mem_of_getLast? h)
  have step := i.conf.workerMaxCountPerStep_int
  have step_pos := positive.workerMaxCountPerStep
  have decrease := positive.workerReplicaDecreaseCount
  have pos : 0 < (workerNum last : Int) := by omega
  rw [workerReplica, recordAt_last (infos_ok h).2]
  dsimp only [bind, Except.bind]
  rw [speedState_ok positive, targetCount]
  dsimp only
  by_cases exhausted : i.Exhausted
  · rw [if_pos (c := 0 < (exhaustedPSNodes i i.infos).length) exhausted, if_pos exhausted]
    refine congrArg Except.ok ?_
    split
    · rfl
    · exact (int64_of_lt pos.le fits).symm
  · rw [if_neg (c := 0 < (exhaustedPSNodes i i.infos).length) exhausted, if_neg exhausted]
    by_cases room : i.HasRoom
    · rw [if_pos (c := _ ∧ _) room, if_pos room, phaseReplica, stable]
      dsimp only
      by_cases unused : maxPSCPUUtil i i.infos ≤ .num 0
      · rw [if_pos unused, if_pos unused]
        refine congrArg Except.ok ?_
        split
        · -- The difference of two wrapped numbers is the step again.
          have same : int64 (int64 (workerNum last + i.conf.workerMaxCountPerStep) -
              workerNum last) = i.conf.workerMaxCountPerStep := by
            obtain ⟨k, eq, -⟩ := int64_spec (workerNum last + i.conf.workerMaxCountPerStep)
            obtain ⟨k', eq', lower, upper⟩ := int64_spec
              (int64 (workerNum last + i.conf.workerMaxCountPerStep) - workerNum last)
            omega
          rw [same, min_self]
        · rfl
      · obtain ⟨computed, above, most⟩ := overloadingCount_eq fits room unused pos
        rw [if_neg unused, if_neg unused, computed]
        refine congrArg Except.ok ?_
        split
        · -- The extrapolation is above the current count also where its `int` is negative.
          have same : int64 (int64 (i.overloadingCount (workerNum last)) - workerNum last) =
              i.overloadingCount (workerNum last) - workerNum last := by
            obtain ⟨k, eq, -⟩ := int64_spec (i.overloadingCount (workerNum last))
            obtain ⟨k', eq', lower, upper⟩ := int64_spec
              (int64 (i.overloadingCount (workerNum last)) - workerNum last)
            omega
          rw [same]
          congr 1
          omega
        · rfl
    · rw [if_neg (c := _ ∧ _) room, if_neg room, int64_of_lt pos.le fits]
      rfl

/-- The count that is asked for is positive, falls below the current one only for an exhausted
server, and stays within a step just when a step limits it. -/
theorem targetCount_bounds (positive : i.conf.Positive) {current : Int} (fits : IsInt current)
    (pos : 0 < current) :
    0 < i.targetCount current ∧ i.targetCount current < 18446744073709551616 ∧
      current - (if i.Exhausted then i.conf.workerReplicaDecreaseCount else 0) ≤
        i.targetCount current ∧
      (min (i.targetCount current) i.conf.maxReplicaCount ≤
          current + i.conf.workerMaxCountPerStep ↔ i.StepLimited current) := by
  have decrease := positive.workerReplicaDecreaseCount
  have step := positive.workerMaxCountPerStep
  have step_int := i.conf.workerMaxCountPerStep_int
  rw [targetCount, StepLimited]
  by_cases exhausted : i.Exhausted
  · simp only [exhausted, ↓reduceIte, true_or, iff_true]
    split <;> omega
  · simp only [exhausted, ↓reduceIte, false_or]
    by_cases room : i.HasRoom
    · simp only [room, ↓reduceIte, not_true, false_or]
      by_cases unused : maxPSCPUUtil i i.infos ≤ .num 0
      · simp only [unused, ↓reduceIte, true_or, iff_true]
        omega
      · obtain ⟨-, above, most⟩ := overloadingCount_eq fits room unused pos
        simp only [unused, ↓reduceIte, false_or]
        by_cases increased : i.speedState = .increased
        · simp only [increased, ↓reduceIte, true_or, iff_true]
          omega
        · simp only [increased, ↓reduceIte, false_or]
          omega
    · simp only [room, ↓reduceIte, not_false_eq_true, true_or, iff_true]
      omega

end WorkerInput

theorem stepwise_iff {conf : WorkerConfig} (positive : conf.Positive) {current count : Int}
    {exhausted : Prop} [Decidable exhausted] :
    Stepwise conf current count exhausted ↔
      1 ≤ count ∧ count ≤ conf.maxReplicaCount ∧ count ≤ current + conf.workerMaxCountPerStep ∧
        min current conf.maxReplicaCount -
          (if exhausted then conf.workerReplicaDecreaseCount else 0) ≤ count := by
  have decrease := positive.workerReplicaDecreaseCount
  constructor
  · rintro ⟨one, largest, step, down⟩
    refine ⟨one, largest, step, ?_⟩
    rcases lt_or_ge count (min current conf.maxReplicaCount) with below | above
    · rw [if_pos (down below).1]
      exact (down below).2
    · split <;> omega
  · rintro ⟨one, largest, step, lower⟩
    refine ⟨one, largest, step, fun below ↦ ?_⟩
    by_cases some_exhausted : exhausted
    · rw [if_pos some_exhausted] at lower
      exact ⟨some_exhausted, lower⟩
    · rw [if_neg some_exhausted] at lower
      omega

/-- The 32 bits of the count after the largest one is applied. -/
theorem int32_askedCount (i : WorkerInput) (positive : i.conf.Positive) {current : Int}
    (pos : 0 < i.targetCount current) (bounded : i.targetCount current < 18446744073709551616) :
    int32 (min i.conf.maxReplicaCount (int64 (i.targetCount current))) =
      int32 (i.askedCount current) := by
  have largest := positive.maxReplicaCount
  rw [WorkerInput.askedCount]
  split
  · next fits => rw [int64_of_lt pos.le fits, min_comm]
  · next large =>
    obtain ⟨k, eq, lower, upper⟩ := int64_spec (i.targetCount current)
    rw [min_eq_right (by omega)]
    obtain ⟨k₁, eq₁, lower₁, upper₁⟩ := int32_spec (int64 (i.targetCount current))
    obtain ⟨k₂, eq₂, lower₂, upper₂⟩ := int32_spec (i.targetCount current)
    omega

theorem not_shiftedInto {x lower upper : Int} (small : x < 2147483648) (one : 1 ≤ lower) :
    ¬ShiftedInto x lower upper := by
  rintro ⟨k, positive, above, -⟩
  omega

/-- The 32 bits of a large number are in an interval of positive ones just when a shift takes the
number there. -/
theorem int32_mem_iff {x lower upper : Int} (large : 2147483648 ≤ x) (one : 1 ≤ lower)
    (fits : upper ≤ 2147483647) :
    lower ≤ int32 x ∧ int32 x ≤ upper ↔ ShiftedInto x lower upper := by
  obtain ⟨k, eq, least, most⟩ := int32_spec x
  constructor
  · rintro ⟨above, below⟩
    exact ⟨k, by omega, by omega, by omega⟩
  · rintro ⟨k', positive, above, below⟩
    omega

/-- The algorithm stops at no index, and the count of a stable job moves by a step just when the
step condition holds. -/
theorem optimizeJobWorkerResource_stepwise_iff (i : WorkerInput) (positive : i.conf.Positive)
    (stable : i.conf.phase = .stable) (last : JobRuntimeInfo)
    (h : i.jobRuntime.getLast? = some last) (workers : 0 < workerNum last) :
    (∃ result, optimizeJobWorkerResource i = .ok result) ∧
      ∀ plan group, optimizeJobWorkerResource i = .ok (some plan) →
        plan.taskGroupResources.get? "worker" = some group →
          (Stepwise i.conf (workerNum last) group.count i.Exhausted ↔
            i.StepCondition (workerNum last)) := by
  have nonempty : i.jobRuntime.length ≠ 0 := by
    intro none_run
    rw [List.length_eq_zero_iff.mp none_run] at h
    cases h
  have pos : 0 < (workerNum last : Int) := by omega
  have fits : IsInt (workerNum last) := i.workerNum_int last (List.mem_of_getLast? h)
  obtain ⟨target_pos, bounded, lower, limited⟩ := i.targetCount_bounds positive fits pos
  have result : optimizeJobWorkerResource i =
      .ok (if i.infos.length < i.conf.cpuUtilCompCount then none
        else some
          { taskGroupResources := .ofItems
              [("worker",
                { count := int32 (i.askedCount (workerNum last))
                  resource := workerResource i.conf i.infos })] }) := by
    rw [optimizeJobWorkerResource, if_neg nonempty, (WorkerInput.infos_ok h).1]
    dsimp only [bind, Except.bind]
    split
    · rfl
    · rw [WorkerInput.workerReplica_eq positive stable h workers,
        ← int32_askedCount i positive target_pos bounded]
      dsimp only
      rw [min_def_lt]
      rfl
  refine ⟨⟨_, result⟩, fun plan group returned grouped ↦ ?_⟩
  rw [result] at returned
  split at returned
  · cases returned
  cases returned
  have mem := Dict.mem_items_ofItems (Dict.get?_eq_some_iff.mp grouped)
  have largest := positive.maxReplicaCount
  rw [(Prod.mk.inj (List.mem_singleton.mp mem)).2, stepwise_iff positive,
    WorkerInput.StepCondition, ← limited]
  dsimp only
  have decrease := positive.workerReplicaDecreaseCount
  have decr_nonneg :
      0 ≤ if i.Exhausted then i.conf.workerReplicaDecreaseCount else 0 := by split <;> omega
  rcases lt_or_ge (i.askedCount (workerNum last)) 2147483648 with small | large
  · have asked : i.askedCount (workerNum last) =
        min (i.targetCount (workerNum last)) i.conf.maxReplicaCount := by
      rw [WorkerInput.askedCount] at small ⊢
      split at small <;> split <;> omega
    rw [or_iff_left (not_shiftedInto small (le_max_left _ _)),
      int32_of_lt (by omega) small]
    omega
  · rw [or_iff_right fun limit ↦ absurd limit.1 (not_lt.mpr large),
      ← int32_mem_iff large (le_max_left _ _) (min_le_left _ _)]
    obtain ⟨-, -, -, most⟩ := int32_spec (i.askedCount (workerNum last))
    omega

/-- Two workers, one server at a tenth of its cores, in three records; the speed is stable because
five records are wanted after a change. -/
def idleServer (maxReplicaCount : Fin 64) : WorkerInput where
  conf :=
    { maxReplicaCount := maxReplicaCount.val
      cpuUtilCompCount := 2
      cpuUtilLessPercent := 3 / 20
      stepCountThreshold := 5
      speedLessPercent := 1 / 10
      workerReplicaDecreaseCount := 1
      psCPUOverload := 4 / 5
      psCPUExhaustedThreshold := 19 / 20
      workerMaxInitCountPerStep := 32
      workerMaxCountPerStep := 4
      workerMemoryMarginPercent := 1 / 5
      workerCPUMarginCores := 1
      phase := .stable
      maxReplicaCount_int := by omega
      workerMaxCountPerStep_int := by decide }
  psCPUs := .ofItems [(0, 10)]
  jobRuntime := List.replicate 3
    { globalStep := 1, timeStamp := 1, speed := 1
      workerMemory := none, workerCPU := some (.ofItems [(0, 1), (1, 1)])
      psMemory := none, psCPU := some (.ofItems [(0, 1)]) }
  hyperParams := none
  datasetSize := none
  workerNum_int := by decide

theorem idleServer_positive {maxReplicaCount : Fin 64} (pos : 0 < maxReplicaCount) :
    (idleServer maxReplicaCount).conf.Positive := by
  constructor
  · exact Int.natCast_pos.mpr pos
  all_goals norm_num [idleServer]

theorem exists_plan (i : WorkerInput) (count : Int)
    (planned : ((optimizeJobWorkerResource i).toOption.join.bind
      (·.taskGroupResources.get? "worker")).map TaskGroupResource.count = some count) :
    ∃ plan group, optimizeJobWorkerResource i = .ok (some plan) ∧
      plan.taskGroupResources.get? "worker" = some group ∧ group.count = count := by
  obtain ⟨group, some_group, eq⟩ := Option.map_eq_some_iff.mp planned
  obtain ⟨plan, some_plan, grouped⟩ := Option.bind_eq_some_iff.mp some_group
  cases result : optimizeJobWorkerResource i with
  | error panic =>
    rw [result] at some_plan
    cases some_plan
  | ok plan? =>
    rw [result] at some_plan
    exact ⟨plan, group, congrArg Except.ok some_plan, grouped, eq⟩

/-- With at most six workers the two grow by their step of four. -/
theorem idleServer_stepwise :
    ∃ plan group, optimizeJobWorkerResource (idleServer 6) = .ok (some plan) ∧
      plan.taskGroupResources.get? "worker" = some group ∧
      Stepwise (idleServer 6).conf 2 group.count (idleServer 6).Exhausted := by
  obtain ⟨plan, group, returned, grouped, -⟩ :=
    exists_plan (idleServer 6) 6 (by decide +kernel)
  have condition : (idleServer 6).StepCondition 2 := by
    refine .inl ⟨by decide +kernel, ?_⟩
    exact .inr (.inr (.inr (.inr (.inr (by decide)))))
  exact ⟨plan, group, returned, grouped,
    ((optimizeJobWorkerResource_stepwise_iff (idleServer 6) (idleServer_positive (by decide)) rfl _
      rfl (by decide)).2 plan group returned grouped).mpr condition⟩

/-- With at most thirty workers the two grow to sixteen at once. -/
theorem idleServer_not_stepwise :
    ∃ plan group, optimizeJobWorkerResource (idleServer 30) = .ok (some plan) ∧
      plan.taskGroupResources.get? "worker" = some group ∧
      ¬Stepwise (idleServer 30).conf 2 group.count (idleServer 30).Exhausted := by
  obtain ⟨plan, group, returned, grouped, count⟩ :=
    exists_plan (idleServer 30) 16 (by decide +kernel)
  refine ⟨plan, group, returned, grouped, fun stepwise ↦ ?_⟩
  have step := stepwise.step
  rw [count] at step
  exact absurd step (by decide)

end ProbingBaselines.Dlrover
