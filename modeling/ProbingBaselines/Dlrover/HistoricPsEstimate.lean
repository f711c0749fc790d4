import Mathlib.Algebra.Order.BigOperators.Group.List
import Mathlib.Data.Fin.VecNotation
import Mathlib.Data.Rat.Floor
import Mathlib.Tactic.Linarith
import ProbingBaselines.Dlrover.JobRuntimeInfo
import ProbingBaselines.Dlrover.MajorCluster

/-!
# Sizing the parameter servers of a job by the jobs before it

Source `xputimer-metax/dlrover/go/brain/pkg/optimizer/implementation/utils/optimize_algorithm.go`.
The count, the cores and the memory are adjusted one after the other under a configured largest
count. The test that should replace a largest count of zero by the default looks at the CPU margin
instead, and a largest count that is not whole loses its fraction only after the cores and the
memory have been divided by it.
-/

namespace ProbingBaselines.Dlrover

open Lib

/-- The configured values as `strconv.ParseFloat` gives them, `none` where it fails. -/
structure PsEstimateConfig where
  psMemoryMarginPercent : Option ℚ
  psCPUMarginPercent : Option ℚ
  jobNodeCPUMargin : Option ℚ
  psMaxCount : Option ℚ

/-- `implementation/common/common.go:24-32`. -/
def defaultCPUMargin : ℚ := 4
def defaultMaxPSCount : ℚ := 15
def defaultPSMemoryMarginPercent : ℚ := 1 / 5
def defaultPSCPUMarginPercent : ℚ := 1 / 2

/-- `if err != nil || value == 0 { value = default }`. -/
def orDefault (parsed : Option ℚ) (default : ℚ) : ℚ :=
  match parsed with
  | none => default
  | some value => if value = 0 then default else value

namespace PsEstimateConfig

/-- `optimize_algorithm.go:32-35`. -/
def memoryMarginPercent (conf : PsEstimateConfig) : ℚ :=
  orDefault conf.psMemoryMarginPercent defaultPSMemoryMarginPercent

/-- `optimize_algorithm.go:36-39`. -/
def cpuMarginPercent (conf : PsEstimateConfig) : ℚ :=
  orDefault conf.psCPUMarginPercent defaultPSCPUMarginPercent

/-- `optimize_algorithm.go:40-43`. -/
def cpuMargin (conf : PsEstimateConfig) : ℚ := orDefault conf.jobNodeCPUMargin defaultCPUMargin

/-- `optimize_algorithm.go:44-47`: zero is replaced where the CPU margin is zero. -/
def maxPSCount (conf : PsEstimateConfig) : ℚ :=
  match conf.psMaxCount with
  | none => defaultMaxPSCount
  | some value => if conf.cpuMargin = 0 then defaultMaxPSCount else value

/-- Each key is missing, malformed, zero or positive. -/
structure Nonneg (conf : PsEstimateConfig) : Prop where
  memoryMarginPercent : ∀ x ∈ conf.psMemoryMarginPercent, 0 ≤ x
  cpuMarginPercent : ∀ x ∈ conf.psCPUMarginPercent, 0 ≤ x
  cpuMargin : ∀ x ∈ conf.jobNodeCPUMargin, 0 ≤ x
  maxPSCount : ∀ x ∈ conf.psMaxCount, 0 ≤ x

end PsEstimateConfig

/-! ### The usage of the history jobs -/

/-- The largest of `start` and the values, `if m < x { m = x }` for each of them. -/
def largest (start : ℚ) (values : List ℚ) : ℚ :=
  values.foldl (fun m x ↦ if m < x then x else m) start

/-- The sum of the values of a map. -/
def totalOf (m : ResourceMap) : ℚ := ((ResourceMap.entries m).map Prod.snd).sum

/-- The variables of the loop over the history jobs, `optimize_algorithm.go:49-52`. -/
structure HistoryUsage where
  maxMemory : ℚ := 0
  maxCPUCore : ℚ := 0
  maxJobPSMemory : ℚ := 0
  jobAvgPSCPUs : List ℚ := []

namespace HistoryUsage

/-- The loop body for a job with records, `optimize_algorithm.go:68-108`. -/
def addJob (u : HistoryUsage) (rts : List JobRuntimeInfo) : HistoryUsage :=
  let sums := rts.foldl (fun s rt ↦ s.addAll (ResourceMap.entries rt.psCPU)) ({} : NodeSums)
  let cpuUsageSamples := rts.map fun rt ↦ totalOf rt.psCPU
  let jobAvgPSCPU := computeAverage (computeMajorCluster (· - ·) cpuUsageSamples)
  let maxTotalPSMemory := largest 0 (rts.map fun rt ↦ totalOf rt.psMemory)
  { jobAvgPSCPUs := u.jobAvgPSCPUs ++ [jobAvgPSCPU]
    maxCPUCore := largest u.maxCPUCore (sums.nodeSumRes.items.map fun e ↦
      e.2 / (sums.nodeRecordNum.get? e.1).getD 0)
    maxMemory := largest u.maxMemory
      (rts.flatMap fun rt ↦ (ResourceMap.entries rt.psMemory).map Prod.snd)
    maxJobPSMemory := largest u.maxJobPSMemory [maxTotalPSMemory] }

end HistoryUsage

/-- The loop over the history jobs, `optimize_algorithm.go:54-109`. A job is given by its records,
`none` where `json.Unmarshal` fails. -/
def historyUsage (historyJobs : List (Option (List JobRuntimeInfo))) : HistoryUsage :=
  historyJobs.foldl
    (fun u job ↦
      match job with
      | none => u
      | some rts => if rts.length = 0 then u else u.addJob rts)
    {}

/-- The averaged total CPU of the parameter servers with its margin, `optimize_algorithm.go:111,112`
and `:120`. -/
def totalCPUCore (conf : PsEstimateConfig) (u : HistoryUsage) : ℚ :=
  computeAverage (computeMajorCluster (· - ·) u.jobAvgPSCPUs) * (1 + conf.cpuMarginPercent)

/-! ### The plan -/

/-- `optimize_algorithm.go:121-125`: the count and the cores. -/
def replicasAndCores (conf : PsEstimateConfig) (u : HistoryUsage) : ExactFloat × ExactFloat :=
  let cpuCore := ExactFloat.num (u.maxCPUCore + conf.cpuMargin)
  let replicaCount := (.num (totalCPUCore conf u) / cpuCore).ceil
  if .num conf.maxPSCount < replicaCount then
    (.num conf.maxPSCount, (ExactFloat.num (totalCPUCore conf u) / .num conf.maxPSCount).ceil)
  else
    (replicaCount, cpuCore)

/-- `optimize_algorithm.go:126-129`: the memory for a count. -/
def plannedMemory (conf : PsEstimateConfig) (u : HistoryUsage) (replicaCount : ExactFloat) :
    ExactFloat :=
  let maxMemory :=
    if ExactFloat.num u.maxMemory * replicaCount < .num u.maxJobPSMemory then
      (ExactFloat.num u.maxJobPSMemory / replicaCount).ceil
    else
      .num u.maxMemory
  maxMemory * .num (1 + conf.memoryMarginPercent)

/-- The conversion to `int32`. -/
abbrev ToInt32 := IntConversion (-2147483648) 2147483648

/-- `EstimateJobResourceByHistoricJobs`, `optimize_algorithm.go:29-145`. -/
def estimateJobResourceByHistoricJobs (int32 : ToInt32) (conf : PsEstimateConfig)
    (historyJobs : List (Option (List JobRuntimeInfo))) : Option AlgorithmOptimizePlan :=
  let u := historyUsage historyJobs
  if computeAverage (computeMajorCluster (· - ·) u.jobAvgPSCPUs) = 0 ∨ u.maxMemory = 0 ∨
      u.maxCPUCore = 0 then
    none
  else
    let sized := replicasAndCores conf u
    some
      { taskGroupResources := .ofItems [("ps",
          { count := int32.conv sized.1
            resource :=
              { cpuCore := sized.2
                memory := plannedMemory conf u sized.1
                gpuCore := .num 0
                gpuType := "" } })] }

/-! ### What the plan is for -/

/-- The records have no negative usage. -/
def NonnegUsage (historyJobs : List (Option (List JobRuntimeInfo))) : Prop :=
  ∀ rts, some rts ∈ historyJobs → ∀ rt ∈ rts,
    (∀ e ∈ ResourceMap.entries rt.psCPU, 0 ≤ e.2) ∧
      ∀ e ∈ ResourceMap.entries rt.psMemory, 0 ≤ e.2

/-- The largest number of parameter servers, the default where none is configured. -/
def PsEstimateConfig.effectiveMaxPSCount (conf : PsEstimateConfig) : ℚ :=
  orDefault conf.psMaxCount defaultMaxPSCount

/-- A group of servers that has room for what the history jobs used. -/
structure CoversDemand (conf : PsEstimateConfig)
    (historyJobs : List (Option (List JobRuntimeInfo))) (group : TaskGroupResource) : Prop where
  pos : 1 ≤ group.count
  bounded : group.count ≤ conf.effectiveMaxPSCount
  cpu : ExactFloat.num (totalCPUCore conf (historyUsage historyJobs)) ≤
    .num group.count * group.resource.cpuCore
  jobMemory : ∀ rts, some rts ∈ historyJobs → ∀ rt ∈ rts,
    ExactFloat.num (totalOf rt.psMemory) ≤ .num group.count * group.resource.memory
  memory : ∀ rts, some rts ∈ historyJobs → ∀ rt ∈ rts, ∀ e ∈ ResourceMap.entries rt.psMemory,
    ExactFloat.num e.2 ≤ group.resource.memory

/-! ### The usage -/

theorem le_largest (start : ℚ) (values : List ℚ) :
    start ≤ largest start values ∧ ∀ x ∈ values, x ≤ largest start values := by
  induction values generalizing start with
  | nil => exact ⟨le_rfl, fun x mem ↦ absurd mem List.not_mem_nil⟩
  | cons y values ih =>
    have raised : start ≤ (if start < y then y else start) ∧
        y ≤ if start < y then y else start := by
      split
      · next lt => exact ⟨lt.le, le_rfl⟩
      · next ge => exact ⟨le_rfl, not_lt.mp ge⟩
    obtain ⟨first, rest⟩ := ih (if start < y then y else start)
    refine ⟨raised.1.trans first, fun x mem ↦ ?_⟩
    rcases List.mem_cons.mp mem with rfl | mem
    · exact raised.2.trans first
    · exact rest x mem

theorem largest_mem (start : ℚ) (values : List ℚ) :
    largest start values = start ∨ largest start values ∈ values := by
  induction values generalizing start with
  | nil => exact .inl rfl
  | cons y values ih =>
    rw [largest, List.foldl_cons, ← largest]
    rcases ih (if start < y then y else start) with eq | mem
    · rw [eq]
      split
      · exact .inr List.mem_cons_self
      · exact .inl rfl
    · exact .inr (List.mem_cons_of_mem _ mem)

/-- What the loop over the jobs has seen: the memory of every server and of every record is at most
its maxima, which are zero or seen, and no average is negative. -/
structure Seen (jobs : List (Option (List JobRuntimeInfo))) (u : HistoryUsage) : Prop where
  memory : ∀ rts, some rts ∈ jobs → ∀ rt ∈ rts, ∀ e ∈ ResourceMap.entries rt.psMemory,
    e.2 ≤ u.maxMemory
  jobMemory : ∀ rts, some rts ∈ jobs → ∀ rt ∈ rts, totalOf rt.psMemory ≤ u.maxJobPSMemory
  attained : u.maxJobPSMemory = 0 ∨
    ∃ rts, some rts ∈ jobs ∧ ∃ rt ∈ rts, totalOf rt.psMemory = u.maxJobPSMemory
  nonneg : 0 ≤ u.maxMemory ∧ 0 ≤ u.maxCPUCore ∧ ∀ x ∈ u.jobAvgPSCPUs, 0 ≤ x

theorem totalOf_nonneg {m : ResourceMap} (nonneg : ∀ e ∈ ResourceMap.entries m, 0 ≤ e.2) :
    0 ≤ totalOf m := by
  refine List.sum_nonneg fun x mem ↦ ?_
  rcases List.mem_map.mp mem with ⟨e, he, rfl⟩
  exact nonneg e he

theorem computeAverage_nonneg {nums : List ℚ} (nonneg : ∀ x ∈ nums, 0 ≤ x) :
    0 ≤ computeAverage (computeMajorCluster (· - ·) nums) :=
  div_nonneg (List.sum_nonneg fun x mem ↦ nonneg x (mem_of_mem_computeMajorCluster mem))
    (Nat.cast_nonneg _)

/-- The loop body keeps what has been seen. -/
theorem Seen.addJob {jobs : List (Option (List JobRuntimeInfo))} {u : HistoryUsage}
    (seen : Seen jobs u) {rts : List JobRuntimeInfo}
    (nonneg : ∀ rt ∈ rts, ∀ e ∈ ResourceMap.entries rt.psCPU, 0 ≤ e.2) :
    Seen (jobs ++ [some rts]) (u.addJob rts) := by
  have memories := le_largest u.maxMemory
    (rts.flatMap fun rt ↦ (ResourceMap.entries rt.psMemory).map Prod.snd)
  have totals := le_largest 0 (rts.map fun rt ↦ totalOf rt.psMemory)
  have jobs_le := le_largest u.maxJobPSMemory [largest 0 (rts.map fun rt ↦ totalOf rt.psMemory)]
  have jobMax := jobs_le.2 _ List.mem_cons_self
  constructor
  · intro rts' mem rt hrt e he
    rcases List.mem_append.mp mem with old | new
    · exact (seen.memory rts' old rt hrt e he).trans memories.1
    · cases List.mem_singleton.mp new
      exact memories.2 _ (List.mem_flatMap.mpr ⟨rt, hrt, List.mem_map_of_mem he⟩)
  · intro rts' mem rt hrt
    rcases List.mem_append.mp mem with old | new
    · exact (seen.jobMemory rts' old rt hrt).trans jobs_le.1
    · cases List.mem_singleton.mp new
      exact (totals.2 _ (List.mem_map_of_mem hrt)).trans jobMax
  · rcases largest_mem u.maxJobPSMemory [largest 0 (rts.map fun rt ↦ totalOf rt.psMemory)]
      with eq | mem
    · have same : (u.addJob rts).maxJobPSMemory = u.maxJobPSMemory := eq
      rw [same]
      rcases seen.attained with zero | ⟨rts', old, rt, hrt, at_max⟩
      · exact .inl zero
      · exact .inr ⟨rts', List.mem_append_left _ old, rt, hrt, at_max⟩
    · have job : (u.addJob rts).maxJobPSMemory =
          largest 0 (rts.map fun rt ↦ totalOf rt.psMemory) := List.mem_singleton.mp mem
      rw [job]
      rcases largest_mem 0 (rts.map fun rt ↦ totalOf rt.psMemory) with zero | mem
      · exact .inl zero
      · obtain ⟨rt, hrt, at_max⟩ := List.mem_map.mp mem
        exact .inr ⟨rts, List.mem_append_right _ List.mem_cons_self, rt, hrt, at_max⟩
  · refine ⟨seen.nonneg.1.trans memories.1, seen.nonneg.2.1.trans (le_largest _ _).1, ?_⟩
    intro x mem
    rcases List.mem_append.mp mem with old | new
    · exact seen.nonneg.2.2 x old
    · rw [List.mem_singleton.mp new]
      refine computeAverage_nonneg fun y hy ↦ ?_
      obtain ⟨rt, hrt, rfl⟩ := List.mem_map.mp hy
      exact totalOf_nonneg (nonneg rt hrt)

/-- The loop has seen all the history jobs. -/
theorem seen_historyUsage {jobs : List (Option (List JobRuntimeInfo))} (nonneg : NonnegUsage jobs) :
    Seen jobs (historyUsage jobs) := by
  induction jobs using List.reverseRecOn with
  | nil =>
    exact ⟨fun _ mem ↦ absurd mem List.not_mem_nil, fun _ mem ↦ absurd mem List.not_mem_nil,
      .inl rfl, le_rfl, le_rfl, fun _ mem ↦ absurd mem List.not_mem_nil⟩
  | append_singleton jobs job ih =>
    have seen := ih fun rts mem ↦ nonneg rts (List.mem_append_left _ mem)
    -- A job without records adds nothing.
    have skipped (skip : job = none ∨ job = some []) :
        Seen (jobs ++ [job]) (historyUsage jobs) := by
      have old {rts : List JobRuntimeInfo} {rt : JobRuntimeInfo} (mem : some rts ∈ jobs ++ [job])
          (hrt : rt ∈ rts) : some rts ∈ jobs := by
        rcases List.mem_append.mp mem with old | new
        · exact old
        · rw [← List.mem_singleton.mp new] at skip
          rcases skip with eq | eq
          · cases eq
          · cases eq
            exact absurd hrt List.not_mem_nil
      refine ⟨fun rts mem rt hrt ↦ seen.memory rts (old mem hrt) rt hrt,
        fun rts mem rt hrt ↦ seen.jobMemory rts (old mem hrt) rt hrt, ?_, seen.nonneg⟩
      rcases seen.attained with zero | ⟨rts, mem, rest⟩
      · exact .inl zero
      · exact .inr ⟨rts, List.mem_append_left _ mem, rest⟩
    rw [historyUsage, List.foldl_concat, ← historyUsage]
    cases job with
    | none => exact skipped (.inl rfl)
    | some rts =>
      dsimp only
      split
      · next empty => exact skipped (.inr (congrArg some (List.length_eq_zero_iff.mp empty)))
      · exact seen.addJob fun rt hrt ↦
          (nonneg rts (List.mem_append_right _ List.mem_cons_self) rt hrt).1

/-! ### When the plan covers the demand -/

/-- The demand on the CPU fits as many servers of the largest size as the cap allows, and their
number fits an `int32`. -/
def FitsUncapped (conf : PsEstimateConfig) (u : HistoryUsage) : Prop :=
  totalCPUCore conf u ≤
      ⌊conf.psMaxCount.getD defaultMaxPSCount⌋ * (u.maxCPUCore + conf.cpuMargin) ∧
    totalCPUCore conf u ≤ 2147483647 * (u.maxCPUCore + conf.cpuMargin)

/-- A whole number of cores or bytes. -/
def Whole (s : ℚ) : Prop := ∃ k : Int, s = k

/-- No size of a server that is enough for one share is too small for the other. -/
def SameSizes (size : ℚ → Prop) (share share' : ℚ) : Prop := ∀ s, size s → share ≤ s → share' ≤ s

/-- The demand does not fit the largest number of servers, and what the cap loses as an `int32`
makes no difference to the size of a server: no whole number of cores is between the shares of the
two in the total CPU, and between their shares in the memory, less its margin, there is neither the
memory of the largest server nor a whole number above it. -/
def CoveredByCap (int32 : ToInt32) (conf : PsEstimateConfig) (u : HistoryUsage) : Prop :=
  let cap := conf.psMaxCount.getD defaultMaxPSCount
  let count := int32.conv (.num cap)
  ⌊cap⌋ * (u.maxCPUCore + conf.cpuMargin) < totalCPUCore conf u ∧ 1 ≤ count ∧
    SameSizes Whole (totalCPUCore conf u / cap) (totalCPUCore conf u / count) ∧
    SameSizes (fun s ↦ s = u.maxMemory ∨ u.maxMemory < s ∧ Whole s)
      (u.maxJobPSMemory / cap) (u.maxJobPSMemory / (count * (1 + conf.memoryMarginPercent)))

theorem sameSizes_whole_iff {share share' : ℚ} :
    SameSizes Whole share share' ↔ share' ≤ ⌈share⌉ := by
  constructor
  · exact fun same ↦ same _ ⟨_, rfl⟩ (Int.le_ceil _)
  · rintro le _ ⟨k, rfl⟩ enough
    exact le.trans (Int.cast_le.mpr (Int.ceil_le.mpr enough))

/-- The smallest memory that is enough is the one of the largest server or a whole number. -/
theorem sameSizes_memory_iff {largest total cap share' : ℚ} (pos : 0 < cap) :
    SameSizes (fun s ↦ s = largest ∨ largest < s ∧ Whole s) (total / cap) share' ↔
      share' ≤ if largest * cap < total then (⌈total / cap⌉ : ℚ) else largest := by
  split
  · next more =>
    have more := (lt_div_iff₀ pos).mpr more
    constructor
    · intro same
      have ceil := Int.le_ceil (total / cap)
      exact same _ (.inr ⟨more.trans_le ceil, _, rfl⟩) ceil
    · rintro le s (rfl | ⟨-, k, rfl⟩) enough
      · exact absurd enough (not_le.mpr more)
      · exact le.trans (Int.cast_le.mpr (Int.ceil_le.mpr enough))
  · next less =>
    constructor
    · exact fun same ↦ same _ (.inl rfl) ((div_le_iff₀ pos).mpr (not_lt.mp less))
    · rintro le s (rfl | ⟨above, -⟩) -
      · exact le
      · exact le.trans above.le

theorem orDefault_pos {parsed : Option ℚ} {default : ℚ} (nonneg : ∀ x ∈ parsed, 0 ≤ x)
    (pos : 0 < default) : 0 < orDefault parsed default := by
  cases parsed with
  | none => exact pos
  | some value =>
    rw [orDefault]
    split
    · exact pos
    · next nonzero => exact lt_of_le_of_ne (nonneg value rfl) (Ne.symm nonzero)

namespace PsEstimateConfig

variable {conf : PsEstimateConfig}

/-- The margin that is tested has its own default by then, so the cap stays as it was parsed. -/
theorem maxPSCount_eq (nonneg : conf.Nonneg) :
    conf.maxPSCount = conf.psMaxCount.getD defaultMaxPSCount := by
  have margin : conf.cpuMargin ≠ 0 := (orDefault_pos nonneg.cpuMargin (by norm_num
    [defaultCPUMargin])).ne'
  rw [maxPSCount]
  split
  · next eq => rw [eq, Option.getD_none]
  · next eq => rw [eq, if_neg margin, Option.getD_some]

theorem effectiveMaxPSCount_eq (nonzero : conf.psMaxCount.getD defaultMaxPSCount ≠ 0) :
    conf.effectiveMaxPSCount = conf.psMaxCount.getD defaultMaxPSCount := by
  rw [effectiveMaxPSCount]
  cases eq : conf.psMaxCount with
  | none => rfl
  | some value =>
    rw [eq, Option.getD_some] at nonzero
    exact if_neg nonzero

end PsEstimateConfig

/-- The memory for a number of servers has room for the largest server and, over all of them, for
the largest job. -/
theorem plannedMemory_eq {conf : PsEstimateConfig} (nonneg : conf.Nonneg) {u : HistoryUsage}
    (memory : 0 ≤ u.maxMemory) {r : ℚ} (pos : 0 < r) :
    ∃ m, plannedMemory conf u (.num r) = .num (m * (1 + conf.memoryMarginPercent)) ∧
      m = (if u.maxMemory * r < u.maxJobPSMemory then (⌈u.maxJobPSMemory / r⌉ : ℚ)
        else u.maxMemory) ∧
      u.maxMemory ≤ m * (1 + conf.memoryMarginPercent) ∧
      u.maxJobPSMemory ≤ r * (m * (1 + conf.memoryMarginPercent)) := by
  have margin : 0 < conf.memoryMarginPercent :=
    orDefault_pos nonneg.memoryMarginPercent (by norm_num [defaultPSMemoryMarginPercent])
  -- The memory before its margin.
  have enough : u.maxMemory ≤ (if u.maxMemory * r < u.maxJobPSMemory then
        (⌈u.maxJobPSMemory / r⌉ : ℚ) else u.maxMemory) ∧
      u.maxJobPSMemory ≤ r * (if u.maxMemory * r < u.maxJobPSMemory then
        (⌈u.maxJobPSMemory / r⌉ : ℚ) else u.maxMemory) := by
    split
    · next more =>
      have ceil := Int.le_ceil (u.maxJobPSMemory / r)
      exact ⟨((lt_div_iff₀ pos).mpr more).le.trans ceil, (div_le_iff₀' pos).mp ceil⟩
    · next less => exact ⟨le_rfl, by rw [mul_comm]; exact not_lt.mp less⟩
  refine ⟨_, ?_, rfl, ?_, ?_⟩
  · rw [plannedMemory, ExactFloat.num_mul_num, ExactFloat.num_div_num pos.ne', ExactFloat.ceil_num]
    simp only [ExactFloat.num_lt_num]
    split <;> rfl
  · nlinarith [enough.1]
  · have : 0 ≤ r * (if u.maxMemory * r < u.maxJobPSMemory then
        (⌈u.maxJobPSMemory / r⌉ : ℚ) else u.maxMemory) :=
      mul_nonneg pos.le (memory.trans enough.1)
    nlinarith [enough.2]

/-- A group with a memory that has room for the largest server covers the demand when its count,
its cores and its memory over all servers do. -/
theorem coversDemand_iff {conf : PsEstimateConfig} {jobs : List (Option (List JobRuntimeInfo))}
    (seen : Seen jobs (historyUsage jobs)) {count : Int} {cpuCore gpuCore : ExactFloat}
    {gpuType : String} {m : ℚ} (memory : (historyUsage jobs).maxMemory ≤ m) :
    CoversDemand conf jobs ⟨count, ⟨cpuCore, .num m, gpuCore, gpuType⟩⟩ ↔
      1 ≤ count ∧ count ≤ conf.effectiveMaxPSCount ∧
        ExactFloat.num (totalCPUCore conf (historyUsage jobs)) ≤ .num count * cpuCore ∧
        (historyUsage jobs).maxJobPSMemory ≤ count * m := by
  constructor
  · rintro ⟨pos, bounded, cpu, jobMemory, -⟩
    refine ⟨pos, bounded, cpu, ?_⟩
    rcases seen.attained with zero | ⟨rts, mem, rt, hrt, at_max⟩
    · rw [zero]
      exact mul_nonneg (Int.cast_nonneg (zero_le_one.trans pos)) (seen.nonneg.1.trans memory)
    · have room := jobMemory rts mem rt hrt
      rw [at_max] at room
      exact ExactFloat.num_le_num.mp room
  · rintro ⟨pos, bounded, cpu, room⟩
    exact ⟨pos, bounded, cpu,
      fun rts mem rt hrt ↦ ExactFloat.num_le_num.mpr ((seen.jobMemory rts mem rt hrt).trans room),
      fun rts mem rt hrt e he ↦
        ExactFloat.num_le_num.mpr ((seen.memory rts mem rt hrt e he).trans memory)⟩

/-- A returned plan is the group sized for the usage, which is positive. -/
theorem estimate_eq_some {int32 : ToInt32} {conf : PsEstimateConfig}
    {jobs : List (Option (List JobRuntimeInfo))} {plan : AlgorithmOptimizePlan}
    {group : TaskGroupResource} (nonneg : conf.Nonneg) (usage : NonnegUsage jobs)
    (returned : estimateJobResourceByHistoricJobs int32 conf jobs = some plan)
    (grouped : plan.taskGroupResources.get? "ps" = some group) :
    0 < totalCPUCore conf (historyUsage jobs) ∧
      0 < (historyUsage jobs).maxCPUCore + conf.cpuMargin ∧
      group = ⟨int32.conv (replicasAndCores conf (historyUsage jobs)).1,
        ⟨(replicasAndCores conf (historyUsage jobs)).2,
          plannedMemory conf (historyUsage jobs) (replicasAndCores conf (historyUsage jobs)).1,
          .num 0, ""⟩⟩ := by
  have seen := seen_historyUsage usage
  rw [estimateJobResourceByHistoricJobs] at returned
  split at returned
  · cases returned
  · next used =>
    cases returned
    rw [not_or, not_or] at used
    have percent : 0 < conf.cpuMarginPercent :=
      orDefault_pos nonneg.cpuMarginPercent (by norm_num [defaultPSCPUMarginPercent])
    have margin : 0 < conf.cpuMargin :=
      orDefault_pos nonneg.cpuMargin (by norm_num [defaultCPUMargin])
    refine ⟨?_, add_pos_of_nonneg_of_pos seen.nonneg.2.1 margin, ?_⟩
    · have average := computeAverage_nonneg seen.nonneg.2.2
      exact mul_pos (lt_of_le_of_ne average (Ne.symm used.1)) (add_pos one_pos percent)
    · have mem := Dict.mem_items_ofItems (Dict.get?_eq_some_iff.mp grouped)
      exact (Prod.mk.inj (List.mem_singleton.mp mem)).2

/-- Without the cap the count and the size of the servers fit each other, as long as the count is
an `int32`. -/
theorem covers_uncapped_iff (int32 : ToInt32) {conf : PsEstimateConfig}
    {jobs : List (Option (List JobRuntimeInfo))} (nonneg : conf.Nonneg)
    (seen : Seen jobs (historyUsage jobs)) {core : ℚ}
    (total : 0 < totalCPUCore conf (historyUsage jobs)) (pos : 0 < core)
    (below : (⌈totalCPUCore conf (historyUsage jobs) / core⌉ : ℚ) ≤
      conf.psMaxCount.getD defaultMaxPSCount) :
    CoversDemand conf jobs
        ⟨int32.conv (.num ⌈totalCPUCore conf (historyUsage jobs) / core⌉),
          ⟨.num core, plannedMemory conf (historyUsage jobs)
            (.num ⌈totalCPUCore conf (historyUsage jobs) / core⌉), .num 0, ""⟩⟩ ↔
      totalCPUCore conf (historyUsage jobs) ≤ 2147483647 * core := by
  have replicas : 0 < ⌈totalCPUCore conf (historyUsage jobs) / core⌉ :=
    Int.ceil_pos.mpr (div_pos total pos)
  have replicas' : (0 : ℚ) < ⌈totalCPUCore conf (historyUsage jobs) / core⌉ :=
    Int.cast_pos.mpr replicas
  obtain ⟨m, planned, -, memory, room⟩ := plannedMemory_eq nonneg seen.nonneg.1 replicas'
  rw [planned, coversDemand_iff seen memory, ExactFloat.num_mul_num, ExactFloat.num_le_num,
    conf.effectiveMaxPSCount_eq (replicas'.trans_le below).ne']
  -- The count is at most the largest `int32`, or the number of servers itself.
  have fits_iff : totalCPUCore conf (historyUsage jobs) ≤ 2147483647 * core ↔
      ⌈totalCPUCore conf (historyUsage jobs) / core⌉ ≤ 2147483647 := by
    rw [Int.ceil_le, div_le_iff₀ pos]
    norm_num
  constructor
  · rintro ⟨-, -, cpu, -⟩
    refine cpu.trans (mul_le_mul_of_nonneg_right ?_ pos.le)
    have range := (int32.range (.num ⌈totalCPUCore conf (historyUsage jobs) / core⌉)).2
    have largest_int32 : int32.conv (.num ⌈totalCPUCore conf (historyUsage jobs) / core⌉) ≤
        2147483647 := by omega
    exact_mod_cast largest_int32
  · intro fits
    have fits := fits_iff.mp fits
    rw [int32.conv_intCast (by omega) (by omega)]
    exact ⟨replicas, below, (div_le_iff₀ pos).mp (Int.le_ceil _), room⟩

/-- Under the cap, what was divided by it is multiplied by its whole part. -/
theorem covers_capped_iff (int32 : ToInt32) {conf : PsEstimateConfig}
    {jobs : List (Option (List JobRuntimeInfo))} (nonneg : conf.Nonneg)
    (seen : Seen jobs (historyUsage jobs)) {cap : ℚ} (cap_nonneg : 0 ≤ cap)
    (parsed : conf.psMaxCount.getD defaultMaxPSCount = cap) :
    CoversDemand conf jobs
        ⟨int32.conv (.num cap),
          ⟨(ExactFloat.num (totalCPUCore conf (historyUsage jobs)) / .num cap).ceil,
            plannedMemory conf (historyUsage jobs) (.num cap), .num 0, ""⟩⟩ ↔
      1 ≤ int32.conv (.num cap) ∧
        SameSizes Whole (totalCPUCore conf (historyUsage jobs) / cap)
          (totalCPUCore conf (historyUsage jobs) / int32.conv (.num cap)) ∧
        SameSizes
          (fun s ↦ s = (historyUsage jobs).maxMemory ∨
            (historyUsage jobs).maxMemory < s ∧ Whole s)
          ((historyUsage jobs).maxJobPSMemory / cap)
          ((historyUsage jobs).maxJobPSMemory /
            (int32.conv (.num cap) * (1 + conf.memoryMarginPercent))) := by
  have small := int32.conv_le (by norm_num) cap_nonneg
  rcases cap_nonneg.eq_or_lt with zero | pos
  · -- A cap of zero leaves no server.
    have none_left : ¬1 ≤ int32.conv (.num cap) := by
      intro one
      have one' : (1 : ℚ) ≤ int32.conv (.num cap) := by exact_mod_cast one
      linarith
    constructor
    · exact fun covers ↦ absurd covers.pos none_left
    · exact fun covers ↦ absurd covers.1 none_left
  · obtain ⟨m, planned, eq, memory, -⟩ := plannedMemory_eq nonneg seen.nonneg.1 pos
    rw [planned, coversDemand_iff seen memory, ExactFloat.num_div_num pos.ne', ExactFloat.ceil_num,
      ExactFloat.num_mul_num, ExactFloat.num_le_num,
      conf.effectiveMaxPSCount_eq (parsed.trans_ne pos.ne'), parsed]
    refine and_congr_right fun one ↦ (and_iff_right small).trans ?_
    have servers : (0 : ℚ) < int32.conv (.num cap) := Int.cast_pos.mpr one
    have margin : 0 < conf.memoryMarginPercent :=
      orDefault_pos nonneg.memoryMarginPercent (by norm_num [defaultPSMemoryMarginPercent])
    have room : 0 < int32.conv (.num cap) * (1 + conf.memoryMarginPercent) := by positivity
    rw [sameSizes_whole_iff, sameSizes_memory_iff pos, div_le_iff₀' servers, div_le_iff₀' room,
      mul_assoc, ← eq, mul_comm m]

/-- A whole cap from one server up is enough. -/
theorem covered_of_whole_cap (int32 : ToInt32) {conf : PsEstimateConfig} (nonneg : conf.Nonneg)
    {u : HistoryUsage} (memory : 0 ≤ u.maxMemory) (core : 0 < u.maxCPUCore + conf.cpuMargin)
    {k : Int} (one : 1 ≤ k) (small : k < 2147483648)
    (parsed : conf.psMaxCount.getD defaultMaxPSCount = k) :
    FitsUncapped conf u ∨ CoveredByCap int32 conf u := by
  have pos : (0 : ℚ) < k := by exact_mod_cast one
  rcases le_or_gt (totalCPUCore conf u) (k * (u.maxCPUCore + conf.cpuMargin)) with fits | above
  · have le : (k : ℚ) ≤ 2147483647 := by
      have : k ≤ 2147483647 := by omega
      exact_mod_cast this
    refine .inl ⟨?_, fits.trans (mul_le_mul_of_nonneg_right le core.le)⟩
    rw [parsed, Int.floor_intCast]
    exact fits
  · obtain ⟨m, -, eq, -, room⟩ := plannedMemory_eq nonneg memory pos
    have margin : 0 < conf.memoryMarginPercent :=
      orDefault_pos nonneg.memoryMarginPercent (by norm_num [defaultPSMemoryMarginPercent])
    have servers : 0 < k * (1 + conf.memoryMarginPercent) := by positivity
    refine .inr ?_
    rw [CoveredByCap, parsed, int32.conv_intCast (by omega) small, Int.floor_intCast]
    refine ⟨above, one, fun s _ ↦ id, ?_⟩
    rw [sameSizes_memory_iff pos, div_le_iff₀' servers, ← eq, mul_assoc, mul_comm (1 + _)]
    exact room

/-- A returned plan covers the demand of the history jobs just when their demand fits the largest
number of servers as it is, or the whole part of the cap has room for what was divided by the
cap. -/
theorem estimate_covers_iff (int32 : ToInt32) (conf : PsEstimateConfig)
    (jobs : List (Option (List JobRuntimeInfo))) (plan : AlgorithmOptimizePlan)
    (group : TaskGroupResource) (nonneg : conf.Nonneg) (usage : NonnegUsage jobs)
    (returned : estimateJobResourceByHistoricJobs int32 conf jobs = some plan)
    (grouped : plan.taskGroupResources.get? "ps" = some group) :
    CoversDemand conf jobs group ↔
      FitsUncapped conf (historyUsage jobs) ∨ CoveredByCap int32 conf (historyUsage jobs) := by
  have seen := seen_historyUsage usage
  obtain ⟨total, core, eq⟩ := estimate_eq_some nonneg usage returned grouped
  obtain ⟨cap, parsed⟩ : ∃ cap, conf.psMaxCount.getD defaultMaxPSCount = cap := ⟨_, rfl⟩
  have cap_nonneg : 0 ≤ cap := by
    rw [← parsed]
    cases eq : conf.psMaxCount with
    | none => norm_num [defaultMaxPSCount]
    | some value => exact nonneg.maxPSCount value eq
  have below_iff : (⌈totalCPUCore conf (historyUsage jobs) /
      ((historyUsage jobs).maxCPUCore + conf.cpuMargin)⌉ : ℚ) ≤ cap ↔
        totalCPUCore conf (historyUsage jobs) ≤
          ⌊cap⌋ * ((historyUsage jobs).maxCPUCore + conf.cpuMargin) := by
    rw [← Int.le_floor, Int.ceil_le, div_le_iff₀ core]
  have above_iff := (not_iff_not.mpr below_iff).symm
  rw [not_le, not_le] at above_iff
  rw [eq, replicasAndCores, PsEstimateConfig.maxPSCount_eq nonneg, parsed,
    ExactFloat.num_div_num core.ne', ExactFloat.ceil_num, FitsUncapped, CoveredByCap, parsed,
    above_iff, ← below_iff]
  simp only [ExactFloat.num_lt_num]
  split
  · next above =>
    rw [covers_capped_iff int32 nonneg seen cap_nonneg parsed]
    constructor
    · exact fun covers ↦ .inr ⟨above, covers⟩
    · rintro (⟨below, -⟩ | ⟨-, covers⟩)
      · exact absurd below (not_le.mpr above)
      · exact covers
  · next below =>
    have below := not_lt.mp below
    rw [covers_uncapped_iff int32 nonneg seen total core (parsed.symm ▸ below)]
    constructor
    · exact fun fits ↦ .inl ⟨below, fits⟩
    · rintro (⟨-, fits⟩ | ⟨above, -⟩)
      · exact fits
      · exact absurd above (not_lt.mpr below)

/-- A record of three servers with the given cores and memory in use. -/
def threeServers (cpus memories : Fin 3 → ℚ) : JobRuntimeInfo where
  globalStep := 1
  timeStamp := 1
  speed := 1
  workerMemory := none
  workerCPU := none
  psMemory := some (.ofItems [(0, memories 0), (1, memories 1), (2, memories 2)])
  psCPU := some (.ofItems [(0, cpus 0), (1, cpus 1), (2, cpus 2)])

/-- Three jobs and one that is malformed. The major cluster of the first leaves out its last
record, and the one of the jobs leaves out the last job. -/
def threeJobHistory : List (Option (List JobRuntimeInfo)) :=
  [some [threeServers ![10, 10, 10] ![100, 90, 90], threeServers ![12, 12, 10] ![80, 80, 80],
      threeServers ![20, 20, 20] ![50, 60, 70]],
    none,
    some [threeServers ![14, 10, 10] ![100, 10, 10]],
    some [threeServers ![20, 20, 20] ![10, 20, 30]]]

/-- A largest count with a fraction, a memory margin of zero and malformed others. -/
def fractionalCap : PsEstimateConfig := ⟨some 0, none, none, some (41 / 20)⟩

theorem nonneg_fractionalCap : fractionalCap.Nonneg := by
  constructor
  · rintro _ ⟨⟩
    exact le_rfl
  · exact fun _ absent ↦ absurd absent (Option.not_mem_none _)
  · exact fun _ absent ↦ absurd absent (Option.not_mem_none _)
  · rintro _ ⟨⟩
    norm_num

theorem nonnegUsage_threeJobHistory : NonnegUsage threeJobHistory := by
  have each : ∀ job ∈ threeJobHistory, ∀ rt ∈ job.getD [],
      (∀ e ∈ ResourceMap.entries rt.psCPU, 0 ≤ e.2) ∧
        ∀ e ∈ ResourceMap.entries rt.psMemory, 0 ≤ e.2 := by decide +kernel
  exact fun rts mem ↦ each (some rts) mem

/-- Three servers of 24 cores are wanted for 49.5 cores; the cap of 2.05 leaves two of 25. -/
theorem estimate_covers_fractional_cap :
    ∃ plan group, estimateJobResourceByHistoricJobs (.least _ _ (by decide)) fractionalCap
        threeJobHistory = some plan ∧
      plan.taskGroupResources.get? "ps" = some group ∧
      CoversDemand fractionalCap threeJobHistory group := by
  have planned : ((estimateJobResourceByHistoricJobs (.least _ _ (by decide)) fractionalCap
      threeJobHistory).bind (·.taskGroupResources.get? "ps")).isSome = true := by decide +kernel
  obtain ⟨group, some_group⟩ := Option.isSome_iff_exists.mp planned
  obtain ⟨plan, returned, grouped⟩ := Option.bind_eq_some_iff.mp some_group
  have total : totalCPUCore fractionalCap (historyUsage threeJobHistory) = 99 / 2 := by
    decide +kernel
  have used : (historyUsage threeJobHistory).maxCPUCore = 20 ∧
      (historyUsage threeJobHistory).maxMemory = 100 ∧
      (historyUsage threeJobHistory).maxJobPSMemory = 280 := by decide +kernel
  have count : (IntConversion.least (-2147483648) 2147483648 (by decide)).conv
      (.num (41 / 20)) = 2 := by decide +kernel
  have covered : CoveredByCap (.least _ _ (by decide)) fractionalCap
      (historyUsage threeJobHistory) := by
    have cap : fractionalCap.psMaxCount.getD defaultMaxPSCount = 41 / 20 := rfl
    have margins : fractionalCap.cpuMargin = 4 ∧ fractionalCap.memoryMarginPercent = 1 / 5 := by
      decide +kernel
    simp only [CoveredByCap, cap, count, total, used, margins, sameSizes_whole_iff]
    rw [sameSizes_memory_iff (by norm_num)]
    decide +kernel
  exact ⟨plan, group, returned, grouped,
    (estimate_covers_iff _ _ _ plan group nonneg_fractionalCap nonnegUsage_threeJobHistory returned
      grouped).mpr (.inr covered)⟩

/-- With a largest count of zero the plan has no servers. -/
theorem estimate_not_covers_zero_cap :
    PsEstimateConfig.Nonneg ⟨none, none, none, some 0⟩ ∧ NonnegUsage threeJobHistory ∧
    ∃ plan group, estimateJobResourceByHistoricJobs (.least _ _ (by decide))
        ⟨none, none, none, some 0⟩ threeJobHistory = some plan ∧
      plan.taskGroupResources.get? "ps" = some group ∧
      ¬CoversDemand ⟨none, none, none, some 0⟩ threeJobHistory group := by
  have planned : (((estimateJobResourceByHistoricJobs (.least _ _ (by decide))
      ⟨none, none, none, some 0⟩ threeJobHistory).bind
        (·.taskGroupResources.get? "ps")).map TaskGroupResource.count) = some 0 := by decide +kernel
  obtain ⟨group, some_group, count⟩ := Option.map_eq_some_iff.mp planned
  obtain ⟨plan, returned, grouped⟩ := Option.bind_eq_some_iff.mp some_group
  refine ⟨⟨?_, ?_, ?_, ?_⟩, nonnegUsage_threeJobHistory, plan, group, returned, grouped,
    fun covers ↦ ?_⟩
  · exact fun _ absent ↦ absurd absent (Option.not_mem_none _)
  · exact fun _ absent ↦ absurd absent (Option.not_mem_none _)
  · exact fun _ absent ↦ absurd absent (Option.not_mem_none _)
  · rintro _ ⟨⟩
    exact le_rfl
  have one := covers.pos
  rw [count] at one
  exact absurd one (by decide)

end ProbingBaselines.Dlrover
