import Mathlib.Algebra.Order.Field.Basic
import Mathlib.Data.List.Perm.Basic
import Mathlib.Data.Rat.Floor
import Mathlib.Tactic.Linarith
import ProbingBaselines.Dlrover.JobRuntimeInfo

/-!
# Scaling up hot parameter servers

Source `xputimer-metax/dlrover/go/brain/pkg/optimizer/implementation/optalgorithm`
(`optimize_job_hot_ps_resource.go`). When a server is hot all servers grow by one common ratio. The
ratio is lowered until no hot server needs more than 32 cores, but the servers that are not hot
grow by it too, and servers without a node record share one entry of the plan.
-/

namespace ProbingBaselines.Dlrover

open Lib

/-- `maxCPUThreshold`, `optimize_job_hot_ps_resource.go:35`. -/
def maxCPUThreshold : ℚ := 32

/-- `NRecordToAvgResource`, `implementation/common/common.go`. -/
def nRecordToAvgResource : Nat := 3

/-! ### The nodes -/

/-- A node of the data store; its resource as `json.Unmarshal` gives it, CPU and memory. -/
structure StoredNode where
  name : String
  resource : Option (ℚ × ℚ)

/-- What `nodeCPUs`, `nodeMemory` and `nodeNames` say of one server; the three maps have the same
keys. -/
structure PsNode where
  cpu : ℚ
  memory : ℚ
  name : String

/-- The node records under the number that `ExtractPodTypeAndIDFromName` takes from the name. -/
structure PsNodes (idOf : String → Int) where
  nodes : Dict Nat PsNode
  named : ∀ e ∈ nodes.items, idOf e.2.name = e.1

namespace PsNodes

variable {idOf : String → Int}

/-- One round of the loop over the nodes, `optimize_job_hot_ps_resource.go:87-104`. -/
def add (p : PsNodes idOf) (node : StoredNode) : PsNodes idOf :=
  if h : idOf node.name < 0 then p
  else
    match node.resource with
    | none => p
    | some (cpu, memory) =>
      { nodes := p.nodes.insert (idOf node.name).toNat ⟨cpu, memory, node.name⟩
        named := by
          intro e mem
          rcases Dict.mem_items_insert.mp mem with ⟨key, value⟩ | ⟨-, old⟩
          · rw [key, value]
            exact (Int.toNat_of_nonneg (not_lt.mp h)).symm
          · exact p.named e old }

/-- The loop over the nodes, `optimize_job_hot_ps_resource.go:84-104`. -/
def collect (idOf : String → Int) (nodes : List StoredNode) : PsNodes idOf :=
  nodes.foldl add ⟨.empty, fun _ mem ↦ absurd mem List.not_mem_nil⟩

/-- `nodeCPUs[n]`. -/
def cpu (p : PsNodes idOf) (n : Nat) : ℚ := ((p.nodes.get? n).map PsNode.cpu).getD 0

/-- `nodeNames[n]`. -/
def name (p : PsNodes idOf) (n : Nat) : String := ((p.nodes.get? n).map PsNode.name).getD ""

end PsNodes

/-! ### The plan -/

/-- One record of the loop of `checkHotMemoryNodes`,
`optimize_job_hot_ps_resource.go:191-202`. -/
def countHotMemory (nodeMemory : Dict Nat ℚ) (hotThreshold : ℚ) (hotPsRecords : Dict Nat Nat)
    (e : Nat × ℚ) : Dict Nat Nat :=
  match nodeMemory.get? e.1 with
  | none => hotPsRecords
  | some totalMemory =>
    if .num hotThreshold < ExactFloat.num e.2 / .num totalMemory then
      hotPsRecords.insert e.1 ((hotPsRecords.get? e.1).getD 0 + 1)
    else hotPsRecords

/-- `checkHotMemoryNodes`, `optimize_job_hot_ps_resource.go:179-211`. -/
def checkHotMemoryNodes (runtimeInfos : List JobRuntimeInfo) (nodeMemory : Dict Nat ℚ)
    (hotThreshold : ℚ) (checkHotStep : Nat) : List Nat :=
  if runtimeInfos.length < checkHotStep then []
  else
    let rt := runtimeInfos.getLast?.bind JobRuntimeInfo.psMemory
    let hotPsRecords := (ResourceMap.ids rt).foldl (fun d n ↦ d.insert n 0) Dict.empty
    let counted := (lastRecords runtimeInfos checkHotStep).foldl
      (fun d rt ↦
        (ResourceMap.entries rt.psMemory).foldl (countHotMemory nodeMemory hotThreshold) d)
      hotPsRecords
    (counted.items.filter fun e ↦ checkHotStep ≤ e.2).map Prod.fst

/-- What the algorithm reads: the configured values as parsed, the nodes, and the records with the
servers of the latest one. -/
structure HotPsInput (idOf : String → Int) where
  hotCPUThreshold : ℚ
  hotMemoryThreshold : ℚ
  hotTargetWorkerCount : Int
  hotAdjustMemory : Int
  nodes : PsNodes idOf
  jobRuntime : List JobRuntimeInfo

namespace HotPsInput

variable {idOf : String → Int}

/-- `optimize_job_hot_ps_resource.go:118`. -/
def runtimeInfos (i : HotPsInput idOf) : List JobRuntimeInfo :=
  filterRuntimeInfosWithLatestPS i.jobRuntime

/-- `len(rt.WorkerCPU)` of the latest record, `optimize_job_hot_ps_resource.go:126-127`. -/
def curWorkerNum (i : HotPsInput idOf) : Nat :=
  ResourceMap.size (i.runtimeInfos.getLast?.bind JobRuntimeInfo.workerCPU)

/-- `optimize_job_hot_ps_resource.go:128`. -/
def avgCPU (i : HotPsInput idOf) : Dict Nat ℚ :=
  calculateJobNodeAvgResources i.runtimeInfos nRecordToAvgResource .psCPU

/-- `optimize_job_hot_ps_resource.go:122`, in some order. -/
def hotCPUPsNodes (i : HotPsInput idOf) : List Nat :=
  checkHotCPUNodes i.runtimeInfos (i.nodes.nodes.mapValues PsNode.cpu) i.hotCPUThreshold
    nRecordToAvgResource

/-- `optimize_job_hot_ps_resource.go:123`, in some order. -/
def hotMemoryPsNodes (i : HotPsInput idOf) : List Nat :=
  checkHotMemoryNodes i.runtimeInfos (i.nodes.nodes.mapValues PsNode.memory) i.hotMemoryThreshold
    nRecordToAvgResource

end HotPsInput

/-- The orders in which the maps are gone through: the average CPUs when the hot servers are listed
and when the cores are set, and the hot records of the memory. -/
structure RangeOrders {idOf : String → Int} (i : HotPsInput idOf) where
  hotCPU : List Nat
  hotCPU_perm : hotCPU.Perm i.hotCPUPsNodes
  avgCPU : List (Nat × ℚ)
  avgCPU_perm : avgCPU.Perm i.avgCPU.items
  hotMemory : List Nat
  hotMemory_perm : hotMemory.Perm i.hotMemoryPsNodes

/-- A resource with nothing set. -/
def PodResource.unset : PodResource := ⟨.num 0, .num 0, .num 0, ""⟩

variable {idOf : String → Int}

/-- `optimize_job_hot_ps_resource.go:132-136`: the coefficient after one hot server. -/
def lowerCoeff (avgCPU : Dict Nat ℚ) (coeff : ExactFloat) (n : Nat) : ExactFloat :=
  let used := ExactFloat.num ((avgCPU.get? n).getD 0)
  if .num maxCPUThreshold < (used * coeff).ceil then .num maxCPUThreshold / used else coeff

/-- `optimize_job_hot_ps_resource.go:141-147`: the cores of one server. -/
def setCPU (p : PsNodes idOf) (coeff : ExactFloat) (optNodeRes : Dict String PodResource)
    (e : Nat × ℚ) : Dict String PodResource :=
  let optCPU := (ExactFloat.num e.2 * coeff).ceil
  if .num (p.cpu e.1) < optCPU then
    optNodeRes.insert (p.name e.1) { PodResource.unset with cpuCore := optCPU }
  else optNodeRes

/-- `optimize_job_hot_ps_resource.go:152-165`: the memory of one server. -/
def setMemory (p : PsNodes idOf) (hotAdjustMemory : Int) (optNodeRes : Dict String PodResource)
    (n : Nat) : Dict String PodResource :=
  match p.nodes.get? n with
  | none => optNodeRes
  | some node =>
    let optMemory := ExactFloat.num (node.memory + hotAdjustMemory)
    match optNodeRes.get? node.name with
    | some res => optNodeRes.insert node.name { res with memory := optMemory }
    | none => optNodeRes.insert node.name { PodResource.unset with memory := optMemory }

/-- The entries with cores, `optimize_job_hot_ps_resource.go:120-149`. -/
def cpuEntries (i : HotPsInput idOf) (o : RangeOrders i) : Dict String PodResource :=
  if 0 < o.hotCPU.length then
    let coeff := o.hotCPU.foldl (lowerCoeff i.avgCPU)
      (.num i.hotTargetWorkerCount / .num i.curWorkerNum)
    o.avgCPU.foldl (setCPU i.nodes coeff) .empty
  else .empty

/-- `OptimizeJobHotPSResource` from the parsed records on,
`optimize_job_hot_ps_resource.go:113-177`. -/
def optimizeJobHotPSResource (i : HotPsInput idOf) (o : RangeOrders i) :
    Option AlgorithmOptimizePlan :=
  if i.jobRuntime.length = 0 then none
  else
    let optNodeRes := o.hotMemory.foldl (setMemory i.nodes i.hotAdjustMemory) (cpuEntries i o)
    if optNodeRes.items.length = 0 then none else some { podResources := optNodeRes }

/-! ### What the plan is for -/

/-- The entry of the plan for a pod. -/
def podResource (i : HotPsInput idOf) (o : RangeOrders i) (name : String) : Option PodResource :=
  (optimizeJobHotPSResource i o).bind (·.podResources.get? name)

/-- The servers whose cores are set get more than they have and at most 32 where they have less,
all by one ratio, and no order of the maps makes a difference. -/
structure RespectsCap (i : HotPsInput idOf) : Prop where
  ratio : ∃ ρ : ℚ, ∀ (o : RangeOrders i) (name : String) (res : PodResource),
    podResource i o name = some res → res.cpuCore ≠ .num 0 →
      ∃ e ∈ i.avgCPU.items, i.nodes.name e.1 = name ∧ res.cpuCore = .num ⌈e.2 * ρ⌉ ∧
        i.nodes.cpu e.1 < ⌈e.2 * ρ⌉ ∧ ⌈e.2 * ρ⌉ ≤ max maxCPUThreshold (i.nodes.cpu e.1)
  order : ∀ (o o' : RangeOrders i) (name : String), podResource i o name = podResource i o' name

/-- The largest ratio up to the target at which no hot server needs more than the threshold. -/
def commonRatio (i : HotPsInput idOf) : ℚ :=
  (((i.hotCPUPsNodes.map fun n ↦ (i.avgCPU.get? n).getD 0).filter (0 < ·)).map
    (maxCPUThreshold / ·)).foldl min (i.hotTargetWorkerCount / i.curWorkerNum)

/-- No server outgrows the threshold at the common ratio, and those without a node record that
grow need the same cores. -/
def WithinCap (i : HotPsInput idOf) : Prop :=
  i.hotCPUPsNodes = [] ∨
    (∀ e ∈ i.avgCPU.items, i.nodes.cpu e.1 < ⌈e.2 * commonRatio i⌉ →
      (⌈e.2 * commonRatio i⌉ : ℚ) ≤ maxCPUThreshold) ∧
    ∀ e ∈ i.avgCPU.items, ∀ e' ∈ i.avgCPU.items, e.1 ∉ i.nodes.nodes → e'.1 ∉ i.nodes.nodes →
      0 < ⌈e.2 * commonRatio i⌉ → 0 < ⌈e'.2 * commonRatio i⌉ →
        ⌈e.2 * commonRatio i⌉ = ⌈e'.2 * commonRatio i⌉

instance decidableWithinCap (i : HotPsInput idOf) : Decidable (WithinCap i) :=
  inferInstanceAs (Decidable (_ ∨ _ ∧ _))

/-! ### Names -/

namespace PsNodes

variable {p : PsNodes idOf} {m n : Nat}

theorem cpu_of_not_mem (h : n ∉ p.nodes) : p.cpu n = 0 := by
  rw [cpu, Dict.get?_eq_none_iff.mpr h, Option.map_none, Option.getD_none]

theorem idOf_name {node : PsNode} (h : p.nodes.get? n = some node) : idOf node.name = n :=
  p.named _ (Dict.get?_eq_some_iff.mp h)

/-- Two servers share a name only when both have no node record. -/
theorem eq_or_not_mem_of_name (empty : idOf "" < 0) (h : p.name m = p.name n) :
    m = n ∨ m ∉ p.nodes ∧ n ∉ p.nodes := by
  rw [← Dict.get?_eq_none_iff, ← Dict.get?_eq_none_iff]
  simp only [name] at h
  cases hm : p.nodes.get? m with
  | none =>
    cases hn : p.nodes.get? n with
    | none => exact .inr ⟨rfl, rfl⟩
    | some b =>
      rw [hm, hn, Option.map_none, Option.map_some, Option.getD_none, Option.getD_some] at h
      have id := idOf_name hn
      rw [← h] at id
      omega
  | some a =>
    cases hn : p.nodes.get? n with
    | none =>
      rw [hm, hn, Option.map_none, Option.map_some, Option.getD_none, Option.getD_some] at h
      have id := idOf_name hm
      rw [h] at id
      omega
    | some b =>
      rw [hm, hn, Option.map_some, Option.map_some, Option.getD_some, Option.getD_some] at h
      have ida := idOf_name hm
      have idb := idOf_name hn
      rw [h] at ida
      exact .inl (by omega)

theorem cpu_eq_of_name (empty : idOf "" < 0) (h : p.name m = p.name n) : p.cpu m = p.cpu n := by
  rcases eq_or_not_mem_of_name empty h with rfl | ⟨hm, hn⟩
  · rfl
  · rw [cpu_of_not_mem hm, cpu_of_not_mem hn]

end PsNodes

/-! ### The ratio -/

theorem lowerCoeff_num {avgCPU : Dict Nat ℚ} (nonneg : ∀ e ∈ avgCPU.items, 0 ≤ e.2) (c : ℚ)
    (n : Nat) :
    lowerCoeff avgCPU (.num c) n = .num (if 0 < (avgCPU.get? n).getD 0 then
      min c (maxCPUThreshold / (avgCPU.get? n).getD 0) else c) := by
  have used : 0 ≤ (avgCPU.get? n).getD 0 := by
    cases h : avgCPU.get? n with
    | none => exact le_rfl
    | some a => exact nonneg _ (Dict.get?_eq_some_iff.mp h)
  simp only [lowerCoeff, ExactFloat.num_mul_num, ExactFloat.ceil_num, ExactFloat.num_lt_num]
  generalize (avgCPU.get? n).getD 0 = a at used
  have over_iff : maxCPUThreshold < ⌈a * c⌉ ↔ maxCPUThreshold < a * c := by
    have threshold : maxCPUThreshold = ((32 : Int) : ℚ) := by norm_num [maxCPUThreshold]
    rw [threshold, Int.cast_lt, Int.lt_ceil]
  simp only [over_iff]
  rcases used.eq_or_lt with rfl | pos
  · rw [zero_mul, if_neg (lt_irrefl 0), if_neg (by norm_num [maxCPUThreshold])]
  · rw [if_pos pos, ExactFloat.num_div_num pos.ne']
    split
    · next more =>
      rw [min_eq_right ((div_le_iff₀' pos).mpr more.le)]
    · next less =>
      rw [min_eq_left ((le_div_iff₀' pos).mpr (not_lt.mp less))]

/-- The loop over the hot servers ends with the common ratio, in whatever order it takes them. -/
theorem foldl_lowerCoeff {i : HotPsInput idOf} (o : RangeOrders i) (workers : i.curWorkerNum ≠ 0) :
    o.hotCPU.foldl (lowerCoeff i.avgCPU) (.num i.hotTargetWorkerCount / .num i.curWorkerNum) =
      .num (commonRatio i) := by
  have nonneg : ∀ e ∈ i.avgCPU.items, 0 ≤ e.2 :=
    fun e mem ↦ calculateJobNodeAvgResources_nonneg mem
  have loop : ∀ (l : List Nat) (c : ℚ), l.foldl (lowerCoeff i.avgCPU) (.num c) =
      .num ((((l.map fun n ↦ (i.avgCPU.get? n).getD 0).filter (0 < ·)).map
        (maxCPUThreshold / ·)).foldl min c) := by
    intro l
    induction l with
    | nil => exact fun _ ↦ rfl
    | cons n l ih =>
      intro c
      rw [List.foldl_cons, lowerCoeff_num nonneg, ih, List.map_cons]
      split
      · next pos =>
        rw [List.filter_cons, if_pos (decide_eq_true pos), List.map_cons, List.foldl_cons]
      · next zero => rw [List.filter_cons, if_neg (by simpa using zero)]
  have perm := ((o.hotCPU_perm.map fun n ↦ (i.avgCPU.get? n).getD 0).filter (0 < ·)).map
    (maxCPUThreshold / ·)
  rw [ExactFloat.num_div_num (Nat.cast_ne_zero.mpr workers), loop, perm.foldl_eq, commonRatio]

/-! ### The entries -/

/-- The server gets more cores than it has. -/
def Grows (i : HotPsInput idOf) (e : Nat × ℚ) : Prop :=
  i.nodes.cpu e.1 < ⌈e.2 * commonRatio i⌉

instance decidableGrows (i : HotPsInput idOf) (e : Nat × ℚ) : Decidable (Grows i e) :=
  inferInstanceAs (Decidable (_ < _))

/-- The entry with the cores of the server. -/
def cpuEntry (i : HotPsInput idOf) (e : Nat × ℚ) : PodResource :=
  { PodResource.unset with cpuCore := .num ⌈e.2 * commonRatio i⌉ }

/-- The entry for a name is the one of the last server with that name that grows. -/
theorem get?_cpuEntries {i : HotPsInput idOf} (o : RangeOrders i) (workers : i.curWorkerNum ≠ 0)
    (hot : i.hotCPUPsNodes ≠ []) (name : String) :
    (cpuEntries i o).get? name =
      ((o.avgCPU.filter fun e ↦ Grows i e ∧ i.nodes.name e.1 = name).getLast?).map
        (cpuEntry i) := by
  have some_hot : 0 < o.hotCPU.length := by
    rw [o.hotCPU_perm.length_eq]
    exact List.length_pos_iff.mpr hot
  have set : setCPU i.nodes (.num (commonRatio i)) = fun d e ↦
      if Grows i e then d.insert (i.nodes.name e.1) (cpuEntry i e) else d := by
    funext d e
    simp only [setCPU, ExactFloat.num_mul_num, ExactFloat.ceil_num, ExactFloat.num_lt_num]
    rfl
  have filtered : ∀ (l : List (Nat × ℚ)) (d : Dict String PodResource),
      l.foldl (setCPU i.nodes (.num (commonRatio i))) d =
        (l.filter fun e ↦ Grows i e).foldl
          (fun d e ↦ d.insert (i.nodes.name e.1) (cpuEntry i e)) d := by
    intro l d
    rw [List.foldl_filter, set]
    simp only [decide_eq_true_eq]
  rw [cpuEntries, if_pos some_hot, foldl_lowerCoeff o workers, filtered, Dict.get?_foldl_insert,
    List.filter_filter]
  have absent : (Dict.empty : Dict String PodResource).get? name = none := rfl
  rw [absent, Option.or_none]
  congr 3
  funext e
  simp only [Bool.decide_and, Bool.and_comm]

/-- The effect of `setMemory` on the entries. -/
def withMemory (i : HotPsInput idOf) (entries : String → Option PodResource) (n : Nat) :
    String → Option PodResource := fun name ↦
  match i.nodes.nodes.get? n with
  | none => entries name
  | some node =>
    if name = node.name then
      some { (entries name).getD .unset with memory := .num (node.memory + i.hotAdjustMemory) }
    else entries name

theorem get?_setMemory (i : HotPsInput idOf) (d : Dict String PodResource) (n : Nat) :
    (setMemory i.nodes i.hotAdjustMemory d n).get? = withMemory i d.get? n := by
  funext name
  rw [setMemory, withMemory]
  cases i.nodes.nodes.get? n with
  | none => rfl
  | some node =>
    dsimp only
    cases known : d.get? node.name with
    | some res =>
      rw [Dict.get?_insert]
      split
      · next eq => rw [eq, known, Option.getD_some]
      · rfl
    | none =>
      rw [Dict.get?_insert]
      split
      · next eq => rw [eq, known, Option.getD_none]
      · rfl

theorem get?_foldl_setMemory (i : HotPsInput idOf) (l : List Nat) (d : Dict String PodResource) :
    (l.foldl (setMemory i.nodes i.hotAdjustMemory) d).get? = l.foldl (withMemory i) d.get? := by
  induction l generalizing d with
  | nil => rfl
  | cons n l ih => rw [List.foldl_cons, ih, get?_setMemory, List.foldl_cons]

/-- The memory of two servers is set in either order. -/
theorem withMemory_comm (i : HotPsInput idOf) (entries : String → Option PodResource) (m n : Nat) :
    withMemory i (withMemory i entries m) n = withMemory i (withMemory i entries n) m := by
  funext name
  simp only [withMemory]
  cases hm : i.nodes.nodes.get? m with
  | none => rfl
  | some a =>
    cases hn : i.nodes.nodes.get? n with
    | none => rfl
    | some b =>
      dsimp only
      by_cases eqa : name = a.name
      · by_cases eqb : name = b.name
        · -- A name has one server.
          have ida := PsNodes.idOf_name hm
          have idb := PsNodes.idOf_name hn
          rw [← eqa] at ida
          rw [← eqb] at idb
          have same : m = n := by omega
          subst same
          cases Option.some.inj (hm.symm.trans hn)
          rfl
        · rw [if_neg eqb, if_pos eqa, if_pos eqa, if_neg eqb]
      · by_cases eqb : name = b.name
        · rw [if_pos eqb, if_neg eqa, if_neg eqa, if_pos eqb]
        · rw [if_neg eqb, if_neg eqa, if_neg eqa, if_neg eqb]

/-- The cores stay as they are. -/
theorem cpuCore_foldl_withMemory (i : HotPsInput idOf) (l : List Nat)
    (entries : String → Option PodResource) (name : String) :
    ((l.foldl (withMemory i) entries name).getD .unset).cpuCore =
      ((entries name).getD .unset).cpuCore := by
  induction l generalizing entries with
  | nil => rfl
  | cons n l ih =>
    rw [List.foldl_cons, ih, withMemory]
    split
    · rfl
    · split
      · rfl
      · rfl

theorem podResource_eq {i : HotPsInput idOf} (o : RangeOrders i) (runs : i.jobRuntime.length ≠ 0) :
    podResource i o = o.hotMemory.foldl (withMemory i) (cpuEntries i o).get? := by
  funext name
  rw [← get?_foldl_setMemory, podResource, optimizeJobHotPSResource, if_neg runs]
  dsimp only
  split
  · next none_set =>
    rw [Dict.eq_empty_of_items (List.length_eq_zero_iff.mp none_set)]
    rfl
  · rfl

/-! ### When the cap is respected -/

theorem cpuEntries_of_no_hot {i : HotPsInput idOf} (o : RangeOrders i)
    (cold : i.hotCPUPsNodes = []) : cpuEntries i o = .empty := by
  have none_hot : ¬0 < o.hotCPU.length := by
    rw [o.hotCPU_perm.length_eq, cold]
    exact lt_irrefl 0
  rw [cpuEntries, if_neg none_hot]

/-- Where the entries with cores do not depend on the order, the plan does not. -/
theorem podResource_congr {i : HotPsInput idOf} {o o' : RangeOrders i}
    (runs : i.jobRuntime.length ≠ 0) (same : (cpuEntries i o).get? = (cpuEntries i o').get?) :
    podResource i o = podResource i o' := by
  have perm := o.hotMemory_perm.trans o'.hotMemory_perm.symm
  rw [podResource_eq o runs, podResource_eq o' runs, same]
  exact perm.foldl_eq' (fun m _ n _ entries ↦ withMemory_comm i entries m n) _

/-- The cores of an entry of the plan are those that were set for it. -/
theorem cpuCore_podResource {i : HotPsInput idOf} (o : RangeOrders i)
    (runs : i.jobRuntime.length ≠ 0) (name : String) :
    ((podResource i o name).getD .unset).cpuCore =
      (((cpuEntries i o).get? name).getD .unset).cpuCore := by
  rw [podResource_eq o runs, cpuCore_foldl_withMemory]

/-- Servers that share a name and grow need the same cores. -/
theorem same_cores {i : HotPsInput idOf} (empty : idOf "" < 0)
    (equal : ∀ e ∈ i.avgCPU.items, ∀ e' ∈ i.avgCPU.items, e.1 ∉ i.nodes.nodes →
      e'.1 ∉ i.nodes.nodes → 0 < ⌈e.2 * commonRatio i⌉ → 0 < ⌈e'.2 * commonRatio i⌉ →
        ⌈e.2 * commonRatio i⌉ = ⌈e'.2 * commonRatio i⌉)
    {e e' : Nat × ℚ} (mem : e ∈ i.avgCPU.items) (mem' : e' ∈ i.avgCPU.items) (grows : Grows i e)
    (grows' : Grows i e') (name : i.nodes.name e.1 = i.nodes.name e'.1) :
    cpuEntry i e = cpuEntry i e' := by
  rcases PsNodes.eq_or_not_mem_of_name empty name with eq | ⟨unknown, unknown'⟩
  · rw [Prod.ext eq (Dict.value_unique (eq ▸ mem) mem')]
  · rw [Grows, PsNodes.cpu_of_not_mem unknown, Int.cast_pos] at grows
    rw [Grows, PsNodes.cpu_of_not_mem unknown', Int.cast_pos] at grows'
    rw [cpuEntry, cpuEntry, equal e mem e' mem' unknown unknown' grows grows']

/-- A server taken last decides the entry for its name. -/
theorem exists_order_last (i : HotPsInput idOf) {e : Nat × ℚ} (mem : e ∈ i.avgCPU.items) :
    ∃ (o : RangeOrders i) (l : List (Nat × ℚ)), o.avgCPU = l ++ [e] := by
  obtain ⟨before, after, split⟩ := List.append_of_mem mem
  refine ⟨⟨i.hotCPUPsNodes, .refl _, before ++ after ++ [e], ?_, i.hotMemoryPsNodes, .refl _⟩,
    before ++ after, rfl⟩
  rw [split, List.append_assoc]
  exact (List.perm_append_singleton e after).append_left before

theorem exists_order_entry {i : HotPsInput idOf} (workers : i.curWorkerNum ≠ 0)
    (hot : i.hotCPUPsNodes ≠ []) {e : Nat × ℚ} (mem : e ∈ i.avgCPU.items) (grows : Grows i e) :
    ∃ o : RangeOrders i, (cpuEntries i o).get? (i.nodes.name e.1) = some (cpuEntry i e) := by
  obtain ⟨o, l, last⟩ := exists_order_last i mem
  refine ⟨o, ?_⟩
  rw [get?_cpuEntries o workers hot, last, List.filter_append, List.filter_cons,
    if_pos (decide_eq_true ⟨grows, rfl⟩), List.filter_nil, List.getLast?_concat, Option.map_some]

theorem jobRuntime_ne_nil {i : HotPsInput idOf} (hot : i.hotCPUPsNodes ≠ []) :
    i.jobRuntime.length ≠ 0 := by
  intro none_run
  apply hot
  have records : i.runtimeInfos = [] := by
    rw [HotPsInput.runtimeInfos, List.length_eq_zero_iff.mp none_run]
    rfl
  rw [HotPsInput.hotCPUPsNodes, records]
  rfl

/-- For a server that grows there is an order in which the plan has its cores. -/
theorem exists_podResource {i : HotPsInput idOf} (workers : i.curWorkerNum ≠ 0)
    (hot : i.hotCPUPsNodes ≠ []) {e : Nat × ℚ} (mem : e ∈ i.avgCPU.items) (grows : Grows i e)
    (nonneg : 0 ≤ i.nodes.cpu e.1) :
    ∃ (o : RangeOrders i) (res : PodResource), podResource i o (i.nodes.name e.1) = some res ∧
      res.cpuCore = .num ⌈e.2 * commonRatio i⌉ ∧ res.cpuCore ≠ .num 0 := by
  obtain ⟨o, entry⟩ := exists_order_entry workers hot mem grows
  have cores := cpuCore_podResource o (jobRuntime_ne_nil hot) (i.nodes.name e.1)
  rw [entry, Option.getD_some] at cores
  have nonzero : ExactFloat.num ⌈e.2 * commonRatio i⌉ ≠ .num 0 := fun eq ↦
    (nonneg.trans_lt grows).ne' (ExactFloat.num.inj eq)
  cases known : podResource i o (i.nodes.name e.1) with
  | none =>
    rw [known, Option.getD_none] at cores
    exact absurd cores.symm nonzero
  | some res =>
    rw [known, Option.getD_some] at cores
    exact ⟨o, res, known, cores, fun zero ↦ nonzero (cores.symm.trans zero)⟩

theorem nodes_cpu_nonneg {i : HotPsInput idOf} (positive : ∀ e ∈ i.nodes.nodes.items, 0 < e.2.cpu)
    (n : Nat) : 0 ≤ i.nodes.cpu n := by
  rw [PsNodes.cpu]
  cases h : i.nodes.nodes.get? n with
  | none => exact le_rfl
  | some node => exact (positive _ (Dict.get?_eq_some_iff.mp h)).le

theorem withinCap_of_respectsCap {i : HotPsInput idOf} (empty : idOf "" < 0)
    (positive : ∀ e ∈ i.nodes.nodes.items, 0 < e.2.cpu) (workers : i.curWorkerNum ≠ 0)
    (respects : RespectsCap i) : WithinCap i := by
  by_cases cold : i.hotCPUPsNodes = []
  · exact .inl cold
  refine .inr ⟨fun e mem grows ↦ ?_, fun e mem e' mem' unknown unknown' pos pos' ↦ ?_⟩
  · obtain ⟨ρ, bounded⟩ := respects.ratio
    obtain ⟨o, res, known, cores, nonzero⟩ :=
      exists_podResource workers cold mem grows (nodes_cpu_nonneg positive e.1)
    obtain ⟨e', -, name, cores', -, le⟩ := bounded o _ res known nonzero
    rw [← ExactFloat.num.inj (cores.symm.trans cores'), PsNodes.cpu_eq_of_name empty name] at le
    exact (le_max_iff.mp le).resolve_right (not_le.mpr grows)
  · -- The two servers share the entry for the name that is missing.
    have grows : Grows i e := by
      rw [Grows, PsNodes.cpu_of_not_mem unknown]
      exact Int.cast_pos.mpr pos
    have grows' : Grows i e' := by
      rw [Grows, PsNodes.cpu_of_not_mem unknown']
      exact Int.cast_pos.mpr pos'
    obtain ⟨o, res, known, cores, -⟩ :=
      exists_podResource workers cold mem grows (nodes_cpu_nonneg positive e.1)
    obtain ⟨o', res', known', cores', -⟩ :=
      exists_podResource workers cold mem' grows' (nodes_cpu_nonneg positive e'.1)
    have name : i.nodes.name e.1 = i.nodes.name e'.1 := by
      rw [PsNodes.name, PsNodes.name, Dict.get?_eq_none_iff.mpr unknown,
        Dict.get?_eq_none_iff.mpr unknown']
    rw [respects.order o o', name, known'] at known
    rw [← Option.some.inj known, cores'] at cores
    exact (Int.cast_injective (ExactFloat.num.inj cores)).symm

/-- The last of some elements that a function does not tell apart does not depend on their order. -/
theorem map_getLast?_of_perm {α β : Type} {f : α → β} {l l' : List α} (perm : l.Perm l')
    (same : ∀ x ∈ l, ∀ y ∈ l, f x = f y) : l.getLast?.map f = l'.getLast?.map f := by
  cases last : l.getLast? with
  | none =>
    rw [List.getLast?_eq_none_iff] at last
    rw [last] at perm
    rw [List.nil_perm.mp perm, List.getLast?_nil]
  | some x =>
    cases last' : l'.getLast? with
    | none =>
      rw [List.getLast?_eq_none_iff.mp last'] at perm
      rw [List.perm_nil.mp perm] at last
      cases last
    | some y =>
      exact congrArg some (same x (List.mem_of_getLast? last) y
        (perm.mem_iff.mpr (List.mem_of_getLast? last')))

theorem respectsCap_of_withinCap {i : HotPsInput idOf} (empty : idOf "" < 0)
    (workers : i.curWorkerNum ≠ 0) (within : WithinCap i) : RespectsCap i := by
  by_cases runs : i.jobRuntime.length = 0
  · have nothing (o : RangeOrders i) (name : String) : podResource i o name = none := by
      rw [podResource, optimizeJobHotPSResource, if_pos runs, Option.bind_none]
    refine ⟨⟨0, fun o name res known ↦ ?_⟩, fun o o' name ↦ ?_⟩
    · rw [nothing] at known
      cases known
    · rw [nothing, nothing]
  by_cases cold : i.hotCPUPsNodes = []
  · refine ⟨⟨0, fun o name res known nonzero ↦ absurd ?_ nonzero⟩, fun o o' name ↦ ?_⟩
    · have cores := cpuCore_podResource o runs name
      rw [known, cpuEntries_of_no_hot o cold] at cores
      exact cores
    · rw [podResource_congr runs]
      rw [cpuEntries_of_no_hot o cold, cpuEntries_of_no_hot o' cold]
  obtain ⟨bounded, equal⟩ := within.resolve_left cold
  refine ⟨⟨commonRatio i, fun o name res known nonzero ↦ ?_⟩, fun o o' name ↦ ?_⟩
  · have cores := cpuCore_podResource o runs name
    rw [known, Option.getD_some, get?_cpuEntries o workers cold] at cores
    cases last : (o.avgCPU.filter fun e ↦ Grows i e ∧ i.nodes.name e.1 = name).getLast? with
    | none =>
      rw [last] at cores
      exact absurd cores nonzero
    | some e =>
      rw [last] at cores
      obtain ⟨mem, holds⟩ := List.mem_filter.mp (List.mem_of_getLast? last)
      obtain ⟨grows, named⟩ := of_decide_eq_true holds
      have mem := o.avgCPU_perm.mem_iff.mp mem
      exact ⟨e, mem, named, cores, grows, le_max_of_le_left (bounded e mem grows)⟩
  · -- The servers that can decide an entry all give it the same cores.
    rw [podResource_congr runs]
    funext name
    rw [get?_cpuEntries o workers cold, get?_cpuEntries o' workers cold]
    refine map_getLast?_of_perm ((o.avgCPU_perm.trans o'.avgCPU_perm.symm).filter _) ?_
    intro e mem e' mem'
    obtain ⟨mem, holds⟩ := List.mem_filter.mp mem
    obtain ⟨mem', holds'⟩ := List.mem_filter.mp mem'
    obtain ⟨grows, named⟩ := of_decide_eq_true holds
    obtain ⟨grows', named'⟩ := of_decide_eq_true holds'
    exact same_cores empty equal (o.avgCPU_perm.mem_iff.mp mem) (o.avgCPU_perm.mem_iff.mp mem')
      grows grows' (named.trans named'.symm)

/-- The plan respects the cap just when no server outgrows the threshold at the common ratio and
the servers without a node record that grow need the same cores. -/
theorem respectsCap_iff (i : HotPsInput idOf) (empty : idOf "" < 0)
    (positive : ∀ e ∈ i.nodes.nodes.items, 0 < e.2.cpu) (workers : i.curWorkerNum ≠ 0) :
    RespectsCap i ↔ WithinCap i :=
  ⟨withinCap_of_respectsCap empty positive workers, respectsCap_of_withinCap empty workers⟩

/-- The numbers in the names of two servers. -/
def twoServerId (name : String) : Int :=
  if name = "job-ps-0" then 0 else if name = "job-ps-1" then 1 else -1

/-- One worker, and two servers that use 1 and 20 cores in three records; the first has one core
and is hot, the second has `cpu`. -/
def twoServers (cpu : ℚ) : HotPsInput twoServerId where
  hotCPUThreshold := 1 / 2
  hotMemoryThreshold := 1
  hotTargetWorkerCount := 4
  hotAdjustMemory := 0
  nodes := .collect twoServerId [⟨"job-ps-0", some (1, 100)⟩, ⟨"job-ps-1", some (cpu, 100)⟩]
  jobRuntime := List.replicate 3
    { globalStep := 1, timeStamp := 1, speed := 1
      workerMemory := none, workerCPU := some (.ofItems [(0, 1)])
      psMemory := none, psCPU := some (.ofItems [(0, 1), (1, 20)]) }

/-- The second server has as much as the common ratio would give it. -/
theorem respectsCap_twoServers : RespectsCap (twoServers 80) :=
  (respectsCap_iff (twoServers 80) (by decide) (by decide +kernel) (by decide)).mpr
    (by decide +kernel)

/-- The ratio of the first server takes the second one, which is not hot, from 64 cores to 80. -/
theorem not_respectsCap_twoServers : ¬RespectsCap (twoServers 64) := by
  intro respects
  have within := withinCap_of_respectsCap (by decide) (by decide +kernel) (by decide) respects
  revert within
  decide +kernel

end ProbingBaselines.Dlrover
