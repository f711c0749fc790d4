import Mathlib.Data.List.Induction
import Mathlib.Data.Rat.Defs
import ProbingBaselines.Lib.Dict

/-!
# The configuration of a unified job

The workloads of a job, their resources and the groups they are placed in
(`unified/common/workload_desc.py`, `unified/common/config.py`). Numbers are exact.
-/

namespace ProbingBaselines.Dlrover

open Lib

/-- `workload_desc.py:54-111`. -/
@[ext]
structure ResourceDesc where
  cpu : ℚ
  memory : Nat
  disk : Nat
  accelerator : ℚ
  userDefined : Dict String ℚ

namespace ResourceDesc

/-- `ResourceDesc()`. -/
def empty : ResourceDesc := ⟨0, 0, 0, 0, .empty⟩

/-- `is_empty`. -/
def isEmpty (r : ResourceDesc) : Bool :=
  r.cpu = 0 && r.accelerator = 0 && r.userDefined.items = []

/-- `__add__`. -/
def add (r other : ResourceDesc) : ResourceDesc where
  cpu := r.cpu + other.cpu
  memory := r.memory + other.memory
  disk := r.disk + other.disk
  accelerator := r.accelerator + other.accelerator
  userDefined := other.userDefined.items.foldl
    (fun d e ↦ d.insert e.1 ((d.get? e.1).getD 0 + e.2)) r.userDefined

end ResourceDesc

/-- The backends; only the elastic one has a master class. -/
inductive WorkloadBackend where
  | elastic
  | simple
  | custom
  deriving DecidableEq

/-- `BaseWorkloadDesc` (`workload_desc.py:120-233`), without what is passed on to the workers. No
method changes the numbers that `validate` compares. -/
structure WorkloadDesc where
  backend : WorkloadBackend
  total : Nat
  resource : ResourceDesc
  perNodeMaxFailure : Int
  group : Option String
  perGroup : Nat
  rankBasedGpuSelection : Bool
  perGroup_pos : 0 < perGroup
  total_mod : total % perGroup = 0

namespace WorkloadDesc

/-- `num` groups of `per_group` instances, with the default limit of failures. -/
def ofGroups (backend : WorkloadBackend) (num perGroup : Nat) (resource : ResourceDesc)
    (group : Option String) (pos : 0 < perGroup) : WorkloadDesc :=
  ⟨backend, num * perGroup, resource, 3, group, perGroup, false, pos, Nat.mul_mod_left _ _⟩

/-- The validators of the resource (`workload_desc.py:191-202`, `workload_desc.py:216-223`). -/
def resourceValid (w : WorkloadDesc) : Bool :=
  0 ≤ w.resource.cpu && 0 ≤ w.resource.accelerator && !w.resource.isEmpty &&
    (!w.rankBasedGpuSelection || 1 < w.perGroup && w.resource.accelerator ≤ 1)

/-- The number of groups of `per_group` instances. -/
theorem total_eq (w : WorkloadDesc) : w.total = w.total / w.perGroup * w.perGroup :=
  (Nat.div_mul_cancel (Nat.dvd_of_mod_eq_zero w.total_mod)).symm

/-- `workload.group or f"_group_{name}"`. -/
def groupName (w : WorkloadDesc) (name : String) : String :=
  if w.group.getD "" = "" then "_group_" ++ name else w.group.getD ""

end WorkloadDesc

/-- `config.py:39-44`. -/
structure WorkloadGroup where
  name : String
  num : Nat
  workloads : List String
  resource : ResourceDesc

/-- The part of a `DLConfig` that decides on the placement. -/
structure DLConfig where
  workloads : Dict String WorkloadDesc
  nodeNumber : Nat
  devicePerNode : Nat

namespace DLConfig

/-- One pass of the loop of `workload_group` (`config.py:75-86`). -/
def addToGroup (groups : Dict String WorkloadGroup) (name : String) (workload : WorkloadDesc) :
    Dict String WorkloadGroup :=
  let groupName := workload.groupName name
  let group := (groups.get? groupName).getD
    ⟨groupName, workload.total / workload.perGroup, [], .empty⟩
  groups.insert groupName { group with
    workloads := group.workloads ++ [name]
    resource := (fun r ↦ r.add workload.resource)^[workload.perGroup] group.resource }

/-- The test of a workload against its group (`config.py:91-92`). -/
def consistent (c : DLConfig) (group : WorkloadGroup) (name : String) : Bool :=
  (c.workloads.get? name).any fun workload ↦ workload.total = group.num * workload.perGroup

/-- The loop of `workload_group` over the workloads. -/
def groups (c : DLConfig) : Dict String WorkloadGroup :=
  c.workloads.items.foldl (fun groups e ↦ addToGroup groups e.1 e.2) .empty

/-- `workload_group` (`config.py:71-97`); `none` for a `ValueError`. -/
def workloadGroup (c : DLConfig) : Option (List WorkloadGroup) :=
  if c.groups.values.all fun group ↦ group.workloads.all (c.consistent group) then
    some c.groups.values
  else none

/-! ### The groups -/

/-- The workloads that are placed in a group. -/
def membersOf (workloads : List (String × WorkloadDesc)) (groupName : String) :
    List (String × WorkloadDesc) :=
  workloads.filter fun e ↦ e.2.groupName e.1 = groupName

/-- The resource of `per_group` instances of each of some workloads. -/
def resourceOf (workloads : List (String × WorkloadDesc)) : ResourceDesc :=
  workloads.foldl (fun r e ↦ (fun r ↦ r.add e.2.resource)^[e.2.perGroup] r) .empty

/-- The groups are made of the workloads. -/
structure GroupsOf (workloads : List (String × WorkloadDesc)) (groups : Dict String WorkloadGroup) :
    Prop where
  named : ∀ e ∈ groups.items, e.2.name = e.1
  members : ∀ e ∈ groups.items, e.2.workloads = (membersOf workloads e.1).map Prod.fst
  resource : ∀ e ∈ groups.items, e.2.resource = resourceOf (membersOf workloads e.1)
  covers : ∀ e ∈ workloads, e.2.groupName e.1 ∈ groups

theorem membersOf_concat (workloads : List (String × WorkloadDesc)) (name groupName : String)
    (workload : WorkloadDesc) :
    membersOf (workloads ++ [(name, workload)]) groupName =
      membersOf workloads groupName ++
        if workload.groupName name = groupName then [(name, workload)] else [] := by
  rw [membersOf, List.filter_append, List.filter_singleton]
  simp [membersOf]

theorem resourceOf_concat (workloads : List (String × WorkloadDesc))
    (e : String × WorkloadDesc) :
    resourceOf (workloads ++ [e]) =
      (fun r ↦ r.add e.2.resource)^[e.2.perGroup] (resourceOf workloads) := by
  rw [resourceOf, List.foldl_append]
  rfl

/-- No workload so far is in a group that does not exist. -/
theorem GroupsOf.membersOf_eq_nil {workloads : List (String × WorkloadDesc)}
    {groups : Dict String WorkloadGroup} (h : GroupsOf workloads groups) {groupName : String}
    (missing : groupName ∉ groups) : membersOf workloads groupName = [] := by
  rw [membersOf, List.filter_eq_nil_iff]
  intro e mem
  rw [decide_eq_true_eq]
  rintro rfl
  exact missing (h.covers e mem)

theorem GroupsOf.add {workloads : List (String × WorkloadDesc)} {groups : Dict String WorkloadGroup}
    (h : GroupsOf workloads groups) (name : String) (workload : WorkloadDesc) :
    GroupsOf (workloads ++ [(name, workload)]) (addToGroup groups name workload) := by
  -- the group so far, which may be new
  have before : ∃ num, (groups.get? (workload.groupName name)).getD
        ⟨workload.groupName name, workload.total / workload.perGroup, [], .empty⟩ =
      ⟨workload.groupName name, num,
        (membersOf workloads (workload.groupName name)).map Prod.fst,
        resourceOf (membersOf workloads (workload.groupName name))⟩ := by
    cases found : groups.get? (workload.groupName name) with
    | none =>
      rw [Dict.get?_eq_none_iff] at found
      rw [h.membersOf_eq_nil found]
      exact ⟨_, rfl⟩
    | some group =>
      have mem := Dict.get?_eq_some_iff.mp found
      refine ⟨group.num, ?_⟩
      rw [Option.getD_some, ← h.members _ mem, ← h.resource _ mem]
      have named := h.named _ mem
      simp only at named
      rw [← named]
  rcases before with ⟨num, before⟩
  have entry : ∀ e ∈ (addToGroup groups name workload).items,
      e = (workload.groupName name, ⟨workload.groupName name, num,
          (membersOf (workloads ++ [(name, workload)]) (workload.groupName name)).map Prod.fst,
          resourceOf (membersOf (workloads ++ [(name, workload)]) (workload.groupName name))⟩) ∨
        workload.groupName name ≠ e.1 ∧ e ∈ groups.items := by
    rintro ⟨key, group⟩ mem
    rw [addToGroup, before] at mem
    rcases Dict.mem_items_insert.mp mem with ⟨rfl, rfl⟩ | ⟨ne, old⟩
    · left
      rw [membersOf_concat, if_pos rfl, List.map_append, resourceOf_concat]
      rfl
    · exact .inr ⟨ne.symm, old⟩
  refine ⟨fun e mem ↦ ?_, fun e mem ↦ ?_, fun e mem ↦ ?_, fun e mem ↦ ?_⟩
  · rcases entry e mem with rfl | ⟨-, old⟩
    · rfl
    · exact h.named e old
  · rcases entry e mem with rfl | ⟨ne, old⟩
    · rfl
    · rw [membersOf_concat, if_neg ne, List.append_nil]
      exact h.members e old
  · rcases entry e mem with rfl | ⟨ne, old⟩
    · rfl
    · rw [membersOf_concat, if_neg ne, List.append_nil]
      exact h.resource e old
  · rw [addToGroup, Dict.mem_insert]
    rcases List.mem_append.mp mem with old | new
    · exact .inr (h.covers e old)
    · rw [List.mem_singleton.mp new]
      exact .inl rfl

theorem groupsOf_foldl (workloads : List (String × WorkloadDesc)) :
    GroupsOf workloads (workloads.foldl (fun groups e ↦ addToGroup groups e.1 e.2) .empty) := by
  induction workloads using List.reverseRecOn with
  | nil =>
    refine ⟨fun e mem ↦ ?_, fun e mem ↦ ?_, fun e mem ↦ ?_, fun e mem ↦ ?_⟩
    all_goals exact absurd mem List.not_mem_nil
  | append_singleton workloads e ih =>
    rw [List.foldl_append]
    exact ih.add e.1 e.2

/-- The groups of an accepted configuration. -/
structure IsGrouping (c : DLConfig) (groups : List WorkloadGroup) : Prop where
  names : (groups.map WorkloadGroup.name).Nodup
  members : ∀ group ∈ groups, group.workloads =
    (membersOf c.workloads.items group.name).map Prod.fst
  resource : ∀ group ∈ groups, group.resource = resourceOf (membersOf c.workloads.items group.name)
  covers : ∀ e ∈ c.workloads.items, ∃ group ∈ groups, group.name = e.2.groupName e.1
  total : ∀ group ∈ groups, ∀ e ∈ membersOf c.workloads.items group.name,
    e.2.total = group.num * e.2.perGroup

theorem isGrouping {c : DLConfig} {groups : List WorkloadGroup}
    (h : c.workloadGroup = some groups) : c.IsGrouping groups := by
  have built : GroupsOf c.workloads.items c.groups := groupsOf_foldl c.workloads.items
  have of_value : ∀ group ∈ c.groups.values, (group.name, group) ∈ c.groups.items := by
    intro group mem
    rcases List.mem_map.mp mem with ⟨e, listed, rfl⟩
    rw [built.named e listed]
    exact listed
  unfold workloadGroup at h
  split at h
  · next consistent =>
    cases h
    refine ⟨?_, fun group mem ↦ built.members _ (of_value group mem),
      fun group mem ↦ built.resource _ (of_value group mem), fun e mem ↦ ?_,
      fun group mem e he ↦ ?_⟩
    · rw [Dict.values, List.map_map]
      have keys : c.groups.items.map (WorkloadGroup.name ∘ Prod.snd) = c.groups.keys :=
        List.map_congr_left built.named
      rw [keys]
      exact Dict.keys_nodup _
    · rcases Dict.mem_iff.mp (built.covers e mem) with ⟨group, mem⟩
      exact ⟨group, List.mem_map_of_mem mem, built.named _ mem⟩
    · have test := List.all_eq_true.mp (List.all_eq_true.mp consistent group mem)
      have listed : e.1 ∈ group.workloads := by
        rw [built.members _ (of_value group mem)]
        exact List.mem_map_of_mem he
      have found : c.workloads.get? e.1 = some e.2 :=
        Dict.get?_eq_some_iff.mpr (List.mem_filter.mp he).1
      simpa [DLConfig.consistent, found] using test e.1 listed
  · contradiction

end DLConfig

end ProbingBaselines.Dlrover
