import Mathlib.Algebra.BigOperators.Group.List.Basic
import Mathlib.Tactic.Ring
import ProbingBaselines.Lib.Decimal
import ProbingBaselines.Dlrover.WorkloadGraph

/-!
# The bundles of the workers

`Scheduler.allocate_placement_group` (`unified/controller/schedule/scheduler.py:53-78`) asks for one
bundle for each instance of a group and gives each worker the number of its bundle. Group sizes,
bundle numbers and ranks come from the same totals. The names of the vertices
(`graph.py:148-186`) are the keys of `by_name`.
-/

namespace ProbingBaselines.Dlrover

open Lib

namespace DLWorkloadRole

/-- The workers of the role are given their bundles, from the number of the group's first one on. -/
def placed (start : Nat) (role : DLWorkloadRole) : DLWorkloadRole :=
  { role with instances := role.instances.map fun v ↦
      { v with bundleIndex := (start + v.rank / role.spec.perGroup : Nat) } }

/-- `DLExecutionWorkerVertex.name` (`graph.py:148-153`). -/
def workerName (role : DLWorkloadRole) (v : WorkerVertex) : String :=
  role.name ++ "_" ++ toString v.worldSize ++ "-" ++ toString v.rank ++ "_" ++
    toString v.localWorldSize ++ "-" ++ toString v.localRank

/-- `DLExecutionMasterVertex.name` (`graph.py:177-179`). -/
def masterName (role : DLWorkloadRole) : String := role.name ++ "-master"

end DLWorkloadRole

namespace DLExecutionGraph

/-- The keys of `by_name`, in the order of the vertices (`graph.py:284-292`). -/
def vertexNames (g : DLExecutionGraph) : List String :=
  g.roles.values.flatMap (fun role ↦ role.instances.map role.workerName) ++
    (g.roles.values.filter DLWorkloadRole.subMaster).map DLWorkloadRole.masterName

/-- `worker.bundle_index = ...` for the workers of a workload; `none` for a `KeyError`. -/
def placeRole (start : Nat) (g : DLExecutionGraph) (workload : String) : Option DLExecutionGraph :=
  (g.roles.get? workload).map fun role ↦ ⟨g.roles.insert workload (role.placed start)⟩

/-- One pass of the loop over the groups, with the bundles so far. -/
def placeGroup (s : DLExecutionGraph × List ResourceDesc) (group : WorkloadGroup) :
    Option (DLExecutionGraph × List ResourceDesc) :=
  (group.workloads.foldlM (placeRole s.2.length) s.1).map fun g ↦
    (g, s.2 ++ List.replicate group.num group.resource)

/-- `allocate_placement_group`, up to the bundles that it asks for. -/
def allocatePlacementGroup (c : DLConfig) (g : DLExecutionGraph) :
    Option (DLExecutionGraph × List ResourceDesc) :=
  c.workloadGroup.bind fun groups ↦ groups.foldlM placeGroup (g, [])

end DLExecutionGraph

/-! ### The loops -/

namespace DLWorkloadRole

@[simp]
theorem placed_placed (start start' : Nat) (role : DLWorkloadRole) :
    (role.placed start').placed start = role.placed start := by
  simp [placed, Function.comp_def]

end DLWorkloadRole

namespace DLExecutionGraph

/-- The number of a group's first bundle. -/
def startOf (groups : List WorkloadGroup) (k : Nat) : Nat :=
  ((groups.take k).map WorkloadGroup.num).sum

/-- The bundles of the groups. -/
def bundlesOf (groups : List WorkloadGroup) : List ResourceDesc :=
  groups.flatMap fun group ↦ List.replicate group.num group.resource

variable {g g' : DLExecutionGraph} {name : String}

theorem placeRoles_spec (start : Nat) {workloads : List String}
    (known : ∀ name ∈ workloads, name ∈ g.roles) :
    ∃ g', workloads.foldlM (placeRole start) g = some g' ∧ g'.roles.keys = g.roles.keys ∧
      ∀ name, g'.roles.get? name =
        (g.roles.get? name).map fun role ↦
          if name ∈ workloads then role.placed start else role := by
  induction workloads generalizing g with
  | nil => exact ⟨g, rfl, rfl, fun name ↦ by simp⟩
  | cons first workloads ih =>
    rcases Dict.mem_iff.mp (known first List.mem_cons_self) with ⟨role, mem⟩
    have found := Dict.get?_eq_some_iff.mpr mem
    have keys := Dict.keys_insert_of_mem (role.placed start) (Dict.mem_of_mem_items mem)
    rcases ih (g := ⟨g.roles.insert first (role.placed start)⟩) (fun name hn ↦ by
        rw [Dict.mem_insert]
        exact .inr (known name (List.mem_cons_of_mem _ hn))) with ⟨g', run, keys', get⟩
    refine ⟨g', ?_, keys'.trans keys, fun name ↦ ?_⟩
    · rw [List.foldlM_cons, placeRole, found]
      exact run
    · rw [get, Dict.get?_insert]
      by_cases same : name = first
      · subst same
        by_cases again : name ∈ workloads <;> simp [found, again]
      · simp [same]

theorem placeGroup_spec (bundles : List ResourceDesc) {group : WorkloadGroup}
    (known : ∀ name ∈ group.workloads, name ∈ g.roles) :
    ∃ g', placeGroup (g, bundles) group =
        some (g', bundles ++ List.replicate group.num group.resource) ∧
      g'.roles.keys = g.roles.keys ∧
      ∀ name, g'.roles.get? name = (g.roles.get? name).map fun role ↦
        if name ∈ group.workloads then role.placed bundles.length else role := by
  rcases placeRoles_spec bundles.length known with ⟨g', run, keys, get⟩
  exact ⟨g', by rw [placeGroup, run, Option.map_some], keys, get⟩

/-- Each role is placed where its group starts. -/
theorem placeGroups_spec {groups : List WorkloadGroup} (bundles : List ResourceDesc)
    (known : ∀ group ∈ groups, ∀ name ∈ group.workloads, name ∈ g.roles)
    (apart : groups.Pairwise fun a b ↦ ∀ name ∈ a.workloads, name ∉ b.workloads) :
    ∃ g', groups.foldlM placeGroup (g, bundles) = some (g', bundles ++ bundlesOf groups) ∧
      g'.roles.keys = g.roles.keys ∧
      (∀ name, (∀ group ∈ groups, name ∉ group.workloads) →
        g'.roles.get? name = g.roles.get? name) ∧
      ∀ k group, groups[k]? = some group → ∀ name ∈ group.workloads,
        g'.roles.get? name =
          (g.roles.get? name).map (DLWorkloadRole.placed (bundles.length + startOf groups k)) := by
  induction groups generalizing g bundles with
  | nil => exact ⟨g, by simp [bundlesOf], rfl, fun _ _ ↦ rfl, fun k group at_k ↦ by simp at at_k⟩
  | cons first groups ih =>
    rcases placeGroup_spec bundles (known first List.mem_cons_self) with
      ⟨g₁, run₁, keys₁, get₁⟩
    have kept : ∀ name, name ∈ g.roles → name ∈ g₁.roles := by
      intro name mem
      rwa [Dict.mem_def, keys₁]
    rcases ih (g := g₁) (bundles ++ List.replicate first.num first.resource)
        (fun group hg name hn ↦ kept name (known group (List.mem_cons_of_mem _ hg) name hn))
        (List.pairwise_cons.mp apart).2 with ⟨g', run, keys, others, get⟩
    refine ⟨g', ?_, keys.trans keys₁, fun name out ↦ ?_, fun k group at_k name mem ↦ ?_⟩
    · rw [List.foldlM_cons, run₁]
      simpa [bundlesOf] using run
    · rw [others name fun group hg ↦ out group (List.mem_cons_of_mem _ hg), get₁]
      simp [out first List.mem_cons_self]
    · cases k with
      | zero =>
        cases Option.some.inj at_k
        rw [others name fun group hg ↦ (List.pairwise_cons.mp apart).1 group hg name mem, get₁]
        simp [startOf, mem]
      | succ k =>
        rw [List.getElem?_cons_succ] at at_k
        rw [get k group at_k name mem, get₁, Option.map_map]
        have start : (bundles ++ List.replicate first.num first.resource).length +
            startOf groups k = bundles.length + startOf (first :: groups) (k + 1) := by
          simp [startOf, Nat.add_assoc]
        rw [start]
        congr 1
        funext role
        by_cases again : name ∈ first.workloads <;> simp [again]

/-! ### The blocks of the groups -/

section

variable {groups : List WorkloadGroup} {k : Nat} {group : WorkloadGroup}

@[simp]
theorem startOf_cons_succ (first : WorkloadGroup) (groups : List WorkloadGroup) (k : Nat) :
    startOf (first :: groups) (k + 1) = first.num + startOf groups k := by
  simp [startOf]

@[simp]
theorem startOf_zero (groups : List WorkloadGroup) : startOf groups 0 = 0 := rfl

theorem bundlesOf_cons (first : WorkloadGroup) (groups : List WorkloadGroup) :
    bundlesOf (first :: groups) = List.replicate first.num first.resource ++ bundlesOf groups := rfl

/-- The blocks of bundles follow each other. -/
theorem block_le {k' : Nat} (at_k : groups[k]? = some group) (lt : k < k') :
    startOf groups k + group.num ≤ startOf groups k' := by
  induction groups generalizing k k' with
  | nil => simp at at_k
  | cons first groups ih =>
    obtain ⟨k', rfl⟩ : ∃ n, k' = n + 1 := ⟨k' - 1, by omega⟩
    cases k with
    | zero =>
      cases Option.some.inj at_k
      simp
    | succ k =>
      rw [List.getElem?_cons_succ] at at_k
      have := ih at_k (Nat.lt_of_succ_lt_succ lt)
      simp only [startOf_cons_succ]
      omega

theorem bundle_at (at_k : groups[k]? = some group) {j : Nat} (lt : j < group.num) :
    (bundlesOf groups)[startOf groups k + j]? = some group.resource := by
  induction groups generalizing k with
  | nil => simp at at_k
  | cons first groups ih =>
    cases k with
    | zero =>
      cases Option.some.inj at_k
      rw [bundlesOf_cons, List.getElem?_append_left (by simpa using lt)]
      simp [lt]
    | succ k =>
      rw [List.getElem?_cons_succ] at at_k
      rw [bundlesOf_cons, startOf_cons_succ, Nat.add_assoc, List.getElem?_append_right (by simp)]
      simpa using ih at_k

/-- Every bundle is in a block. -/
theorem exists_block {b : Nat} (lt : b < (bundlesOf groups).length) :
    ∃ k group j, groups[k]? = some group ∧ j < group.num ∧ b = startOf groups k + j := by
  induction groups generalizing b with
  | nil => simp [bundlesOf] at lt
  | cons first groups ih =>
    rw [bundlesOf_cons, List.length_append, List.length_replicate] at lt
    by_cases here : b < first.num
    · exact ⟨0, first, b, rfl, here, by simp⟩
    · rcases ih (b := b - first.num) (by omega) with ⟨k, group, j, at_k, hj, eq⟩
      refine ⟨k + 1, group, j, by simpa using at_k, hj, ?_⟩
      rw [startOf_cons_succ]
      omega

end

end DLExecutionGraph

/-! ### The workers of a bundle -/

theorem filter_range_div {n p j : Nat} (pos : 0 < p) :
    (List.range (n * p)).filter (fun i ↦ i / p = j) =
      if j < n then (List.range p).map (j * p + ·) else [] := by
  split
  · next lt =>
    have split : n * p = j * p + (p + (n - j - 1) * p) := by
      obtain ⟨m, rfl⟩ : ∃ m, n = j + 1 + m := ⟨n - j - 1, by omega⟩
      have rest : j + 1 + m - j - 1 = m := by omega
      rw [rest]
      ring
    have before : (List.range (j * p)).filter (fun i ↦ i / p = j) = [] := by
      rw [List.filter_eq_nil_iff]
      intro i hi
      have := (Nat.div_lt_iff_lt_mul pos).mpr (List.mem_range.mp hi)
      rw [decide_eq_true_eq]
      omega
    have here : ((List.range p).map (j * p + ·)).filter (fun i ↦ i / p = j) =
        (List.range p).map (j * p + ·) := by
      rw [List.filter_eq_self]
      intro i hi
      rcases List.mem_map.mp hi with ⟨t, ht, rfl⟩
      rw [decide_eq_true_eq, Nat.mul_comm j, Nat.mul_add_div pos,
        Nat.div_eq_of_lt (List.mem_range.mp ht), Nat.add_zero]
    have later : (((List.range ((n - j - 1) * p)).map (p + ·)).map (j * p + ·)).filter
        (fun i ↦ i / p = j) = [] := by
      rw [List.filter_eq_nil_iff]
      intro i hi
      rcases List.mem_map.mp hi with ⟨t, ht, rfl⟩
      rcases List.mem_map.mp ht with ⟨u, -, rfl⟩
      rw [decide_eq_true_eq, Nat.mul_comm j, Nat.mul_add_div pos, Nat.add_div_left u pos]
      exact (Nat.lt_add_of_pos_right (Nat.succ_pos _)).ne'
    rw [split, List.range_add, List.range_add, List.filter_append, List.map_append,
      List.filter_append, before, here, later, List.nil_append, List.append_nil]
  · next ge =>
    rw [List.filter_eq_nil_iff]
    intro i hi
    have := (Nat.div_lt_iff_lt_mul pos).mpr (List.mem_range.mp hi)
    rw [decide_eq_true_eq]
    omega

namespace DLWorkloadRole

/-- The workers of a role in a bundle. -/
def workersIn (role : DLWorkloadRole) (b : Nat) : List WorkerVertex :=
  role.instances.filter fun v ↦ v.bundleIndex = (b : Int)

/-- The worker of a rank, in a bundle. -/
def workerAt (w : WorkloadDesc) (b i : Nat) : WorkerVertex :=
  { newWorker w w.total i with bundleIndex := b }

variable (name : String) (w : WorkloadDesc) (start b : Nat)

/-- The workers of a role whose group starts at `start`, in bundle `b`. -/
theorem workersIn_placed :
    ((init name w w.total).placed start).workersIn b =
      if start ≤ b ∧ b < start + w.total / w.perGroup then
        (List.range w.perGroup).map fun t ↦ workerAt w b ((b - start) * w.perGroup + t)
      else [] := by
  have ranks : ((init name w w.total).placed start).workersIn b =
      ((List.range (w.total / w.perGroup * w.perGroup)).filter
        fun i ↦ start + i / w.perGroup = b).map fun i ↦ workerAt w (start + i / w.perGroup) i := by
    rw [← w.total_eq]
    simp only [workersIn, placed, init, List.filter_map, List.map_map]
    congr 1
    apply List.filter_congr
    intro i _
    simp only [Function.comp_apply, newWorker, Nat.cast_inj]
  rw [ranks]
  by_cases le : start ≤ b
  · have shift : ∀ i ∈ List.range (w.total / w.perGroup * w.perGroup),
        decide (start + i / w.perGroup = b) = decide (i / w.perGroup = b - start) := by
      intro i _
      congr 1
      rw [eq_iff_iff]
      constructor <;> intro eq <;> omega
    rw [List.filter_congr shift, filter_range_div w.perGroup_pos]
    by_cases lt : b < start + w.total / w.perGroup
    · rw [if_pos (by omega), if_pos ⟨le, lt⟩, List.map_map]
      apply List.map_congr_left
      intro t ht
      have quotient : ((b - start) * w.perGroup + t) / w.perGroup = b - start := by
        rw [Nat.mul_comm, Nat.mul_add_div w.perGroup_pos, Nat.div_eq_of_lt (List.mem_range.mp ht),
          Nat.add_zero]
      rw [Function.comp_apply, quotient, Nat.add_sub_cancel' le]
    · rw [if_neg (by omega), if_neg fun h ↦ lt h.2, List.map_nil]
  · rw [if_neg fun h ↦ le h.1, List.map_eq_nil_iff, List.filter_eq_nil_iff]
    intro i _
    rw [decide_eq_true_eq]
    intro eq
    exact le (eq ▸ Nat.le_add_right _ _)

/-- Their local ranks and their node rank. -/
theorem ranks_of_bundle {j t : Nat} (lt : t < w.perGroup) :
    (workerAt w b (j * w.perGroup + t)).localRank = t ∧
      (workerAt w b (j * w.perGroup + t)).nodeRank = j := by
  constructor
  · change (j * w.perGroup + t) % w.perGroup = t
    rw [Nat.mul_add_mod_of_lt lt]
  · change (j * w.perGroup + t) / w.perGroup = j
    rw [Nat.mul_comm, Nat.mul_add_div w.perGroup_pos, Nat.div_eq_of_lt lt, Nat.add_zero]

end DLWorkloadRole

namespace DLExecutionGraph

/-- The resources of the workers in a bundle, summed up. -/
def resourceIn (g : DLExecutionGraph) (b : Nat) : ResourceDesc :=
  (g.roles.values.flatMap fun role ↦ (role.workersIn b).map fun _ ↦ role.spec.resource).foldl
    ResourceDesc.add .empty

/-- The workers fill the bundles that the groups ask for. -/
structure FillsBundles (c : DLConfig) (groups : List WorkloadGroup) (g : DLExecutionGraph) :
    Prop where
  roles : g.roles.keys = c.workloads.keys
  grouped : ∀ name ∈ g.roles, ∃ (k : Nat) (group : WorkloadGroup), groups[k]? = some group ∧
    name ∈ group.workloads
  inBlock : ∀ k group, groups[k]? = some group → ∀ name ∈ group.workloads, ∀ role,
    g.roles.get? name = some role → ∀ v ∈ role.instances,
      (startOf groups k : Int) ≤ v.bundleIndex ∧ v.bundleIndex < startOf groups k + group.num
  ranks : ∀ k group, groups[k]? = some group → ∀ j < group.num, ∀ name ∈ group.workloads, ∀ role,
    g.roles.get? name = some role →
      (role.workersIn (startOf groups k + j)).map WorkerVertex.localRank =
        List.range role.spec.perGroup ∧
      ∀ v ∈ role.workersIn (startOf groups k + j), v.nodeRank = j
  resource : ∀ b < (bundlesOf groups).length, (bundlesOf groups)[b]? = some (g.resourceIn b)
  disjoint : ∀ k group k', groups[k]? = some group → k < k' →
    startOf groups k + group.num ≤ startOf groups k'

section

variable {c : DLConfig} {groups : List WorkloadGroup}

theorem items_create (c : DLConfig) :
    (create c).roles.items = c.workloads.items.map fun e ↦ (e.1, .init e.1 e.2 e.2.total) := by
  apply Dict.items_ofItems
  rw [List.map_map]
  exact c.workloads.nodup

theorem get?_create {name : String} {w : WorkloadDesc} (h : c.workloads.get? name = some w) :
    (create c).roles.get? name = some (.init name w w.total) := by
  rw [Dict.get?_eq_some_iff, items_create]
  exact List.mem_map.mpr ⟨(name, w), Dict.get?_eq_some_iff.mp h, rfl⟩

theorem keys_create (c : DLConfig) : (create c).roles.keys = c.workloads.keys := by
  rw [Dict.keys, items_create, List.map_map]
  rfl

/-- The workload of a name in a group. -/
theorem exists_workload (grouping : c.IsGrouping groups) {group : WorkloadGroup}
    (mem : group ∈ groups) {name : String} (hn : name ∈ group.workloads) :
    ∃ w, c.workloads.get? name = some w ∧ w.groupName name = group.name ∧
      w.total / w.perGroup = group.num := by
  rw [grouping.members group mem] at hn
  rcases List.mem_map.mp hn with ⟨e, he, rfl⟩
  have total := grouping.total group mem e he
  rcases List.mem_filter.mp he with ⟨listed, same⟩
  exact ⟨e.2, Dict.get?_eq_some_iff.mpr listed, of_decide_eq_true same,
    by rw [total, Nat.mul_div_cancel _ e.2.perGroup_pos]⟩

theorem groups_apart (grouping : c.IsGrouping groups) :
    groups.Pairwise fun a b ↦ ∀ name ∈ a.workloads, name ∉ b.workloads := by
  refine (List.pairwise_map.mp grouping.names).imp_of_mem fun ha hb ne name left right ↦ ?_
  rcases exists_workload grouping ha left with ⟨w, found, nameA, -⟩
  rcases exists_workload grouping hb right with ⟨w', found', nameB, -⟩
  cases Option.some.inj (found.symm.trans found')
  exact ne (nameA.symm.trans nameB)

theorem foldl_replicate (r x : ResourceDesc) (n : Nat) :
    (List.replicate n x).foldl ResourceDesc.add r = (fun r ↦ r.add x)^[n] r := by
  induction n generalizing r with
  | zero => rfl
  | succ n ih => rw [List.replicate_succ, List.foldl_cons, ih, Function.iterate_succ_apply]

/-- Summing over the workers of all roles is summing over the workloads of the group. -/
theorem foldl_workers {workloads : List (String × WorkloadDesc)} {groupName : String}
    {workers : String × WorkloadDesc → List WorkerVertex} (r : ResourceDesc)
    (h : ∀ e ∈ workloads, (workers e).length =
      if e.2.groupName e.1 = groupName then e.2.perGroup else 0) :
    (workloads.flatMap fun e ↦ (workers e).map fun _ ↦ e.2.resource).foldl ResourceDesc.add r =
      (DLConfig.membersOf workloads groupName).foldl
        (fun r e ↦ (fun r ↦ r.add e.2.resource)^[e.2.perGroup] r) r := by
  induction workloads generalizing r with
  | nil => rfl
  | cons e workloads ih =>
    have rest := fun r ↦ ih r fun e he ↦ h e (List.mem_cons_of_mem _ he)
    have first := h e List.mem_cons_self
    rw [List.flatMap_cons, List.foldl_append, List.map_const', foldl_replicate, rest, first,
      DLConfig.membersOf, DLConfig.membersOf]
    by_cases same : e.2.groupName e.1 = groupName
    · rw [List.filter_cons_of_pos (by simpa using same), List.foldl_cons, if_pos same]
    · rw [List.filter_cons_of_neg (by simpa using same), if_neg same]
      rfl

/-- Every workload is in a group. -/
theorem exists_group (grouping : c.IsGrouping groups) {name : String} {w : WorkloadDesc}
    (found : c.workloads.get? name = some w) : ∃ (k : Nat) (group : WorkloadGroup),
      groups[k]? = some group ∧ group.name = w.groupName name ∧ name ∈ group.workloads := by
  have mem := Dict.get?_eq_some_iff.mp found
  rcases grouping.covers _ mem with ⟨group, listed, same⟩
  rcases List.mem_iff_getElem?.mp listed with ⟨k, at_k⟩
  refine ⟨k, group, at_k, same, ?_⟩
  rw [grouping.members group listed]
  exact List.mem_map.mpr ⟨(name, w), List.mem_filter.mpr ⟨mem, decide_eq_true same.symm⟩, rfl⟩

theorem names_ne (grouping : c.IsGrouping groups) {k k' : Nat} {group group' : WorkloadGroup}
    (at_k : groups[k]? = some group) (at_k' : groups[k']? = some group') (ne : k' ≠ k) :
    group'.name ≠ group.name := by
  intro same
  have lt : k' < (groups.map WorkloadGroup.name).length := by
    rw [List.length_map]
    exact (List.getElem?_eq_some_iff.mp at_k').1
  apply ne
  rw [← List.getElem?_inj lt grouping.names]
  rw [List.getElem?_map, List.getElem?_map, at_k, at_k', Option.map_some, Option.map_some, same]

/-- What the loops make of the roles. -/
structure PlacedIn (c : DLConfig) (groups : List WorkloadGroup) (g : DLExecutionGraph) : Prop where
  keys : g.roles.keys = c.workloads.keys
  role : ∀ (k : Nat) (group : WorkloadGroup), groups[k]? = some group → ∀ name ∈ group.workloads,
    ∀ w, c.workloads.get? name = some w →
      g.roles.get? name = some ((DLWorkloadRole.init name w w.total).placed (startOf groups k))

theorem allocate_create (grouping : c.IsGrouping groups)
    (accepted : c.workloadGroup = some groups) :
    ∃ g, allocatePlacementGroup c (create c) = some (g, bundlesOf groups) ∧
      g.PlacedIn c groups := by
  have known : ∀ group ∈ groups, ∀ name ∈ group.workloads, name ∈ (create c).roles := by
    intro group mem name hn
    rcases exists_workload grouping mem hn with ⟨w, found, -, -⟩
    exact Dict.mem_of_mem_items (Dict.get?_eq_some_iff.mp (get?_create found))
  rcases placeGroups_spec [] known (groups_apart grouping) with
    ⟨g, run, keys, -, get⟩
  refine ⟨g, ?_, keys.trans (keys_create c), fun k group at_k name hn w found ↦ ?_⟩
  · rw [allocatePlacementGroup, accepted, Option.bind_some, run, List.nil_append]
  · rw [get k group at_k name hn, get?_create found, Option.map_some, List.length_nil, Nat.zero_add]

/-- The role of a workload. -/
def roleOf (g : DLExecutionGraph) (e : String × WorkloadDesc) : DLWorkloadRole :=
  (g.roles.get? e.1).getD (.init e.1 e.2 e.2.total)

namespace PlacedIn

variable {g : DLExecutionGraph}

/-- The role of a workload in a group, with what is known of the workload. -/
theorem exists_role (placed : g.PlacedIn c groups) (grouping : c.IsGrouping groups) {k : Nat}
    {group : WorkloadGroup} (at_k : groups[k]? = some group) {name : String}
    (hn : name ∈ group.workloads) {role : DLWorkloadRole} (found : g.roles.get? name = some role) :
    ∃ w : WorkloadDesc, w.total / w.perGroup = group.num ∧
      role = (DLWorkloadRole.init name w w.total).placed (startOf groups k) := by
  rcases exists_workload grouping (List.mem_of_getElem? at_k) hn with ⟨w, hw, -, num⟩
  rw [placed.role k group at_k name hn w hw] at found
  exact ⟨w, num, (Option.some.inj found).symm⟩

theorem get?_roleOf (placed : g.PlacedIn c groups) {e : String × WorkloadDesc}
    (he : e ∈ c.workloads.items) : g.roles.get? e.1 = some (g.roleOf e) := by
  have known : e.1 ∈ g.roles := by
    rw [Dict.mem_def, placed.keys]
    exact List.mem_map_of_mem he
  rcases Dict.mem_iff.mp known with ⟨role, mem⟩
  rw [roleOf, Dict.get?_eq_some_iff.mpr mem, Option.getD_some]

theorem values (placed : g.PlacedIn c groups) :
    g.roles.values = c.workloads.items.map g.roleOf := by
  have items := Dict.items_eq_map_items (f := fun name w ↦ g.roleOf (name, w)) placed.keys
    fun e he ↦ placed.get?_roleOf he
  rw [Dict.values, items, List.map_map]
  rfl

/-- A bundle has workers of the workloads of its group only. -/
theorem roleOf_bundle (placed : g.PlacedIn c groups) (grouping : c.IsGrouping groups) {k : Nat}
    {group : WorkloadGroup} (at_k : groups[k]? = some group) {j : Nat} (lt : j < group.num)
    {e : String × WorkloadDesc} (he : e ∈ c.workloads.items) :
    (g.roleOf e).spec = e.2 ∧ ((g.roleOf e).workersIn (startOf groups k + j)).length =
      if e.2.groupName e.1 = group.name then e.2.perGroup else 0 := by
  have found : c.workloads.get? e.1 = some e.2 := Dict.get?_eq_some_iff.mpr he
  rcases exists_group grouping found with ⟨k', group', at_k', name', hn⟩
  have role := (placed.get?_roleOf he).symm.trans (placed.role k' group' at_k' e.1 hn e.2 found)
  rcases exists_workload grouping (List.mem_of_getElem? at_k') hn with ⟨w, hw, -, num⟩
  cases Option.some.inj (hw.symm.trans found)
  rw [Option.some.inj role, DLWorkloadRole.workersIn_placed, num, ← name']
  refine ⟨rfl, ?_⟩
  by_cases same : k' = k
  · subst same
    cases Option.some.inj (at_k'.symm.trans at_k)
    rw [if_pos (by omega), if_pos rfl, List.length_map, List.length_range]
  · have away : ¬(startOf groups k' ≤ startOf groups k + j ∧
        startOf groups k + j < startOf groups k' + group'.num) := by
      rcases Nat.lt_or_gt_of_ne same with before | after
      · have := block_le at_k' before
        omega
      · have := block_le at_k after
        omega
    rw [if_neg away, if_neg (names_ne grouping at_k at_k' same)]
    rfl

theorem fillsBundles (placed : g.PlacedIn c groups) (grouping : c.IsGrouping groups) :
    g.FillsBundles c groups where
  roles := placed.keys
  grouped name hn := by
    have known : name ∈ c.workloads := by rwa [Dict.mem_def, ← placed.keys]
    rcases Dict.mem_iff.mp known with ⟨w, mem⟩
    rcases exists_group grouping (Dict.get?_eq_some_iff.mpr mem) with ⟨k, group, at_k, -, hn⟩
    exact ⟨k, group, at_k, hn⟩
  disjoint k group k' at_k lt := block_le at_k lt
  inBlock k group at_k name hn role found v hv := by
    rcases placed.exists_role grouping at_k hn found with ⟨w, num, rfl⟩
    rcases List.mem_map.mp hv with ⟨u, hu, rfl⟩
    rcases List.mem_map.mp hu with ⟨i, hi, rfl⟩
    have lt : i / w.perGroup < group.num := by
      rw [← num, Nat.div_lt_iff_lt_mul w.perGroup_pos, ← w.total_eq]
      exact List.mem_range.mp hi
    constructor
    · exact Int.ofNat_le.mpr (Nat.le_add_right _ _)
    · exact Int.ofNat_lt.mpr (Nat.add_lt_add_left lt _)
  ranks k group at_k j lt name hn role found := by
    rcases placed.exists_role grouping at_k hn found with ⟨w, num, rfl⟩
    rw [DLWorkloadRole.workersIn_placed, if_pos (by omega), Nat.add_sub_cancel_left]
    constructor
    · rw [List.map_map]
      refine (List.map_congr_left fun t ht ↦ ?_).trans (List.map_id _)
      exact (DLWorkloadRole.ranks_of_bundle w _ (List.mem_range.mp ht)).1
    · intro v hv
      rcases List.mem_map.mp hv with ⟨t, ht, rfl⟩
      exact (DLWorkloadRole.ranks_of_bundle w _ (List.mem_range.mp ht)).2
  resource b lt := by
    rcases exists_block lt with ⟨k, group, j, at_k, hj, rfl⟩
    rw [bundle_at at_k hj, grouping.resource group (List.mem_of_getElem? at_k), resourceIn,
      placed.values, List.flatMap_map]
    have here := fun e he ↦ placed.roleOf_bundle grouping at_k hj (e := e) he
    have resources : ∀ e ∈ c.workloads.items,
        ((g.roleOf e).workersIn (startOf groups k + j)).map
          (fun _ ↦ (g.roleOf e).spec.resource) =
        ((g.roleOf e).workersIn (startOf groups k + j)).map fun _ ↦ e.2.resource := by
      intro e he
      rw [(here e he).1]
    rw [List.flatMap_congr resources, foldl_workers .empty fun e he ↦ (here e he).2]
    rfl

end PlacedIn

/-! ### The names of the vertices -/

theorem workerName_toList (role : DLWorkloadRole) (v : WorkerVertex) :
    (role.workerName v).toList =
      (((role.name.toList ++ '_' :: (toString v.worldSize).toList) ++
        '-' :: (toString v.rank).toList) ++ '_' :: (toString v.localWorldSize).toList) ++
        '-' :: (toString v.localRank).toList := by
  simp [DLWorkloadRole.workerName]

theorem workerName_inj {role role' : DLWorkloadRole} {v v' : WorkerVertex}
    (same : role.workerName v = role'.workerName v') :
    role.name = role'.name ∧ v.rank = v'.rank := by
  have chars := congrArg String.toList same
  rw [workerName_toList, workerName_toList] at chars
  rcases number_inj (by decide) chars with ⟨chars, -⟩
  rcases number_inj (by decide) chars with ⟨chars, -⟩
  rcases number_inj (by decide) chars with ⟨chars, rank⟩
  rcases number_inj (by decide) chars with ⟨chars, -⟩
  exact ⟨String.toList_inj.mp chars, rank⟩

theorem masterName_inj {role role' : DLWorkloadRole}
    (same : role.masterName = role'.masterName) : role.name = role'.name := by
  have chars := congrArg String.toList same
  simp only [DLWorkloadRole.masterName, String.toList_append] at chars
  exact String.toList_inj.mp (List.append_cancel_right chars)

/-- A worker's name ends with a number. -/
theorem workerName_ne_masterName (role role' : DLWorkloadRole) (v : WorkerVertex) :
    role.workerName v ≠ role'.masterName := by
  intro same
  have chars := congrArg String.toList same
  have master : role'.masterName.toList = role'.name.toList ++ '-' :: "master".toList := by
    simp [DLWorkloadRole.masterName]
  rw [workerName_toList, master] at chars
  have digits := (append_cons_inj (not_mem_toString (by decide) v.localRank) (by decide) chars).2
  exact not_mem_toString (c := 'm') (by decide) v.localRank (digits ▸ by decide)

theorem nodup_vertexNames (c : DLConfig) : (create c).vertexNames.Nodup := by
  have roles : ((create c).roles.values.map DLWorkloadRole.name).Nodup := by
    rw [Dict.values, items_create, List.map_map, List.map_map]
    exact c.workloads.nodup
  have ranks : ∀ role ∈ (create c).roles.values, (role.instances.map role.workerName).Nodup := by
    intro role mem
    rw [Dict.values, items_create, List.map_map] at mem
    rcases List.mem_map.mp mem with ⟨e, -, rfl⟩
    simp only [Function.comp_apply, DLWorkloadRole.init, List.map_map]
    refine List.nodup_range.map fun i i' same ↦ ?_
    exact (workerName_inj same).2
  have apart : (create c).roles.values.Pairwise fun a b ↦
      (a.instances.map a.workerName).Disjoint (b.instances.map b.workerName) := by
    refine (List.pairwise_map.mp roles).imp fun ne name left right ↦ ?_
    rcases List.mem_map.mp left with ⟨v, -, rfl⟩
    rcases List.mem_map.mp right with ⟨v', -, same⟩
    exact ne (workerName_inj same).1.symm
  have masters : (((create c).roles.values.filter DLWorkloadRole.subMaster).map
      DLWorkloadRole.masterName).Nodup := by
    rw [List.Nodup, List.pairwise_map]
    exact ((List.pairwise_map.mp roles).filter _).imp fun ne same ↦ ne (masterName_inj same)
  rw [vertexNames, List.nodup_append]
  refine ⟨List.nodup_flatMap.mpr ⟨ranks, apart⟩, masters, fun name left name' right same ↦ ?_⟩
  rcases List.mem_flatMap.mp left with ⟨role, -, mem⟩
  rcases List.mem_map.mp mem with ⟨v, -, rfl⟩
  rcases List.mem_map.mp right with ⟨role', -, rfl⟩
  exact workerName_ne_masterName role role' v same

/-- The placement of an accepted configuration fills every bundle, and no two vertices have the same
name. -/
theorem placement_fills (accepted : c.workloadGroup = some groups) :
    ∃ g, allocatePlacementGroup c (create c) = some (g, bundlesOf groups) ∧
      g.FillsBundles c groups ∧ (create c).vertexNames.Nodup := by
  have grouping := DLConfig.isGrouping accepted
  rcases allocate_create grouping accepted with ⟨g, run, placed⟩
  exact ⟨g, run, placed.fillsBundles grouping, nodup_vertexNames c⟩

end

/-- Two workloads in one group of two bundles, a third one on its own. -/
def sharedBundles : DLConfig where
  workloads := .ofItems [
    ("a", .ofGroups .elastic 2 2 ⟨1, 0, 0, 0, .empty⟩ (some "g") Nat.two_pos),
    ("b", .ofGroups .simple 2 1 ⟨0, 0, 0, 1, .empty⟩ (some "g") Nat.one_pos),
    ("c", .ofGroups .simple 3 1 ⟨2, 0, 0, 0, .empty⟩ none Nat.one_pos)]
  nodeNumber := 1
  devicePerNode := 8

theorem placement_fills_shared :
    ∃ groups g, sharedBundles.workloadGroup = some groups ∧ groups.length = 2 ∧
      allocatePlacementGroup sharedBundles (create sharedBundles) = some (g, bundlesOf groups) ∧
      g.FillsBundles sharedBundles groups ∧ (create sharedBundles).vertexNames.Nodup := by
  have eval : (sharedBundles.workloadGroup.any fun groups ↦ groups.length = 2) = true := by
    decide +kernel
  rcases (Option.any_eq_true _ _).mp eval with ⟨groups, accepted, two⟩
  rcases placement_fills accepted with ⟨g, run, fills, names⟩
  exact ⟨groups, g, accepted, of_decide_eq_true two, run, fills, names⟩

end DLExecutionGraph

end ProbingBaselines.Dlrover
