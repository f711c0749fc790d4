import ProbingBaselines.Dlrover.WorkloadConfig
import ProbingBaselines.Greyhound.LayerSplit
import ProbingBaselines.Lib.Decimal

/-!
# Collocated roles and the devices of the cluster

`DLConfig.validate` (`unified/common/config.py:137-155`) holds the accelerators of the workloads
against those of the cluster; then `DLJob.apply_collocations` (`unified/api/builder/base.py:58-84`)
puts the roles of a collocation into one group and gives each of them its share of a device. The
totals of the workloads are not part of the first, and the second is not validated again.
-/

namespace ProbingBaselines.Dlrover

open Lib

open Greyhound.ControlPlane (roundHalfEven)

/-- `round(x, 2)`. -/
def round2 (x : ℚ) : ℚ := (roundHalfEven (x * 100) : ℚ) / 100

/-- The roles of a set, in the order in which it is walked. -/
structure RoleSet where
  roles : List String
  nodup : roles.Nodup

/-- `DLJob` (`base.py:58-60`). -/
structure DLJob where
  config : DLConfig
  collocations : List RoleSet

/-- `f"collocation_{i}"`. -/
def collocationName (i : Nat) : String := "collocation_" ++ toString i

namespace RoleSet

/-- The share of a device that each role of a collocation gets. -/
def share (s : RoleSet) : ℚ := round2 (1 / s.roles.length)

/-- `ResourceDesc(accelerator=...)`. -/
def resource (s : RoleSet) : ResourceDesc := { ResourceDesc.empty with accelerator := s.share }

end RoleSet

namespace DLJob

/-- The pass of `apply_collocations` for one role (`base.py:69-83`); `none` for a `ValueError`. -/
def collocateRole (name : String) (s : RoleSet) (workloads : Dict String WorkloadDesc)
    (role : String) : Option (Dict String WorkloadDesc) := do
  let workload ← workloads.get? role
  if workload.group.isSome ∧ workload.group ≠ some name then none
  else some (workloads.insert role { workload with group := some name, resource := s.resource })

/-- The pass for one collocation; an empty one divides by zero. -/
def collocate (workloads : Dict String WorkloadDesc) (entry : RoleSet × Nat) :
    Option (Dict String WorkloadDesc) :=
  if entry.1.roles = [] then none
  else entry.1.roles.foldlM (collocateRole (collocationName entry.2) entry.1) workloads

/-- `apply_collocations`. -/
def applyCollocations (j : DLJob) : Option DLConfig :=
  (j.collocations.zipIdx.foldlM collocate j.config.workloads).map fun workloads ↦
    { j.config with workloads }

end DLJob

namespace DLConfig

/-- `validate` (`config.py:137-155`). -/
def validate (c : DLConfig) : Bool :=
  (c.workloadGroup.any fun groups ↦
    groups.all fun group ↦ group.resource.accelerator ≤ c.devicePerNode) &&
  (c.workloads.values.map fun w ↦ w.resource.accelerator).sum ≤ (c.nodeNumber : ℚ) * c.devicePerNode

/-- The validators of the fields and those of the workloads. -/
def fieldsValid (c : DLConfig) : Bool :=
  c.workloads.items ≠ [] && 1 ≤ c.nodeNumber && 1 ≤ c.devicePerNode &&
    c.workloads.values.all WorkloadDesc.resourceValid

end DLConfig

/-- The configuration of a job that passes its validation, the validators of `DLConfig` first. -/
def DLJob.accept (j : DLJob) : Option DLConfig :=
  if j.config.fieldsValid && j.config.validate then j.applyCollocations else none

namespace DLConfig

/-- The accelerators of the bundles that the scheduler asks for. -/
def bundleAccelerators (groups : List WorkloadGroup) : ℚ :=
  (groups.map fun group ↦ (group.num : ℚ) * group.resource.accelerator).sum

/-- The accelerators that a workload asks for, in a bundle. -/
def perBundle (e : String × WorkloadDesc) : ℚ := e.2.perGroup * e.2.resource.accelerator

theorem accelerator_iterate (r x : ResourceDesc) (n : Nat) :
    ((fun r ↦ r.add x)^[n] r).accelerator = r.accelerator + n * x.accelerator := by
  induction n generalizing r with
  | zero => simp
  | succ n ih =>
    rw [Function.iterate_succ_apply, ih, ResourceDesc.add]
    push_cast
    ring

theorem accelerator_resourceOf (workloads : List (String × WorkloadDesc)) :
    (resourceOf workloads).accelerator = (workloads.map perBundle).sum := by
  induction workloads using List.reverseRecOn with
  | nil => rfl
  | append_singleton workloads e ih =>
    rw [resourceOf_concat, accelerator_iterate, ih, List.map_append, List.sum_append]
    simp [perBundle]

/-- The groups split the workloads up. -/
theorem flatMap_membersOf_perm {c : DLConfig} {groups : List WorkloadGroup}
    (grouping : c.IsGrouping groups) :
    (groups.flatMap fun group ↦ membersOf c.workloads.items group.name).Perm c.workloads.items := by
  have nodup : (groups.flatMap fun group ↦ membersOf c.workloads.items group.name).Nodup := by
    rw [List.nodup_flatMap]
    refine ⟨fun group _ ↦ c.workloads.items_nodup.filter _, ?_⟩
    refine (List.pairwise_map.mp grouping.names).imp fun ne e left right ↦ ?_
    have first := of_decide_eq_true (List.mem_filter.mp left).2
    have second := of_decide_eq_true (List.mem_filter.mp right).2
    exact ne (first.symm.trans second)
  rw [List.perm_ext_iff_of_nodup nodup c.workloads.items_nodup]
  intro e
  rw [List.mem_flatMap]
  constructor
  · rintro ⟨group, -, mem⟩
    exact (List.mem_filter.mp mem).1
  · intro mem
    rcases grouping.covers e mem with ⟨group, listed, name⟩
    exact ⟨group, listed, List.mem_filter.mpr ⟨mem, decide_eq_true name.symm⟩⟩

/-- The bundles of all groups have the accelerators of all instances. -/
theorem bundleAccelerators_eq {c : DLConfig} {groups : List WorkloadGroup}
    (grouping : c.IsGrouping groups) : bundleAccelerators groups =
      (c.workloads.items.map fun e ↦ (e.2.total : ℚ) * e.2.resource.accelerator).sum := by
  have each : ∀ group ∈ groups, (group.num : ℚ) * group.resource.accelerator =
      ((membersOf c.workloads.items group.name).map
        fun e ↦ (e.2.total : ℚ) * e.2.resource.accelerator).sum := by
    intro group mem
    rw [grouping.resource group mem, accelerator_resourceOf, ← List.sum_map_mul_left]
    congr 1
    apply List.map_congr_left
    intro e he
    rw [grouping.total group mem e he, perBundle]
    push_cast
    ring
  have perm := (flatMap_membersOf_perm grouping).map
    fun e ↦ (e.2.total : ℚ) * e.2.resource.accelerator
  rw [bundleAccelerators, List.map_congr_left each, ← perm.sum_eq, List.map_flatMap,
    List.flatMap_def, List.sum_flatten, List.map_map]
  rfl

end DLConfig

/-! ### What the collocations change -/

theorem collocationName_inj {i k : Nat} (h : collocationName i = collocationName k) : i = k := by
  have chars := congrArg String.toList h
  simp only [collocationName, String.toList_append] at chars
  exact toString_inj (List.append_cancel_left chars)

/-- A workload that is collocated. -/
def WorkloadDesc.collocated (w : WorkloadDesc) (entry : RoleSet × Nat) : WorkloadDesc :=
  { w with group := some (collocationName entry.2), resource := entry.1.resource }

namespace DLJob

/-- The collocation of a role. -/
def collocation (entries : List (RoleSet × Nat)) (role : String) : Option (RoleSet × Nat) :=
  entries.find? fun entry ↦ role ∈ entry.1.roles

/-- The workload of a role when the collocations are applied. -/
def after (entries : List (RoleSet × Nat)) (role : String) (w : WorkloadDesc) : WorkloadDesc :=
  (collocation entries role).elim w w.collocated

variable {d d' : Dict String WorkloadDesc}

theorem collocateRole_some {entry : RoleSet × Nat} {role : String}
    (h : collocateRole (collocationName entry.2) entry.1 d role = some d') :
    ∃ w, d.get? role = some w ∧ (w.group = none ∨ w.group = some (collocationName entry.2)) ∧
      d' = d.insert role (w.collocated entry) := by
  rcases Option.bind_eq_some_iff.mp h with ⟨w, found, rest⟩
  split at rest
  · contradiction
  · next free =>
    refine ⟨w, found, ?_, (Option.some.inj rest).symm⟩
    cases group : w.group with
    | none => exact .inl rfl
    | some g =>
      right
      by_contra ne
      exact free ⟨by rw [group]; rfl, by rwa [group]⟩

theorem collocateRoles_some {entry : RoleSet × Nat} {roles : List String}
    (h : roles.foldlM (collocateRole (collocationName entry.2) entry.1) d = some d') :
    d'.keys = d.keys ∧
      (∀ role ∈ roles, ∃ w, d.get? role = some w ∧
        (w.group = none ∨ w.group = some (collocationName entry.2))) ∧
      ∀ role, d'.get? role =
        (d.get? role).map fun w ↦ if role ∈ roles then w.collocated entry else w := by
  induction roles generalizing d with
  | nil =>
    cases Option.some.inj h
    exact ⟨rfl, fun role mem ↦ absurd mem List.not_mem_nil, fun role ↦ by simp⟩
  | cons first roles ih =>
    rw [List.foldlM_cons] at h
    rcases Option.bind_eq_some_iff.mp h with ⟨d₁, step, rest⟩
    rcases collocateRole_some step with ⟨w, found, free, rfl⟩
    rcases ih rest with ⟨keys, known, get⟩
    have mem : first ∈ d := Dict.mem_of_mem_items (Dict.get?_eq_some_iff.mp found)
    refine ⟨keys.trans (Dict.keys_insert_of_mem _ mem), fun role hr ↦ ?_, fun role ↦ ?_⟩
    · by_cases same : role = first
      · subst same
        exact ⟨w, found, free⟩
      · rcases known role (List.mem_of_ne_of_mem same hr) with ⟨w', found', free'⟩
        rw [Dict.get?_insert, if_neg same] at found'
        exact ⟨w', found', free'⟩
    · rw [get, Dict.get?_insert]
      by_cases same : role = first
      · subst same
        by_cases again : role ∈ roles <;> simp [found, again, WorkloadDesc.collocated]
      · simp [same]

/-- The collocations of an accepted job: every role is known and in one of them at most, and has no
group before or that one. -/
structure Applied (entries : List (RoleSet × Nat)) (d d' : Dict String WorkloadDesc) : Prop where
  keys : d'.keys = d.keys
  get : ∀ role w, d.get? role = some w → d'.get? role = some (after entries role w)
  nonempty : ∀ entry ∈ entries, entry.1.roles ≠ []
  free : ∀ entry ∈ entries, ∀ role ∈ entry.1.roles, ∃ w, d.get? role = some w ∧
    (w.group = none ∨ w.group = some (collocationName entry.2))
  apart : entries.Pairwise fun a b ↦ ∀ role ∈ a.1.roles, role ∉ b.1.roles

theorem applied_of_foldlM {entries : List (RoleSet × Nat)}
    (indices : (entries.map Prod.snd).Nodup) (h : entries.foldlM collocate d = some d') :
    Applied entries d d' := by
  induction entries generalizing d with
  | nil =>
    cases Option.some.inj h
    exact ⟨rfl, fun role w found ↦ found, fun _ mem ↦ absurd mem List.not_mem_nil,
      fun _ mem ↦ absurd mem List.not_mem_nil, .nil⟩
  | cons first entries ih =>
    rw [List.foldlM_cons] at h
    rcases Option.bind_eq_some_iff.mp h with ⟨d₁, step, rest⟩
    unfold collocate at step
    split at step
    · contradiction
    · next some_role =>
      rcases collocateRoles_some step with ⟨keys₁, known₁, get₁⟩
      rw [List.map_cons, List.nodup_cons] at indices
      have later := ih indices.2 rest
      have other : ∀ entry ∈ entries, ∀ role ∈ first.1.roles, role ∉ entry.1.roles := by
        intro entry he role hr again
        rcases known₁ role hr with ⟨w, found, -⟩
        rcases later.free entry he role again with ⟨w', found', free⟩
        rw [get₁, found, Option.map_some, if_pos hr, Option.some.injEq] at found'
        subst found'
        rcases free with none | same
        · contradiction
        · have index : first.2 = entry.2 := collocationName_inj (Option.some.inj same)
          exact indices.1 (index ▸ List.mem_map_of_mem he)
      refine ⟨later.keys.trans keys₁, fun role w found ↦ ?_, ?_, ?_,
        List.pairwise_cons.mpr ⟨other, later.apart⟩⟩
      · have now := get₁ role
        rw [found, Option.map_some] at now
        rw [later.get role _ now]
        by_cases mem : role ∈ first.1.roles
        · have none : entries.find? (fun entry ↦ role ∈ entry.1.roles) = none := by
            rw [List.find?_eq_none]
            intro entry he
            simpa using other entry he role mem
          simp [after, collocation, mem, none]
        · simp [after, collocation, mem]
      · rintro entry (_ | ⟨_, he⟩)
        · exact some_role
        · exact later.nonempty entry he
      · rintro entry (_ | ⟨_, he⟩) role hr
        · exact known₁ role hr
        · rcases later.free entry he role hr with ⟨w, found, free⟩
          rw [get₁] at found
          rcases Option.map_eq_some_iff.mp found with ⟨w', found', eq⟩
          rw [if_neg fun mem ↦ other entry he role mem hr] at eq
          subst eq
          exact ⟨w', found', free⟩

theorem collocation_eq {entries : List (RoleSet × Nat)}
    (apart : entries.Pairwise fun a b ↦ ∀ role ∈ a.1.roles, role ∉ b.1.roles)
    {entry : RoleSet × Nat} (mem : entry ∈ entries) {role : String} (hr : role ∈ entry.1.roles) :
    collocation entries role = some entry := by
  induction entries with
  | nil => exact absurd mem List.not_mem_nil
  | cons first entries ih =>
    rw [List.pairwise_cons] at apart
    rcases List.mem_cons.mp mem with rfl | later
    · simp [collocation, hr]
    · have out : role ∉ first.1.roles := fun early ↦ apart.1 entry later role early hr
      have rest := ih apart.2 later
      simpa [collocation, out] using rest

theorem mem_of_collocation {entries : List (RoleSet × Nat)} {entry : RoleSet × Nat}
    {role : String} (h : collocation entries role = some entry) :
    entry ∈ entries ∧ role ∈ entry.1.roles :=
  ⟨List.mem_of_find?_eq_some h, by simpa using List.find?_some h⟩

theorem collocationName_ne_empty (i : Nat) : collocationName i ≠ "" := by
  intro h
  have chars := congrArg String.toList h
  simp [collocationName] at chars

theorem groupName_collocated (w : WorkloadDesc) (entry : RoleSet × Nat) (role : String) :
    (w.collocated entry).groupName role = collocationName entry.2 := by
  rw [WorkloadDesc.groupName, WorkloadDesc.collocated, Option.getD_some,
    if_neg (collocationName_ne_empty _)]

/-- No workload is in the group of a collocation by its own name. -/
theorem groupName_eq_iff (w : WorkloadDesc) (role : String) (i : Nat) :
    w.groupName role = collocationName i ↔ w.group = some (collocationName i) := by
  unfold WorkloadDesc.groupName
  cases group : w.group with
  | none =>
    rw [Option.getD_none, if_pos rfl]
    refine ⟨fun h ↦ ?_, fun h ↦ by contradiction⟩
    have chars := congrArg String.toList h
    simp [collocationName] at chars
  | some name =>
    rw [Option.getD_some, Option.some.injEq]
    split
    · next empty =>
      subst empty
      refine ⟨fun h ↦ ?_, fun h ↦ absurd h.symm (collocationName_ne_empty i)⟩
      have chars := congrArg String.toList h
      simp [collocationName] at chars
    · exact Iff.rfl

/-- Who is in the group of a collocation: its roles, and those that were given that group by
hand. -/
theorem groupName_after {entries : List (RoleSet × Nat)}
    (apart : entries.Pairwise fun a b ↦ ∀ role ∈ a.1.roles, role ∉ b.1.roles)
    (indices : (entries.map Prod.snd).Nodup) {entry : RoleSet × Nat} (mem : entry ∈ entries)
    (role : String) (w : WorkloadDesc) :
    (after entries role w).groupName role = collocationName entry.2 ↔
      role ∈ entry.1.roles ∨
        (collocation entries role).isNone ∧ w.group = some (collocationName entry.2) := by
  unfold after
  cases found : collocation entries role with
  | none =>
    have out : role ∉ entry.1.roles := by
      intro hr
      rw [collocation_eq apart mem hr] at found
      contradiction
    simp [out, groupName_eq_iff]
  | some other =>
    rcases mem_of_collocation found with ⟨listed, hr⟩
    rw [Option.elim_some, groupName_collocated]
    constructor
    · intro same
      left
      rwa [← List.inj_on_of_nodup_map indices listed mem (collocationName_inj same)]
    · rintro (hr' | ⟨none, -⟩)
      · cases Option.some.inj (found.symm.trans (collocation_eq apart mem hr'))
        rfl
      · contradiction

end DLJob

/-! ### The rounded share -/

/-- The shares of `c` roles are no more than a device exactly if `100 / c` is rounded down. -/
theorem mul_round2_le_one {c : Nat} (pos : 0 < c) :
    (c : ℚ) * round2 (1 / c) ≤ 1 ↔
      2 * (100 % c) < c ∨ 2 * (100 % c) = c ∧ 100 / c % 2 = 0 := by
  have c_pos : (0 : ℚ) < c := Nat.cast_pos.mpr pos
  have hundred : (1 / c : ℚ) * 100 = (100 : ℕ) / (c : ℕ) := by
    push_cast
    ring
  have floor : ⌊((100 : ℕ) : ℚ) / (c : ℕ)⌋ = ((100 / c : ℕ) : ℤ) := by
    rw [Rat.floor_natCast_div_natCast]
    rfl
  have rem_lt := Nat.mod_lt 100 pos
  have division := Nat.div_add_mod 100 c
  rw [round2, hundred, roundHalfEven]
  simp only [floor]
  generalize 100 / c = q at *
  generalize 100 % c = r at *
  have total : (c : ℚ) * q + r = (100 : ℕ) := by exact_mod_cast division
  have frac : ((100 : ℕ) : ℚ) / (c : ℕ) - ((q : ℤ) : ℚ) = r / c := by
    rw [Int.cast_natCast, eq_div_iff c_pos.ne', sub_mul, div_mul_cancel₀ _ c_pos.ne']
    linarith
  have down : (c : ℚ) * (((q : ℤ) : ℚ) / 100) ≤ 1 := by
    have nonneg : (0 : ℚ) ≤ r := Nat.cast_nonneg r
    push_cast at total ⊢
    linarith
  have up : ¬(c : ℚ) * ((((q : ℤ) + 1 : ℤ) : ℚ) / 100) ≤ 1 := by
    have lt : (r : ℚ) < c := Nat.cast_lt.mpr rem_lt
    push_cast at total ⊢
    linarith
  rw [frac]
  split
  · next low =>
    rw [div_lt_div_iff₀ c_pos two_pos] at low
    have low : 2 * r < c := by exact_mod_cast (by linarith : (2 : ℚ) * r < c)
    exact iff_of_true down (.inl low)
  · next not_low =>
    rw [div_lt_div_iff₀ c_pos two_pos, not_lt] at not_low
    have not_low : c ≤ 2 * r := by exact_mod_cast (by linarith : (c : ℚ) ≤ 2 * r)
    split
    · next high =>
      rw [div_lt_div_iff₀ two_pos c_pos] at high
      have high : c < 2 * r := by exact_mod_cast (by linarith : (c : ℚ) < 2 * r)
      exact iff_of_false up (by omega)
    · next not_high =>
      rw [div_lt_div_iff₀ two_pos c_pos, not_lt] at not_high
      have not_high : 2 * r ≤ c := by exact_mod_cast (by linarith : (2 : ℚ) * r ≤ c)
      split
      · next even => exact iff_of_true down (.inr ⟨by omega, by omega⟩)
      · next odd => exact iff_of_false up (by omega)

/-! ### When an accepted job fits -/

namespace DLJob

/-- The collocations with their numbers. -/
def entries (j : DLJob) : List (RoleSet × Nat) := j.collocations.zipIdx

/-- The accelerators of a worker when the collocations are applied. -/
def accelerator (j : DLJob) (e : String × WorkloadDesc) : ℚ :=
  (collocation j.entries e.1).elim e.2.resource.accelerator fun entry ↦ entry.1.share

/-- What the workers ask for in a bundle of a collocation: the shares of its roles, and the devices
of the workloads that are in its group without being in a collocation. -/
def bundleDemand (j : DLJob) (entry : RoleSet × Nat) : ℚ :=
  ((j.config.workloads.items.filter fun e ↦ e.1 ∈ entry.1.roles).map
    fun e ↦ (e.2.perGroup : ℚ) * entry.1.share).sum +
  ((j.config.workloads.items.filter fun e ↦ (collocation j.entries e.1).isNone ∧
    e.2.group = some (collocationName entry.2)).map DLConfig.perBundle).sum

/-- The job, as it is accepted, fits the cluster. -/
structure Fits (j : DLJob) (c : DLConfig) (groups : List WorkloadGroup) : Prop where
  group : ∀ group ∈ groups, group.resource.accelerator ≤ c.devicePerNode
  total : DLConfig.bundleAccelerators groups ≤ (c.nodeNumber : ℚ) * c.devicePerNode
  share : ∀ s ∈ j.collocations, ∀ perGroup : Nat,
    (∀ e ∈ c.workloads.items, e.1 ∈ s.roles → e.2.perGroup = perGroup) →
    ((c.workloads.items.filter fun e ↦ e.1 ∈ s.roles).map DLConfig.perBundle).sum ≤ perGroup

/-- The instances of all workloads, with the shares of those that are collocated, are within the
cluster; no collocation's bundle is more than a node; and the share of a collocation of equal roles
is rounded down. -/
structure FitCondition (j : DLJob) : Prop where
  total : (j.config.workloads.items.map fun e ↦ (e.2.total : ℚ) * j.accelerator e).sum ≤
    (j.config.nodeNumber : ℚ) * j.config.devicePerNode
  bundle : ∀ entry ∈ j.entries, j.bundleDemand entry ≤ j.config.devicePerNode
  share : ∀ s ∈ j.collocations, ∀ perGroup : Nat,
    (∀ e ∈ j.config.workloads.items, e.1 ∈ s.roles → e.2.perGroup = perGroup) →
    2 * (100 % s.roles.length) < s.roles.length ∨
      2 * (100 % s.roles.length) = s.roles.length ∧ 100 / s.roles.length % 2 = 0

theorem after_perGroup (entries : List (RoleSet × Nat)) (role : String) (w : WorkloadDesc) :
    (after entries role w).perGroup = w.perGroup ∧ (after entries role w).total = w.total := by
  unfold after
  cases collocation entries role <;> exact ⟨rfl, rfl⟩

theorem after_accelerator (j : DLJob) (e : String × WorkloadDesc) :
    (after j.entries e.1 e.2).resource.accelerator = j.accelerator e := by
  unfold after accelerator
  cases collocation j.entries e.1 <;> rfl

theorem perBundle_after (j : DLJob) (e : String × WorkloadDesc) :
    DLConfig.perBundle (e.1, after j.entries e.1 e.2) = (e.2.perGroup : ℚ) * j.accelerator e := by
  rw [DLConfig.perBundle, after_accelerator, (after_perGroup _ _ _).1]

theorem nodup_indices (j : DLJob) : (j.entries.map Prod.snd).Nodup := by
  rw [entries, List.zipIdx_map_snd]
  exact List.nodup_range'

/-- What is known of a job that is accepted. -/
structure Accepted (j : DLJob) (c : DLConfig) : Prop where
  applied : Applied j.entries j.config.workloads c.workloads
  devices : c.devicePerNode = j.config.devicePerNode
  nodes : c.nodeNumber = j.config.nodeNumber
  valid : j.config.validate
  nonneg : ∀ e ∈ j.config.workloads.items, 0 ≤ e.2.resource.accelerator

theorem accepted_of_accept {j : DLJob} {c : DLConfig} (h : j.accept = some c) : j.Accepted c := by
  unfold accept at h
  split at h
  · next valid =>
    rw [Bool.and_eq_true] at valid
    rcases Option.map_eq_some_iff.mp h with ⟨workloads, run, rfl⟩
    refine ⟨applied_of_foldlM j.nodup_indices run, rfl, rfl, valid.2, fun e he ↦ ?_⟩
    have fields := valid.1
    simp only [DLConfig.fieldsValid, Bool.and_eq_true, List.all_eq_true] at fields
    have resource := fields.2 e.2 (List.mem_map_of_mem he)
    simp only [WorkloadDesc.resourceValid, Bool.and_eq_true, decide_eq_true_eq] at resource
    exact resource.1.1.2
  · contradiction

theorem sum_filter (l : List (String × WorkloadDesc)) (p : String × WorkloadDesc → Bool)
    (f : String × WorkloadDesc → ℚ) :
    ((l.filter p).map f).sum = (l.map fun e ↦ if p e then f e else 0).sum := by
  induction l with
  | nil => rfl
  | cons e l ih =>
    by_cases holds : p e
    · rw [List.filter_cons_of_pos holds, List.map_cons, List.sum_cons, List.map_cons, List.sum_cons,
        if_pos holds, ih]
    · rw [List.filter_cons_of_neg holds, List.map_cons, List.sum_cons, if_neg holds, zero_add, ih]

namespace Accepted

variable {j : DLJob} {c : DLConfig} {groups : List WorkloadGroup}

theorem items (h : j.Accepted c) : c.workloads.items =
    j.config.workloads.items.map fun e ↦ (e.1, after j.entries e.1 e.2) :=
  Dict.items_eq_map_items h.applied.keys fun e he ↦
    h.applied.get e.1 e.2 (Dict.get?_eq_some_iff.mpr he)

/-- The demand of a group, in terms of the job. -/
theorem group_demand (h : j.Accepted c) (grouping : c.IsGrouping groups) {group : WorkloadGroup}
    (mem : group ∈ groups) : group.resource.accelerator =
      ((j.config.workloads.items.filter fun e ↦
        (after j.entries e.1 e.2).groupName e.1 = group.name).map
          fun e ↦ (e.2.perGroup : ℚ) * j.accelerator e).sum := by
  rw [grouping.resource group mem, DLConfig.accelerator_resourceOf, DLConfig.membersOf, h.items,
    List.filter_map, List.map_map]
  congr 1
  exact List.map_congr_left fun e _ ↦ j.perBundle_after e

theorem collocation_demand (h : j.Accepted c) {entry : RoleSet × Nat} (mem : entry ∈ j.entries) :
    ((j.config.workloads.items.filter fun e ↦
      (after j.entries e.1 e.2).groupName e.1 = collocationName entry.2).map
        fun e ↦ (e.2.perGroup : ℚ) * j.accelerator e).sum = j.bundleDemand entry := by
  rw [bundleDemand, sum_filter, sum_filter, sum_filter, ← List.sum_map_add]
  congr 1
  apply List.map_congr_left
  intro e _
  have who := groupName_after h.applied.apart j.nodup_indices mem e.1 e.2
  simp only [decide_eq_true_eq, who]
  by_cases inside : e.1 ∈ entry.1.roles
  · have found := collocation_eq h.applied.apart mem inside
    simp [inside, found, accelerator]
  · cases found : collocation j.entries e.1 with
    | none => simp [inside, accelerator, found, DLConfig.perBundle]
    | some other => simp [inside]

/-- A group without collocated roles has no more than it had when it was validated. -/
theorem other_demand (h : j.Accepted c) {name : String}
    (others : ∀ e ∈ j.config.workloads.items, (after j.entries e.1 e.2).groupName e.1 = name →
      collocation j.entries e.1 = none) :
    ((j.config.workloads.items.filter fun e ↦
      (after j.entries e.1 e.2).groupName e.1 = name).map
        fun e ↦ (e.2.perGroup : ℚ) * j.accelerator e).sum ≤ j.config.devicePerNode := by
  have valid := h.valid
  rw [DLConfig.validate, Bool.and_eq_true] at valid
  rcases (Option.any_eq_true _ _).mp valid.1 with ⟨groups, accepted, small⟩
  have grouping := DLConfig.isGrouping accepted
  by_cases members : ∃ e ∈ j.config.workloads.items, (after j.entries e.1 e.2).groupName e.1 = name
  · rcases members with ⟨e, he, same⟩
    have own : ∀ e ∈ j.config.workloads.items, (after j.entries e.1 e.2).groupName e.1 = name →
        e.2.groupName e.1 = name := by
      intro e he same
      rwa [after, others e he same, Option.elim_none] at same
    rcases grouping.covers e he with ⟨group, listed, group_name⟩
    rw [own e he same] at group_name
    have bound := of_decide_eq_true (List.all_eq_true.mp small group listed)
    refine le_trans ?_ bound
    rw [grouping.resource group listed, DLConfig.accelerator_resourceOf, DLConfig.membersOf,
      sum_filter, sum_filter, group_name]
    apply List.sum_le_sum
    intro e he
    by_cases inside : (after j.entries e.1 e.2).groupName e.1 = name
    · have alone := others e he inside
      simp [inside, own e he inside, accelerator, alone, DLConfig.perBundle]
    · simp only [inside, decide_false, Bool.false_eq_true, if_false]
      split
      · exact mul_nonneg (Nat.cast_nonneg _) (h.nonneg e he)
      · exact le_rfl
  · have none : (j.config.workloads.items.filter fun e ↦
        (after j.entries e.1 e.2).groupName e.1 = name) = [] := by
      rw [List.filter_eq_nil_iff]
      intro e he
      rw [decide_eq_true_eq]
      exact fun same ↦ members ⟨e, he, same⟩
    rw [none, List.map_nil, List.sum_nil]
    exact Nat.cast_nonneg _

theorem group_iff (h : j.Accepted c) (grouping : c.IsGrouping groups) :
    (∀ group ∈ groups, group.resource.accelerator ≤ c.devicePerNode) ↔
      ∀ entry ∈ j.entries, j.bundleDemand entry ≤ j.config.devicePerNode := by
  rw [h.devices]
  constructor
  · intro small entry mem
    rcases List.exists_mem_of_ne_nil _ (h.applied.nonempty entry mem) with ⟨role, hr⟩
    rcases h.applied.free entry mem role hr with ⟨w, found, -⟩
    have placed := (groupName_after h.applied.apart j.nodup_indices mem role w).mpr (.inl hr)
    have listed : (role, after j.entries role w) ∈ c.workloads.items := by
      rw [h.items]
      exact List.mem_map.mpr ⟨(role, w), Dict.get?_eq_some_iff.mp found, rfl⟩
    rcases grouping.covers _ listed with ⟨group, in_groups, name⟩
    rw [placed] at name
    rw [← h.collocation_demand mem, ← name, ← h.group_demand grouping in_groups]
    exact small group in_groups
  · intro small group mem
    rw [h.group_demand grouping mem]
    by_cases of_entry : ∃ entry ∈ j.entries, group.name = collocationName entry.2
    · rcases of_entry with ⟨entry, listed, name⟩
      rw [name, h.collocation_demand listed]
      exact small entry listed
    · apply h.other_demand
      intro e _ same
      cases found : collocation j.entries e.1 with
      | none => rfl
      | some entry =>
        rw [after, found, Option.elim_some, groupName_collocated] at same
        exact absurd ⟨entry, (mem_of_collocation found).1, same.symm⟩ of_entry

/-- The roles of a collocation, each once. -/
theorem length_roles (h : j.Accepted c) {entry : RoleSet × Nat} (mem : entry ∈ j.entries) :
    (j.config.workloads.items.filter fun e ↦ e.1 ∈ entry.1.roles).length =
      entry.1.roles.length := by
  have perm : ((j.config.workloads.items.filter fun e ↦ e.1 ∈ entry.1.roles).map Prod.fst).Perm
      entry.1.roles := by
    have nodup : ((j.config.workloads.items.filter fun e ↦
        e.1 ∈ entry.1.roles).map Prod.fst).Nodup :=
      j.config.workloads.nodup.sublist (List.filter_sublist.map _)
    rw [List.perm_ext_iff_of_nodup nodup entry.1.nodup]
    intro role
    constructor
    · intro listed
      rcases List.mem_map.mp listed with ⟨e, he, rfl⟩
      exact of_decide_eq_true (List.mem_filter.mp he).2
    · intro hr
      rcases h.applied.free entry mem role hr with ⟨w, found, -⟩
      exact List.mem_map.mpr ⟨(role, w), List.mem_filter.mpr
        ⟨Dict.get?_eq_some_iff.mp found, decide_eq_true hr⟩, rfl⟩
  rw [← perm.length_eq, List.length_map]

theorem share_iff (h : j.Accepted c) {entry : RoleSet × Nat} (mem : entry ∈ j.entries)
    {perGroup : Nat}
    (equal : ∀ e ∈ j.config.workloads.items, e.1 ∈ entry.1.roles → e.2.perGroup = perGroup) :
    ((c.workloads.items.filter fun e ↦ e.1 ∈ entry.1.roles).map DLConfig.perBundle).sum ≤ perGroup ↔
      2 * (100 % entry.1.roles.length) < entry.1.roles.length ∨
        2 * (100 % entry.1.roles.length) = entry.1.roles.length ∧
          100 / entry.1.roles.length % 2 = 0 := by
  have some_role := h.applied.nonempty entry mem
  have demand : ((c.workloads.items.filter fun e ↦ e.1 ∈ entry.1.roles).map
      DLConfig.perBundle).sum = perGroup * ((entry.1.roles.length : ℚ) * entry.1.share) := by
    rw [h.items, List.filter_map, List.map_map]
    have each : ∀ e ∈ j.config.workloads.items.filter fun e ↦ e.1 ∈ entry.1.roles,
        DLConfig.perBundle (e.1, after j.entries e.1 e.2) = perGroup * entry.1.share := by
      intro e he
      rcases List.mem_filter.mp he with ⟨listed, inside⟩
      have found := collocation_eq h.applied.apart mem (of_decide_eq_true inside)
      rw [j.perBundle_after, accelerator, found, Option.elim_some,
        equal e listed (of_decide_eq_true inside)]
    change ((j.config.workloads.items.filter fun e ↦ e.1 ∈ entry.1.roles).map
      fun e ↦ DLConfig.perBundle (e.1, after j.entries e.1 e.2)).sum = _
    rw [List.map_congr_left each, List.map_const', List.sum_replicate, h.length_roles mem,
      nsmul_eq_mul]
    ring
  have pos : (0 : ℚ) < perGroup := by
    rcases List.exists_mem_of_ne_nil _ some_role with ⟨role, hr⟩
    rcases h.applied.free entry mem role hr with ⟨w, found, -⟩
    rw [← equal (role, w) (Dict.get?_eq_some_iff.mp found) hr]
    exact Nat.cast_pos.mpr w.perGroup_pos
  rw [demand, mul_le_iff_le_one_right pos, RoleSet.share]
  exact mul_round2_le_one (List.length_pos_iff.mpr some_role)

end Accepted

theorem mem_entries {j : DLJob} {s : RoleSet} (h : s ∈ j.collocations) :
    ∃ i, (s, i) ∈ j.entries := by
  rcases List.mem_iff_getElem?.mp h with ⟨i, at_i⟩
  exact ⟨i, List.mem_zipIdx_iff_getElem?.mpr at_i⟩

/-- An accepted job whose groups are consistent fits the cluster under the condition only. -/
theorem fits_iff {j : DLJob} {c : DLConfig} {groups : List WorkloadGroup}
    (accepted : j.accept = some c) (grouped : c.workloadGroup = some groups) :
    j.Fits c groups ↔ j.FitCondition := by
  have h := accepted_of_accept accepted
  have grouping := DLConfig.isGrouping grouped
  have total : DLConfig.bundleAccelerators groups =
      (j.config.workloads.items.map fun e ↦ (e.2.total : ℚ) * j.accelerator e).sum := by
    rw [DLConfig.bundleAccelerators_eq grouping, h.items, List.map_map]
    congr 1
    apply List.map_congr_left
    intro e _
    rw [Function.comp_apply, after_accelerator, (after_perGroup _ _ _).2]
  have equal : ∀ (s : RoleSet) (perGroup : Nat),
      (∀ e ∈ c.workloads.items, e.1 ∈ s.roles → e.2.perGroup = perGroup) ↔
        ∀ e ∈ j.config.workloads.items, e.1 ∈ s.roles → e.2.perGroup = perGroup := by
    intro s perGroup
    simp only [h.items, List.forall_mem_map, (after_perGroup _ _ _).1]
  constructor
  · intro fits
    refine ⟨?_, (h.group_iff grouping).mp fits.group, fun s hs perGroup same ↦ ?_⟩
    · rw [← total, ← h.devices, ← h.nodes]
      exact fits.total
    · rcases mem_entries hs with ⟨i, mem⟩
      exact (h.share_iff mem same).mp (fits.share s hs perGroup ((equal s perGroup).mpr same))
  · intro condition
    refine ⟨(h.group_iff grouping).mpr condition.bundle, ?_, fun s hs perGroup same ↦ ?_⟩
    · rw [total, h.devices, h.nodes]
      exact condition.total
    · rcases mem_entries hs with ⟨i, mem⟩
      have same := (equal s perGroup).mp same
      exact (h.share_iff mem same).mpr (condition.share s hs perGroup same)

/-- One workload of sixteen workers with a device each, on a node of eight. -/
def manyInstances : DLJob where
  config := ⟨.ofItems [("a", .ofGroups .elastic 16 1 ⟨0, 0, 0, 1, .empty⟩ none Nat.one_pos)], 1, 8⟩
  collocations := []

/-- Six roles that share a device. -/
def sixRoles : DLJob where
  config := ⟨.ofItems (["a", "b", "c", "d", "e", "f"].map fun role ↦
    (role, .ofGroups .simple 1 1 ⟨1, 0, 0, 0, .empty⟩ none Nat.one_pos)), 1, 8⟩
  collocations := [⟨["a", "b", "c", "d", "e", "f"], by decide⟩]

/-- A workload of the processor with nine workers in a group, collocated alone. -/
def nineWorkers : DLJob where
  config := ⟨.ofItems [("a", .ofGroups .simple 1 9 ⟨1, 0, 0, 0, .empty⟩ none (by decide))], 2, 8⟩
  collocations := [⟨["a"], by decide⟩]

theorem fits_iff_six : ∃ c groups, sixRoles.accept = some c ∧ c.workloadGroup = some groups ∧
    (sixRoles.Fits c groups ↔ sixRoles.FitCondition) := by
  have eval : (sixRoles.accept.any fun c ↦ c.workloadGroup.isSome) = true := by decide +kernel
  rcases (Option.any_eq_true _ _).mp eval with ⟨c, accepted, grouped⟩
  rcases Option.isSome_iff_exists.mp grouped with ⟨groups, grouped⟩
  exact ⟨c, groups, accepted, grouped, fits_iff accepted grouped⟩

/-- Each of the three parts fails: sixteen devices are asked for where there are eight, a group asks
for nine on a node of eight, and six roles for more than the one device that they share. -/
theorem accepted_not_fits :
    (∃ c groups, manyInstances.accept = some c ∧ c.workloadGroup = some groups ∧
      ¬ DLConfig.bundleAccelerators groups ≤ (c.nodeNumber : ℚ) * c.devicePerNode) ∧
    (∃ c groups, nineWorkers.accept = some c ∧ c.workloadGroup = some groups ∧
      ¬ ∀ group ∈ groups, group.resource.accelerator ≤ c.devicePerNode) ∧
    (∃ c, sixRoles.accept = some c ∧ (∀ e ∈ c.workloads.items, e.2.perGroup = 1) ∧
      ¬ (c.workloads.items.map DLConfig.perBundle).sum ≤ 1) := by
  refine ⟨?_, ?_, ?_⟩
  · have eval : (manyInstances.accept.any fun c ↦ c.workloadGroup.any fun groups ↦
        ¬ DLConfig.bundleAccelerators groups ≤ (c.nodeNumber : ℚ) * c.devicePerNode) = true := by
      decide +kernel
    rcases (Option.any_eq_true _ _).mp eval with ⟨c, accepted, found⟩
    rcases (Option.any_eq_true _ _).mp found with ⟨groups, grouped, more⟩
    exact ⟨c, groups, accepted, grouped, of_decide_eq_true more⟩
  · have eval : (nineWorkers.accept.any fun c ↦ c.workloadGroup.any fun groups ↦
        ¬ ∀ group ∈ groups, group.resource.accelerator ≤ (c.devicePerNode : ℚ)) = true := by
      decide +kernel
    rcases (Option.any_eq_true _ _).mp eval with ⟨c, accepted, found⟩
    rcases (Option.any_eq_true _ _).mp found with ⟨groups, grouped, more⟩
    exact ⟨c, groups, accepted, grouped, of_decide_eq_true more⟩
  · have eval : (sixRoles.accept.any fun c ↦ (∀ e ∈ c.workloads.items, e.2.perGroup = 1) ∧
        ¬ (c.workloads.items.map DLConfig.perBundle).sum ≤ 1) = true := by
      decide +kernel
    rcases (Option.any_eq_true _ _).mp eval with ⟨c, accepted, found⟩
    exact ⟨c, accepted, of_decide_eq_true found⟩

end DLJob

end ProbingBaselines.Dlrover
