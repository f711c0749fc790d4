import Mathlib.Algebra.Order.Ring.Rat
import Mathlib.Data.List.MinMax
import Mathlib.Data.List.Nodup
import Mathlib.Tactic.Linarith
import ProbingBaselines.Dlrover.Node

/-!
# Node groups that are pending for too long

`get_pending_node_groups` (`master/node/worker.py:483-572`) looks at one group after the other and
collects the relaunched nodes that are pending. It reports the group of the oldest node it has
collected so far, when that is overdue: of all groups up to the one it is at. So a group is reported
again, or reported late, unless each group it comes to after an overdue node has an older one.
-/

namespace ProbingBaselines.Dlrover.JobManager

/-- `DistributionStrategy`. -/
inductive DistributionStrategy where
  | local | ps | allreduce | custom
  deriving DecidableEq

/-- A node with the time its pod was created at, when that is known. -/
structure GroupNode extends Node where
  createTime : Option ℚ

/-- A group and its nodes: `update_job_node_by_group` keeps a node under the group it has. -/
structure NodeGroup where
  group : Int
  nodes : List GroupNode
  own : ∀ n ∈ nodes, n.group = some group ∧ n.groupSize.isSome

/-- `JobContext._job_node_groups`, in the order of its keys. -/
structure JobNodeGroups where
  items : List NodeGroup
  keys_nodup : (items.map NodeGroup.group).Nodup

namespace GroupNode

/-- `worker.py:514-522`. -/
def Skipped (n : GroupNode) : Prop :=
  n.isReleased = true ∨ n.createTime = none ∨ n.groupSize = none ∨ n.group = none

instance (n : GroupNode) : Decidable n.Skipped := inferInstanceAs (Decidable (_ ∨ _ ∨ _ ∨ _))

/-- Pending since it was relaunched; `worker.py:528-538`. -/
def RelaunchPending (n : GroupNode) : Prop :=
  0 < n.relaunchCount ∧ n.status ∈ [NodeStatus.pending, .initial]

instance (n : GroupNode) : Decidable n.RelaunchPending := inferInstanceAs (Decidable (_ ∧ _))

/-- The creation time of a node that has one. -/
def created (n : GroupNode) : ℚ := n.createTime.getD 0

theorem created_eq {n : GroupNode} {t : ℚ} (h : n.createTime = some t) : n.created = t := by
  rw [created, h, Option.getD_some]

end GroupNode

/-- The nodes of a group that are collected. -/
def NodeGroup.pendingWorkers (g : NodeGroup) : List GroupNode :=
  g.nodes.filter fun n ↦ ¬ n.Skipped ∧ n.RelaunchPending

/-- `min(pending_workers, key=lambda x: x.create_time)`: the first of the oldest. -/
def firstPendingWorker (pendingWorkers : List GroupNode) : Option GroupNode :=
  pendingWorkers.argmin GroupNode.created

/-- What is reported at one group, with all nodes collected so far. -/
def reportGroup (timeout now : ℚ) (pendingWorkers : List GroupNode) : List Int :=
  match firstPendingWorker pendingWorkers with
  | none => []
  | some first =>
    -- a node that is collected has a group
    if timeout < now - first.created then first.group.toList else []

/-- The loop over the groups; `clock` is read once for each. -/
def reportGroups (timeout : ℚ) (clock : Int → ℚ) : List GroupNode → List NodeGroup → List Int
  | _, [] => []
  | pendingWorkers, g :: groups =>
    let pendingWorkers := pendingWorkers ++ g.pendingWorkers
    reportGroup timeout (clock g.group) pendingWorkers ++
      reportGroups timeout clock pendingWorkers groups

/-- `_get_group_pending_timeout`. -/
def getGroupPendingTimeout (secondsToWaitGroupPendingPod : ℚ) : ℚ :=
  if secondsToWaitGroupPendingPod ≤ 0 then 0
  else if secondsToWaitGroupPendingPod < 300 then 300
  else secondsToWaitGroupPendingPod

def getPendingNodeGroups (secondsToWaitGroupPendingPod : ℚ) (strategy : Int)
    (jobType : DistributionStrategy) (clock : Int → ℚ) (jobNodeGroups : JobNodeGroups) : List Int :=
  let timeout := getGroupPendingTimeout secondsToWaitGroupPendingPod
  if timeout ≤ 0 ∨ strategy = 0 ∨ jobType ≠ .allreduce then []
  else reportGroups timeout clock [] jobNodeGroups.items

/-! ### The oldest node -/

variable {timeout now : ℚ} {clock : Int → ℚ} {w : GroupNode} {pendingWorkers : List GroupNode}

theorem firstPendingWorker_mem (h : firstPendingWorker pendingWorkers = some w) :
    w ∈ pendingWorkers :=
  List.argmin_mem (Option.mem_def.mpr h)

theorem firstPendingWorker_le (h : firstPendingWorker pendingWorkers = some w) {n : GroupNode}
    (hn : n ∈ pendingWorkers) : w.created ≤ n.created :=
  List.le_of_mem_argmin hn (Option.mem_def.mpr h)

/-- With more nodes after it the oldest stays the same, or one of those is strictly older. -/
theorem firstPendingWorker_append (xs ys : List GroupNode) :
    firstPendingWorker (xs ++ ys) = firstPendingWorker xs ∨
      ∃ w ∈ ys, firstPendingWorker (xs ++ ys) = some w ∧ ∀ x ∈ xs, w.created < x.created := by
  induction ys using List.reverseRecOn with
  | nil => exact .inl (by rw [List.append_nil])
  | append_singleton ys y ih =>
    have last : firstPendingWorker (xs ++ (ys ++ [y])) =
        Option.casesOn (firstPendingWorker (xs ++ ys)) (some y) fun c ↦
          if y.created < c.created then some y else some c := by
      rw [← List.append_assoc]
      exact List.argmin_concat _ _ _
    cases first : firstPendingWorker (xs ++ ys) with
    | none =>
      rw [first] at last
      have none_before : xs ++ ys = [] := List.argmin_eq_none.mp first
      right
      refine ⟨y, List.mem_append_right _ List.mem_cons_self, last, fun x hx ↦ ?_⟩
      rw [(List.append_eq_nil_iff.mp none_before).1] at hx
      exact absurd hx List.not_mem_nil
    | some c =>
      rw [first] at last ih
      simp only at last
      split at last
      · next older =>
        right
        refine ⟨y, List.mem_append_right _ List.mem_cons_self, last, fun x hx ↦ ?_⟩
        exact older.trans_le (firstPendingWorker_le first (List.mem_append_left _ hx))
      · next =>
        rcases ih with same | ⟨w, hw, eq, older⟩
        · exact .inl (last.trans same)
        · right
          exact ⟨w, List.mem_append_left _ hw, last.trans eq, older⟩

/-! ### What is reported -/

theorem mem_pendingWorkers {g : NodeGroup} {n : GroupNode} :
    n ∈ g.pendingWorkers ↔ n ∈ g.nodes ∧ ¬ n.Skipped ∧ n.RelaunchPending := by
  rw [NodeGroup.pendingWorkers, List.mem_filter, decide_eq_true_iff]

/-- The oldest relaunched node of the group that is pending and not released has been pending for
longer than the timeout. -/
def NodeGroup.Overdue (timeout now : ℚ) (g : NodeGroup) : Prop :=
  ∃ n ∈ g.nodes, ∃ created, n.createTime = some created ∧ n.isReleased = false ∧
    n.RelaunchPending ∧
    (∀ m ∈ g.nodes, ∀ c, m.createTime = some c → m.isReleased = false → m.RelaunchPending →
      created ≤ c) ∧
    timeout < now - created

/-- One of these nodes is overdue. -/
def SomeOverdue (timeout now : ℚ) (pendingWorkers : List GroupNode) : Prop :=
  ∃ n ∈ pendingWorkers, timeout < now - n.created

instance (timeout now : ℚ) (pendingWorkers : List GroupNode) :
    Decidable (SomeOverdue timeout now pendingWorkers) :=
  inferInstanceAs (Decidable (∃ _ ∈ _, _))

theorem group_of_mem_pendingWorkers {g : NodeGroup} {n : GroupNode} (h : n ∈ g.pendingWorkers) :
    n.group = some g.group :=
  (g.own n (mem_pendingWorkers.mp h).1).1

/-- A node of a group is collected when it is the claimed kind of node. -/
theorem mem_pendingWorkers_iff {g : NodeGroup} {n : GroupNode} {created : ℚ} :
    n ∈ g.pendingWorkers ∧ n.createTime = some created ↔
      n ∈ g.nodes ∧ n.createTime = some created ∧ n.isReleased = false ∧ n.RelaunchPending := by
  rw [mem_pendingWorkers]
  constructor
  · rintro ⟨⟨mem, kept, pending⟩, time⟩
    exact ⟨mem, time, Bool.eq_false_iff.mpr fun released ↦ kept (.inl released), pending⟩
  · rintro ⟨mem, time, live, pending⟩
    refine ⟨⟨mem, ?_, pending⟩, time⟩
    rcases g.own n mem with ⟨group, size⟩
    rintro (released | none | none | none)
    · rw [live] at released
      cases released
    · rw [none] at time
      cases time
    · rw [none] at size
      cases size
    · rw [none] at group
      cases group

theorem exists_createTime {g : NodeGroup} {n : GroupNode} (h : n ∈ g.pendingWorkers) :
    n.createTime = some n.created := by
  cases time : n.createTime with
  | none => exact absurd (.inr (.inl time)) (mem_pendingWorkers.mp h).2.1
  | some created => rw [GroupNode.created_eq time]

/-- Someone is overdue when the oldest is. -/
theorem someOverdue_iff {timeout now : ℚ} {pendingWorkers : List GroupNode} :
    SomeOverdue timeout now pendingWorkers ↔
      ∃ w, firstPendingWorker pendingWorkers = some w ∧ timeout < now - w.created := by
  constructor
  · rintro ⟨n, hn, late⟩
    cases first : firstPendingWorker pendingWorkers with
    | none =>
      rw [List.argmin_eq_none.mp first] at hn
      exact absurd hn List.not_mem_nil
    | some w =>
      have le := firstPendingWorker_le first hn
      exact ⟨w, rfl, by linarith⟩
  · rintro ⟨w, first, late⟩
    exact ⟨w, firstPendingWorker_mem first, late⟩

theorem overdue_iff {g : NodeGroup} :
    g.Overdue timeout now ↔ SomeOverdue timeout now g.pendingWorkers := by
  constructor
  · rintro ⟨n, mem, created, time, live, pending, -, late⟩
    have collected := mem_pendingWorkers_iff.mpr ⟨mem, time, live, pending⟩
    refine ⟨n, collected.1, ?_⟩
    rw [GroupNode.created_eq time]
    exact late
  · intro some
    rcases someOverdue_iff.mp some with ⟨w, first, late⟩
    have collected := firstPendingWorker_mem first
    have time := exists_createTime collected
    rcases mem_pendingWorkers_iff.mp ⟨collected, time⟩ with ⟨mem, -, live, pending⟩
    refine ⟨w, mem, w.created, time, live, pending, ?_, late⟩
    intro m hm c hc released waiting
    have le := firstPendingWorker_le first
      (mem_pendingWorkers_iff.mpr ⟨hm, hc, released, waiting⟩).1
    rwa [GroupNode.created_eq hc] at le

/-- At a group the group of the oldest node is reported, when that is overdue. -/
theorem reportGroup_cases (timeout now : ℚ) (pendingWorkers : List GroupNode) :
    (¬ SomeOverdue timeout now pendingWorkers ∧ reportGroup timeout now pendingWorkers = []) ∨
      ∃ w, firstPendingWorker pendingWorkers = some w ∧ timeout < now - w.created ∧
        reportGroup timeout now pendingWorkers = w.group.toList := by
  rw [someOverdue_iff]
  cases first : firstPendingWorker pendingWorkers with
  | none =>
    left
    refine ⟨?_, by rw [reportGroup, first]⟩
    rintro ⟨w, eq, -⟩
    cases eq
  | some w =>
    by_cases late : timeout < now - w.created
    · right
      refine ⟨w, rfl, late, ?_⟩
      simp only [reportGroup, first]
      exact if_pos late
    · left
      constructor
      · rintro ⟨w', eq, late'⟩
        cases eq
        exact late late'
      · simp only [reportGroup, first]
        exact if_neg late

theorem reportGroups_append (pendingWorkers : List GroupNode) (xs ys : List NodeGroup) :
    reportGroups timeout clock pendingWorkers (xs ++ ys) =
      reportGroups timeout clock pendingWorkers xs ++
        reportGroups timeout clock (pendingWorkers ++ xs.flatMap NodeGroup.pendingWorkers) ys := by
  induction xs generalizing pendingWorkers with
  | nil => rw [List.nil_append, reportGroups, List.nil_append, List.flatMap_nil, List.append_nil]
  | cons x xs ih =>
    rw [List.cons_append, reportGroups, reportGroups, ih, List.append_assoc, List.flatMap_cons,
      List.append_assoc]

/-! ### When the right groups are reported -/

/-- Each group is reported at most once, and just those with an overdue node are. -/
structure FoundExactly (timeout : ℚ) (clock : Int → ℚ) (groups : List NodeGroup)
    (pendingGroups : List Int) : Prop where
  once : pendingGroups.Nodup
  overdue : ∀ i, i ∈ pendingGroups ↔
    ∃ g ∈ groups, g.group = i ∧ g.Overdue timeout (clock g.group)

/-- Where a node of this group or of an earlier one is overdue, this group has a node that is older
than all nodes of the earlier ones. -/
def EachUndercuts (timeout : ℚ) (clock : Int → ℚ) (groups : List NodeGroup) : Prop :=
  ∀ before g after, groups = before ++ g :: after →
    SomeOverdue timeout (clock g.group)
      (before.flatMap NodeGroup.pendingWorkers ++ g.pendingWorkers) →
    ∃ w ∈ g.pendingWorkers, ∀ n ∈ before.flatMap NodeGroup.pendingWorkers, w.created < n.created

/-- The oldest node of several groups was already the oldest when its group was looked at. -/
theorem firstPendingWorker_origin {groups : List NodeGroup}
    (h : firstPendingWorker (groups.flatMap NodeGroup.pendingWorkers) = some w) :
    ∃ before g after, groups = before ++ g :: after ∧ w ∈ g.pendingWorkers ∧
      firstPendingWorker (before.flatMap NodeGroup.pendingWorkers ++ g.pendingWorkers) =
        some w := by
  induction groups using List.reverseRecOn with
  | nil => cases h
  | append_singleton groups g ih =>
    have all : (groups ++ [g]).flatMap NodeGroup.pendingWorkers =
        groups.flatMap NodeGroup.pendingWorkers ++ g.pendingWorkers := by
      rw [List.flatMap_append, List.flatMap_singleton]
    rw [all] at h
    rcases firstPendingWorker_append (groups.flatMap NodeGroup.pendingWorkers) g.pendingWorkers with
      same | ⟨v, hv, eq, -⟩
    · rcases ih (same ▸ h) with ⟨before, g', after, eq, mem, first⟩
      exact ⟨before, g', after ++ [g], by rw [eq, List.append_assoc, List.cons_append], mem, first⟩
    · rw [h] at eq
      cases eq
      exact ⟨groups, g, [], rfl, hv, h⟩

/-- With a condition on each group just the overdue groups are reported, in their order. -/
theorem reportGroups_of_eachUndercuts {before groups : List NodeGroup}
    (h : EachUndercuts timeout clock (before ++ groups)) :
    reportGroups timeout clock (before.flatMap NodeGroup.pendingWorkers) groups =
      (groups.filter fun g ↦ SomeOverdue timeout (clock g.group) g.pendingWorkers).map
        NodeGroup.group := by
  induction groups generalizing before with
  | nil => rfl
  | cons g groups ih =>
    have all : (before ++ [g]).flatMap NodeGroup.pendingWorkers =
        before.flatMap NodeGroup.pendingWorkers ++ g.pendingWorkers := by
      rw [List.flatMap_append, List.flatMap_singleton]
    have rest := @ih (before ++ [g]) (by rw [List.append_assoc]; exact h)
    rw [all] at rest
    rw [reportGroups, rest]
    rcases reportGroup_cases timeout (clock g.group)
        (before.flatMap NodeGroup.pendingWorkers ++ g.pendingWorkers) with
      ⟨none, eq⟩ | ⟨w, first, late, eq⟩
    · have not_late : ¬ SomeOverdue timeout (clock g.group) g.pendingWorkers := by
        rintro ⟨n, hn, late⟩
        exact none ⟨n, List.mem_append_right _ hn, late⟩
      rw [eq, List.nil_append, List.filter_cons_of_neg (by rw [decide_eq_true_iff]; exact not_late)]
    · have mem : w ∈ g.pendingWorkers := by
        rcases List.mem_append.mp (firstPendingWorker_mem first) with earlier | mem
        · rcases h before g groups rfl ⟨w, firstPendingWorker_mem first, late⟩ with ⟨u, hu, older⟩
          have le := firstPendingWorker_le first (List.mem_append_right _ hu)
          exact absurd (older w earlier) (not_lt.mpr le)
        · exact mem
      have overdue : SomeOverdue timeout (clock g.group) g.pendingWorkers := ⟨w, mem, late⟩
      rw [eq, group_of_mem_pendingWorkers mem, List.filter_cons,
        if_pos (decide_eq_true overdue)]
      rfl

/-- An overdue node that is not undercut is reported where it is collected and once more. -/
theorem not_nodup_of_not_undercut {before after : List NodeGroup} {g : NodeGroup}
    (first : firstPendingWorker (before.flatMap NodeGroup.pendingWorkers ++ g.pendingWorkers) =
      firstPendingWorker (before.flatMap NodeGroup.pendingWorkers))
    (late : SomeOverdue timeout (clock g.group)
      (before.flatMap NodeGroup.pendingWorkers ++ g.pendingWorkers))
    (keys : ((before ++ g :: after).map NodeGroup.group).Nodup) :
    ¬ FoundExactly timeout clock (before ++ g :: after)
      (reportGroups timeout clock [] (before ++ g :: after)) := by
  intro found
  rcases someOverdue_iff.mp late with ⟨w, oldest, overdue⟩
  rcases firstPendingWorker_origin (first ▸ oldest) with ⟨pre, h, mid, split, mem, origin⟩
  have group := group_of_mem_pendingWorkers mem
  have again : reportGroup timeout (clock g.group)
      (before.flatMap NodeGroup.pendingWorkers ++ g.pendingWorkers) = [h.group] := by
    rcases reportGroup_cases timeout (clock g.group)
        (before.flatMap NodeGroup.pendingWorkers ++ g.pendingWorkers) with
      ⟨none, -⟩ | ⟨v, eq, -, report⟩
    · exact absurd late none
    · rw [oldest] at eq
      cases eq
      rw [report, group]
      rfl
  have all : reportGroups timeout clock [] (before ++ g :: after) =
      reportGroups timeout clock [] pre ++
        (reportGroup timeout (clock h.group)
            (pre.flatMap NodeGroup.pendingWorkers ++ h.pendingWorkers) ++
          reportGroups timeout clock
            (pre.flatMap NodeGroup.pendingWorkers ++ h.pendingWorkers) mid) ++
        ([h.group] ++ reportGroups timeout clock
          (before.flatMap NodeGroup.pendingWorkers ++ g.pendingWorkers) after) := by
    rw [reportGroups_append, List.nil_append, reportGroups, again, split, reportGroups_append,
      List.nil_append, reportGroups]
  have reported : h.group ∈ reportGroups timeout clock [] (before ++ g :: after) := by
    rw [all]
    exact List.mem_append_right _ List.mem_cons_self
  -- so its own node was overdue when its group was looked at
  have own : SomeOverdue timeout (clock h.group)
      (pre.flatMap NodeGroup.pendingWorkers ++ h.pendingWorkers) := by
    rcases (found.overdue h.group).mp reported with ⟨h', mem', same, overdue'⟩
    have here : h ∈ before ++ g :: after := by
      rw [split]
      exact List.mem_append_left _ (List.mem_append_right _ List.mem_cons_self)
    have eq : h' = h := List.inj_on_of_nodup_map keys mem' here same
    rcases overdue_iff.mp (eq ▸ overdue') with ⟨n, hn, late'⟩
    exact ⟨n, List.mem_append_right _ hn, late'⟩
  have once : reportGroup timeout (clock h.group)
      (pre.flatMap NodeGroup.pendingWorkers ++ h.pendingWorkers) = [h.group] := by
    rcases reportGroup_cases timeout (clock h.group)
        (pre.flatMap NodeGroup.pendingWorkers ++ h.pendingWorkers) with
      ⟨none, -⟩ | ⟨v, eq, -, report⟩
    · exact absurd own none
    · rw [origin] at eq
      cases eq
      rw [report, group]
      rfl
  have nodup := found.once
  rw [all, once] at nodup
  exact (List.nodup_append.mp nodup).2.2 _
    (List.mem_append_right _ List.mem_cons_self) _ List.mem_cons_self rfl

/-- Just the overdue groups are reported, each once, just when each group that is looked at with an
overdue node has an older one than all groups before it. -/
theorem getPendingNodeGroups_iff {seconds : ℚ} {strategy : Int} (positive : 0 < seconds)
    (enabled : strategy ≠ 0) (clock : Int → ℚ) (jobNodeGroups : JobNodeGroups) :
    FoundExactly (getGroupPendingTimeout seconds) clock jobNodeGroups.items
        (getPendingNodeGroups seconds strategy .allreduce clock jobNodeGroups) ↔
      EachUndercuts (getGroupPendingTimeout seconds) clock jobNodeGroups.items := by
  have timeout_pos : 0 < getGroupPendingTimeout seconds := by
    unfold getGroupPendingTimeout
    split
    · linarith
    · split
      · norm_num
      · exact positive
  have eq : getPendingNodeGroups seconds strategy .allreduce clock jobNodeGroups =
      reportGroups (getGroupPendingTimeout seconds) clock [] jobNodeGroups.items := by
    apply if_neg
    rintro (none | skip | other)
    · exact absurd timeout_pos (not_lt.mpr none)
    · exact enabled skip
    · exact other rfl
  rw [eq]
  constructor
  · intro found before g after split late
    by_contra not_undercut
    rcases firstPendingWorker_append (before.flatMap NodeGroup.pendingWorkers) g.pendingWorkers with
      same | ⟨w, hw, -, older⟩
    · refine not_nodup_of_not_undercut same late (split ▸ jobNodeGroups.keys_nodup) ?_
      rw [← split]
      exact found
    · exact not_undercut ⟨w, hw, older⟩
  · intro undercuts
    have reported := @reportGroups_of_eachUndercuts _ _ [] jobNodeGroups.items undercuts
    rw [List.flatMap_nil] at reported
    rw [reported]
    constructor
    · exact (List.filter_sublist.map _).nodup jobNodeGroups.keys_nodup
    · intro i
      simp only [List.mem_map, List.mem_filter, decide_eq_true_iff, ← overdue_iff, and_assoc]
      constructor
      · rintro ⟨g, mem, late, eq⟩
        exact ⟨g, mem, eq, late⟩
      · rintro ⟨g, mem, eq, late⟩
        exact ⟨g, mem, late, eq⟩

/-- A group of one relaunched node that has been pending since a time. -/
def pendingGroup (group : Int) (created : ℚ) : NodeGroup where
  group := group
  nodes := [{
    type := .worker, id := 3, rankIndex := 0, status := .pending, relaunchCount := 1,
    maxRelaunchCount := 3, group := some group, groupSize := some 1, createTime := some created }]
  own := by
    intro n h
    rw [List.mem_singleton.mp h]
    exact ⟨rfl, rfl⟩

/-- The next group has no node at all, and the late one is reported again. -/
theorem lateGroup_twice :
    ∃ jobNodeGroups : JobNodeGroups,
      ¬ FoundExactly (getGroupPendingTimeout 300) (fun _ ↦ 1000) jobNodeGroups.items
        (getPendingNodeGroups 300 1 .allreduce (fun _ ↦ 1000) jobNodeGroups) := by
  refine ⟨⟨[pendingGroup 1 0, ⟨2, [], fun n h ↦ absurd h List.not_mem_nil⟩], by decide⟩, ?_⟩
  intro found
  have once := found.once
  revert once
  decide +kernel

/-- A group that is not late, a late one and one that is later still: the last two are reported. -/
theorem lateGroup_once :
    let groups := [pendingGroup 1 900, pendingGroup 2 500, pendingGroup 3 0]
    let jobNodeGroups : JobNodeGroups := ⟨groups, by decide⟩
    let pendingGroups := getPendingNodeGroups 300 1 .allreduce (fun _ ↦ 1000) jobNodeGroups
    pendingGroups = [2, 3] ∧
      FoundExactly (getGroupPendingTimeout 300) (fun _ ↦ 1000) groups pendingGroups := by
  intro groups jobNodeGroups pendingGroups
  refine ⟨by decide +kernel, ?_⟩
  refine (getPendingNodeGroups_iff (by norm_num) (by decide) (fun _ ↦ 1000) jobNodeGroups).mpr ?_
  intro before g after split _
  -- each group is pending for longer than those before it
  have undercut : ∀ i < groups.length, ∃ w ∈ (groups[i]?.map NodeGroup.pendingWorkers).getD [],
      ∀ n ∈ (groups.take i).flatMap NodeGroup.pendingWorkers, w.created < n.created := by
    decide +kernel
  have here := undercut before.length (by rw [show groups = _ from split]; simp)
  rw [show groups = _ from split] at here
  simpa using here

end ProbingBaselines.Dlrover.JobManager
