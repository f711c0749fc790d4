import ProbingBaselines.Lib.Pairing
import ProbingBaselines.Dlrover.WorkloadGraph

/-!
# Who is charged with a failure

`_record_failure` (`unified/controller/manager.py:687-727`) counts a failure of the workers that are
known to be responsible, or of the one that failed first; `_get_node_relaunch_demand` picks a node
to relaunch from the counts (`manager.py:729-747`). No worker is ever found responsible, since the
test for it reads a method that it does not call.
-/

namespace ProbingBaselines.Dlrover

open Lib

/-- The order of the times of failure; a worker without one comes last. -/
local instance failureTimePreorder : Preorder (WithTop Int) :=
  @WithTop.instPreorder Int Int.instLinearOrder.toPreorder

namespace DLExecutionGraph

/-- `target_instances` (`manager.py:701-706`); `none` for a role that is not in the graph. -/
def targets (g : DLExecutionGraph) (roleName : String) : Option (List (WorkerRef × WorkerVertex)) :=
  if roleName = "GLOBAL" then some (workersOf g.roles.items)
  else (g.roles.get? roleName).map fun role ↦ workersOf [(roleName, role)]

/-- The sort key `x.result.timestamp if x.result else int("inf")`. What stands behind `else` would
raise, but only workers that have failed are sorted. -/
def failureTime (t : WorkerRef × WorkerVertex) : WithTop Int :=
  t.2.result.elim ⊤ fun r ↦ (r.timestamp : WithTop Int)

def incFailureCount (g : DLExecutionGraph) (t : WorkerRef × WorkerVertex) : DLExecutionGraph :=
  g.modifyWorker t.1 WorkerVertex.incFailureCount

/-- `_record_failure` (`manager.py:687-727`). -/
def recordFailure (g : DLExecutionGraph) (roleName : String) : Option DLExecutionGraph :=
  (g.targets roleName).map fun targetInstances ↦
    if targetInstances.any (·.2.isFailureResponsibility) then
      (targetInstances.filter (·.2.isFailureResponsibility)).foldl incFailureCount g
    else
      let failedInstances := (targetInstances.filter (·.2.isFailure)).insertionSort
        fun a b ↦ failureTime a ≤ failureTime b
      failedInstances.head?.elim g g.incFailureCount

/-- `_get_node_relaunch_demand` (`manager.py:729-747`); `none` where it raises. -/
def getNodeRelaunchDemand (g : DLExecutionGraph) (roleName : String) :
    Option (Option WorkerVertex) :=
  if roleName = "GLOBAL" then
    if g.roles.items = [] then none
    else some (g.roles.values.findSome? DLWorkloadRole.getNodeRelaunchDemandActor)
  else (g.roles.get? roleName).map DLWorkloadRole.getNodeRelaunchDemandActor

end DLExecutionGraph

/-! ### The node to relaunch -/

/-- A worker that demands a relaunch has the greatest count of its role, and that is above the
limit; none does if no count is above it. -/
structure DLWorkloadRole.RelaunchesMost (role : DLWorkloadRole) : Prop where
  found : ∀ v, role.getNodeRelaunchDemandActor = some v → v ∈ role.instances ∧
    role.spec.perNodeMaxFailure < v.perNodeFailureCount ∧
    ∀ w ∈ role.instances, w.perNodeFailureCount ≤ v.perNodeFailureCount
  none : role.getNodeRelaunchDemandActor = none → ∀ w ∈ role.instances,
    (w.perNodeFailureCount : Int) ≤ role.spec.perNodeMaxFailure

theorem DLWorkloadRole.relaunchesMost (role : DLWorkloadRole) : role.RelaunchesMost := by
  have sorted := List.pairwise_insertionSort
    (fun a b : WorkerVertex ↦ b.perNodeFailureCount ≤ a.perNodeFailureCount) role.instances
  constructor
  · intro v found
    unfold getNodeRelaunchDemandActor at found
    rcases List.find?_eq_some_iff_append.mp found with ⟨exceeds, before, later, eq, below⟩
    rw [decide_eq_true_eq] at exceeds
    rw [eq] at sorted
    have after := (List.pairwise_cons.mp (List.pairwise_append.mp sorted).2.1).1
    have mem : ∀ w, w ∈ role.instances ↔ w ∈ before ∨ w = v ∨ w ∈ later := by
      intro w
      rw [← List.mem_insertionSort
        (fun a b : WorkerVertex ↦ b.perNodeFailureCount ≤ a.perNodeFailureCount), eq,
        List.mem_append, List.mem_cons]
    refine ⟨(mem v).mpr (.inr (.inl rfl)), exceeds, fun w hw ↦ ?_⟩
    rcases (mem w).mp hw with early | rfl | late
    · have := below w early
      simp only [Bool.not_eq_true', decide_eq_false_iff_not, not_lt] at this
      omega
    · exact le_rfl
    · exact after w late
  · intro none w hw
    unfold getNodeRelaunchDemandActor at none
    have := List.find?_eq_none.mp none w ((List.mem_insertionSort _).mpr hw)
    simpa using this

namespace DLExecutionGraph

/-! ### The workers that are charged -/

/-- The workers of `charged` have one failure more, in both of their counts, and nothing else has
changed. -/
structure Charged (g g' : DLExecutionGraph) (charged : List WorkerRef) : Prop where
  keys : g'.roles.keys = g.roles.keys
  rest : ∀ name, g'.rest name = g.rest name
  worker : ∀ ref, g'.worker ref =
    (g.worker ref).map fun v ↦ if ref ∈ charged then v.incFailureCount else v

/-- The workers that did not succeed and whose diagnostic says that they are responsible. -/
def responsible (targets : List (WorkerRef × WorkerVertex)) : List (WorkerRef × WorkerVertex) :=
  targets.filter fun t ↦ !t.2.isSuccess &&
    (t.2.diagnostic = some .rootCause || t.2.diagnostic = some .related)

/-- The first of the workers whose failure is the earliest. -/
def firstFailed (targets : List (WorkerRef × WorkerVertex)) :
    Option (WorkerRef × WorkerVertex) :=
  (targets.filter (·.2.isFailure)).argmin failureTime

/-- Those who are to be charged. -/
def blamed (targets : List (WorkerRef × WorkerVertex)) :
    List (WorkerRef × WorkerVertex) :=
  if responsible targets = [] then (firstFailed targets).toList else responsible targets

theorem isFailureResponsibility_eq (v : WorkerVertex) : v.isFailureResponsibility = false := rfl

/-- It is always the first one to fail that is charged. -/
theorem recordFailure_eq (g : DLExecutionGraph) (roleName : String) :
    g.recordFailure roleName =
      (g.targets roleName).map fun targets ↦ (firstFailed targets).elim g g.incFailureCount := by
  simp only [recordFailure, isFailureResponsibility_eq, firstFailed, head?_insertionSort]
  simp

theorem charged_firstFailed (g : DLExecutionGraph) (first : Option (WorkerRef × WorkerVertex)) :
    g.Charged (first.elim g g.incFailureCount) (first.toList.map Prod.fst) := by
  cases first with
  | none => exact ⟨rfl, fun _ ↦ rfl, fun ref ↦ by simp⟩
  | some t =>
    refine ⟨g.modifyWorker_keys _ _, g.modifyWorker_rest _ _, fun ref ↦ ?_⟩
    simp [incFailureCount, g.modifyWorker_worker]

theorem incFailureCount_ne (v : WorkerVertex) : v.incFailureCount ≠ v := by
  intro eq
  have := congrArg WorkerVertex.totalFailureCount eq
  simp [WorkerVertex.incFailureCount] at this

/-- Two descriptions of what was charged agree on the workers of the graph. -/
theorem charged_iff {g g' : DLExecutionGraph} {charged other : List WorkerRef}
    (h : g.Charged g' charged) (known : ∀ ref ∈ charged ++ other, (g.worker ref).isSome) :
    g.Charged g' other ↔ ∀ ref, ref ∈ other ↔ ref ∈ charged := by
  constructor
  · intro h' ref
    by_cases mem : ref ∈ charged ++ other
    · rcases Option.isSome_iff_exists.mp (known ref mem) with ⟨v, found⟩
      have same := (h'.worker ref).symm.trans (h.worker ref)
      rw [found, Option.map_some, Option.map_some, Option.some.injEq] at same
      by_cases left : ref ∈ other
      · by_cases right : ref ∈ charged
        · exact iff_of_true left right
        · rw [if_pos left, if_neg right] at same
          exact absurd same (incFailureCount_ne v)
      · by_cases right : ref ∈ charged
        · rw [if_neg left, if_pos right] at same
          exact absurd same.symm (incFailureCount_ne v)
        · exact iff_of_false left right
    · rw [List.mem_append, not_or] at mem
      exact iff_of_false mem.2 mem.1
  · intro same
    refine ⟨h.keys, h.rest, fun ref ↦ ?_⟩
    simp only [h.worker ref, same ref]

theorem targets_worker {g : DLExecutionGraph} {roleName : String}
    {targets : List (WorkerRef × WorkerVertex)} (eq : g.targets roleName = some targets)
    {t : WorkerRef × WorkerVertex} (mem : t ∈ targets) : g.worker t.1 = some t.2 := by
  unfold DLExecutionGraph.targets at eq
  split at eq
  · cases eq
    exact worker_of_mem (fun e he ↦ he) mem
  · rcases Option.map_eq_some_iff.mp eq with ⟨role, found, rfl⟩
    refine worker_of_mem (fun e he ↦ ?_) mem
    rw [List.mem_singleton.mp he]
    exact Dict.get?_eq_some_iff.mp found

theorem mem_of_mem_firstFailed {targets : List (WorkerRef × WorkerVertex)}
    {t : WorkerRef × WorkerVertex} (h : firstFailed targets = some t) : t ∈ targets :=
  (List.mem_filter.mp (List.argmin_mem h)).1

theorem mem_of_mem_blamed {targets : List (WorkerRef × WorkerVertex)}
    {t : WorkerRef × WorkerVertex} (h : t ∈ blamed targets) : t ∈ targets := by
  unfold blamed at h
  split at h
  · exact mem_of_mem_firstFailed (Option.mem_toList.mp h)
  · exact (List.mem_filter.mp h).1

theorem nodup_workersOf {roles : List (String × DLWorkloadRole)}
    (nodup : (roles.map Prod.fst).Nodup) : (workersOf roles).Nodup := by
  rw [workersOf, List.nodup_flatMap]
  constructor
  · intro e _
    apply List.Nodup.of_map fun t : WorkerRef × WorkerVertex ↦ t.1.2
    rw [List.map_map]
    have indices : (fun t : WorkerRef × WorkerVertex ↦ t.1.2) ∘
        (fun v : WorkerVertex × Nat ↦ ((e.1, v.2), v.1)) = Prod.snd := rfl
    rw [indices, List.zipIdx_map_snd]
    exact List.nodup_range'
  · refine (List.pairwise_map.mp nodup).imp fun ne ↦ ?_
    apply List.disjoint_left.mpr
    intro t left right
    rcases List.mem_map.mp left with ⟨v, -, rfl⟩
    rcases List.mem_map.mp right with ⟨w, -, eq⟩
    exact ne (congrArg (·.1.1) eq).symm

theorem nodup_targets {g : DLExecutionGraph} {roleName : String}
    {targets : List (WorkerRef × WorkerVertex)} (eq : g.targets roleName = some targets) :
    targets.Nodup := by
  unfold DLExecutionGraph.targets at eq
  split at eq
  · cases eq
    exact nodup_workersOf g.roles.nodup
  · rcases Option.map_eq_some_iff.mp eq with ⟨role, -, rfl⟩
    exact nodup_workersOf (List.nodup_singleton _)

/-- The places tell the workers apart. -/
theorem eq_of_ref_eq {g : DLExecutionGraph} {roleName : String}
    {targets : List (WorkerRef × WorkerVertex)} (eq : g.targets roleName = some targets)
    {t u : WorkerRef × WorkerVertex} (ht : t ∈ targets) (hu : u ∈ targets) (same : t.1 = u.1) :
    t = u := by
  have worker := (targets_worker eq ht).symm.trans (same ▸ targets_worker eq hu)
  exact Prod.ext same (Option.some.inj worker)

/-- No role is charged wrongly exactly if none of its workers is responsible, or the only one that
is was the first to fail. -/
theorem recordFailure_iff {g : DLExecutionGraph} {roleName : String}
    (known : roleName = "GLOBAL" ∨ roleName ∈ g.roles) :
    ∃ targets g', g.targets roleName = some targets ∧ g.recordFailure roleName = some g' ∧
      (g.Charged g' ((blamed targets).map Prod.fst) ↔
        responsible targets = [] ∨
          ∃ t, responsible targets = [t] ∧ firstFailed targets = some t) ∧
      ∀ name role, g'.roles.get? name = some role → role.RelaunchesMost := by
  have some_targets : ∃ targets, g.targets roleName = some targets := by
    unfold DLExecutionGraph.targets
    split
    · exact ⟨_, rfl⟩
    · next ne =>
      rcases Dict.mem_iff.mp (known.resolve_left ne) with ⟨role, mem⟩
      exact ⟨_, by rw [Dict.get?_eq_some_iff.mpr mem, Option.map_some]⟩
  rcases some_targets with ⟨targets, eq⟩
  refine ⟨targets, (firstFailed targets).elim g g.incFailureCount, eq, ?_, ?_,
    fun name role _ ↦ role.relaunchesMost⟩
  · rw [recordFailure_eq, eq, Option.map_some]
  have charged := g.charged_firstFailed (firstFailed targets)
  have first_mem : ∀ t, t ∈ (firstFailed targets).toList → t ∈ targets :=
    fun t mem ↦ mem_of_mem_firstFailed (Option.mem_toList.mp mem)
  rw [charged_iff charged]
  · by_cases none : responsible targets = []
    · simp [blamed, none]
    · rw [blamed, if_neg none]
      constructor
      · intro same
        right
        rcases List.exists_mem_of_ne_nil _ none with ⟨t, mem⟩
        have in_targets : ∀ u ∈ responsible targets, u ∈ targets :=
          fun u hu ↦ (List.mem_filter.mp hu).1
        have is_first : ∀ u ∈ responsible targets, firstFailed targets = some u := by
          intro u hu
          rcases List.mem_map.mp ((same u.1).mp (List.mem_map_of_mem hu)) with ⟨first, hf, ref⟩
          rw [← eq_of_ref_eq eq (first_mem first hf) (in_targets u hu) ref]
          exact Option.mem_toList.mp hf
        refine ⟨t, ?_, is_first t mem⟩
        have all : ∀ u ∈ responsible targets, u = t := fun u hu ↦
          Option.some.inj ((is_first u hu).symm.trans (is_first t mem))
        have nodup : (responsible targets).Nodup := (nodup_targets eq).filter _
        rw [List.eq_replicate_of_mem all] at nodup ⊢
        have one := List.nodup_replicate.mp nodup
        have pos := List.length_pos_of_mem mem
        rw [show (responsible targets).length = 1 by omega]
        rfl
      · rintro (nil | ⟨t, single, first⟩) ref
        · exact absurd nil none
        · simp [single, first]
  · intro ref mem
    rcases List.mem_append.mp mem with left | right
    · rcases List.mem_map.mp left with ⟨t, ht, rfl⟩
      rw [targets_worker eq (first_mem t ht)]
      rfl
    · rcases List.mem_map.mp right with ⟨t, ht, rfl⟩
      rw [targets_worker eq (mem_of_mem_blamed ht)]
      rfl

/-- The demand of the whole job is that of one of its roles. -/
theorem getNodeRelaunchDemand_role {g : DLExecutionGraph} {roleName : String} {v : WorkerVertex}
    (h : g.getNodeRelaunchDemand roleName = some (some v)) :
    ∃ role ∈ g.roles.values, role.getNodeRelaunchDemandActor = some v := by
  unfold getNodeRelaunchDemand at h
  split at h
  · split at h
    · contradiction
    · exact List.exists_of_findSome?_eq_some (Option.some.inj h)
  · rcases Option.map_eq_some_iff.mp h with ⟨role, found, demand⟩
    exact ⟨role, List.mem_map_of_mem (Dict.get?_eq_some_iff.mp found), demand⟩

/-- Two workers of a role; the first to fail is the victim of the other. -/
def affected : DLExecutionGraph :=
  let spec := .ofGroups .elastic 2 1 ⟨1, 0, 0, 0, .empty⟩ none Nat.one_pos
  let victim := { DLWorkloadRole.newWorker spec 2 0 with
    result := some ⟨true, 10⟩, diagnostic := some .beAffected }
  let cause := { DLWorkloadRole.newWorker spec 2 1 with
    result := some ⟨true, 20⟩, diagnostic := some .rootCause }
  ⟨.ofItems [("w", { DLWorkloadRole.init "w" spec 2 with instances := [victim, cause] })]⟩

theorem recordFailure_iff_affected :
    ∃ targets g', affected.targets "w" = some targets ∧ affected.recordFailure "w" = some g' ∧
      (affected.Charged g' ((blamed targets).map Prod.fst) ↔
        responsible targets = [] ∨
          ∃ t, responsible targets = [t] ∧ firstFailed targets = some t) ∧
      ∀ name role, g'.roles.get? name = some role → role.RelaunchesMost :=
  recordFailure_iff (.inr (by decide +kernel))

/-- The victim is charged, and the worker that caused its failure is not. -/
theorem affected_is_charged :
    ∃ targets g', affected.targets "w" = some targets ∧ affected.recordFailure "w" = some g' ∧
      (g'.worker ("w", 0)).map WorkerVertex.perNodeFailureCount = some 1 ∧
      (g'.worker ("w", 1)).map WorkerVertex.perNodeFailureCount = some 0 ∧
      ¬ affected.Charged g' ((blamed targets).map Prod.fst) := by
  have eval : ((affected.targets "w").any fun targets ↦ (affected.recordFailure "w").any fun g' ↦
      ("w", 1) ∈ (blamed targets).map Prod.fst ∧
      (affected.worker ("w", 1)).map WorkerVertex.perNodeFailureCount = some 0 ∧
      (g'.worker ("w", 0)).map WorkerVertex.perNodeFailureCount = some 1 ∧
      (g'.worker ("w", 1)).map WorkerVertex.perNodeFailureCount = some 0) = true := by
    decide +kernel
  rcases (Option.any_eq_true _ _).mp eval with ⟨targets, eq, found⟩
  rcases (Option.any_eq_true _ _).mp found with ⟨g', recorded, holds⟩
  rcases of_decide_eq_true holds with ⟨mem, before, victim, cause⟩
  refine ⟨targets, g', eq, recorded, victim, cause, fun charged ↦ ?_⟩
  have counted := charged.worker ("w", 1)
  rcases Option.map_eq_some_iff.mp before with ⟨v, found, -⟩
  rw [found, Option.map_some, if_pos mem] at counted
  rw [counted, Option.map_some, Option.some.injEq] at cause
  exact absurd cause (Nat.succ_ne_zero v.perNodeFailureCount)

end DLExecutionGraph

end ProbingBaselines.Dlrover
