import Mathlib.Data.List.Sort
import ProbingBaselines.Dlrover.NodeUpdates

/-!
# Restarting a job

`DistributedJobManager.restart` (`master/node/dist_job_manager.py:264-312`) relaunches the newest
worker of each rank and releases the others. `relaunch_node` puts a worker into the plan for removal
only when it has exited: one that is still pending or running keeps its pod, next to the new one.
-/

namespace ProbingBaselines.Dlrover.JobManager

open Lib

/-- The nodes a plan launches and those it removes. -/
structure RestartPlan where
  launchNodes : List Node
  removeNodes : List Node

/-- The statuses of the older workers that are released; `dist_job_manager.py:296-301`. -/
def ToRelease (n : Node) : Prop :=
  n.status ∈ [NodeStatus.pending, .running, .finished, .failed]

instance (n : Node) : Decidable (ToRelease n) := inferInstanceAs (Decidable (_ ∈ _))

/-- The loop of `restart` over the workers: the first of each rank that is wanted, and the others
that are to be released. -/
def pickTargets : List Node → List Nat → List Node × List Node
  | [], _ => ([], [])
  | node :: nodes, targetRanks =>
    if node.rankIndex ∈ targetRanks then
      let picked := pickTargets nodes (targetRanks.erase node.rankIndex)
      (node :: picked.1, picked.2)
    else
      let picked := pickTargets nodes targetRanks
      (picked.1, if ToRelease node then node :: picked.2 else picked.2)

namespace DistributedJobManager

variable {m : DistributedJobManager} {n node : Node} {workerNum r : Nat}

/-- `relaunch_nodes` (`training_node.py:270-278`). -/
def relaunchNodes (m : DistributedJobManager) (removeExitedNode : Bool) :
    List Node → DistributedJobManager × RestartPlan
  | [] => (m, ⟨[], []⟩)
  | node :: nodes =>
    let sub := m.relaunchTrainingNode node removeExitedNode
    let (m, plan) := sub.manager.relaunchNodes removeExitedNode nodes
    (m, ⟨sub.launched :: plan.launchNodes, sub.removeNodes ++ plan.removeNodes⟩)

/-- The workers, those with the largest ids first. -/
def workersById (m : DistributedJobManager) : List Node :=
  (m.nodesOf .worker).insertionSort fun a b ↦ b.id ≤ a.id

/-- `restart`, the restart being number `jobRestartCount`; there is no plan for a job of another
kind, or when there were too many restarts. -/
def restart (m : DistributedJobManager) (allReduce : Bool)
    (jobRestartCount jobMaxRestartCount workerNum : Nat) :
    Option (DistributedJobManager × RestartPlan) :=
  if ¬ allReduce then none
  else if jobMaxRestartCount < jobRestartCount then none
  else
    let (targetNodes, toReleaseNodes) := pickTargets m.workersById (List.range workerNum)
    let (m, plan) := m.relaunchNodes true targetNodes
    some (m, { plan with removeNodes := plan.removeNodes ++ toReleaseNodes })

end DistributedJobManager

/-! ### Which workers are picked -/

/-- The first node of its rank in a list. -/
def FirstOfRank (nodes : List Node) (n : Node) : Prop :=
  nodes.find? (fun node ↦ node.rankIndex = n.rankIndex) = some n

theorem firstOfRank_cons {nodes : List Node} {node n : Node} :
    FirstOfRank (node :: nodes) n ↔
      node = n ∨ node.rankIndex ≠ n.rankIndex ∧ FirstOfRank nodes n := by
  rw [FirstOfRank, List.find?_cons]
  by_cases same : node.rankIndex = n.rankIndex
  · rw [decide_eq_true same, Option.some.injEq]
    exact (or_iff_left fun h ↦ h.1 same).symm
  · have ne : node ≠ n := fun eq ↦ same (eq ▸ rfl)
    rw [decide_eq_false same, or_iff_right ne, and_iff_right same]
    rfl

/-- The first of each wanted rank is picked. -/
theorem mem_targets_iff {nodes : List Node} {ranks : List Nat} {n : Node} (nodup : ranks.Nodup) :
    n ∈ (pickTargets nodes ranks).1 ↔ n.rankIndex ∈ ranks ∧ FirstOfRank nodes n := by
  induction nodes generalizing ranks with
  | nil => simp [pickTargets, FirstOfRank]
  | cons node nodes ih =>
    rw [pickTargets, firstOfRank_cons]
    split
    · next wanted =>
      rw [List.mem_cons, ih (nodup.erase _), nodup.mem_erase_iff]
      constructor
      · rintro (rfl | ⟨⟨other, mem⟩, first⟩)
        · exact ⟨wanted, .inl rfl⟩
        · exact ⟨mem, .inr ⟨fun eq ↦ other eq.symm, first⟩⟩
      · rintro ⟨mem, rfl | ⟨other, first⟩⟩
        · exact .inl rfl
        · exact .inr ⟨⟨fun eq ↦ other eq.symm, mem⟩, first⟩
    · next unwanted =>
      rw [ih nodup]
      constructor
      · rintro ⟨mem, first⟩
        exact ⟨mem, .inr ⟨fun eq ↦ unwanted (eq ▸ mem), first⟩⟩
      · rintro ⟨mem, rfl | ⟨-, first⟩⟩
        · exact absurd mem unwanted
        · exact ⟨mem, first⟩

/-- No rank is picked twice. -/
theorem targets_nodup {nodes : List Node} {ranks : List Nat} (nodup : ranks.Nodup) :
    ((pickTargets nodes ranks).1.map Node.rankIndex).Nodup := by
  induction nodes generalizing ranks with
  | nil => exact List.nodup_nil
  | cons node nodes ih =>
    rw [pickTargets]
    split
    · rw [List.map_cons, List.nodup_cons]
      refine ⟨fun again ↦ ?_, ih (nodup.erase _)⟩
      rcases List.mem_map.mp again with ⟨n, mem, eq⟩
      have wanted := ((mem_targets_iff (nodup.erase _)).mp mem).1
      rw [eq, nodup.mem_erase_iff] at wanted
      exact wanted.1 rfl
    · exact ih nodup

/-- The others are released, when they have a status for it. -/
theorem mem_toRelease_iff {nodes : List Node} {ranks : List Nat} {n : Node} (nodup : ranks.Nodup)
    (distinct : nodes.Nodup) :
    n ∈ (pickTargets nodes ranks).2 ↔
      n ∈ nodes ∧ n ∉ (pickTargets nodes ranks).1 ∧ ToRelease n := by
  induction nodes generalizing ranks with
  | nil => simp [pickTargets]
  | cons node nodes ih =>
    rcases List.nodup_cons.mp distinct with ⟨new, rest⟩
    rw [pickTargets]
    split
    · next wanted =>
      simp only [ih (nodup.erase _) rest, List.mem_cons, not_or]
      constructor
      · rintro ⟨mem, out, release⟩
        exact ⟨.inr mem, ⟨fun eq ↦ new (eq ▸ mem), out⟩, release⟩
      · rintro ⟨eq | mem, ⟨other, out⟩, release⟩
        · exact absurd eq other
        · exact ⟨mem, out, release⟩
    · next unwanted =>
      have out : node ∉ (pickTargets nodes ranks).1 := fun mem ↦
        unwanted ((mem_targets_iff nodup).mp mem).1
      split
      · next release =>
        simp only [List.mem_cons, ih nodup rest]
        constructor
        · rintro (rfl | ⟨mem, h⟩)
          · exact ⟨.inl rfl, out, release⟩
          · exact ⟨.inr mem, h⟩
        · rintro ⟨rfl | mem, h⟩
          · exact .inl rfl
          · exact .inr ⟨mem, h⟩
      · next kept =>
        simp only [List.mem_cons, ih nodup rest]
        constructor
        · rintro ⟨mem, h⟩
          exact ⟨.inr mem, h⟩
        · rintro ⟨rfl | mem, h⟩
          · exact absurd h.2 kept
          · exact ⟨mem, h⟩

namespace DistributedJobManager

variable {m : DistributedJobManager} {n node : Node} {workerNum r : Nat}

/-! ### The newest worker of each rank -/

/-- A worker of this rank, and no worker of the rank has a larger id. -/
structure NewestWorker (m : DistributedJobManager) (r : Nat) (n : Node) : Prop where
  mem : n ∈ m.nodesOf .worker
  rank : n.rankIndex = r
  newest : ∀ n' ∈ m.nodesOf .worker, n'.rankIndex = r → n'.id ≤ n.id

/-- Each node is kept under its own key. -/
def Keyed (m : DistributedJobManager) : Prop := ∀ k n, m.node? k = some n → n.key = k

theorem Keyed.worker_unique (keyed : m.Keyed) {n n' : Node} (h : n ∈ m.nodesOf .worker)
    (h' : n' ∈ m.nodesOf .worker) (same : n.id = n'.id) : n = n' := by
  rcases mem_nodesOf.mp h with ⟨k, found, type⟩
  rcases mem_nodesOf.mp h' with ⟨k', found', type'⟩
  have key : k = k' := by
    rw [← keyed k n found, ← keyed k' n' found', Node.key, Node.key, type, type', same]
  rw [key, found'] at found
  exact (Option.some.inj found).symm

theorem Keyed.nodup_workers (keyed : m.Keyed) : (m.nodesOf .worker).Nodup := by
  apply List.Nodup.filter
  have values : (m.jobNodes.values.map Node.key).Nodup := by
    have eq : m.jobNodes.values.map Node.key = m.jobNodes.keys := by
      unfold Dict.values Dict.keys
      rw [List.map_map]
      refine List.map_congr_left fun e he ↦ ?_
      exact keyed e.1 e.2 (Dict.get?_eq_some_iff.mpr he)
    rw [eq]
    exact m.jobNodes.keys_nodup
  exact values.of_map _

theorem mem_workersById : n ∈ m.workersById ↔ n ∈ m.nodesOf .worker := List.mem_insertionSort _

theorem workersById_pairwise (m : DistributedJobManager) :
    m.workersById.Pairwise fun a b ↦ b.id ≤ a.id := by
  have total : Std.Total fun a b : Node ↦ b.id ≤ a.id := ⟨fun a b ↦ Nat.le_total b.id a.id⟩
  have trans : IsTrans Node fun a b ↦ b.id ≤ a.id := ⟨fun _ _ _ h h' ↦ Nat.le_trans h' h⟩
  exact List.pairwise_insertionSort _ _

theorem firstOfRank_iff {nodes : List Node} (ordered : nodes.Pairwise fun a b ↦ b.id ≤ a.id)
    (unique : ∀ a ∈ nodes, ∀ b ∈ nodes, a.id = b.id → a = b) :
    FirstOfRank nodes n ↔
      n ∈ nodes ∧ ∀ n' ∈ nodes, n'.rankIndex = n.rankIndex → n'.id ≤ n.id := by
  induction nodes with
  | nil => simp [FirstOfRank]
  | cons node nodes ih =>
    rcases List.pairwise_cons.mp ordered with ⟨largest, rest⟩
    have later := ih rest fun a ha b hb ↦
      unique a (List.mem_cons_of_mem _ ha) b (List.mem_cons_of_mem _ hb)
    rw [firstOfRank_cons, later]
    constructor
    · rintro (rfl | ⟨other, mem, newest⟩)
      · refine ⟨List.mem_cons_self, fun n' hn' _ ↦ ?_⟩
        rcases List.mem_cons.mp hn' with rfl | hn'
        · exact Nat.le_refl _
        · exact largest n' hn'
      · refine ⟨List.mem_cons_of_mem _ mem, fun n' hn' same ↦ ?_⟩
        rcases List.mem_cons.mp hn' with rfl | hn'
        · exact absurd same other
        · exact newest n' hn' same
    · rintro ⟨mem, newest⟩
      by_cases same : node.rankIndex = n.rankIndex
      · left
        have le := newest node List.mem_cons_self same
        rcases List.mem_cons.mp mem with rfl | mem'
        · rfl
        · have ge := largest n mem'
          exact unique node List.mem_cons_self n mem (Nat.le_antisymm le ge)
      · right
        refine ⟨same, ?_, fun n' hn' ↦ newest n' (List.mem_cons_of_mem _ hn')⟩
        rcases List.mem_cons.mp mem with rfl | mem
        · exact absurd rfl same
        · exact mem

/-- The workers that are relaunched: the newest of each rank that the job has. -/
theorem Keyed.mem_targets_iff (keyed : m.Keyed) :
    n ∈ (pickTargets m.workersById (List.range workerNum)).1 ↔
      n.rankIndex < workerNum ∧ m.NewestWorker n.rankIndex n := by
  rw [JobManager.mem_targets_iff List.nodup_range, List.mem_range,
    firstOfRank_iff m.workersById_pairwise fun a ha b hb ↦
      keyed.worker_unique (mem_workersById.mp ha) (mem_workersById.mp hb)]
  simp only [mem_workersById]
  exact and_congr_right fun _ ↦
    ⟨fun h ↦ ⟨h.1, rfl, h.2⟩, fun h ↦ ⟨h.mem, h.newest⟩⟩

/-- The workers that are released: all others with such a status. -/
theorem Keyed.mem_toRelease_iff (keyed : m.Keyed) :
    n ∈ (pickTargets m.workersById (List.range workerNum)).2 ↔
      n ∈ m.nodesOf .worker ∧ ¬ (n.rankIndex < workerNum ∧ m.NewestWorker n.rankIndex n) ∧
        ToRelease n := by
  have distinct : m.workersById.Nodup :=
    (List.perm_insertionSort _ _).nodup_iff.mpr keyed.nodup_workers
  rw [JobManager.mem_toRelease_iff List.nodup_range distinct, mem_workersById,
    keyed.mem_targets_iff]

/-! ### The plan -/

theorem launched_relaunchTrainingNode (m : DistributedJobManager) (node : Node) (b : Bool) :
    (m.relaunchTrainingNode node b).launched =
      node.generateRelaunchNode (m.nextNodeId node.type) := by
  unfold relaunchTrainingNode
  split <;> rfl

/-- Each node is relaunched, and the exited ones are removed. -/
theorem relaunchNodes_plan (m : DistributedJobManager) (nodes : List Node) :
    (m.relaunchNodes true nodes).2.launchNodes.map Node.rankIndex = nodes.map Node.rankIndex ∧
      (∀ l ∈ (m.relaunchNodes true nodes).2.launchNodes,
        ∃ node ∈ nodes, l = node.generateRelaunchNode l.id) ∧
      (m.relaunchNodes true nodes).2.removeNodes =
        (nodes.filter fun node ↦ node.isReleased = false ∧ node.exited).map fun node ↦
          { node with isReleased := true } := by
  induction nodes generalizing m with
  | nil => exact ⟨rfl, fun l hl ↦ absurd hl List.not_mem_nil, rfl⟩
  | cons node nodes ih =>
    rcases ih (m.relaunchTrainingNode node true).manager with ⟨ranks, launched, removed⟩
    refine ⟨?_, ?_, ?_⟩
    · simp only [relaunchNodes, List.map_cons, ranks, launched_relaunchTrainingNode]
      rfl
    · intro l hl
      simp only [relaunchNodes] at hl
      rcases List.mem_cons.mp hl with rfl | hl
      · refine ⟨node, List.mem_cons_self, ?_⟩
        rw [launched_relaunchTrainingNode]
        rfl
      · rcases launched l hl with ⟨n, mem, eq⟩
        exact ⟨n, List.mem_cons_of_mem _ mem, eq⟩
    · simp only [relaunchNodes, removed, List.filter_cons]
      by_cases exits : node.isReleased = false ∧ node.exited
      · rw [if_pos (decide_eq_true exits), List.map_cons, relaunchTrainingNode,
          if_pos ⟨rfl, Bool.eq_false_iff.mp exits.1, exits.2⟩, List.singleton_append]
      · rw [if_neg (by rw [decide_eq_true_iff]; exact exits), relaunchTrainingNode,
          if_neg fun h ↦ exits ⟨Bool.eq_false_iff.mpr h.2.1, h.2.2⟩, List.nil_append]

/-- The pod of the worker is in use: it waits or runs, and has not been released. -/
def LivePod (n : Node) : Prop :=
  n.status ∈ [NodeStatus.pending, .running] ∧ n.isReleased = false

instance (n : Node) : Decidable (LivePod n) := inferInstanceAs (Decidable (_ ∧ _))

theorem LivePod.toRelease (live : LivePod n) : ToRelease n ∧ ¬ n.exited := by
  have waits := live.1
  unfold ToRelease Node.exited
  generalize n.status = status at waits ⊢
  revert waits
  cases status <;> decide

theorem exited_of_toRelease (release : ToRelease n)
    (settled : n.status ∉ [NodeStatus.pending, .running]) : n.exited := by
  unfold ToRelease at release
  unfold Node.exited
  generalize n.status = status at release settled ⊢
  revert release settled
  cases status <;> decide

/-- A plan that replaces every rank: one new node for the newest of each rank, all pods that are
still there are removed, and no rank has two pods in use after it. -/
structure Replaces (m : DistributedJobManager) (workerNum : Nat) (plan : RestartPlan) : Prop where
  once : ∀ r, (plan.launchNodes.filter fun l ↦ l.rankIndex = r).length =
    if r < workerNum ∧ ∃ n ∈ m.nodesOf .worker, n.rankIndex = r then 1 else 0
  newest : ∀ l ∈ plan.launchNodes, ∃ n, m.NewestWorker l.rankIndex n ∧
    l = n.generateRelaunchNode l.id
  removed : ∀ n ∈ m.nodesOf .worker, n.isReleased = false → ToRelease n →
    n.key ∈ plan.removeNodes.map Node.key
  single : ∀ r, ((m.nodesOf .worker).filter fun n ↦
      n.rankIndex = r ∧ LivePod n ∧ n.key ∉ plan.removeNodes.map Node.key).length +
    (plan.launchNodes.filter fun l ↦ l.rankIndex = r).length ≤ 1

/-- The newest worker of each rank has exited, or has been released, or has no pod yet. -/
def NewestNotLive (m : DistributedJobManager) (workerNum : Nat) : Prop :=
  ∀ r < workerNum, ∀ n, m.NewestWorker r n → ¬ LivePod n

/-- The plan of a restart. -/
theorem restart_plan {m' : DistributedJobManager} {allReduce : Bool}
    {jobRestartCount jobMaxRestartCount : Nat} {plan : RestartPlan}
    (built : m.restart allReduce jobRestartCount jobMaxRestartCount workerNum = some (m', plan)) :
    plan.launchNodes =
        (m.relaunchNodes true
          (pickTargets m.workersById (List.range workerNum)).1).2.launchNodes ∧
      plan.removeNodes =
        (m.relaunchNodes true
          (pickTargets m.workersById (List.range workerNum)).1).2.removeNodes ++
        (pickTargets m.workersById (List.range workerNum)).2 := by
  unfold restart at built
  split at built
  · cases built
  · split at built
    · cases built
    · cases built
      exact ⟨rfl, rfl⟩

theorem exists_newestWorker (keyed : m.Keyed) (h : n ∈ m.nodesOf .worker) :
    ∃ newest, m.NewestWorker n.rankIndex newest := by
  have some : (m.workersById.find? fun node ↦ node.rankIndex = n.rankIndex).isSome :=
    List.find?_isSome.mpr ⟨n, mem_workersById.mpr h, decide_eq_true rfl⟩
  rcases Option.isSome_iff_exists.mp some with ⟨newest, first⟩
  have rank : newest.rankIndex = n.rankIndex := by
    have found := List.find?_some first
    rwa [decide_eq_true_iff] at found
  have target : FirstOfRank m.workersById newest := by
    rw [FirstOfRank, rank]
    exact first
  rcases (firstOfRank_iff m.workersById_pairwise fun a ha b hb ↦
    keyed.worker_unique (mem_workersById.mp ha) (mem_workersById.mp hb)).mp target with
    ⟨mem, largest⟩
  rw [rank] at largest
  exact ⟨newest, mem_workersById.mp mem, rank, fun n' hn' ↦ largest n' (mem_workersById.mpr hn')⟩

section Plan

variable {m' : DistributedJobManager} {allReduce : Bool} {jobRestartCount jobMaxRestartCount : Nat}
  {plan : RestartPlan}
  (built : m.restart allReduce jobRestartCount jobMaxRestartCount workerNum = some (m', plan))
include built

theorem launched_newest (keyed : m.Keyed) {l : Node} (h : l ∈ plan.launchNodes) :
    ∃ n, m.NewestWorker l.rankIndex n ∧ l = n.generateRelaunchNode l.id := by
  rw [(restart_plan built).1] at h
  rcases (m.relaunchNodes_plan _).2.1 l h with ⟨n, mem, eq⟩
  have rank : n.rankIndex = l.rankIndex := by
    rw [eq]
    rfl
  exact ⟨n, rank ▸ (keyed.mem_targets_iff.mp mem).2, eq⟩

/-- Each rank that has a worker is launched once. -/
theorem launched_once (keyed : m.Keyed) (r : Nat) :
    (plan.launchNodes.filter fun l ↦ l.rankIndex = r).length =
      if r < workerNum ∧ ∃ n ∈ m.nodesOf .worker, n.rankIndex = r then 1 else 0 := by
  have ranks := (m.relaunchNodes_plan (pickTargets m.workersById (List.range workerNum)).1).1
  have nodup : (plan.launchNodes.map Node.rankIndex).Nodup := by
    rw [(restart_plan built).1, ranks]
    exact targets_nodup List.nodup_range
  have count : (plan.launchNodes.filter fun l ↦ l.rankIndex = r).length =
      (plan.launchNodes.map Node.rankIndex).count r := by
    rw [List.count, List.countP_map, List.countP_eq_length_filter]
    rfl
  have launched : r ∈ plan.launchNodes.map Node.rankIndex ↔
      r < workerNum ∧ ∃ n ∈ m.nodesOf .worker, n.rankIndex = r := by
    rw [(restart_plan built).1, ranks, List.mem_map]
    constructor
    · rintro ⟨n, target, rfl⟩
      have newest := keyed.mem_targets_iff.mp target
      exact ⟨newest.1, n, newest.2.mem, rfl⟩
    · rintro ⟨lt, n, mem, rfl⟩
      rcases exists_newestWorker keyed mem with ⟨newest, h⟩
      exact ⟨newest, keyed.mem_targets_iff.mpr (by rw [h.rank]; exact ⟨lt, h⟩), h.rank⟩
  rw [count]
  split
  · next wanted => exact List.count_eq_one_of_mem nodup (launched.mpr wanted)
  · next unwanted => exact List.count_eq_zero.mpr fun mem ↦ unwanted (launched.mp mem)

/-- The worker is removed when it is relaunched and has exited, or when it is released. -/
theorem removed_iff (keyed : m.Keyed) (h : n ∈ m.nodesOf .worker) :
    n.key ∈ plan.removeNodes.map Node.key ↔
      (n.rankIndex < workerNum ∧ m.NewestWorker n.rankIndex n) ∧ n.isReleased = false ∧ n.exited ∨
      ¬ (n.rankIndex < workerNum ∧ m.NewestWorker n.rankIndex n) ∧ ToRelease n := by
  have same : ∀ n' ∈ m.nodesOf .worker, n'.key = n.key → n' = n := fun n' h' eq ↦
    keyed.worker_unique h' h (congrArg Prod.snd eq)
  rw [(restart_plan built).2, (m.relaunchNodes_plan _).2.2, List.map_append, List.mem_append,
    List.map_map]
  refine or_congr ?_ ?_
  · simp only [List.mem_map, List.mem_filter, decide_eq_true_iff]
    constructor
    · rintro ⟨n', ⟨target, exits⟩, eq⟩
      have newest := keyed.mem_targets_iff.mp target
      rw [← same n' newest.2.mem eq]
      exact ⟨newest, exits⟩
    · rintro ⟨newest, exits⟩
      exact ⟨n, ⟨keyed.mem_targets_iff.mpr newest, exits⟩, rfl⟩
  · rw [List.mem_map]
    constructor
    · rintro ⟨n', release, eq⟩
      have others := keyed.mem_toRelease_iff.mp release
      rw [← same n' others.1 eq]
      exact others.2
    · intro others
      exact ⟨n, keyed.mem_toRelease_iff.mpr ⟨h, others⟩, rfl⟩

/-- Every rank is replaced just when no newest worker of a rank still has its pod in use. -/
theorem restart_replaces_iff (keyed : m.Keyed) :
    m.Replaces workerNum plan ↔ m.NewestNotLive workerNum := by
  constructor
  · intro h r lt n newest live
    have target : n.rankIndex < workerNum ∧ m.NewestWorker n.rankIndex n := by
      rw [newest.rank]
      exact ⟨lt, newest⟩
    rcases (removed_iff built keyed newest.mem).mp
        (h.removed n newest.mem live.2 live.toRelease.1) with ⟨-, -, exited⟩ | ⟨other, -⟩
    · exact live.toRelease.2 exited
    · exact other target
  · intro settled
    have removed : ∀ n ∈ m.nodesOf .worker, n.isReleased = false → ToRelease n →
        n.key ∈ plan.removeNodes.map Node.key := by
      intro n mem unreleased release
      rw [removed_iff built keyed mem]
      by_cases target : n.rankIndex < workerNum ∧ m.NewestWorker n.rankIndex n
      · have waits : n.status ∉ [NodeStatus.pending, .running] := fun waits ↦
          settled n.rankIndex target.1 n target.2 ⟨waits, unreleased⟩
        exact .inl ⟨target, unreleased, exited_of_toRelease release waits⟩
      · exact .inr ⟨target, release⟩
    refine ⟨launched_once built keyed, fun l hl ↦ launched_newest built keyed hl, removed, ?_⟩
    intro r
    have none : ((m.nodesOf .worker).filter fun n ↦ n.rankIndex = r ∧ LivePod n ∧
        n.key ∉ plan.removeNodes.map Node.key) = [] := by
      rw [List.filter_eq_nil_iff]
      intro n mem
      rw [decide_eq_true_iff]
      rintro ⟨-, live, kept⟩
      exact kept (removed n mem live.2 live.toRelease.1)
    rw [none, List.length_nil, Nat.zero_add, launched_once built keyed r]
    split
    · exact Nat.le_refl 1
    · exact Nat.zero_le 1

end Plan

/-- One worker of rank zero. -/
def loneWorker (status : NodeStatus) : DistributedJobManager :=
  initNodes [.worker]
    [{ type := .worker, id := 0, rankIndex := 0, status, maxRelaunchCount := 3 }]

/-- A worker that still runs is relaunched, and its pod is not removed. -/
theorem restart_running :
    ∃ m' plan, (loneWorker .running).restart true 1 3 1 = some (m', plan) ∧
      ¬ (loneWorker .running).Replaces 1 plan := by
  refine ⟨_, _, rfl, fun replaces ↦ ?_⟩
  have removed := replaces.removed
  revert removed
  decide

/-- A worker that has failed is relaunched and removed. -/
theorem restart_failed :
    ∃ m' plan, (loneWorker .failed).restart true 1 3 1 = some (m', plan) ∧
      (loneWorker .failed).Replaces 1 plan := by
  have keyed : (loneWorker .failed).Keyed := fun _ _ ↦
    (initNodes_wellFormed (by decide) (by decide)).keyed
  have settled : (loneWorker .failed).NewestNotLive 1 := by
    intro r _ n newest
    rw [List.mem_singleton.mp newest.mem]
    decide
  have built : ∃ built, (loneWorker .failed).restart true 1 3 1 = some built := ⟨_, rfl⟩
  rcases built with ⟨⟨m', plan⟩, built⟩
  exact ⟨m', plan, built, (restart_replaces_iff built keyed).mpr settled⟩

end DistributedJobManager

end ProbingBaselines.Dlrover.JobManager
