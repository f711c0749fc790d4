import Mathlib.Data.List.Pairwise
import ProbingBaselines.Lib.Dict
import ProbingBaselines.Lib.Pairing

/-!
# The node check of an elastic workload

`NodeCheckManager` (`unified/backend/elastic/node_check_manager.py:38-157`) times every worker in
two rounds: first the nodes are paired, then the workers, the best of the first round with the
worst. A worker is abnormal if it was slow in both. With one bad node the workers that were slow in
the first round stand at the end of the order, so that each of them meets one that was not.
-/

namespace ProbingBaselines.Dlrover

open Lib

/-- `ActorInfo`, as far as the check reads it. -/
structure RankedWorker where
  name : String
  rank : Nat

namespace NodeCheck

variable {ν : Type} [DecidableEq ν] {T : Type} [LinearOrder T]

/-- `assert_sorted_by_rank`. -/
def assertSortedByRank (workers : List RankedWorker) : Bool :=
  workers.zipIdx.all fun e ↦ e.1.rank = e.2

/-- `group_by_node` (`node_check_manager.py:38-49`), given the node ids in the order of the
workers. -/
def groupByNode (workers : List RankedWorker) (nodeIds : List ν) : List (List RankedWorker) :=
  (Dict.groupBy Prod.fst (nodeIds.zip workers)).values.map fun es ↦ es.map Prod.snd

/-- `_grouping_round0` (`node_check_manager.py:134-142`). -/
def groupingRound0 (size : Nat) : List (List Nat) :=
  (List.range ((size + 1) / 2)).map fun k ↦
    if 2 * k + 1 < size then [2 * k, 2 * k + 1] else [2 * k]

/-- `sorted_nodes`, the ranks from the best to the worst time. -/
def sortedNodes (lastElapsedTime : List T) : List Nat :=
  ((List.finRange lastElapsedTime.length).insertionSort fun a b ↦
    lastElapsedTime.get a ≤ lastElapsedTime.get b).map Fin.val

/-- `_grouping_round1` (`node_check_manager.py:144-157`): the loop `while left < right` pairs the
ends of `sorted_nodes`. -/
def groupingRound1 (lastElapsedTime : List T) : List (List Nat) :=
  Pairing.crossed (sortedNodes lastElapsedTime)

/-- The ranks that `check_nodes` groups in its first round (`node_check_manager.py:69-76`). -/
def rankGroups (workers : List RankedWorker) (nodeIds : List ν) : List (List Nat) :=
  let grouped := groupByNode workers nodeIds
  (groupingRound0 grouped.length).map fun group ↦
    group.flatMap fun node ↦ (grouped[node]?.getD []).map RankedWorker.rank

/-- `check_nodes` (`node_check_manager.py:55-100`). `perform` is what `_perform_node_check` returns
in a round once the rendezvous groups of that round are set up. -/
def checkNodes (workers : List RankedWorker) (nodeIds : List ν)
    (perform : Nat → List (List Nat) → List T) : Option (List T) := do
  guard (assertSortedByRank workers)
  let resRound0 := perform 0 (rankGroups workers nodeIds)
  let resRound1 := perform 1 (groupingRound1 resRound0)
  return List.zipWith min resRound0 resRound1

/-- `find_abnormal_nodes`. -/
def findAbnormalNodes (nodes : List RankedWorker) (times : List T) (threshold : T) :
    List RankedWorker :=
  ((nodes.zip times).filter fun e ↦ threshold < e.2).map Prod.fst

/-! ### The groups -/

theorem groupingRound0_add_two (size : Nat) :
    groupingRound0 (size + 2) = [0, 1] :: (groupingRound0 size).map (List.map (· + 2)) := by
  have count : (size + 2 + 1) / 2 = (size + 1) / 2 + 1 := by omega
  rw [groupingRound0, count, List.range_succ_eq_map, List.map_cons, List.map_map, groupingRound0,
    List.map_map, if_pos (by omega)]
  congr 1
  apply List.map_congr_left
  intro k _
  have same : 2 * (k + 1) + 1 < size + 2 ↔ 2 * k + 1 < size := by omega
  simp only [Function.comp_apply, Nat.succ_eq_add_one, same]
  split <;> simp [Nat.mul_add]

theorem flatten_groupingRound0 (size : Nat) : (groupingRound0 size).flatten = List.range size := by
  induction size using Nat.twoStepInduction with
  | zero => rfl
  | one => rfl
  | more size ih _ =>
    rw [groupingRound0_add_two, List.flatten_cons, ← List.map_flatten, ih, List.range_succ_eq_map,
      List.range_succ_eq_map, List.map_cons, List.map_map]
    rfl

theorem map_rank_of_sorted {workers : List RankedWorker} (sorted : assertSortedByRank workers) :
    workers.map RankedWorker.rank = List.range workers.length := by
  have each := List.all_eq_true.mp sorted
  apply List.ext_getElem (by simp)
  intro i h h'
  rw [List.length_map] at h
  have mem : (workers[i], i) ∈ workers.zipIdx := by
    rw [List.mem_zipIdx_iff_getElem?]
    exact List.getElem?_eq_getElem h
  simpa using each _ mem

/-- The groups have every rank below `size` once, and none is empty. -/
def IsPartition (groups : List (List Nat)) (size : Nat) : Prop :=
  groups.flatten.Perm (List.range size) ∧ ∀ group ∈ groups, group ≠ []

theorem IsPartition.eq_of_mem {groups : List (List Nat)} {size : Nat}
    (h : IsPartition groups size) {group other : List Nat} (mem : group ∈ groups)
    (mem' : other ∈ groups) {x : Nat} (hx : x ∈ group) (hx' : x ∈ other) : group = other := by
  have nodup := List.nodup_flatten.mp (h.1.nodup_iff.mpr List.nodup_range)
  have symm : Std.Symm (@List.Disjoint Nat) := ⟨fun _ _ h ↦ h.symm⟩
  by_contra ne
  exact nodup.2.forall mem mem' ne hx hx'

theorem IsPartition.exists_mem {groups : List (List Nat)} {size : Nat}
    (h : IsPartition groups size) {x : Nat} (lt : x < size) : ∃ group ∈ groups, x ∈ group :=
  List.mem_flatten.mp (h.1.mem_iff.mpr (List.mem_range.mpr lt))

theorem IsPartition.lt {groups : List (List Nat)} {size : Nat} (h : IsPartition groups size)
    {group : List Nat} (mem : group ∈ groups) {x : Nat} (hx : x ∈ group) : x < size :=
  List.mem_range.mp (h.1.mem_iff.mp (List.mem_flatten.mpr ⟨group, mem, hx⟩))

/-! ### The first round -/

section Round0

variable {workers : List RankedWorker} {nodeIds : List ν}

/-- The workers of the groups are those of the nodes, in the nodes' order. -/
theorem flatten_rankGroups (workers : List RankedWorker) (nodeIds : List ν) :
    (rankGroups workers nodeIds).flatten =
      (groupByNode workers nodeIds).flatten.map RankedWorker.rank := by
  have nodes : (List.range (groupByNode workers nodeIds).length).map
      (fun node ↦ ((groupByNode workers nodeIds)[node]?.getD []).map RankedWorker.rank) =
      (groupByNode workers nodeIds).map (List.map RankedWorker.rank) := by
    apply List.ext_getElem (by simp)
    intro i h h'
    rw [List.length_map] at h'
    simp [h']
  have groups : (rankGroups workers nodeIds).flatten = (groupingRound0
      (groupByNode workers nodeIds).length).flatten.flatMap fun node ↦
        ((groupByNode workers nodeIds)[node]?.getD []).map RankedWorker.rank := by
    rw [← List.flatMap_id, ← List.flatMap_id, List.flatMap_assoc, rankGroups, List.flatMap_map]
    rfl
  rw [groups, flatten_groupingRound0, List.flatMap_def, nodes, List.map_flatten]

theorem groupByNode_eq (workers : List RankedWorker) (nodeIds : List ν) :
    groupByNode workers nodeIds =
      (Dict.groupBy Prod.fst (nodeIds.zip workers)).items.map fun e ↦ e.2.map Prod.snd := by
  rw [groupByNode, Dict.values, List.map_map]
  rfl

/-- The ranks of a node's workers are the places at which its id stands. -/
theorem mem_ranks_iff (sorted : assertSortedByRank workers) {e : ν × List (ν × RankedWorker)}
    (mem : e ∈ (Dict.groupBy Prod.fst (nodeIds.zip workers)).items) {x : Nat}
    (lt : x < workers.length) :
    x ∈ (e.2.map Prod.snd).map RankedWorker.rank ↔ nodeIds[x]? = some e.1 := by
  have ranks := map_rank_of_sorted sorted
  have rank : ∀ {i : Nat} {w : RankedWorker}, workers[i]? = some w → w.rank = i := by
    intro i w hw
    have at_i := congrArg (·[i]?) ranks
    simp only [List.getElem?_map, hw, Option.map_some] at at_i
    rcases List.getElem?_eq_some_iff.mp at_i.symm with ⟨h, eq⟩
    rw [← eq, List.getElem_range]
  rw [(Dict.mem_items_groupBy.mp mem).2]
  simp only [List.mem_map, List.mem_filter, decide_eq_true_eq]
  constructor
  · rintro ⟨w, ⟨⟨id, w'⟩, ⟨zip, rfl⟩, rfl⟩, rfl⟩
    rcases List.mem_iff_getElem?.mp zip with ⟨i, hi⟩
    rcases List.getElem?_zip_eq_some.mp hi with ⟨hid, hw⟩
    rw [rank hw]
    exact hid
  · intro hid
    have hw := List.getElem?_eq_getElem lt
    refine ⟨workers[x], ⟨(e.1, workers[x]), ⟨?_, rfl⟩, rfl⟩, rank hw⟩
    exact List.mem_iff_getElem?.mpr ⟨x, List.getElem?_zip_eq_some.mpr ⟨hid, hw⟩⟩

/-- A group of the first round holds whole nodes. -/
theorem mem_of_mem_rankGroups (sorted : assertSortedByRank workers) {group : List Nat}
    (mem : group ∈ rankGroups workers nodeIds) {x y : Nat} (hx : x ∈ group)
    (ltx : x < workers.length) (lty : y < workers.length) {b : ν} (idx : nodeIds[x]? = some b)
    (idy : nodeIds[y]? = some b) : y ∈ group := by
  rcases List.mem_map.mp mem with ⟨nodes, -, rfl⟩
  rcases List.mem_flatMap.mp hx with ⟨node, hnode, hx⟩
  refine List.mem_flatMap.mpr ⟨node, hnode, ?_⟩
  cases found : (groupByNode workers nodeIds)[node]? with
  | none => simp [found] at hx
  | some ws =>
    rw [found, Option.getD_some] at hx
    rw [Option.getD_some]
    have known := List.mem_of_getElem? found
    rw [groupByNode_eq, List.mem_map] at known
    rcases known with ⟨e, he, rfl⟩
    rw [mem_ranks_iff sorted he ltx, idx] at hx
    rw [mem_ranks_iff sorted he lty, idy, hx]

theorem rankGroups_isPartition (sorted : assertSortedByRank workers)
    (length : nodeIds.length = workers.length) :
    IsPartition (rankGroups workers nodeIds) workers.length := by
  constructor
  · have perm := (Dict.groupBy_spec Prod.fst (nodeIds.zip workers)).1.map Prod.snd
    rw [List.map_snd_zip (Nat.le_of_eq length.symm), List.map_flatten] at perm
    rw [flatten_rankGroups, ← map_rank_of_sorted sorted]
    exact perm.map RankedWorker.rank
  · intro group mem empty
    rcases List.mem_map.mp mem with ⟨nodes, hnodes, rfl⟩
    rw [List.flatMap_eq_nil_iff] at empty
    -- the first node of the group has a worker
    have front : ∃ node ∈ nodes, node < (groupByNode workers nodeIds).length := by
      rcases List.mem_map.mp hnodes with ⟨k, hk, rfl⟩
      rw [List.mem_range] at hk
      refine ⟨2 * k, ?_, by omega⟩
      split <;> simp
    rcases front with ⟨node, hnode, lt⟩
    have none := empty node hnode
    rw [List.getElem?_eq_getElem lt, Option.getD_some, List.map_eq_nil_iff] at none
    have known := List.getElem_mem lt
    rw [none, groupByNode_eq, List.mem_map] at known
    rcases known with ⟨e, he, none⟩
    rw [List.map_eq_nil_iff] at none
    rcases Dict.mem_items_groupBy.mp he with ⟨⟨v, hv, eq⟩, values⟩
    have kept : v ∈ e.2 := by
      rw [values, List.mem_filter]
      exact ⟨hv, decide_eq_true eq⟩
    rw [none] at kept
    exact absurd kept List.not_mem_nil

end Round0

/-! ### The second round -/

section Round1

variable {times : List T}

theorem sortedNodes_perm (times : List T) : (sortedNodes times).Perm (List.range times.length) := by
  have perm := (List.perm_insertionSort (fun a b ↦ times.get a ≤ times.get b)
    (List.finRange times.length)).map Fin.val
  rwa [List.map_coe_finRange_eq_range] at perm

/-- The ranks above a threshold stand behind the others. -/
theorem sortedNodes_up (times : List T) (threshold : T) : (sortedNodes times).Pairwise fun x y ↦
    times[x]?.any (threshold < ·) → times[y]?.any (threshold < ·) := by
  have total : Std.Total fun a b ↦ times.get a ≤ times.get b :=
    ⟨fun a b ↦ le_total (times.get a) (times.get b)⟩
  have trans : IsTrans _ fun a b ↦ times.get a ≤ times.get b := ⟨fun _ _ _ ↦ le_trans⟩
  rw [sortedNodes, List.pairwise_map]
  refine (List.pairwise_insertionSort _ _).imp ?_
  intro a b le above
  simp only [List.getElem?_eq_getElem a.isLt, List.getElem?_eq_getElem b.isLt,
    Option.any_some, decide_eq_true_eq] at above ⊢
  exact lt_of_lt_of_le above le

theorem groupingRound1_isPartition (times : List T) :
    IsPartition (groupingRound1 times) times.length :=
  ⟨(Pairing.flatten_crossed_perm _).trans (sortedNodes_perm times),
    fun _ mem ↦ Pairing.ne_nil_of_mem_crossed mem⟩

end Round1

/-! ### One bad node -/

/-- The group of the rank has a worker of the node `b`. -/
def Slowed (groups : List (List Nat)) (nodeIds : List ν) (b : ν) (x : Nat) : Prop :=
  ∃ group ∈ groups, x ∈ group ∧ ∃ y ∈ group, nodeIds[y]? = some b

instance (groups : List (List Nat)) (nodeIds : List ν) (b : ν) (x : Nat) :
    Decidable (Slowed groups nodeIds b x) :=
  inferInstanceAs (Decidable (∃ group ∈ groups, x ∈ group ∧ ∃ y ∈ group, nodeIds[y]? = some b))

/-- The times of a round in which exactly the groups with a worker of `b` are above the
threshold. -/
structure Measured (threshold : T) (groups : List (List Nat)) (nodeIds : List ν) (b : ν)
    (times : List T) : Prop where
  length : times.length = nodeIds.length
  slow : ∀ x (h : x < times.length), threshold < times[x] ↔ Slowed groups nodeIds b x

section OneBadNode

variable {workers : List RankedWorker} {nodeIds : List ν} {b : ν} {threshold : T}
  {res0 res1 : List T}

omit [DecidableEq ν] in
theorem Measured.any {groups : List (List Nat)} (round : Measured threshold groups nodeIds b res0)
    {x : Nat} (lt : x < nodeIds.length) :
    res0[x]?.any (threshold < ·) ↔ Slowed groups nodeIds b x := by
  have lt' : x < res0.length := by rwa [round.length]
  rw [List.getElem?_eq_getElem lt', Option.any_some, decide_eq_true_eq, round.slow x lt']

omit [DecidableEq ν] in
theorem IsPartition.slowed {groups : List (List Nat)} {size : Nat} (h : IsPartition groups size)
    {x : Nat} (lt : x < size) (id : nodeIds[x]? = some b) : Slowed groups nodeIds b x := by
  rcases h.exists_mem lt with ⟨group, mem, hx⟩
  exact ⟨group, mem, hx, x, hx, id⟩

/-- The ranks that are slow in the first round are in the group of `b`, so at most half. -/
theorem Measured.few (sorted : assertSortedByRank workers)
    (length : nodeIds.length = workers.length)
    (small : ∀ group ∈ rankGroups workers nodeIds, ∀ y ∈ group, nodeIds[y]? = some b →
      2 * group.length ≤ workers.length)
    (round0 : Measured threshold (rankGroups workers nodeIds) nodeIds b res0) :
    2 * (sortedNodes res0).countP (fun x ↦ res0[x]?.any (threshold < ·)) ≤
      (sortedNodes res0).length := by
  have perm := sortedNodes_perm res0
  have partition := rankGroups_isPartition sorted length
  have size : res0.length = workers.length := round0.length.trans length
  have known : ∀ x ∈ sortedNodes res0, x < nodeIds.length := by
    intro x hx
    rw [length, ← size]
    exact List.mem_range.mp (perm.mem_iff.mp hx)
  rw [perm.length_eq, List.length_range, size, List.countP_eq_length_filter]
  rcases List.eq_nil_or_concat'
    ((sortedNodes res0).filter fun x ↦ res0[x]?.any (threshold < ·)) with none | ⟨front, x, eq⟩
  · rw [none]
    exact Nat.zero_le _
  · have hx : x ∈ (sortedNodes res0).filter fun x ↦ res0[x]?.any (threshold < ·) := by
      rw [eq]
      exact List.mem_concat_self
    rw [List.mem_filter] at hx
    rcases (round0.any (known x hx.1)).mp hx.2 with ⟨group, mem, -, y, hy, idy⟩
    have inside : (sortedNodes res0).filter (fun x ↦ res0[x]?.any (threshold < ·)) ⊆ group := by
      intro z hz
      rw [List.mem_filter] at hz
      rcases (round0.any (known z hz.1)).mp hz.2 with ⟨other, mem', hz', w, hw, idw⟩
      have both := mem_of_mem_rankGroups sorted mem hy (partition.lt mem hy)
        (partition.lt mem' hw) idy idw
      rwa [partition.eq_of_mem mem mem' both hw]
    have nodup := (perm.nodup_iff.mpr List.nodup_range).filter
      fun x ↦ res0[x]?.any (threshold < ·)
    have le := (List.subperm_of_subset nodup inside).length_le
    have half := small group mem y hy idy
    omega

/-- Slow in both rounds are the workers of `b`. -/
theorem slow_both_iff (sorted : assertSortedByRank workers)
    (length : nodeIds.length = workers.length)
    (small : ∀ group ∈ rankGroups workers nodeIds, ∀ y ∈ group, nodeIds[y]? = some b →
      2 * group.length ≤ workers.length)
    (round0 : Measured threshold (rankGroups workers nodeIds) nodeIds b res0)
    (round1 : Measured threshold (groupingRound1 res0) nodeIds b res1) {x : Nat}
    (h0 : x < res0.length) (h1 : x < res1.length) :
    threshold < min res0[x] res1[x] ↔ nodeIds[x]? = some b := by
  have partition0 := rankGroups_isPartition sorted length
  have partition1 := groupingRound1_isPartition res0
  rw [lt_min_iff, round0.slow x h0, round1.slow x h1]
  constructor
  · rintro ⟨slow0, group, mem, hx, y, hy, idy⟩
    have slowy : Slowed (rankGroups workers nodeIds) nodeIds b y := by
      refine partition0.slowed ?_ idy
      rw [← length, ← round0.length]
      exact partition1.lt mem hy
    have hx0 : x < nodeIds.length := by rwa [← round0.length]
    have hy0 : y < nodeIds.length := (List.getElem?_eq_some_iff.mp idy).1
    rw [Pairing.eq_of_together_crossed (sortedNodes_up res0 threshold)
      (round0.few sorted length small) ((round0.any hx0).mpr slow0) ((round0.any hy0).mpr slowy)
      ⟨group, mem, hx, hy⟩]
    exact idy
  · intro id
    refine ⟨partition0.slowed ?_ id, partition1.slowed h0 id⟩
    rwa [← length, ← round0.length]

end OneBadNode

/-- Two selections by what stands at the same place agree when the conditions do. -/
theorem map_fst_filter_zip {α β γ : Type} {l : List α} {bs : List β} {cs : List γ}
    (hb : bs.length = l.length) (hc : cs.length = l.length) {p : β → Bool} {q : γ → Bool}
    (same : ∀ x (hb : x < bs.length) (hc : x < cs.length), p bs[x] = q cs[x]) :
    ((l.zip bs).filter fun e ↦ p e.2).map Prod.fst =
      ((l.zip cs).filter fun e ↦ q e.2).map Prod.fst := by
  induction l generalizing bs cs with
  | nil => rfl
  | cons a l ih =>
    cases bs with
    | nil => cases hb
    | cons b bs =>
      cases cs with
      | nil => cases hc
      | cons c cs =>
        have head : p b = q c := same 0 (Nat.succ_pos _) (Nat.succ_pos _)
        have tail := ih (Nat.succ.inj hb) (Nat.succ.inj hc) fun x hb hc ↦
          same (x + 1) (Nat.succ_lt_succ hb) (Nat.succ_lt_succ hc)
        simp only [List.zip_cons_cons, List.filter_cons, head]
        split
        · rw [List.map_cons, List.map_cons, tail]
        · exact tail

/-- The node check finds the workers of the one bad node. -/
theorem checkNodes_isolates {workers : List RankedWorker} {nodeIds : List ν} {b : ν} {threshold : T}
    {perform : Nat → List (List Nat) → List T} (sorted : assertSortedByRank workers)
    (length : nodeIds.length = workers.length)
    (small : ∀ group ∈ rankGroups workers nodeIds, ∀ y ∈ group, nodeIds[y]? = some b →
      2 * group.length ≤ workers.length)
    (round0 : Measured threshold (rankGroups workers nodeIds) nodeIds b
      (perform 0 (rankGroups workers nodeIds)))
    (round1 : Measured threshold (groupingRound1 (perform 0 (rankGroups workers nodeIds))) nodeIds b
      (perform 1 (groupingRound1 (perform 0 (rankGroups workers nodeIds))))) :
    IsPartition (rankGroups workers nodeIds) workers.length ∧
      IsPartition (groupingRound1 (perform 0 (rankGroups workers nodeIds))) workers.length ∧
      (checkNodes workers nodeIds perform).map (findAbnormalNodes workers · threshold) =
        some (((workers.zip nodeIds).filter fun e ↦ e.2 = b).map Prod.fst) := by
  have size0 := round0.length.trans length
  have size1 := round1.length.trans length
  refine ⟨rankGroups_isPartition sorted length, ?_, ?_⟩
  · have partition := groupingRound1_isPartition (perform 0 (rankGroups workers nodeIds))
    rwa [size0] at partition
  · have times : checkNodes workers nodeIds perform = some (List.zipWith min
        (perform 0 (rankGroups workers nodeIds))
        (perform 1 (groupingRound1 (perform 0 (rankGroups workers nodeIds))))) := by
      simp [checkNodes, sorted, guard]
    rw [times, Option.map_some, findAbnormalNodes]
    congr 1
    refine map_fst_filter_zip (p := (threshold < ·)) (q := (· = b)) ?_ length ?_
    · rw [List.length_zipWith, size0, size1, min_self]
    · intro x hx hid
      rw [List.length_zipWith, lt_min_iff] at hx
      rw [List.getElem_zipWith, decide_eq_decide,
        slow_both_iff sorted length small round0 round1 hx.1 hx.2, List.getElem?_eq_getElem hid,
        Option.some_inj]

/-- Four workers, each on its own node, and a bad first node. -/
theorem checkNodes_isolates_first :
    let workers : List RankedWorker := [⟨"w0", 0⟩, ⟨"w1", 1⟩, ⟨"w2", 2⟩, ⟨"w3", 3⟩]
    let nodeIds : List String := ["n0", "n1", "n2", "n3"]
    let perform : Nat → List (List Nat) → List Nat := fun round _ ↦
      if round = 0 then [900, 900, 20, 20] else [900, 20, 20, 900]
    (checkNodes workers nodeIds perform).map (findAbnormalNodes workers · 300) =
      some (((workers.zip nodeIds).filter fun e ↦ e.2 = "n0").map Prod.fst) := by
  intro workers nodeIds perform
  have round0 : Measured 300 (rankGroups workers nodeIds) nodeIds "n0" [900, 900, 20, 20] :=
    ⟨rfl, by decide +kernel⟩
  have round1 : Measured 300 (groupingRound1 [900, 900, 20, 20]) nodeIds "n0" [900, 20, 20, 900] :=
    ⟨rfl, by decide +kernel⟩
  have small : ∀ group ∈ rankGroups workers nodeIds, ∀ y ∈ group, nodeIds[y]? = some "n0" →
      2 * group.length ≤ workers.length := by
    decide +kernel
  have sorted : assertSortedByRank workers := by decide
  have isolates := @checkNodes_isolates _ _ _ _ workers nodeIds "n0" 300 perform sorted rfl small
    round0 round1
  exact isolates.2.2

end NodeCheck

end ProbingBaselines.Dlrover
