import Mathlib.Data.List.Dedup
import ProbingBaselines.Lib.Columns
import ProbingBaselines.Dlrover.GroupNodeCheck

/-!
# The groups across node groups

The two inter phases put one node of each node group together: first the nodes at one place by rank,
then those at one place by time, where the `i`-th node group is rotated by `i`. The failed nodes are
the slowest ones of their node groups, so the rotation brings them to different places when there
are no more node groups than nodes in one.
-/

namespace ProbingBaselines.Dlrover

open Lib

/-- `group` puts the ranks into `k` node groups of one size. -/
structure EqualGroups (ranks : List Int) (group : Int → Int) (k size : Nat) : Prop where
  placed : ∀ r ∈ ranks, 0 ≤ group r
  count : (ranks.map group).dedup.length = k
  sizes : ∀ r ∈ ranks, ranks.countP (fun q ↦ group q = group r) = size

/-- The nodes of the rendezvous, in the node groups that `group` tells. -/
structure Placed (nodes : NodeMap) (ranks : List Int) (group : Int → Int) : Prop where
  ranks : nodes.keys.Perm ranks
  nodeGroup : ∀ e ∈ nodes.items, e.2.nodeGroup = group e.1

section Rows

variable {nodes : NodeMap} {ranks : List Int} {group : Int → Int} {k size : Nat}

/-- The nodes of a node group by rank. -/
theorem sort_filter_nodeGroup (placed : Placed nodes ranks group) (g : Int) :
    ((nodes.items.filter fun e ↦ e.2.nodeGroup = g).map Prod.fst).insertionSort (· ≤ ·) =
      (ranks.filter fun r ↦ group r = g).insertionSort (· ≤ ·) := by
  have keys : (nodes.items.filter fun e ↦ e.2.nodeGroup = g).map Prod.fst =
      nodes.keys.filter fun r ↦ group r = g := by
    rw [Dict.keys, List.filter_map]
    congr 1
    apply List.filter_congr
    intro e he
    rw [placed.nodeGroup e he]
    rfl
  rw [keys]
  apply List.Perm.eq_of_pairwise' (List.pairwise_insertionSort _ _)
    (List.pairwise_insertionSort _ _)
  have perm := placed.ranks.filter fun r ↦ group r = g
  exact ((List.perm_insertionSort _ _).trans perm).trans (List.perm_insertionSort _ _).symm

/-- All nodes have a node group. -/
theorem filter_grouped (placed : Placed nodes ranks group)
    (equal : EqualGroups ranks group k size) :
    (nodes.items.filter fun e ↦ 0 ≤ e.2.nodeGroup) = nodes.items := by
  rw [List.filter_eq_self]
  intro e he
  have mem : e.1 ∈ ranks := placed.ranks.mem_iff.mp (Dict.mem_of_mem_items he)
  rw [placed.nodeGroup e he]
  exact decide_eq_true (equal.placed e.1 mem)

theorem mem_buildNodeGroupMap (placed : Placed nodes ranks group)
    (equal : EqualGroups ranks group k size) {e : Int × List Int} :
    e ∈ (buildNodeGroupMap nodes).items ↔ (∃ r ∈ ranks, group r = e.1) ∧
      e.2 = (ranks.filter fun r ↦ group r = e.1).insertionSort (· ≤ ·) := by
  rw [buildNodeGroupMap, filter_grouped placed equal, Dict.mapValues, List.mem_map]
  constructor
  · rintro ⟨e', mem, rfl⟩
    rcases Dict.mem_items_groupBy.mp mem with ⟨⟨v, hv, same⟩, eq⟩
    have known := placed.ranks.mem_iff.mp (Dict.mem_of_mem_items hv)
    refine ⟨⟨v.1, known, ?_⟩, ?_⟩
    · rw [← placed.nodeGroup v hv, same]
    · simp only
      rw [eq, sort_filter_nodeGroup placed]
  · rintro ⟨⟨r, hr, same⟩, eq⟩
    rcases Dict.mem_iff.mp (placed.ranks.mem_iff.mpr hr) with ⟨v, hv⟩
    refine ⟨(e.1, nodes.items.filter fun e' ↦ e'.2.nodeGroup = e.1), ?_, ?_⟩
    · rw [Dict.mem_items_groupBy]
      exact ⟨⟨(r, v), hv, (placed.nodeGroup _ hv).trans same⟩, rfl⟩
    · simp only
      rw [sort_filter_nodeGroup placed, ← eq]

end Rows

/-- The ranks of each node group, the node groups by their index. -/
def groupRows (ranks : List Int) (group : Int → Int) : List (List Int) :=
  ((ranks.map group).dedup.insertionSort (· ≤ ·)).map fun g ↦
    (ranks.filter fun r ↦ group r = g).insertionSort (· ≤ ·)

/-- The rows that the inter phases start from. -/
theorem sortedGroups_eq {nodes : NodeMap} {ranks : List Int} {group : Int → Int} {k size : Nat}
    (placed : Placed nodes ranks group) (equal : EqualGroups ranks group k size) :
    sortedGroups (buildNodeGroupMap nodes) = groupRows ranks group := by
  have mem := @mem_buildNodeGroupMap nodes ranks group k size placed equal
  have keys : (buildNodeGroupMap nodes).keys.Perm (ranks.map group).dedup := by
    rw [List.perm_ext_iff_of_nodup (Dict.keys_nodup _) (List.nodup_dedup _)]
    intro g
    rw [← Dict.mem_def, Dict.mem_iff, List.mem_dedup, List.mem_map]
    constructor
    · rintro ⟨row, hrow⟩
      exact (mem.mp hrow).1
    · intro some
      exact ⟨(ranks.filter fun r ↦ group r = g).insertionSort (· ≤ ·), mem.mpr ⟨some, rfl⟩⟩
  have sorted := List.perm_insertionSort (fun a b : Int × List Int ↦ a.1 ≤ b.1)
    (buildNodeGroupMap nodes).items
  have first : ((buildNodeGroupMap nodes).items.insertionSort fun a b ↦ a.1 ≤ b.1).map Prod.fst =
      (ranks.map group).dedup.insertionSort (· ≤ ·) := by
    apply List.Perm.eq_of_pairwise' _ (List.pairwise_insertionSort _ _)
    · exact ((sorted.map Prod.fst).trans keys).trans (List.perm_insertionSort _ _).symm
    · rw [List.pairwise_map]
      exact List.pairwise_insertionSort _ _
  rw [sortedGroups, groupRows, ← first, List.map_map]
  apply List.map_congr_left
  intro e he
  exact (mem.mp (sorted.mem_iff.mp he)).2

/-! ### The groups of a phase -/

/-- Groups of several nodes are appended. -/
theorem foldl_addGroup {places : List Nat} {group : Nat → NodeMap}
    (many : ∀ pos ∈ places, 1 < (group pos).items.length) :
    places.foldl (fun groups pos ↦ addGroup groups (group pos)) [] = places.map group := by
  induction places using List.reverseRecOn with
  | nil => rfl
  | append_singleton places pos ih =>
    have front := ih fun pos' hpos' ↦ many pos' (List.mem_append_left _ hpos')
    have last := many pos (List.mem_append_right _ (List.mem_singleton.mpr rfl))
    rw [List.foldl_append, List.foldl_cons, List.foldl_nil, front, addGroup, if_pos last,
      List.map_append, List.map_singleton]

/-- The longest of rows of one length. -/
theorem foldl_max_length {rows : List (List Int)} {size : Nat} (some : rows ≠ [])
    (full : ∀ row ∈ rows, row.length = size) : (rows.map List.length).foldl max 0 = size := by
  induction rows using List.reverseRecOn with
  | nil => exact absurd rfl some
  | append_singleton rows row ih =>
    have last := full row (List.mem_append_right _ (List.mem_singleton.mpr rfl))
    rw [List.map_append, List.foldl_append, List.map_singleton, List.foldl_cons, List.foldl_nil,
      last]
    by_cases more : rows = []
    · simp [more]
    · rw [ih more fun row' hrow' ↦ full row' (List.mem_append_left _ hrow'), max_self]

/-- Each rank is in one group, and no group is empty. -/
structure Partition (groups : List NodeMap) (ranks : List Int) : Prop where
  ranks : (groupedRanks groups).Perm ranks
  nonempty : ∀ group ∈ groups, group.keys ≠ []

/-- The ranks in rows of one length, at least two of them. -/
structure Rows (ranks : List Int) (size : Nat) (rows : List (List Int)) : Prop where
  ranks : rows.flatten.Perm ranks
  several : 2 ≤ rows.length
  full : ∀ row ∈ rows, row.length = size

namespace Rows

variable {nodes : NodeMap} {ranks : List Int} {rows : List (List Int)} {size : Nat}

theorem nodup (h : Rows ranks size rows) (distinct : ranks.Nodup) : rows.flatten.Nodup :=
  h.ranks.nodup_iff.mpr distinct

theorem columns_perm (h : Rows ranks size rows) :
    (Columns.columns size rows).flatten.Perm ranks :=
  (Columns.flatten_columns_perm fun row hrow ↦ (h.full row hrow).le).trans h.ranks

theorem length_column (h : Rows ranks size rows) {pos : Nat} (lt : pos < size) :
    (Columns.column rows pos).length = rows.length := by
  apply Columns.length_column
  intro row hrow
  rwa [h.full row hrow]

/-- The groups of a phase are the columns of its rows. -/
theorem keys_groupByPosition (h : Rows ranks size rows) (distinct : ranks.Nodup)
    (known : ∀ r ∈ ranks, r ∈ nodes) :
    (groupByPosition nodes rows).map Dict.keys = Columns.columns size rows := by
  have parts := List.nodup_flatten.mp (h.columns_perm.nodup_iff.mpr distinct)
  have keys : ∀ pos ∈ List.range size,
      (nodes.select (Columns.column rows pos)).keys = Columns.column rows pos := by
    intro pos hpos
    have mem : Columns.column rows pos ∈ Columns.columns size rows :=
      List.mem_map.mpr ⟨pos, hpos, rfl⟩
    apply Dict.keys_select (parts.1 _ mem)
    intro r hr
    exact known r (h.columns_perm.mem_iff.mp (List.mem_flatten.mpr ⟨_, mem, hr⟩))
  have some : rows ≠ [] := by
    rintro rfl
    exact absurd h.several (by decide)
  have grouped : groupByPosition nodes rows =
      (List.range size).map fun pos ↦ nodes.select (Columns.column rows pos) := by
    rw [groupByPosition, foldl_max_length some h.full]
    apply foldl_addGroup
    intro pos hpos
    have several := h.several
    rw [← h.length_column (List.mem_range.mp hpos), ← keys pos hpos, ← length_items] at several
    exact several
  rw [grouped, List.map_map, Columns.columns]
  exact List.map_congr_left keys

theorem partition (h : Rows ranks size rows) (distinct : ranks.Nodup)
    (known : ∀ r ∈ ranks, r ∈ nodes) : Partition (groupByPosition nodes rows) ranks where
  ranks := by
    rw [groupedRanks_eq, h.keys_groupByPosition distinct known]
    exact h.columns_perm
  nonempty := by
    intro group hgroup none
    have mem := List.mem_map_of_mem (f := Dict.keys) hgroup
    rw [h.keys_groupByPosition distinct known, none] at mem
    rcases List.mem_map.mp mem with ⟨pos, hpos, eq⟩
    have several := h.several
    rw [← h.length_column (List.mem_range.mp hpos), eq] at several
    exact absurd several (by decide)

theorem sorted (h : Rows ranks size rows) (nodeTimes : Dict Int ℚ) :
    Rows ranks size (rows.map (sortRanksByTime nodeTimes)) where
  ranks := by
    rw [← List.flatMap_def]
    have perm : (rows.flatMap (sortRanksByTime nodeTimes)).Perm (rows.flatMap id) :=
      List.Perm.flatMap_left _ fun _ _ ↦ List.perm_insertionSort _ _
    rw [List.flatMap_id] at perm
    exact perm.trans h.ranks
  several := by
    rw [List.length_map]
    exact h.several
  full := by
    intro sorted hsorted
    rcases List.mem_map.mp hsorted with ⟨row, hrow, rfl⟩
    rw [sortRanksByTime, List.length_insertionSort]
    exact h.full row hrow

theorem rotated (h : Rows ranks size rows) : Rows ranks size (Columns.rotated rows) where
  ranks := (Columns.flatten_rotated_perm rows).trans h.ranks
  several := by
    rw [Columns.rotated, List.length_mapIdx]
    exact h.several
  full := Columns.length_of_mem_rotated h.full

variable {nodeTimes : Dict Int ℚ} {b : Int}

/-- A node that failed with `b` is the slowest one of its row. -/
theorem getLast?_sorted (h : Rows ranks size rows) (distinct : ranks.Nodup)
    (slow : ∀ r ∈ ranks, Pairing.Together (Columns.columns size rows) r b →
      (nodeTimes.get? r).getD 0 = 3600)
    (fast : ∀ r ∈ ranks, ¬Pairing.Together (Columns.columns size rows) r b →
      (nodeTimes.get? r).getD 0 < 3600) {x : Int}
    (failed : Pairing.Together (Columns.columns size rows) x b) :
    ∃ row ∈ rows.map (sortRanksByTime nodeTimes), row.getLast? = some x := by
  rcases failed with ⟨col, hcol, hx, hb⟩
  rcases List.mem_map.mp hcol with ⟨pos, hpos, rfl⟩
  have lt := List.mem_range.mp hpos
  rcases Columns.mem_column.mp hx with ⟨row, hrow, at_x⟩
  rcases Columns.mem_column.mp hb with ⟨rowB, hrowB, at_b⟩
  have known : ∀ r ∈ row, r ∈ ranks := fun r hr ↦
    h.ranks.mem_iff.mp (List.mem_flatten.mpr ⟨row, hrow, hr⟩)
  have mem := List.mem_of_getElem? at_x
  refine ⟨_, List.mem_map_of_mem hrow, ?_⟩
  apply getLast?_insertionSort_top
  · exact (List.nodup_flatten.mp (h.nodup distinct)).1 row hrow
  · exact mem
  · exact slow x (known x mem) ⟨_, hcol, hx, hb⟩
  · intro r hr ne
    apply fast r (known r hr)
    -- another place in the row of `x` is not the place of `b`
    rcases List.getElem?_of_mem hr with ⟨p, at_r⟩
    have bound := (List.getElem?_eq_some_iff.mp at_r).1
    rw [h.full row hrow] at bound
    rw [Columns.together_columns (h.nodup distinct) hrow hrowB at_r at_b bound]
    rintro rfl
    exact ne (Option.some.inj (at_r.symm.trans at_x))

/-- Two nodes that failed with `b` do not meet again. -/
theorem apart (h : Rows ranks size rows) (distinct : ranks.Nodup) (wide : rows.length ≤ size)
    (slow : ∀ r ∈ ranks, Pairing.Together (Columns.columns size rows) r b →
      (nodeTimes.get? r).getD 0 = 3600)
    (fast : ∀ r ∈ ranks, ¬Pairing.Together (Columns.columns size rows) r b →
      (nodeTimes.get? r).getD 0 < 3600) {x y : Int}
    (hx : Pairing.Together (Columns.columns size rows) x b)
    (hy : Pairing.Together (Columns.columns size rows) y b) (ne : x ≠ y) :
    ¬Pairing.Together
      (Columns.columns size (Columns.rotated (rows.map (sortRanksByTime nodeTimes)))) x y := by
  have sorted := h.sorted nodeTimes
  rcases h.getLast?_sorted distinct slow fast hx with ⟨row, hrow, last⟩
  rcases h.getLast?_sorted distinct slow fast hy with ⟨row', hrow', last'⟩
  apply Columns.apart_rotated (sorted.nodup distinct) sorted.full _ hrow hrow' last last' ne
  rwa [List.length_map]

end Rows

theorem length_groupRows {ranks : List Int} {group : Int → Int} {k size : Nat}
    (equal : EqualGroups ranks group k size) : (groupRows ranks group).length = k := by
  rw [groupRows, List.length_map, List.length_insertionSort, equal.count]

theorem rows_groupRows {ranks : List Int} {group : Int → Int} {k size : Nat}
    (equal : EqualGroups ranks group k size) (distinct : ranks.Nodup) (two : 2 ≤ k) :
    Rows ranks size (groupRows ranks group) where
  ranks := by
    have labels := List.perm_insertionSort (· ≤ ·) (ranks.map group).dedup
    have parts : ((ranks.map group).dedup.flatMap fun g ↦ ranks.filter fun r ↦ group r = g).Perm
        ranks := by
      rw [List.perm_ext_iff_of_nodup _ distinct]
      · intro r
        rw [List.mem_flatMap]
        constructor
        · rintro ⟨g, -, hr⟩
          exact (List.mem_filter.mp hr).1
        · intro hr
          refine ⟨group r, List.mem_dedup.mpr (List.mem_map_of_mem hr), ?_⟩
          simpa using hr
      · rw [List.nodup_flatMap]
        refine ⟨fun g _ ↦ distinct.filter _, (List.nodup_dedup _).imp ?_⟩
        intro g g' ne r hr hr'
        have eq := (List.mem_filter.mp hr).2
        have eq' := (List.mem_filter.mp hr').2
        exact ne ((of_decide_eq_true eq).symm.trans (of_decide_eq_true eq'))
    rw [groupRows, ← List.flatMap_def]
    have sorted : (((ranks.map group).dedup.insertionSort (· ≤ ·)).flatMap fun g ↦
        (ranks.filter fun r ↦ group r = g).insertionSort (· ≤ ·)).Perm
        (((ranks.map group).dedup.insertionSort (· ≤ ·)).flatMap fun g ↦
          ranks.filter fun r ↦ group r = g) :=
      List.Perm.flatMap_left _ fun _ _ ↦ List.perm_insertionSort _ _
    exact sorted.trans ((labels.flatMap_right _).trans parts)
  several := by
    rw [length_groupRows equal]
    exact two
  full := by
    intro row hrow
    rcases List.mem_map.mp hrow with ⟨g, hg, rfl⟩
    rw [List.mem_insertionSort, List.mem_dedup, List.mem_map] at hg
    rcases hg with ⟨r, hr, rfl⟩
    rw [List.length_insertionSort, ← List.countP_eq_length_filter]
    exact equal.sizes r hr

/-- The rows of the diagnosis, sorted and rotated. -/
theorem groupInterDiagnostic_eq (nodes : NodeMap) (nodeTimes : Dict Int ℚ)
    (groups : Dict Int (List Int)) :
    groupInterDiagnostic nodes nodeTimes groups = groupByPosition nodes
      (Columns.rotated ((sortedGroups groups).map (sortRanksByTime nodeTimes))) := by
  rw [groupInterDiagnostic]
  congr 1
  apply List.ext_getElem?
  intro i
  rw [Columns.getElem?_rotated, List.getElem?_mapIdx, List.getElem?_map, Option.map_map]
  rfl

end ProbingBaselines.Dlrover
