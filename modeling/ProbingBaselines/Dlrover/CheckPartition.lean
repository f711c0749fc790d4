import ProbingBaselines.Dlrover.InterGroups

/-!
# When the groups of a check split its nodes

The groups of a completed check are to be a partition of its nodes, with a partner for each node
that can have one, and within the node groups in the intra phases. Each of the five ways to build
them leaves something out: nodes without a time or without a node group, the last node of an odd
node group, and a node group of one node, which joins that of another.
-/

namespace ProbingBaselines.Dlrover

open Lib

variable {nodes : NodeMap} {intra : Bool} {rows groups : List (List Int)}

/-- A node that may be in one group with another one. -/
def Partner (intra : Bool) (e e' : Int × NodeTopologyMeta) : Prop :=
  e'.1 ≠ e.1 ∧ (intra → e'.2.nodeGroup = e.2.nodeGroup)

/-- The groups have all nodes, each once, none is alone that has a partner, and in an intra phase no
two node groups mix. -/
structure SplitsWorld (nodes : NodeMap) (intra : Bool) (groups : List (List Int)) : Prop where
  apart : groups.flatten.Nodup
  covered : ∀ r ∈ nodes, r ∈ groups.flatten
  paired : ∀ e ∈ nodes.items, [e.1] ∈ groups → ∀ e' ∈ nodes.items, ¬ Partner intra e e'
  unmixed : intra → ∀ e ∈ nodes.items, ∀ e' ∈ nodes.items, Pairing.Together groups e.1 e'.1 →
    0 ≤ e.2.nodeGroup → 0 ≤ e'.2.nodeGroup → e'.2.nodeGroup = e.2.nodeGroup

/-- Every node has a node group. -/
def AllGrouped (nodes : NodeMap) : Prop := ∀ e ∈ nodes.items, 0 ≤ e.2.nodeGroup

/-! ### Without node groups -/

theorem splitsWorld_of_perm (ungrouped : intra → ∀ e ∈ nodes.items, e.2.nodeGroup < 0)
    (perm : groups.flatten.Perm nodes.keys)
    (single : ∀ r, [r] ∈ groups → ∀ r' ∈ nodes, r' = r) : SplitsWorld nodes intra groups where
  apart := perm.nodup_iff.mpr nodes.keys_nodup
  covered _ hr := perm.mem_iff.mpr hr
  paired e _ alone e' he' partner := partner.1 (single e.1 alone e'.1 (Dict.mem_of_mem_items he'))
  unmixed on e he _ _ _ grouped := absurd grouped (not_le.mpr (ungrouped on e he))

/-- Neighbours by rank are always a partition. -/
theorem splits_groupAdjacent (ungrouped : intra → ∀ e ∈ nodes.items, e.2.nodeGroup < 0) :
    SplitsWorld nodes intra ((groupAdjacent nodes).map Dict.keys) := by
  rw [keys_groupAdjacent]
  apply splitsWorld_of_perm ungrouped
  · rw [Pairing.flatten_adjacent]
  · intro r mem r' hr'
    rw [Dict.mem_def, Pairing.eq_singleton_of_mem_adjacent mem] at hr'
    exact List.mem_singleton.mp hr'

theorem mem_sortByTime {nodeTimes : Dict Int ℚ} {r : Int} :
    r ∈ sortByTime nodes nodeTimes ↔ r ∈ nodes ∧ r ∈ nodeTimes := by
  rw [sortByTime, List.mem_filter, decide_eq_true_iff, and_comm, Dict.mem_def (d := nodeTimes)]
  have perm := (List.perm_insertionSort (fun a b : Int × ℚ ↦ a.2 ≤ b.2) nodeTimes.items).map
    Prod.fst
  rw [perm.mem_iff]
  exact Iff.rfl

/-- The fastest with the slowest are one when all nodes have a time. -/
theorem splits_groupEnds_iff (ungrouped : intra → ∀ e ∈ nodes.items, e.2.nodeGroup < 0)
    (nodeTimes : Dict Int ℚ) :
    SplitsWorld nodes intra ((groupEnds nodes (sortByTime nodes nodeTimes)).map Dict.keys) ↔
      ∀ r ∈ nodes, r ∈ nodeTimes := by
  have nodup := sortByTime_nodup nodes nodeTimes
  rw [keys_groupEnds nodup fun r hr ↦ (mem_sortByTime.mp hr).1]
  have ends := Pairing.flatten_ends_perm (sortByTime nodes nodeTimes)
  constructor
  · intro splits r hr
    exact (mem_sortByTime.mp (ends.mem_iff.mp (splits.covered r hr))).2
  · intro timed
    have perm : (sortByTime nodes nodeTimes).Perm nodes.keys := by
      rw [List.perm_ext_iff_of_nodup nodup nodes.keys_nodup]
      intro r
      rw [mem_sortByTime, ← Dict.mem_def]
      exact ⟨And.left, fun hr ↦ ⟨hr, timed r hr⟩⟩
    apply splitsWorld_of_perm ungrouped (ends.trans perm)
    intro r mem r' hr'
    have mem' := perm.mem_iff.mpr hr'
    rw [Pairing.eq_singleton_of_mem_ends mem] at mem'
    exact List.mem_singleton.mp mem'

/-! ### The node groups -/

/-- The nodes with a node group, one row for each. -/
structure GroupedRows (nodes : NodeMap) (rows : List (List Int)) : Prop where
  ranks : rows.flatten.Perm ((nodes.items.filter fun e ↦ 0 ≤ e.2.nodeGroup).map Prod.fst)
  nonempty : ∀ row ∈ rows, row ≠ []
  same : ∀ row ∈ rows, ∀ e ∈ nodes.items, ∀ e' ∈ nodes.items, e.1 ∈ row →
    (e'.1 ∈ row ↔ e'.2.nodeGroup = e.2.nodeGroup)

theorem mem_filter_ranks {p : Int × NodeTopologyMeta → Bool} {e : Int × NodeTopologyMeta}
    (he : e ∈ nodes.items) : e.1 ∈ (nodes.items.filter p).map Prod.fst ↔ p e := by
  rw [List.mem_map]
  constructor
  · rintro ⟨e', mem, eq⟩
    rcases List.mem_filter.mp mem with ⟨he', holds⟩
    have value : e'.2 = e.2 := Dict.value_unique (k := e.1) (by rwa [← eq]) he
    rwa [Prod.ext eq value] at holds
  · intro holds
    exact ⟨e, List.mem_filter.mpr ⟨he, holds⟩, rfl⟩

theorem groupedRows_build (nodes : NodeMap) :
    GroupedRows nodes (buildNodeGroupMap nodes).values := by
  have spec := Dict.groupBy_spec (fun e : Int × NodeTopologyMeta ↦ e.2.nodeGroup)
    (nodes.items.filter fun e ↦ 0 ≤ e.2.nodeGroup)
  have values : (buildNodeGroupMap nodes).values =
      (Dict.groupBy (fun e : Int × NodeTopologyMeta ↦ e.2.nodeGroup)
        (nodes.items.filter fun e ↦ 0 ≤ e.2.nodeGroup)).values.map
          fun es ↦ (es.map Prod.fst).insertionSort (· ≤ ·) := by
    rw [buildNodeGroupMap, Dict.mapValues, Dict.values, Dict.values, List.map_map, List.map_map]
    rfl
  -- a row has the nodes of one node group
  have of_mem : ∀ row ∈ (buildNodeGroupMap nodes).values, ∃ g, row ≠ [] ∧
      ∀ e ∈ nodes.items, e.1 ∈ row ↔ 0 ≤ e.2.nodeGroup ∧ e.2.nodeGroup = g := by
    intro row hrow
    rw [values] at hrow
    rcases List.mem_map.mp hrow with ⟨es, hes, rfl⟩
    rcases List.mem_map.mp hes with ⟨⟨g, es⟩, mem, rfl⟩
    rcases Dict.mem_items_groupBy.mp mem with ⟨⟨v, hv, label⟩, eq⟩
    simp only at label eq
    have rowed : ∀ e ∈ nodes.items, e.1 ∈ (es.map Prod.fst).insertionSort (· ≤ ·) ↔
        0 ≤ e.2.nodeGroup ∧ e.2.nodeGroup = g := by
      intro e he
      rw [List.mem_insertionSort, eq, List.filter_filter, mem_filter_ranks he, Bool.and_eq_true,
        decide_eq_true_iff, decide_eq_true_iff, and_comm]
    refine ⟨g, fun none ↦ ?_, rowed⟩
    rcases List.mem_filter.mp hv with ⟨hv, grouped⟩
    have own := (rowed v hv).mpr ⟨of_decide_eq_true grouped, label⟩
    rw [none] at own
    exact List.not_mem_nil own
  constructor
  · have sorted : ((buildNodeGroupMap nodes).values.flatten).Perm
        (((Dict.groupBy (fun e : Int × NodeTopologyMeta ↦ e.2.nodeGroup)
          (nodes.items.filter fun e ↦ 0 ≤ e.2.nodeGroup)).values.map
            (List.map Prod.fst)).flatten) := by
      rw [values, ← List.flatMap_def, ← List.flatMap_def]
      exact List.Perm.flatMap_left _ fun es _ ↦ List.perm_insertionSort _ _
    rw [← List.map_flatten] at sorted
    exact sorted.trans (spec.1.map Prod.fst)
  · intro row hrow
    rcases of_mem row hrow with ⟨g, some, -⟩
    exact some
  · intro row hrow e he e' he' own
    rcases of_mem row hrow with ⟨g, -, rowed⟩
    rcases (rowed e he).mp own with ⟨grouped, eq⟩
    rw [rowed e' he', eq]
    constructor
    · exact And.right
    · intro same
      refine ⟨?_, same⟩
      rw [same, ← eq]
      exact grouped

namespace GroupedRows

/-- The rows may be taken in another order, and each of them as well. -/
theorem of_perm {rows' : List (List Int)} (h : GroupedRows nodes rows)
    (each : ∀ row' ∈ rows', ∃ row ∈ rows, row'.Perm row)
    (all : rows'.flatten.Perm rows.flatten) : GroupedRows nodes rows' where
  ranks := all.trans h.ranks
  nonempty row' hrow' := by
    rcases each row' hrow' with ⟨row, hrow, perm⟩
    rintro rfl
    exact h.nonempty row hrow (List.nil_perm.mp perm)
  same row' hrow' e he e' he' own := by
    rcases each row' hrow' with ⟨row, hrow, perm⟩
    rw [perm.mem_iff] at own ⊢
    exact h.same row hrow e he e' he' own

theorem nodup (h : GroupedRows nodes rows) : rows.flatten.Nodup :=
  h.ranks.nodup_iff.mpr ((List.filter_sublist.map _).nodup nodes.nodup)

/-- A rank of a row is that of a node. -/
theorem exists_node (h : GroupedRows nodes rows) {row : List Int} (hrow : row ∈ rows) {r : Int}
    (hr : r ∈ row) : ∃ e ∈ nodes.items, e.1 = r ∧ 0 ≤ e.2.nodeGroup := by
  have mem := h.ranks.mem_iff.mp (List.mem_flatten.mpr ⟨row, hrow, hr⟩)
  rcases List.mem_map.mp mem with ⟨e, he, eq⟩
  rcases List.mem_filter.mp he with ⟨he, grouped⟩
  exact ⟨e, he, eq, of_decide_eq_true grouped⟩

theorem known (h : GroupedRows nodes rows) {r : Int} (hr : r ∈ rows.flatten) : r ∈ nodes := by
  rcases List.mem_flatten.mp hr with ⟨row, hrow, hr⟩
  rcases h.exists_node hrow hr with ⟨e, he, rfl, -⟩
  exact Dict.mem_of_mem_items he

/-- Groups of the ranks of the rows have all nodes just when all have a node group. -/
theorem covered_iff (h : GroupedRows nodes rows) (perm : groups.flatten.Perm rows.flatten) :
    (∀ r ∈ nodes, r ∈ groups.flatten) ↔ AllGrouped nodes := by
  have mem := fun e he ↦ (perm.trans h.ranks).mem_iff.trans
    (mem_filter_ranks (p := fun e ↦ 0 ≤ e.2.nodeGroup) (e := e) he)
  constructor
  · intro covered e he
    exact of_decide_eq_true ((mem e he).mp (covered e.1 (Dict.mem_of_mem_items he)))
  · intro grouped r hr
    rcases Dict.mem_iff.mp hr with ⟨v, he⟩
    exact (mem (r, v) he).mpr (decide_eq_true (grouped (r, v) he))

end GroupedRows

/-- Each row is split by itself: then no node group mixes, and a node alone must be one. -/
theorem GroupedRows.splits_flatMap_iff (h : GroupedRows nodes rows)
    {f : List Int → List (List Int)} (perm : ∀ row ∈ rows, (f row).flatten.Perm row) :
    SplitsWorld nodes true (rows.flatMap f) ↔
      AllGrouped nodes ∧ ∀ row ∈ rows, ∀ r, [r] ∈ f row → row = [r] := by
  have all : (rows.flatMap f).flatten.Perm rows.flatten := by
    rw [List.flatMap_def, List.flatten_flatten, List.map_map, ← List.flatMap_def]
    have each := List.Perm.flatMap_left rows perm
    rwa [List.flatMap_id'] at each
  have within : ∀ row ∈ rows, ∀ group ∈ f row, ∀ r ∈ group, r ∈ row := by
    intro row hrow group hgroup r hr
    exact (perm row hrow).mem_iff.mp (List.mem_flatten.mpr ⟨group, hgroup, hr⟩)
  constructor
  · intro splits
    refine ⟨(h.covered_iff all).mp splits.covered, fun row hrow r alone ↦ ?_⟩
    have own := within row hrow [r] alone r (List.mem_singleton.mpr rfl)
    rcases h.exists_node hrow own with ⟨e, he, rfl, -⟩
    have only : ∀ r' ∈ row, r' = e.1 := by
      intro r' hr'
      by_contra ne
      rcases h.exists_node hrow hr' with ⟨e', he', rfl, -⟩
      exact splits.paired e he (List.mem_flatMap.mpr ⟨row, hrow, alone⟩) e' he'
        ⟨ne, fun _ ↦ (h.same row hrow e he e' he' own).mp hr'⟩
    have nodup := (List.nodup_flatten.mp h.nodup).1 row hrow
    rw [← List.perm_singleton, List.perm_ext_iff_of_nodup nodup (List.nodup_singleton _)]
    intro r'
    rw [List.mem_singleton]
    exact ⟨only r', fun eq ↦ eq ▸ own⟩
  · rintro ⟨grouped, alone⟩
    constructor
    · exact all.nodup_iff.mpr h.nodup
    · exact (h.covered_iff all).mpr grouped
    · intro e he single e' he' partner
      rcases List.mem_flatMap.mp single with ⟨row, hrow, single⟩
      have eq := alone row hrow e.1 single
      have own : e.1 ∈ row := by
        rw [eq]
        exact List.mem_singleton.mpr rfl
      have other := (h.same row hrow e he e' he' own).mpr (partner.2 rfl)
      rw [eq] at other
      exact partner.1 (List.mem_singleton.mp other)
    · rintro - e he e' he' ⟨group, mem, own, other⟩ - -
      rcases List.mem_flatMap.mp mem with ⟨row, hrow, mem⟩
      exact (h.same row hrow e he e' he' (within row hrow group mem e.1 own)).mp
        (within row hrow group mem e'.1 other)

/-! ### Neighbours within the node groups -/

theorem flatten_pairsOf (l : List Int) : (pairsOf l).flatten = l := by
  induction l using pairsOf.induct with
  | case1 a b rest ih =>
    rw [pairsOf, List.flatten_cons, ih]
    rfl
  | case2 a => rfl
  | case3 => rfl

/-- The last node of an odd node group is alone. -/
theorem exists_alone_pairsOf {l : List Int} : (∃ r, [r] ∈ pairsOf l) ↔ l.length % 2 = 1 := by
  induction l using pairsOf.induct with
  | case1 a b rest ih =>
    have length : (a :: b :: rest).length % 2 = rest.length % 2 := Nat.add_mod_right _ 2
    rw [length, ← ih, pairsOf]
    constructor
    · rintro ⟨r, mem⟩
      rcases List.mem_cons.mp mem with eq | mem
      · cases eq
      · exact ⟨r, mem⟩
    · rintro ⟨r, mem⟩
      exact ⟨r, List.mem_cons_of_mem _ mem⟩
  | case2 a => exact iff_of_true ⟨a, List.mem_singleton.mpr rfl⟩ rfl
  | case3 =>
    refine iff_of_false ?_ (by decide)
    rintro ⟨r, mem⟩
    exact List.not_mem_nil mem

theorem splits_pairsOf_iff (h : GroupedRows nodes rows) :
    SplitsWorld nodes true (rows.flatMap pairsOf) ↔
      AllGrouped nodes ∧ ∀ row ∈ rows, row.length % 2 = 1 → row.length = 1 := by
  rw [h.splits_flatMap_iff fun row _ ↦ by rw [flatten_pairsOf]]
  refine and_congr_right fun _ ↦ forall₂_congr fun row _ ↦ ?_
  constructor
  · intro alone odd
    rcases exists_alone_pairsOf.mpr odd with ⟨r, mem⟩
    rw [alone r mem]
    rfl
  · intro one r mem
    rcases List.length_eq_one_iff.mp (one (exists_alone_pairsOf.mp ⟨r, mem⟩)) with ⟨a, rfl⟩
    have eq : [r] = [a] := List.mem_singleton.mp mem
    exact eq.symm

/-! ### Ends within the node groups -/

/-- The ends of one more node group; its only node joins the group before it. -/
def addEnds (groups : List (List Int)) (row : List Int) : List (List Int) :=
  if row.length = 1 then Pairing.joinLast groups row else groups ++ Pairing.ends row

theorem flatten_addEnds (groups : List (List Int)) (row : List Int) :
    (addEnds groups row).flatten.Perm (groups.flatten ++ row) := by
  unfold addEnds
  split
  · rw [Pairing.flatten_joinLast]
  · rw [List.flatten_append]
    exact (Pairing.flatten_ends_perm row).append_left _

theorem flatten_foldl_addEnds (rows : List (List Int)) :
    (rows.foldl addEnds []).flatten.Perm rows.flatten := by
  induction rows using List.reverseRecOn with
  | nil => rfl
  | append_singleton rows row ih =>
    rw [List.foldl_append, List.foldl_cons, List.foldl_nil, List.flatten_append,
      List.flatten_singleton]
    exact (flatten_addEnds _ row).trans (ih.append_right row)

/-- Groups only become larger. -/
theorem together_foldl_addEnds {groups : List (List Int)} {x y : Int}
    (together : Pairing.Together groups x y) (rows : List (List Int)) :
    Pairing.Together (rows.foldl addEnds groups) x y := by
  induction rows generalizing groups with
  | nil => exact together
  | cons row rows ih =>
    rw [List.foldl_cons]
    apply ih
    unfold addEnds
    split
    · exact together.joinLast row
    · rcases together with ⟨group, mem, hx, hy⟩
      exact ⟨group, List.mem_append_left _ mem, hx, hy⟩

/-- Unless a later node group has a single node, each is split by itself. -/
theorem foldl_addEnds_eq (several : ∀ row ∈ rows.tail, row.length ≠ 1) :
    rows.foldl addEnds [] = rows.flatMap Pairing.ends := by
  have first : ∀ row, addEnds [] row = Pairing.ends row := by
    intro row
    unfold addEnds
    split
    · next one =>
      rcases List.length_eq_one_iff.mp one with ⟨a, rfl⟩
      rw [Pairing.ends]
      rfl
    · rfl
  have rest : ∀ (rows : List (List Int)) groups, (∀ row ∈ rows, row.length ≠ 1) →
      rows.foldl addEnds groups = groups ++ rows.flatMap Pairing.ends := by
    intro rows
    induction rows with
    | nil => exact fun groups _ ↦ (List.append_nil groups).symm
    | cons row rows ih =>
      intro groups several
      rw [List.foldl_cons, addEnds, if_neg (several row List.mem_cons_self),
        ih _ fun row' mem ↦ several row' (List.mem_cons_of_mem _ mem), List.flatMap_cons,
        List.append_assoc]
  cases rows with
  | nil => rfl
  | cons row rows => rw [List.foldl_cons, first, rest rows _ several, List.flatMap_cons]

theorem ne_nil_of_mem_foldl_addEnds {group : List Int}
    (mem : group ∈ rows.foldl addEnds []) : group ≠ [] := by
  induction rows using List.reverseRecOn generalizing group with
  | nil => exact absurd mem List.not_mem_nil
  | append_singleton rows row ih =>
    rw [List.foldl_append, List.foldl_cons, List.foldl_nil, addEnds] at mem
    split at mem
    · next one =>
      have some : row ≠ [] := List.ne_nil_of_length_eq_add_one one
      cases front : rows.foldl addEnds [] using List.reverseRecOn with
      | nil =>
        rw [front] at mem
        rwa [List.mem_singleton.mp mem]
      | append_singleton groups last =>
        rw [front, Pairing.joinLast_concat] at mem
        rcases List.mem_append.mp mem with mem | mem
        · exact ih (front ▸ List.mem_append_left _ mem)
        · rw [List.mem_singleton.mp mem]
          exact List.append_ne_nil_of_right_ne_nil _ some
    · rcases List.mem_append.mp mem with mem | mem
      · exact ih mem
      · exact Pairing.ne_nil_of_mem_ends mem

/-- A single node that is not the first node group is put into a group with another one. -/
theorem exists_together_addEnds {front : List (List Int)} (some : front.flatten ≠ [])
    (back : List (List Int)) (a : Int) :
    ∃ b ∈ front.flatten, Pairing.Together ((front ++ [a] :: back).foldl addEnds []) b a := by
  have perm := flatten_foldl_addEnds front
  have filled : ∀ group ∈ front.foldl addEnds [], group ≠ [] :=
    fun _ mem ↦ ne_nil_of_mem_foldl_addEnds mem
  rw [List.foldl_append, List.foldl_cons, addEnds, if_pos List.length_singleton]
  cases groups_eq : front.foldl addEnds [] using List.reverseRecOn with
  | nil =>
    rw [groups_eq] at perm
    exact absurd (List.nil_perm.mp perm) some
  | append_singleton groups last =>
    rw [groups_eq] at perm filled
    have here : last ∈ groups ++ [last] := List.mem_append_right _ (List.mem_singleton.mpr rfl)
    rcases List.exists_mem_of_ne_nil last (filled last here) with ⟨b, hb⟩
    refine ⟨b, perm.mem_iff.mp (List.mem_flatten.mpr ⟨last, here, hb⟩), ?_⟩
    apply together_foldl_addEnds
    rw [Pairing.joinLast_concat]
    exact ⟨last ++ [a], List.mem_append_right _ (List.mem_singleton.mpr rfl),
      List.mem_append_left _ hb, List.mem_append_right _ (List.mem_singleton.mpr rfl)⟩

theorem splits_addEnds_iff (h : GroupedRows nodes rows) :
    SplitsWorld nodes true (rows.foldl addEnds []) ↔
      AllGrouped nodes ∧ ∀ row ∈ rows.tail, row.length ≠ 1 := by
  constructor
  · intro splits
    refine ⟨(h.covered_iff (flatten_foldl_addEnds rows)).mp splits.covered, ?_⟩
    intro row hrow one
    rcases List.length_eq_one_iff.mp one with ⟨a, rfl⟩
    cases rows with
    | nil => exact List.not_mem_nil hrow
    | cons first rest =>
      rcases List.append_of_mem (show [a] ∈ rest from hrow) with ⟨front, back, rfl⟩
      have some : (first :: front).flatten ≠ [] := by
        rw [List.flatten_cons]
        exact List.append_ne_nil_of_left_ne_nil (h.nonempty first List.mem_cons_self) _
      rcases exists_together_addEnds some back a with ⟨b, hb, together⟩
      have single : [a] ∈ first :: (front ++ [a] :: back) :=
        List.mem_cons_of_mem _ (List.mem_append_right _ List.mem_cons_self)
      rcases h.exists_node single (List.mem_singleton.mpr rfl) with ⟨e, he, rfl, grouped⟩
      rcases List.mem_flatten.mp hb with ⟨other, hother, hb⟩
      have other_mem : other ∈ first :: (front ++ [e.1] :: back) :=
        List.mem_append_left ([e.1] :: back) hother
      rcases h.exists_node other_mem hb with ⟨e', he', rfl, grouped'⟩
      -- the node alone would be of the node group of the other
      have same := splits.unmixed rfl e' he' e he together grouped' grouped
      have own := (h.same other other_mem e' he' e he hb).mpr same
      have nodup := h.nodup
      rw [← List.cons_append, List.flatten_append, List.flatten_cons, List.nodup_append] at nodup
      exact nodup.2.2 e.1 (List.mem_flatten.mpr ⟨other, hother, own⟩) e.1
        (List.mem_append_left _ (List.mem_singleton.mpr rfl)) rfl
  · rintro ⟨grouped, several⟩
    rw [foldl_addEnds_eq several, h.splits_flatMap_iff fun row _ ↦ Pairing.flatten_ends_perm row]
    exact ⟨grouped, fun row _ r mem ↦ Pairing.eq_singleton_of_mem_ends mem⟩

/-! ### Columns of the node groups -/

theorem splits_columns_iff (h : GroupedRows nodes rows) {width : Nat}
    (short : ∀ row ∈ rows, row.length ≤ width) :
    SplitsWorld nodes false ((Columns.columns width rows).foldl Pairing.collect []) ↔
      AllGrouped nodes := by
  have columns := Columns.flatten_columns_perm short
  have all : ((Columns.columns width rows).foldl Pairing.collect []).flatten.Perm rows.flatten := by
    rw [Pairing.flatten_foldl_collect]
    exact columns
  constructor
  · exact fun splits ↦ (h.covered_iff all).mp splits.covered
  · intro grouped
    have covered := (h.covered_iff all).mpr grouped
    refine ⟨all.nodup_iff.mpr h.nodup, covered, ?_, fun off ↦ absurd off Bool.false_ne_true⟩
    intro e he alone e' he' partner
    have only := Columns.eq_singleton_of_mem_collected h.nonempty alone
    have mem := (all.trans columns.symm).mem_iff.mp (covered e'.1 (Dict.mem_of_mem_items he'))
    rw [only] at mem
    exact partner.1 (List.mem_singleton.mp mem)

/-! ### The ranks of the groups -/

theorem keys_mergeLast {groups : List NodeMap} {rest : NodeMap}
    (nodup : ((groups.map Dict.keys).flatten ++ rest.keys).Nodup) :
    (mergeLast groups rest).map Dict.keys = Pairing.joinLast (groups.map Dict.keys) rest.keys := by
  cases groups using List.reverseRecOn with
  | nil => rfl
  | append_singleton groups last =>
    rw [List.map_append, List.flatten_append, List.append_assoc] at nodup
    have both : (last.keys ++ rest.keys).Nodup := by
      have right := (List.nodup_append.mp nodup).2.1
      simpa using right
    rw [List.map_append, List.map_singleton, Pairing.joinLast_concat, mergeLast,
      List.getLast?_concat]
    simp only [List.dropLast_concat, List.map_append, List.map_singleton, Dict.keys_update both]

/-- The pairs of the loop `while left < right`. -/
def crossPairs (sortedRanks : List Int) : List (List Int) :=
  (List.range (sortedRanks.length / 2)).filterMap fun left ↦ do
    let a ← sortedRanks[left]?
    let b ← sortedRanks[sortedRanks.length - 1 - left]?
    return [a, b]

theorem crossPairs_singleton (a : Int) : crossPairs [a] = [] := by
  simp [crossPairs]

theorem crossPairs_cons_append (a b : Int) (mid : List Int) :
    crossPairs (a :: (mid ++ [b])) = [a, b] :: crossPairs mid := by
  have half : (a :: (mid ++ [b])).length / 2 = mid.length / 2 + 1 := by
    rw [List.length_cons, List.length_append, List.length_singleton]
    omega
  rw [crossPairs, half]
  exact Pairing.filterMap_mirrored_cons_append a b (by omega)

/-- The pairs and the node in the middle are the ends. -/
theorem close_crossPairs (l : List Int) :
    (if l.length % 2 = 1 then Pairing.joinLast (crossPairs l) l[l.length / 2]?.toList
      else crossPairs l) = Pairing.ends l := by
  induction l using List.bidirectionalRec with
  | nil =>
    rw [Pairing.ends]
    rfl
  | singleton a =>
    rw [Pairing.ends]
    simp [crossPairs_singleton, Pairing.joinLast]
  | cons_append a mid b ih =>
    have length : (a :: (mid ++ [b])).length = mid.length + 2 := by simp
    have half : (mid.length + 2) / 2 = mid.length / 2 + 1 := by omega
    rw [crossPairs_cons_append, Pairing.ends_cons_append, length, Nat.add_mod_right, half,
      List.getElem?_cons_succ]
    by_cases odd : mid.length % 2 = 1
    · have inside : mid.length / 2 < mid.length := by omega
      rw [if_pos odd] at ih ⊢
      rw [List.getElem?_append_left inside]
      by_cases one : mid.length = 1
      · rcases List.length_eq_one_iff.mp one with ⟨c, rfl⟩
        simp [crossPairs_singleton, Pairing.joinLast]
      · have pairs : crossPairs mid ≠ [] := by
          cases mid using List.bidirectionalRec with
          | nil => exact absurd odd (by decide)
          | singleton c => exact absurd rfl one
          | cons_append c mid d =>
            rw [crossPairs_cons_append]
            exact List.cons_ne_nil _ _
        rw [if_neg one, ← ih]
        exact Pairing.joinLast_append [[a, b]] pairs _
    · rw [if_neg odd] at ih ⊢
      rw [if_neg (by omega), ih]

/-- The pairs of nodes of the world. -/
theorem keys_crossPairs {l : List Int} (nodup : l.Nodup) (known : ∀ r ∈ l, r ∈ nodes) :
    ((crossPairs l).map nodes.select).map Dict.keys = crossPairs l := by
  induction l using List.bidirectionalRec with
  | nil => rfl
  | singleton a => rw [crossPairs_singleton, List.map_nil, List.map_nil]
  | cons_append a mid b ih =>
    rcases select_outer nodup known with ⟨keys, inner, known'⟩
    rw [crossPairs_cons_append, List.map_cons, List.map_cons, keys, ih inner known']

theorem keys_groupCross {groups : List NodeMap} {row : List Int}
    (nodup : ((groups.map Dict.keys).flatten ++ row).Nodup) (known : ∀ r ∈ row, r ∈ nodes) :
    (groupCross nodes groups row).map Dict.keys = addEnds (groups.map Dict.keys) row := by
  have parts := List.nodup_append.mp nodup
  have pairs : ((crossPairs row).map nodes.select).map Dict.keys = crossPairs row :=
    keys_crossPairs parts.2.1 known
  have close := close_crossPairs row
  have ends := Pairing.flatten_ends_perm row
  show (if row.length % 2 = 1 then
      mergeLast (groups ++ (crossPairs row).map nodes.select)
        (nodes.select row[row.length / 2]?.toList)
    else groups ++ (crossPairs row).map nodes.select).map Dict.keys = _
  by_cases odd : row.length % 2 = 1
  · rw [if_pos odd] at close ⊢
    have inside : row.length / 2 < row.length := by omega
    rw [List.getElem?_eq_getElem inside, Option.toList_some] at close ⊢
    have middle : (nodes.select [row[row.length / 2]]).keys = [row[row.length / 2]] := by
      apply Dict.keys_select (List.nodup_singleton _)
      intro r hr
      rw [List.mem_singleton.mp hr]
      exact known _ (List.getElem_mem inside)
    have keys : (groups ++ (crossPairs row).map nodes.select).map Dict.keys =
        groups.map Dict.keys ++ crossPairs row := by
      rw [List.map_append, pairs]
    rw [← close, Pairing.flatten_joinLast] at ends
    rw [keys_mergeLast, keys, middle, addEnds]
    · by_cases one : row.length = 1
      · rcases List.length_eq_one_iff.mp one with ⟨a, rfl⟩
        have only : [a][[a].length / 2] = a := by simp
        rw [if_pos one, crossPairs_singleton, List.append_nil, only]
      · rw [if_neg one, ← close, Pairing.joinLast_append]
        intro none
        rw [none, List.flatten_nil, List.nil_append] at ends
        exact one ends.length_eq.symm
    · rw [keys, middle, List.flatten_append, List.append_assoc]
      exact (ends.append_left _).nodup_iff.mpr nodup
  · rw [if_neg odd] at close ⊢
    rw [List.map_append, pairs, close, addEnds, if_neg]
    intro one
    exact odd (by rw [one])

theorem keys_foldl_groupCross {rows : List (List Int)} (nodup : rows.flatten.Nodup)
    (known : ∀ r ∈ rows.flatten, r ∈ nodes) :
    (rows.foldl (groupCross nodes) []).map Dict.keys = rows.foldl addEnds [] := by
  induction rows using List.reverseRecOn with
  | nil => rfl
  | append_singleton rows row ih =>
    rw [List.flatten_append, List.flatten_singleton] at nodup known
    have front := ih (List.nodup_append.mp nodup).1 fun r hr ↦ known r (List.mem_append_left _ hr)
    rw [List.foldl_append, List.foldl_cons, List.foldl_nil, List.foldl_append, List.foldl_cons,
      List.foldl_nil, ← front, keys_groupCross]
    · rw [front]
      exact ((flatten_foldl_addEnds rows).append_right row).nodup_iff.mpr nodup
    · exact fun r hr ↦ known r (List.mem_append_right _ hr)

theorem keys_addGroup {groups : List NodeMap} {group : NodeMap}
    (nodup : ((groups.map Dict.keys).flatten ++ group.keys).Nodup) :
    (addGroup groups group).map Dict.keys =
      Pairing.collect (groups.map Dict.keys) group.keys := by
  unfold addGroup Pairing.collect
  rw [length_items]
  split
  · rw [List.map_append, List.map_singleton]
  · have empty : group.items = [] ↔ group.keys.length = 0 := by
      rw [← length_items, List.length_eq_zero_iff]
    simp only [empty]
    split
    · rfl
    · exact keys_mergeLast nodup

theorem length_le_foldl_max {row : List Int} (hrow : row ∈ rows) :
    row.length ≤ (rows.map List.length).foldl max 0 := by
  induction rows using List.reverseRecOn with
  | nil => exact absurd hrow List.not_mem_nil
  | append_singleton rows last ih =>
    rw [List.map_append, List.foldl_append, List.map_singleton, List.foldl_cons, List.foldl_nil]
    rcases List.mem_append.mp hrow with hrow | hrow
    · exact (ih hrow).trans (Nat.le_max_left _ _)
    · rw [List.mem_singleton.mp hrow]
      exact Nat.le_max_right _ _

theorem keys_groupByPosition (h : GroupedRows nodes rows) :
    (groupByPosition nodes rows).map Dict.keys =
      (Columns.columns ((rows.map List.length).foldl max 0) rows).foldl Pairing.collect [] := by
  have perm : (Columns.columns ((rows.map List.length).foldl max 0) rows).flatten.Perm
      rows.flatten := Columns.flatten_columns_perm fun row hrow ↦ length_le_foldl_max hrow
  have nodup := perm.nodup_iff.mpr h.nodup
  have known : ∀ r ∈ (Columns.columns ((rows.map List.length).foldl max 0) rows).flatten,
      r ∈ nodes := fun r hr ↦ h.known (perm.mem_iff.mp hr)
  unfold groupByPosition Columns.columns at *
  generalize List.range ((rows.map List.length).foldl max 0) = places at nodup known ⊢
  clear perm
  induction places using List.reverseRecOn with
  | nil => rfl
  | append_singleton places pos ih =>
    rw [List.map_append, List.map_singleton, List.flatten_append, List.flatten_singleton]
      at nodup known
    have parts := List.nodup_append.mp nodup
    have front := ih parts.1 fun r hr ↦ known r (List.mem_append_left _ hr)
    have column : (nodes.select (Columns.column rows pos)).keys = Columns.column rows pos :=
      Dict.keys_select parts.2.1 fun r hr ↦ known r (List.mem_append_right _ hr)
    have last : (nodes.select (rows.filterMap (·[pos]?))).keys = Columns.column rows pos := column
    rw [List.foldl_append, List.foldl_cons, List.foldl_nil, List.map_append, List.map_singleton,
      List.foldl_append, List.foldl_cons, List.foldl_nil, ← front, ← last, keys_addGroup]
    rw [front, last, Pairing.flatten_foldl_collect]
    exact nodup

/-! ### The phases -/

/-- The completed checks of node groups whose groups split the nodes: without node groups they do
when the base class has a time for each node in its second round, and never in the third. With node
groups every node has one, there is no odd node group with several nodes in the first phase, and
none with a single node after another one in its diagnosis. -/
def GroupNodeManager.Splittable (s : GroupNodeManager) (round : Nat) : Prop :=
  let nodes := s.check.base.rdzvNodes
  let rows := (buildNodeGroupMap nodes).values
  if rows = [] then
    (round % 3 = 1 → ∀ r ∈ nodes, r ∈ s.check.nodeTimes) ∧ (round % 3 = 2 → nodes.items = [])
  else
    AllGrouped nodes ∧
      (round % 3 = 0 → ∀ row ∈ rows, row.length % 2 = 1 → row.length = 1) ∧
      (round % 3 = 1 → s.hasIntraFailures → ∀ row ∈ rows.tail, row.length ≠ 1)

/-- An intra phase. -/
def GroupNodeCheckPhase.isIntra (phase : GroupNodeCheckPhase) : Bool :=
  phase = .intraInitial || phase = .intraDiagnostic

theorem sortedRows (h : GroupedRows nodes rows) (nodeTimes : Dict Int ℚ) :
    GroupedRows nodes (rows.map (sortRanksByTime nodeTimes)) := by
  have sorted : ∀ row, (sortRanksByTime nodeTimes row).Perm row := fun row ↦
    List.perm_insertionSort _ row
  apply h.of_perm
  · intro row' hrow'
    rcases List.mem_map.mp hrow' with ⟨row, hrow, rfl⟩
    exact ⟨row, hrow, sorted row⟩
  · have each := List.Perm.flatMap_left rows fun row _ ↦ sorted row
    rwa [List.flatMap_id', List.flatMap_def] at each

theorem rotatedRows (h : GroupedRows nodes rows) : GroupedRows nodes (Columns.rotated rows) := by
  apply h.of_perm
  · intro row' hrow'
    rcases List.mem_mapIdx.mp hrow' with ⟨i, lt, rfl⟩
    exact ⟨rows[i], List.getElem_mem lt, List.rotate_perm _ _⟩
  · exact Columns.flatten_rotated_perm rows

theorem rows_sortedGroups (nodes : NodeMap) :
    GroupedRows nodes (sortedGroups (buildNodeGroupMap nodes)) := by
  have perm : (sortedGroups (buildNodeGroupMap nodes)).Perm (buildNodeGroupMap nodes).values :=
    (List.perm_insertionSort _ _).map Prod.snd
  apply (groupedRows_build nodes).of_perm
  · exact fun row hrow ↦ ⟨row, perm.mem_iff.mp hrow, .refl row⟩
  · exact perm.flatten

theorem splits_groupByPosition_iff (h : GroupedRows nodes rows) :
    SplitsWorld nodes false ((groupByPosition nodes rows).map Dict.keys) ↔ AllGrouped nodes := by
  rw [keys_groupByPosition h]
  exact splits_columns_iff h fun row hrow ↦ length_le_foldl_max hrow

theorem splits_groupIntraInitial_iff (nodes : NodeMap) :
    SplitsWorld nodes true ((groupIntraInitial nodes (buildNodeGroupMap nodes)).map Dict.keys) ↔
      AllGrouped nodes ∧
        ∀ row ∈ (buildNodeGroupMap nodes).values, row.length % 2 = 1 → row.length = 1 := by
  have h := groupedRows_build nodes
  have keys : (groupIntraInitial nodes (buildNodeGroupMap nodes)).map Dict.keys =
      (buildNodeGroupMap nodes).values.flatMap pairsOf := by
    rw [groupIntraInitial, List.map_flatMap]
    apply List.flatMap_congr
    intro row hrow
    rw [List.map_map]
    nth_rewrite 2 [← List.map_id (pairsOf row)]
    apply List.map_congr_left
    intro pair hpair
    have within : ∀ r ∈ pair, r ∈ row := by
      intro r hr
      rw [← flatten_pairsOf row]
      exact List.mem_flatten.mpr ⟨pair, hpair, hr⟩
    have parts := (List.nodup_flatten.mp h.nodup).1 row hrow
    rw [← flatten_pairsOf row] at parts
    exact Dict.keys_select ((List.nodup_flatten.mp parts).1 pair hpair) fun r hr ↦
      h.known (List.mem_flatten.mpr ⟨row, hrow, within r hr⟩)
  rw [keys]
  exact splits_pairsOf_iff h

theorem splits_groupIntraDiagnostic_iff (nodes : NodeMap) (nodeTimes : Dict Int ℚ) :
    SplitsWorld nodes true
        ((groupIntraDiagnostic nodes nodeTimes (buildNodeGroupMap nodes)).map Dict.keys) ↔
      AllGrouped nodes ∧ ∀ row ∈ (buildNodeGroupMap nodes).values.tail, row.length ≠ 1 := by
  have h := sortedRows (groupedRows_build nodes) nodeTimes
  rw [groupIntraDiagnostic, keys_foldl_groupCross h.nodup fun r hr ↦ h.known hr,
    splits_addEnds_iff h, ← List.map_tail]
  refine and_congr_right fun _ ↦ ?_
  constructor
  · intro several row hrow one
    apply several _ (List.mem_map_of_mem hrow)
    rw [sortRanksByTime, List.length_insertionSort, one]
  · intro several row' hrow' one
    rcases List.mem_map.mp hrow' with ⟨row, hrow, rfl⟩
    rw [sortRanksByTime, List.length_insertionSort] at one
    exact several row hrow one

theorem ungrouped_of_rows (h : GroupedRows nodes []) : ∀ e ∈ nodes.items, e.2.nodeGroup < 0 := by
  intro e he
  have none := List.nil_perm.mp h.ranks
  rw [List.map_eq_nil_iff, List.filter_eq_nil_iff] at none
  exact not_le.mp fun grouped ↦ none e he (decide_eq_true grouped)

/-- The groups of a completed check split its nodes just when it was splittable. -/
theorem GroupNodeManager.groupNodes_splits_iff (s : GroupNodeManager) (round : Nat) :
    SplitsWorld s.check.base.rdzvNodes (s.groupNodes round).2.currentPhase.isIntra
        ((s.groupNodes round).1.map Dict.keys) ↔ s.Splittable round := by
  have phases : round % 3 = 0 ∨ round % 3 = 1 ∨ round % 3 = 2 := by omega
  have items : (buildNodeGroupMap s.check.base.rdzvNodes).items = [] ↔
      (buildNodeGroupMap s.check.base.rdzvNodes).values = [] := List.map_eq_nil_iff.symm
  have h := groupedRows_build s.check.base.rdzvNodes
  unfold groupNodes Splittable
  by_cases none : (buildNodeGroupMap s.check.base.rdzvNodes).values = []
  · rw [none] at h
    have ungrouped := ungrouped_of_rows h
    simp only [items, none, if_true]
    rcases phases with zero | one | two
    · simp only [zero]
      refine iff_of_true (splits_groupAdjacent fun _ ↦ ungrouped) ⟨?_, ?_⟩ <;>
        exact fun eq ↦ absurd eq (by decide)
    · simp only [one]
      rw [splits_groupEnds_iff fun _ ↦ ungrouped]
      exact ⟨fun timed ↦ ⟨fun _ ↦ timed, fun eq ↦ absurd eq (by decide)⟩, fun h ↦ h.1 trivial⟩
    · simp only [two]
      constructor
      · intro splits
        refine ⟨fun eq ↦ absurd eq (by decide), fun _ ↦ List.eq_nil_iff_forall_not_mem.mpr ?_⟩
        exact fun e he ↦ List.not_mem_nil (splits.covered e.1 (Dict.mem_of_mem_items he))
      · intro empty
        have keys : s.check.base.rdzvNodes.keys = [] := List.map_eq_nil_iff.mpr (empty.2 trivial)
        apply splitsWorld_of_perm fun _ ↦ ungrouped
        · rw [keys]
          rfl
        · exact fun r mem ↦ absurd mem List.not_mem_nil
  · simp only [items, none, if_false]
    rcases phases with zero | one | two
    · simp only [zero]
      rw [show GroupNodeCheckPhase.intraInitial.isIntra = true from rfl,
        splits_groupIntraInitial_iff]
      exact ⟨fun h ↦ ⟨h.1, fun _ ↦ h.2, fun eq ↦ absurd eq (by decide)⟩,
        fun h ↦ ⟨h.1, h.2.1 trivial⟩⟩
    · have same : ∀ g, GroupNodeManager.hasIntraFailures { s with nodeGroupMap := g } =
          s.hasIntraFailures := fun _ ↦ rfl
      simp only [one, same]
      by_cases failures : s.hasIntraFailures = true
      · simp only [failures, if_true]
        rw [show GroupNodeCheckPhase.intraDiagnostic.isIntra = true from rfl,
          splits_groupIntraDiagnostic_iff]
        exact ⟨fun h ↦ ⟨h.1, fun eq ↦ absurd eq (by decide), fun _ _ ↦ h.2⟩,
          fun h ↦ ⟨h.1, h.2.2 trivial trivial⟩⟩
      · simp only [failures, Bool.false_eq_true, if_false]
        rw [show GroupNodeCheckPhase.interInitial.isIntra = false from rfl, groupInterInitial,
          splits_groupByPosition_iff (rows_sortedGroups _)]
        exact ⟨fun h ↦ ⟨h, fun eq ↦ absurd eq (by decide), fun _ on ↦ absurd on not_false⟩,
          And.left⟩
    · simp only [two]
      rw [show GroupNodeCheckPhase.interDiagnostic.isIntra = false from rfl,
        groupInterDiagnostic_eq,
        splits_groupByPosition_iff (rotatedRows (sortedRows (rows_sortedGroups _) _))]
      exact ⟨fun h ↦ ⟨h, fun eq ↦ absurd eq (by decide), fun eq ↦ absurd eq (by decide)⟩, And.left⟩

end ProbingBaselines.Dlrover
