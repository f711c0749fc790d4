import Mathlib.Algebra.Order.BigOperators.GroupWithZero.List
import Mathlib.Data.List.Perm.Subperm
import ProbingBaselines.Lib.Dict
import ProbingBaselines.Lib.NdArray

/-!
# The ranks of parallel groups

`GetRankHelper` (`py_xpu_timer/util.py:50-77`) lays the ranks out in an array with one axis for each
named group, the last-named first. The rows of a group are the runs along its axis, rebuilt from the
strides.
-/

namespace ProbingBaselines.XpuTimer

open Lib

/-- `range(start, stop, step)`, for a step of at least 1. -/
def stepRange (start stop step : Nat) : List Nat :=
  List.range' start ((stop - start + (step - 1)) / step) step

/-- What the loop of `__init__` has gathered; `util.py:52-60`. -/
structure RankLayout where
  worldSize : Nat
  nameToAxis : Dict String Nat
  order : List Nat
  size : worldSize = order.prod

namespace RankLayout

def empty : RankLayout := ⟨1, .empty, [], List.prod_nil.symm⟩

/-- One turn of the loop; `util.py:57-60`. -/
def add (totalDim : Nat) (l : RankLayout) (item : (String × Nat) × Nat) : RankLayout where
  worldSize := l.worldSize * item.1.2
  nameToAxis := l.nameToAxis.insert item.1.1 (totalDim - item.2 - 1)
  order := l.order ++ [item.1.2]
  size := by rw [l.size, List.prod_append, List.prod_singleton]

/-- The loop over `enumerate(groups.items())`. -/
def ofItems (items : List (String × Nat)) : RankLayout :=
  items.zipIdx.foldl (add items.length) empty

end RankLayout

/-- The fields of the helper. -/
structure GetRankHelper where
  worldSize : Nat
  nameToAxis : Dict String Nat
  ranks : NdArray Nat

/-- An array of ranks: one row, or all of them. -/
inductive RankArray where
  | row (ranks : List Nat)
  | rows (rows : List (List Nat))
  deriving DecidableEq

namespace GetRankHelper

/-- `__init__`; `util.py:51-62`. -/
def new (groups : Dict String Nat) : GetRankHelper :=
  let l := RankLayout.ofItems groups.items
  { worldSize := l.worldSize
    nameToAxis := l.nameToAxis
    ranks := (NdArray.arange l.worldSize).reshape l.order.reverse (by
      rw [List.prod_reverse, ← l.size]
      exact List.prod_singleton) }

/-- `get_ranks`; `util.py:65-77`. There is none for an unknown group or an empty array. -/
def getRanks (h : GetRankHelper) (group : String) (group0 : Bool) : Option RankArray := do
  let axis ← h.nameToAxis.get? group
  let strides := (h.ranks.strides 8).map (· / 8)
  let shape ← h.ranks.shape[axis]?
  let skip ← strides[axis]?
  let index := (List.replicate h.ranks.ndim none).set axis (some 0)
  let first ← h.ranks.select index
  if group0 then
    let start ← first.head?
    return .row (stepRange start (start + skip * shape) skip)
  else
    return .rows (first.map fun start ↦ stepRange start (start + skip * shape) skip)

end GetRankHelper

/-! ### What the loop gathers -/

namespace RankLayout

theorem order_foldl (totalDim : Nat) (items : List (String × Nat)) (k : Nat) (l : RankLayout) :
    ((items.zipIdx k).foldl (add totalDim) l).order = l.order ++ items.map Prod.snd := by
  induction items generalizing k l with
  | nil => simp
  | cons item items ih =>
    rw [List.zipIdx_cons, List.foldl_cons, ih, add, List.append_assoc]
    rfl

theorem order_ofItems (items : List (String × Nat)) : (ofItems items).order = items.map Prod.snd :=
  order_foldl items.length items 0 empty

theorem axis_foldl (totalDim : Nat) {items : List (String × Nat)} {name : String}
    (other : name ∉ items.map Prod.fst) (k : Nat) (l : RankLayout) :
    ((items.zipIdx k).foldl (add totalDim) l).nameToAxis.get? name = l.nameToAxis.get? name := by
  induction items generalizing k l with
  | nil => rfl
  | cons item items ih =>
    rw [List.map_cons, List.mem_cons, not_or] at other
    rw [List.zipIdx_cons, List.foldl_cons, ih other.2, add, Dict.get?_insert, if_neg other.1]

/-- The axis of a group: one for each group named after it. -/
theorem axis_ofItems (before after : List (String × Nat)) (name : String) (n : Nat)
    (last : name ∉ after.map Prod.fst) :
    (ofItems (before ++ (name, n) :: after)).nameToAxis.get? name = some after.length := by
  rw [ofItems, List.zipIdx_append, List.foldl_append, List.zipIdx_cons, List.foldl_cons,
    axis_foldl _ last, add, Dict.get?_insert, if_pos rfl, List.length_append, List.length_cons]
  congr 1
  omega

end RankLayout

/-! ### The rows -/

/-- The row of one start: the starts count the ranks that are 0 along the axis. -/
def groupRow (n skip k : Nat) : List Nat :=
  (List.range n).map fun i ↦ k / skip * (n * skip) + k % skip + skip * i

theorem stepRange_eq (start n : Nat) {step : Nat} (pos : 0 < step) :
    stepRange start (start + step * n) step = (List.range n).map fun i ↦ start + step * i := by
  have count : (start + step * n - start + (step - 1)) / step = n := by
    rw [Nat.add_sub_cancel_left, Nat.mul_add_div pos, Nat.div_eq_of_lt (by omega), Nat.add_zero]
  rw [stepRange, count]
  apply List.ext_getElem
  · simp
  · intro i hi _
    simp

/-- A row has the ranks that agree with its start before and after the axis. -/
theorem mem_groupRow {n skip k r : Nat} (n_pos : 0 < n) (skip_pos : 0 < skip) :
    r ∈ groupRow n skip k ↔ r % skip = k % skip ∧ r / skip / n = k / skip := by
  have low : k % skip < skip := Nat.mod_lt k skip_pos
  rw [groupRow, List.mem_map]
  constructor
  · rintro ⟨i, hi, rfl⟩
    have lt := List.mem_range.mp hi
    have eq : k / skip * (n * skip) + k % skip + skip * i =
        k % skip + skip * (i + n * (k / skip)) := by ring
    rw [eq, Nat.add_mul_mod_self_left, Nat.mod_mod, Nat.add_mul_div_left _ _ skip_pos,
      Nat.div_eq_of_lt low, Nat.zero_add, Nat.add_mul_div_left _ _ n_pos, Nat.div_eq_of_lt lt,
      Nat.zero_add]
    exact ⟨rfl, rfl⟩
  · rintro ⟨same_low, same_high⟩
    refine ⟨r / skip % n, List.mem_range.mpr (Nat.mod_lt _ n_pos), ?_⟩
    have outer := Nat.div_add_mod r skip
    have inner := Nat.div_add_mod (r / skip) n
    rw [← same_low, ← same_high]
    calc r / skip / n * (n * skip) + r % skip + skip * (r / skip % n)
        = skip * (n * (r / skip / n) + r / skip % n) + r % skip := by ring
      _ = r := by rw [inner, outer]

/-- The rows, one for each rank that is 0 along the axis. -/
def groupRows (n skip outer : Nat) : List (List Nat) :=
  (List.range (outer * skip)).map (groupRow n skip)

theorem length_of_mem_groupRows {n skip outer : Nat} {row : List Nat}
    (h : row ∈ groupRows n skip outer) : row.length = n := by
  rcases List.mem_map.mp h with ⟨k, -, rfl⟩
  simp [groupRow]

/-- Two ranks share a row if they agree before and after the axis. -/
theorem share_groupRows {n skip outer r r' : Nat} (n_pos : 0 < n) (skip_pos : 0 < skip)
    (lt : r < skip * (n * outer)) :
    (∃ row ∈ groupRows n skip outer, r ∈ row ∧ r' ∈ row) ↔
      r % skip = r' % skip ∧ r / skip / n = r' / skip / n := by
  constructor
  · rintro ⟨row, mem, hr, hr'⟩
    rcases List.mem_map.mp mem with ⟨k, -, rfl⟩
    have one := (mem_groupRow n_pos skip_pos).mp hr
    have two := (mem_groupRow n_pos skip_pos).mp hr'
    exact ⟨one.1.trans two.1.symm, one.2.trans two.2.symm⟩
  · rintro ⟨low, high⟩
    have low_lt : r % skip < skip := Nat.mod_lt r skip_pos
    have high_lt : r / skip / n < outer := by
      apply Nat.div_lt_of_lt_mul
      exact Nat.div_lt_of_lt_mul lt
    -- The start of the row of `r`.
    let k := r % skip + skip * (r / skip / n)
    have k_low : k % skip = r % skip := by
      rw [Nat.add_mul_mod_self_left, Nat.mod_mod]
    have k_high : k / skip = r / skip / n := by
      rw [Nat.add_mul_div_left _ _ skip_pos, Nat.div_eq_of_lt low_lt, Nat.zero_add]
    have k_lt : k < outer * skip := by
      rw [← Nat.div_lt_iff_lt_mul skip_pos, k_high]
      exact high_lt
    refine ⟨groupRow n skip k, List.mem_map_of_mem (List.mem_range.mpr k_lt), ?_, ?_⟩
    · exact (mem_groupRow n_pos skip_pos).mpr ⟨k_low.symm, k_high.symm⟩
    · rw [low] at k_low
      rw [high] at k_high
      exact (mem_groupRow n_pos skip_pos).mpr ⟨k_low.symm, k_high.symm⟩

/-- The rows partition the ranks: each rank is in a row, and there is no room for more. -/
theorem flatten_groupRows {n skip outer : Nat} (n_pos : 0 < n) (skip_pos : 0 < skip) :
    (groupRows n skip outer).flatten.Perm (List.range (skip * (n * outer))) := by
  have covers : List.range (skip * (n * outer)) ⊆ (groupRows n skip outer).flatten := by
    intro r hr
    have shares := (share_groupRows n_pos skip_pos (List.mem_range.mp hr)).mpr ⟨rfl, rfl⟩
    rcases shares with ⟨row, mem, hr, -⟩
    exact List.mem_flatten.mpr ⟨row, mem, hr⟩
  have total : (groupRows n skip outer).flatten.length = skip * (n * outer) := by
    have each : (groupRows n skip outer).map List.length =
        List.replicate (outer * skip) n := by
      rw [groupRows, List.map_map]
      simp [groupRow, Function.comp_def]
    rw [List.length_flatten, each, List.sum_replicate_nat]
    ring
  have sub := List.subperm_of_subset List.nodup_range covers
  apply List.Perm.symm
  apply sub.perm_of_length_le
  rw [total, List.length_range]

namespace GetRankHelper

/-! ### The rows that are returned -/

theorem worldSize_new (groups : Dict String Nat) : (new groups).worldSize = groups.values.prod := by
  have layout : (new groups).worldSize = (RankLayout.ofItems groups.items).worldSize := rfl
  rw [layout, RankLayout.size, RankLayout.order_ofItems, Dict.values]

theorem shape_new (groups : Dict String Nat) :
    (new groups).ranks.shape = groups.values.reverse := by
  have layout : (new groups).ranks.shape = (RankLayout.ofItems groups.items).order.reverse := rfl
  rw [layout, RankLayout.order_ofItems, Dict.values]

theorem data_new (groups : Dict String Nat) :
    (new groups).ranks.data = List.range (new groups).worldSize := rfl

section

variable {groups : Dict String Nat} {before after : List (String × Nat)} {group : String} {n : Nat}

/-- The sizes of some groups. -/
abbrev sizes (items : List (String × Nat)) : List Nat := items.map Prod.snd

theorem values_split (split : groups.items = before ++ (group, n) :: after) :
    groups.values = sizes before ++ n :: sizes after := by
  rw [Dict.values, split, List.map_append, List.map_cons]

theorem axis_new (split : groups.items = before ++ (group, n) :: after) :
    (new groups).nameToAxis.get? group = some after.length := by
  have once := groups.nodup
  rw [split, List.map_append, List.map_cons, List.nodup_append, List.nodup_cons] at once
  have layout : (new groups).nameToAxis = (RankLayout.ofItems groups.items).nameToAxis := rfl
  rw [layout, split, RankLayout.axis_ofItems before after group n once.2.1.1]

theorem sizes_pos {items : List (String × Nat)} (pos : ∀ item ∈ items, 1 ≤ item.2) :
    ∀ size ∈ sizes items, 0 < size := by
  intro size mem
  rcases List.mem_map.mp mem with ⟨item, hitem, rfl⟩
  exact pos item hitem

/-- All sizes are positive, those before the group, its own and those after it. -/
theorem pos_split (split : groups.items = before ++ (group, n) :: after)
    (pos : ∀ item ∈ groups.items, 1 ≤ item.2) :
    (∀ size ∈ sizes before, 0 < size) ∧ 0 < n ∧ ∀ size ∈ sizes after, 0 < size := by
  rw [split] at pos
  refine ⟨sizes_pos fun item mem ↦ pos item ?_, pos (group, n) (by simp),
    sizes_pos fun item mem ↦ pos item ?_⟩
  · exact List.mem_append_left _ mem
  · exact List.mem_append_right _ (List.mem_cons_of_mem _ mem)

theorem index_new (split : groups.items = before ++ (group, n) :: after) :
    (List.replicate (new groups).ranks.ndim none).set after.length (some 0) =
      List.replicate (sizes after).reverse.length none ++
        some 0 :: List.replicate (sizes before).reverse.length none := by
  have ndim : (new groups).ranks.ndim = after.length + (before.length + 1) := by
    rw [NdArray.ndim, shape_new, values_split split]
    simp
  rw [ndim, List.replicate_add, List.replicate_succ, List.set_append_right _ _ (by simp)]
  simp

theorem shape_split (split : groups.items = before ++ (group, n) :: after) :
    (new groups).ranks.shape = (sizes after).reverse ++ n :: (sizes before).reverse := by
  rw [shape_new, values_split split, List.reverse_append, List.reverse_cons, List.append_assoc,
    List.singleton_append]

/-- The ranks that are 0 along the axis. -/
theorem select_new (split : groups.items = before ++ (group, n) :: after) (n_pos : 0 < n)
    (skip_pos : 0 < (sizes before).prod) :
    (new groups).ranks.select
        ((List.replicate (new groups).ranks.ndim none).set after.length (some 0)) =
      some ((List.range ((sizes after).prod * (sizes before).prod)).map fun k ↦
        k / (sizes before).prod * (n * (sizes before).prod) + k % (sizes before).prod) := by
  apply NdArray.select_range
  · rw [data_new, worldSize_new, shape_new, List.prod_reverse]
  · rw [← List.prod_reverse (sizes before)] at skip_pos
    rw [index_new split, shape_split split, NdArray.offsets_zero _ _ n_pos skip_pos,
      List.prod_reverse, List.prod_reverse]

theorem stride_new (split : groups.items = before ++ (group, n) :: after)
    (pos : ∀ size ∈ sizes before, 0 < size) :
    (((new groups).ranks.strides 8).map (· / 8))[after.length]? = some (sizes before).prod := by
  have axis : after.length = (sizes after).reverse.length := by simp
  have full : (sizes before).reverse.filter (· ≠ 0) = (sizes before).reverse := by
    apply List.filter_eq_self.mpr
    intro size mem
    have := pos size (List.mem_reverse.mp mem)
    simp
    omega
  rw [List.getElem?_map, NdArray.strides, shape_split split, axis, NdArray.stridesOf_append, full,
    Option.map_some, Nat.mul_div_cancel_left _ (by omega), List.prod_reverse]

theorem size_new (split : groups.items = before ++ (group, n) :: after) :
    (new groups).ranks.shape[after.length]? = some n := by
  have axis : after.length = (sizes after).reverse.length := by simp
  rw [shape_split split, axis, List.getElem?_append_right (Nat.le_refl _), Nat.sub_self,
    List.getElem?_cons_zero]

/-- What is returned: the rows of the group, or the one of rank 0. -/
theorem getRanks_new (split : groups.items = before ++ (group, n) :: after)
    (pos : ∀ item ∈ groups.items, 1 ≤ item.2) :
    (new groups).getRanks group false =
        some (.rows (groupRows n (sizes before).prod (sizes after).prod)) ∧
      (new groups).getRanks group true = some (.row (groupRow n (sizes before).prod 0)) := by
  rcases pos_split split pos with ⟨before_pos, n_pos, after_pos⟩
  have skip_pos : 0 < (sizes before).prod := List.prod_pos before_pos
  have outer_pos : 0 < (sizes after).prod := List.prod_pos after_pos
  have row : ∀ k, stepRange
      (k / (sizes before).prod * (n * (sizes before).prod) + k % (sizes before).prod)
      (k / (sizes before).prod * (n * (sizes before).prod) + k % (sizes before).prod +
        (sizes before).prod * n) (sizes before).prod = groupRow n (sizes before).prod k :=
    fun k ↦ stepRange_eq _ n skip_pos
  have some_rank : 0 < (sizes after).prod * (sizes before).prod := Nat.mul_pos outer_pos skip_pos
  have start : ((List.range ((sizes after).prod * (sizes before).prod)).map fun k ↦
      k / (sizes before).prod * (n * (sizes before).prod) + k % (sizes before).prod).head? =
      some (0 / (sizes before).prod * (n * (sizes before).prod) + 0 % (sizes before).prod) := by
    rw [List.head?_map, List.head?_eq_getElem?, List.getElem?_range some_rank, Option.map_some]
  simp only [getRanks, axis_new split, size_new split, stride_new split before_pos,
    select_new split n_pos skip_pos, Option.bind_eq_bind, Option.bind_some, Bool.false_eq_true,
    if_false, if_true, List.map_map, Function.comp_def, start, row, groupRows]
  exact ⟨rfl, rfl⟩

end

/-! ### The partition -/

/-- Two lists of the same form agree but for one place. -/
theorem agree_elsewhere {a a' b b' : List Nat} {x x' : Nat} (before : a.length = a'.length) :
    (∀ j ≠ a.length, (a ++ x :: b)[j]? = (a' ++ x' :: b')[j]?) ↔ a = a' ∧ b = b' := by
  constructor
  · intro agree
    constructor
    · apply List.ext_getElem?
      intro j
      rcases Nat.lt_or_ge j a.length with lt | ge
      · have same := agree j (by omega)
        rwa [List.getElem?_append_left lt, List.getElem?_append_left (by omega)] at same
      · rw [List.getElem?_eq_none ge, List.getElem?_eq_none (by omega)]
    · apply List.ext_getElem?
      intro j
      have same := agree (a.length + (j + 1)) (by omega)
      rw [List.getElem?_append_right (by omega), List.getElem?_append_right (by omega),
        ← before, Nat.add_sub_cancel_left, List.getElem?_cons_succ, List.getElem?_cons_succ] at same
      exact same
  · rintro ⟨rfl, rfl⟩ j ne
    rcases Nat.lt_or_gt_of_ne ne with lt | gt
    · rw [List.getElem?_append_left lt, List.getElem?_append_left lt]
    · rw [List.getElem?_append_right (by omega), List.getElem?_append_right (by omega),
        List.getElem?_cons, List.getElem?_cons, if_neg (by omega), if_neg (by omega)]

/-- The coordinates of two ranks differ only along the axis of a group. -/
theorem coordinates_agree {before after : List Nat} {n r r' : Nat}
    (lt : r < before.prod * (n * after.prod)) (lt' : r' < before.prod * (n * after.prod)) :
    (∀ j ≠ before.length, (coordinates (before ++ n :: after) r)[j]? =
        (coordinates (before ++ n :: after) r')[j]?) ↔
      r % before.prod = r' % before.prod ∧ r / before.prod / n = r' / before.prod / n := by
  have high : ∀ s < before.prod * (n * after.prod), s / before.prod / n < after.prod :=
    fun s hs ↦ Nat.div_lt_of_lt_mul (Nat.div_lt_of_lt_mul hs)
  have length : before.length = (coordinates before r).length := (coordinates_length _ _).symm
  rw [coordinates_append, coordinates_append, coordinates, coordinates, length,
    agree_elsewhere (by simp), coordinates_eq_iff, coordinates_eq_iff, Nat.mod_eq_of_lt (high r lt),
    Nat.mod_eq_of_lt (high r' lt')]

/-- The rows of a group partition the ranks, two ranks share one if their coordinates differ only in
the group, and `group_0` gives the row of rank 0. -/
theorem getRanks_spec (groups : Dict String Nat) (pos : ∀ item ∈ groups.items, 1 ≤ item.2)
    (group : String) (n : Nat) (named : groups.get? group = some n) :
    ∃ rows, (new groups).getRanks group false = some (.rows rows) ∧
      (∀ row ∈ rows, row.length = n) ∧
      rows.flatten.Perm (List.range (new groups).worldSize) ∧
      (∀ r < (new groups).worldSize, ∀ r' < (new groups).worldSize,
        (∃ row ∈ rows, r ∈ row ∧ r' ∈ row) ↔ ∀ j : Nat, groups.keys[j]? ≠ some group →
          (coordinates groups.values r)[j]? = (coordinates groups.values r')[j]?) ∧
      ∃ row ∈ rows, 0 ∈ row ∧ (new groups).getRanks group true = some (.row row) := by
  rcases List.append_of_mem (Dict.get?_eq_some_iff.mp named) with ⟨before, after, split⟩
  have returned := getRanks_new split pos
  rcases pos_split split pos with ⟨before_pos, n_pos, after_pos⟩
  have skip_pos : 0 < (sizes before).prod := List.prod_pos before_pos
  have outer_pos : 0 < (sizes after).prod := List.prod_pos after_pos
  have world : (new groups).worldSize = (sizes before).prod * (n * (sizes after).prod) := by
    rw [worldSize_new, values_split split, List.prod_append, List.prod_cons]
  have place : ∀ j : Nat, groups.keys[j]? ≠ some group ↔ j ≠ (sizes before).length := by
    have here : groups.keys[(sizes before).length]? = some group := by
      simp [Dict.keys, split]
    intro j
    constructor
    · rintro other rfl
      exact other here
    · intro ne same
      apply ne
      have lt := (List.getElem?_eq_some_iff.mp same).1
      exact (List.getElem?_inj lt groups.keys_nodup).mp (same.trans here.symm)
  refine ⟨_, returned.1, fun row ↦ length_of_mem_groupRows, ?_, ?_, ?_⟩
  · rw [world]
    exact flatten_groupRows n_pos skip_pos
  · intro r hr r' hr'
    rw [world] at hr hr'
    simp only [place]
    rw [values_split split, coordinates_agree hr hr', share_groupRows n_pos skip_pos hr]
  · refine ⟨groupRow n (sizes before).prod 0, ?_, ?_, returned.2⟩
    · apply List.mem_map_of_mem
      rw [List.mem_range]
      exact Nat.mul_pos outer_pos skip_pos
    · exact (mem_groupRow n_pos skip_pos).mpr ⟨rfl, by simp⟩


/-- `tp2-dp2-pp2`; `test_util.py:23-26`. -/
def testGroups : Dict String Nat := ⟨[("tp", 2), ("dp", 2), ("pp", 2)], by decide⟩

example : (new testGroups).getRanks "dp" false =
    some (.rows [[0, 2], [1, 3], [4, 6], [5, 7]]) := by decide

theorem getRanks_spec_test :
    ∃ rows, (new testGroups).getRanks "dp" false = some (.rows rows) ∧
      (∀ row ∈ rows, row.length = 2) ∧
      rows.flatten.Perm (List.range (new testGroups).worldSize) ∧
      (∀ r < (new testGroups).worldSize, ∀ r' < (new testGroups).worldSize,
        (∃ row ∈ rows, r ∈ row ∧ r' ∈ row) ↔ ∀ j : Nat, testGroups.keys[j]? ≠ some "dp" →
          (coordinates testGroups.values r)[j]? = (coordinates testGroups.values r')[j]?) ∧
      ∃ row ∈ rows, 0 ∈ row ∧ (new testGroups).getRanks "dp" true = some (.row row) :=
  getRanks_spec testGroups (by decide) "dp" 2 (by decide)

end GetRankHelper

end ProbingBaselines.XpuTimer
