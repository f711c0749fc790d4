import Mathlib.Algebra.Order.Group.Abs
import Mathlib.Algebra.Order.Ring.Rat
import Mathlib.Data.List.GetD
import Mathlib.Data.List.Sort
import Mathlib.Logic.Relation
import Mathlib.Tactic.NormNum
import ProbingBaselines.Lib.Binary64
import ProbingBaselines.Lib.WhileLoop

/-!
# The major cluster of a list of samples

Source `xputimer-metax/dlrover/go/brain/pkg/optimizer/implementation/utils/math.go`. The cluster
is a block of the sorted samples that grows from the middle, one neighbour at a time. The loop
stops as soon as one side is used up, so for an even number of samples the block may miss the
majority it is documented to have. The subtraction is a parameter: rounded to a double, it may find
two neighbours as near that are not.
-/

namespace ProbingBaselines.Dlrover

open Lib Relation

universe u v w

variable {α : Type u} {δ : Type v} {ε : Type w}

/-- The loop variables of `ComputeMajorCluster`, `math.go:42-44`. -/
structure Cluster (α : Type u) where
  clusterValues : List α
  leftIndex : Int
  rightIndex : Nat

namespace Cluster

/-- The loop condition, `math.go:45`. -/
def grows (nums : List α) (c : Cluster α) : Bool :=
  0 ≤ c.leftIndex && c.rightIndex < nums.length && c.clusterValues.length < nums.length / 2 + 1

variable [Zero α]

/-- The loop variables before the loop, `math.go:41-44`. -/
def start (nums : List α) : Cluster α :=
  let mediumIndex := nums.length / 2
  { clusterValues := [nums.getD mediumIndex 0]
    leftIndex := mediumIndex - 1
    rightIndex := mediumIndex + 1 }

variable [LT δ] [DecidableLT δ] (sub : α → α → δ)

/-- The loop body, `math.go:46-53`. -/
def grow (nums : List α) (c : Cluster α) : Cluster α :=
  let clusterKernel := c.clusterValues.getD (c.clusterValues.length / 2) 0
  if sub clusterKernel (nums.getD c.leftIndex.toNat 0) <
      sub (nums.getD c.rightIndex 0) clusterKernel then
    { c with
      clusterValues := nums.getD c.leftIndex.toNat 0 :: c.clusterValues
      leftIndex := c.leftIndex - 1 }
  else
    { c with
      clusterValues := c.clusterValues ++ [nums.getD c.rightIndex 0]
      rightIndex := c.rightIndex + 1 }

/-- The loop, for at most `k` rounds. -/
def growAll (nums : List α) : Nat → Cluster α → Cluster α
  | 0, c => c
  | k + 1, c => if c.grows nums then growAll nums k (c.grow sub nums) else c

theorem length_grow (nums : List α) (c : Cluster α) :
    (c.grow sub nums).clusterValues.length = c.clusterValues.length + 1 := by
  rw [grow]
  split <;> simp

/-- The loop ends within as many rounds as the cluster has places left. -/
theorem loop_growAll (nums : List α) (k : Nat) (c : Cluster α)
    (enough : nums.length / 2 + 1 ≤ c.clusterValues.length + k) :
    Loop (grows nums) (grow sub nums) c (growAll sub nums k c) := by
  induction k generalizing c with
  | zero =>
    refine .done ?_
    have full : ¬c.clusterValues.length < nums.length / 2 + 1 := by omega
    simp [grows, full]
  | succ k ih =>
    rw [growAll]
    split
    · next h =>
      refine .again h (ih _ ?_)
      rw [length_grow]
      omega
    · next h => exact .done (by simpa using h)

end Cluster

section

variable [LT δ] [DecidableLT δ] (sub : α → α → δ)

/-- `ComputeMajorCluster` once the samples are sorted, `math.go:41-55`. A round adds one value to
the one the loop starts with, so `n / 2` rounds are enough. -/
def growCluster [Zero α] (nums : List α) : Cluster α :=
  Cluster.growAll sub nums (nums.length / 2) (.start nums)

/-- `ComputeMajorCluster`, `math.go:34-56`. -/
def computeMajorCluster [Zero α] [LinearOrder α] (nums : List α) : List α :=
  if nums = [] then [] else (growCluster sub (nums.insertionSort (· ≤ ·))).clusterValues

end

/-- `ComputeAverage`, `math.go:58-65`. The average of no values is 0. -/
def computeAverage (nums : List ℚ) : ℚ := nums.sum / nums.length

/-- The difference of two doubles, of which the first is not the smaller one: the samples are
sorted. -/
def subDouble (x y : ℚ) : Double := .round (x - y)

/-! ### Windows of the sorted samples -/

/-- The places `lo, …, hi - 1` of a list of `n` samples. -/
@[ext]
structure Window (n : Nat) where
  lo : Nat
  hi : Nat
  nonempty : lo < hi
  bounded : hi ≤ n

namespace Window

/-- The samples at the places of the window. -/
def values {n : Nat} (w : Window n) (nums : List α) : List α := (nums.take w.hi).drop w.lo

/-- The sample in the middle of the window. -/
def kernel [Zero α] {n : Nat} (w : Window n) (nums : List α) : α :=
  nums.getD (w.lo + (w.hi - w.lo) / 2) 0

def widenLeft {n : Nat} (w : Window n) : Window n :=
  ⟨w.lo - 1, w.hi, Nat.lt_of_le_of_lt (Nat.sub_le _ _) w.nonempty, w.bounded⟩

def widenRight {n : Nat} (w : Window n) (after : w.hi < n) : Window n :=
  ⟨w.lo, w.hi + 1, Nat.lt_succ_of_lt w.nonempty, after⟩

/-- The window on the middle sample alone. -/
def middle (n : Nat) (h : 0 < n) : Window n :=
  ⟨n / 2, n / 2 + 1, Nat.lt_succ_self _, Nat.div_lt_self h Nat.one_lt_two⟩

/-- The loop variables that stand for the window. -/
def cluster {nums : List α} (w : Window nums.length) : Cluster α :=
  ⟨w.values nums, w.lo - 1, w.hi⟩

/-- The left neighbour of the window is nearer to its kernel than the right one, in the given
distance. -/
def LeftNearer [Zero α] [LT δ] (distance : α → α → δ) {nums : List α} (w : Window nums.length) :
    Prop :=
  distance (nums.getD (w.lo - 1) 0) (w.kernel nums) < distance (nums.getD w.hi 0) (w.kernel nums)

end Window

section

variable [Zero α] [LT δ] (distance : α → α → δ)

/-- The window widened by the neighbour that is nearer to its kernel, the right one when both are
as near. -/
inductive NearestGrowth (nums : List α) : Window nums.length → Window nums.length → Prop where
  | left (w : Window nums.length) (before : 0 < w.lo) (after : w.hi < nums.length)
      (nearer : w.LeftNearer distance) : NearestGrowth nums w w.widenLeft
  | right (w : Window nums.length) (before : 0 < w.lo) (after : w.hi < nums.length)
      (nearer : ¬w.LeftNearer distance) : NearestGrowth nums w (w.widenRight after)

/-- After `j` neighbours from the right, the next one comes from the left: the middle sample's
left neighbour is nearer to the kernel than the next sample on the right. -/
def LeansLeft (sorted : List α) (j : Nat) : Prop :=
  let m := sorted.length / 2
  let kernel := sorted.getD (m + (j + 1) / 2) 0
  distance (sorted.getD (m - 1) 0) kernel < distance (sorted.getD (m + 1 + j) 0) kernel

end

section

variable [Zero α] [LT δ] [DecidableLT δ] [LT ε] (sub : α → α → δ) (distance : α → α → ε)

/-- Each round of the loop on sorted samples takes the neighbour that is nearest to the kernel. -/
def TakesNearest (nums : List α) : Prop :=
  ∀ c c', ReflTransGen (Loop.Round (Cluster.grows nums) (Cluster.grow sub nums)) (.start nums) c →
    Loop.Round (Cluster.grows nums) (Cluster.grow sub nums) c c' →
      ∃ w w' : Window nums.length,
        c = w.cluster ∧ NearestGrowth distance nums w w' ∧ c' = w'.cluster

/-- What the major cluster of `nums` is for: a block of the sorted samples with the middle one in
it that holds more than half of them, grown from there by the nearest neighbour. -/
structure IsMajorCluster [LinearOrder α] (nums : List α) : Prop where
  block : ∃ w : Window (nums.insertionSort (· ≤ ·)).length,
    w.lo ≤ nums.length / 2 ∧ nums.length / 2 < w.hi ∧
      computeMajorCluster sub nums = w.values (nums.insertionSort (· ≤ ·))
  majority : nums.length / 2 < (computeMajorCluster sub nums).length
  nearest : TakesNearest sub distance (nums.insertionSort (· ≤ ·))

end

/-- The subtraction gives the distance of two samples in order, from either of them. -/
def Measures [LE α] (sub distance : α → α → δ) : Prop :=
  ∀ ⦃x y : α⦄, x ≤ y → sub y x = distance x y ∧ sub y x = distance y x

/-- Wherever the window grown by the nearest neighbour in one distance takes the left one, it is
nearer in the other distance as well. -/
def Separated [Zero α] [LT δ] [LT ε] (coarse : α → α → δ) (distance : α → α → ε)
    (sorted : List α) : Prop :=
  ∀ (h : 0 < sorted.length) (w : Window sorted.length),
    ReflTransGen (NearestGrowth distance sorted) (.middle _ h) w →
      0 < w.lo → w.hi < sorted.length → w.hi - w.lo ≤ sorted.length / 2 →
        w.LeftNearer distance → w.LeftNearer coarse

/-! ### The loop on windows -/

namespace Window

section

variable [Zero α] {nums : List α}

omit [Zero α] in
theorem length_values (w : Window nums.length) : (w.values nums).length = w.hi - w.lo := by
  rw [values, List.length_drop, List.length_take, min_eq_left w.bounded]

theorem kernel_eq (w : Window nums.length) :
    (w.values nums).getD ((w.values nums).length / 2) 0 = w.kernel nums := by
  have := w.nonempty
  have inside : w.lo + (w.hi - w.lo) / 2 < w.hi := by omega
  rw [w.length_values, kernel, values, List.getD_eq_getElem?_getD, List.getElem?_drop,
    List.getElem?_take_of_lt inside, List.getD_eq_getElem?_getD]

theorem values_middle (h : 0 < nums.length) :
    (middle nums.length h).values nums = [nums.getD (nums.length / 2) 0] := by
  have lt : nums.length / 2 < nums.length := Nat.div_lt_self h Nat.one_lt_two
  have len : (nums.take (nums.length / 2)).length = nums.length / 2 :=
    List.length_take_of_le lt.le
  rw [values, middle, List.take_succ_eq_append_getElem lt, List.drop_append_of_le_length len.ge,
    List.drop_of_length_le len.le, List.nil_append, List.getD_eq_getElem _ _ lt]

theorem values_widenLeft (w : Window nums.length) (before : 0 < w.lo) :
    w.widenLeft.values nums = nums.getD (w.lo - 1) 0 :: w.values nums := by
  have := w.nonempty
  have := w.bounded
  have lt : w.lo - 1 < (nums.take w.hi).length := by
    rw [List.length_take]
    omega
  rw [values, widenLeft, values, List.drop_eq_getElem_cons lt, Nat.sub_add_cancel before,
    List.getElem_take, List.getD_eq_getElem]

theorem values_widenRight (w : Window nums.length) (after : w.hi < nums.length) :
    (w.widenRight after).values nums = w.values nums ++ [nums.getD w.hi 0] := by
  have len : (nums.take w.hi).length = w.hi := List.length_take_of_le w.bounded
  rw [values, widenRight, values, List.take_succ_eq_append_getElem after,
    List.drop_append_of_le_length (by rw [len]; exact w.nonempty.le),
    List.getD_eq_getElem _ _ after]

end

variable {nums : List α}

theorem cluster_inj {w w' : Window nums.length} (h : w.cluster = w'.cluster) : w = w' := by
  have left := congrArg Cluster.leftIndex h
  have right := congrArg Cluster.rightIndex h
  simp only [cluster] at left right
  ext
  · omega
  · exact right

theorem grows_cluster (w : Window nums.length) :
    w.cluster.grows nums = true ↔
      0 < w.lo ∧ w.hi < nums.length ∧ w.hi - w.lo ≤ nums.length / 2 := by
  have side : 0 ≤ (w.lo : Int) - 1 ↔ 0 < w.lo := by omega
  rw [cluster, Cluster.grows]
  simp only [Bool.and_eq_true, decide_eq_true_eq, w.length_values, side, Nat.lt_succ_iff, and_assoc]

variable [Zero α]

theorem cluster_middle (h : 0 < nums.length) : (middle nums.length h).cluster = .start nums := by
  rw [cluster, values_middle h, middle]
  rfl

variable [LT δ] [DecidableLT δ] {sub coarse : α → α → δ}

theorem grow_cluster (w : Window nums.length) (before : 0 < w.lo) (after : w.hi < nums.length) :
    w.cluster.grow sub nums =
      if sub (w.kernel nums) (nums.getD (w.lo - 1) 0) <
          sub (nums.getD w.hi 0) (w.kernel nums) then
        w.widenLeft.cluster
      else
        (w.widenRight after).cluster := by
  have place : ((w.lo : Int) - 1).toNat = w.lo - 1 := by omega
  have moved : (w.lo : Int) - 1 - 1 = ((w.lo - 1 : Nat) : Int) - 1 := by omega
  simp only [Cluster.grow, cluster, w.kernel_eq, place, values_widenLeft w before,
    values_widenRight w after, moved]
  rfl

variable [LinearOrder α]

omit [DecidableLT δ] in
/-- In sorted samples the loop compares the distances of the neighbours to the kernel. -/
theorem leftNearer_iff (measures : Measures sub coarse) (sorted : nums.Pairwise (· ≤ ·))
    (w : Window nums.length) (after : w.hi < nums.length) :
    sub (w.kernel nums) (nums.getD (w.lo - 1) 0) < sub (nums.getD w.hi 0) (w.kernel nums) ↔
      w.LeftNearer coarse := by
  have := w.nonempty
  have inside : w.lo + (w.hi - w.lo) / 2 < nums.length := by omega
  have before : w.lo - 1 < nums.length := by omega
  have below : nums.getD (w.lo - 1) 0 ≤ w.kernel nums := by
    rw [kernel, List.getD_eq_getElem _ _ before, List.getD_eq_getElem _ _ inside]
    apply sorted.sortedLE.getElem_le_getElem_of_le
    omega
  have above : w.kernel nums ≤ nums.getD w.hi 0 := by
    rw [kernel, List.getD_eq_getElem _ _ inside, List.getD_eq_getElem _ _ after]
    apply sorted.sortedLE.getElem_le_getElem_of_le
    omega
  rw [(measures below).1, (measures above).2, LeftNearer]

variable [LT ε] {distance : α → α → ε}

/-- A round of the loop takes the nearest neighbour where the two distances agree on it. -/
theorem nearestGrowth_grow (measures : Measures sub coarse) (sorted : nums.Pairwise (· ≤ ·))
    (w : Window nums.length) (before : 0 < w.lo) (after : w.hi < nums.length)
    (agree : w.LeftNearer coarse ↔ w.LeftNearer distance) :
    ∃ w', NearestGrowth distance nums w w' ∧ w.cluster.grow sub nums = w'.cluster := by
  rw [w.grow_cluster before after]
  split
  · next nearer =>
    rw [leftNearer_iff measures sorted w after, agree] at nearer
    exact ⟨_, .left w before after nearer, rfl⟩
  · next nearer =>
    rw [leftNearer_iff measures sorted w after, agree] at nearer
    exact ⟨_, .right w before after nearer, rfl⟩

end Window

theorem NearestGrowth.deterministic [Zero α] [LT δ] {distance : α → α → δ} {nums : List α}
    {w w' w'' : Window nums.length} (first : NearestGrowth distance nums w w')
    (second : NearestGrowth distance nums w w'') : w' = w'' := by
  cases first with
  | left _ _ nearer =>
    cases second with
    | left => rfl
    | right _ _ farther => exact absurd nearer farther
  | right _ _ farther =>
    cases second with
    | left _ _ nearer => exact absurd nearer farther
    | right => rfl

/-- Where a window grown from the middle lies. A step to the left is taken only where the samples
lean to the left, and wherever they do, a window that got further to the right has taken it. -/
theorem growth_sides [Zero α] [LT δ] {distance : α → α → δ} {nums : List α} (h : 0 < nums.length)
    {w : Window nums.length}
    (growth : ReflTransGen (NearestGrowth distance nums) (.middle _ h) w) :
    w.lo ≤ nums.length / 2 ∧ nums.length / 2 < w.hi ∧
      (w.lo < nums.length / 2 →
        ∃ j, nums.length / 2 + 1 + j < nums.length ∧ LeansLeft distance nums j) ∧
      (w.lo = nums.length / 2 →
        ∀ j, nums.length / 2 + 1 + j < w.hi → ¬LeansLeft distance nums j) := by
  induction growth with
  | refl =>
    refine ⟨le_rfl, Nat.lt_succ_self _, fun lt ↦ absurd lt (lt_irrefl _), fun _ j lt ↦ ?_⟩
    simp only [Window.middle] at lt
    omega
  | @tail w _ _ step ih =>
    obtain ⟨low, high, lean, straight⟩ := ih
    -- The samples lean at the place the window has reached when it has only grown to the right.
    have leans_iff (eq : w.lo = nums.length / 2) :
        LeansLeft distance nums (w.hi - (nums.length / 2 + 1)) ↔ w.LeftNearer distance := by
      have reach : nums.length / 2 + 1 + (w.hi - (nums.length / 2 + 1)) = w.hi := by omega
      have size : w.hi - (nums.length / 2 + 1) + 1 = w.hi - w.lo := by omega
      rw [LeansLeft, Window.LeftNearer, Window.kernel]
      simp only [reach, size, eq]
    cases step with
    | left before after nearer =>
      refine ⟨(Nat.sub_le _ _).trans low, high, fun _ ↦ ?_, fun eq ↦ ?_⟩
      · rcases Nat.lt_or_eq_of_le low with lt | eq
        · exact lean lt
        · refine ⟨_, ?_, (leans_iff eq).mpr nearer⟩
          omega
      · simp only [Window.widenLeft] at eq
        omega
    | right before after nearer =>
      refine ⟨low, Nat.lt_succ_of_lt high, lean, fun eq j lt ↦ ?_⟩
      simp only [Window.widenRight] at eq lt
      rcases Nat.lt_or_eq_of_le (Nat.lt_succ_iff.mp lt) with lt | reach
      · exact straight eq j lt
      · have place : j = w.hi - (nums.length / 2 + 1) := by omega
        rw [place, leans_iff eq]
        exact nearer

/-! ### The loop -/

section

variable [Zero α] [LT δ] [DecidableLT δ] [LT ε] {sub coarse : α → α → δ} {distance : α → α → ε}
  {nums : List α}

/-- A loop that takes the nearest neighbours widens its window by them. -/
theorem window_of_reached (nearest : TakesNearest sub distance nums) (h : 0 < nums.length)
    {c : Cluster α}
    (reached : ReflTransGen (Loop.Round (Cluster.grows nums) (Cluster.grow sub nums))
      (.start nums) c) :
    ∃ w, ReflTransGen (NearestGrowth distance nums) (.middle _ h) w ∧ c = w.cluster := by
  induction reached with
  | refl => exact ⟨_, .refl, (Window.cluster_middle h).symm⟩
  | tail before round ih =>
    obtain ⟨w, growth, eq⟩ := ih
    obtain ⟨w₁, w', eq₁, step, eq'⟩ := nearest _ _ before round
    obtain rfl := Window.cluster_inj (eq₁.symm.trans eq)
    exact ⟨w', growth.tail step, eq'⟩

/-- The cluster of sorted samples is a window grown from the middle by nearest neighbours, until a
side is used up or the window holds more than half of the samples. -/
theorem growCluster_window (nearest : TakesNearest sub distance nums) (h : 0 < nums.length) :
    ∃ w, ReflTransGen (NearestGrowth distance nums) (.middle _ h) w ∧
      (growCluster sub nums).clusterValues = w.values nums ∧
      ¬(0 < w.lo ∧ w.hi < nums.length ∧ w.hi - w.lo ≤ nums.length / 2) := by
  have loop := Cluster.loop_growAll sub nums (nums.length / 2) (.start nums) (by
    simp [Cluster.start, Nat.add_comm])
  obtain ⟨reached, ended⟩ := loop.reaches
  obtain ⟨w, growth, eq⟩ := window_of_reached nearest h reached
  refine ⟨w, growth, ?_, ?_⟩
  · rw [growCluster, eq, Window.cluster]
  · rw [← w.grows_cluster, ← eq, ended]
    exact Bool.false_ne_true

/-- Two samples that are nearer as the loop measures them are nearer. -/
def Coarser (coarse : α → α → δ) (distance : α → α → ε) : Prop :=
  ∀ ⦃x y kernel : α⦄, coarse x kernel < coarse y kernel → distance x kernel < distance y kernel

variable [LinearOrder α]

/-- The loop takes the nearest neighbours just when it tells them apart on its way. -/
theorem takesNearest_iff (measures : Measures sub coarse) (coarser : Coarser coarse distance)
    (sorted : nums.Pairwise (· ≤ ·)) (h : 0 < nums.length) :
    TakesNearest sub distance nums ↔ Separated coarse distance nums := by
  constructor
  · intro nearest _ w growth before after size left_nearer
    -- The loop reaches the windows grown by the nearest neighbours.
    have reached : ReflTransGen (Loop.Round (Cluster.grows nums) (Cluster.grow sub nums))
        (.start nums) w.cluster := by
      clear left_nearer before after
      induction growth with
      | refl => rw [Window.cluster_middle h]
      | @tail v v' _ step ih =>
        have room : 0 < v.lo ∧ v.hi < nums.length ∧ v.hi - v.lo ≤ nums.length / 2 := by
          cases step with
          | left before after =>
            simp only [Window.widenLeft] at size
            exact ⟨before, after, by omega⟩
          | right before after =>
            simp only [Window.widenRight] at size
            exact ⟨before, after, by omega⟩
        have reached := ih room.2.2
        have grows := v.grows_cluster.mpr room
        obtain ⟨v₁, v₂, eq₁, step₁, eq₂⟩ := nearest _ _ reached ⟨grows, rfl⟩
        obtain rfl := Window.cluster_inj eq₁
        obtain rfl := step.deterministic step₁
        exact reached.tail ⟨grows, eq₂.symm⟩
    obtain ⟨w₁, w₂, eq₁, step, eq₂⟩ :=
      nearest _ _ reached ⟨w.grows_cluster.mpr ⟨before, after, size⟩, rfl⟩
    obtain rfl := Window.cluster_inj eq₁
    by_contra as_near
    rw [w.grow_cluster before after,
      if_neg (mt (Window.leftNearer_iff measures sorted w after).mp as_near)] at eq₂
    cases step with
    | left _ _ _ =>
      have hi := congrArg Window.hi (Window.cluster_inj eq₂)
      exact absurd hi (Nat.succ_ne_self _)
    | right _ _ farther => exact farther left_nearer
  · intro separated
    have step (w : Window nums.length)
        (growth : ReflTransGen (NearestGrowth distance nums) (.middle _ h) w)
        (grows : w.cluster.grows nums = true) :
        ∃ w', NearestGrowth distance nums w w' ∧ w.cluster.grow sub nums = w'.cluster := by
      obtain ⟨before, after, size⟩ := w.grows_cluster.mp grows
      exact w.nearestGrowth_grow measures sorted before after
        ⟨fun nearer ↦ coarser nearer, separated h w growth before after size⟩
    have window (c : Cluster α)
        (reached : ReflTransGen (Loop.Round (Cluster.grows nums) (Cluster.grow sub nums))
          (.start nums) c) :
        ∃ w, ReflTransGen (NearestGrowth distance nums) (.middle _ h) w ∧ c = w.cluster := by
      induction reached with
      | refl => exact ⟨_, .refl, (Window.cluster_middle h).symm⟩
      | tail _ round ih =>
        obtain ⟨w, growth, rfl⟩ := ih
        obtain ⟨w', grown, eq⟩ := step w growth round.1
        exact ⟨w', growth.tail grown, round.2.trans eq⟩
    intro c c' reached round
    obtain ⟨w, growth, rfl⟩ := window c reached
    obtain ⟨w', grown, eq⟩ := step w growth round.1
    exact ⟨w, w', rfl, grown, round.2.trans eq⟩

/-- The block is the window of the nearest neighbours. -/
theorem computeMajorCluster_window (nonempty : nums ≠ [])
    (nearest : TakesNearest sub distance (nums.insertionSort (· ≤ ·))) :
    ∃ (h : 0 < (nums.insertionSort (· ≤ ·)).length)
      (w : Window (nums.insertionSort (· ≤ ·)).length),
      ReflTransGen (NearestGrowth distance _) (.middle _ h) w ∧
        computeMajorCluster sub nums = w.values (nums.insertionSort (· ≤ ·)) ∧
        ¬(0 < w.lo ∧ w.hi < nums.length ∧ w.hi - w.lo ≤ nums.length / 2) := by
  have len := nums.length_insertionSort (· ≤ ·)
  have pos : 0 < (nums.insertionSort (· ≤ ·)).length := by
    rw [len]
    exact List.length_pos_iff.mpr nonempty
  obtain ⟨w, growth, eq, ended⟩ := growCluster_window nearest pos
  simp only [len] at ended
  refine ⟨pos, w, growth, ?_, ended⟩
  rw [computeMajorCluster, if_neg nonempty, eq]

/-- The block is a majority around the median, grown by nearest neighbours, just when the loop
tells them apart, and the number of samples is odd or some sample left of the middle is taken. -/
theorem isMajorCluster_iff_of_measures (measures : Measures sub coarse)
    (coarser : Coarser coarse distance) (nonempty : nums ≠ []) :
    IsMajorCluster sub distance nums ↔
      Separated coarse distance (nums.insertionSort (· ≤ ·)) ∧
        (nums.length % 2 = 1 ∨
          ∃ j, nums.length / 2 + 1 + j < nums.length ∧
            LeansLeft distance (nums.insertionSort (· ≤ ·)) j) := by
  have len := nums.length_insertionSort (· ≤ ·)
  have pos : 0 < (nums.insertionSort (· ≤ ·)).length := by
    rw [len]
    exact List.length_pos_iff.mpr nonempty
  rw [← takesNearest_iff measures coarser (List.pairwise_insertionSort (· ≤ ·) nums) pos]
  constructor
  · rintro ⟨-, majority, nearest⟩
    refine ⟨nearest, ?_⟩
    obtain ⟨h, w, growth, eq, -⟩ := computeMajorCluster_window nonempty nearest
    obtain ⟨-, -, lean, -⟩ := growth_sides h growth
    have bounded := w.bounded
    rw [eq, w.length_values] at majority
    simp only [len] at lean bounded
    rcases Nat.mod_two_eq_zero_or_one nums.length with even | odd
    · exact .inr (lean (by omega))
    · exact .inl odd
  · rintro ⟨nearest, holds⟩
    obtain ⟨h, w, growth, eq, ended⟩ := computeMajorCluster_window nonempty nearest
    obtain ⟨low, high, -, straight⟩ := growth_sides h growth
    have bounded := w.bounded
    simp only [len] at low high straight bounded
    refine ⟨⟨w, low, high, eq⟩, ?_, nearest⟩
    rw [eq, w.length_values]
    rcases holds with odd | ⟨j, inside, leans⟩
    · omega
    · -- A window that never grew to the left has passed the place where the samples lean.
      have grown : w.lo ≠ nums.length / 2 := by
        intro lo
        refine straight lo j ?_ leans
        omega
      omega

end

/-! ### The two subtractions -/

/-- The exact subtraction measures the exact distance. -/
theorem measures_sub [AddCommGroup α] [LinearOrder α] [IsOrderedAddMonoid α] :
    Measures (fun x y : α ↦ x - y) fun x y ↦ |x - y| := by
  intro x y le
  have size := abs_of_nonneg (sub_nonneg.mpr le)
  exact ⟨((abs_sub_comm x y).trans size).symm, size.symm⟩

theorem separated_self [Zero α] [LT δ] {distance : α → α → δ} (nums : List α) :
    Separated distance distance nums :=
  fun _ _ _ _ _ _ nearer ↦ nearer

/-- A value of the block is one of the samples. -/
theorem mem_of_mem_computeMajorCluster [AddCommGroup α] [LinearOrder α] [IsOrderedAddMonoid α]
    {nums : List α} {x : α} (h : x ∈ computeMajorCluster (· - ·) nums) : x ∈ nums := by
  by_cases nonempty : nums = []
  · rw [computeMajorCluster, if_pos nonempty] at h
    exact absurd h List.not_mem_nil
  · have pos : 0 < (nums.insertionSort (· ≤ ·)).length := by
      rw [nums.length_insertionSort (· ≤ ·)]
      exact List.length_pos_iff.mpr nonempty
    have nearest := (takesNearest_iff measures_sub (fun _ _ _ lt ↦ lt)
      (List.pairwise_insertionSort (· ≤ ·) nums) pos).mpr (separated_self _)
    obtain ⟨_, w, -, eq, -⟩ := computeMajorCluster_window nonempty nearest
    rw [eq] at h
    exact (List.mem_insertionSort _).mp (List.mem_of_mem_take (List.mem_of_mem_drop h))

/-- The distance of two doubles, rounded to one. -/
def roundedDistance (x y : ℚ) : Double := .round |x - y|

/-- The distance of two doubles. -/
def exactDistance (x y : ℚ) : ℚ := |x - y|

theorem measures_subDouble : Measures subDouble roundedDistance := by
  intro x y le
  simp only [subDouble, roundedDistance, abs_sub_comm x y, abs_of_nonneg (sub_nonneg.mpr le),
    and_self]

theorem coarser_roundedDistance : Coarser roundedDistance exactDistance :=
  fun _ _ _ lt ↦ Double.lt_of_round_lt (abs_nonneg _) lt

theorem roundedDistance_natCast {m n : Nat} (hm : m < 2 ^ 53) (hn : n < 2 ^ 53) :
    roundedDistance m n = .finite (exactDistance m n) := by
  obtain ⟨d, bits, eq⟩ : ∃ d : Nat, d < 2 ^ 53 ∧ |(m : ℚ) - n| = d := by
    refine ⟨((m : Int) - n).natAbs, by omega, ?_⟩
    rw [Nat.cast_natAbs]
    push_cast
    rfl
  rw [roundedDistance, exactDistance, eq, ← Double.ofNat_eq bits]
  rfl

/-- The distances of whole numbers below `2^53` are doubles. -/
theorem roundedDistance_lt_iff {x y k : Nat} (hx : x < 2 ^ 53) (hy : y < 2 ^ 53)
    (hk : k < 2 ^ 53) :
    roundedDistance x k < roundedDistance y k ↔ exactDistance x k < exactDistance y k := by
  rw [roundedDistance_natCast hx hk, roundedDistance_natCast hy hk, Double.finite_lt_finite]

/-- Among whole numbers the loop tells the neighbours apart. -/
theorem separated_of_whole {nums : List Nat} (small : ∀ n ∈ nums, n < 2 ^ 53) :
    Separated roundedDistance exactDistance (nums.map fun n : Nat ↦ (n : ℚ)) := by
  have sample (i : Nat) : ∃ n : Nat, n < 2 ^ 53 ∧
      (nums.map fun n : Nat ↦ (n : ℚ)).getD i 0 = n := by
    rw [List.getD_eq_getElem?_getD, List.getElem?_map]
    cases at_i : nums[i]? with
    | none => exact ⟨0, by decide, rfl⟩
    | some n => exact ⟨n, small n (List.mem_of_getElem? at_i), rfl⟩
  intro _ w _ _ _ _ nearer
  obtain ⟨x, hx, left⟩ := sample (w.lo - 1)
  obtain ⟨y, hy, right⟩ := sample w.hi
  obtain ⟨k, hk, middle⟩ := sample (w.lo + (w.hi - w.lo) / 2)
  rw [Window.LeftNearer, Window.kernel, left, right, middle] at nearer ⊢
  exact (roundedDistance_lt_iff hx hy hk).mpr nearer

/-- With doubles the block is a majority around the median unless the number of samples is even
and all samples right of the middle are taken before any from the left. Its neighbours are the
nearest as doubles measure them; they are the nearest ones where no two distances that tell them
apart are rounded to the same double. -/
theorem isMajorCluster_iff (nums : List ℚ) (nonempty : nums ≠ []) :
    (IsMajorCluster subDouble roundedDistance nums ↔
      nums.length % 2 = 1 ∨
        ∃ j, nums.length / 2 + 1 + j < nums.length ∧
          LeansLeft roundedDistance (nums.insertionSort (· ≤ ·)) j) ∧
    (IsMajorCluster subDouble exactDistance nums ↔
      Separated roundedDistance exactDistance (nums.insertionSort (· ≤ ·)) ∧
        (nums.length % 2 = 1 ∨
          ∃ j, nums.length / 2 + 1 + j < nums.length ∧
            LeansLeft exactDistance (nums.insertionSort (· ≤ ·)) j)) := by
  constructor
  · rw [isMajorCluster_iff_of_measures measures_subDouble (fun _ _ _ lt ↦ lt) nonempty,
      and_iff_right (separated_self _)]
  · exact isMajorCluster_iff_of_measures measures_subDouble coarser_roundedDistance nonempty

theorem isMajorCluster_four_samples :
    IsMajorCluster subDouble roundedDistance [10, 20, 1, 9] ∧
      IsMajorCluster subDouble exactDistance [10, 20, 1, 9] := by
  have sorted : [(10 : ℚ), 20, 1, 9].insertionSort (· ≤ ·) =
      [1, 9, 10, 20].map fun n : Nat ↦ (n : ℚ) := by decide
  have nearer : exactDistance 9 10 < exactDistance 20 10 := by decide +kernel
  have small : ∀ n ∈ [1, 9, 10, 20], n < 2 ^ 53 := by decide
  obtain ⟨rounded, exact⟩ := isMajorCluster_iff [10, 20, 1, 9] (List.cons_ne_nil _ _)
  rw [sorted] at rounded exact
  refine ⟨rounded.mpr (.inr ⟨0, by decide, ?_⟩),
    exact.mpr ⟨separated_of_whole small, .inr ⟨0, by decide, nearer⟩⟩⟩
  exact (roundedDistance_lt_iff (x := 9) (y := 20) (k := 10) (by decide) (by decide)
    (by decide)).mpr nearer

/-- Two samples: the block holds one of them. -/
theorem not_isMajorCluster_pair :
    ¬IsMajorCluster subDouble roundedDistance [1, 2] ∧
      ¬IsMajorCluster subDouble exactDistance [1, 2] := by
  have minority : ¬[(1 : ℚ), 2].length / 2 < (computeMajorCluster subDouble [1, 2]).length := by
    decide +kernel
  exact ⟨fun major ↦ minority major.majority, fun major ↦ minority major.majority⟩

end ProbingBaselines.Dlrover
