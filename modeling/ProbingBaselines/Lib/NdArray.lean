import Mathlib.Algebra.BigOperators.Group.List.Basic
import Mathlib.Tactic.Ring

/-!
# Mixed radix and row-major arrays

General support: the mixed-radix coordinates of a number, and arrays of any number of dimensions
with their data in C order, as numpy keeps them.
-/

namespace ProbingBaselines.Lib

/-! ### Coordinates -/

/-- The digits of a number in the given radices, the first of which varies fastest. -/
def coordinates : List Nat → Nat → List Nat
  | [], _ => []
  | n :: radices, r => r % n :: coordinates radices (r / n)

@[simp] theorem coordinates_length (radices : List Nat) (r : Nat) :
    (coordinates radices r).length = radices.length := by
  induction radices generalizing r with
  | nil => rfl
  | cons n radices ih => rw [coordinates, List.length_cons, List.length_cons, ih]

theorem coordinates_append (xs ys : List Nat) (r : Nat) :
    coordinates (xs ++ ys) r = coordinates xs r ++ coordinates ys (r / xs.prod) := by
  induction xs generalizing r with
  | nil => rw [List.nil_append, List.prod_nil, Nat.div_one, coordinates, List.nil_append]
  | cons n xs ih =>
    rw [List.cons_append, coordinates, coordinates, ih, List.prod_cons, Nat.div_div_eq_div_mul,
      List.cons_append]

/-- The coordinates are those of the remainder, and tell it. -/
theorem coordinates_eq_iff (radices : List Nat) (r r' : Nat) :
    coordinates radices r = coordinates radices r' ↔ r % radices.prod = r' % radices.prod := by
  induction radices generalizing r r' with
  | nil => simp [coordinates, Nat.mod_one]
  | cons n radices ih =>
    rw [coordinates, coordinates, List.cons.injEq, ih, List.prod_cons]
    constructor
    · rintro ⟨low, high⟩
      rw [Nat.mod_mul, Nat.mod_mul, low, high]
    · intro same
      constructor
      · rw [← Nat.mod_mul_right_mod r n radices.prod, same, Nat.mod_mul_right_mod]
      · rw [← Nat.mod_mul_right_div_self, same, Nat.mod_mul_right_div_self]

/-- The numbers below a product, by their quotients. -/
theorem range_mul (a b : Nat) :
    List.range (a * b) = (List.range a).flatMap fun i ↦ (List.range b).map (i * b + ·) := by
  induction a with
  | zero => simp
  | succ a ih =>
    rw [Nat.succ_mul, List.range_add, ih, List.range_succ, List.flatMap_append,
      List.flatMap_singleton]

/-! ### Arrays -/

/-- An array, with its data in C order. -/
structure NdArray (α : Type) where
  shape : List Nat
  data : List α
  size : data.length = shape.prod

namespace NdArray

variable {α : Type}

/-- `np.arange`. -/
def arange (n : Nat) : NdArray Nat where
  shape := [n]
  data := List.range n
  size := by simp

/-- `reshape`, to a shape of the same size. -/
def reshape (a : NdArray α) (shape : List Nat) (same : a.shape.prod = shape.prod) : NdArray α where
  shape := shape
  data := a.data
  size := a.size.trans same

def ndim (a : NdArray α) : Nat := a.shape.length

/-- The strides of a shape in bytes. An empty dimension does not widen those before it. -/
def stridesOf (itemsize : Nat) : List Nat → List Nat
  | [] => []
  | _ :: shape => itemsize * (shape.filter (· ≠ 0)).prod :: stridesOf itemsize shape

def strides (itemsize : Nat) (a : NdArray α) : List Nat := stridesOf itemsize a.shape

/-- Where the selected items are: an entry of the index is `slice(None)` or an integer, and an
integer that is out of bounds is an `IndexError`. -/
def offsets : List Nat → List (Option Nat) → Option (List Nat)
  | [], _ => some [0]
  | d :: shape, [] => some (List.range (d * shape.prod))
  | d :: shape, none :: index => (offsets shape index).map fun below ↦
    (List.range d).flatMap fun i ↦ below.map (i * shape.prod + ·)
  | d :: shape, some i :: index =>
    if i < d then (offsets shape index).map fun below ↦ below.map (i * shape.prod + ·) else none

/-- `a[index].reshape(-1)`. -/
def select (a : NdArray α) (index : List (Option Nat)) : Option (List α) :=
  (offsets a.shape index).map fun selected ↦ selected.filterMap (a.data[·]?)

theorem stridesOf_append (itemsize : Nat) (xs ys : List Nat) (n : Nat) :
    (stridesOf itemsize (xs ++ n :: ys))[xs.length]? =
      some (itemsize * (ys.filter (· ≠ 0)).prod) := by
  induction xs with
  | nil => rfl
  | cons x xs ih =>
    rw [List.cons_append, stridesOf, List.length_cons, List.getElem?_cons_succ, ih]

theorem offsets_all (shape : List Nat) :
    offsets shape (List.replicate shape.length none) = some (List.range shape.prod) := by
  induction shape with
  | nil => rfl
  | cons d shape ih =>
    rw [List.length_cons, List.replicate_succ, offsets, ih, Option.map_some, List.prod_cons,
      range_mul]

/-- The items at 0 of one axis: the later axes vary faster. -/
theorem offsets_zero (xs ys : List Nat) {n : Nat} (pos : 0 < n) (ys_pos : 0 < ys.prod) :
    offsets (xs ++ n :: ys)
        (List.replicate xs.length none ++ some 0 :: List.replicate ys.length none) =
      some ((List.range (xs.prod * ys.prod)).map fun k ↦
        k / ys.prod * (n * ys.prod) + k % ys.prod) := by
  induction xs with
  | nil =>
    rw [List.length_nil, List.replicate_zero, List.nil_append, List.nil_append, offsets, if_pos pos,
      offsets_all, Option.map_some, List.prod_nil, Nat.one_mul, Option.some_inj]
    apply List.map_congr_left
    intro k hk
    have lt := List.mem_range.mp hk
    rw [Nat.div_eq_of_lt lt, Nat.mod_eq_of_lt lt, Nat.zero_mul, Nat.zero_mul]
  | cons d xs ih =>
    rw [List.cons_append, List.length_cons, List.replicate_succ, List.cons_append, offsets, ih,
      Option.map_some, Option.some_inj, List.prod_cons, Nat.mul_assoc, range_mul d,
      List.map_flatMap]
    congr 1
    funext i
    rw [List.map_map, List.map_map]
    apply List.map_congr_left
    intro k _
    have split : i * (xs.prod * ys.prod) + k = k + ys.prod * (i * xs.prod) := by ring
    simp only [Function.comp_apply]
    rw [split, Nat.add_mul_div_left _ _ ys_pos, Nat.add_mul_mod_self_left, List.prod_append,
      List.prod_cons]
    ring

/-- The selected items are in the array. -/
theorem offsets_lt {shape : List Nat} {index : List (Option Nat)} {selected : List Nat}
    (h : offsets shape index = some selected) {offset : Nat} (mem : offset ∈ selected) :
    offset < shape.prod := by
  induction shape generalizing index selected offset with
  | nil =>
    cases h
    rw [List.mem_singleton] at mem
    simp [mem]
  | cons d shape ih =>
    -- An item of the rest of the axes, at `i` of the first one.
    have at_first : ∀ i < d, ∀ below < shape.prod, i * shape.prod + below < d * shape.prod := by
      intro i lt below hbelow
      calc i * shape.prod + below
          < (i + 1) * shape.prod := by rw [Nat.succ_mul]; omega
        _ ≤ d * shape.prod := Nat.mul_le_mul_right _ lt
    rw [List.prod_cons]
    match index with
    | [] =>
      cases h
      exact List.mem_range.mp mem
    | none :: index =>
      rcases Option.map_eq_some_iff.mp h with ⟨rest, hrest, rfl⟩
      rcases List.mem_flatMap.mp mem with ⟨i, hi, mem⟩
      rcases List.mem_map.mp mem with ⟨below, hbelow, rfl⟩
      exact at_first i (List.mem_range.mp hi) below (ih hrest hbelow)
    | some i :: index =>
      rw [offsets] at h
      split at h
      · next lt =>
        rcases Option.map_eq_some_iff.mp h with ⟨rest, hrest, rfl⟩
        rcases List.mem_map.mp mem with ⟨below, hbelow, rfl⟩
        exact at_first i lt below (ih hrest hbelow)
      · cases h

/-- Each item of a range is its own place. -/
theorem select_range {a : NdArray Nat} (range : a.data = List.range a.shape.prod)
    {index : List (Option Nat)} {selected : List Nat}
    (h : offsets a.shape index = some selected) : a.select index = some selected := by
  have same : ∀ offset ∈ selected, a.data[offset]? = some offset := by
    intro offset mem
    rw [range, List.getElem?_range (offsets_lt h mem)]
  rw [select, h, Option.map_some, List.filterMap_congr same, List.filterMap_some]

end NdArray

end ProbingBaselines.Lib
