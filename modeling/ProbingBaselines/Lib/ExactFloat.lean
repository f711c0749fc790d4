import Mathlib.Algebra.Order.Field.Basic
import Mathlib.Data.Rat.Floor
import Mathlib.Tactic.NormNum

/-!
# Exact arithmetic with the special values of floating point

General support: rationals that are never rounded, together with the infinities and the NaN that a
division by zero gives. There is one zero. A conversion to an integer type drops the fraction and
may give any integer of the type for a value that is out of its range.
-/

namespace ProbingBaselines.Lib

/-- A rational, an infinity with its sign, or NaN. -/
inductive ExactFloat where
  | num (q : ℚ)
  | inf (negative : Bool)
  | nan
  deriving DecidableEq

namespace ExactFloat

def add : ExactFloat → ExactFloat → ExactFloat
  | num a, num b => num (a + b)
  | num _, inf s => inf s
  | inf s, num _ => inf s
  | inf s, inf t => if s = t then inf s else nan
  | _, _ => nan

def sub : ExactFloat → ExactFloat → ExactFloat
  | num a, num b => num (a - b)
  | num _, inf s => inf !s
  | inf s, num _ => inf s
  | inf s, inf t => if s = t then nan else inf s
  | _, _ => nan

def mul : ExactFloat → ExactFloat → ExactFloat
  | num a, num b => num (a * b)
  | num a, inf s => if a = 0 then nan else inf (s ^^ decide (a < 0))
  | inf s, num a => if a = 0 then nan else inf (s ^^ decide (a < 0))
  | inf s, inf t => inf (s ^^ t)
  | _, _ => nan

def div : ExactFloat → ExactFloat → ExactFloat
  | num a, num b => if b = 0 then if a = 0 then nan else inf (decide (a < 0)) else num (a / b)
  | num _, inf _ => num 0
  | inf s, num b => inf (s ^^ decide (b < 0))
  | _, _ => nan

/-- `math.Ceil`. -/
def ceil : ExactFloat → ExactFloat
  | num a => num ⌈a⌉
  | x => x

/-- No comparison with NaN holds. -/
def lt : ExactFloat → ExactFloat → Bool
  | num a, num b => a < b
  | num _, inf s => !s
  | inf s, num _ => s
  | inf s, inf t => s && !t
  | _, _ => false

def le : ExactFloat → ExactFloat → Bool
  | num a, num b => a ≤ b
  | num _, inf s => !s
  | inf s, num _ => s
  | inf s, inf t => s || !t
  | _, _ => false

instance instAdd : Add ExactFloat := ⟨add⟩
instance instSub : Sub ExactFloat := ⟨sub⟩
instance instMul : Mul ExactFloat := ⟨mul⟩
instance instDiv : Div ExactFloat := ⟨div⟩
instance instLT : LT ExactFloat := ⟨fun x y ↦ x.lt y = true⟩
instance instLE : LE ExactFloat := ⟨fun x y ↦ x.le y = true⟩

instance decidableLT (x y : ExactFloat) : Decidable (x < y) :=
  inferInstanceAs (Decidable (x.lt y = true))

instance decidableLE (x y : ExactFloat) : Decidable (x ≤ y) :=
  inferInstanceAs (Decidable (x.le y = true))

@[simp]
theorem num_mul_num (a b : ℚ) : num a * num b = num (a * b) := rfl

@[simp]
theorem ceil_num (a : ℚ) : (num a).ceil = num ⌈a⌉ := rfl

theorem num_div_num {a b : ℚ} (h : b ≠ 0) : num a / num b = num (a / b) := if_neg h

@[simp]
theorem num_lt_num {a b : ℚ} : num a < num b ↔ a < b := decide_eq_true_iff

@[simp]
theorem num_le_num {a b : ℚ} : num a ≤ num b ↔ a ≤ b := decide_eq_true_iff

/-- What is below a number and not at most another is a number. -/
theorem eq_num_of_bounds {x : ExactFloat} {a b : ℚ} (lower : ¬x ≤ num a) (upper : x < num b) :
    ∃ q, x = num q ∧ a < q ∧ q < b := by
  cases x with
  | num q => exact ⟨q, rfl, not_le.mp fun le ↦ lower (num_le_num.mpr le), num_lt_num.mp upper⟩
  | inf s =>
    have negative : s = true := upper
    exact absurd (show (inf s).le (num a) = true from negative) lower
  | nan => exact absurd (show false = true from upper) Bool.false_ne_true

end ExactFloat

/-- The fraction dropped. -/
def truncate (q : ℚ) : Int := if 0 ≤ q then ⌊q⌋ else ⌈q⌉

theorem truncate_of_nonneg {q : ℚ} (nonneg : 0 ≤ q) : truncate q = ⌊q⌋ := if_pos nonneg

@[simp]
theorem truncate_intCast (n : Int) : truncate n = n := by
  rw [truncate, Int.floor_intCast, Int.ceil_intCast, ite_self]

/-- A conversion to the integers from `lo` below `hi`. -/
structure IntConversion (lo hi : Int) where
  conv : ExactFloat → Int
  range : ∀ x, lo ≤ conv x ∧ conv x < hi
  trunc : ∀ q, lo ≤ truncate q → truncate q < hi → conv (.num q) = truncate q

namespace IntConversion

variable {lo hi : Int}

theorem conv_intCast (int : IntConversion lo hi) {n : Int} (lower : lo ≤ n) (upper : n < hi) :
    int.conv (.num n) = n := by
  rw [int.trunc] <;> rw [truncate_intCast]
  · exact lower
  · exact upper

/-- What is not negative only gets smaller. -/
theorem conv_le (int : IntConversion lo hi) (zero : lo ≤ 0) {q : ℚ} (nonneg : 0 ≤ q) :
    (int.conv (.num q) : ℚ) ≤ q := by
  rcases lt_or_ge ⌊q⌋ hi with fits | large
  · rw [int.trunc, truncate_of_nonneg nonneg]
    · exact Int.floor_le q
    · rw [truncate_of_nonneg nonneg]
      exact zero.trans (Int.floor_nonneg.mpr nonneg)
    · rwa [truncate_of_nonneg nonneg]
  · exact Int.le_floor.mp ((int.range _).2.le.trans large)

/-- The conversion that gives the least integer for what is out of range. -/
def least (lo hi : Int) (h : lo < hi) : IntConversion lo hi where
  conv
    | .num q => if lo ≤ truncate q ∧ truncate q < hi then truncate q else lo
    | _ => lo
  range x := by
    cases x with
    | num q =>
      simp only
      split
      · next inside => exact inside
      · exact ⟨le_rfl, h⟩
    | inf s => exact ⟨le_rfl, h⟩
    | nan => exact ⟨le_rfl, h⟩
  trunc _ lower upper := if_pos ⟨lower, upper⟩

end IntConversion

end ProbingBaselines.Lib
