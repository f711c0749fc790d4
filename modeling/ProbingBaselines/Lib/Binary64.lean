import Mathlib.Algebra.Order.Field.Power
import Mathlib.Data.Int.Log
import Mathlib.Data.Rat.Floor
import Mathlib.Tactic.Linarith
import Mathlib.Tactic.NormNum
import Mathlib.Tactic.Positivity

/-!
# Binary64

General support: the doubles from zero up, as exact rationals that are rounded to the nearest one
after each operation, ties to even. Rounding keeps the order and the numbers with at most 53
significant bits. A conversion to an integer drops the fraction and is undefined out of range.
-/

namespace ProbingBaselines.Lib

/-! ### Rounding -/

/-- The nearest integer, the even one of two. -/
def nearestEven (x : ℚ) : ℤ :=
  let k := ⌊x + 1 / 2⌋
  if x + 1 / 2 = k ∧ k % 2 = 1 then k - 1 else k

theorem nearestEven_intCast (n : ℤ) : nearestEven n = n := by
  have half : ⌊(n : ℚ) + 1 / 2⌋ = n := by
    rw [Int.floor_intCast_add]
    norm_num
  rw [nearestEven, half]
  apply if_neg
  rintro ⟨tie, -⟩
  linarith

theorem nearestEven_mono {x y : ℚ} (le : x ≤ y) : nearestEven x ≤ nearestEven y := by
  have floors : ⌊x + 1 / 2⌋ ≤ ⌊y + 1 / 2⌋ := Int.floor_le_floor (by linarith)
  have above : (⌊x + 1 / 2⌋ : ℚ) ≤ x + 1 / 2 := Int.floor_le _
  simp only [nearestEven]
  split_ifs with tie tie' tie'
  · omega
  · omega
  · rcases Int.lt_or_le ⌊x + 1 / 2⌋ ⌊y + 1 / 2⌋ with lt | ge
    · omega
    · -- The two are the same tie.
      have floor : ⌊x + 1 / 2⌋ = ⌊y + 1 / 2⌋ := by omega
      have same : x + 1 / 2 = ⌊x + 1 / 2⌋ := by
        rw [floor] at above ⊢
        linarith [tie'.1]
      rw [floor] at tie same
      exact absurd ⟨same, tie'.2⟩ tie
  · omega

theorem le_nearestEven_add (x : ℚ) : x ≤ nearestEven x + 1 / 2 := by
  have below := Int.lt_floor_add_one (x + 1 / 2)
  simp only [nearestEven]
  split_ifs with tie
  · push_cast
    linarith [tie.1]
  · linarith

/-- The exponent of the last bit of the doubles around a number. -/
def lastBit (x : ℚ) : ℤ := max (Int.log 2 x) (-1022) - 52

/-- The nearest double, if there were no largest. -/
def roundDouble (x : ℚ) : ℚ := nearestEven (x / 2 ^ lastBit x) * 2 ^ lastBit x

theorem lastBit_mono {x y : ℚ} (pos : 0 < x) (le : x ≤ y) : lastBit x ≤ lastBit y := by
  have := Int.log_mono_right (b := 2) pos le
  simp only [lastBit]
  omega

/-- A whole number of last bits is kept. -/
theorem nearestEven_bits {x : ℚ} {e : ℤ} {n : ℤ} (h : x = n * 2 ^ e) :
    (nearestEven (x / 2 ^ e) : ℚ) * 2 ^ e = x := by
  have bit : (2 : ℚ) ^ e ≠ 0 := by positivity
  rw [h, mul_div_cancel_right₀ _ bit, nearestEven_intCast]

theorem two_zpow_eq {i j : ℤ} (le : j ≤ i) :
    (2 : ℚ) ^ i = ((2 ^ (i - j).toNat : ℤ) : ℚ) * 2 ^ j := by
  push_cast
  rw [← zpow_natCast, ← zpow_add₀ (by norm_num)]
  congr 1
  omega

/-- Rounding takes away at most half of the last bit. -/
theorem le_roundDouble_add (x : ℚ) : x ≤ roundDouble x + 2 ^ lastBit x / 2 := by
  have bit : (0 : ℚ) < 2 ^ lastBit x := by positivity
  have near := le_nearestEven_add (x / 2 ^ lastBit x)
  rw [div_le_iff₀ bit] at near
  rw [roundDouble]
  linarith

theorem roundDouble_zero : roundDouble 0 = 0 := by
  rw [roundDouble, zero_div]
  norm_num [nearestEven]

theorem roundDouble_nonneg {x : ℚ} (nonneg : 0 ≤ x) : 0 ≤ roundDouble x := by
  have bit : (0 : ℚ) < 2 ^ lastBit x := by positivity
  have zero := nearestEven_mono (div_nonneg nonneg bit.le)
  have : nearestEven 0 = 0 := nearestEven_intCast 0
  rw [this] at zero
  exact mul_nonneg (by exact_mod_cast zero) bit.le

/-- Rounding keeps the order: between two numbers with different last bits is a power of two. -/
theorem roundDouble_mono {x y : ℚ} (nonneg : 0 ≤ x) (le : x ≤ y) :
    roundDouble x ≤ roundDouble y := by
  rcases nonneg.eq_or_lt with rfl | pos
  · rw [roundDouble_zero]
    exact roundDouble_nonneg le
  have keeps : ∀ (a b : ℚ) (e : ℤ), a ≤ b →
      (nearestEven (a / 2 ^ e) : ℚ) * 2 ^ e ≤ nearestEven (b / 2 ^ e) * 2 ^ e := by
    intro a b e hab
    have bit : (0 : ℚ) < 2 ^ e := by positivity
    apply mul_le_mul_of_nonneg_right _ bit.le
    exact_mod_cast nearestEven_mono (div_le_div_of_nonneg_right hab bit.le)
  rcases (lastBit_mono pos le).eq_or_lt with same | lt
  · rw [roundDouble, roundDouble, same]
    exact keeps x y _ le
  · have y_pos : 0 < y := pos.trans_le le
    have top : lastBit y = Int.log 2 y - 52 := by
      simp only [lastBit] at lt ⊢
      omega
    have below : Int.log 2 x < Int.log 2 y := by
      simp only [lastBit] at lt
      omega
    have x_lt : x ≤ 2 ^ Int.log 2 y := ((Int.lt_zpow_iff_log_lt Nat.one_lt_two pos).mpr below).le
    have le_y : (2 : ℚ) ^ Int.log 2 y ≤ y := Int.zpow_log_le_self Nat.one_lt_two y_pos
    calc roundDouble x
        ≤ nearestEven (2 ^ Int.log 2 y / 2 ^ lastBit x) * 2 ^ lastBit x := keeps _ _ _ x_lt
      _ = 2 ^ Int.log 2 y := nearestEven_bits (two_zpow_eq (by omega))
      _ = nearestEven (2 ^ Int.log 2 y / 2 ^ lastBit y) * 2 ^ lastBit y :=
        (nearestEven_bits (two_zpow_eq (by omega))).symm
      _ ≤ roundDouble y := keeps _ _ _ le_y

/-- Numbers with at most 53 significant bits are kept. -/
theorem roundDouble_exact {n : ℕ} {e : ℤ} (bits : n < 2 ^ 53) (tiny : -1074 ≤ e) :
    roundDouble (n * 2 ^ e) = n * 2 ^ e := by
  rcases Nat.eq_zero_or_pos n with rfl | pos
  · simp [roundDouble_zero]
  have x_pos : (0 : ℚ) < n * 2 ^ e := by positivity
  have log : Int.log 2 ((n : ℚ) * 2 ^ e) < 53 + e := by
    rw [← Int.lt_zpow_iff_log_lt Nat.one_lt_two x_pos]
    push_cast
    rw [zpow_add₀ (by norm_num)]
    apply mul_lt_mul_of_pos_right _ (by positivity)
    exact_mod_cast bits
  have le : lastBit ((n : ℚ) * 2 ^ e) ≤ e := by
    simp only [lastBit]
    omega
  apply nearestEven_bits (n := n * 2 ^ (e - lastBit ((n : ℚ) * 2 ^ e)).toNat)
  generalize lastBit ((n : ℚ) * 2 ^ e) = j at le
  rw [two_zpow_eq le]
  push_cast
  ring

theorem roundDouble_natCast {n : ℕ} (bits : n < 2 ^ 53) : roundDouble n = n := by
  have exact := roundDouble_exact (e := 0) bits (by norm_num)
  rwa [zpow_zero, mul_one] at exact

/-- A positive quotient of two integers is not rounded to zero. -/
theorem roundDouble_div_pos {k n : ℕ} (positive : 0 < k) (pos : 0 < n) (bits : n < 2 ^ 53) :
    0 < roundDouble ((k : ℚ) / n) := by
  have pos' : (0 : ℚ) < n := Nat.cast_pos.mpr pos
  have one : (1 : ℚ) ≤ k := Nat.one_le_cast.mpr positive
  -- the quotient is at least the power of two below every denominator
  have unit : ((1 : ℕ) : ℚ) * 2 ^ (-53 : ℤ) ≤ k / n := by
    have below : (n : ℚ) ≤ 2 ^ (53 : ℤ) := by exact_mod_cast bits.le
    rw [Nat.cast_one, one_mul, zpow_neg, ← one_div]
    exact div_le_div₀ (zero_le_one.trans one) one pos' below
  have rounded := roundDouble_mono (by positivity) unit
  rw [roundDouble_exact (by norm_num) (by norm_num)] at rounded
  exact lt_of_lt_of_le (by positivity) rounded

/-- Half of the last bit of a quotient from one up is less than a part of its denominator. -/
theorem half_lastBit_lt {k n : ℕ} (bits : k < 2 ^ 53) (pos : 0 < n) (large : 1 ≤ (k : ℚ) / n) :
    (2 : ℚ) ^ lastBit ((k : ℚ) / n) / 2 < 1 / n := by
  have pos' : (0 : ℚ) < n := Nat.cast_pos.mpr pos
  have quotient : (0 : ℚ) < k / n := zero_lt_one.trans_le large
  have log : 0 ≤ Int.log 2 ((k : ℚ) / n) := by
    rw [← Int.zpow_le_iff_le_log (by decide) quotient]
    simpa using large
  have bit : lastBit ((k : ℚ) / n) = Int.log 2 ((k : ℚ) / n) - 52 := by
    simp only [lastBit]
    omega
  have top : (2 : ℚ) ^ Int.log 2 ((k : ℚ) / n) ≤ k / n :=
    Int.zpow_log_le_self Nat.one_lt_two quotient
  have bits : (k : ℚ) < 2 ^ 53 := by exact_mod_cast bits
  rw [bit, zpow_sub₀ (by norm_num), div_div]
  calc (2 : ℚ) ^ Int.log 2 ((k : ℚ) / n) / (2 ^ (52 : ℤ) * 2) ≤ k / n / (2 ^ (52 : ℤ) * 2) := by
        gcongr
    _ < 2 ^ 53 / n / (2 ^ (52 : ℤ) * 2) := by gcongr
    _ = 1 / n := by field_simp

/-- The quotient of two integers is not rounded below an integer. -/
theorem le_mul_ceil_roundDouble {k n : ℕ} (bits : k < 2 ^ 53) (pos : 0 < n) (bits' : n < 2 ^ 53) :
    k ≤ n * ⌈roundDouble ((k : ℚ) / n)⌉₊ := by
  have pos' : (0 : ℚ) < n := Nat.cast_pos.mpr pos
  by_contra short
  have gap : (n : ℚ) * ⌈roundDouble ((k : ℚ) / n)⌉₊ + 1 ≤ k := by exact_mod_cast not_le.mp short
  have ceil := Nat.le_ceil (roundDouble ((k : ℚ) / n))
  rcases lt_or_ge ((k : ℚ) / n) 1 with small | large
  · have positive := roundDouble_div_pos (Nat.zero_lt_of_lt (not_le.mp short)) pos bits'
    have one : (1 : ℚ) ≤ ⌈roundDouble ((k : ℚ) / n)⌉₊ :=
      Nat.one_le_cast.mpr (Nat.ceil_pos.mpr positive)
    have whole := le_mul_of_one_le_right pos'.le one
    rw [div_lt_one pos'] at small
    linarith
  · have far : roundDouble ((k : ℚ) / n) + 1 / n ≤ k / n := by
      rw [le_div_iff₀ pos', add_mul, one_div, inv_mul_cancel₀ pos'.ne']
      have le := mul_le_mul_of_nonneg_left ceil pos'.le
      linarith
    have near := le_roundDouble_add ((k : ℚ) / n)
    have half := half_lastBit_lt bits pos large
    linarith

/-! ### Doubles -/

/-- A double from zero up. -/
inductive Double where
  | finite (x : ℚ)
  | inf
  | nan
  deriving DecidableEq

namespace Double

/-- The result of an operation, infinite if it is rounded beyond the largest double. -/
def round (x : ℚ) : Double := if roundDouble x < 2 ^ 1024 then .finite (roundDouble x) else .inf

/-- The conversion from an integer. -/
def ofNat (n : ℕ) : Double := round n

def mul : Double → Double → Double
  | .finite x, .finite y => round (x * y)
  | .finite x, .inf => if x = 0 then .nan else .inf
  | .inf, .finite y => if y = 0 then .nan else .inf
  | .inf, .inf => .inf
  | _, _ => .nan

def div : Double → Double → Double
  | .finite x, .finite y => if y = 0 then (if x = 0 then .nan else .inf) else round (x / y)
  | .finite _, .inf => .finite 0
  | .inf, .finite _ => .inf
  | _, _ => .nan

/-- The comparison, which is false of what is not a number. -/
def Le : Double → Double → Prop
  | .finite x, .finite y => x ≤ y
  | .finite _, .inf => True
  | .inf, .inf => True
  | _, _ => False

instance : LE Double := ⟨Le⟩

/-- The strict comparison, false of what is not a number as well. -/
def Lt : Double → Double → Prop
  | .finite x, .finite y => x < y
  | .finite _, .inf => True
  | _, _ => False

instance : LT Double := ⟨Lt⟩

instance decidableLe (p q : Double) : Decidable (p ≤ q) :=
  match p, q with
  | .finite x, .finite y => inferInstanceAs (Decidable (x ≤ y))
  | .finite _, .inf | .inf, .inf => isTrue trivial
  | .finite _, .nan | .inf, .finite _ | .inf, .nan | .nan, _ => isFalse id

instance decidableLt (p q : Double) : Decidable (p < q) :=
  match p, q with
  | .finite x, .finite y => inferInstanceAs (Decidable (x < y))
  | .finite _, .inf => isTrue trivial
  | .finite _, .nan | .inf, _ | .nan, _ => isFalse id

theorem finite_le_finite {x y : ℚ} : finite x ≤ finite y ↔ x ≤ y := Iff.rfl

theorem finite_lt_finite {x y : ℚ} : finite x < finite y ↔ x < y := Iff.rfl

theorem not_lt_of_le {p q : Double} (le : p ≤ q) : ¬q < p := by
  match p, q with
  | .finite _, .finite _ => exact not_lt_of_ge (α := ℚ) le
  | .finite _, .inf | .inf, .inf => exact id
  | .finite _, .nan | .inf, .finite _ | .inf, .nan | .nan, _ => exact le.elim

theorem le_trans {p q r : Double} (first : p ≤ q) (second : q ≤ r) : p ≤ r := by
  match p, q with
  | .finite _, .finite _ =>
    match r with
    | .finite _ => exact Rat.le_trans first second
    | .inf => trivial
    | .nan => exact second.elim
  | .finite _, .inf =>
    match r with
    | .inf => trivial
    | .finite _ | .nan => exact second.elim
  | .inf, .inf => exact second
  | .finite _, .nan | .inf, .finite _ | .inf, .nan | .nan, _ => exact first.elim

/-- The conversion to an integer type of the numbers below a bound. -/
def toNat? (bound : ℕ) : Double → Option ℕ
  | .finite x => if ⌊x⌋₊ < bound then some ⌊x⌋₊ else none
  | _ => none

theorem natCast_lt_overflow {n : ℕ} (bits : n < 2 ^ 53) : (n : ℚ) < 2 ^ 1024 := by
  have : (n : ℚ) < 2 ^ 53 := by exact_mod_cast bits
  exact this.trans (pow_lt_pow_right₀ (by norm_num) (by norm_num))

theorem ofNat_eq {n : ℕ} (bits : n < 2 ^ 53) : ofNat n = finite n := by
  rw [ofNat, round, roundDouble_natCast bits, if_pos (natCast_lt_overflow bits)]

/-- An overflow is above each integer. -/
theorem natCast_le_round {n : ℕ} {x : ℚ} (bits : n < 2 ^ 53) :
    finite n ≤ round x ↔ (n : ℚ) ≤ roundDouble x := by
  rw [round]
  split
  · exact finite_le_finite
  · next big =>
    have above : (n : ℚ) ≤ roundDouble x := (natCast_lt_overflow bits).le.trans (not_lt.mp big)
    exact ⟨fun _ ↦ above, fun _ ↦ trivial⟩

theorem round_mono {x y : ℚ} (nonneg : 0 ≤ x) (le : x ≤ y) : round x ≤ round y := by
  have rounded := roundDouble_mono nonneg le
  simp only [round]
  split
  · split
    · exact rounded
    · trivial
  · next big =>
    split
    · next small => exact absurd (rounded.trans_lt small) big
    · trivial

/-- Rounding makes no number smaller than one it is not smaller than. -/
theorem lt_of_round_lt {x y : ℚ} (nonneg : 0 ≤ y) (lt : round x < round y) : x < y := by
  by_contra ge
  exact not_lt_of_le (round_mono nonneg (not_lt.mp ge)) lt

theorem round_nonneg {x : ℚ} (nonneg : 0 ≤ x) : finite 0 ≤ round x := by
  simp only [round]
  split_ifs
  · exact roundDouble_nonneg nonneg
  · trivial

theorem ofNat_pos {n : ℕ} (pos : 0 < n) : finite 0 < ofNat n := by
  have one_le : (1 : ℚ) ≤ roundDouble n := by
    have rounded := roundDouble_mono zero_le_one (Nat.one_le_cast.mpr pos : (1 : ℚ) ≤ n)
    have one := roundDouble_natCast (n := 1) (by norm_num)
    rw [Nat.cast_one] at one
    rwa [one] at rounded
  rw [ofNat, round]
  split
  · exact finite_lt_finite.mpr (by linarith)
  · trivial

theorem ofNat_le_inf (n : ℕ) : ofNat n ≤ .inf := by
  rw [ofNat, round]
  split <;> trivial

theorem ofNat_mono {m n : ℕ} (le : m ≤ n) : ofNat m ≤ ofNat n :=
  round_mono (Nat.cast_nonneg m) (Nat.cast_le.mpr le)

section

variable {p q : Double} {c : ℚ}

theorem mul_mono (pos : 0 < c) (nonneg : finite 0 ≤ p) (le : p ≤ q) :
    p.mul (finite c) ≤ q.mul (finite c) := by
  match p, q with
  | .finite x, .finite y =>
    have product : x * c ≤ y * c := mul_le_mul_of_nonneg_right le pos.le
    exact round_mono (mul_nonneg nonneg pos.le) product
  | .finite x, .inf =>
    simp only [mul, if_neg pos.ne', round]
    split_ifs <;> trivial
  | .inf, .inf =>
    simp only [mul, if_neg pos.ne']
    trivial
  | .finite _, .nan | .inf, .finite _ | .inf, .nan | .nan, _ => exact le.elim

theorem mul_nonneg' (pos : 0 < c) (nonneg : finite 0 ≤ p) : finite 0 ≤ p.mul (finite c) := by
  match p with
  | .finite x => exact round_nonneg (mul_nonneg nonneg pos.le)
  | .inf =>
    simp only [mul, if_neg pos.ne']
    trivial
  | .nan => exact nonneg.elim

theorem div_mono (pos : 0 < c) (nonneg : finite 0 ≤ p) (le : p ≤ q) :
    p.div (finite c) ≤ q.div (finite c) := by
  match p, q with
  | .finite x, .finite y =>
    simp only [div, if_neg pos.ne']
    exact round_mono (div_nonneg nonneg pos.le) (div_le_div_of_nonneg_right le pos.le)
  | .finite x, .inf =>
    simp only [div, if_neg pos.ne', round]
    split_ifs <;> trivial
  | .inf, .inf => trivial
  | .finite _, .nan | .inf, .finite _ | .inf, .nan | .nan, _ => exact le.elim

theorem div_anti {x : ℚ} (nonneg : 0 ≤ x) (pos : finite 0 < p) (le : p ≤ q) :
    (finite x).div q ≤ (finite x).div p := by
  match p, q with
  | .finite a, .finite b =>
    have a_pos : 0 < a := pos
    have b_pos : 0 < b := lt_of_lt_of_le a_pos le
    simp only [div, if_neg a_pos.ne', if_neg b_pos.ne']
    exact round_mono (div_nonneg nonneg b_pos.le) (div_le_div_of_nonneg_left nonneg a_pos le)
  | .finite a, .inf =>
    have a_pos : 0 < a := pos
    simp only [div, if_neg a_pos.ne']
    exact round_nonneg (div_nonneg nonneg a_pos.le)
  | .inf, .inf => exact finite_le_finite.mpr (Rat.le_refl)
  | .finite _, .nan | .inf, .finite _ | .inf, .nan | .nan, _ => exact le.elim

theorem div_nonneg' (pos : 0 < c) (nonneg : finite 0 ≤ p) : finite 0 ≤ p.div (finite c) := by
  match p with
  | .finite x =>
    simp only [div, if_neg pos.ne']
    exact round_nonneg (div_nonneg nonneg pos.le)
  | .inf => trivial
  | .nan => exact nonneg.elim

/-- What is not above a number in range is in range. -/
theorem toNat?_mono {bound n : ℕ} (le : p ≤ q) (h : q.toNat? bound = some n) :
    ∃ m ≤ n, p.toNat? bound = some m := by
  match p, q with
  | .finite x, .finite y =>
    have floors : ⌊x⌋₊ ≤ ⌊y⌋₊ := Nat.floor_mono le
    simp only [toNat?] at h ⊢
    split at h
    · next lt =>
      cases h
      exact ⟨_, floors, if_pos (floors.trans_lt lt)⟩
    · cases h
  | _, .inf | _, .nan => cases h
  | .inf, .finite _ | .nan, .finite _ => exact le.elim

/-- The comparisons with integers tell the converted number. -/
theorem ofNat_le_iff {bound n k : ℕ} (nonneg : finite 0 ≤ p) (h : p.toNat? bound = some n)
    (bits : k < 2 ^ 53) : ofNat k ≤ p ↔ k ≤ n := by
  match p with
  | .finite x =>
    simp only [toNat?] at h
    split at h
    · cases h
      rw [ofNat_eq bits, finite_le_finite, Nat.le_floor_iff nonneg]
    · cases h
  | .inf | .nan => cases h

theorem toNat?_eq_none_iff {bound : ℕ} (nonneg : finite 0 ≤ p) (bits : bound < 2 ^ 53) :
    p.toNat? bound = none ↔ ofNat bound ≤ p := by
  rw [ofNat_eq bits]
  match p with
  | .finite x =>
    simp only [toNat?]
    rw [finite_le_finite, ← Nat.le_floor_iff nonneg]
    split_ifs with lt
    · simp
      omega
    · simp
      omega
  | .inf => exact ⟨fun _ ↦ trivial, fun _ ↦ rfl⟩
  | .nan => exact nonneg.elim

end

end Double

end ProbingBaselines.Lib
