import Mathlib.Data.List.Basic
import Mathlib.Data.Vector.Basic
import Mathlib.Logic.Equiv.Defs
import Mathlib.Tactic.Ring

/-!
# Values in memory

General support: a type with a `Layout` has values of a fixed number of bytes. Machine integers are
little-endian, and the elements of an array follow each other. `overwrite` writes what there is over
the first bytes of a value.
-/

namespace ProbingBaselines.Lib

universe u

/-! ### Little-endian numbers -/

/-- The `n` low bytes of `x`, the lowest first. -/
def leBytes : Nat → Nat → List UInt8
  | 0, _ => []
  | n + 1, x => .ofNat x :: leBytes n (x / 256)

/-- The number with these bytes. -/
def ofLeBytes : List UInt8 → Nat
  | [] => 0
  | b :: bs => b.toNat + 256 * ofLeBytes bs

@[simp] theorem length_leBytes (n x : Nat) : (leBytes n x).length = n := by
  induction n generalizing x with
  | zero => rfl
  | succ n ih => simp [leBytes, ih]

theorem ofLeBytes_leBytes (n x : Nat) : ofLeBytes (leBytes n x) = x % 256 ^ n := by
  induction n generalizing x with
  | zero => simp [leBytes, ofLeBytes, Nat.mod_one]
  | succ n ih =>
    rw [leBytes, ofLeBytes, ih, UInt8.toNat_ofNat', pow_succ' 256 n, Nat.mod_mul]

theorem ofLeBytes_lt (bs : List UInt8) : ofLeBytes bs < 256 ^ bs.length := by
  induction bs with
  | nil => simp [ofLeBytes]
  | cons b bs ih =>
    have hb : b.toNat < 256 := b.toNat_lt
    rw [ofLeBytes, List.length_cons, pow_succ]
    omega

theorem leBytes_ofLeBytes (bs : List UInt8) : leBytes bs.length (ofLeBytes bs) = bs := by
  induction bs with
  | nil => rfl
  | cons b bs ih =>
    have hb : b.toNat < 256 := b.toNat_lt
    have low : UInt8.ofNat (b.toNat + 256 * ofLeBytes bs) = b := by
      apply UInt8.toNat_inj.mp
      rw [UInt8.toNat_ofNat']
      omega
    have high : (b.toNat + 256 * ofLeBytes bs) / 256 = ofLeBytes bs := by omega
    rw [List.length_cons, ofLeBytes, leBytes, low, high, ih]

/-! ### Layouts -/

/-- A type whose values are `size` bytes in memory, and each `size` bytes are one. -/
class Layout (α : Type u) where
  size : Nat
  bytes : α → List UInt8
  ofBytes : List UInt8 → α
  length_bytes (x : α) : (bytes x).length = size
  ofBytes_bytes (x : α) : ofBytes (bytes x) = x
  bytes_ofBytes (bs : List UInt8) : bs.length = size → bytes (ofBytes bs) = bs

namespace Layout

attribute [simp] length_bytes ofBytes_bytes

variable {α : Type u} [Layout α]

theorem bytes_inj {x y : α} : bytes x = bytes y ↔ x = y := by
  constructor
  · intro h
    rw [← ofBytes_bytes x, h, ofBytes_bytes]
  · exact congrArg bytes

instance : Layout UInt64 where
  size := 8
  bytes x := leBytes 8 x.toNat
  ofBytes bs := .ofNat (ofLeBytes bs)
  length_bytes x := length_leBytes 8 _
  ofBytes_bytes x := by
    rw [ofLeBytes_leBytes, Nat.mod_eq_of_lt (by exact x.toNat_lt), UInt64.ofNat_toNat]
  bytes_ofBytes bs h := by
    have lt := ofLeBytes_lt bs
    rw [h] at lt
    rw [UInt64.toNat_ofNat', Nat.mod_eq_of_lt (by simpa using lt), ← h, leBytes_ofLeBytes]

/-- In two's complement. -/
instance : Layout Int32 where
  size := 4
  bytes x := leBytes 4 x.toBitVec.toNat
  ofBytes bs := .ofBitVec (.ofNat 32 (ofLeBytes bs))
  length_bytes x := length_leBytes 4 _
  ofBytes_bytes x := by
    rw [ofLeBytes_leBytes, Nat.mod_eq_of_lt (by exact x.toBitVec.isLt), BitVec.ofNat_toNat,
      BitVec.setWidth_eq, Int32.ofBitVec_toBitVec]
  bytes_ofBytes bs h := by
    have lt := ofLeBytes_lt bs
    rw [h] at lt
    rw [Int32.toBitVec_ofBitVec, BitVec.toNat_ofNat, Nat.mod_eq_of_lt (by simpa using lt), ← h,
      leBytes_ofLeBytes]

/-! ### Arrays -/

/-- The elements read from the first bytes. -/
def readMany (α : Type u) [Layout α] : Nat → List UInt8 → List α
  | 0, _ => []
  | n + 1, bs => ofBytes (bs.take (size α)) :: readMany α n (bs.drop (size α))

theorem length_readMany (n : Nat) (bs : List UInt8) : (readMany α n bs).length = n := by
  induction n generalizing bs with
  | zero => rfl
  | succ n ih => simp [readMany, ih]

theorem length_flatMap_bytes (xs : List α) : (xs.flatMap bytes).length = xs.length * size α := by
  induction xs with
  | nil => simp
  | cons x xs ih =>
    rw [List.flatMap_cons, List.length_append, length_bytes, ih, List.length_cons]
    ring

theorem readMany_flatMap (xs : List α) : readMany α xs.length (xs.flatMap bytes) = xs := by
  induction xs with
  | nil => rfl
  | cons x xs ih =>
    rw [List.length_cons, readMany, List.flatMap_cons, List.take_left' (length_bytes x),
      List.drop_left' (length_bytes x), ofBytes_bytes, ih]

theorem flatMap_readMany {n : Nat} {bs : List UInt8} (h : bs.length = n * size α) :
    (readMany α n bs).flatMap bytes = bs := by
  induction n generalizing bs with
  | zero =>
    rw [Nat.zero_mul, List.length_eq_zero_iff] at h
    rw [h]
    rfl
  | succ n ih =>
    rw [Nat.succ_mul] at h
    have first : (bs.take (size α)).length = size α := by
      rw [List.length_take]
      omega
    have rest : (bs.drop (size α)).length = n * size α := by
      rw [List.length_drop]
      omega
    rw [readMany, List.flatMap_cons, bytes_ofBytes _ first, ih rest, List.take_append_drop]

instance {n : Nat} : Layout (Vector α n) where
  size := n * size α
  bytes xs := xs.toList.flatMap bytes
  ofBytes bs := ⟨(readMany α n bs).toArray, length_readMany n bs⟩
  length_bytes xs := by rw [length_flatMap_bytes, Vector.length_toList]
  ofBytes_bytes xs := by
    apply Vector.toList_inj.mp
    have eq := readMany_flatMap xs.toList
    rwa [Vector.length_toList] at eq
  bytes_ofBytes bs h := flatMap_readMany h

/-! ### Structs -/

instance {β : Type u} [Layout β] : Layout (α × β) where
  size := size α + size β
  bytes x := bytes x.1 ++ bytes x.2
  ofBytes bs := (ofBytes (bs.take (size α)), ofBytes (bs.drop (size α)))
  length_bytes x := by rw [List.length_append, length_bytes, length_bytes]
  ofBytes_bytes x := by
    rw [List.take_left' (length_bytes x.1), List.drop_left' (length_bytes x.1), ofBytes_bytes,
      ofBytes_bytes]
  bytes_ofBytes bs h := by
    rw [bytes_ofBytes _ (by rw [List.length_take]; omega),
      bytes_ofBytes _ (by rw [List.length_drop]; omega), List.take_append_drop]

/-- A struct is laid out as the tuple of its fields. -/
abbrev ofEquiv {β : Type u} (e : β ≃ α) : Layout β where
  size := size α
  bytes x := bytes (e x)
  ofBytes bs := e.symm (ofBytes bs)
  length_bytes x := length_bytes (e x)
  ofBytes_bytes x := by rw [ofBytes_bytes, e.symm_apply_apply]
  bytes_ofBytes bs h := by rw [e.apply_symm_apply, bytes_ofBytes bs h]

end Layout

/-! ### Writing over a value -/

/-- `old` with as many of its first bytes as `new` has for it replaced. -/
def overwrite (new old : List UInt8) : List UInt8 := new.take old.length ++ old.drop new.length

@[simp] theorem length_overwrite (new old : List UInt8) :
    (overwrite new old).length = old.length := by
  rw [overwrite, List.length_append, List.length_take, List.length_drop]
  omega

@[simp] theorem overwrite_nil (old : List UInt8) : overwrite [] old = old := by
  simp [overwrite]

/-- Of two values behind each other, the second gets what the first leaves. -/
theorem overwrite_append (new a b : List UInt8) :
    overwrite new (a ++ b) = overwrite new a ++ overwrite (new.drop a.length) b := by
  rcases Nat.le_total new.length a.length with short | long
  · rw [List.drop_of_length_le short, overwrite_nil, overwrite, overwrite,
      List.take_of_length_le short, List.take_of_length_le (by rw [List.length_append]; omega),
      List.drop_append_of_le_length short, List.append_assoc]
  · have none : a.drop new.length = [] := List.drop_of_length_le long
    rw [overwrite, overwrite, overwrite, none, List.append_nil, List.length_append,
      List.take_add, List.length_drop, List.drop_append, none, List.nil_append,
      List.append_assoc]

/-- Nothing is written behind the new bytes. -/
theorem drop_overwrite (new old : List UInt8) :
    (overwrite new old).drop new.length = old.drop new.length := by
  rcases Nat.le_total new.length old.length with short | long
  · rw [overwrite, List.take_of_length_le short, List.drop_left]
  · rw [List.drop_of_length_le (by simpa using long), List.drop_of_length_le long]

/-- Enough bytes to replace all of the value. -/
theorem overwrite_of_le {new old : List UInt8} (enough : old.length ≤ new.length) :
    overwrite new old = new.take old.length := by
  rw [overwrite, List.drop_of_length_le enough, List.append_nil]

end ProbingBaselines.Lib
