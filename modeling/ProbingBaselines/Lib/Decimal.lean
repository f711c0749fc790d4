import Mathlib.Data.List.Basic

/-!
# Numbers in a text

General support: a number written in decimal has digits only, so that a number behind a separator is
read off the end of a text.
-/

namespace ProbingBaselines.Lib

theorem isDigit_of_mem {n : Nat} {c : Char} (h : c ∈ (toString n).toList) : c.isDigit := by
  rw [Nat.toString_eq_repr, Nat.toList_repr] at h
  exact Nat.isDigit_of_mem_toDigits (by decide) (by decide) h

theorem toString_ne_nil (n : Nat) : (toString n).toList ≠ [] := by
  rw [Nat.toString_eq_repr, Nat.toList_repr]
  exact Nat.toDigits_ne_nil

theorem not_mem_toString {c : Char} (h : c.isDigit = false) (n : Nat) :
    c ∉ (toString n).toList := by
  intro mem
  rw [isDigit_of_mem mem] at h
  cases h

theorem toString_inj {m n : Nat} (h : (toString m).toList = (toString n).toList) : m = n := by
  rw [Nat.toString_eq_repr, Nat.toString_eq_repr, Nat.toList_repr, Nat.toList_repr] at h
  have read := congrArg (fun digits ↦ Nat.ofDigitChars 10 digits 0) h
  simpa only [Nat.ofDigitChars_ten_toDigits] using read

/-- A separator that is not in what follows it is the last one. -/
theorem append_cons_inj {α : Type*} {a b l r : List α} {c : α} (hl : c ∉ l) (hr : c ∉ r)
    (h : a ++ c :: l = b ++ c :: r) : a = b ∧ l = r := by
  rcases List.append_eq_append_iff.mp h with ⟨mid, rfl, eq⟩ | ⟨mid, rfl, eq⟩
  · cases mid with
    | nil => exact ⟨(List.append_nil a).symm, (List.cons.inj eq).2⟩
    | cons d mid =>
      rw [(List.cons.inj eq).2] at hl
      exact absurd (List.mem_append_right mid List.mem_cons_self) hl
  · cases mid with
    | nil => exact ⟨List.append_nil b, (List.cons.inj eq).2.symm⟩
    | cons d mid =>
      rw [(List.cons.inj eq).2] at hr
      exact absurd (List.mem_append_right mid List.mem_cons_self) hr

/-- A number at the end of a text, behind a separator. -/
theorem number_inj {a b : List Char} {c : Char} (sep : c.isDigit = false) {m n : Nat}
    (h : a ++ c :: (toString m).toList = b ++ c :: (toString n).toList) : a = b ∧ m = n := by
  rcases append_cons_inj (not_mem_toString sep m) (not_mem_toString sep n) h with ⟨front, digits⟩
  exact ⟨front, toString_inj digits⟩

/-! ### Numbers with a sign -/

theorem toList_toString_negSucc (n : Nat) :
    (toString (Int.negSucc n)).toList = '-' :: (toString (n + 1)).toList := by
  have text : toString (Int.negSucc n) = "-" ++ toString (n + 1) := rfl
  rw [text, String.toList_append]
  rfl

/-- A character that is neither a digit nor the minus sign is in no number. -/
theorem not_mem_toString_int {c : Char} (digit : c.isDigit = false) (minus : c ≠ '-') (z : Int) :
    c ∉ (toString z).toList := by
  cases z with
  | ofNat n => exact not_mem_toString digit n
  | negSucc n =>
    rw [toList_toString_negSucc, List.mem_cons, not_or]
    exact ⟨minus, not_mem_toString digit _⟩

theorem toString_int_inj {y z : Int} (h : (toString y).toList = (toString z).toList) : y = z := by
  have not_minus (n : Nat) : '-' ∉ (toString n).toList := not_mem_toString (by decide) n
  cases y with
  | ofNat m =>
    cases z with
    | ofNat n => exact congrArg Int.ofNat (toString_inj h)
    | negSucc n =>
      rw [toList_toString_negSucc] at h
      exact absurd (h ▸ List.mem_cons_self) (not_minus m)
  | negSucc m =>
    cases z with
    | ofNat n =>
      rw [toList_toString_negSucc] at h
      exact absurd (h ▸ List.mem_cons_self) (not_minus n)
    | negSucc n =>
      rw [toList_toString_negSucc, toList_toString_negSucc] at h
      exact congrArg Int.negSucc (Nat.succ.inj (toString_inj (List.cons.inj h).2))

/-- Two numbers behind one another with a separator between them. -/
theorem two_numbers_inj {c : Char} (digit : c.isDigit = false) (minus : c ≠ '-')
    {x y x' y' : Int}
    (h : (toString x).toList ++ c :: (toString y).toList =
      (toString x').toList ++ c :: (toString y').toList) : x = x' ∧ y = y' := by
  rcases append_cons_inj (not_mem_toString_int digit minus y) (not_mem_toString_int digit minus y')
    h with ⟨first, second⟩
  exact ⟨toString_int_inj first, toString_int_inj second⟩

end ProbingBaselines.Lib
