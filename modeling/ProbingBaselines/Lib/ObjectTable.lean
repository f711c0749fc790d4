import Mathlib.Logic.Function.Basic
import ProbingBaselines.Lib.Dict

/-!
# Objects with identity

General support: a table is read by reference and written by copy. A reader gets the object that is
stored and may change it in place; storing an object puts a new copy of it into the table. Whoever
keeps a reference then has another object than the table does.
-/

namespace ProbingBaselines.Lib

universe u v

/-- What each reference holds, the next reference, and the objects that are stored. -/
structure ObjectTable (κ : Type u) (α : Type v) where
  object : Nat → α
  next : Nat
  table : Dict κ Nat

namespace ObjectTable

variable {κ : Type u} {α : Type v} {t : ObjectTable κ α} {k k' : κ} {r r' : Nat} {a : α}

/-- An object is changed in place. -/
def set (t : ObjectTable κ α) (r : Nat) (a : α) : ObjectTable κ α :=
  { t with object := Function.update t.object r a }

theorem object_set : (t.set r a).object r' = if r' = r then a else t.object r' :=
  Function.update_apply _ _ _ _

variable [DecidableEq κ]

/-- The reference of the object that is stored. -/
def ref? (t : ObjectTable κ α) (k : κ) : Option Nat := t.table.get? k

/-- The object that is stored. -/
def find? (t : ObjectTable κ α) (k : κ) : Option α := (t.ref? k).map t.object

/-- A new object is stored. -/
def add (t : ObjectTable κ α) (k : κ) (a : α) : ObjectTable κ α where
  object := Function.update t.object t.next a
  next := t.next + 1
  table := t.table.insert k t.next

/-- A copy of an object is stored. -/
def store (t : ObjectTable κ α) (k : κ) (r : Nat) : ObjectTable κ α := t.add k (t.object r)

/-- The references that are stored are in use, and none is stored under two keys. -/
structure WellFormed (t : ObjectTable κ α) : Prop where
  used : ∀ {k r}, t.ref? k = some r → r < t.next
  distinct : ∀ {k k' r}, t.ref? k = some r → t.ref? k' = some r → k = k'

/-- The object that is stored is one of those that are kept. -/
def Kept (t : ObjectTable κ α) (refs : List Nat) (k : κ) : Prop := ∃ r ∈ refs, t.ref? k = some r

theorem find?_eq_some_iff : t.find? k = some a ↔ ∃ r, t.ref? k = some r ∧ t.object r = a :=
  Option.map_eq_some_iff

theorem find?_eq_none (absent : t.ref? k = none) : t.find? k = none :=
  Option.map_eq_none_iff.mpr absent

theorem ref?_ne_none (found : t.find? k = some a) : t.ref? k ≠ none := by
  intro absent
  rw [find?_eq_none absent] at found
  cases found

/-! ### Changes in place -/

theorem WellFormed.set (wf : t.WellFormed) : (t.set r a).WellFormed := ⟨wf.used, wf.distinct⟩

/-! ### Storing -/

theorem ref?_add : (t.add k a).ref? k' = if k' = k then some t.next else t.ref? k' :=
  Dict.get?_insert

theorem ref?_add_ne_none (known : t.ref? k' ≠ none) : (t.add k a).ref? k' ≠ none := by
  rw [ref?_add]
  split
  · exact Option.some_ne_none _
  · exact known

@[simp] theorem next_add : (t.add k a).next = t.next + 1 := rfl

theorem object_add_of_lt (lt : r < t.next) : (t.add k a).object r = t.object r :=
  Function.update_of_ne (Nat.ne_of_lt lt) _ _

@[simp] theorem object_add_next : (t.add k a).object t.next = a := Function.update_self _ _ _

theorem WellFormed.add (wf : t.WellFormed) : (t.add k a).WellFormed where
  used {k' r} stored := by
    rw [ref?_add] at stored
    split at stored
    · cases stored
      exact Nat.lt_succ_self _
    · exact Nat.lt_succ_of_lt (wf.used stored)
  distinct {k₁ k₂ r} stored₁ stored₂ := by
    rw [ref?_add] at stored₁ stored₂
    split at stored₁ <;> split at stored₂
    · next eq₁ eq₂ => exact eq₁.trans eq₂.symm
    · cases stored₁
      exact absurd (wf.used stored₂) (Nat.lt_irrefl _)
    · cases stored₂
      exact absurd (wf.used stored₁) (Nat.lt_irrefl _)
    · exact wf.distinct stored₁ stored₂

theorem WellFormed.find?_add (wf : t.WellFormed) :
    (t.add k a).find? k' = if k' = k then some a else t.find? k' := by
  unfold find?
  rw [ref?_add]
  split
  · rw [Option.map_some, object_add_next]
  · cases found : t.ref? k' with
    | none => rfl
    | some r => rw [Option.map_some, Option.map_some, object_add_of_lt (wf.used found)]

/-- A copy is none of the objects that are kept. -/
theorem kept_add {refs : List Nat} (used : ∀ r ∈ refs, r < t.next) :
    (t.add k a).Kept refs k' ↔ k' ≠ k ∧ t.Kept refs k' := by
  constructor
  · rintro ⟨r, mem, stored⟩
    rw [ref?_add] at stored
    split at stored
    · cases stored
      exact absurd (used _ mem) (Nat.lt_irrefl _)
    · next ne => exact ⟨ne, r, mem, stored⟩
  · rintro ⟨ne, r, mem, stored⟩
    exact ⟨r, mem, ref?_add.trans ((if_neg ne).trans stored)⟩

end ObjectTable

end ProbingBaselines.Lib
