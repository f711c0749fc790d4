import Mathlib.Data.List.Basic

/-!
# Partial functions over a list

General support: `l.mapM f` for an `f` into `Option` has a value exactly if `f` has one at every
element, and then the values are those of the elements.
-/

namespace ProbingBaselines.Lib

universe u

variable {α β γ : Type u} {f : α → Option β} {l : List α}

theorem mapM_eq_map {g : α → β} (h : ∀ a ∈ l, f a = some (g a)) : l.mapM f = some (l.map g) := by
  induction l with
  | nil => rfl
  | cons a l ih =>
    rw [List.mapM_cons, h a List.mem_cons_self, ih fun b hb ↦ h b (List.mem_cons_of_mem _ hb)]
    rfl

/-- Decoding what was encoded, element by element. -/
theorem mapM_map_eq_some (f : α → β) (g : β → Option γ) (h : α → γ)
    (decode : ∀ a, g (f a) = some (h a)) (l : List α) : (l.map f).mapM g = some (l.map h) := by
  rw [List.mapM_map]
  exact mapM_eq_map fun a _ ↦ decode a

/-- A `mapM` that has a value at every element loses none of them. -/
theorem mapM_eq_filterMap (h : ∀ a ∈ l, ∃ b, f a = some b) : l.mapM f = some (l.filterMap f) := by
  induction l with
  | nil => rfl
  | cons a l ih =>
    obtain ⟨b, found⟩ := h a List.mem_cons_self
    rw [List.mapM_cons, found, ih fun b hb ↦ h b (List.mem_cons_of_mem _ hb),
      List.filterMap_cons_some found]
    rfl

/-- A `mapM` has a value exactly if there is one at every element. -/
theorem isSome_mapM_iff : (l.mapM f).isSome ↔ ∀ a ∈ l, (f a).isSome := by
  induction l with
  | nil => simp
  | cons a l ih =>
    rw [List.mapM_cons, List.forall_mem_cons, ← ih]
    cases f a with
    | none => simp
    | some b => cases l.mapM f <;> simp

/-- Reading a list place by place. -/
theorem mapM_getElem? (l : List α) : ((List.range l.length).mapM fun i ↦ l[i]?) = some l := by
  induction l with
  | nil => rfl
  | cons a l ih =>
    rw [List.length_cons, List.range_succ_eq_map, List.mapM_cons, List.mapM_map]
    simp only [Function.comp_def, List.getElem?_cons_succ, ih]
    rfl

theorem exists_of_mem_mapM {l' : List β} (h : l.mapM f = some l') {b : β} (mem : b ∈ l') :
    ∃ a ∈ l, f a = some b := by
  induction l generalizing l' with
  | nil =>
    cases h
    exact absurd mem List.not_mem_nil
  | cons a l ih =>
    rw [List.mapM_cons] at h
    rcases Option.bind_eq_some_iff.mp h with ⟨c, hc, rest⟩
    rcases Option.bind_eq_some_iff.mp rest with ⟨cs, hcs, eq⟩
    cases eq
    rcases List.mem_cons.mp mem with rfl | mem
    · exact ⟨a, List.mem_cons_self, hc⟩
    · rcases ih hcs mem with ⟨a', ha', eq⟩
      exact ⟨a', List.mem_cons_of_mem _ ha', eq⟩

/-- What is known of the value at every element is known of the values, and so is a label that the
values share with the elements. -/
theorem exists_mapM (P : β → Prop) (g : β → γ) (k : α → γ)
    (each : ∀ a ∈ l, ∃ b, f a = some b ∧ P b ∧ g b = k a) :
    ∃ bs, l.mapM f = some bs ∧ (∀ b ∈ bs, P b) ∧ bs.map g = l.map k := by
  induction l with
  | nil => exact ⟨[], rfl, by simp, rfl⟩
  | cons a l ih =>
    obtain ⟨b, found, holds, label⟩ := each a List.mem_cons_self
    obtain ⟨bs, rest, all, labels⟩ := ih fun a' mem ↦ each a' (List.mem_cons_of_mem _ mem)
    refine ⟨b :: bs, ?_, ?_, ?_⟩
    · rw [List.mapM_cons, found, rest]
      rfl
    · intro b' mem
      rcases List.mem_cons.mp mem with rfl | mem
      · exact holds
      · exact all b' mem
    · rw [List.map_cons, List.map_cons, label, labels]

end ProbingBaselines.Lib
