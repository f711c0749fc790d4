import Mathlib.Logic.Relation

/-!
# While loops

General support: `Loop cond body s t` says that `while cond: body` ends in `t` when it starts in
`s`. A loop whose states all stay in a set on which the condition holds does not end.
-/

namespace ProbingBaselines.Lib

universe u

variable {σ : Type u} {cond : σ → Bool} {body : σ → σ} {s t : σ}

/-- The loop started in `s` ends in `t`. -/
inductive Loop (cond : σ → Bool) (body : σ → σ) : σ → σ → Prop where
  | done {s : σ} (h : cond s = false) : Loop cond body s s
  | again {s t : σ} (h : cond s = true) (rest : Loop cond body (body s) t) : Loop cond body s t

namespace Loop

theorem iff_of_done (h : cond s = false) : Loop cond body s t ↔ s = t := by
  constructor
  · rintro (_ | ⟨h', -⟩)
    · rfl
    · rw [h] at h'
      cases h'
  · rintro rfl
    exact .done h

theorem iff_of_again (h : cond s = true) : Loop cond body s t ↔ Loop cond body (body s) t := by
  constructor
  · rintro (h' | ⟨-, rest⟩)
    · rw [h] at h'
      cases h'
    · exact rest
  · exact .again h

/-- What the body keeps and the condition follows from keeps the loop from ending. -/
theorem not_of_invariant {I : σ → Prop} (holds : ∀ s, I s → cond s = true)
    (keep : ∀ s, I s → I (body s)) (start : I s) : ¬Loop cond body s t := by
  intro loop
  induction loop with
  | done h =>
    rw [holds _ start] at h
    cases h
  | again _ _ ih => exact ih (keep _ start)

/-- One round of the loop. -/
def Round (cond : σ → Bool) (body : σ → σ) (s t : σ) : Prop := cond s = true ∧ t = body s

theorem reaches (loop : Loop cond body s t) :
    Relation.ReflTransGen (Round cond body) s t ∧ cond t = false := by
  induction loop with
  | done h => exact ⟨.refl, h⟩
  | again h _ ih => exact ⟨.head ⟨h, rfl⟩ ih.1, ih.2⟩

end Loop

/-- The loop started in `s` ends, and in a state with the property. -/
def EndsWith (cond : σ → Bool) (body : σ → σ) (Q : σ → Prop) (s : σ) : Prop :=
  ∃ t, Loop cond body s t ∧ Q t

namespace EndsWith

variable {Q : σ → Prop}

theorem iff_of_done (h : cond s = false) : EndsWith cond body Q s ↔ Q s := by
  simp only [EndsWith, Loop.iff_of_done h, exists_eq_left']

theorem iff_of_again (h : cond s = true) :
    EndsWith cond body Q s ↔ EndsWith cond body Q (body s) := by
  simp only [EndsWith, Loop.iff_of_again h]

/-- A body that changes nothing while the condition holds. -/
theorem not_of_fixed (h : cond s = true) (fixed : body s = s) : ¬EndsWith cond body Q s := by
  rintro ⟨t, loop, -⟩
  refine Loop.not_of_invariant (I := (· = s)) ?_ ?_ rfl loop
  · rintro _ rfl
    exact h
  · rintro _ rfl
    exact fixed

end EndsWith

end ProbingBaselines.Lib
