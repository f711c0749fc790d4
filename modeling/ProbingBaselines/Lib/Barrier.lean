import Mathlib.Logic.Function.Basic

/-!
# Named barriers

General support: ranks `0, .., n - 1` enter barriers named by `β`, again and again. `entered b r`
counts how often rank `r` has entered `b`, and `loc r` is the barrier it is in. A barrier
releases a rank only when every rank has entered it as often.
-/

namespace ProbingBaselines.Lib

universe u

variable {β : Type u} {n : Nat} {entered : β → Nat → Nat} {loc : Nat → Option β} {b b' : β}
  {r q : Nat}

/-- Every rank has entered `b` as often as rank `r`. -/
def Released (n : Nat) (entered : β → Nat → Nat) (b : β) (r : Nat) : Prop :=
  ∀ q < n, entered b r ≤ entered b q

instance (entered : β → Nat → Nat) (b : β) (r : Nat) : Decidable (Released n entered b r) :=
  inferInstanceAs (Decidable (∀ q < n, entered b r ≤ entered b q))

/-- A rank that is in no barrier `b` was released from it, and no rank is two rounds ahead. -/
structure Rounds (n : Nat) (entered : β → Nat → Nat) (loc : Nat → Option β) : Prop where
  behind : ∀ r < n, ∀ b, loc r ≠ some b → Released n entered b r
  ahead : ∀ r < n, ∀ q < n, ∀ b, entered b r ≤ entered b q + 1

theorem not_released : ¬Released n entered b r ↔ ∃ q < n, entered b q < entered b r := by
  simp [Released]

variable [DecidableEq β]

/-- Rank `r` enters `b` once more. -/
def enter (entered : β → Nat → Nat) (b : β) (r : Nat) : β → Nat → Nat :=
  Function.update entered b (Function.update (entered b) r (entered b r + 1))

theorem enter_apply (entered : β → Nat → Nat) (b b' : β) (r q : Nat) :
    enter entered b r b' q = if b' = b ∧ q = r then entered b' q + 1 else entered b' q := by
  unfold enter
  by_cases hb : b' = b
  · subst hb
    by_cases hq : q = r
    · simp [hq]
    · simp [hq]
  · simp [hb]

theorem le_enter : entered b' q ≤ enter entered b r b' q := by
  rw [enter_apply]
  split <;> omega

/-- Entering another barrier leaves the counts of this one. -/
theorem enter_of_ne (h : b' ≠ b) : enter entered b r b' q = entered b' q := by
  rw [enter_apply, if_neg fun hc ↦ h hc.1]

/-- Entering releases nobody's round again. -/
theorem Released.enter (h : Released n entered b' q) (hne : b' ≠ b ∨ q ≠ r) :
    Released n (enter entered b r) b' q := by
  intro i hi
  have hsame : Lib.enter entered b r b' q = entered b' q := by
    rw [enter_apply, if_neg]
    intro hc
    exact hne.elim (fun h ↦ h hc.1) fun h ↦ h hc.2
  rw [hsame]
  exact Nat.le_trans (h i hi) le_enter

/-- A step within or between barriers that enters none. -/
theorem Rounds.leave (h : Rounds n entered loc) {loc' : Nat → Option β}
    (hloc : ∀ r < n, ∀ b, loc' r ≠ some b → loc r = some b → Released n entered b r) :
    Rounds n entered loc' where
  behind := by
    intro r hr b hne
    by_cases hb : loc r = some b
    · exact hloc r hr b hne hb
    · exact h.behind r hr b hb
  ahead := h.ahead

/-- A rank that was in no barrier enters `b`. -/
theorem Rounds.enter (h : Rounds n entered loc) (hr : r < n) (hout : loc r = none)
    {loc' : Nat → Option β} (hloc : loc' = Function.update loc r (some b)) :
    Rounds n (enter entered b r) loc' where
  behind := by
    intro q hq b' hne
    rw [hloc] at hne
    by_cases hqr : q = r
    · subst hqr
      rw [Function.update_self] at hne
      have hb : b' ≠ b := fun he ↦ hne (by rw [he])
      exact (h.behind q hq b' (by rw [hout]; nofun)).enter (.inl hb)
    · rw [Function.update_of_ne hqr] at hne
      exact (h.behind q hq b' hne).enter (.inr hqr)
  ahead := by
    intro q hq i hi b'
    have hle := h.ahead q hq i hi b'
    have hrel := h.behind r hr b (by rw [hout]; nofun) i hi
    have hge : entered b' i ≤ Lib.enter entered b r b' i := le_enter
    rw [enter_apply entered b b' r q]
    split
    · next hc =>
      rcases hc with ⟨rfl, rfl⟩
      omega
    · omega

/-- Once the last rank has entered `b`, every other rank is in it and is released. -/
theorem Rounds.last (h : Rounds n entered loc) (hr : r < n)
    (hrel : Released n (Lib.enter entered b r) b r) (hq : q < n) (hne : q ≠ r) :
    loc q = some b ∧ Released n (Lib.enter entered b r) b q := by
  have hself : Lib.enter entered b r b r = entered b r + 1 := by
    rw [enter_apply, if_pos ⟨rfl, rfl⟩]
  have hother {i : Nat} (hi : i ≠ r) : Lib.enter entered b r b i = entered b i := by
    rw [enter_apply, if_neg fun hc ↦ hi hc.2]
  have hqr := hrel q hq
  rw [hself, hother hne] at hqr
  constructor
  · by_contra hloc
    have := h.behind q hq b hloc r hr
    omega
  · intro i hi
    rw [hother hne]
    have hle := h.ahead q hq r hr b
    have hir := hrel i hi
    rw [hself] at hir
    omega

/-- While some rank has yet to enter `b`, those that wait in it keep waiting. -/
theorem Rounds.not_last (h : Rounds n entered loc) (hr : r < n) (hout : loc r = none)
    (hrel : ¬Released n (Lib.enter entered b r) b r) (hne : q ≠ r)
    (hwait : ¬Released n entered b q) : ¬Released n (Lib.enter entered b r) b q := by
  rcases not_released.mp hrel with ⟨i, hi, hlt⟩
  rcases not_released.mp hwait with ⟨j, hj, hjq⟩
  have hself : Lib.enter entered b r b r = entered b r + 1 := by
    rw [enter_apply, if_pos ⟨rfl, rfl⟩]
  have hir : i ≠ r := by
    intro he
    rw [he] at hlt
    omega
  have hother {i : Nat} (hi : i ≠ r) : Lib.enter entered b r b i = entered b i := by
    rw [enter_apply, if_neg fun hc ↦ hi hc.2]
  rw [hself, hother hir] at hlt
  have hrj := h.behind r hr b (by rw [hout]; nofun) j hj
  intro hall
  have := hall i hi
  rw [hother hne, hother hir] at this
  omega

end ProbingBaselines.Lib
