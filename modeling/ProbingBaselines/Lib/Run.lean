import Mathlib.Data.List.Basic

/-!
# Labelled runs of a partial step function

General support: a system is a step function `σ → α → Option σ` whose labels carry
everything the environment chooses. A run lists the labels in the order taken and may
be restricted to the steps that satisfy a side condition on the state they start from.
-/

namespace ProbingBaselines.Lib

universe u v

variable {σ : Type u} {α : Type v} {step : σ → α → Option σ} {ok : σ → α → Prop}

/-- A run from `s` to `t`, each step enabled and meeting `ok` in the state it starts from. -/
inductive Run (step : σ → α → Option σ) (ok : σ → α → Prop) (s : σ) : List α → σ → Prop where
  | nil : Run step ok s [] s
  | snoc {l : List α} {t u : σ} (a : α) (run : Run step ok s l t) (meets : ok t a)
      (taken : step t a = some u) : Run step ok s (l ++ [a]) u

/-- The unrestricted side condition. -/
def anyStep (_ : σ) (_ : α) : Prop := True

/-- A property of the start that every admitted step keeps holds at the end of a run. -/
theorem Run.invariant {P : σ → Prop} {s t : σ} {as : List α} (h : Run step ok s as t)
    (start : P s)
    (keep : ∀ t u a, P t → ok t a → step t a = some u → P u) : P t := by
  induction h with
  | nil => exact start
  | snoc a _ meets taken ih => exact keep _ _ a ih meets taken

/-- A run meets every weaker side condition. -/
theorem Run.mono {ok' : σ → α → Prop} {s t : σ} {as : List α} (h : Run step ok s as t)
    (weaker : ∀ u a, ok u a → ok' u a) : Run step ok' s as t := by
  induction h with
  | nil => exact .nil
  | snoc a _ meets taken ih => exact .snoc a ih (weaker _ a meets) taken

/-- A run meets a side condition that is weaker where an invariant holds. -/
theorem Run.mono_of_invariant {P : σ → Prop} {ok' : σ → α → Prop} {s t : σ} {as : List α}
    (h : Run step ok s as t) (start : P s) (keep : ∀ t u a, P t → step t a = some u → P u)
    (weaker : ∀ u a, P u → ok u a → ok' u a) : Run step ok' s as t := by
  induction h with
  | nil => exact .nil
  | @snoc l t u a run meets taken ih =>
    have holds := run.invariant start fun t u a h _ ↦ keep t u a h
    exact .snoc a ih (weaker _ a holds meets) taken

/-- One more step in front of a run. -/
theorem Run.cons {s t u : σ} {as : List α} (a : α) (meets : ok s a) (taken : step s a = some t)
    (h : Run step ok t as u) : Run step ok s (a :: as) u := by
  induction h with
  | nil => exact .snoc (l := []) a .nil meets taken
  | snoc b _ hb tb ih => exact .snoc (l := a :: _) b ih hb tb

/-- Executing the labels in order, stopping at the first step that does not meet `ok`,
gives a run. -/
theorem run_of_guarded [∀ s a, Decidable (ok s a)] {s t : σ} {as : List α}
    (h : as.foldlM (fun s a ↦ if ok s a then step s a else none) s = some t) :
    Run step ok s as t := by
  induction as generalizing s with
  | nil =>
    cases h
    exact .nil
  | cons a as ih =>
    rw [List.foldlM_cons, Option.bind_eq_bind, Option.bind_eq_some_iff] at h
    obtain ⟨u, hu, ht⟩ := h
    split at hu
    · next meets => exact .cons a meets hu (ih ht)
    · contradiction

instance (s : σ) (a : α) : Decidable (anyStep s a) := .isTrue trivial

/-- Executing the labels in order gives an unrestricted run. -/
theorem run_of_foldlM {s t : σ} {as : List α} (h : as.foldlM step s = some t) :
    Run step anyStep s as t :=
  run_of_guarded h

/-- A run to a state that passes a test, found by executing the labels. -/
theorem run_of_guarded_any [∀ s a, Decidable (ok s a)] {s : σ} {as : List α} {p : σ → Bool}
    (h : (as.foldlM (fun s a ↦ if ok s a then step s a else none) s).any p = true) :
    ∃ t, Run step ok s as t ∧ p t = true := by
  cases run : as.foldlM (fun s a ↦ if ok s a then step s a else none) s with
  | none =>
    rw [run] at h
    contradiction
  | some t =>
    rw [run] at h
    exact ⟨t, run_of_guarded run, h⟩

theorem run_of_any {s : σ} {as : List α} {p : σ → Bool}
    (h : (as.foldlM step s).any p = true) : ∃ t, Run step anyStep s as t ∧ p t = true :=
  run_of_guarded_any h

/-! ### What the steps make -/

/-- A state with what the steps to it have made. -/
structure Recorded (σ : Type u) (β : Type u) where
  state : σ
  made : List β

section

variable {β : Type u} {makes : σ → α → List β}

/-- A step together with what it makes. -/
def record (step : σ → α → Option σ) (makes : σ → α → List β) (s : Recorded σ β) (a : α) :
    Option (Recorded σ β) :=
  (step s.state a).map fun t ↦ ⟨t, s.made ++ makes s.state a⟩

/-- All that a run has made is good just when each of its steps started from a state from which it
makes only good things. -/
theorem Run.forall_made_iff {P : β → Prop} (each : ∀ s a, (∀ b ∈ makes s a, P b) ↔ ok s a)
    {start : σ} {as : List α} {t : Recorded σ β}
    (run : Run (record step makes) anyStep ⟨start, []⟩ as t) :
    (∀ b ∈ t.made, P b) ↔
      Run (record step makes) (fun s a ↦ ok s.state a) ⟨start, []⟩ as t := by
  constructor
  · intro good
    induction run with
    | nil => exact .nil
    | @snoc as t u a run _ taken ih =>
      rcases Option.map_eq_some_iff.mp taken with ⟨next, -, rfl⟩
      refine .snoc a (ih fun b hb ↦ good b (List.mem_append_left _ hb)) ?_ taken
      exact (each t.state a).mp fun b hb ↦ good b (List.mem_append_right _ hb)
  · intro run
    refine run.invariant (P := fun s ↦ ∀ b ∈ s.made, P b) ?_ ?_
    · exact fun b hb ↦ absurd hb List.not_mem_nil
    · intro t u a good meets taken b hb
      rcases Option.map_eq_some_iff.mp taken with ⟨next, -, rfl⟩
      rcases List.mem_append.mp hb with hb | hb
      · exact good b hb
      · exact (each t.state a).mpr meets b hb

end

/-! ### Parts of a state -/

/-- A part of a list of parts after the `i`-th has moved. -/
theorem getElem?_set_cases {parts : List α} {i j : Nat} {a b : α}
    (get : (parts.set i a)[j]? = some b) : i = j ∧ b = a ∨ i ≠ j ∧ parts[j]? = some b := by
  rw [List.getElem?_set] at get
  split at get
  · next same =>
    obtain ⟨_, moved⟩ := Option.ite_none_right_eq_some.mp get
    exact .inl ⟨same, (Option.some.inj moved).symm⟩
  · next other => exact .inr ⟨other, get⟩

/-! ### Loops -/

/-- Each element of the list meets `ok` in the state that the ones before it leave. -/
def FoldMeets (f : σ → α → σ) (ok : σ → α → Prop) : σ → List α → Prop
  | _, [] => True
  | s, a :: as => ok s a ∧ FoldMeets f ok (f s a) as

theorem foldMeets_append {f : σ → α → σ} {s : σ} {as bs : List α} :
    FoldMeets f ok s (as ++ bs) ↔ FoldMeets f ok s as ∧ FoldMeets f ok (as.foldl f s) bs := by
  induction as generalizing s with
  | nil => exact ⟨fun h ↦ ⟨trivial, h⟩, And.right⟩
  | cons a as ih => rw [List.cons_append, FoldMeets, FoldMeets, ih, and_assoc, List.foldl_cons]

/-- A property that every admitted round of a loop keeps. -/
theorem FoldMeets.invariant {f : σ → α → σ} {P : σ → Prop} {s : σ} {as : List α}
    (meets : FoldMeets f ok s as) (start : P s)
    (keep : ∀ t, ∀ a ∈ as, P t → ok t a → P (f t a)) : P (as.foldl f s) := by
  induction as generalizing s with
  | nil => exact start
  | cons a as ih =>
    have next := keep s a List.mem_cons_self start meets.1
    exact ih meets.2 next fun t b mem ↦ keep t b (List.mem_cons_of_mem _ mem)

end ProbingBaselines.Lib
