import Mathlib.Data.List.Basic
import Mathlib.Data.List.Nodup

/-!
# Keyed trees

General support: trees whose inner nodes carry a label and a list of children under keys, as nested
dicts and lists are. A forest is looked up and assigned like a dict; `traverse` visits the leaves in
order, `Same` compares two trees up to the order of the children.
-/

namespace ProbingBaselines.Lib

mutual

/-- A leaf, or a labelled node with its children. -/
inductive KeyedTree (ι κ α : Type) where
  | leaf (value : α)
  | node (label : ι) (children : KeyedForest ι κ α)

/-- Trees under keys, in order. -/
inductive KeyedForest (ι κ α : Type) where
  | nil
  | cons (key : κ) (child : KeyedTree ι κ α) (rest : KeyedForest ι κ α)

end

variable {ι κ α β γ : Type}

namespace KeyedForest

def keys : KeyedForest ι κ α → List κ
  | .nil => []
  | .cons key _ rest => key :: rest.keys

def entries : KeyedForest ι κ α → List (κ × KeyedTree ι κ α)
  | .nil => []
  | .cons key child rest => (key, child) :: rest.entries

section Lookup

variable [DecidableEq κ]

def get? : KeyedForest ι κ α → κ → Option (KeyedTree ι κ α)
  | .nil, _ => none
  | .cons key child rest, k => if k = key then some child else rest.get? k

/-- Assign a child: in its place if the key is there, at the end otherwise. -/
def set : KeyedForest ι κ α → κ → KeyedTree ι κ α → KeyedForest ι κ α
  | .nil, k, t => .cons k t .nil
  | .cons key child rest, k, t =>
    if k = key then .cons key t rest else .cons key child (rest.set k t)

theorem get?_set (f : KeyedForest ι κ α) {k k' : κ} {t : KeyedTree ι κ α} :
    (f.set k t).get? k' = if k' = k then some t else f.get? k' := by
  match f with
  | .nil => simp only [set, get?]
  | .cons key child rest =>
    by_cases here : k = key
    · subst here
      by_cases eq : k' = k
      · simp only [set, get?, eq, if_true]
      · simp only [set, get?, eq, if_true, if_false]
    · by_cases eq : k' = k
      · subst eq
        simp only [set, get?, here, if_false, if_true, get?_set rest]
      · simp only [set, get?, here, eq, if_false, get?_set rest]

theorem get?_set_self (f : KeyedForest ι κ α) {k : κ} {t : KeyedTree ι κ α} :
    (f.set k t).get? k = some t := by
  rw [get?_set, if_pos rfl]

theorem get?_set_of_ne (f : KeyedForest ι κ α) {k k' : κ} {t : KeyedTree ι κ α} (ne : k' ≠ k) :
    (f.set k t).get? k' = f.get? k' := by
  rw [get?_set, if_neg ne]

/-- Assigning a child that is there changes nothing. -/
theorem set_get? {f : KeyedForest ι κ α} {k : κ} {t : KeyedTree ι κ α} (h : f.get? k = some t) :
    f.set k t = f := by
  match f with
  | .nil => cases h
  | .cons key child rest =>
    simp only [get?] at h
    split at h
    · next eq =>
      cases h
      simp only [set, eq, if_true]
    · next ne => simp only [set, ne, if_false, set_get? h]

theorem mem_keys_iff (f : KeyedForest ι κ α) {k : κ} : k ∈ f.keys ↔ ∃ t, f.get? k = some t := by
  match f with
  | .nil =>
    simp only [keys, get?]
    constructor
    · intro h
      contradiction
    · rintro ⟨t, h⟩
      cases h
  | .cons key child rest =>
    simp only [keys, get?, List.mem_cons]
    by_cases eq : k = key
    · simp only [eq, if_true, true_or, Option.some.injEq, exists_eq']
    · simp only [eq, if_false, false_or, mem_keys_iff rest]

theorem mem_keys_of_get? {f : KeyedForest ι κ α} {k : κ} {t : KeyedTree ι κ α}
    (h : f.get? k = some t) : k ∈ f.keys :=
  f.mem_keys_iff.mpr ⟨t, h⟩

theorem mem_keys_set (f : KeyedForest ι κ α) {k k' : κ} {t : KeyedTree ι κ α} :
    k' ∈ (f.set k t).keys ↔ k' = k ∨ k' ∈ f.keys := by
  rw [mem_keys_iff, mem_keys_iff, get?_set]
  by_cases eq : k' = k
  · simp only [eq, if_true, Option.some.injEq, exists_eq', true_or]
  · simp only [eq, if_false, false_or]

theorem mem_entries_of_get? {f : KeyedForest ι κ α} {k : κ} {t : KeyedTree ι κ α}
    (h : f.get? k = some t) : (k, t) ∈ f.entries := by
  match f with
  | .nil => cases h
  | .cons key child rest =>
    simp only [get?] at h
    split at h
    · next eq =>
      cases h
      rw [eq]
      exact List.mem_cons_self
    · exact List.mem_cons_of_mem _ (mem_entries_of_get? h)

end Lookup

end KeyedForest

/-! ## What the leaves carry -/

mutual

/-- Collect what `g` finds in the leaves, in order. -/
def KeyedTree.collect (g : α → List β) : KeyedTree ι κ α → List β
  | .leaf a => g a
  | .node _ children => children.collect g

def KeyedForest.collect (g : α → List β) : KeyedForest ι κ α → List β
  | .nil => []
  | .cons _ child rest => child.collect g ++ rest.collect g

end

mutual

theorem KeyedTree.mem_collect {g : α → List β} {b : β} (t : KeyedTree ι κ α) :
    b ∈ t.collect g ↔ ∃ a ∈ t.collect (fun a ↦ [a]), b ∈ g a := by
  match t with
  | .leaf a => simp only [KeyedTree.collect, List.mem_singleton, exists_eq_left]
  | .node label children => exact children.mem_collect

theorem KeyedForest.mem_collect {g : α → List β} {b : β} (f : KeyedForest ι κ α) :
    b ∈ f.collect g ↔ ∃ a ∈ f.collect (fun a ↦ [a]), b ∈ g a := by
  match f with
  | .nil => simp only [KeyedForest.collect, List.not_mem_nil, false_and, exists_false]
  | .cons key child rest =>
    simp only [KeyedForest.collect, List.mem_append, child.mem_collect, rest.mem_collect,
      or_and_right, exists_or]

end

section Collect

variable [DecidableEq κ] {g : α → List β}

theorem KeyedForest.collect_get?_sublist {f : KeyedForest ι κ α} {k : κ} {t : KeyedTree ι κ α}
    (h : f.get? k = some t) : (t.collect g).Sublist (f.collect g) := by
  match f with
  | .nil => cases h
  | .cons key child rest =>
    simp only [get?] at h
    simp only [collect]
    split at h
    · cases h
      exact List.sublist_append_left _ _
    · exact (collect_get?_sublist h).trans (List.sublist_append_right _ _)

/-- Under a pairwise relation what two different children carry is related. -/
theorem KeyedForest.collect_cross {R : β → β → Prop} (symm : ∀ a b, R a b → R b a)
    {f : KeyedForest ι κ α} (pairwise : (f.collect g).Pairwise R) {k k' : κ}
    {t t' : KeyedTree ι κ α} (h : f.get? k = some t) (h' : f.get? k' = some t') (ne : k ≠ k')
    {a b : β} (ha : a ∈ t.collect g) (hb : b ∈ t'.collect g) : R a b := by
  match f with
  | .nil => cases h
  | .cons key child rest =>
    simp only [collect, List.pairwise_append] at pairwise
    rcases pairwise with ⟨-, later, cross⟩
    simp only [get?] at h h'
    by_cases eq : k = key
    · subst eq
      rw [if_pos rfl] at h
      rw [if_neg (Ne.symm ne)] at h'
      cases h
      exact cross a ha b ((collect_get?_sublist h').subset hb)
    · rw [if_neg eq] at h
      by_cases eq' : k' = key
      · subst eq'
        rw [if_pos rfl] at h'
        cases h'
        exact symm b a (cross b hb a ((collect_get?_sublist h).subset ha))
      · rw [if_neg eq'] at h'
        exact collect_cross symm later h h' ne ha hb

/-- A child that carries part of what it replaces makes the forest carry part of what it did. -/
theorem KeyedForest.collect_set_sublist {f : KeyedForest ι κ α} {k : κ} {t t' : KeyedTree ι κ α}
    (h : f.get? k = some t) (sub : (t'.collect g).Sublist (t.collect g)) :
    ((f.set k t').collect g).Sublist (f.collect g) := by
  match f with
  | .nil => cases h
  | .cons key child rest =>
    simp only [get?] at h
    by_cases eq : k = key
    · rw [if_pos eq] at h
      cases h
      simp only [set, eq, if_true, collect]
      exact sub.append (List.Sublist.refl _)
    · rw [if_neg eq] at h
      simp only [set, eq, if_false, collect]
      exact (List.Sublist.refl _).append (collect_set_sublist h sub)

/-- A child that carries nothing does not add to the forest. -/
theorem KeyedForest.collect_set_nil {f : KeyedForest ι κ α} {k : κ} {t : KeyedTree ι κ α}
    (h : t.collect g = []) : ((f.set k t).collect g).Sublist (f.collect g) := by
  match f with
  | .nil =>
    simp only [set, collect, h, List.append_nil]
    exact List.Sublist.refl _
  | .cons key child rest =>
    by_cases eq : k = key
    · simp only [set, eq, if_true, collect, h, List.nil_append]
      exact List.sublist_append_right _ _
    · simp only [set, eq, if_false, collect]
      exact (List.Sublist.refl _).append (collect_set_nil h)

end Collect

/-! ## Traversal -/

mutual

/-- Rebuild a tree from what `visit` makes of its leaves, in order. -/
def KeyedTree.traverse {m : Type → Type} [Monad m] (visit : α → m β) :
    KeyedTree ι κ α → m (KeyedTree ι κ β)
  | .leaf a => do
    let b ← visit a
    pure (.leaf b)
  | .node label children => do
    let children' ← children.traverse visit
    pure (.node label children')

def KeyedForest.traverse {m : Type → Type} [Monad m] (visit : α → m β) :
    KeyedForest ι κ α → m (KeyedForest ι κ β)
  | .nil => pure .nil
  | .cons key child rest => do
    let child' ← child.traverse visit
    let rest' ← rest.traverse visit
    pure (.cons key child' rest')

end

section TraverseOption

variable {visit : α → Option β}

theorem KeyedTree.traverse_leaf {a : α} :
    (KeyedTree.leaf a : KeyedTree ι κ α).traverse visit = (visit a).map .leaf := by
  cases h : visit a <;> simp [KeyedTree.traverse, h]

theorem KeyedTree.traverse_node {label : ι} {children : KeyedForest ι κ α} :
    (KeyedTree.node label children).traverse visit =
      (children.traverse visit).map (.node label) := by
  cases h : children.traverse visit <;> simp [KeyedTree.traverse, h]

theorem KeyedForest.traverse_cons {key : κ} {child : KeyedTree ι κ α} {rest : KeyedForest ι κ α} :
    (KeyedForest.cons key child rest).traverse visit =
      (child.traverse visit).bind fun c ↦ (rest.traverse visit).map fun r ↦ .cons key c r := by
  cases h : child.traverse visit with
  | none => simp [KeyedForest.traverse, h]
  | some c => cases hr : rest.traverse visit <;> simp [KeyedForest.traverse, h, hr]

mutual

/-- A traversal succeeds if it succeeds at every leaf. -/
theorem KeyedTree.exists_traverse (t : KeyedTree ι κ α)
    (all : ∀ a ∈ t.collect (fun a ↦ [a]), ∃ b, visit a = some b) :
    ∃ u, t.traverse visit = some u := by
  match t with
  | .leaf a =>
    rcases all a (by simp only [KeyedTree.collect, List.mem_singleton]) with ⟨b, hb⟩
    exact ⟨.leaf b, by rw [KeyedTree.traverse_leaf, hb, Option.map_some]⟩
  | .node label children =>
    rcases children.exists_traverse all with ⟨u, hu⟩
    exact ⟨.node label u, by rw [KeyedTree.traverse_node, hu, Option.map_some]⟩

theorem KeyedForest.exists_traverse (f : KeyedForest ι κ α)
    (all : ∀ a ∈ f.collect (fun a ↦ [a]), ∃ b, visit a = some b) :
    ∃ u, f.traverse visit = some u := by
  match f with
  | .nil => exact ⟨.nil, rfl⟩
  | .cons key child rest =>
    simp only [KeyedForest.collect, List.mem_append] at all
    rcases child.exists_traverse fun a ha ↦ all a (.inl ha) with ⟨c, hc⟩
    rcases rest.exists_traverse fun a ha ↦ all a (.inr ha) with ⟨r, hr⟩
    refine ⟨.cons key c r, ?_⟩
    rw [KeyedForest.traverse_cons, hc, Option.bind_some, hr, Option.map_some]

end

mutual

/-- Traversals with visitors that agree on the leaves agree. -/
theorem KeyedTree.traverse_congr {visit' : α → Option β} (t : KeyedTree ι κ α)
    (same : ∀ a ∈ t.collect (fun a ↦ [a]), visit a = visit' a) :
    t.traverse visit = t.traverse visit' := by
  match t with
  | .leaf a =>
    rw [KeyedTree.traverse_leaf, KeyedTree.traverse_leaf,
      same a (by simp only [KeyedTree.collect, List.mem_singleton])]
  | .node label children =>
    rw [KeyedTree.traverse_node, KeyedTree.traverse_node, children.traverse_congr same]

theorem KeyedForest.traverse_congr {visit' : α → Option β} (f : KeyedForest ι κ α)
    (same : ∀ a ∈ f.collect (fun a ↦ [a]), visit a = visit' a) :
    f.traverse visit = f.traverse visit' := by
  match f with
  | .nil => rfl
  | .cons key child rest =>
    simp only [KeyedForest.collect, List.mem_append] at same
    rw [KeyedForest.traverse_cons, KeyedForest.traverse_cons,
      child.traverse_congr fun a ha ↦ same a (.inl ha),
      rest.traverse_congr fun a ha ↦ same a (.inr ha)]

end

/-- A traversal keeps the keys and traverses the children. -/
theorem KeyedForest.get?_traverse [DecidableEq κ] {f : KeyedForest ι κ α} {u : KeyedForest ι κ β}
    (h : f.traverse visit = some u) (k : κ) :
    u.get? k = (f.get? k).bind fun t ↦ t.traverse visit := by
  match f with
  | .nil =>
    cases h
    rfl
  | .cons key child rest =>
    rw [KeyedForest.traverse_cons, Option.bind_eq_some_iff] at h
    rcases h with ⟨c, hc, h⟩
    rcases Option.map_eq_some_iff.mp h with ⟨r, hr, rfl⟩
    simp only [get?]
    split
    · rw [Option.bind_some, hc]
    · exact get?_traverse hr k

theorem KeyedForest.keys_traverse {f : KeyedForest ι κ α} {u : KeyedForest ι κ β}
    (h : f.traverse visit = some u) : u.keys = f.keys := by
  match f with
  | .nil =>
    cases h
    rfl
  | .cons key child rest =>
    rw [KeyedForest.traverse_cons, Option.bind_eq_some_iff] at h
    rcases h with ⟨c, hc, h⟩
    rcases Option.map_eq_some_iff.mp h with ⟨r, hr, rfl⟩
    simp only [keys, keys_traverse hr]

end TraverseOption

/-! ## Equality up to the order of the children -/

section Same

variable [DecidableEq κ]

mutual

/-- The same leaves under the same keys. -/
def KeyedTree.Same : KeyedTree ι κ α → KeyedTree ι κ α → Prop
  | .leaf a, .leaf b => a = b
  | .node label f, .node label' g =>
    label = label' ∧ KeyedForest.Within f g ∧ ∀ k ∈ g.keys, k ∈ f.keys
  | _, _ => False

/-- Every child is there with the same leaves. -/
def KeyedForest.Within : KeyedForest ι κ α → KeyedForest ι κ α → Prop
  | .nil, _ => True
  | .cons key child rest, g =>
    (∃ t, g.get? key = some t ∧ KeyedTree.Same child t) ∧ KeyedForest.Within rest g

end

theorem KeyedForest.within_iff {f g : KeyedForest ι κ α} :
    f.Within g ↔ ∀ e ∈ f.entries, ∃ t, g.get? e.1 = some t ∧ e.2.Same t := by
  match f with
  | .nil =>
    simp only [KeyedForest.Within, entries, true_iff]
    intro e he
    contradiction
  | .cons key child rest =>
    rw [KeyedForest.Within, entries, List.forall_mem_cons, within_iff (f := rest)]

end Same

end ProbingBaselines.Lib
