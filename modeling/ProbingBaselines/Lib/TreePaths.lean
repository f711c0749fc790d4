import ProbingBaselines.Lib.KeyedTree

/-!
# Paths in keyed trees

General support: a path is a list of keys, and leads to a node of the tree. `nodes` lists the paths
of all nodes below the root in the order in which they are visited, each before those below it.
Where no two children have the same key, these are all paths, each of them once.
-/

namespace ProbingBaselines.Lib

variable {ι κ α : Type}

mutual

/-- The nodes below the root, with their paths. -/
def KeyedTree.nodes : KeyedTree ι κ α → List (List κ × KeyedTree ι κ α)
  | .leaf _ => []
  | .node _ children => children.nodes

def KeyedForest.nodes : KeyedForest ι κ α → List (List κ × KeyedTree ι κ α)
  | .nil => []
  | .cons key child rest =>
    ([key], child) :: child.nodes.map (fun e ↦ (key :: e.1, e.2)) ++ rest.nodes

end

mutual

/-- No two children have the same key. -/
def KeyedTree.Distinct : KeyedTree ι κ α → Prop
  | .leaf _ => True
  | .node _ children => children.Distinct

def KeyedForest.Distinct : KeyedForest ι κ α → Prop
  | .nil => True
  | .cons key child rest => key ∉ rest.keys ∧ child.Distinct ∧ rest.Distinct

end

section

variable [DecidableEq κ]

/-- The node that a path leads to. -/
def KeyedTree.at? : KeyedTree ι κ α → List κ → Option (KeyedTree ι κ α)
  | t, [] => some t
  | .leaf _, _ :: _ => none
  | .node _ children, key :: keys => (children.get? key).bind fun child ↦ child.at? keys

@[simp] theorem KeyedTree.at?_nil (t : KeyedTree ι κ α) : t.at? [] = some t := by
  cases t <;> rfl

theorem KeyedTree.at?_node {label : ι} {children : KeyedForest ι κ α} {key : κ} {keys : List κ} :
    (KeyedTree.node label children).at? (key :: keys) =
      (children.get? key).bind fun child ↦ child.at? keys := rfl

theorem KeyedForest.get?_distinct {f : KeyedForest ι κ α} {k : κ} {t : KeyedTree ι κ α}
    (distinct : f.Distinct) (h : f.get? k = some t) : t.Distinct := by
  match f with
  | .nil => cases h
  | .cons key child rest =>
    simp only [KeyedForest.Distinct] at distinct
    simp only [get?] at h
    split at h
    · cases h
      exact distinct.2.1
    · exact get?_distinct distinct.2.2 h

theorem KeyedForest.set_distinct {f : KeyedForest ι κ α} {k : κ} {t : KeyedTree ι κ α}
    (distinct : f.Distinct) (new : t.Distinct) : (f.set k t).Distinct := by
  match f with
  | .nil => exact ⟨List.not_mem_nil, new, trivial⟩
  | .cons key child rest =>
    simp only [KeyedForest.Distinct] at distinct
    simp only [set]
    split
    · exact ⟨distinct.1, new, distinct.2.2⟩
    · next ne =>
      refine ⟨?_, distinct.2.1, set_distinct distinct.2.2 new⟩
      rw [mem_keys_set, not_or]
      exact ⟨Ne.symm ne, distinct.1⟩

mutual

/-- The nodes are those that paths lead to. -/
theorem KeyedTree.mem_nodes {t u : KeyedTree ι κ α} {path : List κ} (distinct : t.Distinct) :
    (path, u) ∈ t.nodes ↔ path ≠ [] ∧ t.at? path = some u := by
  match t, path with
  | .leaf _, [] => simp [KeyedTree.nodes]
  | .leaf _, _ :: _ => simp [KeyedTree.nodes, KeyedTree.at?]
  | .node _ children, [] =>
    rw [KeyedTree.nodes, children.mem_nodes distinct]
    simp
  | .node _ children, key :: keys =>
    rw [KeyedTree.nodes, children.mem_nodes distinct, KeyedTree.at?_node, Option.bind_eq_some_iff]
    simp

theorem KeyedForest.mem_nodes {f : KeyedForest ι κ α} {u : KeyedTree ι κ α} {path : List κ}
    (distinct : f.Distinct) :
    (path, u) ∈ f.nodes ↔ ∃ key keys, path = key :: keys ∧
      ∃ child, f.get? key = some child ∧ child.at? keys = some u := by
  match f with
  | .nil => simp [KeyedForest.nodes, KeyedForest.get?]
  | .cons key child rest =>
    have below : ∀ keys, (keys, u) ∈ child.nodes ↔ keys ≠ [] ∧ child.at? keys = some u :=
      fun keys ↦ child.mem_nodes distinct.2.1
    have other : (path, u) ∈ rest.nodes ↔ _ := rest.mem_nodes distinct.2.2
    rw [KeyedForest.nodes, List.mem_append, List.mem_cons, List.mem_map, other]
    constructor
    · rintro ((eq | ⟨⟨keys, v⟩, mem, eq⟩) | ⟨key', keys, rfl, child', get, at_keys⟩)
      · rw [Prod.mk.injEq] at eq
        exact ⟨key, [], eq.1, child, by simp [KeyedForest.get?], by simp [eq.2]⟩
      · cases eq
        exact ⟨key, keys, rfl, child, by simp [KeyedForest.get?], ((below keys).mp mem).2⟩
      · have ne : key' ≠ key := by
          rintro rfl
          exact distinct.1 (KeyedForest.mem_keys_of_get? get)
        exact ⟨key', keys, rfl, child', by simp [KeyedForest.get?, ne, get], at_keys⟩
    · rintro ⟨key', keys, rfl, child', get, at_keys⟩
      by_cases eq : key' = key
      · subst eq
        simp only [KeyedForest.get?, if_true, Option.some_inj] at get
        subst get
        left
        cases keys with
        | nil =>
          rw [KeyedTree.at?_nil, Option.some_inj] at at_keys
          exact .inl (by rw [at_keys])
        | cons k ks => exact .inr ⟨(k :: ks, u), (below _).mpr ⟨by simp, at_keys⟩, rfl⟩
      · simp only [KeyedForest.get?, eq, if_false] at get
        exact .inr ⟨key', keys, rfl, child', get, at_keys⟩

end

end

/-- A path starts with one of the keys. -/
theorem KeyedForest.mem_keys_of_mem_nodes {f : KeyedForest ι κ α} {e : List κ × KeyedTree ι κ α}
    (h : e ∈ f.nodes) : ∃ key ∈ f.keys, ∃ keys, e.1 = key :: keys := by
  match f with
  | .nil =>
    rw [KeyedForest.nodes] at h
    contradiction
  | .cons key child rest =>
    rw [KeyedForest.nodes, List.mem_append, List.mem_cons, List.mem_map] at h
    rcases h with (rfl | ⟨below, -, rfl⟩) | later
    · exact ⟨key, List.mem_cons_self, [], rfl⟩
    · exact ⟨key, List.mem_cons_self, below.1, rfl⟩
    · rcases mem_keys_of_mem_nodes later with ⟨key', mem, keys, eq⟩
      exact ⟨key', List.mem_cons_of_mem _ mem, keys, eq⟩

theorem KeyedTree.path_ne_nil {t : KeyedTree ι κ α} {e : List κ × KeyedTree ι κ α}
    (h : e ∈ t.nodes) : e.1 ≠ [] := by
  cases t with
  | leaf a =>
    rw [KeyedTree.nodes] at h
    contradiction
  | node label children =>
    rcases children.mem_keys_of_mem_nodes h with ⟨key, -, keys, eq⟩
    rw [eq]
    exact List.cons_ne_nil key keys

mutual

/-- Each node is listed once. -/
theorem KeyedTree.nodes_nodup {t : KeyedTree ι κ α} (distinct : t.Distinct) :
    (t.nodes.map Prod.fst).Nodup := by
  match t with
  | .leaf _ => exact List.nodup_nil
  | .node _ children => exact children.nodes_nodup distinct

theorem KeyedForest.nodes_nodup {f : KeyedForest ι κ α} (distinct : f.Distinct) :
    (f.nodes.map Prod.fst).Nodup := by
  match f with
  | .nil => exact List.nodup_nil
  | .cons key child rest =>
    simp only [KeyedForest.Distinct] at distinct
    have below := child.nodes_nodup distinct.2.1
    have later := rest.nodes_nodup distinct.2.2
    have first : (([key], child) :: child.nodes.map fun e ↦ (key :: e.1, e.2)).map Prod.fst =
        [key] :: (child.nodes.map Prod.fst).map (key :: ·) := by
      simp
    rw [KeyedForest.nodes, List.map_append, first, List.nodup_append, List.nodup_cons]
    refine ⟨⟨?_, below.map (List.cons_injective)⟩, later, ?_⟩
    · intro mem
      rcases List.mem_map.mp mem with ⟨path, hpath, eq⟩
      rcases List.mem_map.mp hpath with ⟨e, he, rfl⟩
      exact child.path_ne_nil he (List.tail_eq_of_cons_eq eq)
    · intro path mem path' mem' same
      rcases List.mem_map.mp mem' with ⟨e, he, rfl⟩
      rcases rest.mem_keys_of_mem_nodes he with ⟨key', hkey, keys, eq⟩
      have ne : key' ≠ key := by
        rintro rfl
        exact distinct.1 hkey
      rw [same, eq, List.mem_cons, List.mem_map] at mem
      rcases mem with one | ⟨keys', -, more⟩
      · exact ne (List.head_eq_of_cons_eq one)
      · exact ne (List.head_eq_of_cons_eq more).symm

end

end ProbingBaselines.Lib
