import Mathlib.Data.List.Basic
import Mathlib.Data.List.Induction
import Mathlib.Data.List.Nodup
import Mathlib.Data.List.Perm.Basic
import Mathlib.Data.List.Perm.Lattice

/-!
# Insertion-ordered dictionaries

General support: a finite map that keeps its keys in the order they were first inserted, as a
Python `dict` does. Assigning to a key that is there keeps its place.
-/

namespace ProbingBaselines.Lib

universe u v

/-- Keys and values in insertion order, each key once. -/
@[ext]
structure Dict (κ : Type u) (ν : Type v) where
  items : List (κ × ν)
  nodup : (items.map Prod.fst).Nodup

namespace Dict

variable {κ : Type u} {ν : Type v}

def keys (d : Dict κ ν) : List κ := d.items.map Prod.fst

def values (d : Dict κ ν) : List ν := d.items.map Prod.snd

instance : Membership κ (Dict κ ν) := ⟨fun d k ↦ k ∈ d.keys⟩

theorem mem_def {d : Dict κ ν} {k : κ} : k ∈ d ↔ k ∈ d.keys := Iff.rfl

theorem mem_iff {d : Dict κ ν} {k : κ} : k ∈ d ↔ ∃ v, (k, v) ∈ d.items := by
  rw [mem_def, keys, List.mem_map]
  constructor
  · rintro ⟨⟨k', v⟩, h, rfl⟩
    exact ⟨v, h⟩
  · rintro ⟨v, h⟩
    exact ⟨(k, v), h, rfl⟩

theorem keys_nodup (d : Dict κ ν) : d.keys.Nodup := d.nodup

theorem mem_of_mem_items {d : Dict κ ν} {e : κ × ν} (h : e ∈ d.items) : e.1 ∈ d :=
  List.mem_map_of_mem h

theorem items_nodup (d : Dict κ ν) : d.items.Nodup := d.nodup.of_map _

/-- A key has one value. -/
theorem value_unique {d : Dict κ ν} {k : κ} {v w : ν} (hv : (k, v) ∈ d.items)
    (hw : (k, w) ∈ d.items) : v = w := by
  have := List.inj_on_of_nodup_map d.nodup hv hw rfl
  exact (Prod.mk.inj this).2

def empty : Dict κ ν := ⟨[], List.nodup_nil⟩

@[simp]
theorem items_empty : (empty : Dict κ ν).items = [] := rfl

@[simp]
theorem not_mem_empty (k : κ) : k ∉ (empty : Dict κ ν) := List.not_mem_nil

theorem eq_empty_of_items {d : Dict κ ν} (h : d.items = []) : d = empty := Dict.ext h

theorem not_mem_of_items {d : Dict κ ν} (h : d.items = []) (k : κ) : k ∉ d := by
  rw [eq_empty_of_items h]
  exact not_mem_empty k

/-- The items whose key satisfies `p`, in their order. -/
def filter (d : Dict κ ν) (p : κ → Bool) : Dict κ ν where
  items := d.items.filter fun e ↦ p e.1
  nodup := d.nodup.sublist (List.filter_sublist.map Prod.fst)

@[simp]
theorem mem_filter {d : Dict κ ν} {p : κ → Bool} {k : κ} : k ∈ d.filter p ↔ k ∈ d ∧ p k := by
  simp only [mem_iff, filter, List.mem_filter, exists_and_right]

/-- The dictionary with `f` applied to each value. -/
def mapValues {μ : Type v} (f : ν → μ) (d : Dict κ ν) : Dict κ μ where
  items := d.items.map fun e ↦ (e.1, f e.2)
  nodup := by
    rw [List.map_map]
    exact d.nodup

variable [DecidableEq κ]

instance (k : κ) (d : Dict κ ν) : Decidable (k ∈ d) :=
  inferInstanceAs (Decidable (k ∈ d.keys))

instance [DecidableEq ν] : DecidableEq (Dict κ ν) := fun d e ↦
  decidable_of_iff (d.items = e.items) ⟨Dict.ext, congrArg items⟩

/-- `d.get(k)`. -/
def get? (d : Dict κ ν) (k : κ) : Option ν := (d.items.find? fun e ↦ e.1 = k).map Prod.snd

theorem get?_eq_some_iff {d : Dict κ ν} {k : κ} {v : ν} :
    d.get? k = some v ↔ (k, v) ∈ d.items := by
  rw [get?, Option.map_eq_some_iff]
  constructor
  · rintro ⟨⟨k', v'⟩, found, rfl⟩
    have key : k' = k := by simpa using List.find?_some found
    rw [← key]
    exact List.mem_of_find?_eq_some found
  · intro h
    cases found : d.items.find? fun e ↦ e.1 = k with
    | none =>
      rw [List.find?_eq_none] at found
      have := found (k, v) h
      simp at this
    | some e =>
      have key : e.1 = k := by simpa using List.find?_some found
      have mem : (k, e.2) ∈ d.items := by
        rw [← key]
        exact List.mem_of_find?_eq_some found
      exact ⟨e, rfl, value_unique mem h⟩

theorem get?_eq_none_iff {d : Dict κ ν} {k : κ} : d.get? k = none ↔ k ∉ d := by
  rw [mem_iff, Option.eq_none_iff_forall_not_mem]
  constructor
  · rintro h ⟨v, hv⟩
    exact h v (get?_eq_some_iff.mpr hv)
  · intro h v hv
    exact h ⟨v, get?_eq_some_iff.mp hv⟩

/-- `del d[k]`. -/
def erase (d : Dict κ ν) (k : κ) : Dict κ ν := d.filter fun k' ↦ k' ≠ k

@[simp]
theorem mem_erase {d : Dict κ ν} {k k' : κ} : k' ∈ d.erase k ↔ k' ∈ d ∧ k' ≠ k := by
  simp [erase]

/-- Changing the value of a key keeps the keys. -/
theorem keys_replace (items : List (κ × ν)) (k : κ) (v : ν) :
    (items.map fun e ↦ if e.1 = k then (k, v) else e).map Prod.fst = items.map Prod.fst := by
  rw [List.map_map]
  apply List.map_congr_left
  intro e _
  by_cases he : e.1 = k <;> simp [he]

/-- `d[k] = v`. -/
def insert (d : Dict κ ν) (k : κ) (v : ν) : Dict κ ν where
  items :=
    if k ∈ d then d.items.map fun e ↦ if e.1 = k then (k, v) else e
    else d.items ++ [(k, v)]
  nodup := by
    split
    · rw [keys_replace]
      exact d.nodup
    · next fresh =>
      rw [List.map_append, List.nodup_append]
      refine ⟨d.nodup, List.nodup_singleton _, ?_⟩
      intro a ha b hb eq
      rw [List.map_singleton, List.mem_singleton] at hb
      rw [eq, hb] at ha
      exact fresh ha

theorem items_insert_of_not_mem {d : Dict κ ν} {k : κ} (v : ν) (h : k ∉ d) :
    (d.insert k v).items = d.items ++ [(k, v)] := if_neg h

theorem keys_insert_of_not_mem {d : Dict κ ν} {k : κ} (v : ν) (h : k ∉ d) :
    (d.insert k v).keys = d.keys ++ [k] := by
  rw [keys, items_insert_of_not_mem v h, List.map_append]
  rfl

theorem keys_insert_of_mem {d : Dict κ ν} {k : κ} (v : ν) (h : k ∈ d) :
    (d.insert k v).keys = d.keys := by
  have items : (d.insert k v).items = d.items.map fun e ↦ if e.1 = k then (k, v) else e :=
    if_pos h
  rw [keys, items, keys_replace]
  rfl

theorem mem_items_insert {d : Dict κ ν} {k k' : κ} {v v' : ν} :
    (k', v') ∈ (d.insert k v).items ↔ k' = k ∧ v' = v ∨ k' ≠ k ∧ (k', v') ∈ d.items := by
  simp only [insert]
  split
  · next known =>
    rw [List.mem_map]
    constructor
    · rintro ⟨e, he, eq⟩
      by_cases hk : e.1 = k
      · rw [if_pos hk] at eq
        cases eq
        exact .inl ⟨rfl, rfl⟩
      · rw [if_neg hk] at eq
        subst eq
        exact .inr ⟨hk, he⟩
    · rintro (⟨rfl, rfl⟩ | ⟨ne, mem⟩)
      · rcases mem_iff.mp known with ⟨w, hw⟩
        exact ⟨(k', w), hw, if_pos rfl⟩
      · exact ⟨(k', v'), mem, if_neg ne⟩
  · next fresh =>
    rw [List.mem_append, List.mem_singleton, Prod.mk.injEq]
    constructor
    · rintro (mem | eq)
      · right
        refine ⟨?_, mem⟩
        rintro rfl
        exact fresh (mem_iff.mpr ⟨_, mem⟩)
      · exact .inl eq
    · rintro (eq | ⟨-, mem⟩)
      · exact .inr eq
      · exact .inl mem

@[simp]
theorem mem_insert {d : Dict κ ν} {k k' : κ} {v : ν} : k' ∈ d.insert k v ↔ k' = k ∨ k' ∈ d := by
  simp only [mem_iff, mem_items_insert]
  by_cases h : k' = k <;> simp [h]

theorem get?_insert {d : Dict κ ν} {k k' : κ} {v : ν} :
    (d.insert k v).get? k' = if k' = k then some v else d.get? k' := by
  ext w
  rw [get?_eq_some_iff, mem_items_insert]
  split
  · next eq => simp [eq, eq_comm]
  · next ne => simp [ne, get?_eq_some_iff]

theorem get?_filter {d : Dict κ ν} {p : κ → Bool} {k : κ} :
    (d.filter p).get? k = if p k then d.get? k else none := by
  ext v
  rw [get?_eq_some_iff, filter, List.mem_filter, ← get?_eq_some_iff]
  split
  · next holds => simp [holds]
  · next fails => simp [fails]

/-- The items are given by the keys and their values. -/
theorem items_eq_map {d : Dict κ ν} {f : κ → ν} (h : ∀ k ∈ d, d.get? k = some (f k)) :
    d.items = d.keys.map fun k ↦ (k, f k) := by
  rw [keys, List.map_map]
  have same : d.items.map id = d.items.map ((fun k ↦ (k, f k)) ∘ Prod.fst) := by
    apply List.map_congr_left
    intro e he
    have value := get?_eq_some_iff.mp (h e.1 (mem_of_mem_items he))
    exact Prod.ext rfl (value_unique he value)
  rwa [List.map_id] at same

/-- A dictionary that has its keys from another one, and its values from the items of that. -/
theorem items_eq_map_items {μ : Type*} {d : Dict κ ν} {e : Dict κ μ} {f : κ → μ → ν}
    (keys : d.keys = e.keys) (h : ∀ x ∈ e.items, d.get? x.1 = some (f x.1 x.2)) :
    d.items = e.items.map fun x ↦ (x.1, f x.1 x.2) := by
  have same : ∀ x ∈ e.items, (x.1, d.get? x.1) = (x.1, some (f x.1 x.2)) := by
    intro x hx
    rw [h x hx]
  have own : ∀ x ∈ d.items, (x.1, d.get? x.1) = (x.1, some x.2) := by
    intro x hx
    rw [get?_eq_some_iff.mpr hx]
  have lists : d.items.map (fun x ↦ (x.1, some x.2)) =
      e.items.map fun x ↦ (x.1, some (f x.1 x.2)) := by
    rw [← List.map_congr_left own, ← List.map_congr_left same]
    have left : d.items.map (fun x ↦ (x.1, d.get? x.1)) = d.keys.map fun k ↦ (k, d.get? k) := by
      rw [Dict.keys, List.map_map]
      rfl
    have right : e.items.map (fun x ↦ (x.1, d.get? x.1)) = e.keys.map fun k ↦ (k, d.get? k) := by
      rw [Dict.keys, List.map_map]
      rfl
    rw [left, right, keys]
  have injective : Function.Injective fun x : κ × ν ↦ (x.1, some x.2) := by
    rintro ⟨k, v⟩ ⟨k', v'⟩ eq
    simpa using eq
  apply List.map_injective_iff.mpr injective
  rw [lists, List.map_map]
  rfl

/-- Each of the keys gets a value made from its old one. -/
def upsert (f : κ → Option ν → ν) (ks : List κ) (d : Dict κ ν) : Dict κ ν :=
  ks.foldl (fun d k ↦ d.insert k (f k (d.get? k))) d

theorem upsert_concat (f : κ → Option ν → ν) (ks : List κ) (k : κ) (d : Dict κ ν) :
    d.upsert f (ks ++ [k]) = (d.upsert f ks).insert k (f k ((d.upsert f ks).get? k)) := by
  simp [upsert]

theorem get?_upsert {f : κ → Option ν → ν} {ks : List κ} (nodup : ks.Nodup) {d : Dict κ ν}
    {k : κ} : (d.upsert f ks).get? k = if k ∈ ks then some (f k (d.get? k)) else d.get? k := by
  induction ks using List.reverseRecOn generalizing k with
  | nil => rfl
  | append_singleton ks k' ih =>
    rw [List.nodup_append] at nodup
    have fresh : k' ∉ ks := fun mem ↦ nodup.2.2 k' mem k' (by simp) rfl
    rw [upsert_concat, get?_insert, ih nodup.1, ih nodup.1, if_neg fresh]
    by_cases eq : k = k'
    · simp [eq]
    · simp [eq]

theorem keys_upsert_of_subset {f : κ → Option ν → ν} {ks : List κ} {d : Dict κ ν}
    (known : ∀ k ∈ ks, k ∈ d) : (d.upsert f ks).keys = d.keys := by
  induction ks using List.reverseRecOn with
  | nil => rfl
  | append_singleton ks k ih =>
    have same := ih fun k' hk' ↦ known k' (by simp [hk'])
    have mem : k ∈ d.upsert f ks := by
      rw [mem_def, same]
      exact known k (by simp)
    rw [upsert_concat, keys_insert_of_mem _ mem, same]

theorem keys_upsert_empty {f : κ → Option ν → ν} {ks : List κ} (nodup : ks.Nodup) :
    ((empty : Dict κ ν).upsert f ks).keys = ks := by
  induction ks using List.reverseRecOn with
  | nil => rfl
  | append_singleton ks k ih =>
    rw [List.nodup_append] at nodup
    have same := ih nodup.1
    have fresh : k ∉ (empty : Dict κ ν).upsert f ks := by
      rw [mem_def, same]
      exact fun mem ↦ nodup.2.2 k mem k (by simp) rfl
    rw [upsert_concat, keys_insert_of_not_mem _ fresh, same]

theorem items_upsert_empty {f : κ → Option ν → ν} {ks : List κ} (nodup : ks.Nodup) :
    ((empty : Dict κ ν).upsert f ks).items = ks.map fun k ↦ (k, f k none) := by
  have keys_eq := keys_upsert_empty (f := f) nodup
  rw [items_eq_map (f := fun k ↦ f k none), keys_eq]
  intro k hk
  rw [mem_def, keys_eq] at hk
  rw [get?_upsert nodup, if_pos hk]
  rfl

/-- Every key gets a new value. -/
theorem items_upsert_keys {f : κ → Option ν → ν} {ks : List κ} {d : Dict κ ν}
    (perm : d.keys.Perm ks) :
    (d.upsert f ks).items = d.items.map fun e ↦ (e.1, f e.1 (some e.2)) := by
  have nodup := perm.nodup_iff.mp d.keys_nodup
  have keys_eq : (d.upsert f ks).keys = d.keys :=
    keys_upsert_of_subset fun k hk ↦ perm.mem_iff.mpr hk
  rw [items_eq_map (f := fun k ↦ f k (d.get? k)), keys_eq, keys, List.map_map]
  · apply List.map_congr_left
    intro e he
    have value : d.get? e.1 = some e.2 := get?_eq_some_iff.mpr he
    simp only [Function.comp_apply, value]
  · intro k hk
    rw [mem_def, keys_eq] at hk
    rw [get?_upsert nodup, if_pos (perm.mem_iff.mp hk)]

/-- The dictionary built by assigning the items in turn. -/
def ofItems (items : List (κ × ν)) : Dict κ ν := items.foldl (fun d e ↦ d.insert e.1 e.2) empty

/-- Assigning fresh keys appends them. -/
theorem items_foldl_insert (items : List (κ × ν)) :
    ∀ d : Dict κ ν, (d.keys ++ items.map Prod.fst).Nodup →
      (items.foldl (fun d e ↦ d.insert e.1 e.2) d).items = d.items ++ items := by
  induction items with
  | nil => simp
  | cons e items ih =>
    intro d nodup
    have fresh : e.1 ∉ d := by
      intro mem
      rw [List.nodup_append] at nodup
      exact nodup.2.2 _ mem _ (by simp) rfl
    have items_eq := items_insert_of_not_mem e.2 fresh
    rw [List.foldl_cons, ih, items_eq, List.append_assoc]
    · rfl
    · rw [keys, items_eq]
      simpa [keys] using nodup

/-- `d.update(e)`. -/
def update (d e : Dict κ ν) : Dict κ ν := e.items.foldl (fun d x ↦ d.insert x.1 x.2) d

theorem keys_update {d e : Dict κ ν} (h : (d.keys ++ e.keys).Nodup) :
    (d.update e).keys = d.keys ++ e.keys := by
  rw [update, keys, items_foldl_insert e.items d h, List.map_append]
  rfl

/-- The value of a key after an update: the new one if there is one. -/
theorem get?_update {d e : Dict κ ν} {k : κ} :
    (d.update e).get? k = (e.get? k).or (d.get? k) := by
  have fold : ∀ items : List (κ × ν), (items.map Prod.fst).Nodup → ∀ d : Dict κ ν,
      (items.foldl (fun d x ↦ d.insert x.1 x.2) d).get? k =
        ((items.find? fun x ↦ x.1 = k).map Prod.snd).or (d.get? k) := by
    intro items
    induction items with
    | nil => exact fun _ d ↦ rfl
    | cons x items ih =>
      intro nodup d
      rw [List.map_cons, List.nodup_cons] at nodup
      rw [List.foldl_cons, ih nodup.2, get?_insert, List.find?_cons]
      by_cases eq : x.1 = k
      · have fresh : items.find? (fun y ↦ y.1 = k) = none := by
          rw [List.find?_eq_none]
          intro y hy key
          apply nodup.1
          rw [eq, ← of_decide_eq_true key]
          exact List.mem_map_of_mem hy
        simp [eq, fresh]
      · have ne : k ≠ x.1 := Ne.symm eq
        simp [eq, ne]
  exact fold e.items e.nodup d

/-- After a list of assignments a key has the last value it was given. -/
theorem get?_foldl_insert {β : Type*} (key : β → κ) (value : β → ν) (l : List β) (d : Dict κ ν)
    (k : κ) :
    (l.foldl (fun d e ↦ d.insert (key e) (value e)) d).get? k =
      ((l.filter fun e ↦ key e = k).getLast?.map value).or (d.get? k) := by
  induction l using List.reverseRecOn with
  | nil => rfl
  | append_singleton l e ih =>
    rw [List.foldl_concat, get?_insert, ih, List.filter_append]
    by_cases eq : key e = k
    · simp [eq]
    · simp [eq, Ne.symm eq]

theorem items_ofItems {items : List (κ × ν)} (h : (items.map Prod.fst).Nodup) :
    (ofItems items).items = items := by
  rw [ofItems, items_foldl_insert items empty (by simpa [keys] using h)]
  rfl

theorem mem_ofItems {items : List (κ × ν)} {k : κ} :
    k ∈ ofItems items ↔ k ∈ items.map Prod.fst := by
  have fold : ∀ (items : List (κ × ν)) (d : Dict κ ν),
      k ∈ items.foldl (fun d e ↦ d.insert e.1 e.2) d ↔ k ∈ d ∨ k ∈ items.map Prod.fst := by
    intro items
    induction items with
    | nil => simp
    | cons e items ih =>
      intro d
      rw [List.foldl_cons, ih, mem_insert, List.map_cons, List.mem_cons, or_assoc]
      exact or_left_comm
  rw [ofItems, fold]
  exact or_iff_right (not_mem_empty k)

theorem mem_items_ofItems {items : List (κ × ν)} {e : κ × ν} (h : e ∈ (ofItems items).items) :
    e ∈ items := by
  have fold : ∀ (items : List (κ × ν)) (d : Dict κ ν),
      e ∈ (items.foldl (fun d e ↦ d.insert e.1 e.2) d).items → e ∈ d.items ∨ e ∈ items := by
    intro items
    induction items with
    | nil => exact fun d mem ↦ .inl mem
    | cons e' items ih =>
      intro d mem
      rcases ih _ mem with mem | mem
      · rcases mem_items_insert.mp mem with ⟨key, value⟩ | ⟨-, mem⟩
        · exact .inr (List.mem_cons.mpr (.inl (Prod.ext key value)))
        · exact .inl mem
      · exact .inr (List.mem_cons_of_mem _ mem)
  rcases fold items empty h with mem | mem
  · cases mem
  · exact mem

/-- The items of the listed keys, in the order of the list. -/
def select (d : Dict κ ν) (ks : List κ) : Dict κ ν :=
  ofItems (ks.filterMap fun k ↦ (d.get? k).map fun v ↦ (k, v))

theorem keys_select {d : Dict κ ν} {ks : List κ} (nodup : ks.Nodup) (known : ∀ k ∈ ks, k ∈ d) :
    (d.select ks).keys = ks := by
  have keys_eq : (ks.filterMap fun k ↦ (d.get? k).map fun v ↦ (k, v)).map Prod.fst = ks := by
    clear nodup
    induction ks with
    | nil => rfl
    | cons k ks ih =>
      rcases mem_iff.mp (known k List.mem_cons_self) with ⟨v, hv⟩
      rw [List.filterMap_cons, get?_eq_some_iff.mpr hv]
      simp only [Option.map_some, List.map_cons]
      rw [ih fun k' hk' ↦ known k' (List.mem_cons_of_mem _ hk')]
  rw [select, keys, items_ofItems (by rw [keys_eq]; exact nodup), keys_eq]

theorem mem_items_of_mem_select {d : Dict κ ν} {ks : List κ} {e : κ × ν}
    (h : e ∈ (d.select ks).items) : e ∈ d.items := by
  rcases List.mem_filterMap.mp (mem_items_ofItems h) with ⟨k, -, eq⟩
  rcases Option.map_eq_some_iff.mp eq with ⟨v, hv, rfl⟩
  exact get?_eq_some_iff.mp hv

/-! ### Order of the items -/

theorem mem_items_erase {d : Dict κ ν} {k : κ} {e : κ × ν} :
    e ∈ (d.erase k).items ↔ e ∈ d.items ∧ e.1 ≠ k := by
  simp [erase, filter]

theorem erase_of_not_mem {d : Dict κ ν} {k : κ} (h : k ∉ d) : d.erase k = d := by
  apply Dict.ext
  rw [erase, filter, List.filter_eq_self]
  intro e he
  have ne : e.1 ≠ k := by
    rintro rfl
    exact h (mem_of_mem_items he)
  simp [ne]

theorem items_erase_cons {d : Dict κ ν} {k : κ} {v : ν} {rest : List (κ × ν)}
    (h : d.items = (k, v) :: rest) : (d.erase k).items = rest := by
  have nodup := d.nodup
  rw [h, List.map_cons, List.nodup_cons] at nodup
  have other : ∀ e ∈ rest, decide (e.1 ≠ k) = true := by
    intro e he
    have mem : e.1 ∈ rest.map Prod.fst := List.mem_map_of_mem he
    have ne : e.1 ≠ k := fun eq ↦ nodup.1 (eq ▸ mem)
    simp [ne]
  have filtered : (d.erase k).items = d.items.filter fun e ↦ e.1 ≠ k := rfl
  rw [filtered, h, List.filter_cons_of_neg (by simp), List.filter_eq_self.mpr other]

theorem nodup_cons_erase (d : Dict κ ν) (k : κ) (v : ν) : ((k, v) :: (d.erase k).items).Nodup := by
  rw [List.nodup_cons]
  refine ⟨?_, items_nodup _⟩
  intro mem
  exact (mem_items_erase.mp mem).2 rfl

theorem erase_perm {d : Dict κ ν} {k : κ} {v : ν} (h : (k, v) ∈ d.items) :
    d.items.Perm ((k, v) :: (d.erase k).items) := by
  rw [List.perm_ext_iff_of_nodup d.items_nodup (nodup_cons_erase d k v)]
  rintro ⟨k', v'⟩
  rw [List.mem_cons, mem_items_erase, Prod.mk.injEq]
  constructor
  · intro mem
    by_cases hk : k' = k
    · subst hk
      exact .inl ⟨rfl, value_unique mem h⟩
    · exact .inr ⟨mem, hk⟩
  · rintro (⟨rfl, rfl⟩ | ⟨mem, -⟩)
    · exact h
    · exact mem

theorem insert_perm (d : Dict κ ν) (k : κ) (v : ν) :
    (d.insert k v).items.Perm ((k, v) :: (d.erase k).items) := by
  rw [List.perm_ext_iff_of_nodup (items_nodup _) (nodup_cons_erase d k v)]
  rintro ⟨k', v'⟩
  rw [List.mem_cons, mem_items_erase, Prod.mk.injEq, mem_items_insert]
  exact or_congr_right and_comm

/-- Assigning to a known key exchanges one item. -/
theorem countP_insert {d : Dict κ ν} {k : κ} {v w : ν} (p : κ × ν → Bool)
    (h : (k, w) ∈ d.items) :
    (d.insert k v).items.countP p + (if p (k, w) then 1 else 0) =
      d.items.countP p + (if p (k, v) then 1 else 0) := by
  rw [(insert_perm d k v).countP_eq p, (erase_perm h).countP_eq p, List.countP_cons,
    List.countP_cons]
  omega

/-- `d.popitem(last=False)`: the dictionary without its first item. -/
def popFirst (d : Dict κ ν) : Dict κ ν where
  items := d.items.tail
  nodup := d.nodup.sublist ((List.tail_sublist _).map Prod.fst)

/-- Assigning to the last key. -/
theorem items_insert_last {d : Dict κ ν} {front : List (κ × ν)} {k : κ} {v : ν}
    (h : d.items = front ++ [(k, v)]) (w : ν) : (d.insert k w).items = front ++ [(k, w)] := by
  have known : k ∈ d := mem_iff.mpr ⟨v, by rw [h]; exact List.mem_concat_self⟩
  have nodup := d.nodup
  rw [h, List.map_append, List.map_singleton, List.nodup_append] at nodup
  have items : (d.insert k w).items = d.items.map fun e ↦ if e.1 = k then (k, w) else e :=
    if_pos known
  rw [items, h, List.map_append, List.map_singleton, if_pos rfl]
  congr 1
  apply (List.map_congr_left _).trans (List.map_id front)
  intro e he
  exact if_neg (nodup.2.2 e.1 (List.mem_map_of_mem he) k List.mem_cons_self)

/-! ### Grouping -/

/-- The values by their label, `d.setdefault(f(v), []).append(v)` for each. -/
def groupBy (f : ν → κ) (vs : List ν) : Dict κ (List ν) :=
  vs.foldl (fun d v ↦ d.insert (f v) ((d.get? (f v)).getD [] ++ [v])) empty

theorem groupBy_concat (f : ν → κ) (vs : List ν) (v : ν) : groupBy f (vs ++ [v]) =
    (groupBy f vs).insert (f v) (((groupBy f vs).get? (f v)).getD [] ++ [v]) := by
  simp [groupBy]

/-- The list kept under a key, put in front of the others. -/
theorem flatten_perm (d : Dict κ (List ν)) (k : κ) :
    ((d.get? k).getD [] ++ (d.erase k).values.flatten).Perm d.values.flatten := by
  cases found : d.get? k with
  | none => rw [erase_of_not_mem (get?_eq_none_iff.mp found)]; rfl
  | some vs =>
    have perm := (erase_perm (get?_eq_some_iff.mp found)).map Prod.snd
    exact perm.flatten.symm

theorem groupBy_spec (f : ν → κ) (vs : List ν) :
    (groupBy f vs).values.flatten.Perm vs ∧
      ∀ e ∈ (groupBy f vs).items, ∀ v ∈ e.2, f v = e.1 := by
  induction vs using List.reverseRecOn with
  | nil => simp [groupBy, values]
  | append_singleton vs v ih =>
    rw [groupBy_concat]
    constructor
    · have insert := ((insert_perm (groupBy f vs) (f v)
        (((groupBy f vs).get? (f v)).getD [] ++ [v])).map Prod.snd).flatten
      have old := (flatten_perm (groupBy f vs) (f v)).trans ih.1
      rw [values]
      refine insert.trans ?_
      rw [List.map_cons, List.flatten_cons, List.append_assoc]
      refine (List.perm_append_comm_assoc _ [v] _).trans ?_
      exact (old.cons v).trans (List.perm_append_singleton v vs).symm
    · rintro ⟨k, ws⟩ mem w hw
      rcases mem_items_insert.mp mem with ⟨rfl, rfl⟩ | ⟨-, mem⟩
      · rcases List.mem_append.mp hw with hw | hw
        · cases found : (groupBy f vs).get? (f v) with
          | none => simp [found] at hw
          | some us =>
            rw [found] at hw
            exact ih.2 _ (get?_eq_some_iff.mp found) w hw
        · rw [List.mem_singleton.mp hw]
      · exact ih.2 _ mem w hw

/-- A label has the values that carry it, in their order. -/
theorem get?_groupBy (f : ν → κ) (vs : List ν) (k : κ) :
    ((groupBy f vs).get? k).getD [] = vs.filter fun v ↦ f v = k := by
  induction vs using List.reverseRecOn with
  | nil => rfl
  | append_singleton vs v ih =>
    rw [groupBy_concat, get?_insert, List.filter_append]
    by_cases same : k = f v
    · subst same
      simp [ih]
    · simp [same, Ne.symm same, ih]

theorem mem_groupBy (f : ν → κ) (vs : List ν) (k : κ) : k ∈ groupBy f vs ↔ ∃ v ∈ vs, f v = k := by
  induction vs using List.reverseRecOn with
  | nil => simp [groupBy]
  | append_singleton vs v ih =>
    rw [groupBy_concat, mem_insert, ih]
    simp [or_comm, eq_comm]

/-- The items of a grouping are the labels that occur, each with its values. -/
theorem mem_items_groupBy {f : ν → κ} {vs : List ν} {e : κ × List ν} :
    e ∈ (groupBy f vs).items ↔ (∃ v ∈ vs, f v = e.1) ∧ e.2 = vs.filter fun v ↦ f v = e.1 := by
  have values := get?_groupBy f vs e.1
  rw [← mem_groupBy f vs, ← values]
  constructor
  · intro mem
    rw [get?_eq_some_iff.mpr mem]
    exact ⟨mem_of_mem_items mem, rfl⟩
  · rintro ⟨known, eq⟩
    obtain ⟨ws, mem⟩ := mem_iff.mp known
    rw [get?_eq_some_iff.mpr mem] at eq
    obtain ⟨k, us⟩ := e
    cases eq
    exact mem

end Dict

/-- Elements with one label stand together. -/
def Contiguous {α : Type u} {β : Type v} (f : α → β) (l : List α) : Prop :=
  ∀ a b c, [a, b, c].Sublist l → f a = f c → f b = f a

theorem Contiguous.nil {α : Type u} {β : Type v} (f : α → β) : Contiguous f [] := by
  intro a b c sub
  cases sub

/-- A block in front of a list that does not use its label. -/
theorem Contiguous.append {α : Type u} {β : Type v} {f : α → β} {k : β} {block l : List α}
    (uniform : ∀ a ∈ block, f a = k) (other : ∀ a ∈ l, f a ≠ k) (h : Contiguous f l) :
    Contiguous f (block ++ l) := by
  intro a b c sub eq
  rcases List.sublist_append_iff.mp sub with ⟨l₁, l₂, split, sub₁, sub₂⟩
  match l₁, split with
  | [], split =>
    rw [List.nil_append] at split
    rw [← split] at sub₂
    exact h a b c sub₂ eq
  | [x], split =>
    rw [List.singleton_append, List.cons.injEq] at split
    rw [← split.1, List.singleton_sublist] at sub₁
    rw [← split.2] at sub₂
    exact absurd (eq.symm.trans (uniform a sub₁)) (other c (sub₂.mem (by simp)))
  | [x, y], split =>
    simp only [List.cons_append, List.nil_append, List.cons.injEq] at split
    rw [split.1, split.2.1, uniform x (sub₁.mem (by simp)), uniform y (sub₁.mem (by simp))]
  | x :: y :: z :: l₁, split =>
    simp only [List.cons_append, List.cons.injEq] at split
    rw [split.1, split.2.1, uniform x (sub₁.mem (by simp)), uniform y (sub₁.mem (by simp))]

/-- Groups one after the other, each under its own label. -/
theorem Dict.contiguous_flatten {κ : Type u} {ν : Type v} {f : ν → κ} {d : Dict κ (List ν)}
    (uniform : ∀ e ∈ d.items, ∀ v ∈ e.2, f v = e.1) : Contiguous f d.values.flatten := by
  rcases d with ⟨items, nodup⟩
  unfold Dict.values
  simp only at uniform ⊢
  induction items with
  | nil => exact .nil f
  | cons e items ih =>
    rw [List.map_cons, List.nodup_cons] at nodup
    rw [List.map_cons, List.flatten_cons]
    apply Contiguous.append (uniform e List.mem_cons_self)
    · intro v hv
      rcases List.mem_flatten.mp hv with ⟨vs, hvs, hv⟩
      rcases List.mem_map.mp hvs with ⟨e', he', rfl⟩
      rw [uniform e' (List.mem_cons_of_mem _ he') v hv]
      intro eq
      exact nodup.1 (List.mem_map.mpr ⟨e', he', eq⟩)
    · exact ih nodup.2 fun e' he' ↦ uniform e' (List.mem_cons_of_mem _ he')

end ProbingBaselines.Lib
