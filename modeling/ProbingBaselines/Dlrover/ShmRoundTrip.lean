import ProbingBaselines.Dlrover.SharedMemory

/-!
# The round trip of the shared memory

Copying a value over a tree that it fits, and reading the tree, gives the value back: a child is
copied into its own slots, which no later child writes to.
-/

namespace ProbingBaselines.Dlrover

open Lib

variable {π : Type}

section Bytes

variable {buf data : List UInt8} {offset o n : Nat}

theorem length_writeBytes (bound : offset + data.length ≤ buf.length) :
    (writeBytes buf offset data).length = buf.length := by
  simp only [writeBytes, List.length_append, List.length_take, List.length_drop]
  omega

theorem getElem?_writeBytes (bound : offset + data.length ≤ buf.length) (i : Nat) :
    (writeBytes buf offset data)[i]? =
      if offset ≤ i ∧ i < offset + data.length then data[i - offset]? else buf[i]? := by
  have taken : (buf.take offset).length = offset := by
    rw [List.length_take]
    omega
  rw [writeBytes, List.append_assoc, List.getElem?_append, taken]
  split
  · next before =>
    rw [if_neg (by omega), List.getElem?_take_of_lt before]
  · next behind =>
    rw [List.getElem?_append]
    split
    · rw [if_pos (by omega)]
    · rw [if_neg (by omega), List.getElem?_drop]
      congr 1
      omega

theorem getElem?_readBytes (i : Nat) :
    (readBytes buf o n)[i]? = if i < n then buf[o + i]? else none := by
  rw [readBytes, List.getElem?_take, List.getElem?_drop]

theorem readBytes_writeBytes_self (bound : offset + data.length ≤ buf.length) :
    readBytes (writeBytes buf offset data) offset data.length = data := by
  apply List.ext_getElem?
  intro i
  rw [getElem?_readBytes]
  split
  · rw [getElem?_writeBytes bound, if_pos (by omega)]
    congr 1
    omega
  · next behind =>
    rw [List.getElem?_eq_none (by omega)]

theorem readBytes_writeBytes_apart (bound : offset + data.length ≤ buf.length)
    (apart : o + n ≤ offset ∨ offset + data.length ≤ o) :
    readBytes (writeBytes buf offset data) o n = readBytes buf o n := by
  apply List.ext_getElem?
  intro i
  rw [getElem?_readBytes, getElem?_readBytes]
  split
  · rw [getElem?_writeBytes bound, if_neg (by omega)]
  · rfl

end Bytes

theorem TensorMeta.Apart.symm {a b : TensorMeta} (h : a.Apart b) : b.Apart a := Or.symm h

/-- A slot inside a buffer. -/
def TensorMeta.Inside (len : Nat) (m : TensorMeta) : Prop := m.offset + m.nbytes ≤ len

/-- Reading depends on the bytes of the slots only. -/
theorem readTensorFromBuf_congr {buf buf' : List UInt8} (length : buf'.length = buf.length)
    {l : Leaf TensorMeta π}
    (same : ∀ m ∈ slotsOf l, readBytes buf' m.offset m.nbytes = readBytes buf m.offset m.nbytes) :
    readTensorFromBuf buf' l = readTensorFromBuf buf l := by
  cases l with
  | plain p => rfl
  | tensor m =>
    have bytes := same m List.mem_cons_self
    simp only [readTensorFromBuf, length, bytes]

theorem read_congr {buf buf' : List UInt8} (length : buf'.length = buf.length) (t : MetaTree π)
    (same : ∀ m ∈ t.collect slotsOf,
      readBytes buf' m.offset m.nbytes = readBytes buf m.offset m.nbytes) :
    t.traverse (readTensorFromBuf buf') = t.traverse (readTensorFromBuf buf) := by
  apply t.traverse_congr
  intro l hl
  apply readTensorFromBuf_congr length
  intro m hm
  exact same m (t.mem_collect.mpr ⟨l, hl, hm⟩)

/-- Slots inside the buffer can be read. -/
theorem exists_read {buf : List UInt8} (m : MetaDict π)
    (inside : ∀ s ∈ m.collect slotsOf, s.Inside buf.length) :
    ∃ r, m.traverse (readTensorFromBuf buf) = some r := by
  apply m.exists_traverse
  intro l hl
  cases l with
  | plain p => exact ⟨.plain p, rfl⟩
  | tensor s =>
    have bound : s.offset + s.nbytes ≤ buf.length :=
      inside s (m.mem_collect.mpr ⟨_, hl, List.mem_cons_self⟩)
    by_cases empty : s.numel = 0
    · exact ⟨_, by rw [readTensorFromBuf, if_pos empty]⟩
    · exact ⟨_, by rw [readTensorFromBuf, if_neg empty, dif_pos bound]⟩

section Items

variable {kind : Kind} {m : MetaDict π} {k : Key} {t : MetaTree π}

theorem listKey_natCast (n : Nat) : listKey m n = .int n := by
  rw [listKey, if_neg (by omega)]

theorem getItem_eq (index : kind = .list → ∃ n : Nat, k = .int n) :
    getItem (.node kind m) k = m.get? k := by
  cases kind with
  | dict => rfl
  | list =>
    rcases index rfl with ⟨n, rfl⟩
    rw [getItem, listKey_natCast]

theorem setItem_eq (index : kind = .list → (∃ n : Nat, k = .int n) ∧ k ∈ m.keys) :
    setItem (.node kind m) k t = some (.node kind (m.set k t)) := by
  cases kind with
  | dict => rfl
  | list =>
    rcases index rfl with ⟨⟨n, rfl⟩, known⟩
    rw [setItem, listKey_natCast, if_pos known]

end Items

/-- What a well-formed node tells about its children. -/
theorem wellFormed_node {kind : Kind} {fields : Fields π}
    (wf : wellFormed (.node kind fields) = true) :
    fields.keys.Nodup ∧ (kind = .list → ∀ k ∈ fields.keys, ∃ n : Nat, k = .int n) ∧
      wellFormedFields fields = true := by
  rw [wellFormed, Bool.and_eq_true, Bool.and_eq_true, Bool.or_eq_true] at wf
  rcases wf with ⟨⟨nodup, list⟩, children⟩
  refine ⟨of_decide_eq_true nodup, ?_, children⟩
  rintro rfl k hk
  rcases list with dict | keys
  · cases of_decide_eq_true dict
  · rw [of_decide_eq_true keys] at hk
    rcases List.mem_map.mp hk with ⟨n, -, rfl⟩
    exact ⟨n, rfl⟩

/-- What copying the fields of a value over the children of a node does. -/
structure CopiedTo (fields : Fields π) (m : MetaDict π) (buf : List UInt8) (m' : MetaDict π)
    (buf' : List UInt8) : Prop where
  length : buf'.length = buf.length
  slots : (m'.collect slotsOf).Sublist (m.collect slotsOf)
  other : ∀ k, k ∉ fields.keys → m'.get? k = m.get? k
  frame : ∀ s : TensorMeta, (∀ k ∈ fields.keys, ∀ t, m.get? k = some t →
      ∀ s' ∈ t.collect slotsOf, s.Apart s') →
    readBytes buf' s.offset s.nbytes = readBytes buf s.offset s.nbytes
  read : ∀ k t, (k, t) ∈ fields.entries → ∃ c r, m'.get? k = some c ∧
    c.traverse (readTensorFromBuf buf') = some r ∧ t.Same r

/-- The node reads back as the value when it has no other children. -/
theorem CopiedTo.same {fields : Fields π} {m m' : MetaDict π} {buf buf' : List UInt8}
    (h : CopiedTo fields m buf m' buf') (kind : Kind)
    (inside : ∀ s ∈ m'.collect slotsOf, s.Inside buf'.length)
    (keys : ∀ k ∈ m'.keys, k ∈ fields.keys) :
    ∃ r, m'.traverse (readTensorFromBuf buf') = some r ∧
      (KeyedTree.node kind fields).Same (.node kind r) := by
  rcases exists_read m' inside with ⟨r, hr⟩
  refine ⟨r, hr, rfl, ?_, ?_⟩
  · rw [KeyedForest.within_iff]
    intro e he
    rcases h.read e.1 e.2 he with ⟨c, u, found, read, same⟩
    refine ⟨u, ?_, same⟩
    rw [KeyedForest.get?_traverse hr, found, Option.bind_some, read]
  · intro k hk
    rw [KeyedForest.keys_traverse hr] at hk
    exact keys k hk

/-- Reading back a tensor that was written to its slot. -/
theorem read_written {buf : List UInt8} {s : TensorMeta} {t : Tensor} (shape : s.shape = t.shape)
    (dtype : s.dtype = t.dtype) (whole : t.shape.prod ≠ 0 ∨ t.shape = [0])
    (bound : s.offset + s.nbytes ≤ buf.length)
    (bytes : t.shape.prod ≠ 0 → readBytes buf s.offset s.nbytes = t.data) :
    readTensorFromBuf buf (Leaf.tensor s : Leaf TensorMeta π) = some (.tensor t) := by
  rcases t with ⟨tshape, tdtype, data, length_eq⟩
  subst shape dtype
  have numel := s.numel_eq
  by_cases empty : s.numel = 0
  · have shape : s.shape = [0] := whole.resolve_left fun h ↦ h (by rw [← numel, empty])
    have none : data = [] := by
      rw [← numel, empty, Nat.zero_mul] at length_eq
      exact List.length_eq_zero_iff.mp length_eq
    rw [readTensorFromBuf, if_pos empty]
    subst none
    congr 3
    exact shape.symm
  · have some := bytes (by rwa [← numel])
    simp only at some
    rw [readTensorFromBuf, if_neg empty, dif_pos bound]
    congr 3

/-- What copying one field does. -/
structure ChildCopied (k : Key) (child : Value π) (m : MetaDict π) (buf : List UInt8)
    (m' : MetaDict π) (buf' : List UInt8) : Prop where
  length : buf'.length = buf.length
  slots : (m'.collect slotsOf).Sublist (m.collect slotsOf)
  other : ∀ k', k' ≠ k → m'.get? k' = m.get? k'
  frame : ∀ s : TensorMeta, (∀ t, m.get? k = some t → ∀ s' ∈ t.collect slotsOf, s.Apart s') →
    readBytes buf' s.offset s.nbytes = readBytes buf s.offset s.nbytes
  read : ∃ c r, m'.get? k = some c ∧ c.traverse (readTensorFromBuf buf') = some r ∧ child.Same r

/-- One field and then the others, which are copied to slots apart from those of the first. -/
theorem ChildCopied.cons {k : Key} {child : Value π} {rest : Fields π} {m m₁ m' : MetaDict π}
    {buf buf₁ buf' : List UInt8} (head : ChildCopied k child m buf m₁ buf₁)
    (tail : CopiedTo rest m₁ buf₁ m' buf') (fresh : k ∉ rest.keys)
    (apart : (m.collect slotsOf).Pairwise TensorMeta.Apart) :
    CopiedTo (.cons k child rest) m buf m' buf' where
  length := tail.length.trans head.length
  slots := tail.slots.trans head.slots
  other k' hk' := by
    rw [KeyedForest.keys, List.mem_cons, not_or] at hk'
    rw [tail.other k' hk'.2, head.other k' hk'.1]
  frame s hs := by
    rw [tail.frame s, head.frame s]
    · intro t ht
      exact hs k List.mem_cons_self t ht
    · intro k' hk' t ht
      rw [head.other k' fun eq ↦ fresh (eq ▸ hk')] at ht
      exact hs k' (List.mem_cons_of_mem _ hk') t ht
  read k' t ht := by
    rcases List.mem_cons.mp ht with eq | later
    · cases eq
      rcases head.read with ⟨c, r, found, read, same⟩
      refine ⟨c, r, by rw [tail.other k fresh, found], ?_, same⟩
      rw [read_congr tail.length c, read]
      intro s hs
      apply tail.frame s
      intro k' hk' t' ht' s' hs'
      exact KeyedForest.collect_cross (fun _ _ h ↦ h.symm) (apart.sublist head.slots) found ht'
        (fun eq ↦ fresh (eq ▸ hk')) hs hs'
    · exact tail.read k' t later

/-- A plain value takes its place in the tree. -/
theorem childCopied_plain {k : Key} {p : Plain π} {m : MetaDict π} {buf : List UInt8} :
    ChildCopied k (.leaf (.plain p)) m buf (m.set k (.leaf (.plain p))) buf where
  length := rfl
  slots := KeyedForest.collect_set_nil rfl
  other _ ne := KeyedForest.get?_set_of_ne m ne
  frame _ _ := rfl
  read := ⟨.leaf (.plain p), .leaf (.plain p), KeyedForest.get?_set_self m, rfl, rfl⟩

/-- A tensor is written to its slot. -/
theorem childCopied_tensor {k : Key} {t : Tensor} {m : MetaDict π} {s : TensorMeta}
    {buf : List UInt8} (found : m.get? k = some (.leaf (.tensor s))) (shape : s.shape = t.shape)
    (dtype : s.dtype = t.dtype) (whole : t.shape.prod ≠ 0 ∨ t.shape = [0])
    (bound : s.Inside buf.length) :
    ∃ buf', writeSharedMemory t (.leaf (.tensor s) : MetaTree π) buf = some buf' ∧
      ChildCopied k (.leaf (.tensor t)) m buf m buf' := by
  have nbytes : s.nbytes = t.data.length := by
    rw [TensorMeta.nbytes, s.numel_eq, s.elementSize_eq, shape, dtype, t.length_eq]
  have bound' : s.offset + s.nbytes ≤ buf.length := bound
  by_cases empty : t.shape.prod = 0
  · refine ⟨buf, by rw [writeSharedMemory, if_pos empty], rfl, List.Sublist.refl _,
      fun _ _ ↦ rfl, fun _ _ ↦ rfl, _, .leaf (.tensor t), found, ?_, rfl⟩
    rw [KeyedTree.traverse_leaf,
      read_written shape dtype whole bound' fun some ↦ absurd empty some, Option.map_some]
  · rw [nbytes] at bound'
    have length := length_writeBytes bound'
    refine ⟨writeBytes buf s.offset t.data, ?_, length, List.Sublist.refl _, fun _ _ ↦ rfl, ?_, _,
      .leaf (.tensor t), found, ?_, rfl⟩
    · rw [writeSharedMemory, if_neg empty]
      exact if_pos bound'
    · intro s' hs'
      have apart : s'.Apart s := hs' _ found s List.mem_cons_self
      apply readBytes_writeBytes_apart bound'
      rw [← nbytes]
      exact apart
    · rw [KeyedTree.traverse_leaf, read_written shape dtype whole, Option.map_some]
      · rw [length, nbytes]
        exact bound'
      · intro _
        rw [nbytes]
        exact readBytes_writeBytes_self bound'

/-- A container is copied into the child of the tree. -/
theorem childCopied_node {k : Key} {kind : Kind} {fields : Fields π} {m c c' : MetaDict π}
    {buf buf' : List UInt8} (found : m.get? k = some (.node kind c))
    (copied : CopiedTo fields c buf c' buf') (keys : ∀ k ∈ c'.keys, k ∈ fields.keys)
    (inside : ∀ s ∈ m.collect slotsOf, s.Inside buf.length) :
    ChildCopied k (.node kind fields) m buf (m.set k (.node kind c')) buf' := by
  have sub : (c.collect slotsOf).Sublist (m.collect slotsOf) :=
    KeyedForest.collect_get?_sublist (t := .node kind c) found
  have insideChild : ∀ s ∈ c'.collect slotsOf, s.Inside buf'.length := by
    intro s hs
    rw [copied.length]
    exact inside s (sub.subset (copied.slots.subset hs))
  rcases copied.same kind insideChild keys with ⟨r, read, same⟩
  refine ⟨copied.length, KeyedForest.collect_set_sublist found copied.slots,
    fun _ ne ↦ KeyedForest.get?_set_of_ne m ne, ?_, .node kind c', .node kind r,
    KeyedForest.get?_set_self m, ?_, same⟩
  · intro s hs
    apply copied.frame s
    intro k' _ t ht s' hs'
    have subChild : (t.collect slotsOf).Sublist (c.collect slotsOf) :=
      KeyedForest.collect_get?_sublist ht
    exact hs _ found s' (subChild.subset hs')
  · rw [KeyedTree.traverse_node, read, Option.map_some]

/-- Whether fields fit depends on the children under their keys only. -/
theorem fitsFields_congr {kind : Kind} {fields : Fields π} {m m' : MetaDict π}
    (same : ∀ k ∈ fields.keys, m'.get? k = m.get? k) :
    fitsFields kind fields m' = fitsFields kind fields m := by
  match fields with
  | .nil => rfl
  | .cons k child rest =>
    rw [fitsFields, fitsFields, same k List.mem_cons_self,
      fitsFields_congr fun k' hk' ↦ same k' (List.mem_cons_of_mem _ hk')]

/-- A field that is not plain fits where the tree has a child under its key that it fits. -/
theorem get?_of_fits {kind : Kind} {k : Key} {child : Value π} {rest : Fields π} {m : MetaDict π}
    (fit : fitsFields kind (.cons k child rest) m = true) (notPlain : isPlain child = false) :
    ∃ c, m.get? k = some c ∧ fits child c = true := by
  rw [fitsFields, Bool.and_eq_true] at fit
  rcases fit with ⟨fit, -⟩
  cases found : m.get? k with
  | none =>
    rw [found] at fit
    simp only [notPlain, Bool.and_false, Bool.false_eq_true] at fit
  | some c =>
    rw [found] at fit
    exact ⟨c, rfl, fit⟩

/-- A tensor fits where the tree has one of its shape and dtype. -/
theorem get?_of_fits_tensor {kind : Kind} {k : Key} {t : Tensor} {rest : Fields π} {m : MetaDict π}
    (fit : fitsFields kind (.cons k (.leaf (.tensor t)) rest) m = true) :
    ∃ s, m.get? k = some (.leaf (.tensor s)) ∧ s.shape = t.shape ∧ s.dtype = t.dtype ∧
      (t.shape.prod ≠ 0 ∨ t.shape = [0]) := by
  rcases get?_of_fits fit rfl with ⟨c, found, fit⟩
  rcases c with (s | q) | ⟨j, c⟩
  · simp only [ProbingBaselines.Dlrover.fits, Bool.and_eq_true, Bool.or_eq_true,
      decide_eq_true_eq] at fit
    rcases fit with ⟨⟨shape, dtype⟩, whole⟩
    exact ⟨s, found, shape, dtype, whole⟩
  · contradiction
  · contradiction

/-- A container fits where the tree has one of its kind without other items. -/
theorem get?_of_fits_node {kind kind' : Kind} {k : Key} {fields rest : Fields π} {m : MetaDict π}
    (fit : fitsFields kind (.cons k (.node kind' fields) rest) m = true) :
    ∃ c, m.get? k = some (.node kind' c) ∧ (∀ k' ∈ c.keys, k' ∈ fields.keys) ∧
      fitsFields kind' fields c = true := by
  rcases get?_of_fits fit rfl with ⟨c, found, fit⟩
  rcases c with l | ⟨j, c⟩
  · contradiction
  · simp only [ProbingBaselines.Dlrover.fits, Bool.and_eq_true, List.all_eq_true,
      decide_eq_true_eq] at fit
    rcases fit with ⟨⟨rfl, noOther⟩, fits⟩
    exact ⟨c, found, noOther, fits⟩

/-- A list gets no new items. -/
theorem mem_keys_of_fits {kind : Kind} {k : Key} {child : Value π} {rest : Fields π}
    {m : MetaDict π} (fit : fitsFields kind (.cons k child rest) m = true) (list : kind = .list) :
    k ∈ m.keys := by
  rw [fitsFields, Bool.and_eq_true] at fit
  by_contra absent
  have missing : m.get? k = none := by
    by_contra found
    rcases Option.ne_none_iff_exists'.mp found with ⟨c, hc⟩
    exact absent (KeyedForest.mem_keys_of_get? hc)
  rw [missing, list] at fit
  exact absurd fit.1 (by simp)

/-- Copying fields over a node they fit succeeds, and puts every field into its place. -/
theorem copyFields_spec (fields : Fields π) {kind : Kind} {m : MetaDict π} {buf : List UInt8}
    (nodup : fields.keys.Nodup) (index : kind = .list → ∀ k ∈ fields.keys, ∃ n : Nat, k = .int n)
    (wf : wellFormedFields fields = true) (fit : fitsFields kind fields m = true)
    (apart : (m.collect slotsOf).Pairwise TensorMeta.Apart)
    (inside : ∀ s ∈ m.collect slotsOf, s.Inside buf.length) :
    ∃ m' buf', copyFields fields (.node kind m) buf = ⟨.node kind m', buf', true⟩ ∧
      CopiedTo fields m buf m' buf' ∧ ∀ k ∈ m'.keys, k ∈ m.keys ∨ k ∈ fields.keys := by
  match fields with
  | .nil =>
    refine ⟨m, buf, rfl, ⟨rfl, List.Sublist.refl _, fun _ _ ↦ rfl, fun _ _ ↦ rfl, ?_⟩,
      fun k hk ↦ .inl hk⟩
    intro k t ht
    contradiction
  | .cons k child rest =>
    rw [KeyedForest.keys, List.nodup_cons] at nodup
    rcases nodup with ⟨fresh, nodup⟩
    have indexHere : kind = .list → ∃ n : Nat, k = .int n :=
      fun list ↦ index list k List.mem_cons_self
    have indexRest : kind = .list → ∀ k ∈ rest.keys, ∃ n : Nat, k = .int n :=
      fun list k hk ↦ index list k (List.mem_cons_of_mem _ hk)
    have place : kind = .list → (∃ n : Nat, k = .int n) ∧ k ∈ m.keys :=
      fun list ↦ ⟨indexHere list, mem_keys_of_fits fit list⟩
    rw [wellFormedFields, Bool.and_eq_true] at wf
    have fitRest : fitsFields kind rest m = true := by
      rw [fitsFields, Bool.and_eq_true] at fit
      exact fit.2
    -- after the first field the rest is copied by induction
    have go : ∀ m₁ buf₁, ChildCopied k child m buf m₁ buf₁ →
        (∀ k' ∈ m₁.keys, k' ∈ m.keys ∨ k' = k) →
        copyFields (.cons k child rest) (.node kind m) buf =
          copyFields rest (.node kind m₁) buf₁ →
        ∃ m' buf', copyFields (.cons k child rest) (.node kind m) buf =
            ⟨.node kind m', buf', true⟩ ∧ CopiedTo (.cons k child rest) m buf m' buf' ∧
          ∀ k' ∈ m'.keys, k' ∈ m.keys ∨ k' ∈ (KeyedForest.cons k child rest).keys := by
      intro m₁ buf₁ head keys unfolded
      have fit₁ : fitsFields kind rest m₁ = true := by
        rw [fitsFields_congr fun k' hk' ↦ head.other k' fun eq ↦ fresh (eq ▸ hk')]
        exact fitRest
      have inside₁ : ∀ s ∈ m₁.collect slotsOf, s.Inside buf₁.length := by
        intro s hs
        rw [head.length]
        exact inside s (head.slots.subset hs)
      rcases copyFields_spec rest nodup indexRest wf.2 fit₁ (apart.sublist head.slots) inside₁
        with ⟨m', buf', eq, tail, keys'⟩
      refine ⟨m', buf', unfolded.trans eq, head.cons tail fresh apart, ?_⟩
      intro k' hk'
      rcases keys' k' hk' with old | new
      · rcases keys k' old with older | rfl
        · exact .inl older
        · exact .inr List.mem_cons_self
      · exact .inr (List.mem_cons_of_mem _ new)
    cases child with
    | leaf l =>
      cases l with
      | plain p =>
        apply go _ _ childCopied_plain
        · intro k' hk'
          exact ((KeyedForest.mem_keys_set m).mp hk').symm
        · rw [copyFields, setItem_eq place]
      | tensor t =>
        rcases get?_of_fits_tensor fit with ⟨s, found, shape, dtype, whole⟩
        have bound : s.Inside buf.length :=
          inside s ((KeyedForest.collect_get?_sublist found).subset List.mem_cons_self)
        rcases childCopied_tensor found shape dtype whole bound with ⟨buf₁, written, head⟩
        apply go _ _ head fun k' hk' ↦ .inl hk'
        rw [copyFields, getItem_eq indexHere, found, Option.bind_some, written]
    | node kind' fields' =>
      rcases get?_of_fits_node fit with ⟨c, found, noOther, fits⟩
      rcases wellFormed_node wf.1 with ⟨nodup', index', wf'⟩
      have sub : (c.collect slotsOf).Sublist (m.collect slotsOf) :=
        KeyedForest.collect_get?_sublist (t := .node kind' c) found
      rcases copyFields_spec fields' nodup' index' wf' fits (apart.sublist sub)
        (fun s hs ↦ inside s (sub.subset hs)) with ⟨c', buf₁, eq, copied, keys⟩
      have onlyOwn : ∀ k' ∈ c'.keys, k' ∈ fields'.keys := by
        intro k' hk'
        exact (keys k' hk').elim (noOther k') id
      apply go _ _ (childCopied_node found copied onlyOwn inside)
      · intro k' hk'
        exact ((KeyedForest.mem_keys_set m).mp hk').symm
      · simp only [copyFields, getItem_eq indexHere, found, traverseCopyToShm, eq,
          setItem_eq place, Option.getD_some, if_true]

/-! ## The first layout -/

/-- The tree built for a value from an offset on, with the offset behind it. -/
def layTree (t : Value π) (offset : Nat) : MetaTree π × Nat :=
  (t.traverse createTensorMeta).run offset

def layFields (f : Fields π) (offset : Nat) : MetaDict π × Nat :=
  (f.traverse createTensorMeta).run offset

theorem layFields_cons {k : Key} {child : Value π} {rest : Fields π} {offset : Nat} :
    layFields (.cons k child rest) offset =
      (.cons k (layTree child offset).1 (layFields rest (layTree child offset).2).1,
        (layFields rest (layTree child offset).2).2) := rfl

/-- Slots that follow one another between two offsets. -/
structure LaidOut (slots : List TensorMeta) (lo hi : Nat) : Prop where
  le : lo ≤ hi
  apart : slots.Pairwise TensorMeta.Apart
  between : ∀ s ∈ slots, lo ≤ s.offset ∧ s.offset + s.nbytes ≤ hi

theorem LaidOut.append {a b : List TensorMeta} {lo mid hi : Nat} (ha : LaidOut a lo mid)
    (hb : LaidOut b mid hi) : LaidOut (a ++ b) lo hi where
  le := Nat.le_trans ha.le hb.le
  apart := by
    refine List.pairwise_append.mpr ⟨ha.apart, hb.apart, ?_⟩
    intro s hs s' hs'
    exact .inl (Nat.le_trans (ha.between s hs).2 (hb.between s' hs').1)
  between s hs := by
    rcases List.mem_append.mp hs with before | behind
    · exact ⟨(ha.between s before).1, Nat.le_trans (ha.between s before).2 hb.le⟩
    · exact ⟨Nat.le_trans ha.le (hb.between s behind).1, (hb.between s behind).2⟩

mutual

theorem layTree_laidOut (t : Value π) (offset : Nat) :
    LaidOut ((layTree t offset).1.collect slotsOf) offset (layTree t offset).2 := by
  match t with
  | .leaf (.plain p) => exact ⟨Nat.le_refl _, List.Pairwise.nil, fun _ h ↦ by contradiction⟩
  | .leaf (.tensor t) =>
    refine ⟨Nat.le_add_right _ _, List.pairwise_singleton _ _, ?_⟩
    intro s hs
    cases List.mem_singleton.mp hs
    exact ⟨Nat.le_refl _, Nat.le_refl _⟩
  | .node kind fields => exact layFields_laidOut fields offset

theorem layFields_laidOut (f : Fields π) (offset : Nat) :
    LaidOut ((layFields f offset).1.collect slotsOf) offset (layFields f offset).2 := by
  match f with
  | .nil => exact ⟨Nat.le_refl _, List.Pairwise.nil, fun _ h ↦ by contradiction⟩
  | .cons k child rest =>
    rw [layFields_cons]
    exact (layTree_laidOut child offset).append (layFields_laidOut rest _)

end

theorem keys_layFields (f : Fields π) (offset : Nat) : (layFields f offset).1.keys = f.keys := by
  match f with
  | .nil => rfl
  | .cons k child rest =>
    rw [layFields_cons]
    simp only [KeyedForest.keys, keys_layFields rest]

/-- The layout keeps plain values. -/
theorem get?_layFields {f : Fields π} {offset : Nat} {k : Key} {p : Plain π}
    (found : f.get? k = some (.leaf (.plain p))) :
    (layFields f offset).1.get? k = some (.leaf (.plain p)) := by
  match f with
  | .nil => cases found
  | .cons key child rest =>
    rw [layFields_cons]
    simp only [KeyedForest.get?] at found ⊢
    split
    · next eq =>
      rw [if_pos eq, Option.some.injEq] at found
      subst found
      rfl
    · next ne =>
      rw [if_neg ne] at found
      exact get?_layFields found

mutual

/-- A value whose tensors are read back with their shapes fits its own layout. -/
theorem fits_layTree (t : Value π) (offset : Nat) (wf : wellFormed t = true)
    (all : ∀ l ∈ t.collect (fun l ↦ [l]), readable l = true) :
    fits t (layTree t offset).1 = true := by
  match t with
  | .leaf (.plain p) => rfl
  | .leaf (.tensor t) =>
    have whole := all (.tensor t) (by simp only [KeyedTree.collect, List.mem_singleton])
    rw [readable] at whole
    have laid : (layTree (.leaf (.tensor t) : Value π) offset).1 = .leaf (.tensor
      ⟨t.shape, t.dtype, t.dtype.elementSize, t.shape.prod, offset, rfl, rfl⟩) := rfl
    rw [laid, fits, whole]
    simp only [decide_true, Bool.and_self]
  | .node kind fields =>
    rcases wellFormed_node wf with ⟨nodup, -, wf⟩
    have laid : (layTree (.node kind fields) offset).1 =
      .node kind (layFields fields offset).1 := rfl
    rw [laid, fits, fits_layFields fields offset nodup wf all, keys_layFields]
    simp only [decide_true, Bool.and_true, Bool.true_and, List.all_eq_true, decide_eq_true_eq]
    exact fun k hk ↦ hk

theorem fits_layFields (f : Fields π) (offset : Nat) {kind : Kind} (nodup : f.keys.Nodup)
    (wf : wellFormedFields f = true)
    (all : ∀ l ∈ f.collect (fun l ↦ [l]), readable l = true) :
    fitsFields kind f (layFields f offset).1 = true := by
  match f with
  | .nil => rfl
  | .cons k child rest =>
    rw [KeyedForest.keys, List.nodup_cons] at nodup
    rw [wellFormedFields, Bool.and_eq_true] at wf
    simp only [KeyedForest.collect, List.mem_append] at all
    rw [layFields_cons, fitsFields]
    have here : (KeyedForest.cons k (layTree child offset).1
        (layFields rest (layTree child offset).2).1).get? k = some (layTree child offset).1 := by
      simp only [KeyedForest.get?, if_true]
    rw [here]
    simp only [fits_layTree child offset wf.1 fun l hl ↦ all l (.inl hl), Bool.true_and]
    rw [fitsFields_congr (m := (layFields rest (layTree child offset).2).1)]
    · exact fits_layFields rest _ nodup.2 wf.2 fun l hl ↦ all l (.inr hl)
    · intro k' hk'
      have ne : k' ≠ k := fun eq ↦ nodup.1 (eq ▸ hk')
      simp only [KeyedForest.get?, ne, if_false]

end

namespace CkptMemory

variable {s t : CkptMemory π} {v : StateDict π}

/-- The dict the agent has is marked as being written. -/
def HostWriting (s : CkptMemory π) : Prop :=
  ∃ c, s.hostDict.get? configKey = some (.leaf (.plain (.config c))) ∧ c.writingShm = true

theorem load_of_hostWriting (h : s.HostWriting) : s.loadStateDict = some .nil := by
  rcases h with ⟨c, found, writing⟩
  simp only [loadStateDict, found, writing, if_true]

/-- The value read back is the state dict. -/
def RoundTrip (s : CkptMemory π) (v : StateDict π) : Prop :=
  ∃ r, s.loadStateDict = some r ∧ (KeyedTree.node Kind.dict v.fields).Same (.node .dict r)

/-- What every run keeps: the slots of the tree lie apart in the segment, the state dict that is
being written fits the tree, and the one that was saved can be read back. -/
structure Sound (s : CkptMemory π) : Prop where
  unmapped : s.mapped = false → s.bufferSize = 0
  opened : s.mapped = true → ∃ buf, s.segment = some buf
  apart : (s.localDict.collect slotsOf).Pairwise TensorMeta.Apart
  inside : ∀ m ∈ s.localDict.collect slotsOf, m.Inside (s.segment.getD []).length
  writing : ∀ v first, s.writing = some (v, first) → s.mapped = true ∧ s.HostWriting ∧
    configured v = true ∧ fits (.node .dict v.fields) (.node .dict s.localDict) = true
  saved : ∀ v, s.saved = some v → s.writing = none ∧ s.RoundTrip v

theorem sound_init (segment : Option (List UInt8)) : Sound (init segment : CkptMemory π) where
  unmapped _ := rfl
  opened h := by contradiction
  apart := List.Pairwise.nil
  inside _ h := by contradiction
  writing _ _ h := by contradiction
  saved _ h := by contradiction

theorem configured_iff : configured v = true ↔
    ∃ c, v.fields.get? configKey = some (.leaf (.plain (.config c))) ∧ c.writingShm = false := by
  unfold configured
  split
  · next c found =>
    rw [Bool.not_eq_true']
    constructor
    · intro flag
      exact ⟨c, found, flag⟩
    · rintro ⟨c', found', flag⟩
      rw [found] at found'
      cases found'
      exact flag
  · next other =>
    constructor
    · intro h
      contradiction
    · rintro ⟨c, found, -⟩
      exact absurd found (other c)

/-- Marking the configuration of the tree leaves the slots, and what fits the tree still does. -/
theorem slots_setWriting (m : MetaDict π) (flag : Bool) :
    ((setWriting m flag).collect slotsOf).Sublist (m.collect slotsOf) := by
  unfold setWriting
  split
  · exact KeyedForest.collect_set_nil rfl
  · exact List.Sublist.refl _

theorem fitsFields_set_plain {kind : Kind} {fields : Fields π} {m : MetaDict π} {k : Key}
    {p q : Plain π} (here : fields.get? k = some (.leaf (.plain p))) (nodup : fields.keys.Nodup)
    (fit : fitsFields kind fields m = true) :
    fitsFields kind fields (m.set k (.leaf (.plain q))) = true := by
  match fields with
  | .nil => rfl
  | .cons key child rest =>
    rw [KeyedForest.keys, List.nodup_cons] at nodup
    rw [fitsFields, Bool.and_eq_true] at fit ⊢
    simp only [KeyedForest.get?] at here
    by_cases eq : k = key
    · subst eq
      rw [if_pos rfl, Option.some.injEq] at here
      subst here
      refine ⟨by simp only [KeyedForest.get?_set_self, fits], ?_⟩
      have ne : ∀ k' ∈ rest.keys, k' ≠ k := by
        rintro k' hk' rfl
        exact nodup.1 hk'
      rw [fitsFields_congr fun k' hk' ↦ KeyedForest.get?_set_of_ne m (ne k' hk')]
      exact fit.2
    · rw [if_neg eq] at here
      refine ⟨?_, fitsFields_set_plain here nodup.2 fit.2⟩
      rw [KeyedForest.get?_set_of_ne m (Ne.symm eq)]
      exact fit.1

theorem fits_setWriting {m : MetaDict π} {flag : Bool} (config : configured v = true)
    (fit : fits (.node .dict v.fields) (.node .dict m) = true) :
    fits (.node .dict v.fields) (.node .dict (setWriting m flag)) = true := by
  rcases configured_iff.mp config with ⟨c, found, -⟩
  have nodup := (wellFormed_node v.wf).1
  unfold setWriting
  split
  · next c' _ =>
    simp only [fits, decide_true, Bool.true_and, Bool.and_eq_true, List.all_eq_true,
      decide_eq_true_eq] at fit ⊢
    refine ⟨?_, fitsFields_set_plain found nodup fit.2⟩
    intro k hk
    rcases (KeyedForest.mem_keys_set m).mp hk with rfl | old
    · exact KeyedForest.mem_keys_of_get? found
    · exact fit.1 k old
  · exact fit

theorem hostWriting_setWriting {m : MetaDict π} (config : hasConfig m = true) :
    ∃ c, (setWriting m true).get? configKey = some (.leaf (.plain (.config c))) ∧
      c.writingShm = true := by
  unfold hasConfig at config
  split at config
  · next c found =>
    refine ⟨{ c with writingShm := true }, ?_, rfl⟩
    simp only [setWriting, found, KeyedForest.get?_set_self]
  · contradiction

theorem length_createSharedMemory (segment : Option (List UInt8)) {size : Nat}
    (some : size ≠ 0) : ∃ buf, createSharedMemory segment size = .some buf ∧ buf.length = size := by
  unfold createSharedMemory
  rw [if_neg some]
  split
  · next buf =>
    split
    · next same => exact ⟨buf, rfl, same⟩
    · exact ⟨_, rfl, List.length_replicate⟩
  · exact ⟨_, rfl, List.length_replicate⟩

/-- The call is begun on a tree: the tree is marked and handed to the agent. -/
theorem Sound.marked {u : CkptMemory π} {m : MetaDict π} (first : Bool)
    (unmapped : u.mapped = false → u.bufferSize = 0)
    (opened : u.mapped = true → ∃ buf, u.segment = some buf)
    (apart : (m.collect slotsOf).Pairwise TensorMeta.Apart)
    (inside : ∀ s ∈ m.collect slotsOf, s.Inside (u.segment.getD []).length)
    (config : configured v = true) (known : hasConfig m = true)
    (fit : fits (.node .dict v.fields) (.node .dict m) = true) :
    Sound { u with
      localDict := setWriting m true
      hostDict := setWriting m true
      writing := if u.mapped then some (v, first) else none
      saved := none } where
  unmapped := unmapped
  opened := opened
  apart := apart.sublist (slots_setWriting m true)
  inside s hs := inside s ((slots_setWriting m true).subset hs)
  writing w first' hw := by
    split at hw
    · next mapped =>
      cases hw
      exact ⟨mapped, hostWriting_setWriting known, config, fits_setWriting config fit⟩
    · contradiction
  saved _ h := by contradiction

theorem hasConfig_layFields (offset : Nat) (config : configured v = true) :
    hasConfig (layFields v.fields offset).1 = true := by
  rcases configured_iff.mp config with ⟨c, found, -⟩
  simp only [hasConfig, get?_layFields found]

/-- The first update of the dict. -/
theorem Sound.begin (h : Sound s) (idle : s.writing = none) (admitted : s.Admitted (.begin v)) :
    Sound (s.begin v) := by
  rcases admitted with ⟨config, admitted⟩
  cases mapped : s.mapped with
  | true =>
    rw [mapped, if_pos rfl] at admitted
    unfold CkptMemory.begin
    simp only [if_pos mapped]
    split
    · next known =>
      have marked := Sound.marked (!s.mapped) h.unmapped h.opened h.apart h.inside config
        known admitted
      simp only [if_pos mapped] at marked
      exact marked
    · refine ⟨h.unmapped, h.opened, h.apart, h.inside, ?_, fun _ h ↦ (by cases h)⟩
      intro w first hw
      rw [idle] at hw
      cases hw
  | false =>
    rw [mapped, if_neg Bool.false_ne_true] at admitted
    have size : s.bufferSize = 0 := h.unmapped mapped
    have laid := layFields_laidOut v.fields s.bufferSize
    have fit : fits (.node .dict v.fields) (.node .dict (layFields v.fields s.bufferSize).1) =
        true := fits_layTree (.node .dict v.fields) s.bufferSize v.wf admitted
    have known := hasConfig_layFields s.bufferSize config
    rw [layFields] at laid fit known
    simp only [CkptMemory.begin, mapped, Bool.false_eq_true, if_false, known, if_true]
    apply Sound.marked _ (u := { s with
      bufferSize := ((v.fields.traverse createTensorMeta).run s.bufferSize).2
      mapped := decide (((v.fields.traverse createTensorMeta).run s.bufferSize).2 ≠ 0)
      segment := createSharedMemory s.segment
        ((v.fields.traverse createTensorMeta).run s.bufferSize).2 })
    · intro unmapped
      by_contra some
      exact absurd some (of_decide_eq_false unmapped)
    · intro mapped
      rcases length_createSharedMemory s.segment (of_decide_eq_true mapped) with
        ⟨buf, eq, -⟩
      exact ⟨buf, eq⟩
    · exact laid.apart
    · intro m hm
      have between := (laid.between m hm).2
      by_cases some : ((v.fields.traverse createTensorMeta).run s.bufferSize).2 = 0
      · rw [TensorMeta.Inside]
        omega
      · rcases length_createSharedMemory s.segment some with ⟨buf, eq, length⟩
        simp only [eq, Option.getD_some, TensorMeta.Inside, length]
        exact between
    · exact config
    · exact known
    · exact fit

/-- A tree that reads back as a plain value holds that value. -/
theorem eq_plain_of_same {c : MetaTree π} {r : Value π} {p : Plain π} {buf : List UInt8}
    (read : c.traverse (readTensorFromBuf buf) = some r)
    (same : (KeyedTree.leaf (.plain p) : Value π).Same r) : c = .leaf (.plain p) := by
  rcases r with l | ⟨kind, children⟩
  · have eq : Leaf.plain p = l := same
    subst eq
    rcases c with (m | q) | ⟨kind, children⟩
    · rw [KeyedTree.traverse_leaf, Option.map_eq_some_iff] at read
      rcases read with ⟨l, read, eq⟩
      cases eq
      simp only [readTensorFromBuf] at read
      split at read
      · cases read
      · split at read
        · cases read
        · cases read
    · cases read
      rfl
    · rw [KeyedTree.traverse_node, Option.map_eq_some_iff] at read
      rcases read with ⟨r, -, eq⟩
      cases eq
  · exact same.elim

/-- The copy and the second update of the dict. -/
theorem Sound.finish (h : Sound s) {first : Bool} (writing : s.writing = some (v, first)) :
    Sound (s.finish v first) := by
  rcases h.writing v first writing with ⟨mapped, -, config, fit⟩
  rcases h.opened mapped with ⟨buf, open'⟩
  rcases configured_iff.mp config with ⟨c, found, flag⟩
  rcases wellFormed_node v.wf with ⟨nodup, index, wf⟩
  have inside := h.inside
  rw [open', Option.getD_some] at inside
  simp only [fits, decide_true, Bool.true_and, Bool.and_eq_true, List.all_eq_true,
    decide_eq_true_eq] at fit
  rcases copyFields_spec v.fields nodup index wf fit.2 h.apart inside with
    ⟨m, buf', eq, copied, keys⟩
  have onlyOwn : ∀ k ∈ m.keys, k ∈ v.fields.keys :=
    fun k hk ↦ (keys k hk).elim (fit.1 k) id
  have inside' : ∀ s ∈ m.collect slotsOf, s.Inside buf'.length := by
    intro s hs
    rw [copied.length]
    exact inside s (copied.slots.subset hs)
  rcases copied.read configKey _ (KeyedForest.mem_entries_of_get? found) with
    ⟨child, r, placed, read, same⟩
  rw [eq_plain_of_same read same] at placed
  -- the configuration in the tree is not marked, so clearing the mark changes nothing
  have cleared : (if first then setWriting m false else m) = m := by
    split
    · have unchanged : { c with writingShm := false } = c := by rw [← flag]
      rw [setWriting]
      simp only [placed, unchanged]
      exact KeyedForest.set_get? placed
    · rfl
  have finished : s.finish v first =
      { s with
        segment := some buf'
        localDict := m
        hostDict := m
        writing := none
        saved := some v } := by
    unfold CkptMemory.finish
    simp only [open', Option.getD_some, traverseCopyToShm, eq, if_true, cleared]
  rw [finished]
  refine ⟨h.unmapped, fun _ ↦ ⟨buf', rfl⟩, h.apart.sublist copied.slots, inside', nofun, ?_⟩
  intro w hw
  cases hw
  refine ⟨rfl, ?_⟩
  rcases copied.same .dict inside' onlyOwn with ⟨fields, read, same⟩
  refine ⟨fields, ?_, same⟩
  simp only [loadStateDict, placed, flag, Bool.false_eq_true, if_false, read]

/-- One update of the dict keeps the handler sound. -/
theorem step_sound {a : SaveAct π} (h : Sound s) (admitted : s.Admitted a)
    (taken : s.step a = some t) : Sound t := by
  cases a with
  | begin v =>
    rw [step, Option.ite_none_right_eq_some, Option.some.injEq] at taken
    rcases taken with ⟨idle, rfl⟩
    exact h.begin (Option.isNone_iff_eq_none.mp idle) admitted
  | finish =>
    rcases Option.map_eq_some_iff.mp taken with ⟨⟨v, first⟩, writing, rfl⟩
    exact h.finish writing

/-- Over every run of admitted calls: after a call that returned, the state dict is read back; the
slots of the tensors are disjoint and inside the segment; and between the two updates of a call the
empty dict is read. -/
theorem shm_roundTrip {segment : Option (List UInt8)} {acts : List (SaveAct π)}
    (run : Run step Admitted (init segment) acts s) :
    (∀ v, s.saved = some v → s.RoundTrip v) ∧
    ((s.localDict.collect slotsOf).Pairwise TensorMeta.Apart ∧
      ∀ m ∈ s.localDict.collect slotsOf, m.Inside (s.segment.getD []).length) ∧
    (s.writing.isSome = true → s.loadStateDict = some .nil) := by
  have h : Sound s := by
    apply run.invariant (P := Sound) (sound_init segment)
    intro t u a h admitted taken
    exact step_sound h admitted taken
  refine ⟨fun v saved ↦ (h.saved v saved).2, ⟨h.apart, h.inside⟩, ?_⟩
  intro some
  rcases Option.isSome_iff_exists.mp some with ⟨⟨v, first⟩, writing⟩
  exact load_of_hostWriting (h.writing v first writing).2.1

def configOf (step : Int) : Value Nat :=
  .leaf (.plain (.config ⟨0, 0, 1, step, false, none⟩))

/-- A tensor of bytes. -/
def byteTensor (data : List UInt8) : Value Nat :=
  .leaf (.tensor ⟨[data.length], ⟨"uint8", 1⟩, data, by simp⟩)

/-- One tensor and a learning rate. -/
def firstState : StateDict Nat :=
  ⟨.cons configKey (configOf 1) (.cons (.str "w") (byteTensor [1, 2])
    (.cons (.str "lr") (.leaf (.plain (.value 3))) .nil)), by decide +kernel⟩

/-- The tensor has new elements, and there is another plain value. -/
def laterState : StateDict Nat :=
  ⟨.cons configKey (configOf 2) (.cons (.str "w") (byteTensor [5, 6])
    (.cons (.str "lr") (.leaf (.plain (.value 3)))
      (.cons (.str "loss") (.leaf (.plain (.value 7))) .nil))), by decide +kernel⟩

/-- The tensor has shrunk and the learning rate is gone. -/
def otherState : StateDict Nat :=
  ⟨.cons configKey (configOf 2) (.cons (.str "w") (byteTensor [5]) .nil),
    by decide +kernel⟩

/-- A second state dict that fits the tree of the first one is read back. -/
theorem shm_roundTrip_later :
    ∃ acts, ∃ s : CkptMemory Nat, ∃ v, Run step Admitted (init none) acts s ∧ s.saved = some v ∧
      v.fields.keys = laterState.fields.keys ∧ s.RoundTrip v := by
  have eval : ([.begin firstState, .finish, .begin laterState, .finish].foldlM
      (fun s a ↦ if Admitted s a then step s a else none) (init none)).map (fun s ↦ decide (
        s.saved.map (fun v ↦ v.fields.keys) = some laterState.fields.keys)) = some true := by
    decide +kernel
  rcases Option.map_eq_some_iff.mp eval with ⟨s, hs, holds⟩
  have run := run_of_guarded hs
  rcases Option.map_eq_some_iff.mp (of_decide_eq_true holds) with ⟨v, saved, keys⟩
  exact ⟨_, s, v, run, saved, keys, (shm_roundTrip run).1 v saved⟩

/-- A key that the second state dict no longer has is read back with it. -/
theorem shm_stale :
    ∃ acts, ∃ s : CkptMemory Nat, ∃ v, Run step anyStep (init none) acts s ∧
      s.saved = some v ∧ ¬ s.RoundTrip v := by
  have eval : ([.begin firstState, .finish, .begin otherState, .finish].foldlM step
      (init none)).map (fun s ↦ decide (
        s.saved.map (fun v ↦ v.fields.keys) = some otherState.fields.keys ∧
        s.loadStateDict.map (fun r ↦ decide (.str "lr" ∈ r.keys)) = some true)) = some true := by
    decide +kernel
  rcases Option.map_eq_some_iff.mp eval with ⟨s, hs, holds⟩
  rcases of_decide_eq_true holds with ⟨saved, stale⟩
  rcases Option.map_eq_some_iff.mp saved with ⟨v, saved, keys⟩
  refine ⟨_, s, v, run_of_foldlM hs, saved, ?_⟩
  rintro ⟨r, load, -, -, onlyOwn⟩
  rw [load, Option.map_some, Option.some.injEq, decide_eq_true_eq] at stale
  have own := onlyOwn _ stale
  rw [keys] at own
  exact absurd own (by decide +kernel)

end CkptMemory

end ProbingBaselines.Dlrover
