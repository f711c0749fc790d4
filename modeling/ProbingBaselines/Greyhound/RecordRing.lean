import ProbingBaselines.Greyhound.ShmStorage
import ProbingBaselines.Lib.Ring

/-!
# The record ring refines a ledger of pushes

Whole `RecordBuffer::push` and `NcclRecord.clear` calls in any order, against an abstract
ledger that keeps the number of pushes ever made and the stamped records pushed since the
last clear. Both readers return the last records of the ledger that fit the capacity.
-/

namespace ProbingBaselines.Greyhound

open Lib

/-! ### Stores and the cells of the ring -/

/-- The words of ring slot `k`, with `F` words to a slot. -/
def cell (F : Nat) (m : Segment) (k : Nat) : List Nat := m.slice (metadataFields + k * F) F

/-- A slice has the requested number of words. -/
theorem length_slice (m : Segment) (start count : Nat) : (m.slice start count).length = count := by
  simp [Segment.slice]

/-- Slices agree when the words in range agree. -/
theorem slice_congr {m m' : Segment} {start count : Nat}
    (h : ∀ j, j < count → m' (start + j) = m (start + j)) :
    m'.slice start count = m.slice start count := by
  apply List.map_congr_left
  intro j hj
  exact h j (List.mem_range.mp hj)

/-- Stores made one list after another. -/
theorem stores_append (m : Segment) (xs ys : List WordStore) :
    m.stores (xs ++ ys) = (m.stores xs).stores ys := by
  simp [Segment.stores]

/-- The first store takes effect before the rest. -/
theorem stores_cons (m : Segment) (w : WordStore) (ws : List WordStore) :
    m.stores (w :: ws) = (m.store w).stores ws := rfl

/-- A word that no store names keeps its value. -/
theorem stores_of_not_mem {m : Segment} {ws : List WordStore} {a : Nat}
    (h : ∀ w ∈ ws, w.addr ≠ a) : m.stores ws a = m a := by
  induction ws generalizing m with
  | nil => rfl
  | cons w ws ih =>
    rw [stores_cons, ih (fun v hv ↦ h v (List.mem_cons_of_mem w hv)), Segment.store,
      Function.update_of_ne (h w List.mem_cons_self).symm]

/-- A copy of a nonempty source stores its first word and copies the rest one word on. -/
theorem memcpy_cons (dst x : Nat) (xs : List Nat) :
    memcpy dst (x :: xs) = ⟨dst, x⟩ :: memcpy (dst + 1) xs := by
  simp only [memcpy, List.mapIdx_cons, Nat.add_zero]
  congr 2
  funext i w
  rw [Nat.add_right_comm, Nat.add_assoc]

/-- A copy changes exactly the words of its destination range. -/
theorem stores_memcpy_apply (m : Segment) (dst : Nat) (src : List Nat) (a : Nat) :
    m.stores (memcpy dst src) a =
      if dst ≤ a ∧ a < dst + src.length then src.getD (a - dst) 0 else m a := by
  induction src generalizing dst m with
  | nil => simp [memcpy, Segment.stores]
  | cons x xs ih =>
    rw [memcpy_cons, stores_cons, ih, List.length_cons]
    by_cases hd : a = dst
    · subst a
      simp [Segment.store]
    · by_cases hr : dst + 1 ≤ a ∧ a < dst + 1 + xs.length
      · obtain ⟨k, rfl⟩ : ∃ k, a = dst + 1 + k := ⟨a - (dst + 1), by omega⟩
        rw [if_pos hr, if_pos (by omega), Nat.add_sub_cancel_left,
          show dst + 1 + k - dst = k + 1 by omega, List.getD_cons_succ]
      · rw [if_neg hr, if_neg (by omega), Segment.store, Function.update_of_ne hd]

/-- Words of different slots have different addresses. -/
theorem slot_words_disjoint {F k t i j : Nat} (hi : i < F) (hj : j < F)
    (h : k * F + i = t * F + j) : k = t := by
  have hk : (k * F + i) / F = k := by
    rw [Nat.mul_comm, Nat.mul_add_div (by omega), Nat.div_eq_of_lt hi, Nat.add_zero]
  have ht : (t * F + j) / F = t := by
    rw [Nat.mul_comm, Nat.mul_add_div (by omega), Nat.div_eq_of_lt hj, Nat.add_zero]
  rw [← hk, h, ht]

/-- Copying `F` words over slot `t` replaces that slot and no other. -/
theorem cell_memcpy (m : Segment) (F t k : Nat) (src : List Nat) (hs : src.length = F) :
    cell F (m.stores (memcpy (metadataFields + t * F) src)) k =
      if k = t then src else cell F m k := by
  split
  · next hk =>
    subst k
    apply List.ext_getElem
    · rw [cell, length_slice, hs]
    · intro j hj hj'
      simp only [cell, Segment.slice, List.getElem_map, List.getElem_range]
      rw [stores_memcpy_apply, if_pos (by omega), Nat.add_sub_cancel_left,
        List.getD_eq_getElem?_getD, List.getElem?_eq_getElem hj', Option.getD_some]
  · next hk =>
    apply slice_congr
    intro j hj
    rw [stores_memcpy_apply, if_neg]
    rintro ⟨hl, hu⟩
    apply hk
    exact slot_words_disjoint hj (j := k * F + j - t * F) (by omega) (by omega)

/-- Stores below the record area never touch a slot. -/
theorem cell_stores_meta {m : Segment} {ws : List WordStore} (F k : Nat)
    (h : ∀ w ∈ ws, w.addr < metadataFields) : cell F (m.stores ws) k = cell F m k := by
  apply slice_congr
  intro j _
  apply stores_of_not_mem
  intro w hw
  have := h w hw
  omega

/-- Metadata stores stay below the record area. -/
theorem addr_updateMeta (b : RecordBuffer) (init : Bool) :
    ∀ w ∈ b.updateMeta init, w.addr < metadataFields := by
  cases init <;> simp [RecordBuffer.updateMeta, metadataFields]

/-- Stamping keeps the number of words. -/
theorem length_stamp (e : Nat) (record : List Nat) :
    (RecordBuffer.stamp e record).length = record.length := by
  simp [RecordBuffer.stamp]

/-- The last word of a stamped nonempty record is the event id. -/
theorem getLast?_stamp (e : Nat) (record : List Nat) (h : 0 < record.length) :
    (RecordBuffer.stamp e record).getLast? = some e := by
  rw [List.getLast?_eq_getElem?, length_stamp, RecordBuffer.stamp,
    List.getElem?_set_self (by omega)]

/-! ### The ledger and its representation -/

/-- A whole call on the ring, with records of exactly `F` words. -/
inductive RingOp (F : Nat) where
  | push (record : Vector Nat F)
  | clear

/-- The writer's copies and the segment they are reloaded from. -/
structure RingState where
  buf : RecordBuffer
  mem : Segment

/-- A writer attached to a zeroed segment. -/
def RingState.fresh (F M : Nat) : RingState :=
  ⟨(RecordBuffer.create F M Segment.zeroed).1, (RecordBuffer.create F M Segment.zeroed).2⟩

/-- The effect of one whole call, `none` if an assertion of the writer fails. -/
def ringStep {F : Nat} (s : RingState) : RingOp F → Option RingState
  | .push record => (s.buf.push record.toList s.mem).map fun p ↦ ⟨p.1, s.mem.stores p.2⟩
  | .clear => some { s with mem := s.mem.stores NcclRecord.clear }

/-- What the ring is for: how many records were ever pushed, and those pushed since the
last clear, each stamped with its global index. -/
structure Ledger where
  pushed : Nat
  live : List (List Nat)

namespace Ledger

/-- Record one whole call. -/
def apply {F : Nat} (l : Ledger) : RingOp F → Ledger
  | .push record =>
    ⟨l.pushed + 1, l.live ++ [RecordBuffer.stamp (l.pushed % wordSize) record.toList]⟩
  | .clear => ⟨l.pushed, []⟩

/-- The ledger of a sequence of calls on a fresh ring. -/
def ofOps {F : Nat} (ops : List (RingOp F)) : Ledger := ops.foldl apply ⟨0, []⟩

end Ledger

/-- The segment holds the last `M` live records of the ledger, `F` words each. -/
structure Represents (F M : Nat) (m : Segment) (l : Ledger) : Prop where
  fields : m 0 = F
  capacity : m 1 = M
  count : m 2 = min l.live.length M
  head_lt : m 3 < M
  tail : m 4 = slot M (m 3) (m 2)
  event : m 6 = l.pushed % wordSize
  rows : window M (m 3) (m 2) (cell F m) = l.live.rtake M

/-- A zeroed segment has no magic word, so attaching the writer initialises it. -/
theorem fresh_mem (F M : Nat) : (RingState.fresh F M).mem =
    Segment.zeroed.stores (⟨5, bufferMagic⟩ ::
      RecordBuffer.updateMeta ⟨F, M, 0, 0, 0, 0⟩ true) := rfl

/-- A fresh ring represents the empty ledger. -/
theorem represents_fresh {F M : Nat} (hM : 0 < M) :
    Represents F M (RingState.fresh F M).mem ⟨0, []⟩ := by
  rw [fresh_mem]
  constructor <;>
    simp [RecordBuffer.updateMeta, Segment.stores, Segment.store, Segment.zeroed, hM, slot, window]

/-- The metadata after a push, from the metadata before it. -/
theorem pushStores_values (m : Segment) (record : List Nat) :
    let m' := m.stores ((RecordBuffer.loadMeta m).pushStores record)
    m' 0 = m 0 ∧ m' 1 = m 1 ∧
    m' 2 = (if m 2 < m 1 then m 2 + 1 else m 2) ∧
    m' 3 = (if m 2 = m 1 then (m 3 + 1) % m 1 else m 3) ∧
    m' 4 = (m 4 + 1) % m 1 ∧
    m' 6 = (m 6 + 1) % wordSize := by
  simp only [RecordBuffer.pushStores, stores_append]
  exact ⟨rfl, rfl, rfl, rfl, rfl, rfl⟩

/-- The slot contents after a push: the stamped record at the tail, the rest unchanged. -/
theorem cell_pushStores {F : Nat} {m : Segment} (hF : m 0 = F) {record : List Nat}
    (hr : record.length = F) (k : Nat) :
    cell F (m.stores ((RecordBuffer.loadMeta m).pushStores record)) k =
      if k = m 4 then RecordBuffer.stamp (m 6) record else cell F m k := by
  have hs : ((RecordBuffer.stamp (m 6) record).take F).length = F := by
    rw [List.length_take, length_stamp]
    omega
  rw [RecordBuffer.pushStores, stores_append, cell_stores_meta F k (addr_updateMeta _ _)]
  simp only [RecordBuffer.loadMeta, hF]
  rw [cell_memcpy _ _ _ _ _ hs, List.take_of_length_le (by rw [length_stamp]; omega)]

/-- A push keeps the representation and appends its stamped record to the ledger. -/
theorem represents_push {F M : Nat} {m : Segment} {l : Ledger} (hM : 0 < M)
    (h : Represents F M m l) {record : List Nat} (hr : record.length = F) :
    Represents F M (m.stores ((RecordBuffer.loadMeta m).pushStores record))
      ⟨l.pushed + 1, l.live ++ [RecordBuffer.stamp (l.pushed % wordSize) record]⟩ := by
  have hcell := cell_pushStores h.fields hr
  have hother (k : Nat) (hk : k ≠ m 4) : cell F (m.stores
      ((RecordBuffer.loadMeta m).pushStores record)) k = cell F m k := by
    rw [hcell, if_neg hk]
  obtain ⟨h0, h1, h2, h3, h4, h6⟩ := pushStores_values m record
  generalize m.stores ((RecordBuffer.loadMeta m).pushStores record) = m' at *
  rw [h.fields] at h0
  rw [h.capacity] at h1 h2 h3 h4
  have htail : (m 4 + 1) % M = slot M (m 3) (m 2 + 1) := by
    rw [h.tail, ← slot_slot]
    rfl
  have hlen := h.count
  by_cases hfull : l.live.length < M
  · -- room left: the head stays and the window grows by one slot
    have hn : m 2 < M := by omega
    rw [if_pos hn] at h2
    rw [if_neg (by omega)] at h3
    refine ⟨h0, h1, ?_, by rw [h3]; exact h.head_lt, by rw [h4, h3, h2, htail], ?_, ?_⟩
    · rw [h2, List.length_append, List.length_singleton]
      omega
    · rw [h6, h.event, Nat.mod_add_mod]
    · rw [h2, h3, window_push_of_lt (cell F m) hn (by rwa [← h.tail]), ← h.tail, hcell,
        if_pos rfl, h.rows, h.event, rtake_concat_of_lt _ hfull]
  · -- full: the tail is the head, whose record is dropped
    have hn : m 2 = M := by omega
    have ht : m 4 = m 3 := by rw [h.tail, hn, slot_self h.head_lt]
    rw [if_neg (by omega)] at h2
    rw [if_pos hn] at h3
    have h3' : m' 3 = slot M (m 3) 1 := h3
    refine ⟨h0, h1, ?_, by rw [h3']; exact slot_lt hM _ _, ?_, ?_, ?_⟩
    · rw [h2, List.length_append, List.length_singleton]
      omega
    · rw [h4, h3', h2, htail, slot_slot, Nat.add_comm 1]
    · rw [h6, h.event, Nat.mod_add_mod]
    · have hrows := h.rows
      rw [hn] at hrows
      rw [h2, h3', hn, window_push_full (cell F m) h.head_lt (by rwa [← ht]), ← ht, hcell,
        if_pos rfl, ht, hrows, h.event, rtake_concat_of_le _ hM (by omega)]

/-- A clear keeps the representation and empties the live records. -/
theorem represents_clear {F M : Nat} {m : Segment} {l : Ledger} (hM : 0 < M)
    (h : Represents F M m l) :
    Represents F M (m.stores NcclRecord.clear) ⟨l.pushed, []⟩ := by
  have h0 := h.fields
  have h1 := h.capacity
  have h6 := h.event
  constructor <;>
    simp [NcclRecord.clear, Segment.stores, Segment.store, hM, slot, window, h0, h1, h6]

/-! ### Readers of a represented ledger -/

/-- `__getitem__` reads the slot `idx` places after the head. -/
theorem getItem_eq (F M : Nat) (data : Segment) (idx : Nat) :
    (NcclRecord.mk F M).getItem data idx =
      if idx < data 2 then some (cell F data (slot M (data 3) idx)) else none := by
  unfold NcclRecord.getItem NcclRecord.numRecords
  by_cases h : idx < data 2
  · rw [if_neg (by omega), if_pos h]
    rfl
  · rw [if_pos (by omega), if_neg h]

/-- Iterating from `idx` reads the rest of the window. -/
theorem iterFrom_eq (F M : Nat) (data : Segment) (idx : Nat) :
    (NcclRecord.mk F M).iterFrom data idx =
      (window M (data 3) (data 2) (cell F data)).drop idx := by
  induction hk : data 2 - idx generalizing idx with
  | zero =>
    rw [NcclRecord.iterFrom, List.drop_of_length_le (by rw [length_window]; omega)]
    split
    · rfl
    · next h =>
      have := NcclRecord.lt_of_getItem h
      rw [NcclRecord.numRecords] at this
      omega
  | succ k ih =>
    have hi : idx < (window M (data 3) (data 2) (cell F data)).length := by
      rw [length_window]
      omega
    rw [NcclRecord.iterFrom, List.drop_eq_getElem_cons hi, ← ih (idx + 1) (by omega)]
    split
    · next h =>
      rw [getItem_eq, if_pos (by omega)] at h
      contradiction
    · next row h =>
      rw [getItem_eq, if_pos (by omega)] at h
      rw [← Option.some.inj h]
      simp [window]

/-- Iterating a represented ring returns the last live records of the ledger. -/
theorem Represents.iterFrom {F M : Nat} {data : Segment} {l : Ledger}
    (h : Represents F M data l) :
    (NcclRecord.mk F M).iterFrom data 0 = l.live.rtake M := by
  rw [iterFrom_eq, List.drop_zero, h.rows]

/-- A snapshot of a represented ring that nobody writes returns the same records. -/
theorem Represents.readShmRecords {F M : Nat} {data : Segment} {l : Ledger}
    (h : Represents F M data l) : readShmRecords data = some (l.live.rtake M) := by
  have hr : snapshotRows data (data 0) (data 1) (data 2) (data 3) = l.live.rtake M := by
    rw [h.fields, h.capacity]
    exact h.rows
  simp [Greyhound.readShmRecords, readAttempt, List.range_succ, hr]

/-! ### Every sequence of calls -/

/-- One call succeeds and keeps the representation of the updated ledger. -/
theorem ringStep_represents {F M : Nat} (hM : 0 < M) {s : RingState} {l : Ledger}
    (hb : s.buf.numFields = F) (h : Represents F M s.mem l) (op : RingOp F) :
    ∃ s', ringStep s op = some s' ∧ s'.buf.numFields = F ∧ Represents F M s'.mem (l.apply op) := by
  cases op with
  | push record =>
    have hr : record.toList.length = F := by simp
    have hp : s.buf.push record.toList s.mem = some ((RecordBuffer.loadMeta s.mem).advance,
        (RecordBuffer.loadMeta s.mem).pushStores record.toList) := by
      simp only [RecordBuffer.push, hr, hb, if_true]
    refine ⟨_, by rw [ringStep, hp]; rfl, h.fields, ?_⟩
    exact represents_push hM h hr
  | clear => exact ⟨_, rfl, hb, represents_clear hM h⟩

/-- Every sequence of calls succeeds and ends in a segment that represents its ledger. -/
theorem ringRun_represents {F M : Nat} (hM : 0 < M) (ops : List (RingOp F)) {s : RingState}
    {l : Ledger} (hb : s.buf.numFields = F) (h : Represents F M s.mem l) :
    ∃ s', ops.foldlM ringStep s = some s' ∧ Represents F M s'.mem (ops.foldl Ledger.apply l) := by
  induction ops generalizing s l with
  | nil => exact ⟨s, rfl, h⟩
  | cons op ops ih =>
    obtain ⟨t, ht, hbt, hrt⟩ := ringStep_represents hM hb h op
    obtain ⟨u, hu, hru⟩ := ih hbt hrt
    refine ⟨u, ?_, hru⟩
    rw [List.foldlM_cons, ht]
    exact hu

/-- The live records of a ledger end in consecutive global indices. -/
def Ledger.Consecutive (l : Ledger) : Prop :=
  l.live.length ≤ l.pushed ∧ l.live.map List.getLast? =
    (List.range' (l.pushed - l.live.length) l.live.length).map fun k ↦ some (k % wordSize)

/-- One call keeps the indices consecutive. -/
theorem Ledger.consecutive_apply {F : Nat} (hF : 0 < F) {l : Ledger} (h : l.Consecutive)
    (op : RingOp F) : (l.apply op).Consecutive := by
  cases op with
  | push record =>
    obtain ⟨hl, hm⟩ := h
    refine ⟨by simp only [apply, List.length_append, List.length_singleton]; omega, ?_⟩
    simp only [apply, List.map_append, hm, List.map_cons, List.map_nil, List.length_append,
      List.length_singleton]
    rw [getLast?_stamp _ _ (by simpa using hF), List.range'_1_concat, List.map_append,
      show l.pushed + 1 - (l.live.length + 1) = l.pushed - l.live.length by omega]
    simp only [List.map_cons, List.map_nil]
    rw [show l.pushed - l.live.length + l.live.length = l.pushed by omega]
  | clear => exact ⟨Nat.zero_le _, rfl⟩

/-- A whole sequence of calls keeps the indices consecutive. -/
theorem Ledger.consecutive_ofOps {F : Nat} (hF : 0 < F) (ops : List (RingOp F)) :
    (Ledger.ofOps ops).Consecutive := by
  have all (l : Ledger) (h : l.Consecutive) : (ops.foldl Ledger.apply l).Consecutive := by
    induction ops generalizing l with
    | nil => exact h
    | cons op ops ih => exact ih _ (consecutive_apply hF h op)
  exact all _ ⟨Nat.le_refl _, rfl⟩

/-- The retained suffix of consecutively indexed records is consecutively indexed. -/
theorem Ledger.Consecutive.rtake {l : Ledger} (h : l.Consecutive) (M : Nat) :
    (l.live.rtake M).map List.getLast? =
      (List.range' (l.pushed - min l.live.length M) (min l.live.length M)).map
        fun k ↦ some (k % wordSize) := by
  obtain ⟨hl, hm⟩ := h
  rw [List.rtake, List.map_drop, hm, ← List.map_drop, List.drop_range']
  congr 2 <;> omega

/-- After any sequence of whole pushes and clears on a fresh ring of `M` records of `F`
words, the metadata is in range and consistent, and both readers return the last
`min n M` records pushed since the last clear, oldest first, each ending in its global
push index as a 64-bit word. -/
theorem ring_refines_ledger (M F : Nat) (hM : 1 ≤ M) (hF : 1 ≤ F) (ops : List (RingOp F)) :
    ∃ s, ops.foldlM ringStep (RingState.fresh F M) = some s ∧
      s.mem 2 ≤ M ∧ s.mem 3 < M ∧ s.mem 4 < M ∧ s.mem 4 = (s.mem 3 + s.mem 2) % M ∧
      (NcclRecord.attach (RingState.fresh F M).mem).iterFrom s.mem 0 =
        (Ledger.ofOps ops).live.rtake M ∧
      readShmRecords s.mem = some ((Ledger.ofOps ops).live.rtake M) ∧
      ((Ledger.ofOps ops).live.rtake M).map List.getLast? =
        (List.range' ((Ledger.ofOps ops).pushed - min (Ledger.ofOps ops).live.length M)
          (min (Ledger.ofOps ops).live.length M)).map fun k ↦ some (k % wordSize) := by
  obtain ⟨s, hs, h⟩ :=
    ringRun_represents hM ops (s := RingState.fresh F M) rfl (represents_fresh hM)
  refine ⟨s, hs, ?_, h.head_lt, ?_, h.tail, ?_, h.readShmRecords, ?_⟩
  · rw [h.count]
    exact Nat.min_le_right _ _
  · rw [h.tail]
    exact slot_lt hM _ _
  · exact h.iterFrom
  · exact (Ledger.consecutive_ofOps hF ops).rtake M

/-- Three pushes into two slots: the first record is gone, the second comes first. -/
theorem ring_refines_ledger_wrapped :
    ∃ s, [RingOp.push #v[10, 0], .push #v[20, 0], .push #v[30, 0]].foldlM ringStep
        (RingState.fresh 2 2) = some s ∧
      readShmRecords s.mem = some [[20, 1], [30, 2]] := by
  obtain ⟨s, hs, _, _, _, _, _, hr, _⟩ := ring_refines_ledger 2 2 (by decide) (by decide)
    [.push #v[10, 0], .push #v[20, 0], .push #v[30, 0]]
  exact ⟨s, hs, hr⟩

end ProbingBaselines.Greyhound
