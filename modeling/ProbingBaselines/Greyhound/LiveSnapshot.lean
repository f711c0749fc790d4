import ProbingBaselines.Greyhound.RecordRing
import ProbingBaselines.Lib.Run

/-!
# Snapshots taken while the writer runs

One attempt of `read_shm_records` (`metax_eval/detect_runner.py:72-87`) as its sequence of
word loads, against `RecordBuffer::push` (`detector/shm_storage.cpp:56-71`) as its sequence
of word stores, under sequentially consistent memory and one lock-holding writer. The event
word is stored once, at the end of a push, so an attempt that overlaps a push on a full ring
can load words of the record being written and still see the event word unchanged.
-/

namespace ProbingBaselines.Greyhound

open Lib

/-! ### The reader's attempt as a sequence of loads -/

/-- An attempt, given by the values it has loaded so far, first load first. -/
structure Attempt where
  loads : List Nat

namespace Attempt

/-- `event_before`; `detect_runner.py:72`. -/
def eventBefore (a : Attempt) : Nat := a.loads.getD 0 0

/-- `n_fields`; `detect_runner.py:73`. -/
def nFields (a : Attempt) : Nat := a.loads.getD 1 0

/-- `max_records`; `detect_runner.py:74`. -/
def maxRecords (a : Attempt) : Nat := a.loads.getD 2 0

/-- `num_records`; `detect_runner.py:75`. -/
def numRecords (a : Attempt) : Nat := a.loads.getD 3 0

/-- `head`; `detect_runner.py:76`. -/
def head (a : Attempt) : Nat := a.loads.getD 4 0

/-- The address of the next load: the event word, the metadata, each word of each row in
turn, and the event word again; `detect_runner.py:72-84`. -/
def nextLoad (a : Attempt) : Option Nat :=
  match a.loads.length with
  | 0 => some 6
  | 1 => some 0
  | 2 => some 1
  | 3 => some 2
  | 4 => some 3
  | k + 5 =>
    if k < a.numRecords * a.nFields then
      some (metadataFields + ((a.head + k / a.nFields) % a.maxRecords) * a.nFields +
        k % a.nFields)
    else if k = a.numRecords * a.nFields then some 6
    else none

/-- The rows copied, once every word is loaded; `detect_runner.py:79-82`. -/
def rows (a : Attempt) : List (List Nat) :=
  (List.range a.numRecords).map fun i ↦
    (List.range a.nFields).map fun j ↦ a.loads.getD (5 + i * a.nFields + j) 0

/-- The rows returned by an attempt that has loaded `event_after` and found it equal to
`event_before`; `detect_runner.py:84-87`. -/
def result (a : Attempt) : Option (List (List Nat)) :=
  if a.loads.length = 5 + a.numRecords * a.nFields + 1 then
    if a.eventBefore = a.loads.getD (5 + a.numRecords * a.nFields) 0 then some a.rows else none
  else none

end Attempt

/-! ### Interleaving loads and stores -/

/-- The writer in the middle of at most one push, and the reader in one attempt. The fields
`complete`, `current` and `began` only record what happened: the stamped records of the
complete pushes and of the one in flight, and how many pushes were complete when the attempt
loaded `event_before`. -/
structure LiveState where
  buf : RecordBuffer
  mem : Segment
  stored : List WordStore
  pending : List WordStore
  attempt : Attempt
  complete : List (List Nat)
  current : Option (List Nat)
  began : Nat

/-- A step of either party. -/
inductive LiveAct (F : Nat) where
  | push (record : Vector Nat F)
  | store
  | load

/-- A fresh ring, no push in flight and an attempt that has loaded nothing. -/
def LiveState.fresh (F M : Nat) : LiveState where
  buf := (RingState.fresh F M).buf
  mem := (RingState.fresh F M).mem
  stored := []
  pending := []
  attempt := ⟨[]⟩
  complete := []
  current := none
  began := 0

/-- The writer enters `push` and computes the stores it will make, makes the next of them,
or the reader makes its next load. -/
def liveStep {F : Nat} (s : LiveState) : LiveAct F → Option LiveState
  | .push record =>
    if s.pending = [] then
      (s.buf.push record.toList s.mem).map fun p ↦
        { s with
          buf := p.1
          pending := p.2
          current := some (RecordBuffer.stamp (s.mem 6) record.toList) }
    else none
  | .store =>
    match s.pending with
    | [] => none
    | [w] => some
      { s with
        mem := s.mem.store w
        stored := []
        pending := []
        complete := s.complete ++ s.current.toList
        current := none }
    | w :: ws => some { s with mem := s.mem.store w, stored := s.stored ++ [w], pending := ws }
  | .load =>
    s.attempt.nextLoad.map fun a ↦
      { s with
        attempt := ⟨s.attempt.loads ++ [s.mem a]⟩
        began := if s.attempt.loads = [] then s.complete.length else s.began }

/-- The attempt has not returned, or it returned the ring contents after some number of
complete pushes. -/
def Untorn (M : Nat) (s : LiveState) : Prop :=
  ∀ recs, s.attempt.result = some recs →
    ∃ k, k ≤ (s.complete ++ s.current.toList).length ∧
      recs = ((s.complete ++ s.current.toList).take k).rtake M

/-- Two slots hold the records 0 and 1; the attempt loads the metadata, then the writer
overwrites the oldest slot, then the attempt copies both rows and finds the event word
unchanged. -/
def tornSchedule : List (LiveAct 1) :=
  .push #v[0] :: List.replicate 7 .store ++ .push #v[0] :: List.replicate 7 .store ++
    List.replicate 5 .load ++ [.push #v[0], .store, .load, .load, .load]

/-- Some interleaving returns rows that the ring never held together. -/
theorem liveSnapshot_torn :
    ¬ ∀ (M F : Nat), 1 ≤ M → 1 ≤ F → ∀ (acts : List (LiveAct F)) (s : LiveState),
      Run liveStep anyStep (LiveState.fresh F M) acts s → Untorn M s := by
  intro h
  obtain ⟨s, hs, hr, hc⟩ : ∃ s, tornSchedule.foldlM liveStep (LiveState.fresh 1 2) = some s ∧
      s.attempt.result = some [[2], [1]] ∧
      s.complete ++ s.current.toList = [[0], [1], [2]] := ⟨_, rfl, rfl, rfl⟩
  obtain ⟨k, hk, he⟩ := h 2 1 (by decide) (by decide) _ s (run_of_foldlM hs) _ hr
  rw [hc] at hk he
  have none_fits : ∀ k < 4, [[2], [1]] ≠ (([[0], [1], [2]] : List (List Nat)).take k).rtake 2 := by
    decide
  exact none_fits k (Nat.lt_succ_of_le hk) he

/-! ### The loads of an attempt on unchanging memory -/

/-- The addresses between the two loads of the event word, for the metadata of `m`. -/
def bodyAddrs (m : Segment) : List Nat :=
  [0, 1, 2, 3] ++ (List.range (m 2 * m 0)).map fun k ↦
    metadataFields + slot (m 1) (m 3) (k / m 0) * m 0 + k % m 0

/-- The values between the two loads of the event word, if only `m` is loaded from. -/
def body (m : Segment) : List Nat := (bodyAddrs m).map m

private theorem length_bodyAddrs (m : Segment) : (bodyAddrs m).length = 4 + m 2 * m 0 := by
  simp [bodyAddrs]
  omega

private theorem length_body (m : Segment) : (body m).length = 4 + m 2 * m 0 := by
  rw [body, List.length_map, length_bodyAddrs]

private theorem body_eq (m : Segment) : body m = m 0 :: m 1 :: m 2 :: m 3 ::
    (List.range (m 2 * m 0)).map fun k ↦
      m (metadataFields + slot (m 1) (m 3) (k / m 0) * m 0 + k % m 0) := by
  simp [body, bodyAddrs]

private theorem body_getElem? (m : Segment) (n : Nat) : (body m)[n]? = (bodyAddrs m)[n]?.map m := by
  rw [body, List.getElem?_map]

/-- An attempt that has loaded the first `n` values of `body m` loads the next address of
`bodyAddrs m`, then the event word. -/
private theorem nextLoad_body {m : Segment} {e n : Nat} (hn : n ≤ (body m).length) :
    (Attempt.mk (e :: (body m).take n)).nextLoad =
      some ((bodyAddrs m).getD n 6) := by
  rw [length_body] at hn
  match n with
  | 0 => simp [Attempt.nextLoad, bodyAddrs]
  | 1 => simp [Attempt.nextLoad, bodyAddrs, body_eq]
  | 2 => simp [Attempt.nextLoad, bodyAddrs, body_eq]
  | 3 => simp [Attempt.nextLoad, bodyAddrs, body_eq]
  | k + 4 =>
    have hl : (e :: (body m).take (k + 4)).length = k + 5 := by
      rw [List.length_cons, List.length_take, length_body]
      omega
    simp only [Attempt.nextLoad, hl]
    have hg : Attempt.mk (e :: (body m).take (k + 4)) = Attempt.mk (e :: m 0 :: m 1 :: m 2 :: m 3 ::
        ((List.range (m 2 * m 0)).map fun k ↦
          m (metadataFields + slot (m 1) (m 3) (k / m 0) * m 0 + k % m 0)).take k) := by
      simp [body_eq]
    rw [hg]
    simp only [Attempt.numRecords, Attempt.nFields, Attempt.head, Attempt.maxRecords,
      List.getD_cons_succ, List.getD_cons_zero]
    by_cases hk : k < m 2 * m 0
    · rw [if_pos hk]
      simp [bodyAddrs, hk, slot, List.getD_eq_getElem?_getD]
    · rw [if_neg hk, if_pos (by omega)]
      simp [bodyAddrs, hk, List.getD_eq_getElem?_getD]

/-- The rows of an attempt that has loaded all of `body m` are the rows of `m`. -/
private theorem rows_body {m : Segment} (hF : 0 < m 0) (e e' : Nat) :
    (Attempt.mk (e :: body m ++ [e'])).rows = window (m 1) (m 3) (m 2) (cell (m 0) m) := by
  rw [body_eq]
  simp only [Attempt.rows, Attempt.numRecords, Attempt.nFields, List.cons_append,
    List.getD_cons_succ, List.getD_cons_zero, window]
  apply List.map_congr_left
  intro i hi
  rw [List.mem_range] at hi
  apply List.map_congr_left
  intro j hj
  rw [List.mem_range] at hj
  have hk : i * m 0 + j < m 2 * m 0 :=
    calc i * m 0 + j < i * m 0 + m 0 := by omega
      _ = (i + 1) * m 0 := (Nat.succ_mul _ _).symm
      _ ≤ m 2 * m 0 := Nat.mul_le_mul_right _ hi
  have hd : (i * m 0 + j) / m 0 = i := by
    rw [Nat.mul_comm, Nat.mul_add_div hF, Nat.div_eq_of_lt hj, Nat.add_zero]
  have hr : (i * m 0 + j) % m 0 = j := by
    rw [Nat.mul_comm, Nat.mul_add_mod, Nat.mod_eq_of_lt hj]
  rw [show 5 + i * m 0 + j = i * m 0 + j + 1 + 1 + 1 + 1 + 1 by omega]
  simp only [List.getD_cons_succ]
  rw [List.getD_eq_getElem?_getD, List.getElem?_append_left (by simpa using hk)]
  simp [hk, hd, hr]

/-- The loads after a finished attempt that followed `m` are `body m` and the event word. -/
private theorem result_body {m : Segment} (hF : 0 < m 0) {e e' n : Nat} {recs : List (List Nat)}
    (hn : n ≤ (body m).length)
    (h : (Attempt.mk (e :: (body m).take n ++ [e'])).result = some recs) :
    recs = window (m 1) (m 3) (m 2) (cell (m 0) m) := by
  rw [length_body] at hn
  have hl : (e :: (body m).take n ++ [e']).length = n + 2 := by
    simp only [List.cons_append, List.length_cons, List.length_append, List.length_take,
      length_body]
    simp
    omega
  unfold Attempt.result at h
  split at h
  · next hlen =>
    rw [hl] at hlen
    obtain ⟨k, rfl⟩ : ∃ k, n = k + 4 := ⟨n - 4, by omega⟩
    have hfull : k + 4 = (body m).length := by
      rw [length_body]
      have hv : (Attempt.mk (e :: (body m).take (k + 4) ++ [e'])).numRecords = m 2 ∧
          (Attempt.mk (e :: (body m).take (k + 4) ++ [e'])).nFields = m 0 := by
        rw [body_eq]
        exact ⟨rfl, rfl⟩
      rw [hv.1, hv.2] at hlen
      omega
    rw [hfull, List.take_length] at h
    split at h
    · rw [← Option.some.inj h, rows_body hF]
    · contradiction
  · contradiction

/-! ### Part of a push -/

/-- Part way through stores to distinct words, each word is still old or already final. -/
theorem stores_split (m : Segment) {xs ys : List WordStore}
    (hn : ((xs ++ ys).map WordStore.addr).Nodup) (a : Nat) :
    (m.stores xs a = m a ∧ ∀ w ∈ xs, w.addr ≠ a) ∨
      (m.stores xs a = m.stores (xs ++ ys) a ∧ ∀ w ∈ ys, w.addr ≠ a) := by
  by_cases h : ∃ w ∈ xs, w.addr = a
  · right
    obtain ⟨w, hw, ha⟩ := h
    have hy : ∀ v ∈ ys, v.addr ≠ a := by
      intro v hv he
      rw [List.map_append, List.nodup_append] at hn
      exact hn.2.2 _ (List.mem_map_of_mem hw) _ (List.mem_map_of_mem hv) (ha.trans he.symm)
    rw [stores_append, stores_of_not_mem hy]
    exact ⟨rfl, hy⟩
  · left
    have hx : ∀ w ∈ xs, w.addr ≠ a := fun w hw he ↦ h ⟨w, hw, he⟩
    exact ⟨stores_of_not_mem hx, hx⟩

/-- A copy stores to consecutive words. -/
theorem map_addr_memcpy (dst : Nat) (src : List Nat) :
    (memcpy dst src).map WordStore.addr = List.range' dst src.length := by
  induction src generalizing dst with
  | nil => rfl
  | cons x xs ih => rw [memcpy_cons, List.map_cons, ih, List.length_cons, List.range'_succ]

/-- A push stores to each word once: a run of the record area and six metadata words. -/
theorem map_addr_pushStores (b : RecordBuffer) (record : List Nat) :
    (b.pushStores record).map WordStore.addr =
      List.range' (metadataFields + b.tail * b.numFields)
        ((RecordBuffer.stamp b.eventID record).take b.numFields).length ++ [0, 1, 2, 3, 4, 6] := by
  rw [RecordBuffer.pushStores, List.map_append, map_addr_memcpy]
  rfl

private theorem metaAddr_lt : ∀ y ∈ [0, 1, 2, 3, 4, 6], y < metadataFields := by decide

/-- No word is stored twice by one push. -/
theorem nodup_addr_pushStores (b : RecordBuffer) (record : List Nat) :
    ((b.pushStores record).map WordStore.addr).Nodup := by
  rw [map_addr_pushStores, List.nodup_append]
  refine ⟨List.nodup_range', by decide, ?_⟩
  intro x hx y hy he
  rw [List.mem_range'_1] at hx
  have := metaAddr_lt y hy
  omega

/-- A word of the record area that a push stores lies in the tail slot. -/
theorem addr_pushStores {F : Nat} {m : Segment} (hF : m 0 = F) {record : List Nat}
    (hr : record.length = F) {w : WordStore}
    (hw : w ∈ (RecordBuffer.loadMeta m).pushStores record) :
    w.addr < metadataFields ∨
      (metadataFields + m 4 * F ≤ w.addr ∧ w.addr < metadataFields + m 4 * F + F) := by
  have ha := List.mem_map_of_mem (f := WordStore.addr) hw
  rw [map_addr_pushStores, List.mem_append, List.mem_range'_1] at ha
  simp only [RecordBuffer.loadMeta, hF, List.length_take, length_stamp, hr, Nat.min_self] at ha
  rcases ha with ha | ha
  · exact .inr ha
  · exact .inl (metaAddr_lt _ ha)

/-! ### The invariant -/

/-- The segment is that of the complete pushes with part of the push in flight stored. -/
structure Flight (F M : Nat) (s : LiveState) (base : Segment) : Prop where
  fields : s.buf.numFields = F
  rep : Represents F M base ⟨s.complete.length, s.complete⟩
  mem : s.mem = base.stores s.stored
  phase : (s.pending = [] ∧ s.stored = [] ∧ s.current = none) ∨
    ∃ record, record.length = F ∧ s.pending ≠ [] ∧
      s.stored ++ s.pending = (RecordBuffer.loadMeta base).pushStores record ∧
      s.current = some (RecordBuffer.stamp (base 6) record)

/-- The loads after `event_before` are those of the segment before the push in flight, or,
once its record is stored, those of the segment after it. -/
def Follows (s : LiveState) (base : Segment) (tail : List Nat) : Prop :=
  (∃ n, n ≤ (body base).length ∧ tail = (body base).take n) ∨
  (∃ n, n ≤ (body (base.stores (s.stored ++ s.pending))).length ∧
    tail = (body (base.stores (s.stored ++ s.pending))).take n ∧ s.pending ≠ [] ∧
    (∀ w ∈ s.pending, w.addr < metadataFields) ∧ 3 ≤ n ∧
    (n = 3 → base.stores (s.stored ++ s.pending) 3 = base 3))

/-- The attempt is over, not begun, doomed because a push completed meanwhile, or so far
consistent with one state of the ring. -/
def AttemptInv (s : LiveState) (base : Segment) : Prop :=
  s.attempt.nextLoad = none ∨ s.attempt.loads = [] ∨
    ∃ tail, s.attempt.loads = s.began % wordSize :: tail ∧ s.began ≤ s.complete.length ∧
      (s.began = s.complete.length → Follows s base tail)

/-- What every state of an undisturbed run satisfies. -/
def LiveInv (F M : Nat) (s : LiveState) : Prop :=
  Untorn M s ∧ ∃ base, Flight F M s base ∧ AttemptInv s base

/-- The exact disturbance: the attempt is about to load a word of the record at the head it
loaded, and a push in flight on a full ring has stored that word already. Besides, the event
word must not come round to the same value during the attempt. -/
def Undisturbed {F : Nat} (M : Nat) (s : LiveState) : LiveAct F → Prop
  | .load =>
    (M ≤ s.complete.length → 5 ≤ s.attempt.loads.length → s.attempt.loads.length < 5 + F →
      ∀ a ∈ s.attempt.nextLoad, ∀ w ∈ s.stored, w.addr ≠ a) ∧
    (s.attempt.loads ≠ [] → s.complete.length - s.began < wordSize)
  | _ => True

instance {F : Nat} (M : Nat) (s : LiveState) : (a : LiveAct F) → Decidable (Undisturbed M s a)
  | .load => inferInstanceAs (Decidable (_ ∧ _))
  | .push _ => .isTrue trivial
  | .store => .isTrue trivial

private theorem liveInv_fresh {F M : Nat} (hM : 0 < M) : LiveInv F M (LiveState.fresh F M) := by
  refine ⟨?_, (LiveState.fresh F M).mem, ⟨rfl, represents_fresh hM, rfl, .inl ⟨rfl, rfl, rfl⟩⟩,
    .inr (.inl rfl)⟩
  intro recs h
  simp [LiveState.fresh, Attempt.result] at h

/-- Records pushed later do not spoil what an attempt returned. -/
private theorem Untorn.extend {M : Nat} {s s' : LiveState} (h : Untorn M s)
    (ha : s'.attempt = s.attempt)
    (hc : s.complete ++ s.current.toList <+: s'.complete ++ s'.current.toList) : Untorn M s' := by
  intro recs hr
  rw [ha] at hr
  obtain ⟨k, hk, he⟩ := h recs hr
  obtain ⟨rest, hrest⟩ := hc
  refine ⟨k, ?_, ?_⟩
  · rw [← hrest, List.length_append]
    omega
  · rw [he, ← hrest, List.take_append_of_le_length hk]

private theorem liveInv_push {F M : Nat} {s s' : LiveState} {record : Vector Nat F}
    (h : LiveInv F M s) (hs : liveStep s (.push record) = some s') : LiveInv F M s' := by
  obtain ⟨hu, base, hf, ha⟩ := h
  simp only [liveStep] at hs
  split at hs
  · next hp =>
    have hr : record.toList.length = F := by simp
    rw [RecordBuffer.push, if_pos (by rw [hr, hf.fields]), Option.map_some, Option.some.injEq] at hs
    have hidle : s.stored = [] ∧ s.current = none := by
      rcases hf.phase with ⟨_, hst, hc⟩ | ⟨_, _, hne, _⟩
      · exact ⟨hst, hc⟩
      · exact absurd hp hne
    have hmem : s.mem = base := by rw [hf.mem, hidle.1]; rfl
    subst hs
    refine ⟨hu.extend rfl ?_, base, ⟨?_, hf.rep, ?_, .inr ⟨record.toList, hr, ?_, ?_, ?_⟩⟩, ?_⟩
    · simp [hidle.2]
    · rw [hmem]
      exact hf.rep.fields
    · rw [hmem, hidle.1]
      rfl
    · simp [RecordBuffer.pushStores, RecordBuffer.updateMeta]
    · rw [hidle.1, hmem]
      rfl
    · rw [hmem]
    · rcases ha with ha | ha | ⟨tail, hl, hb, hv⟩
      · exact .inl ha
      · exact .inr (.inl ha)
      · refine .inr (.inr ⟨tail, hl, hb, fun he ↦ ?_⟩)
        rcases hv he with old | ⟨_, _, _, hne, _⟩
        · exact .inl old
        · exact absurd hp hne
  · contradiction

private theorem liveInv_store {F M : Nat} (hM : 0 < M) {s s' : LiveState} (h : LiveInv F M s)
    (hs : liveStep (F := F) s .store = some s') : LiveInv F M s' := by
  obtain ⟨hu, base, hf, ha⟩ := h
  rcases hf.phase with ⟨hp, _, _⟩ | ⟨record, hr, _, hst, hc⟩
  · simp [liveStep, hp] at hs
  cases hp : s.pending with
  | nil => simp [liveStep, hp] at hs
  | cons w ws =>
    rw [hp] at hst
    cases ws with
    | nil =>
      -- the last store completes the push
      simp only [liveStep, hp, Option.some.injEq] at hs
      subst hs
      have hmem : s.mem.store w = base.stores ((RecordBuffer.loadMeta base).pushStores record) := by
        rw [← hst, stores_append, ← hf.mem]
        rfl
      refine ⟨hu.extend rfl (by simp),
        base.stores ((RecordBuffer.loadMeta base).pushStores record),
        ⟨hf.fields, ?_, hmem, .inl ⟨rfl, rfl, rfl⟩⟩, ?_⟩
      · have := represents_push hM hf.rep hr
        simpa [hc, hf.rep.event] using this
      · rcases ha with ha | ha | ⟨tail, hl, hb, _⟩
        · exact .inl ha
        · exact .inr (.inl ha)
        · have hlen : (s.complete ++ s.current.toList).length = s.complete.length + 1 := by
            simp [hc]
          refine .inr (.inr ⟨tail, hl, ?_, fun he ↦ ?_⟩)
          · change s.began ≤ (s.complete ++ s.current.toList).length
            omega
          · change s.began = (s.complete ++ s.current.toList).length at he
            omega
    | cons w' ws =>
      simp only [liveStep, hp, Option.some.injEq] at hs
      subst hs
      have happ : s.stored ++ [w] ++ w' :: ws = s.stored ++ s.pending := by rw [hp]; simp
      refine ⟨hu.extend rfl (List.prefix_refl _), base, ⟨hf.fields, hf.rep, ?_,
        .inr ⟨record, hr, by simp, ?_, hc⟩⟩, ?_⟩
      · rw [stores_append, ← hf.mem]
        rfl
      · rw [← hst]
        simp
      · rcases ha with ha | ha | ⟨tail, hl, hb, hv⟩
        · exact .inl ha
        · exact .inr (.inl ha)
        · refine .inr (.inr ⟨tail, hl, hb, fun he ↦ ?_⟩)
          rcases hv he with old | ⟨n, hn, ht, _, hlt, h3, h3'⟩
          · exact .inl old
          · refine .inr ⟨n, ?_, ?_, by simp, ?_, h3, ?_⟩
            · rwa [happ]
            · rwa [happ]
            · intro v hv'
              exact hlt v (by rw [hp]; exact List.mem_cons_of_mem w hv')
            · rwa [happ]

/-- The event word changes only when a push completes. -/
private theorem Flight.event {F M : Nat} {s : LiveState} {base : Segment} (hf : Flight F M s base) :
    s.mem 6 = s.complete.length % wordSize := by
  rw [← hf.rep.event, hf.mem]
  rcases hf.phase with ⟨_, hst, _⟩ | ⟨record, _, hne, hst, _⟩
  · rw [hst]
    rfl
  · have hn : ((s.stored ++ s.pending).map WordStore.addr).Nodup := by
      rw [hst]
      exact nodup_addr_pushStores _ _
    rcases stores_split base hn 6 with ⟨hold, _⟩ | ⟨_, hlast⟩
    · exact hold
    · obtain ⟨p, w, hp⟩ := (List.eq_nil_or_concat' s.pending).resolve_left hne
      have hw := congrArg List.getLast? hst
      rw [hp, ← List.append_assoc, List.getLast?_concat] at hw
      simp only [RecordBuffer.pushStores, RecordBuffer.updateMeta, Bool.false_eq_true, if_false,
        ← List.append_assoc, List.getLast?_concat, Option.some.injEq] at hw
      exact absurd (by rw [hw]) (hlast w (by rw [hp]; simp))

/-- Returned rows were followed by a load of the event word that found it unchanged. -/
private theorem result_concat {loads : List Nat} {e v a : Nat} {tail : List Nat}
    {recs : List (List Nat)} (hl : loads = e :: tail) (hn : (Attempt.mk loads).nextLoad = some a)
    (hr : (Attempt.mk (loads ++ [v])).result = some recs) : a = 6 ∧ e = v := by
  unfold Attempt.result at hr
  split at hr
  · next hlen =>
    have hlen' : loads.length =
        5 + (Attempt.mk (loads ++ [v])).numRecords * (Attempt.mk (loads ++ [v])).nFields := by
      simpa using hlen
    have hsame (i : Nat) (hi : i < 5) : (loads ++ [v]).getD i 0 = loads.getD i 0 := by
      rw [List.getD_eq_getElem?_getD, List.getElem?_append_left (by omega),
        List.getD_eq_getElem?_getD]
    simp only [Attempt.numRecords, Attempt.nFields, hsame 1 (by omega), hsame 3 (by omega)] at hlen'
    constructor
    · rw [Attempt.nextLoad, hlen', Nat.add_comm 5] at hn
      simp only [Attempt.numRecords, Attempt.nFields, Nat.lt_irrefl, if_false, if_true,
        Option.some.injEq] at hn
      exact hn.symm
    · split at hr
      · next he =>
        simp only [Attempt.eventBefore, Attempt.numRecords, Attempt.nFields, hsame 0 (by omega),
          hsame 1 (by omega), hsame 3 (by omega), ← hlen'] at he
        rw [hl] at he
        simpa using he
      · contradiction
  · contradiction

/-- Once a metadata word of a push is stored, only metadata words remain. -/
private theorem pending_meta {base : Segment} {record : List Nat} {s : LiveState}
    (hst : s.stored ++ s.pending = (RecordBuffer.loadMeta base).pushStores record)
    {w : WordStore} (hw : w ∈ s.stored) (ha : w.addr < metadataFields) :
    ∀ v ∈ s.pending, v.addr < metadataFields := by
  rw [RecordBuffer.pushStores, List.append_eq_append_iff] at hst
  rcases hst with ⟨rest, hcopy, _⟩ | ⟨rest, _, hmeta⟩
  · have hm := List.mem_map_of_mem (f := WordStore.addr) (List.mem_append_left rest hw)
    rw [← hcopy, map_addr_memcpy, List.mem_range'_1] at hm
    omega
  · intro v hv
    exact addr_updateMeta _ _ v (by rw [hmeta]; exact List.mem_append_right rest hv)

private theorem take_concat {xs : List Nat} {n v : Nat} (h : xs[n]? = some v) :
    xs.take n ++ [v] = xs.take (n + 1) := by
  rw [List.take_add_one, h]
  rfl

/-- A word that the push in flight has stored holds what the whole push leaves there. -/
private theorem Flight.mem_of_stored {F M : Nat} {s : LiveState} {base : Segment}
    (hf : Flight F M s base) {w : WordStore} (hw : w ∈ s.stored) :
    s.mem w.addr = base.stores (s.stored ++ s.pending) w.addr := by
  rcases hf.phase with ⟨_, hst, _⟩ | ⟨record, _, _, hst, _⟩
  · rw [hst] at hw
    exact absurd hw List.not_mem_nil
  · have hnodup : ((s.stored ++ s.pending).map WordStore.addr).Nodup := by
      rw [hst]
      exact nodup_addr_pushStores _ _
    rw [hf.mem]
    rcases stores_split base hnodup w.addr with ⟨_, hno⟩ | ⟨hnew, _⟩
    · exact absurd rfl (hno w hw)
    · exact hnew

/-- A row of the window that the push in flight has stored a word of is the row at the head of
a full ring: the push writes the tail slot, which the window reaches only there. -/
private theorem Flight.stored_row {F M : Nat} {s : LiveState} {base : Segment}
    (hf : Flight F M s base) {k : Nat} (hk : k < base 2 * F) {w : WordStore} (hw : w ∈ s.stored)
    (haddr : metadataFields + slot M (base 3) (k / F) * F + k % F = w.addr) :
    M ≤ s.complete.length ∧ k < F := by
  rcases hf.phase with ⟨_, hst, _⟩ | ⟨record, hr, _, hst, _⟩
  · rw [hst] at hw
    exact absurd hw List.not_mem_nil
  have hF : 0 < F := Nat.pos_of_ne_zero (by rintro rfl; omega)
  have hmod := Nat.mod_lt k hF
  have htail : slot M (base 3) (k / F) = base 4 := by
    rcases addr_pushStores hf.rep.fields hr (by rw [← hst]; exact List.mem_append_left _ hw) with
      hlt | ⟨hge, hlt⟩
    · omega
    · exact slot_words_disjoint hmod (j := w.addr - metadataFields - base 4 * F) (by omega)
        (by omega)
  have hi : k / F < base 2 := (Nat.div_lt_iff_lt_mul hF).mpr hk
  have hcount : base 2 = min s.complete.length M := hf.rep.count
  have hle : base 2 ≤ M := by rw [hcount]; exact Nat.min_le_right _ _
  rw [hf.rep.tail] at htail
  rcases Nat.lt_or_eq_of_le hle with hlt | hfull
  · have := slot_inj (by omega) hlt htail
    omega
  · have hhead : slot M (base 3) (k / F) = slot M (base 3) 0 := by
      rw [htail, hfull, slot_self hf.rep.head_lt, slot_zero hf.rep.head_lt]
    have hz : k / F = 0 := slot_inj (hfull ▸ hi) (Nat.zero_lt_of_lt (hfull ▸ hi)) hhead
    exact ⟨by omega, (Nat.div_eq_zero_iff_lt hF).mp hz⟩

/-- One more load of an attempt that so far saw the segment before the push in flight. -/
private theorem follows_load_old {F M : Nat} {s : LiveState} {base : Segment}
    (hf : Flight F M s base) {n a : Nat} (hn : n < (body base).length)
    (ha : (bodyAddrs base)[n]? = some a) (hl : s.attempt.loads.length = n + 1)
    (hnext : s.attempt.nextLoad = some a)
    (ok : M ≤ s.complete.length → 5 ≤ s.attempt.loads.length → s.attempt.loads.length < 5 + F →
      ∀ a, s.attempt.nextLoad = some a → ∀ w ∈ s.stored, w.addr ≠ a) :
    Follows s base ((body base).take n ++ [s.mem a]) := by
  have hget : (body base)[n]? = some (base a) := by rw [body_getElem?, ha]; rfl
  have old (h : s.mem a = base a) : Follows s base ((body base).take n ++ [s.mem a]) := by
    rw [h, take_concat hget]
    exact .inl ⟨n + 1, hn, rfl⟩
  rcases hf.phase with ⟨_, hst, _⟩ | ⟨record, hr, hne, hst, _⟩
  · exact old (by rw [hf.mem, hst]; rfl)
  by_cases hstored : ∀ w ∈ s.stored, w.addr ≠ a
  · exact old (by rw [hf.mem, stores_of_not_mem hstored])
  push Not at hstored
  obtain ⟨w, hw, hwa⟩ := hstored
  have hnew : s.mem a = base.stores (s.stored ++ s.pending) a := by
    rw [← hwa]
    exact hf.mem_of_stored hw
  obtain ⟨h0, h1, h2, h3, _, _⟩ := pushStores_values base record
  rw [← hst] at h0 h1 h2 h3
  rw [hf.rep.capacity] at h1 h2 h3
  rw [hf.rep.fields] at h0
  have hbody := body_eq (base.stores (s.stored ++ s.pending))
  have hlen := length_body (base.stores (s.stored ++ s.pending))
  match n with
  | 0 =>
    obtain rfl : 0 = a := by simpa [bodyAddrs] using ha
    exact old (by rw [hnew, h0, hf.rep.fields])
  | 1 =>
    obtain rfl : 1 = a := by simpa [bodyAddrs] using ha
    exact old (by rw [hnew, h1, hf.rep.capacity])
  | 2 =>
    obtain rfl : 2 = a := by simpa [bodyAddrs] using ha
    have hmeta := pending_meta hst hw (by rw [hwa]; decide)
    by_cases hfull : base 2 < M
    · -- the grown count is visible, and with it the whole record
      rw [if_neg (by omega)] at h3
      refine .inr ⟨3, by omega, ?_, hne, hmeta, Nat.le_refl 3, fun _ ↦ h3⟩
      rw [hbody, hnew, body_eq, h0, h1, hf.rep.fields, hf.rep.capacity]
      rfl
    · rw [if_neg hfull] at h2
      exact old (by rw [hnew, h2])
  | 3 =>
    obtain rfl : 3 = a := by simpa [bodyAddrs] using ha
    have hmeta := pending_meta hst hw (by rw [hwa]; decide)
    by_cases hfull : base 2 = M
    · -- the moved head is visible, and with it the whole record
      rw [if_neg (by omega)] at h2
      refine .inr ⟨4, by omega, ?_, hne, hmeta, by omega, by omega⟩
      rw [hbody, hnew, body_eq, h0, h1, h2, hf.rep.fields, hf.rep.capacity]
      rfl
    · rw [if_neg hfull] at h3
      exact old (by rw [hnew, h3])
  | k + 4 =>
    exfalso
    rw [length_body, hf.rep.fields] at hn
    have hk : k < base 2 * F := by omega
    have haddr : metadataFields + slot M (base 3) (k / F) * F + k % F = w.addr := by
      rw [hwa]
      simpa [bodyAddrs, hf.rep.fields, hf.rep.capacity, hk] using ha
    obtain ⟨hfull, hkF⟩ := hf.stored_row hk hw haddr
    exact ok hfull (by omega) (by omega) a hnext w hw hwa

/-- One more load of an attempt that already sees the push in flight. -/
private theorem follows_load_new {F M : Nat} {s : LiveState} {base : Segment}
    (hf : Flight F M s base) {n a : Nat}
    (hn : n < (body (base.stores (s.stored ++ s.pending))).length)
    (ha : (bodyAddrs (base.stores (s.stored ++ s.pending)))[n]? = some a)
    (hne : s.pending ≠ []) (hmeta : ∀ w ∈ s.pending, w.addr < metadataFields) (h3 : 3 ≤ n)
    (hhead : n = 3 → base.stores (s.stored ++ s.pending) 3 = base 3) :
    Follows s base ((body (base.stores (s.stored ++ s.pending))).take n ++ [s.mem a]) := by
  have hget : (body (base.stores (s.stored ++ s.pending)))[n]? =
      some (base.stores (s.stored ++ s.pending) a) := by rw [body_getElem?, ha]; rfl
  have hnew : s.mem a = base.stores (s.stored ++ s.pending) a := by
    rcases hf.phase with ⟨hp, _, _⟩ | ⟨record, _, _, hst, _⟩
    · exact absurd hp hne
    have hnodup : ((s.stored ++ s.pending).map WordStore.addr).Nodup := by
      rw [hst]
      exact nodup_addr_pushStores _ _
    rw [hf.mem]
    by_cases h : n = 3
    · have ha3 : a = 3 := by
        rw [h] at ha
        simpa [bodyAddrs] using ha.symm
      rcases stores_split base hnodup a with ⟨hold, _⟩ | ⟨hnew, _⟩
      · rw [hold, ha3, hhead h]
      · exact hnew
    · obtain ⟨k, rfl⟩ : ∃ k, n = k + 4 := ⟨n - 4, by omega⟩
      rw [stores_append, stores_of_not_mem (m := base.stores s.stored)]
      intro w hw he
      have := hmeta w hw
      rw [length_body] at hn
      have hk :
          k < base.stores (s.stored ++ s.pending) 2 * base.stores (s.stored ++ s.pending) 0 := by
        omega
      have : metadataFields ≤ a := by
        simp only [bodyAddrs, List.cons_append, List.nil_append, List.getElem?_cons_succ,
          List.getElem?_map, List.getElem?_range hk, Option.map_some, Option.some.injEq] at ha
        omega
      omega
  rw [hnew, take_concat hget]
  exact .inr ⟨n + 1, hn, rfl, hne, hmeta, by omega, by omega⟩

/-- An attempt that has loaded all of `body m` and the event word loads nothing more. -/
private theorem nextLoad_done {m : Segment} (e e' : Nat) :
    (Attempt.mk (e :: body m ++ [e'])).nextLoad = none := by
  have hl : (e :: body m ++ [e']).length = (m 2 * m 0 + 1) + 5 := by
    rw [List.length_append, List.length_cons, length_body, List.length_singleton]
    omega
  have hv : (Attempt.mk (e :: body m ++ [e'])).numRecords = m 2 ∧
      (Attempt.mk (e :: body m ++ [e'])).nFields = m 0 := by
    rw [body_eq]
    exact ⟨rfl, rfl⟩
  simp only [Attempt.nextLoad, hl, hv.1, hv.2]
  rw [if_neg (by omega), if_neg (by omega)]

/-- What a consistent attempt returns is the ring after some number of complete pushes. -/
private theorem Flight.untorn {F M : Nat} (hM : 0 < M) (hF : 0 < F) {s : LiveState} {base : Segment}
    (hf : Flight F M s base) {e v : Nat} {tail : List Nat} (hv : Follows s base tail)
    {recs : List (List Nat)} (hr : (Attempt.mk (e :: tail ++ [v])).result = some recs) :
    ∃ k, k ≤ (s.complete ++ s.current.toList).length ∧
      recs = ((s.complete ++ s.current.toList).take k).rtake M := by
  rcases hv with ⟨n, hn, rfl⟩ | ⟨n, hn, rfl, hne, _⟩
  · refine ⟨s.complete.length, by simp, ?_⟩
    rw [result_body (by rw [hf.rep.fields]; exact hF) hn hr, List.take_left, hf.rep.fields,
      hf.rep.capacity]
    exact hf.rep.rows
  · rcases hf.phase with ⟨hp, _, _⟩ | ⟨record, hrec, _, hst, hc⟩
    · exact absurd hp hne
    have hrep := represents_push hM hf.rep hrec
    rw [hst] at hn hr
    refine ⟨s.complete.length + 1, by simp [hc], ?_⟩
    rw [result_body (by rw [hrep.fields]; exact hF) hn hr, hrep.fields, hrep.capacity, hrep.rows,
      List.take_of_length_le (by simp [hc]), hc, hf.rep.event]
    rfl

private theorem liveInv_load {F M : Nat} (hM : 0 < M) (hF : 0 < F) {s s' : LiveState}
    (h : LiveInv F M s) (ok : Undisturbed (F := F) M s .load)
    (hs : liveStep (F := F) s .load = some s') : LiveInv F M s' := by
  obtain ⟨_, base, hf, ha⟩ := h
  obtain ⟨okWord, okEvent⟩ := ok
  simp only [liveStep, Option.map_eq_some_iff] at hs
  obtain ⟨a, hnext, hs⟩ := hs
  rcases ha with ha | ha | ⟨tail, hl, hb, hv⟩
  · rw [hnext] at ha
    contradiction
  · -- the first load takes the event word of the complete pushes
    have ha6 : a = 6 := by
      rw [Attempt.nextLoad, ha] at hnext
      exact (Option.some.inj hnext).symm
    subst hs
    refine ⟨?_, base, ⟨hf.fields, hf.rep, hf.mem, hf.phase⟩, .inr (.inr ⟨[], ?_, ?_, fun _ ↦ ?_⟩)⟩
    · intro recs hr
      simp [Attempt.result, ha] at hr
    · simp [ha, ha6, hf.event]
    · simp [ha]
    · exact .inl ⟨0, Nat.zero_le _, rfl⟩
  · have hne : s.attempt.loads ≠ [] := by rw [hl]; simp
    rw [if_neg hne] at hs
    subst hs
    refine ⟨?_, base, ⟨hf.fields, hf.rep, hf.mem, hf.phase⟩, ?_⟩
    · intro recs hr
      obtain ⟨ha6, he⟩ := result_concat hl hnext hr
      rcases Nat.lt_or_eq_of_le hb with hlt | heq
      · -- a push completed meanwhile, so the event word differs
        have hw := okEvent hne
        rw [ha6, hf.event] at he
        have hz := Nat.sub_mod_eq_zero_of_mod_eq he.symm
        rw [Nat.mod_eq_of_lt hw] at hz
        omega
      · have hr' : (Attempt.mk (s.began % wordSize :: tail ++ [s.mem a])).result = some recs := by
          rw [← hl]
          exact hr
        exact hf.untorn hM hF (hv heq) hr'
    · rcases Nat.lt_or_eq_of_le hb with hlt | heq
      · exact .inr (.inr ⟨tail ++ [s.mem a], by simp [hl], hb, fun he ↦ absurd he hlt.ne⟩)
      · have step {m : Segment} {n : Nat} (hn : n ≤ (body m).length) (ht : tail = (body m).take n)
            (more : n < (body m).length → (bodyAddrs m)[n]? = some a →
              Follows s base ((body m).take n ++ [s.mem a])) :
            AttemptInv { s with attempt := ⟨s.attempt.loads ++ [s.mem a]⟩ } base := by
          rcases Nat.lt_or_eq_of_le hn with hlt | hfull
          · have haddr : (bodyAddrs m)[n]? = some a := by
              have hnl := nextLoad_body (e := s.began % wordSize) hn
              rw [← ht, ← hl] at hnl
              rw [hnext, Option.some.injEq, List.getD_eq_getElem?_getD] at hnl
              have hin : n < (bodyAddrs m).length := by
                rw [length_bodyAddrs, ← length_body]
                exact hlt
              rw [List.getElem?_eq_getElem hin, Option.getD_some] at hnl
              rw [List.getElem?_eq_getElem hin, hnl]
            exact .inr (.inr ⟨tail ++ [s.mem a], by simp [hl], hb,
              fun _ ↦ by rw [ht]; exact more hlt haddr⟩)
          · left
            change (Attempt.mk (s.attempt.loads ++ [s.mem a])).nextLoad = none
            rw [hl, ht, hfull, List.take_length]
            exact nextLoad_done _ _
        rcases hv heq with ⟨n, hn, ht⟩ | ⟨n, hn, ht, hp, hmeta, h3, hhead⟩
        · refine step hn ht fun hlt haddr ↦ follows_load_old hf hlt haddr ?_ hnext okWord
          rw [hl, ht, List.length_cons, List.length_take]
          omega
        · exact step hn ht fun hlt haddr ↦ follows_load_new hf hlt haddr hp hmeta h3 hhead

/-- Whatever the interleaving, an attempt that is never about to load a word of the record
at its head which a push in flight on a full ring has overwritten returns the contents of
the ring after some number of complete pushes. -/
theorem liveSnapshot_untorn (M F : Nat) (hM : 1 ≤ M) (hF : 1 ≤ F) (acts : List (LiveAct F))
    (s : LiveState) (h : Run liveStep (Undisturbed M) (LiveState.fresh F M) acts s) :
    Untorn M s := by
  have hinv : LiveInv F M s := by
    apply h.invariant (liveInv_fresh hM)
    intro t u a ht ok hs
    cases a with
    | push record => exact liveInv_push ht hs
    | store => exact liveInv_store hM ht hs
    | load => exact liveInv_load hM hF ht ok hs
  exact hinv.1

/-- A ring of two slots, an attempt that loads the event word and the metadata of two
complete pushes, and a third push that has stored its record in the meantime when the
attempt copies the row behind the head. -/
theorem liveSnapshot_untorn_overlapped :
    ∃ s, Run liveStep (Undisturbed 2) (LiveState.fresh 1 2)
        (.push #v[0] :: List.replicate 7 .store ++ .push #v[0] :: List.replicate 7 .store ++
          List.replicate 6 .load ++ [.push #v[0], .store, .load, .load]) s ∧
      s.attempt.result = some [[0], [1]] ∧ Untorn 2 s := by
  have untorn : ∀ (acts : List (LiveAct 1)) (s : LiveState),
      Run liveStep (Undisturbed 2) (LiveState.fresh 1 2) acts s →
      s.attempt.result = some [[0], [1]] →
      ∃ s, Run liveStep (Undisturbed 2) (LiveState.fresh 1 2) acts s ∧
        s.attempt.result = some [[0], [1]] ∧ Untorn 2 s :=
    fun acts s hs hr ↦ ⟨s, hs, hr, liveSnapshot_untorn 2 1 (by decide) (by decide) acts s hs⟩
  exact untorn _ _ (run_of_guarded rfl) rfl

end ProbingBaselines.Greyhound
