import Mathlib.Algebra.Group.Int.Defs
import Mathlib.Algebra.Group.Nat.Defs
import Mathlib.Data.List.TakeWhile
import Mathlib.Data.List.Nodup
import Mathlib.Data.List.Perm.Lattice

/-!
# Validation tasks and their texts

The point-to-point tasks the global controller writes for the ranks of a communicator
(`detector/control_plane/global_controller.py:73-84`), how a ring is split into tasks
(`detector/control_plane/task_split.py:5-25`), and how a worker reads a task's text back
(`detector/event_handler.cpp:10-22`, `:153-172`). Texts are lists of characters; the C++
string conversions return `none` where they throw.
-/

namespace ProbingBaselines.Greyhound

/-! ### Tasks -/

/-- `ProcessRole`; `detector/event_handler.hpp:25-29`. -/
inductive ProcessRole where
  | sender
  | recver
  deriving DecidableEq

namespace ProcessRole

/-- The number written for a role; `global_controller.py:21-23`. -/
def code : ProcessRole → Nat
  | sender => 0
  | recver => 1

/-- The role at the other end of a transfer. -/
def flip : ProcessRole → ProcessRole
  | sender => recver
  | recver => sender

@[simp]
theorem flip_flip (r : ProcessRole) : r.flip.flip = r := by
  cases r <;> rfl

end ProcessRole

/-- A task: the senders and the receivers, by group rank; `global_controller.py:74`. -/
structure CommTask where
  senders : List Nat
  recvers : List Nat

/-- What one rank of a task is told: its role, the group rank of its peer and the address of
its own communicator; `global_controller.py:79-82`. -/
structure Job where
  role : ProcessRole
  peer : Nat
  commAddr : Nat

/-- The clique a task list is for: communicator address and global rank of each group rank,
the address a 64-bit word; `global_controller.py:195-198`. -/
structure Clique where
  commAddrs : Nat → Nat
  group2global : Nat → Nat
  commAddrs_lt : ∀ g, commAddrs g < 2 ^ 64

namespace CommTask

variable (c : Clique) (t : CommTask)

/-- The pairs of a task, by group rank; `zip(senders, recvers)`. -/
def pairs : List (Nat × Nat) := t.senders.zip t.recvers

/-- The tasks written, by global rank, in the order written; `global_controller.py:75-84`. -/
def writes : List (Nat × Job) :=
  t.pairs.flatMap fun p ↦
    [(c.group2global p.1, ⟨.sender, p.2, c.commAddrs p.1⟩),
      (c.group2global p.2, ⟨.recver, p.1, c.commAddrs p.2⟩)]

/-- What a task tells a global rank. -/
def job (r : Nat) : Option Job := (t.writes c).lookup r

/-- `set(senders + recvers)`; `global_controller.py:99`. -/
def allRanks : List Nat := (t.senders ++ t.recvers).dedup

/-- Every sender has a receiver, no rank is named twice, and ranks are C `int`s. -/
structure WellFormed : Prop where
  paired : t.senders.length = t.recvers.length
  named : ((t.senders ++ t.recvers).map c.group2global).Nodup
  bounded : ∀ g ∈ t.senders ++ t.recvers, g < 2 ^ 31

end CommTask

/-- `xs[0::2]`. -/
def stride {α : Type} : List α → List α
  | [] => []
  | [x] => [x]
  | x :: _ :: xs => x :: stride xs

/-- `split_ring`; `task_split.py:5-25`. An empty ring raises at `ring[0]`. -/
def splitRing (ring : List Nat) : Option (List CommTask) :=
  match ring with
  | [] => none
  | [a, b] => some [⟨[a], [b]⟩, ⟨[b], [a]⟩]
  | a :: rest =>
    if ring.length % 2 = 0 then
      some [⟨stride ring, stride (ring.drop 1)⟩,
        ⟨stride (ring.drop 1), stride (ring.dropLast.drop 2) ++ [a]⟩]
    else
      some [⟨stride ring.dropLast, stride (ring.drop 1)⟩,
        ⟨stride (ring.drop 1), stride (ring.drop 2)⟩,
        ⟨[(a :: rest).getLast (List.cons_ne_nil a rest)], [a]⟩]

theorem stride_perm {α : Type} (xs : List α) : (stride xs ++ stride (xs.drop 1)).Perm xs := by
  match xs with
  | [] => exact .refl _
  | [x] => exact .refl _
  | x :: y :: xs =>
    have ih := stride_perm xs
    cases xs with
    | nil => exact .refl _
    | cons z xs =>
      simp only [stride, List.drop_succ_cons, List.drop_zero, List.cons_append] at ih ⊢
      exact ((List.perm_middle.trans (ih.cons y)).cons x)

theorem length_stride {α : Type} (xs : List α) : (stride xs).length = (xs.length + 1) / 2 := by
  match xs with
  | [] => simp [stride]
  | [x] => simp [stride]
  | x :: y :: xs =>
    simp only [stride, List.length_cons, length_stride xs]
    omega

/-- The last entry of an even-length list is at an odd place. -/
theorem stride_dropLast {α : Type} (xs : List α) (h : xs.length % 2 = 0) :
    stride xs.dropLast = stride xs := by
  match xs with
  | [] => rfl
  | [x] => simp at h
  | [x, y] => rfl
  | x :: y :: z :: xs =>
    have ih := stride_dropLast (z :: xs) (by simp only [List.length_cons] at h ⊢; omega)
    simp only [List.dropLast_cons_cons, stride] at ih ⊢
    rw [ih]

theorem stride_concat {α : Type} (xs : List α) (a : α) (h : xs.length % 2 = 0) :
    stride (xs ++ [a]) = stride xs ++ [a] := by
  match xs with
  | [] => rfl
  | [x] => simp at h
  | x :: y :: xs =>
    have even : xs.length % 2 = 0 := by
      simp only [List.length_cons] at h
      omega
    simp only [List.cons_append, stride, stride_concat xs a even]

/-- The last entry of a list of odd length is not read by a stride from the second place. -/
theorem stride_concat_odd {α : Type} (xs : List α) (a : α) (h : xs.length % 2 = 1) :
    stride (xs ++ [a]) = stride xs := by
  have even : (xs ++ [a]).length % 2 = 0 := by
    rw [List.length_append, List.length_singleton]
    omega
  rw [← stride_dropLast _ even, List.dropLast_concat]

/-- The tasks of an even number of ranks. -/
theorem splitRing_even (a b : Nat) (rest : List Nat) (even : rest.length % 2 = 0) :
    splitRing (a :: b :: rest) = some [⟨stride (a :: b :: rest), stride (b :: rest)⟩,
      ⟨stride (b :: rest), stride rest ++ [a]⟩] := by
  cases rest with
  | nil => rfl
  | cons d rest =>
    have ring : (a :: b :: d :: rest).length % 2 = 0 := by
      simp only [List.length_cons] at even ⊢
      omega
    have last : (a :: b :: d :: rest).dropLast.drop 2 = (d :: rest).dropLast := by simp
    simp only [splitRing, if_pos ring, last, stride_dropLast _ even, List.drop_succ_cons,
      List.drop_zero]

/-- The tasks of an odd number of ranks. -/
theorem splitRing_odd (a : Nat) (mid : List Nat) (z : Nat) (odd : mid.length % 2 = 1) :
    splitRing (a :: mid ++ [z]) = some [⟨stride (a :: mid), stride (mid ++ [z])⟩,
      ⟨stride (mid ++ [z]), stride ((mid ++ [z]).drop 1)⟩, ⟨[z], [a]⟩] := by
  obtain ⟨b, mid, rfl⟩ : ∃ b mid', mid = b :: mid' := by
    apply List.exists_cons_of_length_pos
    omega
  obtain ⟨d, rest, tail⟩ : ∃ d rest, mid ++ [z] = d :: rest := by
    apply List.exists_cons_of_length_pos
    simp
  have ring : ¬ (a :: b :: d :: rest).length % 2 = 0 := by
    rw [← tail]
    simp only [List.length_cons, List.length_append, List.length_nil] at odd ⊢
    omega
  have front : (a :: b :: d :: rest).dropLast = a :: b :: mid := by
    rw [← tail, ← List.cons_append, ← List.cons_append, List.dropLast_concat]
  have last : (a :: b :: d :: rest).getLast (List.cons_ne_nil _ _) = z := by
    simp only [← tail, ← List.cons_append, List.getLast_concat]
  rw [List.cons_append, List.cons_append, tail]
  simp only [splitRing, if_neg ring, front, last, List.drop_succ_cons, List.drop_zero]

/-- A ring of at least two ranks has the one shape or the other. -/
theorem ring_shape {ring : List Nat} (hn : 2 ≤ ring.length) :
    (∃ a b rest, ring = a :: b :: rest ∧ rest.length % 2 = 0) ∨
      ∃ a mid z, ring = a :: mid ++ [z] ∧ mid.length % 2 = 1 := by
  match ring, hn with
  | a :: b :: rest, _ =>
    by_cases even : rest.length % 2 = 0
    · exact .inl ⟨a, b, rest, rfl, even⟩
    · right
      rcases List.eq_nil_or_concat rest with rfl | ⟨mid, z, rfl⟩
      · exact absurd rfl even
      · refine ⟨a, b :: mid, z, by simp, ?_⟩
        simp only [List.concat_eq_append, List.length_append, List.length_cons,
          List.length_nil] at even ⊢
        omega

/-- Every task of a ring names the ranks of a part of the ring, as many senders as receivers. -/
theorem splitRing_part {ring : List Nat} {tasks : List CommTask} (hn : 2 ≤ ring.length)
    (h : splitRing ring = some tasks) :
    ∀ t ∈ tasks, t.senders.length = t.recvers.length ∧
      ∃ xs, (t.senders ++ t.recvers).Perm xs ∧ xs.Sublist ring := by
  rcases ring_shape hn with ⟨a, b, rest, rfl, even⟩ | ⟨a, mid, z, rfl, odd⟩
  · rw [splitRing_even a b rest even, Option.some.injEq] at h
    subst h
    intro t ht
    rcases List.mem_pair.mp ht with rfl | rfl
    · refine ⟨?_, _, stride_perm (a :: b :: rest), .refl _⟩
      simp only [length_stride, List.length_cons]
      omega
    · refine ⟨?_, _, ?_, .refl _⟩
      · simp only [length_stride, List.length_append, List.length_cons, List.length_nil]
        omega
      · rw [← List.append_assoc]
        exact (List.perm_append_singleton a _).trans ((stride_perm (b :: rest)).cons a)
  · rw [splitRing_odd a mid z odd, Option.some.injEq] at h
    subst h
    intro t ht
    rcases List.mem_cons.mp ht with rfl | ht
    · refine ⟨?_, _, ?_, List.sublist_append_left (a :: mid) [z]⟩
      · simp only [length_stride, List.length_append, List.length_cons, List.length_nil]
      · rw [stride_concat_odd mid z odd]
        exact stride_perm (a :: mid)
    rcases List.mem_pair.mp ht with rfl | rfl
    · refine ⟨?_, _, stride_perm (mid ++ [z]), List.sublist_cons_self a _⟩
      simp only [length_stride, List.length_drop, List.length_append, List.length_nil,
        List.length_cons]
      omega
    · exact ⟨rfl, _, .swap a z [], (List.sublist_append_right mid [z]).cons_cons a⟩

/-- Splitting a ring of at least two distinct ranks gives well-formed tasks of its ranks. -/
theorem splitRing_wellFormed {c : Clique} {ring : List Nat} {tasks : List CommTask}
    (hd : (ring.map c.group2global).Nodup) (hb : ∀ g ∈ ring, g < 2 ^ 31) (hn : 2 ≤ ring.length)
    (h : splitRing ring = some tasks) :
    ∀ t ∈ tasks, t.WellFormed c ∧ t.senders ++ t.recvers ⊆ ring := by
  intro t ht
  obtain ⟨paired, xs, perm, part⟩ := splitRing_part hn h t ht
  have within : t.senders ++ t.recvers ⊆ ring := fun g hg ↦ part.subset (perm.subset hg)
  constructor
  · constructor
    · exact paired
    · exact (perm.map _).nodup_iff.mpr (hd.sublist (part.map _))
    · intro g hg
      exact hb g (within hg)
  · exact within

/-! ### The jobs of a task -/

namespace CommTask

variable {c : Clique} {t : CommTask}

/-- With distinct keys a lookup finds exactly the entries. -/
private theorem lookup_eq_some_of_nodup {β : Type} {l : List (Nat × β)} (h : (l.map Prod.fst).Nodup)
    (k : Nat) (v : β) : l.lookup k = some v ↔ (k, v) ∈ l := by
  induction l with
  | nil => simp
  | cons p l ih =>
    rw [List.map_cons, List.nodup_cons] at h
    rw [List.lookup_cons, List.mem_cons]
    by_cases hk : k = p.1
    · subst hk
      have hno : (p.1, v) ∉ l := fun hm ↦ h.1 (List.mem_map.mpr ⟨_, hm, rfl⟩)
      simp only [beq_self_eq_true, hno, or_false]
      exact ⟨fun he ↦ by rw [← Option.some.inj he], fun he ↦ by rw [← he]⟩
    · have hp : (k, v) ≠ p := fun he ↦ hk (congrArg Prod.fst he)
      have hb : (k == p.1) = false := beq_eq_false_iff_ne.mpr hk
      simp only [hb, hp, false_or]
      exact ih h.2

private theorem perm_zip_flatMap (f : Nat → Nat) : ∀ {xs ys : List Nat}, xs.length = ys.length →
    ((xs.zip ys).flatMap fun p ↦ [f p.1, f p.2]).Perm ((xs ++ ys).map f)
  | [], [], _ => .refl _
  | x :: xs, y :: ys, h => by
    have ih := perm_zip_flatMap f (Nat.succ.inj h)
    simp only [List.zip_cons_cons, List.flatMap_cons, List.cons_append, List.nil_append,
      List.map_append, List.map_cons] at ih ⊢
    exact ((ih.cons (f y)).trans List.perm_middle.symm).cons (f x)

/-- The ranks written are the ranks named. -/
theorem WellFormed.map_writes (h : t.WellFormed c) :
    ((t.writes c).map Prod.fst).Perm ((t.senders ++ t.recvers).map c.group2global) := by
  have := perm_zip_flatMap c.group2global h.paired
  simpa [writes, pairs, List.map_flatMap] using this

/-- No rank is written twice. -/
theorem WellFormed.nodup_writes (h : t.WellFormed c) : ((t.writes c).map Prod.fst).Nodup :=
  h.map_writes.nodup_iff.mpr h.named

/-- A rank's job is what is written for it. -/
theorem WellFormed.job_eq_some (h : t.WellFormed c) {r : Nat} {j : Job} :
    t.job c r = some j ↔ (r, j) ∈ t.writes c :=
  lookup_eq_some_of_nodup h.nodup_writes r j

/-- A rank has a job iff it is named. -/
theorem WellFormed.isSome_job (h : t.WellFormed c) {r : Nat} :
    (t.job c r).isSome ↔ r ∈ (t.senders ++ t.recvers).map c.group2global := by
  rw [← h.map_writes.mem_iff, Option.isSome_iff_exists]
  simp [h.job_eq_some]

theorem mem_writes {r : Nat} {j : Job} : (r, j) ∈ t.writes c ↔ ∃ p ∈ t.pairs,
    (r = c.group2global p.1 ∧ j = ⟨.sender, p.2, c.commAddrs p.1⟩) ∨
      (r = c.group2global p.2 ∧ j = ⟨.recver, p.1, c.commAddrs p.2⟩) := by
  simp [writes]

/-- The peer of a job has the other end of it. -/
theorem WellFormed.job_peer (h : t.WellFormed c) {r : Nat} {j : Job} (hj : t.job c r = some j) :
    ∃ k, t.job c (c.group2global j.peer) = some k ∧ k.role = j.role.flip ∧
      c.group2global k.peer = r := by
  rw [h.job_eq_some, mem_writes] at hj
  obtain ⟨p, hp, ⟨rfl, rfl⟩ | ⟨rfl, rfl⟩⟩ := hj
  · exact ⟨⟨.recver, p.1, c.commAddrs p.2⟩,
      h.job_eq_some.mpr (mem_writes.mpr ⟨p, hp, .inr ⟨rfl, rfl⟩⟩), rfl, rfl⟩
  · exact ⟨⟨.sender, p.2, c.commAddrs p.1⟩,
      h.job_eq_some.mpr (mem_writes.mpr ⟨p, hp, .inl ⟨rfl, rfl⟩⟩), rfl, rfl⟩

/-- A job's peer and address fit the C types a worker parses them into. -/
theorem WellFormed.job_bounded (h : t.WellFormed c) {r : Nat} {j : Job}
    (hj : t.job c r = some j) : j.peer < 2 ^ 31 ∧ j.commAddr < 2 ^ 64 := by
  rw [h.job_eq_some, mem_writes] at hj
  obtain ⟨p, hp, hj⟩ := hj
  have hm := List.of_mem_zip (a := p.1) (b := p.2) hp
  rcases hj with ⟨_, rfl⟩ | ⟨_, rfl⟩
  · exact ⟨h.bounded _ (List.mem_append_right _ hm.2), c.commAddrs_lt _⟩
  · exact ⟨h.bounded _ (List.mem_append_left _ hm.1), c.commAddrs_lt _⟩

end CommTask

/-! ### Texts -/

/-- `f"{role}_{peer}_{comm_addr}"`; `global_controller.py:79-82`. -/
def Job.text (j : Job) : List Char :=
  Nat.toDigits 10 j.role.code ++ '_' ::
    (Nat.toDigits 10 j.peer ++ '_' :: Nat.toDigits 10 j.commAddr)

/-- `TASK_ACKED`; `event_handler.hpp:16`. -/
def taskAcked : List Char := ['T', 'A', 'S', 'K', '_', 'A', 'C', 'K', 'E', 'D']

/-- The text of a computation task; `global_controller.py:149`. -/
def computationTest : List Char :=
  ['C', 'o', 'm', 'p', 'u', 't', 'a', 't', 'i', 'o', 'n', 'T', 'e', 's', 't']

/-- Whether a worker skips what it fetched; a missing key leaves the content empty;
`event_handler.cpp:158-171`. -/
def skips (content : Option (List Char)) : Bool :=
  (content.getD []).length ≤ 5 ||
    ((content.getD []).length ≥ 10 && content.getD [] == taskAcked)

/-- `std::getline(ss, segment, '_')` on the unread characters, `none` once the end was met:
then the stream is not good and the segment keeps its value. -/
def getline : Option (List Char) × List Char → Option (List Char) × List Char
  | (none, segment) => (none, segment)
  | (some cs, _) =>
    match cs.dropWhile (· ≠ '_') with
    | [] => (none, cs)
    | _ :: rest => (some rest, cs.takeWhile (· ≠ '_'))

/-- `std::isspace` in the C locale. -/
def isSpace (c : Char) : Bool := c = ' ' || (9 ≤ c.toNat && c.toNat ≤ 13)

/-- The sign and the magnitude `strtol` and `strtoul` scan in base ten, `none` if no digit
follows. -/
def scanInteger (s : List Char) : Option (Bool × Nat) :=
  let body := s.dropWhile isSpace
  let (neg, body) := match body with
    | '-' :: cs => (true, cs)
    | '+' :: cs => (false, cs)
    | cs => (false, cs)
  match body.takeWhile Char.isDigit with
  | [] => none
  | ds => some (neg, Nat.ofDigitChars 10 ds 0)

/-- `std::stoi`. -/
def stoi (s : List Char) : Option Int :=
  (scanInteger s).bind fun (neg, n) ↦
    let v : Int := if neg then -n else n
    if -2 ^ 31 ≤ v ∧ v < 2 ^ 31 then some v else none

/-- `std::stoul`; a minus sign negates in 64 bits. -/
def stoul (s : List Char) : Option Nat :=
  (scanInteger s).bind fun (neg, n) ↦
    if n < 2 ^ 64 then some (if neg then (2 ^ 64 - n) % 2 ^ 64 else n) else none

/-- What a worker passes to `p2p_profile_task`. -/
structure P2pArgs where
  role : Int
  peer : Int
  commAddr : Nat
  deriving DecidableEq

/-- `parse_task`; `event_handler.cpp:10-22`. -/
def parseTask (task : List Char) : Option P2pArgs :=
  let first := getline (some task, [])
  let second := getline first
  let third := getline second
  (stoi first.2).bind fun role ↦
    (stoi second.2).bind fun peer ↦
      (stoul third.2).map fun commAddr ↦ ⟨role, peer, commAddr⟩

/-- The arguments a job asks for. -/
def Job.args (j : Job) : P2pArgs := ⟨j.role.code, j.peer, j.commAddr⟩

private theorem digit_ne {c d : Char} (hc : c.isDigit) (hd : ¬ d.isDigit) : c ≠ d := by
  rintro rfl
  exact hd hc

private theorem isDigit_toDigits {n : Nat} {c : Char} (h : c ∈ Nat.toDigits 10 n) :
    c.isDigit = true :=
  Nat.isDigit_of_mem_toDigits (by decide) (by decide) h

private theorem not_isSpace_of_isDigit {c : Char} (h : c.isDigit = true) : isSpace c = false := by
  have hs : c ≠ ' ' := digit_ne h (by decide)
  have hge : 48 ≤ c.toNat := (Char.isDigit_iff_toNat.mp h).1
  simp only [isSpace, hs, decide_false, Bool.false_or, Bool.and_eq_false_iff,
    decide_eq_false_iff_not]
  omega

private theorem scanInteger_toDigits (n : Nat) :
    scanInteger (Nat.toDigits 10 n) = some (false, n) := by
  have hd := fun c ↦ isDigit_toDigits (n := n) (c := c)
  have hv : Nat.ofDigitChars 10 (Nat.toDigits 10 n) 0 = n := Nat.ofDigitChars_ten_toDigits
  have hne : Nat.toDigits 10 n ≠ [] := Nat.toDigits_ne_nil
  generalize Nat.toDigits 10 n = ds at hd hv hne
  cases ds with
  | nil => exact absurd rfl hne
  | cons c cs =>
    have hc := hd c List.mem_cons_self
    have hm : c ≠ '-' := digit_ne hc (by decide)
    have hp : c ≠ '+' := digit_ne hc (by decide)
    have ht : (c :: cs).takeWhile Char.isDigit = c :: cs := List.takeWhile_eq_self_iff.mpr hd
    simp only [scanInteger, List.dropWhile_cons, not_isSpace_of_isDigit hc]
    simp [hm, hp, ht, hv]

/-- A text up to a separator it does not hold itself. -/
private theorem getline_append {xs rest seg : List Char} (h : '_' ∉ xs) :
    getline (some (xs ++ '_' :: rest), seg) = (some rest, xs) := by
  have hx : ∀ c ∈ xs, (decide (c ≠ '_')) = true := by
    intro c hc
    simp only [decide_eq_true_eq]
    rintro rfl
    exact h hc
  simp only [getline]
  rw [List.dropWhile_append_of_pos hx, List.takeWhile_append_of_pos hx]
  simp

private theorem getline_last {xs seg : List Char} (h : '_' ∉ xs) :
    getline (some xs, seg) = (none, xs) := by
  have hd : xs.dropWhile (fun c ↦ decide (c ≠ '_')) = [] := by
    rw [List.dropWhile_eq_nil_iff]
    intro c hc
    simp only [decide_eq_true_eq]
    rintro rfl
    exact h hc
  simp only [getline, hd]

private theorem stoi_toDigits {n : Nat} (h : n < 2 ^ 31) :
    stoi (Nat.toDigits 10 n) = some (n : Int) := by
  have hn : -2 ^ 31 ≤ (n : Int) ∧ (n : Int) < 2 ^ 31 := by omega
  rw [stoi, scanInteger_toDigits, Option.bind_some]
  exact if_pos hn

private theorem stoul_toDigits {n : Nat} (h : n < 2 ^ 64) :
    stoul (Nat.toDigits 10 n) = some n := by
  rw [stoul, scanInteger_toDigits, Option.bind_some]
  exact if_pos h

/-- A worker reads back what the controller wrote. -/
theorem parseTask_text {j : Job} (hp : j.peer < 2 ^ 31) (ha : j.commAddr < 2 ^ 64) :
    parseTask j.text = some j.args := by
  have hr : j.role.code < 2 ^ 31 := by
    cases j.role with
    | sender => decide
    | recver => decide
  have hno (n : Nat) : '_' ∉ Nat.toDigits 10 n := Nat.underscore_not_in_toDigits
  simp only [parseTask, Job.text, getline_append (hno _), getline_last (hno _), stoi_toDigits hr,
    stoi_toDigits hp, stoul_toDigits ha, Option.bind_some, Option.map_some, Job.args]

/-- A job's text is neither the acknowledgement nor a computation task. -/
theorem Job.text_ne {j : Job} {s : List Char} (h : s.head?.any Char.isDigit = false) :
    j.text ≠ s := by
  intro he
  have hne : Nat.toDigits 10 j.role.code ≠ [] := Nat.toDigits_ne_nil
  have hd := fun c ↦ isDigit_toDigits (n := j.role.code) (c := c)
  rw [Job.text] at he
  generalize Nat.toDigits 10 j.role.code = ds at he hne hd
  cases ds with
  | nil => exact absurd rfl hne
  | cons c cs =>
    subst he
    have hdigit : c.isDigit = true := hd c List.mem_cons_self
    exact Bool.false_ne_true (h.symm.trans hdigit)

end ProbingBaselines.Greyhound
