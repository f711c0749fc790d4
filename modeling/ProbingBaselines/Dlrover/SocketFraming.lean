import Mathlib.Data.List.Basic
import Mathlib.Data.Nat.Find
import Mathlib.Algebra.Group.Nat.Defs

/-!
# Messages on a local socket

`_socket_send` and `_socket_recv` (`common/multi_process.py:106-126`) put the length of a message,
in four bytes, before it. The receiver takes the length from the first chunk alone and then reads
until it has that many bytes, also when the stream has ended and `recv` returns nothing any more. It
gets the message when all of it arrives and the first chunk has the four bytes.
-/

namespace ProbingBaselines.Dlrover.SocketFraming

/-- `n.to_bytes(4, "big")`, for a number that fits. -/
def toBytes (n : Nat) : List UInt8 :=
  [n / 256 / 256 / 256, n / 256 / 256, n / 256, n].map UInt8.ofNat

/-- `int.from_bytes(head, "big")`. -/
def fromBytes (head : List UInt8) : Nat := head.foldl (fun n b ↦ n * 256 + b.toNat) 0

/-- The bytes that `_socket_send` puts on the stream; raises `OverflowError` for a message whose
length does not fit. -/
def socketSend (message : List UInt8) : Option (List UInt8) :=
  if message.length < 2 ^ 32 then some (toBytes message.length ++ message) else none

/-- The loop of `_socket_recv` on the chunks to come, for at most `fuel` rounds: the message or an
exception, or neither yet. At the end of the stream `recv` returns no bytes. -/
def recvLoop (messageLen : Nat) : Nat → List (List UInt8) → List UInt8 →
    Option (Except String (List UInt8))
  | 0, _, message => if message.length < messageLen then none else some (.ok message)
  | fuel + 1, chunks, message =>
    if message.length < messageLen then
      let recvData := chunks.headD []
      recvLoop messageLen fuel chunks.tail (message ++ recvData)
    else some (.ok message)

/-- `_socket_recv`. -/
def socketRecv (fuel : Nat) (chunks : List (List UInt8)) : Option (Except String (List UInt8)) :=
  let recvData := chunks.headD []
  let head := recvData.take 4
  let message := recvData.drop 4
  let messageLen := fromBytes head
  recvLoop messageLen fuel chunks.tail message

/-! ### The length -/

theorem fromBytes_toBytes {n : Nat} (fits : n < 2 ^ 32) : fromBytes (toBytes n) = n := by
  simp only [toBytes, fromBytes, List.map_cons, List.map_nil, List.foldl_cons, List.foldl_nil,
    UInt8.toNat_ofNat']
  omega

/-- A part of the four bytes reads as a smaller number. -/
theorem fromBytes_take_le (n k : Nat) (short : k < 4) : fromBytes ((toBytes n).take k) ≤ n := by
  have cases_k : k = 0 ∨ k = 1 ∨ k = 2 ∨ k = 3 := by omega
  rcases cases_k with rfl | rfl | rfl | rfl <;>
    simp only [toBytes, fromBytes, List.map_cons, List.map_nil, List.take_succ_cons, List.take_zero,
      List.foldl_cons, List.foldl_nil, UInt8.toNat_ofNat'] <;>
    omega

/-! ### The loop -/

theorem flatten_take_succ (chunks : List (List UInt8)) (j : Nat) :
    (chunks.take (j + 1)).flatten = chunks.headD [] ++ (chunks.tail.take j).flatten := by
  cases chunks with
  | nil => rw [List.take_nil, List.tail_nil, List.take_nil]; rfl
  | cons c chunks => rfl

/-- The loop has just got enough with the chunk before `j`. -/
def Enough (messageLen : Nat) (chunks : List (List UInt8)) (message : List UInt8) (j : Nat) :
    Prop :=
  messageLen ≤ (message ++ (chunks.take j).flatten).length ∧
    ∀ i < j, (message ++ (chunks.take i).flatten).length < messageLen

theorem enough_succ_iff {messageLen j : Nat} {chunks : List (List UInt8)} {message : List UInt8} :
    Enough messageLen chunks message (j + 1) ↔
      message.length < messageLen ∧
        Enough messageLen chunks.tail (message ++ chunks.headD []) j := by
  simp only [Enough, flatten_take_succ, ← List.append_assoc]
  constructor
  · rintro ⟨enough, before⟩
    refine ⟨?_, enough, fun i hi ↦ ?_⟩
    · have first := before 0 j.succ_pos
      rwa [List.take_zero, List.flatten_nil, List.append_nil] at first
    · have later := before (i + 1) (Nat.succ_lt_succ hi)
      rwa [flatten_take_succ, ← List.append_assoc] at later
  · rintro ⟨first, enough, before⟩
    refine ⟨enough, fun i hi ↦ ?_⟩
    cases i with
    | zero => rwa [List.take_zero, List.flatten_nil, List.append_nil]
    | succ i =>
      rw [flatten_take_succ, ← List.append_assoc]
      exact before i (Nat.lt_of_succ_lt_succ hi)

theorem enough_zero_iff {messageLen : Nat} {chunks : List (List UInt8)} {message : List UInt8} :
    Enough messageLen chunks message 0 ↔ messageLen ≤ message.length := by
  rw [Enough, List.take_zero, List.flatten_nil, List.append_nil]
  exact and_iff_left fun i hi ↦ absurd hi (Nat.not_lt_zero i)

/-- A loop that has enough at the start ends there. -/
theorem ended_iff {messageLen : Nat} {message : List UInt8} (enough : messageLen ≤ message.length)
    (fuel : Nat) (chunks : List (List UInt8)) (r : Except String (List UInt8)) :
    some (.ok message) = some r ↔
      ∃ j ≤ fuel, Enough messageLen chunks message j ∧
        r = .ok (message ++ (chunks.take j).flatten) := by
  constructor
  · intro eq
    refine ⟨0, fuel.zero_le, enough_zero_iff.mpr enough, ?_⟩
    rw [List.take_zero, List.flatten_nil, List.append_nil]
    exact (Option.some.inj eq).symm
  · rintro ⟨j, -, stop, eq⟩
    cases j with
    | zero => rw [eq, List.take_zero, List.flatten_nil, List.append_nil]
    | succ j => exact absurd (enough_succ_iff.mp stop).1 (Nat.not_lt.mpr enough)

/-- The loop ends after the first chunk with which it has enough, and never raises. -/
theorem recvLoop_eq_some_iff {messageLen fuel : Nat} {chunks : List (List UInt8)}
    {message : List UInt8} {r : Except String (List UInt8)} :
    recvLoop messageLen fuel chunks message = some r ↔
      ∃ j ≤ fuel, Enough messageLen chunks message j ∧
        r = .ok (message ++ (chunks.take j).flatten) := by
  induction fuel generalizing chunks message with
  | zero =>
    rw [recvLoop]
    split
    · next short =>
      refine iff_of_false (fun eq ↦ by cases eq) ?_
      rintro ⟨j, le, stop, -⟩
      rw [Nat.le_zero.mp le, enough_zero_iff] at stop
      omega
    · next enough => exact ended_iff (Nat.not_lt.mp enough) 0 chunks r
  | succ fuel ih =>
    rw [recvLoop]
    split
    · next short =>
      simp only [ih, List.append_assoc, ← flatten_take_succ]
      constructor
      · rintro ⟨j, le, stop, eq⟩
        exact ⟨j + 1, Nat.succ_le_succ le, enough_succ_iff.mpr ⟨short, stop⟩, eq⟩
      · rintro ⟨j, le, stop, eq⟩
        cases j with
        | zero => exact absurd short (Nat.not_lt.mpr (enough_zero_iff.mp stop))
        | succ j => exact ⟨j, Nat.le_of_succ_le_succ le, (enough_succ_iff.mp stop).2, eq⟩
    · next enough => exact ended_iff (Nat.not_lt.mp enough) (fuel + 1) chunks r

/-- What the receiver returns: the first chunk beyond its four bytes, and the following ones up to
the first with which it has as much as those announce. -/
theorem socketRecv_iff {chunks : List (List UInt8)} {r : Except String (List UInt8)} :
    (∃ fuel, socketRecv fuel chunks = some r) ↔
      ∃ j, Enough (fromBytes ((chunks.headD []).take 4)) chunks.tail ((chunks.headD []).drop 4) j ∧
        r = .ok ((chunks.headD []).drop 4 ++ (chunks.tail.take j).flatten) := by
  simp only [socketRecv, recvLoop_eq_some_iff]
  constructor
  · rintro ⟨fuel, j, -, h⟩
    exact ⟨j, h⟩
  · rintro ⟨j, h⟩
    exact ⟨j, j, Nat.le_refl j, h⟩

/-! ### What arrives -/

/-- The stream gives the receiver the bytes of a message in these chunks, all of them or up to where
it ends. -/
structure Chunked (message : List UInt8) (chunks : List (List UInt8)) : Prop where
  sent : ∃ bytes, socketSend message = some bytes ∧ chunks.flatten <+: bytes
  chunk : ∀ c ∈ chunks, c ≠ [] ∧ c.length ≤ 1024

/-- All bytes of the message arrive. -/
def Arrives (message : List UInt8) (chunks : List (List UInt8)) : Prop :=
  socketSend message = some chunks.flatten

/-- The receiver gets the message when all of it arrives, and raises when the stream ends before. -/
structure Framed (message : List UInt8) (chunks : List (List UInt8)) : Prop where
  whole : Arrives message chunks → ∃ fuel, socketRecv fuel chunks = some (.ok message)
  cut : ¬ Arrives message chunks → ∃ fuel e, socketRecv fuel chunks = some (.error e)

/-- The first chunk has the four bytes of the length, or the message happens to be the chunks after
it, up to the first with which they have as many bytes as its part of the length says. -/
def HeadArrives (message : List UInt8) (chunks : List (List UInt8)) : Prop :=
  4 ≤ (chunks.headD []).length ∨
    ∃ j, (chunks.tail.take j).flatten = message ∧
      ∀ i < j, (chunks.tail.take i).flatten.length < fromBytes (chunks.headD [])

/-- The loop gets enough when the chunks have enough. -/
theorem exists_enough {messageLen : Nat} {chunks : List (List UInt8)} {message : List UInt8}
    (all : messageLen ≤ (message ++ chunks.flatten).length) :
    ∃ j, Enough messageLen chunks message j := by
  have some : ∃ j, messageLen ≤ (message ++ (chunks.take j).flatten).length :=
    ⟨chunks.length, by rw [List.take_length]; exact all⟩
  classical
  exact ⟨Nat.find some, Nat.find_spec some, fun i hi ↦ Nat.not_le.mp (Nat.find_min some hi)⟩

theorem not_error {chunks : List (List UInt8)} {fuel : Nat} {e : String} :
    socketRecv fuel chunks ≠ some (.error e) := by
  intro raises
  rcases socketRecv_iff.mp ⟨fuel, raises⟩ with ⟨j, -, eq⟩
  cases eq

/-- A whole message is the four bytes and the message, in the first chunk and the others. -/
theorem Arrives.eq {message : List UInt8} {chunks : List (List UInt8)}
    (h : Arrives message chunks) :
    message.length < 2 ^ 32 ∧
      chunks.headD [] ++ chunks.tail.flatten = toBytes message.length ++ message := by
  rw [Arrives, socketSend] at h
  split at h
  · next fits =>
    refine ⟨fits, (Option.some.inj h).symm ▸ ?_⟩
    cases chunks <;> rfl
  · cases h

/-- The first chunk has the four bytes: the receiver knows the length and gets the rest. -/
theorem Arrives.recv {message : List UInt8} {chunks : List (List UInt8)}
    (h : Arrives message chunks) (head : 4 ≤ (chunks.headD []).length) :
    ∃ fuel, socketRecv fuel chunks = some (.ok message) := by
  rcases h.eq with ⟨fits, eq⟩
  have four : (toBytes message.length).length = 4 := rfl
  have announced : (chunks.headD []).take 4 = toBytes message.length := by
    rw [← List.take_append_of_le_length head, eq, ← four, List.take_left]
  have rest : (chunks.headD []).drop 4 ++ chunks.tail.flatten = message := by
    rw [← List.drop_append_of_le_length head, eq, ← four, List.drop_left]
  rw [socketRecv_iff, announced, fromBytes_toBytes fits]
  have all : message.length ≤ ((chunks.headD []).drop 4 ++ chunks.tail.flatten).length := by
    rw [rest]
  rcases exists_enough all with ⟨j, stop⟩
  refine ⟨j, stop, ?_⟩
  have part : (chunks.headD []).drop 4 ++ (chunks.tail.take j).flatten <+: message := by
    rw [← rest, List.prefix_append_right_inj]
    exact ⟨(chunks.tail.drop j).flatten, by rw [← List.flatten_append, List.take_append_drop]⟩
  rw [part.eq_of_length_le stop.1]

/-- The first chunk is shorter: its bytes are taken for the length, and what follows for the
message. -/
theorem Arrives.recv_short {message : List UInt8} {chunks : List (List UInt8)}
    (h : Arrives message chunks) (short : (chunks.headD []).length < 4) :
    (∃ fuel, socketRecv fuel chunks = some (.ok message)) ↔
      ∃ j, (chunks.tail.take j).flatten = message ∧
        ∀ i < j, (chunks.tail.take i).flatten.length < fromBytes (chunks.headD []) := by
  rcases h.eq with ⟨-, eq⟩
  have announced : fromBytes (chunks.headD []) ≤ message.length := by
    have part : chunks.headD [] = (toBytes message.length).take (chunks.headD []).length := by
      have le : (chunks.headD []).length ≤ (toBytes message.length).length := Nat.le_of_lt short
      rw [← List.take_append_of_le_length le, ← eq, List.take_left]
    rw [part]
    exact fromBytes_take_le _ _ short
  rw [socketRecv_iff, List.take_of_length_le (Nat.le_of_lt short),
    List.drop_of_length_le (Nat.le_of_lt short)]
  simp only [Enough, List.nil_append]
  constructor
  · rintro ⟨j, ⟨-, before⟩, eq⟩
    exact ⟨j, (Except.ok.inj eq).symm, before⟩
  · rintro ⟨j, eq, before⟩
    refine ⟨j, ⟨?_, before⟩, ?_⟩
    · rw [eq]
      exact announced
    · rw [eq]

theorem firstChunk_within (chunks : List (List UInt8)) : chunks.headD [] <+: chunks.flatten := by
  cases chunks with
  | nil => exact List.nil_prefix
  | cons c chunks => exact List.prefix_append _ _

/-- Without the rest of the message the receiver never leaves its loop. -/
theorem Chunked.recv_cut {message : List UInt8} {chunks : List (List UInt8)}
    (h : Chunked message chunks) (cut : ¬ Arrives message chunks)
    (head : 4 ≤ (chunks.headD []).length) (fuel : Nat) : socketRecv fuel chunks = none := by
  rcases h.sent with ⟨bytes, sent, part⟩
  have fewer : chunks.flatten.length < bytes.length := by
    apply Nat.lt_of_le_of_ne part.length_le
    intro same
    rw [← part.eq_of_length same] at sent
    exact cut sent
  rw [socketSend] at sent
  split at sent
  · next fits =>
    rw [← Option.some.inj sent] at part fewer
    have first : chunks.headD [] <+: toBytes message.length ++ message :=
      List.IsPrefix.trans (firstChunk_within chunks) part
    have announced : (chunks.headD []).take 4 = toBytes message.length := by
      rw [List.prefix_iff_eq_take.mp first, List.take_take, Nat.min_eq_left head]
      rfl
    have total : (chunks.headD []).length + chunks.tail.flatten.length =
        chunks.flatten.length := by
      cases chunks <;> simp
    rw [Option.eq_none_iff_forall_ne_some]
    intro r ended
    rcases socketRecv_iff.mp ⟨fuel, ended⟩ with ⟨j, ⟨enough, -⟩, -⟩
    rw [announced, fromBytes_toBytes fits, List.length_append, List.length_drop] at enough
    have most : (chunks.tail.take j).flatten.length ≤ chunks.tail.flatten.length := by
      conv_rhs => rw [← List.take_append_drop j chunks.tail, List.flatten_append,
        List.length_append]
      exact Nat.le_add_right _ _
    have four : (toBytes message.length).length = 4 := rfl
    rw [List.length_append, four] at fewer
    omega
  · cases sent

/-- The receiver does what it should just when all bytes arrive and the first chunk has those of the
length: on a stream that ends early it never raises. -/
theorem framed_iff (message : List UInt8) (chunks : List (List UInt8)) :
    Framed message chunks ↔ Arrives message chunks ∧ HeadArrives message chunks := by
  constructor
  · intro framed
    have arrives : Arrives message chunks := by
      by_contra cut
      rcases framed.cut cut with ⟨fuel, e, raises⟩
      exact not_error raises
    refine ⟨arrives, ?_⟩
    by_cases head : 4 ≤ (chunks.headD []).length
    · exact .inl head
    · exact .inr ((arrives.recv_short (Nat.not_le.mp head)).mp (framed.whole arrives))
  · rintro ⟨arrives, head⟩
    refine ⟨fun _ ↦ ?_, fun cut ↦ absurd arrives cut⟩
    by_cases whole : 4 ≤ (chunks.headD []).length
    · exact arrives.recv whole
    · rw [arrives.recv_short (Nat.not_le.mp whole)]
      exact head.resolve_left whole

/-- One byte whose length is cut after two bytes: nothing is announced and nothing is returned. And
one byte that never comes: the receiver loops on the closed stream. -/
theorem framed_fails :
    (∃ message chunks, Chunked message chunks ∧ Arrives message chunks ∧
      ¬ Framed message chunks) ∧
    ∃ message chunks, Chunked message chunks ∧ ¬ Arrives message chunks ∧
      ∀ fuel, socketRecv fuel chunks = none := by
  have sent : socketSend [7] = some [0, 0, 0, 1, 7] := rfl
  constructor
  · have legal : Chunked [7] [[0, 0], [0, 1, 7]] := ⟨⟨_, sent, by decide⟩, by decide⟩
    refine ⟨[7], [[0, 0], [0, 1, 7]], legal, sent, ?_⟩
    intro framed
    rcases ((framed_iff _ _).mp framed).2 with head | ⟨j, eq, -⟩
    · exact absurd head (by decide)
    · cases j with
      | zero => cases eq
      | succ j => cases j <;> cases eq
  · have legal : Chunked [7] [[0, 0, 0, 1]] := ⟨⟨_, sent, by decide⟩, by decide⟩
    have cut : ¬ Arrives [7] [[0, 0, 0, 1]] := by
      rw [Arrives, sent]
      decide
    exact ⟨[7], [[0, 0, 0, 1]], legal, cut, legal.recv_cut cut (by decide)⟩

end ProbingBaselines.Dlrover.SocketFraming
