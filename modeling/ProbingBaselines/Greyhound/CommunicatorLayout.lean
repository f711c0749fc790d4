import ProbingBaselines.Lib.Layout

/-!
# The bytes of a communicator

The probe writes a `Communicator` to redis as it lies in memory, with its 32 rings and 32 trees
(`detector/shm_topo.cpp:54-67`), and reads it back in the same order (`:69-82`). The control plane
reads the same bytes with `struct.unpack` (`detector/control_plane/communicator.py:63-87`).
-/

namespace ProbingBaselines.Greyhound.ShmTopo

open Lib Layout

/-! ### The probe -/

/-- `MAXCHANNELS`; `nccl_structs.hpp:8` and `communicator.py:4`. -/
def maxChannels : Nat := 32

/-- `NCCL_MAX_TREE_ARITY`; `nccl_structs.hpp:67` and `communicator.py:5`. -/
def ncclMaxTreeArity : Nat := 3

/-- `nccl_structs.hpp:49-61`, with the four bytes that fill it up to its alignment. -/
structure NcclRing where
  prev : Int32
  next : Int32
  userRanks : UInt64
  index : Int32
  padding : Int32

/-- `nccl_structs.hpp:68-72`. -/
structure NcclTree where
  depth : Int32
  up : Int32
  down : Vector Int32 ncclMaxTreeArity

/-- What is written of a communicator; `shm_topo.hpp:21-32`. -/
structure Communicator where
  idHash : UInt64
  numChannels : UInt64
  lastRingId : UInt64
  lastTreeId : UInt64
  commAddr : UInt64
  numDevices : Int32
  globalRank : Int32
  localRank : Int32
  groupRank : Int32
  rings : Vector NcclRing maxChannels
  trees : Vector NcclTree maxChannels

instance : Layout NcclRing := ofEquiv
  { toFun := fun ring ↦ (ring.prev, ring.next, ring.userRanks, ring.index, ring.padding)
    invFun := fun (prev, next, userRanks, index, padding) ↦ ⟨prev, next, userRanks, index, padding⟩
    left_inv := fun _ ↦ rfl
    right_inv := fun _ ↦ rfl }

instance : Layout NcclTree := ofEquiv
  { toFun := fun tree ↦ (tree.depth, tree.up, tree.down)
    invFun := fun (depth, up, down) ↦ ⟨depth, up, down⟩
    left_inv := fun _ ↦ rfl
    right_inv := fun _ ↦ rfl }

instance : Layout Communicator := ofEquiv
  { toFun := fun c ↦ (c.idHash, c.numChannels, c.lastRingId, c.lastTreeId, c.commAddr, c.numDevices,
      c.globalRank, c.localRank, c.groupRank, c.rings, c.trees)
    invFun := fun (idHash, numChannels, lastRingId, lastTreeId, commAddr, numDevices, globalRank,
      localRank, groupRank, rings, trees) ↦ ⟨idHash, numChannels, lastRingId, lastTreeId, commAddr,
        numDevices, globalRank, localRank, groupRank, rings, trees⟩
    left_inv := fun _ ↦ rfl
    right_inv := fun _ ↦ rfl }

/-- A `std::istream` with the bytes still to be read. -/
structure IStream where
  rest : List UInt8
  good : Bool

namespace IStream

/-- `in.read` into a variable. With too few bytes it stores those there are, and the stream
fails. -/
def read {α : Type} [Layout α] (s : IStream) (old : α) : α × IStream :=
  if s.good then
    (ofBytes (overwrite s.rest (bytes old)),
      ⟨s.rest.drop (size α), decide (size α ≤ s.rest.length)⟩)
  else (old, s)

/-- The bytes that can still be read. -/
def left (s : IStream) : List UInt8 := if s.good then s.rest else []

@[simp] theorem bytes_read {α : Type} [Layout α] (s : IStream) (old : α) :
    bytes (s.read old).1 = overwrite s.left (bytes old) := by
  unfold read left
  split
  · rw [bytes_ofBytes _ (by rw [length_overwrite, length_bytes])]
  · rw [overwrite_nil]

@[simp] theorem left_read {α : Type} [Layout α] (s : IStream) (old : α) :
    (s.read old).2.left = s.left.drop (size α) := by
  unfold read left
  split
  · simp only
    split
    · rfl
    · next short =>
      have none : s.rest.length ≤ size α := by
        rw [decide_eq_true_iff] at short
        omega
      rw [List.drop_of_length_le none]
  · rw [List.drop_nil]

end IStream

namespace Communicator

/-- `shm_topo.cpp:54-67`. -/
def serialize (c : Communicator) : List UInt8 :=
  bytes c.idHash ++ bytes c.numChannels ++ bytes c.lastRingId ++ bytes c.lastTreeId ++
    bytes c.commAddr ++ bytes c.numDevices ++ bytes c.globalRank ++ bytes c.localRank ++
    bytes c.groupRank ++ bytes c.rings ++ bytes c.trees

/-- `shm_topo.cpp:69-82`. -/
def fromBytes (c : Communicator) (s : IStream) : Communicator :=
  let idHash := s.read c.idHash
  let numChannels := idHash.2.read c.numChannels
  let lastRingId := numChannels.2.read c.lastRingId
  let lastTreeId := lastRingId.2.read c.lastTreeId
  let commAddr := lastTreeId.2.read c.commAddr
  let numDevices := commAddr.2.read c.numDevices
  let globalRank := numDevices.2.read c.globalRank
  let localRank := globalRank.2.read c.localRank
  let groupRank := localRank.2.read c.groupRank
  let rings := groupRank.2.read c.rings
  let trees := rings.2.read c.trees
  { idHash := idHash.1
    numChannels := numChannels.1
    lastRingId := lastRingId.1
    lastTreeId := lastTreeId.1
    commAddr := commAddr.1
    numDevices := numDevices.1
    globalRank := globalRank.1
    localRank := localRank.1
    groupRank := groupRank.1
    rings := rings.1
    trees := trees.1 }

/-- The size of what is written. -/
def serializedSize : Nat := 1464

theorem length_serialize (c : Communicator) : c.serialize.length = serializedSize := by
  simp only [serialize, List.length_append, length_bytes]
  rfl

/-- Reading writes the bytes there are over the communicator. -/
theorem serialize_fromBytes (c : Communicator) (s : IStream) :
    (c.fromBytes s).serialize = overwrite s.left c.serialize := by
  simp only [serialize, fromBytes, IStream.bytes_read, IStream.left_read, List.append_assoc,
    overwrite_append, length_bytes]

theorem serialize_eq (c : Communicator) : c.serialize = bytes c := by
  simp only [serialize, List.append_assoc]
  rfl

theorem serialize_inj {c d : Communicator} : c.serialize = d.serialize ↔ c = d := by
  rw [serialize_eq, serialize_eq, bytes_inj]

end Communicator

/-! ### The control plane -/

namespace ControlPlane

/-- `communicator.py:8-14`. -/
structure RingNode where
  prev : Int
  next : Int
  userRanks : Int
  index : Int

/-- `communicator.py:23-28`. -/
structure TreeNode where
  depth : Int
  up : Int
  down : List Int

/-- `communicator.py:37-50`. -/
structure Communicator where
  idHash : Int
  numChannels : Int
  lastRingId : Int
  lastTreeId : Int
  commAddr : Int
  numDevices : Int
  globalRank : Int
  localRank : Int
  groupRank : Int
  rings : List RingNode
  trees : List TreeNode

/-- The characters of the formats. -/
inductive FormatChar where
  | Q
  | i

namespace FormatChar

def size : FormatChar → Nat
  | Q => 8
  | i => 4

/-- An `unsigned long long` or an `int`. -/
def value : FormatChar → List UInt8 → Int
  | Q, bs => (ofBytes bs : UInt64).toNat
  | i, bs => (ofBytes bs : Int32).toInt

end FormatChar

/-- The values from `offset` on, each of them aligned to its size. -/
def unpackFrom : Nat → List FormatChar → List UInt8 → Option (List Int)
  | _, [], data => if data = [] then some [] else none
  | offset, c :: format, data =>
    let pad := (c.size - offset % c.size) % c.size
    if data.length < pad + c.size then none
    else
      (unpackFrom (offset + pad + c.size) format (data.drop (pad + c.size))).map
        (c.value ((data.drop pad).take c.size) :: ·)

/-- `struct.unpack`, which raises unless the data have exactly the size of the format. -/
def unpack (format : List FormatChar) (data : List UInt8) : Option (List Int) :=
  unpackFrom 0 format data

def RingNode.size : Nat := 4 + 4 + 8 + 4 + 4

def TreeNode.size : Nat := 4 + 4 + 4 * ncclMaxTreeArity

/-- `redis_data[pos : pos + size]`. -/
def dataAt (redisData : List UInt8) (pos size : Nat) : List UInt8 := (redisData.drop pos).take size

/-- `RingNode(*ring_data[:-1])`; `communicator.py:74-75`. -/
def RingNode.unpack (data : List UInt8) : Option RingNode := do
  let ringData ← ControlPlane.unpack [.i, .i, .Q, .i, .i] data
  match ringData.dropLast with
  | [prev, next, userRanks, index] => some ⟨prev, next, userRanks, index⟩
  | _ => none

/-- `communicator.py:79-81`. -/
def TreeNode.unpack (data : List UInt8) : Option TreeNode := do
  let treeData ← ControlPlane.unpack [.i, .i, .i, .i, .i] data
  match treeData with
  | depth :: up :: down => if down.length = ncclMaxTreeArity then some ⟨depth, up, down⟩ else none
  | _ => none

/-- The nodes that `n` rounds of a loop read from `pos` on; `communicator.py:73-82`. -/
def readNodes {α : Type} (unpack : List UInt8 → Option α) (size : Nat) (redisData : List UInt8) :
    Nat → Nat → Option (List α × Nat)
  | 0, pos => some ([], pos)
  | n + 1, pos => do
    let node ← unpack (dataAt redisData pos size)
    let (nodes, pos) ← readNodes unpack size redisData n (pos + size)
    some (node :: nodes, pos)

/-- `communicator.py:63-87`; `none` stands for an exception. -/
def deserializeCommunicatorFromRedis (redisData : List UInt8) : Option Communicator := do
  let header ← unpack [.Q, .Q, .Q, .Q, .Q, .i, .i, .i, .i] (redisData.take 56)
  let (rings, pos) ← readNodes RingNode.unpack RingNode.size redisData maxChannels 56
  let (trees, _) ← readNodes TreeNode.unpack TreeNode.size redisData maxChannels pos
  match header with
  | [idHash, numChannels, lastRingId, lastTreeId, commAddr, numDevices, globalRank, localRank,
      groupRank] =>
    some ⟨idHash, numChannels, lastRingId, lastTreeId, commAddr, numDevices, globalRank, localRank,
      groupRank, rings, trees⟩
  | _ => none

/-! ### Reading what was written -/

/-- An aligned value in front of the others. -/
theorem unpackFrom_cons {offset : Nat} {c : FormatChar} {format : List FormatChar}
    {bs data : List UInt8} (aligned : offset % c.size = 0) (size : bs.length = c.size) :
    unpackFrom offset (c :: format) (bs ++ data) =
      (unpackFrom (offset + c.size) format data).map (c.value bs :: ·) := by
  have pad : (c.size - offset % c.size) % c.size = 0 := by
    rw [aligned, Nat.sub_zero, Nat.mod_self]
  rw [unpackFrom]
  simp only [pad, Nat.zero_add, Nat.add_zero, List.drop_zero]
  rw [if_neg (by rw [List.length_append]; omega), List.take_left' size, List.drop_left' size]

theorem unpackFrom_last {offset : Nat} {c : FormatChar} {bs : List UInt8}
    (aligned : offset % c.size = 0) (size : bs.length = c.size) :
    unpackFrom offset [c] bs = some [c.value bs] := by
  have alone := @unpackFrom_cons offset c [] bs [] aligned size
  rw [List.append_nil] at alone
  rw [alone]
  rfl

theorem value_uint64 (x : UInt64) : FormatChar.Q.value (bytes x) = x.toNat := by
  rw [FormatChar.value, ofBytes_bytes]

theorem value_int32 (x : Int32) : FormatChar.i.value (bytes x) = x.toInt := by
  rw [FormatChar.value, ofBytes_bytes]

/-- A ring without its padding. -/
theorem RingNode.unpack_bytes (ring : NcclRing) : RingNode.unpack (bytes ring) =
    some ⟨ring.prev.toInt, ring.next.toInt, ring.userRanks.toNat, ring.index.toInt⟩ := by
  have data : bytes ring = bytes ring.prev ++ (bytes ring.next ++ (bytes ring.userRanks ++
      (bytes ring.index ++ bytes ring.padding))) := rfl
  have values : ControlPlane.unpack [.i, .i, .Q, .i, .i] (bytes ring) = some [ring.prev.toInt,
      ring.next.toInt, ring.userRanks.toNat, ring.index.toInt, ring.padding.toInt] := by
    rw [data, ControlPlane.unpack, unpackFrom_cons rfl (length_bytes _),
      unpackFrom_cons rfl (length_bytes _), unpackFrom_cons rfl (length_bytes _),
      unpackFrom_cons rfl (length_bytes _), unpackFrom_last rfl (length_bytes _)]
    simp only [Option.map_some, value_int32, value_uint64]
  rw [RingNode.unpack, values]
  rfl

theorem TreeNode.unpack_bytes (tree : NcclTree) : TreeNode.unpack (bytes tree) =
    some ⟨tree.depth.toInt, tree.up.toInt, tree.down.toList.map Int32.toInt⟩ := by
  rcases tree with ⟨depth, up, ⟨⟨down⟩, three⟩⟩
  match down, three with
  | [a, b, c], _ =>
    have data : bytes (⟨depth, up, ⟨⟨[a, b, c]⟩, rfl⟩⟩ : NcclTree) = bytes depth ++ (bytes up ++
        (bytes a ++ (bytes b ++ (bytes c ++ [])))) := rfl
    have values : ControlPlane.unpack [.i, .i, .i, .i, .i]
        (bytes (⟨depth, up, ⟨⟨[a, b, c]⟩, rfl⟩⟩ : NcclTree)) =
          some [depth.toInt, up.toInt, a.toInt, b.toInt, c.toInt] := by
      rw [data, List.append_nil, ControlPlane.unpack, unpackFrom_cons rfl (length_bytes _),
        unpackFrom_cons rfl (length_bytes _), unpackFrom_cons rfl (length_bytes _),
        unpackFrom_cons rfl (length_bytes _), unpackFrom_last rfl (length_bytes _)]
      simp only [Option.map_some, value_int32]
    rw [TreeNode.unpack, values]
    rfl

/-- The loop over an array, by induction on what is left of it. -/
theorem readNodes_flatMap {α β : Type} [Layout α] {unpack : List UInt8 → Option β} {f : α → β}
    (one : ∀ x, unpack (bytes x) = some (f x)) (xs : List α) (before after : List UInt8) :
    readNodes unpack (size α) (before ++ (xs.flatMap bytes ++ after)) xs.length before.length =
      some (xs.map f, before.length + xs.length * size α) := by
  induction xs generalizing before with
  | nil => simp [readNodes]
  | cons x xs ih =>
    have first : dataAt (before ++ ((x :: xs).flatMap bytes ++ after)) before.length (size α) =
        bytes x := by
      rw [dataAt, List.drop_left, List.flatMap_cons, List.append_assoc,
        List.take_left' (length_bytes x)]
    have rest := ih (before ++ bytes x)
    rw [List.length_append, length_bytes, List.append_assoc, ← List.append_assoc (bytes x),
      ← List.flatMap_cons] at rest
    have total : before.length + size α + xs.length * size α =
        before.length + (xs.length + 1) * size α := by ring
    rw [List.length_cons, readNodes, first, one, Option.bind_eq_bind, Option.bind_some, rest,
      Option.bind_eq_bind, Option.bind_some, List.map_cons, total]

/-- The control plane reads what the probe wrote. -/
theorem deserialize_serialize (c : ShmTopo.Communicator) :
    deserializeCommunicatorFromRedis c.serialize = some
      { idHash := c.idHash.toNat
        numChannels := c.numChannels.toNat
        lastRingId := c.lastRingId.toNat
        lastTreeId := c.lastTreeId.toNat
        commAddr := c.commAddr.toNat
        numDevices := c.numDevices.toInt
        globalRank := c.globalRank.toInt
        localRank := c.localRank.toInt
        groupRank := c.groupRank.toInt
        rings := c.rings.toList.map fun ring ↦
          ⟨ring.prev.toInt, ring.next.toInt, ring.userRanks.toNat, ring.index.toInt⟩
        trees := c.trees.toList.map fun tree ↦
          ⟨tree.depth.toInt, tree.up.toInt, tree.down.toList.map Int32.toInt⟩ } := by
  -- the header, the rings and the trees
  obtain ⟨header, hheader⟩ : ∃ header, header = bytes c.idHash ++ (bytes c.numChannels ++
      (bytes c.lastRingId ++ (bytes c.lastTreeId ++ (bytes c.commAddr ++ (bytes c.numDevices ++
        (bytes c.globalRank ++ (bytes c.localRank ++ bytes c.groupRank))))))) := ⟨_, rfl⟩
  have data : c.serialize = header ++ (c.rings.toList.flatMap bytes ++
      (c.trees.toList.flatMap bytes ++ [])) := by
    rw [hheader, ShmTopo.Communicator.serialize]
    simp only [List.append_assoc, List.append_nil]
    rfl
  have length : header.length = 56 := by
    rw [hheader]
    simp only [List.length_append, length_bytes]
    rfl
  have values : ControlPlane.unpack [.Q, .Q, .Q, .Q, .Q, .i, .i, .i, .i] header = some
      [↑c.idHash.toNat, ↑c.numChannels.toNat, ↑c.lastRingId.toNat, ↑c.lastTreeId.toNat,
        ↑c.commAddr.toNat, c.numDevices.toInt, c.globalRank.toInt, c.localRank.toInt,
        c.groupRank.toInt] := by
    rw [hheader, ControlPlane.unpack, unpackFrom_cons rfl (length_bytes _),
      unpackFrom_cons rfl (length_bytes _), unpackFrom_cons rfl (length_bytes _),
      unpackFrom_cons rfl (length_bytes _), unpackFrom_cons rfl (length_bytes _),
      unpackFrom_cons rfl (length_bytes _), unpackFrom_cons rfl (length_bytes _),
      unpackFrom_cons rfl (length_bytes _), unpackFrom_last rfl (length_bytes _)]
    simp only [Option.map_some, value_int32, value_uint64]
  have rings := readNodes_flatMap RingNode.unpack_bytes c.rings.toList header
    (c.trees.toList.flatMap bytes ++ [])
  have trees := readNodes_flatMap TreeNode.unpack_bytes c.trees.toList
    (header ++ c.rings.toList.flatMap bytes) []
  have ringSize : size NcclRing = RingNode.size := rfl
  have treeSize : size NcclTree = TreeNode.size := rfl
  rw [Vector.length_toList, length, ringSize] at rings
  rw [Vector.length_toList, List.length_append, length_flatMap_bytes, Vector.length_toList, length,
    List.append_assoc, ringSize, treeSize] at trees
  rw [deserializeCommunicatorFromRedis, data, List.take_left' length, values]
  simp only [Option.bind_eq_bind, Option.bind_some, rings, trees]

end ControlPlane

end ProbingBaselines.Greyhound.ShmTopo
