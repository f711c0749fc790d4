import Mathlib.Logic.Function.Basic
import ProbingBaselines.Greyhound.CommunicatorLayout

/-!
# The communicator cache

`NcclTopoConnection` keeps communicators in redis (`detector/shm_topo.cpp:121-153`). `add_comm`
writes under `Communicator_` and the address, while `find` looks under the bare address. So an add
never changes what a find reads, and the cache holds a communicator if and only if the store has its
bytes under the bare address before the add.
-/

namespace ProbingBaselines.Greyhound.ShmTopo

open Lib

/-- What `GET` replies for each key of redis. -/
abbrev CommStore := String → Option (List UInt8)

/-- `new Communicator()` leaves the fields it does not set as they are in `memory`;
`shm_topo.cpp:18-20`. -/
def Communicator.new (memory : Communicator) : Communicator :=
  { memory with numChannels := 0, lastRingId := 0, lastTreeId := 0, commAddr := 0, globalRank := 0 }

namespace NcclTopoConnection

/-- The key that `find` looks up. -/
def findKey (commAddr : UInt64) : String := toString commAddr.toNat

/-- The key that `add_comm` writes. -/
def addKey (commAddr : UInt64) : String := "Communicator_" ++ toString commAddr.toNat

/-- `shm_topo.cpp:137-153`. -/
def find (memory : Communicator) (store : CommStore) (commAddr : UInt64) : Option Communicator :=
  (store (findKey commAddr)).map fun data ↦ (Communicator.new memory).fromBytes ⟨data, true⟩

/-- `shm_topo.cpp:121-135`. -/
def addComm (memory : Communicator) (store : CommStore) (comm : Communicator) :
    Option Communicator × CommStore :=
  match find memory store comm.commAddr with
  | some found => (some found, store)
  | none => (none, Function.update store (addKey comm.commAddr) (some comm.serialize))

/-- After the add of `c` a find returns `c` as it was then, and adding the address again, with
whatever fields, returns it too and leaves the store alone. -/
def Caches (store : CommStore) (c : Communicator) : Prop :=
  ∀ memory memory', find memory' (addComm memory store c).2 c.commAddr = some c ∧
    ∀ d : Communicator, d.commAddr = c.commAddr →
      addComm memory' (addComm memory store c).2 d = (some c, (addComm memory store c).2)

/-- The two kinds of keys have nothing in common. -/
theorem findKey_ne_addKey (a b : UInt64) : findKey a ≠ addKey b := by
  intro eq
  have digits := congrArg String.toList eq
  rw [findKey, addKey, String.toList_append] at digits
  have mem : 'C' ∈ (toString a.toNat).toList := by
    rw [digits]
    simp
  have digit := Nat.isDigit_of_mem_toDigits (b := 10) (by decide) (by decide)
    (Nat.toList_repr ▸ mem)
  exact absurd digit (by decide)

/-- An add never changes what a find reads. -/
theorem find_addComm (memory memory' : Communicator) (store : CommStore) (c : Communicator)
    (commAddr : UInt64) :
    find memory (addComm memory' store c).2 commAddr = find memory store commAddr := by
  unfold addComm
  split
  · rfl
  · simp only [find]
    rw [Function.update_of_ne (findKey_ne_addKey _ _)]

/-- A communicator whose nodes are all made of `b`. -/
def filled (b : Int32) : Communicator where
  idHash := 0
  numChannels := 0
  lastRingId := 0
  lastTreeId := 0
  commAddr := 0
  numDevices := b
  globalRank := b
  localRank := b
  groupRank := b
  rings := .replicate _ ⟨b, b, 0, b, b⟩
  trees := .replicate _ ⟨b, b, .replicate _ b⟩

/-- The last byte of a communicator is that of its last tree. -/
theorem getLast?_filled (b : Int32) (last : UInt8)
    (tree : (Layout.bytes (α := NcclTree) ⟨b, b, .replicate _ b⟩).getLast? = some last) :
    (Communicator.new (filled b)).serialize.getLast? = some last := by
  have trees : (Layout.bytes (Communicator.new (filled b)).trees).getLast? = some last := by
    change ((Vector.replicate maxChannels _).toList.flatMap _).getLast? = some last
    rw [Vector.toList_replicate, List.getLast?_flatMap, List.reverse_replicate,
      List.findSome?_replicate, if_neg (by decide), tree]
  rw [Communicator.serialize, List.getLast?_append, trees, Option.some_or]

/-- A find reads `c` whatever the memory was if and only if it finds all bytes of `c`. -/
theorem find_eq_iff {store : CommStore} {c : Communicator} {commAddr : UInt64} :
    (∀ memory, find memory store commAddr = some c) ↔
      ∃ data, store (findKey commAddr) = some data ∧ c.serialize <+: data := by
  have written : ∀ memory data, ((Communicator.new memory).fromBytes ⟨data, true⟩).serialize =
      overwrite data (Communicator.new memory).serialize :=
    fun memory data ↦ Communicator.serialize_fromBytes _ _
  constructor
  · intro found
    have here : ∀ memory, ∃ data, store (findKey commAddr) = some data ∧
        overwrite data (Communicator.new memory).serialize = c.serialize := by
      intro memory
      rcases Option.map_eq_some_iff.mp (found memory) with ⟨data, get, eq⟩
      exact ⟨data, get, by rw [← written, eq]⟩
    rcases here (filled 0) with ⟨data, get, zero⟩
    refine ⟨data, get, ?_⟩
    rcases Nat.lt_or_ge data.length Communicator.serializedSize with short | enough
    · -- the last byte is the one in memory, which may be any
      exfalso
      rcases here (filled (-1)) with ⟨data', get', ones⟩
      obtain rfl : data' = data := Option.some_inj.mp (get'.symm.trans get)
      have rest := congrArg (List.drop data'.length) (zero.trans ones.symm)
      rw [drop_overwrite, drop_overwrite] at rest
      have last := congrArg List.getLast? rest
      rw [List.getLast?_drop, List.getLast?_drop, Communicator.length_serialize,
        Communicator.length_serialize, if_neg (by omega), if_neg (by omega),
        getLast?_filled 0 0 (by decide), getLast?_filled (-1) 255 (by decide)] at last
      exact absurd last (by decide)
    · rw [overwrite_of_le (by rw [Communicator.length_serialize]; exact enough)] at zero
      rw [← zero]
      exact List.take_prefix _ _
  · rintro ⟨data, get, rest, rfl⟩ memory
    rw [find, get, Option.map_some, Option.some_inj, ← Communicator.serialize_inj, written,
      overwrite_of_le, Communicator.length_serialize, ← c.length_serialize, List.take_left]
    rw [List.length_append, Communicator.length_serialize, Communicator.length_serialize]
    omega

/-- The cache holds a communicator if and only if the store has its bytes under the bare address
before it is added. -/
theorem caches_iff (store : CommStore) (c : Communicator) :
    Caches store c ↔ ∃ data, store (findKey c.commAddr) = some data ∧ c.serialize <+: data := by
  rw [← find_eq_iff]
  constructor
  · intro caches memory
    rw [← find_addComm memory memory store c]
    exact (caches memory memory).1
  · intro found memory memory'
    constructor
    · rw [find_addComm, found]
    · intro d same
      rw [addComm, find_addComm, same, found]

/-- Into an empty store it is added in vain. -/
theorem not_caches_empty : ¬Caches (fun _ ↦ none) (filled 0) := by
  intro caches
  have found := (caches (filled 0) (filled 0)).1
  rw [find_addComm] at found
  cases found

/-- With nothing under bare addresses at first, no find ever hits, whatever is added. -/
theorem find_adds (adds : List (Communicator × Communicator)) (store : CommStore)
    (commAddr : UInt64) (none : store (findKey commAddr) = none) (memory : Communicator) :
    find memory (adds.foldl (fun store add ↦ (addComm add.1 store add.2).2) store) commAddr =
      Option.none := by
  have same : find memory (adds.foldl (fun store add ↦ (addComm add.1 store add.2).2) store)
      commAddr = find memory store commAddr := by
    induction adds generalizing store with
    | nil => rfl
    | cons add adds ih =>
      rw [List.foldl_cons, ih, find_addComm]
      have kept := find_addComm add.1 add.1 store add.2 commAddr
      rw [find, find, Option.map_eq_none_iff.mpr none] at kept
      exact Option.map_eq_none_iff.mp kept
  rw [same, find, none, Option.map_none]

end NcclTopoConnection

end ProbingBaselines.Greyhound.ShmTopo
