import Mathlib.Algebra.Group.Nat.Defs
import Mathlib.Logic.Function.Basic

/-!
# Shared-memory record ring: writer and readers

Source `greyhound-metax/detector/shm_storage.cpp:17-76` (the C++ writer),
`detector/control_plane/local_analyzer.py:53-110` (`NcclRecord`) and
`metax_eval/detect_runner.py:61-91` (`read_shm_records`). The segment is a map from word
index to word value. Writers are given as the list of word stores they make in program
order, so that the same definition serves whole calls and interleaved stores. The signed
view that NumPy takes of the segment is the same 64 bits and is not distinguished.
-/

namespace ProbingBaselines.Greyhound

/-- Word-addressed contents of the `ncclRecord` segment. -/
abbrev Segment := Nat → Nat

/-- Metadata words before the records; `config.hpp:43`. -/
def metadataFields : Nat := 7

/-- Marks an initialised segment; `config.hpp:45`. -/
def bufferMagic : Nat := 0xdeadbeef

/-- Number of values of a `uint64_t` cell. -/
def wordSize : Nat := 2 ^ 64

/-- One store of a word of the segment. -/
structure WordStore where
  addr : Nat
  val : Nat

namespace Segment

/-- A freshly created and truncated segment. -/
def zeroed : Segment := fun _ ↦ 0

/-- The effect of one store. -/
def store (m : Segment) (w : WordStore) : Segment := Function.update m w.addr w.val

/-- The effect of a list of stores in program order. -/
def stores (m : Segment) (ws : List WordStore) : Segment := ws.foldl store m

/-- The `count` words from `start`, as a NumPy slice or a `memcpy` source reads them. -/
def slice (m : Segment) (start count : Nat) : List Nat :=
  (List.range count).map fun j ↦ m (start + j)

end Segment

/-- The stores of a `memcpy` of `src` to word `dst`, in ascending order. -/
def memcpy (dst : Nat) (src : List Nat) : List WordStore :=
  src.mapIdx fun i w ↦ ⟨dst + i, w⟩

/-- The writer's own copies of the metadata; `shm_storage.hpp:41-50`. -/
structure RecordBuffer where
  numFields : Nat
  maxRecords : Nat
  numRecords : Nat
  eventID : Nat
  head : Nat
  tail : Nat

namespace RecordBuffer

/-- Reload every copy from the segment; `shm_storage.cpp:35-43`. -/
def loadMeta (addr : Segment) : RecordBuffer where
  numFields := addr 0
  maxRecords := addr 1
  numRecords := addr 2
  head := addr 3
  tail := addr 4
  eventID := addr 6

/-- Store the copies back, and the next event id unless initialising;
`shm_storage.cpp:45-54`. -/
def updateMeta (b : RecordBuffer) (init : Bool) : List WordStore :=
  [⟨0, b.numFields⟩, ⟨1, b.maxRecords⟩, ⟨2, b.numRecords⟩, ⟨3, b.head⟩, ⟨4, b.tail⟩] ++
    if init then [] else [⟨6, (b.eventID + 1) % wordSize⟩]

/-- Attach to a segment and initialise it unless its magic word is set;
`shm_storage.cpp:17-31`. -/
def create (numFields maxRecords : Nat) (addr : Segment) : RecordBuffer × Segment :=
  let b : RecordBuffer := ⟨numFields, maxRecords, 0, 0, 0, 0⟩
  if addr 5 ≠ bufferMagic then (b, addr.stores (⟨5, bufferMagic⟩ :: b.updateMeta true))
  else (b, addr)

/-- The copies after a push has advanced the ring; `shm_storage.cpp:64-68`. -/
def advance (b : RecordBuffer) : RecordBuffer :=
  { b with
    tail := (b.tail + 1) % b.maxRecords
    head := if b.numRecords = b.maxRecords then (b.head + 1) % b.maxRecords else b.head
    numRecords := if b.numRecords < b.maxRecords then b.numRecords + 1 else b.numRecords }

/-- Put the event id in the last cell of a record; `shm_storage.cpp:62`. -/
def stamp (eventID : Nat) (record : List Nat) : List Nat :=
  record.set (record.length - 1) eventID

/-- The stores of a push whose copies have just been reloaded: the stamped record over the
tail slot, then the metadata, in program order; `shm_storage.cpp:61-69`. -/
def pushStores (b : RecordBuffer) (record : List Nat) : List WordStore :=
  memcpy (metadataFields + b.tail * b.numFields) ((stamp b.eventID record).take b.numFields) ++
    b.advance.updateMeta false

/-- One push: the copies afterwards and the stores made. `none` is the failed size
assertion. `shm_storage.cpp:56-71`. -/
def push (b : RecordBuffer) (record : List Nat) (addr : Segment) :
    Option (RecordBuffer × List WordStore) :=
  if record.length = b.numFields then
    let b := loadMeta addr
    some (b.advance, b.pushStores record)
  else none

end RecordBuffer

/-- What `NcclRecord.__init__` keeps of the segment; `local_analyzer.py:72-75`. -/
structure NcclRecord where
  numFields : Nat
  maxRecords : Nat

namespace NcclRecord

/-- Attach a reader; `local_analyzer.py:72-75`. -/
def attach (data : Segment) : NcclRecord := ⟨data 0, data 1⟩

/-- The stores of `clear`; `local_analyzer.py:86-89`. -/
def clear : List WordStore := [⟨2, 0⟩, ⟨3, 0⟩, ⟨4, 0⟩]

/-- `num_records`; `local_analyzer.py:91-93`. -/
def numRecords (data : Segment) : Nat := data 2

/-- `__getitem__`, with `none` for `StopIteration`; `local_analyzer.py:104-110`. -/
def getItem (r : NcclRecord) (data : Segment) (idx : Nat) : Option (List Nat) :=
  if idx ≥ numRecords data then none
  else
    let head := data 3
    let start := ((head + idx) % r.maxRecords) * r.numFields
    some (data.slice (metadataFields + start) r.numFields)

/-- Reading past the last record stops the iteration. -/
theorem lt_of_getItem {r : NcclRecord} {data : Segment} {idx : Nat} {row : List Nat}
    (h : r.getItem data idx = some row) : idx < numRecords data := by
  unfold getItem at h
  split at h
  · contradiction
  · next hi => omega

/-- Iteration by `__getitem__` over `idx, idx + 1, ...` until `StopIteration`. -/
def iterFrom (r : NcclRecord) (data : Segment) (idx : Nat) : List (List Nat) :=
  match h : r.getItem data idx with
  | none => []
  | some row => row :: iterFrom r data (idx + 1)
termination_by numRecords data - idx
decreasing_by
  have := lt_of_getItem h
  omega

end NcclRecord

/-- The rows copied by one snapshot attempt; `detect_runner.py:79-82`. -/
def snapshotRows (data : Segment) (nFields maxRecords numRecords head : Nat) :
    List (List Nat) :=
  (List.range numRecords).map fun i ↦
    let start := ((head + i) % maxRecords) * nFields
    data.slice (metadataFields + start) nFields

/-- One attempt on a segment that does not change meanwhile; `detect_runner.py:72-87`. -/
def readAttempt (data : Segment) : Option (List (List Nat)) :=
  let eventBefore := data 6
  let recs := snapshotRows data (data 0) (data 1) (data 2) (data 3)
  let eventAfter := data 6
  if eventBefore = eventAfter then some recs else none

/-- Up to ten attempts on a segment that does not change meanwhile, with `none` for the
`RuntimeError`; `detect_runner.py:71-88`. -/
def readShmRecords (data : Segment) : Option (List (List Nat)) :=
  (List.range 10).findSome? fun _ ↦ readAttempt data

end ProbingBaselines.Greyhound
