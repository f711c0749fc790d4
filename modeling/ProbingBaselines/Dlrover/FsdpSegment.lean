import Mathlib.Algebra.GroupWithZero.Nat
import Mathlib.Algebra.Order.BigOperators.Group.List
import Mathlib.Algebra.Order.Group.Nat
import Mathlib.Data.List.Forall2
import ProbingBaselines.Dlrover.FsdpTorn

/-!
# The segment of an FSDP writer over many saves

Source `xputimer-metax/dlrover/trainer/torch/flash_checkpoint/fsdp_engine.py`. The first save sizes
the segment, later ones write over it, and a trainer that was started anew has the segment mapped
only after its reader has used it. The reader of the shared memory takes an item whose index has no
offset from the metadata, the reader of the files takes every item from its bytes.
-/

namespace ProbingBaselines.Dlrover

open Lib

/-! ### Items and plans -/

/-- What `planner.resolve_data` gives for an item. -/
inductive ItemData where
  | bytes (content : List UInt8)
  | tensor (t : Tensor)

/-- `tensor_data` of an item with the tensor that the item is resolved to; `size` is the one of the
whole tensor, of which a shard is a part. -/
structure TensorWriteData where
  size : List Nat
  data : Tensor
  inside : List.Forall₂ (· ≤ ·) data.shape size
  elementSize_pos : 0 < data.dtype.elementSize

/-- What the three types of `WriteItem` have, the first of them `BYTE_IO`. -/
inductive ItemContent where
  | bytes (data : List UInt8)
  | tensor (d : TensorWriteData)
  | shard (d : TensorWriteData)

structure SaveItem where
  index : MetadataIndex
  content : ItemContent

namespace SaveItem

def type (item : SaveItem) : WriteItemType :=
  match item.content with
  | .bytes _ => WriteItemType.byteIo
  | .tensor _ => .tensor
  | .shard _ => .shard

def data (item : SaveItem) : ItemData :=
  match item.content with
  | .bytes data => .bytes data
  | .tensor d | .shard d => .tensor d.data

/-- `properties.dtype`, for an item that is a tensor. -/
def dtype (item : SaveItem) : Option Dtype :=
  match item.content with
  | .bytes _ => none
  | .tensor d | .shard d => some d.data.dtype

/-- The bytes of an item in the segment. -/
def bytes (item : SaveItem) : List UInt8 :=
  match item.content with
  | .bytes data => data
  | .tensor d | .shard d => d.data.data

/-- `_tensor_item_size`, the size of the whole tensor (`fsdp_engine.py:110-117`). -/
def tensorSize (item : SaveItem) : Nat :=
  match item.content with
  | .bytes _ => 0
  | .tensor d | .shard d => d.size.prod * d.data.dtype.elementSize

/-- The item as far as the size of the segment and the place of its bytes depend on it. -/
def writeItem (item : SaveItem) : WriteItem := ⟨item.index, item.type, item.bytes, item.tensorSize⟩

end SaveItem

/-- A plan as the planner makes it: the indices are distinct, and items of one name are shards of
one tensor. -/
structure SavePlan where
  items : List SaveItem
  nodup : (items.map (·.index)).Nodup
  names : items.Pairwise fun a b ↦ a.index.fqn = b.index.fqn →
    a.type = .shard ∧ b.type = .shard ∧ a.dtype = b.dtype

namespace SavePlan

/-- The size that `_get_buffer_size` gives the segment. -/
def getBufferSize (plan : SavePlan) : Nat :=
  Dlrover.getBufferSize (plan.items.map SaveItem.writeItem)

/-- The bytes of all items, one behind the other. -/
def bytes (plan : SavePlan) : List UInt8 := itemBytes (plan.items.map SaveItem.writeItem)

/-- `write_results` (`fsdp_engine.py:150-154`). -/
def results (plan : SavePlan) (fileName : String) : List WriteResult :=
  writeResults fileName 0 (plan.items.map SaveItem.writeItem)

/-- `no_shard_data` (`fsdp_engine.py:92-102`). -/
def noShardData (plan : SavePlan) : Dict String ItemData :=
  .ofItems ((plan.items.filter (·.type ≠ .shard)).map fun item ↦ (item.index.fqn, item.data))

/-- `storage_data` (`fsdp_engine.py:228-231`). -/
def storageData (plan : SavePlan) (fileName : String) : Dict MetadataIndex StorageInfo :=
  .ofItems ((plan.results fileName).map fun w ↦ (w.index, w.storageData))

/-- The data types in the `state_dict_metadata` of the planner. -/
def stateDictMetadata (plan : SavePlan) : Dict String Dtype :=
  .ofItems (plan.items.filterMap fun item ↦ item.dtype.map (item.index.fqn, ·))

end SavePlan

/-- The dict that the agent keeps, as far as the readers use it. -/
structure FsdpDict where
  step : Int
  noShardData : Dict String ItemData
  storageData : Dict MetadataIndex StorageInfo
  stateDictMetadata : Dict String Dtype

/-- `meta_dict` of a save (`fsdp_engine.py:519-521`). -/
def SavePlan.metaDict (plan : SavePlan) (fileName : String) (step : Int) : FsdpDict :=
  ⟨step, plan.noShardData, plan.storageData fileName, plan.stateDictMetadata⟩

/-! ### Writing -/

inductive WriteError where
  | assertionError
  | valueError

/-- `_write_item` (`fsdp_engine.py:133-155`): a slice that is too short for the bytes, a tensor that
reaches behind the buffer and one without elements raise. -/
def SaveItem.write (item : SaveItem) (buf : List UInt8) (offset : Nat) :
    Except WriteError (List UInt8) :=
  match item.content with
  | .bytes data =>
    if offset + data.length ≤ buf.length then .ok (writeBytes buf offset data)
    else .error .valueError
  | .tensor d | .shard d =>
    if d.data.shape.prod = 0 ∨ buf.length < offset + d.data.data.length then .error .valueError
    else .ok (writeBytes buf offset d.data.data)

/-- `_write_memory_from_list` (`fsdp_engine.py:85-107`), with the bytes as they are when an item
raises. -/
def writeMemoryFromList (buf : List UInt8) (offset : Nat) :
    List SaveItem → List UInt8 × Option WriteError
  | [] => (buf, none)
  | item :: items =>
    match item.write buf offset with
    | .error e => (buf, some e)
    | .ok buf => writeMemoryFromList buf (offset + item.bytes.length) items

/-- The segment, whether the handler of the trainer has it mapped, and the dict of the agent; for
the record the errors of the saves and the plan that was saved last. -/
structure FsdpSegment where
  segment : Option (List UInt8)
  mapped : Bool
  metadata : Option FsdpDict
  errors : List WriteError
  saved : Option SavePlan

namespace FsdpSegment

/-- Before the first save; a segment of the name may be there. -/
def init (segment : Option (List UInt8)) : FsdpSegment := ⟨segment, false, none, [], none⟩

/-- `no_checkpoint_state` (`ckpt_saver.py:368-378`). -/
def noCheckpointState (s : FsdpSegment) : Bool := s.metadata.all (·.step = 0)

/-- `init_shared_memory(create=True)` (`ckpt_saver.py:380-384`). -/
def create (s : FsdpSegment) (size : Nat) : FsdpSegment :=
  { s with segment := CkptMemory.createSharedMemory s.segment size, mapped := decide (size ≠ 0) }

/-- `init_shared_memory()`. -/
def attach (s : FsdpSegment) : FsdpSegment := { s with mapped := s.segment.isSome }

/-- The state of the handler when `write_data` comes to its assertion (`fsdp_engine.py:211-213`). -/
def opened (s : FsdpSegment) (plan : SavePlan) : FsdpSegment :=
  if s.noCheckpointState then s.create plan.getBufferSize else s

/-- `write_data` (`fsdp_engine.py:201-223`). -/
def writeData (s : FsdpSegment) (plan : SavePlan) : FsdpSegment × Option WriteError :=
  match (s.opened plan).mapped, (s.opened plan).segment with
  | true, some buf =>
    ({ s.opened plan with segment := some (writeMemoryFromList buf 0 plan.items).1 },
      (writeMemoryFromList buf 0 plan.items).2)
  | _, _ => (s.opened plan, some .assertionError)

/-- A save of a step; the dict is set after `write_data` (`fsdp_engine.py:502-521`). -/
def save (fileName : String) (s : FsdpSegment) (step : Int) (plan : SavePlan) : FsdpSegment :=
  match s.writeData plan with
  | (s, none) => { s with metadata := some (plan.metaDict fileName step), saved := some plan }
  | (s, some e) => { s with errors := s.errors ++ [e] }

/-- `load` and the `read_data` of the reader it returns when the dict has a checkpoint
(`fsdp_engine.py:250-252`, `579-585`). -/
def load (s : FsdpSegment) : FsdpSegment :=
  if s.noCheckpointState then s else if s.mapped then s else s.attach

end FsdpSegment

/-! ### Reading -/

/-- `BYTE_IO` and `TENSOR`. -/
inductive LoadItemType where
  | bytes
  | tensor

/-- A `ReadItem` of a whole item. -/
structure ReadItem where
  storageIndex : MetadataIndex
  type : LoadItemType
  lengths : List Nat

/-- The request for an item of a plan. -/
def SaveItem.readItem (item : SaveItem) : ReadItem :=
  match item.content with
  | .bytes _ => ⟨item.index, .bytes, []⟩
  | .tensor d | .shard d => ⟨item.index, .tensor, d.data.shape⟩

/-- `torch.frombuffer(buffer, dtype).reshape(lengths)`; an empty buffer raises. -/
def tensorFromBuffer (bytes : List UInt8) (dtype : Dtype) (lengths : List Nat) : Option Tensor :=
  if h : bytes ≠ [] ∧ bytes.length = lengths.prod * dtype.elementSize then
    some ⟨lengths, dtype, bytes, h.2⟩
  else none

namespace ReadItem

/-- `if not read_item.storage_index.offset` (`fsdp_engine.py:256`). -/
def withoutOffset (req : ReadItem) : Bool := (req.storageIndex.offset.getD []).isEmpty

/-- What a reader makes of the bytes of an item (`fsdp_engine.py:274-292`, `389-398`). -/
def decode (req : ReadItem) (m : FsdpDict) (bytes : List UInt8) : Option ItemData :=
  match req.type with
  | .bytes => some (.bytes bytes)
  | .tensor =>
    (m.stateDictMetadata.get? req.storageIndex.fqn).bind fun dtype ↦
      (tensorFromBuffer bytes dtype req.lengths).map .tensor

/-- What the reader of the memory makes of an object of `no_shard_data`: the bytes, or what
`torch.load` gives for the saved tensor (`fsdp_engine.py:257-264`, `274-281`). A tensor request for
bytes, or for a part of the tensor, is no request of a plan. -/
def take (req : ReadItem) (m : FsdpDict) (data : ItemData) : Option ItemData :=
  match req.type, data with
  | .bytes, data => some data
  | .tensor, .tensor t =>
    if (m.stateDictMetadata.get? req.storageIndex.fqn).isSome ∧ t.shape = req.lengths then
      some (.tensor t)
    else none
  | .tensor, .bytes _ => none

/-- `SharedMemoryReader.read_data` for one item (`fsdp_engine.py:253-304`); `none` is an
exception. -/
def readShm (req : ReadItem) (buf : List UInt8) (m : FsdpDict) : Option ItemData :=
  (m.storageData.get? req.storageIndex).bind fun itemMd ↦
    if req.withoutOffset then (m.noShardData.get? req.storageIndex.fqn).bind (req.take m)
    else req.decode m (readBytes buf itemMd.offset itemMd.length)

/-- `FileReader.read_data` for one item (`fsdp_engine.py:374-410`), where `files` are the files of
the directory. -/
def readFile (req : ReadItem) (files : Dict String (List UInt8)) (m : FsdpDict) :
    Option ItemData :=
  (m.storageData.get? req.storageIndex).bind fun itemMd ↦
    (files.get? itemMd.relativePath).bind fun file ↦
      req.decode m (readBytes file itemMd.offset itemMd.length)

end ReadItem

/-! ### Calls -/

/-- A save, a new start of the trainer, which loads from the memory or from the storage, or one more
load. -/
inductive SegmentCall where
  | save (step : Int) (plan : SavePlan)
  | restart (fromMemory : Bool)
  | load

namespace FsdpSegment

/-- The state after a call. -/
def perform (fileName : String) (s : FsdpSegment) : SegmentCall → FsdpSegment
  | .save step plan => s.save fileName step plan
  | .restart fromMemory =>
    if fromMemory then load { s with mapped := false } else { s with mapped := false }
  | .load => s.load

def after (fileName : String) (segment : Option (List UInt8)) (calls : List SegmentCall) :
    FsdpSegment :=
  calls.foldl (perform fileName) (init segment)

/-- No save failed, and of the plan saved last the ranges are disjoint and inside the segment, and
both readers give back the data of every item. -/
structure Sound (fileName : String) (s : FsdpSegment) : Prop where
  errors : s.errors = []
  saved : ∀ plan ∈ s.saved, ∃ buf m, s.segment = some buf ∧ s.metadata = some m ∧
    (plan.results fileName).Pairwise (fun v w ↦
      v.storageData.offset + v.storageData.length ≤ w.storageData.offset ∨
        w.storageData.offset + w.storageData.length ≤ v.storageData.offset) ∧
    (∀ w ∈ plan.results fileName, w.storageData.offset + w.storageData.length ≤ buf.length) ∧
    ∀ item ∈ plan.items, item.readItem.readShm buf m = some item.data ∧
      item.readItem.readFile (.ofItems [(fileName, buf)]) m = some item.data

end FsdpSegment

/-- A tensor has elements. -/
def SaveItem.HasElements (item : SaveItem) : Prop :=
  match item.content with
  | .bytes _ => True
  | .tensor d | .shard d => d.data.shape.prod ≠ 0

/-- A shard has an offset to find it by. -/
def SaveItem.Placed (item : SaveItem) : Prop :=
  item.type = .shard → item.readItem.withoutOffset = false

/-- The condition on a call: the tensors of the plan have elements and the shards dimensions, a
first save has something to save, and a later one has the segment mapped and fits into it. -/
def FsdpSegment.Admitted (s : FsdpSegment) : SegmentCall → Prop
  | .save _ plan =>
    (∀ item ∈ plan.items, item.HasElements ∧ item.Placed) ∧
      if s.noCheckpointState then plan.getBufferSize ≠ 0
      else s.mapped ∧ ∃ buf, s.segment = some buf ∧ plan.bytes.length ≤ buf.length
  | .restart _ => True
  | .load => True

/-! ### The bytes of a plan -/

section

variable {item : SaveItem} {items : List SaveItem} {buf front : List UInt8} {offset : Nat}

/-- What is left of a buffer in front of the bytes that are written. -/
theorem append_prefix_writeBytes {data : List UInt8} (length : front.length = offset)
    (kept : front <+: buf) : front ++ data <+: writeBytes buf offset data := by
  have same : buf.take offset = front := length ▸ (List.prefix_iff_eq_take.mp kept).symm
  rw [writeBytes, same]
  exact List.prefix_append _ _

theorem SaveItem.write_ok (elements : item.HasElements)
    (fits : offset + item.bytes.length ≤ buf.length) :
    item.write buf offset = .ok (writeBytes buf offset item.bytes) := by
  rcases item with ⟨index, data | d | d⟩
  · exact if_pos fits
  · exact if_neg (not_or.mpr ⟨elements, Nat.not_lt.mpr fits⟩)
  · exact if_neg (not_or.mpr ⟨elements, Nat.not_lt.mpr fits⟩)

theorem SaveItem.of_write_ok {written : List UInt8} (ok : item.write buf offset = .ok written) :
    item.HasElements ∧ offset + item.bytes.length ≤ buf.length ∧
      written = writeBytes buf offset item.bytes := by
  rcases item with ⟨index, data | d | d⟩
  · simp only [SaveItem.write] at ok
    split at ok
    · next fits =>
      cases ok
      exact ⟨trivial, fits, rfl⟩
    · contradiction
  all_goals
    simp only [SaveItem.write] at ok
    split at ok
    · contradiction
    · next fine =>
      cases ok
      exact ⟨(not_or.mp fine).1, Nat.not_lt.mp (not_or.mp fine).2, rfl⟩

/-- Items that have elements and fit are written one behind the other. -/
theorem writeMemoryFromList_fits (length : front.length = offset) (kept : front <+: buf)
    (elements : ∀ item ∈ items, item.HasElements)
    (fits : offset + (itemBytes (items.map SaveItem.writeItem)).length ≤ buf.length) :
    ∃ written, writeMemoryFromList buf offset items = (written, none) ∧
      front ++ itemBytes (items.map SaveItem.writeItem) <+: written := by
  induction items generalizing buf offset front with
  | nil => exact ⟨buf, rfl, (List.append_nil front).symm ▸ kept⟩
  | cons item items ih =>
    have split : itemBytes ((item :: items).map SaveItem.writeItem) =
        item.bytes ++ itemBytes (items.map SaveItem.writeItem) := rfl
    rw [split, List.length_append, ← Nat.add_assoc] at fits
    have room : offset + item.bytes.length ≤ buf.length := (Nat.le_add_right _ _).trans fits
    rw [writeMemoryFromList, SaveItem.write_ok (elements item List.mem_cons_self) room, split,
      ← List.append_assoc]
    exact ih (by rw [List.length_append, length]) (append_prefix_writeBytes length kept)
      (fun item mem ↦ elements item (List.mem_cons_of_mem _ mem))
      (by rw [length_writeBytes room]; exact fits)

theorem SavePlan.write_fits {plan : SavePlan} (elements : ∀ item ∈ plan.items, item.HasElements)
    (fits : plan.bytes.length ≤ buf.length) :
    ∃ written, writeMemoryFromList buf 0 plan.items = (written, none) ∧
      plan.bytes <+: written :=
  writeMemoryFromList_fits rfl List.nil_prefix elements ((Nat.zero_add _).symm ▸ fits)

/-- Nothing raises only when the items have elements and fit. -/
theorem fits_of_writeMemoryFromList (inside : offset ≤ buf.length)
    (ok : (writeMemoryFromList buf offset items).2 = none) :
    (∀ item ∈ items, item.HasElements) ∧
      offset + (itemBytes (items.map SaveItem.writeItem)).length ≤ buf.length := by
  induction items generalizing buf offset with
  | nil => exact ⟨fun _ mem ↦ absurd mem List.not_mem_nil, inside⟩
  | cons item items ih =>
    rw [writeMemoryFromList] at ok
    split at ok
    · contradiction
    · next written wrote =>
      rcases SaveItem.of_write_ok wrote with ⟨elements, room, rfl⟩
      have same := length_writeBytes room
      rcases ih (same.symm ▸ room) ok with ⟨rest, fits⟩
      rw [same, Nat.add_assoc, ← List.length_append] at fits
      exact ⟨List.forall_mem_cons.mpr ⟨elements, rest⟩, fits⟩

/-- The size of the whole tensor is enough for a part of it. -/
theorem SaveItem.length_bytes_le (item : SaveItem) :
    item.bytes.length ≤ item.writeItem.bufferSize := by
  have tensors : ∀ d : TensorWriteData,
      d.data.data.length ≤ d.size.prod * d.data.dtype.elementSize := by
    intro d
    rw [d.data.length_eq]
    exact Nat.mul_le_mul_right _ d.inside.prod_le_prod'
  rcases item with ⟨index, data | d | d⟩
  · exact Nat.le_refl _
  · exact tensors d
  · exact tensors d

theorem SavePlan.length_bytes_le (plan : SavePlan) : plan.bytes.length ≤ plan.getBufferSize := by
  rw [SavePlan.bytes, SavePlan.getBufferSize, Dlrover.getBufferSize, itemBytes,
    List.length_flatMap, List.map_map, List.map_map]
  exact List.sum_le_sum fun item _ ↦ item.length_bytes_le

/-- The ranges lie one behind the other. -/
theorem writeResults_ranges (storageKey : String) (offset : Nat) (items : List WriteItem) :
    (writeResults storageKey offset items).Pairwise (fun v w ↦
      v.storageData.offset + v.storageData.length ≤ w.storageData.offset) ∧
    ∀ w ∈ writeResults storageKey offset items, offset ≤ w.storageData.offset ∧
      w.storageData.offset + w.storageData.length ≤ offset + (itemBytes items).length := by
  induction items generalizing offset with
  | nil => exact ⟨.nil, fun _ mem ↦ absurd mem List.not_mem_nil⟩
  | cons item items ih =>
    rcases ih (offset + item.data.length) with ⟨apart, inside⟩
    have total : (itemBytes (item :: items)).length =
        item.data.length + (itemBytes items).length := List.length_append
    refine ⟨List.pairwise_cons.mpr ⟨fun w mem ↦ (inside w mem).1, apart⟩, ?_⟩
    intro w mem
    rw [total]
    rcases List.mem_cons.mp mem with rfl | mem
    · exact ⟨Nat.le_refl _, by dsimp only; omega⟩
    · have bounds := inside w mem
      omega

end

/-! ### Reading a plan -/

section

variable {plan : SavePlan} {item : SaveItem} {fileName : String} {step : Int} {buf : List UInt8}

/-- Every item is found under its index, and its bytes at the place given there. -/
theorem SavePlan.get?_storageData (fileName : String) (mem : item ∈ plan.items)
    (written : plan.bytes <+: buf) : ∃ md, (plan.storageData fileName).get? item.index = some md ∧
      md.relativePath = fileName ∧ readBytes buf md.offset md.length = item.bytes := by
  have names : ∀ (offset : Nat) (items : List WriteItem), ∀ w ∈ writeResults fileName offset items,
      w.storageData.relativePath = fileName := by
    intro offset items
    induction items generalizing offset with
    | nil => exact fun w mem ↦ absurd mem List.not_mem_nil
    | cons item items ih =>
      exact List.forall_mem_cons.mpr ⟨rfl, ih (offset + item.data.length)⟩
  have reads : (plan.results fileName).map (fun w ↦
      (w.index, readBytes buf w.storageData.offset w.storageData.length)) =
      (plan.items.map SaveItem.writeItem).map fun item ↦ (item.index, item.data) :=
    readBytes_writeResults List.length_nil (show [] ++ plan.bytes <+: buf from written)
  have entry : (item.index, item.bytes) ∈ (plan.results fileName).map fun w ↦
      (w.index, readBytes buf w.storageData.offset w.storageData.length) := by
    rw [reads, List.map_map]
    exact List.mem_map_of_mem (f := fun item : SaveItem ↦ (item.index, item.bytes)) mem
  rcases List.mem_map.mp entry with ⟨w, w_mem, same⟩
  have indices : (plan.results fileName).map (·.index) = plan.items.map (·.index) := by
    have firsts := congrArg (List.map Prod.fst) reads
    rw [List.map_map, List.map_map, List.map_map] at firsts
    exact firsts
  have distinct : (((plan.results fileName).map fun w ↦ (w.index, w.storageData)).map
      Prod.fst).Nodup := by
    rw [List.map_map]
    exact indices.symm ▸ plan.nodup
  refine ⟨w.storageData, ?_, names _ _ w w_mem, (Prod.mk.inj same).2⟩
  rw [Dict.get?_eq_some_iff, SavePlan.storageData, Dict.items_ofItems distinct,
    ← (Prod.mk.inj same).1]
  exact List.mem_map_of_mem (f := fun w : WriteResult ↦ (w.index, w.storageData)) w_mem

/-- An item that is no shard is found under its name. -/
theorem SavePlan.get?_noShardData (mem : item ∈ plan.items) (whole : item.type ≠ .shard) :
    plan.noShardData.get? item.index.fqn = some item.data := by
  have distinct : (((plan.items.filter (·.type ≠ .shard)).map fun item ↦
      (item.index.fqn, item.data)).map Prod.fst).Nodup := by
    rw [List.map_map, List.Nodup, List.pairwise_map, List.pairwise_filter]
    refine plan.names.imp fun same a_whole _ eq ↦ ?_
    exact of_decide_eq_true a_whole (same eq).1
  rw [Dict.get?_eq_some_iff, SavePlan.noShardData, Dict.items_ofItems distinct]
  exact List.mem_map_of_mem (f := fun item : SaveItem ↦ (item.index.fqn, item.data))
    (List.mem_filter.mpr ⟨mem, decide_eq_true whole⟩)

/-- Items of one name have one data type, and all or none of them are shards. -/
theorem SavePlan.same_name {other : SaveItem} (mem : item ∈ plan.items)
    (mem' : other ∈ plan.items) (same : item.index.fqn = other.index.fqn) :
    item.dtype = other.dtype ∧ (item.type = .shard ↔ other.type = .shard) := by
  have pairs : plan.items.Pairwise fun a b ↦ a.index.fqn = b.index.fqn →
      a.dtype = b.dtype ∧ (a.type = .shard ↔ b.type = .shard) :=
    plan.names.imp fun names eq ↦
      ⟨(names eq).2.2, iff_of_true (names eq).1 (names eq).2.1⟩
  refine pairs.forall_of_forall_of_flip (fun _ _ _ ↦ ⟨rfl, Iff.rfl⟩)
    (pairs.imp fun ab eq ↦ ?_) mem mem' same
  exact ⟨(ab eq.symm).1.symm, (ab eq.symm).2.symm⟩

/-- A shard is not found under its name. -/
theorem SavePlan.get?_noShardData_shard (mem : item ∈ plan.items) (shard : item.type = .shard) :
    plan.noShardData.get? item.index.fqn = none := by
  rw [Dict.get?_eq_none_iff, SavePlan.noShardData, Dict.mem_ofItems, List.map_map]
  intro found
  rcases List.mem_map.mp found with ⟨other, listed, same⟩
  rcases List.mem_filter.mp listed with ⟨mem', whole⟩
  exact of_decide_eq_true whole ((SavePlan.same_name mem' mem same).2.mpr shard)

/-- All tensors of a name have the data type that is kept for it. -/
theorem SavePlan.get?_stateDictMetadata {dtype : Dtype} (mem : item ∈ plan.items)
    (typed : item.dtype = some dtype) :
    plan.stateDictMetadata.get? item.index.fqn = some dtype := by
  have listed : (item.index.fqn, dtype) ∈
      plan.items.filterMap fun item ↦ item.dtype.map (item.index.fqn, ·) :=
    List.mem_filterMap.mpr ⟨item, mem, by rw [typed, Option.map_some]⟩
  cases found : plan.stateDictMetadata.get? item.index.fqn with
  | none =>
    rw [Dict.get?_eq_none_iff, SavePlan.stateDictMetadata, Dict.mem_ofItems] at found
    exact absurd (List.mem_map_of_mem listed) found
  | some kept =>
    have entry := Dict.mem_items_ofItems (Dict.get?_eq_some_iff.mp found)
    rcases List.mem_filterMap.mp entry with ⟨other, mem', of_other⟩
    rcases Option.map_eq_some_iff.mp of_other with ⟨kept', typed', pair⟩
    cases (Prod.mk.inj pair).2
    have same := (SavePlan.same_name mem mem' (Prod.mk.inj pair).1.symm).1
    rw [typed, typed'] at same
    exact same.symm

/-- The bytes of an item decode to its data. -/
theorem SaveItem.decode_bytes (mem : item ∈ plan.items) (elements : item.HasElements) :
    item.readItem.decode (plan.metaDict fileName step) item.bytes = some item.data := by
  have tensors : ∀ d : TensorWriteData, d.data.shape.prod ≠ 0 → item.dtype = some d.data.dtype →
      ((plan.stateDictMetadata.get? item.index.fqn).bind fun dtype ↦
        (tensorFromBuffer d.data.data dtype d.data.shape).map .tensor) =
          some (ItemData.tensor d.data) := by
    intro d nonzero typed
    have nonempty : d.data.data ≠ [] := by
      intro empty
      have length := d.data.length_eq
      rw [empty, List.length_nil] at length
      exact Nat.mul_ne_zero nonzero (Nat.ne_of_gt d.elementSize_pos) length.symm
    rw [SavePlan.get?_stateDictMetadata mem typed, Option.bind_some, tensorFromBuffer,
      dif_pos ⟨nonempty, d.data.length_eq⟩, Option.map_some]
  rcases item with ⟨index, data | d | d⟩
  · rfl
  · exact tensors d elements rfl
  · exact tensors d elements rfl

/-- An object of `no_shard_data` is taken as it is. -/
theorem SaveItem.take_data (mem : item ∈ plan.items) :
    item.readItem.take (plan.metaDict fileName step) item.data = some item.data := by
  have tensors : ∀ d : TensorWriteData, item.dtype = some d.data.dtype →
      (if (plan.stateDictMetadata.get? item.index.fqn).isSome ∧ d.data.shape = d.data.shape then
        some (ItemData.tensor d.data) else none) = some (ItemData.tensor d.data) := by
    intro d typed
    rw [SavePlan.get?_stateDictMetadata mem typed]
    exact if_pos ⟨rfl, rfl⟩
  rcases item with ⟨index, data | d | d⟩
  · rfl
  · exact tensors d rfl
  · exact tensors d rfl

theorem SaveItem.readItem_storageIndex (item : SaveItem) :
    item.readItem.storageIndex = item.index := by
  rcases item with ⟨index, data | d | d⟩ <;> rfl

/-- The reader of the memory gives an item back, unless it is a shard without an offset. -/
theorem SaveItem.readShm_iff (mem : item ∈ plan.items) (elements : item.HasElements)
    (written : plan.bytes <+: buf) :
    item.readItem.readShm buf (plan.metaDict fileName step) = some item.data ↔ item.Placed := by
  rcases plan.get?_storageData fileName mem written with ⟨md, entry, -, bytes⟩
  unfold ReadItem.readShm
  rw [item.readItem_storageIndex]
  simp only [SavePlan.metaDict] at *
  rw [entry, Option.bind_some, bytes]
  by_cases shard : item.type = .shard
  · rw [SavePlan.get?_noShardData_shard mem shard, SaveItem.Placed]
    cases item.readItem.withoutOffset with
    | false => exact iff_of_true (SaveItem.decode_bytes mem elements) fun _ ↦ rfl
    | true => exact iff_of_false (by simp) fun placed ↦ absurd (placed shard) (by decide)
  · refine iff_of_true ?_ fun is_shard ↦ absurd is_shard shard
    rw [SavePlan.get?_noShardData mem shard, Option.bind_some]
    split
    · exact SaveItem.take_data mem
    · exact SaveItem.decode_bytes mem elements

/-- The reader of the files gives every item back. -/
theorem SaveItem.readFile_eq (mem : item ∈ plan.items) (elements : item.HasElements)
    (written : plan.bytes <+: buf) :
    item.readItem.readFile (.ofItems [(fileName, buf)]) (plan.metaDict fileName step) =
      some item.data := by
  rcases plan.get?_storageData fileName mem written with ⟨md, entry, path, bytes⟩
  have file : (Dict.ofItems [(fileName, buf)]).get? md.relativePath = some buf := by
    have one : ([(fileName, buf)].map Prod.fst).Nodup := List.nodup_singleton fileName
    rw [path, Dict.get?_eq_some_iff, Dict.items_ofItems one]
    exact List.mem_cons_self
  unfold ReadItem.readFile
  rw [item.readItem_storageIndex]
  have entry : (plan.metaDict fileName step).storageData.get? item.index = some md := entry
  rw [entry, Option.bind_some, file, Option.bind_some, bytes]
  exact SaveItem.decode_bytes mem elements

end

/-! ### Runs -/

namespace FsdpSegment

/-- What holds between admitted calls. -/
structure Inv (fileName : String) (s : FsdpSegment) : Prop where
  errors : s.errors = []
  saved : ∀ plan ∈ s.saved, (∀ item ∈ plan.items, item.HasElements ∧ item.Placed) ∧
    ∃ buf step, s.segment = some buf ∧ s.metadata = some (plan.metaDict fileName step) ∧
      plan.bytes <+: buf

section

variable {fileName : String} {s : FsdpSegment} {plan : SavePlan} {step : Int}

theorem inv_init (segment : Option (List UInt8)) : Inv fileName (init segment) where
  errors := rfl
  saved _ saved := by cases saved

/-- The handler has a segment mapped into which the plan fits just when the call is admitted. -/
theorem opened_iff :
    ((s.opened plan).mapped = true ∧
        ∃ buf, (s.opened plan).segment = some buf ∧ plan.bytes.length ≤ buf.length) ↔
      if s.noCheckpointState then plan.getBufferSize ≠ 0
      else s.mapped ∧ ∃ buf, s.segment = some buf ∧ plan.bytes.length ≤ buf.length := by
  unfold opened
  split
  · constructor
    · rintro ⟨mapped, -⟩
      exact of_decide_eq_true mapped
    · intro some_bytes
      rcases CkptMemory.length_createSharedMemory s.segment some_bytes with ⟨buf, made, length⟩
      exact ⟨decide_eq_true some_bytes, buf, made, length ▸ plan.length_bytes_le⟩
  · rfl

/-- A save that does not fail had a segment with room for the plan, and no tensor without
elements. -/
theorem writeData_ok_iff :
    (s.writeData plan).2 = none ↔ (∀ item ∈ plan.items, item.HasElements) ∧
      (s.opened plan).mapped = true ∧
        ∃ buf, (s.opened plan).segment = some buf ∧ plan.bytes.length ≤ buf.length := by
  unfold writeData
  split
  · next buf mapped segment =>
    constructor
    · intro ok
      rcases fits_of_writeMemoryFromList (Nat.zero_le _) ok with ⟨elements, fits⟩
      rw [Nat.zero_add] at fits
      exact ⟨elements, mapped, buf, segment, fits⟩
    · rintro ⟨elements, -, buf', segment', fits⟩
      cases segment.symm.trans segment'
      rcases plan.write_fits elements fits with ⟨written, eq, -⟩
      rw [eq]
  · next unmapped =>
    constructor
    · intro ok
      cases ok
    · rintro ⟨-, mapped, buf, segment, -⟩
      exact absurd segment (unmapped buf mapped)

/-- The opening leaves the dict and the records alone. -/
theorem opened_frame :
    (s.opened plan).metadata = s.metadata ∧ (s.opened plan).errors = s.errors ∧
      (s.opened plan).saved = s.saved := by
  unfold opened
  split <;> exact ⟨rfl, rfl, rfl⟩

/-- A save that does not fail writes the bytes of the plan to the front of the segment and sets the
dict. -/
theorem save_ok (ok : (s.writeData plan).2 = none) :
    ∃ written, plan.bytes <+: written ∧ s.save fileName step plan =
      ⟨some written, true, some (plan.metaDict fileName step), s.errors, some plan⟩ := by
  rcases writeData_ok_iff.mp ok with ⟨elements, -, buf', segment', fits⟩
  rcases plan.write_fits elements fits with ⟨written, wrote, front⟩
  refine ⟨written, front, ?_⟩
  unfold save
  unfold writeData at ok ⊢
  split at ok
  · next buf mapped segment =>
    cases segment.symm.trans segment'
    simp only [wrote, mapped, opened_frame]
  · cases ok

/-- A save that fails is recorded. -/
theorem save_fails {e : WriteError} (fails : (s.writeData plan).2 = some e) :
    (s.save fileName step plan).errors ≠ [] := by
  unfold save
  have pair : s.writeData plan = ((s.writeData plan).1, some e) := Prod.ext rfl fails
  rw [pair]
  exact List.append_ne_nil_of_right_ne_nil _ (List.cons_ne_nil _ _)

theorem Inv.load (inv : s.Inv fileName) : Inv fileName s.load := by
  unfold FsdpSegment.load
  split
  · exact inv
  · split
    · exact inv
    · exact ⟨inv.errors, inv.saved⟩

/-- An admitted call keeps the invariant. -/
theorem Inv.perform (inv : s.Inv fileName) {call : SegmentCall} (admitted : s.Admitted call) :
    Inv fileName (s.perform fileName call) := by
  cases call with
  | save step plan =>
    have elements := fun item mem ↦ (admitted.1 item mem).1
    rcases save_ok (writeData_ok_iff.mpr ⟨elements, opened_iff.mpr admitted.2⟩) with
      ⟨written, front, eq⟩
    show Inv fileName (s.save fileName step plan)
    rw [eq]
    refine ⟨inv.errors, fun saved mem ↦ ?_⟩
    cases Option.some.inj mem
    exact ⟨admitted.1, written, step, rfl, rfl, front⟩
  | restart fromMemory =>
    have fresh : Inv fileName { s with mapped := false } := ⟨inv.errors, inv.saved⟩
    show Inv fileName (if fromMemory then FsdpSegment.load { s with mapped := false } else
      { s with mapped := false })
    split
    · exact fresh.load
    · exact fresh
  | load => exact inv.load

/-- The invariant is enough for the plan saved last. -/
theorem Inv.sound (inv : s.Inv fileName) : s.Sound fileName where
  errors := inv.errors
  saved plan saved := by
    rcases inv.saved plan saved with ⟨items, buf, step, segment, metadata, front⟩
    rcases writeResults_ranges fileName 0 (plan.items.map SaveItem.writeItem) with ⟨apart, inside⟩
    refine ⟨buf, plan.metaDict fileName step, segment, metadata, apart.imp .inl,
      fun w mem ↦ ?_, fun item mem ↦ ?_⟩
    · have bound := (inside w mem).2
      rw [Nat.zero_add] at bound
      exact bound.trans front.length_le
    · have elements := (items item mem).1
      exact ⟨(SaveItem.readShm_iff mem elements front).mpr (items item mem).2,
        SaveItem.readFile_eq mem elements front⟩

/-- A call that leaves everything sound was admitted. -/
theorem admitted_of_sound {call : SegmentCall}
    (sound : (s.perform fileName call).Sound fileName) : s.Admitted call := by
  cases call with
  | save step plan =>
    have sound : (s.save fileName step plan).Sound fileName := sound
    cases result : (s.writeData plan).2 with
    | some e => exact absurd sound.errors (save_fails result)
    | none =>
      rcases writeData_ok_iff.mp result with ⟨elements, open_eq⟩
      refine ⟨fun item mem ↦ ⟨elements item mem, ?_⟩, opened_iff.mp open_eq⟩
      rcases save_ok result with ⟨written, front, eq⟩
      rw [eq] at sound
      rcases sound.saved plan rfl with ⟨buf, m, segment_eq, metadata_eq, -, -, reads⟩
      cases segment_eq
      cases metadata_eq
      exact (SaveItem.readShm_iff mem (elements item mem) front).mp (reads item mem).1
  | restart fromMemory => trivial
  | load => trivial

end

/-- Everything is sound after every part of a sequence of calls just when each call is admitted. -/
theorem sound_iff_admitted (fileName : String) (segment : Option (List UInt8))
    (calls : List SegmentCall) :
    (∀ front, front <+: calls → (after fileName segment front).Sound fileName) ↔
      FoldMeets (perform fileName) Admitted (init segment) calls := by
  have inv_of_meets : ∀ front, FoldMeets (perform fileName) Admitted (init segment) front →
      Inv fileName (after fileName segment front) := fun front meets ↦
    meets.invariant (inv_init segment) fun _ _ _ inv admitted ↦ inv.perform admitted
  constructor
  · intro sound
    induction calls using List.reverseRecOn with
    | nil => trivial
    | append_singleton calls call ih =>
      have last := sound (calls ++ [call]) (List.prefix_refl _)
      rw [after, List.foldl_concat] at last
      exact foldMeets_append.mpr
        ⟨ih fun front le ↦ sound front (le.trans (List.prefix_append _ _)),
          admitted_of_sound last, trivial⟩
  · rintro meets front ⟨rest, rfl⟩
    exact (inv_of_meets front (foldMeets_append.mp meets).1).sound

/-- A plan of one byte item. -/
def bytePlan (content : List UInt8) : SavePlan where
  items := [⟨⟨"optimizer", none⟩, .bytes content⟩]
  nodup := List.nodup_singleton _
  names := List.pairwise_singleton _ _

/-- The save after a restart that did not read the memory fails, and so does one whose byte item has
grown since the segment was sized. -/
theorem not_sound_restart_growth :
    ¬(after "__0_0.distcp" none
        [.save 1 (bytePlan [7]), .restart false, .save 2 (bytePlan [7])]).Sound "__0_0.distcp" ∧
      ¬(after "__0_0.distcp" none
        [.save 1 (bytePlan [7]), .save 2 (bytePlan [7, 7])]).Sound "__0_0.distcp" := by
  constructor
  · intro sound
    exact absurd sound.errors (by decide)
  · intro sound
    exact absurd sound.errors (by decide)

end FsdpSegment

end ProbingBaselines.Dlrover
