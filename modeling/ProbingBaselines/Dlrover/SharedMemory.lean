import Mathlib.Algebra.BigOperators.Group.List.Basic
import ProbingBaselines.Lib.Dict
import ProbingBaselines.Lib.Run
import ProbingBaselines.Lib.KeyedTree

/-!
# The state dict in the shared memory

The `SharedMemoryHandler` of the trainer lays the tensors of a state dict out in a shared segment
and keeps, in a dict shared with the agent, a tree that has a `TensorMeta` in the place of each
tensor. The tree is built by the first `save_state_dict`; later calls patch it in place. The handler
of the host reads the state dict back through the tree.
-/

namespace ProbingBaselines.Dlrover

open Lib

/-- A key of a dict, or an index of a list. -/
inductive Key where
  | str (name : String)
  | int (value : Int)
deriving DecidableEq

/-- The two containers the traversals go into: `Mapping` and `List`. -/
inductive Kind where
  | dict
  | list
deriving DecidableEq

structure Dtype where
  name : String
  elementSize : Nat
deriving DecidableEq

/-- A CPU tensor with its elements as the bytes they take in a buffer. -/
structure Tensor where
  shape : List Nat
  dtype : Dtype
  data : List UInt8
  length_eq : data.length = shape.prod * dtype.elementSize

/-- The place of a tensor in the segment (`ckpt_saver.py:88-92`). -/
structure TensorMeta where
  shape : List Nat
  dtype : Dtype
  elementSize : Nat
  numel : Nat
  offset : Nat
  elementSize_eq : elementSize = dtype.elementSize
  numel_eq : numel = shape.prod

/-- `CheckpointConfig` (`ckpt_saver.py:97-113`). -/
structure CheckpointConfig where
  rank : Int
  groupRank : Int
  worldSize : Int
  step : Int
  writingShm : Bool
  paths : Option (Dict String String)
deriving DecidableEq

/-- A value that is neither a container nor a tensor: the configuration, or a value of `π`, whose
items cannot be read or assigned by key. -/
inductive Plain (π : Type) where
  | config (c : CheckpointConfig)
  | value (p : π)

/-- A leaf of a state dict, with tensors of type `τ`, or of the shared tree, with `TensorMeta`. -/
inductive Leaf (τ π : Type) where
  | tensor (t : τ)
  | plain (p : Plain π)

variable {π : Type}

abbrev Value (π : Type) := KeyedTree Kind Key (Leaf Tensor π)

abbrev Fields (π : Type) := KeyedForest Kind Key (Leaf Tensor π)

abbrev MetaTree (π : Type) := KeyedTree Kind Key (Leaf TensorMeta π)

abbrev MetaDict (π : Type) := KeyedForest Kind Key (Leaf TensorMeta π)

mutual

/-- Keys are distinct, and a list has its items under `0`, `1`, … . -/
def wellFormed : Value π → Bool
  | .leaf _ => true
  | .node kind fields =>
    decide fields.keys.Nodup &&
      (decide (kind = .dict) ||
        decide (fields.keys = (List.range fields.keys.length).map fun i : Nat ↦ Key.int i)) &&
      wellFormedFields fields

def wellFormedFields : Fields π → Bool
  | .nil => true
  | .cons _ child rest => wellFormed child && wellFormedFields rest

end

/-- A dict that `save_state_dict` is called with. -/
structure StateDict (π : Type) where
  fields : Fields π
  wf : wellFormed (.node .dict fields) = true

/-- `DLROVER_CKPT_CONFIG_KEY`. -/
def configKey : Key := .str "_DLORVER_CKPT_CONFIG"

namespace TensorMeta

def nbytes (m : TensorMeta) : Nat := m.numel * m.elementSize

/-- Two byte ranges do not meet. -/
def Apart (a b : TensorMeta) : Prop :=
  a.offset + a.nbytes ≤ b.offset ∨ b.offset + b.nbytes ≤ a.offset

instance (a b : TensorMeta) : Decidable (a.Apart b) := inferInstanceAs (Decidable (_ ∨ _))

end TensorMeta

/-- The slots of the tensors of a tree. -/
def slotsOf : Leaf TensorMeta π → List TensorMeta
  | .tensor t => [t]
  | .plain _ => []

/-! ## Writing -/

/-- The visitor that builds the tree; the state is `self._buffer_size`
(`ckpt_saver.py:286-301`). -/
def createTensorMeta : Leaf Tensor π → StateM Nat (Leaf TensorMeta π)
  | .plain p => pure (.plain p)
  | .tensor t => fun offset ↦
    (.tensor ⟨t.shape, t.dtype, t.dtype.elementSize, t.shape.prod, offset, rfl, rfl⟩,
      offset + t.shape.prod * t.dtype.elementSize)

/-- The bytes of a buffer from an offset on. -/
def readBytes (buf : List UInt8) (offset len : Nat) : List UInt8 := (buf.drop offset).take len

/-- Overwrite the bytes of a buffer from an offset on. -/
def writeBytes (buf : List UInt8) (offset : Nat) (data : List UInt8) : List UInt8 :=
  buf.take offset ++ data ++ buf.drop (offset + data.length)

/-- `_write_shared_memory` (`ckpt_saver.py:221-231`): `frombuffer` raises when the bytes of the
value do not fit behind the offset. -/
def writeSharedMemory (value : Tensor) (m : MetaTree π) (buf : List UInt8) :
    Option (List UInt8) :=
  if value.shape.prod = 0 then some buf
  else
    match m with
    | .leaf (.tensor slot) =>
      if slot.offset + value.data.length ≤ buf.length then
        some (writeBytes buf slot.offset value.data)
      else none
    | _ => none

/-- The place of an index in a list; a negative one counts from the end. -/
def listKey (m : MetaDict π) (i : Int) : Key :=
  .int (if i < 0 then i + m.keys.length else i)

/-- `meta[k]`. -/
def getItem : MetaTree π → Key → Option (MetaTree π)
  | .node .dict m, k => m.get? k
  | .node .list m, .int i => m.get? (listKey m i)
  | _, _ => none

/-- `meta[k] = v`: a new key is added to a dict and raises on a list. -/
def setItem : MetaTree π → Key → MetaTree π → Option (MetaTree π)
  | .node .dict m, k, t => some (.node .dict (m.set k t))
  | .node .list m, .int i, t =>
    if listKey m i ∈ m.keys then some (.node .list (m.set (listKey m i) t)) else none
  | _, _, _ => none

/-- What `_traverse_copy_to_shm` leaves: the patched tree and buffer, also when it raises. -/
structure Copied (π : Type) where
  tree : MetaTree π
  buf : List UInt8
  ok : Bool

mutual

/-- `_traverse_copy_to_shm` (`ckpt_saver.py:198-218`): it goes through the items of the value and
patches the tree under the same keys. -/
def traverseCopyToShm : Value π → MetaTree π → List UInt8 → Copied π
  | .leaf _, m, buf => ⟨m, buf, true⟩
  | .node _ fields, m, buf => copyFields fields m buf

def copyFields : Fields π → MetaTree π → List UInt8 → Copied π
  | .nil, m, buf => ⟨m, buf, true⟩
  | .cons k (.leaf (.plain p)) rest, m, buf =>
    match setItem m k (.leaf (.plain p)) with
    | some m' => copyFields rest m' buf
    | none => ⟨m, buf, false⟩
  | .cons k (.leaf (.tensor t)) rest, m, buf =>
    match (getItem m k).bind fun slot ↦ writeSharedMemory t slot buf with
    | some buf' => copyFields rest m buf'
    | none => ⟨m, buf, false⟩
  | .cons k (.node kind fields) rest, m, buf =>
    match getItem m k with
    | some child =>
      let copied := traverseCopyToShm (.node kind fields) child buf
      let m' := (setItem m k copied.tree).getD m
      if copied.ok then copyFields rest m' copied.buf else ⟨m', copied.buf, false⟩
    | none => ⟨m, buf, false⟩

end

/-! ## Reading -/

/-- `_read_tensor_from_buf` (`ckpt_saver.py:144-161`). -/
def readTensorFromBuf (buf : List UInt8) : Leaf TensorMeta π → Option (Leaf Tensor π)
  | .plain p => some (.plain p)
  | .tensor m =>
    if m.numel = 0 then
      some (.tensor ⟨[0], m.dtype, [], by simp⟩)
    else if bound : m.offset + m.nbytes ≤ buf.length then
      some (.tensor ⟨m.shape, m.dtype, readBytes buf m.offset m.nbytes, by
        rw [readBytes, List.length_take, List.length_drop, TensorMeta.nbytes, m.numel_eq,
          m.elementSize_eq] at *
        omega⟩)
    else none

/-! ## The handlers -/

/-- The shared segment and dict with the handler of the trainer: `localDict` is the trainer's own
copy of the dict, `hostDict` the agent's. Between the two updates of the dict `writing` holds the
state dict of the call, and whether it is the first one, whose configuration object is the one in
the tree. `saved` is the state dict of the last call if that call returned. -/
structure CkptMemory (π : Type) where
  bufferSize : Nat
  mapped : Bool
  segment : Option (List UInt8)
  localDict : MetaDict π
  hostDict : MetaDict π
  writing : Option (StateDict π × Bool)
  saved : Option (StateDict π)

namespace CkptMemory

/-- A new handler; a segment of the same name may be left from an earlier process. -/
def init (segment : Option (List UInt8)) : CkptMemory π :=
  ⟨0, false, segment, .nil, .nil, none, none⟩

/-- `_create_shared_memory(create=True)`: a segment of the same size is taken over as it is
(`ckpt_saver.py:164-195`). -/
def createSharedMemory (segment : Option (List UInt8)) (size : Nat) : Option (List UInt8) :=
  if size = 0 then segment
  else
    match segment with
    | some buf => if buf.length = size then some buf else some (List.replicate size 0)
    | none => some (List.replicate size 0)

/-- `ckpt_conf.writing_shm = flag` on the configuration in a tree. -/
def setWriting (m : MetaDict π) (flag : Bool) : MetaDict π :=
  match m.get? configKey with
  | some (.leaf (.plain (.config c))) =>
    m.set configKey (.leaf (.plain (.config { c with writingShm := flag })))
  | _ => m

def hasConfig (m : MetaDict π) : Bool :=
  match m.get? configKey with
  | some (.leaf (.plain (.config _))) => true
  | _ => false

/-- `save_state_dict` up to the first update of the dict and the assertion behind it
(`ckpt_saver.py:303-324`). -/
def begin (s : CkptMemory π) (v : StateDict π) : CkptMemory π :=
  let laid := (v.fields.traverse createTensorMeta).run s.bufferSize
  let opened : CkptMemory π :=
    if s.mapped then s
    else
      { s with
        bufferSize := laid.2
        mapped := decide (laid.2 ≠ 0)
        segment := createSharedMemory s.segment laid.2 }
  let metaDict := if s.mapped then s.localDict else laid.1
  if hasConfig metaDict then
    { opened with
      localDict := setWriting metaDict true
      hostDict := setWriting metaDict true
      writing := if opened.mapped then some (v, !s.mapped) else none
      saved := none }
  else { opened with saved := none }

/-- `save_state_dict` from the copy on (`ckpt_saver.py:325-333`). The traversal has put the
configuration of the call into the tree; `writing_shm = False` is written to the object that was
there before, which is the same one in the first call only. -/
def finish (s : CkptMemory π) (v : StateDict π) (first : Bool) : CkptMemory π :=
  let copied := traverseCopyToShm (.node .dict v.fields) (.node .dict s.localDict)
    (s.segment.getD [])
  let tree : MetaDict π :=
    match copied.tree with
    | .node _ m => m
    | .leaf _ => s.localDict
  if copied.ok then
    let metaDict := if first then setWriting tree false else tree
    { s with
      segment := some copied.buf
      localDict := metaDict
      hostDict := metaDict
      writing := none
      saved := some v }
  else { s with segment := some copied.buf, localDict := tree, writing := none }

/-- `load_state_dict` of the handler on the host (`ckpt_saver.py:335-366`), which opens the segment
by its name when it first reads it. -/
def loadStateDict (s : CkptMemory π) : Option (Fields π) :=
  match s.hostDict.get? configKey with
  | none =>
    if s.hostDict.keys = [] then some .nil
    else
      match s.segment with
      | none => some .nil
      | some buf => s.hostDict.traverse (readTensorFromBuf buf)
  | some (.leaf (.plain (.config c))) =>
    if c.writingShm then some .nil
    else
      match s.segment with
      | none => some .nil
      | some buf => s.hostDict.traverse (readTensorFromBuf buf)
  | some _ => none

end CkptMemory

/-- A call of `save_state_dict` in two steps. -/
inductive SaveAct (π : Type) where
  | begin (v : StateDict π)
  | finish

def isPlain : Value π → Bool
  | .leaf (.plain _) => true
  | _ => false

mutual

/-- A value can be copied over a tree and read back: the same containers, without items the value
does not have, and the same shape and dtype in the place of each tensor. Plain values may replace
anything, and a dict may get new ones. A tensor without elements is read back with shape `[0]`. -/
def fits : Value π → MetaTree π → Bool
  | .leaf (.plain _), _ => true
  | .leaf (.tensor t), .leaf (.tensor m) =>
    decide (m.shape = t.shape) && decide (m.dtype = t.dtype) &&
      (decide (t.shape.prod ≠ 0) || decide (t.shape = [0]))
  | .leaf (.tensor _), _ => false
  | .node kind fields, .node kind' m =>
    decide (kind = kind') && m.keys.all (fun k ↦ decide (k ∈ fields.keys)) &&
      fitsFields kind fields m
  | .node _ _, .leaf _ => false

def fitsFields (kind : Kind) : Fields π → MetaDict π → Bool
  | .nil, _ => true
  | .cons k child rest, m =>
    (match m.get? k with
      | some t => fits child t
      | none => decide (kind = .dict) && isPlain child) &&
      fitsFields kind rest m

end

/-- A tensor that is read back with its shape. -/
def readable : Leaf Tensor π → Bool
  | .plain _ => true
  | .tensor t => decide (t.shape.prod ≠ 0) || decide (t.shape = [0])

namespace CkptMemory

def step (s : CkptMemory π) : SaveAct π → Option (CkptMemory π)
  | .begin v => if s.writing.isNone then some (s.begin v) else none
  | .finish => s.writing.map fun w ↦ s.finish w.1 w.2

/-- The state dict has its configuration, not marked as being written. -/
def configured (v : StateDict π) : Bool :=
  match v.fields.get? configKey with
  | some (.leaf (.plain (.config c))) => !c.writingShm
  | _ => false

/-- When the round trip is right: the first state dict has no empty tensors but those of shape
`[0]`, and every later one fits the tree. -/
def Admitted (s : CkptMemory π) : SaveAct π → Prop
  | .begin v => configured v = true ∧
      if s.mapped then fits (.node .dict v.fields) (.node .dict s.localDict) = true
      else ∀ l ∈ v.fields.collect (fun l ↦ [l]), readable l = true
  | .finish => True

instance (s : CkptMemory π) : (a : SaveAct π) → Decidable (s.Admitted a)
  | .begin v => inferInstanceAs (Decidable (configured v = true ∧
      if s.mapped then fits (.node .dict v.fields) (.node .dict s.localDict) = true
      else ∀ l ∈ v.fields.collect (fun l ↦ [l]), readable l = true))
  | .finish => .isTrue trivial

end CkptMemory

end ProbingBaselines.Dlrover
