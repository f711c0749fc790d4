import Mathlib.Data.List.Basic
import Mathlib.Data.List.Nodup
import Mathlib.Logic.Function.Basic
import Mathlib.Tactic.Ring
import ProbingBaselines.Lib.MapM

/-!
# Replicas of checkpoint shards

`ShardCkptReplicaManager` (`flash_checkpoint/replica.py:88-244`) copies the shard of a rank to the
other nodes of its backup group, and `_restore_memory_from_replica` (`engine.py:423-440`) is to get
it back when a node has lost its memory. Both use `SharedMemoryHandler`s whose shared memory and
metadata have names on the node: the handlers of the ranks of a node are named after their local
ranks, those of the replicas after the global ranks they belong to. The collectives are ideal.
-/

namespace ProbingBaselines.Dlrover

variable {δ : Type}

/-- The metadata of a shard, with the `rank` of its `CheckpointConfig`. -/
structure ShardMeta (δ : Type) where
  rank : Nat
  tensors : δ

/-- What is on a node under each name: the bytes of the shared memory `ckpt_shm_i`, and the dict of
the server that is bound to the socket of `ckpt_meta_i`, `some none` when it is empty. -/
structure NodeMemory (δ : Type) where
  segments : Nat → Option (List UInt8)
  metas : Nat → Option (Option (ShardMeta δ))

namespace NodeMemory

/-- `SharedMemoryHandler(local_rank=index)`: its `SharedDict` creates a server, which takes over the
socket of the name (`multi_process.py:59-81`) and has an empty dict. -/
def newHandler (m : NodeMemory δ) (index : Nat) : NodeMemory δ :=
  { m with metas := Function.update m.metas index (some none) }

/-- `init_shared_memory(create=True, size)` (`ckpt_saver.py:147-175`): a segment of that size is
kept, one of another size replaced, and none made of size 0. -/
def createSegment (m : NodeMemory δ) (index size : Nat) : NodeMemory δ :=
  if size = 0 ∨ (m.segments index).map List.length = some size then m
  else { m with segments := Function.update m.segments index (some (List.replicate size 0)) }

def setSegment (m : NodeMemory δ) (index : Nat) (bytes : List UInt8) : NodeMemory δ :=
  { m with segments := Function.update m.segments index (some bytes) }

def setMeta (m : NodeMemory δ) (index : Nat) (shard : ShardMeta δ) : NodeMemory δ :=
  { m with metas := Function.update m.metas index (some (some shard)) }

/-- The memory of a node that has lost it: the agent has set up the handlers of the local ranks. -/
def fresh (localWorldSize : Nat) : NodeMemory δ :=
  ⟨fun _ ↦ none, fun index ↦ if index < localWorldSize then some none else none⟩

end NodeMemory

/-- `ByteTensor.resize_`: the new elements are whatever is in memory. -/
def resizeBytes (junk : Nat → UInt8) (bytes : List UInt8) (size : Nat) : List UInt8 :=
  bytes.take size ++ (List.range (size - bytes.length)).map junk

/-- `_get_max_tensor_size`. -/
def maxTensorSize (buffers : List (List UInt8)) : Nat := (buffers.map List.length).foldl max 0

/-- `_gather_peer_ckpt`: the buffers of all members of the group, at the size of the largest. -/
def gatherPeerCkpt (junk : Nat → UInt8) (buffers : List (List UInt8)) : List (List UInt8) :=
  buffers.map fun bytes ↦ resizeBytes junk bytes (maxTensorSize buffers)

/-- A job whose ranks back up their shards. -/
structure ReplicaJob where
  nodes : Nat
  replicaCount : Nat
  localWorldSize : Nat

/-- A handler in `gather`: the one of the rank itself or that of the replica of a peer. -/
inductive ReplicaHandler where
  | own
  | peer (rank : Nat)

/-- The name under which a handler finds its memory. -/
def ReplicaHandler.index (localRank : Nat) : ReplicaHandler → Nat
  | .own => localRank
  | .peer rank => rank

/-- The loop of `gather` over `backup_ranks` (`replica.py:205-210`): the variable `shm_handler` is
that of the argument until a peer comes, and then that of the peer before. -/
def makeHandlers (own : Nat) : List Nat → ReplicaHandler → List (Nat × ReplicaHandler)
  | [], _ => []
  | rank :: rest, handler =>
    let handler := if rank ≠ own then .peer rank else handler
    (rank, handler) :: makeHandlers own rest handler

/-- The handlers this loop creates. -/
def openPeers (own : Nat) (ranks : List Nat) (m : NodeMemory δ) : NodeMemory δ :=
  ranks.foldl (fun m rank ↦ if rank ≠ own then m.newHandler rank else m) m

/-- What a rank brings to the round `i` of `_gather_owner_checkpoint`, that of the shard of `rank`
(`replica.py:219-230`). `none` is a `KeyError`, or a `get` that finds no server. -/
def contribution (handlers : List (Nat × ReplicaHandler)) (localRank : Nat) (m : NodeMemory δ)
    (i rank : Nat) : Option (List UInt8 × Option (ShardMeta δ)) :=
  match handlers.lookup i with
  | none => none
  | some handler =>
    match m.segments (handler.index localRank) with
    | none => some ([], none)
    | some buffer =>
      match handlers.lookup rank with
      | none => none
      | some handler => (m.metas (handler.index localRank)).map fun shard ↦ (buffer, shard)

/-- `_write_peer_ckpt_to_shm` for one shard (`replica.py:171-189`), with the ranks `_rank_shms`
holds. `none` is an exception: a shard without metadata, no shared memory, or one of another
size. -/
def writePeer (own : Nat) (s : NodeMemory δ × List Nat)
    (shard : List UInt8 × Option (ShardMeta δ)) : Option (NodeMemory δ × List Nat) :=
  shard.2.bind fun config ↦
    if config.rank = own then some s
    else
      let s :=
        if config.rank ∈ s.2 then s
        else ((s.1.newHandler config.rank).createSegment config.rank shard.1.length,
          s.2 ++ [config.rank])
      if (s.1.segments config.rank).map List.length = some shard.1.length then
        some ((s.1.setSegment config.rank shard.1).setMeta config.rank config, s.2)
      else none

namespace ReplicaJob

/-- The global rank of a local rank of a node. -/
def rank (x : ReplicaJob) (node localRank : Nat) : Nat := node * x.localWorldSize + localRank

/-- `_get_backup_ranks`. -/
def backupRanks (x : ReplicaJob) (node localRank : Nat) : List Nat :=
  (List.range x.replicaCount).map fun i ↦
    x.rank (node / x.replicaCount * x.replicaCount + i) localRank

/-- The memory of the nodes before the backup: each rank has saved its own shard. -/
def saved (x : ReplicaJob) (bytes : Nat → List UInt8) (tensors : Nat → δ) (node : Nat) :
    NodeMemory δ where
  segments index :=
    if index < x.localWorldSize then some (bytes (x.rank node index)) else none
  metas index :=
    if index < x.localWorldSize then
      some (some ⟨x.rank node index, tensors (x.rank node index)⟩)
    else none

/-- `backup` of one rank (`replica.py:131-146`): `w` is what the members of its group send. -/
def backupRank (x : ReplicaJob) (junk : Nat → UInt8) (w : Nat → NodeMemory δ)
    (node localRank : Nat) (m : NodeMemory δ) : Option (NodeMemory δ) := do
  let group := x.backupRanks node localRank
  let buffers ← group.mapM fun rank ↦
    (w (rank / x.localWorldSize)).segments (rank % x.localWorldSize)
  let metas ← group.mapM fun rank ↦
    (w (rank / x.localWorldSize)).metas (rank % x.localWorldSize)
  let own := x.rank node localRank
  let s ← ((gatherPeerCkpt junk buffers).zip metas).foldlM (writePeer own) (m, [own])
  pure s.1

/-- `backup` by all ranks of a node. -/
def backupNode (x : ReplicaJob) (junk : Nat → UInt8) (w : Nat → NodeMemory δ) (node : Nat) :
    Option (NodeMemory δ) :=
  (List.range x.localWorldSize).foldlM (fun m localRank ↦ x.backupRank junk w node localRank m)
    (w node)

/-- The nodes in `lost` lose their memory. -/
def lose (x : ReplicaJob) (lost : List Nat) (w : Nat → NodeMemory δ) (node : Nat) : NodeMemory δ :=
  if node ∈ lost then .fresh x.localWorldSize else w node

/-- The memory of a node when its ranks have made the handlers of `gather`. -/
def opened (x : ReplicaJob) (w : Nat → NodeMemory δ) (node : Nat) : NodeMemory δ :=
  (List.range x.localWorldSize).foldl
    (fun m localRank ↦ openPeers (x.rank node localRank) (x.backupRanks node localRank) m) (w node)

/-- What the members of a group bring to a round, `w` being the memory with all handlers made. -/
def gatherRound (x : ReplicaJob) (w : Nat → NodeMemory δ) (group : List Nat) (i rank : Nat) :
    Option (List (List UInt8 × Option (ShardMeta δ))) :=
  group.mapM fun member ↦
    contribution (makeHandlers member group .own) (member % x.localWorldSize)
      (w (member / x.localWorldSize)) i rank

/-- `_gather_owner_checkpoint` (`replica.py:212-244`): in the round of its own shard a rank takes
the first tensor that comes with metadata. -/
def gatherOwner (x : ReplicaJob) (junk : Nat → UInt8) (w : Nat → NodeMemory δ) (own : Nat)
    (group : List Nat) : Option (Option (List UInt8 × ShardMeta δ)) :=
  group.zipIdx.foldlM (fun result e ↦ do
    let parts ← x.gatherRound w group e.2 e.1
    if e.1 ≠ own then pure result
    else
      let tensors := gatherPeerCkpt junk (parts.map Prod.fst)
      pure ((tensors.zip (parts.map Prod.snd)).findSome? fun part ↦
        part.2.map fun shard ↦ (part.1, shard))) none

/-- `_restore_memory_from_replica` of one rank, once the handlers are made. An exception in `gather`
leaves the memory as it is; otherwise a rank without shared memory creates it at the size of the
tensor and sets the metadata, which needs a server. -/
def restoreRank (x : ReplicaJob) (junk : Nat → UInt8) (w : Nat → NodeMemory δ)
    (node localRank : Nat) (m : NodeMemory δ) : NodeMemory δ :=
  match x.gatherOwner junk w (x.rank node localRank) (x.backupRanks node localRank) with
  | some (some (tensor, shard)) =>
    if m.segments localRank = none then
      let m := m.createSegment localRank tensor.length
      if m.metas localRank = none then m else m.setMeta localRank shard
    else m
  | _ => m

/-- `_restore_memory_from_replica` by all ranks of all nodes. -/
def restore (x : ReplicaJob) (junk : Nat → UInt8) (w : Nat → NodeMemory δ) (node : Nat) :
    NodeMemory δ :=
  (List.range x.localWorldSize).foldl
    (fun m localRank ↦ x.restoreRank junk (x.opened w) node localRank m) (x.opened w node)

/-- Each backup group of a rank has `replicaCount` nodes, and there are whole groups only. -/
structure WellFormed (x : ReplicaJob) : Prop where
  replicaCount_ge : 2 ≤ x.replicaCount
  localWorldSize_pos : 0 < x.localWorldSize
  nodes_pos : 0 < x.nodes
  groups : x.replicaCount ∣ x.nodes

/-- Every backup group has a node that keeps its memory. -/
def Survives (x : ReplicaJob) (lost : List Nat) : Prop :=
  ∀ node < x.nodes, ∃ i < x.replicaCount, node / x.replicaCount * x.replicaCount + i ∉ lost

/-- The backup groups part the ranks of the world. -/
structure Partition (x : ReplicaJob) : Prop where
  nodup : ∀ node localRank, (x.backupRanks node localRank).Nodup
  own : ∀ node < x.nodes, ∀ localRank < x.localWorldSize,
    x.rank node localRank ∈ x.backupRanks node localRank
  group : ∀ node < x.nodes, ∀ localRank < x.localWorldSize,
    ∀ member ∈ x.backupRanks node localRank, member / x.localWorldSize < x.nodes ∧
      x.backupRanks (member / x.localWorldSize) (member % x.localWorldSize) =
        x.backupRanks node localRank

/-- From the memory `w` on, with the nodes in `lost` without theirs: each rank of such a node gets
the bytes and the metadata of its own shard, at the front of its shared memory, and the memory of
the others does not change. -/
structure Restores (x : ReplicaJob) (junk : Nat → UInt8) (bytes : Nat → List UInt8)
    (tensors : Nat → δ) (lost : List Nat) (w : Nat → NodeMemory δ) : Prop where
  recovered : ∀ node < x.nodes, node ∈ lost → ∀ localRank < x.localWorldSize,
    (∃ buffer, (x.restore junk w node).segments localRank = some buffer ∧
      bytes (x.rank node localRank) <+: buffer) ∧
    (x.restore junk w node).metas localRank =
      some (some ⟨x.rank node localRank, tensors (x.rank node localRank)⟩)
  kept : ∀ node < x.nodes, node ∉ lost → ∀ localRank < x.localWorldSize,
    (x.restore junk w node).segments localRank = (w node).segments localRank ∧
    (x.restore junk w node).metas localRank = (w node).metas localRank

end ReplicaJob

/-! ### The handlers of a gather -/

/-- No memory is made for a handler, and its dict is empty. -/
structure EmptyNames (names : Nat → Prop) (m m' : NodeMemory δ) : Prop where
  segments : m'.segments = m.segments
  empty : ∀ i, names i → m'.metas i = some none
  kept : ∀ i, m.metas i = some none → m'.metas i = some none

theorem EmptyNames.trans {p q : Nat → Prop} {m₁ m₂ m₃ : NodeMemory δ} (h : EmptyNames p m₁ m₂)
    (h' : EmptyNames q m₂ m₃) : EmptyNames (fun i ↦ p i ∨ q i) m₁ m₃ where
  segments := h'.segments.trans h.segments
  empty i hi := hi.elim (fun hp ↦ h'.kept i (h.empty i hp)) (h'.empty i)
  kept i hi := h'.kept i (h.kept i hi)

theorem openPeers_empty (own : Nat) (ranks : List Nat) (m : NodeMemory δ) :
    EmptyNames (fun i ↦ i ∈ ranks ∧ i ≠ own) m (openPeers own ranks m) := by
  induction ranks generalizing m with
  | nil => exact ⟨rfl, fun i hi ↦ absurd hi.1 List.not_mem_nil, fun _ hi ↦ hi⟩
  | cons rank ranks ih =>
    have head : EmptyNames (fun i ↦ i = rank ∧ i ≠ own) m
        (if rank ≠ own then m.newHandler rank else m) := by
      split
      · refine ⟨rfl, ?_, ?_⟩
        · rintro i ⟨rfl, -⟩
          exact Function.update_self _ _ _
        · intro i hi
          show Function.update m.metas rank (some none) i = some none
          rw [Function.update_apply]
          split
          · rfl
          · exact hi
      · next own_rank =>
        refine ⟨rfl, ?_, fun _ hi ↦ hi⟩
        rintro i ⟨rfl, ne⟩
        exact absurd ne own_rank
    have both := head.trans (ih (if rank ≠ own then m.newHandler rank else m))
    refine ⟨both.segments, ?_, both.kept⟩
    rintro i ⟨mem, ne⟩
    apply both.empty
    rcases List.mem_cons.mp mem with eq | mem
    · exact Or.inl ⟨eq, ne⟩
    · exact Or.inr ⟨mem, ne⟩

/-- A key of another rank has the handler of that rank; the key of the rank itself has its own
handler or, when a peer comes before it, the handler of a peer. -/
theorem mem_makeHandlers {own : Nat} {ranks : List Nat} {first : ReplicaHandler}
    {e : Nat × ReplicaHandler} (mem : e ∈ makeHandlers own ranks first) :
    (e.1 ≠ own → e.2 = .peer e.1) ∧
      (e.1 = own → e.2 = first ∨ ∃ rank ∈ ranks, rank ≠ own ∧ e.2 = .peer rank) := by
  induction ranks generalizing first with
  | nil => exact absurd mem List.not_mem_nil
  | cons rank ranks ih =>
    rcases List.mem_cons.mp mem with rfl | mem
    · refine ⟨fun ne ↦ if_pos ne, fun eq ↦ Or.inl (if_neg (not_not_intro eq))⟩
    · rcases ih mem with ⟨other, self⟩
      refine ⟨other, fun eq ↦ ?_⟩
      rcases self eq with handler | ⟨r, hr, ne, handler⟩
      · split at handler
        · next ne => exact Or.inr ⟨rank, List.mem_cons_self, ne, handler⟩
        · exact Or.inl handler
      · exact Or.inr ⟨r, List.mem_cons_of_mem _ hr, ne, handler⟩

namespace ReplicaJob

variable {x : ReplicaJob} {junk : Nat → UInt8} {w : Nat → NodeMemory δ} {node localRank : Nat}

/-! ### The backup groups -/

theorem mem_backupRanks {rank : Nat} : rank ∈ x.backupRanks node localRank ↔
    ∃ i < x.replicaCount, x.rank (node / x.replicaCount * x.replicaCount + i) localRank = rank := by
  simp [backupRanks]

theorem rank_div (lt : localRank < x.localWorldSize) :
    x.rank node localRank / x.localWorldSize = node := by
  unfold rank
  rw [Nat.add_comm, Nat.add_mul_div_right _ _ (by omega), Nat.div_eq_of_lt lt, Nat.zero_add]

theorem rank_mod (lt : localRank < x.localWorldSize) :
    x.rank node localRank % x.localWorldSize = localRank := by
  unfold rank
  rw [Nat.add_comm, Nat.add_mul_mod_self_right, Nat.mod_eq_of_lt lt]

/-- The nodes of a group have the same place of the group. -/
theorem group_div {i : Nat} (lt : i < x.replicaCount) :
    (node / x.replicaCount * x.replicaCount + i) / x.replicaCount = node / x.replicaCount := by
  rw [Nat.add_comm, Nat.add_mul_div_right _ _ (by omega), Nat.div_eq_of_lt lt, Nat.zero_add]

theorem own_mem_backupRanks (pos : 0 < x.replicaCount) :
    x.rank node localRank ∈ x.backupRanks node localRank := by
  refine mem_backupRanks.mpr ⟨node % x.replicaCount, Nat.mod_lt _ pos, ?_⟩
  rw [Nat.div_add_mod']

/-- A member of a group has the same local rank and the same group. -/
theorem backupRanks_member {member : Nat} (lt : localRank < x.localWorldSize)
    (mem : member ∈ x.backupRanks node localRank) :
    member % x.localWorldSize = localRank ∧
      member = x.rank (member / x.localWorldSize) localRank ∧
      x.backupRanks (member / x.localWorldSize) localRank = x.backupRanks node localRank := by
  rcases mem_backupRanks.mp mem with ⟨i, hi, rfl⟩
  rw [rank_mod lt, rank_div lt]
  refine ⟨rfl, rfl, ?_⟩
  unfold backupRanks
  rw [group_div hi]

/-- The backup groups part the world. -/
theorem WellFormed.partition (wf : x.WellFormed) : x.Partition where
  nodup node localRank := by
    refine List.Nodup.map ?_ List.nodup_range
    intro i j eq
    have := Nat.eq_of_mul_eq_mul_right wf.localWorldSize_pos (Nat.add_right_cancel eq)
    omega
  own node _ localRank _ := own_mem_backupRanks (by have := wf.replicaCount_ge; omega)
  group node hnode localRank lt member mem := by
    rcases backupRanks_member lt mem with ⟨mod, -, same⟩
    rw [mod]
    refine ⟨?_, same⟩
    rcases mem_backupRanks.mp mem with ⟨i, hi, rfl⟩
    rw [rank_div lt]
    rcases wf.groups with ⟨k, eq⟩
    rw [eq] at hnode ⊢
    have quotient : node / x.replicaCount < k := Nat.div_lt_of_lt_mul hnode
    calc node / x.replicaCount * x.replicaCount + i
        < (node / x.replicaCount + 1) * x.replicaCount := by
          rw [Nat.add_mul]
          omega
      _ ≤ k * x.replicaCount := Nat.mul_le_mul_right _ quotient
      _ = x.replicaCount * k := Nat.mul_comm _ _

/-! ### Restoring -/

/-- When the handlers are made, no shared memory has changed, and the dict of every replica of a
peer is empty. -/
theorem opened_empty (x : ReplicaJob) (w : Nat → NodeMemory δ) (node : Nat) :
    EmptyNames (fun i ↦ ∃ localRank < x.localWorldSize,
      i ∈ x.backupRanks node localRank ∧ i ≠ x.rank node localRank) (w node)
      (x.opened w node) := by
  unfold opened
  generalize x.localWorldSize = n
  induction n with
  | zero => exact ⟨rfl, fun i hi ↦ absurd hi (by simp), fun _ hi ↦ hi⟩
  | succ n ih =>
    rw [List.range_succ, List.foldl_append, List.foldl_cons, List.foldl_nil]
    have both := ih.trans (openPeers_empty (x.rank node n) (x.backupRanks node n) _)
    refine ⟨both.segments, ?_, both.kept⟩
    rintro i ⟨localRank, lt, mem⟩
    apply both.empty
    rcases Nat.lt_succ_iff_lt_or_eq.mp lt with lt | rfl
    · exact Or.inl ⟨localRank, lt, mem⟩
    · exact Or.inr mem

/-- No member of its group brings metadata to the round of the shard of a rank whose own dict is
empty. -/
theorem contribution_empty {own member i : Nat} {part : List UInt8 × Option (ShardMeta δ)}
    (lt : localRank < x.localWorldSize) (own_eq : own = x.rank node localRank)
    (empty : (w node).metas localRank = some none) (mem : member ∈ x.backupRanks node localRank)
    (owns : own ∈ x.backupRanks node localRank)
    (found : contribution (makeHandlers member (x.backupRanks node localRank) .own)
      (member % x.localWorldSize) (x.opened w (member / x.localWorldSize)) i own = some part) :
    part.2 = none := by
  rcases backupRanks_member lt mem with ⟨mod, member_eq, same⟩
  have opened := opened_empty x w (member / x.localWorldSize)
  -- the replica of any other rank of the group is empty on this node
  have peer : ∀ rank ∈ x.backupRanks node localRank, rank ≠ member →
      (x.opened w (member / x.localWorldSize)).metas rank = some none := by
    intro rank hrank ne
    apply opened.empty
    refine ⟨localRank, lt, by rwa [same], ?_⟩
    rwa [← member_eq]
  unfold contribution at found
  split at found
  · cases found
  · split at found
    · cases found
      rfl
    · split at found
      · cases found
      · next handler lookup =>
        rcases Option.map_eq_some_iff.mp found with ⟨shard, metas, rfl⟩
        have key : (own, handler) ∈ makeHandlers member (x.backupRanks node localRank) .own := by
          rcases List.lookup_eq_some_iff.mp lookup with ⟨before, after, eq, -⟩
          rw [eq]
          exact List.mem_append_right _ List.mem_cons_self
        rcases mem_makeHandlers key with ⟨other, self⟩
        have value : (x.opened w (member / x.localWorldSize)).metas
            (handler.index (member % x.localWorldSize)) = some none := by
          by_cases eq : own = member
          · rcases self eq with eq_own | ⟨rank, hrank, ne, eq_peer⟩
            · rw [show handler = .own from eq_own, ← eq, own_eq, rank_div lt, rank_mod lt]
              exact (opened_empty x w node).kept localRank empty
            · rw [show handler = .peer rank from eq_peer]
              exact peer rank hrank ne
          · rw [show handler = .peer own from other eq]
            exact peer own owns eq
        rw [value] at metas
        exact (Option.some.inj metas).symm

/-- So `gather` finds nothing for such a rank, if it does not raise. -/
theorem gatherOwner_empty (pos : 0 < x.replicaCount) (lt : localRank < x.localWorldSize)
    (empty : (w node).metas localRank = some none) {result : Option (List UInt8 × ShardMeta δ)}
    (gathered : x.gatherOwner junk (x.opened w) (x.rank node localRank)
      (x.backupRanks node localRank) = some result) : result = none := by
  have owns : x.rank node localRank ∈ x.backupRanks node localRank := own_mem_backupRanks pos
  unfold gatherOwner at gathered
  generalize (x.backupRanks node localRank).zipIdx = rounds at gathered
  have fold : ∀ (rounds : List (Nat × Nat)) (start : Option (List UInt8 × ShardMeta δ)),
      start = none → rounds.foldlM (fun result e ↦ do
        let parts ← x.gatherRound (x.opened w) (x.backupRanks node localRank) e.2 e.1
        if e.1 ≠ x.rank node localRank then pure result
        else
          let tensors := gatherPeerCkpt junk (parts.map Prod.fst)
          pure ((tensors.zip (parts.map Prod.snd)).findSome? fun part ↦
            part.2.map fun shard ↦ (part.1, shard))) start = some result → result = none := by
    intro rounds
    induction rounds with
    | nil =>
      intro start none eq
      cases eq
      exact none
    | cons e rounds ih =>
      intro start none eq
      rw [List.foldlM_cons] at eq
      rcases Option.bind_eq_some_iff.mp eq with ⟨next, one, rest⟩
      refine ih next ?_ rest
      rcases Option.bind_eq_some_iff.mp one with ⟨parts, round, value⟩
      split at value
      · cases value
        exact none
      · next is_own =>
        cases value
        rw [List.findSome?_eq_none_iff]
        intro part hpart
        rcases List.mem_map.mp (List.of_mem_zip hpart).2 with ⟨whole, hwhole, eq⟩
        rcases Lib.exists_of_mem_mapM round hwhole with ⟨member, hmember, found⟩
        rw [Decidable.not_not.mp is_own] at found
        rw [← eq, contribution_empty lt rfl empty hmember owns found]
        rfl
  exact fold rounds none rfl gathered

theorem foldl_eq_self {α β : Type} {f : α → β → α} {a : α} {l : List β}
    (h : ∀ b ∈ l, f a b = a) : l.foldl f a = a := by
  induction l with
  | nil => rfl
  | cons b l ih =>
    rw [List.foldl_cons, h b List.mem_cons_self]
    exact ih fun c hc ↦ h c (List.mem_cons_of_mem _ hc)

/-- A node without metadata gets nothing back. -/
theorem restore_empty (pos : 0 < x.replicaCount)
    (empty : ∀ localRank < x.localWorldSize, (w node).metas localRank = some none) :
    x.restore junk w node = x.opened w node := by
  apply foldl_eq_self
  intro localRank mem
  have lt := List.mem_range.mp mem
  unfold restoreRank
  split
  · next tensor shard gathered => cases gatherOwner_empty pos lt (empty localRank lt) gathered
  · rfl

/-- A node with the shared memory of all its ranks only makes the handlers. -/
theorem restore_kept (kept : ∀ localRank < x.localWorldSize, (w node).segments localRank ≠ none) :
    x.restore junk w node = x.opened w node := by
  apply foldl_eq_self
  intro localRank mem
  unfold restoreRank
  split
  · apply if_neg
    rw [(opened_empty x w node).segments]
    exact kept localRank (List.mem_range.mp mem)
  · rfl

end ReplicaJob

/-! ### The backup -/

/-- Each local rank has shared memory, and metadata that are not empty. -/
def NodeMemory.Loaded (localWorldSize : Nat) (m : NodeMemory δ) : Prop :=
  ∀ index < localWorldSize, m.segments index ≠ none ∧ ∃ shard, m.metas index = some (some shard)

theorem setMeta_metas (m : NodeMemory δ) (i j : Nat) (shard : ShardMeta δ) :
    (m.setMeta i shard).metas j = if j = i then some (some shard) else m.metas j :=
  Function.update_apply _ _ _ _

theorem setSegment_segments (m : NodeMemory δ) (i j : Nat) (bytes : List UInt8) :
    (m.setSegment i bytes).segments j = if j = i then some bytes else m.segments j :=
  Function.update_apply _ _ _ _

theorem createSegment_metas (m : NodeMemory δ) (i size : Nat) :
    (m.createSegment i size).metas = m.metas := by
  unfold NodeMemory.createSegment
  split <;> rfl

theorem createSegment_ne_none {m : NodeMemory δ} {i j : Nat} (size : Nat)
    (h : m.segments i ≠ none) : (m.createSegment j size).segments i ≠ none := by
  unfold NodeMemory.createSegment
  split
  · exact h
  · show Function.update m.segments j _ i ≠ none
    rw [Function.update_apply]
    split
    · exact Option.some_ne_none _
    · exact h

theorem writePeer_loaded {own n : Nat} {s t : NodeMemory δ × List Nat}
    {shard : List UInt8 × Option (ShardMeta δ)} (h : s.1.Loaded n)
    (taken : writePeer own s shard = some t) : t.1.Loaded n := by
  rcases Option.bind_eq_some_iff.mp taken with ⟨config, -, taken⟩
  split at taken
  · cases taken
    exact h
  · simp only [Option.ite_none_right_eq_some, Option.some.injEq] at taken
    rcases taken with ⟨-, rfl⟩
    intro index lt
    constructor
    · refine ne_of_eq_of_ne (setSegment_segments _ config.rank index shard.1) ?_
      split
      · exact Option.some_ne_none _
      · split
        · exact (h index lt).1
        · exact createSegment_ne_none _ (h index lt).1
    · simp only [setMeta_metas]
      split
      · exact ⟨config, rfl⟩
      · next ne =>
        rcases (h index lt).2 with ⟨old, metas⟩
        refine ⟨old, ?_⟩
        show (if config.rank ∈ s.2 then s else _).1.metas index = _
        split
        · exact metas
        · rw [createSegment_metas]
          exact (Function.update_of_ne ne _ _).trans metas

theorem foldlM_loaded {β : Type} {n : Nat} {f : NodeMemory δ × List Nat → β →
    Option (NodeMemory δ × List Nat)} {l : List β} {s t : NodeMemory δ × List Nat}
    (step : ∀ s b t, s.1.Loaded n → f s b = some t → t.1.Loaded n) (h : s.1.Loaded n)
    (taken : l.foldlM f s = some t) : t.1.Loaded n := by
  induction l generalizing s with
  | nil =>
    cases taken
    exact h
  | cons b l ih =>
    rw [List.foldlM_cons] at taken
    rcases Option.bind_eq_some_iff.mp taken with ⟨u, one, rest⟩
    exact ih (step s b u h one) rest

namespace ReplicaJob

variable {x : ReplicaJob} {junk : Nat → UInt8} {w : Nat → NodeMemory δ} {node localRank : Nat}

/-- After a backup every local rank still has shared memory and metadata under its name. -/
theorem backupNode_loaded {m : NodeMemory δ} (h : (w node).Loaded x.localWorldSize)
    (taken : x.backupNode junk w node = some m) : m.Loaded x.localWorldSize := by
  unfold backupNode at taken
  generalize w node = start at h taken
  generalize List.range x.localWorldSize = ranks at taken
  induction ranks generalizing start with
  | nil =>
    cases taken
    exact h
  | cons localRank ranks ih =>
    rw [List.foldlM_cons] at taken
    rcases Option.bind_eq_some_iff.mp taken with ⟨next, one, rest⟩
    refine ih next ?_ rest
    rcases Option.bind_eq_some_iff.mp one with ⟨buffers, -, one⟩
    rcases Option.bind_eq_some_iff.mp one with ⟨metas, -, one⟩
    rcases Option.bind_eq_some_iff.mp one with ⟨s, fold, eq⟩
    cases eq
    exact foldlM_loaded (fun _ _ _ ↦ writePeer_loaded) (s := (start, [_])) h fold

theorem saved_loaded (x : ReplicaJob) (bytes : Nat → List UInt8) (tensors : Nat → δ) (node : Nat) :
    (x.saved bytes tensors node).Loaded x.localWorldSize := by
  intro index lt
  unfold saved
  simp only [if_pos lt]
  exact ⟨Option.some_ne_none _, _, rfl⟩

/-- After a backup by all ranks and the loss of the memory of some nodes: the backup groups part the
world, but no rank that has lost its memory gets shared memory back, and a rank of the first group
that has kept it, on a node other than the first, finds an empty dict in place of its metadata. So
in no case is every shard restored and the rest left as it is. -/
theorem replica_never_restores {bytes : Nat → List UInt8} {tensors : Nat → δ}
    {backedUp : Nat → NodeMemory δ} {lost : List Nat} (wf : x.WellFormed)
    (backup : ∀ node < x.nodes, x.backupNode junk (x.saved bytes tensors) node =
      some (backedUp node)) :
    x.Partition ∧
    (∀ node ∈ lost, ∀ localRank < x.localWorldSize,
      (x.restore junk (x.lose lost backedUp) node).segments localRank = none) ∧
    (∀ node, 0 < node → node < x.replicaCount → node ∉ lost → ∀ localRank < x.localWorldSize,
      (∃ shard, (x.lose lost backedUp node).metas localRank = some (some shard)) ∧
      (x.restore junk (x.lose lost backedUp) node).metas localRank = some none) ∧
    ¬ x.Restores junk bytes tensors lost (x.lose lost backedUp) := by
  have pos : 0 < x.replicaCount := by have := wf.replicaCount_ge; omega
  have gone : ∀ node ∈ lost, ∀ localRank < x.localWorldSize,
      (x.restore junk (x.lose lost backedUp) node).segments localRank = none := by
    intro node mem localRank _
    have fresh : x.lose lost backedUp node = .fresh x.localWorldSize := if_pos mem
    rw [restore_empty pos, (opened_empty x _ node).segments, fresh]
    · rfl
    · intro index lt
      rw [fresh]
      exact if_pos lt
  have emptied : ∀ node, 0 < node → node < x.replicaCount → node ∉ lost →
      ∀ localRank < x.localWorldSize,
      (∃ shard, (x.lose lost backedUp node).metas localRank = some (some shard)) ∧
      (x.restore junk (x.lose lost backedUp) node).metas localRank = some none := by
    intro node node_pos node_lt kept localRank lt
    have in_world : node < x.nodes :=
      node_lt.trans_le (Nat.le_of_dvd wf.nodes_pos wf.groups)
    have same : x.lose lost backedUp node = backedUp node := if_neg kept
    have loaded := backupNode_loaded (saved_loaded x bytes tensors node) (backup node in_world)
    refine ⟨by rw [same]; exact (loaded localRank lt).2, ?_⟩
    rw [restore_kept]
    · apply (opened_empty x _ node).empty
      refine ⟨localRank, lt, mem_backupRanks.mpr ⟨0, pos, ?_⟩, ?_⟩
      · rw [Nat.div_eq_of_lt node_lt]
        simp [rank]
      · have wide : x.localWorldSize ≤ node * x.localWorldSize :=
          Nat.le_mul_of_pos_left _ node_pos
        unfold rank
        omega
    · intro index index_lt
      rw [same]
      exact (loaded index index_lt).1
  refine ⟨wf.partition, gone, emptied, ?_⟩
  intro restores
  -- the second node of the first group has either lost its memory or loses its metadata
  have second_lt : 1 < x.nodes :=
    Nat.lt_of_lt_of_le wf.replicaCount_ge (Nat.le_of_dvd wf.nodes_pos wf.groups)
  by_cases mem : 1 ∈ lost
  · rcases (restores.recovered 1 second_lt mem 0 wf.localWorldSize_pos).1 with ⟨buffer, some, -⟩
    rw [gone 1 mem 0 wf.localWorldSize_pos] at some
    cases some
  · rcases emptied 1 Nat.one_pos wf.replicaCount_ge mem 0 wf.localWorldSize_pos with
      ⟨⟨shard, before⟩, after⟩
    have same := (restores.kept 1 second_lt mem 0 wf.localWorldSize_pos).2
    rw [before, after] at same
    cases same

/-- Two nodes of one rank each, which back each other up. -/
def twoNodes : ReplicaJob := ⟨2, 2, 1⟩

/-- Their memory after the backup of the shards `[7]` and `[8, 9]`. -/
def twoNodesBackedUp (node : Nat) : NodeMemory Nat :=
  (twoNodes.backupNode (fun _ ↦ 0) (twoNodes.saved (fun r ↦ if r = 0 then [7] else [8, 9]) id)
    node).getD (.fresh 1)

theorem twoNodes_wellFormed : twoNodes.WellFormed where
  replicaCount_ge := by decide
  localWorldSize_pos := by decide
  nodes_pos := by decide
  groups := by decide

theorem twoNodes_backup : ∀ node < twoNodes.nodes, twoNodes.backupNode (fun _ ↦ 0)
    (twoNodes.saved (fun r ↦ if r = 0 then [7] else [8, 9]) id) node =
      some (twoNodesBackedUp node) := by
  intro node lt
  have done : ∀ node < twoNodes.nodes, (twoNodes.backupNode (fun _ ↦ 0)
      (twoNodes.saved (fun r ↦ if r = 0 then [7] else [8, 9]) id) node).isSome := by decide
  rcases Option.isSome_iff_exists.mp (done node lt) with ⟨m, eq⟩
  unfold twoNodesBackedUp
  rw [eq]
  rfl

/-- The second of these nodes loses its memory. -/
theorem replica_never_restores_two :
    ¬ twoNodes.Restores (fun _ ↦ 0) (fun r ↦ if r = 0 then [7] else [8, 9]) id [1]
      (twoNodes.lose [1] twoNodesBackedUp) :=
  (replica_never_restores twoNodes_wellFormed twoNodes_backup).2.2.2

/-- All ranks have backed up their shards and the first node keeps its memory, but the second does
not get its shard back. -/
theorem replica_not_restored :
    ¬ ∀ (x : ReplicaJob) (junk : Nat → UInt8) (bytes : Nat → List UInt8) (tensors : Nat → Nat)
      (backedUp : Nat → NodeMemory Nat) (lost : List Nat), x.WellFormed →
      (∀ node < x.nodes, x.backupNode junk (x.saved bytes tensors) node = some (backedUp node)) →
      x.Survives lost →
      x.Partition ∧ x.Restores junk bytes tensors lost (x.lose lost backedUp) := by
  intro every
  have survives : twoNodes.Survives [1] := by
    intro node lt
    refine ⟨0, by decide, ?_⟩
    revert node
    decide
  have restores := (every twoNodes _ _ _ _ [1] twoNodes_wellFormed twoNodes_backup survives).2
  rcases (restores.recovered 1 (by decide) (by decide) 0 (by decide)).1 with ⟨buffer, some, -⟩
  have none : (twoNodes.restore (fun _ ↦ 0) (twoNodes.lose [1] twoNodesBackedUp) 1).segments 0 =
      none := by decide
  rw [none] at some
  cases some

end ReplicaJob

end ProbingBaselines.Dlrover
