import Mathlib.Data.List.Basic
import Mathlib.Data.List.GetD
import Mathlib.Data.List.Nodup
import Mathlib.Data.List.Range
import ProbingBaselines.Lib.Dict
import ProbingBaselines.Lib.Ring

/-!
# Rings of communicators

`build_rings` (`detector/control_plane/global_topo.py:22-44`) follows the `next` ranks of the
communicators of one id hash and lists the `index` of every node it visits. The result is used as a
list of group ranks (`detector/control_plane/global_controller.py:199-218`), while the index of a
node is its place in the ring (`detector/nccl_structs.hpp:49-61`).
-/

namespace ProbingBaselines.Greyhound.ControlPlane

open Lib

/-- A node of a ring; `detector/control_plane/communicator.py:8-14`. -/
structure RingNode where
  next : Nat
  index : Nat
  deriving DecidableEq

/-- The communicator of one rank; `detector/control_plane/communicator.py:37-50`. -/
structure Communicator where
  idHash : Nat
  commAddr : Nat
  globalRank : Nat
  groupRank : Nat
  rings : List RingNode
  deriving DecidableEq

/-- The loop over the nodes, `none` where a lookup raises or the steps run out;
`global_topo.py:31-34`. -/
def walkRing (commsByRank : Dict Nat Communicator) (count : Nat) :
    Nat → List Nat → List Nat → RingNode → Option (List Nat)
  | 0, _, _, _ => none
  | steps + 1, visited, currRing, currNode =>
    if visited.length ≠ count then
      match (commsByRank.get? currNode.next).bind (·.rings.head?) with
      | some next =>
        walkRing commsByRank count steps (visited.insert currNode.index)
          (currRing ++ [currNode.index]) next
      | none => none
    else some currRing

/-- The ring of the communicators of one id hash; `global_topo.py:25-34`. -/
def buildRing (steps : Nat) (comms : List Communicator) : Option (List Nat) :=
  let commsByRank := Dict.ofItems (comms.map fun cm ↦ (cm.groupRank, cm))
  (comms.head?.bind (·.rings.head?)).bind fun currNode ↦
    walkRing commsByRank comms.length steps [] [] currNode

/-- `ring_key`; `global_topo.py:5-6`. -/
def ringKey (ring : List Nat) : List Nat := ring.mergeSort

/-- The rings whose ranks no ring before has; `global_topo.py:37-43`. -/
def uniqueRings : List (List Nat) → List (List Nat) → List (List Nat)
  | _, [] => []
  | seen, r :: rings =>
    if seen.contains (ringKey r) then uniqueRings seen rings
    else r :: uniqueRings (ringKey r :: seen) rings

/-- `build_rings`, with a bound on the steps of each of its loops; `global_topo.py:22-44`. -/
def buildRings (steps : Nat) (commsByIdHash : Dict Nat (List Communicator)) :
    Option (List (List Nat)) :=
  (commsByIdHash.values.mapM (buildRing steps)).map (uniqueRings [])

/-! ### The real ring -/

/-- The node of a communicator in channel 0. -/
def Communicator.HasNode (c : Communicator) (node : RingNode) : Prop := c.rings.head? = some node

/-- The communicators form a ring, listed by group rank: the `next` of each is the rank that
follows and its `index` is its place. -/
structure FormsRing (comms : List Communicator) (ring : List Nat) : Prop where
  ranks : (comms.map (·.groupRank)).Perm ring
  nodup : ring.Nodup
  node : ∀ c ∈ comms, ∀ i (h : i < ring.length), ring[i] = c.groupRank →
    c.HasNode ⟨getElem ring ((i + 1) % ring.length) (Nat.mod_lt _ (Nat.zero_lt_of_lt h)), i⟩

/-- A list of every group rank, once, where each is followed by its `next`. -/
structure RecoversRing (comms : List Communicator) (ring : List Nat) : Prop where
  ranks : ring.Perm (comms.map (·.groupRank))
  follows : ∀ i (h : i < ring.length), ∃ c ∈ comms, c.groupRank = ring[i] ∧ ∃ node, c.HasNode node ∧
    node.next = getElem ring ((i + 1) % ring.length) (Nat.mod_lt _ (Nat.zero_lt_of_lt h))

/-- The ranks count from zero, and every rank is followed by the next larger one and the last by
rank zero. -/
def InRankOrder (comms : List Communicator) : Prop :=
  ∀ c ∈ comms, c.groupRank < comms.length ∧
    ∃ node, c.HasNode node ∧ node.next = (c.groupRank + 1) % comms.length

/-- The places of a ring of `n` nodes, from place `p` on. -/
def placesFrom (n p : Nat) : List Nat := (List.range n).map (slot n p)

/-! ### The walk -/

theorem length_placesFrom (n p : Nat) : (placesFrom n p).length = n := by simp [placesFrom]

theorem getElem_placesFrom {n p i : Nat} (h : i < (placesFrom n p).length) :
    (placesFrom n p)[i] = slot n p i := by
  simp [placesFrom]

theorem nodup_placesFrom (n p : Nat) : (placesFrom n p).Nodup := by
  apply List.Nodup.map_on _ List.nodup_range
  intro i hi j hj eq
  exact slot_inj (List.mem_range.mp hi) (List.mem_range.mp hj) eq

theorem placesFrom_perm (n p : Nat) : (placesFrom n p).Perm (List.range n) := by
  apply List.Subperm.perm_of_length_le
  · apply List.subperm_of_subset (nodup_placesFrom n p)
    intro x hx
    obtain ⟨j, hj, rfl⟩ := List.mem_map.mp hx
    rw [List.mem_range] at hj ⊢
    exact slot_lt (Nat.zero_lt_of_lt hj) p j
  · rw [length_placesFrom, List.length_range]

variable {comms : List Communicator} {ring : List Nat}

theorem FormsRing.length (h : FormsRing comms ring) : ring.length = comms.length := by
  rw [← h.ranks.length_eq, List.length_map]

/-- The node at a place of the ring. -/
def nodeAt (ring : List Nat) (i : Nat) : RingNode := ⟨ring.getD (slot ring.length i 1) 0, i⟩

theorem FormsRing.hasNode (h : FormsRing comms ring) {c : Communicator} (mem : c ∈ comms) {i : Nat}
    (hi : i < ring.length) (rank : ring[i] = c.groupRank) : c.HasNode (nodeAt ring i) := by
  have next : slot ring.length i 1 < ring.length := slot_lt (Nat.zero_lt_of_lt hi) i 1
  have node := h.node c mem i hi rank
  rwa [nodeAt, List.getD_eq_getElem _ _ next]

/-- The lookup by rank finds the node that stands at the rank's place. -/
theorem FormsRing.lookup (h : FormsRing comms ring) {i : Nat} (hi : i < ring.length) :
    ((Dict.ofItems (comms.map fun cm ↦ (cm.groupRank, cm))).get? (ring.getD i 0)).bind
      (·.rings.head?) = some (nodeAt ring i) := by
  obtain ⟨c, mem, rank⟩ := List.mem_map.mp (h.ranks.mem_iff.mpr (List.getElem_mem hi))
  have keys : ((comms.map fun cm ↦ (cm.groupRank, cm)).map Prod.fst).Nodup := by
    rw [List.map_map]
    exact h.ranks.nodup_iff.mpr h.nodup
  have found : (Dict.ofItems (comms.map fun cm ↦ (cm.groupRank, cm))).get? ring[i] = some c := by
    rw [Dict.get?_eq_some_iff, Dict.items_ofItems keys, ← rank]
    exact List.mem_map.mpr ⟨c, mem, rfl⟩
  rw [List.getD_eq_getElem _ _ hi, found]
  exact h.hasNode mem hi rank.symm

/-- The walk has listed the first places; with more steps than places left it lists all of them. -/
theorem FormsRing.walk (h : FormsRing comms ring) {p : Nat} (left : Nat) {done steps : Nat}
    (all : done + left = ring.length) (enough : left < steps) {visited : List Nat}
    (seen : visited.Perm ((placesFrom ring.length p).take done)) :
    walkRing (Dict.ofItems (comms.map fun cm ↦ (cm.groupRank, cm))) comms.length steps visited
      ((placesFrom ring.length p).take done) (nodeAt ring (slot ring.length p done)) =
      some (placesFrom ring.length p) := by
  induction left generalizing done steps visited with
  | zero =>
    obtain ⟨steps, rfl⟩ := Nat.exists_eq_add_one_of_ne_zero (by omega : steps ≠ 0)
    have whole : (placesFrom ring.length p).take done = placesFrom ring.length p := by
      apply List.take_of_length_le
      rw [length_placesFrom]
      omega
    have full : visited.length = comms.length := by
      rw [seen.length_eq, whole, length_placesFrom, h.length]
    rw [walkRing, if_neg (not_not.mpr full), whole]
  | succ left ih =>
    obtain ⟨steps, rfl⟩ := Nat.exists_eq_add_one_of_ne_zero (by omega : steps ≠ 0)
    have inside : done < (placesFrom ring.length p).length := by
      rw [length_placesFrom]
      omega
    have more : visited.length ≠ comms.length := by
      rw [seen.length_eq, List.length_take, ← h.length]
      omega
    have grown : (placesFrom ring.length p).take (done + 1) =
        (placesFrom ring.length p).take done ++ [slot ring.length p done] := by
      rw [List.take_add_one, List.getElem?_eq_getElem inside, getElem_placesFrom]
      rfl
    have fresh : slot ring.length p done ∉ visited := by
      have nodup := (nodup_placesFrom ring.length p).sublist (List.take_sublist (done + 1) _)
      rw [grown, List.nodup_append] at nodup
      intro mem
      exact nodup.2.2 _ (seen.subset mem) _ (List.mem_singleton_self _) rfl
    have seen' : (visited.insert (slot ring.length p done)).Perm
        ((placesFrom ring.length p).take (done + 1)) := by
      rw [List.insert_of_not_mem fresh, grown]
      exact (seen.cons _).trans (List.perm_append_singleton _ _).symm
    have found : ((Dict.ofItems (comms.map fun cm ↦ (cm.groupRank, cm))).get?
        (nodeAt ring (slot ring.length p done)).next).bind (·.rings.head?) =
        some (nodeAt ring (slot ring.length p (done + 1))) := by
      rw [← slot_slot]
      exact h.lookup (slot_lt (by omega) _ 1)
    have index : (nodeAt ring (slot ring.length p done)).index = slot ring.length p done := rfl
    rw [walkRing, if_pos more, found, index, ← grown]
    exact ih (by omega) (by omega) seen'

/-- With more steps than nodes the loop lists the places, from that of the first communicator on. -/
theorem FormsRing.buildRing_eq (h : FormsRing comms ring) (some : comms ≠ []) :
    ∃ p < ring.length, ∀ steps, comms.length < steps →
      buildRing steps comms = .some (placesFrom ring.length p) := by
  obtain ⟨c, rest, rfl⟩ := List.exists_cons_of_ne_nil some
  obtain ⟨p, hp, rank⟩ := List.mem_iff_getElem.mp
    (h.ranks.mem_iff.mp (List.mem_map.mpr ⟨c, List.mem_cons_self, rfl⟩))
  refine ⟨p, hp, ?_⟩
  intro steps enough
  have first := h.hasNode List.mem_cons_self hp rank
  have start : slot ring.length p 0 = p := slot_zero hp
  rw [← h.length] at enough
  have whole := h.walk (p := p) ring.length (Nat.zero_add _) enough (.refl [])
  rw [start] at whole
  rw [buildRing, List.head?_cons, Option.bind_some, first, Option.bind_some]
  exact whole

/-! ### When the places are the ranks -/

/-- The place that follows a place. -/
theorem getElem_placesFrom_next {n p i : Nat} (hi : i < (placesFrom n p).length) :
    getElem (placesFrom n p) ((i + 1) % (placesFrom n p).length)
        (Nat.mod_lt _ (Nat.zero_lt_of_lt hi)) =
      ((placesFrom n p)[i] + 1) % n := by
  rw [getElem_placesFrom, getElem_placesFrom, length_placesFrom]
  show (p + (i + 1) % n) % n = ((p + i) % n + 1) % n
  rw [Nat.add_mod_mod, Nat.mod_add_mod, Nat.add_assoc]

/-- Ranks that count from zero are a permutation of the places. -/
theorem InRankOrder.ranks_perm (order : InRankOrder comms)
    (nodup : (comms.map (·.groupRank)).Nodup) (p : Nat) :
    (placesFrom comms.length p).Perm (comms.map (·.groupRank)) := by
  have below : (comms.map (·.groupRank)).Subperm (List.range comms.length) := by
    apply List.subperm_of_subset nodup
    intro x hx
    obtain ⟨c, mem, rfl⟩ := List.mem_map.mp hx
    exact List.mem_range.mpr (order c mem).1
  have range := below.perm_of_length_le (by rw [List.length_range, List.length_map])
  exact (placesFrom_perm comms.length p).trans range.symm

/-- A list of the places of a ring is the ring of the ranks exactly if the ranks are in order. -/
theorem FormsRing.recovers_iff (h : FormsRing comms ring) (p : Nat) :
    RecoversRing comms (placesFrom ring.length p) ↔ InRankOrder comms := by
  have nodup : (comms.map (·.groupRank)).Nodup := h.ranks.nodup_iff.mpr h.nodup
  rw [h.length]
  constructor
  · intro recovers c mem
    have place : c.groupRank ∈ placesFrom comms.length p :=
      recovers.ranks.mem_iff.mpr (List.mem_map.mpr ⟨c, mem, rfl⟩)
    obtain ⟨i, hi, stands⟩ := List.mem_iff_getElem.mp place
    obtain ⟨c', mem', rank, node, has, next⟩ := recovers.follows i hi
    have same : c' = c := List.inj_on_of_nodup_map nodup mem' mem (rank.trans stands)
    subst same
    constructor
    · exact List.mem_range.mp ((placesFrom_perm _ _).mem_iff.mp place)
    · refine ⟨node, has, ?_⟩
      rw [next, getElem_placesFrom_next hi, rank]
  · intro order
    have perm := order.ranks_perm nodup p
    constructor
    · exact perm
    · intro i hi
      obtain ⟨c, mem, rank⟩ := List.mem_map.mp (perm.mem_iff.mp (List.getElem_mem hi))
      obtain ⟨-, node, has, next⟩ := order c mem
      refine ⟨c, mem, rank, node, has, ?_⟩
      rw [next, getElem_placesFrom_next hi, rank]

/-- `build_rings` finds the ring of the group ranks exactly if the ranks stand in it in order. -/
theorem FormsRing.buildRings_recovers (h : FormsRing comms ring) (some : comms ≠ []) (id : Nat) :
    ∃ r, (∀ steps, comms.length < steps →
        buildRings steps (Dict.ofItems [(id, comms)]) = .some [r]) ∧
      (RecoversRing comms r ↔ InRankOrder comms) := by
  obtain ⟨p, -, built⟩ := h.buildRing_eq some
  refine ⟨placesFrom ring.length p, ?_, h.recovers_iff p⟩
  intro steps enough
  have values : (Dict.ofItems [(id, comms)]).values = [comms] := rfl
  rw [buildRings, values, List.mapM_cons, List.mapM_nil, built steps enough]
  rfl

/-- Three ranks that stand in the ring in their order. -/
def orderedComms : List Communicator :=
  [⟨7, 100, 0, 0, [⟨1, 0⟩]⟩, ⟨7, 101, 1, 1, [⟨2, 1⟩]⟩, ⟨7, 102, 2, 2, [⟨0, 2⟩]⟩]

/-- Three ranks that stand in the ring the other way round. -/
def reversedComms : List Communicator :=
  [⟨7, 100, 0, 0, [⟨2, 0⟩]⟩, ⟨7, 101, 1, 1, [⟨0, 2⟩]⟩, ⟨7, 102, 2, 2, [⟨1, 1⟩]⟩]

theorem orderedComms_formsRing : FormsRing orderedComms [0, 1, 2] := by
  constructor
  · exact .refl _
  · decide
  · unfold Communicator.HasNode
    decide

theorem reversedComms_formsRing : FormsRing reversedComms [0, 2, 1] := by
  constructor
  · decide
  · decide
  · unfold Communicator.HasNode
    decide

theorem FormsRing.buildRings_recovers_ordered : ∃ r, (∀ steps, orderedComms.length < steps →
      buildRings steps (Dict.ofItems [(7, orderedComms)]) = .some [r]) ∧
    (RecoversRing orderedComms r ↔ InRankOrder orderedComms) :=
  FormsRing.buildRings_recovers orderedComms_formsRing (by decide) 7

/-- The walk over the reversed ring lists 0, 1, 2, but 2 follows 0. -/
theorem FormsRing.buildRings_reversed : FormsRing reversedComms [0, 2, 1] ∧
    ¬ ∃ r, (∀ steps, reversedComms.length < steps →
        buildRings steps (Dict.ofItems [(7, reversedComms)]) = .some [r]) ∧
      RecoversRing reversedComms r := by
  refine ⟨reversedComms_formsRing, ?_⟩
  rintro ⟨r, built, recovers⟩
  have output : buildRings 4 (Dict.ofItems [(7, reversedComms)]) = .some [[0, 1, 2]] := by decide
  have same := (built 4 (by decide)).symm.trans output
  obtain rfl : r = [0, 1, 2] := by simpa using same
  obtain ⟨c, mem, rank, node, has, next⟩ := recovers.follows 0 (by decide)
  have first : ∀ c ∈ reversedComms, c.groupRank = 0 → c.rings.head? = some ⟨2, 0⟩ := by decide
  rw [Communicator.HasNode, first c mem rank, Option.some.injEq] at has
  rw [← has] at next
  exact absurd next (by decide)

end ProbingBaselines.Greyhound.ControlPlane
