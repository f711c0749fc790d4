import ProbingBaselines.Lib.Dict
import Mathlib.Algebra.GroupWithZero.Nat
import Mathlib.Data.List.Sort
import Mathlib.Data.String.Basic
import ProbingBaselines.Lib.MapM

/-!
# The worker ranks of an agent

`ElasticTrainingAgent._assign_worker_ranks` numbers the workers of its node from the world it was
handed (`elastic_agent/torch/training.py:980-1071`). The order of role infos and the boundaries
of a role are torch's; they stand as a parameter with the laws the code relies on.
-/

namespace ProbingBaselines.Dlrover

open Lib

structure RoleInstanceInfo where
  role : String
  rank : Nat
  localWorldSize : Nat

/-- torch's `_RoleInstanceInfo.compare` and `find_role_boundaries`: infos are ordered by role and
then by rank, and the boundaries are the first and the last index of a role. -/
structure RoleInstanceOps where
  compare : RoleInstanceInfo → RoleInstanceInfo → Int
  findRoleBoundaries : List RoleInstanceInfo → String → Int × Int
  compare_lt : ∀ a b, compare a b < 0 ↔ a.role < b.role ∨ a.role = b.role ∧ a.rank < b.rank
  compare_eq : ∀ a b, compare a b = 0 ↔ a.role = b.role ∧ a.rank = b.rank
  boundaries : ∀ (infos : List RoleInstanceInfo) (role : String) (first last : Nat),
    (∃ info, infos[first]? = some info ∧ info.role = role) →
    (∃ info, infos[last]? = some info ∧ info.role = role) →
    (∀ idx info, infos[idx]? = some info → info.role = role → first ≤ idx ∧ idx ≤ last) →
    findRoleBoundaries infos role = ((first : Int), (last : Int))

structure Worker where
  localRank : Nat
  globalRank : Nat
  roleRank : Nat
  worldSize : Nat
  roleWorldSize : Nat

/-- `infos[idx]`, counting from the end when negative. -/
def getInfo (infos : List RoleInstanceInfo) (idx : Int) : Option RoleInstanceInfo :=
  if 0 ≤ idx then infos[idx.toNat]?
  else if -infos.length ≤ idx then infos[(infos.length + idx).toNat]?
  else none

/-- One turn of the loop of `_get_ranks` on `prefix_sum` and `total_sum`. -/
def addSizes (infos : List RoleInstanceInfo) (roleIdx : Int) (sums : Nat × Nat) (idx : Int) :
    Option (Nat × Nat) := do
  let info ← getInfo infos idx
  return (if roleIdx > idx then sums.1 + info.localWorldSize else sums.1,
    sums.2 + info.localWorldSize)

/-- `_get_ranks`; `none` is an index error. -/
def getRanks (infos : List RoleInstanceInfo) (roleIdx startIdx endIdx : Int) :
    Option (Nat × List Nat) := do
  let endIdx := if endIdx = -1 then (infos.length : Int) else endIdx
  let indices := (List.range (endIdx - startIdx).toNat).map fun i : Nat ↦ startIdx + i
  let (prefixSum, totalSum) ← indices.foldlM (addSizes infos roleIdx) (0, 0)
  let info ← getInfo infos roleIdx
  return (totalSum, List.range' prefixSum info.localWorldSize)

/-- The infos of the world's nodes in their order. -/
def roleInfos (world : Dict Int Nat) (role : String) : List RoleInstanceInfo :=
  world.items.map fun e ↦ ⟨role, world.keys.idxOf e.1, e.2⟩

/-- `_assign_worker_ranks`; `none` is an error raised on the way. -/
def assignWorkerRanks (ops : RoleInstanceOps) (nodeId : Int) (world : Dict Int Nat)
    (role : String) (localWorldSize : Nat) : Option (List Worker) := do
  let infos := roleInfos world role
  guard (nodeId ∈ world)
  let groupRank := world.keys.idxOf nodeId
  let myRoleInfo ← infos[groupRank]?
  let (workerWorldSize, workerGlobalRanks) ← getRanks infos groupRank 0 (-1)
  let sorted := infos.insertionSort fun a b ↦ ¬ops.compare b a < 0
  let (roleStartIdx, roleEndIdx) := ops.findRoleBoundaries sorted myRoleInfo.role
  let rolePos ← sorted.findIdx? fun info ↦ ops.compare info myRoleInfo = 0
  let (roleWorldSize, roleRanks) ← getRanks sorted rolePos roleStartIdx (roleEndIdx + 1)
  (List.range localWorldSize).mapM fun ind ↦ do
    let globalRank ← workerGlobalRanks[ind]?
    let roleRank ← roleRanks[ind]?
    return ⟨ind, globalRank, roleRank, workerWorldSize, roleWorldSize⟩

/-! ### Offsets -/

/-- The first number of the `i`th of consecutive blocks. -/
def blockStart (sizes : List Nat) (i : Nat) : Nat := (sizes.take i).sum

/-- Consecutive blocks of numbers fill a range. -/
theorem flatten_blocks (sizes : List Nat) :
    (sizes.mapIdx fun i size ↦ List.range' (blockStart sizes i) size).flatten =
      List.range sizes.sum := by
  have shifted : ∀ (sizes : List Nat) (a : Nat),
      (sizes.mapIdx fun i size ↦ List.range' (a + blockStart sizes i) size).flatten =
        List.range' a sizes.sum := by
    intro sizes
    induction sizes with
    | nil => simp
    | cons size sizes ih =>
      intro a
      have rest := ih (a + size)
      simp only [blockStart] at rest ⊢
      rw [List.mapIdx_cons, List.flatten_cons, List.sum_cons, ← List.range'_append_1, ← rest]
      simp only [List.take_zero, List.sum_nil, Nat.add_zero, List.take_succ_cons, List.sum_cons,
        Nat.add_assoc]
  have zero := shifted sizes 0
  simp only [Nat.zero_add] at zero
  rw [zero, List.range_eq_range']

theorem blockStart_succ {sizes : List Nat} {i size : Nat} (h : sizes[i]? = some size) :
    blockStart sizes (i + 1) = blockStart sizes i + size := by
  rw [blockStart, blockStart, List.take_add_one, h, List.sum_append]
  simp

theorem getInfo_natCast (infos : List RoleInstanceInfo) (idx : Nat) :
    getInfo infos idx = infos[idx]? := by
  simp [getInfo]

/-- The sums over the first `k` infos. -/
theorem foldlM_addSizes (infos : List RoleInstanceInfo) (roleIdx k : Nat)
    (le : k ≤ infos.length) :
    ((List.range k).map fun i : Nat ↦ (0 : Int) + i).foldlM (addSizes infos roleIdx) (0, 0) =
      some (blockStart (infos.map RoleInstanceInfo.localWorldSize) (min k roleIdx),
        blockStart (infos.map RoleInstanceInfo.localWorldSize) k) := by
  induction k with
  | zero => simp [blockStart]
  | succ k ih =>
    have info : infos[k]? = some infos[k] := List.getElem?_eq_getElem (by omega)
    have size : (infos.map RoleInstanceInfo.localWorldSize)[k]? =
        some infos[k].localWorldSize := by
      rw [List.getElem?_map, info]
      rfl
    rw [List.range_succ, List.map_append, List.foldlM_append, ih (by omega)]
    simp only [List.map_cons, List.map_nil, List.foldlM_cons, List.foldlM_nil, Int.zero_add,
      Option.bind_eq_bind, Option.bind_some, addSizes, getInfo_natCast, info, Option.pure_def]
    by_cases below : k < roleIdx
    · have gt : (roleIdx : Int) > k := by omega
      have min_k : min k roleIdx = k := by omega
      have min_succ : min (k + 1) roleIdx = k + 1 := by omega
      rw [if_pos gt, min_k, min_succ, blockStart_succ size]
    · have gt : ¬(roleIdx : Int) > k := by omega
      have min_eq : min (k + 1) roleIdx = min k roleIdx := by omega
      rw [if_neg gt, min_eq, blockStart_succ size]

/-- The ranks of the info at `roleIdx` among all infos. -/
theorem getRanks_all {infos : List RoleInstanceInfo} {roleIdx : Nat} {info : RoleInstanceInfo}
    (h : infos[roleIdx]? = some info) {endIdx : Int}
    (whole : endIdx = -1 ∨ endIdx = infos.length) :
    getRanks infos roleIdx 0 endIdx =
      some ((infos.map RoleInstanceInfo.localWorldSize).sum,
        List.range' (blockStart (infos.map RoleInstanceInfo.localWorldSize) roleIdx)
          info.localWorldSize) := by
  have lt : roleIdx < infos.length := (List.getElem?_eq_some_iff.mp h).1
  have all : (if endIdx = -1 then (infos.length : Int) else endIdx) - 0 = infos.length := by
    rcases whole with rfl | rfl
    · simp
    · rw [if_neg (by omega)]
      simp
  have min_eq : min infos.length roleIdx = roleIdx := by omega
  have total : blockStart (infos.map RoleInstanceInfo.localWorldSize) infos.length =
      (infos.map RoleInstanceInfo.localWorldSize).sum := by
    rw [blockStart, List.take_of_length_le (by simp)]
  simp only [getRanks, all, Int.toNat_natCast, foldlM_addSizes infos roleIdx _ (le_refl _),
    min_eq, total, Option.bind_eq_bind, Option.bind_some, getInfo_natCast, h, Option.pure_def]

/-! ### The infos of a world -/

/-- The info of the `i`th node has rank `i`. -/
theorem roleInfos_getElem? (world : Dict Int Nat) (role : String) (i : Nat) :
    (roleInfos world role)[i]? = world.items[i]?.map fun e ↦ ⟨role, i, e.2⟩ := by
  rw [roleInfos, List.getElem?_map]
  cases h : world.items[i]? with
  | none => rfl
  | some e =>
    have lt : i < world.keys.length := by
      rw [Dict.keys, List.length_map]
      exact (List.getElem?_eq_some_iff.mp h).1
    have key : world.keys[i] = e.1 := by
      have key? : world.keys[i]? = some e.1 := by
        rw [Dict.keys, List.getElem?_map, h]
        rfl
      exact Option.some.inj ((List.getElem?_eq_getElem lt).symm.trans key?)
    have idx := world.keys_nodup.idxOf_getElem i lt
    rw [key] at idx
    simp only [Option.map_some, idx]

theorem roleInfos_sizes (world : Dict Int Nat) (role : String) :
    (roleInfos world role).map RoleInstanceInfo.localWorldSize = world.values := by
  rw [roleInfos, List.map_map]
  rfl

/-- The infos already stand in torch's order. -/
theorem roleInfos_sorted (ops : RoleInstanceOps) (world : Dict Int Nat) (role : String) :
    (roleInfos world role).insertionSort (fun a b ↦ ¬ops.compare b a < 0) =
      roleInfos world role := by
  apply List.Pairwise.insertionSort_eq
  rw [List.pairwise_iff_getElem]
  intro i j hi hj lt
  have infoI := roleInfos_getElem? world role i
  have infoJ := roleInfos_getElem? world role j
  rw [List.getElem?_eq_getElem hi] at infoI
  rw [List.getElem?_eq_getElem hj] at infoJ
  rcases Option.map_eq_some_iff.mp infoI.symm with ⟨e, -, eqI⟩
  rcases Option.map_eq_some_iff.mp infoJ.symm with ⟨f, -, eqJ⟩
  rw [ops.compare_lt, ← eqI, ← eqJ]
  rintro (less | ⟨-, less⟩)
  · exact lt_irrefl _ less
  · simp only at less
    omega

/-- In a world with nodes of one role, the role is everywhere. -/
theorem roleInfos_boundaries (ops : RoleInstanceOps) (world : Dict Int Nat) (role : String)
    (nonempty : 0 < world.items.length) :
    ops.findRoleBoundaries (roleInfos world role) role =
      ((0 : Int), ((world.items.length - 1 : Nat) : Int)) := by
  have at_index : ∀ i < world.items.length,
      ∃ info, (roleInfos world role)[i]? = some info ∧ info.role = role := by
    intro i hi
    rw [roleInfos_getElem?, List.getElem?_eq_getElem hi]
    exact ⟨_, rfl, rfl⟩
  apply ops.boundaries _ _ 0 _ (at_index _ nonempty) (at_index _ (by omega))
  intro idx info found _
  have lt := (List.getElem?_eq_some_iff.mp found).1
  rw [roleInfos, List.length_map] at lt
  omega

theorem roleInfos_findIdx? (ops : RoleInstanceOps) (world : Dict Int Nat) (role : String)
    {i : Nat} {info : RoleInstanceInfo} (h : (roleInfos world role)[i]? = some info) :
    (roleInfos world role).findIdx? (fun info' ↦ ops.compare info' info = 0) = some i := by
  have rank : ∀ j info', (roleInfos world role)[j]? = some info' →
      (ops.compare info' info = 0 ↔ j = i) := by
    intro j info' h'
    rw [roleInfos_getElem?] at h h'
    rcases Option.map_eq_some_iff.mp h with ⟨e, -, rfl⟩
    rcases Option.map_eq_some_iff.mp h' with ⟨f, -, rfl⟩
    rw [ops.compare_eq]
    simp
  rw [List.findIdx?_eq_some_iff_getElem]
  rcases List.getElem?_eq_some_iff.mp h with ⟨lt, eq⟩
  refine ⟨lt, by simpa using (rank i _ (List.getElem?_eq_getElem lt)).mpr rfl, ?_⟩
  intro j hj
  have lt' : j < (roleInfos world role).length := by omega
  have ne := (rank j _ (List.getElem?_eq_getElem lt')).not.mpr (by omega)
  simpa using ne

/-- The workers of the `i`th node of a world: their global ranks are the `i`th block. -/
def blockWorkers (sizes : List Nat) (i size : Nat) : List Worker :=
  (List.range size).map fun ind ↦
    ⟨ind, blockStart sizes i + ind, blockStart sizes i + ind, sizes.sum, sizes.sum⟩

theorem assignWorkerRanks_eq (ops : RoleInstanceOps) {world : Dict Int Nat} {i : Nat}
    {nodeId : Int} {size : Nat} (h : world.items[i]? = some (nodeId, size)) (role : String) :
    assignWorkerRanks ops nodeId world role size = some (blockWorkers world.values i size) := by
  rcases List.getElem?_eq_some_iff.mp h with ⟨lt, eq⟩
  have mem : nodeId ∈ world := by
    apply Dict.mem_iff.mpr ⟨size, ?_⟩
    rw [← eq]
    exact List.getElem_mem lt
  have idx : world.keys.idxOf nodeId = i := by
    have lt' : i < world.keys.length := by rw [Dict.keys, List.length_map]; exact lt
    have key : world.keys[i] = nodeId := by simp [Dict.keys, eq]
    rw [← key]
    exact world.keys_nodup.idxOf_getElem i lt'
  have info : (roleInfos world role)[i]? = some ⟨role, i, size⟩ := by
    rw [roleInfos_getElem?, h]
    rfl
  have length : ((world.items.length - 1 : Nat) : Int) + 1 = (roleInfos world role).length := by
    rw [roleInfos, List.length_map]
    omega
  have ranks := getRanks_all info (.inl rfl)
  have roleRanks := getRanks_all info (.inr length)
  rw [roleInfos_sizes] at ranks roleRanks
  simp only [assignWorkerRanks, guard, if_pos mem, idx, info, ranks, roleInfos_sorted,
    Option.bind_eq_bind, Option.pure_def, Option.bind_some,
    roleInfos_boundaries ops world role (by omega), roleInfos_findIdx? ops world role info,
    roleRanks]
  apply mapM_eq_map
  intro ind hind
  have lt := List.mem_range.mp hind
  have rank : (List.range' (blockStart world.values i) size)[ind]? =
      some (blockStart world.values i + ind) := by
    rw [List.getElem?_range' lt, Nat.one_mul]
  simp only [rank, Option.bind_some]

/-! ### All agents of a world -/

/-- The global ranks that the agent of a node assigns. -/
def globalRanks (ops : RoleInstanceOps) (nodeId : Int) (world : Dict Int Nat) (role : String)
    (localWorldSize : Nat) : List Nat :=
  ((assignWorkerRanks ops nodeId world role localWorldSize).getD []).map Worker.globalRank

theorem globalRanks_eq (ops : RoleInstanceOps) {world : Dict Int Nat} {i : Nat} {nodeId : Int}
    {size : Nat} (h : world.items[i]? = some (nodeId, size)) (role : String) :
    globalRanks ops nodeId world role size = List.range' (blockStart world.values i) size := by
  rw [globalRanks, assignWorkerRanks_eq ops h role, Option.getD_some, blockWorkers, List.map_map,
    List.range'_eq_map_range]
  rfl

/-- The agents of a world number all its workers, each once. -/
theorem globalRanks_flatten (ops : RoleInstanceOps) (world : Dict Int Nat) (role : Int → String) :
    (world.items.map fun e ↦ globalRanks ops e.1 world (role e.1) e.2).flatten =
      List.range world.values.sum := by
  rw [← flatten_blocks world.values]
  congr 1
  apply List.ext_getElem
  · simp [Dict.values]
  · intro i hi hi'
    rw [List.length_map] at hi
    have item : world.items[i]? = some (world.items[i].1, world.items[i].2) :=
      List.getElem?_eq_getElem hi
    rw [List.getElem_map, List.getElem_mapIdx, globalRanks_eq ops item]
    simp [Dict.values]

/-! ### An instance of torch's order -/

/-- The first and the last index of a role, `-1` where there is none. -/
def roleBoundaries (infos : List RoleInstanceInfo) (role : String) : Int × Int :=
  (match infos.findIdx? fun info ↦ info.role = role with
    | some first => (first : Int)
    | none => -1,
  match infos.reverse.findIdx? fun info ↦ info.role = role with
    | some back => (infos.length : Int) - 1 - back
    | none => -1)

theorem roleBoundaries_eq {infos : List RoleInstanceInfo} {role : String} {first last : Nat}
    (hfirst : ∃ info, infos[first]? = some info ∧ info.role = role)
    (hlast : ∃ info, infos[last]? = some info ∧ info.role = role)
    (only : ∀ idx info, infos[idx]? = some info → info.role = role → first ≤ idx ∧ idx ≤ last) :
    roleBoundaries infos role = ((first : Int), (last : Int)) := by
  rcases hfirst with ⟨info, found, same⟩
  rcases hlast with ⟨info', found', same'⟩
  have lt := (List.getElem?_eq_some_iff.mp found).1
  have lt' := (List.getElem?_eq_some_iff.mp found').1
  have front : infos.findIdx? (fun info ↦ info.role = role) = some first := by
    rw [List.findIdx?_eq_some_iff_getElem]
    refine ⟨lt, ?_, ?_⟩
    · rw [(List.getElem?_eq_some_iff.mp found).2]
      simpa using same
    · intro j hj isRole
      have le := (only j _ (List.getElem?_eq_getElem (by omega)) (by simpa using isRole)).1
      omega
  have back : infos.reverse.findIdx? (fun info ↦ info.role = role) =
      some (infos.length - 1 - last) := by
    rw [List.findIdx?_eq_some_iff_getElem]
    refine ⟨by rw [List.length_reverse]; omega, ?_, ?_⟩
    · have idx : infos.length - 1 - (infos.length - 1 - last) = last := by omega
      simp only [List.getElem_reverse, idx]
      rw [(List.getElem?_eq_some_iff.mp found').2]
      simpa using same'
    · intro j hj isRole
      rw [List.getElem_reverse] at isRole
      have le := (only (infos.length - 1 - j) _ (List.getElem?_eq_getElem (by omega))
        (by simpa using isRole)).2
      omega
  simp only [roleBoundaries, front, back, Prod.mk.injEq, true_and]
  omega

/-- Infos by role and then by rank. -/
def compareInfos (a b : RoleInstanceInfo) : Int :=
  if a.role = b.role then (a.rank : Int) - b.rank
  else if b.role < a.role then 1
  else -1

def torchOps : RoleInstanceOps where
  compare := compareInfos
  findRoleBoundaries := roleBoundaries
  compare_lt := by
    intro a b
    unfold compareInfos
    by_cases same : a.role = b.role
    · simp only [same, if_true, true_and, lt_irrefl, false_or]
      omega
    · rcases lt_or_gt_of_ne same with lt | gt
      · simp [same, lt, not_lt_of_gt lt]
      · simp [same, gt, not_lt_of_gt gt]
  compare_eq := by
    intro a b
    unfold compareInfos
    by_cases same : a.role = b.role
    · simp only [same, if_true, true_and]
      omega
    · by_cases lt : b.role < a.role <;> simp [same, lt]
  boundaries := by
    intro infos role first last hfirst hlast only
    exact roleBoundaries_eq hfirst hlast only

end ProbingBaselines.Dlrover
