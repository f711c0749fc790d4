import Mathlib.Data.List.Sort
import Mathlib.Data.List.Nodup
import ProbingBaselines.Dlrover.Node
import ProbingBaselines.Dlrover.PodScaler

/-!
# Scaling a group of pods

`PodScaler._scale` (`master/scaler/pod_scaler.py:282-501`) brings the number of pods of a type,
those listed and those in the queue for creation, to the count of a plan. New ids go on from the
listed pods alone and new ranks from the number of pods; a group that shrinks loses its queued nodes
first, and is then deleted from by id, from a list that still has the queued nodes in it.
-/

namespace ProbingBaselines.Dlrover.GroupScaling

open Lib JobManager

/-- A node as the scaler makes it, for a pod that is listed or for one that is to be created. The
ids and ranks of a pod are read from its labels. -/
structure Node (Res : Type) where
  type : NodeType
  id : Int
  configResource : Res
  name : String
  status : NodeStatus
  rankIndex : Int
  serviceAddr : Option String

/-- `NodeGroupResource`. -/
structure NodeGroupResource (Res : Type) where
  count : Nat
  nodeResource : Res

/-- The job of the scaler, its pods in the cluster and its queue. -/
structure Scaler (Res : Type) where
  jobName : String
  namespaceName : String
  pods : List (Node Res)
  createNodeQueue : List (Node Res)
  /-- A pod's name is its own. -/
  names_nodup : (pods.map Node.name).Nodup

variable {Res : Type}

/-- The text of a node type in names and labels. -/
def typeName : NodeType → String
  | .worker => "worker"
  | .ps => "ps"
  | .evaluator => "evaluator"
  | .chief => "chief"
  | .master => "master"

/-- `get_pod_name` (`scheduler/kubernetes.py:65-66`). -/
def getPodName (jobName : String) (type : NodeType) (nodeId : Int) : String :=
  jobName ++ "-edljob-" ++ typeName type ++ "-" ++ toString nodeId

/-- `NODE_SERVICE_PORTS`. -/
def nodeServicePort : NodeType → Nat
  | .ps => 2222
  | _ => 3333

/-- The phases of a pod that counts. -/
def Normal (n : Node Res) : Prop := n.status ∈ [NodeStatus.pending, .running, .succeeded]

instance (n : Node Res) : Decidable (Normal n) := inferInstanceAs (Decidable (_ ∈ _))

namespace Scaler

/-- `_list_job_pods`: all workers, and the other pods that are pending or running. -/
def listJobPods (s : Scaler Res) : List (Node Res) :=
  s.pods.filter fun n ↦ n.type = .worker ∨ n.status ∈ [NodeStatus.pending, .running]

def typePods (s : Scaler Res) (type : NodeType) : List (Node Res) :=
  s.listJobPods.filter fun n ↦ n.type = type

/-- `normal_pods` of a type. -/
def normalPods (s : Scaler Res) (type : NodeType) : List (Node Res) :=
  (s.typePods type).filter fun n ↦ Normal n

/-- `_get_type_pod_in_queue`. -/
def getTypePodInQueue (s : Scaler Res) (type : NodeType) : List (Node Res) :=
  s.createNodeQueue.filter fun n ↦ n.type = type

/-- `_get_max_pod_id`. -/
def getMaxPodId (pods : List (Node Res)) : Int := pods.foldl (fun maxId pod ↦ max pod.id maxId) (-1)

/-- `get_node_service_addr`. -/
def getNodeServiceAddr (s : Scaler Res) (type : NodeType) (id : Int) : String :=
  getPodName s.jobName type id ++ "." ++ s.namespaceName ++ ".svc:" ++
    toString (nodeServicePort type)

/-- `delete_pod`; a name without a pod is left alone. -/
def deletePod (s : Scaler Res) (name : String) : Scaler Res :=
  { s with
    pods := s.pods.filter fun n ↦ n.name ≠ name
    names_nodup := (List.filter_sublist.map _).nodup s.names_nodup }

/-- One of the new nodes of `_scale_up_pods`. -/
def newNode (s : Scaler Res) (type : NodeType) (resource : Res) (nodeId taskId : Int) :
    Node Res where
  type := type
  id := nodeId
  configResource := resource
  name := getPodName s.jobName type nodeId
  status := .initial
  rankIndex := taskId
  serviceAddr := some (s.getNodeServiceAddr type taskId)

/-- `_scale_up_pods`. -/
def scaleUpPods (s : Scaler Res) (type : NodeType) (groupResource : NodeGroupResource Res)
    (curPods : List (Node Res)) (maxPodId : Int) : Scaler Res :=
  let curNum := curPods.length
  let upNum := groupResource.count - curNum
  { s with createNodeQueue := s.createNodeQueue ++ (List.range upNum).map fun i : Nat ↦
      s.newNode type groupResource.nodeResource (maxPodId + 1 + i) (curNum + i) }

/-- The queue, its end first, without its next `down` nodes of the type. -/
def popTyped (type : NodeType) : Nat → List (Node Res) → List (Node Res)
  | _, [] => []
  | 0, queue => queue
  | down + 1, n :: queue =>
    if n.type = type then popTyped type down queue else n :: popTyped type (down + 1) queue

/-- `_scale_down_pods`: the nodes in the queue first, the last one before the others, then the pods
and the nodes that were in the queue, by id. -/
def scaleDownPods (s : Scaler Res) (type : NodeType) (groupResource : NodeGroupResource Res)
    (curPods : List (Node Res)) : Scaler Res :=
  let downNum := curPods.length - groupResource.count
  let notCreatedPods := s.getTypePodInQueue type
  let s := { s with createNodeQueue := (popTyped type downNum s.createNodeQueue.reverse).reverse }
  let downNum := downNum - notCreatedPods.length
  let sorted := curPods.insertionSort fun a b ↦ b.id ≤ a.id
  (sorted.take downNum).foldl (fun s pod ↦ s.deletePod pod.name) s

/-- What a plan does to one type. -/
def scaleGroup (jobPods : List (Node Res)) (s : Scaler Res)
    (group : NodeType × NodeGroupResource Res) : Scaler Res :=
  let typePods := jobPods.filter fun n ↦ n.type = group.1
  let maxPodId := getMaxPodId typePods
  let normalPods := typePods.filter fun n ↦ Normal n
  let curPods := normalPods ++ s.getTypePodInQueue group.1
  if curPods.length < group.2.count then s.scaleUpPods group.1 group.2 curPods maxPodId
  else if group.2.count < curPods.length then s.scaleDownPods group.1 group.2 curPods
  else s

/-- One node of `_remove_nodes`: it is taken from the queue, or its pod is deleted. -/
def removeNode (s : Scaler Res) (node : Node Res) : Scaler Res :=
  let queued := s.createNodeQueue.findIdx? fun pod ↦
    node.name = getPodName s.jobName pod.type pod.id
  match queued with
  | some i => { s with createNodeQueue := s.createNodeQueue.eraseIdx i }
  | none => if node.name ≠ "" then s.deletePod node.name else s

/-- `_scale` for a job that exists and is not suspended, the queue being the one that the wait for
the creation of pods leaves. -/
def scale {Addr : Type} (s : Scaler Res)
    (plan : ScalePlan NodeType (NodeGroupResource Res) (Node Res) Addr) : Scaler Res :=
  let s := plan.removeNodes.foldl removeNode s
  if plan.empty then s
  else
    let jobPods := s.listJobPods
    let s := plan.nodeGroupResources.items.foldl (scaleGroup jobPods) s
    { s with createNodeQueue := s.createNodeQueue ++ plan.launchNodes }

/-! ### What the parts of a scaling do -/

variable {s : Scaler Res} {type : NodeType}

/-- The pods and the queued nodes of a type that count. -/
def curPods (s : Scaler Res) (type : NodeType) : List (Node Res) :=
  s.normalPods type ++ s.getTypePodInQueue type

theorem foldl_deletePod (s : Scaler Res) (nodes : List (Node Res)) :
    (nodes.foldl (fun s pod ↦ s.deletePod pod.name) s).pods =
        s.pods.filter (fun n ↦ n.name ∉ nodes.map Node.name) ∧
      (nodes.foldl (fun s pod ↦ s.deletePod pod.name) s).createNodeQueue = s.createNodeQueue := by
  induction nodes generalizing s with
  | nil => exact ⟨(List.filter_eq_self.mpr fun n _ ↦ by simp).symm, rfl⟩
  | cons node nodes ih =>
    rcases ih (s.deletePod node.name) with ⟨pods, queue⟩
    rw [List.foldl_cons, pods, queue]
    refine ⟨?_, rfl⟩
    simp only [deletePod, List.filter_filter]
    apply List.filter_congr
    intro n _
    rw [← Bool.decide_and, decide_eq_decide, List.map_cons, List.mem_cons, not_or, and_comm]

/-- Deleting pods by name takes them from the normal pods of a type. -/
theorem normalPods_foldl_deletePod (s : Scaler Res) (nodes : List (Node Res)) (type : NodeType) :
    (nodes.foldl (fun s pod ↦ s.deletePod pod.name) s).normalPods type =
      (s.normalPods type).filter fun n ↦ n.name ∉ nodes.map Node.name := by
  simp only [normalPods, typePods, listJobPods, (foldl_deletePod s nodes).1, List.filter_filter]
  apply List.filter_congr
  intro n _
  ac_rfl

theorem filter_popTyped (type : NodeType) (down : Nat) (queue : List (Node Res)) :
    (popTyped type down queue).filter (fun n ↦ n.type = type) =
      (queue.filter fun n ↦ n.type = type).drop down := by
  induction queue generalizing down with
  | nil =>
    rw [popTyped, List.filter_nil, List.drop_nil]
  | cons n queue ih =>
    cases down with
    | zero => rfl
    | succ down =>
      rw [popTyped]
      by_cases same : n.type = type
      · rw [if_pos same, ih, List.filter_cons, if_pos (decide_eq_true same), List.drop_succ_cons]
      · rw [if_neg same, List.filter_cons, List.filter_cons,
          if_neg (by rw [decide_eq_true_iff]; exact same),
          if_neg (by rw [decide_eq_true_iff]; exact same), ih]

/-- The last nodes of the type leave the queue. -/
theorem queue_popTyped (type : NodeType) (down : Nat) (queue : List (Node Res)) :
    (popTyped type down queue.reverse).reverse.filter (fun n ↦ n.type = type) =
      (queue.filter fun n ↦ n.type = type).take
        ((queue.filter fun n ↦ n.type = type).length - down) := by
  rw [List.filter_reverse, filter_popTyped, List.filter_reverse, List.drop_reverse,
    List.reverse_reverse]

theorem le_getMaxPodId {pods : List (Node Res)} {n : Node Res} (h : n ∈ pods) :
    n.id ≤ getMaxPodId pods := by
  have fold : ∀ (pods : List (Node Res)) (maxId : Int),
      maxId ≤ pods.foldl (fun maxId pod ↦ max pod.id maxId) maxId ∧
        ∀ n ∈ pods, n.id ≤ pods.foldl (fun maxId pod ↦ max pod.id maxId) maxId := by
    intro pods
    induction pods with
    | nil => exact fun maxId ↦ ⟨Int.le_refl _, fun n hn ↦ absurd hn List.not_mem_nil⟩
    | cons pod pods ih =>
      intro maxId
      rcases ih (max pod.id maxId) with ⟨grows, bounds⟩
      refine ⟨Int.le_trans (Int.le_max_right _ _) grows, fun n hn ↦ ?_⟩
      rcases List.mem_cons.mp hn with rfl | hn
      · exact Int.le_trans (Int.le_max_left _ _) grows
      · exact bounds n hn
  exact (fold pods (-1)).2 n h

/-- The nodes that are queued for a group that grows. -/
def newNodes (s : Scaler Res) (type : NodeType) (groupResource : NodeGroupResource Res) :
    List (Node Res) :=
  let curNum := (s.curPods type).length
  (List.range (groupResource.count - curNum)).map fun i : Nat ↦
    s.newNode type groupResource.nodeResource (getMaxPodId (s.typePods type) + 1 + i) (curNum + i)

/-- The nodes whose names are deleted from a group that shrinks below its pods. -/
def deletedNodes (s : Scaler Res) (type : NodeType) (count : Nat) : List (Node Res) :=
  ((s.curPods type).insertionSort fun a b ↦ b.id ≤ a.id).take
    ((s.normalPods type).length - count)

/-- A plan for one group. -/
def groupPlan {Addr : Type} (type : NodeType) (groupResource : NodeGroupResource Res) :
    ScalePlan NodeType (NodeGroupResource Res) (Node Res) Addr :=
  ⟨Dict.empty.insert type groupResource, [], [], []⟩

theorem scale_groupPlan {Addr : Type} (s : Scaler Res) (type : NodeType)
    (groupResource : NodeGroupResource Res) :
    s.scale (groupPlan type groupResource : ScalePlan _ _ _ Addr) =
      { scaleGroup s.listJobPods s (type, groupResource) with
        createNodeQueue :=
          (scaleGroup s.listJobPods s (type, groupResource)).createNodeQueue ++ [] } :=
  rfl

/-- A scaled group: with new nodes, or with fewer queued nodes and pods. -/
theorem curPods_scale (Addr : Type) (s : Scaler Res) (type : NodeType)
    (groupResource : NodeGroupResource Res) :
    (s.scale (groupPlan type groupResource : ScalePlan _ _ _ Addr)).curPods type =
      if (s.curPods type).length < groupResource.count then
        s.curPods type ++ s.newNodes type groupResource
      else
        (s.normalPods type).filter
            (fun n ↦ n.name ∉ (s.deletedNodes type groupResource.count).map Node.name) ++
          (s.getTypePodInQueue type).take
            (groupResource.count - (s.normalPods type).length) := by
  have length : (s.curPods type).length =
      (s.normalPods type).length + (s.getTypePodInQueue type).length := List.length_append
  rw [scale_groupPlan]
  have group : scaleGroup s.listJobPods s (type, groupResource) =
      if (s.curPods type).length < groupResource.count then
        s.scaleUpPods type groupResource (s.curPods type) (getMaxPodId (s.typePods type))
      else if groupResource.count < (s.curPods type).length then
        s.scaleDownPods type groupResource (s.curPods type)
      else s := rfl
  rw [group]
  split
  · -- only the queue grows
    have typed : (s.newNodes type groupResource).filter (fun n ↦ n.type = type) =
        s.newNodes type groupResource := by
      rw [List.filter_eq_self]
      intro n hn
      rcases List.mem_map.mp hn with ⟨i, -, rfl⟩
      exact decide_eq_true rfl
    have queue : ∀ queue : List (Node Res),
        (queue ++ s.newNodes type groupResource ++ []).filter (fun n ↦ n.type = type) =
          queue.filter (fun n ↦ n.type = type) ++ s.newNodes type groupResource := by
      intro queue
      rw [List.append_nil, List.filter_append, typed]
    rw [curPods, curPods, List.append_assoc]
    exact congrArg _ (queue s.createNodeQueue)
  · next enough =>
    split
    · next more =>
      have down : (s.curPods type).length - groupResource.count -
          (s.getTypePodInQueue type).length =
          (s.normalPods type).length - groupResource.count := by omega
      have left : (s.getTypePodInQueue type).length -
          ((s.curPods type).length - groupResource.count) =
          groupResource.count - (s.normalPods type).length := by omega
      let popped : Scaler Res :=
        { s with createNodeQueue :=
            (popTyped type ((s.curPods type).length - groupResource.count)
              s.createNodeQueue.reverse).reverse }
      have scaled : s.scaleDownPods type groupResource (s.curPods type) =
          (s.deletedNodes type groupResource.count).foldl (fun s pod ↦ s.deletePod pod.name)
            popped := by
        rw [deletedNodes, ← down]
        rfl
      have queue := queue_popTyped type ((s.curPods type).length - groupResource.count)
        s.createNodeQueue
      rw [scaled, curPods, List.append_nil, normalPods_foldl_deletePod, getTypePodInQueue,
        (foldl_deletePod popped _).2]
      rw [← left]
      exact congrArg _ queue
    · next same =>
      have none : (s.normalPods type).length - groupResource.count = 0 := by omega
      have all : groupResource.count - (s.normalPods type).length =
          (s.getTypePodInQueue type).length := by omega
      rw [deletedNodes, none, List.take_zero, all, List.take_length]
      have kept : (s.normalPods type).filter
          (fun n ↦ n.name ∉ ([] : List (Node Res)).map Node.name) = s.normalPods type :=
        List.filter_eq_self.mpr fun n _ ↦ decide_eq_true List.not_mem_nil
      rw [kept, curPods, List.append_nil]

end Scaler

/-! ### When a group meets its target -/

/-- The ids, and the ranks, are distinct. -/
def Distinct (nodes : List (Node Res)) : Prop :=
  (nodes.map Node.id).Nodup ∧ (nodes.map Node.rankIndex).Nodup

instance (nodes : List (Node Res)) : Decidable (Distinct nodes) :=
  inferInstanceAs (Decidable (_ ∧ _))

/-- Numbers from `first` on are new to a list that has none of them. -/
theorem nodup_append_range {l : List Int} (first : Int) (num : Nat) :
    (l ++ (List.range num).map fun i : Nat ↦ first + i).Nodup ↔
      l.Nodup ∧ ∀ x ∈ l, x < first ∨ first + num ≤ x := by
  have range : ((List.range num).map fun i : Nat ↦ first + i).Nodup := by
    refine List.nodup_range.map fun i j eq ↦ ?_
    have same : first + (i : Int) = first + j := eq
    omega
  rw [List.nodup_append, and_iff_right range]
  refine and_congr_right fun _ ↦ forall₂_congr fun x _ ↦ ?_
  simp only [List.mem_map, List.mem_range]
  constructor
  · intro apart
    by_contra inside
    refine apart x ⟨(x - first).toNat, by omega, by omega⟩ rfl
  · rintro outside y ⟨i, lt, rfl⟩ rfl
    omega

/-- The names of some of the nodes are all different and those of nodes just when as many nodes are
left as there are other nodes. -/
theorem length_filter_not_mem {nodes : List (Node Res)} (names : (nodes.map Node.name).Nodup)
    (gone : List String) :
    (nodes.filter fun n ↦ n.name ∉ gone).length + gone.length = nodes.length ↔
      gone.Nodup ∧ ∀ name ∈ gone, name ∈ nodes.map Node.name := by
  -- the names that are both in the list and gone
  let hit := (nodes.map Node.name).filter fun name ↦ name ∈ gone
  have length : (nodes.filter fun n ↦ n.name ∉ gone).length + hit.length = nodes.length := by
    have split_nodes := nodes.length_eq_length_filter_add fun n : Node Res ↦ decide (n.name ∈ gone)
    have eq : hit.length = (nodes.filter fun n ↦ decide (n.name ∈ gone)).length := by
      rw [show hit = ((nodes.map Node.name).filter fun name ↦ decide (name ∈ gone)) from rfl,
        List.filter_map, List.length_map]
      rfl
    simp only [← decide_not] at split_nodes
    omega
  have nodup : hit.Nodup := names.filter _
  have part : hit.Subperm gone := List.subperm_of_subset nodup fun name h ↦
    of_decide_eq_true (List.mem_filter.mp h).2
  have count : (nodes.filter fun n ↦ n.name ∉ gone).length + gone.length = nodes.length ↔
      gone.length ≤ hit.length := by
    have le := part.length_le
    omega
  rw [count]
  constructor
  · intro le
    have perm : hit.Perm gone := part.perm_of_length_le le
    refine ⟨perm.nodup_iff.mp nodup, fun name h ↦ ?_⟩
    exact (List.mem_filter.mp (perm.mem_iff.mpr h)).1
  · rintro ⟨distinct, known⟩
    refine (List.subperm_of_subset distinct fun name h ↦ ?_).length_le
    exact List.mem_filter.mpr ⟨known name h, decide_eq_true h⟩

namespace Scaler

variable {s : Scaler Res} {type : NodeType} {count : Nat}

/-- As many pods and queued nodes count as there should be, without a clash of ids or ranks. -/
structure MeetsTarget (s : Scaler Res) (type : NodeType) (count : Nat) : Prop where
  count : (s.curPods type).length = count
  distinct : Distinct (s.curPods type)

/-- A group that grows has no clash, no queued node has one of the ids after those of the pods, and
none has one of the ranks that are missing. One that keeps all its pods has no clash without the
last queued nodes. One that shrinks below its pods has pods to the largest ids, of those and of the
queued nodes together, and the other pods do not clash. -/
structure CanMeet (s : Scaler Res) (type : NodeType) (count : Nat) : Prop where
  grows : (s.curPods type).length < count →
    Distinct (s.curPods type) ∧
      (∀ n ∈ s.getTypePodInQueue type, n.id ≤ getMaxPodId (s.typePods type) ∨
        getMaxPodId (s.typePods type) + (count - (s.curPods type).length) < n.id) ∧
      ∀ n ∈ s.curPods type, n.rankIndex < (s.curPods type).length ∨ count ≤ n.rankIndex
  keeps : count ≤ (s.curPods type).length → (s.normalPods type).length ≤ count →
    Distinct (s.normalPods type ++
      (s.getTypePodInQueue type).take (count - (s.normalPods type).length))
  shrinks : count < (s.normalPods type).length →
    ((s.deletedNodes type count).map Node.name).Nodup ∧
      (∀ n ∈ s.deletedNodes type count, n.name ∈ (s.normalPods type).map Node.name) ∧
      Distinct ((s.normalPods type).filter fun n ↦
        n.name ∉ (s.deletedNodes type count).map Node.name)

theorem names_normalPods (s : Scaler Res) (type : NodeType) :
    ((s.normalPods type).map Node.name).Nodup :=
  (((List.filter_sublist.trans List.filter_sublist).trans List.filter_sublist).map _).nodup
    s.names_nodup

theorem length_deletedNodes (s : Scaler Res) (type : NodeType) (count : Nat) :
    (s.deletedNodes type count).length = (s.normalPods type).length - count := by
  rw [deletedNodes, List.length_take, List.length_insertionSort, curPods, List.length_append]
  omega

theorem distinct_grown (s : Scaler Res) (type : NodeType) (groupResource : NodeGroupResource Res)
    (grows : (s.curPods type).length < groupResource.count) :
    Distinct (s.curPods type ++ s.newNodes type groupResource) ↔
      Distinct (s.curPods type) ∧
        (∀ n ∈ s.getTypePodInQueue type, n.id ≤ getMaxPodId (s.typePods type) ∨
          getMaxPodId (s.typePods type) + (groupResource.count - (s.curPods type).length) < n.id) ∧
        ∀ n ∈ s.curPods type, n.rankIndex < (s.curPods type).length ∨
          groupResource.count ≤ n.rankIndex := by
  have ids : (s.newNodes type groupResource).map Node.id =
      (List.range (groupResource.count - (s.curPods type).length)).map fun i : Nat ↦
        getMaxPodId (s.typePods type) + 1 + i := by
    rw [newNodes, List.map_map]
    rfl
  have ranks : (s.newNodes type groupResource).map Node.rankIndex =
      (List.range (groupResource.count - (s.curPods type).length)).map fun i : Nat ↦
        ((s.curPods type).length : Int) + i := by
    rw [newNodes, List.map_map]
    rfl
  rw [Distinct, Distinct, List.map_append, List.map_append, ids, ranks, nodup_append_range,
    nodup_append_range]
  have listed : ∀ n ∈ s.normalPods type, n.id ≤ getMaxPodId (s.typePods type) := fun n hn ↦
    le_getMaxPodId (List.mem_filter.mp hn).1
  have first : (∀ x ∈ (s.curPods type).map Node.id, x < getMaxPodId (s.typePods type) + 1 ∨
        getMaxPodId (s.typePods type) + 1 +
          (groupResource.count - (s.curPods type).length : Nat) ≤ x) ↔
      ∀ n ∈ s.getTypePodInQueue type, n.id ≤ getMaxPodId (s.typePods type) ∨
        getMaxPodId (s.typePods type) + (groupResource.count - (s.curPods type).length) < n.id := by
    rw [List.forall_mem_map]
    constructor
    · intro h n hn
      have either := h n (List.mem_append_right _ hn)
      omega
    · intro h n hn
      rcases List.mem_append.mp hn with hn | hn
      · have le := listed n hn
        omega
      · have either := h n hn
        omega
  have last : (∀ x ∈ (s.curPods type).map Node.rankIndex, x < ((s.curPods type).length : Int) ∨
        ((s.curPods type).length : Int) +
          (groupResource.count - (s.curPods type).length : Nat) ≤ x) ↔
      ∀ n ∈ s.curPods type, n.rankIndex < (s.curPods type).length ∨
        groupResource.count ≤ n.rankIndex := by
    rw [List.forall_mem_map]
    refine forall₂_congr fun n _ ↦ ?_
    omega
  rw [first, last]
  exact ⟨fun h ↦ ⟨⟨h.1.1, h.2.1⟩, h.1.2, h.2.2⟩, fun h ↦ ⟨⟨h.1.1, h.2.1⟩, h.1.2, h.2.2⟩⟩

/-- The group meets its target just when it can. -/
theorem scale_meetsTarget_iff {Addr : Type} (s : Scaler Res) (type : NodeType)
    (groupResource : NodeGroupResource Res) :
    (s.scale (groupPlan type groupResource : ScalePlan _ _ _ Addr)).MeetsTarget type
        groupResource.count ↔ s.CanMeet type groupResource.count := by
  have length : (s.curPods type).length =
      (s.normalPods type).length + (s.getTypePodInQueue type).length := List.length_append
  have deleted : ((s.deletedNodes type groupResource.count).map Node.name).length =
      (s.normalPods type).length - groupResource.count := by
    rw [List.length_map, length_deletedNodes]
  have scaled := curPods_scale Addr s type groupResource
  by_cases grows : (s.curPods type).length < groupResource.count
  · rw [if_pos grows] at scaled
    have new : (s.newNodes type groupResource).length =
        groupResource.count - (s.curPods type).length := by
      rw [newNodes, List.length_map, List.length_range]
    constructor
    · rintro ⟨-, distinct⟩
      rw [scaled, s.distinct_grown type groupResource grows] at distinct
      exact ⟨fun _ ↦ distinct, fun le ↦ absurd grows (Nat.not_lt.mpr le), fun lt ↦ by omega⟩
    · intro h
      constructor
      · rw [scaled, List.length_append, new]
        omega
      · rw [scaled, s.distinct_grown type groupResource grows]
        exact h.grows grows
  · rw [if_neg grows] at scaled
    by_cases keeps : (s.normalPods type).length ≤ groupResource.count
    · have none : s.deletedNodes type groupResource.count = [] := by
        rw [deletedNodes, Nat.sub_eq_zero_of_le keeps, List.take_zero]
      have all : (s.normalPods type).filter
          (fun n ↦ n.name ∉ ([] : List (Node Res)).map Node.name) = s.normalPods type :=
        List.filter_eq_self.mpr fun n _ ↦ decide_eq_true List.not_mem_nil
      rw [none, all] at scaled
      constructor
      · rintro ⟨-, distinct⟩
        rw [scaled] at distinct
        exact ⟨fun lt ↦ absurd lt grows, fun _ _ ↦ distinct, fun lt ↦ absurd keeps (by omega)⟩
      · intro h
        constructor
        · rw [scaled, List.length_append, List.length_take]
          omega
        · rw [scaled]
          exact h.keeps (Nat.not_lt.mp grows) keeps
    · have emptied : groupResource.count - (s.normalPods type).length = 0 := by omega
      rw [emptied, List.take_zero, List.append_nil] at scaled
      have names := length_filter_not_mem (s.names_normalPods type)
        ((s.deletedNodes type groupResource.count).map Node.name)
      rw [deleted, List.forall_mem_map] at names
      constructor
      · rintro ⟨count, distinct⟩
        rw [scaled] at count distinct
        have gone := names.mp (by omega)
        exact ⟨fun lt ↦ absurd lt grows, fun _ le ↦ absurd le keeps,
          fun _ ↦ ⟨gone.1, gone.2, distinct⟩⟩
      · intro h
        rcases h.shrinks (Nat.not_le.mp keeps) with ⟨nodup, known, distinct⟩
        have left := names.mpr ⟨nodup, known⟩
        constructor
        · rw [scaled]
          omega
        · rw [scaled]
          exact distinct

/-- A worker with this id and rank. -/
def worker (id rankIndex : Int) (name : String) (status : NodeStatus) : Node Unit :=
  ⟨.worker, id, (), name, status, rankIndex, none⟩

/-- The worker of rank 1 has failed: the one that is missing gets rank 2, which is taken. And the
node that was queued is counted as deleted, where the pod should be. -/
theorem scale_misses :
    (∃ s : Scaler Unit, ¬ (s.scale (groupPlan .worker ⟨3, ()⟩ :
        ScalePlan _ _ _ Unit)).MeetsTarget .worker 3) ∧
      ∃ s : Scaler Unit, ¬ (s.scale (groupPlan .worker ⟨0, ()⟩ :
        ScalePlan _ _ _ Unit)).MeetsTarget .worker 0 := by
  constructor
  · refine ⟨⟨"job", "ns", [worker 0 0 "a" .running, worker 1 1 "b" .failed,
      worker 2 2 "c" .running], [], by decide⟩, fun meets ↦ ?_⟩
    have ranks := meets.distinct.2
    revert ranks
    decide
  · refine ⟨⟨"job", "ns", [worker 0 0 "a" .running], [worker 5 5 "f" .initial], by decide⟩,
      fun meets ↦ ?_⟩
    have count := meets.count
    revert count
    decide

end Scaler

end ProbingBaselines.Dlrover.GroupScaling
