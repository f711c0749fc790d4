import ProbingBaselines.Dlrover.RdzvManager
import ProbingBaselines.Lib.Run

/-!
# The training rendezvous

`ElasticTrainingRendezvousManager` (`rdzv_manager.py:497-579`) forms a world from the waiting nodes
when a member polls, orders it by access switch (`net_topology.py:56-82`) and hands it to every
later poll until the next join. The system below adds to the manager what its callers saw: the
answers given, the joins and removals with their rounds, the formed worlds, and the nodes that
have joined and were neither handed a world with them nor removed since.
-/

namespace ProbingBaselines.Dlrover

open Lib

/-! ### Ordering by access switch -/

/-- Every node stands under its own rank. -/
def Ranked (nodes : NodeMap) : Prop := ∀ e ∈ nodes.items, e.2.nodeRank = e.1

/-- `DpTopologySorter.sort`; `next(iter(...))` raises on an empty map. -/
def sortNodes (nodes : NodeMap) : Except RdzvError NodeMap :=
  match nodes.values with
  | [] => .error .stopIteration
  | rank0Node :: _ =>
    let aswNodes := Dict.groupBy NodeTopologyMeta.asw nodes.values
    let asw0Nodes := (aswNodes.get? rank0Node.asw).getD []
    let otherNodes := (aswNodes.erase rank0Node.asw).values.flatten
    .ok (Dict.ofItems ((asw0Nodes ++ otherNodes).map fun node ↦ (node.nodeRank, node)))

/-- Nodes of the first node's switch, then the other switches one after the other. -/
structure SwitchOrder (nodes : NodeMap) (world : NodeMap) : Prop where
  perm : world.items.Perm nodes.items
  contiguous : Contiguous NodeTopologyMeta.asw world.values
  first : ∃ rank0Node rest asw0Nodes otherNodes, nodes.values = rank0Node :: rest ∧
    world.values = asw0Nodes ++ otherNodes ∧ (∀ node ∈ asw0Nodes, node.asw = rank0Node.asw) ∧
    ∀ node ∈ otherNodes, node.asw ≠ rank0Node.asw

theorem items_of_ranked {nodes : NodeMap} (ranked : Ranked nodes) :
    nodes.items = nodes.values.map fun node ↦ (node.nodeRank, node) := by
  rw [Dict.values, List.map_map]
  have same : ∀ e ∈ nodes.items, ((fun node ↦ (node.nodeRank, node)) ∘ Prod.snd) e = e := by
    intro e he
    exact Prod.ext (ranked e he) rfl
  rw [List.map_congr_left same, List.map_id']

theorem sortNodes_spec {nodes world : NodeMap} (ranked : Ranked nodes)
    (h : sortNodes nodes = .ok world) : SwitchOrder nodes world ∧ Ranked world := by
  unfold sortNodes at h
  split at h
  · contradiction
  · next rank0Node rest hvalues =>
    cases h
    have groups := Dict.groupBy_spec NodeTopologyMeta.asw nodes.values
    generalize Dict.groupBy NodeTopologyMeta.asw nodes.values = aswNodes at groups
    have perm := (Dict.flatten_perm aswNodes rank0Node.asw).trans groups.1
    have uniform : ∀ node ∈ (aswNodes.get? rank0Node.asw).getD [], node.asw = rank0Node.asw := by
      intro node hnode
      cases found : aswNodes.get? rank0Node.asw with
      | none => simp [found] at hnode
      | some nodes =>
        rw [found] at hnode
        exact groups.2 _ (Dict.get?_eq_some_iff.mp found) node hnode
    have others : ∀ node ∈ (aswNodes.erase rank0Node.asw).values.flatten,
        node.asw ≠ rank0Node.asw := by
      intro node hnode
      rcases List.mem_flatten.mp hnode with ⟨nodes, hnodes, hnode⟩
      rcases List.mem_map.mp hnodes with ⟨e, he, rfl⟩
      rcases Dict.mem_items_erase.mp he with ⟨he, ne⟩
      rw [groups.2 e he node hnode]
      exact ne
    have contiguous : Contiguous NodeTopologyMeta.asw
        (aswNodes.erase rank0Node.asw).values.flatten :=
      Dict.contiguous_flatten fun e he ↦ groups.2 e (Dict.mem_items_erase.mp he).1
    generalize (aswNodes.get? rank0Node.asw).getD [] = asw0Nodes at *
    generalize (aswNodes.erase rank0Node.asw).values.flatten = otherNodes at *
    have items_perm : ((asw0Nodes ++ otherNodes).map fun node ↦ (node.nodeRank, node)).Perm
        nodes.items := by
      rw [items_of_ranked ranked]
      exact perm.map _
    have items := Dict.items_ofItems ((items_perm.map Prod.fst).nodup_iff.mpr nodes.nodup)
    have values : (Dict.ofItems ((asw0Nodes ++ otherNodes).map
        fun node ↦ (node.nodeRank, node))).values = asw0Nodes ++ otherNodes := by
      rw [Dict.values, items, List.map_map]
      exact List.map_id' _
    refine ⟨⟨?_, ?_, rank0Node, rest, asw0Nodes, otherNodes, hvalues, values, uniform, others⟩, ?_⟩
    · rw [items]
      exact items_perm
    · rw [values]
      exact .append uniform others contiguous
    · intro e he
      rw [items] at he
      rcases List.mem_map.mp he with ⟨node, -, rfl⟩
      rfl

theorem sortNodes_error {nodes : NodeMap} {e : RdzvError} (h : sortNodes nodes = .error e) :
    nodes.items = [] := by
  unfold sortNodes at h
  split at h
  · next hvalues => exact List.map_eq_nil_iff.mp hvalues
  · contradiction

/-! ### The manager's answer -/

structure CommWorld where
  round : Nat
  group : Nat
  world : NodeMap
  deriving DecidableEq

namespace RdzvManager

/-- `ElasticTrainingRendezvousManager.get_comm_world`; `rdzv_manager.py:517-570`. -/
def trainingCommWorld (s : RdzvManager) (env : Env) : Except RdzvError CommWorld × RdzvManager :=
  if s.rdzvNodes.items = [] then
    match s.checkRdzvCompleted env with
    | (.error e, s) => (.error e, s)
    | (.ok false, s) => (.ok ⟨s.rdzvRound, 0, s.rdzvNodes⟩, s)
    | (.ok true, s) =>
      let s := { s with rdzvRound := s.rdzvRound + 1 }
      match sortNodes s.rdzvNodes with
      | .error e => (.error e, s)
      | .ok nodes =>
        let s := { s with rdzvNodes := nodes }
        (.ok ⟨s.rdzvRound, 0, s.rdzvNodes⟩, s)
  else (.ok ⟨s.rdzvRound, 0, s.rdzvNodes⟩, s)

/-- The completion made by a poll, if it made one: the new round, the chosen nodes and their
order. -/
def completions (s : RdzvManager) (env : Env) : List (Nat × NodeMap × NodeMap) :=
  if s.rdzvNodes.items = [] then
    match s.checkRdzvCompleted env with
    | (.ok true, t) =>
      match sortNodes t.rdzvNodes with
      | .ok world => [(s.rdzvRound + 1, t.rdzvNodes, world)]
      | .error _ => []
    | _ => []
  else []

/-- No world is there and none is formed: only failed nodes leave. -/
structure Idle (s : RdzvManager) (env : Env) (answer : Except RdzvError CommWorld)
    (t : RdzvManager) : Prop where
  noWorld : t.rdzvNodes.items = []
  waiting : t.waitingNodes = (s.dropFailed env.failed).waitingNodes
  round : s.rdzvRound ≤ t.rdzvRound
  answer_eq : ∀ ans, answer = .ok ans →
    ans = ⟨t.rdzvRound, 0, t.rdzvNodes⟩ ∧ t.rdzvRound = s.rdzvRound
  raised : ∀ e, answer = .error e →
    (s.dropFailed env.failed).completedNum env.now = .error e ∨
    ∃ num, s.rdzvBlocked = false ∧
      (s.dropFailed env.failed).completedNum env.now = .ok (some num) ∧
      (s.dropFailed env.failed).chosen num = []
  none : s.completions env = []

/-- The manager after it has formed a world. -/
def formed (s : RdzvManager) (num : Int) (world : NodeMap) : RdzvManager :=
  { s.complete num with rdzvRound := s.rdzvRound + 1, rdzvNodes := world }

/-- What a poll does: it returns the world there is, or forms one, or finds nothing. -/
theorem trainingCommWorld_cases (s : RdzvManager) (env : Env) :
    (s.rdzvNodes.items ≠ [] ∧
      s.trainingCommWorld env = (.ok ⟨s.rdzvRound, 0, s.rdzvNodes⟩, s) ∧
      s.completions env = []) ∨
    (s.rdzvNodes.items = [] ∧ Idle s env (s.trainingCommWorld env).1 (s.trainingCommWorld env).2) ∨
    ∃ num world, s.rdzvNodes.items = [] ∧ s.rdzvBlocked = false ∧
      (s.dropFailed env.failed).completedNum env.now = .ok (some num) ∧
      sortNodes ((s.dropFailed env.failed).complete num).rdzvNodes = .ok world ∧
      s.trainingCommWorld env = (.ok ⟨s.rdzvRound + 1, 0, world⟩,
        (s.dropFailed env.failed).formed num world) ∧
      s.completions env =
        [(s.rdzvRound + 1, ((s.dropFailed env.failed).complete num).rdzvNodes, world)] := by
  by_cases there : s.rdzvNodes.items = []
  · rcases (s.dropFailed_drops env.failed).same with ⟨noWorld, round, -⟩
    have drop : (s.dropFailed env.failed).rdzvNodes.items = [] := by rw [noWorld, there]
    right
    rcases s.checkRdzvCompleted_cases env with eq | ⟨e, eq, error⟩ | ⟨num, blocked, completed, eq⟩
    · left
      have result : s.trainingCommWorld env =
          (.ok ⟨(s.dropFailed env.failed).rdzvRound, 0, (s.dropFailed env.failed).rdzvNodes⟩,
            s.dropFailed env.failed) := by
        rw [trainingCommWorld, if_pos there, eq]
      rw [result]
      refine ⟨there, drop, rfl, round.ge, fun _ h ↦ ⟨(Except.ok.inj h).symm, round⟩,
        fun _ h ↦ (by cases h), ?_⟩
      rw [completions, if_pos there, eq]
    · left
      have result : s.trainingCommWorld env = (.error e, s.dropFailed env.failed) := by
        rw [trainingCommWorld, if_pos there, eq]
      rw [result]
      refine ⟨there, drop, rfl, round.ge, fun _ h ↦ (by cases h),
        fun _ h ↦ .inl (Except.error.inj h ▸ error), ?_⟩
      rw [completions, if_pos there, eq]
    · cases sorted : sortNodes ((s.dropFailed env.failed).complete num).rdzvNodes with
      | error e =>
        -- the completion took no node at all
        left
        have none := sortNodes_error sorted
        have noCompletion : s.completions env = [] := by
          rw [completions, if_pos there, eq]
          simp only [sorted]
        have result : s.trainingCommWorld env = (.error e,
            { (s.dropFailed env.failed).complete num with
              rdzvRound := ((s.dropFailed env.failed).complete num).rdzvRound + 1 }) := by
          rw [trainingCommWorld, if_pos there, eq]
          simp only [sorted]
        have roundLe : s.rdzvRound ≤ ((s.dropFailed env.failed).complete num).rdzvRound + 1 := by
          rw [complete, round]
          omega
        have empty : (s.dropFailed env.failed).chosen num = [] := by
          rw [← complete_keys, Dict.keys, none]
          rfl
        rw [result]
        refine ⟨there, none, ?_, roundLe, fun _ h ↦ (by cases h),
          fun _ _ ↦ .inr ⟨num, blocked, completed, empty⟩, noCompletion⟩
        apply Dict.ext
        rw [complete_waiting_items, List.filter_eq_self]
        simp [empty]
      | ok world =>
        right
        have roundEq : ((s.dropFailed env.failed).complete num).rdzvRound = s.rdzvRound := round
        refine ⟨num, world, there, blocked, completed, sorted, ?_, ?_⟩
        · rw [trainingCommWorld, if_pos there, eq]
          simp only [sorted, formed, roundEq, round]
        · rw [completions, if_pos there, eq]
          simp only [sorted]
  · left
    exact ⟨there, by rw [trainingCommWorld, if_neg there], by rw [completions, if_neg there]⟩

/-- A poll leaves the parameters alone. -/
theorem trainingCommWorld_params (s : RdzvManager) (env : Env) :
    (s.trainingCommWorld env).2.rdzvParams = s.rdzvParams ∧
      (s.trainingCommWorld env).2.nodeUnit = s.nodeUnit := by
  rcases (s.dropFailed_drops env.failed).same with ⟨-, -, -, params, unit, -⟩
  unfold trainingCommWorld
  split
  · rcases s.checkRdzvCompleted_cases env with eq | ⟨e, eq, -⟩ | ⟨num, -, -, eq⟩
    · rw [eq]
      exact ⟨params, unit⟩
    · rw [eq]
      exact ⟨params, unit⟩
    · rw [eq]
      simp only
      split
      · exact ⟨params, unit⟩
      · exact ⟨params, unit⟩
  · exact ⟨rfl, rfl⟩

end RdzvManager

/-! ### The manager and its callers -/

/-- `pending` holds the rank and node id of each node that has joined and was neither handed a
world with it nor removed since; `answers` the asker and the answer of each poll that returned;
`formedWorlds` the round, the chosen nodes and their order at each completion. -/
structure TrainingSystem where
  manager : RdzvManager
  pending : List (Int × Int)
  answers : List (Int × CommWorld)
  formedWorlds : List (Nat × NodeMap × NodeMap)
  joined : List (Int × Nat)
  removed : List (Int × Nat)

inductive TrainingAct where
  | join (req : JoinRendezvousRequest) (env : Env)
  | getCommWorld (nodeRank : Int) (env : Env)
  | removeAliveNode (nodeId : Int)
  | clearWaitingNodes
  | updateRdzvParams (minNodes maxNodes : Int) (waitingTimeout : ℚ) (nodeUnit : Int)
  | setRdzvBlocked (blocked : Bool)

namespace TrainingSystem

def init : TrainingSystem := ⟨.init, [], [], [], [], []⟩

/-- A node id is `gone`; its nodes count as removed unless they still wait in `waitingNodes`. -/
def forget (s : TrainingSystem) (gone : Int → Bool) (waitingNodes : NodeMap) : TrainingSystem :=
  let kept : Int × Int → Bool := fun e ↦ !gone e.2 || decide (e.1 ∈ waitingNodes)
  { s with
    pending := s.pending.filter kept
    removed := s.removed ++
      (s.pending.filter fun e ↦ !kept e).map fun e ↦ (e.1, s.manager.rdzvRound) }

/-- The failed nodes that a poll removes before it checks the completion. -/
def poll (s : TrainingSystem) (env : Env) : TrainingSystem :=
  if s.manager.rdzvNodes.items = [] then
    let nodeIds := s.manager.waitingNodes.values.map NodeTopologyMeta.nodeId
    s.forget (fun nodeId ↦ env.failed nodeId && decide (nodeId ∈ nodeIds))
      (s.manager.dropFailed env.failed).waitingNodes
  else s

/-- The asker takes the answer. -/
def hand (s : TrainingSystem) (nodeRank : Int) (answer : Except RdzvError CommWorld) :
    TrainingSystem :=
  match answer with
  | .error _ => s
  | .ok ans =>
    { s with
      answers := s.answers ++ [(nodeRank, ans)]
      pending := if nodeRank ∈ ans.world then s.pending.filter fun e ↦ e.1 ≠ nodeRank
        else s.pending }

def step (s : TrainingSystem) : TrainingAct → Option TrainingSystem
  | .join req env =>
    some { s with
      manager := s.manager.joinRendezvous req env
      pending := if req.nodeRank ∈ s.manager.waitingNodes then s.pending
        else (req.nodeRank, req.nodeId) :: s.pending.filter fun e ↦ e.1 ≠ req.nodeRank
      joined := if req.nodeRank ∈ s.manager.waitingNodes then s.joined
        else s.joined ++ [(req.nodeRank, s.manager.rdzvRound)] }
  | .getCommWorld nodeRank env =>
    some { (s.poll env).hand nodeRank (s.manager.trainingCommWorld env).1 with
      manager := (s.manager.trainingCommWorld env).2
      formedWorlds := s.formedWorlds ++ s.manager.completions env }
  | .removeAliveNode nodeId =>
    some { s.forget (fun id ↦ id = nodeId) (s.manager.removeAliveNode nodeId).waitingNodes with
      manager := s.manager.removeAliveNode nodeId }
  | .clearWaitingNodes => some { s with manager := s.manager.clearWaitingNodes }
  | .updateRdzvParams minNodes maxNodes waitingTimeout nodeUnit =>
    some { s with
      manager := s.manager.updateRdzvParams minNodes maxNodes waitingTimeout nodeUnit }
  | .setRdzvBlocked blocked => some { s with manager := s.manager.setRdzvBlocked blocked }

/-- What a poll does to the system. -/
theorem getCommWorld_cases (s : TrainingSystem) (nodeRank : Int) (env : Env) :
    (s.manager.rdzvNodes.items ≠ [] ∧ s.step (.getCommWorld nodeRank env) =
      some (s.hand nodeRank (.ok ⟨s.manager.rdzvRound, 0, s.manager.rdzvNodes⟩))) ∨
    (s.manager.rdzvNodes.items = [] ∧ ∃ answer t, s.manager.Idle env answer t ∧
      s.step (.getCommWorld nodeRank env) =
        some { (s.poll env).hand nodeRank answer with
          manager := t, formedWorlds := s.formedWorlds }) ∨
    ∃ num world, s.manager.rdzvNodes.items = [] ∧ s.manager.rdzvBlocked = false ∧
      (s.manager.dropFailed env.failed).completedNum env.now = .ok (some num) ∧
      sortNodes ((s.manager.dropFailed env.failed).complete num).rdzvNodes = .ok world ∧
      s.step (.getCommWorld nodeRank env) =
        some { (s.poll env).hand nodeRank (.ok ⟨s.manager.rdzvRound + 1, 0, world⟩) with
          manager := (s.manager.dropFailed env.failed).formed num world
          formedWorlds := s.formedWorlds ++ [(s.manager.rdzvRound + 1,
            ((s.manager.dropFailed env.failed).complete num).rdzvNodes, world)] } := by
  rcases s.manager.trainingCommWorld_cases env with
    ⟨there, eq, noCompletion⟩ | ⟨there, idle⟩ |
      ⟨num, world, there, blocked, completed, sorted, eq, completion⟩
  · left
    refine ⟨there, ?_⟩
    simp only [step, eq, noCompletion, List.append_nil, poll, if_neg there, hand]
  · right
    left
    refine ⟨there, _, _, idle, ?_⟩
    simp only [step, idle.none, List.append_nil]
  · right
    right
    refine ⟨num, world, there, blocked, completed, sorted, ?_⟩
    simp only [step, eq, completion]

/-- Waiting nodes stand under their own ranks. -/
theorem step_ranked {s t : TrainingSystem} {a : TrainingAct} (taken : s.step a = some t)
    (h : Ranked s.manager.waitingNodes) : Ranked t.manager.waitingNodes := by
  cases a with
  | join req env =>
    cases taken
    simp only [RdzvManager.joinRendezvous]
    split
    · exact h
    · rintro ⟨r, node⟩ mem
      rcases Dict.mem_items_insert.mp mem with ⟨rfl, rfl⟩ | ⟨-, mem⟩
      · rfl
      · exact h _ mem
  | getCommWorld r env =>
    have drops := s.manager.dropFailed_drops env.failed
    rcases s.getCommWorld_cases r env with
      ⟨-, eq⟩ | ⟨-, answer, m, idle, eq⟩ | ⟨num, world, -, -, -, -, eq⟩
    · rw [eq] at taken
      cases taken
      exact h
    · rw [eq] at taken
      cases taken
      simp only [idle.waiting]
      exact fun e he ↦ h e (drops.mem_items he)
    · rw [eq] at taken
      cases taken
      intro e he
      simp only [RdzvManager.formed, RdzvManager.complete_waiting_items] at he
      exact h e (drops.mem_items (List.mem_filter.mp he).1)
  | removeAliveNode nodeId =>
    cases taken
    exact fun e he ↦ h e ((s.manager.removeAliveNode_drops nodeId).mem_items he)
  | clearWaitingNodes =>
    cases taken
    exact fun e he ↦ absurd he List.not_mem_nil
  | updateRdzvParams minNodes maxNodes waitingTimeout nodeUnit =>
    cases taken
    simp only [RdzvManager.updateRdzvParams]
    split <;> exact h
  | setRdzvBlocked blocked =>
    cases taken
    exact h

/-- An environment with no switches, groups or failures. -/
def quietEnv (now : ℚ) : Env := ⟨now, fun _ ↦ ("", ""), fun _ ↦ (-1, 0, ""), fun _ ↦ false⟩

/-- The node with id and rank `r` joins. -/
def joinNode (r : Int) (now : ℚ) : TrainingAct := .join ⟨r, r, 8, ""⟩ (quietEnv now)

end TrainingSystem

end ProbingBaselines.Dlrover
