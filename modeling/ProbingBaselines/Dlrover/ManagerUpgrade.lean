import ProbingBaselines.Lib.Run
import ProbingBaselines.Dlrover.GroupNodeCheck

/-!
# Upgrading the network-check manager

The servicer starts with a `NetworkCheckRendezvousManager` and replaces it by a
`GroupNodeNetworkCheckRendezvousManager` at the first join of a node with group information
(`servicer.py:313-356`). Only the parameters of the rendezvous go over to the new manager: nodes
that wait in the old one are lost. Besides, a join throws away a formed world, and so does a poll
that completes the rendezvous again after the groups were cleared.
-/

namespace ProbingBaselines.Dlrover

open Lib

/-- The manager registered under `NETWORK_CHECK`. -/
inductive CheckManager where
  | network (m : NetworkCheckManager)
  | groupNode (m : GroupNodeManager)

namespace CheckManager

def check : CheckManager → NetworkCheckManager
  | .network m => m
  | .groupNode m => m.check

def base (m : CheckManager) : RdzvManager := m.check.base

def setBase (m : CheckManager) (base : RdzvManager) : CheckManager :=
  match m with
  | .network m => .network { m with base := base }
  | .groupNode m => .groupNode (m.setBase base)

def joinRendezvous (m : CheckManager) (req : JoinRendezvousRequest) (env : Env) : CheckManager :=
  match m with
  | .network m => .network (m.clearGroups.joinRendezvous req env)
  | .groupNode m => .groupNode (m.joinRendezvous req env)

def getCommWorld (m : CheckManager) (nodeRank : Int) (env : Env) :
    Except RdzvError CommWorld × CheckManager :=
  match m with
  | .network m => ((m.getCommWorld nodeRank env).1, .network (m.getCommWorld nodeRank env).2)
  | .groupNode m => ((m.getCommWorld nodeRank env).1, .groupNode (m.getCommWorld nodeRank env).2)

/-- A poll completes a rendezvous. -/
def completes (m : CheckManager) (env : Env) : Bool :=
  decide (m.check.nodeGroups = []) && !m.base.rdzvBlocked &&
    match (m.base.dropFailed env.failed).completedNum env.now with
    | .ok (some _) => true
    | _ => false

theorem joinRendezvous_base (m : CheckManager) (req : JoinRendezvousRequest) (env : Env) :
    (m.joinRendezvous req env).base = m.base.joinRendezvous req env := by
  cases m <;> rfl

theorem setBase_base (m : CheckManager) (base : RdzvManager) : (m.setBase base).base = base := by
  cases m <;> rfl

/-- The base of a manager after a poll: untouched if there are groups, else without the failed
nodes, or with a new world. -/
def BasePolled (m : CheckManager) (env : Env) (base : RdzvManager) : Prop :=
  (m.check.nodeGroups ≠ [] ∧ base = m.base) ∨
    (m.check.nodeGroups = [] ∧ base = m.base.dropFailed env.failed) ∨
    ∃ num round, m.check.nodeGroups = [] ∧ m.completes env = true ∧
      base = { (m.base.dropFailed env.failed).complete num with rdzvRound := round }

theorem completes_of_completedNum {m : CheckManager} {env : Env} {num : Int}
    (none : m.check.nodeGroups = []) (free : m.base.rdzvBlocked = false)
    (completed : (m.base.dropFailed env.failed).completedNum env.now = .ok (some num)) :
    m.completes env = true := by
  rw [completes, completed, free, decide_eq_true none]
  rfl

theorem getCommWorld_base (m : CheckManager) (nodeRank : Int) (env : Env) :
    m.BasePolled env (m.getCommWorld nodeRank env).2.base := by
  cases m with
  | network m =>
    have same : (m.getCommWorld nodeRank env).2 = (m.checkCompleted env).2 := by
      rw [NetworkCheckManager.getCommWorld]
      rcases m.checkCompleted env with ⟨result, t⟩
      cases result <;> rfl
    have base : (getCommWorld (.network m) nodeRank env).2.base = (m.checkCompleted env).2.base :=
      congrArg NetworkCheckManager.base same
    rw [base]
    rcases m.checkCompleted_cases env with
      ⟨some, eq⟩ | ⟨none, eq⟩ | ⟨num, none, free, completed, eq⟩
    · rw [eq]
      exact .inl ⟨some, rfl⟩
    · rw [eq]
      exact .inr (.inl ⟨none, rfl⟩)
    · rw [eq]
      exact .inr (.inr ⟨num, _, none, completes_of_completedNum none free completed, rfl⟩)
  | groupNode m =>
    by_cases none : m.check.nodeGroups = []
    · right
      have eq : (getCommWorld (.groupNode m) nodeRank env).2.base =
          (m.getCommWorld nodeRank env).2.check.base := rfl
      rw [eq, GroupNodeManager.getCommWorld, if_pos none]
      rcases m.check.base.checkRdzvCompleted_cases env with
        eq | ⟨e, eq, -⟩ | ⟨num, free, completed, eq⟩
      · rw [eq]
        exact .inl ⟨none, rfl⟩
      · rw [eq]
        exact .inl ⟨none, rfl⟩
      · rw [eq]
        right
        exact ⟨num, _, none, completes_of_completedNum none free completed,
          GroupNodeManager.startRound_base _⟩
    · left
      refine ⟨none, ?_⟩
      have eq : (getCommWorld (.groupNode m) nodeRank env).2.base =
          (m.getCommWorld nodeRank env).2.check.base := rfl
      rw [eq, GroupNodeManager.getCommWorld, if_neg none]
      rfl

end CheckManager

/-- The new manager has the parameters of the old one and nothing else; `servicer.py:323-329`. -/
def upgraded (m : NetworkCheckManager) : GroupNodeManager :=
  GroupNodeManager.init.setBase (RdzvManager.init.updateRdzvParams m.base.rdzvParams.minNodes
    m.base.rdzvParams.maxNodes m.base.rdzvParams.waitingTimeout m.base.nodeUnit)

/-- The rank that a request joins with; `servicer.py:336-338`. -/
def JoinRendezvousRequest.ranked (req : JoinRendezvousRequest) : JoinRendezvousRequest :=
  if req.nodeRank = -1 then { req with nodeRank := req.nodeId } else req

/-- The managers of the two rendezvous. -/
structure Servicer where
  networkCheck : CheckManager
  training : RdzvManager

namespace Servicer

/-- Whether a join replaces the manager; `hasGroup` says if the job context has the node with group
information. -/
def upgrades (s : Servicer) (hasGroup : Bool) : Bool :=
  match s.networkCheck with
  | .network _ => hasGroup
  | .groupNode _ => false

/-- The manager that takes a join. -/
def joined (s : Servicer) (hasGroup : Bool) : CheckManager :=
  match s.networkCheck with
  | .network m => if hasGroup then .groupNode (upgraded m) else .network m
  | .groupNode m => .groupNode m

/-- `_join_rendezvous` for the network check; `servicer.py:313-356`. -/
def joinRendezvous (s : Servicer) (req : JoinRendezvousRequest) (hasGroup : Bool) (env : Env) :
    Servicer where
  networkCheck := (s.joined hasGroup).joinRendezvous req.ranked env
  training := s.training.clearWaitingNodes

end Servicer

/-- `pending` are the ranks that have joined and were neither handed a group nor removed. -/
structure UpgradeSystem where
  servicer : Servicer
  pending : List Int

inductive UpgradeAct where
  | join (req : JoinRendezvousRequest) (hasGroup : Bool) (env : Env)
  | getCommWorld (nodeRank : Int) (env : Env)
  | removeAliveNode (nodeId : Int)
  | updateRdzvParams (minNodes maxNodes : Int) (waitingTimeout : ℚ) (nodeUnit : Int)

namespace UpgradeSystem

def init : UpgradeSystem := ⟨⟨.network .init, .init⟩, []⟩

def manager (s : UpgradeSystem) : CheckManager := s.servicer.networkCheck

def setManager (s : UpgradeSystem) (manager : CheckManager) : UpgradeSystem :=
  { s with servicer := { s.servicer with networkCheck := manager } }

/-- The pending nodes without those that stop waiting between two states of the manager. -/
def remaining (s : UpgradeSystem) (t : RdzvManager) : List Int :=
  s.pending.filter fun r ↦ r ∉ s.manager.base.waitingNodes ∨ r ∈ t.waitingNodes

/-- The pending nodes after the failed ones are dropped by a poll. -/
def polled (s : UpgradeSystem) (env : Env) : List Int :=
  if s.manager.check.nodeGroups = [] then s.remaining (s.manager.base.dropFailed env.failed)
  else s.pending

/-- The pending nodes without the asker, if the answer has it. -/
def hand (pending : List Int) (nodeRank : Int) (answer : Except RdzvError CommWorld) : List Int :=
  match answer with
  | .error _ => pending
  | .ok ans => if nodeRank ∈ ans.world then pending.filter (· ≠ nodeRank) else pending

def step (s : UpgradeSystem) : UpgradeAct → Option UpgradeSystem
  | .join req hasGroup env =>
    some ⟨s.servicer.joinRendezvous req hasGroup env, s.pending.insert req.ranked.nodeRank⟩
  | .getCommWorld nodeRank env =>
    let result := s.manager.getCommWorld nodeRank env
    some { s.setManager result.2 with pending := hand (s.polled env) nodeRank result.1 }
  | .removeAliveNode nodeId =>
    let base := s.manager.base.removeAliveNode nodeId
    some { s.setManager (s.manager.setBase base) with pending := s.remaining base }
  | .updateRdzvParams minNodes maxNodes waitingTimeout nodeUnit =>
    let base := s.manager.base.updateRdzvParams minNodes maxNodes waitingTimeout nodeUnit
    some (s.setManager (s.manager.setBase base))

/-- No manager is replaced while it holds other pending nodes, and no formed world is thrown away,
by a join or by a poll, while others have still to be handed their group. -/
def KeepsPending (s : UpgradeSystem) : UpgradeAct → Prop
  | .join req hasGroup _ =>
      if s.servicer.upgrades hasGroup then ∀ r ∈ s.pending, r = req.ranked.nodeRank
      else req.ranked.nodeRank ∉ s.manager.base.waitingNodes →
        ∀ r ∈ s.pending, r ∈ s.manager.base.rdzvNodes → r = req.ranked.nodeRank
  | .getCommWorld _ env => s.manager.completes env = true →
      ∀ r ∈ s.pending, r ∉ s.manager.base.rdzvNodes
  | _ => True

/-- Every pending node waits or is in the formed world. -/
def Held (s : UpgradeSystem) : Prop :=
  ∀ r ∈ s.pending, r ∈ s.manager.base.waitingNodes ∨ r ∈ s.manager.base.rdzvNodes

instance (s : UpgradeSystem) (a : UpgradeAct) : Decidable (s.KeepsPending a) :=
  match a with
  | .join req hasGroup _ => inferInstanceAs (Decidable (
      if s.servicer.upgrades hasGroup then ∀ r ∈ s.pending, r = req.ranked.nodeRank
      else req.ranked.nodeRank ∉ s.manager.base.waitingNodes →
        ∀ r ∈ s.pending, r ∈ s.manager.base.rdzvNodes → r = req.ranked.nodeRank))
  | .getCommWorld _ env => inferInstanceAs (Decidable (s.manager.completes env = true →
      ∀ r ∈ s.pending, r ∉ s.manager.base.rdzvNodes))
  | .removeAliveNode _ => .isTrue trivial
  | .updateRdzvParams _ _ _ _ => .isTrue trivial

/-! ### Steps -/

/-- The node that joins waits afterwards, and the others still do. -/
theorem mem_joinRendezvous_waiting {m : RdzvManager} {req : JoinRendezvousRequest} {env : Env}
    {r : Int} : r ∈ (m.joinRendezvous req env).waitingNodes ↔
      r = req.nodeRank ∨ r ∈ m.waitingNodes := by
  unfold RdzvManager.joinRendezvous
  split
  · next known =>
    constructor
    · exact .inr
    · rintro (rfl | waits)
      · exact known
      · exact waits
  · exact Dict.mem_insert

theorem joined_of_not_upgrades {s : Servicer} {hasGroup : Bool}
    (keeps : ¬s.upgrades hasGroup = true) : s.joined hasGroup = s.networkCheck := by
  rcases s with ⟨manager, training⟩
  cases manager with
  | network m => exact if_neg keeps
  | groupNode m => rfl

theorem Held.join {s t : UpgradeSystem} (h : Held s) {req : JoinRendezvousRequest} {hasGroup : Bool}
    {env : Env} (ok : s.KeepsPending (.join req hasGroup env))
    (taken : s.step (.join req hasGroup env) = some t) : Held t := by
  cases taken
  intro r hr
  have base : (s.servicer.joinRendezvous req hasGroup env).networkCheck.base =
      (s.servicer.joined hasGroup).base.joinRendezvous req.ranked env :=
    CheckManager.joinRendezvous_base _ _ _
  simp only [manager, base, mem_joinRendezvous_waiting]
  rcases List.mem_insert_iff.mp hr with rfl | hr
  · exact .inl (.inl rfl)
  · simp only [KeepsPending] at ok
    by_cases upgrade : s.servicer.upgrades hasGroup = true
    · rw [if_pos upgrade] at ok
      exact .inl (.inl (ok r hr))
    · rw [if_neg upgrade] at ok
      rw [joined_of_not_upgrades upgrade]
      by_cases known : req.ranked.nodeRank ∈ s.manager.base.waitingNodes
      · have ignored : s.servicer.networkCheck.base.joinRendezvous req.ranked env =
            s.servicer.networkCheck.base := if_pos known
        rw [ignored]
        exact (h r hr).imp_left .inr
      · rcases h r hr with waits | member
        · exact .inl (.inr waits)
        · exact .inl (.inl (ok known r hr member))

theorem hand_subset {pending : List Int} {nodeRank : Int} {answer : Except RdzvError CommWorld}
    {r : Int} (hr : r ∈ hand pending nodeRank answer) : r ∈ pending := by
  unfold hand at hr
  split at hr
  · exact hr
  · split at hr
    · exact (List.mem_filter.mp hr).1
    · exact hr

/-- The remaining nodes of a removal. -/
theorem Held.remaining {s : UpgradeSystem} (h : Held s) {t : RdzvManager}
    (nodes : t.rdzvNodes = s.manager.base.rdzvNodes) :
    ∀ r ∈ s.remaining t, r ∈ t.waitingNodes ∨ r ∈ t.rdzvNodes := by
  intro r hr
  rcases List.mem_filter.mp hr with ⟨hr, keep⟩
  rw [decide_eq_true_iff] at keep
  rw [nodes]
  rcases h r hr with waits | member
  · exact .inl (keep.resolve_left fun absent ↦ absent waits)
  · exact .inr member

theorem Held.getCommWorld {s t : UpgradeSystem} (h : Held s) {nodeRank : Int} {env : Env}
    (ok : s.KeepsPending (.getCommWorld nodeRank env))
    (taken : s.step (.getCommWorld nodeRank env) = some t) : Held t := by
  cases taken
  intro r hr
  have pending : r ∈ s.polled env := hand_subset hr
  have nodes := (s.manager.base.dropFailed_drops env.failed).same.1
  have left := h.remaining nodes
  change r ∈ (s.manager.getCommWorld nodeRank env).2.base.waitingNodes ∨
    r ∈ (s.manager.getCommWorld nodeRank env).2.base.rdzvNodes
  rcases s.manager.getCommWorld_base nodeRank env with
    ⟨some, eq⟩ | ⟨none, eq⟩ | ⟨num, round, none, completes, eq⟩
  · rw [polled, if_neg some] at pending
    rw [eq]
    exact h r pending
  · rw [polled, if_pos none] at pending
    rw [eq]
    exact left r pending
  · rw [polled, if_pos none] at pending
    have before := (List.mem_filter.mp pending).1
    have waits := (left r pending).resolve_right fun member ↦
      ok completes r before (by rwa [nodes] at member)
    rw [eq]
    by_cases chosen : r ∈ (s.manager.base.dropFailed env.failed).chosen num
    · exact .inr (RdzvManager.mem_complete_rdzvNodes.mpr chosen)
    · exact .inl (RdzvManager.mem_complete_waiting.mpr ⟨waits, chosen⟩)

theorem Held.step {s t : UpgradeSystem} {act : UpgradeAct} (h : Held s) (ok : s.KeepsPending act)
    (taken : s.step act = some t) : Held t := by
  cases act with
  | join req hasGroup env => exact h.join ok taken
  | getCommWorld nodeRank env => exact h.getCommWorld ok taken
  | removeAliveNode nodeId =>
    cases taken
    have drops := s.manager.base.removeAliveNode_drops nodeId
    simp only [Held, manager, setManager, CheckManager.setBase_base]
    exact h.remaining drops.same.1
  | updateRdzvParams minNodes maxNodes waitingTimeout nodeUnit =>
    cases taken
    simp only [Held, manager, setManager, CheckManager.setBase_base]
    unfold RdzvManager.updateRdzvParams
    split <;> exact h

/-- No join is lost while no manager or formed world with pending nodes is replaced. -/
theorem joins_held {acts : List UpgradeAct} {s : UpgradeSystem}
    (run : Run step KeepsPending init acts s) :
    ∀ r ∈ s.pending, r ∈ s.manager.base.waitingNodes ∨ r ∈ s.manager.base.rdzvNodes := by
  apply run.invariant (P := Held)
  · intro r hr
    cases hr
  · intro s t act h ok taken
    exact h.step ok taken

/-! ### A node without a group -/

/-- Node 0 has no group information, the others have. -/
def mixedEnv : Env :=
  ⟨10, fun _ ↦ ("", ""), fun id ↦ if id = 0 then (-1, 0, "") else (0, 2, "group-0"), fun _ ↦ false⟩

/-- The node with id and rank `r` joins. -/
def mixedJoin (r : Int) : UpgradeAct := .join ⟨r, r, 8, ""⟩ (decide (r ≠ 0)) mixedEnv

/-- Node 0 joins after the upgrade; node 1 is handed its group, node 0 has still to poll. -/
theorem joins_held_mixed : ∃ s, Run step KeepsPending init
    [.updateRdzvParams 3 3 30 1, mixedJoin 1, mixedJoin 0, mixedJoin 2,
      .getCommWorld 1 mixedEnv] s ∧
    0 ∈ s.pending ∧ 0 ∉ s.manager.base.waitingNodes ∧ 0 ∈ s.manager.base.rdzvNodes := by
  have eval : (List.foldlM (fun s a ↦ if KeepsPending s a then step s a else none) init
      [.updateRdzvParams 3 3 30 1, mixedJoin 1, mixedJoin 0, mixedJoin 2,
        .getCommWorld 1 mixedEnv]).map (fun s ↦ decide (0 ∈ s.pending) &&
      decide (0 ∉ s.manager.base.waitingNodes)) = some true := by
    decide +kernel
  rcases Option.map_eq_some_iff.mp eval with ⟨s, hs, holds⟩
  rw [Bool.and_eq_true, decide_eq_true_iff, decide_eq_true_iff] at holds
  have run := run_of_guarded hs
  exact ⟨s, run, holds.1, holds.2, (joins_held run 0 holds.1).resolve_left holds.2⟩

/-- Node 0 joins first: the upgrade at the join of node 1 loses it. -/
theorem upgrade_loses_join : ∃ s, Run step anyStep init
    [.updateRdzvParams 2 2 30 1, mixedJoin 0, mixedJoin 1] s ∧
    0 ∈ s.pending ∧ ¬(0 ∈ s.manager.base.waitingNodes ∨ 0 ∈ s.manager.base.rdzvNodes) := by
  have eval : (List.foldlM step init [.updateRdzvParams 2 2 30 1, mixedJoin 0, mixedJoin 1]).map
      (fun s ↦ decide (0 ∈ s.pending ∧
        ¬(0 ∈ s.manager.base.waitingNodes ∨ 0 ∈ s.manager.base.rdzvNodes))) = some true := by
    decide +kernel
  rcases Option.map_eq_some_iff.mp eval with ⟨s, hs, holds⟩
  exact ⟨s, run_of_foldlM hs, of_decide_eq_true holds⟩

end UpgradeSystem

end ProbingBaselines.Dlrover
