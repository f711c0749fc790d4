import Mathlib.Data.List.Pairwise
import ProbingBaselines.Dlrover.NetworkCheck

/-!
# Agreement on the check groups

Two members that are answered in one round get the same group or disjoint ones, as long as no
member is answered with the whole node map after groups were formed. That happens to a member
whose group is not in `_node_groups` any more: `join_rendezvous` clears the list before it takes
the lock (`rdzv_manager.py:801`), also for a node that is already waiting, whose join then leaves
`_rdzv_nodes` as it is (`rdzv_manager.py:343-349`).
-/

namespace ProbingBaselines.Dlrover

open Lib

/-- The manager, the joins between their clear and their locked part, the poll that holds the
lock, and the answers. `formedGroups` and `formedNodes` are the groups and nodes of the last
completion. -/
structure NetworkSystem where
  manager : NetworkCheckManager
  joining : List JoinRendezvousRequest
  polling : Option Int
  answers : List (Int × CommWorld)
  formedGroups : List NodeMap
  formedNodes : NodeMap

inductive NetworkAct where
  | clearGroups (req : JoinRendezvousRequest)
  | join (i : Nat) (env : Env)
  | beginPoll (nodeRank : Int) (env : Env)
  | endPoll
  | removeAliveNode (nodeId : Int)
  | report (nodeRank : Int) (succeed : Bool) (elapsedTime : ℚ)
  | checkFaultNode
  | updateRdzvParams (minNodes maxNodes : Int) (waitingTimeout : ℚ) (nodeUnit : Int)

namespace NetworkSystem

def init : NetworkSystem := ⟨.init, [], none, [], [], .empty⟩

/-- A step that takes the manager's lock, which a poll may hold. -/
def locked (s : NetworkSystem) (t : NetworkSystem) : Option NetworkSystem :=
  if s.polling.isSome then none else some t

def step (s : NetworkSystem) : NetworkAct → Option NetworkSystem
  | .clearGroups req =>
    some { s with manager := s.manager.clearGroups, joining := s.joining ++ [req] }
  | .join i env =>
    match s.joining[i]? with
    | some req => s.locked { s with
        manager := s.manager.joinRendezvous req env
        joining := s.joining.eraseIdx i }
    | none => none
  | .beginPoll nodeRank env =>
    let result := s.manager.checkCompleted env
    -- only a completion moves the round on
    let completed := decide (s.manager.base.rdzvRound < result.2.base.rdzvRound)
    s.locked { s with
      manager := result.2
      polling := match result.1 with
        | .ok () => some nodeRank
        | .error _ => none
      formedGroups := if completed then result.2.nodeGroups else s.formedGroups
      formedNodes := if completed then result.2.base.rdzvNodes else s.formedNodes }
  | .endPoll =>
    match s.polling with
    | some nodeRank => some { s with
        polling := none
        answers := s.answers ++ [(nodeRank, s.manager.findGroup nodeRank)] }
    | none => none
  | .removeAliveNode nodeId =>
    s.locked { s with
      manager := { s.manager with base := s.manager.base.removeAliveNode nodeId } }
  | .report nodeRank succeed elapsedTime =>
    some { s with
      manager := s.manager.reportNetworkCheckResult nodeRank succeed elapsedTime }
  | .checkFaultNode => s.locked { s with manager := s.manager.checkFaultNode.2 }
  | .updateRdzvParams minNodes maxNodes waitingTimeout nodeUnit =>
    s.locked { s with
      manager := { s.manager with
        base := s.manager.base.updateRdzvParams minNodes maxNodes waitingTimeout nodeUnit } }

/-- A member that is answered after groups were formed finds its group. -/
def FindsGroup (s : NetworkSystem) : NetworkAct → Prop
  | .endPoll => ∀ r ∈ s.polling, r ∈ s.manager.base.rdzvNodes → s.formedGroups ≠ [] →
      ∃ group ∈ s.manager.nodeGroups, r ∈ group
  | _ => True

/-- Groups that are the same or have no rank in common. -/
def SameOrDisjoint (x y : NodeMap) : Prop := x = y ∨ ∀ r ∈ x, r ∉ y

/-- What every state of such a run satisfies. -/
structure GroupsAgree (s : NetworkSystem) : Prop where
  apart : (groupedRanks s.formedGroups).Nodup
  groups : ∀ group ∈ s.manager.nodeGroups, group ∈ s.formedGroups
  nodes : s.manager.base.rdzvNodes.items = [] ∨ s.manager.base.rdzvNodes = s.formedNodes
  rounds : ∀ x ∈ s.answers, x.2.round ≤ s.manager.base.rdzvRound
  current : ∀ x ∈ s.answers, x.1 ∈ x.2.world → x.2.round = s.manager.base.rdzvRound →
    x.2.world ∈ s.formedGroups ∨ s.formedGroups = [] ∧ x.2.world = s.formedNodes
  settled : ∀ x ∈ s.answers, ∀ y ∈ s.answers, x.1 ∈ x.2.world → y.1 ∈ y.2.world →
    x.2.round = y.2.round → SameOrDisjoint x.2.world y.2.world

theorem init_groupsAgree : GroupsAgree init := by
  constructor <;> simp [init, NetworkCheckManager.init, RdzvManager.init, groupedRanks]

/-- Groups without a common rank in the list have none in common. -/
theorem sameOrDisjoint_of_mem {groups : List NodeMap} (nodup : (groupedRanks groups).Nodup)
    {x y : NodeMap} (hx : x ∈ groups) (hy : y ∈ groups) : SameOrDisjoint x y := by
  by_cases same : x = y
  · exact .inl same
  · right
    rw [groupedRanks, List.nodup_flatMap] at nodup
    have symm : Std.Symm (Function.onFun List.Disjoint (Dict.keys : NodeMap → List Int)) :=
      ⟨fun _ _ h ↦ h.symm⟩
    exact fun r hr hr' ↦ nodup.2.forall hx hy same hr hr'

/-- A step without an answer or a completion: groups may be cleared and the node map emptied. -/
theorem GroupsAgree.silent {s t : NetworkSystem} (h : GroupsAgree s)
    (groups : ∀ group ∈ t.manager.nodeGroups, group ∈ s.manager.nodeGroups)
    (nodes : t.manager.base.rdzvNodes.items = [] ∨
      t.manager.base.rdzvNodes = s.manager.base.rdzvNodes)
    (round : s.manager.base.rdzvRound ≤ t.manager.base.rdzvRound)
    (answers : t.answers = s.answers) (formedGroups : t.formedGroups = s.formedGroups)
    (formedNodes : t.formedNodes = s.formedNodes) : GroupsAgree t := by
  constructor
  · rw [formedGroups]
    exact h.apart
  · intro group hgroup
    rw [formedGroups]
    exact h.groups group (groups group hgroup)
  · rw [formedNodes]
    rcases nodes with empty | same
    · exact .inl empty
    · rw [same]
      exact h.nodes
  · rw [answers]
    exact fun x hx ↦ (h.rounds x hx).trans round
  · intro x hx own eq
    rw [answers] at hx
    rw [formedGroups, formedNodes]
    have le := h.rounds x hx
    exact h.current x hx own (by omega)
  · rw [answers]
    exact h.settled

/-- A completion starts a round in which nobody was answered yet. -/
theorem GroupsAgree.completed {s t : NetworkSystem} (h : GroupsAgree s)
    (apart : (groupedRanks t.manager.nodeGroups).Nodup)
    (round : s.manager.base.rdzvRound < t.manager.base.rdzvRound)
    (answers : t.answers = s.answers) (formedGroups : t.formedGroups = t.manager.nodeGroups)
    (formedNodes : t.formedNodes = t.manager.base.rdzvNodes) : GroupsAgree t := by
  constructor
  · rw [formedGroups]
    exact apart
  · rw [formedGroups]
    exact fun _ hgroup ↦ hgroup
  · exact .inr formedNodes.symm
  · rw [answers]
    intro x hx
    have le := h.rounds x hx
    omega
  · intro x hx _ eq
    rw [answers] at hx
    have le := h.rounds x hx
    omega
  · rw [answers]
    exact h.settled

theorem findGroup_round (m : NetworkCheckManager) (r : Int) :
    (m.findGroup r).round = m.base.rdzvRound := by
  unfold NetworkCheckManager.findGroup
  split <;> rfl

/-- A group in the list, or the whole map when no group has the rank. -/
theorem findGroup_cases (m : NetworkCheckManager) (r : Int) :
    (m.findGroup r).world ∈ m.nodeGroups ∨
      (∀ group ∈ m.nodeGroups, r ∉ group) ∧ (m.findGroup r).world = m.base.rdzvNodes := by
  unfold NetworkCheckManager.findGroup
  split
  · next i found =>
    left
    rcases List.findIdx?_eq_some_iff_getElem.mp found with ⟨lt, -, -⟩
    simp only
    rw [List.getD_eq_getElem?_getD, List.getElem?_eq_getElem lt, Option.getD_some]
    exact List.getElem_mem lt
  · next none =>
    right
    refine ⟨?_, rfl⟩
    intro group hgroup
    have := List.findIdx?_eq_none_iff.mp none group hgroup
    simpa using this

theorem GroupsAgree.endPoll {s t : NetworkSystem} (h : GroupsAgree s)
    (ok : s.FindsGroup .endPoll) (taken : s.step .endPoll = some t) : GroupsAgree t := by
  simp only [step] at taken
  split at taken
  · next r polling =>
    cases taken
    -- an answer with its asker in it is a formed group, or there are none
    have answer : r ∈ (s.manager.findGroup r).world →
        (s.manager.findGroup r).world ∈ s.formedGroups ∨
          s.formedGroups = [] ∧ (s.manager.findGroup r).world = s.formedNodes := by
      intro own
      rcases findGroup_cases s.manager r with mem | ⟨none, whole⟩
      · exact .inl (h.groups _ mem)
      · right
        rw [whole] at own ⊢
        have formed : s.formedGroups = [] := by
          by_contra some
          rcases ok r polling own some with ⟨group, hgroup, mem⟩
          exact none group hgroup mem
        refine ⟨formed, h.nodes.resolve_left ?_⟩
        intro empty
        exact Dict.not_mem_of_items empty r own
    have current : ∀ x ∈ s.answers ++ [(r, s.manager.findGroup r)], x.1 ∈ x.2.world →
        x.2.round = s.manager.base.rdzvRound →
        x.2.world ∈ s.formedGroups ∨ s.formedGroups = [] ∧ x.2.world = s.formedNodes := by
      intro x hx own round
      rcases List.mem_append.mp hx with hx | hx
      · exact h.current x hx own round
      · rw [List.mem_singleton.mp hx] at own ⊢
        exact answer own
    have rounds : ∀ x ∈ s.answers ++ [(r, s.manager.findGroup r)],
        x.2.round ≤ s.manager.base.rdzvRound := by
      intro x hx
      rcases List.mem_append.mp hx with hx | hx
      · exact h.rounds x hx
      · rw [List.mem_singleton.mp hx, findGroup_round]
    refine ⟨h.apart, h.groups, h.nodes, rounds, current, ?_⟩
    intro x hx y hy ownX ownY same
    by_cases round : x.2.round = s.manager.base.rdzvRound
    · rcases current x hx ownX round with memX | ⟨none, wholeX⟩
      · rcases current y hy ownY (same ▸ round) with memY | ⟨none, -⟩
        · exact sameOrDisjoint_of_mem h.apart memX memY
        · rw [none] at memX
          cases memX
      · rcases current y hy ownY (same ▸ round) with memY | ⟨-, wholeY⟩
        · rw [none] at memY
          cases memY
        · exact .inl (wholeX.trans wholeY.symm)
    · have old : ∀ z ∈ s.answers ++ [(r, s.manager.findGroup r)],
          z.2.round ≠ s.manager.base.rdzvRound → z ∈ s.answers := by
        intro z hz ne
        rcases List.mem_append.mp hz with hz | hz
        · exact hz
        · rw [List.mem_singleton.mp hz, findGroup_round] at ne
          exact absurd rfl ne
      exact h.settled x (old x hx round) y (old y hy (same ▸ round)) ownX ownY same
  · cases taken

theorem GroupsAgree.beginPoll {s t : NetworkSystem} (h : GroupsAgree s) {r : Int} {env : Env}
    (taken : s.step (.beginPoll r env) = some t) : GroupsAgree t := by
  simp only [step, locked] at taken
  split at taken
  · cases taken
  · cases taken
    rcases s.manager.checkCompleted_cases env with ⟨-, eq⟩ | ⟨-, eq⟩ | ⟨num, -, -, -, eq⟩
    · rw [eq]
      simp only [lt_irrefl, decide_false, Bool.false_eq_true, if_false]
      exact h.silent (fun _ mem ↦ mem) (.inr rfl) (le_refl _) rfl rfl rfl
    · rcases (s.manager.base.dropFailed_drops env.failed).same with ⟨nodes, round, -⟩
      rw [eq]
      simp only [round, lt_irrefl, decide_false, Bool.false_eq_true, if_false]
      exact h.silent (fun _ mem ↦ mem) (.inr nodes) round.ge rfl rfl rfl
    · rcases (s.manager.base.dropFailed_drops env.failed).same with ⟨-, round, -⟩
      have next : s.manager.base.rdzvRound <
          (NetworkCheckManager.startRound { s.manager with
            base := (s.manager.base.dropFailed env.failed).complete num }).base.rdzvRound := by
        have eq : (NetworkCheckManager.startRound { s.manager with
            base := (s.manager.base.dropFailed env.failed).complete num }).base.rdzvRound =
            (s.manager.base.dropFailed env.failed).rdzvRound + 1 := rfl
        omega
      rw [eq]
      simp only [next, decide_true, if_true]
      exact h.completed (groupNodes_nodup _ _ _) next rfl rfl rfl

theorem GroupsAgree.step {s t : NetworkSystem} {a : NetworkAct} (h : GroupsAgree s)
    (ok : s.FindsGroup a) (taken : s.step a = some t) : GroupsAgree t := by
  cases a with
  | clearGroups req =>
    cases taken
    exact h.silent (fun _ mem ↦ by cases mem) (.inr rfl) (le_refl _) rfl rfl rfl
  | join i env =>
    simp only [NetworkSystem.step] at taken
    split at taken
    · next req _ =>
      simp only [locked] at taken
      split at taken
      · cases taken
      · cases taken
        have base : (s.manager.base.joinRendezvous req env).rdzvRound =
            s.manager.base.rdzvRound ∧
            ((s.manager.base.joinRendezvous req env).rdzvNodes.items = [] ∨
              (s.manager.base.joinRendezvous req env).rdzvNodes = s.manager.base.rdzvNodes) := by
          unfold RdzvManager.joinRendezvous
          split
          · exact ⟨rfl, .inr rfl⟩
          · exact ⟨rfl, .inl rfl⟩
        exact h.silent (fun _ mem ↦ mem) base.2 base.1.ge rfl rfl rfl
    · cases taken
  | beginPoll r env => exact h.beginPoll taken
  | endPoll => exact h.endPoll ok taken
  | removeAliveNode nodeId =>
    rcases (s.manager.base.removeAliveNode_drops nodeId).same with ⟨nodes, round, -⟩
    simp only [NetworkSystem.step, locked] at taken
    split at taken
    · cases taken
    · cases taken
      exact h.silent (fun _ mem ↦ mem) (.inr nodes) round.ge rfl rfl rfl
  | report r succeed elapsedTime =>
    cases taken
    exact h.silent (fun _ mem ↦ mem) (.inr rfl) (le_refl _) rfl rfl rfl
  | checkFaultNode =>
    rcases s.manager.checkFaultNode_frame with ⟨groups, nodes, round⟩
    simp only [NetworkSystem.step, locked] at taken
    split at taken
    · cases taken
    · cases taken
      refine h.silent ?_ (.inr nodes) round rfl rfl rfl
      simp only [groups]
      exact fun _ mem ↦ mem
  | updateRdzvParams minNodes maxNodes waitingTimeout nodeUnit =>
    simp only [NetworkSystem.step, locked] at taken
    split at taken
    · cases taken
    · cases taken
      unfold RdzvManager.updateRdzvParams
      split <;> exact h.silent (fun _ mem ↦ mem) (.inr rfl) (le_refl _) rfl rfl rfl

/-- In every run in which the members find their groups, two answers of one round that contain
their askers carry the same group or disjoint ones. -/
theorem groups_agree {acts : List NetworkAct} {s : NetworkSystem}
    (run : Run step FindsGroup init acts s) :
    ∀ x ∈ s.answers, ∀ y ∈ s.answers, x.2.round = y.2.round → x.1 ∈ x.2.world →
      y.1 ∈ y.2.world → x.2.world = y.2.world ∨ ∀ r ∈ x.2.world, r ∉ y.2.world := by
  have agree : GroupsAgree s :=
    run.invariant init_groupsAgree fun _ _ _ h ok taken ↦ h.step ok taken
  intro x hx y hy round ownX ownY
  exact agree.settled x hx y hy ownX ownY round

/-! ### Five nodes in pairs -/

instance (s : NetworkSystem) (a : NetworkAct) : Decidable (s.FindsGroup a) :=
  match a with
  | .endPoll => inferInstanceAs (Decidable (∀ r ∈ s.polling, r ∈ s.manager.base.rdzvNodes →
      s.formedGroups ≠ [] → ∃ group ∈ s.manager.nodeGroups, r ∈ group))
  | .clearGroups _ => .isTrue trivial
  | .join _ _ => .isTrue trivial
  | .beginPoll _ _ => .isTrue trivial
  | .removeAliveNode _ => .isTrue trivial
  | .report _ _ _ => .isTrue trivial
  | .checkFaultNode => .isTrue trivial
  | .updateRdzvParams _ _ _ _ => .isTrue trivial

/-- The node with id and rank `r` joins. -/
def joinSteps (r : Int) : List NetworkAct :=
  [.clearGroups ⟨r, r, 8, ""⟩, .join 0 (TrainingSystem.quietEnv 10)]

/-- The node with rank `r` polls at time `now`. -/
def pollSteps (r : Int) (now : ℚ) : List NetworkAct :=
  [.beginPoll r (TrainingSystem.quietEnv now), .endPoll]

/-- Five nodes join a check in pairs, and node 0 is answered. -/
def fiveJoined : List NetworkAct :=
  .updateRdzvParams 2 6 30 2 :: ([0, 1, 2, 3, 4].flatMap joinSteps ++ pollSteps 0 60)

theorem groups_agree_five : ∃ s, Run step FindsGroup init (fiveJoined ++ pollSteps 1 61) s ∧
    ∃ x ∈ s.answers, ∃ y ∈ s.answers, x.1 = 0 ∧ y.1 = 1 ∧ 1 ∈ x.2.world ∧
      (x.2.world = y.2.world ∨ ∀ r ∈ x.2.world, r ∉ y.2.world) := by
  have eval : ((fiveJoined ++ pollSteps 1 61).foldlM
      (fun s a ↦ if FindsGroup s a then step s a else none) init).map (fun s ↦ decide (
      ∃ x ∈ s.answers, ∃ y ∈ s.answers, x.1 = 0 ∧ y.1 = 1 ∧ 1 ∈ x.2.world ∧
        x.2.round = y.2.round ∧ x.1 ∈ x.2.world ∧ y.1 ∈ y.2.world)) = some true := by
    decide +kernel
  rcases Option.map_eq_some_iff.mp eval with ⟨s, hs, holds⟩
  rcases of_decide_eq_true holds with ⟨x, hx, y, hy, zero, one, shared, round, ownX, ownY⟩
  have run := run_of_guarded hs
  exact ⟨s, run, x, hx, y, hy, zero, one, shared, groups_agree run x hx y hy round ownX ownY⟩

/-- Node 4, still waiting, joins again: node 1 gets all four nodes where node 0 got the pair. -/
theorem groups_overlap : ∃ s,
    Run step anyStep init (fiveJoined ++ joinSteps 4 ++ pollSteps 1 61) s ∧
    ∃ x ∈ s.answers, ∃ y ∈ s.answers, x.2.round = y.2.round ∧ x.1 ∈ x.2.world ∧
      y.1 ∈ y.2.world ∧ ¬(x.2.world = y.2.world ∨ ∀ r ∈ x.2.world, r ∉ y.2.world) := by
  have eval : ((fiveJoined ++ joinSteps 4 ++ pollSteps 1 61).foldlM step init).map
      (fun s ↦ decide (∃ x ∈ s.answers, ∃ y ∈ s.answers, x.2.round = y.2.round ∧
        x.1 ∈ x.2.world ∧ y.1 ∈ y.2.world ∧ x.2.world ≠ y.2.world ∧
        ∃ r ∈ x.2.world.keys, r ∈ y.2.world)) = some true := by
    decide +kernel
  rcases Option.map_eq_some_iff.mp eval with ⟨s, hs, holds⟩
  rcases of_decide_eq_true holds with ⟨x, hx, y, hy, round, ownX, ownY, ne, r, hr, hr'⟩
  refine ⟨s, run_of_foldlM hs, x, hx, y, hy, round, ownX, ownY, ?_⟩
  rintro (same | disjoint)
  · exact ne same
  · exact disjoint r hr hr'

end NetworkSystem

end ProbingBaselines.Dlrover
