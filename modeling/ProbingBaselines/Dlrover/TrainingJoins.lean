import ProbingBaselines.Dlrover.ElasticTraining

/-!
# Joined nodes

A node that has joined the training rendezvous stays in the waiting map or in the formed world
until it is handed that world or removed, as long as nobody joins while a formed world has other
members still to be handed it: a join throws the formed world away (`rdzv_manager.py:371`), while
the members, already out of the waiting map, keep polling (`training.py:519-552`).
-/

namespace ProbingBaselines.Dlrover

open Lib

namespace TrainingSystem

/-- Nobody joins while another member of the formed world has still to be handed it, and the
waiting nodes are not cleared. -/
def Undisturbed (s : TrainingSystem) : TrainingAct → Prop
  | .join req _ => req.nodeRank ∉ s.manager.waitingNodes →
      ∀ e ∈ s.pending, e.1 ∈ s.manager.rdzvNodes → e.1 = req.nodeRank
  | .clearWaitingNodes => False
  | _ => True

instance (s : TrainingSystem) (a : TrainingAct) : Decidable (s.Undisturbed a) :=
  match a with
  | .join req _ => inferInstanceAs (Decidable (req.nodeRank ∉ s.manager.waitingNodes →
      ∀ e ∈ s.pending, e.1 ∈ s.manager.rdzvNodes → e.1 = req.nodeRank))
  | .clearWaitingNodes => .isFalse id
  | .getCommWorld _ _ => .isTrue trivial
  | .removeAliveNode _ => .isTrue trivial
  | .updateRdzvParams _ _ _ _ => .isTrue trivial
  | .setRdzvBlocked _ => .isTrue trivial

/-- A member of an answered world was handed the world, has joined again or was removed, or the
world is still there to be handed out. -/
def Accounted (s : TrainingSystem) (ans : CommWorld) (r : Int) : Prop :=
  (r, ans) ∈ s.answers ∨ (∃ k ≥ ans.round, (r, k) ∈ s.joined) ∨
    (∃ k ≥ ans.round, (r, k) ∈ s.removed) ∨
    ans = ⟨s.manager.rdzvRound, 0, s.manager.rdzvNodes⟩

/-- What every state of an undisturbed run satisfies. -/
structure Keeps (s : TrainingSystem) : Prop where
  ranked : Ranked s.manager.waitingNodes
  disjoint : ∀ r ∈ s.manager.rdzvNodes, r ∉ s.manager.waitingNodes
  waiting : ∀ e ∈ s.manager.waitingNodes.items, (e.1, e.2.nodeId) ∈ s.pending
  sameId : ∀ e ∈ s.pending, ∀ node, (e.1, node) ∈ s.manager.waitingNodes.items → node.nodeId = e.2
  held : ∀ e ∈ s.pending, e.1 ∈ s.manager.waitingNodes ∨ e.1 ∈ s.manager.rdzvNodes
  members : ∀ r ∈ s.manager.rdzvNodes, (∃ id, (r, id) ∈ s.pending) ∨
    (r, ⟨s.manager.rdzvRound, 0, s.manager.rdzvNodes⟩) ∈ s.answers ∨
    ∃ k ≥ s.manager.rdzvRound, (r, k) ∈ s.removed
  answered : ∀ x ∈ s.answers, ∀ r ∈ x.2.world, s.Accounted x.2 r

theorem init_keeps : Keeps init := by
  constructor <;> simp [init, RdzvManager.init, Ranked]

/-! ### Joins -/

theorem Keeps.join {s t : TrainingSystem} (h : Keeps s) {req : JoinRendezvousRequest} {env : Env}
    (ok : s.Undisturbed (.join req env)) (taken : s.step (.join req env) = some t) : Keeps t := by
  cases taken
  by_cases known : req.nodeRank ∈ s.manager.waitingNodes
  · have same : s.manager.joinRendezvous req env = s.manager := if_pos known
    simp only [same, if_pos known]
    exact ⟨h.ranked, h.disjoint, h.waiting, h.sameId, h.held, h.members, h.answered⟩
  · have joined : s.manager.joinRendezvous req env =
        { s.manager with
          waitingNodes := s.manager.waitingNodes.insert req.nodeRank (req.nodeMeta env)
          rdzvNodes := .empty
          lastcallTime := env.now } := if_neg known
    simp only [joined, if_neg known]
    constructor
    · rintro ⟨r, node⟩ mem
      rcases Dict.mem_items_insert.mp mem with ⟨rfl, rfl⟩ | ⟨-, mem⟩
      · rfl
      · exact h.ranked _ mem
    · intro r hr
      exact absurd hr (Dict.not_mem_empty r)
    · rintro ⟨r, node⟩ mem
      rcases Dict.mem_items_insert.mp mem with ⟨rfl, rfl⟩ | ⟨ne, mem⟩
      · exact List.mem_cons_self
      · apply List.mem_cons_of_mem
        rw [List.mem_filter]
        exact ⟨h.waiting _ mem, by simpa using ne⟩
    · intro e he node mem
      rcases Dict.mem_items_insert.mp mem with ⟨eq, rfl⟩ | ⟨ne, mem⟩
      · rcases List.mem_cons.mp he with rfl | he
        · rfl
        · have := (List.mem_filter.mp he).2
          simp [eq] at this
      · rcases List.mem_cons.mp he with rfl | he
        · exact absurd rfl ne
        · exact h.sameId e (List.mem_filter.mp he).1 node mem
    · -- only the joining node may have been pending in the world that is thrown away
      intro e he
      left
      rw [Dict.mem_insert]
      rcases List.mem_cons.mp he with rfl | he
      · exact .inl rfl
      · rcases List.mem_filter.mp he with ⟨he, ne⟩
        rcases h.held e he with waits | member
        · exact .inr waits
        · exact .inl (ok known e he member)
    · intro r hr
      exact absurd hr (Dict.not_mem_empty r)
    · intro x hx r hr
      rcases h.answered x hx r hr with handed | ⟨k, hk, again⟩ | gone | current
      · exact .inl handed
      · exact .inr (.inl ⟨k, hk, List.mem_append_left _ again⟩)
      · exact .inr (.inr (.inl gone))
      · rw [current] at hr ⊢
        rcases h.members r hr with ⟨id, waits⟩ | handed | gone
        · have eq : r = req.nodeRank := ok known _ waits hr
          exact .inr (.inl ⟨s.manager.rdzvRound, le_refl _, by simp [eq]⟩)
        · exact .inl handed
        · exact .inr (.inr (.inl gone))

/-! ### Removals -/

/-- Dropped nodes are forgotten, or were not pending. -/
theorem Keeps.drop {s : TrainingSystem} (h : Keeps s) {gone : Int → Bool} {m : RdzvManager}
    (drops : RdzvManager.Drops (gone · = true) s.manager m) :
    Keeps { s.forget gone m.waitingNodes with manager := m } := by
  rcases drops.same with ⟨rdzvNodes, round, -⟩
  have forgotten : ∀ e ∈ s.pending,
      e ∈ (s.forget gone m.waitingNodes).pending ∨
        (e.1, s.manager.rdzvRound) ∈ (s.forget gone m.waitingNodes).removed := by
    intro e he
    simp only [forget, List.mem_filter, List.mem_append, List.mem_map]
    by_cases keep : (!gone e.2 || decide (e.1 ∈ m.waitingNodes)) = true
    · exact .inl ⟨he, keep⟩
    · exact .inr (.inr ⟨e, ⟨he, by simpa using keep⟩, rfl⟩)
  constructor
  · intro e he
    exact h.ranked e (drops.mem_items he)
  · intro r hr waits
    simp only [rdzvNodes] at hr
    exact h.disjoint r hr (drops.mem waits)
  · intro e he
    rw [forget, List.mem_filter]
    exact ⟨h.waiting e (drops.mem_items he), by simp [Dict.mem_of_mem_items he]⟩
  · intro e he node mem
    exact h.sameId e (List.mem_filter.mp he).1 node (drops.mem_items mem)
  · intro e he
    rcases List.mem_filter.mp he with ⟨he, keep⟩
    rcases h.held e he with waits | member
    · by_cases still : e.1 ∈ m.waitingNodes
      · exact .inl still
      · -- the node left, so its id is gone
        rcases Dict.mem_iff.mp waits with ⟨node, mem⟩
        have lost := drops.removed _ mem still
        rw [h.sameId e he node mem] at lost
        simp [lost, still] at keep
    · right
      rw [rdzvNodes]
      exact member
  · intro r hr
    simp only [rdzvNodes, round] at hr ⊢
    rcases h.members r hr with ⟨id, pending⟩ | handed | ⟨k, hk, removed⟩
    · rcases forgotten _ pending with keep | removed
      · exact .inl ⟨id, keep⟩
      · exact .inr (.inr ⟨_, le_refl _, removed⟩)
    · exact .inr (.inl handed)
    · exact .inr (.inr ⟨k, hk, List.mem_append_left _ removed⟩)
  · intro x hx r hr
    rcases h.answered x hx r hr with handed | again | ⟨k, hk, removed⟩ | current
    · exact .inl handed
    · exact .inr (.inl again)
    · exact .inr (.inr (.inl ⟨k, hk, List.mem_append_left _ removed⟩))
    · refine .inr (.inr (.inr ?_))
      simp only [rdzvNodes, round]
      exact current

/-! ### Polls -/

/-- Handing out the world that is there. -/
theorem Keeps.hand {s : TrainingSystem} (h : Keeps s) (r : Int) :
    Keeps (s.hand r (.ok ⟨s.manager.rdzvRound, 0, s.manager.rdzvNodes⟩)) := by
  have pending : ∀ e ∈ s.pending,
      e ∈ (s.hand r (.ok ⟨s.manager.rdzvRound, 0, s.manager.rdzvNodes⟩)).pending ∨
        e.1 = r ∧ r ∈ s.manager.rdzvNodes := by
    intro e he
    simp only [TrainingSystem.hand]
    by_cases member : r ∈ s.manager.rdzvNodes
    · by_cases asker : e.1 = r
      · exact .inr ⟨asker, member⟩
      · left
        rw [if_pos member, List.mem_filter]
        exact ⟨he, by simpa using asker⟩
    · left
      rw [if_neg member]
      exact he
  have subset : ∀ e ∈ (s.hand r (.ok ⟨s.manager.rdzvRound, 0, s.manager.rdzvNodes⟩)).pending,
      e ∈ s.pending := by
    intro e he
    simp only [TrainingSystem.hand] at he
    split at he
    · exact (List.mem_filter.mp he).1
    · exact he
  constructor
  · exact h.ranked
  · exact h.disjoint
  · intro e he
    rcases pending _ (h.waiting e he) with keep | ⟨asker, member⟩
    · exact keep
    · rw [← asker] at member
      exact absurd (Dict.mem_of_mem_items he) (h.disjoint _ member)
  · exact fun e he ↦ h.sameId e (subset e he)
  · exact fun e he ↦ h.held e (subset e he)
  · intro q hq
    rcases h.members q hq with ⟨id, waits⟩ | handed | removed
    · rcases pending _ waits with keep | ⟨rfl, -⟩
      · exact .inl ⟨id, keep⟩
      · exact .inr (.inl (List.mem_append_right _ (List.mem_singleton.mpr rfl)))
    · exact .inr (.inl (List.mem_append_left _ handed))
    · exact .inr (.inr removed)
  · intro x hx q hq
    rcases List.mem_append.mp hx with hx | hx
    · rcases h.answered x hx q hq with handed | rest
      · exact .inl (List.mem_append_left _ handed)
      · exact .inr rest
    · rw [List.mem_singleton.mp hx]
      exact .inr (.inr (.inr rfl))

/-- Nothing was formed: the new manager has the same waiting nodes and no world. -/
theorem Keeps.idle {s : TrainingSystem} (h : Keeps s) {m : RdzvManager}
    (noWorld : s.manager.rdzvNodes.items = []) (noWorld' : m.rdzvNodes.items = [])
    (waiting : m.waitingNodes = s.manager.waitingNodes) : Keeps { s with manager := m } := by
  have none := Dict.not_mem_of_items noWorld
  have none' := Dict.not_mem_of_items noWorld'
  constructor
  · simp only [waiting]
    exact h.ranked
  · exact fun r hr ↦ absurd hr (none' r)
  · simp only [waiting]
    exact h.waiting
  · simp only [waiting]
    exact h.sameId
  · intro e he
    simp only [waiting]
    exact .inl ((h.held e he).resolve_right (none e.1))
  · exact fun r hr ↦ absurd hr (none' r)
  · intro x hx r hr
    rcases h.answered x hx r hr with handed | again | removed | current
    · exact .inl handed
    · exact .inr (.inl again)
    · exact .inr (.inr (.inl removed))
    · rw [current] at hr
      exact absurd hr (none r)

/-- A world is formed from pending nodes. -/
theorem Keeps.formed {s : TrainingSystem} (h : Keeps s) {num : Int} {world : NodeMap}
    (noWorld : s.manager.rdzvNodes.items = [])
    (sorted : sortNodes (s.manager.complete num).rdzvNodes = .ok world)
    (formedWorlds : List (Nat × NodeMap × NodeMap)) :
    Keeps { s with
      manager := s.manager.formed num world
      formedWorlds := formedWorlds } := by
  have none := Dict.not_mem_of_items noWorld
  have ranked : Ranked (s.manager.complete num).rdzvNodes := by
    intro e he
    exact h.ranked e (RdzvManager.mem_waiting_of_mem_complete he)
  have member : ∀ r, r ∈ world ↔ r ∈ s.manager.chosen num := by
    intro r
    rw [← RdzvManager.mem_complete_rdzvNodes]
    exact ((sortNodes_spec ranked sorted).1.perm.map Prod.fst).mem_iff
  constructor
  · intro e he
    simp only [RdzvManager.formed, RdzvManager.complete_waiting_items] at he
    exact h.ranked e (List.mem_filter.mp he).1
  · intro r hr waits
    exact (RdzvManager.mem_complete_waiting.mp waits).2 ((member r).mp hr)
  · intro e he
    simp only [RdzvManager.formed, RdzvManager.complete_waiting_items] at he
    exact h.waiting e (List.mem_filter.mp he).1
  · intro e he node mem
    simp only [RdzvManager.formed, RdzvManager.complete_waiting_items] at mem
    exact h.sameId e he node (List.mem_filter.mp mem).1
  · intro e he
    have waits := (h.held e he).resolve_right (none e.1)
    by_cases taken : e.1 ∈ s.manager.chosen num
    · exact .inr ((member e.1).mpr taken)
    · exact .inl (RdzvManager.mem_complete_waiting.mpr ⟨waits, taken⟩)
  · intro r hr
    rcases Dict.mem_iff.mp (RdzvManager.mem_of_mem_chosen ((member r).mp hr)) with ⟨node, mem⟩
    exact .inl ⟨node.nodeId, h.waiting _ mem⟩
  · intro x hx r hr
    rcases h.answered x hx r hr with handed | again | removed | current
    · exact .inl handed
    · exact .inr (.inl again)
    · exact .inr (.inr (.inl removed))
    · rw [current] at hr
      exact absurd hr (none r)

/-- The failed nodes that a poll finds are gone by their id. -/
theorem dropFailed_drops_waiting (m : RdzvManager) (failed : Int → Bool) :
    RdzvManager.Drops (fun nodeId ↦ (failed nodeId &&
      decide (nodeId ∈ m.waitingNodes.values.map NodeTopologyMeta.nodeId)) = true)
      m (m.dropFailed failed) := by
  have drops := m.dropFailed_drops failed
  refine ⟨drops.frame, drops.sublist, ?_⟩
  intro e he lost
  have mem : e.2.nodeId ∈ m.waitingNodes.values.map NodeTopologyMeta.nodeId :=
    List.mem_map_of_mem (List.mem_map_of_mem he)
  rw [drops.removed e he lost, Bool.true_and]
  exact decide_eq_true mem

theorem Keeps.getCommWorld {s t : TrainingSystem} (h : Keeps s) {r : Int} {env : Env}
    (taken : s.step (.getCommWorld r env) = some t) : Keeps t := by
  have dropped := h.drop (dropFailed_drops_waiting s.manager env.failed)
  rcases (s.manager.dropFailed_drops env.failed).same with ⟨rdzvNodes, round, -⟩
  rcases s.getCommWorld_cases r env with
    ⟨-, eq⟩ | ⟨noWorld, answer, m, idle, eq⟩ | ⟨num, world, noWorld, -, -, sorted, eq⟩
  · rw [eq] at taken
    cases taken
    exact h.hand r
  · have kept := dropped.idle (m := m) (by simpa only [rdzvNodes] using noWorld) idle.noWorld
      idle.waiting
    rw [eq] at taken
    cases taken
    simp only [poll, if_pos noWorld]
    cases answer with
    | error e => exact kept
    | ok ans =>
      rw [(idle.answer_eq ans rfl).1]
      exact kept.hand r
  · have kept := dropped.formed (by simpa only [rdzvNodes] using noWorld) sorted
    rw [eq] at taken
    cases taken
    simp only [poll, if_pos noWorld]
    rw [← round]
    exact (kept _).hand r

theorem Keeps.step {s t : TrainingSystem} {a : TrainingAct} (h : Keeps s) (ok : s.Undisturbed a)
    (taken : s.step a = some t) : Keeps t := by
  cases a with
  | join req env => exact h.join ok taken
  | getCommWorld r env => exact h.getCommWorld taken
  | removeAliveNode nodeId =>
    cases taken
    apply h.drop
    have drops := s.manager.removeAliveNode_drops nodeId
    exact ⟨drops.frame, drops.sublist, fun e he lost ↦ by simpa using drops.removed e he lost⟩
  | clearWaitingNodes => exact ok.elim
  | updateRdzvParams minNodes maxNodes waitingTimeout nodeUnit =>
    cases taken
    unfold RdzvManager.updateRdzvParams
    split <;>
      exact ⟨h.ranked, h.disjoint, h.waiting, h.sameId, h.held, h.members, h.answered⟩
  | setRdzvBlocked blocked =>
    cases taken
    exact ⟨h.ranked, h.disjoint, h.waiting, h.sameId, h.held, h.members, h.answered⟩

/-- In an undisturbed run a joined node stays in one of the two maps until it is handed a world
or removed, and each member of a world handed out is accounted for. -/
theorem joined_kept {acts : List TrainingAct} {s : TrainingSystem}
    (run : Run step Undisturbed init acts s) :
    (∀ e ∈ s.pending, e.1 ∈ s.manager.waitingNodes ∨ e.1 ∈ s.manager.rdzvNodes) ∧
    ∀ x ∈ s.answers, ∀ r ∈ x.2.world, s.Accounted x.2 r := by
  have keeps : Keeps s := run.invariant init_keeps fun _ _ _ h ok taken ↦ h.step ok taken
  exact ⟨keeps.held, keeps.answered⟩

/-! ### Two nodes and a third -/

/-- Nodes 0 and 1 fill the world and node 0 polls first. -/
def firstPoll : List TrainingAct :=
  [.updateRdzvParams 2 2 30 1, joinNode 0 10, joinNode 1 11, .getCommWorld 0 (quietEnv 12)]

theorem joined_kept_polled : ∃ s, Run step Undisturbed init
      (firstPoll ++ [.getCommWorld 1 (quietEnv 13), joinNode 2 14]) s ∧
    (2, 2) ∈ s.pending ∧ (2 ∈ s.manager.waitingNodes ∨ 2 ∈ s.manager.rdzvNodes) := by
  have eval : (List.foldlM (fun s a ↦ if Undisturbed s a then step s a else none) init
      (firstPoll ++ [.getCommWorld 1 (quietEnv 13), joinNode 2 14])).map
      (fun s ↦ decide ((2, 2) ∈ s.pending)) = some true := by
    decide +kernel
  rcases Option.map_eq_some_iff.mp eval with ⟨s, hs, holds⟩
  have run := run_of_guarded hs
  have pending := of_decide_eq_true holds
  exact ⟨s, run, pending, (joined_kept run).1 _ pending⟩

/-- Node 2 joins before node 1 polls: node 1 is in neither map and never gets its world. -/
theorem joined_lost : ∃ s, Run step anyStep init (firstPoll ++ [joinNode 2 13]) s ∧
    ((1, 1) ∈ s.pending ∧ 1 ∉ s.manager.waitingNodes ∧ 1 ∉ s.manager.rdzvNodes) ∧
    ∃ x ∈ s.answers, 1 ∈ x.2.world ∧ ¬ s.Accounted x.2 1 := by
  have eval : (List.foldlM step init (firstPoll ++ [joinNode 2 13])).map (fun s ↦ decide (
      ((1, 1) ∈ s.pending ∧ 1 ∉ s.manager.waitingNodes ∧ 1 ∉ s.manager.rdzvNodes) ∧
      ∃ x ∈ s.answers, 1 ∈ x.2.world ∧ (1, x.2) ∉ s.answers ∧
        (∀ e ∈ s.joined, e.1 = 1 → e.2 < x.2.round) ∧ s.removed = [])) = some true := by
    decide +kernel
  rcases Option.map_eq_some_iff.mp eval with ⟨s, hs, holds⟩
  rcases of_decide_eq_true holds with ⟨lost, x, hx, member, unhanded, once, kept⟩
  refine ⟨s, run_of_foldlM hs, lost, x, hx, member, ?_⟩
  rintro (handed | ⟨k, hk, again⟩ | ⟨k, hk, gone⟩ | current)
  · exact unhanded handed
  · have := once _ again rfl
    simp only at this
    omega
  · rw [kept] at gone
    cases gone
  · rw [current] at member
    exact lost.2.2 member

end TrainingSystem

end ProbingBaselines.Dlrover
