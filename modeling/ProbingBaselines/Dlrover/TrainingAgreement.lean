import ProbingBaselines.Dlrover.ElasticTraining
import ProbingBaselines.Dlrover.RankAssignment

/-!
# Agreement on the training world

All answers of one round that carry a world carry the same one, in the same order, in every run of
the training manager, and rounds never go back. The agents compute the global ranks of their
workers from that world alone (`training.py:980-1071`), so together they number all workers.
-/

namespace ProbingBaselines.Dlrover

open Lib

/-- The chosen nodes in the order of a formed world: nodes of one access switch together, those of
the lowest rank's switch first. -/
structure Grouped (chosen world : NodeMap) : Prop where
  perm : world.items.Perm chosen.items
  contiguous : Contiguous NodeTopologyMeta.asw world.values
  lowestFirst : ∃ low ∈ world.values, (∀ node ∈ world.values, low.nodeRank ≤ node.nodeRank) ∧
    ∃ asw0Nodes otherNodes, world.values = asw0Nodes ++ otherNodes ∧
      (∀ node ∈ asw0Nodes, node.asw = low.asw) ∧ ∀ node ∈ otherNodes, node.asw ≠ low.asw

/-- A completion lists the chosen nodes by rank, so the first one has the lowest. -/
theorem grouped_complete {m : RdzvManager} {num : Int} {world : NodeMap}
    (ranked : Ranked m.waitingNodes)
    (sorted : sortNodes (m.complete num).rdzvNodes = .ok world) :
    Grouped (m.complete num).rdzvNodes world := by
  have ranked' : Ranked (m.complete num).rdzvNodes :=
    fun e he ↦ ranked e (RdzvManager.mem_waiting_of_mem_complete he)
  rcases (sortNodes_spec ranked' sorted).1 with
    ⟨perm, contiguous, low, rest, asw0Nodes, otherNodes, values, split, first, others⟩
  have members : ∀ node, node ∈ world.values ↔ node ∈ (m.complete num).rdzvNodes.values :=
    fun node ↦ (perm.map Prod.snd).mem_iff
  have order : ((m.complete num).rdzvNodes.values.map NodeTopologyMeta.nodeRank).Pairwise
      (· ≤ ·) := by
    have ranks : (m.complete num).rdzvNodes.values.map NodeTopologyMeta.nodeRank =
        m.chosen num := by
      rw [← m.complete_keys num, Dict.values, Dict.keys, List.map_map]
      exact List.map_congr_left ranked'
    rw [ranks]
    exact (List.pairwise_insertionSort (· ≤ ·) _).sublist (List.take_sublist _ _)
  refine ⟨perm, contiguous, low, ?_, ?_, asw0Nodes, otherNodes, split, first, others⟩
  · rw [members, values]
    exact List.mem_cons_self
  · intro node hnode
    rw [members, values] at hnode
    rw [values, List.map_cons, List.pairwise_cons] at order
    rcases List.mem_cons.mp hnode with rfl | hnode
    · exact le_refl _
    · exact order.1 _ (List.mem_map_of_mem hnode)

namespace TrainingSystem

/-- What every state of a run satisfies. -/
structure Agrees (s : TrainingSystem) : Prop where
  ranked : Ranked s.manager.waitingNodes
  current : s.manager.rdzvNodes.items ≠ [] →
    ∃ chosen, (s.manager.rdzvRound, chosen, s.manager.rdzvNodes) ∈ s.formedWorlds
  rounds : ∀ f ∈ s.formedWorlds, f.1 ≤ s.manager.rdzvRound
  increasing : s.formedWorlds.Pairwise fun f g ↦ f.1 < g.1
  grouped : ∀ f ∈ s.formedWorlds, Grouped f.2.1 f.2.2
  answered : ∀ x ∈ s.answers, x.2.world.items ≠ [] →
    ∃ chosen, (x.2.round, chosen, x.2.world) ∈ s.formedWorlds
  answerRounds : ∀ x ∈ s.answers, x.2.round ≤ s.manager.rdzvRound
  monotone : s.answers.Pairwise fun x y ↦ x.2.round ≤ y.2.round

theorem init_agrees : Agrees init := by
  constructor <;> simp [init, RdzvManager.init, Ranked]

/-- A step that gives no answer and forms no world keeps the agreement, if the world stays or is
thrown away. -/
theorem Agrees.silent {s t : TrainingSystem} (h : Agrees s)
    (ranked : Ranked t.manager.waitingNodes) (round : s.manager.rdzvRound ≤ t.manager.rdzvRound)
    (world : t.manager.rdzvNodes.items ≠ [] →
      t.manager.rdzvNodes = s.manager.rdzvNodes ∧ t.manager.rdzvRound = s.manager.rdzvRound)
    (answers : t.answers = s.answers) (formedWorlds : t.formedWorlds = s.formedWorlds) :
    Agrees t := by
  constructor
  · exact ranked
  · intro there
    rcases world there with ⟨nodes, same⟩
    rw [nodes] at there
    rw [nodes, same, formedWorlds]
    exact h.current there
  · intro f hf
    rw [formedWorlds] at hf
    exact (h.rounds f hf).trans round
  · rw [formedWorlds]
    exact h.increasing
  · rw [formedWorlds]
    exact h.grouped
  · rw [answers, formedWorlds]
    exact h.answered
  · intro x hx
    rw [answers] at hx
    exact (h.answerRounds x hx).trans round
  · rw [answers]
    exact h.monotone

/-- Handing out the world that is there. -/
theorem Agrees.hand {s : TrainingSystem} (h : Agrees s) (r : Int) :
    Agrees (s.hand r (.ok ⟨s.manager.rdzvRound, 0, s.manager.rdzvNodes⟩)) := by
  constructor
  · exact h.ranked
  · exact h.current
  · exact h.rounds
  · exact h.increasing
  · exact h.grouped
  · intro x hx
    rcases List.mem_append.mp hx with hx | hx
    · exact h.answered x hx
    · rw [List.mem_singleton.mp hx]
      exact h.current
  · intro x hx
    rcases List.mem_append.mp hx with hx | hx
    · exact h.answerRounds x hx
    · rw [List.mem_singleton.mp hx]
      exact le_refl _
  · simp only [TrainingSystem.hand, List.pairwise_append, List.pairwise_singleton, true_and]
    refine ⟨h.monotone, ?_⟩
    intro x hx y hy
    rw [List.mem_singleton.mp hy]
    exact h.answerRounds x hx

/-- A new world gets a new round. -/
theorem Agrees.formed {s : TrainingSystem} (h : Agrees s) {num : Int} {world : NodeMap}
    (sorted : sortNodes (s.manager.complete num).rdzvNodes = .ok world) :
    Agrees { s with
      manager := s.manager.formed num world
      formedWorlds := s.formedWorlds ++ [(s.manager.rdzvRound + 1,
        (s.manager.complete num).rdzvNodes, world)] } := by
  constructor
  · intro e he
    simp only [RdzvManager.formed, RdzvManager.complete_waiting_items] at he
    exact h.ranked e (List.mem_filter.mp he).1
  · intro _
    exact ⟨_, List.mem_append_right _ (List.mem_singleton.mpr rfl)⟩
  · intro f hf
    rcases List.mem_append.mp hf with hf | hf
    · exact (h.rounds f hf).trans (Nat.le_succ _)
    · rw [List.mem_singleton.mp hf]
      exact le_refl _
  · simp only [List.pairwise_append, List.pairwise_singleton, true_and]
    refine ⟨h.increasing, ?_⟩
    intro f hf g hg
    rw [List.mem_singleton.mp hg]
    exact Nat.lt_succ_of_le (h.rounds f hf)
  · intro f hf
    rcases List.mem_append.mp hf with hf | hf
    · exact h.grouped f hf
    · rw [List.mem_singleton.mp hf]
      exact grouped_complete h.ranked sorted
  · intro x hx there
    rcases h.answered x hx there with ⟨chosen, mem⟩
    exact ⟨chosen, List.mem_append_left _ mem⟩
  · intro x hx
    exact (h.answerRounds x hx).trans (Nat.le_succ _)
  · exact h.monotone

theorem Agrees.getCommWorld {s t : TrainingSystem} (h : Agrees s) {r : Int} {env : Env}
    (taken : s.step (.getCommWorld r env) = some t) : Agrees t := by
  have drops := s.manager.dropFailed_drops env.failed
  rcases drops.same with ⟨-, round, -⟩
  have ranked : Ranked (s.manager.dropFailed env.failed).waitingNodes :=
    fun e he ↦ h.ranked e (drops.mem_items he)
  rcases s.getCommWorld_cases r env with
    ⟨-, eq⟩ | ⟨noWorld, answer, m, idle, eq⟩ | ⟨num, world, noWorld, -, -, sorted, eq⟩
  · rw [eq] at taken
    cases taken
    exact h.hand r
  · have kept : Agrees { s.poll env with manager := m } := by
      apply h.silent
      · rw [idle.waiting]
        exact ranked
      · exact idle.round
      · exact fun there ↦ absurd idle.noWorld there
      · simp only [poll, if_pos noWorld, forget]
      · simp only [poll, if_pos noWorld, forget]
    have worlds : (s.poll env).formedWorlds = s.formedWorlds := by
      simp only [poll, if_pos noWorld, forget]
    rw [eq, ← worlds] at taken
    cases taken
    cases answer with
    | error e => exact kept
    | ok ans =>
      rw [(idle.answer_eq ans rfl).1]
      exact kept.hand r
  · have dropped : Agrees { s.poll env with manager := s.manager.dropFailed env.failed } := by
      apply h.silent
      · exact ranked
      · exact round.ge
      · exact fun _ ↦ ⟨drops.same.1, round⟩
      · simp only [poll, if_pos noWorld, forget]
      · simp only [poll, if_pos noWorld, forget]
    have kept := dropped.formed sorted
    have worlds : (s.poll env).formedWorlds = s.formedWorlds := by
      simp only [poll, if_pos noWorld, forget]
    rw [eq, ← worlds, ← round] at taken
    cases taken
    exact kept.hand r

theorem Agrees.step {s t : TrainingSystem} {a : TrainingAct} (h : Agrees s)
    (taken : s.step a = some t) : Agrees t := by
  have ranked := step_ranked taken h.ranked
  cases a with
  | join req env =>
    cases taken
    apply h.silent ranked
    · simp only [RdzvManager.joinRendezvous]
      split <;> exact le_refl _
    · simp only [RdzvManager.joinRendezvous]
      split
      · exact fun _ ↦ ⟨rfl, rfl⟩
      · exact fun there ↦ absurd rfl there
    · rfl
    · rfl
  | getCommWorld r env => exact h.getCommWorld taken
  | removeAliveNode nodeId =>
    rcases (s.manager.removeAliveNode_drops nodeId).same with ⟨nodes, round, -⟩
    cases taken
    exact h.silent ranked round.ge (fun _ ↦ ⟨nodes, round⟩) rfl rfl
  | clearWaitingNodes =>
    cases taken
    exact h.silent ranked (le_refl _) (fun _ ↦ ⟨rfl, rfl⟩) rfl rfl
  | updateRdzvParams minNodes maxNodes waitingTimeout nodeUnit =>
    cases taken
    apply h.silent ranked
    · simp only [RdzvManager.updateRdzvParams]
      split <;> exact le_refl _
    · simp only [RdzvManager.updateRdzvParams]
      split <;> exact fun _ ↦ ⟨rfl, rfl⟩
    · rfl
    · rfl
  | setRdzvBlocked blocked =>
    cases taken
    exact h.silent ranked (le_refl _) (fun _ ↦ ⟨rfl, rfl⟩) rfl rfl

theorem run_agrees {acts : List TrainingAct} {s : TrainingSystem}
    (run : Run step anyStep init acts s) : Agrees s :=
  run.invariant init_agrees fun _ _ _ h _ taken ↦ h.step taken

/-- One round forms one world. -/
theorem Agrees.formed_unique {s : TrainingSystem} (h : Agrees s)
    {f g : Nat × NodeMap × NodeMap} (hf : f ∈ s.formedWorlds) (hg : g ∈ s.formedWorlds)
    (round : f.1 = g.1) : f = g := by
  have nodup : (s.formedWorlds.map Prod.fst).Nodup :=
    List.pairwise_map.mpr (h.increasing.imp fun lt ↦ ne_of_lt lt)
  exact List.inj_on_of_nodup_map nodup hf hg round

theorem Agrees.same_world {s : TrainingSystem} (h : Agrees s) {x y : Int × CommWorld}
    (hx : x ∈ s.answers) (hy : y ∈ s.answers) (round : x.2.round = y.2.round)
    (nx : x.2.world.items ≠ []) (ny : y.2.world.items ≠ []) : x.2.world = y.2.world := by
  rcases h.answered x hx nx with ⟨c, hc⟩
  rcases h.answered y hy ny with ⟨d, hd⟩
  have eq := h.formed_unique hc hd round
  exact congrArg (fun f : Nat × NodeMap × NodeMap ↦ f.2.2) eq

/-! ### The agents' ranks -/

/-- The world that the servicer sends; `servicer.py:386-387`. -/
def processNums (nodes : NodeMap) : Dict Int Nat := nodes.mapValues NodeTopologyMeta.processNum

/-- The agents of a world, each with its own copy of it, its own role and its own number of
workers, give the workers the numbers below one common world size, each once. -/
structure Numbered (ops : RoleInstanceOps) (world : NodeMap) (copy : Int → NodeMap)
    (role : Int → String) (localWorldSize : Int → Nat) : Prop where
  assigned : ∀ r ∈ world, ∃ workers,
    assignWorkerRanks ops r (processNums (copy r)) (role r) (localWorldSize r) = some workers ∧
    ∀ worker ∈ workers, worker.worldSize = (processNums world).values.sum
  disjoint : (world.keys.map fun r ↦ globalRanks ops r (processNums (copy r)) (role r)
    (localWorldSize r)).Pairwise List.Disjoint
  all : (world.keys.map fun r ↦ globalRanks ops r (processNums (copy r)) (role r)
    (localWorldSize r)).flatten = List.range (processNums world).values.sum

theorem numbered_of_copies (ops : RoleInstanceOps) {world : NodeMap} {copy : Int → NodeMap}
    (role : Int → String) {localWorldSize : Int → Nat} (same : ∀ r ∈ world, copy r = world)
    (sizes : ∀ e ∈ world.items, e.2.processNum = localWorldSize e.1) :
    Numbered ops world copy role localWorldSize := by
  have ranks : (world.keys.map fun r ↦ globalRanks ops r (processNums (copy r)) (role r)
        (localWorldSize r)) =
      (processNums world).items.map fun e ↦ globalRanks ops e.1 (processNums world) (role e.1)
        e.2 := by
    rw [Dict.keys, processNums, Dict.mapValues, List.map_map, List.map_map]
    apply List.map_congr_left
    intro e he
    simp only [Function.comp_apply]
    rw [same e.1 (Dict.mem_of_mem_items he), sizes e he]
    rfl
  have all := globalRanks_flatten ops (processNums world) role
  constructor
  · intro r hr
    rcases Dict.mem_iff.mp hr with ⟨node, hnode⟩
    rcases List.getElem?_of_mem hnode with ⟨i, hi⟩
    have item : (processNums world).items[i]? = some (r, localWorldSize r) := by
      rw [processNums, Dict.mapValues, List.getElem?_map, hi, ← sizes _ hnode]
      rfl
    refine ⟨blockWorkers (processNums world).values i (localWorldSize r), ?_, ?_⟩
    · rw [same r hr]
      exact assignWorkerRanks_eq ops item (role r)
    · intro worker hworker
      rcases List.mem_map.mp hworker with ⟨ind, -, rfl⟩
      rfl
  · rw [ranks]
    have nodup := List.nodup_range (n := (processNums world).values.sum)
    rw [← all, List.nodup_flatten] at nodup
    exact nodup.2
  · rw [ranks]
    exact all

/-- Answers of one round agree, rounds do not decrease, a world is the chosen nodes grouped by
access switch, and the agents of a round number their workers without gap or overlap. -/
theorem rendezvous_agreement {acts : List TrainingAct} {s : TrainingSystem}
    (run : Run step anyStep init acts s) :
    (∀ x ∈ s.answers, ∀ y ∈ s.answers, x.2.round = y.2.round →
      x.2.world.items ≠ [] → y.2.world.items ≠ [] → x.2.world = y.2.world) ∧
    (s.answers.Pairwise fun x y ↦ x.2.round ≤ y.2.round) ∧
    (∀ x ∈ s.answers, x.2.world.items ≠ [] →
      ∃ chosen, (x.2.round, chosen, x.2.world) ∈ s.formedWorlds ∧ Grouped chosen x.2.world) ∧
    ∀ x ∈ s.answers, x.2.world.items ≠ [] → ∀ copy : Int → CommWorld,
      (∀ r ∈ x.2.world, (∃ asker, (asker, copy r) ∈ s.answers) ∧
        (copy r).round = x.2.round ∧ (copy r).world.items ≠ []) →
      ∀ (ops : RoleInstanceOps) (role : Int → String) (localWorldSize : Int → Nat),
        (∀ e ∈ x.2.world.items, e.2.processNum = localWorldSize e.1) →
        Numbered ops x.2.world (fun r ↦ (copy r).world) role localWorldSize := by
  have agrees := run_agrees run
  refine ⟨?_, agrees.monotone, ?_, ?_⟩
  · intro x hx y hy round nx ny
    exact agrees.same_world hx hy round nx ny
  · intro x hx nx
    rcases agrees.answered x hx nx with ⟨chosen, mem⟩
    exact ⟨chosen, mem, agrees.grouped _ mem⟩
  · intro x hx nx copy copies ops role localWorldSize sizes
    apply numbered_of_copies ops role _ sizes
    intro r hr
    rcases copies r hr with ⟨⟨asker, mem⟩, round, nonempty⟩
    exact agrees.same_world mem hx round nonempty nx

/-- Three nodes, the first and the last behind one switch. -/
def threeNodes : List TrainingAct :=
  let env (now : ℚ) (asw : String) : Env :=
    ⟨now, fun _ ↦ (asw, ""), fun _ ↦ (-1, 0, ""), fun _ ↦ false⟩
  [.updateRdzvParams 3 3 30 1, .join ⟨2, 2, 8, ""⟩ (env 10 "a"), .join ⟨0, 0, 8, ""⟩ (env 11 "a"),
    .join ⟨1, 1, 8, ""⟩ (env 12 "b"), .getCommWorld 1 (quietEnv 13)]

theorem rendezvous_agreement_three : ∃ s, Run step anyStep init threeNodes s ∧
    ∃ x ∈ s.answers, x.2.world.keys = [0, 2, 1] ∧
      Numbered torchOps x.2.world (fun _ ↦ x.2.world) (fun _ ↦ "worker") fun _ ↦ 8 := by
  have eval : (threeNodes.foldlM step init).map (fun s ↦ decide (∃ x ∈ s.answers,
      x.2.world.keys = [0, 2, 1] ∧ ∀ e ∈ x.2.world.items, e.2.processNum = 8)) = some true := by
    decide +kernel
  rcases Option.map_eq_some_iff.mp eval with ⟨s, hs, holds⟩
  rcases of_decide_eq_true holds with ⟨x, hx, keys, sizes⟩
  have run := run_of_foldlM hs
  have nonempty : x.2.world.items ≠ [] := by
    intro empty
    rw [Dict.keys, empty] at keys
    cases keys
  have copies : ∀ r ∈ x.2.world, (∃ asker, (asker, x.2) ∈ s.answers) ∧
      x.2.round = x.2.round ∧ x.2.world.items ≠ [] :=
    fun _ _ ↦ ⟨⟨x.1, hx⟩, rfl, nonempty⟩
  exact ⟨s, run, x, hx, keys, (rendezvous_agreement run).2.2.2 x hx nonempty (fun _ ↦ x.2) copies
    torchOps (fun _ ↦ "worker") (fun _ ↦ 8) sizes⟩

end TrainingSystem

end ProbingBaselines.Dlrover
