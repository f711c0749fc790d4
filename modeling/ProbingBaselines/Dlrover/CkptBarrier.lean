import Mathlib.Data.List.Dedup
import Mathlib.Data.List.Perm.Subperm
import ProbingBaselines.Dlrover.ElasticTraining

/-!
# The checkpoint barrier of the rendezvous manager

Before an agent persists the state dict that it holds in memory it asks the master until every
node of the training world has reported the same step (`ckpt_saver.py:854-873`,
`servicer.py:781-787`). The master answers from `_save_ckpt_nodes`, which lives as long as the job,
and compares only its size with the latest world (`rdzv_manager.py:429-436`). The system below adds
to the training rendezvous what the answer is about: the node ids of the latest formed world, the
reports made since it was formed, and the nodes whose entry is older than it.
-/

namespace ProbingBaselines.Dlrover

open Lib

/-- `worldNodes` holds the node ids of the latest formed world, `reports` the node id and step of
each report since, and `stale` the nodes whose entry in `_save_ckpt_nodes` was there before. -/
structure CkptBarrier where
  training : TrainingSystem
  worldNodes : List Int
  reports : List (Int × Int)
  stale : List Int

inductive CkptBarrierAct where
  | rendezvous (a : TrainingAct)
  | syncCkptNodes (nodeId step : Int)

namespace CkptBarrier

def init : CkptBarrier := ⟨.init, [], [], []⟩

/-- The nodes of the world that a step of the rendezvous forms, if it forms one. -/
def formedBy (s : TrainingSystem) : TrainingAct → Option NodeMap
  | .getCommWorld _ env => (s.manager.completions env).head?.map fun w ↦ w.2.1
  | _ => none

/-- Everything on record is older than a world that has just been formed. -/
def enterWorld (s : CkptBarrier) (nodes : NodeMap) : CkptBarrier :=
  { s with
    worldNodes := nodes.values.map NodeTopologyMeta.nodeId
    reports := []
    stale := s.training.manager.saveCkptNodes.keys }

def step (s : CkptBarrier) : CkptBarrierAct → Option CkptBarrier
  | .rendezvous a =>
    (s.training.step a).map fun training ↦
      let s' := match formedBy s.training a with
        | some nodes => s.enterWorld nodes
        | none => s
      { s' with training := training }
  | .syncCkptNodes nodeId step =>
    let manager := (s.training.manager.syncCkptNodes nodeId step).2
    some { s with
      training := { s.training with manager := manager }
      reports := s.reports ++ [(nodeId, step)]
      stale := s.stale.filter fun n ↦ n ≠ nodeId }

/-- The reporter is a node of the latest world, and no entry of another node that is older than
that world carries the reported step. -/
def FreshReport (s : CkptBarrier) : CkptBarrierAct → Prop
  | .rendezvous _ => True
  | .syncCkptNodes nodeId step => nodeId ∈ s.worldNodes ∧
    ∀ e ∈ s.training.manager.saveCkptNodes.items, e.1 ≠ nodeId → e.2 = step → e.1 ∉ s.stale

instance (s : CkptBarrier) : (a : CkptBarrierAct) → Decidable (s.FreshReport a)
  | .rendezvous _ => inferInstanceAs (Decidable True)
  | .syncCkptNodes _ _ => inferInstanceAs (Decidable (_ ∧ _))

/-! ### What a step of the rendezvous does to the barrier -/

/-- A removal of failed nodes touches neither the reports nor the latest world. -/
theorem dropFailed_ckpt (m : RdzvManager) (failed : Int → Bool) :
    (m.dropFailed failed).saveCkptNodes = m.saveCkptNodes ∧
      (m.dropFailed failed).latestRdzvNodes = m.latestRdzvNodes := by
  rw [(m.dropFailed_drops failed).frame]
  exact ⟨rfl, rfl⟩

/-- A poll keeps the reports. The ranks of the latest world are those of the world it forms; a
completion that took no node at all raises and leaves none. -/
theorem trainingCommWorld_ckpt (m : RdzvManager) (env : Env) :
    (m.trainingCommWorld env).2.saveCkptNodes = m.saveCkptNodes ∧
      ((m.completions env = [] ∧
        ((m.trainingCommWorld env).2.latestRdzvNodes = m.latestRdzvNodes ∨
          (m.trainingCommWorld env).2.latestRdzvNodes = [])) ∨
      ∃ round nodes world, m.completions env = [(round, nodes, world)] ∧
        (m.trainingCommWorld env).2.latestRdzvNodes = nodes.keys) := by
  have drop := dropFailed_ckpt m env.failed
  by_cases there : m.rdzvNodes.items = []
  · simp only [RdzvManager.trainingCommWorld, RdzvManager.completions, if_pos there]
    rcases m.checkRdzvCompleted_cases env with eq | ⟨e, eq, -⟩ | ⟨num, -, -, eq⟩
    · rw [eq]
      exact ⟨drop.1, .inl ⟨rfl, .inl drop.2⟩⟩
    · rw [eq]
      exact ⟨drop.1, .inl ⟨rfl, .inl drop.2⟩⟩
    · rw [eq]
      dsimp only
      cases sorted : sortNodes ((m.dropFailed env.failed).complete num).rdzvNodes with
      | error e =>
        refine ⟨drop.1, .inl ⟨rfl, .inr ?_⟩⟩
        show ((m.dropFailed env.failed).complete num).rdzvNodes.items.map Prod.fst = []
        rw [sortNodes_error sorted, List.map_nil]
      | ok world => exact ⟨drop.1, .inr ⟨_, _, world, rfl, rfl⟩⟩
  · rw [RdzvManager.trainingCommWorld, RdzvManager.completions, if_neg there, if_neg there]
    exact ⟨rfl, .inl ⟨rfl, .inl rfl⟩⟩

theorem removeAliveNode_ckpt (m : RdzvManager) (nodeId : Int) :
    (m.removeAliveNode nodeId).saveCkptNodes = m.saveCkptNodes ∧
      (m.removeAliveNode nodeId).latestRdzvNodes = m.latestRdzvNodes := by
  rw [(m.removeAliveNode_drops nodeId).frame]
  exact ⟨rfl, rfl⟩

/-- The same for every step of the rendezvous. -/
theorem training_step_ckpt {s t : TrainingSystem} {a : TrainingAct} (taken : s.step a = some t) :
    t.manager.saveCkptNodes = s.manager.saveCkptNodes ∧
      ((formedBy s a = none ∧ (t.manager.latestRdzvNodes = s.manager.latestRdzvNodes ∨
          t.manager.latestRdzvNodes = [])) ∨
      ∃ nodes, formedBy s a = some nodes ∧ t.manager.latestRdzvNodes = nodes.keys) := by
  cases a with
  | join req env =>
    cases taken
    simp only [RdzvManager.joinRendezvous]
    split <;> exact ⟨rfl, .inl ⟨rfl, .inl rfl⟩⟩
  | getCommWorld nodeRank env =>
    cases taken
    rcases trainingCommWorld_ckpt s.manager env with
      ⟨kept, ⟨none, latest⟩ | ⟨r, nodes, w, one, latest⟩⟩
    · refine ⟨kept, .inl ⟨?_, latest⟩⟩
      simp only [formedBy, none, List.head?_nil, Option.map_none]
    · refine ⟨kept, .inr ⟨nodes, ?_, latest⟩⟩
      simp only [formedBy, one, List.head?_cons, Option.map_some]
  | removeAliveNode nodeId =>
    cases taken
    have same := removeAliveNode_ckpt s.manager nodeId
    exact ⟨same.1, .inl ⟨rfl, .inl same.2⟩⟩
  | clearWaitingNodes =>
    cases taken
    exact ⟨rfl, .inl ⟨rfl, .inl rfl⟩⟩
  | updateRdzvParams minNodes maxNodes waitingTimeout nodeUnit =>
    cases taken
    simp only [RdzvManager.updateRdzvParams]
    split <;> exact ⟨rfl, .inl ⟨rfl, .inl rfl⟩⟩
  | setRdzvBlocked blocked =>
    cases taken
    exact ⟨rfl, .inl ⟨rfl, .inl rfl⟩⟩

/-! ### The barrier -/

/-- Every entry that is not older than the latest world is a report of one of its nodes. -/
structure Recorded (s : CkptBarrier) : Prop where
  size : s.training.manager.latestRdzvNodes = [] ∨
    s.training.manager.latestRdzvNodes.length = s.worldNodes.length
  fresh : ∀ e ∈ s.training.manager.saveCkptNodes.items, e.1 ∉ s.stale →
    e.1 ∈ s.worldNodes ∧ e ∈ s.reports

theorem step_recorded {s t : CkptBarrier} {a : CkptBarrierAct} (meets : s.FreshReport a)
    (taken : s.step a = some t) (h : s.Recorded) : t.Recorded := by
  cases a with
  | rendezvous a =>
    rcases Option.map_eq_some_iff.mp taken with ⟨training, hstep, rfl⟩
    rcases training_step_ckpt hstep with ⟨kept, ⟨none, latest⟩ | ⟨nodes, formed, latest⟩⟩
    · simp only [none]
      constructor
      · rcases latest with latest | latest
        · rw [latest]
          exact h.size
        · exact .inl latest
      · rw [kept]
        exact h.fresh
    · simp only [formed]
      constructor
      · right
        simp only [latest, enterWorld, List.length_map, Dict.keys, Dict.values]
      · intro e he young
        rw [kept] at he
        exact absurd (Dict.mem_of_mem_items he) young
  | syncCkptNodes nodeId step =>
    cases taken
    refine ⟨h.size, ?_⟩
    intro e he young
    rcases Dict.mem_items_insert.mp he with ⟨hid, hstep⟩ | ⟨other, he⟩
    · have eq : e = (nodeId, step) := Prod.ext hid hstep
      rw [eq]
      exact ⟨meets.1, List.mem_append_right _ List.mem_cons_self⟩
    · have old : e.1 ∉ s.stale := by
        intro mem
        exact young (List.mem_filter.mpr ⟨mem, decide_eq_true other⟩)
      rcases h.fresh e he old with ⟨member, report⟩
      exact ⟨member, List.mem_append_left _ report⟩

theorem run_recorded {s : CkptBarrier} {acts : List CkptBarrierAct}
    (run : Run step FreshReport init acts s) : s.Recorded := by
  apply run.invariant (P := Recorded)
  · exact ⟨.inl rfl, fun e he ↦ absurd he List.not_mem_nil⟩
  · intro t u a h meets taken
    exact step_recorded meets taken h

/-- What the answer `True` says: one step on record, and as many nodes as the world has. -/
theorem syncCkptNodes_true {m : RdzvManager} {nodeId step : Int}
    (answer : (m.syncCkptNodes nodeId step).1 = true) :
    (∀ e ∈ (m.saveCkptNodes.insert nodeId step).items, e.2 = step) ∧
      (m.saveCkptNodes.insert nodeId step).items.length = m.latestRdzvNodes.length := by
  simp only [RdzvManager.syncCkptNodes, Bool.and_eq_true, decide_eq_true_eq] at answer
  refine ⟨?_, answer.2⟩
  intro e he
  have there : e.2 ∈ (m.saveCkptNodes.insert nodeId step).values.dedup :=
    List.mem_dedup.mpr (List.mem_map_of_mem he)
  have here : step ∈ (m.saveCkptNodes.insert nodeId step).values.dedup := by
    have mem : (nodeId, step) ∈ (m.saveCkptNodes.insert nodeId step).items :=
      Dict.mem_items_insert.mpr (.inl ⟨rfl, rfl⟩)
    exact List.mem_dedup.mpr (List.mem_map_of_mem mem)
  match values : (m.saveCkptNodes.insert nodeId step).values.dedup with
  | [] =>
    rw [values] at here
    exact absurd here List.not_mem_nil
  | [v] =>
    rw [values, List.mem_singleton] at here there
    rw [there, here]
  | v :: w :: rest =>
    rw [values] at answer
    exact absurd answer.1 (by simp)

/-- A barrier that opens has seen every node of the latest world report this step since that
world was formed. -/
theorem barrier_opens {s : CkptBarrier} {acts : List CkptBarrierAct}
    (run : Run step FreshReport init acts s) {nodeId step : Int}
    (meets : s.FreshReport (.syncCkptNodes nodeId step))
    (answer : (s.training.manager.syncCkptNodes nodeId step).1 = true) :
    ∀ n ∈ s.worldNodes, (n, step) ∈ s.reports ++ [(nodeId, step)] := by
  rcases syncCkptNodes_true answer with ⟨steps, count⟩
  have h' := step_recorded meets rfl (run_recorded run)
  let entries := s.training.manager.saveCkptNodes.insert nodeId step
  -- with one step on record, no entry is older than the world
  have young : ∀ e ∈ entries.items, e.1 ∉ s.stale.filter fun n ↦ n ≠ nodeId := by
    intro e he mem
    rcases List.mem_filter.mp mem with ⟨old, other⟩
    have ne : e.1 ≠ nodeId := of_decide_eq_true other
    rcases Dict.mem_items_insert.mp he with ⟨same, -⟩ | ⟨-, he'⟩
    · exact ne same
    · exact meets.2 e he' ne (steps e he) old
  have members : entries.keys ⊆ s.worldNodes := by
    intro n hn
    rcases List.mem_map.mp hn with ⟨e, he, rfl⟩
    exact (h'.fresh e he (young e he)).1
  have size : entries.keys.length = s.worldNodes.length := by
    rcases h'.size with none | size
    · have here : (nodeId, step) ∈ entries.items := Dict.mem_items_insert.mpr (.inl ⟨rfl, rfl⟩)
      have pos := List.length_pos_of_mem here
      have latest : s.training.manager.latestRdzvNodes = [] := none
      have zero : entries.items.length = 0 := by
        rw [count, latest, List.length_nil]
      omega
    · rw [Dict.keys, List.length_map, count]
      exact size
  have perm : entries.keys.Perm s.worldNodes :=
    (List.subperm_of_subset entries.keys_nodup members).perm_of_length_le size.ge
  intro n hn
  rcases List.mem_map.mp (perm.mem_iff.mpr hn) with ⟨e, he, rfl⟩
  have eq : (e.1, step) = e := by rw [← steps e he]
  rw [eq]
  exact (h'.fresh e he (young e he)).2

/-- Nodes 0 and 1 form a world and both report step 5; then nodes 0 and `second` form the next
one. -/
def twoWorlds (second : Int) : List CkptBarrierAct :=
  [.rendezvous (.updateRdzvParams 2 2 30 1),
    .rendezvous (TrainingSystem.joinNode 0 0), .rendezvous (TrainingSystem.joinNode 1 0),
    .rendezvous (.getCommWorld 0 (TrainingSystem.quietEnv 1)),
    .syncCkptNodes 0 5, .syncCkptNodes 1 5,
    .rendezvous (TrainingSystem.joinNode 0 2), .rendezvous (TrainingSystem.joinNode second 2),
    .rendezvous (.getCommWorld 0 (TrainingSystem.quietEnv 3))]

/-- After a restart the two nodes report a later step, one after the other. -/
theorem barrier_opens_restarted :
    ∃ acts s, Run step FreshReport init acts s ∧
      (s.training.manager.syncCkptNodes 1 9).1 = true ∧ s.worldNodes = [0, 1] ∧
      ∀ n ∈ s.worldNodes, (n, 9) ∈ s.reports ++ [(1, 9)] := by
  have eval : ((twoWorlds 1 ++ [CkptBarrierAct.syncCkptNodes 0 9]).foldlM
      (fun s a ↦ if FreshReport s a then step s a else none) init).map (fun s ↦
        decide (s.FreshReport (.syncCkptNodes 1 9)) &&
        decide ((s.training.manager.syncCkptNodes 1 9).1 = true ∧ s.worldNodes = [0, 1])) =
      some true := by
    decide +kernel
  rcases Option.map_eq_some_iff.mp eval with ⟨s, hs, holds⟩
  rcases Bool.and_eq_true_iff.mp holds with ⟨meets, answer⟩
  have run := run_of_guarded hs
  have answer := of_decide_eq_true answer
  exact ⟨_, s, run, answer.1, answer.2, barrier_opens run (of_decide_eq_true meets) answer.1⟩

/-- Node 2 takes the place of node 1. The old entries of node 1 make up for the report that
node 2 never made. -/
theorem barrier_opens_early :
    ∃ acts s, Run step anyStep init acts s ∧
      (s.training.manager.syncCkptNodes 0 5).1 = true ∧ 2 ∈ s.worldNodes ∧
      ∀ step, (2, step) ∉ s.reports ++ [(0, 5)] := by
  have eval : ((twoWorlds 2).foldlM step init).map (fun s ↦
      decide ((s.training.manager.syncCkptNodes 0 5).1 = true ∧ 2 ∈ s.worldNodes ∧
        s.reports = [])) = some true := by
    decide +kernel
  rcases Option.map_eq_some_iff.mp eval with ⟨s, hs, holds⟩
  rcases of_decide_eq_true holds with ⟨answer, member, none⟩
  refine ⟨_, s, run_of_foldlM hs, answer, member, ?_⟩
  intro step
  simp [none]

end CkptBarrier

end ProbingBaselines.Dlrover
