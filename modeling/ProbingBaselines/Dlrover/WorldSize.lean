import ProbingBaselines.Dlrover.ElasticTraining

/-!
# The size of a training world

With `1 <= min_nodes <= max_nodes` and a `node_unit` that divides both, a poll never raises, and a
world it forms has the smallest waiting ranks and a size that is a multiple of the unit and at
least `min_nodes`. Its size is at most `max_nodes` as long as no poll finds the time-out passed
with `max_nodes + node_unit` nodes or more waiting: the first completion condition asks for
equality with `max_nodes` (`rdzv_manager.py:205`), and the second has no upper bound
(`rdzv_manager.py:209-217`).
-/

namespace ProbingBaselines.Dlrover

open Lib

namespace TrainingSystem

/-- A fresh manager after `update_rdzv_params`. -/
def start (minNodes maxNodes : Int) (waitingTimeout : ℚ) (nodeUnit : Int) : TrainingSystem :=
  { init with
    manager := RdzvManager.init.updateRdzvParams minNodes maxNodes waitingTimeout nodeUnit }

/-- No poll that may form a world finds the time-out passed with a whole unit too many nodes
waiting. -/
def WithinMax (s : TrainingSystem) : TrainingAct → Prop
  | .getCommWorld _ env =>
    s.manager.rdzvNodes.items = [] → s.manager.rdzvBlocked = false →
      s.manager.rdzvParams.waitingTimeout ≤ env.now - s.manager.lastcallTime →
      ((s.manager.dropFailed env.failed).waitingNodes.items.length : Int) <
        s.manager.rdzvParams.maxNodes + s.manager.nodeUnit
  | _ => True

/-- The parameters and the ranks, as set at the start. -/
structure Configured (minNodes maxNodes : Int) (waitingTimeout : ℚ) (nodeUnit : Int)
    (s : TrainingSystem) : Prop where
  params : s.manager.rdzvParams = ⟨minNodes, maxNodes, waitingTimeout⟩
  unit : s.manager.nodeUnit = nodeUnit
  ranked : Ranked s.manager.waitingNodes

theorem start_configured {minNodes maxNodes : Int} (waitingTimeout : ℚ) (nodeUnit : Int) :
    Configured minNodes maxNodes waitingTimeout nodeUnit
      (start minNodes maxNodes waitingTimeout nodeUnit) :=
  ⟨rfl, rfl, fun _ he ↦ absurd he List.not_mem_nil⟩

theorem Configured.step {minNodes maxNodes : Int} {waitingTimeout : ℚ} {nodeUnit : Int}
    {s t : TrainingSystem} {a : TrainingAct} (positive : maxNodes ≠ 0)
    (h : Configured minNodes maxNodes waitingTimeout nodeUnit s) (taken : s.step a = some t) :
    Configured minNodes maxNodes waitingTimeout nodeUnit t := by
  have same : t.manager.rdzvParams = s.manager.rdzvParams ∧
      t.manager.nodeUnit = s.manager.nodeUnit := by
    cases a with
    | join req env =>
      cases taken
      simp only [RdzvManager.joinRendezvous]
      split <;> exact ⟨rfl, rfl⟩
    | getCommWorld r env =>
      cases taken
      exact s.manager.trainingCommWorld_params env
    | removeAliveNode nodeId =>
      rcases (s.manager.removeAliveNode_drops nodeId).same with ⟨-, -, -, params, unit, -⟩
      cases taken
      exact ⟨params, unit⟩
    | clearWaitingNodes =>
      cases taken
      exact ⟨rfl, rfl⟩
    | updateRdzvParams minNodes maxNodes waitingTimeout nodeUnit =>
      have set : s.manager.rdzvParams.maxNodes ≠ 0 := by
        rw [h.params]
        exact positive
      have ignored : s.manager.updateRdzvParams minNodes maxNodes waitingTimeout nodeUnit =
          s.manager := if_neg set
      cases taken
      exact ⟨congrArg RdzvManager.rdzvParams ignored, congrArg RdzvManager.nodeUnit ignored⟩
    | setRdzvBlocked blocked =>
      cases taken
      exact ⟨rfl, rfl⟩
  exact ⟨same.1.trans h.params, same.2.trans h.unit, step_ranked taken h.ranked⟩

/-! ### The number of nodes taken -/

/-- Rounding down to a multiple of the unit keeps between multiples of it. -/
theorem round_bounds {w unit lo hi : Int} (positive : 1 ≤ unit) (lo_dvd : unit ∣ lo)
    (hi_dvd : unit ∣ hi) (le : lo ≤ w) (lt : w < hi + unit) :
    lo ≤ w.fdiv unit * unit ∧ w.fdiv unit * unit ≤ hi ∧ w.fdiv unit * unit ≤ w ∧
      unit ∣ w.fdiv unit * unit := by
  rcases lo_dvd with ⟨a, rfl⟩
  rcases hi_dvd with ⟨b, rfl⟩
  have fdiv : w.fdiv unit = w / unit := Int.fdiv_eq_ediv_of_nonneg w (by omega)
  have below : a ≤ w / unit := by
    apply Int.le_ediv_of_mul_le (by omega)
    rw [Int.mul_comm]
    exact le
  have above : w / unit ≤ b := by
    have : w / unit < b + 1 := by
      apply Int.ediv_lt_of_lt_mul (by omega)
      rw [Int.add_mul, Int.one_mul, Int.mul_comm b unit]
      exact lt
    omega
  rw [fdiv]
  refine ⟨?_, ?_, Int.ediv_mul_le w (by omega), Int.dvd_mul_left _ _⟩
  · rw [Int.mul_comm unit a]
    exact Int.mul_le_mul_of_nonneg_right below (by omega)
  · rw [Int.mul_comm unit b]
    exact Int.mul_le_mul_of_nonneg_right above (by omega)

/-- What a completed check takes, for parameters that fit each other. -/
theorem completedNum_bounds {m : RdzvManager} {now : ℚ} {num : Int}
    (positive : 1 ≤ m.nodeUnit) (le : m.rdzvParams.minNodes ≤ m.rdzvParams.maxNodes)
    (min_dvd : m.nodeUnit ∣ m.rdzvParams.minNodes) (max_dvd : m.nodeUnit ∣ m.rdzvParams.maxNodes)
    (within : m.rdzvParams.waitingTimeout ≤ now - m.lastcallTime →
      (m.waitingNodes.items.length : Int) < m.rdzvParams.maxNodes + m.nodeUnit)
    (h : m.completedNum now = .ok (some num)) :
    m.rdzvParams.minNodes ≤ num ∧ num ≤ m.rdzvParams.maxNodes ∧
      num ≤ m.waitingNodes.items.length ∧ m.nodeUnit ∣ num := by
  simp only [RdzvManager.completedNum] at h
  split at h
  · next full =>
    cases h
    rw [full]
    exact ⟨le, le_refl _, le_refl _, max_dvd⟩
  · split at h
    · next timedOut =>
      split at h
      · cases h
      · cases h
        exact round_bounds positive min_dvd max_dvd timedOut.1 (within timedOut.2)
    · cases h

/-- Only a zero unit makes the check raise. -/
theorem completedNum_error {m : RdzvManager} {now : ℚ} {e : RdzvError}
    (h : m.completedNum now = .error e) : m.nodeUnit = 0 := by
  simp only [RdzvManager.completedNum] at h
  split at h
  · cases h
  · split at h
    · split at h
      · assumption
      · cases h
    · cases h

theorem length_chosen {m : RdzvManager} {num : Int} (nonneg : 0 ≤ num)
    (le : num ≤ m.waitingNodes.items.length) : ((m.chosen num).length : Int) = num := by
  rw [RdzvManager.chosen, List.length_take, List.length_insertionSort, Dict.keys, List.length_map]
  omega

/-- What is asked of a formed world: `waiting` are the nodes it was formed from. -/
structure WorldLaw (minNodes maxNodes nodeUnit : Int) (waiting : NodeMap) (t : RdzvManager) :
    Prop where
  nonempty : t.rdzvNodes.items ≠ []
  min_le : minNodes ≤ t.rdzvNodes.items.length
  le_max : t.rdzvNodes.items.length ≤ maxNodes
  unit_dvd : nodeUnit ∣ t.rdzvNodes.items.length
  members : ∀ e ∈ t.rdzvNodes.items, e ∈ waiting.items
  smallest : ∀ r ∈ t.rdzvNodes, ∀ q ∈ waiting, q ∉ t.rdzvNodes → r < q
  others : t.waitingNodes = waiting.filter fun r ↦ r ∉ t.rdzvNodes

/-- A formed world obeys the law. -/
theorem formed_law {minNodes maxNodes nodeUnit : Int} {m : RdzvManager} {num : Int}
    {world : NodeMap} (ranked : Ranked m.waitingNodes) (positive : 1 ≤ minNodes)
    (bounds : minNodes ≤ num ∧ num ≤ maxNodes ∧ num ≤ m.waitingNodes.items.length ∧
      nodeUnit ∣ num)
    (sorted : sortNodes (m.complete num).rdzvNodes = .ok world) :
    WorldLaw minNodes maxNodes nodeUnit m.waitingNodes (m.formed num world) := by
  rcases bounds with ⟨min_le, le_max, le_waiting, unit_dvd⟩
  have ranked' : Ranked (m.complete num).rdzvNodes :=
    fun e he ↦ ranked e (RdzvManager.mem_waiting_of_mem_complete he)
  have perm := (sortNodes_spec ranked' sorted).1.perm
  have member : ∀ r, r ∈ world ↔ r ∈ m.chosen num := by
    intro r
    rw [← RdzvManager.mem_complete_rdzvNodes]
    exact (perm.map Prod.fst).mem_iff
  have size : (world.items.length : Int) = num := by
    have keys := congrArg List.length (m.complete_keys num)
    rw [Dict.keys, List.length_map] at keys
    rw [perm.length_eq, keys]
    exact length_chosen (by omega) le_waiting
  constructor
  · intro empty
    simp only [RdzvManager.formed] at empty
    rw [empty, List.length_nil] at size
    omega
  · simp only [RdzvManager.formed, size]
    exact min_le
  · simp only [RdzvManager.formed, size]
    exact le_max
  · simp only [RdzvManager.formed, size]
    exact unit_dvd
  · intro e he
    exact RdzvManager.mem_waiting_of_mem_complete (perm.mem_iff.mp he)
  · intro r hr q hq left
    exact RdzvManager.chosen_smallest ((member r).mp hr) hq
      fun chosen ↦ left ((member q).mpr chosen)
  · apply Dict.ext
    simp only [RdzvManager.formed, RdzvManager.complete_waiting_items, Dict.filter]
    apply List.filter_congr
    intro e _
    exact decide_eq_decide.mpr (not_congr (member e.1).symm)

/-- In every run whose polls stay within the maximum, a poll does not raise, and a world it forms
obeys the law. -/
theorem worldSize_law {minNodes maxNodes nodeUnit : Int} {waitingTimeout : ℚ}
    (one_le : 1 ≤ minNodes) (le : minNodes ≤ maxNodes) (positive : 1 ≤ nodeUnit)
    (min_dvd : nodeUnit ∣ minNodes) (max_dvd : nodeUnit ∣ maxNodes)
    {acts : List TrainingAct} {s : TrainingSystem}
    (run : Run step WithinMax (start minNodes maxNodes waitingTimeout nodeUnit) acts s)
    (r : Int) (env : Env) (ok : s.WithinMax (.getCommWorld r env)) :
    ∃ t, s.manager.trainingCommWorld env = (.ok ⟨t.rdzvRound, 0, t.rdzvNodes⟩, t) ∧
      (s.manager.rdzvRound < t.rdzvRound →
        WorldLaw minNodes maxNodes nodeUnit (s.manager.dropFailed env.failed).waitingNodes t) := by
  have configured : Configured minNodes maxNodes waitingTimeout nodeUnit s :=
    run.invariant (start_configured waitingTimeout nodeUnit)
      fun _ _ _ h _ taken ↦ h.step (by omega) taken
  have drops := s.manager.dropFailed_drops env.failed
  have ranked : Ranked (s.manager.dropFailed env.failed).waitingNodes :=
    fun e he ↦ configured.ranked e (drops.mem_items he)
  rcases drops.same with ⟨-, round, -, params, unit, lastcall⟩
  have bounds : ∀ num, s.manager.rdzvNodes.items = [] → s.manager.rdzvBlocked = false →
      (s.manager.dropFailed env.failed).completedNum env.now = .ok (some num) →
      minNodes ≤ num ∧ num ≤ maxNodes ∧
        num ≤ (s.manager.dropFailed env.failed).waitingNodes.items.length ∧ nodeUnit ∣ num := by
    intro num noWorld free completed
    have within := ok noWorld free
    rw [← lastcall, ← unit, ← params] at within
    have bounds := @completedNum_bounds (s.manager.dropFailed env.failed) env.now num
    simp only [params, unit, configured.params, configured.unit] at bounds within
    exact bounds positive le min_dvd max_dvd within completed
  rcases s.manager.trainingCommWorld_cases env with
    ⟨-, eq, -⟩ | ⟨noWorld, idle⟩ | ⟨num, world, noWorld, free, completed, sorted, eq, -⟩
  · exact ⟨s.manager, eq, fun lt ↦ absurd lt (lt_irrefl _)⟩
  · cases answer : (s.manager.trainingCommWorld env).1 with
    | ok ans =>
      rcases idle.answer_eq ans answer with ⟨current, same⟩
      refine ⟨(s.manager.trainingCommWorld env).2, ?_, fun lt ↦ absurd lt (by omega)⟩
      rw [← current, ← answer]
    | error e =>
      rcases idle.raised e answer with zero | ⟨num, free, completed, empty⟩
      · have := completedNum_error zero
        rw [unit, configured.unit] at this
        omega
      · rcases bounds num noWorld free completed with ⟨min_le, -, le_waiting, -⟩
        have size := length_chosen (by omega) le_waiting
        rw [empty, List.length_nil] at size
        omega
  · have law := formed_law ranked one_le (bounds num noWorld free completed) sorted
    refine ⟨_, eq.trans ?_, fun _ ↦ law⟩
    rw [← round]
    rfl

instance (s : TrainingSystem) (a : TrainingAct) : Decidable (s.WithinMax a) :=
  match a with
  | .getCommWorld _ env => inferInstanceAs (Decidable (s.manager.rdzvNodes.items = [] →
      s.manager.rdzvBlocked = false →
      s.manager.rdzvParams.waitingTimeout ≤ env.now - s.manager.lastcallTime →
      ((s.manager.dropFailed env.failed).waitingNodes.items.length : Int) <
        s.manager.rdzvParams.maxNodes + s.manager.nodeUnit))
  | .join _ _ => .isTrue trivial
  | .removeAliveNode _ => .isTrue trivial
  | .clearWaitingNodes => .isTrue trivial
  | .updateRdzvParams _ _ _ _ => .isTrue trivial
  | .setRdzvBlocked _ => .isTrue trivial

/-! ### Two nodes too many -/

/-- Five nodes wait for a world of two to four nodes in pairs. -/
def fiveWaiting : List TrainingAct :=
  [joinNode 3 10, joinNode 0 11, joinNode 4 12, joinNode 1 13, joinNode 2 14]

theorem worldSize_law_five : ∃ s, Run step WithinMax (start 2 4 30 2) fiveWaiting s ∧
    ∃ t, s.manager.trainingCommWorld (quietEnv 60) = (.ok ⟨t.rdzvRound, 0, t.rdzvNodes⟩, t) ∧
      (s.manager.rdzvRound < t.rdzvRound →
        WorldLaw 2 4 2 (s.manager.dropFailed fun _ ↦ false).waitingNodes t) ∧
      t.rdzvNodes.keys = [0, 1, 2, 3] := by
  have eval : (fiveWaiting.foldlM (fun s a ↦ if WithinMax s a then step s a else none)
      (start 2 4 30 2)).map (fun s ↦ decide (s.WithinMax (.getCommWorld 0 (quietEnv 60)) ∧
        (s.manager.trainingCommWorld (quietEnv 60)).2.rdzvNodes.keys = [0, 1, 2, 3])) =
      some true := by
    decide +kernel
  rcases Option.map_eq_some_iff.mp eval with ⟨s, hs, holds⟩
  rcases of_decide_eq_true holds with ⟨within, keys⟩
  have run := run_of_guarded hs
  rcases worldSize_law (by decide) (by decide) (by decide) (by decide) (by decide) run 0
    (quietEnv 60) within with ⟨t, eq, law⟩
  rw [eq] at keys
  exact ⟨s, run, t, eq, law, keys⟩

/-- Three nodes wait past the time-out for a world of at most two, and all three get it. -/
theorem worldSize_exceeds : ∃ s,
    Run step anyStep (start 2 2 30 1) [joinNode 0 10, joinNode 1 11, joinNode 2 12] s ∧
    ∃ t, s.manager.trainingCommWorld (quietEnv 60) = (.ok ⟨t.rdzvRound, 0, t.rdzvNodes⟩, t) ∧
      s.manager.rdzvRound < t.rdzvRound ∧
      ¬ WorldLaw 2 2 1 (s.manager.dropFailed fun _ ↦ false).waitingNodes t := by
  have eval : (List.foldlM step (start 2 2 30 1) [joinNode 0 10, joinNode 1 11, joinNode 2 12]).map
      (fun s ↦ decide ((s.manager.trainingCommWorld (quietEnv 60)).1 = .ok
          ⟨(s.manager.trainingCommWorld (quietEnv 60)).2.rdzvRound, 0,
            (s.manager.trainingCommWorld (quietEnv 60)).2.rdzvNodes⟩ ∧
        s.manager.rdzvRound < (s.manager.trainingCommWorld (quietEnv 60)).2.rdzvRound ∧
        (s.manager.trainingCommWorld (quietEnv 60)).2.rdzvNodes.items.length = 3)) =
      some true := by
    decide +kernel
  rcases Option.map_eq_some_iff.mp eval with ⟨s, hs, holds⟩
  rcases of_decide_eq_true holds with ⟨answer, formed, size⟩
  refine ⟨s, run_of_foldlM hs, _, Prod.ext answer rfl, formed, ?_⟩
  intro law
  have := law.le_max
  rw [size] at this
  contradiction

end TrainingSystem

end ProbingBaselines.Dlrover
