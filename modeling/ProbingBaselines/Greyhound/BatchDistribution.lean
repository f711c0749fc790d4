import Mathlib.Algebra.BigOperators.Field
import Mathlib.Algebra.BigOperators.Fin
import Mathlib.Algebra.Order.Field.Rat
import Mathlib.Tactic.FieldSimp
import ProbingBaselines.Lib.Run

/-!
# Micro-batches of the data-parallel ranks

`adjust_batchsize_distribution` (`detector/control_plane/mitigation_plan.py:77-94`) writes a plan
and then a version to redis, and every data-parallel rank asks for its number of micro-batches once
per iteration (`megatron/variation_aware/batch_distribution.py:15-60`): it reads the version and,
when that is not its own, the plan. No rank begins an iteration before all have asked in the one
before.
The numbers of an iteration make up the global batch as long as the version changes between the
reads of two iterations only, and the plan not between two of its reads.
-/

namespace ProbingBaselines.Greyhound.BatchDistribution

open Lib

/-- A plan of `solve_dp`, for `n` ranks and a global batch of `batches` micro-batches;
`dp_planner.py:34-48`. -/
structure Plan (n batches : Nat) where
  mbNums : List Nat
  length : mbNums.length = n
  positive : ∀ m ∈ mbNums, 1 ≤ m
  sum : mbNums.sum = batches

/-- How far a rank is with its call in an iteration: the version is not read yet, it is read and the
plan is not, or the call has returned in its first or its second case. -/
inductive Stage where
  | waiting
  | reading (newVersion : Nat)
  | kept
  | synced
  deriving DecidableEq

/-- The globals of `batch_distribution.py` in a process. -/
structure Rank where
  globalBatchDistribution : Option (List Nat)
  dpModificationVer : Nat
  currentMbNum : Nat
  initialMbNum : Nat
  stage : Stage

namespace Rank

/-- `get_my_micro_batch_num` up to its first return; `batch_distribution.py:47-50`. -/
def readVersion (r : Rank) (newVersion : Nat) : Rank :=
  if newVersion = r.dpModificationVer then { r with stage := .kept }
  else { r with stage := .reading newVersion }

/-- `get_my_micro_batch_num` from there on, `none` where it raises;
`batch_distribution.py:15-19`, `:52-56`. -/
def readDistribution (r : Rank) (myDpRank newVersion : Nat) (content : Option (List Nat)) :
    Option Rank :=
  let distribution := content.or r.globalBatchDistribution
  (distribution.bind (·[myDpRank]?)).map fun mbNum ↦
    { r with
      globalBatchDistribution := distribution
      currentMbNum := mbNum
      dpModificationVer := newVersion
      stage := .synced }

/-- `get_loss_and_grad_weight`; `batch_distribution.py:59-60`. -/
def gradWeight (r : Rank) : ℚ := r.currentMbNum / r.initialMbNum

end Rank

/-- The two keys of redis, the planner and the ranks, with the ranks as they were in each iteration
that is over. -/
structure State (n : Nat) where
  batchDistribution : Option (List Nat)
  dpVersion : Nat
  planVersion : Nat
  writing : Bool
  ranks : Fin n → Rank
  iterations : List (Fin n → Rank)

inductive Action (n batches : Nat) where
  | setDistribution (plan : Plan n batches)
  | setVersion
  | readVersion (i : Fin n)
  | readDistribution (i : Fin n)
  | nextIteration

variable {n batches : Nat}

/-- All ranks have made their call. -/
def Asked (ranks : Fin n → Rank) : Prop :=
  ∀ i, (ranks i).stage = .kept ∨ (ranks i).stage = .synced

instance (ranks : Fin n → Rank) : Decidable (Asked ranks) :=
  inferInstanceAs (Decidable (∀ _, _))

/-- The state after a rank has moved. -/
def State.setRank (s : State n) (i : Fin n) (r : Rank) : State n :=
  { s with ranks := Function.update s.ranks i r }

def step (s : State n) : Action n batches → Option (State n)
  | .setDistribution plan =>
    if s.writing then none
    else some { s with
      planVersion := s.planVersion + 1
      batchDistribution := some plan.mbNums
      writing := true }
  | .setVersion =>
    if s.writing then some { s with dpVersion := s.planVersion, writing := false } else none
  | .readVersion i =>
    if (s.ranks i).stage = .waiting then
      some (s.setRank i ((s.ranks i).readVersion s.dpVersion))
    else none
  | .readDistribution i =>
    match (s.ranks i).stage with
    | .reading newVersion =>
      ((s.ranks i).readDistribution i newVersion s.batchDistribution).map (s.setRank i)
    | _ => none
  | .nextIteration =>
    if Asked s.ranks then
      some { s with
        ranks := fun i ↦ { s.ranks i with stage := .waiting }
        iterations := s.iterations ++ [s.ranks] }
    else none

/-- Training starts with the version that `init_batch_distribution` sets, and with initial numbers
that make up the global batch; `batch_distribution.py:22-39`. -/
structure Start (batches : Nat) (s : State n) : Prop where
  version : s.dpVersion = 0
  idle : s.writing = false
  fresh : ∀ i, (s.ranks i).dpModificationVer = 0 ∧ (s.ranks i).stage = .waiting ∧
    (s.ranks i).currentMbNum = (s.ranks i).initialMbNum
  positive : ∀ i, 1 ≤ (s.ranks i).initialMbNum
  sum : ∑ i, (s.ranks i).initialMbNum = batches
  none_done : s.iterations = []

/-- The ranks train on one global batch, and the weights of their gradients add up. -/
def WholeBatch (batches : Nat) (ranks : Fin n → Rank) : Prop :=
  ∑ i, (ranks i).currentMbNum = batches ∧
    ((∀ i j, (ranks i).initialMbNum = (ranks j).initialMbNum) → ∑ i, (ranks i).gradWeight = n)

/-! ### When a write does no harm -/

/-- The rank reads the plan in this iteration, as things are. -/
def WillSync (dpVersion : Nat) (r : Rank) : Prop :=
  match r.stage with
  | .waiting => r.dpModificationVer ≠ dpVersion
  | .reading _ => True
  | _ => False

instance (dpVersion : Nat) (r : Rank) : Decidable (WillSync dpVersion r) := by
  unfold WillSync
  split <;> infer_instance

/-- The version is written while no rank has read it in this iteration or all have, and a plan while
no rank has read one in this iteration or none will. -/
def Admitted (s : State n) : Action n batches → Prop
  | .setDistribution _ =>
    (∀ i, (s.ranks i).stage ≠ .synced) ∨ ∀ i, ¬ WillSync s.dpVersion (s.ranks i)
  | .setVersion => (∀ i, (s.ranks i).stage = .waiting) ∨ ∀ i, (s.ranks i).stage ≠ .waiting
  | _ => True

instance (s : State n) (a : Action n batches) : Decidable (Admitted s a) := by
  unfold Admitted
  split <;> infer_instance

/-! ### The phases of an iteration -/

/-- The ranks that have asked in this iteration keep their numbers. -/
structure Keeping (s : State n) (base : Nat) : Prop where
  stages : ∀ i, (s.ranks i).stage = .waiting ∨ (s.ranks i).stage = .kept
  version : ∀ i j, (s.ranks i).stage = .kept → (s.ranks j).stage = .waiting → s.dpVersion = base

/-- The ranks that have asked in this iteration take one plan, under one version. -/
structure Taking (batches : Nat) (s : State n) (base version : Nat) : Prop where
  newer : version ≠ base
  stages : ∀ i, (s.ranks i).stage = .waiting ∨ (s.ranks i).stage = .reading version ∨
    (s.ranks i).stage = .synced
  current : ∀ i, (s.ranks i).stage = .waiting → s.dpVersion = version
  planned : ∃ plan : Plan n batches, s.batchDistribution = some plan.mbNums
  took : (∀ i, (s.ranks i).stage ≠ .synced) ∨ ∃ plan : Plan n batches,
    (∀ i, (s.ranks i).stage = .synced → plan.mbNums[i.val]? = some (s.ranks i).currentMbNum ∧
      (s.ranks i).dpModificationVer = version) ∧
    ((∃ i, (s.ranks i).stage ≠ .synced) → s.batchDistribution = some plan.mbNums)

/-- The ranks came to this iteration with one version and with numbers that make up the batch. -/
structure Inv (batches : Nat) (s : State n) (base : Nat) (mbNums : Fin n → Nat) : Prop where
  sum : ∑ i, mbNums i = batches
  before : ∀ i, (s.ranks i).stage ≠ .synced →
    (s.ranks i).currentMbNum = mbNums i ∧ (s.ranks i).dpModificationVer = base
  planned : s.writing = true ∨ (∃ i, (s.ranks i).dpModificationVer ≠ s.dpVersion) →
    ∃ plan : Plan n batches, s.batchDistribution = some plan.mbNums
  phase : Keeping s base ∨ ∃ version, Taking batches s base version
  positive : ∀ i, 1 ≤ (s.ranks i).initialMbNum
  initial : ∑ i, (s.ranks i).initialMbNum = batches
  whole : ∀ ranks ∈ s.iterations, WholeBatch batches ranks

/-! ### Calls of a rank -/

namespace Rank

theorem readVersion_of_eq {r : Rank} {newVersion : Nat} (eq : newVersion = r.dpModificationVer) :
    r.readVersion newVersion = { r with stage := .kept } := if_pos eq

theorem readVersion_of_ne {r : Rank} {newVersion : Nat} (ne : newVersion ≠ r.dpModificationVer) :
    r.readVersion newVersion = { r with stage := .reading newVersion } := if_neg ne

/-- What a rank has after it took a plan that is there. -/
theorem readDistribution_some {r r' : Rank} {i newVersion : Nat} {mbNums : List Nat}
    (taken : r.readDistribution i newVersion (some mbNums) = some r') :
    mbNums[i]? = some r'.currentMbNum ∧ r'.dpModificationVer = newVersion ∧ r'.stage = .synced ∧
      r'.initialMbNum = r.initialMbNum := by
  obtain ⟨mbNum, found, rfl⟩ := Option.map_eq_some_iff.mp taken
  exact ⟨found, rfl, rfl, rfl⟩

end Rank

@[simp]
theorem ranks_setRank_self (s : State n) (i : Fin n) (r : Rank) : (s.setRank i r).ranks i = r := by
  simp [State.setRank]

@[simp]
theorem ranks_setRank_of_ne (s : State n) {i j : Fin n} (r : Rank) (ne : j ≠ i) :
    (s.setRank i r).ranks j = s.ranks j := by
  simp [State.setRank, ne]

/-! ### What the steps keep -/

/-- A rank of an iteration that takes a plan reads the version or the plan. -/
theorem Taking.setRank {s : State n} {base version : Nat} (h : Taking batches s base version)
    {i : Fin n} {r : Rank} (stage : r.stage = .reading version ∨ r.stage = .synced)
    (took : (∀ j, ((s.setRank i r).ranks j).stage ≠ .synced) ∨ ∃ plan : Plan n batches,
      (∀ j, ((s.setRank i r).ranks j).stage = .synced →
        plan.mbNums[j.val]? = some ((s.setRank i r).ranks j).currentMbNum ∧
          ((s.setRank i r).ranks j).dpModificationVer = version) ∧
      ((∃ j, ((s.setRank i r).ranks j).stage ≠ .synced) →
        s.batchDistribution = some plan.mbNums)) :
    Taking batches (s.setRank i r) base version := by
  refine ⟨h.newer, ?_, ?_, h.planned, took⟩
  · intro j
    by_cases here : j = i
    · rw [here, ranks_setRank_self]
      exact .inr stage
    · rw [ranks_setRank_of_ne s r here]
      exact h.stages j
  · intro j waiting
    by_cases here : j = i
    · rw [here, ranks_setRank_self] at waiting
      simp [waiting] at stage
    · rw [ranks_setRank_of_ne s r here] at waiting
      exact h.current j waiting

namespace Inv

variable {s t : State n} {base : Nat} {mbNums : Fin n → Nat}

theorem setDistribution (h : Inv batches s base mbNums) (plan : Plan n batches)
    (admitted : Admitted s (.setDistribution plan)) (planVersion : Nat) :
    Inv batches { s with
      planVersion := planVersion
      batchDistribution := some plan.mbNums
      writing := true } base mbNums := by
  refine ⟨h.sum, h.before, fun _ ↦ ⟨plan, rfl⟩, ?_, h.positive, h.initial, h.whole⟩
  rcases h.phase with keeping | ⟨version, taking⟩
  · exact .inl ⟨keeping.stages, keeping.version⟩
  · right
    refine ⟨version, taking.newer, taking.stages, taking.current, ⟨plan, rfl⟩, ?_⟩
    rcases admitted with none | all
    · exact .inl none
    · -- a rank without the plan would still read one
      have synced : ∀ i, (s.ranks i).stage = .synced := by
        intro i
        have done := all i
        rcases taking.stages i with waiting | reading | synced
        · have later : (s.ranks i).dpModificationVer ≠ s.dpVersion := by
            rw [(h.before i (by rw [waiting]; exact nofun)).2, taking.current i waiting]
            exact taking.newer.symm
          simp [WillSync, waiting, later] at done
        · simp [WillSync, reading] at done
        · exact synced
      rcases taking.took with none | ⟨plan', took, -⟩
      · exact .inl none
      · exact .inr ⟨plan', took, fun ⟨i, other⟩ ↦ absurd (synced i) other⟩

theorem setVersion (h : Inv batches s base mbNums)
    (admitted : Admitted s (.setVersion : Action n batches)) (writing : s.writing = true) :
    Inv batches { s with dpVersion := s.planVersion, writing := false } base mbNums := by
  refine ⟨h.sum, h.before, fun _ ↦ h.planned (.inl writing), ?_, h.positive, h.initial, h.whole⟩
  rcases admitted with waiting | asked
  · left
    refine ⟨fun i ↦ .inl (waiting i), ?_⟩
    intro i _ kept
    have := waiting i
    rw [kept] at this
    cases this
  · rcases h.phase with keeping | ⟨version, taking⟩
    · exact .inl ⟨keeping.stages, fun _ j _ waiting ↦ absurd waiting (asked j)⟩
    · exact .inr ⟨version, taking.newer, taking.stages, fun i waiting ↦ absurd waiting (asked i),
        taking.planned, taking.took⟩

/-- A rank gets on with its call and has no plan yet. -/
theorem setStage (h : Inv batches s base mbNums) {i : Fin n} {stage : Stage}
    (before : (s.ranks i).stage ≠ .synced) (phase :
      Keeping (s.setRank i { s.ranks i with stage := stage }) base ∨
      ∃ version, Taking batches (s.setRank i { s.ranks i with stage := stage }) base version) :
    Inv batches (s.setRank i { s.ranks i with stage := stage }) base mbNums := by
  have same : ∀ j, ∃ stage', (s.setRank i { s.ranks i with stage := stage }).ranks j =
      { s.ranks j with stage := stage' } := by
    intro j
    by_cases here : j = i
    · exact ⟨stage, by rw [here, ranks_setRank_self]⟩
    · exact ⟨(s.ranks j).stage, by rw [ranks_setRank_of_ne s _ here]⟩
  choose stages same using same
  constructor
  · exact h.sum
  · intro j other
    by_cases here : j = i
    · rw [here, ranks_setRank_self]
      exact h.before i before
    · rw [ranks_setRank_of_ne s _ here] at other ⊢
      exact h.before j other
  · rintro (writing | ⟨j, other⟩)
    · exact h.planned (.inl writing)
    · rw [same j] at other
      exact h.planned (.inr ⟨j, other⟩)
  · exact phase
  · intro j
    rw [same j]
    exact h.positive j
  · rw [← h.initial]
    apply Finset.sum_congr rfl
    intro j _
    rw [same j]
  · exact h.whole

/-- A rank that is to ask and has another version than the one in redis takes the plan, and so do
all others of the iteration. -/
theorem taking_of_ne (h : Inv batches s base mbNums) {i : Fin n}
    (waiting : (s.ranks i).stage = .waiting)
    (ne : s.dpVersion ≠ (s.ranks i).dpModificationVer) : Taking batches s base s.dpVersion := by
  have own := (h.before i (by rw [waiting]; exact nofun)).2
  rcases h.phase with keeping | ⟨version, taking⟩
  · have all : ∀ j, (s.ranks j).stage = .waiting := by
      intro j
      rcases keeping.stages j with waiting | kept
      · exact waiting
      · exact absurd ((keeping.version j i kept waiting).trans own.symm) ne
    refine ⟨own ▸ ne, fun j ↦ .inl (all j), fun _ _ ↦ rfl, h.planned (.inr ⟨i, ne.symm⟩), .inl ?_⟩
    intro j synced
    have := all j
    rw [synced] at this
    cases this
  · rw [taking.current i waiting]
    exact taking

theorem readVersion (h : Inv batches s base mbNums) {i : Fin n}
    (waiting : (s.ranks i).stage = .waiting) :
    Inv batches (s.setRank i ((s.ranks i).readVersion s.dpVersion)) base mbNums := by
  have before : (s.ranks i).stage ≠ .synced := by
    rw [waiting]
    exact nofun
  by_cases eq : s.dpVersion = (s.ranks i).dpModificationVer
  · rw [Rank.readVersion_of_eq eq]
    apply h.setStage before
    have own := eq.trans (h.before i before).2
    rcases h.phase with keeping | ⟨version, taking⟩
    · left
      refine ⟨?_, fun _ _ _ _ ↦ own⟩
      intro j
      by_cases here : j = i
      · rw [here, ranks_setRank_self]
        exact .inr rfl
      · rw [ranks_setRank_of_ne s _ here]
        exact keeping.stages j
    · exact absurd ((taking.current i waiting).symm.trans own) taking.newer
  · rw [Rank.readVersion_of_ne eq]
    apply h.setStage before
    have taking := h.taking_of_ne waiting eq
    refine .inr ⟨s.dpVersion, taking.setRank (.inl rfl) ?_⟩
    rcases taking.took with none | ⟨plan, took, left⟩
    · left
      intro j
      by_cases here : j = i
      · rw [here, ranks_setRank_self]
        exact nofun
      · rw [ranks_setRank_of_ne s _ here]
        exact none j
    · right
      refine ⟨plan, ?_, fun _ ↦ left ⟨i, before⟩⟩
      intro j synced
      by_cases here : j = i
      · rw [here, ranks_setRank_self] at synced
        cases synced
      · rw [ranks_setRank_of_ne s _ here] at synced ⊢
        exact took j synced

theorem readDistribution (h : Inv batches s base mbNums) {i : Fin n} {newVersion : Nat} {r : Rank}
    (reading : (s.ranks i).stage = .reading newVersion)
    (taken : (s.ranks i).readDistribution i newVersion s.batchDistribution = some r) :
    Inv batches (s.setRank i r) base mbNums := by
  rcases h.phase with keeping | ⟨version, taking⟩
  · have stages := keeping.stages i
    simp [reading] at stages
  · obtain rfl : newVersion = version := by
      have stages := taking.stages i
      simpa [reading] using stages
    obtain ⟨plan, content⟩ := taking.planned
    rw [content] at taken
    obtain ⟨number, ver, synced, initial⟩ := Rank.readDistribution_some taken
    have initials : ∀ j, ((s.setRank i r).ranks j).initialMbNum = (s.ranks j).initialMbNum := by
      intro j
      by_cases here : j = i
      · rw [here, ranks_setRank_self, initial]
      · rw [ranks_setRank_of_ne s _ here]
    constructor
    · exact h.sum
    · intro j other
      by_cases here : j = i
      · rw [here, ranks_setRank_self] at other
        exact absurd synced other
      · rw [ranks_setRank_of_ne s _ here] at other ⊢
        exact h.before j other
    · exact fun _ ↦ ⟨plan, content⟩
    · right
      refine ⟨newVersion, taking.setRank (.inr synced) (.inr ⟨plan, ?_, fun _ ↦ content⟩)⟩
      intro j synced'
      by_cases here : j = i
      · rw [here, ranks_setRank_self]
        exact ⟨number, ver⟩
      · rw [ranks_setRank_of_ne s _ here] at synced' ⊢
        rcases taking.took with none | ⟨plan', took, left⟩
        · exact absurd synced' (none j)
        · -- this rank was still to read, so the plan of the others is the one in redis
          have others := left ⟨i, by rw [reading]; exact nofun⟩
          rw [content, Option.some.injEq] at others
          rw [others]
          exact took j synced'
    · intro j
      rw [initials j]
      exact h.positive j
    · rw [← h.initial]
      exact Finset.sum_congr rfl fun j _ ↦ initials j
    · exact h.whole

/-- The numbers of an iteration that all have asked in, with one version. -/
theorem asked (h : Inv batches s base mbNums) (asked : Asked s.ranks) :
    ∑ i, (s.ranks i).currentMbNum = batches ∧
      ∃ version, ∀ i, (s.ranks i).dpModificationVer = version := by
  rcases h.phase with keeping | ⟨version, taking⟩
  · have kept : ∀ i, (s.ranks i).stage ≠ .synced := by
      intro i synced
      have stages := keeping.stages i
      simp [synced] at stages
    refine ⟨?_, base, fun i ↦ (h.before i (kept i)).2⟩
    rw [← h.sum]
    exact Finset.sum_congr rfl fun i _ ↦ (h.before i (kept i)).1
  · have synced : ∀ i, (s.ranks i).stage = .synced := by
      intro i
      rcases asked i with kept | synced
      · have stages := taking.stages i
        simp [kept] at stages
      · exact synced
    rcases taking.took with none | ⟨plan, took, -⟩
    · -- there are no ranks
      have empty : IsEmpty (Fin n) := ⟨fun i ↦ none i (synced i)⟩
      refine ⟨?_, version, fun i ↦ isEmptyElim i⟩
      rw [← h.sum]
      exact Finset.sum_congr rfl fun i _ ↦ isEmptyElim i
    · refine ⟨?_, version, fun i ↦ (took i (synced i)).2⟩
      have numbers : plan.mbNums = List.ofFn fun i ↦ (s.ranks i).currentMbNum := by
        apply List.ext_getElem
        · rw [plan.length, List.length_ofFn]
        · intro k hk hk'
          have number := (took ⟨k, plan.length ▸ hk⟩ (synced _)).1
          rw [List.getElem?_eq_getElem hk, Option.some.injEq] at number
          rw [number, List.getElem_ofFn]
      rw [← plan.sum, numbers, List.sum_ofFn]

/-- Numbers that make up the batch have weights that add up, as the initial numbers make it up
too. -/
theorem wholeBatch (h : Inv batches s base mbNums)
    (sum : ∑ i, (s.ranks i).currentMbNum = batches) : WholeBatch batches s.ranks := by
  refine ⟨sum, ?_⟩
  intro equal
  cases n with
  | zero => simp
  | succ n =>
    have share : ∀ i, (s.ranks i).gradWeight =
        (s.ranks i).currentMbNum / ((s.ranks 0).initialMbNum : ℚ) := by
      intro i
      rw [Rank.gradWeight, equal i 0]
    have positive : ((s.ranks 0).initialMbNum : ℚ) ≠ 0 := by
      have := h.positive 0
      exact_mod_cast (by omega : (s.ranks 0).initialMbNum ≠ 0)
    have initial := h.initial
    rw [Finset.sum_congr rfl fun i _ ↦ equal i 0, Finset.sum_const, Finset.card_univ,
      Fintype.card_fin, smul_eq_mul] at initial
    rw [Finset.sum_congr rfl fun i _ ↦ share i, ← Finset.sum_div, ← Nat.cast_sum, sum, ← initial,
      Nat.cast_mul, mul_div_cancel_right₀ _ positive]

theorem nextIteration (h : Inv batches s base mbNums) (done : Asked s.ranks) :
    ∃ base' mbNums', Inv batches { s with
      ranks := fun i ↦ { s.ranks i with stage := .waiting }
      iterations := s.iterations ++ [s.ranks] } base' mbNums' := by
  obtain ⟨sum, version, versions⟩ := h.asked done
  refine ⟨version, fun i ↦ (s.ranks i).currentMbNum, sum, fun i _ ↦ ⟨rfl, versions i⟩, h.planned,
    .inl ⟨fun _ ↦ .inl rfl, fun _ _ ↦ nofun⟩, h.positive, h.initial, ?_⟩
  intro ranks mem
  rcases List.mem_append.mp mem with mem | mem
  · exact h.whole ranks mem
  · rw [List.mem_singleton.mp mem]
    exact h.wholeBatch sum

end Inv

theorem Start.inv {s : State n} (h : Start batches s) :
    Inv batches s 0 fun i ↦ (s.ranks i).initialMbNum := by
  constructor
  · exact h.sum
  · exact fun i _ ↦ ⟨(h.fresh i).2.2, (h.fresh i).1⟩
  · rintro (writing | ⟨i, other⟩)
    · rw [h.idle] at writing
      cases writing
    · rw [(h.fresh i).1, h.version] at other
      exact absurd rfl other
  · left
    refine ⟨fun i ↦ .inl (h.fresh i).2.1, ?_⟩
    intro i _ kept
    rw [(h.fresh i).2.1] at kept
    cases kept
  · exact h.positive
  · exact h.sum
  · rw [h.none_done]
    exact fun _ mem ↦ absurd mem List.not_mem_nil

/-- What an admitted step keeps. -/
theorem inv_step {s t : State n} {a : Action n batches}
    (h : ∃ base mbNums, Inv batches s base mbNums) (admitted : Admitted s a)
    (taken : step s a = some t) : ∃ base mbNums, Inv batches t base mbNums := by
  obtain ⟨base, mbNums, h⟩ := h
  cases a with
  | setDistribution plan =>
    obtain ⟨-, eq⟩ := Option.ite_none_left_eq_some.mp taken
    cases eq
    exact ⟨base, mbNums, h.setDistribution plan admitted _⟩
  | setVersion =>
    obtain ⟨writing, eq⟩ := Option.ite_none_right_eq_some.mp taken
    cases eq
    exact ⟨base, mbNums, h.setVersion admitted writing⟩
  | readVersion i =>
    obtain ⟨waiting, eq⟩ := Option.ite_none_right_eq_some.mp taken
    cases eq
    exact ⟨base, mbNums, h.readVersion waiting⟩
  | readDistribution i =>
    simp only [step] at taken
    split at taken
    · next newVersion reading =>
      obtain ⟨r, read, rfl⟩ := Option.map_eq_some_iff.mp taken
      exact ⟨base, mbNums, h.readDistribution reading read⟩
    · cases taken
  | nextIteration =>
    obtain ⟨done, eq⟩ := Option.ite_none_right_eq_some.mp taken
    cases eq
    exact h.nextIteration done

/-- Every iteration trains on one whole global batch, as long as the version changes between the
reads of two iterations only and the plan not between two of its reads. -/
theorem iterations_wholeBatch {s t : State n} {actions : List (Action n batches)}
    (start : Start batches s) (run : Run step Admitted s actions t) :
    ∀ ranks ∈ t.iterations, WholeBatch batches ranks := by
  obtain ⟨base, mbNums, h⟩ := run.invariant (P := fun s ↦ ∃ base mbNums, Inv batches s base mbNums)
    ⟨0, _, start.inv⟩ fun _ _ _ h admitted taken ↦ inv_step h admitted taken
  exact h.whole

/-- Two ranks with two micro-batches each. -/
def twoRanks : State 2 := ⟨none, 0, 0, false, fun _ ↦ ⟨none, 0, 2, 2, .waiting⟩, []⟩

theorem start_twoRanks : Start 4 twoRanks := by
  constructor <;> decide

/-- One micro-batch for the first rank and three for the second. -/
def unevenPlan : Plan 2 4 := ⟨[1, 3], rfl, by decide, rfl⟩

/-- An iteration with the initial numbers, and one after an adjustment. -/
def adjustBetween : List (Action 2 4) :=
  [.readVersion 0, .readVersion 1, .nextIteration, .setDistribution unevenPlan, .setVersion,
    .readVersion 1, .readVersion 0, .readDistribution 0, .readDistribution 1, .nextIteration]

theorem iterations_wholeBatch_adjusted : ∃ t, Run step Admitted twoRanks adjustBetween t ∧
    t.iterations.length = 2 ∧ ∀ ranks ∈ t.iterations, WholeBatch 4 ranks := by
  obtain ⟨t, run, two⟩ : ∃ t, Run step Admitted twoRanks adjustBetween t ∧
      decide (t.iterations.length = 2) = true := run_of_guarded_any (by decide +kernel)
  exact ⟨t, run, of_decide_eq_true two, iterations_wholeBatch start_twoRanks run⟩

/-- The second rank asks after the adjustment, the first has asked before it. -/
def adjustAmid : List (Action 2 4) :=
  [.readVersion 0, .setDistribution unevenPlan, .setVersion, .readVersion 1, .readDistribution 1,
    .nextIteration]

/-- Without a condition on the writes an iteration may train on more than the global batch. -/
theorem iterations_mixed :
    ¬ ∀ (n batches : Nat) (s t : State n) (actions : List (Action n batches)), Start batches s →
      Run step anyStep s actions t → ∀ ranks ∈ t.iterations, WholeBatch batches ranks := by
  intro every
  obtain ⟨t, run, five⟩ : ∃ t, Run step anyStep twoRanks adjustAmid t ∧
      (t.iterations.any fun ranks ↦ ∑ i, (ranks i).currentMbNum = 5) = true :=
    run_of_any (by decide +kernel)
  obtain ⟨ranks, mem, sum⟩ := List.any_eq_true.mp five
  have whole := (every 2 4 twoRanks t adjustAmid start_twoRanks run ranks mem).1
  rw [of_decide_eq_true sum] at whole
  cases whole

end ProbingBaselines.Greyhound.BatchDistribution
