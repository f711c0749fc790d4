import Mathlib.Algebra.BigOperators.Fin
import Mathlib.Algebra.BigOperators.Group.Finset.Piecewise

/-!
# Gradient accumulation of the elastic trainer

`ElasticTrainer` (`trainer/torch/elastic/trainer.py:181-327`) shares the configured number of
workers out among the ranks of the current world: a rank accumulates the gradients of that many
backward passes before it synchronises. The passes that the ranks do between two synchronised steps
make up the configured number as long as the world is not larger than it. Numbers are below
`2 ^ 53`, where `int` of the float quotient of two integers is their integer quotient.
-/

namespace ProbingBaselines.Dlrover.GradientAccumulation

/-! ### The trainer of one rank -/

structure GradientState where
  syncGradients : Bool
  numBackwardSteps : Nat
  numSteps : Nat

def GradientState.init : GradientState := ⟨true, 0, 0⟩

/-- Raises `ZeroDivisionError` for no accumulation steps; `trainer.py:76-81`. -/
def GradientState.checkSyncGradient (g : GradientState) (gradientAccumulationSteps : Nat) :
    Option GradientState :=
  if gradientAccumulationSteps = 0 then none
  else some { g with
    syncGradients := decide (g.numBackwardSteps % gradientAccumulationSteps = 0) }

structure ElasticTrainer where
  gradientState : GradientState
  gradientAccumulationSteps : Nat

namespace ElasticTrainer

/-- `ElasticTrainer.__init__` in a new process. -/
def new : ElasticTrainer := ⟨.init, 1⟩

/-- `_set_gradient_accumulation_steps` with the environment and the process group as they are; the
number of workers is tested for zero, and then used all the same. -/
def setGradientAccumulationSteps (t : ElasticTrainer)
    (workerNum localWorldSize curWorldSize rank : Nat) : ElasticTrainer :=
  let t := if workerNum = 0 then { t with gradientAccumulationSteps := 1 } else t
  let maxWorkerNum := workerNum * localWorldSize
  let t := { t with gradientAccumulationSteps := maxWorkerNum / curWorldSize }
  let remainder := maxWorkerNum % curWorldSize
  if rank < remainder then
    { t with gradientAccumulationSteps := t.gradientAccumulationSteps + 1 }
  else t

/-- `_before_step`. -/
def beforeStep (t : ElasticTrainer) (fixTotalBatchSize : Bool) : Option ElasticTrainer := do
  let g := { t.gradientState with numBackwardSteps := t.gradientState.numBackwardSteps + 1 }
  if fixTotalBatchSize then
    let g ← g.checkSyncGradient t.gradientAccumulationSteps
    return { t with gradientState := g }
  else return { t with gradientState := { g with syncGradients := true } }

/-- `_after_step`, without the report. -/
def afterStep (t : ElasticTrainer) : ElasticTrainer :=
  if t.gradientState.syncGradients then
    { t with gradientState := { t.gradientState with numSteps := t.gradientState.numSteps + 1 } }
  else t

/-- One `step`, with the backward pass inside. -/
def step (t : ElasticTrainer) (fixTotalBatchSize : Bool) : Option ElasticTrainer := do
  let t ← t.beforeStep fixTotalBatchSize
  return t.afterStep

/-- A step that keeps the batch size raises, or it synchronises after every
`gradientAccumulationSteps` passes. -/
theorem step_fix (t : ElasticTrainer) :
    (t.gradientAccumulationSteps = 0 ∧ t.step true = none) ∨
    (0 < t.gradientAccumulationSteps ∧ ∃ t', t.step true = some t' ∧
      t'.gradientAccumulationSteps = t.gradientAccumulationSteps ∧
      t'.gradientState.numBackwardSteps = t.gradientState.numBackwardSteps + 1 ∧
      t'.gradientState.syncGradients =
        decide ((t.gradientState.numBackwardSteps + 1) % t.gradientAccumulationSteps = 0)) := by
  by_cases none : t.gradientAccumulationSteps = 0
  · left
    refine ⟨none, ?_⟩
    simp only [step, beforeStep, if_true, GradientState.checkSyncGradient, if_pos none]
    rfl
  · right
    refine ⟨Nat.pos_of_ne_zero none, ?_⟩
    simp only [step, beforeStep, if_true, GradientState.checkSyncGradient, if_neg none]
    refine ⟨_, rfl, ?_⟩
    unfold afterStep
    split <;> exact ⟨rfl, rfl, rfl⟩

end ElasticTrainer

/-! ### The ranks of a world -/

/-- The accumulation steps of a rank. -/
def accumulationSteps (workerNum localWorldSize curWorldSize rank : Nat) : Nat :=
  (ElasticTrainer.new.setGradientAccumulationSteps workerNum localWorldSize curWorldSize
    rank).gradientAccumulationSteps

/-- The trainers, and for each rank whether its steps so far synchronised. -/
structure World (n : Nat) where
  trainers : Fin n → ElasticTrainer
  synced : Fin n → List Bool

/-- All ranks have called `prepare`. -/
def World.start (workerNum localWorldSize curWorldSize : Nat) : World curWorldSize :=
  ⟨fun rank ↦
      ElasticTrainer.new.setGradientAccumulationSteps workerNum localWorldSize curWorldSize rank,
    fun _ ↦ []⟩

/-- One rank takes a step that keeps the batch size. -/
def World.step {n : Nat} (w : World n) (rank : Fin n) : Option (World n) := do
  let t ← (w.trainers rank).step true
  return ⟨Function.update w.trainers rank t,
    Function.update w.synced rank (w.synced rank ++ [t.gradientState.syncGradients])⟩

/-- The ranks take their steps in this order. -/
def World.run {n : Nat} (w : World n) (ranks : List (Fin n)) : Option (World n) :=
  ranks.foldlM World.step w

/-- The passes up to each synchronised step, and those since. -/
def countPasses (counted : List Nat × Nat) (synced : Bool) : List Nat × Nat :=
  if synced then (counted.1 ++ [counted.2 + 1], 0) else (counted.1, counted.2 + 1)

/-- The passes of a rank from one synchronised step to the next, the next included. -/
def passes (synced : List Bool) : List Nat := (synced.foldl countPasses ([], 0)).1

/-! ### The configured number is shared out -/

/-- The test for zero workers makes no difference. -/
theorem setGradientAccumulationSteps_eq (t : ElasticTrainer)
    (workerNum localWorldSize curWorldSize rank : Nat) :
    t.setGradientAccumulationSteps workerNum localWorldSize curWorldSize rank =
      { t with gradientAccumulationSteps := workerNum * localWorldSize / curWorldSize +
          if rank < workerNum * localWorldSize % curWorldSize then 1 else 0 } := by
  have tested : (if workerNum = 0 then { t with gradientAccumulationSteps := 1 }
      else t).gradientState = t.gradientState := by
    split <;> rfl
  simp only [ElasticTrainer.setGradientAccumulationSteps, tested]
  split <;> rfl

theorem accumulationSteps_eq (workerNum localWorldSize curWorldSize rank : Nat) :
    accumulationSteps workerNum localWorldSize curWorldSize rank =
      workerNum * localWorldSize / curWorldSize +
        if rank < workerNum * localWorldSize % curWorldSize then 1 else 0 := by
  rw [accumulationSteps, setGradientAccumulationSteps_eq]

/-- Quotient and remainder make up the whole. -/
theorem sum_accumulationSteps (workerNum localWorldSize : Nat) {curWorldSize : Nat}
    (pos : 0 < curWorldSize) :
    ∑ rank : Fin curWorldSize, accumulationSteps workerNum localWorldSize curWorldSize rank =
      workerNum * localWorldSize := by
  simp only [accumulationSteps_eq]
  generalize workerNum * localWorldSize = whole
  have left : (Finset.univ.filter fun rank : Fin curWorldSize ↦
      rank.val < whole % curWorldSize).card = whole % curWorldSize := by
    rw [Fin.card_filter_val_lt]
    exact Nat.min_eq_right (Nat.mod_lt whole pos).le
  rw [Finset.sum_add_distrib, Finset.sum_const, Finset.card_univ, Fintype.card_fin, smul_eq_mul,
    ← Finset.card_filter, left, Nat.div_add_mod]

theorem accumulationSteps_pos {workerNum localWorldSize curWorldSize : Nat}
    (pos : 0 < curWorldSize) (le : curWorldSize ≤ workerNum * localWorldSize) (rank : Nat) :
    0 < accumulationSteps workerNum localWorldSize curWorldSize rank := by
  rw [accumulationSteps_eq]
  exact Nat.add_pos_left (Nat.div_pos le pos) _

/-- The last rank of a larger world is left without a step. -/
theorem accumulationSteps_last {workerNum localWorldSize curWorldSize : Nat}
    (lt : workerNum * localWorldSize < curWorldSize) :
    accumulationSteps workerNum localWorldSize curWorldSize (curWorldSize - 1) = 0 := by
  rw [accumulationSteps_eq, Nat.div_eq_of_lt lt, Nat.mod_eq_of_lt lt, if_neg (by omega)]

/-! ### Passes between synchronised steps -/

/-- One more pass, synchronised when the number of passes is a multiple of `steps`. -/
theorem countPasses_mod {steps : Nat} (pos : 0 < steps) (n : Nat) :
    countPasses (List.replicate (n / steps) steps, n % steps)
        (decide ((n + 1) % steps = 0)) =
      (List.replicate ((n + 1) / steps) steps, (n + 1) % steps) := by
  have lt : n % steps < steps := Nat.mod_lt n pos
  have whole : n + 1 = n % steps + 1 + steps * (n / steps) := by
    have eq := Nat.mod_add_div n steps
    omega
  unfold countPasses
  by_cases last : n % steps + 1 = steps
  · have mod : (n + 1) % steps = 0 := by
      rw [whole, last, Nat.add_mul_mod_self_left, Nat.mod_self]
    have div : (n + 1) / steps = n / steps + 1 := by
      rw [whole, last, Nat.add_mul_div_left _ _ pos, Nat.div_self pos, Nat.add_comm]
    rw [mod, div, if_pos (decide_eq_true rfl), List.replicate_succ', last]
  · have mod : (n + 1) % steps = n % steps + 1 := by
      rw [whole, Nat.add_mul_mod_self_left, Nat.mod_eq_of_lt (by omega)]
    have div : (n + 1) / steps = n / steps := by
      rw [whole, Nat.add_mul_div_left _ _ pos, Nat.div_eq_of_lt (by omega), Nat.zero_add]
    rw [mod, div, if_neg (by rw [decide_eq_true_iff]; omega)]

/-- The rank has `steps` accumulation steps, and has done that many passes for each synchronised
step. -/
structure Counted (steps : Nat) (t : ElasticTrainer) (synced : List Bool) : Prop where
  configured : t.gradientAccumulationSteps = steps
  counted : synced.foldl countPasses ([], 0) =
    (List.replicate (t.gradientState.numBackwardSteps / steps) steps,
      t.gradientState.numBackwardSteps % steps)

theorem Counted.step {steps : Nat} {t : ElasticTrainer} {synced : List Bool}
    (h : Counted steps t synced) (pos : 0 < steps) :
    ∃ t', t.step true = some t' ∧
      Counted steps t' (synced ++ [t'.gradientState.syncGradients]) := by
  rcases t.step_fix with ⟨none, -⟩ | ⟨-, t', eq, same, next, sync⟩
  · rw [h.configured] at none
    omega
  · refine ⟨t', eq, same.trans h.configured, ?_⟩
    rw [List.foldl_append, h.counted, sync, h.configured, next]
    exact countPasses_mod pos _

variable {workerNum localWorldSize curWorldSize : Nat}

/-- Every rank is counted. -/
def World.AllCounted (workerNum localWorldSize : Nat) (w : World curWorldSize) : Prop :=
  ∀ rank : Fin curWorldSize,
    Counted (accumulationSteps workerNum localWorldSize curWorldSize rank) (w.trainers rank)
      (w.synced rank)

theorem World.AllCounted.start :
    (World.start workerNum localWorldSize curWorldSize).AllCounted workerNum localWorldSize := by
  intro rank
  constructor
  · rfl
  · have none : ((World.start workerNum localWorldSize curWorldSize).trainers
        rank).gradientState.numBackwardSteps = 0 := by
      simp only [World.start, setGradientAccumulationSteps_eq]
      rfl
    rw [none, Nat.zero_div, Nat.zero_mod]
    rfl

theorem World.AllCounted.run {w : World curWorldSize} (h : w.AllCounted workerNum localWorldSize)
    (pos : ∀ rank, 0 < accumulationSteps workerNum localWorldSize curWorldSize rank)
    (ranks : List (Fin curWorldSize)) :
    ∃ w', w.run ranks = some w' ∧ w'.AllCounted workerNum localWorldSize := by
  induction ranks generalizing w with
  | nil => exact ⟨w, rfl, h⟩
  | cons rank ranks ih =>
    rcases (h rank).step (pos rank) with ⟨t, step, counted⟩
    let next : World curWorldSize := ⟨Function.update w.trainers rank t,
      Function.update w.synced rank (w.synced rank ++ [t.gradientState.syncGradients])⟩
    have taken : w.step rank = some next := by
      rw [World.step, step]
      rfl
    have all : next.AllCounted workerNum localWorldSize := by
      intro r
      by_cases same : r = rank
      · subst same
        simp only [next, Function.update_self]
        exact counted
      · simp only [next, Function.update_of_ne same]
        exact h r
    rcases ih all with ⟨w', run, last⟩
    refine ⟨w', ?_, last⟩
    rw [World.run, List.foldlM_cons, taken]
    exact run

/-! ### The global batch -/

/-- Every rank has a step, the steps make up the configured number, no run divides by zero, and
between two synchronised steps the ranks do that many passes together. -/
structure BatchFixed (workerNum localWorldSize curWorldSize : Nat) : Prop where
  positive : ∀ rank < curWorldSize,
    1 ≤ accumulationSteps workerNum localWorldSize curWorldSize rank
  sum : curWorldSize ≤ max 1 (workerNum * localWorldSize) →
    ∑ rank : Fin curWorldSize, accumulationSteps workerNum localWorldSize curWorldSize rank =
      max 1 (workerNum * localWorldSize)
  runs : ∀ ranks : List (Fin curWorldSize), ∃ w,
    (World.start workerNum localWorldSize curWorldSize).run ranks = some w ∧
      ∀ (i : Nat) (p : Fin curWorldSize → Nat),
        (∀ rank, (passes (w.synced rank))[i]? = some (p rank)) →
        ∑ rank, p rank =
          ∑ rank : Fin curWorldSize, accumulationSteps workerNum localWorldSize curWorldSize rank

/-- The global batch stays fixed just when there are no more ranks than configured. -/
theorem batchFixed_iff (workerNum localWorldSize : Nat) {curWorldSize : Nat}
    (pos : 1 ≤ curWorldSize) :
    BatchFixed workerNum localWorldSize curWorldSize ↔
      curWorldSize ≤ workerNum * localWorldSize := by
  constructor
  · intro fixed
    by_contra more
    have last := fixed.positive (curWorldSize - 1) (by omega)
    rw [accumulationSteps_last (by omega)] at last
    omega
  · intro le
    have all : ∀ rank, 0 < accumulationSteps workerNum localWorldSize curWorldSize rank :=
      accumulationSteps_pos pos le
    refine ⟨fun rank _ ↦ all rank, ?_, ?_⟩
    · intro _
      rw [sum_accumulationSteps _ _ pos]
      omega
    · intro ranks
      rcases World.AllCounted.start.run all ranks with ⟨w, run, counted⟩
      refine ⟨w, run, fun i p done ↦ Finset.sum_congr rfl ?_⟩
      intro rank _
      have passed := done rank
      rw [passes, (counted rank).counted] at passed
      exact List.eq_of_mem_replicate (List.mem_of_getElem? passed)

/-- No worker is configured, and the one rank divides by zero in its first step. -/
theorem batchFixed_zero_workers :
    ¬ BatchFixed 0 1 1 ∧ (World.start 0 1 1).run [⟨0, Nat.one_pos⟩] = none := by
  have raises : (World.start 0 1 1).run [⟨0, Nat.one_pos⟩] = none := rfl
  refine ⟨fun fixed ↦ ?_, raises⟩
  rcases fixed.runs [⟨0, Nat.one_pos⟩] with ⟨w, run, -⟩
  rw [raises] at run
  cases run

/-- Five configured, on two ranks: three steps and two. -/
theorem batchFixed_two_ranks : BatchFixed 5 1 2 :=
  (batchFixed_iff 5 1 (by decide)).mpr (by decide)

end ProbingBaselines.Dlrover.GradientAccumulation
