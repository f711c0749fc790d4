import Mathlib.Data.List.Basic
import Mathlib.Data.List.Forall2
import ProbingBaselines.Lib.Dict
import ProbingBaselines.Lib.Run

/-!
# Scaling with merged plans

`PodScaler.scale` with `with_merge` (`master/scaler/pod_scaler.py:213-250`) hands a plan to an
executor with one worker, or merges it into the pending plan while a scaling task is under way. The
task scales and then submits the pending plan (`pod_scaler.py:252-280`). The system below takes the
lock-protected blocks, `_scale` and the resubmission as steps, and records the plans submitted by
the callers and the plans passed to `_scale`.
-/

namespace ProbingBaselines.Dlrover

open Lib

/-- `ScalePlan` (`master/scaler/base_scaler.py:21-34`). -/
structure ScalePlan (Ty Res Nd Addr : Type) where
  nodeGroupResources : Dict Ty Res
  launchNodes : List Nd
  removeNodes : List Nd
  psAddrs : List Addr

section

variable {Ty Res Nd Addr : Type}

namespace ScalePlan

/-- `ScalePlan.empty` (`base_scaler.py:36-41`). -/
def empty (p : ScalePlan Ty Res Nd Addr) : Bool :=
  p.nodeGroupResources.items.isEmpty && p.launchNodes.isEmpty && p.removeNodes.isEmpty

/-- `ScalePlan.merge` (`base_scaler.py:43-46`): `ps_addrs` stays as it is. -/
def merge [DecidableEq Ty] (p plan : ScalePlan Ty Res Nd Addr) : ScalePlan Ty Res Nd Addr :=
  { p with
    nodeGroupResources := p.nodeGroupResources.update plan.nodeGroupResources
    launchNodes := p.launchNodes ++ plan.launchNodes
    removeNodes := p.removeNodes ++ plan.removeNodes }

/-- The addresses of the latest part that has any. -/
def latestAddrs (parts : List (ScalePlan Ty Res Nd Addr)) : List Addr :=
  (parts.reverse.find? fun q ↦ !q.psAddrs.isEmpty).elim [] psAddrs

/-- The resource of a type in the latest part that has one. -/
def latestResource [DecidableEq Ty] (parts : List (ScalePlan Ty Res Nd Addr)) (ty : Ty) :
    Option Res :=
  parts.reverse.findSome? fun q ↦ q.nodeGroupResources.get? ty

/-- What a plan made from the listed parts has to hold. -/
structure Carries [DecidableEq Ty] (parts : List (ScalePlan Ty Res Nd Addr))
    (p : ScalePlan Ty Res Nd Addr) : Prop where
  inhabited : parts ≠ []
  launch : p.launchNodes = parts.flatMap launchNodes
  remove : p.removeNodes = parts.flatMap removeNodes
  resources : ∀ ty, p.nodeGroupResources.get? ty = latestResource parts ty
  addrs : p.psAddrs = latestAddrs parts

end ScalePlan

/-- Where the worker stands in `_execute_scale_with_pending`; `resubmit` holds `next_plan`. -/
inductive ScalingStage (Plan : Type) where
  | scale
  | finish
  | resubmit (nextPlan : Plan)
  | leave

/-- The fields of the scaler that take part, the executor's queue and its worker. A future is named
by its number. -/
structure PodScaler (Ty Res Nd Addr : Type) where
  pendingPlan : Option (ScalePlan Ty Res Nd Addr)
  currentScaling : Option Nat
  futures : Nat
  queue : List (Nat × ScalePlan Ty Res Nd Addr)
  running : Option (Nat × ScalePlan Ty Res Nd Addr × ScalingStage (ScalePlan Ty Res Nd Addr))
  submitted : List (ScalePlan Ty Res Nd Addr)
  scaled : List (ScalePlan Ty Res Nd Addr)

/-- `raises` tells whether `_scale` ends with an exception. -/
inductive ScalerAct (Ty Res Nd Addr : Type) where
  | scale (plan : ScalePlan Ty Res Nd Addr)
  | takeTask
  | executeScale (raises : Bool)
  | finish
  | resubmit
  | leave

namespace PodScaler

def init : PodScaler Ty Res Nd Addr := ⟨none, none, 0, [], none, [], []⟩

/-- `Future.done`: the callable has returned. -/
def done (s : PodScaler Ty Res Nd Addr) (f : Nat) : Bool :=
  s.queue.all (fun task ↦ task.1 ≠ f) && s.running.all fun task ↦ task.1 ≠ f

/-- `self._scaling_executor.submit` with the assignment to `_current_scaling`. -/
def submit (s : PodScaler Ty Res Nd Addr) (plan : ScalePlan Ty Res Nd Addr) :
    PodScaler Ty Res Nd Addr :=
  { s with
    currentScaling := some s.futures
    futures := s.futures + 1
    queue := s.queue ++ [(s.futures, plan)] }

/-- The locked block of `scale` (`pod_scaler.py:227-248`). -/
def scale [DecidableEq Ty] (s : PodScaler Ty Res Nd Addr) (plan : ScalePlan Ty Res Nd Addr) :
    PodScaler Ty Res Nd Addr :=
  if s.currentScaling.all s.done then s.submit plan
  else match s.pendingPlan with
    | none => { s with pendingPlan := some plan }
    | some pending => { s with pendingPlan := some (pending.merge plan) }

/-- The locked block of `_execute_scale_with_pending` (`pod_scaler.py:265-273`), in the task of the
future `f`. -/
def finish (s : PodScaler Ty Res Nd Addr) (f : Nat) (plan : ScalePlan Ty Res Nd Addr) :
    PodScaler Ty Res Nd Addr :=
  match s.pendingPlan with
  | none => { s with currentScaling := none, running := some (f, plan, .leave) }
  | some pending =>
    if pending.empty then { s with currentScaling := none, running := some (f, plan, .leave) }
    else { s with pendingPlan := none, running := some (f, plan, .resubmit pending) }

/-- One step of a caller or of the worker. An exception of `_scale` is caught and logged, and
the block that follows is the same. -/
def step [DecidableEq Ty] (s : PodScaler Ty Res Nd Addr) :
    ScalerAct Ty Res Nd Addr → Option (PodScaler Ty Res Nd Addr)
  | .scale plan => some { s.scale plan with submitted := s.submitted ++ [plan] }
  | .takeTask =>
    match s.running, s.queue with
    | none, (f, plan) :: queue => some { s with queue := queue, running := some (f, plan, .scale) }
    | _, _ => none
  | .executeScale _ =>
    match s.running with
    | some (f, plan, .scale) =>
      some { s with running := some (f, plan, .finish), scaled := s.scaled ++ [plan] }
    | _ => none
  | .finish =>
    match s.running with
    | some (f, plan, .finish) => some (s.finish f plan)
    | _ => none
  | .resubmit =>
    match s.running with
    | some (f, plan, .resubmit nextPlan) =>
      some { s.submit nextPlan with running := some (f, plan, .leave) }
    | _ => none
  | .leave =>
    match s.running with
    | some (_, _, .leave) => some { s with running := none }
    | _ => none

/-- The worker has nothing left to do. -/
def Quiet [DecidableEq Ty] (s : PodScaler Ty Res Nd Addr) : Prop :=
  ∀ a, (∀ plan, a ≠ .scale plan) → s.step a = none

/-- The submitted plans, cut in their order into the parts of the plans passed to `_scale` and the
plans that are still to come; none is still to come once the worker has nothing left to do. -/
def LosesNoPlan [DecidableEq Ty] (s : PodScaler Ty Res Nd Addr) : Prop :=
  ∃ batches rest, s.submitted = batches.flatten ++ rest ∧
    List.Forall₂ ScalePlan.Carries batches s.scaled ∧
    (s.Quiet → s.pendingPlan = none ∧ rest = [])

/-- A plan merged into the pending one brings no addresses of its own, and the worker that has
scaled does not find a pending plan that counts as empty. -/
def Mergeable (s : PodScaler Ty Res Nd Addr) : ScalerAct Ty Res Nd Addr → Prop
  | .scale plan => ∀ p ∈ s.pendingPlan, plan.psAddrs = [] ∨ plan.psAddrs = p.psAddrs
  | .finish => ∀ p ∈ s.pendingPlan, p.empty = false
  | _ => True

instance [DecidableEq Addr] (s : PodScaler Ty Res Nd Addr) :
    (a : ScalerAct Ty Res Nd Addr) → Decidable (s.Mergeable a)
  | .scale plan =>
    inferInstanceAs (Decidable (∀ p ∈ s.pendingPlan, plan.psAddrs = [] ∨ plan.psAddrs = p.psAddrs))
  | .finish => inferInstanceAs (Decidable (∀ p ∈ s.pendingPlan, p.empty = false))
  | .takeTask | .executeScale _ | .resubmit | .leave => inferInstanceAs (Decidable True)

end PodScaler

/-! ### Merging -/

namespace ScalePlan

variable [DecidableEq Ty]

theorem Carries.single (p : ScalePlan Ty Res Nd Addr) : Carries [p] p where
  inhabited := List.cons_ne_nil _ _
  launch := (List.flatMap_singleton launchNodes p).symm
  remove := (List.flatMap_singleton removeNodes p).symm
  resources ty := by simp [latestResource]
  addrs := by
    simp only [latestAddrs, List.reverse_singleton, List.find?_singleton]
    cases h : p.psAddrs <;> simp [h]

/-- A merge keeps all that the pending plan carries if it brings no new addresses. -/
theorem Carries.merge {parts : List (ScalePlan Ty Res Nd Addr)} {p plan : ScalePlan Ty Res Nd Addr}
    (h : Carries parts p) (same : plan.psAddrs = [] ∨ plan.psAddrs = p.psAddrs) :
    Carries (parts ++ [plan]) (p.merge plan) where
  inhabited := by simp
  launch := by
    rw [List.flatMap_append, List.flatMap_singleton, ← h.launch]
    rfl
  remove := by
    rw [List.flatMap_append, List.flatMap_singleton, ← h.remove]
    rfl
  resources ty := by
    have update : (p.merge plan).nodeGroupResources.get? ty =
        (plan.nodeGroupResources.get? ty).or (p.nodeGroupResources.get? ty) := Dict.get?_update
    rw [update, h.resources ty, latestResource, latestResource, List.reverse_append,
      List.reverse_singleton, List.singleton_append, List.findSome?_cons]
    cases plan.nodeGroupResources.get? ty <;> rfl
  addrs := by
    have kept : (p.merge plan).psAddrs = p.psAddrs := rfl
    rw [kept, latestAddrs, List.reverse_append, List.reverse_singleton, List.singleton_append,
      List.find?_cons]
    cases found : plan.psAddrs with
    | nil =>
      rw [List.isEmpty_nil]
      exact h.addrs
    | cons a as =>
      rcases same with none | eq
      · rw [none] at found
        contradiction
      · rw [← eq, found]
        simp [found]

end ScalePlan

/-! ### The order of the plans -/

namespace PodScaler

/-- The plan of the running task that has not been passed to `_scale` or submitted yet. -/
def held (s : PodScaler Ty Res Nd Addr) : List (ScalePlan Ty Res Nd Addr) :=
  match s.running with
  | some (_, plan, .scale) => [plan]
  | some (_, _, .resubmit nextPlan) => [nextPlan]
  | _ => []

/-- The plans on their way to `_scale`, in the order in which they get there. -/
def inFlight (s : PodScaler Ty Res Nd Addr) : List (ScalePlan Ty Res Nd Addr) :=
  s.held ++ s.queue.map Prod.snd ++ s.pendingPlan.toList

/-- While the worker is inside a task nothing is queued and `_current_scaling` is its future; else
it is the future of the one queued task, or there is none and nothing is pending. -/
def OneTask (s : PodScaler Ty Res Nd Addr) : Prop :=
  match s.running with
  | none | some (_, _, .leave) =>
    (s.queue = [] ∧ s.currentScaling = none ∧ s.pendingPlan = none) ∨
      ∃ f plan, s.queue = [(f, plan)] ∧ s.currentScaling = some f
  | some (f, _, _) => s.queue = [] ∧ s.currentScaling = some f

/-- The invariant: the slot for the current scaling, and the order of the plans. -/
structure InOrder [DecidableEq Ty] (s : PodScaler Ty Res Nd Addr) : Prop where
  oneTask : s.OneTask
  batches : ∃ batches, s.submitted = batches.flatten ∧
    List.Forall₂ ScalePlan.Carries batches (s.scaled ++ s.inFlight)

/-- The last related pair of two lists. -/
theorem forall₂_concat {α β : Type} {R : α → β → Prop} {as : List α} {bs : List β} {b : β}
    (h : List.Forall₂ R as (bs ++ [b])) :
    ∃ as' a, as = as' ++ [a] ∧ List.Forall₂ R as' bs ∧ R a b := by
  rw [← List.forall₂_reverse_iff, List.reverse_append, List.reverse_singleton,
    List.singleton_append] at h
  rcases List.forall₂_cons_right_iff.mp h with ⟨a, as', hab, rest, eq⟩
  refine ⟨as'.reverse, a, ?_, ?_, hab⟩
  · rw [← List.reverse_reverse as, eq, List.reverse_cons]
  · rw [← List.forall₂_reverse_iff, List.reverse_reverse]
    exact rest

/-- The worker is outside a task, or in one that has nothing left to do but return. -/
def Outside (s : PodScaler Ty Res Nd Addr) : Prop :=
  s.running = none ∨ ∃ f plan, s.running = some (f, plan, .leave)

theorem held_outside {s : PodScaler Ty Res Nd Addr} (h : s.Outside) : s.held = [] := by
  rcases h with none | ⟨f, plan, eq⟩
  · rw [held, none]
  · rw [held, eq]

theorem oneTask_outside {s : PodScaler Ty Res Nd Addr} (h : s.Outside) :
    s.OneTask ↔ (s.queue = [] ∧ s.currentScaling = none ∧ s.pendingPlan = none) ∨
      ∃ f plan, s.queue = [(f, plan)] ∧ s.currentScaling = some f := by
  rcases h with none | ⟨f, plan, eq⟩
  · rw [OneTask, none]
  · rw [OneTask, eq]

/-- Either nothing is under way, or the current scaling is a future that is not done. -/
theorem OneTask.cases {s : PodScaler Ty Res Nd Addr} (h : s.OneTask) :
    (s.Outside ∧ s.queue = [] ∧ s.currentScaling = none ∧ s.pendingPlan = none) ∨
      ∃ f, s.currentScaling = some f ∧ s.done f = false := by
  have queued : s.Outside → (s.Outside ∧ s.queue = [] ∧ s.currentScaling = none ∧
      s.pendingPlan = none) ∨ ∃ f, s.currentScaling = some f ∧ s.done f = false := by
    intro outside
    rcases (oneTask_outside outside).mp h with idle | ⟨f, plan, queue, current⟩
    · exact .inl ⟨outside, idle⟩
    · exact .inr ⟨f, current, by simp [done, queue]⟩
  match eq : s.running with
  | none => exact queued (.inl eq)
  | some (f, plan, .leave) => exact queued (.inr ⟨f, plan, eq⟩)
  | some (f, plan, .scale) | some (f, plan, .finish) | some (f, plan, .resubmit _) =>
    rw [OneTask, eq] at h
    exact .inr ⟨f, h.2, by simp [done, eq]⟩

/-- The pending plan may change while a scaling is under way. -/
theorem OneTask.setPending {s : PodScaler Ty Res Nd Addr} (h : s.OneTask)
    (busy : s.currentScaling ≠ none) (pending : Option (ScalePlan Ty Res Nd Addr))
    (submitted : List (ScalePlan Ty Res Nd Addr)) :
    OneTask { s with pendingPlan := pending, submitted := submitted } := by
  match eq : s.running with
  | none | some (f, plan, .leave) =>
    rw [OneTask, eq] at h
    simp only [OneTask]
    rcases h with ⟨-, none, -⟩ | queued
    · exact absurd none busy
    · exact .inr queued
  | some (f, plan, .scale) | some (f, plan, .finish) | some (f, plan, .resubmit _) =>
    rw [OneTask, eq] at h
    simp only [OneTask]
    exact h

variable [DecidableEq Ty]

theorem scale_inOrder {s : PodScaler Ty Res Nd Addr} {plan : ScalePlan Ty Res Nd Addr}
    (meets : s.Mergeable (.scale plan)) (h : s.InOrder) :
    InOrder { s.scale plan with submitted := s.submitted ++ [plan] } := by
  rcases h with ⟨oneTask, batches, submitted, carried⟩
  rcases oneTask.cases with ⟨outside, queue, current, pending⟩ | ⟨f, current, busy⟩
  · have eq : s.scale plan = s.submit plan := by simp [scale, current]
    rw [eq]
    constructor
    · rw [oneTask_outside (s := { s.submit plan with submitted := s.submitted ++ [plan] }) outside]
      exact .inr ⟨s.futures, plan, by simp [submit, queue], rfl⟩
    · refine ⟨batches ++ [[plan]], by simp [submitted], ?_⟩
      have before : s.inFlight = [] := by simp [inFlight, held_outside outside, queue, pending]
      have held : held { s.submit plan with submitted := s.submitted ++ [plan] } = [] :=
        held_outside outside
      have after : inFlight { s.submit plan with submitted := s.submitted ++ [plan] } = [plan] := by
        rw [inFlight, held]
        simp [submit, queue, pending]
      rw [after]
      rw [before, List.append_nil] at carried
      exact List.rel_append carried (.cons (.single plan) .nil)
  · have keeps := fun pending ↦ oneTask.setPending (by simp [current]) pending
      (s.submitted ++ [plan])
    cases pending : s.pendingPlan with
    | none =>
      have eq : s.scale plan = { s with pendingPlan := some plan } := by
        simp [scale, current, busy, pending]
      rw [eq]
      refine ⟨keeps _, batches ++ [[plan]], by simp [submitted], ?_⟩
      show List.Forall₂ _ _ (s.scaled ++ (s.held ++ s.queue.map Prod.snd ++ [plan]))
      rw [inFlight, pending, Option.toList_none, List.append_nil] at carried
      rw [← List.append_assoc]
      exact List.rel_append carried (.cons (.single plan) .nil)
    | some p =>
      have eq : s.scale plan = { s with pendingPlan := some (p.merge plan) } := by
        simp [scale, current, busy, pending]
      rw [eq, submitted]
      rw [inFlight, pending, Option.toList_some, ← List.append_assoc] at carried
      rcases forall₂_concat carried with ⟨front, parts, rfl, carried, last⟩
      refine ⟨by rw [← submitted]; exact keeps _, front ++ [parts ++ [plan]], by simp, ?_⟩
      show List.Forall₂ _ _ (s.scaled ++ (s.held ++ s.queue.map Prod.snd ++ [p.merge plan]))
      rw [← List.append_assoc]
      exact List.rel_append carried (.cons (last.merge (meets p pending)) .nil)

theorem finish_inOrder {s : PodScaler Ty Res Nd Addr} {f : Nat} {plan : ScalePlan Ty Res Nd Addr}
    (meets : s.Mergeable .finish) (stage : s.running = some (f, plan, .finish)) (h : s.InOrder) :
    (s.finish f plan).InOrder := by
  rcases h with ⟨oneTask, batches, submitted, carried⟩
  rw [OneTask, stage] at oneTask
  rw [inFlight, held, stage, oneTask.1] at carried
  cases pending : s.pendingPlan with
  | none =>
    have eq : s.finish f plan =
        { s with currentScaling := none, running := some (f, plan, .leave) } := by
      rw [finish, pending]
    rw [eq]
    refine ⟨.inl ⟨oneTask.1, rfl, pending⟩, batches, submitted, ?_⟩
    simpa [inFlight, held, oneTask.1] using carried
  | some p =>
    have eq : s.finish f plan =
        { s with pendingPlan := none, running := some (f, plan, .resubmit p) } := by
      simp [finish, pending, meets p pending]
    rw [eq]
    refine ⟨oneTask, batches, submitted, ?_⟩
    simpa [inFlight, held, oneTask.1, pending] using carried

/-- Every step keeps the order of the plans. -/
theorem step_inOrder {s t : PodScaler Ty Res Nd Addr} {a : ScalerAct Ty Res Nd Addr}
    (meets : s.Mergeable a) (taken : s.step a = some t) (h : s.InOrder) : t.InOrder := by
  cases a with
  | scale plan =>
    cases taken
    exact scale_inOrder meets h
  | takeTask =>
    simp only [step] at taken
    split at taken
    · next f plan queue idle queued =>
      cases taken
      rcases h with ⟨oneTask, batches, submitted, carried⟩
      rw [oneTask_outside (.inl idle), queued] at oneTask
      rcases oneTask with ⟨no, -, -⟩ | ⟨f', plan', eq, current⟩
      · contradiction
      · cases eq
        refine ⟨⟨rfl, current⟩, batches, submitted, ?_⟩
        simpa [inFlight, held, idle, queued] using carried
    · contradiction
  | executeScale raises =>
    simp only [step] at taken
    split at taken
    · next f plan stage =>
      cases taken
      rcases h with ⟨oneTask, batches, submitted, carried⟩
      rw [OneTask, stage] at oneTask
      refine ⟨oneTask, batches, submitted, ?_⟩
      simpa [inFlight, held, stage] using carried
    · contradiction
  | finish =>
    simp only [step] at taken
    split at taken
    · next f plan stage =>
      cases taken
      exact finish_inOrder meets stage h
    · contradiction
  | resubmit =>
    simp only [step] at taken
    split at taken
    · next f plan nextPlan stage =>
      cases taken
      rcases h with ⟨oneTask, batches, submitted, carried⟩
      rw [OneTask, stage] at oneTask
      refine ⟨.inr ⟨s.futures, nextPlan, by simp [submit, oneTask.1], rfl⟩, batches, submitted, ?_⟩
      simpa [inFlight, held, stage, submit, oneTask.1] using carried
    · contradiction
  | leave =>
    simp only [step] at taken
    split at taken
    · next f plan stage =>
      cases taken
      rcases h with ⟨oneTask, batches, submitted, carried⟩
      rw [OneTask, stage] at oneTask
      refine ⟨oneTask, batches, submitted, ?_⟩
      simpa [inFlight, held, stage] using carried
    · contradiction

theorem run_inOrder {s : PodScaler Ty Res Nd Addr} {acts : List (ScalerAct Ty Res Nd Addr)}
    (run : Run step Mergeable init acts s) : s.InOrder := by
  apply run.invariant (P := InOrder)
  · exact ⟨.inl ⟨rfl, rfl, rfl⟩, [], rfl, .nil⟩
  · intro t u a h meets taken
    exact step_inOrder meets taken h

/-- A worker with nothing left to do is idle and its queue is empty. -/
theorem Quiet.idle {s : PodScaler Ty Res Nd Addr} (h : s.Quiet) :
    s.running = none ∧ s.queue = [] := by
  match running : s.running with
  | none =>
    refine ⟨rfl, ?_⟩
    cases queue : s.queue with
    | nil => rfl
    | cons task queue =>
      have := h .takeTask (by simp)
      simp [step, running, queue] at this
  | some (f, plan, .scale) =>
    have := h (.executeScale false) (by simp)
    simp [step, running] at this
  | some (f, plan, .finish) =>
    have := h .finish (by simp)
    simp [step, running] at this
  | some (f, plan, .resubmit _) =>
    have := h .resubmit (by simp)
    simp [step, running] at this
  | some (f, plan, .leave) =>
    have := h .leave (by simp)
    simp [step, running] at this

theorem InOrder.losesNoPlan {s : PodScaler Ty Res Nd Addr} (h : s.InOrder) : s.LosesNoPlan := by
  rcases h with ⟨oneTask, batches, submitted, carried⟩
  have carried' : List.Forall₂ ScalePlan.Carries (batches.take s.scaled.length) s.scaled := by
    simpa using List.forall₂_take s.scaled.length carried
  refine ⟨_, (batches.drop s.scaled.length).flatten, ?_, carried', ?_⟩
  · rw [submitted, ← List.flatten_append, List.take_append_drop]
  · intro quiet
    rcases quiet.idle with ⟨idle, queue⟩
    rw [oneTask_outside (.inl idle), queue] at oneTask
    rcases oneTask with ⟨-, -, pending⟩ | ⟨f, plan, no, -⟩
    · refine ⟨pending, ?_⟩
      have length := carried.length_eq
      rw [inFlight, held, idle, queue, pending] at length
      rw [List.drop_eq_nil_of_le]
      · rfl
      · simpa using Nat.le_of_eq length
    · contradiction

/-- Every submitted plan is passed to `_scale` once and in order, alone or in a merge that carries
all of it, in every run in which a merged plan brings no new addresses and the worker never finds
an empty plan pending. -/
theorem mergedScaling_losesNoPlan {s : PodScaler Ty Res Nd Addr}
    {acts : List (ScalerAct Ty Res Nd Addr)} (run : Run step Mergeable init acts s) :
    s.LosesNoPlan :=
  (run_inOrder run).losesNoPlan

end PodScaler

end

/-! ### Runs with merges -/

namespace PodScaler

/-- A plan that only launches nodes. -/
def launchPlan (nodes : List Nat) : ScalePlan Nat Nat Nat Nat := ⟨.empty, nodes, [], []⟩

/-- Two plans merged while the first one is scaled; `addrs` are the addresses of the last. -/
def mergeRun (addrs : List Nat) : List (ScalerAct Nat Nat Nat Nat) :=
  [.scale (launchPlan [0]), .takeTask, .scale (launchPlan [1]),
    .scale { launchPlan [2] with psAddrs := addrs }, .executeScale true, .finish, .resubmit, .leave,
    .takeTask, .executeScale false, .finish, .leave]

/-- A plan that holds nothing but addresses arrives while the first one is scaled. -/
def addrsRun : List (ScalerAct Nat Nat Nat Nat) :=
  [.scale (launchPlan [0]), .takeTask, .scale { launchPlan [] with psAddrs := [7] },
    .executeScale false, .finish, .leave]

theorem mergedScaling_losesNoPlan_run :
    ∃ s : PodScaler Nat Nat Nat Nat, Run step Mergeable init (mergeRun []) s ∧
      s.scaled = [launchPlan [0], launchPlan [1, 2]] ∧ s.LosesNoPlan := by
  have run : Run step Mergeable init (mergeRun []) _ := run_of_guarded rfl
  exact ⟨_, run, rfl, mergedScaling_losesNoPlan run⟩

/-- A worker that is outside every task, with an empty queue, has nothing left to do. -/
theorem quiet_of_idle {s : PodScaler Nat Nat Nat Nat} (idle : s.running = none)
    (queue : s.queue = []) : s.Quiet := by
  intro a other
  cases a with
  | scale plan => exact absurd rfl (other plan)
  | takeTask | executeScale _ | finish | resubmit | leave => simp [step, idle, queue]

/-- A merge drops the addresses of the merged plan, and a pending plan of addresses only stays
pending after the worker is done. -/
theorem mergedScaling_losesPlans :
    (∃ s : PodScaler Nat Nat Nat Nat, Run step anyStep init (mergeRun [7]) s ∧ ¬ s.LosesNoPlan) ∧
      ∃ s : PodScaler Nat Nat Nat Nat, Run step anyStep init addrsRun s ∧ ¬ s.LosesNoPlan := by
  have lost : Run step anyStep init (mergeRun [7])
      ⟨none, none, 2, [], none,
        [launchPlan [0], launchPlan [1], { launchPlan [2] with psAddrs := [7] }],
        [launchPlan [0], launchPlan [1, 2]]⟩ := run_of_foldlM rfl
  have stale : Run step anyStep init addrsRun
      ⟨some { launchPlan [] with psAddrs := [7] }, none, 1, [], none,
        [launchPlan [0], { launchPlan [] with psAddrs := [7] }], [launchPlan [0]]⟩ :=
    run_of_foldlM rfl
  refine ⟨⟨_, lost, ?_⟩, ⟨_, stale, ?_⟩⟩
  · rintro ⟨batches, rest, submitted, carried, quiet⟩
    rw [(quiet (quiet_of_idle rfl rfl)).2, List.append_nil] at submitted
    obtain ⟨front, parts, rfl, -, last⟩ := @forall₂_concat _ _ _ _ [_] _ carried
    have reversed := congrArg List.reverse submitted
    rw [List.flatten_append, List.flatten_singleton, List.reverse_append] at reversed
    have addrs := last.addrs
    rw [ScalePlan.latestAddrs] at addrs
    cases eq : parts.reverse with
    | nil => exact last.inhabited (List.reverse_eq_nil_iff.mp eq)
    | cons p before =>
      rw [eq, List.cons_append] at reversed
      have latest : ({ launchPlan [2] with psAddrs := [7] } : ScalePlan Nat Nat Nat Nat) = p :=
        (List.cons.inj reversed).1
      rw [eq, ← latest] at addrs
      rw [List.find?_cons_of_pos (by decide)] at addrs
      exact absurd addrs (by decide)
  · rintro ⟨batches, rest, submitted, carried, quiet⟩
    exact absurd (quiet (quiet_of_idle rfl rfl)).1 (by simp)

end PodScaler

end ProbingBaselines.Dlrover
