import Mathlib.Data.List.AList
import ProbingBaselines.Greyhound.ValidationTask

/-!
# The pause-and-validate protocol

The global controller dispatches tasks and collects their results
(`detector/control_plane/global_controller.py:73-129`) while every worker, paused in
`STATE_VALIDATE`, fetches and executes its task and then joins a broadcast of the control
state (`detector/event_handler.cpp:153-262`). The parties meet in Redis, where every command
is atomic, and in the communicator. A step is one Redis command of one party with the local
code up to its next command, the return of a blocking call, or the entry of one.
-/

namespace ProbingBaselines.Greyhound

/-- What a worker does with a task it took; `event_handler.cpp:176-195`. -/
inductive Execution where
  | gemm
  | p2p (args : P2pArgs)
  deriving DecidableEq

/-- The branch of `fetech_and_exec_task` for a task's text, `none` if parsing throws. -/
def execution (content : List Char) : Option Execution :=
  if content = computationTest then some .gemm else (parseTask content).map .p2p

/-- Where a worker stands in the `STATE_VALIDATE` loop; `event_handler.cpp:153-262`.
`checking` is group rank 0 about to read `control_state`; `R` is a serialised result. -/
inductive WorkerPc (R : Type) where
  | polling
  | acking (content : List Char)
  | running (e : Execution)
  | reporting (result : R)
  | checking
  | broadcasting
  | resumed
  | crashed
  deriving DecidableEq

/-- A worker and the number of loop iterations it has completed. -/
structure Worker (R : Type) where
  pc : WorkerPc R
  round : Nat
  deriving DecidableEq

/-- A dictionary from global ranks; `global_controller.py:100`. -/
abbrev Results (P : Type) := AList fun _ : Nat ↦ P

/-- Where the controller stands in the current task; `global_controller.py:73-111`. Ranks to
visit are group ranks, `r` of `deleting` is a global rank. -/
inductive Phase (P : Type) where
  | dispatching (left : List (Nat × Job))
  | awaiting (left : List (Nat × Nat))
  | awaitingRecver (acked : Bool) (left : List (Nat × Nat))
  | collecting (visit : List Nat) (results : Results P)
  | deleting (r : Nat) (visit : List Nat) (results : Results P)
  | resuming
  | monitoring
  | failed

/-- The controller, Redis and the workers. `todo` starts with the current task, `collected`
holds the dictionaries of the tasks before it, `sent` what group rank 0 has broadcast (whether
to keep validating). `entered` and `executed` only record, per rank, the calls entered and the
executions completed. -/
structure Fleet (R P : Type) where
  todo : List CommTask
  collected : List (Results P)
  phase : Phase P
  taskKey : Nat → Option (List Char)
  resultKey : Nat → Option R
  pausing : Bool
  workers : Nat → Worker R
  sent : List Bool
  entered : Nat → List Execution
  executed : Nat → List (Execution × R)

/-- A step of a party; results, and the order in which a set is iterated, come from outside. -/
inductive Act (R : Type) where
  | control
  | pass (order : List Nat)
  | poll (r : Nat)
  | ack (r : Nat)
  | finish (r : Nat) (result : R)
  | report (r : Nat)
  | check
  | leave (r : Nat)

/-- What a run is for: the clique, group rank 0 of the world communicator (by its global
rank), `PerformanceMetric.from_bytes`, and when a call that a rank has entered may return. -/
structure Setup (R P : Type) where
  clique : Clique
  root : Nat
  fromBytes : R → P
  returns : Fleet R P → Nat → Execution → Bool

namespace Setup

variable {R P : Type} (S : Setup R P)

/-- The start of the next task, or of `set_monitoring` after the last. -/
def begin : List CommTask → Phase P
  | [] => .resuming
  | t :: _ => .dispatching (t.writes S.clique)

/-- The controller's next operation, but for the start of a pass over the ranks. A missing
task key raises at `.decode()`. -/
def controlStep (s : Fleet R P) : Option (Fleet R P) :=
  match s.todo, s.phase with
  | _, .dispatching ((r, j) :: left) =>
    some { s with
      taskKey := Function.update s.taskKey r (some j.text)
      phase := .dispatching left }
  | t :: _, .dispatching [] => some { s with phase := .awaiting t.pairs }
  | _, .awaiting [] => some { s with phase := .collecting [] ∅ }
  | _, .awaiting (p :: left) =>
    match s.taskKey (S.clique.group2global p.1) with
    | none => some { s with phase := .failed }
    | some ret => some { s with phase := .awaitingRecver (ret == taskAcked) (p :: left) }
  | _, .awaitingRecver acked (p :: left) =>
    match s.taskKey (S.clique.group2global p.2) with
    | none => some { s with phase := .failed }
    | some ret => some { s with
        phase := if acked && ret == taskAcked then .awaiting left else .awaiting (p :: left) }
  | t :: ts, .collecting [] results =>
    if results.keys.length = t.allRanks.length then
      some { s with todo := ts, collected := s.collected ++ [results], phase := S.begin ts }
    else none
  | _, .collecting (g :: visit) results =>
    match s.resultKey (S.clique.group2global g) with
    | none => some { s with phase := .collecting visit results }
    | some res => some { s with
        phase := .deleting (S.clique.group2global g) visit
          (results.insert (S.clique.group2global g) (S.fromBytes res)) }
  | _, .deleting r visit results =>
    some { s with
      resultKey := Function.update s.resultKey r none
      phase := .collecting visit results }
  | _, .resuming => some { s with pausing := false, phase := .monitoring }
  | _, _ => none

/-- `for group_rank in all_ranks`, a set; `global_controller.py:101-102`. -/
def passStep (order : List Nat) (s : Fleet R P) : Option (Fleet R P) :=
  match s.todo, s.phase with
  | t :: _, .collecting [] results =>
    if results.keys.length ≠ t.allRanks.length ∧ order.Perm t.allRanks then
      some { s with phase := .collecting order results }
    else none
  | _, _ => none

/-- What follows `fetech_and_exec_task`: group rank 0 reads `control_state` before it enters
the broadcast, the others enter it at once; `event_handler.cpp:237-250`. -/
def afterTask (r : Nat) : WorkerPc R := if r = S.root then .checking else .broadcasting

/-- A worker moves to another point of the loop. -/
def moveTo (s : Fleet R P) (r : Nat) (pc : WorkerPc R) : Fleet R P :=
  { s with workers := Function.update s.workers r { s.workers r with pc := pc } }

/-- `GET` of the task key; `event_handler.cpp:158-171`. -/
def pollStep (r : Nat) (s : Fleet R P) : Option (Fleet R P) :=
  match (s.workers r).pc with
  | .polling =>
    if skips (s.taskKey r) then some (moveTo s r (S.afterTask r))
    else some (moveTo s r (.acking ((s.taskKey r).getD [])))
  | _ => none

/-- `SET` of the acknowledgement, then entry of the call; `event_handler.cpp:173-192`. -/
def ackStep (r : Nat) (s : Fleet R P) : Option (Fleet R P) :=
  match (s.workers r).pc with
  | .acking content =>
    let s := { s with taskKey := Function.update s.taskKey r (some taskAcked) }
    match execution content with
    | none => some (moveTo s r .crashed)
    | some e => some
        { moveTo s r (.running e) with
          entered := Function.update s.entered r (s.entered r ++ [e]) }
  | _ => none

/-- The call returns with a result; `event_handler.cpp:178`, `:189`. -/
def finishStep (r : Nat) (result : R) (s : Fleet R P) : Option (Fleet R P) :=
  match (s.workers r).pc with
  | .running e =>
    if S.returns s r e then some
      { moveTo s r (.reporting result) with
        executed := Function.update s.executed r (s.executed r ++ [(e, result)]) }
    else none
  | _ => none

/-- `SET` of the result; `event_handler.cpp:180`, `:193`. -/
def reportStep (r : Nat) (s : Fleet R P) : Option (Fleet R P) :=
  match (s.workers r).pc with
  | .reporting result => some
      { moveTo s r (S.afterTask r) with
        resultKey := Function.update s.resultKey r (some result) }
  | _ => none

/-- Group rank 0 reads `control_state` and enters the broadcast; `event_handler.cpp:237-247`. -/
def checkStep (s : Fleet R P) : Option (Fleet R P) :=
  match (s.workers S.root).pc with
  | .checking => some { moveTo s S.root .broadcasting with sent := s.sent ++ [s.pausing] }
  | _ => none

/-- The broadcast of a worker's round returns what group rank 0 entered it with;
`event_handler.cpp:252-260`. -/
def leaveStep (r : Nat) (s : Fleet R P) : Option (Fleet R P) :=
  match (s.workers r).pc, s.sent[(s.workers r).round]? with
  | .broadcasting, some true => some
      { s with workers := Function.update s.workers r ⟨.polling, (s.workers r).round + 1⟩ }
  | .broadcasting, some false => some (moveTo s r .resumed)
  | _, _ => none

/-- A step of any party. -/
def step (s : Fleet R P) : Act R → Option (Fleet R P)
  | .control => S.controlStep s
  | .pass order => passStep order s
  | .poll r => S.pollStep r s
  | .ack r => ackStep r s
  | .finish r result => S.finishStep r result s
  | .report r => S.reportStep r s
  | .check => S.checkStep s
  | .leave r => leaveStep r s

section Inversion

variable {S} {s s' : Fleet R P} {r : Nat}

theorem pollStep_cases (hs : S.pollStep r s = some s') :
    (s.workers r).pc = .polling ∧
      (skips (s.taskKey r) = true ∧ s' = moveTo s r (S.afterTask r) ∨
        skips (s.taskKey r) = false ∧ s' = moveTo s r (.acking ((s.taskKey r).getD []))) := by
  unfold pollStep at hs
  split at hs
  · next hpc =>
    refine ⟨hpc, ?_⟩
    split at hs
    · next hk => exact .inl ⟨hk, (Option.some.inj hs).symm⟩
    · next hk => exact .inr ⟨Bool.not_eq_true _ ▸ hk, (Option.some.inj hs).symm⟩
  · contradiction

theorem ackStep_cases (hs : ackStep r s = some s') :
    ∃ content, (s.workers r).pc = .acking content ∧
      (execution content = none ∧ s' = { moveTo s r .crashed with
          taskKey := Function.update s.taskKey r (some taskAcked) } ∨
        ∃ e, execution content = some e ∧ s' = { moveTo s r (.running e) with
          taskKey := Function.update s.taskKey r (some taskAcked)
          entered := Function.update s.entered r (s.entered r ++ [e]) }) := by
  unfold ackStep at hs
  split at hs
  · next content hpc =>
    refine ⟨content, hpc, ?_⟩
    dsimp only at hs
    split at hs
    · next he => exact .inl ⟨he, (Option.some.inj hs).symm⟩
    · next e he => exact .inr ⟨e, he, (Option.some.inj hs).symm⟩
  · contradiction

theorem finishStep_cases {result : R} (hs : S.finishStep r result s = some s') :
    ∃ e, (s.workers r).pc = .running e ∧ S.returns s r e = true ∧
      s' = { moveTo s r (.reporting result) with
        executed := Function.update s.executed r (s.executed r ++ [(e, result)]) } := by
  unfold finishStep at hs
  split at hs
  · next e hpc =>
    split at hs
    · next hret => exact ⟨e, hpc, hret, (Option.some.inj hs).symm⟩
    · contradiction
  · contradiction

theorem reportStep_cases (hs : S.reportStep r s = some s') :
    ∃ result, (s.workers r).pc = .reporting result ∧
      s' = { moveTo s r (S.afterTask r) with
        resultKey := Function.update s.resultKey r (some result) } := by
  unfold reportStep at hs
  split at hs
  · next result hpc => exact ⟨result, hpc, (Option.some.inj hs).symm⟩
  · contradiction

theorem checkStep_cases (hs : S.checkStep s = some s') :
    (s.workers S.root).pc = .checking ∧
      s' = { moveTo s S.root .broadcasting with sent := s.sent ++ [s.pausing] } := by
  unfold checkStep at hs
  split at hs
  · next hpc => exact ⟨hpc, (Option.some.inj hs).symm⟩
  · contradiction

theorem leaveStep_cases (hs : leaveStep r s = some s') :
    (s.workers r).pc = .broadcasting ∧
      (s.sent[(s.workers r).round]? = some true ∧
          s' = { s with
            workers := Function.update s.workers r ⟨.polling, (s.workers r).round + 1⟩ } ∨
        s.sent[(s.workers r).round]? = some false ∧ s' = moveTo s r .resumed) := by
  unfold leaveStep at hs
  split at hs
  · next hpc hsent => exact ⟨hpc, .inl ⟨hsent, (Option.some.inj hs).symm⟩⟩
  · next hpc hsent => exact ⟨hpc, .inr ⟨hsent, (Option.some.inj hs).symm⟩⟩
  · contradiction

end Inversion

/-- The controller about to dispatch, no result left in Redis, no task key that a worker would
not skip, and every worker at the top of its loop. -/
structure Start (tasks : List CommTask) (s : Fleet R P) : Prop where
  todo : s.todo = tasks
  collected : s.collected = []
  phase : s.phase = S.begin tasks
  taskKey : ∀ r, skips (s.taskKey r) = true
  resultKey : ∀ r, s.resultKey r = none
  pausing : s.pausing = true
  workers : ∀ r, s.workers r = ⟨.polling, 0⟩
  sent : s.sent = []
  entered : ∀ r, s.entered r = []
  executed : ∀ r, s.executed r = []

/-- The start with an empty Redis, as after `start_redis_server`; `global_controller.py:112-118`. -/
def fresh (tasks : List CommTask) : Fleet R P where
  todo := tasks
  collected := []
  phase := S.begin tasks
  taskKey := fun _ ↦ none
  resultKey := fun _ ↦ none
  pausing := true
  workers := fun _ ↦ ⟨.polling, 0⟩
  sent := []
  entered := fun _ ↦ []
  executed := fun _ ↦ []

theorem start_fresh (tasks : List CommTask) : S.Start tasks (S.fresh tasks) where
  todo := rfl
  collected := rfl
  phase := rfl
  taskKey := fun _ ↦ rfl
  resultKey := fun _ ↦ rfl
  pausing := rfl
  workers := fun _ ↦ rfl
  sent := rfl
  entered := fun _ ↦ rfl
  executed := fun _ ↦ rfl

end Setup

/-- Two ranks, numbered alike in the group and globally. -/
def pairClique : Clique where
  commAddrs := fun g ↦ if g = 0 then 4096 else 8192
  group2global := id
  commAddrs_lt := fun g ↦ by split <;> decide

end ProbingBaselines.Greyhound
