import ProbingBaselines.Dlrover.PrimeControl

/-!
# The call stacks of the prime manager

Which coroutine awaits which one, and at which of its places. A stack is a chain of such calls; a
main loop is always at its bottom.
-/

namespace ProbingBaselines.Dlrover

open Lib

variable {V R N : Type}

namespace PrimeFrame

/-- The coroutine of a frame, at its first place. -/
def routine : PrimeFrame V N → PrimeFrame V N
  | .masterStart _ => .masterStart .start
  | .prepare _ => .prepare .start
  | .setupActors actors _ => .setupActors actors .start
  | .nodesCheck _ => .nodesCheck .start
  | .start _ => .start .start
  | .mainLoop _ => .mainLoop .test
  | .restartActors actors byJob _ => .restartActors actors byJob .start
  | .doFailover actor _ => .doFailover actor .start
  | .relaunchNodes nodes group _ => .relaunchNodes nodes group .start
  | .relaunchSingle actor _ => .relaunchSingle actor .start
  | .relaunchGroup nodes _ => .relaunchGroup nodes .start
  | .restartJob withNodeRelaunch _ => .restartJob withNodeRelaunch .start
  | .processFailover _ => .processFailover .start

/-- The second frame awaits the first one where it stands, or the first one begins a task. -/
def calledBy : PrimeFrame V N → Option (PrimeFrame V N) → Prop
  | .prepare _ => fun
    | some (.masterStart .prepared) => True
    | _ => False
  | .setupActors _ _ => fun
    | some (.prepare .setUp) | some (.restartActors _ _ .setUp)
    | some (.doFailover _ (.setUp _)) => True
    | _ => False
  | .nodesCheck _ => fun
    | some (.prepare .checked) | some (.restartJob _ .checked) => True
    | _ => False
  | .start _ => fun
    | some (.masterStart .started) | some (.restartJob _ .started) => True
    | _ => False
  | .restartActors _ _ _ => fun
    | none | some (.restartJob _ .restarted) => True
    | _ => False
  | .relaunchNodes nodes group _ => fun
    | some (.relaunchSingle _ (.relaunched node)) => nodes = [node] ∧ group = false
    | some (.relaunchGroup nodes' .done) => nodes = nodes' ∧ group = true
    | _ => False
  | .relaunchSingle _ _ => fun
    | some (.doFailover _ (.relaunched _)) | some (.restartJob _ .relaunched) => True
    | _ => False
  | .relaunchGroup _ _ => fun
    | some (.relaunchSingle _ .grouped) => True
    | _ => False
  | .restartJob _ _ => fun
    | none | some (.doFailover _ (.restarted _)) | some (.processFailover .restarted) => True
    | _ => False
  | .processFailover _ => fun
    | none | some (.mainLoop .failureHandled) | some (.mainLoop .finishedHandled) => True
    | _ => False
  | .masterStart _ | .mainLoop _ | .doFailover _ _ => fun
    | none => True
    | _ => False

def isMainLoop : PrimeFrame V N → Bool
  | .mainLoop _ => true
  | _ => false

theorem calledBy_routine (f : PrimeFrame V N) (g : Option (PrimeFrame V N)) :
    f.routine.calledBy g = f.calledBy g := by
  cases f <;> rfl

theorem isMainLoop_routine (f : PrimeFrame V N) : f.routine.isMainLoop = f.isMainLoop := by
  cases f <;> rfl

variable {f g : PrimeFrame V N} {rest : List (PrimeFrame V N)}

theorem not_isMainLoop_of_calledBy (h : f.calledBy (some g)) : f.isMainLoop = false := by
  cases f with
  | mainLoop place => exact h.elim
  | _ => rfl

/-- A coroutine that is only started as a task is at the bottom of its stack. -/
theorem bottom_of_uncalled (stack : TaskWorld.IsStack calledBy (f :: rest))
    (uncalled : ∀ g, ¬ f.calledBy (some g)) : rest = [] := by
  cases rest with
  | nil => rfl
  | cons g rest => exact absurd stack.1 (uncalled g)

theorem calledBy_start {place : StartAt}
    (stack : TaskWorld.IsStack calledBy (start place :: rest)) :
    ∃ rest', rest = .masterStart .started :: rest' ∨
      ∃ withNodeRelaunch, rest = .restartJob withNodeRelaunch .started :: rest' := by
  cases rest with
  | nil => exact stack.1.elim
  | cons g rest =>
    have called : (start place).calledBy (some g) := stack.1
    cases g with
    | masterStart waits =>
      cases waits with
      | started => exact ⟨rest, .inl rfl⟩
      | _ => exact called.elim
    | restartJob withNodeRelaunch waits =>
      cases waits with
      | started => exact ⟨rest, .inr ⟨_, rfl⟩⟩
      | _ => exact called.elim
    | _ => exact called.elim

/-- What awaits `_relaunch_nodes`: the relaunch of a single node, or that of a group. -/
theorem calledBy_relaunchNodes {nodes : List N} {group : Bool} {place : RelaunchAt}
    (stack : TaskWorld.IsStack calledBy (relaunchNodes (V := V) nodes group place :: rest)) :
    (∃ actor node rest', rest = .relaunchSingle actor (.relaunched node) :: rest' ∧
      nodes = [node] ∧ group = false) ∨ group = true := by
  cases rest with
  | nil => exact stack.1.elim
  | cons g rest =>
    have called : (relaunchNodes nodes group place).calledBy (some g) := stack.1
    cases g with
    | relaunchSingle actor waits =>
      cases waits with
      | relaunched node => exact .inl ⟨_, _, rest, rfl, called⟩
      | _ => exact called.elim
    | relaunchGroup nodes' waits =>
      cases waits with
      | done => exact .inr called.2
      | _ => exact called.elim
    | _ => exact called.elim

theorem calledBy_restartJob {withNodeRelaunch : Option V} {place : JobAt}
    (stack : TaskWorld.IsStack calledBy (restartJob withNodeRelaunch place :: rest)) :
    rest = [] ∨ ∃ rest', rest = .processFailover .restarted :: rest' ∨
      ∃ actor up, rest = .doFailover actor (.restarted up) :: rest' := by
  cases rest with
  | nil => exact .inl rfl
  | cons g rest =>
    have called : (restartJob withNodeRelaunch place).calledBy (some g) := stack.1
    cases g with
    | doFailover actor waits =>
      cases waits with
      | restarted up => exact .inr ⟨rest, .inr ⟨_, _, rfl⟩⟩
      | _ => exact called.elim
    | processFailover waits =>
      cases waits with
      | restarted => exact .inr ⟨rest, .inl rfl⟩
      | _ => exact called.elim
    | _ => exact called.elim

theorem calledBy_processFailover {place : ProcessAt}
    (stack : TaskWorld.IsStack calledBy (processFailover place :: rest)) :
    rest = [] ∨ ∃ rest', rest = .mainLoop .failureHandled :: rest' ∨
      rest = .mainLoop .finishedHandled :: rest' := by
  cases rest with
  | nil => exact .inl rfl
  | cons g rest =>
    have called : (processFailover place).calledBy (some g) := stack.1
    cases g with
    | mainLoop waits =>
      cases waits with
      | failureHandled => exact .inr ⟨rest, .inl rfl⟩
      | finishedHandled => exact .inr ⟨rest, .inr rfl⟩
      | _ => exact called.elim
    | _ => exact called.elim

end PrimeFrame

/-! ### What comes next -/

/-- A frame stays in its coroutine, calls another one from its first place, returns, or raises. It
raises `error` or what it was resumed with. -/
inductive NextCase (f : PrimeFrame V N) :
    Option PrimeError → Next (PrimeFrame V N) PrimeError → Prop where
  | stays {sig : Option PrimeError} {f' : PrimeFrame V N} (same : f'.routine = f.routine) :
    NextCase f sig (.goto f')
  | awaits {sig : Option PrimeError} {f' : PrimeFrame V N} (same : f'.routine = f.routine) :
    NextCase f sig (.await f')
  | calls {sig : Option PrimeError} {caller callee : PrimeFrame V N}
    (same : caller.routine = f.routine) (called : callee.calledBy (some caller))
    (first : callee.routine = callee) : NextCase f sig (.call caller callee)
  | returns {sig : Option PrimeError} : NextCase f sig .ret
  | passes (e : PrimeError) : NextCase f (some e) (.throw e)
  | raises {sig : Option PrimeError} : NextCase f sig (.throw .error)

namespace PrimeManager

variable (job : PrimeJob V R) (s : PrimeManager V R N) (sig : Option PrimeError)
  (input : PrimeInput N)

theorem execMasterStart_next (place : MasterStartAt) :
    NextCase (.masterStart place) sig (s.execMasterStart place sig).next := by
  fun_cases execMasterStart
  all_goals constructor
  all_goals trivial

theorem execPrepare_next (place : PrepareAt) :
    NextCase (.prepare place) sig (s.execPrepare job place sig input).next := by
  fun_cases execPrepare
  all_goals constructor
  all_goals trivial

theorem execNodesCheck_next (place : CheckAt) :
    NextCase (.nodesCheck place) sig (s.execNodesCheck job place sig).next := by
  fun_cases execNodesCheck
  all_goals constructor
  all_goals trivial

theorem execStart_next (place : StartAt) (fresh : Nat) :
    NextCase (.start place) sig (s.execStart fresh place sig).next := by
  fun_cases execStart
  all_goals constructor
  all_goals trivial

theorem execMainLoop_next (place : LoopAt) :
    NextCase (.mainLoop place) sig (s.execMainLoop job place sig).next := by
  fun_cases execMainLoop
  all_goals constructor
  all_goals trivial

theorem execRelaunchGroup_next (nodes : List N) (place : GroupAt) :
    NextCase (.relaunchGroup nodes place) sig (s.execRelaunchGroup nodes place sig).next := by
  fun_cases execRelaunchGroup
  all_goals constructor
  all_goals trivial

theorem execRestartJob_next (live : Nat → Bool) (withNodeRelaunch : Option V) (place : JobAt) :
    NextCase (.restartJob withNodeRelaunch place) sig
      (s.execRestartJob job live withNodeRelaunch place sig).next := by
  fun_cases execRestartJob
  all_goals constructor
  all_goals trivial

theorem execRelaunchNodes_next [DecidableEq N] (nodes : List N) (group : Bool)
    (place : RelaunchAt) :
    NextCase (.relaunchNodes nodes group place) sig
      (s.execRelaunchNodes job nodes group place sig input).next := by
  fun_cases execRelaunchNodes
  all_goals constructor
  all_goals trivial

/-- Only a request cancels a task. -/
theorem wakes_cancelled (ctx : TaskContext) (f : PrimeFrame V N) :
    s.wakes job ctx f (some .cancelled) = false := by
  cases f with
  | masterStart place | prepare place | setupActors _ place | nodesCheck place | start place
  | mainLoop place | restartActors _ _ place | doFailover _ place | relaunchNodes _ _ place
  | relaunchSingle _ place | relaunchGroup _ place | restartJob _ place | processFailover place =>
    cases place <;> rfl

variable [DecidableEq V]

theorem execSetupActors_next (actors : List V) (place : SetupAt) :
    NextCase (.setupActors actors place) sig (s.execSetupActors actors place sig input).next := by
  fun_cases execSetupActors
  all_goals constructor
  all_goals trivial

theorem execRestartActors_next (actors : List V) (byJob : Bool) (place : RestartActorsAt) :
    NextCase (.restartActors actors byJob place) sig
      (s.execRestartActors job actors byJob place sig input).next := by
  fun_cases execRestartActors
  all_goals constructor
  all_goals trivial

theorem execProcessFailover_next [DecidableEq R] (place : ProcessAt) :
    NextCase (.processFailover place) sig (s.execProcessFailover job place sig).next := by
  fun_cases execProcessFailover
  all_goals constructor
  all_goals trivial

theorem execDoFailover_next [DecidableEq R] (actor : V) (place : FailoverAt) :
    NextCase (.doFailover actor place) sig
      (s.execDoFailover job actor place sig input).next := by
  fun_cases execDoFailover
  all_goals constructor
  all_goals trivial

theorem execRelaunchSingle_next [DecidableEq N] (actor : V) (place : SingleAt N) :
    NextCase (.relaunchSingle actor place) sig
      (s.execRelaunchSingle actor place sig input).next := by
  fun_cases execRelaunchSingle
  all_goals constructor
  all_goals trivial

/-- What comes after each frame. -/
theorem exec_next [DecidableEq R] [DecidableEq N] (ctx : TaskContext) (f : PrimeFrame V N) :
    NextCase f sig (s.exec job ctx f sig input).next := by
  cases f with
  | masterStart place => exact s.execMasterStart_next sig place
  | prepare place => exact s.execPrepare_next job sig input place
  | setupActors actors place => exact s.execSetupActors_next sig input actors place
  | nodesCheck place => exact s.execNodesCheck_next job sig place
  | start place => exact s.execStart_next sig place ctx.fresh
  | mainLoop place => exact s.execMainLoop_next job sig place
  | restartActors actors byJob place =>
    exact s.execRestartActors_next job sig input actors byJob place
  | doFailover actor place => exact s.execDoFailover_next job sig input actor place
  | relaunchNodes nodes group place =>
    exact s.execRelaunchNodes_next job sig input nodes group place
  | relaunchSingle actor place => exact s.execRelaunchSingle_next sig input actor place
  | relaunchGroup nodes place => exact s.execRelaunchGroup_next sig nodes place
  | restartJob withNodeRelaunch place =>
    exact s.execRestartJob_next job sig ctx.live withNodeRelaunch place
  | processFailover place => exact s.execProcessFailover_next job sig place

/-- A call from outside starts a coroutine at its first place, and no main loop. -/
theorem call_starts [DecidableEq R] [DecidableEq N] {x : PrimeCall V} {f : PrimeFrame V N}
    (starts : (s.call job x).2 = some f) :
    f.routine = f ∧ f.isMainLoop = false ∧ f.calledBy none := by
  cases x with
  | start | restart =>
    cases starts
    exact ⟨rfl, rfl, trivial⟩
  | restartActors actors =>
    obtain ⟨-, eq⟩ := Option.ite_none_right_eq_some.mp starts
    cases eq
    exact ⟨rfl, rfl, trivial⟩
  | stop => contradiction
  | reportActorRestarted v =>
    simp only [call] at starts
    split at starts
    · obtain ⟨-, eq⟩ := Option.ite_none_right_eq_some.mp starts
      cases eq
      exact ⟨rfl, rfl, trivial⟩
    · contradiction
  | reportExecutionResult v result =>
    simp only [call] at starts
    split at starts <;> contradiction

end PrimeManager

namespace NextCase

variable {f : PrimeFrame V N} {sig : Option PrimeError} {next : Next (PrimeFrame V N) PrimeError}

/-- Every call is one of `calledBy`. -/
theorem keepsBelow (h : NextCase f sig next) :
    TaskWorld.KeepsBelow PrimeFrame.calledBy f next := by
  have kept : ∀ {f' : PrimeFrame V N}, f'.routine = f.routine →
      ∀ g, f.calledBy g → f'.calledBy g := by
    intro f' same g called
    rw [← PrimeFrame.calledBy_routine, same, PrimeFrame.calledBy_routine]
    exact called
  cases h with
  | stays same | awaits same => exact kept same
  | calls same called _ => exact ⟨called, kept same⟩
  | returns | passes | raises => trivial

/-- A frame of the same coroutine, or one that begins. -/
theorem routine_of_mem (h : NextCase f sig next) {f' : PrimeFrame V N} (mem : f' ∈ next.frames) :
    f'.routine = f.routine ∨ f'.routine = f' := by
  cases h with
  | stays same | awaits same =>
    cases List.mem_singleton.mp mem
    exact .inl same
  | calls same called first =>
    rcases List.mem_cons.mp mem with rfl | mem
    · exact .inr first
    · cases List.mem_singleton.mp mem
      exact .inl same
  | returns | passes | raises => contradiction

/-- Only a main loop goes on as one. -/
theorem isMainLoop_of_mem (h : NextCase f sig next) {f' : PrimeFrame V N}
    (mem : f' ∈ next.frames) (loop : f'.isMainLoop = true) : f.isMainLoop = true := by
  rw [← PrimeFrame.isMainLoop_routine] at loop ⊢
  cases h with
  | stays same | awaits same =>
    cases List.mem_singleton.mp mem
    rwa [← same]
  | calls same called _ =>
    rcases List.mem_cons.mp mem with rfl | mem
    · rw [PrimeFrame.isMainLoop_routine, PrimeFrame.not_isMainLoop_of_calledBy called] at loop
      contradiction
    · cases List.mem_singleton.mp mem
      rwa [← same]
  | returns | passes | raises => contradiction

/-- A cancellation that is raised was received. -/
theorem received (h : NextCase f sig next)
    (raised : next.signal = some (some .cancelled)) : sig = some .cancelled := by
  cases h with
  | passes e => exact Option.some.inj raised
  | raises => cases Option.some.inj (Option.some.inj raised)
  | stays | awaits | calls | returns => simp [Next.signal] at raised

end NextCase

/-- Every stack is a chain of calls. -/
theorem PrimeWorld.stacked_step [DecidableEq V] [DecidableEq R] [DecidableEq N]
    {job : PrimeJob V R} {w w' : PrimeWorld V R N} {l : PrimeLabel V N}
    (h : w.Stacked PrimeFrame.calledBy) (taken : step job w l = some w') :
    w'.Stacked PrimeFrame.calledBy := by
  refine TaskWorld.stacked_step (c := primeCoroutines job) ?_ ?_ ?_ taken h
  · exact fun ctx s f sig input ↦ (s.exec_next job sig input ctx f).keepsBelow
  · intro ctx s f sig input g spawn
    cases s.exec_spawned job ctx f sig input g spawn
    trivial
  · exact fun x s f start ↦ (s.call_starts job start).2.2

end ProbingBaselines.Dlrover
