import ProbingBaselines.Dlrover.PrimeCalls
import ProbingBaselines.Dlrover.PrimeControl

/-!
# The books of the prime manager

The failover flags, the restart counts and the removed nodes: which coroutine writes which of them.
-/

namespace ProbingBaselines.Dlrover

open Lib

variable {V R N : Type}

/-- What the manager keeps about failovers, restarts and relaunches. -/
structure PrimeBooks (V R N : Type) where
  failoverStage : List R
  jobRestartCount : Nat
  jobRestarts : Nat
  nodeRestartCount : Nat
  removedNodes : List N
  relaunchedNodes : List N
  restartCount : V → Nat
  actorRestarts : V → Nat

namespace PrimeManager

def books (s : PrimeManager V R N) : PrimeBooks V R N where
  failoverStage := s.failoverStage
  jobRestartCount := s.jobRestartCount
  jobRestarts := s.jobRestarts
  nodeRestartCount := s.nodeRestartCount
  removedNodes := s.removedNodes
  relaunchedNodes := s.relaunchedNodes
  restartCount v := (s.vertex v).restartCount
  actorRestarts := s.actorRestarts

/-! ### Functions without an await -/

theorem books_setFailoverStage [DecidableEq R] (s : PrimeManager V R N) (role : R) :
    ∃ flags, (s.setFailoverStage role).books = { s.books with failoverStage := flags } := by
  rw [setFailoverStage]
  split <;> exact ⟨_, rfl⟩

theorem books_clearFailoverStage [DecidableEq R] {s t : PrimeManager V R N} {role : R}
    (h : s.clearFailoverStage (some role) = some t) :
    ∃ flags, t.books = { s.books with failoverStage := flags } := by
  obtain ⟨-, cleared⟩ := Option.ite_none_right_eq_some.mp h
  cases cleared
  exact ⟨_, rfl⟩

/-- The flag of an upgraded failover is cleared first. -/
theorem books_clearUpgrade [DecidableEq R] {s t : PrimeManager V R N} {role : R} {up : Bool}
    (h : (if up then s.clearFailoverStage (some role) else some s) = some t) :
    ∃ flags, t.books = { s.books with failoverStage := flags } := by
  cases up with
  | true => exact books_clearFailoverStage h
  | false =>
    cases h
    exact ⟨_, rfl⟩

@[simp]
theorem books_requestStop (s : PrimeManager V R N) (code : Int) :
    (s.requestStop code).books = s.books := by
  rw [requestStop]
  split
  · rfl
  · split <;> rfl

variable [DecidableEq V]

/-- An update of a vertex that does not count a restart. -/
theorem books_updateVertex (s : PrimeManager V R N) (v : V) {f : VertexState N → VertexState N}
    (keeps : ∀ x, (f x).restartCount = x.restartCount) :
    (s.updateVertex v f).books = s.books := by
  have counts : ∀ v', ((s.updateVertex v f).vertex v').restartCount =
      (s.vertex v').restartCount := by
    intro v'
    by_cases same : v' = v
    · simp [updateVertex, same, keeps]
    · simp [updateVertex, same]
  simp only [books, counts]
  rfl

theorem books_updateVertices (vs : List V) {f : VertexState N → VertexState N}
    (keeps : ∀ x, (f x).restartCount = x.restartCount) :
    ∀ s : PrimeManager V R N, (s.updateVertices vs f).books = s.books := by
  induction vs with
  | nil => exact fun s ↦ rfl
  | cons v vs ih => exact fun s ↦ (ih _).trans (s.books_updateVertex v keeps)

theorem books_informVertices (infos : List (V × N)) : ∀ s : PrimeManager V R N,
    (infos.foldl (fun s (v, node) ↦
      s.updateVertex v fun x ↦ { x with nodeInfo := some node, isReady := true }) s).books =
        s.books := by
  induction infos with
  | nil => exact fun s ↦ rfl
  | cons info infos ih => exact fun s ↦ (ih _).trans (s.books_updateVertex info.1 fun _ ↦ rfl)

theorem books_recordFailure (job : PrimeJob V R) (s : PrimeManager V R N) :
    (s.recordFailure job).books = s.books := by
  rw [recordFailure]
  split
  · rfl
  · exact s.books_updateVertex _ fun _ ↦ rfl

theorem books_dealWithActorRestarting [DecidableEq R] [DecidableEq N] (s : PrimeManager V R N)
    (job : PrimeJob V R) (v : V) : (s.dealWithActorRestarting job v).1.books = s.books := by
  have cleared := s.books_updateVertex v (f := fun x ↦ { x with isReady := false }) fun _ ↦ rfl
  rw [dealWithActorRestarting]
  split
  · exact cleared
  · split
    · exact cleared
    · split
      · exact cleared
      · split
        all_goals
          refine (books_updateVertex _ v ?_).trans cleared
          exact fun _ ↦ rfl

theorem restartCount_updateVertex (s : PrimeManager V R N) (v v' : V) :
    ((s.updateVertex v fun x ↦ { x with restartCount := x.restartCount + 1 }).vertex
      v').restartCount = (s.vertex v').restartCount + if v = v' then 1 else 0 := by
  by_cases same : v = v'
  · simp [updateVertex, same]
  · simp [updateVertex, same, Ne.symm same]

/-- The counting loop of `restart_actors` raises restart counts. When it goes through, each count
has grown by the occurrences of its actor and is within the limit. -/
theorem books_countRestarts (job : PrimeJob V R) (vs : List V) : ∀ s : PrimeManager V R N,
    ∃ counts, (s.countRestarts job vs).1.books = { s.books with restartCount := counts } ∧
      (∀ v, (s.vertex v).restartCount ≤ counts v) ∧
      ((s.countRestarts job vs).2 = true → ∀ v,
        counts v = (s.vertex v).restartCount + vs.count v ∧
          (v ∈ vs → counts v ≤ job.maxRestart v)) := by
  induction vs with
  | nil =>
    intro s
    refine ⟨s.books.restartCount, rfl, fun v ↦ le_rfl, fun _ v ↦ ⟨?_, ?_⟩⟩
    · simp [books]
    · simp
  | cons v vs ih =>
    intro s
    have once := s.restartCount_updateVertex v
    rw [countRestarts]
    generalize raised : s.updateVertex v (fun x ↦ { x with restartCount := x.restartCount + 1 }) = t
      at once
    have kept : ∀ counts, ({ t.books with restartCount := counts } : PrimeBooks V R N) =
        { s.books with restartCount := counts } := by
      intro counts
      rw [← raised]
      rfl
    split
    · next exceeded =>
      refine ⟨fun v ↦ (t.vertex v).restartCount, ?_, ?_, ?_⟩
      · exact (t.books_requestStop 1).trans (kept _)
      · intro v'
        exact (once v').ge.trans' (Nat.le_add_right _ _)
      · intro goes
        contradiction
    · next within =>
      obtain ⟨counts, books, grows, through⟩ := ih t
      refine ⟨counts, books.trans (kept _), ?_, ?_⟩
      · intro v'
        have := grows v'
        rw [once] at this
        omega
      · intro goes v'
        rcases through goes v' with ⟨counted, limit⟩
        have single := once v'
        rw [List.count_cons]
        by_cases same : v = v'
        · subst same
          refine ⟨by simp at single ⊢; omega, fun _ ↦ ?_⟩
          by_cases mem : v ∈ vs
          · exact limit mem
          · rw [List.count_eq_zero_of_not_mem mem] at counted
            omega
        · refine ⟨by simp [same] at single ⊢; omega, fun mem ↦ limit ?_⟩
          exact (List.mem_cons.mp mem).resolve_left (Ne.symm same)

/-! ### The coroutines -/

/-- What executing a frame does to the books. -/
inductive BooksCase [DecidableEq R] [DecidableEq N] (job : PrimeJob V R) (s : PrimeManager V R N) :
    PrimeFrame V N → PrimeOutcome V R N → Prop where
  | same {f : PrimeFrame V N} {o : PrimeOutcome V R N} (books : o.data.books = s.books) :
    BooksCase job s f o
  | restarts {actors : List V} {byJob : Bool} {place : RestartActorsAt} {o : PrimeOutcome V R N}
    (counts restarts : V → Nat)
    (books : o.data.books = { s.books with restartCount := counts, actorRestarts := restarts })
    (grows : ∀ v, (s.vertex v).restartCount ≤ counts v)
    (counted : restarts = s.actorRestarts ∨ ∀ v,
      restarts v = s.actorRestarts v + actors.count v ∧
        counts v = (s.vertex v).restartCount + actors.count v ∧
          (v ∈ actors → counts v ≤ job.maxRestart v)) :
    BooksCase job s (.restartActors actors byJob place) o
  | restartsJob {withNodeRelaunch : Option V} {place : JobAt} {o : PrimeOutcome V R N}
    (restarts : Nat) (books : o.data.books =
      { s.books with jobRestartCount := s.jobRestartCount + 1, jobRestarts := restarts })
    (counted : restarts = s.jobRestarts ∨
      (restarts = s.jobRestarts + 1 ∧ s.jobRestartCount < job.jobMaxRestart)) :
    BooksCase job s (.restartJob withNodeRelaunch place) o
  | relaunches {nodes : List N} {group : Bool} {place : RelaunchAt} {o : PrimeOutcome V R N}
    (count : Nat) (removed relaunched : List N) (books : o.data.books =
      { s.books with
        nodeRestartCount := count, removedNodes := removed, relaunchedNodes := relaunched })
    (counted : relaunched.length + s.nodeRestartCount = s.relaunchedNodes.length + count)
    (kept : s.relaunchedNodes <+: relaunched) :
    BooksCase job s (.relaunchNodes nodes group place) o
  | flags {f : PrimeFrame V N} {o : PrimeOutcome V R N} (flags : List R)
    (books : o.data.books = { s.books with failoverStage := flags })
    (failover : (∃ actor place, f = .doFailover actor place) ∨
      ∃ place, f = .processFailover place) :
    BooksCase job s f o

section

variable [DecidableEq R] [DecidableEq N] (job : PrimeJob V R) (s : PrimeManager V R N)
  (sig : Option PrimeError) (input : PrimeInput N)

theorem execMasterStart_books (place : MasterStartAt) :
    BooksCase job s (.masterStart place) (s.execMasterStart place sig) := by
  fun_cases execMasterStart <;> exact .same rfl

theorem execPrepare_books (place : PrepareAt) :
    BooksCase job s (.prepare place) (s.execPrepare job place sig input) := by
  fun_cases execPrepare <;> exact .same rfl

theorem execSetupActors_books (actors : List V) (place : SetupAt) :
    BooksCase job s (.setupActors actors place) (s.execSetupActors actors place sig input) := by
  fun_cases execSetupActors
  case case4 => exact .same (books_informVertices _ s)
  all_goals exact .same rfl

theorem execNodesCheck_books (place : CheckAt) :
    BooksCase job s (.nodesCheck place) (s.execNodesCheck job place sig) := by
  fun_cases execNodesCheck <;> exact .same rfl

theorem execStart_books (fresh : Nat) (place : StartAt) :
    BooksCase job s (.start place) (s.execStart fresh place sig) := by
  fun_cases execStart <;> exact .same rfl

theorem execMainLoop_books (place : LoopAt) :
    BooksCase job s (.mainLoop place) (s.execMainLoop job place sig) := by
  fun_cases execMainLoop
  case case2 | case10 => exact .same (s.books_requestStop _)
  case case14 =>
    apply BooksCase.same
    show (if s.stage = .stopping then s.doStop else s).books = s.books
    split <;> rfl
  all_goals exact .same rfl

theorem execRestartActors_books (actors : List V) (byJob : Bool) (place : RestartActorsAt) :
    BooksCase job s (.restartActors actors byJob place)
      (s.execRestartActors job actors byJob place sig input) := by
  obtain ⟨counts, books, grows, through⟩ := books_countRestarts job actors s
  fun_cases execRestartActors job s actors byJob place sig input
  case case1 => exact .same rfl
  case case2 t counted =>
    rw [counted] at books
    exact .restarts counts s.actorRestarts books grows (.inl rfl)
  case case3 t counted _ _ _ | case4 t counted _ _ _ =>
    rw [counted] at books through
    have marked : (t.updateVertices actors fun x ↦ { x with restarting := true }).books =
        { s.books with restartCount := counts } := by
      refine (books_updateVertices actors ?_ t).trans books
      exact fun _ ↦ rfl
    refine .restarts counts (fun v ↦ s.actorRestarts v + actors.count v) ?_ grows (.inr ?_)
    · exact congrArg (fun b : PrimeBooks V R N ↦
        { b with actorRestarts := fun v ↦ b.actorRestarts v + actors.count v }) marked
    · exact fun v ↦ ⟨rfl, through rfl v⟩
  case case5 => exact .same rfl
  case case6 =>
    apply BooksCase.same
    refine books_updateVertices actors ?_ s
    exact fun _ ↦ rfl

theorem execDoFailover_books (actor : V) (place : FailoverAt) :
    BooksCase job s (.doFailover actor place) (s.execDoFailover job actor place sig input) := by
  fun_cases execDoFailover job s actor place sig input
  case case2 | case4 =>
    obtain ⟨flags, books⟩ := s.books_setFailoverStage (job.role actor)
    exact .flags flags books (.inl ⟨actor, .start, rfl⟩)
  case case3 =>
    obtain ⟨flags, books⟩ := s.books_setFailoverStage (job.role actor)
    obtain ⟨flags', books'⟩ := (s.setFailoverStage (job.role actor)).books_setFailoverStage
      job.globalRole
    rw [books] at books'
    exact .flags flags' books' (.inl ⟨actor, .start, rfl⟩)
  case case15 first _ =>
    obtain ⟨flags, books⟩ := books_clearUpgrade first
    exact .flags flags books (.inl ⟨actor, _, rfl⟩)
  case case16 first _ second =>
    obtain ⟨flags, books⟩ := books_clearUpgrade first
    obtain ⟨flags', books'⟩ := books_clearFailoverStage second
    rw [books] at books'
    exact .flags flags' books' (.inl ⟨actor, _, rfl⟩)
  all_goals exact .same rfl

theorem execRelaunchNodes_books (nodes : List N) (group : Bool) (place : RelaunchAt) :
    BooksCase job s (.relaunchNodes nodes group place)
      (s.execRelaunchNodes job nodes group place sig input) := by
  fun_cases execRelaunchNodes job s nodes group place sig input
  case case1 => exact .same (s.books_requestStop 1)
  case case4 | case5 =>
    have counted : (s.relaunchedNodes ++ input.relaunched).length + s.nodeRestartCount =
        s.relaunchedNodes.length + (s.nodeRestartCount + input.relaunched.length) := by
      rw [List.length_append]
      omega
    exact .relaunches _ _ _ rfl counted (List.prefix_append _ _)
  all_goals exact .relaunches _ _ _ rfl rfl (List.prefix_refl _)

theorem execRelaunchSingle_books (actor : V) (place : SingleAt N) :
    BooksCase job s (.relaunchSingle actor place)
      (s.execRelaunchSingle actor place sig input) := by
  fun_cases execRelaunchSingle s actor place sig input
  case case3 =>
    apply BooksCase.same
    refine s.books_updateVertex actor ?_
    exact fun _ ↦ rfl
  all_goals exact .same rfl

theorem execRelaunchGroup_books (nodes : List N) (place : GroupAt) :
    BooksCase job s (.relaunchGroup nodes place) (s.execRelaunchGroup nodes place sig) := by
  fun_cases execRelaunchGroup <;> exact .same rfl

theorem execRestartJob_books (live : Nat → Bool) (withNodeRelaunch : Option V) (place : JobAt) :
    BooksCase job s (.restartJob withNodeRelaunch place)
      (s.execRestartJob job live withNodeRelaunch place sig) := by
  fun_cases execRestartJob job s live withNodeRelaunch place sig
  case case7 => exact .restartsJob s.jobRestarts (books_requestStop _ 1) (.inl rfl)
  case case8 => exact .restartsJob s.jobRestarts rfl (.inl rfl)
  case case9 within _ _ _ _ | case10 within _ _ _ _ =>
    exact .restartsJob (s.jobRestarts + 1) rfl (.inr ⟨rfl, Nat.not_lt.mp within⟩)
  all_goals exact .same rfl

theorem execProcessFailover_books (place : ProcessAt) :
    BooksCase job s (.processFailover place) (s.execProcessFailover job place sig) := by
  fun_cases execProcessFailover job s place sig
  case case3 =>
    obtain ⟨flags, books⟩ := s.books_setFailoverStage job.globalRole
    exact .flags flags ((books_recordFailure job _).trans books) (.inr ⟨.start, rfl⟩)
  case case4 =>
    obtain ⟨flags, books⟩ := s.books_setFailoverStage job.globalRole
    exact .flags flags ((books_requestStop _ 1).trans ((books_recordFailure job _).trans books))
      (.inr ⟨.start, rfl⟩)
  case case6 =>
    obtain ⟨flags, books⟩ := books_clearFailoverStage ‹_›
    exact .flags flags books (.inr ⟨.restarted, rfl⟩)
  all_goals exact .same rfl

/-- What each frame does to the books. -/
theorem exec_books (ctx : TaskContext) (f : PrimeFrame V N) :
    BooksCase job s f (s.exec job ctx f sig input) := by
  cases f with
  | masterStart place => exact s.execMasterStart_books job sig place
  | prepare place => exact s.execPrepare_books job sig input place
  | setupActors actors place => exact s.execSetupActors_books job sig input actors place
  | nodesCheck place => exact s.execNodesCheck_books job sig place
  | start place => exact s.execStart_books job sig ctx.fresh place
  | mainLoop place => exact s.execMainLoop_books job sig place
  | restartActors actors byJob place =>
    exact s.execRestartActors_books job sig input actors byJob place
  | doFailover actor place => exact s.execDoFailover_books job sig input actor place
  | relaunchNodes nodes group place =>
    exact s.execRelaunchNodes_books job sig input nodes group place
  | relaunchSingle actor place => exact s.execRelaunchSingle_books job sig input actor place
  | relaunchGroup nodes place => exact s.execRelaunchGroup_books job sig nodes place
  | restartJob withNodeRelaunch place =>
    exact s.execRestartJob_books job sig ctx.live withNodeRelaunch place
  | processFailover place => exact s.execProcessFailover_books job sig place

/-- A call from outside leaves the books alone. -/
theorem call_books (x : PrimeCall V) : (s.call job x).1.books = s.books := by
  cases x with
  | start | restart | restartActors actors => rfl
  | stop => exact s.books_requestStop 1
  | reportActorRestarted v =>
    simp only [call]
    split
    · exact s.books_dealWithActorRestarting job v
    · rfl
  | reportExecutionResult v result =>
    simp only [call]
    split
    · refine books_updateVertex _ v ?_
      exact fun _ ↦ rfl
    · rfl

end

end PrimeManager

end ProbingBaselines.Dlrover
