import ProbingBaselines.Dlrover.PrimeBooks

/-!
# The failover flags of the prime manager

`state.failover_stage` holds the roles in failover; while a role or the global one is in it,
failures of the role are not handled (`manager.py:310-318`). `_do_failover` and `_process_failover`
set flags and clear them at their end (`manager.py:337-382`, `manager.py:749-797`). They clear
nothing when they raise, and `_do_failover` neither when a sub-master has recovered or handled the
failover; so a flag belongs to a live activation as long as no failover ends that way and no two of
them set the same flag. `is_failover_stage` without a role answers the opposite of its comment
(`manager.py:675-678`).
-/

namespace ProbingBaselines.Dlrover

open Lib

variable {V R N : Type} [DecidableEq R]

/-- Whether a failover that has set its flag is a global one too. -/
def FailoverAt.upgraded : FailoverAt → Option Bool
  | .start => none
  | .relaunched up | .setUp up | .recovered up | .ready up | .handled up | .restarted up => some up

namespace PrimeFrame

/-- How often the frame has set the flag and is to clear it. -/
def holdings (job : PrimeJob V R) (role : R) : PrimeFrame V N → Nat
  | .doFailover actor place => place.upgraded.elim 0 fun up ↦
    (if role = job.role actor then 1 else 0) + if up ∧ role = job.globalRole then 1 else 0
  | .processFailover .restarted => if role = job.globalRole then 1 else 0
  | _ => 0

/-- An activation of `_do_failover` or `_process_failover`. -/
def isFailover : PrimeFrame V N → Bool
  | .doFailover _ _ | .processFailover _ => true
  | _ => false

theorem isFailover_routine (f : PrimeFrame V N) : f.routine.isFailover = f.isFailover := by
  cases f <;> rfl

theorem isFailover_of_holdings {job : PrimeJob V R} {role : R} {f : PrimeFrame V N}
    (h : 0 < f.holdings job role) : f.isFailover = true := by
  cases f with
  | doFailover | processFailover => rfl
  | _ => exact absurd h (Nat.lt_irrefl 0)

/-- A failover that is not yet under way has set no flag. -/
theorem holdings_of_first {job : PrimeJob V R} {role : R} {f : PrimeFrame V N}
    (first : f.routine = f) : f.holdings job role = 0 := by
  cases f with
  | doFailover actor place =>
    cases place with
    | start => rfl
    | _ => simp [routine] at first
  | processFailover place =>
    cases place with
    | start => rfl
    | restarted => simp [routine] at first
  | _ => rfl

end PrimeFrame

namespace PrimeManager

/-- The flag as a number. -/
def flag (s : PrimeManager V R N) (role : R) : Nat := if role ∈ s.failoverStage then 1 else 0

theorem flag_of_books {s t : PrimeManager V R N} (h : t.books = s.books) (role : R) :
    t.flag role = s.flag role := by
  have same : t.failoverStage = s.failoverStage := congrArg PrimeBooks.failoverStage h
  rw [flag, flag, same]

theorem flag_setFailoverStage {s : PrimeManager V R N} {role : R} (free : role ∉ s.failoverStage)
    (k : R) : (s.setFailoverStage role).flag k = s.flag k + if k = role then 1 else 0 := by
  rw [setFailoverStage, if_neg free, flag, flag]
  by_cases same : k = role
  · simp [same, free]
  · simp [same]

theorem vertex_setFailoverStage (s : PrimeManager V R N) (role : R) :
    (s.setFailoverStage role).vertex = s.vertex := by
  rw [setFailoverStage]
  split <;> rfl

theorem mem_setFailoverStage {s : PrimeManager V R N} {role k : R} :
    k ∈ (s.setFailoverStage role).failoverStage ↔ k ∈ s.failoverStage ∨ k = role := by
  rw [setFailoverStage]
  split
  · next mem =>
    refine ⟨.inl, ?_⟩
    rintro (mem' | rfl)
    · exact mem'
    · exact mem
  · simp

/-- The flag of a role is cleared without an error if it is set. -/
theorem flag_clearFailoverStage {s : PrimeManager V R N} {role : R}
    (set : 0 < s.flag role) : ∃ t, s.clearFailoverStage (some role) = some t ∧
      ∀ k, t.flag k + (if k = role then 1 else 0) = s.flag k := by
  have mem : role ∈ s.failoverStage := by
    by_contra absent
    rw [flag, if_neg absent] at set
    contradiction
  refine ⟨_, if_pos mem, fun k ↦ ?_⟩
  rw [flag, flag]
  by_cases same : k = role
  · simp [same, mem]
  · simp [same]

/-- The frame goes on in a way that keeps flags and activations together: a failover finds the flags
that it sets free, and one under way neither raises nor returns before its end. -/
def releases [DecidableEq N] (job : PrimeJob V R) (s : PrimeManager V R N) :
    PrimeFrame V N → Option PrimeError → PrimeInput N → Bool
  | .doFailover actor .start, none, _ =>
    job.role actor ∉ s.failoverStage &&
      ((s.vertex actor).perNodeFailureCount ≤ job.perNodeMaxFailure actor ||
        ((s.vertex actor).nodeInfo.isSome && job.globalRole ≠ job.role actor &&
          job.globalRole ∉ s.failoverStage))
  | .doFailover _ .start, some _, _ => true
  | .doFailover _ (.recovered _), none, _ => false
  | .doFailover _ (.handled _), none, input => !input.handled
  | .doFailover _ _, some _, _ | .processFailover .restarted, some _, _ => false
  | _, _, _ => true

/-- The clears at the end of a failover find the flags that it holds. -/
theorem clears_of_held {job : PrimeJob V R} {s : PrimeManager V R N} {actor : V} {up : Bool}
    (held : ∀ k,
      PrimeFrame.holdings (N := N) job k (.doFailover actor (.restarted up)) ≤ s.flag k) :
    ∃ t u, (if up then s.clearFailoverStage (some job.globalRole) else some s) = some t ∧
      t.clearFailoverStage (some (job.role actor)) = some u ∧
        ∀ k, u.flag k + PrimeFrame.holdings (N := N) job k (.doFailover actor (.restarted up)) =
          s.flag k := by
  simp only [PrimeFrame.holdings, FailoverAt.upgraded, Option.elim_some] at held ⊢
  obtain ⟨t, first, flags⟩ : ∃ t, (if up then s.clearFailoverStage (some job.globalRole)
      else some s) = some t ∧
        ∀ k, t.flag k + (if up ∧ k = job.globalRole then 1 else 0) = s.flag k := by
    cases up with
    | true =>
      have global := held job.globalRole
      simp only [true_and, if_true] at global
      have set : 0 < s.flag job.globalRole := by omega
      simpa using flag_clearFailoverStage set
    | false => exact ⟨s, rfl, by simp⟩
  have own := held (job.role actor)
  rw [← flags, if_pos rfl] at own
  have set : 0 < t.flag (job.role actor) := by omega
  obtain ⟨u, second, flags'⟩ := flag_clearFailoverStage set
  refine ⟨t, u, first, second, fun k ↦ ?_⟩
  rw [← flags k, ← flags' k]
  omega

variable [DecidableEq V]

/-- What a frame does to a flag, it does to its own holdings. -/
def KeepsFlag (job : PrimeJob V R) (s : PrimeManager V R N) (f : PrimeFrame V N)
    (o : PrimeOutcome V R N) : Prop :=
  ∀ k, o.data.flag k + f.holdings job k = s.flag k + (o.next.frames.map (·.holdings job k)).sum

theorem execDoFailover_flag [DecidableEq N] {job : PrimeJob V R} {s : PrimeManager V R N}
    {actor : V} {place : FailoverAt} {sig : Option PrimeError} {input : PrimeInput N}
    (meets : s.releases job (.doFailover actor place) sig input = true)
    (held : ∀ k, PrimeFrame.holdings (N := N) job k (.doFailover actor place) ≤ s.flag k) :
    KeepsFlag job s (.doFailover actor place) (s.execDoFailover job actor place sig input) := by
  intro k
  cases sig with
  | some e =>
    cases place with
    | start => rfl
    | _ => contradiction
  | none =>
    cases place with
    | start =>
      simp only [releases, Bool.and_eq_true_iff, Bool.or_eq_true_iff, decide_eq_true_eq,
        ne_eq] at meets
      have set := flag_setFailoverStage meets.1 k
      simp only [execDoFailover, vertex_setFailoverStage]
      rcases meets.2 with within | ⟨⟨known, other⟩, free⟩
      · rw [if_neg (Nat.not_lt.mpr within)]
        simp [Next.frames, PrimeFrame.holdings, FailoverAt.upgraded, set]
      · have global : job.globalRole ∉ (s.setFailoverStage (job.role actor)).failoverStage := by
          rw [mem_setFailoverStage]
          exact fun mem ↦ mem.elim free other
        have set' := flag_setFailoverStage global k
        split
        · rw [if_neg (Option.isSome_iff_ne_none.mp known)]
          simp [Next.frames, PrimeFrame.holdings, FailoverAt.upgraded, set', set]
          omega
        · simp [Next.frames, PrimeFrame.holdings, FailoverAt.upgraded, set]
    | relaunched up =>
      simp only [execDoFailover]
      split
      · simp [Next.frames, PrimeFrame.holdings, FailoverAt.upgraded]
      · split
        · simp [Next.frames, PrimeFrame.holdings, FailoverAt.upgraded]
        · split <;> simp [Next.frames, PrimeFrame.holdings, FailoverAt.upgraded]
    | setUp up | ready up =>
      simp [execDoFailover, Next.frames, PrimeFrame.holdings, FailoverAt.upgraded]
    | recovered up => contradiction
    | handled up =>
      have unhandled : input.handled = false := by simpa [releases] using meets
      simp [execDoFailover, unhandled, Next.frames, PrimeFrame.holdings, FailoverAt.upgraded]
    | restarted up =>
      obtain ⟨t, u, first, second, flags⟩ := clears_of_held held
      simp only [execDoFailover, first, second]
      rw [flags k]
      rfl

theorem execProcessFailover_flag {job : PrimeJob V R} {s : PrimeManager V R N} {place : ProcessAt}
    {sig : Option PrimeError} (meets : place = .restarted → sig = none)
    (held : ∀ k, PrimeFrame.holdings (V := V) (N := N) job k (.processFailover place) ≤ s.flag k) :
    KeepsFlag job s (.processFailover place) (s.execProcessFailover job place sig) := by
  intro k
  cases place with
  | start =>
    cases sig with
    | some e => rfl
    | none =>
      simp only [execProcessFailover]
      split
      · rfl
      · next free =>
        have free : job.globalRole ∉ s.failoverStage := by simpa [isFailoverStage] using free
        have set := flag_setFailoverStage free k
        have recorded := flag_of_books
          (books_recordFailure job (s.setFailoverStage job.globalRole)) k
        split
        · simp only [Next.frames, List.map_cons, List.map_nil, PrimeFrame.holdings, recorded, set]
          simp
        · have stopped := flag_of_books
            (books_requestStop ((s.setFailoverStage job.globalRole).recordFailure job) 1) k
          simp only [Next.frames, List.map_cons, List.map_nil, PrimeFrame.holdings, stopped,
            recorded,
            set]
          simp
  | restarted =>
    cases meets rfl
    have set := held job.globalRole
    simp only [PrimeFrame.holdings, if_true] at set
    obtain ⟨t, cleared, flags⟩ := flag_clearFailoverStage set
    simp only [execProcessFailover, cleared]
    exact flags k

/-- A frame that meets the condition keeps flags and activations together. -/
theorem exec_flag [DecidableEq N] {job : PrimeJob V R} {s : PrimeManager V R N}
    {f : PrimeFrame V N} {sig : Option PrimeError} {input : PrimeInput N} (ctx : TaskContext)
    (meets : s.releases job f sig input = true) (held : ∀ k, f.holdings job k ≤ s.flag k) :
    KeepsFlag job s f (s.exec job ctx f sig input) := by
  cases failover : f.isFailover with
  | true =>
    cases f with
    | doFailover actor place => exact execDoFailover_flag meets held
    | processFailover place =>
      refine execProcessFailover_flag ?_ held
      rintro rfl
      cases sig with
      | none => rfl
      | some e => contradiction
    | _ => contradiction
  | false =>
    intro k
    have none : ∀ {g : PrimeFrame V N}, g.isFailover = false → g.holdings job k = 0 := by
      intro g plain
      by_contra some
      rw [PrimeFrame.isFailover_of_holdings (Nat.pos_of_ne_zero some)] at plain
      contradiction
    have same : (s.exec job ctx f sig input).data.failoverStage = s.failoverStage := by
      have books := s.exec_books job sig input ctx f
      generalize s.exec job ctx f sig input = o at books
      cases books with
      | same books | restarts _ _ books | restartsJob _ books | relaunches _ _ _ books =>
        exact congrArg PrimeBooks.failoverStage books
      | flags _ _ failover' =>
        obtain ⟨actor, place, rfl⟩ | ⟨place, rfl⟩ := failover' <;> contradiction
    have frames : ∀ g ∈ (s.exec job ctx f sig input).next.frames, g.holdings job k = 0 := by
      intro g mem
      rcases (s.exec_next job sig input ctx f).routine_of_mem mem with same | first
      · rw [← PrimeFrame.isFailover_routine, ← same, PrimeFrame.isFailover_routine] at failover
        exact none failover
      · exact PrimeFrame.holdings_of_first first
    have zero : ((s.exec job ctx f sig input).next.frames.map (·.holdings job k)).sum = 0 := by
      apply List.sum_eq_zero_iff_forall_eq_nat.mpr
      simpa using frames
    rw [flag, same, none failover, zero, flag]

end PrimeManager

/-! ### Runs -/

namespace PrimeWorld

/-- The step keeps flags and activations together. -/
def releasesFlags [DecidableEq N] (job : PrimeJob V R) (w : PrimeWorld V R N) :
    PrimeLabel V N → Bool
  | .exec input => w.top.all fun (_, f, sig) ↦ w.data.releases job f sig input
  | _ => true

/-- A flag is set as long as an activation that set it is live. So without a live failover no
failure is skipped, and the clears at the end of a failover do not raise. -/
structure FlagsReleased [DecidableEq V] [DecidableEq N] (job : PrimeJob V R)
    (w : PrimeWorld V R N) : Prop where
  held : ∀ role, role ∈ w.data.failoverStage ↔ ∃ e ∈ w.frames, 0 < e.2.holdings job role
  handled : (∀ e ∈ w.frames, e.2.isFailover = false) →
    ∀ role, w.data.isFailoverStage job (some role) = false
  cleared : ∀ t f input, w.top = some (t, f, none) →
    (f = .processFailover .restarted ∨ ∃ actor up, f = .doFailover actor (.restarted up)) →
      (w.data.exec job (w.context t) f none input).next = .ret

/-- Each flag is held once, if it is set. -/
structure Flagged (job : PrimeJob V R) (w : PrimeWorld V R N) : Prop where
  valid : w.Valid
  flags : ∀ role, w.weigh (·.holdings job role) = w.data.flag role

variable {job : PrimeJob V R} {w w' : PrimeWorld V R N}

/-- A new task has set no flag. -/
theorem Flagged.called (h : w.Flagged job) (idle : w.running = none)
    (result : PrimeManager V R N × Option (PrimeFrame V N))
    (same : result.1.failoverStage = w.data.failoverStage)
    (first : ∀ f, result.2 = some f → f.routine = f) : Flagged job (w.called result) := by
  refine ⟨TaskWorld.valid_called h.valid idle result, fun role ↦ ?_⟩
  have started : (result.2.toList.map (·.holdings job role)).sum = 0 := by
    apply List.sum_eq_zero_iff_forall_eq_nat.mpr
    intro n mem
    obtain ⟨g, start, rfl⟩ := List.mem_map.mp mem
    exact PrimeFrame.holdings_of_first (first g (Option.mem_toList.mp start))
  have flag : result.1.flag role = w.data.flag role := by
    rw [PrimeManager.flag, same, PrimeManager.flag]
  rw [TaskWorld.weigh_called h.valid, started, TaskWorld.data_called, flag, h.flags role,
    Nat.add_zero]

theorem flagged_empty {s : PrimeManager V R N} (unset : s.failoverStage = []) :
    Flagged job (⟨s, .empty, [], 0, none⟩ : PrimeWorld V R N) where
  valid := TaskWorld.valid_empty s
  flags role := by
    rw [PrimeManager.flag, unset]
    rfl

/-- A manager that recovers in the RUNNING stage keeps the flags that it has loaded. -/
theorem flagged_recovered {loaded : PrimeManager V R N}
    (unset : loaded.stage = .running → loaded.failoverStage = []) :
    (recovered job loaded).Flagged job := by
  rw [recovered]
  split
  · next running =>
    have unset := unset running
    have idle : Flagged job (⟨loaded, .empty, [], 0, none⟩ : PrimeWorld V R N) :=
      flagged_empty unset
    have first := idle.called rfl
      ({ loaded with notify := 1, stoppedEvent := false, task := some 0 }, some (.mainLoop .test))
      rfl (by simp [PrimeFrame.routine])
    split
    · refine first.called rfl (_, some (.processFailover .start)) unset.symm ?_
      simp [PrimeFrame.routine]
    · exact first
  · exact flagged_empty rfl

variable [DecidableEq V] [DecidableEq N]

theorem Flagged.released (h : w.Flagged job) : w.FlagsReleased job := by
  have held (role : R) : role ∈ w.data.failoverStage ↔
      ∃ e ∈ w.frames, 0 < e.2.holdings job role := by
    rw [← TaskWorld.weigh_pos_iff, h.flags role, PrimeManager.flag]
    split <;> simp [*]
  refine ⟨held, ?_, ?_⟩
  · intro none role
    have free : ∀ k, k ∉ w.data.failoverStage := by
      intro k mem
      obtain ⟨e, he, holds⟩ := (held k).mp mem
      have failover := PrimeFrame.isFailover_of_holdings holds
      rw [none e he] at failover
      contradiction
    simp [PrimeManager.isFailoverStage, free]
  · intro t f input top last
    obtain ⟨rest, stack⟩ := TaskWorld.stack_of_top top
    have holds : ∀ k, f.holdings job k ≤ w.data.flag k :=
      fun k ↦ h.flags k ▸ TaskWorld.weigh_top_le stack _
    obtain rfl | ⟨actor, up, rfl⟩ := last
    · have set := holds job.globalRole
      simp only [PrimeFrame.holdings, if_true] at set
      obtain ⟨u, cleared, -⟩ := PrimeManager.flag_clearFailoverStage set
      simp only [PrimeManager.exec, PrimeManager.execProcessFailover, cleared]
    · obtain ⟨u, v, first, second, -⟩ := PrimeManager.clears_of_held holds
      simp only [PrimeManager.exec, PrimeManager.execDoFailover, first, second]

theorem flagged_step (h : w.Flagged job) {l : PrimeLabel V N}
    (meets : releasesFlags job w l = true) (taken : step job w l = some w') :
    w'.Flagged job := by
  refine ⟨TaskWorld.valid_step taken h.valid, fun role ↦ ?_⟩
  cases TaskWorld.step_cases taken with
  | resumed => exact h.flags role
  | executed t sig f rest input running stack allowed =>
    rw [releasesFlags, TaskWorld.top_eq running stack] at meets
    have weighed := TaskWorld.weigh_settle
      ((primeCoroutines job).exec (w.context t) w.data f sig input) h.valid stack
      (·.holdings job role)
    have flag := PrimeManager.exec_flag (w.context t) meets
      (fun k ↦ h.flags k ▸ TaskWorld.weigh_top_le stack _) role
    have spawned : ((w.data.exec job (w.context t) f sig input).effect.spawned.map
        (·.holdings job role)).sum = 0 := by
      apply List.sum_eq_zero_iff_forall_eq_nat.mpr
      intro n mem
      obtain ⟨g, spawn, rfl⟩ := List.mem_map.mp mem
      rw [w.data.exec_spawned job _ f sig input g spawn]
      rfl
    rw [TaskWorld.data_settle]
    have before := h.flags role
    change _ = _ + _ + ((w.data.exec job (w.context t) f sig input).effect.spawned.map _).sum
      at weighed
    rw [spawned, before] at weighed
    exact Nat.add_right_cancel (weighed.trans flag.symm)
  | called x idle =>
    have same : (w.data.call job x).1.failoverStage = w.data.failoverStage :=
      congrArg PrimeBooks.failoverStage (w.data.call_books job x)
    exact (h.called idle _ same fun f start ↦ (w.data.call_starts job start).1).flags role

/-- In every run in which each failover finds its flags free and gets to its end, the flags are
those of the live failovers. The answer without a role is always the opposite of the right one. -/
theorem failoverFlags_areReleased {start : PrimeWorld V R N}
    (begins : start = init ∨ ∃ loaded, (loaded.stage = .running → loaded.failoverStage = []) ∧
      start = recovered job loaded)
    {labels : List (PrimeLabel V N)}
    (run : Run (step job) (fun w l ↦ releasesFlags job w l = true) start labels w) :
    w.FlagsReleased job ∧
      (w.data.isFailoverStage job none = true ↔ ¬ w.data.failoverStage ≠ []) := by
  have flagged : w.Flagged job := by
    refine run.invariant ?_ fun _ _ _ h meets taken ↦ flagged_step h meets taken
    obtain rfl | ⟨loaded, unset, rfl⟩ := begins
    · exact flagged_empty rfl
    · exact flagged_recovered unset
  exact ⟨flagged.released, by simp [PrimeManager.isFailoverStage]⟩

/-- A job whose worker has a sub-master. -/
def pairJob : PrimeJob Nat Nat := { soloJob with subMaster := fun _ ↦ some 1 }

/-- The job is started, the worker restarts, and the sub-master is asked. -/
def pairFailover : List (PrimeLabel Nat Nat) :=
  [.call .start, .resume 0 none, goesOn, goesOn, .resume 0 none, goesOn, goesOn, .resume 0 none,
    goesOn, .resume 0 none, .exec { nodeInfos := [7, 8] }, goesOn, goesOn, .resume 0 none, goesOn,
    goesOn, goesOn, goesOn, .resume 0 none, goesOn, goesOn, .call (.reportActorRestarted 0),
    .resume 2 none, goesOn, goesOn, .resume 2 none]

/-- The sub-master does not handle it, and the job is restarted. -/
def pairRestart : List (PrimeLabel Nat Nat) :=
  pairFailover ++ [goesOn, goesOn, goesOn, .resume 1 (some .cancelled), goesOn, .resume 2 none,
    goesOn, goesOn, .resume 2 none, goesOn, goesOn, .resume 2 none, goesOn, .resume 2 none,
    .exec { nodeInfos := [7, 8] }, goesOn, goesOn, goesOn, .resume 2 none, goesOn, goesOn, goesOn,
    .resume 2 none, goesOn, goesOn, goesOn]

theorem failoverFlags_areReleased_run :
    ∃ w : PrimeWorld Nat Nat Nat,
      Run (step pairJob) (fun w l ↦ releasesFlags pairJob w l = true) init pairRestart w ∧
        (w.data.jobRestarts = 1 ∧ w.data.failoverStage = []) ∧ w.FlagsReleased pairJob := by
  obtain ⟨w, run, restarted⟩ : ∃ w : PrimeWorld Nat Nat Nat,
      Run (step pairJob) (fun w l ↦ releasesFlags pairJob w l = true) init pairRestart w ∧
        decide (w.data.jobRestarts = 1 ∧ w.data.failoverStage = []) = true :=
    run_of_guarded_any (by decide +kernel)
  exact ⟨w, run, of_decide_eq_true restarted, (failoverFlags_areReleased (.inl rfl) run).1⟩

/-- The sub-master handles it. No failover is live any more, but the flag of the role stays, and its
next failure is skipped. -/
theorem failoverFlags_areNotReleased :
    ∃ w : PrimeWorld Nat Nat Nat,
      Run (step pairJob) anyStep init (pairFailover ++ [.exec { handled := true }]) w ∧
        w.data.stage = .running ∧ 0 ∈ w.data.failoverStage ∧
          (∀ e ∈ w.frames, e.2.isFailover = false) ∧
            (w.data.call pairJob (.reportActorRestarted 0)).2.isNone = true ∧
              ¬ w.FlagsReleased pairJob := by
  obtain ⟨w, run, kept⟩ : ∃ w : PrimeWorld Nat Nat Nat,
      Run (step pairJob) anyStep init (pairFailover ++ [.exec { handled := true }]) w ∧
        decide (w.data.stage = .running ∧ 0 ∈ w.data.failoverStage ∧
          (∀ e ∈ w.frames, e.2.isFailover = false) ∧
            (w.data.call pairJob (.reportActorRestarted 0)).2.isNone = true) = true :=
    run_of_any (by decide +kernel)
  obtain ⟨running, set, none, skipped⟩ := of_decide_eq_true kept
  refine ⟨w, run, running, set, none, skipped, ?_⟩
  intro released
  have free := released.handled none 0
  simp [PrimeManager.isFailoverStage, set] at free

end PrimeWorld

end ProbingBaselines.Dlrover
