import Mathlib.Data.List.Perm.Subperm
import ProbingBaselines.Dlrover.SyncInvariant

/-!
# What the lists of the sync service hold

One lemma for each step of each thread, and from them that the bookkeeping of every run of admitted
steps is right.
-/

namespace ProbingBaselines.Dlrover

open Lib

namespace SyncLedger

variable {s : SyncLedger} {t : SyncService}

theorem Gone.log {n : String} {w : SyncWorker} (a : SyncAct) (h : s.Gone n w) :
    (s.log t a).Gone n w := by
  cases a with
  | join name worker running => exact h.imp_left (List.mem_cons_of_mem _)
  | joinStep now =>
    simp only [SyncLedger.log]
    split
    · exact h
    · exact h
  | exitStart call worker => exact h.imp_right (Or.imp_left (List.mem_append_left _))
  | exitStep call => exact h
  | sweepStart => exact h
  | sweepStep now =>
    refine h.imp_right (Or.imp_right ?_)
    rintro ⟨e, he, eq⟩
    exact ⟨e, List.mem_append_left _ he, eq⟩
  | handOver worker returned => exact h

theorem booked_init (timeout : ℚ) : Booked (init timeout) where
  listed := ⟨rfl, fun _ ↦ List.nodup_nil, fun _ ↦ List.Sublist.refl _,
    fun _ _ hw ↦ absurd hw List.not_mem_nil⟩
  joining := ⟨fun _ _ h ↦ absurd h List.not_mem_nil, fun _ _ h ↦ absurd h List.not_mem_nil,
    fun _ h ↦ (by cases h), fun _ _ _ h ↦ (by cases h), fun _ h ↦ (by cases h)⟩
  exiting := ⟨fun _ _ h ↦ absurd h List.not_mem_nil, fun _ _ h ↦ absurd h List.not_mem_nil,
    fun _ _ h ↦ absurd h List.not_mem_nil, fun _ _ h ↦ absurd h List.not_mem_nil,
    fun _ _ h ↦ absurd h List.not_mem_nil⟩
  timing := ⟨fun _ h ↦ absurd h List.not_mem_nil, fun _ h ↦ absurd h List.not_mem_nil⟩
  judged _ h := absurd h List.not_mem_nil
  sweeping _ h := absurd h List.not_mem_nil

/-- A join takes the lock. -/
theorem Booked.joinStart (h : Booked s) {name : String} {worker : SyncWorker}
    {running : {l : List SyncWorker // l.Nodup}}
    (admitted : s.Admitted (.join name worker running)) (free : s.service.LockFree) :
    Booked (s.log (s.service.joinSync name worker running) (.join name worker running)) := by
  rcases free with ⟨noJoin, unlocked⟩
  have joining := h.joining
  have timing := h.timing
  rw [noJoin] at joining timing
  -- whatever the phase, the new call is the only one that may be on a list
  have start : ∀ phase, (name ∈ s.service.syncObjsTarget ∧ phase = .test) ∨
      (name ∉ s.service.syncObjsTarget ∧ phase = .create running) →
      Booked (s.log { s.service with join := some ⟨name, worker, phase⟩ }
        (.join name worker running)) := by
    intro phase which
    refine ⟨h.listed.mono fun n w ↦ Gone.log (.join name worker running), ?_, h.exiting, ?_,
      h.judged, h.sweeping.unlocked unlocked⟩
    · refine ⟨?_, ?_, ?_, ?_, ?_⟩
      · intro n w mem
        rcases List.mem_cons.mp mem with eq | mem
        · cases eq
          rcases which with ⟨known, -⟩ | ⟨-, rfl⟩
          · exact .inl known
          · exact .inr ⟨running, rfl⟩
        · rcases joining.named n w mem with known | ⟨r, eq⟩
          · exact .inl known
          · cases eq
      · intro n w mem here
        rcases List.mem_cons.mp mem with eq | mem
        · cases eq
          rcases which with ⟨-, rfl⟩ | ⟨fresh, -⟩
          · exact .inl rfl
          · exact absurd (mem_of_mem_listOf here) fresh
        · rcases joining.left n w mem here with eq | eq
          · cases eq
          · cases eq
      · intro j eq
        cases eq
        exact List.mem_cons_self
      · intro n w r eq
        cases eq
        rcases which with ⟨-, eq⟩ | ⟨fresh, -⟩
        · cases eq
        · exact ⟨fresh, admitted.resolve_left fresh⟩
      · intro j eq
        cases eq
        rcases which with ⟨known, -⟩ | ⟨-, rfl⟩
        · exact .inr known
        · exact .inl ⟨running, rfl⟩
    · refine ⟨timing.known, ?_⟩
      intro n started none
      rcases timing.closing n started none with open' | ⟨w, eq⟩
      · exact .inl open'
      · cases eq
  rw [SyncService.joinSync]
  split
  · next known => exact start _ (.inl ⟨known, rfl⟩)
  · next fresh => exact start _ (.inr ⟨fresh, rfl⟩)

theorem mem_emptied {u t : SyncService} {n : String} :
    n ∈ u.emptied t ↔ n ∈ t.syncObjsTarget ∧ t.remaining n = [] ∧
      u.syncObjsTarget.get? n ≠ some [] := by
  rw [SyncService.emptied, List.mem_filter, decide_eq_true_eq, ← Dict.mem_def]

/-- A list that was there and is empty now was empty before or is logged as left open. -/
theorem mem_emptied_of_nil {u t : SyncService} {n : String} (known : n ∈ t.syncObjsTarget)
    (now : t.remaining n = []) (before : u.remaining n = [] → n ∉ u.syncObjsTarget) :
    n ∈ u.emptied t := by
  refine mem_emptied.mpr ⟨known, now, ?_⟩
  intro old
  apply before
  · rw [SyncService.remaining, listOf, old, Option.getD_some]
  · exact Dict.mem_of_mem_items (Dict.get?_eq_some_iff.mp old)

/-- Of the steps of a join, the one that stores the list of a new name. -/
theorem Booked.joinCreate (h : Booked s) {name : String} {worker : SyncWorker}
    {running : {l : List SyncWorker // l.Nodup}} {now : ℚ}
    (holds : s.service.join = some ⟨name, worker, .create running⟩) :
    Booked (s.log (s.service.joinStep now ⟨name, worker, .create running⟩) (.joinStep now)) := by
  have joining := h.joining
  have sweeping := h.sweeping
  rw [holds] at joining sweeping
  rcases joining.creates name worker running rfl with ⟨fresh, idle⟩
  have unlocked := sweeping.locked_eq_false
  have logged : s.log (s.service.joinStep now ⟨name, worker, .create running⟩) (.joinStep now) =
      { s with
        service :=
          { s.service with
            syncObjsTarget := s.service.syncObjsTarget.insert name running
            syncStartTime := s.service.syncStartTime.insert name now
            join := some ⟨name, worker, .test⟩ }
        initial := s.initial.insert name running
        leftOpen := s.leftOpen ++ s.service.emptied
          { s.service with
            syncObjsTarget := s.service.syncObjsTarget.insert name running
            syncStartTime := s.service.syncStartTime.insert name now
            join := some ⟨name, worker, .test⟩ } } := by
    simp only [log, holds, SyncService.joinStep]
  rw [logged]
  have judged := (sweeping_iff_of_unlocked unlocked).mp sweeping
  constructor
  · exact h.listed.create fresh running.2
  · exact joining.create fresh
  · exact h.exiting.create fresh idle
  · refine h.timing.create now fresh (fun n x eq ↦ ?_) fun none ↦ ?_
    · rw [holds] at eq
      cases eq
    · refine mem_emptied_of_nil (Dict.mem_insert.mpr (.inl rfl)) ?_ fun _ ↦ fresh
      show listOf (s.service.syncObjsTarget.insert name running) name = []
      rw [listOf_insert, if_pos rfl, none]
  · intro e mem
    exact ⟨Dict.mem_insert.mpr (.inr (h.judged e mem).1), (h.judged e mem).2⟩
  · refine (sweeping_iff_of_unlocked unlocked).mpr fun e mem ↦ ?_
    exact (judged e mem).create fresh (h.judged e mem).1

theorem log_joinStep {j : JoinCall} {now : ℚ} (holds : s.service.join = some j)
    (stored : ∀ r, j.phase ≠ .create r) : s.log t (.joinStep now) = { s with service := t } := by
  rcases j with ⟨name, worker, phase⟩
  cases phase with
  | create r => exact absurd rfl (stored r)
  | test => simp only [log, holds]
  | remove => simp only [log, holds]
  | close => simp only [log, holds]

/-- A join moves on or ends without a change to the lists. -/
theorem Booked.joinMove (h : Booked s) {j : JoinCall} {next : Option JoinCall}
    (holds : s.service.join = some j) (stored : ∀ r, j.phase ≠ .create r)
    (moved : next = none ∧ j.phase ≠ .close ∧ j.worker ∉ s.service.remaining j.name ∨
      next = none ∧ j.phase = .close ∧ s.service.remaining j.name ≠ [] ∨
      next = some { j with phase := .remove } ∧ j.phase = .test) :
    Booked { s with service := { s.service with join := next } } := by
  rcases j with ⟨name, worker, phase⟩
  have joining := h.joining
  have timing := h.timing
  have sweeping := h.sweeping
  rw [holds] at joining timing sweeping
  have known : name ∈ s.service.syncObjsTarget := by
    rcases joining.known _ rfl with ⟨r, eq⟩ | known
    · exact absurd eq (stored r)
    · exact known
  refine ⟨h.listed, ⟨?_, ?_, ?_, ?_, ?_⟩, h.exiting, ⟨timing.known, ?_⟩, h.judged,
    sweeping.unlocked sweeping.locked_eq_false⟩
  · intro n w mem
    rcases joining.named n w mem with old | ⟨r, eq⟩
    · exact .inl old
    · cases eq
      exact absurd rfl (stored r)
  · intro n w mem here
    have old := joining.left n w mem here
    rcases moved with ⟨-, -, gone⟩ | ⟨-, closing, -⟩ | ⟨rfl, -⟩
    · rcases old with eq | eq
      · cases eq
        exact absurd here gone
      · cases eq
        exact absurd here gone
    · rcases old with eq | eq
      · cases eq
        cases closing
      · cases eq
        cases closing
    · rcases old with eq | eq
      · cases eq
        exact .inr rfl
      · cases eq
        exact .inr rfl
  · intro i eq
    rcases moved with ⟨rfl, -⟩ | ⟨rfl, -⟩ | ⟨rfl, -⟩
    · cases eq
    · cases eq
    · cases eq
      exact joining.logged ⟨name, worker, phase⟩ rfl
  · intro n w r eq
    rcases moved with ⟨rfl, -⟩ | ⟨rfl, -⟩ | ⟨rfl, -⟩
    · cases eq
    · cases eq
    · cases eq
  · intro i eq
    rcases moved with ⟨rfl, -⟩ | ⟨rfl, -⟩ | ⟨rfl, -⟩
    · cases eq
    · cases eq
    · cases eq
      exact .inr known
  · intro n started none
    rcases timing.closing n started none with left | ⟨w, eq⟩
    · exact .inl left
    · cases eq
      -- the join was about to close this list, so it has moved on only if the list has workers
      rcases moved with ⟨-, test, -⟩ | ⟨-, -, some⟩ | ⟨-, test⟩
      · exact absurd rfl test
      · exact absurd none some
      · cases test

/-- A join takes its worker off the list. -/
theorem Booked.joinRemove (h : Booked s) {name : String} {worker : SyncWorker}
    (holds : s.service.join = some ⟨name, worker, .remove⟩)
    (mem : worker ∈ s.service.remaining name) (free : ¬ s.service.ExitDue name worker) :
    Booked { s with
      service := { s.service.takeOff name worker with join := some ⟨name, worker, .close⟩ } } := by
  have joining := h.joining
  have timing := h.timing
  have sweeping := h.sweeping
  rw [holds] at joining timing sweeping
  have logged : (name, worker) ∈ s.joined := joining.logged _ rfl
  have unlocked := sweeping.locked_eq_false
  have off : s.service.sweeper.on ≠ some name := by
    rw [Sweeper.on_of_unlocked unlocked]
    exact Option.some_ne_none name ∘ Eq.symm
  have unseen : ∀ k c, (k, c) ∈ s.service.exits.items → c.phase = .remove name →
      c.worker ≠ worker := by
    intro k c hc phase eq
    exact free ⟨c, List.mem_map.mpr ⟨(k, c), hc, rfl⟩, phase, eq⟩
  have nodup : (listOf s.service.syncObjsTarget name).Nodup :=
    (h.listed.nodup name).sublist (h.listed.sub name)
  have taken := joining.takenOff mem
  refine ⟨h.listed.takenOff mem (.inl logged), ⟨?_, ?_, ?_, ?_, ?_⟩,
    h.exiting.takenOff mem unseen, ⟨?_, ?_⟩, ?_,
    (h.sweeping.takenOff off).unlocked unlocked⟩
  · intro n w hw
    rcases taken.named n w hw with known | ⟨r, eq⟩
    · exact .inl known
    · cases eq
  · intro n w hw here
    rcases taken.left n w hw here with eq | eq
    · cases eq
    · cases eq
      exact absurd here (not_mem_listOf_takenOff nodup)
  · intro j eq
    cases eq
    exact logged
  · intro n w r eq
    cases eq
  · intro j eq
    cases eq
    exact .inr ((mem_takenOff mem).mpr (mem_of_mem_listOf mem))
  · intro n started
    exact (mem_takenOff mem).mpr (timing.known n started)
  · intro n started none
    by_cases eq : n = name
    · exact .inr ⟨worker, by rw [eq]⟩
    · have before : listOf s.service.syncObjsTarget n = [] := by
        rwa [← listOf_takenOff_of_ne eq]
      rcases timing.closing n started before with left | ⟨w, eq⟩
      · exact .inl left
      · cases eq
  · intro e he
    exact ⟨(mem_takenOff mem).mpr (h.judged e he).1, (h.judged e he).2⟩

/-- A join that has emptied a list drops its start time. -/
theorem Booked.joinClose (h : Booked s) {name : String} {worker : SyncWorker}
    (holds : s.service.join = some ⟨name, worker, .close⟩) :
    Booked { s with
      service :=
        { s.service with
          syncStartTime := s.service.syncStartTime.erase name
          join := none } } := by
  have joining := h.joining
  have timing := h.timing
  have sweeping := h.sweeping
  rw [holds] at joining timing sweeping
  refine ⟨h.listed, ⟨?_, ?_, ?_, ?_, ?_⟩, h.exiting, ⟨?_, ?_⟩, h.judged,
    sweeping.unlocked sweeping.locked_eq_false⟩
  · intro n w mem
    rcases joining.named n w mem with known | ⟨r, eq⟩
    · exact .inl known
    · cases eq
  · intro n w mem here
    rcases joining.left n w mem here with eq | eq
    · cases eq
    · cases eq
  · intro j eq
    cases eq
  · intro n w r eq
    cases eq
  · intro j eq
    cases eq
  · intro n started
    exact timing.known n (Dict.mem_erase.mp started).1
  · intro n started none
    rcases Dict.mem_erase.mp started with ⟨started, ne⟩
    rcases timing.closing n started none with left | ⟨w, eq⟩
    · exact .inl left
    · cases eq
      exact absurd rfl ne

theorem Booked.joinStep (h : Booked s) {j : JoinCall} {now : ℚ} (holds : s.service.join = some j)
    (admitted : s.Admitted (.joinStep now)) :
    Booked (s.log (s.service.joinStep now j) (.joinStep now)) := by
  have stored : ∀ phase, (∀ r, phase ≠ JoinPhase.create r) → j.phase = phase →
      ∀ u, s.log u (.joinStep now) = { s with service := u } := by
    rintro phase other rfl u
    exact log_joinStep holds other
  rcases j with ⟨name, worker, phase⟩
  cases phase with
  | create running => exact h.joinCreate holds
  | test =>
    rw [stored .test nofun rfl]
    simp only [SyncService.joinStep]
    split
    · exact h.joinMove holds nofun (.inr (.inr ⟨rfl, rfl⟩))
    · next gone =>
      exact h.joinMove holds nofun (.inl ⟨rfl, nofun, gone⟩)
  | remove =>
    rw [stored .remove nofun rfl]
    simp only [SyncService.joinStep]
    split
    · next mem => exact h.joinRemove holds mem (admitted _ holds rfl)
    · next gone =>
      exact h.joinMove holds nofun (.inl ⟨rfl, nofun, gone⟩)
  | close =>
    rw [stored .close nofun rfl]
    simp only [SyncService.joinStep]
    split
    · exact h.joinClose holds
    · next some =>
      exact h.joinMove holds nofun (.inr (.inl ⟨rfl, rfl, some⟩))

theorem Booked.exitStart (h : Booked s) {call : Nat} {worker : SyncWorker}
    (fresh : call ∉ s.service.exits) (admitted : s.Admitted (.exitStart call worker)) :
    Booked (s.log (s.service.exitStart call worker) (.exitStart call worker)) := by
  have items : ∀ {i d}, (i, d) ∈ s.service.exits.items → i ≠ call := by
    rintro i d hd rfl
    exact fresh (Dict.mem_of_mem_items hd)
  refine ⟨h.listed.mono fun n w ↦ Gone.log (.exitStart call worker),
    ⟨h.joining.named, h.joining.left, h.joining.logged, ?_, h.joining.known⟩,
    ⟨?_, ?_, ?_, ?_, ?_⟩, h.timing, h.judged, h.sweeping⟩
  · intro n w r eq
    exact absurd (admitted _ eq) (h.joining.creates n w r eq).1
  · intro n w mem
    rcases List.mem_append.mp mem with old | new
    · exact h.exiting.named n w old
    · rcases List.mem_map.mp new with ⟨m, hm, eq⟩
      cases eq
      rcases List.mem_append.mp hm with key | holder
      · exact key
      · rw [Option.mem_toList, Option.map_eq_some_iff] at holder
        rcases holder with ⟨j, holds, rfl⟩
        exact admitted j holds
  · intro n w mem here
    rcases List.mem_append.mp mem with old | new
    · rcases h.exiting.left n w old here with ⟨i, d, hd, eq, pending⟩
      exact ⟨i, d, Dict.mem_items_insert.mpr (.inr ⟨items hd, hd⟩), eq, pending⟩
    · rcases List.mem_map.mp new with ⟨m, -, eq⟩
      cases eq
      exact ⟨call, _, Dict.mem_items_insert.mpr (.inl ⟨rfl, rfl⟩), rfl,
        Dict.mem_def.mp (mem_of_mem_listOf here)⟩
  · intro i d hd
    rcases Dict.mem_items_insert.mp hd with ⟨-, rfl⟩ | ⟨-, hd⟩
    · rfl
    · exact h.exiting.size i d hd
  · intro i d hd n pending
    rcases Dict.mem_items_insert.mp hd with ⟨-, rfl⟩ | ⟨-, hd⟩
    · refine List.mem_append_right _ (List.mem_map.mpr ⟨n, ?_, rfl⟩)
      exact List.mem_append_left _ pending
    · exact List.mem_append_left _ (h.exiting.logged i d hd n pending)
  · intro i d hd n phase
    rcases Dict.mem_items_insert.mp hd with ⟨-, rfl⟩ | ⟨-, hd⟩
    · cases phase
    · exact h.exiting.due i d hd n phase

/-- An exit call moves on or ends without a change to the lists. -/
theorem Booked.exits (h : Booked s) {call : Nat} {c : ExitCall} {exits : Dict Nat ExitCall}
    (mem : (call, c) ∈ s.service.exits.items)
    (exiting : Exiting s.service.syncObjsTarget s.exited exits) :
    Booked (s.log { s.service with exits := exits } (.exitStep call)) :=
  ⟨h.listed, h.joining.busy mem, exiting, h.timing.mono (List.subset_append_left _ _), h.judged,
    h.sweeping⟩

/-- An exit call takes its worker off the list. -/
theorem Booked.exitRemove (h : Booked s) {call : Nat} {c : ExitCall} {name : String}
    (mem : (call, c) ∈ s.service.exits.items) (phase : c.phase = .remove name)
    (here : c.worker ∈ s.service.remaining name) (off : s.service.sweeper.on ≠ some name)
    (alone : ∀ e ∈ s.service.exits.items, e.1 ≠ call → e.2.phase = .remove name →
      e.2.worker ≠ c.worker) :
    Booked (s.log { s.service.takeOff name c.worker with
      exits := s.service.exits.insert call { c with phase := .next } } (.exitStep call)) := by
  have pending : c.pending = name :: c.rest := by rw [ExitCall.pending, phase]
  have logged : (name, c.worker) ∈ s.exited := by
    apply h.exiting.logged call c mem
    rw [pending]
    exact List.mem_cons_self
  have nodup : (listOf s.service.syncObjsTarget name).Nodup :=
    (h.listed.nodup name).sublist (h.listed.sub name)
  refine ⟨h.listed.takenOff here (.inr (.inl logged)), (h.joining.takenOff here).busy mem,
    ⟨?_, ?_, ?_, ?_, ?_⟩, ?_, ?_, h.sweeping.takenOff off⟩
  · intro n w hw
    exact (mem_takenOff here).mpr (h.exiting.named n w hw)
  · intro n w hw there
    rcases h.exiting.left n w hw (listOf_takenOff_sublist.subset there) with ⟨i, d, hd, rfl, hn⟩
    by_cases eq : i = call
    · subst eq
      cases Dict.value_unique hd mem
      refine ⟨i, _, Dict.mem_items_insert.mpr (.inl ⟨rfl, rfl⟩), rfl, ?_⟩
      rw [pending] at hn
      rcases List.mem_cons.mp hn with rfl | rest
      · exact absurd there (not_mem_listOf_takenOff nodup)
      · exact rest
    · exact ⟨i, d, Dict.mem_items_insert.mpr (.inr ⟨eq, hd⟩), rfl, hn⟩
  · intro i d hd
    refine Eq.trans ?_ (length_takenOff here).symm
    rcases Dict.mem_items_insert.mp hd with ⟨-, rfl⟩ | ⟨-, hd⟩
    · exact h.exiting.size call c mem
    · exact h.exiting.size i d hd
  · intro i d hd n hn
    rcases Dict.mem_items_insert.mp hd with ⟨-, rfl⟩ | ⟨-, hd⟩
    · apply h.exiting.logged call c mem
      rw [pending]
      exact List.mem_cons_of_mem _ hn
    · exact h.exiting.logged i d hd n hn
  · intro i d hd n removing
    rcases Dict.mem_items_insert.mp hd with ⟨-, rfl⟩ | ⟨ne, old⟩
    · cases removing
    · apply mem_listOf_takenOff (h.exiting.due i d old n removing)
      rintro ⟨rfl, eq⟩
      exact alone (i, d) old ne removing eq
  · apply h.timing.takenOff here (List.subset_append_left _ _)
    intro none
    refine List.mem_append_right _ (mem_emptied_of_nil ?_ none ?_)
    · exact (mem_takenOff here).mpr (mem_of_mem_listOf here)
    · intro before
      rw [before] at here
      exact absurd here List.not_mem_nil
  · intro e he
    exact ⟨(mem_takenOff here).mpr (h.judged e he).1, (h.judged e he).2⟩

theorem Booked.exitStep (h : Booked s) {call : Nat} {c : ExitCall}
    (found : s.service.exits.get? call = some c) (admitted : s.Admitted (.exitStep call)) :
    Booked (s.log (s.service.exitStep call c) (.exitStep call)) := by
  have mem : (call, c) ∈ s.service.exits.items := Dict.get?_eq_some_iff.mp found
  rcases c with ⟨worker, size, rest, phase⟩
  cases phase with
  | next =>
    simp only [SyncService.exitStep]
    split
    · next changed => exact absurd (h.exiting.size call _ mem).symm changed
    · cases rest with
      | nil => exact h.exits mem (h.exiting.finish mem rfl)
      | cons name rest =>
        exact h.exits mem (h.exiting.move mem ⟨rfl, rfl⟩ (List.Subset.refl _) (fun _ hn _ ↦ hn)
          nofun)
  | test name =>
    simp only [SyncService.exitStep]
    split
    · next here =>
      refine h.exits mem (h.exiting.move mem ⟨rfl, rfl⟩ (List.Subset.refl _) (fun _ hn _ ↦ hn) ?_)
      intro n phase
      cases phase
      exact here
    · next gone =>
      refine h.exits mem (h.exiting.move mem ⟨rfl, rfl⟩ (List.subset_cons_self _ _) ?_ nofun)
      intro n hn here
      rcases List.mem_cons.mp hn with rfl | rest
      · exact absurd here gone
      · exact rest
  | remove name =>
    have here : worker ∈ s.service.remaining name := h.exiting.due call _ mem name rfl
    rcases admitted _ found name rfl with ⟨off, alone⟩
    simp only [SyncService.exitStep]
    rw [if_pos here]
    exact h.exitRemove mem rfl here off alone

theorem log_sweepStep (now : ℚ) (nothing : s.service.sweeper.due = none) :
    s.log t (.sweepStep now) =
      { s with service := t, leftOpen := s.leftOpen ++ s.service.emptied t } := by
  simp only [log, nothing, Option.filter_none, Option.map_none, Option.toList_none,
    List.append_nil]

/-- The sweeper moves on without a change to the lists. -/
theorem Booked.sweepMove (h : Booked s) {next : Sweeper} {leftOpen : List String}
    (more : s.leftOpen ⊆ leftOpen)
    (sweeping : Sweeping s.service.syncObjsTarget s.service.syncStartTime s.service.join s.judged
      s.handed next) :
    Booked { s with service := { s.service with sweeper := next }, leftOpen := leftOpen } :=
  ⟨h.listed, h.joining, h.exiting, h.timing.mono more, h.judged, sweeping⟩

/-- The outer loop finds a list past its timeout. -/
theorem Booked.sweepJudge (h : Booked s) {name : String} {startTime now : ℚ}
    {rest : List (String × ℚ)} {found : List SyncWorker}
    (sweeper : s.service.sweeper = .names ((name, startTime) :: rest) found)
    (short : (s.service.remaining name).length ≤ 1) (closed : name ∉ s.leftOpen)
    (timedOut : s.service.timeout < now - startTime) :
    Booked (s.log { s.service with sweeper := .workers name 0 rest found } (.sweepStep now)) := by
  have sweeping := h.sweeping
  rw [sweeper] at sweeping
  rcases sweeping with ⟨free, started, all⟩
  have mem : name ∈ s.service.syncStartTime :=
    Dict.mem_of_mem_items (started List.mem_cons_self)
  have known := h.timing.known name mem
  have ⟨w, one⟩ : ∃ w, s.service.remaining name = [w] := by
    apply List.length_eq_one_iff.mp
    have nonempty : s.service.remaining name ≠ [] := by
      intro none
      rcases h.timing.closing name mem none with left | ⟨w, eq⟩
      · exact closed left
      · rw [free] at eq
        cases eq
    have := List.length_pos_iff.mpr nonempty
    omega
  have logged : s.log { s.service with sweeper := .workers name 0 rest found } (.sweepStep now) =
      { s with
        service := { s.service with sweeper := .workers name 0 rest found }
        judged := s.judged ++ [(name, [w])]
        leftOpen := s.leftOpen ++ s.service.emptied
          { s.service with sweeper := .workers name 0 rest found } } := by
    simp only [log, sweeper, Sweeper.due, Option.filter_some, decide_eq_true timedOut, if_true,
      Option.map_some, Option.toList_some, one]
  have gone := fun n w ↦ Gone.log (n := n) (w := w) (s := s)
    (t := { s.service with sweeper := .workers name 0 rest found }) (.sweepStep now)
  rw [logged] at gone ⊢
  refine ⟨h.listed.mono gone, h.joining, h.exiting, h.timing.mono (List.subset_append_left _ _),
    ?_, free, fun e he ↦ started (List.mem_cons_of_mem _ he), .inl ⟨rfl, w, one, ?_, ?_⟩⟩
  · intro e he
    rcases List.mem_append.mp he with old | new
    · exact h.judged e old
    · cases List.mem_singleton.mp new
      exact ⟨known, List.cons_ne_nil _ _⟩
  · exact List.mem_append_right _ List.mem_cons_self
  · intro e he
    rcases List.mem_append.mp he with old | new
    · exact .inr (all e old)
    · exact .inl (List.mem_singleton.mp new)

/-- The inner loop takes the one worker off the list. -/
theorem Booked.sweepRemove (h : Booked s) {name : String} {worker : SyncWorker} {index : Nat}
    {rest : List (String × ℚ)} {found : List SyncWorker} {leftOpen : List String}
    (sweeper : s.service.sweeper = .remove name worker index rest found)
    (free : ¬ s.service.ExitDue name worker) (more : s.leftOpen ⊆ leftOpen)
    (open' : listOf (takenOff s.service.syncObjsTarget name worker) name = [] →
      name ∈ leftOpen) :
    Booked { s with
      service :=
        { s.service.takeOff name worker with
          sweeper := .workers name index rest (found.insert worker) }
      leftOpen := leftOpen } := by
  have sweeping := h.sweeping
  rw [sweeper] at sweeping
  rcases sweeping with ⟨noJoin, started, position, one, judged, all⟩
  have here : worker ∈ s.service.remaining name := by
    rw [SyncService.remaining, one]
    exact List.mem_cons_self
  have none : listOf (takenOff s.service.syncObjsTarget name worker) name = [] := by
    rw [listOf_takenOff_self, one, List.erase_cons_head]
  have unseen : ∀ k c, (k, c) ∈ s.service.exits.items → c.phase = .remove name →
      c.worker ≠ worker := by
    intro k c hc phase eq
    exact free ⟨c, List.mem_map.mpr ⟨(k, c), hc, rfl⟩, phase, eq⟩
  refine ⟨h.listed.takenOff here ?_, h.joining.takenOff here, h.exiting.takenOff here unseen,
    h.timing.takenOff here more open', ?_, noJoin, started, .inr ⟨position, none, ?_⟩⟩
  · exact .inr (.inr ⟨_, judged, rfl, List.mem_cons_self⟩)
  · intro e he
    exact ⟨(mem_takenOff here).mpr (h.judged e he).1, (h.judged e he).2⟩
  · intro e he
    rcases all e he with rfl | emptied
    · refine ⟨none, ?_⟩
      intro x hx
      cases List.mem_singleton.mp hx
      exact .inr (List.mem_insert_iff.mpr (.inl rfl))
    · refine ⟨listOf_takenOff_nil emptied.1, ?_⟩
      intro x hx
      exact (emptied.2 x hx).imp_right fun mem ↦ List.mem_insert_iff.mpr (.inr mem)

theorem Booked.sweepStep (h : Booked s) {now : ℚ} (taken : s.service.sweepStep now = some t)
    (admitted : s.Admitted (.sweepStep now)) : Booked (s.log t (.sweepStep now)) := by
  have sweeping := h.sweeping
  have more : ∀ u, s.leftOpen ⊆ s.leftOpen ++ s.service.emptied u :=
    fun u ↦ List.subset_append_left _ _
  cases sweeper : s.service.sweeper with
  | sleeping =>
    simp only [SyncService.sweepStep, sweeper] at taken
    cases taken
  | dead =>
    simp only [SyncService.sweepStep, sweeper] at taken
    cases taken
  | handing found =>
    cases found with
    | cons w found =>
      simp only [SyncService.sweepStep, sweeper] at taken
      cases taken
    | nil =>
      simp only [SyncService.sweepStep, sweeper, Option.some.injEq] at taken
      subst taken
      rw [sweeper] at sweeping
      rw [log_sweepStep now (by rw [sweeper]; rfl)]
      exact h.sweepMove (more _) sweeping
  | names rest found =>
    rw [sweeper] at sweeping
    rcases sweeping with ⟨free, started, all⟩
    cases rest with
    | nil =>
      simp only [SyncService.sweepStep, sweeper, Option.some.injEq] at taken
      subst taken
      rw [log_sweepStep now (by rw [sweeper]; rfl)]
      exact h.sweepMove (more _) all
    | cons e rest =>
      rcases e with ⟨name, startTime⟩
      simp only [SyncService.sweepStep, sweeper] at taken
      split at taken
      · next timedOut =>
        rw [Option.some.injEq] at taken
        subst taken
        have due : (name, startTime) ∈ s.service.sweeper.due := by
          rw [sweeper]
          rfl
        rcases admitted.1 _ due timedOut with ⟨short, closed⟩
        exact h.sweepJudge sweeper short closed timedOut
      · next early =>
        rw [Option.some.injEq] at taken
        subst taken
        have logged : s.log { s.service with sweeper := .names rest found } (.sweepStep now) =
            { s with
              service := { s.service with sweeper := .names rest found }
              leftOpen := s.leftOpen ++ s.service.emptied
                { s.service with sweeper := .names rest found } } := by
          simp only [log, sweeper, Sweeper.due, Option.filter_some, decide_eq_false early,
            Bool.false_eq_true, if_false, Option.map_none, Option.toList_none, List.append_nil]
        rw [logged]
        exact h.sweepMove (more _) ⟨free, fun e he ↦ started (List.mem_cons_of_mem _ he), all⟩
  | workers name index rest found =>
    rw [sweeper] at sweeping
    simp only [SyncService.sweepStep, sweeper] at taken
    rcases sweeping with ⟨free, started, ⟨rfl, w, one, judged, all⟩ | ⟨rfl, none, all⟩⟩
    · rw [SyncService.remaining, one] at taken
      simp only [List.getElem?_cons_zero, Option.some.injEq] at taken
      subst taken
      rw [log_sweepStep now (by rw [sweeper]; rfl)]
      exact h.sweepMove (more _) ⟨free, started, rfl, one, judged, all⟩
    · rw [SyncService.remaining, none] at taken
      simp only [List.getElem?_nil, Option.some.injEq] at taken
      subst taken
      rw [log_sweepStep now (by rw [sweeper]; rfl)]
      exact h.sweepMove (more _) ⟨free, started, all⟩
  | remove name worker index rest found =>
    have removing : (name, worker) ∈ s.service.sweeper.removing := by
      rw [sweeper]
      rfl
    rw [sweeper] at sweeping
    have here : worker ∈ s.service.remaining name := by
      rw [SyncService.remaining, sweeping.2.2.2.1]
      exact List.mem_cons_self
    simp only [SyncService.sweepStep, sweeper, if_pos here, Option.some.injEq] at taken
    subst taken
    rw [log_sweepStep now (by rw [sweeper]; rfl)]
    apply h.sweepRemove sweeper (admitted.2 _ removing) (more _)
    intro none
    refine List.mem_append_right _ (mem_emptied_of_nil ?_ none ?_)
    · exact (mem_takenOff here).mpr (mem_of_mem_listOf here)
    · intro before
      rw [before] at here
      exact absurd here List.not_mem_nil

theorem Booked.sweepStart (h : Booked s) (free : s.service.LockFree)
    (sleeping : s.service.sweeper = .sleeping) :
    Booked { s with service :=
      { s.service with sweeper := .names s.service.syncStartTime.items [] } } := by
  have sweeping := h.sweeping
  rw [sleeping] at sweeping
  exact ⟨h.listed, h.joining, h.exiting, h.timing, h.judged, free.1, List.Subset.refl _, sweeping⟩

theorem Booked.handOver (h : Booked s) {worker : SyncWorker} {returned : Bool}
    (mem : worker ∈ s.service.sweeper.found) (admitted : s.Admitted (.handOver worker returned)) :
    Booked (s.log (s.service.handOver worker returned) (.handOver worker returned)) := by
  have all := (sweeping_iff_of_unlocked (Sweeper.unlocked_of_mem_found mem)).mp h.sweeping
  refine ⟨h.listed, h.joining, h.exiting, h.timing, h.judged, ?_⟩
  cases returned with
  | true =>
    intro e he
    refine ⟨(all e he).1, ?_⟩
    intro w hw
    rcases (all e he).2 w hw with handed | found
    · exact .inl (List.mem_cons_of_mem _ handed)
    · by_cases eq : w = worker
      · exact .inl (eq ▸ List.mem_cons_self)
      · exact .inr ((List.mem_erase_of_ne eq).mpr found)
  | false =>
    have last : ∀ w ∈ s.service.sweeper.found, w = worker := admitted.resolve_left nofun
    intro e he
    refine ⟨(all e he).1, ?_⟩
    intro w hw
    rcases (all e he).2 w hw with handed | found
    · exact .inl (List.mem_cons_of_mem _ handed)
    · exact .inl (last w found ▸ List.mem_cons_self)

/-- One step of any thread keeps the invariant. -/
theorem step_booked {u : SyncLedger} {a : SyncAct} (h : Booked s) (admitted : s.Admitted a)
    (taken : s.step a = some u) : Booked u := by
  rcases Option.map_eq_some_iff.mp taken with ⟨t, stepped, rfl⟩
  cases a with
  | join name worker running =>
    rw [SyncService.step, Option.ite_none_right_eq_some, Option.some.injEq] at stepped
    rcases stepped with ⟨free, rfl⟩
    exact h.joinStart admitted free
  | joinStep now =>
    rcases Option.map_eq_some_iff.mp stepped with ⟨j, holds, rfl⟩
    exact h.joinStep holds admitted
  | exitStart call worker =>
    rw [SyncService.step, Option.ite_none_left_eq_some, Option.some.injEq] at stepped
    rcases stepped with ⟨fresh, rfl⟩
    exact h.exitStart fresh admitted
  | exitStep call =>
    rcases Option.map_eq_some_iff.mp stepped with ⟨c, found, rfl⟩
    exact h.exitStep found admitted
  | sweepStart =>
    rw [SyncService.step, Option.ite_none_right_eq_some, Option.some.injEq] at stepped
    rcases stepped with ⟨⟨free, sleeping⟩, rfl⟩
    exact h.sweepStart free sleeping
  | sweepStep now => exact h.sweepStep stepped admitted
  | handOver worker returned =>
    rw [SyncService.step, Option.ite_none_right_eq_some, Option.some.injEq] at stepped
    rcases stepped with ⟨mem, rfl⟩
    exact h.handOver mem admitted

/-- A list on which no call is at work holds exactly the workers that did not go. -/
theorem Booked.remaining_eq (h : Booked s) {name : String} (settled : s.Settled name) :
    s.service.remaining name =
      (listOf s.initial name).filter fun w ↦ ¬ s.Gone name w := by
  rcases settled with ⟨noJoin, noExit, noSweep⟩
  have stays : ∀ w ∈ s.service.remaining name, ¬ s.Gone name w := by
    rintro w here (joined | exited | ⟨⟨n, l⟩, judged, rfl, mem⟩)
    · rcases h.joining.left name w joined here with eq | eq
      · exact noJoin _ eq rfl
      · exact noJoin _ eq rfl
    · rcases h.exiting.left name w exited here with ⟨k, c, hc, -, pending⟩
      exact noExit c (List.mem_map.mpr ⟨(k, c), hc, rfl⟩) pending
    · have emptied : s.service.remaining n = [] := by
        have sweeping := h.sweeping
        cases sweeper : s.service.sweeper with
        | sleeping => rw [sweeper] at sweeping; exact (sweeping _ judged).1
        | dead => rw [sweeper] at sweeping; exact (sweeping _ judged).1
        | handing found => rw [sweeper] at sweeping; exact (sweeping _ judged).1
        | names rest found => rw [sweeper] at sweeping; exact (sweeping.2.2 _ judged).1
        | workers m index rest found =>
          rw [sweeper] at sweeping noSweep
          rcases sweeping with ⟨-, -, ⟨-, x, -, -, all⟩ | ⟨-, -, all⟩⟩
          · rcases all _ judged with eq | emptied
            · cases eq
              exact absurd rfl noSweep
            · exact emptied.1
          · exact (all _ judged).1
        | remove m x index rest found =>
          rw [sweeper] at sweeping noSweep
          rcases sweeping.2.2.2.2.2 _ judged with eq | emptied
          · cases eq
            exact absurd rfl noSweep
          · exact emptied.1
      rw [emptied] at here
      exact List.not_mem_nil here
  -- both sides are sublists of the initial list with the same members
  have sub : (s.service.remaining name).Sublist
      ((listOf s.initial name).filter fun w ↦ ¬ s.Gone name w) := by
    have kept : (s.service.remaining name).filter (fun w ↦ ¬ s.Gone name w) =
        s.service.remaining name :=
      List.filter_eq_self.mpr fun w hw ↦ decide_eq_true (stays w hw)
    rw [← kept]
    exact (h.listed.sub name).filter _
  apply sub.eq_of_length_le
  apply List.Subperm.length_le
  apply List.subperm_of_subset ((h.listed.nodup name).filter _)
  intro w hw
  rcases List.mem_filter.mp hw with ⟨mem, stays⟩
  by_contra missing
  exact of_decide_eq_true stays (h.listed.gone name w mem missing)

/-- Over every run of admitted steps: a list no call is at work on holds the workers running at the
first join that did not join, exit or time out; once a sweep is over, every list it found past its
timeout is empty and its workers have been handed to `remove_worker`; and no empty list is found
past its timeout. -/
theorem sync_bookkeeping {timeout : ℚ} {acts : List SyncAct} {s : SyncLedger}
    (run : Run step Admitted (init timeout) acts s) :
    (∀ name, s.Settled name →
      s.service.remaining name = (listOf s.initial name).filter fun w ↦ ¬ s.Gone name w) ∧
    (s.service.sweeper = .sleeping ∨ s.service.sweeper = .dead → ∀ e ∈ s.judged,
      s.service.remaining e.1 = [] ∧ ∀ w ∈ e.2, w ∈ s.handed) ∧
    ∀ e ∈ s.judged, e.2 ≠ [] := by
  have h : Booked s := by
    apply run.invariant (P := Booked) (booked_init timeout)
    intro t u a h admitted taken
    exact step_booked h admitted taken
  refine ⟨fun name settled ↦ h.remaining_eq settled, ?_, fun e he ↦ (h.judged e he).2⟩
  intro ended e he
  have sweeping := h.sweeping
  have emptied : Emptied s.service.syncObjsTarget s.handed [] e := by
    rcases ended with sweeper | sweeper
    · rw [sweeper] at sweeping
      exact sweeping e he
    · rw [sweeper] at sweeping
      exact sweeping e he
  refine ⟨emptied.1, ?_⟩
  intro w hw
  exact (emptied.2 w hw).resolve_right List.not_mem_nil

def syncWorker (id : Int) : SyncWorker := ("worker", id)

/-- The first join of a sync whose running workers are three; worker 0 joins. -/
def firstJoin : List SyncAct :=
  .join "sync" (syncWorker 0) ⟨[syncWorker 0, syncWorker 1, syncWorker 2], by decide⟩ ::
    List.replicate 4 (.joinStep 0)

/-- Worker 1 exits and worker 2 is timed out. -/
theorem sync_bookkeeping_three :
    ∃ acts s, Run step Admitted (init 10) acts s ∧
      listOf s.initial "sync" = [syncWorker 0, syncWorker 1, syncWorker 2] ∧
      s.service.remaining "sync" =
        (listOf s.initial "sync").filter (fun w ↦ ¬ s.Gone "sync" w) ∧
      s.service.remaining "sync" = [] ∧ syncWorker 2 ∈ s.handed := by
  have eval : ((firstJoin ++ ([.exitStart 0 (syncWorker 1), .exitStep 0, .exitStep 0, .exitStep 0,
      .exitStep 0, .sweepStart, .sweepStep 20, .sweepStep 20, .sweepStep 20, .sweepStep 20,
      .sweepStep 20, .handOver (syncWorker 2) true, .sweepStep 20] : List SyncAct)).foldlM
      (fun s a ↦ if Admitted s a then step s a else none) (init 10)).map (fun s ↦ decide (
        listOf s.initial "sync" = [syncWorker 0, syncWorker 1, syncWorker 2] ∧
        s.Settled "sync" ∧ s.service.sweeper = .sleeping ∧
        ("sync", [syncWorker 2]) ∈ s.judged)) = some true := by
    decide +kernel
  rcases Option.map_eq_some_iff.mp eval with ⟨s, hs, holds⟩
  rcases of_decide_eq_true holds with ⟨initial, settled, sleeping, judged⟩
  have run := run_of_guarded hs
  rcases sync_bookkeeping run with ⟨lists, swept, -⟩
  rcases swept (.inl sleeping) _ judged with ⟨empty, handed⟩
  exact ⟨_, s, run, initial, lists "sync" settled, empty, handed _ List.mem_cons_self⟩

/-- A sweep leaves the second of two workers, because the loop skips it; a list that a sweep has
emptied is found past its timeout again; and an exit call that is under way when another sync is
created raises and leaves its worker on the list. -/
theorem sync_misbooked :
    (∃ acts s, Run step anyStep (init 10) acts s ∧ s.service.sweeper = .sleeping ∧
      ("sync", [syncWorker 1, syncWorker 2]) ∈ s.judged ∧
      s.service.remaining "sync" = [syncWorker 2] ∧ syncWorker 2 ∉ s.handed) ∧
    (∃ acts s, Run step anyStep (init 10) acts s ∧ ("sync", []) ∈ s.judged) ∧
    ∃ acts s, Run step anyStep (init 10) acts s ∧ s.Settled "sync" ∧
      ("sync", syncWorker 1) ∈ s.exited ∧ syncWorker 1 ∈ s.service.remaining "sync" := by
  refine ⟨?_, ?_, ?_⟩
  · have eval : ((firstJoin ++ ([.sweepStart, .sweepStep 20, .sweepStep 20, .sweepStep 20,
        .sweepStep 20, .sweepStep 20, .handOver (syncWorker 1) true,
        .sweepStep 20] : List SyncAct)).foldlM step (init 10)).map (fun s ↦ decide (
          s.service.sweeper = .sleeping ∧ ("sync", [syncWorker 1, syncWorker 2]) ∈ s.judged ∧
          s.service.remaining "sync" = [syncWorker 2] ∧ syncWorker 2 ∉ s.handed)) =
        some true := by
      decide +kernel
    rcases Option.map_eq_some_iff.mp eval with ⟨s, hs, holds⟩
    exact ⟨_, s, run_of_foldlM hs, of_decide_eq_true holds⟩
  · have eval : (([.join "sync" (syncWorker 0) ⟨[syncWorker 1], by decide⟩, .joinStep 0,
        .joinStep 0, .sweepStart, .sweepStep 20, .sweepStep 20, .sweepStep 20, .sweepStep 20,
        .sweepStep 20, .handOver (syncWorker 1) true, .sweepStep 20, .sweepStart,
        .sweepStep 40] : List SyncAct).foldlM step (init 10)).map
        (fun s ↦ decide (("sync", []) ∈ s.judged)) = some true := by
      decide +kernel
    rcases Option.map_eq_some_iff.mp eval with ⟨s, hs, holds⟩
    exact ⟨_, s, run_of_foldlM hs, of_decide_eq_true holds⟩
  · have eval : ((firstJoin ++ ([.exitStart 0 (syncWorker 1),
        .join "next" (syncWorker 2) ⟨[syncWorker 2], by decide⟩, .joinStep 1, .joinStep 1,
        .joinStep 1, .joinStep 1, .exitStep 0] : List SyncAct)).foldlM step (init 10)).map
        (fun s ↦ decide (s.Settled "sync" ∧ ("sync", syncWorker 1) ∈ s.exited ∧
          syncWorker 1 ∈ s.service.remaining "sync")) = some true := by
      decide +kernel
    rcases Option.map_eq_some_iff.mp eval with ⟨s, hs, holds⟩
    exact ⟨_, s, run_of_foldlM hs, of_decide_eq_true holds⟩

end SyncLedger

end ProbingBaselines.Dlrover
