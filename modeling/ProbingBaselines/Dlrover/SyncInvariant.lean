import ProbingBaselines.Dlrover.SyncService

/-!
# The invariant of the sync service

It comes in five parts, each over the fields it speaks of, so that a step has to argue only about
the parts whose fields it writes: the lists against the workers they started from, the join that
holds the lock, the exit calls, the start times, and the sweep.
-/

namespace ProbingBaselines.Dlrover

open Lib

theorem listOf_insert {d : Dict String (List SyncWorker)} {name m : String}
    {l : List SyncWorker} :
    listOf (d.insert name l) m = if m = name then l else listOf d m := by
  rw [listOf, Dict.get?_insert]
  split
  · rfl
  · rfl

theorem listOf_of_not_mem {d : Dict String (List SyncWorker)} {name : String} (h : name ∉ d) :
    listOf d name = [] := by
  rw [listOf, Dict.get?_eq_none_iff.mpr h, Option.getD_none]

theorem mem_of_mem_listOf {d : Dict String (List SyncWorker)} {name : String} {w : SyncWorker}
    (h : w ∈ listOf d name) : name ∈ d := by
  by_contra absent
  rw [listOf_of_not_mem absent] at h
  exact List.not_mem_nil h

/-- The lists after one worker is taken off one of them. -/
def takenOff (d : Dict String (List SyncWorker)) (name : String) (w : SyncWorker) :
    Dict String (List SyncWorker) :=
  d.insert name ((listOf d name).erase w)

section TakenOff

variable {d : Dict String (List SyncWorker)} {name m : String} {w x : SyncWorker}

theorem listOf_takenOff_of_ne (ne : m ≠ name) : listOf (takenOff d name w) m = listOf d m := by
  rw [takenOff, listOf_insert, if_neg ne]

theorem listOf_takenOff_self : listOf (takenOff d name w) name = (listOf d name).erase w := by
  rw [takenOff, listOf_insert, if_pos rfl]

theorem listOf_takenOff_sublist : (listOf (takenOff d name w) m).Sublist (listOf d m) := by
  by_cases eq : m = name
  · subst eq
    rw [listOf_takenOff_self]
    exact List.erase_sublist
  · rw [listOf_takenOff_of_ne eq]

theorem listOf_takenOff_nil (h : listOf d m = []) : listOf (takenOff d name w) m = [] := by
  have sub : (listOf (takenOff d name w) m).Sublist (listOf d m) := listOf_takenOff_sublist
  rw [h] at sub
  exact List.sublist_nil.mp sub

/-- Only the worker taken off is missing. -/
theorem mem_listOf_takenOff (h : x ∈ listOf d m) (other : ¬ (m = name ∧ x = w)) :
    x ∈ listOf (takenOff d name w) m := by
  by_cases eq : m = name
  · subst eq
    rw [listOf_takenOff_self]
    exact (List.mem_erase_of_ne fun h ↦ other ⟨rfl, h⟩).mpr h
  · rw [listOf_takenOff_of_ne eq]
    exact h

theorem not_mem_listOf_takenOff (nodup : (listOf d name).Nodup) :
    w ∉ listOf (takenOff d name w) name := by
  rw [listOf_takenOff_self]
  exact nodup.not_mem_erase

theorem keys_takenOff (h : w ∈ listOf d name) : (takenOff d name w).keys = d.keys :=
  Dict.keys_insert_of_mem _ (mem_of_mem_listOf h)

theorem mem_takenOff (h : w ∈ listOf d name) : m ∈ takenOff d name w ↔ m ∈ d := by
  rw [Dict.mem_def, keys_takenOff h, Dict.mem_def]

theorem length_takenOff (h : w ∈ listOf d name) :
    (takenOff d name w).items.length = d.items.length := by
  have length : (takenOff d name w).keys.length = d.keys.length := by rw [keys_takenOff h]
  rwa [Dict.keys, Dict.keys, List.length_map, List.length_map] at length

end TakenOff

/-- Lists against their start: what is missing has a reason. -/
structure Listed (initial targets : Dict String (List SyncWorker))
    (gone : String → SyncWorker → Prop) : Prop where
  keys : initial.keys = targets.keys
  nodup : ∀ n, (listOf initial n).Nodup
  sub : ∀ n, (listOf targets n).Sublist (listOf initial n)
  gone : ∀ n, ∀ w ∈ listOf initial n, w ∉ listOf targets n → gone n w

/-- The join that holds the lock is the only one whose worker may still be on a list. -/
structure Joining (targets : Dict String (List SyncWorker)) (joined : List (String × SyncWorker))
    (join : Option JoinCall) (exits : Dict Nat ExitCall) : Prop where
  named : ∀ n w, (n, w) ∈ joined → n ∈ targets ∨ ∃ r, join = some ⟨n, w, .create r⟩
  left : ∀ n w, (n, w) ∈ joined → w ∈ listOf targets n →
    join = some ⟨n, w, .test⟩ ∨ join = some ⟨n, w, .remove⟩
  logged : ∀ j, join = some j → (j.name, j.worker) ∈ joined
  creates : ∀ n w r, join = some ⟨n, w, .create r⟩ → n ∉ targets ∧ exits.items = []
  known : ∀ j, join = some j → (∃ r, j.phase = .create r) ∨ j.name ∈ targets

/-- An exited worker is on a list only while its exit call has not come to that list. -/
structure Exiting (targets : Dict String (List SyncWorker)) (exited : List (String × SyncWorker))
    (exits : Dict Nat ExitCall) : Prop where
  named : ∀ n w, (n, w) ∈ exited → n ∈ targets
  left : ∀ n w, (n, w) ∈ exited → w ∈ listOf targets n →
    ∃ k c, (k, c) ∈ exits.items ∧ c.worker = w ∧ n ∈ c.pending
  size : ∀ k c, (k, c) ∈ exits.items → c.size = targets.items.length
  logged : ∀ k c, (k, c) ∈ exits.items → ∀ n ∈ c.pending, (n, c.worker) ∈ exited
  due : ∀ k c, (k, c) ∈ exits.items → ∀ n, c.phase = .remove n → c.worker ∈ listOf targets n

/-- A start time stays beside an empty list only where the list was left open. -/
structure Timing (targets : Dict String (List SyncWorker)) (startTime : Dict String ℚ)
    (join : Option JoinCall) (leftOpen : List String) : Prop where
  known : ∀ n ∈ startTime, n ∈ targets
  closing : ∀ n ∈ startTime, listOf targets n = [] →
    n ∈ leftOpen ∨ ∃ w, join = some ⟨n, w, .close⟩

/-- A judged list is empty, and its workers are handed over or about to be. -/
def Emptied (targets : Dict String (List SyncWorker)) (handed found : List SyncWorker)
    (e : String × List SyncWorker) : Prop :=
  listOf targets e.1 = [] ∧ ∀ w ∈ e.2, w ∈ handed ∨ w ∈ found

/-- How far a sweep has come with the lists it has judged. -/
def Sweeping (targets : Dict String (List SyncWorker)) (startTime : Dict String ℚ)
    (join : Option JoinCall) (judged : List (String × List SyncWorker))
    (handed : List SyncWorker) : Sweeper → Prop
  | .sleeping => ∀ e ∈ judged, Emptied targets handed [] e
  | .names rest found =>
    join = none ∧ rest ⊆ startTime.items ∧ ∀ e ∈ judged, Emptied targets handed found e
  | .workers name index rest found =>
    join = none ∧ rest ⊆ startTime.items ∧
      (index = 0 ∧ (∃ w, listOf targets name = [w] ∧ (name, [w]) ∈ judged ∧
          ∀ e ∈ judged, e = (name, [w]) ∨ Emptied targets handed found e) ∨
        index = 1 ∧ listOf targets name = [] ∧ ∀ e ∈ judged, Emptied targets handed found e)
  | .remove name worker index rest found =>
    join = none ∧ rest ⊆ startTime.items ∧ index = 1 ∧ listOf targets name = [worker] ∧
      (name, [worker]) ∈ judged ∧
      ∀ e ∈ judged, e = (name, [worker]) ∨ Emptied targets handed found e
  | .handing found => ∀ e ∈ judged, Emptied targets handed found e
  | .dead => ∀ e ∈ judged, Emptied targets handed [] e

/-- What every admitted run keeps. -/
structure SyncLedger.Booked (s : SyncLedger) : Prop where
  listed : Listed s.initial s.service.syncObjsTarget s.Gone
  joining : Joining s.service.syncObjsTarget s.joined s.service.join s.service.exits
  exiting : Exiting s.service.syncObjsTarget s.exited s.service.exits
  timing : Timing s.service.syncObjsTarget s.service.syncStartTime s.service.join s.leftOpen
  judged : ∀ e ∈ s.judged, e.1 ∈ s.service.syncObjsTarget ∧ e.2 ≠ []
  sweeping : Sweeping s.service.syncObjsTarget s.service.syncStartTime s.service.join s.judged
    s.handed s.service.sweeper

section Parts

variable {initial targets : Dict String (List SyncWorker)} {gone : String → SyncWorker → Prop}
  {joined exited : List (String × SyncWorker)} {join : Option JoinCall}
  {exits : Dict Nat ExitCall} {startTime : Dict String ℚ} {leftOpen : List String}
  {judged : List (String × List SyncWorker)} {handed found : List SyncWorker}
  {sweeper : Sweeper} {name : String} {w : SyncWorker}

theorem Listed.mono {more : String → SyncWorker → Prop} (h : Listed initial targets gone)
    (weaker : ∀ n w, gone n w → more n w) : Listed initial targets more :=
  ⟨h.keys, h.nodup, h.sub, fun n w mem missing ↦ weaker n w (h.gone n w mem missing)⟩

theorem Listed.takenOff (h : Listed initial targets gone) (mem : w ∈ listOf targets name)
    (reason : gone name w) : Listed initial (takenOff targets name w) gone := by
  refine ⟨h.keys.trans (keys_takenOff mem).symm, h.nodup, ?_, ?_⟩
  · intro n
    exact listOf_takenOff_sublist.trans (h.sub n)
  · intro n x hx missing
    by_cases eq : n = name ∧ x = w
    · rcases eq with ⟨rfl, rfl⟩
      exact reason
    · apply h.gone n x hx
      intro here
      exact missing (mem_listOf_takenOff here eq)

theorem Joining.takenOff (h : Joining targets joined join exits) (mem : w ∈ listOf targets name) :
    Joining (takenOff targets name w) joined join exits where
  named n x hx := by
    rw [mem_takenOff mem]
    exact h.named n x hx
  left n x hx here := h.left n x hx (listOf_takenOff_sublist.subset here)
  logged := h.logged
  creates n x r eq := by
    rw [mem_takenOff mem]
    exact h.creates n x r eq
  known j eq := by
    rw [mem_takenOff mem]
    exact h.known j eq

/-- The exit calls do not see a removal that none of them is about to make. -/
theorem Exiting.takenOff (h : Exiting targets exited exits) (mem : w ∈ listOf targets name)
    (free : ∀ k c, (k, c) ∈ exits.items → c.phase = .remove name → c.worker ≠ w) :
    Exiting (takenOff targets name w) exited exits where
  named n x hx := (mem_takenOff mem).mpr (h.named n x hx)
  left n x hx here := h.left n x hx (listOf_takenOff_sublist.subset here)
  size k c hc := (h.size k c hc).trans (length_takenOff mem).symm
  logged := h.logged
  due k c hc n phase := by
    apply mem_listOf_takenOff (h.due k c hc n phase)
    rintro ⟨rfl, eq⟩
    exact free k c hc phase eq

theorem Timing.mono {more : List String} (h : Timing targets startTime join leftOpen)
    (sub : leftOpen ⊆ more) : Timing targets startTime join more :=
  ⟨h.known, fun n started none ↦ (h.closing n started none).imp_left fun mem ↦ sub mem⟩

/-- A list emptied by a removal is logged as left open. -/
theorem Timing.takenOff {more : List String} (h : Timing targets startTime join leftOpen)
    (mem : w ∈ listOf targets name) (sub : leftOpen ⊆ more)
    (open' : listOf (takenOff targets name w) name = [] → name ∈ more) :
    Timing (takenOff targets name w) startTime join more := by
  refine ⟨fun n started ↦ (mem_takenOff mem).mpr (h.known n started), ?_⟩
  intro n started none
  by_cases eq : n = name
  · subst eq
    exact .inl (open' none)
  · rw [listOf_takenOff_of_ne eq] at none
    exact (h.closing n started none).imp_left fun mem ↦ sub mem

/-- While an exit call is under way no join creates a list. -/
theorem Joining.busy {exits' : Dict Nat ExitCall} (h : Joining targets joined join exits)
    {k : Nat} {c : ExitCall} (mem : (k, c) ∈ exits.items) :
    Joining targets joined join exits' where
  named := h.named
  left := h.left
  logged := h.logged
  creates n x r eq := by
    rw [(h.creates n x r eq).2] at mem
    exact absurd mem List.not_mem_nil
  known := h.known

/-- An exit call moves on: the names it is done with no longer have its worker. -/
theorem Exiting.move (h : Exiting targets exited exits) {k : Nat} {c next : ExitCall}
    (mem : (k, c) ∈ exits.items) (same : next.worker = c.worker ∧ next.size = c.size)
    (sub : next.pending ⊆ c.pending)
    (done : ∀ n ∈ c.pending, c.worker ∈ listOf targets n → n ∈ next.pending)
    (due : ∀ n, next.phase = .remove n → next.worker ∈ listOf targets n) :
    Exiting targets exited (exits.insert k next) where
  named := h.named
  left n w hw here := by
    rcases h.left n w hw here with ⟨i, d, hd, rfl, pending⟩
    by_cases eq : i = k
    · subst eq
      cases Dict.value_unique hd mem
      exact ⟨i, next, Dict.mem_items_insert.mpr (.inl ⟨rfl, rfl⟩), same.1,
        done n pending here⟩
    · exact ⟨i, d, Dict.mem_items_insert.mpr (.inr ⟨eq, hd⟩), rfl, pending⟩
  size i d hd := by
    rcases Dict.mem_items_insert.mp hd with ⟨-, rfl⟩ | ⟨-, hd⟩
    · rw [same.2]
      exact h.size k c mem
    · exact h.size i d hd
  logged i d hd n pending := by
    rcases Dict.mem_items_insert.mp hd with ⟨-, rfl⟩ | ⟨-, hd⟩
    · rw [same.1]
      exact h.logged k c mem n (sub pending)
    · exact h.logged i d hd n pending
  due i d hd n phase := by
    rcases Dict.mem_items_insert.mp hd with ⟨-, rfl⟩ | ⟨-, hd⟩
    · exact due n phase
    · exact h.due i d hd n phase

/-- An exit call ends when no name is left. -/
theorem Exiting.finish (h : Exiting targets exited exits) {k : Nat} {c : ExitCall}
    (mem : (k, c) ∈ exits.items) (done : c.pending = []) :
    Exiting targets exited (exits.erase k) where
  named := h.named
  left n w hw here := by
    rcases h.left n w hw here with ⟨i, d, hd, eq, pending⟩
    refine ⟨i, d, Dict.mem_items_erase.mpr ⟨hd, ?_⟩, eq, pending⟩
    rintro rfl
    cases Dict.value_unique hd mem
    rw [done] at pending
    exact List.not_mem_nil pending
  size i d hd := h.size i d (Dict.mem_items_erase.mp hd).1
  logged i d hd := h.logged i d (Dict.mem_items_erase.mp hd).1
  due i d hd := h.due i d (Dict.mem_items_erase.mp hd).1

theorem Emptied.takenOff {e : String × List SyncWorker} (h : Emptied targets handed found e) :
    Emptied (takenOff targets name w) handed found e :=
  ⟨listOf_takenOff_nil h.1, h.2⟩

/-- The sweep does not see a removal from a list it is not on. -/
theorem Sweeping.takenOff (h : Sweeping targets startTime join judged handed sweeper)
    (off : sweeper.on ≠ some name) :
    Sweeping (takenOff targets name w) startTime join judged handed sweeper := by
  cases sweeper with
  | sleeping => exact fun e he ↦ (h e he).takenOff
  | names rest found => exact ⟨h.1, h.2.1, fun e he ↦ (h.2.2 e he).takenOff⟩
  | workers m index rest found =>
    have ne : m ≠ name := fun eq ↦ off (congrArg some eq)
    rcases h with ⟨free, rest, ⟨first, x, one, logged, all⟩ | ⟨second, none, all⟩⟩
    · refine ⟨free, rest, .inl ⟨first, x, ?_, logged, fun e he ↦ (all e he).imp_right .takenOff⟩⟩
      rw [listOf_takenOff_of_ne ne]
      exact one
    · exact ⟨free, rest, .inr ⟨second, listOf_takenOff_nil none, fun e he ↦ (all e he).takenOff⟩⟩
  | remove m x index rest found =>
    have ne : m ≠ name := fun eq ↦ off (congrArg some eq)
    rcases h with ⟨free, rest, position, one, logged, all⟩
    refine ⟨free, rest, position, ?_, logged, fun e he ↦ (all e he).imp_right .takenOff⟩
    rw [listOf_takenOff_of_ne ne]
    exact one
  | handing found => exact fun e he ↦ (h e he).takenOff
  | dead => exact fun e he ↦ (h e he).takenOff

/-- Between sweeps every judged list is dealt with, apart from what is still to hand over. -/
theorem sweeping_iff_of_unlocked (free : sweeper.locked = false) :
    Sweeping targets startTime join judged handed sweeper ↔
      ∀ e ∈ judged, Emptied targets handed sweeper.found e := by
  cases sweeper with
  | sleeping => rfl
  | handing found => rfl
  | dead => rfl
  | names rest found => contradiction
  | workers m index rest found => contradiction
  | remove m x index rest found => contradiction

/-- Between sweeps the invariant of the sweep reads neither the start times nor the join. -/
theorem Sweeping.unlocked {startTime' : Dict String ℚ} {join' : Option JoinCall}
    (h : Sweeping targets startTime join judged handed sweeper) (free : sweeper.locked = false) :
    Sweeping targets startTime' join' judged handed sweeper :=
  (sweeping_iff_of_unlocked free).mpr ((sweeping_iff_of_unlocked free).mp h)

/-- A join holds the lock only between sweeps. -/
theorem Sweeping.locked_eq_false {j : JoinCall}
    (h : Sweeping targets startTime (some j) judged handed sweeper) : sweeper.locked = false := by
  cases sweeper with
  | sleeping => rfl
  | handing found => rfl
  | dead => rfl
  | names rest found => cases h.1
  | workers m index rest found => cases h.1
  | remove m x index rest found => cases h.1

/-- Workers are handed over only between sweeps. -/
theorem Sweeper.unlocked_of_mem_found (mem : w ∈ sweeper.found) : sweeper.locked = false := by
  cases sweeper with
  | sleeping => rfl
  | handing found => rfl
  | dead => rfl
  | names rest found => exact absurd mem List.not_mem_nil
  | workers m index rest found => exact absurd mem List.not_mem_nil
  | remove m x index rest found => exact absurd mem List.not_mem_nil

theorem Sweeper.on_of_unlocked (free : sweeper.locked = false) : sweeper.on = none := by
  cases sweeper with
  | sleeping => rfl
  | handing found => rfl
  | dead => rfl
  | names rest found => contradiction
  | workers m index rest found => contradiction
  | remove m x index rest found => contradiction

/-! ### A new list -/

theorem ne_of_mem_of_fresh (fresh : name ∉ targets) {n : String} (known : n ∈ targets) :
    n ≠ name := by
  rintro rfl
  exact fresh known

theorem Listed.create {running : List SyncWorker} (h : Listed initial targets gone)
    (fresh : name ∉ targets) (nodup : running.Nodup) :
    Listed (initial.insert name running) (targets.insert name running) gone where
  keys := by
    have freshInitial : name ∉ initial := by
      rw [Dict.mem_def, h.keys]
      exact fresh
    rw [Dict.keys_insert_of_not_mem _ freshInitial, Dict.keys_insert_of_not_mem _ fresh, h.keys]
  nodup n := by
    rw [listOf_insert]
    split
    · exact nodup
    · exact h.nodup n
  sub n := by
    rw [listOf_insert, listOf_insert]
    split
    · exact List.Sublist.refl _
    · exact h.sub n
  gone n x := by
    rw [listOf_insert, listOf_insert]
    split
    · intro mem missing
      exact absurd mem missing
    · exact h.gone n x

/-- The join that has created its list is the only one that may be on it. -/
theorem Joining.create {running : {l : List SyncWorker // l.Nodup}}
    (h : Joining targets joined (some ⟨name, w, .create running⟩) exits) (fresh : name ∉ targets) :
    Joining (targets.insert name running) joined (some ⟨name, w, .test⟩) exits where
  named n x mem := by
    rw [Dict.mem_insert]
    rcases h.named n x mem with known | ⟨r, eq⟩
    · exact .inl (.inr known)
    · cases eq
      exact .inl (.inl rfl)
  left n x mem here := by
    rcases h.named n x mem with known | ⟨r, eq⟩
    · rw [listOf_insert, if_neg (ne_of_mem_of_fresh fresh known)] at here
      rcases h.left n x mem here with eq | eq
      · cases eq
      · cases eq
    · cases eq
      exact .inl rfl
  logged j eq := by
    cases eq
    exact h.logged ⟨name, w, .create running⟩ rfl
  creates n x r eq := by cases eq
  known j eq := by
    cases eq
    exact .inr (Dict.mem_insert.mpr (.inl rfl))

theorem Exiting.create {running : List SyncWorker} (h : Exiting targets exited exits)
    (fresh : name ∉ targets) (idle : exits.items = []) :
    Exiting (targets.insert name running) exited exits where
  named n x mem := Dict.mem_insert.mpr (.inr (h.named n x mem))
  left n x mem here := by
    rw [listOf_insert, if_neg (ne_of_mem_of_fresh fresh (h.named n x mem))] at here
    exact h.left n x mem here
  size k c mem := by
    rw [idle] at mem
    cases mem
  logged k c mem := by
    rw [idle] at mem
    cases mem
  due k c mem := by
    rw [idle] at mem
    cases mem

/-- A list that is created empty is left open. -/
theorem Timing.create {running : List SyncWorker} {join' : Option JoinCall} {more : List String}
    (h : Timing targets startTime join leftOpen) (now : ℚ) (fresh : name ∉ targets)
    (noClose : ∀ n x, join ≠ some ⟨n, x, .close⟩) (empty : running = [] → name ∈ more) :
    Timing (targets.insert name running) (startTime.insert name now) join' (leftOpen ++ more) where
  known n started := by
    rw [Dict.mem_insert] at started ⊢
    exact started.imp_right (h.known n)
  closing n started none := by
    rw [listOf_insert] at none
    rcases Dict.mem_insert.mp started with rfl | old
    · rw [if_pos rfl] at none
      exact .inl (List.mem_append_right _ (empty none))
    · rw [if_neg (ne_of_mem_of_fresh fresh (h.known n old))] at none
      rcases h.closing n old none with left | ⟨x, eq⟩
      · exact .inl (List.mem_append_left _ left)
      · exact absurd eq (noClose n x)

theorem Emptied.create {running : List SyncWorker} {e : String × List SyncWorker}
    (h : Emptied targets handed found e) (fresh : name ∉ targets) (known : e.1 ∈ targets) :
    Emptied (targets.insert name running) handed found e := by
  refine ⟨?_, h.2⟩
  rw [listOf_insert, if_neg (ne_of_mem_of_fresh fresh known)]
  exact h.1

end Parts

end ProbingBaselines.Dlrover
