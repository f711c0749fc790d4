import Mathlib.Data.List.Basic
import ProbingBaselines.Lib.Dict
import ProbingBaselines.Lib.Run

/-!
# The shared lock and its connections

The server process keeps a `threading.Lock` and serves each client connection in a thread of its
own, `_deal_shared_lock_msg`. That thread remembers in `lock_acquired` whether its connection holds
the lock, to free it when the client goes away. The server process acquires and releases the lock
itself as well, from any of its threads. A release is two steps, as it tests `locked()` before it
calls `release()` of the lock.
-/

namespace ProbingBaselines.Dlrover

open Lib

/-- Who can acquire the lock: the server process or the client of a connection. -/
inductive SharedLockParty where
  | server
  | client (connection : Nat)
deriving DecidableEq

/-- What a party has done with the lock: an acquire that succeeded, a call of `release` that has
ended, the end of its connection. -/
inductive SharedLockEvent where
  | acquired
  | released
  | disconnected
deriving DecidableEq

/-- Where `_deal_shared_lock_msg` stands (`multi_process.py:284-333`): it waits for a message, waits
in a blocking `acquire`, is between the test and the release of a `release` message, or, after the
connection broke, before the test or before the release of its last `release`. -/
inductive DealPhase where
  | reading
  | acquiring
  | releasing
  | closing
  | closingFree
deriving DecidableEq

/-- One run of `_deal_shared_lock_msg`. -/
structure DealThread where
  lockAcquired : Bool
  phase : DealPhase

/-- The responses of the server: `LockAcquireResponse`, `LockedResponse`, and a `SocketResponse`
with the status of a release. -/
inductive SharedLockReply where
  | acquired (value : Bool)
  | locked (value : Bool)
  | released
  | error

/-- The end of a connection: who held the lock before the last step of its thread, and whether that
step freed the lock. -/
structure Disconnect where
  connection : Nat
  holder : Option SharedLockParty
  freed : Bool
deriving DecidableEq

/-- The lock, the threads of the connections and the server's own calls of `release` that have found
the lock locked. `holder` says who acquired the lock last, `none` that it is not locked; the lock
carries no owner, and no step looks at it otherwise. `history`, `disconnects` and `replies` record
what has happened. -/
structure SharedLock where
  holder : Option SharedLockParty
  threads : Dict Nat DealThread
  serverReleases : Nat
  history : List (SharedLockParty × SharedLockEvent)
  disconnects : List Disconnect
  replies : List (Nat × SharedLockReply)

inductive SharedLockAct where
  | connect (connection : Nat)
  | acquire (connection : Nat) (blocking : Bool)
  | wake (connection : Nat)
  | locked (connection : Nat)
  | release (connection : Nat)
  | free (connection : Nat)
  | disconnect (connection : Nat)
  | closeTest (connection : Nat)
  | closeFree (connection : Nat)
  | serverAcquire
  | serverRelease
  | serverFree

/-- The latest event of a party. -/
def latestEvent (history : List (SharedLockParty × SharedLockEvent)) (party : SharedLockParty) :
    Option SharedLockEvent :=
  ((history.filter fun e ↦ e.1 = party).getLast?).map Prod.snd

theorem latestEvent_concat (history : List (SharedLockParty × SharedLockEvent))
    (p q : SharedLockParty) (event : SharedLockEvent) :
    latestEvent (history ++ [(p, event)]) q =
      if p = q then some event else latestEvent history q := by
  unfold latestEvent
  rw [List.filter_append]
  split
  · next eq => simp [eq]
  · next ne => simp [ne]

/-- A party with a latest event occurs in the history. -/
theorem mem_of_latestEvent {history : List (SharedLockParty × SharedLockEvent)}
    {party : SharedLockParty} {event : SharedLockEvent}
    (h : latestEvent history party = some event) : ∃ e ∈ history, e.1 = party := by
  rcases Option.map_eq_some_iff.mp h with ⟨e, last, -⟩
  rcases List.mem_filter.mp (List.mem_of_getLast? last) with ⟨mem, eq⟩
  exact ⟨e, mem, of_decide_eq_true eq⟩

namespace SharedLock

def init : SharedLock := ⟨none, .empty, 0, [], [], []⟩

def setThread (s : SharedLock) (connection : Nat) (thread : DealThread) : SharedLock :=
  { s with threads := s.threads.insert connection thread }

def reply (s : SharedLock) (connection : Nat) (reply : SharedLockReply) : SharedLock :=
  { s with replies := s.replies ++ [(connection, reply)] }

/-- `self._lock.acquire` succeeds. -/
def take (s : SharedLock) (party : SharedLockParty) : SharedLock :=
  { s with holder := some party, history := s.history ++ [(party, .acquired)] }

/-- The call of `release` of a party ends, with the lock as in `holder`. -/
def ended (s : SharedLock) (party : SharedLockParty) (holder : Option SharedLockParty) :
    SharedLock :=
  { s with holder := holder, history := s.history ++ [(party, .released)] }

/-- The thread of a connection ends, with the lock freed or left as it is. -/
def close (s : SharedLock) (connection : Nat) (freed : Bool) : SharedLock :=
  { s with
    holder := if freed then none else s.holder
    threads := s.threads.erase connection
    history := s.history ++ [(.client connection, .disconnected)]
    disconnects := s.disconnects ++ [⟨connection, s.holder, freed⟩] }

/-- The branch of the message `acquire`: `lock_acquired` becomes the answer. A blocking call on a
locked lock leaves the thread waiting (`multi_process.py:291-294`, `356-364`). -/
def dealAcquire (s : SharedLock) (connection : Nat) (blocking : Bool) (thread : DealThread) :
    SharedLock :=
  if s.holder = none then
    ((s.take (.client connection)).setThread connection ⟨true, .reading⟩).reply connection
      (.acquired true)
  else if blocking then s.setThread connection { thread with phase := .acquiring }
  else (s.setThread connection ⟨false, .reading⟩).reply connection (.acquired false)

/-- The branch of the message `release` up to the test (`multi_process.py:298-300`, `383-389`). -/
def dealRelease (s : SharedLock) (connection : Nat) (thread : DealThread) : SharedLock :=
  if s.holder = none then
    ((s.ended (.client connection) none).setThread connection ⟨false, .reading⟩).reply connection
      .released
  else s.setThread connection { thread with phase := .releasing }

/-- `self._lock.release()` of that branch. On a lock that was released in between it raises, and the
thread answers with an error and keeps its `lock_acquired`. -/
def dealFree (s : SharedLock) (connection : Nat) (thread : DealThread) : SharedLock :=
  if s.holder = none then
    ((s.ended (.client connection) none).setThread connection
      { thread with phase := .reading }).reply connection .error
  else
    ((s.ended (.client connection) none).setThread connection ⟨false, .reading⟩).reply connection
      .released

/-- The end of the loop: the thread has found the connection closed or broken. -/
def dealDisconnect (s : SharedLock) (connection : Nat) (thread : DealThread) : SharedLock :=
  if thread.lockAcquired then s.setThread connection { thread with phase := .closing }
  else s.close connection false

/-- `if lock_acquired: self.release()` after the loop, the test. -/
def dealCloseTest (s : SharedLock) (connection : Nat) (thread : DealThread) : SharedLock :=
  if s.holder = none then s.close connection false
  else s.setThread connection { thread with phase := .closingFree }

/-- The same, the release; on a lock that was released in between it raises and ends the thread. -/
def dealCloseFree (s : SharedLock) (connection : Nat) : SharedLock :=
  s.close connection (s.holder ≠ none)

/-- The thread of a connection, when it stands at `phase`. -/
def threadAt (s : SharedLock) (connection : Nat) (phase : DealPhase) : Option DealThread :=
  (s.threads.get? connection).filter fun thread ↦ thread.phase = phase

def step (s : SharedLock) : SharedLockAct → Option SharedLock
  | .connect connection =>
    if connection ∈ s.threads then none else some (s.setThread connection ⟨false, .reading⟩)
  | .acquire connection blocking =>
    (s.threadAt connection .reading).map (s.dealAcquire connection blocking)
  | .wake connection =>
    if s.holder = none then
      (s.threadAt connection .acquiring).map fun _ ↦
        ((s.take (.client connection)).setThread connection ⟨true, .reading⟩).reply connection
          (.acquired true)
    else none
  | .locked connection =>
    (s.threadAt connection .reading).map fun _ ↦ s.reply connection (.locked (s.holder ≠ none))
  | .release connection => (s.threadAt connection .reading).map (s.dealRelease connection)
  | .free connection => (s.threadAt connection .releasing).map (s.dealFree connection)
  | .disconnect connection => (s.threadAt connection .reading).map (s.dealDisconnect connection)
  | .closeTest connection => (s.threadAt connection .closing).map (s.dealCloseTest connection)
  | .closeFree connection =>
    (s.threadAt connection .closingFree).map fun _ ↦ s.dealCloseFree connection
  | .serverAcquire => if s.holder = none then some (s.take .server) else none
  | .serverRelease =>
    if s.holder = none then some (s.ended .server none)
    else some { s with serverReleases := s.serverReleases + 1 }
  | .serverFree =>
    if s.serverReleases = 0 then none
    else some { s.ended .server none with serverReleases := s.serverReleases - 1 }

/-- A connection does not ask for the lock while it holds it, and the release of the lock by a
message or by the server process is made by the one who holds it, or finds it free. -/
def Admitted (s : SharedLock) : SharedLockAct → Prop
  | .acquire connection _ => s.holder ≠ some (.client connection)
  | .free connection => s.holder = none ∨ s.holder = some (.client connection)
  | .serverFree => s.holder = none ∨ s.holder = some .server
  | _ => True

instance (s : SharedLock) : (a : SharedLockAct) → Decidable (s.Admitted a)
  | .acquire connection _ => inferInstanceAs (Decidable (s.holder ≠ some (.client connection)))
  | .free connection =>
    inferInstanceAs (Decidable (s.holder = none ∨ s.holder = some (.client connection)))
  | .serverFree => inferInstanceAs (Decidable (s.holder = none ∨ s.holder = some .server))
  | .connect _ => .isTrue trivial
  | .wake _ => .isTrue trivial
  | .locked _ => .isTrue trivial
  | .release _ => .isTrue trivial
  | .disconnect _ => .isTrue trivial
  | .closeTest _ => .isTrue trivial
  | .closeFree _ => .isTrue trivial
  | .serverAcquire => .isTrue trivial
  | .serverRelease => .isTrue trivial

/-- The lock is held by the one party whose latest event is an acquire, `lock_acquired` is set for
its connection only, and a connection that is being closed has it set. -/
structure Owned (s : SharedLock) : Prop where
  latest : ∀ party, latestEvent s.history party = some .acquired ↔ s.holder = some party
  flag : ∀ connection thread, (connection, thread) ∈ s.threads.items →
    (thread.lockAcquired = true ↔ s.holder = some (.client connection))
  served : ∀ connection, s.holder = some (.client connection) → connection ∈ s.threads
  closing : ∀ connection thread, (connection, thread) ∈ s.threads.items →
    thread.phase = .closing ∨ thread.phase = .closingFree → thread.lockAcquired = true
  disconnects : ∀ d ∈ s.disconnects, d.freed = true ↔ d.holder = some (.client d.connection)

theorem owned_init : Owned init where
  latest _ := by simp [init, latestEvent]
  flag _ _ h := absurd h List.not_mem_nil
  served _ h := by contradiction
  closing _ _ h := absurd h List.not_mem_nil
  disconnects _ h := absurd h List.not_mem_nil

variable {s t : SharedLock} {connection : Nat} {thread : DealThread} {phase : DealPhase}

theorem threadAt_eq_some (h : s.threadAt connection phase = some thread) :
    (connection, thread) ∈ s.threads.items ∧ thread.phase = phase := by
  rcases Option.filter_eq_some_iff.mp h with ⟨found, eq⟩
  exact ⟨Dict.get?_eq_some_iff.mp found, of_decide_eq_true eq⟩

theorem Owned.reply (h : Owned s) (answer : SharedLockReply) : Owned (s.reply connection answer) :=
  ⟨h.latest, h.flag, h.served, h.closing, h.disconnects⟩

/-- A thread moves on with its `lock_acquired` as it was. -/
theorem Owned.setPhase (h : Owned s) (phase : DealPhase)
    (mem : (connection, thread) ∈ s.threads.items)
    (closes : phase = .closing ∨ phase = .closingFree → thread.lockAcquired = true) :
    Owned (s.setThread connection { thread with phase := phase }) where
  latest := h.latest
  flag c t ht := by
    rcases Dict.mem_items_insert.mp ht with ⟨rfl, rfl⟩ | ⟨-, old⟩
    · exact h.flag c thread mem
    · exact h.flag c t old
  served c hc := Dict.mem_insert.mpr (Or.inr (h.served c hc))
  closing c t ht := by
    rcases Dict.mem_items_insert.mp ht with ⟨rfl, rfl⟩ | ⟨-, old⟩
    · exact closes
    · exact h.closing c t old
  disconnects := h.disconnects

/-- A new connection is served; it does not hold the lock. -/
theorem Owned.connect (h : Owned s) (new : connection ∉ s.threads) :
    Owned (s.setThread connection ⟨false, .reading⟩) where
  latest := h.latest
  flag c t ht := by
    rcases Dict.mem_items_insert.mp ht with ⟨rfl, rfl⟩ | ⟨-, old⟩
    · exact iff_of_false Bool.false_ne_true fun held ↦ new (h.served c held)
    · exact h.flag c t old
  served c hc := Dict.mem_insert.mpr (Or.inr (h.served c hc))
  closing c t ht := by
    rcases Dict.mem_items_insert.mp ht with ⟨rfl, rfl⟩ | ⟨-, old⟩
    · intro phase
      rcases phase with eq | eq
      · contradiction
      · contradiction
    · exact h.closing c t old
  disconnects := h.disconnects

/-- A party that takes the free lock is the only one whose latest event is an acquire. -/
theorem Owned.latest_take (h : Owned s) (free : s.holder = none) (party other : SharedLockParty) :
    latestEvent (s.take party).history other = some .acquired ↔
      (s.take party).holder = some other := by
  have none_latest : latestEvent s.history other ≠ some .acquired := by
    rw [Ne, h.latest, free]
    exact nofun
  simp only [take, latestEvent_concat, Option.some.injEq]
  split
  · next eq => exact iff_of_true rfl eq
  · next ne => exact iff_of_false none_latest ne

/-- After a release by the holder, or while the lock is free, nobody's latest event is an
acquire. -/
theorem Owned.latest_ended (h : Owned s) {party : SharedLockParty}
    (own : s.holder = none ∨ s.holder = some party) (event : SharedLockEvent)
    (event_ne : event ≠ .acquired) (other : SharedLockParty) :
    latestEvent (s.history ++ [(party, event)]) other ≠ some .acquired := by
  rw [latestEvent_concat]
  split
  · exact fun eq ↦ event_ne (Option.some.inj eq)
  · next ne =>
    rw [Ne, h.latest]
    rcases own with free | held
    · rw [free]
      exact nofun
    · rw [held]
      exact fun eq ↦ ne (Option.some.inj eq)

/-- A client takes the free lock. -/
theorem Owned.takeClient (h : Owned s) (free : s.holder = none)
    (mem : (connection, thread) ∈ s.threads.items) :
    Owned ((s.take (.client connection)).setThread connection ⟨true, .reading⟩) where
  latest := h.latest_take free (.client connection)
  flag c t ht := by
    rcases Dict.mem_items_insert.mp ht with ⟨rfl, rfl⟩ | ⟨ne, old⟩
    · exact iff_of_true rfl rfl
    · apply iff_of_false
      · rw [h.flag c t old, free]
        exact nofun
      · intro eq
        injection eq with eq
        injection eq with eq
        exact ne eq.symm
  served c eq := by
    injection eq with eq
    injection eq with eq
    exact Dict.mem_insert.mpr (Or.inl eq.symm)
  closing c t ht := by
    rcases Dict.mem_items_insert.mp ht with ⟨rfl, rfl⟩ | ⟨-, old⟩
    · exact fun _ ↦ rfl
    · exact h.closing c t old
  disconnects := h.disconnects

/-- The server process takes the free lock. -/
theorem Owned.takeServer (h : Owned s) (free : s.holder = none) : Owned (s.take .server) where
  latest := h.latest_take free .server
  flag c t ht := by
    apply iff_of_false
    · rw [h.flag c t ht, free]
      exact nofun
    · exact nofun
  served _ eq := nomatch eq
  closing := h.closing
  disconnects := h.disconnects

/-- A client's `release` ends: it held the lock or found it free. -/
theorem Owned.endedClient (h : Owned s)
    (own : s.holder = none ∨ s.holder = some (.client connection)) :
    Owned ((s.ended (.client connection) none).setThread connection ⟨false, .reading⟩) where
  latest other := iff_of_false (h.latest_ended own .released nofun other) nofun
  flag c t ht := by
    apply iff_of_false _ nofun
    rcases Dict.mem_items_insert.mp ht with ⟨-, rfl⟩ | ⟨ne, old⟩
    · exact Bool.false_ne_true
    · rw [h.flag c t old]
      rcases own with free | held
      · rw [free]
        exact nofun
      · rw [held]
        intro eq
        injection eq with eq
        injection eq with eq
        exact ne eq.symm
  served c eq := by contradiction
  closing c t ht := by
    rcases Dict.mem_items_insert.mp ht with ⟨-, rfl⟩ | ⟨-, old⟩
    · intro phase
      rcases phase with eq | eq
      · contradiction
      · contradiction
    · exact h.closing c t old
  disconnects := h.disconnects

/-- The same for a call of the server process. -/
theorem Owned.endedServer (h : Owned s) (own : s.holder = none ∨ s.holder = some .server) :
    Owned (s.ended .server none) where
  latest other := iff_of_false (h.latest_ended own .released nofun other) nofun
  flag c t ht := by
    apply iff_of_false _ nofun
    rw [h.flag c t ht]
    rcases own with free | held
    · rw [free]
      exact nofun
    · rw [held]
      exact nofun
  served _ eq := nomatch eq
  closing := h.closing
  disconnects := h.disconnects

/-- A connection ends; its thread frees the lock if it is the holder and only then. -/
theorem Owned.close (h : Owned s) {freed : Bool}
    (own : freed = true ↔ s.holder = some (.client connection)) :
    Owned (s.close connection freed) where
  latest other := by
    cases freed with
    | true =>
      have held := own.mp rfl
      exact iff_of_false (h.latest_ended (Or.inr held) .disconnected nofun other) nofun
    | false =>
      have not_held : s.holder ≠ some (.client connection) := fun held ↦ by
        cases own.mpr held
      simp only [SharedLock.close, Bool.false_eq_true, ↓reduceIte, latestEvent_concat]
      split
      · next eq =>
        subst eq
        exact iff_of_false nofun not_held
      · exact h.latest other
  flag c t ht := by
    rcases Dict.mem_items_erase.mp ht with ⟨old, ne⟩
    rw [h.flag c t old]
    cases freed with
    | true =>
      apply iff_of_false _ nofun
      rw [own.mp rfl]
      intro eq
      injection eq with eq
      injection eq with eq
      exact ne eq.symm
    | false => exact Iff.rfl
  served c hc := by
    cases freed with
    | true => contradiction
    | false =>
      apply Dict.mem_erase.mpr
      refine ⟨h.served c hc, ?_⟩
      rintro rfl
      cases own.mpr hc
  closing c t ht := h.closing c t (Dict.mem_items_erase.mp ht).1
  disconnects d hd := by
    rcases List.mem_append.mp hd with old | new
    · exact h.disconnects d old
    · cases List.mem_singleton.mp new
      exact own

/-- Every admitted step keeps the lock with its owner. -/
theorem step_owned {a : SharedLockAct} (h : Owned s) (admitted : s.Admitted a)
    (taken : s.step a = some t) : Owned t := by
  cases a with
  | connect c =>
    rw [step, Option.ite_none_left_eq_some, Option.some.injEq] at taken
    rcases taken with ⟨new, rfl⟩
    exact h.connect new
  | acquire c blocking =>
    rcases Option.map_eq_some_iff.mp taken with ⟨thread, found, rfl⟩
    rcases threadAt_eq_some found with ⟨mem, reading⟩
    unfold dealAcquire
    split
    · next free => exact (h.takeClient free mem).reply _
    · split
      · exact h.setPhase .acquiring mem nofun
      · have flag : thread.lockAcquired = false := by
          rw [← Bool.not_eq_true, h.flag c thread mem]
          exact admitted
        rw [← flag]
        exact (h.setPhase .reading mem nofun).reply _
  | wake c =>
    simp only [step] at taken
    split at taken
    · next free =>
      rcases Option.map_eq_some_iff.mp taken with ⟨thread, found, rfl⟩
      exact (h.takeClient free (threadAt_eq_some found).1).reply _
    · cases taken
  | locked c =>
    rcases Option.map_eq_some_iff.mp taken with ⟨thread, -, rfl⟩
    exact h.reply _
  | release c =>
    rcases Option.map_eq_some_iff.mp taken with ⟨thread, found, rfl⟩
    unfold dealRelease
    split
    · next free => exact (h.endedClient (Or.inl free)).reply _
    · exact h.setPhase .releasing (threadAt_eq_some found).1 nofun
  | free c =>
    rcases Option.map_eq_some_iff.mp taken with ⟨thread, found, rfl⟩
    unfold dealFree
    split
    · next free =>
      have flag : thread.lockAcquired = false := by
        rw [← Bool.not_eq_true, h.flag c thread (threadAt_eq_some found).1, free]
        exact nofun
      rw [flag]
      exact (h.endedClient admitted).reply _
    · exact (h.endedClient admitted).reply _
  | disconnect c =>
    rcases Option.map_eq_some_iff.mp taken with ⟨thread, found, rfl⟩
    rcases threadAt_eq_some found with ⟨mem, -⟩
    unfold dealDisconnect
    split
    · next flag => exact h.setPhase .closing mem fun _ ↦ flag
    · next flag =>
      apply h.close
      rw [← h.flag c thread mem]
      exact iff_of_false Bool.false_ne_true flag
  | closeTest c =>
    rcases Option.map_eq_some_iff.mp taken with ⟨thread, found, rfl⟩
    rcases threadAt_eq_some found with ⟨mem, closing⟩
    have flag := h.closing c thread mem (Or.inl closing)
    unfold dealCloseTest
    split
    · next free =>
      rw [h.flag c thread mem, free] at flag
      cases flag
    · exact h.setPhase .closingFree mem fun _ ↦ flag
  | closeFree c =>
    rcases Option.map_eq_some_iff.mp taken with ⟨thread, found, rfl⟩
    rcases threadAt_eq_some found with ⟨mem, closing⟩
    have held := (h.flag c thread mem).mp (h.closing c thread mem (Or.inr closing))
    apply h.close
    rw [held]
    simp
  | serverAcquire =>
    rw [step, Option.ite_none_right_eq_some, Option.some.injEq] at taken
    rcases taken with ⟨free, rfl⟩
    exact h.takeServer free
  | serverRelease =>
    simp only [step] at taken
    split at taken
    · next free =>
      cases taken
      exact h.endedServer (Or.inl free)
    · cases taken
      exact ⟨h.latest, h.flag, h.served, h.closing, h.disconnects⟩
  | serverFree =>
    rw [step, Option.ite_none_left_eq_some, Option.some.injEq] at taken
    rcases taken with ⟨-, rfl⟩
    have freed := h.endedServer admitted
    exact ⟨freed.latest, freed.flag, freed.served, freed.closing, freed.disconnects⟩

/-- Over every run in which no connection asks for a lock it holds and every release is made by the
holder or finds the lock free: the lock is held exactly while some party's latest event is an
acquire, and a connection that ends frees the lock exactly if it is the holder. -/
theorem lock_owned {acts : List SharedLockAct} (run : Run step Admitted init acts s) :
    (s.holder ≠ none ↔ ∃ party, latestEvent s.history party = some .acquired) ∧
      ∀ d ∈ s.disconnects, d.freed = true ↔ d.holder = some (.client d.connection) := by
  have h : Owned s := by
    apply run.invariant (P := Owned) owned_init
    intro t u a h admitted taken
    exact step_owned h admitted taken
  refine ⟨?_, h.disconnects⟩
  constructor
  · intro held
    rcases Option.ne_none_iff_exists'.mp held with ⟨party, eq⟩
    exact ⟨party, (h.latest party).mpr eq⟩
  · rintro ⟨party, latest⟩
    rw [(h.latest party).mp latest]
    exact nofun

/-- Client 0 takes the lock, client 1 and the server process wait for it in turn, each after the one
before has released it or gone away. -/
theorem lock_owned_in_turn :
    ∃ acts s, Run step Admitted init acts s ∧ s.holder = some .server ∧
      (s.holder ≠ none ↔ ∃ party, latestEvent s.history party = some .acquired) ∧
      s.disconnects = [⟨0, some (.client 0), true⟩, ⟨1, none, false⟩] ∧
      ∀ d ∈ s.disconnects, d.freed = true ↔ d.holder = some (.client d.connection) := by
  have eval : (([.connect 0, .connect 1, .acquire 0 false, .acquire 1 false, .acquire 1 true,
      .disconnect 0, .closeTest 0, .closeFree 0, .wake 1, .locked 1, .release 1, .free 1,
      .disconnect 1, .serverAcquire] : List SharedLockAct).foldlM
      (fun s a ↦ if Admitted s a then step s a else none) init).map (fun s ↦ decide (
        s.holder = some .server ∧
        s.disconnects = [⟨0, some (.client 0), true⟩, ⟨1, none, false⟩])) = some true := by
    decide +kernel
  rcases Option.map_eq_some_iff.mp eval with ⟨s, hs, holds⟩
  rcases of_decide_eq_true holds with ⟨held, ends⟩
  have run := run_of_guarded hs
  rcases lock_owned run with ⟨owned, freed⟩
  exact ⟨_, s, run, held, owned, ends, freed⟩

/-- A failed second attempt clears `lock_acquired` of the holder: when its connection ends the lock
stays locked, with no acquire outstanding. -/
theorem lock_orphaned :
    ∃ acts s, Run step anyStep init acts s ∧ s.holder ≠ none ∧
      (¬ ∃ party, latestEvent s.history party = some .acquired) ∧
      ⟨0, some (.client 0), false⟩ ∈ s.disconnects := by
  have eval : (([.connect 0, .acquire 0 true, .acquire 0 false, .disconnect 0] :
      List SharedLockAct).foldlM step init).map (fun s ↦ decide (
        s.holder ≠ none ∧ (∀ e ∈ s.history, latestEvent s.history e.1 ≠ some .acquired) ∧
        ⟨0, some (.client 0), false⟩ ∈ s.disconnects)) = some true := by
    decide +kernel
  rcases Option.map_eq_some_iff.mp eval with ⟨s, hs, holds⟩
  rcases of_decide_eq_true holds with ⟨held, outstanding, ended⟩
  refine ⟨_, s, run_of_foldlM hs, held, ?_, ended⟩
  rintro ⟨party, latest⟩
  rcases mem_of_latestEvent latest with ⟨e, mem, rfl⟩
  exact outstanding e mem latest

end SharedLock

end ProbingBaselines.Dlrover
