import Mathlib.Data.List.Basic
import ProbingBaselines.Lib.Dict
import ProbingBaselines.Lib.Run

/-!
# The shared dict and its notification queue

A client that sets the dict puts a notification into a queue of the server process and then sends
the new dict; a `get` of the server process waits until the queue is empty. One thread of the server
process, `_deal_shared_dict_msg`, handles the messages of all clients in turn and, after each of
them, takes a notification from the queue if there is one.
-/

namespace ProbingBaselines.Dlrover

open Lib

universe u

/-- Where the client's `set` stands (`multi_process.py:624-637`): before the notification is in the
queue, with its message on the way, with its message taken by the server. -/
inductive DictSetPhase (δ : Type u) where
  | idle
  | notifying (newDict : δ)
  | requesting (newDict : δ)
  | serving
deriving DecidableEq

/-- A `get` of the server process (`multi_process.py:652-655`): in the loop that waits for the queue
to be empty, or past it. `start` is the number of dicts announced before it started. -/
inductive DictGetPhase where
  | waiting (start : Nat)
  | reading (start : Nat)

/-- The message a run of `_deal_shared_dict_msg` answers; a `get` with what it has read. -/
inductive DictMessage (δ : Type u) where
  | set
  | get (client : Nat) (metaDict : δ)

/-- Where the thread of the server stands (`multi_process.py:599-615`): it waits for a connection,
is inside the `get` of a message, before the test of the queue in the `finally`, or before
`self._shared_queue.get(1)`. -/
inductive DictThread (δ : Type u) where
  | idle
  | getting (client : Nat) (phase : DictGetPhase)
  | finishing (message : DictMessage δ)
  | consuming (message : DictMessage δ)

/-- What a `get` of the server process returned: the number of dicts announced when it started, the
number of the dict and the dict itself. -/
structure DictGetResult (δ : Type u) where
  start : Nat
  version : Nat
  dict : δ
deriving DecidableEq

/-- The server process with the client that sets the dict and those that read it. `version` numbers
the dicts the server has held, `announced` lists those whose notification was put into the queue;
both record the run, as do `returned` and `answers`. -/
structure SharedDict (δ : Type u) where
  dict : δ
  version : Nat
  queue : Nat
  setter : DictSetPhase δ
  requests : List Nat
  thread : DictThread δ
  getters : Dict Nat DictGetPhase
  announced : List δ
  returned : List (DictGetResult δ)
  answers : List (Nat × δ)

inductive SharedDictAct (δ : Type u) where
  | set (newDict : δ)
  | put
  | dealSet
  | request (client : Nat)
  | dealGet (client : Nat)
  | threadTest
  | threadRead
  | finish
  | consume
  | get (getter : Nat)
  | getTest (getter : Nat)
  | getRead (getter : Nat)

namespace SharedDict

variable {δ : Type u}

def init (dict : δ) : SharedDict δ :=
  ⟨dict, 0, 0, .idle, [], .idle, .empty, [], [], []⟩

/-- The dicts the server has held or is about to hold, by their numbers. -/
def versions (initial : δ) (s : SharedDict δ) : List δ := initial :: s.announced

/-- The end of `_deal_shared_dict_msg`: the response is sent and the client goes on. -/
def respond (s : SharedDict δ) : DictMessage δ → SharedDict δ
  | .set => { s with thread := .idle, setter := .idle }
  | .get client metaDict =>
    { s with thread := .idle, answers := s.answers ++ [(client, metaDict)] }

/-- `return self._dict`. -/
def result (s : SharedDict δ) (start : Nat) : DictGetResult δ := ⟨start, s.version, s.dict⟩

def step (s : SharedDict δ) : SharedDictAct δ → Option (SharedDict δ)
  | .set newDict =>
    match s.setter with
    | .idle => some { s with setter := .notifying newDict }
    | _ => none
  | .put =>
    match s.setter with
    | .notifying newDict =>
      -- the queue has `maxsize=1`, and `put` waits while it is full
      if s.queue < 1 then
        some { s with
          queue := s.queue + 1
          announced := s.announced ++ [newDict]
          setter := .requesting newDict }
      else none
    | _ => none
  | .dealSet =>
    match s.thread, s.setter with
    | .idle, .requesting newDict =>
      some { s with
        dict := newDict
        version := s.version + 1
        setter := .serving
        thread := .finishing .set }
    | _, _ => none
  | .request client => some { s with requests := s.requests ++ [client] }
  | .dealGet client =>
    match s.thread with
    | .idle =>
      if client ∈ s.requests then
        some { s with
          requests := s.requests.erase client
          thread := .getting client (.waiting s.announced.length) }
      else none
    | _ => none
  | .threadTest =>
    match s.thread with
    | .getting client (.waiting start) =>
      if s.queue = 0 then some { s with thread := .getting client (.reading start) } else some s
    | _ => none
  | .threadRead =>
    match s.thread with
    | .getting client (.reading start) =>
      some { s with
        thread := .finishing (.get client s.dict)
        returned := s.returned ++ [s.result start] }
    | _ => none
  | .finish =>
    match s.thread with
    | .finishing message =>
      if s.queue = 0 then some (s.respond message)
      else some { s with thread := .consuming message }
    | _ => none
  | .consume =>
    match s.thread with
    | .consuming message =>
      if s.queue = 0 then none else some ({ s with queue := s.queue - 1 }.respond message)
    | _ => none
  | .get getter =>
    if getter ∈ s.getters then none
    else some { s with getters := s.getters.insert getter (.waiting s.announced.length) }
  | .getTest getter =>
    match s.getters.get? getter with
    | some (.waiting start) =>
      if s.queue = 0 then some { s with getters := s.getters.insert getter (.reading start) }
      else some s
    | _ => none
  | .getRead getter =>
    match s.getters.get? getter with
    | some (.reading start) =>
      some { s with
        getters := s.getters.erase getter
        returned := s.returned ++ [s.result start] }
    | _ => none

/-- The thread handles a `get` whose wait for the queue is over, and has not tested the queue in its
`finally` yet. -/
def PastWait (s : SharedDict δ) : Prop :=
  match s.thread with
  | .getting _ (.reading _) => True
  | .finishing (.get _ _) => True
  | _ => False

instance (s : SharedDict δ) : Decidable s.PastWait := by
  unfold PastWait
  split <;> infer_instance

/-- A notification is put into the queue at no moment at which the `finally` of a `get` message
would take it. -/
def Admitted (s : SharedDict δ) : SharedDictAct δ → Prop
  | .put => ¬ s.PastWait
  | _ => True

instance (s : SharedDict δ) : (a : SharedDictAct δ) → Decidable (s.Admitted a)
  | .put => inferInstanceAs (Decidable (¬ s.PastWait))
  | .set _ => .isTrue trivial
  | .dealSet => .isTrue trivial
  | .request _ => .isTrue trivial
  | .dealGet _ => .isTrue trivial
  | .threadTest => .isTrue trivial
  | .threadRead => .isTrue trivial
  | .finish => .isTrue trivial
  | .consume => .isTrue trivial
  | .get _ => .isTrue trivial
  | .getTest _ => .isTrue trivial
  | .getRead _ => .isTrue trivial

/-- How far the client's `set` is, with what this says about the queue, the dict and the thread of
the server: while no dict is announced and not yet held the queue is empty, and from the
notification on the thread can at most be waiting in a `get`, until it takes the message. -/
inductive Stage (s : SharedDict δ) : Prop where
  | quiet (setter : s.setter = .idle ∨ ∃ d, s.setter = .notifying d) (queue : s.queue = 0)
      (version : s.version = s.announced.length)
      (thread : s.thread = .idle ∨ (∃ c phase, s.thread = .getting c phase) ∨
        ∃ c d, s.thread = .finishing (.get c d))
  | announced (newDict : δ) (setter : s.setter = .requesting newDict) (queue : s.queue = 1)
      (version : s.version + 1 = s.announced.length) (last : s.announced.getLast? = some newDict)
      (thread : s.thread = .idle ∨ ∃ c start, s.thread = .getting c (.waiting start))
  | served (setter : s.setter = .serving) (queue : s.queue = 1)
      (version : s.version = s.announced.length)
      (thread : s.thread = .finishing .set ∨ s.thread = .consuming .set)

/-- What a `get` under way has to do with the dict: past its wait, the server holds a dict at least
as new as the last one announced when it started. -/
def Fresh (s : SharedDict δ) : DictGetPhase → Prop
  | .waiting start => start ≤ s.announced.length
  | .reading start => start ≤ s.version

/-- The invariant of the shared dict. -/
structure Synced (initial : δ) (s : SharedDict δ) : Prop where
  stage : s.Stage
  current : (versions initial s)[s.version]? = some s.dict
  thread : ∀ c phase, s.thread = .getting c phase → s.Fresh phase
  getter : ∀ g phase, (g, phase) ∈ s.getters.items → s.Fresh phase
  returned : ∀ r ∈ s.returned, r.start ≤ r.version ∧ (versions initial s)[r.version]? = some r.dict

theorem synced_init (initial : δ) : Synced initial (init initial) where
  stage := .quiet (Or.inl rfl) rfl rfl (Or.inl rfl)
  current := rfl
  thread _ _ h := nomatch h
  getter _ _ h := absurd h List.not_mem_nil
  returned _ h := absurd h List.not_mem_nil

variable {initial : δ} {s t : SharedDict δ}

theorem Fresh.mono {phase : DictGetPhase} (h : s.Fresh phase)
    (version : s.version ≤ t.version) (announced : s.announced.length ≤ t.announced.length) :
    t.Fresh phase := by
  cases phase with
  | waiting start => exact Nat.le_trans h announced
  | reading start => exact Nat.le_trans h version

/-- The stage is about the client's `set`, the queue, the dict and the thread. -/
theorem Stage.frame (h : s.Stage) (setter : t.setter = s.setter) (queue : t.queue = s.queue)
    (version : t.version = s.version) (announced : t.announced = s.announced)
    (thread : t.thread = s.thread) : t.Stage := by
  cases h with
  | quiet hs hq hv ht =>
    exact .quiet (setter ▸ hs) (queue ▸ hq) (by rw [version, announced, hv]) (thread ▸ ht)
  | announced d hs hq hv hl ht =>
    exact .announced d (setter ▸ hs) (queue ▸ hq) (by rw [version, announced, hv])
      (announced ▸ hl) (thread ▸ ht)
  | served hs hq hv ht =>
    exact .served (setter ▸ hs) (queue ▸ hq) (by rw [version, announced, hv]) (thread ▸ ht)

/-- While the queue is empty the server holds the dict announced last. -/
theorem Stage.version_of_empty (h : s.Stage) (queue : s.queue = 0) :
    s.version = s.announced.length := by
  cases h with
  | quiet _ _ version _ => exact version
  | announced _ _ full _ _ _ => omega
  | served _ full _ _ => omega

/-- A `get` whose wait is over reads a dict at least as new as the one announced last. -/
theorem Synced.pastWait (h : Synced initial s) (queue : s.queue = 0) {start : Nat}
    (fresh : s.Fresh (.waiting start)) : s.Fresh (.reading start) := by
  have version := h.stage.version_of_empty queue
  show start ≤ s.version
  rw [version]
  exact fresh

/-- What a fresh `get` returns. -/
theorem Synced.result (h : Synced initial s) {start : Nat}
    (fresh : s.Fresh (.reading start)) :
    ∀ r ∈ s.returned ++ [s.result start],
      r.start ≤ r.version ∧ (versions initial s)[r.version]? = some r.dict := by
  intro r hr
  rcases List.mem_append.mp hr with old | new
  · exact h.returned r old
  · cases List.mem_singleton.mp new
    exact ⟨fresh, h.current⟩

theorem Synced.set (h : Synced initial s) (idle : s.setter = .idle) (newDict : δ) :
    Synced initial { s with setter := .notifying newDict } := by
  refine ⟨?_, h.current, h.thread, h.getter, h.returned⟩
  cases h.stage with
  | quiet _ queue version thread => exact .quiet (Or.inr ⟨newDict, rfl⟩) queue version thread
  | announced _ setter _ _ _ _ =>
    rw [idle] at setter
    cases setter
  | served setter _ _ _ =>
    rw [idle] at setter
    cases setter

/-- The notification is put into the queue. -/
theorem Synced.put (h : Synced initial s) {newDict : δ} (notifying : s.setter = .notifying newDict)
    (admitted : ¬ s.PastWait) :
    Synced initial { s with
      queue := s.queue + 1
      announced := s.announced ++ [newDict]
      setter := .requesting newDict } := by
  have kept : ∀ {i : Nat} {d : δ}, (versions initial s)[i]? = some d →
      (initial :: (s.announced ++ [newDict]))[i]? = some d := by
    intro i d found
    rw [← List.cons_append]
    exact (List.getElem?_append_left (List.getElem?_eq_some_iff.mp found).1).trans found
  have fresh : ∀ {phase : DictGetPhase}, s.Fresh phase → Fresh { s with
      queue := s.queue + 1
      announced := s.announced ++ [newDict]
      setter := .requesting newDict } phase := by
    intro phase old
    refine old.mono ?_ ?_
    · exact Nat.le_refl _
    · rw [List.length_append]
      exact Nat.le_add_right _ _
  refine ⟨?_, kept h.current, fun c phase eq ↦ fresh (h.thread c phase eq),
    fun g phase mem ↦ fresh (h.getter g phase mem),
    fun r mem ↦ ⟨(h.returned r mem).1, kept (h.returned r mem).2⟩⟩
  cases h.stage with
  | quiet _ queue version thread =>
    refine .announced newDict rfl ?_ ?_ List.getLast?_concat ?_
    · exact congrArg (· + 1) queue
    · rw [List.length_append, List.length_singleton]
      exact congrArg (· + 1) version
    · unfold PastWait at admitted
      rcases thread with idle | ⟨c, phase, getting⟩ | ⟨c, d, finishing⟩
      · exact Or.inl idle
      · cases phase with
        | waiting start => exact Or.inr ⟨c, start, getting⟩
        | reading start => exact absurd trivial (by simpa only [getting] using admitted)
      · exact absurd trivial (by simpa only [finishing] using admitted)
  | announced _ setter _ _ _ _ =>
    rw [notifying] at setter
    cases setter
  | served setter _ _ _ =>
    rw [notifying] at setter
    cases setter

/-- The server takes the message of the `set`. -/
theorem Synced.dealSet (h : Synced initial s) {newDict : δ}
    (requesting : s.setter = .requesting newDict) :
    Synced initial { s with
      dict := newDict
      version := s.version + 1
      setter := .serving
      thread := .finishing .set } := by
  cases h.stage with
  | quiet setter _ _ _ =>
    rw [requesting] at setter
    rcases setter with eq | ⟨d, eq⟩
    · cases eq
    · cases eq
  | announced d setter queue version last thread =>
    rw [requesting] at setter
    cases setter
    refine ⟨.served rfl queue version (Or.inl rfl), ?_, nofun, ?_, h.returned⟩
    · rw [List.getLast?_eq_getElem?] at last
      have index : s.announced.length - 1 = s.version := by omega
      rw [index] at last
      exact last
    · intro g phase mem
      exact (h.getter g phase mem).mono (Nat.le_succ _) (Nat.le_refl _)
  | served setter _ _ _ =>
    rw [requesting] at setter
    cases setter

/-- The server takes a `get` message. -/
theorem Synced.dealGet (h : Synced initial s) (idle : s.thread = .idle) (client : Nat)
    (requests : List Nat) :
    Synced initial { s with
      requests := requests
      thread := .getting client (.waiting s.announced.length) } := by
  refine ⟨?_, h.current, ?_, h.getter, h.returned⟩
  · cases h.stage with
    | quiet setter queue version _ =>
      exact .quiet setter queue version (Or.inr (Or.inl ⟨client, _, rfl⟩))
    | announced d setter queue version last _ =>
      exact .announced d setter queue version last (Or.inr ⟨client, _, rfl⟩)
    | served _ _ _ thread =>
      rw [idle] at thread
      rcases thread with eq | eq
      · cases eq
      · cases eq
  · intro c phase eq
    cases eq
    exact Nat.le_refl _

/-- The `get` of a message finds the queue empty. -/
theorem Synced.threadTest (h : Synced initial s) {client start : Nat}
    (waiting : s.thread = .getting client (.waiting start)) (queue : s.queue = 0) :
    Synced initial { s with thread := .getting client (.reading start) } := by
  refine ⟨?_, h.current, ?_, h.getter, h.returned⟩
  · cases h.stage with
    | quiet setter queue version _ =>
      exact .quiet setter queue version (Or.inr (Or.inl ⟨client, _, rfl⟩))
    | announced _ _ full _ _ _ => omega
    | served _ full _ _ => omega
  · intro c phase eq
    cases eq
    exact h.pastWait queue (h.thread client (.waiting start) waiting)

/-- The `get` of a message reads the dict. -/
theorem Synced.threadRead (h : Synced initial s) {client start : Nat}
    (reading : s.thread = .getting client (.reading start)) :
    Synced initial { s with
      thread := .finishing (.get client s.dict)
      returned := s.returned ++ [s.result start] } := by
  refine ⟨?_, h.current, nofun, h.getter, h.result (h.thread client (.reading start) reading)⟩
  cases h.stage with
  | quiet setter queue version _ =>
    exact .quiet setter queue version (Or.inr (Or.inr ⟨client, s.dict, rfl⟩))
  | announced _ _ _ _ _ thread =>
    rw [reading] at thread
    rcases thread with eq | ⟨_, _, eq⟩
    · cases eq
    · cases eq
  | served _ _ _ thread =>
    rw [reading] at thread
    rcases thread with eq | eq
    · cases eq
    · cases eq

/-- The `finally` tests the queue: it is empty after a `get` and full after a `set`. -/
theorem Synced.finish (h : Synced initial s) {message : DictMessage δ}
    (finishing : s.thread = .finishing message) :
    Synced initial
      (if s.queue = 0 then s.respond message else { s with thread := .consuming message }) := by
  cases h.stage with
  | quiet setter queue version thread =>
    rw [finishing] at thread
    rcases thread with eq | ⟨_, _, eq⟩ | ⟨c, d, eq⟩
    · cases eq
    · cases eq
    · cases eq
      rw [if_pos queue]
      exact ⟨.quiet setter queue version (Or.inl rfl), h.current, nofun, h.getter, h.returned⟩
  | announced _ _ _ _ _ thread =>
    rw [finishing] at thread
    rcases thread with eq | ⟨_, _, eq⟩
    · cases eq
    · cases eq
  | served setter queue version thread =>
    rw [finishing] at thread
    rcases thread with eq | eq
    · cases eq
      rw [if_neg (by omega)]
      exact ⟨.served setter queue version (Or.inr rfl), h.current, nofun, h.getter, h.returned⟩
    · cases eq

/-- The notification is taken from the queue: it is that of the `set` just handled. -/
theorem Synced.consume (h : Synced initial s) {message : DictMessage δ}
    (consuming : s.thread = .consuming message) :
    Synced initial ({ s with queue := s.queue - 1 }.respond message) := by
  cases h.stage with
  | quiet _ _ _ thread =>
    rw [consuming] at thread
    rcases thread with eq | ⟨_, _, eq⟩ | ⟨_, _, eq⟩
    · cases eq
    · cases eq
    · cases eq
  | announced _ _ _ _ _ thread =>
    rw [consuming] at thread
    rcases thread with eq | ⟨_, _, eq⟩
    · cases eq
    · cases eq
  | served _ queue version thread =>
    rw [consuming] at thread
    rcases thread with eq | eq
    · cases eq
    · cases eq
      have empty : s.queue - 1 = 0 := by omega
      exact ⟨.quiet (Or.inl rfl) empty version (Or.inl rfl), h.current, nofun, h.getter,
        h.returned⟩

/-- A step of a `get` of the server process. -/
theorem Synced.setGetter (h : Synced initial s) {phase : DictGetPhase} (getter : Nat)
    (fresh : s.Fresh phase) :
    Synced initial { s with getters := s.getters.insert getter phase } := by
  refine ⟨h.stage.frame rfl rfl rfl rfl rfl, h.current, h.thread, ?_, h.returned⟩
  intro g p mem
  rcases Dict.mem_items_insert.mp mem with ⟨rfl, rfl⟩ | ⟨-, old⟩
  · exact fresh
  · exact h.getter g p old

/-- A `get` of the server process returns. -/
theorem Synced.getRead (h : Synced initial s) {getter start : Nat}
    (reading : s.getters.get? getter = some (.reading start)) :
    Synced initial { s with
      getters := s.getters.erase getter
      returned := s.returned ++ [s.result start] } := by
  have fresh := h.getter getter (.reading start) (Dict.get?_eq_some_iff.mp reading)
  refine ⟨h.stage.frame rfl rfl rfl rfl rfl, h.current, h.thread, ?_, h.result fresh⟩
  intro g p mem
  exact h.getter g p (Dict.mem_items_erase.mp mem).1

/-- Every admitted step keeps the readers in step with the announced dicts. -/
theorem step_synced {a : SharedDictAct δ} (h : Synced initial s) (admitted : s.Admitted a)
    (taken : s.step a = some t) : Synced initial t := by
  cases a with
  | set newDict =>
    simp only [step] at taken
    split at taken
    · next idle =>
      cases taken
      exact h.set idle newDict
    · cases taken
  | put =>
    simp only [step] at taken
    split at taken
    · next newDict notifying =>
      rw [Option.ite_none_right_eq_some, Option.some.injEq] at taken
      rcases taken with ⟨-, rfl⟩
      exact h.put notifying admitted
    · cases taken
  | dealSet =>
    simp only [step] at taken
    split at taken
    · next newDict _ requesting =>
      cases taken
      exact h.dealSet requesting
    · cases taken
  | request client =>
    cases taken
    exact ⟨h.stage.frame rfl rfl rfl rfl rfl, h.current, h.thread, h.getter, h.returned⟩
  | dealGet client =>
    simp only [step] at taken
    split at taken
    · next idle =>
      rw [Option.ite_none_right_eq_some, Option.some.injEq] at taken
      rcases taken with ⟨-, rfl⟩
      exact h.dealGet idle client _
    · cases taken
  | threadTest =>
    simp only [step] at taken
    split at taken
    · next client start waiting =>
      split at taken
      · next queue =>
        cases taken
        exact h.threadTest waiting queue
      · cases taken
        exact h
    · cases taken
  | threadRead =>
    simp only [step] at taken
    split at taken
    · next client start reading =>
      cases taken
      exact h.threadRead reading
    · cases taken
  | finish =>
    simp only [step] at taken
    split at taken
    · next message finishing =>
      have kept := h.finish finishing
      split at taken
      · next queue =>
        cases taken
        rwa [if_pos queue] at kept
      · next queue =>
        cases taken
        rwa [if_neg queue] at kept
    · cases taken
  | consume =>
    simp only [step] at taken
    split at taken
    · next message consuming =>
      rw [Option.ite_none_left_eq_some, Option.some.injEq] at taken
      rcases taken with ⟨-, rfl⟩
      exact h.consume consuming
    · cases taken
  | get getter =>
    rw [step, Option.ite_none_left_eq_some, Option.some.injEq] at taken
    rcases taken with ⟨-, rfl⟩
    exact h.setGetter getter (Nat.le_refl _)
  | getTest getter =>
    simp only [step] at taken
    split at taken
    · next start waiting =>
      split at taken
      · next queue =>
        cases taken
        exact h.setGetter getter
          (h.pastWait queue (h.getter getter _ (Dict.get?_eq_some_iff.mp waiting)))
      · cases taken
        exact h
    · cases taken
  | getRead getter =>
    simp only [step] at taken
    split at taken
    · next start reading =>
      cases taken
      exact h.getRead reading
    · cases taken

/-- Over every run in which no notification is put while the `finally` of a `get` message would take
it: a `get` of the server process returns the dict announced last before it started or a later one,
and the queue is empty while no `set` is in progress. -/
theorem reader_waits {acts : List (SharedDictAct δ)}
    (run : Run step Admitted (init initial) acts s) :
    (∀ r ∈ s.returned, r.start ≤ r.version ∧ (versions initial s)[r.version]? = some r.dict) ∧
      (s.setter = .idle → s.queue = 0) := by
  have h : Synced initial s := by
    apply run.invariant (P := Synced initial) (synced_init initial)
    intro t u a h admitted taken
    exact step_synced h admitted taken
  refine ⟨h.returned, ?_⟩
  intro idle
  cases h.stage with
  | quiet _ queue _ _ => exact queue
  | announced _ setter _ _ _ _ =>
    rw [idle] at setter
    cases setter
  | served setter _ _ _ =>
    rw [idle] at setter
    cases setter

/-- A client reads the empty dict, another sets it to 5, and the server process, which has started
to read after the notification, waits and reads 5. -/
theorem reader_waits_five :
    ∃ acts s, Run step Admitted (init (0 : Nat)) acts s ∧ s.setter = .idle ∧
      s.returned = [⟨0, 0, 0⟩, ⟨1, 1, 5⟩] ∧
      (∀ r ∈ s.returned, r.start ≤ r.version ∧ (versions 0 s)[r.version]? = some r.dict) ∧
      (s.setter = .idle → s.queue = 0) := by
  have eval : (([.request 0, .dealGet 0, .threadTest, .set 5, .threadRead, .finish, .put, .get 7,
      .getTest 7, .dealSet, .getTest 7, .finish, .consume, .getTest 7, .getRead 7] :
      List (SharedDictAct Nat)).foldlM (fun s a ↦ if Admitted s a then step s a else none)
      (init 0)).map (fun s ↦ decide (s.setter = .idle ∧
        s.returned = [⟨0, 0, 0⟩, ⟨1, 1, 5⟩])) = some true := by
    decide +kernel
  rcases Option.map_eq_some_iff.mp eval with ⟨s, hs, holds⟩
  rcases of_decide_eq_true holds with ⟨idle, returned⟩
  have run := run_of_guarded hs
  rcases reader_waits run with ⟨fresh, empty⟩
  exact ⟨_, s, run, idle, returned, fresh, empty⟩

/-- The `finally` of a `get` message takes the notification of a dict that has not arrived yet: the
server process reads the old dict although it starts after the notification. -/
theorem reader_misled :
    ∃ acts s, Run step anyStep (init (0 : Nat)) acts s ∧ ∃ r ∈ s.returned,
      r.version < r.start ∧ r.dict = 0 ∧ s.announced = [5] := by
  have eval : (([.request 0, .dealGet 0, .threadTest, .threadRead, .set 5, .put, .finish, .consume,
      .get 7, .getTest 7, .getRead 7] : List (SharedDictAct Nat)).foldlM step (init 0)).map
      (fun s ↦ decide (∃ r ∈ s.returned, r.version < r.start ∧ r.dict = 0 ∧
        s.announced = [5])) = some true := by
    decide +kernel
  rcases Option.map_eq_some_iff.mp eval with ⟨s, hs, holds⟩
  exact ⟨_, s, run_of_foldlM hs, of_decide_eq_true holds⟩

end SharedDict

end ProbingBaselines.Dlrover
