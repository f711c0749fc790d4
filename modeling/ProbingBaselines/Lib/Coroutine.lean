import Mathlib.Algebra.GroupWithZero.Nat
import Mathlib.Data.List.Basic
import ProbingBaselines.Lib.Dict
import ProbingBaselines.Lib.Run

/-!
# Cooperative tasks

General support: tasks of an event loop that share a state. A task is a stack of frames, the
innermost first; a frame is a place in a coroutine together with its locals. The running task
executes one frame after the other until a frame awaits or the stack is empty, and nothing else
happens in between. An exception unwinds the stack until a frame handles it, and a task whose
cancellation was requested is resumed with an exception.
-/

namespace ProbingBaselines.Lib

/-- What a frame may know of the loop: its own task, the number of the next one, and which tasks
have not ended. -/
structure TaskContext where
  self : Nat
  fresh : Nat
  live : Nat → Bool

/-- How a frame goes on. -/
inductive Next (φ ε : Type) where
  | goto (f : φ)
  | call (caller callee : φ)
  | await (f : φ)
  | ret
  | throw (e : ε)

/-- What a frame does to other tasks. -/
inductive TaskEffect (φ : Type) where
  | none
  | spawn (f : φ)
  | cancel (t : Nat)

structure Outcome (σ φ ε : Type) where
  data : σ
  next : Next φ ε
  effect : TaskEffect φ := .none

/-- The coroutines of a program. `exec` executes a frame that was reached normally or by an
exception, with the choices `ι` of the environment that `allows` admits. `wakes` tells whether the
environment may resume a frame that awaits. `call` is an atomic call from outside, which may start
a task. -/
structure Coroutines (σ φ ε ι ξ : Type) where
  exec : TaskContext → σ → φ → Option ε → ι → Outcome σ φ ε
  allows : σ → φ → Option ε → ι → Bool
  wakes : TaskContext → σ → φ → Option ε → Bool
  cancelled : ε
  call : ξ → σ → σ × Option φ

/-- The shared state, the stacks of the tasks that have not ended, the tasks whose cancellation was
requested, the number of the next task, and the running task with the exception it is about to
see. -/
structure TaskWorld (σ φ ε : Type) where
  data : σ
  tasks : Dict Nat (List φ)
  cancels : List Nat
  fresh : Nat
  running : Option (Nat × Option ε)

inductive TaskLabel (ε ι ξ : Type) where
  | resume (t : Nat) (sig : Option ε)
  | exec (input : ι)
  | call (x : ξ)

variable {σ φ ε ι ξ : Type}

namespace Next

/-- The frames that take the place of the executed one. -/
def frames : Next φ ε → List φ
  | .goto f | .await f => [f]
  | .call caller callee => [callee, caller]
  | .ret | .throw _ => []

/-- What the task sees next, if it goes on. -/
def signal : Next φ ε → Option (Option ε)
  | .goto _ | .call _ _ | .ret => some none
  | .await _ => none
  | .throw e => some (some e)

end Next

def TaskEffect.spawned : TaskEffect φ → List φ
  | .spawn f => [f]
  | .none | .cancel _ => []

namespace TaskWorld

def context (w : TaskWorld σ φ ε) (t : Nat) : TaskContext := ⟨t, w.fresh, fun t ↦ t ∈ w.tasks⟩

/-- A task that begins at a frame, suspended until it is resumed first. -/
def spawn (w : TaskWorld σ φ ε) (f : φ) : TaskWorld σ φ ε :=
  { w with tasks := w.tasks.insert w.fresh [f], fresh := w.fresh + 1 }

/-- The tasks with a new stack for one of them, which has ended if it is empty. -/
def setStack (w : TaskWorld σ φ ε) (t : Nat) (frames : List φ) : Dict Nat (List φ) :=
  if frames = [] then w.tasks.erase t else w.tasks.insert t frames

/-- The world after the top frame of the task was executed; `rest` are the frames below it. -/
def settle (w : TaskWorld σ φ ε) (t : Nat) (rest : List φ) (o : Outcome σ φ ε) :
    TaskWorld σ φ ε :=
  let frames := o.next.frames ++ rest
  let w' := { w with
    data := o.data
    tasks := w.setStack t frames
    running := if frames = [] then none else o.next.signal.map fun sig ↦ (t, sig) }
  match o.effect with
  | .none => w'
  | .spawn f => w'.spawn f
  | .cancel t' => { w' with cancels := t' :: w'.cancels }

/-- The world after a call from outside. -/
def called (w : TaskWorld σ φ ε) (result : σ × Option φ) : TaskWorld σ φ ε :=
  match result.2 with
  | none => { w with data := result.1 }
  | some f => { w with data := result.1 }.spawn f

/-- A task whose cancellation was requested sees the exception, another what it waited for. -/
def mayResume [DecidableEq ε] (c : Coroutines σ φ ε ι ξ) (w : TaskWorld σ φ ε) (t : Nat) (f : φ)
    (sig : Option ε) : Bool :=
  if t ∈ w.cancels then sig = some c.cancelled else c.wakes (w.context t) w.data f sig

/-- One step of the loop. -/
def step [DecidableEq ε] (c : Coroutines σ φ ε ι ξ) (w : TaskWorld σ φ ε) :
    TaskLabel ε ι ξ → Option (TaskWorld σ φ ε)
  | .resume t sig =>
    match w.running, w.tasks.get? t with
    | none, some (f :: _) =>
      if w.mayResume c t f sig then
        some { w with cancels := w.cancels.filter fun t' ↦ t' ≠ t, running := some (t, sig) }
      else none
    | _, _ => none
  | .exec input =>
    match w.running with
    | some (t, sig) =>
      match w.tasks.get? t with
      | some (f :: rest) =>
        if c.allows w.data f sig input then
          some (w.settle t rest (c.exec (w.context t) w.data f sig input))
        else none
      | _ => none
    | none => none
  | .call x => if w.running.isNone then some (w.called (c.call x w.data)) else none

/-- The top frame of the running task, with its task and what it sees. -/
def top (w : TaskWorld σ φ ε) : Option (Nat × φ × Option ε) :=
  w.running.bind fun (t, sig) ↦
    ((w.tasks.get? t).bind List.head?).map fun f ↦ (t, f, sig)

theorem top_eq {w : TaskWorld σ φ ε} {t : Nat} {sig : Option ε} {f : φ} {rest : List φ}
    (running : w.running = some (t, sig)) (stack : w.tasks.get? t = some (f :: rest)) :
    w.top = some (t, f, sig) := by
  simp [top, running, stack]

theorem stack_of_top {w : TaskWorld σ φ ε} {t : Nat} {sig : Option ε} {f : φ}
    (top : w.top = some (t, f, sig)) : ∃ rest, w.tasks.get? t = some (f :: rest) := by
  obtain ⟨⟨t', sig'⟩, -, found⟩ := Option.bind_eq_some_iff.mp top
  obtain ⟨f', head, eq⟩ := Option.map_eq_some_iff.mp found
  cases eq
  obtain ⟨stack, get, first⟩ := Option.bind_eq_some_iff.mp head
  obtain ⟨rest, rfl⟩ := List.head?_eq_some_iff.mp first
  exact ⟨rest, get⟩

/-- What a task is about to see, if it is the running one. -/
def signalOf (w : TaskWorld σ φ ε) (t : Nat) : Option (Option ε) :=
  w.running.bind fun (t', sig) ↦ if t' = t then some sig else none

/-- The frames of all tasks. -/
def frames (w : TaskWorld σ φ ε) : List (Nat × φ) :=
  w.tasks.items.flatMap fun e ↦ e.2.map fun f ↦ (e.1, f)

/-- The frames of all tasks but one. -/
def others (w : TaskWorld σ φ ε) (t : Nat) : List (Nat × φ) :=
  (w.tasks.erase t).items.flatMap fun e ↦ e.2.map fun f ↦ (e.1, f)

/-- Tasks are numbered in the order they start, none has an empty stack, and the running one has not
ended. -/
structure Valid (w : TaskWorld σ φ ε) : Prop where
  numbered : ∀ t ∈ w.tasks, t < w.fresh
  stacked : ∀ e ∈ w.tasks.items, e.2 ≠ []
  running : ∀ t sig, w.running = some (t, sig) → t ∈ w.tasks

/-! ### The steps -/

/-- What a step can be. -/
inductive StepCase (c : Coroutines σ φ ε ι ξ) (w : TaskWorld σ φ ε) :
    TaskLabel ε ι ξ → TaskWorld σ φ ε → Prop where
  | resumed (t : Nat) (sig : Option ε) (f : φ) (rest : List φ) (idle : w.running = none)
    (stack : w.tasks.get? t = some (f :: rest))
    (cancelled : t ∈ w.cancels → sig = some c.cancelled)
    (wakes : t ∉ w.cancels → c.wakes (w.context t) w.data f sig) :
    StepCase c w (.resume t sig)
      { w with cancels := w.cancels.filter fun t' ↦ t' ≠ t, running := some (t, sig) }
  | executed (t : Nat) (sig : Option ε) (f : φ) (rest : List φ) (input : ι)
    (running : w.running = some (t, sig)) (stack : w.tasks.get? t = some (f :: rest))
    (allowed : c.allows w.data f sig input) :
    StepCase c w (.exec input) (w.settle t rest (c.exec (w.context t) w.data f sig input))
  | called (x : ξ) (idle : w.running = none) :
    StepCase c w (.call x) (w.called (c.call x w.data))

theorem step_cases [DecidableEq ε] {c : Coroutines σ φ ε ι ξ} {w w' : TaskWorld σ φ ε}
    {l : TaskLabel ε ι ξ} (taken : w.step c l = some w') : StepCase c w l w' := by
  cases l with
  | resume t sig =>
    simp only [step] at taken
    split at taken
    · next f rest idle stack =>
      split at taken
      · next may =>
        cases taken
        apply StepCase.resumed t sig f rest idle stack
        · intro mem
          rw [mayResume, if_pos mem] at may
          exact of_decide_eq_true may
        · intro mem
          rwa [mayResume, if_neg mem] at may
      · contradiction
    · contradiction
  | exec input =>
    simp only [step] at taken
    split at taken
    · next t sig running =>
      split at taken
      · next f rest stack =>
        split at taken
        · next allowed =>
          cases taken
          exact .executed t sig f rest input running stack allowed
        · contradiction
      · contradiction
    · contradiction
  | call x =>
    simp only [step] at taken
    split at taken
    · next idle =>
      cases taken
      exact .called x (Option.isNone_iff_eq_none.mp idle)
    · contradiction

/-! ### Stacks -/

@[simp]
theorem data_called (w : TaskWorld σ φ ε) (result : σ × Option φ) :
    (w.called result).data = result.1 := by
  rw [called]
  cases result.2 <;> rfl

theorem tasks_settle (w : TaskWorld σ φ ε) (t : Nat) (rest : List φ) (o : Outcome σ φ ε) :
    (w.settle t rest o).tasks = match o.effect with
      | .spawn f => (w.setStack t (o.next.frames ++ rest)).insert w.fresh [f]
      | _ => w.setStack t (o.next.frames ++ rest) := by
  rw [settle]
  cases o.effect <;> rfl

@[simp]
theorem data_settle (w : TaskWorld σ φ ε) (t : Nat) (rest : List φ) (o : Outcome σ φ ε) :
    (w.settle t rest o).data = o.data := by
  rw [settle]
  cases o.effect <;> rfl

@[simp]
theorem running_settle (w : TaskWorld σ φ ε) (t : Nat) (rest : List φ) (o : Outcome σ φ ε) :
    (w.settle t rest o).running =
      if o.next.frames ++ rest = [] then none else o.next.signal.map fun sig ↦ (t, sig) := by
  rw [settle]
  cases o.effect <;> rfl

theorem signalOf_settle (w : TaskWorld σ φ ε) (t : Nat) (rest : List φ) (o : Outcome σ φ ε)
    (t' : Nat) : (w.settle t rest o).signalOf t' =
      if t' = t ∧ o.next.frames ++ rest ≠ [] then o.next.signal else none := by
  rw [signalOf, running_settle]
  by_cases ended : o.next.frames ++ rest = []
  · simp [ended]
  · by_cases self : t' = t
    · cases o.next.signal <;> simp [ended, self]
    · cases o.next.signal <;> simp [ended, self, Ne.symm self]

theorem signalOf_idle {w : TaskWorld σ φ ε} (idle : w.running = none) (t : Nat) :
    w.signalOf t = none := by
  rw [signalOf, idle]
  rfl

theorem signalOf_running {w : TaskWorld σ φ ε} {t : Nat} {sig : Option ε}
    (running : w.running = some (t, sig)) (t' : Nat) :
    w.signalOf t' = if t' = t then some sig else none := by
  by_cases self : t' = t
  · simp [signalOf, running, self]
  · simp [signalOf, running, self, Ne.symm self]

@[simp]
theorem running_called (w : TaskWorld σ φ ε) (result : σ × Option φ) :
    (w.called result).running = w.running := by
  rw [called]
  cases result.2 <;> rfl

@[simp]
theorem cancels_called (w : TaskWorld σ φ ε) (result : σ × Option φ) :
    (w.called result).cancels = w.cancels := by
  rw [called]
  cases result.2 <;> rfl

theorem cancels_settle (w : TaskWorld σ φ ε) (t : Nat) (rest : List φ) (o : Outcome σ φ ε) :
    (w.settle t rest o).cancels = match o.effect with
      | .cancel t' => t' :: w.cancels
      | _ => w.cancels := by
  rw [settle]
  cases o.effect <;> rfl

theorem mem_setStack {w : TaskWorld σ φ ε} {t : Nat} {frames : List φ} {e : Nat × List φ}
    (h : e ∈ (w.setStack t frames).items) :
    (e = (t, frames) ∧ frames ≠ []) ∨ e.1 ≠ t ∧ e ∈ w.tasks.items := by
  rw [setStack] at h
  split at h
  · rw [Dict.mem_items_erase] at h
    exact .inr ⟨h.2, h.1⟩
  · next some =>
    rcases Dict.mem_items_insert.mp h with ⟨key, value⟩ | old
    · exact .inl ⟨Prod.ext key value, some⟩
    · exact .inr old

/-- The stacks after an executed frame: the new one, a started task, and the old ones of others. -/
theorem mem_settle {w : TaskWorld σ φ ε} {t : Nat} {rest : List φ} {o : Outcome σ φ ε}
    {e : Nat × List φ} (h : e ∈ (w.settle t rest o).tasks.items) :
    (e = (t, o.next.frames ++ rest) ∧ o.next.frames ++ rest ≠ []) ∨
      (∃ f, o.effect = .spawn f ∧ e = (w.fresh, [f])) ∨ e.1 ≠ t ∧ e ∈ w.tasks.items := by
  rw [tasks_settle] at h
  split at h
  · next f spawn =>
    rcases Dict.mem_items_insert.mp h with ⟨key, value⟩ | ⟨-, old⟩
    · exact .inr (.inl ⟨f, spawn, Prod.ext key value⟩)
    · exact (mem_setStack old).imp_right .inr
  · exact (mem_setStack h).imp_right .inr

/-- The stacks of other tasks stay as they are. -/
theorem mem_settle_of_ne {w : TaskWorld σ φ ε} {t : Nat} {rest : List φ} {o : Outcome σ φ ε}
    {e : Nat × List φ} (h : e ∈ w.tasks.items) (other : e.1 ≠ t) (old : e.1 < w.fresh) :
    e ∈ (w.settle t rest o).tasks.items := by
  have kept : e ∈ (w.setStack t (o.next.frames ++ rest)).items := by
    rw [setStack]
    split
    · exact Dict.mem_items_erase.mpr ⟨h, other⟩
    · exact Dict.mem_items_insert.mpr (.inr ⟨other, h⟩)
  rw [tasks_settle]
  split
  · exact Dict.mem_items_insert.mpr (.inr ⟨Nat.ne_of_lt old, kept⟩)
  · exact kept

theorem mem_settle_self {w : TaskWorld σ φ ε} {t : Nat} {rest : List φ} {o : Outcome σ φ ε}
    (old : t < w.fresh) (some : o.next.frames ++ rest ≠ []) :
    (t, o.next.frames ++ rest) ∈ (w.settle t rest o).tasks.items := by
  have kept : (t, o.next.frames ++ rest) ∈ (w.setStack t (o.next.frames ++ rest)).items := by
    rw [setStack, if_neg some]
    exact Dict.mem_items_insert.mpr (.inl ⟨rfl, rfl⟩)
  rw [tasks_settle]
  split
  · exact Dict.mem_items_insert.mpr (.inr ⟨Nat.ne_of_lt old, kept⟩)
  · exact kept

theorem mem_settle_spawned {w : TaskWorld σ φ ε} {t : Nat} {rest : List φ} {o : Outcome σ φ ε}
    {f : φ} (spawn : o.effect = .spawn f) : (w.fresh, [f]) ∈ (w.settle t rest o).tasks.items := by
  rw [tasks_settle, spawn]
  exact Dict.mem_items_insert.mpr (.inl ⟨rfl, rfl⟩)

theorem mem_called_of_mem {w : TaskWorld σ φ ε} {result : σ × Option φ} {e : Nat × List φ}
    (h : e ∈ w.tasks.items) (old : e.1 < w.fresh) : e ∈ (w.called result).tasks.items := by
  rw [called]
  split
  · exact h
  · exact Dict.mem_items_insert.mpr (.inr ⟨Nat.ne_of_lt old, h⟩)

/-- A call from outside adds at most one task. -/
theorem mem_called {w : TaskWorld σ φ ε} {result : σ × Option φ} {e : Nat × List φ}
    (h : e ∈ (w.called result).tasks.items) :
    (∃ f, result.2 = some f ∧ e = (w.fresh, [f])) ∨ e ∈ w.tasks.items := by
  rw [called] at h
  split at h
  · exact .inr h
  · next f start =>
    rcases Dict.mem_items_insert.mp h with ⟨key, value⟩ | ⟨-, old⟩
    · exact .inl ⟨f, start, Prod.ext key value⟩
    · exact .inr old

theorem fresh_settle (w : TaskWorld σ φ ε) (t : Nat) (rest : List φ) (o : Outcome σ φ ε) :
    w.fresh ≤ (w.settle t rest o).fresh ∧
      ∀ f, o.effect = .spawn f → w.fresh < (w.settle t rest o).fresh := by
  rw [settle]
  cases o.effect <;> simp [spawn]

theorem fresh_called (w : TaskWorld σ φ ε) (result : σ × Option φ) :
    w.fresh ≤ (w.called result).fresh ∧
      ∀ f, result.2 = some f → w.fresh < (w.called result).fresh := by
  rw [called]
  cases result.2 <;> simp [spawn]

theorem mem_tasks_settle {w : TaskWorld σ φ ε} {t : Nat} {rest : List φ} {o : Outcome σ φ ε}
    (some : o.next.frames ++ rest ≠ []) : t ∈ (w.settle t rest o).tasks := by
  have kept : t ∈ w.setStack t (o.next.frames ++ rest) := by
    rw [setStack, if_neg some]
    exact Dict.mem_insert.mpr (.inl rfl)
  rw [tasks_settle]
  split
  · exact Dict.mem_insert.mpr (.inr kept)
  · exact kept

/-- No task has started. -/
theorem valid_empty (data : σ) : Valid (⟨data, .empty, [], 0, none⟩ : TaskWorld σ φ ε) where
  numbered _ mem := absurd mem (Dict.not_mem_empty _)
  stacked _ mem := absurd mem List.not_mem_nil
  running _ _ running := by contradiction

theorem valid_called {w : TaskWorld σ φ ε} (h : w.Valid) (idle : w.running = none)
    (result : σ × Option φ) : (w.called result).Valid := by
  have fresh := w.fresh_called result
  constructor
  · intro t mem
    rcases Dict.mem_iff.mp mem with ⟨frames, mem⟩
    rcases mem_called mem with ⟨f, start, eq⟩ | old
    · cases eq
      exact fresh.2 f start
    · have := h.numbered t (Dict.mem_iff.mpr ⟨_, old⟩)
      omega
  · intro e he
    rcases mem_called he with ⟨f, -, rfl⟩ | old
    · exact List.cons_ne_nil _ _
    · exact h.stacked e old
  · intro t sig running
    rw [running_called, idle] at running
    contradiction

/-- The frame that is executed next, if the task goes on. -/
theorem top_settle {w : TaskWorld σ φ ε} {t : Nat} {f : φ} {rest stack : List φ} {sig : Option ε}
    {o : Outcome σ φ ε} (old : t < w.fresh) (frames : o.next.frames ++ rest = f :: stack)
    (goesOn : o.next.signal = some sig) : (w.settle t rest o).top = some (t, f, sig) := by
  have some : o.next.frames ++ rest ≠ [] := by simp [frames]
  have mem := mem_settle_self old some
  rw [frames] at mem
  refine top_eq ?_ (Dict.get?_eq_some_iff.mpr mem)
  rw [running_settle, if_neg some, goesOn]
  rfl

theorem valid_step [DecidableEq ε] {c : Coroutines σ φ ε ι ξ} {w w' : TaskWorld σ φ ε}
    {l : TaskLabel ε ι ξ} (taken : w.step c l = some w') (h : w.Valid) : w'.Valid := by
  cases step_cases taken with
  | resumed t sig f rest idle stack _ _ =>
    refine ⟨h.numbered, h.stacked, ?_⟩
    rintro t' sig' ⟨⟩
    exact Dict.mem_iff.mpr ⟨_, Dict.get?_eq_some_iff.mp stack⟩
  | executed t sig f rest input running stack _ =>
    have fresh := w.fresh_settle t rest (c.exec (w.context t) w.data f sig input)
    have known : t < w.fresh := h.numbered t (Dict.mem_iff.mpr ⟨_, Dict.get?_eq_some_iff.mp stack⟩)
    constructor
    · intro t' mem
      rcases Dict.mem_iff.mp mem with ⟨frames, mem⟩
      rcases mem_settle mem with ⟨eq, -⟩ | ⟨f', spawn, eq⟩ | ⟨-, old⟩
      · cases eq
        omega
      · cases eq
        exact fresh.2 f' spawn
      · have := h.numbered t' (Dict.mem_iff.mpr ⟨_, old⟩)
        omega
    · intro e he
      rcases mem_settle he with ⟨rfl, some⟩ | ⟨f', -, rfl⟩ | ⟨-, old⟩
      · exact some
      · exact List.cons_ne_nil _ _
      · exact h.stacked e old
    · intro t' sig' goesOn
      rw [running_settle] at goesOn
      split at goesOn
      · contradiction
      · next some =>
        rcases Option.map_eq_some_iff.mp goesOn with ⟨_, -, eq⟩
        cases eq
        exact mem_tasks_settle some
  | called x idle => exact valid_called h idle _

/-! ### All frames -/

/-- The frames of the tasks, a task at a time. -/
theorem frames_perm_of_items {tasks tasks' : List (Nat × List φ)} (h : tasks.Perm tasks') :
    (tasks.flatMap fun e ↦ e.2.map fun f ↦ (e.1, f)).Perm
      (tasks'.flatMap fun e ↦ e.2.map fun f ↦ (e.1, f)) :=
  h.flatMap_right _

theorem frames_perm {w : TaskWorld σ φ ε} {t : Nat} {stack : List φ}
    (h : w.tasks.get? t = some stack) :
    w.frames.Perm ((stack.map fun f ↦ (t, f)) ++ w.others t) :=
  frames_perm_of_items (Dict.erase_perm (Dict.get?_eq_some_iff.mp h))

/-- A task that is not there yet adds its frame. -/
theorem frames_insert_fresh {tasks : Dict Nat (List φ)} {t : Nat} (f : φ) (h : t ∉ tasks) :
    ((tasks.insert t [f]).items.flatMap fun e ↦ e.2.map fun f ↦ (e.1, f)).Perm
      ((t, f) :: tasks.items.flatMap fun e ↦ e.2.map fun f ↦ (e.1, f)) := by
  have perm := Dict.insert_perm tasks t [f]
  rw [Dict.erase_of_not_mem h] at perm
  exact frames_perm_of_items perm

theorem frames_setStack (w : TaskWorld σ φ ε) (t : Nat) (stack : List φ) :
    ((w.setStack t stack).items.flatMap fun e ↦ e.2.map fun f ↦ (e.1, f)).Perm
      ((stack.map fun f ↦ (t, f)) ++ w.others t) := by
  rw [setStack]
  split
  · next ended =>
    rw [ended]
    exact .refl _
  · exact frames_perm_of_items (Dict.insert_perm w.tasks t stack)

/-- The frames after one was executed: those that take its place, and that of a started task. -/
theorem frames_settle {w : TaskWorld σ φ ε} {t : Nat} {f : φ} {rest : List φ}
    (o : Outcome σ φ ε) (valid : w.Valid) (stack : w.tasks.get? t = some (f :: rest)) :
    (w.settle t rest o).frames.Perm
      ((o.effect.spawned.map fun f ↦ (w.fresh, f)) ++
        (((o.next.frames ++ rest).map fun f ↦ (t, f)) ++ w.others t)) := by
  have base := w.frames_setStack t (o.next.frames ++ rest)
  rw [frames, tasks_settle]
  cases spawn : o.effect with
  | none => exact base
  | cancel t' => exact base
  | spawn f' =>
    have fresh : w.fresh ∉ w.setStack t (o.next.frames ++ rest) := by
      intro mem
      rcases Dict.mem_iff.mp mem with ⟨frames, mem⟩
      have known : w.fresh ∈ w.tasks := by
        rcases mem_setStack mem with ⟨eq, -⟩ | ⟨-, old⟩
        · rw [(Prod.mk.inj eq).1]
          exact Dict.mem_iff.mpr ⟨_, Dict.get?_eq_some_iff.mp stack⟩
        · exact Dict.mem_iff.mpr ⟨_, old⟩
      exact Nat.lt_irrefl _ (valid.numbered _ known)
    exact (frames_insert_fresh f' fresh).trans (base.cons _)

theorem frames_called {w : TaskWorld σ φ ε} (valid : w.Valid) (result : σ × Option φ) :
    (w.called result).frames.Perm ((result.2.toList.map fun f ↦ (w.fresh, f)) ++ w.frames) := by
  rw [called]
  cases result.2 with
  | none => exact .refl _
  | some f =>
    have fresh : w.fresh ∉ w.tasks := fun mem ↦ Nat.lt_irrefl _ (valid.numbered _ mem)
    exact frames_insert_fresh f fresh

/-- All frames but the executed one stay. -/
theorem mem_frames_settle {w : TaskWorld σ φ ε} {t : Nat} {f : φ} {rest : List φ}
    (o : Outcome σ φ ε) (valid : w.Valid) (stack : w.tasks.get? t = some (f :: rest))
    {e : Nat × φ} (mem : e ∈ w.frames) : e = (t, f) ∨ e ∈ (w.settle t rest o).frames := by
  rw [(frames_settle o valid stack).mem_iff]
  rcases List.mem_append.mp ((frames_perm stack).mem_iff.mp mem) with own | other
  · rw [List.map_cons, List.mem_cons] at own
    refine own.imp_right fun below ↦ ?_
    rw [List.map_append]
    simp [below]
  · exact .inr (by simp [other])

theorem mem_frames_next {w : TaskWorld σ φ ε} {t : Nat} {f g : φ} {rest : List φ}
    (o : Outcome σ φ ε) (valid : w.Valid) (stack : w.tasks.get? t = some (f :: rest))
    (mem : g ∈ o.next.frames) : (t, g) ∈ (w.settle t rest o).frames := by
  rw [(frames_settle o valid stack).mem_iff]
  simp [mem]

theorem mem_frames_called {w : TaskWorld σ φ ε} (valid : w.Valid) (result : σ × Option φ)
    {e : Nat × φ} (mem : e ∈ w.frames) : e ∈ (w.called result).frames := by
  rw [(frames_called valid result).mem_iff]
  simp [mem]

/-- What the frames weigh together. -/
def weigh (w : TaskWorld σ φ ε) (p : φ → Nat) : Nat := (w.frames.map fun e ↦ p e.2).sum

theorem weigh_pos_iff {w : TaskWorld σ φ ε} {p : φ → Nat} :
    0 < w.weigh p ↔ ∃ e ∈ w.frames, 0 < p e.2 := by
  rw [weigh, List.sum_pos_iff_exists_pos_nat]
  simp

/-- The weight of a task's stack and of the others. -/
theorem weigh_eq {w : TaskWorld σ φ ε} {t : Nat} {stack : List φ}
    (h : w.tasks.get? t = some stack) (p : φ → Nat) :
    w.weigh p = (stack.map p).sum + ((w.others t).map fun e ↦ p e.2).sum := by
  rw [weigh, ((frames_perm h).map _).sum_nat, List.map_append, List.sum_append_nat, List.map_map]
  rfl

theorem weigh_top_le {w : TaskWorld σ φ ε} {t : Nat} {f : φ} {rest : List φ}
    (stack : w.tasks.get? t = some (f :: rest)) (p : φ → Nat) : p f ≤ w.weigh p := by
  rw [weigh_eq stack, List.map_cons, List.sum_cons]
  omega

/-- The weight changes as the executed frame does. -/
theorem weigh_settle {w : TaskWorld σ φ ε} {t : Nat} {f : φ} {rest : List φ}
    (o : Outcome σ φ ε) (valid : w.Valid) (stack : w.tasks.get? t = some (f :: rest))
    (p : φ → Nat) :
    (w.settle t rest o).weigh p + p f =
      w.weigh p + (o.next.frames.map p).sum + (o.effect.spawned.map p).sum := by
  rw [weigh_eq stack, weigh, ((frames_settle o valid stack).map _).sum_nat]
  have same : ∀ l : List φ, ∀ t : Nat,
      ((l.map fun f ↦ (t, f)).map fun e ↦ p e.2) = l.map p := fun l t ↦ List.map_map
  simp only [List.map_append, List.sum_append_nat, same, List.map_cons, List.sum_cons]
  omega

theorem weigh_called {w : TaskWorld σ φ ε} (valid : w.Valid) (result : σ × Option φ)
    (p : φ → Nat) : (w.called result).weigh p = w.weigh p + (result.2.toList.map p).sum := by
  rw [weigh, ((frames_called valid result).map _).sum_nat]
  rw [List.map_append, List.sum_append_nat, List.map_map, Nat.add_comm]
  rfl

/-! ### Callers -/

/-- Each frame stands above its caller; `below f none` says that a task may begin at `f`. -/
def IsStack (below : φ → Option φ → Prop) : List φ → Prop
  | [] => True
  | f :: rest => below f rest.head? ∧ IsStack below rest

/-- The frame keeps a relation between a frame and the one that called it. -/
def KeepsBelow (below : φ → Option φ → Prop) (f : φ) : Next φ ε → Prop
  | .goto f' | .await f' => ∀ g, below f g → below f' g
  | .call caller callee => below callee (some caller) ∧ ∀ g, below f g → below caller g
  | .ret | .throw _ => True

def Stacked (below : φ → Option φ → Prop) (w : TaskWorld σ φ ε) : Prop :=
  ∀ e ∈ w.tasks.items, IsStack below e.2

theorem isStack_frames {below : φ → Option φ → Prop} {f : φ} {rest : List φ} {next : Next φ ε}
    (stack : IsStack below (f :: rest)) (keeps : KeepsBelow below f next) :
    IsStack below (next.frames ++ rest) := by
  cases next with
  | goto f' | await f' => exact ⟨keeps _ stack.1, stack.2⟩
  | call caller callee => exact ⟨keeps.1, keeps.2 _ stack.1, stack.2⟩
  | ret | throw e => exact stack.2

theorem stacked_empty (below : φ → Option φ → Prop) (data : σ) :
    Stacked below (⟨data, .empty, [], 0, none⟩ : TaskWorld σ φ ε) :=
  fun _ mem ↦ absurd mem List.not_mem_nil

theorem stacked_called {below : φ → Option φ → Prop} {w : TaskWorld σ φ ε} (h : w.Stacked below)
    (result : σ × Option φ) (starts : ∀ f, result.2 = some f → below f none) :
    (w.called result).Stacked below := by
  intro e he
  rcases mem_called he with ⟨f, start, rfl⟩ | old
  · exact ⟨starts f start, trivial⟩
  · exact h e old

/-- If every frame keeps the relation, so does every step. -/
theorem stacked_step [DecidableEq ε] {c : Coroutines σ φ ε ι ξ} {below : φ → Option φ → Prop}
    (keeps : ∀ ctx s f sig input, KeepsBelow below f (c.exec ctx s f sig input).next)
    (spawns : ∀ ctx s f sig input, ∀ g ∈ (c.exec ctx s f sig input).effect.spawned, below g none)
    (starts : ∀ x s f, (c.call x s).2 = some f → below f none)
    {w w' : TaskWorld σ φ ε} {l : TaskLabel ε ι ξ} (taken : w.step c l = some w')
    (h : w.Stacked below) : w'.Stacked below := by
  cases step_cases taken with
  | resumed t sig f rest idle stack _ _ => exact h
  | executed t sig f rest input running stack _ =>
    intro e he
    rcases mem_settle he with ⟨rfl, -⟩ | ⟨f', spawn, rfl⟩ | ⟨-, old⟩
    · exact isStack_frames (h _ (Dict.get?_eq_some_iff.mp stack)) (keeps _ _ _ _ _)
    · refine ⟨spawns (w.context t) w.data f sig input f' ?_, trivial⟩
      rw [spawn]
      exact List.mem_singleton_self f'
    · exact h e old
  | called x idle => exact stacked_called h _ (starts x w.data)

end TaskWorld

end ProbingBaselines.Lib
