import ProbingBaselines.Lib.WhileLoop

/-!
# Invocations of remote actors

`ActorInvocation` (`unified/util/actor_helper.py:97-258`) submits a method call to a Ray actor. One
field has the reference of the pending call and later its value or an exception; submission and
resolution share an error handler, which may submit again or leave the field as it is. Each
submission comes to one `Attempt`, the base class `RayActorError` counts as an actor that is
unavailable, and the invocation has no timeout.
-/

namespace ProbingBaselines.Dlrover

open Lib

/-- The exceptions that the error handler tells apart. -/
inductive ErrorClass
  | actorDiedError
  | actorUnavailableError
  | rayTaskError
  | other (name : String)
  deriving DecidableEq

/-- `isinstance(e, RayActorError)`. -/
def ErrorClass.isRayActorError : ErrorClass → Bool
  | .actorDiedError | .actorUnavailableError => true
  | .rayTaskError | .other _ => false

structure PyException where
  cls : ErrorClass
  text : String
  deriving DecidableEq

variable {T : Type}

/-- A value of a method: `None`, an exception object, or another one. -/
inductive PyValue (T : Type)
  | none
  | exception (e : PyException)
  | some (v : T)

/-- What a submission comes to: it raises at once, or its reference has a value or an exception. -/
inductive Attempt (T : Type)
  | refused (e : PyException)
  | returned (v : PyValue T)
  | raised (e : PyException)

namespace Attempt

def error? : Attempt T → Option PyException
  | .refused e | .raised e => some e
  | .returned _ => none

/-- The submission gave a reference. -/
def Accepted (a : Attempt T) : Prop := ∀ e, a ≠ .refused e

def Died (a : Attempt T) : Prop := ∃ e, a.error? = some e ∧ e.cls = .actorDiedError

def Unavailable (a : Attempt T) : Prop := ∃ e, a.error? = some e ∧ e.cls = .actorUnavailableError

end Attempt

/-- `_result`: an `ObjectRef`, known by the submission that gave it, or anything else. -/
inductive InvocationResult (T : Type)
  | objectRef (attempt : Nat)
  | settled (v : PyValue T)

structure ActorInvocation (T : Type) where
  actorName : String
  methodName : String
  displayName : String
  retryCount : Nat
  result : InvocationResult T
  submitted : Nat

namespace ActorInvocation

def pending (inv : ActorInvocation T) : Bool :=
  match inv.result with
  | .objectRef _ => true
  | .settled _ => false

def isShutdown (inv : ActorInvocation T) : Prop :=
  inv.methodName = "__ray_terminate__" ∨ inv.methodName = "shutdown"

instance (inv : ActorInvocation T) : Decidable inv.isShutdown := inferInstanceAs (Decidable (_ ∨ _))

/-- The exception that stands for a failed task. -/
def reported (inv : ActorInvocation T) (e : PyException) : PyException :=
  if e.cls = .rayTaskError then
    ⟨.other "RuntimeError",
      "Error executing " ++ inv.displayName ++ " on " ++ inv.actorName ++ ": " ++ e.text⟩
  else e

/-- `_handle_exception` (`actor_helper.py:183-211`); `invoke` is `_invoke`. -/
def handleException (invoke : ActorInvocation T → ActorInvocation T) (inv : ActorInvocation T)
    (e : PyException) : ActorInvocation T :=
  match e.cls with
  | .actorDiedError =>
    -- without the `return` the chain of tests is left, and `_result` is what it was
    if inv.isShutdown then { inv with result := .settled .none } else inv
  | .actorUnavailableError =>
    if 0 < inv.retryCount then invoke { inv with retryCount := inv.retryCount - 1 }
    else { inv with result := .settled (.exception e) }
  | .rayTaskError => { inv with result := .settled (.exception (inv.reported e)) }
  | .other _ => { inv with result := .settled (.exception e) }

variable (attempts : Nat → Attempt T)

/-- One submission of `_invoke` (`actor_helper.py:129-153`), with what the handler calls. -/
def submit (again : ActorInvocation T → ActorInvocation T) (inv : ActorInvocation T) :
    ActorInvocation T :=
  let inv' := { inv with submitted := inv.submitted + 1 }
  match attempts inv.submitted with
  | .returned _ | .raised _ => { inv' with result := .objectRef inv.submitted }
  | .refused e =>
    if e.cls.isRayActorError then handleException again inv' e
    else { inv' with result := .settled (.exception e) }

/-- `_invoke` with at most so many more submissions. -/
def invokeWithin : Nat → ActorInvocation T → ActorInvocation T
  | 0 => submit attempts id
  | n + 1 => submit attempts (invokeWithin n)

/-- `_invoke`. Each further submission uses one of the retries. -/
def invoke (inv : ActorInvocation T) : ActorInvocation T :=
  invokeWithin attempts inv.retryCount inv

/-- `resolve_sync` and `resolve_async` (`actor_helper.py:155-181`). The outcome of a submission is
fixed: its reference gives the same each time. -/
def resolveSync (inv : ActorInvocation T) : ActorInvocation T :=
  match inv.result with
  | .settled _ => inv
  | .objectRef attempt =>
    match attempts attempt with
    | .returned v => { inv with result := .settled v }
    | .raised e => handleException (invoke attempts) inv e
    | .refused _ => inv

/-- The constructor. -/
def init (actorName methodName displayName : String) (retries : Nat) : ActorInvocation T :=
  invoke attempts {
    actorName, methodName, displayName
    retryCount := retries
    result := .settled .none
    submitted := 0 }

/-- What the last submission raised, as it is reported. -/
def lastError (inv : ActorInvocation T) : Option PyException :=
  match attempts (inv.submitted - 1) with
  | .refused e => some e
  | .raised e => some (inv.reported e)
  | .returned _ => none

/-- `result` returns what some submission returned, or `None` for the shutdown of a dead actor, or
it raises the error of the last submission. -/
def RealOutcome (inv : ActorInvocation T) : Prop :=
  match inv.result with
  | .objectRef _ => False
  | .settled (.exception e) => inv.lastError attempts = some e
  | .settled v => (∃ k < inv.submitted, attempts k = .returned v) ∨
      v = .none ∧ inv.isShutdown ∧ ∃ k < inv.submitted, (attempts k).Died

/-- `wait` ends with the real outcome after at most `r + 1` submissions. -/
def WaitsWell (r : Nat) (inv : ActorInvocation T) : Prop :=
  EndsWith pending (resolveSync attempts)
    (fun t ↦ t.submitted ≤ r + 1 ∧ t.RealOutcome attempts) inv

/-- The submission is followed by another one, if there is a retry left. -/
def PassedOver (shutdown : Prop) (k : Nat) : Prop :=
  (attempts k).Unavailable ∨
    ¬shutdown ∧ (attempts k).Died ∧ ¬(attempts k).Accepted ∧ ∃ i < k, (attempts i).Accepted

/-- The submission `k` can be the last one of a budget of `r`: it did not die, unless it is for a
shutdown, and returned no exception object. -/
structure Final (shutdown : Prop) (r k : Nat) : Prop where
  unavailable : (attempts k).Unavailable → k = r
  died : (attempts k).Died → shutdown
  returned : ∀ e, attempts k ≠ .returned (.exception e)

/-- The first submission that is not passed over is a good one. -/
def EndsWell (shutdown : Prop) (r : Nat) : Prop :=
  ∃ k ≤ r, (∀ j < k, PassedOver attempts shutdown j) ∧ Final attempts shutdown r k

/-! ### One submission -/

section Submission

variable {attempts} {inv : ActorInvocation T}

/-- The recursion of `_invoke` through the handler. -/
theorem invoke_eq (inv : ActorInvocation T) :
    inv.invoke attempts = inv.submit attempts (invoke attempts) := by
  rcases inv with ⟨actorName, methodName, displayName, retryCount, result, submitted⟩
  cases retryCount with
  | zero =>
    simp only [invoke, invokeWithin, submit, handleException, Nat.lt_irrefl, if_false]
  | succ retryCount => rfl

theorem invoke_accepted (h : (attempts inv.submitted).Accepted) : inv.invoke attempts =
    { inv with result := .objectRef inv.submitted, submitted := inv.submitted + 1 } := by
  rw [invoke_eq, submit]
  cases found : attempts inv.submitted with
  | refused e => exact absurd found (h e)
  | returned v => rfl
  | raised e => rfl

theorem invoke_refused {e : PyException} (h : attempts inv.submitted = .refused e) :
    inv.invoke attempts =
      if e.cls.isRayActorError then
        handleException (invoke attempts) { inv with submitted := inv.submitted + 1 } e
      else
        { inv with result := .settled (.exception e), submitted := inv.submitted + 1 } := by
  rw [invoke_eq, submit, h]

/-- A pending reference of an attempt that raised hands its exception to the handler. -/
theorem resolveSync_raised {k : Nat} {e : PyException} (ref : inv.result = .objectRef k)
    (h : attempts k = .raised e) :
    inv.resolveSync attempts = handleException (invoke attempts) inv e := by
  rw [resolveSync, ref]
  simp only [h]

theorem resolveSync_returned {k : Nat} {v : PyValue T} (ref : inv.result = .objectRef k)
    (h : attempts k = .returned v) :
    inv.resolveSync attempts = { inv with result := .settled v } := by
  rw [resolveSync, ref]
  simp only [h]

theorem waitsWell_settled {r : Nat} {v : PyValue T} (h : inv.result = .settled v) :
    inv.WaitsWell attempts r ↔ inv.submitted ≤ r + 1 ∧ inv.RealOutcome attempts :=
  EndsWith.iff_of_done (by rw [pending, h])

theorem waitsWell_pending {r k : Nat} (h : inv.result = .objectRef k) :
    inv.WaitsWell attempts r ↔ (inv.resolveSync attempts).WaitsWell attempts r :=
  EndsWith.iff_of_again (by rw [pending, h])

/-- The exception of the last submission is a real outcome. -/
theorem realOutcome_exception {e : PyException} (h : inv.result = .settled (.exception e)) :
    inv.RealOutcome attempts ↔ inv.lastError attempts = some e := by
  rw [RealOutcome, h]

end Submission

/-! ### The last submission -/

section LastSubmission

variable {attempts} {shutdown : Prop} {r k : Nat}

/-- A submission that is passed over is the last one only for want of retries. -/
theorem Final.eq_of_passedOver (final : Final attempts shutdown r k)
    (passed : PassedOver attempts shutdown k) : k = r := by
  rcases passed with unavailable | ⟨not_shutdown, died, -⟩
  · exact final.unavailable unavailable
  · exact absurd (final.died died) not_shutdown

theorem endsWell_iff (before : ∀ j < k, PassedOver attempts shutdown j) (le : k ≤ r)
    (last : PassedOver attempts shutdown k → k = r) :
    EndsWell attempts shutdown r ↔ Final attempts shutdown r k := by
  constructor
  · rintro ⟨j, hj, before', final⟩
    rcases Nat.lt_trichotomy j k with lt | rfl | gt
    · have eq := final.eq_of_passedOver (before j lt)
      omega
    · exact final
    · have eq := last (before' k gt)
      omega
  · exact fun final ↦ ⟨k, le, before, final⟩

theorem not_passedOver_returned {v : PyValue T} (h : attempts k = .returned v) :
    ¬PassedOver attempts shutdown k := by
  rintro (⟨e, eq, -⟩ | ⟨-, ⟨e, eq, -⟩, -⟩) <;> simp [Attempt.error?, h] at eq

theorem unavailable_iff {e : PyException} (h : (attempts k).error? = some e) :
    (attempts k).Unavailable ↔ e.cls = .actorUnavailableError := by
  simp only [Attempt.Unavailable, h, Option.some_inj, exists_eq_left']

theorem died_iff {e : PyException} (h : (attempts k).error? = some e) :
    (attempts k).Died ↔ e.cls = .actorDiedError := by
  simp only [Attempt.Died, h, Option.some_inj, exists_eq_left']

theorem final_error_iff {e : PyException} (h : (attempts k).error? = some e) :
    Final attempts shutdown r k ↔
      (e.cls = .actorUnavailableError → k = r) ∧ (e.cls = .actorDiedError → shutdown) := by
  constructor
  · intro final
    exact ⟨fun cls ↦ final.unavailable ((unavailable_iff h).mpr cls),
      fun cls ↦ final.died ((died_iff h).mpr cls)⟩
  · rintro ⟨unavailable, died⟩
    refine ⟨fun u ↦ unavailable ((unavailable_iff h).mp u), fun d ↦ died ((died_iff h).mp d), ?_⟩
    intro e' returned
    simp [Attempt.error?, returned] at h

end LastSubmission

/-! ### The run -/

section Wait

variable {attempts} {r k : Nat} {inv : ActorInvocation T}

/-- The state in which the submission `k` is made: all before it were passed over, and the reference
left, if any, is of one that found the actor unavailable. -/
structure Ready (attempts : Nat → Attempt T) (r k : Nat) (inv : ActorInvocation T) : Prop where
  submitted : inv.submitted = k
  budget : k + inv.retryCount = r
  before : ∀ j < k, PassedOver attempts inv.isShutdown j
  reference : inv.result = .settled .none ∧ (∀ i < k, ¬(attempts i).Accepted) ∨
    ∃ i < k, inv.result = .objectRef i ∧
      ∃ e, attempts i = .raised e ∧ e.cls = .actorUnavailableError

namespace Ready

theorem le (ready : Ready attempts r k inv) : k ≤ r := by
  rw [← ready.budget]
  exact Nat.le_add_right k _

theorem last (ready : Ready attempts r k inv) (none : ¬0 < inv.retryCount) : k = r := by
  rw [← ready.budget, Nat.eq_zero_of_not_pos none, Nat.add_zero]

theorem count (ready : Ready attempts r k inv) : inv.submitted + 1 = k + 1 :=
  congrArg (· + 1) ready.submitted

theorem start (actorName methodName displayName : String) (retries : Nat) :
    Ready attempts retries 0
      ⟨actorName, methodName, displayName, retries, .settled .none, 0⟩ where
  submitted := rfl
  budget := Nat.zero_add _
  before _ h := absurd h (Nat.not_lt_zero _)
  reference := .inl ⟨rfl, fun _ h ↦ absurd h (Nat.not_lt_zero _)⟩

/-- A submission that is passed over while there is a retry left. -/
theorem next (ready : Ready attempts r k inv) (left : 0 < inv.retryCount)
    (passed : PassedOver attempts inv.isShutdown k) {result : InvocationResult T}
    (reference : result = inv.result ∧ ¬(attempts k).Accepted ∨
      result = .objectRef k ∧ ∃ e, attempts k = .raised e ∧ e.cls = .actorUnavailableError) :
    Ready attempts r (k + 1) { inv with
      result, retryCount := inv.retryCount - 1, submitted := inv.submitted + 1 } where
  submitted := ready.count
  budget := by
    have budget := ready.budget
    simp only
    omega
  before j hj := by
    rcases Nat.lt_succ_iff_lt_or_eq.mp hj with lt | rfl
    · exact ready.before j lt
    · exact passed
  reference := by
    rcases reference with ⟨rfl, refused⟩ | ⟨rfl, raised⟩
    · rcases ready.reference with ⟨none, all⟩ | ⟨i, hi, ref⟩
      · refine .inl ⟨none, fun i hi ↦ ?_⟩
        rcases Nat.lt_succ_iff_lt_or_eq.mp hi with lt | rfl
        · exact all i lt
        · exact refused
      · exact .inr ⟨i, Nat.lt_succ_of_lt hi, ref⟩
    · exact .inr ⟨k, Nat.lt_succ_self k, rfl, raised⟩

/-- The submission `k` is the last one. -/
theorem waitsWell_last (ready : Ready attempts r k inv) {t : ActorInvocation T} {v : PyValue T}
    (settled : t.result = .settled v) (count : t.submitted = k + 1)
    (last : PassedOver attempts inv.isShutdown k → k = r)
    (outcome : t.RealOutcome attempts ↔ Final attempts inv.isShutdown r k) :
    t.WaitsWell attempts r ↔ EndsWell attempts inv.isShutdown r := by
  have le := ready.le
  rw [waitsWell_settled settled, endsWell_iff ready.before le last, outcome, count]
  exact and_iff_right (Nat.succ_le_succ le)

/-- The last submission raised, and so does the invocation. -/
theorem waitsWell_error (ready : Ready attempts r k inv) {t : ActorInvocation T}
    {e e' : PyException} (settled : t.result = .settled (.exception e'))
    (count : t.submitted = k + 1) (error : (attempts k).error? = some e)
    (last : t.lastError attempts = some e') (unavailable : e.cls = .actorUnavailableError → k = r)
    (died : e.cls = .actorDiedError → inv.isShutdown) :
    t.WaitsWell attempts r ↔ EndsWell attempts inv.isShutdown r := by
  have final : Final attempts inv.isShutdown r k := (final_error_iff error).mpr ⟨unavailable, died⟩
  apply ready.waitsWell_last settled count final.eq_of_passedOver
  rw [realOutcome_exception settled]
  exact iff_of_true last final

/-- The actor of a shutdown is dead. -/
theorem waitsWell_shutdown (ready : Ready attempts r k inv) {t : ActorInvocation T}
    {e : PyException} (settled : t.result = .settled .none) (count : t.submitted = k + 1)
    (error : (attempts k).error? = some e) (died : e.cls = .actorDiedError)
    (shutdown : inv.isShutdown) (same : t.isShutdown) :
    t.WaitsWell attempts r ↔ EndsWell attempts inv.isShutdown r := by
  have final : Final attempts inv.isShutdown r k := by
    rw [final_error_iff error, died]
    exact ⟨fun h ↦ absurd h (by decide), fun _ ↦ shutdown⟩
  apply ready.waitsWell_last settled count final.eq_of_passedOver
  have real : t.RealOutcome attempts := by
    rw [RealOutcome, settled]
    exact .inr ⟨rfl, same, k, by omega, (died_iff error).mpr died⟩
  exact iff_of_true real final

theorem waitsWell_returned (ready : Ready attempts r k inv) {v : PyValue T}
    (h : attempts k = .returned v) :
    (inv.invoke attempts).WaitsWell attempts r ↔ EndsWell attempts inv.isShutdown r := by
  have accepted : (attempts inv.submitted).Accepted := by
    intro e
    simp [ready.submitted, h]
  rw [invoke_accepted accepted, ready.submitted, waitsWell_pending rfl, resolveSync_returned rfl h]
  refine ready.waitsWell_last rfl rfl (fun passed ↦ absurd passed (not_passedOver_returned h)) ?_
  have final : Final attempts inv.isShutdown r k ↔ ∀ e, v ≠ .exception e := by
    constructor
    · intro final e eq
      exact final.returned e (by rw [h, eq])
    · intro plain
      refine ⟨?_, ?_, ?_⟩
      · rintro ⟨e, error, -⟩
        simp [Attempt.error?, h] at error
      · rintro ⟨e, error, -⟩
        simp [Attempt.error?, h] at error
      · intro e eq
        rw [h, Attempt.returned.injEq] at eq
        exact plain e eq
  rw [final]
  cases v with
  | exception e => simp [RealOutcome, lastError, h]
  | none =>
    refine iff_of_true (.inl ⟨k, Nat.lt_succ_self k, h⟩) ?_
    rintro e ⟨⟩
  | some v =>
    refine iff_of_true (.inl ⟨k, Nat.lt_succ_self k, h⟩) ?_
    rintro e ⟨⟩

/-- What a retry is worth: the state in which the next submission is made ends well if the whole
invocation does. -/
def Retries (attempts : Nat → Attempt T) (r k : Nat) (inv : ActorInvocation T) : Prop :=
  ∀ result, 0 < inv.retryCount →
    Ready attempts r (k + 1)
      { inv with result, retryCount := inv.retryCount - 1, submitted := inv.submitted + 1 } →
    ((invoke attempts { inv with
      result, retryCount := inv.retryCount - 1, submitted := inv.submitted + 1 }).WaitsWell
        attempts r ↔ EndsWell attempts inv.isShutdown r)

theorem waitsWell_raised (ready : Ready attempts r k inv) (retries : Retries attempts r k inv)
    {e : PyException} (h : attempts k = .raised e) :
    (inv.invoke attempts).WaitsWell attempts r ↔ EndsWell attempts inv.isShutdown r := by
  have accepted : (attempts inv.submitted).Accepted := by
    intro e'
    simp [ready.submitted, h]
  have error : (attempts k).error? = some e := by rw [h]; rfl
  rw [invoke_accepted accepted, ready.submitted, waitsWell_pending rfl, resolveSync_raised rfl h,
    handleException]
  cases cls : e.cls with
  | actorDiedError =>
    by_cases shutdown : inv.isShutdown
    · simp only
      rw [if_pos (by exact shutdown)]
      exact ready.waitsWell_shutdown rfl rfl error cls shutdown shutdown
    · -- the reference stays what it was, and so the loop goes on
      simp only
      rw [if_neg (by exact shutdown)]
      refine iff_of_false (EndsWith.not_of_fixed rfl ?_) ?_
      · rw [resolveSync_raised rfl h, handleException, cls]
        simp only
        rw [if_neg (by exact shutdown)]
      · rw [endsWell_iff ready.before ready.le, final_error_iff error]
        · exact fun final ↦ shutdown (final.2 cls)
        · rintro (u | ⟨-, -, refused, -⟩)
          · rw [unavailable_iff error, cls] at u
            cases u
          · exact absurd (by simpa [ready.submitted] using accepted) refused
  | actorUnavailableError =>
    have passed : PassedOver attempts inv.isShutdown k := .inl ((unavailable_iff error).mpr cls)
    simp only
    split
    · next left =>
      have next := ready.next left passed (.inr ⟨rfl, e, h, cls⟩)
      have worth := retries _ left next
      rwa [ready.submitted] at worth
    · next left =>
      refine ready.waitsWell_error rfl rfl error ?_ (fun _ ↦ ready.last left) ?_
      · simp [lastError, h, reported, cls]
      · rw [cls]
        exact fun died ↦ absurd died (by decide)
  | rayTaskError =>
    refine ready.waitsWell_error rfl rfl error ?_ ?_ ?_
    · simp [lastError, h, reported]
    · simp [cls]
    · simp [cls]
  | other name =>
    refine ready.waitsWell_error rfl rfl error ?_ ?_ ?_
    · simp [lastError, h, reported, cls]
    · simp [cls]
    · simp [cls]

/-- The submission found the actor dead, and the handler leaves `_result` as it was: `None` at
first, then the reference of an earlier submission, which is resolved once more. -/
theorem waitsWell_refused_died (ready : Ready attempts r k inv)
    (retries : Retries attempts r k inv) {e : PyException} (h : attempts k = .refused e)
    (cls : e.cls = .actorDiedError) (not_shutdown : ¬inv.isShutdown) :
    WaitsWell attempts r { inv with submitted := inv.submitted + 1 } ↔
      EndsWell attempts inv.isShutdown r := by
  have error : (attempts k).error? = some e := by rw [h]; rfl
  have count := ready.count
  have refused : ¬(attempts k).Accepted := fun accepted ↦ accepted e h
  have not_final : ¬Final attempts inv.isShutdown r k := fun final ↦
    not_shutdown (((final_error_iff error).mp final).2 cls)
  rcases ready.reference with ⟨none, all⟩ | ⟨i, hi, ref, e', raised, cls'⟩
  · refine ready.waitsWell_last none count ?_ (iff_of_false ?_ not_final)
    · rintro (u | ⟨-, -, -, i, hi, accepted⟩)
      · rw [unavailable_iff error, cls] at u
        cases u
      · exact absurd accepted (all i hi)
    · rw [RealOutcome]
      simp only [none]
      rintro (⟨j, hj, returned⟩ | ⟨-, shutdown, -⟩)
      · rw [ready.submitted] at hj
        rcases Nat.lt_succ_iff_lt_or_eq.mp hj with lt | rfl
        · exact not_passedOver_returned returned (ready.before j lt)
        · simp [h] at returned
      · exact not_shutdown shutdown
  · have accepted : (attempts i).Accepted := by
      intro e''
      simp [raised]
    have passed : PassedOver attempts inv.isShutdown k :=
      .inr ⟨not_shutdown, (died_iff error).mpr cls, refused, i, hi, accepted⟩
    have pending : { inv with submitted := inv.submitted + 1 }.result = .objectRef i := ref
    rw [waitsWell_pending pending, resolveSync_raised pending raised, handleException, cls']
    simp only
    split
    · next left => exact retries _ left (ready.next left passed (.inl ⟨rfl, refused⟩))
    · next left =>
      refine ready.waitsWell_last rfl count (fun _ ↦ ready.last left) (iff_of_false ?_ not_final)
      -- the error raised is the one of the earlier submission
      rw [realOutcome_exception rfl, lastError]
      simp only [ready.submitted, Nat.add_sub_cancel, h, Option.some_inj]
      rintro rfl
      rw [cls] at cls'
      cases cls'

theorem waitsWell_refused (ready : Ready attempts r k inv) (retries : Retries attempts r k inv)
    {e : PyException} (h : attempts k = .refused e) :
    (inv.invoke attempts).WaitsWell attempts r ↔ EndsWell attempts inv.isShutdown r := by
  have error : (attempts k).error? = some e := by rw [h]; rfl
  have count := ready.count
  have raises : ∀ t : ActorInvocation T, t.submitted = k + 1 → t.lastError attempts = some e := by
    intro t count
    simp [lastError, count, h]
  rw [invoke_refused (by rw [ready.submitted, h]), handleException]
  cases cls : e.cls with
  | actorDiedError =>
    simp only [ErrorClass.isRayActorError, if_true]
    split
    · next shutdown =>
      exact ready.waitsWell_shutdown rfl count error cls shutdown shutdown
    · next not_shutdown =>
      exact ready.waitsWell_refused_died retries h cls not_shutdown
  | actorUnavailableError =>
    have passed : PassedOver attempts inv.isShutdown k := .inl ((unavailable_iff error).mpr cls)
    have refused : ¬(attempts k).Accepted := fun accepted ↦ accepted e h
    simp only [ErrorClass.isRayActorError, if_true]
    split
    · next left => exact retries _ left (ready.next left passed (.inl ⟨rfl, refused⟩))
    · next left =>
      refine ready.waitsWell_error rfl count error (raises _ count) (fun _ ↦ ready.last left) ?_
      simp [cls]
  | rayTaskError =>
    exact ready.waitsWell_error rfl count error (raises _ count) (by simp [cls]) (by simp [cls])
  | other name =>
    exact ready.waitsWell_error rfl count error (raises _ count) (by simp [cls]) (by simp [cls])

/-- One submission, whatever comes of it. -/
theorem waitsWell_of_retries (ready : Ready attempts r k inv)
    (retries : Retries attempts r k inv) :
    (inv.invoke attempts).WaitsWell attempts r ↔ EndsWell attempts inv.isShutdown r := by
  cases h : attempts k with
  | refused e => exact ready.waitsWell_refused retries h
  | returned v => exact ready.waitsWell_returned h
  | raised e => exact ready.waitsWell_raised retries h

/-- Submissions follow each other until the retries are used up. -/
theorem waitsWell_invoke (ready : Ready attempts r k inv) :
    (inv.invoke attempts).WaitsWell attempts r ↔ EndsWell attempts inv.isShutdown r := by
  induction retries : inv.retryCount generalizing inv k with
  | zero =>
    apply ready.waitsWell_of_retries
    intro _ left
    rw [retries] at left
    exact absurd left (Nat.lt_irrefl 0)
  | succ n ih =>
    apply ready.waitsWell_of_retries
    intro result _ next
    exact ih next (by simp [retries])

end Ready

end Wait

/-- Waiting for an invocation gives its real outcome exactly if the last submission neither died nor
returned an exception object. -/
theorem wait_iff (actorName methodName displayName : String) (retries : Nat) :
    (init attempts actorName methodName displayName retries).WaitsWell attempts retries ↔
      EndsWell attempts (methodName = "__ray_terminate__" ∨ methodName = "shutdown") retries :=
  (Ready.start actorName methodName displayName retries).waitsWell_invoke

/-- An actor that is dead when the call is submitted gives the value `None`, and one that dies
before the call is resolved is waited for without an end. -/
theorem dead_actor_not_waitsWell :
    (∃ attempts : Nat → Attempt Nat,
      (init attempts "w0" "run" "run" 3).result = .settled .none ∧
        ¬(init attempts "w0" "run" "run" 3).WaitsWell attempts 3) ∧
      ∃ attempts : Nat → Attempt Nat,
        ¬∃ t, Loop pending (resolveSync attempts) (init attempts "w0" "run" "run" 3) t := by
  constructor
  · refine ⟨fun _ ↦ .refused ⟨.actorDiedError, "w0 died"⟩, rfl, ?_⟩
    rw [waitsWell_settled rfl]
    rintro ⟨-, ⟨k, -, returned⟩ | ⟨-, shutdown, -⟩⟩
    · cases returned
    · exact absurd shutdown (by decide)
  · let attempts : Nat → Attempt Nat := fun _ ↦ .raised ⟨.actorDiedError, "w0 died"⟩
    have endless : ¬EndsWith pending (resolveSync attempts) (fun _ ↦ True)
        (init attempts "w0" "run" "run" 3) := EndsWith.not_of_fixed rfl rfl
    exact ⟨attempts, fun ⟨t, loop⟩ ↦ endless ⟨t, loop, trivial⟩⟩

end ActorInvocation

end ProbingBaselines.Dlrover
