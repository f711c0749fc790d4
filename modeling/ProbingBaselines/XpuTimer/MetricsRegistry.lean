import Mathlib.Data.List.Perm.Basic
import Mathlib.Logic.Function.Basic
import ProbingBaselines.Lib.Run

/-!
# Registered metrics

A rank's `MetricsManager` registers a bucket with the daemon when it creates it and deregisters
it when it has seen no push for a while (`common/bvar_prometheus.cc:114-184`). Registration is a
synchronous call; deregistration and pushes are messages that may be delayed and overtaken. The
daemon keeps a service for each registered name, and the gauges it refers to
(`server/hosting_service_server_client.cc:109-152`, `:234-277`, `:320-339`). A step is a call of
the manager, made under its mutex, or the delivery of a message.
-/

namespace ProbingBaselines.XpuTimer

open Lib

abbrev Labels := List (String × String)

/-- The types of bucketed metrics; `common/constant.h:38-56`. -/
inductive MetricType where
  | coll
  | mm
  deriving DecidableEq

namespace MetricType

/-- The number of gauges of a service. -/
def cap : MetricType → Nat
  | coll => 5
  | mm => 5

end MetricType

/-! ### The daemon -/

/-- A `LocalPrometheusService`; `gauges` is the address of its array in `all_gauges_`. -/
structure PrometheusService where
  type : MetricType
  gauges : Nat
  deriving DecidableEq

/-- What the daemon keeps for one local rank. `families` are the gauges alive, by type, index and
labels; `arrays` the gauge pointers at each address. -/
structure Daemon where
  services : String → Option PrometheusService
  allGauges : String → Option Nat
  arrays : Nat → List Nat
  families : MetricType × Nat × Labels → Option Nat
  values : Nat → Int
  nextArray : Nat
  nextGauge : Nat

namespace Daemon

def init : Daemon where
  services := fun _ ↦ none
  allGauges := fun _ ↦ none
  arrays := fun _ ↦ []
  families := fun _ ↦ none
  values := fun _ ↦ 0
  nextArray := 0
  nextGauge := 0

/-- `Family::Add`: the gauge with these labels, made if there is none. -/
def add (d : Daemon) (key : MetricType × Nat × Labels) : Nat × Daemon :=
  match d.families key with
  | some g => (g, d)
  | none => (d.nextGauge,
      { d with
        families := Function.update d.families key (some d.nextGauge)
        nextGauge := d.nextGauge + 1 })

/-- The gauges of a new service, one for each index below `cap`. -/
def addAll (d : Daemon) (type : MetricType) (label : Labels) : Nat → List Nat × Daemon
  | 0 => ([], d)
  | i + 1 =>
    let (gs, d) := d.addAll type label i
    let (g, d) := d.add (type, i, label)
    (gs ++ [g], d)

/-- `Family::Remove` of the gauges of an array. -/
def remove (d : Daemon) (gs : List Nat) : Daemon :=
  { d with families := fun key ↦ (d.families key).filter fun g ↦ g ∉ gs }

/-- The constructor; `hosting_service_server_client.cc:109-134`. -/
def construct (d : Daemon) (name : String) (type : MetricType) (label : Labels) :
    PrometheusService × Daemon :=
  let (gauges, d) := match d.allGauges name with
    | some e => (e, d)
    | none => (d.nextArray,
        { d with
          allGauges := Function.update d.allGauges name (some d.nextArray)
          nextArray := d.nextArray + 1 })
  let (gs, d) := d.addAll type label type.cap
  (⟨type, gauges⟩, { d with arrays := Function.update d.arrays gauges gs })

/-- The destructor: it erases the key, then removes the gauges that the erased array pointed to;
`hosting_service_server_client.cc:144-152`. -/
def destroy (d : Daemon) (name : String) (service : PrometheusService) : Daemon :=
  { d with allGauges := Function.update d.allGauges name none }.remove (d.arrays service.gauges)

/-- `insert` into a map that holds the name already discards the new service;
`hosting_service_server_client.cc:234-262`. -/
def registerPrometheus (d : Daemon) (name : String) (type : MetricType) (label : Labels) : Daemon :=
  let (service, d) := d.construct name type label
  match d.services name with
  | some _ => d.destroy name service
  | none => { d with services := Function.update d.services name (some service) }

/-- `hosting_service_server_client.cc:264-277`. -/
def pushPrometheus (d : Daemon) (name : String) (values : List Int) : Daemon :=
  match d.services name with
  | some service =>
    { d with values := fun g ↦
      match (d.arrays service.gauges).idxOf? g with
      | some i => values.getD i (d.values g)
      | none => d.values g }
  | none => d

/-- `hosting_service_server_client.cc:320-339`. -/
def deRegisterPrometheus (d : Daemon) (name : String) : Daemon :=
  match d.services name with
  | some service =>
    { d with services := Function.update d.services name none }.destroy name service
  | none => d

/-- A live service whose gauges can be pushed to: its array is the one kept under its name, and
every gauge in it is alive. -/
def Valid (d : Daemon) (name : String) : Prop :=
  ∃ service, d.services name = some service ∧ d.allGauges name = some service.gauges ∧
    (d.arrays service.gauges).length = service.type.cap ∧
    ∀ g ∈ d.arrays service.gauges, ∃ key, d.families key = some g

end Daemon

/-! ### The rank -/

/-- A message on its way to the daemon. -/
inductive MetricMessage where
  | deRegister (name : String)
  | push (name : String) (values : List Int)
  deriving DecidableEq

/-- A bucket's metrics, `ThroughPutSumMetrics`. -/
structure BucketMetrics where
  type : MetricType
  label : Labels

/-- A call of `updateMatCommuMetrics` with what depends on the clock and on measured durations:
the answers of `canPush` of the kernel's and the bucket's metrics, the bucket and the labels that
`computeBucket` gives, and the values pushed. -/
structure MetricUpdate where
  name : String
  type : MetricType
  canPush : Bool
  bucket : String
  label : Labels
  canPushSum : Bool
  values : List Int

/-- The rank's `MetricsManager`, its messages in flight and the daemon. -/
structure MetricsSystem where
  matCommMetrics : List String
  throughputSumMetrics : String → Option BucketMetrics
  timeoutMetrics : List String
  inFlight : List MetricMessage
  daemon : Daemon

inductive MetricAct where
  | update (u : MetricUpdate)
  | deregister (isTimeout : String → Bool)
  | deliver (i : Nat)

namespace MetricsSystem

def init : MetricsSystem := ⟨[], fun _ ↦ none, [], [], .init⟩

/-- The bucket that an update creates. -/
def registers (s : MetricsSystem) (u : MetricUpdate) : Bool :=
  u.name ∈ s.matCommMetrics && u.canPush && (s.throughputSumMetrics u.bucket).isNone

/-- `updateMatCommuMetrics`; `common/bvar_prometheus.cc:114-151`. -/
def updateMatCommuMetrics (s : MetricsSystem) (u : MetricUpdate) : MetricsSystem :=
  if u.name ∈ s.matCommMetrics then
    if u.canPush then
      match s.throughputSumMetrics u.bucket with
      | some _ =>
        if u.canPushSum then { s with inFlight := s.inFlight ++ [.push u.bucket u.values] } else s
      | none =>
        { s with
          throughputSumMetrics :=
            Function.update s.throughputSumMetrics u.bucket (some ⟨u.type, u.label⟩)
          timeoutMetrics := s.timeoutMetrics.insert u.bucket
          daemon := s.daemon.registerPrometheus u.bucket u.type u.label }
    else s
  else
    { s with
      timeoutMetrics := s.timeoutMetrics.insert u.name
      matCommMetrics := s.matCommMetrics ++ [u.name] }

/-- One timed out name; `common/bvar_prometheus.cc:167-175`. -/
def dropMetrics (s : MetricsSystem) (name : String) : MetricsSystem :=
  { s with
    inFlight := match s.throughputSumMetrics name with
      | some _ => s.inFlight ++ [MetricMessage.deRegister name]
      | none => s.inFlight
    timeoutMetrics := s.timeoutMetrics.erase name
    matCommMetrics := s.matCommMetrics.erase name
    throughputSumMetrics := Function.update s.throughputSumMetrics name none }

/-- `deregisterMetrics`; `common/bvar_prometheus.cc:159-184`. -/
def deregisterMetrics (s : MetricsSystem) (isTimeout : String → Bool) : MetricsSystem :=
  (s.timeoutMetrics.filter isTimeout).foldl dropMetrics s

/-- The daemon handles a message. -/
def handle (s : MetricsSystem) : MetricMessage → MetricsSystem
  | .deRegister name => { s with daemon := s.daemon.deRegisterPrometheus name }
  | .push name values => { s with daemon := s.daemon.pushPrometheus name values }

def step (s : MetricsSystem) : MetricAct → Option MetricsSystem
  | .update u => some (s.updateMatCommuMetrics u)
  | .deregister isTimeout => some (s.deregisterMetrics isTimeout)
  | .deliver i =>
    match s.inFlight[i]? with
    | some msg => some (handle { s with inFlight := s.inFlight.eraseIdx i } msg)
    | none => none

/-- No bucket is created again while its last deregistration is in flight. -/
def Settled (s : MetricsSystem) : MetricAct → Prop
  | .update u => s.registers u = true → MetricMessage.deRegister u.bucket ∉ s.inFlight
  | _ => True

instance (s : MetricsSystem) (a : MetricAct) : Decidable (s.Settled a) :=
  match a with
  | .update u =>
    inferInstanceAs (Decidable (s.registers u = true →
      MetricMessage.deRegister u.bucket ∉ s.inFlight))
  | .deregister _ => .isTrue trivial
  | .deliver _ => .isTrue trivial

/-! ### What a step does -/

theorem updateMatCommuMetrics_cases (s : MetricsSystem) (u : MetricUpdate) :
    (s.registers u = true ∧ (s.throughputSumMetrics u.bucket).isNone ∧
      s.updateMatCommuMetrics u =
        { s with
          throughputSumMetrics :=
            Function.update s.throughputSumMetrics u.bucket (some ⟨u.type, u.label⟩)
          timeoutMetrics := s.timeoutMetrics.insert u.bucket
          daemon := s.daemon.registerPrometheus u.bucket u.type u.label }) ∨
    (∃ msgs, (∀ name, MetricMessage.deRegister name ∉ msgs) ∧
      (s.updateMatCommuMetrics u).throughputSumMetrics = s.throughputSumMetrics ∧
      (s.updateMatCommuMetrics u).inFlight = s.inFlight ++ msgs ∧
      (s.updateMatCommuMetrics u).daemon = s.daemon) := by
  unfold updateMatCommuMetrics registers
  by_cases known : u.name ∈ s.matCommMetrics
  · by_cases push : u.canPush = true
    · cases h : s.throughputSumMetrics u.bucket with
      | none => simp [known, push]
      | some m =>
        right
        by_cases sum : u.canPushSum = true
        · exact ⟨[.push u.bucket u.values], by simp, by simp [known, push, sum]⟩
        · exact ⟨[], by simp, by simp [known, push, sum]⟩
    · right
      exact ⟨[], by simp, by simp [known, push]⟩
  · right
    exact ⟨[], by simp, by simp [known]⟩

end MetricsSystem

namespace Daemon

/-! ### Adding gauges removes none -/

theorem add_families (d : Daemon) (key key' : MetricType × Nat × Labels) {g : Nat}
    (h : d.families key' = some g) : (d.add key).2.families key' = some g := by
  unfold add
  cases hk : d.families key with
  | some _ => exact h
  | none =>
    have ne : key' ≠ key := by
      rintro rfl
      rw [h] at hk
      contradiction
    simp [ne, h]

/-- What adding gauges leaves alone. -/
structure Grows (d e : Daemon) : Prop where
  services : e.services = d.services
  allGauges : e.allGauges = d.allGauges
  arrays : e.arrays = d.arrays
  nextArray : e.nextArray = d.nextArray
  families : ∀ key g, d.families key = some g → e.families key = some g

theorem Grows.trans {d e f : Daemon} (h : Grows d e) (h' : Grows e f) : Grows d f where
  services := h'.services.trans h.services
  allGauges := h'.allGauges.trans h.allGauges
  arrays := h'.arrays.trans h.arrays
  nextArray := h'.nextArray.trans h.nextArray
  families key g hg := h'.families key g (h.families key g hg)

theorem add_grows (d : Daemon) (key : MetricType × Nat × Labels) : Grows d (d.add key).2 := by
  have frame : (d.add key).2.services = d.services ∧ (d.add key).2.allGauges = d.allGauges ∧
      (d.add key).2.arrays = d.arrays ∧ (d.add key).2.nextArray = d.nextArray := by
    unfold add
    cases d.families key <;> simp
  exact ⟨frame.1, frame.2.1, frame.2.2.1, frame.2.2.2, fun key' _ h ↦ d.add_families key key' h⟩

theorem addAll_grows (d : Daemon) (type : MetricType) (label : Labels) (n : Nat) :
    Grows d (d.addAll type label n).2 := by
  induction n with
  | zero => exact ⟨rfl, rfl, rfl, rfl, fun _ _ h ↦ h⟩
  | succ n ih => exact ih.trans (add_grows _ _)

/-- What the registration of a new name does: its array has a fresh address. -/
theorem registerPrometheus_new (d : Daemon) (name : String) (type : MetricType) (label : Labels)
    (noService : d.services name = none) (noGauges : d.allGauges name = none) :
    ∃ gs,
      (d.registerPrometheus name type label).services =
        Function.update d.services name (some ⟨type, d.nextArray⟩) ∧
      (d.registerPrometheus name type label).allGauges =
        Function.update d.allGauges name (some d.nextArray) ∧
      (d.registerPrometheus name type label).arrays = Function.update d.arrays d.nextArray gs ∧
      (d.registerPrometheus name type label).nextArray = d.nextArray + 1 ∧
      ∀ key g, d.families key = some g →
        (d.registerPrometheus name type label).families key = some g := by
  have grows := addAll_grows
    { d with
      allGauges := Function.update d.allGauges name (some d.nextArray)
      nextArray := d.nextArray + 1 } type label type.cap
  have services := grows.services
  simp only at services
  refine ⟨(addAll
    { d with
      allGauges := Function.update d.allGauges name (some d.nextArray)
      nextArray := d.nextArray + 1 } type label type.cap).1, ?_⟩
  simp only [registerPrometheus, construct, noGauges, services, noService, grows.allGauges,
    grows.arrays, grows.nextArray, true_and]
  exact grows.families

/-- A new name takes no gauge from another service. -/
theorem Valid.registerPrometheus {d : Daemon} {c name : String} (valid : d.Valid c)
    (type : MetricType) (label : Labels) (noService : d.services name = none)
    (noGauges : d.allGauges name = none)
    (fresh : ∀ b e, d.allGauges b = some e → e < d.nextArray) :
    (d.registerPrometheus name type label).Valid c := by
  rcases valid with ⟨service, live, kept, cap, alive⟩
  rcases registerPrometheus_new d name type label noService noGauges with
    ⟨gs, services, allGauges, arrays, -, families⟩
  have other : c ≠ name := by
    rintro rfl
    rw [live] at noService
    contradiction
  have address : service.gauges ≠ d.nextArray := Nat.ne_of_lt (fresh c _ kept)
  refine ⟨service, ?_, ?_, ?_, ?_⟩
  · rw [services, Function.update_of_ne other, live]
  · rw [allGauges, Function.update_of_ne other, kept]
  · rw [arrays, Function.update_of_ne address, cap]
  · intro g hg
    rw [arrays, Function.update_of_ne address] at hg
    rcases alive g hg with ⟨key, hkey⟩
    exact ⟨key, families key g hkey⟩

end Daemon

namespace MetricsSystem

/-! ### Agreement -/

/-- The daemon serves the rank's buckets and those whose deregistration is on its way. -/
structure Agreement (s : MetricsSystem) : Prop where
  served : ∀ b, (s.daemon.services b).isSome ↔
    (s.throughputSumMetrics b).isSome ∨ MetricMessage.deRegister b ∈ s.inFlight
  live : ∀ b, (s.throughputSumMetrics b).isSome → MetricMessage.deRegister b ∉ s.inFlight
  once : ∀ b, s.inFlight.count (MetricMessage.deRegister b) ≤ 1
  owned : ∀ b, (s.daemon.allGauges b).isSome → (s.daemon.services b).isSome
  fresh : ∀ b e, s.daemon.allGauges b = some e → e < s.daemon.nextArray

theorem init_agreement : Agreement init := by
  constructor <;> simp [init, Daemon.init]

/-- A bucket about to be created, with no deregistration in flight, is unknown to the daemon. -/
theorem Agreement.unknown {s : MetricsSystem} (h : Agreement s) {b : String}
    (new : (s.throughputSumMetrics b).isNone) (quiet : MetricMessage.deRegister b ∉ s.inFlight) :
    s.daemon.services b = none ∧ s.daemon.allGauges b = none := by
  have noService : s.daemon.services b = none := by
    rw [← Option.not_isSome_iff_eq_none, h.served b]
    rintro (known | sent)
    · rw [Option.isNone_iff_eq_none.mp new] at known
      contradiction
    · exact quiet sent
  have noGauges : s.daemon.allGauges b = none := by
    rw [← Option.not_isSome_iff_eq_none]
    intro known
    have := h.owned b known
    rw [noService] at this
    contradiction
  exact ⟨noService, noGauges⟩

theorem Agreement.update {s : MetricsSystem} (h : Agreement s) (u : MetricUpdate)
    (settled : s.Settled (.update u)) : Agreement (s.updateMatCommuMetrics u) := by
  rcases updateMatCommuMetrics_cases s u with ⟨registers, new, eq⟩ | ⟨msgs, pushes, sums, sent, eq⟩
  · -- a new bucket: the synchronous registration finds its name free
    have quiet := settled registers
    rcases h.unknown new quiet with ⟨noService, noGauges⟩
    rcases s.daemon.registerPrometheus_new u.bucket u.type u.label noService noGauges with
      ⟨gs, services, allGauges, -, nextArray, -⟩
    rw [eq]
    constructor
    · intro b
      simp only [services]
      by_cases hb : b = u.bucket
      · subst hb
        simp
      · simp [hb, h.served b]
    · intro b known
      simp only at known ⊢
      by_cases hb : b = u.bucket
      · rw [hb]
        exact quiet
      · rw [Function.update_of_ne hb] at known
        exact h.live b known
    · exact h.once
    · intro b known
      simp only [allGauges, services] at known ⊢
      by_cases hb : b = u.bucket
      · subst hb
        simp
      · rw [Function.update_of_ne hb] at known ⊢
        exact h.owned b known
    · intro b e he
      simp only [allGauges, nextArray] at he ⊢
      by_cases hb : b = u.bucket
      · subst hb
        simp at he
        omega
      · rw [Function.update_of_ne hb] at he
        have := h.fresh b e he
        omega
  · -- the daemon is left alone, and only pushes are sent
    have same : ∀ b, MetricMessage.deRegister b ∈ s.inFlight ++ msgs ↔
        MetricMessage.deRegister b ∈ s.inFlight := by
      intro b
      simp [pushes b]
    constructor
    · intro b
      rw [eq, sums, sent, same]
      exact h.served b
    · intro b
      rw [sums, sent, same]
      exact h.live b
    · intro b
      rw [sent, List.count_append, List.count_eq_zero.mpr (pushes b)]
      exact h.once b
    · rw [eq]
      exact h.owned
    · rw [eq]
      exact h.fresh

theorem Agreement.dropMetrics {s : MetricsSystem} (h : Agreement s) (name : String) :
    Agreement (s.dropMetrics name) := by
  cases known : s.throughputSumMetrics name with
  | none =>
    have same : Function.update s.throughputSumMetrics name none = s.throughputSumMetrics := by
      rw [← known]
      exact Function.update_eq_self name _
    simp only [MetricsSystem.dropMetrics, known, same]
    exact ⟨h.served, h.live, h.once, h.owned, h.fresh⟩
  | some m =>
    have quiet := h.live name (by rw [known]; rfl)
    simp only [MetricsSystem.dropMetrics, known]
    constructor
    · intro b
      by_cases hb : b = name
      · subst hb
        simp [h.served b, known]
      · simp [hb, h.served b]
    · intro b hlive
      by_cases hb : b = name
      · subst hb
        simp at hlive
      · simp only [Function.update_of_ne hb] at hlive
        simp [hb, h.live b hlive]
    · intro b
      by_cases hb : b = name
      · subst hb
        simp [List.count_append, List.count_eq_zero.mpr quiet]
      · have ne : MetricMessage.deRegister name ≠ MetricMessage.deRegister b := by
          intro eq
          exact hb (MetricMessage.deRegister.inj eq).symm
        simp only [List.count_append, List.count_singleton, beq_iff_eq, ne, if_false]
        exact h.once b
    · exact h.owned
    · exact h.fresh

theorem Agreement.deregisterMetrics {s : MetricsSystem} (h : Agreement s)
    (isTimeout : String → Bool) : Agreement (s.deregisterMetrics isTimeout) := by
  have fold : ∀ (names : List String) (t : MetricsSystem), Agreement t →
      Agreement (names.foldl MetricsSystem.dropMetrics t) := by
    intro names
    induction names with
    | nil => exact fun t ht ↦ ht
    | cons name names ih => exact fun t ht ↦ ih _ (ht.dropMetrics name)
  exact fold _ s h

/-- The messages in flight are the delivered one and the rest. -/
theorem inFlight_perm {msgs : List MetricMessage} {i : Nat} {msg : MetricMessage}
    (h : msgs[i]? = some msg) : (msg :: msgs.eraseIdx i).Perm msgs := by
  rcases List.getElem?_eq_some_iff.mp h with ⟨lt, rfl⟩
  exact List.getElem_cons_eraseIdx_perm lt

theorem pushPrometheus_frame (d : Daemon) (name : String) (values : List Int) :
    (d.pushPrometheus name values).services = d.services ∧
    (d.pushPrometheus name values).allGauges = d.allGauges ∧
    (d.pushPrometheus name values).nextArray = d.nextArray := by
  unfold Daemon.pushPrometheus
  cases d.services name <;> simp

theorem Agreement.deliver {s : MetricsSystem} (h : Agreement s) {i : Nat} {msg : MetricMessage}
    (hi : s.inFlight[i]? = some msg) :
    Agreement (handle { s with inFlight := s.inFlight.eraseIdx i } msg) := by
  have perm := inFlight_perm hi
  have mem : ∀ b, MetricMessage.deRegister b ∈ s.inFlight ↔
      MetricMessage.deRegister b = msg ∨ MetricMessage.deRegister b ∈ s.inFlight.eraseIdx i := by
    intro b
    rw [← perm.mem_iff, List.mem_cons]
  have count : ∀ b, (s.inFlight.eraseIdx i).count (MetricMessage.deRegister b) ≤
      s.inFlight.count (MetricMessage.deRegister b) := by
    intro b
    rw [← perm.count_eq, List.count_cons]
    omega
  cases msg with
  | push name values =>
    rcases pushPrometheus_frame s.daemon name values with ⟨services, allGauges, nextArray⟩
    constructor
    · intro b
      simp only [handle, services]
      rw [h.served b, mem b]
      simp
    · intro b known sent
      exact h.live b known ((mem b).mpr (.inr sent))
    · intro b
      exact Nat.le_trans (count b) (h.once b)
    · simp only [handle, services, allGauges]
      exact h.owned
    · simp only [handle, allGauges, nextArray]
      exact h.fresh
  | deRegister name =>
    have sent : MetricMessage.deRegister name ∈ s.inFlight := (mem name).mpr (.inl rfl)
    -- it was the only deregistration of the name, which the rank has dropped
    have last : MetricMessage.deRegister name ∉ s.inFlight.eraseIdx i := by
      have le := h.once name
      rw [← perm.count_eq, List.count_cons_self] at le
      exact List.count_eq_zero.mp (by omega)
    have dropped : s.throughputSumMetrics name = none := by
      rw [← Option.not_isSome_iff_eq_none]
      exact fun known ↦ h.live name known sent
    rcases Option.isSome_iff_exists.mp ((h.served name).mpr (.inr sent)) with ⟨service, known⟩
    constructor
    · intro b
      simp only [handle, Daemon.deRegisterPrometheus, known, Daemon.destroy, Daemon.remove]
      by_cases hb : b = name
      · subst hb
        simp [dropped, last]
      · simp only [Function.update_of_ne hb]
        rw [h.served b, mem b]
        simp [hb]
    · intro b hlive gone
      exact h.live b hlive ((mem b).mpr (.inr gone))
    · intro b
      exact Nat.le_trans (count b) (h.once b)
    · intro b
      simp only [handle, Daemon.deRegisterPrometheus, known, Daemon.destroy, Daemon.remove]
      by_cases hb : b = name
      · subst hb
        simp
      · simp only [Function.update_of_ne hb]
        exact h.owned b
    · intro b e
      simp only [handle, Daemon.deRegisterPrometheus, known, Daemon.destroy, Daemon.remove]
      by_cases hb : b = name
      · subst hb
        simp
      · simp only [Function.update_of_ne hb]
        exact h.fresh b e

theorem step_agreement (s t : MetricsSystem) (a : MetricAct) (h : Agreement s)
    (settled : s.Settled a) (taken : step s a = some t) : Agreement t := by
  cases a with
  | update u =>
    cases taken
    exact h.update u settled
  | deregister isTimeout =>
    cases taken
    exact h.deregisterMetrics isTimeout
  | deliver i =>
    simp only [step] at taken
    split at taken
    · next msg hi =>
      cases taken
      exact h.deliver hi
    · contradiction

/-- In a run in which no bucket is created again while its deregistration is in flight, the daemon
serves exactly the rank's buckets when every message is delivered, and a registration leaves the
gauges of the live services valid. -/
theorem metrics_agree {acts : List MetricAct} {s : MetricsSystem}
    (run : Run step Settled init acts s) :
    (s.inFlight = [] → ∀ b,
      (s.daemon.services b).isSome ↔ (s.throughputSumMetrics b).isSome) ∧
    ∀ u, s.Settled (.update u) → ∀ c, s.daemon.Valid c →
      (s.updateMatCommuMetrics u).daemon.Valid c := by
  have agreement : Agreement s := run.invariant init_agreement step_agreement
  constructor
  · intro delivered b
    rw [agreement.served b, delivered]
    simp
  · intro u settled c valid
    rcases updateMatCommuMetrics_cases s u with ⟨registers, new, eq⟩ | ⟨-, -, -, -, eq⟩
    · rcases agreement.unknown new (settled registers) with ⟨noService, noGauges⟩
      rw [eq]
      exact valid.registerPrometheus u.type u.label noService noGauges agreement.fresh
    · rw [eq]
      exact valid

/-- The kernel is known and pushes into bucket `b`. -/
def pushInto (canPush : Bool) : MetricUpdate :=
  ⟨"k", .mm, canPush, "b", [("bucket", "b")], false, []⟩

/-- A bucket dropped, its deregistration delivered, and then created again. -/
def recreated : List MetricAct :=
  [.update (pushInto false), .update (pushInto true), .deregister fun name ↦ name == "b",
    .deliver 0, .update (pushInto true)]

theorem metrics_agree_recreated : ∃ s, Run step Settled init recreated s ∧
    (s.throughputSumMetrics "b").isSome ∧ (s.daemon.services "b").isSome := by
  have eval : (recreated.foldlM (fun s a ↦ if Settled s a then step s a else none) init).map
      (fun s ↦ decide (s.inFlight = [] ∧ (s.throughputSumMetrics "b").isSome)) = some true := by
    decide +kernel
  rcases Option.map_eq_some_iff.mp eval with ⟨s, hs, holds⟩
  have run := run_of_guarded hs
  rcases of_decide_eq_true holds with ⟨delivered, known⟩
  exact ⟨s, run, known, ((metrics_agree run).1 delivered "b").mpr known⟩

/-- Up to the drop of bucket `b`, with the deregistration still in flight. -/
def overtaken : List MetricAct :=
  [.update (pushInto false), .update (pushInto true), .deregister fun name ↦ name == "b"]

/-- Bucket `b` is served by the first gauges made. -/
def ServedFirst (d : Daemon) : Prop :=
  d.services "b" = some ⟨.mm, 0⟩ ∧ d.allGauges "b" = some 0 ∧ d.arrays 0 = [0, 1, 2, 3, 4] ∧
    ∀ g ∈ [0, 1, 2, 3, 4], d.families (.mm, g, [("bucket", "b")]) = some g

instance (d : Daemon) : Decidable (ServedFirst d) :=
  inferInstanceAs (Decidable (_ ∧ _ ∧ _ ∧ ∀ g ∈ [0, 1, 2, 3, 4], _))

theorem ServedFirst.valid {d : Daemon} (h : ServedFirst d) : d.Valid "b" := by
  rcases h with ⟨service, kept, array, alive⟩
  refine ⟨⟨.mm, 0⟩, service, kept, ?_, ?_⟩
  · rw [array]
    rfl
  · rw [array]
    exact fun g hg ↦ ⟨_, alive g hg⟩

/-- A bucket created again before its deregistration arrives: the duplicate insert destroys the
gauges of the live service, and the late message then removes the service. -/
theorem metrics_disagree :
    (∃ s, Run step anyStep init overtaken s ∧ s.daemon.Valid "b" ∧
      ((s.updateMatCommuMetrics (pushInto true)).daemon.services "b").isSome ∧
      ¬ (s.updateMatCommuMetrics (pushInto true)).daemon.Valid "b") ∧
    ∃ s, Run step anyStep init
        (overtaken ++ [MetricAct.update (pushInto true), MetricAct.deliver 0]) s ∧
      s.inFlight = [] ∧ (s.throughputSumMetrics "b").isSome ∧
      (s.daemon.services "b").isNone := by
  constructor
  · have eval : (overtaken.foldlM step init).map (fun s ↦ decide (ServedFirst s.daemon ∧
        ((s.updateMatCommuMetrics (pushInto true)).daemon.services "b").isSome ∧
        (s.updateMatCommuMetrics (pushInto true)).daemon.allGauges "b" = none)) = some true := by
      decide +kernel
    rcases Option.map_eq_some_iff.mp eval with ⟨s, hs, holds⟩
    rcases of_decide_eq_true holds with ⟨first, live, erased⟩
    refine ⟨s, run_of_foldlM hs, first.valid, live, ?_⟩
    rintro ⟨_, -, kept, -⟩
    rw [erased] at kept
    contradiction
  · have eval : ((overtaken ++ [MetricAct.update (pushInto true), MetricAct.deliver 0]).foldlM
        step init).map (fun s ↦ decide (s.inFlight = [] ∧ (s.throughputSumMetrics "b").isSome ∧
          (s.daemon.services "b").isNone)) = some true := by
      decide +kernel
    rcases Option.map_eq_some_iff.mp eval with ⟨s, hs, holds⟩
    exact ⟨s, run_of_foldlM hs, of_decide_eq_true holds⟩

end MetricsSystem

end ProbingBaselines.XpuTimer
