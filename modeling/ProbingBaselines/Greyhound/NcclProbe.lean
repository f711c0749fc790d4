import Mathlib.Algebra.Order.Field.Rat
import Mathlib.Data.List.Induction
import Mathlib.Data.Rat.Floor
import ProbingBaselines.Greyhound.RecordRing

/-!
# The collective hooks of the probe

Source `greyhound-metax/detector/ncclprobe.cpp:75-513` and `detector/global_status.cpp:192-271`.
Every hook forwards its call to the real library and logs it; groups put their records in a
temporary buffer until they end. What the machine answers during a call (clock, device, process,
rank, elapsed time of the events) comes with the call. Durations are rationals where the source
has floats. `storageBuffer` is the list of the records added to the ring, in order.
-/

namespace ProbingBaselines.Greyhound

/-- The intercepted operations; `config.hpp:26-36`. -/
inductive NcclNumber where
  | send
  | recv
  | bcast
  | broadcast
  | allGather
  | reduceScatter
  | allReduce
  | invalid
  deriving DecidableEq

/-- `can_compress`; `ncclprobe.cpp:113-115`. -/
def NcclNumber.canCompress : NcclNumber → Bool
  | .allGather | .reduceScatter => true
  | _ => false

/-- `event_handler.hpp:18-23`. -/
inductive ControlState where
  | monitor
  | profile
  | validate
  deriving DecidableEq

/-- The fields of a parsed communicator that the probe reads; `shm_topo.hpp:21-33`. -/
structure Communicator where
  commAddr : Nat
  numDevices : Nat

/-- A record of the ring, less the event id that the push stamps; `shm_storage.hpp:11-14`. -/
structure Record where
  commAddr : Nat
  callNumber : NcclNumber
  count : Nat
  buff1Addr : Nat
  buff2Addr : Nat
  datatype : Nat
  pid : Nat
  callTime : Nat
  deviceId : Nat
  caller : Nat
  aux : Nat
  duration : Nat
  numDevices : Nat
  deriving DecidableEq

/-- What the machine answers during a hooked call; `elapsed` is in milliseconds. -/
structure CallEnv where
  callTime : Nat
  devId : Nat
  pid : Nat
  rank : Nat
  elapsed : ℚ

/-- The arguments of `log_event`; `ncclprobe.cpp:92-94`. -/
structure Call where
  buff1 : Nat
  buff2 : Nat
  count : Nat
  datatype : Nat
  comm : Nat
  stream : Nat
  number : NcclNumber
  aux : Nat
  env : CallEnv

/-- `ncclInt8` of the library's data types. -/
def ncclInt8 : Nat := 0

/-- `CHECK_PAUSE_MAGIC`; `ncclprobe.cpp:18`. -/
def checkPauseMagic : Nat := 503

/-- `MIN_RECORD_OP_SIZE`; `config.hpp:49`. -/
def minRecordOpSize : Nat := 1024

/-- `RECORD_TOO_SMALL`; `ncclprobe.cpp:19`. -/
def recordTooSmall (count : Nat) : Bool := count < minRecordOpSize

/-- `FLOAT_EQ`; `utils.hpp:7`. -/
def floatEq (a b : ℚ) : Bool := |a - b| < 1 / 10000

/-- A duration converted to `uint64_t`. -/
def wholeMicros (t : ℚ) : Nat := t.floor.toNat

/-- The devices of a communicator, zero if it is not known; `ncclprobe.cpp:127-132`. -/
def numDevices (known : List Communicator) (comm : Nat) : Nat :=
  match known.find? (·.commAddr = comm) with
  | some c => c.numDevices
  | none => 0

namespace Call

/-- The record of a call; `ncclprobe.cpp:159-165`. -/
def record (c : Call) (duration numdevs : Nat) : Record :=
  ⟨c.comm, c.number, c.count, c.buff1, c.buff2, c.datatype, c.env.pid, c.env.callTime,
    c.env.devId, c.env.rank, c.aux, duration, numdevs⟩

/-- `probe_send`; `ncclprobe.cpp:262-273`. -/
def send (sendbuff count datatype peer comm stream : Nat) (env : CallEnv) : Call :=
  ⟨sendbuff, 0, count, datatype, comm, stream, .send, peer, env⟩

/-- `probe_recv`; `ncclprobe.cpp:275-286`. -/
def recv (recvbuff count datatype peer comm stream : Nat) (env : CallEnv) : Call :=
  ⟨0, recvbuff, count, datatype, comm, stream, .recv, peer, env⟩

/-- `ncclBcast`; `ncclprobe.cpp:321-331`. -/
def bcast (buff count datatype root comm stream : Nat) (env : CallEnv) : Call :=
  ⟨buff, 0, count, datatype, comm, stream, .bcast, root, env⟩

/-- `ncclBroadcast`; `ncclprobe.cpp:334-344`. -/
def broadcast (sendbuff recvbuff count datatype root comm stream : Nat) (env : CallEnv) : Call :=
  ⟨sendbuff, recvbuff, count, datatype, comm, stream, .broadcast, root, env⟩

/-- `probe_allgather`; `ncclprobe.cpp:349-360`. -/
def allGather (sendbuff recvbuff count datatype comm stream : Nat) (env : CallEnv) : Call :=
  ⟨sendbuff, recvbuff, count, datatype, comm, stream, .allGather, 0, env⟩

/-- `probe_reducescatter`; `ncclprobe.cpp:381-392`. -/
def reduceScatter (sendbuff recvbuff count datatype op comm stream : Nat) (env : CallEnv) : Call :=
  ⟨sendbuff, recvbuff, count, datatype, comm, stream, .reduceScatter, op, env⟩

/-- `probe_allreduce`; `ncclprobe.cpp:413-428`. -/
def allReduce (sendbuff recvbuff count datatype op comm stream : Nat) (env : CallEnv) : Call :=
  ⟨sendbuff, recvbuff, count, datatype, comm, stream, .allReduce, op, env⟩

end Call

/-- The probe's state; `global_status.hpp:29-67`. `controlSignals` counts the calls of
`handle_control_signal`. -/
structure GlobalStatus where
  storageBuffer : List Record
  localComms : List Communicator
  commInGroup : Option Communicator
  state : ControlState
  currStream : Nat
  eventOp : NcclNumber
  hasEventsInGroup : Bool
  inGroup : Bool
  lastCallId : NcclNumber
  lastComm : Nat
  repeatedCallNum : Nat
  accumulatedCount : Nat
  accumulatedDuration : ℚ
  tmpRecordBuffer : List Record
  shouldCheck : Bool
  transparent : Bool
  controlSignals : Nat

/-- A hooked call other than those of a group; the communicator made by an init hook is given
as `parse_communicator` sees it. -/
inductive Hook where
  | call (c : Call)
  | commInit (comm : Communicator)

/-- A hooked call, or a whole group with the elapsed time measured at its end, in milliseconds,
and the state a control signal would set there. -/
inductive Item where
  | hook (h : Hook)
  | group (body : List Hook) (elapsed : ℚ) (signal : ControlState)

namespace GlobalStatus

/-- `initialize`; `global_status.cpp:25-125`. -/
def initialized : GlobalStatus where
  storageBuffer := []
  localComms := []
  commInGroup := none
  state := .monitor
  currStream := 0
  eventOp := .invalid
  hasEventsInGroup := false
  inGroup := false
  lastCallId := .invalid
  lastComm := 0
  repeatedCallNum := 0
  accumulatedCount := 0
  accumulatedDuration := 0
  tmpRecordBuffer := []
  shouldCheck := false
  transparent := false
  controlSignals := 0

/-- `reset_accumulation`; `global_status.cpp:192-199`. -/
def resetAccumulation (s : GlobalStatus) (lastCallNumber : NcclNumber) : GlobalStatus :=
  { s with
    repeatedCallNum := 0
    accumulatedCount := 0
    accumulatedDuration := 0
    lastComm := 0
    lastCallId := lastCallNumber }

/-- `update_accumulation`; `global_status.cpp:201-207`. -/
def updateAccumulation (s : GlobalStatus) (lastCallNumber : NcclNumber) (count tpComm : Nat) :
    GlobalStatus :=
  { s with
    repeatedCallNum := (s.repeatedCallNum + 1) % wordSize
    lastCallId := lastCallNumber
    lastComm := tpComm
    accumulatedCount := (s.accumulatedCount + count) % wordSize }

/-- `group_start`; `global_status.cpp:220-225`. -/
def groupStart (s : GlobalStatus) : GlobalStatus :=
  { s with inGroup := true, hasEventsInGroup := false, currStream := 0 }

/-- `group_end`; `global_status.cpp:228-233`. -/
def groupEnd (s : GlobalStatus) : GlobalStatus :=
  { s with inGroup := false, hasEventsInGroup := false, currStream := 0 }

/-- `add_timing_event`; `global_status.cpp:236-254`. -/
def addTimingEvent (s : GlobalStatus) (op : NcclNumber) (count stream : Nat) : GlobalStatus :=
  if s.state = .monitor then s
  else if recordTooSmall count then s
  else
    let s := { s with eventOp := op }
    if !s.hasEventsInGroup || !s.inGroup then
      { s with hasEventsInGroup := s.hasEventsInGroup || s.inGroup, currStream := stream }
    else s

/-- `get_communication_time`, in microseconds, for the time the events give;
`global_status.cpp:256-271`. -/
def getCommunicationTime (s : GlobalStatus) (elapsed : ℚ) : ℚ :=
  if s.state = .monitor then 0
  else if s.inGroup && !s.hasEventsInGroup then 0
  else elapsed * 1000

/-- A record goes to the temporary buffer in a group and to the ring otherwise;
`ncclprobe.cpp:148-151`, `:166-169`. -/
def putRecord (s : GlobalStatus) (r : Record) : GlobalStatus :=
  if s.inGroup then { s with tmpRecordBuffer := s.tmpRecordBuffer ++ [r] }
  else { s with storageBuffer := s.storageBuffer ++ [r] }

/-- The record of the calls accumulated before `c`; `ncclprobe.cpp:139-146`. -/
def compressedRecord (s : GlobalStatus) (c : Call) (numdevs : Nat) : Record :=
  ⟨s.lastComm, s.lastCallId, s.accumulatedCount, c.buff1, c.buff2, c.datatype, c.env.pid,
    c.env.callTime, c.env.devId, c.env.rank, c.aux, wholeMicros s.accumulatedDuration, numdevs⟩

/-- The accumulated calls are logged before a call that cannot be compressed;
`ncclprobe.cpp:135-153`. -/
def flushAccumulation (s : GlobalStatus) (c : Call) : GlobalStatus :=
  if s.lastCallId.canCompress then
    (s.putRecord (s.compressedRecord c (numDevices s.localComms c.comm))).resetAccumulation c.number
  else s

/-- A call of the magic size asks for a check of the control state; `ncclprobe.cpp:100-101`. -/
def noteCheck (s : GlobalStatus) (c : Call) : GlobalStatus :=
  if c.datatype = ncclInt8 ∧ c.count = checkPauseMagic then { s with shouldCheck := true } else s

/-- The record of the call itself, with its own time outside a group; `ncclprobe.cpp:155-169`. -/
def logCall (s : GlobalStatus) (c : Call) : GlobalStatus :=
  let callDuration := if s.inGroup then 0 else s.getCommunicationTime c.env.elapsed
  s.putRecord (c.record (wholeMicros callDuration) (numDevices s.localComms c.comm))

/-- `log_event`; `ncclprobe.cpp:92-172`. -/
def logEvent (s : GlobalStatus) (c : Call) : GlobalStatus :=
  let s := s.noteCheck c
  if recordTooSmall c.count then s
  else if c.number.canCompress then s.updateAccumulation c.number c.count c.comm
  else (s.flushAccumulation c).logCall c

/-- `log_communicator`; `ncclprobe.cpp:75-89`. -/
def logCommunicator (s : GlobalStatus) (comm : Communicator) : GlobalStatus :=
  { s with localComms := s.localComms ++ [comm] }

/-- A hooked call: the timing event, the real call and the log (`ncclprobe.cpp:262-428`), or the
init of a communicator (`ncclprobe.cpp:192-256`). -/
def hook (s : GlobalStatus) : Hook → GlobalStatus
  | .call c => (s.addTimingEvent c.number c.count c.stream).logEvent c
  | .commInit comm =>
    if s.inGroup then { s with commInGroup := some comm } else s.logCommunicator comm

/-- `handle_control_signal` around the flag that hides it from the hooks, when a check is
pending; its own broadcasts are of one element and leave no trace. `ncclprobe.cpp:498-503`. -/
def checkSignal (s : GlobalStatus) (signal : ControlState) : GlobalStatus :=
  if s.shouldCheck then
    { s with
      state := signal
      transparent := false
      shouldCheck := false
      controlSignals := s.controlSignals + 1 }
  else s

/-- The communicator made in the group is logged; `ncclprobe.cpp:505-510`. -/
def logPendingComm (s : GlobalStatus) : GlobalStatus :=
  match s.commInGroup with
  | some comm => { s.logCommunicator comm with commInGroup := none }
  | none => s

/-- `ncclGroupEnd` after the records are dealt with; `ncclprobe.cpp:494-512`. -/
def leaveGroup (s : GlobalStatus) (signal : ControlState) : GlobalStatus :=
  (({ s with tmpRecordBuffer := [] }.checkSignal signal).logPendingComm).groupEnd

/-- A record of a group gets the group's time; `ncclprobe.cpp:487-488`. -/
def withDuration (t : ℚ) (r : Record) : Record :=
  if r.duration = 0 then { r with duration := wholeMicros t } else r

/-- `ncclGroupEnd`; `ncclprobe.cpp:460-513`. A group whose last timed operation can be compressed
returns from the middle of the function. -/
def ncclGroupEnd (s : GlobalStatus) (elapsed : ℚ) (signal : ControlState) : GlobalStatus :=
  if s.transparent then s
  else
    let t := s.getCommunicationTime elapsed
    if s.state = .monitor then
      { s with storageBuffer := s.storageBuffer ++ s.tmpRecordBuffer }.leaveGroup signal
    else if floatEq t 0 then s.leaveGroup signal
    else if s.eventOp.canCompress then { s with accumulatedDuration := s.accumulatedDuration + t }
    else
      { s with
        storageBuffer := s.storageBuffer ++ s.tmpRecordBuffer.map (withDuration t) }.leaveGroup
        signal

/-- The hooked calls of a group, from its `ncclGroupStart` to before its `ncclGroupEnd`. -/
def inBody (s : GlobalStatus) (body : List Hook) : GlobalStatus := body.foldl hook s.groupStart

/-- A hooked call, or a group from start to end. -/
def item (s : GlobalStatus) : Item → GlobalStatus
  | .hook h => s.hook h
  | .group body elapsed signal => (s.inBody body).ncclGroupEnd elapsed signal

/-- A sequence of hooked calls and groups. -/
def items (s : GlobalStatus) (is : List Item) : GlobalStatus := is.foldl item s

/-! ### What a hooked call logs -/

/-- The records that a call logs. -/
def logged (s : GlobalStatus) (c : Call) : List Record :=
  if recordTooSmall c.count || c.number.canCompress then []
  else
    (if s.lastCallId.canCompress then [s.compressedRecord c (numDevices s.localComms c.comm)]
      else []) ++
    [c.record (wholeMicros (if s.inGroup then 0 else s.getCommunicationTime c.env.elapsed))
      (numDevices s.localComms c.comm)]

/-- The fields that logging a call does not touch. -/
structure Frame (s s' : GlobalStatus) : Prop where
  inGroup : s'.inGroup = s.inGroup
  state : s'.state = s.state
  transparent : s'.transparent = s.transparent
  localComms : s'.localComms = s.localComms
  commInGroup : s'.commInGroup = s.commInGroup
  eventOp : s'.eventOp = s.eventOp
  hasEventsInGroup : s'.hasEventsInGroup = s.hasEventsInGroup

namespace Frame

variable {s s' s'' : GlobalStatus}

theorem refl (s : GlobalStatus) : Frame s s := ⟨rfl, rfl, rfl, rfl, rfl, rfl, rfl⟩

theorem trans (h : Frame s s') (h' : Frame s' s'') : Frame s s'' where
  inGroup := h'.inGroup.trans h.inGroup
  state := h'.state.trans h.state
  transparent := h'.transparent.trans h.transparent
  localComms := h'.localComms.trans h.localComms
  commInGroup := h'.commInGroup.trans h.commInGroup
  eventOp := h'.eventOp.trans h.eventOp
  hasEventsInGroup := h'.hasEventsInGroup.trans h.hasEventsInGroup

end Frame

theorem putRecord_frame (s : GlobalStatus) (r : Record) : s.Frame (s.putRecord r) := by
  unfold putRecord
  split <;> exact ⟨rfl, rfl, rfl, rfl, rfl, rfl, rfl⟩

theorem noteCheck_frame (s : GlobalStatus) (c : Call) : s.Frame (s.noteCheck c) := by
  unfold noteCheck
  split <;> exact ⟨rfl, rfl, rfl, rfl, rfl, rfl, rfl⟩

theorem flushAccumulation_frame (s : GlobalStatus) (c : Call) :
    s.Frame (s.flushAccumulation c) := by
  unfold flushAccumulation
  split
  · exact (s.putRecord_frame _).trans ⟨rfl, rfl, rfl, rfl, rfl, rfl, rfl⟩
  · exact .refl s

theorem logEvent_frame (s : GlobalStatus) (c : Call) : s.Frame (s.logEvent c) := by
  unfold logEvent
  apply (s.noteCheck_frame c).trans
  split
  · exact .refl _
  · split
    · exact ⟨rfl, rfl, rfl, rfl, rfl, rfl, rfl⟩
    · exact (flushAccumulation_frame _ c).trans (putRecord_frame _ _)

/-- Records put one after the other where records of this status go. -/
structure Puts (s s' : GlobalStatus) (rs : List Record) : Prop where
  storageBuffer : s'.storageBuffer = if s.inGroup then s.storageBuffer else s.storageBuffer ++ rs
  tmpRecordBuffer :
    s'.tmpRecordBuffer = if s.inGroup then s.tmpRecordBuffer ++ rs else s.tmpRecordBuffer

theorem Puts.nil {s s' : GlobalStatus} (hs : s'.storageBuffer = s.storageBuffer)
    (ht : s'.tmpRecordBuffer = s.tmpRecordBuffer) : s.Puts s' [] := by
  constructor
  · simp [hs]
  · simp [ht]

theorem Puts.trans {s s' s'' : GlobalStatus} {rs rs' : List Record} (h : s.Puts s' rs)
    (h' : s'.Puts s'' rs') (hgroup : s'.inGroup = s.inGroup) : s.Puts s'' (rs ++ rs') := by
  constructor
  · rw [h'.storageBuffer, hgroup, h.storageBuffer]
    split
    · rfl
    · exact List.append_assoc ..
  · rw [h'.tmpRecordBuffer, hgroup, h.tmpRecordBuffer]
    split
    · exact List.append_assoc ..
    · rfl

private theorem putRecord_puts (s : GlobalStatus) (r : Record) : s.Puts (s.putRecord r) [r] := by
  unfold putRecord
  split
  · next h => constructor <;> simp [h]
  · next h => constructor <;> simp [h]

private theorem flushAccumulation_puts (s : GlobalStatus) (c : Call) :
    s.Puts (s.flushAccumulation c) (if s.lastCallId.canCompress then
      [s.compressedRecord c (numDevices s.localComms c.comm)] else []) := by
  unfold flushAccumulation
  split
  · exact ⟨(s.putRecord_puts _).storageBuffer, (s.putRecord_puts _).tmpRecordBuffer⟩
  · exact .nil rfl rfl

/-- The record of a call does not depend on what logging it has changed before. -/
private theorem logCall_puts {s s' : GlobalStatus} (h : s.Frame s') (c : Call) :
    s'.Puts (s'.logCall c)
      [c.record (wholeMicros (if s.inGroup then 0 else s.getCommunicationTime c.env.elapsed))
        (numDevices s.localComms c.comm)] := by
  have htime : s'.getCommunicationTime c.env.elapsed = s.getCommunicationTime c.env.elapsed := by
    simp only [getCommunicationTime, h.state, h.inGroup, h.hasEventsInGroup]
  rw [← htime, ← h.inGroup, ← h.localComms]
  exact s'.putRecord_puts _

theorem logEvent_puts (s : GlobalStatus) (c : Call) : s.Puts (s.logEvent c) (s.logged c) := by
  have hframe := s.noteCheck_frame c
  have hnote : s.Puts (s.noteCheck c) [] := by
    unfold noteCheck
    split <;> exact .nil rfl rfl
  have hlogged : (s.noteCheck c).logged c = s.logged c := by
    unfold noteCheck
    split <;> rfl
  rw [← hlogged, ← List.nil_append ((s.noteCheck c).logged c)]
  apply hnote.trans _ hframe.inGroup
  unfold logEvent logged
  simp only
  cases hsmall : recordTooSmall c.count with
  | true => exact .nil rfl rfl
  | false =>
    cases hnum : c.number.canCompress with
    | true => exact .nil rfl rfl
    | false =>
      have hflush := (s.noteCheck c).flushAccumulation_frame c
      exact ((s.noteCheck c).flushAccumulation_puts c).trans (logCall_puts hflush c) hflush.inGroup

/-- A timing event changes only the timing fields. -/
theorem addTimingEvent_eq (s : GlobalStatus) (op : NcclNumber) (count stream : Nat) :
    ∃ eventOp hasEvents currStream, s.addTimingEvent op count stream =
      { s with eventOp := eventOp, hasEventsInGroup := hasEvents, currStream := currStream } := by
  unfold addTimingEvent
  split
  · exact ⟨_, _, _, rfl⟩
  · split
    · exact ⟨_, _, _, rfl⟩
    · simp only
      split <;> exact ⟨_, _, _, rfl⟩

/-- The operation timed last, and that a group has events, unless the state or the size keeps the
call from being timed. -/
theorem addTimingEvent_timed {s : GlobalStatus} (h : s.state ≠ .monitor) (op : NcclNumber)
    (count stream : Nat) :
    (s.addTimingEvent op count stream).eventOp = (if recordTooSmall count then s.eventOp else op) ∧
      (s.addTimingEvent op count stream).hasEventsInGroup =
        (if recordTooSmall count then s.hasEventsInGroup
          else s.hasEventsInGroup || s.inGroup) := by
  unfold addTimingEvent
  rw [if_neg h]
  cases hsmall : recordTooSmall count with
  | true => exact ⟨rfl, rfl⟩
  | false =>
    simp only [Bool.false_eq_true, if_false]
    split
    · exact ⟨rfl, rfl⟩
    · next hevents =>
      simp only [Bool.not_eq_true, Bool.or_eq_false_iff, Bool.not_eq_false'] at hevents
      exact ⟨rfl, by rw [hevents.1, Bool.true_or]⟩

end GlobalStatus

/-! ### The ring behind the list of records -/

/-- The position of an operation in the enumeration; `config.hpp:26-36`. -/
def NcclNumber.toNat : NcclNumber → Nat
  | .send => 0
  | .recv => 1
  | .bcast => 2
  | .broadcast => 3
  | .allGather => 4
  | .reduceScatter => 5
  | .allReduce => 6
  | .invalid => 7

/-- `toVector`; `shm_storage.hpp:27-32`. -/
def Record.toVector (r : Record) : Vector Nat 14 :=
  #v[r.commAddr, r.callNumber.toNat, r.count, r.buff1Addr, r.buff2Addr, r.datatype, r.pid,
    r.callTime, r.deviceId, r.caller, r.aux, r.duration, r.numDevices, 0]

/-- The words of records in the ring, each stamped with the number of those before it. -/
def stampedWords (rs : List Record) : List (List Nat) :=
  rs.mapIdx fun i r ↦ RecordBuffer.stamp (i % wordSize) r.toVector.toList

private theorem ledger_addRecords (rs : List Record) :
    Ledger.ofOps (rs.map fun r ↦ RingOp.push r.toVector) = ⟨rs.length, stampedWords rs⟩ := by
  induction rs using List.reverseRecOn with
  | nil => rfl
  | append_singleton rs r ih =>
    have hsnoc : Ledger.ofOps ((rs ++ [r]).map fun r ↦ RingOp.push r.toVector) =
        (Ledger.ofOps (rs.map fun r ↦ RingOp.push r.toVector)).apply (.push r.toVector) := by
      simp [Ledger.ofOps]
    rw [hsnoc, ih]
    simp [Ledger.apply, stampedWords]

/-- A reader of the ring gets the last records of the list, as many as the ring holds. -/
theorem readShmRecords_addRecords {maxRecords : Nat} (hM : 0 < maxRecords) (rs : List Record) :
    ∃ ring, (rs.map fun r ↦ RingOp.push r.toVector).foldlM ringStep
        (RingState.fresh 14 maxRecords) = some ring ∧
      readShmRecords ring.mem = some ((stampedWords rs).rtake maxRecords) := by
  obtain ⟨ring, hring, hrep⟩ := ringRun_represents (F := 14) hM
    (rs.map fun r ↦ RingOp.push r.toVector) (s := RingState.fresh 14 maxRecords) rfl
    (represents_fresh hM)
  have hlive : ((rs.map fun r ↦ RingOp.push r.toVector).foldl Ledger.apply ⟨0, []⟩).live =
      stampedWords rs := congrArg Ledger.live (ledger_addRecords rs)
  refine ⟨ring, hring, ?_⟩
  rw [hrep.readShmRecords, hlive]

end ProbingBaselines.Greyhound
