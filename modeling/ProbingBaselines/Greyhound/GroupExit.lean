import Mathlib.Data.List.Induction
import ProbingBaselines.Greyhound.NcclProbe

/-!
# Leaving a group

`ncclGroupEnd` flushes the records of a group, handles a pending check and a pending communicator
and resets the group flags (`ncclprobe.cpp:460-513`). Outside MONITOR it returns before all of
that when the operation timed last can be compressed, and it drops the records of a group whose
measured time is zero. Both are decided by the group's own calls and time.
-/

namespace ProbingBaselines.Greyhound

/-- The calls of a group that are not too small to be timed and recorded. -/
def timedCalls (body : List Hook) : List Call :=
  body.filterMap fun
    | .call c => if recordTooSmall c.count then none else some c
    | .commInit _ => none

/-- The communicator made last in a group. -/
def lastInit (body : List Hook) : Option Communicator :=
  (body.filterMap fun
    | .call _ => none
    | .commInit comm => some comm).getLast?

/-- The calls of a group that are to have a record of their own. -/
def recordedCalls (body : List Hook) : List Call :=
  (timedCalls body).filter fun c ↦ !c.number.canCompress

namespace GlobalStatus

/-- The record a call of a group is to have, but for the time. -/
def recordOf (s : GlobalStatus) (c : Call) : Record := c.record 0 (numDevices s.localComms c.comm)

/-- The records of calls that cannot be compressed, times aside. -/
def ownRecords (rs : List Record) : List Record :=
  (rs.filter fun r ↦ !r.callNumber.canCompress).map fun r ↦ { r with duration := 0 }

/-- What the calls of a group do, up to its end. -/
structure Body (s e : GlobalStatus) (body : List Hook) : Prop where
  inGroup : e.inGroup = true
  state : e.state = s.state
  transparent : e.transparent = s.transparent
  localComms : e.localComms = s.localComms
  commInGroup : e.commInGroup = (lastInit body).or s.commInGroup
  storageBuffer : e.storageBuffer = s.storageBuffer
  records : ∃ new, e.tmpRecordBuffer = s.tmpRecordBuffer ++ new ∧
    ownRecords new = (recordedCalls body).map s.recordOf
  hasEvents : s.state ≠ .monitor → e.hasEventsInGroup = !(timedCalls body).isEmpty
  eventOp : s.state ≠ .monitor → ∀ c, (timedCalls body).getLast? = some c → e.eventOp = c.number

theorem timedCalls_append (body : List Hook) (h : Hook) :
    timedCalls (body ++ [h]) = timedCalls body ++ timedCalls [h] :=
  List.filterMap_append

theorem recordedCalls_append (body : List Hook) (h : Hook) :
    recordedCalls (body ++ [h]) = recordedCalls body ++ recordedCalls [h] := by
  rw [recordedCalls, timedCalls_append, List.filter_append]
  rfl

theorem lastInit_call (body : List Hook) (c : Call) :
    lastInit (body ++ [.call c]) = lastInit body := by
  simp [lastInit]

theorem lastInit_commInit (body : List Hook) (comm : Communicator) :
    lastInit (body ++ [.commInit comm]) = some comm := by
  simp [lastInit]

variable {s e : GlobalStatus} {body : List Hook}

/-- What a call of a group logs: its own record, if it is to have one. -/
private theorem ownRecords_logged (h : e.inGroup = true) (c : Call) :
    ownRecords (e.logged c) = (recordedCalls [.call c]).map e.recordOf := by
  unfold logged recordedCalls timedCalls
  cases hsmall : recordTooSmall c.count with
  | true => simp [ownRecords, hsmall]
  | false =>
    cases hnum : c.number.canCompress with
    | true => simp [ownRecords, hsmall, hnum]
    | false =>
      have hzero : wholeMicros 0 = 0 := rfl
      cases hlast : e.lastCallId.canCompress with
      | true =>
        simp [ownRecords, hsmall, hnum, hlast, h, compressedRecord, Call.record, recordOf, hzero]
      | false => simp [ownRecords, hsmall, hnum, h, Call.record, recordOf, hzero]

private theorem ownRecords_append (rs rs' : List Record) :
    ownRecords (rs ++ rs') = ownRecords rs ++ ownRecords rs' := by
  simp [ownRecords]

/-- What the timing event and the log of a call do, with the group's earlier calls done. -/
private theorem Body.call (hb : s.Body e body) (c : Call) :
    s.Body (e.hook (.call c)) (body ++ [.call c]) := by
  obtain ⟨eventOp, hasEvents, currStream, htiming⟩ :=
    e.addTimingEvent_eq c.number c.count c.stream
  have hframe := (e.addTimingEvent c.number c.count c.stream).logEvent_frame c
  have hputs := (e.addTimingEvent c.number c.count c.stream).logEvent_puts c
  have htimed (hstate : s.state ≠ .monitor) :=
    addTimingEvent_timed (hb.state ▸ hstate : e.state ≠ .monitor) c.number c.count c.stream
  have hgroup : (e.addTimingEvent c.number c.count c.stream).inGroup = true := by
    rw [htiming]
    exact hb.inGroup
  rw [hook]
  constructor
  · rw [hframe.inGroup, hgroup]
  · rw [hframe.state, htiming, ← hb.state]
  · rw [hframe.transparent, htiming, ← hb.transparent]
  · rw [hframe.localComms, htiming, ← hb.localComms]
  · rw [hframe.commInGroup, htiming, lastInit_call, ← hb.commInGroup]
  · rw [hputs.storageBuffer, if_pos hgroup, htiming, ← hb.storageBuffer]
  · obtain ⟨new, htmp, hown⟩ := hb.records
    refine ⟨new ++ (e.addTimingEvent c.number c.count c.stream).logged c, ?_, ?_⟩
    · rw [hputs.tmpRecordBuffer, if_pos hgroup, ← List.append_assoc, ← htmp, htiming]
    · have hlogged := ownRecords_logged hgroup c
      have hrecord : (e.addTimingEvent c.number c.count c.stream).recordOf = s.recordOf := by
        funext c'
        rw [recordOf, recordOf, htiming, ← hb.localComms]
      rw [ownRecords_append, hown, hlogged, hrecord, recordedCalls_append, List.map_append]
  · intro hstate
    rw [hframe.hasEventsInGroup, (htimed hstate).2, hb.hasEvents hstate, hb.inGroup,
      timedCalls_append]
    cases hsmall : recordTooSmall c.count <;> simp [timedCalls, hsmall]
  · intro hstate last hlast
    rw [hframe.eventOp, (htimed hstate).1]
    rw [timedCalls_append] at hlast
    cases hsmall : recordTooSmall c.count with
    | true =>
      simp only [timedCalls, hsmall, List.filterMap_cons, if_true, List.filterMap_nil,
        List.append_nil] at hlast
      exact hb.eventOp hstate last hlast
    | false =>
      simp only [timedCalls, hsmall, List.filterMap_cons, Bool.false_eq_true, if_false,
        List.filterMap_nil, List.getLast?_append_cons, List.getLast?_singleton,
        Option.some.injEq] at hlast
      rw [← hlast]
      rfl

private theorem Body.commInit (hb : s.Body e body) (comm : Communicator) :
    s.Body (e.hook (.commInit comm)) (body ++ [.commInit comm]) := by
  have htimed : timedCalls (body ++ [.commInit comm]) = timedCalls body := by
    rw [timedCalls_append]
    exact List.append_nil _
  have hrecorded : recordedCalls (body ++ [.commInit comm]) = recordedCalls body := by
    rw [recordedCalls, htimed, recordedCalls]
  rw [hook, if_pos hb.inGroup]
  constructor
  · exact hb.inGroup
  · exact hb.state
  · exact hb.transparent
  · exact hb.localComms
  · rw [lastInit_commInit]
    rfl
  · exact hb.storageBuffer
  · rw [hrecorded]
    exact hb.records
  · rw [htimed]
    exact hb.hasEvents
  · rw [htimed]
    exact hb.eventOp

/-- The whole body of a group, from its start. -/
theorem inBody_body (s : GlobalStatus) (body : List Hook) : s.Body (s.inBody body) body := by
  induction body using List.reverseRecOn with
  | nil =>
    refine ⟨rfl, rfl, rfl, rfl, rfl, rfl, ⟨[], ?_, rfl⟩, fun _ ↦ rfl, fun _ _ h ↦ nomatch h⟩
    exact (List.append_nil _).symm
  | append_singleton body h ih =>
    rw [inBody, List.foldl_append]
    cases h with
    | call c => exact ih.call c
    | commInit comm => exact ih.commInit comm

/-! ### One group -/

/-- The group is left as it should be: the flags are down, the pending work is done, and the ring
has got one record of each call that is to have one, in call order. -/
structure LeavesCleanly (s : GlobalStatus) (body : List Hook) (elapsed : ℚ)
    (signal : ControlState) : Prop where
  inGroup : (s.item (.group body elapsed signal)).inGroup = false
  tmpRecordBuffer : (s.item (.group body elapsed signal)).tmpRecordBuffer = []
  shouldCheck : (s.item (.group body elapsed signal)).shouldCheck = false
  controlSignals : (s.item (.group body elapsed signal)).controlSignals =
    (s.inBody body).controlSignals + if (s.inBody body).shouldCheck then 1 else 0
  commInGroup : (s.item (.group body elapsed signal)).commInGroup = none
  localComms : (s.item (.group body elapsed signal)).localComms =
    (s.inBody body).localComms ++ (s.inBody body).commInGroup.toList
  records : ∃ added,
    (s.item (.group body elapsed signal)).storageBuffer = s.storageBuffer ++ added ∧
    ownRecords added = (recordedCalls body).map s.recordOf

/-- When a group is left cleanly: in MONITOR, or if it times no call, or if its time is zero and
it has no call to record, or if its time is not zero and its last timed call cannot be
compressed. -/
def Exits (state : ControlState) (body : List Hook) (elapsed : ℚ) : Prop :=
  state = .monitor ∨ timedCalls body = [] ∨
    if floatEq (elapsed * 1000) 0 then recordedCalls body = []
    else ∃ c, (timedCalls body).getLast? = some c ∧ c.number.canCompress = false

/-- What the end of `ncclGroupEnd` does. -/
structure Left (e e' : GlobalStatus) : Prop where
  inGroup : e'.inGroup = false
  tmpRecordBuffer : e'.tmpRecordBuffer = []
  shouldCheck : e'.shouldCheck = false
  controlSignals : e'.controlSignals = e.controlSignals + if e.shouldCheck then 1 else 0
  commInGroup : e'.commInGroup = none
  localComms : e'.localComms = e.localComms ++ e.commInGroup.toList
  storageBuffer : e'.storageBuffer = e.storageBuffer
  transparent : e.transparent = false → e'.transparent = false

/-- The end of `ncclGroupEnd` does all of its work. -/
theorem leaveGroup_left (e : GlobalStatus) (signal : ControlState) :
    e.Left (e.leaveGroup signal) := by
  have hpending (e : GlobalStatus) (hcheck : e.shouldCheck = false)
      (htmp : e.tmpRecordBuffer = []) : e.Left e.logPendingComm.groupEnd := by
    unfold logPendingComm
    cases hcomm : e.commInGroup with
    | none =>
      refine ⟨rfl, htmp, hcheck, ?_, hcomm, ?_, rfl, id⟩
      · rw [hcheck]
        rfl
      · rw [hcomm]
        exact (List.append_nil _).symm
    | some comm =>
      refine ⟨rfl, htmp, hcheck, ?_, rfl, ?_, rfl, id⟩
      · rw [hcheck]
        rfl
      · rw [hcomm]
        rfl
  unfold leaveGroup checkSignal
  split
  · next hcheck =>
    obtain ⟨hgroup, htmp, hchecked, hsignals, hcomm, hcomms, hstorage, htransparent⟩ :=
      hpending { e with
        tmpRecordBuffer := []
        state := signal
        transparent := false
        shouldCheck := false
        controlSignals := e.controlSignals + 1 } rfl rfl
    refine ⟨hgroup, htmp, hchecked, ?_, hcomm, hcomms, hstorage, fun _ ↦ htransparent rfl⟩
    rw [hsignals, if_pos hcheck]
    rfl
  · next hcheck =>
    obtain ⟨hgroup, htmp, hchecked, hsignals, hcomm, hcomms, hstorage, htransparent⟩ :=
      hpending { e with tmpRecordBuffer := [] } (Bool.not_eq_true _ ▸ hcheck) rfl
    exact ⟨hgroup, htmp, hchecked, hsignals, hcomm, hcomms, hstorage, htransparent⟩

private theorem leavesCleanly_of_leaveGroup {elapsed : ℚ} {signal : ControlState}
    (storage : List Record)
    (h : s.item (.group body elapsed signal) =
      ({ s.inBody body with storageBuffer := storage } : GlobalStatus).leaveGroup signal)
    (hrecords : ∃ added, storage = s.storageBuffer ++ added ∧
      ownRecords added = (recordedCalls body).map s.recordOf) :
    s.LeavesCleanly body elapsed signal := by
  have hleft := leaveGroup_left { s.inBody body with storageBuffer := storage } signal
  rw [← h] at hleft
  refine ⟨hleft.inGroup, hleft.tmpRecordBuffer, hleft.shouldCheck, hleft.controlSignals,
    hleft.commInGroup, hleft.localComms, ?_⟩
  rw [hleft.storageBuffer]
  exact hrecords

/-- Times aside, the time of the group changes no record. -/
private theorem ownRecords_withDuration (t : ℚ) (rs : List Record) :
    ownRecords (rs.map (withDuration t)) = ownRecords rs := by
  have hnumber (r : Record) : (withDuration t r).callNumber = r.callNumber := by
    unfold withDuration
    split <;> rfl
  have huntimed (r : Record) : ({ withDuration t r with duration := 0 } : Record) =
      { r with duration := 0 } := by
    unfold withDuration
    split <;> rfl
  induction rs with
  | nil => rfl
  | cons r rs ih =>
    unfold ownRecords at ih ⊢
    rw [List.map_cons, List.filter_cons, List.filter_cons, hnumber]
    split
    · rw [List.map_cons, List.map_cons, ih, huntimed]
    · exact ih

/-- The time of a group: what the events give, if any call was timed. -/
private theorem Body.time (hb : s.Body e body) (hstate : s.state ≠ .monitor) (elapsed : ℚ) :
    e.getCommunicationTime elapsed = if timedCalls body = [] then 0 else elapsed * 1000 := by
  rw [getCommunicationTime, if_neg (hb.state ▸ hstate), hb.inGroup, hb.hasEvents hstate]
  cases timedCalls body <;> simp

section GroupEnd

variable (htransparent : e.transparent = false) (elapsed : ℚ) (signal : ControlState)

include htransparent

theorem ncclGroupEnd_monitor (hstate : e.state = .monitor) :
    e.ncclGroupEnd elapsed signal =
      { e with storageBuffer := e.storageBuffer ++ e.tmpRecordBuffer }.leaveGroup signal := by
  rw [ncclGroupEnd, if_neg (by rw [htransparent]; exact Bool.false_ne_true), if_pos hstate]

variable (hstate : e.state ≠ .monitor)

include hstate

private theorem ncclGroupEnd_zero (hzero : floatEq (e.getCommunicationTime elapsed) 0 = true) :
    e.ncclGroupEnd elapsed signal = e.leaveGroup signal := by
  rw [ncclGroupEnd, if_neg (by rw [htransparent]; exact Bool.false_ne_true), if_neg hstate,
    if_pos hzero]

variable (hzero : ¬ floatEq (e.getCommunicationTime elapsed) 0 = true)

include hzero

private theorem ncclGroupEnd_early (hop : e.eventOp.canCompress = true) :
    e.ncclGroupEnd elapsed signal =
      { e with accumulatedDuration := e.accumulatedDuration + e.getCommunicationTime elapsed } := by
  rw [ncclGroupEnd, if_neg (by rw [htransparent]; exact Bool.false_ne_true), if_neg hstate,
    if_neg hzero, if_pos hop]

private theorem ncclGroupEnd_flush (hop : e.eventOp.canCompress = false) :
    e.ncclGroupEnd elapsed signal =
      { e with
        storageBuffer := e.storageBuffer ++
          e.tmpRecordBuffer.map (withDuration (e.getCommunicationTime elapsed)) }.leaveGroup
        signal := by
  rw [ncclGroupEnd, if_neg (by rw [htransparent]; exact Bool.false_ne_true), if_neg hstate,
    if_neg hzero, if_neg (by rw [hop]; exact Bool.false_ne_true)]

end GroupEnd

/-- A group entered with nothing pending in the temporary buffer is left cleanly exactly under
the condition on its calls and its time. -/
theorem leavesCleanly_iff (htmp : s.tmpRecordBuffer = []) (htransparent : s.transparent = false)
    (elapsed : ℚ) (signal : ControlState) :
    s.LeavesCleanly body elapsed signal ↔ Exits s.state body elapsed := by
  have hb := s.inBody_body body
  have htrans : (s.inBody body).transparent = false := hb.transparent.trans htransparent
  obtain ⟨new, hnew, hown⟩ := hb.records
  rw [htmp, List.nil_append] at hnew
  -- with no record to write, the ring stays as it is
  have hunwritten (hnone : recordedCalls body = []) : ∃ added,
      (s.inBody body).storageBuffer = s.storageBuffer ++ added ∧
        ownRecords added = (recordedCalls body).map s.recordOf := by
    refine ⟨[], ?_, ?_⟩
    · rw [hb.storageBuffer, List.append_nil]
    · rw [hnone]
      rfl
  by_cases hstate : s.state = .monitor
  · have hend := ncclGroupEnd_monitor htrans elapsed signal (hb.state.trans hstate)
    refine iff_of_true (leavesCleanly_of_leaveGroup _ hend ⟨new, ?_, hown⟩) (.inl hstate)
    rw [hb.storageBuffer, hnew]
  have hstate' : (s.inBody body).state ≠ .monitor := hb.state ▸ hstate
  have htime := hb.time hstate elapsed
  by_cases htimed : timedCalls body = []
  · have hzero : floatEq ((s.inBody body).getCommunicationTime elapsed) 0 = true := by
      rw [htime, if_pos htimed]
      decide +kernel
    have hend := ncclGroupEnd_zero htrans elapsed signal hstate' hzero
    have hnone : recordedCalls body = [] := by rw [recordedCalls, htimed]; rfl
    exact iff_of_true (leavesCleanly_of_leaveGroup _ hend (hunwritten hnone)) (.inr (.inl htimed))
  rw [if_neg htimed] at htime
  rw [Exits, or_iff_right hstate, or_iff_right htimed]
  by_cases hzero : floatEq (elapsed * 1000) 0 = true
  · -- the records of the group are dropped
    have hend := ncclGroupEnd_zero htrans elapsed signal hstate' (htime ▸ hzero)
    rw [if_pos hzero]
    constructor
    · intro hclean
      obtain ⟨added, hadded, hrecords⟩ := hclean.records
      rw [item, hend, (leaveGroup_left _ signal).storageBuffer, hb.storageBuffer] at hadded
      rw [List.self_eq_append_right.mp hadded] at hrecords
      exact List.map_eq_nil_iff.mp hrecords.symm
    · intro hnone
      exact leavesCleanly_of_leaveGroup _ hend (hunwritten hnone)
  · rw [if_neg hzero]
    obtain ⟨last, hlast⟩ := Option.isSome_iff_exists.mp (List.getLast?_isSome.mpr htimed)
    have hop : (s.inBody body).eventOp = last.number := hb.eventOp hstate last hlast
    cases hnum : last.number.canCompress with
    | true =>
      -- the early return: the group is never left
      have hend := ncclGroupEnd_early htrans elapsed signal hstate' (htime ▸ hzero) (hop ▸ hnum)
      constructor
      · intro hclean
        have hout := hclean.inGroup
        rw [item, hend] at hout
        exact absurd (hb.inGroup.symm.trans hout) (by decide)
      · rintro ⟨c, hc, hcnum⟩
        rw [hlast, Option.some.injEq] at hc
        rw [← hc, hnum] at hcnum
        contradiction
    | false =>
      have hend := ncclGroupEnd_flush htrans elapsed signal hstate' (htime ▸ hzero) (hop ▸ hnum)
      refine iff_of_true ?_ ⟨last, hlast, hnum⟩
      apply leavesCleanly_of_leaveGroup _ hend
      refine ⟨new.map (withDuration ((s.inBody body).getCommunicationTime elapsed)), ?_, ?_⟩
      · rw [hb.storageBuffer, hnew]
      · rw [ownRecords_withDuration, hown]

/-! ### Sequences -/

/-- A property of every group of a sequence, with the status it starts from. -/
def AllGroups (P : GlobalStatus → List Hook → ℚ → ControlState → Prop) :
    GlobalStatus → List Item → Prop
  | _, [] => True
  | s, .hook h :: rest => AllGroups P (s.hook h) rest
  | s, .group body elapsed signal :: rest =>
    P s body elapsed signal ∧ AllGroups P (s.item (.group body elapsed signal)) rest

/-- A hooked call outside a group leaves the temporary buffer alone. -/
private theorem hook_outside (h : Hook) (hgroup : s.inGroup = false) :
    (s.hook h).inGroup = false ∧ (s.hook h).tmpRecordBuffer = s.tmpRecordBuffer ∧
      (s.hook h).transparent = s.transparent := by
  cases h with
  | commInit comm =>
    rw [hook, if_neg (by rw [hgroup]; exact Bool.false_ne_true)]
    exact ⟨hgroup, rfl, rfl⟩
  | call c =>
    obtain ⟨eventOp, hasEvents, currStream, htiming⟩ :=
      s.addTimingEvent_eq c.number c.count c.stream
    have hframe := (s.addTimingEvent c.number c.count c.stream).logEvent_frame c
    have hputs := (s.addTimingEvent c.number c.count c.stream).logEvent_puts c
    have hgroup' : (s.addTimingEvent c.number c.count c.stream).inGroup = false := by
      rw [htiming]
      exact hgroup
    refine ⟨hframe.inGroup.trans hgroup', ?_, ?_⟩
    · rw [hook, hputs.tmpRecordBuffer, hgroup', if_neg Bool.false_ne_true, htiming]
    · rw [hook, hframe.transparent, htiming]

private theorem ncclGroupEnd_transparent (h : e.transparent = false) (elapsed : ℚ)
    (signal : ControlState) : (e.ncclGroupEnd elapsed signal).transparent = false := by
  have hleave (e : GlobalStatus) (h : e.transparent = false) :
      (e.leaveGroup signal).transparent = false :=
    (leaveGroup_left e signal).transparent h
  unfold ncclGroupEnd
  split
  · exact h
  · simp only
    split
    · exact hleave _ h
    · split
      · exact hleave _ h
      · split
        · exact h
        · exact hleave _ h

private theorem allGroups_iff (items : List Item) (hgroup : s.inGroup = false)
    (htmp : s.tmpRecordBuffer = []) (htransparent : s.transparent = false) :
    AllGroups LeavesCleanly s items ↔
      AllGroups (fun s body elapsed _ ↦ Exits s.state body elapsed) s items := by
  induction items generalizing s with
  | nil => exact Iff.rfl
  | cons item rest ih =>
    cases item with
    | hook h =>
      obtain ⟨hgroup', htmp', htransparent'⟩ := hook_outside h hgroup
      exact ih hgroup' (htmp'.trans htmp) (htransparent'.trans htransparent)
    | group body elapsed signal =>
      rw [AllGroups, AllGroups, ← leavesCleanly_iff htmp htransparent elapsed signal]
      apply and_congr_right
      intro hclean
      apply ih hclean.inGroup hclean.tmpRecordBuffer
      apply ncclGroupEnd_transparent
      exact (s.inBody_body body).transparent.trans htransparent

/-- In a sequence of hooked calls and groups every group is left cleanly exactly if each of them
is, when it starts, in MONITOR, or times no call, or takes no time and has no call to record, or
takes time and times last a call that cannot be compressed. -/
theorem groups_leave_cleanly_iff (items : List Item) :
    AllGroups LeavesCleanly initialized items ↔
      AllGroups (fun s body elapsed _ ↦ Exits s.state body elapsed) initialized items :=
  allGroups_iff items rfl rfl rfl

/-- In PROFILE, after the check that sets it: a group of one `AllGather` that takes time leaves the
probe in the group, and the next `AllReduce` never reaches the ring; a group of one `AllReduce`
that takes no time loses its record. -/
theorem groups_leave_uncleanly :
    let env : CallEnv := ⟨0, 0, 0, 0, 1⟩
    let check : Item := .group [.call (.send 0 503 0 1 7 0 env)] 0 .profile
    let gather : Item := .group [.call (.allGather 0 0 2048 7 7 0 env)] 1 .profile
    let reduce : Call := .allReduce 0 0 2048 7 0 7 0 env
    (¬ AllGroups LeavesCleanly initialized [check, gather] ∧
      (initialized.items [check, gather]).inGroup = true ∧
      (initialized.items [check, gather, .hook (.call reduce)]).storageBuffer = []) ∧
    ¬ AllGroups LeavesCleanly initialized [check, .group [.call reduce] 0 .profile] ∧
      (initialized.items [check, .group [.call reduce] 0 .profile]).storageBuffer = [] := by
  intro env check gather reduce
  have hgather : (initialized.items [check, gather]).inGroup = true := by decide +kernel
  have hreduce :
      (initialized.items [check, .group [.call reduce] 0 .profile]).storageBuffer = [] := by
    decide +kernel
  refine ⟨⟨?_, hgather, by decide +kernel⟩, ?_, hreduce⟩
  · intro hclean
    exact absurd (hgather.symm.trans hclean.2.1.inGroup) (by decide)
  · intro hclean
    obtain ⟨added, hadded, hrecords⟩ := hclean.2.1.records
    have hempty : added = [] := (List.append_eq_nil_iff.mp (hadded.symm.trans hreduce)).2
    rw [hempty] at hrecords
    exact absurd hrecords (by decide +kernel)

end GlobalStatus

end ProbingBaselines.Greyhound
