import Mathlib.Algebra.Order.BigOperators.Group.List
import ProbingBaselines.Greyhound.GroupExit

/-!
# Compression of AllGather and ReduceScatter runs

`log_event` accumulates the counts of compressible calls of any communicator and writes them as
one record before the next call that cannot be compressed (`ncclprobe.cpp:117-153`): the record
bears the communicator of the last of them and the device count of the next call's. The
reference is a run-by-run compression that the detector's grouping by communicator can trust
(`local_analyzer.py:204-214`).
-/

namespace ProbingBaselines.Greyhound

/-- A call that is not too small, with the communicators that the probe knows when it is made and
the devices of the one it is made on, which the probe need not know. -/
structure LoggedCall extends Call where
  known : List Communicator
  devices : Nat

/-- A call that cannot be compressed, with the compressible calls since the one before it. -/
structure Stretch where
  run : List LoggedCall
  call : LoggedCall

/-- The stretches of a list of calls, after an open run. -/
def stretches (run : List LoggedCall) : List LoggedCall → List Stretch
  | [] => []
  | c :: rest =>
    if c.number.canCompress then stretches (run ++ [c]) rest else ⟨run, c⟩ :: stretches [] rest

/-- The run still open after a list of calls. -/
def openRun (run : List LoggedCall) : List LoggedCall → List LoggedCall
  | [] => run
  | c :: rest => if c.number.canCompress then openRun (run ++ [c]) rest else openRun [] rest

/-- The calls of hooks that are not too small. The communicators that the probe knows stay as they
are; those `made` so far, the last first, say how many devices an address has. -/
def hookCalls (known made : List Communicator) : List Hook → List LoggedCall
  | [] => []
  | .commInit comm :: rest => hookCalls known (comm :: made) rest
  | .call c :: rest =>
    if recordTooSmall c.count then hookCalls known made rest
    else ⟨c, known, numDevices made c.comm⟩ :: hookCalls known made rest

/-- The communicators made by hooks, the last first, before those made earlier. -/
def madeBy (made : List Communicator) : List Hook → List Communicator
  | [] => made
  | .commInit comm :: rest => madeBy (comm :: made) rest
  | .call _ :: rest => madeBy made rest

/-- The calls of a sequence that are not too small. The communicators made in a group become known
at its end, the last one only. -/
def loggedCalls (known made : List Communicator) : List Item → List LoggedCall
  | [] => []
  | .hook (.call c) :: rest => hookCalls known made [.call c] ++ loggedCalls known made rest
  | .hook (.commInit comm) :: rest => loggedCalls (known ++ [comm]) (comm :: made) rest
  | .group body _ _ :: rest =>
    hookCalls known made body ++
      loggedCalls (known ++ (lastInit body).toList) (madeBy made body) rest

/-- The sum of the counts of calls. -/
def totalCount (calls : List LoggedCall) : Nat := (calls.map fun c ↦ c.count).sum

namespace Stretch

/-- The record of the call that ends a stretch. -/
def record (st : Stretch) : Record := st.call.record 0 (numDevices st.call.known st.call.comm)

/-- The records of a run that account for it: each is of a communicator of the run and has the
devices of this communicator, and the counts on each communicator sum up to those of the calls
made on it. -/
structure Accounts (st : Stretch) (chunk : List Record) : Prop where
  compressed : ∀ r ∈ chunk, r.callNumber.canCompress = true
  comm : ∀ r ∈ chunk, ∃ c ∈ st.run, c.comm = r.commAddr
  counts : ∀ addr, ((chunk.filter (·.commAddr = addr)).map Record.count).sum =
    totalCount (st.run.filter (·.comm = addr))
  devices : ∀ r ∈ chunk, ∀ c ∈ st.run, c.comm = r.commAddr → r.numDevices = c.devices

end Stretch

/-- The reference compression: for each stretch, records that account for its run and then the
record of its call, and nothing else. -/
def ReferenceCompression : List Stretch → List Record → Prop
  | [], records => records = []
  | st :: rest, records => ∃ chunk tail, records = chunk ++ st.record :: tail ∧ st.Accounts chunk ∧
    ReferenceCompression rest tail

/-- A run that one record can account for: its calls are on one communicator, which has as many
devices as the probe knows of that of the call that ends the stretch, and their counts do not
overflow. -/
def Stretch.Uniform (st : Stretch) : Prop :=
  ∀ last, st.run.getLast? = some last →
    (∀ c ∈ st.run, c.comm = last.comm) ∧
    (∀ c ∈ st.run, c.devices = numDevices st.call.known st.call.comm) ∧
    totalCount st.run < wordSize

/-! ### What the probe writes -/

namespace Stretch

/-- The compressed record of a run, if it is not empty. -/
def compressed (st : Stretch) : List Record :=
  match st.run.getLast? with
  | none => []
  | some last =>
    [⟨last.comm, last.number, totalCount st.run % wordSize, st.call.buff1, st.call.buff2,
      st.call.datatype, st.call.env.pid, st.call.env.callTime, st.call.env.devId,
      st.call.env.rank, st.call.aux, 0, numDevices st.call.known st.call.comm⟩]

/-- What the probe writes for a stretch. -/
def written (st : Stretch) : List Record := st.compressed ++ [st.record]

end Stretch

theorem stretches_append (run xs ys : List LoggedCall) :
    stretches run (xs ++ ys) = stretches run xs ++ stretches (openRun run xs) ys := by
  induction xs generalizing run with
  | nil => rfl
  | cons x xs ih =>
    rw [List.cons_append, stretches, stretches, openRun]
    split
    · exact ih _
    · rw [ih, List.cons_append]

theorem openRun_append (run xs ys : List LoggedCall) :
    openRun run (xs ++ ys) = openRun (openRun run xs) ys := by
  induction xs generalizing run with
  | nil => rfl
  | cons x xs ih =>
    rw [List.cons_append, openRun, openRun]
    split
    · exact ih _
    · exact ih _

theorem hookCalls_call (known made : List Communicator) (c : Call) (body : List Hook) :
    hookCalls known made (.call c :: body) =
      hookCalls known made [.call c] ++ hookCalls known made body := by
  cases hsmall : recordTooSmall c.count <;> simp [hookCalls, hsmall]

namespace GlobalStatus

/-- In MONITOR the accumulators hold the open run. -/
structure Accumulates (s : GlobalStatus) (run : List LoggedCall) : Prop where
  compress : ∀ c ∈ run, c.number.canCompress = true
  closed : run = [] → s.lastCallId.canCompress = false
  last : ∀ c, run.getLast? = some c → s.lastCallId = c.number ∧ s.lastComm = c.comm
  count : s.accumulatedCount = totalCount run % wordSize
  duration : s.accumulatedDuration = 0

variable {s e : GlobalStatus} {run : List LoggedCall} (made : List Communicator)

private theorem Accumulates.congr (ha : s.Accumulates run) (hid : e.lastCallId = s.lastCallId)
    (hcomm : e.lastComm = s.lastComm) (hcount : e.accumulatedCount = s.accumulatedCount)
    (hduration : e.accumulatedDuration = s.accumulatedDuration) : e.Accumulates run where
  compress := ha.compress
  closed := by rw [hid]; exact ha.closed
  last := by rw [hid, hcomm]; exact ha.last
  count := by rw [hcount]; exact ha.count
  duration := by rw [hduration]; exact ha.duration

/-- The accumulated record of an open run that is not empty. -/
private theorem Accumulates.flushed (ha : s.Accumulates run) (c : Call) (devices : Nat) :
    (if s.lastCallId.canCompress then [s.compressedRecord c (numDevices s.localComms c.comm)]
      else []) = Stretch.compressed ⟨run, c, s.localComms, devices⟩ := by
  unfold Stretch.compressed
  cases hlast : run.getLast? with
  | none => rw [ha.closed (List.getLast?_eq_none_iff.mp hlast), if_neg Bool.false_ne_true]
  | some last =>
    obtain ⟨hid, hcomm⟩ := ha.last last hlast
    have hcompress : last.number.canCompress = true :=
      ha.compress last (List.mem_of_getLast? hlast)
    have hzero : wholeMicros 0 = 0 := rfl
    rw [hid, hcompress, if_pos rfl, compressedRecord, hid, hcomm, ha.count, ha.duration, hzero]

/-- What a call logs in MONITOR is what is written for its stretch. -/
private theorem Accumulates.logged (ha : s.Accumulates run) (hstate : s.state = .monitor)
    (c : Call) : s.logged c =
      (stretches run (hookCalls s.localComms made [.call c])).flatMap Stretch.written := by
  have htime : (if s.inGroup then 0 else s.getCommunicationTime c.env.elapsed) = 0 := by
    rw [getCommunicationTime, if_pos hstate, ite_self]
  unfold GlobalStatus.logged
  rw [htime, ha.flushed c (numDevices made c.comm)]
  cases hsmall : recordTooSmall c.count with
  | true => simp [hookCalls, hsmall, stretches]
  | false =>
    cases hnum : c.number.canCompress with
    | true => simp [hookCalls, hsmall, hnum, stretches]
    | false =>
      have hzero : wholeMicros 0 = 0 := rfl
      simp [hookCalls, hsmall, hnum, stretches, Stretch.written, Stretch.record, hzero]

private theorem putRecord_accumulates (ha : s.Accumulates run) (r : Record) :
    (s.putRecord r).Accumulates run := by
  unfold putRecord
  split <;> exact ha.congr rfl rfl rfl rfl

/-- A call in MONITOR: a compressible one lengthens the open run, another one closes it. -/
private theorem Accumulates.logEvent (ha : s.Accumulates run) (c : Call) :
    (s.logEvent c).Accumulates (openRun run (hookCalls s.localComms made [.call c])) := by
  have hnote : (s.noteCheck c).Accumulates run := by
    unfold noteCheck
    split <;> exact ha.congr rfl rfl rfl rfl
  unfold GlobalStatus.logEvent
  cases hsmall : recordTooSmall c.count with
  | true => simpa [hookCalls, hsmall, openRun] using hnote
  | false =>
    cases hnum : c.number.canCompress with
    | true =>
      have hopen : openRun run (hookCalls s.localComms made [.call c]) =
          run ++ [⟨c, s.localComms, numDevices made c.comm⟩] := by
        simp [hookCalls, hsmall, hnum, openRun]
      rw [hopen]
      constructor
      · intro d hd
        cases List.mem_append.mp hd with
        | inl hd => exact ha.compress d hd
        | inr hd => rw [List.mem_singleton.mp hd, hnum]
      · intro hnil
        simp at hnil
      · intro d hd
        rw [List.getLast?_concat, Option.some.injEq] at hd
        exact ⟨congrArg (·.number) hd, congrArg (·.comm) hd⟩
      · show ((s.noteCheck c).accumulatedCount + c.count) % wordSize = _
        rw [hnote.count, totalCount, totalCount, List.map_append, List.sum_append, Nat.mod_add_mod]
        rfl
      · exact hnote.duration
    | false =>
      have hopen : openRun run (hookCalls s.localComms made [.call c]) = [] := by
        simp [hookCalls, hsmall, hnum, openRun]
      rw [hopen]
      apply putRecord_accumulates
      unfold flushAccumulation
      split
      · refine ⟨fun _ h ↦ absurd h List.not_mem_nil, fun _ ↦ hnum, ?_, rfl, rfl⟩
        intro last h
        cases h
      · next hlast =>
        -- nothing accumulated, so the run was empty
        have hempty : run = [] := by
          cases hrun : run.getLast? with
          | none => exact List.getLast?_eq_none_iff.mp hrun
          | some last =>
            rw [(hnote.last last hrun).1] at hlast
            exact absurd (ha.compress last (List.mem_of_getLast? hrun)) hlast
        rw [hempty] at hnote
        exact hnote

/-- In MONITOR a call is only logged. -/
private theorem hook_call (hstate : s.state = .monitor) (c : Call) :
    s.hook (.call c) = s.logEvent c := by
  rw [hook, addTimingEvent, if_pos hstate]

/-- The calls of a group, in MONITOR: their records go to the temporary buffer. -/
private theorem Accumulates.body (ha : s.Accumulates run) (hstate : s.state = .monitor)
    (hgroup : s.inGroup = true) (body : List Hook) :
    (body.foldl hook s).Accumulates (openRun run (hookCalls s.localComms made body)) ∧
      (body.foldl hook s).tmpRecordBuffer = s.tmpRecordBuffer ++
        (stretches run (hookCalls s.localComms made body)).flatMap Stretch.written := by
  induction body generalizing s run made with
  | nil => exact ⟨ha, (List.append_nil _).symm⟩
  | cons h body ih =>
    rw [List.foldl_cons]
    cases h with
    | commInit comm =>
      rw [hook, if_pos hgroup]
      exact ih (comm :: made) (ha.congr rfl rfl rfl rfl) hstate hgroup
    | call c =>
      have hframe := s.logEvent_frame c
      obtain ⟨hacc, htmp⟩ := ih made (ha.logEvent made c) (hframe.state.trans hstate)
        (hframe.inGroup.trans hgroup)
      rw [hframe.localComms] at hacc htmp
      rw [hook_call hstate, hookCalls_call, openRun_append, stretches_append, List.flatMap_append]
      refine ⟨hacc, ?_⟩
      rw [htmp, (s.logEvent_puts c).tmpRecordBuffer, if_pos hgroup, ha.logged made hstate,
        List.append_assoc]

/-- Between groups, in MONITOR, with an open run. -/
structure Idle (s : GlobalStatus) (run : List LoggedCall) : Prop where
  accumulates : s.Accumulates run
  state : s.state = .monitor
  inGroup : s.inGroup = false
  tmpRecordBuffer : s.tmpRecordBuffer = []
  commInGroup : s.commInGroup = none
  transparent : s.transparent = false

private theorem Idle.call (hi : s.Idle run) (c : Call) :
    (s.hook (.call c)).Idle (openRun run (hookCalls s.localComms made [.call c])) ∧
      (s.hook (.call c)).localComms = s.localComms ∧
      (s.hook (.call c)).storageBuffer = s.storageBuffer ++
        (stretches run (hookCalls s.localComms made [.call c])).flatMap Stretch.written := by
  have hframe := s.logEvent_frame c
  have hputs := s.logEvent_puts c
  rw [hook_call hi.state]
  refine ⟨⟨hi.accumulates.logEvent made c, ?_, ?_, ?_, ?_, ?_⟩, hframe.localComms, ?_⟩
  · exact hframe.state.trans hi.state
  · exact hframe.inGroup.trans hi.inGroup
  · rw [hputs.tmpRecordBuffer, hi.inGroup, if_neg Bool.false_ne_true, hi.tmpRecordBuffer]
  · exact hframe.commInGroup.trans hi.commInGroup
  · exact hframe.transparent.trans hi.transparent
  · rw [hputs.storageBuffer, hi.inGroup, if_neg Bool.false_ne_true,
      hi.accumulates.logged made hi.state]

private theorem Idle.commInit (hi : s.Idle run) (comm : Communicator) :
    (s.hook (.commInit comm)).Idle run ∧
      (s.hook (.commInit comm)).localComms = s.localComms ++ [comm] ∧
      (s.hook (.commInit comm)).storageBuffer = s.storageBuffer := by
  rw [hook, if_neg (by rw [hi.inGroup]; exact Bool.false_ne_true)]
  exact ⟨⟨hi.accumulates.congr rfl rfl rfl rfl, hi.state, hi.inGroup, hi.tmpRecordBuffer,
    hi.commInGroup, hi.transparent⟩, rfl, rfl⟩

/-- Leaving a group does not touch the accumulators, and keeps MONITOR if no signal ends it. -/
private theorem leaveGroup_monitor (ha : e.Accumulates run) (hstate : e.state = .monitor) :
    (e.leaveGroup .monitor).Accumulates run ∧ (e.leaveGroup .monitor).state = .monitor := by
  have hcheck (e : GlobalStatus) (ha : e.Accumulates run) (hstate : e.state = .monitor) :
      (e.checkSignal .monitor).Accumulates run ∧ (e.checkSignal .monitor).state = .monitor := by
    unfold checkSignal
    split
    · exact ⟨ha.congr rfl rfl rfl rfl, rfl⟩
    · exact ⟨ha, hstate⟩
  have hpending (e : GlobalStatus) (ha : e.Accumulates run) (hstate : e.state = .monitor) :
      e.logPendingComm.Accumulates run ∧ e.logPendingComm.state = .monitor := by
    unfold logPendingComm
    split
    · exact ⟨ha.congr rfl rfl rfl rfl, hstate⟩
    · exact ⟨ha, hstate⟩
  obtain ⟨ha₁, hstate₁⟩ := hcheck { e with tmpRecordBuffer := [] } (ha.congr rfl rfl rfl rfl) hstate
  obtain ⟨ha₂, hstate₂⟩ := hpending _ ha₁ hstate₁
  exact ⟨ha₂.congr rfl rfl rfl rfl, hstate₂⟩

private theorem Idle.group (hi : s.Idle run) (body : List Hook) (elapsed : ℚ) :
    (s.item (.group body elapsed .monitor)).Idle
        (openRun run (hookCalls s.localComms made body)) ∧
      (s.item (.group body elapsed .monitor)).localComms =
        s.localComms ++ (lastInit body).toList ∧
      (s.item (.group body elapsed .monitor)).storageBuffer = s.storageBuffer ++
        (stretches run (hookCalls s.localComms made body)).flatMap Stretch.written := by
  have hb := s.inBody_body body
  have hstart : s.groupStart.Accumulates run := hi.accumulates.congr rfl rfl rfl rfl
  obtain ⟨hacc, htmp⟩ := hstart.body made hi.state rfl body
  have hend := ncclGroupEnd_monitor (hb.transparent.trans hi.transparent) elapsed .monitor
    (hb.state.trans hi.state)
  have hflushed : ({ s.inBody body with
      storageBuffer := (s.inBody body).storageBuffer ++ (s.inBody body).tmpRecordBuffer } :
      GlobalStatus).Accumulates (openRun run (hookCalls s.localComms made body)) :=
    hacc.congr rfl rfl rfl rfl
  obtain ⟨hacc', hstate'⟩ := leaveGroup_monitor hflushed (hb.state.trans hi.state)
  have hleft := leaveGroup_left { s.inBody body with
    storageBuffer := (s.inBody body).storageBuffer ++ (s.inBody body).tmpRecordBuffer } .monitor
  rw [item, hend]
  refine ⟨⟨hacc', hstate', hleft.inGroup, hleft.tmpRecordBuffer, hleft.commInGroup, ?_⟩, ?_, ?_⟩
  · exact hleft.transparent (hb.transparent.trans hi.transparent)
  · rw [hleft.localComms]
    simp only [hb.localComms, hb.commInGroup, hi.commInGroup, Option.or_none]
  · rw [hleft.storageBuffer]
    simp only [hb.storageBuffer]
    exact congrArg (s.storageBuffer ++ ·) (htmp.trans (by rw [groupStart, hi.tmpRecordBuffer]; rfl))

/-- The records written from an idle status, in MONITOR. -/
private theorem Idle.items (hi : s.Idle run) (items : List Item)
    (hmonitor : ∀ body elapsed signal, .group body elapsed signal ∈ items → signal = .monitor) :
    (s.items items).storageBuffer = s.storageBuffer ++
      (stretches run (loggedCalls s.localComms made items)).flatMap Stretch.written := by
  induction items generalizing s run made with
  | nil => exact (List.append_nil _).symm
  | cons item rest ih =>
    have hrest : ∀ body elapsed signal, Item.group body elapsed signal ∈ rest → signal = .monitor :=
      fun body elapsed signal h ↦ hmonitor body elapsed signal (List.mem_cons_of_mem _ h)
    rw [GlobalStatus.items, List.foldl_cons]
    cases item with
    | hook h =>
      cases h with
      | call c =>
        obtain ⟨hi', hcomms, hstorage⟩ := hi.call made c
        refine (ih made hi' hrest).trans ?_
        rw [hcomms, hstorage, loggedCalls, stretches_append, List.flatMap_append,
          List.append_assoc]
      | commInit comm =>
        obtain ⟨hi', hcomms, hstorage⟩ := hi.commInit comm
        refine (ih (comm :: made) hi' hrest).trans ?_
        rw [hcomms, hstorage, loggedCalls]
    | group body elapsed signal =>
      obtain rfl := hmonitor body elapsed signal List.mem_cons_self
      obtain ⟨hi', hcomms, hstorage⟩ := hi.group made body elapsed
      refine (ih (madeBy made body) hi' hrest).trans ?_
      rw [hcomms, hstorage, loggedCalls, stretches_append, List.flatMap_append,
        List.append_assoc]

end GlobalStatus

/-! ### Against the reference -/

/-- What the stretches of logged calls are made of. -/
structure Stretch.Made (st : Stretch) : Prop where
  compress : ∀ c ∈ st.run, c.number.canCompress = true
  count : ∀ c ∈ st.run, 0 < c.count
  call : st.call.number.canCompress = false

theorem count_pos_of_not_small {c : Call} (h : recordTooSmall c.count = false) : 0 < c.count := by
  have hle : ¬ c.count < minRecordOpSize := of_decide_eq_false h
  unfold minRecordOpSize at hle
  omega

theorem made_stretches {run calls : List LoggedCall}
    (hrun : ∀ c ∈ run, c.number.canCompress = true ∧ 0 < c.count)
    (hcalls : ∀ c ∈ calls, recordTooSmall c.count = false) :
    ∀ st ∈ stretches run calls, st.Made := by
  induction calls generalizing run with
  | nil => exact fun _ h ↦ absurd h List.not_mem_nil
  | cons c rest ih =>
    have hc : 0 < c.count := count_pos_of_not_small (hcalls _ List.mem_cons_self)
    have hrest : ∀ d ∈ rest, recordTooSmall d.count = false :=
      fun d hd ↦ hcalls d (List.mem_cons_of_mem _ hd)
    rw [stretches]
    split
    · next hnum =>
      apply ih _ hrest
      intro d hd
      cases List.mem_append.mp hd with
      | inl hd => exact hrun d hd
      | inr hd =>
        rw [List.mem_singleton.mp hd]
        exact ⟨hnum, hc⟩
    · next hnum =>
      intro st hst
      cases hst with
      | head =>
        exact ⟨fun d hd ↦ (hrun d hd).1, fun d hd ↦ (hrun d hd).2, Bool.not_eq_true _ ▸ hnum⟩
      | tail _ hst => exact ih (fun _ h ↦ absurd h List.not_mem_nil) hrest st hst

theorem hookCalls_not_small (known made : List Communicator) (body : List Hook) :
    ∀ c ∈ hookCalls known made body, recordTooSmall c.count = false := by
  induction body generalizing made with
  | nil => exact fun _ h ↦ absurd h List.not_mem_nil
  | cons h body ih =>
    cases h with
    | commInit comm => exact ih _
    | call c =>
      rw [hookCalls]
      split
      · exact ih _
      · next hsmall => exact List.forall_mem_cons.mpr ⟨Bool.not_eq_true _ ▸ hsmall, ih _⟩

theorem loggedCalls_not_small (known made : List Communicator) (items : List Item) :
    ∀ c ∈ loggedCalls known made items, recordTooSmall c.count = false := by
  induction items generalizing known made with
  | nil => exact fun _ h ↦ absurd h List.not_mem_nil
  | cons item rest ih =>
    intro c hc
    cases item with
    | hook h =>
      cases h with
      | call d =>
        cases List.mem_append.mp hc with
        | inl hc => exact hookCalls_not_small _ _ _ c hc
        | inr hc => exact ih _ _ c hc
      | commInit comm => exact ih _ _ c hc
    | group body elapsed signal =>
      cases List.mem_append.mp hc with
      | inl hc => exact hookCalls_not_small _ _ _ c hc
      | inr hc => exact ih _ _ c hc

namespace Stretch

variable {st : Stretch}

/-- Calls on another communicator would be missing from the one record. -/
private theorem comm_eq_of_accounts (hmade : st.Made) (h : st.Accounts st.compressed)
    {last : LoggedCall} (hlast : st.run.getLast? = some last) :
    ∀ c ∈ st.run, c.comm = last.comm := by
  intro c hc
  by_contra hne
  have hcounts := h.counts c.comm
  have hmem : c ∈ st.run.filter (·.comm = c.comm) := by simp [hc]
  have hle : c.count ≤ totalCount (st.run.filter (·.comm = c.comm)) :=
    List.le_sum_of_mem (List.mem_map_of_mem hmem)
  have hnone : (st.compressed.filter (·.commAddr = c.comm)) = [] := by
    simp [compressed, hlast, Ne.symm hne]
  rw [hnone] at hcounts
  have := hmade.count c hc
  simp only [List.map_nil, List.sum_nil] at hcounts
  omega

/-- The one record accounts for its run exactly if the run is uniform. -/
theorem accounts_compressed_iff (hmade : st.Made) : st.Accounts st.compressed ↔ st.Uniform := by
  constructor
  · intro h last hlast
    have hcomm := comm_eq_of_accounts hmade h hlast
    have hall : st.run.filter (·.comm = last.comm) = st.run :=
      List.filter_eq_self.mpr fun c hc ↦ decide_eq_true (hcomm c hc)
    refine ⟨hcomm, ?_, ?_⟩
    · intro c hc
      have hdevices := h.devices
      simp only [compressed, hlast, List.mem_singleton, forall_eq] at hdevices
      exact (hdevices c hc (hcomm c hc)).symm
    · have hcounts := h.counts last.comm
      rw [hall] at hcounts
      have hone : ((st.compressed.filter (·.commAddr = last.comm)).map Record.count).sum =
          totalCount st.run % wordSize := by simp [compressed, hlast]
      rw [← hcounts, hone]
      exact Nat.mod_lt _ (by decide)
  · intro h
    cases hlast : st.run.getLast? with
    | none =>
      have hrun : st.run = [] := List.getLast?_eq_none_iff.mp hlast
      have hempty : st.compressed = [] := by simp [compressed, hlast]
      rw [hempty]
      constructor
      · exact fun _ h ↦ absurd h List.not_mem_nil
      · exact fun _ h ↦ absurd h List.not_mem_nil
      · intro addr
        rw [hrun]
        rfl
      · exact fun _ h ↦ absurd h List.not_mem_nil
    | some last =>
      obtain ⟨hcomm, hdevices, hlt⟩ := h last hlast
      have hmem := List.mem_of_getLast? hlast
      constructor
      · simp only [compressed, hlast, List.mem_singleton, forall_eq]
        exact hmade.compress last hmem
      · simp only [compressed, hlast, List.mem_singleton, forall_eq]
        exact ⟨last, hmem, rfl⟩
      · intro addr
        by_cases haddr : addr = last.comm
        · have hall : st.run.filter (·.comm = addr) = st.run :=
            List.filter_eq_self.mpr fun c hc ↦ decide_eq_true (haddr ▸ hcomm c hc)
          rw [hall]
          simp [compressed, hlast, haddr, Nat.mod_eq_of_lt hlt]
        · have hnone : st.run.filter (·.comm = addr) = [] := by
            apply List.filter_eq_nil_iff.mpr
            intro c hc
            rw [hcomm c hc, decide_eq_true_eq]
            exact Ne.symm haddr
          rw [hnone]
          simp [compressed, hlast, Ne.symm haddr, totalCount]
      · simp only [compressed, hlast, List.mem_singleton, forall_eq]
        exact fun c hc _ ↦ (hdevices c hc).symm

/-- What is written before a call's record is compressed, its record is not. -/
private theorem compressed_canCompress (hmade : st.Made) :
    ∀ r ∈ st.compressed, r.callNumber.canCompress = true := by
  unfold compressed
  cases hlast : st.run.getLast? with
  | none => exact fun _ h ↦ absurd h List.not_mem_nil
  | some last =>
    intro r hr
    rw [List.mem_singleton.mp hr]
    exact hmade.compress last (List.mem_of_getLast? hlast)

end Stretch

/-- Records split before the first one that is not compressed in one way only. -/
private theorem append_cons_inj {p : Record → Bool} {a a' b b' : List Record} {x x' : Record}
    (h : a ++ x :: b = a' ++ x' :: b') (ha : ∀ r ∈ a, p r = true) (ha' : ∀ r ∈ a', p r = true)
    (hx : p x = false) (hx' : p x' = false) : a = a' ∧ b = b' := by
  induction a generalizing a' with
  | nil =>
    cases a' with
    | nil => exact ⟨rfl, (List.cons.inj h).2⟩
    | cons r a' =>
      rw [(List.cons.inj h).1, ha' r List.mem_cons_self] at hx
      contradiction
  | cons r a ih =>
    cases a' with
    | nil =>
      rw [← (List.cons.inj h).1, ha r List.mem_cons_self] at hx'
      contradiction
    | cons r' a' =>
      obtain ⟨hr, htail⟩ := List.cons.inj h
      obtain ⟨hsame, hb⟩ := ih htail (fun r hr ↦ ha r (List.mem_cons_of_mem _ hr))
        (fun r hr ↦ ha' r (List.mem_cons_of_mem _ hr))
      exact ⟨by rw [hr, hsame], hb⟩

/-- What the probe writes is the reference compression exactly if every run is uniform. -/
theorem referenceCompression_written_iff {sts : List Stretch} (hmade : ∀ st ∈ sts, st.Made) :
    ReferenceCompression sts (sts.flatMap Stretch.written) ↔ ∀ st ∈ sts, st.Uniform := by
  induction sts with
  | nil => simp [ReferenceCompression]
  | cons st rest ih =>
    have hst := hmade st List.mem_cons_self
    have hrest := ih fun st' h ↦ hmade st' (List.mem_cons_of_mem _ h)
    rw [List.forall_mem_cons, ← hrest, ← Stretch.accounts_compressed_iff hst]
    have hsplit : (st :: rest).flatMap Stretch.written =
        st.compressed ++ st.record :: rest.flatMap Stretch.written := by
      simp [Stretch.written]
    rw [ReferenceCompression, hsplit]
    constructor
    · rintro ⟨chunk, tail, heq, haccounts, htail⟩
      obtain ⟨rfl, rfl⟩ := append_cons_inj (p := fun r ↦ r.callNumber.canCompress) heq
        (Stretch.compressed_canCompress hst) haccounts.compressed hst.call hst.call
      exact ⟨haccounts, htail⟩
    · rintro ⟨haccounts, htail⟩
      exact ⟨st.compressed, rest.flatMap Stretch.written, rfl, haccounts, htail⟩

namespace GlobalStatus

/-- What a sequence in MONITOR adds to the ring, whatever communicators the probe did not see
made. -/
theorem storageBuffer_monitor (unseen : List Communicator) (items : List Item)
    (hmonitor : ∀ body elapsed signal, .group body elapsed signal ∈ items → signal = .monitor) :
    (initialized.items items).storageBuffer =
      (stretches [] (loggedCalls [] unseen items)).flatMap Stretch.written := by
  have hstart : initialized.Accumulates [] :=
    ⟨fun _ h ↦ absurd h List.not_mem_nil, fun _ ↦ rfl, fun _ h ↦ (nomatch h), rfl, rfl⟩
  have hidle : initialized.Idle [] := ⟨hstart, rfl, rfl, rfl, rfl, rfl⟩
  exact hidle.items unseen items hmonitor

private theorem made_loggedCalls (unseen : List Communicator) (items : List Item) :
    ∀ st ∈ stretches [] (loggedCalls [] unseen items), st.Made :=
  made_stretches (fun _ h ↦ absurd h List.not_mem_nil) (loggedCalls_not_small [] unseen items)

/-- In MONITOR, the records added to the ring are the reference compression of the calls made
exactly if each run of compressible calls that a recorded call ends is on one communicator, with
as many devices as the probe knows of that of the ending call, and its counts sum up to less than
2^64. The probe did not see the `unseen` communicators made: it hooks no `ncclCommSplit` on MetaX
(`ncclprobe.cpp:236-237`). -/
theorem compression_faithful_iff (unseen : List Communicator) (items : List Item)
    (hmonitor : ∀ body elapsed signal, .group body elapsed signal ∈ items → signal = .monitor) :
    ReferenceCompression (stretches [] (loggedCalls [] unseen items))
        (initialized.items items).storageBuffer ↔
      ∀ st ∈ stretches [] (loggedCalls [] unseen items), st.Uniform := by
  rw [storageBuffer_monitor unseen items hmonitor]
  exact referenceCompression_written_iff (made_loggedCalls unseen items)

/-- Two gathers on one communicator, in and out of a group, and a reduction on it: one record of
the sum, then the record of the reduction. -/
theorem compression_faithful_iff_gathers :
    let env : CallEnv := ⟨0, 0, 0, 0, 0⟩
    let gather (count : Nat) : Hook := .call (.allGather 0 0 count 7 5 0 env)
    let items : List Item := [.hook (.commInit ⟨5, 8⟩), .hook (gather 2048),
      .group [gather 4096, gather 16, .call (.allReduce 0 0 2048 7 0 5 0 env)] 0 .monitor]
    (initialized.items items).storageBuffer.map (fun r ↦ (r.commAddr, r.count, r.numDevices)) =
        [(5, 6144, 8), (5, 2048, 8)] ∧
      (ReferenceCompression (stretches [] (loggedCalls [] [] items))
          (initialized.items items).storageBuffer ↔
        ∀ st ∈ stretches [] (loggedCalls [] [] items), st.Uniform) := by
  intro env gather items
  refine ⟨by decide +kernel, compression_faithful_iff [] items ?_⟩
  intro body elapsed signal hmem
  simp only [items, List.mem_cons, List.not_mem_nil, reduceCtorEq, false_or, or_false,
    Item.group.injEq] at hmem
  exact hmem.2.2

/-- Gathers on communicators of 2 and of 4 devices before a reduction on one of 8: the record has
the sum of both, the address of the second and the devices of the reduction's. A gather and a
reduction on the first of two communicators made in one group, of 4 devices: both records are
without devices. -/
theorem compression_unfaithful :
    let env : CallEnv := ⟨0, 0, 0, 0, 0⟩
    let gather (count comm : Nat) : Item := .hook (.call (.allGather 0 0 count 7 comm 0 env))
    let reduce (comm : Nat) : Item := .hook (.call (.allReduce 0 0 2048 7 0 comm 0 env))
    let mixed : List Item := [.hook (.commInit ⟨2, 2⟩), .hook (.commInit ⟨4, 4⟩),
      .hook (.commInit ⟨8, 8⟩), gather 2048 2, gather 4096 4, reduce 8]
    let lost : List Item := [.group [.commInit ⟨6, 4⟩, .commInit ⟨7, 4⟩] 0 .monitor,
      gather 2048 6, reduce 6]
    ((initialized.items mixed).storageBuffer.map (fun r ↦ (r.commAddr, r.count, r.numDevices)) =
          [(4, 6144, 8), (8, 2048, 8)] ∧
        ¬ ReferenceCompression (stretches [] (loggedCalls [] [] mixed))
          (initialized.items mixed).storageBuffer) ∧
      (initialized.items lost).storageBuffer.map (fun r ↦ (r.commAddr, r.count, r.numDevices)) =
          [(6, 2048, 0), (6, 2048, 0)] ∧
        ¬ ReferenceCompression (stretches [] (loggedCalls [] [] lost))
          (initialized.items lost).storageBuffer := by
  intro env gather reduce mixed lost
  refine ⟨⟨by decide +kernel, ?_⟩, by decide +kernel, ?_⟩
  · have hmonitor : ∀ body elapsed signal,
        .group body elapsed signal ∈ mixed → signal = .monitor := by simp [mixed, gather, reduce]
    rw [storageBuffer_monitor [] mixed hmonitor,
      referenceCompression_written_iff (made_loggedCalls [] mixed)]
    intro huniform
    -- the first gather is on another communicator than the second
    have hcomm := (huniform _ List.mem_cons_self _ rfl).1 _ List.mem_cons_self
    exact absurd hcomm (by decide)
  · have hmonitor : ∀ body elapsed signal,
        .group body elapsed signal ∈ lost → signal = .monitor := by simp [lost, gather, reduce]
    rw [storageBuffer_monitor [] lost hmonitor,
      referenceCompression_written_iff (made_loggedCalls [] lost)]
    intro huniform
    -- the gather's communicator has 4 devices, the probe knows of none
    have hdevices := (huniform _ List.mem_cons_self _ rfl).2.1 _ List.mem_cons_self
    exact absurd hdevices (by decide)

end GlobalStatus

end ProbingBaselines.Greyhound
