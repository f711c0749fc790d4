import ProbingBaselines.XpuTimer.TimerRecycling

/-!
# Sequence numbers

A rebuild numbers a kernel among the kernels of its name and, for a collective, among those of
its communicator (`nvidia/nvidia_timer.cc:280-290`, `nvidia/intercepted.cc:164`). A hang dump
rebuilds every queued item (`common/util.h:213-220`), and `doWork` rebuilds it again if it ever
becomes ready: from then on the numbers count dumped items twice.
-/

namespace ProbingBaselines.XpuTimer

open Lib

/-! ### What the counters count -/

namespace TimerStatics

/-- The last trace id of a name, zero if it has none. -/
def lastTraceId (st : TimerStatics) (name : String) : Nat :=
  match st.tracingMetas name with
  | some code => st.traceIdCounter code
  | none => 0

/-- Trace ids count the kernels rebuilt so far by name: codes are those of different names, and a
code not yet given has counted nothing. -/
structure TracesCount (st : TimerStatics) (built : List Kernel) : Prop where
  traceIds : ∀ name, st.lastTraceId name = built.countP (·.name = name)
  code_lt : ∀ name code, st.tracingMetas name = some code → code < st.kernelEncodingCounter
  code_inj : ∀ name name' code, st.tracingMetas name = some code →
    st.tracingMetas name' = some code → name = name'
  unused : ∀ code, st.kernelEncodingCounter ≤ code → st.traceIdCounter code = 0

/-- The counters count the kernels rebuilt so far, by name and by communicator. -/
structure Counts (st : TimerStatics) (built : List Kernel) : Prop where
  traces : st.TracesCount built
  seqs : ∀ h, st.ncclSeqNum h = built.countP (·.commHash = some h)

variable {st : TimerStatics} {built : List Kernel}

/-- The order of rebuilds does not matter. -/
theorem Counts.perm (h : st.Counts built) {built' : List Kernel} (hp : built.Perm built') :
    st.Counts built' where
  traces := { h.traces with traceIds := fun name ↦ (h.traces.traceIds name).trans (hp.countP_eq _) }
  seqs := fun hash ↦ (h.seqs hash).trans (hp.countP_eq _)

/-- A name that gets a code keeps its count: a new code has counted nothing. -/
private theorem encode_traces (h : st.TracesCount built) (name : String) :
    (st.encode name).1.TracesCount built := by
  unfold encode
  cases hm : st.tracingMetas name with
  | some code => exact h
  | none =>
    constructor
    · intro key
      rw [← h.traceIds key]
      by_cases hk : key = name
      · subst hk
        simp only [lastTraceId, Function.update_self, hm]
        exact h.unused _ (Nat.le_refl _)
      · simp only [lastTraceId, Function.update_of_ne hk]
    · intro key code hcode
      simp only [Function.update_apply] at hcode
      split at hcode
      · cases hcode
        exact Nat.lt_succ_self _
      · exact Nat.lt_succ_of_lt (h.code_lt key code hcode)
    · intro key key' code hcode hcode'
      simp only [Function.update_apply] at hcode hcode'
      split at hcode
      · next hk =>
        split at hcode'
        · next hk' => rw [hk, hk']
        · cases hcode
          exact absurd (h.code_lt key' _ hcode') (Nat.lt_irrefl _)
      · split at hcode'
        · cases hcode'
          exact absurd (h.code_lt key _ hcode) (Nat.lt_irrefl _)
        · exact h.code_inj key key' code hcode hcode'
    · intro code hle
      exact h.unused code (Nat.le_of_succ_le hle)

private theorem encode_code (st : TimerStatics) (name : String) :
    (st.encode name).1.tracingMetas name = some (st.encode name).2 := by
  unfold encode
  split
  · next hm => exact hm
  · exact Function.update_self ..

private theorem encode_ncclSeqNum (st : TimerStatics) (name : String) :
    (st.encode name).1.ncclSeqNum = st.ncclSeqNum := by
  unfold encode
  split <;> rfl

/-- One more kernel under the code of its name. -/
private theorem TracesCount.count (h : st.TracesCount built) {k : Kernel} {code : Nat}
    (hcode : st.tracingMetas k.name = some code) :
    TracesCount { st with
      traceIdCounter := Function.update st.traceIdCounter code (st.traceIdCounter code + 1) }
      (built ++ [k]) := by
  refine ⟨?_, h.code_lt, h.code_inj, ?_⟩
  · intro key
    rw [List.countP_append, List.countP_singleton, ← h.traceIds key]
    by_cases hk : key = k.name
    · subst hk
      simp [lastTraceId, hcode]
    · have hne : ∀ other, st.tracingMetas key = some other → other ≠ code := by
        rintro other hother rfl
        exact hk (h.code_inj key k.name _ hother hcode)
      simp only [lastTraceId, decide_eq_true_eq, Ne.symm hk, if_false, Nat.add_zero]
      cases hm : st.tracingMetas key with
      | none => rfl
      | some other => exact Function.update_of_ne (hne other hm) _ _
  · intro other hle
    have hne : other ≠ code := Nat.ne_of_gt (Nat.lt_of_lt_of_le (h.code_lt _ _ hcode) hle)
    simp only [Function.update_of_ne hne]
    exact h.unused other hle

private theorem nextSeq_traces (h : st.TracesCount built) (hash : Option Nat) :
    (st.nextSeq hash).1.TracesCount built := by
  cases hash with
  | none => exact h
  | some n => exact ⟨h.traceIds, h.code_lt, h.code_inj, h.unused⟩

/-- The next number in a communicator. -/
private theorem nextSeq_seq (h : st.Counts built) (hash : Option Nat) :
    (st.nextSeq hash).2 = hash.map fun n ↦ built.countP (·.commHash = some n) + 1 := by
  cases hash with
  | none => rfl
  | some n => simp only [nextSeq, Option.map_some, h.seqs n]

private theorem nextSeq_ncclSeqNum (h : st.Counts built) (k : Kernel) (n : Nat) :
    (st.nextSeq k.commHash).1.ncclSeqNum n = (built ++ [k]).countP (·.commHash = some n) := by
  rw [List.countP_append, List.countP_singleton, ← h.seqs n]
  cases hk : k.commHash with
  | none => rfl
  | some hash =>
    simp only [nextSeq, Function.update_apply, Option.some.injEq, decide_eq_true_eq]
    by_cases hn : n = hash
    · subst hn
      simp
    · simp [hn, Ne.symm hn]

/-- A rebuild numbers its kernel after the kernels counted, and counts it. -/
theorem reBuild_spec (h : st.Counts built) (t : GpuTimer) :
    (st.reBuild t).1.Counts (built ++ [t.kernel]) ∧
      (st.reBuild t).2.traceId = built.countP (·.name = t.kernel.name) + 1 ∧
      (st.reBuild t).2.seq =
        t.kernel.commHash.map fun n ↦ built.countP (·.commHash = some n) + 1 := by
  have htraces := encode_traces (nextSeq_traces h.traces t.kernel.commHash) t.kernel.name
  have hcode := encode_code (st.nextSeq t.kernel.commHash).1 t.kernel.name
  refine ⟨⟨htraces.count hcode, ?_⟩, ?_, nextSeq_seq h _⟩
  · intro n
    rw [← nextSeq_ncclSeqNum h t.kernel n]
    exact congrFun (encode_ncclSeqNum ..) n
  · have := htraces.traceIds t.kernel.name
    rw [lastTraceId, hcode] at this
    exact congrArg (· + 1) this

end TimerStatics

namespace GpuTimer

theorem isHang_kernel (t : GpuTimer) (timeout now : Int) :
    (t.isHang timeout now).2.kernel = t.kernel := by
  unfold isHang
  split
  · rfl
  · split <;> rfl

theorem isReady_kernel (t : GpuTimer) (ready : Bool) : (t.isReady ready).2.kernel = t.kernel := by
  unfold isReady
  split
  · rfl
  · split <;> rfl

end GpuTimer

namespace GpuTimerManager

variable {m m' : GpuTimerManager}

/-- Each processed kernel is numbered by its place among the processed kernels of its name, and
a collective among those of its communicator. -/
def NumbersCount (m : GpuTimerManager) : Prop :=
  ∀ before e after, m.processed = before ++ e :: after →
    e.traceId = before.countP (·.kernel.name = e.kernel.name) + 1 ∧
    e.seq = e.kernel.commHash.map fun n ↦ before.countP (·.kernel.commHash = some n) + 1

/-- What the numbers are in every reachable state: the kernels dumped before are counted too. -/
structure Numbered (m : GpuTimerManager) : Prop where
  counts : m.statics.Counts (m.processed.map Processed.kernel ++ m.dumped)
  traceId : ∀ before e after, m.processed = before ++ e :: after →
    e.traceId = before.countP (·.kernel.name = e.kernel.name) +
      e.dumpedBefore.countP (·.name = e.kernel.name) + 1
  seq : ∀ before e after, m.processed = before ++ e :: after →
    e.seq = e.kernel.commHash.map fun n ↦ before.countP (·.kernel.commHash = some n) +
      e.dumpedBefore.countP (·.commHash = some n) + 1

/-! ### Steps that rebuild nothing -/

/-- The kernels taken off the queue and not yet rebuilt, then the queued ones. -/
def pendingKernels (m : GpuTimerManager) : List Kernel :=
  (m.pc.unbuilt ++ m.workingQueue).map fun v ↦ (m.timers v).kernel

/-- A step that rebuilds nothing: kernels may be queued behind those that were. -/
structure Quiet (m m' : GpuTimerManager) : Prop where
  statics : m'.statics = m.statics
  processed : m'.processed = m.processed
  dumped : m'.dumped = m.dumped
  hasDoHang : m'.hasDoHang = m.hasDoHang
  pending : m.pendingKernels <+: m'.pendingKernels

private theorem pending_congr (items : List Nat)
    (hitems : m'.pc.unbuilt ++ m'.workingQueue = m.pc.unbuilt ++ (m.workingQueue ++ items))
    (hkernel : ∀ v ∈ m.pc.unbuilt ++ m.workingQueue,
      (m'.timers v).kernel = (m.timers v).kernel) : m.pendingKernels <+: m'.pendingKernels := by
  unfold pendingKernels
  rw [hitems, ← List.append_assoc, ← List.map_congr_left hkernel]
  exact (List.prefix_append _ _).map _

private theorem getEvent_quiet {thread : Nat} (hs : getEvent thread m = some m') : m.Quiet m' := by
  unfold getEvent at hs
  split at hs
  · contradiction
  · split at hs
    · cases hs
      refine ⟨rfl, rfl, rfl, rfl, pending_congr [] (by simp) ?_⟩
      intro v hv
      simp only [Function.update_apply]
      split
      · next hi => rw [hi]
      · rfl
    · cases hs
      exact ⟨rfl, rfl, rfl, rfl, List.prefix_rfl⟩

private theorem reset_quiet (h : m.Recycled) {thread : Nat} {kernel : Kernel} {isHost : Bool}
    {now : Int} (hs : reset thread kernel isHost now m = some m') : m.Quiet m' := by
  unfold reset at hs
  split at hs
  · next thread' v hf =>
    cases hs
    obtain ⟨hqueue, howned⟩ := h.not_queued (v := v)
      (List.mem_map_of_mem (List.mem_of_find?_eq_some hf))
    refine ⟨rfl, rfl, rfl, rfl, pending_congr [] (by simp [setTimer]) ?_⟩
    -- the timer reset is a held one
    intro i hi
    have hne : i ≠ v := by
      rintro rfl
      cases List.mem_append.mp hi with
      | inl hu => exact howned (unbuilt_subset _ hu)
      | inr hq => exact hqueue hq
    simp [hne]
  · contradiction

private theorem recordEvent_quiet {thread : Nat} (hs : recordEvent thread m = some m') :
    m.Quiet m' := by
  unfold recordEvent at hs
  split at hs
  · next thread' v hf =>
    cases hs
    refine ⟨rfl, rfl, rfl, rfl, pending_congr [v] rfl ?_⟩
    intro i hi
    simp only [setTimer_timers]
    split
    · next hi => rw [hi]
    · rfl
  · contradiction

private theorem pop_quiet {timeout now : Int} {ready : Bool}
    (hs : pop timeout ready now m = some m') : m.Quiet m' := by
  unfold pop at hs
  split at hs
  · cases hs
    exact ⟨rfl, rfl, rfl, rfl, List.prefix_rfl⟩
  · next v queue hpc hq =>
    simp only at hs
    split at hs
    · cases hs
      refine ⟨rfl, rfl, rfl, rfl, pending_congr [] (by simp [setTimer, hpc, WorkPc.unbuilt]) ?_⟩
      intro i hi
      simp only [setTimer_timers]
      split
      · next hi => rw [hi, GpuTimer.isHang_kernel]
      · rfl
    · split at hs
      · cases hs
        refine ⟨rfl, rfl, rfl, rfl, pending_congr [] (by simp [hq, hpc, WorkPc.unbuilt]) ?_⟩
        intro i hi
        simp only [setTimer_timers]
        split
        · next hi => rw [hi, GpuTimer.isReady_kernel, GpuTimer.isHang_kernel]
        · rfl
      · cases hs
        refine ⟨rfl, rfl, rfl, rfl, pending_congr [] (by simp [setTimer]) ?_⟩
        intro i hi
        simp only [setTimer_timers]
        split
        · next hi => rw [hi, GpuTimer.isReady_kernel, GpuTimer.isHang_kernel]
        · rfl
  · contradiction

private theorem returnObject_quiet (hs : returnObject m = some m') : m.Quiet m' := by
  unfold returnObject at hs
  split at hs
  · next v hpc =>
    cases hs
    refine ⟨rfl, rfl, rfl, rfl, pending_congr [] (by simp [hpc, WorkPc.unbuilt]) ?_⟩
    intro i hi
    rfl
  · contradiction

/-! ### The hang dump -/

/-- The hang dump: every queued kernel is rebuilt and stays where it is. -/
structure Dumps (m m' : GpuTimerManager) : Prop where
  first : m.hasDoHang = false
  hasDoHang : m'.hasDoHang = true
  processed : m'.processed = m.processed
  dumped : m'.dumped = m.dumped ++ m.pendingKernels
  pending : m'.pendingKernels = m.pendingKernels
  nonempty : m.pendingKernels ≠ []
  counts : ∀ built, m.statics.Counts built → m'.statics.Counts (built ++ m.pendingKernels)

/-- The dump counts every kernel it rebuilds. -/
theorem printHangName_counts {built : List Kernel} (items : List Nat)
    (h : m.statics.Counts built) :
    (m.printHangName items).statics.Counts (built ++ items.map fun v ↦ (m.timers v).kernel) := by
  induction items generalizing m built with
  | nil => simpa [printHangName] using h
  | cons v items ih =>
    have hnext := ih (m := { m.setTimer v (m.statics.reBuild (m.timers v)).2 with
      statics := (m.statics.reBuild (m.timers v)).1
      dumped := m.dumped ++ [(m.timers v).kernel] })
      (TimerStatics.reBuild_spec h (m.timers v)).1
    have hkernels : items.map (fun i ↦
        ((m.setTimer v (m.statics.reBuild (m.timers v)).2).timers i).kernel) =
        items.map fun i ↦ (m.timers i).kernel := by
      apply List.map_congr_left
      intro i _
      rw [setTimer_timers]
      split
      · next hi => rw [hi]; rfl
      · rfl
    rw [List.append_assoc, hkernels] at hnext
    exact hnext

private theorem doHang_spec (h : m.Recycled) {hangKill : Bool} (hs : doHang hangKill m = some m') :
    m.Quiet m' ∨ m.Dumps m' := by
  have hhang : ∃ v, m.pc = .hanging v := by
    unfold doHang at hs
    split at hs
    · next v hpc => exact ⟨v, hpc⟩
    · contradiction
  obtain ⟨v, hpc⟩ := hhang
  obtain ⟨hready, hhead⟩ := h.hanging v hpc
  have hnone : m.pc.unbuilt = [] := by rw [hpc]; rfl
  have hpending : m.pendingKernels = m.workingQueue.map fun v ↦ (m.timers v).kernel := by
    rw [pendingKernels, hnone, List.nil_append]
  cases (doHang_cases hs hready).2 with
  | inl hdone =>
    rw [hdone.2]
    refine .inl ⟨rfl, rfl, rfl, rfl, pending_congr [] (by simp [hpc, WorkPc.unbuilt]) ?_⟩
    intro i _
    rfl
  | inr hdump =>
    obtain ⟨hfirst, rfl⟩ := hdump
    have hcounts (built : List Kernel) (hb : m.statics.Counts built) :=
      printHangName_counts m.workingQueue hb
    obtain ⟨timers, st, heq, -, -, hk⟩ := m.printHangName_eq m.workingQueue
    rw [heq] at hcounts ⊢
    refine .inr ⟨hfirst, rfl, rfl, by rw [hpending], ?_, ?_, ?_⟩
    · have hunbuilt : (if hangKill then WorkPc.exited else .popping).unbuilt = [] := by
        cases hangKill <;> rfl
      rw [hpending]
      simp only [pendingKernels, hunbuilt, List.nil_append]
      exact List.map_congr_left fun i _ ↦ hk i
    · rw [hpending]
      intro hempty
      rw [List.map_eq_nil_iff.mp hempty] at hhead
      contradiction
    · intro built hb
      rw [hpending]
      exact hcounts built hb

/-- What a step does to the numbers. -/
theorem step_cases (h : m.Recycled) {timeout : Int} {hangKill : Bool} {a : TimerAct}
    (hs : step timeout hangKill m a = some m') :
    m.Quiet m' ∨ m.Dumps m' ∨ (a = .process ∧ process m = some m') := by
  cases a with
  | getEvent thread => exact .inl (getEvent_quiet hs)
  | reset thread kernel isHost now => exact .inl (reset_quiet h hs)
  | recordEvent thread => exact .inl (recordEvent_quiet hs)
  | pop ready now => exact .inl (pop_quiet hs)
  | doHang =>
    cases doHang_spec h hs with
    | inl hquiet => exact .inl hquiet
    | inr hdumps => exact .inr (.inl hdumps)
  | process => exact .inr (.inr ⟨rfl, hs⟩)
  | returnObject => exact .inl (returnObject_quiet hs)

/-! ### Runs -/

/-- The last of a list split around an element, or one before. -/
private theorem append_singleton_split {α : Type} {l before after : List α} {x e : α}
    (h : l ++ [x] = before ++ e :: after) :
    (l = before ∧ x = e) ∨ ∃ rest, l = before ++ e :: rest := by
  rcases List.eq_nil_or_concat after with rfl | ⟨rest, last, rfl⟩
  · obtain ⟨hl, hx⟩ := List.append_inj' h rfl
    cases hx
    exact .inl ⟨hl, rfl⟩
  · rw [List.concat_eq_append, ← List.cons_append, ← List.append_assoc] at h
    exact .inr ⟨rest, (List.append_inj' h rfl).1⟩

private theorem Numbered.step (hn : m.Numbered) (h : m.Recycled) {timeout : Int} {hangKill : Bool}
    {a : TimerAct} (hs : step timeout hangKill m a = some m') : m'.Numbered := by
  rcases step_cases h hs with hq | hd | ⟨-, hp⟩
  · constructor
    · rw [hq.statics, hq.processed, hq.dumped]
      exact hn.counts
    · rw [hq.processed]
      exact hn.traceId
    · rw [hq.processed]
      exact hn.seq
  · constructor
    · rw [hd.processed, hd.dumped, ← List.append_assoc]
      exact hd.counts _ hn.counts
    · rw [hd.processed]
      exact hn.traceId
    · rw [hd.processed]
      exact hn.seq
  · obtain ⟨v, hpc, rfl⟩ := process_cases hp
    obtain ⟨hcounts, hid, hseq⟩ := TimerStatics.reBuild_spec hn.counts (m.timers v)
    constructor
    · apply hcounts.perm
      rw [List.map_append, List.append_assoc, List.append_assoc]
      exact (List.perm_append_singleton ..).append_left _
    · intro before e after he
      cases append_singleton_split he with
      | inl hlast =>
        obtain ⟨rfl, rfl⟩ := hlast
        rw [hid, List.countP_append, List.countP_map]
        rfl
      | inr hearlier =>
        obtain ⟨rest, hrest⟩ := hearlier
        exact hn.traceId before e rest hrest
    · intro before e after he
      cases append_singleton_split he with
      | inl hlast =>
        obtain ⟨rfl, rfl⟩ := hlast
        simp only [hseq, List.countP_append, List.countP_map]
        rfl
      | inr hearlier =>
        obtain ⟨rest, hrest⟩ := hearlier
        exact hn.seq before e rest hrest

private theorem numbered_init : init.Numbered where
  counts := {
    traces := ⟨fun _ ↦ rfl, fun _ _ h ↦ (nomatch h), fun _ _ _ h ↦ (nomatch h), fun _ _ ↦ rfl⟩
    seqs := fun _ ↦ rfl }
  traceId := fun before _ _ h ↦ absurd h.symm (by simp [init])
  seq := fun before _ _ h ↦ absurd h.symm (by simp [init])

/-- No dumped kernel has been processed yet: the first that is to be was dumped. -/
structure Untouched (m : GpuTimerManager) : Prop where
  clean : ∀ e ∈ m.processed, e.dumpedBefore = []
  undumped : m.hasDoHang = false → m.dumped = []
  pending : m.hasDoHang = true → ∃ k, m.pendingKernels.head? = some k ∧ k ∈ m.dumped

/-- A step that processes no item once the hang dump has run. -/
def NotAfterDump (m : GpuTimerManager) (a : TimerAct) : Prop :=
  a = .process → m.hasDoHang = false

private theorem Untouched.step (hu : m.Untouched) (h : m.Recycled) {timeout : Int} {hangKill : Bool}
    {a : TimerAct} (hok : m.NotAfterDump a) (hs : step timeout hangKill m a = some m') :
    m'.Untouched := by
  rcases step_cases h hs with hq | hd | ⟨ha, hp⟩
  · constructor
    · rw [hq.processed]
      exact hu.clean
    · rw [hq.hasDoHang, hq.dumped]
      exact hu.undumped
    · intro hdone
      rw [hq.hasDoHang] at hdone
      obtain ⟨k, hk, hmem⟩ := hu.pending hdone
      obtain ⟨rest, hrest⟩ := hq.pending
      refine ⟨k, ?_, hq.dumped ▸ hmem⟩
      rw [← hrest, List.head?_append, hk]
      rfl
  · constructor
    · rw [hd.processed]
      exact hu.clean
    · intro hnot
      rw [hd.hasDoHang] at hnot
      contradiction
    · intro _
      obtain ⟨k, hk⟩ := Option.isSome_iff_exists.mp (List.isSome_head?.mpr hd.nonempty)
      rw [hd.pending, hd.dumped]
      exact ⟨k, hk, List.mem_append_right _ (List.mem_of_mem_head? hk)⟩
  · have hnot := hok ha
    obtain ⟨v, hpc, rfl⟩ := process_cases hp
    constructor
    · intro e he
      cases List.mem_append.mp he with
      | inl he => exact hu.clean e he
      | inr he =>
        rw [List.mem_singleton.mp he]
        exact hu.undumped hnot
    · exact fun hnot ↦ hu.undumped hnot
    · intro hdone
      simp only [setTimer] at hdone
      rw [hnot] at hdone
      contradiction

/-- Processing an item after the dump gives it a number too high: it was dumped. -/
private theorem not_numbersCount_of_process (hn : m.Numbered) (hu : m.Untouched)
    (hdone : m.hasDoHang = true) (hp : process m = some m') : ¬ m'.NumbersCount := by
  intro hcount
  obtain ⟨v, hpc, rfl⟩ := process_cases hp
  obtain ⟨-, hid, -⟩ := TimerStatics.reBuild_spec hn.counts (m.timers v)
  have hlast := (hcount m.processed _ [] rfl).1
  -- the item in hand is the first pending one
  obtain ⟨k, hk, hmem⟩ := hu.pending hdone
  have hkernel : (m.timers v).kernel = k := by
    simp only [pendingKernels, hpc, WorkPc.unbuilt, List.singleton_append, List.map_cons,
      List.head?_cons, Option.some.injEq] at hk
    exact hk
  have hdumped : 0 < m.dumped.countP (·.name = (m.timers v).kernel.name) := by
    apply List.countP_pos_iff.mpr
    exact ⟨k, hmem, by simp [hkernel]⟩
  rw [hid, List.countP_append, List.countP_map] at hlast
  simp only [Function.comp_def] at hlast
  omega

private theorem NumbersCount.of_step (h : m.Recycled) {timeout : Int} {hangKill : Bool}
    {a : TimerAct} (hs : step timeout hangKill m a = some m') (hcount : m'.NumbersCount) :
    m.NumbersCount := by
  rcases step_cases h hs with hq | hd | ⟨-, hp⟩
  · unfold NumbersCount at hcount ⊢
    rw [hq.processed] at hcount
    exact hcount
  · unfold NumbersCount at hcount ⊢
    rw [hd.processed] at hcount
    exact hcount
  · obtain ⟨v, hpc, rfl⟩ := process_cases hp
    intro before e after he
    apply hcount before e (after ++ [_])
    simp only [he, List.append_assoc, List.cons_append]
    rfl

private theorem numbersCount_of_clean (hn : m.Numbered) (hu : m.Untouched) : m.NumbersCount := by
  intro before e after he
  have hclean : e.dumpedBefore = [] := by
    apply hu.clean
    rw [he]
    exact List.mem_append_right _ List.mem_cons_self
  have hid := hn.traceId before e after he
  have hseq := hn.seq before e after he
  rw [hclean] at hid hseq
  exact ⟨hid, hseq⟩

private theorem untouched_init : init.Untouched where
  clean := fun _ he ↦ absurd he List.not_mem_nil
  undumped := fun _ ↦ rfl
  pending := fun h ↦ nomatch h

/-- What a run that processes nothing after the dump keeps. -/
private theorem untouched_of_run {timeout : Int} {hangKill : Bool} {acts : List TimerAct}
    (run : Run (step timeout hangKill) NotAfterDump init acts m) : m.Recycled ∧ m.Untouched := by
  apply run.invariant (P := fun m ↦ m.Recycled ∧ m.Untouched)
  · exact ⟨recycled_init, untouched_init⟩
  · intro _ _ _ h hok hs
    exact ⟨h.1.step hs, h.2.step h.1 hok hs⟩

private theorem numbered_of_run {timeout : Int} {hangKill : Bool} {acts : List TimerAct}
    (run : Run (step timeout hangKill) anyStep init acts m) : m.Numbered := by
  have h : m.Recycled ∧ m.Numbered := by
    apply run.invariant (P := fun m ↦ m.Recycled ∧ m.Numbered)
    · exact ⟨recycled_init, numbered_init⟩
    · intro _ _ _ h _ hs
      exact ⟨h.1.step hs, h.2.step h.1 hs⟩
  exact h.2

/-- The numbers count the processed kernels of a name and of a communicator exactly in the runs
that process no item once the hang dump has run. -/
theorem numbersCount_iff (timeout : Int) (hangKill : Bool) (acts : List TimerAct)
    (m : GpuTimerManager) (run : Run (step timeout hangKill) anyStep init acts m) :
    m.NumbersCount ↔ Run (step timeout hangKill) NotAfterDump init acts m := by
  constructor
  · intro hcount
    induction run with
    | nil => exact .nil
    | snoc a run _ hs ih =>
      have before := ih (NumbersCount.of_step (recycled_of_run run) hs hcount)
      refine .snoc a before ?_ hs
      rintro rfl
      cases hdone : GpuTimerManager.hasDoHang _ with
      | false => rfl
      | true =>
        have hbad := not_numbersCount_of_process (numbered_of_run run) (untouched_of_run before).2
          hdone hs
        exact absurd hcount hbad
  · intro hrun
    exact numbersCount_of_clean (numbered_of_run run) (untouched_of_run hrun).2

/-- Three kernels processed before any hang: the two of one name are numbered 1 and 2. -/
theorem numbersCount_iff_hangless :
    ∃ m, Run (step 300 false) anyStep init
        [.getEvent 0, .reset 0 ⟨"allreduce", 8, some 7⟩ false 0, .recordEvent 0, .pop true 1,
          .process, .getEvent 0, .returnObject, .reset 0 ⟨"gemm", 8, none⟩ false 2,
          .getEvent 1, .recordEvent 0, .reset 1 ⟨"allreduce", 8, some 7⟩ false 3, .pop true 3,
          .recordEvent 1, .process, .returnObject, .pop true 4, .process] m ∧
      m.processed.map (fun e ↦ (e.traceId, e.seq)) = [(1, some 1), (1, none), (2, some 2)] ∧
      (m.NumbersCount ↔ Run (step 300 false) NotAfterDump init
        [.getEvent 0, .reset 0 ⟨"allreduce", 8, some 7⟩ false 0, .recordEvent 0, .pop true 1,
          .process, .getEvent 0, .returnObject, .reset 0 ⟨"gemm", 8, none⟩ false 2,
          .getEvent 1, .recordEvent 0, .reset 1 ⟨"allreduce", 8, some 7⟩ false 3, .pop true 3,
          .recordEvent 1, .process, .returnObject, .pop true 4, .process] m) := by
  have eval : (List.foldlM (step 300 false) init
      [.getEvent 0, .reset 0 ⟨"allreduce", 8, some 7⟩ false 0, .recordEvent 0, .pop true 1,
        .process, .getEvent 0, .returnObject, .reset 0 ⟨"gemm", 8, none⟩ false 2,
        .getEvent 1, .recordEvent 0, .reset 1 ⟨"allreduce", 8, some 7⟩ false 3, .pop true 3,
        .recordEvent 1, .process, .returnObject, .pop true 4, .process]).map
      (fun m ↦ m.processed.map fun e ↦ (e.traceId, e.seq)) =
      some [(1, some 1), (1, none), (2, some 2)] := by
    decide +kernel
  obtain ⟨m, hm, he⟩ := Option.map_eq_some_iff.mp eval
  have run := run_of_foldlM hm
  exact ⟨m, run, he, numbersCount_iff _ _ _ m run⟩

/-! ### A hang that ends -/

/-- Polls that find the front item not ready only raise its hang counter. -/
private theorem foldlM_notReady (timeout now : Int) (hangKill : Bool) {v : Nat} {q : List Nat}
    (n : Nat) (hpc : m.pc = .popping) (hq : m.workingQueue = v :: q)
    (hhost : (m.timers v).isHost = false) (hready : m.isReady = false)
    (hflag : m.isHangFlag = false) (hn : (m.timers v).hangCounter + n ≤ hangCounterEstimator) :
    (List.replicate n (TimerAct.pop false now)).foldlM (step timeout hangKill) m =
      some (m.setTimer v { m.timers v with hangCounter := (m.timers v).hangCounter + n }) := by
  induction n generalizing m with
  | zero => simp [setTimer]
  | succ n ih =>
    have hlt : (m.timers v).hangCounter < hangCounterEstimator := by omega
    have hstep : step timeout hangKill m (.pop false now) =
        some (m.setTimer v { m.timers v with hangCounter := (m.timers v).hangCounter + 1 }) := by
      simp [step, pop, hpc, hq, GpuTimer.isHang, GpuTimer.isReady, hlt, hhost, setTimer, hready,
        hflag]
    rw [List.replicate_succ, List.foldlM_cons, hstep]
    refine (ih ?_ ?_ ?_ ?_ ?_ ?_).trans ?_
    · exact hpc
    · exact hq
    · simpa using hhost
    · exact hready
    · exact hflag
    · simp only [setTimer_timers, if_true]
      omega
    · simp [setTimer, Nat.add_assoc, Nat.add_comm 1 n]

/-- One collective is launched, found not ready `hangCounterEstimator` times and judged hung;
the dump rebuilds it, and once it is ready `doWork` records it as the second of its name and of
its communicator. -/
theorem numbersCount_after_hang :
    ∃ acts m, Run (step 300 false) anyStep init acts m ∧
      m.processed = [⟨0, ⟨"allreduce", 8, some 7⟩, 2, some 2, [⟨"allreduce", 8, some 7⟩]⟩] ∧
      ¬ m.NumbersCount := by
  let launch : List TimerAct :=
    [.getEvent 0, .reset 0 ⟨"allreduce", 8, some 7⟩ false 0, .recordEvent 0]
  let polls : List TimerAct := List.replicate hangCounterEstimator (.pop false 1)
  let hang : List TimerAct := [.pop false 301, .doHang, .pop true 302, .process]
  let queued : GpuTimerManager := (launch.foldlM (step 300 false) init).get (by decide +kernel)
  have hlaunch : launch.foldlM (step 300 false) init = some queued := (Option.some_get _).symm
  have hpolls : polls.foldlM (step 300 false) queued =
      some (queued.setTimer 0 { queued.timers 0 with hangCounter := 0 + hangCounterEstimator }) :=
    foldlM_notReady (v := 0) (q := []) 300 1 false hangCounterEstimator rfl rfl rfl rfl rfl
      (Nat.le_of_eq (Nat.zero_add _))
  have hhang : (hang.foldlM (step 300 false)
      (queued.setTimer 0 { queued.timers 0 with hangCounter := 0 + hangCounterEstimator })).map
      processed = some [⟨0, ⟨"allreduce", 8, some 7⟩, 2, some 2, [⟨"allreduce", 8, some 7⟩]⟩] := by
    decide +kernel
  obtain ⟨m, hm, he⟩ := Option.map_eq_some_iff.mp hhang
  refine ⟨launch ++ (polls ++ hang), m, ?_, he, ?_⟩
  · apply run_of_foldlM
    rw [List.foldlM_append, hlaunch, Option.bind_eq_bind, Option.bind_some, List.foldlM_append,
      hpolls, Option.bind_eq_bind, Option.bind_some, hm]
  · intro hcount
    have := (hcount [] _ [] he).1
    simp at this

end GpuTimerManager

end ProbingBaselines.XpuTimer
