import ProbingBaselines.XpuTimer.KernelTrace

/-!
# Force-reset and stranded ranks

A force-reset brings every rank to `reset_trace_barrier`, a finished dump brings it to the
`after_dump` barrier. A request that arrives while some ranks are bound for the one and the
others for the other strands them. It is the only way to do so: the ranks never wait in two
barriers if every reset request that raises the flag finds either none or all of them bound
for `after_dump`.
-/

namespace ProbingBaselines.XpuTimer

open Lib

/-- The rank is past the check of `reset_flag` for an item that will complete the dump. -/
def TraceRank.willDump (t : TraceRank) : Bool :=
  match t.pc with
  | .checked item => t.hasTriggerTrace && t.hasDoPrepareForDump && t.isFull item
  | .pushing item => t.hasDoPrepareForDump && t.isFull item
  | .dumping => true
  | _ => false

/-- A rank prepares a dump only after it was triggered, and pushes only then. -/
structure TraceRank.Sound (t : TraceRank) : Prop where
  prepared : t.hasDoPrepareForDump = true → t.hasTriggerTrace = true
  armed : ∀ item, t.pc = .armed item → t.hasDoPrepareForDump = false
  pushing : ∀ item, t.pc = .pushing item → t.hasTriggerTrace = true

/-- A rank that is neither armed nor pushing. -/
private theorem TraceRank.Sound.of_pc {t : TraceRank}
    (prepared : t.hasDoPrepareForDump = true → t.hasTriggerTrace = true)
    (armed : ∀ item, t.pc ≠ .armed item) (pushing : ∀ item, t.pc ≠ .pushing item) : t.Sound :=
  ⟨prepared, fun item h ↦ absurd h (armed item), fun item h ↦ absurd h (pushing item)⟩

/-- Between the entries of `reset_trace_barrier` and of the barrier of `reset("reset")`. -/
def TracePc.inReset : TracePc → Bool
  | .waiting .resetTrace => true
  | .clearing => true
  | .resetting => true
  | _ => false

namespace TraceSystem

/-- The rank is bound for `after_dump`, or waits in it. -/
def Committed (n : Nat) (s : TraceSystem) (r : Nat) : Prop :=
  (s.ranks r).willDump = true ∨ s.Waits n r .afterDump

instance (n : Nat) (s : TraceSystem) (r : Nat) : Decidable (s.Committed n r) :=
  inferInstanceAs (Decidable (_ ∨ _))

/-- The step stores a `reset_flag` that was not set. -/
def raisesFlag (s : TraceSystem) : TraceAct → Bool
  | .handle i =>
    match s.handlers i with
    | .storing (.resetFlag true :: _) => !s.switch.resetFlag
    | _ => false
  | _ => false

/-- The flag is raised only when none or all of the ranks are bound for `after_dump`. -/
def Undivided (n : Nat) (s : TraceSystem) (a : TraceAct) : Prop :=
  s.raisesFlag a = true → (∀ r < n, ¬s.Committed n r) ∨ ∀ r < n, s.Committed n r

instance (n : Nat) (s : TraceSystem) (a : TraceAct) : Decidable (s.Undivided n a) :=
  inferInstanceAs (Decidable (_ → _))

/-- What every state of an undivided run satisfies. -/
structure Aligned (n : Nat) (s : TraceSystem) : Prop where
  rounds : Rounds n s.entered s.loc
  sound : ∀ r < n, (s.ranks r).Sound
  cycle : ∀ r < n, s.entered .resetTrace r =
    s.entered .reset r + if (s.ranks r).pc.inReset then 1 else 0
  once : ∀ r < n, s.entered .init r = if (s.ranks r).pc = .starting then 0 else 1
  flag : ∀ r < n, (s.ranks r).pc = .noticed ∨ s.Waits n r .resetTrace → s.switch.resetFlag = true
  commits : s.switch.resetFlag = true → (∀ r < n, ¬s.Committed n r) ∨ ∀ r < n, s.Committed n r
  raises : ∀ i left, s.handlers i = .storing left → .resetFlag false ∉ left

variable {n : Nat} {s s' : TraceSystem} {r q : Nat}

private theorem aligned_start (traceCount : Nat) : (start traceCount).Aligned n where
  rounds := ⟨fun _ _ _ _ _ _ ↦ Nat.le_refl 0, fun _ _ _ _ _ ↦ Nat.zero_le 1⟩
  sound := fun _ _ ↦ .of_pc nofun nofun nofun
  cycle := fun _ _ ↦ rfl
  once := fun _ _ ↦ rfl
  flag := by
    intro r _ h
    cases h with
    | inl h => cases h
    | inr h => cases h.1
  commits := fun h ↦ nomatch h
  raises := fun _ _ h ↦ nomatch h

/-- A rank that has passed `reset_trace_barrier` left no rank on its way to it. -/
private theorem Aligned.none_resetting (h : s.Aligned n) (hr : r < n)
    (hpc : (s.ranks r).pc = .clearing) (hq : q < n) :
    (s.ranks q).pc ≠ .noticed ∧ ¬s.Waits n q .resetTrace := by
  have hrel := h.rounds.behind r hr .resetTrace (by rw [loc, hpc]; nofun)
  have hcr := h.cycle r hr
  rw [hpc] at hcr
  simp only [TracePc.inReset, if_true] at hcr
  have hcq := h.cycle q hq
  constructor
  · intro hn
    rw [hn] at hcq
    simp only [TracePc.inReset, Bool.false_eq_true, if_false] at hcq
    have := hrel q hq
    have := h.rounds.behind q hq .reset (by rw [loc, hn]; nofun) r hr
    omega
  · rintro ⟨hl, hwait⟩
    rcases not_released.mp hwait with ⟨i, hi, hlt⟩
    rw [loc] at hl
    have hin : (s.ranks q).pc = .waiting .resetTrace := by
      cases hp : (s.ranks q).pc with
      | waiting b =>
        rw [hp] at hl
        cases hl
        rfl
      | _ =>
        rw [hp] at hl
        cases hl
    rw [hin] at hcq
    simp only [TracePc.inReset, if_true] at hcq
    have := hrel i hi
    have := h.rounds.behind q hq .reset (by rw [loc, hin]; nofun) r hr
    omega

/-- The other ranks see the same barriers and buffers. -/
private theorem committed_of_ne {t : TraceRank} (hs : s'.ranks = Function.update s.ranks r t)
    (he : s'.entered = s.entered) (hq : q ≠ r) : s'.Committed n q ↔ s.Committed n q := by
  simp only [Committed, Waits, loc, hs, he, Function.update_of_ne hq]

private theorem Aligned.sound_update (h : s.Aligned n) {t : TraceRank}
    (hs : s'.ranks = Function.update s.ranks r t) (hsound : t.Sound) :
    ∀ q < n, (s'.ranks q).Sound := by
  intro q hq
  by_cases hqr : q = r
  · subst hqr
    rw [hs, Function.update_self]
    exact hsound
  · rw [hs, Function.update_of_ne hqr]
    exact h.sound q hq

/-- A rank's step that enters no barrier. -/
private theorem Aligned.move (h : s.Aligned n) (hr : r < n) {t : TraceRank}
    (hs : s'.ranks = Function.update s.ranks r t) (he : s'.entered = s.entered)
    (hh : s'.handlers = s.handlers) (hout : t.pc.barrier? = none)
    (hleave : ∀ b, s.loc r = some b → Released n s.entered b r)
    (hsound : t.Sound)
    (hin : t.pc.inReset = (s.ranks r).pc.inReset)
    (hstart : t.pc ≠ .starting ∧ (s.ranks r).pc ≠ .starting)
    (hflag : s'.switch.resetFlag = s.switch.resetFlag ∨
      (s.ranks r).pc = .clearing ∧ s'.switch.resetFlag = false)
    (hnotice : t.pc = .noticed → s'.switch.resetFlag = true)
    (hcommit : s'.switch.resetFlag = true → (t.willDump = true ↔ s.Committed n r)) :
    s'.Aligned n := by
  have hself : s'.ranks r = t := by rw [hs, Function.update_self]
  have hother {q : Nat} (hq : q ≠ r) : s'.ranks q = s.ranks q := by
    rw [hs, Function.update_of_ne hq]
  constructor
  · rw [he]
    apply h.rounds.leave
    intro q hq b hne hl
    by_cases hqr : q = r
    · subst hqr
      exact hleave b hl
    · rw [loc, hother hqr] at hne
      exact absurd hl hne
  · exact h.sound_update hs hsound
  · intro q hq
    rw [he, h.cycle q hq]
    by_cases hqr : q = r
    · subst hqr
      rw [hself, hin]
    · rw [hother hqr]
  · intro q hq
    rw [he, h.once q hq]
    by_cases hqr : q = r
    · subst hqr
      rw [hself, if_neg hstart.1, if_neg hstart.2]
    · rw [hother hqr]
  · intro q hq hwait
    by_cases hqr : q = r
    · subst hqr
      rw [Waits, loc, hself, hout] at hwait
      rcases hwait with hn | ⟨hl, _⟩
      · exact hnotice hn
      · cases hl
    · rw [Waits, loc, hother hqr, he] at hwait
      rcases hflag with hf | ⟨hpc, _⟩
      · rw [hf]
        exact h.flag q hq hwait
      · have := h.none_resetting hr hpc hq
        exact absurd hwait (not_or.mpr this)
  · intro hf
    have hold : s.switch.resetFlag = true := by
      rcases hflag with he | ⟨_, hno⟩
      · rwa [he] at hf
      · rw [hno] at hf
        contradiction
    have hsame {q : Nat} : s'.Committed n q ↔ s.Committed n q := by
      by_cases hqr : q = r
      · subst hqr
        rw [← hcommit hf, Committed, Waits, loc, hself, hout]
        simp
      · exact committed_of_ne hs he hqr
    simp only [hsame]
    exact h.commits hold
  · rw [hh]
    exact h.raises

/-- A rank enters `after_dump`: those bound for it wait on, or it was the last. -/
private theorem Aligned.commits_afterDump (h : s.Aligned n) (hr : r < n) (hout : s.loc r = none)
    {t : TraceRank} (hs : s'.ranks = Function.update s.ranks r t)
    (he : s'.entered = enter s.entered .afterDump r) (ht : t.pc = .waiting .afterDump)
    (hall : ∀ q < n, s.Committed n q) :
    (∀ q < n, ¬s'.Committed n q) ∨ ∀ q < n, s'.Committed n q := by
  have hself : s'.ranks r = t := by rw [hs, Function.update_self]
  have hnot : t.willDump = false := by rw [TraceRank.willDump, ht]
  have hother {q : Nat} (hq : q ≠ r) : s'.ranks q = s.ranks q := by
    rw [hs, Function.update_of_ne hq]
  by_cases hrel : Released n (enter s.entered .afterDump r) .afterDump r
  · left
    intro q hq hc
    rw [Committed, Waits, he] at hc
    by_cases hqr : q = r
    · subst hqr
      rw [hself, hnot] at hc
      exact hc.elim (fun h ↦ nomatch h) fun h ↦ h.2 hrel
    · rcases h.rounds.last hr hrel hq hqr with ⟨hl, hq'⟩
      rcases hc with hw | hw
      · rw [hother hqr] at hw
        rw [loc] at hl
        cases hp : (s.ranks q).pc <;> simp_all [TraceRank.willDump, TracePc.barrier?]
      · exact hw.2 hq'
  · right
    intro q hq
    rw [Committed, Waits, he, loc]
    by_cases hqr : q = r
    · subst hqr
      right
      rw [hself, ht]
      exact ⟨rfl, hrel⟩
    · rw [hother hqr]
      rcases hall q hq with hw | ⟨hl, hw⟩
      · exact .inl hw
      · exact .inr ⟨hl, h.rounds.not_last hr hout hrel hqr hw⟩

/-- The trace resets of a rank after it enters barrier `b`. -/
private theorem Aligned.cycle_enter (h : s.Aligned n) {t : TraceRank} {b : TraceBarrier}
    (hs : s'.ranks = Function.update s.ranks r t) (he : s'.entered = enter s.entered b r)
    (ht : t.pc = .waiting b) (hin : (s.ranks r).pc.inReset = true ↔ b = .reset) :
    ∀ q < n, s'.entered .resetTrace q =
      s'.entered .reset q + if (s'.ranks q).pc.inReset then 1 else 0 := by
  intro q hq
  have hc := h.cycle q hq
  rw [he, enter_apply, enter_apply]
  by_cases hqr : q = r
  · subst hqr
    rw [hs, Function.update_self, ht]
    cases hpr : (s.ranks q).pc.inReset with
    | true =>
      rw [hpr, if_pos rfl] at hc
      rw [hin.mp hpr]
      simp only [TracePc.inReset]
      simp
      omega
    | false =>
      have hb : b ≠ .reset := fun hb ↦ by
        rw [hin.mpr hb] at hpr
        contradiction
      rw [hpr] at hc
      cases b <;> simp_all [TracePc.inReset]
  · rw [if_neg fun hc ↦ hqr hc.2, if_neg fun hc ↦ hqr hc.2, hs, Function.update_of_ne hqr]
    exact hc

/-- Entering another barrier than `after_dump` commits nobody. -/
private theorem committed_enter {t : TraceRank} {b : TraceBarrier}
    (hs : s'.ranks = Function.update s.ranks r t) (he : s'.entered = enter s.entered b r)
    (hout : s.loc r = none) (ht : t.pc = .waiting b) (hb : b ≠ .afterDump)
    (hold : (s.ranks r).willDump ≠ true) : s'.Committed n q ↔ s.Committed n q := by
  by_cases hqr : q = r
  · subst hqr
    have hself : s'.ranks q = t := by rw [hs, Function.update_self]
    have hloc : s'.loc q = some b := by
      rw [loc, hself, ht]
      rfl
    have hnew : t.willDump ≠ true := by
      rw [TraceRank.willDump, ht]
      nofun
    simp [Committed, Waits, hloc, hself, hold, hnew, hout, hb]
  · have hrel : Released n (enter s.entered b r) .afterDump q ↔
        Released n s.entered .afterDump q := by
      simp only [Released, enter_of_ne (Ne.symm hb)]
    rw [Committed, Committed, Waits, Waits, loc, loc, he, hs, Function.update_of_ne hqr, hrel]

/-- A rank's step that enters barrier `b`. -/
private theorem Aligned.enterBarrier (h : s.Aligned n) (hr : r < n) {t : TraceRank}
    {b : TraceBarrier} (hs : s'.ranks = Function.update s.ranks r t)
    (he : s'.entered = enter s.entered b r)
    (hsw : s'.switch = s.switch) (hh : s'.handlers = s.handlers) (hout : s.loc r = none)
    (ht : t.pc = .waiting b)
    (hsound : t.Sound)
    (hin : (s.ranks r).pc.inReset = true ↔ b = .reset)
    (hstart : (s.ranks r).pc = .starting ↔ b = .init)
    (hflag : b = .resetTrace → s.switch.resetFlag = true)
    (hcommit : (s.ranks r).willDump = true ↔ b = .afterDump) : s'.Aligned n := by
  have hself : s'.ranks r = t := by rw [hs, Function.update_self]
  have hother {q : Nat} (hq : q ≠ r) : s'.ranks q = s.ranks q := by
    rw [hs, Function.update_of_ne hq]
  have hloc : s'.loc = Function.update s.loc r (some b) := by
    funext q
    by_cases hqr : q = r
    · subst hqr
      rw [Function.update_self, loc, hself, ht]
      rfl
    · rw [Function.update_of_ne hqr, loc, hother hqr, loc]
  constructor
  · rw [he]
    exact h.rounds.enter hr hout hloc
  · exact h.sound_update hs hsound
  · exact h.cycle_enter hs he ht hin
  · intro q hq
    have hc := h.once q hq
    rw [he, enter_apply]
    by_cases hqr : q = r
    · subst hqr
      rw [hself, ht, if_neg (show TracePc.waiting b ≠ .starting by nofun), hc]
      by_cases hb : b = .init
      · rw [if_pos ⟨hb.symm, rfl⟩, if_pos (hstart.mpr hb)]
      · rw [if_neg fun hc ↦ hb hc.1.symm, if_neg fun hs ↦ hb (hstart.mp hs)]
    · rw [if_neg fun hc ↦ hqr hc.2, hother hqr]
      exact hc
  · intro q hq hwait
    rw [hsw]
    by_cases hqr : q = r
    · subst hqr
      rw [Waits, loc, hself, ht] at hwait
      rcases hwait with hn | ⟨hl, _⟩
      · cases hn
      · exact hflag (Option.some.inj hl)
    · rw [Waits, loc, hother hqr, he] at hwait
      apply h.flag q hq
      rcases hwait with hn | ⟨hl, hw⟩
      · exact .inl hn
      · exact .inr ⟨hl, fun hrel ↦ hw (hrel.enter (.inr hqr))⟩
  · intro hf
    rw [hsw] at hf
    by_cases hb : b = .afterDump
    · subst hb
      have hc : s.Committed n r := .inl (hcommit.mpr rfl)
      have hall := (h.commits hf).resolve_left fun hno ↦ hno r hr hc
      exact h.commits_afterDump hr hout hs he ht hall
    · have hsame {q : Nat} : s'.Committed n q ↔ s.Committed n q :=
        committed_enter hs he hout ht hb fun hw ↦ hb (hcommit.mp hw)
      simp only [hsame]
      exact h.commits hf
  · rw [hh]
    exact h.raises

/-- The daemon's stores leave the ranks and the barriers alone. -/
private theorem Aligned.handle (h : s.Aligned n) {i : Nat} (ok : s.Undivided n (.handle i))
    (hs : s.handle i = some s') : s'.Aligned n := by
  have frame {t : TraceSystem} (hr : t.ranks = s.ranks) (he : t.entered = s.entered)
      (hf : t.switch.resetFlag = s.switch.resetFlag ∨
        t.switch.resetFlag = true ∧ s.raisesFlag (.handle i) = true) {pc : HandlerPc}
      (hh : t.handlers = Function.update s.handlers i pc)
      (hpc : ∀ left, pc = .storing left → .resetFlag false ∉ left) : t.Aligned n := by
    have hc {q : Nat} : t.Committed n q ↔ s.Committed n q := by
      rw [Committed, Committed, Waits, Waits, loc, loc, hr, he]
    have hl : t.loc = s.loc := by
      funext q
      rw [loc, loc, hr]
    constructor
    · rw [he, hl]
      exact h.rounds
    · rw [hr]
      exact h.sound
    · rw [hr, he]
      exact h.cycle
    · rw [hr, he]
      exact h.once
    · intro q hq hw
      rw [hr, Waits, hl, he] at hw
      rcases hf with hf | hf
      · rw [hf]
        exact h.flag q hq hw
      · exact hf.1
    · intro ht
      simp only [hc]
      rcases hf with hf | hf
      · rw [hf] at ht
        exact h.commits ht
      · exact ok hf.2
    · intro j left hj
      rw [hh] at hj
      by_cases hji : j = i
      · subst hji
        rw [Function.update_self] at hj
        exact hpc left hj
      · rw [Function.update_of_ne hji] at hj
        exact h.raises j left hj
  unfold TraceSystem.handle at hs
  split at hs
  · contradiction
  · next req _ =>
    cases hs
    refine frame rfl rfl (.inl rfl) rfl ?_
    intro left hl
    split at hl
    · cases hl
    · split at hl
      · cases hl
        decide
      · cases hl
  · next req _ =>
    cases hs
    refine frame rfl rfl (.inl rfl) rfl ?_
    intro left hl
    split at hl
    · cases hl
    · cases hl
      simp [DumpKernelTraceRequest.stores]
  · cases hs
    exact frame rfl rfl (.inl rfl) rfl fun _ h ↦ nomatch h
  · next w left hpc =>
    cases hs
    have hw := h.raises i _ hpc
    rw [List.mem_cons, not_or] at hw
    refine frame rfl rfl ?_ rfl ?_
    · cases w with
      | resetFlag v =>
        cases v with
        | true =>
          cases hflag : s.switch.resetFlag with
          | true => exact .inl rfl
          | false => exact .inr ⟨rfl, by simp [raisesFlag, hpc, hflag]⟩
        | false => exact absurd rfl hw.1
      | _ => exact .inl rfl
    · intro left' hl
      cases hl
      exact hw.2

/-- A rank in no barrier is bound for `after_dump` by its own buffer only. -/
private theorem committed_iff (hout : s.loc r = none) :
    s.Committed n r ↔ (s.ranks r).willDump = true := by
  simp [Committed, Waits, hout]

/-- A rank's step outside the barriers that changes its state as `hcommit` allows. -/
private theorem Aligned.moveOn (h : s.Aligned n) (hr : r < n) {t : TraceRank}
    (hout : s.loc r = none) (hs : s'.ranks = Function.update s.ranks r t)
    (he : s'.entered = s.entered) (hh : s'.handlers = s.handlers)
    (hsw : s'.switch.resetFlag = s.switch.resetFlag)
    (ht : t.pc.barrier? = none ∧ t.pc.inReset = false ∧ t.pc ≠ .starting ∧ t.pc ≠ .noticed)
    (hpc : (s.ranks r).pc.inReset = false ∧ (s.ranks r).pc ≠ .starting)
    (hsound : t.Sound)
    (hcommit : s.switch.resetFlag = true → t.willDump = (s.ranks r).willDump) : s'.Aligned n := by
  refine h.move hr hs he hh ht.1 ?_ hsound ?_ ⟨ht.2.2.1, hpc.2⟩ (.inl hsw) ?_ ?_
  · intro b hb
    rw [hout] at hb
    cases hb
  · rw [ht.2.1, hpc.1]
  · intro hn
    exact absurd hn ht.2.2.2
  · intro hf
    rw [committed_iff hout, hcommit (hsw ▸ hf)]

private theorem Aligned.triggerTrace (h : s.Aligned n) (hr : r < n) {item : WorkItem}
    (hs : s.triggerTrace r item = some s') : s'.Aligned n := by
  unfold TraceSystem.triggerTrace at hs
  split at hs
  · next hpc =>
    have hout : s.loc r = none := by rw [loc, hpc]; rfl
    have hidle : (s.ranks r).willDump = false := by rw [TraceRank.willDump, hpc]
    have hsound := h.sound r hr
    split at hs
    · next hf =>
      cases hs
      refine h.move hr rfl rfl rfl rfl ?_ (.of_pc hsound.prepared nofun nofun) ?_ ?_ (.inl rfl)
        (fun _ ↦ hf) ?_
      · intro b hb
        rw [hout] at hb
        cases hb
      · rw [hpc]
        rfl
      · rw [hpc]
        exact ⟨nofun, nofun⟩
      · intro _
        rw [committed_iff hout, hidle]
        rfl
    · next hf =>
      cases hs
      refine h.moveOn hr hout rfl rfl rfl rfl ⟨rfl, rfl, nofun, nofun⟩ ?_
        (.of_pc hsound.prepared nofun nofun) fun hf' ↦ absurd hf' hf
      rw [hpc]
      exact ⟨rfl, nofun⟩
  · contradiction

/-- The steps of `triggerTrace` and `pushTrace` past the check of `reset_flag`. -/
private theorem Aligned.push (h : s.Aligned n) (hr : r < n) {item : WorkItem} {now : Int}
    (hpc : (s.ranks r).pc = .checked item ∨ (s.ranks r).pc = .armed item ∨
      (s.ranks r).pc = .pushing item) (hs : s.advance n r now = some s') : s'.Aligned n := by
  have hout : s.loc r = none := by rcases hpc with hpc | hpc | hpc <;> rw [loc, hpc] <;> rfl
  have hold : (s.ranks r).pc.inReset = false ∧ (s.ranks r).pc ≠ .starting := by
    rcases hpc with hpc | hpc | hpc <;> rw [hpc] <;> exact ⟨rfl, nofun⟩
  have hsound := h.sound r hr
  -- what `moveOn` asks of the step
  have go {t : TraceRank} (hs : s' = s.setRank r t)
      (ht : t.pc.barrier? = none ∧ t.pc.inReset = false ∧ t.pc ≠ .starting ∧ t.pc ≠ .noticed)
      (hsound : t.Sound) (hw : t.willDump = (s.ranks r).willDump) : s'.Aligned n := by
    subst hs
    exact h.moveOn hr hout rfl rfl rfl rfl ht hold hsound fun _ ↦ hw
  rcases hpc with hpc | hpc | hpc
  · simp only [advance, hpc] at hs
    split at hs
    · next htrig =>
      refine go (Option.some.inj hs).symm ⟨rfl, rfl, nofun, nofun⟩
        ⟨hsound.prepared, nofun, fun _ _ ↦ htrig⟩ ?_
      simp [TraceRank.willDump, hpc, htrig, TraceRank.isFull]
    · next htrig =>
      have hno : (s.ranks r).hasDoPrepareForDump = false :=
        Bool.eq_false_iff.mpr fun hp ↦ htrig (hsound.prepared hp)
      split at hs
      · refine go (Option.some.inj hs).symm ⟨rfl, rfl, nofun, nofun⟩
          (.of_pc hsound.prepared nofun nofun) ?_
        simp [TraceRank.willDump, hpc, htrig]
      · refine go (Option.some.inj hs).symm ⟨rfl, rfl, nofun, nofun⟩
          ⟨hsound.prepared, fun _ _ ↦ hno, nofun⟩ ?_
        simp [TraceRank.willDump, hpc, htrig]
  · have hno := hsound.armed item hpc
    simp only [advance, hpc] at hs
    split at hs
    · refine go (Option.some.inj hs).symm ⟨rfl, rfl, nofun, nofun⟩
        ⟨fun _ ↦ rfl, nofun, fun _ _ ↦ rfl⟩ ?_
      simp [TraceRank.willDump, hpc, hno]
    · refine go (Option.some.inj hs).symm ⟨rfl, rfl, nofun, nofun⟩
        (.of_pc hsound.prepared nofun nofun) ?_
      simp [TraceRank.willDump, hpc]
  · have htrig := hsound.pushing item hpc
    simp only [advance, hpc] at hs
    split at hs
    · next hno =>
      refine go (Option.some.inj hs).symm ⟨rfl, rfl, nofun, nofun⟩
        (.of_pc (fun _ ↦ htrig) nofun nofun) ?_
      simp [TraceRank.willDump, hpc, hno]
    · next hp =>
      have hp : (s.ranks r).hasDoPrepareForDump = true := by simpa using hp
      split at hs
      · next hfull =>
        refine go (Option.some.inj hs).symm ⟨rfl, rfl, nofun, nofun⟩
          (.of_pc hsound.prepared nofun nofun) ?_
        simp [TraceRank.willDump, hpc, hp, hfull]
      · next hfull =>
        split at hs
        · refine go (Option.some.inj hs).symm ⟨rfl, rfl, nofun, nofun⟩
            (.of_pc hsound.prepared nofun nofun) ?_
          simp [TraceRank.willDump, hpc, hfull]
        · refine go (Option.some.inj hs).symm ⟨rfl, rfl, nofun, nofun⟩
            (.of_pc hsound.prepared nofun nofun) ?_
          simp [TraceRank.willDump, hpc, hfull]

/-- A rank enters a barrier by `reset`. -/
private theorem Aligned.reset (h : s.Aligned n) (hr : r < n) {b : TraceBarrier}
    (hout : s.loc r = none) (hin : (s.ranks r).pc.inReset = true ↔ b = .reset)
    (hstart : (s.ranks r).pc = .starting ↔ b = .init) (hb : b ≠ .resetTrace)
    (hcommit : (s.ranks r).willDump = true ↔ b = .afterDump) : (s.reset r b).Aligned n := by
  refine h.enterBarrier hr (t := { s.ranks r with
      pc := .waiting b
      hasDoPrepareForDump := false
      hasTriggerTrace := false }) ?_ rfl rfl rfl hout rfl
    (.of_pc nofun nofun nofun) hin hstart (fun h ↦ absurd h hb) hcommit
  simp [TraceSystem.reset, TraceSystem.enterBarrier, setPc, setRank]

private theorem Aligned.advance (h : s.Aligned n) (hr : r < n) {now : Int}
    (hs : s.advance n r now = some s') : s'.Aligned n := by
  have hsound := h.sound r hr
  cases hpc : (s.ranks r).pc with
  | starting =>
    simp only [TraceSystem.advance, hpc, Option.some.injEq] at hs
    subst hs
    apply h.reset hr (by rw [loc, hpc]; rfl) <;> simp [hpc, TracePc.inReset, TraceRank.willDump]
  | idle =>
    simp only [TraceSystem.advance, hpc] at hs
    contradiction
  | checked item => exact h.push hr (.inl hpc) hs
  | armed item => exact h.push hr (.inr (.inl hpc)) hs
  | pushing item => exact h.push hr (.inr (.inr hpc)) hs
  | noticed =>
    simp only [TraceSystem.advance, hpc, Option.some.injEq] at hs
    subst hs
    refine h.enterBarrier hr rfl rfl rfl rfl (by rw [loc, hpc]; rfl) rfl
      (.of_pc hsound.prepared nofun nofun) ?_ ?_ ?_ ?_
    · simp [hpc, TracePc.inReset]
    · simp [hpc]
    · intro _
      exact h.flag r hr (.inl hpc)
    · simp [TraceRank.willDump, hpc]
  | counting =>
    simp only [TraceSystem.advance, hpc, Option.some.injEq] at hs
    subst hs
    refine h.moveOn hr (by rw [loc, hpc]; rfl) rfl rfl rfl rfl ⟨rfl, rfl, nofun, nofun⟩ ?_
      (.of_pc hsound.prepared nofun nofun) fun _ ↦ ?_
    · simp [hpc, TracePc.inReset]
    · simp [TraceRank.willDump, hpc]
  | dumping =>
    simp only [TraceSystem.advance, hpc, Option.some.injEq] at hs
    subst hs
    apply h.reset hr (by rw [loc, hpc]; rfl) <;> simp [hpc, TracePc.inReset, TraceRank.willDump]
  | waiting b =>
    have hloc : s.loc r = some b := by rw [loc, hpc]; rfl
    simp only [TraceSystem.advance, hpc] at hs
    split at hs
    · next hrel =>
      cases hs
      refine h.move hr rfl rfl rfl ?_ ?_ ⟨hsound.prepared, ?_, ?_⟩ ?_ ?_ (.inl rfl) ?_ fun _ ↦ ?_
      · cases b <;> rfl
      · intro b' hb'
        rw [hloc] at hb'
        cases hb'
        exact hrel
      · cases b <;> exact fun _ h ↦ nomatch h
      · cases b <;> exact fun _ h ↦ nomatch h
      · cases b <;> simp [hpc, TracePc.inReset]
      · cases b <;> simp [hpc]
      · cases b <;> exact fun h ↦ nomatch h
      · cases b <;> simp [TraceRank.willDump, Committed, Waits, hloc, hpc, hrel]
    · contradiction
  | clearing =>
    simp only [TraceSystem.advance, hpc, Option.some.injEq] at hs
    subst hs
    refine h.move hr rfl rfl rfl rfl ?_ (.of_pc hsound.prepared nofun nofun)
      ?_ ?_ (.inr ⟨hpc, rfl⟩) (fun h ↦ nomatch h) fun h ↦ nomatch h
    · intro b hb
      rw [loc, hpc] at hb
      cases hb
    · simp [hpc, TracePc.inReset]
    · simp [hpc]
  | resetting =>
    simp only [TraceSystem.advance, hpc, Option.some.injEq] at hs
    subst hs
    apply h.reset hr (by rw [loc, hpc]; rfl) <;> simp [hpc, TracePc.inReset, TraceRank.willDump]
  | stopping b =>
    simp only [TraceSystem.advance, hpc, Option.some.injEq] at hs
    subst hs
    refine h.moveOn hr (by rw [loc, hpc]; rfl) rfl rfl rfl rfl ⟨rfl, rfl, nofun, nofun⟩ ?_
      (.of_pc hsound.prepared nofun nofun) fun _ ↦ ?_
    · simp [hpc, TracePc.inReset]
    · simp [TraceRank.willDump, hpc]

private theorem Aligned.step (h : s.Aligned n) {a : TraceAct} (ok : s.Undivided n a)
    (hs : s.step n a = some s') : s'.Aligned n := by
  cases a with
  | item r item =>
    simp only [TraceSystem.step] at hs
    split at hs
    · next hr => exact h.triggerTrace hr hs
    · contradiction
  | advance r now =>
    simp only [TraceSystem.step] at hs
    split at hs
    · next hr => exact h.advance hr hs
    · contradiction
  | request i req =>
    simp only [TraceSystem.step] at hs
    split at hs
    · cases hs
      refine ⟨h.rounds, h.sound, h.cycle, h.once, h.flag, h.commits, ?_⟩
      intro j left hj
      simp only at hj
      by_cases hji : j = i
      · subst hji
        rw [Function.update_self] at hj
        cases hj
      · rw [Function.update_of_ne hji] at hj
        exact h.raises j left hj
    · contradiction
  | handle i => exact h.handle ok hs

private theorem pc_of_loc {b : TraceBarrier} (h : s.loc r = some b) :
    (s.ranks r).pc = .waiting b := by
  rw [loc] at h
  cases hp : (s.ranks r).pc with
  | waiting b' =>
    rw [hp] at h
    cases h
    rfl
  | _ =>
    rw [hp] at h
    cases h

/-- A rank in another barrier is behind in the one that a rank waits in. -/
private theorem Aligned.behind (h : s.Aligned n) (hq : q < n) {b b' : TraceBarrier}
    (hr : s.Waits n r b) (hl : s.loc q = some b') (hne : b' ≠ b) :
    s.entered b q < s.entered b r := by
  rcases not_released.mp hr.2 with ⟨i, hi, hlt⟩
  have hrel := h.rounds.behind q hq b (by rw [hl]; exact fun he ↦ hne (Option.some.inj he))
  exact Nat.lt_of_le_of_lt (hrel i hi) hlt

/-- While a rank waits in the first barrier, no rank waits in another. -/
private theorem Aligned.not_init (h : s.Aligned n) (hr : r < n) (hq : q < n) {b : TraceBarrier}
    (hw : s.Waits n r .init) (hw' : s.Waits n q b) : b = .init := by
  by_contra hne
  have hlt := h.behind hq hw hw'.1 hne
  have hor := h.once r hr
  have hoq := h.once q hq
  rw [pc_of_loc hw.1, if_neg (by nofun)] at hor
  rw [pc_of_loc hw'.1, if_neg (by nofun)] at hoq
  omega

/-- While a rank waits in the barrier of `reset("reset")`, so does every rank that waits: it has
passed `reset_trace_barrier`, which released them all. -/
private theorem Aligned.not_reset (h : s.Aligned n) (hr : r < n) (hq : q < n) {b : TraceBarrier}
    (hw : s.Waits n r .reset) (hw' : s.Waits n q b) : b = .reset := by
  by_contra hne
  have hlt := h.behind hq hw hw'.1 hne
  have hcr := h.cycle r hr
  have hcq := h.cycle q hq
  rw [pc_of_loc hw.1] at hcr
  rw [pc_of_loc hw'.1] at hcq
  have hrel := h.rounds.behind r hr .resetTrace (by rw [hw.1]; nofun)
  have hle := hrel q hq
  cases b with
  | reset => exact hne rfl
  | resetTrace =>
    rcases not_released.mp hw'.2 with ⟨i, hi, hi'⟩
    have := hrel i hi
    simp only [TracePc.inReset, Bool.false_eq_true, if_false, if_true] at hcr hcq
    omega
  | init =>
    simp only [TracePc.inReset, Bool.false_eq_true, if_false] at hcr hcq
    omega
  | afterDump =>
    simp only [TracePc.inReset, Bool.false_eq_true, if_false] at hcr hcq
    omega

/-- No rank waits in `reset_trace_barrier` while another waits in `after_dump`. -/
private theorem Aligned.not_afterDump (h : s.Aligned n) (hr : r < n) (hq : q < n)
    (hw : s.Waits n r .resetTrace) (hw' : s.Waits n q .afterDump) : False := by
  have hf := h.flag r hr (.inr hw)
  have hall := (h.commits hf).resolve_left fun hno ↦ hno q hq (.inr hw')
  rcases hall r hr with hc | hc
  · simp [TraceRank.willDump, pc_of_loc hw.1] at hc
  · have := hw.1.symm.trans hc.1
    contradiction

private theorem Aligned.same_barrier (h : s.Aligned n) (hr : r < n) (hq : q < n)
    {b b' : TraceBarrier} (hw : s.Waits n r b) (hw' : s.Waits n q b') : b = b' := by
  cases b with
  | init => exact (h.not_init hr hq hw hw').symm
  | reset => exact (h.not_reset hr hq hw hw').symm
  | resetTrace =>
    cases b' with
    | init => exact h.not_init hq hr hw' hw
    | reset => exact h.not_reset hq hr hw' hw
    | resetTrace => rfl
    | afterDump => exact (h.not_afterDump hr hq hw hw').elim
  | afterDump =>
    cases b' with
    | init => exact h.not_init hq hr hw' hw
    | reset => exact h.not_reset hq hr hw' hw
    | resetTrace => exact (h.not_afterDump hq hr hw' hw).elim
    | afterDump => rfl

/-- However the ranks and the daemon's handlers interleave, no two ranks wait in differently
named barriers, provided that a reset request raises the flag only when none or all of the
ranks are bound for `after_dump`. -/
theorem forceReset_unstranded (n traceCount : Nat) (acts : List TraceAct) (s : TraceSystem)
    (run : Run (step n) (Undivided n) (start traceCount) acts s) :
    ∀ r < n, ∀ q < n, ∀ b b', s.Waits n r b → s.Waits n q b' → b = b' := by
  have h : s.Aligned n :=
    run.invariant (aligned_start traceCount) fun _ _ _ ht ok hs ↦ ht.step ok hs
  intro r hr q hq b b' hw hw'
  exact h.same_barrier hr hq hw hw'

/-- A rank takes up the items of a dump of one event until it waits in `after_dump`. -/
def dumpSteps (r : Nat) : List TraceAct :=
  [.item r ⟨1, true⟩] ++ List.replicate 4 (.advance r 0) ++
    [.item r ⟨1, true⟩, .advance r 0, .advance r 0, .item r ⟨1, true⟩] ++
    List.replicate 3 (.advance r 0)

/-- Two ranks through the first `reset`, a request to dump one event of any kind, and rank 0
until it waits in `after_dump`. -/
def dumpByRank0 : List TraceAct :=
  [.advance 0 0, .advance 1 0, .advance 0 0, .advance 1 0, .advance 0 0, .advance 1 0,
    .request 0 ⟨1, 0, 0, false⟩] ++ List.replicate 8 (.handle 0) ++ dumpSteps 0

/-- A force-reset after a dump by both ranks: rank 0 is the first in `reset_trace_barrier`. -/
theorem forceReset_unstranded_dumped :
    ∃ s, Run (step 2) (Undivided 2) (start 1000)
        (dumpByRank0 ++ dumpSteps 1 ++ [.request 0 ⟨0, 0, 0, true⟩] ++
          List.replicate 3 (.handle 0) ++
          [.advance 0 0, .advance 0 0, .item 0 ⟨1, true⟩, .advance 0 0]) s ∧
      s.Waits 2 0 .resetTrace ∧ ∀ b, s.Waits 2 1 b → .resetTrace = b := by
  have eval : (List.foldlM (fun s a ↦ if Undivided 2 s a then step 2 s a else none) (start 1000)
      (dumpByRank0 ++ dumpSteps 1 ++ ([.request 0 ⟨0, 0, 0, true⟩] : List TraceAct) ++
        List.replicate 3 (TraceAct.handle 0) ++
        ([.advance 0 0, .advance 0 0, .item 0 ⟨1, true⟩, .advance 0 0] : List TraceAct))).map
      (fun s ↦ decide (s.Waits 2 0 .resetTrace)) = some true := by
    decide +kernel
  rcases Option.map_eq_some_iff.mp eval with ⟨s, hs, hw⟩
  have run := run_of_guarded hs
  have hw := of_decide_eq_true hw
  exact ⟨s, run, hw, fun b hb ↦
    forceReset_unstranded 2 1000 _ s run 0 (by decide) 1 (by decide) _ _ hw hb⟩

/-- Rank 0 has dumped when a force-reset arrives, rank 1 has not: rank 0 waits in `after_dump`,
rank 1 in `reset_trace_barrier`. -/
theorem forceReset_strands :
    ∃ s, Run (step 2) anyStep (start 1000)
        (dumpByRank0 ++ [.request 0 ⟨0, 0, 0, true⟩] ++ List.replicate 3 (.handle 0) ++
          [.item 1 ⟨1, true⟩, .advance 1 0]) s ∧
      s.Waits 2 0 .afterDump ∧ s.Waits 2 1 .resetTrace := by
  have eval : (List.foldlM (step 2) (start 1000)
      (dumpByRank0 ++ ([.request 0 ⟨0, 0, 0, true⟩] : List TraceAct) ++
        List.replicate 3 (TraceAct.handle 0) ++
        ([.item 1 ⟨1, true⟩, .advance 1 0] : List TraceAct))).map
      (fun s ↦ decide (s.Waits 2 0 .afterDump ∧ s.Waits 2 1 .resetTrace)) = some true := by
    decide +kernel
  rcases Option.map_eq_some_iff.mp eval with ⟨s, hs, hw⟩
  exact ⟨s, run_of_foldlM hs, of_decide_eq_true hw⟩

end TraceSystem

end ProbingBaselines.XpuTimer
