import Mathlib.Logic.Function.Basic
import ProbingBaselines.Lib.Run

/-!
# The inter-process barrier

`InterProcessBarrierImpl` (`common/util.cc:64-137`) keeps one flag for each rank in a shared
memory segment that a crashed run may have left behind. Every rank resets the flags of all
ranks, at a moment of its own, and only then polls them and sets its own. A step is one access
to the segment or to its name.
-/

namespace ProbingBaselines.XpuTimer

open Lib

/-- Where a rank stands in the constructor; `index` is the next flag of the loop it is in. -/
inductive BarrierPc where
  | outside
  | opened
  | finding (index : Nat)
  | resetting (index : Nat)
  | polling (index : Nat) (ready : Bool)
  | left
  | removed

namespace BarrierPc

/-- The rank has opened the segment. -/
def attached : BarrierPc → Bool
  | .outside => false
  | _ => true

/-- The rank is past its reset-all loop; `common/util.cc:103`. -/
def hasReset : BarrierPc → Bool
  | .polling .. => true
  | .left => true
  | .removed => true
  | _ => false

/-- The rank has left the polling loop; `common/util.cc:133`. -/
def hasLeft : BarrierPc → Bool
  | .left => true
  | .removed => true
  | _ => false

/-- The rank has reset the flag of rank `i`. -/
def hasResetFlag (i : Nat) : BarrierPc → Bool
  | .resetting index => i < index
  | pc => pc.hasReset

end BarrierPc

/-- The segments and the ranks. A flag is missing until its rank constructs it; `linked` is the
segment that the barrier's name leads to, and `seg` the one a rank has open. -/
structure Barrier where
  flags : Nat → Nat → Option Bool
  linked : Option Nat
  created : Nat
  pcs : Nat → BarrierPc
  seg : Nat → Nat

namespace Barrier

/-- Before the round: no segment, or one with any contents. -/
def start : Option (Nat → Option Bool) → Barrier
  | none => ⟨fun _ _ ↦ none, none, 0, fun _ ↦ .outside, fun _ ↦ 0⟩
  | some stale => ⟨fun _ ↦ stale, some 0, 1, fun _ ↦ .outside, fun _ ↦ 0⟩

/-- A rank moves on in the constructor. -/
def moveTo (s : Barrier) (r : Nat) (pc : BarrierPc) : Barrier :=
  { s with pcs := Function.update s.pcs r pc }

/-- A store to the flag of rank `i` in the segment of rank `r`. -/
def setFlag (s : Barrier) (r i : Nat) (v : Bool) : Barrier :=
  { s with
    flags := Function.update s.flags (s.seg r) (Function.update (s.flags (s.seg r)) i (some v)) }

/-- `managed_shared_memory(open_or_create, ..)`; `common/util.cc:67-68`. -/
def openSegment (s : Barrier) (r : Nat) : Barrier :=
  match s.linked with
  | some g => moveTo { s with seg := Function.update s.seg r g } r .opened
  | none => moveTo
      { s with
        flags := Function.update s.flags s.created fun _ ↦ none
        linked := some s.created
        created := s.created + 1
        seg := Function.update s.seg r s.created } r .opened

/-- The next step of rank `r` in a world of `worldSize` ranks. -/
def step (worldSize : Nat) (s : Barrier) (r : Nat) : Option Barrier :=
  if r < worldSize then
    match s.pcs r with
    | .outside => some (s.openSegment r)
    | .opened =>
      -- find the own flag, or construct it
      match s.flags (s.seg r) r with
      | some _ => some (s.moveTo r (.finding 0))
      | none => some ((s.setFlag r r false).moveTo r (.finding 0))
    | .finding index =>
      if index < worldSize then
        match s.flags (s.seg r) index with
        | some _ => some (s.moveTo r (.finding (index + 1)))
        | none => some s
      else some (s.moveTo r (.resetting 0))
    | .resetting index =>
      if index < worldSize then
        some ((s.setFlag r index false).moveTo r (.resetting (index + 1)))
      else some (s.moveTo r (.polling 0 true))
    | .polling index ready =>
      if index < worldSize then
        some (s.moveTo r (.polling (index + 1) (s.flags (s.seg r) index = some true && ready)))
      else some ((s.setFlag r r true).moveTo r (if ready then .left else .polling 0 true))
    | .left => some (moveTo { s with linked := none } r .removed)
    | .removed => none
  else none

/-- What every reachable state satisfies: a flag that some rank has reset is set again only by
its own rank, which has then reset them all. -/
structure Safe (n : Nat) (s : Barrier) : Prop where
  same : ∀ r < n, ∀ q < n, (s.pcs r).attached = true → (s.pcs q).attached = true →
    s.seg r = s.seg q
  linked : (∀ q < n, s.pcs q ≠ .removed) → ∀ r < n, (s.pcs r).attached = true →
    s.linked = some (s.seg r)
  flag : ∀ r < n, ∀ i < n, (s.pcs r).hasResetFlag i = true → s.flags (s.seg r) i = some true →
    (s.pcs i).hasReset = true
  ready : ∀ r < n, ∀ index, s.pcs r = .polling index true → ∀ i < n, i < index →
    (s.pcs i).hasReset = true
  left : ∀ r < n, (s.pcs r).hasLeft = true → ∀ i < n, (s.pcs i).hasReset = true

variable {n : Nat} {s s' : Barrier} {p : Nat}

private theorem safe_start (shm : Option (Nat → Option Bool)) : (start shm).Safe n := by
  have hpc (r : Nat) : (start shm).pcs r = .outside := by cases shm <;> rfl
  constructor
  · intro r _ q _ hr
    rw [hpc] at hr
    contradiction
  · intro _ r _ hr
    rw [hpc] at hr
    contradiction
  · intro r _ i _ hr
    rw [hpc] at hr
    contradiction
  · intro r _ index hr
    rw [hpc] at hr
    contradiction
  · intro r _ hr
    rw [hpc] at hr
    contradiction

/-- A rank past its reset-all loop stays past it. -/
private theorem hasReset_update {pc : BarrierPc}
    (hmono : (s.pcs p).hasReset = true → pc.hasReset = true) {i : Nat}
    (h : (s.pcs i).hasReset = true) : (Function.update s.pcs p pc i).hasReset = true := by
  by_cases hi : i = p
  · subst hi
    rw [Function.update_self]
    exact hmono h
  · rwa [Function.update_of_ne hi]

/-- A step of a rank in its segment: only the own flag is set, and only past the reset. -/
private theorem Safe.advance (h : s.Safe n) {pc : BarrierPc} (hp : p < n)
    (hold : (s.pcs p).attached = true ∧ s.pcs p ≠ .removed)
    (hs : s'.pcs = Function.update s.pcs p pc) (hseg : s'.seg = s.seg)
    (hlinked : pc = .removed ∨ s'.linked = s.linked)
    (hmono : (s.pcs p).hasReset = true → pc.hasReset = true)
    (hflags : ∀ g i, s'.flags g i = some true →
      s.flags g i = some true ∨ i = p ∧ pc.hasReset = true)
    (hreset : ∀ i < n, pc.hasResetFlag i = true →
      (s.pcs p).hasResetFlag i = true ∨ s'.flags (s.seg p) i ≠ some true)
    (hready : ∀ index, pc = .polling index true → ∀ i < n, i < index →
      (s.pcs i).hasReset = true)
    (hleft : pc.hasLeft = true → ∀ i < n, (s.pcs i).hasReset = true) : s'.Safe n := by
  have hattached {r : Nat} (hr : (s'.pcs r).attached = true) : (s.pcs r).attached = true := by
    by_cases he : r = p
    · subst he
      exact hold.1
    · rwa [hs, Function.update_of_ne he] at hr
  have hkeep {i : Nat} (hi : (s.pcs i).hasReset = true) : (s'.pcs i).hasReset = true := by
    rw [hs]
    exact hasReset_update hmono hi
  constructor
  · intro r hr q hq ar aq
    rw [hseg]
    exact h.same r hr q hq (hattached ar) (hattached aq)
  · intro hno r hr ar
    have hpc : pc ≠ .removed := by
      have := hno p hp
      rwa [hs, Function.update_self] at this
    rw [hlinked.resolve_left hpc, hseg]
    apply h.linked _ r hr (hattached ar)
    intro q hq
    by_cases he : q = p
    · subst he
      exact hold.2
    · have := hno q hq
      rwa [hs, Function.update_of_ne he] at this
  · intro r hr i hi hri hf
    rw [hseg] at hf
    rcases hflags _ _ hf with hf' | ⟨rfl, hpc⟩
    · apply hkeep
      by_cases he : r = p
      · subst he
        rw [hs, Function.update_self] at hri
        exact h.flag r hr i hi ((hreset i hi hri).resolve_right fun hn ↦ hn hf) hf'
      · rw [hs, Function.update_of_ne he] at hri
        exact h.flag r hr i hi hri hf'
    · rw [hs, Function.update_self]
      exact hpc
  · intro r hr index hpc i hi hlt
    apply hkeep
    by_cases he : r = p
    · subst he
      rw [hs, Function.update_self] at hpc
      exact hready index hpc i hi hlt
    · rw [hs, Function.update_of_ne he] at hpc
      exact h.ready r hr index hpc i hi hlt
  · intro r hr hl i hi
    apply hkeep
    by_cases he : r = p
    · subst he
      rw [hs, Function.update_self] at hl
      exact hleft hl i hi
    · rw [hs, Function.update_of_ne he] at hl
      exact h.left r hr hl i hi

private theorem setFlag_flags (s : Barrier) (r i g j : Nat) (v : Bool) :
    (s.setFlag r i v).flags g j = if g = s.seg r ∧ j = i then some v else s.flags g j := by
  unfold setFlag
  by_cases hg : g = s.seg r
  · subst hg
    by_cases hj : j = i
    · simp [hj]
    · simp [hj]
  · simp [hg]

/-- A rank opens the segment `g` that the others have open. -/
private theorem Safe.attach (h : s.Safe n) (hpc : s.pcs p = .outside) {g : Nat}
    (hg : ∀ r < n, (s.pcs r).attached = true → s.seg r = g)
    (hs : s'.pcs = Function.update s.pcs p .opened) (hseg : s'.seg = Function.update s.seg p g)
    (hl : s'.linked = some g)
    (hflags : ∀ r < n, (s.pcs r).attached = true → s'.flags (s.seg r) = s.flags (s.seg r)) :
    s'.Safe n := by
  have hother {r : Nat} (hr : r ≠ p) : s'.pcs r = s.pcs r ∧ s'.seg r = s.seg r := by
    rw [hs, hseg, Function.update_of_ne hr, Function.update_of_ne hr]
    exact ⟨rfl, rfl⟩
  have hself : s'.pcs p = .opened := by rw [hs, Function.update_self]
  have hsegs {r : Nat} (hr : r < n) (ar : (s'.pcs r).attached = true) : s'.seg r = g := by
    by_cases he : r = p
    · subst he
      rw [hseg, Function.update_self]
    · rw [(hother he).1] at ar
      rw [(hother he).2]
      exact hg r hr ar
  have hkeep {i : Nat} (hi : (s.pcs i).hasReset = true) : (s'.pcs i).hasReset = true := by
    rw [hs]
    apply hasReset_update _ hi
    intro hpr
    rw [hpc] at hpr
    contradiction
  constructor
  · intro r hr q hq ar aq
    rw [hsegs hr ar, hsegs hq aq]
  · intro _ r hr ar
    rw [hl, hsegs hr ar]
  · intro r hr i hi hri hf
    by_cases he : r = p
    · subst he
      rw [hself] at hri
      contradiction
    · rw [(hother he).1] at hri
      have ar : (s.pcs r).attached = true := by
        cases hpr : s.pcs r with
        | outside =>
          rw [hpr] at hri
          contradiction
        | _ => rfl
      rw [(hother he).2, hflags r hr ar] at hf
      exact hkeep (h.flag r hr i hi hri hf)
  · intro r hr index hpr i hi hlt
    by_cases he : r = p
    · subst he
      rw [hself] at hpr
      contradiction
    · rw [(hother he).1] at hpr
      exact hkeep (h.ready r hr index hpr i hi hlt)
  · intro r hr hlr i hi
    by_cases he : r = p
    · subst he
      rw [hself] at hlr
      contradiction
    · rw [(hother he).1] at hlr
      exact hkeep (h.left r hr hlr i hi)

/-- A rank that opens the segment finds the one the others have open, for none has been removed:
whoever removed it saw every rank past its reset. -/
private theorem Safe.openSegment (h : s.Safe n) (hp : p < n) (hpc : s.pcs p = .outside) :
    (s.openSegment p).Safe n := by
  have hno : ∀ q < n, s.pcs q ≠ .removed := by
    intro q hq he
    have := h.left q hq (by rw [he]; rfl) p hp
    rw [hpc] at this
    contradiction
  have hlinked := h.linked hno
  unfold Barrier.openSegment
  split
  · next g hg =>
    refine h.attach hpc ?_ rfl rfl hg fun r _ _ ↦ rfl
    intro r hr ar
    have := hlinked r hr ar
    rw [hg] at this
    exact (Option.some.inj this).symm
  · next hg =>
    have hnone (r : Nat) (hr : r < n) : (s.pcs r).attached ≠ true := by
      intro ar
      have := hlinked r hr ar
      rw [hg] at this
      contradiction
    refine h.attach hpc ?_ rfl rfl rfl ?_
    · intro r hr ar
      exact absurd ar (hnone r hr)
    · intro r hr ar
      exact absurd ar (hnone r hr)

/-- A step that stores no flag. -/
private theorem Safe.moveTo (h : s.Safe n) {pc : BarrierPc} (hp : p < n)
    (hold : (s.pcs p).attached = true ∧ s.pcs p ≠ .removed)
    (hmono : (s.pcs p).hasReset = true → pc.hasReset = true)
    (hreset : ∀ i < n, pc.hasResetFlag i = true → (s.pcs p).hasResetFlag i = true)
    (hready : ∀ index, pc = .polling index true → ∀ i < n, i < index →
      (s.pcs i).hasReset = true)
    (hleft : pc.hasLeft = false) : (s.moveTo p pc).Safe n := by
  refine h.advance hp hold rfl rfl (.inr rfl) hmono ?_ ?_ hready ?_
  · intro g i hf
    exact .inl hf
  · intro i hi hri
    exact .inl (hreset i hi hri)
  · intro hl
    rw [hleft] at hl
    contradiction

private theorem Safe.construct (h : s.Safe n) (hp : p < n) (hpc : s.pcs p = .opened) :
    ((s.setFlag p p false).moveTo p (.finding 0)).Safe n := by
  refine h.advance hp (by rw [hpc]; exact ⟨rfl, nofun⟩) rfl rfl (.inr rfl) ?_ ?_ ?_ ?_ ?_
  · rw [hpc]
    exact nofun
  · intro g i hf
    simp only [Barrier.moveTo, setFlag_flags] at hf
    split at hf
    · cases hf
    · exact .inl hf
  · intro i _ hri
    cases hri
  · exact fun _ h ↦ nomatch h
  · exact fun h ↦ nomatch h

private theorem Safe.reset (h : s.Safe n) (hp : p < n) {index : Nat}
    (hpc : s.pcs p = .resetting index) :
    ((s.setFlag p index false).moveTo p (.resetting (index + 1))).Safe n := by
  refine h.advance hp (by rw [hpc]; exact ⟨rfl, nofun⟩) rfl rfl (.inr rfl) ?_ ?_ ?_ ?_ ?_
  · rw [hpc]
    exact nofun
  · intro g i hf
    simp only [Barrier.moveTo, setFlag_flags] at hf
    split at hf
    · cases hf
    · exact .inl hf
  · intro i hi hri
    rw [hpc]
    simp only [BarrierPc.hasResetFlag, decide_eq_true_eq] at hri ⊢
    by_cases he : i = index
    · right
      simp [Barrier.moveTo, setFlag_flags, he]
    · left
      omega
  · exact fun _ h ↦ nomatch h
  · exact fun h ↦ nomatch h

private theorem Safe.poll (h : s.Safe n) (hp : p < n) {index : Nat} {ready : Bool}
    (hpc : s.pcs p = .polling index ready) (hlt : index < n) :
    (s.moveTo p (.polling (index + 1) (s.flags (s.seg p) index = some true && ready))).Safe n := by
  refine h.moveTo hp (by rw [hpc]; exact ⟨rfl, nofun⟩) (fun _ ↦ rfl) ?_ ?_ rfl
  · intro i _ _
    rw [hpc]
    rfl
  · intro j hj i hi hij
    rw [BarrierPc.polling.injEq, Bool.and_eq_true, decide_eq_true_eq] at hj
    rcases hj with ⟨rfl, hf, rfl⟩
    by_cases he : i = index
    · subst he
      exact h.flag p hp i hi (by rw [hpc]; rfl) hf
    · exact h.ready p hp index hpc i hi (by omega)

/-- The end of a polling pass: the own flag is set, and the rank leaves if it saw all set. -/
private theorem Safe.setOwn (h : s.Safe n) (hp : p < n) {index : Nat} {ready : Bool}
    (hpc : s.pcs p = .polling index ready) (hge : ¬index < n) :
    ((s.setFlag p p true).moveTo p (if ready then .left else .polling 0 true)).Safe n := by
  refine h.advance hp (by rw [hpc]; exact ⟨rfl, nofun⟩) rfl rfl (.inr rfl) ?_ ?_ ?_ ?_ ?_
  · intro _
    cases ready <;> rfl
  · intro g i hf
    simp only [Barrier.moveTo, setFlag_flags] at hf
    split at hf
    · next he => exact .inr ⟨he.2, by cases ready <;> rfl⟩
    · exact .inl hf
  · intro i _ _
    rw [hpc]
    exact .inl rfl
  · intro j hj i hi hij
    cases ready with
    | true => contradiction
    | false =>
      rw [if_neg Bool.false_ne_true, BarrierPc.polling.injEq] at hj
      omega
  · intro hl i hi
    cases ready with
    | true => exact h.ready p hp index hpc i hi (by omega)
    | false => contradiction

private theorem Safe.step (h : s.Safe n) (hs : s.step n p = some s') : s'.Safe n := by
  unfold Barrier.step at hs
  split at hs
  case isFalse => contradiction
  case isTrue hp =>
    split at hs
    · next hpc =>
      cases hs
      exact h.openSegment hp hpc
    · next hpc =>
      split at hs
      · cases hs
        exact h.moveTo hp (by rw [hpc]; exact ⟨rfl, nofun⟩) (by rw [hpc]; exact nofun)
          (fun _ _ h ↦ nomatch h) (fun _ h ↦ nomatch h) rfl
      · cases hs
        exact h.construct hp hpc
    · next index hpc =>
      have hold : (s.pcs p).attached = true ∧ s.pcs p ≠ .removed := by
        rw [hpc]
        exact ⟨rfl, nofun⟩
      split at hs
      · split at hs
        · cases hs
          exact h.moveTo hp hold (by rw [hpc]; exact nofun)
            (fun _ _ h ↦ nomatch h) (fun _ h ↦ nomatch h) rfl
        · cases hs
          exact h
      · cases hs
        refine h.moveTo hp hold (by rw [hpc]; exact nofun) ?_ (fun _ h ↦ nomatch h) rfl
        intro i _ hi
        simp [BarrierPc.hasResetFlag] at hi
    · next index hpc =>
      split at hs
      · cases hs
        exact h.reset hp hpc
      · next hge =>
        cases hs
        refine h.moveTo hp (by rw [hpc]; exact ⟨rfl, nofun⟩) (fun _ ↦ rfl) ?_ ?_ rfl
        · intro i hi _
          rw [hpc]
          simp only [BarrierPc.hasResetFlag, decide_eq_true_eq]
          omega
        · intro j hj i _ hij
          rw [BarrierPc.polling.injEq] at hj
          omega
    · next index ready hpc =>
      split at hs
      · next hlt =>
        cases hs
        exact h.poll hp hpc hlt
      · next hge =>
        cases hs
        exact h.setOwn hp hpc hge
    · next hpc =>
      cases hs
      refine h.advance hp (by rw [hpc]; exact ⟨rfl, nofun⟩) rfl rfl (.inl rfl) (fun _ ↦ rfl) ?_ ?_
        (fun _ h ↦ nomatch h) ?_
      · intro g i hf
        exact .inl hf
      · intro i _ _
        rw [hpc]
        exact .inl rfl
      · intro _ i hi
        exact h.left p hp (by rw [hpc]; rfl) i hi
    · contradiction

/-- Whatever a crashed run left in the segment and however the ranks' steps interleave: once a
rank has left the barrier, every rank has entered it and is past its reset-all loop. -/
theorem barrier_safe (worldSize : Nat) (shm : Option (Nat → Option Bool)) (acts : List Nat)
    (s : Barrier) (run : Run (step worldSize) anyStep (start shm) acts s) (r : Nat)
    (hr : r < worldSize) (left : (s.pcs r).hasLeft = true) :
    ∀ i < worldSize, (s.pcs i).attached = true ∧ (s.pcs i).hasReset = true ∧
      ∀ index, s.pcs i ≠ .resetting index := by
  have h : s.Safe worldSize := run.invariant (safe_start shm) fun _ _ _ ht _ hs ↦ ht.step hs
  intro i hi
  have hreset := h.left r hr left i hi
  cases hpc : s.pcs i with
  | polling index ready => exact ⟨rfl, rfl, nofun⟩
  | left => exact ⟨rfl, rfl, nofun⟩
  | removed => exact ⟨rfl, rfl, nofun⟩
  | _ =>
    rw [hpc] at hreset
    contradiction

/-- Two ranks on a segment left with both flags set: rank 0 resets the flag that rank 1 has set
again, and rank 1 leaves two passes later. -/
theorem barrier_safe_stale :
    ∃ s, Run (step 2) anyStep (start (some fun _ ↦ some true))
        (List.replicate 11 1 ++ List.replicate 11 0 ++ List.replicate 6 1) s ∧
      (s.pcs 1).hasLeft = true ∧ (s.pcs 0).hasReset = true := by
  have h : ∃ s, Run (step 2) anyStep (start (some fun _ ↦ some true))
      (List.replicate 11 1 ++ List.replicate 11 0 ++ List.replicate 6 1) s ∧
      (s.pcs 1).hasLeft = true := ⟨_, run_of_foldlM rfl, rfl⟩
  rcases h with ⟨s, run, left⟩
  exact ⟨s, run, left, (barrier_safe 2 _ _ s run 1 (by decide) left 0 (by decide)).2.1⟩

end Barrier

end ProbingBaselines.XpuTimer
