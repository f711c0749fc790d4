import Mathlib.Logic.Relation
import ProbingBaselines.Greyhound.TaskAttribution

/-!
# When pause-and-validate wedges

The controller writes the keys of a pair one after the other
(`detector/control_plane/global_controller.py:75-84`) while the workers poll between two
broadcasts (`detector/event_handler.cpp:230-261`). If group rank 0 takes its task in an
iteration in which its peer has found no task yet, it waits for the peer inside its call while
the peer waits for it inside the broadcast. Here a call returns once the peer has entered the
matching one, and a broadcast on the other ranks once group rank 0 has entered it.
-/

namespace ProbingBaselines.Greyhound

open Lib

/-- How often a rank has entered a call of a role towards a global rank. -/
def callsTo (c : Clique) (log : List Execution) (role : Int) (peer : Nat) : Nat :=
  log.countP fun
    | .gemm => false
    | .p2p a => a.role == role && c.group2global a.peer.toNat == peer

/-- A `send` or `recv` returns once the peer has entered as many calls of the other role
towards this rank; a computation, or a role that is neither, waits for nobody;
`event_handler.cpp:38-75`. -/
def matched {R P : Type} (c : Clique) (s : Fleet R P) (r : Nat) : Execution → Bool
  | .gemm => true
  | .p2p a =>
    if a.role = 0 ∨ a.role = 1 then
      callsTo c (s.entered r) a.role (c.group2global a.peer.toNat) ≤
        callsTo c (s.entered (c.group2global a.peer.toNat)) (1 - a.role) r
    else true

/-- The protocol with calls that wait for their peer. -/
def Setup.waiting {R P : Type} (c : Clique) (root : Nat) (fromBytes : R → P) : Setup R P :=
  ⟨c, root, fromBytes, matched c⟩

namespace Setup

variable {R P : Type} (S : Setup R P)

/-- A rank waits inside its call for a peer that has not entered the matching one. -/
def P2pBlocked (s : Fleet R P) (r y : Nat) : Prop :=
  ∃ a, (s.workers r).pc = .running (.p2p a) ∧ y = S.clique.group2global a.peer.toNat ∧
    S.returns s r (.p2p a) = false

/-- A rank waits inside a broadcast that group rank 0 has not entered. -/
def BroadcastBlocked (s : Fleet R P) (r : Nat) : Prop :=
  (s.workers r).pc = .broadcasting ∧ s.sent.length ≤ (s.workers r).round

/-- Who waits for whom. -/
def Waits (s : Fleet R P) (x y : Nat) : Prop :=
  S.P2pBlocked s x y ∨ BroadcastBlocked s x ∧ y = S.root

/-- A rank is blocked in its call, its peer in the broadcast, and group rank 0 waits, directly
or not, for that rank. -/
def Wedged (s : Fleet R P) : Prop :=
  ∃ a b, S.P2pBlocked s a b ∧ BroadcastBlocked s b ∧ Relation.ReflTransGen (S.Waits s) S.root a

/-- A step of the worker of a rank. -/
def workerAct (r : Nat) : Act R → Prop
  | .poll r' | .ack r' | .finish r' _ | .report r' | .leave r' => r' = r
  | .check => r = S.root
  | _ => False

/-- No wedge, and while the job is paused a worker of the world `ranks` can step. -/
def Unwedged (ranks : List Nat) (s : Fleet R P) : Prop :=
  ¬ S.Wedged s ∧ (s.pausing = true → ∃ r, (r = S.root ∨ r ∈ ranks) ∧
    ∃ a s', S.workerAct r a ∧ S.step s a = some s')

end Setup

/-- The key of rank 0 is written and rank 0 enters its call; rank 1 finds no task yet and enters
the broadcast. -/
def wedgeSchedule : List (Act Nat) := [.control, .poll 0, .ack 0, .poll 1]

/-- On a ring of two ranks the protocol can wedge. -/
theorem pauseValidate_wedges :
    ¬ ∀ (c : Clique) (root : Nat) (fromBytes : Nat → Nat) (ring : List Nat) (tasks : List CommTask)
      (start : Fleet Nat Nat) (acts : List (Act Nat)) (s : Fleet Nat Nat),
      2 ≤ ring.length → (ring.map c.group2global).Nodup → (∀ g ∈ ring, g < 2 ^ 31) →
      splitRing ring = some tasks → (Setup.waiting c root fromBytes).Start tasks start →
      Run (Setup.waiting c root fromBytes).step anyStep start acts s →
      (Setup.waiting c root fromBytes).Unwedged (ring.map c.group2global) s := by
  intro h
  let S : Setup Nat Nat := .waiting pairClique 0 id
  have eval : (wedgeSchedule.foldlM S.step (S.fresh [⟨[0], [1]⟩, ⟨[1], [0]⟩])).map
      (fun s ↦ ((s.workers 0).pc, s.workers 1, s.sent, s.entered 0, s.entered 1)) =
      some (.running (.p2p ⟨0, 1, 4096⟩), ⟨.broadcasting, 0⟩, [], [.p2p ⟨0, 1, 4096⟩], []) := by
    decide +kernel
  obtain ⟨s, hs, he⟩ := Option.map_eq_some_iff.mp eval
  simp only [Prod.mk.injEq] at he
  obtain ⟨h0, h1, hsent, he0, he1⟩ := he
  refine (h pairClique 0 id [0, 1] _ _ _ s (by decide) (by decide) (by decide) rfl
    (S.start_fresh _) (run_of_foldlM hs)).1 ⟨0, 1, ⟨_, h0, rfl, ?_⟩, ⟨?_, ?_⟩, .refl⟩
  · simp [Setup.waiting, matched, callsTo, pairClique, he0, he1]
  · rw [h1]
  · rw [h1, hsent]
    exact Nat.le_refl 0

/-! ### Matching calls -/

private theorem callsTo_append (c : Clique) (l l' : List Execution) (role : Int) (y : Nat) :
    callsTo c (l ++ l') role y = callsTo c l role y + callsTo c l' role y :=
  List.countP_append

private theorem callsTo_singleton (c : Clique) (j : Job) (role : ProcessRole) (y : Nat) :
    callsTo c [.p2p j.args] role.code y =
      if j.role = role ∧ c.group2global j.peer = y then 1 else 0 := by
  have hcode : ((j.role.code : Int) = role.code) ↔ j.role = role := by
    cases j.role <;> cases role <;> simp [ProcessRole.code]
  simp [callsTo, Job.args, hcode]

private theorem one_sub_code (role : ProcessRole) : (1 - (role.code : Int)) = role.flip.code := by
  cases role <;> rfl

private theorem code_cases (role : ProcessRole) :
    (role.code : Int) = 0 ∨ (role.code : Int) = 1 := by
  cases role
  · exact .inl rfl
  · exact .inr rfl

namespace Setup

variable {R P : Type} {S : Setup R P} {tasks : List CommTask}
  {past : List (CommTask × (Nat → List (Execution × R)))} {s s' : Fleet R P}

/-- What one task asks of a pair, seen from either end. -/
private theorem callsTo_job_symm {t : CommTask} (wf : t.WellFormed S.clique) (role : ProcessRole)
    (x y : Nat) :
    callsTo S.clique (S.callsOf [t] x) role.code y =
      callsTo S.clique (S.callsOf [t] y) role.flip.code x := by
  have toward {role : ProcessRole} {x y : Nat} : callsTo S.clique (S.callsOf [t] x) role.code y =
      if ∃ j, t.job S.clique x = some j ∧ j.role = role ∧ S.clique.group2global j.peer = y
        then 1 else 0 := by
    cases hj : t.job S.clique x with
    | none => simp [callsOf, hj, callsTo]
    | some j => simp [callsOf, hj, callsTo_singleton]
  have other {role : ProcessRole} {x y : Nat}
      (h : ∃ j, t.job S.clique x = some j ∧ j.role = role ∧ S.clique.group2global j.peer = y) :
      ∃ j, t.job S.clique y = some j ∧ j.role = role.flip ∧ S.clique.group2global j.peer = x := by
    obtain ⟨j, hj, rfl, rfl⟩ := h
    exact wf.job_peer hj
  rw [toward, toward]
  congr 1
  exact propext ⟨other, fun h ↦ by simpa using other h⟩

/-- Over whole tasks a pair enters as many calls at one end as at the other. -/
private theorem callsTo_symm {ts : List CommTask} (wf : ∀ t ∈ ts, t.WellFormed S.clique)
    (role : ProcessRole) (x y : Nat) :
    callsTo S.clique (S.callsOf ts x) role.code y =
      callsTo S.clique (S.callsOf ts y) role.flip.code x := by
  induction ts with
  | nil => rfl
  | cons t ts ih =>
    have split (z : Nat) : S.callsOf (t :: ts) z = S.callsOf [t] z ++ S.callsOf ts z := by
      rw [callsOf, callsOf, callsOf, ← List.filterMap_append]
      rfl
    rw [split, split, callsTo_append, callsTo_append,
      callsTo_job_symm (wf t List.mem_cons_self), ih fun t' ht ↦ wf t' (List.mem_cons_of_mem _ ht)]

/-- The job at the other end of a rank's current job. -/
private theorem DispatchInv.peer (h : S.DispatchInv tasks past s)
    (wf : ∀ t ∈ tasks, t.WellFormed S.clique) {r : Nat} {j : Job} (hj : S.currentJob s r = some j) :
    ∃ k, S.currentJob s (S.clique.group2global j.peer) = some k ∧ k.role = j.role.flip ∧
      S.clique.group2global k.peer = r := by
  obtain ⟨t, hm, ht, hj⟩ := h.task_of_currentJob hj
  obtain ⟨k, hk⟩ := (wf t hm).job_peer hj
  exact ⟨k, by rw [currentJob, ht]; exact hk.1, hk.2⟩

/-- A rank is not its own peer. -/
private theorem DispatchInv.peer_ne (h : S.DispatchInv tasks past s)
    (wf : ∀ t ∈ tasks, t.WellFormed S.clique) {r : Nat} {j : Job} (hj : S.currentJob s r = some j) :
    S.clique.group2global j.peer ≠ r := by
  intro he
  obtain ⟨k, hk, hr, -⟩ := h.peer wf hj
  rw [he, hj, Option.some.injEq] at hk
  subst hk
  cases hrole : j.role <;> rw [hrole] at hr <;> cases hr

/-- A rank inside the call of its job waits exactly as long as its peer has not entered the
call of its own. -/
private theorem DispatchInv.waits_iff (h : S.DispatchInv tasks past s)
    (wf : ∀ t ∈ tasks, t.WellFormed S.clique) (hret : S.returns = matched S.clique) {r : Nat}
    {j : Job} (hj : S.currentJob s r = some j) (hpc : (s.workers r).pc = .running (.p2p j.args)) :
    S.returns s r (.p2p j.args) = false ↔
      s.entered (S.clique.group2global j.peer) =
        S.callsOf (past.map Prod.fst) (S.clique.group2global j.peer) := by
  obtain ⟨k, hk, hrole, hback⟩ := h.peer wf hj
  obtain ⟨en, ex, hen, -, hst⟩ := h.stage r
  obtain ⟨en', ex', hen', -, hst'⟩ := h.stage (S.clique.group2global j.peer)
  obtain ⟨a, ha, -, hv⟩ := hst.of_running hpc
  obtain rfl : j = a := Option.some.inj (hj.symm.trans ha)
  obtain rfl : en = [.p2p j.args] := congrArg View.entered hv
  have hwf : ∀ t ∈ past.map Prod.fst, t.WellFormed S.clique := fun t ht ↦
    wf t (by rw [← h.split]; exact List.mem_append_left _ ht)
  have hpeer : j.args.peer.toNat = j.peer := by simp [Job.args]
  have hcount : S.returns s r (.p2p j.args) = decide
      (callsTo S.clique (s.entered r) j.role.code (S.clique.group2global j.peer) ≤
        callsTo S.clique (s.entered (S.clique.group2global j.peer)) j.role.flip.code r) := by
    have hrole : j.args.role = 0 ∨ j.args.role = 1 := code_cases j.role
    rw [hret, matched, if_pos hrole, hpeer, ← one_sub_code]
    rfl
  rw [hcount, hen, hen', callsTo_append, callsTo_append, callsTo_symm hwf, callsTo_singleton,
    if_pos ⟨rfl, rfl⟩, decide_eq_false_iff_not]
  rw [hk] at hst'
  cases hst'.entered_cases with
  | inl hnil =>
    obtain rfl : en' = [] := hnil
    simp [callsTo]
  | inr hone =>
    obtain rfl : en' = [.p2p k.args] := hone
    rw [callsTo_singleton, if_pos ⟨hrole, hback⟩]
    simp

/-! ### Taking a task in the same iteration -/

/-- The call a text asks for. -/
def callOf (content : List Char) : Option P2pArgs :=
  match execution content with
  | some (.p2p a) => some a
  | _ => none

/-- The call that group rank 0 is about to enter, or waits in. -/
def rootCall (S : Setup R P) (s : Fleet R P) : Option P2pArgs :=
  match (s.workers S.root).pc with
  | .acking content => callOf content
  | .running (.p2p a) => if S.returns s S.root (.p2p a) then none else some a
  | _ => none

/-- Group rank 0 does not take a task whose peer has left for the broadcast of the same
iteration, and no rank leaves for the broadcast without a task in the iteration in which group
rank 0 has taken one with it. -/
def InStep (S : Setup R P) (s : Fleet R P) : Act R → Prop
  | .poll r =>
    if r = S.root then
      skips (s.taskKey r) = false → ∀ a ∈ callOf ((s.taskKey r).getD []),
        (s.workers (S.clique.group2global a.peer.toNat)).pc = .broadcasting →
          (s.workers (S.clique.group2global a.peer.toNat)).round ≠ (s.workers S.root).round
    else
      skips (s.taskKey r) = true → ∀ a ∈ S.rootCall s, S.clique.group2global a.peer.toNat = r →
        (s.workers r).round ≠ (s.workers S.root).round
  | _ => True

instance [DecidableEq R] (s : Fleet R P) : (a : Act R) → Decidable (S.InStep s a)
  | .poll r => inferInstanceAs (Decidable (if r = S.root then _ else _))
  | .control | .pass _ | .ack _ | .finish _ _ | .report _ | .check | .leave _ => .isTrue trivial

/-- How far the ranks are ahead of each other, and that nobody has left while paused. -/
structure RoundInv (S : Setup R P) (s : Fleet R P) : Prop where
  others : ∀ r, (s.workers r).round ≤ s.sent.length
  root : match (s.workers S.root).pc with
    | .broadcasting => s.sent.length = (s.workers S.root).round + 1
    | .resumed | .crashed => True
    | _ => s.sent.length = (s.workers S.root).round
  live : s.pausing = true → (∀ b ∈ s.sent, b = true) ∧ ∀ r, (s.workers r).pc ≠ .resumed
  checking : ∀ r, (s.workers r).pc = .checking → r = S.root

/-- While group rank 0 has a task and its peer has not entered it, the peer is not in the
broadcast of the same iteration. -/
def PeerComing (S : Setup R P) (past : List (CommTask × (Nat → List (Execution × R))))
    (s : Fleet R P) : Prop :=
  ∀ j, S.currentJob s S.root = some j →
    ((s.workers S.root).pc = .acking j.text ∨ (s.workers S.root).pc = .running (.p2p j.args)) →
    s.entered (S.clique.group2global j.peer) =
      S.callsOf (past.map Prod.fst) (S.clique.group2global j.peer) →
    (s.workers (S.clique.group2global j.peer)).pc = .broadcasting →
    (s.workers (S.clique.group2global j.peer)).round ≠ (s.workers S.root).round

private theorem roundInv_start (h : S.Start tasks s) : S.RoundInv s where
  others := by
    intro r
    rw [h.workers]
    exact Nat.zero_le _
  root := by
    rw [h.workers, h.sent]
    rfl
  live := by
    intro _
    refine ⟨?_, fun r ↦ ?_⟩
    · rw [h.sent]
      exact fun b hb ↦ absurd hb List.not_mem_nil
    · rw [h.workers]
      simp
  checking := by
    intro r hr
    simp [h.workers] at hr

/-- A worker other than group rank 0, or group rank 0 inside an iteration, moves on. -/
private theorem RoundInv.moveTo (h : S.RoundInv s) {r : Nat} {pc : WorkerPc R}
    (hs : s'.workers = Function.update s.workers r { s.workers r with pc := pc })
    (hsent : s'.sent = s.sent) (hp : s'.pausing = s.pausing)
    (hroot : r = S.root → pc ≠ .broadcasting ∧ (s.workers r).pc ≠ .broadcasting ∧
      (s.workers r).pc ≠ .resumed ∧ (s.workers r).pc ≠ .crashed)
    (hpc : pc ≠ .resumed) (hcheck : pc = .checking → r = S.root) : S.RoundInv s' := by
  have hround (r' : Nat) : (s'.workers r').round = (s.workers r').round := by
    rw [hs]
    by_cases he : r' = r
    · subst he
      rw [Function.update_self]
    · rw [Function.update_of_ne he]
  refine ⟨fun r' ↦ ?_, ?_, fun hpause ↦ ?_, fun r' hr' ↦ ?_⟩
  · rw [hround, hsent]
    exact h.others r'
  · rw [hround, hsent]
    have hr := h.root
    by_cases he : S.root = r
    · obtain ⟨h1, h2, h3, h4⟩ := hroot he.symm
      rw [hs, ← he, Function.update_self]
      rw [← he] at h2 h3 h4
      have hlen : s.sent.length = (s.workers S.root).round := by
        split at hr
        · next hb => exact absurd hb h2
        · next hb => exact absurd hb h3
        · next hb => exact absurd hb h4
        · exact hr
      cases pc with
      | broadcasting => exact absurd rfl h1
      | resumed => trivial
      | crashed => trivial
      | _ => exact hlen
    · rw [hs, Function.update_of_ne he]
      exact hr
  · rw [hp] at hpause
    obtain ⟨hall, hno⟩ := h.live hpause
    refine ⟨by rw [hsent]; exact hall, fun r' ↦ ?_⟩
    rw [hs]
    by_cases he : r' = r
    · subst he
      rw [Function.update_self]
      exact hpc
    · rw [Function.update_of_ne he]
      exact hno r'
  · rw [hs] at hr'
    by_cases he : r' = r
    · subst he
      rw [Function.update_self] at hr'
      exact hcheck hr'
    · rw [Function.update_of_ne he] at hr'
      exact h.checking r' hr'

/-- The controller leaves the workers and their broadcasts alone. -/
private theorem control_frame (hs : S.controlStep s = some s') :
    s'.workers = s.workers ∧ s'.sent = s.sent ∧ s'.entered = s.entered ∧
      (s'.pausing = true → s.pausing = true) := by
  unfold controlStep at hs
  split at hs
  case h_10 => contradiction
  case h_9 =>
    cases hs
    exact ⟨rfl, rfl, rfl, fun h ↦ Bool.noConfusion h⟩
  case h_4 | h_5 | h_7 => split at hs <;> cases hs <;> exact ⟨rfl, rfl, rfl, id⟩
  case h_6 =>
    split at hs
    · cases hs
      exact ⟨rfl, rfl, rfl, id⟩
    · contradiction
  all_goals
    cases hs
    exact ⟨rfl, rfl, rfl, id⟩

private theorem pass_frame {order : List Nat} (hs : passStep order s = some s') :
    s'.workers = s.workers ∧ s'.sent = s.sent ∧ s'.entered = s.entered ∧
      (s'.pausing = true → s.pausing = true) := by
  unfold passStep at hs
  split at hs
  · split at hs
    · cases hs
      exact ⟨rfl, rfl, rfl, id⟩
    · contradiction
  · contradiction

private theorem RoundInv.frame (h : S.RoundInv s) (hs : s'.workers = s.workers ∧ s'.sent = s.sent ∧
    s'.entered = s.entered ∧ (s'.pausing = true → s.pausing = true)) : S.RoundInv s' := by
  obtain ⟨hw, hsent, -, hp⟩ := hs
  refine ⟨?_, ?_, fun hpause ↦ ?_, by rw [hw]; exact h.checking⟩
  · rw [hw, hsent]
    exact h.others
  · rw [hw, hsent]
    exact h.root
  · rw [hw, hsent]
    exact h.live (hp hpause)

private theorem afterTask_ne_broadcasting {r : Nat} (h : r = S.root) :
    S.afterTask r ≠ .broadcasting := by
  rw [afterTask, if_pos h]
  simp

private theorem afterTask_ne_resumed (r : Nat) : S.afterTask r ≠ .resumed := by
  unfold afterTask
  split <;> simp

private theorem root_of_afterTask {r : Nat} (h : S.afterTask r = .checking) : r = S.root := by
  unfold afterTask at h
  split at h
  · next hr => exact hr
  · cases h

private theorem RoundInv.poll (h : S.RoundInv s) {r : Nat} (hs : S.pollStep r s = some s') :
    S.RoundInv s' := by
  obtain ⟨hpc, ⟨-, rfl⟩ | ⟨-, rfl⟩⟩ := pollStep_cases hs
  · refine h.moveTo rfl rfl rfl (fun hr ↦ ⟨afterTask_ne_broadcasting hr, ?_⟩)
      (afterTask_ne_resumed r) root_of_afterTask
    simp [hpc]
  · exact h.moveTo rfl rfl rfl (fun hr ↦ by simp [hpc]) (by simp) (by simp)

private theorem RoundInv.ack (h : S.RoundInv s) {r : Nat} (hs : ackStep r s = some s') :
    S.RoundInv s' := by
  obtain ⟨content, hpc, ⟨-, rfl⟩ | ⟨e, -, rfl⟩⟩ := ackStep_cases hs
  · exact h.moveTo rfl rfl rfl (fun hr ↦ by simp [hpc]) (by simp) (by simp)
  · exact h.moveTo rfl rfl rfl (fun hr ↦ by simp [hpc]) (by simp) (by simp)

private theorem RoundInv.finish (h : S.RoundInv s) {r : Nat} {x : R}
    (hs : S.finishStep r x s = some s') : S.RoundInv s' := by
  obtain ⟨e, hpc, -, rfl⟩ := finishStep_cases hs
  exact h.moveTo rfl rfl rfl (fun hr ↦ by simp [hpc]) (by simp) (by simp)

private theorem RoundInv.report (h : S.RoundInv s) {r : Nat} (hs : S.reportStep r s = some s') :
    S.RoundInv s' := by
  obtain ⟨x, hpc, rfl⟩ := reportStep_cases hs
  refine h.moveTo rfl rfl rfl (fun hr ↦ ⟨afterTask_ne_broadcasting hr, ?_⟩)
    (afterTask_ne_resumed r) root_of_afterTask
  simp [hpc]

/-- Group rank 0 enters a broadcast with what it read of the control state. -/
private theorem RoundInv.check (h : S.RoundInv s) (hs : S.checkStep s = some s') :
    S.RoundInv s' := by
  obtain ⟨hpc, rfl⟩ := checkStep_cases hs
  have hlen := h.root
  rw [hpc] at hlen
  refine ⟨fun r ↦ ?_, ?_, fun hpause ↦ ⟨?_, fun r ↦ ?_⟩, fun r hr ↦ ?_⟩
  · have := h.others r
    simp only [Setup.moveTo, List.length_append, List.length_singleton]
    by_cases he : r = S.root
    · subst he
      rw [Function.update_self]
      simp only
      omega
    · rw [Function.update_of_ne he]
      omega
  · simp only [Setup.moveTo, Function.update_self, List.length_append, List.length_singleton]
    rw [← hlen]
  · intro b hb
    rw [List.mem_append, List.mem_singleton] at hb
    cases hb with
    | inl hb => exact (h.live hpause).1 b hb
    | inr hb => rw [hb]; exact hpause
  · have := (h.live hpause).2 r
    by_cases he : r = S.root
    · subst he
      simp [Setup.moveTo]
    · simpa [Setup.moveTo, Function.update_of_ne he] using this
  · by_contra he
    exact he (h.checking r (by simpa [Setup.moveTo, Function.update_of_ne he] using hr))

/-- A worker takes `STATE_VALIDATE` from its broadcast and starts its next iteration. -/
private theorem RoundInv.stay (h : S.RoundInv s) {r : Nat} (hpc : (s.workers r).pc = .broadcasting)
    (hsent : s.sent[(s.workers r).round]? = some true) :
    S.RoundInv { s with
      workers := Function.update s.workers r ⟨.polling, (s.workers r).round + 1⟩ } := by
  have hlt : (s.workers r).round < s.sent.length := (List.getElem?_eq_some_iff.mp hsent).1
  refine ⟨fun r' ↦ ?_, ?_, fun hpause ↦ ⟨(h.live hpause).1, fun r' ↦ ?_⟩, fun r' hr' ↦ ?_⟩
  · by_cases he : r' = r
    · subst he
      simp only [Function.update_self]
      exact hlt
    · simpa [Function.update_of_ne he] using h.others r'
  · have hr := h.root
    by_cases he : S.root = r
    · subst he
      rw [hpc] at hr
      simpa using hr
    · simpa [Function.update_of_ne he] using hr
  · by_cases he : r' = r
    · subst he
      simp
    · simpa [Function.update_of_ne he] using (h.live hpause).2 r'
  · by_cases he : r' = r
    · subst he
      simp at hr'
    · exact h.checking r' (by simpa [Function.update_of_ne he] using hr')

/-- A worker takes another state from its broadcast and resumes training: the pause is over. -/
private theorem RoundInv.resume (h : S.RoundInv s) {r : Nat}
    (hsent : s.sent[(s.workers r).round]? = some false) :
    S.RoundInv (Setup.moveTo s r .resumed) := by
  refine ⟨fun r' ↦ ?_, ?_, fun hpause ↦ ?_, fun r' hr' ↦ ?_⟩
  · by_cases he : r' = r
    · subst he
      simpa [Setup.moveTo] using h.others r'
    · simpa [Setup.moveTo, Function.update_of_ne he] using h.others r'
  · have hr := h.root
    by_cases he : S.root = r
    · subst he
      simp [Setup.moveTo]
    · simpa [Setup.moveTo, Function.update_of_ne he] using hr
  · -- while paused only `true` was sent
    have := (h.live hpause).1 false (List.mem_of_getElem? hsent)
    contradiction
  · by_cases he : r' = r
    · subst he
      simp [Setup.moveTo] at hr'
    · exact h.checking r' (by simpa [Setup.moveTo, Function.update_of_ne he] using hr')

private theorem RoundInv.leave (h : S.RoundInv s) {r : Nat} (hs : leaveStep r s = some s') :
    S.RoundInv s' := by
  obtain ⟨hpc, ⟨hsent, rfl⟩ | ⟨hsent, rfl⟩⟩ := leaveStep_cases hs
  · exact h.stay hpc hsent
  · exact h.resume hsent

private theorem RoundInv.step (h : S.RoundInv s) {a : Act R} (hs : S.step s a = some s') :
    S.RoundInv s' := by
  cases a with
  | control => exact h.frame (control_frame hs)
  | pass order => exact h.frame (pass_frame hs)
  | poll r => exact h.poll hs
  | ack r => exact h.ack hs
  | finish r x => exact h.finish hs
  | report r => exact h.report hs
  | check => exact h.check hs
  | leave r => exact h.leave hs

/-- A worker's step changes only its own place in the loop and its own calls. -/
private theorem worker_frame {r : Nat} {a : Act R} (ha : S.workerAct r a)
    (hs : S.step s a = some s') {r' : Nat} (hne : r' ≠ r) :
    s'.workers r' = s.workers r' ∧ s'.entered r' = s.entered r' := by
  cases a with
  | control => exact ha.elim
  | pass order => exact ha.elim
  | poll q =>
    obtain rfl : q = r := ha
    obtain ⟨-, ⟨-, rfl⟩ | ⟨-, rfl⟩⟩ := pollStep_cases hs <;>
      simp [moveTo, Function.update_of_ne hne]
  | ack q =>
    obtain rfl : q = r := ha
    obtain ⟨content, -, ⟨-, rfl⟩ | ⟨e, -, rfl⟩⟩ := ackStep_cases hs <;>
      simp [moveTo, Function.update_of_ne hne]
  | finish q x =>
    obtain rfl : q = r := ha
    obtain ⟨e, -, -, rfl⟩ := finishStep_cases hs
    simp [moveTo, Function.update_of_ne hne]
  | report q =>
    obtain rfl : q = r := ha
    obtain ⟨x, -, rfl⟩ := reportStep_cases hs
    simp [moveTo, Function.update_of_ne hne]
  | check =>
    obtain rfl : r = S.root := ha
    obtain ⟨-, rfl⟩ := checkStep_cases hs
    simp [moveTo, Function.update_of_ne hne]
  | leave q =>
    obtain rfl : q = r := ha
    obtain ⟨-, ⟨-, rfl⟩ | ⟨-, rfl⟩⟩ := leaveStep_cases hs <;>
      simp [moveTo, Function.update_of_ne hne]

/-- A worker comes to hold a task by polling for it, or by acknowledging one it holds; it comes
into a broadcast without a task, or with a task done, and group rank 0 by its check. -/
private theorem worker_moves {r : Nat} {a : Act R} (ha : S.workerAct r a)
    (hs : S.step s a = some s') :
    (∀ content, (s'.workers r).pc = .acking content → a = .poll r ∧ skips (s.taskKey r) = false ∧
      content = (s.taskKey r).getD [] ∧ (s'.workers r).round = (s.workers r).round) ∧
    (∀ e, (s'.workers r).pc = .running e → ∃ content, (s.workers r).pc = .acking content ∧
      (s'.workers r).round = (s.workers r).round) ∧
    ((s'.workers r).pc = .broadcasting → r ≠ S.root → (s'.workers r).round = (s.workers r).round ∧
      s'.entered r = s.entered r ∧
      (a = .poll r ∧ skips (s.taskKey r) = true ∨ ∃ x, (s.workers r).pc = .reporting x)) := by
  cases a with
  | control => exact ha.elim
  | pass order => exact ha.elim
  | poll q =>
    obtain rfl : q = r := ha
    obtain ⟨-, ⟨hk, rfl⟩ | ⟨hk, rfl⟩⟩ := pollStep_cases hs
    · simp only [moveTo, Function.update_self, afterTask]
      split <;> simp_all
    · simp_all [moveTo]
  | ack q =>
    obtain rfl : q = r := ha
    obtain ⟨content, hpc, ⟨-, rfl⟩ | ⟨e, -, rfl⟩⟩ := ackStep_cases hs <;> simp [moveTo, hpc]
  | finish q x =>
    obtain rfl : q = r := ha
    obtain ⟨e, -, -, rfl⟩ := finishStep_cases hs
    simp [moveTo]
  | report q =>
    obtain rfl : q = r := ha
    obtain ⟨x, hpc, rfl⟩ := reportStep_cases hs
    simp only [moveTo, Function.update_self, afterTask]
    split <;> simp [hpc]
  | check =>
    obtain rfl : r = S.root := ha
    obtain ⟨-, rfl⟩ := checkStep_cases hs
    simp [moveTo]
  | leave q =>
    obtain rfl : q = r := ha
    obtain ⟨-, ⟨-, rfl⟩ | ⟨-, rfl⟩⟩ := leaveStep_cases hs <;> simp [moveTo]

/-- The call of a job's text is that of the job. -/
private theorem DispatchInv.callOf_text (h : S.DispatchInv tasks past s)
    (wf : ∀ t ∈ tasks, t.WellFormed S.clique) {r : Nat} {j : Job} (hj : S.currentJob s r = some j) :
    callOf j.text = some j.args := by
  rw [callOf, h.execution_text wf hj]

private theorem DispatchInv.currentJob_eq (h : S.DispatchInv tasks past s)
    (h' : S.DispatchInv tasks past s') (r : Nat) : S.currentJob s' r = S.currentJob s r := by
  have : s'.todo = s.todo := List.append_cancel_left (h'.split.trans h.split.symm)
  rw [currentJob, currentJob, this]

private theorem PeerComing.worker (h : S.DispatchInv tasks past s)
    (h' : S.DispatchInv tasks past s') (wf : ∀ t ∈ tasks, t.WellFormed S.clique)
    (hret : S.returns = matched S.clique)
    (hc : S.PeerComing past s) {r : Nat} {a : Act R} (ha : S.workerAct r a) (ok : S.InStep s a)
    (hs : S.step s a = some s') : S.PeerComing past s' := by
  intro j hj hbusy hen hpc
  rw [h.currentJob_eq h'] at hj
  have hne := h.peer_ne wf hj
  have hcall := h.callOf_text wf hj
  have hpeer : j.args.peer.toNat = j.peer := by simp [Job.args]
  obtain ⟨hack, hrun, hbc⟩ := worker_moves ha hs
  by_cases hroot : r = S.root
  · -- group rank 0 moves, its peer stays
    subst hroot
    obtain ⟨hw, he⟩ := worker_frame ha hs hne
    rw [hw] at hpc ⊢
    rw [he] at hen
    cases hbusy with
    | inl hb =>
      obtain ⟨rfl, hk, hcontent, hround⟩ := hack _ hb
      rw [InStep, if_pos rfl] at ok
      rw [hround]
      have := ok hk j.args (by rw [← hcontent]; exact hcall)
      rw [hpeer] at this
      exact this hpc
    | inr hb =>
      obtain ⟨content, hold, hround⟩ := hrun _ hb
      obtain ⟨en, ex, -, -, hst⟩ := h.stage S.root
      obtain ⟨k, hk, rfl, -⟩ := hst.of_acking hold
      obtain rfl : j = k := Option.some.inj (hj.symm.trans hk)
      rw [hround]
      exact hc j hj (.inl hold) hen hpc
  · have hwroot := worker_frame ha hs (Ne.symm hroot)
    rw [hwroot.1] at hbusy ⊢
    by_cases hr : r = S.clique.group2global j.peer
    · -- the peer moves into the broadcast: with no task, or done with it
      subst hr
      obtain ⟨hround, hsame, hcase⟩ := hbc hpc hroot
      rw [hround]
      rw [hsame] at hen
      cases hcase with
      | inl hpoll =>
        obtain ⟨rfl, hk⟩ := hpoll
        have hcallRoot : S.rootCall s = some j.args := by
          rw [rootCall]
          cases hbusy with
          | inl hb => rw [hb]; exact hcall
          | inr hb =>
            have := (h.waits_iff wf hret hj hb).mpr hen
            simp [hb, this]
        rw [InStep, if_neg hroot] at ok
        exact ok hk j.args hcallRoot (by rw [hpeer])
      | inr hrep =>
        obtain ⟨x, hx⟩ := hrep
        obtain ⟨en, ex, henp, -, hst⟩ := h.stage (S.clique.group2global j.peer)
        obtain ⟨k, hk, hv⟩ := hst.of_reporting hx
        obtain rfl : en = [.p2p k.args] := congrArg View.entered hv
        rw [henp] at hen
        exact absurd hen (by simp)
    · -- neither of the two moves
      obtain ⟨hw, he⟩ := worker_frame ha hs (Ne.symm hr)
      rw [hw] at hpc ⊢
      rw [he] at hen
      exact hc j hj hbusy hen hpc

/-- What every state of a run in step satisfies. -/
def WedgeInv (S : Setup R P) (tasks : List CommTask) (s : Fleet R P) : Prop :=
  S.RoundInv s ∧ ∃ past, S.DispatchInv tasks past s ∧ S.PeerComing past s

private theorem wedgeInv_step (wf : ∀ t ∈ tasks, t.WellFormed S.clique)
    (hret : S.returns = matched S.clique) (h : S.WedgeInv tasks s) {a : Act R} (ok : S.InStep s a)
    (hs : S.step s a = some s') : S.WedgeInv tasks s' := by
  obtain ⟨hround, past, hd, hc⟩ := h
  refine ⟨hround.step hs, ?_⟩
  have still (hw : s'.workers = s.workers) (he : s'.entered = s.entered)
      (hd' : S.DispatchInv tasks past s') : S.PeerComing past s' := by
    intro j hj hbusy hen hpc
    rw [hd.currentJob_eq hd'] at hj
    rw [hw] at hbusy hpc ⊢
    rw [he] at hen
    exact hc j hj hbusy hen hpc
  cases hd.step wf hs with
  | inl hd' =>
    refine ⟨past, hd', ?_⟩
    cases a with
    | control => exact still (control_frame hs).1 (control_frame hs).2.2.1 hd'
    | pass order => exact still (pass_frame hs).1 (pass_frame hs).2.2.1 hd'
    | poll r => exact hc.worker hd hd' wf hret (r := r) (a := .poll r) rfl ok hs
    | ack r => exact hc.worker hd hd' wf hret (r := r) (a := .ack r) rfl ok hs
    | finish r x => exact hc.worker hd hd' wf hret (r := r) (a := .finish r x) rfl ok hs
    | report r => exact hc.worker hd hd' wf hret (r := r) (a := .report r) rfl ok hs
    | check => exact hc.worker hd hd' wf hret (a := .check) rfl ok hs
    | leave r => exact hc.worker hd hd' wf hret (r := r) (a := .leave r) rfl ok hs
  | inr hnext =>
    -- between tasks group rank 0 holds none
    obtain ⟨rfl, idle, past', hd'⟩ := hnext
    refine ⟨past', hd', fun j hj hbusy _ _ ↦ ?_⟩
    have := idle S.root
    rw [(control_frame hs).1] at hbusy
    cases hbusy with
    | inl hb => rw [hb] at this; exact this.elim
    | inr hb => rw [hb] at this; exact this.elim

/-- Of two ranks, at most one waits for the other inside a call. -/
private theorem DispatchInv.not_both (h : S.DispatchInv tasks past s)
    (wf : ∀ t ∈ tasks, t.WellFormed S.clique) (hret : S.returns = matched S.clique) {x y : Nat}
    (hx : S.P2pBlocked s x y) : ∀ a, (s.workers y).pc ≠ .running (.p2p a) := by
  intro b hb
  obtain ⟨a, hpc, rfl, hwait⟩ := hx
  obtain ⟨en, ex, -, -, hst⟩ := h.stage x
  obtain ⟨j, hj, he, -⟩ := hst.of_running hpc
  obtain rfl : a = j.args := Execution.p2p.inj he
  have hpeer : j.args.peer.toNat = j.peer := by simp [Job.args]
  rw [hpeer] at hb
  have hen := (h.waits_iff wf hret hj hpc).mp hwait
  obtain ⟨en', ex', hen', -, hst'⟩ := h.stage (S.clique.group2global j.peer)
  obtain ⟨k, -, -, hv⟩ := hst'.of_running hb
  obtain rfl : en' = [.p2p k.args] := congrArg View.entered hv
  rw [hen'] at hen
  exact absurd hen (by simp)

/-- The peer that group rank 0 waits for is not waiting for group rank 0. -/
private theorem WedgeInv.peer_free (h : S.WedgeInv tasks s)
    (wf : ∀ t ∈ tasks, t.WellFormed S.clique) (hret : S.returns = matched S.clique) {y : Nat}
    (hy : S.P2pBlocked s S.root y) : ¬ BroadcastBlocked s y := by
  obtain ⟨hround, past, hd, hc⟩ := h
  obtain ⟨a, hpc, rfl, hwait⟩ := hy
  rintro ⟨hb, hle⟩
  obtain ⟨en, ex, -, -, hst⟩ := hd.stage S.root
  obtain ⟨j, hj, he, -⟩ := hst.of_running hpc
  obtain rfl : a = j.args := Execution.p2p.inj he
  have hpeer : j.args.peer.toNat = j.peer := by simp [Job.args]
  rw [hpeer] at hb hle
  have hne := hc j hj (.inr hpc) ((hd.waits_iff wf hret hj hpc).mp hwait) hb
  have hlen := hround.root
  rw [hpc] at hlen
  have := hround.others (S.clique.group2global j.peer)
  omega

/-- Group rank 0 never waits in a broadcast. -/
private theorem WedgeInv.root_free (h : S.WedgeInv tasks s) : ¬ BroadcastBlocked s S.root := by
  rintro ⟨hb, hle⟩
  have hlen := h.1.root
  rw [hb] at hlen
  omega

/-- A rank that waits for nobody has a step, while the job is paused. -/
private theorem WedgeInv.enabled [Nonempty R] (h : S.WedgeInv tasks s)
    (hret : S.returns = matched S.clique) (hpause : s.pausing = true) {r : Nat}
    (hp : ∀ y, ¬ S.P2pBlocked s r y) (hb : ¬ BroadcastBlocked s r) :
    ∃ a s', S.workerAct r a ∧ S.step s a = some s' := by
  obtain ⟨hround, past, hd, -⟩ := h
  obtain ⟨en, ex, -, -, hst⟩ := hd.stage r
  obtain ⟨hall, hno⟩ := hround.live hpause
  cases hpc : (s.workers r).pc with
  | polling =>
    by_cases hk : skips (s.taskKey r) = true
    · exact ⟨.poll r, _, rfl, by simp only [step, pollStep, hpc, if_pos hk]; rfl⟩
    · exact ⟨.poll r, _, rfl, by simp only [step, pollStep, hpc, if_neg hk]; rfl⟩
  | acking content =>
    cases he : execution content with
    | none => exact ⟨.ack r, _, rfl, by simp only [step, ackStep, hpc, he]; rfl⟩
    | some e => exact ⟨.ack r, _, rfl, by simp only [step, ackStep, hpc, he]; rfl⟩
  | running e =>
    have hreturns : S.returns s r e = true := by
      cases e with
      | gemm => rw [hret]; rfl
      | p2p a => exact Bool.not_eq_false _ ▸ fun hf ↦ hp _ ⟨a, hpc, rfl, hf⟩
    obtain ⟨x⟩ := ‹Nonempty R›
    exact ⟨.finish r x, _, rfl, by simp only [step, finishStep, hpc, if_pos hreturns]; rfl⟩
  | reporting x => exact ⟨.report r, _, rfl, by simp only [step, reportStep, hpc]; rfl⟩
  | checking =>
    obtain rfl := hround.checking r hpc
    exact ⟨.check, _, rfl, by simp only [step, checkStep, hpc]; rfl⟩
  | broadcasting =>
    have hlt : (s.workers r).round < s.sent.length := by
      by_contra hge
      exact hb ⟨hpc, Nat.le_of_not_lt hge⟩
    have hsent : s.sent[(s.workers r).round]? = some true := by
      rw [List.getElem?_eq_getElem hlt, hall _ (List.getElem_mem hlt)]
    exact ⟨.leave r, _, rfl, by simp only [step, leaveStep, hpc, hsent]; rfl⟩
  | resumed => exact absurd hpc (hno r)
  | crashed => exact absurd hpc hst.pc_ne_crashed

private theorem WedgeInv.unwedged [Nonempty R] (h : S.WedgeInv tasks s)
    (wf : ∀ t ∈ tasks, t.WellFormed S.clique) (hret : S.returns = matched S.clique)
    {ranks : List Nat} (hranks : ∀ t ∈ tasks, ∀ g ∈ t.senders ++ t.recvers,
      S.clique.group2global g ∈ ranks) : S.Unwedged ranks s := by
  obtain ⟨past, hd, -⟩ := h.2
  have free {x y : Nat} (hx : S.P2pBlocked s x y) : ∀ z, ¬ S.P2pBlocked s y z := by
    rintro z ⟨b, hb, -, -⟩
    exact hd.not_both wf hret hx b hb
  refine ⟨?_, fun hpause ↦ ?_⟩
  · rintro ⟨a, b, hab, hb, hreach⟩
    -- group rank 0 waits for its peer at most, and the peer for nobody
    cases hreach.cases_head with
    | inl heq =>
      subst heq
      exact h.peer_free wf hret hab hb
    | inr hstep =>
      obtain ⟨y, hy, hreach⟩ := hstep
      cases hy with
      | inr hy => exact h.root_free hy.1
      | inl hy =>
        cases hreach.cases_head with
        | inl heq =>
          subst heq
          exact free hy b hab
        | inr hstep =>
          obtain ⟨z, hz, -⟩ := hstep
          cases hz with
          | inl hz => exact free hy z hz
          | inr hz => exact h.peer_free wf hret hy hz.1
  · by_cases hroot : ∃ y, S.P2pBlocked s S.root y
    · obtain ⟨y, hy⟩ := hroot
      refine ⟨y, .inr ?_, h.enabled hret hpause (free hy) (h.peer_free wf hret hy)⟩
      obtain ⟨a, hpc, rfl, -⟩ := hy
      obtain ⟨en, ex, -, -, hst⟩ := hd.stage S.root
      obtain ⟨j, hj, he, -⟩ := hst.of_running hpc
      obtain rfl : a = j.args := Execution.p2p.inj he
      have hpeer : j.args.peer.toNat = j.peer := by simp [Job.args]
      rw [currentJob, Option.bind_eq_some_iff] at hj
      obtain ⟨t, ht, hj⟩ := hj
      have hm : t ∈ tasks := by
        rw [← hd.split]
        exact List.mem_append_right _ (List.mem_of_head? ht)
      obtain ⟨k, hk, -⟩ := (wf t hm).job_peer hj
      have hnamed := (wf t hm).isSome_job.mp (by rw [hk]; rfl)
      rw [hpeer]
      obtain ⟨g, hg, he⟩ := List.mem_map.mp hnamed
      rw [← he]
      exact hranks t hm g hg
    · exact ⟨S.root, .inl rfl, h.enabled hret hpause (fun y hy ↦ hroot ⟨y, hy⟩) h.root_free⟩

end Setup

/-- On every ring, in every run in which both ends of a pair with group rank 0 take their task in
the same iteration, no wedge is ever reached, and while the job is paused a rank of the ring or
group rank 0 can step. -/
theorem pauseValidate_unwedged {R P : Type} [Nonempty R] (c : Clique) (root : Nat)
    (fromBytes : R → P) (ring : List Nat) (tasks : List CommTask) (start : Fleet R P)
    (acts : List (Act R)) (s : Fleet R P) (hn : 2 ≤ ring.length)
    (hd : (ring.map c.group2global).Nodup) (hb : ∀ g ∈ ring, g < 2 ^ 31)
    (ht : splitRing ring = some tasks) (h : (Setup.waiting c root fromBytes).Start tasks start)
    (run : Run (Setup.waiting c root fromBytes).step (Setup.waiting c root fromBytes).InStep
      start acts s) :
    (Setup.waiting c root fromBytes).Unwedged (ring.map c.group2global) s := by
  have hsplit := splitRing_wellFormed hd hb hn ht
  have wf : ∀ t ∈ tasks, t.WellFormed c := fun t htm ↦ (hsplit t htm).1
  have hinv : (Setup.waiting c root fromBytes).WedgeInv tasks s := by
    refine run.invariant ⟨Setup.roundInv_start h, [], Setup.dispatchInv_start wf h, ?_⟩ ?_
    · intro j hj hbusy
      rw [h.workers] at hbusy
      cases hbusy with
      | inl hb => cases hb
      | inr hb => cases hb
    · intro t u a hinv ok hs
      exact Setup.wedgeInv_step wf rfl hinv ok hs
  exact hinv.unwedged wf rfl fun t htm g hg ↦ List.mem_map_of_mem ((hsplit t htm).2 hg)

/-- Both keys of the first task are written before either rank polls. -/
theorem pauseValidate_unwedged_pair :
    ∃ s, Run (Setup.waiting pairClique 0 (id : Nat → Nat)).step
        (Setup.waiting pairClique 0 id).InStep
        ((Setup.waiting pairClique 0 id).fresh [⟨[0], [1]⟩, ⟨[1], [0]⟩])
        [.control, .control, .poll 0, .ack 0, .poll 1, .ack 1, .finish 0 60, .report 0, .check,
          .finish 1 70, .leave 0, .report 1, .poll 0] s ∧
      s.workers 0 = ⟨.checking, 1⟩ ∧ s.workers 1 = ⟨.broadcasting, 0⟩ ∧
      (Setup.waiting pairClique 0 id).Unwedged [0, 1] s := by
  let S : Setup Nat Nat := .waiting pairClique 0 id
  have eval : (List.foldlM (fun s a ↦ if S.InStep s a then S.step s a else none)
      (S.fresh [⟨[0], [1]⟩, ⟨[1], [0]⟩])
      [.control, .control, .poll 0, .ack 0, .poll 1, .ack 1, .finish 0 60, .report 0, .check,
        .finish 1 70, .leave 0, .report 1, .poll 0]).map (fun s ↦ (s.workers 0, s.workers 1)) =
      some (⟨.checking, 1⟩, ⟨.broadcasting, 0⟩) := by
    decide +kernel
  obtain ⟨s, hs, he⟩ := Option.map_eq_some_iff.mp eval
  have run := run_of_guarded hs
  exact ⟨s, run, congrArg Prod.fst he, congrArg Prod.snd he,
    pauseValidate_unwedged pairClique 0 id [0, 1] _ _ _ s (by decide) (by decide) (by decide) rfl
      (S.start_fresh _) run⟩

end ProbingBaselines.Greyhound
