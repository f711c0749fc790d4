import ProbingBaselines.Dlrover.NetworkCheck

/-!
# Rounds of the network check

A round of the check with one faulty node: the nodes join, a poll completes the rendezvous with all
of them, and each node reports its result. A faulty node makes the check of its whole group fail.
The statuses that two rounds leave are given by the positions of the nodes in the two orders.
-/

namespace ProbingBaselines.Dlrover

open Lib

/-- What the nodes ask for while a round is checked. -/
inductive CheckAct where
  | report (nodeRank : Int)
  | getCommWorld (nodeRank : Int) (env : Env)
  | checkFaultNode
  | getStraggler

/-- A round: the joins, the poll that completes them and what follows. `time` is the time of a
check that succeeds. -/
structure CheckRound where
  joins : List (JoinRendezvousRequest × Env)
  poll : Int × Env
  acts : List CheckAct
  time : Int → ℚ

/-- Whether the check of `r` succeeds when `b` is faulty. -/
def healthy (groups : List NodeMap) (b r : Int) : Bool :=
  decide ¬Pairing.Together (groups.map Dict.keys) r b

/-- The time a node reports; `training.py:2230-2233`. -/
def elapsed (groups : List NodeMap) (b : Int) (time : Int → ℚ) (r : Int) : ℚ :=
  if healthy groups b r then time r else 3600

namespace NetworkCheckManager

def act (b : Int) (time : Int → ℚ) (s : NetworkCheckManager) : CheckAct → NetworkCheckManager
  | .report r =>
    s.reportNetworkCheckResult r (healthy s.nodeGroups b r) (elapsed s.nodeGroups b time r)
  | .getCommWorld r env => (s.getCommWorld r env).2
  | .checkFaultNode => s.checkFaultNode.2
  | .getStraggler => s.getStraggler.2

def gather (s : NetworkCheckManager) (joins : List (JoinRendezvousRequest × Env)) :
    NetworkCheckManager :=
  joins.foldl (fun s join ↦ s.clearGroups.joinRendezvous join.1 join.2) s

end NetworkCheckManager

namespace CheckRound

open NetworkCheckManager

/-- The manager after the round. -/
def play (b : Int) (s : NetworkCheckManager) (round : CheckRound) : NetworkCheckManager :=
  round.acts.foldl (act b round.time)
    ((s.gather round.joins).getCommWorld round.poll.1 round.poll.2).2

def reportedRanks (acts : List CheckAct) : List Int :=
  acts.filterMap fun
    | .report r => some r
    | _ => none

def joinedRanks (round : CheckRound) : List Int := round.joins.map fun join ↦ join.1.nodeRank

/-- All nodes join, none of them exits, the poll takes them all and each reports once. -/
structure Covers (round : CheckRound) (s : NetworkCheckManager) (ranks : List Int) : Prop where
  joined : ranks ⊆ round.joinedRanks
  known : round.joinedRanks ⊆ ranks
  alive : ∀ id, round.poll.2.failed id = false
  completed : (s.gather round.joins).base.completedNum round.poll.2.now = .ok (some ranks.length)
  reported : (reportedRanks round.acts).Perm ranks

end CheckRound

/-! ### The start of a round -/

namespace RdzvManager

theorem dropFailed_of_alive (s : RdzvManager) {failed : Int → Bool}
    (alive : ∀ id, failed id = false) : s.dropFailed failed = s := by
  have none : ∀ (ids : List Int) (t : RdzvManager), ids.foldl
      (fun s nodeId ↦ if failed nodeId then s.removeAliveNode nodeId else s) t = t := by
    intro ids
    induction ids with
    | nil => exact fun _ ↦ rfl
    | cons id ids ih =>
      intro t
      rw [List.foldl_cons, if_neg (by rw [alive id]; decide)]
      exact ih t
  exact none _ s

/-- A completion that takes all waiting nodes. -/
theorem complete_all {s : RdzvManager} {ranks : List Int}
    (waiting : s.waitingNodes.keys.Perm ranks) :
    (s.complete ranks.length).rdzvNodes.keys = ranks.insertionSort (· ≤ ·) ∧
      (s.complete ranks.length).waitingNodes = .empty := by
  have sorted : s.waitingNodes.keys.insertionSort (· ≤ ·) = ranks.insertionSort (· ≤ ·) := by
    apply List.Perm.eq_of_pairwise'
      (List.pairwise_insertionSort _ _) (List.pairwise_insertionSort _ _)
    exact ((List.perm_insertionSort _ _).trans waiting).trans (List.perm_insertionSort _ _).symm
  have all : s.chosen ranks.length = ranks.insertionSort (· ≤ ·) := by
    rw [chosen, sorted]
    apply List.take_of_length_le
    simp
  constructor
  · rw [complete_keys, all]
  · apply Dict.eq_empty_of_items
    rw [complete_waiting_items, List.filter_eq_nil_iff]
    intro e he
    have mem : e.1 ∈ s.chosen ranks.length := by
      rw [all, List.mem_insertionSort]
      exact waiting.mem_iff.mp (Dict.mem_of_mem_items he)
    simpa using mem

end RdzvManager

namespace NetworkCheckManager

theorem gather_concat (s : NetworkCheckManager) (joins : List (JoinRendezvousRequest × Env))
    (join : JoinRendezvousRequest × Env) :
    s.gather (joins ++ [join]) =
      (s.gather joins).clearGroups.joinRendezvous join.1 join.2 := by
  simp [gather]

/-- The joins add the nodes that do not wait yet. -/
theorem mem_gather_waiting {s : NetworkCheckManager}
    {joins : List (JoinRendezvousRequest × Env)} {r : Int} :
    r ∈ (s.gather joins).base.waitingNodes ↔
      r ∈ s.base.waitingNodes ∨ r ∈ joins.map fun join ↦ join.1.nodeRank := by
  induction joins using List.reverseRecOn with
  | nil => simp [gather]
  | append_singleton joins join ih =>
    rw [gather_concat, joinRendezvous, clearGroups, RdzvManager.joinRendezvous]
    simp only [List.map_append, List.map_singleton, List.mem_append, List.mem_singleton]
    split
    · next known =>
      constructor
      · intro h
        exact (ih.mp h).imp_right .inl
      · rintro (h | h | rfl)
        · exact ih.mpr (.inl h)
        · exact ih.mpr (.inr h)
        · exact known
    · rw [Dict.mem_insert, ih, or_comm, or_assoc]

/-- What the joins leave alone. -/
theorem gather_frame (s : NetworkCheckManager) (joins : List (JoinRendezvousRequest × Env)) :
    (s.gather joins).base.rdzvRound = s.base.rdzvRound ∧
      (s.gather joins).base.rdzvBlocked = s.base.rdzvBlocked ∧
      (s.gather joins).nodeStatus = s.nodeStatus ∧ (s.gather joins).nodeTimes = s.nodeTimes := by
  induction joins using List.reverseRecOn with
  | nil => exact ⟨rfl, rfl, rfl, rfl⟩
  | append_singleton joins join ih =>
    rw [gather_concat, joinRendezvous, clearGroups, RdzvManager.joinRendezvous]
    split <;> exact ih

theorem gather_nodeGroups (s : NetworkCheckManager) {joins : List (JoinRendezvousRequest × Env)}
    (some : joins ≠ []) : (s.gather joins).nodeGroups = [] := by
  cases joins using List.reverseRecOn with
  | nil => exact absurd rfl some
  | append_singleton joins join => rw [gather_concat, joinRendezvous, clearGroups]

/-- The poll that starts a round. -/
theorem getCommWorld_completed {s : NetworkCheckManager} {env : Env} {num : Int} (r : Int)
    (none : s.nodeGroups = []) (free : s.base.rdzvBlocked = false)
    (alive : ∀ id, env.failed id = false)
    (completed : s.base.completedNum env.now = .ok (some num)) :
    (s.getCommWorld r env).2 = startRound { s with base := s.base.complete num } := by
  have base : s.base.checkRdzvCompleted env = (.ok true, s.base.complete num) := by
    rw [RdzvManager.checkRdzvCompleted, s.base.dropFailed_of_alive alive, free, completed]
    rfl
  rw [getCommWorld, checkCompleted, if_pos none, base]

/-! ### The reports of a round -/

/-- The state after the reports `rs` since the round started with `s₀`. -/
structure Checking (b : Int) (time : Int → ℚ) (s₀ : NetworkCheckManager) (rs : List Int)
    (s : NetworkCheckManager) : Prop where
  base : s.base = s₀.base
  groups : s.nodeGroups = s₀.nodeGroups
  status : s.nodeStatus = s₀.nodeStatus.upsert
    (fun r old ↦ old.getD (healthy s₀.nodeGroups b r) || healthy s₀.nodeGroups b r) rs
  times : s.nodeTimes = s₀.nodeTimes.upsert
    (fun r old ↦ round3 (min (old.getD (elapsed s₀.nodeGroups b time r))
      (elapsed s₀.nodeGroups b time r))) rs
  reported : s.reportedNodes = rs.reverse
  faults : s.faultNodes = [] ∨
    s.base.rdzvNodes.items.length ≤ rs.length ∧ s.faultNodes = s.failedRanks

theorem mem_failedRanks {s : NetworkCheckManager} {r : Int} :
    r ∈ s.failedRanks ↔ s.nodeStatus.get? r = some false := by
  rw [failedRanks, List.mem_map, Dict.get?_eq_some_iff]
  constructor
  · rintro ⟨⟨r, status⟩, mem, rfl⟩
    rw [List.mem_filter] at mem
    have failed : status = false := by simpa using mem.2
    rw [← failed]
    exact mem.1
  · intro mem
    exact ⟨(r, false), List.mem_filter.mpr ⟨mem, rfl⟩, rfl⟩

variable {b : Int} {time : Int → ℚ} {s₀ s : NetworkCheckManager} {rs : List Int}

theorem Checking.report (h : Checking b time s₀ rs s) {r : Int} (fresh : r ∉ rs)
    (room : rs.length < s.base.rdzvNodes.items.length) :
    Checking b time s₀ (rs ++ [r]) (s.act b time (.report r)) where
  base := h.base
  groups := h.groups
  status := by
    rw [Dict.upsert_concat, ← h.status, ← h.groups]
    rfl
  times := by
    rw [Dict.upsert_concat, ← h.times, ← h.groups]
    rfl
  reported := by
    have fresh' : r ∉ s.reportedNodes := by
      rw [h.reported, List.mem_reverse]
      exact fresh
    rw [act, reportNetworkCheckResult]
    simp only
    rw [List.insert_of_not_mem fresh', h.reported]
    simp
  faults := by
    rcases h.faults with none | ⟨full, -⟩
    · exact .inl none
    · omega

theorem Checking.checkFaultNode (h : Checking b time s₀ rs s)
    (failed : s.base.rdzvNodes.items.length ≤ rs.length → s.failedRanks ≠ []) :
    Checking b time s₀ rs s.checkFaultNode.2 := by
  unfold NetworkCheckManager.checkFaultNode
  split
  · exact h
  · split
    · exact h
    · next full =>
      rw [h.reported, List.length_reverse, Nat.not_lt] at full
      split
      · simp only
        split
        · exact ⟨h.base, h.groups, h.status, h.times, h.reported, .inr ⟨full, rfl⟩⟩
        · rw [if_neg (failed full)]
          exact ⟨h.base, h.groups, h.status, h.times, h.reported, .inr ⟨full, rfl⟩⟩
      · exact h

theorem Checking.getStraggler (h : Checking b time s₀ rs s) :
    Checking b time s₀ rs s.getStraggler.2 := by
  unfold NetworkCheckManager.getStraggler
  split
  · exact h
  · split
    · exact ⟨h.base, h.groups, h.status, h.times, h.reported, h.faults⟩
    · exact h

theorem Checking.getCommWorld (h : Checking b time s₀ rs s) (some : s₀.nodeGroups ≠ []) (r : Int)
    (env : Env) : Checking b time s₀ rs (s.getCommWorld r env).2 := by
  rw [NetworkCheckManager.getCommWorld, checkCompleted, if_neg (by rw [h.groups]; exact some)]
  exact h

/-- The statuses of a round that starts without any. -/
theorem Checking.status_fresh (h : Checking b time s₀ rs s) (nodup : rs.Nodup)
    (none : s₀.nodeStatus = .empty) :
    s.nodeStatus.items = rs.map fun r ↦ (r, healthy s₀.nodeGroups b r) := by
  rw [h.status, none, Dict.items_upsert_empty nodup]
  simp only [Option.getD_none, Bool.or_self]

theorem Checking.times_fresh (h : Checking b time s₀ rs s) (nodup : rs.Nodup)
    (none : s₀.nodeTimes = .empty) :
    s.nodeTimes.items = rs.map fun r ↦ (r, round3 (elapsed s₀.nodeGroups b time r)) := by
  rw [h.times, none, Dict.items_upsert_empty nodup]
  simp only [Option.getD_none, min_self]

/-- The statuses of a round that goes on with those of the last one. -/
theorem Checking.status_again (h : Checking b time s₀ rs s) {reports : List Int}
    (perm : reports.Perm rs) {passed : Int → Bool}
    (status : s₀.nodeStatus.items = reports.map fun r ↦ (r, passed r)) :
    s.nodeStatus.items = reports.map fun r ↦ (r, passed r || healthy s₀.nodeGroups b r) := by
  have keys : s₀.nodeStatus.keys = reports := by
    rw [Dict.keys, status, List.map_map]
    exact List.map_id _
  rw [h.status, Dict.items_upsert_keys (by rw [keys]; exact perm), status, List.map_map]
  rfl

/-- What a round needs of its start: the groups are formed, `b` is in one of them, and it did not
pass before. -/
structure Started (b : Int) (ranks : List Int) (s₀ : NetworkCheckManager) : Prop where
  nodes : s₀.base.rdzvNodes.keys.Perm ranks
  grouped : s₀.nodeGroups ≠ []
  faulty : healthy s₀.nodeGroups b b = false
  before : (s₀.nodeStatus.get? b).getD false = false
  fresh : s₀.reportedNodes = [] ∧ s₀.faultNodes = []

theorem Started.length {ranks : List Int} (start : Started b ranks s₀) :
    s₀.base.rdzvNodes.items.length = ranks.length := by
  rw [length_items, start.nodes.length_eq]

/-- With all reports in, `b` has failed. -/
theorem Checking.failed {ranks : List Int} (h : Checking b time s₀ rs s)
    (start : Started b ranks s₀) (faulty : b ∈ ranks) (nodup : rs.Nodup) (known : rs ⊆ ranks)
    (full : s.base.rdzvNodes.items.length ≤ rs.length) : b ∈ s.failedRanks := by
  have all : rs.Perm ranks := by
    apply (List.subperm_of_subset nodup known).perm_of_length_le
    rwa [h.base, start.length] at full
  have before := start.before
  rw [mem_failedRanks, h.status, Dict.get?_upsert nodup, if_pos (all.mem_iff.mpr faulty),
    start.faulty, before]
  rfl

/-- What a round's requests lead to. -/
theorem checking_foldl {ranks : List Int} (start : Started b ranks s₀) (faulty : b ∈ ranks)
    (acts : List CheckAct) (nodup : (CheckRound.reportedRanks acts).Nodup)
    (known : CheckRound.reportedRanks acts ⊆ ranks) :
    Checking b time s₀ (CheckRound.reportedRanks acts) (acts.foldl (act b time) s₀) := by
  induction acts using List.reverseRecOn with
  | nil => exact ⟨rfl, rfl, rfl, rfl, start.fresh.1, .inl start.fresh.2⟩
  | append_singleton acts a ih =>
    have split : CheckRound.reportedRanks (acts ++ [a]) =
        CheckRound.reportedRanks acts ++ CheckRound.reportedRanks [a] := List.filterMap_append
    rw [split] at nodup known ⊢
    have parts := List.nodup_append.mp nodup
    have now := ih parts.1 fun r hr ↦ known (List.mem_append_left _ hr)
    have quiet : ∀ a, CheckRound.reportedRanks [a] = [] →
        CheckRound.reportedRanks acts ++ CheckRound.reportedRanks [a] =
          CheckRound.reportedRanks acts := by
      intro a none
      rw [none, List.append_nil]
    rw [List.foldl_append, List.foldl_cons, List.foldl_nil]
    cases a with
    | report r =>
      have room := (List.subperm_of_subset nodup known).length_le
      rw [List.length_append, ← start.length, ← now.base] at room
      apply now.report
      · exact fun mem ↦ parts.2.2 r mem r (List.mem_singleton.mpr rfl) rfl
      · exact Nat.lt_of_succ_le room
    | getCommWorld r env =>
      rw [quiet _ rfl]
      exact now.getCommWorld start.grouped r env
    | checkFaultNode =>
      rw [quiet _ rfl]
      apply now.checkFaultNode
      intro full
      exact List.ne_nil_of_mem
        (now.failed start faulty parts.1 (fun r hr ↦ known (List.mem_append_left _ hr)) full)
    | getStraggler =>
      rw [quiet _ rfl]
      exact now.getStraggler

/-- With all reports in, the check of faults tells the failed ranks. -/
theorem Checking.checkFaultNode_eq {ranks : List Int} (h : Checking b time s₀ rs s)
    (start : Started b ranks s₀) (faulty : b ∈ ranks) (all : rs.Perm ranks) (distinct : ranks.Nodup)
    (within : ∀ r ∈ s.failedRanks, r ∈ ranks) :
    s.checkFaultNode.1 = .ok (s.failedRanks, .nodeFailure) := by
  have size : s.base.rdzvNodes.items.length = ranks.length := by rw [h.base, start.length]
  have full : s.base.rdzvNodes.items.length ≤ rs.length := by rw [size, all.length_eq]
  have some : s.base.rdzvNodes.items ≠ [] := by
    intro none
    rw [none] at size
    rw [List.eq_nil_of_length_eq_zero size.symm] at faulty
    cases faulty
  have failed := h.failed start faulty (all.nodup_iff.mpr distinct) all.subset full
  have inside : ¬(s.failedRanks.any fun rank ↦ decide (rank ∉ s.base.rdzvNodes)) = true := by
    rw [Bool.not_eq_true, List.any_eq_false]
    intro r hr
    have mem : r ∈ s.base.rdzvNodes := by
      rw [Dict.mem_def, h.base, start.nodes.mem_iff]
      exact within r hr
    simpa using mem
  rw [NetworkCheckManager.checkFaultNode, if_neg some,
    if_neg (by rw [h.reported, List.length_reverse]; omega)]
  have ne := List.ne_nil_of_mem failed
  rcases h.faults with none | ⟨-, eq⟩
  · rw [if_pos none]
    exact congrArg Prod.fst ((if_neg inside).trans (if_neg ne))
  · rw [if_neg (by rw [eq]; exact ne), eq]

end NetworkCheckManager

/-! ### The two rounds -/

/-- `r` has `b` in its group of the first round, in which the nodes stand by rank. -/
def MeetsFirst (ranks : List Int) (b r : Int) : Prop :=
  Pairing.Adjacent ranks.length ((ranks.insertionSort (· ≤ ·)).idxOf r)
    ((ranks.insertionSort (· ≤ ·)).idxOf b)

instance (ranks : List Int) (b r : Int) : Decidable (MeetsFirst ranks b r) :=
  inferInstanceAs (Decidable (Pairing.Adjacent _ _ _))

theorem meetsFirst_self (ranks : List Int) (b : Int) : MeetsFirst ranks b b := .inl rfl

/-- The time of `r` that the first round leaves. -/
def firstTime (ranks : List Int) (b : Int) (time : Int → ℚ) (r : Int) : ℚ :=
  if MeetsFirst ranks b r then 3600 else round3 (time r)

namespace CheckRound

open NetworkCheckManager

/-- The state `s₀` in which the requests of a round begin. -/
structure Begins (s : NetworkCheckManager) (ranks : List Int) (s₀ : NetworkCheckManager) :
    Prop where
  nodes : s₀.base.rdzvNodes.keys = ranks.insertionSort (· ≤ ·)
  idle : s₀.base.waitingNodes = .empty
  free : s₀.base.rdzvBlocked = false
  round : s₀.base.rdzvRound = s.base.rdzvRound + 1
  groups : s₀.nodeGroups = groupNodes s₀.base.rdzvNodes s.nodeTimes s.base.rdzvRound
  status : s₀.nodeStatus = if s.base.rdzvRound % 2 = 0 then .empty else s.nodeStatus
  times : s₀.nodeTimes = if s.base.rdzvRound % 2 = 0 then .empty else s.nodeTimes
  fresh : s₀.reportedNodes = [] ∧ s₀.faultNodes = []

theorem Covers.joins_ne_nil {round : CheckRound} {s : NetworkCheckManager} {ranks : List Int}
    {b : Int} (h : round.Covers s ranks) (faulty : b ∈ ranks) : round.joins ≠ [] := by
  intro none
  have := h.joined faulty
  rw [joinedRanks, none] at this
  cases this

/-- After the joins all nodes wait. -/
theorem Covers.waiting {round : CheckRound} {s : NetworkCheckManager} {ranks : List Int}
    (h : round.Covers s ranks) (distinct : ranks.Nodup) (idle : s.base.waitingNodes = .empty) :
    (s.gather round.joins).base.waitingNodes.keys.Perm ranks := by
  rw [List.perm_ext_iff_of_nodup (Dict.keys_nodup _) distinct]
  intro r
  rw [← Dict.mem_def, mem_gather_waiting, idle]
  constructor
  · rintro (mem | mem)
    · exact absurd mem (Dict.not_mem_empty r)
    · exact h.known mem
  · exact fun mem ↦ .inr (h.joined mem)

theorem Covers.begins {round : CheckRound} {s : NetworkCheckManager} {ranks : List Int} {b : Int}
    (h : round.Covers s ranks) (distinct : ranks.Nodup) (faulty : b ∈ ranks)
    (idle : s.base.waitingNodes = .empty) (free : s.base.rdzvBlocked = false) :
    ∃ s₀, round.play b s = round.acts.foldl (act b round.time) s₀ ∧ Begins s ranks s₀ := by
  rcases gather_frame s round.joins with ⟨sameRound, sameBlocked, sameStatus, sameTimes⟩
  rcases RdzvManager.complete_all (h.waiting distinct idle) with ⟨nodes, none⟩
  have poll := getCommWorld_completed round.poll.1 (gather_nodeGroups s (h.joins_ne_nil faulty))
    (sameBlocked.trans free) h.alive h.completed
  refine ⟨_, by rw [play, poll], ?_⟩
  constructor
  · exact nodes
  · exact none
  · exact sameBlocked.trans free
  · exact congrArg (· + 1) sameRound
  · simp only [startRound, RdzvManager.complete, sameRound, sameTimes]
  · simp only [startRound, RdzvManager.complete, sameRound, sameStatus]
    split <;> rfl
  · simp only [startRound, RdzvManager.complete, sameRound, sameTimes]
    split <;> rfl
  · exact ⟨rfl, rfl⟩

variable {ranks : List Int} {b : Int} {s s₀ : NetworkCheckManager}

/-- In an even round a check fails for those next to `b` by rank. -/
theorem healthy_even (h : Begins s ranks s₀) (even : s.base.rdzvRound % 2 = 0)
    (distinct : ranks.Nodup) (faulty : b ∈ ranks) {r : Int} (hr : r ∈ ranks) :
    healthy s₀.nodeGroups b r = !decide (MeetsFirst ranks b r) := by
  have nodup : (ranks.insertionSort (· ≤ ·)).Nodup :=
    (List.perm_insertionSort _ _).nodup_iff.mpr distinct
  have mem : ∀ {r}, r ∈ ranks → r ∈ ranks.insertionSort (· ≤ ·) := (List.mem_insertionSort _).mpr
  rw [healthy, h.groups, groupNodes, if_pos even, keys_groupAdjacent, h.nodes, decide_not]
  congr 1
  rw [decide_eq_decide, Pairing.together_adjacent nodup (mem hr) (mem faulty),
    List.length_insertionSort]
  exact Iff.rfl

theorem Begins.mem_nodes (h : Begins s ranks s₀) {r : Int} :
    r ∈ s₀.base.rdzvNodes ↔ r ∈ ranks := by
  rw [Dict.mem_def, h.nodes, List.mem_insertionSort]

/-- In an odd round it fails for those opposite to `b` in the order of the times. -/
theorem healthy_odd (h : Begins s ranks s₀) (odd : s.base.rdzvRound % 2 ≠ 0)
    (distinct : ranks.Nodup) (faulty : b ∈ ranks) {order : List Int} (perm : order.Perm ranks)
    (sorted : sortByTime s₀.base.rdzvNodes s.nodeTimes = order) {r : Int} (hr : r ∈ ranks) :
    healthy s₀.nodeGroups b r =
      !decide (Pairing.Opposite ranks.length (order.idxOf r) (order.idxOf b)) := by
  have known : ∀ r ∈ order, r ∈ s₀.base.rdzvNodes := fun r hr ↦
    h.mem_nodes.mpr (perm.mem_iff.mp hr)
  rw [healthy, h.groups, groupNodes, if_neg odd, sorted,
    keys_groupEnds (perm.nodup_iff.mpr distinct) known, decide_not]
  congr 1
  rw [decide_eq_decide, Pairing.together_ends (perm.nodup_iff.mpr distinct)
    (perm.mem_iff.mpr hr) (perm.mem_iff.mpr faulty), perm.length_eq]

theorem Begins.started (h : Begins s ranks s₀)
    (alone : healthy s₀.nodeGroups b b = false)
    (before : (s₀.nodeStatus.get? b).getD false = false) : Started b ranks s₀ where
  nodes := by
    rw [h.nodes]
    exact List.perm_insertionSort _ _
  grouped := by
    intro none
    rw [none] at alone
    cases alone
  faulty := alone
  before := before
  fresh := h.fresh

/-- The state after the reports of a round. -/
theorem Covers.checking {round : CheckRound} (h : round.Covers s ranks) (distinct : ranks.Nodup)
    (faulty : b ∈ ranks) (start : Started b ranks s₀)
    (eq : round.play b s = round.acts.foldl (act b round.time) s₀) :
    Checking b round.time s₀ (reportedRanks round.acts) (round.play b s) := by
  rw [eq]
  exact checking_foldl start faulty round.acts (h.reported.nodup_iff.mpr distinct)
    h.reported.subset

theorem round3_3600 : round3 3600 = 3600 := by
  norm_num [round3]

/-- What the first round leaves. -/
theorem Covers.first {round : CheckRound} (h : round.Covers s ranks) (distinct : ranks.Nodup)
    (faulty : b ∈ ranks) (idle : s.base.waitingNodes = .empty) (free : s.base.rdzvBlocked = false)
    (even : s.base.rdzvRound % 2 = 0) :
    (round.play b s).base.waitingNodes = .empty ∧ (round.play b s).base.rdzvBlocked = false ∧
      (round.play b s).base.rdzvRound = s.base.rdzvRound + 1 ∧
      (round.play b s).nodeStatus.items =
        (reportedRanks round.acts).map (fun r ↦ (r, !decide (MeetsFirst ranks b r))) ∧
      (round.play b s).nodeTimes.items =
        (reportedRanks round.acts).map fun r ↦ (r, firstTime ranks b round.time r) := by
  rcases h.begins distinct faulty idle free with ⟨s₀, eq, begins⟩
  have healthy_eq := fun {r} ↦ healthy_even begins even distinct faulty (r := r)
  have status : s₀.nodeStatus = .empty := by rw [begins.status, if_pos even]
  have times : s₀.nodeTimes = .empty := by rw [begins.times, if_pos even]
  have start : Started b ranks s₀ := by
    apply begins.started
    · rw [healthy_eq faulty, decide_eq_true (meetsFirst_self ranks b)]
      rfl
    · rw [status]
      rfl
  have nodup := h.reported.nodup_iff.mpr distinct
  have final := h.checking distinct faulty start eq
  refine ⟨?_, ?_, ?_, ?_, ?_⟩
  · rw [final.base, begins.idle]
  · rw [final.base, begins.free]
  · rw [final.base, begins.round]
  · rw [final.status_fresh nodup status]
    apply List.map_congr_left
    intro r hr
    rw [healthy_eq (h.reported.mem_iff.mp hr)]
  · rw [final.times_fresh nodup times]
    apply List.map_congr_left
    intro r hr
    rw [elapsed, healthy_eq (h.reported.mem_iff.mp hr), firstTime]
    by_cases meets : MeetsFirst ranks b r
    · simp [meets, round3_3600]
    · simp [meets]

/-- What the second round tells: the ranks that fail in both. -/
theorem Covers.second {round : CheckRound} (h : round.Covers s ranks) (distinct : ranks.Nodup)
    (faulty : b ∈ ranks) (idle : s.base.waitingNodes = .empty) (free : s.base.rdzvBlocked = false)
    (odd : s.base.rdzvRound % 2 ≠ 0) {reports : List Int} (perm : reports.Perm ranks)
    {passed : Int → Bool} (failed : passed b = false) {key : Int → ℚ}
    (status : s.nodeStatus.items = reports.map fun r ↦ (r, passed r))
    (times : s.nodeTimes.items = reports.map fun r ↦ (r, key r)) :
    let order := reports.insertionSort fun x y ↦ key x ≤ key y
    (round.play b s).checkFaultNode.1 = .ok (reports.filter (fun r ↦ !passed r &&
      decide (Pairing.Opposite ranks.length (order.idxOf r) (order.idxOf b))), .nodeFailure) := by
  intro order
  rcases h.begins distinct faulty idle free with ⟨s₀, eq, begins⟩
  have ordered : order.Perm ranks := (List.perm_insertionSort _ _).trans perm
  have known : ∀ r ∈ reports, r ∈ s₀.base.rdzvNodes := fun r hr ↦
    begins.mem_nodes.mpr (perm.mem_iff.mp hr)
  have sorted : sortByTime s₀.base.rdzvNodes s.nodeTimes = order := sortByTime_eq times known
  have healthy_eq := fun {r} ↦ healthy_odd begins odd distinct faulty ordered sorted (r := r)
  have kept : s₀.nodeStatus = s.nodeStatus := by rw [begins.status, if_neg odd]
  have start : Started b ranks s₀ := by
    apply begins.started
    · rw [healthy_eq faulty, decide_eq_true (.inl rfl)]
      rfl
    · have value : s.nodeStatus.get? b = some false := by
        rw [Dict.get?_eq_some_iff, status, ← failed]
        exact List.mem_map.mpr ⟨b, perm.mem_iff.mpr faulty, rfl⟩
      rw [kept, value]
      rfl
  have final := h.checking distinct faulty start eq
  have all : (round.play b s).nodeStatus.items = reports.map fun r ↦ (r, passed r ||
      !decide (Pairing.Opposite ranks.length (order.idxOf r) (order.idxOf b))) := by
    rw [final.status_again (perm.trans h.reported.symm) (by rw [kept]; exact status)]
    apply List.map_congr_left
    intro r hr
    rw [healthy_eq (perm.mem_iff.mp hr)]
  have failed_eq : (round.play b s).failedRanks = reports.filter fun r ↦ !passed r &&
      decide (Pairing.Opposite ranks.length (order.idxOf r) (order.idxOf b)) := by
    rw [failedRanks_eq all]
    apply List.filter_congr
    intro r _
    simp
  rw [← failed_eq]
  apply final.checkFaultNode_eq start faulty h.reported distinct
  intro r hr
  rw [failed_eq] at hr
  exact perm.mem_iff.mp (List.mem_filter.mp hr).1

end CheckRound

end ProbingBaselines.Dlrover
