import ProbingBaselines.Dlrover.CheckRounds
import ProbingBaselines.Dlrover.InterGroups

/-!
# Isolating a node across node groups

The two inter phases of a check with one faulty node. While its group fails, the manager of node
groups takes the steps of the plain one. The nodes that fail the first phase stand last in the
sorted node groups, so none of them meets another in the second, and the or-ed status of the faulty
node alone stays a failure. That takes times that are still below 3600 when rounded
(`rdzv_manager.py:751-760`).
-/

namespace ProbingBaselines.Dlrover

open Lib

namespace GroupNodeManager

def act (b : Int) (time : Int → ℚ) (s : GroupNodeManager) : CheckAct → GroupNodeManager
  | .report r => s.reportNetworkCheckResult r (healthy s.check.nodeGroups b r)
      (elapsed s.check.nodeGroups b time r)
  | .getCommWorld r env => (s.getCommWorld r env).2
  | .checkFaultNode => s.checkFaultNode.2
  | .getStraggler => s.getStraggler.2

def gather (s : GroupNodeManager) (joins : List (JoinRendezvousRequest × Env)) :
    GroupNodeManager :=
  joins.foldl (fun s join ↦ s.joinRendezvous join.1 join.2) s

/-- The manager after the round. -/
def playRound (b : Int) (s : GroupNodeManager) (round : CheckRound) : GroupNodeManager :=
  round.acts.foldl (act b round.time)
    ((s.gather round.joins).getCommWorld round.poll.1 round.poll.2).2

/-! ### The steps of the plain manager -/

theorem gather_eq (s : GroupNodeManager) (joins : List (JoinRendezvousRequest × Env)) :
    s.gather joins = { s with check := s.check.gather joins } := by
  induction joins using List.reverseRecOn with
  | nil => rfl
  | append_singleton joins join ih =>
    have concat : s.gather (joins ++ [join]) = (s.gather joins).joinRendezvous join.1 join.2 := by
      simp [gather]
    rw [concat, ih, NetworkCheckManager.gather_concat]
    rfl

/-- The poll that starts a round. -/
theorem getCommWorld_completed {s : GroupNodeManager} {env : Env} {num : Int} (r : Int)
    (none : s.check.nodeGroups = []) (free : s.check.base.rdzvBlocked = false)
    (alive : ∀ id, env.failed id = false)
    (completed : s.check.base.completedNum env.now = .ok (some num)) :
    (s.getCommWorld r env).2 = (s.setBase (s.check.base.complete num)).startRound := by
  have base : s.check.base.checkRdzvCompleted env = (.ok true, s.check.base.complete num) := by
    rw [RdzvManager.checkRdzvCompleted, s.check.base.dropFailed_of_alive alive, free, completed]
    rfl
  rw [getCommWorld, if_pos none, base]

/-- With a failure among full reports the check of faults is the plain one. -/
theorem checkFaultNode_check (s : GroupNodeManager)
    (failed : s.check.base.rdzvNodes.items.length ≤ s.check.reportedNodes.length →
      s.check.failedRanks ≠ []) :
    s.checkFaultNode.2 = { s with check := s.check.checkFaultNode.2 } := by
  unfold checkFaultNode NetworkCheckManager.checkFaultNode
  split
  · rfl
  · split
    · rfl
    · next full =>
      have some := failed (Nat.not_lt.mp full)
      split
      · simp only [if_neg some]
        split
        · rfl
        · rfl
      · rfl

theorem act_eq {b : Int} {time : Int → ℚ} (s : GroupNodeManager) (grouped : s.check.nodeGroups ≠ [])
    (failed : s.check.base.rdzvNodes.items.length ≤ s.check.reportedNodes.length →
      s.check.failedRanks ≠ []) (a : CheckAct) :
    s.act b time a = { s with check := s.check.act b time a } := by
  cases a with
  | report r => rfl
  | getCommWorld r env =>
    rw [act, getCommWorld, if_neg grouped, NetworkCheckManager.act,
      NetworkCheckManager.getCommWorld, NetworkCheckManager.checkCompleted, if_neg grouped]
  | checkFaultNode => exact checkFaultNode_check s failed
  | getStraggler => rfl

/-- While `b` fails, the requests of a round do what they do to the plain manager. -/
theorem foldl_act_eq {b : Int} {time : Int → ℚ} {ranks : List Int} {s : GroupNodeManager}
    (start : NetworkCheckManager.Started b ranks s.check) (faulty : b ∈ ranks)
    (acts : List CheckAct) (nodup : (CheckRound.reportedRanks acts).Nodup)
    (known : CheckRound.reportedRanks acts ⊆ ranks) :
    acts.foldl (act b time) s =
      { s with check := acts.foldl (NetworkCheckManager.act b time) s.check } := by
  induction acts using List.reverseRecOn with
  | nil => rfl
  | append_singleton acts a ih =>
    have split : CheckRound.reportedRanks (acts ++ [a]) =
        CheckRound.reportedRanks acts ++ CheckRound.reportedRanks [a] := List.filterMap_append
    rw [split] at nodup known
    have nodup' := (List.nodup_append.mp nodup).1
    have known' : CheckRound.reportedRanks acts ⊆ ranks :=
      fun r hr ↦ known (List.mem_append_left _ hr)
    have now : NetworkCheckManager.Checking b time s.check (CheckRound.reportedRanks acts)
        (acts.foldl (NetworkCheckManager.act b time) s.check) :=
      NetworkCheckManager.checking_foldl start faulty acts nodup' known'
    rw [List.foldl_append, List.foldl_cons, List.foldl_nil, List.foldl_append, List.foldl_cons,
      List.foldl_nil, ih nodup' known', act_eq]
    · rw [now.groups]
      exact start.grouped
    · intro full
      rw [now.reported, List.length_reverse] at full
      exact List.ne_nil_of_mem (now.failed start faulty nodup' known' full)

/-! ### The start of a round -/

/-- The failures of the statuses that a round starts from. -/
theorem hasIntraFailures_eq {s t : GroupNodeManager}
    (same : t.check.nodeStatus = s.check.nodeStatus) : t.hasIntraFailures = s.hasIntraFailures := by
  rw [hasIntraFailures, hasIntraFailures, same]

theorem startRound_interInitial {t : GroupNodeManager}
    (some : (buildNodeGroupMap t.check.base.rdzvNodes).items ≠ [])
    (round : t.check.base.rdzvRound % 3 = 1) (passed : t.hasIntraFailures = false) :
    t.startRound =
      { check :=
          { t.check with
            faultNodes := []
            stragglerNodes := []
            nodeGroups := groupInterInitial t.check.base.rdzvNodes
              (buildNodeGroupMap t.check.base.rdzvNodes)
            nodeStatus := .empty
            nodeTimes := .empty
            reportedNodes := []
            base := { t.check.base with rdzvRound := t.check.base.rdzvRound + 1 } }
        currentPhase := .interInitial
        nodeGroupMap := buildNodeGroupMap t.check.base.rdzvNodes
        intraPassed := true } := by
  have none := passed
  rw [hasIntraFailures] at none
  simp [startRound, groupNodes, hasIntraFailures, some, round, none]

/-- The diagnosis keeps the statuses and times of the round before. -/
theorem startRound_interDiagnostic {t : GroupNodeManager}
    (some : (buildNodeGroupMap t.check.base.rdzvNodes).items ≠ [])
    (round : t.check.base.rdzvRound % 3 = 2) :
    t.startRound =
      { check :=
          { t.check with
            faultNodes := []
            stragglerNodes := []
            nodeGroups := groupInterDiagnostic t.check.base.rdzvNodes t.check.nodeTimes
              (buildNodeGroupMap t.check.base.rdzvNodes)
            reportedNodes := []
            base := { t.check.base with rdzvRound := t.check.base.rdzvRound + 1 } }
        currentPhase := .interDiagnostic
        nodeGroupMap := buildNodeGroupMap t.check.base.rdzvNodes
        intraPassed := t.intraPassed } := by
  simp [startRound, groupNodes, some, round]

end GroupNodeManager

/-- The waiting nodes have the node groups they joined with. -/
theorem NetworkCheckManager.gather_nodeGroup {s : NetworkCheckManager}
    {joins : List (JoinRendezvousRequest × Env)} {group : Int → Int}
    (idle : s.base.waitingNodes = .empty)
    (homes : ∀ join ∈ joins, (join.1.nodeMeta join.2).nodeGroup = group join.1.nodeRank) :
    ∀ e ∈ (s.gather joins).base.waitingNodes.items, e.2.nodeGroup = group e.1 := by
  induction joins using List.reverseRecOn with
  | nil =>
    intro e he
    rw [gather, List.foldl_nil, idle] at he
    cases he
  | append_singleton joins join ih =>
    have front := ih fun join' hjoin' ↦ homes join' (List.mem_append_left _ hjoin')
    have last := homes join (List.mem_append_right _ (List.mem_singleton.mpr rfl))
    rw [gather_concat, joinRendezvous, clearGroups, RdzvManager.joinRendezvous]
    split
    · exact front
    · intro e he
      rcases Dict.mem_items_insert.mp he with ⟨eq, eq'⟩ | ⟨-, mem⟩
      · rw [eq, eq']
        exact last
      · exact front e mem

namespace CheckRound

/-- The nodes join with their node groups. -/
def InGroups (round : CheckRound) (group : Int → Int) : Prop :=
  ∀ join ∈ round.joins, (join.1.nodeMeta join.2).nodeGroup = group join.1.nodeRank

/-- The manager `t` that starts a round, after the joins and the poll of a manager `s`. -/
structure Ready (s : GroupNodeManager) (ranks : List Int) (group : Int → Int)
    (t : GroupNodeManager) : Prop where
  nodes : Placed t.check.base.rdzvNodes ranks group
  idle : t.check.base.waitingNodes = .empty
  free : t.check.base.rdzvBlocked = false
  round : t.check.base.rdzvRound = s.check.base.rdzvRound
  status : t.check.nodeStatus = s.check.nodeStatus
  times : t.check.nodeTimes = s.check.nodeTimes

variable {ranks : List Int} {group : Int → Int} {b : Int} {k size : Nat}
  {s t : GroupNodeManager} {round : CheckRound}

theorem Covers.ready (h : round.Covers s.check ranks) (distinct : ranks.Nodup) (faulty : b ∈ ranks)
    (homes : round.InGroups group) (idle : s.check.base.waitingNodes = .empty)
    (free : s.check.base.rdzvBlocked = false) :
    ∃ t, s.playRound b round =
        round.acts.foldl (GroupNodeManager.act b round.time) t.startRound ∧
      Ready s ranks group t := by
  have waiting := h.waiting distinct idle
  rcases NetworkCheckManager.gather_frame s.check round.joins with
    ⟨sameRound, sameBlocked, sameStatus, sameTimes⟩
  rcases RdzvManager.complete_all waiting with ⟨nodes, none⟩
  have gathered := s.gather_eq round.joins
  have poll : ((s.gather round.joins).getCommWorld round.poll.1 round.poll.2).2 =
      ((s.gather round.joins).setBase
        ((s.gather round.joins).check.base.complete ranks.length)).startRound := by
    apply GroupNodeManager.getCommWorld_completed
    · rw [gathered]
      exact NetworkCheckManager.gather_nodeGroups s.check (h.joins_ne_nil faulty)
    · rw [gathered]
      exact sameBlocked.trans free
    · exact h.alive
    · rw [gathered]
      exact h.completed
  refine ⟨_, by rw [GroupNodeManager.playRound, poll], ?_⟩
  rw [gathered]
  constructor
  · constructor
    · simp only [GroupNodeManager.setBase]
      rw [nodes]
      exact List.perm_insertionSort _ _
    · intro e he
      exact NetworkCheckManager.gather_nodeGroup idle homes e (Dict.mem_items_of_mem_select he)
  · exact none
  · exact sameBlocked.trans free
  · exact sameRound
  · exact sameStatus
  · exact sameTimes

/-- There are node groups. -/
theorem Ready.buildNodeGroupMap_ne_nil (h : Ready s ranks group t)
    (equal : EqualGroups ranks group k size) (faulty : b ∈ ranks) :
    (buildNodeGroupMap t.check.base.rdzvNodes).items ≠ [] := by
  have mem : (group b, (ranks.filter fun r ↦ group r = group b).insertionSort (· ≤ ·)) ∈
      (buildNodeGroupMap t.check.base.rdzvNodes).items :=
    (mem_buildNodeGroupMap h.nodes equal).mpr ⟨⟨b, faulty, rfl⟩, rfl⟩
  exact List.ne_nil_of_mem mem

/-- The state after the reports of a round that starts with `s₀`. -/
theorem Covers.checking_groups {s₀ : GroupNodeManager} (h : round.Covers s.check ranks)
    (distinct : ranks.Nodup) (faulty : b ∈ ranks)
    (start : NetworkCheckManager.Started b ranks s₀.check)
    (eq : s.playRound b round = round.acts.foldl (GroupNodeManager.act b round.time) s₀) :
    NetworkCheckManager.Checking b round.time s₀.check (reportedRanks round.acts)
      (s.playRound b round).check ∧ (s.playRound b round).currentPhase = s₀.currentPhase := by
  have nodup := h.reported.nodup_iff.mpr distinct
  rw [eq, GroupNodeManager.foldl_act_eq start faulty round.acts nodup h.reported.subset]
  exact ⟨NetworkCheckManager.checking_foldl start faulty round.acts nodup h.reported.subset, rfl⟩

theorem healthy_eq_false {groups : List NodeMap} {r : Int} :
    healthy groups b r = false ↔ Pairing.Together (groups.map Dict.keys) r b := by
  rw [healthy, decide_eq_false_iff_not, not_not]

/-- The faulty node is in a group. -/
theorem healthy_self {groups : List NodeMap} (h : Partition groups ranks) (faulty : b ∈ ranks) :
    healthy groups b b = false := by
  rw [healthy_eq_false]
  rcases List.mem_flatMap.mp (h.ranks.mem_iff.mpr faulty) with ⟨group, hgroup, mem⟩
  exact ⟨group.keys, List.mem_map_of_mem hgroup, mem, mem⟩

/-- The start of a phase whose groups are given by rows. -/
theorem Ready.started (h : Ready s ranks group t)
    (partition : Partition t.startRound.check.nodeGroups ranks) (faulty : b ∈ ranks)
    (before : (t.startRound.check.nodeStatus.get? b).getD false = false)
    (nodes : t.startRound.check.base.rdzvNodes = t.check.base.rdzvNodes) :
    NetworkCheckManager.Started b ranks t.startRound.check where
  nodes := by
    rw [nodes]
    exact h.nodes.ranks
  grouped := by
    intro none
    have alone := healthy_self partition faulty
    rw [none] at alone
    cases alone
  faulty := healthy_self partition faulty
  before := before
  fresh := ⟨rfl, rfl⟩

/-- What the first inter phase leaves. -/
structure InitialDone (ranks : List Int) (group : Int → Int) (size : Nat) (b : Int)
    (time : Int → ℚ) (reports : List Int) (s : GroupNodeManager) : Prop where
  phase : s.currentPhase = .interInitial
  idle : s.check.base.waitingNodes = .empty
  free : s.check.base.rdzvBlocked = false
  round : s.check.base.rdzvRound % 3 = 2
  partition : Partition s.check.nodeGroups ranks
  keys : s.check.nodeGroups.map Dict.keys = Columns.columns size (groupRows ranks group)
  status : s.check.nodeStatus.items =
    reports.map fun r ↦ (r, healthy s.check.nodeGroups b r)
  times : s.check.nodeTimes.items =
    reports.map fun r ↦ (r, round3 (elapsed s.check.nodeGroups b time r))

theorem Covers.interInitial (h : round.Covers s.check ranks) (distinct : ranks.Nodup)
    (faulty : b ∈ ranks) (homes : round.InGroups group) (idle : s.check.base.waitingNodes = .empty)
    (free : s.check.base.rdzvBlocked = false) (equal : EqualGroups ranks group k size)
    (two : 2 ≤ k) (phase : s.check.base.rdzvRound % 3 = 1) (passed : s.hasIntraFailures = false) :
    InitialDone ranks group size b round.time (reportedRanks round.acts) (s.playRound b round) := by
  rcases h.ready distinct faulty homes idle free with ⟨t, eq, ready⟩
  have rows := rows_groupRows equal distinct two
  have known : ∀ r ∈ ranks, r ∈ t.check.base.rdzvNodes := fun r ↦ ready.nodes.ranks.mem_iff.mpr
  have begun := GroupNodeManager.startRound_interInitial
    (ready.buildNodeGroupMap_ne_nil equal faulty) (by rw [ready.round]; exact phase)
    ((GroupNodeManager.hasIntraFailures_eq ready.status).trans passed)
  have groups : t.startRound.check.nodeGroups =
      groupByPosition t.check.base.rdzvNodes (groupRows ranks group) := by
    rw [begun, ← sortedGroups_eq ready.nodes equal]
    rfl
  have partition : Partition t.startRound.check.nodeGroups ranks := by
    rw [groups]
    exact rows.partition distinct known
  have start : NetworkCheckManager.Started b ranks t.startRound.check := by
    apply ready.started partition faulty
    · rw [begun]
      rfl
    · rw [begun]
  have nodup := h.reported.nodup_iff.mpr distinct
  rcases h.checking_groups distinct faulty start eq with ⟨final, samePhase⟩
  constructor
  · rw [samePhase, begun]
  · rw [final.base, begun]
    exact ready.idle
  · rw [final.base, begun]
    exact ready.free
  · rw [final.base, begun]
    simp only [ready.round]
    omega
  · rw [final.groups]
    exact partition
  · rw [final.groups, groups]
    exact rows.keys_groupByPosition distinct known
  · rw [final.groups]
    apply final.status_fresh nodup
    rw [begun]
  · rw [final.groups]
    apply final.times_fresh nodup
    rw [begun]

section Diagnosis

variable {time : Int → ℚ} {reports : List Int}

theorem InitialDone.failedRanks_eq (h : InitialDone ranks group size b time reports s) :
    s.check.failedRanks = reports.filter fun r ↦ !healthy s.check.nodeGroups b r :=
  NetworkCheckManager.failedRanks_eq h.status

/-- The time that a node has reported. -/
theorem InitialDone.nodeTimes_getD (h : InitialDone ranks group size b time reports s) {r : Int}
    (hr : r ∈ reports) :
    (s.check.nodeTimes.get? r).getD 0 = round3 (elapsed s.check.nodeGroups b time r) := by
  have value : s.check.nodeTimes.get? r = some (round3 (elapsed s.check.nodeGroups b time r)) := by
    rw [Dict.get?_eq_some_iff, h.times]
    exact List.mem_map.mpr ⟨r, hr, rfl⟩
  rw [value]
  rfl

/-- Those that failed have time 3600. -/
theorem InitialDone.slow (h : InitialDone ranks group size b time reports s) {r : Int}
    (hr : r ∈ reports)
    (meets : Pairing.Together (Columns.columns size (groupRows ranks group)) r b) :
    (s.check.nodeTimes.get? r).getD 0 = 3600 := by
  rw [← h.keys, ← healthy_eq_false] at meets
  rw [h.nodeTimes_getD hr, elapsed, meets]
  exact round3_3600

theorem InitialDone.fast (h : InitialDone ranks group size b time reports s) {r : Int}
    (hr : r ∈ reports) (below : round3 (time r) < 3600)
    (apart : ¬Pairing.Together (Columns.columns size (groupRows ranks group)) r b) :
    (s.check.nodeTimes.get? r).getD 0 < 3600 := by
  rw [← h.keys, ← healthy_eq_false, Bool.not_eq_false] at apart
  rw [h.nodeTimes_getD hr, elapsed, apart]
  exact below

/-- What the second inter phase leaves. -/
theorem Covers.interDiagnostic (h : round.Covers s.check ranks) (distinct : ranks.Nodup)
    (faulty : b ∈ ranks) (homes : round.InGroups group) (equal : EqualGroups ranks group k size)
    (two : 2 ≤ k) (reported : reports.Perm ranks)
    (done : InitialDone ranks group size b time reports s) :
    (s.playRound b round).currentPhase = .interDiagnostic ∧
      Partition (s.playRound b round).check.nodeGroups ranks ∧
      (s.playRound b round).check.nodeGroups.map Dict.keys = Columns.columns size
        (Columns.rotated ((groupRows ranks group).map (sortRanksByTime s.check.nodeTimes))) ∧
      (s.playRound b round).check.failedRanks = reports.filter fun r ↦
        !(healthy s.check.nodeGroups b r ||
          healthy (s.playRound b round).check.nodeGroups b r) := by
  rcases h.ready distinct faulty homes done.idle done.free with ⟨t, eq, ready⟩
  have rows := ((rows_groupRows equal distinct two).sorted s.check.nodeTimes).rotated
  have known : ∀ r ∈ ranks, r ∈ t.check.base.rdzvNodes := fun r ↦ ready.nodes.ranks.mem_iff.mpr
  have begun := GroupNodeManager.startRound_interDiagnostic
    (ready.buildNodeGroupMap_ne_nil equal faulty) (by rw [ready.round]; exact done.round)
  have groups : t.startRound.check.nodeGroups = groupByPosition t.check.base.rdzvNodes
      (Columns.rotated ((groupRows ranks group).map (sortRanksByTime s.check.nodeTimes))) := by
    rw [begun, ← sortedGroups_eq ready.nodes equal, ← ready.times]
    exact groupInterDiagnostic_eq _ _ _
  have partition : Partition t.startRound.check.nodeGroups ranks := by
    rw [groups]
    exact rows.partition distinct known
  have kept : t.startRound.check.nodeStatus = s.check.nodeStatus := by
    rw [begun]
    exact ready.status
  have start : NetworkCheckManager.Started b ranks t.startRound.check := by
    apply ready.started partition faulty
    · have value : s.check.nodeStatus.get? b = some false := by
        rw [Dict.get?_eq_some_iff, done.status, ← healthy_self done.partition faulty]
        exact List.mem_map.mpr ⟨b, reported.mem_iff.mpr faulty, rfl⟩
      rw [kept, value]
      rfl
    · rw [begun]
  rcases h.checking_groups distinct faulty start eq with ⟨final, samePhase⟩
  refine ⟨?_, ?_, ?_, ?_⟩
  · rw [samePhase, begun]
  · rw [final.groups]
    exact partition
  · rw [final.groups, groups]
    exact rows.keys_groupByPosition distinct known
  · rw [final.groups]
    apply NetworkCheckManager.failedRanks_eq
    apply final.status_again (reported.trans h.reported.symm)
    rw [kept]
    exact done.status

end Diagnosis

/-! ### The two phases -/

/-- Two rounds with one faulty node, which start with the first inter phase. -/
structure InterRounds (ranks : List Int) (group : Int → Int) (k size : Nat) (b : Int)
    (s : GroupNodeManager) (first second : CheckRound) : Prop where
  equal : EqualGroups ranks group k size
  several : 2 ≤ k
  wide : k ≤ size
  distinct : ranks.Nodup
  faulty : b ∈ ranks
  phase : s.check.base.rdzvRound % 3 = 1
  passed : s.hasIntraFailures = false
  idle : s.check.base.waitingNodes = .empty
  free : s.check.base.rdzvBlocked = false
  round1 : first.Covers s.check ranks
  groups1 : first.InGroups group
  round2 : second.Covers (s.playRound b first).check ranks
  groups2 : second.InGroups group

/-- Each phase's groups are a partition, those that fail with `b` in the first phase do not meet in
the second, and `b` alone is told. -/
structure Isolates (ranks : List Int) (b : Int) (s₁ s₂ : GroupNodeManager) : Prop where
  phases : s₁.currentPhase = .interInitial ∧ s₂.currentPhase = .interDiagnostic
  initial : Partition s₁.check.nodeGroups ranks
  diagnostic : Partition s₂.check.nodeGroups ranks
  failed : ∀ r, r ∈ s₁.check.failedRanks ↔
    Pairing.Together (s₁.check.nodeGroups.map Dict.keys) r b
  apart : ∀ x ∈ s₁.check.failedRanks, ∀ y ∈ s₁.check.failedRanks, x ≠ y →
    ¬Pairing.Together (s₂.check.nodeGroups.map Dict.keys) x y
  told : s₂.check.failedRanks = [b]

/-- The two inter phases isolate a faulty node whenever all healthy times of the first one stay
below 3600 when rounded. -/
theorem interRounds_isolate {first second : CheckRound}
    (h : InterRounds ranks group k size b s first second)
    (below : ∀ r ∈ ranks, round3 (first.time r) < 3600) :
    Isolates ranks b (s.playRound b first) ((s.playRound b first).playRound b second) := by
  have reported := h.round1.reported
  have done := h.round1.interInitial h.distinct h.faulty h.groups1 h.idle h.free h.equal h.several
    h.phase h.passed
  rcases h.round2.interDiagnostic h.distinct h.faulty h.groups2 h.equal h.several reported done
    with ⟨phase, partition, keys, failedRanks⟩
  have rows := rows_groupRows h.equal h.distinct h.several
  have failed : ∀ r, r ∈ (s.playRound b first).check.failedRanks ↔
      Pairing.Together ((s.playRound b first).check.nodeGroups.map Dict.keys) r b := by
    intro r
    rw [done.failedRanks_eq, List.mem_filter, Bool.not_eq_true', healthy_eq_false,
      and_iff_right_iff_imp]
    rintro ⟨members, hmembers, mem, -⟩
    apply reported.mem_iff.mpr
    rw [← done.partition.ranks.mem_iff, groupedRanks_eq]
    exact List.mem_flatten.mpr ⟨members, hmembers, mem⟩
  have apart : ∀ x ∈ (s.playRound b first).check.failedRanks,
      ∀ y ∈ (s.playRound b first).check.failedRanks, x ≠ y → ¬Pairing.Together
        (((s.playRound b first).playRound b second).check.nodeGroups.map Dict.keys) x y := by
    intro x hx y hy ne
    rw [failed, done.keys] at hx hy
    rw [keys]
    apply rows.apart h.distinct _ _ _ hx hy ne
    · rw [length_groupRows h.equal]
      exact h.wide
    · exact fun r hr ↦ done.slow (reported.mem_iff.mpr hr)
    · exact fun r hr ↦ done.fast (reported.mem_iff.mpr hr) (below r hr)
  constructor
  · exact ⟨done.phase, phase⟩
  · exact done.partition
  · exact partition
  · exact failed
  · exact apart
  · have self := healthy_self done.partition h.faulty
    rw [failedRanks, filter_eq_singleton (reported.nodup_iff.mpr h.distinct)
      (reported.mem_iff.mpr h.faulty)]
    · intro r hr ne
      rw [Bool.not_eq_false', Bool.or_eq_true]
      cases passed : healthy (s.playRound b first).check.nodeGroups b r with
      | true => exact .inl rfl
      | false =>
        right
        rw [← Bool.not_eq_false, healthy_eq_false]
        exact apart r ((failed r).mpr (healthy_eq_false.mp passed)) b
          ((failed b).mpr (healthy_eq_false.mp self)) ne
    · rw [self, healthy_self partition h.faulty]
      rfl

/-! ### Two node groups of two -/

/-- The nodes `2 * g` and `2 * g + 1` are in node group `g`. -/
def pairEnv (now : ℚ) : Env := ⟨now, fun _ ↦ ("", ""), fun id ↦ (id / 2, 0, ""), fun _ ↦ false⟩

def pairJoins : List (JoinRendezvousRequest × Env) :=
  [0, 1, 2, 3].map fun r ↦ (⟨r, r, 8, ""⟩, pairEnv 10)

/-- Four nodes join, one of them polls and all report. -/
def pairRound (time : Int → ℚ) : CheckRound where
  joins := pairJoins
  poll := (0, pairEnv 60)
  acts := [0, 1, 2, 3].map .report
  time := time

/-- A manager of four nodes that have passed the check within the node groups. -/
def pairManager : GroupNodeManager :=
  (GroupNodeManager.init.setBase (RdzvManager.init.updateRdzvParams 4 4 30 1)).playRound (-1)
    (pairRound fun _ ↦ 1)

theorem pairRound_covers {s : NetworkCheckManager} {time : Int → ℚ}
    (completed : (s.gather pairJoins).base.completedNum 60 = .ok (some 4)) :
    (pairRound time).Covers s [0, 1, 2, 3] where
  joined := List.Subset.refl [0, 1, 2, 3]
  known := List.Subset.refl [0, 1, 2, 3]
  alive := fun _ ↦ rfl
  completed := completed
  reported := .refl _

theorem pairRound_inGroups (time : Int → ℚ) : (pairRound time).InGroups (· / 2) := by
  intro join hjoin
  rcases List.mem_map.mp hjoin with ⟨r, -, rfl⟩
  rfl

theorem pairRounds {time : Int → ℚ}
    (completed : ((pairManager.playRound 0 (pairRound time)).check.gather
      pairJoins).base.completedNum 60 = .ok (some 4)) :
    InterRounds [0, 1, 2, 3] (· / 2) 2 2 0 pairManager (pairRound time) (pairRound time) where
  equal := ⟨by decide, by decide, by decide⟩
  several := le_refl 2
  wide := le_refl 2
  distinct := by decide
  faulty := by decide
  phase := by decide +kernel
  passed := by decide +kernel
  idle := by decide +kernel
  free := by decide +kernel
  round1 := pairRound_covers (by decide +kernel)
  groups1 := pairRound_inGroups time
  round2 := pairRound_covers completed
  groups2 := pairRound_inGroups time

/-- Node 0 is told. -/
theorem interRounds_isolate_two : Isolates [0, 1, 2, 3] 0
    (pairManager.playRound 0 (pairRound fun _ ↦ 1))
    ((pairManager.playRound 0 (pairRound fun _ ↦ 1)).playRound 0 (pairRound fun _ ↦ 1)) := by
  apply interRounds_isolate (pairRounds (by decide +kernel))
  intro r _
  norm_num [pairRound, round3]

/-- The time of node 1 is 3600 when rounded to thousandths. -/
def slowTime (r : Int) : ℚ := if r = 1 then 17999998 / 5000 else 1

/-- With such a time nodes 0 and 2 meet again, and both are told. -/
theorem interRounds_confuse :
    ∃ (ranks : List Int) (group : Int → Int) (k size : Nat) (b : Int) (s : GroupNodeManager)
      (first second : CheckRound), InterRounds ranks group k size b s first second ∧
      (∀ r, first.time r < 3600 ∧ second.time r < 3600) ∧
      ¬Isolates ranks b (s.playRound b first) ((s.playRound b first).playRound b second) := by
  have told : ((pairManager.playRound 0 (pairRound slowTime)).playRound 0
      (pairRound slowTime)).check.failedRanks = [0, 2] := by
    decide +kernel
  refine ⟨[0, 1, 2, 3], (· / 2), 2, 2, 0, pairManager, pairRound slowTime, pairRound slowTime,
    pairRounds (by decide +kernel), ?_, ?_⟩
  · intro r
    have fast : slowTime r < 3600 := by
      rw [slowTime]
      split <;> norm_num
    exact ⟨fast, fast⟩
  · intro isolates
    have alone := isolates.told
    rw [told] at alone
    cases alone

end CheckRound

end ProbingBaselines.Dlrover
