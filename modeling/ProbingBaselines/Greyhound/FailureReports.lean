import Mathlib.Data.Finset.Insert
import Mathlib.Data.List.Nodup
import ProbingBaselines.Lib.Decimal
import ProbingBaselines.Lib.Dict

/-!
# What a local controller reports

Source `detector/control_plane/local_controller.py`. Each round of the monitoring loop compares the
last event of every rank with the one of the round before and pushes the ranks that stopped and the
ranks that became slow to two lists in Redis. A slow rank is looked up in a set of texts, a stopped
one in the list itself, whose entries come back as bytes and never equal a text.
-/

namespace ProbingBaselines.Greyhound.ControlPlane

open Lib

/-- A text or a byte string of Python; the two are never equal. -/
inductive PyString where
  | str (text : String)
  | bytes (content : ByteArray)

instance decidableEqPyString : DecidableEq PyString
  | .str a, .str b => decidable_of_iff (a = b) ⟨congrArg PyString.str, PyString.str.inj⟩
  | .bytes a, .bytes b =>
    match ByteArray.decEq a b with
    | isTrue eq => isTrue (congrArg PyString.bytes eq)
    | isFalse ne => isFalse fun eq ↦ ne (PyString.bytes.inj eq)
  | .str _, .bytes _ => isFalse fun eq ↦ by cases eq
  | .bytes _, .str _ => isFalse fun eq ↦ by cases eq

/-- The state of the monitoring loop with the two lists in Redis. What the global controller
removes from `failslow_ranks` is kept here. -/
structure LocalController where
  prevEventIds : Dict Int Int
  reportedFailslowPoints : Finset String
  failstopRanks : List ByteArray
  failslowRanks : List ByteArray

/-- The start of the loop, `local_controller.py:66-70`. -/
def LocalController.start : LocalController := ⟨.empty, ∅, [], []⟩

/-- What a round sees, `local_controller.py:77-82,116`. The control state is `none` where an
exception ends the round after the reports. -/
structure MonitoringRound where
  curEventIds : Dict Int Int
  failslowEvents : Option (Dict Int (List Int))
  controlState : Option String

/-- The bytes that `rpush` stores for a rank. -/
def encode (rank : Int) : ByteArray := (toString rank).toUTF8

/-- `failslow_iter_id`, `local_controller.py:27`. -/
def failslowIterId (failslowRank id : Int) : String :=
  toString failslowRank ++ "_" ++ toString id

/-- The body of the loop of `report_failslow`, `local_controller.py:27-31`. -/
def reportPoint (s : LocalController) (failslowRank id : Int) : LocalController :=
  if failslowIterId failslowRank id ∈ s.reportedFailslowPoints then s
  else
    { s with
      reportedFailslowPoints := insert (failslowIterId failslowRank id) s.reportedFailslowPoints
      failslowRanks := s.failslowRanks ++ [encode failslowRank] }

/-- `report_failslow`, `local_controller.py:25-31`. -/
def reportFailslow (s : LocalController) (failslowRank : Int) (ids : List Int) :
    LocalController :=
  ids.foldl (fun s id ↦ reportPoint s failslowRank id) s

/-- `detect_failstop`, `local_controller.py:43-56`. -/
def detectFailstop (prevEventIds curEventIds : Dict Int Int) : List Int :=
  if prevEventIds.items.length = 0 then []
  else
    prevEventIds.keys.filter fun rank ↦
      rank ∉ curEventIds ∨ curEventIds.get? rank = prevEventIds.get? rank

/-- `lrange("failstop_ranks", 0, -1)`. -/
def lrangeFailstopRanks (s : LocalController) : List PyString := s.failstopRanks.map .bytes

/-- The body of the loop over the stopped ranks, `local_controller.py:85-89`. -/
def reportFailstop (s : LocalController) (stopRank : Int) : LocalController :=
  if PyString.str (toString stopRank) ∉ lrangeFailstopRanks s then
    { s with failstopRanks := s.failstopRanks ++ [encode stopRank] }
  else s

/-- `failed_slow`, `local_controller.py:96-99`. -/
def failedSlow (events : Dict Int (List Int)) : Bool := events.items.any fun e ↦ e.2.length ≠ 0

/-- Whether the round ends with a clear of the reported points, `local_controller.py:126-153`. -/
def MonitoringRound.clears (round : MonitoringRound) : Bool :=
  match round.failslowEvents, round.controlState with
  | some events, some currState => failedSlow events || currState = "1" || currState = "2"
  | _, _ => false

/-- The fail-stop part of a round, `local_controller.py:84-90`. -/
def handleFailstop (s : LocalController) (round : MonitoringRound) : LocalController :=
  { (detectFailstop s.prevEventIds round.curEventIds).foldl reportFailstop s with
    prevEventIds := round.curEventIds }

/-- The fail-slow part of a round, `local_controller.py:93-103`. -/
def handleFailslow (s : LocalController) (round : MonitoringRound) : LocalController :=
  match round.failslowEvents with
  | none => s
  | some events =>
    events.items.foldl (fun s e ↦ if e.2.length ≠ 0 then reportFailslow s e.1 e.2 else s) s

/-- One round of `run`, `local_controller.py:71-157`; `none` is a round in which no period is found
or the detection raises. -/
def monitor (s : LocalController) : Option MonitoringRound → LocalController
  | none => s
  | some round =>
    let s := handleFailslow (handleFailstop s round) round
    if round.clears then { s with reportedFailslowPoints := ∅ } else s

/-- The state after the rounds. -/
def afterRounds (rounds : List (Option MonitoringRound)) : LocalController :=
  rounds.foldl monitor .start

/-! ### What should be reported -/

/-- The maps of the last events that the rounds saw. -/
def eventMaps (rounds : List (Option MonitoringRound)) : List (Dict Int Int) :=
  rounds.filterMap (Option.map MonitoringRound.curEventIds)

/-- The rank is missing, or its last event is the one of the round before. -/
def Stopped (prev cur : Dict Int Int) (rank : Int) : Prop :=
  ∃ id, prev.get? rank = some id ∧ (rank ∉ cur ∨ cur.get? rank = some id)

/-- The rank stopped between the maps at two neighbouring positions. -/
def StoppedAt (maps : List (Dict Int Int)) (i : Nat) (rank : Int) : Prop :=
  ∃ prev cur, maps[i]? = some prev ∧ maps[i + 1]? = some cur ∧ Stopped prev cur rank

instance decidableStopped (prev cur : Dict Int Int) (rank : Int) :
    Decidable (Stopped prev cur rank) :=
  decidable_of_iff (prev.get? rank |>.any fun id ↦ rank ∉ cur ∨ cur.get? rank = some id) (by
    cases h : prev.get? rank <;> simp [Stopped, h])

/-- The ranks that stopped, one round after the other. -/
def detections (maps : List (Dict Int Int)) : List Int :=
  (maps.zip maps.tail).flatMap fun e ↦ e.1.keys.filter fun rank ↦ Stopped e.1 e.2 rank

/-- The change points of a round with their ranks. -/
def points : Option MonitoringRound → List (Int × Int)
  | none => []
  | some round =>
    (round.failslowEvents.getD .empty).items.flatMap fun e ↦ e.2.map (e.1, ·)

/-- Whether a round ends with a clear. -/
def clearsPoints (round : Option MonitoringRound) : Bool := round.any MonitoringRound.clears

/-- The stopped ranks are reported once each in the order of their first detection, and the slow
ranks once for each distinct change point between two clears. -/
structure ReportedOnce (rounds : List (Option MonitoringRound)) : Prop where
  failstop : (afterRounds rounds).failstopRanks =
    (detections (eventMaps rounds)).eraseDups.map encode
  failslow : ∀ before period rest, rounds = before ++ period ++ rest →
    before.getLast?.all clearsPoints → period.dropLast.all (!clearsPoints ·) →
    (afterRounds (before ++ period)).failslowRanks =
      (afterRounds before).failslowRanks ++
        (period.flatMap points).eraseDups.map fun p ↦ encode p.1

/-! ### The list of stopped ranks -/

/-- A text is never found among the bytes, so every detection is pushed. -/
theorem reportFailstop_eq (s : LocalController) (rank : Int) :
    reportFailstop s rank = { s with failstopRanks := s.failstopRanks ++ [encode rank] } := by
  refine if_pos fun mem ↦ ?_
  rcases List.mem_map.mp mem with ⟨content, -, same⟩
  cases same

theorem foldl_reportFailstop (s : LocalController) (ranks : List Int) :
    ranks.foldl reportFailstop s =
      { s with failstopRanks := s.failstopRanks ++ ranks.map encode } := by
  induction ranks generalizing s with
  | nil => simp
  | cons rank ranks ih => simp [reportFailstop_eq, ih]

/-- `detect_failstop` finds the ranks that stopped. -/
theorem detectFailstop_eq (prev cur : Dict Int Int) :
    detectFailstop prev cur = prev.keys.filter fun rank ↦ Stopped prev cur rank := by
  unfold detectFailstop
  split
  · next empty =>
    rw [Dict.eq_empty_of_items (List.length_eq_zero_iff.mp empty)]
    rfl
  · refine List.filter_congr fun rank mem ↦ decide_eq_decide.mpr ?_
    rcases Dict.mem_iff.mp mem with ⟨id, entry⟩
    rw [Stopped, Dict.get?_eq_some_iff.mpr entry]
    simp

theorem handleFailstop_eq (s : LocalController) (round : MonitoringRound) :
    handleFailstop s round =
      { s with
        prevEventIds := round.curEventIds
        failstopRanks := s.failstopRanks ++ (s.prevEventIds.keys.filter fun rank ↦
          Stopped s.prevEventIds round.curEventIds rank).map encode } := by
  rw [handleFailstop, foldl_reportFailstop, detectFailstop_eq]

/-! ### The list of slow ranks -/

/-- A round reports its change points one after the other. -/
theorem handleFailslow_eq (s : LocalController) (round : MonitoringRound) :
    handleFailslow s round =
      (points (some round)).foldl (fun s p ↦ reportPoint s p.1 p.2) s := by
  rcases round with ⟨curEventIds, events, controlState⟩
  cases events with
  | none => rfl
  | some events =>
    simp only [handleFailslow, points, Option.getD_some, List.foldl_flatMap]
    refine congrArg (fun f ↦ events.items.foldl f s) (funext fun s ↦ funext fun e ↦ ?_)
    rw [List.foldl_map]
    split
    · rfl
    · next none_slow =>
      rw [List.length_eq_zero_iff.mp (not_not.mp none_slow)]
      rfl

/-- Two points with one text are one point. -/
theorem failslowIterId_inj {rank id rank' id' : Int}
    (same : failslowIterId rank id = failslowIterId rank' id') : rank = rank' ∧ id = id' := by
  have texts := congrArg String.toList same
  simp only [failslowIterId, String.toList_append, List.append_assoc] at texts
  exact two_numbers_inj (c := '_') (by decide) (by decide) texts

/-- The list with its last element, of which only the first occurrence counts. -/
theorem eraseDups_concat {α : Type*} [BEq α] [LawfulBEq α] (l : List α) (a : α)
    [Decidable (a ∈ l)] :
    (l ++ [a]).eraseDups = if a ∈ l then l.eraseDups else l.eraseDups ++ [a] := by
  rw [List.eraseDups_append]
  split
  · next mem => simp [List.removeAll, mem]
  · next fresh => simp [List.removeAll, fresh, List.eraseDups_cons]

/-- The texts of the points seen since a clear, and one entry of the list for each distinct point
behind those that were there. -/
structure Kept (start : List ByteArray) (seen : List (Int × Int)) (s : LocalController) : Prop where
  reported : ∀ rank id, failslowIterId rank id ∈ s.reportedFailslowPoints ↔ (rank, id) ∈ seen
  received : s.failslowRanks = start ++ seen.eraseDups.map fun p ↦ encode p.1

theorem Kept.reportPoint {start : List ByteArray} {seen : List (Int × Int)} {s : LocalController}
    (kept : Kept start seen s) (rank id : Int) :
    Kept start (seen ++ [(rank, id)]) (reportPoint s rank id) := by
  unfold ControlPlane.reportPoint
  by_cases old : (rank, id) ∈ seen
  · rw [if_pos ((kept.reported rank id).mpr old)]
    refine ⟨fun rank' id' ↦ ?_, ?_⟩
    · rw [kept.reported, List.mem_append, List.mem_singleton]
      exact ⟨.inl, fun mem ↦ mem.elim (fun mem ↦ mem) fun same ↦ same ▸ old⟩
    · rw [eraseDups_concat, if_pos old]
      exact kept.received
  · rw [if_neg (mt (kept.reported rank id).mp old)]
    refine ⟨fun rank' id' ↦ ?_, ?_⟩
    · rw [Finset.mem_insert, kept.reported, List.mem_append, List.mem_singleton, or_comm]
      refine or_congr_right ⟨fun same ↦ ?_, fun same ↦ ?_⟩
      · exact Prod.ext_iff.mpr (failslowIterId_inj same)
      · cases same
        rfl
    · rw [eraseDups_concat, if_neg old, List.map_append, ← List.append_assoc, ← kept.received]
      rfl

theorem Kept.foldl {start : List ByteArray} {seen : List (Int × Int)} {s : LocalController}
    (kept : Kept start seen s) (new : List (Int × Int)) :
    Kept start (seen ++ new) (new.foldl (fun s p ↦ ControlPlane.reportPoint s p.1 p.2) s) := by
  induction new generalizing seen s with
  | nil => simpa using kept
  | cons p new ih =>
    rw [List.append_cons]
    exact ih (kept.reportPoint p.1 p.2)

/-- Reports of slow ranks touch neither the stopped ranks nor the last events. -/
theorem foldl_reportPoint_frame (s : LocalController) (new : List (Int × Int)) :
    (new.foldl (fun s p ↦ reportPoint s p.1 p.2) s).failstopRanks = s.failstopRanks ∧
      (new.foldl (fun s p ↦ reportPoint s p.1 p.2) s).prevEventIds = s.prevEventIds := by
  induction new generalizing s with
  | nil => exact ⟨rfl, rfl⟩
  | cons p new ih =>
    have one : (reportPoint s p.1 p.2).failstopRanks = s.failstopRanks ∧
        (reportPoint s p.1 p.2).prevEventIds = s.prevEventIds := by
      unfold reportPoint
      split <;> exact ⟨rfl, rfl⟩
    exact ⟨(ih _).1.trans one.1, (ih _).2.trans one.2⟩

/-! ### Runs -/

theorem afterRounds_concat (rounds : List (Option MonitoringRound))
    (round : Option MonitoringRound) :
    afterRounds (rounds ++ [round]) = monitor (afterRounds rounds) round :=
  List.foldl_concat ..

/-- The part of a round that concerns stopped ranks. -/
theorem monitor_failstop (s : LocalController) (round : MonitoringRound) :
    (monitor s (some round)).prevEventIds = round.curEventIds ∧
      (monitor s (some round)).failstopRanks = s.failstopRanks ++
        (s.prevEventIds.keys.filter fun rank ↦
          Stopped s.prevEventIds round.curEventIds rank).map encode := by
  have frame := foldl_reportPoint_frame (handleFailstop s round) (points (some round))
  rw [← handleFailslow_eq, handleFailstop_eq] at frame
  simp only [monitor, handleFailstop_eq]
  split <;> exact ⟨frame.2, frame.1⟩

/-- One more map adds the ranks that stopped between the last one and it. -/
theorem detections_concat (maps : List (Dict Int Int)) (cur : Dict Int Int) :
    detections (maps ++ [cur]) = detections maps ++
      ((maps.getLast?.getD .empty).keys.filter fun rank ↦
        Stopped (maps.getLast?.getD .empty) cur rank) := by
  induction maps with
  | nil => rfl
  | cons first maps ih =>
    cases maps with
    | nil => exact List.append_nil _
    | cons second maps =>
      rw [List.getLast?_cons_cons]
      simp only [detections, List.cons_append, List.tail_cons, List.zip_cons_cons,
        List.flatMap_cons, List.append_assoc] at ih ⊢
      rw [ih]

/-- Every detection so far is in the list, and the maps of the last round are kept. -/
theorem afterRounds_failstop (rounds : List (Option MonitoringRound)) :
    (afterRounds rounds).prevEventIds = (eventMaps rounds).getLast?.getD .empty ∧
      (afterRounds rounds).failstopRanks = (detections (eventMaps rounds)).map encode := by
  induction rounds using List.reverseRecOn with
  | nil => exact ⟨rfl, rfl⟩
  | append_singleton rounds round ih =>
    rw [afterRounds_concat]
    cases round with
    | none =>
      have same : eventMaps (rounds ++ [none]) = eventMaps rounds := by simp [eventMaps]
      rw [same]
      exact ih
    | some round =>
      have more : eventMaps (rounds ++ [some round]) =
          eventMaps rounds ++ [round.curEventIds] := by simp [eventMaps]
      rcases monitor_failstop (afterRounds rounds) round with ⟨prev_eq, list_eq⟩
      rw [more, prev_eq, list_eq, ih.1, ih.2, detections_concat, List.map_append,
        List.getLast?_concat]
      exact ⟨rfl, rfl⟩

/-- A round that goes on adds its points, and one that clears has added them before. -/
theorem Kept.monitor {start : List ByteArray} {seen : List (Int × Int)} {s : LocalController}
    (kept : Kept start seen s) (round : Option MonitoringRound) :
    (ControlPlane.monitor s round).failslowRanks =
        start ++ (seen ++ points round).eraseDups.map (fun p ↦ encode p.1) ∧
      (clearsPoints round = false →
        Kept start (seen ++ points round) (ControlPlane.monitor s round)) := by
  cases round with
  | none =>
    rw [points, List.append_nil]
    exact ⟨kept.received, fun _ ↦ kept⟩
  | some round =>
    have base : Kept start seen (handleFailstop s round) := by
      rw [handleFailstop_eq]
      exact ⟨kept.reported, kept.received⟩
    have added := base.foldl (points (some round))
    rw [← handleFailslow_eq] at added
    unfold ControlPlane.monitor
    constructor
    · dsimp only
      split <;> exact added.received
    · intro stays
      have stays : round.clears = false := stays
      simp only [stays, Bool.false_eq_true, if_false]
      exact added

/-- Rounds without a clear. -/
theorem Kept.rounds {start : List ByteArray} {seen : List (Int × Int)} {s : LocalController}
    (kept : Kept start seen s) {period : List (Option MonitoringRound)}
    (stays : period.all (!clearsPoints ·)) :
    Kept start (seen ++ period.flatMap points) (period.foldl ControlPlane.monitor s) := by
  induction period generalizing seen s with
  | nil => simpa using kept
  | cons round period ih =>
    rw [List.all_cons, Bool.and_eq_true, Bool.not_eq_true'] at stays
    rw [List.flatMap_cons, ← List.append_assoc]
    exact ih ((kept.monitor round).2 stays.1) stays.2

/-- After a clear nothing counts as reported. -/
theorem kept_of_cleared {before : List (Option MonitoringRound)}
    (cleared : before.getLast?.all clearsPoints) :
    Kept (afterRounds before).failslowRanks [] (afterRounds before) := by
  have empty : (afterRounds before).reportedFailslowPoints = ∅ := by
    rcases List.eq_nil_or_concat before with rfl | ⟨before, round, rfl⟩
    · rfl
    · rw [List.concat_eq_append, List.getLast?_concat, Option.all_some] at cleared
      rw [List.concat_eq_append, afterRounds_concat]
      cases round with
      | none => cases cleared
      | some round =>
        have clears : round.clears = true := cleared
        simp only [monitor, clears, if_true]
  refine ⟨fun rank id ↦ ?_, (List.append_nil _).symm⟩
  rw [empty]
  exact iff_of_false (Finset.notMem_empty _) List.not_mem_nil

/-- The slow ranks are always reported once for each distinct point of a period. -/
theorem failslowRanks_period {before period : List (Option MonitoringRound)}
    (cleared : before.getLast?.all clearsPoints)
    (stays : period.dropLast.all (!clearsPoints ·)) :
    (afterRounds (before ++ period)).failslowRanks =
      (afterRounds before).failslowRanks ++
        (period.flatMap points).eraseDups.map fun p ↦ encode p.1 := by
  have kept := kept_of_cleared cleared
  rcases List.eq_nil_or_concat period with rfl | ⟨period, round, rfl⟩
  · rw [List.append_nil]
    exact kept.received
  · rw [List.concat_eq_append] at stays ⊢
    rw [List.dropLast_concat] at stays
    have last := ((kept.rounds stays).monitor round).1
    rw [List.nil_append] at last
    rw [← List.append_assoc, afterRounds_concat, afterRounds, List.foldl_append,
      List.flatMap_append, List.flatMap_singleton]
    exact last

/-! ### The condition -/

theorem eraseDups_eq_self {α : Type*} [DecidableEq α] {l : List α} (nodup : l.Nodup) :
    l.eraseDups = l := by
  induction l using List.reverseRecOn with
  | nil => rfl
  | append_singleton l a ih =>
    rcases List.nodup_append.mp nodup with ⟨rest, -, fresh⟩
    rw [eraseDups_concat, if_neg fun mem ↦ fresh a mem a List.mem_cons_self rfl, ih rest]

theorem length_eraseDups_le {α : Type*} [DecidableEq α] (l : List α) :
    l.eraseDups.length ≤ l.length := by
  induction l using List.reverseRecOn with
  | nil => exact Nat.le_refl 0
  | append_singleton l a ih =>
    rw [eraseDups_concat]
    split
    · exact ih.trans (List.length_append ▸ Nat.le_add_right _ _)
    · rw [List.length_append, List.length_append]
      exact Nat.add_le_add_right ih _

/-- A list that loses nothing had no repetition. -/
theorem nodup_of_length_eraseDups {α : Type*} [DecidableEq α] {l : List α}
    (length_eq : l.length = l.eraseDups.length) : l.Nodup := by
  induction l using List.reverseRecOn with
  | nil => exact List.nodup_nil
  | append_singleton l a ih =>
    rw [eraseDups_concat, List.length_append, List.length_singleton] at length_eq
    split at length_eq
    · have le := length_eraseDups_le l
      omega
    · next fresh =>
      rw [List.length_append, List.length_singleton] at length_eq
      exact List.nodup_append_comm.mp
        (List.nodup_cons.mpr ⟨fresh, ih (Nat.succ.inj length_eq)⟩)

theorem mem_stopped {prev cur : Dict Int Int} {rank : Int} :
    (rank ∈ prev.keys.filter fun rank ↦ Stopped prev cur rank) ↔ Stopped prev cur rank := by
  rw [List.mem_filter, decide_eq_true_eq]
  refine ⟨And.right, fun stopped ↦ ⟨?_, stopped⟩⟩
  rcases stopped with ⟨id, entry, -⟩
  exact Dict.mem_of_mem_items (Dict.get?_eq_some_iff.mp entry)

theorem stoppedAt_iff {maps : List (Dict Int Int)} {i : Nat} {rank : Int} :
    StoppedAt maps i rank ↔
      ∃ e, (maps.zip maps.tail)[i]? = some e ∧
        rank ∈ e.1.keys.filter fun rank ↦ Stopped e.1 e.2 rank := by
  simp only [mem_stopped, List.getElem?_zip_eq_some, List.getElem?_tail]
  constructor
  · rintro ⟨prev, cur, prev_eq, cur_eq, stopped⟩
    exact ⟨(prev, cur), ⟨prev_eq, cur_eq⟩, stopped⟩
  · rintro ⟨e, ⟨prev_eq, cur_eq⟩, stopped⟩
    exact ⟨e.1, e.2, prev_eq, cur_eq, stopped⟩

/-- The detections are distinct just when no rank stops twice. -/
theorem nodup_detections_iff {maps : List (Dict Int Int)} :
    (detections maps).Nodup ↔
      ∀ rank i j, i < j → StoppedAt maps i rank → ¬StoppedAt maps j rank := by
  rw [detections, List.nodup_flatMap]
  constructor
  · rintro ⟨-, apart⟩ rank i j lt first second
    rcases stoppedAt_iff.mp first with ⟨e, e_eq, mem⟩
    rcases stoppedAt_iff.mp second with ⟨e', e'_eq, mem'⟩
    rcases List.getElem?_eq_some_iff.mp e_eq with ⟨hi, rfl⟩
    rcases List.getElem?_eq_some_iff.mp e'_eq with ⟨hj, rfl⟩
    exact List.pairwise_iff_getElem.mp apart i j hi hj lt mem mem'
  · intro once
    refine ⟨fun e _ ↦ e.1.keys_nodup.filter _, List.pairwise_iff_getElem.mpr ?_⟩
    intro i j hi hj lt rank mem mem'
    exact once rank i j lt (stoppedAt_iff.mpr ⟨_, List.getElem?_eq_getElem hi, mem⟩)
      (stoppedAt_iff.mpr ⟨_, List.getElem?_eq_getElem hj, mem'⟩)

/-- Failures are reported once just when no rank is seen to stop in two rounds. -/
theorem reportedOnce_iff (rounds : List (Option MonitoringRound)) :
    ReportedOnce rounds ↔ ∀ rank i j, i < j → StoppedAt (eventMaps rounds) i rank →
      ¬StoppedAt (eventMaps rounds) j rank := by
  rw [← nodup_detections_iff]
  constructor
  · intro reported
    have lists := (afterRounds_failstop rounds).2.symm.trans reported.failstop
    have lengths := congrArg List.length lists
    rw [List.length_map, List.length_map] at lengths
    exact nodup_of_length_eraseDups lengths
  · intro nodup
    refine ⟨?_, fun before period rest _ ↦ failslowRanks_period⟩
    rw [eraseDups_eq_self nodup]
    exact (afterRounds_failstop rounds).2

/-- A rank whose last event stays the same for three rounds is pushed twice. -/
theorem not_reportedOnce_stuck_rank :
    ¬ReportedOnce (List.replicate 3 (some ⟨Dict.ofItems [(0, 5)], none, none⟩)) := by
  intro reported
  have lengths := congrArg List.length reported.failstop
  revert lengths
  decide

end ProbingBaselines.Greyhound.ControlPlane
