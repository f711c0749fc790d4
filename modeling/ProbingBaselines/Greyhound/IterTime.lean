import Mathlib.Algebra.Order.Field.Rat
import Mathlib.Data.List.Induction
import Mathlib.Tactic.Linarith
import ProbingBaselines.Lib.Binary64

/-!
# The stored iteration times

Every monitoring round of a local controller stores its iteration time under `cur_iter_time`
and, if it is below the stored minimum, under `min_iter_time`
(`detector/control_plane/local_controller.py:105-114`), for the mitigation planner to read both
(`detector/control_plane/mitigation_plan.py:132-144`). Estimates are in microseconds, stored
times in milliseconds, and the comparison is between the two units. Times are doubles, and the text
of one in Redis reads back as the same double.
-/

namespace ProbingBaselines.Greyhound

open Lib

/-- The estimated iteration times of a round, in microseconds: positive doubles, at least one. -/
structure Round where
  vals : List ℚ
  vals_ne : vals ≠ []
  vals_pos : ∀ v ∈ vals, 0 < v
  vals_double : ∀ v ∈ vals, roundDouble v = v

/-- `min(vals)`; `local_controller.py:106`. -/
def Round.minval (r : Round) : ℚ := r.vals.min r.vals_ne

theorem Round.minval_pos (r : Round) : 0 < r.minval :=
  r.vals_pos _ (List.min_mem r.vals_ne)

theorem Round.minval_double (r : Round) : roundDouble r.minval = r.minval :=
  r.vals_double _ (List.min_mem r.vals_ne)

/-- `minval/1000`, from microseconds to milliseconds. -/
def toMillis (minval : ℚ) : ℚ := roundDouble (minval / 1000)

theorem toMillis_mono {v w : ℚ} (nonneg : 0 ≤ v) (le : v ≤ w) : toMillis v ≤ toMillis w :=
  roundDouble_mono (by linarith) (by linarith)

/-- A double is at least its thousandth. -/
theorem toMillis_le {v : ℚ} (nonneg : 0 ≤ v) (double : roundDouble v = v) : toMillis v ≤ v := by
  have rounded := roundDouble_mono (x := v / 1000) (y := v) (by linarith) (by linarith)
  rwa [double] at rounded

theorem toMillis_thousand {n : ℕ} (bits : n < 2 ^ 53) : toMillis (1000 * n) = n := by
  rw [toMillis, mul_div_cancel_left₀ _ (by norm_num), roundDouble_natCast bits]

/-- The two keys in Redis. -/
structure IterTimes where
  minIterTime : Option ℚ
  curIterTime : Option ℚ

namespace IterTimes

/-- Neither key is set. -/
def fresh : IterTimes := ⟨none, none⟩

/-- `minval < cur_min`, with `float("inf")` for a missing key; `local_controller.py:107-113`. -/
def improves (minval : ℚ) : Option ℚ → Bool
  | none => true
  | some curMin => minval < curMin

/-- What a round stores; `local_controller.py:105-114`. -/
def report (s : IterTimes) (r : Round) : IterTimes where
  minIterTime := if improves r.minval s.minIterTime then some (toMillis r.minval) else s.minIterTime
  curIterTime := some (toMillis r.minval)

/-- The keys after each of a sequence of rounds. -/
def history (s : IterTimes) : List Round → List IterTimes
  | [] => []
  | r :: rs => s.report r :: history (s.report r) rs

/-- The stored minimum is that of the iteration times stored so far, and so at most the one
stored last. -/
def RightAfter (seen : List IterTimes) (last : IterTimes) : Prop :=
  last.minIterTime = ((seen ++ [last]).filterMap IterTimes.curIterTime).min? ∧
    ∀ m c, last.minIterTime = some m → last.curIterTime = some c → m ≤ c

/-- The stored minimum is right after every round. -/
def RunningMinimum (rounds : List Round) : Prop :=
  ∀ seen last rest, history fresh rounds = seen ++ last :: rest → RightAfter seen last

/-- A round of the given number of milliseconds. -/
def wholeRound (n : ℕ) (pos : 0 < n) (bits : 1000 * n < 2 ^ 53) : Round where
  vals := [1000 * n]
  vals_ne := List.cons_ne_nil _ _
  vals_pos v mem := by
    rw [List.mem_singleton.mp mem]
    positivity
  vals_double v mem := by
    rw [List.mem_singleton.mp mem]
    exact_mod_cast roundDouble_natCast bits

/-- A round of 2 ms and one of 1 ms leave the minimum at 2 ms. -/
theorem minIterTime_stale : ¬ ∀ rounds, RunningMinimum rounds := by
  intro h
  have two : toMillis (1000 * (2 : ℕ)) = (2 : ℕ) := toMillis_thousand (by norm_num)
  have one : toMillis (1000 * (1 : ℕ)) = (1 : ℕ) := toMillis_thousand (by norm_num)
  have as_late : ¬(1000 * (1 : ℕ) : ℚ) < (2 : ℕ) := by norm_num
  have stored : history fresh
      [wholeRound 2 (by decide) (by norm_num), wholeRound 1 (by decide) (by norm_num)] =
        [⟨some (2 : ℕ), some (2 : ℕ)⟩, ⟨some (2 : ℕ), some (1 : ℕ)⟩] := by
    simp only [history, report, fresh, improves, wholeRound, Round.minval, List.min_singleton, two,
      one, as_late, decide_false, Bool.false_eq_true, if_true, if_false]
  have right := h _ [_] _ [] stored
  exact absurd (right.2 _ _ rfl rfl) (by norm_num)

/-- In milliseconds a round is not faster than all before it, or in microseconds it is faster than
these were in milliseconds, so about a thousand times as fast. -/
def NotNear (seen : List Round) (r : Round) : Prop :=
  ∀ m, (seen.map Round.minval).min? = some m →
    toMillis m ≤ toMillis r.minval ∨ r.minval < toMillis m

/-- Every round that is faster than all before it is about a thousand times as fast. -/
def NoNearImprovement (rounds : List Round) : Prop :=
  ∀ seen r rest, rounds = seen ++ r :: rest → NotNear seen r

/-! ### Minima of growing lists -/

private theorem forall_split_concat {α : Type} {Q : List α → α → Prop} (l : List α) (x : α) :
    (∀ seen a rest, l ++ [x] = seen ++ a :: rest → Q seen a) ↔
      (∀ seen a rest, l = seen ++ a :: rest → Q seen a) ∧ Q l x := by
  constructor
  · intro h
    refine ⟨fun seen a rest he ↦ h seen a (rest ++ [x]) ?_, h l x [] rfl⟩
    rw [he, List.append_assoc, List.cons_append]
  · rintro ⟨h, hx⟩ seen a rest he
    rcases List.eq_nil_or_concat rest with rfl | ⟨rest, y, rfl⟩
    · obtain ⟨rfl, hy⟩ := List.append_inj' he rfl
      obtain rfl : x = a := (List.cons.inj hy).1
      exact hx
    · rw [List.concat_eq_append, ← List.cons_append, ← List.append_assoc] at he
      exact h seen a rest (List.append_inj' he rfl).1

private theorem min?_concat {xs : List ℚ} {m : ℚ} (h : xs.min? = some m) (x : ℚ) :
    (xs ++ [x]).min? = some (min m x) := by
  rw [List.min?_eq_some_iff] at h ⊢
  refine ⟨?_, fun b hb ↦ ?_⟩
  · cases min_choice m x with
    | inl hm => rw [hm]; exact List.mem_append_left _ h.1
    | inr hx => rw [hx]; exact List.mem_append_right _ List.mem_cons_self
  · rw [List.mem_append, List.mem_singleton] at hb
    cases hb with
    | inl hb => exact (min_le_left _ _).trans (h.2 b hb)
    | inr hb => rw [hb]; exact min_le_right _ _

private theorem min?_map_toMillis {xs : List ℚ} {m : ℚ} (nonneg : 0 ≤ m) (h : xs.min? = some m) :
    (xs.map toMillis).min? = some (toMillis m) := by
  rw [List.min?_eq_some_iff] at h ⊢
  refine ⟨List.mem_map_of_mem h.1, fun b hb ↦ ?_⟩
  obtain ⟨v, hv, rfl⟩ := List.mem_map.mp hb
  exact toMillis_mono nonneg (h.2 v hv)

/-! ### Rounds one at a time -/

private theorem history_append (s : IterTimes) (xs ys : List Round) :
    history s (xs ++ ys) = history s xs ++ history (xs.foldl report s) ys := by
  induction xs generalizing s with
  | nil => rfl
  | cons r rs ih => rw [List.cons_append, history, history, ih, List.cons_append, List.foldl_cons]

private theorem filterMap_history (s : IterTimes) (rounds : List Round) :
    (history s rounds).filterMap curIterTime = (rounds.map Round.minval).map toMillis := by
  induction rounds generalizing s with
  | nil => rfl
  | cons r rs ih => rw [history, List.map_cons, List.map_cons, ← ih (s.report r)]; rfl

/-- The last entry of the history is what the rounds leave in Redis. -/
private theorem history_concat (rounds : List Round) (r : Round) :
    history fresh (rounds ++ [r]) =
      history fresh rounds ++ [(rounds.foldl report fresh).report r] := by
  rw [history_append]
  rfl

/-- Where the stored minimum has been right so far, it is the fastest round's. -/
private theorem RunningMinimum.foldl_min {rounds : List Round} (h : RunningMinimum rounds) :
    (rounds.foldl report fresh).minIterTime =
      ((rounds.map Round.minval).map toMillis).min? := by
  rcases List.eq_nil_or_concat rounds with rfl | ⟨rs, r, rfl⟩
  · rfl
  · rw [List.concat_eq_append] at h ⊢
    have := (h _ _ _ (history_concat rs r)).1
    rw [← history_concat, filterMap_history] at this
    rw [List.foldl_append]
    exact this

/-- One more round keeps the minimum right iff it is no near improvement. -/
private theorem rightAfter_report_iff {rounds : List Round} (h : RunningMinimum rounds)
    (r : Round) :
    RightAfter (history fresh rounds) ((rounds.foldl report fresh).report r) ↔
      NotNear rounds r := by
  have hmin := h.foldl_min
  generalize rounds.foldl report fresh = s at hmin
  have hcur : (history fresh rounds ++ [s.report r]).filterMap curIterTime =
      (rounds.map Round.minval).map toMillis ++ [toMillis r.minval] := by
    rw [List.filterMap_append, filterMap_history]
    rfl
  rw [RightAfter, NotNear, hcur]
  cases hm : (rounds.map Round.minval).min? with
  | none =>
    have hnil : rounds.map Round.minval = [] := List.min?_eq_none_iff.mp hm
    rw [hnil] at hmin ⊢
    simp [report, hmin, improves]
  | some m =>
    obtain ⟨r', -, hr'⟩ := List.mem_map.mp (List.min?_mem hm)
    have pos : 0 < m := hr' ▸ r'.minval_pos
    have below : toMillis m ≤ m := toMillis_le pos.le (hr' ▸ r'.minval_double)
    rw [min?_map_toMillis pos.le hm] at hmin
    rw [min?_concat (min?_map_toMillis pos.le hm)]
    simp only [report, hmin, improves, decide_eq_true_eq, Option.some.injEq, forall_eq']
    split
    · next hlt =>
      have hle : toMillis r.minval ≤ toMillis m :=
        toMillis_mono r.minval_pos.le (hlt.le.trans below)
      refine iff_of_true ⟨by rw [min_eq_right hle], ?_⟩ (.inr hlt)
      intro x c hx hc
      rw [← Option.some.inj hx, ← hc]
    · next hge =>
      simp only [Option.some.injEq, hge, or_false]
      constructor
      · rintro ⟨-, hle⟩
        exact hle _ _ rfl rfl
      · intro hle
        refine ⟨(min_eq_left hle).symm, ?_⟩
        intro x c hx hc
        rw [← hx, ← hc]
        exact hle

/-- The stored minimum is right after every round iff every round that is faster than all
before it is about a thousand times as fast. -/
theorem runningMinimum_iff (rounds : List Round) :
    RunningMinimum rounds ↔ NoNearImprovement rounds := by
  induction rounds using List.reverseRecOn with
  | nil =>
    refine ⟨fun _ seen r rest he ↦ ?_, fun _ seen last rest he ↦ ?_⟩
    · simp at he
    · simp [history] at he
  | append_singleton rounds r ih =>
    rw [RunningMinimum, history_concat, forall_split_concat, NoNearImprovement,
      forall_split_concat]
    refine ⟨fun ⟨hrun, hlast⟩ ↦ ?_, fun ⟨hno, hlast⟩ ↦ ?_⟩
    · exact ⟨ih.mp hrun, (rightAfter_report_iff hrun r).mp hlast⟩
    · exact ⟨ih.mpr hno, (rightAfter_report_iff (ih.mpr hno) r).mpr hlast⟩

end IterTimes

end ProbingBaselines.Greyhound
