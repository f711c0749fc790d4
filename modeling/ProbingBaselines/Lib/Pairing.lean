import Mathlib.Data.List.Induction
import Mathlib.Data.List.MinMax
import Mathlib.Data.List.Nodup
import Mathlib.Data.List.Sort

/-!
# Pairings of a list

General support: the elements of a list put into groups of two, neighbours with neighbours or the
two ends with each other, where an element left over joins the last group. Who shares a group is a
matter of positions only. Filters and stable sorts say where the positions come from.
-/

namespace ProbingBaselines.Lib

universe u

variable {α : Type u}

namespace Pairing

/-- `x` and `y` are in one of the groups. -/
def Together (groups : List (List α)) (x y : α) : Prop := ∃ group ∈ groups, x ∈ group ∧ y ∈ group

instance [DecidableEq α] (groups : List (List α)) (x y : α) : Decidable (Together groups x y) :=
  inferInstanceAs (Decidable (∃ group ∈ groups, x ∈ group ∧ y ∈ group))

theorem together_cons {group : List α} {groups : List (List α)} {x y : α} :
    Together (group :: groups) x y ↔ x ∈ group ∧ y ∈ group ∨ Together groups x y := by
  simp only [Together, List.mem_cons, exists_eq_or_imp]

/-- Whether two elements share a group of `front :: groups`, when `front` is apart from the
groups. -/
theorem together_front {front : List α} {groups : List (List α)}
    (apart : ∀ x ∈ front, x ∉ groups.flatten) {x y : α} :
    (x ∈ front → (Together (front :: groups) x y ↔ y ∈ front)) ∧
      (x ∉ front → (Together (front :: groups) x y ↔ Together groups x y)) := by
  rw [together_cons]
  constructor
  · intro hx
    constructor
    · rintro (⟨-, hy⟩ | ⟨group, mem, hx', -⟩)
      · exact hy
      · exact absurd (List.mem_flatten.mpr ⟨group, mem, hx'⟩) (apart x hx)
    · exact fun hy ↦ .inl ⟨hx, hy⟩
  · intro hx
    constructor
    · rintro (⟨hx', -⟩ | together)
      · exact absurd hx' hx
      · exact together
    · exact .inr

theorem together_symm {groups : List (List α)} {x y : α} :
    Together groups x y ↔ Together groups y x := by
  constructor <;> rintro ⟨group, mem, hx, hy⟩ <;> exact ⟨group, mem, hy, hx⟩

/-! ### Neighbours -/

/-- Each element with its neighbour. -/
def adjacent : List α → List (List α)
  | [] => []
  | [a] => [[a]]
  | [a, b, c] => [[a, b, c]]
  | a :: b :: rest => [a, b] :: adjacent rest

/-- The positions `i` and `j` of a list of length `n` are in one group of neighbours. -/
def Adjacent (n i j : Nat) : Prop := i / 2 = j / 2 ∨ n % 2 = 1 ∧ n ≤ i + 3 ∧ n ≤ j + 3

instance (n i j : Nat) : Decidable (Adjacent n i j) :=
  inferInstanceAs (Decidable (_ ∨ _))

theorem Adjacent.comm {n i j : Nat} : Adjacent n i j ↔ Adjacent n j i := by
  rw [Adjacent, Adjacent, eq_comm, and_comm (a := n ≤ i + 3)]

/-- The first two are neighbours of each other only. -/
theorem adjacent_front {n i : Nat} (j : Nat) (more : n ≠ 1) (hi : i < 2) :
    j < 2 ↔ Adjacent (n + 2) i j := by
  unfold Adjacent
  omega

theorem adjacent_add_two (n i j : Nat) : Adjacent (n + 2) (i + 2) (j + 2) ↔ Adjacent n i j := by
  refine or_congr ?_ (and_congr ?_ (and_congr ?_ ?_)) <;> omega

theorem adjacent_cons_cons {a b : α} {rest : List α} (more : rest.length ≠ 1) :
    adjacent (a :: b :: rest) = [a, b] :: adjacent rest := by
  match rest, more with
  | [], _ => rfl
  | _ :: _ :: _, _ => rfl

theorem flatten_adjacent (l : List α) : (adjacent l).flatten = l := by
  induction l using adjacent.induct with
  | case1 => rfl
  | case2 a => rfl
  | case3 a b c => rfl
  | case4 a b rest more ih =>
    have length : rest.length ≠ 1 := by
      intro one
      rcases List.length_eq_one_iff.mp one with ⟨c, rfl⟩
      exact more c rfl
    rw [adjacent_cons_cons length, List.flatten_cons, ih]
    rfl

theorem together_adjacent_getElem {l : List α} (nodup : l.Nodup) {i j : Nat} (hi : i < l.length)
    (hj : j < l.length) : Together (adjacent l) l[i] l[j] ↔ Adjacent l.length i j := by
  induction l using adjacent.induct generalizing i j with
  | case1 => simp at hi
  | case2 a =>
    have hi0 : i = 0 := by simpa using hi
    have hj0 : j = 0 := by simpa using hj
    subst hi0 hj0
    simp [adjacent, Together, Adjacent]
  | case3 a b c =>
    have left : Together (adjacent [a, b, c]) [a, b, c][i] [a, b, c][j] :=
      ⟨[a, b, c], List.mem_singleton.mpr rfl, List.getElem_mem hi, List.getElem_mem hj⟩
    refine iff_of_true left (.inr ?_)
    simp
  | case4 a b rest more ih =>
    have length : rest.length ≠ 1 := by
      intro one
      rcases List.length_eq_one_iff.mp one with ⟨c, rfl⟩
      exact more c rfl
    have parts := List.nodup_append'.mp (show ([a, b] ++ rest).Nodup from nodup)
    have apart : ∀ x ∈ [a, b], x ∉ (adjacent rest).flatten := by
      rw [flatten_adjacent]
      exact fun x hx hx' ↦ parts.2.2 hx hx'
    have front : ∀ k (hk : k < (a :: b :: rest).length),
        (a :: b :: rest)[k] ∈ [a, b] ↔ k < 2 := by
      intro k hk
      match k, hk with
      | 0, _ => simp
      | 1, _ => simp
      | k + 2, hk =>
        have inner : k < rest.length := by simpa using hk
        have mem : rest[k] ∈ rest := List.getElem_mem inner
        exact iff_of_false (fun hx ↦ parts.2.2 hx mem) (by omega)
    have hn : (a :: b :: rest).length = rest.length + 2 := by simp
    rw [adjacent_cons_cons length]
    by_cases hi2 : i < 2
    · rw [(together_front apart).1 ((front i hi).mpr hi2), front j hj, hn]
      exact adjacent_front j length hi2
    · by_cases hj2 : j < 2
      · rw [together_symm, (together_front apart).1 ((front j hj).mpr hj2), front i hi, hn,
          Adjacent.comm]
        exact adjacent_front i length hj2
      · rw [(together_front apart).2 (mt (front i hi).mp hi2)]
        rcases Nat.exists_eq_add_of_le' (Nat.le_of_not_lt hi2) with ⟨i, rfl⟩
        rcases Nat.exists_eq_add_of_le' (Nat.le_of_not_lt hj2) with ⟨j, rfl⟩
        have rest_iff := ih parts.2.1 (i := i) (j := j) (by simpa using hi) (by simpa using hj)
        simp only [List.getElem_cons_succ]
        rw [rest_iff, hn, adjacent_add_two]

theorem together_adjacent [DecidableEq α] {l : List α} (nodup : l.Nodup) {x y : α} (hx : x ∈ l)
    (hy : y ∈ l) :
    Together (adjacent l) x y ↔ Adjacent l.length (l.idxOf x) (l.idxOf y) := by
  have places := together_adjacent_getElem nodup (List.idxOf_lt_length_of_mem hx)
    (List.idxOf_lt_length_of_mem hy)
  rwa [List.getElem_idxOf, List.getElem_idxOf] at places

/-! ### Ends -/

/-- The first element with the last one, and so on inwards. -/
def ends : List α → List (List α)
  | [] => []
  | [a] => [[a]]
  | a :: b :: rest =>
    let mid := (b :: rest).dropLast
    let last := (b :: rest).getLast (List.cons_ne_nil b rest)
    if mid.length = 1 then [a :: last :: mid] else [a, last] :: ends mid
termination_by l => l.length

/-- The positions `i` and `j` of a list of length `n` are in one group of ends. -/
def Opposite (n i j : Nat) : Prop :=
  i = j ∨ i + j + 1 = n ∨
    n % 2 = 1 ∧ (n ≤ 2 * i + 3 ∧ 2 * i ≤ n + 1) ∧ (n ≤ 2 * j + 3 ∧ 2 * j ≤ n + 1)

instance (n i j : Nat) : Decidable (Opposite n i j) :=
  inferInstanceAs (Decidable (_ ∨ _))

theorem Opposite.comm {n i j : Nat} : Opposite n i j ↔ Opposite n j i := by
  rw [Opposite, Opposite, eq_comm, Nat.add_comm i, and_comm (a := n ≤ 2 * i + 3 ∧ _)]

/-- The two ends are opposite to each other only. -/
theorem opposite_ends {n i j : Nat} (more : n ≠ 1) (hi : i = 0 ∨ i = n + 1) (hj : j < n + 2) :
    j = 0 ∨ j = n + 1 ↔ Opposite (n + 2) i j := by
  unfold Opposite
  omega

theorem opposite_add_one (n i j : Nat) : Opposite (n + 2) (i + 1) (j + 1) ↔ Opposite n i j := by
  refine or_congr ?_ (or_congr ?_ (and_congr ?_ (and_congr ?_ ?_))) <;> omega

theorem ends_cons_append (a b : α) (mid : List α) :
    ends (a :: (mid ++ [b])) =
      if mid.length = 1 then [a :: b :: mid] else [a, b] :: ends mid := by
  cases mid with
  | nil => simp [ends]
  | cons c mid =>
    rw [List.cons_append, ends]
    simp only [← List.cons_append, List.dropLast_concat, List.getLast_concat]

theorem flatten_ends_perm (l : List α) : (ends l).flatten.Perm l := by
  induction l using List.bidirectionalRec with
  | nil => simp [ends]
  | singleton a => simp [ends]
  | cons_append a mid b ih =>
    have perm : (a :: b :: mid).Perm (a :: (mid ++ [b])) :=
      (List.perm_append_singleton b mid).symm.cons a
    rw [ends_cons_append]
    split
    · simpa using perm
    · rw [List.flatten_cons]
      exact ((ih.cons b).cons a).trans perm

theorem together_ends_getElem {l : List α} (nodup : l.Nodup) {i j : Nat} (hi : i < l.length)
    (hj : j < l.length) : Together (ends l) l[i] l[j] ↔ Opposite l.length i j := by
  induction l using List.bidirectionalRec generalizing i j with
  | nil => simp at hi
  | singleton a =>
    have hi0 : i = 0 := by simpa using hi
    have hj0 : j = 0 := by simpa using hj
    subst hi0 hj0
    simp [ends, Together, Opposite]
  | cons_append a mid b ih =>
    have hn : (a :: (mid ++ [b])).length = mid.length + 2 := by simp
    have perm : ([a, b] ++ mid).Perm (a :: (mid ++ [b])) :=
      (List.perm_append_singleton b mid).symm.cons a
    have parts := List.nodup_append'.mp (perm.nodup_iff.mpr nodup)
    have front : ∀ k (hk : k < (a :: (mid ++ [b])).length),
        (a :: (mid ++ [b]))[k] ∈ [a, b] ↔ k = 0 ∨ k = mid.length + 1 := by
      intro k hk
      rcases Nat.eq_zero_or_pos k with rfl | pos
      · simp
      · rcases Nat.exists_eq_add_of_le' pos with ⟨k, rfl⟩
        rw [List.getElem_cons_succ]
        by_cases inner : k < mid.length
        · rw [List.getElem_append_left inner]
          have mem : mid[k] ∈ mid := List.getElem_mem inner
          exact iff_of_false (fun hx ↦ parts.2.2 hx mem) (by omega)
        · have last : k = mid.length := by omega
          subst last
          simp
    rw [ends_cons_append]
    by_cases one : mid.length = 1
    · have all : ∀ k (hk : k < (a :: (mid ++ [b])).length),
          (a :: (mid ++ [b]))[k] ∈ a :: b :: mid := fun k hk ↦
        perm.mem_iff.mpr (List.getElem_mem hk)
      rw [if_pos one]
      refine iff_of_true ⟨_, List.mem_singleton.mpr rfl, all i hi, all j hj⟩ ?_
      rw [Opposite]
      omega
    · have apart : ∀ x ∈ [a, b], x ∉ (ends mid).flatten := by
        intro x hx hx'
        exact parts.2.2 hx ((flatten_ends_perm mid).mem_iff.mp hx')
      rw [if_neg one]
      by_cases hi2 : i = 0 ∨ i = mid.length + 1
      · rw [(together_front apart).1 ((front i hi).mpr hi2), front j hj, hn]
        exact opposite_ends one hi2 (hn ▸ hj)
      · by_cases hj2 : j = 0 ∨ j = mid.length + 1
        · rw [together_symm, (together_front apart).1 ((front j hj).mpr hj2), front i hi, hn,
            Opposite.comm]
          exact opposite_ends one hj2 (hn ▸ hi)
        · rw [(together_front apart).2 (mt (front i hi).mp hi2)]
          rcases Nat.exists_eq_add_of_le' (Nat.pos_of_ne_zero fun h ↦ hi2 (.inl h)) with ⟨i, rfl⟩
          rcases Nat.exists_eq_add_of_le' (Nat.pos_of_ne_zero fun h ↦ hj2 (.inl h)) with ⟨j, rfl⟩
          have inner_i : i < mid.length := by omega
          have inner_j : j < mid.length := by omega
          simp only [List.getElem_cons_succ, List.getElem_append_left inner_i,
            List.getElem_append_left inner_j]
          rw [ih parts.2.1 inner_i inner_j, hn, opposite_add_one]

theorem together_ends [DecidableEq α] {l : List α} (nodup : l.Nodup) {x y : α} (hx : x ∈ l)
    (hy : y ∈ l) : Together (ends l) x y ↔ Opposite l.length (l.idxOf x) (l.idxOf y) := by
  have places := together_ends_getElem nodup (List.idxOf_lt_length_of_mem hx)
    (List.idxOf_lt_length_of_mem hy)
  rwa [List.getElem_idxOf, List.getElem_idxOf] at places

/-- The elements `i` places from the two ends. -/
def mirrored (l : List α) (i : Nat) : Option (List α) := do
  let a ← l[i]?
  let b ← l[l.length - 1 - i]?
  return [a, b]

/-- The outermost pair comes first. -/
theorem filterMap_mirrored_cons_append (a b : α) {mid : List α} {n : Nat} (le : n ≤ mid.length) :
    (List.range (n + 1)).filterMap (mirrored (a :: (mid ++ [b]))) =
      [a, b] :: (List.range n).filterMap (mirrored mid) := by
  have length : (a :: (mid ++ [b])).length = mid.length + 2 := by simp
  have last : (a :: (mid ++ [b]))[mid.length + 1]? = some b := by simp
  have first : mirrored (a :: (mid ++ [b])) 0 = some [a, b] := by
    simp only [mirrored, length, Nat.add_one_sub_one, Nat.sub_zero, last,
      List.getElem?_cons_zero]
    rfl
  rw [List.range_succ_eq_map, List.filterMap_cons_some first, List.filterMap_map]
  congr 1
  apply List.filterMap_congr
  intro i hi
  have lt : i < mid.length := Nat.lt_of_lt_of_le (List.mem_range.mp hi) le
  have right : mid.length + 2 - 1 - (i + 1) = (mid.length - 1 - i) + 1 := by omega
  simp only [Function.comp_apply, mirrored, length, right, List.getElem?_cons_succ]
  rw [List.getElem?_append_left lt, List.getElem?_append_left (by omega)]

/-- The first element with the last one, and so on inwards; the middle of an odd list is alone. -/
def crossed (l : List α) : List (List α) :=
  (List.range (l.length / 2)).filterMap (mirrored l) ++
    if l.length % 2 = 1 then [l[l.length / 2]?.toList] else []

theorem crossed_nil : crossed ([] : List α) = [] := by simp [crossed]

theorem crossed_singleton (a : α) : crossed [a] = [[a]] := by simp [crossed]

theorem crossed_cons_append (a b : α) (mid : List α) :
    crossed (a :: (mid ++ [b])) = [a, b] :: crossed mid := by
  have length : (a :: (mid ++ [b])).length = mid.length + 2 := by simp
  have half : (mid.length + 2) / 2 = mid.length / 2 + 1 := by omega
  have odd : (mid.length + 2) % 2 = mid.length % 2 := by omega
  rw [crossed, length, half, odd, filterMap_mirrored_cons_append a b (Nat.div_le_self _ 2),
    List.cons_append, crossed, List.getElem?_cons_succ]
  split
  · next alone => rw [List.getElem?_append_left (by omega)]
  · rfl

theorem flatten_crossed_perm (l : List α) : (crossed l).flatten.Perm l := by
  induction l using List.bidirectionalRec with
  | nil => simp [crossed_nil]
  | singleton a => simp [crossed_singleton]
  | cons_append a mid b ih =>
    rw [crossed_cons_append, List.flatten_cons]
    exact ((ih.cons b).cons a).trans ((List.perm_append_singleton b mid).symm.cons a)

theorem ne_nil_of_mem_crossed {l group : List α} (mem : group ∈ crossed l) : group ≠ [] := by
  induction l using List.bidirectionalRec with
  | nil => simp [crossed_nil] at mem
  | singleton a =>
    rw [crossed_singleton, List.mem_singleton] at mem
    simp [mem]
  | cons_append a mid b ih =>
    rw [crossed_cons_append] at mem
    rcases List.mem_cons.mp mem with rfl | mem
    · simp
    · exact ih mem

/-- When the marked elements stand behind the others and are at most half of the list, no group
has two of them. -/
theorem eq_of_together_crossed {p : α → Bool} {l : List α}
    (up : l.Pairwise fun x y ↦ p x → p y) (few : 2 * l.countP p ≤ l.length) {x y : α}
    (px : p x) (py : p y) (together : Together (crossed l) x y) : x = y := by
  induction l using List.bidirectionalRec with
  | nil => simp [crossed_nil, Together] at together
  | singleton a =>
    simp only [crossed_singleton, Together, List.mem_singleton, exists_eq_left] at together
    rw [together.1, together.2]
  | cons_append a mid b ih =>
    have rest := List.pairwise_cons.mp up
    have last := List.pairwise_append.mp rest.2
    have hb : b ∈ mid ++ [b] := List.mem_concat_self
    have length : (a :: (mid ++ [b])).length = mid.length + 2 := by simp
    -- were the first one marked, all would be
    have first : ¬p a := by
      intro pa
      have all : (a :: (mid ++ [b])).countP p = (a :: (mid ++ [b])).length := by
        rw [List.countP_eq_length]
        intro z hz
        rcases List.mem_cons.mp hz with rfl | hz
        · exact pa
        · exact rest.1 z hz pa
      omega
    rw [crossed_cons_append, together_cons] at together
    rcases together with ⟨hx, hy⟩ | together
    · simp only [List.mem_cons, List.not_mem_nil, or_false] at hx hy
      rcases hx with rfl | rfl
      · exact absurd px first
      · rcases hy with rfl | rfl
        · exact absurd py first
        · rfl
    · have inner : x ∈ mid := by
        rcases together with ⟨group, mem, hx, -⟩
        exact (flatten_crossed_perm mid).mem_iff.mp (List.mem_flatten.mpr ⟨group, mem, hx⟩)
      have pb : p b := last.2.2 x inner b List.mem_cons_self px
      apply ih last.1 _ together
      have count : (a :: (mid ++ [b])).countP p = mid.countP p + 1 := by
        rw [List.countP_cons_of_neg first, List.countP_append, List.countP_cons_of_pos pb,
          List.countP_nil]
      omega

/-! ### Groups of one -/

/-- A group of one has no neighbour. -/
theorem eq_singleton_of_mem_adjacent {l : List α} {a : α} (mem : [a] ∈ adjacent l) : l = [a] := by
  induction l using adjacent.induct with
  | case1 => exact absurd mem List.not_mem_nil
  | case2 b => exact (List.mem_singleton.mp mem).symm
  | case3 b c d =>
    have eq : [a] = [b, c, d] := List.mem_singleton.mp mem
    cases eq
  | case4 b c rest more ih =>
    have length : rest.length ≠ 1 := by
      intro one
      rcases List.length_eq_one_iff.mp one with ⟨d, rfl⟩
      exact more d rfl
    rw [adjacent_cons_cons length] at mem
    rcases List.mem_cons.mp mem with eq | mem
    · cases eq
    · rw [ih mem] at length
      exact absurd rfl length

theorem eq_singleton_of_mem_ends {l : List α} {a : α} (mem : [a] ∈ ends l) : l = [a] := by
  induction l using List.bidirectionalRec with
  | nil =>
    rw [ends] at mem
    exact absurd mem List.not_mem_nil
  | singleton b =>
    rw [ends] at mem
    exact (List.mem_singleton.mp mem).symm
  | cons_append b mid c ih =>
    rw [ends_cons_append] at mem
    split at mem
    · have eq := List.mem_singleton.mp mem
      cases eq
    · next several =>
      rcases List.mem_cons.mp mem with eq | mem
      · cases eq
      · rw [ih mem] at several
        exact absurd rfl several

theorem ne_nil_of_mem_ends {l group : List α} (mem : group ∈ ends l) : group ≠ [] := by
  induction l using List.bidirectionalRec with
  | nil =>
    rw [ends] at mem
    exact absurd mem List.not_mem_nil
  | singleton b =>
    rw [ends] at mem
    rw [List.mem_singleton.mp mem]
    exact List.cons_ne_nil _ _
  | cons_append b mid c ih =>
    rw [ends_cons_append] at mem
    split at mem
    · rw [List.mem_singleton.mp mem]
      exact List.cons_ne_nil _ _
    · rcases List.mem_cons.mp mem with rfl | mem
      · exact List.cons_ne_nil _ _
      · exact ih mem

/-! ### Leftovers -/

/-- The elements left over join the last group, or are a group of their own. -/
def joinLast (groups : List (List α)) (rest : List α) : List (List α) :=
  match groups.getLast? with
  | some last => groups.dropLast ++ [last ++ rest]
  | none => [rest]

theorem joinLast_concat (groups : List (List α)) (last rest : List α) :
    joinLast (groups ++ [last]) rest = groups ++ [last ++ rest] := by
  simp only [joinLast, List.getLast?_concat, List.dropLast_concat]

theorem joinLast_append (front : List (List α)) {groups : List (List α)} (some : groups ≠ [])
    (rest : List α) : joinLast (front ++ groups) rest = front ++ joinLast groups rest := by
  cases groups using List.reverseRecOn with
  | nil => exact absurd rfl some
  | append_singleton groups last =>
    rw [joinLast_concat, ← List.append_assoc, joinLast_concat, List.append_assoc]

theorem flatten_joinLast (groups : List (List α)) (rest : List α) :
    (joinLast groups rest).flatten = groups.flatten ++ rest := by
  cases groups using List.reverseRecOn with
  | nil => exact List.append_nil rest
  | append_singleton groups last =>
    rw [joinLast_concat]
    simp

theorem Together.joinLast {groups : List (List α)} {x y : α} (h : Together groups x y)
    (rest : List α) : Together (joinLast groups rest) x y := by
  rcases h with ⟨group, mem, hx, hy⟩
  cases groups using List.reverseRecOn with
  | nil => exact absurd mem List.not_mem_nil
  | append_singleton groups last =>
    rw [joinLast_concat]
    rcases List.mem_append.mp mem with mem | mem
    · exact ⟨group, List.mem_append_left _ mem, hx, hy⟩
    · rw [List.mem_singleton.mp mem] at hx hy
      exact ⟨last ++ rest, List.mem_append_right _ (List.mem_singleton.mpr rfl),
        List.mem_append_left _ hx, List.mem_append_left _ hy⟩

/-- Groups of several are kept, a group of one joins the last. -/
def collect (groups : List (List α)) (group : List α) : List (List α) :=
  if 1 < group.length then groups ++ [group]
  else if group.length = 0 then groups
  else joinLast groups group

theorem flatten_collect (groups : List (List α)) (group : List α) :
    (collect groups group).flatten = groups.flatten ++ group := by
  unfold collect
  split
  · simp
  · split
    · next none => rw [List.length_eq_zero_iff.mp none, List.append_nil]
    · exact flatten_joinLast groups group

theorem flatten_foldl_collect (groups parts : List (List α)) :
    (parts.foldl collect groups).flatten = groups.flatten ++ parts.flatten := by
  induction parts generalizing groups with
  | nil => simp
  | cons part parts ih =>
    rw [List.foldl_cons, ih, flatten_collect, List.flatten_cons, List.append_assoc]

/-- Groups of several do not become smaller. -/
theorem foldl_collect_several {groups : List (List α)} (some : groups ≠ [])
    (several : ∀ group ∈ groups, 1 < group.length) (parts : List (List α)) :
    ∀ group ∈ parts.foldl collect groups, 1 < group.length := by
  induction parts generalizing groups with
  | nil => exact several
  | cons part parts ih =>
    rw [List.foldl_cons]
    unfold collect
    split
    · next two =>
      apply ih (List.append_ne_nil_of_left_ne_nil some _)
      intro group mem
      rcases List.mem_append.mp mem with mem | mem
      · exact several group mem
      · rw [List.mem_singleton.mp mem]
        exact two
    · split
      · exact ih some several
      · cases groups using List.reverseRecOn with
        | nil => exact absurd rfl some
        | append_singleton groups last =>
          rw [joinLast_concat]
          apply ih (List.append_ne_nil_of_right_ne_nil _ (List.cons_ne_nil _ _))
          intro group mem
          rcases List.mem_append.mp mem with mem | mem
          · exact several group (List.mem_append_left _ mem)
          · have two := several last (List.mem_append_right _ (List.mem_singleton.mpr rfl))
            rw [List.mem_singleton.mp mem, List.length_append]
            omega

/-- Parts of at most one element all end up in one group. -/
theorem foldl_collect_thin {parts : List (List α)} (thin : ∀ part ∈ parts, part.length ≤ 1) :
    parts.foldl collect [] = [] ∧ parts.flatten = [] ∨
      parts.foldl collect [] = [parts.flatten] := by
  induction parts using List.reverseRecOn with
  | nil => exact .inl ⟨rfl, rfl⟩
  | append_singleton parts part ih =>
    have one := thin part (List.mem_append_right _ (List.mem_singleton.mpr rfl))
    have front := ih fun part' mem ↦ thin part' (List.mem_append_left _ mem)
    rw [List.foldl_append, List.foldl_cons, List.foldl_nil, List.flatten_append,
      List.flatten_singleton, collect, if_neg (Nat.not_lt.mpr one)]
    split
    · next none =>
      rw [List.length_eq_zero_iff.mp none, List.append_nil]
      exact front
    · right
      rcases front with ⟨groups, empty⟩ | groups
      · rw [groups, empty]
        rfl
      · rw [groups]
        rfl

end Pairing

/-! ### Filters -/

/-- A filter keeps the order. -/
theorem idxOf_lt_of_filter [DecidableEq α] {l : List α} (nodup : l.Nodup) {p : α → Bool} {x y : α}
    (hx : x ∈ l.filter p) (hy : y ∈ l.filter p)
    (lt : (l.filter p).idxOf x < (l.filter p).idxOf y) : l.idxOf x < l.idxOf y := by
  have ordered : l.Pairwise fun x y ↦ l.idxOf x < l.idxOf y := by
    rw [List.pairwise_iff_getElem]
    intro i j hi hj lt
    rwa [List.Nodup.idxOf_getElem nodup, List.Nodup.idxOf_getElem nodup]
  have places := List.pairwise_iff_getElem.mp (ordered.sublist List.filter_sublist) _ _
    (List.idxOf_lt_length_of_mem hx) (List.idxOf_lt_length_of_mem hy) lt
  rwa [List.getElem_idxOf, List.getElem_idxOf] at places

/-- The only element of a list with a property. -/
theorem filter_eq_singleton {l : List α} (nodup : l.Nodup) {p : α → Bool} {b : α} (hb : b ∈ l)
    (holds : p b = true) : l.filter p = [b] ↔ ∀ r ∈ l, r ≠ b → p r = false := by
  have mem : b ∈ l.filter p := List.mem_filter.mpr ⟨hb, holds⟩
  constructor
  · intro single r hr ne
    by_contra pr
    have other : r ∈ l.filter p := List.mem_filter.mpr ⟨hr, by simpa using pr⟩
    rw [single, List.mem_singleton] at other
    exact ne other
  · intro others
    have unique : (l.filter p).Perm [b] := by
      rw [List.perm_ext_iff_of_nodup (nodup.filter p) (List.nodup_singleton b)]
      intro r
      rw [List.mem_singleton]
      constructor
      · intro hr
        rw [List.mem_filter] at hr
        by_contra ne
        rw [others r hr.1 ne] at hr
        exact absurd hr.2 (by decide)
      · rintro rfl
        exact mem
    exact List.perm_singleton.mp unique

/-! ### Stable sorting -/

section Stable

variable {β : Type u} [LinearOrder β] {key : α → β} {top : β}

theorem orderedInsert_append_of_lt {a : α} (ha : key a < top) (low : List α) {high : List α}
    (tops : ∀ b ∈ high, key b = top) :
    (low ++ high).orderedInsert (fun a b ↦ key a ≤ key b) a =
      low.orderedInsert (fun a b ↦ key a ≤ key b) a ++ high := by
  induction low with
  | nil =>
    cases high with
    | nil => rfl
    | cons b high =>
      have le : key a ≤ key b := by
        rw [tops b List.mem_cons_self]
        exact le_of_lt ha
      simp [le]
  | cons b low ih =>
    by_cases le : key a ≤ key b
    · simp [le]
    · simp [le, ih]

theorem orderedInsert_append_of_eq {a : α} (ha : key a = top) {low high : List α}
    (lows : ∀ b ∈ low, key b < top) (tops : ∀ b ∈ high, key b = top) :
    (low ++ high).orderedInsert (fun a b ↦ key a ≤ key b) a = low ++ a :: high := by
  induction low with
  | nil =>
    cases high with
    | nil => rfl
    | cons b high =>
      have le : key a ≤ key b := by rw [tops b List.mem_cons_self, ha]
      simp [le]
  | cons b low ih =>
    have not_le : ¬key a ≤ key b := by
      rw [ha, not_le]
      exact lows b List.mem_cons_self
    have rest := ih fun b hb ↦ lows b (List.mem_cons_of_mem _ hb)
    simp only [List.cons_append, List.orderedInsert, not_le, if_false, rest]

/-- The elements with the greatest key come last, in their order. -/
theorem insertionSort_top {l : List α} (le : ∀ a ∈ l, key a ≤ top) :
    l.insertionSort (fun a b ↦ key a ≤ key b) =
      (l.filter fun a ↦ key a < top).insertionSort (fun a b ↦ key a ≤ key b) ++
        l.filter fun a ↦ key a = top := by
  induction l with
  | nil => rfl
  | cons a l ih =>
    have rest := ih fun b hb ↦ le b (List.mem_cons_of_mem _ hb)
    have tops : ∀ b ∈ l.filter fun a ↦ key a = top, key b = top := by
      intro b hb
      simpa using (List.mem_filter.mp hb).2
    rw [List.insertionSort_cons, rest]
    rcases lt_or_eq_of_le (le a List.mem_cons_self) with low | eq
    · rw [orderedInsert_append_of_lt low _ tops]
      simp [low, ne_of_lt low]
    · have lows : ∀ b ∈ (l.filter fun a ↦ key a < top).insertionSort (fun a b ↦ key a ≤ key b),
          key b < top := by
        intro b hb
        simpa using (List.mem_filter.mp ((List.mem_insertionSort _).mp hb)).2
      rw [orderedInsert_append_of_eq eq lows tops]
      simp [eq]

/-- The only element with the greatest key is the last one. -/
theorem getLast?_insertionSort_top [DecidableEq α] {l : List α} (nodup : l.Nodup) {a : α}
    (mem : a ∈ l) (eq : key a = top) (low : ∀ b ∈ l, b ≠ a → key b < top) :
    (l.insertionSort fun a b ↦ key a ≤ key b).getLast? = some a := by
  have le : ∀ b ∈ l, key b ≤ top := by
    intro b hb
    by_cases same : b = a
    · rw [same, eq]
    · exact le_of_lt (low b hb same)
  have single : (l.filter fun b ↦ key b = top) = [a] := by
    rw [filter_eq_singleton nodup mem (decide_eq_true eq)]
    intro b hb ne
    exact decide_eq_false (ne_of_lt (low b hb ne))
  rw [insertionSort_top le, single, List.getLast?_concat]

/-- The first element of a stable sort is the first of the least ones. -/
theorem head?_insertionSort (key : α → β) (l : List α) :
    (l.insertionSort fun a b ↦ key a ≤ key b).head? = l.argmin key := by
  induction l with
  | nil => rfl
  | cons a l ih =>
    rw [List.insertionSort_cons, List.argmin_cons]
    cases sorted : l.insertionSort fun a b ↦ key a ≤ key b with
    | nil =>
      rw [sorted] at ih
      rw [← ih]
      rfl
    | cons b rest =>
      rw [sorted, List.head?_cons] at ih
      rw [← ih]
      by_cases le : key a ≤ key b
      · simp [le, le.not_gt]
      · simp [le, not_le.mp le]

end Stable

end ProbingBaselines.Lib
