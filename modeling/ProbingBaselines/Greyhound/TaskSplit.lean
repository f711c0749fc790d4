import ProbingBaselines.Greyhound.ValidationTask

/-!
# The tasks of a ring cover its links

`split_ring` (`detector/control_plane/task_split.py:5-25`) has a formula for two ranks, one for an
even and one for an odd number. The links between neighbours of a list are those that leave the even
places and those that leave the odd ones, and a ring has one link more, from its last rank to its
first.
-/

namespace ProbingBaselines.Greyhound

/-- The directed links of a ring, from each rank to the next one. -/
def ringEdges (ring : List Nat) : List (Nat × Nat) :=
  List.ofFn fun i : Fin ring.length ↦
    (ring[i.val],
      getElem ring ((i.val + 1) % ring.length) (Nat.mod_lt _ (Nat.zero_lt_of_lt i.isLt)))

/-! ### Links of a list -/

/-- The pairs of neighbours in a list. -/
def links {α : Type} (xs : List α) : List (α × α) := xs.zip (xs.drop 1)

theorem links_cons_cons {α : Type} (x y : α) (xs : List α) :
    links (x :: y :: xs) = (x, y) :: links (y :: xs) := rfl

/-- The links from the even places and those from the odd ones. -/
theorem stride_links {α : Type} (xs : List α) :
    ((stride xs).zip (stride (xs.drop 1)) ++ (stride (xs.drop 1)).zip (stride (xs.drop 2))).Perm
      (links xs) := by
  match xs with
  | [] => exact .refl _
  | [x] => exact .refl _
  | [x, y] => exact .refl _
  | x :: y :: z :: xs =>
    have ih := stride_links (z :: xs)
    cases xs with
    | nil => exact .refl _
    | cons w xs =>
      simp only [stride, List.drop_succ_cons, List.drop_zero, List.zip_cons_cons, links_cons_cons,
        List.cons_append] at ih ⊢
      apply List.Perm.cons
      exact List.perm_middle.trans (ih.cons (y, z))

/-- The links of a ring are those of its list and the one that closes it. -/
theorem ringEdges_cons (a : Nat) (rest : List Nat) :
    ringEdges (a :: rest) = links (a :: rest ++ [a]) := by
  apply List.ext_getElem
  · simp [ringEdges, links]
  · intro i hi _
    have bound : i < rest.length + 1 := by simpa [ringEdges] using hi
    have first : getElem (a :: rest ++ [a]) i (by simp; omega) = (a :: rest)[i] :=
      List.getElem_append_left bound
    simp only [ringEdges, links, List.getElem_ofFn, List.getElem_zip, first, List.getElem_drop]
    congr 1
    by_cases last : i = rest.length
    · simp [last, Nat.add_comm 1]
    · have next : (i + 1) % (rest.length + 1) = i + 1 := Nat.mod_eq_of_lt (by omega)
      have inner : getElem (a :: rest ++ [a]) (1 + i) (by simp; omega) =
          getElem (a :: rest) (i + 1) (by simp; omega) := by
        rw [List.getElem_append_left (by simp; omega)]
        simp only [Nat.add_comm 1]
      rw [inner]
      simp only [List.length_cons, next]

/-- A `zip` ends with its shorter list. -/
theorem zip_concat_left {α β : Type} {xs : List α} {ys : List β} (a : α)
    (h : xs.length = ys.length) : (xs ++ [a]).zip ys = xs.zip ys := by
  rw [← List.append_nil ys, List.zip_append h, List.append_nil]
  simp

/-- The tasks of an even ring. -/
theorem evenTasks_pairs (a b : Nat) (rest : List Nat) (even : rest.length % 2 = 0) :
    ((stride (a :: b :: rest)).zip (stride (b :: rest)) ++
      (stride (b :: rest)).zip (stride rest ++ [a])).Perm (ringEdges (a :: b :: rest)) := by
  have ring : (a :: b :: rest).length % 2 = 0 := by
    simp only [List.length_cons]
    omega
  have tail : (b :: rest).length % 2 = 1 := by
    simp only [List.length_cons]
    omega
  have length : (stride (a :: b :: rest)).length = (stride (b :: rest)).length := by
    simp only [length_stride, List.length_cons]
    omega
  have split := stride_links (a :: b :: rest ++ [a])
  rw [List.cons_append, List.drop_succ_cons, List.drop_zero, stride_concat_odd _ a tail,
    List.cons_append, List.drop_succ_cons, List.drop_succ_cons, List.drop_zero,
    stride_concat rest a even, ← List.cons_append, ← List.cons_append, stride_concat _ a ring,
    zip_concat_left a length] at split
  rw [ringEdges_cons]
  exact split

/-- The tasks of an odd ring. -/
theorem oddTasks_pairs (a : Nat) (mid : List Nat) (z : Nat) (odd : mid.length % 2 = 1) :
    ((stride (a :: mid)).zip (stride (mid ++ [z])) ++
      ((stride (mid ++ [z])).zip (stride ((mid ++ [z]).drop 1)) ++ [(z, a)])).Perm
      (ringEdges (a :: mid ++ [z])) := by
  have even : (a :: mid).length % 2 = 0 := by
    simp only [List.length_cons]
    omega
  have length : (stride (a :: mid)).length = (stride (mid ++ [z])).length := by
    simp only [length_stride, List.length_cons, List.length_append, List.length_nil]
  have split := stride_links (a :: mid ++ [z])
  rw [stride_concat _ z even, List.cons_append, List.drop_succ_cons, List.drop_succ_cons,
    List.drop_zero, zip_concat_left z length] at split
  have closed : ringEdges (a :: mid ++ [z]) = links (a :: mid ++ [z]) ++ [(z, a)] := by
    rw [List.cons_append, ringEdges_cons]
    show (a :: (mid ++ [z]) ++ [a]).zip (mid ++ [z] ++ [a]) = _
    have shifted : (a :: (mid ++ [z])) = (a :: mid) ++ [z] := rfl
    rw [shifted, List.append_assoc, List.zip_append (by simp)]
    show (a :: mid).zip (mid ++ [z]) ++ [(z, a)] = ((a :: mid) ++ [z]).zip (mid ++ [z]) ++ [(z, a)]
    rw [zip_concat_left z (by simp)]
  rw [closed, ← List.append_assoc]
  exact split.append_right _

/-- The transfers of all tasks are those over the links. -/
theorem splitRing_pairs {ring : List Nat} (length : 2 ≤ ring.length) :
    ∃ tasks, splitRing ring = some tasks ∧
      (tasks.flatMap fun t ↦ t.senders.zip t.recvers).Perm (ringEdges ring) := by
  rcases ring_shape length with ⟨a, b, rest, rfl, even⟩ | ⟨a, mid, z, rfl, odd⟩
  · refine ⟨_, splitRing_even a b rest even, ?_⟩
    simpa using evenTasks_pairs a b rest even
  · refine ⟨_, splitRing_odd a mid z odd, ?_⟩
    simpa using oddTasks_pairs a mid z odd

/-- The tasks of a ring of distinct ranks send over every link once and name no rank twice. -/
theorem splitRing_schedules {ring : List Nat} (length : 2 ≤ ring.length) (nodup : ring.Nodup) :
    ∃ tasks, splitRing ring = some tasks ∧
      (tasks.flatMap fun t ↦ t.senders.zip t.recvers).Perm (ringEdges ring) ∧
      ∀ t ∈ tasks, t.senders.length = t.recvers.length ∧ (t.senders ++ t.recvers).Nodup := by
  obtain ⟨tasks, split, edges⟩ := splitRing_pairs length
  refine ⟨tasks, split, edges, ?_⟩
  intro t ht
  obtain ⟨paired, xs, perm, part⟩ := splitRing_part length split t ht
  exact ⟨paired, perm.nodup_iff.mpr (nodup.sublist part)⟩

theorem splitRing_schedules_five : ∃ tasks, splitRing [0, 3, 1, 4, 2] = some tasks ∧
    (tasks.flatMap fun t ↦ t.senders.zip t.recvers).Perm (ringEdges [0, 3, 1, 4, 2]) ∧
    ∀ t ∈ tasks, t.senders.length = t.recvers.length ∧ (t.senders ++ t.recvers).Nodup :=
  splitRing_schedules (by decide) (by decide)

end ProbingBaselines.Greyhound
