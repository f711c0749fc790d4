import Mathlib.Data.Fintype.Prod
import Mathlib.Order.Bounds.Basic
import Mathlib.Order.Fin.Basic
import ProbingBaselines.Greyhound.GlobalAnalyzer

/-!
# Compute times of the model replicas

`group_comp_time_by_dp` (`detector/control_plane/mitigation_plan.py:19-48`) spreads the largest
latency of every pipeline group over its ranks, then that of every tensor group, and reads the
result off the data-parallel groups. A rank of a tensor by data by pipeline grid has the largest
latency of its model replica by then, and so every data-parallel group reads the same.
-/

namespace ProbingBaselines.Greyhound.ControlPlane

open Lib

/-! ### The three passes -/

namespace CommunicatorClique

def isPp (c : CommunicatorClique) : Bool := c.kind = .pp

def isTp (c : CommunicatorClique) : Bool :=
  match c.kind with
  | .tp _ => true
  | _ => false

def isDp (c : CommunicatorClique) : Bool :=
  match c.kind with
  | .dp _ => true
  | _ => false

end CommunicatorClique

/-- `PerformanceMetric(max_ts, max_ts, max_ts, 0)`. -/
def uniform (maxTs : ℚ) : PerformanceMetric := ⟨maxTs, maxTs, maxTs, 0⟩

/-- The largest latency of some ranks becomes that of each of them, `none` where a rank is missing
or there is none; `mitigation_plan.py:26-31`. -/
def syncRanks (compResults : Dict Nat PerformanceMetric) (ranks : List Nat) :
    Option (Dict Nat PerformanceMetric) :=
  (ranks.mapM fun i ↦ (compResults.get? i).map (·.avgLat)).bind fun ts ↦
    ts.max?.map fun maxTs ↦ ranks.foldl (fun d r ↦ d.insert r (uniform maxTs)) compResults

/-- A pass over the cliques of one kind; `mitigation_plan.py:24-31`, `:33-40`. -/
def syncPass (kind : CommunicatorClique → Bool) (cliques : List CommunicatorClique)
    (compResults : Dict Nat PerformanceMetric) : Option (Dict Nat PerformanceMetric) :=
  cliques.foldlM (fun results c ↦ if kind c then syncRanks results c.ranks else some results)
    compResults

/-- The results of the ranks of a data-parallel clique, by their places in it;
`mitigation_plan.py:45-46`. -/
def readClique (compResults : Dict Nat PerformanceMetric) (dpResults : Dict Nat PerformanceMetric)
    (ranks : List Nat) : Option (Dict Nat PerformanceMetric) :=
  ranks.zipIdx.foldlM (fun d e ↦ (compResults.get? e.1).map (d.insert e.2)) dpResults

/-- `group_comp_time_by_dp`, `none` where a lookup raises; `mitigation_plan.py:19-48`. -/
def groupCompTimeByDp (allCliques : Dict Nat CommunicatorClique)
    (compResults : Dict Nat PerformanceMetric) : Option (Dict Nat PerformanceMetric) :=
  (syncPass (·.isPp) allCliques.values compResults).bind fun compResults ↦
    (syncPass (·.isTp) allCliques.values compResults).bind fun compResults ↦
      allCliques.values.foldlM (fun dpResults c ↦
        if c.isDp then readClique compResults dpResults c.ranks else some dpResults) .empty

/-! ### The parallel grid -/

/-- A rank for every place of a grid; the order of the data-parallel places is that of the ranks in
every data-parallel group. -/
structure ParallelGrid (tp dp pp : Nat) where
  rank : Fin tp × Fin dp × Fin pp → Nat
  injective : Function.Injective rank
  ordered : ∀ t p, StrictMono fun d ↦ rank (t, d, p)
  tp_pos : 0 < tp
  dp_pos : 0 < dp
  pp_pos : 0 < pp

namespace ParallelGrid

variable {tp dp pp : Nat} (g : ParallelGrid tp dp pp)

def tpGroup (d : Fin dp) (p : Fin pp) : List Nat := List.ofFn fun t ↦ g.rank (t, d, p)

def dpGroup (t : Fin tp) (p : Fin pp) : List Nat := List.ofFn fun d ↦ g.rank (t, d, p)

def ppGroup (t : Fin tp) (d : Fin dp) : List Nat := List.ofFn fun p ↦ g.rank (t, d, p)

/-- Every group has a clique of its kind, and every clique of a kind is one of a group. -/
structure Covers (cliques : List CommunicatorClique) : Prop where
  tp : ∀ c ∈ cliques, c.isTp → ∃ d p, c.ranks.Perm (g.tpGroup d p)
  tp_all : ∀ d p, ∃ c ∈ cliques, c.isTp ∧ c.ranks.Perm (g.tpGroup d p)
  dp : ∀ c ∈ cliques, c.isDp → ∃ t p, c.ranks.Perm (g.dpGroup t p)
  dp_all : ∀ t p, ∃ c ∈ cliques, c.isDp ∧ c.ranks.Perm (g.dpGroup t p)
  pp : ∀ c ∈ cliques, c.isPp → ∃ t d, c.ranks.Perm (g.ppGroup t d)
  pp_all : ∀ t d, ∃ c ∈ cliques, c.isPp ∧ c.ranks.Perm (g.ppGroup t d)

end ParallelGrid

/-! ### Largest values of groups -/

section

variable {ι κ : Type} {rank : ι → Nat} {grp : ι → κ}

/-- The largest value among the elements of a group. -/
def Largest (grp : ι → κ) (v : ι → ℚ) (k : κ) (m : ℚ) : Prop :=
  IsGreatest (Set.image v {j | grp j = k}) m

/-- The ranks of a group. -/
def RanksOf (rank : ι → Nat) (grp : ι → κ) (k : κ) (ranks : List Nat) : Prop :=
  ∀ r, r ∈ ranks ↔ ∃ i, grp i = k ∧ rank i = r

theorem get?_foldl_insert (ranks : List Nat) (x : PerformanceMetric)
    (d : Dict Nat PerformanceMetric) (r : Nat) :
    (ranks.foldl (fun d r ↦ d.insert r x) d).get? r =
      if r ∈ ranks then some x else d.get? r := by
  induction ranks generalizing d with
  | nil => simp
  | cons a ranks ih =>
    rw [List.foldl_cons, ih, Dict.get?_insert]
    by_cases later : r ∈ ranks
    · simp [later]
    · simp [later, List.mem_cons]

/-- A group that is not empty gets its largest value, and the other ranks keep theirs. -/
theorem syncRanks_spec (inj : Function.Injective rank) {results : Dict Nat PerformanceMetric}
    {v : ι → ℚ} (known : ∀ i, (results.get? (rank i)).map (·.avgLat) = some (v i)) {k : κ}
    {ranks : List Nat} (group : RanksOf rank grp k ranks) (some : ∃ i, grp i = k) :
    ∃ m results', syncRanks results ranks = .some results' ∧ Largest grp v k m ∧
      ∀ i, (grp i = k → results'.get? (rank i) = .some (uniform m)) ∧
        (grp i ≠ k → results'.get? (rank i) = results.get? (rank i)) := by
  let value r := ((results.get? r).map (·.avgLat)).getD 0
  have read : (ranks.mapM fun r ↦ (results.get? r).map (·.avgLat)) = .some (ranks.map value) := by
    apply mapM_eq_map
    intro r mem
    obtain ⟨i, -, rfl⟩ := (group r).mp mem
    simp only [value, known, Option.getD_some]
  have members : ∀ x, x ∈ ranks.map value ↔ x ∈ Set.image v {j | grp j = k} := by
    intro x
    rw [List.mem_map]
    constructor
    · rintro ⟨r, mem, rfl⟩
      obtain ⟨i, hi, rfl⟩ := (group r).mp mem
      exact ⟨i, hi, by simp only [value, known, Option.getD_some]⟩
    · rintro ⟨i, hi, rfl⟩
      exact ⟨rank i, (group _).mpr ⟨i, hi, rfl⟩, by simp only [value, known, Option.getD_some]⟩
  obtain ⟨m, max⟩ : ∃ m, (ranks.map value).max? = .some m := by
    obtain ⟨i, hi⟩ := some
    apply Option.isSome_iff_exists.mp
    exact List.isSome_max?_of_mem ((members (v i)).mpr ⟨i, hi, rfl⟩)
  refine ⟨m, ranks.foldl (fun d r ↦ d.insert r (uniform m)) results, ?_, ?_, ?_⟩
  · rw [syncRanks, read, Option.bind_some, max]
    rfl
  · rw [List.max?_eq_some_iff] at max
    exact ⟨(members m).mp max.1, fun x hx ↦ max.2 x ((members x).mpr hx)⟩
  · intro i
    rw [get?_foldl_insert]
    constructor
    · intro hi
      rw [if_pos ((group _).mpr ⟨i, hi, rfl⟩)]
    · intro other
      rw [if_neg]
      intro mem
      obtain ⟨j, hj, same⟩ := (group _).mp mem
      exact other (inj same ▸ hj)

/-- The groups in `done` have their largest value everywhere, the others what they had. -/
structure Synced (rank : ι → Nat) (grp : ι → κ) (v : ι → ℚ) (done : Set κ)
    (results : Dict Nat PerformanceMetric) : Prop where
  reached : ∀ i, grp i ∈ done → ∃ m, results.get? (rank i) = some (uniform m) ∧
    Largest grp v (grp i) m
  left : ∀ i, grp i ∉ done → (results.get? (rank i)).map (·.avgLat) = some (v i)

/-- One clique; a group that has its largest value already keeps it. -/
theorem Synced.sync (inj : Function.Injective rank) {v : ι → ℚ} {done : Set κ}
    {results : Dict Nat PerformanceMetric} (h : Synced rank grp v done results) {i : ι}
    {ranks : List Nat} (group : RanksOf rank grp (grp i) ranks) :
    ∃ results', syncRanks results ranks = some results' ∧
      Synced rank grp v (insert (grp i) done) results' := by
  classical
  have values : ∀ j, ∃ x, (results.get? (rank j)).map (·.avgLat) = some x ∧
      (grp j ∈ done → Largest grp v (grp j) x) ∧ (grp j ∉ done → x = v j) := by
    intro j
    by_cases hj : grp j ∈ done
    · obtain ⟨m, found, largest⟩ := h.reached j hj
      exact ⟨m, by rw [found]; rfl, fun _ ↦ largest, fun other ↦ absurd hj other⟩
    · exact ⟨v j, h.left j hj, fun other ↦ absurd other hj, fun _ ↦ rfl⟩
  choose w known synced fresh using values
  obtain ⟨m, results', eq, largest, each⟩ := syncRanks_spec inj known group ⟨i, rfl⟩
  have whole : Largest grp v (grp i) m := by
    by_cases hi : grp i ∈ done
    · obtain ⟨j, hj, rfl⟩ := largest.1
      have top := synced j (by rw [hj]; exact hi)
      rwa [hj] at top
    · have same : Set.image w {j | grp j = grp i} = Set.image v {j | grp j = grp i} := by
        apply Set.image_congr
        intro j hj
        exact fresh j (by rw [hj]; exact hi)
      rwa [Largest, same] at largest
  refine ⟨results', eq, ?_, ?_⟩
  · intro j hj
    by_cases same : grp j = grp i
    · refine ⟨m, (each j).1 same, ?_⟩
      rw [same]
      exact whole
    · obtain ⟨x, found, top⟩ := h.reached j (Set.mem_of_mem_insert_of_ne hj same)
      exact ⟨x, ((each j).2 same).trans found, top⟩
  · intro j hj
    rw [Set.mem_insert_iff, not_or] at hj
    rw [(each j).2 hj.1]
    exact h.left j hj.2

/-- A pass over the cliques of a kind reaches all groups that have one. -/
theorem Synced.pass (inj : Function.Injective rank) {v : ι → ℚ}
    {kind : CommunicatorClique → Bool} {cliques : List CommunicatorClique}
    (groups : ∀ c ∈ cliques, kind c → ∃ i, RanksOf rank grp (grp i) c.ranks) {done : Set κ}
    {results : Dict Nat PerformanceMetric} (h : Synced rank grp v done results) :
    ∃ results', syncPass kind cliques results = some results' ∧ ∃ done' : Set κ, done ⊆ done' ∧
      (∀ c ∈ cliques, kind c → ∀ i, RanksOf rank grp (grp i) c.ranks → grp i ∈ done') ∧
      Synced rank grp v done' results' := by
  induction cliques generalizing done results with
  | nil => exact ⟨results, rfl, done, subset_rfl, by simp, h⟩
  | cons c cliques ih =>
    have rest := fun c' mem ↦ groups c' (List.mem_cons_of_mem c mem)
    by_cases ofKind : kind c
    · obtain ⟨i, group⟩ := groups c List.mem_cons_self ofKind
      obtain ⟨results₁, eq, synced⟩ := h.sync inj group
      obtain ⟨results', eq', done', sub, all, synced'⟩ := ih rest synced
      refine ⟨results', ?_, done', (Set.subset_insert _ _).trans sub, ?_, synced'⟩
      · rw [syncPass, List.foldlM_cons, if_pos ofKind, eq]
        exact eq'
      · intro c' mem ofKind' j group'
        rcases List.mem_cons.mp mem with rfl | mem
        · obtain ⟨i', hi', eq⟩ := (group (rank j)).mp ((group' (rank j)).mpr ⟨j, rfl, rfl⟩)
          rw [← inj eq, hi']
          exact sub (Set.mem_insert _ _)
        · exact all c' mem ofKind' j group'
    · obtain ⟨results', eq', done', sub, all, synced'⟩ := ih rest h
      refine ⟨results', ?_, done', sub, ?_, synced'⟩
      · rw [syncPass, List.foldlM_cons, if_neg ofKind]
        exact eq'
      · intro c' mem ofKind' j group'
        rcases List.mem_cons.mp mem with rfl | mem
        · exact absurd ofKind' ofKind
        · exact all c' mem ofKind' j group'

/-- After a pass over cliques of all groups every rank has the largest value of its group. -/
theorem syncPass_spec (grp : ι → κ) (kind : CommunicatorClique → Bool)
    (cliques : List CommunicatorClique) (inj : Function.Injective rank)
    {results : Dict Nat PerformanceMetric} {v : ι → ℚ}
    (known : ∀ i, (results.get? (rank i)).map (·.avgLat) = some (v i))
    (groups : ∀ c ∈ cliques, kind c → ∃ i, RanksOf rank grp (grp i) c.ranks)
    (all : ∀ i, ∃ c ∈ cliques, kind c ∧ RanksOf rank grp (grp i) c.ranks) :
    ∃ results', syncPass kind cliques results = some results' ∧
      ∀ i, ∃ m, results'.get? (rank i) = some (uniform m) ∧ Largest grp v (grp i) m := by
  have start : Synced rank grp v ∅ results := ⟨fun _ h ↦ absurd h (Set.notMem_empty _),
    fun i _ ↦ known i⟩
  obtain ⟨results', eq, done, -, reached, synced⟩ := start.pass inj groups
  refine ⟨results', eq, ?_⟩
  intro i
  obtain ⟨c, mem, ofKind, group⟩ := all i
  exact synced.reached i (reached c mem ofKind i group)

end

/-! ### Reading the data-parallel groups -/

/-- Reading a clique sets the places of its ranks. -/
theorem readClique_from {results : Dict Nat PerformanceMetric} {f : Nat → PerformanceMetric}
    {ranks : List Nat} (n : Nat) (known : ∀ i (h : i < ranks.length),
      results.get? ranks[i] = some (f (n + i))) (d : Dict Nat PerformanceMetric) :
    ∃ d', (ranks.zipIdx n).foldlM (fun d e ↦ (results.get? e.1).map (d.insert e.2)) d = some d' ∧
      ∀ k, d'.get? k = if n ≤ k ∧ k < n + ranks.length then some (f k) else d.get? k := by
  induction ranks generalizing n d with
  | nil =>
    refine ⟨d, rfl, ?_⟩
    intro k
    rw [if_neg]
    rw [List.length_nil]
    omega
  | cons r ranks ih =>
    have first : results.get? r = some (f n) := known 0 (Nat.zero_lt_succ _)
    have rest : ∀ i (h : i < ranks.length), results.get? ranks[i] = some (f (n + 1 + i)) := by
      intro i h
      have := known (i + 1) (Nat.succ_lt_succ h)
      rwa [List.getElem_cons_succ, Nat.add_comm i, ← Nat.add_assoc] at this
    obtain ⟨d', eq, each⟩ := ih (n + 1) rest (d.insert n (f n))
    refine ⟨d', ?_, ?_⟩
    · rw [List.zipIdx_cons, List.foldlM_cons, first]
      exact eq
    · intro k
      rw [each, Dict.get?_insert, List.length_cons]
      by_cases same : k = n
      · rw [if_neg (by omega), if_pos same, if_pos (by omega), same]
      · rw [if_neg same]
        congr 1
        apply propext
        omega

/-- What the data-parallel cliques read, when all groups have the same at a place. -/
theorem readAll_spec (f : Nat → PerformanceMetric) (n : Nat)
    {results : Dict Nat PerformanceMetric} {cliques : List CommunicatorClique}
    (groups : ∀ c ∈ cliques, c.isDp → c.ranks.length = n ∧
      ∀ i (h : i < c.ranks.length), results.get? c.ranks[i] = some (f i))
    (d : Dict Nat PerformanceMetric) :
    ∃ d', cliques.foldlM (fun d c ↦ if c.isDp then readClique results d c.ranks else some d) d =
        some d' ∧
      ∀ k, d'.get? k = if k < n ∧ ∃ c ∈ cliques, c.isDp then some (f k) else d.get? k := by
  induction cliques generalizing d with
  | nil => exact ⟨d, rfl, by simp⟩
  | cons c cliques ih =>
    have rest := fun c' mem ↦ groups c' (List.mem_cons_of_mem c mem)
    by_cases dp : c.isDp
    · obtain ⟨length, known⟩ := groups c List.mem_cons_self dp
      obtain ⟨d₁, eq, each⟩ := readClique_from 0 (f := f) (by simpa using known) d
      obtain ⟨d', eq', each'⟩ := ih rest d₁
      refine ⟨d', ?_, ?_⟩
      · rw [List.foldlM_cons, if_pos dp, readClique, eq]
        exact eq'
      · intro k
        rw [each', each, length, Nat.zero_add]
        by_cases lt : k < n
        · simp [lt, dp]
        · simp [lt]
    · obtain ⟨d', eq', each'⟩ := ih rest d
      refine ⟨d', ?_, ?_⟩
      · rw [List.foldlM_cons, if_neg dp]
        exact eq'
      · intro k
        simp [each', dp]

/-! ### The grid -/

namespace ParallelGrid

variable {tp dp pp : Nat} {g : ParallelGrid tp dp pp} {cliques : List CommunicatorClique}

/-- The kind of a clique is that of the first group that has its ranks. -/
theorem buildClique_kind {c : CommunicatorClique} {tps dps pps : List (List Nat)}
    (built : buildClique c.comms tps dps pps = some c) :
    (c.isPp ↔ c.ranks ∈ pps) ∧ (c.isTp ↔ c.ranks ∈ tps ∧ c.ranks ∉ pps) ∧
      (c.isDp ↔ c.ranks ∈ dps ∧ c.ranks ∉ pps ∧ c.ranks ∉ tps) := by
  simp only [buildClique, ← CommunicatorClique.ranks.eq_def] at built
  split at built
  · next mem =>
    have kind : c.kind = .pp := by rw [← Option.some.inj built]
    simp [CommunicatorClique.isPp, CommunicatorClique.isTp, CommunicatorClique.isDp, kind, mem]
  · next notPp =>
    split at built
    · next mem =>
      obtain ⟨stage, -, eq⟩ := Option.map_eq_some_iff.mp built
      have kind : c.kind = .tp stage := by rw [← eq]
      simp [CommunicatorClique.isPp, CommunicatorClique.isTp, CommunicatorClique.isDp, kind, mem,
        notPp]
    · next notTp =>
      split at built
      · next mem =>
        obtain ⟨stage, -, eq⟩ := Option.map_eq_some_iff.mp built
        have kind : c.kind = .dp stage := by rw [← eq]
        simp [CommunicatorClique.isPp, CommunicatorClique.isTp, CommunicatorClique.isDp, kind, mem,
          notPp, notTp]
      · next notDp =>
        have kind : c.kind = .special := by rw [← Option.some.inj built]
        simp [CommunicatorClique.isPp, CommunicatorClique.isTp, CommunicatorClique.isDp, kind,
          notPp, notTp, notDp]

/-- A clique of a tensor group has the ranks that share the two other coordinates. -/
theorem ranksOf_tpGroup {ranks : List Nat} {d : Fin dp} {p : Fin pp}
    (perm : ranks.Perm (g.tpGroup d p)) : RanksOf g.rank Prod.snd (d, p) ranks := by
  intro r
  rw [perm.mem_iff, tpGroup, List.mem_ofFn]
  constructor
  · rintro ⟨t, rfl⟩
    exact ⟨(t, d, p), rfl, rfl⟩
  · rintro ⟨⟨t, dp⟩, rfl, rfl⟩
    exact ⟨t, rfl⟩

theorem ranksOf_ppGroup {ranks : List Nat} {t : Fin tp} {d : Fin dp}
    (perm : ranks.Perm (g.ppGroup t d)) :
    RanksOf g.rank (fun i ↦ (i.1, i.2.1)) (t, d) ranks := by
  intro r
  rw [perm.mem_iff, ppGroup, List.mem_ofFn]
  constructor
  · rintro ⟨p, rfl⟩
    exact ⟨(t, d, p), rfl, rfl⟩
  · rintro ⟨⟨t', d', p⟩, eq, rfl⟩
    cases eq
    exact ⟨p, rfl⟩

/-- The ranks of a data-parallel clique stand in the order of the grid. -/
theorem ranks_dpGroup {c : CommunicatorClique} {t : Fin tp} {p : Fin pp}
    (perm : c.ranks.Perm (g.dpGroup t p)) : c.ranks = g.dpGroup t p := by
  apply List.Perm.eq_of_pairwise
  · intro a b _ _ h h'
    exact Nat.le_antisymm h h'
  · exact List.pairwise_insertionSort _ _
  · rw [dpGroup, List.pairwise_ofFn]
    intro i j lt
    exact (g.ordered t p lt).le
  · exact perm

/-- The largest of a tensor group's largest latencies of pipeline groups is the largest of the
replica. -/
theorem largest_replica {v w : Fin tp × Fin dp × Fin pp → ℚ}
    (stages : ∀ i, Largest (fun i ↦ (i.1, i.2.1)) v (i.1, i.2.1) (w i)) {d : Fin dp} {p : Fin pp}
    {m : ℚ} (top : Largest Prod.snd w (d, p) m) :
    IsGreatest (Set.image v {i | i.2.1 = d}) m := by
  constructor
  · obtain ⟨i, hi, rfl⟩ := top.1
    obtain ⟨j, hj, eq⟩ := (stages i).1
    refine ⟨j, ?_, eq⟩
    have same : j.2.1 = i.2.1 := (Prod.mk.inj hj).2
    rw [Set.mem_ofPred_eq, same]
    exact (Prod.mk.inj hi).1
  · rintro x ⟨⟨t, d', p'⟩, rfl, rfl⟩
    calc v (t, d', p') ≤ w (t, d', p) := (stages (t, d', p)).2 ⟨(t, d', p'), rfl, rfl⟩
      _ ≤ m := top.2 ⟨(t, d', p), rfl, rfl⟩

/-- After the two passes every rank has the largest latency of its replica. -/
theorem sync_replicas (covers : g.Covers cliques) {compResults : Dict Nat PerformanceMetric}
    {v : Fin tp × Fin dp × Fin pp → ℚ}
    (known : ∀ i, (compResults.get? (g.rank i)).map (·.avgLat) = some (v i)) :
    ∃ results₁ results₂, syncPass (·.isPp) cliques compResults = some results₁ ∧
      syncPass (·.isTp) cliques results₁ = some results₂ ∧
      ∀ i, ∃ m, results₂.get? (g.rank i) = some (uniform m) ∧
        IsGreatest (Set.image v {j | j.2.1 = i.2.1}) m := by
  obtain ⟨results₁, eq₁, stages⟩ := syncPass_spec (fun i ↦ (i.1, i.2.1)) (·.isPp) cliques
    g.injective known
    (by
      intro c mem ofKind
      obtain ⟨t, d, perm⟩ := covers.pp c mem ofKind
      exact ⟨(t, d, ⟨0, g.pp_pos⟩), ranksOf_ppGroup perm⟩)
    (by
      intro i
      obtain ⟨c, mem, ofKind, perm⟩ := covers.pp_all i.1 i.2.1
      exact ⟨c, mem, ofKind, ranksOf_ppGroup perm⟩)
  choose w found₁ largest₁ using stages
  have known₁ : ∀ i, (results₁.get? (g.rank i)).map (·.avgLat) = some (w i) := by
    intro i
    rw [found₁]
    rfl
  obtain ⟨results₂, eq₂, replicas⟩ := syncPass_spec Prod.snd (·.isTp) cliques g.injective known₁
    (by
      intro c mem ofKind
      obtain ⟨d, p, perm⟩ := covers.tp c mem ofKind
      exact ⟨(⟨0, g.tp_pos⟩, d, p), ranksOf_tpGroup perm⟩)
    (by
      intro i
      obtain ⟨c, mem, ofKind, perm⟩ := covers.tp_all i.2.1 i.2.2
      exact ⟨c, mem, ofKind, ranksOf_tpGroup perm⟩)
  refine ⟨results₁, results₂, eq₁, eq₂, ?_⟩
  intro i
  obtain ⟨m, found₂, largest₂⟩ := replicas i
  exact ⟨m, found₂, largest_replica largest₁ largest₂⟩

/-- The result has the largest latency of each replica and nothing else. -/
theorem groupCompTimeByDp_eq (g : ParallelGrid tp dp pp) {allCliques : Dict Nat CommunicatorClique}
    (covers : g.Covers allCliques.values) {compResults : Dict Nat PerformanceMetric}
    {v : Fin tp × Fin dp × Fin pp → ℚ}
    (known : ∀ i, (compResults.get? (g.rank i)).map (·.avgLat) = some (v i)) :
    ∃ results, groupCompTimeByDp allCliques compResults = some results ∧
      (∀ d : Fin dp, ∃ m, results.get? d = some (uniform m) ∧
        IsGreatest (Set.image v {i | i.2.1 = d}) m) ∧
      ∀ k, dp ≤ k → results.get? k = none := by
  obtain ⟨results₁, results₂, eq₁, eq₂, replicas⟩ := sync_replicas covers known
  choose u found largest using replicas
  let first (d : Fin dp) : Fin tp × Fin dp × Fin pp := (⟨0, g.tp_pos⟩, d, ⟨0, g.pp_pos⟩)
  let f k := uniform (if h : k < dp then u (first ⟨k, h⟩) else 0)
  have read : ∀ c ∈ allCliques.values, c.isDp → c.ranks.length = dp ∧
      ∀ i (h : i < c.ranks.length), results₂.get? c.ranks[i] = some (f i) := by
    intro c mem ofKind
    obtain ⟨t, p, perm⟩ := covers.dp c mem ofKind
    have ranks := ranks_dpGroup perm
    refine ⟨by rw [ranks, dpGroup, List.length_ofFn], ?_⟩
    intro i hi
    have lt : i < dp := by
      rw [ranks, dpGroup, List.length_ofFn] at hi
      exact hi
    have rank : c.ranks[i] = g.rank (t, ⟨i, lt⟩, p) := by
      simp only [ranks, dpGroup, List.getElem_ofFn]
    have same : u (t, ⟨i, lt⟩, p) = u (first ⟨i, lt⟩) :=
      (largest (t, ⟨i, lt⟩, p)).unique (largest (first ⟨i, lt⟩))
    rw [rank, found, same]
    simp only [f, dif_pos lt]
  obtain ⟨results, eq₃, each⟩ := readAll_spec f dp read .empty
  refine ⟨results, ?_, ?_, ?_⟩
  · rw [groupCompTimeByDp, eq₁, Option.bind_some, eq₂, Option.bind_some]
    exact eq₃
  · intro d
    refine ⟨u (first d), ?_, largest (first d)⟩
    obtain ⟨c, mem, ofKind, -⟩ := covers.dp_all ⟨0, g.tp_pos⟩ ⟨0, g.pp_pos⟩
    rw [each, if_pos ⟨d.isLt, c, mem, ofKind⟩]
    simp only [f, dif_pos d.isLt]
  · intro k le
    rw [each, if_neg (fun h ↦ absurd h.1 (not_lt.mpr le)), Dict.get?_eq_none_iff]
    exact Dict.not_mem_empty k

/-- The time of every model replica is the largest average latency over its ranks, in whatever order
the cliques come. -/
theorem groupCompTimeByDp_spec (g : ParallelGrid tp dp pp)
    {allCliques : Dict Nat CommunicatorClique} (covers : g.Covers allCliques.values)
    {compResults : Dict Nat PerformanceMetric} {v : Fin tp × Fin dp × Fin pp → ℚ}
    (known : ∀ i, (compResults.get? (g.rank i)).map (·.avgLat) = some (v i)) :
    ∃ results, groupCompTimeByDp allCliques compResults = some results ∧
      (∀ d : Fin dp, ∃ metric, results.get? d = some metric ∧
        IsGreatest (Set.image v {i | i.2.1 = d}) metric.avgLat) ∧
      (∀ k, dp ≤ k → k ∉ results) ∧
      ∀ allCliques' : Dict Nat CommunicatorClique, allCliques'.items.Perm allCliques.items →
        ∃ results', groupCompTimeByDp allCliques' compResults = some results' ∧
          ∀ k, results'.get? k = results.get? k := by
  obtain ⟨results, eq, times, none⟩ := groupCompTimeByDp_eq g covers known
  refine ⟨results, eq, ?_, ?_, ?_⟩
  · intro d
    obtain ⟨m, found, largest⟩ := times d
    exact ⟨uniform m, found, largest⟩
  · intro k le
    exact Dict.get?_eq_none_iff.mp (none k le)
  · intro allCliques' perm
    have members : ∀ c, c ∈ allCliques'.values ↔ c ∈ allCliques.values :=
      fun c ↦ (perm.map Prod.snd).mem_iff
    have covers' : g.Covers allCliques'.values := by
      constructor <;> simp only [members]
      · exact covers.tp
      · exact covers.tp_all
      · exact covers.dp
      · exact covers.dp_all
      · exact covers.pp
      · exact covers.pp_all
    obtain ⟨results', eq', times', none'⟩ := groupCompTimeByDp_eq g covers' known
    refine ⟨results', eq', ?_⟩
    intro k
    by_cases lt : k < dp
    · obtain ⟨m, found, largest⟩ := times ⟨k, lt⟩
      obtain ⟨m', found', largest'⟩ := times' ⟨k, lt⟩
      rw [found, found', largest.unique largest']
    · rw [none k (not_lt.mp lt), none' k (not_lt.mp lt)]

/-- The cliques that `build_clique` makes of the communicators of all groups cover the grid, when no
group of one kind is one of another. -/
theorem covers_of_buildClique {tps dps pps : List (List Nat)}
    (tp_mem : ∀ l, l ∈ tps ↔ ∃ d p, l = g.tpGroup d p)
    (dp_mem : ∀ l, l ∈ dps ↔ ∃ t p, l = g.dpGroup t p)
    (pp_mem : ∀ l, l ∈ pps ↔ ∃ t d, l = g.ppGroup t d)
    (tp_pp : ∀ l ∈ tps, l ∉ pps) (dp_pp : ∀ l ∈ dps, l ∉ pps) (dp_tp : ∀ l ∈ dps, l ∉ tps)
    (built : ∀ c ∈ cliques, buildClique c.comms tps dps pps = some c)
    (all : ∀ l, l ∈ tps ∨ l ∈ dps ∨ l ∈ pps → ∃ c ∈ cliques, c.ranks = l) :
    g.Covers cliques := by
  constructor
  · intro c mem ofKind
    obtain ⟨d, p, eq⟩ := (tp_mem _).mp (((buildClique_kind (built c mem)).2.1).mp ofKind).1
    exact ⟨d, p, .of_eq eq⟩
  · intro d p
    have known := (tp_mem _).mpr ⟨d, p, rfl⟩
    obtain ⟨c, mem, eq⟩ := all _ (.inl known)
    refine ⟨c, mem, (buildClique_kind (built c mem)).2.1.mpr ?_, .of_eq eq⟩
    rw [eq]
    exact ⟨known, tp_pp _ known⟩
  · intro c mem ofKind
    obtain ⟨t, p, eq⟩ := (dp_mem _).mp (((buildClique_kind (built c mem)).2.2).mp ofKind).1
    exact ⟨t, p, .of_eq eq⟩
  · intro t p
    have known := (dp_mem _).mpr ⟨t, p, rfl⟩
    obtain ⟨c, mem, eq⟩ := all _ (.inr (.inl known))
    refine ⟨c, mem, (buildClique_kind (built c mem)).2.2.mpr ?_, .of_eq eq⟩
    rw [eq]
    exact ⟨known, dp_pp _ known, dp_tp _ known⟩
  · intro c mem ofKind
    obtain ⟨t, d, eq⟩ := (pp_mem _).mp (((buildClique_kind (built c mem)).1).mp ofKind)
    exact ⟨t, d, .of_eq eq⟩
  · intro t d
    have known := (pp_mem _).mpr ⟨t, d, rfl⟩
    obtain ⟨c, mem, eq⟩ := all _ (.inr (.inr known))
    refine ⟨c, mem, (buildClique_kind (built c mem)).1.mpr ?_, .of_eq eq⟩
    rw [eq]
    exact known

/-- Two ranks by two by two, tensor-parallel ranks next to each other. -/
def ofEight : ParallelGrid 2 2 2 where
  rank i := i.1 + 2 * i.2.1 + 4 * i.2.2
  injective := by decide
  ordered := by decide
  tp_pos := by decide
  dp_pos := by decide
  pp_pos := by decide

/-- A clique of two ranks. -/
def pair (kind : CliqueKind) (a b : Nat) : CommunicatorClique :=
  ⟨[⟨0, 0, a, 0, []⟩, ⟨0, 0, b, 1, []⟩], kind⟩

def cliquesOfEight : List CommunicatorClique :=
  [pair (.tp 0) 0 1, pair (.tp 0) 2 3, pair (.tp 1) 4 5, pair (.tp 1) 6 7, pair (.dp 0) 0 2,
    pair (.dp 0) 1 3, pair (.dp 1) 4 6, pair (.dp 1) 5 7, pair .pp 0 4, pair .pp 1 5, pair .pp 2 6,
    pair .pp 3 7]

theorem groupCompTimeByDp_spec_ofEight :
    let allCliques := Dict.ofItems (cliquesOfEight.zipIdx.map Prod.swap)
    let compResults := Dict.ofItems ((List.range 8).map fun r : Nat ↦ (r, uniform (r + 1)))
    ∃ results, groupCompTimeByDp allCliques compResults = some results ∧
      (∀ d : Fin 2, ∃ metric, results.get? d = some metric ∧ IsGreatest
        (Set.image (fun i ↦ (ofEight.rank i : ℚ) + 1) {i | i.2.1 = d}) metric.avgLat) ∧
      (∀ k, 2 ≤ k → k ∉ results) ∧
      ∀ allCliques' : Dict Nat CommunicatorClique, allCliques'.items.Perm allCliques.items →
        ∃ results', groupCompTimeByDp allCliques' compResults = some results' ∧
          ∀ k, results'.get? k = results.get? k := by
  intro allCliques compResults
  apply ofEight.groupCompTimeByDp_spec
  · have values : allCliques.values = cliquesOfEight := by decide +kernel
    rw [values]
    constructor <;> decide +kernel
  · decide +kernel

end ParallelGrid

end ProbingBaselines.Greyhound.ControlPlane
