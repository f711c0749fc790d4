import Mathlib.Algebra.Order.Field.Rat
import Mathlib.Data.List.Dedup
import Mathlib.Data.List.Sort
import ProbingBaselines.Greyhound.GlobalTopo
import ProbingBaselines.Lib.Binary64
import ProbingBaselines.Lib.MapM

/-!
# Slow cliques

The communicators of one id hash are a clique, with a tag for its place in the parallel grid, and
`find_slow_clique` (`detector/control_plane/global_analyzer.py:167-224`) returns the cliques that
are much slower than those of the same tag. Latencies are doubles.
-/

namespace ProbingBaselines.Greyhound.ControlPlane

open Lib

/-- `global_analyzer.py:10-15`. -/
structure PerformanceMetric where
  minLat : ℚ
  maxLat : ℚ
  avgLat : ℚ
  stdLat : ℚ
  deriving DecidableEq

/-- The flags and the pipeline stage that `build_clique` gives a clique;
`global_analyzer.py:77-92`. -/
inductive CliqueKind where
  | special
  | tp (ppStage : Nat)
  | dp (ppStage : Nat)
  | pp
  deriving DecidableEq

/-- `global_analyzer.py:29-38`. -/
structure CommunicatorClique where
  comms : List Communicator
  kind : CliqueKind
  deriving DecidableEq

namespace CommunicatorClique

/-- The global ranks in order; `global_analyzer.py:33`. -/
def ranks (c : CommunicatorClique) : List Nat :=
  (c.comms.map (·.globalRank)).insertionSort (· ≤ ·)

/-- `global_analyzer.py:44-54`. -/
def tag (c : CommunicatorClique) : String :=
  match c.kind with
  | .special => "special_" ++ toString c.ranks
  | .pp => "pp"
  | .dp stage => "ppstage" ++ toString stage ++ "_dp"
  | .tp stage => "ppstage" ++ toString stage ++ "_tp"

end CommunicatorClique

/-- `find_ppstage`, `none` where its assertion fails; `global_analyzer.py:67-74`. -/
def findPpStage (pp : List (List Nat)) (rank : Nat) : Option Nat :=
  (pp.find? fun group ↦ rank ∈ group).map (·.idxOf rank)

/-- `build_clique`; `global_analyzer.py:66-92`. -/
def buildClique (comms : List Communicator) (tp dp pp : List (List Nat)) :
    Option CommunicatorClique :=
  let commRanks := (comms.map (·.globalRank)).insertionSort (· ≤ ·)
  if commRanks ∈ pp then some ⟨comms, .pp⟩
  else if commRanks ∈ tp then
    (commRanks.head?.bind (findPpStage pp)).map fun stage ↦ ⟨comms, .tp stage⟩
  else if commRanks ∈ dp then
    (commRanks.head?.bind (findPpStage pp)).map fun stage ↦ ⟨comms, .dp stage⟩
  else some ⟨comms, .special⟩

/-- The two values in the middle of a list that is not empty; of an odd number they are the same. -/
def middles (xs : List ℚ) : ℚ × ℚ :=
  let sorted := xs.insertionSort (· ≤ ·)
  (sorted.getD ((xs.length - 1) / 2) 0, sorted.getD (xs.length / 2) 0)

/-- `np.median` of a list of doubles that is not empty: the middle one, or the mean of two. -/
def medianDouble (xs : List ℚ) : Double :=
  let (low, high) := middles xs
  if xs.length % 2 = 1 then .finite high else (Double.round (low + high)).div (.finite 2)

/-- `t >= 1.2 * median_time`; `global_analyzer.py:220`. -/
def atLeastSlow (medianTime : Double) (t : ℚ) : Bool :=
  (Double.finite (roundDouble (6 / 5))).mul medianTime ≤ .finite t

/-- An entry of `group_perf`, under its tag; `global_analyzer.py:184-191`. -/
structure PerfEntry where
  tag : String
  commAddr : Nat
  ranks : List Nat
  metric : PerformanceMetric

/-- The entry of an address, `none` where it has no clique. -/
def perfEntry (cliques : Dict Nat CommunicatorClique) (e : Nat × PerformanceMetric) :
    Option PerfEntry :=
  (cliques.get? e.1).map fun c ↦ ⟨c.tag, e.1, c.ranks, e.2⟩

/-- The last address with the largest latency; `global_analyzer.py:205-209`. -/
def slowest (infos : List PerfEntry) : Option Nat × ℚ :=
  infos.foldl (fun best i ↦
    if best.2 ≤ i.metric.avgLat then (some i.commAddr, i.metric.avgLat) else best) (none, 0)

/-- `same_pos_comm_times`; `global_analyzer.py:194-210`. -/
def samePosCommTimes (samePosPerfs : List PerfEntry) : List (Option Nat × ℚ) :=
  (Dict.groupBy (·.ranks) samePosPerfs).values.map slowest

/-- The cliques of one tag to validate; `global_analyzer.py:212-223`. -/
def slowOfTag (cliques : Dict Nat CommunicatorClique) (samePosPerfs : List PerfEntry) :
    Option (List CommunicatorClique) :=
  let times := samePosCommTimes samePosPerfs
  let slow :=
    if times.length = 1 then times
    else if 2 ≤ times.length then
      times.filter fun t ↦ atLeastSlow (medianDouble (times.map Prod.snd)) t.2
    else []
  slow.mapM fun t ↦ t.1.bind cliques.get?

/-- `find_slow_clique`, `none` where a lookup raises; `global_analyzer.py:167-224`. -/
def findSlowClique (perfs : Dict Nat PerformanceMetric) (cliques : Dict Nat CommunicatorClique) :
    Option (List CommunicatorClique) :=
  (perfs.items.mapM (perfEntry cliques)).bind fun entries ↦
    ((Dict.groupBy (·.tag) entries).values.mapM (slowOfTag cliques)).map List.flatten

/-! ### What a slow clique is -/

section

variable (perfs : Dict Nat PerformanceMetric) (cliques : Dict Nat CommunicatorClique)

/-- The measured communicators, with their cliques. -/
def measured : List PerfEntry := perfs.items.filterMap (perfEntry cliques)

/-- The average latencies of the communicators of a rank set. -/
def latencies (tag : String) (ranks : List Nat) : List ℚ :=
  ((measured perfs cliques).filter fun i ↦ i.tag = tag ∧ i.ranks = ranks).map (·.metric.avgLat)

def maxLatency (tag : String) (ranks : List Nat) : ℚ :=
  ((latencies perfs cliques tag ranks).max?).getD 0

/-- The rank sets with a tag. -/
def rankSets (tag : String) : List (List Nat) :=
  (((measured perfs cliques).filter (·.tag = tag)).map (·.ranks)).dedup

/-- A rank set that is alone with its tag, or as slow as 1.2 times the median of the tag; the
product is one of doubles. -/
def IsSlow (tag : String) (ranks : List Nat) : Prop :=
  ranks ∈ rankSets perfs cliques tag ∧
    ((∀ other ∈ rankSets perfs cliques tag, other = ranks) ∨
      (Double.finite (roundDouble (6 / 5))).mul
          (medianDouble ((rankSets perfs cliques tag).map (maxLatency perfs cliques tag))) ≤
        .finite (maxLatency perfs cliques tag ranks))

end

/-! ### Medians and maxima -/

theorem medianDouble_perm {xs ys : List ℚ} (perm : xs.Perm ys) :
    medianDouble xs = medianDouble ys := by
  have sorted : xs.insertionSort (· ≤ ·) = ys.insertionSort (· ≤ ·) := by
    apply List.Perm.eq_of_pairwise
    · intro a b _ _ h h'
      exact le_antisymm h h'
    · exact List.pairwise_insertionSort _ xs
    · exact List.pairwise_insertionSort _ ys
    · exact (List.perm_insertionSort _ xs).trans (perm.trans (List.perm_insertionSort _ ys).symm)
  simp only [medianDouble, middles, sorted, perm.length_eq]

/-- The largest of the latencies so far, with an address that has it. -/
theorem slowest_spec {infos : List PerfEntry} (some : infos ≠ [])
    (nonneg : ∀ i ∈ infos, 0 ≤ i.metric.avgLat) :
    ∃ i ∈ infos, slowest infos = (.some i.commAddr, i.metric.avgLat) ∧
      ∀ j ∈ infos, j.metric.avgLat ≤ i.metric.avgLat := by
  induction infos using List.reverseRecOn with
  | nil => exact absurd rfl some
  | append_singleton infos last ih =>
    have step : slowest (infos ++ [last]) = if (slowest infos).2 ≤ last.metric.avgLat then
        (.some last.commAddr, last.metric.avgLat) else slowest infos := by
      rw [slowest, List.foldl_append]
      rfl
    by_cases empty : infos = []
    · subst empty
      refine ⟨last, by simp, ?_, by simp⟩
      rw [step]
      exact if_pos (nonneg last (by simp))
    · obtain ⟨i, mem, best, above⟩ := ih empty fun j hj ↦ nonneg j (List.mem_append_left _ hj)
      rw [best] at step
      by_cases slower : i.metric.avgLat ≤ last.metric.avgLat
      · refine ⟨last, by simp, by rw [step, if_pos slower], ?_⟩
        intro j hj
        rcases List.mem_append.mp hj with old | new
        · exact (above j old).trans slower
        · rw [List.mem_singleton.mp new]
      · refine ⟨i, List.mem_append_left _ mem, by rw [step, if_neg slower], ?_⟩
        intro j hj
        rcases List.mem_append.mp hj with old | new
        · exact above j old
        · rw [List.mem_singleton.mp new]
          exact (not_le.mp slower).le

/-! ### The measured communicators -/

variable {perfs : Dict Nat PerformanceMetric} {cliques : Dict Nat CommunicatorClique}

theorem mapM_perfEntry (covers : ∀ a ∈ perfs, a ∈ cliques) :
    perfs.items.mapM (perfEntry cliques) = some (measured perfs cliques) := by
  apply mapM_eq_filterMap
  intro e mem
  obtain ⟨c, clique⟩ := Dict.mem_iff.mp (covers e.1 (Dict.mem_of_mem_items mem))
  rw [← Dict.get?_eq_some_iff] at clique
  exact ⟨_, by rw [perfEntry, clique]; rfl⟩

/-- An entry says what the two maps say of its address. -/
theorem of_mem_measured {i : PerfEntry} (mem : i ∈ measured perfs cliques) :
    (i.commAddr, i.metric) ∈ perfs.items ∧
      ∃ c, cliques.get? i.commAddr = some c ∧ c.tag = i.tag ∧ c.ranks = i.ranks := by
  obtain ⟨e, known, entry⟩ := List.mem_filterMap.mp mem
  obtain ⟨c, clique, rfl⟩ := Option.map_eq_some_iff.mp entry
  exact ⟨known, c, clique, rfl, rfl⟩

theorem mem_rankSets {tag : String} {ranks : List Nat} : ranks ∈ rankSets perfs cliques tag ↔
    ∃ i ∈ measured perfs cliques, i.tag = tag ∧ i.ranks = ranks := by
  simp [rankSets, and_assoc]

/-- The groups of the entries of a tag. -/
def groups (perfs : Dict Nat PerformanceMetric) (cliques : Dict Nat CommunicatorClique)
    (tag : String) : List (List Nat × List PerfEntry) :=
  (Dict.groupBy (·.ranks) ((measured perfs cliques).filter (·.tag = tag))).items

/-- The slowest entry of a group has the largest latency of the rank set. -/
theorem slowest_group (nonneg : ∀ e ∈ perfs.items, 0 ≤ e.2.avgLat) {tag : String}
    {e : List Nat × List PerfEntry} (mem : e ∈ groups perfs cliques tag) :
    ∃ i ∈ measured perfs cliques, i.tag = tag ∧ i.ranks = e.1 ∧
      slowest e.2 = (some i.commAddr, maxLatency perfs cliques tag e.1) := by
  obtain ⟨⟨v, known, label⟩, list⟩ := Dict.mem_items_groupBy.mp mem
  have entries : e.2 = (measured perfs cliques).filter fun i ↦ i.tag = tag ∧ i.ranks = e.1 := by
    rw [list, List.filter_filter]
    apply List.filter_congr
    intro i _
    rw [Bool.and_comm, Bool.decide_and]
  have some : e.2 ≠ [] := by
    rw [list]
    exact List.ne_nil_of_mem (List.mem_filter.mpr ⟨known, by simpa using label⟩)
  obtain ⟨i, hi, slow, above⟩ := slowest_spec some fun j hj ↦ by
    rw [entries] at hj
    exact nonneg _ (of_mem_measured (List.mem_of_mem_filter hj)).1
  have largest : maxLatency perfs cliques tag e.1 = i.metric.avgLat := by
    have max : (latencies perfs cliques tag e.1).max? = .some i.metric.avgLat := by
      rw [List.max?_eq_some_iff, latencies, ← entries]
      constructor
      · exact List.mem_map.mpr ⟨i, hi, rfl⟩
      · intro b hb
        obtain ⟨j, hj, rfl⟩ := List.mem_map.mp hb
        exact above j hj
    rw [maxLatency, max]
    rfl
  rw [entries] at hi
  obtain ⟨known, fits⟩ := List.mem_filter.mp hi
  simp only [decide_eq_true_eq] at fits
  exact ⟨i, known, fits.1, fits.2, by rw [slow, largest]⟩

/-- The groups of a tag are its rank sets. -/
theorem groups_perm (perfs : Dict Nat PerformanceMetric)
    (cliques : Dict Nat CommunicatorClique) (tag : String) :
    ((groups perfs cliques tag).map Prod.fst).Perm (rankSets perfs cliques tag) := by
  apply (List.perm_ext_iff_of_nodup (Dict.keys_nodup _) (List.nodup_dedup _)).mpr
  intro ranks
  have keys := Dict.mem_groupBy (·.ranks) ((measured perfs cliques).filter (·.tag = tag)) ranks
  rw [Dict.mem_def] at keys
  show ranks ∈ Dict.keys _ ↔ _
  rw [keys, ← rankSets.eq_def, mem_rankSets]
  simp [and_assoc]

/-! ### The cliques of one tag -/

/-- The test of `slowOfTag`, for the rank set of a group. -/
def isChosen (perfs : Dict Nat PerformanceMetric) (cliques : Dict Nat CommunicatorClique)
    (tag : String) (ranks : List Nat) : Bool :=
  (groups perfs cliques tag).length = 1 ∨
    atLeastSlow (medianDouble ((rankSets perfs cliques tag).map (maxLatency perfs cliques tag)))
      (maxLatency perfs cliques tag ranks)

/-- The rank sets of a tag that are chosen, in the order of their groups. -/
def chosen (perfs : Dict Nat PerformanceMetric) (cliques : Dict Nat CommunicatorClique)
    (tag : String) : List (List Nat) :=
  ((groups perfs cliques tag).map Prod.fst).filter (isChosen perfs cliques tag)

theorem mem_chosen {tag : String} {ranks : List Nat} :
    ranks ∈ chosen perfs cliques tag ↔ IsSlow perfs cliques tag ranks := by
  have perm := groups_perm perfs cliques tag
  have length := perm.length_eq
  rw [List.length_map] at length
  rw [chosen, List.mem_filter, perm.mem_iff, isChosen, decide_eq_true_eq, length, IsSlow,
    atLeastSlow, decide_eq_true_eq]
  apply and_congr_right
  intro mem
  apply or_congr_left
  rw [List.length_eq_one_iff]
  constructor
  · rintro ⟨only, eq⟩ other h
    rw [eq, List.mem_singleton] at mem h
    rw [mem, h]
  · intro all
    refine ⟨ranks, ?_⟩
    have nodup : (rankSets perfs cliques tag).Nodup := List.nodup_dedup _
    cases sets : rankSets perfs cliques tag with
    | nil =>
      rw [sets] at mem
      cases mem
    | cons first rest =>
      rw [sets] at all nodup
      have none : rest = [] := by
        rw [List.eq_nil_iff_forall_not_mem]
        intro other h
        have same : other = first :=
          (all other (List.mem_cons_of_mem _ h)).trans (all first List.mem_cons_self).symm
        exact (List.nodup_cons.mp nodup).1 (same ▸ h)
      rw [none, all first List.mem_cons_self]

/-- The choice of `slowOfTag` in terms of the groups. -/
theorem chosen_times (nonneg : ∀ e ∈ perfs.items, 0 ≤ e.2.avgLat) (tag : String) :
    slowOfTag cliques ((measured perfs cliques).filter (·.tag = tag)) =
      ((groups perfs cliques tag).filter (isChosen perfs cliques tag ∘ Prod.fst)).mapM fun e ↦
        (slowest e.2).1.bind cliques.get? := by
  have times : samePosCommTimes ((measured perfs cliques).filter (·.tag = tag)) =
      (groups perfs cliques tag).map fun e ↦ slowest e.2 := by
    rw [samePosCommTimes, Dict.values, List.map_map]
    rfl
  have largest : ∀ e ∈ groups perfs cliques tag,
      (slowest e.2).2 = maxLatency perfs cliques tag e.1 := by
    intro e mem
    obtain ⟨i, -, -, -, slow⟩ := slowest_group nonneg mem
    rw [slow]
  have maxima : medianDouble (((groups perfs cliques tag).map fun e ↦ slowest e.2).map Prod.snd) =
      medianDouble ((rankSets perfs cliques tag).map (maxLatency perfs cliques tag)) := by
    rw [← medianDouble_perm ((groups_perm perfs cliques tag).map _), List.map_map, List.map_map]
    congr 1
    exact List.map_congr_left largest
  have same : ∀ e ∈ groups perfs cliques tag, (isChosen perfs cliques tag ∘ Prod.fst) e =
      decide ((groups perfs cliques tag).length = 1 ∨
        atLeastSlow
          (medianDouble ((rankSets perfs cliques tag).map (maxLatency perfs cliques tag)))
          (slowest e.2).2) := by
    intro e mem
    rw [largest e mem]
    rfl
  have map : ∀ l : List (List Nat × List PerfEntry), (l.mapM fun e ↦
      (slowest e.2).1.bind cliques.get?) = (l.map fun e ↦ slowest e.2).mapM fun t ↦
        t.1.bind cliques.get? := by
    intro l
    rw [List.mapM_map]
    rfl
  simp only [slowOfTag, times, maxima, List.length_map]
  rw [List.filter_congr same, map]
  congr 1
  split
  · next one => simp [one]
  · next many =>
    split
    · rw [List.filter_map]
      simp [many, Function.comp_def]
    · next few =>
      have none : groups perfs cliques tag = [] := by
        rw [← List.length_eq_zero_iff]
        omega
      simp [none]

/-- The cliques of a tag that are returned are those of the chosen rank sets, one for each. -/
theorem slowOfTag_spec (nonneg : ∀ e ∈ perfs.items, 0 ≤ e.2.avgLat) (tag : String) :
    ∃ found, slowOfTag cliques ((measured perfs cliques).filter (·.tag = tag)) = some found ∧
      (∀ c ∈ found, ∃ a ∈ perfs, cliques.get? a = some c) ∧
      found.map (fun c ↦ (c.tag, c.ranks)) = (chosen perfs cliques tag).map (tag, ·) := by
  rw [chosen_times nonneg, chosen, List.filter_map, List.map_map]
  apply exists_mapM
  intro e mem
  obtain ⟨i, known, tags, sets, slow⟩ := slowest_group nonneg (List.mem_of_mem_filter mem)
  obtain ⟨metric, c, found, tag', ranks⟩ := of_mem_measured known
  refine ⟨c, by rw [slow]; exact found, ⟨i.commAddr, Dict.mem_of_mem_items metric, found⟩, ?_⟩
  rw [tag', ranks, tags, sets]
  rfl

/-! ### All tags -/

/-- The returned cliques, by tag and rank set, are the slow ones, each once. -/
theorem findSlowClique_isSlow (covers : ∀ a ∈ perfs, a ∈ cliques)
    (nonneg : ∀ e ∈ perfs.items, 0 ≤ e.2.avgLat) :
    ∃ found, findSlowClique perfs cliques = some found ∧
      (∀ c ∈ found, ∃ a ∈ perfs, cliques.get? a = some c) ∧
      (found.map fun c ↦ (c.tag, c.ranks)).Nodup ∧
      ∀ tag ranks, (∃ c ∈ found, c.tag = tag ∧ c.ranks = ranks) ↔
        IsSlow perfs cliques tag ranks := by
  let tags := Dict.groupBy (·.tag) (measured perfs cliques)
  obtain ⟨founds, byTag, all, labels⟩ := exists_mapM (l := tags.items)
    (f := fun e ↦ slowOfTag cliques e.2)
    (fun found ↦ ∀ c ∈ found, ∃ a ∈ perfs, cliques.get? a = some c)
    (fun found ↦ found.map fun c ↦ (c.tag, c.ranks))
    (fun e ↦ (chosen perfs cliques e.1).map (e.1, ·)) (by
      intro e mem
      rw [(Dict.mem_items_groupBy.mp mem).2]
      exact slowOfTag_spec nonneg e.1)
  have flat : founds.flatten.map (fun c ↦ (c.tag, c.ranks)) =
      tags.items.flatMap fun e ↦ (chosen perfs cliques e.1).map (e.1, ·) := by
    rw [List.map_flatten, labels, List.flatMap_def]
  have slow : ∀ tag ranks, (∃ c ∈ founds.flatten, c.tag = tag ∧ c.ranks = ranks) ↔
      ∃ e ∈ tags.items, e.1 = tag ∧ ranks ∈ chosen perfs cliques tag := by
    intro tag ranks
    have pair : (∃ c ∈ founds.flatten, c.tag = tag ∧ c.ranks = ranks) ↔
        (tag, ranks) ∈ founds.flatten.map fun c ↦ (c.tag, c.ranks) := by
      rw [List.mem_map]
      simp only [Prod.mk.injEq]
    rw [pair, flat, List.mem_flatMap]
    constructor
    · rintro ⟨e, mem, h⟩
      obtain ⟨r, hr, eq⟩ := List.mem_map.mp h
      cases eq
      exact ⟨e, mem, rfl, hr⟩
    · rintro ⟨e, mem, rfl, h⟩
      exact ⟨e, mem, List.mem_map.mpr ⟨ranks, h, rfl⟩⟩
  refine ⟨founds.flatten, ?_, ?_, ?_, ?_⟩
  · rw [findSlowClique, mapM_perfEntry covers, Option.bind_some, Dict.values, List.mapM_map]
    show (tags.items.mapM fun e ↦ slowOfTag cliques e.2).map List.flatten = _
    rw [byTag]
    rfl
  · intro c mem
    obtain ⟨found, h, mem⟩ := List.mem_flatten.mp mem
    exact all found h c mem
  · rw [flat, List.nodup_flatMap]
    constructor
    · intro e _
      have nodup : (chosen perfs cliques e.1).Nodup := (Dict.keys_nodup _).filter _
      exact nodup.map fun _ _ eq ↦ (Prod.mk.inj eq).2
    · have distinct : tags.items.Pairwise fun e e' ↦ e.1 ≠ e'.1 := List.pairwise_map.mp tags.nodup
      apply distinct.imp
      intro e e' ne x hx hx'
      obtain ⟨r, -, rfl⟩ := List.mem_map.mp hx
      obtain ⟨r', -, eq⟩ := List.mem_map.mp hx'
      exact ne (Prod.mk.inj eq).1.symm
  · intro tag ranks
    rw [slow, mem_chosen]
    constructor
    · rintro ⟨-, -, -, h⟩
      exact h
    · intro h
      obtain ⟨i, mem, label, -⟩ := mem_rankSets.mp h.1
      have group : (tag, (measured perfs cliques).filter (·.tag = tag)) ∈ tags.items :=
        Dict.mem_items_groupBy.mpr ⟨⟨i, mem, label⟩, rfl⟩
      exact ⟨_, group, rfl, h⟩

/-! ### Other orders of the map -/

variable {perfs' : Dict Nat PerformanceMetric}

theorem maxLatency_perm (cliques : Dict Nat CommunicatorClique)
    (perm : perfs'.items.Perm perfs.items) (tag : String) (ranks : List Nat) :
    maxLatency perfs' cliques tag ranks = maxLatency perfs cliques tag ranks := by
  have lats : (latencies perfs' cliques tag ranks).Perm (latencies perfs cliques tag ranks) :=
    ((perm.filterMap _).filter _).map _
  have max : (latencies perfs' cliques tag ranks).max? =
      (latencies perfs cliques tag ranks).max? := by
    apply Option.ext
    intro m
    simp only [List.max?_eq_some_iff, lats.mem_iff]
  rw [maxLatency, maxLatency, max]

theorem rankSets_perm (cliques : Dict Nat CommunicatorClique)
    (perm : perfs'.items.Perm perfs.items) (tag : String) :
    (rankSets perfs' cliques tag).Perm (rankSets perfs cliques tag) :=
  (((perm.filterMap _).filter _).map _).dedup

/-- Which rank sets are slow does not depend on the order of the map. -/
theorem isSlow_perm (perm : perfs'.items.Perm perfs.items) (tag : String) (ranks : List Nat) :
    IsSlow perfs' cliques tag ranks ↔ IsSlow perfs cliques tag ranks := by
  have sets := rankSets_perm cliques perm tag
  have latency := maxLatency_perm cliques perm tag
  have medians : medianDouble ((rankSets perfs' cliques tag).map (maxLatency perfs' cliques tag)) =
      medianDouble ((rankSets perfs cliques tag).map (maxLatency perfs cliques tag)) := by
    rw [funext latency]
    exact medianDouble_perm (sets.map _)
  simp only [IsSlow, medians, latency, sets.mem_iff]

/-- `find_slow_clique` returns one clique for each slow rank set of a tag, whatever the order of the
measurements. -/
theorem findSlowClique_spec (covers : ∀ a ∈ perfs, a ∈ cliques)
    (nonneg : ∀ e ∈ perfs.items, 0 ≤ e.2.avgLat) :
    ∃ found, findSlowClique perfs cliques = some found ∧
      (∀ c ∈ found, ∃ a ∈ perfs, cliques.get? a = some c) ∧
      (found.map fun c ↦ (c.tag, c.ranks)).Nodup ∧
      ((∀ c ∈ cliques.values, ∀ d ∈ cliques.values, c.ranks = d.ranks → c.tag = d.tag) →
        (found.map (·.ranks)).Nodup) ∧
      (∀ tag ranks, (∃ c ∈ found, c.tag = tag ∧ c.ranks = ranks) ↔
        IsSlow perfs cliques tag ranks) ∧
      ∀ perfs' : Dict Nat PerformanceMetric, perfs'.items.Perm perfs.items →
        ∃ found', findSlowClique perfs' cliques = some found' ∧
          ∀ ranks, ranks ∈ found'.map (·.ranks) ↔ ranks ∈ found.map (·.ranks) := by
  obtain ⟨found, eq, known, nodup, slow⟩ := findSlowClique_isSlow covers nonneg
  refine ⟨found, eq, known, nodup, ?_, slow, ?_⟩
  · intro determined
    apply nodup.of_map.map_on
    intro c hc d hd same
    obtain ⟨a, -, inC⟩ := known c hc
    obtain ⟨b, -, inD⟩ := known d hd
    have tags := determined c (List.mem_map.mpr ⟨_, Dict.get?_eq_some_iff.mp inC, rfl⟩) d
      (List.mem_map.mpr ⟨_, Dict.get?_eq_some_iff.mp inD, rfl⟩) same
    exact List.inj_on_of_nodup_map nodup hc hd (Prod.ext tags same)
  · intro perfs' perm
    have covers' : ∀ a ∈ perfs', a ∈ cliques := by
      intro a mem
      apply covers a
      rw [Dict.mem_def, Dict.keys] at mem ⊢
      exact (perm.map _).mem_iff.mp mem
    obtain ⟨found', eq', -, -, slow'⟩ :=
      findSlowClique_isSlow covers' fun e mem ↦ nonneg e (perm.mem_iff.mp mem)
    refine ⟨found', eq', ?_⟩
    intro ranks
    have tags := fun tag ↦ (slow' tag ranks).trans ((isSlow_perm perm tag ranks).trans
      (slow tag ranks).symm)
    simp only [List.mem_map]
    constructor
    · rintro ⟨c, mem, sets⟩
      obtain ⟨d, mem', -, same⟩ := (tags c.tag).mp ⟨c, mem, rfl, sets⟩
      exact ⟨d, mem', same⟩
    · rintro ⟨c, mem, sets⟩
      obtain ⟨d, mem', -, same⟩ := (tags c.tag).mpr ⟨c, mem, rfl, sets⟩
      exact ⟨d, mem', same⟩

/-- Two ranks of a pipeline stage, as a tensor-parallel clique. -/
def tpClique (stage rank : Nat) : CommunicatorClique :=
  ⟨[⟨rank, 100 + rank, rank, 0, []⟩, ⟨rank, 101 + rank, rank + 1, 1, []⟩], .tp stage⟩

theorem findSlowClique_spec_tp :
    let cliques := Dict.ofItems [(100, tpClique 0 0), (102, tpClique 0 2), (104, tpClique 1 4)]
    let perfs := Dict.ofItems
      [(102, ⟨1, 3, 2, 0⟩), (100, ⟨4, 6, 5, 0⟩), (104, (⟨1, 1, 1, 0⟩ : PerformanceMetric))]
    ∃ found, findSlowClique perfs cliques = some found ∧
      (∀ c ∈ found, ∃ a ∈ perfs, cliques.get? a = some c) ∧
      (found.map fun c ↦ (c.tag, c.ranks)).Nodup ∧
      ((∀ c ∈ cliques.values, ∀ d ∈ cliques.values, c.ranks = d.ranks → c.tag = d.tag) →
        (found.map (·.ranks)).Nodup) ∧
      (∀ tag ranks, (∃ c ∈ found, c.tag = tag ∧ c.ranks = ranks) ↔
        IsSlow perfs cliques tag ranks) ∧
      ∀ perfs' : Dict Nat PerformanceMetric, perfs'.items.Perm perfs.items →
        ∃ found', findSlowClique perfs' cliques = some found' ∧
          ∀ ranks, ranks ∈ found'.map (·.ranks) ↔ ranks ∈ found.map (·.ranks) := by
  intro cliques perfs
  apply findSlowClique_spec
  · intro a mem
    have addresses : a ∈ [102, 100, 104] := mem
    have all : ∀ a ∈ [102, 100, 104], a ∈ cliques := by decide
    exact all a addresses
  · decide +kernel

end ProbingBaselines.Greyhound.ControlPlane
