import ProbingBaselines.Lib.Binary64
import ProbingBaselines.Lib.Dict

/-!
# Performance buckets

The level of a bucket is the performance of a kernel in parts of what the hardware can do
(`nvidia/nvidia_timer.cc:219-270`). Beyond the hardware's peak the matrix buckets have a level of
their own; the collective ones fall back to the one before the top.
-/

namespace ProbingBaselines.XpuTimer

open Lib

/-- The largest `int`. -/
def intMax : Nat := 2 ^ 31 - 1

/-- The conversion to `int`, undefined out of its range. -/
def toInt (x : Double) : Option Nat := x.toNat? (intMax + 1)

/-- `level + 1`, undefined if it overflows. -/
def addOne (level : Nat) : Option Nat := if level < intMax then some (level + 1) else none

/-- A kernel's labels by name. -/
abbrev LabelMap := Dict String String

/-- `(*label)[key]`, which makes an empty label of one that is not there. -/
def readLabel (label : LabelMap) (key : String) : String × LabelMap :=
  match label.get? key with
  | some value => (value, label)
  | none => ("", label.insert key "")

/-- The fields of `BvarMetricsConfig` that the buckets read. -/
structure BvarMetricsConfig where
  nicBandwidthGbps : Nat
  commBucketCount : Nat
  mmBucketCount : Nat

/-- The set-up, given the counts of the environment; `common/util.cc:402-406`. -/
def BvarMetricsConfig.setUp (commBucketingCount mmBucketingCount : Nat) : BvarMetricsConfig :=
  ⟨400, commBucketingCount, mmBucketingCount⟩

/-- `collBucketFn`; `nvidia_timer.cc:219-245`. -/
def collBucketFn (config : BvarMetricsConfig) (performance : Double) (problemSize : Nat)
    (label : LabelMap) : Option (String × LabelMap) := do
  let label := label.insert "small" (if problemSize ≤ 8192 then "1" else "0")
  let throughputGbps := performance
  let level ← toInt
    ((throughputGbps.mul (.ofNat config.commBucketCount)).div (.ofNat config.nicBandwidthGbps))
  let stringLevel ←
    if level > config.commBucketCount then some (toString config.commBucketCount)
    else (addOne level).map toString
  let label := label.insert "level" stringLevel
  let (operation, label) := readLabel label "operation"
  let (algorithm, label) := readLabel label "algorithm"
  return ("COLL_P" ++ stringLevel ++ operation ++ algorithm, label)

/-- `CudaDataTypeUtils::getGpuHardwareFlops`, given the peaks of the GPU;
`nvidia/nvidia_dtype_util.cc:142-159`. -/
def getGpuHardwareFlops (peaks : Dict String Double) (dtype : String) : Double :=
  (peaks.get? dtype).getD (.ofNat 312)

/-- `getMatmulBucket`; `nvidia_timer.h:216-218`. -/
def getMatmulBucket (peaks : Dict String Double) (performance : Double) (dtype : String) :
    Option Nat :=
  toInt (performance.div (getGpuHardwareFlops peaks dtype))

/-- `matmulBucketFn`; `nvidia_timer.cc:247-270`. -/
def matmulBucketFn (config : BvarMetricsConfig) (peaks : Dict String Double)
    (performance : Double) (_problemSize : Nat) (label : LabelMap) :
    Option (String × LabelMap) := do
  let tflops := performance
  let (dtype, label) := readLabel label "dtype"
  let level ← getMatmulBucket peaks (tflops.mul (.ofNat config.mmBucketCount)) dtype
  let stringLevel ←
    if level > config.mmBucketCount then (addOne config.mmBucketCount).map toString
    else (addOne level).map toString
  let label := label.insert "level" stringLevel
  let (operation, label) := readLabel label "operation"
  return ("COMPUTE_P" ++ stringLevel ++ operation, label)

/-! ### Performances -/

/-- `mmPerformance`; `nvidia_timer.h:205-207`. -/
def mmPerformance (latencyInUs problemSize : Nat) : Double :=
  ((Double.ofNat problemSize).div (.ofNat latencyInUs)).div (.ofNat 1000000)

/-- `collPerformance`; `nvidia_timer.h:209-211`. -/
def collPerformance (latencyInUs problemSize : Nat) : Double :=
  ((Double.ofNat problemSize).div (.ofNat 1000)).div (.ofNat latencyInUs)

/-- `MatCommuMetrics::getPerformance` keeps the performance as an unsigned integer;
`common/metrics.cc:110-113`. -/
def getPerformance (performanceFn : Nat → Nat → Double) (latencyInUs problemSize : Nat) :
    Option Nat :=
  (performanceFn latencyInUs problemSize).toNat? (2 ^ 64)

/-- `MatCommuMetrics::computeBucket`; `metrics.cc:106-108`. -/
def computeBucket (bucketFn : Double → Nat → LabelMap → Option (String × LabelMap))
    (performance problemSize : Nat) (label : LabelMap) : Option (String × LabelMap) :=
  bucketFn (.ofNat performance) problemSize label

/-- Nothing finite is divided by zero. -/
theorem div_zero (p : Double) : p.div (.ofNat 0) = .inf ∨ p.div (.ofNat 0) = .nan := by
  have zero : Double.ofNat 0 = .finite 0 := by
    rw [Double.ofNat_eq (by norm_num), Nat.cast_zero]
  rw [zero]
  match p with
  | .finite x =>
    by_cases none : x = 0
    · simp [Double.div, none]
    · simp [Double.div, none]
  | .inf => exact .inl rfl
  | .nan => exact .inr rfl

/-- A latency of zero has no performance that could be kept. -/
theorem getPerformance_zero {performanceFn : Nat → Nat → Double}
    (known : performanceFn = collPerformance ∨ performanceFn = mmPerformance)
    (problemSize : Nat) : getPerformance performanceFn 0 problemSize = none := by
  rcases known with rfl | rfl
  · rw [getPerformance, collPerformance]
    rcases div_zero ((Double.ofNat problemSize).div (.ofNat 1000)) with inf | nan
    · rw [inf]
      rfl
    · rw [nan]
      rfl
  · have million : Double.ofNat 1000000 = .finite 1000000 := by
      rw [Double.ofNat_eq (by norm_num), Nat.cast_ofNat]
    rw [getPerformance, mmPerformance, million]
    rcases div_zero (Double.ofNat problemSize) with inf | nan
    · rw [inf]
      rfl
    · rw [nan]
      rfl

/-- No performance is kept of an infinite quotient. -/
theorem toNat?_inf_div (bound : ℕ) (x : Double) : (Double.inf.div x).toNat? bound = none := by
  cases x <;> rfl

/-- Of two kernels of one size the slower one performs no better, if the faster one's performance
can be kept. -/
theorem getPerformance_anti {performanceFn : Nat → Nat → Double}
    (known : performanceFn = collPerformance ∨ performanceFn = mmPerformance)
    {latencyInUs latencyInUs' problemSize q : Nat} (le : latencyInUs' ≤ latencyInUs)
    (kept : getPerformance performanceFn latencyInUs' problemSize = some q) :
    ∃ p ≤ q, getPerformance performanceFn latencyInUs problemSize = some p := by
  have pos : 0 < latencyInUs' := by
    by_contra none
    obtain rfl : latencyInUs' = 0 := by omega
    rw [getPerformance_zero known] at kept
    cases kept
  have latency_pos := Double.ofNat_pos pos
  have latency_le := Double.ofNat_mono le
  have size_nonneg : .finite 0 ≤ Double.ofNat problemSize :=
    Double.round_nonneg (Nat.cast_nonneg _)
  have exact : ∀ n : Nat, n < 2 ^ 53 → Double.ofNat n = .finite n := fun n ↦ Double.ofNat_eq
  refine Double.toNat?_mono ?_ kept
  rcases known with rfl | rfl
  · rw [getPerformance, collPerformance, exact 1000 (by norm_num)] at kept
    rw [collPerformance, collPerformance, exact 1000 (by norm_num)]
    have thousand : (0 : ℚ) < (1000 : ℕ) := by norm_num
    have nonneg := Double.div_nonneg' thousand size_nonneg
    match h : (Double.ofNat problemSize).div (.finite (1000 : ℕ)) with
    | .finite x =>
      rw [h] at nonneg
      exact Double.div_anti nonneg latency_pos latency_le
    | .inf =>
      rw [h, toNat?_inf_div] at kept
      cases kept
    | .nan =>
      rw [h] at nonneg
      exact nonneg.elim
  · rw [getPerformance, mmPerformance] at kept
    rw [mmPerformance, mmPerformance, exact 1000000 (by norm_num)]
    have million : (0 : ℚ) < (1000000 : ℕ) := by norm_num
    match h : Double.ofNat problemSize with
    | .finite x =>
      rw [h] at size_nonneg
      have latency_pos' : .finite 0 < Double.ofNat latencyInUs :=
        Double.ofNat_pos (Nat.lt_of_lt_of_le pos le)
      -- The quotient by infinity is zero.
      have nonneg : .finite 0 ≤ (Double.finite x).div (.ofNat latencyInUs) :=
        Double.div_anti size_nonneg latency_pos' (Double.ofNat_le_inf latencyInUs)
      exact Double.div_mono million nonneg (Double.div_anti size_nonneg latency_pos latency_le)
    | .inf =>
      rw [h] at kept
      cases h' : Double.ofNat latencyInUs' with
      | finite y =>
        rw [h', Double.div, toNat?_inf_div] at kept
        cases kept
      | inf | nan =>
        rw [h'] at kept
        cases kept
    | .nan =>
      rw [h] at size_nonneg
      exact size_nonneg.elim

/-! ### The level label -/

/-- The level that a bucket function writes. -/
def levelLabel (bucket : Option (String × LabelMap)) : Option String :=
  bucket.bind fun b ↦ b.2.get? "level"

/-- Reading a label leaves those that are there. -/
theorem get?_readLabel {label : LabelMap} {key : String} {value : String}
    (there : label.get? key = some value) (other : String) :
    (readLabel label other).2.get? key = some value := by
  rw [readLabel]
  cases read : label.get? other with
  | some _ => exact there
  | none =>
    have ne : key ≠ other := by
      rintro rfl
      rw [read] at there
      cases there
    rw [Dict.get?_insert, if_neg ne, there]

/-- The level of a performance in parts of the peak. -/
def scaled (count : Nat) (peak p : Double) : Double := (p.mul (.ofNat count)).div peak

def collLevel (count level : Nat) : Option Nat := if level > count then some count else addOne level

def matmulLevel (count level : Nat) : Option Nat :=
  if level > count then addOne count else addOne level

theorem levelLabel_coll (config : BvarMetricsConfig) (p : Double) (problemSize : Nat)
    (label : LabelMap) :
    levelLabel (collBucketFn config p problemSize label) =
      ((toInt (scaled config.commBucketCount (.ofNat config.nicBandwidthGbps) p)).bind
        (collLevel config.commBucketCount)).map toString := by
  rw [levelLabel, collBucketFn, scaled]
  cases toInt ((p.mul (.ofNat config.commBucketCount)).div (.ofNat config.nicBandwidthGbps)) with
  | none => rfl
  | some level =>
    have kept : ∀ (l : LabelMap) (text : String), (readLabel (readLabel (l.insert "level" text)
        "operation").2 "algorithm").2.get? "level" = some text := by
      intro l text
      apply get?_readLabel
      apply get?_readLabel
      rw [Dict.get?_insert, if_pos rfl]
    simp only [Option.bind_eq_bind, Option.bind_some, collLevel]
    split
    · exact kept _ _
    · cases addOne level with
      | none => rfl
      | some next => exact kept _ _

theorem levelLabel_matmul (config : BvarMetricsConfig) (peaks : Dict String Double) (p : Double)
    (problemSize : Nat) (label : LabelMap) :
    levelLabel (matmulBucketFn config peaks p problemSize label) =
      ((toInt (scaled config.mmBucketCount
        (getGpuHardwareFlops peaks (readLabel label "dtype").1) p)).bind
        (matmulLevel config.mmBucketCount)).map toString := by
  rw [levelLabel, matmulBucketFn, scaled]
  simp only [getMatmulBucket]
  cases toInt ((p.mul (.ofNat config.mmBucketCount)).div
      (getGpuHardwareFlops peaks (readLabel label "dtype").1)) with
  | none => rfl
  | some level =>
    have kept : ∀ (l : LabelMap) (text : String),
        (readLabel (l.insert "level" text) "operation").2.get? "level" = some text := by
      intro l text
      apply get?_readLabel
      rw [Dict.get?_insert, if_pos rfl]
    simp only [Option.bind_eq_bind, Option.bind_some, matmulLevel]
    split
    · cases addOne config.mmBucketCount with
      | none => rfl
      | some top => exact kept _ _
    · cases addOne level with
      | none => rfl
      | some next => exact kept _ _

/-! ### Order -/

/-- The levels of two performances are in order and in range. -/
def Ordered (count : Nat) (low high : Option String) : Prop :=
  ∃ a b : Nat, low = some (toString a) ∧ high = some (toString b) ∧ 1 ≤ a ∧ a ≤ b ∧ b ≤ count + 1

/-- The performance is at least `n` parts of the peak, where `count` parts make it up. -/
def Reaches (count : Nat) (peak : Double) (n : Nat) (p : Double) : Prop :=
  .ofNat n ≤ (p.mul (.ofNat count)).div peak

/-- The level of the performance is an `int`, and so is the one after it. -/
def InRange (count : Nat) (peak p : Double) : Prop :=
  ¬Reaches count peak (intMax + 1) p ∧ (count = intMax → ¬Reaches count peak intMax p)

theorem toString_injective {m n : Nat} (same : toString m = toString n) : m = n := by
  have digits := congrArg (fun text ↦ Nat.ofDigitChars 10 text.toList 0) same
  simpa [Nat.toString_eq_repr, Nat.toList_repr] using digits

theorem ordered_map_iff {count : Nat} {low high : Option Nat} :
    Ordered count (low.map toString) (high.map toString) ↔
      ∃ a b : Nat, low = some a ∧ high = some b ∧ 1 ≤ a ∧ a ≤ b ∧ b ≤ count + 1 := by
  have exact : ∀ (level : Option Nat) (n : Nat),
      level.map toString = some (toString n) ↔ level = some n := by
    intro level n
    rw [Option.map_eq_some_iff]
    constructor
    · rintro ⟨m, rfl, same⟩
      rw [toString_injective same]
    · rintro rfl
      exact ⟨n, rfl, rfl⟩
  simp only [Ordered, exact]

section

variable {count : Nat} {peak : ℚ} {p q : Double}

theorem scaled_mono (count_pos : 1 ≤ count) (bits : count ≤ intMax) (peak_pos : 0 < peak)
    (nonneg : .finite 0 ≤ p) (le : p ≤ q) :
    .finite 0 ≤ scaled count (.finite peak) p ∧
      scaled count (.finite peak) p ≤ scaled count (.finite peak) q := by
  have exact : Double.ofNat count = .finite count := by
    apply Double.ofNat_eq
    rw [intMax] at bits
    omega
  have count_pos' : (0 : ℚ) < count := by exact_mod_cast count_pos
  rw [scaled, scaled, exact]
  have product := Double.mul_nonneg' count_pos' nonneg
  exact ⟨Double.div_nonneg' peak_pos product,
    Double.div_mono peak_pos product (Double.mul_mono count_pos' nonneg le)⟩

/-- The parts that a performance reaches, from its level. -/
theorem reaches_iff {level n : Nat} (nonneg : .finite 0 ≤ scaled count (.finite peak) p)
    (h : toInt (scaled count (.finite peak) p) = some level) (bits : n ≤ intMax + 1) :
    Reaches count (.finite peak) n p ↔ n ≤ level := by
  apply Double.ofNat_le_iff nonneg h
  rw [intMax] at bits
  omega

theorem toInt_eq_none_iff (nonneg : .finite 0 ≤ scaled count (.finite peak) p) :
    toInt (scaled count (.finite peak) p) = none ↔
      Reaches count (.finite peak) (intMax + 1) p :=
  Double.toNat?_eq_none_iff nonneg (by norm_num [intMax])

theorem le_intMax {x : Double} {level : Nat} (h : toInt x = some level) : level ≤ intMax := by
  match x with
  | .finite y =>
    simp only [toInt, Double.toNat?] at h
    split at h
    · cases h
      omega
    · cases h
  | .inf | .nan => cases h

theorem collLevel_of_gt {level : Nat} (beyond : count < level) :
    collLevel count level = some count := if_pos beyond

theorem collLevel_of_le {level : Nat} (within : level ≤ count) :
    collLevel count level = addOne level := if_neg (Nat.not_lt.mpr within)

theorem addOne_of_lt {level : Nat} (lt : level < intMax) : addOne level = some (level + 1) :=
  if_pos lt

theorem addOne_intMax : addOne intMax = none := if_neg (Nat.lt_irrefl _)

/-- From the levels before the top to beyond it the label of the collective buckets goes down. -/
theorem collLevel_ordered_iff {low high : Nat} (count_pos : 1 ≤ count) (bits : count ≤ intMax)
    (low_le : low ≤ high) (high_le : high ≤ intMax) :
    (∃ a b : Nat, collLevel count low = some a ∧ collLevel count high = some b ∧
        1 ≤ a ∧ a ≤ b ∧ b ≤ count + 1) ↔
      (¬intMax + 1 ≤ high ∧ (count = intMax → ¬intMax ≤ high)) ∧
        ¬(count ≤ low ∧ ¬count + 1 ≤ low ∧ count + 1 ≤ high) := by
  rcases Nat.lt_or_ge count high with beyond | within
  · rw [collLevel_of_gt beyond]
    rcases Nat.lt_or_ge count low with low_beyond | low_within
    · rw [collLevel_of_gt low_beyond]
      constructor
      · intro _
        omega
      · intro _
        exact ⟨count, count, rfl, rfl, count_pos, Nat.le_refl _, by omega⟩
    · rw [collLevel_of_le low_within, addOne_of_lt (by omega)]
      constructor
      · rintro ⟨a, b, ha, hb, -, le, -⟩
        cases ha
        cases hb
        omega
      · intro _
        exact ⟨low + 1, count, rfl, rfl, by omega, by omega, by omega⟩
  · rw [collLevel_of_le within, collLevel_of_le (low_le.trans within)]
    rcases high_le.eq_or_lt with rfl | lt
    · rw [addOne_intMax]
      constructor
      · rintro ⟨a, b, -, hb, -⟩
        cases hb
      · rintro ⟨⟨-, full⟩, -⟩
        exact absurd (Nat.le_refl _) (full (by omega))
    · rw [addOne_of_lt lt, addOne_of_lt (by omega)]
      constructor
      · intro _
        omega
      · intro _
        exact ⟨low + 1, high + 1, rfl, rfl, by omega, by omega, by omega⟩

theorem matmulLevel_ordered_iff {low high : Nat} (bits : count ≤ intMax) (low_le : low ≤ high)
    (high_le : high ≤ intMax) :
    (∃ a b : Nat, matmulLevel count low = some a ∧ matmulLevel count high = some b ∧
        1 ≤ a ∧ a ≤ b ∧ b ≤ count + 1) ↔
      ¬intMax + 1 ≤ high ∧ (count = intMax → ¬intMax ≤ high) := by
  -- The label is that of the level, or of the top.
  have level_eq : ∀ level, matmulLevel count level = addOne (min level count) := by
    intro level
    rw [matmulLevel]
    split
    · next beyond => rw [Nat.min_eq_right (by omega)]
    · next within => rw [Nat.min_eq_left (by omega)]
  rw [level_eq, level_eq]
  rcases Nat.lt_or_ge (min high count) intMax with lt | full
  · rw [addOne_of_lt lt, addOne_of_lt (by omega)]
    constructor
    · intro _
      omega
    · intro _
      exact ⟨_, _, rfl, rfl, by omega, by omega, by omega⟩
  · have top : min high count = intMax := by omega
    rw [top, addOne_intMax]
    constructor
    · rintro ⟨a, b, -, hb, -⟩
      cases hb
    · rintro ⟨-, notFull⟩
      exact absurd (by omega) (notFull (by omega))

/-- Either the greater performance has no level, or both have one, and it tells what they reach. -/
theorem levels_cases (count_pos : 1 ≤ count) (bits : count ≤ intMax) (peak_pos : 0 < peak)
    (nonneg : .finite 0 ≤ p) (le : p ≤ q) :
    toInt (scaled count (.finite peak) q) = none ∧ Reaches count (.finite peak) (intMax + 1) q ∨
      ∃ low high, toInt (scaled count (.finite peak) p) = some low ∧
        toInt (scaled count (.finite peak) q) = some high ∧ low ≤ high ∧ high ≤ intMax ∧
        ∀ n ≤ intMax + 1, (Reaches count (.finite peak) n p ↔ n ≤ low) ∧
          (Reaches count (.finite peak) n q ↔ n ≤ high) := by
  rcases scaled_mono count_pos bits peak_pos nonneg le with ⟨p_nonneg, scaled_le⟩
  have q_nonneg := Double.le_trans p_nonneg scaled_le
  cases q_level : toInt (scaled count (.finite peak) q) with
  | none => exact .inl ⟨rfl, (toInt_eq_none_iff q_nonneg).mp q_level⟩
  | some high =>
    rcases Double.toNat?_mono scaled_le q_level with ⟨low, low_le, p_level⟩
    right
    refine ⟨low, high, p_level, rfl, low_le, le_intMax q_level, ?_⟩
    intro n hn
    exact ⟨reaches_iff p_nonneg p_level hn, reaches_iff q_nonneg q_level hn⟩

/-- The levels of the collective buckets are in order unless one performance is in the top part
and the other beyond it. -/
theorem coll_ordered_iff (count_pos : 1 ≤ count) (bits : count ≤ intMax) (peak_pos : 0 < peak)
    (nonneg : .finite 0 ≤ p) (le : p ≤ q) :
    (∃ a b : Nat, (toInt (scaled count (.finite peak) p)).bind (collLevel count) = some a ∧
        (toInt (scaled count (.finite peak) q)).bind (collLevel count) = some b ∧
        1 ≤ a ∧ a ≤ b ∧ b ≤ count + 1) ↔
      InRange count (.finite peak) q ∧
        ¬(Reaches count (.finite peak) count p ∧ ¬Reaches count (.finite peak) (count + 1) p ∧
          Reaches count (.finite peak) (count + 1) q) := by
  rcases levels_cases count_pos bits peak_pos nonneg le with
    ⟨none, beyond⟩ | ⟨low, high, p_level, q_level, low_le, high_le, reaches⟩
  · rw [none]
    constructor
    · rintro ⟨a, b, -, hb, -⟩
      cases hb
    · rintro ⟨range, -⟩
      exact absurd beyond range.1
  · rw [p_level, q_level, Option.bind_some, Option.bind_some,
      collLevel_ordered_iff count_pos bits low_le high_le, InRange,
      (reaches (intMax + 1) (Nat.le_refl _)).2, (reaches intMax (by omega)).2,
      (reaches count (by omega)).1, (reaches (count + 1) (by omega)).1,
      (reaches (count + 1) (by omega)).2]

/-- Those of the matrix buckets are in order. -/
theorem matmul_ordered_iff (count_pos : 1 ≤ count) (bits : count ≤ intMax) (peak_pos : 0 < peak)
    (nonneg : .finite 0 ≤ p) (le : p ≤ q) :
    (∃ a b : Nat, (toInt (scaled count (.finite peak) p)).bind (matmulLevel count) = some a ∧
        (toInt (scaled count (.finite peak) q)).bind (matmulLevel count) = some b ∧
        1 ≤ a ∧ a ≤ b ∧ b ≤ count + 1) ↔ InRange count (.finite peak) q := by
  rcases levels_cases count_pos bits peak_pos nonneg le with
    ⟨none, beyond⟩ | ⟨low, high, p_level, q_level, low_le, high_le, reaches⟩
  · rw [none]
    constructor
    · rintro ⟨a, b, -, hb, -⟩
      cases hb
    · intro range
      exact absurd beyond range.1
  · rw [p_level, q_level, Option.bind_some, Option.bind_some,
      matmulLevel_ordered_iff bits low_le high_le, InRange,
      (reaches (intMax + 1) (Nat.le_refl _)).2, (reaches intMax (by omega)).2]

end

/-- The network's bandwidth, as the number it is divided by. -/
theorem bandwidth_eq : Double.ofNat 400 = .finite 400 := by
  rw [Double.ofNat_eq (by norm_num), Nat.cast_ofNat]

/-- A whole number of Gbps reaches a part as exact arithmetic says. -/
theorem reaches_whole {count n p : Nat} (count_pos : 1 ≤ count) (small : p * count < 2 ^ 53)
    (count_small : count < 2 ^ 53) (n_small : n ≤ intMax + 1) :
    Reaches count (.ofNat 400) n (.ofNat p) ↔ 400 * n ≤ p * count := by
  have p_small : p < 2 ^ 53 := (Nat.le_mul_of_pos_right p count_pos).trans_lt small
  have n_small' : n < 2 ^ 44 := by
    rw [intMax] at n_small
    omega
  have product : (Double.ofNat p).mul (.ofNat count) = .finite (p * count : ℕ) := by
    rw [Double.ofNat_eq p_small, Double.ofNat_eq count_small, Double.mul, ← Nat.cast_mul]
    exact Double.ofNat_eq small
  rw [Reaches, product, bandwidth_eq, Double.ofNat_eq (n_small'.trans (by norm_num)), Double.div,
    if_neg (by norm_num)]
  rw [Double.natCast_le_round (n_small'.trans (by norm_num))]
  generalize p * count = x at small
  constructor
  · intro reached
    by_contra below
    -- The quotient is below the part by more than the part's last bit.
    have quotient : (x : ℚ) / 400 ≤ ((512 * n - 1 : ℕ) : ℚ) * 2 ^ (-9 : ℤ) := by
      rw [div_le_iff₀ (by norm_num)]
      have : x * 512 ≤ (512 * n - 1) * 400 := by omega
      have cast : (x : ℚ) * 512 ≤ ((512 * n - 1 : ℕ) : ℚ) * 400 := by exact_mod_cast this
      norm_num
      linarith
    have rounded := roundDouble_mono (by positivity) quotient
    rw [roundDouble_exact (by omega) (by norm_num), Nat.cast_sub (by omega)] at rounded
    norm_num at rounded
    linarith
  · intro reached
    have part : (n : ℚ) ≤ x / 400 := by
      rw [le_div_iff₀ (by norm_num)]
      have cast : ((400 * n : ℕ) : ℚ) ≤ (x : ℕ) := by exact_mod_cast reached
      push_cast at cast
      linarith
    have rounded := roundDouble_mono (Nat.cast_nonneg n) part
    rwa [roundDouble_natCast (n_small'.trans (by norm_num))] at rounded

/-- The collective buckets' half of the theorem below, for the bandwidth that is set up. -/
theorem collBucketFn_ordered_iff {count : Nat} (mmCount : Nat) (count_pos : 1 ≤ count)
    (bits : count ≤ intMax) (label : LabelMap) {p q : Double} (nonneg : .finite 0 ≤ p) (le : p ≤ q)
    (size size' : Nat) :
    Ordered count (levelLabel (collBucketFn (.setUp count mmCount) p size label))
        (levelLabel (collBucketFn (.setUp count mmCount) q size' label)) ↔
      InRange count (.ofNat 400) q ∧
        ¬(Reaches count (.ofNat 400) count p ∧ ¬Reaches count (.ofNat 400) (count + 1) p ∧
          Reaches count (.ofNat 400) (count + 1) q) := by
  rw [levelLabel_coll, levelLabel_coll, ordered_map_iff]
  simp only [BvarMetricsConfig.setUp]
  rw [bandwidth_eq, coll_ordered_iff count_pos bits (by norm_num) nonneg le]

/-- The matrix buckets' half. -/
theorem matmulBucketFn_ordered_iff {count : Nat} (commCount : Nat) (count_pos : 1 ≤ count)
    (bits : count ≤ intMax) (peaks : Dict String Double) (label : LabelMap) {peak : ℚ}
    (peak_pos : 0 < peak)
    (hpeak : getGpuHardwareFlops peaks (readLabel label "dtype").1 = .finite peak) {p q : Double}
    (nonneg : .finite 0 ≤ p) (le : p ≤ q) (size size' : Nat) :
    Ordered count (levelLabel (matmulBucketFn (.setUp commCount count) peaks p size label))
        (levelLabel (matmulBucketFn (.setUp commCount count) peaks q size' label)) ↔
      InRange count (.finite peak) q := by
  rw [levelLabel_matmul, levelLabel_matmul, hpeak, ordered_map_iff]
  simp only [BvarMetricsConfig.setUp]
  rw [matmul_ordered_iff count_pos bits peak_pos nonneg le]

/-- The levels of two performances are in order and in range if they can be computed and not one is
in the top part of the bandwidth and the other beyond it. -/
theorem bucketLevels_iff (commCount mmCount : Nat) (hcomm : 1 ≤ commCount ∧ commCount ≤ intMax)
    (hmm : 1 ≤ mmCount ∧ mmCount ≤ intMax) (peaks : Dict String Double) (label : LabelMap)
    (peak : ℚ) (pos : 0 < peak)
    (hpeak : getGpuHardwareFlops peaks (readLabel label "dtype").1 = .finite peak)
    (p q : Double) (nonneg : .finite 0 ≤ p) (le : p ≤ q) (size size' : Nat) :
    Ordered commCount
        (levelLabel (collBucketFn (.setUp commCount mmCount) p size label))
        (levelLabel (collBucketFn (.setUp commCount mmCount) q size' label)) ∧
      Ordered mmCount
        (levelLabel (matmulBucketFn (.setUp commCount mmCount) peaks p size label))
        (levelLabel (matmulBucketFn (.setUp commCount mmCount) peaks q size' label)) ↔
    (InRange commCount (.ofNat 400) q ∧
        ¬(Reaches commCount (.ofNat 400) commCount p ∧
          ¬Reaches commCount (.ofNat 400) (commCount + 1) p ∧
          Reaches commCount (.ofNat 400) (commCount + 1) q)) ∧
      InRange mmCount (.finite peak) q := by
  rw [collBucketFn_ordered_iff mmCount hcomm.1 hcomm.2 label nonneg le,
    matmulBucketFn_ordered_iff commCount hmm.1 hmm.2 peaks label pos hpeak nonneg le]

/-- The defaults: 20 parts of the bandwidth and 10 of the peak of half precision. -/
theorem bucketLevels_iff_default :
    Ordered 20
        (levelLabel (collBucketFn (.setUp 20 10) (.finite 100) 0 .empty))
        (levelLabel (collBucketFn (.setUp 20 10) (.finite 200) 0 .empty)) ∧
      Ordered 10
        (levelLabel (matmulBucketFn (.setUp 20 10) .empty (.finite 100) 0 .empty))
        (levelLabel (matmulBucketFn (.setUp 20 10) .empty (.finite 200) 0 .empty)) ↔
    (InRange 20 (.ofNat 400) (.finite 200) ∧
        ¬(Reaches 20 (.ofNat 400) 20 (.finite 100) ∧
          ¬Reaches 20 (.ofNat 400) (20 + 1) (.finite 100) ∧
          Reaches 20 (.ofNat 400) (20 + 1) (.finite 200))) ∧
      InRange 10 (.finite 312) (.finite 200) := by
  have peak : getGpuHardwareFlops .empty (readLabel .empty "dtype").1 = .finite 312 := by
    rw [getGpuHardwareFlops, Dict.get?_eq_none_iff.mpr (Dict.not_mem_empty _), Option.getD_none,
      Double.ofNat_eq (by norm_num), Nat.cast_ofNat]
  exact bucketLevels_iff 20 10 (by norm_num [intMax]) (by norm_num [intMax]) .empty .empty 312
    (by norm_num) peak (.finite 100) (.finite 200) (Double.finite_le_finite.mpr (by norm_num))
    (Double.finite_le_finite.mpr (by norm_num)) 0 0

/-- Ten parts: 400 Gbps are labelled 11, but 440 Gbps are labelled 10. -/
theorem not_bucketLevels :
    ¬∀ (count : Nat) (p q : Double) (size : Nat) (label : LabelMap), 1 ≤ count → count ≤ intMax →
      .finite 0 ≤ p → p ≤ q → Ordered count
        (levelLabel (collBucketFn (.setUp count 10) p size label))
        (levelLabel (collBucketFn (.setUp count 10) q size label)) := by
  intro every
  have reaches : ∀ n p : Nat, n ≤ 11 → p ≤ 440 →
      (Reaches 10 (.ofNat 400) n (.ofNat p) ↔ 400 * n ≤ p * 10) := by
    intro n p hn hp
    exact reaches_whole (by norm_num) (by omega) (by norm_num) (by rw [intMax]; omega)
  have nonneg : Double.finite 0 ≤ .ofNat 400 := Double.round_nonneg (by norm_num)
  have le : Double.ofNat 400 ≤ .ofNat 440 := Double.round_mono (by norm_num) (by norm_num)
  have ordered := every 10 (.ofNat 400) (.ofNat 440) 0 .empty (by norm_num) (by norm_num [intMax])
    nonneg le
  rw [collBucketFn_ordered_iff 10 (by norm_num) (by norm_num [intMax]) .empty nonneg le,
    reaches 10 400 (by omega) (by omega), reaches (10 + 1) 400 (by omega) (by omega),
    reaches (10 + 1) 440 (by omega) (by omega)] at ordered
  exact ordered.2 (by omega)

/-! ### Kernels -/

/-- The level of a kernel: `getPerformance`, then `computeBucket`. -/
def kernelLevel (performanceFn : Nat → Nat → Double)
    (bucketFn : Double → Nat → LabelMap → Option (String × LabelMap)) (label : LabelMap)
    (latencyInUs problemSize : Nat) : Option String :=
  (getPerformance performanceFn latencyInUs problemSize).bind fun performance ↦
    levelLabel (computeBucket bucketFn performance problemSize label)

section

variable {count latencyInUs latencyInUs' problemSize q : Nat} (count_pos : 1 ≤ count)
  (bits : count ≤ intMax) (le : latencyInUs' ≤ latencyInUs)

include count_pos bits le

/-- The levels of a slower and a faster collective kernel of one size. -/
theorem kernelLevel_coll_ordered_iff (mmCount : Nat) (label : LabelMap)
    (kept : getPerformance collPerformance latencyInUs' problemSize = some q) :
    ∃ p ≤ q, getPerformance collPerformance latencyInUs problemSize = some p ∧
      (Ordered count
          (kernelLevel collPerformance (collBucketFn (.setUp count mmCount)) label latencyInUs
            problemSize)
          (kernelLevel collPerformance (collBucketFn (.setUp count mmCount)) label latencyInUs'
            problemSize) ↔
        InRange count (.ofNat 400) (.ofNat q) ∧
          ¬(Reaches count (.ofNat 400) count (.ofNat p) ∧
            ¬Reaches count (.ofNat 400) (count + 1) (.ofNat p) ∧
            Reaches count (.ofNat 400) (count + 1) (.ofNat q))) := by
  obtain ⟨p, p_le, slower⟩ := getPerformance_anti (.inl rfl) le kept
  refine ⟨p, p_le, slower, ?_⟩
  rw [kernelLevel, kernelLevel, slower, kept]
  exact collBucketFn_ordered_iff mmCount count_pos bits label
    (Double.round_nonneg (Nat.cast_nonneg p)) (Double.ofNat_mono p_le) problemSize problemSize

/-- Those of matrix kernels. -/
theorem kernelLevel_matmul_ordered_iff (commCount : Nat) (peaks : Dict String Double)
    (label : LabelMap) {peak : ℚ} (peak_pos : 0 < peak)
    (hpeak : getGpuHardwareFlops peaks (readLabel label "dtype").1 = .finite peak)
    (kept : getPerformance mmPerformance latencyInUs' problemSize = some q) :
    Ordered count
        (kernelLevel mmPerformance (matmulBucketFn (.setUp commCount count) peaks) label
          latencyInUs problemSize)
        (kernelLevel mmPerformance (matmulBucketFn (.setUp commCount count) peaks) label
          latencyInUs' problemSize) ↔
      InRange count (.finite peak) (.ofNat q) := by
  obtain ⟨p, p_le, slower⟩ := getPerformance_anti (.inr rfl) le kept
  rw [kernelLevel, kernelLevel, slower, kept]
  exact matmulBucketFn_ordered_iff commCount count_pos bits peaks label peak_pos hpeak
    (Double.round_nonneg (Nat.cast_nonneg p)) (Double.ofNat_mono p_le) problemSize problemSize

end

end ProbingBaselines.XpuTimer
