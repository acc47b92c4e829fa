import SynapticBridge.CorrectionPatterns
import SynapticBridge.OrderedDict
import SynapticBridge.SampleDeviation
import Mathlib.Data.List.DropRight

/-! Drift of a tool's behavior. A score measures a sample against the window it has just joined;
anomalies are measured against the baseline, which was taken from an earlier window. -/
namespace DriftAlarms

open Domain OrderedDict SampleDeviation
open CorrectionPatterns (PyMath)

/-- The entries of the `behavior` dictionary that are read, each zero when it is missing. -/
structure Behavior (K : Type) where
  executionTimeMs : Option K
  memoryUsageMb : Option K
  errorRate : Option K
  returnValueSize : Option K

structure Sample (K : Type) where
  executionTimeMs : K
  memoryUsageMb : K
  errorRate : K
  returnValueSize : K
  timestamp : String

structure Stats (K : Type) where
  mean : K
  stdev : K
  count : ℕ
  min : K
  max : K

structure Baseline (K : Type) where
  executionTimeMs : Stats K
  errorRate : K
  updatedAt : String

structure Anomaly (K : Type) where
  index : ℕ
  type : String
  expected : K
  actual : K
  zScore : K
  timestamp : String

structure DriftDetector (K : Type) where
  windowSize : ℤ
  driftThreshold : K
  minSamples : ℤ
  baselines : Dict String (Baseline K)
  behaviorHistory : Dict String (List (Sample K))

def init {K : Type} (windowSize : ℤ) (driftThreshold : K) (minSamples : ℤ) : DriftDetector K :=
  ⟨windowSize, driftThreshold, minSamples, .empty, .empty⟩

section Detector

variable {K : Type}

def executionTimes (history : List (Sample K)) : List K := history.map (·.executionTimeMs)

/-- The tool's deque, made with `maxlen=self.window_size` when there is none yet. -/
def historyOf (dd : DriftDetector K) (toolName : String) :
    Except PyException (List (Sample K)) :=
  match dd.behaviorHistory.get? toolName with
  | some history => .ok history
  | none =>
    if dd.windowSize < 0 then .error (.valueError "maxlen must be non-negative") else .ok []

/-- `deque.append`: at full length the oldest sample falls out. -/
def append (windowSize : ℤ) (history : List (Sample K)) (s : Sample K) : List (Sample K) :=
  (history ++ [s]).rtake windowSize.toNat

variable [Field K]

def sample (behavior : Behavior K) (now : String) : Sample K where
  executionTimeMs := behavior.executionTimeMs.getD 0
  memoryUsageMb := behavior.memoryUsageMb.getD 0
  errorRate := behavior.errorRate.getD 0
  returnValueSize := behavior.returnValueSize.getD 0
  timestamp := now

variable [LinearOrder K]

def zScore (value mean stdev : K) : K := if stdev = 0 then 0 else (value - mean) / stdev

/-- `statistics.mean` of a tool's error rates. -/
def meanErrorRate (history : List (Sample K)) : Except PyException K :=
  if history = [] then .error (.other "StatisticsError" "mean requires at least one data point")
  else .ok (mean (history.map (·.errorRate)))

def errorDrift (baseline : Baseline K) (errorRate : K) : Option K :=
  if baseline.errorRate > 0 then some (|errorRate - baseline.errorRate| / baseline.errorRate)
  else none

/-- `max(drift_scores) if drift_scores else 0.0`. -/
def maxScore : List K → K
  | [] => 0
  | score :: scores => scores.foldl max score

variable [PyMath K]

/-- `statistics.stdev` is the root of the sample variance. -/
def getStats (values : List K) : Stats K where
  mean := mean values
  stdev := if 1 < values.length then
    PyMath.powHalf (spread values / ((values.length - 1 : ℕ) : K)) else 0
  count := values.length
  min := values.min?.getD 0
  max := values.max?.getD 0

def executionDrift (minSamples : ℤ) (history : List (Sample K)) (executionTime : K) : Option K :=
  let currentStats := getStats (executionTimes history)
  if minSamples ≤ currentStats.count then
    some |zScore executionTime currentStats.mean currentStats.stdev| else none

def driftScore (dd : DriftDetector K) (toolName : String) (history : List (Sample K))
    (s : Sample K) : K :=
  match dd.baselines.get? toolName with
  | none => 0
  | some baseline =>
    maxScore ((executionDrift dd.minSamples history s.executionTimeMs).toList ++
      (errorDrift baseline s.errorRate).toList)

/-- `now` is what the clock's `isoformat` says. -/
def checkDrift (dd : DriftDetector K) (toolName : String) (behavior : Behavior K)
    (now : String) : Except PyException K × DriftDetector K :=
  match historyOf dd toolName with
  | .error e => (.error e, dd)
  | .ok history =>
    let s := sample behavior now
    let window := append dd.windowSize history s
    (.ok (driftScore dd toolName window s),
      { dd with behaviorHistory := dd.behaviorHistory.set toolName window })

def updateBaseline (dd : DriftDetector K) (toolName now : String) :
    Except PyException Unit × DriftDetector K :=
  let history := (dd.behaviorHistory.get? toolName).getD []
  if (history.length : ℤ) < dd.minSamples then (.ok (), dd)
  else match meanErrorRate history with
    | .error e => (.error e, dd)
    | .ok errorRate =>
      (.ok (), { dd with
        baselines := dd.baselines.set toolName
          ⟨getStats (executionTimes history), errorRate, now⟩ })

/-- The anomaly that a behavior at some place of the history is reported as. -/
def anomaly? (driftThreshold : K) (stats : Stats K) (behavior : Sample K) (i : ℕ) :
    Option (Anomaly K) :=
  if stats.stdev > 0 then
    let z := (behavior.executionTimeMs - stats.mean) / stats.stdev
    if |z| > driftThreshold then
      some ⟨i, "execution_time", stats.mean, behavior.executionTimeMs, z, behavior.timestamp⟩
    else none
  else none

def detectAnomalies (dd : DriftDetector K) (toolName : String) : List (Anomaly K) :=
  match dd.behaviorHistory.get? toolName with
  | none => []
  | some history =>
    if (history.length : ℤ) < dd.minSamples then []
    else match dd.baselines.get? toolName with
      | none => []
      | some baseline => history.zipIdx.filterMap fun (behavior, i) =>
          anomaly? dd.driftThreshold baseline.executionTimeMs behavior i

/-- The states a detector can be in, also after calls that raised. -/
inductive Reachable : DriftDetector K → Prop where
  | init (windowSize : ℤ) (driftThreshold : K) (minSamples : ℤ) :
      Reachable (init windowSize driftThreshold minSamples)
  | checkDrift {dd : DriftDetector K} (toolName : String) (behavior : Behavior K)
      (now : String) : Reachable dd → Reachable (checkDrift dd toolName behavior now).2
  | updateBaseline {dd : DriftDetector K} (toolName now : String) :
      Reachable dd → Reachable (updateBaseline dd toolName now).2

end Detector

section History

variable {K : Type} {dd : DriftDetector K} {toolName : String} {baseline : Baseline K}

/-- A full window loses its oldest sample before the new one is appended. -/
theorem append_eq {windowSize : ℤ} (hsize : 0 < windowSize) (history : List (Sample K))
    (s : Sample K) :
    append windowSize history s = history.rtake (windowSize - 1).toNat ++ [s] := by
  have hsucc : windowSize.toNat = (windowSize - 1).toNat + 1 := by omega
  rw [append, hsucc, List.rtake_concat_succ]

theorem executionTimes_concat (history : List (Sample K)) (s : Sample K) :
    executionTimes (history ++ [s]) = executionTimes history ++ [s.executionTimeMs] := by
  simp [executionTimes]

structure Windows (dd : DriftDetector K) : Prop where
  bounded : ∀ toolName history, dd.behaviorHistory.get? toolName = some history →
    (history.length : ℤ) ≤ dd.windowSize
  observed : ∀ toolName baseline, dd.baselines.get? toolName = some baseline →
    ∃ history, dd.behaviorHistory.get? toolName = some history ∧ history ≠ []

theorem windows_init (windowSize : ℤ) (driftThreshold : K) (minSamples : ℤ) :
    Windows (init windowSize driftThreshold minSamples) where
  bounded := by
    intro toolName history h
    cases h
  observed := by
    intro toolName baseline h
    cases h

theorem append_length {windowSize : ℤ} (hsize : 0 ≤ windowSize) (history : List (Sample K))
    (s : Sample K) : ((append windowSize history s).length : ℤ) ≤ windowSize := by
  rw [append, List.rtake, List.length_drop]
  omega

theorem historyOf_size {history : List (Sample K)} (hw : Windows dd)
    (h : historyOf dd toolName = .ok history) : 0 ≤ dd.windowSize := by
  rw [historyOf] at h
  split at h
  · rename_i old hold
    have := hw.bounded toolName old hold
    omega
  · split_ifs at h with hneg
    omega

variable [Field K] [LinearOrder K] [PyMath K]

theorem Windows.checkDrift (hw : Windows dd) (toolName : String) (behavior : Behavior K)
    (now : String) : Windows (checkDrift dd toolName behavior now).2 := by
  rw [DriftAlarms.checkDrift]
  cases hhistory : historyOf dd toolName with
  | error e => exact hw
  | ok history =>
    have hsize := historyOf_size hw hhistory
    constructor
    · intro tool window h
      rw [Dict.get?_set] at h
      split_ifs at h with htool
      · obtain rfl := Option.some.inj h
        exact append_length hsize _ _
      · exact hw.bounded tool window h
    · intro tool baseline h
      obtain ⟨old, hold, hne⟩ := hw.observed tool baseline h
      rw [Dict.get?_set]
      split_ifs with htool
      · have hpos : 0 < dd.windowSize := by
          have hlength := hw.bounded tool old hold
          have := List.length_pos_iff.mpr hne
          omega
        refine ⟨_, rfl, ?_⟩
        rw [append_eq hpos]
        exact List.concat_ne_nil _ _
      · exact ⟨old, hold, hne⟩

theorem Windows.updateBaseline (hw : Windows dd) (toolName now : String) :
    Windows (updateBaseline dd toolName now).2 := by
  rw [DriftAlarms.updateBaseline]
  split_ifs with hfew
  · exact hw
  · rw [meanErrorRate]
    split_ifs with hempty
    · exact hw
    · refine ⟨hw.bounded, ?_⟩
      intro tool baseline h
      rw [Dict.get?_set] at h
      split_ifs at h with htool
      · subst htool
        cases hhistory : dd.behaviorHistory.get? tool with
        | none => simp [hhistory] at hempty
        | some history => exact ⟨history, rfl, by simpa [hhistory] using hempty⟩
      · exact hw.observed tool baseline h

theorem Reachable.windows (hr : Reachable dd) : Windows dd := by
  induction hr with
  | init windowSize driftThreshold minSamples => exact windows_init _ _ _
  | checkDrift toolName behavior now _ ih => exact ih.checkDrift toolName behavior now
  | updateBaseline toolName now _ ih => exact ih.updateBaseline toolName now

/-- The samples that a new one joins. -/
def older (dd : DriftDetector K) (toolName : String) : List (Sample K) :=
  ((dd.behaviorHistory.get? toolName).getD []).rtake (dd.windowSize - 1).toNat

/-- With a baseline the call always gives a score. -/
theorem Reachable.checkDrift_eq (hr : Reachable dd)
    (hb : dd.baselines.get? toolName = some baseline) (behavior : Behavior K) (now : String) :
    DriftAlarms.checkDrift dd toolName behavior now =
      (.ok (driftScore dd toolName (older dd toolName ++ [sample behavior now])
          (sample behavior now)),
        { dd with
          behaviorHistory := dd.behaviorHistory.set toolName
            (older dd toolName ++ [sample behavior now]) }) := by
  obtain ⟨history, hhistory, hne⟩ := hr.windows.observed toolName baseline hb
  have hpos : 0 < dd.windowSize := by
    have hlength := hr.windows.bounded toolName history hhistory
    have := List.length_pos_iff.mpr hne
    omega
  have hof : historyOf dd toolName = .ok history := by rw [historyOf, hhistory]
  rw [DriftAlarms.checkDrift, hof, older, hhistory, Option.getD_some]
  simp only [append_eq hpos]

end History

section Score

variable {K : Type} [LinearOrder K] {d : K}

theorem lt_foldl_max {score : K} {scores : List K} :
    d < scores.foldl max score ↔ d < score ∨ ∃ s ∈ scores, d < s := by
  induction scores generalizing score with
  | nil => simp
  | cons s scores ih =>
    rw [List.foldl_cons, ih, lt_max_iff, List.exists_mem_cons_iff, or_assoc]

variable [Field K]

theorem lt_maxScore_iff {scores : List K} (hnonneg : ∀ s ∈ scores, 0 ≤ s) :
    d < maxScore scores ↔ d < 0 ∨ ∃ s ∈ scores, d < s := by
  cases scores with
  | nil => simp [maxScore]
  | cons score scores =>
    rw [maxScore, lt_foldl_max, List.exists_mem_cons_iff]
    constructor
    · exact Or.inr
    · rintro (hneg | h)
      · exact .inl (hneg.trans_le (hnonneg score List.mem_cons_self))
      · exact h

variable [IsStrictOrderedRing K]

theorem errorDrift_nonneg {baseline : Baseline K} {errorRate s : K}
    (h : errorDrift baseline errorRate = some s) : 0 ≤ s := by
  rw [errorDrift] at h
  split_ifs at h with hpos
  obtain rfl := Option.some.inj h
  exact div_nonneg (abs_nonneg _) hpos.le

variable [PyMath K]

theorem executionDrift_nonneg {minSamples : ℤ} {history : List (Sample K)} {time s : K}
    (h : executionDrift minSamples history time = some s) : 0 ≤ s := by
  rw [executionDrift] at h
  split_ifs at h with hmin
  obtain rfl := Option.some.inj h
  exact abs_nonneg _

theorem lt_driftScore_iff {dd : DriftDetector K} {toolName : String} {baseline : Baseline K}
    (hb : dd.baselines.get? toolName = some baseline) {history : List (Sample K)}
    {s : Sample K} : d < driftScore dd toolName history s ↔ d < 0 ∨
      (∃ z ∈ executionDrift dd.minSamples history s.executionTimeMs, d < z) ∨
      ∃ e ∈ errorDrift baseline s.errorRate, d < e := by
  rw [driftScore, hb]
  simp only
  rw [lt_maxScore_iff]
  · simp only [List.mem_append, Option.mem_toList, Option.mem_def, or_and_right, exists_or]
  · intro score hscore
    rcases List.mem_append.mp hscore with h | h
    · exact executionDrift_nonneg (Option.mem_toList.mp h)
    · exact errorDrift_nonneg (Option.mem_toList.mp h)

end Score

section Alarms

variable {dd : DriftDetector ℝ} {toolName : String} {baseline : Baseline ℝ}
  {behavior : Behavior ℝ} {now : String} {d x : ℝ} {xs : List ℝ}

/-- The z-score that a value is given among those it joins. -/
noncomputable def joinedScore (xs : List ℝ) (x : ℝ) : ℝ :=
  zScore x (getStats (xs ++ [x])).mean (getStats (xs ++ [x])).stdev

theorem sq_joinedScore (xs : List ℝ) (x : ℝ) : joinedScore xs x ^ 2 =
    (x - mean (xs ++ [x])) ^ 2 / (spread (xs ++ [x]) / xs.length) := by
  have hstdev : (getStats (xs ++ [x])).stdev ^ 2 = spread (xs ++ [x]) / xs.length := by
    simp only [getStats, PyMath.powHalf, List.length_append, List.length_singleton,
      Nat.add_sub_cancel]
    split_ifs with hone
    · exact Real.sq_sqrt (div_nonneg (spread_nonneg _) (Nat.cast_nonneg _))
    · have hnone : xs.length = 0 := by omega
      simp [hnone]
  rw [joinedScore, zScore, ← hstdev]
  split_ifs with hzero
  · simp [hzero]
  · rw [div_pow]
    rfl

theorem executionDrift_concat (minSamples : ℤ) (history : List (Sample ℝ)) (s : Sample ℝ) :
    executionDrift minSamples (history ++ [s]) s.executionTimeMs =
      if minSamples ≤ (history ++ [s]).length then
        some |joinedScore (executionTimes history) s.executionTimeMs| else none := by
  rw [executionDrift, executionTimes_concat]
  simp [getStats, joinedScore, executionTimes]

/-- The new value lies more than `d` deviations of its window out, in terms of the values it
joins. -/
def FarFromWindow (d : ℝ) (xs : List ℝ) (x : ℝ) : Prop :=
  d ^ 2 * (xs.length + 1) ^ 2 * spread xs <
    xs.length * (xs.length ^ 2 - d ^ 2 * (xs.length + 1)) * (x - mean xs) ^ 2

def FarFromBaseline (d : ℝ) (stats : Stats ℝ) (x : ℝ) : Prop :=
  d * stats.stdev < |x - stats.mean|

theorem lt_joinedScore_iff (hd : 0 ≤ d) : d < |joinedScore xs x| ↔ FarFromWindow d xs x := by
  rw [FarFromWindow, ← lt_sq_score_iff (sq_nonneg d), ← sq_joinedScore, sq_lt_sq, abs_of_nonneg hd]

/-- The drift alarm: a score above the threshold. -/
def Alarmed (dd : DriftDetector ℝ) (toolName : String) (behavior : Behavior ℝ) (now : String) :
    Prop :=
  ∃ score, (checkDrift dd toolName behavior now).1 = .ok score ∧ dd.driftThreshold < score

/-- The anomaly alarm for the sample that was appended last. -/
def NewestListed (dd : DriftDetector ℝ) (toolName : String) : Prop :=
  ∃ history, dd.behaviorHistory.get? toolName = some history ∧
    ∃ a ∈ detectAnomalies dd toolName, a.index + 1 = history.length

theorem alarmed_iff (hr : Reachable dd) (hb : dd.baselines.get? toolName = some baseline)
    (herror : behavior.errorRate.getD 0 = baseline.errorRate)
    (hmin : dd.minSamples ≤ (older dd toolName ++ [sample behavior now]).length) :
    Alarmed dd toolName behavior now ↔ dd.driftThreshold < 0 ∨ FarFromWindow dd.driftThreshold
      (executionTimes (older dd toolName)) (behavior.executionTimeMs.getD 0) := by
  have hnone : ∀ e ∈ errorDrift baseline (sample behavior now).errorRate, e = 0 := by
    intro e he
    rw [Option.mem_def, sample, errorDrift, herror, sub_self, abs_zero, zero_div] at he
    split_ifs at he
    exact (Option.some.inj he).symm
  rw [Alarmed, hr.checkDrift_eq hb]
  simp only [Except.ok.injEq, exists_eq_left']
  rw [lt_driftScore_iff hb, executionDrift_concat, if_pos hmin]
  simp only [Option.mem_def, Option.some.injEq, exists_eq_left']
  rcases lt_or_ge dd.driftThreshold 0 with hneg | hpos
  · simp only [hneg, true_or]
  · rw [lt_joinedScore_iff hpos]
    constructor
    · rintro (hneg | hfar | ⟨e, he, hlt⟩)
      · exact .inl hneg
      · exact .inr hfar
      · exact .inl (hnone e he ▸ hlt)
    · rintro (hneg | hfar)
      · exact .inl hneg
      · exact .inr (.inl hfar)

theorem anomaly_index {stats : Stats ℝ} {s : Sample ℝ} {i : ℕ} {a : Anomaly ℝ}
    (h : anomaly? d stats s i = some a) : a.index = i := by
  simp only [anomaly?] at h
  split_ifs at h
  obtain rfl := Option.some.inj h
  rfl

theorem anomaly_iff {stats : Stats ℝ} {s : Sample ℝ} {i : ℕ} (hstdev : 0 < stats.stdev) :
    (∃ a, anomaly? d stats s i = some a) ↔ FarFromBaseline d stats s.executionTimeMs := by
  rw [FarFromBaseline, ← lt_div_iff₀ hstdev, ← abs_of_pos hstdev, ← abs_div,
    anomaly?, if_pos hstdev]
  simp

theorem newestListed_iff (hr : Reachable dd) (hb : dd.baselines.get? toolName = some baseline)
    (hstdev : 0 < baseline.executionTimeMs.stdev)
    (hmin : dd.minSamples ≤ (older dd toolName ++ [sample behavior now]).length) :
    NewestListed (checkDrift dd toolName behavior now).2 toolName ↔
      FarFromBaseline dd.driftThreshold baseline.executionTimeMs
        (behavior.executionTimeMs.getD 0) := by
  rw [hr.checkDrift_eq hb, NewestListed]
  simp only [Dict.get?_set_self, Option.some.injEq, exists_eq_left', detectAnomalies, hb,
    if_neg (not_lt.mpr hmin), List.mem_filterMap, Prod.exists, List.mem_zipIdx_iff_getElem?]
  constructor
  · rintro ⟨a, ⟨s, i, hs, ha⟩, hindex⟩
    have hlast : i = (older dd toolName).length := by
      rw [anomaly_index ha] at hindex
      simpa using hindex
    rw [hlast, List.getElem?_concat_length] at hs
    obtain rfl := Option.some.inj hs
    exact (anomaly_iff hstdev).mp ⟨a, ha⟩
  · intro hfar
    obtain ⟨a, ha⟩ := (anomaly_iff (s := sample behavior now)
      (i := (older dd toolName).length) hstdev).mpr hfar
    refine ⟨a, ⟨_, _, List.getElem?_concat_length, ha⟩, ?_⟩
    rw [anomaly_index ha]
    simp

/-- The alarms agree about a new sample exactly when it lies far from its own window just when it
lies far from the baseline, or the threshold is negative. -/
theorem alarms_agree_iff (hr : Reachable dd) (hb : dd.baselines.get? toolName = some baseline)
    (hstdev : 0 < baseline.executionTimeMs.stdev)
    (herror : behavior.errorRate.getD 0 = baseline.errorRate) {history : List (Sample ℝ)}
    (hhistory : (checkDrift dd toolName behavior now).2.behaviorHistory.get? toolName =
      some history) (hmin : dd.minSamples ≤ history.length) :
    (Alarmed dd toolName behavior now ↔
        NewestListed (checkDrift dd toolName behavior now).2 toolName) ↔
      dd.driftThreshold < 0 ∨
        (FarFromWindow dd.driftThreshold (executionTimes (older dd toolName))
            (behavior.executionTimeMs.getD 0) ↔
          FarFromBaseline dd.driftThreshold baseline.executionTimeMs
            (behavior.executionTimeMs.getD 0)) := by
  rw [hr.checkDrift_eq hb, Dict.get?_set_self] at hhistory
  obtain rfl := Option.some.inj hhistory
  rw [alarmed_iff hr hb herror hmin, newestListed_iff hr hb hstdev hmin]
  rcases lt_or_ge dd.driftThreshold 0 with hneg | hpos
  · have hfar : FarFromBaseline dd.driftThreshold baseline.executionTimeMs
        (behavior.executionTimeMs.getD 0) :=
      (mul_neg_of_neg_of_pos hneg hstdev).trans_le (abs_nonneg _)
    simp only [hneg, hfar, true_or]
  · simp only [not_lt.mpr hpos, false_or]

/-- The execution time's own score is bounded by the size of the window, so that in a window too
small for its threshold only the error rate raises the alarm. -/
theorem score_saturates (hr : Reachable dd) (hb : dd.baselines.get? toolName = some baseline)
    (behavior : Behavior ℝ) (now : String) {history : List (Sample ℝ)}
    (hhistory : (checkDrift dd toolName behavior now).2.behaviorHistory.get? toolName =
      some history) (hmin : dd.minSamples ≤ history.length) :
    ∃ z : ℝ, executionDrift dd.minSamples history (behavior.executionTimeMs.getD 0) = some |z| ∧
      z ^ 2 * history.length ≤ (history.length - 1) ^ 2 ∧
      (0 ≤ dd.driftThreshold →
        (history.length - 1 : ℝ) ^ 2 ≤ dd.driftThreshold ^ 2 * history.length →
        |z| ≤ dd.driftThreshold ∧ (Alarmed dd toolName behavior now →
          ∃ e ∈ errorDrift baseline (behavior.errorRate.getD 0), dd.driftThreshold < e)) := by
  rw [hr.checkDrift_eq hb, Dict.get?_set_self] at hhistory
  obtain rfl := Option.some.inj hhistory
  have hlength : ((older dd toolName ++ [sample behavior now]).length : ℝ) =
      (executionTimes (older dd toolName)).length + 1 := by
    simp [executionTimes]
  have hdrift := executionDrift_concat dd.minSamples (older dd toolName) (sample behavior now)
  rw [if_pos hmin] at hdrift
  have hbound := sq_score_le (executionTimes (older dd toolName)) (behavior.executionTimeMs.getD 0)
  rw [← sq_joinedScore, ← hlength] at hbound
  rw [hlength, add_sub_cancel_right, ← hlength]
  refine ⟨joinedScore _ _, hdrift, hbound, fun hd hsmall => ?_⟩
  have hle : |joinedScore (executionTimes (older dd toolName))
      (behavior.executionTimeMs.getD 0)| ≤ dd.driftThreshold := by
    have hpos : (0 : ℝ) < (older dd toolName ++ [sample behavior now]).length := by
      rw [hlength]
      positivity
    apply abs_le_of_sq_le_sq _ hd
    exact le_of_mul_le_mul_right (hbound.trans hsmall) hpos
  refine ⟨hle, ?_⟩
  rintro ⟨score, hscore, hlt⟩
  rw [hr.checkDrift_eq hb] at hscore
  obtain rfl := Except.ok.inj hscore
  rw [lt_driftScore_iff hb, hdrift] at hlt
  rcases hlt with hneg | ⟨z, hz, hlt⟩ | herror
  · exact absurd hneg (not_lt.mpr hd)
  · obtain rfl := Option.some.inj hz
    exact absurd hlt (not_lt.mpr hle)
  · exact herror

theorem errorDrift_pos_iff {errorRate : ℝ} (hlt : baseline.errorRate < errorRate) :
    (∃ e ∈ errorDrift baseline errorRate, 0 < e) ↔ 0 < baseline.errorRate := by
  rw [errorDrift]
  constructor
  · rintro ⟨e, he, -⟩
    split_ifs at he with hpos
    · exact hpos
    · cases he
  · intro hpos
    rw [if_pos hpos]
    exact ⟨_, rfl, div_pos (abs_pos.mpr (sub_pos.mpr hlt).ne') hpos⟩

theorem errorDrift_mono {errorRate errorRate' : ℝ} (hlt : baseline.errorRate < errorRate)
    (hle : errorRate ≤ errorRate') (h : ∃ e ∈ errorDrift baseline errorRate, d < e) :
    ∃ e ∈ errorDrift baseline errorRate', d < e := by
  obtain ⟨e, he, hde⟩ := h
  rw [errorDrift] at he ⊢
  split_ifs at he ⊢ with hpos
  · obtain rfl := Option.some.inj he
    refine ⟨_, rfl, hde.trans_le ?_⟩
    rw [abs_of_pos (sub_pos.mpr hlt), abs_of_pos (sub_pos.mpr (hlt.trans_le hle))]
    gcongr
  · cases he

theorem joinedScore_pos_iff :
    0 < |joinedScore xs x| ↔ xs ≠ [] ∧ x ≠ mean xs := by
  rw [lt_joinedScore_iff le_rfl, FarFromWindow, zero_pow two_ne_zero, zero_mul, zero_mul, zero_mul,
    sub_zero]
  rcases eq_or_ne xs [] with rfl | hne
  · simp
  · have hlength := length_pos (K := ℝ) hne
    rw [mul_pos_iff_of_pos_left (by positivity), sq_pos_iff, sub_ne_zero]
    simp [hne]

theorem score_pos_iff (hb : dd.baselines.get? toolName = some baseline) {s : Sample ℝ}
    (hlt : baseline.errorRate < s.errorRate) :
    0 < driftScore dd toolName (older dd toolName ++ [s]) s ↔ 0 < baseline.errorRate ∨
      dd.minSamples ≤ (older dd toolName).length + 1 ∧ older dd toolName ≠ [] ∧
        s.executionTimeMs ≠ mean (executionTimes (older dd toolName)) := by
  have hempty : executionTimes (older dd toolName) ≠ [] ↔ older dd toolName ≠ [] := by
    simp [executionTimes]
  rw [lt_driftScore_iff hb, errorDrift_pos_iff hlt, executionDrift_concat, ← hempty,
    ← joinedScore_pos_iff]
  simp only [lt_irrefl, false_or, List.length_append, List.length_singleton, Nat.cast_add,
    Nat.cast_one]
  split_ifs with hmin
  · simp only [Option.mem_def, Option.some.injEq, exists_eq_left', hmin, true_and, or_comm]
  · simp [hmin]

theorem score_mono (hb : dd.baselines.get? toolName = some baseline) {s s' : Sample ℝ}
    (htime : s.executionTimeMs = s'.executionTimeMs) (hlt : baseline.errorRate < s.errorRate)
    (hle : s.errorRate ≤ s'.errorRate) :
    driftScore dd toolName (older dd toolName ++ [s]) s ≤
      driftScore dd toolName (older dd toolName ++ [s']) s' := by
  apply le_of_forall_lt
  intro d hd
  rw [lt_driftScore_iff hb, executionDrift_concat] at hd ⊢
  rw [List.length_append, List.length_singleton] at hd ⊢
  rw [← htime]
  exact hd.imp_right (Or.imp_right (errorDrift_mono hlt hle))

/-- More errors than the baseline never lower the score, but over an error-free baseline only the
execution time can make it positive. -/
theorem error_drift_visible_iff (hr : Reachable dd)
    (hb : dd.baselines.get? toolName = some baseline) (behavior : Behavior ℝ)
    (now now' : String) {e e' : ℝ} (hlt : baseline.errorRate < e) (hle : e ≤ e') :
    (∃ score score', (checkDrift dd toolName { behavior with errorRate := some e } now).1 =
          .ok score ∧
        (checkDrift dd toolName { behavior with errorRate := some e' } now').1 = .ok score' ∧
        0 < score ∧ score ≤ score') ↔
      0 < baseline.errorRate ∨ dd.minSamples ≤ (older dd toolName).length + 1 ∧
        older dd toolName ≠ [] ∧
          behavior.executionTimeMs.getD 0 ≠ mean (executionTimes (older dd toolName)) := by
  rw [hr.checkDrift_eq hb, hr.checkDrift_eq hb]
  simp only [Except.ok.injEq, exists_and_left, exists_eq_left']
  refine (and_iff_left ?_).trans (score_pos_iff hb hlt)
  exact score_mono hb rfl hlt hle

end Alarms

/-! A tool whose baseline is taken from two samples. -/

noncomputable def sampleBehavior (time errorRate : ℝ) : Behavior ℝ :=
  ⟨some time, none, some errorRate, none⟩

noncomputable def sampleDetector (d time time' errorRate : ℝ) : DriftDetector ℝ :=
  (updateBaseline
    (checkDrift
      (checkDrift (init 100 d 2) "t" (sampleBehavior time errorRate) "").2
      "t" (sampleBehavior time' errorRate) "").2
    "t" "").2

theorem sampleDetector_reachable (d time time' errorRate : ℝ) :
    Reachable (sampleDetector d time time' errorRate) :=
  .updateBaseline _ _ (.checkDrift _ _ _ (.checkDrift _ _ _ (.init _ _ _)))

noncomputable def sampleBaseline (time time' errorRate : ℝ) : Baseline ℝ :=
  ⟨getStats [time, time'], mean [errorRate, errorRate], ""⟩

theorem sampleDetector_settings (d time time' errorRate : ℝ) :
    (sampleDetector d time time' errorRate).minSamples = 2 ∧
      (sampleDetector d time time' errorRate).driftThreshold = d := by
  simp [sampleDetector, updateBaseline, checkDrift, historyOf, init, append, meanErrorRate,
    List.rtake]

theorem sampleDetector_older (d time time' errorRate : ℝ) :
    older (sampleDetector d time time' errorRate) "t" =
      [sample (sampleBehavior time errorRate) "", sample (sampleBehavior time' errorRate) ""] := by
  simp [older, sampleDetector, updateBaseline, checkDrift, historyOf, init, append, meanErrorRate,
    List.rtake]

theorem sampleDetector_baseline (d time time' errorRate : ℝ) :
    (sampleDetector d time time' errorRate).baselines.get? "t" =
      some (sampleBaseline time time' errorRate) := by
  simp [sampleBaseline, sampleDetector, updateBaseline, checkDrift, historyOf, init, append,
    meanErrorRate, List.rtake, executionTimes, sample, sampleBehavior]

theorem sampleBaseline_stdev : (sampleBaseline 0 2 0).executionTimeMs.stdev = √2 := by
  norm_num [sampleBaseline, getStats, PyMath.powHalf, spread, mean]

/-- A new sample's window, when the new sample is the third. -/
theorem sampleDetector_history (d time time' errorRate : ℝ) (behavior : Behavior ℝ) :
    (checkDrift (sampleDetector d time time' errorRate) "t" behavior
      "").2.behaviorHistory.get? "t" = some [sample (sampleBehavior time errorRate) "",
        sample (sampleBehavior time' errorRate) "", sample behavior ""] := by
  rw [(sampleDetector_reachable d time time' errorRate).checkDrift_eq
    (sampleDetector_baseline d time time' errorRate), Dict.get?_set_self, sampleDetector_older]
  rfl

/-- Three samples are too few for a score above the threshold. -/
theorem sampleDetector_window (x : ℝ) : ¬ FarFromWindow (sampleDetector 2 0 2 0).driftThreshold
    (executionTimes (older (sampleDetector 2 0 2 0) "t")) x := by
  rw [(sampleDetector_settings 2 0 2 0).2, sampleDetector_older, FarFromWindow, not_lt]
  have hold : 0 ≤ spread (executionTimes
      [sample (sampleBehavior 0 0) "", sample (sampleBehavior 2 0) ""]) := spread_nonneg _
  have hsq := sq_nonneg (x - mean (executionTimes
      [sample (sampleBehavior 0 0) "", sample (sampleBehavior 2 0) ""]))
  norm_num [executionTimes] at hold hsq ⊢
  linarith

theorem sampleBaseline_stdev_pos : 0 < (sampleBaseline 0 2 0).executionTimeMs.stdev := by
  rw [sampleBaseline_stdev]
  positivity

/-- With a threshold of one, ninety-nine milliseconds above the mean are far from both. -/
theorem outlier_far :
    FarFromWindow (sampleDetector 1 0 2 0).driftThreshold
      (executionTimes (older (sampleDetector 1 0 2 0) "t")) 100 ∧
    FarFromBaseline (sampleDetector 1 0 2 0).driftThreshold
      (sampleBaseline 0 2 0).executionTimeMs 100 := by
  have hroot : √2 ≤ 2 := by
    rw [Real.sqrt_le_left (by norm_num)]
    norm_num
  rw [(sampleDetector_settings 1 0 2 0).2, sampleDetector_older]
  constructor
  · norm_num [FarFromWindow, executionTimes, sample, sampleBehavior, spread, mean]
  · rw [FarFromBaseline, sampleBaseline_stdev]
    norm_num [sampleBaseline, getStats, mean]
    linarith

/-- Between the samples of the baseline no alarm sounds, far above them both do. -/
theorem alarms_agree_sample :
    (Alarmed (sampleDetector 2 0 2 0) "t" (sampleBehavior 1 0) "" ↔
      NewestListed (checkDrift (sampleDetector 2 0 2 0) "t" (sampleBehavior 1 0) "").2 "t") ∧
    Alarmed (sampleDetector 1 0 2 0) "t" (sampleBehavior 100 0) "" ∧
    NewestListed (checkDrift (sampleDetector 1 0 2 0) "t" (sampleBehavior 100 0) "").2 "t" := by
  have herror (time : ℝ) :
      (sampleBehavior time 0).errorRate.getD 0 = (sampleBaseline 0 2 0).errorRate := by
    simp [sampleBehavior, sampleBaseline, mean]
  constructor
  · refine (alarms_agree_iff (sampleDetector_reachable 2 0 2 0) (sampleDetector_baseline 2 0 2 0)
      sampleBaseline_stdev_pos (herror 1) (sampleDetector_history 2 0 2 0 _) ?_).mpr
      (.inr (iff_of_false (sampleDetector_window _) ?_))
    · simp [sampleDetector_settings]
    · rw [FarFromBaseline, sampleBaseline_stdev, (sampleDetector_settings 2 0 2 0).2]
      norm_num [sampleBaseline, getStats, mean, sampleBehavior]
  · obtain ⟨hwindow, hbaseline⟩ := outlier_far
    have hagree := (alarms_agree_iff (sampleDetector_reachable 1 0 2 0)
      (sampleDetector_baseline 1 0 2 0) sampleBaseline_stdev_pos (herror 100)
      (sampleDetector_history 1 0 2 0 _) (by simp [sampleDetector_settings])).mpr
      (.inr (iff_of_true hwindow hbaseline))
    have halarmed : Alarmed (sampleDetector 1 0 2 0) "t" (sampleBehavior 100 0) "" := by
      refine (alarmed_iff (sampleDetector_reachable 1 0 2 0) (sampleDetector_baseline 1 0 2 0)
        (herror 100) ?_).mpr (.inr hwindow)
      simp [sampleDetector_settings, sampleDetector_older]
    exact ⟨halarmed, hagree.mp halarmed⟩

/-- Seventy deviations from the baseline, and no alarm. -/
theorem outlier_unscored : Reachable (sampleDetector 2 0 2 0) ∧
    (sampleDetector 2 0 2 0).baselines.get? "t" = some (sampleBaseline 0 2 0) ∧
    0 < (sampleBaseline 0 2 0).executionTimeMs.stdev ∧
    ¬ (Alarmed (sampleDetector 2 0 2 0) "t" (sampleBehavior 100 0) "" ↔
      NewestListed (checkDrift (sampleDetector 2 0 2 0) "t" (sampleBehavior 100 0) "").2 "t") := by
  refine ⟨sampleDetector_reachable 2 0 2 0, sampleDetector_baseline 2 0 2 0,
    sampleBaseline_stdev_pos, ?_⟩
  rw [alarmed_iff (sampleDetector_reachable 2 0 2 0) (sampleDetector_baseline 2 0 2 0),
    newestListed_iff (sampleDetector_reachable 2 0 2 0) (sampleDetector_baseline 2 0 2 0)
      sampleBaseline_stdev_pos]
  · intro hagree
    have hroot : √2 ≤ 2 := by
      rw [Real.sqrt_le_left (by norm_num)]
      norm_num
    have hfar : FarFromBaseline (sampleDetector 2 0 2 0).driftThreshold
        (sampleBaseline 0 2 0).executionTimeMs 100 := by
      rw [FarFromBaseline, sampleBaseline_stdev, (sampleDetector_settings 2 0 2 0).2]
      norm_num [sampleBaseline, getStats, mean]
      linarith
    rcases hagree.mpr hfar with hneg | hwindow
    · rw [(sampleDetector_settings 2 0 2 0).2] at hneg
      linarith
    · exact sampleDetector_window _ hwindow
  · simp [sampleDetector_settings, sampleDetector_older]
  · simp [sampleBehavior, sampleBaseline, mean]
  · simp [sampleDetector_settings, sampleDetector_older]

theorem score_saturates_sample : ∃ z : ℝ, executionDrift 2
    [sample (sampleBehavior 0 0) "", sample (sampleBehavior 2 0) "",
      sample (sampleBehavior 100 0) ""] 100 = some |z| ∧ z ^ 2 * 3 ≤ 4 ∧ |z| ≤ 2 := by
  obtain ⟨z, hz, hbound, hsmall⟩ := score_saturates (sampleDetector_reachable 2 0 2 0)
    (sampleDetector_baseline 2 0 2 0) (sampleBehavior 100 0) "" (sampleDetector_history 2 0 2 0 _)
    (by simp [sampleDetector_settings])
  rw [(sampleDetector_settings 2 0 2 0).1] at hz
  rw [(sampleDetector_settings 2 0 2 0).2] at hsmall
  norm_num at hbound hsmall
  exact ⟨z, hz, hbound, hsmall.1⟩

theorem error_drift_visible_sample : ∃ score score',
    (checkDrift (sampleDetector 2 5 5 1) "t" (sampleBehavior 5 2) "").1 = .ok score ∧
      (checkDrift (sampleDetector 2 5 5 1) "t" (sampleBehavior 5 3) "").1 = .ok score' ∧
      0 < score ∧ score ≤ score' :=
  (error_drift_visible_iff (sampleDetector_reachable 2 5 5 1) (sampleDetector_baseline 2 5 5 1)
    (sampleBehavior 5 0) "" "" (by norm_num [sampleBaseline, mean]) (by norm_num)).mpr
    (.inl (by norm_num [sampleBaseline, mean]))

/-- Half of the calls fail where none did, and the score is that of no drift. -/
theorem error_drift_unseen : Reachable (sampleDetector 2 5 5 0) ∧
    (sampleDetector 2 5 5 0).baselines.get? "t" = some (sampleBaseline 5 5 0) ∧
    (sampleBaseline 5 5 0).errorRate = 0 ∧ ∀ score,
      (checkDrift (sampleDetector 2 5 5 0) "t" (sampleBehavior 5 (1 / 2)) "").1 = .ok score →
      ¬ 0 < score := by
  refine ⟨sampleDetector_reachable 2 5 5 0, sampleDetector_baseline 2 5 5 0, ?_, ?_⟩
  · simp [sampleBaseline, mean]
  · intro score hscore hpos
    rw [(sampleDetector_reachable 2 5 5 0).checkDrift_eq
      (sampleDetector_baseline 2 5 5 0)] at hscore
    obtain rfl := Except.ok.inj hscore
    rw [score_pos_iff (sampleDetector_baseline 2 5 5 0), sampleDetector_older] at hpos
    · norm_num [sampleBaseline, mean, sample, sampleBehavior, executionTimes] at hpos
    · norm_num [sampleBaseline, mean, sample, sampleBehavior]

end DriftAlarms
