import SynapticBridge.Cosine
import SynapticBridge.Domain
import Mathlib.Analysis.SpecialFunctions.Exp

/-! Correction patterns and the score a pattern gives an intent vector. Scoring reads
the clock once and may raise; over the reals it is cosine times decay times penalty. -/
namespace CorrectionPatterns

open Domain Cosine

/-- `math.exp`, which may overflow, and `x ** 0.5` for sums of squares. -/
class PyMath (K : Type) where
  exp : K → Except PyException K
  powHalf : K → K

noncomputable instance : PyMath ℝ where
  exp x := .ok (Real.exp x)
  powHalf := Real.sqrt

structure CorrectionPattern (K : Type) where
  patternId : String
  intentVector : List K
  originalTools : List String
  correctedTools : List String
  occurrenceCount : ℕ
  avgConfidenceImprovement : K
  lastUpdated : DateTime K
  totalUndoCount : ℕ

section Pattern

variable {K : Type} [Field K] [LinearOrder K]

def PATTERN_DECAY_HALF_LIFE_DAYS : K := 30

namespace CorrectionPattern

def withIncrement (p : CorrectionPattern K) (confidenceImprovement now : K) :
    CorrectionPattern K :=
  { p with
    occurrenceCount := p.occurrenceCount + 1
    avgConfidenceImprovement :=
      (p.avgConfidenceImprovement * p.occurrenceCount + confidenceImprovement) /
        ((p.occurrenceCount + 1 : ℕ) : K)
    lastUpdated := utc now }

def withUndo (p : CorrectionPattern K) (now : K) : CorrectionPattern K :=
  { p with
    totalUndoCount := p.totalUndoCount + 1
    lastUpdated := utc now }

def calculateDecayFactor [PyMath K] (p : CorrectionPattern K) (now : K) :
    Except PyException K := do
  let ageSeconds ← (utc now).sub p.lastUpdated
  let ageDays := ageSeconds / (24 * 60 * 60)
  let decayFactor ← PyMath.exp
    (-(69314718 / 100000000) * ageDays / PATTERN_DECAY_HALF_LIFE_DAYS)
  return max 0 (min 1 decayFactor)

def calculateUndoPenalty (p : CorrectionPattern K) : K :=
  if p.occurrenceCount = 0 then 1
  else max 0 (1 - (p.totalUndoCount : K) / p.occurrenceCount)

def matchesIntent [PyMath K] (p : CorrectionPattern K) (intentVector : List K) (now : K) :
    Except PyException K :=
  if intentVector.length ≠ p.intentVector.length then .ok 0
  else
    let dotProduct := dot intentVector p.intentVector
    let magA := PyMath.powHalf (normSq intentVector)
    let magB := PyMath.powHalf (normSq p.intentVector)
    if magA = 0 ∨ magB = 0 then .ok 0
    else do
      let rawSimilarity := dotProduct / (magA * magB)
      let decayFactor ← p.calculateDecayFactor now
      return rawSimilarity * decayFactor * p.calculateUndoPenalty

end CorrectionPattern

end Pattern

open CorrectionPattern

/-- `max(0, min(1, exp(-0.69314718 * age_days / 30)))` for an age in seconds. -/
noncomputable def decay (ageSeconds : ℝ) : ℝ :=
  max 0 (min 1 (Real.exp (-(69314718 / 100000000) * (ageSeconds / (24 * 60 * 60)) / 30)))

theorem decay_nonneg (a : ℝ) : 0 ≤ decay a := le_max_left _ _
theorem decay_le_one (a : ℝ) : decay a ≤ 1 := max_le zero_le_one (min_le_left _ _)

theorem decay_of_nonneg {a : ℝ} (h : 0 ≤ a) :
    decay a = Real.exp (-(69314718 / 100000000) * (a / (24 * 60 * 60)) / 30) := by
  have he : Real.exp (-(69314718 / 100000000) * (a / (24 * 60 * 60)) / 30) ≤ 1 := by
    rw [Real.exp_le_one_iff]
    linarith
  rw [decay, min_eq_right he, max_eq_right (Real.exp_pos _).le]

@[simp] theorem decay_zero : decay 0 = 1 := by
  simp [decay_of_nonneg le_rfl]

theorem decay_strictAnti {a b : ℝ} (ha : 0 ≤ a) (h : a < b) : decay b < decay a := by
  rw [decay_of_nonneg ha, decay_of_nonneg (ha.trans h.le), Real.exp_lt_exp]
  linarith

theorem undoPenalty_range (p : CorrectionPattern ℝ) :
    0 ≤ p.calculateUndoPenalty ∧ p.calculateUndoPenalty ≤ 1 := by
  unfold calculateUndoPenalty
  split_ifs
  · exact ⟨zero_le_one, le_rfl⟩
  · refine ⟨le_max_left _ _, max_le zero_le_one ?_⟩
    have : 0 ≤ (p.totalUndoCount : ℝ) / p.occurrenceCount := by positivity
    linarith

theorem undoPenalty_of_no_undo {p : CorrectionPattern ℝ} (h : p.totalUndoCount = 0) :
    p.calculateUndoPenalty = 1 := by
  unfold calculateUndoPenalty
  simp [h]

theorem calculateDecayFactor_utc (p : CorrectionPattern ℝ) (t now : ℝ)
    (h : p.lastUpdated = utc t) : p.calculateDecayFactor now = .ok (decay (now - t)) := by
  simp only [calculateDecayFactor, h, DateTime.sub, utc, if_true, PyMath.exp, decay,
    PATTERN_DECAY_HALF_LIFE_DAYS]
  rfl

/-- A pattern stamped in UTC is always scored, and vectors of unequal length or zero
magnitude score zero, as they have no cosine. -/
theorem matchesIntent_utc (p : CorrectionPattern ℝ) (v : List ℝ) (t now : ℝ)
    (h : p.lastUpdated = utc t) :
    p.matchesIntent v now = .ok (if v.length = p.intentVector.length then
      cosine v p.intentVector * decay (now - t) * p.calculateUndoPenalty else 0) := by
  unfold matchesIntent
  by_cases hlen : v.length = p.intentVector.length
  · rw [if_neg (not_not.mpr hlen), if_pos hlen]
    simp only [PyMath.powHalf]
    split_ifs with hz
    · have hc : cosine v p.intentVector = 0 := by
        rw [cosine, mul_eq_zero.mpr hz, div_zero]
      rw [hc]
      simp
    · rw [calculateDecayFactor_utc p t now h]
      rfl
  · rw [if_pos hlen, if_neg hlen]

section Scored

variable {p : CorrectionPattern ℝ} {v : List ℝ} {now : ℝ}

theorem decayFactor_aware (aware : p.lastUpdated.aware = true) (now : ℝ) :
    p.calculateDecayFactor now = .ok (decay (now - p.lastUpdated.seconds)) := by
  apply calculateDecayFactor_utc
  rw [utc, ← aware]

theorem decayFactor_naive (naive : p.lastUpdated.aware = false) (now : ℝ) :
    p.calculateDecayFactor now =
      .error (.typeError "can't subtract offset-naive and offset-aware datetimes") := by
  have hsub : (utc now).sub p.lastUpdated =
      .error (.typeError "can't subtract offset-naive and offset-aware datetimes") := by
    rw [DateTime.sub, naive]
    rfl
  rw [calculateDecayFactor, hsub]
  rfl

/-- The vectors have no cosine, so zero is returned before the clock is read. -/
def Unscored (p : CorrectionPattern ℝ) (v : List ℝ) : Prop :=
  v.length ≠ p.intentVector.length ∨ normSq v = 0 ∨ normSq p.intentVector = 0

theorem matchesIntent_unscored (h : Unscored p v) (now : ℝ) : p.matchesIntent v now = .ok 0 := by
  unfold matchesIntent
  rcases h with hlength | hnorm
  · rw [if_pos hlength]
  · have hguard : √(normSq v) = 0 ∨ √(normSq p.intentVector) = 0 := by
      rcases hnorm with hnorm | hnorm
      · exact .inl (by rw [hnorm, Real.sqrt_zero])
      · exact .inr (by rw [hnorm, Real.sqrt_zero])
    simp only [PyMath.powHalf, hguard, if_true, ite_self]

theorem matchesIntent_scored (h : ¬ Unscored p v) (now : ℝ) :
    p.matchesIntent v now = (p.calculateDecayFactor now).map fun d =>
      cosine v p.intentVector * d * p.calculateUndoPenalty := by
  obtain ⟨hlength, hv, hp⟩ : v.length = p.intentVector.length ∧ normSq v ≠ 0 ∧
      normSq p.intentVector ≠ 0 := by
    simpa only [Unscored, not_or, not_not] using h
  have hguard : ¬ (√(normSq v) = 0 ∨ √(normSq p.intentVector) = 0) := by
    simp [Real.sqrt_eq_zero (normSq_nonneg _), hv, hp]
  unfold matchesIntent
  simp only [PyMath.powHalf]
  rw [if_neg (not_not.mpr hlength), if_neg hguard]
  cases p.calculateDecayFactor now <;> rfl

/-- A score without a time zone raises. -/
theorem matchesIntent_naive (naive : p.lastUpdated.aware = false) (h : ¬ Unscored p v) :
    p.matchesIntent v now =
      .error (.typeError "can't subtract offset-naive and offset-aware datetimes") := by
  rw [matchesIntent_scored h, decayFactor_naive naive]
  rfl

end Scored

/-- No pattern scores above its decay. -/
theorem score_le_decay {p : CorrectionPattern ℝ} {v : List ℝ} {t now s : ℝ}
    (h : p.lastUpdated = utc t) (hs : p.matchesIntent v now = .ok s) : s ≤ decay (now - t) := by
  rw [matchesIntent_utc p v t now h] at hs
  have hd := decay_nonneg (now - t)
  obtain ⟨hp, hp'⟩ := undoPenalty_range p
  obtain rfl := Except.ok.inj hs
  split_ifs with hlen
  · have hc := cosine_le_one hlen
    calc cosine v p.intentVector * decay (now - t) * p.calculateUndoPenalty
        ≤ 1 * decay (now - t) * p.calculateUndoPenalty :=
          mul_le_mul_of_nonneg_right (mul_le_mul_of_nonneg_right hc hd) hp
      _ ≤ 1 * decay (now - t) * 1 := mul_le_mul_of_nonneg_left hp' (by simpa using hd)
      _ = decay (now - t) := by ring
  · exact hd

/-- The vector a pattern was learned from scores exactly its decay, until it is undone. -/
theorem score_self {p : CorrectionPattern ℝ} {t now : ℝ} (h : p.lastUpdated = utc t)
    (hv : normSq p.intentVector ≠ 0) (hu : p.totalUndoCount = 0) :
    p.matchesIntent p.intentVector now = .ok (decay (now - t)) := by
  rw [matchesIntent_utc p _ t now h, if_pos rfl, cosine_self hv, undoPenalty_of_no_undo hu]
  simp

end CorrectionPatterns
