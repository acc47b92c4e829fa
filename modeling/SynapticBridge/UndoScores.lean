import SynapticBridge.CorrectionPatterns
import Mathlib.Analysis.SpecialFunctions.Log.Basic

/-! One undo against the score of its pattern. The undo lowers the penalty factor but also
stamps the pattern anew, so the decay of the pattern starts over. -/
namespace UndoScores

open Domain Cosine CorrectionPatterns CorrectionPattern

theorem undoPenalty_eq {p : CorrectionPattern ℝ} (occurred : 1 ≤ p.occurrenceCount) :
    p.calculateUndoPenalty =
      ((p.occurrenceCount - p.totalUndoCount : ℕ) : ℝ) / p.occurrenceCount := by
  have hpos : (0 : ℝ) < p.occurrenceCount := by exact_mod_cast occurred
  have hsub : 1 - (p.totalUndoCount : ℝ) / p.occurrenceCount =
      ((p.occurrenceCount : ℝ) - p.totalUndoCount) / p.occurrenceCount := by
    rw [sub_div, div_self hpos.ne']
  rw [calculateUndoPenalty, if_neg (Nat.one_le_iff_ne_zero.mp occurred), hsub]
  rcases le_total p.totalUndoCount p.occurrenceCount with hle | hle
  · have hcast : (p.totalUndoCount : ℝ) ≤ p.occurrenceCount := by exact_mod_cast hle
    rw [Nat.cast_sub hle]
    exact max_eq_right (div_nonneg (sub_nonneg.mpr hcast) hpos.le)
  · have hcast : (p.occurrenceCount : ℝ) ≤ p.totalUndoCount := by exact_mod_cast hle
    rw [Nat.sub_eq_zero_of_le hle, Nat.cast_zero, zero_div]
    exact max_eq_left (div_nonpos_of_nonpos_of_nonneg (sub_nonpos.mpr hcast) hpos.le)

theorem le_decay_iff {share age : ℝ} (hshare : 0 < share) (hage : 0 ≤ age) :
    share ≤ decay age ↔
      69314718 / 100000000 * (age / (24 * 60 * 60)) / 30 ≤ Real.log (share⁻¹) := by
  rw [decay_of_nonneg hage, ← Real.log_le_iff_le_exp hshare, Real.log_inv, neg_mul, neg_div]
  exact le_neg

section Scores

variable {p : CorrectionPattern ℝ} {v : List ℝ} {updated now : ℝ}

/-- Both patterns are scored at the reading of the undo, the undone one no higher. -/
def NotRaised (p : CorrectionPattern ℝ) (v : List ℝ) (now : ℝ) : Prop :=
  ∃ before after, p.matchesIntent v now = .ok before ∧
    (p.withUndo now).matchesIntent v now = .ok after ∧ after ≤ before

theorem undone_score (p : CorrectionPattern ℝ) (v : List ℝ) (now : ℝ) :
    (p.withUndo now).matchesIntent v now = .ok (if v.length = p.intentVector.length then
      cosine v p.intentVector * (p.withUndo now).calculateUndoPenalty else 0) := by
  rw [matchesIntent_utc (p.withUndo now) v now now rfl, sub_self, decay_zero, mul_one]
  rfl

theorem notRaised_of_scores {before after : ℝ} (hbefore : p.matchesIntent v now = .ok before)
    (hafter : (p.withUndo now).matchesIntent v now = .ok after) :
    NotRaised p v now ↔ after ≤ before := by
  constructor
  · rintro ⟨s, s', hs, hs', hle⟩
    obtain rfl := Except.ok.inj (hs.symm.trans hbefore)
    obtain rfl := Except.ok.inj (hs'.symm.trans hafter)
    exact hle
  · exact fun hle => ⟨before, after, hbefore, hafter, hle⟩

/-- Unless the vectors score zero, one undo must cost at least what has decayed. -/
theorem notRaised_iff (stamped : p.lastUpdated = utc updated)
    (similar : v.length = p.intentVector.length → 0 ≤ cosine v p.intentVector) :
    NotRaised p v now ↔
      v.length ≠ p.intentVector.length ∨ dot v p.intentVector = 0 ∨
        (p.withUndo now).calculateUndoPenalty ≤
          decay (now - updated) * p.calculateUndoPenalty := by
  rw [notRaised_of_scores (matchesIntent_utc p v updated now stamped) (undone_score p v now)]
  by_cases hlen : v.length = p.intentVector.length
  · rw [if_pos hlen, if_pos hlen, ← cosine_eq_zero hlen, mul_assoc]
    rcases (similar hlen).eq_or_lt with hzero | hpos
    · simp [← hzero]
    · rw [mul_le_mul_iff_right₀ hpos]
      simp [hlen, hpos.ne']
  · simp [hlen]

end Scores

theorem penalty_le_iff {p : CorrectionPattern ℝ} {now age : ℝ} (occurred : 1 ≤ p.occurrenceCount)
    (hage : 0 ≤ age) :
    (p.withUndo now).calculateUndoPenalty ≤ decay age * p.calculateUndoPenalty ↔
      p.occurrenceCount ≤ p.totalUndoCount + 1 ∨
        69314718 / 100000000 * (age / (24 * 60 * 60)) / 30 ≤
          Real.log (((p.occurrenceCount : ℝ) - p.totalUndoCount) /
            (p.occurrenceCount - p.totalUndoCount - 1)) := by
  have hpos : (0 : ℝ) < p.occurrenceCount := by exact_mod_cast occurred
  have hundone : (p.withUndo now).calculateUndoPenalty =
      ((p.occurrenceCount - (p.totalUndoCount + 1) : ℕ) : ℝ) / p.occurrenceCount :=
    undoPenalty_eq (p := p.withUndo now) occurred
  rw [hundone, undoPenalty_eq occurred, ← mul_div_assoc, div_le_div_iff_of_pos_right hpos]
  rcases le_or_gt p.occurrenceCount (p.totalUndoCount + 1) with hle | hlt
  · rw [Nat.sub_eq_zero_of_le hle, Nat.cast_zero]
    exact iff_of_true (mul_nonneg (decay_nonneg age) (Nat.cast_nonneg _)) (.inl hle)
  · -- `left` uses remain after the undo, one more before it
    obtain ⟨left, hleft⟩ := Nat.exists_eq_add_of_lt hlt
    have hbefore : p.occurrenceCount - p.totalUndoCount = left + 2 := by omega
    have hafter : p.occurrenceCount - (p.totalUndoCount + 1) = left + 1 := by omega
    have hcast : (p.occurrenceCount : ℝ) - p.totalUndoCount = left + 2 := by
      rw [hleft]
      push_cast
      ring
    have hone : (left : ℝ) + 2 - 1 = left + 1 := by ring
    have hshare : (0 : ℝ) < (left + 1) / (left + 2) := by positivity
    have hiff := le_decay_iff hshare hage
    rw [inv_div, div_le_iff₀ (by positivity)] at hiff
    rw [hbefore, hafter, hcast, hone]
    push_cast
    rw [hiff]
    exact ⟨.inr, fun h => h.resolve_left (by omega)⟩

/-- An undo does not raise the score exactly when the vectors score zero, no counted use
remains, or the pattern is younger than the undo costs. -/
theorem undo_not_raised_iff (p : CorrectionPattern ℝ) (v : List ℝ) (updated now : ℝ)
    (stamped : p.lastUpdated = utc updated) (order : updated ≤ now)
    (occurred : 1 ≤ p.occurrenceCount)
    (similar : v.length = p.intentVector.length → 0 ≤ cosine v p.intentVector) :
    NotRaised p v now ↔
      v.length ≠ p.intentVector.length ∨ dot v p.intentVector = 0 ∨
        p.occurrenceCount ≤ p.totalUndoCount + 1 ∨
        69314718 / 100000000 * ((now - updated) / (24 * 60 * 60)) / 30 ≤
          Real.log (((p.occurrenceCount : ℝ) - p.totalUndoCount) /
            (p.occurrenceCount - p.totalUndoCount - 1)) := by
  rw [notRaised_iff stamped similar, penalty_le_iff occurred (sub_nonneg.mpr order)]

/-! Ten uses and no undo, unused for sixty days. -/

def restingPattern : CorrectionPattern ℝ where
  patternId := "pattern_1"
  intentVector := [1, 0, 0]
  originalTools := ["bad.tool"]
  correctedTools := ["good.tool"]
  occurrenceCount := 10
  avgConfidenceImprovement := 0
  lastUpdated := utc 0
  totalUndoCount := 0

theorem restingPattern_similar : 0 ≤ cosine [1, 0, 0] restingPattern.intentVector := by
  rw [restingPattern, cosine_self (by simp [normSq])]
  exact zero_le_one

theorem undo_not_raised_young :
    NotRaised restingPattern [1, 0, 0] 0 ↔
      [1, 0, 0].length ≠ restingPattern.intentVector.length ∨
        dot [1, 0, 0] restingPattern.intentVector = 0 ∨
        restingPattern.occurrenceCount ≤ restingPattern.totalUndoCount + 1 ∨
        69314718 / 100000000 * ((0 - 0) / (24 * 60 * 60)) / 30 ≤
          Real.log (((restingPattern.occurrenceCount : ℝ) - restingPattern.totalUndoCount) /
            (restingPattern.occurrenceCount - restingPattern.totalUndoCount - 1)) :=
  undo_not_raised_iff restingPattern [1, 0, 0] 0 0 rfl le_rfl (by decide)
    (fun _ => restingPattern_similar)

theorem undo_raises_resting :
    restingPattern.lastUpdated = utc 0 ∧ 1 ≤ restingPattern.occurrenceCount ∧
      0 ≤ cosine [1, 0, 0] restingPattern.intentVector ∧
      ¬ NotRaised restingPattern [1, 0, 0] (60 * (24 * 60 * 60)) := by
  refine ⟨rfl, by decide, restingPattern_similar, ?_⟩
  have hdecay : decay (60 * (24 * 60 * 60) - 0) < 9 / 10 := by
    have hexp := Real.add_one_le_exp (69314718 / 100000000 * 2 : ℝ)
    have hneg : (-(69314718 / 100000000) * ((60 * (24 * 60 * 60) - 0) / (24 * 60 * 60)) / 30 : ℝ) =
        -(69314718 / 100000000 * 2) := by norm_num
    rw [decay_of_nonneg (by norm_num), hneg, Real.exp_neg]
    exact inv_lt_of_inv_lt₀ (by norm_num) (by linarith)
  have hbefore : restingPattern.calculateUndoPenalty = 1 := undoPenalty_of_no_undo rfl
  have hafter : (restingPattern.withUndo (60 * (24 * 60 * 60))).calculateUndoPenalty = 9 / 10 := by
    rw [undoPenalty_eq (by decide)]
    norm_num [restingPattern, withUndo]
  rw [notRaised_iff rfl fun _ => restingPattern_similar, hbefore, hafter, mul_one]
  rintro (hlen | hdot | hle)
  · exact hlen rfl
  · norm_num [restingPattern, dot] at hdot
  · exact absurd hdecay (not_lt.mpr hle)

end UndoScores
