import SynapticBridge.CorrectionPatterns

/-! The score of a pattern against an intent vector, over all times and undo counts. It stays
within decay times penalty and falls with both, wherever the age of the pattern can be told. -/
namespace ScoreBounds

open Domain Cosine CorrectionPatterns CorrectionPattern

variable {p : CorrectionPattern ℝ} {v : List ℝ} {c d s now : ℝ}

section Factors

/-- The pattern with `n` undos on record. -/
def undone (p : CorrectionPattern ℝ) (n : ℕ) : CorrectionPattern ℝ :=
  { p with totalUndoCount := n }

theorem decay_antitone {a b : ℝ} (h : a ≤ b) : decay b ≤ decay a := by
  have hexp : Real.exp (-(69314718 / 100000000) * (b / (24 * 60 * 60)) / 30) ≤
      Real.exp (-(69314718 / 100000000) * (a / (24 * 60 * 60)) / 30) := by
    rw [Real.exp_le_exp]
    linarith
  exact max_le_max_left 0 (min_le_min_left 1 hexp)

/-- Clamping leaves a factor between zero and one. -/
theorem decayFactor_range (h : p.calculateDecayFactor now = .ok d) : 0 ≤ d ∧ d ≤ 1 := by
  rcases hstamp : p.lastUpdated.aware with _ | _
  · rw [decayFactor_naive hstamp] at h
    cases h
  · rw [decayFactor_aware hstamp] at h
    obtain rfl := Except.ok.inj h
    exact ⟨decay_nonneg _, decay_le_one _⟩

theorem undoPenalty_antitone (p : CorrectionPattern ℝ) {n n' : ℕ} (h : n ≤ n') :
    (undone p n').calculateUndoPenalty ≤ (undone p n).calculateUndoPenalty := by
  unfold calculateUndoPenalty undone
  split_ifs
  · exact le_rfl
  · have hrate : (n : ℝ) / p.occurrenceCount ≤ (n' : ℝ) / p.occurrenceCount := by gcongr
    exact max_le_max_left 0 (by linarith)

end Factors

section Scores

/-- What is scored is scored at its age. -/
theorem score_cases (h : p.matchesIntent v now = .ok s) :
    s = 0 ∨ v.length = p.intentVector.length ∧ ∃ d, p.calculateDecayFactor now = .ok d ∧
      s = cosine v p.intentVector * d * p.calculateUndoPenalty := by
  by_cases hscored : Unscored p v
  · rw [matchesIntent_unscored hscored] at h
    exact .inl (Except.ok.inj h).symm
  · rw [matchesIntent_scored hscored] at h
    cases hdecay : p.calculateDecayFactor now with
    | error e =>
      rw [hdecay] at h
      cases h
    | ok d =>
      rw [hdecay] at h
      have hlength := not_not.mp (not_or.mp hscored).1
      exact .inr ⟨hlength, d, rfl, (Except.ok.inj h).symm⟩

theorem factor_nonneg (h : p.calculateDecayFactor now = .ok d) :
    0 ≤ d * p.calculateUndoPenalty :=
  mul_nonneg (decayFactor_range h).1 (undoPenalty_range p).1

theorem factor_le_one (h : p.calculateDecayFactor now = .ok d) :
    d * p.calculateUndoPenalty ≤ 1 :=
  mul_le_one₀ (decayFactor_range h).2 (undoPenalty_range p).1 (undoPenalty_range p).2

theorem abs_score_le (hscore : p.matchesIntent v now = .ok s)
    (hdecay : p.calculateDecayFactor now = .ok d) : |s| ≤ d * p.calculateUndoPenalty := by
  have hfactor := factor_nonneg hdecay
  rcases score_cases hscore with rfl | ⟨hlength, d', hdecay', rfl⟩
  · rw [abs_zero]
    exact hfactor
  · obtain rfl := Except.ok.inj (hdecay'.symm.trans hdecay)
    rw [mul_assoc, abs_mul, abs_of_nonneg hfactor]
    exact mul_le_of_le_one_left hfactor (abs_cosine_le_one hlength)

theorem unscored_map_mul (hc : 0 < c) : Unscored p (v.map (c * ·)) ↔ Unscored p v := by
  rw [Unscored, Unscored, List.length_map, normSq_map_eq_zero hc]

theorem matchesIntent_map_mul (hc : 0 < c) (now : ℝ) :
    p.matchesIntent (v.map (c * ·)) now = p.matchesIntent v now := by
  by_cases hscored : Unscored p v
  · rw [matchesIntent_unscored hscored,
      matchesIntent_unscored ((unscored_map_mul hc).mpr hscored)]
  · rw [matchesIntent_scored hscored,
      matchesIntent_scored (fun h => hscored ((unscored_map_mul hc).mp h)), cosine_map_mul hc]

theorem matchesIntent_multiple (hc : 0 < c) (hp : normSq p.intentVector ≠ 0)
    (hdecay : p.calculateDecayFactor now = .ok d) :
    p.matchesIntent (p.intentVector.map (c * ·)) now = .ok (d * p.calculateUndoPenalty) := by
  have hscored : ¬ Unscored p p.intentVector := by
    simp [Unscored, hp]
  rw [matchesIntent_map_mul hc, matchesIntent_scored hscored, hdecay, cosine_self hp]
  simp [Except.map]

end Scores

/-- Both are scores, the second no higher. -/
def NoHigher (before after : Except PyException ℝ) : Prop :=
  ∃ s s', before = .ok s ∧ after = .ok s' ∧ s' ≤ s

/-- What a score promises: its bound, where the bound is reached, and the scale and the two
orders under which it moves one way. -/
structure Scores (p : CorrectionPattern ℝ) (v : List ℝ) : Prop where
  bounded : ∀ now, ∃ s, p.matchesIntent v now = .ok s ∧
    ∀ d, p.calculateDecayFactor now = .ok d →
      |s| ≤ d * p.calculateUndoPenalty ∧ d * p.calculateUndoPenalty ≤ 1
  attained : ∀ c now, 0 < c → normSq p.intentVector ≠ 0 → v = p.intentVector.map (c * ·) →
    ∃ d, p.calculateDecayFactor now = .ok d ∧
      p.matchesIntent v now = .ok (d * p.calculateUndoPenalty)
  scaled : ∀ c now, 0 < c → p.matchesIntent (v.map (c * ·)) now = p.matchesIntent v now
  older : (v.length = p.intentVector.length → 0 ≤ cosine v p.intentVector) →
    ∀ now now', now ≤ now' → NoHigher (p.matchesIntent v now) (p.matchesIntent v now')
  moreUndone : (v.length = p.intentVector.length → 0 ≤ cosine v p.intentVector) →
    ∀ now n n', n ≤ n' →
      NoHigher ((undone p n).matchesIntent v now) ((undone p n').matchesIntent v now)

section Promise

/-- Zeros before the age is needed keep every promise. -/
theorem Scores.of_unscored (h : Unscored p v) : Scores p v where
  bounded now := by
    refine ⟨0, matchesIntent_unscored h now, ?_⟩
    intro d hdecay
    exact ⟨abs_score_le (matchesIntent_unscored h now) hdecay, factor_le_one hdecay⟩
  attained := by
    intro c now hc hp hv
    rw [hv, unscored_map_mul hc] at h
    simp [Unscored, hp] at h
  scaled _ now hc := matchesIntent_map_mul hc now
  older _ now now' _ :=
    ⟨0, 0, matchesIntent_unscored h now, matchesIntent_unscored h now', le_rfl⟩
  moreUndone _ now n n' _ :=
    ⟨0, 0, matchesIntent_unscored (p := undone p n) h now,
      matchesIntent_unscored (p := undone p n') h now, le_rfl⟩

/-- So do patterns that know their time zone. -/
theorem Scores.of_aware (aware : p.lastUpdated.aware = true) : Scores p v := by
  by_cases hscored : Unscored p v
  · exact .of_unscored hscored
  have hscore : ∀ n now, (undone p n).matchesIntent v now =
      .ok (cosine v p.intentVector * decay (now - p.lastUpdated.seconds) *
        (undone p n).calculateUndoPenalty) := by
    intro n now
    rw [matchesIntent_scored (p := undone p n) hscored,
      decayFactor_aware (p := undone p n) aware]
    rfl
  have hlength : v.length = p.intentVector.length := not_not.mp (not_or.mp hscored).1
  constructor
  · intro now
    refine ⟨_, hscore p.totalUndoCount now, ?_⟩
    intro d hdecay
    exact ⟨abs_score_le (hscore p.totalUndoCount now) hdecay, factor_le_one hdecay⟩
  · rintro c now hc hp rfl
    exact ⟨_, decayFactor_aware aware now,
      matchesIntent_multiple hc hp (decayFactor_aware aware now)⟩
  · intro c now hc
    exact matchesIntent_map_mul hc now
  · intro similar now now' hle
    refine ⟨_, _, hscore p.totalUndoCount now, hscore p.totalUndoCount now', ?_⟩
    have hdecay := decay_antitone (sub_le_sub_right hle p.lastUpdated.seconds)
    exact mul_le_mul_of_nonneg_right (mul_le_mul_of_nonneg_left hdecay (similar hlength))
      (undoPenalty_range _).1
  · intro similar now n n' hle
    refine ⟨_, _, hscore n now, hscore n' now, ?_⟩
    exact mul_le_mul_of_nonneg_left (undoPenalty_antitone p hle)
      (mul_nonneg (similar hlength) (decay_nonneg _))

theorem Scores.defined (h : Scores p v) (now : ℝ) : ∃ s, p.matchesIntent v now = .ok s := by
  obtain ⟨s, hs, -⟩ := h.bounded now
  exact ⟨s, hs⟩

/-- The promises hold exactly where the age can be told or is not asked for. -/
theorem scores_iff (p : CorrectionPattern ℝ) (v : List ℝ) :
    Scores p v ↔ p.lastUpdated.aware = true ∨ Unscored p v := by
  constructor
  · intro h
    by_contra hcond
    obtain ⟨hstamp, hscored⟩ := not_or.mp hcond
    obtain ⟨s, hs⟩ := h.defined p.lastUpdated.seconds
    rw [matchesIntent_naive (Bool.not_eq_true _ ▸ hstamp) hscored] at hs
    cases hs
  · rintro (aware | hscored)
    · exact .of_aware aware
    · exact .of_unscored hscored

/-- A pattern as it comes back from a column without time zones. -/
def fetchedPattern : CorrectionPattern ℝ where
  patternId := "pattern_1"
  intentVector := [1]
  originalTools := ["bad.tool"]
  correctedTools := ["good.tool"]
  occurrenceCount := 1
  avgConfidenceImprovement := 0
  lastUpdated := ⟨0, false⟩
  totalUndoCount := 0

theorem fetched_not_scored : ¬ Scores fetchedPattern [1] := by
  intro h
  have hscored : ¬ Unscored fetchedPattern [1] := by
    simp [Unscored, fetchedPattern, normSq]
  obtain ⟨s, hs⟩ := h.defined 0
  rw [matchesIntent_naive rfl hscored] at hs
  cases hs

end Promise

end ScoreBounds
