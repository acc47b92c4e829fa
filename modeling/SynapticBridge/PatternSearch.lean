import SynapticBridge.RankedSelection
import SynapticBridge.StoreAgreement

/-! Searching the DuckDB store. The query cuts the ranked table to ten rows before any
similarity is computed, and the patterns it reads carry timestamps without a time zone. -/
namespace PatternSearch

open Domain Cosine CorrectionPatterns CorrectionStores StoreAgreement Grouping RankedSelection
open CorrectionPattern DuckDBCorrectionStore

section Search

/-- What a search looks for: vectors of one length whose cosine exceeds the threshold. -/
def Similar (v : List ℝ) (row : PatternRow ℝ) : Prop :=
  v.length = row.intentVector.length ∧ PATTERN_SIMILARITY_THRESHOLD < cosine v row.intentVector

noncomputable instance (v : List ℝ) (row : PatternRow ℝ) : Decidable (Similar v row) :=
  inferInstanceAs (Decidable (_ ∧ _))

/-- Every similar pattern of the store, each once, and no other. -/
def Complete (store : DuckDBCorrectionStore ℝ) (v : List ℝ)
    (found : List (CorrectionPattern ℝ)) : Prop :=
  found.Perm ((store.correctionPatterns.filter fun row => Similar v row).map rowToPattern)

theorem threshold_pos : (0 : ℝ) < PATTERN_SIMILARITY_THRESHOLD := by
  norm_num [PATTERN_SIMILARITY_THRESHOLD]

theorem similar_self {row : PatternRow ℝ} (h : normSq row.intentVector ≠ 0) :
    Similar row.intentVector row := by
  refine ⟨rfl, ?_⟩
  rw [cosine_self h, PATTERN_SIMILARITY_THRESHOLD]
  norm_num

/-- The guarded quotient is the cosine of vectors of one length, and zero for others. -/
theorem cosineSimilarity_eq (u v : List ℝ) :
    cosineSimilarity u v = if u.length = v.length then cosine u v else 0 := by
  unfold cosineSimilarity
  simp only [PyMath.powHalf]
  by_cases hlen : u.length = v.length
  · rw [if_pos hlen]
    split_ifs with hempty hzero
    · obtain rfl := List.length_eq_zero_iff.mp (hempty.resolve_left (not_not.mpr hlen))
      simp [cosine, dot]
    · rw [cosine, mul_eq_zero.mpr hzero, div_zero]
    · rfl
  · rw [if_neg hlen, if_pos (.inl hlen)]

theorem similarity_iff (v : List ℝ) (row : PatternRow ℝ) :
    PATTERN_SIMILARITY_THRESHOLD < cosineSimilarity v row.intentVector ↔ Similar v row := by
  rw [cosineSimilarity_eq, Similar]
  split_ifs with hlen
  · simp [hlen]
  · simp [hlen, threshold_pos.le]

/-- A search is a selection of ten rows. -/
theorem findPatterns_eq (ordered : List (PatternRow ℝ)) (v : List ℝ) :
    findPatterns ordered v = select 10 (fun row => Similar v row) rowToPattern ordered := by
  rw [findPatterns, select, List.filter_map]
  congr 2
  funext row
  exact decide_eq_decide.mpr (similarity_iff v row)

theorem mem_findPatterns {ordered : List (PatternRow ℝ)} {v : List ℝ} {p : CorrectionPattern ℝ} :
    p ∈ findPatterns ordered v ↔ ∃ row ∈ ordered.take 10, Similar v row ∧ rowToPattern row = p := by
  rw [findPatterns_eq, select]
  simp only [List.mem_map, List.mem_filter, decide_eq_true_eq, and_assoc]

/-- A search returns all similar patterns exactly when none of them is ranked behind the tenth
row, and in every ranking exactly when each has at most ten rows counted as often. -/
theorem search_complete_iff (store : DuckDBCorrectionStore ℝ) (v : List ℝ) :
    (∀ ordered, Ranked (·.occurrenceCount) ordered store.correctionPatterns →
      (Complete store v (findPatterns ordered v) ↔ ∀ row ∈ ordered.drop 10, ¬ Similar v row)) ∧
    ((∀ ordered, Ranked (·.occurrenceCount) ordered store.correctionPatterns →
        Complete store v (findPatterns ordered v)) ↔
      ∀ row ∈ store.correctionPatterns, Similar v row →
        standing (·.occurrenceCount) store.correctionPatterns row ≤ 10) := by
  simp only [Complete, findPatterns_eq]
  constructor
  · intro ordered ranked
    rw [select_perm_iff ranked.perm]
    simp only [decide_eq_false_iff_not]
  · rw [select_complete_iff]
    simp only [decide_eq_true_eq]

/-! Ten tools corrected twice under one intent, and an eleventh once under another. -/

noncomputable def toolSave (correctionId tool : String) (embedding : List ℝ) : Save ℝ where
  correction :=
    { correctionId := correctionId
      sessionId := "session_1"
      agentId := "agent_1"
      originalIntent := "read a file"
      inferredContext := "data"
      originalTool := tool
      correctedTool := "db.query"
      correctionMetadata := .dict []
      operatorIdentity := "admin"
      confidenceBefore := 0
      confidenceAfter := 1
      capturedAt := utc 0
      before_range := by norm_num
      after_range := by norm_num }
  embedding := embedding
  memoryNow := 0
  memoryHex := correctionId
  tableNow := 0
  tableHex := correctionId

def popularTools : List String :=
  ["ls", "cat", "cp", "mv", "rm", "sed", "awk", "grep", "curl", "git"]

noncomputable def earlySave (tool : String) : Save ℝ := toolSave ("a." ++ tool) tool [1, 0]
noncomputable def laterSave (tool : String) : Save ℝ := toolSave ("b." ++ tool) tool [1, 0]
noncomputable def rareSave : Save ℝ := toolSave "c" "make" [0, 1]

noncomputable def toolSaves : List (Save ℝ) :=
  popularTools.map earlySave ++ popularTools.map laterSave ++ [rareSave]

noncomputable def popularRow (tool : String) : PatternRow ℝ :=
  mergeInTable (some (mergeInTable none (earlySave tool))) (laterSave tool)

noncomputable def rareRow : PatternRow ℝ := mergeInTable none rareSave

noncomputable def toolTable : DuckDBCorrectionStore ℝ where
  corrections := toolSaves.map (·.correction)
  correctionPatterns := popularTools.map popularRow ++ [rareRow]

theorem toolTable_saved : ∃ memory, Saved (fun _ => .ok "\x7b\x7d") toolSaves memory toolTable := by
  obtain ⟨memory, ⟨corrections, rows⟩, saved, hcorrections, -⟩ :=
    @saved_of_fresh ℝ _ _ (fun _ => .ok "\x7b\x7d") toolSaves (fun _ _ => ⟨_, rfl⟩)
      (by decide +kernel) (by decide +kernel)
  obtain rfl := hcorrections
  obtain rfl := saved.table_eq.1
  exact ⟨memory, saved⟩

theorem rareRow_nonzero : normSq rareRow.intentVector ≠ 0 := by
  norm_num [rareRow, mergeInTable, insertedRow, rareSave, toolSave, normSq]

theorem similar_rare {row : PatternRow ℝ} (hrow : row ∈ toolTable.correctionPatterns) :
    Similar [0, 1] row ↔ row = rareRow := by
  rcases List.mem_append.mp hrow with hpopular | hrare
  · obtain ⟨tool, -, rfl⟩ := List.mem_map.mp hpopular
    have orthogonal : cosine [0, 1] [1, 0] = 0 := by simp [cosine, dot]
    refine iff_of_false (fun h => ?_) fun h => ?_
    · have hlt : PATTERN_SIMILARITY_THRESHOLD < cosine [0, 1] [1, 0] := h.2
      exact absurd (orthogonal ▸ hlt) (not_lt.mpr threshold_pos.le)
    · have hcount : 2 = 1 := congrArg PatternRow.occurrenceCount h
      cases hcount
  · obtain rfl := List.mem_singleton.mp hrare
    exact iff_of_true (similar_self rareRow_nonzero) rfl

/-- The rare pattern is the only match, and no ranking lets the search see it. -/
theorem rare_pattern_lost :
    (∃ memory, Saved (fun _ => .ok "\x7b\x7d") toolSaves memory toolTable) ∧
    ∀ ordered, Ranked (·.occurrenceCount) ordered toolTable.correctionPatterns →
      findPatterns ordered [0, 1] = [] ∧
      ¬ Complete toolTable [0, 1] (findPatterns ordered [0, 1]) := by
  refine ⟨toolTable_saved, fun ordered ranked => ?_⟩
  have stored : rareRow ∈ toolTable.correctionPatterns := List.mem_append_right _ (by simp)
  have similar : Similar [0, 1] rareRow := (similar_rare stored).mpr rfl
  have cut : rareRow ∉ ordered.take 10 := ranked.notMem_take (by decide)
  have nothing : findPatterns ordered [0, 1] = [] := by
    refine List.eq_nil_iff_forall_not_mem.mpr fun p hp => ?_
    obtain ⟨row, hrow, hsimilar, -⟩ := mem_findPatterns.mp hp
    have hmem := ranked.perm.mem_iff.mp (List.mem_of_mem_take hrow)
    exact cut ((similar_rare hmem).mp hsimilar ▸ hrow)
  refine ⟨nothing, fun complete => ?_⟩
  rw [nothing, Complete] at complete
  have matched := List.map_eq_nil_iff.mp complete.nil_eq.symm
  exact List.filter_eq_nil_iff.mp matched rareRow stored (decide_eq_true similar)

end Search

section Scoring

theorem Similar.nonzero {v : List ℝ} {row : PatternRow ℝ} (h : Similar v row) :
    normSq v ≠ 0 ∧ normSq row.intentVector ≠ 0 := by
  have hpos : 0 < cosine v row.intentVector := threshold_pos.trans h.2
  constructor <;> intro hzero <;> rw [cosine, hzero] at hpos <;> simp at hpos

/-- A naive timestamp raises as soon as the age is needed. -/
theorem matchesIntent_fetched {p : CorrectionPattern ℝ} {w : List ℝ} {now : ℝ}
    (naive : p.lastUpdated.aware = false) (vector : normSq p.intentVector ≠ 0) :
    p.matchesIntent w now =
      if w.length = p.intentVector.length ∧ normSq w ≠ 0 then
        .error (.typeError "can't subtract offset-naive and offset-aware datetimes")
      else .ok 0 := by
  have hscored : Unscored p w ↔ ¬ (w.length = p.intentVector.length ∧ normSq w ≠ 0) := by
    rw [Unscored, not_and_or, not_not, or_iff_left vector]
  split_ifs with h
  · exact matchesIntent_naive naive fun hunscored => hscored.mp hunscored h
  · exact matchesIntent_unscored (hscored.mpr h) now

/-- Every pattern found raises on the very vector it was found for. -/
theorem found_raises {ordered : List (PatternRow ℝ)} {v : List ℝ} {p : CorrectionPattern ℝ}
    (found : p ∈ findPatterns ordered v) (now : ℝ) :
    p.matchesIntent v now =
      .error (.typeError "can't subtract offset-naive and offset-aware datetimes") := by
  obtain ⟨row, -, similar, rfl⟩ := mem_findPatterns.mp found
  rw [matchesIntent_fetched rfl similar.nonzero.2, if_pos ⟨similar.1, similar.nonzero.1⟩]

/-- A pattern found is scored only for vectors without a cosine to its own, and all patterns
found are scored only when the ten rows have no vectors to find them by. -/
theorem found_scored_iff (ordered : List (PatternRow ℝ)) :
    (∀ v, ∀ p ∈ findPatterns ordered v, ∀ w now,
      (∃ score, p.matchesIntent w now = .ok score) ↔
        w.length ≠ p.intentVector.length ∨ ∀ a ∈ w, a = 0) ∧
    ((∀ v, ∀ p ∈ findPatterns ordered v, ∀ w now, ∃ score, p.matchesIntent w now = .ok score) ↔
      ∀ row ∈ ordered.take 10, ∀ a ∈ row.intentVector, a = 0) := by
  constructor
  · intro v p found w now
    obtain ⟨row, -, similar, rfl⟩ := mem_findPatterns.mp found
    rw [matchesIntent_fetched rfl similar.nonzero.2, ← normSq_eq_zero]
    split_ifs with h
    · simp [h.1, h.2]
    · simpa using not_and_or.mp h
  · constructor
    · intro scored row hrow
      by_contra hvector
      rw [← normSq_eq_zero] at hvector
      have found := mem_findPatterns.mpr ⟨row, hrow, similar_self hvector, rfl⟩
      obtain ⟨score, hscore⟩ := scored _ _ found row.intentVector 0
      rw [found_raises found] at hscore
      cases hscore
    · intro zeros v p found
      obtain ⟨row, hrow, similar, rfl⟩ := mem_findPatterns.mp found
      exact absurd (normSq_eq_zero.mpr (zeros row hrow)) similar.nonzero.2

/-- One saved correction is found by its own intent and cannot be scored for it. -/
theorem saved_pattern_raises :
    Saved (fun _ => .ok "\x7b\x7d") [rareSave] (memorySave rareSave .empty)
      ⟨[rareSave.correction], [rareRow]⟩ ∧
    ∀ ordered, Ranked (·.occurrenceCount) ordered [rareRow] →
      ∃ p ∈ findPatterns ordered rareRow.intentVector,
        ∀ now, ¬ ∃ score, p.matchesIntent rareRow.intentVector now = .ok score := by
  refine ⟨.save .empty rareSave noFaults rfl, fun ordered ranked => ?_⟩
  obtain rfl := List.perm_singleton.mp ranked.perm
  have found : rowToPattern rareRow ∈ findPatterns [rareRow] rareRow.intentVector :=
    mem_findPatterns.mpr ⟨_, List.mem_cons_self, similar_self rareRow_nonzero, rfl⟩
  refine ⟨_, found, fun now => ?_⟩
  rw [found_raises found]
  rintro ⟨score, hscore⟩
  cases hscore

end Scoring

end PatternSearch
