import SynapticBridge.SaveAtomicity

/-! Which vector a pattern keeps when some saves carry no embedding. In memory a missing
embedding leaves the vector alone; in the table it writes the zero vector over it. -/
namespace LearnedVectors

open Domain CorrectionPatterns OrderedDict Grouping CorrectionStores StorePartition
open InMemoryCorrectionStore (defaultVector patternKey)
open StoreAgreement (correctionOf noFaults)

variable {K : Type} [Field K] [LinearOrder K]

/-- Calls on the table from empty, some of which raise. The list holds those that returned,
which are the ones merged into a pattern. -/
inductive Calls (dumps : PyVal K → Except PyException String) :
    List (SaveCall K) → DuckDBCorrectionStore K → Prop where
  | empty : Calls dumps [] .empty
  | returned {calls : List (SaveCall K)} {table table' : DuckDBCorrectionStore K}
      (prior : Calls dumps calls table) (c : SaveCall K)
      (faults : DuckDBCorrectionStore.SqlFaults)
      (ok : (DuckDBCorrectionStore.saveCorrection dumps faults c.correction c.intentEmbedding
        c.now c.hex).run table = (.ok (), table')) :
      Calls dumps (calls ++ [c]) table'
  | raised {calls : List (SaveCall K)} {table table' : DuckDBCorrectionStore K}
      (prior : Calls dumps calls table) (c : SaveCall K)
      (faults : DuckDBCorrectionStore.SqlFaults) {error : PyException}
      (failed : (DuckDBCorrectionStore.saveCorrection dumps faults c.correction c.intentEmbedding
        c.now c.hex).run table = (.error error, table')) :
      Calls dumps calls table'

theorem Calls.rows_eq {dumps : PyVal K → Except PyException String} {calls : List (SaveCall K)}
    {table : DuckDBCorrectionStore K} (h : Calls dumps calls table) :
    table.correctionPatterns = (group pair mergeInRow calls).values ∧
      (table.correctionPatterns.map (·.patternId)).Nodup := by
  induction h with
  | empty => exact ⟨rfl, by simp [DuckDBCorrectionStore.empty]⟩
  | returned prior c faults ok ih => exact rows_save ih.1 ih.2 ok
  | raised prior c faults failed ih =>
    rcases SaveAtomicity.saveCorrection_error failed with ⟨-, rfl⟩ | ⟨-, rfl⟩
    · exact ih
    · exact ih

section Embeddings

def lastEmbedding (calls : List (SaveCall K)) : Option (List K) :=
  (calls.filterMap (·.intentEmbedding)).getLast?

/-- What a pattern should have learned from its calls. -/
def learnedVector (calls : List (SaveCall K)) : List K := (lastEmbedding calls).getD defaultVector

theorem lastEmbedding_snoc (calls : List (SaveCall K)) (c : SaveCall K) :
    lastEmbedding (calls ++ [c]) = c.intentEmbedding.or (lastEmbedding calls) := by
  unfold lastEmbedding
  rw [List.filterMap_append]
  cases hc : c.intentEmbedding with
  | none => simp [hc]
  | some v => simp [hc]

theorem learnedVector_snoc (calls : List (SaveCall K)) (c : SaveCall K) :
    learnedVector (calls ++ [c]) = c.intentEmbedding.getD (learnedVector calls) := by
  rw [learnedVector, lastEmbedding_snoc]
  cases c.intentEmbedding with
  | none => rfl
  | some v => rfl

def KeepsVector (calls : List (SaveCall K)) : Prop :=
  (∃ c, calls.getLast? = some c ∧ c.intentEmbedding.isSome = true) ∨
    ∀ v, lastEmbedding calls = some v → v = defaultVector

theorem keepsVector_snoc (calls : List (SaveCall K)) (c : SaveCall K) :
    KeepsVector (calls ++ [c]) ↔
      c.intentEmbedding.getD defaultVector = learnedVector (calls ++ [c]) := by
  rw [KeepsVector, learnedVector_snoc, lastEmbedding_snoc, List.getLast?_concat]
  cases hc : c.intentEmbedding with
  | some v =>
    refine iff_of_true (.inl ⟨c, rfl, ?_⟩) rfl
    rw [hc]
    rfl
  | none =>
    simp only [Option.some.injEq, exists_eq_left', hc, Option.isSome_none, Bool.false_eq_true,
      false_or, Option.none_or, Option.getD_none, learnedVector]
    cases lastEmbedding calls with
    | none => simp
    | some v => simp [eq_comm]

end Embeddings

section Folds

theorem memory_vector {calls : List (SaveCall K)} {p : CorrectionPattern K}
    (h : calls.foldl (fun old c => some (mergeInMemory old c)) none = some p) :
    p.intentVector = learnedVector calls := by
  induction calls using List.reverseRecOn generalizing p with
  | nil => cases h
  | append_singleton calls c ih =>
    rw [List.foldl_append, List.foldl_cons, List.foldl_nil] at h
    obtain rfl := Option.some.inj h
    rw [learnedVector_snoc]
    cases hfold : calls.foldl (fun old c => some (mergeInMemory old c)) none with
    | none =>
      have hcalls : calls = [] := by
        cases calls using List.reverseRecOn with
        | nil => rfl
        | append_singleton calls c => simp at hfold
      rw [hcalls]
      rfl
    | some existing =>
      rw [← ih hfold]
      rfl

theorem row_vector {calls : List (SaveCall K)} {row : PatternRow K}
    (h : calls.foldl (fun old c => some (mergeInRow old c)) none = some row) :
    KeepsVector calls ↔ row.intentVector = learnedVector calls := by
  cases calls using List.reverseRecOn with
  | nil => cases h
  | append_singleton calls c =>
    rw [List.foldl_append, List.foldl_cons, List.foldl_nil] at h
    obtain rfl := Option.some.inj h
    rw [keepsVector_snoc]
    cases calls.foldl (fun old c => some (mergeInRow old c)) none with
    | none => rfl
    | some existing => rfl

end Folds

/-- In memory no learned vector is ever erased. In the table exactly those rows have what
their calls taught whose last call carried an embedding or had none to erase. -/
theorem vectors_learned (dumps : PyVal K → Except PyException String)
    (calls : List (SaveCall K)) :
    (∀ p ∈ (savedInMemory calls).findPatterns, p.intentVector =
      learnedVector (calls.filter fun c => patternKey c.correction = p.correctedTools)) ∧
    ∀ table, Calls dumps calls table →
      ((∀ row ∈ table.correctionPatterns, row.intentVector =
          learnedVector (calls.filter fun c => columns c.correction = rowColumns row)) ↔
        ∀ c ∈ calls, KeepsVector (calls.filter fun c' => pair c' = pair c)) := by
  constructor
  · intro p hp
    rw [InMemoryCorrectionStore.findPatterns, savedInMemory_patterns] at hp
    obtain ⟨k, hk⟩ := Dict.mem_values.mp hp
    have label : p.correctedTools = k :=
      group_invariant (P := fun k p => p.correctedTools = k) memory_label calls k p hk
    rw [get?_group] at hk
    rw [label, memory_vector hk]
  · intro table run
    have named : ∀ k row, (group pair mergeInRow calls).get? k = some row →
        ∀ c : SaveCall K, columns c.correction = rowColumns row ↔ pair c = k := by
      intro k row hk c
      obtain ⟨horiginal, hcorrected⟩ := named_rows calls (k, row) (Dict.get?_eq_some.mp hk)
      change row.originalTools = [k.1] at horiginal
      change row.correctedTools = [k.2] at hcorrected
      rw [columns, rowColumns, horiginal, hcorrected, Prod.ext_iff, List.singleton_inj,
        List.singleton_inj, pair, Prod.ext_iff]
    have vector : ∀ k row, (group pair mergeInRow calls).get? k = some row →
        (KeepsVector (calls.filter fun c => pair c = k) ↔ row.intentVector =
          learnedVector (calls.filter fun c => columns c.correction = rowColumns row)) := by
      intro k row hk
      simp only [named k row hk]
      rw [get?_group] at hk
      exact row_vector hk
    rw [run.rows_eq.1]
    constructor
    · intro learned c hc
      obtain ⟨row, hrow⟩ := group_contains pair mergeInRow hc
      exact (vector _ _ hrow).mpr (learned row (Dict.mem_values.mpr ⟨_, hrow⟩))
    · intro keeps row hrow
      obtain ⟨k, hk⟩ := Dict.mem_values.mp hrow
      obtain ⟨c, hc, rfl⟩ := mem_keys_group.mp
        (List.mem_map_of_mem (f := Prod.fst) (Dict.get?_eq_some.mp hk))
      exact (vector _ _ hk).mp (keeps c hc)

/-! A correction with an embedding and one without, as the handlers save it. -/

def learnedSave : SaveCall ℚ := ⟨correctionOf "corr_1" "fs.read" "db.query", some [1], 0, "a"⟩
def handlerSave : SaveCall ℚ := ⟨correctionOf "corr_2" "fs.read" "db.query", none, 1, "b"⟩

def savedTable (saves : List (SaveCall ℚ)) : DuckDBCorrectionStore ℚ :=
  ⟨saves.map (·.correction), (group pair mergeInRow saves).values⟩

theorem vectors_learned_sample :
    ∀ row ∈ (savedTable [handlerSave, learnedSave]).correctionPatterns, row.intentVector =
      learnedVector ([handlerSave, learnedSave].filter fun c =>
        columns c.correction = rowColumns row) := by
  have run : Calls (fun _ => .ok "\x7b\x7d") [handlerSave, learnedSave]
      (savedTable [handlerSave, learnedSave]) :=
    .returned (.returned .empty handlerSave noFaults rfl) learnedSave noFaults rfl
  refine ((vectors_learned _ [handlerSave, learnedSave]).2 _ run).mpr ?_
  intro c hc
  refine .inl ⟨learnedSave, ?_, rfl⟩
  rcases List.mem_pair.mp hc with rfl | rfl
  · rfl
  · rfl

theorem learned_vector_erased : ∃ table : DuckDBCorrectionStore ℚ,
    Calls (fun _ => .ok "\x7b\x7d") [learnedSave, handlerSave] table ∧
    ∃ row ∈ table.correctionPatterns, row.intentVector = defaultVector ∧
      row.intentVector ≠ learnedVector ([learnedSave, handlerSave].filter fun c =>
        columns c.correction = rowColumns row) := by
  refine ⟨savedTable [learnedSave, handlerSave],
    .returned (.returned .empty learnedSave noFaults rfl) handlerSave noFaults rfl,
    _, List.mem_cons_self, rfl, ?_⟩
  intro h
  have hlength : (defaultVector : List ℚ).length = [(1 : ℚ)].length := congrArg List.length h
  rw [defaultVector, List.length_replicate] at hlength
  cases hlength

end LearnedVectors
