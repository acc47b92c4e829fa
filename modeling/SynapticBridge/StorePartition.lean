import SynapticBridge.StoreAgreement

/-! The patterns of a store as a partition of its corrections. Both stores group the saved
corrections and keep a running mean, the DuckDB store through a lookup that finds the one
row of the pair. -/
namespace StorePartition

open Domain CorrectionPatterns OrderedDict Grouping CorrectionStores StoreAgreement

variable {K : Type} [Field K] [LinearOrder K]

/-- One call of `save_correction`, with what it may read from clock and `uuid4`. -/
structure SaveCall (K : Type) [Field K] [LinearOrder K] where
  correction : Correction K
  intentEmbedding : Option (List K)
  now : K
  hex : String

def saveInMemory (store : InMemoryCorrectionStore K) (c : SaveCall K) :
    InMemoryCorrectionStore K :=
  store.saveCorrection c.correction c.intentEmbedding c.now c.hex

/-- The in-memory store after the calls, from empty. No call fails. -/
def savedInMemory (calls : List (SaveCall K)) : InMemoryCorrectionStore K :=
  calls.foldl saveInMemory .empty

/-- The tables after calls that all returned, from empty. -/
inductive SavedInTable (dumps : PyVal K → Except PyException String) :
    List (SaveCall K) → DuckDBCorrectionStore K → Prop where
  | empty : SavedInTable dumps [] .empty
  | save {calls : List (SaveCall K)} {table table' : DuckDBCorrectionStore K}
      (prior : SavedInTable dumps calls table) (c : SaveCall K)
      (faults : DuckDBCorrectionStore.SqlFaults)
      (ok : (DuckDBCorrectionStore.saveCorrection dumps faults c.correction c.intentEmbedding
        c.now c.hex).run table = (.ok (), table')) :
      SavedInTable dumps (calls ++ [c]) table'

section Classes

variable {κ β : Type} [DecidableEq κ]

def members (key : Correction K → κ) (k : κ) (corrections : List (Correction K)) :
    List (Correction K) := corrections.filter fun c => key c = k

/-- The exact mean, which is 0 for no corrections. -/
def meanImprovement (corrections : List (Correction K)) : K :=
  (corrections.map (·.improvement)).sum / corrections.length

/-- One pattern for each class of corrections, with its size and its mean improvement. -/
structure Partition (key : Correction K → κ) (label : β → κ) (count : β → ℕ) (average : β → K)
    (corrections : List (Correction K)) (patterns : List β) : Prop where
  distinct : (patterns.map label).Nodup
  classes : ∀ k, k ∈ patterns.map label ↔ ∃ c ∈ corrections, key c = k
  counts : ∀ p ∈ patterns, count p = (members key (label p) corrections).length
  averages : ∀ p ∈ patterns, average p = meanImprovement (members key (label p) corrections)
  total : (patterns.map count).sum = corrections.length

variable {key : Correction K → κ} {merge : Option β → SaveCall K → β} {label : β → κ}
  {count : β → ℕ} {average : β → K}

/-- Grouped calls form a partition when merging keeps the label and a running mean. -/
theorem partition_of_group [CharZero K]
    (labels : ∀ c old, (∀ v, old = some v → label v = key c.correction) →
      label (merge old c) = key c.correction)
    (mean : RunningMean merge count average (fun c => c.correction.improvement))
    (calls : List (SaveCall K)) :
    Partition key label count average (calls.map (·.correction))
      (group (fun c => key c.correction) merge calls).values := by
  have labelled : ∀ k v, (group (fun c => key c.correction) merge calls).get? k = some v →
      label v = k := group_invariant (P := fun k v => label v = k) labels calls
  have keys : (group (fun c => key c.correction) merge calls).values.map label =
      (group (fun c => key c.correction) merge calls).keys := by
    rw [Dict.values, Dict.keys, List.map_map]
    apply List.map_congr_left
    intro e he
    exact labelled e.1 e.2 (Dict.get?_eq_some.mpr he)
  have same : ∀ k, members key k (calls.map (·.correction)) =
      (calls.filter fun c => key c.correction = k).map (·.correction) := by
    intro k
    rw [members, List.filter_map]
    rfl
  constructor
  · rw [keys]
    exact Dict.keys_nodup _
  · intro k
    rw [keys, mem_keys_group]
    simp only [List.mem_map, exists_exists_and_eq_and]
  · intro p hp
    obtain ⟨k, hk⟩ := Dict.mem_values.mp hp
    rw [labelled k p hk, same, List.length_map]
    exact (mean.group hk).1
  · intro p hp
    obtain ⟨k, hk⟩ := Dict.mem_values.mp hp
    rw [labelled k p hk, same, meanImprovement, List.map_map, List.length_map]
    exact (mean.group hk).2
  · rw [List.length_map]
    exact sum_weights mean.first_count mean.next_count calls

end Classes

section InMemory

def mergeInMemory (old : Option (CorrectionPattern K)) (c : SaveCall K) : CorrectionPattern K :=
  match old with
  | some existing =>
    InMemoryCorrectionStore.mergePattern existing c.correction c.intentEmbedding c.now
  | none => InMemoryCorrectionStore.newPattern c.correction c.intentEmbedding c.now c.hex

theorem savedInMemory_snoc (calls : List (SaveCall K)) (c : SaveCall K) :
    savedInMemory (calls ++ [c]) = saveInMemory (savedInMemory calls) c := by
  rw [savedInMemory, List.foldl_append]
  rfl

theorem savedInMemory_patterns (calls : List (SaveCall K)) :
    (savedInMemory calls).patterns =
      group (fun c => InMemoryCorrectionStore.patternKey c.correction) mergeInMemory calls := by
  induction calls using List.reverseRecOn with
  | nil => rfl
  | append_singleton calls c ih =>
    rw [savedInMemory_snoc, group_snoc, ← ih]
    rfl

/-- Distinct identifiers overwrite nothing. -/
theorem savedInMemory_corrections {calls : List (SaveCall K)}
    (ids : (calls.map (·.correction.correctionId)).Nodup) :
    (savedInMemory calls).corrections.entries =
      calls.map fun c => (c.correction.correctionId, c.correction) := by
  induction calls using List.reverseRecOn with
  | nil => rfl
  | append_singleton calls c ih =>
    rw [List.map_append, List.nodup_append] at ids
    have entries := ih ids.1
    have fresh : c.correction.correctionId ∉
        (savedInMemory calls).corrections.entries.map Prod.fst := by
      rw [entries, List.map_map]
      intro hmem
      exact ids.2.2 _ hmem _ List.mem_cons_self rfl
    rw [savedInMemory_snoc, List.map_append, ← entries]
    exact setEntries_of_notMem fresh c.correction

theorem memory_mean : RunningMean (mergeInMemory (K := K)) (·.occurrenceCount)
    (·.avgConfidenceImprovement) (fun c => c.correction.improvement) :=
  ⟨fun _ => rfl, fun _ => rfl, fun _ _ => rfl, fun _ _ => rfl⟩

theorem memory_label (c : SaveCall K) (old : Option (CorrectionPattern K))
    (h : ∀ p, old = some p → p.correctedTools = InMemoryCorrectionStore.patternKey c.correction) :
    (mergeInMemory old c).correctedTools = InMemoryCorrectionStore.patternKey c.correction := by
  cases old with
  | none => rfl
  | some p => exact h p rfl

end InMemory

section Table

/-- The pair of tools as the two columns hold it. -/
def columns (correction : Correction K) : List String × List String :=
  ([correction.originalTool], [correction.correctedTool])

def rowColumns (row : PatternRow K) : List String × List String :=
  (row.originalTools, row.correctedTools)

def mergeInRow (old : Option (PatternRow K)) (c : SaveCall K) : PatternRow K :=
  mergeRow old c.correction (c.intentEmbedding.getD InMemoryCorrectionStore.defaultVector) c.now
    c.hex

def pair (c : SaveCall K) : String × String :=
  (c.correction.originalTool, c.correction.correctedTool)

theorem row_mean : RunningMean (mergeInRow (K := K)) (·.occurrenceCount)
    (·.avgConfidenceImprovement) (fun c => c.correction.improvement) :=
  ⟨fun _ => rfl, fun _ => rfl, fun _ _ => rfl, fun _ _ => rfl⟩

theorem row_label (c : SaveCall K) (old : Option (PatternRow K))
    (h : ∀ row, old = some row → rowColumns row = columns c.correction) :
    rowColumns (mergeInRow old c) = columns c.correction := by
  cases old with
  | none => rfl
  | some row => exact h row rfl

theorem named_rows (calls : List (SaveCall K)) : Named (group pair mergeInRow calls).entries := by
  intro e he
  have label : rowColumns e.2 = ([e.1.1], [e.1.2]) := by
    refine group_invariant (P := fun k row => rowColumns row = ([k.1], [k.2])) ?_ calls e.1 e.2
      (Dict.get?_eq_some.mpr he)
    intro c old hold
    exact row_label c old hold
  exact Prod.mk.inj label

/-- A save that returns finds the row of its pair of tools and merges into it. -/
theorem rows_save {dumps : PyVal K → Except PyException String} {calls : List (SaveCall K)}
    {table table' : DuckDBCorrectionStore K} {c : SaveCall K}
    {faults : DuckDBCorrectionStore.SqlFaults}
    (rows : table.correctionPatterns = (group pair mergeInRow calls).values)
    (ids : (table.correctionPatterns.map (·.patternId)).Nodup)
    (ok : (DuckDBCorrectionStore.saveCorrection dumps faults c.correction c.intentEmbedding c.now
      c.hex).run table = (.ok (), table')) :
    table'.correctionPatterns = (group pair mergeInRow (calls ++ [c])).values ∧
      (table'.correctionPatterns.map (·.patternId)).Nodup := by
  obtain ⟨-, hupdate, ids'⟩ := saveCorrection_ok ok
  refine ⟨?_, ids'⟩
  rw [rows] at ids
  have merged := updatePattern_eq (named_rows calls) ids c.correction c.intentEmbedding c.now c.hex
  rw [hupdate, rows, group_snoc]
  exact merged

/-- The rows are the calls grouped by pair of tools. -/
theorem SavedInTable.table_eq {dumps : PyVal K → Except PyException String}
    {calls : List (SaveCall K)} {table : DuckDBCorrectionStore K}
    (h : SavedInTable dumps calls table) :
    table.corrections = calls.map (·.correction) ∧
      table.correctionPatterns = (group pair mergeInRow calls).values ∧
      (table.correctionPatterns.map (·.patternId)).Nodup := by
  induction h with
  | empty => exact ⟨rfl, rfl, by simp [DuckDBCorrectionStore.empty]⟩
  | @save calls table table' prior c faults ok ih =>
    obtain ⟨hcorrections, hrows, hids⟩ := ih
    refine ⟨?_, rows_save hrows hids ok⟩
    rw [(saveCorrection_ok ok).1, hcorrections, List.map_append]
    rfl

theorem pair_values (calls : List (SaveCall K)) :
    (group pair mergeInRow calls).values =
      (group (fun c => columns c.correction) mergeInRow calls).values := by
  apply group_values_congr
  intro c _ c' _
  simp [pair, columns]

end Table

/-- After any saves with distinct identifiers, each store's patterns partition its corrections:
by corrected tool in memory, by pair of tools in the table. -/
theorem stores_partition [IsStrictOrderedRing K] (dumps : PyVal K → Except PyException String)
    (calls : List (SaveCall K)) (ids : (calls.map (·.correction.correctionId)).Nodup) :
    let memory := savedInMemory calls
    (memory.corrections.values = calls.map (·.correction) ∧
      Partition InMemoryCorrectionStore.patternKey (·.correctedTools) (·.occurrenceCount)
        (·.avgConfidenceImprovement) memory.corrections.values memory.findPatterns) ∧
    ∀ table, SavedInTable dumps calls table →
      table.corrections = calls.map (·.correction) ∧
        Partition columns rowColumns (·.occurrenceCount) (·.avgConfidenceImprovement)
          table.corrections table.correctionPatterns := by
  intro memory
  constructor
  · have corrections : memory.corrections.values = calls.map (·.correction) := by
      rw [Dict.values, savedInMemory_corrections ids, List.map_map]
      rfl
    refine ⟨corrections, ?_⟩
    rw [corrections, InMemoryCorrectionStore.findPatterns, savedInMemory_patterns]
    exact partition_of_group memory_label memory_mean calls
  · intro table saved
    obtain ⟨corrections, rows, -⟩ := saved.table_eq
    refine ⟨corrections, ?_⟩
    rw [corrections, rows, pair_values]
    exact partition_of_group row_label row_mean calls

/-! Two corrections to one tool, the second with an embedding. -/

def sampleCalls : List (SaveCall ℚ) :=
  [⟨correctionOf "corr_1" "fs.read" "db.query", none, 0, "a"⟩,
    ⟨correctionOf "corr_2" "fs.read" "db.query", some [1], 1, "b"⟩]

def sampleTable : DuckDBCorrectionStore ℚ :=
  ⟨sampleCalls.map (·.correction), (group pair mergeInRow sampleCalls).values⟩

theorem sampleTable_saved : SavedInTable (fun _ => .ok "\x7b\x7d") sampleCalls sampleTable :=
  .save (.save .empty ⟨correctionOf "corr_1" "fs.read" "db.query", none, 0, "a"⟩ noFaults rfl)
    ⟨correctionOf "corr_2" "fs.read" "db.query", some [1], 1, "b"⟩ noFaults rfl

theorem stores_partition_sample :
    Partition InMemoryCorrectionStore.patternKey (·.correctedTools) (·.occurrenceCount)
      (·.avgConfidenceImprovement) (savedInMemory sampleCalls).corrections.values
      (savedInMemory sampleCalls).findPatterns ∧
    Partition columns rowColumns (·.occurrenceCount) (·.avgConfidenceImprovement)
      sampleTable.corrections sampleTable.correctionPatterns := by
  obtain ⟨⟨-, memory⟩, table⟩ := stores_partition (fun _ => .ok "\x7b\x7d") sampleCalls
    (by decide)
  exact ⟨memory, (table sampleTable sampleTable_saved).2⟩

end StorePartition
