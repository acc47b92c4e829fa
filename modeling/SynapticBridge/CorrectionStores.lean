import SynapticBridge.Ports

/-! The two correction stores and the command that fills them. Both merge corrections into
patterns: the in-memory store by corrected tool, the DuckDB store by pair of tools. -/
namespace CorrectionStores

open Domain Cosine CorrectionPatterns Ports OrderedDict
open Procedures.Proc

section InMemory

variable {K : Type} [Field K] [LinearOrder K]

structure InMemoryCorrectionStore (K : Type) [Field K] [LinearOrder K] where
  corrections : Dict String (Correction K)
  patterns : Dict (List String) (CorrectionPattern K)

namespace InMemoryCorrectionStore

def empty : InMemoryCorrectionStore K := ⟨.empty, .empty⟩

def defaultVector : List K := List.replicate EMBEDDING_DIM 0

/-- `tuple(sorted([correction.corrected_tool]))`. -/
def patternKey (correction : Correction K) : List String := [correction.correctedTool]

def newPattern (correction : Correction K) (intentEmbedding : Option (List K)) (now : K)
    (hex : String) : CorrectionPattern K where
  patternId := "pattern_" ++ hexPrefix 8 hex
  intentVector := intentEmbedding.getD defaultVector
  originalTools := [correction.originalTool]
  correctedTools := [correction.correctedTool]
  occurrenceCount := 1
  avgConfidenceImprovement := correction.improvement
  lastUpdated := utc now
  totalUndoCount := 0

/-- The pattern after one more correction; a missing embedding keeps the old vector. -/
def mergePattern (existing : CorrectionPattern K) (correction : Correction K)
    (intentEmbedding : Option (List K)) (now : K) : CorrectionPattern K :=
  let updated := existing.withIncrement correction.improvement now
  { updated with intentVector := intentEmbedding.getD updated.intentVector }

/-- `save_correction` with the clock reading and the random digits it may use. -/
def saveCorrection (store : InMemoryCorrectionStore K) (correction : Correction K)
    (intentEmbedding : Option (List K)) (now : K) (hex : String) : InMemoryCorrectionStore K where
  corrections := store.corrections.set correction.correctionId correction
  patterns := store.patterns.set (patternKey correction)
    (match store.patterns.get? (patternKey correction) with
      | some existing => mergePattern existing correction intentEmbedding now
      | none => newPattern correction intentEmbedding now hex)

def findPatterns (store : InMemoryCorrectionStore K) : List (CorrectionPattern K) :=
  store.patterns.values

/-- The store as a port, for one save at reading `now`. -/
def port (now : K) (hex : String) : CorrectionStorePort K (InMemoryCorrectionStore K) where
  saveCorrection correction intentEmbedding :=
    ⟨fun store => (.ok (), store.saveCorrection correction intentEmbedding now hex)⟩
  findPatterns _ := ⟨fun store => (.ok store.findPatterns, store)⟩

end InMemoryCorrectionStore

end InMemory

section DuckDB

variable {K : Type} [Field K] [LinearOrder K]

/-- A row of `correction_patterns`; the JSON columns are kept as their values, and the
`TIMESTAMP` column without a time zone. -/
structure PatternRow (K : Type) where
  patternId : String
  intentVector : List K
  originalTools : List String
  correctedTools : List String
  occurrenceCount : ℕ
  avgConfidenceImprovement : K
  lastUpdated : K

structure DuckDBCorrectionStore (K : Type) [Field K] [LinearOrder K] where
  corrections : List (Correction K)
  correctionPatterns : List (PatternRow K)

namespace DuckDBCorrectionStore

def empty : DuckDBCorrectionStore K := ⟨[], []⟩

/-- The `WHERE` clause of the lookup. -/
def matching (correction : Correction K) (row : PatternRow K) : Bool :=
  decide (correction.originalTool ∈ row.originalTools) &&
    decide (correction.correctedTool ∈ row.correctedTools)

def insertedRow (correction : Correction K) (vector : List K) (now : K) (hex : String) :
    PatternRow K where
  patternId := "pattern_" ++ hexPrefix 8 hex
  intentVector := vector
  originalTools := [correction.originalTool]
  correctedTools := [correction.correctedTool]
  occurrenceCount := 1
  avgConfidenceImprovement := correction.improvement
  lastUpdated := now

def updatedRow (existing : PatternRow K) (correction : Correction K) (vector : List K) (now : K)
    (row : PatternRow K) : PatternRow K :=
  { row with
    occurrenceCount := existing.occurrenceCount + 1
    avgConfidenceImprovement :=
      (existing.avgConfidenceImprovement * existing.occurrenceCount + correction.improvement) /
        ((existing.occurrenceCount + 1 : ℕ) : K)
    intentVector := vector
    lastUpdated := now }

/-- `_update_pattern_from_correction`. The first matching row is fetched, and the update
reaches every row with its identifier. -/
def updatePattern (rows : List (PatternRow K)) (correction : Correction K)
    (intentEmbedding : Option (List K)) (now : K) (hex : String) : List (PatternRow K) :=
  let vector := intentEmbedding.getD InMemoryCorrectionStore.defaultVector
  match rows.find? (matching correction) with
  | some existing => rows.map fun row =>
      if row.patternId = existing.patternId then updatedRow existing correction vector now row
      else row
  | none => rows ++ [insertedRow correction vector now hex]

/-- For each SQL statement of one call, whether it raises. -/
structure SqlFaults where
  insertCorrection : Option PyException
  selectPattern : Option PyException
  writePattern : Option PyException

/-- `conn.execute`; every statement is committed on its own. -/
def statement {σ α : Type} (fault : Option PyException) (x : Proc σ α) : Proc σ α :=
  match fault with
  | some e => raise e
  | none => x

/-- Both tables reject a primary key they hold already. -/
def duplicateKey {σ : Type} : Proc σ Unit :=
  raise (.other "ConstraintException" "Duplicate key violates primary key constraint")

def insertCorrection (correction : Correction K) : Proc (DuckDBCorrectionStore K) Unit := do
  let store ← read
  if correction.correctionId ∈ store.corrections.map (·.correctionId) then duplicateKey
  else modify fun store => { store with corrections := store.corrections ++ [correction] }

def writePattern (correction : Correction K) (intentEmbedding : Option (List K)) (now : K)
    (hex : String) : Proc (DuckDBCorrectionStore K) Unit := do
  let store ← read
  let rows := updatePattern store.correctionPatterns correction intentEmbedding now hex
  if (rows.map (·.patternId)).Nodup then
    modify fun store => { store with correctionPatterns := rows }
  else duplicateKey

/-- `save_correction`; `dumps` is `json.dumps` of the metadata. -/
def saveCorrection (dumps : PyVal K → Except PyException String) (faults : SqlFaults)
    (correction : Correction K) (intentEmbedding : Option (List K)) (now : K) (hex : String) :
    Proc (DuckDBCorrectionStore K) Unit := do
  let _ ← ofExcept (dumps correction.correctionMetadata)
  statement faults.insertCorrection (insertCorrection correction)
  statement faults.selectPattern (pure ())
  statement faults.writePattern (writePattern correction intentEmbedding now hex)

/-- `_row_to_pattern`. The timestamp comes back naive, and undo counts are not stored. -/
def rowToPattern (row : PatternRow K) : CorrectionPattern K where
  patternId := row.patternId
  intentVector := row.intentVector
  originalTools := row.originalTools
  correctedTools := row.correctedTools
  occurrenceCount := row.occurrenceCount
  avgConfidenceImprovement := row.avgConfidenceImprovement
  lastUpdated := ⟨row.lastUpdated, false⟩
  totalUndoCount := 0

def cosineSimilarity [PyMath K] (vec1 vec2 : List K) : K :=
  if vec1.length ≠ vec2.length ∨ vec1.length = 0 then 0
  else
    let dotProduct := dot vec1 vec2
    let mag1 := PyMath.powHalf (normSq vec1)
    let mag2 := PyMath.powHalf (normSq vec2)
    if mag1 = 0 ∨ mag2 = 0 then 0 else dotProduct / (mag1 * mag2)

/-- `find_patterns` over the rows as `ORDER BY occurrence_count DESC` ranks them; the query
ends with `LIMIT 10`. -/
def findPatterns [PyMath K] (ordered : List (PatternRow K)) (intentVector : List K) :
    List (CorrectionPattern K) :=
  ((ordered.take 10).map rowToPattern).filter fun pattern =>
    PATTERN_SIMILARITY_THRESHOLD < cosineSimilarity intentVector pattern.intentVector

end DuckDBCorrectionStore

end DuckDB

section Capture

variable {K : Type} [Field K] [LinearOrder K] {C S : Type}

structure CaptureCorrectionCommand (K : Type) where
  sessionId : String
  agentId : String
  originalIntent : String
  inferredContext : String
  originalTool : String
  correctedTool : String
  correctionMetadata : PyVal K
  operatorIdentity : String
  confidenceBefore : K
  confidenceAfter : K

namespace CaptureCorrectionCommand

/-- The `Correction` constructor, which validates both confidences. -/
def correction (cmd : CaptureCorrectionCommand K) (hex : String) (now : K) :
    Except PyException (Correction K) :=
  if before_range : 0 ≤ cmd.confidenceBefore ∧ cmd.confidenceBefore ≤ 1 then
    if after_range : 0 ≤ cmd.confidenceAfter ∧ cmd.confidenceAfter ≤ 1 then
      .ok
        { correctionId := "corr_" ++ hexPrefix 12 hex
          sessionId := cmd.sessionId
          agentId := cmd.agentId
          originalIntent := cmd.originalIntent
          inferredContext := cmd.inferredContext
          originalTool := cmd.originalTool
          correctedTool := cmd.correctedTool
          correctionMetadata := cmd.correctionMetadata
          operatorIdentity := cmd.operatorIdentity
          confidenceBefore := cmd.confidenceBefore
          confidenceAfter := cmd.confidenceAfter
          capturedAt := utc now
          before_range, after_range }
    else .error (.valueError "Confidence must be between 0.0 and 1.0")
  else .error (.valueError "Confidence must be between 0.0 and 1.0")

/-- An empty intent gets no embedding. -/
def intentEmbedding (cmd : CaptureCorrectionCommand K) :
    Option (IntentClassifierPort K C) → Proc C (Option (List K))
  | none => pure none
  | some classifier =>
    if cmd.originalIntent = "" then pure none
    else do
      let embedding ← classifier.getEmbedding cmd.originalIntent
      return some embedding

/-- The command over the states of the classifier and of the store. -/
def execute (cmd : CaptureCorrectionCommand K) (store : CorrectionStorePort K S)
    (classifier : Option (IntentClassifierPort K C)) (hex : String) (now : K) :
    Proc (C × S) (Correction K) := do
  let correction ← ofExcept (cmd.correction hex now)
  let embedding ← onFst (cmd.intentEmbedding classifier)
  onState (store.saveCorrection correction embedding)
  return correction

end CaptureCorrectionCommand

end Capture

end CorrectionStores
