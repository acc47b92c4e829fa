import Mathlib.Algebra.GroupWithZero.Nat
import SynapticBridge.RankedSelection
import SynapticBridge.SaveAtomicity

/-! What the correction stores hand out: a correction by its identifier, and the statistics of the
DuckDB store, after any calls of which some raise before their first commit and some between the
first and the second. -/
namespace StoreReadOuts

open Domain CorrectionPatterns OrderedDict Grouping CorrectionStores StoreAgreement StorePartition
open SaveAtomicity RankedSelection
open Procedures.Proc

variable {K : Type} [Field K] [LinearOrder K]

section ReadOuts

structure Json (K : Type) where
  dumps : PyVal K → Except PyException String
  loads : String → Except PyException (PyVal K)

/-- `get_correction` of the in-memory store. -/
def getFromMemory (store : InMemoryCorrectionStore K) (correctionId : String) :
    Option (Correction K) := store.corrections.get? correctionId

/-- `_row_to_correction`: the metadata column holds a text, and the timestamp comes back naive. -/
def rowToCorrection (json : Json K) (row : Correction K) : Except PyException (Correction K) := do
  let text ← json.dumps row.correctionMetadata
  let metadata ← if text = "" then pure (.dict []) else json.loads text
  return { row with
    correctionMetadata := metadata
    capturedAt := ⟨row.capturedAt.seconds, false⟩ }

def readBack (json : Json K) (row : Option (Correction K)) :
    Except PyException (Option (Correction K)) :=
  match row with
  | none => .ok none
  | some row => (rowToCorrection json row).map some

/-- `get_correction` of the DuckDB store. -/
def getFromTable (json : Json K) (store : DuckDBCorrectionStore K) (correctionId : String) :
    Except PyException (Option (Correction K)) :=
  readBack json (store.corrections.find? fun row => row.correctionId = correctionId)

/-- Metadata that JSON keeps comes back, and the time zone does not. -/
theorem rowToCorrection_ok {json : Json K} {row : Correction K} {text : String}
    (dumped : json.dumps row.correctionMetadata = .ok text) (nonempty : text ≠ "")
    (loaded : json.loads text = .ok row.correctionMetadata) :
    rowToCorrection json row = .ok { row with capturedAt := ⟨row.capturedAt.seconds, false⟩ } := by
  rw [rowToCorrection, dumped]
  change (do
    let metadata ← if text = "" then pure (PyVal.dict []) else json.loads text
    pure { row with
      correctionMetadata := metadata
      capturedAt := ⟨row.capturedAt.seconds, false⟩ }) = _
  rw [if_neg nonempty, loaded]
  rfl

structure TopPattern where
  source : List String
  target : List String
  count : ℕ
  deriving DecidableEq

structure PatternStats where
  totalPatterns : ℕ
  totalCorrections : ℕ
  topPatterns : List TopPattern

def topPattern (row : PatternRow K) : TopPattern :=
  ⟨row.originalTools, row.correctedTools, row.occurrenceCount⟩

/-- `get_pattern_stats` over the rows as `ORDER BY occurrence_count DESC` ranks them; that query
ends with `LIMIT 5`. -/
def getPatternStats (store : DuckDBCorrectionStore K) (ordered : List (PatternRow K)) :
    PatternStats where
  totalPatterns := store.correctionPatterns.length
  totalCorrections := store.corrections.length
  topPatterns := (ordered.take 5).map topPattern

end ReadOuts

section Attempts

/-- A call of `save_correction` with the statements of it that raise. -/
structure Attempt (K : Type) [Field K] [LinearOrder K] extends SaveCall K where
  faults : DuckDBCorrectionStore.SqlFaults

variable {dumps : PyVal K → Except PyException String} {table : DuckDBCorrectionStore K}
  {a : Attempt K}

def call (dumps : PyVal K → Except PyException String) (table : DuckDBCorrectionStore K)
    (a : Attempt K) : Except PyException Unit × DuckDBCorrectionStore K :=
  (DuckDBCorrectionStore.saveCorrection dumps a.faults a.correction a.intentEmbedding a.now
    a.hex).run table

/-- The tables after the calls, whether they return or raise. -/
def after (dumps : PyVal K → Except PyException String) (attempts : List (Attempt K))
    (table : DuckDBCorrectionStore K) : DuckDBCorrectionStore K :=
  attempts.foldl (fun table a => (call dumps table a).2) table

def returns (dumps : PyVal K → Except PyException String) (table : DuckDBCorrectionStore K)
    (a : Attempt K) : Bool :=
  match (call dumps table a).1 with
  | .ok _ => true
  | .error _ => false

/-- The call raises before the insert of its correction, or in it. -/
def refused (dumps : PyVal K → Except PyException String) (table : DuckDBCorrectionStore K)
    (a : Attempt K) : Bool :=
  match dumps a.correction.correctionMetadata with
  | .error _ => true
  | .ok _ => a.faults.insertCorrection.isSome ||
      decide (a.correction.correctionId ∈ table.corrections.map (·.correctionId))

/-- The calls that meet a condition on the tables they find. -/
def those (p : DuckDBCorrectionStore K → Attempt K → Bool)
    (dumps : PyVal K → Except PyException String) :
    List (Attempt K) → DuckDBCorrectionStore K → List (SaveCall K)
  | [], _ => []
  | a :: rest, table =>
    if p table a then a.toSaveCall :: those p dumps rest (call dumps table a).2
    else those p dumps rest (call dumps table a).2

/-- The calls whose correction is committed. -/
def accepted (dumps : PyVal K → Except PyException String) (attempts : List (Attempt K)) :
    List (SaveCall K) := those (fun table a => !refused dumps table a) dumps attempts .empty

def returned (dumps : PyVal K → Except PyException String) (attempts : List (Attempt K)) :
    List (SaveCall K) := those (returns dumps) dumps attempts .empty

/-- The calls that raise although their correction is committed. -/
def halfway (dumps : PyVal K → Except PyException String) (attempts : List (Attempt K)) :
    List (SaveCall K) :=
  those (fun table a => !refused dumps table a && !returns dumps table a) dumps attempts .empty

theorem refused_iff : refused dumps table a = true ↔
    FailsFirst dumps a.faults a.correction table := by
  rw [refused, FailsFirst]
  cases hdumps : dumps a.correction.correctionMetadata with
  | error e => simp
  | ok text => simp

/-- A call that returns has inserted a correction with a new identifier. -/
theorem returned_fresh {table' : DuckDBCorrectionStore K}
    (h : call dumps table a = (.ok (), table')) :
    a.correction.correctionId ∉ table.corrections.map (·.correctionId) := by
  obtain ⟨_, _, hdumps, h⟩ := bind_eq_ok.mp h
  obtain ⟨-, rfl⟩ := Prod.mk.inj hdumps
  obtain ⟨_, _, hinsert, -⟩ := bind_eq_ok.mp h
  exact (insertCorrection_ok (statement_ok hinsert)).1

/-- What one call does: nothing, one row more in `corrections`, or that and a merged pattern. -/
inductive Fate (dumps : PyVal K → Except PyException String) (table : DuckDBCorrectionStore K)
    (a : Attempt K) : Prop where
  | refused (h : refused dumps table a = true) (raises : returns dumps table a = false)
      (same : (call dumps table a).2 = table) : Fate dumps table a
  | halfway (h : refused dumps table a = false) (raises : returns dumps table a = false)
      (fresh : a.correction.correctionId ∉ table.corrections.map (·.correctionId))
      (corrections : (call dumps table a).2.corrections = table.corrections ++ [a.correction])
      (patterns : (call dumps table a).2.correctionPatterns = table.correctionPatterns) :
      Fate dumps table a
  | returned (h : refused dumps table a = false) (returns : returns dumps table a = true)
      (fresh : a.correction.correctionId ∉ table.corrections.map (·.correctionId))
      (ok : call dumps table a = (.ok (), (call dumps table a).2)) : Fate dumps table a

theorem fate (dumps : PyVal K → Except PyException String) (table : DuckDBCorrectionStore K)
    (a : Attempt K) : Fate dumps table a := by
  rcases hcall : call dumps table a with ⟨result, table'⟩
  cases result with
  | error e =>
    have hraises : returns dumps table a = false := by rw [returns, hcall]
    rcases saveCorrection_error hcall with ⟨first, rfl⟩ | ⟨later, rfl⟩
    · exact .refused (refused_iff.mpr first) hraises (by rw [hcall])
    · refine .halfway ?_ hraises (fun taken => later (.inr (.inr taken))) (by rw [hcall])
        (by rw [hcall])
      rw [← Bool.not_eq_true, refused_iff]
      exact later
  | ok _ =>
    have hfresh := returned_fresh hcall
    refine .returned ?_ (by rw [returns, hcall]) hfresh (by rw [hcall])
    rw [← Bool.not_eq_true, refused_iff]
    rintro (⟨e, he⟩ | hfault | taken)
    · obtain ⟨_, _, hdumps, -⟩ := bind_eq_ok.mp hcall
      obtain ⟨htext, -⟩ := Prod.mk.inj hdumps
      rw [he] at htext
      cases htext
    · obtain ⟨e, he⟩ := Option.isSome_iff_exists.mp hfault
      obtain ⟨_, _, hdumps, h⟩ := bind_eq_ok.mp hcall
      obtain ⟨_, _, hinsert, -⟩ := bind_eq_ok.mp h
      rw [he] at hinsert
      cases hinsert
    · exact hfresh taken

theorem after_cons (dumps : PyVal K → Except PyException String) (a : Attempt K)
    (rest : List (Attempt K)) (table : DuckDBCorrectionStore K) :
    after dumps (a :: rest) table = after dumps rest (call dumps table a).2 := rfl

theorem mem_those {p : DuckDBCorrectionStore K → Attempt K → Bool} {c : SaveCall K}
    {attempts : List (Attempt K)} {table : DuckDBCorrectionStore K}
    (h : c ∈ those p dumps attempts table) : ∃ table a, p table a = true ∧ a.toSaveCall = c := by
  induction attempts generalizing table with
  | nil => cases h
  | cons a rest ih =>
    rw [those] at h
    split_ifs at h with hp
    · rcases List.mem_cons.mp h with rfl | h
      · exact ⟨table, a, hp, rfl⟩
      · exact ih h
    · exact ih h

/-- The corrections that are committed are those of the accepted calls, in order. -/
theorem after_corrections (attempts : List (Attempt K)) (table : DuckDBCorrectionStore K) :
    (after dumps attempts table).corrections = table.corrections ++
      (those (fun table a => !refused dumps table a) dumps attempts table).map (·.correction) := by
  induction attempts generalizing table with
  | nil => exact (List.append_nil _).symm
  | cons a rest ih =>
    rw [after_cons, ih, those]
    cases fate dumps table a with
    | refused h _ same => simp [h, same]
    | halfway h _ _ corrections _ => simp [h, corrections]
    | returned h _ _ ok => simp [h, (saveCorrection_ok ok).1]

theorem after_ids (attempts : List (Attempt K)) {table : DuckDBCorrectionStore K}
    (distinct : (table.corrections.map (·.correctionId)).Nodup) :
    ((after dumps attempts table).corrections.map (·.correctionId)).Nodup := by
  induction attempts generalizing table with
  | nil => exact distinct
  | cons a rest ih =>
    have snoc (fresh : a.correction.correctionId ∉ table.corrections.map (·.correctionId)) :
        ((table.corrections ++ [a.correction]).map (·.correctionId)).Nodup := by
      rw [List.map_append, List.map_singleton, ← List.concat_eq_append]
      exact distinct.concat fresh
    rw [after_cons]
    refine ih ?_
    cases fate dumps table a with
    | refused _ _ same => rw [same]; exact distinct
    | halfway _ _ fresh corrections _ => rw [corrections]; exact snoc fresh
    | returned _ _ fresh ok => rw [(saveCorrection_ok ok).1]; exact snoc fresh

/-- The patterns are those of the calls that returned, whatever the others left behind. -/
theorem after_patterns (attempts : List (Attempt K)) (calls : List (SaveCall K))
    {table : DuckDBCorrectionStore K}
    (rows : table.correctionPatterns = (group pair mergeInRow calls).values)
    (ids : (table.correctionPatterns.map (·.patternId)).Nodup) :
    (after dumps attempts table).correctionPatterns =
      (group pair mergeInRow (calls ++ those (returns dumps) dumps attempts table)).values := by
  induction attempts generalizing calls table with
  | nil =>
    rw [those, List.append_nil]
    exact rows
  | cons a rest ih =>
    rw [after_cons, those]
    cases fate dumps table a with
    | refused _ raises same =>
      rw [raises, same]
      exact ih calls rows ids
    | halfway _ raises _ _ patterns =>
      rw [raises]
      exact ih calls (patterns.trans rows) (by rw [patterns]; exact ids)
    | returned _ returns _ ok =>
      obtain ⟨rows', ids'⟩ := rows_save rows ids ok
      rw [returns, if_pos rfl, List.append_cons]
      exact ih _ rows' ids'

/-- An accepted call returns or stops halfway. -/
theorem length_accepted (attempts : List (Attempt K)) (table : DuckDBCorrectionStore K) :
    (those (fun table a => !refused dumps table a) dumps attempts table).length =
      (those (returns dumps) dumps attempts table).length +
      (those (fun table a => !refused dumps table a && !returns dumps table a) dumps attempts
        table).length := by
  induction attempts generalizing table with
  | nil => rfl
  | cons a rest ih =>
    simp only [those]
    cases fate dumps table a with
    | refused h raises _ => simp [h, raises, ih]
    | halfway h raises _ _ _ =>
      simp [h, raises, ih]
      omega
    | returned h returns _ _ =>
      simp [h, returns, ih]
      omega

end Attempts

section Results

variable {dumps : PyVal K → Except PyException String}

theorem accepted_corrections (dumps : PyVal K → Except PyException String)
    (attempts : List (Attempt K)) :
    (after dumps attempts .empty).corrections = (accepted dumps attempts).map (·.correction) := by
  rw [after_corrections, accepted]
  rfl

theorem accepted_ids (dumps : PyVal K → Except PyException String) (attempts : List (Attempt K)) :
    ((accepted dumps attempts).map (·.correction.correctionId)).Nodup := by
  have hids : ((after dumps attempts .empty).corrections.map (·.correctionId)).Nodup :=
    after_ids attempts List.nodup_nil
  rw [accepted_corrections, List.map_map] at hids
  exact hids

theorem accepted_dumps {attempts : List (Attempt K)} {c : SaveCall K}
    (h : c ∈ accepted dumps attempts) :
    ∃ text, dumps c.correction.correctionMetadata = .ok text := by
  obtain ⟨table, a, ha, rfl⟩ := mem_those h
  rw [Bool.not_eq_true', refused] at ha
  cases hdumps : dumps a.correction.correctionMetadata with
  | error e =>
    rw [hdumps] at ha
    cases ha
  | ok text => exact ⟨text, rfl⟩

/-- With distinct identifiers a dictionary and a scan find the same. -/
theorem getFromMemory_eq {calls : List (SaveCall K)}
    (ids : (calls.map (·.correction.correctionId)).Nodup) (id : String) :
    getFromMemory (savedInMemory calls) id =
      (calls.map (·.correction)).find? fun row => row.correctionId = id := by
  rw [getFromMemory, Dict.get?, savedInMemory_corrections ids]
  induction calls with
  | nil => rfl
  | cons c calls ih =>
    rw [List.map_cons, List.map_cons, findEntry_cons, List.find?_cons]
    rw [List.map_cons, List.nodup_cons] at ids
    by_cases hid : c.correction.correctionId = id
    · simp [hid]
    · simp [hid, ih ids.2]

/-- After any calls, failing or not, the table hands out what an in-memory store would that got
the accepted calls only, read back from the row: no correction is ever replaced by a later one of
the same identifier. If the metadata survives JSON, only the time zone of `captured_at` is lost. -/
theorem lookups_refine (json : Json K) (attempts : List (Attempt K)) (id : String) :
    let table := after json.dumps attempts .empty
    let memory := savedInMemory (accepted json.dumps attempts)
    getFromTable json table id = readBack json (getFromMemory memory id) ∧
    ((∀ m text, json.dumps m = .ok text → text ≠ "" ∧ json.loads text = .ok m) →
      getFromTable json table id = .ok ((getFromMemory memory id).map fun c =>
        { c with capturedAt := ⟨c.capturedAt.seconds, false⟩ })) := by
  intro table memory
  have hfound : getFromMemory memory id =
      table.corrections.find? fun row => row.correctionId = id := by
    rw [accepted_corrections]
    exact getFromMemory_eq (accepted_ids json.dumps attempts) id
  refine ⟨by rw [getFromTable, hfound], fun faithful => ?_⟩
  rw [getFromTable, ← hfound]
  cases hmemory : getFromMemory memory id with
  | none => rfl
  | some c =>
    rw [hfound] at hmemory
    have hmem := List.mem_of_find?_eq_some hmemory
    rw [accepted_corrections] at hmem
    obtain ⟨call, hcall, rfl⟩ := List.mem_map.mp hmem
    obtain ⟨text, htext⟩ := accepted_dumps hcall
    obtain ⟨hne, hloads⟩ := faithful _ text htext
    rw [readBack, rowToCorrection_ok htext hne hloads]
    rfl

/-- The statistics after any calls: the patterns partition the corrections of the calls that
returned, so the number of corrections exceeds the sum of the counts by the calls that raised
halfway. The patterns shown are the most frequent ones, all of them if there are at most five. -/
theorem stats_account [IsStrictOrderedRing K] (dumps : PyVal K → Except PyException String)
    (attempts : List (Attempt K)) (ordered : List (PatternRow K))
    (ranked : Ranked (·.occurrenceCount) ordered
      (after dumps attempts .empty).correctionPatterns) :
    let table := after dumps attempts .empty
    let stats := getPatternStats table ordered
    Partition columns rowColumns (·.occurrenceCount) (·.avgConfidenceImprovement)
      ((returned dumps attempts).map (·.correction)) table.correctionPatterns ∧
    stats.totalCorrections = (table.correctionPatterns.map (·.occurrenceCount)).sum +
      (halfway dumps attempts).length ∧
    stats.topPatterns.length = min 5 stats.totalPatterns ∧
    (∀ row ∈ table.correctionPatterns, topPattern row ∉ stats.topPatterns →
      ∀ top ∈ stats.topPatterns, row.occurrenceCount ≤ top.count) ∧
    (stats.totalPatterns ≤ 5 → stats.totalCorrections =
      (stats.topPatterns.map (·.count)).sum + (halfway dumps attempts).length) := by
  intro table stats
  have hpatterns : table.correctionPatterns =
      (group pair mergeInRow (returned dumps attempts)).values :=
    after_patterns attempts [] rfl List.nodup_nil
  have hpartition : Partition columns rowColumns (·.occurrenceCount) (·.avgConfidenceImprovement)
      ((returned dumps attempts).map (·.correction)) table.correctionPatterns := by
    rw [hpatterns, pair_values]
    exact partition_of_group row_label row_mean _
  have htotal : stats.totalCorrections = (table.correctionPatterns.map (·.occurrenceCount)).sum +
      (halfway dumps attempts).length := by
    rw [hpartition.total, List.length_map]
    have hlength := congrArg List.length (accepted_corrections dumps attempts)
    rw [List.length_map] at hlength
    exact hlength.trans (length_accepted attempts .empty)
  have htop : stats.topPatterns = (ordered.take 5).map topPattern := rfl
  refine ⟨hpartition, htotal, ?_, ?_, fun few => ?_⟩
  · rw [htop, List.length_map, List.length_take, ranked.perm.length_eq]
    rfl
  · intro row hrow hnot top htop
    obtain ⟨shown, hshown, rfl⟩ := List.mem_map.mp htop
    have hsorted := ranked.descending
    rw [← List.take_append_drop 5 ordered] at hsorted
    have hmem := ranked.perm.mem_iff.mpr hrow
    rw [← List.take_append_drop 5 ordered] at hmem
    rcases List.mem_append.mp hmem with htaken | hdropped
    · exact absurd (List.mem_map_of_mem htaken) hnot
    · exact (List.pairwise_append.mp hsorted).2.2 shown hshown row hdropped
  · have hall : ordered.take 5 = ordered :=
      List.take_of_length_le (ranked.perm.length_eq.le.trans few)
    have hsum := (ranked.perm.map (·.occurrenceCount)).sum_eq
    rw [htotal, htop, hall, List.map_map, ← hsum]
    rfl

/-! A save that returns, and one whose pattern is not written. -/

def sampleAttempts : List (Attempt ℚ) :=
  [⟨⟨correctionOf "corr_1" "fs.read" "db.query", none, 0, "a"⟩, noFaults⟩,
    ⟨⟨correctionOf "corr_2" "fs.read" "db.query", none, 1, "b"⟩, lookupFails⟩]

theorem sample_ranked : Ranked (·.occurrenceCount)
    (after (fun _ => .ok "\x7b\x7d") sampleAttempts .empty).correctionPatterns
    (after (fun _ => .ok "\x7b\x7d") sampleAttempts .empty).correctionPatterns :=
  ⟨.refl _, List.pairwise_singleton _ _⟩

theorem stats_account_sample :
    (getPatternStats (after (fun _ => .ok "\x7b\x7d") sampleAttempts .empty)
      (after (fun _ => .ok "\x7b\x7d") sampleAttempts .empty).correctionPatterns).totalCorrections =
        ((after (fun _ => .ok "\x7b\x7d") sampleAttempts .empty).correctionPatterns.map
          (·.occurrenceCount)).sum +
          (halfway (fun _ => .ok "\x7b\x7d") sampleAttempts).length ∧
      (halfway (fun _ => .ok "\x7b\x7d") sampleAttempts).length = 1 :=
  ⟨(stats_account _ _ _ sample_ranked).2.1, rfl⟩

end Results

end StoreReadOuts
