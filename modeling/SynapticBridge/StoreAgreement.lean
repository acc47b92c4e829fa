import SynapticBridge.CorrectionStores
import SynapticBridge.Grouping
import Mathlib.Algebra.Order.Field.Rat
import Mathlib.Tactic.NormNum

/-! The same corrections saved into both stores. Each store is a grouping of the saves, by
corrected tool or by pair of tools, with one way of merging counts and averages. -/
namespace StoreAgreement

open Domain CorrectionPatterns OrderedDict Grouping CorrectionStores
open Procedures.Proc

variable {K : Type} [Field K] [LinearOrder K]

/-- One correction with its embedding, and what each store reads from clock and `uuid4`. -/
structure Save (K : Type) [Field K] [LinearOrder K] where
  correction : Correction K
  embedding : List K
  memoryNow : K
  memoryHex : String
  tableNow : K
  tableHex : String

/-- The compared columns of a pattern. -/
structure Summary (K : Type) where
  originalTools : List String
  correctedTools : List String
  occurrenceCount : ℕ
  avgConfidenceImprovement : K

def patternSummary (p : CorrectionPattern K) : Summary K :=
  ⟨p.originalTools, p.correctedTools, p.occurrenceCount, p.avgConfidenceImprovement⟩

def rowSummary (row : PatternRow K) : Summary K :=
  ⟨row.originalTools, row.correctedTools, row.occurrenceCount, row.avgConfidenceImprovement⟩

def memorySave (s : Save K) (store : InMemoryCorrectionStore K) : InMemoryCorrectionStore K :=
  store.saveCorrection s.correction (some s.embedding) s.memoryNow s.memoryHex

/-- Both stores after the same successful saves, starting empty. -/
inductive Saved (dumps : PyVal K → Except PyException String) :
    List (Save K) → InMemoryCorrectionStore K → DuckDBCorrectionStore K → Prop where
  | empty : Saved dumps [] .empty .empty
  | save {saves : List (Save K)} {memory : InMemoryCorrectionStore K}
      {table table' : DuckDBCorrectionStore K} (prior : Saved dumps saves memory table)
      (s : Save K) (faults : DuckDBCorrectionStore.SqlFaults)
      (ok : (DuckDBCorrectionStore.saveCorrection dumps faults s.correction (some s.embedding)
        s.tableNow s.tableHex).run table = (.ok (), table')) :
      Saved dumps (saves ++ [s]) (memorySave s memory) table'

def correctedKey (s : Save K) : List String := [s.correction.correctedTool]
def pairKey (s : Save K) : String × String :=
  (s.correction.originalTool, s.correction.correctedTool)

def mergeInMemory (old : Option (CorrectionPattern K)) (s : Save K) : CorrectionPattern K :=
  match old with
  | some existing =>
    InMemoryCorrectionStore.mergePattern existing s.correction (some s.embedding) s.memoryNow
  | none =>
    InMemoryCorrectionStore.newPattern s.correction (some s.embedding) s.memoryNow s.memoryHex

def mergeInTable (old : Option (PatternRow K)) (s : Save K) : PatternRow K :=
  match old with
  | some existing =>
    DuckDBCorrectionStore.updatedRow existing s.correction s.embedding s.tableNow existing
  | none => DuckDBCorrectionStore.insertedRow s.correction s.embedding s.tableNow s.tableHex

/-- The row of a pair of tools after one more correction. -/
def mergeRow (old : Option (PatternRow K)) (correction : Correction K) (vector : List K) (now : K)
    (hex : String) : PatternRow K :=
  match old with
  | some existing => DuckDBCorrectionStore.updatedRow existing correction vector now existing
  | none => DuckDBCorrectionStore.insertedRow correction vector now hex

/-- The in-memory patterns are the saves grouped by corrected tool. -/
theorem Saved.memory_eq {dumps : PyVal K → Except PyException String} {saves : List (Save K)}
    {memory : InMemoryCorrectionStore K} {table : DuckDBCorrectionStore K}
    (h : Saved dumps saves memory table) :
    memory.patterns = group correctedKey mergeInMemory saves := by
  induction h with
  | empty => rfl
  | save prior s faults ok ih =>
    rw [group_snoc, ← ih]
    rfl

section Table

variable {rows : List (PatternRow K)} {entries : List ((String × String) × PatternRow K)}

/-- Each row names the pair of tools of its key. -/
def Named (entries : List ((String × String) × PatternRow K)) : Prop :=
  ∀ e ∈ entries, e.2.originalTools = [e.1.1] ∧ e.2.correctedTools = [e.1.2]

theorem named_group (saves : List (Save K)) :
    Named (group pairKey mergeInTable saves).entries := by
  intro e he
  refine group_invariant (P := fun k row => row.originalTools = [k.1] ∧ row.correctedTools = [k.2])
    (fun s old hold => ?_) saves e.1 e.2 (Dict.get?_eq_some.mpr he)
  cases old with
  | none => exact ⟨rfl, rfl⟩
  | some row => exact hold row rfl

theorem matching_iff (h : Named entries) {e : (String × String) × PatternRow K}
    (he : e ∈ entries) (correction : Correction K) :
    DuckDBCorrectionStore.matching correction e.2 = true ↔
      e.1 = (correction.originalTool, correction.correctedTool) := by
  obtain ⟨horiginal, hcorrected⟩ := h e he
  rw [DuckDBCorrectionStore.matching, horiginal, hcorrected, Bool.and_eq_true,
    decide_eq_true_iff, decide_eq_true_iff, List.mem_singleton, List.mem_singleton]
  constructor
  · rintro ⟨h₁, h₂⟩
    exact Prod.ext h₁.symm h₂.symm
  · intro hkey
    exact ⟨congrArg Prod.fst hkey.symm, congrArg Prod.snd hkey.symm⟩

/-- The SQL lookup finds the row of the key. -/
theorem find?_matching (h : Named entries) (correction : Correction K) :
    (entries.map Prod.snd).find? (DuckDBCorrectionStore.matching correction) =
      findEntry (correction.originalTool, correction.correctedTool) entries := by
  induction entries with
  | nil => rfl
  | cons e es ih =>
    have hiff := matching_iff h List.mem_cons_self correction
    rw [List.map_cons, findEntry_cons]
    by_cases he : e.1 = (correction.originalTool, correction.correctedTool)
    · rw [List.find?_cons_of_pos (hiff.mpr he), if_pos he]
    · rw [List.find?_cons_of_neg (fun hm => he (hiff.mp hm)), if_neg he]
      exact ih fun e he => h e (List.mem_cons_of_mem _ he)

/-- With distinct identifiers the SQL update changes the fetched row only. -/
theorem updatePattern_eq (h : Named entries)
    (ids : ((entries.map Prod.snd).map (·.patternId)).Nodup) (correction : Correction K)
    (intentEmbedding : Option (List K)) (now : K) (hex : String) :
    let pair := (correction.originalTool, correction.correctedTool)
    DuckDBCorrectionStore.updatePattern (entries.map Prod.snd) correction intentEmbedding now hex =
      (setEntries pair (mergeRow (findEntry pair entries) correction
        (intentEmbedding.getD InMemoryCorrectionStore.defaultVector) now hex) entries).map
          Prod.snd := by
  intro pair
  rw [DuckDBCorrectionStore.updatePattern, find?_matching h]
  rcases hfind : findEntry pair entries with _ | existing
  · rw [setEntries_of_notMem (findEntry_eq_none.mp hfind)]
    simp [mergeRow]
  · obtain ⟨pre, post, rfl, hset⟩ := setEntries_split hfind
    rw [hset]
    simp only [List.map_append, List.map_cons, List.nodup_append, List.nodup_cons] at ids ⊢
    have keep : ∀ es : List ((String × String) × PatternRow K),
        existing.patternId ∉ (es.map Prod.snd).map (·.patternId) →
        (es.map Prod.snd).map (fun row => if row.patternId = existing.patternId then
          DuckDBCorrectionStore.updatedRow existing correction
            (intentEmbedding.getD InMemoryCorrectionStore.defaultVector) now row
          else row) = es.map Prod.snd := by
      intro es hes
      refine (List.map_congr_left fun row hrow => if_neg fun heq => hes ?_).trans (List.map_id _)
      exact heq ▸ List.mem_map_of_mem hrow
    simp only [if_true]
    rw [keep pre fun hmem => ids.2.2 _ hmem _ List.mem_cons_self rfl, keep post ids.2.1.1]
    rfl

end Table

theorem statement_ok {σ α : Type} {fault : Option PyException} {x : Proc σ α} {a : α} {s s' : σ}
    (h : (DuckDBCorrectionStore.statement fault x).run s = (.ok a, s')) :
    x.run s = (.ok a, s') := by
  cases fault with
  | none => exact h
  | some e => cases h

/-- A save that returns has rewritten the pattern table, whose identifiers stay distinct. -/
theorem saveCorrection_ok {dumps : PyVal K → Except PyException String}
    {faults : DuckDBCorrectionStore.SqlFaults} {correction : Correction K}
    {intentEmbedding : Option (List K)} {now : K} {hex : String}
    {table table' : DuckDBCorrectionStore K}
    (h : (DuckDBCorrectionStore.saveCorrection dumps faults correction intentEmbedding now
      hex).run table = (.ok (), table')) :
    table'.corrections = table.corrections ++ [correction] ∧
      table'.correctionPatterns = DuckDBCorrectionStore.updatePattern table.correctionPatterns
        correction intentEmbedding now hex ∧
      (table'.correctionPatterns.map (·.patternId)).Nodup := by
  obtain ⟨_, table₀, hdumps, h⟩ := bind_eq_ok.mp h
  obtain ⟨-, rfl⟩ := Prod.mk.inj hdumps
  obtain ⟨_, table₁, hinsert, h⟩ := bind_eq_ok.mp h
  have hsame : table₁.corrections = table.corrections ++ [correction] ∧
      table₁.correctionPatterns = table.correctionPatterns := by
    have hrun := statement_ok hinsert
    rw [DuckDBCorrectionStore.insertCorrection, bind_run, read_run] at hrun
    simp only at hrun
    split_ifs at hrun
    · cases hrun
    · obtain ⟨-, rfl⟩ := Prod.mk.inj hrun
      exact ⟨rfl, rfl⟩
  obtain ⟨_, table₂, hselect, h⟩ := bind_eq_ok.mp h
  obtain ⟨-, rfl⟩ := Prod.mk.inj (statement_ok hselect)
  have hrun := statement_ok h
  rw [DuckDBCorrectionStore.writePattern, bind_run, read_run] at hrun
  simp only at hrun
  split_ifs at hrun with hids
  · obtain ⟨-, rfl⟩ := Prod.mk.inj hrun
    rw [← hsame.2]
    exact ⟨hsame.1, rfl, hids⟩
  · cases hrun

/-- The table rows are the saves grouped by pair of tools. -/
theorem Saved.table_eq {dumps : PyVal K → Except PyException String} {saves : List (Save K)}
    {memory : InMemoryCorrectionStore K} {table : DuckDBCorrectionStore K}
    (h : Saved dumps saves memory table) :
    table.correctionPatterns = (group pairKey mergeInTable saves).values ∧
      (table.correctionPatterns.map (·.patternId)).Nodup := by
  induction h with
  | empty => exact ⟨rfl, by simp [DuckDBCorrectionStore.empty]⟩
  | @save saves memory table table' prior s faults ok ih =>
    obtain ⟨hrows, hids⟩ := ih
    obtain ⟨-, hupdate, hids'⟩ := saveCorrection_ok ok
    refine ⟨?_, hids'⟩
    rw [hrows] at hids
    have merged := updatePattern_eq (named_group saves) hids s.correction (some s.embedding)
      s.tableNow s.tableHex
    rw [hupdate, hrows, group_snoc]
    exact merged

section Fresh

open DuckDBCorrectionStore

variable {dumps : PyVal K → Except PyException String}

/-- The identifier that a new row gets. -/
def rowId (hex : String) : String := "pattern_" ++ hexPrefix 8 hex

theorem updatePattern_ids (rows : List (PatternRow K)) (correction : Correction K)
    (intentEmbedding : Option (List K)) (now : K) (hex : String) :
    (updatePattern rows correction intentEmbedding now hex).map (·.patternId) =
        rows.map (·.patternId) ∨
      (updatePattern rows correction intentEmbedding now hex).map (·.patternId) =
        rows.map (·.patternId) ++ [rowId hex] := by
  unfold updatePattern
  cases rows.find? (matching correction) with
  | none =>
    right
    rw [List.map_append]
    rfl
  | some existing =>
    left
    rw [List.map_map]
    apply List.map_congr_left
    intro row hrow
    by_cases hid : row.patternId = existing.patternId
    · simp [hid, updatedRow]
    · simp [hid]

/-- A save with a new correction identifier and new random digits returns. -/
theorem saveCorrection_fresh {table : DuckDBCorrectionStore K} {correction : Correction K}
    {text hex : String} (intentEmbedding : Option (List K)) (now : K)
    (serializable : dumps correction.correctionMetadata = .ok text)
    (newId : correction.correctionId ∉ table.corrections.map (·.correctionId))
    (ids : (table.correctionPatterns.map (·.patternId)).Nodup)
    (newRow : rowId hex ∉ table.correctionPatterns.map (·.patternId)) :
    (saveCorrection dumps ⟨none, none, none⟩ correction intentEmbedding now hex).run table =
      (.ok (), ⟨table.corrections ++ [correction],
        updatePattern table.correctionPatterns correction intentEmbedding now hex⟩) := by
  have hids : ((updatePattern table.correctionPatterns correction intentEmbedding now hex).map
      (·.patternId)).Nodup := by
    rcases updatePattern_ids table.correctionPatterns correction intentEmbedding now hex
      with h | h
    · rw [h]
      exact ids
    · rw [h]
      exact List.nodup_append.mpr ⟨ids, List.nodup_singleton _, fun x hx y hy =>
        List.mem_singleton.mp hy ▸ fun heq => newRow (heq ▸ hx)⟩
  have inserted : (insertCorrection correction).run table =
      (.ok (), { table with corrections := table.corrections ++ [correction] }) := by
    rw [insertCorrection, bind_ok (read_run _), if_neg newId]
    rfl
  have dumped : (ofExcept (dumps correction.correctionMetadata)).run table = (.ok text, table) := by
    rw [ofExcept_run, serializable]
  refine bind_eq_ok.mpr ⟨text, table, dumped, ?_⟩
  refine bind_eq_ok.mpr ⟨(), _, inserted, ?_⟩
  refine bind_eq_ok.mpr ⟨(), _, rfl, ?_⟩
  change (writePattern correction intentEmbedding now hex).run _ = _
  rw [writePattern, bind_ok (read_run _)]
  simp only [if_pos hids]
  rfl

/-- All sequences with distinct identifiers and distinct random digits are saved. -/
theorem saved_of_fresh {saves : List (Save K)}
    (serializable : ∀ s ∈ saves, ∃ text, dumps s.correction.correctionMetadata = .ok text)
    (ids : (saves.map (·.correction.correctionId)).Nodup)
    (digits : (saves.map fun s => rowId s.tableHex).Nodup) :
    ∃ memory table, Saved dumps saves memory table ∧
      table.corrections = saves.map (·.correction) ∧
      ∀ row ∈ table.correctionPatterns, ∃ s ∈ saves, row.patternId = rowId s.tableHex := by
  induction saves using List.reverseRecOn with
  | nil => exact ⟨.empty, .empty, .empty, rfl, nofun⟩
  | append_singleton saves s ih =>
    rw [List.map_append, List.nodup_append] at ids digits
    obtain ⟨memory, table, saved, hcorrections, hrows⟩ :=
      ih (fun s hs => serializable s (List.mem_append_left _ hs)) ids.1 digits.1
    obtain ⟨text, htext⟩ := serializable s (by simp)
    have newId : s.correction.correctionId ∉ table.corrections.map (·.correctionId) := by
      rw [hcorrections, List.map_map]
      intro hmem
      exact ids.2.2 _ hmem _ List.mem_cons_self rfl
    have newRow : rowId s.tableHex ∉ table.correctionPatterns.map (·.patternId) := by
      intro hmem
      obtain ⟨row, hrow, heq⟩ := List.mem_map.mp hmem
      obtain ⟨s', hs', hid⟩ := hrows row hrow
      exact digits.2.2 _ (List.mem_map_of_mem hs') _ List.mem_cons_self (hid.symm.trans heq)
    have ran := saveCorrection_fresh (some s.embedding) s.tableNow htext newId saved.table_eq.2
      newRow
    refine ⟨_, _, saved.save s _ ran, by simp [hcorrections], ?_⟩
    intro row hrow
    have hmem := List.mem_map_of_mem (f := (·.patternId)) hrow
    rcases updatePattern_ids table.correctionPatterns s.correction (some s.embedding) s.tableNow
      s.tableHex with h | h
    · rw [h] at hmem
      obtain ⟨row', hrow', heq⟩ := List.mem_map.mp hmem
      obtain ⟨s', hs', hid⟩ := hrows row' hrow'
      exact ⟨s', List.mem_append_left _ hs', heq.symm.trans hid⟩
    · rw [h] at hmem
      rcases List.mem_append.mp hmem with hmem | hmem
      · obtain ⟨row', hrow', heq⟩ := List.mem_map.mp hmem
        obtain ⟨s', hs', hid⟩ := hrows row' hrow'
        exact ⟨s', List.mem_append_left _ hs', heq.symm.trans hid⟩
      · exact ⟨s, by simp, List.mem_singleton.mp hmem⟩

end Fresh

theorem patterns_forall₂ {saves : List (Save K)}
    (keys : ∀ s ∈ saves, ∀ s' ∈ saves, s.correction.correctedTool = s'.correction.correctedTool →
      s.correction.originalTool = s'.correction.originalTool) :
    List.Forall₂ (fun p row => patternSummary p = rowSummary row)
      (group correctedKey mergeInMemory saves).values
      (group pairKey mergeInTable saves).values := by
  apply group_related
  · intro s hs s' hs'
    simp only [correctedKey, pairKey, List.cons.injEq, and_true, Prod.mk.injEq]
    exact ⟨fun h => ⟨keys s hs s' hs' h, h⟩, And.right⟩
  · intro s old old' hold
    cases hold with
    | none => rfl
    | @some p row hpr =>
      obtain ⟨horiginal, hcorrected, hcount, havg⟩ := Summary.mk.inj hpr
      simp only [mergeInMemory, mergeInTable, InMemoryCorrectionStore.mergePattern,
        CorrectionPattern.withIncrement, DuckDBCorrectionStore.updatedRow, patternSummary,
        rowSummary, horiginal, hcorrected, hcount, havg]

omit [Field K] [LinearOrder K] in
theorem map_eq_of_forall₂ {ps : List (CorrectionPattern K)} {rows : List (PatternRow K)}
    (h : List.Forall₂ (fun p row => patternSummary p = rowSummary row) ps rows) :
    ps.map patternSummary = rows.map rowSummary := by
  induction h with
  | nil => rfl
  | cons hhead _ ih => rw [List.map_cons, List.map_cons, hhead, ih]

/-- An in-memory pattern is found under its corrected tools. -/
theorem memory_key (saves : List (Save K)) (k : List String) (p : CorrectionPattern K)
    (hp : (group correctedKey mergeInMemory saves).get? k = some p) : p.correctedTools = k := by
  refine group_invariant (P := fun k p => p.correctedTools = k) ?_ saves k p hp
  intro s old hold
  cases old with
  | none => rfl
  | some p => exact hold p rfl

/-- Every saved pair of tools has its row. -/
theorem table_row {saves : List (Save K)} {s : Save K} (hs : s ∈ saves) :
    ∃ row ∈ (group pairKey mergeInTable saves).values,
      row.originalTools = [s.correction.originalTool] ∧
      row.correctedTools = [s.correction.correctedTool] := by
  obtain ⟨row, hrow⟩ := group_contains pairKey mergeInTable hs
  exact ⟨row, Dict.mem_values.mpr ⟨_, hrow⟩, named_group saves _ (Dict.get?_eq_some.mp hrow)⟩

/-- The stores hold the same patterns exactly when no corrected tool was saved for two
original tools. -/
theorem stores_agree_iff {dumps : PyVal K → Except PyException String} {saves : List (Save K)}
    {memory : InMemoryCorrectionStore K} {table : DuckDBCorrectionStore K}
    (h : Saved dumps saves memory table) :
    (memory.patterns.values.map patternSummary).Perm (table.correctionPatterns.map rowSummary) ↔
      ∀ s ∈ saves, ∀ s' ∈ saves, s.correction.correctedTool = s'.correction.correctedTool →
        s.correction.originalTool = s'.correction.originalTool := by
  rw [h.memory_eq, h.table_eq.1]
  constructor
  · intro hperm s hs s' hs' hcorrected
    have inMemory : ∀ s ∈ saves, ∃ p, (group correctedKey mergeInMemory saves).get?
        [s.correction.correctedTool] = some p ∧ p.originalTools = [s.correction.originalTool] := by
      intro s hs
      obtain ⟨row, hrow, horiginal, hcorrected⟩ := table_row hs
      obtain ⟨p, hp, hsummary⟩ := List.mem_map.mp
        (hperm.mem_iff.mpr (List.mem_map_of_mem (f := rowSummary) hrow))
      obtain ⟨hpo, hpc, -, -⟩ := Summary.mk.inj hsummary
      obtain ⟨k, hk⟩ := Dict.mem_values.mp hp
      obtain rfl := memory_key saves k p hk
      rw [hpc, hcorrected] at hk
      exact ⟨p, hk, hpo.trans horiginal⟩
    obtain ⟨p, hp, hpo⟩ := inMemory s hs
    obtain ⟨p', hp', hpo'⟩ := inMemory s' hs'
    rw [hcorrected, hp'] at hp
    obtain rfl := Option.some.inj hp
    exact List.singleton_inj.mp (hpo.symm.trans hpo')
  · intro keys
    rw [map_eq_of_forall₂ (patterns_forall₂ keys)]

/-! Two corrections with one corrected tool. -/

def correctionOf (correctionId originalTool correctedTool : String) : Correction ℚ where
  correctionId := correctionId
  sessionId := "session_1"
  agentId := "agent_1"
  originalIntent := "read a file"
  inferredContext := "data"
  originalTool := originalTool
  correctedTool := correctedTool
  correctionMetadata := .dict []
  operatorIdentity := "admin"
  confidenceBefore := 0
  confidenceAfter := 1
  capturedAt := utc 0
  before_range := by norm_num
  after_range := by norm_num

def firstSave : Save ℚ := ⟨correctionOf "corr_1" "fs.read" "db.query", [1], 0, "a", 0, "a"⟩
def secondSave : Save ℚ := ⟨correctionOf "corr_2" "git.push" "db.query", [1], 1, "b", 1, "b"⟩
def repeatedSave : Save ℚ := ⟨correctionOf "corr_2" "fs.read" "db.query", [1], 1, "b", 1, "b"⟩
def otherSave : Save ℚ := ⟨correctionOf "corr_3" "git.push" "git.commit", [1], 2, "c", 2, "c"⟩

def noFaults : DuckDBCorrectionStore.SqlFaults := ⟨none, none, none⟩

theorem firstSave_saved : Saved (fun _ => .ok "\x7b\x7d") [firstSave]
    (memorySave firstSave .empty)
    ⟨[firstSave.correction], [mergeInTable none firstSave]⟩ :=
  .save .empty firstSave noFaults rfl

theorem secondSave_saved : Saved (fun _ => .ok "\x7b\x7d") [firstSave, secondSave]
    (memorySave secondSave (memorySave firstSave .empty))
    ⟨[firstSave.correction, secondSave.correction],
      [mergeInTable none firstSave, mergeInTable none secondSave]⟩ :=
  .save firstSave_saved secondSave noFaults rfl

/-- A repeated pair of tools and another pair make two patterns in each store. -/
theorem stores_agree_iff_repeated : ∃ memory table,
    Saved (fun _ => .ok "\x7b\x7d") [firstSave, repeatedSave, otherSave] memory table ∧
    (memory.patterns.values.map patternSummary).Perm
      (table.correctionPatterns.map rowSummary) ∧
    table.correctionPatterns.map (·.occurrenceCount) = [2, 1] := by
  have repeated : Saved (fun _ => .ok "\x7b\x7d") [firstSave, repeatedSave]
      (memorySave repeatedSave (memorySave firstSave .empty))
      ⟨[firstSave.correction, repeatedSave.correction],
        [mergeInTable (some (mergeInTable none firstSave)) repeatedSave]⟩ :=
    .save firstSave_saved repeatedSave noFaults rfl
  have both : Saved (fun _ => .ok "\x7b\x7d") [firstSave, repeatedSave, otherSave]
      (memorySave otherSave (memorySave repeatedSave (memorySave firstSave .empty)))
      ⟨[firstSave.correction, repeatedSave.correction, otherSave.correction],
        [mergeInTable (some (mergeInTable none firstSave)) repeatedSave,
          mergeInTable none otherSave]⟩ :=
    .save repeated otherSave noFaults rfl
  exact ⟨_, _, both, (stores_agree_iff both).mpr (by decide), rfl⟩

/-- One in-memory pattern stands against two rows. -/
theorem shared_corrected_tool_disagrees :
    Saved (fun _ => .ok "\x7b\x7d") [firstSave, secondSave]
      (memorySave secondSave (memorySave firstSave .empty))
      ⟨[firstSave.correction, secondSave.correction],
        [mergeInTable none firstSave, mergeInTable none secondSave]⟩ ∧
    ¬ ((memorySave secondSave (memorySave firstSave .empty)).patterns.values.map
        patternSummary).Perm
      ([mergeInTable none firstSave, mergeInTable none secondSave].map rowSummary) := by
  refine ⟨secondSave_saved, ?_⟩
  intro hperm
  have hlength := hperm.length_eq
  have hone : ((memorySave secondSave (memorySave firstSave .empty)).patterns.values.map
      patternSummary).length = 1 := rfl
  rw [hone] at hlength
  cases hlength

end StoreAgreement
