import SynapticBridge.StorePartition

/-! A `save_correction` that raises. The correction and its pattern are two commits: nothing
undoes the first when the second fails. -/
namespace SaveAtomicity

open Domain CorrectionStores StoreAgreement StorePartition
open Procedures.Proc

variable {K : Type} [Field K] [LinearOrder K] {dumps : PyVal K → Except PyException String}
  {faults : DuckDBCorrectionStore.SqlFaults} {correction : Correction K}
  {intentEmbedding : Option (List K)} {now : K} {hex : String}
  {table table' : DuckDBCorrectionStore K} {error : PyException}

/-- The metadata has no JSON text, or the insert into `corrections` raises. -/
def FailsFirst (dumps : PyVal K → Except PyException String)
    (faults : DuckDBCorrectionStore.SqlFaults) (correction : Correction K)
    (table : DuckDBCorrectionStore K) : Prop :=
  (∃ e, dumps correction.correctionMetadata = .error e) ∨ faults.insertCorrection.isSome = true ∨
    correction.correctionId ∈ table.corrections.map (·.correctionId)

theorem statement_error {σ α : Type} {fault : Option PyException} {x : Proc σ α} {s s' : σ}
    (h : (DuckDBCorrectionStore.statement fault x).run s = (.error error, s')) :
    fault = some error ∧ s' = s ∨ fault = none ∧ x.run s = (.error error, s') := by
  cases fault with
  | none => exact .inr ⟨rfl, h⟩
  | some e =>
    obtain ⟨he, rfl⟩ := Prod.mk.inj h
    exact .inl ⟨congrArg some (Except.error.inj he), rfl⟩

theorem insertCorrection_error
    (h : (DuckDBCorrectionStore.insertCorrection correction).run table = (.error error, table')) :
    correction.correctionId ∈ table.corrections.map (·.correctionId) ∧ table' = table := by
  rw [DuckDBCorrectionStore.insertCorrection, bind_run, read_run] at h
  simp only at h
  split_ifs at h with taken
  · exact ⟨taken, (Prod.mk.inj h).2.symm⟩
  · cases h

theorem insertCorrection_ok
    (h : (DuckDBCorrectionStore.insertCorrection correction).run table = (.ok (), table')) :
    correction.correctionId ∉ table.corrections.map (·.correctionId) ∧
      table' = { table with corrections := table.corrections ++ [correction] } := by
  rw [DuckDBCorrectionStore.insertCorrection, bind_run, read_run] at h
  simp only at h
  split_ifs at h with taken
  · cases h
  · exact ⟨taken, (Prod.mk.inj h).2.symm⟩

theorem writePattern_error
    (h : (DuckDBCorrectionStore.writePattern correction intentEmbedding now hex).run table =
      (.error error, table')) : table' = table := by
  rw [DuckDBCorrectionStore.writePattern, bind_run, read_run] at h
  simp only at h
  split_ifs at h
  · cases h
  · exact (Prod.mk.inj h).2.symm

/-- Once the correction is in, no failure of the pattern's statements takes it out. -/
theorem pattern_error
    (h : (do
      DuckDBCorrectionStore.statement faults.selectPattern (pure ())
      DuckDBCorrectionStore.statement faults.writePattern
        (DuckDBCorrectionStore.writePattern correction intentEmbedding now hex) :
          Proc (DuckDBCorrectionStore K) Unit).run table = (.error error, table')) :
    table' = table := by
  rcases bind_eq_error.mp h with hselect | ⟨_, table₁, hselect, hwrite⟩
  · rcases statement_error hselect with ⟨-, rfl⟩ | ⟨-, hpure⟩
    · rfl
    · cases hpure
  · obtain ⟨-, rfl⟩ := Prod.mk.inj (statement_ok hselect)
    rcases statement_error hwrite with ⟨-, rfl⟩ | ⟨-, hwrite⟩
    · rfl
    · exact writePattern_error hwrite

/-- A save raises before its first commit, or between the first and the second. -/
theorem saveCorrection_error
    (h : (DuckDBCorrectionStore.saveCorrection dumps faults correction intentEmbedding now
      hex).run table = (.error error, table')) :
    FailsFirst dumps faults correction table ∧ table' = table ∨
      ¬ FailsFirst dumps faults correction table ∧
        table' = { table with corrections := table.corrections ++ [correction] } := by
  rcases bind_eq_error.mp h with hdumps | ⟨text, table₁, hdumps, h⟩
  · obtain ⟨hjson, rfl⟩ := Prod.mk.inj hdumps
    exact .inl ⟨.inl ⟨error, hjson⟩, rfl⟩
  · obtain ⟨hjson, rfl⟩ := Prod.mk.inj hdumps
    rcases bind_eq_error.mp h with hinsert | ⟨_, table₂, hinsert, h⟩
    · rcases statement_error hinsert with ⟨hfault, rfl⟩ | ⟨-, hinsert⟩
      · exact .inl ⟨.inr (.inl (by rw [hfault]; rfl)), rfl⟩
      · obtain ⟨taken, rfl⟩ := insertCorrection_error hinsert
        exact .inl ⟨.inr (.inr taken), rfl⟩
    · obtain ⟨newId, rfl⟩ := insertCorrection_ok (statement_ok hinsert)
      refine .inr ⟨?_, pattern_error h⟩
      rintro (⟨e, he⟩ | hfault | taken)
      · rw [hjson] at he
        cases he
      · obtain ⟨e, he⟩ := Option.isSome_iff_exists.mp hfault
        rw [he] at hinsert
        cases hinsert
      · exact newId taken

/-- A save that raises leaves the patterns as they were, and the corrections too if it raised
before or in their insert. After it, the correction stays as the one new row. -/
theorem raised_leaves
    (raised : (DuckDBCorrectionStore.saveCorrection dumps faults correction intentEmbedding now
      hex).run table = (.error error, table')) :
    table'.correctionPatterns = table.correctionPatterns ∧
      (FailsFirst dumps faults correction table → table'.corrections = table.corrections) ∧
      (¬ FailsFirst dumps faults correction table →
        table'.corrections = table.corrections ++ [correction]) := by
  rcases saveCorrection_error raised with ⟨first, rfl⟩ | ⟨later, rfl⟩
  · exact ⟨rfl, fun _ => rfl, fun later => absurd first later⟩
  · exact ⟨rfl, fun first => absurd first later, fun _ => rfl⟩

/-! The lookup of the pattern raises on an empty database. -/

def lookupFails : DuckDBCorrectionStore.SqlFaults :=
  ⟨none, some (.other "IOException" "disk I/O error"), none⟩

def loneCorrection : Correction ℚ := correctionOf "corr_1" "fs.read" "db.query"

theorem lookup_raised :
    (DuckDBCorrectionStore.saveCorrection (fun _ => .ok "\x7b\x7d") lookupFails loneCorrection
      none 0 "a").run .empty =
        (.error (.other "IOException" "disk I/O error"), ⟨[loneCorrection], []⟩) := rfl

theorem raised_leaves_lookup :
    (⟨[loneCorrection], []⟩ : DuckDBCorrectionStore ℚ).corrections =
      (.empty : DuckDBCorrectionStore ℚ).corrections ++ [loneCorrection] := by
  refine (raised_leaves lookup_raised).2.2 ?_
  simp [FailsFirst, lookupFails, DuckDBCorrectionStore.empty]

/-- The correction of a save that raised is committed. -/
theorem raised_save_committed : ∃ table table' : DuckDBCorrectionStore ℚ,
    SavedInTable (fun _ => .ok "\x7b\x7d") [] table ∧
    (DuckDBCorrectionStore.saveCorrection (fun _ => .ok "\x7b\x7d") lookupFails loneCorrection
      none 0 "a").run table = (.error (.other "IOException" "disk I/O error"), table') ∧
    ¬ (table'.corrections = table.corrections ∧
      table'.correctionPatterns = table.correctionPatterns) := by
  refine ⟨.empty, _, .empty, lookup_raised, ?_⟩
  rintro ⟨h, -⟩
  cases h

end SaveAtomicity
