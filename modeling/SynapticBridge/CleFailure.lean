import SynapticBridge.ExecuteToolRuns

/-! Exceptions inside the CLE block. The handler drops them, but not the assignments made
before: an applied redirect survives the failure of its own audit entry. -/
namespace CleFailure

open Domain CorrectionPatterns Ports ExecuteTool ExecuteToolRuns

variable {K : Type} [Field K] [LinearOrder K] {X R A C S : Type}

theorem execute_without_cle [PyMath K] {cmd : ExecuteToolCommand K}
    {ports : CommandPorts K X R A C S} {r : Readings K} {w w₁ : World K X R A C S}
    {session : ExecutionSession K} (shadowMode : Option Bool)
    (absent : ports.classifier = none ∨ ports.corrections = none)
    (hauth : (authorize cmd ports r).run w = (.ok session, w₁)) :
    (execute cmd ports shadowMode r).run w =
      (dispatch cmd ports r session (noCorrection cmd)).run w₁ := by
  rw [execute_admitted shadowMode hauth, predict_absent cmd r _ absent,
    Procedures.Proc.bind_ok (Procedures.Proc.pure_run _ _)]

theorem execute_with_cle [PyMath K] {cmd : ExecuteToolCommand K}
    {ports : CommandPorts K X R A C S} {r : Readings K} {w w₁ w₂ : World K X R A C S}
    {session : ExecutionSession K} {shadowMode : Option Bool}
    {classifier : IntentClassifierPort K C} {store : CorrectionStorePort K S}
    {result : Except PyException Unit} {l : Locals K}
    (hauth : (authorize cmd ports r).run w = (.ok session, w₁))
    (hc : ports.classifier = some classifier) (hs : ports.corrections = some store)
    (hcle : (cleBlock cmd ports r (shadowMode.getD CLE_SHADOW_MODE) classifier store).run
      (noCorrection cmd, w₁) = (result, (l, w₂))) :
    (execute cmd ports shadowMode r).run w = (dispatch cmd ports r session l).run w₂ := by
  rw [execute_admitted shadowMode hauth, predict_present cmd r _ hc hs,
    Procedures.Proc.bind_run, Procedures.Proc.withLocals_run, hcle]

theorem dispatch_eq_iff {cmd : ExecuteToolCommand K} {ports : CommandPorts K X R A C S}
    {r : Readings K} {session : ExecutionSession K} {w : World K X R A C S} {s : K} {t : String} :
    (dispatch cmd ports r session ⟨true, s, t⟩).run w =
      (dispatch cmd ports r session (noCorrection cmd)).run w ↔
    t = cmd.toolName ∧
      ∃ e, ((ports.execution.executeTool session t cmd.parameters).run w.execution).1 =
        .error e := by
  constructor
  · intro h
    have htrace := congrArg (fun p => p.2.trace) h
    rcases hrun : ((ports.execution.executeTool session t cmd.parameters).run w.execution).1
      with e | v
    · rw [dispatch_raised (l := ⟨true, s, t⟩) r hrun] at htrace
      rcases horig : ((ports.execution.executeTool session cmd.toolName cmd.parameters).run
        w.execution).1 with e' | v'
      · rw [dispatch_raised (l := noCorrection cmd) r horig] at htrace
        simp only [noCorrection, List.append_cancel_left_eq, List.cons.injEq,
          Effect.executed.injEq, true_and, and_true] at htrace
        exact ⟨htrace, e, rfl⟩
      · rw [dispatch_returned (l := noCorrection cmd) r horig] at htrace
        simp at htrace
    · rw [dispatch_returned (l := ⟨true, s, t⟩) r hrun] at htrace
      rcases horig : ((ports.execution.executeTool session cmd.toolName cmd.parameters).run
        w.execution).1 with e' | v'
      · rw [dispatch_raised (l := noCorrection cmd) r horig] at htrace
        simp at htrace
      · rw [dispatch_returned (l := noCorrection cmd) r horig] at htrace
        simp [noCorrection, toolCalledEvent] at htrace
  · rintro ⟨rfl, e, he⟩
    rw [dispatch_raised (l := ⟨true, s, cmd.toolName⟩) r he,
      dispatch_raised (l := noCorrection cmd) r he]
    rfl

/-- A failed CLE block leaves the call as requested, except when the failure is the audit
write of a redirect that was already applied. -/
theorem cle_failure_continues_iff [PyMath K] {cmd : ExecuteToolCommand K}
    {ports : CommandPorts K X R A C S} {r : Readings K} {w w₁ w₂ : World K X R A C S}
    {session : ExecutionSession K} {shadowMode : Option Bool}
    {classifier : IntentClassifierPort K C} {store : CorrectionStorePort K S}
    {e : PyException} {l : Locals K}
    (hauth : (authorize cmd ports r).run w = (.ok session, w₁))
    (hc : ports.classifier = some classifier) (hs : ports.corrections = some store)
    (raises : (cleBlock cmd ports r (shadowMode.getD CLE_SHADOW_MODE) classifier store).run
      (noCorrection cmd, w₁) = (.error e, (l, w₂))) :
    (execute cmd ports shadowMode r).run w =
      (dispatch cmd ports r session (noCorrection cmd)).run w₂ ↔
    ∀ scores best s t m, shadowMode.getD CLE_SHADOW_MODE = false →
      Suggestion cmd r classifier store w₁ scores best s t →
      ((ports.registry.get t).run w₁.registry).1 = .ok (some m) →
      t = cmd.toolName ∧
        ∃ e', ((ports.execution.executeTool session t cmd.parameters).run w₁.execution).1 =
          .error e' := by
  rw [execute_with_cle hauth hc hs raises]
  have hrun := cleBlock_run cmd ports r (shadowMode.getD CLE_SHADOW_MODE) classifier store
    (noCorrection cmd) w₁
  rw [raises] at hrun
  generalize hres : (Except.error e : Except PyException Unit) = result at hrun
  change CleRun cmd ports r _ classifier store (noCorrection cmd) w₁ result l w₂ at hrun
  cases hrun with
  | silent _ _ none frame =>
    exact iff_of_true rfl fun scores best s t m _ h _ => absurd h (none _ _ _ _)
  | lookupRaised e' _ suggested active look frame =>
    apply iff_of_true rfl
    intro scores best s t m _ h hm
    obtain ⟨-, -, -, rfl⟩ := suggested.unique h
    rw [look] at hm
    cases hm
  | logged _ suggested kept write =>
    apply iff_of_true rfl
    intro scores best s t m active h hm
    obtain ⟨-, -, -, rfl⟩ := suggested.unique h
    rw [active, hm] at kept
    simp at kept
  | @applied _ scores best s t m suggested active look write =>
    rw [dispatch_eq_iff, write.execution]
    constructor
    · intro h scores' best' s' t' m' _ h' _
      obtain ⟨-, -, -, rfl⟩ := suggested.unique h'
      exact h
    · intro h
      exact h _ _ _ _ _ active suggested look

/-- The audit log refuses every interception entry, so the entry of an applied redirect
is lost while the redirect stays. -/
noncomputable def lossyPorts : CommandPorts ℝ Unit (OrderedDict.Dict String ToolManifest)
    Unit Unit Unit :=
  constantPorts sampleSession (inMemoryPolicyEngine .empty) [1] [samplePattern]
    fun event => event.body.isInterception

private theorem lossy_admitted : (authorize sampleCommand lossyPorts sampleReadings).run
    (constantWorld sampleTools) = (.ok sampleSession, constantWorld sampleTools) :=
  authorize_constant (manifestOf "fs.read" (by decide)) sample_active (by rfl)
    (by intro p hp; cases hp)

private theorem lossy_block : ∃ w₂, w₂.trace = [.wrote
      (interceptionEvent sampleCommand sampleReadings "db.query" 1 samplePattern false true)] ∧
    (cleBlock sampleCommand lossyPorts sampleReadings false
      ⟨fun _ => pure ("unknown", 0), fun _ => pure [1]⟩
      ⟨fun _ _ => pure (), fun _ => pure [samplePattern]⟩).run
      (noCorrection sampleCommand, constantWorld sampleTools) =
      (.error (.other "OSError" "disk full"), (⟨true, 1, "db.query"⟩, w₂)) ∧
    (execute sampleCommand lossyPorts (some false) sampleReadings).run
      (constantWorld sampleTools) =
      (dispatch sampleCommand lossyPorts sampleReadings sampleSession
        ⟨true, 1, "db.query"⟩).run w₂ := by
  obtain ⟨w₂, logged, hcle, hexec⟩ := execute_redirects (some false)
    (m := manifestOf "db.query" (by decide)) lossy_admitted rfl rfl rfl sample_suggestion (by rfl)
  exact ⟨w₂, logged.trace, hcle, hexec⟩

theorem cle_failure_continues_iff_lossy : ∃ w₂,
    (execute sampleCommand lossyPorts (some false) sampleReadings).run
        (constantWorld sampleTools) =
      (dispatch sampleCommand lossyPorts sampleReadings sampleSession
        (noCorrection sampleCommand)).run w₂ ↔
    ∀ scores best s t m, (some false).getD CLE_SHADOW_MODE = false →
      Suggestion sampleCommand sampleReadings ⟨fun _ => pure ("unknown", 0), fun _ => pure [1]⟩
        ⟨fun _ _ => pure (), fun _ => pure [samplePattern]⟩ (constantWorld sampleTools)
        scores best s t →
      ((lossyPorts.registry.get t).run (constantWorld (K := ℝ) sampleTools).registry).1 =
        .ok (some m) →
      t = sampleCommand.toolName ∧ ∃ e', ((lossyPorts.execution.executeTool sampleSession t
        sampleCommand.parameters).run (constantWorld (K := ℝ) sampleTools).execution).1 =
          .error e' := by
  obtain ⟨w₂, -, hcle, -⟩ := lossy_block
  exact ⟨w₂, cle_failure_continues_iff lossy_admitted rfl rfl hcle⟩

theorem failed_audit_write_redirects :
    (∃ s, (cleBlock sampleCommand lossyPorts sampleReadings false
      ⟨fun _ => pure ("unknown", 0), fun _ => pure [1]⟩
      ⟨fun _ _ => pure (), fun _ => pure [samplePattern]⟩).run
      (noCorrection sampleCommand, constantWorld sampleTools) =
      (.error (.other "OSError" "disk full"), s)) ∧
    ((execute sampleCommand lossyPorts (some false) sampleReadings).run
      (constantWorld sampleTools)).2.trace =
      [.wrote (interceptionEvent sampleCommand sampleReadings "db.query" 1 samplePattern
          false true),
        .executed sampleSession "db.query" (.dict []),
        .wrote (toolCalledEvent sampleCommand sampleReadings sampleSession
          ⟨true, 1, "db.query"⟩)] := by
  obtain ⟨w₂, htrace, hcle, hexec⟩ := lossy_block
  refine ⟨⟨_, hcle⟩, ?_⟩
  rw [hexec, dispatch_returned (l := ⟨true, 1, "db.query"⟩) sampleReadings rfl, htrace]
  rfl

end CleFailure
