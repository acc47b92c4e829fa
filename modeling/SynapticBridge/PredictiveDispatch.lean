import SynapticBridge.OrchestratorRuns
import SynapticBridge.ExecuteToolRuns

/-! `CLEPredictiveDispatchWorkflow`: four chained steps that score only the patterns learned
for the requested tool. The workflow is run by the orchestrator over the two CLE ports. -/
namespace PredictiveDispatch

open Domain CorrectionPatterns Ports OrderedDict FirstMaximum Orchestrator OrchestratorRuns
open ExecuteToolRuns (scorePatterns scoreLoop_eq_scan)
open Procedures.Proc

section Workflow

variable {K : Type} [Field K] [LinearOrder K] {C S : Type}

/-- The dictionaries that the steps return. -/
inductive StepResult (K : Type) where
  | intent (matchedTool : String) (confidence : K)
  | patterns (pattern : Option (CorrectionPattern K)) (score : K) (shouldCorrect : Bool)
  | validation (shouldCorrect : Bool) (toolToExecute : String) (confidence : K)
      (patternId : Option String)
  | executed (executedTool : String) (wasCorrected : Bool) (confidence : K)
      (patternId : Option String)

structure CLEPredictiveDispatchWorkflow (K : Type) [Field K] [LinearOrder K] (C S : Type) where
  intent : String
  originalTool : String
  confidenceThreshold : Option K
  intentClassifier : IntentClassifierPort K C
  correctionStore : CorrectionStorePort K S

abbrev Completed (K : Type) := Dict String (Gathered (StepResult K))

namespace CLEPredictiveDispatchWorkflow

def threshold (wf : CLEPredictiveDispatchWorkflow K C S) : K :=
  wf.confidenceThreshold.getD CLE_CONFIDENCE_THRESHOLD

def classifyIntent (wf : CLEPredictiveDispatchWorkflow K C S) :
    Proc (C × S) (StepResult K) := do
  let (toolName, confidence) ← onFst (wf.intentClassifier.classifyIntent wf.intent)
  return .intent toolName confidence

/-- Only patterns learned for the original tool are scored; the clock is read per score. -/
def scoreEligible [PyMath K] (originalTool : String) (embedding : List K) (scoreNow : ℕ → K) :
    ℕ → List (CorrectionPattern K) → Option (CorrectionPattern K) × K →
    Except PyException (Option (CorrectionPattern K) × K)
  | _, [], best => .ok best
  | i, pattern :: rest, best =>
    if originalTool ∈ pattern.originalTools then do
      let score ← pattern.matchesIntent embedding (scoreNow i)
      scoreEligible originalTool embedding scoreNow (i + 1) rest (improve best (pattern, score))
    else scoreEligible originalTool embedding scoreNow i rest best

def checkClePatterns [PyMath K] (wf : CLEPredictiveDispatchWorkflow K C S)
    (scoreNow : ℕ → K) : Proc (C × S) (StepResult K) := do
  let embedding ← onFst (wf.intentClassifier.getEmbedding wf.intent)
  let patterns ← onState (wf.correctionStore.findPatterns embedding)
  let best ← ofExcept (scoreEligible wf.originalTool embedding scoreNow 0 patterns (none, 0))
  return .patterns best.1 best.2 (decide (wf.threshold ≤ best.2))

def uncorrected (wf : CLEPredictiveDispatchWorkflow K C S) : StepResult K :=
  .validation false wf.originalTool 1 none

def validateCorrection (wf : CLEPredictiveDispatchWorkflow K C S) (completed : Completed K) :
    Except PyException (StepResult K) :=
  match completed.get? "check_patterns" with
  | some (.value (.patterns (some pattern) score true)) =>
    match pattern.correctedTools with
    | [] => .error (.indexError "tuple index out of range")
    | correctedTool :: _ => .ok (.validation true correctedTool score (some pattern.patternId))
  | some (.value (.patterns _ _ _)) => .ok wf.uncorrected
  | some _ => .error (.keyError "should_correct")
  | none => .error (.keyError "check_patterns")

def executeTool (completed : Completed K) : Except PyException (StepResult K) :=
  match completed.get? "validate_correction" with
  | some (.value (.validation shouldCorrect toolToExecute confidence patternId)) =>
    .ok (.executed toolToExecute shouldCorrect confidence patternId)
  | some _ => .error (.keyError "tool_to_execute")
  | none => .error (.keyError "validate_correction")

/-- A coroutine under `gather` that leaves the completed results alone: its exception becomes its
result. -/
def asStep (x : Proc σ V) (completed : Dict String (Gathered V)) (state : σ) :
    Gathered V × Dict String (Gathered V) × σ :=
  match x.run state with
  | (.ok v, state') => (.value v, completed, state')
  | (.error e, state') => (.exception e, completed, state')

def steps [PyMath K] (wf : CLEPredictiveDispatchWorkflow K C S) (scoreNow : ℕ → K) :
    List (WorkflowStep Unit (C × S) (StepResult K)) :=
  [⟨"classify_intent", fun _ => asStep wf.classifyIntent, []⟩,
    ⟨"check_patterns", fun _ => asStep (wf.checkClePatterns scoreNow), ["classify_intent"]⟩,
    ⟨"validate_correction", fun _ completed =>
      asStep (ofExcept (wf.validateCorrection completed)) completed, ["check_patterns"]⟩,
    ⟨"execute_tool", fun _ completed => asStep (ofExcept (executeTool completed)) completed,
      ["validate_correction"]⟩]

def execute [PyMath K] (wf : CLEPredictiveDispatchWorkflow K C S) (scoreNow : ℕ → K)
    (limit : ℕ) (order : SetOrder (WorkflowStep Unit (C × S) (StepResult K))) (ports : C × S) :
    Except PyException (Completed K) :=
  match DAGOrchestrator.new limit (wf.steps scoreNow) with
  | .error e => .error e
  | .ok orchestrator => (orchestrator.execute order () ports).result

end CLEPredictiveDispatchWorkflow

open CLEPredictiveDispatchWorkflow

theorem asStep_ok {σ V : Type} {x : Except PyException V} {v : V} (h : x = .ok v)
    (completed : Dict String (Gathered V)) (state : σ) :
    asStep (ofExcept x) completed state = (.value v, completed, state) := by
  rw [h]
  rfl

/-- Skipping patterns in the loop is filtering before it. -/
theorem scoreEligible_eq [PyMath K] (originalTool : String) (embedding : List K)
    (scoreNow : ℕ → K) (i : ℕ) (patterns : List (CorrectionPattern K))
    (best : Option (CorrectionPattern K) × K) :
    scoreEligible originalTool embedding scoreNow i patterns best =
      (scorePatterns embedding scoreNow i
        (patterns.filter fun p => originalTool ∈ p.originalTools)).map (scan best) := by
  rw [← scoreLoop_eq_scan]
  induction patterns generalizing i best with
  | nil => rfl
  | cons p ps ih =>
    unfold scoreEligible
    by_cases hp : originalTool ∈ p.originalTools
    · rw [if_pos hp, List.filter_cons_of_pos (by simpa using hp), ExecuteTool.scoreLoop]
      cases p.matchesIntent embedding (scoreNow i) with
      | error e => rfl
      | ok score => exact ih (i + 1) (improve best (p, score))
    · rw [if_neg hp, List.filter_cons_of_neg (by simpa using hp)]
      exact ih i best

/-- The table of the four steps passes the check whatever the step functions are. -/
theorem new_accepts [PyMath K] (wf : CLEPredictiveDispatchWorkflow K C S) (scoreNow : ℕ → K)
    (limit : ℕ) : ∃ orchestrator,
      DAGOrchestrator.new (limit + 2) (wf.steps scoreNow) = .ok orchestrator ∧
      orchestrator.steps.values = wf.steps scoreNow := by
  have checked : validateNoCycles
      (dependencies (Dict.ofList WorkflowStep.name (wf.steps scoreNow))) (limit + 2)
      (Dict.ofList WorkflowStep.name (wf.steps scoreNow)).keys =
        .ok ⟨["execute_tool", "validate_correction", "check_patterns", "classify_intent"], []⟩ :=
    rfl
  obtain ⟨orchestrator, accepts⟩ := new_of_validate checked
  refine ⟨orchestrator, accepts, ?_⟩
  rw [new_steps accepts]
  rfl

section Rounds

variable [PyMath K] (wf : CLEPredictiveDispatchWorkflow K C S) {scoreNow : ℕ → K}
  (order : SetOrder (WorkflowStep Unit (C × S) (StepResult K))) {c c₁ c₂ : C} {s s₁ : S}
  {matched : String × K} {embedding : List K} {patterns : List (CorrectionPattern K)}

/-- The scoring step, when both CLE ports answer. -/
theorem checkClePatterns_run
    (hemb : (wf.intentClassifier.getEmbedding wf.intent).run c₁ = (.ok embedding, c₂))
    (hps : (wf.correctionStore.findPatterns embedding).run s = (.ok patterns, s₁)) :
    (wf.checkClePatterns scoreNow).run (c₁, s) =
      ((scoreEligible wf.originalTool embedding scoreNow 0 patterns (none, 0)).map
        fun best => .patterns best.1 best.2 (decide (wf.threshold ≤ best.2)), (c₂, s₁)) := by
  unfold checkClePatterns
  rw [bind_run, onFst_run, hemb]
  simp only [bind_run, onState_run, hps, ofExcept_run]
  rcases scoreEligible wf.originalTool embedding scoreNow 0 patterns (none, 0) with e | best
  · rfl
  · rfl

/-- The workflow after its first step, when the classifier answers. -/
theorem execute_after_classification (s : S) (limit : ℕ)
    (hci : (wf.intentClassifier.classifyIntent wf.intent).run c = (.ok matched, c₁)) :
    ∃ calls, wf.execute scoreNow (limit + 2) order (c, s) =
      (rounds () order 2
        (Dict.empty.set "classify_intent" (.value (.intent matched.1 matched.2)))
        ((wf.steps scoreNow).drop 1) calls (c₁, s)).result := by
  obtain ⟨orchestrator, accepts, hsteps⟩ := new_accepts wf scoreNow limit
  have hstep : asStep wf.classifyIntent .empty (c, s) =
      (.value (.intent matched.1 matched.2), .empty, (c₁, s)) := by
    unfold asStep classifyIntent
    rw [bind_run, onFst_run, hci]
    rfl
  have hexec : wf.execute scoreNow (limit + 2) order (c, s) =
      (rounds () order 1 .empty (wf.steps scoreNow) [] (c, s)).result := by
    rw [CLEPredictiveDispatchWorkflow.execute, accepts, ← hsteps]
    rfl
  rw [rounds_single_value ⟨"classify_intent", fun _ => asStep wf.classifyIntent, []⟩ _ rfl
    hstep] at hexec
  exact ⟨_, hexec⟩

/-- A score that raises fails the scoring step, and nothing is executed. -/
theorem execute_raised {e : PyException} (limit : ℕ)
    (hci : (wf.intentClassifier.classifyIntent wf.intent).run c = (.ok matched, c₁))
    (hemb : (wf.intentClassifier.getEmbedding wf.intent).run c₁ = (.ok embedding, c₂))
    (hps : (wf.correctionStore.findPatterns embedding).run s = (.ok patterns, s₁))
    (hscore : scoreEligible wf.originalTool embedding scoreNow 0 patterns (none, 0) = .error e) :
    ∃ message, wf.execute scoreNow (limit + 2) order (c, s) = .error (.runtimeError message) := by
  obtain ⟨calls, hexec⟩ := execute_after_classification wf order s limit hci
  have hstep (completed : Completed K) : asStep (wf.checkClePatterns scoreNow) completed (c₁, s) =
      (.exception e, completed, (c₂, s₁)) := by
    rw [asStep, checkClePatterns_run wf hemb hps, hscore]
    rfl
  exact ⟨_, hexec.trans (rounds_single_raised ⟨"check_patterns",
    fun _ => asStep (wf.checkClePatterns scoreNow), ["classify_intent"]⟩ rfl (hstep _))⟩

/-- The last step reports what the validation step decided on the best match. -/
theorem execute_reports {best : Option (CorrectionPattern K) × K} {flag : Bool} {tool : String}
    {confidence : K} {patternId : Option String} (limit : ℕ)
    (hci : (wf.intentClassifier.classifyIntent wf.intent).run c = (.ok matched, c₁))
    (hemb : (wf.intentClassifier.getEmbedding wf.intent).run c₁ = (.ok embedding, c₂))
    (hps : (wf.correctionStore.findPatterns embedding).run s = (.ok patterns, s₁))
    (hscore : scoreEligible wf.originalTool embedding scoreNow 0 patterns (none, 0) = .ok best)
    (hval : ∀ completed : Completed K, completed.get? "check_patterns" =
      some (.value (.patterns best.1 best.2 (decide (wf.threshold ≤ best.2)))) →
      wf.validateCorrection completed = .ok (.validation flag tool confidence patternId)) :
    ∃ completed, wf.execute scoreNow (limit + 2) order (c, s) = .ok completed ∧
      completed.get? "execute_tool" = some (.value (.executed tool flag confidence patternId)) := by
  obtain ⟨calls, hexec⟩ := execute_after_classification wf order s limit hci
  have hcheck (completed : Completed K) : asStep (wf.checkClePatterns scoreNow) completed (c₁, s) =
      (.value (.patterns best.1 best.2 (decide (wf.threshold ≤ best.2))), completed,
        (c₂, s₁)) := by
    rw [asStep, checkClePatterns_run wf hemb hps, hscore]
    rfl
  rw [hexec, rounds_single_value ⟨"check_patterns",
    fun _ => asStep (wf.checkClePatterns scoreNow), ["classify_intent"]⟩ _ rfl (hcheck _)]
  rw [rounds_single_value ⟨"validate_correction",
    fun _ completed => asStep (ofExcept (wf.validateCorrection completed)) completed,
    ["check_patterns"]⟩ (.validation flag tool confidence patternId) rfl
    (asStep_ok (hval _ (Dict.get?_set_self _ _ _)) _ _)]
  rw [rounds_single_value ⟨"execute_tool",
    fun _ completed => asStep (ofExcept (executeTool completed)) completed,
    ["validate_correction"]⟩ (.executed tool flag confidence patternId) rfl
    (asStep_ok (by rw [executeTool, Dict.get?_set_self]) _ _)]
  rw [rounds, if_pos (by rfl)]
  exact ⟨_, rfl, Dict.get?_set_self _ _ _⟩

end Rounds

end Workflow

end PredictiveDispatch
