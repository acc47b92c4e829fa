import SynapticBridge.PredictiveDispatch
import SynapticBridge.PolicyGate

/-! The two implementations of the redirect. The command scores every returned pattern, the
workflow only those learned for the requested tool, and they agree exactly when this makes
no difference to the suggestion. -/
namespace DispatchAgreement

open Domain CorrectionPatterns Ports FirstMaximum ExecuteTool ExecuteToolRuns PolicyGate
open Orchestrator PredictiveDispatch
open Procedures.Proc

section Decides

/-- Follow what is suggested, or keep the requested tool when nothing is. -/
def Decides (suggests : String → Prop) (requested tool : String) (flag : Bool) : Prop :=
  flag = true ∧ suggests tool ∨ flag = false ∧ tool = requested ∧ ¬ ∃ t, suggests t

variable {P Q : String → Prop} {requested tool tool' : String} {flag flag' : Bool}

theorem Decides.unique (functional : ∀ t t', P t → P t' → t = t')
    (h : Decides P requested tool flag) (h' : Decides P requested tool' flag') :
    tool = tool' ∧ flag = flag' := by
  rcases h with ⟨rfl, ht⟩ | ⟨rfl, rfl, hnone⟩
  · rcases h' with ⟨rfl, ht'⟩ | ⟨-, -, hnone⟩
    · exact ⟨functional _ _ ht ht', rfl⟩
    · exact absurd ⟨_, ht⟩ hnone
  · rcases h' with ⟨-, ht'⟩ | ⟨rfl, rfl, -⟩
    · exact absurd ⟨_, ht'⟩ hnone
    · exact ⟨rfl, rfl⟩

theorem Decides.exists (P : String → Prop) (requested : String) :
    ∃ tool flag, Decides P requested tool flag := by
  by_cases h : ∃ t, P t
  · obtain ⟨t, ht⟩ := h
    exact ⟨t, true, Or.inl ⟨rfl, ht⟩⟩
  · exact ⟨requested, false, Or.inr ⟨rfl, rfl, h⟩⟩

theorem Decides.congr (same : ∀ t, P t ↔ Q t) :
    Decides P requested tool flag ↔ Decides Q requested tool flag := by
  unfold Decides
  rw [same, exists_congr same]

theorem Decides.same (hP : ∀ t t', P t → P t' → t = t') (hQ : ∀ t t', Q t → Q t' → t = t')
    (h : Decides P requested tool flag) (h' : Decides Q requested tool flag) (t : String) :
    P t ↔ Q t := by
  rcases h with ⟨rfl, ht⟩ | ⟨rfl, -, hnone⟩
  · rcases h' with ⟨-, ht'⟩ | ⟨hflag, -⟩
    · exact ⟨fun h => hP _ _ ht h ▸ ht', fun h => hQ _ _ ht' h ▸ ht⟩
    · cases hflag
  · rcases h' with ⟨hflag, -⟩ | ⟨-, -, hnone'⟩
    · cases hflag
    · exact ⟨fun h => absurd ⟨t, h⟩ hnone, fun h => absurd ⟨t, h⟩ hnone'⟩

end Decides

section Decisions

variable {K : Type} [Field K] [LinearOrder K] {X R A C S : Type}

/-- The first best-scoring pattern reaches the threshold and names `t`. -/
def Suggests (scores : List (CorrectionPattern K × K)) (t : String) : Prop :=
  ∃ best s, FirstMax scores (best, s) ∧ 0 < s ∧ CLE_CONFIDENCE_THRESHOLD ≤ s ∧
    best.correctedTools.head? = some t

theorem Suggests.unique {scores : List (CorrectionPattern K × K)} (t t' : String)
    (h : Suggests scores t) (h' : Suggests scores t') : t = t' := by
  obtain ⟨best, s, first, -, -, names⟩ := h
  obtain ⟨best', s', first', -, -, names'⟩ := h'
  obtain ⟨rfl, rfl⟩ := Prod.mk.inj (firstMax_unique first first')
  exact Option.some.inj (names.symm.trans names')

/-- All patterns are scored and they suggest `t`. -/
def SuggestedBy [PyMath K] (embedding : List K) (now : K) (patterns : List (CorrectionPattern K))
    (t : String) : Prop :=
  ∃ scores, scorePatterns embedding (fun _ => now) 0 patterns = .ok scores ∧ Suggests scores t

def eligible (toolName : String) (patterns : List (CorrectionPattern K)) :
    List (CorrectionPattern K) :=
  patterns.filter fun p => toolName ∈ p.originalTools

/-- The patterns learned for the tool are scored, and they suggest what all patterns do. -/
def SameSuggestion [PyMath K] (toolName : String) (embedding : List K) (now : K)
    (patterns : List (CorrectionPattern K)) : Prop :=
  ∃ scores, scorePatterns embedding (fun _ => now) 0 (eligible toolName patterns) = .ok scores ∧
    ∀ t, Suggests scores t ↔ SuggestedBy embedding now patterns t

theorem SuggestedBy.unique [PyMath K] {embedding : List K} {now : K}
    {patterns : List (CorrectionPattern K)} (t t' : String)
    (h : SuggestedBy embedding now patterns t) (h' : SuggestedBy embedding now patterns t') :
    t = t' := by
  obtain ⟨scores, hs, hsug⟩ := h
  obtain ⟨scores', hs', hsug'⟩ := h'
  obtain rfl := Except.ok.inj (hs.symm.trans hs')
  exact Suggests.unique _ _ hsug hsug'

def workflowOf (cmd : ExecuteToolCommand K) (classifier : IntentClassifierPort K C)
    (store : CorrectionStorePort K S) : CLEPredictiveDispatchWorkflow K C S :=
  ⟨cmd.intent, cmd.toolName, none, classifier, store⟩

/-- An admitted call in which no port raises, both sides see one embedding, one pattern list
and one clock reading, and every corrected tool is registered. -/
structure Setting (cmd : ExecuteToolCommand K) (ports : CommandPorts K X R A C S)
    (classifier : IntentClassifierPort K C) (store : CorrectionStorePort K S) (r : Readings K)
    (now : K) (w : World K X R A C S) (session : ExecutionSession K) (embedding : List K)
    (patterns : List (CorrectionPattern K)) : Prop where
  admitted : Admitted cmd ports r w session
  hasClassifier : ports.classifier = some classifier
  hasStore : ports.corrections = some store
  clock : r.scoreNow = fun _ => now
  embeds : ((classifier.getEmbedding cmd.intent).run w.classifier).1 = .ok embedding
  classifies : ∃ matched, ((classifier.classifyIntent cmd.intent).run w.classifier).1 = .ok matched
  embedsAfter : ((classifier.getEmbedding cmd.intent).run
    ((classifier.classifyIntent cmd.intent).run w.classifier).2).1 = .ok embedding
  finds : ((store.findPatterns embedding).run w.corrections).1 = .ok patterns
  registered : ∀ p ∈ patterns, ∃ t rest, p.correctedTools = t :: rest ∧ ∃ manifest,
    ((ports.registry.get t).run (afterLookups cmd ports w).registry).1 = .ok (some manifest)
  executes : ∀ session t params x,
    ∃ v, ((ports.execution.executeTool session t params).run x).1 = .ok v
  audits : ∀ event a, ((ports.audit.write event).run a).1 = .ok ()

def CommandReports [PyMath K] (cmd : ExecuteToolCommand K) (ports : CommandPorts K X R A C S)
    (r : Readings K) (w : World K X R A C S) (session : ExecutionSession K) (tool : String)
    (flag : Bool) : Prop :=
  ∃ effects l, ((execute cmd ports (some false) r).run w).2.trace = w.trace ++ effects ++
      [.executed session l.effectiveTool cmd.parameters, .wrote (toolCalledEvent cmd r session l)] ∧
    (∀ session' t params, .executed session' t params ∉ effects) ∧
    l.effectiveTool = tool ∧ l.wasCorrected = flag

def WorkflowReports [PyMath K] (cmd : ExecuteToolCommand K)
    (classifier : IntentClassifierPort K C) (store : CorrectionStorePort K S) (now : K)
    (limit : ℕ) (order : SetOrder (WorkflowStep Unit (C × S) (StepResult K)))
    (w : World K X R A C S) (tool : String) (flag : Bool) : Prop :=
  ∃ completed confidence patternId,
    (workflowOf cmd classifier store).execute (fun _ => now) (limit + 2) order
      (w.classifier, w.corrections) = .ok completed ∧
    completed.get? "execute_tool" = some (.value (.executed tool flag confidence patternId))

variable [PyMath K] {cmd : ExecuteToolCommand K} {ports : CommandPorts K X R A C S}
  {classifier : IntentClassifierPort K C} {store : CorrectionStorePort K S} {r : Readings K}
  {now : K} {w : World K X R A C S} {session : ExecutionSession K} {embedding : List K}
  {patterns : List (CorrectionPattern K)} {tool tool' : String} {flag flag' : Bool}

theorem CommandReports.unique (h : CommandReports cmd ports r w session tool flag)
    (h' : CommandReports cmd ports r w session tool' flag') : tool = tool' ∧ flag = flag' := by
  obtain ⟨effects, l, htrace, -, rfl, rfl⟩ := h
  obtain ⟨effects', l', htrace', -, rfl, rfl⟩ := h'
  have hends := (List.append_inj' (htrace.symm.trans htrace') rfl).2
  simp only [toolCalledEvent, List.cons.injEq, Effect.executed.injEq, Effect.wrote.injEq,
    DomainEvent.mk.injEq, EventBody.toolCalled.injEq, ToolCalledEvent.mk.injEq] at hends
  exact ⟨hends.1.2.1, hends.2.1.2.2.2.2.2.1⟩

theorem Setting.suggestion_iff
    (h : Setting cmd ports classifier store r now w session embedding patterns) {t : String} :
    (∃ scores best s, Suggestion cmd r classifier store (afterLookups cmd ports w) scores best s t)
      ↔ SuggestedBy embedding now patterns t := by
  constructor
  · rintro ⟨scores, best, s, ⟨emb, ps, hemb, hps, hscores⟩, first, positive, threshold, names⟩
    obtain rfl := Except.ok.inj (h.embeds.symm.trans hemb)
    obtain rfl := Except.ok.inj (h.finds.symm.trans hps)
    rw [h.clock] at hscores
    exact ⟨scores, hscores, best, s, first, positive, threshold, names⟩
  · rintro ⟨scores, hscores, best, s, first, positive, threshold, names⟩
    rw [← h.clock] at hscores
    exact ⟨scores, best, s, ⟨embedding, patterns, h.embeds, h.finds, hscores⟩, first, positive,
      threshold, names⟩

theorem Setting.reports
    (h : Setting cmd ports classifier store r now w session embedding patterns) {l : Locals K}
    {w₂ : World K X R A C S} {effects : List (Effect K)}
    (hpred : (predict cmd ports r false).run (afterLookups cmd ports w) = (.ok l, w₂))
    (htrace : w₂.trace = w.trace ++ effects)
    (hnone : ∀ session' t params, .executed session' t params ∉ effects) :
    CommandReports cmd ports r w session l.effectiveTool l.wasCorrected := by
  have hauth := authorize_eq_ok_iff.mpr ⟨h.admitted, rfl⟩
  obtain ⟨v, hv⟩ := h.executes session l.effectiveTool cmd.parameters w₂.execution
  refine ⟨effects, l, ?_, hnone, rfl, rfl⟩
  rw [execute_admitted (some false) hauth, Option.getD_some, bind_ok hpred,
    dispatch_returned r hv]
  simp only [htrace]

theorem Setting.target
    (h : Setting cmd ports classifier store r now w session embedding patterns)
    {scores : List (CorrectionPattern K × K)} {best : CorrectionPattern K} {s : K} {t : String}
    (suggested : Suggestion cmd r classifier store (afterLookups cmd ports w) scores best s t) :
    ∃ manifest, ((ports.registry.get t).run (afterLookups cmd ports w).registry).1 =
      .ok (some manifest) := by
  obtain ⟨emb, ps, hemb, hps, hscores⟩ := suggested.answers
  obtain rfl := Except.ok.inj (h.embeds.symm.trans hemb)
  obtain rfl := Except.ok.inj (h.finds.symm.trans hps)
  obtain ⟨t', rest, htools, hreg⟩ :=
    h.registered best (mem_of_scorePatterns hscores suggested.first.mem)
  have names := suggested.names
  rw [htools] at names
  obtain rfl := Option.some.inj names
  exact hreg

theorem Setting.command_decides
    (h : Setting cmd ports classifier store r now w session embedding patterns) :
    ∃ tool flag, CommandReports cmd ports r w session tool flag ∧
      Decides (SuggestedBy embedding now patterns) cmd.toolName tool flag := by
  obtain ⟨l, w₂, hpred, ⟨habsent, -⟩ | ⟨classifier', store', result, hc, hs, -, hcle⟩⟩ :=
    predict_run cmd ports r false (afterLookups cmd ports w)
  · rw [h.hasClassifier, h.hasStore] at habsent
    simp at habsent
  obtain rfl := Option.some.inj (h.hasClassifier.symm.trans hc)
  obtain rfl := Option.some.inj (h.hasStore.symm.trans hs)
  cases hcle with
  | silent _ _ none frame =>
    have htrace : w₂.trace = w.trace ++ [] := by
      rw [frame.trace, List.append_nil]
      rfl
    refine ⟨_, _, h.reports hpred htrace (by simp), Or.inr ⟨rfl, rfl, ?_⟩⟩
    rintro ⟨t, ht⟩
    obtain ⟨scores, best, s, hsug⟩ := h.suggestion_iff.mpr ht
    exact none _ _ _ _ hsug
  | lookupRaised _ _ suggested _ lookup =>
    obtain ⟨manifest, hreg⟩ := h.target suggested
    rw [hreg] at lookup
    cases lookup
  | logged _ suggested kept write =>
    obtain ⟨manifest, hreg⟩ := h.target suggested
    rw [hreg] at kept
    simp at kept
  | applied _ suggested _ lookup write =>
    have hsug := h.suggestion_iff.mp ⟨_, _, _, suggested⟩
    exact ⟨_, _, h.reports hpred write.trace (by simp), Or.inl ⟨rfl, hsug⟩⟩

theorem commandReports_iff
    (h : Setting cmd ports classifier store r now w session embedding patterns) :
    CommandReports cmd ports r w session tool flag ↔
      Decides (SuggestedBy embedding now patterns) cmd.toolName tool flag := by
  obtain ⟨tool₀, flag₀, hreport, hkind⟩ := h.command_decides
  constructor
  · intro h'
    obtain ⟨rfl, rfl⟩ := hreport.unique h'
    exact hkind
  · intro h'
    obtain ⟨rfl, rfl⟩ := hkind.unique SuggestedBy.unique h'
    exact hreport

omit [PyMath K] in
theorem validateCorrection_scan {scores : List (CorrectionPattern K × K)}
    (named : ∀ e ∈ scores, ∃ t rest, e.1.correctedTools = t :: rest)
    (wf : CLEPredictiveDispatchWorkflow K C S) (default : wf.confidenceThreshold = none) :
    ∃ tool flag confidence patternId, Decides (Suggests scores) wf.originalTool tool flag ∧
      ∀ completed : Completed K, completed.get? "check_patterns" =
          some (.value (.patterns (scan (none, 0) scores).1 (scan (none, 0) scores).2
            (decide (wf.threshold ≤ (scan (none, 0) scores).2)))) →
        wf.validateCorrection completed = .ok (.validation flag tool confidence patternId) := by
  have hthreshold : wf.threshold = CLE_CONFIDENCE_THRESHOLD := by
    rw [CLEPredictiveDispatchWorkflow.threshold, default]
    rfl
  rw [hthreshold]
  rcases scan_cases 0 scores with ⟨hscan, hle⟩ | ⟨e, hscan, first, positive⟩
  · refine ⟨wf.originalTool, false, 1, none, Or.inr ⟨rfl, rfl, ?_⟩, fun completed hget => ?_⟩
    · rintro ⟨t, best, s, hfirst, hs, -, -⟩
      exact absurd (hle _ hfirst.mem) (not_le.mpr hs)
    · rw [hscan] at hget
      rw [CLEPredictiveDispatchWorkflow.validateCorrection, hget]
      rfl
  · rw [hscan]
    obtain ⟨t, rest, htools⟩ := named e first.mem
    by_cases hs : CLE_CONFIDENCE_THRESHOLD ≤ e.2
    · refine ⟨t, true, e.2, some e.1.patternId, Or.inl ⟨rfl, e.1, e.2, first, positive, hs,
        by rw [htools]; rfl⟩, fun completed hget => ?_⟩
      rw [decide_eq_true hs] at hget
      rw [CLEPredictiveDispatchWorkflow.validateCorrection, hget]
      simp only [htools]
    · refine ⟨wf.originalTool, false, 1, none, Or.inr ⟨rfl, rfl, ?_⟩, fun completed hget => ?_⟩
      · rintro ⟨t', best, s, hfirst, -, hthr, -⟩
        obtain rfl := firstMax_unique first hfirst
        exact hs hthr
      · rw [decide_eq_false hs] at hget
        rw [CLEPredictiveDispatchWorkflow.validateCorrection, hget]
        rfl

theorem workflowReports_iff (limit : ℕ)
    (order : SetOrder (WorkflowStep Unit (C × S) (StepResult K)))
    (h : Setting cmd ports classifier store r now w session embedding patterns) :
    WorkflowReports cmd classifier store now limit order w tool flag ↔
      ∃ scores, scorePatterns embedding (fun _ => now) 0 (eligible cmd.toolName patterns) =
          .ok scores ∧ Decides (Suggests scores) cmd.toolName tool flag := by
  obtain ⟨matched, hmatched⟩ := h.classifies
  have hci : (classifier.classifyIntent cmd.intent).run w.classifier = (.ok matched, _) :=
    Prod.ext hmatched rfl
  have hemb : (classifier.getEmbedding cmd.intent).run
    ((classifier.classifyIntent cmd.intent).run w.classifier).2 = (.ok embedding, _) :=
    Prod.ext h.embedsAfter rfl
  have hps : (store.findPatterns embedding).run w.corrections = (.ok patterns, _) :=
    Prod.ext h.finds rfl
  have hscore := scoreEligible_eq cmd.toolName embedding (fun _ => now) 0 patterns (none, 0)
  rcases hscores : scorePatterns embedding (fun _ => now) 0 (eligible cmd.toolName patterns)
    with e | scores
  · rw [← eligible, hscores] at hscore
    obtain ⟨message, hexec⟩ :=
      execute_raised (workflowOf cmd classifier store) order limit hci hemb hps hscore
    constructor
    · rintro ⟨completed, confidence, patternId, hok, -⟩
      rw [hexec] at hok
      cases hok
    · rintro ⟨scores, hok, -⟩
      cases hok
  · rw [← eligible, hscores] at hscore
    have named : ∀ e ∈ scores, ∃ t rest, e.1.correctedTools = t :: rest := by
      intro e he
      have hmem := mem_of_scorePatterns (p := e.1) (s := e.2) hscores he
      obtain ⟨t, rest, htools, -⟩ := h.registered e.1 (List.mem_filter.mp hmem).1
      exact ⟨t, rest, htools⟩
    obtain ⟨tool₀, flag₀, confidence, patternId, hkind, hval⟩ :=
      validateCorrection_scan named (workflowOf cmd classifier store) rfl
    obtain ⟨completed, hexec, hreport⟩ :=
      execute_reports (workflowOf cmd classifier store) order limit hci hemb hps hscore hval
    constructor
    · rintro ⟨completed', confidence', patternId', hexec', hreport'⟩
      obtain rfl := Except.ok.inj (hexec.symm.trans hexec')
      rw [hreport] at hreport'
      simp only [Option.some.injEq, Gathered.value.injEq, StepResult.executed.injEq] at hreport'
      obtain ⟨rfl, rfl, -, -⟩ := hreport'
      exact ⟨scores, rfl, hkind⟩
    · rintro ⟨scores', hok, hkind'⟩
      obtain rfl := Except.ok.inj hok
      obtain ⟨rfl, rfl⟩ := hkind.unique Suggests.unique hkind'
      exact ⟨completed, confidence, patternId, hexec, hreport⟩

/-- The command executes what the workflow reports exactly when the patterns of the
requested tool suggest the same as all patterns. -/
theorem dispatch_agrees_iff (limit : ℕ)
    (order : SetOrder (WorkflowStep Unit (C × S) (StepResult K)))
    (h : Setting cmd ports classifier store r now w session embedding patterns) :
    (∃ tool flag, CommandReports cmd ports r w session tool flag ∧
      WorkflowReports cmd classifier store now limit order w tool flag) ↔
    SameSuggestion cmd.toolName embedding now patterns := by
  constructor
  · rintro ⟨tool, flag, hcommand, hworkflow⟩
    obtain ⟨scores, hscores, hkind⟩ := (workflowReports_iff limit order h).mp hworkflow
    have hkind' := (commandReports_iff h).mp hcommand
    exact ⟨scores, hscores, Decides.same Suggests.unique SuggestedBy.unique hkind hkind'⟩
  · rintro ⟨scores, hscores, same⟩
    obtain ⟨tool, flag, hkind⟩ := Decides.exists (Suggests scores) cmd.toolName
    have hworkflow := (workflowReports_iff limit order h).mpr ⟨scores, hscores, hkind⟩
    have hcommand := (commandReports_iff h).mpr ((Decides.congr same).mp hkind)
    exact ⟨tool, flag, hcommand, hworkflow⟩

end Decisions

/-! One call of `fs.read` and one stored pattern that leads to `db.query`. -/

section Sample

noncomputable def sampleClassifier : IntentClassifierPort ℝ Unit :=
  ⟨fun _ => pure ("unknown", 0), fun _ => pure [1]⟩

noncomputable def storeOf (pattern : CorrectionPattern ℝ) : CorrectionStorePort ℝ Unit :=
  ⟨fun _ _ => pure (), fun _ => pure [pattern]⟩

noncomputable def portsOf (pattern : CorrectionPattern ℝ) :
    CommandPorts ℝ Unit (OrderedDict.Dict String ToolManifest) Unit Unit Unit :=
  constantPorts sampleSession (inMemoryPolicyEngine .empty) [1] [pattern] fun _ => false

noncomputable def foreignPattern : CorrectionPattern ℝ :=
  { samplePattern with originalTools := ["git.push"] }

theorem setting_of (pattern : CorrectionPattern ℝ) (h : pattern.correctedTools = ["db.query"]) :
    Setting sampleCommand (portsOf pattern) sampleClassifier (storeOf pattern) sampleReadings 0
      (constantWorld sampleTools) sampleSession [1] [pattern] where
  admitted := ⟨rfl, sample_active, ⟨manifestOf "fs.read" (by decide), rfl⟩,
    fun p hp => by cases hp⟩
  hasClassifier := rfl
  hasStore := rfl
  clock := rfl
  embeds := rfl
  classifies := ⟨_, rfl⟩
  embedsAfter := rfl
  finds := rfl
  registered p hp := by
    obtain rfl := List.mem_singleton.mp hp
    exact ⟨"db.query", [], h, manifestOf "db.query" (by decide), rfl⟩
  executes _ _ _ _ := ⟨_, rfl⟩
  audits _ _ := rfl

theorem foreign_suggested : SuggestedBy [1] 0 [foreignPattern] "db.query" := by
  have score : foreignPattern.matchesIntent [1] 0 = .ok 1 := sample_score
  have scores : scorePatterns [1] (fun _ => 0) 0 [foreignPattern] = .ok [(foreignPattern, 1)] := by
    rw [scorePatterns, score]
    rfl
  have first : FirstMax [(foreignPattern, (1 : ℝ))] (foreignPattern, 1) :=
    ⟨[], [], rfl, by simp, by simp⟩
  exact ⟨_, scores, foreignPattern, 1, first, one_pos, sample_threshold, rfl⟩

theorem dispatch_agrees_iff_sample :
    (∃ tool flag, CommandReports sampleCommand (portsOf samplePattern) sampleReadings
        (constantWorld sampleTools) sampleSession tool flag ∧
      WorkflowReports sampleCommand sampleClassifier (storeOf samplePattern) 0 0 sameOrder
        (constantWorld (K := ℝ) sampleTools) tool flag) ↔
    SameSuggestion sampleCommand.toolName [1] 0 [samplePattern] :=
  dispatch_agrees_iff 0 sameOrder (setting_of samplePattern rfl)

theorem foreign_pattern_disagrees :
    CommandReports sampleCommand (portsOf foreignPattern) sampleReadings
      (constantWorld sampleTools) sampleSession "db.query" true ∧
    WorkflowReports sampleCommand sampleClassifier (storeOf foreignPattern) 0 0 sameOrder
      (constantWorld (K := ℝ) sampleTools) "fs.read" false ∧
    ¬ ∃ tool flag, CommandReports sampleCommand (portsOf foreignPattern) sampleReadings
        (constantWorld sampleTools) sampleSession tool flag ∧
      WorkflowReports sampleCommand sampleClassifier (storeOf foreignPattern) 0 0 sameOrder
        (constantWorld (K := ℝ) sampleTools) tool flag := by
  have h := setting_of foreignPattern rfl
  have command := (commandReports_iff h).mpr (Or.inl ⟨rfl, foreign_suggested⟩)
  have none : ¬ ∃ t, Suggests (K := ℝ) [] t := by
    rintro ⟨t, best, s, first, -⟩
    cases first.mem
  have noneEligible : eligible sampleCommand.toolName [foreignPattern] = [] := by
    simp [eligible, foreignPattern, sampleCommand]
  have unscored : scorePatterns [1] (fun _ => (0 : ℝ)) 0
      (eligible sampleCommand.toolName [foreignPattern]) = .ok [] := by
    rw [noneEligible]
    rfl
  have workflow : WorkflowReports sampleCommand sampleClassifier (storeOf foreignPattern) 0 0
      sameOrder (constantWorld (K := ℝ) sampleTools) "fs.read" false :=
    (workflowReports_iff 0 sameOrder h).mpr ⟨[], unscored, Or.inr ⟨rfl, rfl, none⟩⟩
  refine ⟨command, workflow, ?_⟩
  rintro ⟨tool, flag, hcommand, hworkflow⟩
  obtain ⟨rfl, rfl⟩ := command.unique hcommand
  obtain ⟨scores, hscores, ⟨-, hsug⟩ | ⟨hflag, -⟩⟩ :=
    (workflowReports_iff 0 sameOrder h).mp hworkflow
  · rw [noneEligible] at hscores
    obtain rfl := Except.ok.inj hscores
    exact none ⟨_, hsug⟩
  · cases hflag

end Sample

end DispatchAgreement
