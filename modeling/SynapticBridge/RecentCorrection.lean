import SynapticBridge.CorrectionStores
import SynapticBridge.PolicyGate

/-! The most recent correction wins. Captures leave every pattern stamped before the last
one, whose pattern then scores strictly above all others for the intent it was learned
from. -/
namespace RecentCorrection

open Domain CorrectionPatterns Ports FirstMaximum OrderedDict CorrectionStores
open ExecuteTool ExecuteToolRuns PolicyGate
open Procedures.Proc

variable {C : Type}

/-- The classifier answers every text, at any time, with one nonzero vector. -/
structure Embeds (classifier : IntentClassifierPort ℝ C) (embed : String → List ℝ) : Prop where
  answers : ∀ c text, ((classifier.getEmbedding text).run c).1 = .ok (embed text)
  nonzero : ∀ text, Cosine.normSq (embed text) ≠ 0

/-- Executions of the capture command on an initially empty store, at increasing save
times. The last saved correction and its time are kept. -/
inductive Captured (classifier : IntentClassifierPort ℝ C) :
    InMemoryCorrectionStore ℝ → Option (Correction ℝ × ℝ) → Prop where
  | start : Captured classifier .empty none
  | capture {store store' : InMemoryCorrectionStore ℝ} {last : Option (Correction ℝ × ℝ)}
      (prior : Captured classifier store last) (cmd : CaptureCorrectionCommand ℝ)
      (intent : cmd.originalIntent ≠ "") {capturedAt savedAt : ℝ} (order : capturedAt ≤ savedAt)
      (later : ∀ e ∈ last, e.2 < savedAt) (hex patternHex : String)
      {c c' : C} {correction : Correction ℝ}
      (ran : (cmd.execute (InMemoryCorrectionStore.port savedAt patternHex) (some classifier) hex
        capturedAt).run (c, store) = (.ok correction, c', store')) :
      Captured classifier store' (some (correction, savedAt))
  | rejected {store store' : InMemoryCorrectionStore ℝ} {last : Option (Correction ℝ × ℝ)}
      (prior : Captured classifier store last) (cmd : CaptureCorrectionCommand ℝ)
      (capturedAt savedAt : ℝ) (hex patternHex : String) {c c' : C} {e : PyException}
      (ran : (cmd.execute (InMemoryCorrectionStore.port savedAt patternHex) (some classifier) hex
        capturedAt).run (c, store) = (.error e, c', store')) :
      Captured classifier store' last

/-- A pattern kept under `k` that was last written at `t` and never undone. -/
structure Stamped (k : List String) (p : CorrectionPattern ℝ) (t : ℝ) : Prop where
  tools : p.correctedTools = k
  undone : p.totalUndoCount = 0
  updated : p.lastUpdated = utc t

def StampedBefore (store : InMemoryCorrectionStore ℝ) (bound : ℝ) : Prop :=
  ∀ k p, store.patterns.get? k = some p → ∃ t < bound, Stamped k p t

/-- The correction saved at `savedAt` owns the newest pattern. -/
structure Recent (embed : String → List ℝ) (store : InMemoryCorrectionStore ℝ)
    (correction : Correction ℝ) (savedAt : ℝ) : Prop where
  captured : ∃ t ≤ savedAt, correction.capturedAt = utc t
  newest : ∃ p, store.patterns.get? [correction.correctedTool] = some p ∧
    Stamped [correction.correctedTool] p savedAt ∧
    p.intentVector = embed correction.originalIntent
  older : ∀ k p, store.patterns.get? k = some p → k ≠ [correction.correctedTool] →
    ∃ t < savedAt, Stamped k p t

section Captures

variable {classifier : IntentClassifierPort ℝ C} {embed : String → List ℝ}
  {store store' : InMemoryCorrectionStore ℝ} {correction : Correction ℝ} {savedAt : ℝ}

theorem Recent.stampedBefore (h : Recent embed store correction savedAt) {bound : ℝ}
    (hlt : savedAt < bound) : StampedBefore store bound := by
  intro k p hp
  by_cases hk : k = [correction.correctedTool]
  · obtain ⟨q, hq, stamped, -⟩ := h.newest
    rw [hk, hq] at hp
    obtain rfl := Option.some.inj hp
    exact ⟨savedAt, hlt, hk ▸ stamped⟩
  · obtain ⟨t, ht, stamped⟩ := h.older k p hp hk
    exact ⟨t, ht.trans hlt, stamped⟩

/-- A save after all stamps creates or refreshes the newest pattern. -/
theorem recent_save (h : StampedBefore store savedAt) {capturedAt : ℝ}
    (order : capturedAt ≤ savedAt) (at_time : correction.capturedAt = utc capturedAt)
    (hex : String) :
    Recent embed (store.saveCorrection correction (some (embed correction.originalIntent))
      savedAt hex) correction savedAt where
  captured := ⟨capturedAt, order, at_time⟩
  newest := by
    refine ⟨_, Dict.get?_set_self _ _ _, ?_⟩
    rcases hold : store.patterns.get? (InMemoryCorrectionStore.patternKey correction)
      with _ | existing
    · exact ⟨⟨rfl, rfl, rfl⟩, rfl⟩
    · obtain ⟨t, -, stamped⟩ := h _ _ hold
      exact ⟨⟨stamped.tools, stamped.undone, rfl⟩, rfl⟩
  older := by
    intro k p hp hk
    exact h k p ((Dict.get?_set_of_ne _ hk _).symm.trans hp)

theorem correction_ok {cmd : CaptureCorrectionCommand ℝ} {hex : String} {now : ℝ}
    (h : cmd.correction hex now = .ok correction) :
    correction.originalIntent = cmd.originalIntent ∧ correction.capturedAt = utc now := by
  unfold CaptureCorrectionCommand.correction at h
  split_ifs at h
  obtain rfl := Except.ok.inj h
  exact ⟨rfl, rfl⟩

theorem intentEmbedding_run (embeds : Embeds classifier embed) {cmd : CaptureCorrectionCommand ℝ}
    (intent : cmd.originalIntent ≠ "") (c : C) : ∃ c',
      (cmd.intentEmbedding (some classifier)).run c =
        (.ok (some (embed cmd.originalIntent)), c') := by
  rcases hrun : (classifier.getEmbedding cmd.originalIntent).run c with ⟨res, c'⟩
  obtain rfl : res = .ok (embed cmd.originalIntent) := by
    rw [← embeds.answers c, hrun]
  refine ⟨c', ?_⟩
  rw [CaptureCorrectionCommand.intentEmbedding, if_neg intent, bind_ok hrun]
  rfl

/-- A capture that returns has saved its correction under the embedded intent. -/
theorem execute_ok (embeds : Embeds classifier embed) {cmd : CaptureCorrectionCommand ℝ}
    (intent : cmd.originalIntent ≠ "") {hex patternHex : String} {capturedAt : ℝ} {c c' : C}
    (h : (cmd.execute (InMemoryCorrectionStore.port savedAt patternHex) (some classifier) hex
      capturedAt).run (c, store) = (.ok correction, c', store')) :
    correction.capturedAt = utc capturedAt ∧
      store' = store.saveCorrection correction (some (embed correction.originalIntent))
        savedAt patternHex := by
  obtain ⟨made, s₁, hmade, h⟩ := bind_eq_ok.mp h
  obtain ⟨hcorrection, rfl⟩ := Prod.mk.inj hmade
  obtain ⟨c₁, hrun⟩ := intentEmbedding_run embeds intent c
  obtain ⟨embedding, s₂, hembedding, h⟩ := bind_eq_ok.mp h
  rw [onFst_run, hrun] at hembedding
  obtain ⟨hanswer, rfl⟩ := Prod.mk.inj hembedding
  obtain rfl := Except.ok.inj hanswer
  obtain ⟨_, s₃, hsave, h⟩ := bind_eq_ok.mp h
  obtain ⟨-, rfl⟩ := Prod.mk.inj hsave
  obtain ⟨hmade, hfinal⟩ := Prod.mk.inj h
  obtain rfl := Except.ok.inj hmade
  obtain ⟨hintent, hcaptured⟩ := correction_ok hcorrection
  rw [hintent]
  exact ⟨hcaptured, (Prod.mk.inj hfinal).2.symm⟩

/-- Valid confidences are enough for a capture to return. -/
theorem execute_saves (store : InMemoryCorrectionStore ℝ) (savedAt : ℝ)
    (embeds : Embeds classifier embed) {cmd : CaptureCorrectionCommand ℝ}
    (intent : cmd.originalIntent ≠ "") {hex : String} {capturedAt : ℝ} (patternHex : String) (c : C)
    (made : cmd.correction hex capturedAt = .ok correction) : ∃ c',
    (cmd.execute (InMemoryCorrectionStore.port savedAt patternHex) (some classifier) hex
      capturedAt).run (c, store) = (.ok correction, c',
        store.saveCorrection correction (some (embed correction.originalIntent)) savedAt
          patternHex) := by
  obtain ⟨c', hrun⟩ := intentEmbedding_run embeds intent c
  have start : (ofExcept (cmd.correction hex capturedAt)).run (c, store) =
      (.ok correction, (c, store)) := by
    rw [ofExcept_run, made]
  refine ⟨c', bind_eq_ok.mpr ⟨correction, (c, store), start, ?_⟩⟩
  rw [(correction_ok made).1]
  refine bind_eq_ok.mpr ⟨_, (c', store), ?_, rfl⟩
  rw [onFst_run, hrun]

/-- A capture that raises has saved nothing. -/
theorem execute_error {cmd : CaptureCorrectionCommand ℝ} {hex patternHex : String}
    {capturedAt : ℝ} {c c' : C} {e : PyException}
    (h : (cmd.execute (InMemoryCorrectionStore.port savedAt patternHex) (some classifier) hex
      capturedAt).run (c, store) = (.error e, c', store')) : store' = store := by
  rcases bind_eq_error.mp h with h | ⟨made, s₁, hmade, h⟩
  · exact (Prod.mk.inj (Prod.mk.inj h).2).2.symm
  obtain ⟨-, rfl⟩ := Prod.mk.inj hmade
  rcases bind_eq_error.mp h with h | ⟨embedding, s₂, -, h⟩
  · exact (Prod.mk.inj (Prod.mk.inj h).2).2.symm
  · cases h

theorem Captured.recent (embeds : Embeds classifier embed) {last : Option (Correction ℝ × ℝ)}
    (h : Captured classifier store last) :
    (last = none ∧ store = .empty) ∨
      ∃ correction savedAt, last = some (correction, savedAt) ∧
        Recent embed store correction savedAt := by
  induction h with
  | start => exact .inl ⟨rfl, rfl⟩
  | @capture store store' last prior cmd intent capturedAt savedAt order later hex patternHex c c'
      correction ran ih =>
    obtain ⟨at_time, rfl⟩ := execute_ok embeds intent ran
    refine .inr ⟨correction, savedAt, rfl, recent_save ?_ order at_time patternHex⟩
    rcases ih with ⟨-, rfl⟩ | ⟨correction₀, savedAt₀, rfl, recent⟩
    · exact nofun
    · exact recent.stampedBefore (later _ rfl)
  | @rejected store store' last prior cmd capturedAt savedAt hex patternHex c c' e ran ih =>
    obtain rfl := execute_error ran
    exact ih

section Scoring

variable {now : ℝ}

/-- With one clock reading the scores are those of the patterns. -/
theorem mem_scorePatterns {embedding : List ℝ} {patterns : List (CorrectionPattern ℝ)}
    {scores : List (CorrectionPattern ℝ × ℝ)} {p : CorrectionPattern ℝ} {s : ℝ}
    (h : scorePatterns embedding (fun _ => now) 0 patterns = .ok scores) :
    (p, s) ∈ scores ↔ p ∈ patterns ∧ p.matchesIntent embedding now = .ok s := by
  rw [List.mem_iff_getElem?, List.mem_iff_getElem?, ← exists_and_right]
  exact exists_congr fun k => scorePatterns_getElem? h k p s

theorem scorePatterns_ok {embedding : List ℝ} {scoreNow : ℕ → ℝ} {i : ℕ}
    {patterns : List (CorrectionPattern ℝ)} (h : ∀ p ∈ patterns, ∃ t, p.lastUpdated = utc t) :
    ∃ scores, scorePatterns embedding scoreNow i patterns = .ok scores := by
  induction patterns generalizing i with
  | nil => exact ⟨[], rfl⟩
  | cons p ps ih =>
    obtain ⟨t, ht⟩ := h p List.mem_cons_self
    obtain ⟨later, hlater⟩ := ih (i := i + 1) fun q hq => h q (List.mem_cons_of_mem _ hq)
    rw [scorePatterns, matchesIntent_utc p _ t _ ht, hlater]
    exact ⟨_, rfl⟩

/-- The newest pattern is the first maximum, and its score is its decay. -/
theorem Recent.firstMax (h : Recent embed store correction savedAt)
    (nonzero : Cosine.normSq (embed correction.originalIntent) ≠ 0) (later : savedAt ≤ now)
    (positive : 0 < decay (now - savedAt)) :
    ∃ scores best, scorePatterns (embed correction.originalIntent) (fun _ => now) 0
        store.findPatterns = .ok scores ∧
      FirstMax scores (best, decay (now - savedAt)) ∧
      best.correctedTools = [correction.correctedTool] := by
  have stamps : ∀ p ∈ store.findPatterns, ∃ t, p.lastUpdated = utc t := by
    intro p hp
    obtain ⟨k, hk⟩ := Dict.mem_values.mp hp
    obtain ⟨t, -, stamped⟩ := h.stampedBefore (lt_add_one savedAt) k p hk
    exact ⟨t, stamped.updated⟩
  obtain ⟨scores, hscores⟩ := scorePatterns_ok stamps
  obtain ⟨newest, hnewest, stamped, hvector⟩ := h.newest
  rw [← hvector] at nonzero
  have hscore : newest.matchesIntent newest.intentVector now = .ok (decay (now - savedAt)) :=
    score_self stamped.updated nonzero stamped.undone
  rw [hvector] at hscore
  have hmem : (newest, decay (now - savedAt)) ∈ scores :=
    (mem_scorePatterns hscores).mpr ⟨Dict.mem_values.mpr ⟨_, hnewest⟩, hscore⟩
  obtain ⟨⟨best, s⟩, hfirst, -⟩ := firstMax_exists ⟨_, hmem, positive⟩
  obtain ⟨hbest, hs⟩ := (mem_scorePatterns hscores).mp hfirst.mem
  obtain ⟨k, hk⟩ := Dict.mem_values.mp hbest
  by_cases hkey : k = [correction.correctedTool]
  · rw [hkey, hnewest] at hk
    obtain rfl := Option.some.inj hk
    obtain rfl := Except.ok.inj (hscore.symm.trans hs)
    exact ⟨scores, newest, hscores, hfirst, stamped.tools⟩
  · -- an older pattern stays strictly below the newest one
    obtain ⟨t, ht, older⟩ := h.older k best hk hkey
    have hle : s ≤ decay (now - t) := score_le_decay older.updated hs
    have hlt : decay (now - t) < decay (now - savedAt) :=
      decay_strictAnti (sub_nonneg.mpr later) (by linarith)
    exact absurd (hfirst.le hmem) (not_le.mpr (hle.trans_lt hlt))

end Scoring

end Captures

/-- Decay is at least what the age since the capture gives. -/
theorem decay_ge {capturedAt savedAt now days : ℝ} (order : capturedAt ≤ savedAt)
    (later : savedAt ≤ now) (age : now - capturedAt = days * (24 * 60 * 60)) :
    Real.exp (-(69314718 / 100000000) * days / 30) ≤ decay (now - savedAt) := by
  rw [decay_of_nonneg (sub_nonneg.mpr later), Real.exp_le_exp]
  have hdays : days = (now - capturedAt) / (24 * 60 * 60) := by rw [age]; ring
  rw [hdays]
  have hle : (now - savedAt) / (24 * 60 * 60) ≤ (now - capturedAt) / (24 * 60 * 60) := by
    gcongr
  linarith

section Redirect

variable {X R A : Type} {classifier : IntentClassifierPort ℝ C} {embed : String → List ℝ}

/-- The last correction decides the executed tool until its pattern has decayed. -/
theorem most_recent_correction_wins (embeds : Embeds classifier embed)
    {store : InMemoryCorrectionStore ℝ} {last : Correction ℝ} {savedAt : ℝ}
    (captures : Captured classifier store (some (last, savedAt)))
    {cmd : ExecuteToolCommand ℝ} {ports : CommandPorts ℝ X R A C (InMemoryCorrectionStore ℝ)}
    {r : Readings ℝ} {w : World ℝ X R A C (InMemoryCorrectionStore ℝ)}
    (hclassifier : ports.classifier = some classifier) {portNow : ℝ} {portHex : String}
    (hcorrections : ports.corrections = some (InMemoryCorrectionStore.port portNow portHex))
    (hstore : w.corrections = store) (intent : cmd.intent = last.originalIntent)
    {session : ExecutionSession ℝ} (admitted : Admitted cmd ports r w session)
    {manifest : ToolManifest}
    (registered : ((ports.registry.get last.correctedTool).run
      ((ports.registry.get cmd.toolName).run w.registry).2).1 = .ok (some manifest))
    {now days : ℝ} (reading : r.scoreNow = fun _ => now) (later : savedAt ≤ now)
    (age : (utc now).sub last.capturedAt = .ok (days * (24 * 60 * 60)))
    (confident : CLE_CONFIDENCE_THRESHOLD ≤ Real.exp (-(69314718 / 100000000) * days / 30)) :
    ∃ effects, ((execute cmd ports (some false) r).run w).2.trace = w.trace ++ effects ∧
      ∀ session' t params, .executed session' t params ∈ effects ↔
        session' = session ∧ t = last.correctedTool ∧ params = cmd.parameters := by
  obtain ⟨hnone, -⟩ | ⟨_, _, heq, recent⟩ := captures.recent embeds
  · cases hnone
  obtain ⟨rfl, rfl⟩ := Prod.mk.inj (Option.some.inj heq)
  obtain ⟨capturedAt, order, hcaptured⟩ := recent.captured
  rw [hcaptured] at age
  have threshold := confident.trans (decay_ge order later (Except.ok.inj age))
  have positive : (0 : ℝ) < decay (now - savedAt) :=
    lt_of_lt_of_le (by norm_num [CLE_CONFIDENCE_THRESHOLD]) threshold
  obtain ⟨scores, best, hscores, hfirst, htools⟩ :=
    recent.firstMax (embeds.nonzero _) later positive
  have answers : Answers cmd r classifier (InMemoryCorrectionStore.port portNow portHex)
      (afterLookups cmd ports w) scores := by
    refine ⟨embed cmd.intent, store.findPatterns, embeds.answers _ _, ?_, ?_⟩
    · rw [← hstore]
      rfl
    · rw [intent, reading]
      exact hscores
  have names : best.correctedTools.head? = some last.correctedTool := by
    rw [htools]
    rfl
  have redirected : Redirected cmd ports (some false) r w session last.correctedTool :=
    ⟨admitted, rfl, ⟨classifier, _, scores, best, _, hclassifier, hcorrections,
      answers, hfirst, positive, threshold, names⟩, ⟨manifest, registered⟩⟩
  exact redirected.executes

end Redirect

/-! One capture, and the same intent right after it. -/

section Sample

noncomputable def sampleCapture : CaptureCorrectionCommand ℝ :=
  ⟨"session_1", "agent_1", "read a file", "user wants database data", "fs.read", "db.query",
    .dict [("reason", .str "should query db")], "admin", 0, 1⟩

def sampleClassifier : IntentClassifierPort ℝ Unit where
  classifyIntent _ := pure ("unknown", 0)
  getEmbedding _ := pure [1]

noncomputable def samplePorts : CommandPorts ℝ Unit (Dict String ToolManifest) Unit Unit
    (InMemoryCorrectionStore ℝ) where
  execution := ⟨fun _ => pure (some sampleSession), fun _ t _ => pure (.dict [("tool", .str t)])⟩
  registry := inMemoryToolRegistry
  policies := inMemoryPolicyEngine .empty
  audit := ⟨fun _ => pure ()⟩
  classifier := some sampleClassifier
  corrections := some (InMemoryCorrectionStore.port 0 "")

theorem sampleClassifier_embeds : Embeds sampleClassifier fun _ => [1] where
  answers _ _ := rfl
  nonzero _ := by norm_num [Cosine.normSq]

theorem sampleCapture_made : ∃ correction, sampleCapture.correction "c" 0 = .ok correction ∧
    correction.originalIntent = "read a file" ∧ correction.correctedTool = "db.query" ∧
    correction.capturedAt = utc 0 := by
  have hbefore : 0 ≤ sampleCapture.confidenceBefore ∧ sampleCapture.confidenceBefore ≤ 1 := by
    norm_num [sampleCapture]
  have hafter : 0 ≤ sampleCapture.confidenceAfter ∧ sampleCapture.confidenceAfter ≤ 1 := by
    norm_num [sampleCapture]
  rw [CaptureCorrectionCommand.correction, dif_pos hbefore, dif_pos hafter]
  exact ⟨_, rfl, rfl, rfl, rfl⟩

theorem sample_admitted (store : InMemoryCorrectionStore ℝ) :
    Admitted sampleCommand samplePorts sampleReadings ⟨(), sampleTools, (), (), store, []⟩
      sampleSession where
  get := rfl
  active := sample_active
  registered := ⟨manifestOf "fs.read" (by decide), rfl⟩
  allowed _ h := absurd h List.not_mem_nil

theorem most_recent_correction_wins_sample : ∃ store last,
    Captured sampleClassifier store (some (last, 0)) ∧ last.correctedTool = "db.query" ∧
    ∃ effects, ((execute sampleCommand samplePorts (some false) sampleReadings).run
        ⟨(), sampleTools, (), (), store, []⟩).2.trace = [] ++ effects ∧
      ∀ session t params, .executed session t params ∈ effects ↔
        session = sampleSession ∧ t = last.correctedTool ∧ params = sampleCommand.parameters := by
  obtain ⟨last, made, hintent, htool, hcaptured⟩ := sampleCapture_made
  obtain ⟨c', ran⟩ := execute_saves .empty 0 sampleClassifier_embeds (by decide) "p" () made
  have captures : Captured sampleClassifier _ (some (last, 0)) :=
    Captured.start.capture sampleCapture (by decide) le_rfl (by simp) _ _ ran
  refine ⟨_, last, captures, htool, ?_⟩
  have registered : ((samplePorts.registry.get last.correctedTool).run sampleTools).1 =
      .ok (some (manifestOf "db.query" (by decide))) := by
    rw [htool]
    rfl
  have age : (utc 0).sub last.capturedAt = .ok ((0 : ℝ) * (24 * 60 * 60)) := by
    rw [hcaptured, DateTime.sub, if_pos rfl]
    simp [utc]
  have confident : (CLE_CONFIDENCE_THRESHOLD : ℝ) ≤
      Real.exp (-(69314718 / 100000000) * 0 / 30) := by
    rw [mul_zero, zero_div, Real.exp_zero]
    exact sample_threshold
  exact most_recent_correction_wins sampleClassifier_embeds captures rfl rfl rfl hintent.symm
    (sample_admitted _) registered rfl le_rfl age confident

end Sample

end RecentCorrection
