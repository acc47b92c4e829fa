import SynapticBridge.ExecuteTool

/-! What the phases of `ExecuteToolCommand.execute` can do. Each phase has one relation
listing all its outcomes; later results split on these and never unfold a phase. -/
namespace ExecuteToolRuns

open Domain CorrectionPatterns Ports FirstMaximum ExecuteTool
open Procedures.Proc

section Phases

variable {K : Type} [Field K] [LinearOrder K] {X R A C S : Type}

/-- All scores of a pattern list, in order; the first failure is the result. -/
def scorePatterns [PyMath K] (embedding : List K) (scoreNow : ℕ → K) :
    ℕ → List (CorrectionPattern K) → Except PyException (List (CorrectionPattern K × K))
  | _, [] => .ok []
  | i, pattern :: rest => do
    let similarity ← pattern.matchesIntent embedding (scoreNow i)
    let later ← scorePatterns embedding scoreNow (i + 1) rest
    return (pattern, similarity) :: later

theorem scoreLoop_eq_scan [PyMath K] (embedding : List K) (scoreNow : ℕ → K) (i : ℕ)
    (patterns : List (CorrectionPattern K)) (best : Option (CorrectionPattern K) × K) :
    scoreLoop embedding scoreNow i patterns best =
      (scorePatterns embedding scoreNow i patterns).map (scan best) := by
  induction patterns generalizing i best with
  | nil => rfl
  | cons p ps ih =>
    unfold scoreLoop scorePatterns
    cases p.matchesIntent embedding (scoreNow i) with
    | error e => rfl
    | ok s =>
      change scoreLoop embedding scoreNow (i + 1) ps (improve best (p, s)) = _
      rw [ih]
      cases scorePatterns embedding scoreNow (i + 1) ps with
      | error e => rfl
      | ok l => rfl

theorem scorePatterns_getElem? [PyMath K] {embedding : List K} {scoreNow : ℕ → K} {i : ℕ}
    {patterns : List (CorrectionPattern K)} {scores : List (CorrectionPattern K × K)}
    (h : scorePatterns embedding scoreNow i patterns = .ok scores) (k : ℕ)
    (p : CorrectionPattern K) (s : K) : scores[k]? = some (p, s) ↔
      patterns[k]? = some p ∧ p.matchesIntent embedding (scoreNow (i + k)) = .ok s := by
  induction patterns generalizing i scores k with
  | nil =>
    obtain rfl := Except.ok.inj h
    simp
  | cons q qs ih =>
    unfold scorePatterns at h
    rcases hq : q.matchesIntent embedding (scoreNow i) with e | sq
    · rw [hq] at h
      cases h
    rcases hqs : scorePatterns embedding scoreNow (i + 1) qs with e | later
    · rw [hq, hqs] at h
      cases h
    rw [hq, hqs] at h
    obtain rfl := Except.ok.inj h
    cases k with
    | zero =>
      simp only [List.getElem?_cons_zero, Option.some.injEq, Prod.mk.injEq, Nat.add_zero]
      constructor
      · rintro ⟨rfl, rfl⟩
        exact ⟨rfl, hq⟩
      · rintro ⟨rfl, hs⟩
        exact ⟨rfl, Except.ok.inj (hq.symm.trans hs)⟩
    | succ k =>
      rw [List.getElem?_cons_succ, List.getElem?_cons_succ, ih hqs, Nat.add_right_comm]
      rfl

theorem mem_of_scorePatterns [PyMath K] {embedding : List K} {scoreNow : ℕ → K} {i : ℕ}
    {patterns : List (CorrectionPattern K)} {scores : List (CorrectionPattern K × K)}
    {p : CorrectionPattern K} {s : K}
    (h : scorePatterns embedding scoreNow i patterns = .ok scores) (hmem : (p, s) ∈ scores) :
    p ∈ patterns := by
  obtain ⟨k, hk⟩ := List.mem_iff_getElem?.mp hmem
  exact List.mem_of_getElem? ((scorePatterns_getElem? h k p s).mp hk).1

/-- The two CLE ports answer and every returned pattern is scored. -/
def Answers [PyMath K] (cmd : ExecuteToolCommand K) (r : Readings K)
    (classifier : IntentClassifierPort K C) (store : CorrectionStorePort K S)
    (w : World K X R A C S) (scores : List (CorrectionPattern K × K)) : Prop :=
  ∃ embedding patterns,
    ((classifier.getEmbedding cmd.intent).run w.classifier).1 = .ok embedding ∧
    ((store.findPatterns embedding).run w.corrections).1 = .ok patterns ∧
    scorePatterns embedding r.scoreNow 0 patterns = .ok scores

theorem answers_unique [PyMath K] {cmd : ExecuteToolCommand K} {r : Readings K}
    {classifier : IntentClassifierPort K C} {store : CorrectionStorePort K S}
    {w : World K X R A C S} {scores scores' : List (CorrectionPattern K × K)}
    (h : Answers cmd r classifier store w scores)
    (h' : Answers cmd r classifier store w scores') : scores = scores' := by
  obtain ⟨emb, ps, he, hp, hs⟩ := h
  obtain ⟨emb', ps', he', hp', hs'⟩ := h'
  obtain rfl := Except.ok.inj (he.symm.trans he')
  obtain rfl := Except.ok.inj (hp.symm.trans hp')
  exact Except.ok.inj (hs.symm.trans hs')

/-- The CLE has a suggestion: the first best-scoring pattern reaches the threshold and
names a tool. This reads the ports' answers and the scores, not the block's result. -/
structure Suggestion [PyMath K] (cmd : ExecuteToolCommand K) (r : Readings K)
    (classifier : IntentClassifierPort K C) (store : CorrectionStorePort K S)
    (w : World K X R A C S) (scores : List (CorrectionPattern K × K))
    (best : CorrectionPattern K) (similarity : K) (tool : String) : Prop where
  answers : Answers cmd r classifier store w scores
  first : FirstMax scores (best, similarity)
  positive : 0 < similarity
  threshold : CLE_CONFIDENCE_THRESHOLD ≤ similarity
  names : best.correctedTools.head? = some tool

theorem Suggestion.unique [PyMath K] {cmd : ExecuteToolCommand K} {r : Readings K}
    {classifier : IntentClassifierPort K C} {store : CorrectionStorePort K S}
    {w : World K X R A C S} {scores scores' : List (CorrectionPattern K × K)}
    {best best' : CorrectionPattern K} {s s' : K} {t t' : String}
    (h : Suggestion cmd r classifier store w scores best s t)
    (h' : Suggestion cmd r classifier store w scores' best' s' t') :
    scores = scores' ∧ best = best' ∧ s = s' ∧ t = t' := by
  obtain rfl := answers_unique h.answers h'.answers
  obtain ⟨rfl, rfl⟩ := Prod.mk.inj (firstMax_unique h.first h'.first)
  exact ⟨rfl, rfl, rfl, Option.some.inj (h.names.symm.trans h'.names)⟩

/-- Nothing that the rest of the run reads has changed. -/
structure Framed (w w' : World K X R A C S) : Prop where
  execution : w'.execution = w.execution
  audit : w'.audit = w.audit
  trace : w'.trace = w.trace

/-- Exactly one audit write of `event` has been attempted. -/
structure Logged (ports : CommandPorts K X R A C S) (event : DomainEvent K)
    (w w' : World K X R A C S) : Prop where
  execution : w'.execution = w.execution
  audit : w'.audit = ((ports.audit.write event).run w.audit).2
  trace : w'.trace = w.trace ++ [.wrote event]

/-- Everything the CLE block can do, with the exception or normal end it comes to. -/
inductive CleRun [PyMath K] (cmd : ExecuteToolCommand K) (ports : CommandPorts K X R A C S)
    (r : Readings K) (shadowMode : Bool) (classifier : IntentClassifierPort K C)
    (store : CorrectionStorePort K S) (l : Locals K) (w : World K X R A C S) :
    Except PyException Unit → Locals K → World K X R A C S → Prop where
  | silent (result w')
      (none : ∀ scores best s t, ¬ Suggestion cmd r classifier store w scores best s t)
      (frame : Framed w w') :
      CleRun cmd ports r shadowMode classifier store l w result l w'
  | lookupRaised (e w') {scores best s t}
      (suggested : Suggestion cmd r classifier store w scores best s t)
      (active : shadowMode = false)
      (lookup : ((ports.registry.get t).run w.registry).1 = .error e) (frame : Framed w w') :
      CleRun cmd ports r shadowMode classifier store l w (.error e) l w'
  | logged (w') {scores best s t}
      (suggested : Suggestion cmd r classifier store w scores best s t)
      (kept : shadowMode = true ∨ ((ports.registry.get t).run w.registry).1 = .ok none)
      (write : Logged ports (interceptionEvent cmd r t s best shadowMode false) w w') :
      CleRun cmd ports r shadowMode classifier store l w
        ((ports.audit.write (interceptionEvent cmd r t s best shadowMode false)).run w.audit).1 l w'
  | applied (w') {scores best s t m}
      (suggested : Suggestion cmd r classifier store w scores best s t)
      (active : shadowMode = false)
      (lookup : ((ports.registry.get t).run w.registry).1 = .ok (some m))
      (write : Logged ports (interceptionEvent cmd r t s best false true) w w') :
      CleRun cmd ports r shadowMode classifier store l w
        ((ports.audit.write (interceptionEvent cmd r t s best false true)).run w.audit).1
        ⟨true, s, t⟩ w'

/-- The lookup phase reads the two CLE ports only. -/
theorem bestMatch_frame [PyMath K] (cmd : ExecuteToolCommand K) (r : Readings K)
    (classifier : IntentClassifierPort K C) (store : CorrectionStorePort K S)
    (w : World K X R A C S) : Framed w ((bestMatch cmd r classifier store).run w).2 ∧
      ((bestMatch cmd r classifier store).run w).2.registry = w.registry := by
  unfold bestMatch
  rcases hemb : (classifier.getEmbedding cmd.intent).run w.classifier with ⟨e | embedding, c⟩
  · rw [bind_run, onClassifier_run, hemb]
    exact ⟨⟨rfl, rfl, rfl⟩, rfl⟩
  rw [bind_run, onClassifier_run, hemb]
  rcases hps : (store.findPatterns embedding).run w.corrections with ⟨e | patterns, cs⟩
  · simp only [bind_run, onCorrections_run, hps]
    exact ⟨⟨rfl, rfl, rfl⟩, trivial⟩
  · simp only [bind_run, onCorrections_run, hps, ofExcept_run]
    exact ⟨⟨rfl, rfl, rfl⟩, trivial⟩

/-- The lookup phase returns a scan of the scored patterns when both ports answer. -/
theorem bestMatch_ok [PyMath K] (cmd : ExecuteToolCommand K) (r : Readings K)
    (classifier : IntentClassifierPort K C) (store : CorrectionStorePort K S)
    (w : World K X R A C S) (found : Option (CorrectionPattern K) × K) :
    ((bestMatch cmd r classifier store).run w).1 = .ok found ↔
    ∃ scores, Answers cmd r classifier store w scores ∧ found = scan (none, 0) scores := by
  unfold Answers
  unfold bestMatch
  rcases hemb : (classifier.getEmbedding cmd.intent).run w.classifier with ⟨e | embedding, c⟩
  · rw [bind_run, onClassifier_run, hemb]
    simp
  rw [bind_run, onClassifier_run, hemb]
  rcases hps : (store.findPatterns embedding).run w.corrections with ⟨e | patterns, cs⟩
  · simp [bind_run, hps]
  · simp only [bind_run, onCorrections_run, hps, ofExcept_run, scoreLoop_eq_scan]
    cases hsc : scorePatterns embedding r.scoreNow 0 patterns with
    | error e => simp [Except.map, hps, hsc]
    | ok scores => simp [Except.map, hps, hsc, eq_comm]

theorem intercept_run [PyMath K] {cmd : ExecuteToolCommand K} {ports : CommandPorts K X R A C S}
    {r : Readings K} {shadowMode : Bool} {classifier : IntentClassifierPort K C}
    {store : CorrectionStorePort K S} {l : Locals K} {w w₁ : World K X R A C S}
    {scores : List (CorrectionPattern K × K)} {best : CorrectionPattern K} {s : K}
    (answers : Answers cmd r classifier store w scores) (first : FirstMax scores (best, s))
    (positive : 0 < s) (threshold : CLE_CONFIDENCE_THRESHOLD ≤ s)
    (frame : Framed w w₁) (hreg : w₁.registry = w.registry) :
    CleRun cmd ports r shadowMode classifier store l w
      ((intercept cmd ports r shadowMode best s).run (l, w₁)).1
      ((intercept cmd ports r shadowMode best s).run (l, w₁)).2.1
      ((intercept cmd ports r shadowMode best s).run (l, w₁)).2.2 := by
  unfold intercept
  cases htools : best.correctedTools with
  | nil =>
    refine .silent _ _ ?_ frame
    rintro scores' best' s' t' h
    obtain rfl := answers_unique answers h.answers
    obtain ⟨rfl, rfl⟩ := Prod.mk.inj (firstMax_unique first h.first)
    have names := h.names
    rw [htools] at names
    cases names
  | cons t rest =>
    have names : best.correctedTools.head? = some t := by
      rw [htools]
      rfl
    have suggested : Suggestion cmd r classifier store w scores best s t :=
      ⟨answers, first, positive, threshold, names⟩
    cases shadowMode with
    | true =>
      simp only [if_true, onState_run, writeAudit_run, frame.audit, frame.trace]
      exact .logged _ suggested (Or.inl rfl) ⟨frame.execution, rfl, rfl⟩
    | false =>
      rcases hget : (ports.registry.get t).run w.registry with ⟨e | m, g⟩
      · have lookup := congrArg Prod.fst hget
        have hrun : (onState (onRegistry (ports.registry.get t))).run (l, w₁) =
            (.error e, (l, { w₁ with registry := g })) := by
          rw [onState_run, onRegistry_run, hreg, hget]
        simp only [Bool.false_eq_true, if_false, bind_error hrun]
        exact .lookupRaised e _ suggested rfl lookup ⟨frame.1, frame.2, frame.3⟩
      · have lookup := congrArg Prod.fst hget
        have hrun : (onState (onRegistry (ports.registry.get t))).run (l, w₁) =
            (.ok m, (l, { w₁ with registry := g })) := by
          rw [onState_run, onRegistry_run, hreg, hget]
        simp only [Bool.false_eq_true, if_false, bind_ok hrun]
        cases m with
        | none =>
          simp only [Option.isSome_none, Bool.false_eq_true, if_false, onState_run,
            writeAudit_run, frame.audit, frame.trace]
          exact .logged _ suggested (Or.inr lookup) ⟨frame.execution, rfl, rfl⟩
        | some m =>
          simp only [Option.isSome_some, if_true, bind_run, modify_run,
            onState_run, writeAudit_run, frame.audit, frame.trace]
          exact .applied _ suggested rfl lookup ⟨frame.execution, rfl, rfl⟩

theorem cleBlock_run [PyMath K] (cmd : ExecuteToolCommand K) (ports : CommandPorts K X R A C S)
    (r : Readings K) (shadowMode : Bool) (classifier : IntentClassifierPort K C)
    (store : CorrectionStorePort K S) (l : Locals K) (w : World K X R A C S) :
    CleRun cmd ports r shadowMode classifier store l w
      ((cleBlock cmd ports r shadowMode classifier store).run (l, w)).1
      ((cleBlock cmd ports r shadowMode classifier store).run (l, w)).2.1
      ((cleBlock cmd ports r shadowMode classifier store).run (l, w)).2.2 := by
  obtain ⟨frame, hreg⟩ := bestMatch_frame cmd r classifier store w
  have hok := bestMatch_ok cmd r classifier store w
  rcases hrun : (bestMatch cmd r classifier store).run w with ⟨e | found, w₁⟩
  · rw [hrun] at frame hok
    have hb : (onState (bestMatch cmd r classifier store)).run (l, w) = (.error e, (l, w₁)) := by
      rw [onState_run, hrun]
    rw [cleBlock, bind_error hb]
    refine .silent _ _ ?_ frame
    intro scores best s t h
    exact absurd ((hok _).mpr ⟨scores, h.answers, rfl⟩) (by simp)
  · rw [hrun] at frame hreg hok
    have hb : (onState (bestMatch cmd r classifier store)).run (l, w) = (.ok found, (l, w₁)) := by
      rw [onState_run, hrun]
    obtain ⟨scores, answers, hscan⟩ := (hok found).mp rfl
    rw [cleBlock, bind_ok hb]
    rcases scan_cases 0 scores with ⟨hnone, hle⟩ | ⟨e, hsome, first, hpos⟩
    · rw [hscan, hnone]
      refine .silent _ _ ?_ frame
      intro scores' best s t h
      obtain rfl := answers_unique answers h.answers
      exact absurd (hle _ h.first.mem) (not_le.mpr h.positive)
    · rw [hscan, hsome]
      by_cases ht : CLE_CONFIDENCE_THRESHOLD ≤ e.2
      · simp only [if_pos ht]
        exact intercept_run answers first hpos ht frame hreg
      · simp only [if_neg ht]
        refine .silent _ _ ?_ frame
        intro scores' best s t h
        obtain rfl := answers_unique answers h.answers
        obtain rfl := firstMax_unique first h.first
        exact ht h.threshold

/-- The policy does not stand in the way of a call of `toolName`. -/
def Allows (cmd : ExecuteToolCommand K) (engine : PolicyEngine K)
    (session : ExecutionSession K) (toolName : String) (policy : Policy) : Prop :=
  policy.guardsCalls = true →
    engine.evaluate policy (policyContext cmd session toolName) = .ok true

/-- Everything the policy loop can do. -/
inductive PolicyRun (cmd : ExecuteToolCommand K) (ports : CommandPorts K X R A C S)
    (r : Readings K) (session : ExecutionSession K) (policies : List Policy)
    (w : World K X R A C S) : Except PyException Unit → World K X R A C S → Prop where
  | allowed (all : ∀ p ∈ policies, Allows cmd ports.policies session cmd.toolName p) :
      PolicyRun cmd ports r session policies w (.ok ()) w
  | raised {p e} (mem : p ∈ policies) (guards : p.guardsCalls = true)
      (eval : ports.policies.evaluate p (policyContext cmd session cmd.toolName) = .error e) :
      PolicyRun cmd ports r session policies w (.error e) w
  | denied {pre p post} (split : policies = pre ++ p :: post)
      (before : ∀ q ∈ pre, Allows cmd ports.policies session cmd.toolName q)
      (guards : p.guardsCalls = true)
      (eval : ports.policies.evaluate p (policyContext cmd session cmd.toolName) = .ok false) :
      PolicyRun cmd ports r session policies w
        (((ports.audit.write (violationEvent cmd r session p)).run w.audit).1.bind
          fun _ => .error (.policyViolation p.policyId (denial p)))
        { w with
          audit := ((ports.audit.write (violationEvent cmd r session p)).run w.audit).2
          trace := w.trace ++ [.wrote (violationEvent cmd r session p)] }

theorem PolicyRun.cons {cmd : ExecuteToolCommand K} {ports : CommandPorts K X R A C S}
    {r : Readings K} {session : ExecutionSession K} {policies : List Policy} {policy : Policy}
    {w w' : World K X R A C S} {result : Except PyException Unit}
    (hp : Allows cmd ports.policies session cmd.toolName policy)
    (h : PolicyRun cmd ports r session policies w result w') :
    PolicyRun cmd ports r session (policy :: policies) w result w' := by
  cases h with
  | allowed all =>
    apply PolicyRun.allowed
    intro q hq
    rcases List.mem_cons.mp hq with rfl | hq
    · exact hp
    · exact all q hq
  | raised mem guards eval => exact .raised (List.mem_cons_of_mem _ mem) guards eval
  | @denied pre p post split before guards eval =>
    have hsplit : policy :: policies = (policy :: pre) ++ p :: post := by rw [split]; rfl
    refine .denied hsplit ?_ guards eval
    intro q hq
    rcases List.mem_cons.mp hq with rfl | hq
    · exact hp
    · exact before q hq

theorem checkPolicies_run (cmd : ExecuteToolCommand K) (ports : CommandPorts K X R A C S)
    (r : Readings K) (session : ExecutionSession K) (policies : List Policy)
    (w : World K X R A C S) : PolicyRun cmd ports r session policies w
      ((checkPolicies cmd ports r session policies).run w).1
      ((checkPolicies cmd ports r session policies).run w).2 := by
  induction policies with
  | nil => exact .allowed (by simp)
  | cons policy rest ih =>
    unfold checkPolicies
    by_cases hg : policy.guardsCalls = true
    · rw [if_pos hg]
      rcases heval : ports.policies.evaluate policy (policyContext cmd session cmd.toolName)
        with e | allowed
      · exact .raised List.mem_cons_self hg heval
      · cases allowed with
        | true => exact ih.cons (fun _ => heval)
        | false =>
          have h : PolicyRun cmd ports r session (policy :: rest) w _ _ :=
            .denied (List.nil_append _).symm (by simp) hg heval
          rcases hwrite : (ports.audit.write (violationEvent cmd r session policy)).run w.audit
            with ⟨e | u, a⟩
          · simpa [bind_run, hwrite, Except.bind] using h
          · simpa [bind_run, hwrite, Except.bind] using h
    · rw [if_neg hg]
      exact ih.cons (fun h => absurd h hg)

theorem PolicyRun.execution {cmd : ExecuteToolCommand K} {ports : CommandPorts K X R A C S}
    {r : Readings K} {session : ExecutionSession K} {policies : List Policy}
    {w w' : World K X R A C S} {result : Except PyException Unit}
    (h : PolicyRun cmd ports r session policies w result w') : w'.execution = w.execution := by
  cases h with
  | allowed all => rfl
  | raised mem guards eval => rfl
  | denied split before guards eval => rfl

/-- The world after the two lookups of an admitted call. -/
def afterLookups (cmd : ExecuteToolCommand K) (ports : CommandPorts K X R A C S)
    (w : World K X R A C S) : World K X R A C S :=
  { w with
    execution := ((ports.execution.getSession cmd.sessionId).run w.execution).2
    registry := ((ports.registry.get cmd.toolName).run w.registry).2 }

/-- The lookups leave both CLE ports alone. -/
theorem suggestion_afterLookups [PyMath K] {cmd : ExecuteToolCommand K}
    {ports : CommandPorts K X R A C S} {r : Readings K} {classifier : IntentClassifierPort K C}
    {store : CorrectionStorePort K S} {w : World K X R A C S}
    {scores : List (CorrectionPattern K × K)} {best : CorrectionPattern K} {s : K} {t : String} :
    Suggestion cmd r classifier store (afterLookups cmd ports w) scores best s t ↔
      Suggestion cmd r classifier store w scores best s t := by
  constructor
  · intro h
    exact ⟨h.answers, h.first, h.positive, h.threshold, h.names⟩
  · intro h
    exact ⟨h.answers, h.first, h.positive, h.threshold, h.names⟩

/-- Everything the checks before the CLE block can do. -/
inductive AuthorizeRun (cmd : ExecuteToolCommand K) (ports : CommandPorts K X R A C S)
    (r : Readings K) (w : World K X R A C S) :
    Except PyException (ExecutionSession K) → World K X R A C S → Prop where
  | sessionRaised {e} (w') (get : ((ports.execution.getSession cmd.sessionId).run w.execution).1 =
        .error e) (audit : w'.audit = w.audit) (trace : w'.trace = w.trace) :
      AuthorizeRun cmd ports r w (.error e) w'
  | sessionMissing (w')
      (get : ((ports.execution.getSession cmd.sessionId).run w.execution).1 = .ok none)
      (audit : w'.audit = w.audit) (trace : w'.trace = w.trace) :
      AuthorizeRun cmd ports r w
        (.error (.sessionNotFound s!"Session {cmd.sessionId} not found")) w'
  | sessionInactive {session} (w')
      (get : ((ports.execution.getSession cmd.sessionId).run w.execution).1 = .ok (some session))
      (inactive : session.isActive r.sessionNow = false)
      (audit : w'.audit = w.audit) (trace : w'.trace = w.trace) :
      AuthorizeRun cmd ports r w (.error (.sessionExpired "Session is not active")) w'
  | toolRaised {session e} (w')
      (get : ((ports.execution.getSession cmd.sessionId).run w.execution).1 = .ok (some session))
      (active : session.isActive r.sessionNow = true)
      (lookup : ((ports.registry.get cmd.toolName).run w.registry).1 = .error e)
      (audit : w'.audit = w.audit) (trace : w'.trace = w.trace) :
      AuthorizeRun cmd ports r w (.error e) w'
  | toolMissing {session} (w')
      (get : ((ports.execution.getSession cmd.sessionId).run w.execution).1 = .ok (some session))
      (active : session.isActive r.sessionNow = true)
      (lookup : ((ports.registry.get cmd.toolName).run w.registry).1 = .ok none)
      (audit : w'.audit = w.audit) (trace : w'.trace = w.trace) :
      AuthorizeRun cmd ports r w (.error (.toolNotFound s!"Tool {cmd.toolName} not found")) w'
  | checked {session manifest result w'}
      (get : ((ports.execution.getSession cmd.sessionId).run w.execution).1 = .ok (some session))
      (active : session.isActive r.sessionNow = true)
      (lookup : ((ports.registry.get cmd.toolName).run w.registry).1 = .ok (some manifest))
      (policies : PolicyRun cmd ports r session ports.policies.listPolicies
        { w with
          execution := ((ports.execution.getSession cmd.sessionId).run w.execution).2
          registry := ((ports.registry.get cmd.toolName).run w.registry).2 } result w') :
      AuthorizeRun cmd ports r w (result.map fun _ => session) w'

theorem authorize_run (cmd : ExecuteToolCommand K) (ports : CommandPorts K X R A C S)
    (r : Readings K) (w : World K X R A C S) :
    AuthorizeRun cmd ports r w ((authorize cmd ports r).run w).1
      ((authorize cmd ports r).run w).2 := by
  unfold authorize
  rcases hget : (ports.execution.getSession cmd.sessionId).run w.execution with ⟨e | session, x⟩
  · have get := congrArg Prod.fst hget
    simp only [bind_run, onExecution_run, hget]
    exact .sessionRaised _ get rfl rfl
  have get := congrArg Prod.fst hget
  cases session with
  | none =>
    simp only [bind_run, onExecution_run, hget]
    exact .sessionMissing _ get rfl rfl
  | some session =>
    by_cases active : session.isActive r.sessionNow = true
    · rcases hreg : (ports.registry.get cmd.toolName).run w.registry with ⟨e | manifest, g⟩
      · have lookup := congrArg Prod.fst hreg
        simp only [bind_run, onExecution_run, hget, if_pos active, onRegistry_run, hreg]
        exact .toolRaised _ get active lookup rfl rfl
      have lookup := congrArg Prod.fst hreg
      cases manifest with
      | none =>
        simp only [bind_run, onExecution_run, hget, if_pos active, onRegistry_run, hreg]
        exact .toolMissing _ get active lookup rfl rfl
      | some manifest =>
        have policies := checkPolicies_run cmd ports r session ports.policies.listPolicies
          { w with execution := x, registry := g }
        simp only [bind_run, onExecution_run, hget, if_pos active, onRegistry_run, hreg]
        rcases hrun : (checkPolicies cmd ports r session ports.policies.listPolicies).run
          { w with execution := x, registry := g } with ⟨e | u, w'⟩
        · rw [hrun] at policies
          change AuthorizeRun cmd ports r w ((Except.error e).map fun _ : Unit => session) w'
          apply AuthorizeRun.checked get active lookup
          rw [hget, hreg]
          exact policies
        · rw [hrun] at policies
          change AuthorizeRun cmd ports r w ((Except.ok u).map fun _ => session) w'
          apply AuthorizeRun.checked get active lookup
          rw [hget, hreg]
          exact policies
    · have inactive : session.isActive r.sessionNow = false := by simpa using active
      simp only [bind_run, onExecution_run, hget, if_neg active]
      exact .sessionInactive _ get inactive rfl rfl

theorem authorize_cases {cmd : ExecuteToolCommand K} {ports : CommandPorts K X R A C S}
    {r : Readings K} {w w' : World K X R A C S} {result : Except PyException (ExecutionSession K)}
    (h : (authorize cmd ports r).run w = (result, w')) : AuthorizeRun cmd ports r w result w' := by
  have := authorize_run cmd ports r w
  rwa [h] at this

/-- The checks leave the audit log alone, or report the one violation they found. -/
theorem authorize_audit {cmd : ExecuteToolCommand K} {ports : CommandPorts K X R A C S}
    {r : Readings K} {w w' : World K X R A C S} {result : Except PyException (ExecutionSession K)}
    (h : (authorize cmd ports r).run w = (result, w')) : w'.audit = w.audit ∨
      ∃ session p, w'.audit =
        ((ports.audit.write (violationEvent cmd r session p)).run w.audit).2 := by
  cases authorize_cases h with
  | sessionRaised _ get audit trace => exact .inl audit
  | sessionMissing _ get audit trace => exact .inl audit
  | sessionInactive _ get inactive audit trace => exact .inl audit
  | toolRaised _ get active lookup audit trace => exact .inl audit
  | toolMissing _ get active lookup audit trace => exact .inl audit
  | @checked session manifest result _ get active lookup policies =>
    cases policies with
    | allowed all => exact .inl rfl
    | raised mem guards eval => exact .inl rfl
    | @denied pre p post split before guards eval => exact .inr ⟨session, p, rfl⟩

/-- The checks touch the execution port by the one lookup only. -/
theorem authorize_execution (cmd : ExecuteToolCommand K) (ports : CommandPorts K X R A C S)
    (r : Readings K) (w : World K X R A C S) :
    ((authorize cmd ports r).run w).2.execution =
      ((ports.execution.getSession cmd.sessionId).run w.execution).2 := by
  unfold authorize
  rcases hget : (ports.execution.getSession cmd.sessionId).run w.execution with ⟨e | session, x⟩
  · simp only [bind_run, onExecution_run, hget]
  cases session with
  | none => simp only [bind_run, onExecution_run, hget, raise_run]
  | some session =>
    by_cases active : session.isActive r.sessionNow = true
    · rcases hreg : (ports.registry.get cmd.toolName).run w.registry with ⟨e | manifest, g⟩
      · simp only [bind_run, onExecution_run, hget, if_pos active, onRegistry_run, hreg]
      cases manifest with
      | none => simp only [bind_run, onExecution_run, hget, if_pos active, onRegistry_run, hreg,
          raise_run]
      | some manifest =>
        simp only [bind_run, onExecution_run, hget, if_pos active, onRegistry_run, hreg]
        have hrun := checkPolicies_run cmd ports r session ports.policies.listPolicies
          { w with execution := x, registry := g }
        rcases hcheck : (checkPolicies cmd ports r session ports.policies.listPolicies).run
          { w with execution := x, registry := g } with ⟨e | u, w'⟩
        · rw [hcheck] at hrun
          exact hrun.execution
        · rw [hcheck] at hrun
          exact hrun.execution
    · simp only [bind_run, onExecution_run, hget, if_neg active, raise_run]

theorem checkPolicies_allowed {cmd : ExecuteToolCommand K} {ports : CommandPorts K X R A C S}
    (r : Readings K) {session : ExecutionSession K} {policies : List Policy}
    (all : ∀ p ∈ policies, Allows cmd ports.policies session cmd.toolName p)
    (w : World K X R A C S) :
    (checkPolicies cmd ports r session policies).run w = (.ok (), w) := by
  have h := checkPolicies_run cmd ports r session policies w
  rcases hrun : (checkPolicies cmd ports r session policies).run w with ⟨result, w'⟩
  rw [hrun] at h
  change PolicyRun cmd ports r session policies w result w' at h
  cases h with
  | allowed _ => rfl
  | @raised p e mem guards eval =>
    rw [all p mem guards] at eval
    cases eval
  | @denied pre p post split before guards eval =>
    rw [all p (by simp [split]) guards] at eval
    cases eval

/-- A live session, a registered tool and allowing policies authorize the call. -/
theorem authorize_ok {cmd : ExecuteToolCommand K} {ports : CommandPorts K X R A C S}
    {r : Readings K} {w : World K X R A C S} {session : ExecutionSession K}
    {manifest : ToolManifest}
    (get : ((ports.execution.getSession cmd.sessionId).run w.execution).1 = .ok (some session))
    (active : session.isActive r.sessionNow = true)
    (lookup : ((ports.registry.get cmd.toolName).run w.registry).1 = .ok (some manifest))
    (all : ∀ p ∈ ports.policies.listPolicies,
      Allows cmd ports.policies session cmd.toolName p) :
    (authorize cmd ports r).run w = (.ok session, { w with
      execution := ((ports.execution.getSession cmd.sessionId).run w.execution).2
      registry := ((ports.registry.get cmd.toolName).run w.registry).2 }) := by
  unfold authorize
  simp only [bind_run, onExecution_run, get, if_pos active, onRegistry_run, lookup,
    checkPolicies_allowed r all, pure_run]

theorem dispatch_raised {cmd : ExecuteToolCommand K} {ports : CommandPorts K X R A C S}
    {session : ExecutionSession K} {l : Locals K} {w : World K X R A C S} {e : PyException}
    (r : Readings K)
    (h : ((ports.execution.executeTool session l.effectiveTool cmd.parameters).run
      w.execution).1 = .error e) :
    (dispatch cmd ports r session l).run w = (.error e, { w with
      execution := ((ports.execution.executeTool session l.effectiveTool cmd.parameters).run
        w.execution).2
      trace := w.trace ++ [.executed session l.effectiveTool cmd.parameters] }) := by
  rw [dispatch, bind_run, callTool_run, h]

theorem dispatch_returned {cmd : ExecuteToolCommand K} {ports : CommandPorts K X R A C S}
    {session : ExecutionSession K} {l : Locals K} {w : World K X R A C S} {v : PyVal K}
    (r : Readings K)
    (h : ((ports.execution.executeTool session l.effectiveTool cmd.parameters).run
      w.execution).1 = .ok v) :
    (dispatch cmd ports r session l).run w =
      (((ports.audit.write (toolCalledEvent cmd r session l)).run w.audit).1.map fun _ => v,
        { w with
          execution := ((ports.execution.executeTool session l.effectiveTool cmd.parameters).run
            w.execution).2
          audit := ((ports.audit.write (toolCalledEvent cmd r session l)).run w.audit).2
          trace := w.trace ++ [.executed session l.effectiveTool cmd.parameters,
            .wrote (toolCalledEvent cmd r session l)] }) := by
  rw [dispatch, bind_run, callTool_run, h]
  simp only [bind_run, writeAudit_run, List.append_assoc, List.cons_append, List.nil_append]
  rcases (ports.audit.write (toolCalledEvent cmd r session l)).run w.audit with ⟨e | u, a⟩
  · rfl
  · rfl

theorem execute_refused [PyMath K] {cmd : ExecuteToolCommand K}
    {ports : CommandPorts K X R A C S} {r : Readings K} {w w' : World K X R A C S}
    {e : PyException} (shadowMode : Option Bool)
    (h : (authorize cmd ports r).run w = (.error e, w')) :
    (execute cmd ports shadowMode r).run w = (.error e, w') := by
  rw [execute, bind_error h]

theorem execute_admitted [PyMath K] {cmd : ExecuteToolCommand K}
    {ports : CommandPorts K X R A C S} {r : Readings K} {w w' : World K X R A C S}
    {session : ExecutionSession K} (shadowMode : Option Bool)
    (h : (authorize cmd ports r).run w = (.ok session, w')) :
    (execute cmd ports shadowMode r).run w =
      ((predict cmd ports r (shadowMode.getD CLE_SHADOW_MODE)) >>=
        dispatch cmd ports r session).run w' := by
  rw [execute, bind_ok h]

theorem predict_absent [PyMath K] (cmd : ExecuteToolCommand K)
    {ports : CommandPorts K X R A C S} (r : Readings K) (shadowMode : Bool)
    (h : ports.classifier = none ∨ ports.corrections = none) :
    predict cmd ports r shadowMode = pure (noCorrection cmd) := by
  unfold predict
  rcases h with h | h
  · rw [h]
  · rw [h]
    cases ports.classifier <;> rfl

theorem predict_present [PyMath K] (cmd : ExecuteToolCommand K)
    {ports : CommandPorts K X R A C S} (r : Readings K) (shadowMode : Bool)
    {classifier : IntentClassifierPort K C} {store : CorrectionStorePort K S}
    (hc : ports.classifier = some classifier) (hs : ports.corrections = some store) :
    predict cmd ports r shadowMode =
      withLocals (noCorrection cmd) (cleBlock cmd ports r shadowMode classifier store) := by
  rw [predict, hc, hs]

/-- The locals that reach the dispatch, and the world the CLE block leaves: either the
original call with no correction, or an applied suggestion. -/
theorem predict_run [PyMath K] (cmd : ExecuteToolCommand K) (ports : CommandPorts K X R A C S)
    (r : Readings K) (shadowMode : Bool) (w : World K X R A C S) :
    ∃ l w', (predict cmd ports r shadowMode).run w = (.ok l, w') ∧
      ((ports.classifier = none ∨ ports.corrections = none) ∧ l = noCorrection cmd ∧ w' = w ∨
        ∃ classifier store result, ports.classifier = some classifier ∧
          ports.corrections = some store ∧
          (cleBlock cmd ports r shadowMode classifier store).run (noCorrection cmd, w) =
            (result, (l, w')) ∧
          CleRun cmd ports r shadowMode classifier store (noCorrection cmd) w result l w') := by
  cases hc : ports.classifier with
  | none =>
    rw [predict_absent cmd r shadowMode (Or.inl hc)]
    exact ⟨_, _, rfl, Or.inl ⟨Or.inl rfl, rfl, rfl⟩⟩
  | some classifier =>
    cases hs : ports.corrections with
    | none =>
      rw [predict_absent cmd r shadowMode (Or.inr hs)]
      exact ⟨_, _, rfl, Or.inl ⟨Or.inr rfl, rfl, rfl⟩⟩
    | some store =>
      have h := cleBlock_run cmd ports r shadowMode classifier store (noCorrection cmd) w
      rw [predict_present cmd r shadowMode hc hs]
      exact ⟨_, _, withLocals_run _ _ _, Or.inr ⟨_, _, _, rfl, rfl, rfl, h⟩⟩

theorem predict_execution [PyMath K] {cmd : ExecuteToolCommand K}
    {ports : CommandPorts K X R A C S} {r : Readings K} {shadowMode : Bool} {l : Locals K}
    {w w' : World K X R A C S} (h : (predict cmd ports r shadowMode).run w = (.ok l, w')) :
    w'.execution = w.execution := by
  obtain ⟨l', w'', hpred, hl⟩ := predict_run cmd ports r shadowMode w
  rw [h] at hpred
  obtain ⟨-, rfl⟩ := Prod.mk.inj hpred
  rcases hl with ⟨-, -, rfl⟩ | ⟨classifier, store, result, -, -, -, hcle⟩
  · rfl
  cases hcle with
  | silent _ _ none frame => exact frame.execution
  | lookupRaised e _ suggested active look frame => exact frame.execution
  | logged _ suggested kept write => exact write.execution
  | applied _ suggested active look write => exact write.execution

/-- Where tool calls leave the execution port as it is, a command changes it by its lookup. -/
theorem execute_execution [PyMath K] {ports : CommandPorts K X R A C S}
    (keeps : ∀ s t ps x, ((ports.execution.executeTool s t ps).run x).2 = x)
    (cmd : ExecuteToolCommand K) (shadowMode : Option Bool) (r : Readings K)
    (w : World K X R A C S) : ((execute cmd ports shadowMode r).run w).2.execution =
      ((ports.execution.getSession cmd.sessionId).run w.execution).2 := by
  have hauth := authorize_execution cmd ports r w
  rcases hrun : (authorize cmd ports r).run w with ⟨e | session, w₁⟩
  · rw [hrun] at hauth
    rw [execute_refused shadowMode hrun]
    exact hauth
  · rw [hrun] at hauth
    obtain ⟨l, w₂, hpred, -⟩ := predict_run cmd ports r (shadowMode.getD CLE_SHADOW_MODE) w₁
    have hexec := (predict_execution hpred).trans hauth
    rw [execute_admitted shadowMode hrun, bind_ok hpred, ← hexec]
    rcases hcall : ((ports.execution.executeTool session l.effectiveTool cmd.parameters).run
      w₂.execution).1 with e | v
    · rw [dispatch_raised r hcall]
      exact keeps _ _ _ _
    · rw [dispatch_returned r hcall]
      exact keeps _ _ _ _

/-- A confirmed suggestion in active mode: the interception is logged and the suggested
tool is executed, whatever the audit log answers. -/
theorem execute_redirects [PyMath K] {cmd : ExecuteToolCommand K}
    {ports : CommandPorts K X R A C S} {r : Readings K} {w w₁ : World K X R A C S}
    {session : ExecutionSession K} {classifier : IntentClassifierPort K C}
    {store : CorrectionStorePort K S} {scores : List (CorrectionPattern K × K)}
    {best : CorrectionPattern K} {s : K} {t : String} {m : ToolManifest} (shadowMode : Option Bool)
    (hauth : (authorize cmd ports r).run w = (.ok session, w₁))
    (hc : ports.classifier = some classifier) (hs : ports.corrections = some store)
    (active : shadowMode.getD CLE_SHADOW_MODE = false)
    (suggested : Suggestion cmd r classifier store w₁ scores best s t)
    (lookup : ((ports.registry.get t).run w₁.registry).1 = .ok (some m)) :
    ∃ w₂, Logged ports (interceptionEvent cmd r t s best false true) w₁ w₂ ∧
      (cleBlock cmd ports r false classifier store).run (noCorrection cmd, w₁) =
        (((ports.audit.write (interceptionEvent cmd r t s best false true)).run w₁.audit).1,
          (⟨true, s, t⟩, w₂)) ∧
      (execute cmd ports shadowMode r).run w =
        (dispatch cmd ports r session ⟨true, s, t⟩).run w₂ := by
  rcases hrun : (cleBlock cmd ports r false classifier store).run (noCorrection cmd, w₁)
    with ⟨result, l, w₂⟩
  have hcle := cleBlock_run cmd ports r false classifier store (noCorrection cmd) w₁
  have hexec : (execute cmd ports shadowMode r).run w =
      (dispatch cmd ports r session l).run w₂ := by
    rw [execute_admitted shadowMode hauth, active, predict_present cmd r false hc hs]
    rw [Procedures.Proc.bind_run, withLocals_run, hrun]
  rw [hrun] at hcle
  change CleRun cmd ports r false classifier store (noCorrection cmd) w₁ result l w₂ at hcle
  cases hcle with
  | silent _ _ none frame => exact absurd suggested (none _ _ _ _)
  | lookupRaised e _ suggested' _ look frame =>
    obtain ⟨rfl, rfl, rfl, rfl⟩ := suggested.unique suggested'
    rw [lookup] at look
    cases look
  | logged _ suggested' kept write =>
    obtain ⟨rfl, rfl, rfl, rfl⟩ := suggested.unique suggested'
    rw [lookup] at kept
    simp at kept
  | applied _ suggested' _ look write =>
    obtain ⟨rfl, rfl, rfl, rfl⟩ := suggested.unique suggested'
    exact ⟨w₂, write, rfl, hexec⟩

/-- One execution of a command with everything it is given. -/
structure Invocation (K : Type) [Field K] [LinearOrder K] (X R A C S : Type) where
  cmd : ExecuteToolCommand K
  ports : CommandPorts K X R A C S
  shadowMode : Option Bool
  readings : Readings K
  world : World K X R A C S

namespace Invocation

def result [PyMath K] (call : Invocation K X R A C S) : Except PyException (PyVal K) :=
  ((execute call.cmd call.ports call.shadowMode call.readings).run call.world).1

def after [PyMath K] (call : Invocation K X R A C S) : World K X R A C S :=
  ((execute call.cmd call.ports call.shadowMode call.readings).run call.world).2

end Invocation

end Phases

/-! Ports that always give the same answers, to evaluate single runs. -/

section Constant

variable {K : Type} [Field K] [LinearOrder K]

/-- One live session, one classifier answer and one pattern list; the audit log refuses
the events in `refuses`. -/
def constantPorts (session : ExecutionSession K) (policies : PolicyEngine K)
    (embedding : List K) (patterns : List (CorrectionPattern K))
    (refuses : DomainEvent K → Bool) :
    CommandPorts K Unit (OrderedDict.Dict String ToolManifest) Unit Unit Unit where
  execution := ⟨fun _ => pure (some session), fun _ t _ => pure (.dict [("tool", .str t)])⟩
  registry := inMemoryToolRegistry
  policies := policies
  audit := ⟨fun ev => if refuses ev then raise (.other "OSError" "disk full") else pure ()⟩
  classifier := some ⟨fun _ => pure ("unknown", 0), fun _ => pure embedding⟩
  corrections := some ⟨fun _ _ => pure (), fun _ => pure patterns⟩

def constantWorld (tools : OrderedDict.Dict String ToolManifest) :
    World K Unit (OrderedDict.Dict String ToolManifest) Unit Unit Unit :=
  ⟨(), tools, (), (), (), []⟩

theorem authorize_constant {cmd : ExecuteToolCommand K} {r : Readings K}
    {session : ExecutionSession K} {policies : PolicyEngine K} {embedding : List K}
    {patterns : List (CorrectionPattern K)} {refuses : DomainEvent K → Bool}
    {tools : OrderedDict.Dict String ToolManifest} (manifest : ToolManifest)
    (active : session.isActive r.sessionNow = true)
    (lookup : tools.get? cmd.toolName = some manifest)
    (all : ∀ p ∈ policies.listPolicies, Allows cmd policies session cmd.toolName p) :
    (authorize cmd (constantPorts session policies embedding patterns refuses) r).run
      (constantWorld tools) = (.ok session, constantWorld tools) :=
  authorize_ok rfl active (congrArg Except.ok lookup) all

/-- One pattern with a single corrected tool, scored at or above the threshold. -/
theorem suggestion_constant [PyMath K] {cmd : ExecuteToolCommand K} {r : Readings K}
    {embedding : List K} {pattern : CorrectionPattern K} {s : K} {t : String}
    (tools : OrderedDict.Dict String ToolManifest)
    (score : pattern.matchesIntent embedding (r.scoreNow 0) = .ok s)
    (positive : 0 < s) (threshold : CLE_CONFIDENCE_THRESHOLD ≤ s)
    (names : pattern.correctedTools.head? = some t) :
    Suggestion cmd r ⟨fun _ => pure ("unknown", 0), fun _ => pure embedding⟩
      ⟨fun _ _ => pure (), fun _ => pure [pattern]⟩ (constantWorld (K := K) tools)
      [(pattern, s)] pattern s t where
  answers := by
    refine ⟨embedding, [pattern], rfl, rfl, ?_⟩
    rw [scorePatterns, score]
    rfl
  first := ⟨[], [], rfl, by simp, by simp⟩
  positive := positive
  threshold := threshold
  names := names

end Constant

/-! One session, two tools and one pattern that redirects the first to the second. -/

section Sample

def manifestOf (name : String) (h : name ≠ "") : ToolManifest :=
  ⟨name, "1.0.0", [.read], "workspace:current", 900, false, .full, "sig_abc", by decide, h⟩

noncomputable def sampleSession : ExecutionSession ℝ :=
  ⟨"session_1", "agent_1", "token", .active, 0, 900, [], "admin", [], by norm_num⟩

def sampleCommand : ExecuteToolCommand ℝ := ⟨"session_1", "fs.read", .dict [], "read a file"⟩

noncomputable def sampleReadings : Readings ℝ := ⟨0, "", 0, fun _ => 0, "", 0, "", 0⟩

def sampleTools : OrderedDict.Dict String ToolManifest :=
  (OrderedDict.Dict.empty.set "fs.read" (manifestOf "fs.read" (by decide))).set "db.query"
    (manifestOf "db.query" (by decide))

noncomputable def samplePattern : CorrectionPattern ℝ :=
  ⟨"pattern_1", [1], ["fs.read"], ["db.query"], 5, 0, utc 0, 0⟩

theorem sample_active : sampleSession.isActive sampleReadings.sessionNow = true := by
  have h : ¬ (900 : ℝ) ≤ 0 := by norm_num
  simp [ExecutionSession.isActive, ExecutionSession.isExpired, sampleSession, sampleReadings, h]

theorem sample_score : samplePattern.matchesIntent [1] (sampleReadings.scoreNow 0) = .ok 1 := by
  have h : samplePattern.matchesIntent [1] 0 = .ok (decay (0 - 0)) :=
    score_self (p := samplePattern) rfl (by simp [samplePattern, Cosine.normSq]) rfl
  rwa [sub_zero, decay_zero] at h

theorem sample_threshold : (CLE_CONFIDENCE_THRESHOLD : ℝ) ≤ 1 := by
  norm_num [CLE_CONFIDENCE_THRESHOLD]

theorem sample_suggestion : Suggestion sampleCommand sampleReadings
    ⟨fun _ => pure ("unknown", 0), fun _ => pure [1]⟩
    ⟨fun _ _ => pure (), fun _ => pure [samplePattern]⟩ (constantWorld sampleTools)
    [(samplePattern, 1)] samplePattern 1 "db.query" :=
  suggestion_constant sampleTools sample_score one_pos sample_threshold rfl

end Sample

end ExecuteToolRuns
