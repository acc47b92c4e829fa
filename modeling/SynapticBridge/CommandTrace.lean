import SynapticBridge.ExecuteToolRuns

/-! The observable calls of one `ExecuteToolCommand`: a rejected run leaves no trace, a
denied one exactly its violation entry, and every other run one tool execution
followed by its audit entry. -/
namespace CommandTrace

open Domain CorrectionPatterns Ports OrderedDict FirstMaximum ExecuteTool ExecuteToolRuns

variable {K : Type} [Field K] [LinearOrder K] {X R A C S : Type}

/-- Ports of a command that never raise. The CLE ports may still raise: the block that
calls them swallows it. -/
structure Quiet (ports : CommandPorts K X R A C S) : Prop where
  session : ∀ sid x, ∃ s, ((ports.execution.getSession sid).run x).1 = .ok s
  execution : ∀ s t ps x, ∃ v, ((ports.execution.executeTool s t ps).run x).1 = .ok v
  policies : ∀ p context, ∃ b, ports.policies.evaluate p context = .ok b
  audit : ∀ event a, ((ports.audit.write event).run a).1 = .ok ()
  registry : ∀ t x, ∃ m, ((ports.registry.get t).run x).1 = .ok m

def seenRegistry (cmd : ExecuteToolCommand K) (ports : CommandPorts K X R A C S)
    (w : World K X R A C S) (corrected : Bool) : R :=
  if corrected then ((ports.registry.get cmd.toolName).run w.registry).2 else w.registry

def Registered (ports : CommandPorts K X R A C S) (x : R) (t : String) : Prop :=
  ∃ manifest, ((ports.registry.get t).run x).1 = .ok (some manifest)

/-- `confidence` is the largest score of the patterns the store returned. -/
def MaximumScore [PyMath K] (cmd : ExecuteToolCommand K) (ports : CommandPorts K X R A C S)
    (r : Readings K) (w : World K X R A C S) (confidence : K) : Prop :=
  ∃ classifier store embedding, ∃ patterns : List (CorrectionPattern K),
    ports.classifier = some classifier ∧ ports.corrections = some store ∧
    ((classifier.getEmbedding cmd.intent).run w.classifier).1 = .ok embedding ∧
    ((store.findPatterns embedding).run w.corrections).1 = .ok patterns ∧
    (∃ (i : ℕ) (p : CorrectionPattern K), patterns[i]? = some p ∧
      p.matchesIntent embedding (r.scoreNow i) = .ok confidence) ∧
    ∀ (i : ℕ) (p : CorrectionPattern K) (s : K), patterns[i]? = some p →
      p.matchesIntent embedding (r.scoreNow i) = .ok s → s ≤ confidence

def LiveSession (cmd : ExecuteToolCommand K) (ports : CommandPorts K X R A C S)
    (r : Readings K) (w : World K X R A C S) (session : ExecutionSession K) : Prop :=
  ((ports.execution.getSession cmd.sessionId).run w.execution).1 = .ok (some session) ∧
    session.isActive r.sessionNow = true

def Rejected (cmd : ExecuteToolCommand K) (ports : CommandPorts K X R A C S)
    (r : Readings K) (w : World K X R A C S) (result : Except PyException (PyVal K))
    (effects : List (Effect K)) : Prop :=
  effects = [] ∧
  ((((ports.execution.getSession cmd.sessionId).run w.execution).1 = .ok none ∧
      ∃ m, result = .error (.sessionNotFound m)) ∨
    (∃ session, ((ports.execution.getSession cmd.sessionId).run w.execution).1 =
        .ok (some session) ∧ session.isActive r.sessionNow = false ∧
      ∃ m, result = .error (.sessionExpired m)) ∨
    (∃ session, LiveSession cmd ports r w session ∧
      ((ports.registry.get cmd.toolName).run w.registry).1 = .ok none ∧
      ∃ m, result = .error (.toolNotFound m)))

/-- `p` is the first policy of the list that denies the call; it is audited and raised. -/
def Denied (cmd : ExecuteToolCommand K) (ports : CommandPorts K X R A C S)
    (r : Readings K) (w : World K X R A C S) (result : Except PyException (PyVal K))
    (effects : List (Effect K)) (p : Policy) : Prop :=
  ∃ session pre post, LiveSession cmd ports r w session ∧
    ports.policies.listPolicies = pre ++ p :: post ∧
    (∀ q ∈ pre, Allows cmd ports.policies session cmd.toolName q) ∧ p.guardsCalls = true ∧
    ports.policies.evaluate p (policyContext cmd session cmd.toolName) = .ok false ∧
    result = .error (.policyViolation p.policyId (denial p)) ∧
    effects = [.wrote (violationEvent cmd r session p)]

/-- The interceptions before a dispatch with locals `l`: at most one, applied exactly
when the call counts as corrected, and then it explains tool and confidence. -/
structure Intercepted [PyMath K] (cmd : ExecuteToolCommand K)
    (ports : CommandPorts K X R A C S) (r : Readings K) (w : World K X R A C S)
    (l : Locals K) (interceptions : List (DomainEvent K)) : Prop where
  registered : Registered ports (seenRegistry cmd ports w l.wasCorrected) l.effectiveTool
  atMostOne : interceptions.length ≤ 1
  kind : ∀ ev ∈ interceptions, ∃ i, ev.body = .cleInterception i
  corrected_iff : l.wasCorrected = true ↔
    ∃ ev ∈ interceptions, ∃ i, ev.body = .cleInterception i ∧ i.applied = true
  corrected : ∀ ev ∈ interceptions, ∀ i, ev.body = .cleInterception i → i.applied = true →
    i.suggestedTool = l.effectiveTool ∧ i.confidence = l.correctionConfidence ∧
    CLE_CONFIDENCE_THRESHOLD ≤ l.correctionConfidence ∧
    MaximumScore cmd ports r w l.correctionConfidence

structure Dispatched [PyMath K] (cmd : ExecuteToolCommand K)
    (ports : CommandPorts K X R A C S) (r : Readings K) (w : World K X R A C S)
    (result : Except PyException (PyVal K)) (effects : List (Effect K))
    (session : ExecutionSession K) (l : Locals K) (interceptions : List (DomainEvent K)) :
    Prop where
  effects_eq : effects = interceptions.map .wrote ++
    [.executed session l.effectiveTool cmd.parameters, .wrote (toolCalledEvent cmd r session l)]
  returns : ∃ v, result = .ok v
  live : LiveSession cmd ports r w session
  policies : ∀ p ∈ ports.policies.listPolicies,
    Allows cmd ports.policies session cmd.toolName p
  intercepted : Intercepted cmd ports r w l interceptions

theorem suggestion_maximum [PyMath K] {cmd : ExecuteToolCommand K}
    {ports : CommandPorts K X R A C S} {r : Readings K} {w : World K X R A C S}
    {classifier : IntentClassifierPort K C} {store : CorrectionStorePort K S}
    {scores : List (CorrectionPattern K × K)} {best : CorrectionPattern K} {s : K} {t : String}
    (hc : ports.classifier = some classifier) (hs : ports.corrections = some store)
    (h : Suggestion cmd r classifier store w scores best s t) :
    MaximumScore cmd ports r w s := by
  obtain ⟨embedding, patterns, hemb, hps, hscores⟩ := h.answers
  refine ⟨classifier, store, embedding, patterns, hc, hs, hemb, hps, ?_, ?_⟩
  · obtain ⟨k, hk⟩ := List.mem_iff_getElem?.mp h.first.mem
    have scored := (scorePatterns_getElem? hscores k best s).mp hk
    rw [Nat.zero_add] at scored
    exact ⟨k, best, scored⟩
  · intro k p s' hp hsc
    have scored := (scorePatterns_getElem? hscores k p s').mpr ⟨hp, by rwa [Nat.zero_add]⟩
    exact h.first.le (List.mem_of_getElem? scored)

section Exclusive

variable [PyMath K] {cmd : ExecuteToolCommand K} {ports : CommandPorts K X R A C S}
  {r : Readings K} {w : World K X R A C S} {result : Except PyException (PyVal K)}
  {effects : List (Effect K)} {p : Policy} {session : ExecutionSession K} {l : Locals K}
  {ints : List (DomainEvent K)}

omit [PyMath K] in
theorem Rejected.not_denied (h : Rejected cmd ports r w result effects) :
    ¬ Denied cmd ports r w result effects p := by
  rintro ⟨session, pre, post, -, -, -, -, -, -, he⟩
  rw [h.1] at he
  cases he

theorem Rejected.not_dispatched (h : Rejected cmd ports r w result effects) :
    ¬ Dispatched cmd ports r w result effects session l ints := by
  intro hd
  have effects_eq := hd.effects_eq
  rw [h.1] at effects_eq
  simp at effects_eq

theorem Denied.not_dispatched (h : Denied cmd ports r w result effects p) :
    ¬ Dispatched cmd ports r w result effects session l ints := by
  obtain ⟨_, _, _, -, -, -, -, -, hr, -⟩ := h
  intro hd
  obtain ⟨v, hv⟩ := hd.returns
  rw [hr] at hv
  cases hv

end Exclusive

theorem no_interception [PyMath K] {cmd : ExecuteToolCommand K}
    {ports : CommandPorts K X R A C S} {r : Readings K} {w : World K X R A C S}
    (registered : Registered ports w.registry cmd.toolName) :
    Intercepted cmd ports r w (noCorrection cmd) [] :=
  ⟨registered, by simp, by simp, by simp [noCorrection], by simp⟩

theorem predict_intercepts [PyMath K] {cmd : ExecuteToolCommand K}
    {ports : CommandPorts K X R A C S} {r : Readings K} {w w' : World K X R A C S}
    {shadowMode : Bool} {l : Locals K} (registered : Registered ports w.registry cmd.toolName)
    (h : (predict cmd ports r shadowMode).run (afterLookups cmd ports w) = (.ok l, w')) :
    ∃ ints, w'.trace = w.trace ++ ints.map .wrote ∧ Intercepted cmd ports r w l ints := by
  obtain ⟨l', w'', hpred, hl⟩ := predict_run cmd ports r shadowMode (afterLookups cmd ports w)
  rw [h] at hpred
  obtain ⟨hok, rfl⟩ := Prod.mk.inj hpred
  obtain rfl := Except.ok.inj hok
  have same : (afterLookups cmd ports w).trace = w.trace := rfl
  rcases hl with ⟨-, rfl, rfl⟩ | ⟨classifier, store, result, hc, hs, -, hcle⟩
  · exact ⟨[], by simp [same], no_interception registered⟩
  cases hcle with
  | silent _ _ none frame => exact ⟨[], by simp [frame.trace, same], no_interception registered⟩
  | lookupRaised e _ _ _ _ frame =>
    exact ⟨[], by simp [frame.trace, same], no_interception registered⟩
  | @logged _ scores best s t suggested kept write =>
    exact ⟨[interceptionEvent cmd r t s best shadowMode false], write.trace, registered, by simp,
      by simp [interceptionEvent], by simp [noCorrection, interceptionEvent],
      by simp [interceptionEvent]⟩
  | @applied _ scores best s t m suggested active look write =>
    have maximum : MaximumScore cmd ports r (afterLookups cmd ports w) s :=
      suggestion_maximum hc hs suggested
    refine ⟨[interceptionEvent cmd r t s best false true], write.trace, ⟨m, look⟩, by simp,
      by simp [interceptionEvent], by simp [interceptionEvent], ?_⟩
    intro ev hev i hi _
    obtain rfl := List.mem_singleton.mp hev
    obtain rfl := EventBody.cleInterception.inj hi
    exact ⟨rfl, rfl, suggested.threshold, maximum⟩

theorem admitted_dispatches [PyMath K] {cmd : ExecuteToolCommand K}
    {ports : CommandPorts K X R A C S} {r : Readings K} {w : World K X R A C S}
    {session : ExecutionSession K} (shadowMode : Option Bool) (hq : Quiet ports)
    (hrun : (authorize cmd ports r).run w = (.ok session, afterLookups cmd ports w))
    (live : LiveSession cmd ports r w session)
    (registered : Registered ports w.registry cmd.toolName)
    (all : ∀ p ∈ ports.policies.listPolicies,
      Allows cmd ports.policies session cmd.toolName p) :
    ∃ effects l ints, ((execute cmd ports shadowMode r).run w).2.trace = w.trace ++ effects ∧
      Dispatched cmd ports r w ((execute cmd ports shadowMode r).run w).1 effects session l
        ints := by
  obtain ⟨l, w₂, hpred, -⟩ := predict_run cmd ports r (shadowMode.getD CLE_SHADOW_MODE)
    (afterLookups cmd ports w)
  obtain ⟨ints, htrace, hints⟩ := predict_intercepts registered hpred
  obtain ⟨v, hv⟩ := hq.execution session l.effectiveTool cmd.parameters w₂.execution
  rw [execute_admitted shadowMode hrun, Procedures.Proc.bind_ok hpred, dispatch_returned r hv,
    hq.audit]
  refine ⟨_, l, ints, ?_, rfl, ⟨v, rfl⟩, live, all, hints⟩
  rw [htrace, List.append_assoc]

theorem execute_outcome [PyMath K] {ports : CommandPorts K X R A C S} (hq : Quiet ports)
    (cmd : ExecuteToolCommand K) (shadowMode : Option Bool) (r : Readings K)
    (w : World K X R A C S) :
    ∃ effects, ((execute cmd ports shadowMode r).run w).2.trace = w.trace ++ effects ∧
      (Rejected cmd ports r w ((execute cmd ports shadowMode r).run w).1 effects ∨
        (∃ p, Denied cmd ports r w ((execute cmd ports shadowMode r).run w).1 effects p) ∨
        ∃ session l ints, Dispatched cmd ports r w
          ((execute cmd ports shadowMode r).run w).1 effects session l ints) := by
  rcases hrun : (authorize cmd ports r).run w with ⟨res, w₁⟩
  cases authorize_cases hrun with
  | sessionRaised _ get audit trace =>
    obtain ⟨s, hs⟩ := hq.session cmd.sessionId w.execution
    rw [hs] at get
    cases get
  | sessionMissing _ get audit trace =>
    rw [execute_refused shadowMode hrun]
    exact ⟨[], by simp [trace], Or.inl ⟨rfl, Or.inl ⟨get, _, rfl⟩⟩⟩
  | sessionInactive _ get inactive audit trace =>
    rw [execute_refused shadowMode hrun]
    exact ⟨[], by simp [trace], Or.inl ⟨rfl, Or.inr (Or.inl ⟨_, get, inactive, _, rfl⟩)⟩⟩
  | toolRaised _ get active lookup audit trace =>
    obtain ⟨m, hm⟩ := hq.registry cmd.toolName w.registry
    rw [hm] at lookup
    cases lookup
  | toolMissing _ get active lookup audit trace =>
    rw [execute_refused shadowMode hrun]
    exact ⟨[], by simp [trace],
      Or.inl ⟨rfl, Or.inr (Or.inr ⟨_, ⟨get, active⟩, lookup, _, rfl⟩)⟩⟩
  | @checked session manifest result _ get active lookup policies =>
    cases policies with
    | allowed all =>
      obtain ⟨effects, l, ints, htr, hd⟩ := admitted_dispatches shadowMode hq hrun
        ⟨get, active⟩ ⟨manifest, lookup⟩ all
      exact ⟨effects, htr, Or.inr (Or.inr ⟨session, l, ints, hd⟩)⟩
    | @raised p e mem guards eval =>
      obtain ⟨b, hb⟩ := hq.policies p (policyContext cmd session cmd.toolName)
      rw [hb] at eval
      cases eval
    | @denied pre p post split before guards eval =>
      rw [hq.audit] at hrun
      rw [execute_refused shadowMode hrun]
      have denied : Denied cmd ports r w _ _ p :=
        ⟨session, pre, post, ⟨get, active⟩, split, before, guards, eval, rfl, rfl⟩
      exact ⟨_, rfl, Or.inr (Or.inl ⟨p, denied⟩)⟩

/-- The trace of every run: rejected, denied or dispatched, and never two of these. -/
theorem execute_trace [PyMath K] (cmd : ExecuteToolCommand K)
    (ports : CommandPorts K X R A C S) (shadowMode : Option Bool) (r : Readings K)
    (w : World K X R A C S) (hq : Quiet ports) :
    ∃ effects, ((execute cmd ports shadowMode r).run w).2.trace = w.trace ++ effects ∧
      let result := ((execute cmd ports shadowMode r).run w).1
      (Rejected cmd ports r w result effects ∨ (∃ p, Denied cmd ports r w result effects p) ∨
        ∃ session l ints, Dispatched cmd ports r w result effects session l ints) ∧
      ¬ (Rejected cmd ports r w result effects ∧ ∃ p, Denied cmd ports r w result effects p) ∧
      ¬ (Rejected cmd ports r w result effects ∧
        ∃ session l ints, Dispatched cmd ports r w result effects session l ints) ∧
      ¬ ((∃ p, Denied cmd ports r w result effects p) ∧
        ∃ session l ints, Dispatched cmd ports r w result effects session l ints) := by
  obtain ⟨effects, htrace, outcome⟩ := execute_outcome hq cmd shadowMode r w
  refine ⟨effects, htrace, outcome, ?_, ?_, ?_⟩
  · rintro ⟨hr, p, hp⟩
    exact hr.not_denied hp
  · rintro ⟨hr, _, _, _, hd⟩
    exact hr.not_dispatched hd
  · rintro ⟨⟨p, hp⟩, _, _, _, hd⟩
    exact hp.not_dispatched hd

theorem constantPorts_quiet (session : ExecutionSession K) (policies : Dict String Policy)
    (embedding : List K) (patterns : List (CorrectionPattern K)) :
    Quiet (constantPorts session (inMemoryPolicyEngine policies) embedding patterns
      fun _ => false) where
  session _ _ := ⟨_, rfl⟩
  execution _ _ _ _ := ⟨_, rfl⟩
  policies _ _ := ⟨_, rfl⟩
  audit _ _ := rfl
  registry _ _ := ⟨_, rfl⟩

theorem execute_trace_sample :
    let ports := constantPorts sampleSession (inMemoryPolicyEngine .empty) [1] [samplePattern]
      fun _ => false
    let w := constantWorld (K := ℝ) sampleTools
    let out := (execute sampleCommand ports (some false) sampleReadings).run w
    ∃ effects, out.2.trace = w.trace ++ effects ∧
      (Rejected sampleCommand ports sampleReadings w out.1 effects ∨
        (∃ p, Denied sampleCommand ports sampleReadings w out.1 effects p) ∨
        ∃ session l ints,
          Dispatched sampleCommand ports sampleReadings w out.1 effects session l ints) := by
  obtain ⟨effects, htrace, h, -⟩ := execute_trace sampleCommand
    (constantPorts sampleSession (inMemoryPolicyEngine .empty) [1] [samplePattern]
      fun _ => false) (some false) sampleReadings (constantWorld sampleTools)
    (constantPorts_quiet _ _ _ _)
  exact ⟨effects, htrace, h⟩

end CommandTrace
