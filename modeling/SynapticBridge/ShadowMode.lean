import SynapticBridge.CleFailure

/-! Shadow mode as a two-run property. A run with the CLE in shadow mode and a run without
a classifier are compared from the same world; what they log is compared up to
identifiers and timestamps. -/
namespace ShadowMode

open Domain CorrectionPatterns Ports ExecuteTool ExecuteToolRuns
open Procedures.Proc

section Observations

variable {K : Type} [Field K] [LinearOrder K]

inductive Observation (K : Type) [Field K] [LinearOrder K] where
  | wrote (body : EventBody K)
  | executed (session : ExecutionSession K) (toolName : String) (parameters : PyVal K)

def observe : Effect K → Observation K
  | .wrote event => .wrote event.body
  | .executed session toolName parameters => .executed session toolName parameters

def isInterception : Effect K → Bool
  | .wrote event => event.body.isInterception
  | .executed _ _ _ => false

/-- `shadow` is `plain` with at most one interception, which was not applied. -/
structure Shadows (shadow plain : List (Effect K)) : Prop where
  plain_none : ∀ e ∈ plain, isInterception e = false
  same : (shadow.filter fun e => !isInterception e).map observe = plain.map observe
  atMostOne : (shadow.filter isInterception).length ≤ 1
  notApplied : ∀ ev i, .wrote ev ∈ shadow → ev.body = .cleInterception i → i.applied = false

theorem shadows_of_observe {shadow plain : List (Effect K)}
    (hplain : ∀ e ∈ plain, isInterception e = false)
    (hshadow : ∀ e ∈ shadow, isInterception e = false)
    (same : shadow.map observe = plain.map observe) : Shadows shadow plain where
  plain_none := hplain
  same := by
    rwa [List.filter_eq_self.mpr fun e he => by rw [hshadow e he]; rfl]
  atMostOne := by
    rw [List.filter_eq_nil_iff.mpr fun e he => by rw [hshadow e he]; exact Bool.false_ne_true]
    exact Nat.zero_le 1
  notApplied := by
    intro ev i hev hbody
    have h := hshadow _ hev
    simp [isInterception, hbody, EventBody.isInterception] at h

theorem Shadows.cons {shadow plain : List (Effect K)} (h : Shadows shadow plain)
    (none : ∀ e ∈ shadow, isInterception e = false) {ev : DomainEvent K}
    {i : CLEInterceptionEvent K} (body : ev.body = .cleInterception i)
    (notApplied : i.applied = false) : Shadows (.wrote ev :: shadow) plain := by
  have hev : isInterception (.wrote ev) = true := by
    simp [isInterception, body, EventBody.isInterception]
  refine ⟨h.plain_none, ?_, ?_, ?_⟩
  · rw [List.filter_cons_of_neg (by simp [hev])]
    exact h.same
  · rw [List.filter_cons_of_pos hev,
      List.filter_eq_nil_iff.mpr fun e he => by rw [none e he]; exact Bool.false_ne_true]
    exact le_rfl
  · intro ev' i' hmem hbody
    rcases List.mem_cons.mp hmem with heq | hmem
    · obtain rfl := Effect.wrote.inj heq
      obtain rfl := EventBody.cleInterception.inj (body.symm.trans hbody)
      exact notApplied
    · exact h.notApplied ev' i' hmem hbody

end Observations

section TwoRuns

variable {K : Type} [Field K] [LinearOrder K] {X R A C S : Type}

def withoutClassifier (ports : CommandPorts K X R A C S) : CommandPorts K X R A C S :=
  { ports with classifier := none }

/-- Audit writes may raise only for interception entries. -/
def WritesOutsideCle (ports : CommandPorts K X R A C S) : Prop :=
  ∀ ev a, ev.body.isInterception = false → ((ports.audit.write ev).run a).1 = .ok ()

/-- Two worlds that agree on the execution port, and the effects added to a trace. -/
structure Paired (trace : List (Effect K)) (w w' : World K X R A C S) : Prop where
  execution : w.execution = w'.execution
  effects : ∃ shadow plain, w.trace = trace ++ shadow ∧ w'.trace = trace ++ plain ∧
    Shadows shadow plain

def audited (ports : CommandPorts K X R A C S) (event : DomainEvent K) (w : World K X R A C S) :
    World K X R A C S :=
  { w with
    audit := ((ports.audit.write event).run w.audit).2
    trace := w.trace ++ [.wrote event] }

variable (cmd : ExecuteToolCommand K) {ports : CommandPorts K X R A C S} (r r' : Readings K)

theorem checkPolicies_paired (quiet : WritesOutsideCle ports) (session : ExecutionSession K)
    (policies : List Policy) (w : World K X R A C S) :
    (∃ result, (checkPolicies cmd ports r session policies).run w = (result, w) ∧
      (checkPolicies cmd (withoutClassifier ports) r' session policies).run w = (result, w)) ∨
    ∃ e w₁ w₂, (checkPolicies cmd ports r session policies).run w = (.error e, w₁) ∧
      (checkPolicies cmd (withoutClassifier ports) r' session policies).run w = (.error e, w₂) ∧
      Paired w.trace w₁ w₂ := by
  induction policies with
  | nil => exact Or.inl ⟨.ok (), rfl, rfl⟩
  | cons policy rest ih =>
    unfold checkPolicies
    by_cases hg : policy.guardsCalls = true
    · simp only [if_pos hg]
      rcases heval : ports.policies.evaluate policy (policyContext cmd session cmd.toolName)
        with e | allowed
      · exact Or.inl ⟨.error e, by rw [bind_run, ofExcept_run],
          by rw [bind_run, ofExcept_run]; simp only [withoutClassifier, heval]⟩
      · cases allowed with
        | true =>
          simp only [bind_run, ofExcept_run, withoutClassifier, heval, if_true]
          exact ih
        | false =>
          have hwrite := quiet (violationEvent cmd r session policy) w.audit rfl
          have hwrite' := quiet (violationEvent cmd r' session policy) w.audit rfl
          refine Or.inr ⟨.policyViolation policy.policyId (denial policy),
            audited ports (violationEvent cmd r session policy) w,
            audited ports (violationEvent cmd r' session policy) w, ?_, ?_, ?_⟩
          · simp [bind_run, hwrite, audited]
          · simp [bind_run, withoutClassifier, heval, hwrite', audited]
          · exact ⟨rfl, _, _, rfl, rfl, shadows_of_observe
              (by simp [isInterception, violationEvent, EventBody.isInterception])
              (by simp [isInterception, violationEvent, EventBody.isInterception]) rfl⟩
    · simp only [if_neg hg]
      exact ih

def lookups (ports : CommandPorts K X R A C S) (now : K) :
    Proc (World K X R A C S) (ExecutionSession K) := do
  match ← onExecution (ports.execution.getSession cmd.sessionId) with
  | none => raise (.sessionNotFound s!"Session {cmd.sessionId} not found")
  | some session =>
    if session.isActive now then do
      match ← onRegistry (ports.registry.get cmd.toolName) with
      | none => raise (.toolNotFound s!"Tool {cmd.toolName} not found")
      | some _ => return session
    else raise (.sessionExpired "Session is not active")

theorem authorize_eq (ports : CommandPorts K X R A C S) :
    authorize cmd ports r = lookups cmd ports r.sessionNow >>= fun session => do
      checkPolicies cmd ports r session ports.policies.listPolicies
      return session := by
  unfold authorize lookups
  rw [bind_assoc]
  apply congrArg
  funext found
  cases found with
  | none => rfl
  | some session =>
    by_cases hact : session.isActive r.sessionNow = true
    · simp only [if_pos hact]
      rw [bind_assoc]
      apply congrArg
      funext manifest
      cases manifest <;> rfl
    · simp only [if_neg hact]
      rfl

theorem lookups_trace (ports : CommandPorts K X R A C S) (now : K) (w : World K X R A C S) :
    ((lookups cmd ports now).run w).2.trace = w.trace := by
  unfold lookups
  rw [bind_run, onExecution_run]
  rcases (ports.execution.getSession cmd.sessionId).run w.execution with ⟨e | session, x⟩
  · rfl
  cases session with
  | none => rfl
  | some session =>
    by_cases hact : session.isActive now = true
    · simp only [if_pos hact]
      rw [bind_run, onRegistry_run]
      rcases (ports.registry.get cmd.toolName).run w.registry with ⟨e | manifest, g⟩
      · rfl
      · cases manifest <;> rfl
    · simp only [if_neg hact]
      rfl

theorem authorize_paired (quiet : WritesOutsideCle ports) (now : r'.sessionNow = r.sessionNow)
    (w : World K X R A C S) :
    (∃ session w₁, (authorize cmd ports r).run w = (.ok session, w₁) ∧
      (authorize cmd (withoutClassifier ports) r').run w = (.ok session, w₁) ∧
      w₁.trace = w.trace) ∨
    ∃ e w₁ w₂, (authorize cmd ports r).run w = (.error e, w₁) ∧
      (authorize cmd (withoutClassifier ports) r').run w = (.error e, w₂) ∧
      Paired w.trace w₁ w₂ := by
  rw [authorize_eq, authorize_eq, now]
  rcases hrun : (lookups cmd ports r.sessionNow).run w with ⟨result, w₁⟩
  have hrun' : (lookups cmd (withoutClassifier ports) r.sessionNow).run w = _ := hrun
  have htrace : w₁.trace = w.trace := by
    rw [← lookups_trace cmd ports r.sessionNow w, hrun]
  have stopped : Paired w.trace w₁ w₁ := ⟨rfl, [], [], by rw [htrace, List.append_nil],
    by rw [htrace, List.append_nil], shadows_of_observe (by simp) (by simp) rfl⟩
  rcases result with e | session
  · exact Or.inr ⟨e, w₁, w₁, bind_error hrun _, bind_error hrun' _, stopped⟩
  · rw [bind_ok hrun, bind_ok hrun']
    rcases checkPolicies_paired cmd r r' quiet session ports.policies.listPolicies w₁
      with ⟨result, h, h'⟩ | ⟨e, w₂, w₃, h, h', paired⟩
    · cases result with
      | ok _ => exact Or.inl ⟨session, w₁, bind_ok h _, bind_ok h' _, htrace⟩
      | error e => exact Or.inr ⟨e, w₁, w₁, bind_error h _, bind_error h' _, stopped⟩
    · rw [← htrace]
      exact Or.inr ⟨e, w₂, w₃, bind_error h _, bind_error h' _, paired⟩

theorem predict_shadow [PyMath K] (ports : CommandPorts K X R A C S) (w : World K X R A C S) :
    ∃ w', (predict cmd ports r true).run w = (.ok (noCorrection cmd), w') ∧
      w'.execution = w.execution ∧
      (w'.trace = w.trace ∨ ∃ t s best, w'.trace =
        w.trace ++ [.wrote (interceptionEvent cmd r t s best true false)]) := by
  obtain ⟨l, w', hrun, ⟨-, rfl, rfl⟩ | ⟨classifier, store, result, hc, hs, -, hcle⟩⟩ :=
    predict_run cmd ports r true w
  · exact ⟨_, hrun, rfl, Or.inl rfl⟩
  · cases hcle with
    | silent _ _ none frame => exact ⟨w', hrun, frame.execution, Or.inl frame.trace⟩
    | lookupRaised _ _ _ active => cases active
    | logged _ suggested kept write =>
      exact ⟨w', hrun, write.execution, Or.inr ⟨_, _, _, write.trace⟩⟩
    | applied _ _ active => cases active

theorem dispatch_paired (quiet : WritesOutsideCle ports) (session : ExecutionSession K)
    {w w' : World K X R A C S} (execution : w.execution = w'.execution) :
    ∃ result w₁ w₂ added added',
      (dispatch cmd ports r session (noCorrection cmd)).run w = (result, w₁) ∧
      (dispatch cmd (withoutClassifier ports) r' session (noCorrection cmd)).run w' =
        (result, w₂) ∧
      w₁.execution = w₂.execution ∧ w₁.trace = w.trace ++ added ∧ w₂.trace = w'.trace ++ added' ∧
      (∀ e ∈ added, isInterception e = false) ∧ (∀ e ∈ added', isInterception e = false) ∧
      added.map observe = added'.map observe := by
  rcases hrun : ((ports.execution.executeTool session cmd.toolName cmd.parameters).run
    w.execution).1 with e | v
  · have hrun' := hrun
    rw [execution] at hrun'
    have raised' : (dispatch cmd (withoutClassifier ports) r' session (noCorrection cmd)).run w' =
      _ := dispatch_raised r' hrun'
    refine ⟨_, _, _, [_], [_], dispatch_raised (l := noCorrection cmd) r hrun,
      raised', ?_, rfl, rfl, by simp [isInterception], by simp [isInterception], rfl⟩
    simp only [withoutClassifier, execution]
  · have hrun' := hrun
    rw [execution] at hrun'
    have hw := quiet (toolCalledEvent cmd r session (noCorrection cmd)) w.audit rfl
    have hw' := quiet (toolCalledEvent cmd r' session (noCorrection cmd)) w'.audit rfl
    have h := dispatch_returned (l := noCorrection cmd) r hrun
    have h' : (dispatch cmd (withoutClassifier ports) r' session (noCorrection cmd)).run w' =
        (((ports.audit.write (toolCalledEvent cmd r' session (noCorrection cmd))).run
          w'.audit).1.map fun _ => v, _) := dispatch_returned r' hrun'
    rw [hw] at h
    rw [hw'] at h'
    refine ⟨_, _, _, [_, _], [_, _], h, h', ?_, rfl, rfl, ?_, ?_, rfl⟩
    · simp only [withoutClassifier, execution]
    · simp [isInterception, toolCalledEvent, EventBody.isInterception]
    · simp [isInterception, toolCalledEvent, EventBody.isInterception]

/-- Shadow mode is invisible: result, execution port and every audit entry but the
interception are those of a run without a classifier. -/
theorem shadow_noninterference [PyMath K] (cmd : ExecuteToolCommand K)
    (ports : CommandPorts K X R A C S) (quiet : WritesOutsideCle ports)
    (plainMode : Option Bool) (r r' : Readings K) (now : r'.sessionNow = r.sessionNow)
    (w : World K X R A C S) :
    ((execute cmd ports (some true) r).run w).1 =
      ((execute cmd (withoutClassifier ports) plainMode r').run w).1 ∧
    Paired w.trace ((execute cmd ports (some true) r).run w).2
      ((execute cmd (withoutClassifier ports) plainMode r').run w).2 := by
  rcases authorize_paired cmd r r' quiet now w with
    ⟨session, w₁, h, h', htrace⟩ | ⟨e, w₁, w₂, h, h', paired⟩
  · obtain ⟨w₂, hpred, hexec, hcle⟩ := predict_shadow cmd r ports w₁
    obtain ⟨result, w₃, w₄, added, added', hd, hd', hexec', ht, ht', hadd, hadd', hobs⟩ :=
      dispatch_paired cmd r r' quiet session hexec
    rw [execute_admitted (some true) h, Option.getD_some, bind_ok hpred, hd,
      CleFailure.execute_without_cle plainMode (Or.inl rfl) h', hd']
    have same := shadows_of_observe hadd' hadd hobs
    refine ⟨rfl, hexec', ?_⟩
    rcases hcle with hcle | ⟨t, s, best, hcle⟩
    · exact ⟨added, added', by rw [ht, hcle, htrace], by rw [ht', htrace], same⟩
    · refine ⟨_ :: added, added', by rw [ht, hcle, htrace, List.append_assoc]; rfl,
        by rw [ht', htrace], same.cons hadd rfl rfl⟩
  · rw [execute_refused (some true) h, execute_refused plainMode h']
    exact ⟨rfl, paired⟩

end TwoRuns

theorem shadow_noninterference_lossy :
    ((execute sampleCommand CleFailure.lossyPorts (some true) sampleReadings).run
      (constantWorld sampleTools)).1 =
      ((execute sampleCommand (withoutClassifier CleFailure.lossyPorts) none sampleReadings).run
        (constantWorld sampleTools)).1 ∧
    Paired [] ((execute sampleCommand CleFailure.lossyPorts (some true) sampleReadings).run
        (constantWorld sampleTools)).2
      ((execute sampleCommand (withoutClassifier CleFailure.lossyPorts) none sampleReadings).run
        (constantWorld sampleTools)).2 :=
  shadow_noninterference sampleCommand CleFailure.lossyPorts
    (fun ev a h => by simp [CleFailure.lossyPorts, constantPorts, h]) none sampleReadings
    sampleReadings rfl (constantWorld sampleTools)

end ShadowMode
