import SynapticBridge.SessionTrail
import SynapticBridge.SiemConnectors

/-! What becomes of a policy violation. The command raises and records it, `InMemoryAuditLog`
names the entry after the event's class, and the readers look for `policy_violation`. -/
namespace ViolationSeverity

open Domain CorrectionPatterns Ports ExecuteTool ExecuteToolRuns PolicyGate
open SessionTrail SiemConnectors
open MemoryAuditLog hiding sampleCall sampleFormats
open WormAuditLog (AuditEvent)
open Procedures.Proc

section Entries

variable {K : Type} [Field K] [LinearOrder K]

/-- `AuditEvent.is_critical`. -/
def isCritical (event : AuditEvent K) : Bool :=
  decide (event.eventType ∈ ["policy_violation", "credential_access", "network_call"])

/-- The entry is critical in itself and to both readers of its dictionary. -/
structure Alarms (f : Formats K) (now : String) (event : AuditEvent K) : Prop where
  critical : isCritical event = true
  connector : (connectorNormalize now (auditDict f event)).severity = "critical"
  dispatcher : (dispatcherNormalize now (auditDict f event)).severity = "critical"

/-- The entry of some domain event. -/
def Recorded (f : Formats K) (e : AuditEvent K) : Prop :=
  ∃ event hex now, e = InMemoryAuditLog.auditEvent f event hex now

omit [Field K] [LinearOrder K] in
/-- Class names are not in the vocabulary of the readers. -/
theorem className_not_mem (body : EventBody K) :
    className body ∉ ["policy_violation", "credential_access", "network_call"] := by
  cases body <;> simp [className]

theorem holds_auditDict (f : Formats K) (e : AuditEvent K) (text : String) :
    holds (auditDict f e) "event_type" text = (e.eventType == text) ∧
      holds (auditDict f e) "outcome" text = (e.outcome == text) ∧
      holds (auditDict f e) "action" text = (e.action == text) := by
  refine ⟨?_, ?_, ?_⟩ <;>
    simp [holds, SiemConnectors.get, auditDict, List.lookup_cons, PythonValues.eq]

/-- No recorded entry stands out: it is not critical and of low severity everywhere. -/
theorem Recorded.low {f : Formats K} {e : AuditEvent K} (h : Recorded f e) (now : String) :
    isCritical e = false ∧ (connectorNormalize now (auditDict f e)).severity = "low" ∧
      (dispatcherNormalize now (auditDict f e)).severity = "low" := by
  obtain ⟨event, hex, time, rfl⟩ := h
  have hname := className_not_mem event.body
  simp only [List.mem_cons, List.not_mem_nil, or_false, not_or] at hname
  obtain ⟨violation, access, -⟩ := hname
  refine ⟨decide_eq_false (className_not_mem event.body), ?_, ?_⟩
  · simp [connectorNormalize, normalized, connectorSeverity, holds_auditDict,
      InMemoryAuditLog.auditEvent, violation, access]
  · simp [dispatcherNormalize, normalized, dispatcherSeverity, holds_auditDict,
      InMemoryAuditLog.auditEvent, violation]

end Entries

section Growth

variable {K : Type}

/-- A log that has grown by recorded entries only. -/
def Grows (f : Formats K) (log log' : InMemoryAuditLog K) : Prop :=
  ∃ added, log'.events = log.events ++ added ∧ ∀ e ∈ added, Recorded f e

theorem Grows.refl (f : Formats K) (log : InMemoryAuditLog K) : Grows f log log :=
  ⟨[], by simp, by simp⟩

theorem Grows.trans {f : Formats K} {log log' log'' : InMemoryAuditLog K}
    (h : Grows f log log') (h' : Grows f log' log'') : Grows f log log'' := by
  obtain ⟨added, hevents, hadded⟩ := h
  obtain ⟨added', hevents', hadded'⟩ := h'
  refine ⟨added ++ added', by rw [hevents', hevents, List.append_assoc], ?_⟩
  intro e he
  rcases List.mem_append.mp he with he | he
  · exact hadded e he
  · exact hadded' e he

theorem grows_write (f : Formats K) (hexOf : ℕ → String) (nowOf : ℕ → K) (event : DomainEvent K)
    (log : InMemoryAuditLog K) :
    Grows f log (((auditPort f hexOf nowOf).write event).run log).2 := by
  refine ⟨[entry f hexOf nowOf log event], rfl, ?_⟩
  intro e he
  obtain rfl := List.mem_singleton.mp he
  exact ⟨event, _, _, rfl⟩

end Growth

section Runs

variable {K : Type} [Field K] [LinearOrder K] [PyMath K] {X R C S : Type}
  {call : Invocation K X R (InMemoryAuditLog K) C S} {f : Formats K} {hexOf : ℕ → String}
  {nowOf : ℕ → K}

/-- What a call adds to the log. -/
def added (call : Invocation K X R (InMemoryAuditLog K) C S) : List (AuditEvent K) :=
  call.after.audit.events.drop call.world.audit.events.length

/-- The exception comes out of a port. -/
inductive PortRaises (call : Invocation K X R (InMemoryAuditLog K) C S) (e : PyException) :
    Prop where
  | session (h : ((call.ports.execution.getSession call.cmd.sessionId).run
      call.world.execution).1 = .error e)
  | lookup (h : ((call.ports.registry.get call.cmd.toolName).run call.world.registry).1 = .error e)
  | policy (p : Policy) (session : ExecutionSession K)
      (h : call.ports.policies.evaluate p (policyContext call.cmd session call.cmd.toolName) =
        .error e)
  | tool (session : ExecutionSession K) (toolName : String) (x : X)
      (h : ((call.ports.execution.executeTool session toolName call.cmd.parameters).run x).1 =
        .error e)

omit [PyMath K] in
theorem authorize_grows (audits : call.ports.audit = auditPort f hexOf nowOf)
    {result : Except PyException (ExecutionSession K)}
    {w' : World K X R (InMemoryAuditLog K) C S}
    (h : (authorize call.cmd call.ports call.readings).run call.world = (result, w')) :
    Grows f call.world.audit w'.audit := by
  rcases authorize_audit h with unchanged | ⟨session, p, logged⟩
  · rw [unchanged]
    exact .refl f _
  · rw [logged, audits]
    exact grows_write f hexOf nowOf _ _

theorem predict_grows (audits : call.ports.audit = auditPort f hexOf nowOf) (shadowMode : Bool)
    {w w' : World K X R (InMemoryAuditLog K) C S} {l : Locals K}
    (h : (predict call.cmd call.ports call.readings shadowMode).run w = (.ok l, w')) :
    Grows f w.audit w'.audit := by
  obtain ⟨l', w'', hpred, hl⟩ := predict_run call.cmd call.ports call.readings shadowMode w
  rw [h] at hpred
  obtain ⟨-, rfl⟩ := Prod.mk.inj hpred
  rcases hl with ⟨-, -, rfl⟩ | ⟨classifier, store, result, -, -, -, hcle⟩
  · exact .refl f _
  cases hcle with
  | silent _ _ unsuggested frame =>
    rw [frame.audit]
    exact .refl f _
  | lookupRaised e _ suggested active look frame =>
    rw [frame.audit]
    exact .refl f _
  | logged _ suggested kept write =>
    rw [write.audit, audits]
    exact grows_write f hexOf nowOf _ _
  | applied _ suggested active look write =>
    rw [write.audit, audits]
    exact grows_write f hexOf nowOf _ _

omit [PyMath K] in
theorem dispatch_grows (audits : call.ports.audit = auditPort f hexOf nowOf)
    (session : ExecutionSession K) (l : Locals K) (w : World K X R (InMemoryAuditLog K) C S) :
    Grows f w.audit
      ((dispatch call.cmd call.ports call.readings session l).run w).2.audit := by
  rcases hrun : ((call.ports.execution.executeTool session l.effectiveTool
    call.cmd.parameters).run w.execution).1 with e | v
  · rw [dispatch_raised call.readings hrun]
    exact .refl f _
  · rw [dispatch_returned call.readings hrun, audits]
    exact grows_write f hexOf nowOf _ _

theorem call_grows (audits : call.ports.audit = auditPort f hexOf nowOf) :
    Grows f call.world.audit call.after.audit := by
  rcases hauth : (authorize call.cmd call.ports call.readings).run call.world with ⟨e | session, w₁⟩
  · have := authorize_grows audits hauth
    rwa [Invocation.after, execute_refused call.shadowMode hauth]
  · obtain ⟨l, w₂, hpred, -⟩ := predict_run call.cmd call.ports call.readings
      (call.shadowMode.getD CLE_SHADOW_MODE) w₁
    have checked := authorize_grows audits hauth
    have predicted := predict_grows audits _ hpred
    rw [Invocation.after, execute_admitted call.shadowMode hauth, bind_ok hpred]
    exact (checked.trans predicted).trans (dispatch_grows audits session l w₂)

/-- Everything a call adds is recorded by `write`. -/
theorem added_recorded (audits : call.ports.audit = auditPort f hexOf nowOf) :
    ∀ e ∈ added call, Recorded f e := by
  obtain ⟨new, hevents, hnew⟩ := call_grows audits
  rw [added, hevents, List.drop_left]
  exact hnew

/-- A violation that no port raises is a denial by the command, which records one entry. -/
theorem violation_recorded (audits : call.ports.audit = auditPort f hexOf nowOf)
    {policyId reason : String}
    (violated : call.result = .error (.policyViolation policyId reason))
    (own : ¬ PortRaises call (.policyViolation policyId reason)) :
    ∃ session p, p.policyId = policyId ∧ added call =
      [entry f hexOf nowOf call.world.audit (violationEvent call.cmd call.readings session p)] := by
  rcases hauth : (authorize call.cmd call.ports call.readings).run call.world with ⟨e | session, w₁⟩
  · have hrun := execute_refused call.shadowMode hauth
    rw [Invocation.result, hrun] at violated
    obtain rfl := Except.error.inj violated
    have hafter : call.after = w₁ := by rw [Invocation.after, hrun]
    rw [added, hafter]
    generalize hres : (Except.error (PyException.policyViolation policyId reason) :
      Except PyException (ExecutionSession K)) = res at hauth
    cases authorize_cases hauth with
    | sessionRaised _ get audit trace =>
      obtain rfl := Except.error.inj hres
      exact absurd (.session get) own
    | sessionMissing _ get audit trace => cases hres
    | sessionInactive _ get inactive audit trace => cases hres
    | toolRaised _ get active lookup audit trace =>
      obtain rfl := Except.error.inj hres
      exact absurd (.lookup lookup) own
    | toolMissing _ get active lookup audit trace => cases hres
    | @checked session manifest result _ get active lookup policies =>
      cases policies with
      | allowed all => cases hres
      | raised mem guards eval =>
        obtain rfl := Except.error.inj hres
        exact absurd (.policy _ session eval) own
      | @denied pre p post split before guards eval =>
        rw [audits, auditPort_write] at hres ⊢
        cases hres
        exact ⟨session, p, rfl, by simp⟩
  · have hrun := execute_admitted call.shadowMode hauth
    obtain ⟨l, w₂, hpred, -⟩ := predict_run call.cmd call.ports call.readings
      (call.shadowMode.getD CLE_SHADOW_MODE) w₁
    rw [Invocation.result, hrun, bind_ok hpred] at violated
    rcases htool : ((call.ports.execution.executeTool session l.effectiveTool
      call.cmd.parameters).run w₂.execution).1 with e | v
    · rw [dispatch_raised call.readings htool] at violated
      obtain rfl := Except.error.inj violated
      exact absurd (.tool session l.effectiveTool w₂.execution htool) own
    · rw [dispatch_returned call.readings htool, audits, auditPort_write] at violated
      cases violated

/-- Whatever a call records, and in particular the one entry of a violation, is not critical
and of low severity for the connectors and the dispatcher. -/
theorem violation_unnoticed (audits : call.ports.audit = auditPort f hexOf nowOf)
    {policyId reason : String}
    (violated : call.result = .error (.policyViolation policyId reason)) (now : String) :
    (∀ e ∈ added call, isCritical e = false ∧
      (connectorNormalize now (auditDict f e)).severity = "low" ∧
      (dispatcherNormalize now (auditDict f e)).severity = "low") ∧
    (¬ PortRaises call (.policyViolation policyId reason) →
      ∃ session p, p.policyId = policyId ∧ added call = [entry f hexOf nowOf call.world.audit
        (violationEvent call.cmd call.readings session p)]) :=
  ⟨fun e he => (added_recorded audits e he).low now, violation_recorded audits violated⟩

end Runs

/-! A call that its policy denies. -/

section Sample

noncomputable def deniedCall :
    Invocation ℝ Unit (OrderedDict.Dict String ToolManifest) (InMemoryAuditLog ℝ) Unit Unit :=
  { sampleCall with
    ports :=
      { sampleCall.ports with
        policies := inMemoryPolicyEngine (OrderedDict.Dict.empty.set "deny_queries" denyQueries) } }

theorem deniedCall_audits :
    deniedCall.ports.audit = auditPort sampleFormats (fun _ => "a1") (fun _ => 0) := rfl

theorem deniedCall_violated :
    deniedCall.result = .error (.policyViolation "deny_queries" (denial denyQueries)) := by
  have hauth : ((authorize deniedCall.cmd deniedCall.ports deniedCall.readings).run
      deniedCall.world).1 = .error (.policyViolation "deny_queries" (denial denyQueries)) := by
    have get : (deniedCall.ports.execution.getSession deniedCall.cmd.sessionId).run
        deniedCall.world.execution = (.ok (some sampleSession), ()) := rfl
    have active : sampleSession.isActive deniedCall.readings.sessionNow = true := sample_active
    have lookup : (deniedCall.ports.registry.get deniedCall.cmd.toolName).run
        deniedCall.world.registry = (.ok (some (manifestOf "fs.read" (by decide))), sampleTools) :=
      rfl
    simp only [authorize, bind_run, onExecution_run, get, if_pos active, onRegistry_run, lookup]
    rfl
  have hrun := execute_refused deniedCall.shadowMode (Prod.ext hauth rfl)
  rw [Invocation.result, hrun]

theorem deniedCall_own (e : PyException) : ¬ PortRaises deniedCall e := by
  intro raises
  cases raises with
  | session h => cases h
  | lookup h => cases h
  | policy p session h => cases h
  | tool session toolName x h => cases h

theorem violation_unnoticed_sample : ∃ session p, p.policyId = "deny_queries" ∧
    added deniedCall = [entry sampleFormats (fun _ => "a1") (fun _ => 0) deniedCall.world.audit
      (violationEvent deniedCall.cmd deniedCall.readings session p)] :=
  (violation_unnoticed deniedCall_audits deniedCall_violated "now").2 (deniedCall_own _)

/-- The command raises the violation, and the entry it records alarms nobody. -/
theorem violation_does_not_alarm :
    deniedCall.result = .error (.policyViolation "deny_queries" (denial denyQueries)) ∧
      ∃ e, added deniedCall = [e] ∧ ∀ now, ¬ Alarms sampleFormats now e := by
  obtain ⟨session, p, -, hadded⟩ :=
    violation_recorded deniedCall_audits deniedCall_violated (deniedCall_own _)
  refine ⟨deniedCall_violated, _, hadded, fun now alarms => ?_⟩
  obtain ⟨hcritical, -⟩ :=
    (added_recorded deniedCall_audits _ (by rw [hadded]; exact List.mem_singleton_self _)).low now
  rw [alarms.critical] at hcritical
  cases hcritical

end Sample

end ViolationSeverity
