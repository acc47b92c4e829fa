import SynapticBridge.MemoryAuditLog
import SynapticBridge.PolicyGate

/-! The trail of a session in the in-memory audit log. Violations and tool calls carry the
session of their command; an interception entry carries none and is missing from the trail. -/
namespace SessionTrail

open Domain CorrectionPatterns Ports ExecuteTool ExecuteToolRuns PolicyGate MemoryAuditLog
open WormAuditLog (AuditEvent)
open Procedures.Proc

section Port

variable {K : Type}

/-- The log as a port; entry `i` draws its identifier and timestamp as `hexOf i`, `nowOf i`. -/
def auditPort (f : Formats K) (hexOf : ℕ → String) (nowOf : ℕ → K) :
    AuditLogPort K (InMemoryAuditLog K) where
  write event := ⟨fun log =>
    (.ok (), log.write f (some event) (hexOf log.events.length) (nowOf log.events.length))⟩

def entry (f : Formats K) (hexOf : ℕ → String) (nowOf : ℕ → K) (log : InMemoryAuditLog K)
    (event : DomainEvent K) : AuditEvent K :=
  InMemoryAuditLog.auditEvent f event (hexOf log.events.length) (nowOf log.events.length)

theorem auditPort_write (f : Formats K) (hexOf : ℕ → String) (nowOf : ℕ → K)
    (event : DomainEvent K) (log : InMemoryAuditLog K) :
    ((auditPort f hexOf nowOf).write event).run log =
      (.ok (), ⟨log.events ++ [entry f hexOf nowOf log event]⟩) := rfl

end Port

variable {K : Type} [Field K] [LinearOrder K] {X R C S : Type}

/-- The call passes its checks and gets a confident suggestion that the CLE block logs: in
shadow mode every one, otherwise one whose tool lookup answers. -/
def Intercepts [PyMath K] (call : Invocation K X R (InMemoryAuditLog K) C S) : Prop :=
  ∃ session, Admitted call.cmd call.ports call.readings call.world session ∧
    ∃ classifier store scores best s t, call.ports.classifier = some classifier ∧
      call.ports.corrections = some store ∧
      Suggestion call.cmd call.readings classifier store call.world scores best s t ∧
      (call.shadowMode.getD CLE_SHADOW_MODE = true ∨
        ∃ found, ((call.ports.registry.get t).run
          ((call.ports.registry.get call.cmd.toolName).run call.world.registry).2).1 = .ok found)

/-- What one call adds to the log: at most the interception, which names no session, and then
entries of its own session. -/
structure Adds [PyMath K] (call : Invocation K X R (InMemoryAuditLog K) C S)
    (interceptions own : List (AuditEvent K)) : Prop where
  events : call.after.audit.events = call.world.audit.events ++ (interceptions ++ own)
  own_session : ∀ e ∈ own, e.sessionId = some call.cmd.sessionId
  interceptions_session : ∀ e ∈ interceptions, e.sessionId = none
  intercepts_iff : interceptions ≠ [] ↔ Intercepts call

section Call

variable [PyMath K] {call : Invocation K X R (InMemoryAuditLog K) C S} {f : Formats K}
  {hexOf : ℕ → String} {nowOf : ℕ → K}

/-- A refused call does not reach the CLE block. -/
theorem refused_not_intercepts {e : PyException} {w' : World K X R (InMemoryAuditLog K) C S}
    (h : (authorize call.cmd call.ports call.readings).run call.world = (.error e, w')) :
    ¬ Intercepts call := by
  rintro ⟨session, admitted, -⟩
  rw [authorize_eq_ok_iff.mpr ⟨admitted, rfl⟩] at h
  cases h

/-- A refused call logs its violation at most. -/
theorem refused_adds (audits : call.ports.audit = auditPort f hexOf nowOf) {e : PyException}
    {w' : World K X R (InMemoryAuditLog K) C S}
    (h : (authorize call.cmd call.ports call.readings).run call.world = (.error e, w')) :
    ∃ own, Adds call [] own := by
  have quiet := refused_not_intercepts h
  have after : call.after.audit = w'.audit := by
    rw [Invocation.after, execute_refused call.shadowMode h]
  rcases authorize_audit h with unchanged | ⟨session, p, logged⟩
  · exact ⟨[], by rw [after, unchanged]; simp, by simp, by simp, by simp [quiet]⟩
  · let violation := violationEvent call.cmd call.readings session p
    refine ⟨[entry f hexOf nowOf call.world.audit violation], ?_, ?_, by simp, by simp [quiet]⟩
    · rw [after, logged, audits, auditPort_write]
      rfl
    · intro e he
      obtain rfl := List.mem_singleton.mp he
      rfl

/-- What the CLE block adds to the log of an admitted call. -/
structure Predicted (call : Invocation K X R (InMemoryAuditLog K) C S)
    (w' : World K X R (InMemoryAuditLog K) C S) (interceptions : List (AuditEvent K)) : Prop where
  events : w'.audit.events = call.world.audit.events ++ interceptions
  interceptions_session : ∀ e ∈ interceptions, e.sessionId = none
  intercepts_iff : interceptions ≠ [] ↔ Intercepts call

theorem Predicted.silent {w' : World K X R (InMemoryAuditLog K) C S}
    (audit : w'.audit = call.world.audit) (quiet : ¬ Intercepts call) : Predicted call w' [] := by
  constructor
  · rw [audit, List.append_nil]
  · simp
  · simp [quiet]

theorem Predicted.logged (audits : call.ports.audit = auditPort f hexOf nowOf)
    {w' : World K X R (InMemoryAuditLog K) C S} {ev : DomainEvent K}
    (unnamed : sessionId ev.body = none)
    (write : Logged call.ports ev (afterLookups call.cmd call.ports call.world) w')
    (intercepts : Intercepts call) :
    Predicted call w' [entry f hexOf nowOf call.world.audit ev] := by
  constructor
  · rw [write.audit, audits, auditPort_write]
    rfl
  · intro e he
    obtain rfl := List.mem_singleton.mp he
    exact unnamed
  · simp [intercepts]

theorem predict_adds (audits : call.ports.audit = auditPort f hexOf nowOf)
    {session : ExecutionSession K}
    (admitted : Admitted call.cmd call.ports call.readings call.world session)
    {l : Locals K} {w' : World K X R (InMemoryAuditLog K) C S}
    (h : (predict call.cmd call.ports call.readings (call.shadowMode.getD CLE_SHADOW_MODE)).run
      (afterLookups call.cmd call.ports call.world) = (.ok l, w')) :
    ∃ interceptions, Predicted call w' interceptions := by
  obtain ⟨l', w'', hpred, hl⟩ := predict_run call.cmd call.ports call.readings
    (call.shadowMode.getD CLE_SHADOW_MODE) (afterLookups call.cmd call.ports call.world)
  rw [h] at hpred
  obtain ⟨-, rfl⟩ := Prod.mk.inj hpred
  rcases hl with ⟨absent, -, rfl⟩ | ⟨classifier, store, result, hc, hs, -, hcle⟩
  · refine ⟨_, .silent rfl ?_⟩
    rintro ⟨-, -, classifier, store, -, -, -, -, hc, hs, -⟩
    rcases absent with absent | absent
    · rw [hc] at absent
      cases absent
    · rw [hs] at absent
      cases absent
  cases hcle with
  | silent _ _ unsuggested frame =>
    refine ⟨_, .silent frame.audit ?_⟩
    rintro ⟨-, -, classifier', store', scores, best, s, t, hc', hs', suggested, -⟩
    obtain rfl := Option.some.inj (hc.symm.trans hc')
    obtain rfl := Option.some.inj (hs.symm.trans hs')
    exact unsuggested _ _ _ _ (suggestion_afterLookups.mpr suggested)
  | @lookupRaised e _ scores best s t suggested active lookup frame =>
    refine ⟨_, .silent frame.audit ?_⟩
    rintro ⟨-, -, classifier', store', scores', best', s', t', hc', hs', suggested', kept⟩
    obtain rfl := Option.some.inj (hc.symm.trans hc')
    obtain rfl := Option.some.inj (hs.symm.trans hs')
    obtain ⟨rfl, rfl, rfl, rfl⟩ := suggested.unique (suggestion_afterLookups.mpr suggested')
    rcases kept with shadow | ⟨found, hfound⟩
    · rw [active] at shadow
      cases shadow
    · rw [afterLookups, hfound] at lookup
      cases lookup
  | @logged _ scores best s t suggested kept write =>
    refine ⟨_, .logged audits rfl write ?_⟩
    refine ⟨session, admitted, classifier, store, scores, best, s, t, hc, hs,
      suggestion_afterLookups.mp suggested, ?_⟩
    exact kept.imp id fun missing => ⟨none, missing⟩
  | @applied _ scores best s t m suggested active lookup write =>
    refine ⟨_, .logged audits rfl write ?_⟩
    exact ⟨session, admitted, classifier, store, scores, best, s, t, hc, hs,
      suggestion_afterLookups.mp suggested, .inr ⟨some m, lookup⟩⟩

omit [PyMath K] in
/-- After the CLE block an admitted call logs its tool call, if the tool returned. -/
theorem dispatch_adds (audits : call.ports.audit = auditPort f hexOf nowOf)
    (session : ExecutionSession K) (l : Locals K) (w : World K X R (InMemoryAuditLog K) C S) :
    ∃ own, ((dispatch call.cmd call.ports call.readings session l).run w).2.audit.events =
        w.audit.events ++ own ∧ ∀ e ∈ own, e.sessionId = some call.cmd.sessionId := by
  rcases hrun : ((call.ports.execution.executeTool session l.effectiveTool
    call.cmd.parameters).run w.execution).1 with e | v
  · rw [dispatch_raised call.readings hrun]
    exact ⟨[], by simp, by simp⟩
  · rw [dispatch_returned call.readings hrun, audits]
    refine ⟨[entry f hexOf nowOf w.audit (toolCalledEvent call.cmd call.readings session l)],
      rfl, ?_⟩
    intro e he
    obtain rfl := List.mem_singleton.mp he
    rfl

theorem call_adds (audits : call.ports.audit = auditPort f hexOf nowOf) :
    ∃ interceptions own, Adds call interceptions own := by
  rcases hauth : (authorize call.cmd call.ports call.readings).run call.world with ⟨e | session, w₁⟩
  · obtain ⟨own, adds⟩ := refused_adds audits hauth
    exact ⟨[], own, adds⟩
  · obtain ⟨admitted, rfl⟩ := authorize_eq_ok_iff.mp hauth
    obtain ⟨l, w₂, hpred, -⟩ := predict_run call.cmd call.ports call.readings
      (call.shadowMode.getD CLE_SHADOW_MODE) (afterLookups call.cmd call.ports call.world)
    obtain ⟨interceptions, predicted⟩ := predict_adds audits admitted hpred
    obtain ⟨own, hown, hsession⟩ := dispatch_adds audits session l w₂
    refine ⟨interceptions, own, ?_, hsession, predicted.interceptions_session,
      predicted.intercepts_iff⟩
    rw [Invocation.after, execute_admitted call.shadowMode hauth, bind_ok hpred, hown,
      predicted.events, List.append_assoc]

end Call

/-- Commands run one after the other on one log. Each entry is recorded with the session of
the command that wrote it. -/
inductive Trail [PyMath K] (f : Formats K) : List (Invocation K X R (InMemoryAuditLog K) C S) →
    InMemoryAuditLog K → List (String × AuditEvent K) → Prop where
  | start : Trail f [] .empty []
  | command {calls : List (Invocation K X R (InMemoryAuditLog K) C S)} {log : InMemoryAuditLog K}
      {written : List (String × AuditEvent K)} (prior : Trail f calls log written)
      (call : Invocation K X R (InMemoryAuditLog K) C S) (same : call.world.audit = log)
      (hexOf : ℕ → String) (nowOf : ℕ → K) (audits : call.ports.audit = auditPort f hexOf nowOf) :
      Trail f (calls ++ [call]) call.after.audit
        (written ++ (call.after.audit.events.drop log.events.length).map
          fun e => (call.cmd.sessionId, e))

section Trail

variable [PyMath K] {f : Formats K} {calls : List (Invocation K X R (InMemoryAuditLog K) C S)}
  {log : InMemoryAuditLog K} {written : List (String × AuditEvent K)}

theorem Trail.events_eq (trail : Trail f calls log written) :
    log.events = written.map Prod.snd := by
  induction trail with
  | start => rfl
  | @command calls log written prior call same hexOf nowOf audits ih =>
    obtain ⟨interceptions, own, adds⟩ := call_adds audits
    rw [List.map_append, ← ih, List.map_map, adds.events, same, List.drop_left]
    simp

/-- An entry names the session of its command or none, and none exactly when it is an
interception. -/
theorem Trail.sessions (trail : Trail f calls log written) :
    (∀ p ∈ written, p.2.sessionId = some p.1 ∨ p.2.sessionId = none) ∧
      ((∃ p ∈ written, p.2.sessionId = none) ↔ ∃ call ∈ calls, Intercepts call) := by
  induction trail with
  | start => simp
  | @command calls log written prior call same hexOf nowOf audits ih =>
    obtain ⟨interceptions, own, adds⟩ := call_adds audits
    rw [adds.events, same, List.drop_left]
    constructor
    · intro p hp
      rcases List.mem_append.mp hp with hp | hp
      · exact ih.1 p hp
      obtain ⟨e, he, rfl⟩ := List.mem_map.mp hp
      rcases List.mem_append.mp he with he | he
      · exact .inr (adds.interceptions_session e he)
      · exact .inl (adds.own_session e he)
    · constructor
      · rintro ⟨p, hp, hnone⟩
        rcases List.mem_append.mp hp with hp | hp
        · obtain ⟨call', hmem, hcall⟩ := ih.2.mp ⟨p, hp, hnone⟩
          exact ⟨call', List.mem_append_left _ hmem, hcall⟩
        obtain ⟨e, he, rfl⟩ := List.mem_map.mp hp
        rcases List.mem_append.mp he with he | he
        · exact ⟨call, by simp, adds.intercepts_iff.mp (List.ne_nil_of_mem he)⟩
        · rw [adds.own_session e he] at hnone
          cases hnone
      · rintro ⟨call', hmem, hcall⟩
        rcases List.mem_append.mp hmem with hmem | hmem
        · obtain ⟨p, hp, hnone⟩ := ih.2.mpr ⟨call', hmem, hcall⟩
          exact ⟨p, List.mem_append_left _ hp, hnone⟩
        · obtain rfl := List.mem_singleton.mp hmem
          obtain ⟨e, he⟩ := List.exists_mem_of_ne_nil _ (adds.intercepts_iff.mpr hcall)
          refine ⟨(call'.cmd.sessionId, e), ?_, adds.interceptions_session e he⟩
          exact List.mem_append_right _ (List.mem_map_of_mem (List.mem_append_left _ he))

/-- An entry that names no session is missing from the trail of its command. -/
theorem Trail.incomplete (trail : Trail f calls log written) {call : Invocation K X R _ C S}
    (mem : call ∈ calls) (intercepts : Intercepts call) :
    ∃ sessionId, log.getBySession sessionId ≠
      (written.filter fun p => p.1 = sessionId).map Prod.snd := by
  obtain ⟨p, hp, hnone⟩ := trail.sessions.2.mpr ⟨call, mem, intercepts⟩
  refine ⟨p.1, ?_⟩
  intro complete
  have listed : p.2 ∈ log.getBySession p.1 := by
    rw [complete]
    exact List.mem_map_of_mem (List.mem_filter.mpr ⟨hp, by simp⟩)
  rw [InMemoryAuditLog.getBySession_eq] at listed
  have named := (List.mem_filter.mp listed).2
  rw [hnone] at named
  simp at named

/-- Every session finds exactly the entries of its commands, each once and in the order of
writing, if and only if no call was intercepted. -/
theorem Trail.complete_iff (trail : Trail f calls log written) :
    (∀ sessionId, log.getBySession sessionId =
        (written.filter fun p => p.1 = sessionId).map Prod.snd) ↔
      ∀ call ∈ calls, ¬ Intercepts call := by
  obtain ⟨hsession, hintercepts⟩ := trail.sessions
  constructor
  · intro complete call hmem hcall
    obtain ⟨sessionId, missing⟩ := trail.incomplete hmem hcall
    exact missing (complete sessionId)
  · intro quiet sessionId
    rw [InMemoryAuditLog.getBySession_eq, trail.events_eq, List.filter_map]
    apply congrArg
    apply List.filter_congr
    intro p hp
    have named : p.2.sessionId = some p.1 := by
      rcases hsession p hp with named | hnone
      · exact named
      · obtain ⟨call, hmem, hcall⟩ := hintercepts.mp ⟨p, hp, hnone⟩
        exact absurd hcall (quiet call hmem)
    simp [named]

end Trail

/-! One command that is intercepted in shadow mode. -/

section Sample

noncomputable def sampleFormats : Formats ℝ where
  isoformat _ := "1970-01-01T00:00:00+00:00"
  repr
    | .str text => "'" ++ text ++ "'"
    | .bool b => if b then "True" else "False"
    | .float x => if x = 0 then "0.0" else "1.0"
    | _ => "None"
  digest := id

noncomputable def sampleCall :
    Invocation ℝ Unit (OrderedDict.Dict String ToolManifest) (InMemoryAuditLog ℝ) Unit Unit where
  cmd := sampleCommand
  ports :=
    { execution :=
        ⟨fun _ => pure (some sampleSession), fun _ t _ => pure (.dict [("tool", .str t)])⟩
      registry := inMemoryToolRegistry
      policies := inMemoryPolicyEngine .empty
      audit := auditPort sampleFormats (fun _ => "a1") (fun _ => 0)
      classifier := some ⟨fun _ => pure ("unknown", 0), fun _ => pure [1]⟩
      corrections := some ⟨fun _ _ => pure (), fun _ => pure [samplePattern]⟩ }
  shadowMode := none
  readings := sampleReadings
  world := ⟨(), sampleTools, .empty, (), (), []⟩

theorem sampleCall_intercepts : Intercepts sampleCall := by
  refine ⟨sampleSession, ⟨rfl, sample_active, ⟨manifestOf "fs.read" (by decide), rfl⟩, ?_⟩, ?_⟩
  · intro p hp
    cases hp
  · exact ⟨_, _, _, _, _, _, rfl, rfl, ⟨sample_suggestion.answers, sample_suggestion.first,
      sample_suggestion.positive, sample_suggestion.threshold, sample_suggestion.names⟩, .inl rfl⟩

theorem sampleCall_trail : ∃ log written, Trail sampleFormats [sampleCall] log written :=
  ⟨_, _, Trail.start.command sampleCall rfl (fun _ => "a1") (fun _ => 0) rfl⟩

theorem complete_iff_sample : ∃ log written, Trail sampleFormats [sampleCall] log written ∧
    ((∀ sessionId, log.getBySession sessionId =
        (written.filter fun p => p.1 = sessionId).map Prod.snd) ↔
      ∀ call ∈ [sampleCall], ¬ Intercepts call) := by
  obtain ⟨log, written, trail⟩ := sampleCall_trail
  exact ⟨log, written, trail, trail.complete_iff⟩

/-- The interception entry of a command is not in the trail of its session. -/
theorem interception_not_in_trail : ∃ log written,
    Trail sampleFormats [sampleCall] log written ∧
    ∃ sessionId, log.getBySession sessionId ≠
      (written.filter fun p => p.1 = sessionId).map Prod.snd := by
  obtain ⟨log, written, trail⟩ := sampleCall_trail
  exact ⟨log, written, trail, trail.incomplete List.mem_cons_self sampleCall_intercepts⟩

end Sample

end SessionTrail
