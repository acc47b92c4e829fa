import SynapticBridge.ApiVerdicts

/-! The audit log over runs of the API. A call that comes to its policies leaves one entry of its
session, a violation or a tool call, and the interception of a command stands right before its
tool call. No other request writes to the log. -/
namespace ApiAudit

open Domain CorrectionPatterns OrderedDict Ports ExecutionAdapter SigningKeys Api ApiSteps ApiRuns
open ApiVerdicts (callReadings)
open ExecuteEndpoint (Arrival Records Full ledger)
open ExecuteTool (Readings violationEvent interceptionEvent toolCalledEvent noCorrection)
open ExecuteToolRuns PolicyGate
open MemoryAuditLog
open WormAuditLog (AuditEvent)
open Procedures.Proc

variable {K : Type} [Field K] [LinearOrder K] {C S : Type}

section Decisions

def denying (table : Dict String Policy) (call : ExecuteCall K) (session : ExecutionSession K) :
    Option Policy :=
  (OpaPolicyEngine.opaPolicyEngine (K := K) table).listPolicies.find? fun p =>
    p.guardsCalls && !OpaPolicyEngine.evaluate p
      (ExecuteTool.policyContext (command call) session call.request.toolName)

/-- What a call that comes to its policies reports. -/
def reported (table : Dict String Policy) (call : ExecuteCall K) (session : ExecutionSession K) :
    DomainEvent K :=
  match denying table call session with
  | some p => violationEvent (command call) call.readings session p
  | none => toolCalledEvent (command call) call.readings session (noCorrection (command call))

def commandReport (table : Dict String Policy) (call : ExecuteCall K)
    (found : Option (ExecutionSession K)) (live : ExecutionSession K → Bool) (registered : Bool) :
    Option (DomainEvent K) :=
  match found with
  | none => none
  | some session => if live session && registered then some (reported table call session) else none

/-- What a request reports after these requests. -/
def decision (app : App K C S) (before : List (Request K)) : Request K → Option (DomainEvent K)
  | .execute call =>
    match arrival app call with
    | none => none
    | some a =>
      if Full app.limit a (ledger app.limit (arrivals app before)) ∨ a.owns = false then none
      else commandReport (policiesMade app before) call
        ((sessionsMade app before).get? call.request.sessionId)
        (fun session => decide (call.lookup.activeAt < session.expiresAt))
        ((toolsMade app before).contains call.request.toolName)
  | _ => none

def decisions (app : App K C S) (before : List (Request K)) :
    List (Request K) → List (Option (DomainEvent K))
  | [] => []
  | q :: later => decision app before q :: decisions app (before ++ [q]) later

theorem denying_eq_none (table : Dict String Policy) (call : ExecuteCall K)
    (session : ExecutionSession K) : denying table call session = none ↔
      ∀ p ∈ (OpaPolicyEngine.opaPolicyEngine (K := K) table).listPolicies,
        Allows (command call) (OpaPolicyEngine.opaPolicyEngine table) session
          call.request.toolName p := by
  rw [denying, List.find?_eq_none]
  refine forall₂_congr fun p _ => ?_
  rw [Allows, Bool.and_eq_true, Bool.not_eq_true', not_and, Bool.not_eq_false]
  exact imp_congr_right fun _ => ⟨congrArg Except.ok, Except.ok.inj⟩

theorem decisions_snoc (app : App K C S) (before requests : List (Request K)) (q : Request K) :
    decisions app before (requests ++ [q]) =
      decisions app before requests ++ [decision app (before ++ requests) q] := by
  induction requests generalizing before with
  | nil =>
    rw [List.append_nil]
    rfl
  | cons q' later ih =>
    rw [List.cons_append, decisions, ih, decisions, List.append_assoc]
    rfl

end Decisions

section Entries

/-- An entry that records this event. -/
def Entered (f : Formats K) (event : DomainEvent K) (e : AuditEvent K) : Prop :=
  ∃ hex now, e = InMemoryAuditLog.auditEvent f event hex now

/-- What a request writes for its report: nothing, the entry, or the entry of a tool call after
that of an interception, which kept to the tool that was asked for. -/
inductive Written (f : Formats K) : Option (DomainEvent K) → List (AuditEvent K) → Prop where
  | nothing : Written f none []
  | entry {event : DomainEvent K} {e : AuditEvent K} (entered : Entered f event e) :
      Written f (some event) [e]
  | intercepted {event interception : DomainEvent K} {i e : AuditEvent K}
      {toolName suggested patternId : String} {confidence : K}
      (called : className event.body = "ToolCalledEvent")
      (names : MemoryAuditLog.toolName event.body = some toolName)
      (shadow : interception.body =
        .cleInterception ⟨toolName, suggested, confidence, patternId, true, false⟩)
      (logged : Entered f interception i) (entered : Entered f event e) :
      Written f (some event) [i, e]

variable {f : Formats K} {event : DomainEvent K} {e : AuditEvent K}

omit [Field K] [LinearOrder K] in
theorem Entered.sessionId_eq (entered : Entered f event e) :
    e.sessionId = MemoryAuditLog.sessionId event.body := by
  obtain ⟨hex, now, rfl⟩ := entered
  rfl

omit [Field K] [LinearOrder K] in
theorem Entered.filter (entered : Entered f event e) (sessionId : String) :
    List.Forall₂ (Entered f)
      ([event].filter fun event => MemoryAuditLog.sessionId event.body = some sessionId)
      ([e].filter fun e => e.sessionId = some sessionId) := by
  refine List.rel_filter (fun event e entered => ?_) (.cons entered .nil)
  show decide (_ = some sessionId) = true ↔ decide (e.sessionId = some sessionId) = true
  rw [entered.sessionId_eq]

omit [Field K] [LinearOrder K] in
/-- Interceptions name no session, so that a trail keeps the reports of its session. -/
theorem Written.filter {report : Option (DomainEvent K)} {block : List (AuditEvent K)}
    (written : Written f report block) (sessionId : String) :
    List.Forall₂ (Entered f)
      (report.toList.filter fun event => MemoryAuditLog.sessionId event.body = some sessionId)
      (block.filter fun e => e.sessionId = some sessionId) := by
  cases written with
  | nothing => exact .nil
  | entry entered => exact entered.filter sessionId
  | @intercepted event interception i e _ _ _ _ called names shadow logged entered =>
    have unnamed : i.sessionId = none := by
      rw [logged.sessionId_eq, shadow]
      rfl
    rw [List.filter_cons_of_neg (by simp [unnamed])]
    exact entered.filter sessionId

omit [Field K] [LinearOrder K] in
theorem trail_reports {reports : List (Option (DomainEvent K))}
    {blocks : List (List (AuditEvent K))} (written : List.Forall₂ (Written f) reports blocks)
    (sessionId : String) : List.Forall₂ (Entered f)
      ((reports.filterMap id).filter fun event =>
        MemoryAuditLog.sessionId event.body = some sessionId)
      (blocks.flatten.filter fun e => e.sessionId = some sessionId) := by
  induction written with
  | nil => exact .nil
  | @cons report block reports blocks first rest ih =>
    rw [List.flatten_cons, List.filter_append]
    have split : (report :: reports).filterMap id = report.toList ++ reports.filterMap id := by
      cases report <;> rfl
    rw [split, List.filter_append]
    exact List.rel_append (first.filter sessionId) ih

end Entries

section Command

variable {app : App K C S} [PyMath K] (s : State K C S) (call : ExecuteCall K)

omit [PyMath K] in
theorem denying_eq_some {session : ExecutionSession K} {pre post : List Policy} {p : Policy}
    (split : (app.ports s.policies call).policies.listPolicies = pre ++ p :: post)
    (before : ∀ q ∈ pre, Allows (command call) (app.ports s.policies call).policies session
      (command call).toolName q)
    (guards : p.guardsCalls = true)
    (eval : (app.ports s.policies call).policies.evaluate p
      (ExecuteTool.policyContext (command call) session (command call).toolName) = .ok false) :
    denying s.policies call session = some p := by
  refine List.find?_eq_some_iff_append.mpr ⟨?_, pre, post, split, fun q hq => ?_⟩
  · rw [guards, Bool.true_and, Bool.not_eq_true']
    exact Except.ok.inj eval
  · rw [Bool.not_eq_true', Bool.and_eq_false_imp, Bool.not_eq_false']
    exact fun guards => Except.ok.inj (before q hq guards)

omit [PyMath K] in
theorem refused_written {e : PyException} {w₁ : ApiWorld K C S}
    (hauth : (ExecuteTool.authorize (command call) (app.ports s.policies call)
      (callReadings call)).run s.world = (.error e, w₁)) :
    ∃ block, w₁.audit.events = s.world.audit.events ++ block ∧
      Written app.formats (commandReport s.policies call
        (seen s.world.execution.sessions call.request.sessionId call.lookup)
        (·.isActive call.lookup.activeAt)
        (s.world.registry.contains call.request.toolName)) block := by
  have hget := getSession_found app s call
  have silent {w' : ApiWorld K C S} (audit : w'.audit = s.world.audit) :
      w'.audit.events = s.world.audit.events ++ [] := by
    rw [audit, List.append_nil]
  generalize hres : (Except.error e : Except PyException (ExecutionSession K)) = res at hauth
  cases authorize_cases hauth with
  | sessionRaised _ get => cases hget.symm.trans get
  | sessionMissing _ get audit =>
    rw [Except.ok.inj (hget.symm.trans get)]
    exact ⟨[], silent audit, .nothing⟩
  | @sessionInactive session _ get inactive audit =>
    have ended : session.isActive call.lookup.activeAt = false := inactive
    rw [Except.ok.inj (hget.symm.trans get), commandReport, ended]
    exact ⟨[], silent audit, .nothing⟩
  | toolRaised _ get active lookup => cases lookup
  | @toolMissing session _ get active lookup audit =>
    have missing : s.world.registry.contains call.request.toolName = false :=
      congrArg Option.isSome (Except.ok.inj lookup)
    rw [Except.ok.inj (hget.symm.trans get), commandReport, missing, Bool.and_false]
    exact ⟨[], silent audit, .nothing⟩
  | @checked session manifest _ _ get active lookup policies =>
    have registered : s.world.registry.contains call.request.toolName = true :=
      congrArg Option.isSome (Except.ok.inj lookup)
    have live : session.isActive call.lookup.activeAt = true := active
    cases policies with
    | allowed all => cases hres
    | raised mem guards eval => cases eval
    | @denied pre p post split before guards eval =>
      have denied := denying_eq_some s call split before guards eval
      rw [Except.ok.inj (hget.symm.trans get), commandReport, registered, Bool.and_true]
      dsimp only
      rw [if_pos live, reported, denied]
      exact ⟨_, rfl, .entry ⟨_, _, rfl⟩⟩

theorem predict_written (app : App K C S) (call : ExecuteCall K) (table : Dict String Policy)
    (r : Readings K) (w : ApiWorld K C S) :
    ∃ w' interceptions, (ExecuteTool.predict (command call) (app.ports table call) r true).run w =
        (.ok (noCorrection (command call)), w') ∧
      w'.audit.events = w.audit.events ++ interceptions ∧
      ∀ event e, className event.body = "ToolCalledEvent" →
        MemoryAuditLog.toolName event.body = some call.request.toolName →
        Entered app.formats event e → Written app.formats (some event) (interceptions ++ [e]) := by
  obtain ⟨l, w', hpredict, hl⟩ := predict_run (command call) (app.ports table call) r true w
  rcases hl with ⟨-, rfl, rfl⟩ | ⟨classifier, store, result, -, -, -, hcle⟩
  · exact ⟨_, [], hpredict, (List.append_nil _).symm, fun _ _ _ _ => .entry⟩
  cases hcle with
  | silent _ _ none frame =>
    refine ⟨_, [], hpredict, ?_, fun _ _ _ _ => .entry⟩
    rw [frame.audit, List.append_nil]
  | lookupRaised e _ suggested active look frame => cases active
  | logged _ suggested kept write =>
    refine ⟨_, _, hpredict, congrArg InMemoryAuditLog.events write.audit, ?_⟩
    exact fun event e called names => .intercepted called names rfl ⟨_, _, rfl⟩
  | applied _ suggested active look write => cases active

theorem admitted_written {session : ExecutionSession K} {w₁ : ApiWorld K C S}
    (hauth : (ExecuteTool.authorize (command call) (app.ports s.policies call)
      (callReadings call)).run s.world = (.ok session, w₁)) :
    ∃ block, (((app.server s.policies call).executeTool call.request).run s.world).2.audit.events =
        s.world.audit.events ++ block ∧
      Written app.formats (commandReport s.policies call
        (seen s.world.execution.sessions call.request.sessionId call.lookup)
        (·.isActive call.lookup.activeAt)
        (s.world.registry.contains call.request.toolName)) block := by
  obtain ⟨admitted, rfl⟩ := authorize_eq_ok_iff.mp hauth
  obtain ⟨found, live, ⟨manifest, lookup⟩, allowed⟩ := (admitted_iff s call session).mp admitted
  have registered : s.world.registry.contains call.request.toolName = true :=
    congrArg Option.isSome lookup
  obtain ⟨w₂, interceptions, hpredict, hevents, written⟩ := predict_written app call
    s.policies (callReadings call) (afterLookups (command call) (app.ports s.policies call) s.world)
  obtain ⟨v, hcall⟩ : ∃ v, (((app.ports s.policies call).execution.executeTool session
    (command call).toolName (command call).parameters).run w₂.execution).1 = .ok v := ⟨_, rfl⟩
  have hrun : ((app.server s.policies call).executeTool call.request).run s.world = _ :=
    (execute_admitted none hauth).trans ((bind_ok hpredict _).trans
      (dispatch_returned (callReadings call) hcall))
  let called := toolCalledEvent (command call) (callReadings call) session
    (noCorrection (command call))
  let e := SessionTrail.entry app.formats app.auditHex app.auditNow w₂.audit called
  rw [hrun, found, commandReport, registered, Bool.and_true]
  dsimp only
  rw [if_pos live, reported, (denying_eq_none s.policies call session).mpr allowed]
  refine ⟨interceptions ++ [e], ?_, written called e rfl rfl ⟨_, _, rfl⟩⟩
  rw [← List.append_assoc]
  exact congrArg (· ++ [e]) hevents

theorem command_written :
    ∃ block, (((app.server s.policies call).executeTool call.request).run s.world).2.audit.events =
        s.world.audit.events ++ block ∧
      Written app.formats (commandReport s.policies call
        (seen s.world.execution.sessions call.request.sessionId call.lookup)
        (·.isActive call.lookup.activeAt)
        (s.world.registry.contains call.request.toolName)) block := by
  rcases hauth : (ExecuteTool.authorize (command call) (app.ports s.policies call)
    (callReadings call)).run s.world with ⟨e | session, w₁⟩
  · have hrun : (((app.server s.policies call).executeTool call.request).run s.world).2 = w₁ :=
      congrArg Prod.snd (execute_refused none hauth)
    rw [hrun]
    exact refused_written s call hauth
  · exact admitted_written s call hauth

variable [FloorRing K]

theorem serve_written (claim : PyVal K) :
    let a : Arrival K := ⟨call.request, claim, call.now⟩
    ∃ block, (serve app call claim s).2.world.audit.events = s.world.audit.events ++ block ∧
      Written app.formats
        (if (RateLimiter.isAllowed app.limit a.now a.request.sessionId s.limiter).1.1 = false ∨
            a.owns = false then none
        else commandReport s.policies call
          (seen s.world.execution.sessions call.request.sessionId call.lookup)
          (·.isActive call.lookup.activeAt)
          (s.world.registry.contains call.request.toolName)) block := by
  intro a
  unfold serve ExecuteEndpoint.executeTool
  dsimp only
  by_cases hroom : (RateLimiter.isAllowed app.limit a.now a.request.sessionId
    s.limiter).1.1 = false
  · rw [if_pos hroom, if_pos (.inl hroom)]
    exact ⟨[], (List.append_nil _).symm, .nothing⟩
  by_cases howns : a.owns = false
  · rw [if_neg hroom, if_pos howns, if_pos (.inr howns)]
    exact ⟨[], (List.append_nil _).symm, .nothing⟩
  · rw [if_neg hroom, if_neg howns, if_neg (not_or.mpr ⟨hroom, howns⟩)]
    exact command_written s call

end Command

section Routes

variable {app : App K C S} {s : State K C S}

theorem authenticated_audit (cached : Cached app.env s.world.execution) (authorization : String)
    {handler : PyVal K → State K C S → Answer K × State K C S}
    (keeps : ∀ claim s, (handler claim s).2.world.audit = s.world.audit) :
    (authenticated app authorization handler s).2.world.audit = s.world.audit := by
  obtain ⟨process, -, -, hrun⟩ := authenticated_run cached authorization handler
  rw [hrun]
  cases authenticate app authorization with
  | error e => rfl
  | ok claim => exact keeps claim _

theorem createSession_audit (cached : Cached app.env s.world.execution)
    (agentId createdBy : String) (r : Creation K) :
    (Api.createSession app agentId createdBy r s).2.world.audit = s.world.audit := by
  have hminted : ((SigningKeys.createSession app.jwt app.str app.env agentId createdBy r).run
      s.world.execution).1 = _ := (createSession_cached cached agentId createdBy r).1
  unfold Api.createSession CreateSessionCommand.execute
  dsimp only
  rcases hrun : (SigningKeys.createSession app.jwt app.str app.env agentId createdBy r).run
    s.world.execution with ⟨e | session, process⟩
  · rw [bind_run, onExecution_run, hrun]
  · rw [hrun] at hminted
    have hevents : session.domainEvents = [] := (mintSession_ok hminted.symm).domainEvents
    rw [bind_run, onExecution_run, hrun]
    change ((flushDomainEvents app.audit session.domainEvents >>= fun _ =>
      pure session).run _).2.audit = s.world.audit
    rw [hevents]
    rfl

variable [PyMath K] [IsStrictOrderedRing K] [FloorRing K] {before : List (Request K)}
  {clock clock' : K}

omit [PyMath K] [IsStrictOrderedRing K] [FloorRing K] in
theorem reported_congr (table : Dict String Policy) (call : ExecuteCall K)
    {session session' : ExecutionSession K} (agent : session.agentId = session'.agentId) :
    reported table call session = reported table call session' := by
  have hdenying : denying table call session = denying table call session' := by
    simp only [denying, ExecuteTool.policyContext, agent]
  rw [reported, reported, hdenying]
  simp only [violationEvent, toolCalledEvent, agent]

omit [PyMath K] [IsStrictOrderedRing K] in
theorem commandReport_reflects {call : ExecuteCall K} (reflects : Reflects app before s clock)
    (timed : Timed clock (.execute call) clock') :
    commandReport s.policies call
        (seen s.world.execution.sessions call.request.sessionId call.lookup)
        (·.isActive call.lookup.activeAt) (s.world.registry.contains call.request.toolName) =
      commandReport (policiesMade app before) call
        ((sessionsMade app before).get? call.request.sessionId)
        (fun session => decide (call.lookup.activeAt < session.expiresAt))
        ((toolsMade app before).contains call.request.toolName) := by
  have finds := reflects.finds timed
  rw [reflects.tools, reflects.policies]
  generalize (sessionsMade app before).get? call.request.sessionId = created,
    seen s.world.execution.sessions call.request.sessionId call.lookup = found at finds ⊢
  cases finds with
  | none => rfl
  | @some created session same =>
    rw [commandReport, commandReport]
    simp only [same.2, reported_congr _ call same.1]

theorem execute_written {call : ExecuteCall K} (reflects : Reflects app before s clock)
    (timed : Timed clock (.execute call) clock') :
    ∃ block, (Api.execute app call s).2.world.audit.events = s.world.audit.events ++ block ∧
      Written app.formats (decision app before (.execute call)) block := by
  obtain ⟨process, -, same, hrun⟩ := authenticated_run reflects.cached call.authorization
    (serve app call)
  rw [Api.execute, hrun, decision, arrival]
  cases hauth : authenticate app call.authorization with
  | error e => exact ⟨[], (List.append_nil _).symm, .nothing⟩
  | ok claim =>
    obtain ⟨block, hblock, written⟩ := serve_written (within s process) call claim
    refine ⟨block, hblock, ?_⟩
    have hreport := commandReport_reflects reflects timed
    rw [← same] at hreport
    simp only [within, reflects.full timed claim, hreport] at written
    exact written

theorem step_written {q : Request K} (reflects : Reflects app before s clock)
    (timed : Timed clock q clock') :
    ∃ block, (Api.step app q s).2.world.audit.events = s.world.audit.events ++ block ∧
      Written app.formats (decision app before q) block := by
  have silent {s' : State K C S} (audit : s'.world.audit = s.world.audit) :
      ∃ block, s'.world.audit.events = s.world.audit.events ++ block ∧
        Written app.formats none block :=
    ⟨[], (congrArg InMemoryAuditLog.events audit).trans (List.append_nil _).symm, .nothing⟩
  have cached := reflects.cached
  cases q with
  | execute call => exact execute_written reflects timed
  | createSession agentId createdBy r => exact silent (createSession_audit cached _ _ r)
  | getSession authorization sessionId r =>
    exact silent (authenticated_audit cached authorization fun _ _ => rfl)
  | registerTool authorization request =>
    exact silent (authenticated_audit cached authorization fun _ _ => rfl)
  | addPolicy authorization request hex =>
    exact silent (authenticated_audit cached authorization fun _ _ => rfl)
  | captureCorrection authorization cmd r =>
    exact silent (authenticated_audit cached authorization fun _ _ => rfl)

end Routes

section Runs

variable [PyMath K] [IsStrictOrderedRing K] [FloorRing K] {app : App K C S} {s : State K C S}
  {done : List (Request K × Answer K)} {before : List (Request K)} {clock : K}

theorem run_written (run : Run app done s clock) :
    ∃ blocks, s.world.audit.events = blocks.flatten ∧
      List.Forall₂ (Written app.formats) (decisions app [] (done.map Prod.fst)) blocks := by
  induction run with
  | start classifier corrections clock => exact ⟨[], rfl, .nil⟩
  | @step done s clock clock' run q timed ih =>
    obtain ⟨blocks, hevents, written⟩ := ih
    obtain ⟨block, hblock, last⟩ := step_written run.reflects timed
    refine ⟨blocks ++ [block], ?_, ?_⟩
    · rw [hblock, hevents, List.flatten_append, List.flatten_singleton]
    · rw [List.map_append, List.map_singleton, decisions_snoc, List.nil_append]
      exact List.rel_append written (.cons last .nil)

omit [PyMath K] [IsStrictOrderedRing K] [FloorRing K] in
theorem denying_made (call : ExecuteCall K) (session : ExecutionSession K) :
    denying (policiesMade app before) call session = none ↔
      ∀ p ∈ (policiesMade app before).values,
        Allows (command call) (OpaPolicyEngine.opaPolicyEngine (policiesMade app before)) session
          call.request.toolName p := by
  rw [denying_eq_none, listPolicies_made]

omit [PyMath K] [IsStrictOrderedRing K] [FloorRing K] in
theorem decision_granted {call : ExecuteCall K} {a : Arrival K} {session : ExecutionSession K}
    (granted : Granted app before call a session) :
    decision app before (.execute call) = some (toolCalledEvent (command call) call.readings
      session (noCorrection (command call))) := by
  obtain ⟨manifest, registered⟩ := granted.registered
  have known : (toolsMade app before).contains call.request.toolName = true :=
    congrArg Option.isSome registered
  have ready : ¬(Full app.limit a (ledger app.limit (arrivals app before)) ∨ a.owns = false) :=
    not_or.mpr ⟨granted.room, by simp [granted.owns]⟩
  simp only [decision, granted.token, if_neg ready, granted.created, commandReport, known,
    granted.live, decide_true, Bool.and_true, if_true, reported,
    (denying_made call session).mpr granted.allowed]

omit [PyMath K] [IsStrictOrderedRing K] [FloorRing K] in
theorem decision_called_iff {call : ExecuteCall K} :
    (∃ event, decision app before (.execute call) = some event ∧
        className event.body = "ToolCalledEvent") ↔
      ∃ a session, Granted app before call a session := by
  constructor
  · rintro ⟨event, hdecision, called⟩
    rw [decision] at hdecision
    cases token : arrival app call with
    | none =>
      rw [token] at hdecision
      cases hdecision
    | some a =>
      simp only [token] at hdecision
      split_ifs at hdecision with hready
      obtain ⟨room, howns⟩ := not_or.mp hready
      cases created : (sessionsMade app before).get? call.request.sessionId with
      | none =>
        rw [created] at hdecision
        cases hdecision
      | some session =>
        simp only [created, commandReport] at hdecision
        split_ifs at hdecision with hlive
        obtain ⟨live, known⟩ := Bool.and_eq_true_iff.mp hlive
        refine ⟨a, session, token, Bool.eq_true_of_not_eq_false howns, room, created,
          of_decide_eq_true live, Option.isSome_iff_exists.mp known, ?_⟩
        rw [← denying_made]
        cases denied : denying (policiesMade app before) call session with
        | none => rfl
        | some p =>
          obtain rfl := Option.some.inj hdecision
          rw [reported, denied] at called
          change "PolicyViolationEvent" = "ToolCalledEvent" at called
          simp at called
  · rintro ⟨a, session, granted⟩
    exact ⟨_, decision_granted granted, rfl⟩

/-- After every run the log holds one block for each request, decided by the requests before it.
A call that comes to its policies leaves an entry of its session, the first denying policy or the
tool call; an interception stands right before the tool call of its own command; every other
request leaves nothing. So the trail of a session lists its calls that came to their policies,
once each and in their order, with a tool call for exactly those answered 200. -/
theorem run_audited (run : Run app done s clock) :
    (∃ blocks, s.world.audit.events = blocks.flatten ∧
      List.Forall₂ (Written app.formats) (decisions app [] (done.map Prod.fst)) blocks) ∧
    (∀ sessionId, List.Forall₂ (Entered app.formats)
      (((decisions app [] (done.map Prod.fst)).filterMap id).filter fun event =>
        MemoryAuditLog.sessionId event.body = some sessionId)
      (s.world.audit.getBySession sessionId)) ∧
    ∀ before call answer, before ++ [(.execute call, answer)] <+: done →
      (status answer = 200 ↔ ∃ event, decision app (before.map Prod.fst) (.execute call) =
        some event ∧ className event.body = "ToolCalledEvent") := by
  obtain ⟨blocks, hevents, written⟩ := run_written run
  refine ⟨⟨blocks, hevents, written⟩, fun sessionId => ?_, fun before call answer hinit => ?_⟩
  · rw [InMemoryAuditLog.getBySession_eq, hevents]
    exact trail_reports written sessionId
  · rw [decision_called_iff]
    exact run.granted hinit

end Runs

theorem run_audited_sample : ∃ done s, Run sampleApp done s 1 ∧
    ∃ e, s.world.audit.getBySession "session_0123456789ab" = [e] ∧
      e.eventType = "ToolCalledEvent" ∧ e.toolName = some "search" := by
  have audited : ∀ token, sampleTokens.lookup sampleSecret = some token → ∃ done s,
      Run sampleApp done s 1 ∧ ∃ e, s.world.audit.getBySession "session_0123456789ab" = [e] ∧
        e.eventType = "ToolCalledEvent" ∧ e.toolName = some "search" := by
    intro token h
    obtain ⟨done, s, run, hdone, -, -⟩ := sample_run token
    let call := sampleExecute token "session_0123456789ab"
    have next := run.step (.execute call) (sample_timed _ _)
    obtain ⟨a, session, granted⟩ := sample_granted h
    have trail : List.Forall₂ (Entered sampleApp.formats)
        [toolCalledEvent (command call) call.readings session (noCorrection (command call))]
        ((Api.step sampleApp (.execute call) s).2.world.audit.getBySession
          "session_0123456789ab") := by
      have reports := (run_audited next).2.1 "session_0123456789ab"
      rw [List.map_append, hdone, List.map_singleton, decisions_snoc, List.nil_append] at reports
      change List.Forall₂ _ (([none, none, decision sampleApp _ (.execute call)].filterMap
        id).filter _) _ at reports
      rw [decision_granted granted] at reports
      exact reports
    obtain ⟨e, rest, ⟨hex, now, rfl⟩, hrest, hlist⟩ := List.forall₂_cons_left_iff.mp trail
    obtain rfl := List.forall₂_nil_left_iff.mp hrest
    exact ⟨_, _, next, _, hlist, rfl, rfl⟩
  exact audited sampleToken (by decide +kernel)

end ApiAudit
