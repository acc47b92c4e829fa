import SynapticBridge.Api

/-! What one request can do: which session, tool, policy and limiter entry it makes, and that a
call of `/execute` runs its tool exactly if the state lets it pass. -/
namespace ApiSteps

open Domain CorrectionPatterns OrderedDict Ports ExecutionAdapter SigningKeys Api
open CatalogEndpoints (RegisterToolCommand AddPolicyCommand AddPolicyRequest RegisterToolRequest
  auditLevel policyEffect policyScope capabilityType)
open ExecuteEndpoint (HTTPException Arrival)
open ExecuteTool (ExecuteToolCommand Readings)
open ExecuteToolRuns PolicyGate
open Procedures.Proc

variable {K : Type} [Field K] [LinearOrder K] {C S : Type}

section History

variable (app : App K C S)

/-- What `verify_token` says, whatever the process has cached. -/
def authenticate (authorization : String) : Except VerifyError (PyVal K) :=
  match authorization.toList.dropPrefix? "Bearer ".toList with
  | none => .error (unauthorized "Invalid authorization header")
  | some token =>
    match readSecretKey app.env with
    | .error e => .error (.raised e)
    | .ok key => checkToken app.jwt (String.ofList token) key

def accepts (authorization : String) : Bool := (authenticate app authorization).toOption.isSome

def manifestOf (repr : String → String) (cmd : RegisterToolCommand) :
    Except PyException ToolManifest := do
  let caps ← cmd.capabilities.mapM (capabilityType repr)
  let audit ← auditLevel repr cmd.auditLevel
  cmd.manifest caps.dedup audit

def policyOf (repr : String → String) (request : AddPolicyRequest) (hex : String) :
    Except PyException Policy := do
  let effect ← policyEffect repr request.effect
  let scope ← policyScope repr request.scope
  AddPolicyCommand.policy ⟨request.name, request.regoCode, effect, scope⟩ hex

/-- The session, the tool, the policy and the limiter's entry that a request makes. -/
def sessionMade : Request K → Option (ExecutionSession K)
  | .createSession agentId createdBy r =>
    (mintSession (app.jwt.libraries app.str) (signingKey app.env) agentId createdBy r).toOption
  | _ => none

def toolMade : Request K → Option ToolManifest
  | .registerTool authorization request =>
    if accepts app authorization then
      (manifestOf app.repr request.toRegisterToolCommand).toOption
    else none
  | _ => none

def policyMade : Request K → Option Policy
  | .addPolicy authorization request hex =>
    if accepts app authorization then (policyOf app.repr request hex).toOption else none
  | _ => none

def arrival (call : ExecuteCall K) : Option (Arrival K) :=
  (authenticate app call.authorization).toOption.map fun claim => ⟨call.request, claim, call.now⟩

def arrivalMade : Request K → Option (Arrival K)
  | .execute call => arrival app call
  | _ => none

end History

section Tables

variable {α β κ : Type} [DecidableEq κ]

/-- A table with what a request made, if it made something. -/
def put (key : β → κ) (table : Dict κ β) (made : Option β) : Dict κ β :=
  match made with
  | some b => table.set (key b) b
  | none => table

theorem ofList_snoc (key : β → κ) (made : α → Option β) (before : List α) (q : α) :
    Dict.ofList key ((before ++ [q]).filterMap made) =
      put key (.ofList key (before.filterMap made)) (made q) := by
  rw [List.filterMap_append, Dict.ofList, List.foldl_append]
  cases hmade : made q with
  | none =>
    rw [List.filterMap_cons_none hmade]
    rfl
  | some b =>
    rw [List.filterMap_cons_some hmade]
    rfl

theorem eq_ok_of_toOption {ε : Type} {x : Except ε α} {a : α} (h : x.toOption = some a) :
    x = .ok a := by
  cases x with
  | error e => cases h
  | ok b => exact congrArg Except.ok (Option.some.inj h)

end Tables

section Verification

variable {app : App K C S} {process : Process K}

omit [Field K] in
theorem onKey_run (env : Environment) (process : Process K) : (onKey env).run process =
    (((getSecretKey env).run process).1.mapError .raised, ((getSecretKey env).run process).2) := rfl

omit [Field K] in
theorem getSecretKey_sessions (env : Environment) :
    Keeps Process.sessions (getSecretKey (K := K) env) := by
  refine keeps_bind keeps_read fun process => ?_
  cases process.secretKey with
  | some key => exact keeps_pure _
  | none => exact keeps_bind (keeps_ofExcept _) fun key => keeps_bind (fun _ => rfl) fun _ =>
      keeps_pure _

/-- A token check answers from the environment and touches no session. -/
theorem verifyToken_run (cached : Cached app.env process) (authorization : String) :
    ∃ process', (verifyToken app.jwt app.env authorization).run process =
        (authenticate app authorization, process') ∧
      Cached app.env process' ∧ process'.sessions = process.sessions := by
  unfold verifyToken authenticate
  cases authorization.toList.dropPrefix? "Bearer ".toList with
  | none => exact ⟨process, rfl, cached, rfl⟩
  | some token =>
    obtain ⟨hread, hcached⟩ := getSecretKey_cached cached
    have hsessions := getSecretKey_sessions app.env process
    refine ⟨((getSecretKey app.env).run process).2, ?_, hcached, hsessions⟩
    have hkey := onKey_run app.env process
    rw [hread] at hkey
    cases hsecret : readSecretKey app.env with
    | error e =>
      rw [hsecret] at hkey
      exact bind_error hkey _
    | ok key =>
      rw [hsecret] at hkey
      exact bind_ok hkey _

/-- The state with the caches and sessions of another process. -/
def within (s : State K C S) (process : Process K) : State K C S :=
  { s with world := { s.world with execution := process } }

def refusal : VerifyError → HTTPException
  | .http e => e
  | .raised _ => ⟨500, "Internal server error", none⟩

/-- A route behind the token check serves what the check accepts. -/
theorem authenticated_run {s : State K C S} (cached : Cached app.env s.world.execution)
    (authorization : String) (handler : PyVal K → State K C S → Answer K × State K C S) :
    ∃ process, Cached app.env process ∧ process.sessions = s.world.execution.sessions ∧
      authenticated app authorization handler s =
        match authenticate app authorization with
        | .ok claim => handler claim (within s process)
        | .error e => (.error (refusal e), within s process) := by
  obtain ⟨process, hrun, hcached, hsessions⟩ := verifyToken_run cached authorization
  refine ⟨process, hcached, hsessions, ?_⟩
  rw [authenticated, hrun]
  cases authenticate app authorization with
  | ok claim => rfl
  | error e => cases e <;> rfl

end Verification

section Catalog

theorem registerTool_run (repr : String → String) (request : RegisterToolRequest)
    (tools : Dict String ToolManifest) :
    (CatalogEndpoints.registerTool repr request tools).2 =
      put (·.toolName) tools (manifestOf repr request.toRegisterToolCommand).toOption := by
  unfold CatalogEndpoints.registerTool RegisterToolCommand.execute manifestOf
  cases request.capabilities.mapM (capabilityType repr) with
  | error e => rfl
  | ok caps =>
    cases auditLevel repr request.auditLevel with
    | error e => rfl
    | ok audit =>
      change (((ofExcept (request.manifest caps.dedup audit) >>= fun m =>
        modify (fun tools => tools.set m.toolName m) >>= fun _ => pure m).run tools).2) =
          put (·.toolName) tools (request.manifest caps.dedup audit).toOption
      cases request.manifest caps.dedup audit with
      | error e => rfl
      | ok m => rfl

theorem addPolicy_run (repr : String → String) (request : AddPolicyRequest) (hex : String)
    (policies : Dict String Policy) :
    (CatalogEndpoints.addPolicy repr request hex policies).2 =
      put (·.policyId) policies (policyOf repr request hex).toOption := by
  unfold CatalogEndpoints.addPolicy CatalogEndpoints.addPolicyCall policyOf
  cases policyEffect repr request.effect with
  | error e => rfl
  | ok effect =>
    cases policyScope repr request.scope with
    | error e => rfl
    | ok scope =>
      let cmd : AddPolicyCommand := ⟨request.name, request.regoCode, effect, scope⟩
      change (((ofExcept (cmd.policy hex) >>= fun p =>
        modify (fun policies => policies.set p.policyId p) >>= fun _ => pure p).run policies).2) =
          put (·.policyId) policies (cmd.policy hex).toOption
      cases cmd.policy hex with
      | error e => rfl
      | ok p => rfl

/-- A policy that was added is enabled. -/
theorem policyOf_enabled {repr : String → String} {request : AddPolicyRequest} {hex : String}
    {p : Policy} (h : policyOf repr request hex = .ok p) : p.enabled = true := by
  unfold policyOf at h
  cases heffect : policyEffect repr request.effect with
  | error e =>
    rw [heffect] at h
    cases h
  | ok effect =>
    cases hscope : policyScope repr request.scope with
    | error e =>
      rw [heffect, hscope] at h
      cases h
    | ok scope =>
      rw [heffect, hscope] at h
      change AddPolicyCommand.policy _ hex = .ok p at h
      unfold AddPolicyCommand.policy at h
      split_ifs at h
      rw [← Except.ok.inj h]

end Catalog

section Commands

variable {app : App K C S} {call : ExecuteCall K}

def command (call : ExecuteCall K) : ExecuteToolCommand K :=
  ⟨call.request.sessionId, call.request.toolName, call.request.parameters, call.request.intent⟩

/-- The tool calls of a trace, each with its session and parameters. -/
def toolCall : Effect K → Option (String × String × PyVal K)
  | .executed session toolName parameters => some (session.sessionId, toolName, parameters)
  | .wrote _ => none

def toolCalls (trace : List (Effect K)) : List (String × String × PyVal K) :=
  trace.filterMap toolCall

/-- The view of the registry through the locals of the CLE block. -/
theorem cleBlock_registry [PyMath K] (cmd : ExecuteToolCommand K) (table : Dict String Policy)
    (r : Readings K) (shadowMode : Bool) (classifier : IntentClassifierPort K C)
    (store : CorrectionStorePort K S) :
    Keeps (fun p : ExecuteTool.Locals K × ApiWorld K C S => p.2.registry)
      (ExecuteTool.cleBlock cmd (app.ports table call) r shadowMode classifier store) := by
  have onState {α : Type} {x : Proc (ApiWorld K C S) α} (h : Keeps World.registry x) :
      Keeps (fun p : ExecuteTool.Locals K × ApiWorld K C S => p.2.registry) (onState x) :=
    fun p => h p.2
  have writes (e : DomainEvent K) : Keeps (ρ := Dict String ToolManifest)
      (fun w : ApiWorld K C S => w.registry) (writeAudit app.audit e) := fun _ => rfl
  refine keeps_bind (onState fun w => (bestMatch_frame cmd r classifier store w).2) ?_
  rintro ⟨best, similarity⟩
  cases best with
  | none => exact keeps_pure _
  | some best =>
    dsimp only
    split_ifs
    · unfold ExecuteTool.intercept
      cases best.correctedTools with
      | nil => exact keeps_raise _
      | cons suggested rest =>
        cases shadowMode with
        | true => exact onState (writes _)
        | false =>
          refine keeps_bind (onState fun w => rfl) fun found => ?_
          dsimp only
          split_ifs
          · exact keeps_bind (fun _ => rfl) fun _ => onState (writes _)
          · exact keeps_bind (keeps_pure _) fun _ => onState (writes _)
    · exact keeps_pure _

theorem command_registry [PyMath K] (cmd : ExecuteToolCommand K) (table : Dict String Policy)
    (shadowMode : Option Bool) (r : Readings K) :
    Keeps World.registry (ExecuteTool.execute cmd (app.ports table call) shadowMode r) := by
  have checks (session : ExecutionSession K) (policies : List Policy) : Keeps World.registry
      (ExecuteTool.checkPolicies cmd (app.ports table call) r session policies) := by
    induction policies with
    | nil => exact keeps_pure _
    | cons policy rest ih =>
      unfold ExecuteTool.checkPolicies
      split_ifs
      · refine keeps_bind (keeps_ofExcept _) fun allowed => ?_
        split_ifs
        · exact ih
        · exact keeps_bind (fun _ => rfl) fun _ => keeps_raise _
      · exact ih
  have authorizes : Keeps World.registry
      (ExecuteTool.authorize cmd (app.ports table call) r) := by
    refine keeps_bind (fun _ => rfl) fun found => ?_
    cases found with
    | none => exact keeps_raise _
    | some session =>
      dsimp only
      split_ifs
      · refine keeps_bind (fun _ => rfl) fun manifest => ?_
        cases manifest with
        | none => exact keeps_raise _
        | some _ => exact keeps_bind (checks session _) fun _ => keeps_pure _
      · exact keeps_raise _
  have predicts : Keeps World.registry (ExecuteTool.predict cmd (app.ports table call) r
      (shadowMode.getD CLE_SHADOW_MODE)) := fun w =>
    cleBlock_registry cmd table r _ app.classifier _ (ExecuteTool.noCorrection cmd, w)
  refine keeps_bind authorizes fun session => keeps_bind predicts fun l => ?_
  exact keeps_bind (fun _ => rfl) fun _ => keeps_bind (fun _ => rfl) fun _ => keeps_pure _

theorem toolCalls_append (trace effects : List (Effect K)) :
    toolCalls (trace ++ effects) = toolCalls trace ++ toolCalls effects := List.filterMap_append

theorem toolCalls_eq_nil {effects : List (Effect K)}
    (h : ∀ session t ps, .executed session t ps ∉ effects) : toolCalls effects = [] := by
  refine List.filterMap_eq_nil_iff.mpr fun e he => ?_
  cases e with
  | wrote event => rfl
  | executed session t ps => exact absurd he (h session t ps)

/-- In shadow mode the CLE block leaves the call as it is. -/
theorem predict_shadow [PyMath K] (cmd : ExecuteToolCommand K) (table : Dict String Policy)
    (r : Readings K) (w : ApiWorld K C S) : ∃ w',
    (ExecuteTool.predict cmd (app.ports table call) r true).run w =
      (.ok (ExecuteTool.noCorrection cmd), w') ∧ toolCalls w'.trace = toolCalls w.trace := by
  obtain ⟨l, w', hpredict, hl⟩ := predict_run cmd (app.ports table call) r true w
  rcases hl with ⟨-, rfl, rfl⟩ | ⟨classifier, store, result, -, -, -, hcle⟩
  · exact ⟨_, hpredict, rfl⟩
  cases hcle with
  | silent _ _ none frame => exact ⟨_, hpredict, by rw [frame.trace]⟩
  | lookupRaised e _ suggested active look frame => cases active
  | logged _ suggested kept write =>
    refine ⟨_, hpredict, ?_⟩
    rw [write.trace, toolCalls_append]
    exact List.append_nil _
  | applied _ suggested active look write => cases active

/-- A command of the API calls its tool exactly if it is admitted, and otherwise raises. -/
inductive CommandRun [PyMath K] (app : App K C S) (table : Dict String Policy)
    (call : ExecuteCall K) (cmd : ExecuteToolCommand K) (r : Readings K) (w w' : ApiWorld K C S) :
    Except PyException (PyVal K) → Prop where
  | called (session : ExecutionSession K) (v : PyVal K)
      (admitted : Admitted cmd (app.ports table call) r w session)
      (calls : toolCalls w'.trace =
        toolCalls w.trace ++ [(session.sessionId, cmd.toolName, cmd.parameters)]) :
      CommandRun app table call cmd r w w' (.ok v)
  | refused (e : PyException)
      (refused : ∀ session, ¬ Admitted cmd (app.ports table call) r w session)
      (calls : toolCalls w'.trace = toolCalls w.trace) :
      CommandRun app table call cmd r w w' (.error e)

theorem command_run [PyMath K] (cmd : ExecuteToolCommand K) (table : Dict String Policy)
    (r : Readings K) (w : ApiWorld K C S) :
    CommandRun app table call cmd r w
      ((ExecuteTool.execute cmd (app.ports table call) none r).run w).2
      ((ExecuteTool.execute cmd (app.ports table call) none r).run w).1 := by
  rcases hauth : (ExecuteTool.authorize cmd (app.ports table call) r).run w with ⟨e | session, w₁⟩
  · rw [execute_refused none hauth]
    obtain ⟨effects, htrace, hnone⟩ := authorize_executes hauth
    refine .refused e (fun session admitted => ?_) ?_
    · rw [authorize_eq_ok_iff.mpr ⟨admitted, rfl⟩] at hauth
      cases hauth
    · rw [htrace, toolCalls_append, toolCalls_eq_nil hnone, List.append_nil]
  · obtain ⟨admitted, rfl⟩ := authorize_eq_ok_iff.mp hauth
    obtain ⟨w₂, hpredict, hcalls⟩ : ∃ w₂, (ExecuteTool.predict cmd (app.ports table call) r
        true).run (afterLookups cmd (app.ports table call) w) =
          (.ok (ExecuteTool.noCorrection cmd), w₂) ∧ toolCalls w₂.trace = toolCalls w.trace :=
      predict_shadow cmd table r _
    have hmode : (none : Option Bool).getD CLE_SHADOW_MODE = true := rfl
    obtain ⟨v, hcall⟩ : ∃ v, (((app.ports table call).execution.executeTool session cmd.toolName
        cmd.parameters).run w₂.execution).1 = .ok v := ⟨_, rfl⟩
    rw [execute_admitted none hauth, hmode, bind_ok hpredict, dispatch_returned r hcall]
    refine .called session v admitted ?_
    rw [toolCalls_append, hcalls]
    rfl

end Commands

section Routes

variable {app : App K C S} {s : State K C S}

/-- The lookup of a session that a request may come to. -/
def lookupOf : Request K → Option (Lookup K)
  | .execute call => some call.lookup
  | .getSession _ _ r => some r
  | _ => none

/-- A table after at most the lookup of a request. -/
def Looked (q : Request K) (table table' : Sessions K) : Prop :=
  table' = table ∨ ∃ sessionId r, lookupOf q = some r ∧ table' = afterLookup table sessionId r

def charge [FloorRing K] (app : App K C S) (limiter : RateLimiter.Requests K) :
    Option (Arrival K) → RateLimiter.Requests K
  | some a => (RateLimiter.isAllowed app.limit a.now a.request.sessionId limiter).2
  | none => limiter

/-- Everything that a request can do to the tables. -/
structure Moves [FloorRing K] (app : App K C S) (q : Request K) (s s' : State K C S) : Prop where
  cached : Cached app.env s'.world.execution
  tools : s'.world.registry = put (·.toolName) s.world.registry (toolMade app q)
  policies : s'.policies = put (·.policyId) s.policies (policyMade app q)
  limiter : s'.limiter = charge app s.limiter (arrivalMade app q)
  sessions : Looked q (put (·.sessionId) s.world.execution.sessions (sessionMade app q))
    s'.world.execution.sessions

omit [Field K] in
theorem getJwtSecret_sessions (env : Environment) :
    Keeps Process.sessions (getJwtSecret (K := K) env) := by
  have manager : Keeps Process.sessions (defaultSecretManager (K := K) env) := by
    refine keeps_bind keeps_read fun process => ?_
    cases process.secretManager with
    | some manager => exact keeps_pure _
    | none => exact keeps_bind (fun _ => rfl) fun _ => keeps_pure _
  refine keeps_bind manager fun manager => ?_
  split_ifs
  · exact keeps_raise _
  · exact keeps_pure _

theorem createSession_sessions {process : Process K} (cached : Cached app.env process)
    (agentId createdBy : String) (r : Creation K) :
    ((SigningKeys.createSession app.jwt app.str app.env agentId createdBy r).run
      process).2.sessions = put (·.sessionId) process.sessions
        (mintSession (app.jwt.libraries app.str) (signingKey app.env) agentId createdBy
          r).toOption := by
  obtain ⟨process', hrun, -⟩ := getJwtSecret_cached cached
  have hsessions := getJwtSecret_sessions app.env process
  rw [hrun] at hsessions
  change process'.sessions = process.sessions at hsessions
  unfold SigningKeys.createSession
  cases hkey : signingKey app.env with
  | error e =>
    rw [hkey] at hrun
    rw [bind_error hrun]
    exact hsessions
  | ok key =>
    rw [hkey] at hrun
    rw [bind_ok hrun, on_run, createSession_run, hsessions]
    cases mintSession (app.jwt.libraries app.str) (.ok key) agentId createdBy r with
    | error e => rfl
    | ok session => rfl

theorem createCommand_registry (cmd : CreateSessionCommand)
    (createSession : String → String → Proc (Process K) (ExecutionSession K)) :
    Keeps (fun w : ApiWorld K C S => w.registry) (cmd.execute createSession app.audit) := by
  have flush (events : List (DomainEvent K)) :
      Keeps (fun w : ApiWorld K C S => w.registry) (flushDomainEvents app.audit events) := by
    induction events with
    | nil => exact keeps_pure _
    | cons event rest ih => exact keeps_bind (fun _ => rfl) fun _ => ih
  exact keeps_bind (fun _ => rfl) fun session => keeps_bind (flush _) fun _ => keeps_pure _

theorem createSession_moves [FloorRing K] (cached : Cached app.env s.world.execution)
    (agentId createdBy : String) (r : Creation K) :
    Moves app (.createSession agentId createdBy r) s
      (Api.createSession app agentId createdBy r s).2 := by
  have hexecution := createCommand_execution { agentId, createdBy }
    (fun agentId createdBy => SigningKeys.createSession app.jwt app.str app.env agentId createdBy r)
    app.audit s.world
  refine ⟨?_, ?_, rfl, rfl, .inl ?_⟩
  · exact hexecution ▸ (createSession_cached cached agentId createdBy r).2
  · exact createCommand_registry _ _ s.world
  · exact (congrArg Process.sessions hexecution).trans
      (createSession_sessions cached agentId createdBy r)

/-- A request whose token is not accepted makes nothing. -/
theorem rejected_moves [FloorRing K] {q : Request K} {process : Process K}
    (cached : Cached app.env process) (same : process.sessions = s.world.execution.sessions)
    (nothing : sessionMade app q = none ∧ toolMade app q = none ∧ policyMade app q = none ∧
      arrivalMade app q = none) : Moves app q s (within s process) := by
  obtain ⟨hsession, htool, hpolicy, harrival⟩ := nothing
  refine ⟨cached, ?_, ?_, ?_, .inl ?_⟩
  · rw [htool]
    rfl
  · rw [hpolicy]
    rfl
  · rw [harrival]
    rfl
  · rw [hsession]
    exact same

theorem registerTool_moves [FloorRing K] (cached : Cached app.env s.world.execution)
    (authorization : String) (request : RegisterToolRequest) :
    Moves app (.registerTool authorization request) s
      (Api.registerTool app authorization request s).2 := by
  obtain ⟨process, hcached, same, hrun⟩ := authenticated_run cached authorization _
  rw [Api.registerTool, hrun]
  cases hauth : authenticate app authorization with
  | error e =>
    exact rejected_moves hcached same ⟨rfl, by simp [toolMade, accepts, hauth, Except.toOption],
      rfl, rfl⟩
  | ok claim =>
    refine ⟨hcached, ?_, rfl, rfl, .inl same⟩
    rw [toolMade, accepts, hauth]
    exact registerTool_run _ _ _

theorem addPolicy_moves [FloorRing K] (cached : Cached app.env s.world.execution)
    (authorization : String) (request : AddPolicyRequest) (hex : String) :
    Moves app (.addPolicy authorization request hex) s
      (Api.addPolicy app authorization request hex s).2 := by
  obtain ⟨process, hcached, same, hrun⟩ := authenticated_run cached authorization _
  rw [Api.addPolicy, hrun]
  cases hauth : authenticate app authorization with
  | error e =>
    exact rejected_moves hcached same ⟨rfl, rfl,
      by simp [policyMade, accepts, hauth, Except.toOption], rfl⟩
  | ok claim =>
    refine ⟨hcached, rfl, ?_, rfl, .inl same⟩
    rw [policyMade, accepts, hauth]
    exact addPolicy_run _ _ _ _

theorem captureCorrection_moves [FloorRing K] (cached : Cached app.env s.world.execution)
    (authorization : String) (cmd : CorrectionStores.CaptureCorrectionCommand K)
    (r : CaptureReadings K) : Moves app (.captureCorrection authorization cmd r) s
      (Api.captureCorrection app authorization cmd r s).2 := by
  obtain ⟨process, hcached, same, hrun⟩ := authenticated_run cached authorization _
  rw [Api.captureCorrection, hrun]
  cases authenticate app authorization with
  | error e => exact rejected_moves hcached same ⟨rfl, rfl, rfl, rfl⟩
  | ok claim => exact ⟨hcached, rfl, rfl, rfl, .inl same⟩

theorem getSession_moves [FloorRing K] (cached : Cached app.env s.world.execution)
    (authorization sessionId : String) (r : Lookup K) :
    Moves app (.getSession authorization sessionId r) s
      (Api.getSession app authorization sessionId r s).2 := by
  obtain ⟨process, hcached, same, hrun⟩ := authenticated_run cached authorization _
  rw [Api.getSession, hrun]
  cases authenticate app authorization with
  | error e => exact rejected_moves hcached same ⟨rfl, rfl, rfl, rfl⟩
  | ok claim =>
    refine ⟨⟨hcached.secretKey, hcached.secretManager⟩, rfl, rfl, rfl,
      .inr ⟨sessionId, r, rfl, ?_⟩⟩
    change ((ExecutionAdapter.getSession sessionId r).run process.sessions).2 = _
    rw [getSession_run, same]
    rfl

/-- Checking the token first moves nothing. -/
theorem Moves.of_within [FloorRing K] {q : Request K} {s' : State K C S} {process : Process K}
    (moves : Moves app q (within s process) s')
    (same : process.sessions = s.world.execution.sessions) : Moves app q s s' where
  cached := moves.cached
  tools := moves.tools
  policies := moves.policies
  limiter := moves.limiter
  sessions := same ▸ moves.sessions

/-- The endpoint runs the command or leaves the world as it is. -/
theorem serve_world [PyMath K] [FloorRing K] (call : ExecuteCall K) (claim : PyVal K)
    (s : State K C S) : (serve app call claim s).2.world = s.world ∨
      (serve app call claim s).2.world =
        (((app.server s.policies call).executeTool call.request).run s.world).2 := by
  unfold serve ExecuteEndpoint.executeTool
  dsimp only
  split_ifs
  · exact .inl rfl
  · exact .inl rfl
  · exact .inr rfl

theorem serve_moves [PyMath K] [FloorRing K] (cached : Cached app.env s.world.execution)
    (call : ExecuteCall K) {claim : PyVal K}
    (hauth : authenticate app call.authorization = .ok claim) :
    Moves app (.execute call) s (serve app call claim s).2 := by
  have limited : (serve app call claim s).2.limiter =
      charge app s.limiter (arrivalMade app (.execute call)) := by
    rw [arrivalMade, arrival, hauth, serve, ExecuteEndpoint.executeTool_requests]
    rfl
  rcases serve_world call claim s with hworld | hworld
  · exact ⟨hworld ▸ cached, congrArg World.registry hworld, rfl, limited,
      .inl (congrArg (·.execution.sessions) hworld)⟩
  · have hlookup := getSession_run s.world.execution.sessions call.request.sessionId call.lookup
    have hexecution : (((app.server s.policies call).executeTool call.request).run
        s.world).2.execution = { s.world.execution with
          sessions := (afterLookup s.world.execution.sessions call.request.sessionId
            call.lookup) } := by
      have keeps : ∀ session t ps x, (((app.executionPort call.lookup).executeTool session t
          ps).run x).2 = x := fun _ _ _ _ => rfl
      refine (execute_execution keeps _ _ _ _).trans ?_
      exact congrArg (fun sessions => { s.world.execution with sessions })
        (congrArg Prod.snd hlookup)
    rw [← hworld] at hexecution
    refine ⟨?_, ?_, rfl, limited, .inr ⟨_, _, rfl, congrArg Process.sessions hexecution⟩⟩
    · rw [hexecution]
      exact ⟨cached.secretKey, cached.secretManager⟩
    · rw [hworld]
      exact command_registry _ _ _ _ s.world

theorem execute_moves [PyMath K] [FloorRing K] (cached : Cached app.env s.world.execution)
    (call : ExecuteCall K) : Moves app (.execute call) s (Api.execute app call s).2 := by
  obtain ⟨process, hcached, same, hrun⟩ := authenticated_run cached call.authorization _
  rw [Api.execute, hrun]
  cases hauth : authenticate app call.authorization with
  | error e =>
    exact rejected_moves hcached same ⟨rfl, rfl, rfl,
      by simp [arrivalMade, arrival, hauth, Except.toOption]⟩
  | ok claim => exact (serve_moves hcached call hauth).of_within same

theorem step_moves [PyMath K] [FloorRing K] (cached : Cached app.env s.world.execution)
    (q : Request K) : Moves app q s (step app q s).2 := by
  cases q with
  | createSession agentId createdBy r => exact createSession_moves cached agentId createdBy r
  | execute call => exact execute_moves cached call
  | getSession authorization sessionId r => exact getSession_moves cached authorization sessionId r
  | registerTool authorization request => exact registerTool_moves cached authorization request
  | addPolicy authorization request hex => exact addPolicy_moves cached authorization request hex
  | captureCorrection authorization cmd r =>
    exact captureCorrection_moves cached authorization cmd r

end Routes

section Outcome

variable {app : App K C S} {s : State K C S} {call : ExecuteCall K}

/-- The state lets a call execute its tool. -/
structure Passes [FloorRing K] (app : App K C S) (s : State K C S) (call : ExecuteCall K)
    (a : Arrival K) (session : ExecutionSession K) : Prop where
  token : arrival app call = some a
  owns : a.owns = true
  room : (RateLimiter.isAllowed app.limit a.now a.request.sessionId s.limiter).1.1 = true
  found : seen s.world.execution.sessions call.request.sessionId call.lookup = some session
  active : session.isActive call.lookup.activeAt = true
  registered : ∃ manifest, s.world.registry.get? call.request.toolName = some manifest
  allowed : ∀ p ∈ (OpaPolicyEngine.opaPolicyEngine (K := K) s.policies).listPolicies,
    Allows (command call) (OpaPolicyEngine.opaPolicyEngine s.policies) session
      call.request.toolName p

/-- A request is a call that passes, is answered 200 and executed, or it executes nothing. -/
inductive Outcome [FloorRing K] (app : App K C S) (q : Request K) (s s' : State K C S)
    (answer : Answer K) : Prop where
  | called {call : ExecuteCall K} {a : Arrival K} {session : ExecutionSession K}
      (request : q = .execute call) (passes : Passes app s call a session)
      (answered : status answer = 200)
      (calls : toolCalls s'.world.trace = toolCalls s.world.trace ++
        [(session.sessionId, call.request.toolName, call.request.parameters)])
  | idle (refused : ∀ call, q = .execute call →
        (∀ a session, ¬ Passes app s call a session) ∧ status answer ≠ 200)
      (calls : toolCalls s'.world.trace = toolCalls s.world.trace)

theorem getSession_found (app : App K C S) (s : State K C S) (call : ExecuteCall K) :
    (((app.executionPort call.lookup).getSession call.request.sessionId).run
      s.world.execution).1 =
        .ok (seen s.world.execution.sessions call.request.sessionId call.lookup) :=
  congrArg Prod.fst (getSession_run s.world.execution.sessions _ call.lookup)

theorem admitted_iff (s : State K C S) (call : ExecuteCall K) (session : ExecutionSession K) :
    Admitted (command call) (app.ports s.policies call)
        { call.readings with sessionNow := call.lookup.activeAt } s.world session ↔
      seen s.world.execution.sessions call.request.sessionId call.lookup = some session ∧
      session.isActive call.lookup.activeAt = true ∧
      (∃ manifest, s.world.registry.get? call.request.toolName = some manifest) ∧
      ∀ p ∈ (OpaPolicyEngine.opaPolicyEngine (K := K) s.policies).listPolicies,
        Allows (command call) (OpaPolicyEngine.opaPolicyEngine s.policies) session
          call.request.toolName p := by
  have hget := getSession_found app s call
  constructor
  · rintro ⟨get, active, ⟨manifest, registered⟩, allowed⟩
    exact ⟨Except.ok.inj (hget.symm.trans get), active, ⟨manifest, Except.ok.inj registered⟩,
      allowed⟩
  · rintro ⟨found, active, ⟨manifest, registered⟩, allowed⟩
    exact ⟨hget.trans (congrArg Except.ok found), active, ⟨manifest, congrArg Except.ok registered⟩,
      allowed⟩

theorem status_handle_ne [PyMath K] (server : ExecuteEndpoint.Server K (ApiWorld K C S))
    (headers : List (String × String)) (e : PyException) :
    (ExecuteEndpoint.handle server headers e).statusCode ≠ 200 := by
  cases e with
  | other className message =>
    unfold ExecuteEndpoint.handle
    dsimp only
    split_ifs
    · simp
    · simp
  | _ => simp [ExecuteEndpoint.handle]

/-- What the handler does with a verified token. -/
theorem serve_outcome [PyMath K] [FloorRing K] {claim : PyVal K}
    (hauth : authenticate app call.authorization = .ok claim) :
    Outcome app (.execute call) s (serve app call claim s).2 (serve app call claim s).1 := by
  have harrival : arrival app call = some ⟨call.request, claim, call.now⟩ := by
    rw [arrival, hauth]
    rfl
  have unpassed {a : Arrival K} {session : ExecutionSession K}
      (passes : Passes app s call a session) : a = ⟨call.request, claim, call.now⟩ :=
    Option.some.inj (passes.token.symm.trans harrival)
  unfold serve ExecuteEndpoint.executeTool
  dsimp only
  split_ifs with hroom howns
  · refine .idle (fun call' hcall => ?_) rfl
    obtain rfl := Request.execute.inj hcall
    refine ⟨fun a session passes => ?_, by simp [status, Except.map]⟩
    have room := passes.room
    rw [unpassed passes, hroom] at room
    cases room
  · refine .idle (fun call' hcall => ?_) rfl
    obtain rfl := Request.execute.inj hcall
    refine ⟨fun a session passes => ?_, by simp [status, Except.map]⟩
    have owns := passes.owns
    rw [unpassed passes, howns] at owns
    cases owns
  · have hcommand : CommandRun app s.policies call (command call)
        { call.readings with sessionNow := call.lookup.activeAt } s.world
        (((app.server s.policies call).executeTool call.request).run s.world).2
        (((app.server s.policies call).executeTool call.request).run s.world).1 :=
      command_run _ _ _ _
    generalize ((app.server s.policies call).executeTool call.request).run s.world = run
      at hcommand ⊢
    obtain ⟨result, w'⟩ := run
    cases hcommand with
    | called session v admitted calls =>
      obtain ⟨found, active, registered, allowed⟩ := (admitted_iff _ _ _).mp admitted
      refine .called rfl ⟨harrival, Bool.eq_true_of_not_eq_false howns,
        Bool.eq_true_of_not_eq_false hroom, found, active, registered, allowed⟩ rfl calls
    | refused e refused calls =>
      refine .idle (fun call' hcall => ?_) calls
      obtain rfl := Request.execute.inj hcall
      refine ⟨fun a session passes => ?_, status_handle_ne _ _ _⟩
      exact refused session ((admitted_iff _ _ _).mpr
        ⟨passes.found, passes.active, passes.registered, passes.allowed⟩)

/-- A token is refused with 401, or with 500 where the process has no key. -/
theorem refusal_status {authorization : String} {e : VerifyError}
    (h : authenticate app authorization = .error e) : (refusal e).statusCode ≠ 200 := by
  unfold authenticate at h
  cases hdrop : authorization.toList.dropPrefix? "Bearer ".toList with
  | none =>
    simp only [hdrop] at h
    obtain rfl := Except.error.inj h
    simp [refusal, unauthorized]
  | some token =>
    cases hkey : readSecretKey app.env with
    | error e' =>
      simp only [hdrop, hkey] at h
      obtain rfl := Except.error.inj h
      simp [refusal]
    | ok key =>
      simp only [hdrop, hkey, checkToken] at h
      split at h
      · obtain rfl := Except.error.inj h
        simp [refusal, unauthorized]
      · obtain rfl := Except.error.inj h
        simp [refusal, unauthorized]
      · obtain rfl := Except.error.inj h
        simp [refusal]
      · split at h
        · split_ifs at h
          obtain rfl := Except.error.inj h
          simp [refusal, unauthorized]
        · obtain rfl := Except.error.inj h
          simp [refusal, unauthorized]

theorem Passes.of_within [FloorRing K] {process : Process K} {a : Arrival K}
    {session : ExecutionSession K} (same : process.sessions = s.world.execution.sessions) :
    Passes app (within s process) call a session ↔ Passes app s call a session := by
  constructor
  · rintro ⟨token, owns, room, found, active, registered, allowed⟩
    exact ⟨token, owns, room, same ▸ found, active, registered, allowed⟩
  · rintro ⟨token, owns, room, found, active, registered, allowed⟩
    exact ⟨token, owns, room, same.symm ▸ found, active, registered, allowed⟩

theorem execute_outcome [PyMath K] [FloorRing K] (cached : Cached app.env s.world.execution)
    (call : ExecuteCall K) : Outcome app (.execute call) s (Api.execute app call s).2
      (Api.execute app call s).1 := by
  obtain ⟨process, hcached, same, hrun⟩ := authenticated_run cached call.authorization _
  rw [Api.execute, hrun]
  cases hauth : authenticate app call.authorization with
  | error e =>
    refine .idle (fun call' hcall => ?_) rfl
    obtain rfl := Request.execute.inj hcall
    refine ⟨fun a session passes => ?_, refusal_status hauth⟩
    have token := passes.token
    rw [arrival, hauth] at token
    cases token
  | ok claim =>
    cases serve_outcome (s := within s process) hauth with
    | called request passes answered calls =>
      exact .called request ((Passes.of_within same).mp passes) answered calls
    | idle refused calls =>
      refine .idle (fun call' hcall => ?_) calls
      obtain ⟨never, hstatus⟩ := refused call' hcall
      exact ⟨fun a session passes => never a session ((Passes.of_within same).mpr passes), hstatus⟩

theorem createCommand_calls (cmd : CreateSessionCommand)
    (createSession : String → String → Proc (Process K) (ExecutionSession K)) :
    Keeps (fun w : ApiWorld K C S => toolCalls w.trace) (cmd.execute createSession app.audit) := by
  have flush (events : List (DomainEvent K)) :
      Keeps (fun w : ApiWorld K C S => toolCalls w.trace) (flushDomainEvents app.audit events) := by
    induction events with
    | nil => exact keeps_pure _
    | cons event rest ih =>
      refine keeps_bind (fun w => ?_) fun _ => ih
      rw [writeAudit_run, toolCalls_append]
      exact List.append_nil _
  exact keeps_bind (fun _ => rfl) fun session => keeps_bind (flush _) fun _ => keeps_pure _

/-- A route behind the token check that keeps the trace makes no tool call. -/
theorem authenticated_calls (cached : Cached app.env s.world.execution) (authorization : String)
    {handler : PyVal K → State K C S → Answer K × State K C S}
    (keeps : ∀ claim s, (handler claim s).2.world.trace = s.world.trace) :
    toolCalls (authenticated app authorization handler s).2.world.trace =
      toolCalls s.world.trace := by
  obtain ⟨process, -, -, hrun⟩ := authenticated_run cached authorization handler
  rw [hrun]
  cases authenticate app authorization with
  | error e => rfl
  | ok claim => exact congrArg toolCalls (keeps claim _)

theorem step_outcome [PyMath K] [FloorRing K] (cached : Cached app.env s.world.execution)
    (q : Request K) : Outcome app q s (step app q s).2 (step app q s).1 := by
  cases q with
  | execute call => exact execute_outcome cached call
  | createSession agentId createdBy r => exact .idle nofun (createCommand_calls _ _ s.world)
  | getSession authorization sessionId r =>
    exact .idle nofun (authenticated_calls cached authorization fun _ _ => rfl)
  | registerTool authorization request =>
    exact .idle nofun (authenticated_calls cached authorization fun _ _ => rfl)
  | addPolicy authorization request hex =>
    exact .idle nofun (authenticated_calls cached authorization fun _ _ => rfl)
  | captureCorrection authorization cmd r =>
    exact .idle nofun (authenticated_calls cached authorization fun _ _ => rfl)

end Outcome

end ApiSteps
