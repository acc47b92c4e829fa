import SynapticBridge.CatalogEndpoints
import SynapticBridge.CorrectionStores
import SynapticBridge.SessionTrail
import SynapticBridge.SigningKeys

/-! The routes of the API over one container. A request runs to its end before the next one
starts, since no await of a handler suspends. The two lists and the portal, which write none of
this state, are modules of their own. -/
namespace Api

open Domain CorrectionPatterns OrderedDict Ports ExecutionAdapter SigningKeys
open CatalogEndpoints (RegisterToolRequest AddPolicyRequest Registered Added respond)
open ExecuteEndpoint (ExecuteToolRequest HTTPException JSONResponse Arrival)
open ExecuteTool (ExecuteToolCommand Readings CommandPorts)
open CorrectionStores (CaptureCorrectionCommand)
open MemoryAuditLog (Formats InMemoryAuditLog)
open RateLimiter (RateLimitConfig)
open Procedures (Proc.on)

variable {K : Type} [Field K] [LinearOrder K] {C S : Type}

section Container

/-- The libraries, the environment and what `create_container` registers. A save draws a clock
reading and random digits; the audit log draws them for each entry. -/
structure App (K : Type) [Field K] [LinearOrder K] (C S : Type) where
  jwt : Jwt K
  env : Environment
  str : PyVal K → String
  repr : String → String
  limit : RateLimitConfig K
  formats : Formats K
  auditHex : ℕ → String
  auditNow : ℕ → K
  classifier : IntentClassifierPort K C
  findPatterns : List K → Proc S (List (CorrectionPattern K))
  saveCorrection : K → String → Correction K → Option (List K) → Proc S Unit
  /-- The JSON text of a tool's result. -/
  render : PyVal K → String
  badRequest : String → Bool

abbrev ApiWorld (K : Type) [Field K] [LinearOrder K] (C S : Type) :=
  World K (Process K) (Dict String ToolManifest) (InMemoryAuditLog K) C S

/-- The limiter of `/execute`, the table of the policy engine, and the other adapters. -/
structure State (K : Type) [Field K] [LinearOrder K] (C S : Type) where
  limiter : RateLimiter.Requests K
  policies : Dict String Policy
  world : ApiWorld K C S

/-- A fresh process. -/
def start (classifier : C) (corrections : S) : State K C S where
  limiter := .empty
  policies := .empty
  world := ⟨⟨none, none, .empty⟩, .empty, .empty, classifier, corrections, []⟩

variable (app : App K C S)

def App.audit : AuditLogPort K (InMemoryAuditLog K) :=
  SessionTrail.auditPort app.formats app.auditHex app.auditNow

def App.store (now : K) (hex : String) : CorrectionStorePort K S where
  saveCorrection := app.saveCorrection now hex
  findPatterns := app.findPatterns

def onSessions {α : Type} (x : Proc (Sessions K) α) : Proc (Process K) α :=
  Proc.on Process.sessions (fun sessions process => { process with sessions := sessions }) x

def App.executionPort (r : Lookup K) : ExecutionPort K (Process K) where
  getSession sessionId := onSessions (getSession sessionId r)
  executeTool session toolName parameters :=
    onSessions (executeTool (app.jwt.libraries app.str) session toolName parameters)

end Container

section Requests

/-- A request to `/execute`, with the readings of the limiter, of the session's lookup and of
the command. -/
structure ExecuteCall (K : Type) where
  authorization : String
  request : ExecuteToolRequest K
  now : K
  lookup : Lookup K
  readings : Readings K

/-- The readings of a correction and of its save. -/
structure CaptureReadings (K : Type) where
  hex : String
  capturedAt : K
  savedHex : String
  savedAt : K

inductive Request (K : Type) where
  | createSession (agentId createdBy : String) (r : Creation K)
  | execute (call : ExecuteCall K)
  | getSession (authorization sessionId : String) (r : Lookup K)
  | registerTool (authorization : String) (request : RegisterToolRequest)
  | addPolicy (authorization : String) (request : AddPolicyRequest) (hex : String)
  | captureCorrection (authorization : String) (cmd : CaptureCorrectionCommand K)
      (r : CaptureReadings K)

/-- The JSON bodies of the answers. -/
inductive Body (K : Type) where
  | session (sessionId executionToken : String) (status : SessionStatus) (expiresAt : K)
  | result (response : JSONResponse)
  | found (sessionId agentId : String) (status : SessionStatus) (isActive : Bool)
  | registered (tool : Registered)
  | added (policy : Added)
  | captured (correctionId : String) (capturedAt : DateTime K) (trustScore : K)

abbrev Answer (K : Type) := Except HTTPException (Body K)

def status : Answer K → ℕ
  | .ok _ => 200
  | .error e => e.statusCode

def trustScore (correction : Correction K) : K :=
  min 1 (max 0 (1 / (2 : ℕ) +
    (correction.confidenceAfter - correction.confidenceBefore) * (1 / (2 : ℕ))))

end Requests

section Routes

variable (app : App K C S)

/-- `Depends(verify_token)`; what it raises beside an `HTTPException` is the global handler's. -/
def authenticated (authorization : String)
    (handler : PyVal K → State K C S → Answer K × State K C S) (s : State K C S) :
    Answer K × State K C S :=
  let verified := (verifyToken app.jwt app.env authorization).run s.world.execution
  let s := { s with world := { s.world with execution := verified.2 } }
  match verified.1 with
  | .ok claim => handler claim s
  | .error (.http e) => (.error e, s)
  | .error (.raised _) => (.error ⟨500, "Internal server error", none⟩, s)

def createSession (agentId createdBy : String) (r : Creation K) (s : State K C S) :
    Answer K × State K C S :=
  let cmd : CreateSessionCommand := { agentId, createdBy }
  let created := (cmd.execute
    (fun agentId createdBy => SigningKeys.createSession app.jwt app.str app.env agentId createdBy r)
    app.audit).run s.world
  (respond (created.1.map fun session =>
      .session session.sessionId session.executionToken session.status session.expiresAt),
    { s with world := created.2 })

/-- The ports of a command. It saves no correction, whatever reading the store is given. -/
def App.ports (policies : Dict String Policy) (call : ExecuteCall K) :
    CommandPorts K (Process K) (Dict String ToolManifest) (InMemoryAuditLog K) C S where
  execution := app.executionPort call.lookup
  registry := inMemoryToolRegistry
  policies := OpaPolicyEngine.opaPolicyEngine policies
  audit := app.audit
  classifier := some app.classifier
  corrections := some (app.store call.now call.readings.callHex)

/-- The session server for one call; the command leaves `shadow_mode` to its default. -/
def App.server [PyMath K] (policies : Dict String Policy) (call : ExecuteCall K) :
    ExecuteEndpoint.Server K (ApiWorld K C S) where
  executeTool request := ExecuteTool.execute
    ⟨request.sessionId, request.toolName, request.parameters, request.intent⟩
    (app.ports policies call) none { call.readings with sessionNow := call.lookup.activeAt }
  render v := .ok (app.render v)
  badRequest := app.badRequest

/-- The handler of `/execute` for the session of a verified token. -/
def serve [PyMath K] [FloorRing K] (call : ExecuteCall K) (claim : PyVal K) (s : State K C S) :
    Answer K × State K C S :=
  let served := ExecuteEndpoint.executeTool app.limit (app.server s.policies call)
    ⟨call.request, claim, call.now⟩ ⟨s.limiter, s.world⟩
  (served.1.map .result, { s with limiter := served.2.requests, world := served.2.world })

def execute [PyMath K] [FloorRing K] (call : ExecuteCall K) : State K C S →
    Answer K × State K C S := authenticated app call.authorization (serve app call)

def getSession (authorization sessionId : String) (r : Lookup K) : State K C S →
    Answer K × State K C S :=
  authenticated app authorization fun _ s =>
    let found := (onExecution ((app.executionPort r).getSession sessionId)).run s.world
    (match found.1 with
      | .ok (some session) => .ok (.found session.sessionId session.agentId session.status
          (session.isActive r.activeAt))
      | .ok none => .error ⟨404, "Session not found", none⟩
      | .error _ => .error ⟨500, "Internal server error", none⟩,
    { s with world := found.2 })

def registerTool (authorization : String) (request : RegisterToolRequest) : State K C S →
    Answer K × State K C S :=
  authenticated app authorization fun _ s =>
    let registered := CatalogEndpoints.registerTool app.repr request s.world.registry
    (registered.1.map .registered, { s with world := { s.world with registry := registered.2 } })

def addPolicy (authorization : String) (request : AddPolicyRequest) (hex : String) :
    State K C S → Answer K × State K C S :=
  authenticated app authorization fun _ s =>
    let added := CatalogEndpoints.addPolicy app.repr request hex s.policies
    (added.1.map .added, { s with policies := added.2 })

def captureCorrection (authorization : String) (cmd : CaptureCorrectionCommand K)
    (r : CaptureReadings K) : State K C S → Answer K × State K C S :=
  authenticated app authorization fun _ s =>
    let captured := (cmd.execute (app.store r.savedAt r.savedHex) (some app.classifier) r.hex
      r.capturedAt).run (s.world.classifier, s.world.corrections)
    (respond (captured.1.map fun correction =>
        .captured correction.correctionId correction.capturedAt (trustScore correction)),
      { s with world := { s.world with
        classifier := captured.2.1
        corrections := captured.2.2 } })

def step [PyMath K] [FloorRing K] : Request K → State K C S → Answer K × State K C S
  | .createSession agentId createdBy r => createSession app agentId createdBy r
  | .execute call => execute app call
  | .getSession authorization sessionId r => getSession app authorization sessionId r
  | .registerTool authorization request => registerTool app authorization request
  | .addPolicy authorization request hex => addPolicy app authorization request hex
  | .captureCorrection authorization cmd r => captureCorrection app authorization cmd r

end Routes

end Api
