import SynapticBridge.ClaudeCodeServer
import SynapticBridge.ExecutionAdapter
import SynapticBridge.MemoryAuditLog
import SynapticBridge.OpaPolicyEngine
import Mathlib.Data.List.Dedup

/-! The tools that `ClaudeCodeMCPServer.initialize` registers. Arguments arrive as whatever the
JSON of a message holds and nothing checks their types, so what the commands store holds it too. -/
namespace ClaudeCodeTools

open Domain OrderedDict PythonText PythonValues ClaudeCodeServer
open ExecutionAdapter (Creation Lookup)
open MemoryAuditLog (Formats signEvent)
open Procedures.Proc

/-! Subscripts, sets and slices of untyped values. -/

section Values

variable {K : Type} [Field K] [LinearOrder K]

/-- `value[key]`. -/
def getItem (value : PyVal K) (key : String) : Except PyException (PyVal K) :=
  match value with
  | .dict items =>
    match items.lookup key with
    | some v => .ok v
    | none => .error (.keyError key)
  | .list _ => .error (.typeError "list indices must be integers or slices, not str")
  | .str _ => .error (.typeError "string indices must be integers, not 'str'")
  | v => .error (.typeError s!"'{typeName v}' object is not subscriptable")

/-- A float that the source writes in decimals. -/
def fraction (n d : ℕ) : K := n / d

/-- What a dictionary or a set distinguishes: numbers of all types meet in their value. -/
inductive HashKey (K : Type) where
  | none
  | number (x : K)
  | infinity (negative : Bool)
  | nan
  | str (s : String)
  deriving DecidableEq

/-- `hash(value)`. -/
def hashKey : PyVal K → Except PyException (HashKey K)
  | .none => .ok .none
  | .bool b => .ok (.number (if b then 1 else 0))
  | .int n => .ok (.number n)
  | .float x => .ok (.number x)
  | .infinity negative => .ok (.infinity negative)
  | .nan => .ok .nan
  | .str s => .ok (.str s)
  | .list _ => .error (.typeError "unhashable type: 'list'")
  | .dict _ => .error (.typeError "unhashable type: 'dict'")

/-- `frozenset(value)`. -/
def frozenset : PyVal K → Except PyException (List (HashKey K))
  | .list items => (items.mapM hashKey).map List.dedup
  | .dict items => .ok (items.map fun entry => .str entry.1)
  | .str s => .ok (s.toList.map fun c => HashKey.str (String.singleton c)).dedup
  | v => .error (.typeError s!"'{typeName v}' object is not iterable")

/-- `xs[:limit]`. -/
def sliceTo {α : Type} (xs : List α) : PyVal K → Except PyException (List α)
  | .none => .ok xs
  | .bool b => .ok (if b then xs.take 1 else [])
  | .int n => .ok (if 0 ≤ n then xs.take n.toNat else xs.take (xs.length - n.natAbs))
  | _ => .error (.typeError
      "slice indices must be integers or None or have an __index__ method")

def policyEffect (repr : PyVal K → String) : PyVal K → Except PyException PolicyEffect
  | .str "allow" => .ok .allow
  | .str "deny" => .ok .deny
  | v => .error (.valueError s!"{repr v} is not a valid PolicyEffect")

def policyScope (repr : PyVal K → String) : PyVal K → Except PyException PolicyScope
  | .str "tool" => .ok .tool
  | .str "session" => .ok .session
  | .str "agent" => .ok .agent
  | .str "network" => .ok .network
  | v => .error (.valueError s!"{repr v} is not a valid PolicyScope")

end Values

/-! The entities with untyped fields, and the state of the container's services. -/

section Entities

/-- A domain event by the name of its class; the fields of the subclass in their order. -/
structure Event (K : Type) where
  className : String
  aggregateId : String
  occurredAt : DateTime K
  fields : List (String × PyVal K)

structure AuditEvent (K : Type) where
  eventId : String
  eventType : String
  sessionId : PyVal K
  agentId : PyVal K
  toolName : PyVal K
  action : String
  actor : String
  resource : String
  outcome : String
  metadata : PyVal K
  timestamp : DateTime K
  signature : String

structure Session (K : Type) [LT K] where
  sessionId : String
  agentId : PyVal K
  executionToken : String
  status : SessionStatus
  startedAt : K
  expiresAt : K
  toolCalls : List String
  createdBy : PyVal K
  domainEvents : List (Event K)
  starts_before : startedAt < expiresAt

/-- The constructor only asks for a name and a code that are not empty. -/
structure StoredPolicy (K : Type) [Field K] [LinearOrder K] where
  policyId : String
  name : PyVal K
  description : PyVal K
  regoCode : PyVal K
  effect : PolicyEffect
  scope : PolicyScope
  tags : List (HashKey K)
  enabled : Bool
  has_name : truthy name = true
  has_code : truthy regoCode = true

/-- A number that passed `0.0 <= value <= 1.0`. -/
abbrev Confidence (K : Type) [Field K] [LinearOrder K] := { x : K // 0 ≤ x ∧ x ≤ 1 }

/-- The constructor only checks the confidences. -/
structure Captured (K : Type) [Field K] [LinearOrder K] where
  correctionId : String
  sessionId : PyVal K
  agentId : PyVal K
  originalIntent : PyVal K
  inferredContext : PyVal K
  originalTool : PyVal K
  correctedTool : PyVal K
  correctionMetadata : PyVal K
  operatorIdentity : PyVal K
  confidenceBefore : Confidence K
  confidenceAfter : Confidence K
  capturedAt : DateTime K

structure Pattern (K : Type) where
  patternId : String
  intentVector : List K
  originalTools : List (PyVal K)
  correctedTools : List (PyVal K)
  occurrenceCount : ℕ
  avgConfidenceImprovement : K
  lastUpdated : DateTime K
  totalUndoCount : ℕ

/-- The statements of `DuckDBCorrectionStore` on its connection, each committed on its own. How
DuckDB stores a value of another type than its column's is left to it. -/
structure Connection (K D : Type) [Field K] [LinearOrder K] where
  corrections : D → ℕ
  insertCorrection : Captured K → String → D → Except PyException D
  selectPattern : PyVal K → PyVal K → D → Except PyException (Option (String × ℕ × K))
  updatePattern : ℕ → K → String → DateTime K → String → D → Except PyException D
  insertPattern : String → String → String → String → ℕ → K → DateTime K → D →
    Except PyException D
  insertCorrection_adds : ∀ c metadata d d', insertCorrection c metadata d = .ok d' →
    corrections d' = corrections d + 1
  updatePattern_keeps : ∀ count avg vector now patternId d d',
    updatePattern count avg vector now patternId d = .ok d' → corrections d' = corrections d
  insertPattern_keeps : ∀ patternId vector original corrected count avg now d d',
    insertPattern patternId vector original corrected count avg now d = .ok d' →
      corrections d' = corrections d
  insertCorrection_error : ∀ c metadata d e, insertCorrection c metadata d = .error e →
    isJsonDecodeError e = false
  selectPattern_error : ∀ original corrected d e,
    selectPattern original corrected d = .error e → isJsonDecodeError e = false
  updatePattern_error : ∀ count avg vector now patternId d e,
    updatePattern count avg vector now patternId d = .error e → isJsonDecodeError e = false
  insertPattern_error : ∀ patternId vector original corrected count avg now d e,
    insertPattern patternId vector original corrected count avg now d = .error e →
      isJsonDecodeError e = false

inductive CorrectionStore (K D : Type) [Field K] [LinearOrder K] where
  | inMemory (corrections : Dict String (Captured K)) (patterns : Dict (HashKey K) (Pattern K))
  | duckDB (db : D)

/-- What the services of the container hold. -/
structure State (K D : Type) [Field K] [LinearOrder K] where
  executionPort : Dict String (Session K)
  toolRegistry : Dict String ToolManifest
  policyEngine : Dict String (StoredPolicy K)
  auditLog : List (AuditEvent K)
  correctionStore : CorrectionStore K D

/-- JWT, `json.dumps` on JSON values, the printing of values, and the secret of the environment. -/
structure Libraries (K : Type) where
  encode : List (String × PyVal K) → String → Except PyException String
  secret : Except PyException String
  str : PyVal K → String
  dumps : PyVal K → String
  formats : Formats K

/-- The values one message draws from the clock and from `uuid4`; records are numbered by the
length of the log. -/
structure Draws (K : Type) where
  creation : Creation K
  lookup : Lookup K
  violationHex : String
  violationAt : K
  callHex : String
  callAt : K
  auditHex : ℕ → String
  auditAt : ℕ → K
  correctionHex : String
  capturedAt : K
  patternHex : String
  patternAt : K
  policyHex : String

end Entities

/-! The services. -/

section Services

variable {K D : Type} [Field K] [LinearOrder K]

def Session.isExpired (s : Session K) (now : K) : Bool := decide (s.expiresAt ≤ now)

def Session.isActive (s : Session K) (now : K) : Bool :=
  decide (s.status = .active) && !s.isExpired now

def Session.expire (s : Session K) (now : K) : Session K :=
  { s with
    status := .expired
    domainEvents := s.domainEvents ++ [⟨"SessionEndedEvent", s.sessionId, utc now,
      [("agent_id", s.agentId), ("reason", .str "token_expired"),
        ("duration_seconds", .float 0)]⟩] }

/-- The constructor with its check. -/
def newSession (sessionId : String) (agentId createdBy : PyVal K) (token : String)
    (r : Creation K) : Except PyException (Session K) :=
  if h : r.startedAt < r.expiryFrom + DEFAULT_TTL_SECONDS then
    .ok ⟨sessionId, agentId, token, .active, r.startedAt, r.expiryFrom + DEFAULT_TTL_SECONDS, [],
      createdBy, [], h⟩
  else .error (.valueError "Expiration must be after start")

def createSession (libs : Libraries K) (r : Creation K) (agentId createdBy : PyVal K) :
    Proc (Dict String (Session K)) (Session K) := do
  let sessionId := "session_" ++ hexPrefix 12 r.hex
  let secret ← ofExcept libs.secret
  let token ← ofExcept
    (libs.encode [("session_id", .str sessionId), ("agent_id", agentId)] secret)
  let session ← ofExcept (newSession sessionId agentId createdBy token r)
  modify fun sessions => sessions.set sessionId session
  return session

def getSession (r : Lookup K) (sessionId : PyVal K) :
    Proc (Dict String (Session K)) (Option (Session K)) := do
  match ← ofExcept (find (← read) sessionId) with
  | none => return none
  | some (sessionId, session) =>
    if session.isExpired r.checkedAt then do
      let expired := session.expire r.endedAt
      modify fun sessions => sessions.set sessionId expired
      return some expired
    else return some session

def executeTool (libs : Libraries K) (_session : Session K) (toolName parameters : PyVal K) :
    PyVal K :=
  .dict [("success", .bool true), ("tool", toolName),
    ("result", .str s!"Executed {libs.str toolName} with params {libs.str parameters}"),
    ("execution_time_ms", .float (fraction 21 2))]

/-- `DomainEvent.to_dict`. -/
def Event.toDict (f : Formats K) (event : Event K) : List (String × PyVal K) :=
  ("aggregate_id", .str event.aggregateId) ::
    ("occurred_at", .str (f.isoformat event.occurredAt)) :: event.fields

def auditEvent (f : Formats K) (event : Event K) (hex : String) (now : K) : AuditEvent K where
  eventId := "audit_" ++ hexPrefix 12 hex
  eventType := event.className
  sessionId := field event.fields "session_id" .none
  agentId := field event.fields "agent_id" .none
  toolName := field event.fields "tool_name" .none
  action := "create"
  actor := "system"
  resource := ""
  outcome := "success"
  metadata := .dict (event.toDict f)
  timestamp := utc now
  signature := signEvent f (event.toDict f)

def write (libs : Libraries K) (draws : Draws K) (event : Event K) :
    Proc (List (AuditEvent K)) Unit :=
  modify fun events => events ++
    [auditEvent libs.formats event (draws.auditHex events.length) (draws.auditAt events.length)]

/-- A filter is an attribute and the value it has to equal. -/
def query (filters : List ((AuditEvent K → PyVal K) × PyVal K)) (events : List (AuditEvent K)) :
    List (AuditEvent K) :=
  filters.foldl (fun results filter => results.filter fun e => eq (filter.1 e) filter.2) events

def listPolicies (policies : Dict String (StoredPolicy K)) : List (StoredPolicy K) :=
  policies.values.filter (·.enabled)

/-- A code that is no text makes `re.search` raise, which the engine turns into a denial. -/
def evaluate (policy : StoredPolicy K) (context : PyVal K) : Bool :=
  if !policy.enabled then true
  else if policy.effect = .allow then true
  else
    match policy.regoCode with
    | .str regoCode => OpaPolicyEngine.evaluateRego regoCode.toList context
    | _ => false

/-- The zero vector that stands for an embedding nobody computed. -/
def noEmbedding : List K := List.replicate EMBEDDING_DIM 0

def Pattern.withIncrement (p : Pattern K) (confidenceImprovement now : K) : Pattern K :=
  { p with
    occurrenceCount := p.occurrenceCount + 1
    avgConfidenceImprovement :=
      (p.avgConfidenceImprovement * p.occurrenceCount + confidenceImprovement) /
        ((p.occurrenceCount + 1 : ℕ) : K)
    lastUpdated := utc now }

def Captured.improvement (c : Captured K) : K := c.confidenceAfter.1 - c.confidenceBefore.1

/-- The pattern of a tool that is corrected to for the first time. -/
def newPattern (draws : Draws K) (c : Captured K) : Pattern K where
  patternId := "pattern_" ++ hexPrefix 8 draws.patternHex
  intentVector := noEmbedding
  originalTools := [c.originalTool]
  correctedTools := [c.correctedTool]
  occurrenceCount := 1
  avgConfidenceImprovement := c.improvement
  lastUpdated := utc draws.patternAt
  totalUndoCount := 0

def updatePatterns (draws : Draws K) (c : Captured K) (key : HashKey K)
    (patterns : Dict (HashKey K) (Pattern K)) : Dict (HashKey K) (Pattern K) :=
  match patterns.get? key with
  | some existing => patterns.set key (existing.withIncrement c.improvement draws.patternAt)
  | none => patterns.set key (newPattern draws c)

/-- `InMemoryCorrectionStore.save_correction` without an embedding. The key of the pattern is
hashed when the correction is already in. -/
def saveInMemory (draws : Draws K) (c : Captured K) :
    Proc (Dict String (Captured K) × Dict (HashKey K) (Pattern K)) Unit := do
  modify fun store => (store.1.set c.correctionId c, store.2)
  let key ← ofExcept (hashKey c.correctedTool)
  modify fun store => (store.1, updatePatterns draws c key store.2)

/-- One statement on the connection. -/
def statement (f : D → Except PyException D) : Proc D Unit := do
  let db ← ofExcept (f (← read))
  modify fun _ => db

/-- `_update_pattern_from_correction` without an embedding. -/
def updatePatternFromCorrection (connection : Connection K D) (libs : Libraries K)
    (draws : Draws K) (c : Captured K) : Proc D Unit := do
  let vector := libs.dumps (.list (noEmbedding.map .float))
  match ← ofExcept (connection.selectPattern c.originalTool c.correctedTool (← read)) with
  | some (patternId, count, avgImprovement) =>
    let newAvg := (avgImprovement * count + c.improvement) / ((count + 1 : ℕ) : K)
    statement (connection.updatePattern (count + 1) newAvg vector (utc draws.patternAt) patternId)
  | none =>
    statement (connection.insertPattern ("pattern_" ++ hexPrefix 8 draws.patternHex) vector
      (libs.dumps (.list [c.originalTool])) (libs.dumps (.list [c.correctedTool])) 1
      c.improvement (utc draws.patternAt))

/-- `DuckDBCorrectionStore.save_correction` without an embedding. -/
def saveInDuckDB (connection : Connection K D) (libs : Libraries K) (draws : Draws K)
    (c : Captured K) : Proc D Unit := do
  let metadataJson := libs.dumps c.correctionMetadata
  statement (connection.insertCorrection c metadataJson)
  updatePatternFromCorrection connection libs draws c

def saveCorrection (connection : Connection K D) (libs : Libraries K) (draws : Draws K)
    (c : Captured K) : Proc (CorrectionStore K D) Unit :=
  ⟨fun store =>
    match store with
    | .inMemory corrections patterns =>
      let saved := (saveInMemory draws c).run (corrections, patterns)
      (saved.1, .inMemory saved.2.1 saved.2.2)
    | .duckDB db =>
      let saved := (saveInDuckDB connection libs draws c).run db
      (saved.1, .duckDB saved.2)⟩

end Services

/-! The commands, on the services that the container resolves. -/

section Commands

variable {K D α : Type} [Field K] [LinearOrder K]

def onExecutionPort (x : Proc (Dict String (Session K)) α) : Proc (State K D) α :=
  on State.executionPort (fun sessions s => { s with executionPort := sessions }) x
def onPolicyEngine (x : Proc (Dict String (StoredPolicy K)) α) : Proc (State K D) α :=
  on State.policyEngine (fun policies s => { s with policyEngine := policies }) x
def onAuditLog (x : Proc (List (AuditEvent K)) α) : Proc (State K D) α :=
  on State.auditLog (fun events s => { s with auditLog := events }) x
def onCorrectionStore (x : Proc (CorrectionStore K D) α) : Proc (State K D) α :=
  on State.correctionStore (fun store s => { s with correctionStore := store }) x

structure CreateSessionCommand (K : Type) where
  agentId : PyVal K
  createdBy : PyVal K
  ttlSeconds : ℤ := DEFAULT_TTL_SECONDS

structure ExecuteToolCommand (K : Type) where
  sessionId : PyVal K
  toolName : PyVal K
  parameters : PyVal K
  intent : PyVal K

structure CaptureCorrectionCommand (K : Type) where
  sessionId : PyVal K
  agentId : PyVal K
  originalIntent : PyVal K
  inferredContext : PyVal K
  originalTool : PyVal K
  correctedTool : PyVal K
  correctionMetadata : PyVal K
  operatorIdentity : PyVal K
  confidenceBefore : PyVal K
  confidenceAfter : PyVal K

structure AddPolicyCommand (K : Type) where
  name : PyVal K
  description : PyVal K
  regoCode : PyVal K
  effect : PolicyEffect
  scope : PolicyScope
  tags : PyVal K

variable (connection : Connection K D) (libs : Libraries K) (draws : Draws K)

def flushDomainEvents : List (Event K) → Proc (State K D) Unit
  | [] => pure ()
  | event :: rest => do
    onAuditLog (write libs draws event)
    flushDomainEvents rest

def CreateSessionCommand.execute (cmd : CreateSessionCommand K) : Proc (State K D) (Session K) := do
  let session ← onExecutionPort (createSession libs draws.creation cmd.agentId cmd.createdBy)
  flushDomainEvents libs draws session.domainEvents
  return session

def policyContext (cmd : ExecuteToolCommand K) (session : Session K) : PyVal K :=
  .dict [("session_id", cmd.sessionId), ("agent_id", session.agentId),
    ("tool_name", cmd.toolName), ("parameters", cmd.parameters)]

def denial (policy : StoredPolicy K) : String :=
  s!"Policy {libs.str policy.name} denied execution"

def violationEvent (cmd : ExecuteToolCommand K) (session : Session K) (policy : StoredPolicy K) :
    Event K where
  className := "PolicyViolationEvent"
  aggregateId := "viol_" ++ hexPrefix 8 draws.violationHex
  occurredAt := utc draws.violationAt
  fields := [("session_id", cmd.sessionId), ("agent_id", session.agentId),
    ("policy_id", .str policy.policyId), ("tool_name", cmd.toolName),
    ("reason", .str (denial libs policy))]

def toolCalledEvent (cmd : ExecuteToolCommand K) (session : Session K) : Event K where
  className := "ToolCalledEvent"
  aggregateId := "call_" ++ hexPrefix 12 draws.callHex
  occurredAt := utc draws.callAt
  fields := [("session_id", cmd.sessionId), ("agent_id", session.agentId),
    ("tool_name", cmd.toolName), ("was_corrected", .bool false),
    ("correction_confidence", .float 0)]

/-- The policy loop: the first denial is audited and raised. -/
def checkPolicies (cmd : ExecuteToolCommand K) (session : Session K) :
    List (StoredPolicy K) → Proc (State K D) Unit
  | [] => pure ()
  | policy :: rest =>
    if policy.scope = .tool ∨ policy.scope = .session then
      if evaluate policy (policyContext cmd session) then checkPolicies cmd session rest
      else do
        onAuditLog (write libs draws (violationEvent libs draws cmd session policy))
        raise (.policyViolation policy.policyId (denial libs policy))
    else checkPolicies cmd session rest

/-- `execute` as this server calls it, without a classifier and a correction store. -/
def ExecuteToolCommand.execute (cmd : ExecuteToolCommand K) : Proc (State K D) (PyVal K) := do
  match ← onExecutionPort (getSession draws.lookup cmd.sessionId) with
  | none => raise (.sessionNotFound s!"Session {libs.str cmd.sessionId} not found")
  | some session =>
    if session.isActive draws.lookup.activeAt then do
      match ← ofExcept (find (← read).toolRegistry cmd.toolName) with
      | none => raise (.toolNotFound s!"Tool {libs.str cmd.toolName} not found")
      | some _ => do
        checkPolicies libs draws cmd session (listPolicies (← read).policyEngine)
        let result := executeTool libs session cmd.toolName cmd.parameters
        onAuditLog (write libs draws (toolCalledEvent draws cmd session))
        return result
    else raise (.sessionExpired "Session is not active")

/-- `0.0 <= value <= 1.0`, or what the constructor or the comparison raises. -/
def confidence (value : PyVal K) : Except PyException (Confidence K) :=
  match number value with
  | some (.finite x) =>
    if h : 0 ≤ x ∧ x ≤ 1 then .ok ⟨x, h⟩
    else .error (.valueError "Confidence must be between 0.0 and 1.0")
  | some _ => .error (.valueError "Confidence must be between 0.0 and 1.0")
  | none => .error (.typeError
      s!"'<=' not supported between instances of 'float' and '{typeName value}'")

/-- The constructor with its checks. -/
def CaptureCorrectionCommand.newCorrection (cmd : CaptureCorrectionCommand K) :
    Except PyException (Captured K) := do
  let before ← confidence cmd.confidenceBefore
  let after ← confidence cmd.confidenceAfter
  return {
    correctionId := "corr_" ++ hexPrefix 12 draws.correctionHex
    sessionId := cmd.sessionId
    agentId := cmd.agentId
    originalIntent := cmd.originalIntent
    inferredContext := cmd.inferredContext
    originalTool := cmd.originalTool
    correctedTool := cmd.correctedTool
    correctionMetadata := cmd.correctionMetadata
    operatorIdentity := cmd.operatorIdentity
    confidenceBefore := before
    confidenceAfter := after
    capturedAt := utc draws.capturedAt }

/-- `execute` as this server calls it, without a classifier. -/
def CaptureCorrectionCommand.execute (cmd : CaptureCorrectionCommand K) :
    Proc (State K D) (Captured K) := do
  let correction ← ofExcept (cmd.newCorrection draws)
  onCorrectionStore (saveCorrection connection libs draws correction)
  return correction

/-- The constructor with its checks. -/
def AddPolicyCommand.newPolicy (cmd : AddPolicyCommand K) :
    Except PyException (StoredPolicy K) := do
  let tags ← frozenset cmd.tags
  if hname : truthy cmd.name = true then
    if hcode : truthy cmd.regoCode = true then
      .ok ⟨"policy_" ++ hexPrefix 8 draws.policyHex, cmd.name, cmd.description, cmd.regoCode,
        cmd.effect, cmd.scope, tags, true, hname, hcode⟩
    else .error (.valueError "Rego code is required")
  else .error (.valueError "Policy name is required")

def AddPolicyCommand.execute (cmd : AddPolicyCommand K) :
    Proc (State K D) (StoredPolicy K) := do
  let policy ← ofExcept (cmd.newPolicy draws)
  onPolicyEngine (modify fun policies => policies.set policy.policyId policy)
  return policy

end Commands

/-! The handlers: a command made of the arguments, and the value that its result becomes. -/

section Handlers

variable {K D : Type} [Field K] [LinearOrder K]

/-- What a handler returns. -/
inductive Returned (K : Type) [Field K] [LinearOrder K] where
  | value (v : PyVal K)
  | correction (c : Captured K)

variable (connection : Connection K D) (libs : Libraries K) (draws : Draws K)
  (params : PyVal K)

def createSessionCall : Proc (State K D) (Session K) := do
  let agentId ← ofExcept (getItem params "agent_id")
  let createdBy ← ofExcept (getItem params "created_by")
  CreateSessionCommand.execute libs draws { agentId := agentId, createdBy := createdBy }

def createSessionHandler : Proc (State K D) (Returned K) := do
  let session ← createSessionCall libs draws params
  return .value (.dict [("session_id", .str session.sessionId),
    ("token", .str session.executionToken),
    ("expires_at", .str (libs.str (.float session.expiresAt)))])

def executeToolCall : Proc (State K D) (PyVal K) := do
  let sessionId ← ofExcept (getItem params "session_id")
  let toolName ← ofExcept (getItem params "tool_name")
  let parameters ← ofExcept (getAttr params "parameters" (.dict []))
  let intent ← ofExcept (getItem params "intent")
  ExecuteToolCommand.execute libs draws ⟨sessionId, toolName, parameters, intent⟩

def executeToolHandler : Proc (State K D) (Returned K) := do
  let result ← executeToolCall libs draws params
  return .value result

def captureCorrectionCommand : Except PyException (CaptureCorrectionCommand K) := do
  let sessionId ← getAttr params "session_id" (.str "")
  let agentId ← getAttr params "agent_id" (.str "")
  let originalIntent ← getAttr params "original_intent" (.str "")
  let inferredContext ← getAttr params "inferred_context" (.str "")
  let originalTool ← getItem params "original_tool"
  let correctedTool ← getItem params "corrected_tool"
  let correctionMetadata ← getAttr params "correction_metadata" (.dict [])
  let operatorIdentity ← getAttr params "operator_identity" (.str "claude")
  let confidenceBefore ← getAttr params "confidence_before" (.float (fraction 1 2))
  let confidenceAfter ← getAttr params "confidence_after" (.float (fraction 9 10))
  return ⟨sessionId, agentId, originalIntent, inferredContext, originalTool, correctedTool,
    correctionMetadata, operatorIdentity, confidenceBefore, confidenceAfter⟩

def captureCorrectionCall : Proc (State K D) (Captured K) := do
  let cmd ← ofExcept (captureCorrectionCommand params)
  cmd.execute connection libs draws

/-- The correction itself is returned. -/
def captureCorrectionHandler : Proc (State K D) (Returned K) := do
  let correction ← captureCorrectionCall connection libs draws params
  return .correction correction

def toolRows (tools : Dict String ToolManifest) : PyVal K :=
  .list (tools.values.map fun t => .dict [("name", .str t.toolName), ("version", .str t.version)])

def listToolsCall (_params : PyVal K) : Proc (State K D) (Dict String ToolManifest) := do
  return (← read).toolRegistry

def listToolsHandler : Proc (State K D) (Returned K) := do
  let tools ← listToolsCall params
  return .value (toolRows tools)

def addPolicyCommand : Except PyException (AddPolicyCommand K) := do
  let name ← getItem params "name"
  let description ← getAttr params "description" (.str "")
  let regoCode ← getItem params "rego_code"
  let effect ← policyEffect libs.formats.repr (← getItem params "effect")
  let scope ← policyScope libs.formats.repr (← getAttr params "scope" (.str "tool"))
  let tags ← getAttr params "tags" (.list [])
  return ⟨name, description, regoCode, effect, scope, tags⟩

def addPolicyCall : Proc (State K D) (StoredPolicy K) := do
  let cmd ← ofExcept (addPolicyCommand libs params)
  cmd.execute draws

def addPolicyHandler : Proc (State K D) (Returned K) := do
  let policy ← addPolicyCall libs draws params
  return .value (.dict [("policy_id", .str policy.policyId), ("name", policy.name)])

def queryLogsCall : Proc (State K D) (List (AuditEvent K)) := do
  let sessionId ← ofExcept (getAttr params "session_id" .none)
  let filters := if truthy sessionId then [(AuditEvent.sessionId, sessionId)] else []
  let events := query filters (← read).auditLog
  let limit ← ofExcept (getAttr params "limit" (.int 100))
  ofExcept (sliceTo events limit)

def queryLogsHandler : Proc (State K D) (Returned K) := do
  let events ← queryLogsCall params
  return .value (.list (events.map fun e =>
    .dict [("event_id", .str e.eventId), ("type", .str e.eventType)]))

def sessionsResourceHandler : Proc (State K D) (Returned K) :=
  pure (.value (.str (libs.dumps (.dict [("note", .str "Use synaptic_create_session tool")]))))

def toolsResourceHandler : Proc (State K D) (Returned K) := do
  return .value (.str (libs.dumps (toolRows (← read).toolRegistry)))

def policiesResourceHandler : Proc (State K D) (Returned K) := do
  let policies := listPolicies (← read).policyEngine
  return .value (.str (libs.dumps (.list (policies.map fun p =>
    .dict [("id", .str p.policyId), ("name", p.name)]))))

end Handlers

/-! The registrations. -/

section Registration

variable {K D : Type} [Field K] [LinearOrder K]

/-- The loop catches whatever a handler raises: none of it is outside `Exception`. -/
def raised {σ α : Type} (x : Proc σ α) : Procedures.Proc Raised σ α :=
  ⟨fun s => ((x.run s).1.mapError .exception, (x.run s).2)⟩

def registerTool (tools : Dict String (Tool K (Returned K) (State K D))) (name : String)
    (handler : PyVal K → Proc (State K D) (Returned K)) (description : String)
    (inputSchema : PyVal K) : Dict String (Tool K (Returned K) (State K D)) :=
  tools.set name ⟨fun params => raised (handler params), .value (.str description),
    .value inputSchema⟩

def registerResource (resources : Dict String (Resource (Returned K) (State K D))) (uri : String)
    (handler : Proc (State K D) (Returned K)) (mimeType : String) :
    Dict String (Resource (Returned K) (State K D)) :=
  resources.set uri ⟨raised handler, .value (.str mimeType)⟩

/-- A property of a schema. -/
def typed (type : String) : PyVal K := .dict [("type", .str type)]

def described (type description : String) : PyVal K :=
  .dict [("type", .str type), ("description", .str description)]

def choice (options : List String) : PyVal K :=
  .dict [("type", .str "string"), ("enum", .list (options.map .str))]

def schema (properties : List (String × PyVal K)) : List (String × PyVal K) :=
  [("type", .str "object"), ("properties", .dict properties)]

def required (names : List String) : String × PyVal K := ("required", .list (names.map .str))

def createSessionSchema : PyVal K :=
  .dict (schema [("agent_id", described "string" "Agent ID"),
    ("created_by", described "string" "Creator ID")] ++ [required ["agent_id", "created_by"]])

def executeToolSchema : PyVal K :=
  .dict (schema [("session_id", described "string" "Session ID"),
    ("tool_name", described "string" "Tool name"),
    ("parameters", described "object" "Tool parameters"),
    ("intent", described "string" "Intent description")] ++
      [required ["session_id", "tool_name", "intent"]])

def captureCorrectionSchema : PyVal K :=
  .dict (schema [("session_id", typed "string"), ("agent_id", typed "string"),
    ("original_intent", typed "string"), ("original_tool", typed "string"),
    ("corrected_tool", typed "string"), ("operator_identity", typed "string"),
    ("confidence_before", typed "number"), ("confidence_after", typed "number")] ++
      [required ["session_id", "original_tool", "corrected_tool"]])

def addPolicySchema : PyVal K :=
  .dict (schema [("name", typed "string"), ("description", typed "string"),
    ("rego_code", typed "string"), ("effect", choice ["allow", "deny"]),
    ("scope", choice ["tool", "session", "agent", "network"])] ++
      [required ["name", "rego_code", "effect"]])

def queryLogsSchema : PyVal K :=
  .dict (schema [("session_id", typed "string"), ("event_type", typed "string"),
    ("limit", .dict [("type", .str "integer"), ("default", .int 100)])])

variable (connection : Connection K D) (libs : Libraries K) (draws : Draws K)

def initialTools : Dict String (Tool K (Returned K) (State K D)) :=
  let tools := registerTool .empty "synaptic_create_session"
    (createSessionHandler libs draws)
    "Create a new SynapticBridge execution session" createSessionSchema
  let tools := registerTool tools "synaptic_execute_tool"
    (executeToolHandler libs draws)
    "Execute a tool through SynapticBridge with policy checks" executeToolSchema
  let tools := registerTool tools "synaptic_capture_correction"
    (captureCorrectionHandler connection libs draws)
    "Capture a human correction for CLE learning" captureCorrectionSchema
  let tools := registerTool tools "synaptic_list_tools"
    listToolsHandler "List all registered tools" (.dict (schema []))
  let tools := registerTool tools "synaptic_add_policy"
    (addPolicyHandler libs draws) "Add an OPA policy" addPolicySchema
  registerTool tools "synaptic_query_logs" queryLogsHandler "Query audit logs" queryLogsSchema

def initialResources : Dict String (Resource (Returned K) (State K D)) :=
  let resources := registerResource .empty "synaptic://sessions"
    (sessionsResourceHandler libs) "application/json"
  let resources := registerResource resources "synaptic://tools"
    (toolsResourceHandler libs) "application/json"
  registerResource resources "synaptic://policies"
    (policiesResourceHandler libs) "application/json"

/-- `json.dumps`, which knows no entity. -/
def dumps : Returned K → Except PyException String
  | .value v => .ok (libs.dumps v)
  | .correction _ => .error (.typeError "Object of type Correction is not JSON serializable")

theorem dumps_error {v : Returned K} {e : PyException} (h : dumps libs v = .error e) :
    isJsonDecodeError e = false := by
  cases v with
  | value v => cases h
  | correction c =>
    obtain rfl := Except.error.inj h
    rfl

/-- The server behind `initialize`, for a message that draws these values. -/
def initializedServer (loads : Text → Except PyException (PyVal K)) :
    Server K (Returned K) (State K D) where
  tools := initialTools connection libs draws
  resources := initialResources libs
  json := ⟨loads, dumps libs, fun _ _ h => dumps_error libs h⟩

end Registration

end ClaudeCodeTools
