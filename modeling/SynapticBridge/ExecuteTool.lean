import SynapticBridge.FirstMaximum
import SynapticBridge.Ports

/-! `ExecuteToolCommand.execute`: admission of the call, the CLE block that may
replace the tool, and the dispatch with its audit entry. Clock readings and random
identifiers are inputs of a run. -/
namespace ExecuteTool

open Domain CorrectionPatterns Ports FirstMaximum
open Procedures.Proc

structure ExecuteToolCommand (K : Type) where
  sessionId : String
  toolName : String
  parameters : PyVal K
  intent : String

/-- The values one run draws from the clock and from `uuid4`, in the order of their use. -/
structure Readings (K : Type) where
  sessionNow : K
  violationHex : String
  violationAt : K
  scoreNow : ℕ → K
  interceptionHex : String
  interceptionAt : K
  callHex : String
  callAt : K

/-- The ports handed to one execution; the CLE ports are optional. -/
structure CommandPorts (K : Type) [Field K] [LinearOrder K] (X R A C S : Type) where
  execution : ExecutionPort K X
  registry : ToolRegistryPort R
  policies : PolicyEngine K
  audit : AuditLogPort K A
  classifier : Option (IntentClassifierPort K C)
  corrections : Option (CorrectionStorePort K S)

/-- The local variables that the CLE block assigns. -/
structure Locals (K : Type) where
  wasCorrected : Bool
  correctionConfidence : K
  effectiveTool : String

section Command

variable {K : Type} [Field K] [LinearOrder K] {X R A C S : Type}

def policyContext (cmd : ExecuteToolCommand K) (session : ExecutionSession K)
    (toolName : String) : PyVal K :=
  .dict [("session_id", .str cmd.sessionId), ("agent_id", .str session.agentId),
    ("tool_name", .str toolName), ("parameters", cmd.parameters)]

def denial (policy : Policy) : String := s!"Policy {policy.name} denied execution"

def violationEvent (cmd : ExecuteToolCommand K) (r : Readings K) (session : ExecutionSession K)
    (policy : Policy) : DomainEvent K where
  aggregateId := "viol_" ++ hexPrefix 8 r.violationHex
  occurredAt := utc r.violationAt
  body := .policyViolation
    ⟨cmd.sessionId, session.agentId, policy.policyId, cmd.toolName, denial policy⟩

def interceptionEvent (cmd : ExecuteToolCommand K) (r : Readings K)
    (suggestedTool : String) (confidence : K) (best : CorrectionPattern K)
    (shadowMode applied : Bool) : DomainEvent K where
  aggregateId := "cle_" ++ hexPrefix 8 r.interceptionHex
  occurredAt := utc r.interceptionAt
  body := .cleInterception
    ⟨cmd.toolName, suggestedTool, confidence, best.patternId, shadowMode, applied⟩

def toolCalledEvent (cmd : ExecuteToolCommand K) (r : Readings K) (session : ExecutionSession K)
    (l : Locals K) : DomainEvent K where
  aggregateId := "call_" ++ hexPrefix 12 r.callHex
  occurredAt := utc r.callAt
  body := .toolCalled
    ⟨cmd.sessionId, session.agentId, l.effectiveTool, l.wasCorrected, l.correctionConfidence⟩

/-- The policy loop: the first denial is audited and raised. -/
def checkPolicies (cmd : ExecuteToolCommand K) (ports : CommandPorts K X R A C S)
    (r : Readings K) (session : ExecutionSession K) :
    List Policy → Proc (World K X R A C S) Unit
  | [] => pure ()
  | policy :: rest =>
    if policy.guardsCalls then do
      let allowed ← ofExcept
        (ports.policies.evaluate policy (policyContext cmd session cmd.toolName))
      if allowed then checkPolicies cmd ports r session rest
      else do
        writeAudit ports.audit (violationEvent cmd r session policy)
        raise (.policyViolation policy.policyId (denial policy))
    else checkPolicies cmd ports r session rest

/-- Session, manifest and policy checks, in this order. -/
def authorize (cmd : ExecuteToolCommand K) (ports : CommandPorts K X R A C S) (r : Readings K) :
    Proc (World K X R A C S) (ExecutionSession K) := do
  match ← onExecution (ports.execution.getSession cmd.sessionId) with
  | none => raise (.sessionNotFound s!"Session {cmd.sessionId} not found")
  | some session =>
    if session.isActive r.sessionNow then do
      match ← onRegistry (ports.registry.get cmd.toolName) with
      | none => raise (.toolNotFound s!"Tool {cmd.toolName} not found")
      | some _ => do
        checkPolicies cmd ports r session ports.policies.listPolicies
        return session
    else raise (.sessionExpired "Session is not active")

/-- The scoring loop. Pattern `i` is scored at its own clock reading. -/
def scoreLoop [PyMath K] (embedding : List K) (scoreNow : ℕ → K) :
    ℕ → List (CorrectionPattern K) → Option (CorrectionPattern K) × K →
    Except PyException (Option (CorrectionPattern K) × K)
  | _, [], best => .ok best
  | i, pattern :: rest, best => do
    let similarity ← pattern.matchesIntent embedding (scoreNow i)
    scoreLoop embedding scoreNow (i + 1) rest (improve best (pattern, similarity))

/-- Embedding, pattern lookup and scoring. -/
def bestMatch [PyMath K] (cmd : ExecuteToolCommand K) (r : Readings K)
    (classifier : IntentClassifierPort K C) (store : CorrectionStorePort K S) :
    Proc (World K X R A C S) (Option (CorrectionPattern K) × K) := do
  let embedding ← onClassifier (classifier.getEmbedding cmd.intent)
  let patterns ← onCorrections (store.findPatterns embedding)
  ofExcept (scoreLoop embedding r.scoreNow 0 patterns (none, 0))

/-- A confident pattern: shadow mode only logs it, active mode redirects the call
before the interception entry is written. -/
def intercept (cmd : ExecuteToolCommand K) (ports : CommandPorts K X R A C S) (r : Readings K)
    (shadowMode : Bool) (best : CorrectionPattern K) (similarity : K) :
    Proc (Locals K × World K X R A C S) Unit :=
  match best.correctedTools with
  | [] => raise (.indexError "tuple index out of range")
  | suggestedTool :: _ =>
    if shadowMode then
      onState (writeAudit ports.audit
        (interceptionEvent cmd r suggestedTool similarity best true false))
    else do
      let correctedManifest ← onState (onRegistry (ports.registry.get suggestedTool))
      let applied := correctedManifest.isSome
      if applied then modify fun s => (⟨true, similarity, suggestedTool⟩, s.2)
      onState (writeAudit ports.audit
        (interceptionEvent cmd r suggestedTool similarity best false applied))

/-- The body of the `try` statement. -/
def cleBlock [PyMath K] (cmd : ExecuteToolCommand K) (ports : CommandPorts K X R A C S)
    (r : Readings K) (shadowMode : Bool) (classifier : IntentClassifierPort K C)
    (store : CorrectionStorePort K S) : Proc (Locals K × World K X R A C S) Unit := do
  match ← onState (bestMatch cmd r classifier store) with
  | (none, _) => pure ()
  | (some best, similarity) =>
    if CLE_CONFIDENCE_THRESHOLD ≤ similarity then
      intercept cmd ports r shadowMode best similarity
    else pure ()

def noCorrection (cmd : ExecuteToolCommand K) : Locals K := ⟨false, 0, cmd.toolName⟩

/-- The CLE block under its handler: exceptions are dropped, assignments stay. -/
def predict [PyMath K] (cmd : ExecuteToolCommand K) (ports : CommandPorts K X R A C S)
    (r : Readings K) (shadowMode : Bool) : Proc (World K X R A C S) (Locals K) :=
  match ports.classifier, ports.corrections with
  | some classifier, some store =>
    withLocals (noCorrection cmd) (cleBlock cmd ports r shadowMode classifier store)
  | _, _ => pure (noCorrection cmd)

def dispatch (cmd : ExecuteToolCommand K) (ports : CommandPorts K X R A C S) (r : Readings K)
    (session : ExecutionSession K) (l : Locals K) : Proc (World K X R A C S) (PyVal K) := do
  let result ← callTool ports.execution session l.effectiveTool cmd.parameters
  writeAudit ports.audit (toolCalledEvent cmd r session l)
  return result

def execute [PyMath K] (cmd : ExecuteToolCommand K) (ports : CommandPorts K X R A C S)
    (shadowMode : Option Bool) (r : Readings K) : Proc (World K X R A C S) (PyVal K) := do
  let shadowMode := shadowMode.getD CLE_SHADOW_MODE
  let session ← authorize cmd ports r
  let l ← predict cmd ports r shadowMode
  dispatch cmd ports r session l

end Command

end ExecuteTool
