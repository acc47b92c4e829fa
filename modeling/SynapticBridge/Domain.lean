import SynapticBridge.Procedures
import Mathlib.Algebra.Field.Basic
import Mathlib.Algebra.Order.Ring.Defs

/-! Entities, events and exceptions of the domain layer. Floats are elements of an
ordered field `K`, so arithmetic is exact. A frozen dataclass whose constructor
validates its arguments carries what was validated as a field. -/
namespace Domain

/-- Subclasses of `Exception`, with the data their handlers and callers read. -/
inductive PyException where
  | sessionNotFound (message : String)
  | sessionExpired (message : String)
  | toolNotFound (message : String)
  | policyViolation (policyId reason : String)
  | regoEvaluation (message : String)
  | typeError (message : String)
  | valueError (message : String)
  | indexError (message : String)
  | keyError (key : String)
  | overflowError (message : String)
  | zeroDivisionError (message : String)
  | runtimeError (message : String)
  | recursionError
  | other (className message : String)
  deriving DecidableEq, Repr

/-- `str(e)`. -/
def PyException.text : PyException → String
  | .sessionNotFound message | .sessionExpired message | .toolNotFound message
  | .regoEvaluation message | .typeError message | .valueError message
  | .indexError message | .overflowError message | .zeroDivisionError message
  | .runtimeError message | .other _ message => message
  | .policyViolation policyId reason => s!"Policy {policyId} denied: {reason}"
  | .keyError key => s!"'{key}'"
  | .recursionError => "maximum recursion depth exceeded"

abbrev Proc (σ α : Type) := Procedures.Proc PyException σ α

/-- The values of `dict` parameters, metadata and policy contexts. -/
inductive PyVal (K : Type) where
  | none
  | bool (b : Bool)
  | int (n : ℤ)
  | float (x : K)
  | infinity (negative : Bool)
  | nan
  | str (s : String)
  | list (items : List (PyVal K))
  | dict (items : List (String × PyVal K))

/-- A `datetime` as its POSIX seconds; naive ones carry no time zone. -/
structure DateTime (K : Type) where
  seconds : K
  aware : Bool

/-- `a - b`: mixing a naive and an aware operand raises. -/
def DateTime.sub {K : Type} [Sub K] (a b : DateTime K) : Except PyException K :=
  if a.aware = b.aware then .ok (a.seconds - b.seconds)
  else .error (.typeError "can't subtract offset-naive and offset-aware datetimes")

def utc {K : Type} (seconds : K) : DateTime K := ⟨seconds, true⟩

/-- `uuid.uuid4().hex[:n]` for the random digits `hex`. -/
def hexPrefix (n : ℕ) (hex : String) : String := String.ofList (hex.toList.take n)

/-! Constants of `domain/constants.py` used below. -/

def DEFAULT_TTL_SECONDS : ℕ := 900
def EMBEDDING_DIM : ℕ := 128
def PATTERN_SIMILARITY_THRESHOLD {K : Type} [Field K] : K := 3 / 10
def CLE_CONFIDENCE_THRESHOLD {K : Type} [Field K] : K := 7 / 10
def CLE_SHADOW_MODE : Bool := true

structure ToolCalledEvent (K : Type) where
  sessionId : String
  agentId : String
  toolName : String
  wasCorrected : Bool
  correctionConfidence : K

structure CorrectionCapturedEvent where
  sessionId : String
  agentId : String
  originalTool : String
  correctedTool : String
  operatorIdentity : String

structure PolicyViolationEvent where
  sessionId : String
  agentId : String
  policyId : String
  toolName : String
  reason : String

structure SessionStartedEvent where
  agentId : String
  executionToken : String

structure SessionEndedEvent (K : Type) where
  agentId : String
  reason : String
  durationSeconds : K

structure IntentClassifiedEvent (K : Type) where
  sessionId : String
  agentId : String
  intentText : String
  matchedTool : String
  confidence : K

structure DriftDetectedEvent (K : Type) where
  sessionId : String
  toolName : String
  expectedBehavior : String
  observedBehavior : String
  driftScore : K

structure CLEInterceptionEvent (K : Type) where
  originalTool : String
  suggestedTool : String
  confidence : K
  patternId : String
  shadowMode : Bool
  applied : Bool

inductive EventBody (K : Type) where
  | toolCalled (e : ToolCalledEvent K)
  | correctionCaptured (e : CorrectionCapturedEvent)
  | policyViolation (e : PolicyViolationEvent)
  | sessionStarted (e : SessionStartedEvent)
  | sessionEnded (e : SessionEndedEvent K)
  | intentClassified (e : IntentClassifiedEvent K)
  | driftDetected (e : DriftDetectedEvent K)
  | cleInterception (e : CLEInterceptionEvent K)

/-- The base class holds the identifier and the timestamp; the body is the subclass. -/
structure DomainEvent (K : Type) where
  aggregateId : String
  occurredAt : DateTime K
  body : EventBody K

def EventBody.isInterception {K : Type} : EventBody K → Bool
  | .cleInterception _ => true
  | _ => false

inductive SessionStatus where
  | initiated
  | active
  | expired
  | terminated
  deriving DecidableEq, Repr

structure ExecutionSession (K : Type) [LT K] where
  sessionId : String
  agentId : String
  executionToken : String
  status : SessionStatus
  startedAt : K
  expiresAt : K
  toolCalls : List String
  createdBy : String
  domainEvents : List (DomainEvent K)
  starts_before : startedAt < expiresAt

inductive PolicyEffect where
  | allow
  | deny
  deriving DecidableEq, Repr

inductive PolicyScope where
  | tool
  | session
  | agent
  | network
  deriving DecidableEq, Repr

structure Policy where
  policyId : String
  name : String
  regoCode : String
  effect : PolicyEffect
  scope : PolicyScope
  enabled : Bool
  has_name : name ≠ ""
  has_code : regoCode ≠ ""

/-- `policy.scope in (PolicyScope.TOOL, PolicyScope.SESSION)`: evaluated before each call. -/
def Policy.guardsCalls (p : Policy) : Bool :=
  decide (p.scope = .tool) || decide (p.scope = .session)

inductive CapabilityType where
  | read
  | write
  | execute
  | network
  deriving DecidableEq, Repr

inductive AuditLevel where
  | none
  | summary
  | full
  deriving DecidableEq, Repr

structure ToolManifest where
  toolName : String
  version : String
  capabilities : List CapabilityType
  scope : String
  ttlSeconds : ℤ
  networkEgress : Bool
  auditLevel : AuditLevel
  signature : String
  ttl_pos : 0 < ttlSeconds
  has_name : toolName ≠ ""

variable {K : Type} [Field K] [LinearOrder K]

namespace ExecutionSession

def isExpired (s : ExecutionSession K) (now : K) : Bool := decide (s.expiresAt ≤ now)

def isActive (s : ExecutionSession K) (now : K) : Bool :=
  decide (s.status = .active) && !s.isExpired now

def expire (s : ExecutionSession K) (now : K) : ExecutionSession K :=
  { s with
    status := .expired
    domainEvents := s.domainEvents ++
      [⟨s.sessionId, utc now, .sessionEnded ⟨s.agentId, "token_expired", 0⟩⟩] }

def terminate (s : ExecutionSession K) (now : K) : ExecutionSession K :=
  { s with
    status := .terminated
    domainEvents := s.domainEvents ++
      [⟨s.sessionId, utc now, .sessionEnded ⟨s.agentId, "terminated_by_user", 0⟩⟩] }

end ExecutionSession

structure Correction (K : Type) [Field K] [LinearOrder K] where
  correctionId : String
  sessionId : String
  agentId : String
  originalIntent : String
  inferredContext : String
  originalTool : String
  correctedTool : String
  correctionMetadata : PyVal K
  operatorIdentity : String
  confidenceBefore : K
  confidenceAfter : K
  capturedAt : DateTime K
  before_range : 0 ≤ confidenceBefore ∧ confidenceBefore ≤ 1
  after_range : 0 ≤ confidenceAfter ∧ confidenceAfter ≤ 1

/-- `confidence_after - confidence_before`, what a pattern averages. -/
def Correction.improvement (c : Correction K) : K := c.confidenceAfter - c.confidenceBefore

end Domain
