import SynapticBridge.CircuitBreakers
import SynapticBridge.PythonValues

/-! SIEM connectors. A send is let through by the connector's circuit breaker, makes one
delivery under a timeout and records its outcome; the dispatcher sends to every connector in
turn and swallows what they raise. Log lines are left out. -/
namespace SiemConnectors

open Domain CircuitBreakers
open Procedures.Proc

section Events

variable {K : Type}

structure SIEMEvent (K : Type) where
  timestamp : PyVal K
  eventType : PyVal K
  source : PyVal K
  destination : PyVal K
  action : PyVal K
  outcome : PyVal K
  sessionId : PyVal K
  agentId : PyVal K
  toolName : PyVal K
  metadata : PyVal K
  severity : String

abbrev EventDict (K : Type) := List (String × PyVal K)

def get (event : EventDict K) (key : String) (default : PyVal K) : PyVal K :=
  (event.lookup key).getD default

/-- The two normalizations differ in their defaults and in the severity; `now` is the text
of the clock reading. -/
def normalized (source outcome severity now : String) (event : EventDict K) : SIEMEvent K where
  timestamp := get event "timestamp" (.str now)
  eventType := get event "event_type" (.str "unknown")
  source := get event "actor" (.str source)
  destination := get event "resource" (.str "")
  action := get event "action" (.str "")
  outcome := get event "outcome" (.str outcome)
  sessionId := get event "session_id" .none
  agentId := get event "agent_id" .none
  toolName := get event "tool_name" .none
  metadata := get event "metadata" (.dict [])
  severity := severity

variable [Field K] [LinearOrder K]

def holds (event : EventDict K) (key text : String) : Bool :=
  PythonValues.eq (get event key .none) (.str text)

def connectorSeverity (event : EventDict K) : String :=
  if holds event "outcome" "failure" then "high"
  else if holds event "event_type" "policy_violation" ||
      holds event "event_type" "credential_access" then "critical"
  else if holds event "action" "network_call" then "medium"
  else "low"

def dispatcherSeverity (event : EventDict K) : String :=
  if holds event "outcome" "failure" then "high"
  else if holds event "event_type" "policy_violation" then "critical"
  else "low"

def connectorNormalize (now : String) (event : EventDict K) : SIEMEvent K :=
  normalized "unknown" "unknown" (connectorSeverity event) now event

def dispatcherNormalize (now : String) (event : EventDict K) : SIEMEvent K :=
  normalized "system" "success" (dispatcherSeverity event) now event

end Events

section Send

variable {K : Type}

inductive Delivery where
  | returned (result : Bool)
  | timedOut
  | raised (e : PyException)

/-- A `TimeoutError` that `_do_send` raises itself is not told from one of `wait_for`. -/
def isTimeoutError : PyException → Bool
  | .other className _ => className == "TimeoutError"
  | _ => false

inductive SendError (K : Type) where
  | circuitBreaker (name : String) (retryAfter : K)
  | exception (e : PyException)

structure SendReadings (K : Type) where
  checkedAt : K
  retryAt : K
  recordedAt : K

/-- A circuit breaker by its identity, with the attributes that never change. -/
structure Guard (K : Type) where
  breaker : ℕ
  name : String
  config : CircuitBreakerConfig K

structure SIEMConnector (K : Type) where
  name : String
  circuitBreaker : Option (Guard K)

/-- A send with a breaker: what it returns or raises, the breaker it leaves, and whether it
reaches `_do_send`. -/
structure Attempt (K : Type) where
  result : Except (SendError K) Bool
  breaker : Option (CircuitBreaker K)
  reached : Bool

def record (config : CircuitBreakerConfig K) (delivery : Delivery) (now : K) :
    CircuitBreaker K → CircuitBreaker K :=
  match delivery with
  | .returned _ => recordSuccess config
  | .timedOut | .raised _ => recordFailure config now

def result (delivery : Delivery) : Except (SendError K) Bool :=
  match delivery with
  | .returned b => .ok b
  | .timedOut => .ok false
  | .raised e => if isTimeoutError e then .ok false else .error (.exception e)

variable [Field K] [LinearOrder K]

def send (connector : SIEMConnector K) (delivery : Delivery) (r : SendReadings K)
    (breakers : ℕ → CircuitBreaker K) : Attempt K :=
  match connector.circuitBreaker with
  | none => ⟨result delivery, none, true⟩
  | some guard =>
    let b := maybeTransitionFromOpen guard.config r.checkedAt (breakers guard.breaker)
    if b.state = .OPEN then
      ⟨.error (.circuitBreaker guard.name (timeUntilRetry guard.config r.retryAt b)), some b,
        false⟩
    else ⟨result delivery, some (record guard.config delivery r.recordedAt b), true⟩

def Admits (config : CircuitBreakerConfig K) (now : K) (b : CircuitBreaker K) : Prop :=
  (maybeTransitionFromOpen config now b).state ≠ .OPEN

theorem send_guarded {connector : SIEMConnector K} {guard : Guard K}
    (h : connector.circuitBreaker = some guard) (delivery : Delivery) (r : SendReadings K)
    (breakers : ℕ → CircuitBreaker K) :
    let b := breakers guard.breaker
    let admitted := maybeTransitionFromOpen guard.config r.checkedAt b
    ((send connector delivery r breakers).reached = true ↔ Admits guard.config r.checkedAt b) ∧
      (Admits guard.config r.checkedAt b → (send connector delivery r breakers).breaker =
        some (record guard.config delivery r.recordedAt admitted)) ∧
      (¬ Admits guard.config r.checkedAt b →
        (send connector delivery r breakers).breaker = some admitted) := by
  unfold send Admits
  rw [h]
  by_cases hopen :
      (maybeTransitionFromOpen guard.config r.checkedAt (breakers guard.breaker)).state = .OPEN
  · simp [hopen]
  · simp [hopen]

end Send

end SiemConnectors
