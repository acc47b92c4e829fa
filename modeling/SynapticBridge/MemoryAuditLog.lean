import SynapticBridge.WormAuditLog
import Mathlib.Data.List.Sort

/-! `InMemoryAuditLog`: domain events are signed when written, and the recorded audit events
are checked against their signature. The two dictionaries that are hashed differ in their
first key, so no recorded event passes its check. -/
namespace MemoryAuditLog

open Domain
open WormAuditLog (AuditEvent)

/-- `datetime.isoformat`, `repr`, and the first 16 digits of a text's SHA-256. -/
structure Formats (K : Type) where
  isoformat : DateTime K → String
  repr : PyVal K → String
  digest : String → String

section Events

variable {K : Type}

def className : EventBody K → String
  | .toolCalled _ => "ToolCalledEvent"
  | .correctionCaptured _ => "CorrectionCapturedEvent"
  | .policyViolation _ => "PolicyViolationEvent"
  | .sessionStarted _ => "SessionStartedEvent"
  | .sessionEnded _ => "SessionEndedEvent"
  | .intentClassified _ => "IntentClassifiedEvent"
  | .driftDetected _ => "DriftDetectedEvent"
  | .cleInterception _ => "CLEInterceptionEvent"

/-- `getattr(event, "session_id", None)`. -/
def sessionId : EventBody K → Option String
  | .toolCalled e => some e.sessionId
  | .correctionCaptured e => some e.sessionId
  | .policyViolation e => some e.sessionId
  | .sessionStarted _ => none
  | .sessionEnded _ => none
  | .intentClassified e => some e.sessionId
  | .driftDetected e => some e.sessionId
  | .cleInterception _ => none

/-- `getattr(event, "agent_id", None)`. -/
def agentId : EventBody K → Option String
  | .toolCalled e => some e.agentId
  | .correctionCaptured e => some e.agentId
  | .policyViolation e => some e.agentId
  | .sessionStarted e => some e.agentId
  | .sessionEnded e => some e.agentId
  | .intentClassified e => some e.agentId
  | .driftDetected _ => none
  | .cleInterception _ => none

/-- `getattr(event, "tool_name", None)`. -/
def toolName : EventBody K → Option String
  | .toolCalled e => some e.toolName
  | .correctionCaptured _ => none
  | .policyViolation e => some e.toolName
  | .sessionStarted _ => none
  | .sessionEnded _ => none
  | .intentClassified _ => none
  | .driftDetected e => some e.toolName
  | .cleInterception _ => none

/-- The fields of the subclass, in the order of their declaration. -/
def bodyFields : EventBody K → List (String × PyVal K)
  | .toolCalled e =>
    [("session_id", .str e.sessionId), ("agent_id", .str e.agentId),
      ("tool_name", .str e.toolName), ("was_corrected", .bool e.wasCorrected),
      ("correction_confidence", .float e.correctionConfidence)]
  | .correctionCaptured e =>
    [("session_id", .str e.sessionId), ("agent_id", .str e.agentId),
      ("original_tool", .str e.originalTool), ("corrected_tool", .str e.correctedTool),
      ("operator_identity", .str e.operatorIdentity)]
  | .policyViolation e =>
    [("session_id", .str e.sessionId), ("agent_id", .str e.agentId),
      ("policy_id", .str e.policyId), ("tool_name", .str e.toolName), ("reason", .str e.reason)]
  | .sessionStarted e =>
    [("agent_id", .str e.agentId), ("execution_token", .str e.executionToken)]
  | .sessionEnded e =>
    [("agent_id", .str e.agentId), ("reason", .str e.reason),
      ("duration_seconds", .float e.durationSeconds)]
  | .intentClassified e =>
    [("session_id", .str e.sessionId), ("agent_id", .str e.agentId),
      ("intent_text", .str e.intentText), ("matched_tool", .str e.matchedTool),
      ("confidence", .float e.confidence)]
  | .driftDetected e =>
    [("session_id", .str e.sessionId), ("tool_name", .str e.toolName),
      ("expected_behavior", .str e.expectedBehavior),
      ("observed_behavior", .str e.observedBehavior), ("drift_score", .float e.driftScore)]
  | .cleInterception e =>
    [("original_tool", .str e.originalTool), ("suggested_tool", .str e.suggestedTool),
      ("confidence", .float e.confidence), ("pattern_id", .str e.patternId),
      ("shadow_mode", .bool e.shadowMode), ("applied", .bool e.applied)]

/-- `DomainEvent.to_dict`. -/
def toDict (f : Formats K) (event : DomainEvent K) : List (String × PyVal K) :=
  [("aggregate_id", .str event.aggregateId), ("occurred_at", .str (f.isoformat event.occurredAt))]
    ++ bodyFields event.body

def optional : Option String → PyVal K
  | none => .none
  | some text => .str text

/-- `AuditEvent.to_dict`. -/
def auditDict (f : Formats K) (event : AuditEvent K) : List (String × PyVal K) :=
  [("event_id", .str event.eventId), ("event_type", .str event.eventType),
    ("session_id", optional event.sessionId), ("agent_id", optional event.agentId),
    ("tool_name", optional event.toolName), ("action", .str event.action),
    ("actor", .str event.actor), ("resource", .str event.resource),
    ("outcome", .str event.outcome), ("metadata", event.metadata),
    ("timestamp", .str (f.isoformat event.timestamp)), ("signature", .str event.signature)]

end Events

section Log

variable {K : Type}

/-- `sorted(event_dict.items())`; the keys are distinct, so values are never compared. -/
def sortedItems (items : List (String × PyVal K)) : List (String × PyVal K) :=
  items.insertionSort fun a b => a.1 ≤ b.1

/-- The `repr` of one item; field names need no escapes. -/
def itemText (f : Formats K) (item : String × PyVal K) : String :=
  "('" ++ item.1 ++ "', " ++ f.repr item.2 ++ ")"

/-- `str(sorted(event_dict.items()))`. -/
def signedText (f : Formats K) (items : List (String × PyVal K)) : String :=
  "[" ++ ", ".intercalate ((sortedItems items).map (itemText f)) ++ "]"

def signEvent (f : Formats K) (items : List (String × PyVal K)) : String :=
  f.digest (signedText f items)

structure InMemoryAuditLog (K : Type) where
  events : List (AuditEvent K)

namespace InMemoryAuditLog

def empty : InMemoryAuditLog K := ⟨[]⟩

def auditEvent (f : Formats K) (event : DomainEvent K) (hex : String) (now : K) : AuditEvent K where
  eventId := "audit_" ++ hexPrefix 12 hex
  eventType := className event.body
  sessionId := sessionId event.body
  agentId := agentId event.body
  toolName := toolName event.body
  action := "create"
  actor := "system"
  resource := ""
  outcome := "success"
  metadata := .dict (toDict f event)
  timestamp := utc now
  signature := signEvent f (toDict f event)

/-- `write`; nothing is recorded for `None`. -/
def write (f : Formats K) (log : InMemoryAuditLog K) (event : Option (DomainEvent K))
    (hex : String) (now : K) : InMemoryAuditLog K :=
  match event with
  | none => log
  | some event => ⟨log.events ++ [auditEvent f event hex now]⟩

/-- `getattr(e, key, None)` where it can equal a text. -/
def getattr (event : AuditEvent K) : String → Option String
  | "event_id" => some event.eventId
  | "event_type" => some event.eventType
  | "session_id" => event.sessionId
  | "agent_id" => event.agentId
  | "tool_name" => event.toolName
  | "action" => some event.action
  | "actor" => some event.actor
  | "resource" => some event.resource
  | "outcome" => some event.outcome
  | "signature" => some event.signature
  | _ => none

/-- `query` for filters whose values are texts. -/
def query (log : InMemoryAuditLog K) (filters : List (String × String)) : List (AuditEvent K) :=
  filters.foldl (fun results filter =>
    results.filter fun e => getattr e filter.1 = some filter.2) log.events

def getBySession (log : InMemoryAuditLog K) (sessionId : String) : List (AuditEvent K) :=
  log.query [("session_id", sessionId)]

theorem getBySession_eq (log : InMemoryAuditLog K) (sessionId : String) :
    log.getBySession sessionId = log.events.filter fun e => e.sessionId = some sessionId := rfl

def verifyIntegrity (f : Formats K) (log : InMemoryAuditLog K) (eventId : String) : Bool :=
  match log.events.find? fun e => e.eventId = eventId with
  | some event => event.signature = signEvent f (auditDict f event)
  | none => false

end InMemoryAuditLog

end Log

section Integrity

variable {K : Type}

theorem auditDict_first (f : Formats K) (event : AuditEvent K) :
    ∃ v rest, sortedItems (auditDict f event) = ("action", v) :: rest := by
  simp [sortedItems, auditDict]

theorem toDict_first (f : Formats K) (event : DomainEvent K) :
    ∃ k v rest, sortedItems (toDict f event) = (k, v) :: rest ∧
      (k = "agent_id" ∨ k = "aggregate_id") := by
  obtain ⟨aggregateId, occurredAt, body⟩ := event
  cases body <;> simp [sortedItems, toDict, bodyFields]

/-- The signed text starts with the first key. -/
theorem signedText_first (f : Formats K) {items rest : List (String × PyVal K)} {k : String}
    {v : PyVal K} (h : sortedItems items = (k, v) :: rest) :
    ∃ tail, signedText f items = "[('" ++ k ++ tail := by
  rw [signedText, h, List.map_cons]
  by_cases hrest : rest = []
  · subst hrest
    rw [List.map_nil, String.intercalate_singleton]
    simp only [itemText, String.append_assoc]
    exact ⟨_, rfl⟩
  · rw [String.intercalate_cons_of_ne_nil (by simpa using hrest)]
    simp only [itemText, String.append_assoc]
    exact ⟨_, rfl⟩

/-- What is hashed for a check is never what was hashed for a write. -/
theorem signedText_ne (f : Formats K) (event : DomainEvent K) (audited : AuditEvent K) :
    signedText f (toDict f event) ≠ signedText f (auditDict f audited) := by
  obtain ⟨k, v, rest, hdomain, hk⟩ := toDict_first f event
  obtain ⟨v', rest', haudit⟩ := auditDict_first f audited
  obtain ⟨tail, htext⟩ := signedText_first f hdomain
  obtain ⟨tail', htext'⟩ := signedText_first f haudit
  intro heq
  rw [htext, htext'] at heq
  have hletter := congrArg (fun text : String => text.toList[4]?) heq
  rcases hk with rfl | rfl
  · simp at hletter
  · simp at hletter

namespace InMemoryAuditLog

/-- Writes to one log, and alterations of the entries it holds; `recorded` are the entries
as they were written. Identifiers in the log stay distinct. -/
inductive Run (f : Formats K) : List (AuditEvent K) → InMemoryAuditLog K → Prop where
  | start : Run f [] .empty
  | write {recorded : List (AuditEvent K)} {log : InMemoryAuditLog K} (run : Run f recorded log)
      (event : DomainEvent K) (hex : String) (now : K)
      (fresh : ∀ e ∈ log.events, e.eventId ≠ "audit_" ++ hexPrefix 12 hex) :
      Run f (recorded ++ [auditEvent f event hex now]) (log.write f (some event) hex now)
  | writeNone {recorded : List (AuditEvent K)} {log : InMemoryAuditLog K} (run : Run f recorded log)
      (hex : String) (now : K) : Run f recorded (log.write f none hex now)
  | alter {recorded : List (AuditEvent K)} {log : InMemoryAuditLog K} (run : Run f recorded log)
      (i : ℕ) (altered : AuditEvent K)
      (ids : ((log.events.set i altered).map (·.eventId)).Nodup) :
      Run f recorded ⟨log.events.set i altered⟩

variable {f : Formats K} {recorded : List (AuditEvent K)} {log : InMemoryAuditLog K}

theorem Run.ids_nodup (run : Run f recorded log) : (log.events.map (·.eventId)).Nodup := by
  induction run with
  | start => simp [empty]
  | write run event hex now fresh ih =>
    simp only [InMemoryAuditLog.write, List.map_append, List.nodup_append]
    refine ⟨ih, List.nodup_singleton _, ?_⟩
    intro id hid id' hid' heq
    obtain ⟨e, he, rfl⟩ := List.mem_map.mp hid
    exact fresh e he (heq.trans (List.mem_singleton.mp hid'))
  | writeNone run hex now ih => exact ih
  | alter run i altered ids ih => exact ids

theorem Run.recorded_signed (run : Run f recorded log) :
    ∀ e ∈ recorded, ∃ event hex now, e = auditEvent f event hex now := by
  induction run with
  | start => exact nofun
  | write run event hex now fresh ih =>
    intro e he
    rcases List.mem_append.mp he with he | he
    · exact ih e he
    · exact ⟨event, hex, now, List.mem_singleton.mp he⟩
  | writeNone run hex now ih => exact ih
  | alter run i altered ids ih => exact ih

theorem find?_eventId {events : List (AuditEvent K)} (ids : (events.map (·.eventId)).Nodup)
    {e : AuditEvent K} (he : e ∈ events) :
    events.find? (fun x => x.eventId = e.eventId) = some e := by
  induction events with
  | nil => cases he
  | cons x xs ih =>
    rw [List.map_cons, List.nodup_cons] at ids
    rcases List.mem_cons.mp he with rfl | he
    · simp
    · have hne : x.eventId ≠ e.eventId := by
        intro heq
        exact ids.1 (heq ▸ List.mem_map_of_mem he)
      rw [List.find?_cons_of_neg (by simpa using hne)]
      exact ih ids.2 he

/-- An entry that is as it was written fails its check. -/
theorem Run.verifyIntegrity_recorded (run : Run f recorded log)
    (injective : Function.Injective f.digest) {e : AuditEvent K} (written : e ∈ recorded)
    (present : e ∈ log.events) : log.verifyIntegrity f e.eventId = false := by
  obtain ⟨event, hex, now, hsigned⟩ := run.recorded_signed e written
  have signature : e.signature = signEvent f (toDict f event) := by
    rw [hsigned]
    rfl
  rw [verifyIntegrity, find?_eventId run.ids_nodup present]
  simp only [signature, decide_eq_false_iff_not]
  intro heq
  exact signedText_ne f event e (injective heq)

/-- Every recorded entry that was not altered fails its check, so all of them pass exactly
when there is none. -/
theorem Run.verifies_iff (run : Run f recorded log) (injective : Function.Injective f.digest) :
    (∀ e ∈ recorded, e ∈ log.events → log.verifyIntegrity f e.eventId = false) ∧
    ((∀ (i : ℕ) (e : AuditEvent K), recorded[i]? = some e → log.events[i]? = some e →
        log.verifyIntegrity f e.eventId = true) ↔
      ∀ (i : ℕ) (e : AuditEvent K), recorded[i]? = some e → log.events[i]? ≠ some e) := by
  have fails : ∀ e ∈ recorded, e ∈ log.events → log.verifyIntegrity f e.eventId = false := by
    intro e written present
    exact run.verifyIntegrity_recorded injective written present
  refine ⟨fails, ?_, ?_⟩
  · intro verifies i e written present
    have accepted := verifies i e written present
    rw [fails e (List.mem_of_getElem? written) (List.mem_of_getElem? present)] at accepted
    cases accepted
  · intro gone i e written present
    exact absurd present (gone i e written)

end InMemoryAuditLog

end Integrity

/-! One tool call, written and checked. -/

section Sample

mutual

/-- `repr` of plain values; floats are whole numbers here. -/
def sampleRepr : PyVal ℤ → String
  | .none => "None"
  | .bool b => if b then "True" else "False"
  | .int n => toString n
  | .float x => toString x ++ ".0"
  | .infinity negative => if negative then "-inf" else "inf"
  | .nan => "nan"
  | .str text => "'" ++ text ++ "'"
  | .list items => "[" ++ ", ".intercalate (sampleReprs items) ++ "]"
  | .dict items => "\x7b" ++ ", ".intercalate (sampleItems items) ++ "\x7d"

def sampleReprs : List (PyVal ℤ) → List String
  | [] => []
  | v :: rest => sampleRepr v :: sampleReprs rest

def sampleItems : List (String × PyVal ℤ) → List String
  | [] => []
  | (k, v) :: rest => ("'" ++ k ++ "': " ++ sampleRepr v) :: sampleItems rest

end

/-- The text itself stands in for its digest. -/
def sampleFormats : Formats ℤ := ⟨fun _ => "1970-01-01T00:00:00+00:00", sampleRepr, id⟩

def sampleCall : DomainEvent ℤ :=
  ⟨"call_1", utc 0, .toolCalled ⟨"session_1", "agent_1", "fs.read", false, 0⟩⟩

def sampleEntry : AuditEvent ℤ := InMemoryAuditLog.auditEvent sampleFormats sampleCall "a1" 0

open InMemoryAuditLog in
theorem sampleEntry_run : Run sampleFormats [sampleEntry] ⟨[sampleEntry]⟩ :=
  .write .start sampleCall "a1" 0 (by simp [InMemoryAuditLog.empty])

theorem verifies_iff_sample :
    (⟨[sampleEntry]⟩ : InMemoryAuditLog ℤ).verifyIntegrity sampleFormats sampleEntry.eventId =
      false :=
  (sampleEntry_run.verifies_iff fun _ _ h => h).1 sampleEntry List.mem_cons_self
    List.mem_cons_self

/-- A written event that nobody touched is reported as altered. -/
theorem untouched_event_rejected :
    InMemoryAuditLog.Run sampleFormats [sampleEntry] ⟨[sampleEntry]⟩ ∧
    Function.Injective sampleFormats.digest ∧
    (⟨[sampleEntry]⟩ : InMemoryAuditLog ℤ).verifyIntegrity sampleFormats sampleEntry.eventId ≠
      true := by
  refine ⟨sampleEntry_run, fun _ _ h => h, ?_⟩
  rw [sampleEntry_run.verifyIntegrity_recorded (fun _ _ h => h) List.mem_cons_self
    List.mem_cons_self]
  exact Bool.false_ne_true

end Sample

end MemoryAuditLog
