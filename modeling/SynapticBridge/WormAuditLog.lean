import SynapticBridge.OrderedDict
import SynapticBridge.Domain
import SynapticBridge.PythonText

/-! `WORMAuditLog`: appending signed events to memory and storage, and verifying the events
in memory. Hashing, signing and JSON are parameters; each storage write may fail midway. -/
namespace WormAuditLog

open Domain OrderedDict
open Procedures.Proc

structure AuditEvent (K : Type) where
  eventId : String
  eventType : String
  sessionId : Option String
  agentId : Option String
  toolName : Option String
  action : String
  actor : String
  resource : String
  outcome : String
  metadata : PyVal K
  timestamp : DateTime K
  signature : String

/-- The eleven recorded fields, which are what is hashed and signed. -/
structure EventData (K : Type) where
  eventId : String
  eventType : String
  sessionId : Option String
  agentId : Option String
  toolName : Option String
  action : String
  actor : String
  resource : String
  outcome : String
  metadata : PyVal K
  timestamp : String

structure WORMEvent (K : Type) extends EventData K where
  sequenceNumber : ℤ
  previousHash : String
  eventHash : String
  signature : String

/-- `datetime.isoformat`, `json.dumps(..., sort_keys=True)`, and the hexadecimal digests of
SHA-256 and HMAC-SHA256. -/
structure Primitives (K : Type) where
  isoformat : DateTime K → String
  dumps : EventData K → Except PyException String
  sha256 : String → String
  hmac : String → String → String

inductive WORMStorageBackend where
  | local
  | gcs
  | s3
  deriving DecidableEq, Repr

/-- The files under the storage path; an event file that was not written to its end holds
no event. -/
structure Storage (K : Type) where
  eventFiles : Dict String (Option (WORMEvent K))
  sequenceFile : Option String
  lastHashFile : Option String

structure WORMAuditLog (K : Type) where
  backend : WORMStorageBackend
  secretKey : String
  sequence : ℤ
  previousHash : String
  events : List (WORMEvent K)
  storage : Storage K

/-- How one write of a file ends: done, or raised with the old content or with `left`. -/
inductive WriteEnd (α : Type) where
  | done
  | raised (e : PyException) (left : Option α)

structure Writes (K : Type) where
  eventFile : WriteEnd (Option (WORMEvent K))
  sequenceFile : WriteEnd String
  lastHashFile : WriteEnd String

section Log

variable {K : Type}

def initialHash : String := String.ofList (List.replicate 64 '0')

def stripped (text : String) : String := String.ofList (PythonText.strip text.toList)

def loadSequence (storage : Storage K) : Except PyException ℤ :=
  match storage.sequenceFile with
  | none => .ok 0
  | some text =>
    match PythonText.parseInt (PythonText.strip text.toList) with
    | some n => .ok n
    | none => .error (.valueError s!"invalid literal for int() with base 10: '{stripped text}'")

def loadHash (storage : Storage K) : String :=
  match storage.lastHashFile with
  | none => initialHash
  | some text => stripped text

/-- The constructor on the files it finds. -/
def WORMAuditLog.new (backend : WORMStorageBackend) (secretKey : String) (storage : Storage K) :
    Except PyException (WORMAuditLog K) := do
  if secretKey = "" then
    throw (.other "ConfigurationError"
      "WORM_SECRET_KEY environment variable or secret_key parameter is required.")
  let sequence ← loadSequence storage
  return ⟨backend, secretKey, sequence, loadHash storage, [], storage⟩

def eventData (prims : Primitives K) (event : AuditEvent K) : EventData K where
  eventId := event.eventId
  eventType := event.eventType
  sessionId := event.sessionId
  agentId := event.agentId
  toolName := event.toolName
  action := event.action
  actor := event.actor
  resource := event.resource
  outcome := event.outcome
  metadata := event.metadata
  timestamp := prims.isoformat event.timestamp

/-- `f"{n:012d}"`. -/
def padded (n : ℤ) : String :=
  let sign := if n < 0 then "-" else ""
  let digits := toString n.natAbs
  sign ++ String.ofList (List.replicate (12 - sign.length - digits.length) '0') ++ digits

def filename (event : WORMEvent K) : String :=
  s!"{padded event.sequenceNumber}_{event.eventId}.json"

/-- One file write; `store` puts a content into the file. -/
def writeFile {α : Type} (ends : WriteEnd α) (store : α → Storage K → Storage K) (content : α) :
    Proc (WORMAuditLog K) Unit :=
  match ends with
  | .done => modify fun log => { log with storage := store content log.storage }
  | .raised e none => raise e
  | .raised e (some left) => do
    modify fun log => { log with storage := store left log.storage }
    raise e

def writeLocal (writes : Writes K) (event : WORMEvent K) : Proc (WORMAuditLog K) Unit :=
  writeFile writes.eventFile
    (fun content storage =>
      { storage with eventFiles := storage.eventFiles.set (filename event) content })
    (some event)

/-- The cloud backends only log a warning. -/
def writeToStorage (writes : Writes K) (event : WORMEvent K) : Proc (WORMAuditLog K) Unit := do
  match (← read).backend with
  | .local => writeLocal writes event
  | .gcs => pure ()
  | .s3 => pure ()

def saveSequence (writes : Writes K) : Proc (WORMAuditLog K) Unit := do
  writeFile writes.sequenceFile
    (fun content storage => { storage with sequenceFile := some content })
    (toString (← read).sequence)

def saveLastHash (writes : Writes K) (hashValue : String) : Proc (WORMAuditLog K) Unit :=
  writeFile writes.lastHashFile
    (fun content storage => { storage with lastHashFile := some content }) hashValue

def append (prims : Primitives K) (writes : Writes K) (event : AuditEvent K) :
    Proc (WORMAuditLog K) (WORMEvent K) := do
  modify fun log => { log with sequence := log.sequence + 1 }
  let data := eventData prims event
  let eventJson ← ofExcept (prims.dumps data)
  let eventHash := prims.sha256 eventJson
  let log ← read
  let chainData := log.previousHash ++ eventJson
  let wormEvent : WORMEvent K :=
    { data with
      sequenceNumber := log.sequence
      previousHash := log.previousHash
      eventHash := eventHash
      signature := prims.hmac log.secretKey chainData }
  modify fun log => { log with events := log.events ++ [wormEvent] }
  writeToStorage writes wormEvent
  modify fun log => { log with previousHash := eventHash }
  saveSequence writes
  saveLastHash writes eventHash
  return wormEvent

def verifyEvent (prims : Primitives K) (secretKey : String) (event : WORMEvent K) :
    Except PyException Bool := do
  let eventJson ← prims.dumps event.toEventData
  if prims.sha256 eventJson ≠ event.eventHash then return false
  let chainData := event.previousHash ++ eventJson
  return decide (prims.hmac secretKey chainData = event.signature)

structure Report where
  valid : Bool
  eventsChecked : ℕ
  eventsValid : ℕ
  firstFailure : Option ℤ
  deriving DecidableEq, Repr

/-- One turn of the loop. A recorded failure of number 0 counts as none recorded. -/
def Report.check (report : Report) (event : WORMEvent K) (verified : Bool) : Report :=
  if verified then
    { report with
      eventsChecked := report.eventsChecked + 1
      eventsValid := report.eventsValid + 1 }
  else
    { report with
      eventsChecked := report.eventsChecked + 1
      valid := false
      firstFailure :=
        if report.firstFailure = none ∨ report.firstFailure = some 0 then
          some event.sequenceNumber
        else report.firstFailure }

def verifyLoop (prims : Primitives K) (secretKey : String) :
    List (WORMEvent K) → Report → Except PyException Report
  | [], report => .ok report
  | event :: rest, report => do
    let verified ← verifyEvent prims secretKey event
    verifyLoop prims secretKey rest (report.check event verified)

/-- `verify_integrity` reads the events in memory and nothing else. -/
def verifyIntegrity (prims : Primitives K) (log : WORMAuditLog K) : Except PyException Report :=
  verifyLoop prims log.secretKey log.events ⟨true, 0, 0, none⟩

end Log

end WormAuditLog
