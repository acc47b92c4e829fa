import SynapticBridge.WormAuditLog

/-! What `verify_integrity` detects. It recomputes each event's own hash and signature, so
it accepts every list of genuine events, in any order and under any numbers. -/
namespace WormIntegrity

open Domain WormAuditLog
open Procedures.Proc

variable {K : Type}

/-- A write that returns was done to its end. -/
theorem writeFile_ok {α : Type} {ends : WriteEnd α} {store : α → Storage K → Storage K}
    {content : α} {log log' : WORMAuditLog K}
    (h : (writeFile ends store content).run log = (.ok (), log')) :
    ends = .done ∧ log' = { log with storage := store content log.storage } := by
  cases ends with
  | done =>
    obtain ⟨-, rfl⟩ := Prod.mk.inj h
    exact ⟨rfl, rfl⟩
  | raised e left =>
    cases left with
    | none => cases h
    | some left => cases h

/-- The event files after an event was written to the backend. -/
def filed (backend : WORMStorageBackend) (event : WORMEvent K) (storage : Storage K) : Storage K :=
  match backend with
  | .local => { storage with eventFiles := storage.eventFiles.set (filename event) (some event) }
  | .gcs => storage
  | .s3 => storage

theorem writeToStorage_ok {writes : Writes K} {event : WORMEvent K} {log log' : WORMAuditLog K}
    (h : (writeToStorage writes event).run log = (.ok (), log')) :
    log' = { log with storage := filed log.backend event log.storage } := by
  obtain ⟨backend, key, sequence, hash, events, storage⟩ := log
  unfold writeToStorage at h
  rw [bind_run, read_run] at h
  rcases backend with _ | _ | _
  · exact (writeFile_ok h).2
  · exact (Prod.mk.inj h).2.symm
  · exact (Prod.mk.inj h).2.symm

/-- The event that an append of `event` creates from the JSON text of its fields. -/
def signedEvent (prims : Primitives K) (log : WORMAuditLog K) (event : AuditEvent K)
    (eventJson : String) : WORMEvent K :=
  { eventData prims event with
    sequenceNumber := log.sequence + 1
    previousHash := log.previousHash
    eventHash := prims.sha256 eventJson
    signature := prims.hmac log.secretKey (log.previousHash ++ eventJson) }

/-- Once the JSON text is there, an append signs the event, keeps it in memory and writes. -/
theorem append_run {prims : Primitives K} {writes : Writes K} {event : AuditEvent K}
    {log : WORMAuditLog K} {eventJson : String} {e : WORMEvent K}
    (dumped : prims.dumps (eventData prims event) = .ok eventJson)
    (he : e = signedEvent prims log event eventJson) :
    (append prims writes event).run log = (do
      writeToStorage writes e
      modify fun log => { log with previousHash := e.eventHash }
      saveSequence writes
      saveLastHash writes e.eventHash
      return e : Proc (WORMAuditLog K) (WORMEvent K)).run
        { log with sequence := log.sequence + 1, events := log.events ++ [e] } := by
  subst he
  unfold append
  rw [bind_ok (modify_run _ log)]
  change (ofExcept (prims.dumps (eventData prims event)) >>= _).run _ = _
  rw [dumped]
  rfl

/-- All that a successful append does. -/
theorem append_ok {prims : Primitives K} {writes : Writes K} {event : AuditEvent K}
    {log log' : WORMAuditLog K} {e : WORMEvent K}
    (h : (append prims writes event).run log = (.ok e, log')) :
    ∃ eventJson, prims.dumps (eventData prims event) = .ok eventJson ∧
      e = signedEvent prims log event eventJson ∧
      log' = { log with
        sequence := log.sequence + 1
        previousHash := e.eventHash
        events := log.events ++ [e]
        storage :=
          { filed log.backend e log.storage with
            sequenceFile := some (toString (log.sequence + 1))
            lastHashFile := some e.eventHash } } := by
  have hdumps := h
  unfold append at hdumps
  obtain ⟨_, _, -, hdumps⟩ := bind_eq_ok.mp hdumps
  obtain ⟨eventJson, _, hdumps, -⟩ := bind_eq_ok.mp hdumps
  have hjson := (Prod.mk.inj hdumps).1
  rw [append_run hjson rfl] at h
  obtain ⟨_, _, hwrite, h⟩ := bind_eq_ok.mp h
  obtain rfl := writeToStorage_ok hwrite
  obtain ⟨_, _, hhash, h⟩ := bind_eq_ok.mp h
  obtain ⟨-, rfl⟩ := Prod.mk.inj hhash
  obtain ⟨_, _, hsequence, h⟩ := bind_eq_ok.mp h
  rw [saveSequence, bind_run, read_run] at hsequence
  obtain ⟨-, rfl⟩ := writeFile_ok hsequence
  obtain ⟨_, _, hlast, h⟩ := bind_eq_ok.mp h
  obtain ⟨-, rfl⟩ := writeFile_ok hlast
  obtain ⟨he, rfl⟩ := Prod.mk.inj h
  obtain rfl := Except.ok.inj he
  exact ⟨eventJson, hjson, rfl, rfl⟩

/-- Logs that one instance reaches by successful appends. -/
inductive Grown (prims : Primitives K) : WORMAuditLog K → Prop where
  | fresh {backend : WORMStorageBackend} {secretKey : String} {storage : Storage K}
      {log : WORMAuditLog K} (opened : WORMAuditLog.new backend secretKey storage = .ok log) :
      Grown prims log
  | append {log log' : WORMAuditLog K} {writes : Writes K} {event : AuditEvent K}
      {e : WORMEvent K} (grown : Grown prims log)
      (appended : (append prims writes event).run log = (.ok e, log')) : Grown prims log'

theorem new_events {backend : WORMStorageBackend} {secretKey : String} {storage : Storage K}
    {log : WORMAuditLog K} (h : WORMAuditLog.new backend secretKey storage = .ok log) :
    log.events = [] := by
  unfold WORMAuditLog.new at h
  by_cases hkey : secretKey = ""
  · rw [if_pos hkey] at h
    cases h
  · rw [if_neg hkey] at h
    rcases hseq : loadSequence storage with e | n
    · rw [hseq] at h
      cases h
    · rw [hseq] at h
      obtain rfl := Except.ok.inj h
      rfl

/-- A signed event passes its own check under any number. -/
theorem verifyEvent_signed {prims : Primitives K} {log : WORMAuditLog K} {event : AuditEvent K}
    {eventJson : String} (hjson : prims.dumps (eventData prims event) = .ok eventJson) (n : ℤ) :
    verifyEvent prims log.secretKey
      { signedEvent prims log event eventJson with sequenceNumber := n } = .ok true := by
  unfold verifyEvent
  change (prims.dumps (eventData prims event) >>= _) = _
  rw [hjson]
  change (if prims.sha256 eventJson ≠ prims.sha256 eventJson then pure false
    else pure (decide (prims.hmac log.secretKey (log.previousHash ++ eventJson) =
      prims.hmac log.secretKey (log.previousHash ++ eventJson)))) = Except.ok true
  simp only [ne_eq, not_true_eq_false, if_false, decide_true]
  rfl

/-- Renumbering goes unnoticed for every event of a grown log. -/
theorem Grown.verifies {prims : Primitives K} {log : WORMAuditLog K} (h : Grown prims log) :
    ∀ e ∈ log.events, ∀ n, verifyEvent prims log.secretKey { e with sequenceNumber := n } =
      .ok true := by
  induction h with
  | fresh opened =>
    rw [new_events opened]
    exact nofun
  | append grown appended ih =>
    obtain ⟨eventJson, hjson, rfl, rfl⟩ := append_ok appended
    intro e he n
    rcases List.mem_append.mp he with he | he
    · exact ih e he n
    · obtain rfl := List.mem_singleton.mp he
      exact verifyEvent_signed hjson n

theorem verifyLoop_valid {prims : Primitives K} {secretKey : String} (events : List (WORMEvent K))
    (h : ∀ e ∈ events, verifyEvent prims secretKey e = .ok true) (report : Report) :
    verifyLoop prims secretKey events report = .ok { report with
      eventsChecked := report.eventsChecked + events.length
      eventsValid := report.eventsValid + events.length } := by
  induction events generalizing report with
  | nil => rfl
  | cons event rest ih =>
    rw [verifyLoop, h event List.mem_cons_self]
    change verifyLoop prims secretKey rest (report.check event true) = _
    rw [ih fun e he => h e (List.mem_cons_of_mem _ he)]
    simp only [Report.check, if_true, List.length_cons, Except.ok.injEq, Report.mk.injEq, true_and,
      and_true]
    omega

/-- A list of copies of logged events, renumbered or not. -/
def Copies (original copies : List (WORMEvent K)) : Prop :=
  ∀ c ∈ copies, ∃ e ∈ original, ∃ n, c = { e with sequenceNumber := n }

def withEvents (log : WORMAuditLog K) (events : List (WORMEvent K)) : WORMAuditLog K :=
  { log with events := events }

/-- Every list of copies is reported valid. -/
theorem Grown.copies_valid {prims : Primitives K} {log : WORMAuditLog K} (h : Grown prims log)
    {copies : List (WORMEvent K)} (made : Copies log.events copies) :
    verifyIntegrity prims (withEvents log copies) =
      .ok ⟨true, copies.length, copies.length, none⟩ := by
  have hall : ∀ c ∈ copies, verifyEvent prims log.secretKey c = .ok true := by
    intro c hc
    obtain ⟨e, he, n, rfl⟩ := made c hc
    exact h.verifies e he n
  have hloop := verifyLoop_valid copies hall ⟨true, 0, 0, none⟩
  simpa [verifyIntegrity, withEvents] using hloop

/-- Copies of logged events are always reported valid, so a valid report proves a prefix
only where the list is one. -/
theorem Grown.valid_prefix_iff {prims : Primitives K} {log : WORMAuditLog K}
    (h : Grown prims log) {copies : List (WORMEvent K)} (made : Copies log.events copies) :
    verifyIntegrity prims (withEvents log copies) =
      .ok ⟨true, copies.length, copies.length, none⟩ ∧
    (((∃ report, verifyIntegrity prims (withEvents log copies) = .ok report ∧
        report.valid = true) → copies <+: log.events) ↔
      copies <+: log.events) := by
  have hvalid := h.copies_valid made
  refine ⟨hvalid, fun hprefix => hprefix ⟨_, hvalid, rfl⟩, fun hprefix _ => hprefix⟩

/-! Two events appended to an empty log, with injective stand-ins for the digests. -/

def samplePrims : Primitives ℤ where
  isoformat t := toString t.seconds
  dumps data := .ok s!"action={data.action} event_id={data.eventId} timestamp={data.timestamp}"
  sha256 text := s!"sha256({text})"
  hmac key text := s!"hmac({key}, {text})"

def sampleEvent (eventId : String) : AuditEvent ℤ :=
  ⟨eventId, "ToolCalledEvent", some "session_1", some "agent_1", some "fs.read", "execute",
    "system", "/tmp/file", "success", .dict [], utc 0, "placeholder"⟩

def sampleStart : WORMAuditLog ℤ :=
  ⟨.local, "test-worm-secret-key", 0, initialHash, [], ⟨.empty, none, none⟩⟩

def sampleAppend (log : WORMAuditLog ℤ) (eventId : String) : WORMAuditLog ℤ :=
  ((append samplePrims ⟨.done, .done, .done⟩ (sampleEvent eventId)).run log).2

def sampleLog : WORMAuditLog ℤ := sampleAppend (sampleAppend sampleStart "evt_1") "evt_2"

theorem sampleAppend_grown {log : WORMAuditLog ℤ} (h : Grown samplePrims log)
    (backend : log.backend = .local) (eventId : String) :
    Grown samplePrims (sampleAppend log eventId) ∧ (sampleAppend log eventId).backend = .local := by
  obtain ⟨_, key, n, hash, events, storage⟩ := log
  obtain rfl : _ = WORMStorageBackend.local := backend
  obtain ⟨e, appended⟩ : ∃ e, (append samplePrims ⟨.done, .done, .done⟩
      (sampleEvent eventId)).run ⟨.local, key, n, hash, events, storage⟩ =
        (.ok e, sampleAppend ⟨.local, key, n, hash, events, storage⟩ eventId) := ⟨_, rfl⟩
  exact ⟨h.append appended, rfl⟩

theorem sampleLog_grown : Grown samplePrims sampleLog := by
  have opened : WORMAuditLog.new .local "test-worm-secret-key" ⟨.empty, none, none⟩ =
      .ok sampleStart := rfl
  have start : Grown samplePrims sampleStart := .fresh opened
  obtain ⟨first, hfirst⟩ := sampleAppend_grown start rfl "evt_1"
  exact (sampleAppend_grown first hfirst "evt_2").1

theorem sampleLog_ids : sampleLog.events.map (·.eventId) = ["evt_1", "evt_2"] := rfl

theorem dropped_copies : Copies sampleLog.events (sampleLog.events.drop 1) :=
  fun c hc => ⟨c, List.mem_of_mem_drop hc, c.sequenceNumber, rfl⟩

theorem dropped_not_initial : ¬ sampleLog.events.drop 1 <+: sampleLog.events := by
  intro h
  have hids := h.map (·.eventId)
  rw [List.map_drop, sampleLog_ids] at hids
  revert hids
  decide

theorem kept_copies : Copies sampleLog.events (sampleLog.events.take 1) :=
  fun c hc => ⟨c, List.mem_of_mem_take hc, c.sequenceNumber, rfl⟩

/-- The first event alone is a prefix, the second one is none. -/
theorem valid_prefix_iff_halves :
    ((∃ report, verifyIntegrity samplePrims (withEvents sampleLog (sampleLog.events.take 1)) =
        .ok report ∧ report.valid = true) → sampleLog.events.take 1 <+: sampleLog.events) ∧
    (((∃ report, verifyIntegrity samplePrims (withEvents sampleLog (sampleLog.events.drop 1)) =
        .ok report ∧ report.valid = true) → sampleLog.events.drop 1 <+: sampleLog.events) ↔
      sampleLog.events.drop 1 <+: sampleLog.events) := by
  have initial := List.take_prefix 1 sampleLog.events
  exact ⟨(sampleLog_grown.valid_prefix_iff kept_copies).2.mpr initial,
    (sampleLog_grown.valid_prefix_iff dropped_copies).2⟩

/-- A log without its first event is reported valid. -/
theorem deleted_event_undetected :
    Copies sampleLog.events (sampleLog.events.drop 1) ∧
    (∃ report, verifyIntegrity samplePrims (withEvents sampleLog (sampleLog.events.drop 1)) =
      .ok report ∧ report.valid = true) ∧
    ¬ sampleLog.events.drop 1 <+: sampleLog.events :=
  ⟨dropped_copies, ⟨_, sampleLog_grown.copies_valid dropped_copies, rfl⟩, dropped_not_initial⟩

end WormIntegrity
