import SynapticBridge.WormStorage
import Mathlib.Data.List.Forall2

/-! Altered events and `verify_integrity`. A signature covers the hash of the previous event
and the eleven recorded fields, so what was signed cannot be passed off as anything else. -/
namespace TamperDetection

open Domain WormAuditLog WormIntegrity WormStorage

variable {K : Type} {prims : Primitives K} {key : String} {logged : List (WORMEvent K)}
  {log log' : WORMAuditLog K} {e : WORMEvent K}

section Values

mutual

/-- One value, up to the order in which dictionaries hold their entries. -/
inductive SameValue : PyVal K → PyVal K → Prop where
  | refl (v : PyVal K) : SameValue v v
  | list {xs ys : List (PyVal K)} (items : List.Forall₂ SameValue xs ys) :
      SameValue (.list xs) (.list ys)
  | dict {xs ys zs : List (String × PyVal K)} (order : xs.Perm ys) (entries : SameEntries ys zs) :
      SameValue (.dict xs) (.dict zs)

inductive SameEntries : List (String × PyVal K) → List (String × PyVal K) → Prop where
  | nil : SameEntries [] []
  | cons {k : String} {v w : PyVal K} {xs ys : List (String × PyVal K)} (value : SameValue v w)
      (rest : SameEntries xs ys) : SameEntries ((k, v) :: xs) ((k, w) :: ys)

end

/-- The eleven recorded fields are equal. -/
def SameData (d d' : EventData K) : Prop :=
  d.eventId = d'.eventId ∧ d.eventType = d'.eventType ∧ d.sessionId = d'.sessionId ∧
    d.agentId = d'.agentId ∧ d.toolName = d'.toolName ∧ d.action = d'.action ∧
    d.actor = d'.actor ∧ d.resource = d'.resource ∧ d.outcome = d'.outcome ∧
    SameValue d.metadata d'.metadata ∧ d.timestamp = d'.timestamp

theorem sameData_refl (d : EventData K) : SameData d d :=
  ⟨rfl, rfl, rfl, rfl, rfl, rfl, rfl, rfl, rfl, .refl _, rfl⟩

/-- What `json.dumps(..., sort_keys=True)` does with metadata made of JSON values. -/
structure Serializes (prims : Primitives K) (datas : List (EventData K)) : Prop where
  total : ∀ d ∈ datas, ∃ text, prims.dumps d = .ok text
  injective : ∀ d ∈ datas, ∀ d' ∈ datas, prims.dumps d = prims.dumps d' ↔ SameData d d'

/-- A hexadecimal SHA-256 digest. -/
def Hex64 (text : String) : Prop :=
  text.length = 64 ∧ ∀ c ∈ text.toList, c ∈ "0123456789abcdef".toList

theorem initialHash_toList : initialHash.toList = List.replicate 64 '0' := String.toList_ofList

theorem hex64_initialHash : Hex64 initialHash := by
  constructor
  · rw [← String.length_toList, initialHash_toList, List.length_replicate]
  · intro c hc
    rw [initialHash_toList] at hc
    rw [(List.mem_replicate.mp hc).2]
    exact List.mem_cons_self

/-- Texts of one length that are followed by more texts can be told apart. -/
theorem append_injective {a b a' b' : String} (length : a.length = a'.length)
    (h : a ++ b = a' ++ b') : a = a' ∧ b = b' := by
  have hlist := congrArg String.toList h
  rw [String.toList_append, String.toList_append] at hlist
  rw [← String.length_toList, ← String.length_toList] at length
  obtain ⟨ha, hb⟩ := List.append_inj hlist length
  exact ⟨String.toList_inj.mp ha, String.toList_inj.mp hb⟩

end Values

section Built

/-- Logs that grow by successful appends on one storage path, over restarts under one key.
The list holds every event that was ever logged. -/
inductive Built (prims : Primitives K) (key : String) :
    List (WORMEvent K) → WORMAuditLog K → Prop where
  | opened {backend : WORMStorageBackend} {log : WORMAuditLog K}
      (opened : WORMAuditLog.new backend key ⟨.empty, none, none⟩ = .ok log) :
      Built prims key [] log
  | append {logged : List (WORMEvent K)} {log log' : WORMAuditLog K} {writes : Writes K}
      {event : AuditEvent K} {e : WORMEvent K} (built : Built prims key logged log)
      (appended : (append prims writes event).run log = (.ok e, log')) :
      Built prims key (logged ++ [e]) log'
  | restart {logged : List (WORMEvent K)} {backend : WORMStorageBackend}
      {log log' : WORMAuditLog K} (built : Built prims key logged log)
      (opened : WORMAuditLog.new backend key log.storage = .ok log') :
      Built prims key logged log'

/-- An event as `append` signs it. -/
structure Issued (prims : Primitives K) (key : String) (e : WORMEvent K) : Prop where
  signed : ∃ eventJson, prims.dumps e.toEventData = .ok eventJson ∧
    e.eventHash = prims.sha256 eventJson ∧
    e.signature = prims.hmac key (e.previousHash ++ eventJson)
  previousHash : Hex64 e.previousHash
  number : 1 ≤ e.sequenceNumber

/-- Where a built log stands, in memory and in its side files. -/
structure Stands (prims : Primitives K) (key : String) (logged : List (WORMEvent K))
    (log : WORMAuditLog K) : Prop where
  secretKey : log.secretKey = key
  sequence : 0 ≤ log.sequence
  previousHash : Hex64 log.previousHash
  saved : ∀ n, loadSequence log.storage = .ok n → 0 ≤ n
  savedHash : Hex64 (loadHash log.storage)
  issued : ∀ e ∈ logged, Issued prims key e
  held : ∀ e ∈ log.events, e ∈ logged

/-- Opening a storage takes its number and its hash over. -/
theorem stands_opened {backend : WORMStorageBackend} {storage : Storage K}
    (saved : ∀ n, loadSequence storage = .ok n → 0 ≤ n) (savedHash : Hex64 (loadHash storage))
    (issued : ∀ e ∈ logged, Issued prims key e)
    (opened : WORMAuditLog.new backend key storage = .ok log) : Stands prims key logged log := by
  obtain ⟨-, n, hn, rfl⟩ := new_eq_ok.mp opened
  exact ⟨rfl, saved n hn, savedHash, saved, savedHash, issued, by simp⟩

/-- An append signs one more event and saves its number and its hash. -/
theorem Stands.append (digest : ∀ text, Hex64 (prims.sha256 text)) {writes : Writes K}
    {event : AuditEvent K} (h : Stands prims key logged log)
    (appended : (append prims writes event).run log = (.ok e, log')) :
    Stands prims key (logged ++ [e]) log' := by
  obtain ⟨eventJson, hjson, rfl, rfl⟩ := append_ok appended
  have sequence := h.sequence
  have number : 1 ≤ log.sequence + 1 := by omega
  have issued : Issued prims key (signedEvent prims log event eventJson) :=
    ⟨⟨eventJson, hjson, rfl, by rw [← h.secretKey]; rfl⟩, h.previousHash, number⟩
  constructor
  · exact h.secretKey
  · exact zero_le_one.trans number
  · exact digest eventJson
  · intro n hn
    rw [loadSequence_toString (zero_le_one.trans number) rfl] at hn
    exact Except.ok.inj hn ▸ zero_le_one.trans number
  · change Hex64 (stripped (prims.sha256 eventJson))
    rw [stripped_hex (digest eventJson).2]
    exact digest eventJson
  · intro e he
    rcases List.mem_append.mp he with he | he
    · exact h.issued e he
    · exact List.mem_singleton.mp he ▸ issued
  · intro e he
    rcases List.mem_append.mp he with he | he
    · exact List.mem_append_left _ (h.held e he)
    · exact List.mem_append_right _ he

theorem Built.stands (digest : ∀ text, Hex64 (prims.sha256 text))
    (built : Built prims key logged log) : Stands prims key logged log := by
  induction built with
  | opened opened =>
    apply stands_opened _ _ (by simp) opened
    · intro n hn
      obtain rfl := Except.ok.inj hn
      exact le_rfl
    · exact hex64_initialHash
  | append built appended ih => exact ih.append digest appended
  | restart built opened ih => exact stands_opened ih.saved ih.savedHash ih.issued opened

end Built

section Checks

/-- An event of the log with any of its recorded fields, its own hash, the hash before it and
its signature changed: the hash before to 64 hexadecimal digits, the signature to one that the
log issued. -/
structure Alteration (logged : List (WORMEvent K)) (e e' : WORMEvent K) : Prop where
  number : e'.sequenceNumber = e.sequenceNumber
  previousHash : e'.previousHash = e.previousHash ∨ Hex64 e'.previousHash
  signature : e'.signature ∈ logged.map (·.signature)

/-- The event says what one logged event says, under the same hashes and signature. -/
def Genuine (logged : List (WORMEvent K)) (e : WORMEvent K) : Prop :=
  ∃ o ∈ logged, SameData e.toEventData o.toEventData ∧ e.eventHash = o.eventHash ∧
    e.previousHash = o.previousHash ∧ e.signature = o.signature

/-- `_verify_event` answers True. -/
def passes (prims : Primitives K) (key : String) (e : WORMEvent K) : Bool :=
  match verifyEvent prims key e with
  | .ok b => b
  | .error _ => false

theorem verifyEvent_text {text : String} (h : prims.dumps e.toEventData = .ok text) :
    verifyEvent prims key e = .ok (decide (prims.sha256 text = e.eventHash ∧
      prims.hmac key (e.previousHash ++ text) = e.signature)) := by
  unfold verifyEvent
  rw [h]
  change (if prims.sha256 text ≠ e.eventHash then pure false
    else pure (decide (prims.hmac key (e.previousHash ++ text) = e.signature))) = Except.ok _
  by_cases hhash : prims.sha256 text = e.eventHash
  · rw [if_neg (not_not.mpr hhash)]
    simp only [hhash, true_and]
    rfl
  · rw [if_pos hhash]
    simp only [hhash, false_and, decide_false]
    rfl

theorem passes_text {text : String} (h : prims.dumps e.toEventData = .ok text) :
    passes prims key e = true ↔ prims.sha256 text = e.eventHash ∧
      prims.hmac key (e.previousHash ++ text) = e.signature := by
  rw [passes, verifyEvent_text h]
  exact decide_eq_true_iff

/-- HMAC tells the signed texts of the events apart, as it does if it is injective. -/
def CollisionFree (prims : Primitives K) (key : String) (events : List (WORMEvent K)) : Prop :=
  ∀ e ∈ events, ∀ o ∈ events, ∀ text text', prims.dumps e.toEventData = .ok text →
    prims.dumps o.toEventData = .ok text' →
    prims.hmac key (e.previousHash ++ text) = prims.hmac key (o.previousHash ++ text') →
    e.previousHash ++ text = o.previousHash ++ text'

/-- A signature that was issued for one event fits no other: its text fixes the previous hash,
which has 64 digits, and with it the recorded fields. -/
theorem passes_iff {events : List (WORMEvent K)}
    (json : Serializes prims (events.map (·.toEventData))) (hmac : CollisionFree prims key events)
    (issued : ∀ o ∈ logged, Issued prims key o) (known : ∀ o ∈ logged, o ∈ events)
    (he : e ∈ events) (previousHash : Hex64 e.previousHash)
    (signature : e.signature ∈ logged.map (·.signature)) :
    passes prims key e = true ↔ Genuine logged e := by
  have same : ∀ o ∈ logged, prims.dumps e.toEventData = prims.dumps o.toEventData ↔
      SameData e.toEventData o.toEventData := fun o ho =>
    json.injective _ (List.mem_map_of_mem he) _ (List.mem_map_of_mem (known o ho))
  obtain ⟨text, htext⟩ := json.total _ (List.mem_map_of_mem he)
  rw [passes_text htext]
  constructor
  · rintro ⟨hhash, hsignature⟩
    obtain ⟨o, ho, hissued⟩ := List.mem_map.mp signature
    obtain ⟨eventJson, hjson, hash, signed⟩ := (issued o ho).signed
    have length : e.previousHash.length = o.previousHash.length :=
      previousHash.1.trans (issued o ho).previousHash.1.symm
    have texts : e.previousHash ++ text = o.previousHash ++ eventJson := by
      apply hmac e he o (known o ho) text eventJson htext hjson
      rw [hsignature, ← signed, hissued]
    obtain ⟨hprevious, rfl⟩ := append_injective length texts
    refine ⟨o, ho, (same o ho).mp (htext.trans hjson.symm), ?_, hprevious, hissued.symm⟩
    rw [← hhash, hash]
  · rintro ⟨o, ho, hsame, hash, hprevious, hsignature⟩
    obtain ⟨eventJson, hjson, signedHash, signed⟩ := (issued o ho).signed
    have texts := (same o ho).mpr hsame
    rw [htext, hjson] at texts
    obtain rfl := Except.ok.inj texts
    rw [hash, hprevious, hsignature]
    exact ⟨signedHash.symm, signed.symm⟩

end Checks

section Reports

theorem check_passed (report : Report) (e : WORMEvent K) : report.check e true =
    { report with
      eventsChecked := report.eventsChecked + 1
      eventsValid := report.eventsValid + 1 } := rfl

theorem check_failed {report : Report} (first : report.firstFailure ≠ some 0) (e : WORMEvent K) :
    report.check e false =
      { report with
        valid := false
        eventsChecked := report.eventsChecked + 1
        firstFailure := report.firstFailure.or (some e.sequenceNumber) } := by
  unfold Report.check
  rw [if_neg Bool.false_ne_true]
  cases hfirst : report.firstFailure with
  | none => rfl
  | some n =>
    have hn : ¬ (some n = none ∨ some n = some (0 : ℤ)) := by
      rintro (h | h)
      · cases h
      · exact first (hfirst.trans h)
    rw [if_neg hn]
    rfl

/-- The report, once it also counts `events` and names the first of them that fails. -/
def reportAfter (passed : WORMEvent K → Bool) (events : List (WORMEvent K)) (report : Report) :
    Report where
  valid := report.valid && events.all passed
  eventsChecked := report.eventsChecked + events.length
  eventsValid := report.eventsValid + events.countP passed
  firstFailure := report.firstFailure.or ((events.find? fun e => !passed e).map (·.sequenceNumber))

/-- Numbers other than 0 are kept as the first failure. -/
theorem verifyLoop_report {events : List (WORMEvent K)}
    (total : ∀ e ∈ events, ∃ text, prims.dumps e.toEventData = .ok text)
    (numbers : ∀ e ∈ events, e.sequenceNumber ≠ 0) {report : Report}
    (first : report.firstFailure ≠ some 0) :
    verifyLoop prims key events report =
      .ok (reportAfter (passes prims key) events report) := by
  induction events generalizing report with
  | nil => simp [verifyLoop, reportAfter]
  | cons e rest ih =>
    obtain ⟨text, htext⟩ := total e List.mem_cons_self
    have verified : verifyEvent prims key e = .ok (passes prims key e) := by
      rw [passes, verifyEvent_text htext]
    have later : ∀ report : Report, report.firstFailure ≠ some 0 →
        verifyLoop prims key rest report = .ok (reportAfter (passes prims key) rest report) :=
      fun report first => ih (fun e he => total e (List.mem_cons_of_mem _ he))
        (fun e he => numbers e (List.mem_cons_of_mem _ he)) first
    rw [verifyLoop, verified]
    change verifyLoop prims key rest (report.check e (passes prims key e)) = _
    cases hpass : passes prims key e with
    | true =>
      have first' : (report.check e true).firstFailure ≠ some 0 := first
      rw [later _ first', check_passed]
      simp only [reportAfter, List.all_cons, hpass, Bool.true_and, List.length_cons,
        List.countP_cons, if_true, List.find?_cons, Bool.not_true, Except.ok.injEq,
        Report.mk.injEq, true_and, and_true]
      omega
    | false =>
      have first' : (report.check e false).firstFailure ≠ some 0 := by
        rw [check_failed first]
        cases hfirst : report.firstFailure with
        | none => exact fun h => numbers e List.mem_cons_self (Option.some.inj h)
        | some n =>
          rw [hfirst] at first
          exact first
      rw [later _ first', check_failed first]
      simp only [reportAfter, List.all_cons, hpass, Bool.false_and, Bool.and_false,
        List.length_cons, List.countP_cons, Bool.false_eq_true, if_false, List.find?_cons,
        Bool.not_false, Except.ok.injEq, Report.mk.injEq, true_and, Option.map_some]
      refine ⟨by omega, by omega, ?_⟩
      cases report.firstFailure with
      | none => rfl
      | some n => rfl

end Reports

/-- Whatever is altered, an event passes exactly when it is a logged one, and the report counts
what passes and names the first event that does not. -/
theorem Built.tampering_detected (digest : ∀ text, Hex64 (prims.sha256 text))
    (built : Built prims key logged log) {altered : List (WORMEvent K)}
    (alteration : List.Forall₂ (Alteration logged) log.events altered)
    (json : Serializes prims ((logged ++ altered).map (·.toEventData)))
    (hmac : CollisionFree prims key (logged ++ altered)) :
    (∀ e ∈ altered, passes prims key e = true ↔ Genuine logged e) ∧
    ∃ report, verifyIntegrity prims (withEvents log altered) = .ok report ∧
      (report.valid = true ↔ ∀ e ∈ altered, passes prims key e = true) ∧
      report.eventsChecked = altered.length ∧
      report.eventsValid = altered.countP (passes prims key) ∧
      report.firstFailure =
        (altered.find? fun e => !passes prims key e).map (·.sequenceNumber) := by
  have stands := built.stands digest
  have origin : ∀ e ∈ altered, ∃ o ∈ logged, Alteration logged o e := by
    intro e he
    obtain ⟨hlength, hget⟩ := List.forall₂_iff_get.mp alteration
    obtain ⟨i, rfl⟩ := List.mem_iff_get.mp he
    have hi : i.1 < log.events.length := hlength.symm ▸ i.2
    exact ⟨_, stands.held _ (List.get_mem _ _), hget i hi i.2⟩
  constructor
  · intro e he
    obtain ⟨o, ho, halt⟩ := origin e he
    have previousHash : Hex64 e.previousHash := by
      rcases halt.previousHash with hsame | hex
      · exact hsame ▸ (stands.issued o ho).previousHash
      · exact hex
    exact passes_iff json hmac stands.issued (fun o ho => List.mem_append_left _ ho)
      (List.mem_append_right _ he) previousHash halt.signature
  · have numbers : ∀ e ∈ altered, e.sequenceNumber ≠ 0 := by
      intro e he
      obtain ⟨o, ho, halt⟩ := origin e he
      have := (stands.issued o ho).number
      rw [halt.number]
      omega
    have total : ∀ e ∈ altered, ∃ text, prims.dumps e.toEventData = .ok text := fun e he =>
      json.total _ (List.mem_map_of_mem (List.mem_append_right _ he))
    have loop : verifyIntegrity prims (withEvents log altered) =
        .ok (reportAfter (passes prims key) altered ⟨true, 0, 0, none⟩) := by
      rw [verifyIntegrity, withEvents, stands.secretKey]
      exact verifyLoop_report total numbers (by simp)
    refine ⟨_, loop, ?_, Nat.zero_add _, Nat.zero_add _, Option.none_or⟩
    rw [reportAfter, Bool.true_and]
    exact List.all_eq_true

/-! The outcome of the one logged event is changed. -/

def jsonHead : String :=
  "\x7b\"action\": \"execute\", \"actor\": \"system\", \"agent_id\": \"agent_1\", " ++
  "\"event_id\": \"evt_1\", \"event_type\": \"ToolCalledEvent\", \"metadata\": \x7b\x7d, " ++
  "\"outcome\": \""

def jsonTail : String :=
  "\", \"resource\": \"/tmp/file\", \"session_id\": \"session_1\", " ++
  "\"timestamp\": \"1970-01-01T00:00:00+00:00\", \"tool_name\": \"fs.read\"\x7d"

def jsonText (outcome : String) : String := jsonHead ++ (outcome ++ jsonTail)

@[irreducible] def sampleSha256 (text : String) : String :=
  if text = jsonText "success" then
    "81cfefe0841a6f679734185ea0e112daddb0d1eca5e069ace3fafb6861042c54"
  else "d5082a0d1b3f984ed9d399cc11ecc99fcef021f4f20b9f7fd59754fced703d4e"

@[irreducible] def sampleHmac (text : String) : String :=
  if text = initialHash ++ jsonText "success" then
    "8455b8ad6642b08e51cb59a895eaee28d42dac14b7ee83213e4365cf2a771a1a"
  else "b442bf4900394b76ffda567a43516ff22a2733a0a941bca0d4d97cf071d48242"

def samplePrims : Primitives ℤ where
  isoformat _ := "1970-01-01T00:00:00+00:00"
  dumps data := .ok (jsonText data.outcome)
  sha256 := sampleSha256
  hmac _ := sampleHmac

theorem jsonText_injective {a b : String} (h : jsonText a = jsonText b) : a = b := by
  have hlist := congrArg String.toList (append_injective rfl h).2
  rw [String.toList_append, String.toList_append] at hlist
  exact String.toList_inj.mp (List.append_cancel_right hlist)

theorem hex64_of_all {text : String} (length : text.length = 64)
    (hex : (text.toList.all fun c => "0123456789abcdef".toList.contains c) = true) : Hex64 text :=
  ⟨length, fun c hc => List.contains_iff_mem.mp (List.all_eq_true.mp hex c hc)⟩

theorem samplePrims_hex64 (text : String) : Hex64 (samplePrims.sha256 text) := by
  change Hex64 (sampleSha256 text)
  unfold sampleSha256
  split_ifs
  · exact hex64_of_all rfl rfl
  · exact hex64_of_all rfl rfl

def loggedEvent : WORMEvent ℤ :=
  signedEvent samplePrims sampleStart (sampleEvent "evt_1") (jsonText "success")

def forgedEvent : WORMEvent ℤ := { loggedEvent with outcome := "failure" }

theorem forged_differs : jsonText forgedEvent.outcome ≠ jsonText loggedEvent.outcome := by
  intro h
  exact absurd (jsonText_injective h) (by decide)

theorem forged_serializes :
    Serializes samplePrims ([loggedEvent, forgedEvent].map (·.toEventData)) := by
  constructor
  · exact fun d hd => ⟨_, rfl⟩
  · intro d hd d' hd'
    rcases List.mem_pair.mp hd with rfl | rfl <;> rcases List.mem_pair.mp hd' with rfl | rfl
    · exact iff_of_true rfl (sameData_refl _)
    · refine iff_of_false (fun h => forged_differs (Except.ok.inj h).symm) ?_
      rintro ⟨-, -, -, -, -, -, -, -, houtcome, -⟩
      exact forged_differs (congrArg jsonText houtcome.symm)
    · refine iff_of_false (fun h => forged_differs (Except.ok.inj h)) ?_
      rintro ⟨-, -, -, -, -, -, -, -, houtcome, -⟩
      exact forged_differs (congrArg jsonText houtcome)
    · exact iff_of_true rfl (sameData_refl _)

theorem sampleHmac_logged : sampleHmac (initialHash ++ jsonText "success") =
    "8455b8ad6642b08e51cb59a895eaee28d42dac14b7ee83213e4365cf2a771a1a" := by
  unfold sampleHmac
  exact if_pos rfl

theorem sampleHmac_forged : sampleHmac (initialHash ++ jsonText "failure") =
    "b442bf4900394b76ffda567a43516ff22a2733a0a941bca0d4d97cf071d48242" := by
  unfold sampleHmac
  exact if_neg fun h => forged_differs (append_injective rfl h).2

theorem forged_noCollision (key : String) :
    CollisionFree samplePrims key [loggedEvent, forgedEvent] := by
  intro e he o ho text text' htext htext' h
  obtain rfl := Except.ok.inj htext
  obtain rfl := Except.ok.inj htext'
  rcases List.mem_pair.mp he with rfl | rfl <;> rcases List.mem_pair.mp ho with rfl | rfl
  · rfl
  · exact absurd (sampleHmac_logged.symm.trans (h.trans sampleHmac_forged)) (by decide)
  · exact absurd (sampleHmac_logged.symm.trans (h.symm.trans sampleHmac_forged)) (by decide)
  · rfl

theorem tampering_detected_sample : ∃ log report,
    Built samplePrims "test-worm-secret-key" [loggedEvent] log ∧ log.events = [loggedEvent] ∧
    verifyIntegrity samplePrims (withEvents log [forgedEvent]) = .ok report ∧
    report.valid = false ∧ report.eventsValid = 0 ∧ report.firstFailure = some 1 := by
  have start : Built samplePrims "test-worm-secret-key" [] sampleStart := .opened rfl
  obtain ⟨log, appended⟩ : ∃ log, (append samplePrims ⟨.done, .done, .done⟩
      (sampleEvent "evt_1")).run sampleStart = (.ok loggedEvent, log) := ⟨_, rfl⟩
  have hevents : log.events = [loggedEvent] := by
    obtain ⟨-, -, -, rfl⟩ := append_ok appended
    rfl
  have alteration : List.Forall₂ (Alteration [loggedEvent]) log.events [forgedEvent] := by
    rw [hevents]
    exact .cons ⟨rfl, .inl rfl, List.mem_cons_self⟩ .nil
  obtain ⟨hpasses, report, hreport, hvalid, -, hcount, hfirst⟩ :=
    (start.append appended).tampering_detected samplePrims_hex64 alteration forged_serializes
      (forged_noCollision _)
  have rejected : passes samplePrims "test-worm-secret-key" forgedEvent = false := by
    rw [Bool.eq_false_iff, ne_eq, hpasses forgedEvent List.mem_cons_self]
    rintro ⟨o, ho, hsame, -⟩
    obtain rfl := List.mem_singleton.mp ho
    exact forged_differs (congrArg jsonText hsame.2.2.2.2.2.2.2.2.1)
  refine ⟨log, report, start.append appended, hevents, hreport, ?_, ?_, ?_⟩
  · rw [Bool.eq_false_iff, ne_eq, hvalid]
    intro h
    exact absurd (h forgedEvent List.mem_cons_self) (by simp [rejected])
  · rw [hcount, List.countP_cons, List.countP_nil, rejected]
    rfl
  · rw [hfirst, List.find?_cons, rejected]
    rfl

end TamperDetection
