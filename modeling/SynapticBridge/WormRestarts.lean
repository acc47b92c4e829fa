import SynapticBridge.WormStorage

/-! A local WORM log over restarts. The chain continues across instances, while each instance
verifies the events of its own memory and never reads an event file. -/
namespace WormRestarts

open Domain OrderedDict WormAuditLog WormIntegrity WormStorage

variable {K : Type} {prims : Primitives K} {key : String}
  {earlier own : List (WORMEvent K)} {altered : List String} {log : WORMAuditLog K}

/-- Successful appends and clean restarts on one storage path that was empty at first, and
event files altered from outside. The lists hold the events of earlier instances, those of
the current one and the names of the altered files. -/
inductive History (prims : Primitives K) (key : String) :
    List (WORMEvent K) → List (WORMEvent K) → List String → WORMAuditLog K → Prop where
  | opened {log : WORMAuditLog K}
      (opened : WORMAuditLog.new .local key ⟨.empty, none, none⟩ = .ok log) :
      History prims key [] [] [] log
  | append {earlier own : List (WORMEvent K)} {altered : List String} {log log' : WORMAuditLog K}
      {writes : Writes K} {event : AuditEvent K} {e : WORMEvent K}
      (history : History prims key earlier own altered log)
      (appended : (append prims writes event).run log = (.ok e, log')) :
      History prims key earlier (own ++ [e]) altered log'
  | alter {earlier own : List (WORMEvent K)} {altered : List String} {log : WORMAuditLog K}
      (history : History prims key earlier own altered log) (name : String)
      (content : Option (WORMEvent K)) :
      History prims key earlier own (name :: altered)
        { log with storage :=
          { log.storage with eventFiles := log.storage.eventFiles.set name content } }
  | restart {earlier own : List (WORMEvent K)} {altered : List String} {log log' : WORMAuditLog K}
      (history : History prims key earlier own altered log)
      (opened : WORMAuditLog.new .local key log.storage = .ok log') :
      History prims key (earlier ++ own) [] altered log'

theorem History.atEnd (hex : HexDigest prims) (h : History prims key earlier own altered log) :
    AtEnd key (earlier ++ own) log := by
  induction h with
  | opened opened => exact saved_initial.atEnd .nil opened
  | append history appended ih =>
    have atEnd := (ih.append hex appended).1
    rwa [List.append_assoc] at atEnd
  | alter history name content ih =>
    obtain ⟨backend, secretKey, chained, sequence, previousHash, saved⟩ := ih
    exact ⟨backend, secretKey, chained, sequence, previousHash, saved.congr rfl rfl⟩
  | restart history opened ih =>
    rw [List.append_nil]
    exact ih.saved.atEnd ih.chained opened

theorem History.key_nonempty (h : History prims key earlier own altered log) : key ≠ "" := by
  induction h with
  | opened opened => exact (new_eq_ok.mp opened).1
  | append history appended ih => exact ih
  | alter history name content ih => exact ih
  | restart history opened ih => exact ih

theorem History.remembers (h : History prims key earlier own altered log) :
    log.secretKey = key ∧ log.events = own ∧ ∀ e ∈ own, verifyEvent prims key e = .ok true := by
  induction h with
  | opened opened =>
    obtain ⟨-, n, -, rfl⟩ := new_eq_ok.mp opened
    exact ⟨rfl, rfl, by simp⟩
  | append history appended ih =>
    obtain ⟨secretKey, events, verifies⟩ := ih
    obtain ⟨eventJson, hjson, rfl, rfl⟩ := append_ok appended
    refine ⟨secretKey, by rw [events], ?_⟩
    intro e he
    rcases List.mem_append.mp he with he | he
    · exact verifies e he
    · obtain rfl := List.mem_singleton.mp he
      rw [← secretKey]
      exact verifyEvent_signed hjson _
  | alter history name content ih => exact ih
  | restart history opened ih =>
    obtain ⟨-, n, -, rfl⟩ := new_eq_ok.mp opened
    exact ⟨rfl, rfl, by simp⟩

theorem History.report (h : History prims key earlier own altered log) :
    verifyIntegrity prims log = .ok ⟨true, own.length, own.length, none⟩ := by
  obtain ⟨secretKey, events, verifies⟩ := h.remembers
  rw [verifyIntegrity, events, secretKey, verifyLoop_valid own verifies]
  simp

theorem History.entries (hex : HexDigest prims) (h : History prims key earlier own altered log)
    (untouched : altered = []) :
    log.storage.eventFiles.entries = (earlier ++ own).map fun e => (filename e, some e) := by
  induction h with
  | opened opened =>
    obtain ⟨-, n, -, rfl⟩ := new_eq_ok.mp opened
    rfl
  | @append earlier own altered log log' writes event e history appended ih =>
    have entries := ih untouched
    have atEnd := history.atEnd hex
    obtain ⟨atEnd', files⟩ := atEnd.append hex appended
    have fresh : filename e ∉ log.storage.eventFiles.entries.map Prod.fst := by
      rw [entries, List.map_map]
      intro hmem
      obtain ⟨e', he', hname⟩ := List.mem_map.mp hmem
      exact atEnd'.chained.filename_ne e' he' hname
    rw [files, ← List.append_assoc, List.map_append, ← entries]
    exact setEntries_of_notMem fresh (some e)
  | alter history name content ih => cases untouched
  | restart history opened ih =>
    obtain ⟨-, n, -, rfl⟩ := new_eq_ok.mp opened
    rw [List.append_nil]
    exact ih untouched

/-- Over any clean restarts the event files hold one chain, numbered from one without gaps,
every instance reports its own events valid, and the next restart succeeds. -/
theorem History.chain (hex : HexDigest prims) (h : History prims key earlier own [] log) :
    log.storage.eventFiles.entries = (earlier ++ own).map (fun e => (filename e, some e)) ∧
    (earlier ++ own).map (·.sequenceNumber) =
      (List.range (earlier ++ own).length).map (fun i : ℕ => (i : ℤ) + 1) ∧
    (∀ e : WORMEvent K, (earlier ++ own)[0]? = some e →
      e.previousHash = String.ofList (List.replicate 64 '0')) ∧
    (∀ (i : ℕ) (e e' : WORMEvent K), (earlier ++ own)[i]? = some e →
      (earlier ++ own)[i + 1]? = some e' → e'.previousHash = e.eventHash) ∧
    verifyIntegrity prims log = .ok ⟨true, own.length, own.length, none⟩ ∧
    ∃ log', WORMAuditLog.new .local key log.storage = .ok log' := by
  have atEnd := h.atEnd hex
  refine ⟨h.entries hex rfl, atEnd.chained.numbers, ?_, ?_, h.report, ?_⟩
  · intro e he
    exact atEnd.chained.first he
  · intro i e e' he he'
    exact atEnd.chained.link he he'
  · exact atEnd.saved.opens h.key_nonempty

/-- The report covers every event on the path, and tells when a file of an earlier instance
was altered, exactly if no earlier instance appended. -/
theorem History.covers_iff (h : History prims key earlier own altered log) :
    (∃ report, verifyIntegrity prims log = .ok report ∧
      report.eventsChecked = (earlier ++ own).length ∧
      ((∃ e ∈ earlier, log.storage.eventFiles.get? (filename e) ≠ some (some e)) →
        report.valid = false)) ↔ earlier = [] := by
  rw [h.report]
  constructor
  · rintro ⟨report, hreport, hchecked, -⟩
    obtain rfl := Except.ok.inj hreport
    simp only [List.length_append] at hchecked
    apply List.eq_nil_of_length_eq_zero
    omega
  · rintro rfl
    exact ⟨_, rfl, rfl, by simp⟩

/-! One event appended twice with a restart between; the digests are those of its text. -/

def samplePrims : Primitives ℤ where
  isoformat _ := "1970-01-01T00:00:00+00:00"
  dumps _ := .ok ("\x7b\"action\": \"execute\", \"actor\": \"system\", " ++
    "\"agent_id\": \"agent_1\", \"event_id\": \"evt_1\", \"event_type\": \"ToolCalledEvent\", " ++
    "\"metadata\": \x7b\x7d, \"outcome\": \"success\", \"resource\": \"/tmp/file\", " ++
    "\"session_id\": \"session_1\", \"timestamp\": \"1970-01-01T00:00:00+00:00\", " ++
    "\"tool_name\": \"fs.read\"\x7d")
  sha256 _ := "81cfefe0841a6f679734185ea0e112daddb0d1eca5e069ace3fafb6861042c54"
  hmac _ text :=
    if text.toList.head? = some '0' then
      "8455b8ad6642b08e51cb59a895eaee28d42dac14b7ee83213e4365cf2a771a1a"
    else "32effbfffab9044ef6b6d2da18b030653bc823c4268df53a1c86a023332d9385"

theorem samplePrims_hex : HexDigest samplePrims := by
  intro text
  change ∀ c ∈ "81cfefe0841a6f679734185ea0e112daddb0d1eca5e069ace3fafb6861042c54".toList,
    c ∈ "0123456789abcdef".toList
  simp

theorem append_again {log : WORMAuditLog ℤ} (backend : log.backend = .local) : ∃ e log',
    (append samplePrims ⟨.done, .done, .done⟩ (sampleEvent "evt_1")).run log = (.ok e, log') := by
  obtain ⟨_, key, n, hash, events, storage⟩ := log
  obtain rfl : _ = WORMStorageBackend.local := backend
  exact ⟨_, _, rfl⟩

theorem sample_append {earlier own : List (WORMEvent ℤ)} {altered : List String}
    {log : WORMAuditLog ℤ} (h : History samplePrims "test-worm-secret-key" earlier own altered log)
    (backend : log.backend = .local) :
    ∃ e log', History samplePrims "test-worm-secret-key" earlier (own ++ [e]) altered log' := by
  obtain ⟨e, log', appended⟩ := append_again backend
  exact ⟨e, log', h.append appended⟩

theorem sample_restarted : ∃ e log,
    History samplePrims "test-worm-secret-key" [e] [] [] log := by
  have start : History samplePrims "test-worm-secret-key" [] [] [] sampleStart := .opened rfl
  obtain ⟨e, log, first⟩ := sample_append start rfl
  obtain ⟨log', opened⟩ := (first.atEnd samplePrims_hex).saved.opens first.key_nonempty
  exact ⟨e, log', first.restart opened⟩

theorem chain_sample : ∃ e e' log,
    History samplePrims "test-worm-secret-key" [e] [e'] [] log ∧ e'.previousHash = e.eventHash ∧
    verifyIntegrity samplePrims log = .ok ⟨true, 1, 1, none⟩ := by
  obtain ⟨e, log, restarted⟩ := sample_restarted
  obtain ⟨e', log', twice⟩ := sample_append restarted (restarted.atEnd samplePrims_hex).backend
  obtain ⟨-, -, -, link, report, -⟩ := twice.chain samplePrims_hex
  exact ⟨e, e', log', twice, link 0 e e' rfl rfl, report⟩

theorem covers_iff_sample : ∃ e log, History samplePrims "test-worm-secret-key" [e] [] [] log ∧
    ((∃ report, verifyIntegrity samplePrims log = .ok report ∧ report.eventsChecked = 1 ∧
      ((∃ e' ∈ [e], log.storage.eventFiles.get? (filename e') ≠ some (some e')) →
        report.valid = false)) ↔ [e] = []) := by
  obtain ⟨e, log, restarted⟩ := sample_restarted
  exact ⟨e, log, restarted, restarted.covers_iff⟩

theorem restart_checks_nothing : ∃ e log altered,
    History samplePrims "test-worm-secret-key" [e] [] altered log ∧
    log.storage.eventFiles.get? (filename e) ≠ some (some e) ∧
    ¬ ∃ report, verifyIntegrity samplePrims log = .ok report ∧
      (report.eventsChecked = 1 ∨ report.valid = false) := by
  obtain ⟨e, log, restarted⟩ := sample_restarted
  have tampered := restarted.alter (filename e) none
  refine ⟨e, _, _, tampered, by simp, ?_⟩
  rintro ⟨report, hreport, hfails⟩
  rw [tampered.report] at hreport
  obtain rfl := Except.ok.inj hreport
  rcases hfails with hchecked | hvalid
  · cases hchecked
  · cases hvalid

end WormRestarts
