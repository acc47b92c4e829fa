import SynapticBridge.WormRestarts

/-! Crashes of a local WORM log while an append writes its three files. The files it leaves
tell one story if the event file is incomplete, or if both side files tell of its event. -/
namespace WormCrash

open Domain OrderedDict WormAuditLog WormIntegrity WormStorage WormRestarts
open Procedures.Proc

variable {K : Type} {prims : Primitives K} {key : String} {events : List (WORMEvent K)}

section Crash

/-- A broken write leaves the old content, or the new one up to some point. -/
def Torn (event : WORMEvent K) (writes : Writes K) : Prop :=
  (∀ e left, writes.eventFile = .raised e (some left) → left = none ∨ left = some event) ∧
  (∀ e left, writes.sequenceFile = .raised e (some left) →
    left.toList <+: (toString event.sequenceNumber).toList) ∧
  (∀ e left, writes.lastHashFile = .raised e (some left) →
    left.toList <+: event.eventHash.toList)

/-- The event file is incomplete, or both side files tell of its event. `.last_hash` already
does where the event before has the same hash. -/
def Harmless (log : WORMAuditLog K) (event : WORMEvent K) (writes : Writes K) : Prop :=
  match writes.eventFile, writes.sequenceFile, writes.lastHashFile with
  | .raised _ left, _, _ => left ≠ some (some event)
  | .done, .raised _ left, _ =>
    left = some (toString event.sequenceNumber) ∧ event.eventHash = log.previousHash
  | .done, .done, .raised _ left =>
    left = some event.eventHash ∨ left = none ∧ event.eventHash = log.previousHash
  | .done, .done, .done => True

inductive Phase (K : Type) where
  | live (log : WORMAuditLog K)
  | stopped (storage : Storage K)

def Phase.storage : Phase K → Storage K
  | .live log => log.storage
  | .stopped storage => storage

/-- Successful appends, ends of the process and crashes during an append, on one storage path
that was empty at first; `allowed` says which crashes may happen. -/
inductive CrashRun (prims : Primitives K) (key : String)
    (allowed : WORMAuditLog K → WORMEvent K → Writes K → Prop) : Phase K → Prop where
  | opened {log : WORMAuditLog K}
      (opened : WORMAuditLog.new .local key ⟨.empty, none, none⟩ = .ok log) :
      CrashRun prims key allowed (.live log)
  | append {log log' : WORMAuditLog K} {writes : Writes K} {event : AuditEvent K}
      {e : WORMEvent K} (run : CrashRun prims key allowed (.live log))
      (appended : (append prims writes event).run log = (.ok e, log')) :
      CrashRun prims key allowed (.live log')
  | stop {log : WORMAuditLog K} (run : CrashRun prims key allowed (.live log)) :
      CrashRun prims key allowed (.stopped log.storage)
  | crash {log log' : WORMAuditLog K} {writes : Writes K} {event : AuditEvent K}
      {eventJson : String} {error : PyException} (run : CrashRun prims key allowed (.live log))
      (dumped : prims.dumps (eventData prims event) = .ok eventJson)
      (torn : Torn (signedEvent prims log event eventJson) writes)
      (may : allowed log (signedEvent prims log event eventJson) writes)
      (crashed : (WormAuditLog.append prims writes event).run log = (.error error, log')) :
      CrashRun prims key allowed (.stopped log'.storage)
  | reopened {storage : Storage K} {log : WORMAuditLog K}
      (run : CrashRun prims key allowed (.stopped storage))
      (opened : WORMAuditLog.new .local key storage = .ok log) :
      CrashRun prims key allowed (.live log)

/-- A new instance can be constructed, and the complete event files have distinct numbers and
link each to the one numbered one less. -/
structure Recoverable (key : String) (storage : Storage K) : Prop where
  opens : ∃ log, WORMAuditLog.new .local key storage = .ok log
  distinct : ∀ {name name' : String} {e e' : WORMEvent K},
    storage.eventFiles.get? name = some (some e) →
    storage.eventFiles.get? name' = some (some e') →
    e.sequenceNumber = e'.sequenceNumber → name = name'
  linked : ∀ {name : String} {e : WORMEvent K}, storage.eventFiles.get? name = some (some e) →
    e.sequenceNumber = 1 ∧ e.previousHash = initialHash ∨
    ∃ name' e', storage.eventFiles.get? name' = some (some e') ∧
      e'.sequenceNumber + 1 = e.sequenceNumber ∧ e.previousHash = e'.eventHash

end Crash

section Files

def Holds (events : List (WORMEvent K)) (files : Dict String (Option (WORMEvent K))) : Prop :=
  ∀ name e, files.get? name = some (some e) ↔ e ∈ events ∧ name = filename e

variable {files : Dict String (Option (WORMEvent K))} {e : WORMEvent K}

theorem holds_empty : Holds ([] : List (WORMEvent K)) .empty := by
  intro name e
  simp

theorem Holds.complete (h : Holds events files) (fresh : ∀ e' ∈ events, filename e' ≠ filename e) :
    Holds (events ++ [e]) (files.set (filename e) (some e)) := by
  intro name e'
  rw [Dict.get?_set, List.mem_append, List.mem_singleton]
  by_cases hname : name = filename e
  · rw [if_pos hname, Option.some_inj, Option.some_inj]
    constructor
    · rintro rfl
      exact ⟨.inr rfl, hname⟩
    · rintro ⟨he' | rfl, hname'⟩
      · exact absurd (hname'.symm.trans hname) (fresh e' he')
      · rfl
  · rw [if_neg hname, h name e']
    constructor
    · rintro ⟨he', hname'⟩
      exact ⟨.inl he', hname'⟩
    · rintro ⟨he' | rfl, hname'⟩
      · exact ⟨he', hname'⟩
      · exact absurd hname' hname

theorem Holds.incomplete (h : Holds events files)
    (fresh : ∀ e' ∈ events, filename e' ≠ filename e) :
    Holds events (files.set (filename e) none) := by
  intro name e'
  rw [Dict.get?_set]
  by_cases hname : name = filename e
  · rw [if_pos hname]
    constructor
    · intro hsome
      cases hsome
    · rintro ⟨he', hname'⟩
      exact absurd (hname'.symm.trans hname) (fresh e' he')
  · rw [if_neg hname, h name e']

theorem Holds.consistent {storage : Storage K} (h : Holds events storage.eventFiles)
    (chained : Chained events) (saved : Saved events storage) (nonempty : key ≠ "") :
    Recoverable key storage := by
  constructor
  · exact saved.opens nonempty
  · intro name name' e e' he he' same
    obtain ⟨hmem, rfl⟩ := (h name e).mp he
    obtain ⟨hmem', rfl⟩ := (h name' e').mp he'
    rw [chained.number_injective hmem hmem' same]
  · intro name e he
    rcases chained.previous ((h name e).mp he).1 with hfirst | ⟨e', he', hnumber, hhash⟩
    · exact .inl hfirst
    · exact .inr ⟨filename e', e', (h _ e').mpr ⟨he', rfl⟩, hnumber, hhash⟩

end Files

section Runs

variable {log log' : WORMAuditLog K} {writes : Writes K} {event : AuditEvent K}
  {eventJson : String} {error : PyException} {e : WORMEvent K}

def leftBy {α : Type} (store : α → Storage K → Storage K) (left : Option α)
    (storage : Storage K) : Storage K :=
  match left with
  | none => storage
  | some content => store content storage

theorem writeFile_error {α : Type} {ends : WriteEnd α} {store : α → Storage K → Storage K}
    {content : α} (h : (writeFile ends store content).run log = (.error error, log')) :
    ∃ left, ends = .raised error left ∧
      log' = { log with storage := leftBy store left log.storage } := by
  cases ends with
  | done => cases h
  | raised e left =>
    cases left with
    | none =>
      obtain ⟨he, rfl⟩ := Prod.mk.inj h
      obtain rfl := Except.error.inj he
      exact ⟨none, rfl, rfl⟩
    | some left =>
      obtain ⟨he, rfl⟩ := Prod.mk.inj h
      obtain rfl := Except.error.inj he
      exact ⟨some left, rfl, rfl⟩

theorem append_error (backend : log.backend = .local)
    (dumped : prims.dumps (eventData prims event) = .ok eventJson)
    (he : e = signedEvent prims log event eventJson)
    (crashed : (append prims writes event).run log = (.error error, log')) :
    (∃ left, writes.eventFile = .raised error left ∧ log'.storage =
      leftBy (fun content storage =>
        { storage with eventFiles := storage.eventFiles.set (filename e) content })
        left log.storage) ∨
    (writes.eventFile = .done ∧ ∃ left, writes.sequenceFile = .raised error left ∧
      log'.storage = leftBy (fun content storage =>
        { storage with sequenceFile := some content }) left (filed .local e log.storage)) ∨
    (writes.eventFile = .done ∧ writes.sequenceFile = .done ∧
      ∃ left, writes.lastHashFile = .raised error left ∧
      log'.storage = leftBy (fun content storage =>
        { storage with lastHashFile := some content }) left
        { filed .local e log.storage with
          sequenceFile := some (toString e.sequenceNumber) }) := by
  rw [append_run dumped he] at crashed
  rcases bind_eq_error.mp crashed with hwrite | ⟨_, _, hwrite, crashed⟩
  · rw [writeToStorage, bind_run, read_run, backend] at hwrite
    obtain ⟨left, hends, rfl⟩ := writeFile_error hwrite
    exact .inl ⟨left, hends, rfl⟩
  · rw [writeToStorage, bind_run, read_run, backend] at hwrite
    obtain ⟨hevent, rfl⟩ := writeFile_ok hwrite
    rw [bind_ok (modify_run _ _)] at crashed
    rcases bind_eq_error.mp crashed with hsequence | ⟨_, _, hsequence, crashed⟩
    · rw [saveSequence, bind_run, read_run] at hsequence
      obtain ⟨left, hends, rfl⟩ := writeFile_error hsequence
      exact .inr (.inl ⟨hevent, left, hends, rfl⟩)
    · rw [saveSequence, bind_run, read_run] at hsequence
      obtain ⟨hnumber, rfl⟩ := writeFile_ok hsequence
      rcases bind_eq_error.mp crashed with hlast | ⟨_, _, -, hreturn⟩
      · obtain ⟨left, hends, rfl⟩ := writeFile_error hlast
        subst he
        exact .inr (.inr ⟨hevent, hnumber, left, hends, rfl⟩)
      · cases hreturn

structure Consistent (events : List (WORMEvent K)) (storage : Storage K) : Prop where
  chained : Chained events
  saved : Saved events storage
  holds : Holds events storage.eventFiles

theorem AtEnd.completed (chained : Chained (events ++ [e]))
    (holds : Holds events log.storage.eventFiles) {storage : Storage K}
    (eventFiles : storage.eventFiles = (filed .local e log.storage).eventFiles)
    (sequence : storage.sequenceFile = some (toString e.sequenceNumber))
    (hash : loadHash storage = e.eventHash) : Consistent (events ++ [e]) storage := by
  have number : e.sequenceNumber = events.length + 1 := by
    have hlast : (events ++ [e])[events.length]? = some e := by simp
    exact chained.number hlast
  refine ⟨chained, ⟨?_, ?_⟩, ?_⟩
  · rw [loadSequence_toString (by omega) sequence, number, List.length_append]
    push_cast
    rfl
  · rw [hash, lastHash_snoc]
  · rw [eventFiles]
    exact holds.complete chained.filename_ne

theorem AtEnd.crash (hex : HexDigest prims) (atEnd : AtEnd key events log)
    (holds : Holds events log.storage.eventFiles)
    (dumped : prims.dumps (eventData prims event) = .ok eventJson)
    (torn : Torn (signedEvent prims log event eventJson) writes)
    (harmless : Harmless log (signedEvent prims log event eventJson) writes)
    (crashed : (append prims writes event).run log = (.error error, log')) :
    ∃ events', Consistent events' log'.storage := by
  have chained : Chained (events ++ [signedEvent prims log event eventJson]) :=
    atEnd.next event eventJson
  have oldHash : loadHash log.storage = log.previousHash :=
    atEnd.saved.hash.trans atEnd.previousHash.symm
  unfold Harmless at harmless
  rcases append_error atEnd.backend dumped rfl crashed with
    ⟨left, hends, hstorage⟩ | ⟨hevent, left, hends, hstorage⟩ |
    ⟨hevent, hnumber, left, hends, hstorage⟩
  · rw [hends] at harmless
    rw [hstorage]
    rcases left with _ | content
    · exact ⟨events, atEnd.chained, atEnd.saved, holds⟩
    · rcases torn.1 _ _ hends with rfl | rfl
      · exact ⟨events, atEnd.chained, atEnd.saved.congr rfl rfl,
          holds.incomplete chained.filename_ne⟩
      · exact absurd rfl harmless
  · rw [hevent, hends] at harmless
    obtain ⟨rfl, hhash⟩ := harmless
    rw [hstorage]
    refine ⟨_, AtEnd.completed chained holds rfl rfl ?_⟩
    rw [hhash, ← oldHash]
    rfl
  · rw [hevent, hnumber, hends] at harmless
    rw [hstorage]
    rcases harmless with rfl | ⟨rfl, hhash⟩
    · exact ⟨_, AtEnd.completed chained holds rfl rfl (stripped_sha256 hex eventJson)⟩
    · refine ⟨_, AtEnd.completed chained holds rfl rfl ?_⟩
      rw [hhash, ← oldHash]
      rfl

def Phase.Sound (key : String) : Phase K → Prop
  | .live log => ∃ events, AtEnd key events log ∧ Holds events log.storage.eventFiles
  | .stopped storage => ∃ events, Consistent events storage

theorem CrashRun.sound (hex : HexDigest prims) {phase : Phase K}
    (run : CrashRun prims key Harmless phase) : phase.Sound key := by
  induction run with
  | opened opened =>
    refine ⟨[], saved_initial.atEnd .nil opened, ?_⟩
    obtain ⟨-, n, -, rfl⟩ := new_eq_ok.mp opened
    exact holds_empty
  | @append log log' writes event e run appended ih =>
    obtain ⟨events, atEnd, holds⟩ := ih
    obtain ⟨atEnd', files⟩ := atEnd.append hex appended
    refine ⟨events ++ [e], atEnd', ?_⟩
    rw [files]
    exact holds.complete atEnd'.chained.filename_ne
  | stop run ih =>
    obtain ⟨events, atEnd, holds⟩ := ih
    exact ⟨events, atEnd.chained, atEnd.saved, holds⟩
  | crash run dumped torn may crashed ih =>
    obtain ⟨events, atEnd, holds⟩ := ih
    exact AtEnd.crash hex atEnd holds dumped torn may crashed
  | reopened run opened ih =>
    obtain ⟨events, chained, saved, holds⟩ := ih
    refine ⟨events, saved.atEnd chained opened, ?_⟩
    obtain ⟨-, n, -, rfl⟩ := new_eq_ok.mp opened
    exact holds

theorem CrashRun.key_nonempty {allowed : WORMAuditLog K → WORMEvent K → Writes K → Prop}
    {phase : Phase K} (run : CrashRun prims key allowed phase) : key ≠ "" := by
  induction run with
  | opened opened => exact (new_eq_ok.mp opened).1
  | append run appended ih => exact ih
  | stop run ih => exact ih
  | crash run dumped torn may crashed ih => exact ih
  | reopened run opened ih => exact ih

/-- While every crash is harmless, the log can always be constructed again, and the complete
event files form one chain with distinct numbers. -/
theorem CrashRun.recoverable (hex : HexDigest prims) {phase : Phase K}
    (run : CrashRun prims key Harmless phase) : Recoverable key phase.storage := by
  have sound := run.sound hex
  cases phase with
  | live log =>
    obtain ⟨events, atEnd, holds⟩ := sound
    exact holds.consistent atEnd.chained atEnd.saved run.key_nonempty
  | stopped storage =>
    obtain ⟨events, chained, saved, holds⟩ := sound
    exact holds.consistent chained saved run.key_nonempty

end Runs

/-! A process that is killed while or after it writes its event file, then restarted. -/

def killed : PyException := .other "KeyboardInterrupt" ""

theorem recoverable_sample : ∃ log name,
    CrashRun WormRestarts.samplePrims "test-worm-secret-key" Harmless (.live log) ∧
    log.storage.eventFiles.get? name = some none ∧
    Recoverable "test-worm-secret-key" log.storage := by
  have start : CrashRun WormRestarts.samplePrims "test-worm-secret-key" Harmless
      (.live sampleStart) := .opened rfl
  obtain ⟨log, crashed⟩ : ∃ log, (append WormRestarts.samplePrims
      ⟨.raised killed (some none), .done, .done⟩ (sampleEvent "evt_1")).run sampleStart =
        (.error killed, log) := ⟨_, rfl⟩
  obtain ⟨name, hname⟩ : ∃ name, log.storage.eventFiles.get? name = some none := by
    rcases append_error rfl rfl rfl crashed with
      ⟨left, hends, hstorage⟩ | ⟨hevent, -⟩ | ⟨hevent, -⟩
    · obtain ⟨-, rfl⟩ := WriteEnd.raised.inj hends
      rw [hstorage]
      exact ⟨_, Dict.get?_set_self _ _ _⟩
    · cases hevent
    · cases hevent
  have stopped := start.crash rfl (by simp [Torn]) (by simp [Harmless]) crashed
  obtain ⟨log', opened⟩ := (stopped.recoverable WormRestarts.samplePrims_hex).opens
  have live := stopped.reopened opened
  refine ⟨log', name, live, ?_, live.recoverable WormRestarts.samplePrims_hex⟩
  obtain ⟨-, n, -, rfl⟩ := new_eq_ok.mp opened
  exact hname

def firstEvent : WORMEvent ℤ := signedEvent WormIntegrity.samplePrims sampleStart
  (sampleEvent "evt_1") "action=execute event_id=evt_1 timestamp=0"

def reopenedLog : WORMAuditLog ℤ :=
  { sampleStart with storage := filed .local firstEvent sampleStart.storage }

def secondEvent : WORMEvent ℤ := signedEvent WormIntegrity.samplePrims reopenedLog
  (sampleEvent "evt_2") "action=execute event_id=evt_2 timestamp=0"

/-- Killed before `.sequence` is written, the restarted log gives the number out again. -/
theorem number_given_twice : ∃ phase,
    CrashRun WormIntegrity.samplePrims "test-worm-secret-key" (fun _ _ _ => True) phase ∧
    ¬ Recoverable "test-worm-secret-key" phase.storage := by
  have start : CrashRun WormIntegrity.samplePrims "test-worm-secret-key" (fun _ _ _ => True)
      (.live sampleStart) := .opened rfl
  obtain ⟨log, crashed, hstorage⟩ : ∃ log, (append WormIntegrity.samplePrims
      ⟨.done, .raised killed none, .done⟩ (sampleEvent "evt_1")).run sampleStart =
        (.error killed, log) ∧ log.storage = reopenedLog.storage := ⟨_, rfl, rfl⟩
  have stopped := start.crash rfl (by simp [Torn]) trivial crashed
  rw [hstorage] at stopped
  have opened : WORMAuditLog.new .local "test-worm-secret-key" reopenedLog.storage =
      .ok reopenedLog := rfl
  have reopened := stopped.reopened opened
  obtain ⟨log', appended, hfiles⟩ : ∃ log', (append WormIntegrity.samplePrims
      ⟨.done, .done, .done⟩ (sampleEvent "evt_2")).run reopenedLog = (.ok secondEvent, log') ∧
        log'.storage.eventFiles =
          (reopenedLog.storage.eventFiles.set (filename secondEvent) (some secondEvent)) :=
    ⟨_, rfl, rfl⟩
  refine ⟨_, reopened.append appended, ?_⟩
  intro recoverable
  have hnames : filename firstEvent ≠ filename secondEvent := by decide
  have hfirst : log'.storage.eventFiles.get? (filename firstEvent) = some (some firstEvent) := by
    rw [hfiles, Dict.get?_set_of_ne _ hnames]
    exact Dict.get?_set_self _ _ _
  have hsecond : log'.storage.eventFiles.get? (filename secondEvent) = some (some secondEvent) := by
    rw [hfiles]
    exact Dict.get?_set_self _ _ _
  exact hnames (recoverable.distinct hfirst hsecond rfl)

end WormCrash
