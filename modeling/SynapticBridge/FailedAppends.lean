import SynapticBridge.WormCrash

/-! Appends that raise. The number is taken before anything can fail, the event is kept before
it is filed, and the hash moves on only after that. -/
namespace FailedAppends

open Domain WormAuditLog WormIntegrity WormStorage WormCrash
open Procedures.Proc

variable {K : Type} {prims : Primitives K} {log log' : WORMAuditLog K} {writes : Writes K}
  {event : AuditEvent K} {result : Except PyException (WORMEvent K)}

/-- What an append does to the log, by the first thing that fails. -/
inductive Ends (prims : Primitives K) (log : WORMAuditLog K) (writes : Writes K)
    (event : AuditEvent K) : Except PyException (WORMEvent K) → WORMAuditLog K → Prop where
  | unserializable {error : PyException}
      (raised : prims.dumps (eventData prims event) = .error error) :
      Ends prims log writes event (.error error) { log with sequence := log.sequence + 1 }
  | unfiled {eventJson : String} {error : PyException} {left : Option (Option (WORMEvent K))}
      {storage : Storage K} (dumped : prims.dumps (eventData prims event) = .ok eventJson)
      (backend : log.backend = .local) (raised : writes.eventFile = .raised error left) :
      Ends prims log writes event (.error error)
        { log with
          sequence := log.sequence + 1
          events := log.events ++ [signedEvent prims log event eventJson]
          storage := storage }
  | unsaved {eventJson : String} {error : PyException} {storage : Storage K}
      (dumped : prims.dumps (eventData prims event) = .ok eventJson)
      (filed : log.backend = .local → writes.eventFile = .done)
      (raised : ¬ (writes.sequenceFile = .done ∧ writes.lastHashFile = .done)) :
      Ends prims log writes event (.error error)
        { log with
          sequence := log.sequence + 1
          previousHash := prims.sha256 eventJson
          events := log.events ++ [signedEvent prims log event eventJson]
          storage := storage }
  | recorded {eventJson : String} {storage : Storage K}
      (dumped : prims.dumps (eventData prims event) = .ok eventJson)
      (filed : log.backend = .local → writes.eventFile = .done)
      (saved : writes.sequenceFile = .done ∧ writes.lastHashFile = .done) :
      Ends prims log writes event (.ok (signedEvent prims log event eventJson))
        { log with
          sequence := log.sequence + 1
          previousHash := prims.sha256 eventJson
          events := log.events ++ [signedEvent prims log event eventJson]
          storage := storage }

/-- The event file is written, or raises as the first of the writes. -/
theorem writeToStorage_ends (writes : Writes K) (e : WORMEvent K) (log : WORMAuditLog K) :
    (∃ error left storage, log.backend = .local ∧ writes.eventFile = .raised error left ∧
      (writeToStorage writes e).run log = (.error error, { log with storage := storage })) ∨
    (log.backend = .local → writes.eventFile = .done) ∧
      ∃ storage, (writeToStorage writes e).run log = (.ok (), { log with storage := storage }) := by
  obtain ⟨backend, key, sequence, hash, events, storage⟩ := log
  rcases backend with _ | _ | _
  · rcases hrun : (writeToStorage writes e).run ⟨.local, key, sequence, hash, events, storage⟩
      with ⟨error | _, log'⟩
    · rw [writeToStorage, bind_run, read_run] at hrun
      obtain ⟨left, hends, rfl⟩ := writeFile_error hrun
      exact .inl ⟨error, left, _, rfl, hends, rfl⟩
    · rw [writeToStorage, bind_run, read_run] at hrun
      obtain ⟨hends, rfl⟩ := writeFile_ok hrun
      exact .inr ⟨fun _ => hends, _, rfl⟩
  · exact .inr ⟨fun h => (by cases h), storage, rfl⟩
  · exact .inr ⟨fun h => (by cases h), storage, rfl⟩

/-- The two side files are written, or one of them raises. -/
theorem sideFiles_ends (writes : Writes K) (e : WORMEvent K) (log : WORMAuditLog K) :
    ∃ result storage,
      (do
        saveSequence writes
        saveLastHash writes e.eventHash
        return e : Proc (WORMAuditLog K) (WORMEvent K)).run log =
          (result, { log with storage := storage }) ∧
      ((result = .ok e ∧ writes.sequenceFile = .done ∧ writes.lastHashFile = .done) ∨
        (∃ error, result = .error error) ∧
          ¬ (writes.sequenceFile = .done ∧ writes.lastHashFile = .done)) := by
  rcases hsequence : (saveSequence writes).run log with ⟨error | _, log₁⟩
  · rw [bind_error hsequence]
    rw [saveSequence, bind_run, read_run] at hsequence
    obtain ⟨left, hends, rfl⟩ := writeFile_error hsequence
    exact ⟨_, _, rfl, .inr ⟨⟨error, rfl⟩, by simp [hends]⟩⟩
  · rw [bind_ok hsequence]
    rw [saveSequence, bind_run, read_run] at hsequence
    obtain ⟨hnumber, rfl⟩ := writeFile_ok hsequence
    rcases hlast : (saveLastHash writes e.eventHash).run _ with ⟨error | _, log₂⟩
    · rw [bind_error hlast]
      obtain ⟨left, hends, rfl⟩ := writeFile_error hlast
      exact ⟨_, _, rfl, .inr ⟨⟨error, rfl⟩, by simp [hends]⟩⟩
    · rw [bind_ok hlast]
      obtain ⟨hhash, rfl⟩ := writeFile_ok hlast
      exact ⟨_, _, rfl, .inl ⟨rfl, hnumber, hhash⟩⟩

theorem append_ends (ran : (append prims writes event).run log = (result, log')) :
    Ends prims log writes event result log' := by
  rcases hdumps : prims.dumps (eventData prims event) with error | eventJson
  · have raised : (append prims writes event).run log =
        (.error error, { log with sequence := log.sequence + 1 }) := by
      unfold append
      rw [bind_ok (modify_run _ log)]
      exact bind_error (by rw [ofExcept_run, hdumps]) _
    obtain ⟨rfl, rfl⟩ := Prod.mk.inj (ran.symm.trans raised)
    exact .unserializable hdumps
  · rw [append_run hdumps rfl] at ran
    rcases writeToStorage_ends writes (signedEvent prims log event eventJson)
      { log with
        sequence := log.sequence + 1
        events := log.events ++ [signedEvent prims log event eventJson] } with
      ⟨error, left, storage, hbackend, hends, hrun⟩ | ⟨filed, storage, hrun⟩
    · rw [bind_error hrun] at ran
      obtain ⟨rfl, rfl⟩ := Prod.mk.inj ran
      exact .unfiled hdumps hbackend hends
    · rw [bind_ok hrun, bind_ok (modify_run _ _)] at ran
      obtain ⟨result', storage', hrun', hends⟩ := sideFiles_ends writes
        (signedEvent prims log event eventJson) _
      obtain ⟨rfl, rfl⟩ := Prod.mk.inj (ran.symm.trans hrun')
      rcases hends with ⟨rfl, saved⟩ | ⟨⟨error, rfl⟩, raised⟩
      · exact .recorded hdumps filed saved
      · exact .unsaved hdumps filed raised

/-- However an append ends, the next number is taken and the backend is the same. -/
theorem Ends.counted (h : Ends prims log writes event result log') :
    log'.sequence = log.sequence + 1 ∧ log'.backend = log.backend := by
  cases h with
  | unserializable raised => exact ⟨rfl, rfl⟩
  | unfiled dumped backend raised => exact ⟨rfl, rfl⟩
  | unsaved dumped filed raised => exact ⟨rfl, rfl⟩
  | recorded dumped filed saved => exact ⟨rfl, rfl⟩

section Links

/-- Numbered on from `n` without gap or repeat, the first event naming `hash` and each later
one the hash of the event before it. -/
def Linked : ℤ → String → List (WORMEvent K) → Prop
  | _, _, [] => True
  | n, hash, e :: rest =>
    e.sequenceNumber = n + 1 ∧ e.previousHash = hash ∧ Linked e.sequenceNumber e.eventHash rest

def endNumber (n : ℤ) (events : List (WORMEvent K)) : ℤ :=
  (events.getLast?.map (·.sequenceNumber)).getD n

def endHash (hash : String) (events : List (WORMEvent K)) : String :=
  (events.getLast?.map (·.eventHash)).getD hash

theorem linked_snoc {n : ℤ} {hash : String} {events : List (WORMEvent K)} {e : WORMEvent K}
    (linked : Linked n hash events) (number : e.sequenceNumber = endNumber n events + 1)
    (link : e.previousHash = endHash hash events) : Linked n hash (events ++ [e]) := by
  induction events generalizing n hash with
  | nil => exact ⟨number, link, trivial⟩
  | cons first rest ih =>
    obtain ⟨hnumber, hlink, hrest⟩ := linked
    refine ⟨hnumber, hlink, ih hrest ?_ ?_⟩
    · cases rest with
      | nil => exact number
      | cons second rest => exact number
    · cases rest with
      | nil => exact link
      | cons second rest => exact link

/-- The memory of the log stands at the end of its links. -/
structure Standing (n : ℤ) (hash : String) (log : WORMAuditLog K) : Prop where
  linked : Linked n hash log.events
  sequence : log.sequence = endNumber n log.events
  previousHash : log.previousHash = endHash hash log.events

/-- A new event that is kept with its number and its hash is the next link. -/
theorem Standing.next {n : ℤ} {hash eventJson : String} (h : Standing n hash log)
    (sequence : log'.sequence = log.sequence + 1)
    (previousHash : log'.previousHash = prims.sha256 eventJson)
    (events : log'.events = log.events ++ [signedEvent prims log event eventJson]) :
    Standing n hash log' := by
  constructor
  · rw [events]
    apply linked_snoc h.linked
    · rw [← h.sequence]
      rfl
    · rw [← h.previousHash]
      rfl
  · rw [events, sequence, endNumber, List.getLast?_concat]
    rfl
  · rw [events, previousHash, endHash, List.getLast?_concat]
    rfl

end Links

section Attempts

/-- One call of `append`, with how each of its writes would end. -/
structure Attempt (K : Type) where
  event : AuditEvent K
  writes : Writes K

def attempt (prims : Primitives K) (log : WORMAuditLog K) (a : Attempt K) : WORMAuditLog K :=
  ((append prims a.writes a.event).run log).2

/-- The log after the calls, whether they return or raise. -/
def attempts (prims : Primitives K) (log : WORMAuditLog K) (as : List (Attempt K)) :
    WORMAuditLog K :=
  as.foldl (attempt prims) log

/-- The event has JSON text, and a local backend writes its file. -/
def Fileable (prims : Primitives K) (backend : WORMStorageBackend) (a : Attempt K) : Prop :=
  (∃ eventJson, prims.dumps (eventData prims a.event) = .ok eventJson) ∧
    (backend = .local → a.writes.eventFile = .done)

/-- Nothing that the append calls raises. -/
def Writable (prims : Primitives K) (backend : WORMStorageBackend) (a : Attempt K) : Prop :=
  Fileable prims backend a ∧ a.writes.sequenceFile = .done ∧ a.writes.lastHashFile = .done

/-- If the append raises, the memory of the log is as before. -/
def Traceless (prims : Primitives K) (log : WORMAuditLog K) (a : Attempt K) : Prop :=
  ∀ error log', (append prims a.writes a.event).run log = (.error error, log') →
    log'.sequence = log.sequence ∧ log'.previousHash = log.previousHash ∧
      log'.events = log.events

variable {a : Attempt K} {as : List (Attempt K)}

theorem attempt_ends (prims : Primitives K) (log : WORMAuditLog K) (a : Attempt K) :
    ∃ result, Ends prims log a.writes a.event result (attempt prims log a) :=
  ⟨_, append_ends rfl⟩

theorem attempts_backend (prims : Primitives K) (log : WORMAuditLog K) (as : List (Attempt K)) :
    (attempts prims log as).backend = log.backend := by
  induction as generalizing log with
  | nil => rfl
  | cons a as ih =>
    obtain ⟨result, ends⟩ := attempt_ends prims log a
    exact (ih (attempt prims log a)).trans ends.counted.2

/-- The number is spent before anything can fail, so every failure leaves a trace. -/
theorem traceless_iff : Traceless prims log a ↔ Writable prims log.backend a := by
  rcases hrun : (append prims a.writes a.event).run log with ⟨result, log'⟩
  have ends := append_ends hrun
  constructor
  · intro traceless
    have spent := ends.counted.1
    have absurd_error : ∀ error, result ≠ .error error := by
      rintro error rfl
      have hsame := (traceless error log' hrun).1
      omega
    cases ends with
    | unserializable raised => exact absurd rfl (absurd_error _)
    | unfiled dumped backend raised => exact absurd rfl (absurd_error _)
    | unsaved dumped filed raised => exact absurd rfl (absurd_error _)
    | recorded dumped filed saved => exact ⟨⟨⟨_, dumped⟩, filed⟩, saved⟩
  · rintro ⟨⟨⟨eventJson, hdumps⟩, hfiled⟩, hsaved⟩ error log'' hrun'
    obtain ⟨rfl, rfl⟩ := Prod.mk.inj (hrun.symm.trans hrun')
    cases ends with
    | unserializable raised =>
      rw [hdumps] at raised
      cases raised
    | unfiled dumped backend raised =>
      rw [hfiled backend] at raised
      cases raised
    | unsaved dumped filed raised => exact absurd hsaved raised

/-- Only the side files can fail without breaking the links. -/
theorem Standing.attempt {n : ℤ} {hash : String} (h : Standing n hash log)
    (fileable : Fileable prims log.backend a) : Standing n hash (attempt prims log a) := by
  obtain ⟨result, ends⟩ := attempt_ends prims log a
  obtain ⟨⟨eventJson, hdumps⟩, hfiled⟩ := fileable
  generalize FailedAppends.attempt prims log a = log' at ends
  cases ends with
  | unserializable raised =>
    rw [hdumps] at raised
    cases raised
  | unfiled dumped backend raised =>
    rw [hfiled backend] at raised
    cases raised
  | unsaved dumped filed raised => exact h.next rfl rfl rfl
  | recorded dumped filed saved => exact h.next rfl rfl rfl

theorem Standing.attempts {n : ℤ} {hash : String} (h : Standing n hash log)
    (fileable : ∀ a ∈ as, Fileable prims log.backend a) :
    Standing n hash (attempts prims log as) := by
  induction as generalizing log with
  | nil => exact h
  | cons a as ih =>
    obtain ⟨result, ends⟩ := attempt_ends prims log a
    apply ih (h.attempt (fileable a List.mem_cons_self))
    intro a' ha'
    rw [ends.counted.2]
    exact fileable a' (List.mem_cons_of_mem _ ha')

/-- Appends leave no trace when they fail, and the links hold throughout, exactly when none of
them fails. The links alone also survive failures of the side files. -/
theorem appends_traceless_iff {backend : WORMStorageBackend} {key : String} {storage : Storage K}
    (opened : WORMAuditLog.new backend key storage = .ok log) (as : List (Attempt K)) :
    (((∀ pre a post, as = pre ++ a :: post → Traceless prims (attempts prims log pre) a) ∧
        ∀ pre, pre <+: as →
          Linked log.sequence log.previousHash (attempts prims log pre).events) ↔
      ∀ a ∈ as, Writable prims backend a) ∧
    ((∀ a ∈ as, Fileable prims backend a) → ∀ pre, pre <+: as →
      Linked log.sequence log.previousHash (attempts prims log pre).events) := by
  obtain ⟨-, n, -, rfl⟩ := new_eq_ok.mp opened
  have start : Standing n (loadHash storage)
      (⟨backend, key, n, loadHash storage, [], storage⟩ : WORMAuditLog K) := ⟨trivial, rfl, rfl⟩
  have links : (∀ a ∈ as, Fileable prims backend a) → ∀ pre, pre <+: as →
      Linked n (loadHash storage) (attempts prims
        ⟨backend, key, n, loadHash storage, [], storage⟩ pre).events :=
    fun fileable pre hpre => (start.attempts fun a ha => fileable a (hpre.subset ha)).linked
  refine ⟨⟨?_, ?_⟩, links⟩
  · rintro ⟨traceless, -⟩ a ha
    obtain ⟨pre, post, hsplit⟩ := List.append_of_mem ha
    have writable := traceless_iff.mp (traceless pre a post hsplit)
    rwa [attempts_backend] at writable
  · intro writable
    constructor
    · intro pre a post hsplit
      rw [traceless_iff, attempts_backend]
      exact writable a (by simp [hsplit])
    · exact links fun a ha => (writable a ha).1

end Attempts

/-! An append whose event file cannot be written, and one that returns. -/

def fullDisk : Attempt ℤ :=
  ⟨sampleEvent "evt_1", ⟨.raised (.other "OSError" "No space left on device") none, .done, .done⟩⟩

def written (eventId : String) : Attempt ℤ := ⟨sampleEvent eventId, ⟨.done, .done, .done⟩⟩

theorem sampleStart_opened :
    WORMAuditLog.new .local "test-worm-secret-key" ⟨.empty, none, none⟩ = .ok sampleStart := rfl

theorem appends_traceless_sample : Linked 0 initialHash
    (attempts samplePrims sampleStart [written "evt_1", written "evt_2"]).events := by
  refine ((appends_traceless_iff sampleStart_opened
    [written "evt_1", written "evt_2"]).1.mpr ?_).2 _ List.prefix_rfl
  intro a ha
  rcases List.mem_pair.mp ha with rfl | rfl
  · exact ⟨⟨⟨_, rfl⟩, fun _ => rfl⟩, rfl, rfl⟩
  · exact ⟨⟨⟨_, rfl⟩, fun _ => rfl⟩, rfl, rfl⟩

/-- The append that failed has spent its number and kept its event, and the next event does not
name its hash. -/
theorem failed_append_traced :
    WORMAuditLog.new .local "test-worm-secret-key" ⟨.empty, none, none⟩ = .ok sampleStart ∧
    ¬ Traceless samplePrims sampleStart fullDisk ∧
    ¬ Linked 0 initialHash
      (attempts samplePrims sampleStart [fullDisk, written "evt_2"]).events := by
  refine ⟨sampleStart_opened, ?_, ?_⟩
  · intro traceless
    have hsame := (traceless _ _ rfl).1
    cases hsame
  · rintro ⟨-, -, -, link, -⟩
    have hchars := congrArg String.toList link
    cases hchars

end FailedAppends
