import SynapticBridge.CursorReader
import SynapticBridge.WormRestarts

/-! `WORMAuditLog.get_events`, and a reader who asks again and again for the events after the last
one seen, while the log grows and is restarted. -/
namespace WormReaders

open Domain OrderedDict WormAuditLog WormIntegrity WormStorage WormRestarts CursorReader

variable {K : Type}

section Queries

/-- `if criterion: results = [e for e in results if ...]`; an empty or zero one is none. -/
def narrow {α : Type} (criterion : Option α) (p : α → WORMEvent K → Bool)
    (results : List (WORMEvent K)) : List (WORMEvent K) :=
  match criterion with
  | none => results
  | some a => results.filter (p a)

def getEvents (log : WORMAuditLog K) (sessionId agentId : Option String)
    (startSeq endSeq : Option ℤ) : List (WORMEvent K) :=
  let results := log.events
  let results :=
    narrow (sessionId.filter (· ≠ "")) (fun session e => e.sessionId = some session) results
  let results := narrow (agentId.filter (· ≠ "")) (fun agent e => e.agentId = some agent) results
  let results := narrow (startSeq.filter (· ≠ 0)) (fun start e => start ≤ e.sequenceNumber) results
  narrow (endSeq.filter (· ≠ 0)) (fun last e => e.sequenceNumber ≤ last) results

def passes {α : Type} (criterion : Option α) (p : α → WORMEvent K → Bool) (e : WORMEvent K) :
    Bool :=
  criterion.all (p · e)

def wanted (sessionId agentId : Option String) (e : WORMEvent K) : Bool :=
  passes (sessionId.filter (· ≠ "")) (fun session e => e.sessionId = some session) e &&
    passes (agentId.filter (· ≠ "")) (fun agent e => e.agentId = some agent) e

def within (startSeq endSeq : Option ℤ) (e : WORMEvent K) : Bool :=
  passes (startSeq.filter (· ≠ 0)) (fun start e => start ≤ e.sequenceNumber) e &&
    passes (endSeq.filter (· ≠ 0)) (fun last e => e.sequenceNumber ≤ last) e

theorem narrow_eq {α : Type} (criterion : Option α) (p : α → WORMEvent K → Bool)
    (results : List (WORMEvent K)) :
    narrow criterion p results = results.filter (passes criterion p) := by
  cases criterion with
  | none => exact (List.filter_eq_self.mpr fun _ _ => rfl).symm
  | some a => rfl

theorem getEvents_eq (log : WORMAuditLog K) (sessionId agentId : Option String)
    (startSeq endSeq : Option ℤ) :
    getEvents log sessionId agentId startSeq endSeq =
      log.events.filter fun e => wanted sessionId agentId e && within startSeq endSeq e := by
  rw [getEvents, narrow_eq, narrow_eq, narrow_eq, narrow_eq, List.filter_filter, List.filter_filter,
    List.filter_filter]
  refine List.filter_congr fun e _ => ?_
  rw [wanted, within]
  ac_rfl

theorem getEvents_after (log : WORMAuditLog K) (sessionId agentId : Option String) {seen : ℤ}
    (nonneg : 0 ≤ seen) :
    getEvents log sessionId agentId (some (seen + 1)) none =
      unread (·.sequenceNumber) (wanted sessionId agentId) log.events seen := by
  rw [getEvents_eq, unread]
  refine List.filter_congr fun e _ => ?_
  have hstart : (some (seen + 1)).filter (fun n : ℤ => n ≠ 0) = some (seen + 1) := by
    rw [Option.filter_some, if_pos (by simp; omega)]
  rw [within, hstart]
  simp [passes]

end Queries

section Reading

variable {prims : Primitives K} {key : String} {sessionId agentId : Option String}
  {all read lost : List (WORMEvent K)} {log : WORMAuditLog K} {seen : ℤ}

/-- Successful appends, clean restarts and readings, in any order. The lists hold all events that
were appended, those the reader got, and those a restart took away unread. -/
inductive Reading (prims : Primitives K) (key : String) (sessionId agentId : Option String) :
    List (WORMEvent K) → WORMAuditLog K → List (WORMEvent K) → List (WORMEvent K) → ℤ → Prop where
  | opened {log : WORMAuditLog K}
      (opened : WORMAuditLog.new .local key ⟨.empty, none, none⟩ = .ok log) :
      Reading prims key sessionId agentId [] log [] [] 0
  | append {all read lost : List (WORMEvent K)} {log log' : WORMAuditLog K} {seen : ℤ}
      {writes : Writes K} {event : AuditEvent K} {e : WORMEvent K}
      (reading : Reading prims key sessionId agentId all log read lost seen)
      (appended : (append prims writes event).run log = (.ok e, log')) :
      Reading prims key sessionId agentId (all ++ [e]) log' read lost seen
  | restart {all read lost : List (WORMEvent K)} {log log' : WORMAuditLog K} {seen : ℤ}
      (reading : Reading prims key sessionId agentId all log read lost seen)
      (opened : WORMAuditLog.new .local key log.storage = .ok log') :
      Reading prims key sessionId agentId all log' read
        (lost ++ getEvents log sessionId agentId (some (seen + 1)) none) seen
  | poll {all read lost : List (WORMEvent K)} {log : WORMAuditLog K} {seen : ℤ}
      (reading : Reading prims key sessionId agentId all log read lost seen) :
      Reading prims key sessionId agentId all log
        (read ++ getEvents log sessionId agentId (some (seen + 1)) none) lost
        (lastNumber (·.sequenceNumber) seen
          (getEvents log sessionId agentId (some (seen + 1)) none))

theorem Reading.history (h : Reading prims key sessionId agentId all log read lost seen) :
    ∃ earlier own, earlier ++ own = all ∧ History prims key earlier own [] log := by
  induction h with
  | opened opened => exact ⟨[], [], rfl, .opened opened⟩
  | append _ appended ih =>
    obtain ⟨earlier, own, rfl, history⟩ := ih
    exact ⟨earlier, own ++ [_], (List.append_assoc _ _ _).symm, history.append appended⟩
  | restart _ opened ih =>
    obtain ⟨earlier, own, rfl, history⟩ := ih
    exact ⟨earlier ++ own, [], List.append_nil _, history.restart opened⟩
  | poll _ ih => exact ih

theorem ascending_of_chained {events : List (WORMEvent K)} (h : Chained events) :
    events.Pairwise fun a b => a.sequenceNumber < b.sequenceNumber := by
  rw [List.pairwise_iff_getElem]
  intro i j hi hj hij
  rw [h.number (List.getElem?_eq_getElem hi), h.number (List.getElem?_eq_getElem hj)]
  omega

theorem Reading.followed (hex : HexDigest prims)
    (h : Reading prims key sessionId agentId all log read lost seen) :
    0 ≤ seen ∧ Followed (·.sequenceNumber) (wanted sessionId agentId) log.events log.sequence
      all read lost seen := by
  induction h with
  | opened opened =>
    obtain ⟨-, n, hn, rfl⟩ := new_eq_ok.mp opened
    exact ⟨le_rfl, .start _ (Except.ok.inj hn ▸ le_rfl)⟩
  | append reading appended ih =>
    obtain ⟨eventJson, -, rfl, rfl⟩ := append_ok appended
    exact ⟨ih.1, ih.2.append (by simp [signedEvent])⟩
  | @restart all read lost log log' seen reading opened ih =>
    obtain ⟨earlier, own, hall, history⟩ := reading.history
    have hsequence := ((history.atEnd hex).saved.atEnd (history.atEnd hex).chained opened).sequence
    obtain ⟨-, n, -, rfl⟩ := new_eq_ok.mp opened
    rw [getEvents_after _ _ _ ih.1]
    refine ⟨ih.1, ?_⟩
    have hvanish := ih.2.vanish
    rw [(history.atEnd hex).sequence, ← hsequence] at hvanish
    exact hvanish
  | poll reading ih =>
    rw [getEvents_after _ _ _ ih.1]
    have hpoll := ih.2.poll
    refine ⟨?_, hpoll⟩
    rcases lastNumber_cases _ _ (unread WORMEvent.sequenceNumber _ _ _) with
      ⟨-, hlast⟩ | ⟨e, he, hlast⟩
    · rw [hlast]
      exact ih.1
    · rw [hlast]
      have := (mem_unread.mp he).2.2
      omega

/-- However appends, restarts and readings come, the reader gets events in the order of their
numbers and none twice: what it got, what it gets next and what restarts took away unread are
together the events it asks for, and without such a loss they are these events in order. -/
theorem Reading.once (hex : HexDigest prims)
    (h : Reading prims key sessionId agentId all log read lost seen) :
    let next := getEvents log sessionId agentId (some (seen + 1)) none
    (read ++ next).Pairwise (fun a b => a.sequenceNumber < b.sequenceNumber) ∧
    (read ++ lost ++ next).Perm (all.filter (wanted sessionId agentId)) ∧
    (lost = [] → read ++ next = all.filter (wanted sessionId agentId)) := by
  intro next
  obtain ⟨nonneg, followed⟩ := h.followed hex
  have hnext : next = unread (·.sequenceNumber) (wanted sessionId agentId) log.events seen :=
    getEvents_after _ _ _ nonneg
  rw [hnext]
  refine ⟨followed.read_ascending, followed.once, ?_⟩
  rintro rfl
  obtain ⟨earlier, own, rfl, history⟩ := h.history
  exact followed.complete (ascending_of_chained (history.atEnd hex).chained)

theorem Reading.once_sample : ∃ e e' log read seen,
    Reading WormRestarts.samplePrims "test-worm-secret-key" none none [e, e'] log read [] seen ∧
      read = [e] ∧ read ++ getEvents log none none (some (seen + 1)) none = [e, e'] := by
  obtain ⟨e, log, appended, hnumber, hevents⟩ : ∃ e log,
      (WormAuditLog.append WormRestarts.samplePrims ⟨.done, .done, .done⟩
        (sampleEvent "evt_1")).run sampleStart = (.ok e, log) ∧
      e.sequenceNumber = 1 ∧ log.events = [e] := ⟨_, _, rfl, rfl, rfl⟩
  have start : Reading WormRestarts.samplePrims "test-worm-secret-key" none none [] sampleStart
      [] [] 0 := .opened rfl
  have polled := (start.append appended).poll
  have hread : getEvents log none none (some (0 + 1)) none = [e] := by
    simp [getEvents_eq, hevents, wanted, within, passes, hnumber]
  have hrest : getEvents log none none (some (1 + 1)) none = [] := by
    simp [getEvents_eq, hevents, wanted, within, passes, hnumber]
  have hseen : lastNumber (·.sequenceNumber) 0 [e] = 1 := hnumber
  rw [hread, hseen] at polled
  obtain ⟨_, _, _, history⟩ := polled.history
  obtain ⟨log', opened⟩ :=
    (history.atEnd WormRestarts.samplePrims_hex).saved.opens history.key_nonempty
  have restarted := polled.restart opened
  rw [hrest] at restarted
  have hlocal : log'.backend = .local := by
    obtain ⟨-, n, -, rfl⟩ := new_eq_ok.mp opened
    rfl
  obtain ⟨e', log'', again⟩ := append_again hlocal
  have both := restarted.append again
  exact ⟨e, e', log'', [e], 1, both, rfl, (both.once WormRestarts.samplePrims_hex).2.2 rfl⟩

end Reading

section Windows

variable {prims : Primitives K} {key : String} {earlier own : List (WORMEvent K)}
  {altered : List String} {log : WORMAuditLog K}

theorem ascending_own (hex : HexDigest prims) (h : History prims key earlier own altered log) :
    log.events.Pairwise fun a b => a.sequenceNumber < b.sequenceNumber := by
  rw [h.remembers.2.1]
  exact (List.pairwise_append.mp (ascending_of_chained (h.atEnd hex).chained)).2.1

/-- Reading a log in windows of one size gives its events up to the end of the last window, in
order and each once. -/
theorem windows_read (hex : HexDigest prims) (h : History prims key earlier own altered log)
    (sessionId agentId : Option String) {size : ℕ} (positive : 0 < size) (count : ℕ) :
    ((List.range (count + 1)).flatMap fun i : ℕ => getEvents log sessionId agentId
      (some ((i * size : ℕ) + 1)) (some (((i + 1) * size : ℕ)))) =
      getEvents log sessionId agentId none (some (((count + 1) * size : ℕ))) := by
  have hend (n : ℕ) (hn : 0 < n) : (some (n : ℤ)).filter (fun n : ℤ => n ≠ 0) = some (n : ℤ) := by
    rw [Option.filter_some, if_pos (by simp; omega)]
  have hstart (n : ℕ) : (some ((n : ℤ) + 1)).filter (fun n : ℤ => n ≠ 0) = some ((n : ℤ) + 1) := by
    rw [Option.filter_some, if_pos (by simp; omega)]
  induction count with
  | zero =>
    rw [show List.range (0 + 1) = [0] from rfl, List.flatMap_singleton, getEvents_eq, getEvents_eq]
    refine List.filter_congr fun e he => ?_
    have hsize := hend ((0 + 1) * size) (by omega)
    rw [within, within, hstart, hsize]
    -- the numbers begin with one
    have hfirst : (1 : ℤ) ≤ e.sequenceNumber := by
      rw [h.remembers.2.1] at he
      obtain ⟨i, hi⟩ := List.mem_iff_getElem?.mp (List.mem_append_right earlier he)
      rw [(h.atEnd hex).chained.number hi]
      omega
    simp [passes, hfirst]
  | succ count ih =>
    rw [List.range_succ, List.flatMap_append, ih, List.flatMap_singleton]
    have hlater : (((count + 1) * size : ℕ) : ℤ) ≤ (((count + 1 + 1) * size : ℕ) : ℤ) := by
      exact_mod_cast Nat.mul_le_mul_right size (Nat.le_succ (count + 1))
    have hsplit := filter_split (wanted sessionId agentId) _ _ hlater (ascending_own hex h)
    have hhere := hend ((count + 1) * size) (Nat.mul_pos (Nat.succ_pos _) positive)
    have hlast := hend ((count + 1 + 1) * size) (Nat.mul_pos (Nat.succ_pos _) positive)
    have hnext := hstart ((count + 1) * size)
    simp only [getEvents_eq, within, hhere, hlast, hnext]
    exact hsplit

theorem windows_read_sample : ∃ e₁ e₂ e₃ log,
    History WormRestarts.samplePrims "test-worm-secret-key" [e₁] [e₂, e₃] [] log ∧
    getEvents log none none (some 1) (some 2) = [e₂] ∧
    getEvents log none none (some 3) (some 4) = [e₃] ∧
    ((List.range (1 + 1)).flatMap fun i : ℕ => getEvents log none none
      (some ((i * 2 : ℕ) + 1)) (some (((i + 1) * 2 : ℕ)))) =
      getEvents log none none none (some (((1 + 1) * 2 : ℕ))) := by
  obtain ⟨e₁, log₁, restarted⟩ := sample_restarted
  have hex := WormRestarts.samplePrims_hex
  obtain ⟨e₂, log₂, once⟩ := sample_append restarted (restarted.atEnd hex).backend
  obtain ⟨e₃, log, twice⟩ := sample_append once (once.atEnd hex).backend
  have hevents : log.events = [e₂, e₃] := twice.remembers.2.1
  have hchained := (twice.atEnd hex).chained
  have hsecond : e₂.sequenceNumber = 2 := hchained.number (i := 1) rfl
  have hthird : e₃.sequenceNumber = 3 := hchained.number (i := 2) rfl
  refine ⟨e₁, e₂, e₃, log, twice, ?_, ?_, windows_read hex twice none none (by decide) 1⟩
  · simp [getEvents_eq, hevents, wanted, within, passes, hsecond, hthird]
  · simp [getEvents_eq, hevents, wanted, within, passes, hsecond, hthird]

end Windows

end WormReaders
