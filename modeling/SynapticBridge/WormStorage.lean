import SynapticBridge.WormIntegrity
import Mathlib.Data.List.Induction

/-! The storage of a local WORM log. Events form a chain of numbers and hashes; the two side
files hold the end of the chain in print, and a restarted log reads it back. -/
namespace WormStorage

open Domain OrderedDict WormAuditLog WormIntegrity

variable {K : Type}

section Chain

/-- The hash that the next event names. -/
def lastHash (events : List (WORMEvent K)) : String :=
  (events.getLast?.map (·.eventHash)).getD initialHash

/-- Numbered from one without gaps, each event naming the hash of the one before. -/
inductive Chained : List (WORMEvent K) → Prop where
  | nil : Chained []
  | snoc {events : List (WORMEvent K)} {e : WORMEvent K} (chained : Chained events)
      (number : e.sequenceNumber = events.length + 1) (link : e.previousHash = lastHash events) :
      Chained (events ++ [e])

@[simp] theorem lastHash_nil : lastHash ([] : List (WORMEvent K)) = initialHash := rfl

@[simp] theorem lastHash_snoc (events : List (WORMEvent K)) (e : WORMEvent K) :
    lastHash (events ++ [e]) = e.eventHash := by
  simp [lastHash]

theorem Chained.number {events : List (WORMEvent K)} (h : Chained events) {i : ℕ}
    {e : WORMEvent K} (he : events[i]? = some e) : e.sequenceNumber = i + 1 := by
  induction h with
  | nil => simp at he
  | @snoc events last chained number link ih =>
    rw [List.getElem?_append] at he
    split_ifs at he with hi
    · exact ih he
    · rw [List.getElem?_singleton] at he
      split_ifs at he with hzero
      obtain rfl := Option.some.inj he
      rw [number]
      omega

theorem Chained.numbers {events : List (WORMEvent K)} (h : Chained events) :
    events.map (·.sequenceNumber) = (List.range events.length).map fun i : ℕ => (i : ℤ) + 1 := by
  apply List.ext_getElem?
  intro i
  rw [List.getElem?_map, List.getElem?_map]
  by_cases hi : i < events.length
  · rw [List.getElem?_eq_getElem hi, List.getElem?_range hi]
    exact congrArg some (h.number (List.getElem?_eq_getElem hi))
  · rw [List.getElem?_eq_none (by omega), List.getElem?_eq_none (by simpa using hi)]
    rfl

theorem Chained.first {events : List (WORMEvent K)} (h : Chained events) {e : WORMEvent K}
    (he : events[0]? = some e) : e.previousHash = initialHash := by
  induction h with
  | nil => simp at he
  | @snoc events last chained number link ih =>
    cases events with
    | nil =>
      obtain rfl := Option.some.inj he
      exact link
    | cons x xs => exact ih he

theorem Chained.link {events : List (WORMEvent K)} (h : Chained events) {i : ℕ}
    {e e' : WORMEvent K} (he : events[i]? = some e) (he' : events[i + 1]? = some e') :
    e'.previousHash = e.eventHash := by
  induction h with
  | nil => simp at he
  | @snoc events last chained number link ih =>
    rw [List.getElem?_append] at he he'
    split_ifs at he' with hi
    · rw [if_pos (by omega)] at he
      exact ih he he'
    · rw [List.getElem?_singleton] at he'
      split_ifs at he' with hzero
      obtain rfl := Option.some.inj he'
      rw [if_pos (by omega)] at he
      have hlast : events.getLast? = some e := by
        rw [List.getLast?_eq_getElem?, ← he]
        congr 1
        omega
      rw [link, lastHash, hlast]
      rfl

/-- Two events with one number are the same event. -/
theorem Chained.number_injective {events : List (WORMEvent K)} (h : Chained events)
    {e e' : WORMEvent K} (he : e ∈ events) (he' : e' ∈ events)
    (same : e.sequenceNumber = e'.sequenceNumber) : e = e' := by
  obtain ⟨i, hi⟩ := List.mem_iff_getElem?.mp he
  obtain ⟨j, hj⟩ := List.mem_iff_getElem?.mp he'
  have hnumber := h.number hi
  rw [same, h.number hj] at hnumber
  obtain rfl : j = i := by omega
  exact Option.some.inj (hi.symm.trans hj)

/-- The event before a given one, found by its number. -/
theorem Chained.previous {events : List (WORMEvent K)} (h : Chained events) {e : WORMEvent K}
    (he : e ∈ events) : e.sequenceNumber = 1 ∧ e.previousHash = initialHash ∨
      ∃ e' ∈ events, e'.sequenceNumber + 1 = e.sequenceNumber ∧
        e.previousHash = e'.eventHash := by
  obtain ⟨i, hi⟩ := List.mem_iff_getElem?.mp he
  cases i with
  | zero => exact .inl ⟨by simpa using h.number hi, h.first hi⟩
  | succ i =>
    have hlt := (List.getElem?_eq_some_iff.mp hi).1
    have hprevious := List.getElem?_eq_getElem (show i < events.length by omega)
    refine .inr ⟨events[i], List.getElem_mem _, ?_, h.link hprevious hi⟩
    rw [h.number hprevious, h.number hi]
    push_cast
    rfl

end Chain

section Names

theorem padded_toList (n : ℕ) : (padded n).toList =
    List.replicate (12 - (Nat.toDigits 10 n).length) '0' ++ Nat.toDigits 10 n := by
  have hdigits : (toString (n : ℤ).natAbs).toList = Nat.toDigits 10 n := Nat.toList_repr
  have hlength : (toString (n : ℤ).natAbs).length = (Nat.toDigits 10 n).length := by
    rw [← String.length_toList, hdigits]
  have hsign : ¬ ((n : ℤ) < 0) := by omega
  simp only [padded, if_neg hsign, String.toList_append, hdigits, hlength]
  simp

/-- The number is read off the padded text, whatever its width. -/
theorem padded_injective {m n : ℕ} (h : (padded m).toList = (padded n).toList) : m = n := by
  have hvalue := congrArg (fun cs => Nat.ofDigitChars 10 cs 0) h
  simpa [padded_toList, Nat.ofDigitChars_append] using hvalue

theorem underscore_notMem_padded (n : ℕ) : '_' ∉ (padded n).toList := by
  rw [padded_toList, List.mem_append, not_or]
  refine ⟨?_, Nat.underscore_not_in_toDigits⟩
  intro h
  have := (List.mem_replicate.mp h).2
  exact absurd this (by decide)

theorem append_cons_injective {α : Type} {a : α} {xs ys us vs : List α} (hxs : a ∉ xs)
    (hys : a ∉ ys) (h : xs ++ a :: us = ys ++ a :: vs) : xs = ys := by
  induction xs generalizing ys with
  | nil =>
    cases ys with
    | nil => rfl
    | cons y ys =>
      obtain ⟨rfl, -⟩ := List.cons.inj h
      exact absurd List.mem_cons_self hys
  | cons x xs ih =>
    cases ys with
    | nil =>
      obtain ⟨rfl, -⟩ := List.cons.inj h
      exact absurd List.mem_cons_self hxs
    | cons y ys =>
      rw [List.mem_cons, not_or] at hxs hys
      obtain ⟨rfl, htail⟩ := List.cons.inj h
      rw [ih hxs.2 hys.2 htail]

theorem filename_toList {e : WORMEvent K} {n : ℕ} (he : e.sequenceNumber = n) :
    (filename e).toList = (padded n).toList ++ '_' :: (e.eventId ++ ".json").toList := by
  have hname : filename e = padded n ++ "_" ++ e.eventId ++ ".json" := by
    rw [filename, he]
    rfl
  rw [hname, String.append_assoc, String.append_assoc, String.toList_append, String.toList_append]
  rfl

/-- A file name tells the number of its event. -/
theorem filename_number {e e' : WORMEvent K} {m n : ℕ} (he : e.sequenceNumber = m)
    (he' : e'.sequenceNumber = n) (h : filename e = filename e') : m = n := by
  have hlist := congrArg String.toList h
  rw [filename_toList he, filename_toList he'] at hlist
  apply padded_injective
  exact append_cons_injective (underscore_notMem_padded m) (underscore_notMem_padded n) hlist

/-- The next event of a chain is filed under a name of its own. -/
theorem Chained.filename_ne {events : List (WORMEvent K)} {e : WORMEvent K}
    (h : Chained (events ++ [e])) : ∀ e' ∈ events, filename e' ≠ filename e := by
  intro e' he' hname
  obtain ⟨i, hi⟩ := List.mem_iff_getElem?.mp he'
  have hlt := (List.getElem?_eq_some_iff.mp hi).1
  have number' : e'.sequenceNumber = (i + 1 : ℕ) := by
    have hmem : (events ++ [e])[i]? = some e' := by
      rw [List.getElem?_append_left hlt]
      exact hi
    rw [h.number hmem]
    push_cast
    rfl
  have number : e.sequenceNumber = (events.length + 1 : ℕ) := by
    have hlast : (events ++ [e])[events.length]? = some e := by simp
    rw [h.number hlast]
    push_cast
    rfl
  have := filename_number number' number hname
  omega

end Names

section SideFiles

/-- `hexdigest` prints hexadecimal digits. -/
def HexDigest (prims : Primitives K) : Prop :=
  ∀ text, ∀ c ∈ (prims.sha256 text).toList, c ∈ "0123456789abcdef".toList

theorem stripped_hex {text : String}
    (hex : ∀ c ∈ text.toList, c ∈ "0123456789abcdef".toList) : stripped text = text := by
  have solid : ∀ c ∈ "0123456789abcdef".toList, PythonText.isSpace c = false := by
    simp [PythonText.isSpace]
  rw [stripped, PythonText.strip_eq_self fun c hc => solid c (hex c hc), String.ofList_toList]

theorem stripped_sha256 {prims : Primitives K} (hex : HexDigest prims) (text : String) :
    stripped (prims.sha256 text) = prims.sha256 text := stripped_hex (hex text)

/-- The side files read back as the end of the chain. -/
structure Saved (events : List (WORMEvent K)) (storage : Storage K) : Prop where
  sequence : loadSequence storage = .ok (events.length : ℤ)
  hash : loadHash storage = lastHash events

theorem saved_initial : Saved [] (⟨.empty, none, none⟩ : Storage K) := ⟨rfl, rfl⟩

/-- A printed number reads back. -/
theorem loadSequence_toString {storage : Storage K} {n : ℤ} (nonneg : 0 ≤ n)
    (sequence : storage.sequenceFile = some (toString n)) : loadSequence storage = .ok n := by
  obtain ⟨m, rfl⟩ := Int.eq_ofNat_of_zero_le nonneg
  rw [loadSequence, sequence]
  simp only [PythonText.parseInt_toString]

theorem saved_of_files {events : List (WORMEvent K)} {storage : Storage K}
    (sequence : storage.sequenceFile = some (toString (events.length : ℤ)))
    (hash : storage.lastHashFile = some (lastHash events))
    (solid : stripped (lastHash events) = lastHash events) : Saved events storage := by
  constructor
  · exact loadSequence_toString (by omega) sequence
  · rw [loadHash, hash]
    exact solid

/-- Only the side files are read. -/
theorem Saved.congr {events : List (WORMEvent K)} {storage storage' : Storage K}
    (h : Saved events storage) (sequence : storage'.sequenceFile = storage.sequenceFile)
    (hash : storage'.lastHashFile = storage.lastHashFile) : Saved events storage' := by
  constructor
  · rw [loadSequence, sequence]
    exact h.sequence
  · rw [loadHash, hash]
    exact h.hash

theorem new_eq_ok {backend : WORMStorageBackend} {key : String} {storage : Storage K}
    {log : WORMAuditLog K} : WORMAuditLog.new backend key storage = .ok log ↔
      key ≠ "" ∧ ∃ n, loadSequence storage = .ok n ∧
        log = ⟨backend, key, n, loadHash storage, [], storage⟩ := by
  unfold WORMAuditLog.new
  by_cases hkey : key = ""
  · rw [if_pos hkey]
    constructor
    · intro h
      cases h
    · intro h
      exact absurd hkey h.1
  · rw [if_neg hkey]
    rcases hseq : loadSequence storage with e | n
    · constructor
      · intro h
        cases h
      · rintro ⟨-, n, hn, -⟩
        cases hn
    · constructor
      · intro h
        exact ⟨hkey, n, rfl, (Except.ok.inj h).symm⟩
      · rintro ⟨-, n', hn, rfl⟩
        obtain rfl := Except.ok.inj hn
        rfl

end SideFiles

section Live

/-- A live local log stands at the end of the chain, in memory and on disk. -/
structure AtEnd (key : String) (events : List (WORMEvent K)) (log : WORMAuditLog K) : Prop where
  backend : log.backend = .local
  secretKey : log.secretKey = key
  chained : Chained events
  sequence : log.sequence = events.length
  previousHash : log.previousHash = lastHash events
  saved : Saved events log.storage

variable {prims : Primitives K} {key : String} {events : List (WORMEvent K)}
  {log log' : WORMAuditLog K} {storage : Storage K}

/-- A saved chain can be continued by a new instance. -/
theorem Saved.opens (h : Saved events storage) (nonempty : key ≠ "") :
    ∃ log, WORMAuditLog.new .local key storage = .ok log :=
  ⟨_, new_eq_ok.mpr ⟨nonempty, _, h.sequence, rfl⟩⟩

theorem Saved.atEnd (h : Saved events storage) (chained : Chained events)
    (opened : WORMAuditLog.new .local key storage = .ok log) :
    AtEnd key events log := by
  obtain ⟨-, n, hn, rfl⟩ := new_eq_ok.mp opened
  obtain rfl := Except.ok.inj (hn.symm.trans h.sequence)
  exact ⟨rfl, rfl, chained, rfl, h.hash, h⟩

/-- The event that a log at the end of its chain creates is the next link. -/
theorem AtEnd.next (h : AtEnd key events log) (event : AuditEvent K) (eventJson : String) :
    Chained (events ++ [signedEvent prims log event eventJson]) := by
  apply Chained.snoc h.chained
  · rw [← h.sequence]
    rfl
  · exact h.previousHash

/-- One successful append: the chain grows by its event, which is filed under its name. -/
theorem AtEnd.append (hex : HexDigest prims) (h : AtEnd key events log) {writes : Writes K}
    {event : AuditEvent K} {e : WORMEvent K}
    (appended : (append prims writes event).run log = (.ok e, log')) :
    AtEnd key (events ++ [e]) log' ∧
      log'.storage.eventFiles = log.storage.eventFiles.set (filename e) (some e) := by
  obtain ⟨eventJson, hjson, rfl, rfl⟩ := append_ok appended
  have length : ((events ++ [signedEvent prims log event eventJson]).length : ℤ) =
      log.sequence + 1 := by
    rw [List.length_append, h.sequence]
    simp
  refine ⟨⟨h.backend, h.secretKey, h.next event eventJson, length.symm, ?_, ?_⟩, ?_⟩
  · rw [lastHash_snoc]
  · apply saved_of_files
    · rw [length]
    · rw [lastHash_snoc]
    · rw [lastHash_snoc]
      exact stripped_sha256 hex eventJson
  · simp only [filed, h.backend]

end Live

end WormStorage
