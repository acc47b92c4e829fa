import SynapticBridge.SiemDispatcher
import Mathlib.Tactic.NormNum

/-! `send_batch` of one connector. The batch goes on over sends that returned `False` and stops at
the first that raised, which is also all that its caller learns. -/
namespace SiemBatches

open Domain CircuitBreakers SiemConnectors SiemDispatcher
open Procedures.Proc

/-- One event of a batch and what its send meets. -/
structure Item (K : Type) where
  event : SIEMEvent K
  slot : Slot K

section Batch

variable {K : Type} [Field K] [LinearOrder K]

/-- The loop that collects `results`. -/
def sendEvents (position : ℕ) (connector : SIEMConnector K) :
    List (Item K) → Procedures.Proc (SendError K) (World K) (List Bool)
  | [] => pure []
  | item :: items => do
    let result ← sendTo position connector item.event item.slot
    let results ← sendEvents position connector items
    return result :: results

def sendBatch (position : ℕ) (connector : SIEMConnector K) (items : List (Item K)) :
    Procedures.Proc (SendError K) (World K) Bool := do
  let results ← sendEvents position connector items
  return results.all id

/-- The attempts of a batch, the one that raised last. -/
def attempts (connector : SIEMConnector K) :
    List (Item K) → (ℕ → CircuitBreaker K) → List (Attempt K)
  | [], _ => []
  | item :: items, breakers =>
    let attempt := send connector item.slot.delivery item.slot.readings breakers
    match attempt.result with
    | .error _ => [attempt]
    | .ok _ => attempt :: attempts connector items (stored connector attempt breakers)

def sent (position : ℕ) (item : Item K) (attempt : Attempt K) : Sent K :=
  ⟨position, item.event, attempt⟩

variable {connector : SIEMConnector K} {position : ℕ} {w : World K} {item : Item K}
  {items : List (Item K)} {breakers : ℕ → CircuitBreaker K}

theorem attempts_error {e : SendError K}
    (h : (send connector item.slot.delivery item.slot.readings breakers).result = .error e) :
    attempts connector (item :: items) breakers =
      [send connector item.slot.delivery item.slot.readings breakers] := by
  simp only [attempts, h]

theorem attempts_ok {b : Bool}
    (h : (send connector item.slot.delivery item.slot.readings breakers).result = .ok b) :
    attempts connector (item :: items) breakers =
      send connector item.slot.delivery item.slot.readings breakers ::
        attempts connector items (stored connector
          (send connector item.slot.delivery item.slot.readings breakers) breakers) := by
  simp only [attempts, h]

theorem sendTo_run (position : ℕ) (connector : SIEMConnector K) (item : Item K) (w : World K) :
    (sendTo position connector item.event item.slot).run w =
      ((send connector item.slot.delivery item.slot.readings w.breakers).result,
        afterSend position connector item.event item.slot w) := rfl

theorem sendEvents_error {e : SendError K}
    (h : (send connector item.slot.delivery item.slot.readings w.breakers).result = .error e) :
    (sendEvents position connector (item :: items)).run w =
      (.error e, afterSend position connector item.event item.slot w) := by
  have hsend := sendTo_run position connector item w
  rw [h] at hsend
  rw [sendEvents, bind_error hsend]

theorem sendEvents_ok {b : Bool}
    (h : (send connector item.slot.delivery item.slot.readings w.breakers).result = .ok b) :
    (sendEvents position connector (item :: items)).run w =
      (((sendEvents position connector items).run
          (afterSend position connector item.event item.slot w)).1.map (b :: ·),
        ((sendEvents position connector items).run
          (afterSend position connector item.event item.slot w)).2) := by
  have hsend := sendTo_run position connector item w
  rw [h] at hsend
  rw [sendEvents, bind_ok hsend]
  rcases hrest : (sendEvents position connector items).run
      (afterSend position connector item.event item.slot w) with ⟨e | results, w'⟩
  · rw [bind_error hrest]
    rfl
  · rw [bind_ok hrest]
    rfl

/-- A batch that raised ends with the attempt that did, behind attempts that returned. -/
def EndsWith (tried : List (Attempt K)) (e : SendError K) : Prop :=
  ∃ before last, tried = before ++ [last] ∧ last.result = .error e ∧
    ∀ a ∈ before, ∃ b, a.result = .ok b

/-- What a run of the loop shows of the attempts. -/
inductive Shows (tried : List (Attempt K)) (size : ℕ) :
    Except (SendError K) (List Bool) → Prop where
  | all {results : List Bool} (length : tried.length = size)
      (returned : tried.map (·.result) = results.map .ok) : Shows tried size (.ok results)
  | last {e : SendError K} (length : tried.length ≤ size) (ends : EndsWith tried e) :
      Shows tried size (.error e)

omit [Field K] [LinearOrder K] in
theorem Shows.cons {tried : List (Attempt K)} {size : ℕ}
    {answer : Except (SendError K) (List Bool)} (h : Shows tried size answer)
    {attempt : Attempt K} {b : Bool} (hresult : attempt.result = .ok b) :
    Shows (attempt :: tried) (size + 1) (answer.map (b :: ·)) := by
  cases h with
  | all length returned =>
    refine .all (by rw [List.length_cons, length]) ?_
    rw [List.map_cons, List.map_cons, hresult, returned]
  | last length ends =>
    obtain ⟨before, last, rfl, hlast, hbefore⟩ := ends
    refine .last (by rw [List.length_cons]; omega) ⟨attempt :: before, last, rfl, hlast, ?_⟩
    exact List.forall_mem_cons.mpr ⟨⟨b, hresult⟩, hbefore⟩

theorem sendEvents_shows (position : ℕ) (connector : SIEMConnector K) (items : List (Item K))
    (w : World K) :
    Shows (attempts connector items w.breakers) items.length
        ((sendEvents position connector items).run w).1 ∧
      ((sendEvents position connector items).run w).2.sent =
        w.sent ++ List.zipWith (sent position) items (attempts connector items w.breakers) := by
  induction items generalizing w with
  | nil =>
    refine ⟨.all rfl rfl, ?_⟩
    simp [sendEvents]
  | cons item items ih =>
    cases hresult : (send connector item.slot.delivery item.slot.readings w.breakers).result with
    | error e =>
      rw [attempts_error hresult, sendEvents_error hresult]
      refine ⟨.last (by simp) ⟨[], _, rfl, hresult, ?_⟩, ?_⟩
      · exact List.forall_mem_nil _
      · rw [List.zipWith_cons_cons, List.zipWith_nil_right]
        rfl
    | ok b =>
      obtain ⟨hshows, hsent⟩ := ih (afterSend position connector item.event item.slot w)
      rw [attempts_ok hresult, sendEvents_ok hresult]
      refine ⟨hshows.cons hresult, ?_⟩
      rw [hsent, List.zipWith_cons_cons, List.append_cons]
      rfl

theorem sendBatch_run (items : List (Item K)) (w : World K) :
    (sendBatch position connector items).run w =
      (((sendEvents position connector items).run w).1.map (·.all id),
        ((sendEvents position connector items).run w).2) := by
  rw [sendBatch]
  rcases hrun : (sendEvents position connector items).run w with ⟨e | results, w'⟩
  · rw [bind_error hrun]
    rfl
  · rw [bind_ok hrun]
    rfl

/-- A send that returned had reached `_do_send`, and says how that ended. -/
theorem send_returned {delivery : Delivery} {r : SendReadings K} {b : Bool}
    (h : (send connector delivery r breakers).result = .ok b) :
    (send connector delivery r breakers).reached = true ∧
      SiemConnectors.result (K := K) delivery = .ok b := by
  unfold send at h ⊢
  cases hguard : connector.circuitBreaker with
  | none =>
    rw [hguard] at h
    exact ⟨rfl, h⟩
  | some guard =>
    simp only [hguard] at h ⊢
    split_ifs at h ⊢
    exact ⟨rfl, h⟩

omit [Field K] [LinearOrder K] in
theorem result_true {delivery : Delivery} {b : Bool}
    (h : SiemConnectors.result (K := K) delivery = .ok b) :
    b = true ↔ delivery = .returned true := by
  cases delivery with
  | returned b' =>
    obtain rfl := Except.ok.inj h
    simp
  | timedOut =>
    obtain rfl := Except.ok.inj h
    simp
  | raised e =>
    rw [SiemConnectors.result] at h
    split_ifs at h
    obtain rfl := Except.ok.inj h
    simp

/-- Where no send raised, every event was tried. -/
theorem delivered_iff {results : List Bool} (items : List (Item K))
    (breakers : ℕ → CircuitBreaker K)
    (h : (attempts connector items breakers).map (·.result) = results.map .ok) :
    (∀ a ∈ attempts connector items breakers, a.reached = true) ∧
      (results.all id = true ↔ ∀ item ∈ items, item.slot.delivery = .returned true) := by
  induction items generalizing breakers results with
  | nil =>
    have hnil : results = [] := by simpa [attempts] using h.symm
    simp [hnil, attempts]
  | cons item items ih =>
    cases hresult : (send connector item.slot.delivery item.slot.readings breakers).result with
    | error e =>
      rw [attempts_error hresult] at h
      cases results with
      | nil => cases h
      | cons b results =>
        rw [List.map_cons, List.map_cons, hresult] at h
        cases (List.cons.inj h).1
    | ok b =>
      rw [attempts_ok hresult] at h ⊢
      cases results with
      | nil => cases h
      | cons b' results =>
        rw [List.map_cons, List.map_cons, hresult] at h
        obtain ⟨hhead, htail⟩ := List.cons.inj h
        obtain rfl := Except.ok.inj hhead
        obtain ⟨hreached, hdelivery⟩ := send_returned hresult
        obtain ⟨ihreached, ihall⟩ := ih _ htail
        refine ⟨List.forall_mem_cons.mpr ⟨hreached, ihreached⟩, ?_⟩
        rw [List.all_cons, Bool.and_eq_true, ihall, id, result_true hdelivery,
          List.forall_mem_cons]

/-- What a batch tries is the events up to the first send that raised. It raises what that send
raised and is silent about the sends before, and otherwise it is true when every event was
delivered. -/
theorem batch_answers (position : ℕ) (connector : SIEMConnector K) (items : List (Item K))
    (w : World K) :
    ∃ tried, ((sendBatch position connector items).run w).2.sent =
        w.sent ++ List.zipWith (sent position) items tried ∧ tried.length ≤ items.length ∧
      (∀ b, ((sendBatch position connector items).run w).1 = .ok b →
        tried.length = items.length ∧ (∀ a ∈ tried, a.reached = true) ∧
          (b = true ↔ ∀ item ∈ items, item.slot.delivery = .returned true)) ∧
      ∀ e, ((sendBatch position connector items).run w).1 = .error e → EndsWith tried e := by
  obtain ⟨hshows, hsent⟩ := sendEvents_shows position connector items w
  rw [sendBatch_run]
  refine ⟨_, hsent, ?_⟩
  generalize ((sendEvents position connector items).run w).1 = answer at hshows
  cases hshows with
  | @all results length returned =>
    obtain ⟨hreached, hall⟩ := delivered_iff items w.breakers returned
    refine ⟨length.le, ?_, ?_⟩
    · intro b hb
      obtain rfl := Except.ok.inj hb
      exact ⟨length, hreached, hall⟩
    · intro e he
      cases he
  | last length ends =>
    refine ⟨length, ?_, ?_⟩
    · intro b hb
      cases hb
    · intro e he
      obtain rfl := Except.error.inj he
      exact ends

end Batch

section DeadVendor

variable {K : Type} [Field K] [LinearOrder K] {connector : SIEMConnector K} {guard : Guard K}
  {config : CircuitBreakerConfig K} {b : CircuitBreaker K}

def TimesOut : Delivery → Prop
  | .returned _ => False
  | .timedOut => True
  | .raised e => isTimeoutError e = true

/-- The next send comes before a breaker that the last one opened lets a probe through. -/
def Prompt (config : CircuitBreakerConfig K) (item next : Item K) : Prop :=
  next.slot.readings.checkedAt - item.slot.readings.recordedAt < config.timeoutSeconds

/-- How many failures a breaker that is let into takes before it opens. -/
def tolerance (config : CircuitBreakerConfig K) (b : CircuitBreaker K) : ℕ :=
  match b.state with
  | .OPEN => 0
  | .HALF_OPEN => 1
  | .CLOSED => max 1 (config.failureThreshold - b.failureCount).toNat

/-- Those that the first send of a batch finds. -/
def allowance (config : CircuitBreakerConfig K) (b : CircuitBreaker K) : List (Item K) → ℕ
  | [] => tolerance config b
  | item :: _ => tolerance config (maybeTransitionFromOpen config item.slot.readings.checkedAt b)

omit [Field K] [LinearOrder K] in
theorem recordFailure_last (config : CircuitBreakerConfig K) (now : K) (b : CircuitBreaker K) :
    (recordFailure config now b).lastFailureTime = some now := by
  simp only [recordFailure, transitionTo]
  split_ifs <;> rfl

/-- A failure is not forgotten before the next send. -/
theorem recordFailure_waits {now next : K} (hprompt : next - now < config.timeoutSeconds) :
    maybeTransitionFromOpen config next (recordFailure config now b) =
      recordFailure config now b := by
  rw [maybeTransitionFromOpen, recordFailure_last]
  simp only [if_neg (not_le.mpr hprompt), ite_self]

omit [Field K] [LinearOrder K] in
/-- A failure uses up one. -/
theorem tolerance_recordFailure (now : K) (h : b.state ≠ .OPEN) :
    tolerance config (recordFailure config now b) + 1 = tolerance config b := by
  cases hstate : b.state with
  | OPEN => exact absurd hstate h
  | HALF_OPEN => simp [tolerance, recordFailure_halfOpen config now hstate, hstate]
  | CLOSED =>
    by_cases hreached : config.failureThreshold ≤ (b.failureCount : ℤ) + 1
    · simp [tolerance, recordFailure, transitionTo, hstate, hreached]
      omega
    · simp [tolerance, recordFailure, hstate, hreached]
      omega

omit [Field K] [LinearOrder K] in
theorem result_timesOut (config : CircuitBreakerConfig K) {delivery : Delivery}
    (h : TimesOut delivery) :
    SiemConnectors.result (K := K) delivery = .ok false ∧
      record config delivery = recordFailure config := by
  cases delivery with
  | returned b => exact absurd h id
  | timedOut => exact ⟨rfl, rfl⟩
  | raised e => exact ⟨if_pos h, rfl⟩

/-- A send to a vendor that does not answer, by what its breaker says. -/
theorem send_refused (hguard : connector.circuitBreaker = some guard) (delivery : Delivery)
    (r : SendReadings K) {breakers : ℕ → CircuitBreaker K}
    (h : ¬ Admits guard.config r.checkedAt (breakers guard.breaker)) :
    (send connector delivery r breakers).reached = false ∧
      ∃ retryAfter, (send connector delivery r breakers).result =
        .error (.circuitBreaker guard.name retryAfter) := by
  rw [Admits, not_not] at h
  unfold send
  rw [hguard]
  simp only [if_pos h]
  exact ⟨trivial, _, rfl⟩

theorem send_late (hguard : connector.circuitBreaker = some guard) {delivery : Delivery}
    (hlate : TimesOut delivery) (r : SendReadings K) {breakers : ℕ → CircuitBreaker K}
    (h : Admits guard.config r.checkedAt (breakers guard.breaker)) :
    (send connector delivery r breakers).reached = true ∧
      (send connector delivery r breakers).result = .ok false ∧
      stored connector (send connector delivery r breakers) breakers guard.breaker =
        recordFailure guard.config r.recordedAt
          (maybeTransitionFromOpen guard.config r.checkedAt (breakers guard.breaker)) := by
  obtain ⟨hresult, hrecord⟩ := result_timesOut guard.config hlate
  rw [Admits] at h
  unfold stored send
  rw [hguard]
  simp only [if_neg h, hrecord, Function.update_self]
  exact ⟨trivial, hresult, trivial⟩

/-- The attempts of a batch that nobody answers: as many as the breaker takes, and one more that
it refuses if there is an event left for it. -/
theorem attempts_dead (hguard : connector.circuitBreaker = some guard) {items : List (Item K)}
    (hdead : ∀ item ∈ items, TimesOut item.slot.delivery)
    (hprompt : items.IsChain (Prompt guard.config)) (breakers : ℕ → CircuitBreaker K) :
    let left := allowance guard.config (breakers guard.breaker) items
    (attempts connector items breakers).countP (·.reached) = min left items.length ∧
      (items.length ≤ left → (attempts connector items breakers).map (·.result) =
        List.replicate items.length (.ok false)) ∧
      (left < items.length → ∃ retryAfter,
        (attempts connector items breakers).map (·.result) =
          List.replicate left (.ok false) ++ [.error (.circuitBreaker guard.name retryAfter)]) := by
  induction items generalizing breakers with
  | nil => simp [attempts, allowance]
  | cons item items ih =>
    obtain ⟨hlate, hdead⟩ := List.forall_mem_cons.mp hdead
    by_cases hadmits : Admits guard.config item.slot.readings.checkedAt (breakers guard.breaker)
    · obtain ⟨hreached, hresult, hstored⟩ :=
        send_late hguard hlate item.slot.readings hadmits
      have hnext : allowance guard.config (stored connector
          (send connector item.slot.delivery item.slot.readings breakers) breakers
            guard.breaker) items + 1 =
          allowance guard.config (breakers guard.breaker) (item :: items) := by
        rw [hstored]
        cases items with
        | nil => exact tolerance_recordFailure _ hadmits
        | cons next rest =>
          rw [allowance, recordFailure_waits (List.isChain_cons_cons.mp hprompt).1]
          exact tolerance_recordFailure _ hadmits
      obtain ⟨hcount, hfew, hmany⟩ := ih hdead hprompt.of_cons (stored connector
        (send connector item.slot.delivery item.slot.readings breakers) breakers)
      rw [attempts_ok hresult, ← hnext, List.countP_cons_of_pos hreached, hcount, List.map_cons,
        hresult, List.length_cons]
      refine ⟨(Nat.add_min_add_right _ _ 1).symm, ?_, ?_⟩
      · intro hle
        rw [hfew (by omega), List.replicate_succ]
      · intro hlt
        obtain ⟨retryAfter, hlast⟩ := hmany (by omega)
        exact ⟨retryAfter, by rw [hlast, List.replicate_succ, List.cons_append]⟩
    · obtain ⟨hreached, retryAfter, hresult⟩ :=
        send_refused hguard item.slot.delivery item.slot.readings hadmits
      have hzero : allowance guard.config (breakers guard.breaker) (item :: items) = 0 := by
        rw [Admits, not_not] at hadmits
        rw [allowance, tolerance, hadmits]
      rw [attempts_error hresult, hzero]
      simp [hreached, hresult]

omit [Field K] [LinearOrder K] in
theorem Shows.refused {tried : List (Attempt K)} {size n : ℕ} {e : SendError K}
    {answer : Except (SendError K) (List Bool)} (h : Shows tried size answer)
    (hlast : tried.map (·.result) = List.replicate n (.ok false) ++ [.error e]) :
    answer = .error e := by
  cases h with
  | @all results length returned =>
    have herror : Except.error e ∈ results.map Except.ok := by
      rw [← returned, hlast]
      exact List.mem_append_right _ List.mem_cons_self
    obtain ⟨b, -, hb⟩ := List.mem_map.mp herror
    cases hb
  | last length ends =>
    obtain ⟨before, last, rfl, hresult, -⟩ := ends
    rw [List.map_append, List.map_singleton, hresult] at hlast
    obtain rfl := Except.error.inj (List.singleton_inj.mp (List.append_inj_right' hlast rfl))
    rfl

omit [Field K] [LinearOrder K] in
theorem Shows.late {tried : List (Attempt K)} {size n : ℕ}
    {answer : Except (SendError K) (List Bool)} (h : Shows tried size answer)
    (hlate : tried.map (·.result) = List.replicate n (.ok false)) :
    answer = .ok (List.replicate n false) := by
  cases h with
  | @all results length returned =>
    rw [hlate, ← List.map_replicate] at returned
    rw [List.map_injective_iff.mpr (fun _ _ => Except.ok.inj) returned]
  | @last e length ends =>
    obtain ⟨before, last, rfl, hresult, -⟩ := ends
    have herror : Except.error e ∈ List.replicate n (Except.ok false) := by
      rw [← hlate, ← hresult]
      exact List.mem_map_of_mem (List.mem_append_right _ List.mem_cons_self)
    cases (List.mem_replicate.mp herror).2

/-- A vendor that does not answer costs a batch as many timeouts as its breaker still takes. If
that is the whole batch it is answered `False`, and else it raises over the first event that is
refused, with the rest untried. -/
theorem dead_vendor (position : ℕ) (hguard : connector.circuitBreaker = some guard)
    {items : List (Item K)} (hdead : ∀ item ∈ items, TimesOut item.slot.delivery)
    (hprompt : items.IsChain (Prompt guard.config)) (w : World K) :
    ∃ tried, ((sendBatch position connector items).run w).2.sent =
        w.sent ++ List.zipWith (sent position) items tried ∧
      tried.countP (·.reached) =
        min (allowance guard.config (w.breakers guard.breaker) items) items.length ∧
      (items.length ≤ allowance guard.config (w.breakers guard.breaker) items →
        tried.length = items.length ∧
          ((sendBatch position connector items).run w).1 = .ok (decide (items = []))) ∧
      (allowance guard.config (w.breakers guard.breaker) items < items.length →
        tried.length = allowance guard.config (w.breakers guard.breaker) items + 1 ∧
          ∃ retryAfter, ((sendBatch position connector items).run w).1 =
            .error (.circuitBreaker guard.name retryAfter)) := by
  obtain ⟨hshows, hsent⟩ := sendEvents_shows position connector items w
  obtain ⟨hcount, hfew, hmany⟩ := attempts_dead hguard hdead hprompt w.breakers
  rw [sendBatch_run]
  refine ⟨_, hsent, hcount, ?_, ?_⟩
  · intro hle
    have hlate := hfew hle
    rw [hshows.late hlate]
    constructor
    · simpa using congrArg List.length hlate
    · cases items with
      | nil => rfl
      | cons item items => simp [Except.map, List.replicate_succ]
  · intro hlt
    obtain ⟨retryAfter, hlast⟩ := hmany hlt
    rw [hshows.refused hlast]
    exact ⟨by simpa using congrArg List.length hlast, retryAfter, rfl⟩

end DeadVendor

/-! A batch of five to a vendor whose breaker opens at the third failure. -/

section Sample

def lateItem (checkedAt : ℚ) : Item ℚ :=
  ⟨connectorNormalize "2026-01-01T00:00:00+00:00" [],
    ⟨.timedOut, ⟨checkedAt, checkedAt, checkedAt + 5⟩⟩⟩

def lateItems : List (Item ℚ) := [0, 5, 10, 15, 20].map lateItem

theorem lateItems_prompt : lateItems.IsChain (Prompt SIEM_CIRCUIT_BREAKER_CONFIG) := by
  simp only [lateItems, lateItem, Prompt, SIEM_CIRCUIT_BREAKER_CONFIG, List.map_cons, List.map_nil,
    List.isChain_cons_cons]
  norm_num

theorem dead_vendor_sample : ∃ tried,
    ((sendBatch 0 splunk lateItems).run ⟨fun _ => initial, []⟩).2.sent =
        List.zipWith (sent 0) lateItems tried ∧
      tried.countP (·.reached) = 3 ∧ tried.length = 4 ∧
      ∃ retryAfter, ((sendBatch 0 splunk lateItems).run ⟨fun _ => initial, []⟩).1 =
        .error (.circuitBreaker "splunk" retryAfter) := by
  have hdead : ∀ item ∈ lateItems, TimesOut item.slot.delivery := by
    intro item hitem
    obtain ⟨t, -, rfl⟩ := List.mem_map.mp hitem
    trivial
  obtain ⟨tried, hsent, hcount, -, hmany⟩ :=
    dead_vendor 0 (show splunk.circuitBreaker = some _ from rfl) hdead lateItems_prompt
      ⟨fun _ => initial, []⟩
  obtain ⟨hlength, hanswer⟩ := hmany (by decide)
  exact ⟨tried, hsent, hcount, hlength, hanswer⟩

end Sample

end SiemBatches
