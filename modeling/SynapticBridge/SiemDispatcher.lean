import SynapticBridge.SiemConnectors
import Mathlib.Data.List.Basic
import Mathlib.Logic.Function.Basic

/-! `SIEMDispatcher` over a sequence of events. A send reads and writes the breaker of its own
connector only, so each connector runs as if it were alone. -/
namespace SiemDispatcher

open Domain CircuitBreakers SiemConnectors
open Procedures.Proc

/-- What one connector meets when one event is sent to it. -/
structure Slot (K : Type) where
  delivery : Delivery
  readings : SendReadings K

/-- One event, the text of the clock reading at its normalization, and what each connector
meets by its position. -/
structure Round (K : Type) where
  event : EventDict K
  now : String
  slots : ℕ → Slot K

/-- One send attempt of the connector at a position. -/
structure Sent (K : Type) where
  position : ℕ
  event : SIEMEvent K
  attempt : Attempt K

structure World (K : Type) where
  breakers : ℕ → CircuitBreaker K
  sent : List (Sent K)

section Dispatch

variable {K : Type}

/-- The breakers after an attempt of the connector. -/
def stored (connector : SIEMConnector K) (attempt : Attempt K) (breakers : ℕ → CircuitBreaker K) :
    ℕ → CircuitBreaker K :=
  match connector.circuitBreaker, attempt.breaker with
  | some guard, some b => Function.update breakers guard.breaker b
  | _, _ => breakers

variable [Field K] [LinearOrder K]

def sendTo (position : ℕ) (connector : SIEMConnector K) (event : SIEMEvent K) (slot : Slot K) :
    Procedures.Proc (SendError K) (World K) Bool :=
  ⟨fun w =>
    let attempt := send connector slot.delivery slot.readings w.breakers
    (attempt.result,
      ⟨stored connector attempt w.breakers, w.sent ++ [⟨position, event, attempt⟩]⟩)⟩

/-- The loop over `self.connectors` from one position on. -/
def sendToEach (event : SIEMEvent K) (slots : ℕ → Slot K) :
    ℕ → List (SIEMConnector K) → Procedures.Proc (SendError K) (World K) Unit
  | _, [] => pure ()
  | position, connector :: rest => do
    swallow (do
      let _ ← sendTo position connector event (slots position)
      return)
    sendToEach event slots (position + 1) rest

def dispatch (connectors : List (SIEMConnector K)) (round : Round K) :
    Procedures.Proc (SendError K) (World K) Unit :=
  sendToEach (dispatcherNormalize round.now round.event) round.slots 0 connectors

end Dispatch

section Isolation

variable {K : Type} [Field K] [LinearOrder K]

/-- The world after one attempt, whatever it returned or raised. -/
def afterSend (position : ℕ) (connector : SIEMConnector K) (event : SIEMEvent K) (slot : Slot K)
    (w : World K) : World K :=
  ⟨stored connector (send connector slot.delivery slot.readings w.breakers) w.breakers,
    w.sent ++ [⟨position, event, send connector slot.delivery slot.readings w.breakers⟩]⟩

/-- The loop as a function on worlds. -/
def afterEach (event : SIEMEvent K) (slots : ℕ → Slot K) :
    ℕ → List (SIEMConnector K) → World K → World K
  | _, [], w => w
  | position, connector :: rest, w =>
    afterEach event slots (position + 1) rest
      (afterSend position connector event (slots position) w)

/-- The breaker of a connector. -/
def own (connector : SIEMConnector K) (breakers : ℕ → CircuitBreaker K) :
    Option (CircuitBreaker K) :=
  connector.circuitBreaker.map fun guard => breakers guard.breaker

/-- The connectors do not share a breaker. -/
def Separate (c c' : SIEMConnector K) : Prop :=
  ∀ guard guard', c.circuitBreaker = some guard → c'.circuitBreaker = some guard' →
    guard.breaker ≠ guard'.breaker

/-- A send depends on the connector's own breaker only. -/
theorem send_congr {c : SIEMConnector K} {breakers breakers' : ℕ → CircuitBreaker K}
    (h : own c breakers = own c breakers') (delivery : Delivery) (r : SendReadings K) :
    send c delivery r breakers = send c delivery r breakers' := by
  unfold send
  unfold own at h
  cases hguard : c.circuitBreaker with
  | none => rfl
  | some guard =>
    rw [hguard] at h
    have hsame : breakers guard.breaker = breakers' guard.breaker := Option.some.inj h
    simp only [hsame]

theorem own_stored (c : SIEMConnector K) (delivery : Delivery) (r : SendReadings K)
    (breakers : ℕ → CircuitBreaker K) :
    own c (stored c (send c delivery r breakers) breakers) =
      (send c delivery r breakers).breaker := by
  unfold own stored send
  cases hguard : c.circuitBreaker with
  | none => rfl
  | some guard =>
    dsimp only
    split_ifs with hopen
    · simp
    · simp

omit [Field K] [LinearOrder K] in
theorem own_stored_of_separate {c c' : SIEMConnector K} (h : Separate c c') (attempt : Attempt K)
    (breakers : ℕ → CircuitBreaker K) : own c' (stored c attempt breakers) = own c' breakers := by
  unfold own stored
  cases hguard : c.circuitBreaker with
  | none => rfl
  | some guard =>
    cases attempt.breaker with
    | none => rfl
    | some b =>
      cases hguard' : c'.circuitBreaker with
      | none => rfl
      | some guard' =>
        have hne := h guard guard' hguard hguard'
        simp [Function.update_of_ne hne.symm]

/-- The other connectors leave a breaker alone. -/
theorem own_afterEach {c : SIEMConnector K} {connectors : List (SIEMConnector K)}
    (h : ∀ c' ∈ connectors, Separate c' c) (event : SIEMEvent K) (slots : ℕ → Slot K)
    (position : ℕ) (w : World K) :
    own c (afterEach event slots position connectors w).breakers = own c w.breakers := by
  induction connectors generalizing position w with
  | nil => rfl
  | cons c' rest ih =>
    rw [afterEach, ih fun c'' hc => h c'' (List.mem_cons_of_mem _ hc)]
    exact own_stored_of_separate (h c' List.mem_cons_self) _ _

/-- The attempts of the connector at one position. -/
def ofPosition (n : ℕ) (sent : List (Sent K)) : List (Sent K) :=
  sent.filter fun s => s.position = n

theorem ofPosition_afterSend (n position : ℕ) (c : SIEMConnector K) (event : SIEMEvent K)
    (slot : Slot K) (w : World K) :
    ofPosition n (afterSend position c event slot w).sent = ofPosition n w.sent ++
      if position = n then [⟨n, event, send c slot.delivery slot.readings w.breakers⟩] else [] := by
  unfold ofPosition afterSend
  rw [List.filter_append]
  split_ifs with h
  · subst h
    simp
  · simp [h]

theorem ofPosition_afterEach_of_lt {n position : ℕ} (h : n < position) (event : SIEMEvent K)
    (slots : ℕ → Slot K) (connectors : List (SIEMConnector K)) (w : World K) :
    ofPosition n (afterEach event slots position connectors w).sent = ofPosition n w.sent := by
  induction connectors generalizing position w with
  | nil => rfl
  | cons c rest ih =>
    rw [afterEach, ih (by omega), ofPosition_afterSend, if_neg (by omega), List.append_nil]

/-- In a round the connector at a position makes the attempt it would make alone. -/
theorem afterEach_own {connectors : List (SIEMConnector K)}
    (separate : connectors.Pairwise Separate) {n : ℕ} {c : SIEMConnector K}
    (hc : connectors[n]? = some c) (event : SIEMEvent K) (slots : ℕ → Slot K) (position : ℕ)
    (w : World K) :
    let attempt := send c (slots (position + n)).delivery (slots (position + n)).readings w.breakers
    own c (afterEach event slots position connectors w).breakers = attempt.breaker ∧
      ofPosition (position + n) (afterEach event slots position connectors w).sent =
        ofPosition (position + n) w.sent ++ [⟨position + n, event, attempt⟩] := by
  induction connectors generalizing n position w with
  | nil => cases hc
  | cons c' rest ih =>
    obtain ⟨hfirst, hrest⟩ := List.pairwise_cons.mp separate
    rw [afterEach]
    cases n with
    | zero =>
      obtain rfl := Option.some.inj hc
      have others : ∀ c'' ∈ rest, Separate c'' c' := fun c'' hc'' guard guard' hg hg' =>
        (hfirst c'' hc'' guard' guard hg' hg).symm
      rw [own_afterEach others, Nat.add_zero, ofPosition_afterEach_of_lt (by omega),
        ofPosition_afterSend, if_pos rfl]
      exact ⟨own_stored _ _ _ _, rfl⟩
    | succ n =>
      have hmem : c ∈ rest := List.mem_of_getElem? hc
      have hsend := own_stored_of_separate (hfirst c hmem)
        (send c' (slots position).delivery (slots position).readings w.breakers) w.breakers
      obtain ⟨hown, hsent⟩ := ih hrest hc (position + 1)
        (afterSend position c' event (slots position) w)
      have hn : position + 1 + n = position + (n + 1) := by omega
      rw [hn] at hown hsent
      rw [hown, hsent, ofPosition_afterSend, if_neg (by omega), List.append_nil]
      have hattempt : ∀ d r, send c d r (afterSend position c' event (slots position) w).breakers =
          send c d r w.breakers := send_congr hsend
      rw [hattempt]
      exact ⟨rfl, rfl⟩

/-- The world after all rounds. -/
def afterAll (connectors : List (SIEMConnector K)) (rounds : List (Round K)) (w : World K) :
    World K :=
  rounds.foldl (fun w round =>
    afterEach (dispatcherNormalize round.now round.event) round.slots 0 connectors w) w

/-- The rounds as they would be with the connector at position `n` alone. -/
def alone (n : ℕ) (round : Round K) : Round K := { round with slots := fun _ => round.slots n }

/-- A connector among others beside the same connector alone. -/
structure Alike (c : SIEMConnector K) (n : ℕ) (w v : World K) : Prop where
  breaker : own c w.breakers = own c v.breakers
  sent : (ofPosition n w.sent).map (fun s => (s.event, s.attempt)) =
    v.sent.map fun s => (s.event, s.attempt)

theorem Alike.round {connectors : List (SIEMConnector K)} (separate : connectors.Pairwise Separate)
    {n : ℕ} {c : SIEMConnector K} (hc : connectors[n]? = some c) {w v : World K}
    (alike : Alike c n w v) (round : Round K) :
    Alike c n
      (afterEach (dispatcherNormalize round.now round.event) round.slots 0 connectors w)
      (afterEach (dispatcherNormalize (alone n round).now (alone n round).event)
        (alone n round).slots 0 [c] v) := by
  obtain ⟨hown, hsent⟩ := afterEach_own separate hc
    (dispatcherNormalize round.now round.event) round.slots 0 w
  rw [Nat.zero_add] at hown hsent
  have hattempt := send_congr alike.breaker (round.slots n).delivery (round.slots n).readings
  constructor
  · rw [hown, hattempt]
    exact (own_stored c _ _ v.breakers).symm
  · rw [hsent, List.map_append, alike.sent, hattempt]
    simp [afterEach, afterSend, alone]

theorem Alike.all {connectors : List (SIEMConnector K)} (separate : connectors.Pairwise Separate)
    {n : ℕ} {c : SIEMConnector K} (hc : connectors[n]? = some c) (rounds : List (Round K))
    {w v : World K} (alike : Alike c n w v) :
    Alike c n (afterAll connectors rounds w) (afterAll [c] (rounds.map (alone n)) v) := by
  induction rounds generalizing w v with
  | nil => exact alike
  | cons round rest ih => exact ih (alike.round separate hc round)

end Isolation

/-! Two connectors, the first of which raises. -/

section Sample

def splunk : SIEMConnector ℚ := ⟨"splunk", some ⟨0, "splunk", SIEM_CIRCUIT_BREAKER_CONFIG⟩⟩
end Sample

end SiemDispatcher
