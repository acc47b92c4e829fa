import SynapticBridge.HistoryCounts
import Mathlib.Algebra.Field.Rat
import Mathlib.Algebra.Order.Field.Basic
import Mathlib.Algebra.Order.Group.Defs
import Mathlib.Algebra.Order.Ring.Rat

/-! `CircuitBreaker`. Two counters and one timestamp stand for the whole history: in CLOSED
the failures since it was last cleared, in HALF_OPEN the successes since it was entered. -/
namespace CircuitBreakers

open HistoryCounts

inductive CircuitState where
  | CLOSED
  | OPEN
  | HALF_OPEN
  deriving DecidableEq, Repr

structure CircuitBreakerConfig (K : Type) where
  failureThreshold : ℤ
  successThreshold : ℤ
  timeoutSeconds : K

structure CircuitBreaker (K : Type) where
  state : CircuitState
  failureCount : ℕ
  successCount : ℕ
  lastFailureTime : Option K

/-- A new breaker; `reset` goes back to it. -/
def initial {K : Type} : CircuitBreaker K := ⟨.CLOSED, 0, 0, none⟩

section Transitions

variable {K : Type} (config : CircuitBreakerConfig K)

def transitionTo (newState : CircuitState) (b : CircuitBreaker K) : CircuitBreaker K :=
  if b.state = newState then b
  else
    { b with
      state := newState
      successCount := 0
      failureCount := if newState = .CLOSED then 0 else b.failureCount }

def recordSuccess (b : CircuitBreaker K) : CircuitBreaker K :=
  match b.state with
  | .HALF_OPEN =>
    let b := { b with successCount := b.successCount + 1 }
    if config.successThreshold ≤ b.successCount then transitionTo .CLOSED b else b
  | .CLOSED => { b with failureCount := 0 }
  | .OPEN => b

def recordFailure (now : K) (b : CircuitBreaker K) : CircuitBreaker K :=
  let b := { b with failureCount := b.failureCount + 1, lastFailureTime := some now }
  if b.state = .HALF_OPEN ∨ (b.state = .CLOSED ∧ config.failureThreshold ≤ b.failureCount) then
    transitionTo .OPEN b
  else b

def forceOpen (b : CircuitBreaker K) : CircuitBreaker K := transitionTo .OPEN b
def forceClose (b : CircuitBreaker K) : CircuitBreaker K := transitionTo .CLOSED b
def reset (_ : CircuitBreaker K) : CircuitBreaker K := initial

variable [Field K] [LinearOrder K]

def maybeTransitionFromOpen (now : K) (b : CircuitBreaker K) : CircuitBreaker K :=
  if b.state ≠ .OPEN then b
  else
    match b.lastFailureTime with
    | none => transitionTo .HALF_OPEN b
    | some last =>
      if config.timeoutSeconds ≤ now - last then transitionTo .HALF_OPEN b else b

def timeUntilRetry (now : K) (b : CircuitBreaker K) : K :=
  match b.state, b.lastFailureTime with
  | .OPEN, some last => max 0 (config.timeoutSeconds - (now - last))
  | _, _ => 0

end Transitions

inductive Operation where
  | recordSuccess
  | recordFailure
  | maybeTransitionFromOpen
  | forceOpen
  | forceClose
  | reset
  deriving DecidableEq, Repr

/-- One operation with its clock reading and the breaker before and after it. -/
structure Step (K : Type) where
  operation : Operation
  now : K
  before : CircuitBreaker K
  after : CircuitBreaker K

section Steps

variable {K : Type}

def Step.enters (s : Step K) (state : CircuitState) : Prop :=
  s.before.state ≠ state ∧ s.after.state = state

instance (s : Step K) (state : CircuitState) : Decidable (s.enters state) :=
  inferInstanceAs (Decidable (s.before.state ≠ state ∧ s.after.state = state))

/-- A success recorded in CLOSED, a transition into CLOSED, or a reset. -/
def Step.clears (s : Step K) : Prop :=
  (s.operation = .recordSuccess ∧ s.before.state = .CLOSED) ∨ s.enters .CLOSED ∨
    s.operation = .reset

instance (s : Step K) : Decidable s.clears :=
  inferInstanceAs (Decidable ((s.operation = .recordSuccess ∧ s.before.state = .CLOSED) ∨
    s.enters .CLOSED ∨ s.operation = .reset))

/-- The failures recorded since the failures were last cleared. -/
def failures (steps : List (Step K)) : ℕ :=
  countSince (fun s => s.operation = .recordFailure) Step.clears steps

/-- The successes recorded since HALF_OPEN was last entered. -/
def successes (steps : List (Step K)) : ℕ :=
  countSince (fun s => s.operation = .recordSuccess) (fun s => s.enters .HALF_OPEN) steps

variable [Field K] [LinearOrder K]

def Operation.apply (config : CircuitBreakerConfig K) (now : K) :
    Operation → CircuitBreaker K → CircuitBreaker K
  | .recordSuccess => CircuitBreakers.recordSuccess config
  | .recordFailure => CircuitBreakers.recordFailure config now
  | .maybeTransitionFromOpen => CircuitBreakers.maybeTransitionFromOpen config now
  | .forceOpen => CircuitBreakers.forceOpen
  | .forceClose => CircuitBreakers.forceClose
  | .reset => CircuitBreakers.reset

/-- Any operations at any clock readings on a new breaker, the latest first. -/
inductive Run (config : CircuitBreakerConfig K) : List (Step K) → CircuitBreaker K → Prop where
  | start : Run config [] initial
  | step {steps : List (Step K)} {b : CircuitBreaker K} (run : Run config steps b)
      (op : Operation) (now : K) :
      Run config (⟨op, now, b, op.apply config now b⟩ :: steps) (op.apply config now b)

end Steps

/-! What one operation does, by the state it finds. -/

section Effects

variable {K : Type} [Field K] [LinearOrder K] {config : CircuitBreakerConfig K} {now : K}
  {b b' : CircuitBreaker K}

/-- The timestamp allows another try. -/
def Elapsed (config : CircuitBreakerConfig K) (now : K) (b : CircuitBreaker K) : Prop :=
  ∀ last, b.lastFailureTime = some last → config.timeoutSeconds ≤ now - last

inductive Effect (config : CircuitBreakerConfig K) (now : K) (b : CircuitBreaker K) :
    Operation → CircuitBreaker K → Prop where
  | cleared (h : b.state = .CLOSED) :
      Effect config now b .recordSuccess ⟨.CLOSED, 0, b.successCount, b.lastFailureTime⟩
  | ignored (h : b.state = .OPEN) : Effect config now b .recordSuccess b
  | counted (h : b.state = .HALF_OPEN)
      (below : (b.successCount : ℤ) + 1 < config.successThreshold) :
      Effect config now b .recordSuccess
        ⟨.HALF_OPEN, b.failureCount, b.successCount + 1, b.lastFailureTime⟩
  | recovered (h : b.state = .HALF_OPEN)
      (reached : config.successThreshold ≤ (b.successCount : ℤ) + 1) :
      Effect config now b .recordSuccess ⟨.CLOSED, 0, 0, b.lastFailureTime⟩
  | tolerated (h : b.state = .CLOSED) (below : (b.failureCount : ℤ) + 1 < config.failureThreshold) :
      Effect config now b .recordFailure ⟨.CLOSED, b.failureCount + 1, b.successCount, some now⟩
  | tripped (h : b.state = .CLOSED)
      (reached : config.failureThreshold ≤ (b.failureCount : ℤ) + 1) :
      Effect config now b .recordFailure ⟨.OPEN, b.failureCount + 1, 0, some now⟩
  | extended (h : b.state = .OPEN) :
      Effect config now b .recordFailure ⟨.OPEN, b.failureCount + 1, b.successCount, some now⟩
  | relapsed (h : b.state = .HALF_OPEN) :
      Effect config now b .recordFailure ⟨.OPEN, b.failureCount + 1, 0, some now⟩
  | passed (h : b.state ≠ .OPEN) : Effect config now b .maybeTransitionFromOpen b
  | waited (h : b.state = .OPEN) (early : ¬ Elapsed config now b) :
      Effect config now b .maybeTransitionFromOpen b
  | tried (h : b.state = .OPEN) (elapsed : Elapsed config now b) :
      Effect config now b .maybeTransitionFromOpen
        ⟨.HALF_OPEN, b.failureCount, 0, b.lastFailureTime⟩
  | opened (h : b.state ≠ .OPEN) :
      Effect config now b .forceOpen ⟨.OPEN, b.failureCount, 0, b.lastFailureTime⟩
  | stayedOpen (h : b.state = .OPEN) : Effect config now b .forceOpen b
  | closed (h : b.state ≠ .CLOSED) :
      Effect config now b .forceClose ⟨.CLOSED, 0, 0, b.lastFailureTime⟩
  | stayedClosed (h : b.state = .CLOSED) : Effect config now b .forceClose b
  | restarted : Effect config now b .reset initial

theorem recordSuccess_effect (config : CircuitBreakerConfig K) (now : K) (b : CircuitBreaker K) :
    Effect config now b .recordSuccess (recordSuccess config b) := by
  obtain ⟨state, failureCount, successCount, last⟩ := b
  cases state with
  | CLOSED => exact .cleared rfl
  | OPEN => exact .ignored rfl
  | HALF_OPEN =>
    by_cases reached : config.successThreshold ≤ (successCount : ℤ) + 1
    · have : recordSuccess config ⟨.HALF_OPEN, failureCount, successCount, last⟩ =
          ⟨.CLOSED, 0, 0, last⟩ := by simp [recordSuccess, transitionTo, reached]
      rw [this]
      exact .recovered rfl reached
    · have : recordSuccess config ⟨.HALF_OPEN, failureCount, successCount, last⟩ =
          ⟨.HALF_OPEN, failureCount, successCount + 1, last⟩ := by simp [recordSuccess, reached]
      rw [this]
      exact .counted rfl (not_le.mp reached)

theorem recordFailure_effect (config : CircuitBreakerConfig K) (now : K) (b : CircuitBreaker K) :
    Effect config now b .recordFailure (recordFailure config now b) := by
  obtain ⟨state, failureCount, successCount, last⟩ := b
  cases state with
  | CLOSED =>
    by_cases reached : config.failureThreshold ≤ (failureCount : ℤ) + 1
    · have : recordFailure config now ⟨.CLOSED, failureCount, successCount, last⟩ =
          ⟨.OPEN, failureCount + 1, 0, some now⟩ := by simp [recordFailure, transitionTo, reached]
      rw [this]
      exact .tripped rfl reached
    · have : recordFailure config now ⟨.CLOSED, failureCount, successCount, last⟩ =
          ⟨.CLOSED, failureCount + 1, successCount, some now⟩ := by simp [recordFailure, reached]
      rw [this]
      exact .tolerated rfl (not_le.mp reached)
  | OPEN =>
    have : recordFailure config now ⟨.OPEN, failureCount, successCount, last⟩ =
        ⟨.OPEN, failureCount + 1, successCount, some now⟩ := by simp [recordFailure]
    rw [this]
    exact .extended rfl
  | HALF_OPEN =>
    have : recordFailure config now ⟨.HALF_OPEN, failureCount, successCount, last⟩ =
        ⟨.OPEN, failureCount + 1, 0, some now⟩ := by simp [recordFailure, transitionTo]
    rw [this]
    exact .relapsed rfl

theorem maybeTransitionFromOpen_effect (config : CircuitBreakerConfig K) (now : K)
    (b : CircuitBreaker K) :
    Effect config now b .maybeTransitionFromOpen (maybeTransitionFromOpen config now b) := by
  by_cases h : b.state = .OPEN
  · have tried : transitionTo .HALF_OPEN b =
        ⟨.HALF_OPEN, b.failureCount, 0, b.lastFailureTime⟩ := by simp [transitionTo, h]
    by_cases elapsed : Elapsed config now b
    · have : maybeTransitionFromOpen config now b = transitionTo .HALF_OPEN b := by
        rw [maybeTransitionFromOpen, if_neg (not_not.mpr h)]
        cases hlast : b.lastFailureTime with
        | none => rfl
        | some last => exact if_pos (elapsed last hlast)
      rw [this, tried]
      exact .tried h elapsed
    · have : maybeTransitionFromOpen config now b = b := by
        rw [maybeTransitionFromOpen, if_neg (not_not.mpr h)]
        cases hlast : b.lastFailureTime with
        | none => simp [Elapsed, hlast] at elapsed
        | some last =>
          simp only [Elapsed, hlast, Option.some.injEq, forall_eq'] at elapsed
          exact if_neg elapsed
      rw [this]
      exact .waited h elapsed
  · rw [maybeTransitionFromOpen, if_pos h]
    exact .passed h

/-- Every operation has its effect. -/
theorem apply_effect (config : CircuitBreakerConfig K) (now : K) (op : Operation)
    (b : CircuitBreaker K) : Effect config now b op (op.apply config now b) := by
  cases op with
  | recordSuccess => exact recordSuccess_effect config now b
  | recordFailure => exact recordFailure_effect config now b
  | maybeTransitionFromOpen => exact maybeTransitionFromOpen_effect config now b
  | forceOpen =>
    change Effect config now b .forceOpen (transitionTo .OPEN b)
    by_cases h : b.state = .OPEN
    · rw [transitionTo, if_pos h]
      exact .stayedOpen h
    · have : transitionTo .OPEN b = ⟨.OPEN, b.failureCount, 0, b.lastFailureTime⟩ := by
        simp [transitionTo, h]
      rw [this]
      exact .opened h
  | forceClose =>
    change Effect config now b .forceClose (transitionTo .CLOSED b)
    by_cases h : b.state = .CLOSED
    · rw [transitionTo, if_pos h]
      exact .stayedClosed h
    · have : transitionTo .CLOSED b = ⟨.CLOSED, 0, 0, b.lastFailureTime⟩ := by
        simp [transitionTo, h]
      rw [this]
      exact .closed h
  | reset => exact .restarted

end Effects

section Counters

variable {K : Type} [Field K] [LinearOrder K] {config : CircuitBreakerConfig K}
  {steps : List (Step K)} {b b' : CircuitBreaker K} {op : Operation} {now : K}

omit [Field K] [LinearOrder K] in
theorem failures_of_clears {s : Step K} (h : s.clears) (steps : List (Step K)) :
    failures (s :: steps) = 0 :=
  countSince_of_resets h

omit [Field K] [LinearOrder K] in
theorem failures_of_failure {s : Step K} (h : ¬ s.clears) (hop : s.operation = .recordFailure)
    (steps : List (Step K)) : failures (s :: steps) = failures steps + 1 := by
  rw [failures, countSince_of_counts h hop, ← failures]

omit [Field K] [LinearOrder K] in
theorem failures_of_other {s : Step K} (h : ¬ s.clears) (hop : s.operation ≠ .recordFailure)
    (steps : List (Step K)) : failures (s :: steps) = failures steps := by
  rw [failures, countSince_of_neither h hop, ← failures]

omit [Field K] [LinearOrder K] in
theorem successes_of_enters {s : Step K} (h : s.enters .HALF_OPEN) (steps : List (Step K)) :
    successes (s :: steps) = 0 :=
  countSince_of_resets h

omit [Field K] [LinearOrder K] in
theorem successes_of_success {s : Step K} (h : ¬ s.enters .HALF_OPEN)
    (hop : s.operation = .recordSuccess) (steps : List (Step K)) :
    successes (s :: steps) = successes steps + 1 := by
  simp only [successes, countSince, h, hop, if_true, if_false]

omit [Field K] [LinearOrder K] in
theorem successes_of_other {s : Step K} (h : ¬ s.enters .HALF_OPEN)
    (hop : s.operation ≠ .recordSuccess) (steps : List (Step K)) :
    successes (s :: steps) = successes steps := by
  simp only [successes, countSince, h, hop, if_false]

/-- In CLOSED the counter is the count over the history, and below its bound. -/
def CountsFailures (config : CircuitBreakerConfig K) (steps : List (Step K))
    (b : CircuitBreaker K) : Prop :=
  b.state = .CLOSED →
    b.failureCount = failures steps ∧ (b.failureCount : ℤ) < config.failureThreshold

/-- In HALF_OPEN the counter is the count over the history, and below its bound. -/
def CountsSuccesses (config : CircuitBreakerConfig K) (steps : List (Step K))
    (b : CircuitBreaker K) : Prop :=
  b.state = .HALF_OPEN →
    b.successCount = successes steps ∧ (b.successCount : ℤ) < config.successThreshold

/-- In CLOSED an operation clears the failures, adds one or leaves them. -/
theorem Effect.countsFailures (effect : Effect config now b op b')
    (positive : 1 ≤ config.failureThreshold) (counts : CountsFailures config steps b) :
    CountsFailures config (⟨op, now, b, b'⟩ :: steps) b' := by
  intro h
  have zero (clears : (⟨op, now, b, b'⟩ : Step K).clears) (hzero : b'.failureCount = 0) :
      b'.failureCount = failures (⟨op, now, b, b'⟩ :: steps) ∧
        (b'.failureCount : ℤ) < config.failureThreshold := by
    rw [failures_of_clears clears, hzero]
    exact ⟨rfl, by omega⟩
  cases effect with
  | cleared hclosed => exact zero (.inl ⟨rfl, hclosed⟩) rfl
  | recovered hhalf reached => exact zero (.inr (.inl ⟨by simp [hhalf], rfl⟩)) rfl
  | tolerated hclosed below =>
    obtain ⟨hcount, -⟩ := counts hclosed
    rw [failures_of_failure (by simp [Step.clears, Step.enters, hclosed]) rfl, ← hcount]
    exact ⟨rfl, by push_cast; exact below⟩
  | passed hopen =>
    rw [failures_of_other (by simp [Step.clears, Step.enters]) (by simp)]
    exact counts h
  | closed hclosed => exact zero (.inr (.inl ⟨hclosed, rfl⟩)) rfl
  | stayedClosed hclosed =>
    rw [failures_of_other (by simp [Step.clears, Step.enters]) (by simp)]
    exact counts h
  | restarted => exact zero (.inr (.inr rfl)) rfl
  | ignored hopen => rw [hopen] at h; cases h
  | waited hopen early => rw [hopen] at h; cases h
  | stayedOpen hopen => rw [hopen] at h; cases h
  | _ => cases h

/-- In HALF_OPEN an operation adds a success or leaves them; entering it clears them. -/
theorem Effect.countsSuccesses (effect : Effect config now b op b')
    (positive : 1 ≤ config.successThreshold) (counts : CountsSuccesses config steps b) :
    CountsSuccesses config (⟨op, now, b, b'⟩ :: steps) b' := by
  intro h
  cases effect with
  | counted hhalf below =>
    obtain ⟨hcount, -⟩ := counts hhalf
    rw [successes_of_success (by simp [Step.enters, hhalf]) rfl, ← hcount]
    exact ⟨rfl, by push_cast; exact below⟩
  | passed hopen =>
    rw [successes_of_other (by simp [Step.enters]) (by simp)]
    exact counts h
  | tried hopen elapsed =>
    rw [successes_of_enters ⟨by simp [hopen], rfl⟩]
    exact ⟨rfl, by push_cast; omega⟩
  | ignored hopen => rw [hopen] at h; cases h
  | waited hopen early => rw [hopen] at h; cases h
  | stayedOpen hopen => rw [hopen] at h; cases h
  | stayedClosed hclosed => rw [hclosed] at h; cases h
  | _ => cases h

theorem Run.countsFailures (run : Run config steps b) (positive : 1 ≤ config.failureThreshold) :
    CountsFailures config steps b := by
  induction run with
  | start =>
    intro _
    exact ⟨rfl, by change (0 : ℤ) < _; omega⟩
  | @step steps b run op now ih => exact (apply_effect config now op b).countsFailures positive ih

theorem Run.countsSuccesses (run : Run config steps b) (positive : 1 ≤ config.successThreshold) :
    CountsSuccesses config steps b := by
  induction run with
  | start =>
    intro h
    cases h
  | @step steps b run op now ih => exact (apply_effect config now op b).countsSuccesses positive ih

theorem CountsFailures.trips_iff (counts : CountsFailures config steps b) (h : b.state = .CLOSED) :
    (recordFailure config now b).state = .OPEN ↔
      (failures steps : ℤ) + 1 = config.failureThreshold := by
  obtain ⟨hcount, below⟩ := counts h
  have effect := recordFailure_effect config now b
  generalize recordFailure config now b = b' at effect
  cases effect with
  | tolerated _ hbelow => exact iff_of_false (by simp) (by omega)
  | tripped _ reached => exact iff_of_true rfl (by omega)
  | extended h' => rw [h] at h'; cases h'
  | relapsed h' => rw [h] at h'; cases h'

theorem CountsSuccesses.completes_iff (counts : CountsSuccesses config steps b)
    (h : b.state = .HALF_OPEN) :
    (recordSuccess config b).state = .CLOSED ↔
      (successes steps : ℤ) + 1 = config.successThreshold := by
  obtain ⟨hcount, below⟩ := counts h
  have effect := recordSuccess_effect config 0 b
  generalize recordSuccess config b = b' at effect
  cases effect with
  | counted _ hbelow => exact iff_of_false (by simp) (by omega)
  | recovered _ reached => exact iff_of_true rfl (by omega)
  | cleared h' => rw [h] at h'; cases h'
  | ignored h' => rw [h] at h'; cases h'

theorem recordFailure_state (config : CircuitBreakerConfig K) (now : K) (b : CircuitBreaker K) :
    (recordFailure config now b).state = b.state ∨ (recordFailure config now b).state = .OPEN := by
  have effect := recordFailure_effect config now b
  generalize recordFailure config now b = b' at effect
  cases effect with
  | tolerated h below => exact .inl h.symm
  | tripped h reached => exact .inr rfl
  | extended h => exact .inr rfl
  | relapsed h => exact .inr rfl

omit [Field K] [LinearOrder K] in
theorem recordFailure_halfOpen (config : CircuitBreakerConfig K) (now : K) {b : CircuitBreaker K}
    (h : b.state = .HALF_OPEN) : (recordFailure config now b).state = .OPEN := by
  simp [recordFailure, transitionTo, h]

theorem recordSuccess_state (config : CircuitBreakerConfig K) (b : CircuitBreaker K) :
    (recordSuccess config b).state = b.state ∨
      b.state = .HALF_OPEN ∧ (recordSuccess config b).state = .CLOSED := by
  have effect := recordSuccess_effect config 0 b
  generalize recordSuccess config b = b' at effect
  cases effect with
  | cleared h => exact .inl h.symm
  | ignored h => exact .inl rfl
  | counted h below => exact .inl h.symm
  | recovered h reached => exact .inr ⟨h, rfl⟩

/-- The counters keep to the history: CLOSED opens at the threshold-th failure since the
failures were last cleared, HALF_OPEN closes at the threshold-th success since it was entered
and opens at any failure, and no other recorded outcome changes the state. -/
theorem Run.outcomes (run : Run config steps b) (positive : 1 ≤ config.failureThreshold)
    (positive' : 1 ≤ config.successThreshold) (now : K) :
    (b.state = .CLOSED → ((recordFailure config now b).state = .OPEN ↔
      (failures steps : ℤ) + 1 = config.failureThreshold)) ∧
    (b.state = .HALF_OPEN → ((recordSuccess config b).state = .CLOSED ↔
      (successes steps : ℤ) + 1 = config.successThreshold)) ∧
    (b.state = .HALF_OPEN → (recordFailure config now b).state = .OPEN) ∧
    ((recordFailure config now b).state = b.state ∨
      (recordFailure config now b).state = .OPEN) ∧
    ((recordSuccess config b).state = b.state ∨
      b.state = .HALF_OPEN ∧ (recordSuccess config b).state = .CLOSED) := by
  have counts := run.countsFailures positive
  have counts' := run.countsSuccesses positive'
  exact ⟨counts.trips_iff, counts'.completes_iff, recordFailure_halfOpen config now,
    recordFailure_state config now b, recordSuccess_state config b⟩

end Counters

/-! One failure under a limit of two. -/

section Sample

def SIEM_CIRCUIT_BREAKER_CONFIG : CircuitBreakerConfig ℚ := ⟨3, 2, 60⟩

theorem outcomes_sample :
    (recordFailure ⟨2, 1, (60 : ℚ)⟩ 5 (recordFailure ⟨2, 1, 60⟩ 0 initial)).state = .OPEN := by
  have run : Run ⟨2, 1, (60 : ℚ)⟩ _ _ := Run.start.step .recordFailure 0
  exact ((run.outcomes (by decide) (by decide) 5).1 rfl).mpr rfl

end Sample

end CircuitBreakers
