import SynapticBridge.CircuitBreakers
import SynapticBridge.Domain
import SynapticBridge.StepTraces

/-! Functions wrapped by `CircuitBreaker.__call__`. Coroutine functions are admitted and
accounted for; the wrapper of a plain function neither asks the clock nor records anything,
and hides what the function raises. -/
namespace BreakerWrapping

open Domain CircuitBreakers StepTraces

inductive Outcome (α : Type) where
  | returned (value : α)
  | raised (e : PyException)
  | interrupted

/-- `coroutine` is a plain function that returns a coroutine. -/
inductive FunctionKind where
  | coroutineFunction
  | plain
  | coroutine
  deriving DecidableEq, Repr

structure Invocation (α K : Type) where
  kind : FunctionKind
  outcome : Outcome α
  checkedAt : K
  retryAt : K
  recordedAt : K

inductive Answer (α K : Type) where
  | ended (outcome : Outcome α)
  | nothing
  | rejected (name : String) (retryAfter : K)

section Wrappers

variable {α K : Type} [Field K] [LinearOrder K]

def circuitBreakerError (name : String) (config : CircuitBreakerConfig K) (now : K)
    (b : CircuitBreaker K) : Answer α K × CircuitBreaker K :=
  (.rejected name (timeUntilRetry config now b), b)

def wrapper (name : String) (config : CircuitBreakerConfig K) (b : CircuitBreaker K)
    (c : Invocation α K) : Answer α K × CircuitBreaker K :=
  let b := maybeTransitionFromOpen config c.checkedAt b
  if b.state = .OPEN then circuitBreakerError name config c.retryAt b
  else
    match c.outcome with
    | .returned value => (.ended (.returned value), recordSuccess config b)
    | .raised e => (.ended (.raised e), recordFailure config c.recordedAt b)
    | .interrupted => (.ended .interrupted, b)

/-- `sync_wrapper`. A coroutine is handed to `self._wrap_async`, which no breaker has, and the
`AttributeError` is hidden like every other exception. -/
def syncWrapper (name : String) (config : CircuitBreakerConfig K) (b : CircuitBreaker K)
    (c : Invocation α K) : Answer α K × CircuitBreaker K :=
  if b.state = .OPEN then circuitBreakerError name config c.retryAt b
  else if c.kind = .coroutine then (.nothing, b)
  else
    match c.outcome with
    | .returned value => (.ended (.returned value), b)
    | .raised _ => (.nothing, b)
    | .interrupted => (.ended .interrupted, b)

def invoke (name : String) (config : CircuitBreakerConfig K) (b : CircuitBreaker K)
    (c : Invocation α K) : Answer α K × CircuitBreaker K :=
  if c.kind = .coroutineFunction then wrapper name config b c else syncWrapper name config b c

end Wrappers

section Intended

variable {α K : Type} [Field K] [LinearOrder K]

def account (config : CircuitBreakerConfig K) (now : K) (outcome : Outcome α)
    (b : CircuitBreaker K) : CircuitBreaker K :=
  match outcome with
  | .returned _ => recordSuccess config b
  | .raised _ | .interrupted => recordFailure config now b

instance (config : CircuitBreakerConfig K) (now : K) (b : CircuitBreaker K) :
    Decidable (Elapsed config now b) :=
  inferInstanceAs (Decidable (∀ last ∈ b.lastFailureTime, config.timeoutSeconds ≤ now - last))

/-- What a transparent wrapper does with every call: reject it while the breaker is OPEN and its
timeout has not elapsed, else let the outcome through and account for it. -/
def intended (name : String) (config : CircuitBreakerConfig K) (b : CircuitBreaker K)
    (c : Invocation α K) : Answer α K × CircuitBreaker K :=
  if b.state = .OPEN ∧ ¬ Elapsed config c.checkedAt b then
    circuitBreakerError name config c.retryAt b
  else
    (.ended c.outcome,
      account config c.recordedAt c.outcome (maybeTransitionFromOpen config c.checkedAt b))

end Intended

section Admission

variable {K : Type} [Field K] [LinearOrder K] {config : CircuitBreakerConfig K} {now : K}
  {b : CircuitBreaker K}

theorem waits (h : b.state = .OPEN ∧ ¬ Elapsed config now b) :
    maybeTransitionFromOpen config now b = b := by
  have effect := maybeTransitionFromOpen_effect config now b
  generalize maybeTransitionFromOpen config now b = b' at effect
  cases effect with
  | passed hstate => rfl
  | waited hopen early => rfl
  | tried hopen elapsed => exact absurd elapsed h.2

theorem admits (h : ¬ (b.state = .OPEN ∧ ¬ Elapsed config now b)) :
    (maybeTransitionFromOpen config now b).state ≠ .OPEN := by
  have effect := maybeTransitionFromOpen_effect config now b
  generalize maybeTransitionFromOpen config now b = b' at effect
  cases effect with
  | passed hstate => exact hstate
  | waited hopen early => exact absurd ⟨hopen, early⟩ h
  | tried hopen elapsed => simp

theorem recordFailure_ne (config : CircuitBreakerConfig K) (now : K) (b : CircuitBreaker K) :
    recordFailure config now b ≠ b := by
  have counted : (recordFailure config now b).failureCount = b.failureCount + 1 := by
    have effect := recordFailure_effect config now b
    generalize recordFailure config now b = b' at effect
    cases effect with
    | tolerated h below => rfl
    | tripped h reached => rfl
    | extended h => rfl
    | relapsed h => rfl
  intro h
  rw [h] at counted
  omega

theorem recordSuccess_eq_self (admitted : b.state ≠ .OPEN) :
    recordSuccess config b = b ↔ b.state = .CLOSED ∧ b.failureCount = 0 := by
  obtain ⟨state, failureCount, successCount, last⟩ := b
  have effect := recordSuccess_effect config 0 ⟨state, failureCount, successCount, last⟩
  generalize recordSuccess config ⟨state, failureCount, successCount, last⟩ = b' at effect
  cases effect with
  | cleared h =>
    obtain rfl : state = .CLOSED := h
    simp [eq_comm]
  | ignored h => exact absurd h admitted
  | counted h below =>
    obtain rfl : state = .HALF_OPEN := h
    simp
  | recovered h reached =>
    obtain rfl : state = .HALF_OPEN := h
    simp

end Admission

section Transparency

variable {α K : Type} [Field K] [LinearOrder K] {name : String} {config : CircuitBreakerConfig K}
  {b : CircuitBreaker K} {c : Invocation α K}

/-- The call is rejected rightly, or it is one of a coroutine function that is not interrupted,
or one of a plain function that returns when there is nothing to record. -/
def Meets (config : CircuitBreakerConfig K) (b : CircuitBreaker K) (c : Invocation α K) : Prop :=
  (b.state = .OPEN ∧ ¬ Elapsed config c.checkedAt b) ∨
    (c.kind = .coroutineFunction ∧ c.outcome ≠ .interrupted) ∨
    (c.kind = .plain ∧ (∃ value, c.outcome = .returned value) ∧ b.state = .CLOSED ∧
      b.failureCount = 0)

theorem wrapper_eq_intended (admitted : ¬ (b.state = .OPEN ∧ ¬ Elapsed config c.checkedAt b)) :
    wrapper name config b c = intended name config b c ↔ c.outcome ≠ .interrupted := by
  rw [wrapper, intended, if_neg admitted, if_neg (admits admitted)]
  cases c.outcome with
  | returned value => simp [account]
  | raised e => simp [account]
  | interrupted => simp [account, (recordFailure_ne config _ _).symm]

theorem syncWrapper_eq_intended (plain : c.kind ≠ .coroutineFunction)
    (admitted : ¬ (b.state = .OPEN ∧ ¬ Elapsed config c.checkedAt b)) :
    syncWrapper name config b c = intended name config b c ↔ c.kind = .plain ∧
      (∃ value, c.outcome = .returned value) ∧ b.state = .CLOSED ∧ b.failureCount = 0 := by
  rw [syncWrapper, intended, if_neg admitted]
  by_cases hopen : b.state = .OPEN
  · -- the plain wrapper never leaves OPEN
    rw [if_pos hopen]
    simp [circuitBreakerError, hopen]
  · have hstay : maybeTransitionFromOpen config c.checkedAt b = b := by
      rw [maybeTransitionFromOpen, if_pos hopen]
    rw [if_neg hopen, hstay]
    cases hkind : c.kind with
    | coroutineFunction => exact absurd hkind plain
    | coroutine => simp
    | plain =>
      cases c.outcome with
      | returned value =>
        have hsame : b = recordSuccess config b ↔ _ :=
          eq_comm.trans (recordSuccess_eq_self hopen)
        simp [account, hsame]
      | raised e => simp
      | interrupted => simp [account, (recordFailure_ne config _ _).symm]

theorem invoke_eq_intended (name : String) (config : CircuitBreakerConfig K)
    (b : CircuitBreaker K) (c : Invocation α K) :
    invoke name config b c = intended name config b c ↔ Meets config b c := by
  by_cases hwaits : b.state = .OPEN ∧ ¬ Elapsed config c.checkedAt b
  · refine iff_of_true ?_ (.inl hwaits)
    rw [invoke, intended, if_pos hwaits, wrapper, syncWrapper, waits hwaits]
    simp only [hwaits.1, if_true, ite_self]
  · rw [invoke, Meets]
    by_cases hkind : c.kind = .coroutineFunction
    · rw [if_pos hkind, wrapper_eq_intended hwaits]
      simp [hwaits, hkind]
    · rw [if_neg hkind, syncWrapper_eq_intended hkind hwaits]
      simp [hwaits, hkind]

/-- Wrapped calls answer and leave the breaker as intended, all along the run, exactly when
every call meets the condition in the state it finds. -/
theorem transparent_iff (name : String) (config : CircuitBreakerConfig K) (b : CircuitBreaker K)
    (calls : List (Invocation α K)) :
    trace (invoke name config) b calls = trace (intended name config) b calls ↔
      Along (invoke name config) (Meets config) b calls :=
  (trace_eq_iff b calls).trans (along_congr (invoke_eq_intended name config) b calls)

/-! A plain function that raises, on a new breaker. -/

def failingCall : Invocation String ℚ :=
  ⟨.plain, .raised (.valueError "connection refused"), 0, 0, 0⟩

theorem exception_hidden :
    invoke "siem" SIEM_CIRCUIT_BREAKER_CONFIG initial failingCall = (.nothing, initial) ∧
    trace (invoke "siem" SIEM_CIRCUIT_BREAKER_CONFIG) initial [failingCall] ≠
      trace (intended "siem" SIEM_CIRCUIT_BREAKER_CONFIG) initial [failingCall] := by
  refine ⟨rfl, ?_⟩
  intro h
  cases congrArg Prod.fst (List.cons.inj h).1

end Transparency

end BreakerWrapping
