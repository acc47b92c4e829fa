import SynapticBridge.SiemConnectors
import Mathlib.Data.List.Infix
import Mathlib.Tactic.NormNum

/-! Concurrent sends on one breaker: an admission, and later one outcome. An outcome does not
say when its send was admitted, so HALF_OPEN counts late successes of earlier phases. -/
namespace BreakerProbes

open HistoryCounts CircuitBreakers SiemConnectors

/-- The epoch of a send is how often HALF_OPEN had been entered when it was admitted. -/
inductive Event where
  | admission
  | outcome (epoch : ℕ) (delivery : Delivery)

structure System (K : Type) where
  breaker : CircuitBreaker K
  inFlight : List ℕ
  entries : ℕ

/-- One event with its clock reading and the system before and after it. -/
structure Move (K : Type) where
  event : Event
  now : K
  before : System K
  after : System K

section Moves

variable {K : Type}

/-- What an event does to the breaker. -/
def Event.operation : Event → Operation
  | .admission => .maybeTransitionFromOpen
  | .outcome _ (.returned _) => .recordSuccess
  | .outcome _ .timedOut => .recordFailure
  | .outcome _ (.raised _) => .recordFailure

def Move.toStep (m : Move K) : Step K :=
  ⟨m.event.operation, m.now, m.before.breaker, m.after.breaker⟩

/-- The outcome of a send admitted since HALF_OPEN was last entered. -/
def Move.Fresh (m : Move K) : Prop :=
  match m.event with
  | .admission => False
  | .outcome epoch _ => epoch = m.before.entries

instance (m : Move K) : Decidable m.Fresh :=
  match h : m.event with
  | .admission => isFalse (by simp [Move.Fresh, h])
  | .outcome epoch _ => decidable_of_iff (epoch = m.before.entries) (by simp [Move.Fresh, h])

/-- The successes since HALF_OPEN was last entered, of sends admitted since then. -/
def freshSuccesses (moves : List (Move K)) : ℕ :=
  countSince (fun m => m.event.operation = .recordSuccess ∧ m.Fresh)
    (fun m => m.toStep.enters .HALF_OPEN) moves

/-- The successes since HALF_OPEN was last entered, of sends admitted before. -/
def staleSuccesses (moves : List (Move K)) : ℕ :=
  countSince (fun m => m.event.operation = .recordSuccess ∧ ¬ m.Fresh)
    (fun m => m.toStep.enters .HALF_OPEN) moves

theorem fresh_add_stale (moves : List (Move K)) :
    freshSuccesses moves + staleSuccesses moves = successes (moves.map Move.toStep) := by
  rw [successes, countSince_map]
  exact countSince_split Move.Fresh moves

def Move.closes (m : Move K) : Prop :=
  m.before.breaker.state = .HALF_OPEN ∧ m.after.breaker.state = .CLOSED

/-- The breaker closes only after enough successes of sends admitted in this HALF_OPEN. -/
def Recovers (config : CircuitBreakerConfig K) (moves : List (Move K)) : Prop :=
  ∀ m earlier, m :: earlier <:+ moves → m.closes →
    config.successThreshold ≤ freshSuccesses (m :: earlier)

/-- A success in HALF_OPEN that makes up the threshold. -/
def Move.Completes (config : CircuitBreakerConfig K) (m : Move K) : Prop :=
  m.event.operation = .recordSuccess ∧ m.before.breaker.state = .HALF_OPEN ∧
    config.successThreshold ≤ (m.before.breaker.successCount : ℤ) + 1

variable [Field K] [LinearOrder K]

/-- `send` up to `_do_send`. A send that is turned away has no outcome. -/
def letIn (config : CircuitBreakerConfig K) (now : K) (s : System K) : System K :=
  let breaker := maybeTransitionFromOpen config now s.breaker
  let entries :=
    if s.breaker.state ≠ .HALF_OPEN ∧ breaker.state = .HALF_OPEN then s.entries + 1 else s.entries
  ⟨breaker, if breaker.state = .OPEN then s.inFlight else entries :: s.inFlight, entries⟩

/-- `send` from `_do_send` on. -/
def settle (config : CircuitBreakerConfig K) (epoch : ℕ) (delivery : Delivery) (now : K)
    (s : System K) : System K :=
  ⟨record config delivery now s.breaker, s.inFlight.erase epoch, s.entries⟩

def start : System K := ⟨CircuitBreakers.initial, [], 0⟩

/-- Any interleaving of sends on a new breaker, the latest move first. -/
inductive Run (config : CircuitBreakerConfig K) : List (Move K) → System K → Prop where
  | start : Run config [] start
  | admission {moves : List (Move K)} {s : System K} (run : Run config moves s) (now : K) :
      Run config (⟨.admission, now, s, letIn config now s⟩ :: moves) (letIn config now s)
  | outcome {moves : List (Move K)} {s : System K} (run : Run config moves s) (epoch : ℕ)
      (delivery : Delivery) (now : K) (pending : epoch ∈ s.inFlight) :
      Run config (⟨.outcome epoch delivery, now, s, settle config epoch delivery now s⟩ :: moves)
        (settle config epoch delivery now s)

end Moves

section Probes

variable {K : Type} [Field K] [LinearOrder K] {config : CircuitBreakerConfig K}
  {moves : List (Move K)} {s : System K}

/-- The breaker sees the operations of the moves. -/
theorem Run.breaker (run : Run config moves s) :
    CircuitBreakers.Run config (moves.map Move.toStep) s.breaker := by
  induction run with
  | start => exact .start
  | @admission moves s run now ih => exact ih.step .maybeTransitionFromOpen now
  | @outcome moves s run epoch delivery now pending ih =>
    cases delivery with
    | returned result => exact ih.step .recordSuccess now
    | timedOut => exact ih.step .recordFailure now
    | raised e => exact ih.step .recordFailure now

/-- What a move of a run did, and that the moves before it are a run. -/
theorem Run.of_suffix (run : Run config moves s) {m : Move K} {earlier : List (Move K)}
    (h : m :: earlier <:+ moves) :
    Run config earlier m.before ∧
      m.after.breaker = m.event.operation.apply config m.now m.before.breaker := by
  induction run with
  | start => simp at h
  | @admission moves s run now ih =>
    rcases List.suffix_cons_iff.mp h with heq | h
    · obtain ⟨rfl, rfl⟩ := List.cons.inj heq
      exact ⟨run, rfl⟩
    · exact ih h
  | @outcome moves s run epoch delivery now pending ih =>
    rcases List.suffix_cons_iff.mp h with heq | h
    · obtain ⟨rfl, rfl⟩ := List.cons.inj heq
      refine ⟨run, ?_⟩
      cases delivery with
      | returned result => rfl
      | timedOut => rfl
      | raised e => rfl
    · exact ih h

omit [Field K] [LinearOrder K] in
/-- A send only asks for admission and records outcomes. -/
theorem operation_cases (e : Event) : e.operation = .maybeTransitionFromOpen ∨
    e.operation = .recordSuccess ∨ e.operation = .recordFailure := by
  cases e with
  | admission => exact .inl rfl
  | outcome epoch delivery =>
    cases delivery with
    | returned result => exact .inr (.inl rfl)
    | timedOut => exact .inr (.inr rfl)
    | raised e => exact .inr (.inr rfl)

/-- Only a success closes a HALF_OPEN breaker, the one that makes up the threshold. -/
theorem closes_iff_completes {m : Move K}
    (h : m.after.breaker = m.event.operation.apply config m.now m.before.breaker) :
    m.closes ↔ m.Completes config := by
  unfold Move.closes Move.Completes
  rcases operation_cases m.event with hop | hop | hop
  · have effect := maybeTransitionFromOpen_effect config m.now m.before.breaker
    rw [hop] at h ⊢
    rw [show m.after.breaker = maybeTransitionFromOpen config m.now m.before.breaker from h]
    generalize maybeTransitionFromOpen config m.now m.before.breaker = b' at effect
    refine iff_of_false ?_ (by simp)
    rintro ⟨hhalf, hclosed⟩
    cases effect with
    | passed hopen => simp [hhalf] at hclosed
    | waited hopen early => simp [hhalf] at hopen
    | tried hopen elapsed => simp at hclosed
  · have effect := recordSuccess_effect config m.now m.before.breaker
    rw [hop] at h ⊢
    rw [show m.after.breaker = recordSuccess config m.before.breaker from h]
    generalize recordSuccess config m.before.breaker = b' at effect
    cases effect with
    | cleared hclosed => simp [hclosed]
    | ignored hopen => simp [hopen]
    | counted hhalf below => simp [hhalf, below]
    | recovered hhalf reached => simp [hhalf, reached]
  · rw [hop] at h ⊢
    refine iff_of_false ?_ (by simp)
    rintro ⟨hhalf, hclosed⟩
    have := recordFailure_halfOpen config m.now hhalf
    rw [show m.after.breaker = recordFailure config m.now m.before.breaker from h, this] at hclosed
    cases hclosed

/-- A breaker that closes has counted exactly the threshold, fresh or stale. -/
theorem Run.counted (run : Run config moves s) (positive : 1 ≤ config.successThreshold)
    {m : Move K} {earlier : List (Move K)} (h : m :: earlier <:+ moves)
    (completes : m.Completes config) :
    ((freshSuccesses (m :: earlier) + staleSuccesses (m :: earlier) : ℕ) : ℤ) =
      config.successThreshold := by
  obtain ⟨hearlier, hafter⟩ := run.of_suffix h
  obtain ⟨hop, hhalf, reached⟩ := completes
  obtain ⟨hcount, below⟩ := hearlier.breaker.countsSuccesses positive hhalf
  have hstays : ¬ m.toStep.enters .HALF_OPEN := fun henters => henters.1 hhalf
  rw [fresh_add_stale, List.map_cons, successes_of_success hstays hop, ← hcount]
  push_cast
  omega

/-- The breaker recovers on its own probes exactly if, whenever a success makes up a positive
threshold, no late success of an earlier phase was counted. -/
theorem recovers_iff (run : Run config moves s) :
    Recovers config moves ↔ ∀ m earlier, m :: earlier <:+ moves → m.Completes config →
      0 < config.successThreshold → staleSuccesses (m :: earlier) = 0 := by
  refine forall₃_congr fun m earlier h => ?_
  rw [closes_iff_completes (run.of_suffix h).2]
  refine forall_congr' fun completes => ?_
  by_cases positive : 0 < config.successThreshold
  · have := run.counted positive h completes
    push_cast at this
    constructor
    · intro hfresh _
      omega
    · intro hstale
      have := hstale positive
      omega
  · exact iff_of_true (by omega) fun h => absurd h positive

end Probes

/-! Two sends are let through and one fails, which opens the breaker. A third send takes it to
HALF_OPEN, and then a success arrives: of the third send, or of the one still in flight. -/

section Sample

def sampleConfig : CircuitBreakerConfig ℚ := ⟨1, 1, 60⟩

def sampleSend (now : ℚ) (s : System ℚ) : Move ℚ :=
  ⟨.admission, now, s, letIn sampleConfig now s⟩

def sampleOutcome (epoch : ℕ) (delivery : Delivery) (now : ℚ) (s : System ℚ) : Move ℚ :=
  ⟨.outcome epoch delivery, now, s, settle sampleConfig epoch delivery now s⟩

def sampleFirst : Move ℚ := sampleSend 0 start
def sampleSecond : Move ℚ := sampleSend 0 sampleFirst.after
def sampleFailure : Move ℚ := sampleOutcome 0 .timedOut 1 sampleSecond.after
def sampleThird : Move ℚ := sampleSend 61 sampleFailure.after
def sampleSuccess (epoch : ℕ) : Move ℚ := sampleOutcome epoch (.returned true) 62 sampleThird.after

def sampleMoves (epoch : ℕ) : List (Move ℚ) :=
  [sampleSuccess epoch, sampleThird, sampleFailure, sampleSecond, sampleFirst]

theorem sample_run {epoch : ℕ} (pending : epoch ∈ sampleThird.after.inFlight) :
    Run sampleConfig (sampleMoves epoch) (sampleSuccess epoch).after :=
  ((((Run.start.admission 0).admission 0).outcome 0 .timedOut 1 (by decide)).admission
    61).outcome epoch (.returned true) 62 pending

theorem recovers_iff_sample : Recovers sampleConfig (sampleMoves 1) := by
  refine (recovers_iff (sample_run (by decide +kernel))).mpr ?_
  rintro m earlier h ⟨hop, -, -⟩ -
  rcases List.suffix_cons_iff.mp h with heq | h
  · rw [heq]
    decide +kernel
  · rw [← List.mem_tails] at h
    simp only [List.tails, List.mem_cons, List.cons.injEq, reduceCtorEq, List.not_mem_nil,
      or_false] at h
    rcases h with ⟨rfl, -⟩ | ⟨rfl, -⟩ | ⟨rfl, -⟩ | ⟨rfl, -⟩ <;> cases hop

/-- The breaker closes on the success of a send admitted before it opened. -/
theorem late_success_closes : ∃ config moves s, Run (K := ℚ) config moves s ∧
    ¬ Recovers config moves := by
  refine ⟨sampleConfig, sampleMoves 0, _, sample_run (by decide +kernel), fun recovers => ?_⟩
  have closes : (sampleSuccess 0).closes := ⟨by decide +kernel, by decide +kernel⟩
  have fresh := recovers (sampleSuccess 0) _ List.suffix_rfl closes
  revert fresh
  decide +kernel

end Sample

end BreakerProbes
