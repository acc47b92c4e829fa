import SynapticBridge.Doubles
import SynapticBridge.OrderedDict

/-! `SlidingWindowRateLimiter`, in the arithmetic of its clock. The limiter prunes its timestamps;
the ledger of accepted calls never does. Pruned and full lists agree on every window that is still
to come. -/
namespace RateLimiter

open OrderedDict Doubles

structure RateLimitConfig (K : Type) where
  requestsPerWindow : ℤ
  windowSeconds : K

/-- The headers that go with an answer; only a rejection says when to retry. -/
structure Info where
  limit : String
  remaining : String
  reset : String
  retryAfter : Option String
  deriving DecidableEq, Repr

/-- `self._requests`, a `defaultdict(list)`. -/
abbrev Requests (K : Type) := Dict String (List K)

section Table

variable {K : Type}

def requestTimes (requests : Requests K) (key : String) : List K := (requests.get? key).getD []

def reset (key : String) (requests : Requests K) : Requests K := requests.pop key

theorem requestTimes_set (requests : Requests K) (key k : String) (times : List K) :
    requestTimes (requests.set key times) k =
      if k = key then times else requestTimes requests k := by
  rw [requestTimes, Dict.get?_set]
  split_ifs
  · rfl
  · rfl

theorem requestTimes_reset (requests : Requests K) (key k : String) :
    requestTimes (reset key requests) k = if k = key then [] else requestTimes requests k := by
  rw [requestTimes, reset, Dict.get?_pop]
  split_ifs
  · rfl
  · rfl

end Table

section Limiter

variable {K : Type} [Field K] [LinearOrder K] [FloorRing K]

/-- `int(x)` rounds towards zero. -/
def truncate (x : K) : ℤ := if 0 ≤ x then ⌊x⌋ else ⌈x⌉

def inWindowIn (ar : Arithmetic K) (config : RateLimitConfig K) (now : K) (times : List K) :
    List K :=
  times.filter fun t => ar.sub now config.windowSeconds < t

/-- `is_allowed(key)` at clock reading `now`: answer, headers and the stored timestamps. -/
def isAllowedIn (ar : Arithmetic K) (config : RateLimitConfig K) (now : K) (key : String)
    (requests : Requests K) : (Bool × Info) × Requests K :=
  let times := inWindowIn ar config now (requestTimes requests key)
  let requests := requests.set key times
  let count : ℤ := times.length
  let remaining := max 0 (config.requestsPerWindow - count)
  if config.requestsPerWindow ≤ count then
    let oldest := times.min?.getD now
    let retryAfter := ar.sub (ar.add oldest config.windowSeconds) now
    ((false,
      { limit := toString config.requestsPerWindow
        remaining := "0"
        reset := toString (truncate (ar.add oldest config.windowSeconds))
        retryAfter := some (toString (truncate retryAfter)) }), requests)
  else
    let resetTime := match times.min? with
      | some oldest => ar.add oldest config.windowSeconds
      | none => ar.add now config.windowSeconds
    ((true,
      { limit := toString config.requestsPerWindow
        remaining := toString remaining
        reset := toString (truncate resetTime)
        retryAfter := none }), requests.set key (times ++ [now]))

theorem isAllowedIn_iff (ar : Arithmetic K) (config : RateLimitConfig K) (now : K) (key : String)
    (requests : Requests K) : (isAllowedIn ar config now key requests).1.1 = true ↔
      ((inWindowIn ar config now (requestTimes requests key)).length : ℤ) <
        config.requestsPerWindow := by
  unfold isAllowedIn
  by_cases h : config.requestsPerWindow ≤
    ((inWindowIn ar config now (requestTimes requests key)).length : ℤ)
  · simp [h]
  · simp [h, not_le.mp h]

/-- A call rewrites the list of its own key only. -/
theorem requestTimes_isAllowedIn (ar : Arithmetic K) (config : RateLimitConfig K) (now : K)
    (key k : String) (requests : Requests K) :
    requestTimes (isAllowedIn ar config now key requests).2 k =
      if k = key then inWindowIn ar config now (requestTimes requests key) ++
        (if (isAllowedIn ar config now key requests).1.1 then [now] else [])
      else requestTimes requests k := by
  unfold isAllowedIn
  by_cases h : config.requestsPerWindow ≤
    ((inWindowIn ar config now (requestTimes requests key)).length : ℤ)
  · simp [h, requestTimes_set]
  · simp only [if_neg h, if_true, requestTimes_set]
    split_ifs
    · rfl
    · rfl

end Limiter

section Histories

variable {K : Type}

/-- One call on the limiter, with its clock reading and answer. -/
inductive Event (K : Type) where
  | call (key : String) (now : K) (allowed : Bool)
  | reset (key : String)
  | resetAll

/-- The latest event comes first. -/
abbrev History (K : Type) := List (Event K)

def readings : History K → List K
  | [] => []
  | .call _ now _ :: h => now :: readings h
  | _ :: h => readings h

/-- The ledger: when calls for `k` were accepted since its last reset. -/
def accepted (k : String) : History K → List K
  | [] => []
  | .call key now allowed :: h =>
    if key = k ∧ allowed then accepted k h ++ [now] else accepted k h
  | .reset key :: h => if key = k then [] else accepted k h
  | .resetAll :: _ => []

end Histories

section Runs

variable {K : Type} [Field K] [LinearOrder K] [FloorRing K]

/-- Runs of one limiter at nondecreasing clock readings. -/
inductive RunIn (ar : Arithmetic K) (config : RateLimitConfig K) :
    Requests K → History K → Prop where
  | start : RunIn ar config .empty []
  | call {requests : Requests K} {h : History K} (run : RunIn ar config requests h) (key : String)
      (now : K) (ordered : ∀ t ∈ readings h, t ≤ now) :
      RunIn ar config (isAllowedIn ar config now key requests).2
        (.call key now (isAllowedIn ar config now key requests).1.1 :: h)
  | reset {requests : Requests K} {h : History K} (run : RunIn ar config requests h)
      (key : String) : RunIn ar config (reset key requests) (.reset key :: h)
  | resetAll {requests : Requests K} {h : History K} (run : RunIn ar config requests h) :
      RunIn ar config .empty (.resetAll :: h)

variable {ar : Arithmetic K} {config : RateLimitConfig K} {requests : Requests K} {h : History K}

omit [Field K] [FloorRing K] in
/-- Pruning is idempotent, also when the reading moves on. -/
theorem inWindowIn_inWindowIn (orderly : ar.Orderly) (config : RateLimitConfig K) {now x : K}
    (h : now ≤ x) (times : List K) :
    inWindowIn ar config x (inWindowIn ar config now times) = inWindowIn ar config x times := by
  unfold inWindowIn
  rw [List.filter_filter]
  apply List.filter_congr
  intro t _
  rw [← Bool.decide_and, decide_eq_decide]
  constructor
  · exact And.left
  · intro ht
    exact ⟨ht, (orderly config.windowSeconds h).trans_lt ht⟩

/-- Looking back from a later reading, what was forgotten would not count anyway. -/
theorem RunIn.window_eq (orderly : ar.Orderly) (run : RunIn ar config requests h) (k : String)
    {x : K} (later : ∀ t ∈ readings h, t ≤ x) :
    inWindowIn ar config x (requestTimes requests k) = inWindowIn ar config x (accepted k h) := by
  induction run with
  | start => rfl
  | @call requests h run key now ordered ih =>
    have hnow : now ≤ x := later now List.mem_cons_self
    have hlater : ∀ t ∈ readings h, t ≤ x := fun t ht => later t (List.mem_cons_of_mem _ ht)
    rw [requestTimes_isAllowedIn]
    by_cases hk : k = key
    · subst hk
      have hpruned := inWindowIn_inWindowIn orderly config hnow (requestTimes requests k)
      cases hallowed : (isAllowedIn ar config now k requests).1.1 with
      | true =>
        simp only [accepted, and_self, if_true, inWindowIn, List.filter_append] at hpruned ih ⊢
        rw [hpruned, ih hlater]
      | false =>
        simp only [accepted, and_false, if_false, if_true, List.append_nil, Bool.false_eq_true]
        rw [hpruned, ih hlater]
    · rw [if_neg hk, accepted, if_neg (fun h => hk h.1.symm)]
      exact ih hlater
  | @reset requests h run key ih =>
    rw [requestTimes_reset, accepted]
    by_cases hk : k = key
    · rw [if_pos hk, if_pos hk.symm]
    · rw [if_neg hk, if_neg (Ne.symm hk)]
      exact ih later
  | resetAll run ih => rfl

/-- The limiter answers as the ledger does. -/
theorem RunIn.isAllowed_iff_ledger (orderly : ar.Orderly) (run : RunIn ar config requests h)
    (k : String) {now : K} (later : ∀ t ∈ readings h, t ≤ now) :
    (isAllowedIn ar config now k requests).1.1 = true ↔
      ((inWindowIn ar config now (accepted k h)).length : ℤ) < config.requestsPerWindow := by
  rw [isAllowedIn_iff, run.window_eq orderly k later]

/-- The timestamps in `(a, b]`. -/
def within (a b : K) (times : List K) : List K :=
  times.filter fun t => decide (a < t) && decide (t ≤ b)

omit [Field K] [FloorRing K] in
/-- Before an accepted call, the calls in any window that contains it were counted. -/
theorem within_le_inWindowIn (orderly : ar.Orderly) {a b now : K}
    (window : ar.sub b config.windowSeconds ≤ a) (h : now ≤ b) (times : List K) :
    (within a b times).length ≤ (inWindowIn ar config now times).length := by
  refine (List.monotone_filter_right times ?_).length_le
  intro t ht
  rw [Bool.and_eq_true, decide_eq_true_iff] at ht
  simp only [decide_eq_true_eq]
  exact ((orderly config.windowSeconds h).trans window).trans_lt ht.1

/-- No window of the configured width ever holds more accepted calls than configured. -/
theorem RunIn.within_le (orderly : ar.Orderly) (run : RunIn ar config requests h) (k : String)
    {a b : K} (window : ar.sub b config.windowSeconds ≤ a) :
    ((within a b (accepted k h)).length : ℤ) ≤ max config.requestsPerWindow 0 := by
  induction run with
  | start => simp [accepted, within]
  | @call requests h run key now ordered ih =>
    rw [accepted]
    split_ifs with hcall
    · obtain ⟨rfl, hallowed⟩ := hcall
      rw [run.isAllowed_iff_ledger orderly key ordered] at hallowed
      rw [within, List.filter_append, List.length_append]
      by_cases hnow : a < now ∧ now ≤ b
      · -- `now` is the last accepted call of the window, so all others were counted
        have hcount := within_le_inWindowIn orderly window hnow.2 (accepted key h)
        rw [within] at hcount
        simp only [List.filter_cons, hnow, decide_true, Bool.and_self, if_true, List.filter_nil,
          List.length_singleton]
        omega
      · have hout : (decide (a < now) && decide (now ≤ b)) = false := by
          rw [← Bool.decide_and]
          exact decide_eq_false hnow
        simp only [List.filter_cons, hout, List.filter_nil, Bool.false_eq_true, if_false,
          List.length_nil, Nat.add_zero]
        exact ih
    · exact ih
  | @reset requests h run key ih =>
    rw [accepted]
    split_ifs
    · simp [within]
    · exact ih
  | resetAll run ih => simp [accepted, within]

/-- Every answer is the ledger's for the window that the clock's arithmetic computes, and so every
stretch of time that this arithmetic finds no longer than the window holds at most the configured
number of calls accepted between resets. -/
theorem RunIn.sliding_window (orderly : ar.Orderly) (run : RunIn ar config requests h)
    (k : String) :
    (∀ now, (∀ t ∈ readings h, t ≤ now) →
      ((isAllowedIn ar config now k requests).1.1 = true ↔
        (((accepted k h).filter fun t => ar.sub now config.windowSeconds < t).length : ℤ) <
          config.requestsPerWindow)) ∧
    ∀ a b, ar.sub b config.windowSeconds ≤ a →
      (((accepted k h).filter fun t => decide (a < t) && decide (t ≤ b)).length : ℤ) ≤
        max config.requestsPerWindow 0 :=
  ⟨fun _ later => run.isAllowed_iff_ledger orderly k later,
    fun _ _ window => run.within_le orderly k window⟩

end Runs

/-! One call in a tenth of a second, read by a clock in doubles. -/

section Rounded

def tenth : ℚ := 3602879701896397 / 36028797018963968
def firstReading : ℚ := 1700000000
def secondReading : ℚ := 3565158400209715 / 2097152
def perTenth : RateLimitConfig ℚ := ⟨1, tenth⟩

theorem sliding_window_sample :
    let first := isAllowedIn double perTenth firstReading "a" .empty
    ((isAllowedIn double perTenth secondReading "a" first.2).1.1 = true ↔
      (((accepted "a" [.call "a" firstReading first.1.1]).filter fun t =>
        double.sub secondReading tenth < t).length : ℤ) < 1) ∧
    (((accepted "a" [.call "a" firstReading first.1.1]).filter fun t =>
      decide (double.sub secondReading tenth < t) && decide (t ≤ secondReading)).length : ℤ) ≤
      max 1 0 := by
  have run : RunIn double perTenth _ _ := RunIn.start.call "a" firstReading (by simp [readings])
  have later : ∀ t ∈ [firstReading], t ≤ secondReading := by decide +kernel
  obtain ⟨hanswer, hwindow⟩ := run.sliding_window double_orderly "a"
  exact ⟨hanswer secondReading later, hwindow _ secondReading le_rfl⟩

/-- The second call comes less than the window after the first and is accepted. -/
theorem two_calls_in_window : (∀ x ∈ [tenth, firstReading, secondReading], toDouble x = x) ∧
    ∃ requests h, RunIn double perTenth requests h ∧
    accepted "a" h = [firstReading, secondReading] ∧
    secondReading - tenth < firstReading ∧
    ¬ (((accepted "a" h).filter fun t => decide (secondReading - tenth < t) &&
      decide (t ≤ secondReading - tenth + tenth)).length : ℤ) ≤ max 1 0 := by
  have first : RunIn double perTenth _ _ := RunIn.start.call "a" firstReading (by simp [readings])
  have later : ∀ t ∈ [firstReading], t ≤ secondReading := by decide +kernel
  exact ⟨by decide +kernel, _, _, first.call "a" secondReading later, by decide +kernel,
    by decide +kernel, by decide +kernel⟩

end Rounded

/-! The limiter in exact arithmetic. -/

section Exact

variable {K : Type} [Field K] [LinearOrder K]

def inWindow (config : RateLimitConfig K) (now : K) (times : List K) : List K :=
  times.filter fun t => now - config.windowSeconds < t

theorem inWindowIn_exact (config : RateLimitConfig K) (now : K) (times : List K) :
    inWindowIn exact config now times = inWindow config now times := rfl

theorem inWindow_inWindow [IsStrictOrderedRing K] (config : RateLimitConfig K) {now x : K}
    (h : now ≤ x) (times : List K) :
    inWindow config x (inWindow config now times) = inWindow config x times :=
  inWindowIn_inWindowIn exact_orderly config h times

variable [FloorRing K]

abbrev isAllowed (config : RateLimitConfig K) (now : K) (key : String) (requests : Requests K) :
    (Bool × Info) × Requests K := isAllowedIn exact config now key requests

abbrev Run (config : RateLimitConfig K) : Requests K → History K → Prop := RunIn exact config

theorem isAllowed_iff (config : RateLimitConfig K) (now : K) (key : String)
    (requests : Requests K) : (isAllowed config now key requests).1.1 = true ↔
      ((inWindow config now (requestTimes requests key)).length : ℤ) <
        config.requestsPerWindow := isAllowedIn_iff exact config now key requests

theorem requestTimes_isAllowed (config : RateLimitConfig K) (now : K) (key k : String)
    (requests : Requests K) : requestTimes (isAllowed config now key requests).2 k =
      if k = key then inWindow config now (requestTimes requests key) ++
        (if (isAllowed config now key requests).1.1 then [now] else [])
      else requestTimes requests k := requestTimes_isAllowedIn exact config now key k requests

theorem Run.isAllowed_iff_ledger [IsStrictOrderedRing K] {config : RateLimitConfig K}
    {requests : Requests K} {h : History K} (run : Run config requests h) (k : String) {now : K}
    (later : ∀ t ∈ readings h, t ≤ now) :
    (isAllowed config now k requests).1.1 = true ↔
      ((inWindow config now (accepted k h)).length : ℤ) < config.requestsPerWindow :=
  RunIn.isAllowed_iff_ledger exact_orderly run k later

end Exact

end RateLimiter
