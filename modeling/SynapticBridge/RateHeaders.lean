import SynapticBridge.PythonText
import SynapticBridge.RateLimiter

/-! The headers of the rate limiter against the calls that follow. The remaining count is
taken before the call itself is entered, and the time to wait is rounded down. -/
namespace RateHeaders

open OrderedDict Doubles RateLimiter

variable {K : Type} [Field K] [LinearOrder K] [FloorRing K] {config : RateLimitConfig K}
  {requests requests' : Requests K} {h : History K} {k : String} {now : K}

def headerInt (text : String) : Option ℤ := PythonText.parseInt (PythonText.strip text.toList)

/-- `int(headers.get("Retry-After", 60))`, as `rate_limit` hands it on. -/
def retryAfter (info : Info) : Option ℤ := headerInt (info.retryAfter.getD "60")

def counted (config : RateLimitConfig K) (now : K) (k : String) (requests : Requests K) : List K :=
  inWindow config now (requestTimes requests k)

/-- When the window of the oldest counted timestamp ends. -/
def reopens (config : RateLimitConfig K) (now : K) (k : String) (requests : Requests K) : K :=
  (counted config now k requests).min?.getD now + config.windowSeconds

theorem headerInt_toString {n : ℤ} (h : 0 ≤ n) : headerInt (toString n) = some n := by
  obtain ⟨m, rfl⟩ := Int.eq_ofNat_of_zero_le h
  exact PythonText.parseInt_toString m

section Counts

theorem requestTimes_self (config : RateLimitConfig K) (now : K) (k : String)
    (requests : Requests K) : requestTimes (isAllowed config now k requests).2 k =
      counted config now k requests ++
        (if (isAllowed config now k requests).1.1 then [now] else []) := by
  rw [requestTimes_isAllowed, if_pos rfl, counted]

theorem length_le_limit (run : Run config requests h) (k : String) :
    ((requestTimes requests k).length : ℤ) ≤ max config.requestsPerWindow 0 := by
  induction run with
  | start => simp [requestTimes]
  | @call requests h run key now ordered ih =>
    by_cases hk : k = key
    · subst hk
      have hcounted : ((counted config now k requests).length : ℤ) ≤
          (requestTimes requests k).length := by
        exact_mod_cast List.length_filter_le _ _
      rw [requestTimes_self, List.length_append]
      cases hallowed : (isAllowed config now k requests).1.1 with
      | true =>
        have hroom := (isAllowed_iff config now k requests).mp hallowed
        simp only [if_true, List.length_singleton, Nat.cast_add, Nat.cast_one]
        unfold counted
        omega
      | false =>
        simp only [Bool.false_eq_true, if_false, List.length_nil, Nat.add_zero]
        omega
    · rw [requestTimes_isAllowed, if_neg hk]
      exact ih
  | @reset requests h run key ih =>
    rw [requestTimes_reset]
    split_ifs
    · simp
    · exact ih
  | resetAll run ih => simp [requestTimes]

/-- A reachable key is rejected when its limit is used up, no more and no less. -/
theorem length_counted_of_rejected (positive : 1 ≤ config.requestsPerWindow)
    (run : Run config requests h)
    (rejected : (isAllowed config now k requests).1.1 = false) :
    ((counted config now k requests).length : ℤ) = config.requestsPerWindow := by
  have hlimit := length_le_limit run k
  have hcounted : ((counted config now k requests).length : ℤ) ≤
      (requestTimes requests k).length := by
    exact_mod_cast List.length_filter_le _ _
  have hfull : ¬ ((counted config now k requests).length : ℤ) < config.requestsPerWindow := by
    rw [counted, ← isAllowed_iff, rejected]
    exact Bool.false_ne_true
  omega

end Counts

section Retry

inductive Elsewhere (config : RateLimitConfig K) (k : String) :
    Requests K → Requests K → Prop where
  | none (requests : Requests K) : Elsewhere config k requests requests
  | call {requests requests' : Requests K} (elsewhere : Elsewhere config k requests requests')
      (key : String) (other : key ≠ k) (now : K) :
      Elsewhere config k requests (isAllowed config now key requests').2
  | reset {requests requests' : Requests K} (elsewhere : Elsewhere config k requests requests')
      (key : String) (other : key ≠ k) :
      Elsewhere config k requests (RateLimiter.reset key requests')

theorem Elsewhere.requestTimes_eq (elsewhere : Elsewhere config k requests requests') :
    requestTimes requests' k = requestTimes requests k := by
  induction elsewhere with
  | none => rfl
  | call elsewhere key other now ih =>
    rw [requestTimes_isAllowed, if_neg (Ne.symm other)]
    exact ih
  | reset elsewhere key other ih =>
    rw [requestTimes_reset, if_neg (Ne.symm other)]
    exact ih

variable [IsStrictOrderedRing K]

theorem retryAfter_rejected (positive : 1 ≤ config.requestsPerWindow)
    (run : Run config requests h) (rejected : (isAllowed config now k requests).1.1 = false) :
    ∃ oldest, (counted config now k requests).min? = some oldest ∧
      retryAfter (isAllowed config now k requests).1.2 =
        some ⌊oldest + config.windowSeconds - now⌋ := by
  have hlength := length_counted_of_rejected positive run rejected
  cases hmin : (counted config now k requests).min? with
  | none =>
    rw [List.min?_eq_none_iff] at hmin
    rw [hmin] at hlength
    simp at hlength
    omega
  | some oldest =>
    refine ⟨oldest, rfl, ?_⟩
    have hopen : now - config.windowSeconds < oldest := by
      have hmem := List.mem_filter.mp (List.min?_mem hmin)
      exact of_decide_eq_true hmem.2
    have hwait : 0 ≤ oldest + config.windowSeconds - now := by linarith
    have hfull : config.requestsPerWindow ≤
        ((inWindow config now (requestTimes requests k)).length : ℤ) := hlength.ge
    rw [counted] at hmin
    simp only [isAllowedIn, inWindowIn_exact, exact, if_pos hfull, hmin, retryAfter,
      Option.getD_some, truncate, if_pos hwait]
    exact headerInt_toString (Int.floor_nonneg.mpr hwait)

/-- Waiting as long as the header says is enough exactly when the wait is a whole number of
seconds. -/
theorem retry_sufficient_iff (positive : 1 ≤ config.requestsPerWindow)
    (run : Run config requests h) (rejected : (isAllowed config now k requests).1.1 = false)
    (meanwhile : Elsewhere config k (isAllowed config now k requests).2 requests') :
    ∃ r : ℤ, retryAfter (isAllowed config now k requests).1.2 = some r ∧
      ((isAllowed config (now + r) k requests').1.1 = true ↔
        ∃ n : ℤ, reopens config now k requests - now = n) := by
  obtain ⟨oldest, hmin, hretry⟩ := retryAfter_rejected positive run rejected
  refine ⟨_, hretry, ?_⟩
  have hlength := length_counted_of_rejected positive run rejected
  have holdest := List.min?_eq_some_iff.mp hmin
  have hleft : requestTimes requests' k = counted config now k requests := by
    rw [meanwhile.requestTimes_eq, requestTimes_self, rejected]
    simp
  generalize hwait : oldest + config.windowSeconds - now = wait
  have hreopens : reopens config now k requests - now = wait := by
    rw [reopens, hmin, Option.getD_some, hwait]
  rw [isAllowed_iff, hleft, hreopens, ← hlength, Nat.cast_lt, inWindow,
    List.length_filter_lt_length_iff_exists]
  constructor
  · -- the oldest leaves with the first that leaves, so its wait is not rounded
    rintro ⟨t, ht, hleaves⟩
    have hle := holdest.2 t ht
    have hgone : t ≤ now + ⌊wait⌋ - config.windowSeconds := by simpa using hleaves
    refine ⟨⌊wait⌋, le_antisymm ?_ (Int.floor_le wait)⟩
    linarith
  · rintro ⟨n, rfl⟩
    refine ⟨oldest, holdest.1, ?_⟩
    rw [Int.floor_intCast, decide_eq_true_iff, not_lt]
    linarith

end Retry

section Remaining

def answers (config : RateLimitConfig K) (now : K) (k : String) : ℕ → Requests K → List Bool
  | 0, _ => []
  | n + 1, requests =>
    (isAllowed config now k requests).1.1 ::
      answers config now k n (isAllowed config now k requests).2

/-- The next `r` calls at the same time are accepted and the one after them is rejected. -/
def ExactlyNext (config : RateLimitConfig K) (now : K) (k : String) (r : ℕ)
    (requests : Requests K) : Prop :=
  answers config now k (r + 1) requests = List.replicate r true ++ [false]

instance (config : RateLimitConfig K) (now : K) (k : String) (r : ℕ) (requests : Requests K) :
    Decidable (ExactlyNext config now k r requests) :=
  inferInstanceAs (Decidable (_ = _))

variable [IsStrictOrderedRing K]

theorem counted_isAllowed (window : 0 < config.windowSeconds) (requests : Requests K) :
    counted config now k (isAllowed config now k requests).2 = counted config now k requests ++
      (if (isAllowed config now k requests).1.1 then [now] else []) := by
  have hkeep : inWindow config now (counted config now k requests) =
      counted config now k requests := inWindow_inWindow config le_rfl _
  have hnow : inWindow config now [now] = [now] := by
    have : now - config.windowSeconds < now := by linarith
    simp [inWindow, this]
  rw [counted, requestTimes_self]
  simp only [inWindow, List.filter_append] at hkeep hnow ⊢
  rw [hkeep]
  split_ifs
  · rw [hnow]
  · rfl

theorem answers_eq (window : 0 < config.windowSeconds) (n : ℕ) {requests : Requests K} {room : ℕ}
    (hroom : ((counted config now k requests).length : ℤ) + room = config.requestsPerWindow) :
    answers config now k n requests =
      List.replicate (min n room) true ++ List.replicate (n - room) false := by
  induction n generalizing requests room with
  | zero => simp [answers]
  | succ n ih =>
    have hcounted : counted config now k (isAllowed config now k requests).2 = _ :=
      counted_isAllowed window requests
    have hiff := isAllowed_iff config now k requests
    rw [answers]
    cases room with
    | zero =>
      have hallowed : (isAllowed config now k requests).1.1 = false := by
        rw [Bool.eq_false_iff, ne_eq, hiff]
        unfold counted at hroom
        omega
      rw [hallowed] at hcounted
      rw [hallowed, @ih _ 0 (by simpa [hcounted] using hroom)]
      simp [List.replicate_succ]
    | succ room =>
      have hallowed : (isAllowed config now k requests).1.1 = true := by
        rw [hiff]
        unfold counted at hroom
        omega
      rw [hallowed] at hcounted
      rw [hallowed, @ih _ room (by
        rw [hcounted]
        simp only [if_true, List.length_append, List.length_singleton]
        omega)]
      simp [List.replicate_succ]

theorem exactlyNext_room (window : 0 < config.windowSeconds) {requests : Requests K} {room : ℕ}
    (hroom : ((counted config now k requests).length : ℤ) + room = config.requestsPerWindow)
    (r : ℕ) : ExactlyNext config now k r requests ↔ r = room := by
  rw [ExactlyNext, answers_eq window (r + 1) hroom]
  constructor
  · intro h
    have hcount := congrArg (List.count true) h
    have hfalse := congrArg (List.count false) h
    simp [List.count_append, List.count_replicate] at hcount hfalse
    omega
  · rintro rfl
    simp

/-- The header of an accepted call is one more than the calls that are still accepted. -/
theorem remaining_overstated (window : 0 < config.windowSeconds)
    (accepted : (isAllowed config now k requests).1.1 = true) :
    ∃ r : ℕ, headerInt (isAllowed config now k requests).1.2.remaining = some (r : ℤ) ∧
      ¬ ExactlyNext config now k r (isAllowed config now k requests).2 ∧
      1 ≤ r ∧ ExactlyNext config now k (r - 1) (isAllowed config now k requests).2 := by
  have hiff := (isAllowed_iff config now k requests).mp accepted
  obtain ⟨room, hroom⟩ : ∃ room : ℕ, ((counted config now k requests).length : ℤ) + (room + 1) =
      config.requestsPerWindow :=
    ⟨(config.requestsPerWindow - (counted config now k requests).length - 1).toNat, by
      unfold counted
      omega⟩
  have hafter : ((counted config now k (isAllowed config now k requests).2).length : ℤ) + room =
      config.requestsPerWindow := by
    rw [counted_isAllowed window, accepted]
    simp only [if_true, List.length_append, List.length_singleton]
    omega
  refine ⟨room + 1, ?_, ?_, by omega, ?_⟩
  · have hopen : ¬ config.requestsPerWindow ≤
        ((inWindow config now (requestTimes requests k)).length : ℤ) := not_le.mpr hiff
    have hremaining : max 0 (config.requestsPerWindow -
        ((inWindow config now (requestTimes requests k)).length : ℤ)) = (room + 1 : ℕ) := by
      unfold counted at hroom
      omega
    simp only [isAllowedIn, inWindowIn_exact, if_neg hopen, hremaining]
    exact headerInt_toString (by omega)
  · rw [exactlyNext_room window hafter]
    omega
  · rw [exactlyNext_room window hafter]
    omega

end Remaining

/-! One call under a limit of one in a minute, and a second that is rejected. -/

def perMinute (limit : ℤ) : RateLimitConfig ℚ := ⟨limit, 60⟩
def calledOnce (limit : ℤ) : Requests ℚ := (isAllowed (perMinute limit) 0 "a" .empty).2

theorem calledOnce_run (limit : ℤ) : Run (perMinute limit) (calledOnce limit)
    [.call "a" 0 (isAllowed (perMinute limit) 0 "a" .empty).1.1] :=
  RunIn.start.call "a" 0 (by simp [readings])

theorem calledOnce_full : (isAllowed (perMinute 1) 30 "a" (calledOnce 1)).1.1 = false := by
  decide +kernel

theorem retry_sufficient_sample : ∃ r : ℤ,
    retryAfter (isAllowed (perMinute 1) 30 "a" (calledOnce 1)).1.2 = some r ∧
    ((isAllowed (perMinute 1) (30 + r) "a"
        (isAllowed (perMinute 1) 30 "a" (calledOnce 1)).2).1.1 = true ↔
      ∃ n : ℤ, reopens (perMinute 1) 30 "a" (calledOnce 1) - 30 = n) :=
  retry_sufficient_iff le_rfl (calledOnce_run 1) calledOnce_full (.none _)

theorem retry_too_early :
    (∃ h, Run (perMinute 1) (calledOnce 1) h ∧ ∀ t ∈ readings h, t ≤ 1 / 2) ∧
    (isAllowed (perMinute 1) (1 / 2) "a" (calledOnce 1)).1.1 = false ∧
    retryAfter (isAllowed (perMinute 1) (1 / 2) "a" (calledOnce 1)).1.2 = some 59 ∧
    (isAllowed (perMinute 1) (1 / 2 + 59) "a"
      (isAllowed (perMinute 1) (1 / 2) "a" (calledOnce 1)).2).1.1 = false := by
  refine ⟨⟨_, calledOnce_run 1, by simp [readings]⟩, ?_⟩
  decide +kernel

theorem remaining_overstated_sample : ∃ r : ℕ,
    headerInt (isAllowed (perMinute 2) 0 "a" .empty).1.2.remaining = some (r : ℤ) ∧
    ¬ ExactlyNext (perMinute 2) 0 "a" r (calledOnce 2) ∧
    1 ≤ r ∧ ExactlyNext (perMinute 2) 0 "a" (r - 1) (calledOnce 2) :=
  remaining_overstated (by simp [perMinute])
    (by decide +kernel)

theorem one_call_remains :
    (isAllowed (perMinute 2) 0 "a" .empty).1.1 = true ∧
    headerInt (isAllowed (perMinute 2) 0 "a" .empty).1.2.remaining = some 2 ∧
    answers (perMinute 2) 0 "a" 3 (calledOnce 2) = [true, false, false] ∧
    ¬ ExactlyNext (perMinute 2) 0 "a" 2 (calledOnce 2) := by
  decide +kernel

end RateHeaders
