import SynapticBridge.PythonValues
import SynapticBridge.RateLimiter

/-! The `/execute` endpoint. It charges the session that a request names before it compares
that session with the token's, so the limiter's ledger holds mismatched requests as well. -/
namespace ExecuteEndpoint

open Domain RateLimiter

section Messages

structure ExecuteToolRequest (K : Type) where
  sessionId : String
  toolName : String
  parameters : PyVal K
  intent : String

/-- A request with the session of its verified token, which is any JSON value, and the
limiter's clock reading. -/
structure Arrival (K : Type) where
  request : ExecuteToolRequest K
  sessionIdFromToken : PyVal K
  now : K

structure HTTPException where
  statusCode : ℕ
  detail : String
  headers : Option (List (String × String)) := none
  deriving DecidableEq, Repr

structure JSONResponse where
  body : String
  headers : List (String × String)
  deriving DecidableEq, Repr

abbrev Response := Except HTTPException JSONResponse

def status : Response → ℕ
  | .ok _ => 200
  | .error e => e.statusCode

def rateLimitHeaders (info : Info) : List (String × String) :=
  [("X-RateLimit-Limit", info.limit), ("X-RateLimit-Remaining", info.remaining),
    ("X-RateLimit-Reset", info.reset)] ++
  match info.retryAfter with
  | none => []
  | some seconds => [("Retry-After", seconds)]

/-- `session_server.execute_tool`, the JSON text of its result, and which other classes of
exceptions derive from `PermissionError` or `ValueError`. -/
structure Server (K W : Type) where
  executeTool : ExecuteToolRequest K → Proc W (PyVal K)
  render : PyVal K → Except PyException String
  badRequest : String → Bool

structure State (K W : Type) where
  requests : Requests K
  world : W

variable {K W : Type} (server : Server K W)

/-- The `except` clauses, in order. -/
def handle (headers : List (String × String)) (e : PyException) : HTTPException :=
  match e with
  | .policyViolation _ _ => ⟨403, e.text, some headers⟩
  | .sessionNotFound _ | .toolNotFound _ => ⟨404, e.text, some headers⟩
  | .sessionExpired _ => ⟨403, e.text, some headers⟩
  | .valueError _ => ⟨400, e.text, some headers⟩
  | .other className _ =>
    if server.badRequest className then ⟨400, e.text, some headers⟩
    else ⟨500, "Internal server error", some headers⟩
  | _ => ⟨500, "Internal server error", some headers⟩

def respond (headers : List (String × String)) (result : Except PyException (PyVal K)) :
    Response :=
  match result >>= server.render with
  | .ok body => .ok ⟨body, headers⟩
  | .error e => .error (handle server headers e)

/-- Only the limiter answers 429. -/
theorem status_respond_ne (headers : List (String × String))
    (result : Except PyException (PyVal K)) : status (respond server headers result) ≠ 429 := by
  unfold respond
  cases result >>= server.render with
  | ok body => simp [status]
  | error e =>
    cases e with
    | other className message =>
      simp only [status, handle]
      split_ifs
      · simp
      · simp
    | _ => simp [status, handle]

end Messages

section Endpoint

variable {K W : Type} [Field K] [LinearOrder K]

/-- `request.session_id != session_id_from_token` is false. -/
def Arrival.owns (a : Arrival K) : Bool :=
  PythonValues.eq (.str a.request.sessionId) a.sessionIdFromToken

variable [FloorRing K] (config : RateLimitConfig K) (server : Server K W)

def executeTool (a : Arrival K) (s : State K W) : Response × State K W :=
  let checked := isAllowed config a.now a.request.sessionId s.requests
  let headers := rateLimitHeaders checked.1.2
  if checked.1.1 = false then
    (.error ⟨429, "Rate limit exceeded. Too many requests for this session.", some headers⟩,
      ⟨checked.2, s.world⟩)
  else if a.owns = false then
    (.error ⟨403, "Session ID in request does not match token", none⟩, ⟨checked.2, s.world⟩)
  else
    let served := (server.executeTool a.request).run s.world
    (respond server headers served.1, ⟨checked.2, served.2⟩)

/-- The state after a sequence of requests. -/
def after (arrivals : List (Arrival K)) (s : State K W) : State K W :=
  arrivals.foldl (fun s a => (executeTool config server a s).2) s

/-- Every request with its answer. -/
def answers : List (Arrival K) → State K W → List (Arrival K × Response)
  | [], _ => []
  | a :: rest, s =>
    (a, (executeTool config server a s).1) :: answers rest (executeTool config server a s).2

/-- Which of the requests with a matching token are answered 429. -/
def throttled (answered : List (Arrival K × Response)) : List Bool :=
  (answered.filter (·.1.owns)).map (status ·.2 == 429)

/-- From a fresh limiter, deleting the mismatched requests changes no 429. -/
def Unaffected (arrivals : List (Arrival K)) (w : W) : Prop :=
  throttled (answers config server arrivals ⟨.empty, w⟩) =
    throttled (answers config server (arrivals.filter (·.owns)) ⟨.empty, w⟩)

variable {config server}

theorem executeTool_requests (a : Arrival K) (s : State K W) :
    (executeTool config server a s).2.requests =
      (isAllowed config a.now a.request.sessionId s.requests).2 := by
  unfold executeTool
  dsimp only
  split_ifs
  · rfl
  · rfl
  · rfl

theorem status_eq_429 (a : Arrival K) (s : State K W) :
    status (executeTool config server a s).1 = 429 ↔
      (isAllowed config a.now a.request.sessionId s.requests).1.1 = false := by
  unfold executeTool
  dsimp only
  split_ifs with hallowed howns
  · exact iff_of_true rfl hallowed
  · exact iff_of_false (by simp [status]) hallowed
  · exact iff_of_false (status_respond_ne server _ _) hallowed

theorem after_snoc (arrivals : List (Arrival K)) (a : Arrival K) (s : State K W) :
    after config server (arrivals ++ [a]) s =
      (executeTool config server a (after config server arrivals s)).2 := by
  rw [after, List.foldl_append]
  rfl

theorem answers_snoc (arrivals : List (Arrival K)) (a : Arrival K) (s : State K W) :
    answers config server (arrivals ++ [a]) s = answers config server arrivals s ++
      [(a, (executeTool config server a (after config server arrivals s)).1)] := by
  induction arrivals generalizing s with
  | nil => rfl
  | cons b rest ih =>
    rw [List.cons_append, answers, ih]
    rfl

omit [FloorRing K] in
theorem throttled_snoc (answered : List (Arrival K × Response)) (a : Arrival K) (r : Response) :
    throttled (answered ++ [(a, r)]) =
      throttled answered ++ if a.owns then [status r == 429] else [] := by
  rw [throttled, List.filter_append, List.map_append]
  cases howns : a.owns with
  | true => simp [throttled, howns]
  | false => simp [throttled, howns]

end Endpoint

section Ledger

variable {K : Type} [Field K] [LinearOrder K] (config : RateLimitConfig K)

/-- The requests that the limiter counts when `a` arrives. -/
def counted (a : Arrival K) (ledger : List (Arrival K)) : List (Arrival K) :=
  ledger.filter fun b =>
    b.request.sessionId = a.request.sessionId ∧ a.now - config.windowSeconds < b.now

/-- The window of the session that `a` names is used up. -/
def Full (a : Arrival K) (ledger : List (Arrival K)) : Prop :=
  config.requestsPerWindow ≤ (counted config a ledger).length

instance (a : Arrival K) (ledger : List (Arrival K)) : Decidable (Full config a ledger) :=
  inferInstanceAs (Decidable (config.requestsPerWindow ≤ ((counted config a ledger).length : ℤ)))

/-- The window is used up, and not only by requests whose token matched. -/
def Crowded (a : Arrival K) (ledger : List (Arrival K)) : Prop :=
  Full config a ledger ∧ ∃ b ∈ counted config a ledger, b.owns = false

/-- The requests let through so far, in order. -/
def ledger (arrivals : List (Arrival K)) : List (Arrival K) :=
  arrivals.foldl (fun ledger a => if Full config a ledger then ledger else ledger ++ [a]) []

variable {config}

theorem ledger_snoc (arrivals : List (Arrival K)) (a : Arrival K) :
    ledger config (arrivals ++ [a]) = ledger config arrivals ++
      if Full config a (ledger config arrivals) then [] else [a] := by
  rw [ledger, List.foldl_append]
  change (if Full config a (ledger config arrivals) then ledger config arrivals
    else ledger config arrivals ++ [a]) = _
  split_ifs
  · rw [List.append_nil]
  · rfl

theorem counted_owned (a : Arrival K) (ledger : List (Arrival K)) :
    counted config a (ledger.filter (·.owns)) = (counted config a ledger).filter (·.owns) := by
  rw [counted, counted, List.filter_comm]

/-- What counts later counted before. -/
theorem counted_le_counted [IsStrictOrderedRing K] {a b : Arrival K}
    (same : b.request.sessionId = a.request.sessionId) (later : b.now ≤ a.now)
    (ledger : List (Arrival K)) :
    (counted config a ledger).length ≤ (counted config b ledger).length := by
  refine (List.monotone_filter_right ledger ?_).length_le
  intro c hc
  rw [decide_eq_true_iff] at hc ⊢
  have := hc.2
  exact ⟨hc.1.trans same.symm, by linarith⟩

/-- The limiter never counts more than it lets through. -/
theorem counted_ledger_le [IsStrictOrderedRing K] {arrivals : List (Arrival K)} {a : Arrival K}
    (later : ∀ b ∈ arrivals, b.now ≤ a.now) :
    ((counted config a (ledger config arrivals)).length : ℤ) ≤
      max config.requestsPerWindow 0 := by
  induction arrivals using List.reverseRecOn with
  | nil => exact le_max_right _ _
  | append_singleton arrivals b ih =>
    have earlier := ih fun c hc => later c (List.mem_append_left _ hc)
    have hb : b.now ≤ a.now := later b (List.mem_append_right _ (List.mem_singleton_self b))
    rw [ledger_snoc]
    split_ifs with hfull
    · rwa [List.append_nil]
    · rw [counted, List.filter_append, List.length_append]
      by_cases hcounts : b.request.sessionId = a.request.sessionId ∧
          a.now - config.windowSeconds < b.now
      · -- `b` was let through, so there was room for it
        have room : ((counted config b (ledger config arrivals)).length : ℤ) <
            config.requestsPerWindow := not_le.mp hfull
        have hle : (counted config a (ledger config arrivals)).length ≤
            (counted config b (ledger config arrivals)).length :=
          counted_le_counted hcounts.1 hb _
        rw [counted] at hle
        simp only [List.filter_cons, hcounts, and_self, decide_true, if_true, List.filter_nil,
          List.length_singleton]
        omega
      · simp only [List.filter_cons, hcounts, decide_false, Bool.false_eq_true, if_false,
          List.filter_nil, List.length_nil, Nat.add_zero]
        exact earlier

theorem ledger_sublist (arrivals : List (Arrival K)) :
    (ledger config arrivals).Sublist arrivals := by
  induction arrivals using List.reverseRecOn with
  | nil => exact .slnil
  | append_singleton arrivals a ih =>
    rw [ledger_snoc]
    split_ifs
    · exact ih.append (List.nil_sublist _)
    · exact ih.append (.refl _)

/-- It takes as many requests as the limit to use a window up. -/
theorem Full.le_length {arrivals : List (Arrival K)} {a : Arrival K}
    (h : Full config a (ledger config arrivals)) :
    config.requestsPerWindow ≤ arrivals.length := by
  have hcounted : (counted config a (ledger config arrivals)).length ≤ arrivals.length :=
    (List.length_filter_le _ _).trans (ledger_sublist arrivals).length_le
  rw [Full] at h
  omega

/-- Up to the limit, repeated requests are all let through. -/
theorem ledger_replicate (a : Arrival K) {n : ℕ} (h : (n : ℤ) ≤ config.requestsPerWindow) :
    ledger config (List.replicate n a) = List.replicate n a := by
  induction n with
  | zero => rfl
  | succ n ih =>
    have room : ¬ Full config a (ledger config (List.replicate n a)) := by
      intro hfull
      have := hfull.le_length
      rw [List.length_replicate] at this
      omega
    rw [List.replicate_succ', ledger_snoc, if_neg room, ih (by omega)]

end Ledger

section Quota

variable {K W : Type} [Field K] [LinearOrder K] [IsStrictOrderedRing K] [FloorRing K]
  {config : RateLimitConfig K} {server : Server K W} {w : W}

abbrev Ordered (arrivals : List (Arrival K)) : Prop := arrivals.Pairwise (·.now ≤ ·.now)

/-- The limiter's history holds the ledger, and no reading of its own. -/
structure Records (config : RateLimitConfig K) (arrivals : List (Arrival K)) (h : History K) :
    Prop where
  accepted : ∀ k, accepted k h =
    ((ledger config arrivals).filter fun b => b.request.sessionId = k).map (·.now)
  readings : ∀ t ∈ readings h, ∃ a ∈ arrivals, a.now = t

omit [IsStrictOrderedRing K] [FloorRing K] in
theorem Records.counted_length {arrivals : List (Arrival K)} {h : History K}
    (records : Records config arrivals h) (a : Arrival K) :
    (inWindow config a.now (RateLimiter.accepted a.request.sessionId h)).length =
      (counted config a (ledger config arrivals)).length := by
  rw [records.accepted, inWindow, List.filter_map, List.length_map, List.filter_filter, counted]
  congr 1
  apply List.filter_congr
  intro b _
  rw [Function.comp_apply, ← Bool.decide_and, decide_eq_decide]
  exact And.comm

/-- With the ledger at hand, the limiter lets through what finds room. -/
theorem Records.allowed_iff {arrivals : List (Arrival K)} {h : History K}
    {requests : Requests K} (records : Records config arrivals h) (run : Run config requests h)
    {a : Arrival K} (later : ∀ b ∈ arrivals, b.now ≤ a.now) :
    (isAllowed config a.now a.request.sessionId requests).1.1 = true ↔
      ¬ Full config a (ledger config arrivals) := by
  have hlater : ∀ t ∈ RateLimiter.readings h, t ≤ a.now := by
    intro t ht
    obtain ⟨b, hb, rfl⟩ := records.readings t ht
    exact later b hb
  rw [run.isAllowed_iff_ledger _ hlater, records.counted_length, Full, not_le]

omit [IsStrictOrderedRing K] [FloorRing K] in
theorem Records.snoc {arrivals : List (Arrival K)} {h : History K}
    (records : Records config arrivals h) {a : Arrival K} {allowed : Bool}
    (hallowed : allowed = true ↔ ¬ Full config a (ledger config arrivals)) :
    Records config (arrivals ++ [a]) (.call a.request.sessionId a.now allowed :: h) := by
  constructor
  · intro k
    rw [RateLimiter.accepted, ledger_snoc, List.filter_append, List.map_append,
      ← records.accepted k]
    by_cases hfull : Full config a (ledger config arrivals)
    · have : allowed ≠ true := fun h => hallowed.mp h hfull
      rw [if_neg (fun h => this h.2), if_pos hfull]
      simp
    · have : allowed = true := hallowed.mpr hfull
      rw [if_neg hfull]
      by_cases hk : a.request.sessionId = k
      · simp [hk, this]
      · simp [hk]
  · intro t ht
    rcases List.mem_cons.mp ht with rfl | ht
    · exact ⟨a, by simp, rfl⟩
    · obtain ⟨b, hb, rfl⟩ := records.readings t ht
      exact ⟨b, List.mem_append_left _ hb, rfl⟩

omit [Field K] [IsStrictOrderedRing K] [FloorRing K] in
theorem ordered_snoc {arrivals : List (Arrival K)} {a : Arrival K}
    (ordered : Ordered (arrivals ++ [a])) :
    Ordered arrivals ∧ ∀ b ∈ arrivals, b.now ≤ a.now := by
  obtain ⟨before, -, later⟩ := List.pairwise_append.mp ordered
  exact ⟨before, fun b hb => later b hb a (List.mem_singleton_self a)⟩

/-- The endpoint drives the limiter through a run that records the ledger. -/
theorem limiter_run {arrivals : List (Arrival K)} (ordered : Ordered arrivals) :
    ∃ h, Run config (after config server arrivals ⟨.empty, w⟩).requests h ∧
      Records config arrivals h := by
  induction arrivals using List.reverseRecOn with
  | nil =>
    refine ⟨[], .start, fun k => rfl, ?_⟩
    intro t ht
    cases ht
  | append_singleton arrivals a ih =>
    obtain ⟨before, later⟩ := ordered_snoc ordered
    obtain ⟨h, run, records⟩ := ih before
    refine ⟨_, ?_, records.snoc (records.allowed_iff run later)⟩
    rw [after_snoc, executeTool_requests]
    refine run.call a.request.sessionId a.now ?_
    intro t ht
    obtain ⟨b, hb, rfl⟩ := records.readings t ht
    exact later b hb

/-- An arrival is answered 429 exactly if the ledger has no room for it. -/
theorem status_after {arrivals : List (Arrival K)} {a : Arrival K}
    (ordered : Ordered (arrivals ++ [a])) :
    status (executeTool config server a (after config server arrivals ⟨.empty, w⟩)).1 = 429 ↔
      Full config a (ledger config arrivals) := by
  obtain ⟨before, later⟩ := ordered_snoc ordered
  obtain ⟨h, run, records⟩ : ∃ h,
      Run config (after config server arrivals ⟨.empty, w⟩).requests h ∧
        Records config arrivals h := limiter_run before
  rw [status_eq_429, ← Bool.not_eq_true, records.allowed_iff run later, not_not]

theorem throttled_answers_snoc {arrivals : List (Arrival K)} {a : Arrival K}
    (ordered : Ordered (arrivals ++ [a])) :
    throttled (answers config server (arrivals ++ [a]) ⟨.empty, w⟩) =
      throttled (answers config server arrivals ⟨.empty, w⟩) ++
        if a.owns then [decide (Full config a (ledger config arrivals))] else [] := by
  rw [answers_snoc, throttled_snoc]
  congr 2
  rw [beq_eq_decide, decide_eq_decide.mpr (status_after ordered)]

/-- What one more request adds to the comparison of the two runs. -/
theorem unaffected_snoc {arrivals : List (Arrival K)} {a : Arrival K}
    (ordered : Ordered (arrivals ++ [a])) :
    Unaffected config server (arrivals ++ [a]) w ↔ Unaffected config server arrivals w ∧
      (a.owns → (Full config a (ledger config arrivals) ↔
        Full config a (ledger config (arrivals.filter (·.owns))))) := by
  unfold Unaffected
  rw [throttled_answers_snoc ordered, List.filter_append]
  cases howns : a.owns with
  | false => simp [howns]
  | true =>
    have hfilter : [a].filter (·.owns) = [a] := List.filter_cons_of_pos howns
    have owned : Ordered (arrivals.filter (·.owns) ++ [a]) := by
      have := List.Pairwise.filter (·.owns) ordered
      rwa [List.filter_append, hfilter] at this
    rw [hfilter, throttled_answers_snoc owned, if_pos howns, if_pos rfl]
    constructor
    · intro h
      obtain ⟨hbefore, hlast⟩ := List.append_inj' h rfl
      exact ⟨hbefore, fun _ => decide_eq_decide.mp (List.singleton_injective hlast)⟩
    · rintro ⟨hbefore, hlast⟩
      rw [hbefore, decide_eq_decide.mpr (hlast rfl)]

/-- As long as no answer differs, the run without mismatched requests lets through the same
requests with a matching token. -/
theorem Unaffected.ledger_owned {arrivals : List (Arrival K)} (ordered : Ordered arrivals)
    (h : Unaffected config server arrivals w) :
    (ledger config arrivals).filter (·.owns) = ledger config (arrivals.filter (·.owns)) := by
  induction arrivals using List.reverseRecOn with
  | nil => rfl
  | append_singleton arrivals a ih =>
    obtain ⟨hbefore, hfull⟩ := (unaffected_snoc ordered).mp h
    have same := ih (ordered_snoc ordered).1 hbefore
    rw [ledger_snoc, List.filter_append, List.filter_append, same]
    cases howns : a.owns with
    | false =>
      split_ifs
      · simp [howns]
      · simp [howns]
    | true =>
      rw [List.filter_cons_of_pos howns, List.filter_nil, ledger_snoc]
      simp only [hfull howns]
      split_ifs
      · rfl
      · simp [howns]

omit [FloorRing K] in
/-- A used-up window stays so without its mismatched requests if there are none. -/
theorem full_owned_iff {arrivals : List (Arrival K)} {a : Arrival K}
    (later : ∀ b ∈ arrivals, b.now ≤ a.now) :
    (Full config a (ledger config arrivals) ↔
      Full config a ((ledger config arrivals).filter (·.owns))) ↔
      ¬ Crowded config a (ledger config arrivals) := by
  have hle := List.length_filter_le (·.owns) (counted config a (ledger config arrivals))
  have hlimit : ((counted config a (ledger config arrivals)).length : ℤ) ≤
      max config.requestsPerWindow 0 := counted_ledger_le later
  constructor
  · rintro h ⟨hfull, b, hb, hforeign⟩
    have howned := h.mp hfull
    rw [Full, counted_owned] at howned
    rw [Full] at hfull
    -- some request is counted, so the limit is positive and the window exactly full
    have hpos := List.length_pos_of_mem hb
    have heq : (counted config a (ledger config arrivals)).filter (·.owns) =
        counted config a (ledger config arrivals) :=
      List.filter_sublist.eq_of_length (by omega)
    have := List.filter_eq_self.mp heq b hb
    rw [hforeign] at this
    cases this
  · intro h
    rw [Full, Full, counted_owned]
    constructor
    · intro hfull
      have hall : ∀ b ∈ counted config a (ledger config arrivals), b.owns = true := by
        intro b hb
        by_contra hforeign
        exact h ⟨hfull, b, hb, Bool.not_eq_true _ ▸ hforeign⟩
      rwa [List.filter_eq_self.mpr hall]
    · omega

/-- One more request keeps the two runs alike unless it meets a crowded window. -/
theorem unaffected_snoc_iff {arrivals : List (Arrival K)} {a : Arrival K}
    (ordered : Ordered (arrivals ++ [a])) :
    Unaffected config server (arrivals ++ [a]) w ↔ Unaffected config server arrivals w ∧
      (a.owns → ¬ Crowded config a (ledger config arrivals)) := by
  obtain ⟨before, later⟩ := ordered_snoc ordered
  rw [unaffected_snoc ordered]
  constructor
  · rintro ⟨h, hfull⟩
    refine ⟨h, fun howns => ?_⟩
    have := hfull howns
    rw [← h.ledger_owned before] at this
    exact (full_owned_iff later).mp this
  · rintro ⟨h, hroom⟩
    refine ⟨h, fun howns => ?_⟩
    rw [← h.ledger_owned before]
    exact (full_owned_iff later).mpr (hroom howns)

/-- The mismatched requests change no 429 exactly if no request with a matching token meets
a used-up window that they have a part in. -/
theorem unaffected_iff {arrivals : List (Arrival K)} (ordered : Ordered arrivals) :
    Unaffected config server arrivals w ↔
      ∀ before a, before ++ [a] <+: arrivals → a.owns →
        ¬ Crowded config a (ledger config before) := by
  induction arrivals using List.reverseRecOn with
  | nil => simp [Unaffected]
  | append_singleton arrivals a ih =>
    rw [unaffected_snoc_iff ordered, ih (ordered_snoc ordered).1]
    constructor
    · rintro ⟨hbefore, hlast⟩ before b hpre howns
      rcases List.prefix_concat_iff.mp hpre with heq | hpre
      · obtain ⟨rfl, hlast'⟩ := List.append_inj' heq rfl
        obtain rfl : b = a := List.singleton_injective hlast'
        exact hlast howns
      · exact hbefore before b hpre howns
    · intro h
      refine ⟨?_, h arrivals a List.prefix_rfl⟩
      intro before b hpre
      exact h before b (hpre.trans (List.prefix_append _ _))

end Quota

/-! A victim's session, named by the holder of another session's token. -/

section Sample

def EXECUTE_RATE_LIMIT : RateLimitConfig ℚ := ⟨30, 60⟩

def sampleServer : Server ℚ Unit where
  executeTool _ := pure (.dict [])
  render _ := .ok "\x7b\x7d"
  badRequest className := className == "PermissionError"

def sampleArrival (token : String) (now : ℚ) : Arrival ℚ :=
  ⟨⟨"victim", "db.query", .dict [], "read rows"⟩, .str token, now⟩

theorem sampleArrival_owns (token : String) (now : ℚ) :
    (sampleArrival token now).owns = ("victim" == token) := by
  rw [Arrival.owns, sampleArrival, PythonValues.eq]

theorem unaffected_iff_sample : Unaffected EXECUTE_RATE_LIMIT sampleServer
    [sampleArrival "attacker" 0, sampleArrival "victim" 1] () := by
  refine (unaffected_iff (by simp [sampleArrival])).mpr ?_
  rintro before a ⟨rest, heq⟩ - ⟨hfull, -⟩
  have hlimit : (30 : ℤ) ≤ before.length := hfull.le_length
  have hlength := congrArg List.length heq
  simp only [List.length_append, List.length_cons, List.length_nil] at hlength
  omega

/-- Thirty requests in the victim's name, none of them served, and its own is turned away. -/
theorem mismatches_spend_quota : ∃ arrivals, Ordered arrivals ∧
    ¬ Unaffected EXECUTE_RATE_LIMIT sampleServer arrivals () := by
  have ordered : Ordered (List.replicate 30 (sampleArrival "attacker" 0) ++
      [sampleArrival "victim" 1]) := by
    simp [sampleArrival]
  refine ⟨_, ordered, ?_⟩
  intro h
  refine ((unaffected_snoc_iff ordered).mp h).2 (by simp [sampleArrival_owns]) ?_
  have hcounted : counted EXECUTE_RATE_LIMIT (sampleArrival "victim" 1)
      (List.replicate 30 (sampleArrival "attacker" 0)) =
        List.replicate 30 (sampleArrival "attacker" 0) := by
    apply List.filter_eq_self.mpr
    intro b hb
    rw [List.eq_of_mem_replicate hb]
    simp [sampleArrival, EXECUTE_RATE_LIMIT]
  rw [ledger_replicate _ le_rfl, Crowded, Full, hcounted]
  refine ⟨?_, sampleArrival "attacker" 0, ?_, ?_⟩
  · simp [EXECUTE_RATE_LIMIT]
  · simp
  · simp [sampleArrival_owns]

end Sample

end ExecuteEndpoint
