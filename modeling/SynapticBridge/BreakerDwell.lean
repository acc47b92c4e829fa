import SynapticBridge.SiemConnectors
import Mathlib.Data.List.Infix
import Mathlib.Tactic.Linarith
import Mathlib.Tactic.NormNum

/-! How long an OPEN breaker keeps sends away. The wait is measured from the last failure,
and `force_open` records none: it leaves an old timestamp behind, or no timestamp at all. -/
namespace BreakerDwell

open CircuitBreakers SiemConnectors

section Runs

variable {K : Type}

def Step.lifts (s : Step K) : Prop := s.operation = .forceClose ∨ s.operation = .reset

instance (s : Step K) : Decidable (Step.lifts s) :=
  inferInstanceAs (Decidable (s.operation = .forceClose ∨ s.operation = .reset))

def openings : List (Step K) → List K
  | [] => []
  | s :: earlier =>
    if Step.lifts s then []
    else if s.enters .OPEN then s.now :: openings earlier
    else openings earlier

/-- The time of the last of these transitions if `force_open` made it. -/
def forcedAt : List (Step K) → Option K
  | [] => none
  | s :: earlier =>
    if Step.lifts s then none
    else if s.enters .OPEN then if s.operation = .forceOpen then some s.now else none
    else forcedAt earlier

theorem mem_openings_of_forcedAt {steps : List (Step K)} {t : K} (h : forcedAt steps = some t) :
    t ∈ openings steps := by
  induction steps with
  | nil => cases h
  | cons s earlier ih =>
    rw [forcedAt] at h
    rw [openings]
    split_ifs at h ⊢ with hlifts henters hforced
    · obtain rfl := Option.some.inj h
      exact List.mem_cons_self
    · exact ih h

theorem openings_subset {steps : List (Step K)} {t : K} (h : t ∈ openings steps) :
    ∃ s ∈ steps, s.now = t := by
  induction steps with
  | nil => cases h
  | cons s earlier ih =>
    rw [openings] at h
    split_ifs at h with hlifts henters
    · cases h
    · rcases List.mem_cons.mp h with rfl | h
      · exact ⟨s, List.mem_cons_self, rfl⟩
      · obtain ⟨s', hs', rfl⟩ := ih h
        exact ⟨s', List.mem_cons_of_mem _ hs', rfl⟩
    · obtain ⟨s', hs', rfl⟩ := ih h
      exact ⟨s', List.mem_cons_of_mem _ hs', rfl⟩

variable [Field K] [LinearOrder K]

def Reaches (config : CircuitBreakerConfig K) (s : Step K) : Prop :=
  s.operation = .maybeTransitionFromOpen ∧ Admits config s.now s.before

/-- After a transition into OPEN no send gets through before the timeout is over, unless
`force_close` or `reset` came between. -/
def Dwells (config : CircuitBreakerConfig K) (steps : List (Step K)) : Prop :=
  ∀ s earlier, s :: earlier <:+ steps → Reaches config s →
    ∀ t ∈ openings earlier, t + config.timeoutSeconds ≤ s.now

/-- A send finds the breaker OPEN since a `force_open` less than the timeout ago, and no
failure recorded in the last timeout. -/
def Slips (config : CircuitBreakerConfig K) (s : Step K) (earlier : List (Step K)) : Prop :=
  s.operation = .maybeTransitionFromOpen ∧ s.before.state = .OPEN ∧
    Elapsed config s.now s.before ∧
    ∃ t, forcedAt earlier = some t ∧ s.now < t + config.timeoutSeconds

abbrev Ordered (steps : List (Step K)) : Prop := steps.Pairwise fun s s' => s'.now ≤ s.now

end Runs

section Dwell

variable {K : Type} [Field K] [LinearOrder K] {config : CircuitBreakerConfig K}
  {steps : List (Step K)} {b : CircuitBreaker K}

theorem admits_iff {now : K} (hopen : b.state = .OPEN) :
    Admits config now b ↔ Elapsed config now b := by
  have effect := maybeTransitionFromOpen_effect config now b
  unfold Admits
  generalize maybeTransitionFromOpen config now b = b' at effect
  cases effect with
  | passed h => exact absurd hopen h
  | waited h early => exact iff_of_false (not_not.mpr h) early
  | tried h elapsed => exact iff_of_true (by simp) elapsed

theorem run_suffix (run : Run config steps b) {s : Step K} {earlier : List (Step K)}
    (h : s :: earlier <:+ steps) : Run config earlier s.before := by
  induction run with
  | start => simp at h
  | @step steps b run op now ih =>
    rcases List.suffix_cons_iff.mp h with heq | h
    · obtain ⟨rfl, rfl⟩ := List.cons.inj heq
      exact run
    · exact ih h

/-- While the breaker is OPEN its last transition was forced, or a failure is on record that
is not older. Otherwise every transition was at least the timeout ago. -/
structure Waiting (config : CircuitBreakerConfig K) (steps : List (Step K))
    (b : CircuitBreaker K) : Prop where
  isOpen : b.state = .OPEN → ∃ t ∈ openings steps, (∀ t' ∈ openings steps, t' ≤ t) ∧
    (forcedAt steps = some t ∨ ∃ last, b.lastFailureTime = some last ∧ t ≤ last)
  isNotOpen : b.state ≠ .OPEN → ∀ t ∈ openings steps, ∃ s ∈ steps,
    t + config.timeoutSeconds ≤ s.now

omit [Field K] [LinearOrder K] in
theorem openings_of_kept {s : Step K} (lifts : ¬ Step.lifts s) (enters : ¬ s.enters .OPEN)
    (steps : List (Step K)) :
    openings (s :: steps) = openings steps ∧ forcedAt (s :: steps) = forcedAt steps := by
  rw [openings, forcedAt, if_neg lifts, if_neg enters, if_neg lifts, if_neg enters]
  exact ⟨rfl, rfl⟩

variable {s : Step K}

theorem Waiting.kept (waiting : Waiting config steps s.before)
    (later : ∀ s' ∈ steps, s'.now ≤ s.now) (lifts : ¬ Step.lifts s)
    (same : s.after.state = .OPEN ↔ s.before.state = .OPEN)
    (last : s.after.lastFailureTime = s.before.lastFailureTime ∨
      s.after.lastFailureTime = some s.now) : Waiting config (s :: steps) s.after := by
  have enters : ¬ s.enters .OPEN := fun h => h.1 (same.mp h.2)
  obtain ⟨hopenings, hforced⟩ := openings_of_kept lifts enters steps
  constructor
  · intro h
    obtain ⟨t, ht, hmax, hcase⟩ := waiting.isOpen (same.mp h)
    rw [hopenings, hforced]
    refine ⟨t, ht, hmax, ?_⟩
    rcases hcase with hforced | ⟨t', hlast, hle⟩
    · exact .inl hforced
    · rcases last with hsame | hnow
      · exact .inr ⟨t', hsame.trans hlast, hle⟩
      · obtain ⟨s', hs', rfl⟩ := openings_subset ht
        exact .inr ⟨s.now, hnow, later s' hs'⟩
  · intro h t ht
    rw [hopenings] at ht
    obtain ⟨s', hs', hle⟩ := waiting.isNotOpen (fun h' => h (same.mpr h')) t ht
    exact ⟨s', List.mem_cons_of_mem _ hs', hle⟩

theorem Waiting.lifted (lifts : Step.lifts s) (h : s.after.state ≠ .OPEN) :
    Waiting config (s :: steps) s.after := by
  have hopenings : openings (s :: steps) = [] := by rw [openings, if_pos lifts]
  constructor
  · intro h'
    exact absurd h' h
  · intro _ t ht
    rw [hopenings] at ht
    cases ht

theorem Waiting.entered (later : ∀ s' ∈ steps, s'.now ≤ s.now) (lifts : ¬ Step.lifts s)
    (enters : s.enters .OPEN)
    (why : s.operation = .forceOpen ∨ s.after.lastFailureTime = some s.now) :
    Waiting config (s :: steps) s.after := by
  have hopenings : openings (s :: steps) = s.now :: openings steps := by
    rw [openings, if_neg lifts, if_pos enters]
  constructor
  · intro _
    rw [hopenings]
    refine ⟨s.now, List.mem_cons_self, ?_, ?_⟩
    · intro t ht
      rcases List.mem_cons.mp ht with rfl | ht
      · exact le_rfl
      · obtain ⟨s', hs', rfl⟩ := openings_subset ht
        exact later s' hs'
    · rcases why with hforce | hlast
      · left
        rw [forcedAt, if_neg lifts, if_pos enters, if_pos hforce]
      · exact .inr ⟨s.now, hlast, le_rfl⟩
  · intro h
    exact absurd enters.2 h

variable [IsStrictOrderedRing K]

theorem Waiting.waited (waiting : Waiting config steps s.before)
    (hop : s.operation = .maybeTransitionFromOpen) (hopen : s.before.state = .OPEN)
    (elapsed : Elapsed config s.now s.before) (stays : ¬ Slips config s steps) :
    ∀ t ∈ openings steps, t + config.timeoutSeconds ≤ s.now := by
  obtain ⟨t₀, -, hmax, hcase⟩ := waiting.isOpen hopen
  have hover : t₀ + config.timeoutSeconds ≤ s.now := by
    rcases hcase with hforced | ⟨last, hlast, hle⟩
    · by_contra early
      exact stays ⟨hop, hopen, elapsed, t₀, hforced, not_le.mp early⟩
    · have := elapsed last hlast
      linarith
  intro t ht
  have := hmax t ht
  linarith

theorem Waiting.step (waiting : Waiting config steps s.before)
    (later : ∀ s' ∈ steps, s'.now ≤ s.now)
    (effect : Effect config s.now s.before s.operation s.after)
    (stays : ¬ Slips config s steps) : Waiting config (s :: steps) s.after := by
  obtain ⟨op, now, b, b'⟩ := s
  dsimp only at effect waiting later ⊢
  cases effect with
  | cleared h => exact waiting.kept later (by simp [Step.lifts]) (by simp [h]) (.inl rfl)
  | ignored h => exact waiting.kept later (by simp [Step.lifts]) Iff.rfl (.inl rfl)
  | counted h below =>
    exact waiting.kept later (by simp [Step.lifts]) (by simp [h]) (.inl rfl)
  | recovered h reached =>
    exact waiting.kept later (by simp [Step.lifts]) (by simp [h]) (.inl rfl)
  | tolerated h below =>
    exact waiting.kept later (by simp [Step.lifts]) (by simp [h]) (.inr rfl)
  | tripped h reached =>
    exact Waiting.entered later (by simp [Step.lifts]) ⟨by simp [h], rfl⟩ (.inr rfl)
  | extended h => exact waiting.kept later (by simp [Step.lifts]) (by simp [h]) (.inr rfl)
  | relapsed h =>
    exact Waiting.entered later (by simp [Step.lifts]) ⟨by simp [h], rfl⟩ (.inr rfl)
  | passed h => exact waiting.kept later (by simp [Step.lifts]) Iff.rfl (.inl rfl)
  | waited h early => exact waiting.kept later (by simp [Step.lifts]) Iff.rfl (.inl rfl)
  | tried h elapsed =>
    have passed := waiting.waited rfl h elapsed stays
    constructor
    · intro h'
      cases h'
    · intro _ t ht
      rw [(openings_of_kept (by simp [Step.lifts]) (by simp [Step.enters]) steps).1] at ht
      exact ⟨_, List.mem_cons_self, passed t ht⟩
  | opened h => exact Waiting.entered later (by simp [Step.lifts]) ⟨h, rfl⟩ (.inl rfl)
  | stayedOpen h => exact waiting.kept later (by simp [Step.lifts]) Iff.rfl (.inl rfl)
  | closed h => exact Waiting.lifted (.inl rfl) (by simp)
  | stayedClosed h => exact Waiting.lifted (.inl rfl) (by simp [h])
  | restarted => exact Waiting.lifted (.inr rfl) (by simp [initial])

theorem Run.waiting (run : Run config steps b) (ordered : Ordered steps)
    (stays : ∀ s earlier, s :: earlier <:+ steps → ¬ Slips config s earlier) :
    Waiting config steps b := by
  induction run with
  | start =>
    constructor
    · intro h
      cases h
    · intro _ t ht
      cases ht
  | @step steps b run op now ih =>
    obtain ⟨later, hordered⟩ := List.pairwise_cons.mp ordered
    have waiting := ih hordered fun s earlier h => stays s earlier (h.trans (List.suffix_cons _ _))
    exact waiting.step (s := ⟨op, now, b, op.apply config now b⟩) later
      (apply_effect config now op b) (stays _ _ List.suffix_rfl)

theorem Slips.not_dwells {earlier : List (Step K)} (slips : Slips config s earlier)
    (h : s :: earlier <:+ steps) : ¬ Dwells config steps := by
  obtain ⟨hop, hopen, elapsed, t, hforced, early⟩ := slips
  intro dwells
  have := dwells s earlier h ⟨hop, (admits_iff hopen).mpr elapsed⟩ t
    (mem_openings_of_forcedAt hforced)
  linarith

/-- The breaker keeps its wait exactly if no send slips through behind a `force_open`. -/
theorem dwells_iff (run : Run config steps b) (ordered : Ordered steps) :
    Dwells config steps ↔ ∀ s earlier, s :: earlier <:+ steps → ¬ Slips config s earlier := by
  constructor
  · intro dwells s earlier h slips
    exact slips.not_dwells h dwells
  · rintro stays s earlier h ⟨hop, admits⟩ t ht
    have hordered : Ordered (s :: earlier) := ordered.sublist h.sublist
    obtain ⟨later, hearlier⟩ := List.pairwise_cons.mp hordered
    have waiting := Run.waiting (run_suffix run h) hearlier fun s' earlier' h' =>
      stays s' earlier' (h'.trans ((List.suffix_cons _ _).trans h))
    by_cases hopen : s.before.state = .OPEN
    · have elapsed := (admits_iff hopen).mp admits
      exact waiting.waited hop hopen elapsed (stays s earlier h) t ht
    · obtain ⟨s', hs', hle⟩ := waiting.isNotOpen hopen t ht
      exact hle.trans (later s' hs')

end Dwell

/-! A breaker without failures that is forced open and asked again. -/

section Sample

def sampleSend (now : ℚ) : Step ℚ :=
  ⟨.maybeTransitionFromOpen, now, forceOpen initial,
    maybeTransitionFromOpen SIEM_CIRCUIT_BREAKER_CONFIG now (forceOpen initial)⟩

def sampleForce : Step ℚ := ⟨.forceOpen, 0, initial, forceOpen initial⟩

theorem sample_run (now : ℚ) : Run SIEM_CIRCUIT_BREAKER_CONFIG [sampleSend now, sampleForce]
    (sampleSend now).after :=
  (Run.start.step .forceOpen 0).step .maybeTransitionFromOpen now

theorem sample_ordered {now : ℚ} (h : 0 ≤ now) : Ordered [sampleSend now, sampleForce] := by
  simpa [sampleSend, sampleForce] using h

theorem dwells_iff_sample :
    Dwells SIEM_CIRCUIT_BREAKER_CONFIG [sampleSend 60, sampleForce] := by
  refine (dwells_iff (sample_run 60) (sample_ordered (by norm_num))).mpr ?_
  rintro s earlier h ⟨hop, -, -, t, hforced, early⟩
  rcases List.suffix_cons_iff.mp h with heq | h
  · obtain ⟨rfl, rfl⟩ := List.cons.inj heq
    obtain rfl : (0 : ℚ) = t := Option.some.inj hforced
    norm_num [sampleSend, SIEM_CIRCUIT_BREAKER_CONFIG] at early
  · rcases List.suffix_cons_iff.mp h with heq | h
    · obtain ⟨rfl, rfl⟩ := List.cons.inj heq
      cases hop
    · simp at h

/-- Forced open with no failure on record, the breaker admits the next send. -/
theorem forced_open_admits : ∃ steps b, Run SIEM_CIRCUIT_BREAKER_CONFIG steps b ∧ Ordered steps ∧
    ¬ Dwells SIEM_CIRCUIT_BREAKER_CONFIG steps := by
  refine ⟨_, _, sample_run 1, sample_ordered (by norm_num), ?_⟩
  have slips : Slips SIEM_CIRCUIT_BREAKER_CONFIG (sampleSend 1) [sampleForce] := by
    refine ⟨rfl, rfl, ?_, 0, rfl, ?_⟩
    · intro last h
      cases h
    · norm_num [sampleSend, SIEM_CIRCUIT_BREAKER_CONFIG]
  exact slips.not_dwells List.suffix_rfl

end Sample

end BreakerDwell
