import SynapticBridge.SiemConnectors

/-! The two normalizations of an event. They read the same keys, but disagree on who acts and
how it ended where a key is missing, and on two kinds of events that only one ranks. -/
namespace SiemNormalization

open Domain SiemConnectors

variable {K : Type}

theorem get_eq_iff {event : EventDict K} {key : String} {a b : PyVal K} (differ : a ≠ b) :
    get event key a = get event key b ↔ (event.lookup key).isSome = true := by
  unfold SiemConnectors.get
  cases event.lookup key with
  | none => simp [differ]
  | some v => simp

theorem normalized_eq_iff {event : EventDict K} {source source' outcome outcome' severity
    severity' now now' : String} (stamped : (event.lookup "timestamp").isSome = true)
    (sources : source ≠ source') (outcomes : outcome ≠ outcome') :
    normalized source outcome severity now event =
        normalized source' outcome' severity' now' event ↔
      (event.lookup "actor").isSome = true ∧ (event.lookup "outcome").isSome = true ∧
        severity = severity' := by
  have timestamp : get event "timestamp" (.str now) = get event "timestamp" (.str now') := by
    obtain ⟨v, hv⟩ := Option.isSome_iff_exists.mp stamped
    rw [SiemConnectors.get, SiemConnectors.get, hv]
    rfl
  have actor : get event "actor" (.str source) = get event "actor" (.str source') ↔ _ :=
    get_eq_iff fun h => sources (PyVal.str.inj h)
  have ended : get event "outcome" (.str outcome) = get event "outcome" (.str outcome') ↔ _ :=
    get_eq_iff fun h => outcomes (PyVal.str.inj h)
  simp only [normalized, SIEMEvent.mk.injEq, timestamp, actor, ended, true_and]

variable [Field K] [LinearOrder K]

/-- The event is a failure or a policy violation, or nothing that only the connector ranks. -/
def RankedAlike (event : EventDict K) : Prop :=
  holds event "outcome" "failure" = true ∨ holds event "event_type" "policy_violation" = true ∨
    holds event "event_type" "credential_access" = false ∧
      holds event "action" "network_call" = false

theorem severity_eq_iff (event : EventDict K) :
    dispatcherSeverity event = connectorSeverity event ↔ RankedAlike event := by
  unfold dispatcherSeverity connectorSeverity RankedAlike
  cases holds event "outcome" "failure" with
  | true => simp
  | false =>
    cases holds event "event_type" "policy_violation" with
    | true => simp
    | false =>
      cases holds event "event_type" "credential_access" with
      | true => simp
      | false =>
        cases holds event "action" "network_call" with
        | true => simp
        | false => simp

/-- The normalizations agree exactly on events that name an actor and an outcome and are ranked
alike. -/
theorem normalize_eq_iff {event : EventDict K}
    (stamped : (event.lookup "timestamp").isSome = true) (now now' : String) :
    dispatcherNormalize now event = connectorNormalize now' event ↔
      (event.lookup "actor").isSome = true ∧ (event.lookup "outcome").isSome = true ∧
        RankedAlike event := by
  rw [dispatcherNormalize, connectorNormalize,
    normalized_eq_iff stamped (by decide) (by decide), severity_eq_iff]

/-! A tool call that names neither actor nor outcome. -/

def bareEvent : EventDict ℚ :=
  [("timestamp", .str "2026-01-01T00:00:00+00:00"), ("event_type", .str "ToolCalledEvent"),
    ("action", .str "execute")]

def fullEvent : EventDict ℚ :=
  bareEvent ++ [("actor", .str "agent_1"), ("outcome", .str "success")]

theorem normalize_eq_sample :
    dispatcherNormalize "now" fullEvent = connectorNormalize "now" fullEvent := by
  refine (normalize_eq_iff rfl "now" "now").mpr ⟨rfl, rfl, .inr (.inr ⟨rfl, rfl⟩)⟩

theorem bare_event_differs : (bareEvent.lookup "timestamp").isSome = true ∧
    dispatcherNormalize "now" bareEvent ≠ connectorNormalize "now" bareEvent := by
  refine ⟨rfl, ?_⟩
  intro h
  have hsource : PyVal.str "system" = (PyVal.str "unknown" : PyVal ℚ) :=
    congrArg SIEMEvent.source h
  exact absurd (PyVal.str.inj hsource) (by decide)

end SiemNormalization
