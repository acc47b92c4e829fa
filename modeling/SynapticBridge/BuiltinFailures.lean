import SynapticBridge.PolicyText

/-! Builtins that raise. The handler around a call makes the condition false, so a deny rule
in which a builtin raises is passed over like one that does not hold. -/
namespace BuiltinFailures

open Domain PythonText PythonValues OpaPolicyEngine PolicyText

variable {K : Type} [Field K] [LinearOrder K]

def application (condition : Text) (input : PyVal K) : Option (Except PyException Bool) :=
  let condition := strip condition
  if inputPrefix.isPrefixOf condition then none
  else
    (calledBuiltin condition).bind fun (name, fn) =>
      (search (matchCall name) condition).map fun argsText =>
        fn ((fields ',' argsText).map (evaluateArgument input))

def conditionRaises (input : PyVal K) (condition : Text) : Bool :=
  match application condition input with
  | some (.error _) => true
  | _ => false

/-- The conditions are tried in order until one is false, and the builtin of one raises. -/
def ruleRaises (input : PyVal K) : List Text → Bool
  | [] => false
  | condition :: rest => conditionRaises input condition ||
      (evaluateCondition condition input && ruleRaises input rest)

/-- A deny rule in which a builtin raises, with the rules behind it; none before it decided. -/
def RaisesIn (input : PyVal K) (rules : List (RuleName × Text))
    (later : List (RuleName × Text)) : Prop :=
  ∃ before body, rules = before ++ (.deny, body) :: later ∧
    (∀ r ∈ before, r.1 ≠ .violation → evaluateRule r.2 input = false) ∧
    ruleRaises input (conditions body) = true

/-- If a builtin raises in a deny rule, the policy denies. -/
def FailsClosed (policy : Policy) (context : PyVal K) : Prop :=
  (∃ later, RaisesIn (.dict [("input", context)]) (rules policy.regoCode.toList) later) →
    evaluate policy context = false

section Rules

variable {input : PyVal K}

theorem evaluateCondition_of_application {condition : Text} {result : Except PyException Bool}
    (h : application condition input = some result) :
    evaluateCondition condition input = result.toOption.getD false := by
  rw [application] at h
  rw [evaluateCondition]
  split_ifs at h ⊢ with hpath
  rcases hcalled : calledBuiltin (K := K) (strip condition) with _ | ⟨name, fn⟩
  · rw [hcalled] at h
    cases h
  rw [hcalled, Option.bind_some] at h
  rcases hsearch : search (matchCall name) (strip condition) with _ | argsText
  · simp [hsearch] at h
  · simp only [hsearch, Option.map_some, Option.some.injEq] at h
    dsimp only
    rw [PolicyCalls.evaluateBuiltin_of_search hsearch, PolicyCalls.applied, h]
    cases result with
    | ok b => rfl
    | error e => rfl

theorem condition_false_of_raises {condition : Text}
    (h : conditionRaises input condition = true) : evaluateCondition condition input = false := by
  rw [conditionRaises] at h
  split at h
  · rename_i e happlied
    rw [evaluateCondition_of_application happlied]
    rfl
  · cases h

theorem rule_false_of_raises {conds : List Text} (h : ruleRaises input conds = true) :
    (conds.all fun condition => evaluateCondition condition input) = false := by
  induction conds with
  | nil => cases h
  | cons condition rest ih =>
    rw [ruleRaises, Bool.or_eq_true, Bool.and_eq_true] at h
    rw [List.all_cons, Bool.and_eq_false_iff]
    rcases h with h | ⟨-, h⟩
    · exact Or.inl (condition_false_of_raises h)
    · exact Or.inr (ih h)

theorem deniedFirst_append {α : Type} {holds : α → Bool} {before rest : List (RuleName × α)}
    (h : ∀ r ∈ before, r.1 ≠ .violation → holds r.2 = false) :
    DeniedFirst holds (before ++ rest) ↔ DeniedFirst holds rest := by
  induction before with
  | nil => rfl
  | cons r before ih =>
    obtain ⟨hr, hbefore⟩ := List.forall_mem_cons.mp h
    rw [List.cons_append, deniedFirst_cons, ih hbefore]
    constructor
    · rintro (⟨hname, hbody⟩ | ⟨-, hrest⟩)
      · rw [hr (by rw [hname]; decide)] at hbody
        cases hbody
      · exact hrest
    · exact fun hrest => Or.inr ⟨hr, hrest⟩

theorem deniedFirst_of_raisesIn {rules later : List (RuleName × Text)}
    (h : RaisesIn input rules later) :
    DeniedFirst (evaluateRule · input) rules ↔ DeniedFirst (evaluateRule · input) later := by
  obtain ⟨before, body, rfl, hbefore, hraises⟩ := h
  have hfalse : evaluateRule body input = false := rule_false_of_raises hraises
  rw [deniedFirst_append hbefore, deniedFirst_cons]
  simp [hfalse]

end Rules

/-- A policy fails closed on a context exactly if behind every deny rule in which a builtin
raises the first deny or allow rule that holds is a deny rule. -/
theorem fails_closed_iff {policy : Policy} {p : Text} (enabled : policy.enabled = true)
    (effect : policy.effect = .deny) (package : search matchPackage policy.regoCode.toList = some p)
    (context : PyVal K) : FailsClosed policy context ↔
      ∀ later, RaisesIn (.dict [("input", context)]) (rules policy.regoCode.toList) later →
        DeniedFirst (evaluateRule · (.dict [("input", context)])) later := by
  have denies := evaluate_eq_false enabled effect package context
  constructor
  · intro closed later raises
    exact (deniedFirst_of_raisesIn raises).mp (denies.mp (closed ⟨later, raises⟩))
  · rintro behind ⟨later, raises⟩
    exact denies.mpr ((deniedFirst_of_raisesIn raises).mpr (behind later raises))

section Samples

def sizeConditions : List Text := ["gt(input.size, 10)".toList]
def userConditions : List Text := ["eq(input.user, \"u\")".toList]

def sampleContext : PyVal ℚ := .dict [("user", .str "u")]

theorem sizeConditions_raise :
    ruleRaises (.dict [("input", sampleContext)]) (conditions (bodyText sizeConditions)) =
      true := by
  decide +kernel

theorem missing_size_allowed :
    evaluate (denyPolicy [(.deny, sizeConditions)]) sampleContext = true ∧
    ¬ FailsClosed (denyPolicy [(.deny, sizeConditions)]) sampleContext := by
  have allowed : evaluate (denyPolicy [(.deny, sizeConditions)]) sampleContext = true := by
    decide +kernel
  refine ⟨allowed, fun closed => ?_⟩
  have found := denyPolicy_rules [(.deny, sizeConditions)] (by decide +kernel)
  rw [closed ⟨[], [], bodyText sizeConditions, found, List.forall_mem_nil _,
    sizeConditions_raise⟩] at allowed
  cases allowed

theorem fails_closed_iff_sample :
    FailsClosed (denyPolicy [(.deny, sizeConditions), (.deny, userConditions)]) sampleContext := by
  refine (fails_closed_iff rfl rfl (denyPolicy_package _) _).mpr ?_
  rw [denyPolicy_rules _ (by decide +kernel)]
  rintro later ⟨before, body, hsplit, hbefore, hraises⟩
  cases before with
  | nil =>
    obtain ⟨-, rfl⟩ := List.cons_eq_cons.mp hsplit
    exact ⟨[], _, [], rfl, by decide +kernel, List.forall_mem_nil _⟩
  | cons first before =>
    -- The second rule calls a builtin that does not raise.
    obtain ⟨-, hrest⟩ := List.cons_eq_cons.mp hsplit
    cases before with
    | nil =>
      obtain ⟨hbody, -⟩ := List.cons_eq_cons.mp hrest
      obtain ⟨-, rfl⟩ := Prod.mk.inj hbody
      exact absurd hraises (by decide +kernel)
    | cons second before => simp at hrest

end Samples

end BuiltinFailures
