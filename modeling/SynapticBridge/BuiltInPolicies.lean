import SynapticBridge.OpaPolicyEngine
import Mathlib.Algebra.Field.Rat
import Mathlib.Algebra.Order.Ring.Rat

/-! `BuiltInPolicies`. The templates write one condition to a line; the engine separates
conditions at semicolons, so it reads a whole body as one dotted path. -/
namespace BuiltInPolicies

open Domain PythonText PythonValues OpaPolicyEngine

section Templates

def DENY_NETWORK : String := "package synapticbridge

    deny \x7b
        input.tool_name == \"network.request\"
        input.parameters.method != \"GET\"
    \x7d

    deny \x7b
        input.tool_name == \"http.request\"
        input.parameters.url == \"\"
    \x7d
    "

def DENY_SENSITIVE : String := "package synapticbridge

    deny \x7b
        input.tool_name == \"filesystem.read\"
        contains(input.parameters.path, \"/etc/passwd\")
    \x7d

    deny \x7b
        input.tool_name == \"filesystem.read\"
        contains(input.parameters.path, \"/root/.ssh\")
    \x7d

    deny \x7b
        input.tool_name == \"bash.execute\"
        contains(input.parameters.command, \"rm -rf\")
    \x7d
    "

def RATE_LIMIT : String := "package synapticbridge

    deny \x7b
        input.tool_name == \"api.request\"
        input.rate_limit_exceeded == true
    \x7d
    "

def SESSION_TIMEOUT : String := "package synapticbridge

    deny \x7b
        input.session_age > 900
    \x7d
    "

def ALLOW_LIST : String := "package synapticbridge

    allow \x7b
        input.tool_name == \"filesystem.read\"
        input.parameters.scope == \"workspace:current\"
    \x7d

    allow \x7b
        input.tool_name == \"bash.execute\"
        input.parameters.timeout < 30
    \x7d

    deny \x7b
        true
    \x7d
    "

inductive Template where
  | DENY_NETWORK
  | DENY_SENSITIVE
  | RATE_LIMIT
  | SESSION_TIMEOUT
  | ALLOW_LIST
  deriving DecidableEq, Repr

def Template.regoCode : Template → String
  | .DENY_NETWORK => BuiltInPolicies.DENY_NETWORK
  | .DENY_SENSITIVE => BuiltInPolicies.DENY_SENSITIVE
  | .RATE_LIMIT => BuiltInPolicies.RATE_LIMIT
  | .SESSION_TIMEOUT => BuiltInPolicies.SESSION_TIMEOUT
  | .ALLOW_LIST => BuiltInPolicies.ALLOW_LIST

end Templates

/-! What the lines of a template say. -/

section Lines

inductive Literal where
  | text (s : String)
  | number (n : ℤ)
  | bool (b : Bool)

inductive Operator where
  | eq
  | ne
  | lt
  | gt

/-- A path is read below `input`. -/
inductive Line where
  | compare (path : List String) (op : Operator) (literal : Literal)
  | contains (path : List String) (s : String)
  | isTrue

def Template.bodies : Template → List (List Line)
  | .DENY_NETWORK =>
    [[.compare ["tool_name"] .eq (.text "network.request"),
        .compare ["parameters", "method"] .ne (.text "GET")],
      [.compare ["tool_name"] .eq (.text "http.request"),
        .compare ["parameters", "url"] .eq (.text "")]]
  | .DENY_SENSITIVE =>
    [[.compare ["tool_name"] .eq (.text "filesystem.read"),
        .contains ["parameters", "path"] "/etc/passwd"],
      [.compare ["tool_name"] .eq (.text "filesystem.read"),
        .contains ["parameters", "path"] "/root/.ssh"],
      [.compare ["tool_name"] .eq (.text "bash.execute"),
        .contains ["parameters", "command"] "rm -rf"]]
  | .RATE_LIMIT =>
    [[.compare ["tool_name"] .eq (.text "api.request"),
        .compare ["rate_limit_exceeded"] .eq (.bool true)]]
  | .SESSION_TIMEOUT => [[.compare ["session_age"] .gt (.number 900)]]
  | .ALLOW_LIST =>
    [[.compare ["tool_name"] .eq (.text "filesystem.read"),
        .compare ["parameters", "scope"] .eq (.text "workspace:current")],
      [.compare ["tool_name"] .eq (.text "bash.execute"),
        .compare ["parameters", "timeout"] .lt (.number 30)]]

/-- The deny bodies, or the allow bodies and a last rule that denies the rest. -/
def Template.rules : Template → List (RuleName × List Line)
  | .ALLOW_LIST => (Template.bodies .ALLOW_LIST).map (.allow, ·) ++ [(.deny, [.isTrue])]
  | t => t.bodies.map (.deny, ·)

def quoted (s : String) : Text := '"' :: s.toList ++ ['"']

def pathText (path : List String) : Text :=
  List.intercalate ['.'] (("input" :: path).map String.toList)

def Literal.source : Literal → Text
  | .text s => quoted s
  | .number n => (toString n).toList
  | .bool b => (toString b).toList

def Operator.source : Operator → Text
  | .eq => " == ".toList
  | .ne => " != ".toList
  | .lt => " < ".toList
  | .gt => " > ".toList

/-- A line as a template writes it. -/
def Line.source : Line → Text
  | .compare path op literal => pathText path ++ op.source ++ literal.source
  | .contains path s => "contains(".toList ++ pathText path ++ ", ".toList ++ quoted s ++ [')']
  | .isTrue => "true".toList

/-- The lines of a body, one under the other. -/
def joined (lines : List Line) : Text :=
  List.intercalate "\n        ".toList (lines.map Line.source)

def bodySource (lines : List Line) : Text :=
  "\n        ".toList ++ joined lines ++ "\n    ".toList

/-- The text of a template before its rules, between two rules and behind them. -/
def header : Text := "package synapticbridge".toList
def gap : Text := "\n\n    ".toList
def footer : Text := "\n    ".toList

def ruleSource (r : RuleName × Text) : Text := r.1.text ++ ' ' :: '{' :: (r.2 ++ ['}'])

def templateSource (rules : List (RuleName × Text)) : Text :=
  header ++ (rules.flatMap (fun r => gap ++ ruleSource r) ++ footer)

set_option maxRecDepth 4000 in
/-- The text of a template is its rules written out. -/
theorem regoCode_source (t : Template) :
    t.regoCode = String.ofList (templateSource (t.rules.map fun r => (r.1, bodySource r.2))) := by
  cases t <;> rfl

variable {K : Type}

/-- The value at a path, if all its keys are there. -/
def valueAt : PyVal K → List String → Option (PyVal K)
  | v, [] => some v
  | .dict items, key :: keys => (items.lookup key).bind fun v => valueAt v keys
  | _, _ :: _ => none

def Literal.value : Literal → PyVal K
  | .text s => .str s
  | .number n => .int n
  | .bool b => .bool b

/-- A literal has the type of a value. -/
def Literal.fits : Literal → PyVal K → Bool
  | .text _, .str _ => true
  | .bool _, .bool _ => true
  | .number _, .int _ | .number _, .float _ | .number _, .infinity _ | .number _, .nan => true
  | _, _ => false

variable [Field K] [LinearOrder K]

def Operator.holds (op : Operator) (a b : PyVal K) : Bool :=
  match op with
  | .eq => PythonValues.eq a b
  | .ne => !PythonValues.eq a b
  | .lt => (PythonValues.compare .lt a b).toOption.getD false
  | .gt => (PythonValues.compare .gt a b).toOption.getD false

/-- What a line says of a context; an undefined path or a type mismatch makes it false. -/
def Line.holds (context : PyVal K) : Line → Bool
  | .compare path op literal =>
    match valueAt context path with
    | some v => literal.fits v && op.holds v literal.value
    | none => false
  | .contains path s =>
    match valueAt context path with
    | some (.str v) => decide (s.toList <:+: v.toList)
    | _ => false
  | .isTrue => true

/-- Some body of the template holds, as the conjunction of its lines. -/
def Template.SomeHolds (t : Template) (context : PyVal K) : Prop :=
  ∃ lines ∈ t.bodies, ∀ line ∈ lines, line.holds context = true

end Lines

/-! The engine finds the rules that a template is written from. -/

section RoundTrip

theorem matchBody_of_not {name : RuleName} {text : Text} (h : ¬ name.text <+: text) :
    matchBody name text = none := by
  have hdrop : text.dropPrefix? name.text = none := by
    cases hdrop : text.dropPrefix? name.text with
    | none => rfl
    | some rest =>
      obtain ⟨p', rfl, heq⟩ := List.dropPrefix?_eq_some_iff.mp hdrop
      obtain rfl := eq_of_beq heq
      exact absurd (List.prefix_append _ _) h
  rw [matchBody, hdrop, Option.bind_none]

/-- A rule name starts nowhere in a text, whatever comes behind the text. -/
def Apart (name : RuleName) (text : Text) : Prop :=
  ∀ s ∈ text.tails, s ≠ [] → ¬ name.text <+: s ∧ ¬ s <+: name.text

instance (name : RuleName) (text : Text) : Decidable (Apart name text) :=
  inferInstanceAs (Decidable (∀ s ∈ text.tails, s ≠ [] →
    ¬ name.text <+: s ∧ ¬ s <+: name.text))

theorem Apart.matchBody {name : RuleName} {text : Text} (h : Apart name text) {s : Text}
    (hs : s <:+ text) (hne : s ≠ []) (rest : Text) :
    OpaPolicyEngine.matchBody name (s ++ rest) = none := by
  obtain ⟨hname, hs⟩ := h s ((List.mem_tails s text).mpr hs) hne
  refine matchBody_of_not fun hstart => ?_
  rcases List.prefix_or_prefix_of_prefix hstart (List.prefix_append s rest) with h' | h'
  · exact hname h'
  · exact hs h'

theorem matchBody_ruleSource {r : RuleName × Text} (hne : r.2 ≠ []) (h : '}' ∉ r.2)
    (rest : Text) : matchBody r.1 (ruleSource r ++ rest) = some (r, rest) := by
  obtain ⟨name, body⟩ := r
  have hdrop : (ruleSource (name, body) ++ rest).dropPrefix? name.text =
      some (' ' :: '{' :: (body ++ '}' :: rest)) := by
    rw [List.dropPrefix?_eq_some_iff]
    exact ⟨name.text, by simp [ruleSource], by simp⟩
  have hspace : (' ' :: '{' :: (body ++ '}' :: rest)).dropWhile isSpace =
      '{' :: (body ++ '}' :: rest) := by
    rw [List.dropWhile_cons_of_pos (by decide), List.dropWhile_cons_of_neg (by decide)]
  have hbody := bracketed_append hne h rest
  dsimp only at hbody
  simp only [matchBody, hdrop, Option.bind_some, hspace, hbody, Option.map_some]

/-- No rule name is the start of another. -/
theorem name_text_injective (name name' : RuleName) (h : name.text <+: name'.text) :
    name = name' := by
  revert h
  cases name <;> cases name' <;> decide

theorem name_of_ruleSource {name : RuleName} {r : RuleName × Text} {rest : Text}
    (h : name.text <+: ruleSource r ++ rest) : name = r.1 := by
  rw [ruleSource, List.append_assoc] at h
  rcases List.prefix_or_prefix_of_prefix h (List.prefix_append r.1.text _) with h | h
  · exact name_text_injective name r.1 h
  · exact (name_text_injective r.1 name h).symm

theorem matchRule_ruleSource {r : RuleName × Text} (hne : r.2 ≠ []) (h : '}' ∉ r.2)
    (rest : Text) : matchRule (ruleSource r ++ rest) = some (r, rest) := by
  have found := matchBody_ruleSource hne h rest
  have others (name : RuleName) (hname : name ≠ r.1) :
      matchBody name (ruleSource r ++ rest) = none :=
    matchBody_of_not fun hstart => hname (name_of_ruleSource hstart)
  rw [matchRule]
  cases hname : r.1 with
  | deny =>
    rw [hname] at found
    rw [found]
    rfl
  | allow =>
    rw [others .deny (by rw [hname]; decide), ← hname, found]
    rfl
  | violation =>
    rw [others .deny (by rw [hname]; decide), others .allow (by rw [hname]; decide), ← hname,
      found]
    rfl

theorem findAll_apart {text : Text} (h : ∀ name : RuleName, Apart name text) (rest : Text) :
    findAll matchRule 0 (text ++ rest) = findAll matchRule 0 rest := by
  refine findAll_gap fun s hs hne => ?_
  rw [matchRule, (h .deny).matchBody hs hne, (h .allow).matchBody hs hne,
    (h .violation).matchBody hs hne]
  rfl

theorem header_apart (name : RuleName) : Apart name header := by
  cases name <;> decide +kernel

theorem gap_apart (name : RuleName) : Apart name gap := by
  cases name <;> decide +kernel

theorem footer_apart (name : RuleName) : Apart name footer := by
  cases name <;> decide +kernel

theorem findAll_rules {rules : List (RuleName × Text)}
    (h : ∀ r ∈ rules, r.2 ≠ [] ∧ '}' ∉ r.2) :
    findAll matchRule 0 (rules.flatMap (fun r => gap ++ ruleSource r) ++ footer) = rules := by
  induction rules with
  | nil =>
    have hfooter := findAll_apart footer_apart []
    rw [List.append_nil] at hfooter
    rw [List.flatMap_nil, List.nil_append, hfooter]
    rfl
  | cons r rest ih =>
    obtain ⟨⟨hne, hbrace⟩, hrest⟩ := List.forall_mem_cons.mp h
    have hfound := matchRule_ruleSource hne hbrace
      (rest.flatMap (fun r => gap ++ ruleSource r) ++ footer)
    rw [List.flatMap_cons, List.append_assoc, List.append_assoc, findAll_apart gap_apart,
      findAll_match (by simp [ruleSource]) hfound, ih hrest]

/-- Rules whose bodies hold no closing brace are found again in the text they are written to. -/
theorem rules_templateSource {rules : List (RuleName × Text)}
    (h : ∀ r ∈ rules, r.2 ≠ [] ∧ '}' ∉ r.2) :
    OpaPolicyEngine.rules (templateSource rules) = rules := by
  rw [OpaPolicyEngine.rules, templateSource, findAll_apart header_apart, findAll_rules h]

end RoundTrip

/-! What the engine makes of them. -/

section Verbatim

variable {K : Type}

/-- The keys of a body read as one dotted path below `input`. -/
def verbatimKeys (lines : List Line) : List String :=
  (((joined lines).splitOn '.').drop 1).map String.ofList

/-- The context has a value other than `None` below these keys. -/
def Resolves (context : PyVal K) (keys : List String) : Prop :=
  ∃ v, valueAt context keys = some v ∧ v ≠ .none

/-- Some body of the template, read as one path, leads to a value. -/
def Template.SomeResolves (t : Template) (context : PyVal K) : Prop :=
  ∃ lines ∈ t.bodies, Resolves context (verbatimKeys lines)

theorem isNone_eq_false (v : PyVal K) : isNone v = false ↔ v ≠ .none := by
  cases v <;> simp [isNone]

/-- The engine follows a path to its value, or to `None`. -/
theorem follow_eq (keys : List Text) (v : PyVal K) :
    follow keys v = (valueAt v (keys.map String.ofList)).getD .none := by
  induction keys generalizing v with
  | nil => simp [follow, valueAt]
  | cons key keys ih =>
    cases v with
    | dict items =>
      cases hlookup : items.lookup (String.ofList key) with
      | none => simp [follow, valueAt, hlookup]
      | some value =>
        simp only [follow, hlookup, List.map_cons, valueAt, Option.bind_some]
        exact ih value
    | _ => simp [follow, valueAt]

theorem follow_resolves (keys : List Text) (v : PyVal K) :
    isNone (follow keys v) = false ↔ Resolves v (keys.map String.ofList) := by
  rw [isNone_eq_false, follow_eq, Resolves]
  cases valueAt v (keys.map String.ofList) with
  | none => simp
  | some value => simp

variable [Field K] [LinearOrder K]

/-- A body that is one condition and starts with a path holds if the whole of it resolves. -/
theorem evaluateRule_path {body condition : Text} {keys : List Text}
    (hconditions : conditions body = [condition])
    (hpath : inputPrefix.isPrefixOf (strip condition) = true)
    (hkeys : pathKeys (strip (strip condition)) = "input".toList :: keys) (context : PyVal K) :
    evaluateRule body (.dict [("input", context)]) = true ↔
      Resolves context (keys.map String.ofList) := by
  have hinput : String.ofList "input".toList = "input" := String.ofList_toList
  rw [evaluateRule, hconditions, List.all_cons, List.all_nil, Bool.and_true, evaluateCondition,
    if_pos hpath, Bool.not_eq_true', getNested, hkeys, follow, hinput]
  exact follow_resolves keys context

theorem body_conditions (t : Template) : ∀ lines ∈ t.bodies,
    conditions (bodySource lines) = [joined lines] ∧ strip (joined lines) = joined lines ∧
      inputPrefix.isPrefixOf (joined lines) = true ∧
      pathKeys (joined lines) = "input".toList :: ((joined lines).splitOn '.').drop 1 := by
  cases t <;> decide +kernel

theorem evaluateRule_body (t : Template) {lines : List Line} (h : lines ∈ t.bodies)
    (context : PyVal K) : evaluateRule (bodySource lines) (.dict [("input", context)]) = true ↔
      Resolves context (verbatimKeys lines) := by
  obtain ⟨hconditions, hstrip, hpath, hkeys⟩ := body_conditions t lines h
  refine evaluateRule_path hconditions ?_ ?_ context
  · rw [hstrip]
    exact hpath
  · rw [hstrip, hstrip]
    exact hkeys

/-- Among rules of one kind the first that holds decides. -/
theorem firstDecision_denies {rules : List (RuleName × Text)} {input : PyVal K}
    (h : ∀ r ∈ rules, r.1 = .deny) : firstDecision input rules = false ↔
      ∃ r ∈ rules, evaluateRule r.2 input = true := by
  induction rules with
  | nil => simp [firstDecision]
  | cons r rest ih =>
    obtain ⟨name, body⟩ := r
    obtain ⟨rfl, hrest⟩ := List.forall_mem_cons.mp h
    by_cases hbody : evaluateRule body input = true
    · simp [firstDecision, hbody]
    · simp [firstDecision, hbody, ih hrest]

/-- Rules that allow, and behind them one that denies the rest. -/
theorem firstDecision_allows {rules : List (RuleName × Text)} {input : PyVal K} {last : Text}
    (h : ∀ r ∈ rules, r.1 = .allow) (hlast : evaluateRule last input = true) :
    firstDecision input (rules ++ [(.deny, last)]) = true ↔
      ∃ r ∈ rules, evaluateRule r.2 input = true := by
  induction rules with
  | nil => simp [firstDecision, hlast]
  | cons r rest ih =>
    obtain ⟨name, body⟩ := r
    obtain ⟨rfl, hrest⟩ := List.forall_mem_cons.mp h
    by_cases hbody : evaluateRule body input = true
    · simp [firstDecision, hbody]
    · simp [firstDecision, hbody, ih hrest]

/-- What the engine returns where some body of the template decides. -/
def Template.decision : Template → Bool
  | .ALLOW_LIST => true
  | _ => false

theorem search_package (rest : Text) :
    search matchPackage (header ++ '\n' :: rest) = some "synapticbridge".toList := by
  rfl

theorem templateSource_package (rules : List (RuleName × Text)) :
    ∃ rest, templateSource rules = header ++ '\n' :: rest := by
  cases rules with
  | nil => exact ⟨_, rfl⟩
  | cons r rest => exact ⟨_, rfl⟩

theorem evaluateRego_regoCode (t : Template) (context : PyVal K) :
    evaluateRego t.regoCode.toList context = firstDecision (.dict [("input", context)])
      (t.rules.map fun r => (r.1, bodySource r.2)) := by
  have hrules : ∀ r ∈ t.rules.map (fun r => (r.1, bodySource r.2)), r.2 ≠ [] ∧ '}' ∉ r.2 := by
    cases t <;> decide +kernel
  obtain ⟨rest, hrest⟩ := templateSource_package (t.rules.map fun r => (r.1, bodySource r.2))
  rw [regoCode_source, String.toList_ofList, evaluateRego, rules_templateSource hrules, hrest,
    search_package]

/-- The rule `true` holds: the engine does not know the condition. -/
theorem evaluateRule_isTrue (input : PyVal K) :
    evaluateRule (bodySource [.isTrue]) input = true := by
  have hconditions : conditions (bodySource [.isTrue]) = ["true".toList] := by decide +kernel
  have hstrip : strip "true".toList = "true".toList := by decide +kernel
  have hpath : ¬ inputPrefix.isPrefixOf "true".toList = true := by decide
  have hcalled : calledBuiltin (K := K) "true".toList = none := by
    rw [calledBuiltin, List.find?_eq_none]
    intro b _ hcall
    have hbracket : '(' ∈ "true".toList := (of_decide_eq_true hcall).subset (by simp)
    exact absurd hbracket (by decide)
  rw [evaluateRule, hconditions, List.all_cons, List.all_nil, Bool.and_true, evaluateCondition,
    hstrip, if_neg hpath, hcalled]

/-- The engine decides by the bodies of a template exactly if one of them resolves. -/
theorem evaluateRego_decision (t : Template) (context : PyVal K) :
    evaluateRego t.regoCode.toList context = t.decision ↔ t.SomeResolves context := by
  have bodies (name : RuleName) : (∃ r ∈ t.bodies.map fun lines => (name, bodySource lines),
      evaluateRule r.2 (.dict [("input", context)]) = true) ↔ t.SomeResolves context := by
    constructor
    · rintro ⟨r, hr, hholds⟩
      obtain ⟨lines, hlines, rfl⟩ := List.mem_map.mp hr
      exact ⟨lines, hlines, (evaluateRule_body t hlines context).mp hholds⟩
    · rintro ⟨lines, hlines, hresolves⟩
      exact ⟨_, List.mem_map_of_mem hlines, (evaluateRule_body t hlines context).mpr hresolves⟩
  have kinds (name : RuleName) :
      ∀ r ∈ t.bodies.map fun lines => (name, bodySource lines), r.1 = name := by
    simp
  have denies (h : t.rules = t.bodies.map fun lines => (.deny, lines)) (hd : t.decision = false) :
      evaluateRego t.regoCode.toList context = t.decision ↔ t.SomeResolves context := by
    have hrules : t.rules.map (fun r => (r.1, bodySource r.2)) =
        t.bodies.map fun lines => (.deny, bodySource lines) := by
      rw [h, List.map_map]
      rfl
    rw [evaluateRego_regoCode, hd, hrules, firstDecision_denies (kinds .deny), bodies]
  cases t with
  | ALLOW_LIST =>
    have hrules : (Template.rules .ALLOW_LIST).map (fun r => (r.1, bodySource r.2)) =
        (Template.bodies .ALLOW_LIST).map (fun lines => (.allow, bodySource lines)) ++
          [(.deny, bodySource [.isTrue])] := rfl
    rw [evaluateRego_regoCode, hrules]
    exact (firstDecision_allows (kinds .allow) (evaluateRule_isTrue _)).trans (bodies .allow)
  | _ => exact denies rfl rfl

end Verbatim

/-! A template means what it says on the contexts where the two readings agree. -/

section Meaning

variable {K : Type} [Field K] [LinearOrder K]

/-- An enabled DENY policy with the text of a template. -/
structure Carries (t : Template) (policy : Policy) : Prop where
  enabled : policy.enabled = true
  effect : policy.effect = .deny
  regoCode : policy.regoCode = t.regoCode

theorem evaluate_decision {t : Template} {policy : Policy} (carries : Carries t policy)
    (context : PyVal K) :
    evaluate policy context = t.decision ↔ t.SomeResolves context := by
  obtain ⟨henabled, heffect, hcode⟩ := carries
  rw [evaluate, henabled, heffect, hcode]
  exact evaluateRego_decision t context

/-- The engine decides by a template as its bodies say exactly where some body holds if and
only if some body, taken whole as one path, leads to a value. -/
theorem means_iff {t : Template} {policy : Policy} (carries : Carries t policy)
    (context : List (String × PyVal K)) :
    (evaluate policy (.dict context) = t.decision ↔ t.SomeHolds (.dict context)) ↔
      (t.SomeHolds (.dict context) ↔ t.SomeResolves (.dict context)) := by
  rw [evaluate_decision carries]
  exact iff_comm

omit [Field K] [LinearOrder K] in
/-- The first key of every such path has a space in it, so contexts with plain keys lead
nowhere: on them no template denies, and ALLOW_LIST allows nothing. -/
theorem not_resolves_of_plain {context : List (String × PyVal K)}
    (plain : ∀ entry ∈ context, ' ' ∉ entry.1.toList) (t : Template) :
    ¬ t.SomeResolves (.dict context) := by
  have spaced : ∀ lines ∈ t.bodies,
      (verbatimKeys lines).head?.any (fun key => decide (' ' ∈ key.toList)) = true := by
    cases t <;> decide +kernel
  rintro ⟨lines, hlines, v, hv, -⟩
  have hkey := spaced lines hlines
  cases hkeys : verbatimKeys lines with
  | nil => simp [hkeys] at hkey
  | cons key keys =>
    rw [hkeys, valueAt, Option.bind_eq_some_iff] at hv
    obtain ⟨v', hlookup, -⟩ := hv
    obtain ⟨before, after, rfl, -⟩ := List.lookup_eq_some_iff.mp hlookup
    simp only [hkeys, List.head?_cons, Option.any_some, decide_eq_true_eq] at hkey
    exact plain (key, v') (by simp) hkey

end Meaning

/-! A POST to the network, which the first body of the template denies. -/

section Sample

theorem regoCode_ne (t : Template) : t.regoCode ≠ "" := by
  cases t <;> simp [Template.regoCode, DENY_NETWORK, DENY_SENSITIVE, RATE_LIMIT, SESSION_TIMEOUT,
    ALLOW_LIST]

theorem sampleName_ne : "deny_network" ≠ "" := by simp

def samplePolicy (t : Template) : Policy :=
  ⟨"p1", "deny_network", t.regoCode, .deny, .tool, true, sampleName_ne, regoCode_ne t⟩

theorem sample_carries (t : Template) : Carries t (samplePolicy t) := ⟨rfl, rfl, rfl⟩

def sampleContext (method : String) : List (String × PyVal ℚ) :=
  [("tool_name", .str "network.request"), ("parameters", .dict [("method", .str method)])]

theorem sample_unresolved {method : String} (h : ∀ lines ∈ Template.bodies .DENY_NETWORK,
    (valueAt (.dict (sampleContext method)) (verbatimKeys lines)).isNone = true) :
    ¬ Template.SomeResolves .DENY_NETWORK (.dict (sampleContext method)) := by
  rintro ⟨lines, hlines, v, hv, -⟩
  have := h lines hlines
  rw [hv] at this
  cases this

/-- The template does not deny the call that its first body names. -/
theorem post_not_denied : ¬ (evaluate (samplePolicy .DENY_NETWORK)
      (.dict (sampleContext "POST")) = false ↔
    Template.SomeHolds .DENY_NETWORK (.dict (sampleContext "POST"))) := by
  intro means
  have holds : Template.SomeHolds .DENY_NETWORK (.dict (sampleContext "POST")) :=
    ⟨_, List.mem_cons_self, by decide +kernel⟩
  have resolves := (evaluate_decision (sample_carries .DENY_NETWORK) _).mp (means.mpr holds)
  exact sample_unresolved (by decide +kernel) resolves

theorem means_iff_sample : evaluate (samplePolicy .DENY_NETWORK)
      (.dict (sampleContext "GET")) = Template.decision .DENY_NETWORK ↔
    Template.SomeHolds .DENY_NETWORK (.dict (sampleContext "GET")) := by
  refine (means_iff (sample_carries .DENY_NETWORK) (sampleContext "GET")).mpr ?_
  refine iff_of_false ?_ (sample_unresolved (by decide +kernel))
  rintro ⟨lines, hlines, hholds⟩
  revert lines
  decide +kernel

end Sample

end BuiltInPolicies
