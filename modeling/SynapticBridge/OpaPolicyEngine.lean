import SynapticBridge.PythonValues
import SynapticBridge.Ports

/-! `OPAPolicyEngine`: rules cut out of the policy text by regular expressions, conditions
separated by semicolons, and a table of built-in functions tried in its order. -/
namespace OpaPolicyEngine

open Domain PythonText PythonValues

variable {K : Type} [Field K] [LinearOrder K]

/-- Python's refusal of a call; its text only reaches a log line. -/
def wrongArity (name : String) : Except PyException Bool :=
  .error (.typeError s!"_builtin_{name}: wrong number of positional arguments")

/-- A builtin applied to a list of evaluated arguments. -/
abbrev Builtin (K : Type) := List (PyVal K) → Except PyException Bool

def builtin_eq : Builtin K
  | [a, b] => .ok (eq a b)
  | _ => wrongArity "eq"

def builtin_neq : Builtin K
  | [a, b] => .ok (!eq a b)
  | _ => wrongArity "neq"

def builtin_gt : Builtin K
  | [a, b] => compare .gt a b
  | _ => wrongArity "gt"

def builtin_gte : Builtin K
  | [a, b] => compare .ge a b
  | _ => wrongArity "gte"

def builtin_lt : Builtin K
  | [a, b] => compare .lt a b
  | _ => wrongArity "lt"

def builtin_lte : Builtin K
  | [a, b] => compare .le a b
  | _ => wrongArity "lte"

def builtin_and : Builtin K := fun args => .ok (args.all truthy)
def builtin_or : Builtin K := fun args => .ok (args.any truthy)

def builtin_not : Builtin K
  | [a] => .ok (!truthy a)
  | _ => wrongArity "not"

def builtin_contains : Builtin K
  | [container, item] => PythonValues.contains container item
  | _ => wrongArity "contains"

def noAttribute (a : PyVal K) (method : String) : Except PyException Bool :=
  .error (.other "AttributeError" s!"'{typeName a}' object has no attribute '{method}'")

def builtin_startswith : Builtin K
  | [.str s, .str start] => .ok (start.toList.isPrefixOf s.toList)
  | [.str _, _] => .error (.typeError "startswith first arg must be str or a tuple of str")
  | [a, _] => noAttribute a "startswith"
  | _ => wrongArity "startswith"

def builtin_endswith : Builtin K
  | [.str s, .str tail] => .ok (tail.toList.isSuffixOf s.toList)
  | [.str _, _] => .error (.typeError "endswith first arg must be str or a tuple of str")
  | [a, _] => noAttribute a "endswith"
  | _ => wrongArity "endswith"

def builtin_glob_match : Builtin K
  | [.str pattern, .str text] => .ok (fnmatch text.toList pattern.toList)
  | [_, _] => .error (.typeError "expected str, bytes or os.PathLike object")
  | _ => wrongArity "glob_match"

/-- `self._builtins`, in insertion order. -/
def builtins : List (String × Builtin K) :=
  [("eq", builtin_eq), ("neq", builtin_neq), ("gt", builtin_gt), ("gte", builtin_gte),
    ("lt", builtin_lt), ("lte", builtin_lte), ("and", builtin_and), ("or", builtin_or),
    ("not", builtin_not), ("contains", builtin_contains), ("startswith", builtin_startswith),
    ("endswith", builtin_endswith), ("glob_match", builtin_glob_match)]

/-- The dotted path behind a bracketed one. -/
def pathKeys (path : Text) : List Text :=
  ((path.map fun c => if c = '[' then '.' else c).filter (· ≠ ']')).splitOn '.'

def follow : List Text → PyVal K → PyVal K
  | [], current => current
  | key :: keys, .dict items =>
    match items.lookup (String.ofList key) with
    | some value => follow keys value
    | none => .none
  | _ :: _, _ => .none

def getNested (data : PyVal K) (path : Text) : PyVal K := follow (pathKeys path) data

def inputPrefix : Text := "input.".toList

/-- One argument of a builtin: a path, a quoted text, a number or the bare text. -/
def evaluateArgument (inputData : PyVal K) (arg : Text) : PyVal K :=
  if inputPrefix.isPrefixOf arg then getNested inputData arg
  else if arg.head? = some '"' ∧ arg.getLast? = some '"' then
    .str (String.ofList (arg.drop 1).dropLast)
  else
    match parseInt arg with
    | some n => .int n
    | none =>
      match parseFloat arg with
      | some (.finite x) => .float x
      | some (.infinite negative) => .infinity negative
      | some .nan => .nan
      | none => .str (String.ofList arg)

/-- `name\(([^)]+)\)` at the head of a text: the arguments as one text. -/
def matchCall (name : String) (text : Text) : Option Text :=
  (text.dropPrefix? (name.toList ++ ['('])).bind fun rest =>
    (bracketed ')' rest).map Prod.fst

/-- A condition without a well-formed call holds, and a builtin that raises makes it fail. -/
def evaluateBuiltin (condition : Text) (inputData : PyVal K) (name : String)
    (fn : Builtin K) : Bool :=
  match search (matchCall name) condition with
  | none => true
  | some argsText =>
    let args := (argsText.splitOn ',').map strip
    match fn (args.map (evaluateArgument inputData)) with
    | .ok b => b
    | .error _ => false

/-- The first builtin of the table whose name and bracket occur anywhere in the text. -/
def calledBuiltin (condition : Text) : Option (String × Builtin K) :=
  builtins.find? fun b => decide (b.1.toList ++ ['('] <:+: condition)

def isNone : PyVal K → Bool
  | .none => true
  | _ => false

/-- A condition that starts with a path only tests that the path is set. -/
def evaluateCondition (condition : Text) (inputData : PyVal K) : Bool :=
  let condition := strip condition
  if inputPrefix.isPrefixOf condition then !isNone (getNested inputData (strip condition))
  else
    match calledBuiltin (K := K) condition with
    | some (name, fn) => evaluateBuiltin condition inputData name fn
    | none => true

/-- The conditions of a rule body that are not blank. -/
def conditions (ruleBody : Text) : List Text :=
  (((strip ruleBody).splitOn ';').map strip).filter (· ≠ [])

def evaluateRule (ruleBody : Text) (inputData : PyVal K) : Bool :=
  (conditions ruleBody).all fun condition => evaluateCondition condition inputData

inductive RuleName where
  | deny
  | allow
  | violation
  deriving DecidableEq, Repr

def RuleName.text : RuleName → Text
  | .deny => "deny".toList
  | .allow => "allow".toList
  | .violation => "violation".toList

/-- `\s*\{([^}]+)\}` behind a rule name. -/
def matchBody (name : RuleName) (text : Text) : Option ((RuleName × Text) × Text) :=
  (text.dropPrefix? name.text).bind fun rest =>
    match rest.dropWhile isSpace with
    | '{' :: inside => (bracketed '}' inside).map fun (body, rest) => ((name, body), rest)
    | _ => none

def matchRule (text : Text) : Option ((RuleName × Text) × Text) :=
  (matchBody .deny text).or ((matchBody .allow text).or (matchBody .violation text))

def rules (regoCode : Text) : List (RuleName × Text) := findAll matchRule 0 regoCode

/-- `package\s+(\S+)` at the head of a text. -/
def matchPackage (text : Text) : Option Text :=
  (text.dropPrefix? "package".toList).bind fun rest =>
    match rest.takeWhile isSpace, (rest.dropWhile isSpace).takeWhile (!isSpace ·) with
    | _ :: _, c :: name => some (c :: name)
    | _, _ => none

/-- The first rule that holds decides, except that a `violation` rule decides nothing. -/
def firstDecision (inputData : PyVal K) : List (RuleName × Text) → Bool
  | [] => true
  | (name, body) :: rest =>
    if evaluateRule body inputData then
      match name with
      | .deny => false
      | .allow => true
      | .violation => firstDecision inputData rest
    else firstDecision inputData rest

def evaluateRego (regoCode : Text) (context : PyVal K) : Bool :=
  match search matchPackage regoCode with
  | none => true
  | some _ => firstDecision (.dict [("input", context)]) (rules regoCode)

/-- `OPAPolicyEngine.evaluate`. Nothing escapes the handlers of `evaluateBuiltin`, so the
handlers of the source around this function have nothing to catch. -/
def evaluate (policy : Policy) (context : PyVal K) : Bool :=
  if !policy.enabled then true
  else if policy.effect = .allow then true
  else evaluateRego policy.regoCode.toList context

/-- The engine over a table filled by `add_policy`. -/
def opaPolicyEngine (policies : OrderedDict.Dict String Policy) : Ports.PolicyEngine K where
  policies := policies
  evaluate policy context := .ok (evaluate policy context)

end OpaPolicyEngine
