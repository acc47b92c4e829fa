import SynapticBridge.BuiltInPolicies

/-! Calls in a rule as they are written, `name(a1, ..., an)`, and what the engine makes of
them: it takes the first builtin of its table whose name and bracket occur in the text. -/
namespace PolicyCalls

open Domain PythonText PythonValues OpaPolicyEngine
open BuiltInPolicies (follow_eq valueAt)

variable {K : Type}

/-- An argument as a rule writes it; a path has a key below `input`. -/
inductive Argument where
  | path (first : Text) (rest : List Text)
  | integer (negative : Bool) (digits : Text)
  | quoted (s : Text)

def Argument.source : Argument → Text
  | .path first rest => List.intercalate ['.'] ("input".toList :: first :: rest)
  | .integer negative digits => if negative then '-' :: digits else digits
  | .quoted s => '"' :: (s ++ ['"'])

/-- What the argument stands for; a path that leads nowhere stands for `None`. -/
def Argument.value (context : PyVal K) : Argument → PyVal K
  | .path first rest => (valueAt context ((first :: rest).map String.ofList)).getD .none
  | .integer negative digits =>
    .int (if negative then -(Nat.ofDigitChars 10 digits 0 : ℤ) else Nat.ofDigitChars 10 digits 0)
  | .quoted s => .str (String.ofList s)

/-- Segments, digits and letters as names, numbers and words have them; what a segment or a
quoted text may not have is only what the engine cuts at. -/
def Argument.Plain : Argument → Prop
  | .path first rest => ∀ segment ∈ first :: rest, ∀ c ∈ segment,
      isSpace c = false ∧ c ∉ ['.', '[', ']', ',', '(', ')']
  | .integer _ digits => digits ≠ [] ∧ ∀ c ∈ digits, c.isDigit = true
  | .quoted s => ∀ c ∈ s, c ∉ [',', '(', ')']

def argumentText (args : List Argument) : Text :=
  List.intercalate [',', ' '] (args.map Argument.source)

/-- `name(a1, ..., an)`. -/
def callText (name : String) (args : List Argument) : Text :=
  name.toList ++ '(' :: (argumentText args ++ [')'])

/-- A builtin applied to values; one that raises counts as false. -/
def applied (fn : Builtin K) (values : List (PyVal K)) : Bool :=
  match fn values with
  | .ok b => b
  | .error _ => false

section Sources

variable {a : Argument}

theorem mem_intercalate_dot {segments : List Text} {c : Char}
    (h : c ∈ List.intercalate ['.'] segments) : c = '.' ∨ ∃ segment ∈ segments, c ∈ segment := by
  induction segments with
  | nil => cases h
  | cons segment rest ih =>
    cases rest with
    | nil => exact Or.inr ⟨segment, List.mem_cons_self, by simpa using h⟩
    | cons next rest =>
      rw [List.intercalate_cons_cons] at h
      simp only [List.mem_append, List.mem_singleton] at h
      rcases h with (h | h) | h
      · exact Or.inr ⟨segment, List.mem_cons_self, h⟩
      · exact Or.inl h
      · rcases ih h with h | ⟨segment', hmem, hc⟩
        · exact Or.inl h
        · exact Or.inr ⟨segment', List.mem_cons_of_mem _ hmem, hc⟩

/-- No character of a plain argument separates or ends arguments. -/
theorem Argument.Plain.notMem (h : a.Plain) {c : Char} (hc : c ∈ a.source) :
    c ∉ [',', '(', ')'] := by
  cases a with
  | path first rest =>
    rcases mem_intercalate_dot hc with rfl | ⟨segment, hmem, hc⟩
    · decide
    · rcases List.mem_cons.mp hmem with rfl | hmem
      · exact (by simp : ∀ c ∈ "input".toList, c ∉ [',', '(', ')']) c hc
      · have := (h segment hmem c hc).2
        simp only [List.mem_cons, not_or] at this ⊢
        tauto
  | integer negative digits =>
    have digit : c.isDigit = true → c ∉ [',', '(', ')'] := by
      rintro hd hmem
      simp only [List.mem_cons, List.not_mem_nil, or_false] at hmem
      rcases hmem with rfl | rfl | rfl <;> exact absurd hd (by decide)
    rw [Argument.source] at hc
    split_ifs at hc
    · rcases List.mem_cons.mp hc with rfl | hc
      · decide
      · exact digit (h.2 c hc)
    · exact digit (h.2 c hc)
  | quoted s =>
    rw [Argument.source, List.mem_cons, List.mem_append, List.mem_singleton] at hc
    rcases hc with rfl | hc | rfl
    · decide
    · exact h c hc
    · decide

theorem Argument.Plain.strip_source (h : a.Plain) : strip a.source = a.source := by
  cases a with
  | path first rest =>
    refine strip_eq_self fun c hc => ?_
    rcases mem_intercalate_dot hc with rfl | ⟨segment, hmem, hc⟩
    · decide
    · rcases List.mem_cons.mp hmem with rfl | hmem
      · exact (by simp [isSpace] : ∀ c ∈ "input".toList, isSpace c = false) c hc
      · exact (h segment hmem c hc).1
  | integer negative digits =>
    have digit : ∀ c ∈ digits, isSpace c = false := fun c hc => isSpace_of_isDigit (h.2 c hc)
    rw [Argument.source]
    split_ifs
    · refine strip_eq_self fun c hc => ?_
      rcases List.mem_cons.mp hc with rfl | hc
      · decide
      · exact digit c hc
    · exact strip_eq_self digit
  | quoted s => exact strip_of_ends (by decide) (by decide)

theorem Argument.Plain.source_ne_nil (h : a.Plain) : a.source ≠ [] := by
  cases a with
  | path first rest => simp [Argument.source, List.intercalate_cons_cons]
  | integer negative digits =>
    rw [Argument.source]
    split_ifs
    · exact List.cons_ne_nil _ _
    · exact h.1
  | quoted s => exact List.cons_ne_nil _ _

/-! The arguments are cut out of the text one by one. -/

theorem argumentText_cons_cons (a b : Argument) (rest : List Argument) :
    argumentText (a :: b :: rest) = a.source ++ ',' :: (' ' :: argumentText (b :: rest)) := by
  simp [argumentText, List.intercalate_cons_cons]

theorem argumentText_ne_nil {a : Argument} {rest : List Argument} (h : a.source ≠ []) :
    argumentText (a :: rest) ≠ [] := by
  cases rest with
  | nil => simpa [argumentText] using h
  | cons b rest => simp [argumentText_cons_cons]

theorem mem_argumentText {args : List Argument} {c : Char} (h : c ∈ argumentText args) :
    c = ',' ∨ c = ' ' ∨ ∃ a ∈ args, c ∈ a.source := by
  induction args with
  | nil => cases h
  | cons a rest ih =>
    cases rest with
    | nil =>
      rw [argumentText, List.map_singleton, List.intercalate_singleton] at h
      exact Or.inr (Or.inr ⟨a, List.mem_cons_self, h⟩)
    | cons b rest =>
      rw [argumentText_cons_cons, List.mem_append, List.mem_cons, List.mem_cons] at h
      rcases h with h | h | h | h
      · exact Or.inr (Or.inr ⟨a, List.mem_cons_self, h⟩)
      · exact Or.inl h
      · exact Or.inr (Or.inl h)
      · rcases ih h with h | h | ⟨a', hmem, hc⟩
        · exact Or.inl h
        · exact Or.inr (Or.inl h)
        · exact Or.inr (Or.inr ⟨a', List.mem_cons_of_mem _ hmem, hc⟩)

end Sources

/-! Each argument is read as what it stands for. -/

section Values

theorem pathKeys_source {first : Text} {rest : List Text} (h : (Argument.path first rest).Plain) :
    pathKeys (Argument.path first rest).source = "input".toList :: first :: rest := by
  have plain : ∀ segment ∈ "input".toList :: first :: rest, ∀ c ∈ segment,
      c ∉ ['.', '[', ']'] := by
    intro segment hmem c hc
    rcases List.mem_cons.mp hmem with rfl | hmem
    · exact (by simp : ∀ c ∈ "input".toList, c ∉ ['.', '[', ']']) c hc
    · have := (h segment hmem c hc).2
      simp only [List.mem_cons, not_or] at this ⊢
      tauto
  have bracket : ∀ c ∈ (Argument.path first rest).source, c ≠ '[' ∧ c ≠ ']' := by
    intro c hc
    rcases mem_intercalate_dot hc with rfl | ⟨segment, hmem, hc⟩
    · decide
    · have := plain segment hmem c hc
      simp only [List.mem_cons, not_or] at this
      exact ⟨this.2.1, this.2.2.1⟩
  have same : (Argument.path first rest).source.map (fun c => if c = '[' then '.' else c) =
      (Argument.path first rest).source :=
    (List.map_congr_left fun c hc => if_neg (bracket c hc).1).trans (List.map_id' _)
  have kept : (Argument.path first rest).source.filter (· ≠ ']') =
      (Argument.path first rest).source :=
    List.filter_eq_self.mpr fun c hc => decide_eq_true (bracket c hc).2
  rw [pathKeys, same, kept]
  refine List.splitOn_intercalate '.' ?_ (List.cons_ne_nil _ _)
  intro segment hmem hdot
  exact plain segment hmem '.' hdot List.mem_cons_self

theorem path_isPrefixOf (first : Text) (rest : List Text) :
    inputPrefix.isPrefixOf (Argument.path first rest).source = true := by
  rw [List.isPrefixOf_iff_prefix, Argument.source, List.intercalate_cons_cons]
  exact List.prefix_append _ _

/-- A text with another first letter is no path. -/
theorem not_isPrefixOf {text : Text} (h : text.head? ≠ some 'i') :
    ¬ inputPrefix.isPrefixOf text = true := by
  rw [List.isPrefixOf_iff_prefix]
  rintro ⟨rest, rfl⟩
  exact h rfl

theorem getNested_input (context : PyVal K) {path : Text} {keys : List Text}
    (h : pathKeys path = "input".toList :: keys) :
    getNested (.dict [("input", context)]) path =
      (valueAt context (keys.map String.ofList)).getD .none := by
  have hinput : String.ofList "input".toList = "input" := String.ofList_toList
  rw [getNested, h, follow, hinput, ← follow_eq]
  rfl

variable [Field K]

theorem evaluateArgument_quoted (context : PyVal K) (s : Text) :
    evaluateArgument context (Argument.quoted s).source = .str (String.ofList s) := by
  have hlast : ('"' :: (s ++ ['"'])).getLast? = some '"' := by
    rw [← List.cons_append, List.getLast?_concat]
  have hmiddle : (('"' :: (s ++ ['"'])).drop 1).dropLast = s := by
    rw [List.drop_succ_cons, List.drop_zero, List.dropLast_concat]
  rw [evaluateArgument, Argument.source, if_neg (not_isPrefixOf (by simp)),
    if_pos ⟨List.head?_cons, hlast⟩, hmiddle]

theorem evaluateArgument_source {a : Argument} (h : a.Plain) (context : PyVal K) :
    evaluateArgument (.dict [("input", context)]) a.source = a.value context := by
  cases a with
  | path first rest =>
    rw [evaluateArgument, if_pos (path_isPrefixOf first rest),
      getNested_input context (pathKeys_source h)]
    rfl
  | integer negative digits =>
    obtain ⟨hne, hdigits⟩ := h
    have hhead : ∀ c, (Argument.integer negative digits).source.head? = some c →
        c = '-' ∨ c.isDigit = true := by
      intro c hc
      rw [Argument.source] at hc
      split_ifs at hc
      · exact Or.inl (Option.some.inj hc).symm
      · exact Or.inr (hdigits c (List.mem_of_mem_head? hc))
    have hpath : (Argument.integer negative digits).source.head? ≠ some 'i' :=
      fun hc => absurd (hhead 'i' hc) (by decide)
    have hquote : (Argument.integer negative digits).source.head? ≠ some '"' :=
      fun hc => absurd (hhead '"' hc) (by decide)
    rw [evaluateArgument, if_neg (not_isPrefixOf hpath), if_neg fun h => hquote h.1]
    cases negative with
    | true => simp only [Argument.source, if_true, parseInt_negative hdigits hne, Argument.value]
    | false =>
      simp only [Argument.source, Bool.false_eq_true, if_false, parseInt_digits hdigits hne,
        Argument.value]
  | quoted s => exact evaluateArgument_quoted _ s

end Values

/-! The engine finds the call, though not always under its own name. -/

section Calls

variable [Field K]

/-- What stands between the brackets of a call, up to the first bracket that closes one. -/
theorem matchCall_append (name : String) {args : Text} (hne : args ≠ []) (h : ')' ∉ args)
    (tail : Text) : matchCall name (name.toList ++ '(' :: (args ++ ')' :: tail)) = some args := by
  have hdrop : (name.toList ++ '(' :: (args ++ ')' :: tail)).dropPrefix?
      (name.toList ++ ['(']) = some (args ++ ')' :: tail) := by
    rw [List.dropPrefix?_eq_some_iff]
    exact ⟨name.toList ++ ['('], by simp, by simp⟩
  rw [matchCall, hdrop, Option.bind_some, bracketed_append hne h]
  rfl

theorem evaluateBuiltin_of_search {condition argsText : Text} {name : String} {fn : Builtin K}
    {input : PyVal K} (h : search (matchCall name) condition = some argsText) :
    evaluateBuiltin condition input name fn =
      applied fn ((fields ',' argsText).map (evaluateArgument input)) := by
  rw [evaluateBuiltin, h]
  rfl

/-- The only bracket of a call stands behind its name. -/
theorem call_infix_iff {m n tail : Text} (hn : '(' ∉ n) (htail : '(' ∉ tail) :
    m ++ ['('] <:+: n ++ '(' :: tail ↔ m <:+ n := by
  constructor
  · rintro ⟨u, v, h⟩
    have hsplit : n ++ '(' :: tail = (u ++ m) ++ '(' :: v := by
      rw [← h]
      simp
    obtain ⟨hname, -⟩ := (List.append_cons_inj_of_notMem hn htail).mp hsplit
    exact ⟨u, hname.symm⟩
  · rintro ⟨u, rfl⟩
    exact ⟨u, tail, by simp⟩

section Dispatch

variable [LinearOrder K] {b : String × Builtin K} {args : List Argument}

def builtinNames : List String :=
  ["eq", "neq", "gt", "gte", "lt", "lte", "and", "or", "not", "contains", "startswith",
    "endswith", "glob_match"]

theorem name_mem (hb : b ∈ builtins) : b.1 ∈ builtinNames := List.mem_map_of_mem hb

/-- `neq` ends in `eq`; no other name ends in another one. -/
theorem name_suffix_iff : ∀ m ∈ builtinNames, ∀ n ∈ builtinNames,
    m.toList <:+ n.toList ↔ m = n ∨ (m = "eq" ∧ n = "neq") := by
  decide +kernel

theorem name_chars : ∀ n ∈ builtinNames, '(' ∉ n.toList ∧ n.toList.head? ≠ some 'i' ∧
    n.toList.head?.any (fun c => !isSpace c) = true := by
  decide +kernel

theorem builtins_nodup : ((builtins (K := K)).map Prod.fst).Nodup := by
  change builtinNames.Nodup
  simp [builtinNames]

theorem find_builtin (hb : b ∈ builtins) :
    builtins.find? (fun b' : String × Builtin K => decide (b'.1.toList <:+ b.1.toList)) =
      some (if b.1 = "neq" then ("eq", builtin_eq) else b) := by
  by_cases captured : b.1 = "neq"
  · rw [if_pos captured, builtins, List.find?_cons_of_pos]
    rw [captured]
    exact decide_eq_true (show "eq".toList <:+ "neq".toList by decide)
  · rw [if_neg captured, List.find?_eq_some_iff_append]
    refine ⟨decide_eq_true List.suffix_rfl, ?_⟩
    obtain ⟨before, after, hsplit⟩ := List.append_of_mem hb
    refine ⟨before, after, hsplit, ?_⟩
    intro b' hb'
    have nodup := builtins_nodup (K := K)
    have hmem : b' ∈ builtins := hsplit ▸ List.mem_append_left _ hb'
    rw [Bool.not_eq_true', decide_eq_false_iff_not, name_suffix_iff _ (name_mem hmem) _
      (name_mem hb)]
    rintro (same | ⟨-, hneq⟩)
    · rw [hsplit, List.map_append, List.map_cons, List.nodup_append] at nodup
      exact nodup.2.2 _ (List.mem_map_of_mem hb') _ List.mem_cons_self same
    · exact captured hneq

theorem plain_notMem (plain : ∀ a ∈ args, a.Plain) {c : Char} (hc : c ∈ ['(', ')']) :
    c ∉ argumentText args := by
  intro hmem
  rcases mem_argumentText hmem with rfl | rfl | ⟨a, ha, hmem⟩
  · exact absurd hc (by decide)
  · exact absurd hc (by decide)
  · exact (plain a ha).notMem hmem (List.mem_cons_of_mem _ hc)

theorem calledBuiltin_callText (hb : b ∈ builtins) (plain : ∀ a ∈ args, a.Plain) :
    calledBuiltin (callText b.1 args) =
      some (if b.1 = "neq" then ("eq", builtin_eq) else b) := by
  have hname := (name_chars b.1 (name_mem hb)).1
  have htail : '(' ∉ argumentText args ++ [')'] := by
    rw [List.mem_append]
    rintro (h | h)
    · exact plain_notMem plain (by decide) h
    · exact absurd h (by decide)
  rw [← find_builtin hb, calledBuiltin]
  simp only [callText, call_infix_iff hname htail]

theorem strip_callText (hb : b ∈ builtins) (args : List Argument) :
    strip (callText b.1 args) = callText b.1 args := by
  obtain ⟨-, -, hhead⟩ := name_chars b.1 (name_mem hb)
  cases hname : b.1.toList with
  | nil => simp [hname] at hhead
  | cons first rest =>
    have hfirst : isSpace first = false := by simpa [hname] using hhead
    have hends : callText b.1 args = first :: (rest ++ '(' :: argumentText args ++ [')']) := by
      simp [callText, hname]
    rw [hends]
    exact strip_of_ends hfirst (by decide)

theorem callText_no_path (hb : b ∈ builtins) (args : List Argument) :
    ¬ inputPrefix.isPrefixOf (callText b.1 args) = true := by
  obtain ⟨-, hhead, hsome⟩ := name_chars b.1 (name_mem hb)
  refine not_isPrefixOf ?_
  cases hname : b.1.toList with
  | nil => simp [hname] at hsome
  | cons first rest => simpa [callText, hname] using hhead

/-- An argument that is cut out of its call as it was written. -/
def Argument.Separate (a : Argument) : Prop :=
  strip a.source = a.source ∧ a.source ≠ [] ∧ ',' ∉ a.source ∧ ')' ∉ a.source

theorem Argument.Plain.separate {a : Argument} (h : a.Plain) : a.Separate :=
  ⟨h.strip_source, h.source_ne_nil, fun hc => h.notMem hc (by decide),
    fun hc => h.notMem hc (by decide)⟩

omit [LinearOrder K] in
/-- A call that is found is applied to its arguments as the engine reads them. -/
theorem evaluateBuiltin_call {name : String} {fn : Builtin K} {condition before : Text}
    (hne : args ≠ []) (separate : ∀ a ∈ args, a.Separate)
    (hcondition : condition = before ++ callText name args)
    (hmiss : ∀ s, s <:+ before → s ≠ [] → matchCall name (s ++ callText name args) = none)
    (input : PyVal K) : evaluateBuiltin condition input name fn =
      applied fn (args.map fun a => evaluateArgument input a.source) := by
  have hargs : argumentText args ≠ [] := by
    obtain ⟨a, rest, rfl⟩ := List.exists_cons_of_ne_nil hne
    exact argumentText_ne_nil (separate a List.mem_cons_self).2.1
  have hclose : ')' ∉ argumentText args := by
    intro hmem
    rcases mem_argumentText hmem with h | h | ⟨a, ha, hmem⟩
    · exact absurd h (by decide)
    · exact absurd h (by decide)
    · exact (separate a ha).2.2.2 hmem
  have whole : ∀ text ∈ args.map Argument.source, ',' ∉ text := by
    intro text htext
    obtain ⟨a, ha, rfl⟩ := List.mem_map.mp htext
    exact (separate a ha).2.2.1
  have hsearch : search (matchCall name) condition = some (argumentText args) := by
    rw [hcondition]
    exact search_behind hmiss (search_of_some (matchCall_append name hargs hclose []))
  rw [evaluateBuiltin_of_search hsearch, argumentText,
    fields_intercalate (by decide) (by simpa using hne) whole, List.map_map, List.map_map]
  refine congrArg (applied fn) (List.map_congr_left fun a ha => ?_)
  rw [Function.comp_apply, Function.comp_apply, (separate a ha).1]

/-- A call is applied to what its arguments stand for, but `neq` under the name of `eq`. -/
theorem evaluateCondition_call (hb : b ∈ builtins) (hne : args ≠ [])
    (plain : ∀ a ∈ args, a.Plain) (context : PyVal K) :
    evaluateCondition (callText b.1 args) (.dict [("input", context)]) =
      applied (if b.1 = "neq" then builtin_eq else b.2) (args.map (Argument.value context)) := by
  have separate : ∀ a ∈ args, a.Separate := fun a ha => (plain a ha).separate
  have hvalues : args.map (Argument.value context) =
      args.map fun a => evaluateArgument (.dict [("input", context)]) a.source :=
    List.map_congr_left fun a ha => (evaluateArgument_source (plain a ha) context).symm
  rw [evaluateCondition, strip_callText hb, if_neg (callText_no_path hb args),
    calledBuiltin_callText hb plain, hvalues]
  by_cases captured : b.1 = "neq"
  · simp only [if_pos captured]
    -- The bracketed name of `eq` is found one letter behind the beginning.
    have hcall : callText b.1 args = ['n'] ++ callText "eq" args := by
      rw [callText, captured]
      rfl
    refine evaluateBuiltin_call hne separate hcall ?_ _
    intro s hs hs'
    obtain rfl : s = ['n'] := by
      rcases List.suffix_cons_iff.mp hs with rfl | hs
      · rfl
      · exact absurd (List.suffix_nil.mp hs) hs'
    rfl
  · simp only [if_neg captured]
    exact evaluateBuiltin_call hne separate (List.nil_append _).symm
      (fun s hs hs' => absurd (List.suffix_nil.mp hs) hs') _

/-- `eq` and `neq` never agree on two values. -/
theorem applied_eq_ne_neq {values : List (PyVal K)} :
    applied builtin_eq values = applied builtin_neq values ↔ values.length ≠ 2 := by
  match values with
  | [] => simp [applied, builtin_eq, builtin_neq, wrongArity]
  | [_] => simp [applied, builtin_eq, builtin_neq, wrongArity]
  | [_, _] => simp [applied, builtin_eq, builtin_neq]
  | _ :: _ :: _ :: _ => simp [applied, builtin_eq, builtin_neq, wrongArity]

end Dispatch

/-- A written call is the builtin's own application to its arguments exactly if the builtin is
not `neq`, or is `neq` with another number of arguments than it takes. -/
theorem call_iff [LinearOrder K] (b : String × Builtin K) (hb : b ∈ builtins)
    (args : List Argument) (hne : args ≠ []) (plain : ∀ a ∈ args, a.Plain) (context : PyVal K) :
    evaluateCondition (callText b.1 args) (.dict [("input", context)]) =
        applied b.2 (args.map (Argument.value context)) ↔
      b.1 ≠ "neq" ∨ args.length ≠ 2 := by
  rw [evaluateCondition_call hb hne plain]
  by_cases captured : b.1 = "neq"
  · have hmem : ("neq", builtin_neq) ∈ builtins (K := K) := by simp [builtins]
    obtain rfl := List.inj_on_of_nodup_map builtins_nodup hb hmem captured
    rw [if_pos captured, applied_eq_ne_neq, List.length_map]
    simp
  · simp [captured]

end Calls

section Samples

/-- `input.age` and `18`. -/
def ageArguments : List Argument := [.path "age".toList [], .integer false "18".toList]

theorem ageArguments_plain : ∀ a ∈ ageArguments, a.Plain := by
  intro a ha
  rcases List.mem_cons.mp ha with rfl | ha
  · intro segment hmem
    obtain rfl := List.mem_singleton.mp hmem
    simp [isSpace]
  · obtain rfl := List.mem_singleton.mp ha
    simp [Argument.Plain]

def ageContext : PyVal ℚ := .dict [("age", .int 21)]

theorem call_iff_sample : evaluateCondition (callText "gte" ageArguments)
      (.dict [("input", ageContext)]) =
    applied builtin_gte (ageArguments.map (Argument.value ageContext)) :=
  (call_iff ("gte", builtin_gte) (by simp [builtins]) ageArguments (List.cons_ne_nil _ _)
    ageArguments_plain ageContext).mpr (Or.inl (by decide))

/-- `neq(input.age, 18)` is evaluated as `eq(input.age, 18)`. -/
theorem neq_read_as_eq : evaluateCondition (callText "neq" ageArguments)
      (.dict [("input", ageContext)]) ≠
    applied builtin_neq (ageArguments.map (Argument.value ageContext)) := by
  have hne : ageArguments ≠ [] := List.cons_ne_nil _ _
  have called := evaluateCondition_call (b := ("neq", builtin_neq)) (by simp [builtins]) hne
    ageArguments_plain ageContext
  rw [called, if_pos rfl, ne_eq, applied_eq_ne_neq]
  simp [ageArguments]

end Samples

end PolicyCalls
