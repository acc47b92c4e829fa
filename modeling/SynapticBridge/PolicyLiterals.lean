import SynapticBridge.PolicyText

/-! A quoted text in a rule. The engine cuts rules at braces, bodies at semicolons, calls at
closing brackets and arguments at commas, and does not look for quotes when it cuts. -/
namespace PolicyLiterals

open Domain PythonText PythonValues OpaPolicyEngine PolicyCalls PolicyText
open BuiltInPolicies (ruleSource matchRule_ruleSource)

def literalArguments (s : Text) : List Argument := [.path "x".toList [], .quoted s]

/-- `eq(input.x, "s")`. -/
def eqText (s : Text) : Text := callText "eq" (literalArguments s)

/-- The call up to the quoted text. -/
def callHead : Text := "eq(input.x, \"".toList

theorem path_source : (Argument.path "x".toList []).source = "input.x".toList :=
  rfl

theorem callHead_eq : callHead = "eq".toList ++ '(' :: ("input.x".toList ++ [',', ' ', '"']) :=
  rfl

theorem eqText_eq (s : Text) : eqText s = callHead ++ (s ++ ['"', ')']) := by
  have hargs : argumentText (literalArguments s) =
      "input.x".toList ++ ',' :: ' ' :: '"' :: (s ++ ['"']) := by
    rw [literalArguments, argumentText_cons_cons, path_source, argumentText, List.map_singleton,
      List.intercalate_singleton, Argument.source]
  rw [eqText, callText, hargs, callHead_eq]
  simp only [List.append_assoc, List.cons_append, List.nil_append]

/-- Nothing in the text is cut at. -/
def Verbatim (s : Text) : Prop := ∀ c ∈ s, c ∉ [',', ')', ';', '}']

variable {K : Type} [Field K] [LinearOrder K]

def inputX (v : String) : PyVal K := .dict [("input", .dict [("x", .str v)])]

theorem calledBuiltin_eq {condition : Text} (h : "eq".toList ++ ['('] <:+: condition) :
    calledBuiltin (K := K) condition = some ("eq", builtin_eq) :=
  List.find?_cons_of_pos (decide_eq_true h)

omit [LinearOrder K] in
theorem evaluateArgument_x (v : String) :
    evaluateArgument (K := K) (inputX v) (Argument.path "x".toList []).source = .str v := by
  rw [inputX, evaluateArgument_source]
  · simp [Argument.value, BuiltInPolicies.valueAt]
  · intro segment hmem
    obtain rfl := List.mem_singleton.mp hmem
    simp [isSpace]

section Kept

theorem evaluateCondition_eqText {s : Text} (h : ',' ∉ s ∧ ')' ∉ s) (v : String) :
    evaluateCondition (K := K) (eqText s) (inputX v) = true ↔ v = String.ofList s := by
  have separate : ∀ a ∈ literalArguments s, a.Separate := by
    intro a ha
    rcases List.mem_cons.mp ha with rfl | ha
    · exact ⟨by decide, by decide, by decide, by decide⟩
    · obtain rfl := List.mem_singleton.mp ha
      refine ⟨strip_of_ends (by decide) (by decide), List.cons_ne_nil _ _, ?_, ?_⟩
      · simp [Argument.source, h.1]
      · simp [Argument.source, h.2]
  have hname : ("eq", builtin_eq) ∈ builtins (K := K) := List.mem_cons_self
  have hinfix : "eq".toList ++ ['('] <:+: callText "eq" (literalArguments s) :=
    ⟨[], argumentText (literalArguments s) ++ [')'], rfl⟩
  have hnone : ∀ t : Text, t <:+ [] → t ≠ [] →
      matchCall "eq" (t ++ callText "eq" (literalArguments s)) = none :=
    fun t ht hne => absurd (List.suffix_nil.mp ht) hne
  rw [evaluateCondition, eqText, strip_callText hname, if_neg (callText_no_path hname _),
    calledBuiltin_eq hinfix]
  dsimp only
  have hne : literalArguments s ≠ [] := List.cons_ne_nil _ _
  rw [evaluateBuiltin_call hne separate (List.nil_append _).symm hnone]
  simp only [literalArguments, List.map_cons, List.map_nil, evaluateArgument_x,
    evaluateArgument_quoted, applied, builtin_eq]
  simp [eq]

end Kept

/-! A text without calls and paths: whatever conditions and rules are cut out of it hold. -/

section Quiet

/-- No call and no path. -/
def Quiet (text : Text) : Prop := '(' ∉ text ∧ ¬ inputPrefix <:+: text

variable {a b : Text}

theorem Quiet.of_isInfix (h : Quiet b) (hab : a <:+: b) : Quiet a :=
  ⟨fun hmem => h.1 (hab.subset hmem), fun hpath => h.2 (hpath.trans hab)⟩

theorem Quiet.concat (h : Quiet a) {c : Char} (hcall : c ≠ '(') (hdot : c ≠ '.') :
    Quiet (a ++ [c]) := by
  refine ⟨by simp [h.1, hcall.symm], fun hpath => ?_⟩
  rcases List.infix_concat_iff.mp hpath with hsuffix | hinfix
  · obtain ⟨front, hfront⟩ := hsuffix
    have hlast := congrArg List.getLast? hfront
    rw [List.getLast?_concat, List.getLast?_append_of_ne_nil _ (by decide)] at hlast
    exact hdot (Option.some.inj (hlast.symm.trans rfl))
  · exact h.2 hinfix

theorem strip_isInfix (text : Text) : strip text <:+: text :=
  (List.rdropWhile_prefix _ _).isInfix.trans (List.dropWhile_suffix isSpace).isInfix

theorem infix_of_mem_fields {sep : Char} {text field : Text} (h : field ∈ fields sep text) :
    field <:+: text := by
  induction text using fields_induction sep with
  | field a ha =>
    rw [fields_of_notMem ha] at h
    obtain rfl := List.mem_singleton.mp h
    exact strip_isInfix a
  | cut a b ha ih =>
    rw [fields_append, fields_of_notMem ha] at h
    rcases List.mem_cons.mp h with rfl | h
    · exact (strip_isInfix a).trans (List.prefix_append a _).isInfix
    · exact (ih h).trans (List.suffix_append_of_suffix (List.suffix_cons sep b)).isInfix

theorem Quiet.evaluateCondition {condition : Text} (h : Quiet condition) (input : PyVal K) :
    OpaPolicyEngine.evaluateCondition condition input = true := by
  have quiet : Quiet (strip condition) := h.of_isInfix (strip_isInfix condition)
  have hpath : ¬ inputPrefix.isPrefixOf (strip condition) = true := fun hstart =>
    quiet.2 (List.isPrefixOf_iff_prefix.mp hstart).isInfix
  have hcalled : calledBuiltin (K := K) (strip condition) = none := by
    rw [calledBuiltin, List.find?_eq_none]
    intro builtin _ hcall
    exact quiet.1 ((of_decide_eq_true hcall).subset (by simp))
  rw [OpaPolicyEngine.evaluateCondition, if_neg hpath, hcalled]

theorem Quiet.conditions_hold (h : Quiet a) (input : PyVal K) :
    ((fields ';' a).filter (· ≠ [])).all
      (fun condition => OpaPolicyEngine.evaluateCondition condition input) = true := by
  rw [List.all_eq_true]
  intro condition hmem
  exact (h.of_isInfix (infix_of_mem_fields (List.mem_filter.mp hmem).1)).evaluateCondition input

theorem Quiet.evaluateRule (h : Quiet a) (input : PyVal K) :
    OpaPolicyEngine.evaluateRule a input = true := by
  rw [OpaPolicyEngine.evaluateRule, conditions_eq]
  exact h.conditions_hold input

/-- The rules that are found in a quiet text decide without looking at the input. -/
theorem Quiet.deniedFirst_iff (h : Quiet a) (input : PyVal K) :
    DeniedFirst (OpaPolicyEngine.evaluateRule · input) (findAll matchRule 0 a) ↔
      DeniedFirst (fun _ => true) (findAll matchRule 0 a) :=
  deniedFirst_congr fun _ hr => (h.of_isInfix (infix_of_mem_findAll hr)).evaluateRule input

end Quiet

/-! The condition that is left of a literal that was cut. -/

section Fragments

variable {f g h : Text}

theorem search_none {name : String} {text : Text} (h : ')' ∉ text) :
    search (matchCall name) text = none := by
  have miss : ∀ t : Text, ')' ∉ t → matchCall name t = none := by
    intro t ht
    rcases hmatch : matchCall name t with _ | args
    · rfl
    · rw [matchCall, Option.bind_eq_some_iff] at hmatch
      obtain ⟨tail, hdrop, hargs⟩ := hmatch
      obtain ⟨name', rfl, -⟩ := List.dropPrefix?_eq_some_iff.mp hdrop
      obtain ⟨⟨body, rest⟩, hbracketed, -⟩ := Option.map_eq_some_iff.mp hargs
      rw [bracketed_eq_some hbracketed] at ht
      exact absurd (by simp) ht
  induction text with
  | nil => exact miss [] h
  | cons c cs ih =>
    rw [search, miss _ h]
    exact ih fun hmem => h (List.mem_cons_of_mem c hmem)

theorem strip_fragment (f : Text) :
    strip (callHead ++ f) = callHead ++ f.rdropWhile isSpace := by
  have hhead : callHead = "eq(input.x, ".toList ++ ['"'] := rfl
  have hfirst : (callHead ++ f).dropWhile isSpace = callHead ++ f := by
    rw [callHead_eq]
    exact List.dropWhile_cons_of_neg (by decide)
  rw [strip, hfirst, hhead, List.append_assoc, List.singleton_append,
    rdropWhile_append_cons (by decide), List.append_assoc, List.singleton_append]

theorem evaluateCondition_fragment (f : Text) (input : PyVal K) :
    evaluateCondition (callHead ++ f) input =
      evaluateBuiltin (callHead ++ f.rdropWhile isSpace) input "eq" builtin_eq := by
  have hpath : ¬ inputPrefix.isPrefixOf (callHead ++ f.rdropWhile isSpace) = true := by
    refine not_isPrefixOf ?_
    rw [callHead_eq]
    exact fun h => absurd (Option.some.inj h) (by decide)
  have hinfix : "eq".toList ++ ['('] <:+: callHead ++ f.rdropWhile isSpace := by
    refine ⟨[], "input.x".toList ++ [',', ' ', '"'] ++ f.rdropWhile isSpace, ?_⟩
    rw [callHead_eq]
    simp only [List.append_assoc, List.cons_append, List.nil_append]
  rw [evaluateCondition, strip_fragment, if_neg hpath, calledBuiltin_eq hinfix]

/-- A call that is not closed is no call, and the condition holds. -/
theorem fragment_unclosed (h : ')' ∉ f) (input : PyVal K) :
    evaluateCondition (callHead ++ f) input = true := by
  have hclose : ')' ∉ callHead ++ f.rdropWhile isSpace := by
    rw [List.mem_append]
    rintro (hmem | hmem)
    · exact absurd hmem (by simp [callHead_eq])
    · exact h ((List.rdropWhile_prefix _ _).subset hmem)
  rw [evaluateCondition_fragment, evaluateBuiltin, search_none hclose]

omit [LinearOrder K] in
theorem applied_eq_of_length [LinearOrder K] {values : List (PyVal K)} (h : values.length ≠ 2) :
    applied builtin_eq values = false := by
  match values with
  | [] => rfl
  | [_] => rfl
  | [_, _] => exact absurd rfl h
  | _ :: _ :: _ :: _ => rfl

omit [LinearOrder K] in
/-- No number begins with a quote. -/
theorem parse_quote (g : Text) :
    parseInt ('"' :: g) = none ∧ parseFloat (K := K) ('"' :: g) = none := by
  have hdigit : digit '"' = none := by decide
  have hdigits : digits ('"' :: g) = none := by rw [digits, hdigit, Option.map_none]
  have hsign : sign ('"' :: g) = (false, '"' :: g) := rfl
  refine ⟨by rw [parseInt, hsign, hdigits], ?_⟩
  have hlower : ∀ word : Text, word.head? ≠ some '"' → lower ('"' :: g) ≠ word := by
    rintro word hword rfl
    exact hword rfl
  have hpoint : pointNumber ('"' :: g) = none := by
    rw [pointNumber, hdigits]
    exact fun rest heq => absurd (List.cons.inj heq).1 (by decide)
  rw [parseFloat, hsign]
  dsimp only
  rw [if_neg (not_or.mpr ⟨hlower _ (by decide), hlower _ (by decide)⟩),
    if_neg (hlower _ (by decide)), hpoint]
  rfl

omit [LinearOrder K] in
/-- A quote that is not closed begins a bare text. -/
theorem evaluateArgument_unclosed (hquote : '"' ∉ g) (input : PyVal K) :
    evaluateArgument input ('"' :: g) = .str (if g = [] then "" else String.ofList ('"' :: g)) := by
  have hpath : ¬ inputPrefix.isPrefixOf ('"' :: g) = true :=
    not_isPrefixOf fun h => absurd (Option.some.inj h) (by decide)
  obtain ⟨hint, hfloat⟩ := parse_quote (K := K) g
  rw [evaluateArgument, if_neg hpath]
  by_cases hg : g = []
  · subst hg
    rfl
  · have hlast : ('"' :: g).getLast? ≠ some '"' := by
      rw [List.getLast?_cons_of_ne_nil hg]
      exact fun h => hquote (List.mem_of_getLast? h)
    rw [if_neg fun h => hlast h.2, if_neg hg, hint, hfloat]

/-- A call that is closed inside the literal is made with what stands before the bracket. -/
theorem fragment_call (hf : f = g ++ ')' :: h) (hclose : ')' ∉ g) (input : PyVal K) :
    evaluateCondition (callHead ++ f) input = applied builtin_eq
      (("input.x".toList :: fields ',' ('"' :: g)).map (evaluateArgument input)) := by
  have hargs : ')' ∉ "input.x".toList ++ ',' :: ' ' :: '"' :: g := by
    rw [List.mem_append, List.mem_cons, List.mem_cons, List.mem_cons]
    rintro (h | h | h | h | h)
    · exact absurd h (by decide)
    · exact absurd h (by decide)
    · exact absurd h (by decide)
    · exact absurd h (by decide)
    · exact hclose h
  have hsearch : search (matchCall "eq") (callHead ++ f.rdropWhile isSpace) =
      some ("input.x".toList ++ ',' :: ' ' :: '"' :: g) := by
    have hsplit : callHead ++ f.rdropWhile isSpace = "eq".toList ++ '(' ::
        (("input.x".toList ++ ',' :: ' ' :: '"' :: g) ++ ')' :: h.rdropWhile isSpace) := by
      rw [hf, rdropWhile_append_cons (by decide), callHead_eq]
      simp only [List.append_assoc, List.cons_append, List.nil_append]
    rw [hsplit]
    exact search_of_some (matchCall_append "eq" (by simp) hargs _)
  have hfields : fields ',' ("input.x".toList ++ ',' :: ' ' :: '"' :: g) =
      "input.x".toList :: fields ',' ('"' :: g) := by
    rw [fields_append, fields_of_notMem (by decide), fields_cons_space (by decide) (by decide)]
    rfl
  rw [evaluateCondition_fragment, evaluateBuiltin_of_search hsearch, hfields]

/-- The text that is left is empty or begins with the quote, and the literal does neither. -/
theorem unclosed_ne {s : Text} (hquote : '"' ∉ s) (hs : s ≠ []) (g : Text) :
    String.ofList s ≠ if g = [] then "" else String.ofList ('"' :: g) := by
  intro heq
  have hlist := congrArg String.toList heq
  rw [String.toList_ofList] at hlist
  split_ifs at hlist
  · exact hs hlist
  · rw [String.toList_ofList] at hlist
    exact hquote (hlist ▸ List.mem_cons_self)

/-- A call that is closed inside the literal compares with something else. -/
theorem fragment_closed {s : Text} (hf : f = g ++ ')' :: h) (hclose : ')' ∉ g)
    (hg : ',' ∈ g ∨ '"' ∉ g) (hquote : '"' ∉ s) (hs : s ≠ []) :
    evaluateCondition (K := K) (callHead ++ f) (inputX (String.ofList s)) = false := by
  rw [fragment_call hf hclose]
  by_cases hcomma : ',' ∈ g
  · apply applied_eq_of_length
    obtain ⟨g₁, g₂, rfl⟩ := List.append_of_mem hcomma
    have hne : ∀ text, fields ',' text ≠ [] := by simp [fields]
    have hpos₁ := List.length_pos_iff.mpr (hne ('"' :: g₁))
    have hpos₂ := List.length_pos_iff.mpr (hne g₂)
    rw [← List.cons_append, fields_append, List.length_map, List.length_cons, List.length_append]
    omega
  · have hopen : '"' ∉ g := hg.resolve_left hcomma
    have hstrip : strip ('"' :: g) = '"' :: g.rdropWhile isSpace := by
      rw [strip, List.dropWhile_cons_of_neg (by decide)]
      exact rdropWhile_append_cons (by decide) [] g
    have hunclosed : '"' ∉ g.rdropWhile isSpace := fun hmem =>
      hopen ((List.rdropWhile_prefix _ _).subset hmem)
    have hx := evaluateArgument_x (K := K) (String.ofList s)
    rw [path_source] at hx
    rw [fields_of_notMem (by simp [hcomma]), hstrip, List.map_cons, List.map_singleton, hx,
      evaluateArgument_unclosed hunclosed]
    change (String.ofList s == _) = false
    exact beq_eq_false_iff_ne.mpr (unclosed_ne hquote hs _)

end Fragments

section Broken

/-- Behind its first semicolon or closing brace the literal has no call and no path. -/
def Inert (s : Text) : Prop := Quiet (s.dropWhile fun c => decide (c ≠ ';' ∧ c ≠ '}'))

/-- What the engine reads of the literal: the text up to where the condition ends. -/
def Fragment (s f : Text) : Prop :=
  (∀ c ∈ s, c ≠ ';' ∧ c ≠ '}') ∧ f = s ++ ['"', ')', ' '] ∨
    f <+: s ∧ ∃ c ∈ s, c = ';' ∨ c = '}'

theorem bodyText_eqText (s : Text) :
    bodyText [eqText s] ++ ['}'] = ' ' :: (callHead ++ (s ++ ['"', ')', ' ', '}'])) := by
  rw [bodyText, List.intercalate_singleton, eqText_eq]
  simp only [List.append_assoc, List.cons_append, List.nil_append]

theorem Quiet.closing {t : Text} (h : Quiet t) : Quiet (t ++ ['"', ')', ' ', '}']) := by
  have := (((h.concat (c := '"') (by decide) (by decide)).concat (c := ')') (by decide)
    (by decide)).concat (c := ' ') (by decide) (by decide)).concat (c := '}') (by decide)
      (by decide)
  simpa only [List.append_assoc, List.cons_append, List.nil_append] using this

theorem strip_fragment_ne_nil (f : Text) : strip (callHead ++ f) ≠ [] := by
  rw [strip_fragment, callHead_eq]
  exact List.cons_ne_nil _ _

theorem notMem_fragment {c : Char} {f : Text} (hhead : c ∉ callHead) (hf : c ∉ f) :
    c ∉ callHead ++ f := by
  rw [List.mem_append]
  exact not_or.mpr ⟨hhead, hf⟩

/-- The condition decides for its rule, if nothing but quiet text follows it. -/
theorem evaluateRule_fragment {f more : Text} (hf : ';' ∉ f)
    (hmore : more = [] ∨ ∃ g, more = ';' :: g ∧ Quiet g) (input : PyVal K) :
    evaluateRule (' ' :: (callHead ++ (f ++ more))) input =
      evaluateCondition (callHead ++ f) input := by
  have hhead : ';' ∉ callHead ++ f := notMem_fragment (by simp [callHead_eq]) hf
  have hkept : ∀ others, (strip (callHead ++ f) :: others).filter (fun t => decide (t ≠ [])) =
      strip (callHead ++ f) :: others.filter (fun t => decide (t ≠ [])) :=
    fun _ => List.filter_cons_of_pos (decide_eq_true (strip_fragment_ne_nil f))
  rw [evaluateRule, conditions_eq, fields_cons_space (by decide) (by decide)]
  rcases hmore with rfl | ⟨g, rfl, quiet⟩
  · rw [List.append_nil, fields_of_notMem hhead, hkept, List.all_cons,
      evaluateCondition_strip]
    simp
  · rw [← List.append_assoc, fields_append, fields_of_notMem hhead, List.singleton_append,
      hkept, List.all_cons, quiet.conditions_hold, evaluateCondition_strip,
      Bool.and_true]

/-- The rule of the literal denies by its first condition, or else what is found behind the
end of the rule denies, whatever the input is. -/
theorem denies_cut_iff {policy : Policy} {p s f more rest : Text} (hp : PackageName p)
    (enabled : policy.enabled = true) (effect : policy.effect = .deny)
    (code : policy.regoCode = String.ofList (policyText p [(.deny, [eqText s])] []))
    (hcut : s ++ ['"', ')', ' ', '}'] = (f ++ more) ++ '}' :: rest) (hbrace : '}' ∉ f ++ more)
    (hf : ';' ∉ f) (hmore : more = [] ∨ ∃ g, more = ';' :: g ∧ Quiet g) (quiet : Quiet rest)
    (v : String) : evaluate (K := K) policy (.dict [("x", .str v)]) = false ↔
      evaluateCondition (K := K) (callHead ++ f) (inputX v) = true ∨
        DeniedFirst (fun _ : Text => true) (findAll matchRule 0 rest) := by
  have package : search matchPackage policy.regoCode.toList = some p := by
    rw [code, String.toList_ofList]
    exact search_package hp _
  have hbody : bodyText [eqText s] ++ ['}'] =
      (' ' :: (callHead ++ (f ++ more))) ++ '}' :: rest := by
    rw [bodyText_eqText, hcut]
    simp only [List.append_assoc, List.cons_append]
  have hend : '}' ∉ ' ' :: (callHead ++ (f ++ more)) := by
    rw [List.mem_cons]
    exact not_or.mpr ⟨by decide, notMem_fragment (by simp [callHead_eq]) hbrace⟩
  have found : rules policy.regoCode.toList =
      (.deny, ' ' :: (callHead ++ (f ++ more))) :: findAll matchRule 0 rest := by
    rw [code, String.toList_ofList]
    exact rules_cut (r := (.deny, bodyText [eqText s])) hp hbody (List.cons_ne_nil _ _) hend
  rw [evaluate_eq_false enabled effect package, found, deniedFirst_cons, quiet.deniedFirst_iff,
    evaluateRule_fragment hf hmore]
  change _ ∧ evaluateCondition (K := K) (callHead ++ f) (inputX v) = true ∨
    (_ → evaluateCondition (K := K) (callHead ++ f) (inputX v) = false) ∧ _ ↔ _
  cases evaluateCondition (K := K) (callHead ++ f) (inputX v) with
  | true => simp
  | false => simp

theorem split_at_cut {s : Text} (special : ∃ c ∈ s, c = ';' ∨ c = '}') (inert : Inert s) :
    ∃ f c t, s = f ++ c :: t ∧ (∀ c' ∈ f, c' ≠ ';' ∧ c' ≠ '}') ∧ (c = ';' ∨ c = '}') ∧
      Quiet t := by
  have hsplit : s.takeWhile (fun c => decide (c ≠ ';' ∧ c ≠ '}')) ++
      s.dropWhile (fun c => decide (c ≠ ';' ∧ c ≠ '}')) = s := List.takeWhile_append_dropWhile
  have hplain : ∀ c ∈ s.takeWhile (fun c => decide (c ≠ ';' ∧ c ≠ '}')), c ≠ ';' ∧ c ≠ '}' := by
    intro c hc
    simpa using List.mem_takeWhile_imp hc
  have hstop := List.head?_dropWhile_not (fun c => decide (c ≠ ';' ∧ c ≠ '}')) s
  rw [Inert] at inert
  rcases htail : s.dropWhile (fun c => decide (c ≠ ';' ∧ c ≠ '}')) with _ | ⟨c, t⟩
  · obtain ⟨c, hc, hspecial⟩ := special
    rw [htail, List.append_nil] at hsplit
    have := hplain c (hsplit.symm ▸ hc)
    tauto
  · rw [htail] at hsplit hstop inert
    refine ⟨_, c, t, hsplit.symm, hplain, ?_, inert.of_isInfix (List.suffix_cons c t).isInfix⟩
    by_contra hc
    exact of_decide_eq_false hstop (not_or.mp hc)

/-- The engine decides by what it reads of the literal, or without looking at the input. -/
theorem denies_fragment {policy : Policy} {p s : Text} (hp : PackageName p)
    (enabled : policy.enabled = true) (effect : policy.effect = .deny)
    (code : policy.regoCode = String.ofList (policyText p [(.deny, [eqText s])] []))
    (inert : Inert s) : ∃ f, Fragment s f ∧ ∃ Always : Prop, ∀ v : String,
      evaluate (K := K) policy (.dict [("x", .str v)]) = false ↔
        evaluateCondition (K := K) (callHead ++ f) (inputX v) = true ∨ Always := by
  by_cases special : ∃ c ∈ s, c = ';' ∨ c = '}'
  · obtain ⟨f, c, t, hsplit, hf, hc, quiet⟩ := split_at_cut special inert
    have hsemi : ';' ∉ f := fun hmem => (hf _ hmem).1 rfl
    have hbrace : '}' ∉ f := fun hmem => (hf _ hmem).2 rfl
    refine ⟨f, Or.inr ⟨hsplit ▸ List.prefix_append f _, special⟩, ?_⟩
    rcases hc with rfl | rfl
    · -- The rule goes on behind the semicolon, up to the next brace.
      obtain ⟨g, rest, hrest, hg⟩ := List.eq_append_cons_of_mem
        (show '}' ∈ t ++ ['"', ')', ' ', '}'] by simp)
      have hquiet : Quiet (g ++ '}' :: rest) := hrest ▸ quiet.closing
      have hcut : s ++ ['"', ')', ' ', '}'] = (f ++ ';' :: g) ++ '}' :: rest := by
        rw [hsplit]
        simp only [List.append_assoc, List.cons_append, hrest]
      have hquiet' : Quiet rest :=
        hquiet.of_isInfix (List.suffix_append_of_suffix (List.suffix_cons _ _)).isInfix
      refine ⟨_, denies_cut_iff hp enabled effect code hcut (by simp [hbrace, hg]) hsemi
        (Or.inr ⟨g, rfl, hquiet.of_isInfix (List.prefix_append _ _).isInfix⟩) hquiet'⟩
    · have hcut : s ++ ['"', ')', ' ', '}'] = (f ++ []) ++ '}' :: (t ++ ['"', ')', ' ', '}']) := by
        rw [hsplit]
        simp only [List.append_assoc, List.cons_append, List.nil_append]
      exact ⟨_, denies_cut_iff hp enabled effect code hcut (by simp [hbrace]) hsemi (Or.inl rfl)
        quiet.closing⟩
  · have hplain : ∀ c ∈ s, c ≠ ';' ∧ c ≠ '}' := by
      intro c hc
      by_contra hnot
      exact special ⟨c, hc, by tauto⟩
    have hsemi : ';' ∉ s := fun hmem => (hplain _ hmem).1 rfl
    have hbrace : '}' ∉ s := fun hmem => (hplain _ hmem).2 rfl
    have hcut : s ++ ['"', ')', ' ', '}'] = ((s ++ ['"', ')', ' ']) ++ []) ++ '}' :: [] := by simp
    have hquiet : Quiet [] := ⟨List.not_mem_nil, by decide⟩
    exact ⟨_, Or.inl ⟨hplain, rfl⟩, _, denies_cut_iff hp enabled effect code hcut
      (by simp [hbrace]) (by simp [hsemi]) (Or.inl rfl) hquiet⟩

/-- A literal that is cut leaves a condition that always holds, or one that the literal itself
does not satisfy. -/
theorem fragment_fails {s f : Text} (hquote : '"' ∉ s) (hs : ¬ Verbatim s) (hf : Fragment s f) :
    (∀ v, evaluateCondition (K := K) (callHead ++ f) (inputX v) = true) ∨
      evaluateCondition (K := K) (callHead ++ f) (inputX (String.ofList s)) = false := by
  have hne : s ≠ [] := by
    rintro rfl
    exact hs (List.forall_mem_nil _)
  by_cases hclose : ')' ∈ f
  · right
    obtain ⟨g, h, rfl, hg⟩ := List.eq_append_cons_of_mem hclose
    refine fragment_closed rfl hg ?_ hquote hne
    rcases hf with ⟨hplain, hsplit⟩ | ⟨hstart, -⟩
    · rcases List.prefix_or_prefix_of_prefix (hsplit ▸ List.prefix_append g (')' :: h))
        (List.prefix_append s ['"', ')', ' ']) with hstart | hstart
      · exact Or.inr fun hmem => hquote (hstart.subset hmem)
      · -- The bracket is the one behind the literal, which then has a comma.
        left
        simp only [Verbatim, not_forall, not_not] at hs
        obtain ⟨c, hc, hspecial⟩ := hs
        have hbracket : c ≠ ')' := by
          rintro rfl
          exact hg (hstart.subset hc)
        obtain ⟨hsemi, hbrace⟩ := hplain c hc
        simp only [List.mem_cons, List.not_mem_nil, or_false, hbracket, hsemi, hbrace] at hspecial
        exact hstart.subset (hspecial ▸ hc)
    · right
      exact fun hmem => hquote (hstart.subset (List.mem_append_left _ hmem))
  · exact Or.inl fun v => fragment_unclosed hclose _

end Broken

/-- A literal without a comma, closing bracket, semicolon or closing brace is compared as it
is written. No other literal is, unless perhaps a call or a path follows its first semicolon
or closing brace. -/
theorem literal_verbatim {policy : Policy} {p : Text} {s : String} (hp : PackageName p)
    (enabled : policy.enabled = true) (effect : policy.effect = .deny)
    (code : policy.regoCode = String.ofList (policyText p [(.deny, [eqText s.toList])] []))
    (hquote : '"' ∉ s.toList) :
    (Verbatim s.toList → ∀ v : String,
      evaluate (K := K) policy (.dict [("x", .str v)]) = false ↔ v = s) ∧
    (Inert s.toList → (∀ v : String,
      evaluate (K := K) policy (.dict [("x", .str v)]) = false ↔ v = s) → Verbatim s.toList) := by
  constructor
  · intro verbatim v
    have printable : ∀ r ∈ [(RuleName.deny, [eqText s.toList])], r.2 ≠ [] ∧
        ∀ condition ∈ r.2, Printable condition := by
      simp only [List.mem_singleton, forall_eq]
      refine ⟨List.cons_ne_nil _ _, ?_, ?_⟩
      · rw [eqText_eq]
        exact strip_fragment_ne_nil _
      · intro c hc hspecial
        rw [eqText_eq, List.mem_append, List.mem_append] at hc
        rcases hc with hc | hc | hc
        · exact (by simp [callHead_eq] : ∀ c ∈ callHead, c ∉ ['}', ';']) c hc hspecial
        · have := verbatim c hc
          simp only [List.mem_cons, List.not_mem_nil, or_false, not_or] at hspecial this
          tauto
        · exact (by simp : ∀ c ∈ ['"', ')'], c ∉ ['}', ';']) c hc hspecial
    have holds := evaluateCondition_eqText (K := K) (s := s.toList)
      ⟨fun hmem => verbatim _ hmem (by decide), fun hmem => verbatim _ hmem (by decide)⟩ v
    rw [String.ofList_toList] at holds
    rw [printed_denies_iff hp printable (List.forall_mem_nil _) enabled effect code,
      deniedFirst_cons, ← holds]
    simp [deniedFirst_nil, inputX]
  · intro inert means
    by_contra hs
    obtain ⟨f, hf, Always, denies⟩ := denies_fragment (K := K) hp enabled effect code inert
    have all : ∀ v : String, evaluate (K := K) policy (.dict [("x", .str v)]) = false := by
      intro v
      rcases fragment_fails (K := K) hquote hs hf with holds | fails
      · exact (denies v).mpr (Or.inl (holds v))
      · rw [String.ofList_toList] at fails
        refine (denies v).mpr (((denies s).mp ((means s).mpr rfl)).imp_left fun h => ?_)
        rw [fails] at h
        cases h
    have other : String.ofList ('"' :: s.toList) = s := (means _).mp (all _)
    rw [← other, String.toList_ofList] at hquote
    exact hquote List.mem_cons_self

section Samples

def equalsPolicy (s : String) : Policy := denyPolicy [(.deny, [eqText s.toList])]

theorem literal_verbatim_sample :
    evaluate (K := ℚ) (equalsPolicy "root") (.dict [("x", .str "root")]) = false := by
  have verbatim : Verbatim "root".toList := by simp [Verbatim]
  have means := @literal_verbatim ℚ _ _ (equalsPolicy "root") "p".toList "root" samplePackage
    rfl rfl rfl (by simp)
  exact (means.1 verbatim "root").mpr rfl

/-- A literal with a comma is not found in the value that it is. -/
theorem comma_not_denied :
    ¬ (evaluate (K := ℚ) (equalsPolicy "Doe, J") (.dict [("x", .str "Doe, J")]) = false ↔
      "Doe, J" = "Doe, J") := by
  have allowed : evaluate (K := ℚ) (equalsPolicy "Doe, J") (.dict [("x", .str "Doe, J")]) =
      true := by
    decide +kernel
  rw [allowed]
  simp

end Samples

end PolicyLiterals
