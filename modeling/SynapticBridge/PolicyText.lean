import SynapticBridge.PolicyCalls

/-! Policies printed rule by rule, `name { c1; ...; cn }` on a line. The engine finds the
rules and their conditions again, and the first deny or allow rule that holds decides. -/
namespace PolicyText

open Domain PythonText PythonValues OpaPolicyEngine
open BuiltInPolicies (ruleSource matchRule_ruleSource)

/-- A rule with its conditions. -/
abbrev PrintedRule := RuleName × List Text

def bodyText (conds : List Text) : Text :=
  ' ' :: (List.intercalate [';', ' '] conds ++ [' '])

def linesText (rules : List (RuleName × Text)) (ending : Text) : Text :=
  List.intercalate ['\n'] (rules.map ruleSource) ++ ending

/-- The package declaration on a line of its own, a line for each rule, and maybe spaces. -/
def policyText (p : Text) (rules : List PrintedRule) (ending : Text) : Text :=
  "package".toList ++ ' ' :: (p ++ '\n' ::
    linesText (rules.map fun r => (r.1, bodyText r.2)) ending)

/-! Between the rules nothing looks like a rule. -/

section Gaps

theorem isSpace_of_mem_text {name : RuleName} {c : Char} (h : c ∈ name.text) :
    isSpace c = false := by
  revert c
  cases name <;> unfold RuleName.text <;> simp [isSpace]

/-- A stretch that has no brace, ends in a space and has no brace behind it. -/
structure Gap (gap rest : Text) : Prop where
  brace : '{' ∉ gap
  ends : ∃ front c, gap = front ++ [c] ∧ isSpace c = true
  behind : (rest.dropWhile isSpace).head? ≠ some '{'

theorem Gap.matchBody {gap rest : Text} (h : Gap gap rest) {s : Text} (hs : s <:+ gap)
    (hne : s ≠ []) (name : RuleName) : OpaPolicyEngine.matchBody name (s ++ rest) = none := by
  rcases hdrop : (s ++ rest).dropPrefix? name.text with _ | tail
  · rw [OpaPolicyEngine.matchBody, hdrop, Option.bind_none]
  obtain ⟨name', hsplit, hname⟩ := List.dropPrefix?_eq_some_iff.mp hdrop
  obtain rfl := eq_of_beq hname
  obtain ⟨front, c, rfl, hc⟩ := h.ends
  have hlast : c ∈ s := by
    obtain ⟨before, hbefore⟩ := hs
    have := congrArg List.getLast? hbefore
    rw [List.getLast?_append_of_ne_nil _ hne, List.getLast?_concat] at this
    exact List.mem_of_getLast? this
  -- The name lies in the stretch as a whole, since no name has a space.
  obtain ⟨left, rfl, rfl⟩ : ∃ left, s = name.text ++ left ∧ tail = left ++ rest := by
    rcases List.append_eq_append_iff.mp hsplit with ⟨more, hmore, -⟩ | ⟨left, hleft, htail⟩
    · have hmem : c ∈ name.text := hmore ▸ List.mem_append_left _ hlast
      rw [isSpace_of_mem_text hmem] at hc
      cases hc
    · exact ⟨left, hleft, htail⟩
  have hbrace : '{' ∉ left := fun hmem => h.brace (hs.subset (List.mem_append_right _ hmem))
  have hhead : ((left ++ rest).dropWhile isSpace).head? ≠ some '{' := by
    rw [List.dropWhile_append]
    split_ifs with hblank
    · exact h.behind
    · intro hopen
      rw [List.head?_append_of_ne_nil _ (by simpa using hblank)] at hopen
      exact hbrace ((List.dropWhile_suffix _).subset (List.mem_of_mem_head? hopen))
  rw [OpaPolicyEngine.matchBody, hdrop, Option.bind_some]
  split
  · rename_i hopen
    rw [hopen] at hhead
    exact absurd rfl hhead
  · rfl

theorem Gap.findAll {gap rest : Text} (h : Gap gap rest) :
    PythonText.findAll matchRule 0 (gap ++ rest) = PythonText.findAll matchRule 0 rest := by
  refine findAll_gap fun s hs hne => ?_
  rw [matchRule, h.matchBody hs hne, h.matchBody hs hne, h.matchBody hs hne]
  rfl

end Gaps

/-! The rules are found again. -/

section Found

variable {rules : List (RuleName × Text)} {ending : Text}

theorem name_head (name : RuleName) :
    ∃ c cs, name.text = c :: cs ∧ isSpace c = false ∧ c ≠ '{' := by
  cases name with
  | deny => exact ⟨'d', "eny".toList, rfl, by decide, by decide⟩
  | allow => exact ⟨'a', "llow".toList, rfl, by decide, by decide⟩
  | violation => exact ⟨'v', "iolation".toList, rfl, by decide, by decide⟩

theorem ruleSource_head (r : RuleName × Text) (rest : Text) :
    ((ruleSource r ++ rest).dropWhile isSpace).head? ≠ some '{' := by
  obtain ⟨c, cs, hname, hspace, hbrace⟩ := name_head r.1
  have hcons : ruleSource r ++ rest = c :: (cs ++ ' ' :: '{' :: (r.2 ++ ['}']) ++ rest) := by
    simp [ruleSource, hname]
  rw [hcons, List.dropWhile_cons_of_neg (by simp [hspace]), List.head?_cons]
  exact fun h => hbrace (Option.some.inj h)

theorem linesText_cons_cons (r r' : RuleName × Text) (rules : List (RuleName × Text)) :
    linesText (r :: r' :: rules) ending =
      ruleSource r ++ (['\n'] ++ linesText (r' :: rules) ending) := by
  simp [linesText, List.intercalate_cons_cons]

theorem linesText_head (hending : ∀ c ∈ ending, isSpace c = true)
    (rules : List (RuleName × Text)) :
    ((linesText rules ending).dropWhile isSpace).head? ≠ some '{' := by
  cases rules with
  | nil =>
    have hblank : ending.dropWhile isSpace = [] := List.dropWhile_eq_nil_iff.mpr hending
    simp [linesText, hblank]
  | cons r rules =>
    cases rules with
    | nil => simpa [linesText] using ruleSource_head r ending
    | cons r' rules =>
      rw [linesText_cons_cons]
      exact ruleSource_head r _

theorem findAll_ending (hending : ∀ c ∈ ending, isSpace c = true) :
    findAll matchRule 0 ending = [] := by
  induction ending using List.reverseRecOn with
  | nil => rfl
  | append_singleton front c =>
    have gap : Gap (front ++ [c]) [] := by
      refine ⟨fun hmem => ?_, ⟨front, c, rfl, hending c (by simp)⟩, by simp⟩
      exact absurd (hending _ hmem) (by decide)
    have found := gap.findAll
    rw [List.append_nil] at found
    exact found

theorem newline_gap {rest : Text} (h : (rest.dropWhile isSpace).head? ≠ some '{') :
    Gap ['\n'] rest :=
  ⟨by decide, ⟨[], '\n', rfl, by decide⟩, h⟩

/-- Rules on lines of their own are found in their order. -/
theorem findAll_linesText (hending : ∀ c ∈ ending, isSpace c = true)
    (h : ∀ r ∈ rules, r.2 ≠ [] ∧ '}' ∉ r.2) :
    findAll matchRule 0 (linesText rules ending) = rules := by
  induction rules with
  | nil => exact findAll_ending hending
  | cons r rest ih =>
    obtain ⟨⟨hne, hbrace⟩, hrest⟩ := List.forall_mem_cons.mp h
    have hrule : ruleSource r ≠ [] := by simp [ruleSource]
    cases rest with
    | nil =>
      have hlines : linesText [r] ending = ruleSource r ++ ending := by simp [linesText]
      rw [hlines, findAll_match hrule (matchRule_ruleSource hne hbrace _),
        findAll_ending hending]
    | cons r' rest =>
      rw [linesText_cons_cons, findAll_match hrule (matchRule_ruleSource hne hbrace _),
        (newline_gap (linesText_head hending _)).findAll, ih hrest]

/-- A package name has no spaces and no brace. -/
def PackageName (p : Text) : Prop := p ≠ [] ∧ ∀ c ∈ p, isSpace c = false ∧ c ≠ '{'

instance (p : Text) : Decidable (PackageName p) := @instDecidableAnd _ _ _ (List.decidableBAll _ p)

theorem package_gap {p rest : Text} (hp : PackageName p)
    (h : (rest.dropWhile isSpace).head? ≠ some '{') :
    Gap ("package".toList ++ ' ' :: (p ++ ['\n'])) rest := by
  refine ⟨?_, ⟨"package".toList ++ ' ' :: p, '\n', by simp, by decide⟩, h⟩
  intro hmem
  simp only [List.mem_append, List.mem_cons, List.not_mem_nil, or_false] at hmem
  rcases hmem with hmem | hmem | hmem | hmem
  · exact absurd hmem (by decide)
  · exact absurd hmem (by decide)
  · exact (hp.2 _ hmem).2 rfl
  · exact absurd hmem (by decide)

theorem search_package {p : Text} (hp : PackageName p) (rest : Text) :
    search matchPackage ("package".toList ++ ' ' :: (p ++ '\n' :: rest)) = some p := by
  obtain ⟨hne, hchars⟩ := hp
  have hname : ∀ c ∈ p, (!isSpace c) = true := fun c hc => by simp [(hchars c hc).1]
  have hdrop : ("package".toList ++ ' ' :: (p ++ '\n' :: rest)).dropPrefix? "package".toList =
      some (' ' :: (p ++ '\n' :: rest)) :=
    List.dropPrefix?_eq_some_iff.mpr ⟨_, rfl, by simp⟩
  refine search_of_some ?_
  rw [matchPackage, hdrop, Option.bind_some]
  cases p with
  | nil => exact absurd rfl hne
  | cons first more =>
    have hfirst : ¬ isSpace first = true := by simp [(hchars first List.mem_cons_self).1]
    rw [List.cons_append, List.dropWhile_cons_of_pos (by decide),
      List.dropWhile_cons_of_neg hfirst, List.takeWhile_cons_of_pos (by decide), ← List.cons_append,
      List.takeWhile_append_of_pos hname, List.takeWhile_cons_of_neg (by decide), List.append_nil]

/-- A printed policy has its package and its rules. -/
theorem rules_printed {p : Text} (hp : PackageName p)
    (hending : ∀ c ∈ ending, isSpace c = true) (h : ∀ r ∈ rules, r.2 ≠ [] ∧ '}' ∉ r.2) :
    OpaPolicyEngine.rules
      ("package".toList ++ ' ' :: (p ++ '\n' :: linesText rules ending)) = rules := by
  have hsplit : "package".toList ++ ' ' :: (p ++ '\n' :: linesText rules ending) =
      ("package".toList ++ ' ' :: (p ++ ['\n'])) ++ linesText rules ending := by simp
  rw [OpaPolicyEngine.rules, hsplit, (package_gap hp (linesText_head hending _)).findAll,
    findAll_linesText hending h]

/-- What is found in a text is a part of it. -/
theorem infix_of_matchBody {name : RuleName} {text rest : Text} {r : RuleName × Text}
    (h : matchBody name text = some (r, rest)) : r.2 <:+: text := by
  rw [matchBody, Option.bind_eq_some_iff] at h
  obtain ⟨tail, hdrop, h⟩ := h
  obtain ⟨name', rfl, -⟩ := List.dropPrefix?_eq_some_iff.mp hdrop
  split at h
  · rename_i inside hinside
    obtain ⟨⟨body, rest'⟩, hbracketed, heq⟩ := Option.map_eq_some_iff.mp h
    obtain ⟨rfl, rfl⟩ := Prod.mk.inj heq
    have hbody : body <:+: inside := ⟨[], '}' :: rest', (bracketed_eq_some hbracketed).symm⟩
    have htail : inside <:+ tail :=
      (List.suffix_cons '{' inside).trans (hinside ▸ List.dropWhile_suffix isSpace)
    exact hbody.trans (htail.trans (List.suffix_append name' tail)).isInfix
  · cases h

theorem infix_of_mem_findAll {skip : ℕ} {text : Text} {r : RuleName × Text}
    (h : r ∈ findAll matchRule skip text) : r.2 <:+: text := by
  fun_induction findAll matchRule skip text with
  | case1 => cases h
  | case2 skip c cs ih => exact (ih h).trans (List.suffix_cons c cs).isInfix
  | case3 c cs a rest hmatch ih =>
    rcases List.mem_cons.mp h with rfl | h
    · rw [matchRule] at hmatch
      rcases Option.or_eq_some_iff.mp hmatch with h | ⟨-, h⟩
      · exact infix_of_matchBody h
      · rcases Option.or_eq_some_iff.mp h with h | ⟨-, h⟩
        · exact infix_of_matchBody h
        · exact infix_of_matchBody h
    · exact (ih h).trans (List.suffix_cons c cs).isInfix
  | case4 c cs hmatch ih => exact (ih h).trans (List.suffix_cons c cs).isInfix

/-- A brace in a rule ends it, and what follows is searched for more rules. -/
theorem rules_cut {p body rest : Text} {r : RuleName × Text} (hp : PackageName p)
    (hcut : r.2 ++ ['}'] = body ++ '}' :: rest) (hne : body ≠ []) (h : '}' ∉ body) :
    OpaPolicyEngine.rules ("package".toList ++ ' ' :: (p ++ '\n' :: linesText [r] [])) =
      (r.1, body) :: findAll matchRule 0 rest := by
  have hlines : linesText [r] [] = ruleSource (r.1, body) ++ rest := by
    have hsource : linesText [r] [] = r.1.text ++ ' ' :: '{' :: (r.2 ++ ['}']) := by
      simp [linesText, ruleSource]
    rw [hsource, hcut]
    simp [ruleSource]
  have hsplit : "package".toList ++ ' ' :: (p ++ '\n' :: linesText [r] []) =
      ("package".toList ++ ' ' :: (p ++ ['\n'])) ++ linesText [r] [] := by
    simp only [List.append_assoc, List.cons_append, List.nil_append]
  have hgap := package_gap hp (linesText_head (List.forall_mem_nil _) [r])
  rw [OpaPolicyEngine.rules, hsplit, hgap.findAll, hlines,
    findAll_match (by simp [ruleSource]) (matchRule_ruleSource hne h rest)]

end Found

/-! The conditions of a rule are found again. -/

section Bodies

variable {K : Type} [Field K] [LinearOrder K]

theorem conditions_eq (body : Text) : conditions body = (fields ';' body).filter (· ≠ []) := by
  rw [← fields_strip (by decide) body]
  rfl

theorem evaluateCondition_strip (condition : Text) (input : PyVal K) :
    evaluateCondition (strip condition) input = evaluateCondition condition input := by
  simp only [evaluateCondition, strip_strip]

/-- A condition that can be printed: it is not blank, and nothing in it ends it. -/
def Printable (condition : Text) : Prop :=
  strip condition ≠ [] ∧ ∀ c ∈ condition, c ∉ ['}', ';']

instance (condition : Text) : Decidable (Printable condition) :=
  @instDecidableAnd _ _ _ (List.decidableBAll _ condition)

theorem conditions_bodyText {conds : List Text} (hne : conds ≠ [])
    (h : ∀ condition ∈ conds, Printable condition) :
    conditions (bodyText conds) = conds.map strip := by
  have whole : ∀ condition ∈ conds, ';' ∉ condition := by
    intro condition hc hmem
    exact (h condition hc).2 ';' hmem (by decide)
  rw [conditions_eq, bodyText, fields_cons_space (by decide) (by decide),
    fields_concat_space (by decide) (by decide), fields_intercalate (by decide) hne whole,
    List.filter_eq_self]
  intro condition hmem
  obtain ⟨c, hc, rfl⟩ := List.mem_map.mp hmem
  exact decide_eq_true (h c hc).1

theorem evaluateRule_bodyText {conds : List Text} (hne : conds ≠ [])
    (h : ∀ condition ∈ conds, Printable condition) (input : PyVal K) :
    evaluateRule (bodyText conds) input = conds.all fun c => evaluateCondition c input := by
  rw [evaluateRule, conditions_bodyText hne h, List.all_map]
  refine congrArg conds.all (funext fun c => ?_)
  exact evaluateCondition_strip c input

theorem bodyText_brace {conds : List Text} (h : ∀ condition ∈ conds, Printable condition) :
    '}' ∉ bodyText conds := by
  have inside : '}' ∉ List.intercalate [';', ' '] conds := by
    induction conds with
    | nil => exact List.not_mem_nil
    | cons c rest ih =>
      obtain ⟨hc, hrest⟩ := List.forall_mem_cons.mp h
      have hmem : '}' ∉ c := fun hmem => hc.2 '}' hmem (by decide)
      cases rest with
      | nil => simpa using hmem
      | cons next rest =>
        rw [List.intercalate_cons_cons]
        simp only [List.mem_append, not_or]
        exact ⟨⟨hmem, by decide⟩, ih hrest⟩
  rw [bodyText, List.mem_cons, List.mem_append]
  rintro (h | h | h)
  · exact absurd h (by decide)
  · exact inside h
  · exact absurd h (by decide)

end Bodies

/-! The first deny or allow rule that holds decides. -/

section Decision

/-- A deny rule holds, and no deny or allow rule before it. -/
def DeniedFirst {α : Type} (holds : α → Bool) (rules : List (RuleName × α)) : Prop :=
  ∃ before body after, rules = before ++ (.deny, body) :: after ∧ holds body = true ∧
    ∀ r ∈ before, r.1 ≠ .violation → holds r.2 = false

variable {α β : Type} {holds : α → Bool}

theorem deniedFirst_nil : ¬ DeniedFirst holds [] := by
  rintro ⟨before, body, after, h, -⟩
  simp at h

theorem deniedFirst_cons {r : RuleName × α} {rest : List (RuleName × α)} :
    DeniedFirst holds (r :: rest) ↔ (r.1 = .deny ∧ holds r.2 = true) ∨
      ((r.1 ≠ .violation → holds r.2 = false) ∧ DeniedFirst holds rest) := by
  constructor
  · rintro ⟨before, body, after, hsplit, hbody, hbefore⟩
    cases before with
    | nil =>
      obtain ⟨rfl, rfl⟩ := List.cons_eq_cons.mp hsplit
      exact Or.inl ⟨rfl, hbody⟩
    | cons first before =>
      obtain ⟨rfl, rfl⟩ := List.cons_eq_cons.mp hsplit
      obtain ⟨hfirst, hrest⟩ := List.forall_mem_cons.mp hbefore
      exact Or.inr ⟨hfirst, before, body, after, rfl, hbody, hrest⟩
  · rintro (⟨hname, hbody⟩ | ⟨hfirst, before, body, after, rfl, hbody, hbefore⟩)
    · exact ⟨[], r.2, rest, by rw [← hname]; rfl, hbody, nofun⟩
    · exact ⟨r :: before, body, after, rfl, hbody, List.forall_mem_cons.mpr ⟨hfirst, hbefore⟩⟩

theorem deniedFirst_map {f : β → α} {rules : List (RuleName × β)} :
    DeniedFirst holds (rules.map fun r => (r.1, f r.2)) ↔
      DeniedFirst (fun body => holds (f body)) rules := by
  induction rules with
  | nil => exact iff_of_false deniedFirst_nil deniedFirst_nil
  | cons r rest ih => rw [List.map_cons, deniedFirst_cons, deniedFirst_cons, ih]

theorem deniedFirst_congr {holds' : α → Bool} {rules : List (RuleName × α)}
    (h : ∀ r ∈ rules, holds r.2 = holds' r.2) :
    DeniedFirst holds rules ↔ DeniedFirst holds' rules := by
  induction rules with
  | nil => exact iff_of_false deniedFirst_nil deniedFirst_nil
  | cons r rest ih =>
    obtain ⟨hr, hrest⟩ := List.forall_mem_cons.mp h
    rw [deniedFirst_cons, deniedFirst_cons, ih hrest, hr]

variable {K : Type} [Field K] [LinearOrder K]

theorem firstDecision_eq_false (input : PyVal K) (rules : List (RuleName × Text)) :
    firstDecision input rules = false ↔ DeniedFirst (evaluateRule · input) rules := by
  induction rules with
  | nil => simpa [firstDecision] using deniedFirst_nil
  | cons r rest ih =>
    obtain ⟨name, body⟩ := r
    rw [deniedFirst_cons, ← ih]
    by_cases hbody : evaluateRule body input = true
    · cases name <;> simp [firstDecision, hbody]
    · simp [firstDecision, hbody]

theorem evaluate_eq_false {policy : Policy} {p : Text} (enabled : policy.enabled = true)
    (effect : policy.effect = .deny) (package : search matchPackage policy.regoCode.toList = some p)
    (context : PyVal K) : evaluate policy context = false ↔
      DeniedFirst (evaluateRule · (.dict [("input", context)])) (rules policy.regoCode.toList) := by
  rw [evaluate, enabled, effect, evaluateRego, package, ← firstDecision_eq_false]
  simp

/-- A printed policy denies exactly if one of its deny rules is the first among the deny and
allow rules all of whose conditions hold. -/
theorem printed_denies_iff {policy : Policy} {p : Text} {rules : List PrintedRule} {ending : Text}
    (hp : PackageName p)
    (hrules : ∀ r ∈ rules, r.2 ≠ [] ∧ ∀ condition ∈ r.2, Printable condition)
    (hending : ∀ c ∈ ending, isSpace c = true) (enabled : policy.enabled = true)
    (effect : policy.effect = .deny)
    (code : policy.regoCode = String.ofList (policyText p rules ending)) (context : PyVal K) :
    evaluate policy context = false ↔ DeniedFirst
      (fun conds : List Text => conds.all fun c => evaluateCondition c (.dict [("input", context)]))
      rules := by
  have bodies : ∀ r ∈ rules.map (fun r => (r.1, bodyText r.2)), r.2 ≠ [] ∧ '}' ∉ r.2 := by
    intro r hr
    obtain ⟨r', hr', rfl⟩ := List.mem_map.mp hr
    exact ⟨List.cons_ne_nil _ _, bodyText_brace (hrules r' hr').2⟩
  have package : search matchPackage policy.regoCode.toList = some p := by
    rw [code, String.toList_ofList]
    exact search_package hp _
  have found : OpaPolicyEngine.rules policy.regoCode.toList =
      rules.map fun r => (r.1, bodyText r.2) := by
    rw [code, String.toList_ofList]
    exact rules_printed hp hending bodies
  rw [evaluate_eq_false enabled effect package, found, deniedFirst_map]
  exact deniedFirst_congr fun r hr => evaluateRule_bodyText (hrules r hr).1 (hrules r hr).2 _

end Decision

section Sample

def sampleRules : List PrintedRule :=
  [(.allow, ["input.admin".toList]), (.deny, ["gt(input.size, 10)".toList, "input.user".toList])]

theorem sampleName_ne : "size" ≠ "" := by simp

theorem policyText_ne (p : Text) (rules : List PrintedRule) (ending : Text) :
    String.ofList (policyText p rules ending) ≠ "" := by
  intro h
  have hempty := congrArg String.toList h
  rw [String.toList_ofList] at hempty
  exact absurd (List.append_eq_nil_iff.mp hempty).2 (List.cons_ne_nil _ _)

/-- A policy of scope `TOOL` that denies, with these rules. -/
def denyPolicy (rules : List PrintedRule) : Policy :=
  ⟨"p1", "size", String.ofList (policyText "p".toList rules []), .deny, .tool, true,
    sampleName_ne, policyText_ne _ _ _⟩

theorem samplePackage : PackageName "p".toList := by
  decide +kernel

theorem denyPolicy_package (rules : List PrintedRule) :
    search matchPackage (denyPolicy rules).regoCode.toList = some "p".toList := by
  rw [denyPolicy, String.toList_ofList]
  exact search_package samplePackage _

theorem denyPolicy_rules (rules : List PrintedRule)
    (h : ∀ r ∈ rules, ∀ condition ∈ r.2, Printable condition) :
    OpaPolicyEngine.rules (denyPolicy rules).regoCode.toList =
      rules.map fun r => (r.1, bodyText r.2) := by
  rw [denyPolicy, String.toList_ofList]
  refine rules_printed samplePackage (List.forall_mem_nil _) ?_
  intro r hr
  obtain ⟨r', hr', rfl⟩ := List.mem_map.mp hr
  exact ⟨List.cons_ne_nil _ _, bodyText_brace (h r' hr')⟩

theorem sampleRules_printable : ∀ r ∈ sampleRules, r.2 ≠ [] ∧ ∀ condition ∈ r.2,
    Printable condition := by
  decide +kernel

theorem printed_denies_iff_sample : evaluate (denyPolicy sampleRules)
    (.dict [("size", .int 11), ("user", .str "u")] : PyVal ℚ) = false := by
  refine (printed_denies_iff samplePackage sampleRules_printable
    (List.forall_mem_nil _) rfl rfl rfl _).mpr ?_
  refine ⟨[(.allow, ["input.admin".toList])], _, [], rfl, by decide +kernel, ?_⟩
  intro r hr
  obtain rfl := List.mem_singleton.mp hr
  decide +kernel

end Sample

end PolicyText
