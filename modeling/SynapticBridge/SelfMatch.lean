import SynapticBridge.IntentClassifier

/-! The description of a tool is matched to a tool. The scan over the registry stops improving
at similarity one, which no embedding exceeds and the tool itself attains. -/
namespace SelfMatch

open Domain Cosine CorrectionPatterns FirstMaximum IntentClassifier OrderedDict PythonText Scatter

variable {py : TextPrimitives} {text : Text} {u v : List ℝ}

section Similarity

theorem cosineSimilarity_eq (h : u.length = v.length) : cosineSimilarity u v = cosine u v := by
  simp only [cosineSimilarity, PyMath.powHalf, if_neg (not_not.mpr h)]
  split_ifs with hzero
  · rw [cosine, mul_eq_zero.mpr hzero, div_zero]
  · rfl

theorem normSq_textToEmbedding (hasToken : tokenize py text ≠ []) :
    normSq (textToEmbedding py text : List ℝ) ≠ 0 := by
  obtain ⟨first, hfirst⟩ := List.exists_mem_of_ne_nil _ hasToken
  rw [ne_eq, normSq_eq_zero]
  intro hzero
  rcases textToEmbedding_entry (K := ℝ) hasToken (bucket_lt py first) with ⟨hnone, -⟩ |
    ⟨token, htoken, -, hentry⟩
  · exact hits_eq_zero.mp hnone first hfirst rfl
  · have hcount : (0 : ℝ) < (tokenize py text).count token :=
      Nat.cast_pos.mpr (List.count_pos_iff.mpr htoken)
    have hlength : (0 : ℝ) < (tokenize py text).length :=
      Nat.cast_pos.mpr (List.length_pos_iff.mpr hasToken)
    exact (div_pos hcount hlength).ne' (hzero _ (List.mem_of_getElem? hentry))

theorem similarity_self (hasToken : tokenize py text ≠ []) :
    cosineSimilarity (textToEmbedding py text : List ℝ) (textToEmbedding py text) = 1 := by
  rw [cosineSimilarity_eq rfl, cosine_self (normSq_textToEmbedding hasToken)]

theorem similarity_blank (hblank : tokenize py text = []) (u : List ℝ) :
    cosineSimilarity u (textToEmbedding py text) = 0 := by
  have hzero : normSq (textToEmbedding py text : List ℝ) = 0 := by
    rw [normSq_eq_zero]
    intro a ha
    simp only [textToEmbedding, hblank, List.isEmpty_nil, if_true] at ha
    exact List.eq_of_mem_replicate ha
  simp only [cosineSimilarity, PyMath.powHalf, hzero, Real.sqrt_zero, or_true, if_true, ite_self]

end Similarity

section Registry

/-- The descriptions in force after the calls, in the order in which the tools were registered. -/
def descriptions (calls : List (String × Text)) : Dict String Text :=
  (TOOL_DESCRIPTIONS ++ calls).foldl (fun d e => d.set e.1 e.2) .empty

noncomputable def addTools (py : TextPrimitives) (calls : List (String × Text)) :
    IntentClassifier ℝ :=
  calls.foldl (fun c e => addTool py c e.1 e.2) (init py)

theorem entries_addTools (py : TextPrimitives) (calls : List (String × Text)) :
    (addTools py calls).toolEmbeddings.entries =
      (descriptions calls).entries.map (Prod.map id (textToEmbedding py)) := by
  have main : ∀ (es : List (String × Text)) (c : IntentClassifier ℝ) (d : Dict String Text),
      c.toolEmbeddings.entries = d.entries.map (Prod.map id (textToEmbedding py)) →
      (es.foldl (fun c e => addTool py c e.1 e.2) c).toolEmbeddings.entries =
        (es.foldl (fun d e => d.set e.1 e.2) d).entries.map
          (Prod.map id (textToEmbedding py)) := by
    intro es
    induction es with
    | nil => exact fun c d h => h
    | cons e es ih =>
      intro c d h
      apply ih
      simp only [addTool, Dict.set, h, setEntries_map]
  rw [addTools, init, ← List.foldl_append]
  exact main _ _ _ rfl

end Registry

section Match

/-- The first tool in the order of registration whose embedding has similarity one. -/
def FirstMatch (c : IntentClassifier ℝ) (embedding : List ℝ) (tool : String) : Prop :=
  ∃ pre e post, c.toolEmbeddings.entries = pre ++ (tool, e) :: post ∧
    cosineSimilarity embedding e = 1 ∧ ∀ q ∈ pre, cosineSimilarity embedding q.2 ≠ 1

/-- The loop of the classifier keeps the first match, since nothing improves on it. -/
theorem bestTool_of_firstMatch {c : IntentClassifier ℝ} {tool : String}
    (bounded : ∀ q ∈ c.toolEmbeddings.entries, cosineSimilarity v q.2 ≤ 1)
    (h : FirstMatch c v tool) : bestTool c v = (some tool, 1) := by
  obtain ⟨pre, e, post, hentries, hone, hpre⟩ := h
  rw [hentries] at bounded
  rw [bestTool, hentries, List.map_append, List.map_cons, hone]
  refine scan_firstMax ⟨_, _, rfl, ?_, ?_⟩ zero_lt_one
  · intro q hq
    obtain ⟨e, he, rfl⟩ := List.mem_map.mp hq
    exact lt_of_le_of_ne (bounded e (by simp [he])) (hpre e he)
  · intro q hq
    obtain ⟨e, he, rfl⟩ := List.mem_map.mp hq
    exact bounded e (by simp [he])

theorem classifyIntent_of_bestTool {c : IntentClassifier ℝ} {tool : String}
    (h : bestTool c (textToEmbedding py text) = (some tool, 1)) :
    classifyIntent py c text = (if tool = "" then "unknown" else tool, 1) := by
  have hconfidence : min ((1 : ℝ) * ((3 : ℕ) / (2 : ℕ) : ℝ)) 1 = 1 := by norm_num
  simp only [classifyIntent, h, orUnknown, hconfidence]

theorem firstMatch_exists {c : IntentClassifier ℝ} {name : String}
    (hname : (name, u) ∈ c.toolEmbeddings.entries) (hone : cosineSimilarity v u = 1) :
    ∃ tool, FirstMatch c v tool := by
  classical
  have hsome : (c.toolEmbeddings.entries.find? fun e => cosineSimilarity v e.2 = 1).isSome :=
    List.find?_isSome.mpr ⟨(name, u), hname, decide_eq_true hone⟩
  obtain ⟨first, hfind⟩ := Option.isSome_iff_exists.mp hsome
  obtain ⟨hfirst, pre, post, hentries, hpre⟩ := List.find?_eq_some_iff_append.mp hfind
  refine ⟨first.1, pre, first.2, post, hentries, of_decide_eq_true hfirst, ?_⟩
  intro e he
  simpa using hpre e he

theorem similarity_addTools (py : TextPrimitives) (calls : List (String × Text)) (text : Text) :
    ∀ q ∈ (addTools py calls).toolEmbeddings.entries,
      cosineSimilarity (textToEmbedding py text) q.2 ≤ 1 := by
  intro q hq
  rw [entries_addTools] at hq
  obtain ⟨e, -, rfl⟩ := List.mem_map.mp hq
  have hlength : (textToEmbedding py text : List ℝ).length =
      (textToEmbedding py e.2 : List ℝ).length := by simp
  rw [Prod.map_snd, cosineSimilarity_eq hlength]
  exact cosine_le_one hlength

end Match

theorem bestTool_registered (py : TextPrimitives) (calls : List (String × Text)) {name : String}
    {description : Text} (registered : (descriptions calls).get? name = some description)
    (hasToken : tokenize py description ≠ []) :
    ∃ tool, FirstMatch (addTools py calls) (textToEmbedding py description) tool ∧
      bestTool (addTools py calls) (textToEmbedding py description) = (some tool, 1) := by
  have hself : (name, (textToEmbedding py description : List ℝ)) ∈
      (addTools py calls).toolEmbeddings.entries := by
    rw [entries_addTools]
    exact List.mem_map.mpr ⟨_, Dict.get?_eq_some.mp registered, rfl⟩
  obtain ⟨tool, hmatch⟩ := firstMatch_exists hself (similarity_self hasToken)
  exact ⟨tool, hmatch,
    bestTool_of_firstMatch (similarity_addTools py calls description) hmatch⟩

/-- The description of a registered tool is matched with confidence one to the first tool whose
embedding has similarity one, under the name of that tool unless the name is empty. -/
theorem self_match (py : TextPrimitives) (calls : List (String × Text)) {name : String}
    {description : Text} (registered : (descriptions calls).get? name = some description)
    (hasToken : tokenize py description ≠ []) :
    ∃ tool, FirstMatch (addTools py calls) (textToEmbedding py description) tool ∧
      classifyIntent py (addTools py calls) description =
        (if tool = "" then "unknown" else tool, 1) := by
  obtain ⟨tool, hmatch, hbest⟩ := bestTool_registered py calls registered hasToken
  exact ⟨tool, hmatch, classifyIntent_of_bestTool hbest⟩

theorem self_match_deploy :
    (descriptions [("release", "deploy".toList)]).get? "release" = some "deploy".toList ∧
    tokenize defaultWords "deploy".toList ≠ [] ∧
    ∃ tool, FirstMatch (addTools defaultWords [("release", "deploy".toList)])
        (textToEmbedding defaultWords "deploy".toList) tool ∧
      classifyIntent defaultWords (addTools defaultWords [("release", "deploy".toList)])
        "deploy".toList = (if tool = "" then "unknown" else tool, 1) := by
  have registered : (descriptions [("release", "deploy".toList)]).get? "release" =
      some "deploy".toList := by decide
  have hasToken : tokenize defaultWords "deploy".toList ≠ [] := by decide
  exact ⟨registered, hasToken, self_match defaultWords _ registered hasToken⟩

theorem classifyIntent_after_blank {calls : List (String × Text)} {pre post : List (String × Text)}
    {name : String} {description : Text}
    (hentries : (descriptions calls).entries = pre ++ (name, description) :: post)
    (hblank : ∀ e ∈ pre, tokenize py e.2 = []) (hasToken : tokenize py description ≠ []) :
    classifyIntent py (addTools py calls) description =
      (if name = "" then "unknown" else name, 1) := by
  have hmatch : FirstMatch (addTools py calls) (textToEmbedding py description) name := by
    refine ⟨pre.map (Prod.map id (textToEmbedding py)), textToEmbedding py description,
      post.map (Prod.map id (textToEmbedding py)), ?_, similarity_self hasToken, ?_⟩
    · rw [entries_addTools, hentries, List.map_append, List.map_cons]
      rfl
    · intro q hq
      obtain ⟨e, he, rfl⟩ := List.mem_map.mp hq
      rw [Prod.map_snd, similarity_blank (hblank e he)]
      exact zero_ne_one
  exact classifyIntent_of_bestTool
    (bestTool_of_firstMatch (similarity_addTools py calls description) hmatch)

def soleCalls (name : String) : List (String × Text) :=
  TOOL_DESCRIPTIONS.map (fun e => (e.1, [])) ++ [(name, "deploy".toList)]

theorem tokenize_nil : tokenize defaultWords [] = [] := by decide

theorem blank_undescribed (tools : List (String × Text)) :
    ∀ e ∈ tools.map fun e => (e.1, ([] : Text)), tokenize defaultWords e.2 = [] := by
  intro e he
  obtain ⟨e, -, rfl⟩ := List.mem_map.mp he
  exact tokenize_nil

theorem nameless_tool_unknown :
    (descriptions (soleCalls "")).get? "" = some "deploy".toList ∧
    tokenize defaultWords "deploy".toList ≠ [] ∧
    classifyIntent defaultWords (addTools defaultWords (soleCalls "")) "deploy".toList =
      ("unknown", 1) ∧
    "unknown" ∉ (descriptions (soleCalls "")).keys := by
  have hasToken : tokenize defaultWords "deploy".toList ≠ [] := by decide
  have hentries : (descriptions (soleCalls "")).entries =
      TOOL_DESCRIPTIONS.map (fun e => (e.1, [])) ++ [("", "deploy".toList)] := rfl
  exact ⟨by decide, hasToken,
    classifyIntent_after_blank hentries (blank_undescribed TOOL_DESCRIPTIONS) hasToken, by decide⟩

end SelfMatch
