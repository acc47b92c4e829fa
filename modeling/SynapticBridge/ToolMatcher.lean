import SynapticBridge.SelfMatch
import SynapticBridge.SimpleWalks
import SynapticBridge.StableSort

/-! `SemanticToolMatcher`: from the tool that an intent names, chains of tools are planned along a
table of dependencies, and for a tool the most similar others are suggested. -/
namespace ToolMatcher

open Domain Cosine CorrectionPatterns OrderedDict PythonText FirstMaximum IntentClassifier
open SimpleWalks StableSort

structure SemanticToolMatcher (K : Type) where
  classifier : IntentClassifier K
  toolDependencies : Dict String (List String)

def TOOL_DEPENDENCIES : List (String × List String) :=
  [("filesystem.read", []), ("filesystem.write", ["filesystem.read"]), ("bash.execute", []),
    ("http.request", []), ("database.query", ["database.write"]), ("database.write", []),
    ("email.send", []), ("search.execute", ["http.request"])]

structure Alternative (K : Type) where
  tool : String
  similarity : K

variable {K : Type}

namespace SemanticToolMatcher

def new (intentClassifier : IntentClassifier K) : SemanticToolMatcher K :=
  ⟨intentClassifier, TOOL_DEPENDENCIES.foldl (fun table e => table.set e.1 e.2) .empty⟩

def findRelatedTools (m : SemanticToolMatcher K) (toolName : String) : List String :=
  (m.toolDependencies.get? toolName).getD []

variable [Field K] [LinearOrder K] [PyMath K]

/-- `plan_chain`: the loop `for hop in range(max_hops - 1)` is `rounds`, its body `round`. -/
def planChain (py : TextPrimitives) (m : SemanticToolMatcher K) (intent : Text) (maxHops : ℤ) :
    List (List String) :=
  let primaryTool := (classifyIntent py m.classifier intent).1
  if primaryTool = "unknown" then []
  else rounds m.findRelatedTools (maxHops - 1).toNat [[primaryTool]]

/-- The loop over the other tools. -/
def alternatives (m : SemanticToolMatcher K) (toolName : String) (toolEmbedding : List K) :
    List (Alternative K) :=
  (m.classifier.toolEmbeddings.entries.filter fun e => e.1 ≠ toolName).map fun e =>
    ⟨e.1, cosineSimilarity toolEmbedding e.2⟩

def suggestAlternatives (m : SemanticToolMatcher K) (toolName : String) : List (Alternative K) :=
  match m.classifier.toolEmbeddings.get? toolName with
  | none => []
  | some toolEmbedding =>
    if toolEmbedding = [] then []
    else (sortDescending (·.similarity) (m.alternatives toolName toolEmbedding)).take 5

/-- The dependencies that the table lists, one after the other. -/
def listed (m : SemanticToolMatcher K) : List String := m.toolDependencies.values.flatten

/-- The classifier without one tool. -/
def without (m : SemanticToolMatcher K) (toolName : String) : IntentClassifier K :=
  ⟨m.classifier.toolEmbeddings.pop toolName⟩

end SemanticToolMatcher

section Chains

variable [Field K] [LinearOrder K] [PyMath K]

theorem planChain_known {py : TextPrimitives} {m : SemanticToolMatcher K} {intent : Text}
    (known : (classifyIntent py m.classifier intent).1 ≠ "unknown") (maxHops : ℤ) :
    m.planChain py intent maxHops = rounds m.findRelatedTools (maxHops - 1).toNat
      [[(classifyIntent py m.classifier intent).1]] := if_neg known

omit [Field K] [LinearOrder K] [PyMath K] in
theorem mem_listed (m : SemanticToolMatcher K) (toolName : String) :
    ∀ dep ∈ m.findRelatedTools toolName, dep ∈ m.listed := by
  intro dep hdep
  rw [SemanticToolMatcher.findRelatedTools] at hdep
  cases htable : m.toolDependencies.get? toolName with
  | none =>
    rw [htable] at hdep
    cases hdep
  | some deps =>
    rw [htable] at hdep
    exact List.mem_flatten.mpr ⟨deps, Dict.mem_values.mpr ⟨toolName, htable⟩, hdep⟩

/-- For an intent with a tool there is a number of steps, at most one less than the hops, such
that the plan has the walks of that many dependencies and the shorter ones that end at a tool
without any. It is smaller only where no chain gets further. -/
theorem plan_due (py : TextPrimitives) (m : SemanticToolMatcher K) (intent : Text) (maxHops : ℤ)
    (known : (classifyIntent py m.classifier intent).1 ≠ "unknown") :
    ∃ steps ≤ (maxHops - 1).toNat, m.planChain py intent maxHops ≠ [] ∧
      (∀ chain, chain ∈ m.planChain py intent maxHops ↔
        Due m.findRelatedTools (classifyIntent py m.classifier intent).1 steps chain) ∧
      (steps < (maxHops - 1).toNat → ∀ chain,
        ¬ Due m.findRelatedTools (classifyIntent py m.classifier intent).1 (steps + 1) chain) ∧
      ((∀ tool, (m.findRelatedTools tool).Nodup) → (m.planChain py intent maxHops).Nodup) := by
  rw [planChain_known known]
  obtain ⟨steps, -, hsteps, hleft, hmem, hlast⟩ :=
    rounds_due (due_start m.findRelatedTools (classifyIntent py m.classifier intent).1)
      (List.cons_ne_nil _ _) (maxHops - 1).toNat
  rw [Nat.zero_add] at hsteps hlast
  refine ⟨steps, hsteps, hleft, hmem, hlast, fun distinct => ?_⟩
  exact rounds_nodup distinct (due_start _ _) (List.nodup_singleton _) _

/-! Of the default tools only the search, which needs an HTTP request first, is described. -/

noncomputable def sampleMatcher : SemanticToolMatcher ℝ :=
  .new (SelfMatch.addTools defaultWords (SelfMatch.soleCalls "search.execute"))

theorem sample_classified :
    (classifyIntent defaultWords sampleMatcher.classifier "deploy".toList).1 =
      "search.execute" := by
  have hentries : (SelfMatch.descriptions (SelfMatch.soleCalls "search.execute")).entries =
      (TOOL_DESCRIPTIONS.take 5).map (fun e => (e.1, [])) ++
        ("search.execute", "deploy".toList) ::
          (TOOL_DESCRIPTIONS.drop 6).map (fun e => (e.1, [])) := rfl
  rw [sampleMatcher, SemanticToolMatcher.new, SelfMatch.classifyIntent_after_blank hentries
    (SelfMatch.blank_undescribed _) (by decide), if_neg (by decide)]

theorem sample_known :
    (classifyIntent defaultWords sampleMatcher.classifier "deploy".toList).1 ≠ "unknown" := by
  rw [sample_classified]
  decide

/-- A search after the request it needs. -/
theorem sample_walk : Walk sampleMatcher.findRelatedTools "search.execute"
    ["search.execute", "http.request"] :=
  .step .single rfl (List.mem_singleton.mpr rfl) (by decide)

theorem sample_ends :
    Ends sampleMatcher.findRelatedTools ["search.execute", "http.request"] := ⟨_, rfl, rfl⟩

theorem plan_due_sample :
    (∃ steps ≤ ((3 : ℤ) - 1).toNat,
      ∀ chain, chain ∈ sampleMatcher.planChain defaultWords "deploy".toList 3 ↔
        Due sampleMatcher.findRelatedTools "search.execute" steps chain) ∧
      ["search.execute", "http.request"] ∈
        sampleMatcher.planChain defaultWords "deploy".toList 3 := by
  obtain ⟨steps, hsteps, -, hmem, hlast, -⟩ :=
    plan_due defaultWords sampleMatcher "deploy".toList 3 sample_known
  rw [sample_classified] at hmem hlast
  refine ⟨⟨steps, hsteps, hmem⟩, (hmem _).mpr ⟨sample_walk, ?_⟩⟩
  have htwo : ((3 : ℤ) - 1).toNat = 2 := rfl
  have hlate : steps ≠ 0 := by
    rintro rfl
    exact hlast (by omega) _ ⟨sample_walk, .inl rfl⟩
  have hcases : steps = 1 ∨ steps = 2 := by omega
  rcases hcases with rfl | rfl
  · exact .inl rfl
  · exact .inr ⟨le_rfl, sample_ends⟩

/-- With two hops more than the table lists dependencies, the plan has every walk that ends at a
tool without dependencies and no other. Where dependencies go round, so that none ends, it has the
longest ones. -/
theorem plan_complete (py : TextPrimitives) (m : SemanticToolMatcher K) (intent : Text)
    (maxHops : ℤ) (known : (classifyIntent py m.classifier intent).1 ≠ "unknown")
    (enough : (m.listed.length : ℤ) + 2 ≤ maxHops) (chain : List String) :
    let walk := Walk m.findRelatedTools (classifyIntent py m.classifier intent).1
    chain ∈ m.planChain py intent maxHops ↔
      walk chain ∧ ((∃ c, walk c ∧ Ends m.findRelatedTools c) → Ends m.findRelatedTools chain) ∧
        ((∀ c, walk c → ¬ Ends m.findRelatedTools c) → ∀ c, walk c → c.length ≤ chain.length) := by
  intro walk
  have short : ∀ c, walk c → c.length ≤ (maxHops - 1).toNat := by
    intro c hc
    have hlength := hc.length_le (mem_listed m)
    omega
  rw [planChain_known known]
  by_cases ends : ∃ c, walk c ∧ Ends m.findRelatedTools c
  · rw [mem_rounds_of_ends short ends]
    obtain ⟨c, hc, hends⟩ := ends
    constructor
    · rintro ⟨hchain, hchainEnds⟩
      exact ⟨hchain, fun _ => hchainEnds, fun endless => absurd hends (endless c hc)⟩
    · rintro ⟨hchain, hchainEnds, -⟩
      exact ⟨hchain, hchainEnds ⟨c, hc, hends⟩⟩
  · have endless : ∀ c, walk c → ¬ Ends m.findRelatedTools c := fun c hc hends =>
      ends ⟨c, hc, hends⟩
    rw [mem_rounds_of_endless short endless]
    constructor
    · rintro ⟨hchain, hlongest⟩
      exact ⟨hchain, fun h => absurd h ends, fun _ => hlongest⟩
    · rintro ⟨hchain, -, hlongest⟩
      exact ⟨hchain, hlongest endless⟩

theorem plan_complete_sample :
    ["search.execute", "http.request"] ∈
        sampleMatcher.planChain defaultWords "deploy".toList 5 ∧
      ["search.execute"] ∉ sampleMatcher.planChain defaultWords "deploy".toList 5 := by
  have complete := plan_complete defaultWords sampleMatcher "deploy".toList 5 sample_known
    (by decide)
  rw [sample_classified] at complete
  constructor
  · refine (complete _).mpr ⟨sample_walk, fun _ => sample_ends, fun endless => ?_⟩
    exact absurd sample_ends (endless _ sample_walk)
  · intro hplanned
    obtain ⟨-, ends, -⟩ := (complete _).mp hplanned
    obtain ⟨last, hlast, hnone⟩ := ends ⟨_, sample_walk, sample_ends⟩
    obtain rfl := Option.some.inj hlast
    exact List.cons_ne_nil _ _ hnone

end Chains

section Alternatives

variable [Field K] [LinearOrder K] [PyMath K] {m : SemanticToolMatcher K} {toolName : String}
  {toolEmbedding : List K}

/-- What `match_tool` answers, if that is its best candidate. -/
def answerOf (candidate : Option (Alternative K)) : String × K :=
  match candidate with
  | none => ("unknown", 0)
  | some a => if 0 < a.similarity then (orUnknown (some a.tool), a.similarity) else ("unknown", 0)

theorem alternatives_eq (m : SemanticToolMatcher K) (toolName : String) (toolEmbedding : List K) :
    m.alternatives toolName toolEmbedding =
      (m.without toolName).toolEmbeddings.entries.map fun e =>
        ⟨e.1, cosineSimilarity toolEmbedding e.2⟩ := rfl

theorem alternatives_tools (m : SemanticToolMatcher K) (toolName : String)
    (toolEmbedding : List K) : (m.alternatives toolName toolEmbedding).map (·.tool) =
      (m.without toolName).toolEmbeddings.keys := by
  rw [alternatives_eq, List.map_map]
  rfl

theorem mem_alternatives {a : Alternative K} :
    a ∈ m.alternatives toolName toolEmbedding ↔ ∃ embedding,
      (m.without toolName).toolEmbeddings.get? a.tool = some embedding ∧
        a.similarity = cosineSimilarity toolEmbedding embedding := by
  rw [alternatives_eq, List.mem_map]
  constructor
  · rintro ⟨e, he, rfl⟩
    exact ⟨e.2, Dict.get?_eq_some.mpr he, rfl⟩
  · rintro ⟨embedding, hget, hsimilarity⟩
    exact ⟨(a.tool, embedding), Dict.get?_eq_some.mp hget, by rw [← hsimilarity]⟩

/-- The scan of `match_tool` over the other tools finds what the sort puts first. -/
theorem matchTool_without (m : SemanticToolMatcher K) (toolName : String)
    (toolEmbedding : List K) :
    matchTool (m.without toolName) toolEmbedding =
      answerOf (sortDescending (·.similarity) (m.alternatives toolName toolEmbedding)).head? := by
  have hscan : bestTool (m.without toolName) toolEmbedding =
      scan (none, 0) ((m.alternatives toolName toolEmbedding).map fun a =>
        (a.tool, a.similarity)) := by
    rw [bestTool, alternatives_eq, List.map_map]
    rfl
  rw [matchTool, hscan]
  cases hsorted : sortDescending (·.similarity) (m.alternatives toolName toolEmbedding) with
  | nil =>
    have hnone := perm_sortDescending (·.similarity) (m.alternatives toolName toolEmbedding)
    rw [hsorted] at hnone
    rw [List.nil_perm.mp hnone]
    rfl
  | cons first rest =>
    obtain ⟨pre, post, hsplit, hpre, hpost⟩ := head_sortDescending hsorted
    rw [hsplit, List.map_append, List.map_cons, List.head?_cons, answerOf]
    by_cases hpos : 0 < first.similarity
    · have hfirst : FirstMax (pre.map (fun a => (a.tool, a.similarity)) ++
          (first.tool, first.similarity) :: post.map fun a => (a.tool, a.similarity))
          (first.tool, first.similarity) := by
        refine ⟨_, _, rfl, fun q hq => ?_, fun q hq => ?_⟩
        · obtain ⟨a, ha, rfl⟩ := List.mem_map.mp hq
          exact hpre a ha
        · obtain ⟨a, ha, rfl⟩ := List.mem_map.mp hq
          exact hpost a ha
      rw [scan_firstMax hfirst hpos, if_pos hpos]
    · rw [not_lt] at hpos
      rw [scan_keep, if_neg (not_lt.mpr hpos)]
      · rfl
      · intro q hq
        rcases List.mem_append.mp hq with hq | hq
        · obtain ⟨a, ha, rfl⟩ := List.mem_map.mp hq
          exact (hpre a ha).le.trans hpos
        · rcases List.mem_cons.mp hq with rfl | hq
          · exact hpos
          · obtain ⟨a, ha, rfl⟩ := List.mem_map.mp hq
            exact (hpost a ha).trans hpos

theorem suggest_known (known : m.classifier.toolEmbeddings.get? toolName = some toolEmbedding)
    (embedded : toolEmbedding ≠ []) :
    m.suggestAlternatives toolName =
      (sortDescending (·.similarity) (m.alternatives toolName toolEmbedding)).take 5 := by
  rw [SemanticToolMatcher.suggestAlternatives, known]
  exact if_neg embedded

/-- For a known tool up to five of the others are suggested, each once, the most similar first; no
other is more similar than one of them. The first is what `match_tool` would find if the tool were
not registered, unless it finds none. -/
theorem alternatives_ranked (m : SemanticToolMatcher K) (toolName : String)
    (toolEmbedding : List K)
    (known : m.classifier.toolEmbeddings.get? toolName = some toolEmbedding)
    (embedded : toolEmbedding ≠ []) :
    let suggested := m.suggestAlternatives toolName
    let others := (m.without toolName).toolEmbeddings
    suggested.length = min 5 others.keys.length ∧ (suggested.map (·.tool)).Nodup ∧
    suggested.Pairwise (fun a b => b.similarity ≤ a.similarity) ∧
    (∀ a ∈ suggested, ∃ embedding, others.get? a.tool = some embedding ∧
      a.similarity = cosineSimilarity toolEmbedding embedding) ∧
    (∀ other embedding, others.get? other = some embedding →
      other ∉ suggested.map (·.tool) → ∀ a ∈ suggested,
        cosineSimilarity toolEmbedding embedding ≤ a.similarity) ∧
    matchTool (m.without toolName) toolEmbedding = answerOf suggested.head? := by
  intro suggested others
  have hsuggested : suggested =
      (sortDescending (·.similarity) (m.alternatives toolName toolEmbedding)).take 5 :=
    suggest_known known embedded
  have hperm := perm_sortDescending (·.similarity) (m.alternatives toolName toolEmbedding)
  have hsorted := sorted_sortDescending (·.similarity) (m.alternatives toolName toolEmbedding)
  have hnames : (m.alternatives toolName toolEmbedding).map (·.tool) = others.keys :=
    alternatives_tools m toolName toolEmbedding
  rw [hsuggested]
  refine ⟨?_, ?_, hsorted.sublist (List.take_sublist _ _), ?_, ?_, ?_⟩
  · rw [List.length_take, hperm.length_eq, ← hnames, List.length_map]
  · have hnodup : ((sortDescending (·.similarity)
        (m.alternatives toolName toolEmbedding)).map (·.tool)).Nodup := by
      rw [(hperm.map _).nodup_iff, hnames]
      exact others.keys_nodup
    exact hnodup.sublist ((List.take_sublist _ _).map _)
  · intro a ha
    exact mem_alternatives.mp (hperm.mem_iff.mp (List.mem_of_mem_take ha))
  · intro other embedding hother hleft a ha
    have hmem : ⟨other, cosineSimilarity toolEmbedding embedding⟩ ∈
        sortDescending (·.similarity) (m.alternatives toolName toolEmbedding) :=
      hperm.mem_iff.mpr (mem_alternatives.mpr ⟨embedding, hother, rfl⟩)
    rw [← List.take_append_drop 5 (sortDescending _ _)] at hmem hsorted
    rcases List.mem_append.mp hmem with htaken | hdropped
    · exact absurd (List.mem_map_of_mem htaken) hleft
    · exact (List.pairwise_append.mp hsorted).2.2 a ha _ hdropped
  · rw [matchTool_without, List.head?_take, if_neg (by decide)]

/-- The default tools and one more. -/
noncomputable def releaseMatcher : SemanticToolMatcher ℝ :=
  .new (SelfMatch.addTools defaultWords [("release", "deploy".toList)])

theorem release_known :
    releaseMatcher.classifier.toolEmbeddings.get? "release" =
      some (textToEmbedding defaultWords "deploy".toList) := Dict.get?_set_self _ _ _

theorem deploy_embedded : (textToEmbedding defaultWords "deploy".toList : List ℝ) ≠ [] := by
  rw [ne_eq, ← List.length_eq_zero_iff, length_textToEmbedding]
  decide

theorem alternatives_ranked_sample :
    let suggested := releaseMatcher.suggestAlternatives "release"
    let others := (releaseMatcher.without "release").toolEmbeddings
    suggested.length = min 5 others.keys.length ∧ (suggested.map (·.tool)).Nodup ∧
    suggested.Pairwise (fun a b => b.similarity ≤ a.similarity) ∧
    (∀ a ∈ suggested, ∃ embedding, others.get? a.tool = some embedding ∧
      a.similarity = cosineSimilarity (textToEmbedding defaultWords "deploy".toList) embedding) ∧
    (∀ other embedding, others.get? other = some embedding →
      other ∉ suggested.map (·.tool) → ∀ a ∈ suggested,
        cosineSimilarity (textToEmbedding defaultWords "deploy".toList) embedding ≤ a.similarity) ∧
    matchTool (releaseMatcher.without "release") (textToEmbedding defaultWords "deploy".toList) =
      answerOf suggested.head? :=
  alternatives_ranked releaseMatcher "release" _ release_known deploy_embedded

end Alternatives

end ToolMatcher
