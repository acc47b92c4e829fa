import SynapticBridge.PatternMarketplace
import SynapticBridge.PythonText
import SynapticBridge.PythonValues
import SynapticBridge.StableSort

/-! Searching the marketplace: one filter after the other, and the best rated first. The tags of an
imported pattern can be any value, and a search for tags looks into them. -/
namespace MarketplaceSearch

open Domain OrderedDict PatternMarketplace PythonText StableSort

variable {K : Type}

/-- The arguments of `search_listings`. -/
structure Criteria (K : Type) where
  query : Option String
  fromTool : Option String
  toTool : Option String
  tags : Option (List String)
  maxPrice : Option K
  minRating : Option K

section Search

/-- `if text:`, for an optional text. -/
def nonEmpty : Option String → Option String
  | some text => if text = "" then none else some text
  | none => none

/-- `if tags:`. -/
def someTags : Option (List String) → Option (List String)
  | some [] => none
  | tags => tags

/-- A filter that is skipped when its argument is missing. -/
def filterBy {α β : Type} (p : β → α → Bool) : Option β → List α → List α
  | none, results => results
  | some arg, results => results.filter (p arg)

/-- `query_lower in r.name.lower() or query_lower in r.description.lower()`. -/
def mentions (lower : Text → Text) (query : String) (r : PatternListing K) : Bool :=
  decide (lower query.toList <:+: lower r.name.toList) ||
    decide (lower query.toList <:+: lower r.description.toList)

variable [Field K] [LinearOrder K]

/-- `any(t in r.tags for t in tags)`, which stops at the first that is. -/
def anyTag (r : PatternListing K) : List String → Except PyException Bool
  | [] => .ok false
  | t :: tags => do
    if ← PythonValues.contains r.tags (.str t) then return true
    anyTag r tags

def byTags (tags : List String) :
    List (PatternListing K) → Except PyException (List (PatternListing K))
  | [] => .ok []
  | r :: results => do
    let keep ← anyTag r tags
    let kept ← byTags tags results
    return if keep then r :: kept else kept

def searchListings (lower : Text → Text) (c : Criteria K) (mp : CLEPatternMarketplace K) :
    Except PyException (List (PatternListing K)) := do
  let results := mp.listings.values
  let results := filterBy (mentions lower) (nonEmpty c.query) results
  let results := filterBy (fun tool r => PythonValues.eq r.fromTool (.str tool))
    (nonEmpty c.fromTool) results
  let results := filterBy (fun tool r => PythonValues.eq r.toTool (.str tool))
    (nonEmpty c.toTool) results
  let results ← match someTags c.tags with
    | none => .ok results
    | some tags => byTags tags results
  let results := filterBy (fun (price : K) r => decide (r.price ≤ price)) c.maxPrice results
  let results := filterBy (fun (rating : K) r => decide (rating ≤ r.rating)) c.minRating results
  return sortDescending (·.rating) results

end Search

section Meaning

variable [Field K] [LinearOrder K]

/-- An argument is missing, or the listing passes its test. -/
def passes {α β : Type} (p : β → α → Bool) (arg : Option β) (r : α) : Bool :=
  arg.all fun b => p b r

/-- The tests before the tags are looked at. -/
def meetsTexts (lower : Text → Text) (c : Criteria K) (r : PatternListing K) : Bool :=
  passes (mentions lower) (nonEmpty c.query) r &&
    passes (fun tool r => PythonValues.eq r.fromTool (.str tool)) (nonEmpty c.fromTool) r &&
    passes (fun tool r => PythonValues.eq r.toTool (.str tool)) (nonEmpty c.toTool) r

/-- The value is a list, a text or a dictionary that has the tag in it. -/
def hasTag (r : PatternListing K) (t : String) : Bool :=
  match PythonValues.contains r.tags (.str t) with
  | .ok b => b
  | .error _ => false

def meets (lower : Text → Text) (c : Criteria K) (r : PatternListing K) : Bool :=
  meetsTexts lower c r && passes (fun tags r => tags.any (hasTag r)) (someTags c.tags) r &&
    passes (fun (price : K) r => decide (r.price ≤ price)) c.maxPrice r &&
    passes (fun (rating : K) r => decide (rating ≤ r.rating)) c.minRating r

/-- `in` can look into the value. -/
def Searchable : PyVal K → Prop
  | .str _ | .list _ | .dict _ => True
  | _ => False

/-- A listing that the search for tags looks at, and whose tags it cannot look into. -/
def Jams (lower : Text → Text) (c : Criteria K) (r : PatternListing K) : Prop :=
  meetsTexts lower c r = true ∧ ¬ Searchable r.tags

theorem contains_searchable {v : PyVal K} (h : Searchable v) (t : String) :
    ∃ b, PythonValues.contains v (.str t) = .ok b := by
  cases v with
  | str s => exact ⟨_, rfl⟩
  | list xs => exact ⟨_, rfl⟩
  | dict xs => exact ⟨_, rfl⟩
  | none | bool | int | float | infinity | nan => exact h.elim

theorem contains_not_searchable {v : PyVal K} (h : ¬ Searchable v) (t : String) :
    ∃ m, PythonValues.contains v (.str t) = .error (.typeError m) := by
  cases v with
  | str | list | dict => exact absurd trivial h
  | none | bool | int | float | infinity | nan => exact ⟨_, rfl⟩

variable {lower : Text → Text} {c : Criteria K} {r : PatternListing K} {tags : List String}
  {rs : List (PatternListing K)}

theorem anyTag_searchable (h : Searchable r.tags) (tags : List String) :
    anyTag r tags = .ok (tags.any (hasTag r)) := by
  induction tags with
  | nil => rfl
  | cons t tags ih =>
    obtain ⟨b, hb⟩ := contains_searchable h t
    rw [anyTag, hb, List.any_cons, hasTag, hb]
    cases b with
    | true => rfl
    | false => exact ih

theorem anyTag_not_searchable (h : ¬ Searchable r.tags) (hne : tags ≠ []) :
    ∃ m, anyTag r tags = .error (.typeError m) := by
  cases tags with
  | nil => exact absurd rfl hne
  | cons t tags =>
    obtain ⟨m, hm⟩ := contains_not_searchable h t
    exact ⟨m, by rw [anyTag, hm]; rfl⟩

theorem byTags_searchable (h : ∀ r ∈ rs, Searchable r.tags) (tags : List String) :
    byTags tags rs = .ok (rs.filter fun r => tags.any (hasTag r)) := by
  induction rs with
  | nil => rfl
  | cons r rs ih =>
    obtain ⟨hr, hrs⟩ := List.forall_mem_cons.mp h
    rw [byTags, anyTag_searchable hr, ih hrs, List.filter_cons]
    rfl

theorem byTags_jammed (hne : tags ≠ []) (h : ∃ r ∈ rs, ¬ Searchable r.tags) :
    ∃ m, byTags tags rs = .error (.typeError m) := by
  induction rs with
  | nil =>
    obtain ⟨r, hr, -⟩ := h
    cases hr
  | cons r rs ih =>
    by_cases hr : Searchable r.tags
    · obtain ⟨r', hmem, hr'⟩ := h
      have hrest : ∃ r ∈ rs, ¬ Searchable r.tags := by
        rcases List.mem_cons.mp hmem with rfl | hmem
        · exact absurd hr hr'
        · exact ⟨r', hmem, hr'⟩
      obtain ⟨m, hm⟩ := ih hrest
      exact ⟨m, by rw [byTags, anyTag_searchable hr, hm]; rfl⟩
    · obtain ⟨m, hm⟩ := anyTag_not_searchable hr hne
      exact ⟨m, by rw [byTags, hm]; rfl⟩

theorem filterBy_eq {α β : Type} (p : β → α → Bool) (arg : Option β) (xs : List α) :
    filterBy p arg xs = xs.filter (passes p arg) := by
  cases arg with
  | none => exact (List.filter_eq_self.mpr fun _ _ => rfl).symm
  | some b => rfl

theorem someTags_ne_nil {arg : Option (List String)} (h : someTags arg = some tags) :
    tags ≠ [] := by
  rintro rfl
  rcases arg with _ | ⟨_ | ⟨t, ts⟩⟩
  · cases h
  · cases h
  · cases h

/-- The filters before the tags leave the listings that meet the texts. -/
theorem before_tags (lower : Text → Text) (c : Criteria K) (rs : List (PatternListing K)) :
    filterBy (fun tool r => PythonValues.eq r.toTool (.str tool)) (nonEmpty c.toTool)
      (filterBy (fun tool r => PythonValues.eq r.fromTool (.str tool)) (nonEmpty c.fromTool)
        (filterBy (mentions lower) (nonEmpty c.query) rs)) = rs.filter (meetsTexts lower c) := by
  rw [filterBy_eq, filterBy_eq, filterBy_eq, List.filter_filter, List.filter_filter]
  refine List.filter_congr fun r _ => ?_
  rw [meetsTexts, Bool.and_comm, ← Bool.and_assoc, Bool.and_right_comm]

omit [Field K] in
theorem after_tags (c : Criteria K) (rs : List (PatternListing K)) :
    filterBy (fun (rating : K) r => decide (rating ≤ r.rating)) c.minRating
      (filterBy (fun (price : K) r => decide (r.price ≤ price)) c.maxPrice rs) =
    rs.filter fun r => passes (fun (price : K) r => decide (r.price ≤ price)) c.maxPrice r &&
      passes (fun (rating : K) r => decide (rating ≤ r.rating)) c.minRating r := by
  rw [filterBy_eq, filterBy_eq, List.filter_filter]
  exact List.filter_congr fun r _ => Bool.and_comm _ _

/-- A search for tags raises when a listing that it looks at has no tags to look into. -/
theorem search_jammed {mp : CLEPatternMarketplace K} (htags : someTags c.tags = some tags)
    (h : ∃ r ∈ mp.listings.values, Jams lower c r) :
    ∃ m, searchListings lower c mp = .error (.typeError m) := by
  obtain ⟨r, hr, hmeets, htag⟩ := h
  have hfound : r ∈ mp.listings.values.filter (meetsTexts lower c) :=
    List.mem_filter.mpr ⟨hr, hmeets⟩
  obtain ⟨m, hm⟩ := byTags_jammed (someTags_ne_nil htags) ⟨r, hfound, htag⟩
  refine ⟨m, ?_⟩
  rw [searchListings]
  simp only [before_tags, htags, hm]
  rfl

/-- Otherwise it returns the listings that meet all criteria, the best rated first. -/
theorem search_clear {mp : CLEPatternMarketplace K}
    (h : ∀ tags, someTags c.tags = some tags → ∀ r ∈ mp.listings.values, ¬ Jams lower c r) :
    searchListings lower c mp =
      .ok (sortDescending (·.rating) (mp.listings.values.filter (meets lower c))) := by
  have hmeets : mp.listings.values.filter (meets lower c) =
      ((mp.listings.values.filter (meetsTexts lower c)).filter
        (passes (fun tags r => tags.any (hasTag r)) (someTags c.tags))).filter
        (fun r => passes (fun (price : K) r => decide (r.price ≤ price)) c.maxPrice r &&
          passes (fun (rating : K) r => decide (rating ≤ r.rating)) c.minRating r) := by
    rw [List.filter_filter, List.filter_filter]
    refine List.filter_congr fun r _ => ?_
    simp only [meets, Bool.and_assoc, Bool.and_comm, Bool.and_left_comm]
  rw [searchListings, hmeets]
  simp only [before_tags, after_tags]
  cases htags : someTags c.tags with
  | none =>
    rw [← filterBy_eq]
    rfl
  | some tags =>
    have hsearchable : ∀ r ∈ mp.listings.values.filter (meetsTexts lower c), Searchable r.tags := by
      intro r hr
      obtain ⟨hmem, htexts⟩ := List.mem_filter.mp hr
      by_contra hno
      exact h tags htags r hmem ⟨htexts, hno⟩
    simp only [byTags_searchable hsearchable]
    rfl

end Meaning

/-! Over a run of calls a listing keeps its texts, so a search that raised goes on raising. -/

section Runs

variable [Field K] [LinearOrder K] {mp mp' : CLEPatternMarketplace K} {op : Operation K}
  {ops : List (Operation K)} {id : String} {r : PatternListing K} {lower : Text → Text}
  {c : Criteria K}

/-- What a search reads before it looks at price and rating. -/
structure SameTexts (r r' : PatternListing K) : Prop where
  name : r'.name = r.name
  description : r'.description = r.description
  fromTool : r'.fromTool = r.fromTool
  toTool : r'.toTool = r.toTool
  tags : r'.tags = r.tags

omit [Field K] [LinearOrder K] in
theorem SameTexts.refl (r : PatternListing K) : SameTexts r r := ⟨rfl, rfl, rfl, rfl, rfl⟩

theorem effect_keeps_texts (he : Effect mp op mp') (hold : generated op ≠ some id)
    (h : mp.listings.get? id = some r) :
    ∃ r', mp'.listings.get? id = some r' ∧ SameTexts r r' := by
  cases he with
  | unchanged => exact ⟨r, h, .refl r⟩
  | created l hex now hgenerated =>
    have hne : id ≠ listingIdOf hex := fun heq => hold (heq ▸ hgenerated)
    exact ⟨r, (Dict.get?_set_of_ne _ hne _).trans h, .refl r⟩
  | opened => exact ⟨r, h, .refl r⟩
  | bought other orgId listing _ _ hlisting =>
    rw [Dict.get?_set]
    split_ifs with hid
    · obtain rfl := Option.some.inj (h.symm.trans (hid ▸ hlisting))
      exact ⟨_, rfl, rfl, rfl, rfl, rfl, rfl⟩
    · exact ⟨r, h, .refl r⟩
  | reviewed other listing reviews review _ hlisting =>
    rw [Dict.get?_set]
    split_ifs with hid
    · obtain rfl := Option.some.inj (h.symm.trans (hid ▸ hlisting))
      exact ⟨_, rfl, rfl, rfl, rfl, rfl, rfl⟩
    · exact ⟨r, h, .refl r⟩

theorem SameTexts.jams {r' : PatternListing K} (h : SameTexts r r') (hjams : Jams lower c r) :
    Jams lower c r' := by
  obtain ⟨hname, hdescription, hfrom, hto, htags⟩ := h
  have htexts : meetsTexts lower c r' = meetsTexts lower c r := by
    simp only [meetsTexts, passes, mentions, hname, hdescription, hfrom, hto]
  exact ⟨htexts.trans hjams.1, htags ▸ hjams.2⟩

/-- A listing that jams a search is never removed, and never mended. -/
theorem jams_later (hfresh : (ops.filterMap generated).Nodup) {rest : List (Operation K)}
    (hops : ∃ before, ops = before ++ rest ∧ ∃ r ∈ (run before).listings.values, Jams lower c r) :
    ∃ r ∈ (run ops).listings.values, Jams lower c r := by
  induction rest using List.reverseRecOn generalizing ops with
  | nil =>
    obtain ⟨before, rfl, h⟩ := hops
    rwa [List.append_nil]
  | append_singleton rest op ih =>
    obtain ⟨before, rfl, h⟩ := hops
    rw [← List.append_assoc, List.filterMap_append] at hfresh
    obtain ⟨r, hr, hjams⟩ := ih hfresh.of_append_left ⟨before, rfl, h⟩
    obtain ⟨id, hid⟩ := Dict.mem_values.mp hr
    have hold : generated op ≠ some id := by
      intro hgenerated
      apply List.disjoint_of_nodup_append hfresh (listed_generated _ hid)
      exact List.mem_filterMap.mpr ⟨op, List.mem_singleton.mpr rfl, hgenerated⟩
    obtain ⟨r', hr', hsame⟩ := effect_keeps_texts (apply_effect _ op) hold hid
    rw [← List.append_assoc, run_concat]
    exact ⟨r', Dict.mem_values.mpr ⟨id, hr'⟩, hsame.jams hjams⟩

theorem search_raises_iff (lower : Text → Text) (c : Criteria K) (mp : CLEPatternMarketplace K) :
    (∃ e, searchListings lower c mp = .error e) ↔
      (∃ tags, someTags c.tags = some tags) ∧ ∃ r ∈ mp.listings.values, Jams lower c r := by
  constructor
  · rintro ⟨e, he⟩
    by_contra hclear
    have hnone : ∀ tags, someTags c.tags = some tags → ∀ r ∈ mp.listings.values,
        ¬ Jams lower c r := fun tags htags r hr hjams => hclear ⟨⟨tags, htags⟩, r, hr, hjams⟩
    rw [search_clear hnone] at he
    cases he
  · rintro ⟨⟨tags, htags⟩, h⟩
    obtain ⟨m, hm⟩ := search_jammed htags h
    exact ⟨_, hm⟩

/-- In every run a search for tags raises exactly when one listing that meets its texts has tags
that cannot be looked into, and the same search then raises for ever. What it returns are the
listings that meet all criteria, the best rated first and the older first among equals; with a
lowest rating above zero they all have reviews, whose mean is no lower. -/
theorem search_answers (lower : Text → Text) (c : Criteria K) (ops rest : List (Operation K))
    (hfresh : ((ops ++ rest).filterMap generated).Nodup) :
    ((∃ e, searchListings lower c (run ops) = .error e) ↔
      (∃ tags, someTags c.tags = some tags) ∧
        ∃ r ∈ (run ops).listings.values, Jams lower c r) ∧
    ((∃ e, searchListings lower c (run ops) = .error e) →
      ∃ e, searchListings lower c (run (ops ++ rest)) = .error e) ∧
    ∀ results, searchListings lower c (run ops) = .ok results →
      results.Pairwise (fun a b => b.rating ≤ a.rating) ∧
      (∀ v, tied (·.rating) v results =
        (tied (·.rating) v (run ops).listings.values).filter (meets lower c)) ∧
      ∀ lowest, c.minRating = some lowest → 0 < lowest → ∀ r ∈ results,
        ∃ id reviews, (run ops).listings.get? id = some r ∧
          (run ops).reviews.get? id = some reviews ∧ reviews ≠ [] ∧
          lowest ≤ meanRating reviews := by
  refine ⟨search_raises_iff lower c (run ops), fun h => ?_, fun results h => ?_⟩
  · obtain ⟨htags, hjams⟩ := (search_raises_iff lower c (run ops)).mp h
    exact (search_raises_iff lower c _).mpr ⟨htags, jams_later hfresh ⟨ops, rfl, hjams⟩⟩
  · have hclear : ∀ tags, someTags c.tags = some tags → ∀ r ∈ (run ops).listings.values,
        ¬ Jams lower c r := by
      intro tags htags r hr hjams
      obtain ⟨m, hm⟩ := search_jammed htags ⟨r, hr, hjams⟩
      rw [hm] at h
      cases h
    rw [search_clear hclear] at h
    obtain rfl := Except.ok.inj h
    refine ⟨sorted_sortDescending _ _, fun v => ?_, fun lowest hlowest hpos r hr => ?_⟩
    · rw [tied_sortDescending]
      exact List.filter_comm _ _ _
    · have hmem := (perm_sortDescending _ _).mem_iff.mp hr
      obtain ⟨hvalue, hmeets⟩ := List.mem_filter.mp hmem
      obtain ⟨id, hid⟩ := Dict.mem_values.mp hvalue
      rw [List.filterMap_append] at hfresh
      obtain ⟨reviews, hreviews, -, hrating⟩ :=
        ((consistent_run ops hfresh.of_append_left).listed id r hid).rated
      have hrated : lowest ≤ r.rating := by
        rw [meets, hlowest, Bool.and_eq_true] at hmeets
        exact of_decide_eq_true hmeets.2
      refine ⟨id, reviews, hid, hreviews, ?_, hrating ▸ hrated⟩
      rintro rfl
      rw [hrating, meanRating_nil] at hrated
      exact absurd hrated (not_le.mpr hpos)

end Runs

/-- A pattern is imported whose tags are a number. -/
def jammingImport : List (Operation ℚ) :=
  [.importPattern [("format_version", .str "1.0"), ("pattern", .dict [("tags", .int 5)])]
    "org" "a" "b" ""]

def taggedSearch : Criteria ℚ := ⟨none, none, none, some ["sql"], none, none⟩

theorem search_answers_jammed :
    ∃ e, searchListings PythonText.lower taggedSearch (run (jammingImport ++ sampleCalls)) =
      .error e := by
  have h := search_answers PythonText.lower taggedSearch jammingImport sampleCalls (by decide)
  exact h.2.1 (h.1.mpr ⟨⟨["sql"], rfl⟩, _, List.mem_singleton_self _, rfl, fun h => h⟩)

section Statistics

structure Statistics (K : Type) where
  totalListings : ℕ
  totalReviews : ℕ
  averageRating : K
  freeListings : ℕ
  paidListings : ℕ

variable [Field K] [LinearOrder K] {mp mp' : CLEPatternMarketplace K} {op : Operation K}

def getStatistics (mp : CLEPatternMarketplace K) : Statistics K where
  totalListings := mp.listings.keys.length
  totalReviews := (mp.reviews.values.map List.length).sum
  averageRating :=
    (mp.listings.values.map (·.rating)).sum / ((max mp.listings.keys.length 1 : ℕ) : K)
  freeListings := mp.listings.values.countP fun r => decide (r.price = 0)
  paidListings := mp.listings.values.countP fun r => decide (0 < r.price)

def getReviews (mp : CLEPatternMarketplace K) (id : String) : List PatternReview :=
  (mp.reviews.get? id).getD []

/-- Reviews are kept for the listings, in the same order. -/
theorem effect_keys (he : Effect mp op mp') (h : mp.reviews.keys = mp.listings.keys) :
    mp'.reviews.keys = mp'.listings.keys := by
  have hmem {α : Type} {d : Dict String α} {id : String} {a : α} (hget : d.get? id = some a) :
      id ∈ d.keys := by
    rw [← Dict.contains_iff, Dict.contains, hget]
    rfl
  cases he with
  | unchanged => exact h
  | created l hex now =>
    change (mp.reviews.set _ _).keys = (mp.listings.set _ _).keys
    rw [Dict.keys_set, Dict.keys_set, h]
  | opened => exact h
  | bought id orgId listing _ _ hlisting =>
    rw [Dict.keys_set, if_pos (hmem hlisting)]
    exact h
  | reviewed id listing reviews review _ hlisting hreviews =>
    rw [Dict.keys_set, Dict.keys_set, if_pos (hmem hlisting), if_pos (hmem hreviews)]
    exact h

theorem run_keys (ops : List (Operation K)) :
    (run ops).reviews.keys = (run ops).listings.keys := by
  induction ops using List.reverseRecOn with
  | nil => rfl
  | append_singleton ops op ih =>
    rw [run_concat]
    exact effect_keys (apply_effect _ op) ih

/-- A listing is free, paid, or priced below zero. -/
theorem count_prices (rs : List (PatternListing K)) :
    rs.countP (fun r => decide (r.price = 0)) + rs.countP (fun r => decide (0 < r.price)) +
      rs.countP (fun r => decide (r.price < 0)) = rs.length := by
  induction rs with
  | nil => rfl
  | cons r rs ih =>
    simp only [List.countP_cons, List.length_cons]
    rcases lt_trichotomy r.price 0 with h | h | h
    · simp [h, h.ne, h.not_gt]; omega
    · simp [h]; omega
    · simp [h, h.ne', h.not_gt]; omega

theorem rating_eq (hc : Consistent mp) {id : String} {r : PatternListing K}
    (h : mp.listings.get? id = some r) : r.rating = meanRating (getReviews mp id) := by
  obtain ⟨reviews, hreviews, -, hrating⟩ := (hc.listed id r h).rated
  rw [hrating, getReviews, hreviews, Option.getD_some]

/-- The ratings of the listings, each the mean of its own reviews. -/
theorem sum_ratings (hc : Consistent mp) : (mp.listings.values.map (·.rating)).sum =
    (mp.listings.keys.map fun id => meanRating (getReviews mp id)).sum := by
  have hlisted := mp.listings.values_map fun r => (r.map (·.rating)).getD 0
  simp only [Option.map_some, Option.getD_some] at hlisted
  rw [hlisted]
  refine congrArg List.sum (List.map_congr_left fun id hid => ?_)
  obtain ⟨r, hr⟩ := Option.isSome_iff_exists.mp (Dict.contains_iff.mpr hid)
  rw [hr, Option.map_some, Option.getD_some, rating_eq hc hr]

variable [IsStrictOrderedRing K]

theorem rating_range (hc : Consistent mp) {r : PatternListing K} (h : r ∈ mp.listings.values) :
    0 ≤ r.rating ∧ r.rating ≤ ((5 : ℕ) : K) := by
  obtain ⟨id, hid⟩ := Dict.mem_values.mp h
  obtain ⟨reviews, -, hrange, hrating⟩ := (hc.listed id r hid).rated
  rw [hrating]
  by_cases hne : reviews = []
  · subst hne
    rw [meanRating_nil]
    exact ⟨le_rfl, Nat.cast_nonneg 5⟩
  · obtain ⟨hlow, hhigh⟩ := meanRating_range (K := K) hne hrange
    exact ⟨zero_le_one.trans hlow, by exact_mod_cast hhigh⟩

/-- In every run the statistics are taken from the listings' own reviews, the average rating is
between 0 and 5, and each listing counts as free or as paid unless its price is below zero. -/
theorem statistics_agree (ops : List (Operation K)) (hfresh : (ops.filterMap generated).Nodup) :
    let mp := run ops
    let ids := mp.listings.keys
    let s := getStatistics mp
    s.totalReviews = (ids.map fun id => (getReviews mp id).length).sum ∧
    s.averageRating = (ids.map fun id => meanRating (getReviews mp id)).sum /
      ((max s.totalListings 1 : ℕ) : K) ∧
    (0 ≤ s.averageRating ∧ s.averageRating ≤ ((5 : ℕ) : K)) ∧
    s.freeListings + s.paidListings + mp.listings.values.countP (fun r => decide (r.price < 0)) =
      s.totalListings := by
  intro mp ids s
  have hc := consistent_run ops hfresh
  have hcount : (0 : K) < ((max mp.listings.keys.length 1 : ℕ) : K) :=
    Nat.cast_pos.mpr (lt_of_lt_of_le Nat.one_pos (le_max_right _ _))
  have hvalues : mp.listings.values.length = mp.listings.keys.length := by
    rw [Dict.values, Dict.keys, List.length_map, List.length_map]
  refine ⟨?_, ?_, ⟨?_, ?_⟩, ?_⟩
  · have hreviews := mp.reviews.values_map fun r => (r.getD []).length
    simp only [Option.getD_some] at hreviews
    change (mp.reviews.values.map List.length).sum = _
    rw [show mp.reviews.values.map List.length = _ from hreviews, run_keys]
    rfl
  · exact congrArg (· / _) (sum_ratings hc)
  · refine div_nonneg (List.sum_nonneg fun x hx => ?_) hcount.le
    obtain ⟨r, hr, rfl⟩ := List.mem_map.mp hx
    exact (rating_range hc hr).1
  · have hle : ∀ x ∈ mp.listings.values.map (·.rating), x ≤ ((5 : ℕ) : K) := by
      intro x hx
      obtain ⟨r, hr, rfl⟩ := List.mem_map.mp hx
      exact (rating_range hc hr).2
    have htotal := List.sum_le_card_nsmul _ _ hle
    rw [List.length_map, hvalues, nsmul_eq_mul, mul_comm] at htotal
    refine (div_le_iff₀ hcount).mpr (htotal.trans ?_)
    exact mul_le_mul_of_nonneg_left (Nat.cast_le.mpr (le_max_left _ _)) (Nat.cast_nonneg 5)
  · exact (count_prices mp.listings.values).trans hvalues

end Statistics

theorem statistics_agree_sample : (getStatistics (run sampleCalls)).totalReviews = 1 :=
  (statistics_agree sampleCalls (List.nodup_singleton _)).1

end MarketplaceSearch
