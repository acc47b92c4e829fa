import SynapticBridge.PatternMarketplace

/-! Patterns travel between marketplaces as exported data. Whoever imports one owns the copy, and
may export it again. -/
namespace PatternExchange

open Domain OrderedDict PatternMarketplace

variable {K : Type} [Field K]

structure Hop (K : Type) where
  market : CLEPatternMarketplace K
  orgId : String
  exportedAt : String
  patternHex : String
  hex : String
  now : String

structure Place (K : Type) where
  market : CLEPatternMarketplace K
  listingId : String
  holder : String

/-- An export from the one place and an import of its data at the other. -/
def forward (digest : String → String) (place : Place K) (hop : Hop K) :
    Except PyException (Place K) := do
  let data ← exportPattern digest place.market place.listingId place.holder hop.exportedAt
  let imported := importPattern hop.market data hop.orgId hop.patternHex hop.hex hop.now
  let listingId ← imported.1
  return ⟨imported.2, listingId, hop.orgId⟩

def relay (digest : String → String) : Place K → List (Hop K) → Except PyException (Place K)
  | place, [] => .ok place
  | place, hop :: hops => do
    let next ← forward digest place hop
    relay digest next hops

structure SamePattern (r r' : PatternListing K) : Prop where
  fromTool : r'.fromTool = r.fromTool
  toTool : r'.toTool = r.toTool
  successRate : r'.successRate = r.successRate
  tags : r'.tags = r.tags

structure FreshCopy (orgId : String) (r : PatternListing K) : Prop where
  ownerOrg : r.ownerOrg = orgId
  price : r.price = 0
  usageCount : r.usageCount = 0
  rating : r.rating = 0

structure Holds (place : Place K) (r : PatternListing K) : Prop where
  listed : place.market.listings.get? place.listingId = some r
  may_export : place.holder = r.ownerOrg ∨ place.listingId ∈ owned place.market place.holder

variable {digest : String → String} {place : Place K} {r : PatternListing K}

/-- Data is imported when it has the version and its pattern, if any, is a dictionary. What else is
in it, the signature for one, is not looked at. -/
theorem importPattern_iff (mp : CLEPatternMarketplace K) (data : List (String × PyVal K))
    (orgId patternHex hex now : String) :
    (∃ id, (importPattern mp data orgId patternHex hex now).1 = .ok id) ↔
      versionOk (findEntry "format_version" data) = true ∧
        ∃ pattern, (findEntry "pattern" data).getD (.dict []) = .dict pattern := by
  rw [importPattern]
  by_cases hversion : versionOk (findEntry "format_version" data) = true
  · rw [if_neg (not_not.mpr hversion)]
    cases (findEntry "pattern" data).getD (.dict []) with
    | dict pattern => exact iff_of_true ⟨_, rfl⟩ ⟨hversion, pattern, rfl⟩
    | _ => exact iff_of_false (by rintro ⟨id, ⟨⟩⟩) (by rintro ⟨-, pattern, ⟨⟩⟩)
  · rw [if_pos hversion]
    exact iff_of_false (by rintro ⟨id, ⟨⟩⟩) fun h => hversion h.1

theorem Holds.forward (digest : String → String) (h : Holds place r) (hop : Hop K) : ∃ next r',
    forward digest place hop = .ok next ∧ next.holder = hop.orgId ∧ Holds next r' ∧
      SamePattern r r' ∧ FreshCopy hop.orgId r' := by
  have hexport : exportPattern digest place.market place.listingId place.holder hop.exportedAt =
      .ok [("format_version", .str "1.0"), ("exported_at", .str hop.exportedAt),
        ("pattern", .dict [("from_tool", r.fromTool), ("to_tool", r.toTool),
          ("success_rate", r.successRate), ("tags", r.tags)]),
        ("signature", .str (signExport digest r place.holder))] := by
    have hallowed : ¬ (place.holder ≠ r.ownerOrg ∧
        place.listingId ∉ owned place.market place.holder) := by
      have := h.may_export
      tauto
    rw [exportPattern, h.listed]
    exact if_neg hallowed
  let copy : NewListing K := {
    orgId := hop.orgId
    patternId := s!"imported_{hexPrefix 8 hop.patternHex}"
    name := "Imported Pattern"
    description := "Imported from marketplace"
    fromTool := r.fromTool
    toTool := r.toTool
    successRate := r.successRate
    tags := r.tags
    price := 0 }
  let created := createListing hop.market copy hop.hex hop.now
  refine ⟨⟨created.2, created.1.listingId, hop.orgId⟩, created.1, ?_, rfl, ⟨?_, .inl rfl⟩,
    ⟨rfl, rfl, rfl, rfl⟩, ⟨rfl, rfl, rfl, rfl⟩⟩
  · rw [PatternExchange.forward, hexport]
    rfl
  · exact Dict.get?_set_self _ _ _

/-- Through any number of marketplaces a pattern arrives as it left. Its copy belongs to the last
importer, and is free and unrated whatever the original was. -/
theorem relay_keeps (digest : String → String) (place : Place K) (r : PatternListing K)
    (hops : List (Hop K)) (last : Hop K)
    (listed : place.market.listings.get? place.listingId = some r)
    (may_export : place.holder = r.ownerOrg ∨ place.listingId ∈ owned place.market place.holder) :
    ∃ final r', relay digest place (hops ++ [last]) = .ok final ∧
      final.market.listings.get? final.listingId = some r' ∧ SamePattern r r' ∧
        FreshCopy last.orgId r' := by
  induction hops generalizing place r with
  | nil =>
    obtain ⟨next, r', hforward, -, hnext, hsame, hfresh⟩ :=
      Holds.forward digest ⟨listed, may_export⟩ last
    refine ⟨next, r', ?_, hnext.listed, hsame, hfresh⟩
    rw [List.nil_append, relay, hforward]
    rfl
  | cons hop hops ih =>
    obtain ⟨next, r', hforward, -, hnext, hsame, -⟩ :=
      Holds.forward digest ⟨listed, may_export⟩ hop
    obtain ⟨final, r'', hrelay, hlisted, hsame', hfresh⟩ := ih next r' hnext.listed hnext.may_export
    refine ⟨final, r'', ?_, hlisted, ?_, hfresh⟩
    · rw [List.cons_append, relay, hforward]
      exact hrelay
    · exact ⟨hsame'.fromTool.trans hsame.fromTool, hsame'.toTool.trans hsame.toTool,
        hsame'.successRate.trans hsame.successRate, hsame'.tags.trans hsame.tags⟩

/-! A buyer passes the pattern on, and the next organisation does the same. -/

def sampleHop (orgId : String) : Hop ℚ := ⟨init, orgId, "", "3", "4", ""⟩

def boughtListing : PatternListing ℚ where
  listingId := "listing_1"
  patternId := "pattern_1"
  ownerOrg := "org_1"
  name := "Fix Read"
  description := ""
  fromTool := .str "filesystem.read"
  toTool := .str "database.query"
  successRate := .float (19 / 20)
  usageCount := 1
  rating := meanRating [⟨"review_2", "listing_1", "buyer_org", 5, "Excellent!", ""⟩]
  tags := .list []
  createdAt := ""
  price := 0

theorem relay_keeps_sample : ∃ final r', relay (fun text => text)
    ⟨run sampleCalls, "listing_1", "buyer_org"⟩ ([sampleHop "org_2"] ++ [sampleHop "org_3"]) =
      .ok final ∧ final.market.listings.get? final.listingId = some r' ∧
      SamePattern boughtListing r' ∧ FreshCopy "org_3" r' :=
  relay_keeps _ _ boughtListing _ (sampleHop "org_3") rfl (.inr (by decide))

end PatternExchange
