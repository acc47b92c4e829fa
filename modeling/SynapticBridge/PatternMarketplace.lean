import SynapticBridge.Domain
import SynapticBridge.OrderedDict
import Mathlib.Algebra.BigOperators.Group.List.Basic
import Mathlib.Algebra.Order.Field.Basic
import Mathlib.Algebra.GroupWithZero.Nat
import Mathlib.Data.Finset.Basic
import Mathlib.Algebra.Order.BigOperators.Group.List
import Mathlib.Data.List.Induction
import Mathlib.Tactic.Linarith

/-! Organisations list patterns for each other, buy, review and export them. What a listing shows
of its buyers and reviews is kept beside the purchases and reviews themselves. -/
namespace PatternMarketplace

open Domain OrderedDict

variable {K : Type}

structure PatternListing (K : Type) where
  listingId : String
  patternId : String
  ownerOrg : String
  name : String
  description : String
  fromTool : PyVal K
  toTool : PyVal K
  successRate : PyVal K
  usageCount : ℕ
  rating : K
  tags : PyVal K
  createdAt : String
  price : K

structure PatternReview where
  reviewId : String
  listingId : String
  reviewerOrg : String
  rating : ℤ
  comment : String
  createdAt : String
  deriving DecidableEq, Repr

structure CLEPatternMarketplace (K : Type) where
  listings : Dict String (PatternListing K)
  reviews : Dict String (List PatternReview)
  purchases : Dict String (Finset String)

def init : CLEPatternMarketplace K := ⟨.empty, .empty, .empty⟩

/-- What a caller gives of a new listing. -/
structure NewListing (K : Type) where
  orgId : String
  patternId : String
  name : String
  description : String
  fromTool : PyVal K
  toTool : PyVal K
  successRate : PyVal K
  tags : PyVal K
  price : K

def listingIdOf (hex : String) : String := s!"listing_{hexPrefix 12 hex}"

section Calls

variable [Field K]

def createListing (mp : CLEPatternMarketplace K) (l : NewListing K) (hex now : String) :
    PatternListing K × CLEPatternMarketplace K :=
  let listing : PatternListing K := {
    listingId := listingIdOf hex
    patternId := l.patternId
    ownerOrg := l.orgId
    name := l.name
    description := l.description
    fromTool := l.fromTool
    toTool := l.toTool
    successRate := l.successRate
    usageCount := 0
    rating := 0
    tags := l.tags
    createdAt := now
    price := l.price }
  (listing, { mp with
    listings := mp.listings.set (listingIdOf hex) listing
    reviews := mp.reviews.set (listingIdOf hex) [] })

inductive PurchaseResult (K : Type) where
  | alreadyOwned (listingId : String)
  | paymentRequired (price : K)
  | success (listingId patternId : String)

def listingNotFound : PyException := .valueError "Listing not found"

def owned (mp : CLEPatternMarketplace K) (orgId : String) : Finset String :=
  (mp.purchases.get? orgId).getD ∅

def purchaseListing [LT K] [DecidableLT K] (mp : CLEPatternMarketplace K)
    (listingId orgId : String) :
    Except PyException (PurchaseResult K) × CLEPatternMarketplace K :=
  match mp.listings.get? listingId with
  | none => (.error listingNotFound, mp)
  | some listing =>
    let ids := owned mp orgId
    let mp := { mp with purchases := mp.purchases.set orgId ids }
    if listingId ∈ ids then (.ok (.alreadyOwned listingId), mp)
    else if listing.price > 0 then (.ok (.paymentRequired listing.price), mp)
    else
      (.ok (.success listingId listing.patternId), { mp with
        purchases := mp.purchases.set orgId (insert listingId ids)
        listings := mp.listings.set listingId
          { listing with usageCount := listing.usageCount + 1 } })

/-- `sum(r.rating for r in reviews) / len(reviews)`. -/
def meanRating (reviews : List PatternReview) : K :=
  ((reviews.map (·.rating)).sum : ℤ) / (reviews.length : K)

def addReview (mp : CLEPatternMarketplace K) (listingId reviewerOrg : String) (rating : ℤ)
    (comment hex now : String) : Except PyException PatternReview × CLEPatternMarketplace K :=
  match mp.listings.get? listingId with
  | none => (.error listingNotFound, mp)
  | some listing =>
    if ¬ (1 ≤ rating ∧ rating ≤ 5) then
      (.error (.valueError "Rating must be between 1 and 5"), mp)
    else
      let review : PatternReview :=
        ⟨s!"review_{hexPrefix 8 hex}", listingId, reviewerOrg, rating, comment, now⟩
      match mp.reviews.get? listingId with
      | none => (.error (.keyError listingId), mp)
      | some reviews =>
        (.ok review, { mp with
          reviews := mp.reviews.set listingId (reviews ++ [review])
          listings := mp.listings.set listingId
            { listing with rating := meanRating (reviews ++ [review]) } })

end Calls

/-- `digest` is the hexadecimal SHA-256 of a text. -/
def signExport (digest : String → String) (listing : PatternListing K) (orgId : String) :
    String :=
  digest s!"{listing.listingId}:{orgId}:{listing.patternId}"

def exportPattern (digest : String → String) (mp : CLEPatternMarketplace K)
    (listingId orgId now : String) : Except PyException (List (String × PyVal K)) :=
  match mp.listings.get? listingId with
  | none => .error listingNotFound
  | some listing =>
    if orgId ≠ listing.ownerOrg ∧ listingId ∉ owned mp orgId then
      .error (.valueError "Not purchased")
    else .ok [
      ("format_version", .str "1.0"),
      ("exported_at", .str now),
      ("pattern", .dict [
        ("from_tool", listing.fromTool),
        ("to_tool", listing.toTool),
        ("success_rate", listing.successRate),
        ("tags", listing.tags)]),
      ("signature", .str (signExport digest listing orgId))]

/-- The type of a value that has no `get`. -/
def typeName : PyVal K → String
  | .none => "NoneType"
  | .bool _ => "bool"
  | .int _ => "int"
  | .float _ | .infinity _ | .nan => "float"
  | .str _ => "str"
  | .list _ => "list"
  | .dict _ => "dict"

/-- `export_data["format_version"] == "1.0"`. -/
def versionOk : Option (PyVal K) → Bool
  | some (.str version) => version = "1.0"
  | _ => false

def importPattern [Field K] (mp : CLEPatternMarketplace K) (exportData : List (String × PyVal K))
    (orgId patternHex hex now : String) :
    Except PyException String × CLEPatternMarketplace K :=
  if ¬ versionOk (findEntry "format_version" exportData) then
    (.error (.valueError "Invalid format version"), mp)
  else match (findEntry "pattern" exportData).getD (.dict []) with
    | .dict pattern =>
      let created := createListing mp {
        orgId := orgId
        patternId := s!"imported_{hexPrefix 8 patternHex}"
        name := "Imported Pattern"
        description := "Imported from marketplace"
        fromTool := (findEntry "from_tool" pattern).getD (.str "")
        toTool := (findEntry "to_tool" pattern).getD (.str "")
        successRate := (findEntry "success_rate" pattern).getD (.float 0)
        tags := (findEntry "tags" pattern).getD (.list [])
        price := 0 } hex now
      (.ok created.1.listingId, created.2)
    | value =>
      (.error (.other "AttributeError" s!"'{typeName value}' object has no attribute 'get'"), mp)

/-- A call with its arguments and what it draws from `uuid4` and the clock. -/
inductive Operation (K : Type) where
  | createListing (listing : NewListing K) (hex now : String)
  | purchaseListing (listingId orgId : String)
  | addReview (listingId reviewerOrg : String) (rating : ℤ) (comment hex now : String)
  | importPattern (exportData : List (String × PyVal K)) (orgId patternHex hex now : String)
  | exportPattern (listingId orgId now : String)

/-- The state that a call leaves, also when it raises. -/
def apply [Field K] [LT K] [DecidableLT K] (mp : CLEPatternMarketplace K) :
    Operation K → CLEPatternMarketplace K
  | .createListing listing hex now => (createListing mp listing hex now).2
  | .purchaseListing listingId orgId => (purchaseListing mp listingId orgId).2
  | .addReview listingId reviewerOrg rating comment hex now =>
    (addReview mp listingId reviewerOrg rating comment hex now).2
  | .importPattern exportData orgId patternHex hex now =>
    (importPattern mp exportData orgId patternHex hex now).2
  | .exportPattern _ _ _ => mp

def run [Field K] [LT K] [DecidableLT K] (ops : List (Operation K)) : CLEPatternMarketplace K :=
  ops.foldl apply init

section Effects

variable [Field K] [LinearOrder K] {mp mp' : CLEPatternMarketplace K} {op : Operation K}
  {ops : List (Operation K)} {id orgId : String} {listing : PatternListing K}

/-- The listing id that a call generates when it creates a listing. -/
def generated : Operation K → Option String
  | .createListing _ hex _ | .importPattern _ _ _ hex _ => some (listingIdOf hex)
  | _ => none

/-- The call gets status success for this listing and organisation. -/
def Buys (mp : CLEPatternMarketplace K) (id orgId : String) : Prop :=
  ∃ patternId, (purchaseListing mp id orgId).1 = .ok (.success id patternId)

/-- Everything that a call can do to the marketplace. -/
inductive Effect (mp : CLEPatternMarketplace K) (op : Operation K) :
    CLEPatternMarketplace K → Prop where
  | unchanged (h : ∀ id orgId, op = .purchaseListing id orgId → ¬ Buys mp id orgId) :
      Effect mp op mp
  | created (l : NewListing K) (hex now : String) (h : generated op = some (listingIdOf hex)) :
      Effect mp op (createListing mp l hex now).2
  | opened (id orgId : String) (h : op = .purchaseListing id orgId) (hno : ¬ Buys mp id orgId) :
      Effect mp op { mp with purchases := mp.purchases.set orgId (owned mp orgId) }
  | bought (id orgId : String) (listing : PatternListing K) (h : op = .purchaseListing id orgId)
      (hbuys : Buys mp id orgId) (hlisting : mp.listings.get? id = some listing)
      (hnew : id ∉ owned mp orgId) (hfree : listing.price ≤ 0) :
      Effect mp op { mp with
        purchases := mp.purchases.set orgId (insert id (owned mp orgId))
        listings := mp.listings.set id { listing with usageCount := listing.usageCount + 1 } }
  | reviewed (id : String) (listing : PatternListing K) (reviews : List PatternReview)
      (review : PatternReview) (h : ∀ id orgId, op ≠ .purchaseListing id orgId)
      (hlisting : mp.listings.get? id = some listing) (hreviews : mp.reviews.get? id = some reviews)
      (hlow : 1 ≤ review.rating) (hhigh : review.rating ≤ 5) :
      Effect mp op { mp with
        reviews := mp.reviews.set id (reviews ++ [review])
        listings := mp.listings.set id
          { listing with rating := meanRating (reviews ++ [review]) } }

theorem not_buys_of_answer {r : Except PyException (PurchaseResult K)}
    (hcall : purchaseListing mp id orgId = (r, mp'))
    (hr : ∀ patternId, r ≠ .ok (.success id patternId)) : ¬ Buys mp id orgId := by
  rintro ⟨patternId, h⟩
  rw [hcall] at h
  exact hr patternId h

theorem purchaseListing_effect (mp : CLEPatternMarketplace K) (id orgId : String) :
    Effect mp (.purchaseListing id orgId) (purchaseListing mp id orgId).2 := by
  cases hlisting : mp.listings.get? id with
  | none =>
    have hcall : purchaseListing mp id orgId = (.error listingNotFound, mp) := by
      rw [purchaseListing, hlisting]
    rw [hcall]
    apply Effect.unchanged
    rintro _ _ ⟨⟩
    exact not_buys_of_answer hcall (by rintro _ ⟨⟩)
  | some listing =>
    by_cases howned : id ∈ owned mp orgId
    · have hcall : purchaseListing mp id orgId = (.ok (.alreadyOwned id),
          { mp with purchases := mp.purchases.set orgId (owned mp orgId) }) := by
        simp only [purchaseListing, hlisting, if_pos howned]
      rw [hcall]
      exact .opened id orgId rfl (not_buys_of_answer hcall (by rintro _ ⟨⟩))
    · by_cases hpaid : listing.price > 0
      · have hcall : purchaseListing mp id orgId = (.ok (.paymentRequired listing.price),
            { mp with purchases := mp.purchases.set orgId (owned mp orgId) }) := by
          simp only [purchaseListing, hlisting, if_neg howned, if_pos hpaid]
        rw [hcall]
        exact .opened id orgId rfl (not_buys_of_answer hcall (by rintro _ ⟨⟩))
      · have hcall : purchaseListing mp id orgId = (.ok (.success id listing.patternId), { mp with
            purchases := mp.purchases.set orgId (insert id (owned mp orgId))
            listings := mp.listings.set id
              { listing with usageCount := listing.usageCount + 1 } }) := by
          simp only [purchaseListing, hlisting, if_neg howned, if_neg hpaid, Dict.set_set]
        rw [hcall]
        exact .bought id orgId listing rfl ⟨listing.patternId, congrArg Prod.fst hcall⟩ hlisting
          howned (not_lt.mp hpaid)

theorem apply_effect (mp : CLEPatternMarketplace K) (op : Operation K) :
    Effect mp op (apply mp op) := by
  cases op with
  | createListing l hex now => exact .created l hex now rfl
  | purchaseListing id orgId => exact purchaseListing_effect mp id orgId
  | addReview id reviewerOrg rating comment hex now =>
    rw [apply, addReview]
    cases hlisting : mp.listings.get? id with
    | none => exact .unchanged (by rintro _ _ ⟨⟩)
    | some listing =>
      simp only
      split_ifs with hrating
      · cases hreviews : mp.reviews.get? id with
        | none => exact .unchanged (by rintro _ _ ⟨⟩)
        | some reviews =>
          exact .reviewed id listing reviews _ (by rintro _ _ ⟨⟩) hlisting hreviews
            hrating.1 hrating.2
      · exact .unchanged (by rintro _ _ ⟨⟩)
  | importPattern exportData orgId patternHex hex now =>
    rw [apply, importPattern]
    split_ifs with hversion
    · split
      · exact .created _ hex now rfl
      · exact .unchanged (by rintro _ _ ⟨⟩)
    · exact .unchanged (by rintro _ _ ⟨⟩)
  | exportPattern id orgId now => exact .unchanged (by rintro _ _ ⟨⟩)

/-- The organisations that have the listing in their purchases, counted. -/
def buyerCount (mp : CLEPatternMarketplace K) (id : String) : ℕ :=
  mp.purchases.entries.countP fun e => id ∈ e.2

omit [Field K] [LinearOrder K] in
theorem owned_set (listings : Dict String (PatternListing K))
    (reviews : Dict String (List PatternReview)) (ids : Finset String) (org : String) :
    owned ⟨listings, reviews, mp.purchases.set orgId ids⟩ org =
      if org = orgId then ids else owned mp org := by
  rw [owned, Dict.get?_set]
  split_ifs with horg
  · rfl
  · rfl

omit [Field K] [LinearOrder K] in
theorem buyerCount_set (mp : CLEPatternMarketplace K) (orgId : String)
    (listings : Dict String (PatternListing K)) (reviews : Dict String (List PatternReview))
    (ids : Finset String) (id : String) :
    buyerCount ⟨listings, reviews, mp.purchases.set orgId ids⟩ id +
        (decide (id ∈ owned mp orgId)).toNat =
      buyerCount mp id + (decide (id ∈ ids)).toNat := by
  have hcount := countP_setEntries (fun e : String × Finset String => decide (id ∈ e.2)) orgId ids
    mp.purchases.entries
  have howned : ((findEntry orgId mp.purchases.entries).map fun a => decide (id ∈ a)).getD false =
      decide (id ∈ owned mp orgId) := by
    unfold owned Dict.get?
    cases findEntry orgId mp.purchases.entries with
    | none => simp
    | some old => rfl
  rwa [howned] at hcount

omit [Field K] [LinearOrder K] in
theorem buyerCount_eq_zero (h : ∀ org, id ∉ owned mp org) : buyerCount mp id = 0 := by
  rw [buyerCount, List.countP_eq_zero]
  rintro ⟨org, ids⟩ hmem
  have howned : owned mp org = ids := by
    rw [owned, Dict.get?_eq_some.mpr hmem, Option.getD_some]
  simpa [howned] using h org

/-- What a listing shows, and who can have it. -/
structure Listed (mp : CLEPatternMarketplace K) (id : String) (listing : PatternListing K) :
    Prop where
  usage : listing.usageCount = buyerCount mp id
  rated : ∃ reviews, mp.reviews.get? id = some reviews ∧
    (∀ r ∈ reviews, 1 ≤ r.rating ∧ r.rating ≤ 5) ∧ listing.rating = meanRating reviews
  free : 0 < listing.price → ∀ org, id ∉ owned mp org

structure Consistent (mp : CLEPatternMarketplace K) : Prop where
  listed : ∀ id listing, mp.listings.get? id = some listing → Listed mp id listing
  unlisted : ∀ id, mp.listings.get? id = none → ∀ org, id ∉ owned mp org

theorem Consistent.created (hc : Consistent mp) (l : NewListing K) (hex now : String)
    (hfresh : mp.listings.get? (listingIdOf hex) = none) :
    Consistent (createListing mp l hex now).2 where
  listed := by
    intro id listing h
    simp only [createListing] at h
    rw [Dict.get?_set] at h
    split_ifs at h with hid
    · obtain rfl := Option.some.inj h
      subst hid
      refine ⟨(buyerCount_eq_zero (hc.unlisted _ hfresh)).symm, ⟨[], ?_, ?_, ?_⟩,
        fun _ => hc.unlisted _ hfresh⟩
      · exact Dict.get?_set_self _ _ _
      · intro r hr
        cases hr
      · simp [meanRating]
    · obtain ⟨husage, ⟨reviews, hreviews, hrange, hrating⟩, hfree⟩ := hc.listed id listing h
      refine ⟨husage, ⟨reviews, ?_, hrange, hrating⟩, hfree⟩
      exact (Dict.get?_set_of_ne _ hid _).trans hreviews
  unlisted := by
    intro id h
    simp only [createListing] at h
    rw [Dict.get?_set] at h
    split_ifs at h with hid
    exact hc.unlisted id h

omit [Field K] [LinearOrder K] in
theorem owned_opened (org : String) :
    owned { mp with purchases := mp.purchases.set orgId (owned mp orgId) } org = owned mp org := by
  rw [owned_set]
  split_ifs with horg
  · rw [horg]
  · rfl

theorem Consistent.opened (hc : Consistent mp) (orgId : String) :
    Consistent { mp with purchases := mp.purchases.set orgId (owned mp orgId) } where
  listed := by
    intro id listing h
    obtain ⟨husage, hrated, hfree⟩ := hc.listed id listing h
    refine ⟨?_, hrated, fun hprice org => (owned_opened org).symm ▸ hfree hprice org⟩
    have hcount := buyerCount_set mp orgId mp.listings mp.reviews (owned mp orgId) id
    omega
  unlisted := by
    intro id h org
    rw [owned_opened]
    exact hc.unlisted id h org

theorem Consistent.bought (hc : Consistent mp) (hlisting : mp.listings.get? id = some listing)
    (hnew : id ∉ owned mp orgId) (hfree : listing.price ≤ 0) :
    Consistent { mp with
      purchases := mp.purchases.set orgId (insert id (owned mp orgId))
      listings := mp.listings.set id { listing with usageCount := listing.usageCount + 1 } } where
  listed := by
    intro other shown h
    have hcount := buyerCount_set mp orgId (mp.listings.set id
      { listing with usageCount := listing.usageCount + 1 }) mp.reviews
      (insert id (owned mp orgId)) other
    rw [Dict.get?_set] at h
    split_ifs at h with hid
    · obtain rfl := Option.some.inj h
      subst hid
      obtain ⟨husage, hrated, -⟩ := hc.listed other listing hlisting
      refine ⟨?_, hrated, fun hprice => absurd hfree (not_le.mpr hprice)⟩
      simp only [Finset.mem_insert_self, decide_true, hnew, decide_false, Bool.toNat_true,
        Bool.toNat_false] at hcount
      change listing.usageCount + 1 = _
      omega
    · obtain ⟨husage, hrated, hpaid⟩ := hc.listed other shown h
      refine ⟨?_, hrated, ?_⟩
      · simp only [Finset.mem_insert, hid, false_or] at hcount
        omega
      · intro hprice org
        rw [owned_set]
        split_ifs with horg
        · simp [hid, hpaid hprice]
        · exact hpaid hprice org
  unlisted := by
    intro other h org
    rw [Dict.get?_set] at h
    split_ifs at h with hid
    rw [owned_set]
    split_ifs with horg
    · simp [hid, hc.unlisted other h]
    · exact hc.unlisted other h org

theorem Consistent.reviewed (hc : Consistent mp) {reviews : List PatternReview}
    {review : PatternReview} (hlisting : mp.listings.get? id = some listing)
    (hreviews : mp.reviews.get? id = some reviews) (hlow : 1 ≤ review.rating)
    (hhigh : review.rating ≤ 5) : Consistent { mp with
      reviews := mp.reviews.set id (reviews ++ [review])
      listings := mp.listings.set id
        { listing with rating := meanRating (reviews ++ [review]) } } where
  listed := by
    intro other shown h
    rw [Dict.get?_set] at h
    split_ifs at h with hid
    · obtain rfl := Option.some.inj h
      subst hid
      obtain ⟨husage, ⟨old, hold, hrange, -⟩, hpaid⟩ := hc.listed other listing hlisting
      obtain rfl := Option.some.inj (hold.symm.trans hreviews)
      refine ⟨husage, ⟨old ++ [review], Dict.get?_set_self _ _ _, ?_, rfl⟩, hpaid⟩
      intro r hr
      rcases List.mem_append.mp hr with hr | hr
      · exact hrange r hr
      · obtain rfl := List.mem_singleton.mp hr
        exact ⟨hlow, hhigh⟩
    · obtain ⟨husage, ⟨old, hold, hrange, hrating⟩, hpaid⟩ := hc.listed other shown h
      exact ⟨husage, ⟨old, (Dict.get?_set_of_ne _ hid _).trans hold, hrange, hrating⟩, hpaid⟩
  unlisted := by
    intro other h
    rw [Dict.get?_set] at h
    split_ifs at h with hid
    exact hc.unlisted other h

theorem Consistent.effect (hc : Consistent mp)
    (hfresh : ∀ id, generated op = some id → mp.listings.get? id = none)
    (he : Effect mp op mp') : Consistent mp' := by
  cases he with
  | unchanged => exact hc
  | created l hex now h => exact hc.created l hex now (hfresh _ h)
  | opened id orgId => exact hc.opened orgId
  | bought id orgId listing _ _ hlisting hnew hfree => exact hc.bought hlisting hnew hfree
  | reviewed id listing reviews review _ hlisting hreviews hlow hhigh =>
    exact hc.reviewed hlisting hreviews hlow hhigh

/-- A call adds to an organisation's purchases what it buys, and nothing else. -/
theorem Effect.owned_iff (he : Effect mp op mp') (id org : String) : id ∈ owned mp' org ↔
    id ∈ owned mp org ∨ op = .purchaseListing id org ∧ Buys mp id org := by
  cases he with
  | unchanged h =>
    exact (or_iff_left fun hbuys => h id org hbuys.1 hbuys.2).symm
  | created l hex now h =>
    refine (or_iff_left ?_).symm
    rintro ⟨rfl, -⟩
    cases h
  | opened other orgId h hno =>
    rw [owned_opened]
    refine (or_iff_left ?_).symm
    rintro ⟨hop, hbuys⟩
    obtain ⟨rfl, rfl⟩ := Operation.purchaseListing.inj (h.symm.trans hop)
    exact hno hbuys
  | bought other orgId listing h hbuys hlisting hnew hfree =>
    rw [owned_set]
    split_ifs with horg
    · subst horg
      rw [Finset.mem_insert, or_comm]
      apply or_congr_right
      constructor
      · rintro rfl
        exact ⟨h, hbuys⟩
      · rintro ⟨hop, -⟩
        exact (Operation.purchaseListing.inj (h.symm.trans hop)).1.symm
    · refine (or_iff_left ?_).symm
      rintro ⟨hop, -⟩
      exact horg (Operation.purchaseListing.inj (h.symm.trans hop)).2.symm
  | reviewed other listing reviews review h =>
    exact (or_iff_left fun hbuys => h id org hbuys.1).symm

/-- Listings are kept, and a new one has the id that the call generates. -/
theorem Effect.listed (he : Effect mp op mp') (h : mp'.listings.get? id = some listing) :
    (∃ old, mp.listings.get? id = some old) ∨ generated op = some id := by
  cases he with
  | unchanged => exact .inl ⟨listing, h⟩
  | created l hex now hgenerated =>
    simp only [createListing] at h
    rw [Dict.get?_set] at h
    split_ifs at h with hid
    · exact .inr (hid ▸ hgenerated)
    · exact .inl ⟨listing, h⟩
  | opened => exact .inl ⟨listing, h⟩
  | bought other orgId old _ _ hold =>
    rw [Dict.get?_set] at h
    split_ifs at h with hid
    · exact .inl ⟨old, hid ▸ hold⟩
    · exact .inl ⟨listing, h⟩
  | reviewed other old reviews review _ hold =>
    rw [Dict.get?_set] at h
    split_ifs at h with hid
    · exact .inl ⟨old, hid ▸ hold⟩
    · exact .inl ⟨listing, h⟩

theorem Consistent.init : Consistent (init : CLEPatternMarketplace K) where
  listed := by
    intro id listing h
    cases h
  unlisted := by
    intro id _ org h
    cases h

end Effects

/-! Histories: what earlier calls answered decides who may export. -/

section Histories

variable [Field K] [LinearOrder K] {op : Operation K} {ops : List (Operation K)}
  {id org : String}

theorem run_concat (ops : List (Operation K)) (op : Operation K) :
    run (ops ++ [op]) = apply (run ops) op := by
  rw [run, List.foldl_append, List.foldl_cons, List.foldl_nil]
  rfl

/-- Some earlier purchase of the listing by the organisation got status success. -/
def Bought (ops : List (Operation K)) (id org : String) : Prop :=
  ∃ before after, ops = before ++ .purchaseListing id org :: after ∧ Buys (run before) id org

theorem bought_concat : Bought (ops ++ [op]) id org ↔
    Bought ops id org ∨ op = .purchaseListing id org ∧ Buys (run ops) id org := by
  constructor
  · rintro ⟨before, after, heq, hbuys⟩
    rcases List.eq_nil_or_concat after with rfl | ⟨rest, last, rfl⟩
    · obtain ⟨rfl, hop⟩ := List.append_inj' heq rfl
      exact .inr ⟨List.singleton_inj.mp hop, hbuys⟩
    · rw [List.concat_eq_append, ← List.cons_append, ← List.append_assoc] at heq
      exact .inl ⟨before, rest, (List.append_inj' heq rfl).1, hbuys⟩
  · rintro (⟨before, after, rfl, hbuys⟩ | ⟨rfl, hbuys⟩)
    · exact ⟨before, after ++ [op], by simp, hbuys⟩
    · exact ⟨ops, [], rfl, hbuys⟩

/-- An organisation's purchases are those that succeeded. -/
theorem owned_iff_bought (ops : List (Operation K)) (id org : String) :
    id ∈ owned (run ops) org ↔ Bought ops id org := by
  induction ops using List.reverseRecOn generalizing id org with
  | nil =>
    refine iff_of_false (by rintro ⟨⟩) ?_
    rintro ⟨before, after, heq, -⟩
    exact absurd heq (by simp)
  | append_singleton ops op ih =>
    rw [run_concat, (apply_effect (run ops) op).owned_iff, bought_concat, ih]

theorem listed_generated (ops : List (Operation K)) {listing : PatternListing K}
    (h : (run ops).listings.get? id = some listing) : id ∈ ops.filterMap generated := by
  induction ops using List.reverseRecOn generalizing listing with
  | nil => cases h
  | append_singleton ops op ih =>
    rw [run_concat] at h
    rw [List.filterMap_append, List.mem_append]
    rcases (apply_effect (run ops) op).listed h with ⟨old, hold⟩ | hgenerated
    · exact .inl (ih hold)
    · exact .inr (List.mem_filterMap.mpr ⟨op, List.mem_singleton.mpr rfl, hgenerated⟩)

theorem consistent_run (ops : List (Operation K)) (hfresh : (ops.filterMap generated).Nodup) :
    Consistent (run ops) := by
  induction ops using List.reverseRecOn with
  | nil => exact Consistent.init
  | append_singleton ops op ih =>
    rw [List.filterMap_append] at hfresh
    rw [run_concat]
    apply (ih hfresh.of_append_left).effect _ (apply_effect (run ops) op)
    intro id hgenerated
    rw [← Option.not_isSome_iff_eq_none, Option.isSome_iff_exists]
    rintro ⟨listing, hlisting⟩
    apply List.disjoint_of_nodup_append hfresh (listed_generated ops hlisting)
    exact List.mem_filterMap.mpr ⟨op, List.mem_singleton.mpr rfl, hgenerated⟩

omit [Field K] [LinearOrder K] in
theorem exportPattern_iff (digest : String → String) (mp : CLEPatternMarketplace K)
    (id org now : String) : (∃ data, exportPattern digest mp id org now = .ok data) ↔
      ∃ listing, mp.listings.get? id = some listing ∧
        (org = listing.ownerOrg ∨ id ∈ owned mp org) := by
  rw [exportPattern]
  cases mp.listings.get? id with
  | none => simp
  | some listing =>
    simp only [Option.some.injEq, exists_eq_left']
    split_ifs with hrefused
    · exact iff_of_false (by rintro ⟨data, ⟨⟩⟩) (by tauto)
    · exact iff_of_true ⟨_, rfl⟩ (by tauto)

variable [IsStrictOrderedRing K]

omit [LinearOrder K] [IsStrictOrderedRing K] in
theorem meanRating_nil : (meanRating [] : K) = 0 := by simp [meanRating]

theorem meanRating_range {reviews : List PatternReview} (hne : reviews ≠ [])
    (h : ∀ r ∈ reviews, 1 ≤ r.rating ∧ r.rating ≤ 5) :
    1 ≤ (meanRating reviews : K) ∧ (meanRating reviews : K) ≤ 5 := by
  have hpos : (0 : K) < reviews.length := Nat.cast_pos.mpr (List.length_pos_iff.mpr hne)
  have hlow := List.card_nsmul_le_sum (reviews.map (·.rating)) 1 (by
    simpa using fun r hr => (h r hr).1)
  have hhigh := List.sum_le_card_nsmul (reviews.map (·.rating)) 5 (by
    simpa using fun r hr => (h r hr).2)
  rw [List.length_map, nsmul_eq_mul] at hlow hhigh
  have hlow' : (reviews.length : K) ≤ ((reviews.map (·.rating)).sum : ℤ) := by
    exact_mod_cast (by linarith : (reviews.length : ℤ) ≤ (reviews.map (·.rating)).sum)
  have hhigh' : (((reviews.map (·.rating)).sum : ℤ) : K) ≤ 5 * reviews.length := by
    exact_mod_cast (by linarith : (reviews.map (·.rating)).sum ≤ 5 * (reviews.length : ℤ))
  rw [meanRating, le_div_iff₀ hpos, div_le_iff₀ hpos, one_mul]
  exact ⟨hlow', hhigh'⟩

/-- What the marketplace promises about its listings, in terms of the calls before. -/
structure Honest (ops : List (Operation K)) : Prop where
  usage : ∀ id listing, (run ops).listings.get? id = some listing →
    ∃ buyers : List String, buyers.Nodup ∧ (∀ org, org ∈ buyers ↔ Bought ops id org) ∧
      listing.usageCount = buyers.length
  rating : ∀ id listing, (run ops).listings.get? id = some listing →
    ∃ reviews, (run ops).reviews.get? id = some reviews ∧
      (reviews = [] → listing.rating = 0) ∧
      (reviews ≠ [] → listing.rating = meanRating reviews ∧
        1 ≤ listing.rating ∧ listing.rating ≤ 5)
  exported : ∀ digest id org now,
    (∃ data, exportPattern digest (run ops) id org now = .ok data) ↔
      ∃ listing, (run ops).listings.get? id = some listing ∧
        (org = listing.ownerOrg ∨ Bought ops id org)
  paid : ∀ id listing, (run ops).listings.get? id = some listing → 0 < listing.price →
    ∀ digest org now, org ≠ listing.ownerOrg →
      ¬ ∃ data, exportPattern digest (run ops) id org now = .ok data

theorem marketplace_honest (ops : List (Operation K))
    (hfresh : (ops.filterMap generated).Nodup) : Honest ops where
  usage := by
    intro id listing h
    refine ⟨((run ops).purchases.entries.filter fun e => id ∈ e.2).map Prod.fst, ?_, ?_, ?_⟩
    · exact (run ops).purchases.nodup.sublist (List.filter_sublist.map _)
    · intro org
      rw [← owned_iff_bought, List.mem_map, owned]
      constructor
      · rintro ⟨⟨org, ids⟩, hmem, rfl⟩
        obtain ⟨hentry, hid⟩ := List.mem_filter.mp hmem
        rw [Dict.get?_eq_some.mpr hentry]
        exact of_decide_eq_true hid
      · intro hid
        cases hids : (run ops).purchases.get? org with
        | none => simp [hids] at hid
        | some ids =>
          rw [hids] at hid
          exact ⟨(org, ids), List.mem_filter.mpr ⟨Dict.get?_eq_some.mp hids, by simpa using hid⟩,
            rfl⟩
    · rw [((consistent_run ops hfresh).listed id listing h).usage, buyerCount,
        List.countP_eq_length_filter, List.length_map]
  rating := by
    intro id listing h
    obtain ⟨reviews, hreviews, hrange, hrating⟩ :=
      ((consistent_run ops hfresh).listed id listing h).rated
    refine ⟨reviews, hreviews, ?_, fun hne => ⟨hrating, ?_⟩⟩
    · rintro rfl
      rw [hrating, meanRating_nil]
    · rw [hrating]
      exact meanRating_range hne hrange
  exported := by
    intro digest id org now
    rw [exportPattern_iff]
    simp only [owned_iff_bought]
  paid := by
    intro id listing h hprice digest org now hother
    rw [exportPattern_iff]
    rintro ⟨other, hlisting, howner | howned⟩
    · obtain rfl := Option.some.inj (hlisting.symm.trans h)
      exact hother howner
    · exact ((consistent_run ops hfresh).listed id listing h).free hprice org howned

end Histories

/-! A free listing is bought, reviewed and exported by its buyer. -/

def sampleListing : NewListing ℚ where
  orgId := "org_1"
  patternId := "pattern_1"
  name := "Fix Read"
  description := ""
  fromTool := .str "filesystem.read"
  toTool := .str "database.query"
  successRate := .float (19 / 20)
  tags := .list []
  price := 0

def sampleCalls : List (Operation ℚ) :=
  [.createListing sampleListing "1" "", .purchaseListing "listing_1" "buyer_org",
    .addReview "listing_1" "buyer_org" 5 "Excellent!" "2" "",
    .exportPattern "listing_1" "buyer_org" ""]

theorem marketplace_honest_sample : Honest sampleCalls :=
  marketplace_honest sampleCalls (List.nodup_singleton _)

end PatternMarketplace
