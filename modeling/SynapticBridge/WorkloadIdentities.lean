import SynapticBridge.Domain
import SynapticBridge.RateLimiter
import SynapticBridge.StepTraces

/-! The SPIFFE controller and its callers. One identity is kept for all of them, and whether it
is still valid is asked of its age only, not of the audience it names. -/
namespace WorkloadIdentities

open Domain OrderedDict StepTraces
open RateLimiter (truncate)

structure WorkloadIdentity where
  spiffeId : String
  trustDomain : String
  issuedAt : ℤ
  expiresAt : ℤ
  audience : String
  certificate : String
  privateKey : String
  deriving DecidableEq, Repr

structure SPIFFEController where
  trustDomain : String
  cachedIdentity : Option WorkloadIdentity
  deriving DecidableEq, Repr

/-- The clock readings of one call, for the cached identity and for a new one. -/
structure Readings (K : Type) where
  checkedAt : K
  fetchedAt : K

/-- What a token says. -/
structure Payload where
  sub : String
  aud : String
  iss : String
  iat : ℤ
  exp : ℤ
  deriving DecidableEq, Repr

def new (trustDomain : String) : SPIFFEController := ⟨trustDomain, none⟩

section Controller

variable {K : Type} [Field K] [LinearOrder K] [FloorRing K]

def isIdentityValid (now : K) (identity : WorkloadIdentity) : Bool :=
  decide (truncate now < identity.expiresAt - 300)

def fetchIdentityFromSpire (c : SPIFFEController) (now : K) (audience : String) :
    WorkloadIdentity where
  spiffeId := s!"spiffe://{c.trustDomain}/ns/default/sa/synaptic-bridge"
  trustDomain := c.trustDomain
  issuedAt := truncate now
  expiresAt := truncate now + 3600
  audience := audience
  certificate := "MOCK_CERTIFICATE"
  privateKey := "MOCK_PRIVATE_KEY"

/-- The cached identity, while it is valid. -/
def usable (c : SPIFFEController) (now : K) : Option WorkloadIdentity :=
  c.cachedIdentity.filter (isIdentityValid now)

def getWorkloadIdentity (c : SPIFFEController) (r : Readings K) (audience : String) :
    WorkloadIdentity × SPIFFEController :=
  match usable c r.checkedAt with
  | some identity => (identity, c)
  | none =>
    let identity := fetchIdentityFromSpire c r.fetchedAt audience
    (identity, { c with cachedIdentity := some identity })

def payload (identity : WorkloadIdentity) : Payload where
  sub := identity.spiffeId
  aud := identity.audience
  iss := s!"spiffe://{identity.trustDomain}"
  iat := identity.issuedAt
  exp := identity.expiresAt

/-- `encode` is `jwt.encode` with RS256. -/
def getJwtToken (encode : Payload → String → Except PyException String) (c : SPIFFEController)
    (r : Readings K) (audience : String) : Except PyException String × SPIFFEController :=
  let (identity, c) := getWorkloadIdentity c r audience
  (encode (payload identity) identity.privateKey, c)

/-- `CredentialInjector.inject_credentials` asks for the tool as its audience. -/
def injectCredentials (c : SPIFFEController) (r : Readings K) (toolName : String)
    (context : Dict String (PyVal K)) : Dict String (PyVal K) × SPIFFEController :=
  let (identity, c) := getWorkloadIdentity c r toolName
  let credentials := [("spiffe_id", .str identity.spiffeId),
    ("trust_domain", .str identity.trustDomain)]
  ((context.set "_credentials" (.dict credentials)).set "_env"
    (.dict [("SPIFFE_WORKLOAD_API", .str "injected")]), c)

end Controller

section Requests

variable {K : Type}

inductive Operation (K : Type) where
  | getWorkloadIdentity (audience : String)
  | getJwtToken (audience : String)
  | injectCredentials (toolName : String) (context : Dict String (PyVal K))

structure Request (K : Type) where
  operation : Operation K
  readings : Readings K

/-- The audience an operation asks an identity for. -/
def Request.audience (r : Request K) : String :=
  match r.operation with
  | .getWorkloadIdentity audience | .getJwtToken audience => audience
  | .injectCredentials toolName _ => toolName

inductive Answer (K : Type) where
  | identity (identity : WorkloadIdentity)
  | token (token : Except PyException String)
  | context (context : Dict String (PyVal K))

variable [Field K] [LinearOrder K] [FloorRing K]

def serve (encode : Payload → String → Except PyException String) (c : SPIFFEController)
    (r : Request K) : Answer K × SPIFFEController :=
  match r.operation with
  | .getWorkloadIdentity audience => (getWorkloadIdentity c r.readings audience).map .identity id
  | .getJwtToken audience => (getJwtToken encode c r.readings audience).map .token id
  | .injectCredentials toolName context =>
    (injectCredentials c r.readings toolName context).map .context id

/-- The identity with which a request is answered. -/
def identityFor (c : SPIFFEController) (r : Request K) : WorkloadIdentity :=
  (getWorkloadIdentity c r.readings r.audience).1

/-- The reading on which the answer rests. -/
def reading (c : SPIFFEController) (r : Request K) : K :=
  if (usable c r.readings.checkedAt).isSome then r.readings.checkedAt else r.readings.fetchedAt

end Requests

section Audiences

variable {K : Type} [Field K] [LinearOrder K] [FloorRing K] {c : SPIFFEController}
  {r : Request K} {encode : Payload → String → Except PyException String}

theorem getWorkloadIdentity_cases (c : SPIFFEController) (r : Readings K) (audience : String) :
    (∃ identity, usable c r.checkedAt = some identity ∧
      getWorkloadIdentity c r audience = (identity, c)) ∨
    usable c r.checkedAt = none ∧ getWorkloadIdentity c r audience =
      (fetchIdentityFromSpire c r.fetchedAt audience,
        { c with cachedIdentity := some (fetchIdentityFromSpire c r.fetchedAt audience) }) := by
  rw [getWorkloadIdentity]
  cases usable c r.checkedAt with
  | some identity => exact .inl ⟨identity, rfl, rfl⟩
  | none => exact .inr ⟨rfl, rfl⟩

/-- What a request for one audience is to get. -/
structure Names (encode : Payload → String → Except PyException String) (c : SPIFFEController)
    (r : Request K) : Prop where
  audience : (identityFor c r).audience = r.audience
  identity : ∀ audience, r.operation = .getWorkloadIdentity audience →
    (serve encode c r).1 = .identity (identityFor c r)
  token : ∀ audience, r.operation = .getJwtToken audience → (serve encode c r).1 =
    .token (encode (payload (identityFor c r)) (identityFor c r).privateKey) ∧
      (payload (identityFor c r)).aud = audience

/-- A cached identity that is still valid names the audience that is asked for. -/
def Fits (c : SPIFFEController) (r : Request K) : Prop :=
  ∀ identity, usable c r.readings.checkedAt = some identity → identity.audience = r.audience

theorem audience_iff : (identityFor c r).audience = r.audience ↔ Fits c r := by
  rw [identityFor, Fits]
  rcases getWorkloadIdentity_cases c r.readings r.audience with
    ⟨identity, husable, hget⟩ | ⟨husable, hget⟩
  · rw [hget, husable]
    simp
  · rw [hget, husable]
    simp [fetchIdentityFromSpire]

theorem names_iff : Names encode c r ↔ Fits c r := by
  rw [← audience_iff]
  refine ⟨fun h => h.audience, fun haudience => ⟨haudience, ?_, ?_⟩⟩
  · intro audience hoperation
    obtain ⟨operation, readings⟩ := r
    obtain rfl := hoperation
    rfl
  · intro audience hoperation
    obtain ⟨operation, readings⟩ := r
    obtain rfl := hoperation
    exact ⟨rfl, haudience⟩

variable [IsStrictOrderedRing K]

theorem lt_truncate_add_one (x : K) : x < truncate x + 1 := by
  unfold truncate
  split_ifs with hx
  · exact Int.lt_floor_add_one x
  · have hceil := Int.le_ceil x
    linarith

/-- An identity lasts for more than 300 seconds from the reading on which its answer rests. -/
theorem identityFor_lasts (c : SPIFFEController) (r : Request K) :
    reading c r + 300 < ((identityFor c r).expiresAt : K) := by
  rw [identityFor, reading]
  rcases getWorkloadIdentity_cases c r.readings r.audience with
    ⟨identity, husable, hget⟩ | ⟨husable, hget⟩
  · have hvalid := (Option.filter_eq_some_iff.mp husable).2
    have hleft : truncate r.readings.checkedAt + 1 + 300 ≤ identity.expiresAt := by
      have := of_decide_eq_true hvalid
      omega
    have hcast : ((truncate r.readings.checkedAt : K) + 1 + 300) ≤ identity.expiresAt := by
      exact_mod_cast hleft
    rw [hget, husable, Option.isSome_some, if_pos rfl]
    have hreading := lt_truncate_add_one r.readings.checkedAt
    linarith
  · rw [hget, husable, Option.isSome_none, if_neg Bool.false_ne_true]
    have hreading := lt_truncate_add_one r.readings.fetchedAt
    have hexpires : ((fetchIdentityFromSpire c r.readings.fetchedAt r.audience).expiresAt : K) =
        truncate r.readings.fetchedAt + 3600 := by
      simp [fetchIdentityFromSpire]
    rw [hexpires]
    linarith

/-- Every identity lasts, in every run. Each names the audience it was asked for exactly when no
request meets a valid identity that was fetched for another audience. -/
theorem identities_named_iff (encode : Payload → String → Except PyException String)
    (trustDomain : String) (requests : List (Request K)) :
    Along (serve encode) (fun c r => reading c r + 300 < ((identityFor c r).expiresAt : K))
        (new trustDomain) requests ∧
      (Along (serve encode) (Names encode) (new trustDomain) requests ↔
        Along (serve encode) Fits (new trustDomain) requests) :=
  ⟨along_of_forall identityFor_lasts _ _, along_congr (fun _ _ => names_iff) _ _⟩

end Audiences

/-! Identities for two audiences in turn, ten seconds apart, with a token asked for between. -/

def identityRequest (audience : String) (now : ℚ) : Request ℚ :=
  ⟨.getWorkloadIdentity audience, ⟨now, now⟩⟩

def tokenRequest (audience : String) (now : ℚ) : Request ℚ :=
  ⟨.getJwtToken audience, ⟨now, now⟩⟩

/-- The mock key signs nothing: without a library for RSA there is no RS256, and with one the key
cannot be read. -/
def encodeRS256 (_ : Payload) (_ : String) : Except PyException String :=
  .error (.other "NotImplementedError"
    "Algorithm 'RS256' could not be found. Do you have cryptography installed?")

theorem identities_named_sample : Along (serve encodeRS256) (Names encodeRS256)
    (new "example.org") [identityRequest "a" 0, tokenRequest "a" 5, identityRequest "a" 10] := by
  apply (identities_named_iff encodeRS256 "example.org" _).2.mpr
  exact ⟨audience_iff.mp rfl, audience_iff.mp rfl, audience_iff.mp rfl, trivial⟩

/-- The second identity names the first audience. -/
theorem other_audience_named :
    (serve encodeRS256 (serve encodeRS256 (new "example.org") (identityRequest "a" 0)).2
      (identityRequest "b" 10)).1 =
      .identity ⟨"spiffe://example.org/ns/default/sa/synaptic-bridge", "example.org", 0, 3600, "a",
        "MOCK_CERTIFICATE", "MOCK_PRIVATE_KEY"⟩ ∧
    ¬ Along (serve encodeRS256) (Names encodeRS256) (new "example.org")
      [identityRequest "a" 0, identityRequest "b" 10] := by
  refine ⟨rfl, ?_⟩
  rintro ⟨-, named, -⟩
  have hsame : "a" = "b" := named.audience
  exact absurd hsame (by decide)

end WorkloadIdentities
