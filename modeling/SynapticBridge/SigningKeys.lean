import SynapticBridge.ExecutionAdapter
import SynapticBridge.ExecuteEndpoint
import SynapticBridge.PythonText

/-! The key that `create_session` signs with and the key that `verify_token` checks with. The
two modules read one environment by different fallbacks, each behind a cache of its own. -/
namespace SigningKeys

open Domain ExecutionAdapter ExecuteEndpoint PythonText PythonValues
open Procedures.Proc

structure Environment where
  jwtSecret : Option String
  testing : Option String
  environment : Option String
  gcpProject : Option String

inductive SecretManager where
  | env
  | gcp (project : String)
  deriving DecidableEq, Repr

inductive DecodeError where
  | expiredSignature
  | invalidToken
  | other (e : PyException)

/-- `jwt.encode` and `jwt.decode` with HS256. -/
structure Jwt (K : Type) where
  encode : List (String × PyVal K) → String → Except PyException String
  decode : String → String → Except DecodeError (List (String × PyVal K))

/-- An expired signature is one kind of invalid token. -/
def DecodeError.toJwtError : DecodeError → JwtError
  | .expiredSignature | .invalidToken => .invalidToken
  | .other e => .other e

def Jwt.libraries {K : Type} (jwt : Jwt K) (str : PyVal K → String) : Libraries K where
  encode := jwt.encode
  decode token key := (jwt.decode token key).mapError DecodeError.toJwtError
  str := str

/-- The two caches of a process and the sessions of its adapter. -/
structure Process (K : Type) [LT K] where
  secretKey : Option String
  secretManager : Option SecretManager
  sessions : Sessions K

inductive VerifyError where
  | http (e : HTTPException)
  | raised (e : PyException)

def MIN_JWT_SECRET_LENGTH : ℕ := 32

def INSECURE_TEST_KEY : String := "insecure-test-key-for-testing-only-do-not-use-in-production"

def configurationError (message : String) : PyException := .other "ConfigurationError" message

/-- Lowercase of other letters than ASCII's gives none of the three names. -/
def isProduction (env : Environment) : Bool :=
  let name := lower (env.environment.getD "").toList
  decide (name = "production".toList) || decide (name = "prod".toList) ||
    decide (name = "prd".toList)

def Environment.isTesting (env : Environment) : Bool := decide (env.testing = some "1")

/-- `os.environ.get("JWT_SECRET")`, where an unset and an empty secret are treated alike. -/
def Environment.secret (env : Environment) : String := env.jwtSecret.getD ""

/-- `_get_secret_key`. -/
def readSecretKey (env : Environment) : Except PyException String :=
  let key := env.secret
  if key = "" then
    if env.isTesting then .ok INSECURE_TEST_KEY
    else if isProduction env then
      .error (configurationError
        ("JWT_SECRET environment variable is required in production. " ++
          "Set it to a cryptographically strong random value (min 32 bytes)."))
    else .ok ""
  else if key.length < MIN_JWT_SECRET_LENGTH ∧ isProduction env = true then
    .error (configurationError
      (s!"JWT_SECRET must be at least {MIN_JWT_SECRET_LENGTH} bytes. " ++
        s!"Current length: {key.length}. Generate with: " ++
        "python3 -c \"import secrets; print(secrets.token_urlsafe(32))\""))
  else .ok key

def buildDefaultSecretManager (env : Environment) : SecretManager :=
  match env.gcpProject with
  | some project => if project ≠ "" ∧ ¬ env.isTesting then .gcp project else .env
  | none => .env

section Operations

variable {K : Type} [Field K] [LinearOrder K]

def getSecretKey (env : Environment) : Proc (Process K) String := do
  match (← read).secretKey with
  | some key => return key
  | none => do
    let key ← ofExcept (readSecretKey env)
    modify fun process => { process with secretKey := some key }
    return key

def defaultSecretManager (env : Environment) : Proc (Process K) SecretManager := do
  match (← read).secretManager with
  | some manager => return manager
  | none => do
    modify fun process => { process with secretManager := some (buildDefaultSecretManager env) }
    return buildDefaultSecretManager env

def getJwtSecret (env : Environment) : Proc (Process K) String := do
  let manager ← defaultSecretManager env
  if env.secret = "" ∧ manager = .env ∧ ¬ env.isTesting then
    raise (configurationError
      ("JWT_SECRET is not configured. Provision via Secret Manager " ++
        "(GCP_PROJECT) or set JWT_SECRET for local dev."))
  else return env.secret

/-- The check of `lifespan` on startup. -/
def startup (env : Environment) : Proc (Process K) Unit := do
  let _ ← getSecretKey env
  return

def createSession (jwt : Jwt K) (str : PyVal K → String) (env : Environment)
    (agentId createdBy : String) (r : Creation K) : Proc (Process K) (ExecutionSession K) := do
  let secret ← getJwtSecret env
  on Process.sessions (fun sessions process => { process with sessions := sessions })
    (ExecutionAdapter.createSession (jwt.libraries str) (.ok secret) agentId createdBy r)

def unauthorized (detail : String) : VerifyError := .http ⟨401, detail, none⟩

/-- A configuration error passes the handlers of `verify_token`. -/
def onKey (env : Environment) : Procedures.Proc VerifyError (Process K) String :=
  ⟨fun process => (((getSecretKey env).run process).1.mapError .raised,
    ((getSecretKey env).run process).2)⟩

/-- The part of `verify_token` from `jwt.decode` on. -/
def checkToken (jwt : Jwt K) (token secret : String) : Except VerifyError (PyVal K) :=
  match jwt.decode token secret with
  | .error .expiredSignature => .error (unauthorized "Token expired")
  | .error .invalidToken => .error (unauthorized "Invalid token")
  | .error (.other e) => .error (.raised e)
  | .ok payload =>
    match payload.lookup "session_id" with
    | some sessionId =>
      if truthy sessionId then .ok sessionId
      else .error (unauthorized "Invalid token: missing session_id")
    | none => .error (unauthorized "Invalid token: missing session_id")

def verifyToken (jwt : Jwt K) (env : Environment) (authorization : String) :
    Procedures.Proc VerifyError (Process K) (PyVal K) :=
  match authorization.toList.dropPrefix? "Bearer ".toList with
  | none => raise (unauthorized "Invalid authorization header")
  | some token => do
    let secret ← onKey env
    ofExcept (checkToken jwt (String.ofList token) secret)

/-- The states of a process with this environment, after any of the three operations in any
order. -/
inductive Reached (jwt : Jwt K) (str : PyVal K → String) (env : Environment) :
    Process K → Prop where
  | start : Reached jwt str env ⟨none, none, .empty⟩
  | startup {process : Process K} (prior : Reached jwt str env process) :
      Reached jwt str env ((startup env).run process).2
  | create {process : Process K} (prior : Reached jwt str env process)
      (agentId createdBy : String) (r : Creation K) :
      Reached jwt str env ((createSession jwt str env agentId createdBy r).run process).2
  | verify {process : Process K} (prior : Reached jwt str env process) (authorization : String) :
      Reached jwt str env ((verifyToken jwt env authorization).run process).2

end Operations

/-! The caches hold what the environment gives. -/

section Caches

variable {K : Type} [Field K] [LinearOrder K] {env : Environment} {process : Process K}

structure Cached (env : Environment) (process : Process K) : Prop where
  secretKey : ∀ key, process.secretKey = some key → readSecretKey env = .ok key
  secretManager : ∀ manager, process.secretManager = some manager →
    manager = buildDefaultSecretManager env

/-- The key that `create_session` signs with. -/
def signingKey (env : Environment) : Except PyException String :=
  if env.secret = "" ∧ buildDefaultSecretManager env = .env ∧ ¬ env.isTesting then
    .error (configurationError
      ("JWT_SECRET is not configured. Provision via Secret Manager " ++
        "(GCP_PROJECT) or set JWT_SECRET for local dev."))
  else .ok env.secret

omit [Field K] in
theorem getSecretKey_cached (cached : Cached env process) :
    ((getSecretKey env).run process).1 = readSecretKey env ∧
      Cached env ((getSecretKey env).run process).2 := by
  cases hkey : process.secretKey with
  | some key =>
    have hrun : (getSecretKey env).run process = (.ok key, process) := by
      simp only [getSecretKey, bind_run, read_run, hkey, pure_run]
    rw [hrun]
    exact ⟨(cached.secretKey key hkey).symm, cached⟩
  | none =>
    rcases hread : readSecretKey env with e | key
    · have hrun : (getSecretKey env).run process = (.error e, process) := by
        simp only [getSecretKey, bind_run, read_run, hkey, ofExcept_run, hread]
      rw [hrun]
      exact ⟨rfl, cached⟩
    · have hrun : (getSecretKey env).run process =
          (.ok key, { process with secretKey := some key }) := by
        simp only [getSecretKey, bind_run, read_run, hkey, ofExcept_run, hread, modify_run,
          pure_run]
      rw [hrun]
      refine ⟨rfl, ?_, cached.secretManager⟩
      intro key' h
      obtain rfl := Option.some.inj h
      exact hread

omit [Field K] in
theorem defaultSecretManager_cached (cached : Cached env process) :
    ∃ process', (defaultSecretManager env).run process =
      (.ok (buildDefaultSecretManager env), process') ∧ Cached env process' := by
  cases hmanager : process.secretManager with
  | some manager =>
    obtain rfl := cached.secretManager manager hmanager
    refine ⟨process, ?_, cached⟩
    simp only [defaultSecretManager, bind_run, read_run, hmanager, pure_run]
  | none =>
    refine ⟨{ process with secretManager := some (buildDefaultSecretManager env) }, ?_,
      cached.secretKey, ?_⟩
    · simp only [defaultSecretManager, bind_run, read_run, hmanager, modify_run, pure_run]
    · intro manager h
      exact (Option.some.inj h).symm

omit [Field K] in
theorem getJwtSecret_cached (cached : Cached env process) :
    ∃ process', (getJwtSecret env).run process = (signingKey env, process') ∧
      Cached env process' := by
  obtain ⟨process', hrun, hcached⟩ := defaultSecretManager_cached cached
  refine ⟨process', ?_, hcached⟩
  rw [getJwtSecret, bind_ok hrun, signingKey]
  split_ifs <;> rfl

variable {jwt : Jwt K} {str : PyVal K → String}

/-- A created session is minted under the signing key. -/
theorem createSession_cached (cached : Cached env process) (agentId createdBy : String)
    (r : Creation K) :
    ((createSession jwt str env agentId createdBy r).run process).1 =
        mintSession (jwt.libraries str) (signingKey env) agentId createdBy r ∧
      Cached env ((createSession jwt str env agentId createdBy r).run process).2 := by
  obtain ⟨process', hrun, hcached⟩ := getJwtSecret_cached cached
  rcases hkey : signingKey env with e | key
  · rw [hkey] at hrun
    rw [createSession, bind_error hrun]
    exact ⟨rfl, hcached⟩
  · rw [hkey] at hrun
    rw [createSession, bind_ok hrun, on_run]
    constructor
    · rcases hmint : mintSession (jwt.libraries str) (.ok key) agentId createdBy r with e | session
      · simp [ExecutionAdapter.createSession, bind_run, hmint]
      · simp [ExecutionAdapter.createSession, bind_run, hmint]
    · exact ⟨hcached.secretKey, hcached.secretManager⟩

theorem verifyToken_cached (cached : Cached env process) (authorization : String) :
    Cached env ((verifyToken jwt env authorization).run process).2 := by
  unfold verifyToken
  cases authorization.toList.dropPrefix? "Bearer ".toList with
  | none => exact cached
  | some token =>
    obtain ⟨-, hcached⟩ := getSecretKey_cached cached
    rcases hkey : (onKey env).run process with ⟨e | key, process'⟩
    · have : process' = ((getSecretKey env).run process).2 := (congrArg Prod.snd hkey).symm
      simp only [bind_error hkey, this]
      exact hcached
    · have : process' = ((getSecretKey env).run process).2 := (congrArg Prod.snd hkey).symm
      simp only [bind_ok hkey, ofExcept_run, this]
      exact hcached

theorem Reached.cached (reached : Reached jwt str env process) : Cached env process := by
  induction reached with
  | start =>
    constructor
    · intro key h
      cases h
    · intro manager h
      cases h
  | @startup process prior ih =>
    obtain ⟨-, hcached⟩ := getSecretKey_cached ih
    unfold SigningKeys.startup
    rcases hkey : (getSecretKey env).run process with ⟨e | key, process'⟩
    · rw [hkey] at hcached
      rwa [bind_error hkey]
    · rw [hkey] at hcached
      rwa [bind_ok hkey]
  | create prior agentId createdBy r ih => exact (createSession_cached ih agentId createdBy r).2
  | verify prior authorization ih => exact verifyToken_cached ih authorization

omit [Field K] in
/-- Startup succeeds where the key can be read. -/
theorem startup_ok_iff (cached : Cached env process) :
    ((startup env).run process).1 = .ok () ↔ ∃ key, readSecretKey env = .ok key := by
  obtain ⟨hread, -⟩ := getSecretKey_cached cached
  unfold startup
  rcases hkey : (getSecretKey env).run process with ⟨e | key, process'⟩
  · rw [hkey] at hread
    rw [bind_error hkey, ← hread]
    simp
  · rw [hkey] at hread
    rw [bind_ok hkey, ← hread]
    simp

/-- A bearer token is checked under the key that startup read. -/
theorem verifyToken_bearer (cached : Cached env process) {key : String}
    (hread : readSecretKey env = .ok key) (token : String) :
    ((verifyToken jwt env ("Bearer " ++ token)).run process).1 = checkToken jwt token key := by
  obtain ⟨hkey, -⟩ := getSecretKey_cached cached
  have hdrop : ("Bearer " ++ token).toList.dropPrefix? "Bearer ".toList = some token.toList := by
    rw [List.dropPrefix?_eq_some_iff]
    exact ⟨"Bearer ".toList, String.toList_append, beq_self_eq_true _⟩
  have hrun : (onKey env).run process = (.ok key, ((getSecretKey env).run process).2) := by
    change (((getSecretKey env).run process).1.mapError VerifyError.raised, _) = _
    rw [hkey, hread]
    rfl
  unfold verifyToken
  simp only [hdrop, bind_ok hrun, ofExcept_run, String.ofList_toList]

end Caches

/-! One key signs and another may check. -/

section Keys

variable {K : Type} [Field K] [LinearOrder K] {env : Environment} {jwt : Jwt K}

/-- The token of a session decodes under the key that it was encoded with, and under no other. -/
structure Sound (jwt : Jwt K) : Prop where
  same : ∀ sessionId agentId key token, jwt.encode (claims sessionId agentId) key = .ok token →
    jwt.decode token key = .ok (claims sessionId agentId)
  other : ∀ sessionId agentId key key' token,
    jwt.encode (claims sessionId agentId) key = .ok token → key' ≠ key →
    ∃ e, jwt.decode token key' = .error e

/-- The token is signed under this key. -/
def SignedUnder (jwt : Jwt K) (token key : String) : Prop :=
  ∃ payload, jwt.decode token key = .ok payload

omit [Field K] [LinearOrder K] in
theorem signedUnder_iff (sound : Sound jwt) {sessionId agentId key token : String}
    (h : jwt.encode (claims sessionId agentId) key = .ok token) (key' : String) :
    SignedUnder jwt token key' ↔ key' = key := by
  constructor
  · rintro ⟨payload', hdecode⟩
    by_contra hne
    obtain ⟨e, herror⟩ := sound.other sessionId agentId key key' token h hne
    rw [hdecode] at herror
    cases herror
  · rintro rfl
    exact ⟨_, sound.same sessionId agentId key' token h⟩

/-- A minted token yields its session exactly under its own key. -/
theorem checkToken_iff (sound : Sound jwt) {sessionId agentId key token : String}
    (h : jwt.encode (claims sessionId agentId) key = .ok token) (hid : sessionId ≠ "")
    (key' : String) : checkToken jwt token key' = .ok (.str sessionId) ↔ key' = key := by
  constructor
  · intro accepted
    by_contra hne
    obtain ⟨e, herror⟩ := sound.other sessionId agentId key key' token h hne
    unfold checkToken at accepted
    rw [herror] at accepted
    cases e <;> cases accepted
  · rintro rfl
    have htruthy : truthy (.str sessionId : PyVal K) = true := by
      simpa [truthy] using hid
    have hlookup : (claims (K := K) sessionId agentId).lookup "session_id" =
        some (.str sessionId) := rfl
    unfold checkToken
    simp only [sound.same sessionId agentId key' token h, hlookup, if_pos htruthy]

/-- Both fallbacks are left aside exactly by a secret. -/
theorem keys_agree_iff {key key' : String} (hsign : signingKey env = .ok key)
    (hread : readSecretKey env = .ok key') :
    (key' = key ∧ (env.testing ≠ some "1" → key ≠ "")) ↔ env.secret ≠ "" := by
  have hkey : key = env.secret := by
    unfold signingKey at hsign
    split_ifs at hsign
    exact (Except.ok.inj hsign).symm
  subst hkey
  unfold readSecretKey at hread
  by_cases hempty : env.secret = ""
  · refine iff_of_false ?_ (not_not.mpr hempty)
    rintro ⟨hagree, hnonempty⟩
    by_cases htesting : env.testing = some "1"
    · have hflag : env.isTesting = true := decide_eq_true htesting
      simp only [hempty, if_true, hflag] at hread hagree
      obtain rfl := Except.ok.inj hread
      simp [INSECURE_TEST_KEY] at hagree
    · exact hnonempty htesting hempty
  · refine iff_of_true ⟨?_, fun _ => hempty⟩ hempty
    simp only [if_neg hempty] at hread
    split_ifs at hread
    exact (Except.ok.inj hread).symm

omit [Field K] [LinearOrder K] in
theorem newId_ne (r : Creation K) : newId r ≠ "" := by
  intro h
  have := congrArg String.toList h
  simp [newId, String.toList_append] at this

variable {str : PyVal K → String} {process process' process'' : Process K}

/-- In a process whose startup and creation succeed, the token is accepted for its session and
signed under a key, exactly if the secret is set. -/
theorem token_round_trip_iff (sound : Sound jwt) (reached : Reached jwt str env process)
    (starts : ((startup env).run process).1 = .ok ()) (reached' : Reached jwt str env process')
    {agentId createdBy : String} {r : Creation K} {session : ExecutionSession K}
    (creates : ((createSession jwt str env agentId createdBy r).run process').1 = .ok session)
    (reached'' : Reached jwt str env process'') :
    (((verifyToken jwt env ("Bearer " ++ session.executionToken)).run process'').1 =
          .ok (.str session.sessionId) ∧
        (env.testing ≠ some "1" → ¬ SignedUnder jwt session.executionToken "")) ↔
      ∃ secret, env.jwtSecret = some secret ∧ secret ≠ "" := by
  obtain ⟨key', hread⟩ := (startup_ok_iff reached.cached).mp starts
  rw [(createSession_cached reached'.cached agentId createdBy r).1] at creates
  obtain ⟨hid, -, -, -, key, hsign, hencode⟩ := mintSession_ok creates
  have hsession : session.sessionId ≠ "" := by
    rw [hid]
    exact newId_ne r
  rw [verifyToken_bearer reached''.cached hread, checkToken_iff sound hencode hsession,
    signedUnder_iff sound hencode]
  have hempty : (∃ secret, env.jwtSecret = some secret ∧ secret ≠ "") ↔ env.secret ≠ "" := by
    unfold Environment.secret
    cases env.jwtSecret with
    | none => simp
    | some secret => simp
  rw [hempty, ← keys_agree_iff hsign hread]
  simp only [ne_eq, eq_comm]

end Keys

/-! A process with a secret, and a test process without one. -/

section Sample

/-- The token of the same claims under the empty key. -/
def unkeyedToken : String :=
  "eyJhbGciOiJIUzI1NiIsInR5cCI6IkpXVCJ9" ++
    ".eyJzZXNzaW9uX2lkIjoic2Vzc2lvbl8wMTIzNDU2Nzg5YWIiLCJhZ2VudF9pZCI6ImFnZW50XzEifQ" ++
    ".h0XHzRNEodC6TifB2VpWdQ1DmLK65-e4JoKN7kwefxo"

def sampleTokens : List (String × String) := [(sampleSecret, sampleToken), ("", unkeyedToken)]

noncomputable def sampleJwt : Jwt ℝ where
  encode payload key :=
    match payload with
    | [("session_id", .str sessionId), ("agent_id", .str agentId)] =>
      if sessionId = "session_0123456789ab" ∧ agentId = "agent_1" then
        match sampleTokens.lookup key with
        | some token => .ok token
        | none => .error (.other "NotImplementedError" "")
      else .error (.other "NotImplementedError" "")
    | _ => .error (.other "NotImplementedError" "")
  decode token key :=
    if sampleTokens.lookup key = some token then .ok (claims "session_0123456789ab" "agent_1")
    else .error .invalidToken

theorem sampleJwt_encode {payload : List (String × PyVal ℝ)} {key token : String}
    (h : sampleJwt.encode payload key = .ok token) :
    payload = claims "session_0123456789ab" "agent_1" ∧ sampleTokens.lookup key = some token := by
  simp only [sampleJwt] at h
  split at h
  · split_ifs at h with hids
    obtain ⟨rfl, rfl⟩ := hids
    split at h
    · obtain rfl := Except.ok.inj h
      exact ⟨rfl, by assumption⟩
    · cases h
  · cases h

theorem lookup_sampleTokens {key token : String} (h : sampleTokens.lookup key = some token) :
    key = sampleSecret ∧ token = sampleToken ∨ key = "" ∧ token = unkeyedToken := by
  simp only [sampleTokens, List.lookup_cons, List.lookup_nil] at h
  split at h
  · rename_i hkey
    exact .inl ⟨eq_of_beq hkey, (Option.some.inj h).symm⟩
  · split at h
    · rename_i hkey
      exact .inr ⟨eq_of_beq hkey, (Option.some.inj h).symm⟩
    · cases h

theorem sampleTokens_injective {key key' token : String}
    (h : sampleTokens.lookup key = some token) (h' : sampleTokens.lookup key' = some token) :
    key' = key := by
  have hne : sampleToken ≠ unkeyedToken := by decide +kernel
  rcases lookup_sampleTokens h with ⟨rfl, rfl⟩ | ⟨rfl, rfl⟩
  · rcases lookup_sampleTokens h' with ⟨rfl, -⟩ | ⟨-, htoken⟩
    · rfl
    · exact absurd htoken hne
  · rcases lookup_sampleTokens h' with ⟨-, htoken⟩ | ⟨rfl, -⟩
    · exact absurd htoken hne.symm
    · rfl

theorem sampleJwt_sound : Sound sampleJwt := by
  constructor
  · intro sessionId agentId key token h
    obtain ⟨hclaims, hlookup⟩ := sampleJwt_encode h
    rw [hclaims]
    exact if_pos hlookup
  · intro sessionId agentId key key' token h hne
    obtain ⟨-, hlookup⟩ := sampleJwt_encode h
    exact ⟨.invalidToken, if_neg fun h' => hne (sampleTokens_injective hlookup h')⟩

noncomputable def sampleStr (_ : PyVal ℝ) : String := "\x7b\x7d"

noncomputable def sampleSession (token : String) : ExecutionSession ℝ :=
  ⟨"session_0123456789ab", "agent_1", token, .active, 0, 0 + DEFAULT_TTL_SECONDS, [], "admin", [],
    sample_start⟩

theorem sample_creates {env : Environment} {key token : String} (hkey : signingKey env = .ok key)
    (h : sampleTokens.lookup key = some token) :
    ((createSession sampleJwt sampleStr env "agent_1" "admin" (sampleCreation 0 0)).run
      ⟨none, none, .empty⟩).1 = .ok (sampleSession token) := by
  have unstarted : Reached sampleJwt sampleStr env ⟨none, none, .empty⟩ := .start
  have cached := unstarted.cached
  have hencode : (sampleJwt.libraries sampleStr).encode
      (claims (newId (sampleCreation (0 : ℝ) 0)) "agent_1") key = .ok token := by
    rw [newId_sampleCreation]
    simp [Jwt.libraries, sampleJwt, claims, h]
  rw [(createSession_cached cached "agent_1" "admin" (sampleCreation 0 0)).1, hkey,
    mintSession_of_encode hencode]
  have hstart : (sampleCreation (0 : ℝ) 0).startedAt <
      (sampleCreation (0 : ℝ) 0).expiryFrom + DEFAULT_TTL_SECONDS := sample_start
  unfold newSession
  rw [dif_pos hstart]
  simp only [newId_sampleCreation]
  rfl

def keyedEnvironment : Environment := ⟨some sampleSecret, none, none, none⟩
def testEnvironment : Environment := ⟨none, some "1", none, none⟩

theorem token_round_trip_iff_sample :
    ((verifyToken sampleJwt keyedEnvironment ("Bearer " ++ sampleToken)).run
        ⟨none, none, .empty⟩).1 = .ok (.str "session_0123456789ab") ∧
      ¬ SignedUnder sampleJwt sampleToken "" := by
  have reached : Reached sampleJwt sampleStr keyedEnvironment ⟨none, none, .empty⟩ := .start
  have hread : readSecretKey keyedEnvironment = .ok sampleSecret := by decide +kernel
  have hsign : signingKey keyedEnvironment = .ok sampleSecret := by decide +kernel
  have starts := (startup_ok_iff reached.cached).mpr ⟨_, hread⟩
  have set : ∃ secret, keyedEnvironment.jwtSecret = some secret ∧ secret ≠ "" :=
    ⟨sampleSecret, rfl, by decide +kernel⟩
  have plain : keyedEnvironment.testing ≠ some "1" := by simp [keyedEnvironment]
  -- For a token that stays a variable nothing is evaluated.
  have round_trip : ∀ token, sampleTokens.lookup sampleSecret = some token →
      ((verifyToken sampleJwt keyedEnvironment ("Bearer " ++ token)).run
          ⟨none, none, .empty⟩).1 = .ok (.str "session_0123456789ab") ∧
        ¬ SignedUnder sampleJwt token "" := by
    intro token hlookup
    have creates := sample_creates hsign hlookup
    obtain ⟨accepted, unsigned⟩ :=
      (token_round_trip_iff sampleJwt_sound reached starts reached creates reached).mpr set
    exact ⟨accepted, unsigned plain⟩
  exact round_trip sampleToken (by decide +kernel)

/-- Without a secret a test process signs under the empty key and checks under another. -/
theorem test_token_rejected : ∃ process : Process ℝ,
    Reached sampleJwt sampleStr testEnvironment process ∧
    ((startup testEnvironment).run process).1 = .ok () ∧
    ∃ session, ((createSession sampleJwt sampleStr testEnvironment "agent_1" "admin"
        (sampleCreation 0 0)).run process).1 = .ok session ∧
      ((verifyToken sampleJwt testEnvironment ("Bearer " ++ session.executionToken)).run
        process).1 ≠ .ok (.str session.sessionId) := by
  have reached : Reached sampleJwt sampleStr testEnvironment ⟨none, none, .empty⟩ := .start
  have hread : readSecretKey testEnvironment = .ok INSECURE_TEST_KEY := by
    simp [readSecretKey, Environment.secret, Environment.isTesting, testEnvironment]
  have hsign : signingKey testEnvironment = .ok "" := by decide +kernel
  have hlookup : sampleTokens.lookup "" = some unkeyedToken := by decide +kernel
  have hencode : sampleJwt.encode (claims "session_0123456789ab" "agent_1") "" =
      .ok unkeyedToken := by simp [sampleJwt, claims, hlookup]
  refine ⟨_, reached, (startup_ok_iff reached.cached).mpr ⟨_, hread⟩, _,
    sample_creates hsign hlookup, fun accepted => ?_⟩
  rw [verifyToken_bearer reached.cached hread] at accepted
  have agree := (checkToken_iff sampleJwt_sound hencode (by decide) _).mp accepted
  simp [INSECURE_TEST_KEY] at agree

end Sample

end SigningKeys
