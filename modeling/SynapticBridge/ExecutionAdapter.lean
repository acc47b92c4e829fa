import SynapticBridge.ExecuteToolRuns

/-! `InMemoryExecutionAdapter`: sessions in a table, their tokens, and a `get_session` that
stores what it finds expired. JWT and the printing of parameters are parameters. -/
namespace ExecutionAdapter

open Domain CorrectionPatterns OrderedDict Ports ExecuteTool ExecuteToolRuns
open Procedures.Proc

/-- `jwt.InvalidTokenError` is the one exception that `validate_token` handles. -/
inductive JwtError where
  | invalidToken
  | other (e : PyException)

/-- `jwt.encode` and `jwt.decode` with HS256, and `str` of a value. -/
structure Libraries (K : Type) where
  encode : List (String × PyVal K) → String → Except PyException String
  decode : String → String → Except JwtError (List (String × PyVal K))
  str : PyVal K → String

abbrev Sessions (K : Type) [LT K] := Dict String (ExecutionSession K)

/-- The random digits and the two clock readings of a creation. -/
structure Creation (K : Type) where
  hex : String
  startedAt : K
  expiryFrom : K

/-- The readings of a lookup: its own check, the end it may record, and the caller's
`is_active` on what it returns. -/
structure Lookup (K : Type) where
  checkedAt : K
  endedAt : K
  activeAt : K

section Adapter

variable {K : Type} [Field K] [LinearOrder K] (libs : Libraries K)

def claims (sessionId agentId : String) : List (String × PyVal K) :=
  [("session_id", .str sessionId), ("agent_id", .str agentId)]

def newId (r : Creation K) : String := "session_" ++ hexPrefix 12 r.hex

/-- The constructor with its check. -/
def newSession (token agentId createdBy : String) (r : Creation K) :
    Except PyException (ExecutionSession K) :=
  if h : r.startedAt < r.expiryFrom + DEFAULT_TTL_SECONDS then
    .ok ⟨newId r, agentId, token, .active, r.startedAt, r.expiryFrom + DEFAULT_TTL_SECONDS, [],
      createdBy, [], h⟩
  else .error (.valueError "Expiration must be after start")

/-- The session that a creation makes, before it is stored. -/
def mintSession (secret : Except PyException String) (agentId createdBy : String)
    (r : Creation K) : Except PyException (ExecutionSession K) := do
  let secret ← secret
  let token ← libs.encode (claims (newId r) agentId) secret
  newSession token agentId createdBy r

def createSession (secret : Except PyException String) (agentId createdBy : String)
    (r : Creation K) : Proc (Sessions K) (ExecutionSession K) := do
  let session ← ofExcept (mintSession libs secret agentId createdBy r)
  modify fun sessions => sessions.set session.sessionId session
  return session

def getSession (sessionId : String) (r : Lookup K) :
    Proc (Sessions K) (Option (ExecutionSession K)) := do
  match (← read).get? sessionId with
  | none => return none
  | some session =>
    if session.isExpired r.checkedAt then do
      let expired := session.expire r.endedAt
      modify fun sessions => sessions.set sessionId expired
      return some expired
    else return some session

/-- `get_session(payload["session_id"])`: a key that is no text finds nothing. -/
def claimedSession (payload : List (String × PyVal K)) (r : Lookup K) :
    Proc (Sessions K) (Option (ExecutionSession K)) :=
  match payload.lookup "session_id" with
  | none => raise (.keyError "session_id")
  | some (.str sessionId) => getSession sessionId r
  | some (.list _) => raise (.typeError "unhashable type: 'list'")
  | some (.dict _) => raise (.typeError "unhashable type: 'dict'")
  | some _ => pure none

def validateToken (secret : Except PyException String) (token : String) (r : Lookup K) :
    Proc (Sessions K) Bool := do
  let secret ← ofExcept secret
  match libs.decode token secret with
  | .error .invalidToken => return false
  | .error (.other e) => raise e
  | .ok payload => do
    match ← claimedSession payload r with
    | none => return false
    | some session => return session.isActive r.activeAt

def executeTool (_session : ExecutionSession K) (toolName : String) (parameters : PyVal K) :
    Proc (Sessions K) (PyVal K) :=
  pure (.dict [("success", .bool true), ("tool", .str toolName),
    ("result", .str s!"Executed {toolName} with params {libs.str parameters}"),
    ("execution_time_ms", .float (21 / 2))])

/-- The adapter as the execution port of one command, which looks a session up once. -/
def executionPort (r : Lookup K) : ExecutionPort K (Sessions K) where
  getSession sessionId := getSession sessionId r
  executeTool := executeTool libs

end Adapter

section Create

variable {K : Type} [Field K] [LinearOrder K] {X R A C S : Type}

structure CreateSessionCommand where
  agentId : String
  createdBy : String
  ttlSeconds : ℤ := DEFAULT_TTL_SECONDS

/-- Every domain event of an aggregate is audited, in order. -/
def flushDomainEvents (auditLog : AuditLogPort K A) :
    List (DomainEvent K) → Proc (World K X R A C S) Unit
  | [] => pure ()
  | event :: rest => do
    writeAudit auditLog event
    flushDomainEvents auditLog rest

/-- `CreateSessionCommand.execute` on a port with the given `create_session`. -/
def CreateSessionCommand.execute (cmd : CreateSessionCommand)
    (createSession : String → String → Proc X (ExecutionSession K)) (auditLog : AuditLogPort K A) :
    Proc (World K X R A C S) (ExecutionSession K) := do
  let session ← onExecution (createSession cmd.agentId cmd.createdBy)
  flushDomainEvents auditLog session.domainEvents
  return session

end Create

section Effects

variable {K : Type} [Field K] [LinearOrder K] {libs : Libraries K}

/-- What a created session is. -/
structure Minted (libs : Libraries K) (secret : Except PyException String) (r : Creation K)
    (session : ExecutionSession K) : Prop where
  sessionId : session.sessionId = newId r
  status : session.status = .active
  expiresAt : session.expiresAt = r.expiryFrom + DEFAULT_TTL_SECONDS
  domainEvents : session.domainEvents = []
  token : ∃ key, secret = .ok key ∧
    libs.encode (claims session.sessionId session.agentId) key = .ok session.executionToken

theorem mintSession_of_encode {key token agentId : String} {r : Creation K}
    (h : libs.encode (claims (newId r) agentId) key = .ok token) (createdBy : String) :
    mintSession libs (.ok key) agentId createdBy r = newSession token agentId createdBy r := by
  change (libs.encode (claims (newId r) agentId) key >>= _) = _
  rw [h]
  rfl

theorem mintSession_ok {secret : Except PyException String} {agentId createdBy : String}
    {r : Creation K} {session : ExecutionSession K}
    (h : mintSession libs secret agentId createdBy r = .ok session) :
    Minted libs secret r session := by
  rcases secret with e | key
  · cases h
  rcases htoken : libs.encode (claims (newId r) agentId) key with e | token
  · change (libs.encode (claims (newId r) agentId) key >>= _) = _ at h
    rw [htoken] at h
    cases h
  rw [mintSession_of_encode htoken] at h
  unfold newSession at h
  split_ifs at h
  obtain rfl := Except.ok.inj h
  exact ⟨rfl, rfl, rfl, rfl, key, rfl, htoken⟩

/-- What a lookup returns. -/
def seen (sessions : Sessions K) (sessionId : String) (r : Lookup K) :
    Option (ExecutionSession K) :=
  (sessions.get? sessionId).map fun session =>
    if session.isExpired r.checkedAt then session.expire r.endedAt else session

/-- The table after a lookup. -/
def afterLookup (sessions : Sessions K) (sessionId : String) (r : Lookup K) : Sessions K :=
  match sessions.get? sessionId with
  | none => sessions
  | some session =>
    if session.isExpired r.checkedAt then sessions.set sessionId (session.expire r.endedAt)
    else sessions

theorem getSession_run (sessions : Sessions K) (sessionId : String) (r : Lookup K) :
    (getSession sessionId r).run sessions =
      (.ok (seen sessions sessionId r), afterLookup sessions sessionId r) := by
  unfold getSession seen afterLookup
  rcases hget : sessions.get? sessionId with _ | session
  · simp only [bind_run, read_run, hget]
    rfl
  · by_cases expired : session.isExpired r.checkedAt = true
    · simp only [bind_run, read_run, hget, if_pos expired, Option.map_some]
      rfl
    · simp only [bind_run, read_run, hget, if_neg expired, Option.map_some]
      rfl

/-- A lookup touches its own entry only. -/
theorem get?_afterLookup (sessions : Sessions K) (sessionId x : String) (r : Lookup K) :
    (afterLookup sessions sessionId r).get? x =
      if x = sessionId then seen sessions sessionId r else sessions.get? x := by
  unfold afterLookup seen
  rcases hget : sessions.get? sessionId with _ | session
  · by_cases hx : x = sessionId
    · rw [if_pos hx, hx, hget]
      rfl
    · rw [if_neg hx]
  · by_cases expired : session.isExpired r.checkedAt = true
    · simp only [if_pos expired, Option.map_some]
      exact Dict.get?_set _ _ _ _
    · simp only [if_neg expired, Option.map_some]
      by_cases hx : x = sessionId
      · rw [if_pos hx, hx, hget]
      · rw [if_neg hx]

/-- The session that a payload names by a text. -/
def sessionClaim (payload : List (String × PyVal K)) : Option String :=
  match payload.lookup "session_id" with
  | some (.str sessionId) => some sessionId
  | _ => none

/-- The session that a token names, if the token is accepted. -/
def claimedId (libs : Libraries K) (secret : Except PyException String) (token : String) :
    Option String :=
  match secret with
  | .error _ => none
  | .ok key =>
    match libs.decode token key with
    | .error _ => none
    | .ok payload => sessionClaim payload

/-- The table after the lookup of a session that may be named. -/
def afterClaim (sessions : Sessions K) (claim : Option String) (r : Lookup K) : Sessions K :=
  match claim with
  | none => sessions
  | some sessionId => afterLookup sessions sessionId r

theorem claimedSession_after (sessions : Sessions K) (payload : List (String × PyVal K))
    (r : Lookup K) : ((claimedSession payload r).run sessions).2 =
      afterClaim sessions (sessionClaim payload) r := by
  unfold claimedSession sessionClaim
  rcases payload.lookup "session_id" with _ | value
  · rfl
  · cases value with
    | str sessionId =>
      rw [getSession_run]
      rfl
    | none | bool | int | float | infinity | nan | list | dict => rfl

/-- A token check leaves the table as its lookup does. -/
theorem validateToken_after (sessions : Sessions K) (secret : Except PyException String)
    (token : String) (r : Lookup K) : ((validateToken libs secret token r).run sessions).2 =
      afterClaim sessions (claimedId libs secret token) r := by
  unfold validateToken claimedId
  rcases secret with e | key
  · rfl
  rw [bind_ok (ofExcept_run _ _)]
  rcases hdecode : libs.decode token key with e | payload
  · cases e with
    | invalidToken =>
      simp only [hdecode]
      rfl
    | other e =>
      simp only [hdecode]
      rfl
  · have hclaimed := claimedSession_after sessions payload r
    simp only [hdecode]
    rcases hrun : (claimedSession payload r).run sessions with ⟨e | found, sessions'⟩
    · rw [bind_error hrun]
      rw [hrun] at hclaimed
      exact hclaimed
    · rw [bind_ok hrun]
      rw [hrun] at hclaimed
      cases found with
      | none => exact hclaimed
      | some session => exact hclaimed

/-- An accepted token that names a session answers whether that session is active. -/
theorem validateToken_result {key token sessionId : String} {payload : List (String × PyVal K)}
    (accepted : libs.decode token key = .ok payload)
    (claim : payload.lookup "session_id" = some (.str sessionId)) (sessions : Sessions K)
    (r : Lookup K) : ((validateToken libs (.ok key) token r).run sessions).1 =
      .ok (((seen sessions sessionId r).map (·.isActive r.activeAt)).getD false) := by
  have hclaimed : claimedSession payload r = getSession sessionId r := by
    unfold claimedSession
    rw [claim]
  unfold validateToken
  rw [bind_ok (ofExcept_run _ _)]
  simp only [accepted]
  rw [hclaimed, bind_ok (getSession_run _ _ _)]
  cases seen sessions sessionId r with
  | none => rfl
  | some session => rfl

/-- A command given to this adapter, at the readings of its lookup. -/
def onAdapter {R A C S : Type} (libs : Libraries K) (call : Invocation K (Sessions K) R A C S)
    (r : Lookup K) (sessions : Sessions K) : Invocation K (Sessions K) R A C S :=
  { call with
    ports := { call.ports with execution := executionPort libs r }
    readings := { call.readings with sessionNow := r.activeAt }
    world := { call.world with execution := sessions } }

theorem command_after {R A C S : Type} [PyMath K] (call : Invocation K (Sessions K) R A C S)
    (r : Lookup K) (sessions : Sessions K) :
    (onAdapter libs call r sessions).after.execution =
      afterLookup sessions call.cmd.sessionId r := by
  have keeps : ∀ s t ps x, (((executionPort libs r).executeTool s t ps).run x).2 = x :=
    fun _ _ _ _ => rfl
  refine (execute_execution keeps _ _ _ _).trans ?_
  exact congrArg Prod.snd (getSession_run sessions call.cmd.sessionId r)

theorem createSession_run (sessions : Sessions K) (secret : Except PyException String)
    (agentId createdBy : String) (r : Creation K) :
    (createSession libs secret agentId createdBy r).run sessions =
      match mintSession libs secret agentId createdBy r with
      | .error e => (.error e, sessions)
      | .ok session => (.ok session, sessions.set session.sessionId session) := by
  unfold createSession
  rw [bind_run, ofExcept_run]
  rcases mintSession libs secret agentId createdBy r with e | session
  · rfl
  · rfl

theorem flushDomainEvents_execution {X R A C S : Type} (auditLog : AuditLogPort K A)
    (events : List (DomainEvent K)) (w : World K X R A C S) :
    ((flushDomainEvents auditLog events).run w).2.execution = w.execution := by
  induction events generalizing w with
  | nil => rfl
  | cons event rest ih =>
    unfold flushDomainEvents
    rw [bind_run, writeAudit_run]
    rcases (auditLog.write event).run w.audit with ⟨e | u, a⟩
    · rfl
    · exact ih _

/-- Through the command, a creation does to the table what the adapter's own does. -/
theorem createCommand_execution {X R A C S : Type} (cmd : CreateSessionCommand)
    (createSession : String → String → Proc X (ExecutionSession K)) (auditLog : AuditLogPort K A)
    (w : World K X R A C S) : ((cmd.execute createSession auditLog).run w).2.execution =
      ((createSession cmd.agentId cmd.createdBy).run w.execution).2 := by
  unfold CreateSessionCommand.execute
  rcases hrun : (createSession cmd.agentId cmd.createdBy).run w.execution with ⟨e | session, x⟩
  · rw [bind_run, onExecution_run, hrun]
  · rw [bind_run, onExecution_run, hrun]
    have hflush := flushDomainEvents_execution auditLog session.domainEvents
      { w with execution := x }
    change ((flushDomainEvents auditLog session.domainEvents >>= _).run
      { w with execution := x }).2.execution = x
    rcases hsent : (flushDomainEvents auditLog session.domainEvents).run
      { w with execution := x } with ⟨e | u, w'⟩
    · rw [bind_error hsent]
      rw [hsent] at hflush
      exact hflush
    · rw [bind_ok hsent]
      rw [hsent] at hflush
      exact hflush

end Effects

/-! One secret and the token under it for one session. -/

section Sample

variable {K : Type} [Field K] [LinearOrder K]

def sampleSecret : String := "test-jwt-secret-for-testing-only-minimum-length"

def sampleToken : String :=
  "eyJhbGciOiJIUzI1NiIsInR5cCI6IkpXVCJ9" ++
    ".eyJzZXNzaW9uX2lkIjoic2Vzc2lvbl8wMTIzNDU2Nzg5YWIiLCJhZ2VudF9pZCI6ImFnZW50XzEifQ" ++
    ".kDbsRbScC0s8ZFByzV4fmGs9WsbgBMYwHUfoIFzKgYQ"

def sampleLibs : Libraries K where
  encode payload key :=
    match payload with
    | [("session_id", .str sessionId), ("agent_id", .str agentId)] =>
      if sessionId = "session_0123456789ab" ∧ agentId = "agent_1" ∧ key = sampleSecret then
        .ok sampleToken
      else .error (.other "NotImplementedError" "")
    | _ => .error (.other "NotImplementedError" "")
  decode token key :=
    if token = sampleToken ∧ key = sampleSecret then
      .ok (claims "session_0123456789ab" "agent_1")
    else .error .invalidToken
  str _ := "\x7b\x7d"

def sampleCreation (startedAt expiryFrom : K) : Creation K :=
  ⟨"0123456789abcdef0123456789abcdef", startedAt, expiryFrom⟩

def mintedSample {startedAt expiryFrom : K} (h : startedAt < expiryFrom + DEFAULT_TTL_SECONDS) :
    ExecutionSession K :=
  ⟨"session_0123456789ab", "agent_1", sampleToken, .active, startedAt,
    expiryFrom + DEFAULT_TTL_SECONDS, [], "admin", [], h⟩

omit [Field K] [LinearOrder K] in
theorem newId_sampleCreation (startedAt expiryFrom : K) :
    newId (sampleCreation startedAt expiryFrom) = "session_0123456789ab" := by
  change "session_" ++ hexPrefix 12 "0123456789abcdef0123456789abcdef" = "session_0123456789ab"
  decide

theorem sample_minted {startedAt expiryFrom : K}
    (h : startedAt < expiryFrom + DEFAULT_TTL_SECONDS) :
    mintSession sampleLibs (.ok sampleSecret) "agent_1" "admin"
        (sampleCreation startedAt expiryFrom) = .ok (mintedSample h) := by
  have hencode : (sampleLibs : Libraries K).encode
      (claims (newId (sampleCreation startedAt expiryFrom)) "agent_1") sampleSecret =
        .ok sampleToken := by
    rw [newId_sampleCreation]
    simp [sampleLibs, claims]
  rw [mintSession_of_encode hencode]
  unfold newSession
  have hstart : (sampleCreation startedAt expiryFrom).startedAt <
      (sampleCreation startedAt expiryFrom).expiryFrom + DEFAULT_TTL_SECONDS := h
  rw [dif_pos hstart]
  simp only [newId_sampleCreation]
  rfl

theorem sample_start : (0 : ℝ) < 0 + DEFAULT_TTL_SECONDS := by
  norm_num [DEFAULT_TTL_SECONDS]

theorem sample_expired {now : ℝ} (h : 900 ≤ now) :
    (mintedSample sample_start).isExpired now = true := by
  simpa [ExecutionSession.isExpired, mintedSample, DEFAULT_TTL_SECONDS] using h

end Sample

end ExecutionAdapter
