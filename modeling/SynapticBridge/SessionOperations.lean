import SynapticBridge.ExecutionAdapter

/-! What is done to one `InMemoryExecutionAdapter`. Whatever the operation, it stores a new
session, looks one session up or leaves the table alone. -/
namespace SessionOperations

open Domain CorrectionPatterns OrderedDict Ports ExecuteTool ExecuteToolRuns ExecutionAdapter

variable {K : Type} [Field K] [LinearOrder K] {R A C S : Type}

/-- Creations (directly or by a command), lookups, token checks and tool commands, each with
what it draws from the clock and the random source. -/
inductive Operation (K : Type) [Field K] [LinearOrder K] (R A C S : Type) where
  | create (secret : Except PyException String) (agentId createdBy : String) (r : Creation K)
  | createCommand (secret : Except PyException String) (cmd : CreateSessionCommand)
      (audit : AuditLogPort K A) (world : World K (Sessions K) R A C S) (r : Creation K)
  | lookup (sessionId : String) (r : Lookup K)
  | validate (secret : Except PyException String) (token : String) (r : Lookup K)
  | command (call : Invocation K (Sessions K) R A C S) (r : Lookup K)

/-- The table that an operation leaves. -/
def Operation.after [PyMath K] (libs : Libraries K) (op : Operation K R A C S)
    (sessions : Sessions K) : Sessions K :=
  match op with
  | .create secret agentId createdBy r =>
    ((createSession libs secret agentId createdBy r).run sessions).2
  | .createCommand secret cmd audit world r =>
    ((cmd.execute (fun agentId createdBy => createSession libs secret agentId createdBy r)
      audit).run { world with execution := sessions }).2.execution
  | .lookup sessionId r => ((getSession sessionId r).run sessions).2
  | .validate secret token r => ((validateToken libs secret token r).run sessions).2
  | .command call r => (onAdapter libs call r sessions).after.execution

def Creation.Timed (clock : K) (r : Creation K) (clock' : K) : Prop :=
  clock ≤ r.startedAt ∧ r.startedAt ≤ r.expiryFrom ∧ r.expiryFrom ≤ clock'

def Lookup.Timed (clock : K) (r : Lookup K) (clock' : K) : Prop :=
  clock ≤ r.checkedAt ∧ r.checkedAt ≤ r.endedAt ∧ r.endedAt ≤ r.activeAt ∧ r.activeAt ≤ clock'

/-- The readings of a command after its session check. -/
def Readings.Timed (clock : K) (r : Readings K) (clock' : K) : Prop :=
  (clock ≤ r.violationAt ∧ r.violationAt ≤ clock') ∧
  (∀ i, clock ≤ r.scoreNow i ∧ r.scoreNow i ≤ r.scoreNow (i + 1) ∧
    r.scoreNow i ≤ r.interceptionAt) ∧
  clock ≤ r.interceptionAt ∧ r.interceptionAt ≤ r.callAt ∧ r.callAt ≤ clock'

/-- The clock does not run back from `clock` over the readings to `clock'`. -/
def Operation.Timed (clock : K) (op : Operation K R A C S) (clock' : K) : Prop :=
  match op with
  | .create _ _ _ r => Creation.Timed clock r clock'
  | .createCommand _ _ _ _ r => Creation.Timed clock r clock'
  | .lookup _ r => Lookup.Timed clock r clock'
  | .validate _ _ r => Lookup.Timed clock r clock'
  | .command call r =>
    Lookup.Timed clock r clock' ∧ Readings.Timed r.activeAt call.readings clock'

/-- The session that an operation creates, if it does. -/
def Operation.mints (libs : Libraries K) (op : Operation K R A C S) :
    Option (ExecutionSession K) :=
  match op with
  | .create secret agentId createdBy r => (mintSession libs secret agentId createdBy r).toOption
  | .createCommand secret cmd _ _ r =>
    (mintSession libs secret cmd.agentId cmd.createdBy r).toOption
  | _ => none

/-- The session that an operation looks up, if it does, and when. -/
def Operation.looksUp (libs : Libraries K) (op : Operation K R A C S) :
    Option (String × Lookup K) :=
  match op with
  | .lookup sessionId r => some (sessionId, r)
  | .validate secret token r => (claimedId libs secret token).map fun sessionId => (sessionId, r)
  | .command call r => some (call.cmd.sessionId, r)
  | _ => none

omit [Field K] in
theorem Creation.Timed.le {clock clock' : K} {r : Creation K} (h : Creation.Timed clock r clock') :
    clock ≤ clock' :=
  h.1.trans (h.2.1.trans h.2.2)

omit [Field K] in
theorem Lookup.Timed.le {clock clock' : K} {r : Lookup K} (h : Lookup.Timed clock r clock') :
    clock ≤ clock' :=
  h.1.trans (h.2.1.trans (h.2.2.1.trans h.2.2.2))

theorem Operation.Timed.le {clock clock' : K} {op : Operation K R A C S}
    (h : op.Timed clock clock') : clock ≤ clock' := by
  cases op with
  | create => exact Creation.Timed.le h
  | createCommand => exact Creation.Timed.le h
  | lookup => exact Lookup.Timed.le h
  | validate => exact Lookup.Timed.le h
  | command => exact Lookup.Timed.le h.1

theorem Operation.Timed.lookup {libs : Libraries K} {clock clock' : K} {op : Operation K R A C S}
    {sessionId : String} {r : Lookup K} (h : op.Timed clock clock')
    (looks : op.looksUp libs = some (sessionId, r)) : Lookup.Timed clock r clock' := by
  cases op with
  | create => cases looks
  | createCommand => cases looks
  | lookup x r =>
    obtain ⟨-, rfl⟩ := Prod.mk.inj (Option.some.inj looks)
    exact h
  | validate secret token r =>
    obtain ⟨x, -, hpair⟩ := Option.map_eq_some_iff.mp looks
    obtain ⟨-, rfl⟩ := Prod.mk.inj hpair
    exact h
  | command call r =>
    obtain ⟨-, rfl⟩ := Prod.mk.inj (Option.some.inj looks)
    exact h.1

/-- Where an operation may store a session: its own entry, or the one it looked up. -/
def stored (sessions : Sessions K) (minted : Option (ExecutionSession K))
    (lookup : Option (String × Lookup K)) : Sessions K :=
  match minted, lookup with
  | some session, _ => sessions.set session.sessionId session
  | none, some (sessionId, r) => afterLookup sessions sessionId r
  | none, none => sessions

theorem create_after (libs : Libraries K) (secret : Except PyException String)
    (agentId createdBy : String) (r : Creation K) (sessions : Sessions K) :
    ((createSession libs secret agentId createdBy r).run sessions).2 =
      stored sessions (mintSession libs secret agentId createdBy r).toOption none := by
  rw [createSession_run]
  cases mintSession libs secret agentId createdBy r with
  | error e => rfl
  | ok session => rfl

/-- The whole effect of an operation on the table. -/
theorem Operation.after_eq [PyMath K] (libs : Libraries K) (op : Operation K R A C S)
    (sessions : Sessions K) :
    op.after libs sessions = stored sessions (op.mints libs) (op.looksUp libs) := by
  cases op with
  | create secret agentId createdBy r => exact create_after libs secret agentId createdBy r sessions
  | createCommand secret cmd audit world r =>
    refine (createCommand_execution _ _ _ _).trans ?_
    exact create_after libs secret cmd.agentId cmd.createdBy r sessions
  | lookup sessionId r => exact congrArg Prod.snd (getSession_run sessions sessionId r)
  | validate secret token r =>
    refine (validateToken_after sessions secret token r).trans ?_
    change _ = stored sessions none
      ((claimedId libs secret token).map fun sessionId => (sessionId, r))
    cases claimedId libs secret token with
    | none => rfl
    | some sessionId => rfl
  | command call r => exact command_after call r sessions

theorem create_minted {libs : Libraries K} {secret : Except PyException String}
    {agentId createdBy : String} {r : Creation K} {session : ExecutionSession K}
    (h : (mintSession libs secret agentId createdBy r).toOption = some session) :
    Minted libs secret r session := by
  rcases hmint : mintSession libs secret agentId createdBy r with e | minted
  · rw [hmint] at h
    cases h
  · rw [hmint] at h
    obtain rfl := Option.some.inj h
    exact mintSession_ok hmint

theorem Operation.mints_minted {libs : Libraries K} {op : Operation K R A C S}
    {session : ExecutionSession K} (h : op.mints libs = some session) :
    ∃ secret r, Minted libs secret r session := by
  cases op with
  | create secret agentId createdBy r => exact ⟨secret, r, create_minted h⟩
  | createCommand secret cmd audit world r => exact ⟨secret, r, create_minted h⟩
  | lookup => cases h
  | validate => cases h
  | command => cases h

/-- No operation creates a session and looks one up. -/
theorem Operation.looksUp_mints {libs : Libraries K} {op : Operation K R A C S}
    {lookup : String × Lookup K} (h : op.looksUp libs = some lookup) : op.mints libs = none := by
  cases op with
  | create => cases h
  | createCommand => cases h
  | lookup => rfl
  | validate => rfl
  | command => rfl

theorem Operation.after_lookup [PyMath K] {libs : Libraries K} {op : Operation K R A C S}
    {sessionId : String} {r : Lookup K} (h : op.looksUp libs = some (sessionId, r))
    (sessions : Sessions K) : op.after libs sessions = afterLookup sessions sessionId r := by
  rw [Operation.after_eq, op.looksUp_mints h, h]
  rfl

theorem Operation.after_mint [PyMath K] {libs : Libraries K} {op : Operation K R A C S}
    {session : ExecutionSession K} (h : op.mints libs = some session) (sessions : Sessions K) :
    op.after libs sessions = sessions.set session.sessionId session := by
  rw [Operation.after_eq, h]
  rfl

/-- Where a session in the table comes from. -/
inductive Became (libs : Libraries K) (op : Operation K R A C S) (sessions : Sessions K)
    (sessionId : String) : ExecutionSession K → Prop where
  | kept {session : ExecutionSession K} (before : sessions.get? sessionId = some session) :
      Became libs op sessions sessionId session
  | minted {session : ExecutionSession K} (minted : op.mints libs = some session)
      (key : session.sessionId = sessionId) : Became libs op sessions sessionId session
  | expired {session : ExecutionSession K} {r : Lookup K}
      (lookup : op.looksUp libs = some (sessionId, r))
      (before : sessions.get? sessionId = some session)
      (expired : session.isExpired r.checkedAt = true) :
      Became libs op sessions sessionId (session.expire r.endedAt)

theorem Operation.became [PyMath K] {libs : Libraries K} {op : Operation K R A C S}
    {sessions : Sessions K} {sessionId : String} {session : ExecutionSession K}
    (h : (op.after libs sessions).get? sessionId = some session) :
    Became libs op sessions sessionId session := by
  rcases hmints : op.mints libs with _ | minted
  · rcases hlookup : op.looksUp libs with _ | ⟨x, r⟩
    · rw [Operation.after_eq, hmints, hlookup] at h
      exact .kept h
    · rw [Operation.after_lookup hlookup, get?_afterLookup] at h
      split_ifs at h with hx
      · subst hx
        obtain ⟨before, hbefore, rfl⟩ := Option.map_eq_some_iff.mp h
        by_cases expired : before.isExpired r.checkedAt = true
        · rw [if_pos expired]
          exact .expired hlookup hbefore expired
        · rw [if_neg expired]
          exact .kept hbefore
      · exact .kept h
  · rw [Operation.after_mint hmints, Dict.get?_set] at h
    split_ifs at h with hx
    · obtain rfl := Option.some.inj h
      exact .minted hmints hx.symm
    · exact .kept h

/-- No operation removes a session from the table. -/
theorem Operation.after_isSome [PyMath K] {libs : Libraries K} {op : Operation K R A C S}
    {sessions : Sessions K} {sessionId : String} {session : ExecutionSession K}
    (before : sessions.get? sessionId = some session) :
    ∃ session', (op.after libs sessions).get? sessionId = some session' := by
  rcases hmints : op.mints libs with _ | minted
  · rcases hlookup : op.looksUp libs with _ | ⟨x, r⟩
    · rw [Operation.after_eq, hmints, hlookup]
      exact ⟨session, before⟩
    · rw [Operation.after_lookup hlookup, get?_afterLookup]
      split_ifs with hx
      · rw [seen, ← hx, before]
        exact ⟨_, rfl⟩
      · exact ⟨session, before⟩
  · rw [Operation.after_mint hmints, Dict.get?_set]
    split_ifs with hx
    · exact ⟨minted, rfl⟩
    · exact ⟨session, before⟩

noncomputable def sampleCreate : Operation ℝ Unit Unit Unit Unit :=
  .create (.ok sampleSecret) "agent_1" "admin" (sampleCreation 0 0)

theorem sampleCreate_mints : sampleCreate.mints sampleLibs = some (mintedSample sample_start) :=
  congrArg Except.toOption (sample_minted sample_start)

end SessionOperations
