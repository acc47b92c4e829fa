import SynapticBridge.PolicyGate
import SynapticBridge.SessionRuns

/-! The lifetime of a session, over any operations on one adapter. Its stored expiry decides
alone: every check at or after it fails and every check before it succeeds. -/
namespace SessionLifetime

open Domain CorrectionPatterns OrderedDict Ports ExecuteTool ExecuteToolRuns ExecutionAdapter
open SessionOperations SessionRuns PolicyGate

variable {K : Type} [Field K] [LinearOrder K] {R A C S : Type}

section Checks

/-- Under `key`, a token of this adapter is accepted and yields its claims. -/
def Faithful (libs : Libraries K) (key : String) : Prop :=
  ∀ sessionId agentId token, libs.encode (claims sessionId agentId) key = .ok token →
    libs.decode token key = .ok (claims sessionId agentId)

/-- `is_active` False, `SessionExpiredError`, or the session's own token refused. -/
def ObservedDead [PyMath K] (libs : Libraries K) (session : ExecutionSession K)
    (m : Moment K R A C S) : Prop :=
  match m.act with
  | .operation (.command call r) => call.cmd.sessionId = session.sessionId ∧
      ∃ message, (onAdapter libs call r m.state.sessions).result = .error (.sessionExpired message)
  | .operation (.validate secret token r) => token = session.executionToken ∧
      ((validateToken libs secret token r).run m.state.sessions).1 = .ok false
  | .inspected object now => object.sessionId = session.sessionId ∧ object.isActive now = false
  | _ => False

/-- A command for the session raises `SessionExpiredError` and calls nothing, and the session's
own token is refused. -/
def Refused [PyMath K] (libs : Libraries K) (session : ExecutionSession K)
    (m : Moment K R A C S) : Prop :=
  match m.act with
  | .operation (.command call r) => call.cmd.sessionId = session.sessionId →
      (∃ message, (onAdapter libs call r m.state.sessions).result =
        .error (.sessionExpired message)) ∧
      (onAdapter libs call r m.state.sessions).after.trace = call.world.trace
  | .operation (.validate secret token r) => token = session.executionToken →
      ((validateToken libs secret token r).run m.state.sessions).1 = .ok false
  | _ => True

/-- Checked before its expiry, the session is not refused. -/
def Served [PyMath K] (libs : Libraries K) (session : ExecutionSession K)
    (m : Moment K R A C S) : Prop :=
  match m.act with
  | .operation (.command call r) => call.cmd.sessionId = session.sessionId →
      r.activeAt < session.expiresAt → ∀ message,
        (onAdapter libs call r m.state.sessions).result ≠ .error (.sessionExpired message)
  | .operation (.validate secret token r) => token = session.executionToken →
      r.activeAt < session.expiresAt →
      ((validateToken libs secret token r).run m.state.sessions).1 = .ok true
  | _ => True

variable [PyMath K] {libs : Libraries K} {key : String} {session : ExecutionSession K}
  {m : Moment K R A C S}

/-- A session observed dead has reached its expiry. -/
theorem ObservedDead.reached (dead : ObservedDead libs session m) (sound : Sound m.state)
    (allowed : m.act.Allowed libs key m.state) (timed : m.act.Timed m.state.clock m.clock')
    (kept : Kept session m.state.sessions)
    (accepted : libs.decode session.executionToken key =
      .ok (claims session.sessionId session.agentId)) : session.expiresAt ≤ m.clock' := by
  obtain ⟨act, st, clock'⟩ := m
  cases act with
  | inspected object now =>
    obtain ⟨hid, inactive⟩ := dead
    obtain ⟨stored, hstored, hexpiry, settled⟩ := sound.handed object allowed
    obtain ⟨session', hsession', hexpiry'⟩ := kept
    rw [hid, hsession'] at hstored
    obtain rfl := Option.some.inj hstored
    rw [← hexpiry', hexpiry]
    apply le_trans _ timed.2
    rw [← not_lt, ← settled.isActive timed.1, inactive]
    exact Bool.false_ne_true
  | operation op =>
    cases op with
    | command call r =>
      have hlookup : Lookup.Timed st.clock r clock' := timed.1
      obtain ⟨hid, expired⟩ := dead
      exact ((kept.command libs sound hlookup allowed.1 hid).1.mp expired).trans hlookup.2.2.2
    | validate secret token r =>
      have hlookup : Lookup.Timed st.clock r clock' := timed
      obtain ⟨rfl, refused⟩ := dead
      obtain rfl : secret = .ok key := allowed.1
      have hresult := kept.token sound hlookup accepted
      rw [refused] at hresult
      have late := of_decide_eq_false (Except.ok.inj hresult).symm
      exact (not_lt.mp late).trans hlookup.2.2.2
    | create => exact dead.elim
    | createCommand => exact dead.elim
    | lookup => exact dead.elim

/-- Once the clock has reached its expiry, the session is refused. -/
theorem reached_refused (reached : session.expiresAt ≤ m.state.clock) (sound : Sound m.state)
    (allowed : m.act.Allowed libs key m.state) (timed : m.act.Timed m.state.clock m.clock')
    (kept : Kept session m.state.sessions)
    (accepted : libs.decode session.executionToken key =
      .ok (claims session.sessionId session.agentId)) : Refused libs session m := by
  obtain ⟨act, st, clock'⟩ := m
  cases act with
  | inspected object now => trivial
  | operation op =>
    cases op with
    | command call r =>
      have hlookup : Lookup.Timed st.clock r clock' := timed.1
      intro hid
      have late := reached.trans (hlookup.1.trans (hlookup.2.1.trans hlookup.2.2.1))
      obtain ⟨expires, silent⟩ := kept.command libs sound hlookup allowed.1 hid
      exact ⟨expires.mpr late, silent late⟩
    | validate secret token r =>
      have hlookup : Lookup.Timed st.clock r clock' := timed
      rintro rfl
      obtain rfl : secret = .ok key := allowed.1
      have late := reached.trans (hlookup.1.trans (hlookup.2.1.trans hlookup.2.2.1))
      refine (kept.token sound hlookup accepted).trans ?_
      rw [decide_eq_false (not_lt.mpr late)]
    | create => trivial
    | createCommand => trivial
    | lookup => trivial

theorem kept_served (sound : Sound m.state)
    (allowed : m.act.Allowed libs key m.state) (timed : m.act.Timed m.state.clock m.clock')
    (kept : Kept session m.state.sessions)
    (accepted : libs.decode session.executionToken key =
      .ok (claims session.sessionId session.agentId)) : Served libs session m := by
  obtain ⟨act, st, clock'⟩ := m
  cases act with
  | inspected object now => trivial
  | operation op =>
    cases op with
    | command call r =>
      have hlookup : Lookup.Timed st.clock r clock' := timed.1
      intro hid early message expired
      have late := (kept.command libs sound hlookup allowed.1 hid).1.mp ⟨message, expired⟩
      exact absurd early (not_lt.mpr late)
    | validate secret token r =>
      have hlookup : Lookup.Timed st.clock r clock' := timed
      rintro rfl early
      obtain rfl : secret = .ok key := allowed.1
      refine (kept.token sound hlookup accepted).trans ?_
      rw [decide_eq_true early]
    | create => trivial
    | createCommand => trivial
    | lookup => trivial

end Checks

section Lifetime

variable [PyMath K] {libs : Libraries K} {key : String} {session : ExecutionSession K}
  {creation m : Moment K R A C S} {before rest : List (Moment K R A C S)} {st : State K}

/-- Once a session was observed dead, every later command for it raises `SessionExpiredError`
without a call and its own token is refused; before its expiry neither ever happens. -/
theorem once_dead (faithful : Faithful libs key)
    (run : SessionRun libs key (before ++ creation :: rest) st)
    (created : creation.Creates libs session) :
    (∀ earlier dead later, rest = earlier ++ dead :: later → ObservedDead libs session dead →
      ∀ m ∈ later, Refused libs session m) ∧
    ∀ m ∈ rest, Served libs session m := by
  obtain ⟨-, each, ordered⟩ := run.moments
  have inside : ∀ m ∈ rest, m ∈ before ++ creation :: rest := fun m hm =>
    List.mem_append_right _ (List.mem_cons_of_mem _ hm)
  have hcreation : creation ∈ before ++ creation :: rest := by simp
  have accepted := faithful _ _ _ (created.token (each creation hcreation).2.1)
  constructor
  · rintro earlier dead later rfl observed m hm
    have hdead : dead ∈ earlier ++ dead :: later := by simp
    have hlater : m ∈ earlier ++ dead :: later := by simp [hm]
    obtain ⟨sound, allowed, timed, -⟩ := each dead (inside dead hdead)
    have reached := observed.reached sound allowed timed (run.kept created dead hdead) accepted
    have orderedRest := (List.pairwise_cons.mp (List.pairwise_append.mp ordered).2.1).2
    have extends_dead := (List.pairwise_cons.mp (List.pairwise_append.mp orderedRest).2.1).1 m hm
    have clock := extends_dead.clock
    rw [Moment.next_clock] at clock
    obtain ⟨sound', allowed', timed', -⟩ := each m (inside m hlater)
    exact reached_refused (reached.trans clock) sound' allowed' timed'
      (run.kept created m hlater) accepted
  · intro m hm
    obtain ⟨sound, allowed, timed, -⟩ := each m (inside m hm)
    exact kept_served sound allowed timed (run.kept created m hm) accepted

/-- `execute_tool` was called. -/
def Reaches {X : Type} (call : Invocation K X R A C S) : Prop :=
  ∃ effects session toolName parameters, call.after.trace = call.world.trace ++ effects ∧
    Effect.executed session toolName parameters ∈ effects

/-- After its creation by `cmd`, in every run, the session is used before `created + ttl` only
and is not expired earlier. The reading of a command's check is that of `is_active`. -/
def WithinLifetime (libs : Libraries K) (key : String) (cmd : CreateSessionCommand)
    (r : Creation K) (session : ExecutionSession K) (created : K) : Prop :=
  ∀ (R A C S : Type) (audit : AuditLogPort K A) (world : World K (Sessions K) R A C S)
    (before rest : List (Moment K R A C S)) (st₀ st : State K) (clock' : K),
    SessionRun libs key (before ++
      ⟨.operation (.createCommand (.ok key) cmd audit world r), st₀, clock'⟩ :: rest) st →
    ∀ m ∈ rest, ∀ call check, m.act = .operation (.command call check) →
      call.cmd.sessionId = session.sessionId →
      (created + cmd.ttlSeconds ≤ check.activeAt →
        ¬ Reaches (onAdapter libs call check m.state.sessions)) ∧
      (check.activeAt < created + cmd.ttlSeconds → ∀ message,
        (onAdapter libs call check m.state.sessions).result ≠ .error (.sessionExpired message))

theorem not_reaches {X : Type} {call : Invocation K X R A C S}
    (silent : call.after.trace = call.world.trace) : ¬ Reaches call := by
  rintro ⟨effects, session, toolName, parameters, htrace, hmem⟩
  rw [silent] at htrace
  obtain rfl := List.self_eq_append_right.mp htrace
  cases hmem

/-- An authorized command calls the tool, redirected or not. -/
theorem authorized_reaches {X : Type} {call : Invocation K X R A C S}
    {found : ExecutionSession K} {w : World K X R A C S}
    (authorized : (authorize call.cmd call.ports call.readings).run call.world =
      (.ok found, w)) : Reaches call := by
  obtain ⟨-, rfl⟩ := authorize_eq_ok_iff.mp authorized
  obtain ⟨l, w₂, hpred, hl⟩ := predict_run call.cmd call.ports call.readings
    (call.shadowMode.getD CLE_SHADOW_MODE) (afterLookups call.cmd call.ports call.world)
  obtain ⟨logged, hlogged⟩ : ∃ logged, w₂.trace = call.world.trace ++ logged := by
    rcases hl with ⟨-, -, rfl⟩ | ⟨classifier, store, result, -, -, -, hcle⟩
    · exact ⟨[], (List.append_nil _).symm⟩
    cases hcle with
    | silent _ _ none frame => exact ⟨[], frame.trace.trans (List.append_nil _).symm⟩
    | lookupRaised e _ suggested active look frame =>
      exact ⟨[], frame.trace.trans (List.append_nil _).symm⟩
    | logged _ suggested kept write => exact ⟨_, write.trace⟩
    | applied _ suggested active look write => exact ⟨_, write.trace⟩
  obtain ⟨effects, htrace, hexecuted⟩ :=
    dispatch_executes call.cmd call.ports call.readings found l w₂
  refine ⟨logged ++ effects, found, l.effectiveTool, call.cmd.parameters, ?_,
    List.mem_append_right _ ((hexecuted _ _ _).mpr ⟨rfl, rfl, rfl⟩)⟩
  rw [Invocation.after, execute_admitted call.shadowMode authorized,
    Procedures.Proc.bind_ok hpred, htrace, hlogged, List.append_assoc]

variable {cmd : CreateSessionCommand} {r : Creation K} {created : K}

/-- The constant lifetime is the one asked for. -/
theorem withinLifetime_of_eq
    (minted : mintSession libs (.ok key) cmd.agentId cmd.createdBy r = .ok session)
    (lifetime : r.expiryFrom + DEFAULT_TTL_SECONDS = created + cmd.ttlSeconds) :
    WithinLifetime libs key cmd r session created := by
  intro R A C S audit world before rest st₀ st clock' run m hm call check hact hid
  have creates : Moment.Creates libs
      ⟨.operation (.createCommand (.ok key) cmd audit world r), st₀, clock'⟩ session :=
    ⟨_, rfl, congrArg Except.toOption minted⟩
  obtain ⟨sound, allowed, timed, -⟩ := run.moments.2.1 m (by simp [hm])
  have kept := run.kept creates m hm
  rw [hact] at allowed timed
  obtain ⟨expires, silent⟩ := kept.command libs sound timed.1 allowed.1 hid
  rw [(mintSession_ok minted).expiresAt, lifetime] at expires silent
  constructor
  · intro late
    exact not_reaches (silent late)
  · intro early message expired
    exact absurd early (not_lt.mpr (expires.mp ⟨message, expired⟩))

end Lifetime

/-! A command that every other port admits. -/

section Sample

theorem sampleTool_ne : "fs.read" ≠ "" := by decide

def sampleCall (sessionId : String) (now : K) :
    Invocation K (Sessions K) Unit Unit Unit Unit where
  cmd := ⟨sessionId, "fs.read", .dict [], "read a file"⟩
  ports :=
    { execution := ⟨fun _ => pure none, fun _ _ _ => pure .none⟩
      registry := ⟨fun _ => pure (some (manifestOf "fs.read" sampleTool_ne))⟩
      policies := inMemoryPolicyEngine .empty
      audit := ⟨fun _ => pure ()⟩
      classifier := none
      corrections := none }
  shadowMode := none
  readings := ⟨now, "", now, fun _ => now, "", now, "", now⟩
  world := ⟨.empty, (), (), (), (), []⟩

theorem sampleCall_discreet (sessionId : String) (now : K) :
    Discreet (sampleCall sessionId now).ports where
  registry _ _ _ := by
    intro h
    cases h
  policies _ _ _ := by
    intro h
    cases h
  audit _ _ _ := by
    intro h
    cases h

theorem sampleCall_reaches [PyMath K] (libs : Libraries K) {sessions : Sessions K}
    {sessionId : String} {now : K} {found : ExecutionSession K}
    (hfound : seen sessions sessionId ⟨now, now, now⟩ = some found)
    (active : found.isActive now = true) :
    Reaches (onAdapter libs (sampleCall sessionId now) ⟨now, now, now⟩ sessions) := by
  have get := congrArg Prod.fst (getSession_run sessions sessionId ⟨now, now, now⟩)
  rw [hfound] at get
  have unguarded : ∀ p ∈ (sampleCall sessionId now).ports.policies.listPolicies,
      Allows (sampleCall sessionId now).cmd (sampleCall sessionId now).ports.policies found
        "fs.read" p := by
    intro p hp
    cases hp
  exact authorized_reaches (authorize_ok get active rfl unguarded)

def sampleWorld : World K (Sessions K) Unit Unit Unit Unit := ⟨.empty, (), (), (), (), []⟩

variable [PyMath K] {libs : Libraries K} {key : String} {cmd : CreateSessionCommand}
  {r : Creation K} {session : ExecutionSession K} {now : K}

omit [PyMath K] in
theorem sampleCall_allowed (sessionId : String) (st : State K) :
    (Act.operation (.command (sampleCall sessionId now) ⟨now, now, now⟩)).Allowed libs key st := by
  refine ⟨sampleCall_discreet sessionId now, ?_⟩
  intro minted hminted
  cases hminted

omit [PyMath K] in
theorem sampleCall_timed (sessionId : String) {clock : K} (later : clock ≤ now) :
    (Act.operation (.command (sampleCall sessionId now) ⟨now, now, now⟩)).Timed clock now :=
  ⟨⟨later, le_rfl, le_rfl, le_rfl⟩, ⟨le_rfl, le_rfl⟩, fun _ => ⟨le_rfl, le_rfl, le_rfl⟩, le_rfl,
    le_rfl, le_rfl⟩

/-- The session is created and a command for it checked at `now`. -/
theorem sample_run (libs : Libraries K) (key : String) (cmd : CreateSessionCommand)
    (sessionId : String) (ordered : r.startedAt ≤ r.expiryFrom)
    (later : r.expiryFrom ≤ now) : ∃ st₁ st₂ : State K, SessionRun libs key ([] ++
      ⟨.operation (.createCommand (.ok key) cmd ⟨fun _ => pure ()⟩ sampleWorld r),
        ⟨.empty, [], r.startedAt⟩, r.expiryFrom⟩ ::
      [⟨.operation (.command (sampleCall sessionId now) ⟨now, now, now⟩), st₁, now⟩]) st₂ := by
  have start : SessionRun libs key ([] : List (Moment K Unit Unit Unit Unit))
    ⟨.empty, [], r.startedAt⟩ := .start r.startedAt
  have creates : (Act.operation (.createCommand (.ok key) cmd ⟨fun _ => pure ()⟩
      (sampleWorld : World K (Sessions K) Unit Unit Unit Unit) r)).Allowed libs key
        ⟨.empty, [], r.startedAt⟩ := ⟨rfl, fun _ _ => rfl⟩
  have created := start.step creates ⟨le_rfl, ordered, le_rfl⟩
  exact ⟨_, _, created.step (sampleCall_allowed sessionId _) (sampleCall_timed sessionId later)⟩

/-- What a lawful lifetime says about that command. -/
theorem WithinLifetime.checked
    (minted : mintSession libs (.ok key) cmd.agentId cmd.createdBy r = .ok session)
    (ordered : r.startedAt ≤ r.expiryFrom) (later : r.expiryFrom ≤ now) {created : K}
    (within : WithinLifetime libs key cmd r session created) :
    (created + cmd.ttlSeconds ≤ now → session.expiresAt ≤ now) ∧
      (now < created + cmd.ttlSeconds → now < session.expiresAt) := by
  obtain ⟨st₁, st₂, run⟩ := sample_run libs key cmd session.sessionId ordered later
  have creates : Moment.Creates libs ⟨.operation (.createCommand (.ok key) cmd
      ⟨fun _ => pure ()⟩ (sampleWorld : World K (Sessions K) Unit Unit Unit Unit) r),
        ⟨.empty, [], r.startedAt⟩, r.expiryFrom⟩ session :=
    ⟨_, rfl, congrArg Except.toOption minted⟩
  have last := List.mem_singleton_self (⟨.operation (.command (sampleCall session.sessionId now)
    ⟨now, now, now⟩), st₁, now⟩ : Moment K Unit Unit Unit Unit)
  obtain ⟨unused, unexpired⟩ := within _ _ _ _ _ _ _ _ _ _ _ run _ last _ _ rfl rfl
  obtain ⟨sound, allowed, timed, -⟩ := run.moments.2.1 _ (List.mem_cons_of_mem _ last)
  have kept := run.kept creates _ last
  obtain ⟨found, hfound, hactive⟩ := kept.seen sound timed.1
  constructor
  · intro late
    by_contra early
    exact unused late (sampleCall_reaches libs hfound (hactive.mpr (not_le.mp early)))
  · intro early
    by_contra late
    have expires := (kept.command libs sound timed.1 allowed.1 rfl).1
    obtain ⟨message, expired⟩ := expires.mpr (not_lt.mp late)
    exact unexpired early message expired

/-- A lawful lifetime is the constant one, and the other way round. -/
theorem WithinLifetime.eq [IsStrictOrderedRing K]
    (minted : mintSession libs (.ok key) cmd.agentId cmd.createdBy r = .ok session)
    (ordered : r.startedAt ≤ r.expiryFrom) {created : K}
    (within : WithinLifetime libs key cmd r session created) :
    r.expiryFrom + DEFAULT_TTL_SECONDS = created + cmd.ttlSeconds := by
  have expiry := (mintSession_ok minted).expiresAt
  have positive : (0 : K) < DEFAULT_TTL_SECONDS := by
    norm_num [DEFAULT_TTL_SECONDS]
  rw [← expiry]
  apply le_antisymm
  · by_contra shorter
    have hmax : max (created + cmd.ttlSeconds) r.expiryFrom < session.expiresAt := by
      rw [max_lt_iff, expiry]
      rw [not_le, expiry] at shorter
      exact ⟨shorter, lt_add_of_pos_right _ positive⟩
    have reached := (within.checked minted ordered (le_max_right _ _)).1 (le_max_left _ _)
    exact absurd hmax (not_lt.mpr reached)
  · by_contra longer
    have later : r.expiryFrom ≤ session.expiresAt := by
      rw [expiry]
      exact le_add_of_nonneg_right positive.le
    exact lt_irrefl _ ((within.checked minted ordered later).2 (not_le.mp longer))

/-- A session created with a time to live keeps to it exactly if that time is the constant
900 seconds, but for the time between the two readings of the creation. -/
theorem lifetime_iff [IsStrictOrderedRing K]
    (minted : mintSession libs (.ok key) cmd.agentId cmd.createdBy r = .ok session)
    (ordered : r.startedAt ≤ r.expiryFrom) (created : K) :
    WithinLifetime libs key cmd r session created ↔
      r.expiryFrom + DEFAULT_TTL_SECONDS = created + cmd.ttlSeconds :=
  ⟨fun within => within.eq minted ordered, withinLifetime_of_eq minted⟩

theorem lifetime_iff_sample : WithinLifetime sampleLibs sampleSecret ⟨"agent_1", "admin", 900⟩
    (sampleCreation 0 0) (mintedSample sample_start) (0 : ℝ) := by
  apply (lifetime_iff (sample_minted sample_start) le_rfl 0).mpr
  norm_num [sampleCreation, DEFAULT_TTL_SECONDS]

/-- Asked for a minute, the session is used for a quarter of an hour. -/
theorem short_ttl_ignored : ¬ WithinLifetime sampleLibs sampleSecret ⟨"agent_1", "admin", 60⟩
    (sampleCreation 0 0) (mintedSample sample_start) (0 : ℝ) := by
  intro within
  have lifetime := within.eq (sample_minted sample_start) le_rfl
  norm_num [sampleCreation, DEFAULT_TTL_SECONDS] at lifetime

theorem sampleLibs_faithful : Faithful (sampleLibs : Libraries ℝ) sampleSecret := by
  intro sessionId agentId token hencode
  change (if _ then _ else _) = _ at hencode
  split_ifs at hencode with known
  obtain ⟨rfl, rfl, -⟩ := known
  obtain rfl := Except.ok.inj hencode
  simp only [sampleLibs, and_self, if_true]

theorem once_dead_sample : ∃ (creation dead m : Moment ℝ Unit Unit Unit Unit) (st : State ℝ),
    SessionRun sampleLibs sampleSecret [creation, dead, m] st ∧
    ObservedDead sampleLibs (mintedSample sample_start) dead ∧
    Refused sampleLibs (mintedSample sample_start) m := by
  have start : SessionRun sampleLibs sampleSecret ([] : List (Moment ℝ Unit Unit Unit Unit))
    ⟨.empty, [], 0⟩ := .start 0
  have creates : (Act.operation sampleCreate).Allowed sampleLibs sampleSecret ⟨.empty, [], 0⟩ :=
    ⟨rfl, fun _ _ => rfl⟩
  have created := start.step creates ⟨le_rfl, le_rfl, le_rfl⟩
  have handed : (Act.inspected (mintedSample sample_start) 900 :
      Act ℝ Unit Unit Unit Unit).Allowed sampleLibs sampleSecret
        ((Act.operation sampleCreate).next sampleLibs ⟨.empty, [], 0⟩ 0) :=
    List.mem_append_right _ (Option.mem_toList.mpr sampleCreate_mints)
  have later : (0 : ℝ) ≤ 900 := by norm_num
  have inspected := created.step handed ⟨later, le_rfl⟩
  have run : SessionRun sampleLibs sampleSecret ([] ++ ⟨.operation sampleCreate, _, _⟩ ::
      ([] ++ ⟨.inspected (mintedSample sample_start) 900, _, _⟩ :: [_])) _ :=
    inspected.step (sampleCall_allowed "session_0123456789ab" _)
      (sampleCall_timed "session_0123456789ab" (le_refl (900 : ℝ)))
  have dead : (mintedSample sample_start).isActive 900 = false := by
    rw [ExecutionSession.isActive, sample_expired le_rfl]
    exact Bool.and_false _
  refine ⟨_, _, _, _, run, ⟨rfl, dead⟩, ?_⟩
  exact (once_dead sampleLibs_faithful run ⟨_, rfl, sampleCreate_mints⟩).1 [] _ _ rfl
    ⟨rfl, dead⟩ _ (List.mem_singleton_self _)

end Sample

end SessionLifetime
