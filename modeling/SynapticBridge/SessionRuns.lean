import SynapticBridge.SessionOperations

/-! Runs of any operations on one adapter under a fixed secret and fresh identifiers. Every
session handed out stays in the table with its expiry, active or found expired. -/
namespace SessionRuns

open Domain CorrectionPatterns OrderedDict Ports ExecuteTool ExecuteToolRuns ExecutionAdapter
open SessionOperations

variable {K : Type} [Field K] [LinearOrder K] {R A C S : Type}

section Commands

structure Discreet {X : Type} (ports : CommandPorts K X R A C S) : Prop where
  registry : ∀ t x m, ((ports.registry.get t).run x).1 ≠ .error (.sessionExpired m)
  policies : ∀ p context m, ports.policies.evaluate p context ≠ .error (.sessionExpired m)
  audit : ∀ event a m, ((ports.audit.write event).run a).1 ≠ .error (.sessionExpired m)

theorem execute_inactive [PyMath K] {X : Type} {cmd : ExecuteToolCommand K}
    {ports : CommandPorts K X R A C S} {shadowMode : Option Bool} {r : Readings K}
    {w : World K X R A C S} {session : ExecutionSession K}
    (get : ((ports.execution.getSession cmd.sessionId).run w.execution).1 = .ok (some session))
    (inactive : session.isActive r.sessionNow = false) :
    ((execute cmd ports shadowMode r).run w).1 =
        .error (.sessionExpired "Session is not active") ∧
      ((execute cmd ports shadowMode r).run w).2.trace = w.trace := by
  have active_absurd : ∀ {session'}, ((ports.execution.getSession cmd.sessionId).run
      w.execution).1 = .ok (some session') → session'.isActive r.sessionNow ≠ true := by
    intro session' get' active
    obtain rfl := Option.some.inj (Except.ok.inj (get.symm.trans get'))
    rw [inactive] at active
    cases active
  rcases hrun : (authorize cmd ports r).run w with ⟨result, w'⟩
  cases authorize_cases hrun with
  | sessionRaised _ get' audit trace =>
    rw [get] at get'
    cases get'
  | sessionMissing _ get' audit trace =>
    rw [get] at get'
    cases get'
  | sessionInactive _ get' inactive' audit trace =>
    rw [execute_refused shadowMode hrun]
    exact ⟨rfl, trace⟩
  | toolRaised _ get' active lookup audit trace => exact absurd active (active_absurd get')
  | toolMissing _ get' active lookup audit trace => exact absurd active (active_absurd get')
  | checked get' active lookup policies => exact absurd active (active_absurd get')

theorem execute_unexpired [PyMath K] {X : Type} {cmd : ExecuteToolCommand K}
    {ports : CommandPorts K X R A C S} {shadowMode : Option Bool} {r : Readings K}
    {w w' : World K X R A C S} {session : ExecutionSession K} (discreet : Discreet ports)
    (calls : ∀ s t ps x, ∃ v, ((ports.execution.executeTool s t ps).run x).1 = .ok v)
    (hrun : (authorize cmd ports r).run w = (.ok session, w')) (m : String) :
    ((execute cmd ports shadowMode r).run w).1 ≠ .error (.sessionExpired m) := by
  obtain ⟨l, w₂, hpred, -⟩ := predict_run cmd ports r (shadowMode.getD CLE_SHADOW_MODE) w'
  obtain ⟨v, hv⟩ := calls session l.effectiveTool cmd.parameters w₂.execution
  rw [execute_admitted shadowMode hrun, Procedures.Proc.bind_ok hpred, dispatch_returned r hv]
  intro expired
  rcases hwrite : ((ports.audit.write (toolCalledEvent cmd r session l)).run w₂.audit).1 with e | u
  · simp only [hwrite, Except.map, Except.error.injEq] at expired
    subst expired
    exact discreet.audit _ _ _ hwrite
  · simp only [hwrite, Except.map] at expired
    cases expired

theorem execute_expired [PyMath K] {X : Type} {cmd : ExecuteToolCommand K}
    {ports : CommandPorts K X R A C S} {shadowMode : Option Bool} {r : Readings K}
    {w : World K X R A C S} {m : String} (discreet : Discreet ports)
    (finds : ∃ found, ((ports.execution.getSession cmd.sessionId).run w.execution).1 = .ok found)
    (calls : ∀ s t ps x, ∃ v, ((ports.execution.executeTool s t ps).run x).1 = .ok v)
    (expired : ((execute cmd ports shadowMode r).run w).1 = .error (.sessionExpired m)) :
    ∃ session, ((ports.execution.getSession cmd.sessionId).run w.execution).1 =
        .ok (some session) ∧ session.isActive r.sessionNow = false := by
  rcases hrun : (authorize cmd ports r).run w with ⟨result, w'⟩
  cases authorize_cases hrun with
  | sessionRaised _ get audit trace =>
    obtain ⟨found, hfound⟩ := finds
    rw [hfound] at get
    cases get
  | sessionMissing _ get audit trace =>
    rw [execute_refused shadowMode hrun] at expired
    cases expired
  | sessionInactive _ get inactive audit trace => exact ⟨_, get, inactive⟩
  | toolRaised _ get active lookup audit trace =>
    rw [execute_refused shadowMode hrun] at expired
    obtain rfl := Except.error.inj expired
    exact absurd lookup (discreet.registry _ _ _)
  | toolMissing _ get active lookup audit trace =>
    rw [execute_refused shadowMode hrun] at expired
    cases expired
  | @checked session manifest result _ get active lookup policies =>
    cases policies with
    | allowed all => exact absurd expired (execute_unexpired discreet calls hrun m)
    | @raised p e mem guards eval =>
      rw [execute_refused shadowMode hrun] at expired
      obtain rfl := Except.error.inj expired
      exact absurd eval (discreet.policies _ _ _)
    | @denied pre p post split before guards eval =>
      rcases hwrite : ((ports.audit.write (violationEvent cmd r session p)).run w.audit).1
        with e | u
      · simp only [hwrite, Except.bind, Except.map] at hrun
        rw [execute_refused shadowMode hrun] at expired
        obtain rfl := Except.error.inj expired
        exact absurd hwrite (discreet.audit _ _ _)
      · simp only [hwrite, Except.bind, Except.map] at hrun
        rw [execute_refused shadowMode hrun] at expired
        cases expired

theorem command_refused [PyMath K] {libs : Libraries K} {sessions : Sessions K}
    {call : Invocation K (Sessions K) R A C S} {r : Lookup K} {session : ExecutionSession K}
    (found : seen sessions call.cmd.sessionId r = some session)
    (inactive : session.isActive r.activeAt = false) :
    (onAdapter libs call r sessions).result = .error (.sessionExpired "Session is not active") ∧
      (onAdapter libs call r sessions).after.trace = call.world.trace := by
  apply execute_inactive _ inactive
  rw [← found]
  exact congrArg Prod.fst (getSession_run sessions call.cmd.sessionId r)

theorem command_expired [PyMath K] {libs : Libraries K} {sessions : Sessions K}
    {call : Invocation K (Sessions K) R A C S} {r : Lookup K} {m : String}
    (discreet : Discreet call.ports)
    (expired : (onAdapter libs call r sessions).result = .error (.sessionExpired m)) :
    ∃ session, seen sessions call.cmd.sessionId r = some session ∧
      session.isActive r.activeAt = false := by
  have hget := congrArg Prod.fst (getSession_run sessions call.cmd.sessionId r)
  have here : Discreet (onAdapter libs call r sessions).ports :=
    ⟨discreet.registry, discreet.policies, discreet.audit⟩
  have calls : ∀ s t ps x, ∃ v, (((executionPort libs r).executeTool s t ps).run x).1 = .ok v :=
    fun _ _ _ _ => ⟨_, rfl⟩
  obtain ⟨session, get, inactive⟩ := execute_expired here (by exact ⟨_, hget⟩) calls expired
  exact ⟨session, Except.ok.inj (hget.symm.trans get), inactive⟩

end Commands

section Runs

/-- An operation, or `is_active` on a session object that an operation returned. -/
inductive Act (K : Type) [Field K] [LinearOrder K] (R A C S : Type) where
  | operation (op : Operation K R A C S)
  | inspected (session : ExecutionSession K) (now : K)

/-- The table, the session objects handed out so far and the latest clock reading. -/
structure State (K : Type) [Field K] [LinearOrder K] where
  sessions : Sessions K
  handed : List (ExecutionSession K)
  clock : K

def Act.handsOut (libs : Libraries K) (act : Act K R A C S) (sessions : Sessions K) :
    Option (ExecutionSession K) :=
  match act with
  | .operation (.lookup sessionId r) => seen sessions sessionId r
  | .operation op => op.mints libs
  | .inspected _ _ => none

def Act.next [PyMath K] (libs : Libraries K) (act : Act K R A C S) (st : State K) (clock' : K) :
    State K :=
  match act with
  | .operation op => ⟨op.after libs st.sessions,
      st.handed ++ (act.handsOut libs st.sessions).toList, clock'⟩
  | .inspected _ _ => { st with clock := clock' }

def Act.Timed (clock : K) (act : Act K R A C S) (clock' : K) : Prop :=
  match act with
  | .operation op => op.Timed clock clock'
  | .inspected _ now => clock ≤ now ∧ now ≤ clock'

def Operation.Allowed (key : String) (op : Operation K R A C S) : Prop :=
  match op with
  | .create secret _ _ _ => secret = .ok key
  | .createCommand secret _ _ _ _ => secret = .ok key
  | .lookup _ _ => True
  | .validate secret _ _ => secret = .ok key
  | .command call _ => Discreet call.ports

def Act.Allowed (libs : Libraries K) (key : String) (act : Act K R A C S) (st : State K) : Prop :=
  match act with
  | .operation op => Operation.Allowed key op ∧
      ∀ minted, op.mints libs = some minted → st.sessions.get? minted.sessionId = none
  | .inspected session _ => session ∈ st.handed

structure Moment (K : Type) [Field K] [LinearOrder K] (R A C S : Type) where
  act : Act K R A C S
  state : State K
  clock' : K

def Moment.next [PyMath K] (libs : Libraries K) (m : Moment K R A C S) : State K :=
  m.act.next libs m.state m.clock'

inductive SessionRun [PyMath K] (libs : Libraries K) (key : String) :
    List (Moment K R A C S) → State K → Prop where
  | start (clock : K) : SessionRun libs key [] ⟨.empty, [], clock⟩
  | step {moments : List (Moment K R A C S)} {st : State K} {act : Act K R A C S} {clock' : K}
      (run : SessionRun libs key moments st) (allowed : act.Allowed libs key st)
      (timed : act.Timed st.clock clock') :
      SessionRun libs key (moments ++ [⟨act, st, clock'⟩]) (act.next libs st clock')

end Runs

section Invariant

/-- Active as stored, or found expired by a clock that had reached its expiry. -/
def Settled (clock : K) (session : ExecutionSession K) : Prop :=
  session.status = .active ∨ session.status = .expired ∧ session.expiresAt ≤ clock

omit [Field K] in
theorem Settled.mono {clock clock' : K} {session : ExecutionSession K} (h : Settled clock session)
    (later : clock ≤ clock') : Settled clock' session := by
  rcases h with active | ⟨expired, reached⟩
  · exact .inl active
  · exact .inr ⟨expired, reached.trans later⟩

omit [Field K] in
theorem Settled.isActive {clock now : K} {session : ExecutionSession K} (h : Settled clock session)
    (later : clock ≤ now) : session.isActive now = true ↔ now < session.expiresAt := by
  rw [ExecutionSession.isActive, Bool.and_eq_true, decide_eq_true_eq, ExecutionSession.isExpired,
    Bool.not_eq_true', decide_eq_false_iff_not, not_le]
  rcases h with active | ⟨expired, reached⟩
  · exact and_iff_right active
  · constructor
    · intro both
      exact both.2
    · intro before
      exact absurd (reached.trans later) (not_le.mpr before)

theorem seen_settled {sessions : Sessions K} {sessionId : String} {r : Lookup K} {clock : K}
    {session : ExecutionSession K} (before : sessions.get? sessionId = some session)
    (settled : Settled clock session) (later : clock ≤ r.checkedAt) :
    ∃ found, seen sessions sessionId r = some found ∧ found.sessionId = session.sessionId ∧
      found.expiresAt = session.expiresAt ∧ Settled r.checkedAt found := by
  unfold seen
  rw [before, Option.map_some]
  by_cases expired : session.isExpired r.checkedAt = true
  · rw [if_pos expired]
    exact ⟨_, rfl, rfl, rfl, .inr ⟨rfl, of_decide_eq_true expired⟩⟩
  · rw [if_neg expired]
    exact ⟨_, rfl, rfl, rfl, settled.mono later⟩

/-- Stored sessions are filed under their own identifiers and settled; objects handed out
share the expiry of the stored session. -/
structure Sound (st : State K) : Prop where
  stored : ∀ sessionId session, st.sessions.get? sessionId = some session →
    session.sessionId = sessionId ∧ Settled st.clock session
  handed : ∀ session ∈ st.handed, ∃ session', st.sessions.get? session.sessionId = some session' ∧
    session'.expiresAt = session.expiresAt ∧ Settled st.clock session

/-- A later state: every session is still there, with the same expiry. -/
structure Extends (st st' : State K) : Prop where
  clock : st.clock ≤ st'.clock
  sessions : ∀ sessionId session, st.sessions.get? sessionId = some session →
    ∃ session', st'.sessions.get? sessionId = some session' ∧
      session'.expiresAt = session.expiresAt

theorem Extends.refl (st : State K) : Extends st st :=
  ⟨le_rfl, fun _ session h => ⟨session, h, rfl⟩⟩

theorem Extends.trans {st₁ st₂ st₃ : State K} (h : Extends st₁ st₂) (h' : Extends st₂ st₃) :
    Extends st₁ st₃ := by
  refine ⟨h.clock.trans h'.clock, ?_⟩
  intro sessionId session hsession
  obtain ⟨session₂, hsession₂, hexpiry₂⟩ := h.sessions _ _ hsession
  obtain ⟨session₃, hsession₃, hexpiry₃⟩ := h'.sessions _ _ hsession₂
  exact ⟨session₃, hsession₃, hexpiry₃.trans hexpiry₂⟩

variable [PyMath K] {libs : Libraries K} {key : String} {st : State K} {clock' : K}
  {act : Act K R A C S} {op : Operation K R A C S}

omit [PyMath K] in
theorem Act.Timed.le (timed : act.Timed st.clock clock') : st.clock ≤ clock' := by
  cases act with
  | operation op => exact Operation.Timed.le timed
  | inspected session now => exact timed.1.trans timed.2

theorem Act.next_extends (allowed : act.Allowed libs key st)
    (timed : act.Timed st.clock clock') : Extends st (act.next libs st clock') := by
  cases act with
  | inspected session now => exact ⟨Act.Timed.le timed, (Extends.refl st).sessions⟩
  | operation op =>
    refine ⟨Operation.Timed.le timed, ?_⟩
    intro sessionId session before
    obtain ⟨session', hafter⟩ : ∃ session', (op.after libs st.sessions).get? sessionId =
      some session' := Operation.after_isSome before
    refine ⟨session', hafter, ?_⟩
    cases Operation.became hafter with
    | kept same =>
      obtain rfl := Option.some.inj (same.symm.trans before)
      rfl
    | minted minted hkey =>
      have fresh := allowed.2 _ minted
      rw [hkey, before] at fresh
      cases fresh
    | expired lookup same expired =>
      obtain rfl := Option.some.inj (same.symm.trans before)
      rfl

theorem minted_stored (clock : K) {session : ExecutionSession K}
    (minted : op.mints libs = some session) :
    Settled clock session ∧ ∃ session', (op.after libs st.sessions).get? session.sessionId =
      some session' ∧ session'.expiresAt = session.expiresAt := by
  obtain ⟨_, _, created⟩ := Operation.mints_minted minted
  refine ⟨.inl created.status, session, ?_, rfl⟩
  rw [Operation.after_mint minted]
  exact Dict.get?_set_self _ _ _

theorem handsOut_stored (sound : Sound st) (allowed : act.Allowed libs key st)
    (timed : act.Timed st.clock clock') {session : ExecutionSession K}
    (handsOut : act.handsOut libs st.sessions = some session) :
    Settled clock' session ∧ ∃ session', (act.next libs st clock').sessions.get?
      session.sessionId = some session' ∧ session'.expiresAt = session.expiresAt := by
  have extends_st := Act.next_extends allowed timed
  cases act with
  | inspected session now => cases handsOut
  | operation op =>
    cases op with
    | lookup sessionId r =>
      have hlookup : Lookup.Timed st.clock r clock' := timed
      obtain ⟨before, hbefore, -⟩ := Option.map_eq_some_iff.mp handsOut
      obtain ⟨filed, settled⟩ := sound.stored _ _ hbefore
      obtain ⟨found, hfound, hid, hexpiry, hsettled⟩ := seen_settled hbefore settled hlookup.1
      obtain rfl := Option.some.inj (hfound.symm.trans handsOut)
      obtain ⟨stored, hafter, hstored⟩ := extends_st.sessions _ _ hbefore
      refine ⟨hsettled.mono (hlookup.2.1.trans (hlookup.2.2.1.trans hlookup.2.2.2)), stored, ?_,
        hstored.trans hexpiry.symm⟩
      rw [hid, filed]
      exact hafter
    | create => exact minted_stored clock' handsOut
    | createCommand => exact minted_stored clock' handsOut
    | validate => exact minted_stored clock' handsOut
    | command => exact minted_stored clock' handsOut

theorem Act.next_sound (sound : Sound st) (allowed : act.Allowed libs key st)
    (timed : act.Timed st.clock clock') : Sound (act.next libs st clock') := by
  have later := Act.Timed.le timed
  have extends_st := Act.next_extends allowed timed
  cases act with
  | inspected session now =>
    constructor
    · intro sessionId session' before
      exact ⟨(sound.stored _ _ before).1, (sound.stored _ _ before).2.mono later⟩
    · intro session' hmem
      obtain ⟨stored, before, hexpiry, settled⟩ := sound.handed session' hmem
      exact ⟨stored, before, hexpiry, settled.mono later⟩
  | operation op =>
    constructor
    · intro sessionId session hafter
      cases Operation.became hafter with
      | kept before =>
        exact ⟨(sound.stored _ _ before).1, (sound.stored _ _ before).2.mono later⟩
      | minted minted hkey =>
        obtain ⟨_, _, created⟩ := Operation.mints_minted minted
        exact ⟨hkey, .inl created.status⟩
      | expired lookup before expired =>
        have hlookup := Operation.Timed.lookup timed lookup
        have reached := of_decide_eq_true expired
        refine ⟨(sound.stored _ _ before).1, .inr ⟨rfl, ?_⟩⟩
        exact reached.trans (hlookup.2.1.trans (hlookup.2.2.1.trans hlookup.2.2.2))
    · intro session hmem
      rcases List.mem_append.mp hmem with hmem | hmem
      · obtain ⟨stored, before, hexpiry, settled⟩ := sound.handed session hmem
        obtain ⟨stored', hafter, hexpiry'⟩ := extends_st.sessions _ _ before
        exact ⟨stored', hafter, hexpiry'.trans hexpiry, settled.mono later⟩
      · obtain ⟨settled, stored, hafter, hexpiry⟩ :=
          handsOut_stored sound allowed timed (Option.mem_toList.mp hmem)
        exact ⟨stored, hafter, hexpiry, settled⟩

theorem SessionRun.moments {moments : List (Moment K R A C S)}
    (run : SessionRun libs key moments st) : Sound st ∧
      (∀ m ∈ moments, Sound m.state ∧ m.act.Allowed libs key m.state ∧
        m.act.Timed m.state.clock m.clock' ∧ Extends (m.next libs) st) ∧
      moments.Pairwise fun m m' => Extends (m.next libs) m'.state := by
  induction run with
  | start clock =>
    refine ⟨⟨?_, by simp⟩, by simp, List.Pairwise.nil⟩
    intro sessionId session h
    cases h
  | @step moments st act clock' run allowed timed ih =>
    obtain ⟨sound, each, ordered⟩ := ih
    have extends_st := Act.next_extends allowed timed
    refine ⟨Act.next_sound sound allowed timed, ?_, ?_⟩
    · intro m hm
      rcases List.mem_append.mp hm with hm | hm
      · obtain ⟨hsound, hallowed, htimed, hextends⟩ := each m hm
        exact ⟨hsound, hallowed, htimed, hextends.trans extends_st⟩
      · obtain rfl := List.mem_singleton.mp hm
        exact ⟨sound, allowed, timed, Extends.refl _⟩
    · rw [List.pairwise_append]
      refine ⟨ordered, List.pairwise_singleton _ _, ?_⟩
      intro m hm m' hm'
      obtain rfl := List.mem_singleton.mp hm'
      exact (each m hm).2.2.2

variable {session : ExecutionSession K} {creation : Moment K R A C S}
  {before rest : List (Moment K R A C S)}

/-- The session is in the table, with its expiry. -/
def Kept (session : ExecutionSession K) (sessions : Sessions K) : Prop :=
  ∃ session', sessions.get? session.sessionId = some session' ∧
    session'.expiresAt = session.expiresAt

omit [PyMath K] in
theorem Kept.seen {st : State K} {r : Lookup K} {clock' : K} (kept : Kept session st.sessions)
    (sound : Sound st) (timed : Lookup.Timed st.clock r clock') :
    ∃ found, seen st.sessions session.sessionId r = some found ∧
      (found.isActive r.activeAt = true ↔ r.activeAt < session.expiresAt) := by
  obtain ⟨session', hsession', hexpiry⟩ := kept
  have settled := (sound.stored _ _ hsession').2
  obtain ⟨found, hfound, -, hexpires, hsettled⟩ := seen_settled hsession' settled timed.1
  refine ⟨found, hfound, ?_⟩
  rw [hsettled.isActive (timed.2.1.trans timed.2.2.1), hexpires, hexpiry]

/-- A command for a kept session raises `SessionExpiredError` exactly from its expiry on, and
then it calls nothing. -/
theorem Kept.command (libs : Libraries K) {st : State K}
    {call : Invocation K (Sessions K) R A C S} {r : Lookup K} {clock' : K}
    (kept : Kept session st.sessions) (sound : Sound st)
    (timed : Lookup.Timed st.clock r clock') (discreet : Discreet call.ports)
    (hid : call.cmd.sessionId = session.sessionId) :
    ((∃ message, (onAdapter libs call r st.sessions).result = .error (.sessionExpired message)) ↔
      session.expiresAt ≤ r.activeAt) ∧
    (session.expiresAt ≤ r.activeAt →
      (onAdapter libs call r st.sessions).after.trace = call.world.trace) := by
  obtain ⟨found, hfound, hactive⟩ := kept.seen sound timed
  rw [← hid] at hfound
  have refused : session.expiresAt ≤ r.activeAt → found.isActive r.activeAt = false := by
    intro reached
    rw [← Bool.not_eq_true, hactive]
    exact not_lt.mpr reached
  refine ⟨⟨?_, ?_⟩, ?_⟩
  · rintro ⟨message, expired⟩
    obtain ⟨found', hfound', inactive⟩ := command_expired discreet expired
    obtain rfl := Option.some.inj (hfound.symm.trans hfound')
    apply not_lt.mp
    intro before
    rw [hactive.mpr before] at inactive
    cases inactive
  · intro reached
    exact ⟨_, (command_refused hfound (refused reached)).1⟩
  · intro reached
    exact (command_refused hfound (refused reached)).2

omit [PyMath K] in
theorem Kept.token {st : State K} {r : Lookup K} {clock' : K} (kept : Kept session st.sessions)
    (sound : Sound st) (timed : Lookup.Timed st.clock r clock')
    (accepted : libs.decode session.executionToken key =
      .ok (claims session.sessionId session.agentId)) :
    ((validateToken libs (.ok key) session.executionToken r).run st.sessions).1 =
      .ok (decide (r.activeAt < session.expiresAt)) := by
  obtain ⟨found, hfound, hactive⟩ := kept.seen sound timed
  have claim : (claims session.sessionId session.agentId : List (String × PyVal K)).lookup
      "session_id" = some (.str session.sessionId) := rfl
  rw [validateToken_result accepted claim, hfound]
  simp only [Option.map_some, Option.getD_some, Except.ok.injEq]
  rw [Bool.eq_iff_iff, hactive, decide_eq_true_eq]

def Moment.Creates (libs : Libraries K) (m : Moment K R A C S) (session : ExecutionSession K) :
    Prop :=
  ∃ op, m.act = .operation op ∧ op.mints libs = some session

theorem Moment.next_clock (m : Moment K R A C S) : (m.next libs).clock = m.clock' := by
  obtain ⟨act, st, clock'⟩ := m
  cases act with
  | operation op => rfl
  | inspected object now => rfl

omit [PyMath K] in
theorem Moment.Creates.token (created : creation.Creates libs session)
    (allowed : creation.act.Allowed libs key creation.state) :
    libs.encode (claims session.sessionId session.agentId) key = .ok session.executionToken := by
  obtain ⟨act, st, clock'⟩ := creation
  obtain ⟨op, rfl, minted⟩ := created
  cases op with
  | create secret agentId createdBy r =>
    obtain ⟨key', hsecret, token⟩ := (create_minted minted).token
    obtain rfl := Except.ok.inj (hsecret.symm.trans allowed.1)
    exact token
  | createCommand secret cmd audit world r =>
    obtain ⟨key', hsecret, token⟩ := (create_minted minted).token
    obtain rfl := Except.ok.inj (hsecret.symm.trans allowed.1)
    exact token
  | lookup => cases minted
  | validate => cases minted
  | command => cases minted

theorem SessionRun.kept (run : SessionRun libs key (before ++ creation :: rest) st)
    (created : creation.Creates libs session) :
    ∀ m ∈ rest, Kept session m.state.sessions := by
  intro m hm
  obtain ⟨-, each, ordered⟩ := run.moments
  have later := (List.pairwise_cons.mp (List.pairwise_append.mp ordered).2.1).1 m hm
  obtain ⟨op, hop, minted⟩ := created
  obtain ⟨session', hafter, hexpiry⟩ : ∃ session',
      (op.after libs creation.state.sessions).get? session.sessionId = some session' ∧
        session'.expiresAt = session.expiresAt := (minted_stored creation.clock' minted).2
  have hnext : (creation.next libs).sessions.get? session.sessionId = some session' := by
    rw [Moment.next, hop]
    exact hafter
  obtain ⟨session'', hsession'', hexpiry''⟩ := later.sessions _ _ hnext
  exact ⟨session'', hsession'', hexpiry''.trans hexpiry⟩

end Invariant

end SessionRuns
