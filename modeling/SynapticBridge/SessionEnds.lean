import SynapticBridge.SessionOperations

/-! How sessions end. `get_session` expires whatever it finds past its expiry, so a lookup of
a session that already ended gives it another end. -/
namespace SessionEnds

open Domain CorrectionPatterns OrderedDict Ports ExecuteToolRuns ExecutionAdapter
open SessionOperations

variable {K : Type} [Field K] [LinearOrder K] {R A C S : Type}

/-- An operation, or the holder of an active session storing what its `terminate` returns. -/
inductive Event (K : Type) [Field K] [LinearOrder K] (R A C S : Type) where
  | operation (op : Operation K R A C S)
  | terminated (sessionId : String) (now : K)

/-- The table after an active session was terminated. -/
def afterTermination (sessions : Sessions K) (sessionId : String) (now : K) : Sessions K :=
  match sessions.get? sessionId with
  | none => sessions
  | some session =>
    if session.status = .active then sessions.set sessionId (session.terminate now) else sessions

def Event.after [PyMath K] (libs : Libraries K) (event : Event K R A C S)
    (sessions : Sessions K) : Sessions K :=
  match event with
  | .operation op => op.after libs sessions
  | .terminated sessionId now => afterTermination sessions sessionId now

def Event.Timed (clock : K) (event : Event K R A C S) (clock' : K) : Prop :=
  match event with
  | .operation op => op.Timed clock clock'
  | .terminated _ now => clock ≤ now ∧ now ≤ clock'

/-- Runs from an empty adapter: the events with the tables they meet, the table reached and the
latest clock reading. -/
inductive Run [PyMath K] (libs : Libraries K) :
    List (Event K R A C S × Sessions K) → Sessions K → K → Prop where
  | start (clock : K) : Run libs [] .empty clock
  | step {steps : List (Event K R A C S × Sessions K)} {sessions : Sessions K} {clock clock' : K}
      {event : Event K R A C S} (run : Run libs steps sessions clock)
      (timed : event.Timed clock clock') :
      Run libs (steps ++ [(event, sessions)]) (event.after libs sessions) clock'

def Ended (session : ExecutionSession K) : Prop :=
  session.status = .expired ∨ session.status = .terminated

def isEnding (event : DomainEvent K) : Bool :=
  match event.body with
  | .sessionEnded _ => true
  | _ => false

def endings (session : ExecutionSession K) : ℕ := session.domainEvents.countP isEnding

/-- One end for each session, no new status after it, and no change by looking at it. -/
structure Lawful [PyMath K] (libs : Libraries K) (event : Event K R A C S)
    (sessions : Sessions K) : Prop where
  once : ∀ {sessionId session}, (event.after libs sessions).get? sessionId = some session →
    endings session ≤ 1
  stays : ∀ {sessionId session}, sessions.get? sessionId = some session → Ended session →
    ∃ session', (event.after libs sessions).get? sessionId = some session' ∧
      session'.status = session.status
  unchanged : ∀ {sessionId r session}, event = .operation (.lookup sessionId r) →
    sessions.get? sessionId = some session → Ended session → event.after libs sessions = sessions

/-- The event looks up an ended session at or after its expiry, or stores a new session under
the identifier of an ended one. -/
def Disturbs (libs : Libraries K) (event : Event K R A C S) (sessions : Sessions K) : Prop :=
  match event with
  | .operation op =>
    (∃ sessionId r session, op.looksUp libs = some (sessionId, r) ∧
      sessions.get? sessionId = some session ∧ Ended session ∧
      session.isExpired r.checkedAt = true) ∨
    ∃ minted session, op.mints libs = some minted ∧
      sessions.get? minted.sessionId = some session ∧ Ended session
  | .terminated _ _ => False

@[simp] theorem endings_expire (session : ExecutionSession K) (now : K) :
    endings (session.expire now) = endings session + 1 := by
  simp [endings, ExecutionSession.expire, isEnding]

@[simp] theorem endings_terminate (session : ExecutionSession K) (now : K) :
    endings (session.terminate now) = endings session + 1 := by
  simp [endings, ExecutionSession.terminate, isEnding]

omit [Field K] in
theorem active_not_ended {session : ExecutionSession K} (h : session.status = .active) :
    ¬ Ended session := by
  simp [Ended, h]

/-- A termination leaves a session as it was, or terminated if it was active. -/
theorem terminated_became {sessions : Sessions K} {x sessionId : String} {now : K}
    {session : ExecutionSession K}
    (h : (afterTermination sessions x now).get? sessionId = some session) :
    sessions.get? sessionId = some session ∨
      ∃ before, sessions.get? sessionId = some before ∧ before.status = .active ∧
        session = before.terminate now := by
  unfold afterTermination at h
  rcases hbefore : sessions.get? x with _ | before
  · rw [hbefore] at h
    exact .inl h
  · simp only [hbefore] at h
    split_ifs at h with active
    · rw [Dict.get?_set] at h
      split_ifs at h with hx
      · subst hx
        exact .inr ⟨before, hbefore, active, (Option.some.inj h).symm⟩
      · exact .inl h
    · exact .inl h

/-- Ended sessions have an end, the others have none. -/
def Tallied (sessions : Sessions K) : Prop :=
  ∀ sessionId session, sessions.get? sessionId = some session →
    (Ended session → 1 ≤ endings session) ∧ (¬ Ended session → endings session = 0)

theorem Tallied.after [PyMath K] {libs : Libraries K} {event : Event K R A C S}
    {sessions : Sessions K} (h : Tallied sessions) : Tallied (event.after libs sessions) := by
  intro sessionId session hafter
  cases event with
  | operation op =>
    cases Operation.became hafter with
    | kept before => exact h _ _ before
    | minted minted key =>
      obtain ⟨_, _, created⟩ := Operation.mints_minted minted
      constructor
      · intro ended
        exact absurd ended (active_not_ended created.status)
      · intro _
        rw [endings, created.domainEvents]
        rfl
    | expired lookup before expired =>
      rw [endings_expire]
      exact ⟨fun _ => by omega, fun alive => absurd (Or.inl rfl) alive⟩
  | terminated x now =>
    rcases terminated_became hafter with before | ⟨before, hbefore, active, rfl⟩
    · exact h _ _ before
    · rw [endings_terminate]
      exact ⟨fun _ => by omega, fun alive => absurd (Or.inr rfl) alive⟩

/-- A disturbed session has a second end or a new status. -/
theorem Disturbs.not_lawful [PyMath K] {libs : Libraries K} {event : Event K R A C S}
    {sessions : Sessions K} (tallied : Tallied sessions) (h : Disturbs libs event sessions) :
    ¬ Lawful libs event sessions := by
  intro lawful
  cases event with
  | terminated x now => exact h
  | operation op =>
    rcases h with ⟨x, r, session, hlookup, before, ended, expired⟩ |
      ⟨minted, session, hmints, before, ended⟩
    · have hafter : (Event.after libs (.operation op) sessions).get? x =
          some (session.expire r.endedAt) := by
        change (op.after libs sessions).get? x = _
        rw [Operation.after_lookup hlookup, get?_afterLookup, if_pos rfl, seen, before,
          Option.map_some, if_pos expired]
      have honce := lawful.once hafter
      have hfirst := (tallied _ _ before).1 ended
      rw [endings_expire] at honce
      omega
    · have hafter : (Event.after libs (.operation op) sessions).get? minted.sessionId =
          some minted := by
        change (op.after libs sessions).get? minted.sessionId = _
        rw [Operation.after_mint hmints]
        exact Dict.get?_set_self _ _ _
      obtain ⟨session', hsession', status⟩ := lawful.stays before ended
      obtain rfl := Option.some.inj (hafter.symm.trans hsession')
      obtain ⟨_, _, created⟩ := Operation.mints_minted hmints
      rw [created.status] at status
      exact active_not_ended status.symm ended

/-- An undisturbed ended session stays as it is. -/
theorem undisturbed_kept [PyMath K] {libs : Libraries K} {event : Event K R A C S}
    {sessions : Sessions K} (h : ¬ Disturbs libs event sessions) {sessionId : String}
    {session : ExecutionSession K} (before : sessions.get? sessionId = some session)
    (ended : Ended session) : (event.after libs sessions).get? sessionId = some session := by
  cases event with
  | operation op =>
    obtain ⟨hlooks, hmints⟩ := not_or.mp h
    obtain ⟨session', hafter⟩ : ∃ session', (op.after libs sessions).get? sessionId =
      some session' := Operation.after_isSome before
    change (op.after libs sessions).get? sessionId = _
    rw [hafter]
    cases Operation.became hafter with
    | kept same => exact same.symm.trans before
    | minted minted key =>
      rw [← key] at before
      exact absurd ⟨_, session, minted, before, ended⟩ hmints
    | expired lookup same expired =>
      obtain rfl := Option.some.inj (same.symm.trans before)
      exact absurd ⟨_, _, _, lookup, before, ended, expired⟩ hlooks
  | terminated x now =>
    change (afterTermination sessions x now).get? sessionId = _
    unfold afterTermination
    by_cases hx : sessionId = x
    · subst hx
      have inactive : ¬ session.status = .active := fun active => active_not_ended active ended
      simp only [before, if_neg inactive]
    · rcases sessions.get? x with _ | other
      · exact before
      · by_cases active : other.status = .active
        · simp only [if_pos active]
          exact (Dict.get?_set_of_ne _ hx _).trans before
        · simp only [if_neg active]
          exact before

/-- At most one end each. -/
def Single (sessions : Sessions K) : Prop :=
  ∀ sessionId session, sessions.get? sessionId = some session → endings session ≤ 1

theorem Single.after [PyMath K] {libs : Libraries K} {event : Event K R A C S}
    {sessions : Sessions K} (tallied : Tallied sessions) (single : Single sessions)
    (h : ¬ Disturbs libs event sessions) : Single (event.after libs sessions) := by
  intro sessionId session hafter
  cases event with
  | operation op =>
    cases Operation.became hafter with
    | kept before => exact single _ _ before
    | minted minted key =>
      obtain ⟨_, _, created⟩ := Operation.mints_minted minted
      rw [endings, created.domainEvents]
      exact Nat.zero_le 1
    | @expired session r lookup before expired =>
      have alive : ¬ Ended session := by
        intro ended
        exact h (.inl ⟨sessionId, r, session, lookup, before, ended, expired⟩)
      rw [endings_expire, (tallied _ _ before).2 alive]
  | terminated x now =>
    rcases terminated_became hafter with before | ⟨before, hbefore, active, rfl⟩
    · exact single _ _ before
    · rw [endings_terminate, (tallied _ _ hbefore).2 (active_not_ended active)]

theorem undisturbed_lawful [PyMath K] {libs : Libraries K} {event : Event K R A C S}
    {sessions : Sessions K} (tallied : Tallied sessions) (single : Single sessions)
    (h : ¬ Disturbs libs event sessions) : Lawful libs event sessions := by
  constructor
  · intro sessionId session hafter
    exact Single.after tallied single h _ _ hafter
  · intro sessionId session before ended
    exact ⟨session, undisturbed_kept h before ended, rfl⟩
  · rintro sessionId r session rfl before ended
    have fresh : ¬ session.isExpired r.checkedAt = true := by
      intro expired
      exact h (.inl ⟨sessionId, r, session, rfl, before, ended, expired⟩)
    change ((getSession sessionId r).run sessions).2 = sessions
    rw [getSession_run, afterLookup, before]
    simp only [if_neg fresh]

variable [PyMath K] {libs : Libraries K} {steps : List (Event K R A C S × Sessions K)}
  {sessions : Sessions K} {clock : K}

/-- What holds of the empty table and survives every step holds of all tables of a run. -/
theorem Run.invariant {I : Sessions K → Prop} (run : Run libs steps sessions clock)
    (initial : I .empty) (kept : ∀ step ∈ steps, I step.2 → I (step.1.after libs step.2)) :
    I sessions ∧ ∀ step ∈ steps, I step.2 := by
  induction run with
  | start clock => exact ⟨initial, by simp⟩
  | @step steps sessions clock clock' event run timed ih =>
    obtain ⟨now, earlier⟩ := ih fun step hstep => kept step (List.mem_append_left _ hstep)
    refine ⟨kept (event, sessions) (by simp) now, ?_⟩
    intro step hstep
    rcases List.mem_append.mp hstep with hstep | hstep
    · exact earlier step hstep
    · obtain rfl := List.mem_singleton.mp hstep
      exact now

theorem Run.tallied (run : Run libs steps sessions clock) : ∀ step ∈ steps, Tallied step.2 := by
  refine (run.invariant ?_ fun step _ => Tallied.after).2
  intro sessionId session h
  cases h

theorem Run.single (run : Run libs steps sessions clock)
    (undisturbed : ∀ step ∈ steps, ¬ Disturbs libs step.1 step.2) :
    ∀ step ∈ steps, Single step.2 := by
  refine (run.invariant ?_ fun step hstep single =>
    Single.after (run.tallied step hstep) single (undisturbed step hstep)).2
  intro sessionId session h
  cases h

/-- A run keeps the law of ended sessions exactly if nothing in it disturbs one. -/
theorem Run.lawful_iff (run : Run libs steps sessions clock) :
    (∀ step ∈ steps, Lawful libs step.1 step.2) ↔
      ∀ step ∈ steps, ¬ Disturbs libs step.1 step.2 := by
  constructor
  · intro lawful step hstep disturbs
    exact disturbs.not_lawful (run.tallied step hstep) (lawful step hstep)
  · intro undisturbed step hstep
    exact undisturbed_lawful (run.tallied step hstep) (run.single undisturbed step hstep)
      (undisturbed step hstep)

/-! One session, looked up at its expiry and once more. -/

section Sample

noncomputable def sampleLookup (now : ℝ) : Operation ℝ Unit Unit Unit Unit :=
  .lookup "session_0123456789ab" ⟨now, now, now⟩

theorem sampleCreate_after : sampleCreate.after sampleLibs .empty =
    Dict.empty.set "session_0123456789ab" (mintedSample sample_start) :=
  Operation.after_mint sampleCreate_mints .empty

theorem sample_expires : ((sampleLookup 900).after sampleLibs
    (sampleCreate.after sampleLibs .empty)).get? "session_0123456789ab" =
      some ((mintedSample sample_start).expire 900) := by
  have looks : (sampleLookup 900).looksUp sampleLibs =
    some ("session_0123456789ab", ⟨900, 900, 900⟩) := rfl
  rw [Operation.after_lookup looks, get?_afterLookup, if_pos rfl, seen, sampleCreate_after,
    Dict.get?_set_self, Option.map_some, if_pos (sample_expired le_rfl)]

/-- The session is created and found expired. -/
theorem sample_run : Run sampleLibs
    [(.operation sampleCreate, .empty),
      (.operation (sampleLookup 900), sampleCreate.after sampleLibs .empty)]
    ((sampleLookup 900).after sampleLibs (sampleCreate.after sampleLibs .empty)) 900 := by
  have start : Run sampleLibs ([] : List (Event ℝ Unit Unit Unit Unit × Sessions ℝ)) .empty 0 :=
    .start 0
  have create : (Event.operation sampleCreate).Timed 0 0 := ⟨le_rfl, le_rfl, le_rfl⟩
  have lookup : (Event.operation (sampleLookup 900)).Timed 0 900 :=
    ⟨by norm_num, le_rfl, le_rfl, le_rfl⟩
  exact (start.step create).step lookup

theorem lawful_iff_sample : ∃ steps sessions clock, steps.length = 2 ∧
    Run (R := Unit) (A := Unit) (C := Unit) (S := Unit) sampleLibs steps sessions (clock : ℝ) ∧
    ∀ step ∈ steps, Lawful sampleLibs step.1 step.2 := by
  refine ⟨_, _, _, rfl, sample_run, sample_run.lawful_iff.mpr ?_⟩
  intro step hstep
  rcases List.mem_pair.mp hstep with rfl | rfl
  · rintro (⟨x, r, session, hlook, -⟩ | ⟨minted, session, -, before, -⟩)
    · cases hlook
    · cases before
  · rintro (⟨x, r, session, hlook, before, ended, -⟩ | ⟨minted, session, hmint, -⟩)
    · obtain ⟨rfl, rfl⟩ := Prod.mk.inj (Option.some.inj hlook)
      rw [sampleCreate_after, Dict.get?_set_self] at before
      obtain rfl := Option.some.inj before
      exact active_not_ended rfl ended
    · cases hmint

/-- Looked up again, the expired session ends once more. -/
theorem second_lookup_ends_again : ∃ steps sessions clock,
    Run (R := Unit) (A := Unit) (C := Unit) (S := Unit) sampleLibs steps sessions (clock : ℝ) ∧
    (∀ step ∈ steps, ∃ op, step.1 = .operation op) ∧
    ¬ ∀ step ∈ steps, Lawful sampleLibs step.1 step.2 := by
  have again : (Event.operation (sampleLookup 901)).Timed (900 : ℝ) 901 :=
    ⟨by norm_num, le_rfl, le_rfl, le_rfl⟩
  have run := sample_run.step again
  refine ⟨_, _, _, run, ?_, ?_⟩
  · simp
  · intro lawful
    have late : ((mintedSample sample_start).expire 900).isExpired 901 = true :=
      sample_expired (by norm_num)
    have disturbs : Disturbs sampleLibs (.operation (sampleLookup 901)) _ :=
      .inl ⟨_, _, _, rfl, sample_expires, .inl rfl, late⟩
    apply disturbs.not_lawful (run.tallied (.operation (sampleLookup 901), _) _)
      (lawful (.operation (sampleLookup 901), _) _)
    · exact List.mem_append_right _ (List.mem_singleton_self _)
    · exact List.mem_append_right _ (List.mem_singleton_self _)

end Sample

end SessionEnds
