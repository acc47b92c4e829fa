import SynapticBridge.ApiSteps
import SynapticBridge.SessionRuns
import Mathlib.Data.Option.Basic

/-! Runs of the API. What `/execute` answers after a run, and what tools the run has called, is
decided by the requests before it: the sessions, tools and policies they made and the limiter's
ledger. -/
namespace ApiRuns

open Domain CorrectionPatterns OrderedDict Ports ExecutionAdapter SigningKeys Api ApiSteps
open ExecuteEndpoint (Arrival Records Full ledger)
open ExecuteTool (ExecuteToolCommand)
open ExecuteToolRuns
open SessionRuns (Settled)
open SessionOperations (Creation.Timed Lookup.Timed)
open Procedures.Proc (bind_run)

variable {K : Type} [Field K] [LinearOrder K] {C S : Type}

section History

variable (app : App K C S) (before : List (Request K))

def sessionsMade : Sessions K := .ofList (·.sessionId) (before.filterMap (sessionMade app))
def toolsMade : Dict String ToolManifest := .ofList (·.toolName) (before.filterMap (toolMade app))
def policiesMade : Dict String Policy := .ofList (·.policyId) (before.filterMap (policyMade app))
def arrivals : List (Arrival K) := before.filterMap (arrivalMade app)

/-- The requests before a call let it execute its tool: its token is that of the session it
names, the limiter has room, the session was created and has not expired, the tool was
registered, and every policy that was added allows the call. -/
structure Granted (call : ExecuteCall K) (a : Arrival K) (session : ExecutionSession K) : Prop where
  token : arrival app call = some a
  owns : a.owns = true
  room : ¬ Full app.limit a (ledger app.limit (arrivals app before))
  created : (sessionsMade app before).get? call.request.sessionId = some session
  live : call.lookup.activeAt < session.expiresAt
  registered : ∃ manifest, (toolsMade app before).get? call.request.toolName = some manifest
  allowed : ∀ p ∈ (policiesMade app before).values,
    Allows (command call) (OpaPolicyEngine.opaPolicyEngine (policiesMade app before)) session
      call.request.toolName p

end History

section Clock

/-- The clock does not run back from `clock` over the readings of a request to `clock'`. -/
def Timed (clock : K) (q : Request K) (clock' : K) : Prop :=
  match q with
  | .createSession _ _ r => Creation.Timed clock r clock'
  | .execute call => clock ≤ call.now ∧ Lookup.Timed call.now call.lookup clock'
  | .getSession _ _ r => Lookup.Timed clock r clock'
  | _ => clock ≤ clock'

/-- The tool call of a request to `/execute` that was answered 200. -/
def served : Request K × Answer K → Option (String × String × PyVal K)
  | (.execute call, answer) =>
    if status answer = 200 then
      some (call.request.sessionId, call.request.toolName, call.request.parameters)
    else none
  | _ => none

/-- The requests so far with their answers, the state they lead to and the clock there. -/
inductive Run [PyMath K] [FloorRing K] (app : App K C S) :
    List (Request K × Answer K) → State K C S → K → Prop where
  | start (classifier : C) (corrections : S) (clock : K) :
      Run app [] (start classifier corrections) clock
  | step {done : List (Request K × Answer K)} {s : State K C S} {clock clock' : K}
      (run : Run app done s clock) (q : Request K) (timed : Timed clock q clock') :
      Run app (done ++ [(q, (step app q s).1)]) (step app q s).2 clock'

end Clock

section Reflection

variable {app : App K C S} {s : State K C S} {before : List (Request K)} {clock clock' : K}
  {q : Request K}

/-- A stored session is the created one, active or found expired. -/
structure Ages (clock : K) (created stored : ExecutionSession K) : Prop where
  sessionId : stored.sessionId = created.sessionId
  agentId : stored.agentId = created.agentId
  expiresAt : stored.expiresAt = created.expiresAt
  settled : Settled clock stored

omit [Field K] in
theorem Ages.mono {created stored : ExecutionSession K} (ages : Ages clock created stored)
    (later : clock ≤ clock') : Ages clock' created stored :=
  ⟨ages.sessionId, ages.agentId, ages.expiresAt, ages.settled.mono later⟩

omit [Field K] in
theorem ages_later {created stored : Option (ExecutionSession K)}
    (h : Option.Rel (Ages clock) created stored) (later : clock ≤ clock') :
    Option.Rel (Ages clock') created stored := by
  cases h with
  | none => exact .none
  | some ages => exact .some (ages.mono later)

omit [Field K] in
theorem ages_created {created : Option (ExecutionSession K)} {session : ExecutionSession K}
    (h : Option.Rel (Ages clock) created (some session)) :
    ∃ made, created = some made ∧ Ages clock made session := by
  cases h with
  | some ages => exact ⟨_, rfl, ages⟩

omit [Field K] in
theorem ages_stored {stored : Option (ExecutionSession K)} {made : ExecutionSession K}
    (h : Option.Rel (Ages clock) (some made) stored) :
    ∃ session, stored = some session ∧ Ages clock made session := by
  cases h with
  | some ages => exact ⟨_, rfl, ages⟩

/-- The state is what the requests so far made of it. -/
structure Reflects [FloorRing K] (app : App K C S) (before : List (Request K)) (s : State K C S)
    (clock : K) : Prop where
  cached : Cached app.env s.world.execution
  tools : s.world.registry = toolsMade app before
  policies : s.policies = policiesMade app before
  sessions : ∀ sessionId, Option.Rel (Ages clock) ((sessionsMade app before).get? sessionId)
    (s.world.execution.sessions.get? sessionId)
  limiter : ∃ h, RateLimiter.Run app.limit s.limiter h ∧
    Records app.limit (arrivals app before) h
  earlier : ∀ a ∈ arrivals app before, a.now ≤ clock

omit [Field K] in
theorem Timed.le (timed : Timed clock q clock') : clock ≤ clock' := by
  cases q with
  | createSession agentId createdBy r => exact timed.1.trans (timed.2.1.trans timed.2.2)
  | execute call => exact timed.1.trans (SessionOperations.Lookup.Timed.le timed.2)
  | getSession authorization sessionId r => exact SessionOperations.Lookup.Timed.le timed
  | registerTool | addPolicy | captureCorrection => exact timed

omit [Field K] in
theorem Timed.lookup (timed : Timed clock q clock') {r : Lookup K} (h : lookupOf q = some r) :
    clock ≤ r.checkedAt ∧ r.checkedAt ≤ r.activeAt ∧ r.activeAt ≤ clock' := by
  cases q with
  | execute call =>
    obtain rfl := Option.some.inj h
    obtain ⟨hnow, hchecked, hended, hactive, hle⟩ := timed
    exact ⟨hnow.trans hchecked, hended.trans hactive, hle⟩
  | getSession authorization sessionId r =>
    obtain rfl := Option.some.inj h
    obtain ⟨hchecked, hended, hactive, hle⟩ := timed
    exact ⟨hchecked, hended.trans hactive, hle⟩
  | createSession | registerTool | addPolicy | captureCorrection => cases h

/-- A lookup returns the stored session, expired if it is late. -/
theorem seen_ages {table : Sessions K} {sessionId : String} {r : Lookup K}
    {created : Option (ExecutionSession K)}
    (stored : Option.Rel (Ages clock) created (table.get? sessionId))
    (later : clock ≤ r.checkedAt) :
    Option.Rel (Ages r.checkedAt) created (seen table sessionId r) := by
  unfold seen
  generalize table.get? sessionId = found at stored ⊢
  cases stored with
  | none => exact .none
  | @some created found ages =>
    rw [Option.map_some]
    by_cases expired : found.isExpired r.checkedAt = true
    · rw [if_pos expired]
      exact .some ⟨ages.sessionId, ages.agentId, ages.expiresAt,
        .inr ⟨rfl, of_decide_eq_true expired⟩⟩
    · rw [if_neg expired]
      exact .some (ages.mono later)

omit [Field K] in
theorem put_ages {table table' : Sessions K} (made : Option (ExecutionSession K))
    (fresh : ∀ session, made = some session → session.status = .active)
    (stored : ∀ sessionId, Option.Rel (Ages clock) (table.get? sessionId) (table'.get? sessionId))
    (sessionId : String) : Option.Rel (Ages clock) ((put (·.sessionId) table made).get? sessionId)
      ((put (·.sessionId) table' made).get? sessionId) := by
  cases made with
  | none => exact stored sessionId
  | some session =>
    change Option.Rel _ ((table.set _ _).get? _) ((table'.set _ _).get? _)
    rw [Dict.get?_set, Dict.get?_set]
    split_ifs
    · exact .some ⟨rfl, rfl, rfl, .inl (fresh session rfl)⟩
    · exact stored sessionId

theorem sessionMade_active {session : ExecutionSession K}
    (h : sessionMade app q = some session) : session.status = .active := by
  cases q with
  | createSession agentId createdBy r =>
    exact (mintSession_ok (eq_ok_of_toOption h)).status
  | execute | getSession | registerTool | addPolicy | captureCorrection => cases h

theorem arrivalMade_now {a : Arrival K} (h : arrivalMade app q = some a) :
    ∃ call, q = .execute call ∧ a.now = call.now ∧ a.request = call.request := by
  cases q with
  | execute call =>
    obtain ⟨claim, -, rfl⟩ := Option.map_eq_some_iff.mp h
    exact ⟨call, rfl, rfl, rfl⟩
  | createSession | getSession | registerTool | addPolicy | captureCorrection => cases h

/-- One request keeps the state in step with the history. -/
theorem Reflects.step [IsStrictOrderedRing K] [FloorRing K] {s' : State K C S}
    (reflects : Reflects app before s clock) (moves : Moves app q s s')
    (timed : Timed clock q clock') : Reflects app (before ++ [q]) s' clock' where
  cached := moves.cached
  tools := by rw [moves.tools, reflects.tools, toolsMade, toolsMade, ofList_snoc]
  policies := by rw [moves.policies, reflects.policies, policiesMade, policiesMade, ofList_snoc]
  sessions := by
    have stored := put_ages (sessionMade app q) (fun _ => sessionMade_active) reflects.sessions
    intro sessionId
    rw [sessionsMade, ofList_snoc]
    rcases moves.sessions with hsame | ⟨looked, r, hlookup, hsessions⟩
    · rw [hsame]
      exact ages_later (stored sessionId) timed.le
    · obtain ⟨hchecked, hactive, hend⟩ := timed.lookup hlookup
      rw [hsessions, get?_afterLookup]
      split_ifs with hid
      · subst hid
        exact ages_later (seen_ages (stored _) hchecked) (hactive.trans hend)
      · exact ages_later (stored _) timed.le
  limiter := by
    obtain ⟨h, run, records⟩ := reflects.limiter
    rw [moves.limiter, arrivals, List.filterMap_append]
    cases hmade : arrivalMade app q with
    | none =>
      rw [List.filterMap_cons_none hmade]
      exact ⟨h, run, (List.append_nil _).symm ▸ records⟩
    | some a =>
      obtain ⟨call, rfl, hnow, -⟩ := arrivalMade_now hmade
      have later : ∀ b ∈ arrivals app before, b.now ≤ a.now := fun b hb =>
        hnow ▸ (reflects.earlier b hb).trans timed.1
      rw [List.filterMap_cons_some hmade]
      refine ⟨_, run.call a.request.sessionId a.now fun t ht => ?_,
        records.snoc (records.allowed_iff run later)⟩
      obtain ⟨b, hb, rfl⟩ := records.readings t ht
      exact later b hb
  earlier := by
    intro a ha
    rw [arrivals, List.filterMap_append] at ha
    rcases List.mem_append.mp ha with ha | ha
    · exact (reflects.earlier a ha).trans timed.le
    · obtain ⟨q', hq', hmade⟩ := List.mem_filterMap.mp ha
      rw [List.mem_singleton] at hq'
      subst hq'
      obtain ⟨call, rfl, hnow, -⟩ := arrivalMade_now hmade
      rw [hnow]
      exact (SessionOperations.Lookup.Timed.le timed.2)

theorem start_reflects [FloorRing K] (app : App K C S) (classifier : C) (corrections : S)
    (clock : K) : Reflects app [] (start classifier corrections) clock where
  cached := by
    constructor
    · intro key h
      cases h
    · intro manager h
      cases h
  tools := rfl
  policies := rfl
  sessions _ := .none
  limiter := ⟨[], .start, fun _ => rfl, fun _ h => by cases h⟩
  earlier _ h := by cases h

theorem Run.reflects [PyMath K] [IsStrictOrderedRing K] [FloorRing K]
    {done : List (Request K × Answer K)} (run : Run app done s clock) :
    Reflects app (done.map Prod.fst) s clock := by
  induction run with
  | start classifier corrections clock => exact start_reflects app classifier corrections clock
  | step run q timed ih =>
    rw [List.map_append]
    exact ih.step (step_moves ih.cached q) timed

/-- A policy of the table is enabled. -/
theorem policiesMade_enabled {p : Policy} (h : p ∈ (policiesMade app before).values) :
    p.enabled = true := by
  obtain ⟨id, hget⟩ := Dict.mem_values.mp h
  obtain ⟨hmem, -⟩ := Dict.mem_of_get?_ofList hget
  obtain ⟨q, -, hmade⟩ := List.mem_filterMap.mp hmem
  cases q with
  | addPolicy authorization request hex =>
    rw [policyMade] at hmade
    split_ifs at hmade
    exact policyOf_enabled (eq_ok_of_toOption hmade)
  | createSession | execute | getSession | registerTool | captureCorrection => cases hmade

theorem listPolicies_made (app : App K C S) (before : List (Request K)) :
    (OpaPolicyEngine.opaPolicyEngine (K := K) (policiesMade app before)).listPolicies =
      (policiesMade app before).values :=
  List.filter_eq_self.mpr fun _ hp => policiesMade_enabled hp

omit [Field K] in
/-- Policies see no more of a session than its agent. -/
theorem allows_congr {cmd : ExecuteToolCommand K} {engine : PolicyEngine K}
    {session session' : ExecutionSession K} (agent : session.agentId = session'.agentId)
    (toolName : String) (p : Policy) :
    Allows cmd engine session toolName p ↔ Allows cmd engine session' toolName p := by
  have hcontext : ExecuteTool.policyContext cmd session toolName =
      ExecuteTool.policyContext cmd session' toolName := by
    rw [ExecuteTool.policyContext, ExecuteTool.policyContext, agent]
  rw [Allows, Allows, hcontext]

/-- The limiter has room for a call exactly if its ledger is not full. -/
theorem Reflects.room [IsStrictOrderedRing K] [FloorRing K] {call : ExecuteCall K}
    (reflects : Reflects app before s clock) (timed : Timed clock (.execute call) clock')
    (claim : PyVal K) :
    (RateLimiter.isAllowed app.limit call.now call.request.sessionId s.limiter).1.1 = true ↔
      ¬ Full app.limit ⟨call.request, claim, call.now⟩
        (ledger app.limit (arrivals app before)) := by
  obtain ⟨h, run, records⟩ := reflects.limiter
  refine records.allowed_iff (a := ⟨call.request, claim, call.now⟩) run fun b hb => ?_
  exact (reflects.earlier b hb).trans timed.1

theorem Reflects.full [IsStrictOrderedRing K] [FloorRing K] {call : ExecuteCall K}
    (reflects : Reflects app before s clock) (timed : Timed clock (.execute call) clock')
    (claim : PyVal K) :
    (RateLimiter.isAllowed app.limit call.now call.request.sessionId s.limiter).1.1 = false ↔
      Full app.limit ⟨call.request, claim, call.now⟩ (ledger app.limit (arrivals app before)) := by
  rw [← Bool.not_eq_true, ← not_iff_not, not_not]
  exact reflects.room timed claim

/-- A call finds the session that was created, and finds it active until it expires. -/
theorem Reflects.finds [FloorRing K] {call : ExecuteCall K} (reflects : Reflects app before s clock)
    (timed : Timed clock (.execute call) clock') :
    Option.Rel (fun created session => session.agentId = created.agentId ∧
        session.isActive call.lookup.activeAt = decide (call.lookup.activeAt < created.expiresAt))
      ((sessionsMade app before).get? call.request.sessionId)
      (seen s.world.execution.sessions call.request.sessionId call.lookup) := by
  obtain ⟨hchecked, hactive, -⟩ := timed.lookup rfl
  have hseen := seen_ages (reflects.sessions call.request.sessionId) hchecked
  generalize (sessionsMade app before).get? call.request.sessionId = created,
    seen s.world.execution.sessions call.request.sessionId call.lookup = found at hseen ⊢
  cases hseen with
  | none => exact .none
  | @some created session ages =>
    refine .some ⟨ages.agentId, ?_⟩
    rw [Bool.eq_iff_iff, decide_eq_true_iff, ages.settled.isActive hactive, ages.expiresAt]

/-- What the state lets pass is what the history grants. -/
theorem Reflects.passes_iff [IsStrictOrderedRing K] [FloorRing K] {call : ExecuteCall K}
    (reflects : Reflects app before s clock) (timed : Timed clock (.execute call) clock')
    {a : Arrival K} :
    (∃ session, Passes app s call a session) ↔ ∃ session, Granted app before call a session := by
  obtain ⟨hchecked, hactive, -⟩ := timed.lookup rfl
  have hroom (token : arrival app call = some a) :
      (RateLimiter.isAllowed app.limit a.now a.request.sessionId s.limiter).1.1 = true ↔
        ¬ Full app.limit a (ledger app.limit (arrivals app before)) := by
    obtain ⟨claim, -, rfl⟩ := Option.map_eq_some_iff.mp token
    exact reflects.room timed claim
  have hseen := seen_ages (reflects.sessions call.request.sessionId) hchecked
  constructor
  · rintro ⟨session, token, owns, room, found, active, registered, allowed⟩
    rw [found] at hseen
    obtain ⟨created, hcreated, ages⟩ := ages_created hseen
    rw [reflects.policies, listPolicies_made] at allowed
    refine ⟨created, token, owns, (hroom token).mp room, hcreated, ?_,
      reflects.tools ▸ registered, fun p hp => ?_⟩
    · rw [← ages.expiresAt]
      exact (ages.settled.isActive hactive).mp active
    · exact (allows_congr ages.agentId _ _).mp (allowed p hp)
  · rintro ⟨created, token, owns, room, hcreated, live, registered, allowed⟩
    rw [hcreated] at hseen
    obtain ⟨session, found, ages⟩ := ages_stored hseen
    rw [← listPolicies_made, ← reflects.policies] at allowed
    refine ⟨session, token, owns, (hroom token).mpr room, found, ?_,
      reflects.tools.symm ▸ registered, fun p hp => ?_⟩
    · refine (ages.settled.isActive hactive).mpr ?_
      rw [ages.expiresAt]
      exact live
    · exact (allows_congr ages.agentId _ _).mpr (allowed p hp)

/-- The session found for a call is the one it names. -/
theorem Reflects.found_id [FloorRing K] {call : ExecuteCall K} {session : ExecutionSession K}
    (reflects : Reflects app before s clock) (later : clock ≤ call.lookup.checkedAt)
    (found : seen s.world.execution.sessions call.request.sessionId call.lookup = some session) :
    session.sessionId = call.request.sessionId := by
  have hseen := seen_ages (reflects.sessions call.request.sessionId) later
  rw [found] at hseen
  obtain ⟨created, hcreated, ages⟩ := ages_created hseen
  exact ages.sessionId.trans (Dict.mem_of_get?_ofList hcreated).2

end Reflection

section Results

variable [PyMath K] [IsStrictOrderedRing K] [FloorRing K] {app : App K C S} {s : State K C S}
  {done : List (Request K × Answer K)} {clock clock' : K}

/-- A call is answered 200 exactly if the history grants it, and the trace grows by the call that
was answered. -/
theorem Run.next (run : Run app done s clock) {q : Request K} (timed : Timed clock q clock') :
    (∀ call, q = .execute call → (status (Api.step app q s).1 = 200 ↔
      ∃ a session, Granted app (done.map Prod.fst) call a session)) ∧
    toolCalls (Api.step app q s).2.world.trace =
      toolCalls s.world.trace ++ (served (q, (Api.step app q s).1)).toList := by
  have reflects := run.reflects
  cases step_outcome reflects.cached q with
  | @called call a session request passes answered calls =>
    subst request
    constructor
    · intro call' hcall
      obtain rfl := Request.execute.inj hcall
      exact iff_of_true answered ⟨a, (reflects.passes_iff timed).mp ⟨session, passes⟩⟩
    · have hid := reflects.found_id (timed.lookup rfl).1 passes.found
      rw [calls, served, if_pos answered, hid]
      rfl
  | idle refused calls =>
    constructor
    · intro call hcall
      obtain ⟨never, unanswered⟩ := refused call hcall
      refine iff_of_false unanswered ?_
      subst hcall
      rintro ⟨a, granted⟩
      obtain ⟨session, passes⟩ := (reflects.passes_iff timed).mpr granted
      exact never a session passes
    · rw [calls]
      cases q with
      | execute call =>
        rw [served, if_neg (refused call rfl).2]
        exact (List.append_nil _).symm
      | createSession | getSession | registerTool | addPolicy | captureCorrection =>
        exact (List.append_nil _).symm

/-- Every call of a run was answered 200 exactly if the requests before it grant it. -/
theorem Run.granted (run : Run app done s clock) {before : List (Request K × Answer K)}
    {call : ExecuteCall K} {answer : Answer K}
    (hinit : before ++ [(.execute call, answer)] <+: done) :
    status answer = 200 ↔ ∃ a session, Granted app (before.map Prod.fst) call a session := by
  induction run with
  | start classifier corrections clock =>
    have := hinit.length_le
    simp at this
  | @step done s clock clock' run q timed ih =>
    rcases List.prefix_concat_iff.mp hinit with hlast | hearlier
    · obtain ⟨rfl, hexchange⟩ := List.append_inj' hlast rfl
      obtain ⟨rfl, rfl⟩ := Prod.mk.inj (List.singleton_inj.mp hexchange)
      exact (run.next timed).1 call rfl
    · exact ih hearlier

/-- In every run, a call of `/execute` is answered 200 exactly if the requests before it grant it:
a token of its session, room in the limiter, a session that was created and has not expired, a
registered tool, and the consent of every policy added so far. The tools that were called are
those of the calls answered 200, once each and in their order. -/
theorem Run.decided (run : Run app done s clock) :
    (∀ before call answer, before ++ [(.execute call, answer)] <+: done →
      (status answer = 200 ↔ ∃ a session, Granted app (before.map Prod.fst) call a session)) ∧
    toolCalls s.world.trace = done.filterMap served := by
  refine ⟨fun _ _ _ => run.granted, ?_⟩
  induction run with
  | start classifier corrections clock => rfl
  | step run q timed ih =>
    rw [(run.next timed).2, ih, List.filterMap_append]
    rfl

end Results

section Tokens

variable {app : App K C S} {s : State K C S} {agentId createdBy token : String} {r : Creation K}

theorem authenticate_bearer {key : String} (hread : readSecretKey app.env = .ok key)
    (token : String) : authenticate app ("Bearer " ++ token) = checkToken app.jwt token key := by
  have hdrop : ("Bearer " ++ token).toList.dropPrefix? "Bearer ".toList = some token.toList := by
    rw [List.dropPrefix?_eq_some_iff]
    exact ⟨"Bearer ".toList, String.toList_append, beq_self_eq_true _⟩
  rw [authenticate]
  simp only [hdrop, hread, String.ofList_toList]

/-- A token that was issued is accepted for its session, if there is a secret. -/
theorem authenticate_issued (sound : Sound app.jwt) (secret : app.env.secret ≠ "")
    {key : String} (hread : readSecretKey app.env = .ok key) {session : ExecutionSession K}
    (hmint : mintSession (app.jwt.libraries app.str) (signingKey app.env) agentId createdBy r =
      .ok session) :
    authenticate app ("Bearer " ++ session.executionToken) = .ok (.str session.sessionId) := by
  obtain ⟨hid, -, -, -, key', hsign, hencode⟩ := mintSession_ok hmint
  have hsession : session.sessionId ≠ "" := by
    rw [hid]
    exact newId_ne r
  rw [authenticate_bearer hread, checkToken_iff sound hencode hsession]
  exact ((keys_agree_iff hsign hread).mpr secret).1

def sessionBody (session : ExecutionSession K) : Body K :=
  .session session.sessionId session.executionToken session.status session.expiresAt

/-- `POST /sessions` answers with the session that it makes. -/
theorem createSession_answer (cached : Cached app.env s.world.execution)
    (agentId createdBy : String) (r : Creation K) :
    (Api.createSession app agentId createdBy r s).1 =
      CatalogEndpoints.respond ((mintSession (app.jwt.libraries app.str) (signingKey app.env)
        agentId createdBy r).map sessionBody) := by
  have hminted : ((SigningKeys.createSession app.jwt app.str app.env agentId createdBy r).run
      s.world.execution).1 = _ := (createSession_cached cached agentId createdBy r).1
  unfold Api.createSession CreateSessionCommand.execute
  dsimp only
  rcases hrun : (SigningKeys.createSession app.jwt app.str app.env agentId createdBy r).run
    s.world.execution with ⟨e | session, process⟩
  · rw [hrun] at hminted
    rw [bind_run, onExecution_run, hrun, ← hminted]
    rfl
  · rw [hrun] at hminted
    have hevents : session.domainEvents = [] := (mintSession_ok hminted.symm).domainEvents
    rw [bind_run, onExecution_run, hrun, ← hminted]
    change (CatalogEndpoints.respond (Except.map _ ((flushDomainEvents app.audit
      session.domainEvents >>= fun _ => pure session).run _).1)) = _
    rw [hevents]
    rfl

/-- An answered creation made the session that it shows. -/
theorem createSession_issued (cached : Cached app.env s.world.execution) {sessionId : String}
    {status : SessionStatus} {expiresAt : K}
    (h : (Api.createSession app agentId createdBy r s).1 =
      .ok (.session sessionId token status expiresAt)) :
    ∃ session, mintSession (app.jwt.libraries app.str) (signingKey app.env) agentId createdBy r =
        .ok session ∧
      session.sessionId = sessionId ∧ session.executionToken = token ∧
      session.expiresAt = expiresAt := by
  rw [createSession_answer cached] at h
  cases hmint : mintSession (app.jwt.libraries app.str) (signingKey app.env) agentId createdBy
    r with
  | error e =>
    rw [hmint] at h
    cases e <;> cases h
  | ok session =>
    rw [hmint] at h
    have hfields := Body.session.inj (Except.ok.inj h)
    exact ⟨session, rfl, hfields.1, hfields.2.1, hfields.2.2.2⟩

variable [PyMath K] [FloorRing K] {done : List (Request K × Answer K)} {clock clock' : K}

/-- Every answer of a run was given in a state with sound caches. -/
theorem Run.exchange [IsStrictOrderedRing K] (run : Run app done s clock) {q : Request K}
    {answer : Answer K} (h : (q, answer) ∈ done) :
    ∃ s, Cached app.env s.world.execution ∧ answer = (Api.step app q s).1 := by
  induction run with
  | start => cases h
  | @step done s clock clock' run q' timed ih =>
    rcases List.mem_append.mp h with h | h
    · exact ih h
    · obtain ⟨rfl, rfl⟩ := Prod.mk.inj (List.mem_singleton.mp h)
      exact ⟨s, run.reflects.cached, rfl⟩

/-- A call with the token of another session is turned away. -/
theorem execute_foreign (cached : Cached app.env s.world.execution) {call : ExecuteCall K}
    {a : Arrival K} (token : arrival app call = some a) (foreign : a.owns = false) :
    Api.status (Api.execute app call s).1 ∈ [403, 429] ∧
      toolCalls (Api.execute app call s).2.world.trace = toolCalls s.world.trace := by
  obtain ⟨process, -, -, hrun⟩ := authenticated_run cached call.authorization (serve app call)
  rw [Api.execute, hrun]
  cases hauth : authenticate app call.authorization with
  | error e =>
    rw [arrival, hauth] at token
    cases token
  | ok claim =>
    rw [arrival, hauth] at token
    obtain rfl := Option.some.inj token
    change Api.status (serve app call claim (within s process)).1 ∈ _ ∧
      toolCalls (serve app call claim (within s process)).2.world.trace = _
    unfold serve ExecuteEndpoint.executeTool
    dsimp only
    split_ifs
    · exact ⟨by simp [Api.status, Except.map], rfl⟩
    · exact ⟨by simp [Api.status, Except.map], rfl⟩

/-- The holder of an issued token can call tools for its session, as long as the limiter, the
expiry, the registrations and the policies let it, and for no other session: naming another one
is answered 403 or 429 and calls nothing. -/
theorem Run.issued [IsStrictOrderedRing K] (run : Run app done s clock) (sound : Sound app.jwt)
    (secret : app.env.secret ≠ "") (starts : ∃ key, readSecretKey app.env = .ok key)
    {sessionId : String} {status : SessionStatus} {expiresAt : K}
    (issued : (.createSession agentId createdBy r,
      .ok (.session sessionId token status expiresAt)) ∈ done)
    (distinct : (((done.map Prod.fst).filterMap (sessionMade app)).map (·.sessionId)).Nodup)
    {call : ExecuteCall K} (bearer : call.authorization = "Bearer " ++ token)
    (timed : Timed clock (.execute call) clock') :
    let before := done.map Prod.fst
    let a : Arrival K := ⟨call.request, .str sessionId, call.now⟩
    (call.request.sessionId = sessionId → ∃ session,
      (sessionsMade app before).get? sessionId = some session ∧ session.expiresAt = expiresAt ∧
      (Api.status (Api.step app (.execute call) s).1 = 200 ↔
        ¬ Full app.limit a (ledger app.limit (arrivals app before)) ∧
        call.lookup.activeAt < expiresAt ∧
        (∃ manifest, (toolsMade app before).get? call.request.toolName = some manifest) ∧
        ∀ p ∈ (policiesMade app before).values,
          Allows (command call) (OpaPolicyEngine.opaPolicyEngine (policiesMade app before))
            session call.request.toolName p)) ∧
    (call.request.sessionId ≠ sessionId →
      Api.status (Api.step app (.execute call) s).1 ∈ [403, 429] ∧
      toolCalls (Api.step app (.execute call) s).2.world.trace = toolCalls s.world.trace) := by
  intro before a
  obtain ⟨s₀, hcached, hanswer⟩ := run.exchange issued
  obtain ⟨session, hmint, rfl, rfl, rfl⟩ := createSession_issued hcached hanswer.symm
  obtain ⟨key, hread⟩ := starts
  have hmade : sessionMade app (.createSession agentId createdBy r) = some session :=
    congrArg Except.toOption hmint
  have harrival : arrival app call = some a := by
    rw [arrival, bearer, authenticate_issued sound secret hread hmint]
    rfl
  have howns : a.owns = (call.request.sessionId == session.sessionId) := by
    rw [Arrival.owns, PythonValues.eq]
  constructor
  · intro own
    have hmem : session ∈ before.filterMap (sessionMade app) :=
      List.mem_filterMap.mpr ⟨_, List.mem_map_of_mem issued, hmade⟩
    have hget : (sessionsMade app before).get? session.sessionId = some session :=
      Dict.get?_ofList distinct hmem
    refine ⟨session, hget, rfl, ((run.next timed).1 call rfl).trans ?_⟩
    constructor
    · rintro ⟨a', session', granted⟩
      obtain rfl := Option.some.inj (harrival.symm.trans granted.token)
      have hcreated := granted.created
      rw [own, hget] at hcreated
      obtain rfl := Option.some.inj hcreated
      exact ⟨granted.room, granted.live, granted.registered, granted.allowed⟩
    · rintro ⟨room, live, registered, allowed⟩
      refine ⟨a, session, harrival, ?_, room, ?_, live, registered, allowed⟩
      · rw [howns, own]
        exact beq_self_eq_true _
      · rw [own]
        exact hget
  · intro other
    refine execute_foreign run.reflects.cached harrival ?_
    rw [howns]
    exact beq_false_of_ne other

end Tokens

/-! A session is created, its holder registers a tool and calls it. -/

section Sample

noncomputable def sampleApp : App ℝ Unit Unit where
  jwt := sampleJwt
  env := keyedEnvironment
  str := sampleStr
  repr value := value
  limit := ⟨30, (60 : ℕ)⟩
  formats := SessionTrail.sampleFormats
  auditHex _ := "0123456789abcdef0123456789abcdef"
  auditNow _ := 0
  classifier := ⟨fun _ => pure ("unknown", 0), fun _ => pure [1]⟩
  findPatterns _ := pure []
  saveCorrection _ _ _ _ := pure ()
  render _ := "\x7b\x7d"
  badRequest className := className == "PermissionError"

noncomputable def sampleCreate : Request ℝ := .createSession "agent_1" "admin" (sampleCreation 0 0)

noncomputable def sampleRegister (token : String) : Request ℝ :=
  .registerTool ("Bearer " ++ token)
    (CatalogEndpoints.plainTool "search" CatalogEndpoints.length_search)

noncomputable def sampleExecute (token sessionId : String) : ExecuteCall ℝ where
  authorization := "Bearer " ++ token
  request := ⟨sessionId, "search", .dict [], "find a file"⟩
  now := 1
  lookup := ⟨1, 1, 1⟩
  readings := ExecuteToolRuns.sampleReadings

theorem sample_reads : readSecretKey sampleApp.env = .ok sampleSecret := by
  change readSecretKey keyedEnvironment = _
  decide +kernel

theorem sample_secret : sampleApp.env.secret ≠ "" := by
  change keyedEnvironment.secret ≠ ""
  decide +kernel

variable {token : String}

theorem sample_mints (h : sampleTokens.lookup sampleSecret = some token) :
    mintSession (sampleApp.jwt.libraries sampleApp.str) (signingKey sampleApp.env) "agent_1" "admin"
      (sampleCreation 0 0) = .ok (SigningKeys.sampleSession token) := by
  have cached : Cached keyedEnvironment (K := ℝ) ⟨none, none, .empty⟩ :=
    (start_reflects sampleApp () () 0).cached
  have hsign : signingKey keyedEnvironment = .ok sampleSecret := by decide +kernel
  exact (createSession_cached cached "agent_1" "admin" (sampleCreation 0 0)).1.symm.trans
    (sample_creates hsign h)

theorem sample_run (token : String) : ∃ done s, Run sampleApp done s 0 ∧
    done.map Prod.fst = [sampleCreate, sampleRegister token] ∧ done.filterMap served = [] ∧
    (sampleCreate, (Api.step sampleApp sampleCreate (start () ())).1) ∈ done := by
  have begun : Run sampleApp [] (start () ()) 0 := .start () () 0
  have created := begun.step sampleCreate
    (show Creation.Timed 0 _ 0 from ⟨le_rfl, le_rfl, le_rfl⟩)
  have registered := created.step (sampleRegister token) (show (0 : ℝ) ≤ 0 from le_rfl)
  exact ⟨_, _, registered, rfl, rfl, List.mem_cons_self⟩

theorem sample_timed (token sessionId : String) :
    Timed 0 (.execute (sampleExecute token sessionId)) 1 :=
  ⟨zero_le_one, le_rfl, le_rfl, le_rfl, le_rfl⟩

theorem sample_accepts (h : sampleTokens.lookup sampleSecret = some token) :
    authenticate sampleApp ("Bearer " ++ token) = .ok (.str "session_0123456789ab") :=
  authenticate_issued sampleJwt_sound sample_secret sample_reads (sample_mints h)

theorem sample_sessions (h : sampleTokens.lookup sampleSecret = some token) :
    [sampleCreate, sampleRegister token].filterMap (sessionMade sampleApp) =
      [SigningKeys.sampleSession token] := by
  have hmade : sessionMade sampleApp sampleCreate = some (SigningKeys.sampleSession token) :=
    congrArg Except.toOption (sample_mints h)
  rw [List.filterMap_cons_some hmade]
  rfl

theorem sample_tools (h : sampleTokens.lookup sampleSecret = some token) : ∃ m,
    m.toolName = "search" ∧
      [sampleCreate, sampleRegister token].filterMap (toolMade sampleApp) = [m] := by
  obtain ⟨m, hm, hname⟩ : ∃ m, manifestOf sampleApp.repr (CatalogEndpoints.plainTool "search"
      CatalogEndpoints.length_search).toRegisterToolCommand = .ok m ∧ m.toolName = "search" :=
    ⟨_, rfl, rfl⟩
  have hmade : toolMade sampleApp (sampleRegister token) = some m := by
    rw [sampleRegister, toolMade, accepts, sample_accepts h, hm]
    rfl
  refine ⟨m, hname, ?_⟩
  rw [List.filterMap_cons_none rfl, List.filterMap_cons_some hmade]
  rfl

theorem singleton_get? {β : Type} (key : β → String) (b : β) :
    (Dict.ofList key [b]).get? (key b) = some b := by
  have distinct : ([b].map key).Nodup := List.nodup_singleton (key b)
  exact Dict.get?_ofList distinct (List.mem_singleton.mpr rfl)

theorem sample_granted (h : sampleTokens.lookup sampleSecret = some token) :
    ∃ a session, Granted sampleApp [sampleCreate, sampleRegister token]
      (sampleExecute token "session_0123456789ab") a session := by
  obtain ⟨m, hname, htools⟩ := sample_tools h
  let call := sampleExecute token "session_0123456789ab"
  refine ⟨⟨call.request, .str "session_0123456789ab", 1⟩, SigningKeys.sampleSession token, ?_, ?_,
    ?_, ?_, ?_, ⟨m, ?_⟩, ?_⟩
  · rw [arrival, sampleExecute, sample_accepts h]
    rfl
  · rw [Arrival.owns, PythonValues.eq]
    rfl
  · intro full
    have few : (30 : ℤ) ≤ 0 := full
    omega
  · rw [sessionsMade, sample_sessions h]
    exact singleton_get? (·.sessionId) (SigningKeys.sampleSession token)
  · change (1 : ℝ) < 0 + DEFAULT_TTL_SECONDS
    norm_num [DEFAULT_TTL_SECONDS]
  · rw [toolsMade, htools]
    change (Dict.ofList (·.toolName) [m]).get? "search" = some m
    rw [← hname]
    exact singleton_get? (·.toolName) m
  · intro p hp
    cases hp

theorem Run.decided_sample : ∃ done s, Run sampleApp done s 1 ∧
    toolCalls s.world.trace = [("session_0123456789ab", "search", .dict [])] := by
  have called : ∀ token, sampleTokens.lookup sampleSecret = some token → ∃ done s,
      Run sampleApp done s 1 ∧
        toolCalls s.world.trace = [("session_0123456789ab", "search", .dict [])] := by
    intro token h
    obtain ⟨done, s, run, hdone, hserved, -⟩ := sample_run token
    have next := run.step (.execute (sampleExecute token "session_0123456789ab")) (sample_timed _ _)
    obtain ⟨hgranted, hcalls⟩ := next.decided
    have answered := (hgranted _ _ _ List.prefix_rfl).mpr (hdone ▸ sample_granted h)
    refine ⟨_, _, next, ?_⟩
    rw [hcalls, List.filterMap_append, hserved, List.nil_append, List.filterMap_cons, served,
      if_pos answered]
    rfl
  exact called sampleToken (by decide +kernel)

/-- The token of one session does not open another one. -/
theorem Run.issued_sample : ∃ done s, Run sampleApp done s 0 ∧
    toolCalls (Api.step sampleApp (.execute (sampleExecute sampleToken "session_other"))
      s).2.world.trace = toolCalls s.world.trace := by
  have turned : ∀ token, sampleTokens.lookup sampleSecret = some token → ∃ done s,
      Run sampleApp done s 0 ∧ toolCalls (Api.step sampleApp
        (.execute (sampleExecute token "session_other")) s).2.world.trace =
          toolCalls s.world.trace := by
    intro token h
    obtain ⟨done, s, run, hdone, -, hcreated⟩ := sample_run token
    have answer := createSession_answer (start_reflects sampleApp () () 0).cached "agent_1" "admin"
      (sampleCreation 0 0)
    change (Api.step sampleApp sampleCreate _).1 = _ at answer
    rw [answer, sample_mints h] at hcreated
    have distinct : (((done.map Prod.fst).filterMap (sessionMade sampleApp)).map
        (·.sessionId)).Nodup := by
      rw [hdone, sample_sessions h]
      exact List.nodup_singleton _
    have foreign := (run.issued sampleJwt_sound sample_secret ⟨_, sample_reads⟩ hcreated distinct
      rfl (sample_timed token "session_other")).2
    have other : ("session_other" : String) ≠ "session_0123456789ab" := by decide
    exact ⟨done, s, run, (foreign other).2⟩
  exact turned sampleToken (by decide +kernel)

end Sample

end ApiRuns
