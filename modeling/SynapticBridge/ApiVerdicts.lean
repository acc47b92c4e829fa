import SynapticBridge.ApiRuns

/-! The status of every answer of `/execute`, read off the requests before it. The checks come in
one order, and the first that fails decides. -/
namespace ApiVerdicts

open Domain CorrectionPatterns OrderedDict Ports ExecutionAdapter SigningKeys Api ApiSteps ApiRuns
open ExecuteEndpoint (Arrival Full ledger)
open ExecuteTool (ExecuteToolCommand Readings)
open ExecuteToolRuns PolicyGate

variable {K : Type} [Field K] [LinearOrder K] {C S : Type}

section Verdict

/-- The checks of a command, in their order. -/
def commandVerdict (found : Option (ExecutionSession K)) (live : ExecutionSession K → Bool)
    (registered : Bool) (consented : ExecutionSession K → Bool) : ℕ :=
  match found with
  | none => 404
  | some session =>
    if live session then
      if registered then if consented session then 200 else 403
      else 404
    else 403

def consents (table : Dict String Policy) (call : ExecuteCall K) (session : ExecutionSession K) :
    Bool :=
  (OpaPolicyEngine.opaPolicyEngine (K := K) table).listPolicies.all fun p =>
    !p.guardsCalls || OpaPolicyEngine.evaluate p
      (ExecuteTool.policyContext (command call) session call.request.toolName)

def verdict (app : App K C S) (before : List (Request K)) (call : ExecuteCall K) : ℕ :=
  match authenticate app call.authorization with
  | .error e => (refusal e).statusCode
  | .ok claim =>
    let a : Arrival K := ⟨call.request, claim, call.now⟩
    if Full app.limit a (ledger app.limit (arrivals app before)) then 429
    else if a.owns = false then 403
    else commandVerdict ((sessionsMade app before).get? call.request.sessionId)
      (fun session => decide (call.lookup.activeAt < session.expiresAt))
      ((toolsMade app before).contains call.request.toolName)
      (consents (policiesMade app before) call)

theorem consents_iff (table : Dict String Policy) (call : ExecuteCall K)
    (session : ExecutionSession K) : consents table call session = true ↔
      ∀ p ∈ (OpaPolicyEngine.opaPolicyEngine (K := K) table).listPolicies,
        Allows (command call) (OpaPolicyEngine.opaPolicyEngine table) session
          call.request.toolName p := by
  rw [consents, List.all_eq_true]
  refine forall₂_congr fun p _ => ?_
  rw [Allows, Bool.or_eq_true, Bool.not_eq_true', ← Bool.not_eq_true, ← imp_iff_not_or]
  exact imp_congr_right fun _ => ⟨congrArg Except.ok, Except.ok.inj⟩

end Verdict

section Command

variable {app : App K C S} [PyMath K] (s : State K C S) (call : ExecuteCall K)

/-- The readings that the server hands to the command. -/
def callReadings : Readings K := { call.readings with sessionNow := call.lookup.activeAt }

omit [PyMath K] in
theorem denied_not_consents {session : ExecutionSession K} {pre post : List Policy} {p : Policy}
    (split : (app.ports s.policies call).policies.listPolicies = pre ++ p :: post)
    (guards : p.guardsCalls = true)
    (eval : (app.ports s.policies call).policies.evaluate p
      (ExecuteTool.policyContext (command call) session (command call).toolName) = .ok false) :
    consents s.policies call session = false := by
  rw [← Bool.not_eq_true, consents_iff]
  intro all
  have allowed := all p (split ▸ List.mem_append_right _ List.mem_cons_self) guards
  cases allowed.symm.trans eval

theorem refused_status (headers : List (String × String)) {e : PyException} {w₁ : ApiWorld K C S}
    (hauth : (ExecuteTool.authorize (command call) (app.ports s.policies call)
      (callReadings call)).run s.world = (.error e, w₁)) :
    ExecuteEndpoint.status
        (ExecuteEndpoint.respond (app.server s.policies call) headers (.error e)) =
      commandVerdict (seen s.world.execution.sessions call.request.sessionId call.lookup)
        (·.isActive call.lookup.activeAt) (s.world.registry.contains call.request.toolName)
        (consents s.policies call) := by
  have hget := getSession_found app s call
  generalize hres : (Except.error e : Except PyException (ExecutionSession K)) = res at hauth
  cases authorize_cases hauth with
  | sessionRaised _ get => cases hget.symm.trans get
  | sessionMissing _ get =>
    obtain rfl := Except.error.inj hres
    rw [Except.ok.inj (hget.symm.trans get)]
    rfl
  | @sessionInactive session _ get inactive =>
    obtain rfl := Except.error.inj hres
    have ended : session.isActive call.lookup.activeAt = false := inactive
    rw [Except.ok.inj (hget.symm.trans get), commandVerdict, ended]
    rfl
  | toolRaised _ get active lookup => cases lookup
  | @toolMissing session _ get active lookup =>
    obtain rfl := Except.error.inj hres
    have missing : s.world.registry.contains call.request.toolName = false :=
      congrArg Option.isSome (Except.ok.inj lookup)
    have live : session.isActive call.lookup.activeAt = true := active
    rw [Except.ok.inj (hget.symm.trans get), commandVerdict, missing]
    simp only [live, if_true]
    rfl
  | @checked session manifest _ _ get active lookup policies =>
    have registered : s.world.registry.contains call.request.toolName = true :=
      congrArg Option.isSome (Except.ok.inj lookup)
    cases policies with
    | allowed all => cases hres
    | raised mem guards eval => cases eval
    | @denied pre p post split before guards eval =>
      obtain rfl := Except.error.inj hres
      have denied := denied_not_consents s call split guards eval
      have live : session.isActive call.lookup.activeAt = true := active
      rw [Except.ok.inj (hget.symm.trans get), commandVerdict, registered]
      simp only [live, denied, if_true]
      rfl

theorem admitted_status (headers : List (String × String)) {session : ExecutionSession K}
    {w₁ : ApiWorld K C S}
    (hauth : (ExecuteTool.authorize (command call) (app.ports s.policies call)
      (callReadings call)).run s.world = (.ok session, w₁)) :
    ExecuteEndpoint.status (ExecuteEndpoint.respond (app.server s.policies call) headers
        (((app.server s.policies call).executeTool call.request).run s.world).1) =
      commandVerdict (seen s.world.execution.sessions call.request.sessionId call.lookup)
        (·.isActive call.lookup.activeAt) (s.world.registry.contains call.request.toolName)
        (consents s.policies call) := by
  have admitted := (authorize_eq_ok_iff.mp hauth).1
  obtain ⟨found, live, ⟨manifest, lookup⟩, allowed⟩ := (admitted_iff s call session).mp admitted
  have registered : s.world.registry.contains call.request.toolName = true :=
    congrArg Option.isSome lookup
  have consented := (consents_iff s.policies call session).mpr allowed
  have hcommand : CommandRun app s.policies call (command call) (callReadings call) s.world
      (((app.server s.policies call).executeTool call.request).run s.world).2
      (((app.server s.policies call).executeTool call.request).run s.world).1 :=
    command_run _ _ _ _
  generalize (((app.server s.policies call).executeTool call.request).run s.world).1 = result
    at hcommand ⊢
  cases hcommand with
  | called _ _ _ _ =>
    rw [found, commandVerdict, registered]
    simp only [live, consented, if_true]
    rfl
  | refused e refused _ => exact absurd admitted (refused session)

theorem command_status (headers : List (String × String)) :
    ExecuteEndpoint.status (ExecuteEndpoint.respond (app.server s.policies call) headers
        (((app.server s.policies call).executeTool call.request).run s.world).1) =
      commandVerdict (seen s.world.execution.sessions call.request.sessionId call.lookup)
        (·.isActive call.lookup.activeAt) (s.world.registry.contains call.request.toolName)
        (consents s.policies call) := by
  rcases hauth : (ExecuteTool.authorize (command call) (app.ports s.policies call)
    (callReadings call)).run s.world with ⟨e | session, w₁⟩
  · have hrun : (((app.server s.policies call).executeTool call.request).run s.world).1 =
        .error e := congrArg Prod.fst (execute_refused none hauth)
    rw [hrun, refused_status s call headers hauth]
  · exact admitted_status s call headers hauth

variable [FloorRing K]

theorem serve_status {claim : PyVal K} :
    let a : Arrival K := ⟨call.request, claim, call.now⟩
    status (serve app call claim s).1 =
      if (RateLimiter.isAllowed app.limit a.now a.request.sessionId s.limiter).1.1 = false then 429
      else if a.owns = false then 403
      else commandVerdict (seen s.world.execution.sessions call.request.sessionId call.lookup)
        (·.isActive call.lookup.activeAt) (s.world.registry.contains call.request.toolName)
        (consents s.policies call) := by
  intro a
  have mapped (response : ExecuteEndpoint.Response) :
      status ((response.map .result : Answer K)) = ExecuteEndpoint.status response := by
    cases response <;> rfl
  rw [serve, mapped]
  unfold ExecuteEndpoint.executeTool
  dsimp only
  split_ifs
  · rfl
  · rfl
  · exact command_status s call _

end Command

section Runs

variable [PyMath K] [IsStrictOrderedRing K] [FloorRing K] {app : App K C S} {s : State K C S}
  {done : List (Request K × Answer K)} {before : List (Request K)} {clock clock' : K}
  {call : ExecuteCall K}

omit [PyMath K] [IsStrictOrderedRing K] in
theorem commandVerdict_reflects (reflects : Reflects app before s clock)
    (timed : Timed clock (.execute call) clock') :
    commandVerdict (seen s.world.execution.sessions call.request.sessionId call.lookup)
        (·.isActive call.lookup.activeAt) (s.world.registry.contains call.request.toolName)
        (consents s.policies call) =
      commandVerdict ((sessionsMade app before).get? call.request.sessionId)
        (fun session => decide (call.lookup.activeAt < session.expiresAt))
        ((toolsMade app before).contains call.request.toolName)
        (consents (policiesMade app before) call) := by
  have finds := reflects.finds timed
  rw [reflects.tools, reflects.policies]
  generalize (sessionsMade app before).get? call.request.sessionId = created,
    seen s.world.execution.sessions call.request.sessionId call.lookup = found at finds ⊢
  cases finds with
  | none => rfl
  | @some created session same =>
    have consented : consents (policiesMade app before) call session =
        consents (policiesMade app before) call created := by
      rw [Bool.eq_iff_iff, consents_iff, consents_iff]
      exact forall₂_congr fun p _ => allows_congr same.1 _ p
    rw [commandVerdict, commandVerdict]
    simp only [same.2, consented]

/-- Whatever requests came before, a call of `/execute` is answered with the status that these
requests, its token and its readings determine, by the first check that fails. -/
theorem status_eq_verdict (run : Run app done s clock)
    (timed : Timed clock (.execute call) clock') :
    status (Api.step app (.execute call) s).1 = verdict app (done.map Prod.fst) call := by
  have reflects := run.reflects
  obtain ⟨process, -, same, hrun⟩ := authenticated_run reflects.cached call.authorization
    (serve app call)
  rw [Api.step, Api.execute, hrun, verdict]
  cases hauth : authenticate app call.authorization with
  | error e => rfl
  | ok claim =>
    change status (serve app call claim (within s process)).1 = _
    rw [serve_status]
    have hcommand := commandVerdict_reflects reflects timed
    rw [← same] at hcommand
    simp only [within, reflects.full timed claim, hcommand]

end Runs

theorem status_eq_verdict_sample : ∃ done s, Run sampleApp done s 0 ∧
    status (Api.step sampleApp (.execute (sampleExecute sampleToken "session_other")) s).1 =
      403 := by
  have turned : ∀ token, sampleTokens.lookup sampleSecret = some token → ∃ done s,
      Run sampleApp done s 0 ∧
        status (Api.step sampleApp (.execute (sampleExecute token "session_other")) s).1 =
          403 := by
    intro token h
    obtain ⟨done, s, run, hdone, -⟩ := sample_run token
    refine ⟨done, s, run, (status_eq_verdict run (sample_timed _ _)).trans ?_⟩
    have accepted : authenticate sampleApp (sampleExecute token "session_other").authorization =
      .ok (.str "session_0123456789ab") := sample_accepts h
    rw [hdone, verdict, accepted]
    dsimp only
    rw [if_neg, if_pos]
    · rw [Arrival.owns, PythonValues.eq]
      rfl
    · intro full
      have few : (30 : ℤ) ≤ 0 := full
      omega
  exact turned sampleToken (by decide +kernel)

end ApiVerdicts
