import SynapticBridge.ExecuteToolRuns
import SynapticBridge.OpaPolicyEngine

/-! Policies and the tool that is executed. The policy loop runs before the CLE block, so
every executed tool is allowed exactly when no redirect leads to a denied one. -/
namespace PolicyGate

open Domain CorrectionPatterns Ports ExecuteTool ExecuteToolRuns
open Procedures.Proc

section Gate

variable {K : Type} [Field K] [LinearOrder K] {X R A C S : Type}

structure Admitted (cmd : ExecuteToolCommand K) (ports : CommandPorts K X R A C S)
    (r : Readings K) (w : World K X R A C S) (session : ExecutionSession K) : Prop where
  get : ((ports.execution.getSession cmd.sessionId).run w.execution).1 = .ok (some session)
  active : session.isActive r.sessionNow = true
  registered : ∃ manifest,
    ((ports.registry.get cmd.toolName).run w.registry).1 = .ok (some manifest)
  allowed : ∀ p ∈ ports.policies.listPolicies,
    Allows cmd ports.policies session cmd.toolName p

theorem denied_ne_ok {α β : Type} (written : Except PyException Unit) (e : PyException)
    (f : α → β) (b : β) : (written.bind fun _ => .error e).map f ≠ .ok b := by
  cases written with
  | error e => exact nofun
  | ok u => exact nofun

theorem authorize_eq_ok_iff {cmd : ExecuteToolCommand K} {ports : CommandPorts K X R A C S}
    {r : Readings K} {w w₁ : World K X R A C S} {session : ExecutionSession K} :
    (authorize cmd ports r).run w = (.ok session, w₁) ↔
      Admitted cmd ports r w session ∧ w₁ = afterLookups cmd ports w := by
  constructor
  · intro h
    generalize hres : (Except.ok session : Except PyException _) = res at h
    cases authorize_cases h with
    | sessionRaised _ => cases hres
    | sessionMissing _ => cases hres
    | sessionInactive _ => cases hres
    | toolRaised _ => cases hres
    | toolMissing _ => cases hres
    | @checked session' _ _ _ get active lookup policies =>
      cases policies with
      | allowed all =>
        obtain rfl := Except.ok.inj hres
        exact ⟨⟨get, active, ⟨_, lookup⟩, all⟩, rfl⟩
      | raised => cases hres
      | @denied pre p post =>
        exact absurd hres.symm (denied_ne_ok _ _ _ _)
  · rintro ⟨⟨get, active, ⟨manifest, lookup⟩, all⟩, rfl⟩
    exact authorize_ok get active lookup all

/-- Active mode replaces the requested tool by the registered suggestion `t`. -/
structure Redirected [PyMath K] (cmd : ExecuteToolCommand K) (ports : CommandPorts K X R A C S)
    (shadowMode : Option Bool) (r : Readings K) (w : World K X R A C S)
    (session : ExecutionSession K) (t : String) : Prop where
  admitted : Admitted cmd ports r w session
  active : shadowMode.getD CLE_SHADOW_MODE = false
  suggested : ∃ classifier store scores best s, ports.classifier = some classifier ∧
    ports.corrections = some store ∧ Suggestion cmd r classifier store w scores best s t
  target : ∃ manifest,
    ((ports.registry.get t).run ((ports.registry.get cmd.toolName).run w.registry).2).1 =
      .ok (some manifest)

/-- Every tool executed between two traces is allowed by every enabled policy that guards
calls, on the context that names this tool. -/
def ExecutedAllowed (cmd : ExecuteToolCommand K) (ports : CommandPorts K X R A C S)
    (w w' : World K X R A C S) : Prop :=
  ∃ effects, w'.trace = w.trace ++ effects ∧
    ∀ session t params, .executed session t params ∈ effects →
      ∀ p ∈ ports.policies.listPolicies, Allows cmd ports.policies session t p

variable {cmd : ExecuteToolCommand K} {ports : CommandPorts K X R A C S} {r : Readings K}

theorem dispatch_executes (cmd : ExecuteToolCommand K) (ports : CommandPorts K X R A C S)
    (r : Readings K) (session : ExecutionSession K) (l : Locals K) (w : World K X R A C S) :
    ∃ effects, ((dispatch cmd ports r session l).run w).2.trace = w.trace ++ effects ∧
      ∀ session' t params, .executed session' t params ∈ effects ↔
        session' = session ∧ t = l.effectiveTool ∧ params = cmd.parameters := by
  rcases hrun : ((ports.execution.executeTool session l.effectiveTool cmd.parameters).run
    w.execution).1 with e | v
  · rw [dispatch_raised r hrun]
    exact ⟨_, rfl, by simp⟩
  · rw [dispatch_returned r hrun]
    exact ⟨_, rfl, by simp⟩

theorem authorize_executes {w w' : World K X R A C S} {e : PyException}
    (h : (authorize cmd ports r).run w = (.error e, w')) :
    ∃ effects, w'.trace = w.trace ++ effects ∧
      ∀ session t params, .executed session t params ∉ effects := by
  generalize (Except.error e : Except PyException (ExecutionSession K)) = res at h
  cases authorize_cases h with
  | sessionRaised _ get audit trace => exact ⟨[], by simp [trace], by simp⟩
  | toolRaised _ get active lookup audit trace => exact ⟨[], by simp [trace], by simp⟩
  | sessionMissing _ get audit trace => exact ⟨[], by simp [trace], by simp⟩
  | sessionInactive _ get inactive audit trace => exact ⟨[], by simp [trace], by simp⟩
  | toolMissing _ get active lookup audit trace => exact ⟨[], by simp [trace], by simp⟩
  | checked get active lookup policies =>
    cases policies with
    | allowed => exact ⟨[], by simp, by simp⟩
    | raised => exact ⟨[], by simp, by simp⟩
    | denied => exact ⟨_, rfl, by simp⟩

theorem Redirected.executes [PyMath K] {shadowMode : Option Bool} {w : World K X R A C S}
    {session : ExecutionSession K} {t : String}
    (h : Redirected cmd ports shadowMode r w session t) : ∃ effects,
      ((execute cmd ports shadowMode r).run w).2.trace = w.trace ++ effects ∧
      ∀ session' t' params, .executed session' t' params ∈ effects ↔
        session' = session ∧ t' = t ∧ params = cmd.parameters := by
  have hauth := authorize_eq_ok_iff.mpr ⟨h.admitted, rfl⟩
  obtain ⟨classifier, store, scores, best, s, hc, hs, suggested⟩ := h.suggested
  obtain ⟨manifest, target⟩ := h.target
  have confirmed : Suggestion cmd r classifier store (afterLookups cmd ports w) scores best s t :=
    suggestion_afterLookups.mpr suggested
  obtain ⟨w₂, logged, -, hexec⟩ :=
    execute_redirects shadowMode hauth hc hs h.active confirmed target
  obtain ⟨effects, htrace, hexecuted⟩ := dispatch_executes cmd ports r session ⟨true, s, t⟩ w₂
  refine ⟨.wrote (interceptionEvent cmd r t s best false true) :: effects, ?_, ?_⟩
  · rw [hexec, htrace, logged.trace, List.append_assoc]
    rfl
  · intro session' t' params
    rw [List.mem_cons, hexecuted]
    simp

theorem execute_executes [PyMath K] (cmd : ExecuteToolCommand K)
    (ports : CommandPorts K X R A C S) (shadowMode : Option Bool) (r : Readings K)
    (w : World K X R A C S) :
    ∃ effects, ((execute cmd ports shadowMode r).run w).2.trace = w.trace ++ effects ∧
      ∀ session t params, .executed session t params ∈ effects →
        t = cmd.toolName ∧ Admitted cmd ports r w session ∨
          Redirected cmd ports shadowMode r w session t := by
  rcases hauth : (authorize cmd ports r).run w with ⟨e | session, w₁⟩
  · obtain ⟨effects, htrace, hnone⟩ := authorize_executes hauth
    rw [execute_refused shadowMode hauth]
    exact ⟨effects, htrace, fun _ _ _ h => absurd h (hnone _ _ _)⟩
  obtain ⟨admitted, rfl⟩ := authorize_eq_ok_iff.mp hauth
  obtain ⟨l, w₂, hpred, hl⟩ := predict_run cmd ports r (shadowMode.getD CLE_SHADOW_MODE)
    (afterLookups cmd ports w)
  obtain ⟨effects, htrace, hexecuted⟩ := dispatch_executes cmd ports r session l w₂
  rw [execute_admitted shadowMode hauth, bind_ok hpred, htrace]
  have requested : l = noCorrection cmd → ∀ session' t params,
      .executed session' t params ∈ effects →
        t = cmd.toolName ∧ Admitted cmd ports r w session' ∨
          Redirected cmd ports shadowMode r w session' t := by
    rintro rfl session' t params hmem
    obtain ⟨rfl, rfl, -⟩ := (hexecuted _ _ _).mp hmem
    exact Or.inl ⟨rfl, admitted⟩
  rcases hl with ⟨-, hl, rfl⟩ | ⟨classifier, store, result, hc, hs, -, hcle⟩
  · exact ⟨effects, rfl, requested hl⟩
  cases hcle with
  | silent _ _ none frame =>
    refine ⟨effects, ?_, requested rfl⟩
    rw [frame.trace]
    rfl
  | lookupRaised _ _ _ _ _ frame =>
    refine ⟨effects, ?_, requested rfl⟩
    rw [frame.trace]
    rfl
  | @logged _ scores best s t suggested kept write =>
    refine ⟨.wrote (interceptionEvent cmd r t s best (shadowMode.getD CLE_SHADOW_MODE) false) ::
      effects, ?_, ?_⟩
    · rw [write.trace, List.append_assoc]
      rfl
    · intro session' t' params hmem
      rcases List.mem_cons.mp hmem with h | h
      · cases h
      · exact requested rfl _ _ _ h
  | @applied _ scores best s t m suggested active lookup write =>
    refine ⟨.wrote (interceptionEvent cmd r t s best false true) :: effects, ?_, ?_⟩
    · rw [write.trace, List.append_assoc]
      rfl
    · intro session' t' params hmem
      rcases List.mem_cons.mp hmem with h | h
      · cases h
      · obtain ⟨rfl, rfl, -⟩ := (hexecuted _ _ _).mp h
        have confirmed := suggestion_afterLookups.mp suggested
        exact Or.inr ⟨admitted, active, ⟨classifier, store, scores, best, s, hc, hs, confirmed⟩,
          ⟨m, lookup⟩⟩

/-- Only allowed tools are executed exactly when every redirect leads to a tool that the
policies allow as well. -/
theorem executed_allowed_iff [PyMath K] (cmd : ExecuteToolCommand K)
    (ports : CommandPorts K X R A C S) (shadowMode : Option Bool) (r : Readings K)
    (w : World K X R A C S) :
    ExecutedAllowed cmd ports w ((execute cmd ports shadowMode r).run w).2 ↔
      ∀ session t, Redirected cmd ports shadowMode r w session t →
        ∀ p ∈ ports.policies.listPolicies, Allows cmd ports.policies session t p := by
  constructor
  · rintro ⟨effects, htrace, hall⟩ session t hred p hp
    obtain ⟨effects', htrace', hmem⟩ := hred.executes
    obtain rfl := List.append_cancel_left (htrace.symm.trans htrace')
    exact hall _ _ _ ((hmem _ _ _).mpr ⟨rfl, rfl, rfl⟩) p hp
  · intro h
    obtain ⟨effects, htrace, hexecuted⟩ := execute_executes cmd ports shadowMode r w
    refine ⟨effects, htrace, ?_⟩
    intro session t params hmem p hp
    rcases hexecuted session t params hmem with ⟨rfl, admitted⟩ | hred
    · exact admitted.allowed p hp
    · exact h session t hred p hp

end Gate

/-! A policy that denies the suggested tool only. -/

def denyQueries : Policy :=
  ⟨"deny_queries", "no queries",
    "package p\ndeny \x7b eq(input.tool_name, \"db.query\") \x7d", .deny, .tool, true,
    by decide, by decide⟩

noncomputable def queryEngine : PolicyEngine ℝ :=
  OpaPolicyEngine.opaPolicyEngine (OrderedDict.Dict.empty.set "deny_queries" denyQueries)

noncomputable def queryPorts : CommandPorts ℝ Unit (OrderedDict.Dict String ToolManifest)
    Unit Unit Unit :=
  constantPorts sampleSession queryEngine [1] [samplePattern] fun _ => false

theorem denies_query :
    queryEngine.evaluate denyQueries (policyContext sampleCommand sampleSession "db.query") =
      .ok false := by
  decide +kernel

theorem allows_read :
    queryEngine.evaluate denyQueries (policyContext sampleCommand sampleSession "fs.read") =
      .ok true := by
  decide +kernel

theorem query_redirected : Redirected sampleCommand queryPorts (some false) sampleReadings
    (constantWorld sampleTools) sampleSession "db.query" where
  admitted := by
    refine ⟨rfl, sample_active, ⟨manifestOf "fs.read" (by decide), rfl⟩, ?_⟩
    intro p hp _
    obtain rfl := List.mem_singleton.mp hp
    exact allows_read
  active := rfl
  suggested := ⟨_, _, _, _, _, rfl, rfl, sample_suggestion⟩
  target := ⟨manifestOf "db.query" (by decide), rfl⟩

theorem redirect_passes_denied_tool :
    denyQueries ∈ queryPorts.policies.listPolicies ∧ denyQueries.guardsCalls = true ∧
    queryPorts.policies.evaluate denyQueries
      (policyContext sampleCommand sampleSession "db.query") = .ok false ∧
    ¬ ExecutedAllowed sampleCommand queryPorts (constantWorld sampleTools)
      ((execute sampleCommand queryPorts (some false) sampleReadings).run
        (constantWorld sampleTools)).2 := by
  have mem : denyQueries ∈ queryPorts.policies.listPolicies := List.mem_singleton.mpr rfl
  refine ⟨mem, rfl, denies_query, ?_⟩
  rintro ⟨effects, htrace, hall⟩
  obtain ⟨effects', htrace', hexecuted⟩ := query_redirected.executes
  obtain rfl := List.append_cancel_left (htrace.symm.trans htrace')
  have allowed := hall _ _ _ ((hexecuted _ _ _).mpr ⟨rfl, rfl, rfl⟩) denyQueries mem rfl
  have denied := denies_query
  change queryPorts.policies.evaluate denyQueries _ = _ at denied
  rw [denied] at allowed
  cases allowed

end PolicyGate
