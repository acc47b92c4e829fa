import SynapticBridge.Orchestrator

/-! Runs of an accepted orchestrator whose steps return normally and leave the completed results
alone. Before round `r` the completed steps are those of level below `r`, so round `r` runs exactly
level `r`. -/
namespace OrchestratorRuns

open Domain OrderedDict DependencyGraph Orchestrator

variable {Ctx σ V : Type}

def Normal (step : WorkflowStep Ctx σ V) : Prop :=
  ∀ ctx completed state, ∃ v, (step.execute ctx completed state).1 = .value v

/-- The step leaves the completed results as it finds them. -/
def Leaves (step : WorkflowStep Ctx σ V) : Prop :=
  ∀ ctx completed state, (step.execute ctx completed state).2.1 = completed

theorem gather_steps (ctx : Ctx) (round : ℕ) (completed : Dict String (Gathered V))
    (ready : List (WorkflowStep Ctx σ V)) (state : σ) :
    (gather ctx round completed ready state).1.map Invocation.step =
      ready.map WorkflowStep.name := by
  induction ready generalizing completed state with
  | nil => rfl
  | cons step rest ih => exact congrArg (step.name :: ·) (ih _ _)

theorem mem_gather (ctx : Ctx) (round : ℕ) (completed : Dict String (Gathered V))
    (ready : List (WorkflowStep Ctx σ V)) (state : σ) (call : Invocation σ V)
    (h : call ∈ (gather ctx round completed ready state).1) :
    call.round = round ∧ ∃ step ∈ ready, call.step = step.name ∧
      call.result = (step.execute ctx call.completed call.state).1 ∧
      call.left = (step.execute ctx call.completed call.state).2.1 := by
  induction ready generalizing completed state with
  | nil => cases h
  | cons step rest ih =>
    rcases List.mem_cons.mp h with rfl | h
    · exact ⟨rfl, step, List.mem_cons_self, rfl, rfl, rfl⟩
    · obtain ⟨hround, step', mem, hstep⟩ := ih _ _ h
      exact ⟨hround, step', List.mem_cons_of_mem _ mem, hstep⟩

theorem gather_untouched {ctx : Ctx} {round : ℕ} {completed : Dict String (Gathered V)}
    {ready : List (WorkflowStep Ctx σ V)} {state : σ}
    (untouched : ∀ call ∈ (gather ctx round completed ready state).1, call.left = call.completed) :
    (gather ctx round completed ready state).2.1 = completed ∧
      ∀ call ∈ (gather ctx round completed ready state).1, call.completed = completed := by
  induction ready generalizing completed state with
  | nil => exact ⟨rfl, List.forall_mem_nil _⟩
  | cons step rest ih =>
    obtain ⟨first, later⟩ := List.forall_mem_cons.mp untouched
    obtain ⟨hleft, hseen⟩ := ih later
    have first : (step.execute ctx completed state).2.1 = completed := first
    rw [first] at hleft hseen
    refine ⟨?_, List.forall_mem_cons.mpr ⟨rfl, ?_⟩⟩
    · change (gather ctx round (step.execute ctx completed state).2.1 rest _).2.1 = completed
      rw [first]
      exact hleft
    · change ∀ call ∈ (gather ctx round (step.execute ctx completed state).2.1 rest _).1, _
      rw [first]
      exact hseen

theorem gather_leaves {ready : List (WorkflowStep Ctx σ V)}
    (leaves : ∀ step ∈ ready, Leaves step) (ctx : Ctx) (round : ℕ)
    (completed : Dict String (Gathered V)) (state : σ) :
    (gather ctx round completed ready state).2.1 = completed ∧
      ∀ call ∈ (gather ctx round completed ready state).1, call.completed = completed := by
  refine gather_untouched fun call hcall => ?_
  obtain ⟨-, step, hmem, -, -, hleft⟩ := mem_gather _ _ _ _ _ call hcall
  rw [hleft]
  exact leaves step hmem _ _ _

theorem settle_values (calls : List (Invocation σ V)) (completed : Dict String (Gathered V))
    (values : ∀ call ∈ calls, ∃ v, call.result = .value v)
    (fresh : (completed.keys ++ calls.map Invocation.step).Nodup) :
    ∃ completed', settle calls completed = .ok completed' ∧
      completed'.keys = completed.keys ++ calls.map Invocation.step ∧
      (∀ call ∈ calls, completed'.get? call.step = some call.result) ∧
      ∀ x ∈ completed.keys, completed'.get? x = completed.get? x := by
  induction calls generalizing completed with
  | nil => exact ⟨completed, rfl, by simp, by simp, by simp⟩
  | cons call rest ih =>
    obtain ⟨v, hv⟩ := values call List.mem_cons_self
    have hnew : call.step ∉ completed.keys := fun hmem =>
      (List.nodup_append.mp fresh).2.2 _ hmem _ (by simp) rfl
    have hkeys : (completed.set call.step call.result).keys = completed.keys ++ [call.step] := by
      simp [Dict.keys, Dict.set, setEntries_of_notMem hnew]
    obtain ⟨completed', hsettle, hkeys', hcalls, hold⟩ := ih (completed.set call.step call.result)
      (fun c hc => values c (List.mem_cons_of_mem _ hc)) (by rw [hkeys]; simpa using fresh)
    refine ⟨completed', ?_, by rw [hkeys', hkeys]; simp, ?_, ?_⟩
    · rw [settle, hv]
      rw [hv] at hsettle
      exact hsettle
    · intro c hc
      rcases List.mem_cons.mp hc with rfl | hc
      · rw [hold _ (by simp), Dict.get?_set_self]
      · exact hcalls c hc
    · intro x hx
      rw [hold x (by simp [hx]), Dict.get?_set_of_ne _ fun h : x = call.step => hnew (h ▸ hx)]

/-- A recorded call ran a step of the table on the results of its dependencies, in the
round of its level, and its result is the stored one. -/
structure Ran (orchestrator : DAGOrchestrator Ctx σ V) (ctx : Ctx)
    (completed : Dict String (Gathered V)) (call : Invocation σ V) : Prop where
  level : Level (dependencies orchestrator.steps) call.step call.round
  step : ∃ step, orchestrator.steps.get? call.step = some step ∧
    call.result = (step.execute ctx call.completed call.state).1 ∧
    ∀ dep ∈ step.dependsOn, ∃ result, call.completed.get? dep = some result ∧
      completed.get? dep = some result
  stored : completed.get? call.step = some call.result

/-- The invariant before round `round`. -/
structure Scheduled (orchestrator : DAGOrchestrator Ctx σ V) (ctx : Ctx) (round : ℕ)
    (completed : Dict String (Gathered V)) (pending : List (WorkflowStep Ctx σ V))
    (calls : List (Invocation σ V)) : Prop where
  completed_iff : ∀ x, x ∈ completed.keys ↔
    x ∈ orchestrator.steps.keys ∧ ¬ Chain (dependencies orchestrator.steps) round x
  pending_iff : ∀ step, step ∈ pending ↔ orchestrator.steps.get? step.name = some step ∧
    Chain (dependencies orchestrator.steps) round step.name
  nodup : (pending.map WorkflowStep.name).Nodup
  once : calls.map Invocation.step = completed.keys
  ran : ∀ call ∈ calls, Ran orchestrator ctx completed call

variable {orchestrator : DAGOrchestrator Ctx σ V} {ctx : Ctx} {round : ℕ}
  {completed : Dict String (Gathered V)} {pending : List (WorkflowStep Ctx σ V)}
  {calls : List (Invocation σ V)} {order : SetOrder (WorkflowStep Ctx σ V)}
  {ready : List (WorkflowStep Ctx σ V)}

theorem dependencies_eq {x : String} {ds : List String} :
    dependencies orchestrator.steps x = some ds ↔
      ∃ step, orchestrator.steps.get? x = some step ∧ step.dependsOn = ds := by
  simp [dependencies]

theorem chain_mem_keys {n : ℕ} {x : String}
    (h : Chain (dependencies orchestrator.steps) n x) : x ∈ orchestrator.steps.keys := by
  obtain ⟨ds, hds⟩ := h.entry
  obtain ⟨step, hstep, -⟩ := dependencies_eq.mp hds
  by_contra hx
  rw [Dict.get?_eq_none.mpr hx] at hstep
  cases hstep

theorem dependency_mem_keys {x d : String} {step : WorkflowStep Ctx σ V}
    (h : orchestrator.steps.get? x = some step) (hd : d ∈ step.dependsOn) :
    d ∈ orchestrator.steps.keys := by
  have hx : x ∈ orchestrator.steps.keys := by
    by_contra hx
    rw [Dict.get?_eq_none.mpr hx] at h
    cases h
  cases orchestrator.grounded x hx with
  | intro entry below =>
    obtain ⟨step', hstep', rfl⟩ := dependencies_eq.mp entry
    obtain rfl := Option.some.inj (h.symm.trans hstep')
    cases below d hd with
    | intro entry' _ => exact chain_mem_keys (.single entry')

theorem Scheduled.mem_ready (order : SetOrder (WorkflowStep Ctx σ V))
    (h : Scheduled orchestrator ctx round completed pending calls) (hround : 0 < round)
    (step : WorkflowStep Ctx σ V) :
    step ∈ readySteps order round completed pending ↔
      orchestrator.steps.get? step.name = some step ∧
        Level (dependencies orchestrator.steps) step.name round := by
  rw [mem_readySteps, h.pending_iff, level_iff, chain_succ hround]
  constructor
  · rintro ⟨⟨get, chain⟩, deps⟩
    refine ⟨get, chain, ?_⟩
    rintro ⟨ds, entry, d, mem, hd⟩
    obtain ⟨step', get', rfl⟩ := dependencies_eq.mp entry
    obtain rfl := Option.some.inj (get.symm.trans get')
    exact ((h.completed_iff d).mp (deps d mem)).2 hd
  · rintro ⟨get, chain, hnot⟩
    refine ⟨⟨get, chain⟩, fun d hd => (h.completed_iff d).mpr ⟨dependency_mem_keys get hd, ?_⟩⟩
    intro hc
    exact hnot ⟨_, dependencies_eq.mpr ⟨step, get, rfl⟩, d, hd, hc⟩

theorem ready_nodup (order : SetOrder (WorkflowStep Ctx σ V)) (round : ℕ)
    (completed : Dict String (Gathered V)) (h : (pending.map WorkflowStep.name).Nodup) :
    ((readySteps order round completed pending).map WorkflowStep.name).Nodup := by
  have hperm := ((order.perm round pending).map WorkflowStep.name).nodup_iff.mpr h
  exact hperm.sublist (List.filter_sublist.map _)

theorem Ran.mono {completed' : Dict String (Gathered V)} {call : Invocation σ V}
    (h : Ran orchestrator ctx completed call)
    (hold : ∀ x ∈ completed.keys, completed'.get? x = completed.get? x) :
    Ran orchestrator ctx completed' call := by
  have stored : ∀ {x r}, completed.get? x = some r → completed'.get? x = some r := by
    intro x r hx
    rw [hold x (by by_contra hn; rw [Dict.get?_eq_none.mpr hn] at hx; cases hx), hx]
  obtain ⟨step, get, result, deps⟩ := h.step
  refine ⟨h.level, ⟨step, get, result, ?_⟩, stored h.stored⟩
  intro dep hdep
  obtain ⟨r, hseen, hr⟩ := deps dep hdep
  exact ⟨r, hseen, stored hr⟩

theorem Scheduled.ready_names (order : SetOrder (WorkflowStep Ctx σ V))
    (h : Scheduled orchestrator ctx round completed pending calls) (hround : 0 < round)
    (x : String) : x ∈ (readySteps order round completed pending).map WorkflowStep.name ↔
      x ∈ orchestrator.steps.keys ∧ Level (dependencies orchestrator.steps) x round := by
  constructor
  · intro hx
    obtain ⟨step, hstep, rfl⟩ := List.mem_map.mp hx
    obtain ⟨-, hlevel⟩ := (h.mem_ready order hround step).mp hstep
    exact ⟨chain_mem_keys hlevel.1, hlevel⟩
  · rintro ⟨-, hx⟩
    obtain ⟨ds, entry⟩ := hx.1.entry
    obtain ⟨step, get, -⟩ := dependencies_eq.mp entry
    have hname := orchestrator.named x step get
    subst hname
    exact List.mem_map_of_mem ((h.mem_ready order hround step).mpr ⟨get, hx⟩)

theorem Scheduled.round_leaves (h : Scheduled orchestrator ctx round completed pending calls)
    (hready : readySteps order round completed pending = ready)
    (tame : ∀ name step, orchestrator.steps.get? name = some step → Normal step ∧ Leaves step)
    (state : σ) : (gather ctx round completed ready state).2.1 = completed ∧
      ∀ call ∈ (gather ctx round completed ready state).1, call.completed = completed := by
  subst hready
  refine gather_leaves (fun step hstep => ?_) ctx round completed state
  exact (tame _ step ((h.pending_iff step).mp (mem_readySteps.mp hstep).1).1).2

theorem Scheduled.settles (h : Scheduled orchestrator ctx round completed pending calls)
    (hround : 0 < round) (hready : readySteps order round completed pending = ready)
    (tame : ∀ name step, orchestrator.steps.get? name = some step → Normal step ∧ Leaves step)
    (state : σ) : ∃ completed',
      settle (gather ctx round completed ready state).1
        (gather ctx round completed ready state).2.1 = .ok completed' ∧
      completed'.keys = completed.keys ++ ready.map WorkflowStep.name ∧
      (∀ call ∈ (gather ctx round completed ready state).1,
        completed'.get? call.step = some call.result) ∧
      ∀ x ∈ completed.keys, completed'.get? x = completed.get? x := by
  subst hready
  rw [(h.round_leaves rfl tame state).1, ← gather_steps ctx round completed _ state]
  apply settle_values
  · intro call hcall
    obtain ⟨-, step, hmem, -, hresult, -⟩ := mem_gather _ _ _ _ _ call hcall
    rw [hresult]
    exact (tame _ step ((h.mem_ready order hround step).mp hmem).1).1 _ _ _
  · rw [gather_steps]
    apply List.nodup_append.mpr
    refine ⟨completed.keys_nodup, ready_nodup order round completed h.nodup, ?_⟩
    rintro x hx y hy rfl
    exact ((h.completed_iff x).mp hx).2 ((h.ready_names order hround x).mp hy).2.1

theorem Scheduled.ran_gathered (h : Scheduled orchestrator ctx round completed pending calls)
    (hround : 0 < round) (hready : readySteps order round completed pending = ready) {state : σ}
    {completed' : Dict String (Gathered V)}
    (hold : ∀ x ∈ completed.keys, completed'.get? x = completed.get? x) {call : Invocation σ V}
    (hcall : call ∈ (gather ctx round completed ready state).1) (hc : call.completed = completed)
    (hstored : completed'.get? call.step = some call.result) :
    Ran orchestrator ctx completed' call := by
  subst hready
  obtain ⟨hr, step, hmem, hname, hresult, -⟩ := mem_gather _ _ _ _ _ call hcall
  obtain ⟨get, hlevel⟩ := (h.mem_ready order hround step).mp hmem
  have seen : ∀ dep ∈ step.dependsOn, ∃ result, call.completed.get? dep = some result ∧
      completed'.get? dep = some result := by
    intro dep hdep
    have hdone : dep ∈ completed.keys := by
      apply (h.completed_iff dep).mpr
      refine ⟨dependency_mem_keys get hdep, ?_⟩
      intro hchain
      have hle := hlevel.2 _ (.extend (dependencies_eq.mpr ⟨step, get, rfl⟩) hdep hchain)
      omega
    rcases hget : completed.get? dep with _ | result
    · exact absurd hdone (Dict.get?_eq_none.mp hget)
    · exact ⟨result, by rw [hc, hget], by rw [hold dep hdone, hget]⟩
  refine ⟨?_, ⟨step, ?_, hresult, seen⟩, hstored⟩
  · rw [hr, hname]
    exact hlevel
  · rw [hname]
    exact get

/-- One round settles every ready step and moves the invariant to the next round. -/
theorem Scheduled.next (h : Scheduled orchestrator ctx round completed pending calls)
    (hround : 0 < round) (hready : readySteps order round completed pending = ready)
    (tame : ∀ name step, orchestrator.steps.get? name = some step → Normal step ∧ Leaves step)
    (state : σ) : ∃ completed',
      settle (gather ctx round completed ready state).1
        (gather ctx round completed ready state).2.1 = .ok completed' ∧
      Scheduled orchestrator ctx (round + 1) completed' (unready pending ready)
        (calls ++ (gather ctx round completed ready state).1) := by
  subst hready
  obtain ⟨completed', hsettle, hkeys, hstored, hold⟩ := h.settles hround rfl tame state
  refine ⟨completed', hsettle, ?_, ?_, ?_, ?_, ?_⟩
  · intro x
    rw [hkeys, List.mem_append, h.completed_iff, h.ready_names order hround, level_iff]
    constructor
    · rintro (⟨hx, hnot⟩ | ⟨hx, hlevel⟩)
      · exact ⟨hx, fun hc => hnot (hc.shorten hround)⟩
      · exact ⟨hx, hlevel.2⟩
    · rintro ⟨hx, hnot⟩
      by_cases hc : Chain (dependencies orchestrator.steps) round x
      · exact Or.inr ⟨hx, hc, hnot⟩
      · exact Or.inl ⟨hx, hc⟩
  · intro step
    rw [unready, List.mem_filter, h.pending_iff, decide_eq_true_iff, h.ready_names order hround,
      level_iff]
    constructor
    · rintro ⟨⟨get, chain⟩, hnot⟩
      refine ⟨get, ?_⟩
      by_contra hc
      exact hnot ⟨chain_mem_keys chain, chain, hc⟩
    · rintro ⟨get, chain⟩
      exact ⟨⟨get, chain.shorten hround⟩, fun hlevel => hlevel.2.2 chain⟩
  · exact h.nodup.sublist (List.filter_sublist.map _)
  · rw [List.map_append, h.once, gather_steps, hkeys]
  · intro call hcall
    rcases List.mem_append.mp hcall with hcall | hcall
    · exact (h.ran call hcall).mono hold
    · have hseen := (h.round_leaves rfl tame state).2 call hcall
      exact h.ran_gathered hround rfl hold hcall hseen (hstored call hcall)

/-! What a round does with the steps that are ready. -/

section Round

variable {state : σ}

theorem rounds_raised {e : PyException} (hpending : pending ≠ [])
    (hready : readySteps order round completed pending = ready) (some_ready : ready ≠ [])
    (hsettle : settle (gather ctx round completed ready state).1
      (gather ctx round completed ready state).2.1 = .error e) :
    rounds ctx order round completed pending calls state = ⟨.error e,
      calls ++ (gather ctx round completed ready state).1,
      (gather ctx round completed ready state).2.2⟩ := by
  subst hready
  rw [rounds, if_neg hpending]
  simp only [if_neg some_ready, hsettle]

theorem rounds_settled {d : Dict String (Gathered V)} (hpending : pending ≠ [])
    (hready : readySteps order round completed pending = ready) (some_ready : ready ≠ [])
    (hsettle : settle (gather ctx round completed ready state).1
      (gather ctx round completed ready state).2.1 = .ok d) :
    rounds ctx order round completed pending calls state =
      rounds ctx order (round + 1) d (unready pending ready)
        (calls ++ (gather ctx round completed ready state).1)
        (gather ctx round completed ready state).2.2 := by
  subst hready
  rw [rounds, if_neg hpending]
  simp only [if_neg some_ready, hsettle]

end Round

/-! A round in which a single step is ready runs just this step. -/

section Single

variable {step : WorkflowStep Ctx σ V} {state state' : σ} {left : Dict String (Gathered V)}

theorem readySteps_single (h : pending.filter (isReady completed) = [step]) :
    readySteps order round completed pending = [step] := by
  have hperm := (order.perm round pending).filter (isReady completed)
  rw [h] at hperm
  exact List.perm_singleton.mp hperm

theorem pending_ne_nil (h : pending.filter (isReady completed) = [step]) : pending ≠ [] := by
  rintro rfl
  cases h

theorem rounds_single_raised (step : WorkflowStep Ctx σ V) {e : PyException}
    (h : pending.filter (isReady completed) = [step])
    (he : step.execute ctx completed state = (.exception e, left, state')) :
    (rounds ctx order round completed pending calls state).result =
      .error (.runtimeError s!"Step {step.name} failed: {e.text}") := by
  have hsettle : settle (gather ctx round completed [step] state).1
      (gather ctx round completed [step] state).2.1 =
      .error (.runtimeError s!"Step {step.name} failed: {e.text}") := by
    simp only [gather, he, settle]
  rw [rounds_raised (pending_ne_nil h) (readySteps_single h) (List.cons_ne_nil _ _) hsettle]

theorem rounds_single_value (step : WorkflowStep Ctx σ V) (v : V)
    (h : pending.filter (isReady completed) = [step])
    (hv : step.execute ctx completed state = (.value v, left, state')) :
    rounds ctx order round completed pending calls state =
      rounds ctx order (round + 1) (left.set step.name (.value v)) (unready pending [step])
        (calls ++ [⟨round, step.name, completed, state, left, .value v⟩]) state' := by
  have hsettle : settle (gather ctx round completed [step] state).1
      (gather ctx round completed [step] state).2.1 = .ok (left.set step.name (.value v)) := by
    simp only [gather, hv, settle]
  rw [rounds_settled (pending_ne_nil h) (readySteps_single h) (List.cons_ne_nil _ _) hsettle]
  simp only [gather, hv]

end Single

theorem scheduled_start (orchestrator : DAGOrchestrator Ctx σ V) (ctx : Ctx) :
    Scheduled orchestrator ctx 1 .empty orchestrator.steps.values [] where
  completed_iff x := by
    rw [Dict.keys_empty, chain_one]
    constructor
    · exact nofun
    · rintro ⟨hx, hnot⟩
      rcases hget : orchestrator.steps.get? x with _ | step
      · exact absurd hx (Dict.get?_eq_none.mp hget)
      · exact absurd ⟨step.dependsOn, dependencies_eq.mpr ⟨step, hget, rfl⟩⟩ hnot
  pending_iff step := by
    rw [chain_one, Dict.mem_values]
    constructor
    · rintro ⟨name, get⟩
      have hname := orchestrator.named name step get
      subst hname
      exact ⟨get, step.dependsOn, dependencies_eq.mpr ⟨step, get, rfl⟩⟩
    · rintro ⟨get, -⟩
      exact ⟨_, get⟩
  nodup := by
    have hnames : orchestrator.steps.values.map WorkflowStep.name = orchestrator.steps.keys := by
      unfold Dict.values Dict.keys
      rw [List.map_map]
      apply List.map_congr_left
      intro entry hentry
      exact orchestrator.named entry.1 entry.2 (Dict.get?_eq_some.mpr hentry)
    rw [hnames]
    exact orchestrator.steps.keys_nodup
  once := by simp
  ran := by simp

theorem new_steps {limit : ℕ} {steps : List (WorkflowStep Ctx σ V)}
    (accepts : DAGOrchestrator.new limit steps = .ok orchestrator) :
    orchestrator.steps = Dict.ofList WorkflowStep.name steps := by
  simp only [DAGOrchestrator.new] at accepts
  split at accepts
  · cases accepts
  · obtain rfl := Except.ok.inj accepts
    rfl

section Accepted

variable {limit : ℕ} {steps : List (WorkflowStep Ctx σ V)}

end Accepted

theorem new_of_validate {limit : ℕ} {steps : List (WorkflowStep Ctx σ V)} {marks : Marks}
    (h : validateNoCycles (dependencies (Dict.ofList WorkflowStep.name steps)) limit
      (Dict.ofList WorkflowStep.name steps).keys = .ok marks) :
    ∃ orchestrator, DAGOrchestrator.new limit steps = .ok orchestrator := by
  simp only [DAGOrchestrator.new]
  split
  · rename_i e he
    rw [h] at he
    cases he
  · exact ⟨_, rfl⟩

def plainStep (name : String) (v : String) (dependsOn : List String) :
    WorkflowStep Unit Unit String :=
  ⟨name, fun _ completed _ => (.value v, completed, ()), dependsOn⟩

def sampleSteps : List (WorkflowStep Unit Unit String) :=
  [plainStep "join" "c" ["left", "right"], plainStep "left" "a" [], plainStep "right" "b" []]

end OrchestratorRuns
