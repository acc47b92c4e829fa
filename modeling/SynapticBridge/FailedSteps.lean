import SynapticBridge.ScheduleOrder

/-! Steps that fail. An exception ends the run in its round; `CancelledError` is not an
`Exception`, so a cancelled step is stored like one that returned. A step that writes to the
completed results itself can release what waits for another step. -/
namespace FailedSteps

open Domain OrderedDict DependencyGraph Orchestrator OrchestratorRuns ScheduleOrder

section Containment

variable {Ctx σ V : Type}

def Failed : Gathered V → Prop
  | .value _ => False
  | .exception _ => True
  | .cancelledError => True

def DependsOn (orchestrator : DAGOrchestrator Ctx σ V) (x d : String) : Prop :=
  Relation.TransGen (Edge (dependencies orchestrator.steps)) x d

/-- No dependent of a failed step was called, and no returned mapping has the failed step. -/
def Contained (orchestrator : DAGOrchestrator Ctx σ V) (outcome : Outcome σ V) : Prop :=
  ∀ call ∈ outcome.calls, Failed call.result →
    (∀ other ∈ outcome.calls, ¬ DependsOn orchestrator other.step call.step) ∧
      ∀ d, outcome.result = .ok d → call.step ∉ d.keys

/-- A step was cancelled only in a round in which another step raised. -/
def Caught (outcome : Outcome σ V) : Prop :=
  ∀ call ∈ outcome.calls, call.result = .cancelledError →
    ∃ other ∈ outcome.calls, other.round = call.round ∧ ∃ e, other.result = .exception e

def Untouched (outcome : Outcome σ V) : Prop :=
  ∀ call ∈ outcome.calls, call.left = call.completed

/-- The calls before round `round` returned normally, and with a completed step everything
below it was completed. -/
structure Released (orchestrator : DAGOrchestrator Ctx σ V) (round : ℕ)
    (completed : Dict String (Gathered V)) (pending : List (WorkflowStep Ctx σ V))
    (calls : List (Invocation σ V)) : Prop where
  normal : ∀ call ∈ calls, ¬ Failed call.result
  before : ∀ call ∈ calls, call.round < round
  completed_iff : ∀ x, x ∈ completed.keys ↔ x ∈ calls.map Invocation.step
  below : ∀ x ∈ completed.keys, ∀ d, Edge (dependencies orchestrator.steps) x d →
    d ∈ completed.keys
  known : ∀ step ∈ pending, orchestrator.steps.get? step.name = some step
  fresh : ∀ step ∈ pending, step.name ∉ completed.keys
  nodup : (pending.map WorkflowStep.name).Nodup

variable {orchestrator : DAGOrchestrator Ctx σ V} {ctx : Ctx} {round : ℕ}
  {completed : Dict String (Gathered V)} {pending : List (WorkflowStep Ctx σ V)}
  {calls : List (Invocation σ V)} {order : SetOrder (WorkflowStep Ctx σ V)} {state : σ}
  {ready : List (WorkflowStep Ctx σ V)}

theorem settle_keys {d : Dict String (Gathered V)} (h : settle calls completed = .ok d)
    (x : String) : x ∈ d.keys ↔ x ∈ completed.keys ∨ x ∈ calls.map Invocation.step := by
  induction calls generalizing completed with
  | nil =>
    obtain rfl := Except.ok.inj h
    simp
  | cons call rest ih =>
    rw [settle] at h
    split at h
    · cases h
    · rw [ih h, Dict.mem_keys_set, List.map_cons, List.mem_cons]
      tauto

theorem Released.needs_completed (h : Released orchestrator round completed pending calls)
    (hready : readySteps order round completed pending = ready) {call : Invocation σ V}
    (hcall : call ∈ calls ++ (gather ctx round completed ready state).1) {d : String}
    (depends : DependsOn orchestrator call.step d) : d ∈ completed.keys := by
  subst hready
  have down : ∀ {x y}, x ∈ completed.keys →
      Relation.ReflTransGen (Edge (dependencies orchestrator.steps)) x y → y ∈ completed.keys := by
    intro x y hx reach
    induction reach with
    | refl => exact hx
    | tail _ edge ih => exact h.below _ ih _ edge
  rcases List.mem_append.mp hcall with hcall | hcall
  · exact down ((h.completed_iff _).mpr (List.mem_map_of_mem hcall)) depends.to_reflTransGen
  · obtain ⟨-, step, hmem, hname, -⟩ := mem_gather _ _ _ _ _ call hcall
    obtain ⟨hpending, ready⟩ := mem_readySteps.mp hmem
    obtain ⟨x, ⟨ds, entry, mem⟩, reach⟩ := Relation.TransGen.head'_iff.mp depends
    rw [hname] at entry
    obtain ⟨step', get, rfl⟩ := dependencies_eq.mp entry
    obtain rfl := Option.some.inj ((h.known step hpending).symm.trans get)
    exact down (ready x mem) reach

theorem Released.not_completed (h : Released orchestrator round completed pending calls)
    (hready : readySteps order round completed pending = ready) {call : Invocation σ V}
    (hcall : call ∈ (gather ctx round completed ready state).1) :
    call.step ∉ completed.keys := by
  subst hready
  obtain ⟨-, step, hmem, hname, -⟩ := mem_gather _ _ _ _ _ call hcall
  rw [hname]
  exact h.fresh step (mem_readySteps.mp hmem).1

theorem Released.quiet (h : Released orchestrator round completed pending calls)
    (hready : readySteps order round completed pending = ready) {d : Dict String (Gathered V)}
    (hsettle : settle (gather ctx round completed ready state).1
      (gather ctx round completed ready state).2.1 = .ok d) {call : Invocation σ V}
    (hcall : call ∈ (gather ctx round completed ready state).1) (e : PyException) :
    call.result ≠ .exception e := by
  subst hready
  intro hresult
  have nodup := ready_nodup order round completed h.nodup
  rw [← gather_steps ctx round completed _ state] at nodup
  refine (settle_ok hsettle nodup).1 call.step e ?_
  rw [← hresult]
  exact List.mem_map_of_mem hcall

theorem Released.next (h : Released orchestrator round completed pending calls)
    (hready : readySteps order round completed pending = ready) {d : Dict String (Gathered V)}
    (hsettle : settle (gather ctx round completed ready state).1
      (gather ctx round completed ready state).2.1 = .ok d)
    (untouched : ∀ call ∈ (gather ctx round completed ready state).1, call.left = call.completed)
    (uncancelled : ∀ call ∈ (gather ctx round completed ready state).1,
      call.result ≠ .cancelledError) :
    Released orchestrator (round + 1) d (unready pending ready)
      (calls ++ (gather ctx round completed ready state).1) := by
  have keys := settle_keys hsettle
  rw [(gather_untouched untouched).1] at keys
  refine ⟨?_, ?_, ?_, ?_, ?_, ?_, ?_⟩
  · intro call hcall
    rcases List.mem_append.mp hcall with hold | hnew
    · exact h.normal call hold
    · have quiet := h.quiet hready hsettle hnew
      have live := uncancelled call hnew
      cases hresult : call.result with
      | value v => exact id
      | exception e => exact absurd hresult (quiet e)
      | cancelledError => exact absurd hresult live
  · intro call hcall
    rcases List.mem_append.mp hcall with hold | hnew
    · exact Nat.lt_succ_of_lt (h.before call hold)
    · rw [(mem_gather _ _ _ _ _ call hnew).1]
      exact Nat.lt_succ_self round
  · intro x
    rw [keys, List.map_append, List.mem_append, h.completed_iff]
  · intro x hx y edge
    rw [keys] at hx ⊢
    left
    have called : ∃ call ∈ calls ++ (gather ctx round completed ready state).1,
        call.step = x := by
      rcases hx with hx | hx
      · obtain ⟨call, hcall, rfl⟩ := List.mem_map.mp ((h.completed_iff x).mp hx)
        exact ⟨call, List.mem_append_left _ hcall, rfl⟩
      · obtain ⟨call, hcall, rfl⟩ := List.mem_map.mp hx
        exact ⟨call, List.mem_append_right _ hcall, rfl⟩
    obtain ⟨call, hcall, rfl⟩ := called
    exact h.needs_completed hready hcall (.single edge)
  · intro step hstep
    exact h.known step (List.mem_filter.mp hstep).1
  · intro step hstep
    obtain ⟨hpending, hunready⟩ := List.mem_filter.mp hstep
    rw [keys, gather_steps, not_or]
    exact ⟨h.fresh step hpending, of_decide_eq_true hunready⟩
  · exact h.nodup.sublist (List.filter_sublist.map _)

theorem Released.contained (h : Released orchestrator round completed pending calls)
    (hready : readySteps order round completed pending = ready) (e : PyException) (final : σ) :
    Contained orchestrator
      ⟨.error e, calls ++ (gather ctx round completed ready state).1, final⟩ := by
  intro call hcall failed
  refine ⟨?_, nofun⟩
  rcases List.mem_append.mp hcall with hold | hnew
  · exact absurd failed (h.normal call hold)
  · intro other hother depends
    exact h.not_completed hready hnew (h.needs_completed hready hother depends)

theorem rounds_calls (ctx : Ctx) (order : SetOrder (WorkflowStep Ctx σ V)) (round : ℕ)
    (completed : Dict String (Gathered V)) (pending : List (WorkflowStep Ctx σ V))
    (calls : List (Invocation σ V)) (state : σ) :
    ∃ later, (rounds ctx order round completed pending calls state).calls = calls ++ later ∧
      ∀ call ∈ later, round ≤ call.round := by
  fun_induction rounds ctx order round completed pending calls state with
  | case1 => exact ⟨[], by simp, List.forall_mem_nil _⟩
  | case2 => exact ⟨[], by simp, List.forall_mem_nil _⟩
  | case3 round completed pending calls state hpending ready hready gathered e hsettle =>
    exact ⟨gathered.1, rfl, fun call hcall => (mem_gather _ _ _ _ _ call hcall).1.ge⟩
  | case4 round completed pending calls state hpending ready hready gathered d hsettle ih =>
    obtain ⟨later, hcalls, hlater⟩ := ih
    refine ⟨gathered.1 ++ later, by rw [hcalls, List.append_assoc], ?_⟩
    intro call hcall
    rcases List.mem_append.mp hcall with hcall | hcall
    · exact (mem_gather _ _ _ _ _ call hcall).1.ge
    · exact (Nat.le_succ round).trans (hlater call hcall)

theorem untouched_gathered {gathered : List (Invocation σ V)}
    (untouched : Untouched
      (rounds ctx order round completed pending (calls ++ gathered) state)) :
    ∀ call ∈ gathered, call.left = call.completed := by
  intro call hcall
  obtain ⟨later, hcalls, -⟩ := rounds_calls ctx order round completed pending (calls ++ gathered)
    state
  refine untouched call ?_
  rw [hcalls]
  exact List.mem_append_left _ (List.mem_append_right _ hcall)

theorem Released.rounds_contained
    (h : Released orchestrator round completed pending calls)
    (untouched : Untouched (rounds ctx order round completed pending calls state))
    (caught : Caught (rounds ctx order round completed pending calls state)) :
    Contained orchestrator (rounds ctx order round completed pending calls state) := by
  fun_induction rounds ctx order round completed pending calls state with
  | case1 round completed calls state =>
    exact fun call hcall failed => absurd failed (h.normal call hcall)
  | case2 round completed pending calls state hpending ready hready =>
    exact fun call hcall failed => absurd failed (h.normal call hcall)
  | case3 round completed pending calls state hpending ready hready gathered e hsettle =>
    exact h.contained rfl e gathered.2.2
  | case4 round completed pending calls state hpending ready hready gathered d hsettle ih =>
    refine ih (h.next rfl hsettle (untouched_gathered untouched) ?_) untouched caught
    intro call hcall cancelled
    obtain ⟨later, hcalls, hlater⟩ := rounds_calls ctx order (round + 1) d
      (unready pending ready) (calls ++ gathered.1) gathered.2.2
    unfold Caught at caught
    rw [hcalls] at caught
    obtain ⟨other, hother, hround, e, raised⟩ := caught call
      (List.mem_append_left _ (List.mem_append_right _ hcall)) cancelled
    rw [(mem_gather _ _ _ _ _ call hcall).1] at hround
    -- The round settled, so nothing raised in it.
    rcases List.mem_append.mp hother with hother | hother
    · rcases List.mem_append.mp hother with hother | hother
      · exact absurd (h.before other hother) (by omega)
      · exact h.quiet rfl hsettle hother e raised
    · exact absurd (hlater other hother) (by omega)

theorem released_start (orchestrator : DAGOrchestrator Ctx σ V) (ctx : Ctx) :
    Released orchestrator 1 .empty orchestrator.steps.values [] := by
  have start := scheduled_start orchestrator ctx
  exact ⟨nofun, nofun, by simp, nofun, fun step hstep => ((start.pending_iff step).mp hstep).1,
    by simp, start.nodup⟩

theorem rounds_called {d : Dict String (Gathered V)}
    (untouched : Untouched (rounds ctx order round completed pending calls state))
    (called : ∀ call ∈ calls, call.step ∈ completed.keys)
    (h : (rounds ctx order round completed pending calls state).result = .ok d) :
    ∀ call ∈ (rounds ctx order round completed pending calls state).calls, call.step ∈ d.keys := by
  fun_induction rounds ctx order round completed pending calls state with
  | case1 round completed calls state =>
    obtain rfl := Except.ok.inj h
    exact called
  | case2 => cases h
  | case3 => cases h
  | case4 round completed pending calls state hpending ready hready gathered completed' hsettle
      ih =>
    refine ih untouched ?_ h
    intro call hcall
    have same : gathered.2.1 = completed := (gather_untouched (untouched_gathered untouched)).1
    rw [settle_keys hsettle, same]
    rcases List.mem_append.mp hcall with hcall | hcall
    · exact Or.inl (called call hcall)
    · exact Or.inr (List.mem_map_of_mem hcall)

/-- A failed step holds back everything that depends on it and is in no returned mapping, if no
step writes to the completed results and every cancelled step is caught by another step that raises
in its round. Where a mapping is returned, there is no other way to catch it. -/
theorem contained_of_caught (orchestrator : DAGOrchestrator Ctx σ V)
    (order : SetOrder (WorkflowStep Ctx σ V)) (ctx : Ctx) (state : σ)
    (untouched : Untouched (orchestrator.execute order ctx state)) :
    (Caught (orchestrator.execute order ctx state) →
      Contained orchestrator (orchestrator.execute order ctx state)) ∧
    ∀ d, (orchestrator.execute order ctx state).result = .ok d →
      Contained orchestrator (orchestrator.execute order ctx state) →
        Caught (orchestrator.execute order ctx state) := by
  refine ⟨(released_start orchestrator ctx).rounds_contained untouched, ?_⟩
  intro d hd contained call hcall cancelled
  have failed : Failed call.result := by
    rw [cancelled]
    trivial
  have called := rounds_called untouched (fun _ h => absurd h List.not_mem_nil) hd call hcall
  exact absurd called ((contained call hcall failed).2 d hd)

end Containment

section Samples

def endingStep (name : String) (result : Gathered String) (dependsOn : List String) :
    WorkflowStep Unit Unit String :=
  ⟨name, fun _ completed _ => (result, completed, ()), dependsOn⟩

def raisingSteps : List (WorkflowStep Unit Unit String) :=
  [endingStep "query" .cancelledError [],
    endingStep "fetch" (.exception (.runtimeError "boom")) [],
    endingStep "report" (.value "done") ["query"]]

theorem contained_of_caught_sample : ∃ orchestrator, DAGOrchestrator.new 4 raisingSteps =
      .ok orchestrator ∧ (∃ call ∈ (orchestrator.execute sameOrder () ()).calls,
        call.result = .cancelledError) ∧
      Contained orchestrator (orchestrator.execute sameOrder () ()) := by
  have checked : validateNoCycles (dependencies (Dict.ofList WorkflowStep.name raisingSteps)) 4
      (Dict.ofList WorkflowStep.name raisingSteps).keys =
        .ok ⟨["report", "fetch", "query"], []⟩ := rfl
  obtain ⟨orchestrator, accepts⟩ := new_of_validate checked
  have run : orchestrator.execute sameOrder () () =
      ⟨.error (.runtimeError "Step fetch failed: boom"),
        [⟨1, "query", .empty, (), .empty, .cancelledError⟩,
          ⟨1, "fetch", .empty, (), .empty, .exception (.runtimeError "boom")⟩], ()⟩ := by
    rw [DAGOrchestrator.execute, new_steps accepts]
    exact rounds_raised (List.cons_ne_nil _ _) rfl (List.cons_ne_nil _ _) rfl
  refine ⟨orchestrator, accepts, ?_, (contained_of_caught orchestrator sameOrder () () ?_).1 ?_⟩
  · rw [run]
    exact ⟨_, List.mem_cons_self, rfl⟩
  · rw [run]
    simp [Untouched]
  · rw [run]
    simp [Caught]

def cancelledSteps : List (WorkflowStep Unit Unit String) :=
  [endingStep "query" .cancelledError [], endingStep "report" (.value "done") ["query"]]

theorem cancelled_step_releases : ∃ orchestrator, DAGOrchestrator.new 3 cancelledSteps =
      .ok orchestrator ∧
      (orchestrator.execute sameOrder () ()).calls.map Invocation.step = ["query", "report"] ∧
      (∃ d, (orchestrator.execute sameOrder () ()).result = .ok d ∧
        d.keys = ["query", "report"]) ∧
      ¬ Contained orchestrator (orchestrator.execute sameOrder () ()) := by
  have checked : validateNoCycles (dependencies (Dict.ofList WorkflowStep.name cancelledSteps)) 3
      (Dict.ofList WorkflowStep.name cancelledSteps).keys = .ok ⟨["report", "query"], []⟩ := rfl
  obtain ⟨orchestrator, accepts⟩ := new_of_validate checked
  let afterQuery : Dict String (Gathered String) := Dict.empty.set "query" .cancelledError
  have query : readySteps sameOrder 1 .empty cancelledSteps = cancelledSteps.take 1 := rfl
  have report : readySteps sameOrder 2 afterQuery (cancelledSteps.drop 1) =
      cancelledSteps.drop 1 := rfl
  have run : orchestrator.execute sameOrder () () =
      ⟨.ok (afterQuery.set "report" (.value "done")),
        [⟨1, "query", .empty, (), .empty, .cancelledError⟩,
          ⟨2, "report", afterQuery, (), afterQuery, .value "done"⟩], ()⟩ := by
    rw [DAGOrchestrator.execute, new_steps accepts]
    refine (rounds_settled (List.cons_ne_nil _ _) query (List.cons_ne_nil _ _) rfl).trans ?_
    refine (rounds_settled (List.cons_ne_nil _ _) report (List.cons_ne_nil _ _) rfl).trans ?_
    rw [rounds, if_pos (by rfl)]
    rfl
  refine ⟨orchestrator, accepts, ?_⟩
  rw [run]
  refine ⟨rfl, ⟨_, rfl, rfl⟩, ?_⟩
  intro contained
  exact (contained _ List.mem_cons_self trivial).2 _ rfl List.mem_cons_self

def writingSteps : List (WorkflowStep Unit Unit String) :=
  [⟨"cache", fun _ completed _ =>
      (.value "warm", completed.set "query" (.value "stale"), ()), []⟩,
    endingStep "query" (.exception (.runtimeError "boom")) ["cache"],
    endingStep "report" (.value "done") ["query"]]

/-- The report is called in the round in which its query raises. -/
theorem written_result_releases : ∃ orchestrator, DAGOrchestrator.new 4 writingSteps =
      .ok orchestrator ∧
      (orchestrator.execute sameOrder () ()).calls.map Invocation.step =
        ["cache", "query", "report"] ∧
      ¬ Contained orchestrator (orchestrator.execute sameOrder () ()) := by
  have checked : validateNoCycles (dependencies (Dict.ofList WorkflowStep.name writingSteps)) 4
      (Dict.ofList WorkflowStep.name writingSteps).keys =
        .ok ⟨["report", "query", "cache"], []⟩ := rfl
  obtain ⟨orchestrator, accepts⟩ := new_of_validate checked
  let afterCache : Dict String (Gathered String) :=
    (Dict.empty.set "query" (.value "stale")).set "cache" (.value "warm")
  have cache : readySteps sameOrder 1 .empty writingSteps = writingSteps.take 1 := rfl
  have both : readySteps sameOrder 2 afterCache (writingSteps.drop 1) = writingSteps.drop 1 := rfl
  have run : orchestrator.execute sameOrder () () =
      ⟨.error (.runtimeError "Step query failed: boom"),
        [⟨1, "cache", .empty, (), Dict.empty.set "query" (.value "stale"), .value "warm"⟩,
          ⟨2, "query", afterCache, (), afterCache, .exception (.runtimeError "boom")⟩,
          ⟨2, "report", afterCache, (), afterCache, .value "done"⟩], ()⟩ := by
    rw [DAGOrchestrator.execute, new_steps accepts]
    refine (rounds_settled (List.cons_ne_nil _ _) cache (List.cons_ne_nil _ _) rfl).trans ?_
    exact rounds_raised (List.cons_ne_nil _ _) both (List.cons_ne_nil _ _) rfl
  refine ⟨orchestrator, accepts, ?_⟩
  rw [run]
  refine ⟨rfl, ?_⟩
  intro contained
  have needs : DependsOn orchestrator "report" "query" := by
    refine .single ⟨["query"], ?_, List.mem_singleton.mpr rfl⟩
    rw [new_steps accepts]
    rfl
  exact (contained ⟨2, "query", afterCache, (), afterCache, .exception (.runtimeError "boom")⟩
    (by simp) trivial).1 _ (List.mem_of_getLast? rfl) needs

end Samples

end FailedSteps
