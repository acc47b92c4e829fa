import SynapticBridge.OrchestratorRuns

/-! Two runs of one orchestrator that iterate over the pending steps in different orders.
Before each round both have completed the same results and have the same steps pending. -/
namespace ScheduleOrder

open Domain OrderedDict Orchestrator OrchestratorRuns

variable {Ctx σ V : Type} {ctx : Ctx} {round : ℕ} {completed completed' : Dict String (Gathered V)}
  {calls calls' : List (Invocation σ V)} {pending pending' ready : List (WorkflowStep Ctx σ V)}

/-- Both runs returned equal mappings or both raised `RuntimeError`. -/
inductive Agree : Except PyException (Dict String (Gathered V)) →
    Except PyException (Dict String (Gathered V)) → Prop where
  | returned {d d' : Dict String (Gathered V)} (same : d.Same d') : Agree (.ok d) (.ok d')
  | raised (m m' : String) : Agree (.error (.runtimeError m)) (.error (.runtimeError m'))

def entry (call : Invocation σ V) : String × Gathered V := (call.step, call.result)

theorem settle_ok {d : Dict String (Gathered V)} (h : settle calls completed = .ok d)
    (nodup : (calls.map Invocation.step).Nodup) :
    (∀ name e, (name, .exception e) ∉ calls.map entry) ∧
      (∀ name result, (name, result) ∈ calls.map entry → d.get? name = some result) ∧
      ∀ x ∉ calls.map Invocation.step, d.get? x = completed.get? x := by
  induction calls generalizing completed with
  | nil =>
    obtain rfl := Except.ok.inj h
    simp
  | cons call rest ih =>
    rw [List.map_cons, List.nodup_cons] at nodup
    rw [settle] at h
    split at h
    · cases h
    · rename_i hvalue
      obtain ⟨quiet, stored, kept⟩ := ih h nodup.2
      refine ⟨?_, ?_, ?_⟩
      · intro name e mem
        rcases List.mem_cons.mp mem with heq | mem
        · exact hvalue e (congrArg Prod.snd heq).symm
        · exact quiet name e mem
      · intro name result mem
        rcases List.mem_cons.mp mem with heq | mem
        · obtain ⟨rfl, rfl⟩ := Prod.mk.inj heq
          rw [kept _ nodup.1, Dict.get?_set_self]
        · exact stored name result mem
      · intro x hx
        rw [List.map_cons, List.mem_cons, not_or] at hx
        rw [kept x hx.2, Dict.get?_set_of_ne _ hx.1]

end ScheduleOrder
