import SynapticBridge.OrderedDict
import SynapticBridge.Domain
import SynapticBridge.DependencyGraph

/-! `DAGOrchestrator`: a depth-first search rejects cycles at construction, and execution
runs the ready steps of one round together. The runs record every invocation. -/
namespace Orchestrator

open Domain OrderedDict DependencyGraph

/-- One entry of `asyncio.gather(..., return_exceptions=True)`. An exception that was
returned counts like one that was raised; `CancelledError` is not an `Exception`. -/
inductive Gathered (V : Type) where
  | value (v : V)
  | exception (e : PyException)
  | cancelledError

/-- A step's coroutine gets the context and the live dictionary of the completed results. It hands
back its result and the dictionary as it left it, and may use state `σ`. -/
structure WorkflowStep (Ctx σ V : Type) where
  name : String
  execute : Ctx → Dict String (Gathered V) → σ → Gathered V × Dict String (Gathered V) × σ
  dependsOn : List String

section Validation

structure Marks where
  visited : List String
  path : List String

def visit (dependsOn : String → Option (List String)) :
    ℕ → Marks → String → Except PyException Marks
  | 0, _, _ => .error .recursionError
  | limit + 1, marks, name =>
    if name ∈ marks.path then .error (.valueError s!"Circular dependency detected at {name}")
    else if name ∈ marks.visited then .ok marks
    else
      match dependsOn name with
      | none => .error (.keyError name)
      | some deps => do
        let marks ← deps.foldlM (visit dependsOn limit)
          ⟨name :: marks.visited, name :: marks.path⟩
        return { marks with path := marks.path.erase name }

def validateNoCycles (dependsOn : String → Option (List String)) (limit : ℕ)
    (names : List String) : Except PyException Marks :=
  names.foldlM (visit dependsOn limit) ⟨[], []⟩

variable {dependsOn : String → Option (List String)}

/-- Every node that was visited and is no longer on the path is grounded. -/
def Explored (dependsOn : String → Option (List String)) (marks : Marks) : Prop :=
  ∀ x ∈ marks.visited, x ∉ marks.path → Grounded dependsOn x

theorem foldlM_visit {f : Marks → String → Except PyException Marks}
    (hf : ∀ name marks marks', f marks name = .ok marks' → Explored dependsOn marks →
      Explored dependsOn marks' ∧ marks'.path = marks.path ∧ Grounded dependsOn name)
    (names : List String) {marks marks' : Marks} (h : names.foldlM f marks = .ok marks')
    (explored : Explored dependsOn marks) : Explored dependsOn marks' ∧
      marks'.path = marks.path ∧ ∀ name ∈ names, Grounded dependsOn name := by
  induction names generalizing marks with
  | nil =>
    obtain rfl := Except.ok.inj h
    exact ⟨explored, rfl, by simp⟩
  | cons name rest ih =>
    rw [List.foldlM_cons] at h
    rcases hname : f marks name with e | marks₁
    · rw [hname] at h
      cases h
    · rw [hname] at h
      obtain ⟨explored₁, hpath₁, grounded⟩ := hf name marks marks₁ hname explored
      obtain ⟨explored', hpath', hrest⟩ := ih h explored₁
      refine ⟨explored', hpath'.trans hpath₁, ?_⟩
      intro x hx
      rcases List.mem_cons.mp hx with rfl | hx
      · exact grounded
      · exact hrest x hx

theorem visit_grounds (limit : ℕ) (name : String) (marks marks' : Marks)
    (h : visit dependsOn limit marks name = .ok marks') (explored : Explored dependsOn marks) :
    Explored dependsOn marks' ∧ marks'.path = marks.path ∧ Grounded dependsOn name := by
  induction limit generalizing name marks marks' with
  | zero => cases h
  | succ limit ih =>
    unfold visit at h
    split_ifs at h with hpath hvisited
    · obtain rfl := Except.ok.inj h
      exact ⟨explored, rfl, explored name hvisited hpath⟩
    · rcases hdeps : dependsOn name with _ | deps
      · rw [hdeps] at h
        cases h
      rw [hdeps] at h
      rcases hfold : deps.foldlM (visit dependsOn limit)
        ⟨name :: marks.visited, name :: marks.path⟩ with e | marks₁
      · simp only [hfold] at h
        cases h
      simp only [hfold] at h
      obtain rfl := Except.ok.inj h
      have start : Explored dependsOn ⟨name :: marks.visited, name :: marks.path⟩ := by
        intro x hx hx'
        rcases List.mem_cons.mp hx with rfl | hx
        · exact absurd List.mem_cons_self hx'
        · exact explored x hx fun hp => hx' (List.mem_cons_of_mem _ hp)
      obtain ⟨explored₁, hpath₁, below⟩ := foldlM_visit ih deps hfold start
      have grounded : Grounded dependsOn name := .intro hdeps below
      refine ⟨?_, by simp [hpath₁], grounded⟩
      intro x hx hx'
      by_cases hxn : x = name
      · exact hxn ▸ grounded
      · refine explored₁ x hx ?_
        rw [hpath₁] at hx' ⊢
        simpa [hxn] using hx'

theorem validate_grounds {limit : ℕ} {names : List String} {marks : Marks}
    (h : validateNoCycles dependsOn limit names = .ok marks) :
    ∀ name ∈ names, Grounded dependsOn name :=
  (foldlM_visit (visit_grounds limit) names h (by intro x hx; cases hx)).2.2

end Validation

section Execution

variable {Ctx σ V : Type}

def dependencies (steps : Dict String (WorkflowStep Ctx σ V)) (name : String) :
    Option (List String) :=
  (steps.get? name).map WorkflowStep.dependsOn

structure DAGOrchestrator (Ctx σ V : Type) where
  steps : Dict String (WorkflowStep Ctx σ V)
  named : ∀ name step, steps.get? name = some step → step.name = name
  grounded : ∀ name ∈ steps.keys, Grounded (dependencies steps) name

theorem name_of_get?_ofList {xs : List (WorkflowStep Ctx σ V)} {name : String}
    {step : WorkflowStep Ctx σ V}
    (h : (Dict.ofList WorkflowStep.name xs).get? name = some step) : step.name = name :=
  (Dict.mem_of_get?_ofList h).2

def DAGOrchestrator.new (limit : ℕ) (steps : List (WorkflowStep Ctx σ V)) :
    Except PyException (DAGOrchestrator Ctx σ V) :=
  let table := Dict.ofList WorkflowStep.name steps
  match h : validateNoCycles (dependencies table) limit table.keys with
  | .error e => .error e
  | .ok _ => .ok ⟨table, fun _ _ => name_of_get?_ofList, validate_grounds h⟩

/-- The iteration order of the set `pending` in each round, which Python leaves open. -/
structure SetOrder (α : Type) where
  list : ℕ → List α → List α
  perm : ∀ round l, (list round l).Perm l

def sameOrder {α : Type} : SetOrder α := ⟨fun _ l => l, fun _ _ => .rfl⟩

/-- What one call of a step's function saw, how it left the completed results and what `gather`
returned for it. -/
structure Invocation (σ V : Type) where
  round : ℕ
  step : String
  completed : Dict String (Gathered V)
  state : σ
  left : Dict String (Gathered V)
  result : Gathered V

def gather (ctx : Ctx) (round : ℕ) : Dict String (Gathered V) → List (WorkflowStep Ctx σ V) → σ →
    List (Invocation σ V) × Dict String (Gathered V) × σ
  | completed, [], state => ([], completed, state)
  | completed, step :: rest, state =>
    let (result, left, state') := step.execute ctx completed state
    let (later, final) := gather ctx round left rest state'
    (⟨round, step.name, completed, state, left, result⟩ :: later, final)

def settle : List (Invocation σ V) → Dict String (Gathered V) →
    Except PyException (Dict String (Gathered V))
  | [], completed => .ok completed
  | call :: rest, completed =>
    match call.result with
    | .exception e => .error (.runtimeError s!"Step {call.step} failed: {e.text}")
    | result => settle rest (completed.set call.step result)

def isReady (completed : Dict String (Gathered V)) (step : WorkflowStep Ctx σ V) : Bool :=
  step.dependsOn.all fun dep => completed.contains dep

def readySteps (order : SetOrder (WorkflowStep Ctx σ V)) (round : ℕ)
    (completed : Dict String (Gathered V)) (pending : List (WorkflowStep Ctx σ V)) :
    List (WorkflowStep Ctx σ V) :=
  (order.list round pending).filter (isReady completed)

theorem mem_readySteps {order : SetOrder (WorkflowStep Ctx σ V)} {round : ℕ}
    {completed : Dict String (Gathered V)} {pending : List (WorkflowStep Ctx σ V)}
    {step : WorkflowStep Ctx σ V} : step ∈ readySteps order round completed pending ↔
      step ∈ pending ∧ ∀ dep ∈ step.dependsOn, dep ∈ completed.keys := by
  simp only [readySteps, List.mem_filter, (order.perm round pending).mem_iff, isReady,
    List.all_eq_true, Dict.contains_iff]

structure Outcome (σ V : Type) where
  result : Except PyException (Dict String (Gathered V))
  calls : List (Invocation σ V)
  state : σ

def unready (pending ready : List (WorkflowStep Ctx σ V)) : List (WorkflowStep Ctx σ V) :=
  pending.filter fun step => step.name ∉ ready.map WorkflowStep.name

theorem unready_length_lt {pending ready : List (WorkflowStep Ctx σ V)} (h : ready ≠ [])
    (sub : ∀ step ∈ ready, step ∈ pending) : (unready pending ready).length < pending.length := by
  obtain ⟨step, hstep⟩ := List.exists_mem_of_ne_nil ready h
  refine List.length_filter_lt_length_iff_exists.mpr ⟨step, sub step hstep, ?_⟩
  simpa using ⟨step, hstep, rfl⟩

/-- The rounds of `execute`. The set of pending names is kept as the list of their steps;
names leave it only after the whole round was settled, as nothing reads it before. -/
def rounds (ctx : Ctx) (order : SetOrder (WorkflowStep Ctx σ V)) (round : ℕ)
    (completed : Dict String (Gathered V)) (pending : List (WorkflowStep Ctx σ V))
    (calls : List (Invocation σ V)) (state : σ) : Outcome σ V :=
  if pending = [] then ⟨.ok completed, calls, state⟩
  else
    let ready := readySteps order round completed pending
    if ready = [] then
      ⟨.error (.runtimeError "Circular dependency detected"), calls, state⟩
    else
      let gathered := gather ctx round completed ready state
      match settle gathered.1 gathered.2.1 with
      | .error e => ⟨.error e, calls ++ gathered.1, gathered.2.2⟩
      | .ok completed' =>
        rounds ctx order (round + 1) completed'
          (unready pending ready) (calls ++ gathered.1) gathered.2.2
termination_by pending.length
decreasing_by
  exact unready_length_lt (by assumption) fun step hstep => (mem_readySteps.mp hstep).1

def DAGOrchestrator.execute (orchestrator : DAGOrchestrator Ctx σ V)
    (order : SetOrder (WorkflowStep Ctx σ V)) (ctx : Ctx) (state : σ) : Outcome σ V :=
  rounds ctx order 1 .empty orchestrator.steps.values [] state

end Execution

end Orchestrator
