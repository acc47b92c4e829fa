import Mathlib.Data.List.Perm.Subperm
import SynapticBridge.OrchestratorRuns

/-! The depth-first search of `_validate_no_cycles` decides whether the dependencies have a
cycle, as long as the nested calls of `visit` fit on the call stack. -/
namespace CycleSearch

open Domain OrderedDict DependencyGraph Orchestrator OrchestratorRuns

section Search

variable {deps : String → Option (List String)} {roots earlier path : List String} {name : String}

/-- The marks while the search is below `path` and has finished `earlier`. -/
structure Searched (deps : String → Option (List String)) (earlier path : List String)
    (marks : Marks) : Prop where
  path_eq : marks.path = path
  visited_iff : ∀ x, x ∈ marks.visited ↔
    x ∈ path ∨ ∃ y ∈ earlier, Relation.ReflTransGen (Edge deps) y x

theorem searched_start : Searched deps [] [] ⟨[], []⟩ := ⟨rfl, by simp⟩

theorem Searched.push {marks : Marks} (h : Searched deps earlier path marks) (name : String) :
    Searched deps earlier (name :: path) ⟨name :: marks.visited, name :: marks.path⟩ := by
  refine ⟨by rw [h.path_eq], ?_⟩
  intro x
  simp only [List.mem_cons, h.visited_iff, or_assoc]

theorem Searched.pop {marks : Marks} {ds : List String} (entry : deps name = some ds)
    (h : Searched deps (earlier ++ ds) (name :: path) marks) :
    Searched deps (earlier ++ [name]) path { marks with path := marks.path.erase name } := by
  have reach : ∀ x, Relation.ReflTransGen (Edge deps) name x ↔
      x = name ∨ ∃ d ∈ ds, Relation.ReflTransGen (Edge deps) d x := by
    intro x
    rw [Relation.ReflTransGen.cases_head_iff]
    constructor
    · rintro (rfl | ⟨d, ⟨ds', entry', mem⟩, hx⟩)
      · exact Or.inl rfl
      · obtain rfl := Option.some.inj (entry.symm.trans entry')
        exact Or.inr ⟨d, mem, hx⟩
    · rintro (rfl | ⟨d, mem, hx⟩)
      · exact Or.inl rfl
      · exact Or.inr ⟨d, ⟨ds, entry, mem⟩, hx⟩
  refine ⟨by simp [h.path_eq], ?_⟩
  intro x
  simp only [h.visited_iff, List.mem_cons, List.mem_append, or_and_right, exists_or,
    List.not_mem_nil, or_false, exists_eq_left, reach]
  rw [or_assoc, or_left_comm, or_left_comm (a := x = name)]

theorem Searched.again {marks : Marks} (h : Searched deps earlier path marks)
    (done : ∃ y ∈ earlier, Relation.ReflTransGen (Edge deps) y name) :
    Searched deps (earlier ++ [name]) path marks := by
  refine ⟨h.path_eq, ?_⟩
  intro x
  obtain ⟨y, hy, reach⟩ := done
  have below : Relation.ReflTransGen (Edge deps) name x →
      ∃ y ∈ earlier, Relation.ReflTransGen (Edge deps) y x :=
    fun hx => ⟨y, hy, reach.trans hx⟩
  simp only [h.visited_iff, List.mem_append, List.mem_singleton, or_and_right, exists_or,
    exists_eq_left]
  rw [or_iff_left_of_imp below]

/-- How the search of `names` below `path` can end, with `limit` frames left. -/
inductive Ends (deps : String → Option (List String)) (roots : List String) (limit : ℕ)
    (earlier path names : List String) : Except PyException Marks → Prop where
  | returned {marks : Marks} (grounded : ∀ x ∈ names, Grounded deps x)
      (searched : Searched deps (earlier ++ names) path marks) :
      Ends deps roots limit earlier path names (.ok marks)
  | overflow {earlier' path' : List String} {x : String}
      (descent : Descent deps roots earlier' path' x) (deep : path.length + limit ≤ path'.length) :
      Ends deps roots limit earlier path names (.error .recursionError)
  | cycle {m x y : String} (mem : x ∈ names) (reach : Relation.ReflTransGen (Edge deps) x y)
      (back : Relation.TransGen (Edge deps) y y) :
      Ends deps roots limit earlier path names (.error (.valueError m))
  | dangling {x y : String} (mem : x ∈ names) (reach : Relation.ReflTransGen (Edge deps) x y)
      (missing : deps y = none) : Ends deps roots limit earlier path names (.error (.keyError y))

theorem foldlM_ends {limit : ℕ} {f : Marks → String → Except PyException Marks}
    (hf : ∀ earlier marks name, Descent deps roots earlier path name →
      Searched deps earlier path marks → Ends deps roots limit earlier path [name] (f marks name))
    (names : List String) {earlier : List String} {marks : Marks}
    (descent : ∀ before name after, names = before ++ name :: after →
      (∀ x ∈ before, Grounded deps x) → Descent deps roots (earlier ++ before) path name)
    (searched : Searched deps earlier path marks) :
    Ends deps roots limit earlier path names (names.foldlM f marks) := by
  induction names generalizing earlier marks with
  | nil => exact .returned nofun (by simpa using searched)
  | cons name rest ih =>
    have first := hf earlier marks name (by simpa using descent [] name rest rfl nofun) searched
    rw [List.foldlM_cons]
    generalize hr : f marks name = r at first
    cases first with
    | @returned marks' grounded searched' =>
      have rest_descent : ∀ before x after, rest = before ++ x :: after →
          (∀ y ∈ before, Grounded deps y) →
          Descent deps roots (earlier ++ [name] ++ before) path x := by
        intro before x after hrest hdone
        rw [List.append_assoc, List.singleton_append]
        refine descent (name :: before) x after (by rw [hrest, List.cons_append]) ?_
        simpa using ⟨grounded name (by simp), hdone⟩
      have later := ih rest_descent searched'
      change Ends deps roots limit earlier path (name :: rest) (rest.foldlM f marks')
      generalize rest.foldlM f marks' = r at later
      cases later with
      | returned grounded' searched'' =>
        exact .returned (by simpa using ⟨grounded name (by simp), grounded'⟩)
          (by simpa using searched'')
      | overflow descent deep => exact .overflow descent deep
      | cycle mem reach back => exact .cycle (List.mem_cons_of_mem _ mem) reach back
      | dangling mem reach missing => exact .dangling (List.mem_cons_of_mem _ mem) reach missing
    | overflow descent deep => exact .overflow descent deep
    | cycle mem reach back =>
      obtain rfl := List.mem_singleton.mp mem
      exact .cycle List.mem_cons_self reach back
    | dangling mem reach missing =>
      obtain rfl := List.mem_singleton.mp mem
      exact .dangling List.mem_cons_self reach missing

theorem visit_ends (limit : ℕ) (marks : Marks) (descent : Descent deps roots earlier path name)
    (searched : Searched deps earlier path marks) :
    Ends deps roots limit earlier path [name] (visit deps limit marks name) := by
  induction limit generalizing earlier path name marks with
  | zero => exact .overflow descent (Nat.le_refl _)
  | succ limit ih =>
    unfold visit
    rw [searched.path_eq]
    split_ifs with onPath visited
    · exact .cycle List.mem_cons_self .refl (descent.path_reaches name onPath)
    · have done := ((searched.visited_iff name).mp visited).resolve_left onPath
      obtain ⟨y, hy, reach⟩ := id done
      refine .returned ?_ (searched.again done)
      simpa using (descent.earlier_grounded y hy).of_reach reach
    · rw [searched.visited_iff, not_or] at visited
      rcases entry : deps name with _ | ds
      · exact .dangling List.mem_cons_self .refl entry
      have fresh : ∀ y ∈ earlier, ¬ Relation.ReflTransGen (Edge deps) y name :=
        fun y hy reach => visited.2 ⟨y, hy, reach⟩
      have loop := foldlM_ends (fun _ marks _ descent => ih marks descent) ds
        (fun before d after hds done => descent.step onPath fresh (hds ▸ entry) done)
        (searched.push name)
      rw [searched.path_eq] at loop
      simp only
      generalize ds.foldlM (visit deps limit) ⟨name :: marks.visited, name :: path⟩ = r at loop
      cases loop with
      | returned grounded searched' =>
        exact .returned (by simpa using Grounded.intro entry grounded) (searched'.pop entry)
      | overflow descent deep =>
        refine .overflow descent ?_
        rw [List.length_cons] at deep
        omega
      | cycle mem reach back =>
        exact .cycle List.mem_cons_self (reach.head ⟨ds, entry, mem⟩) back
      | dangling mem reach missing =>
        exact .dangling List.mem_cons_self (reach.head ⟨ds, entry, mem⟩) missing

theorem validate_ends (limit : ℕ) (names : List String) :
    Ends deps names limit [] [] names (validateNoCycles deps limit names) :=
  foldlM_ends (fun _ marks _ => visit_ends limit marks) names
    (fun _ _ _ split done => .root split done) searched_start

theorem foldlM_comes {limit : ℕ} {f : Marks → String → Except PyException Marks}
    {before : List String} {marks : Marks} (name : String) (after : List String)
    (h : Ends deps roots limit earlier path before (before.foldlM f marks))
    (done : ∀ x ∈ before, Grounded deps x) :
    (before ++ name :: after).foldlM f marks = .error .recursionError ∨
      ∃ marks', Searched deps (earlier ++ before) path marks' ∧ ∀ e, f marks' name = .error e →
        (before ++ name :: after).foldlM f marks = .error e := by
  rw [List.foldlM_append]
  generalize before.foldlM f marks = r at h
  cases h with
  | @returned marks' grounded searched =>
    refine Or.inr ⟨marks', searched, ?_⟩
    intro e he
    change (name :: after).foldlM f marks' = .error e
    rw [List.foldlM_cons, he]
    rfl
  | overflow => exact Or.inl rfl
  | cycle mem reach back => exact absurd back ((done _ mem).of_reach reach).acyclic
  | dangling mem reach missing =>
    cases (done _ mem).of_reach reach with
    | intro entry => rw [missing] at entry; cases entry

theorem visit_error {room : ℕ} {marks : Marks} {ds : List String} {e : PyException}
    (searched : Searched deps earlier path marks) (offPath : name ∉ path)
    (fresh : ∀ y ∈ earlier, ¬ Relation.ReflTransGen (Edge deps) y name)
    (entry : deps name = some ds)
    (h : ds.foldlM (visit deps room) ⟨name :: marks.visited, name :: marks.path⟩ = .error e) :
    visit deps (room + 1) marks name = .error e := by
  have unvisited : name ∉ marks.visited := by
    rw [searched.visited_iff, not_or]
    exact ⟨offPath, fun ⟨y, hy, reach⟩ => fresh y hy reach⟩
  rw [visit, if_neg (by rwa [searched.path_eq]), if_neg unvisited, entry]
  simp only [h]
  rfl

/-- The search follows every descent: with too few frames it overflows, otherwise it calls
`visit` at the end of the descent and fails as that call does. -/
theorem validate_follows (limit : ℕ) (descent : Descent deps roots earlier path name) :
    validateNoCycles deps limit roots = .error .recursionError ∨
      ∃ marks, Searched deps earlier path marks ∧ path.length ≤ limit ∧
        ∀ e, visit deps (limit - path.length) marks name = .error e →
          validateNoCycles deps limit roots = .error e := by
  induction descent with
  | @root before after x split done =>
    subst split
    have loop : Ends deps (before ++ x :: after) limit [] [] before
        (before.foldlM (visit deps limit) ⟨[], []⟩) := by
      refine foldlM_ends (fun _ marks _ => visit_ends limit marks) before ?_ searched_start
      intro before' y after' hsplit hdone
      have split : before ++ x :: after = before' ++ y :: (after' ++ x :: after) := by
        rw [hsplit, List.append_assoc, List.cons_append]
      exact .root split hdone
    rcases foldlM_comes x after loop done with h | ⟨marks, searched, h⟩
    · exact Or.inl h
    · exact Or.inr ⟨marks, searched, Nat.zero_le _, h⟩
  | @step earlier path before after x d above offPath fresh entry done ih =>
    rcases ih with h | ⟨marks, searched, hle, follows⟩
    · exact Or.inl h
    rcases Nat.eq_or_lt_of_le hle with hlimit | hlimit
    · left
      apply follows
      rw [hlimit, Nat.sub_self, visit]
    obtain ⟨room, hroom⟩ : ∃ room, limit - path.length = room + 1 :=
      ⟨limit - path.length - 1, by omega⟩
    have calls : ∀ e, (before ++ d :: after).foldlM (visit deps room)
        ⟨x :: marks.visited, x :: marks.path⟩ = .error e →
        validateNoCycles deps limit roots = .error e := by
      intro e he
      apply follows
      rw [hroom]
      exact visit_error searched offPath fresh entry he
    have loop : Ends deps roots room earlier (x :: path) before
        (before.foldlM (visit deps room) ⟨x :: marks.visited, x :: marks.path⟩) := by
      refine foldlM_ends (fun _ marks _ => visit_ends room marks) before ?_ (searched.push x)
      intro before' y after' hsplit hdone
      have split : deps x = some (before' ++ y :: (after' ++ d :: after)) := by
        rw [entry, hsplit, List.append_assoc, List.cons_append]
      exact above.step offPath fresh split hdone
    rcases foldlM_comes d after loop done with h | ⟨marks', searched', h⟩
    · exact Or.inl (calls _ h)
    · refine Or.inr ⟨marks', searched', hlimit, ?_⟩
      intro e he
      rw [List.length_cons, Nat.sub_add_eq, hroom, Nat.add_sub_cancel] at he
      exact calls e (h e he)

theorem validate_overflow {limit : ℕ} (descent : Descent deps roots earlier path name)
    (deep : limit ≤ path.length) : validateNoCycles deps limit roots = .error .recursionError := by
  rcases validate_follows limit descent with h | ⟨marks, -, -, follows⟩
  · exact h
  · apply follows
    rw [Nat.sub_eq_zero_of_le deep, visit]

end Search

section Constructor

variable {Ctx σ V : Type} {limit : ℕ} {steps : List (WorkflowStep Ctx σ V)}

def table (steps : List (WorkflowStep Ctx σ V)) : Dict String (WorkflowStep Ctx σ V) :=
  Dict.ofList WorkflowStep.name steps

def Closed (steps : List (WorkflowStep Ctx σ V)) : Prop :=
  ∀ step ∈ steps, ∀ dep ∈ step.dependsOn, dep ∈ steps.map WorkflowStep.name

def Cyclic (steps : List (WorkflowStep Ctx σ V)) : Prop :=
  ∃ name, Relation.TransGen (Edge (dependencies (table steps))) name name

/-- The constructor raises `ValueError` on the cyclic lists and accepts all others. -/
def Decides (limit : ℕ) (steps : List (WorkflowStep Ctx σ V)) : Prop :=
  ((∃ m, DAGOrchestrator.new limit steps = .error (.valueError m)) ↔ Cyclic steps) ∧
    (¬ Cyclic steps → ∃ orchestrator, DAGOrchestrator.new limit steps = .ok orchestrator)

/-- No descent from the steps of the table needs more stack frames than there are. -/
def Shallow (limit : ℕ) (steps : List (WorkflowStep Ctx σ V)) : Prop :=
  ∀ earlier path name,
    Descent (dependencies (table steps)) (table steps).keys earlier path name →
      path.length < limit

theorem mem_keys_of_dependencies {name : String} {ds : List String}
    (entry : dependencies (table steps) name = some ds) : name ∈ (table steps).keys := by
  by_contra hn
  rw [dependencies, Dict.get?_eq_none.mpr hn] at entry
  cases entry

theorem Closed.entry_of_reach (closed : Closed steps) {x y : String}
    (hx : x ∈ (table steps).keys)
    (reach : Relation.ReflTransGen (Edge (dependencies (table steps))) x y) :
    dependencies (table steps) y ≠ none := by
  have hy : y ∈ (table steps).keys := by
    induction reach with
    | refl => exact hx
    | tail _ edge =>
      obtain ⟨ds, entry, mem⟩ := edge
      obtain ⟨step, get, rfl⟩ := Option.map_eq_some_iff.mp entry
      obtain ⟨hstep, -⟩ := Dict.mem_of_get?_ofList get
      obtain ⟨step', hstep', heq⟩ := List.mem_map.mp (closed step hstep _ mem)
      exact Dict.mem_keys_ofList.mpr ⟨step', hstep', heq⟩
  rcases get : (table steps).get? y with _ | step
  · exact absurd hy (Dict.get?_eq_none.mp get)
  · simp [dependencies, get]

theorem not_cyclic_of_grounded
    (grounded : ∀ name ∈ (table steps).keys, Grounded (dependencies (table steps)) name) :
    ¬ Cyclic steps := by
  rintro ⟨name, cycle⟩
  obtain ⟨-, ⟨ds, entry, -⟩, -⟩ := Relation.TransGen.head'_iff.mp cycle
  exact (grounded name (mem_keys_of_dependencies entry)).acyclic cycle

theorem new_error {e : PyException}
    (h : validateNoCycles (dependencies (table steps)) limit (table steps).keys = .error e) :
    DAGOrchestrator.new limit steps = .error e := by
  simp only [DAGOrchestrator.new]
  split
  · rename_i e' he
    obtain rfl := Except.error.inj (h.symm.trans he)
    rfl
  · rename_i marks hm
    rw [table] at h
    rw [h] at hm
    cases hm

theorem Shallow.decides (closed : Closed steps) (shallow : Shallow limit steps) :
    Decides limit steps := by
  have ends : Ends (dependencies (table steps)) (table steps).keys limit [] [] (table steps).keys
      (validateNoCycles (dependencies (table steps)) limit (table steps).keys) :=
    validate_ends limit _
  generalize hr : validateNoCycles (dependencies (table steps)) limit (table steps).keys = r
    at ends
  cases ends with
  | returned grounded =>
    obtain ⟨orchestrator, accepted⟩ := new_of_validate hr
    have acyclic := not_cyclic_of_grounded grounded
    refine ⟨⟨?_, fun cyclic => absurd cyclic acyclic⟩, fun _ => ⟨orchestrator, accepted⟩⟩
    rintro ⟨m, raised⟩
    rw [accepted] at raised
    cases raised
  | overflow descent deep =>
    have := shallow _ _ _ descent
    simp only [List.length_nil, Nat.zero_add] at deep
    omega
  | cycle mem reach back =>
    have cyclic : Cyclic steps := ⟨_, back⟩
    exact ⟨⟨fun _ => cyclic, fun _ => ⟨_, new_error hr⟩⟩, fun acyclic => absurd cyclic acyclic⟩
  | dangling mem reach missing => exact absurd missing (closed.entry_of_reach mem reach)

theorem shallow_of_length (h : (table steps).keys.length < limit) : Shallow limit steps := by
  intro earlier path name descent
  have sub : path ⊆ (table steps).keys := by
    intro x hx
    obtain ⟨ds, entry⟩ := descent.path_entry x hx
    exact mem_keys_of_dependencies entry
  have hle := (descent.path_nodup.subperm sub).length_le
  omega

theorem new_overflow {earlier path : List String} {name : String}
    (descent : Descent (dependencies (table steps)) (table steps).keys earlier path name)
    (deep : limit ≤ path.length) : DAGOrchestrator.new limit steps = .error .recursionError :=
  new_error (validate_overflow descent deep)

theorem not_decides_of_overflow (h : DAGOrchestrator.new limit steps = .error .recursionError) :
    ¬ Decides limit steps := by
  rintro ⟨raises, accepts⟩
  rw [h] at raises accepts
  have acyclic : ¬ Cyclic steps := by
    intro cyclic
    obtain ⟨m, hm⟩ := raises.mpr cyclic
    cases hm
  obtain ⟨orchestrator, ho⟩ := accepts acyclic
  cases ho

/-- On a closed list the constructor decides cyclicity exactly when its search fits on the
call stack. -/
theorem decides_iff (closed : Closed steps) : Decides limit steps ↔ Shallow limit steps := by
  refine ⟨?_, Shallow.decides closed⟩
  intro decides earlier path name descent
  by_contra deep
  exact not_decides_of_overflow (new_overflow descent (Nat.le_of_not_lt deep)) decides

theorem decides_iff_sample : Closed sampleSteps ∧ (Decides 4 sampleSteps ↔ Shallow 4 sampleSteps) ∧
    Decides 4 sampleSteps := by
  have closed : Closed sampleSteps := by
    simp [Closed, sampleSteps, plainStep]
  have shallow : Shallow 4 sampleSteps := shallow_of_length (by decide)
  exact ⟨closed, decides_iff closed, (decides_iff closed).mpr shallow⟩

end Constructor

/-! A chain of steps, each depending on the next. -/

section Chain

def chainName (i : ℕ) : String := String.ofList (List.replicate i 's')

def chainStep (n i : ℕ) : WorkflowStep Unit Unit String :=
  ⟨chainName i, fun _ completed _ => (.value "", completed, ()),
    if i < n then [chainName (i + 1)] else []⟩

def chainSteps (n : ℕ) : List (WorkflowStep Unit Unit String) :=
  (List.range (n + 1)).map (chainStep n)

theorem chainName_inj {i j : ℕ} (h : chainName i = chainName j) : i = j := by
  have hlen := congrArg String.length h
  simpa [chainName] using hlen

theorem chainSteps_names (n : ℕ) :
    (chainSteps n).map WorkflowStep.name = (List.range (n + 1)).map chainName := by
  simp only [chainSteps, List.map_map]
  rfl

theorem chainSteps_distinct (n : ℕ) : ((chainSteps n).map WorkflowStep.name).Nodup := by
  rw [chainSteps_names]
  exact (List.nodup_range).map fun i j => chainName_inj

theorem chainSteps_closed (n : ℕ) : Closed (chainSteps n) := by
  intro step hstep dep hdep
  obtain ⟨i, hi, rfl⟩ := List.mem_map.mp hstep
  rw [chainSteps_names]
  by_cases h : i < n
  · simp only [chainStep, if_pos h, List.mem_singleton] at hdep
    exact List.mem_map.mpr ⟨i + 1, List.mem_range.mpr (by omega), hdep.symm⟩
  · simp [chainStep, if_neg h] at hdep

theorem chain_edge {n : ℕ} {x d : String}
    (edge : Edge (dependencies (table (chainSteps n))) x d) : x.length < d.length := by
  obtain ⟨ds, entry, mem⟩ := edge
  obtain ⟨step, get, rfl⟩ := Option.map_eq_some_iff.mp entry
  obtain ⟨hstep, rfl⟩ := Dict.mem_of_get?_ofList get
  obtain ⟨i, -, rfl⟩ := List.mem_map.mp hstep
  by_cases h : i < n
  · simp only [chainStep, if_pos h, List.mem_singleton] at mem
    simp [mem, chainStep, chainName]
  · simp [chainStep, if_neg h] at mem

theorem chainSteps_entry {n i : ℕ} (h : i < n) :
    dependencies (table (chainSteps n)) (chainName i) = some [chainName (i + 1)] := by
  have hmem : chainStep n i ∈ chainSteps n :=
    List.mem_map_of_mem (List.mem_range.mpr (by omega))
  have get := Dict.get?_ofList (chainSteps_distinct n) hmem
  rw [dependencies, table, show chainName i = (chainStep n i).name from rfl, get]
  simp [chainStep, h]

theorem chainSteps_acyclic (n : ℕ) : ¬ Cyclic (chainSteps n) := by
  rintro ⟨name, cycle⟩
  have longer : ∀ {x y}, Relation.TransGen (Edge (dependencies (table (chainSteps n)))) x y →
      x.length < y.length := by
    intro x y walk
    induction walk with
    | single edge => exact chain_edge edge
    | tail _ edge ih => exact ih.trans (chain_edge edge)
  exact Nat.lt_irrefl _ (longer cycle)

theorem chain_descent (n i : ℕ) (h : i ≤ n) : Descent (dependencies (table (chainSteps n)))
    (table (chainSteps n)).keys [] ((List.range i).map chainName).reverse (chainName i) := by
  induction i with
  | zero =>
    have split : (table (chainSteps n)).keys =
        [] ++ chainName 0 :: ((List.range n).map Nat.succ).map chainName := by
      rw [table, Dict.keys_ofList (chainSteps_distinct n), chainSteps_names,
        List.range_succ_eq_map]
      rfl
    exact .root split nofun
  | succ i ih =>
    have offPath : chainName i ∉ ((List.range i).map chainName).reverse := by
      intro hmem
      obtain ⟨j, hj, heq⟩ := List.mem_map.mp (List.mem_reverse.mp hmem)
      have := chainName_inj heq
      have := List.mem_range.mp hj
      omega
    have split : dependencies (table (chainSteps n)) (chainName i) =
        some ([] ++ chainName (i + 1) :: []) := chainSteps_entry h
    have down := (ih (by omega)).step offPath nofun split nofun
    simpa [List.range_succ] using down

theorem chain_overflow {limit n : ℕ} (h : limit ≤ n) :
    DAGOrchestrator.new limit (chainSteps n) = .error .recursionError :=
  new_overflow (chain_descent n n (Nat.le_refl n)) (by simpa using h)

theorem long_chain_rejected : Closed (chainSteps 1000) ∧ ¬ Cyclic (chainSteps 1000) ∧
    ¬ Decides 1000 (chainSteps 1000) :=
  ⟨chainSteps_closed 1000, chainSteps_acyclic 1000,
    not_decides_of_overflow (chain_overflow (Nat.le_refl 1000))⟩

end Chain

end CycleSearch
