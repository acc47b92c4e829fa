import Mathlib.Data.List.Dedup
import Mathlib.Data.List.Perm.Basic
import Mathlib.Data.List.Sort
import Mathlib.Data.String.Basic
import SynapticBridge.Domain
import SynapticBridge.OrderedDict
import SynapticBridge.PrecedenceOrders

/-! `MultiHopChainPlanner`: every start tool is extended in every possible way until no tool
that is left has its dependencies in the chain; of the chains with the same tools the first
one is kept. -/
namespace ChainPlanner

open Domain OrderedDict PrecedenceOrders

structure MultiHopChainPlanner where
  toolDependencies : Dict String (List String)

def MultiHopChainPlanner.new : MultiHopChainPlanner :=
  ⟨[("filesystem.read", []), ("filesystem.write", ["filesystem.read"]),
    ("filesystem.delete", ["filesystem.read"]), ("bash.execute", []), ("http.request", []),
    ("database.query", ["database.write"]), ("database.write", []), ("email.send", []),
    ("search.execute", ["http.request"])].foldl (fun table e => table.set e.1 e.2) .empty⟩

namespace MultiHopChainPlanner

def addDependency (planner : MultiHopChainPlanner) (tool dependsOn : String) :
    MultiHopChainPlanner :=
  let table := if planner.toolDependencies.contains tool then planner.toolDependencies
    else planner.toolDependencies.set tool []
  let deps := (table.get? tool).getD []
  if dependsOn ∈ deps then ⟨table⟩ else ⟨table.set tool (deps ++ [dependsOn])⟩

def getDependencies (planner : MultiHopChainPlanner) (tool : String) : List String :=
  (planner.toolDependencies.get? tool).getD []

/-- `_has_dependency`: the chain has all dependencies of the tool. -/
def hasDependency (planner : MultiHopChainPlanner) (nextTool : String)
    (currentChain : List String) : Bool :=
  let requiredDeps := planner.getDependencies nextTool
  if requiredDeps = [] then true else requiredDeps.all (· ∈ currentChain)

end MultiHopChainPlanner

/-- The loop `for i, tool in enumerate(tools)`, with the tools but the `i`-th. -/
def picks (tools : List String) : List (String × List String) :=
  tools.zipIdx.map fun (tool, i) => (tool, tools.eraseIdx i)

/-- A loop whose body extends `chains`. -/
def extendAll {β γ : Type} (f : β → Except PyException (List γ)) :
    List β → Except PyException (List γ)
  | [] => .ok []
  | x :: rest => do
    let subChains ← f x
    let later ← extendAll f rest
    return subChains ++ later

/-- `_plan_with_tool` with `limit` frames left on the call stack. -/
def MultiHopChainPlanner.planWithTool (planner : MultiHopChainPlanner) :
    ℕ → List String → List String → Except PyException (List (List String))
  | 0, _, _ => .error .recursionError
  | limit + 1, remaining, currentChain =>
    if remaining = [] then .ok [currentChain]
    else do
      let chains ← extendAll (fun (nextTool, newRemaining) =>
        if planner.hasDependency nextTool currentChain then
          planner.planWithTool limit newRemaining (currentChain ++ [nextTool])
        else .ok []) (picks remaining)
      return if chains = [] then [currentChain] else chains

/-- `tuple(sorted(chain))`. -/
def key (chain : List String) : List String := chain.insertionSort (· ≤ ·)

/-- The chains whose key was not seen before. -/
def uniqueChains : List (List String) → List (List String) → List (List String)
  | _, [] => []
  | seen, chain :: rest =>
    if key chain ∈ seen then uniqueChains seen rest
    else chain :: uniqueChains (key chain :: seen) rest

namespace MultiHopChainPlanner

def plan (planner : MultiHopChainPlanner) (limit : ℕ) (availableTools : List String) :
    Except PyException (List (List String)) :=
  if availableTools.length = 1 then .ok [availableTools]
  else do
    let chains ← extendAll (fun (tool, remaining) => planner.planWithTool limit remaining [tool])
      (picks availableTools)
    return uniqueChains [] chains

def detectCircular (chain : List String) : Bool := chain.length ≠ chain.dedup.length

def validateDependencies (chain : List String) : Bool := !detectCircular chain

end MultiHopChainPlanner

section Table

variable (planner : MultiHopChainPlanner)

/-- Registering adds the one dependency, and nothing is lost. -/
theorem mem_getDependencies_addDependency (tool dependsOn x d : String) :
    d ∈ (planner.addDependency tool dependsOn).getDependencies x ↔
      d ∈ planner.getDependencies x ∨ (x = tool ∧ d = dependsOn) := by
  simp only [MultiHopChainPlanner.addDependency, MultiHopChainPlanner.getDependencies]
  have table : ∀ y, (((if planner.toolDependencies.contains tool then planner.toolDependencies
      else planner.toolDependencies.set tool []).get? y).getD []) =
        (planner.toolDependencies.get? y).getD [] := by
    intro y
    split_ifs with known
    · rfl
    · rw [Dict.get?_set]
      split_ifs with hy
      · rw [Dict.contains_iff] at known
        rw [hy, Dict.get?_eq_none.mpr known]
        rfl
      · rfl
  rw [table tool]
  by_cases listed : dependsOn ∈ (planner.toolDependencies.get? tool).getD []
  · rw [if_pos listed, table x]
    constructor
    · exact Or.inl
    · rintro (h | ⟨rfl, rfl⟩)
      · exact h
      · exact listed
  · rw [if_neg listed, Dict.get?_set]
    by_cases hx : x = tool
    · subst hx
      simp
    · rw [if_neg hx, table x]
      simp [hx]

theorem hasDependency_iff (tool : String) (chain : List String) :
    planner.hasDependency tool chain = true ↔ ∀ d ∈ planner.getDependencies tool, d ∈ chain := by
  unfold MultiHopChainPlanner.hasDependency
  by_cases h : planner.getDependencies tool = []
  · simp [h]
  · simp [h]

end Table

section Loops

variable {β γ : Type} {f : β → Except PyException (List γ)} {xs : List β}

theorem extendAll_cons {x : β} {out : List γ} (h : extendAll f (x :: xs) = .ok out) :
    ∃ first later, f x = .ok first ∧ extendAll f xs = .ok later ∧ out = first ++ later := by
  rw [extendAll] at h
  rcases hx : f x with e | first
  · rw [hx] at h
    cases h
  rcases hrest : extendAll f xs with e | later
  · rw [hx, hrest] at h
    cases h
  rw [hx, hrest] at h
  exact ⟨first, later, rfl, rfl, (Except.ok.inj h).symm⟩

theorem mem_extendAll {out : List γ} (h : extendAll f xs = .ok out) (c : γ) :
    c ∈ out ↔ ∃ x ∈ xs, ∃ found, f x = .ok found ∧ c ∈ found := by
  induction xs generalizing out with
  | nil =>
    obtain rfl := Except.ok.inj h
    simp
  | cons x rest ih =>
    obtain ⟨first, later, hfirst, hlater, rfl⟩ := extendAll_cons h
    rw [List.mem_append, ih hlater]
    simp [hfirst]

theorem extendAll_each {out : List γ} (h : extendAll f xs = .ok out) :
    ∀ x ∈ xs, ∃ found, f x = .ok found := by
  induction xs generalizing out with
  | nil => exact nofun
  | cons x rest ih =>
    obtain ⟨first, later, hfirst, hlater, -⟩ := extendAll_cons h
    intro y hy
    rcases List.mem_cons.mp hy with rfl | hy
    · exact ⟨first, hfirst⟩
    · exact ih hlater y hy

theorem extendAll_error {e : PyException} (h : extendAll f xs = .error e) :
    ∃ x ∈ xs, f x = .error e := by
  induction xs with
  | nil => cases h
  | cons x rest ih =>
    rw [extendAll] at h
    rcases hx : f x with e' | first
    · rw [hx] at h
      exact ⟨x, List.mem_cons_self, hx.trans h⟩
    rcases hrest : extendAll f rest with e' | later
    · rw [hx, hrest] at h
      obtain ⟨y, hy, hfail⟩ := ih (hrest.trans h)
      exact ⟨y, List.mem_cons_of_mem _ hy, hfail⟩
    · rw [hx, hrest] at h
      cases h

/-- Each pick leaves the other tools. -/
theorem perm_of_mem_picks {tools rest : List String} {tool : String}
    (h : (tool, rest) ∈ picks tools) : (tool :: rest).Perm tools := by
  obtain ⟨⟨x, i⟩, hmem, heq⟩ := List.mem_map.mp h
  obtain ⟨rfl, rfl⟩ := Prod.mk.inj heq
  obtain ⟨hi, hx : tools[i] = x⟩ :=
    List.getElem?_eq_some_iff.mp (List.mem_zipIdx_iff_getElem?.mp hmem)
  rw [← hx]
  exact List.getElem_cons_eraseIdx_perm hi

theorem mem_picks_of_mem {tools : List String} {tool : String} (h : tool ∈ tools) :
    ∃ rest, (tool, rest) ∈ picks tools := by
  obtain ⟨i, hi, rfl⟩ := List.mem_iff_getElem.mp h
  refine ⟨tools.eraseIdx i, List.mem_map.mpr ⟨(tools[i], i), ?_, rfl⟩⟩
  exact List.mem_zipIdx_iff_getElem?.mpr (List.getElem?_eq_getElem hi)

theorem picks_cons (tool : String) (rest : List String) :
    ∃ others, picks (tool :: rest) = (tool, rest) :: others :=
  ⟨_, rfl⟩

end Loops

section Planning

variable (planner : MultiHopChainPlanner)

/-- The body of the loop of `_plan_with_tool`. -/
def extendWith (limit : ℕ) (currentChain : List String) (pick : String × List String) :
    Except PyException (List (List String)) :=
  if planner.hasDependency pick.1 currentChain then
    planner.planWithTool limit pick.2 (currentChain ++ [pick.1])
  else .ok []

/-- With no tools left the loop finds nothing, as when no tool that is left fits. -/
theorem planWithTool_succ (limit : ℕ) (remaining current : List String) :
    planner.planWithTool (limit + 1) remaining current =
      match extendAll (extendWith planner limit current) (picks remaining) with
      | .error e => .error e
      | .ok chains => .ok (if chains = [] then [current] else chains) := by
  rw [MultiHopChainPlanner.planWithTool]
  split_ifs with hremaining
  · subst hremaining
    rfl
  · change (extendAll (extendWith planner limit current) (picks remaining) >>= _) = _
    cases extendAll (extendWith planner limit current) (picks remaining) with
    | error e => rfl
    | ok chains => rfl

theorem planWithTool_ok {limit : ℕ} {remaining current : List String}
    {chains : List (List String)} (h : planner.planWithTool limit remaining current = .ok chains) :
    ∃ limit' found, limit = limit' + 1 ∧
      extendAll (extendWith planner limit' current) (picks remaining) = .ok found ∧
      chains = if found = [] then [current] else found := by
  cases limit with
  | zero => cases h
  | succ limit =>
    rw [planWithTool_succ] at h
    split at h
    · cases h
    · exact ⟨limit, _, rfl, by assumption, (Except.ok.inj h).symm⟩

theorem planWithTool_ne_nil {limit : ℕ} {remaining current : List String}
    {chains : List (List String)} (h : planner.planWithTool limit remaining current = .ok chains) :
    chains ≠ [] := by
  obtain ⟨limit', found, rfl, -, rfl⟩ := planWithTool_ok planner h
  split_ifs with hfound
  · exact List.cons_ne_nil _ _
  · exact hfound

/-- A chain was grown from `current` by tools that had their dependencies, until no tool that
is left has them. -/
def GrownFrom (current remaining chain : List String) : Prop :=
  ∃ added rest, chain = current ++ added ∧ (added ++ rest).Perm remaining ∧
    Respects planner.getDependencies current added ∧
    ∀ tool ∈ rest, planner.hasDependency tool chain = false

/-- A loop that finds nothing has no tool that fits. -/
theorem stuck_of_nothing {limit : ℕ} {remaining current : List String}
    (h : extendAll (extendWith planner limit current) (picks remaining) = .ok []) :
    ∀ tool ∈ remaining, planner.hasDependency tool current = false := by
  intro tool htool
  obtain ⟨rest, hpick⟩ := mem_picks_of_mem htool
  by_contra fits
  rw [Bool.not_eq_false] at fits
  obtain ⟨found, hsub⟩ := extendAll_each h _ hpick
  have hne : found ≠ [] := by
    rw [extendWith, if_pos fits] at hsub
    exact planWithTool_ne_nil planner hsub
  obtain ⟨chain, hchain⟩ := List.exists_mem_of_ne_nil found hne
  exact absurd ((mem_extendAll h chain).mpr ⟨_, hpick, found, hsub, hchain⟩) List.not_mem_nil

/-- A tool that fits goes to the end of what was grown. -/
theorem GrownFrom.cons {current rest remaining chain : List String} {tool : String}
    (fits : planner.hasDependency tool current = true) (perm : (tool :: rest).Perm remaining)
    (h : GrownFrom planner (current ++ [tool]) rest chain) :
    GrownFrom planner current remaining chain := by
  obtain ⟨added, left, hchain, hperm, respects, stuck⟩ := h
  refine ⟨tool :: added, left, by simp [hchain], (hperm.cons tool).trans perm, ?_, stuck⟩
  exact respects_cons.mpr ⟨(hasDependency_iff planner tool current).mp fits, respects⟩

theorem planWithTool_grown {limit : ℕ} {remaining current : List String}
    {chains : List (List String)} (h : planner.planWithTool limit remaining current = .ok chains) :
    ∀ chain ∈ chains, GrownFrom planner current remaining chain := by
  induction limit generalizing remaining current chains with
  | zero => cases h
  | succ limit ih =>
    obtain ⟨limit', found, hlimit, hloop, rfl⟩ := planWithTool_ok planner h
    obtain rfl := Nat.succ.inj hlimit
    split_ifs with hfound
    · subst hfound
      intro chain hchain
      obtain rfl := List.mem_singleton.mp hchain
      exact ⟨[], remaining, by simp, .rfl, respects_nil, stuck_of_nothing planner hloop⟩
    · intro chain hchain
      obtain ⟨⟨tool, rest⟩, hpick, sub, hsub, hmem⟩ := (mem_extendAll hloop chain).mp hchain
      by_cases fits : planner.hasDependency tool current = true
      · rw [extendWith, if_pos fits] at hsub
        exact .cons planner fits (perm_of_mem_picks hpick) (ih hsub chain hmem)
      · rw [extendWith, if_neg fits] at hsub
        obtain rfl := Except.ok.inj hsub
        cases hmem

/-- The stack runs out on a chain that was grown by a tool in every frame. -/
theorem planWithTool_error {limit : ℕ} {remaining current : List String} {e : PyException}
    (h : planner.planWithTool limit remaining current = .error e) : e = .recursionError ∧
      ∃ added rest, (added ++ rest).Perm remaining ∧
        Respects planner.getDependencies current added ∧ added.length = limit := by
  induction limit generalizing remaining current with
  | zero =>
    obtain rfl := Except.error.inj h
    exact ⟨rfl, [], remaining, .rfl, respects_nil, rfl⟩
  | succ limit ih =>
    rw [planWithTool_succ] at h
    split at h
    · obtain rfl := Except.error.inj h
      obtain ⟨⟨tool, left⟩, hpick, hfail⟩ := extendAll_error (by assumption)
      rw [extendWith] at hfail
      split_ifs at hfail with fits
      obtain ⟨he, added, rest, perm, respects, hlength⟩ := ih hfail
      refine ⟨he, tool :: added, rest, (perm.cons tool).trans (perm_of_mem_picks hpick), ?_, ?_⟩
      · exact respects_cons.mpr ⟨(hasDependency_iff planner tool current).mp fits, respects⟩
      · rw [List.length_cons, hlength]
    · cases h

end Planning

section Unique

/-- Two chains have one key just when they have the same tools. -/
theorem key_eq_key {a b : List String} : key a = key b ↔ a.Perm b := by
  constructor
  · intro h
    exact (List.perm_insertionSort _ a).symm.trans
      ((List.Perm.of_eq h).trans (List.perm_insertionSort _ b))
  · intro h
    have perm : (key a).Perm (key b) := (List.perm_insertionSort _ a).trans
      (h.trans (List.perm_insertionSort _ b).symm)
    exact perm.eq_of_pairwise' (List.pairwise_insertionSort _ a) (List.pairwise_insertionSort _ b)

theorem uniqueChains_sublist (seen chains : List (List String)) :
    (uniqueChains seen chains).Sublist chains := by
  induction chains generalizing seen with
  | nil => exact .slnil
  | cons chain rest ih =>
    rw [uniqueChains]
    split_ifs
    · exact (ih seen).cons chain
    · exact (ih _).cons_cons chain

/-- The chains that are kept have new keys, each its own. -/
theorem uniqueChains_keys (seen chains : List (List String)) :
    (∀ chain ∈ uniqueChains seen chains, key chain ∉ seen) ∧
      (uniqueChains seen chains).Pairwise fun a b => key a ≠ key b := by
  induction chains generalizing seen with
  | nil => exact ⟨nofun, .nil⟩
  | cons chain rest ih =>
    rw [uniqueChains]
    split_ifs with known
    · exact ih seen
    · obtain ⟨new, distinct⟩ := ih (key chain :: seen)
      constructor
      · intro c hc
        rcases List.mem_cons.mp hc with rfl | hc
        · exact known
        · exact fun h => new c hc (List.mem_cons_of_mem _ h)
      · refine .cons ?_ distinct
        intro c hc h
        exact new c hc (h ▸ List.mem_cons_self)

/-- Every chain is kept, or a chain with the same tools is. -/
theorem exists_perm_unique {seen chains : List (List String)} {chain : List String}
    (h : chain ∈ chains) (new : key chain ∉ seen) :
    ∃ kept ∈ uniqueChains seen chains, kept.Perm chain := by
  induction chains generalizing seen with
  | nil => cases h
  | cons first rest ih =>
    rw [uniqueChains]
    by_cases same : key chain = key first
    · rw [if_neg (same ▸ new)]
      exact ⟨first, List.mem_cons_self, key_eq_key.mp same.symm⟩
    · rcases List.mem_cons.mp h with rfl | h
      · exact absurd rfl same
      · split_ifs with known
        · exact ih h new
        · have new : key chain ∉ key first :: seen := by
            intro hmem
            rcases List.mem_cons.mp hmem with hmem | hmem
            · exact same hmem
            · exact new hmem
          obtain ⟨kept, hkept, perm⟩ := ih h new
          exact ⟨kept, List.mem_cons_of_mem _ hkept, perm⟩

end Unique

/-! `plan` as a whole. -/

section Plan

variable {planner : MultiHopChainPlanner} {limit : ℕ} {available : List String}

/-- The body of the loop of `plan`. -/
def startWith (planner : MultiHopChainPlanner) (limit : ℕ) (pick : String × List String) :
    Except PyException (List (List String)) :=
  planner.planWithTool limit pick.2 [pick.1]

theorem plan_several (several : available.length ≠ 1) : planner.plan limit available =
    match extendAll (startWith planner limit) (picks available) with
    | .error e => .error e
    | .ok chains => .ok (uniqueChains [] chains) := by
  rw [MultiHopChainPlanner.plan, if_neg several]
  change (extendAll (startWith planner limit) (picks available) >>= _) = _
  cases extendAll (startWith planner limit) (picks available) with
  | error e => rfl
  | ok chains => rfl

theorem plan_ok {result : List (List String)} (several : available.length ≠ 1)
    (h : planner.plan limit available = .ok result) :
    ∃ chains, extendAll (startWith planner limit) (picks available) = .ok chains ∧
      result = uniqueChains [] chains := by
  rw [plan_several several] at h
  split at h
  · cases h
  · exact ⟨_, by assumption, (Except.ok.inj h).symm⟩

/-- Where a chain of the plan comes from: a start tool, and the tools it was grown by. -/
structure Planned (planner : MultiHopChainPlanner) (available chain : List String) : Prop where
  sub : chain.Subperm available
  started : ∃ first added, chain = first :: added ∧
    Respects planner.getDependencies [first] added
  saturated : Saturated planner.getDependencies available chain

theorem planned_of_grown {first : String} {remaining chain : List String}
    (perm : (first :: remaining).Perm available)
    (h : GrownFrom planner [first] remaining chain) : Planned planner available chain := by
  obtain ⟨added, rest, rfl, hperm, respects, stuck⟩ := h
  have all : (([first] ++ added) ++ rest).Perm available := (hperm.cons first).trans perm
  refine ⟨(List.sublist_append_left _ rest).subperm.trans all.subperm, ⟨first, added, rfl,
    respects⟩, saturated_of_rest all ?_⟩
  intro tool htool
  have lacks := stuck tool htool
  rw [← Bool.not_eq_true, hasDependency_iff] at lacks
  simpa only [not_forall, exists_prop] using lacks

theorem planned_of_loop {chains : List (List String)}
    (h : extendAll (startWith planner limit) (picks available) = .ok chains) :
    ∀ chain ∈ chains, Planned planner available chain := by
  intro chain hchain
  obtain ⟨⟨tool, rest⟩, hpick, found, hfound, hmem⟩ := (mem_extendAll h chain).mp hchain
  exact planned_of_grown (perm_of_mem_picks hpick) (planWithTool_grown planner hfound chain hmem)

theorem planned_of_plan {chains : List (List String)}
    (h : planner.plan limit available = .ok chains) :
    ∀ chain ∈ chains, Planned planner available chain := by
  by_cases single : available.length = 1
  · rw [MultiHopChainPlanner.plan, if_pos single] at h
    obtain rfl := Except.ok.inj h
    obtain ⟨tool, rfl⟩ := List.length_eq_one_iff.mp single
    intro chain hchain
    obtain rfl := List.mem_singleton.mp hchain
    have whole : ([tool] ++ []).Perm [tool] := .refl _
    exact ⟨.refl _, ⟨tool, [], rfl, respects_nil⟩, saturated_of_rest whole nofun⟩
  · obtain ⟨found, hfound, rfl⟩ := plan_ok single h
    intro chain hchain
    exact planned_of_loop hfound chain ((uniqueChains_sublist [] found).subset hchain)

theorem plan_error {e : PyException} (h : planner.plan limit available = .error e) :
    e = .recursionError ∧ available.length ≠ 1 ∧ ∃ first added rest,
      (first :: added ++ rest).Perm available ∧
        Respects planner.getDependencies [first] added ∧ added.length = limit := by
  by_cases single : available.length = 1
  · rw [MultiHopChainPlanner.plan, if_pos single] at h
    cases h
  · rw [plan_several single] at h
    split at h
    · obtain rfl := Except.error.inj h
      obtain ⟨⟨first, left⟩, hpick, hfail⟩ := extendAll_error (by assumption)
      obtain ⟨he, added, rest, perm, respects, hlength⟩ := planWithTool_error planner hfail
      exact ⟨he, single, first, added, rest, (perm.cons first).trans (perm_of_mem_picks hpick),
        respects, hlength⟩
    · cases h

theorem validate_of_nodup {chain : List String} (h : chain.Nodup) :
    MultiHopChainPlanner.validateDependencies chain = true := by
  simp [MultiHopChainPlanner.validateDependencies, MultiHopChainPlanner.detectCircular,
    List.dedup_eq_self.mpr h]

theorem plan_distinct {chains : List (List String)}
    (h : planner.plan limit available = .ok chains) :
    chains.Pairwise fun a b => ¬ a.Perm b := by
  by_cases single : available.length = 1
  · rw [MultiHopChainPlanner.plan, if_pos single] at h
    obtain rfl := Except.ok.inj h
    exact List.pairwise_singleton _ _
  · obtain ⟨found, -, rfl⟩ := plan_ok single h
    exact (uniqueChains_keys [] found).2.imp fun hne perm => hne (key_eq_key.mpr perm)

end Plan

/-- `plan` returns, if it has a stack frame for each tool, and in any case either returns or
runs out of the stack. A returned chain takes tools of the list, each after its dependencies
but for the first, until no tool that is left has its dependencies in the chain; no tool
repeats that the list does not repeat, and no other chain has the same tools. -/
theorem plan_chains (planner : MultiHopChainPlanner) (limit : ℕ) (available : List String) :
    ((∃ chains, planner.plan limit available = .ok chains) ∨
      planner.plan limit available = .error .recursionError ∧ limit < available.length) ∧
    ∀ chains, planner.plan limit available = .ok chains →
      (∀ chain ∈ chains, Planned planner available chain ∧ (available.Nodup →
        MultiHopChainPlanner.validateDependencies chain = true)) ∧
      chains.Pairwise fun a b => ¬ a.Perm b := by
  constructor
  · rcases hplan : planner.plan limit available with e | chains
    · right
      obtain ⟨rfl, -, first, added, rest, perm, -, rfl⟩ := plan_error hplan
      have hlength := perm.length_eq
      rw [List.length_append, List.length_cons] at hlength
      exact ⟨rfl, by omega⟩
    · exact Or.inl ⟨chains, rfl⟩
  · intro chains h
    refine ⟨?_, plan_distinct h⟩
    intro chain hchain
    have planned := planned_of_plan h chain hchain
    refine ⟨planned, fun nodup => validate_of_nodup ?_⟩
    obtain ⟨l, perm, sub⟩ := planned.sub
    exact perm.nodup_iff.mp (nodup.sublist sub)

/-- Three chains: neither of the first two tools ever gets its dependency. -/
theorem plan_chains_sample : ∃ chains, MultiHopChainPlanner.new.plan 4
      ["filesystem.write", "search.execute", "bash.execute"] = .ok chains ∧
    chains.length = 3 ∧ chains.Pairwise fun a b => ¬ a.Perm b := by
  have hplan : MultiHopChainPlanner.new.plan 4
      ["filesystem.write", "search.execute", "bash.execute"] =
        .ok [["filesystem.write", "bash.execute"], ["search.execute", "bash.execute"],
          ["bash.execute"]] := rfl
  exact ⟨_, hplan, rfl, ((plan_chains _ _ _).2 _ hplan).2⟩

end ChainPlanner
