import Mathlib.Data.List.Basic
import Mathlib.Logic.Relation

/-! Dependency tables and the levels of their nodes. A node is grounded when the walk down
its dependencies ends, and its level is the length of the longest chain that ends at it. -/
namespace DependencyGraph

variable {κ : Type*} {deps : κ → Option (List κ)}

/-- Everything reachable down the dependencies is in the table and no walk goes on forever. -/
inductive Grounded (deps : κ → Option (List κ)) : κ → Prop where
  | intro {x : κ} {ds : List κ} (entry : deps x = some ds)
      (below : ∀ d ∈ ds, Grounded deps d) : Grounded deps x

/-- A chain of `n` nodes, each depending on the one before, that ends at the given node. -/
inductive Chain (deps : κ → Option (List κ)) : ℕ → κ → Prop where
  | single {x : κ} {ds : List κ} (entry : deps x = some ds) : Chain deps 1 x
  | extend {n : ℕ} {d x : κ} {ds : List κ} (entry : deps x = some ds) (mem : d ∈ ds)
      (chain : Chain deps n d) : Chain deps (n + 1) x

/-- `n` is the length of the longest chain that ends at the node. -/
def Level (deps : κ → Option (List κ)) (x : κ) (n : ℕ) : Prop :=
  Chain deps n x ∧ ∀ m, Chain deps m x → m ≤ n

theorem Chain.entry {n : ℕ} {x : κ} (h : Chain deps n x) : ∃ ds, deps x = some ds := by
  cases h with
  | single entry => exact ⟨_, entry⟩
  | extend entry => exact ⟨_, entry⟩

theorem chain_one {x : κ} : Chain deps 1 x ↔ ∃ ds, deps x = some ds :=
  ⟨Chain.entry, fun ⟨_, h⟩ => .single h⟩

theorem chain_succ {n : ℕ} {x : κ} (hn : 0 < n) : Chain deps (n + 1) x ↔
    ∃ ds, deps x = some ds ∧ ∃ d ∈ ds, Chain deps n d := by
  constructor
  · intro h
    generalize hm : n + 1 = m at h
    cases h with
    | single => omega
    | extend entry mem chain =>
      obtain rfl := Nat.succ.inj hm
      exact ⟨_, entry, _, mem, chain⟩
  · rintro ⟨ds, entry, d, mem, chain⟩
    exact .extend entry mem chain

/-- Leaving out the first node shortens a chain by one. -/
theorem Chain.shorten {n : ℕ} {x : κ} (h : Chain deps (n + 1) x) (hn : 0 < n) :
    Chain deps n x := by
  induction n generalizing x with
  | zero => exact absurd hn (Nat.lt_irrefl 0)
  | succ n ih =>
    obtain ⟨ds, entry, d, mem, chain⟩ := (chain_succ (Nat.succ_pos n)).mp h
    cases n with
    | zero => exact .single entry
    | succ n => exact .extend entry mem (ih chain (Nat.succ_pos n))

theorem Chain.of_le {m n : ℕ} {x : κ} (h : Chain deps n x) (hmn : m ≤ n) (hm : 0 < m) :
    Chain deps m x := by
  induction hmn with
  | refl => exact h
  | step hle ih => exact ih (h.shorten (Nat.lt_of_lt_of_le hm hle))

/-- The level is where the chains stop. -/
theorem level_iff {n : ℕ} {x : κ} :
    Level deps x n ↔ Chain deps n x ∧ ¬ Chain deps (n + 1) x := by
  constructor
  · rintro ⟨hc, hmax⟩
    exact ⟨hc, fun h => absurd (hmax _ h) (by omega)⟩
  · rintro ⟨hc, hnot⟩
    refine ⟨hc, ?_⟩
    intro m hm
    by_contra hlt
    exact hnot (hm.of_le (by omega) (Nat.succ_pos n))

/-- Chains into a grounded node are bounded, so a grounded node has a level. -/
theorem Grounded.bounded {x : κ} (h : Grounded deps x) : ∃ n, ¬ Chain deps (n + 1) x := by
  induction h with
  | @intro x ds entry _ ih =>
    have bound : ∀ l : List κ, (∀ d ∈ l, d ∈ ds) → ∃ n, ∀ d ∈ l, ¬ Chain deps (n + 1) d := by
      intro l hl
      induction l with
      | nil => exact ⟨0, by simp⟩
      | cons d l ihl =>
        obtain ⟨n, hn⟩ := ihl fun d' hd' => hl d' (List.mem_cons_of_mem _ hd')
        obtain ⟨m, hm⟩ := ih d (hl d List.mem_cons_self)
        refine ⟨max m n, ?_⟩
        intro d' hd' hc
        rcases List.mem_cons.mp hd' with rfl | hd'
        · exact hm (hc.of_le (by omega) (Nat.succ_pos m))
        · exact hn d' hd' (hc.of_le (by omega) (Nat.succ_pos n))
    obtain ⟨n, hn⟩ := bound ds fun _ h => h
    refine ⟨n + 1, ?_⟩
    intro hc
    obtain ⟨ds', entry', d, mem, chain⟩ := (chain_succ (Nat.succ_pos n)).mp hc
    obtain rfl := Option.some.inj (entry.symm.trans entry')
    exact hn d mem chain

theorem Grounded.level {x : κ} (h : Grounded deps x) : ∃ n, 0 < n ∧ Level deps x n := by
  obtain ⟨bound, hbound⟩ := h.bounded
  have step : ∀ n, ¬ Chain deps (n + 1) x → ∃ k, 0 < k ∧ Level deps x k := by
    intro n
    induction n with
    | zero =>
      intro hnot
      cases h with
      | intro entry _ => exact absurd (.single entry) hnot
    | succ n ih =>
      intro hnot
      by_cases hc : Chain deps (n + 1) x
      · exact ⟨n + 1, Nat.succ_pos n, level_iff.mpr ⟨hc, hnot⟩⟩
      · exact ih hc
  exact step bound hbound

/-- `x` depends on `d`. -/
def Edge (deps : κ → Option (List κ)) (x d : κ) : Prop := ∃ ds, deps x = some ds ∧ d ∈ ds

theorem Grounded.of_edge {x d : κ} (h : Grounded deps x) (edge : Edge deps x d) :
    Grounded deps d := by
  obtain ⟨ds, hds, mem⟩ := edge
  cases h with
  | intro entry below =>
    obtain rfl := Option.some.inj (entry.symm.trans hds)
    exact below d mem

theorem Grounded.of_reach {x y : κ} (h : Grounded deps x)
    (reach : Relation.ReflTransGen (Edge deps) x y) : Grounded deps y := by
  induction reach with
  | refl => exact h
  | tail _ edge ih => exact ih.of_edge edge

theorem Grounded.acyclic {x : κ} (h : Grounded deps x) :
    ¬ Relation.TransGen (Edge deps) x x := by
  induction h with
  | @intro x ds entry _ ih =>
    intro cycle
    obtain ⟨d, edge, back⟩ := Relation.TransGen.head'_iff.mp cycle
    obtain ⟨ds', entry', mem⟩ := id edge
    obtain rfl := Option.some.inj (entry.symm.trans entry')
    exact ih d mem (Relation.TransGen.tail' back edge)

/-- The walk comes to a node below `path`, with `earlier` done: everything listed before
was grounded, and the nodes on the way were new when the walk came to them. -/
inductive Descent (deps : κ → Option (List κ)) (roots : List κ) : List κ → List κ → κ → Prop where
  | root {before after : List κ} {x : κ} (split : roots = before ++ x :: after)
      (done : ∀ y ∈ before, Grounded deps y) : Descent deps roots before [] x
  | step {earlier path before after : List κ} {x d : κ} (above : Descent deps roots earlier path x)
      (offPath : x ∉ path) (fresh : ∀ y ∈ earlier, ¬ Relation.ReflTransGen (Edge deps) y x)
      (entry : deps x = some (before ++ d :: after)) (done : ∀ y ∈ before, Grounded deps y) :
      Descent deps roots (earlier ++ before) (x :: path) d

namespace Descent

variable {roots earlier path : List κ} {x : κ}

theorem earlier_grounded (h : Descent deps roots earlier path x) :
    ∀ y ∈ earlier, Grounded deps y := by
  induction h with
  | root _ done => exact done
  | step _ _ _ _ done ih =>
    intro y hy
    rcases List.mem_append.mp hy with hy | hy
    · exact ih y hy
    · exact done y hy

/-- Every node of the path leads to the current one. -/
theorem path_reaches (h : Descent deps roots earlier path x) :
    ∀ y ∈ path, Relation.TransGen (Edge deps) y x := by
  induction h with
  | root => exact nofun
  | @step earlier path before after x d _ _ _ entry _ ih =>
    have edge : Edge deps x d := ⟨_, entry, by simp⟩
    intro y hy
    rcases List.mem_cons.mp hy with rfl | hy
    · exact .single edge
    · exact (ih y hy).tail edge

theorem path_nodup (h : Descent deps roots earlier path x) : path.Nodup := by
  induction h with
  | root => exact List.nodup_nil
  | step _ offPath _ _ _ ih => exact List.nodup_cons.mpr ⟨offPath, ih⟩

theorem path_entry (h : Descent deps roots earlier path x) :
    ∀ y ∈ path, ∃ ds, deps y = some ds := by
  induction h with
  | root => exact nofun
  | step _ _ _ entry _ ih =>
    intro y hy
    rcases List.mem_cons.mp hy with rfl | hy
    · exact ⟨_, entry⟩
    · exact ih y hy

end Descent

end DependencyGraph
