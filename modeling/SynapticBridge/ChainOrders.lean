import SynapticBridge.ChainPlanner

/-! When the plans of `MultiHopChainPlanner` respect the registered dependencies. The start
tool of a chain is not checked, so everything hangs on the first tool of the list: among the
chains with the same tools its chain is the one that is kept. -/
namespace ChainOrders

open Domain PrecedenceOrders ChainPlanner

variable {planner : MultiHopChainPlanner} {limit : ℕ} {available : List String}

def Sound (planner : MultiHopChainPlanner)
    (outcome : Except PyException (List (List String))) : Prop :=
  ∀ chains, outcome = .ok chains → ∀ chain ∈ chains, Respects planner.getDependencies [] chain

/-- If some ordering of all tools respects the dependencies, such an ordering is returned. -/
def Complete (planner : MultiHopChainPlanner) (available : List String)
    (outcome : Except PyException (List (List String))) : Prop :=
  Orderable planner.getDependencies available → ∃ chains, outcome = .ok chains ∧
    ∃ chain ∈ chains, chain.Perm available ∧ Respects planner.getDependencies [] chain

/-- Several tools, and from one of them a chain with more tools than there are stack frames. -/
def Overruns (planner : MultiHopChainPlanner) (limit : ℕ) (available : List String) : Prop :=
  available.length ≠ 1 ∧ ∃ first added rest, (first :: added ++ rest).Perm available ∧
    Respects planner.getDependencies [first] added ∧ limit ≤ added.length

section Stack

theorem extendAll_fails {β γ : Type} {f : β → Except PyException (List γ)} {xs : List β} {x : β}
    {e : PyException} (hx : x ∈ xs) (h : f x = .error e) : ∃ e', extendAll f xs = .error e' := by
  rcases hloop : extendAll f xs with e' | out
  · exact ⟨e', rfl⟩
  · obtain ⟨found, hfound⟩ := extendAll_each hloop x hx
    rw [h] at hfound
    cases hfound

theorem planWithTool_overruns {added rest remaining current : List String}
    (perm : (added ++ rest).Perm remaining)
    (respects : Respects planner.getDependencies current added) (h : limit ≤ added.length) :
    ∃ e, planner.planWithTool limit remaining current = .error e := by
  induction limit generalizing added remaining current with
  | zero => exact ⟨_, rfl⟩
  | succ limit ih =>
    cases added with
    | nil => simp at h
    | cons tool added =>
      obtain ⟨fits, later⟩ := respects_cons.mp respects
      obtain ⟨left, hpick⟩ := mem_picks_of_mem (perm.subset List.mem_cons_self)
      have hleft : (added ++ rest).Perm left :=
        (perm.trans (perm_of_mem_picks hpick).symm).cons_inv
      obtain ⟨e, hfail⟩ := ih hleft later (Nat.le_of_succ_le_succ h)
      have hbody : extendWith planner limit current (tool, left) = .error e := by
        rw [extendWith, if_pos ((hasDependency_iff planner tool current).mpr fits)]
        exact hfail
      obtain ⟨e', hloop⟩ := extendAll_fails hpick hbody
      rw [planWithTool_succ, hloop]
      exact ⟨e', rfl⟩

theorem plan_error_iff : (∃ e, planner.plan limit available = .error e) ↔
    Overruns planner limit available := by
  constructor
  · rintro ⟨e, h⟩
    obtain ⟨-, several, first, added, rest, perm, respects, hlength⟩ := plan_error h
    exact ⟨several, first, added, rest, perm, respects, hlength.ge⟩
  · rintro ⟨several, first, added, rest, perm, respects, h⟩
    obtain ⟨left, hpick⟩ := mem_picks_of_mem (perm.subset List.mem_cons_self)
    have hleft : (added ++ rest).Perm left :=
      (perm.trans (perm_of_mem_picks hpick).symm).cons_inv
    obtain ⟨e, hfail⟩ := planWithTool_overruns hleft respects h
    obtain ⟨e', hloop⟩ := extendAll_fails (f := startWith planner limit) hpick hfail
    rw [plan_several several, hloop]
    exact ⟨e', rfl⟩

theorem plan_returns (h : ¬ Overruns planner limit available) :
    ∃ chains, planner.plan limit available = .ok chains := by
  rcases hplan : planner.plan limit available with e | chains
  · exact absurd (plan_error_iff.mp ⟨e, hplan⟩) h
  · exact ⟨chains, rfl⟩

theorem overruns_iff_of_orderable (orderable : Orderable planner.getDependencies available) :
    Overruns planner limit available ↔
      available ≠ [] ∧ available.length ≠ 1 ∧ limit < available.length := by
  constructor
  · rintro ⟨several, first, added, rest, perm, -, h⟩
    have hlength := perm.length_eq
    rw [List.length_append, List.length_cons] at hlength
    refine ⟨?_, several, by omega⟩
    rintro rfl
    simp at hlength
  · rintro ⟨hne, several, h⟩
    obtain ⟨ordering, perm, respects⟩ := orderable
    cases ordering with
    | nil => exact absurd perm.nil_eq.symm hne
    | cons first added =>
      have hlength := perm.length_eq
      rw [List.length_cons] at hlength
      exact ⟨several, first, added, [], by simpa using perm, (respects_cons.mp respects).2,
        by omega⟩

end Stack

section Starts

variable {result : List (List String)}

theorem first_chain {first : String} {rest : List String}
    (h : planner.plan limit (first :: rest) = .ok result) : ∃ added, first :: added ∈ result := by
  by_cases single : (first :: rest).length = 1
  · rw [MultiHopChainPlanner.plan, if_pos single] at h
    obtain rfl := Except.ok.inj h
    exact ⟨rest, List.mem_singleton_self _⟩
  · obtain ⟨chains, hloop, rfl⟩ := plan_ok single h
    obtain ⟨others, hpicks⟩ := picks_cons first rest
    rw [hpicks] at hloop
    obtain ⟨found, later, hfound, -, rfl⟩ := extendAll_cons hloop
    cases found with
    | nil => exact absurd rfl (planWithTool_ne_nil planner hfound)
    | cons chain found =>
      obtain ⟨added, -, rfl, -⟩ := planWithTool_grown planner hfound chain List.mem_cons_self
      refine ⟨added, ?_⟩
      rw [List.cons_append, uniqueChains, if_neg List.not_mem_nil]
      exact List.mem_cons_self

theorem covered (h : planner.plan limit available = .ok result) {tool : String}
    (htool : tool ∈ available) : ∃ chain ∈ result, tool ∈ chain := by
  by_cases single : available.length = 1
  · rw [MultiHopChainPlanner.plan, if_pos single] at h
    obtain rfl := Except.ok.inj h
    exact ⟨available, List.mem_singleton_self _, htool⟩
  · obtain ⟨chains, hloop, rfl⟩ := plan_ok single h
    obtain ⟨rest, hpick⟩ := mem_picks_of_mem htool
    obtain ⟨found, hfound⟩ := extendAll_each hloop _ hpick
    obtain ⟨chain, hchain⟩ := List.exists_mem_of_ne_nil found (planWithTool_ne_nil planner hfound)
    obtain ⟨added, -, rfl, -⟩ := planWithTool_grown planner hfound chain hchain
    have mem : [tool] ++ added ∈ chains := (mem_extendAll hloop _).mpr ⟨_, hpick, _, hfound, hchain⟩
    have new : key ([tool] ++ added) ∉ [] := List.not_mem_nil
    obtain ⟨kept, hkept, perm⟩ := exists_perm_unique mem new
    exact ⟨kept, hkept, perm.mem_iff.mpr (by simp)⟩

theorem orderable_of_sound {first : String} {rest : List String}
    (distinct : (first :: rest).Nodup) (h : planner.plan limit (first :: rest) = .ok result)
    (sound : Sound planner (planner.plan limit (first :: rest))) :
    planner.getDependencies first = [] ∧
      Orderable planner.getDependencies (first :: rest) := by
  obtain ⟨added, hfirst⟩ := first_chain h
  have respects := sound result h _ hfirst
  have planned := planned_of_plan h _ hfirst
  refine ⟨List.eq_nil_iff_forall_not_mem.mpr fun d hd => ?_, first :: added, ?_, respects⟩
  · exact absurd ((respects_cons.mp respects).1 d hd) List.not_mem_nil
  · refine planned.sub.antisymm (List.subperm_of_subset distinct ?_)
    intro tool htool
    -- The chain that has the tool is sound, so the saturated chain of the first tool has it too.
    obtain ⟨chain, hchain, hmem⟩ := covered h htool
    have sub := (planned_of_plan h chain hchain).sub.subset
    exact planned.saturated.subset (sound result h chain hchain) nofun sub tool hmem

theorem plan_of_orderable {first : String} {rest : List String}
    (distinct : (first :: rest).Nodup) (free : planner.getDependencies first = [])
    (orderable : Orderable planner.getDependencies (first :: rest))
    (h : planner.plan limit (first :: rest) = .ok result) :
    ∃ chain, result = [chain] ∧ chain.Perm (first :: rest) ∧
      Respects planner.getDependencies [] chain := by
  obtain ⟨added, hfirst⟩ := first_chain h
  have whole : ∀ chain ∈ result, chain.Perm (first :: rest) := by
    intro chain hchain
    have planned := planned_of_plan h chain hchain
    exact planned.saturated.perm distinct planned.sub orderable
  obtain ⟨_, _, heq, respects⟩ := (planned_of_plan h _ hfirst).started
  obtain ⟨rfl, rfl⟩ := List.cons_eq_cons.mp heq
  refine ⟨first :: added, ?_, whole _ hfirst, respects_cons.mpr ⟨by simp [free], respects⟩⟩
  cases result with
  | nil => cases hfirst
  | cons chain others =>
    cases others with
    | nil => rw [List.mem_singleton.mp hfirst]
    | cons other others =>
      have apart := (List.pairwise_cons.mp (plan_distinct h)).1 other List.mem_cons_self
      exact absurd ((whole chain (by simp)).trans (whole other (by simp)).symm) apart

end Starts

/-- `plan` is sound and complete for distinct tools just when the first tool needs nothing,
some ordering of all tools respects the dependencies and the stack has a frame for each tool;
or when the stack runs out on tools that have no such ordering. -/
theorem sound_complete_iff (planner : MultiHopChainPlanner) (limit : ℕ) (available : List String)
    (distinct : available.Nodup) :
    (Sound planner (planner.plan limit available) ∧
        Complete planner available (planner.plan limit available)) ↔
      (∃ first rest, available = first :: rest ∧ planner.getDependencies first = [] ∧
        Orderable planner.getDependencies available ∧
          (rest = [] ∨ available.length ≤ limit)) ∨
      (¬ Orderable planner.getDependencies available ∧ Overruns planner limit available) := by
  constructor
  · rintro ⟨sound, complete⟩
    by_cases overruns : Overruns planner limit available
    · refine Or.inr ⟨fun orderable => ?_, overruns⟩
      obtain ⟨chains, hchains, -⟩ := complete orderable
      obtain ⟨e, he⟩ := plan_error_iff.mpr overruns
      rw [he] at hchains
      cases hchains
    · left
      obtain ⟨result, h⟩ := plan_returns overruns
      cases available with
      | nil =>
        obtain ⟨chains, hchains, chain, hchain, -⟩ := complete ⟨[], .nil, respects_nil⟩
        obtain rfl := Except.ok.inj (hchains.symm.trans rfl)
        cases hchain
      | cons first rest =>
        obtain ⟨free, orderable⟩ := orderable_of_sound distinct h sound
        refine ⟨first, rest, rfl, free, orderable, ?_⟩
        rw [overruns_iff_of_orderable orderable] at overruns
        by_contra hnot
        obtain ⟨hrest, hlong⟩ := not_or.mp hnot
        have := List.length_pos_iff.mpr hrest
        exact overruns ⟨List.cons_ne_nil _ _, by simp; omega, by omega⟩
  · rintro (⟨first, rest, rfl, free, orderable, room⟩ | ⟨hnot, overruns⟩)
    · have returns : ¬ Overruns planner limit (first :: rest) := by
        rw [overruns_iff_of_orderable orderable]
        rintro ⟨-, several, long⟩
        rcases room with rfl | room
        · exact several rfl
        · omega
      obtain ⟨result, h⟩ := plan_returns returns
      obtain ⟨chain, rfl, perm, respects⟩ := plan_of_orderable distinct free orderable h
      refine ⟨?_, fun _ => ⟨_, h, chain, List.mem_singleton_self _, perm, respects⟩⟩
      intro chains hchains c hc
      obtain rfl := Except.ok.inj (h.symm.trans hchains)
      obtain rfl := List.mem_singleton.mp hc
      exact respects
    · obtain ⟨e, he⟩ := plan_error_iff.mpr overruns
      refine ⟨?_, fun orderable => absurd orderable hnot⟩
      intro chains hchains
      rw [he] at hchains
      cases hchains

theorem sound_complete_iff_sample :
    Sound .new (MultiHopChainPlanner.new.plan 2 ["filesystem.read", "filesystem.write"]) ∧
      Complete .new ["filesystem.read", "filesystem.write"]
        (MultiHopChainPlanner.new.plan 2 ["filesystem.read", "filesystem.write"]) := by
  have respects : Respects MultiHopChainPlanner.new.getDependencies []
      ["filesystem.read", "filesystem.write"] := by
    refine respects_cons.mpr ⟨?_, respects_cons.mpr ⟨?_, respects_nil⟩⟩
    · decide +kernel
    · decide +kernel
  exact (sound_complete_iff _ 2 _ (by decide)).mpr
    (Or.inl ⟨_, _, rfl, rfl, ⟨_, .rfl, respects⟩, Or.inr le_rfl⟩)

theorem writes_before_reading :
    MultiHopChainPlanner.new.plan 1000 ["filesystem.write", "filesystem.read"] =
        .ok [["filesystem.write", "filesystem.read"]] ∧
      ¬ (Sound .new (MultiHopChainPlanner.new.plan 1000 ["filesystem.write", "filesystem.read"]) ∧
        Complete .new ["filesystem.write", "filesystem.read"]
          (MultiHopChainPlanner.new.plan 1000 ["filesystem.write", "filesystem.read"])) := by
  have hplan : MultiHopChainPlanner.new.plan 1000 ["filesystem.write", "filesystem.read"] =
      .ok [["filesystem.write", "filesystem.read"]] := rfl
  refine ⟨hplan, ?_⟩
  rintro ⟨sound, -⟩
  have respects := sound _ hplan _ (List.mem_singleton_self _)
  have needs := (respects_cons.mp respects).1 "filesystem.read" (List.mem_singleton_self _)
  exact List.not_mem_nil needs

end ChainOrders
