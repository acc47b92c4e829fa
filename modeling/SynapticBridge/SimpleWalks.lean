import Mathlib.Data.List.Nodup
import Mathlib.Data.List.Perm.Subperm

/-! Chains that are extended round by round. A chain grows by every successor of its last element
that it does not have yet; one whose last element has no successor stays as it is, and one whose
successors it has all is dropped. The rounds end early when nothing would be left. -/
namespace SimpleWalks

variable {α : Type*} (next : α → List α) (start : α)

section Rounds

variable [DecidableEq α]

def extend (chain : List α) : List (List α) :=
  match chain.getLast? with
  | none => []
  | some last =>
    if next last = [] then [chain]
    else ((next last).filter (· ∉ chain)).map (chain ++ [·])

def round (chains : List (List α)) : List (List α) := chains.flatMap (extend next)

/-- At most so many rounds; the last chains are kept when a round leaves none. -/
def rounds : ℕ → List (List α) → List (List α)
  | 0, chains => chains
  | n + 1, chains => if round next chains = [] then chains else rounds n (round next chains)

end Rounds

/-- A chain from the start along successors that repeats nothing. -/
inductive Walk : List α → Prop where
  | single : Walk [start]
  | step {chain : List α} {last dep : α} : Walk chain → chain.getLast? = some last →
      dep ∈ next last → dep ∉ chain → Walk (chain ++ [dep])

def Ends (chain : List α) : Prop := ∃ last, chain.getLast? = some last ∧ next last = []

/-- What is there after `n` rounds: the walks of `n` steps, and the shorter ones that end. -/
structure Due (n : ℕ) (chain : List α) : Prop where
  walk : Walk next start chain
  length : chain.length = n + 1 ∨ chain.length ≤ n ∧ Ends next chain

variable {next start} {n m : ℕ} {chain : List α} {chains : List (List α)}

section Walks

theorem Walk.ne_nil (h : Walk next start chain) : chain ≠ [] := by
  cases h <;> simp

theorem Walk.nodup (h : Walk next start chain) : chain.Nodup := by
  induction h with
  | single => exact List.nodup_singleton _
  | step _ _ _ hnew ih => exact List.concat_eq_append ▸ ih.concat hnew

theorem Walk.mem (h : Walk next start chain) {x : α} (hx : x ∈ chain) :
    x = start ∨ ∃ a, x ∈ next a := by
  induction h with
  | single => exact .inl (List.mem_singleton.mp hx)
  | step _ _ hdep _ ih =>
    rcases List.mem_append.mp hx with hx | hx
    · exact ih hx
    · exact .inr ⟨_, List.mem_singleton.mp hx ▸ hdep⟩

theorem Walk.length_le (h : Walk next start chain) {known : List α}
    (covers : ∀ a, ∀ x ∈ next a, x ∈ known) : chain.length ≤ known.length + 1 := by
  have hsub : chain ⊆ start :: known := by
    intro x hx
    rcases h.mem hx with rfl | ⟨a, ha⟩
    · exact List.mem_cons_self
    · exact List.mem_cons_of_mem _ (covers a x ha)
  exact (List.subperm_of_subset h.nodup hsub).length_le

theorem Walk.shorten (h : Walk next start chain) (hn : n + 1 ≤ chain.length) :
    ∃ c, Walk next start c ∧ c.length = n + 1 := by
  induction h with
  | single =>
    refine ⟨[start], .single, ?_⟩
    simp only [List.length_singleton] at hn ⊢
    omega
  | step hwalk hlast hdep hnew ih =>
    rw [List.length_append, List.length_singleton] at hn
    rcases Nat.eq_or_lt_of_le hn with heq | hlt
    · exact ⟨_, hwalk.step hlast hdep hnew, by simp; omega⟩
    · exact ih (by omega)

theorem Walk.last (h : Walk next start chain) : ∃ last, chain.getLast? = some last :=
  ⟨_, List.getLast?_eq_some_getLast h.ne_nil⟩

end Walks

section Rounds

variable [DecidableEq α]

theorem extend_of_ends (h : Ends next chain) : extend next chain = [chain] := by
  obtain ⟨last, hlast, hnone⟩ := h
  simp only [extend, hlast, if_pos hnone]

theorem mem_extend {last : α} {c : List α} (hlast : chain.getLast? = some last)
    (hsome : next last ≠ []) :
    c ∈ extend next chain ↔ ∃ dep ∈ next last, dep ∉ chain ∧ chain ++ [dep] = c := by
  simp only [extend, hlast, if_neg hsome, List.mem_map, List.mem_filter, decide_eq_true_eq,
    and_assoc]

theorem mem_round (h : ∀ c, c ∈ chains ↔ Due next start n c) (c : List α) :
    c ∈ round next chains ↔ Due next start (n + 1) c := by
  rw [round, List.mem_flatMap]
  constructor
  · rintro ⟨chain, hchain, hc⟩
    have hdue := (h chain).mp hchain
    obtain ⟨last, hlast⟩ := hdue.walk.last
    by_cases hnone : next last = []
    · have hends : Ends next chain := ⟨last, hlast, hnone⟩
      rw [extend_of_ends hends, List.mem_singleton] at hc
      subst hc
      refine ⟨hdue.walk, .inr ⟨?_, hends⟩⟩
      rcases hdue.length with hlength | ⟨hlength, -⟩
      · omega
      · omega
    · obtain ⟨dep, hdep, hnew, rfl⟩ := (mem_extend hlast hnone).mp hc
      refine ⟨hdue.walk.step hlast hdep hnew, .inl ?_⟩
      rw [List.length_append, List.length_singleton]
      rcases hdue.length with hlength | ⟨-, last', hlast', hnone'⟩
      · omega
      · rw [hlast] at hlast'
        exact absurd (Option.some.inj hlast' ▸ hnone') hnone
  · rintro ⟨hwalk, hlength⟩
    rcases hlength with hlength | ⟨hlength, hends⟩
    · cases hwalk with
      | single =>
        rw [List.length_singleton] at hlength
        omega
      | @step chain last dep hwalk hlast hdep hnew =>
        rw [List.length_append, List.length_singleton] at hlength
        refine ⟨chain, (h chain).mpr ⟨hwalk, .inl (by omega)⟩, ?_⟩
        exact (mem_extend hlast (List.ne_nil_of_mem hdep)).mpr ⟨dep, hdep, hnew, rfl⟩
    · refine ⟨c, (h c).mpr ⟨hwalk, ?_⟩, ?_⟩
      · rcases Nat.eq_or_lt_of_le hlength with heq | hlt
        · exact .inl heq
        · exact .inr ⟨by omega, hends⟩
      · rw [extend_of_ends hends]
        exact List.mem_singleton.mpr rfl

theorem nodup_round (listed : ∀ a, (next a).Nodup) (h : ∀ c ∈ chains, Due next start n c)
    (hnodup : chains.Nodup) : (round next chains).Nodup := by
  rw [round, List.nodup_flatMap]
  constructor
  · intro chain hchain
    obtain ⟨last, hlast⟩ := (h chain hchain).walk.last
    simp only [extend, hlast]
    split_ifs
    · exact List.nodup_singleton _
    · refine ((listed last).filter _).map fun a b hab => ?_
      exact List.singleton_injective (List.append_cancel_left hab)
  · refine hnodup.imp_of_mem fun {a b} ha hb hne => ?_
    change List.Disjoint _ _
    rw [List.disjoint_left]
    intro c hca hcb
    obtain ⟨la, hla⟩ := (h a ha).walk.last
    obtain ⟨lb, hlb⟩ := (h b hb).walk.last
    -- a chain that ends is shorter than what becomes of one that does not
    have longer {a b : List α} {la lb : α} (ha : Due next start n a) (hb : Due next start n b)
        (hla : a.getLast? = some la) (hlb : b.getLast? = some lb) (hnone : next la = [])
        (hsome : next lb ≠ []) (hca : c ∈ extend next a) (hcb : c ∈ extend next b) : False := by
      rw [extend_of_ends ⟨la, hla, hnone⟩, List.mem_singleton] at hca
      obtain ⟨dep, -, -, rfl⟩ := (mem_extend hlb hsome).mp hcb
      have hlength := congrArg List.length hca
      rw [List.length_append, List.length_singleton] at hlength
      rcases hb.length with hb | ⟨-, last, hlast, hends⟩
      · rcases ha.length with ha | ⟨ha, -⟩ <;> omega
      · rw [hlb] at hlast
        exact hsome (Option.some.inj hlast ▸ hends)
    by_cases hna : next la = []
    · by_cases hnb : next lb = []
      · rw [extend_of_ends ⟨la, hla, hna⟩, List.mem_singleton] at hca
        rw [extend_of_ends ⟨lb, hlb, hnb⟩, List.mem_singleton] at hcb
        exact hne (hca.symm.trans hcb)
      · exact longer (h a ha) (h b hb) hla hlb hna hnb hca hcb
    · by_cases hnb : next lb = []
      · exact longer (h b hb) (h a ha) hlb hla hnb hna hcb hca
      · obtain ⟨da, -, -, rfl⟩ := (mem_extend hla hna).mp hca
        obtain ⟨db, -, -, hc⟩ := (mem_extend hlb hnb).mp hcb
        exact hne (List.append_inj_left' hc rfl).symm

theorem due_start (next : α → List α) (start : α) : ∀ c, c ∈ [[start]] ↔ Due next start 0 c := by
  intro c
  rw [List.mem_singleton]
  constructor
  · rintro rfl
    exact ⟨.single, .inl rfl⟩
  · rintro ⟨hwalk, hlength⟩
    cases hwalk with
    | single => rfl
    | step hwalk _ _ _ =>
      have hpos := List.length_pos_iff.mpr hwalk.ne_nil
      rw [List.length_append, List.length_singleton] at hlength
      omega

/-- The rounds stop after the given number, or where no chain would be left. -/
theorem rounds_due (h : ∀ c, c ∈ chains ↔ Due next start n c) (hne : chains ≠ []) (limit : ℕ) :
    ∃ m, n ≤ m ∧ m ≤ n + limit ∧ rounds next limit chains ≠ [] ∧
      (∀ c, c ∈ rounds next limit chains ↔ Due next start m c) ∧
      (m < n + limit → ∀ c, ¬ Due next start (m + 1) c) := by
  induction limit generalizing chains n with
  | zero => exact ⟨n, Nat.le_refl _, Nat.le_refl _, hne, h, fun hlt => absurd hlt (Nat.lt_irrefl _)⟩
  | succ limit ih =>
    rw [rounds]
    by_cases hnone : round next chains = []
    · rw [if_pos hnone]
      refine ⟨n, Nat.le_refl _, by omega, hne, h, fun _ c hdue => ?_⟩
      have hmem := (mem_round h c).mpr hdue
      rw [hnone] at hmem
      cases hmem
    · rw [if_neg hnone]
      obtain ⟨m, hle, hlimit, hleft, hmem, hlast⟩ := ih (mem_round h) hnone
      exact ⟨m, by omega, by omega, hleft, hmem, fun hlt => hlast (by omega)⟩

theorem rounds_nodup (listed : ∀ a, (next a).Nodup) (h : ∀ c, c ∈ chains ↔ Due next start n c)
    (hnodup : chains.Nodup) (limit : ℕ) : (rounds next limit chains).Nodup := by
  induction limit generalizing chains n with
  | zero => exact hnodup
  | succ limit ih =>
    rw [rounds]
    split_ifs
    · exact hnodup
    · exact ih (mem_round h) (nodup_round listed (fun c hc => (h c).mp hc) hnodup)

/-- With more rounds than a walk can have steps, the walks that end are found, and no others. -/
theorem mem_rounds_of_ends {limit : ℕ} (short : ∀ c, Walk next start c → c.length ≤ limit)
    (ends : ∃ c, Walk next start c ∧ Ends next c) (c : List α) :
    c ∈ rounds next limit [[start]] ↔ Walk next start c ∧ Ends next c := by
  obtain ⟨m, -, hlimit, -, hmem, hlast⟩ :=
    rounds_due (due_start next start) (List.cons_ne_nil _ _) limit
  obtain ⟨w, hw, hends⟩ := ends
  have hm : m = limit := by
    by_contra hne
    rcases Nat.lt_or_ge (m + 1) w.length with hlong | hshort
    · obtain ⟨c, hc, hlength⟩ := hw.shorten hlong
      exact hlast (by omega) c ⟨hc, .inl hlength⟩
    · exact hlast (by omega) w ⟨hw, .inr ⟨hshort, hends⟩⟩
  subst hm
  rw [hmem]
  constructor
  · rintro ⟨hwalk, hlength | ⟨-, hends⟩⟩
    · have := short c hwalk
      omega
    · exact ⟨hwalk, hends⟩
  · rintro ⟨hwalk, hends⟩
    exact ⟨hwalk, .inr ⟨short c hwalk, hends⟩⟩

theorem mem_rounds_of_endless {limit : ℕ} (short : ∀ c, Walk next start c → c.length ≤ limit)
    (endless : ∀ c, Walk next start c → ¬ Ends next c) (c : List α) :
    c ∈ rounds next limit [[start]] ↔
      Walk next start c ∧ ∀ w, Walk next start w → w.length ≤ c.length := by
  obtain ⟨m, -, hlimit, hleft, hmem, hlast⟩ :=
    rounds_due (due_start next start) (List.cons_ne_nil _ _) limit
  have hdue (n : ℕ) (c : List α) : Due next start n c ↔ Walk next start c ∧ c.length = n + 1 :=
    ⟨fun h => ⟨h.walk, h.length.resolve_right fun hends => endless c h.walk hends.2⟩,
      fun h => ⟨h.1, .inl h.2⟩⟩
  obtain ⟨some, hsome⟩ := List.exists_mem_of_ne_nil _ hleft
  have hfound := (hdue m some).mp ((hmem some).mp hsome)
  have hlongest : ∀ w, Walk next start w → w.length ≤ m + 1 := by
    intro w hw
    by_contra hlong
    obtain ⟨longer, hlonger, hlength⟩ := hw.shorten (n := m + 1) (by omega)
    have hbound := short longer hlonger
    exact hlast (by omega) longer ⟨hlonger, .inl hlength⟩
  rw [hmem, hdue]
  constructor
  · rintro ⟨hwalk, hlength⟩
    exact ⟨hwalk, fun w hw => hlength ▸ hlongest w hw⟩
  · rintro ⟨hwalk, hmax⟩
    have hle := hmax some hfound.1
    have hge := hlongest c hwalk
    exact ⟨hwalk, by omega⟩

end Rounds

end SimpleWalks
