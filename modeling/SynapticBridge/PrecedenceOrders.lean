import Mathlib.Data.List.Nodup
import Mathlib.Data.List.Perm.Subperm

/-! Orderings in which everything comes after what it needs. A sequence that cannot be
extended covers every ordering that respects the needs. -/
namespace PrecedenceOrders

variable {α : Type*} {needs : α → List α} {start chain available : List α}

/-- Every element of `chain` has what it needs in `start` or before it. -/
def Respects (needs : α → List α) (start chain : List α) : Prop :=
  ∀ before x after, chain = before ++ x :: after → ∀ d ∈ needs x, d ∈ start ++ before

def Orderable (needs : α → List α) (available : List α) : Prop :=
  ∃ ordering, ordering.Perm available ∧ Respects needs [] ordering

theorem respects_nil : Respects needs start [] := by
  intro before x after h
  simp at h

theorem respects_cons {x : α} : Respects needs start (x :: chain) ↔
    (∀ d ∈ needs x, d ∈ start) ∧ Respects needs (start ++ [x]) chain := by
  constructor
  · intro h
    refine ⟨fun d hd => by simpa using h [] x chain rfl d hd, ?_⟩
    intro before y after hsplit d hd
    have := h (x :: before) y after (by rw [hsplit, List.cons_append]) d hd
    simpa using this
  · rintro ⟨head, tail⟩ before y after hsplit d hd
    cases before with
    | nil =>
      obtain ⟨rfl, rfl⟩ := List.cons_eq_cons.mp hsplit
      simpa using head d hd
    | cons z before =>
      obtain ⟨rfl, rfl⟩ := List.cons_eq_cons.mp hsplit
      have := tail before y after rfl d hd
      simpa using this

theorem Respects.subset_of_closed {S : Set α} (h : Respects needs start chain)
    (hstart : ∀ x ∈ start, x ∈ S) (closed : ∀ x ∈ chain, (∀ d ∈ needs x, d ∈ S) → x ∈ S) :
    ∀ x ∈ chain, x ∈ S := by
  induction chain generalizing start with
  | nil => exact nofun
  | cons y rest ih =>
    obtain ⟨head, tail⟩ := respects_cons.mp h
    have hy : y ∈ S := closed y List.mem_cons_self fun d hd => hstart d (head d hd)
    intro x hx
    rcases List.mem_cons.mp hx with rfl | hx
    · exact hy
    · refine ih tail ?_ (fun z hz => closed z (List.mem_cons_of_mem _ hz)) x hx
      intro z hz
      rcases List.mem_append.mp hz with hz | hz
      · exact hstart z hz
      · exact List.mem_singleton.mp hz ▸ hy

section Saturation

variable [DecidableEq α]

/-- Nothing that remains of `available` has everything it needs in `chain`. -/
def Saturated (needs : α → List α) (available chain : List α) : Prop :=
  ∀ x ∈ available.diff chain, ∃ d ∈ needs x, d ∉ chain

theorem append_diff_left (chain rest : List α) : (chain ++ rest).diff chain = rest := by
  induction chain with
  | nil => rw [List.nil_append, List.diff_nil]
  | cons x chain ih => rw [List.cons_append, List.diff_cons, List.erase_cons_head, ih]

theorem saturated_of_rest {rest : List α} (perm : (chain ++ rest).Perm available)
    (h : ∀ x ∈ rest, ∃ d ∈ needs x, d ∉ chain) : Saturated needs available chain := by
  intro x hx
  have remains := perm.diff_right chain
  rw [append_diff_left] at remains
  exact h x (remains.mem_iff.mpr hx)

theorem Saturated.mem (h : Saturated needs available chain) {x : α} (hx : x ∈ available)
    (hneeds : ∀ d ∈ needs x, d ∈ chain) : x ∈ chain := by
  by_contra hnot
  obtain ⟨d, hd, hmissing⟩ := h x (List.mem_diff_of_mem hx hnot)
  exact hmissing (hneeds d hd)

theorem Saturated.subset {other : List α} (h : Saturated needs available chain)
    (respects : Respects needs start other) (hstart : ∀ x ∈ start, x ∈ chain)
    (hother : ∀ x ∈ other, x ∈ available) : ∀ x ∈ other, x ∈ chain :=
  respects.subset_of_closed (S := {x | x ∈ chain}) hstart fun x hx => h.mem (hother x hx)

/-- Where an ordering of everything exists, a saturated chain has everything. -/
theorem Saturated.perm (h : Saturated needs available chain) (nodup : available.Nodup)
    (sub : chain.Subperm available) (orderable : Orderable needs available) :
    chain.Perm available := by
  obtain ⟨ordering, perm, respects⟩ := orderable
  refine sub.antisymm (List.subperm_of_subset nodup ?_)
  intro x hx
  have covers := h.subset respects nofun fun y hy => perm.mem_iff.mp hy
  exact covers x (perm.mem_iff.mpr hx)

end Saturation

end PrecedenceOrders
