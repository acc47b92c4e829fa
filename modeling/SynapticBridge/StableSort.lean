import Mathlib.Data.List.Sort

/-! Sorting by a key from the highest to the lowest, where equal keys keep their order. What comes
out first is the earliest of those with the highest key. -/
namespace StableSort

variable {α κ : Type*} [LinearOrder κ] (key : α → κ)

/-- `sorted(xs, key=key, reverse=True)`. -/
def sortDescending (xs : List α) : List α := xs.mergeSort fun a b => decide (key b ≤ key a)

def tied (v : κ) (xs : List α) : List α := xs.filter fun x => decide (key x = v)

variable {key} {xs ys : List α}

theorem sorted_sortDescending (key : α → κ) (xs : List α) :
    (sortDescending key xs).Pairwise fun a b => key b ≤ key a := by
  have hsorted : (sortDescending key xs).Pairwise fun a b => decide (key b ≤ key a) := by
    apply List.pairwise_mergeSort
    · intro a b c hab hbc
      rw [decide_eq_true_iff] at hab hbc ⊢
      exact hbc.trans hab
    · intro a b
      rw [Bool.or_eq_true, decide_eq_true_iff, decide_eq_true_iff]
      exact le_total _ _
  exact hsorted.imp fun h => of_decide_eq_true h

theorem perm_sortDescending (key : α → κ) (xs : List α) : (sortDescending key xs).Perm xs :=
  List.mergeSort_perm xs _

/-- Equal keys keep their order. -/
theorem tied_sortDescending (key : α → κ) (v : κ) (xs : List α) :
    tied key v (sortDescending key xs) = tied key v xs := by
  have hsub : (tied key v xs).Sublist (sortDescending key xs) := by
    apply List.sublist_mergeSort
    · intro a b c hab hbc
      rw [decide_eq_true_iff] at hab hbc ⊢
      exact hbc.trans hab
    · intro a b
      rw [Bool.or_eq_true, decide_eq_true_iff, decide_eq_true_iff]
      exact le_total _ _
    · apply List.pairwise_of_forall_mem_list
      intro a ha b hb
      have hka : key a = v := by simpa using (List.mem_filter.mp ha).2
      have hkb : key b = v := by simpa using (List.mem_filter.mp hb).2
      simp [hka, hkb]
    · exact List.filter_sublist
  have htied := hsub.filter fun x => decide (key x = v)
  rw [tied, List.filter_filter] at htied
  simp only [Bool.and_self] at htied
  exact (htied.eq_of_length ((perm_sortDescending key xs).filter _).length_eq.symm).symm

theorem head_sortDescending {x : α} {rest : List α} (h : sortDescending key xs = x :: rest) :
    ∃ pre post, xs = pre ++ x :: post ∧ (∀ y ∈ pre, key y < key x) ∧ ∀ y ∈ post, key y ≤ key x := by
  have hsorted := sorted_sortDescending key xs
  rw [h] at hsorted
  have hmax : ∀ y ∈ xs, key y ≤ key x := by
    intro y hy
    have hmem := (perm_sortDescending key xs).mem_iff.mpr hy
    rw [h] at hmem
    rcases List.mem_cons.mp hmem with rfl | hrest
    · exact le_rfl
    · exact List.rel_of_pairwise_cons hsorted hrest
  have htied := tied_sortDescending key (key x) xs
  rw [h, tied, List.filter_cons_of_pos (by simp)] at htied
  obtain ⟨pre, post, rfl, hpre, -, -⟩ := List.filter_eq_cons_iff.mp htied.symm
  refine ⟨pre, post, rfl, fun y hy => ?_, fun y hy => hmax y (by simp [hy])⟩
  exact lt_of_le_of_ne (hmax y (by simp [hy])) (by simpa using hpre y hy)

end StableSort
