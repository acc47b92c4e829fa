import Mathlib.Algebra.BigOperators.Group.Finset.Basic
import Mathlib.Algebra.GroupWithZero.Nat
import Mathlib.Data.List.Basic

/-! Writing the values of a list at computed indices, one after the other. A later write at the
same index wins, so an entry shows one of the elements that were sent to it. Beside it the
number of elements that are sent to an entry. -/
namespace Scatter

variable {α β : Type*}

def scatter (index : α → ℕ) (value : α → β) (xs : List α) (table : List β) : List β :=
  xs.foldl (fun table x => table.set (index x) (value x)) table

variable {index : α → ℕ} {value : α → β} {xs : List α} {table : List β} {i : ℕ}

@[simp] theorem length_scatter : (scatter index value xs table).length = table.length := by
  induction xs generalizing table with
  | nil => rfl
  | cons x xs ih => exact ih.trans List.length_set

theorem scatter_cons (x : α) : scatter index value (x :: xs) table =
    scatter index value xs (table.set (index x) (value x)) := rfl

/-- An entry to which nothing is sent stays as it was. -/
theorem scatter_miss (h : ∀ x ∈ xs, index x ≠ i) :
    (scatter index value xs table)[i]? = table[i]? := by
  induction xs generalizing table with
  | nil => rfl
  | cons x xs ih =>
    obtain ⟨hx, hxs⟩ := List.forall_mem_cons.mp h
    rw [scatter_cons, ih hxs, List.getElem?_set_ne hx]

/-- An entry to which something is sent shows the value of one of the elements sent there. -/
theorem scatter_hit (hi : i < table.length) (h : ∃ x ∈ xs, index x = i) :
    ∃ x ∈ xs, index x = i ∧ (scatter index value xs table)[i]? = some (value x) := by
  induction xs generalizing table with
  | nil => simp at h
  | cons x xs ih =>
    rw [scatter_cons]
    by_cases hlater : ∃ y ∈ xs, index y = i
    · have hset : i < (table.set (index x) (value x)).length := by rwa [List.length_set]
      obtain ⟨y, hy, hyi, hvalue⟩ := ih hset hlater
      exact ⟨y, List.mem_cons_of_mem _ hy, hyi, hvalue⟩
    · push Not at hlater
      have hxi : index x = i := by
        obtain ⟨y, hy, hyi⟩ := h
        rcases List.mem_cons.mp hy with rfl | hy
        · exact hyi
        · exact absurd hyi (hlater y hy)
      refine ⟨x, List.mem_cons_self, hxi, ?_⟩
      rw [scatter_miss hlater, hxi, List.getElem?_set_self hi]

section Hits

/-- How many elements are sent to entry `i`. -/
def hits (index : α → ℕ) (xs : List α) (i : ℕ) : ℕ := xs.countP fun x => index x = i

theorem hits_perm {ys : List α} (h : xs.Perm ys) (i : ℕ) : hits index xs i = hits index ys i :=
  h.countP_eq _

theorem hits_eq_zero : hits index xs i = 0 ↔ ∀ x ∈ xs, index x ≠ i := by
  simp [hits]

/-- Every element is sent somewhere. -/
theorem sum_hits {n : ℕ} (h : ∀ x ∈ xs, index x < n) :
    ((List.range n).map (hits index xs)).sum = xs.length := by
  have hcount : hits index xs = fun i => Multiset.count i (xs.map index : Multiset ℕ) := by
    funext i
    rw [Multiset.coe_count, List.count_eq_countP, List.countP_map, hits]
    rfl
  have hbound : ∀ i ∈ (xs.map index : Multiset ℕ), i ∈ Finset.range n := by
    intro i hi
    obtain ⟨x, hx, rfl⟩ := List.mem_map.mp hi
    exact Finset.mem_range.mpr (h x hx)
  have hcard := Multiset.sum_count_eq_card hbound
  rw [Multiset.coe_card, List.length_map] at hcard
  rw [hcount]
  exact hcard

section Counts

variable [BEq α] [LawfulBEq α]

/-- An element that shares its entry with no other one is all that is sent there. -/
theorem hits_of_alone {x : α} (h : ∀ y ∈ xs, index y = index x → y = x) :
    hits index xs (index x) = xs.count x := by
  rw [hits, List.count_eq_countP]
  apply List.countP_congr
  intro y hy
  simp only [decide_eq_true_eq, beq_iff_eq]
  exact ⟨h y hy, congrArg index⟩

/-- An element that shares its entry with another one is less than what is sent there. -/
theorem count_lt_hits {x y : α} (hy : y ∈ xs) (hne : y ≠ x) (hxy : index y = index x) :
    xs.count x < hits index xs (index x) := by
  have hmem : y ∈ xs.filter fun z => index z = index x :=
    List.mem_filter.mpr ⟨hy, decide_eq_true hxy⟩
  have hcount : xs.count x = (xs.filter fun z => index z = index x).count x := by
    rw [List.count_filter]
    exact decide_eq_true rfl
  rw [hcount, hits, List.countP_eq_length_filter]
  apply lt_of_le_of_ne List.count_le_length
  intro hall
  exact hne (List.count_eq_length.mp hall y hmem).symm

end Counts

end Hits

end Scatter
