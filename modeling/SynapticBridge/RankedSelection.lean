import Mathlib.Data.List.Sort

/-! Keeping the first rows of a table ranked by a key, then filtering them. Rows with equal
keys may stand in any order, so what is kept depends on the ranking. -/
namespace RankedSelection

variable {α β κ : Type*} [LinearOrder κ] {key : α → κ} {rows table : List α}

structure Ranked (key : α → κ) (rows table : List α) : Prop where
  perm : rows.Perm table
  descending : rows.Pairwise fun a b => key b ≤ key a

/-- The number of rows whose key is no smaller, the row itself included. -/
def standing (key : α → κ) (table : List α) (x : α) : ℕ :=
  table.countP fun y => decide (key x ≤ key y)

def select (n : ℕ) (p : α → Bool) (read : α → β) (rows : List α) : List β :=
  ((rows.take n).filter p).map read

/-- A selection is complete when no row below the cut passes the filter. -/
theorem select_perm_iff (perm : rows.Perm table) (n : ℕ) (p : α → Bool) (read : α → β) :
    (select n p read rows).Perm ((table.filter p).map read) ↔ ∀ x ∈ rows.drop n, p x = false := by
  have hsplit : ((table.filter p).map read).Perm
      (select n p read rows ++ ((rows.drop n).filter p).map read) := by
    rw [select, ← List.map_append, ← List.filter_append, List.take_append_drop]
    exact (perm.symm.filter p).map read
  have hempty : (∀ x ∈ rows.drop n, p x = false) ↔ ((rows.drop n).filter p).map read = [] := by
    rw [List.map_eq_nil_iff, List.filter_eq_nil_iff]
    simp only [Bool.not_eq_true]
  rw [hempty]
  constructor
  · intro hperm
    have hlength := (hperm.trans hsplit).length_eq
    rw [List.length_append] at hlength
    exact List.length_eq_zero_iff.mp (by omega)
  · intro hnil
    rw [hnil, List.append_nil] at hsplit
    exact hsplit.symm

theorem Ranked.drop_le_take (h : Ranked key rows table) {n : ℕ} {x y : α}
    (hx : x ∈ rows.drop n) (hy : y ∈ rows.take n) : key x ≤ key y := by
  have hdescending := h.descending
  rw [← List.take_append_drop n rows, List.pairwise_append] at hdescending
  exact hdescending.2.2 y hy x hx

theorem Ranked.countP_eq (h : Ranked key rows table) (n : ℕ) (p : α → Bool) :
    table.countP p = (rows.take n).countP p + (rows.drop n).countP p := by
  rw [← h.perm.countP_eq, ← List.countP_append, List.take_append_drop]

theorem Ranked.standing_of_mem_drop (h : Ranked key rows table) {n : ℕ} {x : α}
    (hx : x ∈ rows.drop n) : n < standing key table x := by
  have hbefore : (rows.take n).countP (fun y => decide (key x ≤ key y)) = n := by
    rw [List.countP_eq_length.mpr fun y hy => decide_eq_true (h.drop_le_take hx hy),
      List.length_take]
    have := List.length_pos_of_mem hx
    rw [List.length_drop] at this
    omega
  have hbehind : 0 < (rows.drop n).countP (fun y => decide (key x ≤ key y)) :=
    List.countP_pos_iff.mpr ⟨x, hx, decide_eq_true le_rfl⟩
  rw [standing, h.countP_eq n, hbefore]
  omega

theorem Ranked.notMem_take (h : Ranked key rows table) {n : ℕ} {x : α}
    (above : n ≤ table.countP fun y => decide (key x < key y)) : x ∉ rows.take n := by
  intro hx
  have hbehind : (rows.drop n).countP (fun y => decide (key x < key y)) = 0 :=
    List.countP_eq_zero.mpr fun y hy => by simpa using h.drop_le_take hy hx
  rw [h.countP_eq n, hbehind] at above
  have hfirst : (rows.take n).countP (fun y => decide (key x < key y)) = (rows.take n).length :=
    le_antisymm List.countP_le_length ((List.length_take_le _ _).trans above)
  simpa using List.countP_eq_length.mp hfirst x hx

theorem exists_ranked (key : α → κ) (table : List α) : ∃ rows, Ranked key rows table := by
  have descending : (table.insertionSort (Order.Preimage key (· ≥ ·))).Pairwise
      (Order.Preimage key (· ≥ ·)) := List.pairwise_insertionSort _ _
  exact ⟨_, List.perm_insertionSort _ _, descending⟩

theorem exists_ranked_last (key : α → κ) {x : α} (hx : x ∈ table) :
    ∃ front back, Ranked key (front ++ x :: back) table ∧
      front.length + 1 = standing key table x := by
  obtain ⟨pre, post, rfl⟩ := List.append_of_mem hx
  let before := (pre ++ post).filter fun y => decide (key x ≤ key y)
  let behind := (pre ++ post).filter fun y => !decide (key x ≤ key y)
  obtain ⟨front, hfront⟩ := exists_ranked key before
  obtain ⟨back, hback⟩ := exists_ranked key behind
  have above : ∀ y ∈ front, key x ≤ key y := by
    intro y hy
    exact of_decide_eq_true (List.mem_filter.mp (hfront.perm.mem_iff.mp hy)).2
  have below : ∀ y ∈ back, key y ≤ key x := by
    intro y hy
    have := (List.mem_filter.mp (hback.perm.mem_iff.mp hy)).2
    simp only [Bool.not_eq_true', decide_eq_false_iff_not, not_le] at this
    exact this.le
  refine ⟨front, back, ⟨?_, ?_⟩, ?_⟩
  · calc List.Perm (front ++ x :: back) (x :: (front ++ back)) := List.perm_middle
      List.Perm _ (x :: (before ++ behind)) := (hfront.perm.append hback.perm).cons x
      List.Perm _ (x :: (pre ++ post)) := (List.filter_append_perm _ _).cons x
      List.Perm _ (pre ++ x :: post) := List.perm_middle.symm
  · refine List.pairwise_append.mpr ⟨hfront.descending,
      List.pairwise_cons.mpr ⟨below, hback.descending⟩, ?_⟩
    intro y hy z hz
    rcases List.mem_cons.mp hz with rfl | hz
    · exact above y hy
    · exact (below z hz).trans (above y hy)
  · rw [hfront.perm.length_eq, ← List.countP_eq_length_filter, standing]
    simp only [List.countP_append, List.countP_cons, le_refl, decide_true, if_true]
    omega

/-- Every ranking selects all rows that pass exactly when each of them stands within the
first `n`, ties counted against it. -/
theorem select_complete_iff (key : α → κ) (table : List α) (n : ℕ) (p : α → Bool)
    (read : α → β) :
    (∀ rows, Ranked key rows table →
        (select n p read rows).Perm ((table.filter p).map read)) ↔
      ∀ x ∈ table, p x = true → standing key table x ≤ n := by
  constructor
  · intro complete x hx passes
    by_contra hlow
    obtain ⟨front, back, ranked, hfront⟩ := exists_ranked_last key hx
    have dropped : x ∈ (front ++ x :: back).drop n := by
      rw [List.drop_append_of_le_length (by omega)]
      exact List.mem_append_right _ List.mem_cons_self
    have := (select_perm_iff ranked.perm n p read).mp (complete _ ranked) x dropped
    simp [passes] at this
  · intro within rows ranked
    refine (select_perm_iff ranked.perm n p read).mpr fun x hx => ?_
    have hlow := ranked.standing_of_mem_drop hx
    have hmem := ranked.perm.mem_iff.mp (List.mem_of_mem_drop hx)
    by_contra passes
    exact absurd (within x hmem (Bool.of_not_eq_false passes)) (by omega)

end RankedSelection
