import Mathlib.Data.List.Basic
import Mathlib.Order.MinMax

/-! The best-so-far scan: keep a candidate, replace it only by a strictly larger score.
It returns the first entry of maximal score, if that beats the starting score. -/
namespace FirstMaximum

variable {α K : Type*} [LinearOrder K]

def improve (best : Option α × K) (e : α × K) : Option α × K :=
  if best.2 < e.2 then (some e.1, e.2) else best

def scan (best : Option α × K) (l : List (α × K)) : Option α × K := l.foldl improve best

/-- `e` is the first entry whose score no other entry exceeds. -/
def FirstMax (l : List (α × K)) (e : α × K) : Prop :=
  ∃ pre post, l = pre ++ e :: post ∧ (∀ q ∈ pre, q.2 < e.2) ∧ ∀ q ∈ post, q.2 ≤ e.2

theorem FirstMax.mem {l : List (α × K)} {e : α × K} (h : FirstMax l e) : e ∈ l := by
  obtain ⟨pre, post, rfl, _, _⟩ := h
  simp

theorem FirstMax.le {l : List (α × K)} {e : α × K} (h : FirstMax l e) {q : α × K}
    (hq : q ∈ l) : q.2 ≤ e.2 := by
  obtain ⟨pre, post, rfl, hpre, hpost⟩ := h
  rcases List.mem_append.mp hq with hq | hq
  · exact le_of_lt (hpre q hq)
  · rcases List.mem_cons.mp hq with rfl | hq
    · exact le_rfl
    · exact hpost q hq

theorem scan_append (best : Option α × K) (l m : List (α × K)) :
    scan best (l ++ m) = scan (scan best l) m := List.foldl_append

/-- The scan never leaves a candidate that no later score exceeds. -/
theorem scan_keep {best : Option α × K} {l : List (α × K)} (h : ∀ q ∈ l, q.2 ≤ best.2) :
    scan best l = best := by
  induction l with
  | nil => rfl
  | cons e es ih =>
    have he : improve best e = best :=
      if_neg (not_lt.mpr (h e List.mem_cons_self))
    rw [scan, List.foldl_cons, he]
    exact ih (fun q hq => h q (List.mem_cons_of_mem _ hq))

theorem scan_firstMax {best : Option α × K} {l : List (α × K)} {e : α × K}
    (h : FirstMax l e) (hb : best.2 < e.2) : scan best l = (some e.1, e.2) := by
  obtain ⟨pre, post, rfl, hpre, hpost⟩ := h
  have before : ∀ b : Option α × K, b.2 < e.2 → (scan b pre).2 < e.2 := by
    induction pre with
    | nil => exact fun b hb => hb
    | cons q qs ih =>
      intro b hb
      rw [scan, List.foldl_cons]
      refine ih (fun x hx => hpre x (List.mem_cons_of_mem _ hx)) (improve b q) ?_
      unfold improve
      split_ifs
      · exact hpre q List.mem_cons_self
      · exact hb
  have here : improve (scan best pre) e = (some e.1, e.2) := if_pos (before best hb)
  rw [scan_append, scan, List.foldl_cons, here]
  exact scan_keep hpost

theorem firstMax_exists {l : List (α × K)} {z : K} (h : ∃ q ∈ l, z < q.2) :
    ∃ e, FirstMax l e ∧ z < e.2 := by
  induction l with
  | nil => simp at h
  | cons q qs ih =>
    by_cases hlater : ∃ x ∈ qs, max z q.2 < x.2
    · obtain ⟨x, hx, hlt⟩ := hlater
      have hzx : z < x.2 := lt_of_le_of_lt (le_max_left _ _) hlt
      obtain ⟨e, ⟨pre, post, rfl, hpre, hpost⟩, he⟩ := ih ⟨x, hx, hzx⟩
      have hqe : q.2 < e.2 := by
        have hle := FirstMax.le ⟨pre, post, rfl, hpre, hpost⟩ hx
        exact lt_of_lt_of_le (lt_of_le_of_lt (le_max_right _ _) hlt) hle
      refine ⟨e, ⟨q :: pre, post, rfl, ?_, hpost⟩, he⟩
      intro x hx
      rcases List.mem_cons.mp hx with rfl | hx
      · exact hqe
      · exact hpre x hx
    · push Not at hlater
      obtain ⟨x, hx, hzx⟩ := h
      have hzq : z < q.2 := by
        rcases List.mem_cons.mp hx with rfl | hx
        · exact hzx
        · exact (lt_max_iff.mp (lt_of_lt_of_le hzx (hlater x hx))).resolve_left (lt_irrefl z)
      refine ⟨q, ⟨[], qs, rfl, by simp, ?_⟩, hzq⟩
      intro x hx
      simpa [max_eq_right (le_of_lt hzq)] using hlater x hx

private theorem firstMax_unique_of_earlier {pre a post post' : List (α × K)} {e f : α × K}
    (he : e :: post = a ++ f :: post') (hpre : ∀ q ∈ pre ++ a, q.2 < f.2) (hle : f.2 ≤ e.2) :
    e = f := by
  cases a with
  | nil => exact (List.cons.inj he).1
  | cons q qs =>
    obtain rfl : e = q := (List.cons.inj he).1
    exact absurd (hpre e (by simp)) (not_lt.mpr hle)

theorem firstMax_unique {l : List (α × K)} {e f : α × K} (he : FirstMax l e)
    (hf : FirstMax l f) : e = f := by
  have hef : f.2 ≤ e.2 := he.le hf.mem
  have hfe : e.2 ≤ f.2 := hf.le he.mem
  obtain ⟨pre, post, rfl, hpre, -⟩ := he
  obtain ⟨pre', post', h, hpre', -⟩ := hf
  rcases List.append_eq_append_iff.mp h with ⟨a, rfl, ha⟩ | ⟨a, rfl, ha⟩
  · exact firstMax_unique_of_earlier ha hpre' hef
  · exact (firstMax_unique_of_earlier ha hpre hfe).symm

/-- What the scan returns: its start, when nothing beats it, or the first maximum. -/
theorem scan_cases (z : K) (l : List (α × K)) :
    (scan (none, z) l = (none, z) ∧ ∀ q ∈ l, q.2 ≤ z) ∨
    ∃ e, scan (none, z) l = (some e.1, e.2) ∧ FirstMax l e ∧ z < e.2 := by
  by_cases h : ∃ q ∈ l, z < q.2
  · obtain ⟨e, he, hz⟩ := firstMax_exists h
    exact Or.inr ⟨e, scan_firstMax he hz, he, hz⟩
  · push Not at h
    exact Or.inl ⟨scan_keep h, h⟩

end FirstMaximum
