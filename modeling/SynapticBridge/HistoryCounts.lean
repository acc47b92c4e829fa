import Mathlib.Data.List.Basic

/-! Counting in a history, the latest event first: how many events of one kind there were
since the last event of another kind. -/
namespace HistoryCounts

variable {ε : Type*} {counts resets : ε → Prop} [DecidablePred counts] [DecidablePred resets]

/-- A resetting event starts over at zero and is not counted itself. -/
def countSince (counts resets : ε → Prop) [DecidablePred counts] [DecidablePred resets] :
    List ε → ℕ
  | [] => 0
  | e :: earlier =>
    if resets e then 0
    else if counts e then countSince counts resets earlier + 1
    else countSince counts resets earlier

variable {e : ε} {earlier : List ε}

@[simp] theorem countSince_nil : countSince counts resets [] = 0 := rfl

theorem countSince_of_resets (h : resets e) : countSince counts resets (e :: earlier) = 0 := by
  rw [countSince, if_pos h]

theorem countSince_of_counts (h : ¬ resets e) (hc : counts e) :
    countSince counts resets (e :: earlier) = countSince counts resets earlier + 1 := by
  rw [countSince, if_neg h, if_pos hc]

theorem countSince_of_neither (h : ¬ resets e) (hc : ¬ counts e) :
    countSince counts resets (e :: earlier) = countSince counts resets earlier := by
  rw [countSince, if_neg h, if_neg hc]

/-- A kind of event splits a count in two. -/
theorem countSince_split (p : ε → Prop) [DecidablePred p] (history : List ε) :
    countSince (fun e => counts e ∧ p e) resets history +
      countSince (fun e => counts e ∧ ¬ p e) resets history =
        countSince counts resets history := by
  induction history with
  | nil => rfl
  | cons e earlier ih =>
    simp only [countSince]
    by_cases hr : resets e
    · simp only [if_pos hr]
    · by_cases hc : counts e
      · by_cases hp : p e
        · simp only [if_neg hr, hc, hp, true_and, not_true, if_true, if_false]
          omega
        · simp only [if_neg hr, hc, hp, true_and, not_false_eq_true, if_true, if_false]
          omega
      · simp only [if_neg hr, hc, false_and, if_false]
        exact ih

/-- Counting in the image of a history. -/
theorem countSince_map {δ : Type*} (f : δ → ε) (history : List δ) :
    countSince counts resets (history.map f) =
      countSince (fun d => counts (f d)) (fun d => resets (f d)) history := by
  induction history with
  | nil => rfl
  | cons d earlier ih => simp only [List.map_cons, countSince, ih]

end HistoryCounts
