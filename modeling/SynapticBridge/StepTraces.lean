import Mathlib.Init

/-! Traces of a deterministic machine: each input is answered from the state the inputs before
it left. Two machines have one trace exactly when they agree wherever the first one goes. -/
namespace StepTraces

variable {σ α β : Type*}

/-- The answers with the states after them. -/
def trace (step : σ → α → β × σ) : σ → List α → List (β × σ)
  | _, [] => []
  | s, x :: xs => step s x :: trace step (step s x).2 xs

/-- A property of every step that is taken. -/
def Along (step : σ → α → β × σ) (P : σ → α → Prop) : σ → List α → Prop
  | _, [] => True
  | s, x :: xs => P s x ∧ Along step P (step s x).2 xs

theorem along_congr {step : σ → α → β × σ} {P Q : σ → α → Prop} (h : ∀ s x, P s x ↔ Q s x)
    (s : σ) (xs : List α) : Along step P s xs ↔ Along step Q s xs := by
  induction xs generalizing s with
  | nil => exact Iff.rfl
  | cons x xs ih => exact and_congr (h s x) (ih _)

theorem along_of_forall {step : σ → α → β × σ} {P : σ → α → Prop} (h : ∀ s x, P s x)
    (s : σ) (xs : List α) : Along step P s xs := by
  induction xs generalizing s with
  | nil => trivial
  | cons x xs ih => exact ⟨h s x, ih _⟩

/-- Two properties are met along the same runs when they agree wherever an invariant of the state
and the inputs still to come holds, and the first of them keeps that invariant. -/
theorem along_iff {step : σ → α → β × σ} {P Q : σ → α → Prop} (Inv : σ → List α → Prop)
    (agree : ∀ s x xs, Inv s (x :: xs) → (P s x ↔ Q s x))
    (keep : ∀ s x xs, Inv s (x :: xs) → P s x → Inv (step s x).2 xs)
    {s : σ} {xs : List α} (h : Inv s xs) : Along step P s xs ↔ Along step Q s xs := by
  induction xs generalizing s with
  | nil => exact Iff.rfl
  | cons x xs ih =>
    rw [Along, Along, agree s x xs h]
    apply and_congr_right
    intro hq
    exact ih (keep s x xs h ((agree s x xs h).mpr hq))

/-- What every step gives that starts from an invariant and keeps it. -/
theorem along_of_invariant {step : σ → α → β × σ} {P Q : σ → α → Prop} (Inv : σ → Prop)
    (keep : ∀ s x, Inv s → Q s x → Inv (step s x).2 ∧ P s x) {s : σ} {xs : List α} (h : Inv s)
    (hq : Along step Q s xs) : Along step P s xs := by
  induction xs generalizing s with
  | nil => trivial
  | cons x xs ih =>
    obtain ⟨hstep, hrest⟩ := hq
    obtain ⟨hkept, hp⟩ := keep s x h hstep
    exact ⟨hp, ih hkept hrest⟩

theorem trace_eq_iff {step step' : σ → α → β × σ} (s : σ) (xs : List α) :
    trace step s xs = trace step' s xs ↔ Along step (fun s x => step s x = step' s x) s xs := by
  induction xs generalizing s with
  | nil => exact iff_of_true rfl trivial
  | cons x xs ih =>
    rw [trace, trace, Along, List.cons.injEq]
    constructor
    · rintro ⟨hstep, hrest⟩
      rw [← hstep] at hrest
      exact ⟨hstep, (ih _).mp hrest⟩
    · rintro ⟨hstep, hrest⟩
      rw [← hstep]
      exact ⟨rfl, (ih _).mpr hrest⟩

end StepTraces
