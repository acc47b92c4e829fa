import Mathlib.Init

/-! Procedures over a mutable state that may raise. An exception keeps every
state change made before it, so a handler sees the half-finished state. -/
namespace Procedures

structure Proc (ε σ α : Type) where
  run : σ → Except ε α × σ

namespace Proc

variable {ε σ τ α β : Type}

def raise (e : ε) : Proc ε σ α := ⟨fun s => (.error e, s)⟩
def modify (f : σ → σ) : Proc ε σ Unit := ⟨fun s => (.ok (), f s)⟩
def ofExcept (x : Except ε α) : Proc ε σ α := ⟨fun s => (x, s)⟩
def read : Proc ε σ σ := ⟨fun s => (.ok s, s)⟩

instance : Monad (Proc ε σ) where
  pure a := ⟨fun s => (.ok a, s)⟩
  bind x f := ⟨fun s =>
    match x.run s with
    | (.ok a, s') => (f a).run s'
    | (.error e, s') => (.error e, s')⟩

/-- `try: ... except Exception: pass`. The state reached when the exception was raised stays. -/
def swallow (x : Proc ε σ Unit) : Proc ε σ Unit := ⟨fun s => (.ok (), (x.run s).2)⟩

/-- Run a procedure on one part of a larger state; the rest is framed. -/
def on (get : σ → τ) (put : τ → σ → σ) (x : Proc ε τ α) : Proc ε σ α :=
  ⟨fun s => ((x.run (get s)).1, put (x.run (get s)).2 s)⟩

/-- A procedure inside a block with local variables, which it does not touch. -/
def onState (x : Proc ε σ α) : Proc ε (τ × σ) α := on Prod.snd (fun s p => (p.1, s)) x

/-- A procedure on the first of two separate states. -/
def onFst (x : Proc ε σ α) : Proc ε (σ × τ) α := on Prod.fst (fun s p => (s, p.2)) x

/-- Run a block that assigns local variables, ignore its exception and read them back. -/
def withLocals (init : τ) (block : Proc ε (τ × σ) Unit) : Proc ε σ τ :=
  ⟨fun s => (.ok ((swallow block).run (init, s)).2.1, ((swallow block).run (init, s)).2.2)⟩

@[simp] theorem pure_run (a : α) (s : σ) : (pure a : Proc ε σ α).run s = (.ok a, s) := rfl
@[simp] theorem raise_run (e : ε) (s : σ) : (raise e : Proc ε σ α).run s = (.error e, s) := rfl
@[simp] theorem modify_run (f : σ → σ) (s : σ) :
    (modify f : Proc ε σ Unit).run s = (.ok (), f s) := rfl
@[simp] theorem ofExcept_run (x : Except ε α) (s : σ) : (ofExcept x).run s = (x, s) := rfl
@[simp] theorem read_run (s : σ) : (read : Proc ε σ σ).run s = (.ok s, s) := rfl
@[simp] theorem on_run (get : σ → τ) (put : τ → σ → σ) (x : Proc ε τ α) (s : σ) :
    (on get put x).run s = ((x.run (get s)).1, put (x.run (get s)).2 s) := rfl
@[simp] theorem onState_run (x : Proc ε σ α) (l : τ) (s : σ) :
    (onState x).run (l, s) = ((x.run s).1, (l, (x.run s).2)) := rfl
@[simp] theorem onFst_run (x : Proc ε σ α) (s : σ) (t : τ) :
    (onFst x).run (s, t) = ((x.run s).1, ((x.run s).2, t)) := rfl
@[simp] theorem withLocals_run (init : τ) (block : Proc ε (τ × σ) Unit) (s : σ) :
    (withLocals init block).run s =
      (.ok (block.run (init, s)).2.1, (block.run (init, s)).2.2) := rfl

theorem bind_run (x : Proc ε σ α) (f : α → Proc ε σ β) (s : σ) :
    (x >>= f).run s = match x.run s with
      | (.ok a, s') => (f a).run s'
      | (.error e, s') => (.error e, s') := rfl

theorem bind_ok {x : Proc ε σ α} {a : α} {s s' : σ} (h : x.run s = (.ok a, s'))
    (f : α → Proc ε σ β) : (x >>= f).run s = (f a).run s' := by
  rw [bind_run, h]

theorem bind_error {x : Proc ε σ α} {e : ε} {s s' : σ} (h : x.run s = (.error e, s'))
    (f : α → Proc ε σ β) : (x >>= f).run s = (.error e, s') := by
  rw [bind_run, h]

theorem bind_assoc {γ : Type} (x : Proc ε σ α) (f : α → Proc ε σ β) (g : β → Proc ε σ γ) :
    x >>= f >>= g = x >>= fun a => f a >>= g := by
  apply congrArg Proc.mk
  funext s
  simp only [bind_run]
  rcases x.run s with ⟨e | a, s'⟩
  · rfl
  · rfl

/-- A sequence returns when both parts do. -/
theorem bind_eq_ok {x : Proc ε σ α} {f : α → Proc ε σ β} {s s' : σ} {b : β} :
    (x >>= f).run s = (.ok b, s') ↔
      ∃ a s₁, x.run s = (.ok a, s₁) ∧ (f a).run s₁ = (.ok b, s') := by
  rw [bind_run]
  rcases x.run s with ⟨e | a, s₁⟩
  · simp
  · constructor
    · exact fun h => ⟨a, s₁, rfl, h⟩
    · rintro ⟨a', s', h, hf⟩
      obtain ⟨ha, rfl⟩ := Prod.mk.inj h
      exact Except.ok.inj ha ▸ hf

/-- A sequence raises when its first part does, or the second after it. -/
theorem bind_eq_error {x : Proc ε σ α} {f : α → Proc ε σ β} {s s' : σ} {e : ε} :
    (x >>= f).run s = (.error e, s') ↔
      x.run s = (.error e, s') ∨
        ∃ a s₁, x.run s = (.ok a, s₁) ∧ (f a).run s₁ = (.error e, s') := by
  rw [bind_run]
  rcases x.run s with ⟨e' | a, s₁⟩
  · simp
  · constructor
    · exact fun h => .inr ⟨a, s₁, rfl, h⟩
    · rintro (h | ⟨a', s', h, hf⟩)
      · cases h
      · obtain ⟨ha, rfl⟩ := Prod.mk.inj h
        exact Except.ok.inj ha ▸ hf

/-! What a procedure leaves alone, seen through a view of the state. -/

section Views

variable {ρ : Type} {view : σ → ρ} {x : Proc ε σ α} {f : α → Proc ε σ β}

/-- The view is the same afterwards, whether the procedure returns or raises. -/
def Keeps (view : σ → ρ) (x : Proc ε σ α) : Prop := ∀ s, view (x.run s).2 = view s

/-- The view is the same wherever the procedure raises. -/
def KeepsRaising (view : σ → ρ) (x : Proc ε σ α) : Prop :=
  ∀ s e s', x.run s = (.error e, s') → view s' = view s

/-- It returns a value, in some state. -/
def Returns (x : Proc ε σ α) (s : σ) : Prop := ∃ a s', x.run s = (.ok a, s')

theorem keeps_pure (a : α) : Keeps view (pure a : Proc ε σ α) := fun _ => rfl
theorem keeps_raise (e : ε) : Keeps view (raise e : Proc ε σ α) := fun _ => rfl
theorem keeps_ofExcept (y : Except ε α) : Keeps view (ofExcept y : Proc ε σ α) := fun _ => rfl
theorem keeps_read : Keeps view (read : Proc ε σ σ) := fun _ => rfl

/-- A part of the state that the view does not show may change. -/
theorem keeps_on {get : σ → τ} {put : τ → σ → σ} (h : ∀ t s, view (put t s) = view s)
    (y : Proc ε τ α) : Keeps view (on get put y) := fun s => h (y.run (get s)).2 s

theorem keeps_bind (hx : Keeps view x) (hf : ∀ a, Keeps view (f a)) : Keeps view (x >>= f) := by
  intro s
  have hfirst := hx s
  rcases hrun : x.run s with ⟨e | a, s'⟩
  · rw [bind_error hrun]
    rwa [hrun] at hfirst
  · rw [bind_ok hrun, hf a s']
    rwa [hrun] at hfirst

theorem Keeps.raising (hx : Keeps view x) : KeepsRaising view x := by
  intro s e s' h
  have hkept := hx s
  rwa [h] at hkept

/-- Changes are for the end: what raises comes before them. -/
theorem keepsRaising_bind (hx : Keeps view x) (hf : ∀ a, KeepsRaising view (f a)) :
    KeepsRaising view (x >>= f) := by
  intro s e s' h
  rcases bind_eq_error.mp h with hraised | ⟨a, s₁, hrun, hrest⟩
  · exact hx.raising s e s' hraised
  · have hkept := hx s
    rw [hrun] at hkept
    exact (hf a s₁ e s' hrest).trans hkept

/-- Wrapping the value at the end raises nothing more. -/
theorem KeepsRaising.bind_pure (hx : KeepsRaising view x) (g : α → β) :
    KeepsRaising view (x >>= fun a => pure (g a)) := by
  intro s e s' h
  rcases bind_eq_error.mp h with hraised | ⟨a, s₁, -, hpure⟩
  · exact hx s e s' hraised
  · cases hpure

/-- A procedure that cannot raise keeps every view where it does. -/
theorem keepsRaising_of_returns (h : ∀ s, Returns x s) : KeepsRaising view x := by
  intro s e s' hrun
  obtain ⟨a, s₁, hok⟩ := h s
  rw [hok] at hrun
  cases hrun

/-- Whatever it raises satisfies the predicate. -/
def RaisesOnly (P : ε → Prop) (x : Proc ε σ α) : Prop :=
  ∀ s e s', x.run s = (.error e, s') → P e

variable {P : ε → Prop}

theorem raisesOnly_modify (g : σ → σ) : RaisesOnly P (modify g : Proc ε σ Unit) := by
  intro s e s' h
  cases h

theorem raisesOnly_read : RaisesOnly P (read : Proc ε σ σ) := by
  intro s e s' h
  cases h

theorem raisesOnly_ofExcept {y : Except ε α} (h : ∀ e, y = .error e → P e) :
    RaisesOnly P (ofExcept y : Proc ε σ α) :=
  fun _ e _ hrun => h e (Prod.mk.inj hrun).1

theorem raisesOnly_bind (hx : RaisesOnly P x) (hf : ∀ a, RaisesOnly P (f a)) :
    RaisesOnly P (x >>= f) := by
  intro s e s' h
  rcases bind_eq_error.mp h with hraised | ⟨a, s₁, -, hrest⟩
  · exact hx s e s' hraised
  · exact hf a s₁ e s' hrest

theorem returns_bind_pure (g : α → β) {s : σ} :
    Returns (x >>= fun a => pure (g a)) s ↔ Returns x s := by
  constructor
  · rintro ⟨b, s', h⟩
    obtain ⟨a, s₁, hrun, -⟩ := bind_eq_ok.mp h
    exact ⟨a, s₁, hrun⟩
  · rintro ⟨a, s', h⟩
    exact ⟨g a, s', bind_ok h _⟩

end Views

end Proc

end Procedures
