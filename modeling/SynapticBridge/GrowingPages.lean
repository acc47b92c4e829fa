import Mathlib.Data.List.Basic
import Mathlib.Data.List.Infix

/-! Pages of a list that grows at its end while it is read. Each page is cut from the list as it
is then, and the pages still fit together. -/
namespace GrowingPages

variable {α σ ρ κ : Type*}

/-- `xs[offset : offset + limit]`. -/
def slice (offset limit : ℕ) (xs : List α) : List α := (xs.drop offset).take limit

structure Page (α : Type*) where
  items : List α
  total : ℕ

/-- A store with a way to change it and a list that it shows. -/
structure Catalog (σ ρ α : Type*) where
  step : σ → ρ → σ
  list : σ → List α

namespace Catalog

variable (c : Catalog σ ρ α)

def page (limit offset : ℕ) (s : σ) : Page α := ⟨slice offset limit (c.list s), (c.list s).length⟩

def after (changes : List ρ) (s : σ) : σ := changes.foldl c.step s

/-- Consecutive pages, each read after a round of changes. -/
def pages (limit : ℕ) : ℕ → List (List ρ) → σ → List (Page α)
  | _, [], _ => []
  | offset, changes :: rounds, s =>
    c.page limit offset (c.after changes s) ::
      pages limit (offset + limit) rounds (c.after changes s)

end Catalog

/-- The names in the list stay where they are, and new ones come after them. -/
structure Grows (c : Catalog σ ρ α) (name : α → κ) (Inv : σ → Prop) : Prop where
  keeps : ∀ s r, Inv s → Inv (c.step s r)
  grows : ∀ s r, Inv s → (c.list s).map name <+: (c.list (c.step s r)).map name

variable {c : Catalog σ ρ α} {name : α → κ} {Inv : σ → Prop}

theorem slice_map (f : α → κ) (offset limit : ℕ) (xs : List α) :
    slice offset limit (xs.map f) = (slice offset limit xs).map f := by
  rw [slice, slice, List.map_take, List.map_drop]

/-- A page that is full is the same page of every longer list. -/
theorem slice_of_prefix {offset limit : ℕ} {xs ys : List α} (h : xs <+: ys)
    (full : (slice offset limit xs).length = limit) :
    slice offset limit ys = slice offset limit xs := by
  obtain ⟨zs, rfl⟩ := h
  rw [slice, List.length_take, List.length_drop] at full
  rw [slice, slice, List.drop_append, List.take_append_of_le_length]
  rw [List.length_drop]
  omega

theorem Grows.inv (h : Grows c name Inv) {s : σ} (hs : Inv s) (changes : List ρ) :
    Inv (c.after changes s) := by
  induction changes generalizing s with
  | nil => exact hs
  | cons r changes ih => exact ih (h.keeps s r hs)

theorem Grows.after (h : Grows c name Inv) {s : σ} (hs : Inv s) (changes : List ρ) :
    (c.list s).map name <+: (c.list (c.after changes s)).map name := by
  induction changes generalizing s with
  | nil => exact List.prefix_rfl
  | cons r changes ih => exact (h.grows s r hs).trans (ih (h.keeps s r hs))

theorem Catalog.after_append (c : Catalog σ ρ α) (changes rest : List ρ) (s : σ) :
    c.after (changes ++ rest) s = c.after rest (c.after changes s) := List.foldl_append

/-- However full the pages are, they come from different places of the final list. -/
theorem Grows.pages_sublist (h : Grows c name Inv) {limit : ℕ} (rounds : List (List ρ)) {s : σ}
    (hs : Inv s) (offset : ℕ) :
    ((c.pages limit offset rounds s).flatMap fun p => p.items.map name).Sublist
      (((c.list (c.after rounds.flatten s)).map name).drop offset) := by
  induction rounds generalizing s offset with
  | nil => exact List.nil_sublist _
  | cons changes rounds ih =>
    have hnext := h.inv hs changes
    have hgrown := h.after hnext rounds.flatten
    rw [List.flatten_cons, c.after_append, Catalog.pages, List.flatMap_cons, Catalog.page,
      ← slice_map, slice]
    set final := (c.list (c.after rounds.flatten (c.after changes s))).map name
    have hpage := ((hgrown.drop offset).take limit).sublist
    have hrest := ih hnext (offset + limit)
    rw [← List.drop_drop] at hrest
    have hboth := hpage.append hrest
    rwa [List.take_append_drop] at hboth

/-- If all pages but the last are full, they make up what the final list holds there: nothing is
missing between two pages and nothing is shown twice. -/
theorem Grows.pages_flatMap (h : Grows c name Inv) {limit : ℕ} (rounds : List (List ρ)) {s : σ}
    (hs : Inv s) (offset : ℕ)
    (full : ∀ p ∈ (c.pages limit offset rounds s).dropLast, p.items.length = limit) :
    (c.pages limit offset rounds s).flatMap (fun p => p.items.map name) =
      (((c.list (c.after rounds.flatten s)).map name).drop offset).take
        (rounds.length * limit) := by
  induction rounds generalizing s offset with
  | nil => simp [Catalog.pages]
  | cons changes rounds ih =>
    have hnext := h.inv hs changes
    rw [List.flatten_cons, c.after_append, Catalog.pages, List.flatMap_cons, Catalog.page]
    cases rounds with
    | nil => simp [Catalog.pages, Catalog.after, slice]
    | cons changes' rounds =>
      have hcut : (c.pages limit offset (changes :: changes' :: rounds) s).dropLast =
          c.page limit offset (c.after changes s) ::
            (c.pages limit (offset + limit) (changes' :: rounds) (c.after changes s)).dropLast :=
        rfl
      rw [hcut] at full
      have hfirst :
          (slice offset limit ((c.list (c.after changes s)).map name)).length = limit := by
        rw [slice_map, List.length_map]
        exact full _ List.mem_cons_self
      have hsame := slice_of_prefix (h.after hnext (changes' :: rounds).flatten) hfirst
      have hrest := ih hnext (offset + limit) fun p hp => full p (List.mem_cons_of_mem _ hp)
      have hlength : (changes :: changes' :: rounds).length * limit =
          limit + (changes' :: rounds).length * limit := by
        rw [List.length_cons, Nat.add_one_mul, Nat.add_comm]
      rw [hrest, ← slice_map, ← hsame, slice, hlength, List.take_add, List.drop_drop]

theorem Catalog.length_pages (limit offset : ℕ) (rounds : List (List ρ)) (s : σ) :
    (c.pages limit offset rounds s).length = rounds.length := by
  induction rounds generalizing offset s with
  | nil => rfl
  | cons changes rounds ih => rw [Catalog.pages, List.length_cons, List.length_cons, ih]

theorem length_flatMap_of_forall {β : Type*} {f : α → List β} {n : ℕ} {xs : List α}
    (h : ∀ x ∈ xs, (f x).length = n) : (xs.flatMap f).length = xs.length * n := by
  induction xs with
  | nil => simp
  | cons x xs ih =>
    obtain ⟨hx, hrest⟩ := List.forall_mem_cons.mp h
    rw [List.flatMap_cons, List.length_append, hx, ih hrest, List.length_cons, Nat.add_one_mul,
      Nat.add_comm]

/-- When the last of them is short, the pages show the whole list. -/
theorem Grows.pages_all (h : Grows c name Inv) {limit : ℕ} {rounds : List (List ρ)} {s : σ}
    (hs : Inv s) (full : ∀ p ∈ (c.pages limit 0 rounds s).dropLast, p.items.length = limit)
    {last : Page α} (hlast : (c.pages limit 0 rounds s).getLast? = some last)
    (short : last.items.length < limit) :
    (c.pages limit 0 rounds s).flatMap (fun p => p.items.map name) =
      (c.list (c.after rounds.flatten s)).map name := by
  have hpages := h.pages_flatMap rounds hs 0 full
  rw [List.drop_zero] at hpages
  have hsplit := List.dropLast_append_getLast? last hlast
  have hcount := Catalog.length_pages (c := c) limit 0 rounds s
  rw [← hsplit, List.length_append, List.length_singleton] at hcount
  have hlength := congrArg List.length hpages
  rw [← hsplit, List.flatMap_append, List.length_append,
    length_flatMap_of_forall (n := limit) (fun p hp => (List.length_map _).trans (full p hp)),
    List.flatMap_singleton, List.length_map, List.length_take, ← hcount, Nat.add_one_mul] at hlength
  rw [hpages]
  apply List.take_of_length_le
  rw [← hcount, Nat.add_one_mul]
  omega

/-- Read from the start, the pages show nothing twice. While they are full they are the beginning
of the final list, and all of it once a page is short. -/
theorem Grows.paged (h : Grows c name Inv) {limit : ℕ} {rounds : List (List ρ)} {s : σ} (hs : Inv s)
    (nodup : ((c.list (c.after rounds.flatten s)).map name).Nodup) :
    let pages := c.pages limit 0 rounds s
    let seen := pages.flatMap fun p => p.items.map name
    let final := (c.list (c.after rounds.flatten s)).map name
    seen.Nodup ∧ ((∀ p ∈ pages.dropLast, p.items.length = limit) →
      seen = final.take (rounds.length * limit) ∧
      ∀ last, pages.getLast? = some last → last.items.length < limit → seen = final) := by
  intro pages seen final
  refine ⟨nodup.sublist (h.pages_sublist rounds hs 0), fun full => ⟨?_, ?_⟩⟩
  · exact h.pages_flatMap rounds hs 0 full
  · exact fun last hlast short => h.pages_all hs full hlast short

end GrowingPages
