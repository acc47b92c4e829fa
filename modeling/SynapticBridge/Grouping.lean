import SynapticBridge.OrderedDict
import Mathlib.Algebra.BigOperators.Group.List.Basic
import Mathlib.Algebra.CharZero.Defs
import Mathlib.Algebra.Field.Basic
import Mathlib.Algebra.GroupWithZero.Nat
import Mathlib.Data.List.Forall2
import Mathlib.Data.List.Induction

/-! Grouping a list by a key: each element is merged into the value of its group. Two
groupings that put the same elements together stay related value by value, and a mean
kept by merging is the mean of the group. -/
namespace Grouping

open OrderedDict

variable {α κ κ' β γ : Type*} [DecidableEq κ] [DecidableEq κ']

def add (key : α → κ) (merge : Option β → α → β) (groups : Dict κ β) (x : α) : Dict κ β :=
  groups.set (key x) (merge (groups.get? (key x)) x)

def group (key : α → κ) (merge : Option β → α → β) (xs : List α) : Dict κ β :=
  xs.foldl (add key merge) .empty

theorem group_snoc (key : α → κ) (merge : Option β → α → β) (xs : List α) (x : α) :
    group key merge (xs ++ [x]) = add key merge (group key merge xs) x := by
  simp [group, List.foldl_append]

theorem group_contains (key : α → κ) (merge : Option β → α → β) {xs : List α} {x : α}
    (hx : x ∈ xs) : ∃ v, (group key merge xs).get? (key x) = some v := by
  induction xs using List.reverseRecOn with
  | nil => cases hx
  | append_singleton xs y ih =>
    rw [group_snoc, add, Dict.get?_set]
    split_ifs with hkey
    · exact ⟨_, rfl⟩
    · rcases List.mem_append.mp hx with hx | hx
      · exact ih hx
      · exact absurd (congrArg key (List.mem_singleton.mp hx)) hkey

/-- A group is the fold of its own elements, in their order. -/
theorem get?_group (key : α → κ) (merge : Option β → α → β) (xs : List α) (k : κ) :
    (group key merge xs).get? k =
      (xs.filter fun x => key x = k).foldl (fun old x => some (merge old x)) none := by
  induction xs using List.reverseRecOn with
  | nil => rfl
  | append_singleton xs x ih =>
    rw [group_snoc, add, Dict.get?_set, List.filter_append]
    by_cases hkey : key x = k
    · subst hkey
      simp [ih]
    · have hne : k ≠ key x := Ne.symm hkey
      simp [hkey, hne, ih]

theorem mem_keys_group {key : α → κ} {merge : Option β → α → β} {xs : List α} {k : κ} :
    k ∈ (group key merge xs).keys ↔ ∃ x ∈ xs, key x = k := by
  induction xs using List.reverseRecOn with
  | nil => simp [group]
  | append_singleton xs x ih =>
    rw [group_snoc, add, Dict.mem_keys_set, ih]
    constructor
    · rintro (rfl | ⟨y, hy, hkey⟩)
      · exact ⟨x, by simp, rfl⟩
      · exact ⟨y, List.mem_append_left _ hy, hkey⟩
    · rintro ⟨y, hy, hkey⟩
      rcases List.mem_append.mp hy with hy | hy
      · exact .inr ⟨y, hy, hkey⟩
      · obtain rfl := List.mem_singleton.mp hy
        exact .inl hkey.symm

theorem sum_weights {key : α → κ} {merge : Option β → α → β} {weight : β → ℕ}
    (first : ∀ x, weight (merge none x) = 1)
    (next : ∀ v x, weight (merge (some v) x) = weight v + 1) (xs : List α) :
    ((group key merge xs).values.map weight).sum = xs.length := by
  induction xs using List.reverseRecOn with
  | nil => rfl
  | append_singleton xs x ih =>
    rw [group_snoc, add, List.length_append, List.length_singleton, ← ih]
    cases hget : (group key merge xs).get? (key x) with
    | none =>
      have hentries := setEntries_of_notMem (findEntry_eq_none.mp hget) (merge none x)
      simp [Dict.values, Dict.set, hentries, first]
    | some v =>
      obtain ⟨pre, post, hentries, hset⟩ := setEntries_split hget
      simp only [Dict.values, Dict.set, hset]
      simp only [hentries, List.map_append, List.map_cons, List.sum_append, List.sum_cons, next]
      omega

theorem group_invariant {key : α → κ} {merge : Option β → α → β} {P : κ → β → Prop}
    (step : ∀ x (old : Option β), (∀ v, old = some v → P (key x) v) → P (key x) (merge old x))
    (xs : List α) : ∀ k v, (group key merge xs).get? k = some v → P k v := by
  induction xs using List.reverseRecOn with
  | nil => exact nofun
  | append_singleton xs x ih =>
    intro k v hv
    rw [group_snoc, add, Dict.get?_set] at hv
    split_ifs at hv with hkey
    · obtain rfl := Option.some.inj hv
      exact hkey ▸ step x _ fun v hold => ih _ v hold
    · exact ih k v hv

/-- Merging counts the elements and keeps the mean of their values up to date. -/
structure RunningMean {K : Type*} [DivisionRing K] (merge : Option β → α → β) (count : β → ℕ)
    (average : β → K) (value : α → K) : Prop where
  first_count : ∀ x, count (merge none x) = 1
  first_average : ∀ x, average (merge none x) = value x
  next_count : ∀ v x, count (merge (some v) x) = count v + 1
  next_average : ∀ v x, average (merge (some v) x) =
    (average v * count v + value x) / ((count v + 1 : ℕ) : K)

namespace RunningMean

variable {K : Type*} [Field K] {merge : Option β → α → β} {count : β → ℕ} {average : β → K}
  {value : α → K}

theorem fold [CharZero K] (h : RunningMean merge count average value) {xs : List α} {v : β}
    (hv : xs.foldl (fun old x => some (merge old x)) none = some v) :
    count v = xs.length ∧ average v = (xs.map value).sum / xs.length := by
  induction xs using List.reverseRecOn generalizing v with
  | nil => cases hv
  | append_singleton xs x ih =>
    rw [List.foldl_append, List.foldl_cons, List.foldl_nil] at hv
    obtain rfl := Option.some.inj hv
    cases hfold : xs.foldl (fun old x => some (merge old x)) none with
    | none =>
      have hxs : xs = [] := by
        cases xs using List.reverseRecOn with
        | nil => rfl
        | append_singleton ys y => simp at hfold
      simp [hxs, h.first_count, h.first_average]
    | some w =>
      obtain ⟨hcount, haverage⟩ := ih hfold
      have hpos : (xs.length : K) ≠ 0 := by
        rw [Nat.cast_ne_zero]
        rintro hzero
        rw [List.length_eq_zero_iff.mp hzero] at hfold
        cases hfold
      refine ⟨by simp [h.next_count, hcount], ?_⟩
      rw [h.next_average, hcount, haverage, div_mul_cancel₀ _ hpos]
      simp

theorem group [CharZero K] (h : RunningMean merge count average value) {key : α → κ}
    {xs : List α} {k : κ} {v : β} (hv : (Grouping.group key merge xs).get? k = some v) :
    count v = (xs.filter fun x => key x = k).length ∧
      average v = ((xs.filter fun x => key x = k).map value).sum /
        (xs.filter fun x => key x = k).length := by
  rw [get?_group] at hv
  exact h.fold hv

end RunningMean

inductive Both (R : β → γ → Prop) : Option β → Option γ → Prop where
  | none : Both R none none
  | some {b : β} {c : γ} (related : R b c) : Both R (some b) (some c)

section Related

variable {R : β → γ → Prop} {same : κ → κ' → Prop} {es : List (κ × β)} {fs : List (κ' × γ)}
  {k : κ} {l : κ'}

theorem findEntry_related
    (h : List.Forall₂ (fun e f => (e.1 = k ↔ f.1 = l) ∧ R e.2 f.2) es fs) :
    Both R (findEntry k es) (findEntry l fs) := by
  induction h with
  | nil => exact .none
  | @cons e f es fs hef _ ih =>
    rw [findEntry_cons, findEntry_cons]
    by_cases he : e.1 = k
    · rw [if_pos he, if_pos (hef.1.mp he)]
      exact .some hef.2
    · rw [if_neg he, if_neg fun hf => he (hef.1.mpr hf)]
      exact ih

theorem setEntries_related {b : β} {c : γ}
    (h : List.Forall₂ (fun e f => same e.1 f.1 ∧ R e.2 f.2) es fs)
    (agree : ∀ e f, same e f → (e = k ↔ f = l)) (hkl : same k l) (hbc : R b c) :
    List.Forall₂ (fun e f => same e.1 f.1 ∧ R e.2 f.2) (setEntries k b es) (setEntries l c fs) := by
  induction h with
  | nil => exact .cons ⟨hkl, hbc⟩ .nil
  | @cons e f es fs hef hrest ih =>
    rw [setEntries_cons, setEntries_cons]
    by_cases he : e.1 = k
    · rw [if_pos he, if_pos ((agree _ _ hef.1).mp he)]
      exact .cons ⟨hkl, hbc⟩ hrest
    · rw [if_neg he, if_neg fun hf => he ((agree _ _ hef.1).mpr hf)]
      exact .cons hef ih

/-- Keys that separate the same elements give groups that are related one by one. -/
theorem group_related {key : α → κ} {key' : α → κ'} {merge : Option β → α → β}
    {merge' : Option γ → α → γ} {xs : List α}
    (keys : ∀ x ∈ xs, ∀ y ∈ xs, key x = key y ↔ key' x = key' y)
    (step : ∀ x old old', Both R old old' → R (merge old x) (merge' old' x)) :
    List.Forall₂ R (group key merge xs).values (group key' merge' xs).values := by
  have main : ∀ ys : List α, (∀ y ∈ ys, y ∈ xs) →
      List.Forall₂ (fun e f => (∃ y ∈ xs, e.1 = key y ∧ f.1 = key' y) ∧ R e.2 f.2)
        (group key merge ys).entries (group key' merge' ys).entries := by
    intro ys hys
    induction ys using List.reverseRecOn with
    | nil => exact .nil
    | append_singleton ys x ih =>
      have hx : x ∈ xs := hys x (by simp)
      have hrel := ih fun y hy => hys y (by simp [hy])
      have agree : ∀ e f, (∃ y ∈ xs, e = key y ∧ f = key' y) → (e = key x ↔ f = key' x) := by
        rintro e f ⟨y, hy, rfl, rfl⟩
        exact keys y hy x hx
      rw [group_snoc, group_snoc]
      refine setEntries_related hrel agree ⟨x, hx, rfl, rfl⟩ (step x _ _ ?_)
      exact findEntry_related (hrel.imp fun e f hef => ⟨agree _ _ hef.1, hef.2⟩)
  have hentries := main xs fun y hy => hy
  unfold Dict.values
  rw [List.forall₂_map_left_iff, List.forall₂_map_right_iff]
  exact hentries.imp fun e f hef => hef.2

end Related

theorem group_values_congr {key : α → κ} {key' : α → κ'} {merge : Option β → α → β}
    {xs : List α} (keys : ∀ x ∈ xs, ∀ y ∈ xs, key x = key y ↔ key' x = key' y) :
    (group key merge xs).values = (group key' merge xs).values := by
  have step : ∀ x (old old' : Option β), Both (· = ·) old old' → merge old x = merge old' x := by
    intro x old old' hold
    cases hold with
    | none => rfl
    | some h => rw [h]
  exact List.forall₂_eq_eq_eq ▸ group_related keys step

end Grouping
