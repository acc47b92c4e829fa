import Mathlib.Data.List.Nodup
import Mathlib.Data.List.Basic

/-! Dictionaries that remember the order in which keys were first inserted.
Overwriting a key keeps its place, as in Python. Keys are distinct by construction,
so iteration over the entries visits every key once. -/
namespace OrderedDict

variable {κ α : Type*} [DecidableEq κ]

def setEntries (k : κ) (v : α) : List (κ × α) → List (κ × α)
  | [] => [(k, v)]
  | e :: es => if e.1 = k then (k, v) :: es else e :: setEntries k v es

def findEntry (k : κ) : List (κ × α) → Option α
  | [] => none
  | e :: es => if e.1 = k then some e.2 else findEntry k es

@[simp] theorem setEntries_nil (k : κ) (v : α) : setEntries k v [] = [(k, v)] := rfl
theorem setEntries_cons (k : κ) (v : α) (e : κ × α) (es : List (κ × α)) :
    setEntries k v (e :: es) = if e.1 = k then (k, v) :: es else e :: setEntries k v es := rfl
@[simp] theorem findEntry_nil (k : κ) : findEntry k ([] : List (κ × α)) = none := rfl
theorem findEntry_cons (k : κ) (e : κ × α) (es : List (κ × α)) :
    findEntry k (e :: es) = if e.1 = k then some e.2 else findEntry k es := rfl

theorem mem_keys_setEntries {k x : κ} {v : α} {es : List (κ × α)} :
    x ∈ (setEntries k v es).map Prod.fst ↔ x = k ∨ x ∈ es.map Prod.fst := by
  induction es with
  | nil => simp
  | cons e es ih =>
    rw [setEntries_cons]
    split_ifs with he
    · subst he
      simp
    · simp only [List.map_cons, List.mem_cons, ih]
      tauto

theorem nodup_setEntries {k : κ} {v : α} {es : List (κ × α)}
    (h : (es.map Prod.fst).Nodup) : ((setEntries k v es).map Prod.fst).Nodup := by
  induction es with
  | nil => simp
  | cons e es ih =>
    rw [List.map_cons, List.nodup_cons] at h
    rw [setEntries_cons]
    split_ifs with he
    · subst he
      simpa using h
    · rw [List.map_cons, List.nodup_cons]
      refine ⟨?_, ih h.2⟩
      rw [mem_keys_setEntries]
      rintro (hk | hk)
      · exact he hk
      · exact h.1 hk

theorem findEntry_setEntries_self (k : κ) (v : α) (es : List (κ × α)) :
    findEntry k (setEntries k v es) = some v := by
  induction es with
  | nil => simp [findEntry_cons]
  | cons e es ih =>
    rw [setEntries_cons]
    split_ifs with he
    · simp [findEntry_cons]
    · simp [findEntry_cons, he, ih]

theorem findEntry_setEntries_of_ne {k x : κ} (hx : x ≠ k) (v : α) (es : List (κ × α)) :
    findEntry x (setEntries k v es) = findEntry x es := by
  induction es with
  | nil => simp [findEntry_cons, Ne.symm hx]
  | cons e es ih =>
    rw [setEntries_cons]
    split_ifs with he
    · simp [findEntry_cons, he, Ne.symm hx]
    · simp [findEntry_cons, ih]

theorem findEntry_eq_none {x : κ} {es : List (κ × α)} :
    findEntry x es = none ↔ x ∉ es.map Prod.fst := by
  induction es with
  | nil => simp
  | cons e es ih =>
    by_cases he : e.1 = x
    · simp [findEntry_cons, he]
    · simp [findEntry_cons, he, ih, Ne.symm he]

theorem mem_of_findEntry {x : κ} {a : α} {es : List (κ × α)} (h : findEntry x es = some a) :
    (x, a) ∈ es := by
  induction es with
  | nil => simp at h
  | cons e es ih =>
    rw [findEntry_cons] at h
    split_ifs at h with he
    · obtain rfl := Option.some.inj h
      subst he
      exact List.mem_cons_self
    · exact List.mem_cons_of_mem _ (ih h)

theorem findEntry_of_mem {x : κ} {a : α} {es : List (κ × α)}
    (hn : (es.map Prod.fst).Nodup) (h : (x, a) ∈ es) : findEntry x es = some a := by
  induction es with
  | nil => simp at h
  | cons e es ih =>
    rw [List.map_cons, List.nodup_cons] at hn
    rcases List.mem_cons.mp h with rfl | h
    · simp [findEntry_cons]
    · have hne : e.1 ≠ x := fun he => hn.1 (he ▸ List.mem_map_of_mem h)
      simp [findEntry_cons, hne, ih hn.2 h]

/-- A fresh key is appended, so insertion order is the order of first use. -/
theorem setEntries_of_notMem {k : κ} {es : List (κ × α)} (h : k ∉ es.map Prod.fst) (v : α) :
    setEntries k v es = es ++ [(k, v)] := by
  induction es with
  | nil => rfl
  | cons e es ih =>
    rw [List.map_cons, List.mem_cons, not_or] at h
    simp [setEntries_cons, Ne.symm h.1, ih h.2]

/-- Overwriting replaces the one entry with that key and leaves its neighbours. -/
theorem setEntries_split {k : κ} {a : α} {es : List (κ × α)}
    (h : findEntry k es = some a) : ∃ pre post, es = pre ++ (k, a) :: post ∧
      ∀ v, setEntries k v es = pre ++ (k, v) :: post := by
  induction es with
  | nil => simp at h
  | cons e es ih =>
    rw [findEntry_cons] at h
    split_ifs at h with he
    · obtain rfl := Option.some.inj h
      exact ⟨[], es, by simp [← he], fun v => by simp [setEntries_cons, he]⟩
    · obtain ⟨pre, post, hes, hset⟩ := ih h
      exact ⟨e :: pre, post, by simp [hes], fun v => by simp [setEntries_cons, he, hset v]⟩

/-- Changing all values commutes with an assignment. -/
theorem setEntries_map {β : Type*} (f : α → β) (k : κ) (v : α) (es : List (κ × α)) :
    setEntries k (f v) (es.map (Prod.map id f)) = (setEntries k v es).map (Prod.map id f) := by
  induction es with
  | nil => rfl
  | cons e es ih =>
    simp only [List.map_cons, setEntries_cons, Prod.map_fst, id]
    split_ifs with he
    · rfl
    · rw [List.map_cons, ih]

theorem setEntries_setEntries (k : κ) (v w : α) (es : List (κ × α)) :
    setEntries k w (setEntries k v es) = setEntries k w es := by
  induction es with
  | nil => simp [setEntries_cons]
  | cons e es ih =>
    simp only [setEntries_cons]
    split_ifs with he
    · simp [setEntries_cons]
    · rw [setEntries_cons, if_neg he, ih]

/-- How an assignment changes the number of entries of some kind. -/
theorem countP_setEntries (p : κ × α → Bool) (k : κ) (v : α) (es : List (κ × α)) :
    (setEntries k v es).countP p + (((findEntry k es).map fun a => p (k, a)).getD false).toNat =
      es.countP p + (p (k, v)).toNat := by
  induction es with
  | nil => cases hp : p (k, v) <;> simp [hp]
  | cons e es ih =>
    rw [setEntries_cons, findEntry_cons]
    split_ifs with he
    · subst he
      simp only [List.countP_cons, Option.map_some, Option.getD_some]
      cases p (e.1, v) <;> cases p e <;> simp
    · rw [List.countP_cons, List.countP_cons]
      omega

structure Dict (κ α : Type*) where
  entries : List (κ × α)
  nodup : (entries.map Prod.fst).Nodup

namespace Dict

def empty : Dict κ α := ⟨[], by simp⟩
def keys (d : Dict κ α) : List κ := d.entries.map Prod.fst
def values (d : Dict κ α) : List α := d.entries.map Prod.snd
def get? (d : Dict κ α) (k : κ) : Option α := findEntry k d.entries
def contains (d : Dict κ α) (k : κ) : Bool := (d.get? k).isSome
def set (d : Dict κ α) (k : κ) (v : α) : Dict κ α :=
  ⟨setEntries k v d.entries, nodup_setEntries d.nodup⟩
def pop (d : Dict κ α) (k : κ) : Dict κ α :=
  ⟨d.entries.filter (fun e => e.1 ≠ k), d.nodup.sublist (List.filter_sublist.map _)⟩

/-- `{key(x): x for x in xs}`: a repeated key keeps its first place and its last value. -/
def ofList (key : α → κ) (xs : List α) : Dict κ α :=
  xs.foldl (fun d x => d.set (key x) x) empty

@[simp] theorem get?_empty (k : κ) : (empty : Dict κ α).get? k = none := rfl
omit [DecidableEq κ] in
@[simp] theorem keys_empty : (empty : Dict κ α).keys = [] := rfl

@[simp] theorem get?_set_self (d : Dict κ α) (k : κ) (v : α) : (d.set k v).get? k = some v :=
  findEntry_setEntries_self k v d.entries

/-- Of two assignments to one key only the second is seen. -/
theorem set_set (d : Dict κ α) (k : κ) (v w : α) : (d.set k v).set k w = d.set k w := by
  simp only [set, setEntries_setEntries]

theorem get?_set_of_ne (d : Dict κ α) {k x : κ} (h : x ≠ k) (v : α) :
    (d.set k v).get? x = d.get? x := findEntry_setEntries_of_ne h v d.entries

theorem get?_set (d : Dict κ α) (k x : κ) (v : α) :
    (d.set k v).get? x = if x = k then some v else d.get? x := by
  split_ifs with h
  · subst h
    exact d.get?_set_self x v
  · exact d.get?_set_of_ne h v

theorem get?_eq_none {d : Dict κ α} {k : κ} : d.get? k = none ↔ k ∉ d.keys :=
  findEntry_eq_none

theorem get?_eq_some {d : Dict κ α} {k : κ} {a : α} : d.get? k = some a ↔ (k, a) ∈ d.entries :=
  ⟨mem_of_findEntry, findEntry_of_mem d.nodup⟩

theorem contains_iff {d : Dict κ α} {k : κ} : d.contains k = true ↔ k ∈ d.keys := by
  rw [contains, Option.isSome_iff_ne_none, ne_eq, get?_eq_none, not_not]

@[simp] theorem mem_keys_set {d : Dict κ α} {k x : κ} {v : α} :
    x ∈ (d.set k v).keys ↔ x = k ∨ x ∈ d.keys := mem_keys_setEntries

omit [DecidableEq κ] in
theorem keys_nodup (d : Dict κ α) : d.keys.Nodup := d.nodup

/-- A key keeps its place, and a new one comes last. -/
theorem keys_set (d : Dict κ α) (k : κ) (v : α) :
    (d.set k v).keys = if k ∈ d.keys then d.keys else d.keys ++ [k] := by
  change (setEntries k v d.entries).map Prod.fst =
    if k ∈ d.entries.map Prod.fst then d.entries.map Prod.fst else d.entries.map Prod.fst ++ [k]
  split_ifs with hk
  · obtain ⟨a, ha⟩ := Option.ne_none_iff_exists'.mp fun hnone => findEntry_eq_none.mp hnone hk
    obtain ⟨pre, post, hentries, hset⟩ := setEntries_split ha
    rw [hset, hentries]
    simp
  · rw [setEntries_of_notMem hk]
    simp

theorem keys_prefix_set (d : Dict κ α) (k : κ) (v : α) : d.keys <+: (d.set k v).keys := by
  rw [keys_set]
  split_ifs
  · exact List.prefix_rfl
  · exact List.prefix_append _ _

/-- The values, read one key after the other. -/
theorem values_map {β : Type*} (d : Dict κ α) (f : Option α → β) :
    d.values.map (fun a => f (some a)) = d.keys.map fun k => f (d.get? k) := by
  rw [values, keys, List.map_map, List.map_map]
  refine List.map_congr_left fun e he => ?_
  exact congrArg f (get?_eq_some.mpr he).symm

theorem mem_values {d : Dict κ α} {a : α} : a ∈ d.values ↔ ∃ k, d.get? k = some a := by
  simp only [values, List.mem_map, get?_eq_some, Prod.exists, exists_eq_right]

theorem get?_pop (d : Dict κ α) (k x : κ) :
    (d.pop k).get? x = if x = k then none else d.get? x := by
  split_ifs with h
  · subst h
    rw [get?_eq_none]
    simp [keys, pop]
  · cases hx : d.get? x with
    | none =>
      rw [get?_eq_none] at hx ⊢
      intro hm
      obtain ⟨e, he, rfl⟩ := List.mem_map.mp hm
      exact hx (List.mem_map_of_mem (List.mem_filter.mp he).1)
    | some a =>
      rw [get?_eq_some] at hx ⊢
      exact List.mem_filter.mpr ⟨hx, by simpa using h⟩

theorem mem_keys_ofList {key : α → κ} {xs : List α} {k : κ} :
    k ∈ (ofList key xs).keys ↔ ∃ x ∈ xs, key x = k := by
  have main : ∀ (d : Dict κ α), k ∈ (xs.foldl (fun d x => d.set (key x) x) d).keys ↔
      k ∈ d.keys ∨ ∃ x ∈ xs, key x = k := by
    induction xs with
    | nil => simp
    | cons x xs ih =>
      intro d
      rw [List.foldl_cons, ih, mem_keys_set]
      simp only [List.mem_cons, exists_eq_or_imp]
      tauto
  simpa [ofList] using main empty

/-- The values of such a dictionary come from the list and stand under their own keys. -/
theorem mem_of_get?_ofList {key : α → κ} {xs : List α} {k : κ} {x : α}
    (h : (ofList key xs).get? k = some x) : x ∈ xs ∧ key x = k := by
  have main : ∀ (d : Dict κ α), (xs.foldl (fun d x => d.set (key x) x) d).get? k = some x →
      d.get? k = some x ∨ x ∈ xs ∧ key x = k := by
    clear h
    induction xs with
    | nil => exact fun d hd => Or.inl hd
    | cons y ys ih =>
      intro d hd
      rcases ih _ hd with hset | ⟨hmem, hkey⟩
      · rw [get?_set] at hset
        split_ifs at hset with hk
        · obtain rfl := Option.some.inj hset
          exact Or.inr ⟨List.mem_cons_self, hk.symm⟩
        · exact Or.inl hset
      · exact Or.inr ⟨List.mem_cons_of_mem _ hmem, hkey⟩
  simpa using main empty h

/-- With distinct keys nothing is overwritten: each element stays under its own key. -/
theorem get?_ofList {key : α → κ} {xs : List α} (hn : (xs.map key).Nodup) {x : α}
    (hx : x ∈ xs) : (ofList key xs).get? (key x) = some x := by
  have main : ∀ (d : Dict κ α), (x ∈ xs ∨ d.get? (key x) = some x ∧ key x ∉ xs.map key) →
      (xs.foldl (fun d x => d.set (key x) x) d).get? (key x) = some x := by
    clear hx
    induction xs with
    | nil => simp
    | cons y ys ih =>
      intro d hd
      rw [List.map_cons, List.nodup_cons] at hn
      apply ih hn.2
      rcases hd with hd | ⟨hd, hk⟩
      · rcases List.mem_cons.mp hd with rfl | hd
        · exact Or.inr ⟨get?_set_self _ _ _, hn.1⟩
        · exact Or.inl hd
      · rw [List.map_cons, List.mem_cons, not_or] at hk
        refine Or.inr ⟨?_, hk.2⟩
        rw [get?_set_of_ne _ hk.1, hd]
  exact main empty (Or.inl hx)

theorem entries_ofList {key : α → κ} {xs : List α} (hn : (xs.map key).Nodup) :
    (ofList key xs).entries = xs.map fun x => (key x, x) := by
  have main : ∀ (d : Dict κ α), (∀ x ∈ xs, key x ∉ d.keys) →
      (xs.foldl (fun d x => d.set (key x) x) d).entries =
        d.entries ++ xs.map fun x => (key x, x) := by
    induction xs with
    | nil => simp
    | cons x xs ih =>
      intro d hd
      rw [List.map_cons, List.nodup_cons] at hn
      have hset : (d.set (key x) x).entries = d.entries ++ [(key x, x)] :=
        setEntries_of_notMem (hd x List.mem_cons_self) x
      rw [List.foldl_cons, ih hn.2, hset, List.append_assoc]
      · rfl
      · intro y hy
        rw [mem_keys_set, not_or]
        refine ⟨?_, hd y (List.mem_cons_of_mem _ hy)⟩
        intro hxy
        exact hn.1 (hxy ▸ List.mem_map_of_mem hy)
  exact main empty (by simp)

theorem keys_ofList {key : α → κ} {xs : List α} (hn : (xs.map key).Nodup) :
    (ofList key xs).keys = xs.map key := by
  rw [keys, entries_ofList hn, List.map_map]
  rfl

/-- Equality of dictionaries, which ignores the order of insertion. -/
def Same (d d' : Dict κ α) : Prop := ∀ k, d.get? k = d'.get? k

theorem Same.contains {d d' : Dict κ α} (h : d.Same d') (k : κ) : d.contains k = d'.contains k := by
  rw [Dict.contains, Dict.contains, h k]

end Dict

end OrderedDict
