import Mathlib.Data.List.Basic
import Mathlib.Data.List.Induction
import Mathlib.Data.List.Nodup
import Mathlib.Logic.Function.Basic

/-! A list of records that only grows. Each new record gets the key of its position, and a record
is changed by a search for the first one with its key. -/
namespace NumberedRecords

variable {α κ : Type*} [DecidableEq κ]

/-- A new record, a change of the record with a key, or a call that concerns other data. -/
inductive Change (κ α : Type*) where
  | append (build : κ → α)
  | amend (k : κ) (f : α → α)
  | keep

/-- The first record with the key is replaced, and returned. -/
def amend (key : α → κ) (k : κ) (f : α → α) : List α → Option α × List α
  | [] => (none, [])
  | x :: xs =>
    if key x = k then (some (f x), f x :: xs)
    else ((amend key k f xs).1, x :: (amend key k f xs).2)

def apply (key : α → κ) (label : ℕ → κ) (xs : List α) : Change κ α → List α
  | .append build => xs ++ [build (label xs.length)]
  | .amend k f => (amend key k f xs).2
  | .keep => xs

def run (key : α → κ) (label : ℕ → κ) (xs : List α) (changes : List (Change κ α)) : List α :=
  changes.foldl (apply key label) xs

/-- Records are built under the key they get, and keep it. -/
def Lawful (key : α → κ) : Change κ α → Prop
  | .append build => ∀ k, key (build k) = k
  | .amend _ f => ∀ x, key (f x) = key x
  | .keep => True

def Numbered (key : α → κ) (label : ℕ → κ) (xs : List α) : Prop :=
  ∀ n x, xs[n]? = some x → key x = label n

/-- May the change have a part in the record with the key? -/
def concerns (k : κ) : Change κ α → Bool
  | .append _ => true
  | .amend j _ => decide (j = k)
  | .keep => false

def appends : Change κ α → Bool
  | .append _ => true
  | _ => false

/-- A change as the record with the key sees it. -/
def amended (k : κ) (x : α) : Change κ α → α
  | .amend j f => if j = k then f x else x
  | _ => x

def replay (k : κ) (changes : List (Change κ α)) (x : α) : α := changes.foldl (amended k) x

variable {key : α → κ} {label : ℕ → κ} {k : κ} {f : α → α} {xs : List α}
  {changes : List (Change κ α)} {n : ℕ}

/-- What is returned is the record as it is kept. -/
theorem find?_amend_snd (keeps : ∀ x, key (f x) = key x) :
    (amend key k f xs).2.find? (key · = k) = (amend key k f xs).1 := by
  induction xs with
  | nil => rfl
  | cons x xs ih =>
    rw [amend]
    split_ifs with h
    · simp [keeps, h]
    · simp [h, ih]

@[simp] theorem length_amend : (amend key k f xs).2.length = xs.length := by
  induction xs with
  | nil => rfl
  | cons x xs ih =>
    rw [amend]
    split_ifs
    · rfl
    · simp [ih]

/-- With distinct keys, the first record with the key is every record with the key. -/
theorem getElem?_amend (distinct : (xs.map key).Nodup) (n : ℕ) :
    (amend key k f xs).2[n]? = (xs[n]?).map fun x => if key x = k then f x else x := by
  induction xs generalizing n with
  | nil => rfl
  | cons x xs ih =>
    obtain ⟨hx, htail⟩ := List.nodup_cons.mp (List.map_cons ▸ distinct)
    rw [amend]
    by_cases h : key x = k
    · rw [if_pos h]
      cases n with
      | zero => simp [h]
      | succ n =>
        have hrest : ∀ y ∈ xs, key y ≠ k := by
          intro y hy hkey
          exact hx (h ▸ hkey ▸ List.mem_map_of_mem hy)
        rw [List.getElem?_cons_succ, List.getElem?_cons_succ]
        cases hy : xs[n]? with
        | none => rfl
        | some y => simp [hrest y (List.mem_of_getElem? hy)]
    · rw [if_neg h]
      cases n with
      | zero => simp [h]
      | succ n => exact ih htail n

section Numbered

variable (hinj : Function.Injective label) (numbered : Numbered key label xs)
include hinj numbered

omit [DecidableEq κ] hinj in
theorem Numbered.keys : xs.map key = (List.range xs.length).map label := by
  apply List.ext_getElem?
  intro n
  rw [List.getElem?_map, List.getElem?_map]
  by_cases h : n < xs.length
  · rw [List.getElem?_range h, List.getElem?_eq_getElem h, Option.map_some, Option.map_some,
      numbered n _ (List.getElem?_eq_getElem h)]
  · rw [List.getElem?_eq_none (by omega), List.getElem?_eq_none (by simpa using h)]
    rfl

omit [DecidableEq κ] in
theorem Numbered.distinct : (xs.map key).Nodup := by
  rw [numbered.keys]
  exact List.nodup_range.map hinj

/-- The search for a key finds the record at its number. -/
theorem Numbered.find? (n : ℕ) : xs.find? (key · = label n) = xs[n]? := by
  induction xs using List.reverseRecOn with
  | nil => rfl
  | append_singleton xs x ih =>
    have hinit : Numbered key label xs := by
      intro m y hy
      have hm : m < xs.length := (List.getElem?_eq_some_iff.mp hy).1
      exact numbered m y (by rw [List.getElem?_append_left hm, hy])
    have hlast : key x = label xs.length := numbered xs.length x (by simp)
    rw [List.find?_append, ih hinit]
    by_cases hn : n < xs.length
    · rw [List.getElem?_append_left hn, List.getElem?_eq_getElem hn]
      rfl
    · rw [List.getElem?_eq_none (by omega), Option.none_or]
      by_cases heq : n = xs.length
      · subst heq
        simp [hlast]
      · have hkey : key x ≠ label n := fun h => heq (hinj (h.symm.trans hlast))
        rw [List.getElem?_append_right (by omega), List.getElem?_eq_none (by simp; omega)]
        simp [hkey]

omit [DecidableEq κ] hinj in
/-- Only keys that are labels are found. -/
theorem Numbered.find?_none [DecidableEq κ] (h : ∀ n, label n ≠ k) :
    xs.find? (key · = k) = none := by
  rw [List.find?_eq_none]
  intro x hx hkey
  obtain ⟨n, hn⟩ := List.getElem?_of_mem hx
  exact h n ((numbered n x hn).symm.trans (by simpa using hkey))

theorem Numbered.apply {c : Change κ α} (lawful : Lawful key c) :
    Numbered key label (apply key label xs c) := by
  intro n x hx
  cases c with
  | keep => exact numbered n x hx
  | append build =>
    rcases Nat.lt_trichotomy n xs.length with h | h | h
    · rw [NumberedRecords.apply, List.getElem?_append_left h] at hx
      exact numbered n x hx
    · subst h
      simp only [NumberedRecords.apply, List.getElem?_concat_length, Option.some.injEq] at hx
      rw [← hx]
      exact lawful _
    · rw [NumberedRecords.apply, List.getElem?_eq_none (by simp; omega)] at hx
      cases hx
  | amend k f =>
    rw [NumberedRecords.apply, getElem?_amend (numbered.distinct hinj)] at hx
    obtain ⟨y, hy, rfl⟩ := Option.map_eq_some_iff.mp hx
    have hkey := numbered n y hy
    split_ifs
    · rw [lawful y, hkey]
    · exact hkey

theorem Numbered.run (lawful : ∀ c ∈ changes, Lawful key c) :
    Numbered key label (run key label xs changes) := by
  induction changes generalizing xs with
  | nil => exact numbered
  | cons c changes ih =>
    have hstep := numbered.apply hinj (lawful c List.mem_cons_self)
    exact ih hstep fun c hc => lawful c (List.mem_cons_of_mem _ hc)

/-- The records that exist are only amended, and each by the calls that name its key. -/
theorem run_existing (lawful : ∀ c ∈ changes, Lawful key c) (h : n < xs.length) :
    (run key label xs changes)[n]? = (xs[n]?).map (replay (label n) changes) := by
  induction changes generalizing xs with
  | nil => exact Option.map_id'.symm
  | cons c changes ih =>
    have hstep := numbered.apply hinj (lawful c List.mem_cons_self)
    have hrest : ∀ c ∈ changes, Lawful key c := fun c hc => lawful c (List.mem_cons_of_mem _ hc)
    have hone : (apply key label xs c)[n]? = (xs[n]?).map (amended (label n) · c) := by
      cases c with
      | keep => simp [NumberedRecords.apply, amended]
      | append build => simp [NumberedRecords.apply, amended, List.getElem?_append_left h]
      | amend k f =>
        rw [NumberedRecords.apply, getElem?_amend (numbered.distinct hinj),
          List.getElem?_eq_getElem h, Option.map_some, Option.map_some]
        simp only [amended, numbered n _ (List.getElem?_eq_getElem h), eq_comm]
    have hlength : n < (apply key label xs c).length := by
      cases c with
      | keep => exact h
      | append build =>
        simp only [NumberedRecords.apply, List.length_append, List.length_singleton]
        omega
      | amend k f => simpa [NumberedRecords.apply] using h
    have hrun := ih hstep hrest hlength
    rw [hone, Option.map_map] at hrun
    exact hrun

/-- A record that is appended sees only the calls that come after. -/
theorem run_created {before rest : List (Change κ α)} {build : κ → α}
    (lawful : ∀ c ∈ before ++ .append build :: rest, Lawful key c)
    (hn : n = (NumberedRecords.run key label xs before).length) :
    (NumberedRecords.run key label xs (before ++ .append build :: rest))[n]? =
      some (replay (label n) rest (build (label n))) := by
  have hbefore : ∀ c ∈ before, Lawful key c := fun c hc => lawful c (List.mem_append_left _ hc)
  have hrest : ∀ c ∈ .append build :: rest, Lawful key c :=
    fun c hc => lawful c (List.mem_append_right _ hc)
  have hnumbered := numbered.run hinj hbefore
  have hsplit : NumberedRecords.run key label xs (before ++ .append build :: rest) =
      NumberedRecords.run key label (NumberedRecords.apply key label
        (NumberedRecords.run key label xs before) (.append build)) rest := by
    rw [NumberedRecords.run, List.foldl_append]
    rfl
  rw [hsplit, run_existing hinj (hnumbered.apply hinj (hrest _ List.mem_cons_self))
    (fun c hc => hrest c (List.mem_cons_of_mem _ hc)) (by simp [NumberedRecords.apply, hn]), hn]
  simp [NumberedRecords.apply]

/-- Without the calls that cannot concern it, a record fares the same. -/
theorem run_isolated (lawful : ∀ c ∈ changes, Lawful key c) (n : ℕ) :
    (NumberedRecords.run key label xs (changes.filter (concerns (label n))))[n]? =
      (NumberedRecords.run key label xs changes)[n]? := by
  -- the two runs stay equally long, and agree about the record
  suffices h : ∀ ys, Numbered key label ys → ys.length = xs.length → ys[n]? = xs[n]? →
      (NumberedRecords.run key label ys (changes.filter (concerns (label n))))[n]? =
        (NumberedRecords.run key label xs changes)[n]? from h xs numbered rfl rfl
  induction changes generalizing xs with
  | nil => exact fun ys _ _ hsame => hsame
  | cons c changes ih =>
    intro ys hys hlength hsame
    have hc := lawful c List.mem_cons_self
    have hrest := ih (numbered.apply hinj hc) fun c hc => lawful c (List.mem_cons_of_mem _ hc)
    rw [List.filter_cons]
    cases c with
    | keep => exact hrest ys hys hlength hsame
    | append build =>
      refine hrest _ (hys.apply hinj hc) ?_ ?_
      · simp [NumberedRecords.apply, hlength]
      · simp only [NumberedRecords.apply, List.getElem?_append, hlength, hsame]
    | amend k f =>
      by_cases hk : k = label n
      · subst hk
        simp only [concerns, decide_true, if_true]
        refine hrest _ (hys.apply hinj hc) ?_ ?_
        · simp [NumberedRecords.apply, hlength]
        · rw [NumberedRecords.apply, NumberedRecords.apply, getElem?_amend (hys.distinct hinj),
            getElem?_amend (numbered.distinct hinj), hsame]
      · simp only [concerns, hk, decide_false, Bool.false_eq_true, if_false]
        refine hrest ys hys (by simpa [NumberedRecords.apply] using hlength) ?_
        rw [hsame, NumberedRecords.apply, getElem?_amend (numbered.distinct hinj)]
        cases hx : xs[n]? with
        | none => rfl
        | some x =>
          have hkey : key x ≠ k := fun h => hk (h.symm.trans (numbered n x hx))
          simp [hkey]

end Numbered

theorem length_run (key : α → κ) (label : ℕ → κ) (xs : List α) (changes : List (Change κ α)) :
    (run key label xs changes).length =
      xs.length + changes.countP appends := by
  induction changes generalizing xs with
  | nil => rfl
  | cons c changes ih =>
    rw [run, List.foldl_cons, ← run, ih, List.countP_cons]
    cases c with
    | append build =>
      simp only [apply, appends, List.length_append, List.length_singleton, if_true]
      omega
    | amend k f => simp [apply, appends]
    | keep => simp [apply, appends]

section Search

variable (hinj : Function.Injective label) (numbered : Numbered key label xs)
  (lawful : ∀ c ∈ changes, Lawful key c)
include hinj numbered lawful

/-- The record that a search finds depends on the calls that name its key, and on how many
records were appended. -/
theorem find?_run_isolated (k : κ) :
    (run key label xs (changes.filter (concerns k))).find? (key · = k) =
      (run key label xs changes).find? (key · = k) := by
  have hfiltered : ∀ c ∈ changes.filter (concerns k), Lawful key c :=
    fun c hc => lawful c (List.mem_filter.mp hc).1
  have hleft := numbered.run hinj hfiltered
  have hright := numbered.run hinj lawful
  by_cases hk : ∃ n, label n = k
  · obtain ⟨n, rfl⟩ := hk
    rw [hleft.find? hinj, hright.find? hinj, run_isolated hinj numbered lawful]
  · push Not at hk
    rw [hleft.find?_none hk, hright.find?_none hk]

/-- Where nothing is appended, every record that is found was there, and only amended. -/
theorem find?_run_kept (none_appended : changes.countP appends = 0) (k : κ) :
    (run key label xs changes).find? (key · = k) =
      (xs.find? (key · = k)).map (replay k changes) := by
  have hrun := numbered.run hinj lawful
  by_cases hk : ∃ n, label n = k
  · obtain ⟨n, rfl⟩ := hk
    rw [hrun.find? hinj, numbered.find? hinj]
    by_cases hn : n < xs.length
    · exact run_existing hinj numbered lawful hn
    · rw [List.getElem?_eq_none (by rw [length_run]; omega), List.getElem?_eq_none (by omega)]
      rfl
  · push Not at hk
    rw [hrun.find?_none hk, numbered.find?_none hk]
    rfl

omit lawful in
theorem find?_run_created {before rest : List (Change κ α)} {build : κ → α}
    (lawful : ∀ c ∈ before ++ .append build :: rest, Lawful key c)
    (hn : n = (run key label xs before).length) :
    (run key label xs (before ++ .append build :: rest)).find? (key · = label n) =
      some (replay (label n) rest (build (label n))) := by
  rw [(numbered.run hinj lawful).find? hinj, run_created hinj numbered lawful hn]

end Search

theorem forall_amend {P : α → Prop} (hxs : ∀ x ∈ xs, P x) (hf : ∀ x, P (f x)) :
    ∀ x ∈ (amend key k f xs).2, P x := by
  induction xs with
  | nil => exact hxs
  | cons x xs ih =>
    obtain ⟨hx, hrest⟩ := List.forall_mem_cons.mp hxs
    rw [amend]
    split_ifs
    · exact List.forall_mem_cons.mpr ⟨hf x, hrest⟩
    · exact List.forall_mem_cons.mpr ⟨hx, ih hrest⟩

/-! What a record shows after calls that each give a value, or turn a switch. -/

section Views

variable {β γ : Type*} {change : γ → Change κ α}

/-- A value that calls replace is the last one given. -/
theorem replay_last (view : α → β) {given : γ → Option β}
    (h : ∀ c x, view (amended k x (change c)) = (given c).getD (view x)) (calls : List γ) (x : α) :
    view (replay k (calls.map change) x) = (calls.filterMap given).getLast?.getD (view x) := by
  induction calls generalizing x with
  | nil => rfl
  | cons c calls ih =>
    have hstep := ih (amended k x (change c))
    rw [h] at hstep
    rw [List.map_cons, replay, List.foldl_cons, ← replay, hstep, List.filterMap_cons]
    cases given c with
    | none => rfl
    | some b => simp [List.getLast?_cons]

/-- The same of the whole record, when a later value overwrites an earlier one. -/
theorem replay_put (put : β → α → α) {given : γ → Option β}
    (overwrites : ∀ a b x, put b (put a x) = put b x)
    (h : ∀ c x, amended k x (change c) = (given c).elim x (put · x)) (calls : List γ) (x : α) :
    replay k (calls.map change) x = (calls.filterMap given).getLast?.elim x (put · x) := by
  induction calls generalizing x with
  | nil => rfl
  | cons c calls ih =>
    rw [List.map_cons, replay, List.foldl_cons, ← replay, ih, h, List.filterMap_cons]
    cases given c with
    | none => rfl
    | some b =>
      rw [List.getLast?_cons]
      cases (calls.filterMap given).getLast? with
      | none => rfl
      | some last => exact overwrites b last x

/-- A switch is where it was after an even number of turns. -/
theorem replay_switch (view : α → Bool) {turns : γ → Bool}
    (h : ∀ c x, view (amended k x (change c)) = (view x ^^ turns c)) (calls : List γ) (x : α) :
    view (replay k (calls.map change) x) = (view x ^^ decide (calls.countP turns % 2 = 1)) := by
  induction calls generalizing x with
  | nil => simp [replay]
  | cons c calls ih =>
    have hstep := ih (amended k x (change c))
    rw [h] at hstep
    rw [List.map_cons, replay, List.foldl_cons, ← replay, hstep, List.countP_cons, Bool.xor_assoc]
    congr 1
    cases turns c with
    | false => simp
    | true =>
      rcases Nat.mod_two_eq_zero_or_one (calls.countP turns) with heven | hodd
      · simp [heven, Nat.add_mod]
      · simp [hodd, Nat.add_mod]

end Views

end NumberedRecords
