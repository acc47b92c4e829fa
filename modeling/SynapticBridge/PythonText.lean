import Mathlib.Data.List.DropRight
import Mathlib.Data.List.TakeDrop
import Mathlib.Algebra.Field.Basic
import Mathlib.Algebra.Order.Ring.Defs

/-! Python's text functions on character lists: stripping, number literals, bracketed
groups and shell patterns. Texts are read as Unicode scalar values. -/
namespace PythonText

abbrev Text := List Char

/-- `str.isspace` of one character, which is also what `\s` matches. -/
def isSpace (c : Char) : Bool :=
  let n := c.toNat
  (decide (9 ≤ n) && decide (n ≤ 13)) || (decide (28 ≤ n) && decide (n ≤ 32)) || n == 0x85 ||
    n == 0xA0 || n == 0x1680 || (decide (0x2000 ≤ n) && decide (n ≤ 0x200A)) || n == 0x2028 ||
    n == 0x2029 || n == 0x202F || n == 0x205F || n == 0x3000

def strip (text : Text) : Text := (text.dropWhile isSpace).rdropWhile isSpace

/-- `str.split()`: the runs of characters between white space. -/
def split (text : Text) : List Text := (text.splitOnP isSpace).filter fun run => !run.isEmpty

/-- `str.replace` of one character by another. -/
def replace (old new : Char) (text : Text) : Text := text.map fun c => if c = old then new else c

/-- `[^c]+c` at the head of `text`: the nonempty run before `close` and what follows it. -/
def bracketed (close : Char) (text : Text) : Option (Text × Text) :=
  match text.span (· ≠ close) with
  | ([], _) => none
  | (_, []) => none
  | (body, _ :: rest) => some (body, rest)

/-- `re.search` for a pattern that `matchHere` decides at one position. -/
def search {α : Type} (matchHere : Text → Option α) : Text → Option α
  | [] => matchHere []
  | c :: cs =>
    match matchHere (c :: cs) with
    | some a => some a
    | none => search matchHere cs

/-- `re.findall` for a pattern whose matches are never empty: `matchHere` returns the match
and the text behind it, and `skip` characters still belong to the previous match. -/
def findAll {α : Type} (matchHere : Text → Option (α × Text)) : ℕ → Text → List α
  | _, [] => []
  | skip + 1, _ :: cs => findAll matchHere skip cs
  | 0, c :: cs =>
    match matchHere (c :: cs) with
    | some (a, rest) => a :: findAll matchHere (cs.length - rest.length) cs
    | none => findAll matchHere 0 cs

section Matching

variable {α : Type} {matchHere : Text → Option (α × Text)}

theorem bracketed_append {close : Char} {body : Text} (hne : body ≠ []) (h : close ∉ body)
    (rest : Text) : bracketed close (body ++ close :: rest) = some (body, rest) := by
  have hbody : ∀ c ∈ body, decide (c ≠ close) = true := by
    intro c hc
    simp only [decide_eq_true_eq]
    rintro rfl
    exact h hc
  have hspan : (body ++ close :: rest).span (· ≠ close) = (body, close :: rest) := by
    rw [List.span_eq_takeWhile_dropWhile, List.takeWhile_append_of_pos hbody,
      List.dropWhile_append_of_pos hbody]
    simp
  rw [bracketed, hspan]
  cases body with
  | nil => exact absurd rfl hne
  | cons c cs => rfl

theorem bracketed_eq_some {close : Char} {text body rest : Text}
    (h : bracketed close text = some (body, rest)) : text = body ++ close :: rest := by
  have hsplit : text.takeWhile (· ≠ close) ++ text.dropWhile (· ≠ close) = text :=
    List.takeWhile_append_dropWhile
  rw [bracketed, List.span_eq_takeWhile_dropWhile] at h
  split at h
  · cases h
  · cases h
  · rename_i c rest' _ hspan
    obtain ⟨hbody, hrest⟩ := Prod.mk.inj hspan
    obtain ⟨rfl, rfl⟩ := Prod.mk.inj (Option.some.inj h)
    have hc : c = close := by
      have hstop := List.head?_dropWhile_not (fun c' => decide (c' ≠ close)) text
      rw [hrest] at hstop
      simpa using hstop
    rw [← hsplit, hbody, hrest, hc]

theorem search_of_some {matchHere : Text → Option α} {text : Text} {a : α}
    (h : matchHere text = some a) : search matchHere text = some a := by
  cases text with
  | nil => exact h
  | cons c cs => rw [search, h]

/-- Positions at which nothing matches are passed over. -/
theorem search_behind {matchHere : Text → Option α} {before rest : Text} {a : α}
    (hmiss : ∀ s, s <:+ before → s ≠ [] → matchHere (s ++ rest) = none)
    (h : search matchHere rest = some a) : search matchHere (before ++ rest) = some a := by
  induction before with
  | nil => exact h
  | cons c cs ih =>
    have hnone := hmiss (c :: cs) List.suffix_rfl (List.cons_ne_nil c cs)
    rw [List.cons_append] at hnone ⊢
    rw [search, hnone]
    exact ih fun s hs => hmiss s (hs.trans (List.suffix_cons c cs))

/-- The characters of the last match are passed over. -/
theorem findAll_skip (matched rest : Text) :
    findAll matchHere matched.length (matched ++ rest) = findAll matchHere 0 rest := by
  induction matched with
  | nil => rfl
  | cons c cs ih => exact ih

/-- A stretch in which no match starts. -/
theorem findAll_gap {gap rest : Text}
    (h : ∀ s, s <:+ gap → s ≠ [] → matchHere (s ++ rest) = none) :
    findAll matchHere 0 (gap ++ rest) = findAll matchHere 0 rest := by
  induction gap with
  | nil => rfl
  | cons c cs ih =>
    have hnone := h (c :: cs) List.suffix_rfl (List.cons_ne_nil c cs)
    rw [List.cons_append] at hnone ⊢
    rw [findAll, hnone]
    exact ih fun s hs => h s (hs.trans (List.suffix_cons c cs))

theorem findAll_match {matched rest : Text} {a : α} (hne : matched ≠ [])
    (h : matchHere (matched ++ rest) = some (a, rest)) :
    findAll matchHere 0 (matched ++ rest) = a :: findAll matchHere 0 rest := by
  cases matched with
  | nil => exact absurd rfl hne
  | cons c cs =>
    have hlength : (cs ++ rest).length - rest.length = cs.length := by simp
    rw [List.cons_append] at h ⊢
    rw [findAll, h]
    dsimp only
    rw [hlength, findAll_skip]

end Matching

section Numbers

/-- The zeros of the decimal digit blocks, general category `Nd`. -/
def decimalZeros : List ℕ :=
  [0x30, 0x660, 0x6f0, 0x7c0, 0x966, 0x9e6, 0xa66, 0xae6, 0xb66, 0xbe6, 0xc66, 0xce6, 0xd66,
    0xde6, 0xe50, 0xed0, 0xf20, 0x1040, 0x1090, 0x17e0, 0x1810, 0x1946, 0x19d0, 0x1a80, 0x1a90,
    0x1b50, 0x1bb0, 0x1c40, 0x1c50, 0xa620, 0xa8d0, 0xa900, 0xa9d0, 0xa9f0, 0xaa50, 0xabf0,
    0xff10, 0x104a0, 0x10d30, 0x11066, 0x110f0, 0x11136, 0x111d0, 0x112f0, 0x11450, 0x114d0,
    0x11650, 0x116c0, 0x11730, 0x118e0, 0x11950, 0x11c50, 0x11d50, 0x11da0, 0x11f50, 0x16a60,
    0x16ac0, 0x16b50, 0x1d7ce, 0x1d7d8, 0x1d7e2, 0x1d7ec, 0x1d7f6, 0x1e140, 0x1e2f0, 0x1e4d0,
    0x1e950, 0x1fbf0]

def digit (c : Char) : Option ℕ :=
  (decimalZeros.find? fun z => decide (z ≤ c.toNat) && decide (c.toNat < z + 10)).map
    fun z => c.toNat - z

/-- The digits after a first one; a single underscore may stand between two digits. -/
def moreDigits : Text → List ℕ × Text
  | [] => ([], [])
  | [c] => match digit c with
    | some d => ([d], [])
    | none => ([], [c])
  | c :: c' :: cs => match digit c with
    | some d => (d :: (moreDigits (c' :: cs)).1, (moreDigits (c' :: cs)).2)
    | none =>
      if c = '_' ∧ (digit c').isSome then moreDigits (c' :: cs) else ([], c :: c' :: cs)

def digits : Text → Option (List ℕ × Text)
  | [] => none
  | c :: cs => (digit c).map fun d => (d :: (moreDigits cs).1, (moreDigits cs).2)

def ofDigits (ds : List ℕ) : ℕ := ds.foldl (fun n d => 10 * n + d) 0

/-- An optional sign, as whether it is negative. -/
def sign : Text → Bool × Text
  | '-' :: cs => (true, cs)
  | '+' :: cs => (false, cs)
  | cs => (false, cs)

/-- `int(text)` for a stripped text; `none` where it raises `ValueError`. -/
def parseInt (text : Text) : Option ℤ :=
  match digits (sign text).2 with
  | some (ds, []) => some (if (sign text).1 then -(ofDigits ds : ℤ) else ofDigits ds)
  | _ => none

inductive FloatLiteral (K : Type) where
  | finite (x : K)
  | infinite (negative : Bool)
  | nan

/-- `10 ** e` of an exponent part, or of nothing. -/
def exponent : Text → Option ℤ
  | [] => some 0
  | c :: cs => if c = 'e' ∨ c = 'E' then parseInt cs else none

/-- The digits before and after the point and what follows them. -/
def pointNumber (text : Text) : Option (List ℕ × List ℕ × Text) :=
  match digits text with
  | some (whole, '.' :: rest) =>
    match digits rest with
    | some (fraction, rest) => some (whole, fraction, rest)
    | none => some (whole, [], rest)
  | some (whole, rest) => some (whole, [], rest)
  | none =>
    match text with
    | '.' :: rest => (digits rest).map fun (fraction, rest) => ([], fraction, rest)
    | _ => none

def lower (text : Text) : Text := text.map Char.toLower

/-- `float(text)` for a stripped text, without rounding. -/
def parseFloat {K : Type} [Field K] (text : Text) : Option (FloatLiteral K) :=
  let negative := (sign text).1
  let body := (sign text).2
  if lower body = "inf".toList ∨ lower body = "infinity".toList then some (.infinite negative)
  else if lower body = "nan".toList then some .nan
  else do
    let (whole, fraction, rest) ← pointNumber body
    let e ← exponent rest
    let x := (ofDigits (whole ++ fraction) : K) * ((10 : ℕ) : K) ^ (e - fraction.length)
    return .finite (if negative then -x else x)

end Numbers

section ShellPatterns

inductive ClassItem where
  | single (c : Char)
  | range (lo hi : Char)

def ClassItem.holds (c : Char) : ClassItem → Bool
  | .single d => c == d
  | .range lo hi => decide (lo ≤ c) && decide (c ≤ hi)

/-- `a-b` is a range, which is dropped when it is empty; other characters stand for
themselves, a hyphen without two neighbours included. -/
def classItems : Text → List ClassItem
  | lo :: '-' :: hi :: rest =>
    if lo ≤ hi then .range lo hi :: classItems rest else classItems rest
  | c :: rest => .single c :: classItems rest
  | [] => []

/-- The items of a class. A leading `!` negates, and a `!` that comes to lead because the
empty ranges before it were dropped negates as well. -/
def classSet (stuff : Text) : Bool × List ClassItem :=
  let items := match stuff with
    | '!' :: rest => ClassItem.single '!' :: classItems rest
    | stuff => classItems stuff
  match items with
  | .single '!' :: rest => (true, rest)
  | .range '!' hi :: rest => (true, .single '-' :: .single hi :: rest)
  | items => (false, items)

inductive PatternItem where
  | star
  | anyChar
  | literal (c : Char)
  | oneOf (negated : Bool) (items : List ClassItem)

def PatternItem.holds (c : Char) : PatternItem → Bool
  | .star => false
  | .anyChar => true
  | .literal d => c == d
  | .oneOf negated items => items.any (·.holds c) != negated

/-- The text of a class behind `[`, up to the bracket that closes it. A bracket that comes
first, or first after `!`, does not close it. -/
def classText (text : Text) : Option (Text × Text) :=
  let opening := match text with
    | '!' :: ']' :: _ => 2
    | '!' :: _ => 1
    | ']' :: _ => 1
    | _ => 0
  match (text.drop opening).span (· ≠ ']') with
  | (_, []) => none
  | (body, _ :: rest) => some (text.take opening ++ body, rest)

/-- `skip` characters still belong to the previous class. -/
def patternItems : ℕ → Text → List PatternItem
  | _, [] => []
  | skip + 1, _ :: cs => patternItems skip cs
  | 0, '*' :: cs => .star :: patternItems 0 cs
  | 0, '?' :: cs => .anyChar :: patternItems 0 cs
  | 0, '[' :: cs =>
    match classText cs with
    | none => .literal '[' :: patternItems 0 cs
    | some (stuff, rest) =>
      .oneOf (classSet stuff).1 (classSet stuff).2 :: patternItems (cs.length - rest.length) cs
  | 0, c :: cs => .literal c :: patternItems 0 cs

/-- A star takes the shortest or any longer run. -/
def starMatches (rest : Text → Bool) : Text → Bool
  | [] => rest []
  | c :: cs => rest (c :: cs) || starMatches rest cs

def itemsMatch : List PatternItem → Text → Bool
  | [], text => text.isEmpty
  | .star :: items, text => starMatches (itemsMatch items) text
  | _ :: _, [] => false
  | item :: items, c :: cs => item.holds c && itemsMatch items cs

/-- `fnmatch.fnmatch(text, pattern)` on a POSIX system. -/
def fnmatch (text pattern : Text) : Bool := itemsMatch (patternItems 0 pattern) text

example : fnmatch "fs.read".toList "fs.[!a-q]*".toList = true := by decide

end ShellPatterns

/-! Texts cut at white space. -/

theorem mem_splitOnP {p : Char → Bool} {text run : Text} (h : run ∈ text.splitOnP p) :
    ∀ c ∈ run, p c = false ∧ c ∈ text := by
  induction text generalizing run with
  | nil =>
    rw [List.splitOnP_nil, List.mem_singleton] at h
    simp [h]
  | cons x text ih =>
    intro c hc
    rw [List.splitOnP_cons_eq_if_modifyHead] at h
    split_ifs at h with hx
    · rcases List.mem_cons.mp h with rfl | h
      · cases hc
      · exact (ih h c hc).imp_right (List.mem_cons_of_mem x)
    · cases hruns : text.splitOnP p with
      | nil => exact absurd hruns (List.splitOnP_ne_nil p text)
      | cons first runs =>
        rw [hruns] at h ih
        rcases List.mem_cons.mp h with rfl | h
        · rcases List.mem_cons.mp hc with rfl | hc
          · exact ⟨Bool.eq_false_iff.mpr hx, List.mem_cons_self⟩
          · exact (ih List.mem_cons_self c hc).imp_right (List.mem_cons_of_mem x)
        · exact (ih (List.mem_cons_of_mem _ h) c hc).imp_right (List.mem_cons_of_mem x)

/-- The runs are not empty and hold no white space. -/
theorem mem_split {text run : Text} (h : run ∈ split text) :
    run ≠ [] ∧ ∀ c ∈ run, isSpace c = false ∧ c ∈ text := by
  obtain ⟨hrun, hne⟩ := List.mem_filter.mp h
  exact ⟨by simpa using hne, mem_splitOnP hrun⟩

/-- Characters that are blanked out one after the other are gone in the end. -/
theorem notMem_of_replaced {chars : List Char} (blank : ' ' ∉ chars) {text : Text} {c : Char}
    (h : c ∈ chars.foldl (fun text char => replace char ' ' text) text) : c ∉ chars := by
  induction chars using List.reverseRecOn generalizing c with
  | nil => exact List.not_mem_nil
  | append_singleton chars char ih =>
    simp only [List.mem_append, List.mem_singleton, not_or] at blank ⊢
    rw [List.foldl_append] at h
    obtain ⟨d, hd, rfl⟩ := List.mem_map.mp h
    split_ifs with hchar
    · exact blank
    · exact ⟨ih blank.1 hd, hchar⟩

/-! Printed numbers read back. -/

theorem digit_of_isDigit {c : Char} (h : c.isDigit = true) : digit c = some (c.toNat - 48) := by
  have hrange : 48 ≤ c.toNat ∧ c.toNat ≤ 57 := Char.isDigit_iff_toNat.mp h
  have hfound : decide (48 ≤ c.toNat) && decide (c.toNat < 48 + 10) := by
    simp
    omega
  unfold digit decimalZeros
  rw [List.find?_cons_of_pos]
  · rfl
  · exact hfound

theorem isSpace_of_isDigit {c : Char} (h : c.isDigit = true) : isSpace c = false := by
  have hrange : 48 ≤ c.toNat ∧ c.toNat ≤ 57 := Char.isDigit_iff_toNat.mp h
  simp [isSpace]
  omega

theorem moreDigits_eq {cs : Text} (h : ∀ c ∈ cs, c.isDigit = true) :
    moreDigits cs = (cs.map fun c => c.toNat - 48, []) := by
  induction cs with
  | nil => rfl
  | cons c cs ih =>
    have hc := digit_of_isDigit (h c List.mem_cons_self)
    have hcs := ih fun c hc => h c (List.mem_cons_of_mem _ hc)
    cases cs with
    | nil => simp [moreDigits, hc]
    | cons c' cs => simp [moreDigits, hc, hcs]

theorem digits_eq {cs : Text} (h : ∀ c ∈ cs, c.isDigit = true) (hne : cs ≠ []) :
    digits cs = some (cs.map fun c => c.toNat - 48, []) := by
  cases cs with
  | nil => exact absurd rfl hne
  | cons c cs =>
    have hmore := moreDigits_eq fun c hc => h c (List.mem_cons_of_mem _ hc)
    simp [digits, digit_of_isDigit (h c List.mem_cons_self), hmore]

theorem ofDigits_map (cs : Text) :
    ofDigits (cs.map fun c => c.toNat - 48) = Nat.ofDigitChars 10 cs 0 := by
  rw [ofDigits, Nat.ofDigitChars_eq_foldl, List.foldl_map]
  rfl

theorem parseInt_digits {cs : Text} (h : ∀ c ∈ cs, c.isDigit = true) (hne : cs ≠ []) :
    parseInt cs = some (Nat.ofDigitChars 10 cs 0 : ℤ) := by
  have hsign : sign cs = (false, cs) := by
    unfold sign
    split
    · exact absurd (h '-' List.mem_cons_self) (by decide)
    · exact absurd (h '+' List.mem_cons_self) (by decide)
    · rfl
  simp [parseInt, hsign, digits_eq h hne, ofDigits_map]

theorem parseInt_negative {cs : Text} (h : ∀ c ∈ cs, c.isDigit = true) (hne : cs ≠ []) :
    parseInt ('-' :: cs) = some (-(Nat.ofDigitChars 10 cs 0 : ℤ)) := by
  simp [parseInt, sign, digits_eq h hne, ofDigits_map]

theorem strip_eq_self {text : Text} (h : ∀ c ∈ text, isSpace c = false) : strip text = text := by
  have hdrop : text.dropWhile isSpace = text := by
    rw [List.dropWhile_eq_self_iff]
    intro hpos
    simp [h _ (List.getElem_mem hpos)]
  rw [strip, hdrop, List.rdropWhile_eq_self_iff]
  intro hne
  simp [h _ (List.getLast_mem hne)]

/-- `int(str(n).strip())` is `n`. -/
theorem parseInt_toString (n : ℕ) : parseInt (strip (toString (n : ℤ)).toList) = some (n : ℤ) := by
  have hlist : (toString (n : ℤ)).toList = Nat.toDigits 10 n := by
    exact Nat.toList_repr
  have hdigits : ∀ c ∈ Nat.toDigits 10 n, c.isDigit = true := by
    intro c hc
    exact Nat.isDigit_of_mem_toDigits (by decide) (by decide) hc
  rw [hlist, strip_eq_self fun c hc => isSpace_of_isDigit (hdigits c hc),
    parseInt_digits hdigits Nat.toDigits_ne_nil, Nat.ofDigitChars_ten_toDigits]

/-! Texts cut at a separator into stripped fields. -/

section Fields

variable {c sep : Char} {text : Text}

theorem strip_concat_space (hc : isSpace c = true) (text : Text) :
    strip (text ++ [c]) = strip text := by
  rw [strip, strip, List.dropWhile_append]
  split_ifs with hblank
  · rw [List.isEmpty_iff.mp hblank, List.dropWhile_cons_of_pos hc]
    rfl
  · exact List.rdropWhile_concat_pos isSpace _ c hc

/-- A text whose ends are no spaces is not changed. -/
theorem strip_of_ends {first last : Char} {middle : Text} (hfirst : isSpace first = false)
    (hlast : isSpace last = false) : strip (first :: (middle ++ [last])) =
      first :: (middle ++ [last]) := by
  rw [strip, List.dropWhile_cons_of_neg (by simp [hfirst]), ← List.cons_append]
  exact List.rdropWhile_concat_neg isSpace _ last (by simp [hlast])

theorem rdropWhile_append_cons (hc : isSpace c = false) (a b : Text) :
    (a ++ c :: b).rdropWhile isSpace = a ++ c :: b.rdropWhile isSpace := by
  induction b using List.reverseRecOn with
  | nil => exact List.rdropWhile_concat_neg isSpace a c (by simp [hc])
  | append_singleton b d ih =>
    rw [← List.cons_append, ← List.append_assoc]
    by_cases hd : isSpace d = true
    · rw [List.rdropWhile_concat_pos _ _ _ hd, List.rdropWhile_concat_pos _ _ _ hd, ih]
    · rw [List.rdropWhile_concat_neg _ _ _ hd, List.rdropWhile_concat_neg _ _ _ hd]
      simp

theorem strip_rdropWhile (text : Text) : strip (text.rdropWhile isSpace) = strip text := by
  induction text using List.reverseRecOn with
  | nil => rfl
  | append_singleton text c ih =>
    by_cases hc : isSpace c = true
    · rw [List.rdropWhile_concat_pos _ _ _ hc, strip_concat_space hc, ih]
    · rw [List.rdropWhile_concat_neg _ _ _ hc]

theorem strip_dropWhile (text : Text) : strip (text.dropWhile isSpace) = strip text := by
  rw [strip, List.dropWhile_idempotent, ← strip]

theorem strip_strip (text : Text) : strip (strip text) = strip text := by
  conv_lhs => rw [strip.eq_def text]
  rw [strip_rdropWhile, strip_dropWhile]

def fields (sep : Char) (text : Text) : List Text := (text.splitOn sep).map strip

theorem fields_of_notMem (h : sep ∉ text) : fields sep text = [strip text] := by
  rw [fields, List.splitOn_eq_singleton h, List.map_singleton]

theorem fields_append (sep : Char) (a b : Text) :
    fields sep (a ++ sep :: b) = fields sep a ++ fields sep b := by
  rw [fields, List.splitOn_append_cons_self, List.map_append]
  rfl

/-- A text is one field, or a field, a separator and a shorter text. -/
theorem fields_induction (sep : Char) {motive : Text → Prop}
    (field : ∀ a, sep ∉ a → motive a)
    (cut : ∀ a b, sep ∉ a → motive b → motive (a ++ sep :: b)) (text : Text) : motive text := by
  induction hn : text.length using Nat.strong_induction_on generalizing text with
  | _ n ih =>
    by_cases h : sep ∈ text
    · obtain ⟨a, b, rfl, ha⟩ := List.eq_append_cons_of_mem h
      refine cut a b ha (ih b.length ?_ b rfl)
      rw [← hn, List.length_append, List.length_cons]
      omega
    · exact field text h

theorem fields_dropWhile (hsep : isSpace sep = false) (text : Text) :
    fields sep (text.dropWhile isSpace) = fields sep text := by
  induction text using fields_induction sep with
  | field a ha =>
    have hdrop : sep ∉ a.dropWhile isSpace := fun h => ha ((List.dropWhile_suffix _).subset h)
    rw [fields_of_notMem ha, fields_of_notMem hdrop, strip_dropWhile]
  | cut a b ha _ =>
    have hdrop : sep ∉ a.dropWhile isSpace := fun h => ha ((List.dropWhile_suffix _).subset h)
    have hcut : (a ++ sep :: b).dropWhile isSpace = a.dropWhile isSpace ++ sep :: b := by
      rw [List.dropWhile_append]
      split_ifs with hblank
      · rw [List.isEmpty_iff.mp hblank, List.dropWhile_cons_of_neg (by simp [hsep])]
        rfl
      · rfl
    rw [hcut, fields_append, fields_append, fields_of_notMem ha, fields_of_notMem hdrop,
      strip_dropWhile]

theorem fields_concat_space (hsep : isSpace sep = false) (hc : isSpace c = true) (text : Text) :
    fields sep (text ++ [c]) = fields sep text := by
  have hne : sep ≠ c := by
    rintro rfl
    rw [hsep] at hc
    cases hc
  induction text using fields_induction sep with
  | field a ha =>
    rw [fields_of_notMem ha, fields_of_notMem (by simp [ha, hne]), strip_concat_space hc]
  | cut a b ha ih =>
    rw [List.append_assoc, List.cons_append, fields_append, fields_append, ih]

/-- The fields are stripped anyway. -/
theorem fields_strip (hsep : isSpace sep = false) (text : Text) :
    fields sep (strip text) = fields sep text := by
  rw [← fields_dropWhile hsep text, strip]
  generalize text.dropWhile isSpace = text
  induction text using List.reverseRecOn with
  | nil => rfl
  | append_singleton text c ih =>
    by_cases hc : isSpace c = true
    · rw [List.rdropWhile_concat_pos _ _ _ hc, ih, fields_concat_space hsep hc]
    · rw [List.rdropWhile_concat_neg _ _ _ hc]

theorem fields_cons_space (hsep : isSpace sep = false) (hc : isSpace c = true) (text : Text) :
    fields sep (c :: text) = fields sep text := by
  rw [← fields_dropWhile hsep, List.dropWhile_cons_of_pos hc, fields_dropWhile hsep]

/-- Texts written one behind the other, with a separator and a space between them. -/
theorem fields_intercalate (hsep : isSpace sep = false) {texts : List Text} (hne : texts ≠ [])
    (whole : ∀ text ∈ texts, sep ∉ text) :
    fields sep (List.intercalate [sep, ' '] texts) = texts.map strip := by
  induction texts with
  | nil => exact absurd rfl hne
  | cons text rest ih =>
    obtain ⟨htext, hrest⟩ := List.forall_mem_cons.mp whole
    cases rest with
    | nil => rw [List.intercalate_singleton, fields_of_notMem htext, List.map_singleton]
    | cons next rest =>
      rw [List.intercalate_cons_cons, List.append_assoc, List.cons_append, List.singleton_append,
        fields_append, fields_of_notMem htext, fields_cons_space hsep (by decide),
        ih (List.cons_ne_nil _ _) hrest]
      rfl

end Fields

end PythonText
