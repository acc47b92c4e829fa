import Mathlib.Data.List.Basic

/-! Lists of named values as one text, `name="value"` with commas between. Quotes are not escaped,
so a text can be read back only while values do not end early. -/
namespace QuotedEntries

def entry (p : String × String) : String := p.1 ++ "=\"" ++ p.2 ++ "\""

def entries (ps : List (String × String)) : String := ",".intercalate (ps.map entry)

/-- What follows the first entry. -/
def following (ps : List (String × String)) : List Char :=
  if ps = [] then [] else ',' :: (entries ps).toList

variable {p q : String × String} {ps qs : List (String × String)}

theorem entry_toList (p : String × String) :
    (entry p).toList = p.1.toList ++ '=' :: '"' :: (p.2.toList ++ ['"']) := by
  simp [entry]

@[simp] theorem entries_nil : entries [] = "" := by simp [entries]

theorem entries_cons_toList (p : String × String) (ps : List (String × String)) :
    (entries (p :: ps)).toList =
      p.1.toList ++ '=' :: '"' :: (p.2.toList ++ '"' :: following ps) := by
  rw [following, entries]
  split_ifs with hps
  · subst hps
    simp [entry_toList]
  · rw [List.map_cons, String.intercalate_cons_of_ne_nil (by simpa using hps), ← entries]
    simp [entry_toList]

theorem following_nil : following [] = [] := if_pos rfl

theorem following_cons (p : String × String) (ps : List (String × String)) : following (p :: ps) =
    ',' :: (p.1.toList ++ '=' :: '"' :: (p.2.toList ++ '"' :: following ps)) := by
  rw [following, if_neg (List.cons_ne_nil _ _), entries_cons_toList]

/-- A text is cut in one way at the first place of a character. -/
theorem cut_unique {c : Char} {a b x y : List Char} (ha : c ∉ a) (hb : c ∉ b)
    (h : a ++ c :: x = b ++ c :: y) : a = b ∧ x = y := by
  induction a generalizing b with
  | nil =>
    cases b with
    | nil => exact ⟨rfl, List.tail_eq_of_cons_eq h⟩
    | cons d b =>
      obtain ⟨rfl, -⟩ := List.cons_eq_cons.mp h
      exact absurd List.mem_cons_self hb
  | cons d a ih =>
    cases b with
    | nil =>
      obtain ⟨rfl, -⟩ := List.cons_eq_cons.mp h
      exact absurd List.mem_cons_self ha
    | cons e b =>
      obtain ⟨hhead, htail⟩ := List.cons_eq_cons.mp h
      obtain ⟨hbefore, hafter⟩ := ih (fun hc => ha (List.mem_cons_of_mem _ hc))
        (fun hc => hb (List.mem_cons_of_mem _ hc)) htail
      exact ⟨by rw [hhead, hbefore], hafter⟩

/-- Behind a text without some character, that character stands right away or later. -/
theorem cut_next {c : Char} {a x b y : List Char} (ha : c ∉ a) (h : b ++ c :: y = a ++ x) :
    ∃ rest, b = a ++ rest ∧ rest ++ c :: y = x := by
  rcases List.append_eq_append_iff.mp h with ⟨rest, rfl, hrest⟩ | ⟨rest, rfl, rfl⟩
  · cases rest with
    | nil => exact ⟨[], by simp, hrest⟩
    | cons d rest =>
      obtain ⟨rfl, -⟩ := List.cons_eq_cons.mp hrest
      exact absurd (by simp) ha
  · exact ⟨rest, rfl, rfl⟩

theorem entries_eq_empty : entries ps = "" ↔ ps = [] := by
  constructor
  · intro h
    cases ps with
    | nil => rfl
    | cons p ps =>
      have hchars := congrArg String.toList h
      rw [entries_cons_toList] at hchars
      simp at hchars
  · rintro rfl
    exact entries_nil

/-- The first name of a text is what stands before its first equals sign. -/
theorem first_name (hp : '=' ∉ p.1.toList) (hq : '=' ∉ q.1.toList)
    (h : entries (p :: ps) = entries (q :: qs)) :
    p.1 = q.1 ∧ p.2.toList ++ '"' :: following ps = q.2.toList ++ '"' :: following qs := by
  have hchars := congrArg String.toList h
  rw [entries_cons_toList, entries_cons_toList] at hchars
  obtain ⟨hname, hrest⟩ := cut_unique hp hq hchars
  exact ⟨String.toList_inj.mp hname, List.tail_eq_of_cons_eq hrest⟩

/-- The value that reads as the rest of one entry and the whole of the next. -/
def merged (value name value' : String) : String := value ++ "\"," ++ name ++ "=\"" ++ value'

/-- Two entries in a row are one entry with a merged value. -/
theorem entries_merged (p q : String × String) (ps : List (String × String)) :
    entries ((p.1, merged p.2 q.1 q.2) :: ps) = entries (p :: q :: ps) := by
  apply String.toList_inj.mp
  rw [entries_cons_toList, entries_cons_toList, following_cons]
  simp [merged]

/-- A text ends with the quote of its last value. -/
theorem ends_quoted (value : List Char) (ps : List (String × String)) :
    ∃ before, value ++ '"' :: following ps = before ++ ['"'] := by
  induction ps generalizing value with
  | nil => exact ⟨value, by rw [following_nil]⟩
  | cons p ps ih =>
    obtain ⟨before, hbefore⟩ := ih p.2.toList
    refine ⟨value ++ '"' :: ',' :: (p.1.toList ++ '=' :: '"' :: before), ?_⟩
    rw [following_cons, hbefore]
    simp

/-- A text of one entry has another reading only when its value is merged from two. -/
theorem merged_of_second (hp : '=' ∉ p.1.toList) (hq : '=' ∉ q.1.toList) {r : String × String}
    (h : entries [p] = entries (q :: r :: ps)) :
    p.1 = q.1 ∧ ∃ value', p.2 = merged q.2 r.1 value' := by
  obtain ⟨hname, hrest⟩ := first_name hp hq h
  refine ⟨hname, ?_⟩
  obtain ⟨value', hvalue'⟩ := ends_quoted r.2.toList ps
  rw [following_nil, following_cons, hvalue'] at hrest
  refine ⟨String.ofList value', String.toList_inj.mp ?_⟩
  apply (List.append_left_inj ['"']).mp
  rw [hrest]
  simp [merged]

end QuotedEntries
