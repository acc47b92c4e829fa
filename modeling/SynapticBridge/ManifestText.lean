import SynapticBridge.Domain
import SynapticBridge.QuotedEntries
import Mathlib.Data.List.Basic

/-! The TOML text of a tool manifest. Texts stand between quotes as they are, so one that holds
the lines which follow it can be read in two ways. -/
namespace ManifestText

open Domain QuotedEntries

section Text

/-- `c.value`. -/
def capabilityValue : CapabilityType → String
  | .read => "read"
  | .write => "write"
  | .execute => "execute"
  | .network => "network"

def auditLevelValue : AuditLevel → String
  | .none => "none"
  | .summary => "summary"
  | .full => "full"

def quoted (c : CapabilityType) : String := "\"" ++ capabilityValue c ++ "\""

/-- `str(b).lower()`. -/
def lowerBool (b : Bool) : String := if b then "true" else "false"

/-- The capabilities are listed in the order in which their set is iterated. -/
def toToml (m : ToolManifest) : String :=
  let caps := ", ".intercalate (m.capabilities.map quoted)
  "[" ++ m.toolName ++ "]\ncapabilities = [" ++ caps ++ "]\nscope = \"" ++ m.scope ++
    "\"\nttl_seconds = " ++ toString m.ttlSeconds ++ "\nnetwork_egress = " ++
    lowerBool m.networkEgress ++ "\naudit_level = \"" ++ auditLevelValue m.auditLevel ++
    "\"\nsignature = \"" ++ m.signature ++ "\"\n"

/-- What the manifest says about its tool; the version and the time of creation are not printed. -/
structure SameContract (m m' : ToolManifest) : Prop where
  toolName : m.toolName = m'.toolName
  capabilities : m.capabilities = m'.capabilities
  scope : m.scope = m'.scope
  ttlSeconds : m.ttlSeconds = m'.ttlSeconds
  networkEgress : m.networkEgress = m'.networkEgress
  auditLevel : m.auditLevel = m'.auditLevel
  signature : m.signature = m'.signature

end Text

/-! The lines between the free texts: one block names the capabilities, one the flags. -/

section Lines

structure Flags where
  ttlSeconds : ℤ
  networkEgress : Bool
  auditLevel : AuditLevel
  ttl_pos : 0 < ttlSeconds

def capabilityList (capabilities : List CapabilityType) : List Char :=
  (", ".intercalate (capabilities.map quoted)).toList

/-- Between a tool name and a scope, up to the bracket that closes the list. -/
def listed (capabilities : List CapabilityType) : List Char :=
  "\ncapabilities = [".toList ++ capabilityList capabilities

def scopeStart : List Char := "\nscope = \"".toList

def capabilityLines (capabilities : List CapabilityType) : List Char :=
  ']' :: (listed capabilities ++ ']' :: scopeStart)

/-- Between a scope and a signature, up to the audit level. -/
def settings (f : Flags) : List Char :=
  "\nttl_seconds = ".toList ++ ((toString f.ttlSeconds).toList ++
    '\n' :: ("network_egress = ".toList ++ ((lowerBool f.networkEgress).toList ++
      "\naudit_level = ".toList)))

def signatureStart : List Char := "\nsignature = ".toList

/-- The lines of the flags without the quote that opens the signature. -/
def flagText (f : Flags) : List Char :=
  '"' :: (settings f ++ '"' :: ((auditLevelValue f.auditLevel).toList ++ '"' :: signatureStart))

def flagLines (f : Flags) : List Char := flagText f ++ ['"']

def flags (m : ToolManifest) : Flags := ⟨m.ttlSeconds, m.networkEgress, m.auditLevel, m.ttl_pos⟩

variable {m m' : ToolManifest} {c c' : List CapabilityType} {f f' : Flags} {x y : List Char}

theorem toToml_toList (m : ToolManifest) : (toToml m).toList =
    '[' :: (m.toolName.toList ++ (capabilityLines m.capabilities ++ (m.scope.toList ++
      (flagLines (flags m) ++ (m.signature.toList ++ "\"\n".toList))))) := by
  have hcapabilities : "]\ncapabilities = [".toList = ']' :: "\ncapabilities = [".toList := rfl
  have hscope : "]\nscope = \"".toList = ']' :: scopeStart := rfl
  have httl : "\"\nttl_seconds = ".toList = '"' :: "\nttl_seconds = ".toList := rfl
  have hegress : "\nnetwork_egress = ".toList = '\n' :: "network_egress = ".toList := rfl
  have hlevel : "\naudit_level = \"".toList = "\naudit_level = ".toList ++ ['"'] := rfl
  have hsignature : "\"\nsignature = \"".toList = '"' :: (signatureStart ++ ['"']) := rfl
  unfold toToml capabilityLines listed capabilityList flagLines flagText settings flags
  simp only [String.toList_append, hcapabilities, hscope, httl, hegress, hlevel, hsignature,
    List.append_assoc, List.cons_append, List.nil_append]
  rfl

theorem capabilityValue_injective : Function.Injective capabilityValue := by
  intro a b h
  cases a <;> cases b <;> first | rfl | simp [capabilityValue] at h

theorem auditLevelValue_injective : Function.Injective auditLevelValue := by
  intro a b h
  cases a <;> cases b <;> first | rfl | simp [auditLevelValue] at h

theorem lowerBool_injective : Function.Injective lowerBool := by
  intro a b h
  cases a <;> cases b <;> first | rfl | simp [lowerBool] at h

/-- A positive number is printed in digits, and read back from them. -/
theorem toString_digits {n : ℤ} (hn : 0 < n) :
    (toString n).toList = Nat.toDigits 10 n.toNat := by
  obtain ⟨k, rfl⟩ := Int.eq_ofNat_of_zero_le hn.le
  exact Nat.toList_repr

theorem toString_injective {n n' : ℤ} (hn : 0 < n) (hn' : 0 < n')
    (h : (toString n).toList = (toString n').toList) : n = n' := by
  rw [toString_digits hn, toString_digits hn'] at h
  have hnat : n.toNat = n'.toNat := by
    rw [← Nat.ofDigitChars_ten_toDigits (n := n.toNat), h, Nat.ofDigitChars_ten_toDigits]
  omega

theorem digits_notMem {n : ℤ} (hn : 0 < n) {d : Char} (hd : d.isDigit = false) :
    d ∉ (toString n).toList := by
  rw [toString_digits hn]
  intro hmem
  have hdigit := Nat.isDigit_of_mem_toDigits (by decide) (by decide) hmem
  rw [hd] at hdigit
  cases hdigit

/-- What follows the first capability. -/
def moreCapabilities (capabilities : List CapabilityType) : List Char :=
  if capabilities = [] then [] else ", ".toList ++ capabilityList capabilities

theorem capabilityList_nil : capabilityList [] = [] := by simp [capabilityList]

theorem capabilityList_cons (a : CapabilityType) (c : List CapabilityType) :
    capabilityList (a :: c) =
      '"' :: ((capabilityValue a).toList ++ '"' :: moreCapabilities c) := by
  unfold capabilityList moreCapabilities
  split_ifs with hc
  · subst hc
    simp [quoted]
  · rw [List.map_cons, String.intercalate_cons_of_ne_nil (by simpa using hc)]
    simp [quoted, capabilityList]

theorem capabilityList_injective (h : capabilityList c = capabilityList c') : c = c' := by
  have hquote : ∀ a, '"' ∉ (capabilityValue a).toList := by
    intro a
    cases a <;> decide
  induction c generalizing c' with
  | nil =>
    cases c' with
    | nil => rfl
    | cons b c' =>
      rw [capabilityList_nil, capabilityList_cons] at h
      cases h
  | cons a c ih =>
    cases c' with
    | nil =>
      rw [capabilityList_nil, capabilityList_cons] at h
      cases h
    | cons b c' =>
      rw [capabilityList_cons, capabilityList_cons] at h
      obtain ⟨hvalue, hmore⟩ := cut_unique (hquote a) (hquote b) (List.tail_eq_of_cons_eq h)
      have hab : a = b := capabilityValue_injective (String.toList_inj.mp hvalue)
      unfold moreCapabilities at hmore
      split_ifs at hmore with hc hc' hc'
      · rw [hab, hc, hc']
      · simp at hmore
      · simp at hmore
      · rw [hab, ih (List.append_cancel_left hmore)]

theorem bracket_notMem_listed (c : List CapabilityType) : ']' ∉ listed c := by
  have hvalue : ∀ a, ']' ∉ (capabilityValue a).toList := by
    intro a
    cases a <;> decide
  have hstart : ']' ∉ "\ncapabilities = [".toList := by decide
  have hlist : ']' ∉ capabilityList c := by
    induction c with
    | nil => simp [capabilityList_nil]
    | cons a c ih =>
      rw [capabilityList_cons, moreCapabilities]
      split_ifs with hc
      · simp [hvalue a]
      · simp [hvalue a, ih]
  unfold listed
  rw [List.mem_append, not_or]
  exact ⟨hstart, hlist⟩

theorem quote_notMem_settings (f : Flags) : '"' ∉ settings f := by
  have hdigits := digits_notMem f.ttl_pos (d := '"') rfl
  have hegress : '"' ∉ (lowerBool f.networkEgress).toList := by
    cases f.networkEgress <;> decide
  have hstart : '"' ∉ "\nttl_seconds = ".toList := by decide
  have hnetwork : '"' ∉ "network_egress = ".toList := by decide
  have hlevel : '"' ∉ "\naudit_level = ".toList := by decide
  unfold settings
  rw [List.mem_append, List.mem_append, List.mem_cons, List.mem_append, List.mem_append]
  rintro (h | h | h | h | h | h)
  · exact hstart h
  · exact hdigits h
  · cases h
  · exact hnetwork h
  · exact hegress h
  · exact hlevel h

theorem quote_notMem_level (f : Flags) : '"' ∉ (auditLevelValue f.auditLevel).toList := by
  cases f.auditLevel <;> decide

/-- Blocks at one place are one block. -/
theorem capabilityLines_unique (h : capabilityLines c ++ x = capabilityLines c' ++ y) :
    c = c' ∧ x = y := by
  unfold capabilityLines at h
  simp only [List.cons_append, List.append_assoc] at h
  obtain ⟨hlisted, hrest⟩ := cut_unique (bracket_notMem_listed c) (bracket_notMem_listed c')
    (List.tail_eq_of_cons_eq h)
  exact ⟨capabilityList_injective (List.append_cancel_left hlisted),
    List.append_cancel_left hrest⟩

theorem settings_injective (h : settings f = settings f') :
    f.ttlSeconds = f'.ttlSeconds ∧ f.networkEgress = f'.networkEgress := by
  unfold settings at h
  obtain ⟨hdigits, hrest⟩ := cut_unique (digits_notMem f.ttl_pos rfl) (digits_notMem f'.ttl_pos rfl)
    (List.append_cancel_left h)
  have hegress := List.append_cancel_right (List.append_cancel_left hrest)
  exact ⟨toString_injective f.ttl_pos f'.ttl_pos hdigits,
    lowerBool_injective (String.toList_inj.mp hegress)⟩

theorem flagLines_unique (h : flagLines f ++ x = flagLines f' ++ y) : f = f' ∧ x = y := by
  unfold flagLines flagText at h
  simp only [List.cons_append, List.append_assoc] at h
  obtain ⟨hsettings, hrest⟩ := cut_unique (quote_notMem_settings f) (quote_notMem_settings f')
    (List.tail_eq_of_cons_eq h)
  obtain ⟨hlevel, hrest⟩ := cut_unique (quote_notMem_level f) (quote_notMem_level f') hrest
  obtain ⟨httl, hegress⟩ := settings_injective hsettings
  have haudit := auditLevelValue_injective (String.toList_inj.mp hlevel)
  refine ⟨?_, List.tail_eq_of_cons_eq (List.append_cancel_left hrest)⟩
  obtain ⟨ttl, egress, level, ttl_pos⟩ := f
  obtain ⟨ttl', egress', level', ttl_pos'⟩ := f'
  simp only at httl hegress haudit
  subst httl hegress haudit
  rfl

theorem listed_start (c : List CapabilityType) : ∃ rest, listed c = '\n' :: 'c' :: rest := ⟨_, rfl⟩

theorem settings_start (f : Flags) : ∃ rest, settings f = '\n' :: 't' :: rest := ⟨_, rfl⟩

theorem level_start (f : Flags) : ∃ letter word, letter ≠ '\n' ∧
    (auditLevelValue f.auditLevel).toList = letter :: word := by
  cases f.auditLevel with
  | none => exact ⟨'n', _, by decide, rfl⟩
  | summary => exact ⟨'s', _, by decide, rfl⟩
  | full => exact ⟨'f', _, by decide, rfl⟩

/-- Blocks of capabilities do not overlap: behind the inner bracket comes the scope. -/
theorem capabilityLines_apart {d : List Char} (hd : d ≠ [])
    (h : capabilityLines c ++ x = d ++ (capabilityLines c' ++ y)) :
    ∃ e, d = capabilityLines c ++ e ∧ x = e ++ (capabilityLines c' ++ y) := by
  rcases List.append_eq_append_iff.mp h with ⟨e, he, hx⟩ | ⟨w, hw, hx⟩
  · exact ⟨e, he, hx⟩
  · cases w with
    | nil => exact ⟨[], by simpa using hw.symm, by simpa using hx.symm⟩
    | cons b w =>
      obtain ⟨a, d, rfl⟩ := List.exists_cons_of_ne_nil hd
      obtain ⟨rfl, hlines⟩ := List.cons_eq_cons.mp hx
      obtain ⟨-, hinside⟩ := List.cons_eq_cons.mp hw
      obtain ⟨rest, rfl, hafter⟩ := cut_next (bracket_notMem_listed c) hinside.symm
      have hscope : ']' ∉ scopeStart := by decide
      cases rest with
      | nil =>
        obtain ⟨-, rfl⟩ := List.cons_eq_cons.mp hafter
        obtain ⟨rest, hlisted⟩ := listed_start c'
        rw [hlisted] at hlines
        cases hlines
      | cons b rest =>
        obtain ⟨-, hlater⟩ := List.cons_eq_cons.mp hafter
        exact absurd (hlater ▸ by simp) hscope

/-- Blocks of flags overlap in one quote at most: no other quote is followed by a number of
seconds. -/
theorem flagLines_apart {d : List Char} (hd : d ≠ [])
    (h : flagText f ++ x = d ++ (flagLines f' ++ y)) :
    ∃ e, d = flagText f ++ e ∧ x = e ++ (flagLines f' ++ y) := by
  rcases List.append_eq_append_iff.mp h with ⟨e, he, hx⟩ | ⟨w, hw, hx⟩
  · exact ⟨e, he, hx⟩
  · cases w with
    | nil => exact ⟨[], by simpa using hw.symm, by simpa using hx.symm⟩
    | cons b w =>
      obtain ⟨a, d, rfl⟩ := List.exists_cons_of_ne_nil hd
      obtain ⟨rfl, hlines⟩ := List.cons_eq_cons.mp hx
      obtain ⟨-, hinside⟩ := List.cons_eq_cons.mp hw
      obtain ⟨inner, hsettings⟩ := settings_start f'
      obtain ⟨rest, rfl, hlevel⟩ := cut_next (quote_notMem_settings f) hinside.symm
      have hsignature : '"' ∉ signatureStart := by decide
      cases rest with
      | nil =>
        obtain ⟨-, rfl⟩ := List.cons_eq_cons.mp hlevel
        obtain ⟨letter, word, hletter, hword⟩ := level_start f
        rw [hsettings, hword] at hlines
        exact absurd (List.cons_eq_cons.mp hlines).1.symm hletter
      | cons b rest =>
        obtain ⟨-, hlater⟩ := List.cons_eq_cons.mp hlevel
        obtain ⟨rest, rfl, hstart⟩ := cut_next (quote_notMem_level f) hlater
        cases rest with
        | nil =>
          obtain ⟨-, rfl⟩ := List.cons_eq_cons.mp hstart
          rw [hsettings] at hlines
          cases hlines
        | cons b rest =>
          obtain ⟨-, hlast⟩ := List.cons_eq_cons.mp hstart
          exact absurd (hlast ▸ by simp) hsignature

end Lines

/-! A text has one reading exactly when no free text holds a block of lines. -/

section Readings

variable {order : List CapabilityType} {m m' : ToolManifest}

/-- The texts of the manifest hold no block of lines that could be taken for its own. The quote
before the first flag may end a block in the scope, and the one before the signature may begin a
block in it; a name cannot be empty. -/
structure Plain (order : List CapabilityType) (m : ToolManifest) : Prop where
  toolName : ∀ c, c.Sublist order → ¬ capabilityLines c <:+: m.toolName.toList.tail
  scope : ∀ c, c.Sublist order → ¬ capabilityLines c <:+: m.scope.toList
  scope_end : ∀ f, ¬ flagLines f <:+: m.scope.toList ++ ['"']
  signature : ∀ f, ¬ flagLines f <:+: '"' :: m.signature.toList

/-- The text without its first and last characters. -/
def body (m : ToolManifest) : List Char :=
  m.toolName.toList ++ (capabilityLines m.capabilities ++
    (m.scope.toList ++ (flagLines (flags m) ++ m.signature.toList)))

theorem toToml_eq_iff : toToml m = toToml m' ↔ body m = body m' := by
  have hbody : ∀ m, (toToml m).toList = '[' :: (body m ++ "\"\n".toList) := by
    intro m
    rw [toToml_toList, body]
    simp only [List.append_assoc]
  rw [← String.toList_inj, hbody, hbody, List.cons_inj_right, List.append_left_inj]

theorem flags_inj (h : flags m = flags m') : m.ttlSeconds = m'.ttlSeconds ∧
    m.networkEgress = m'.networkEgress ∧ m.auditLevel = m'.auditLevel := by
  unfold flags at h
  injection h with httl hegress hlevel
  exact ⟨httl, hegress, hlevel⟩

/-- What begins or ends with a quote, as the end of one block of flags does. -/
theorem quote_first {e g x : List Char} (h : '"' :: g = e ++ ('"' :: x)) :
    ∃ rest, e ++ ['"'] = '"' :: rest := by
  cases e with
  | nil => exact ⟨[], rfl⟩
  | cons a e =>
    obtain ⟨rfl, -⟩ := List.cons_eq_cons.mp h
    exact ⟨_, rfl⟩

theorem flagLines_append (f : Flags) (g : List Char) :
    flagLines f ++ g = flagText f ++ '"' :: g := by
  simp [flagLines]

/-- From the scope on there is one reading. -/
theorem flags_reading {s s' g g' : List Char} {f f' : Flags}
    (hscope : ∀ f, ¬ flagLines f <:+: s ++ ['"']) (hsignature : ∀ f, ¬ flagLines f <:+: '"' :: g)
    (h : s' ++ (flagLines f' ++ g') = s ++ (flagLines f ++ g)) : s' = s ∧ f' = f ∧ g' = g := by
  rcases List.append_eq_append_iff.mp h with ⟨d, rfl, hd⟩ | ⟨d, rfl, hd⟩
  · by_cases hnil : d = []
    · subst hnil
      exact ⟨(List.append_nil s').symm, flagLines_unique hd⟩
    · rw [flagLines_append f'] at hd
      obtain ⟨e, rfl, he⟩ := flagLines_apart hnil hd
      obtain ⟨rest, hrest⟩ := quote_first he
      refine absurd ⟨s', rest, ?_⟩ (hscope f')
      simp only [flagLines, List.append_assoc, hrest, List.cons_append, List.nil_append]
  · by_cases hnil : d = []
    · subst hnil
      obtain ⟨hf, hg⟩ := flagLines_unique hd
      exact ⟨List.append_nil s, hf.symm, hg.symm⟩
    · rw [flagLines_append f] at hd
      obtain ⟨e, rfl, he⟩ := flagLines_apart hnil hd
      refine absurd ⟨e, g', ?_⟩ (hsignature f')
      rw [he, List.append_assoc]

/-- A plain manifest has no other reading. -/
theorem Plain.sameContract (hplain : Plain order m) (hlisted : m'.capabilities.Sublist order)
    (h : body m' = body m) : SameContract m' m := by
  have hfrom_scope : ∀ {s' : List Char} {f' : Flags} {g' : List Char},
      s' ++ (flagLines f' ++ g') =
        m.scope.toList ++ (flagLines (flags m) ++ m.signature.toList) →
      s' = m.scope.toList ∧ f' = flags m ∧ g' = m.signature.toList :=
    fun heq => flags_reading hplain.scope_end hplain.signature heq
  have hsame : m'.toolName.toList = m.toolName.toList ∧ m'.capabilities = m.capabilities ∧
      m'.scope.toList ++ (flagLines (flags m') ++ m'.signature.toList) =
        m.scope.toList ++ (flagLines (flags m) ++ m.signature.toList) := by
    unfold body at h
    rcases List.append_eq_append_iff.mp h with ⟨d, hd, hlines⟩ | ⟨d, hd, hlines⟩
    · by_cases hnil : d = []
      · subst hnil
        exact ⟨by simpa using hd.symm, capabilityLines_unique hlines⟩
      · -- a block within the name, behind at least one character
        obtain ⟨e, rfl, -⟩ := capabilityLines_apart hnil hlines
        have hname : m'.toolName.toList ≠ [] := fun hempty =>
          m'.has_name (String.toList_eq_nil_iff.mp hempty)
        obtain ⟨a, name, hcons⟩ := List.exists_cons_of_ne_nil hname
        refine absurd ⟨name, e, ?_⟩ (hplain.toolName _ hlisted)
        rw [hd, hcons, List.cons_append, List.tail_cons, List.append_assoc]
    · by_cases hnil : d = []
      · subst hnil
        obtain ⟨hcapabilities, hrest⟩ := capabilityLines_unique hlines
        exact ⟨by simpa using hd, hcapabilities.symm, hrest.symm⟩
      · -- a block behind the first one, so within the scope
        obtain ⟨e, rfl, he⟩ := capabilityLines_apart hnil hlines
        have hsplit : e ++ (capabilityLines m'.capabilities ++ m'.scope.toList) ++
            (flagLines (flags m') ++ m'.signature.toList) =
              m.scope.toList ++ (flagLines (flags m) ++ m.signature.toList) := by
          rw [he]
          simp only [List.append_assoc]
        have hscope := (hfrom_scope hsplit).1
        refine absurd ⟨e, m'.scope.toList, ?_⟩ (hplain.scope _ hlisted)
        rw [← hscope, List.append_assoc]
  obtain ⟨hname, hcapabilities, hrest⟩ := hsame
  obtain ⟨hscope, hflags, hsignature⟩ := hfrom_scope hrest
  obtain ⟨httl, hegress, hlevel⟩ := flags_inj hflags
  exact ⟨String.toList_inj.mp hname, hcapabilities, String.toList_inj.mp hscope, httl, hegress,
    hlevel, String.toList_inj.mp hsignature⟩

/-- The manifest of a reading. -/
def ofReading (m : ToolManifest) (name : List Char) (c : List CapabilityType) (scope : List Char)
    (f : Flags) (signature : List Char) (hname : name ≠ []) : ToolManifest where
  toolName := String.ofList name
  version := m.version
  capabilities := c
  scope := String.ofList scope
  ttlSeconds := f.ttlSeconds
  networkEgress := f.networkEgress
  auditLevel := f.auditLevel
  signature := String.ofList signature
  ttl_pos := f.ttl_pos
  has_name := fun hempty => hname (by simpa using congrArg String.toList hempty)

theorem capabilityLines_length (c : List CapabilityType) : 0 < (capabilityLines c).length := by
  simp [capabilityLines]

theorem flagText_length (f : Flags) : 0 < (flagText f).length := by
  simp [flagText]

theorem body_ofReading (name : List Char) (c : List CapabilityType) (scope : List Char) (f : Flags)
    (signature : List Char) (hname : name ≠ []) :
    body (ofReading m name c scope f signature hname) =
      name ++ (capabilityLines c ++ (scope ++ (flagLines f ++ signature))) := by
  simp [body, ofReading, flags]

/-- A text determines the contract exactly when the manifest is plain. -/
theorem contract_determined_iff (hlisted : m.capabilities.Sublist order) :
    (∀ m' : ToolManifest, m'.capabilities.Sublist order → toToml m' = toToml m →
      SameContract m' m) ↔ Plain order m := by
  constructor
  · intro hdetermined
    have hreading : ∀ name c scope f signature, name ≠ [] → c.Sublist order →
        name ++ (capabilityLines c ++ (scope ++ (flagLines f ++ signature))) = body m →
        name = m.toolName.toList ∧ scope = m.scope.toList := by
      intro name c scope f signature hname hc hbody
      have hsame := hdetermined (ofReading m name c scope f signature hname) hc
        (toToml_eq_iff.mpr ((body_ofReading _ _ _ _ _ _).trans hbody))
      exact ⟨by simpa [ofReading] using congrArg String.toList hsame.toolName,
        by simpa [ofReading] using congrArg String.toList hsame.scope⟩
    have hname : m.toolName.toList ≠ [] := fun hempty =>
      m.has_name (String.toList_eq_nil_iff.mp hempty)
    constructor
    · rintro c hc ⟨before, after, heq⟩
      obtain ⟨a, name, hcons⟩ := List.exists_cons_of_ne_nil hname
      rw [hcons, List.tail_cons] at heq
      have hshorter := (hreading (a :: before) c
        (after ++ (capabilityLines m.capabilities ++ m.scope.toList)) (flags m)
        m.signature.toList (List.cons_ne_nil _ _) hc (by simp [body, hcons, ← heq])).1
      have hlength := congrArg List.length hshorter
      have hlines := capabilityLines_length c
      simp only [hcons, ← heq, List.length_cons, List.length_append] at hlength
      omega
    · rintro c hc ⟨before, after, heq⟩
      have hlonger := (hreading
        (m.toolName.toList ++ (capabilityLines m.capabilities ++ before)) c after (flags m)
        m.signature.toList (by simp [hname]) hc (by simp [body, ← heq])).1
      have hlength := congrArg List.length hlonger
      have hlines := capabilityLines_length m.capabilities
      simp only [List.length_append] at hlength
      omega
    · rintro f ⟨before, after, heq⟩
      obtain ⟨rest, hrest⟩ : ∃ rest, flagLines (flags m) = '"' :: rest := ⟨_, rfl⟩
      have hbody : m.toolName.toList ++ (capabilityLines m.capabilities ++ (before ++
          (flagLines f ++ (after ++ (rest ++ m.signature.toList))))) = body m := by
        have hsplit : m.scope.toList ++ ('"' :: rest ++ m.signature.toList) =
            before ++ flagLines f ++ after ++ (rest ++ m.signature.toList) := by
          rw [heq]
          simp
        rw [body, hrest, hsplit]
        simp only [List.append_assoc]
      have hshorter := (hreading _ _ _ _ _ hname hlisted hbody).2
      have hlength := congrArg List.length heq
      have hlines := flagText_length f
      simp only [hshorter, flagLines, List.length_append, List.length_singleton] at hlength
      omega
    · rintro f ⟨before, after, heq⟩
      have hlonger := (hreading m.toolName.toList m.capabilities
        (m.scope.toList ++ (flagText (flags m) ++ before)) f after hname hlisted
        (by simp [body, flagLines_append, ← heq])).2
      have hlength := congrArg List.length hlonger
      have hlines := flagText_length (flags m)
      simp only [List.length_append] at hlength
      omega
  · intro hplain m' hlisted' h
    exact hplain.sameContract hlisted' (toToml_eq_iff.mp h)

theorem newline_mem_capabilityLines (c : List CapabilityType) : '\n' ∈ capabilityLines c := by
  have hstart : '\n' ∈ scopeStart := by decide
  exact List.mem_cons_of_mem _ (List.mem_append_right _ (List.mem_cons_of_mem _ hstart))

theorem newline_mem_flagLines (f : Flags) : '\n' ∈ flagLines f := by
  have hstart : '\n' ∈ "\nttl_seconds = ".toList := by decide
  have hsettings : '\n' ∈ settings f := List.mem_append_left _ hstart
  exact List.mem_append_left _ (List.mem_cons_of_mem _ (List.mem_append_left _ hsettings))

/-- Texts of one line each leave one reading. -/
theorem plain_of_lines (hname : '\n' ∉ m.toolName.toList) (hscope : '\n' ∉ m.scope.toList)
    (hsignature : '\n' ∉ m.signature.toList) : Plain order m := by
  constructor
  · intro c _ hblock
    exact hname (List.mem_of_mem_tail (hblock.mem (newline_mem_capabilityLines c)))
  · intro c _ hblock
    exact hscope (hblock.mem (newline_mem_capabilityLines c))
  · intro f hblock
    have hmem := hblock.mem (newline_mem_flagLines f)
    simp [hscope] at hmem
  · intro f hblock
    have hmem := hblock.mem (newline_mem_flagLines f)
    simp [hsignature] at hmem

end Readings

section Samples

theorem read_named : "filesystem.read" ≠ "" := by decide

theorem five_minutes_pos : (0 : ℤ) < 300 := by decide

/-- A tool that reads. -/
def reader (scope signature : String) (ttlSeconds : ℤ) (networkEgress : Bool)
    (h : 0 < ttlSeconds) : ToolManifest where
  toolName := "filesystem.read"
  version := "1.0.0"
  capabilities := [.read]
  scope := scope
  ttlSeconds := ttlSeconds
  networkEgress := networkEgress
  auditLevel := .full
  signature := signature
  ttl_pos := h
  has_name := read_named

theorem contract_determined_reader :
    Plain [.read, .write] (reader "/data" "c2ln" 300 false five_minutes_pos) ∧
      ∀ m' : ToolManifest, m'.capabilities.Sublist [.read, .write] →
        toToml m' = toToml (reader "/data" "c2ln" 300 false five_minutes_pos) →
          SameContract m' (reader "/data" "c2ln" 300 false five_minutes_pos) := by
  have hplain : Plain [.read, .write] (reader "/data" "c2ln" 300 false five_minutes_pos) :=
    plain_of_lines (by decide) (by decide) (by decide)
  exact ⟨hplain, (contract_determined_iff (by decide)).mpr hplain⟩

/-- Within five minutes and without network access, under a signature with lines of its own. -/
def confined : ToolManifest :=
  reader "/data"
    "a\"\nttl_seconds = 1\nnetwork_egress = true\naudit_level = \"full\"\nsignature = \"b"
    300 false five_minutes_pos

/-- The same lines, ordered otherwise: the first of them belong to the scope. -/
def letOut : ToolManifest :=
  reader
    "/data\"\nttl_seconds = 300\nnetwork_egress = false\naudit_level = \"full\"\nsignature = \"a"
    "b" 1 true Int.zero_lt_one

theorem contract_shared : confined.capabilities.Sublist [.read] ∧
    letOut.capabilities.Sublist [.read] ∧ toToml confined = toToml letOut ∧
      ¬ SameContract confined letOut := by
  refine ⟨by decide, by decide, by decide +kernel, ?_⟩
  intro hsame
  cases hsame.networkEgress

end Samples

end ManifestText
