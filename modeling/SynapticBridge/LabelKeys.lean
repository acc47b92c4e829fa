import SynapticBridge.Metrics

/-! Which label dictionaries share a series. The key of a series does not escape the values, so a
value that contains the start of another label reads as two labels. -/
namespace LabelKeys

open OrderedDict QuotedEntries Metrics

variable {labels labels' : Dict String String} {items : List (String × String)}

section Items

theorem sortedItems_perm (labels : Dict String String) :
    (sortedItems labels).Perm labels.entries := List.perm_insertionSort _ _

/-- Names ascend strictly, as each occurs once. -/
def Ascending (items : List (String × String)) : Prop := items.Pairwise fun p q => p.1 < q.1

theorem sortedItems_ascending (labels : Dict String String) : Ascending (sortedItems labels) := by
  have hle : (sortedItems labels).Pairwise fun p q => p.1 ≤ q.1 := by
    have htrans : IsTrans (String × String) fun p q => p.1 ≤ q.1 := ⟨fun _ _ _ => le_trans⟩
    have htotal : Std.Total fun p q : String × String => p.1 ≤ q.1 :=
      ⟨fun p q => le_total p.1 q.1⟩
    exact List.pairwise_insertionSort _ _
  have hne : (sortedItems labels).Pairwise fun p q => p.1 ≠ q.1 := by
    rw [← List.pairwise_map (f := Prod.fst) (R := (· ≠ ·))]
    exact ((sortedItems_perm labels).map Prod.fst).nodup_iff.mpr labels.nodup
  exact (hle.and hne).imp fun h => lt_of_le_of_ne h.1 h.2

/-- Ascending lists with the same members are equal. -/
theorem Ascending.eq_of_mem_iff {items items' : List (String × String)} (h : Ascending items)
    (h' : Ascending items') (hmem : ∀ p, p ∈ items ↔ p ∈ items') : items = items' := by
  have hnodup : ∀ {l : List (String × String)}, Ascending l → l.Nodup :=
    fun hl => hl.imp fun {p q} hlt heq => absurd (congrArg Prod.fst heq) hlt.ne
  apply ((List.perm_ext_iff_of_nodup (hnodup h) (hnodup h')).mpr hmem).eq_of_pairwise _ h h'
  intro p q _ _ hpq hqp
  exact absurd hqp hpq.not_gt

theorem ascending_singleton (p : String × String) : Ascending [p] := List.pairwise_singleton _ _

/-- The dictionary with these items. -/
def ofItems (items : List (String × String)) (h : Ascending items) : Dict String String where
  entries := items
  nodup := List.pairwise_map.mpr (h.imp fun h => h.ne)

theorem sortedItems_ofItems (h : Ascending items) : sortedItems (ofItems items h) = items :=
  (sortedItems_ascending _).eq_of_mem_iff h fun _ => (sortedItems_perm _).mem_iff

theorem same_iff : labels.Same labels' ↔ sortedItems labels = sortedItems labels' := by
  have hentries : ∀ (d : Dict String String) k v, d.get? k = some v ↔ (k, v) ∈ sortedItems d :=
    fun d k v => Dict.get?_eq_some.trans (sortedItems_perm d).mem_iff.symm
  constructor
  · intro hsame
    apply (sortedItems_ascending labels).eq_of_mem_iff (sortedItems_ascending labels')
    rintro ⟨k, v⟩
    rw [← hentries, ← hentries, hsame k]
  · intro heq k
    apply Option.ext
    intro v
    rw [hentries, hentries, heq]

theorem labelsKey_ofItems (h : Ascending items) : labelsKey (ofItems items h) = entries items := by
  rw [labelsKey, sortedItems_ofItems]

end Items

section Series

variable {K : Type} [Zero K] [Add K] [Sub K] [LinearOrder K]

/-- No update with the other labels touches what is stored for these, or without any for no labels.
The totals of a histogram are left out: they count every observation, whatever its labels. -/
structure Untouched (K : Type) [Zero K] [Add K] [Sub K] [LinearOrder K]
    (labels labels' : Dict String String) : Prop where
  counter : ∀ (c : Counter K) (value : K),
    (c.inc value labels').labelValues.get? (labelsKey labels) =
      c.labelValues.get? (labelsKey labels)
  gauge : ∀ (g : Gauge K) (f : K → K), (g.update f labels').labelValues.get? (labelsKey labels) =
    g.labelValues.get? (labelsKey labels)
  histogram : ∀ (h : Histogram K) (value : K),
    (h.observe value labels').labeledData.get? (labelsKey labels) =
      h.labeledData.get? (labelsKey labels)
  counterValue : labels.entries = [] → ∀ (c : Counter K) (value : K),
    (c.inc value labels').value = c.value
  gaugeValue : labels.entries = [] → ∀ (g : Gauge K) (f : K → K),
    (g.update f labels').value = g.value

theorem entries_ne_nil_of_key_ne (h : labelsKey labels' ≠ labelsKey labels)
    (hempty : labels.entries = []) : labels'.entries ≠ [] := by
  intro hempty'
  apply h
  rw [labelsKey, labelsKey, sortedItems, sortedItems, hempty, hempty']

/-- Updates are stored under the key of their labels and nowhere else. -/
theorem untouched_of_key_ne (h : labelsKey labels' ≠ labelsKey labels) :
    Untouched K labels labels' where
  counter := by
    intro c value
    rw [Counter.inc]
    split_ifs with hempty
    · rfl
    · exact Dict.get?_set_of_ne _ h.symm _
  gauge := by
    intro g f
    rw [Gauge.update]
    split_ifs with hempty
    · rfl
    · exact Dict.get?_set_of_ne _ h.symm _
  histogram := by
    intro h' value
    rw [Histogram.observe]
    split_ifs with hempty
    · rfl
    · exact Dict.get?_set_of_ne _ h.symm _
  counterValue := by
    intro hempty c value
    rw [Counter.inc, if_neg (entries_ne_nil_of_key_ne h hempty)]
  gaugeValue := by
    intro hempty g f
    rw [Gauge.update, if_neg (entries_ne_nil_of_key_ne h hempty)]

/-- All names are identifiers. -/
def Named (Identifier : String → Prop) (labels : Dict String String) : Prop :=
  ∀ p ∈ labels.entries, Identifier p.1

/-- There is at most one label, and its value does not go on with another label. -/
def Alone (Identifier : String → Prop) (labels : Dict String String) : Prop :=
  labels.entries = [] ∨ ∃ name value, labels.entries = [(name, value)] ∧
    ∀ before name' after, Identifier name' → name < name' → value ≠ merged before name' after

variable {Identifier : String → Prop}

theorem Named.sorted (h : Named Identifier labels) :
    ∀ p ∈ sortedItems labels, Identifier p.1 :=
  fun p hp => h p ((sortedItems_perm labels).mem_iff.mp hp)

theorem entries_of_sorted_nil (h : sortedItems labels = []) : labels.entries = [] :=
  List.perm_nil.mp (h ▸ (sortedItems_perm labels).symm)

theorem entries_of_sorted_singleton {p : String × String} (h : sortedItems labels = [p]) :
    labels.entries = [p] := List.perm_singleton.mp (h ▸ (sortedItems_perm labels).symm)

/-- Other labels with the same text have the key in common. -/
theorem shared_of_entries (hascending : Ascending items) (hnamed : ∀ p ∈ items, Identifier p.1)
    (hlength : items.length ≠ (sortedItems labels).length)
    (hkey : entries items = labelsKey labels) :
    ∃ labels', Named Identifier labels' ∧ ¬ labels'.Same labels ∧
      labelsKey labels' = labelsKey labels := by
  refine ⟨ofItems items hascending, hnamed, ?_, ?_⟩
  · rw [same_iff, sortedItems_ofItems]
    exact fun heq => hlength (congrArg List.length heq)
  · rw [labelsKey_ofItems, hkey]

/-- Two labels or more have a key in common with one label less. -/
theorem shared_of_two {p q : String × String} {ps : List (String × String)}
    (hl : Named Identifier labels) (h : sortedItems labels = p :: q :: ps) :
    ∃ labels', Named Identifier labels' ∧ ¬ labels'.Same labels ∧
      labelsKey labels' = labelsKey labels := by
  have hascending := sortedItems_ascending labels
  have hnamed := hl.sorted
  rw [h] at hascending hnamed
  have hmerged : Ascending ((p.1, merged p.2 q.1 q.2) :: ps) := by
    obtain ⟨hp, hrest⟩ := List.pairwise_cons.mp hascending
    exact List.pairwise_cons.mpr
      ⟨fun r hr => hp r (List.mem_cons_of_mem _ hr), (List.pairwise_cons.mp hrest).2⟩
  apply shared_of_entries hmerged
  · intro r hr
    rcases List.mem_cons.mp hr with rfl | hr
    · exact hnamed p List.mem_cons_self
    · exact hnamed r (List.mem_cons_of_mem _ (List.mem_cons_of_mem _ hr))
  · simp [h]
  · rw [labelsKey, h, entries_merged]

/-- One label whose value goes on with another label has a key in common with these two. -/
theorem shared_of_merged {name before name' after : String} (hlt : name < name')
    (hl : Named Identifier labels) (hname' : Identifier name')
    (h : sortedItems labels = [(name, merged before name' after)]) :
    ∃ labels', Named Identifier labels' ∧ ¬ labels'.Same labels ∧
      labelsKey labels' = labelsKey labels := by
  have hpair : Ascending [(name, before), (name', after)] := by simpa [Ascending] using hlt
  have hnamed := hl.sorted
  rw [h] at hnamed
  have hname : Identifier name := hnamed _ List.mem_cons_self
  apply shared_of_entries hpair
  · intro r hr
    rcases List.mem_cons.mp hr with rfl | hr
    · exact hname
    · obtain rfl := List.mem_singleton.mp hr
      exact hname'
  · simp [h]
  · rw [labelsKey, h, ← entries_merged]

theorem Alone.same (hid : ∀ name, Identifier name → '=' ∉ name.toList)
    (hl : Named Identifier labels) (hl' : Named Identifier labels')
    (halone : Alone Identifier labels) (hkey : labelsKey labels' = labelsKey labels) :
    labels'.Same labels := by
  rw [same_iff]
  have hequals : ∀ p ∈ sortedItems labels', '=' ∉ p.1.toList :=
    fun p hp => hid p.1 (hl'.sorted p hp)
  have hascending' := sortedItems_ascending labels'
  have hidentifier' := hl'.sorted
  rw [labelsKey, labelsKey] at hkey
  rcases halone with hnone | ⟨name, value, hone, hvalue⟩
  · have hitems : sortedItems labels = [] :=
      List.perm_nil.mp (hnone ▸ sortedItems_perm labels)
    rw [hitems, entries_nil, entries_eq_empty] at hkey
    rw [hitems, hkey]
  · have hitems : sortedItems labels = [(name, value)] :=
      List.perm_singleton.mp (hone ▸ sortedItems_perm labels)
    have hname : '=' ∉ name.toList := hid name (hl (name, value) (hone ▸ List.mem_cons_self))
    rw [hitems] at hkey ⊢
    cases hitems' : sortedItems labels' with
    | nil =>
      rw [hitems', entries_nil] at hkey
      exact absurd (entries_eq_empty.mp hkey.symm) (List.cons_ne_nil _ _)
    | cons q rest =>
      rw [hitems'] at hkey hequals hascending' hidentifier'
      have hq := hequals q List.mem_cons_self
      cases rest with
      | nil =>
        obtain ⟨hsame, hrest⟩ := first_name hq hname hkey
        have hvalues := (List.append_left_inj _).mp hrest
        rw [Prod.ext hsame (String.toList_inj.mp hvalues)]
      | cons r rest =>
        obtain ⟨hsame, after, hmerged⟩ := merged_of_second hname hq hkey.symm
        have hfirst : name = q.1 := hsame
        refine absurd hmerged (hvalue q.2 r.1 after ?_ ?_)
        · exact hidentifier' r (List.mem_cons_of_mem _ List.mem_cons_self)
        · rw [hfirst]
          exact (List.pairwise_cons.mp hascending').1 r List.mem_cons_self

/-- A dictionary has its series for itself exactly when it has at most one label and the value of
this label does not read as the start of another. -/
theorem own_series_iff (hid : ∀ name, Identifier name → '=' ∉ name.toList)
    (hl : Named Identifier labels) :
    (∀ labels', Named Identifier labels' → ¬ labels'.Same labels →
      labelsKey labels' ≠ labelsKey labels ∧ Untouched K labels labels') ↔
    Alone Identifier labels := by
  constructor
  · intro hown
    have hunshared : ¬ ∃ labels', Named Identifier labels' ∧ ¬ labels'.Same labels ∧
        labelsKey labels' = labelsKey labels := by
      rintro ⟨labels', hl', hother, hkey⟩
      exact (hown labels' hl' hother).1 hkey
    cases hitems : sortedItems labels with
    | nil => exact .inl (entries_of_sorted_nil hitems)
    | cons p rest =>
      cases rest with
      | nil =>
        refine .inr ⟨p.1, p.2, entries_of_sorted_singleton hitems, ?_⟩
        intro before name' after hname' hlt hmerged
        exact hunshared (shared_of_merged hlt hl hname' (by rw [hitems, ← hmerged]))
      | cons q rest => exact absurd (shared_of_two hl hitems) hunshared
  · intro halone labels' hl' hother
    have hkey : labelsKey labels' ≠ labelsKey labels :=
      fun hkey => hother (halone.same hid hl hl' hkey)
    exact ⟨hkey, untouched_of_key_ne hkey⟩

end Series

/-! One label, and one label that reads as two. -/

/-- Letters only, among the identifiers. -/
def sampleIdentifier (name : String) : Prop := name = "a" ∨ name = "b"

theorem sampleIdentifier_equals (name : String) (h : sampleIdentifier name) :
    '=' ∉ name.toList := by
  rcases h with rfl | rfl
  · decide
  · decide

def sampleLabels (value : String) : Dict String String :=
  ofItems [("a", value)] (ascending_singleton _)

theorem sampleLabels_named (value : String) : Named sampleIdentifier (sampleLabels value) := by
  intro p hp
  obtain rfl := List.mem_singleton.mp hp
  exact .inl rfl

theorem own_series_sample : labelsKey (sampleLabels "2") ≠ labelsKey (sampleLabels "1") ∧
    Untouched ℕ (sampleLabels "1") (sampleLabels "2") := by
  refine (own_series_iff sampleIdentifier_equals (sampleLabels_named "1")).mpr
    (.inr ⟨"a", "1", rfl, ?_⟩) _ (sampleLabels_named "2") ?_
  · intro before name' after _ _ hmerged
    have hquote : '"' ∈ ("1" : String).toList := by
      rw [hmerged]
      simp [merged]
    simp at hquote
  · intro hsame
    have hvalue : some "2" = some "1" := hsame "a"
    simp at hvalue

theorem samplePair_ascending : Ascending [("a", "1"), ("b", "2")] := by
  have hlt : "a" < "b" := String.lt_iff_toList_lt.mpr (by decide)
  simpa [Ascending] using hlt

def samplePair : Dict String String := ofItems [("a", "1"), ("b", "2")] samplePair_ascending

/-- Counting for one of the two counts for the other. -/
theorem series_shared : Named sampleIdentifier samplePair ∧
    Named sampleIdentifier (sampleLabels (merged "1" "b" "2")) ∧
    ¬ samplePair.Same (sampleLabels (merged "1" "b" "2")) ∧
    labelsKey samplePair = labelsKey (sampleLabels (merged "1" "b" "2")) ∧
    ((Counter.new "c" "" : Counter ℕ).inc 1 samplePair).labelValues.get?
      (labelsKey (sampleLabels (merged "1" "b" "2"))) = some 1 := by
  have hkey : labelsKey samplePair = labelsKey (sampleLabels (merged "1" "b" "2")) := by
    rw [samplePair, sampleLabels, labelsKey_ofItems, labelsKey_ofItems]
    exact (entries_merged ("a", "1") ("b", "2") []).symm
  refine ⟨?_, sampleLabels_named _, ?_, hkey, ?_⟩
  · intro p hp
    rcases List.mem_cons.mp hp with rfl | hp
    · exact .inl rfl
    · obtain rfl := List.mem_singleton.mp hp
      exact .inr rfl
  · intro hsame
    have := hsame "b"
    cases this
  · have hsome : samplePair.entries ≠ [] := List.cons_ne_nil _ _
    rw [← hkey, Counter.inc, if_neg hsome, Dict.get?_set_self]
    rfl

end LabelKeys
