import SynapticBridge.HistogramCounts
import SynapticBridge.LabelKeys
import SynapticBridge.StepTraces
import Mathlib.Data.Finset.Basic

/-! The series that a registry exposes. A registered metric keeps its name but not the labels it was
registered with, so two registrations of one name can expose one series twice. Gauges and histograms
do so at once, counters when both count the same labels. -/
namespace ExposedSeries

open OrderedDict QuotedEntries Metrics LabelKeys StepTraces

variable {K : Type}

section Lines

/-- The labels between the braces of a line. -/
def labelSet (labels : String) : Finset (List Char) :=
  if labels = "" then ∅ else (labels.toList.splitOn ',').toFinset

def sampleKey : Line K → Option (String × Finset (List Char))
  | .comment _ => none
  | .sample name labels _ => some (name, labelSet labels)

/-- The metric names and label sets of the sample lines. -/
def sampleKeys (lines : List (Line K)) : List (String × Finset (List Char)) :=
  lines.filterMap sampleKey

end Lines

section Labels

variable {items items' : List (String × String)}

/-- Names and values that a reader of the text can tell apart. -/
def SafeItem (p : String × String) : Prop :=
  ('=' ∉ p.1.toList ∧ ',' ∉ p.1.toList) ∧ ',' ∉ p.2.toList ∧ '"' ∉ p.2.toList

theorem entry_injective {p q : String × String} (hp : '=' ∉ p.1.toList) (hq : '=' ∉ q.1.toList)
    (h : (entry p).toList = (entry q).toList) : p = q := by
  rw [entry_toList, entry_toList] at h
  obtain ⟨hname, hrest⟩ := cut_unique hp hq h
  have hvalue := (List.append_left_inj _).mp (List.tail_eq_of_cons_eq hrest)
  exact Prod.ext (String.toList_inj.mp hname) (String.toList_inj.mp hvalue)

theorem labelSet_entries (h : ∀ p ∈ items, SafeItem p) :
    labelSet (entries items) = (items.map fun p => (entry p).toList).toFinset := by
  rw [labelSet]
  split_ifs with hempty
  · rw [entries_eq_empty.mp hempty]
    rfl
  · have hne : items ≠ [] := fun hnil => hempty (entries_eq_empty.mpr hnil)
    have hsplit : (entries items).toList.splitOn ',' = items.map fun p => (entry p).toList := by
      rw [entries, String.toList_intercalate, List.map_map]
      refine List.splitOn_intercalate ',' ?_ (by simpa using hne)
      intro text htext
      obtain ⟨p, hp, rfl⟩ := List.mem_map.mp htext
      obtain ⟨⟨-, hname⟩, hvalue, -⟩ := h p hp
      simp [entry_toList, hname, hvalue]
    rw [hsplit]

/-- A label set tells its labels. -/
theorem mem_iff_of_labelSet_eq (h : ∀ p ∈ items, SafeItem p) (h' : ∀ p ∈ items', SafeItem p)
    (heq : labelSet (entries items) = labelSet (entries items')) :
    ∀ p, p ∈ items ↔ p ∈ items' := by
  have hsub : ∀ {l l' : List (String × String)}, (∀ p ∈ l, SafeItem p) → (∀ p ∈ l', SafeItem p) →
      labelSet (entries l) = labelSet (entries l') → ∀ p ∈ l, p ∈ l' := by
    intro l l' hl hl' hsets p hp
    have hmem : (entry p).toList ∈ labelSet (entries l) := by
      rw [labelSet_entries hl, List.mem_toFinset]
      exact List.mem_map_of_mem hp
    rw [hsets, labelSet_entries hl', List.mem_toFinset] at hmem
    obtain ⟨q, hq, hentry⟩ := List.mem_map.mp hmem
    rwa [entry_injective (hl p hp).1.1 (hl' q hq).1.1 hentry.symm]
  exact fun p => ⟨hsub h h' heq p, hsub h' h heq.symm p⟩

/-- The labels that a label key stands for. -/
structure KeyItems (labelKey : Option String) (items : List (String × String)) : Prop where
  ascending : Ascending items
  safe : ∀ p ∈ items, SafeItem p
  text : labelKey.getD "" = entries items
  isNone : labelKey = none ↔ items = []

theorem keyItems_none : KeyItems none [] where
  ascending := List.Pairwise.nil
  safe := by
    intro p hp
    cases hp
  text := entries_nil.symm
  isNone := iff_of_true rfl rfl

theorem keyItems_labelsKey {labels : Dict String String} (hne : labels.entries ≠ [])
    (h : ∀ p ∈ labels.entries, SafeItem p) :
    KeyItems (some (labelsKey labels)) (sortedItems labels) where
  ascending := sortedItems_ascending labels
  safe := fun p hp => h p ((sortedItems_perm labels).mem_iff.mp hp)
  text := rfl
  isNone := iff_of_false (Option.some_ne_none _) fun hnil => hne (entries_of_sorted_nil hnil)

variable {labelKey labelKey' : Option String}

theorem KeyItems.eq_of_items (h : KeyItems labelKey items) (h' : KeyItems labelKey' items) :
    labelKey = labelKey' := by
  cases labelKey with
  | none => exact (h'.isNone.mpr (h.isNone.mp rfl)).symm
  | some key =>
    cases labelKey' with
    | none => exact h.isNone.mpr (h'.isNone.mp rfl)
    | some key' => exact congrArg Option.some (h.text.trans h'.text.symm)

/-- The label set of a series tells its key. -/
theorem KeyItems.eq_of_labelSet (h : KeyItems labelKey items) (h' : KeyItems labelKey' items')
    (heq : labelSet (labelKey.getD "") = labelSet (labelKey'.getD "")) :
    labelKey = labelKey' := by
  rw [h.text, h'.text] at heq
  have hitems := h.ascending.eq_of_mem_iff h'.ascending
    (mem_iff_of_labelSet_eq h.safe h'.safe heq)
  subst hitems
  exact h.eq_of_items h'

theorem KeyItems.bucketLabels (h : KeyItems labelKey items) (bucket : String) :
    Metrics.bucketLabels bucket labelKey = entries (("le", bucket) :: items) := by
  apply String.toList_inj.mp
  rw [entries_cons_toList, following]
  cases labelKey with
  | none =>
    rw [if_pos (h.isNone.mp rfl)]
    simp [Metrics.bucketLabels]
  | some key =>
    have hkey : key = entries items := h.text
    rw [if_neg (fun hnil => Option.some_ne_none key (h.isNone.mpr hnil)), ← hkey]
    simp [Metrics.bucketLabels]

/-- The label set of a bucket tells the bound and the series, when no label is called `le`. -/
theorem KeyItems.eq_of_bucketLabels {bucket bucket' : String} (h : KeyItems labelKey items)
    (h' : KeyItems labelKey' items') (hle : ∀ p ∈ items, p.1 ≠ "le")
    (hle' : ∀ p ∈ items', p.1 ≠ "le") (hb : SafeItem ("le", bucket))
    (hb' : SafeItem ("le", bucket'))
    (heq : labelSet (Metrics.bucketLabels bucket labelKey) =
      labelSet (Metrics.bucketLabels bucket' labelKey')) :
    bucket = bucket' ∧ labelKey = labelKey' := by
  rw [h.bucketLabels, h'.bucketLabels] at heq
  have hmem := mem_iff_of_labelSet_eq (List.forall_mem_cons.mpr ⟨hb, h.safe⟩)
    (List.forall_mem_cons.mpr ⟨hb', h'.safe⟩) heq
  have hbucket : bucket = bucket' := by
    rcases List.mem_cons.mp ((hmem ("le", bucket)).mp List.mem_cons_self) with hpair | hother
    · exact congrArg Prod.snd hpair
    · exact absurd rfl (hle' _ hother)
  subst hbucket
  have hitems : items = items' := by
    apply h.ascending.eq_of_mem_iff h'.ascending
    intro p
    have hp := hmem p
    rw [List.mem_cons, List.mem_cons] at hp
    constructor
    · intro hin
      exact (hp.mp (.inr hin)).resolve_left fun heq => hle p hin (congrArg Prod.fst heq)
    · intro hin
      exact (hp.mpr (.inr hin)).resolve_left fun heq => hle' p hin (congrArg Prod.fst heq)
  subst hitems
  exact ⟨rfl, h.eq_of_items h'⟩

end Labels

/-! One metric exposes its series once. -/

section Families

theorem sampleKeys_append (a b : List (Line K)) :
    sampleKeys (a ++ b) = sampleKeys a ++ sampleKeys b := List.filterMap_append

theorem mem_sampleKeys {lines : List (Line K)} {k : String × Finset (List Char)} :
    k ∈ sampleKeys lines ↔ ∃ line ∈ lines, sampleKey line = some k := List.mem_filterMap

/-- The lines of a metric repeat no series and carry one of its names. -/
structure Family (names : List String) (lines : List (Line K)) : Prop where
  distinct : (sampleKeys lines).Nodup
  named : ∀ k ∈ sampleKeys lines, k.1 ∈ names

theorem families_named {families : List (List String × List (Line K))}
    (h : ∀ f ∈ families, Family f.1 f.2) {k : String × Finset (List Char)}
    (hk : k ∈ sampleKeys (families.flatMap Prod.snd)) : k.1 ∈ families.flatMap Prod.fst := by
  obtain ⟨line, hline, hkey⟩ := mem_sampleKeys.mp hk
  obtain ⟨f, hf, hline⟩ := List.mem_flatMap.mp hline
  have hnamed := (h f hf).named k (mem_sampleKeys.mpr ⟨line, hline, hkey⟩)
  exact List.mem_flatMap.mpr ⟨f, hf, hnamed⟩

/-- Metrics with different names expose different series. -/
theorem families_nodup {families : List (List String × List (Line K))}
    (h : ∀ f ∈ families, Family f.1 f.2) (hnames : (families.flatMap Prod.fst).Nodup) :
    (sampleKeys (families.flatMap Prod.snd)).Nodup := by
  induction families with
  | nil => exact List.nodup_nil
  | cons f families ih =>
    obtain ⟨hf, hrest⟩ := List.forall_mem_cons.mp h
    rw [List.flatMap_cons] at hnames ⊢
    rw [sampleKeys_append]
    refine hf.distinct.append (ih hrest hnames.of_append_right) ?_
    intro k hk hlater
    exact List.disjoint_of_nodup_append hnames (hf.named k hk) (families_named hrest hlater)

/-- Label keys that stand for labels which can be told apart. -/
def SafeKey (key : String) : Prop := ∃ items, KeyItems (some key) items

theorem SafeKey.ne_empty {key : String} (h : SafeKey key) : labelSet key ≠ labelSet "" := by
  obtain ⟨items, hitems⟩ := h
  intro heq
  have hkey : some key = none := hitems.eq_of_labelSet keyItems_none heq
  cases hkey

theorem SafeKey.eq_of_labelSet {key key' : String} (h : SafeKey key) (h' : SafeKey key')
    (heq : labelSet key = labelSet key') : key = key' := by
  obtain ⟨items, hitems⟩ := h
  obtain ⟨items', hitems'⟩ := h'
  exact Option.some.inj (hitems.eq_of_labelSet hitems' heq)

theorem Family.header {names : List String} {lines : List (Line K)} (h : Family names lines)
    (name description kind : String) :
    Family names (Metrics.header name description kind ++ lines) := ⟨h.distinct, h.named⟩

/-- At most one value without labels, and values with labels. -/
theorem labelled_family {name : String} {value : K} {first : List (Line K)}
    (hfirst : first = [] ∨ first = [.sample name "" (.number value)])
    {entries : List (String × K)} (hnodup : (entries.map Prod.fst).Nodup)
    (hsafe : ∀ e ∈ entries, SafeKey e.1) :
    Family [name] (first ++ entries.map fun e => .sample name e.1 (.number e.2)) := by
  have hkeys : sampleKeys (entries.map fun e => Line.sample name e.1 (.number e.2)) =
      entries.map fun e => (name, labelSet e.1) := by
    rw [sampleKeys, List.filterMap_map]
    exact congrFun List.filterMap_eq_map _
  have hlabelled : (entries.map fun e => (name, labelSet e.1)).Nodup := by
    apply (List.Nodup.of_map _ hnodup).map_on
    intro e he e' he' heq
    have hfst := (hsafe e he).eq_of_labelSet (hsafe e' he') (Prod.mk.inj heq).2
    exact List.inj_on_of_nodup_map hnodup he he' hfst
  have hunlabelled : (sampleKeys first).Nodup ∧
      ∀ k ∈ sampleKeys first, k = (name, labelSet "") := by
    rcases hfirst with rfl | rfl
    · exact ⟨List.nodup_nil, by rintro k ⟨⟩⟩
    · exact ⟨List.nodup_singleton _, fun k hk => List.mem_singleton.mp hk⟩
  constructor
  · rw [sampleKeys_append, hkeys]
    refine hunlabelled.1.append hlabelled fun k hk hlater => ?_
    obtain ⟨e, he, rfl⟩ := List.mem_map.mp hlater
    exact (hsafe e he).ne_empty (Prod.mk.inj (hunlabelled.2 _ hk)).2
  · intro k hk
    rw [sampleKeys_append, hkeys, List.mem_append] at hk
    rcases hk with hk | hk
    · rw [hunlabelled.2 k hk]
      exact List.mem_singleton.mpr rfl
    · obtain ⟨e, -, rfl⟩ := List.mem_map.mp hk
      exact List.mem_singleton.mpr rfl

variable [Zero K] [LinearOrder K]

omit [Zero K] [LinearOrder K] in
theorem gauge_family {g : Gauge K} (hsafe : ∀ key ∈ g.labelValues.keys, SafeKey key) :
    Family [g.name] g.collect := by
  rw [Gauge.collect, List.append_assoc]
  apply Family.header
  apply labelled_family (.inr rfl) g.labelValues.nodup
  exact fun e he => hsafe e.1 (List.mem_map_of_mem he)

theorem counter_family {c : Counter K} (hsafe : ∀ key ∈ c.labelValues.keys, SafeKey key) :
    Family [c.name] c.collect := by
  rw [Counter.collect, List.append_assoc]
  apply Family.header
  apply labelled_family
  · split_ifs with hvalue
    · exact .inr rfl
    · exact .inl rfl
  · exact c.labelValues.nodup.sublist (List.filter_sublist.map _)
  · exact fun e he => hsafe e.1 (List.mem_map_of_mem (List.mem_filter.mp he).1)

/-- What a counter exposes is one of the values it holds. -/
theorem counter_keys {c : Counter K} {k : String × Finset (List Char)}
    (h : k ∈ sampleKeys c.collect) : k.1 = c.name ∧
      (c.value ≠ 0 ∧ k.2 = labelSet "" ∨ ∃ key ∈ c.labelValues.keys, k.2 = labelSet key) := by
  obtain ⟨line, hline, hkey⟩ := mem_sampleKeys.mp h
  rw [Counter.collect, List.append_assoc, List.mem_append] at hline
  rcases hline with hheader | hline
  · simp only [header, List.mem_cons, List.not_mem_nil, or_false] at hheader
    rcases hheader with rfl | rfl
    · cases hkey
    · cases hkey
  rcases List.mem_append.mp hline with htotal | hlabelled
  · split_ifs at htotal with hvalue
    · obtain rfl := List.mem_singleton.mp htotal
      obtain rfl := Option.some.inj hkey
      exact ⟨rfl, .inl ⟨hvalue.ne', rfl⟩⟩
    · cases htotal
  · obtain ⟨e, he, rfl⟩ := List.mem_map.mp hlabelled
    obtain rfl := Option.some.inj hkey
    exact ⟨rfl, .inr ⟨e.1, List.mem_map_of_mem (List.mem_filter.mp he).1, rfl⟩⟩

/-- Counters of one name hold no value for the same labels. -/
def Apart (c c' : Counter K) : Prop :=
  c.name = c'.name → (c.value = 0 ∨ c'.value = 0) ∧
    ∀ key ∈ c.labelValues.keys, key ∉ c'.labelValues.keys

theorem Apart.disjoint {c c' : Counter K} (h : Apart c c')
    (hsafe : ∀ key ∈ c.labelValues.keys, SafeKey key)
    (hsafe' : ∀ key ∈ c'.labelValues.keys, SafeKey key) :
    (sampleKeys c.collect).Disjoint (sampleKeys c'.collect) := by
  intro k hk hk'
  obtain ⟨hname, hheld⟩ := counter_keys hk
  obtain ⟨hname', hheld'⟩ := counter_keys hk'
  obtain ⟨hvalues, hkeys⟩ := h (hname.symm.trans hname')
  rcases hheld with ⟨hvalue, hset⟩ | ⟨key, hkey, hset⟩
  · rcases hheld' with ⟨hvalue', -⟩ | ⟨key', hkey', hset'⟩
    · exact hvalues.elim hvalue hvalue'
    · exact (hsafe' key' hkey').ne_empty (hset'.symm.trans hset)
  · rcases hheld' with ⟨-, hset'⟩ | ⟨key', hkey', hset'⟩
    · exact (hsafe key hkey).ne_empty (hset.symm.trans hset')
    · obtain rfl := (hsafe key hkey).eq_of_labelSet (hsafe' key' hkey') (hset.symm.trans hset')
      exact hkeys key hkey hkey'

/-- The names of the samples of a histogram. -/
def histogramNames (name : String) : List String :=
  [name ++ "_bucket", name ++ "_sum", name ++ "_count"]

/-- Bounds that are printed as different texts, none of them as the last bucket is. -/
def DistinctBounds (floatText : K → String) (bounds : List K) : Prop :=
  (bounds.map floatText ++ ["+Inf"]).Nodup

theorem histogramNames_nodup (name : String) : (histogramNames name).Nodup := by
  simp [histogramNames]

omit [Zero K] in
theorem cumulated_bounds (s : Series K) (bounds : List K) (cumulative : ℕ) :
    (s.cumulated cumulative bounds).map Prod.fst = bounds := by
  induction bounds generalizing cumulative with
  | nil => rfl
  | cons b bounds ih => rw [HistogramCounts.cumulated_cons, List.map_cons, ih]

omit [Zero K] in
theorem sampleKeys_seriesLines (floatText : K → String) (h : Histogram K)
    (labelKey : Option String) (s : Series K) :
    sampleKeys (h.seriesLines floatText labelKey s) =
      ((h.buckets.map floatText ++ ["+Inf"]).map fun bucket =>
        (h.name ++ "_bucket", labelSet (bucketLabels bucket labelKey))) ++
      [(h.name ++ "_sum", labelSet (labelKey.getD "")),
        (h.name ++ "_count", labelSet (labelKey.getD ""))] := by
  have hbuckets : sampleKeys ((h.bucketSamples s).map fun p =>
      (.sample (h.name ++ "_bucket") (bucketLabels (floatText p.1) labelKey) (.count p.2) :
        Line K)) =
      (h.buckets.map floatText).map fun bucket =>
        (h.name ++ "_bucket", labelSet (bucketLabels bucket labelKey)) := by
    rw [sampleKeys, List.filterMap_map, ← cumulated_bounds s h.buckets 0, List.map_map,
      List.map_map]
    exact congrFun List.filterMap_eq_map _
  rw [Histogram.seriesLines, sampleKeys_append, hbuckets, List.map_append, List.append_assoc]
  rfl

/-- The series of a histogram: the totals, and one for each of its label keys. -/
def seriesOf (h : Histogram K) : List (Option String × Series K) :=
  (none, h.totals) :: h.labeledData.entries.map fun e => (some e.1, e.2)

/-- Label keys without a label called `le`. -/
def SafeSeriesKey (labelKey : Option String) : Prop :=
  ∃ items, KeyItems labelKey items ∧ ∀ p ∈ items, p.1 ≠ "le"

variable {floatText : K → String}

omit [Zero K] [LinearOrder K] in
theorem safeItem_le (hfloat : ∀ x, ',' ∉ (floatText x).toList ∧ '"' ∉ (floatText x).toList)
    (bounds : List K) : ∀ bucket ∈ bounds.map floatText ++ ["+Inf"], SafeItem ("le", bucket) := by
  have hname : '=' ∉ ("le" : String).toList ∧ ',' ∉ ("le" : String).toList := by decide
  intro bucket hbucket
  rcases List.mem_append.mp hbucket with hbucket | hbucket
  · obtain ⟨b, -, rfl⟩ := List.mem_map.mp hbucket
    exact ⟨hname, hfloat b⟩
  · obtain rfl := List.mem_singleton.mp hbucket
    exact ⟨hname, by decide⟩

omit [Zero K] in
/-- The lines of one series repeat no series. -/
theorem seriesLines_nodup (hfloat : ∀ x, ',' ∉ (floatText x).toList ∧ '"' ∉ (floatText x).toList)
    {h : Histogram K} (hbounds : DistinctBounds floatText h.buckets) {labelKey : Option String}
    (hkey : SafeSeriesKey labelKey) (s : Series K) :
    (sampleKeys (h.seriesLines floatText labelKey s)).Nodup := by
  obtain ⟨items, hitems, hle⟩ := hkey
  rw [sampleKeys_seriesLines]
  refine List.Nodup.append ?_ ?_ ?_
  · apply hbounds.map_on
    intro bucket hbucket bucket' hbucket' heq
    exact (hitems.eq_of_bucketLabels hitems hle hle (safeItem_le hfloat _ bucket hbucket)
      (safeItem_le hfloat _ bucket' hbucket') (Prod.mk.inj heq).2).1
  · simp
  · intro k hk hlater
    obtain ⟨bucket, -, rfl⟩ := List.mem_map.mp hk
    simp at hlater

omit [Zero K] in
/-- A line tells the series it belongs to. -/
theorem eq_of_seriesLines (hfloat : ∀ x, ',' ∉ (floatText x).toList ∧ '"' ∉ (floatText x).toList)
    {h : Histogram K} {labelKey labelKey' : Option String} (hkey : SafeSeriesKey labelKey)
    (hkey' : SafeSeriesKey labelKey') {s s' : Series K} {k : String × Finset (List Char)}
    (hk : k ∈ sampleKeys (h.seriesLines floatText labelKey s))
    (hk' : k ∈ sampleKeys (h.seriesLines floatText labelKey' s')) : labelKey = labelKey' := by
  obtain ⟨items, hitems, hle⟩ := hkey
  obtain ⟨items', hitems', hle'⟩ := hkey'
  rw [sampleKeys_seriesLines, List.mem_append] at hk hk'
  rcases hk with hk | hk
  · obtain ⟨bucket, hbucket, rfl⟩ := List.mem_map.mp hk
    rcases hk' with hk' | hk'
    · obtain ⟨bucket', hbucket', heq⟩ := List.mem_map.mp hk'
      exact (hitems.eq_of_bucketLabels hitems' hle hle' (safeItem_le hfloat _ bucket hbucket)
        (safeItem_le hfloat _ bucket' hbucket') (Prod.mk.inj heq).2.symm).2
    · simp at hk'
  · rcases hk' with hk' | hk'
    · obtain ⟨bucket', hbucket', rfl⟩ := List.mem_map.mp hk'
      simp at hk
    · have hset : ∀ {l : Option String}, k ∈ [(h.name ++ "_sum", labelSet (l.getD "")),
          (h.name ++ "_count", labelSet (l.getD ""))] → k.2 = labelSet (l.getD "") := by
        intro l hl
        rcases List.mem_cons.mp hl with rfl | hl
        · rfl
        · obtain rfl := List.mem_singleton.mp hl
          rfl
      exact hitems.eq_of_labelSet hitems' ((hset hk).symm.trans (hset hk'))

omit [Zero K] in
theorem histogram_family
    (hfloat : ∀ x, ',' ∉ (floatText x).toList ∧ '"' ∉ (floatText x).toList)
    {h : Histogram K} (hbounds : DistinctBounds floatText h.buckets)
    (hsafe : ∀ key ∈ h.labeledData.keys, SafeSeriesKey (some key)) :
    Family (histogramNames h.name) (h.collect floatText) := by
  have hlines : h.collect floatText = header h.name h.description "histogram" ++
      (seriesOf h).flatMap fun e => h.seriesLines floatText e.1 e.2 := by
    rw [Histogram.collect, seriesOf, List.flatMap_cons, List.flatMap_map, List.append_assoc]
  have hkeys : ∀ e ∈ seriesOf h, SafeSeriesKey e.1 := by
    intro e he
    rcases List.mem_cons.mp he with rfl | he
    · exact ⟨[], keyItems_none, by rintro p ⟨⟩⟩
    · obtain ⟨e', he', rfl⟩ := List.mem_map.mp he
      exact hsafe e'.1 (List.mem_map_of_mem he')
  have hdistinct : (seriesOf h).Pairwise fun e e' => e.1 ≠ e'.1 := by
    refine List.pairwise_cons.mpr ⟨?_, ?_⟩
    · intro e he
      obtain ⟨e', -, rfl⟩ := List.mem_map.mp he
      exact (Option.some_ne_none _).symm
    · rw [List.pairwise_map]
      exact (List.pairwise_map.mp h.labeledData.nodup).imp fun hne heq => hne (Option.some.inj heq)
  rw [hlines]
  apply Family.header
  constructor
  · rw [sampleKeys, List.filterMap_flatMap, List.nodup_flatMap]
    refine ⟨fun e he => seriesLines_nodup hfloat hbounds (hkeys e he) e.2, ?_⟩
    apply hdistinct.imp_of_mem
    intro e e' he he' hne k hk hk'
    exact hne (eq_of_seriesLines hfloat (hkeys e he) (hkeys e' he') hk hk')
  · intro k hk
    obtain ⟨line, hline, hkey⟩ := mem_sampleKeys.mp hk
    obtain ⟨e, he, hline⟩ := List.mem_flatMap.mp hline
    have hseries := mem_sampleKeys.mpr ⟨line, hline, hkey⟩
    rw [sampleKeys_seriesLines, List.mem_append] at hseries
    rw [histogramNames]
    rcases hseries with hbucket | htotal
    · obtain ⟨bucket, -, rfl⟩ := List.mem_map.mp hbucket
      exact List.mem_cons_self
    · rcases List.mem_cons.mp htotal with rfl | htotal
      · exact List.mem_cons_of_mem _ List.mem_cons_self
      · obtain rfl := List.mem_singleton.mp htotal
        exact List.mem_cons_of_mem _ (List.mem_cons_of_mem _ List.mem_cons_self)

end Families

section Registry

variable [Zero K] [LinearOrder K]

open MetricsRegistry (getOrCreate key)

/-- Calls of the registry, and updates of the metrics it returned, which stand under their keys. -/
inductive Operation (K : Type) where
  | counter (name description : String) (labels : Dict String String)
  | gauge (name description : String) (labels : Dict String String)
  | histogram (name description : String) (buckets : Option (List K)) (labels : Dict String String)
  | inc (key : String) (value : K) (labels : Dict String String)
  /-- `inc`, `dec` or `set` of a gauge. -/
  | updateGauge (key : String) (f : K → K) (labels : Dict String String)
  | observe (key : String) (value : K) (labels : Dict String String)

/-- An update of the metric under a key, if one was returned for it. -/
def modify {M : Type} (metrics : Dict String M) (key : String) (f : M → M) : Dict String M :=
  match metrics.get? key with
  | none => metrics
  | some metric => metrics.set key (f metric)

/-- The sample names of gauges and histograms, which are exposed from the start. -/
def shownNames (r : MetricsRegistry K) : List String :=
  r.gauges.values.map (·.name) ++ r.histograms.values.flatMap fun h => histogramNames h.name

/-- The sample names that the registered metrics use. -/
def exposedNames (r : MetricsRegistry K) : List String :=
  r.counters.values.map (·.name) ++ shownNames r

/-- The counter has a value for the labels, or one without labels if there are none. -/
def Holds (c : Counter K) (labels : Dict String String) : Prop :=
  if labels.entries = [] then c.value ≠ 0 else labelsKey labels ∈ c.labelValues.keys

/-- The labels of an update can be told apart from their text. -/
def LabelsSafe : Operation K → Prop
  | .inc _ _ labels | .updateGauge _ _ labels | .observe _ _ labels =>
    ∀ p ∈ labels.entries, SafeItem p
  | _ => True

/-- A new metric brings new sample names, but a new counter may have the name of other counters.
What a counter counts is held by no other counter of its name. The bounds of a new histogram print
differently, and no label of an observation is called `le`. -/
def Meets (floatText : K → String) (r : MetricsRegistry K) : Operation K → Prop
  | .counter name _ labels =>
    r.counters.contains (key name labels) = true ∨ name ∉ shownNames r
  | .gauge name _ labels =>
    r.gauges.contains (key name labels) = true ∨ name ∉ exposedNames r
  | .histogram name _ buckets labels =>
    r.histograms.contains (key name labels) = true ∨
      (∀ sampleName ∈ histogramNames name, sampleName ∉ exposedNames r) ∧
        DistinctBounds floatText (buckets.getD [])
  | .inc key _ labels => ∀ c, r.counters.get? key = some c →
      ∀ key' c', r.counters.get? key' = some c' → key' ≠ key → c'.name = c.name → ¬ Holds c' labels
  | .updateGauge _ _ _ => True
  | .observe _ _ labels => ∀ p ∈ labels.entries, p.1 ≠ "le"

/-- No two sample lines have one name and one label set. -/
def SeriesUnique (floatText : K → String) (r : MetricsRegistry K) : Prop :=
  (sampleKeys (r.collectLines floatText)).Nodup

/-- What each registered metric keeps. -/
structure Sound (floatText : K → String) (r : MetricsRegistry K) : Prop where
  names : (shownNames r).Nodup
  others : ∀ c ∈ r.counters.values, c.name ∉ shownNames r
  apart : ∀ key key' c c', r.counters.get? key = some c → r.counters.get? key' = some c' →
    key ≠ key' → Apart c c'
  counters : ∀ c ∈ r.counters.values, ∀ key ∈ c.labelValues.keys, SafeKey key
  gauges : ∀ g ∈ r.gauges.values, ∀ key ∈ g.labelValues.keys, SafeKey key
  histograms : ∀ h ∈ r.histograms.values, DistinctBounds floatText h.buckets ∧
    ∀ key ∈ h.labeledData.keys, SafeSeriesKey (some key)

variable {floatText : K → String} {r : MetricsRegistry K}

theorem Sound.counters_nodup (hs : Sound floatText r) :
    (sampleKeys (r.counters.values.flatMap Counter.collect)).Nodup := by
  rw [sampleKeys, List.filterMap_flatMap, List.nodup_flatMap]
  refine ⟨fun c hc => (counter_family (hs.counters c hc)).distinct, ?_⟩
  rw [Dict.values, List.pairwise_map]
  apply (List.pairwise_map.mp r.counters.nodup).imp_of_mem
  intro e e' he he' hne
  have hapart := hs.apart e.1 e'.1 e.2 e'.2 (Dict.get?_eq_some.mpr he) (Dict.get?_eq_some.mpr he')
    hne
  exact hapart.disjoint (hs.counters e.2 (List.mem_map_of_mem he))
    (hs.counters e'.2 (List.mem_map_of_mem he'))

theorem Sound.unique (hfloat : ∀ x, ',' ∉ (floatText x).toList ∧ '"' ∉ (floatText x).toList)
    (hs : Sound floatText r) : SeriesUnique floatText r := by
  let families := r.gauges.values.map (fun g => ([g.name], g.collect)) ++
    r.histograms.values.map (fun h => (histogramNames h.name, h.collect floatText))
  have hfamilies : ∀ f ∈ families, Family f.1 f.2 := by
    intro f hf
    rcases List.mem_append.mp hf with hf | hf
    · obtain ⟨g, hg, rfl⟩ := List.mem_map.mp hf
      exact gauge_family (hs.gauges g hg)
    · obtain ⟨h, hh, rfl⟩ := List.mem_map.mp hf
      exact histogram_family hfloat (hs.histograms h hh).1 (hs.histograms h hh).2
  have hnames : families.flatMap Prod.fst = shownNames r := by
    simp only [families, shownNames, List.flatMap_append, List.flatMap_map]
    rw [List.map_eq_flatMap]
  have hlines : families.flatMap Prod.snd = r.gauges.values.flatMap Gauge.collect ++
      r.histograms.values.flatMap (Histogram.collect floatText) := by
    simp only [families, List.flatMap_append, List.flatMap_map]
  have hnodup := families_nodup hfamilies (hnames ▸ hs.names)
  have hcollected : sampleKeys (r.collectLines floatText) =
      sampleKeys (r.counters.values.flatMap Counter.collect) ++
        sampleKeys (families.flatMap Prod.snd) := by
    rw [hlines, ← sampleKeys_append, ← List.append_assoc]
    rfl
  rw [SeriesUnique, hcollected]
  refine hs.counters_nodup.append hnodup fun k hk hlater => ?_
  have hshown := families_named hfamilies hlater
  obtain ⟨line, hline, hkey⟩ := mem_sampleKeys.mp hk
  obtain ⟨c, hc, hline⟩ := List.mem_flatMap.mp hline
  have hname := (counter_keys (mem_sampleKeys.mpr ⟨line, hline, hkey⟩)).1
  exact hs.others c hc (hname ▸ hnames ▸ hshown)

/-- A registration under a new key appends a metric. -/
theorem values_getOrCreate {M : Type} {metrics : Dict String M} {key : String}
    (hkey : metrics.contains key ≠ true) (metric : M) :
    (getOrCreate metrics key metric).values = metrics.values ++ [metric] := by
  have hnone : metrics.get? key = none := by
    simpa [Dict.contains] using hkey
  have hentries := setEntries_of_notMem (findEntry_eq_none.mp hnone) metric
  rw [getOrCreate, if_neg hkey]
  simp only [Dict.values, Dict.set, hentries, List.map_append, List.map_singleton]

theorem get?_getOrCreate {M : Type} {metrics : Dict String M} {key key' : String}
    {metric m : M} (h : (getOrCreate metrics key metric).get? key' = some m) :
    metrics.get? key' = some m ∨ key' = key ∧ m = metric := by
  rw [getOrCreate] at h
  split_ifs at h with hkey
  · exact .inl h
  · rw [Dict.get?_set] at h
    split_ifs at h with heq
    · exact .inr ⟨heq, (Option.some.inj h).symm⟩
    · exact .inl h

theorem get?_modify {M : Type} {metrics : Dict String M} {key key' : String} {f : M → M} {m : M}
    (h : (modify metrics key f).get? key' = some m) :
    key' ≠ key ∧ metrics.get? key' = some m ∨
      key' = key ∧ ∃ old, metrics.get? key = some old ∧ m = f old := by
  rw [modify] at h
  by_cases heq : key' = key
  · subst heq
    cases hold : metrics.get? key' with
    | none => simp [hold] at h
    | some old =>
      simp only [hold, Dict.get?_set_self, Option.some.injEq] at h
      exact .inr ⟨rfl, old, rfl, h.symm⟩
  · refine .inl ⟨heq, ?_⟩
    cases hold : metrics.get? key with
    | none => simpa [hold] using h
    | some old =>
      simp only [hold, Dict.get?_set, if_neg heq] at h
      exact h

/-- An update replaces one metric in its place. -/
theorem values_modify {M : Type} (metrics : Dict String M) (key : String) (f : M → M) :
    modify metrics key f = metrics ∨ ∃ before metric after,
      metrics.values = before ++ metric :: after ∧
      (modify metrics key f).values = before ++ f metric :: after := by
  rw [modify]
  cases hmetric : metrics.get? key with
  | none => exact .inl rfl
  | some metric =>
    obtain ⟨before, after, hentries, hset⟩ := setEntries_split hmetric
    refine .inr ⟨before.map Prod.snd, metric, after.map Prod.snd, ?_, ?_⟩
    · simp [Dict.values, hentries]
    · simp [Dict.values, Dict.set, hset]

/-- What holds of the metrics before holds after an update that keeps it. -/
theorem forall_modify {M : Type} {metrics : Dict String M} {key : String} {f : M → M}
    {P : M → Prop} (h : ∀ m ∈ metrics.values, P m) (hf : ∀ m, P m → P (f m)) :
    ∀ m ∈ (modify metrics key f).values, P m := by
  rcases values_modify metrics key f with hsame | ⟨before, metric, after, hvalues, hvalues'⟩
  · rwa [hsame]
  · rw [hvalues] at h
    rw [hvalues']
    intro m hm
    rcases List.mem_append.mp hm with hm | hm
    · exact h m (List.mem_append_left _ hm)
    · rcases List.mem_cons.mp hm with rfl | hm
      · exact hf metric (h metric (by simp))
      · exact h m (by simp [hm])

theorem forall_getOrCreate {M : Type} {metrics : Dict String M} {key : String} {metric : M}
    {P : M → Prop} (h : ∀ m ∈ metrics.values, P m)
    (hnew : metrics.contains key = true ∨ P metric) :
    ∀ m ∈ (getOrCreate metrics key metric).values, P m := by
  by_cases hkey : metrics.contains key = true
  · rwa [getOrCreate, if_pos hkey]
  · rw [values_getOrCreate hkey]
    intro m hm
    rcases List.mem_append.mp hm with hm | hm
    · exact h m hm
    · obtain rfl := List.mem_singleton.mp hm
      exact hnew.resolve_left hkey

/-- Names that are new may be inserted anywhere. -/
theorem nodup_insert {names rest new : List String} (h : (names ++ rest).Nodup)
    (hnew : new.Nodup) (hfresh : ∀ name ∈ new, name ∉ names ++ rest) :
    (names ++ new ++ rest).Nodup := by
  rw [List.append_assoc, (List.perm_append_comm_assoc _ _ _).nodup_iff]
  exact hnew.append h hfresh

/-- Updates keep the names. -/
theorem map_modify {M : Type} {α : Type} (metrics : Dict String M) (key : String) {f : M → M}
    {g : M → α} (hf : ∀ m, g (f m) = g m) :
    (modify metrics key f).values.map g = metrics.values.map g := by
  rcases values_modify metrics key f with hsame | ⟨before, metric, after, hvalues, hvalues'⟩
  · rw [hsame]
  · rw [hvalues, hvalues']
    simp [hf]

omit [LinearOrder K] in
theorem Sound.init : Sound floatText (.init : MetricsRegistry K) where
  names := List.nodup_nil
  others := by rintro c ⟨⟩
  apart := by rintro key key' c c' ⟨⟩
  counters := by rintro c ⟨⟩
  gauges := by rintro g ⟨⟩
  histograms := by rintro h ⟨⟩

omit [LinearOrder K] in
theorem Apart.symm {c c' : Counter K} (h : Apart c c') : Apart c' c := fun hname =>
  have ⟨hvalues, hkeys⟩ := h hname.symm
  ⟨hvalues.symm, fun key hkey' hkey => hkeys key hkey hkey'⟩

omit [LinearOrder K] in
/-- A new counter holds nothing. -/
theorem apart_new (c : Counter K) (name description : String) :
    Apart c (.new name description) := fun _ => ⟨.inr rfl, fun _ _ hkey => by cases hkey⟩

omit [LinearOrder K] in
theorem Sound.counter (hs : Sound floatText r) (name description : String)
    (labels : Dict String String)
    (hnew : r.counters.contains (key name labels) = true ∨ name ∉ shownNames r) :
    Sound floatText (r.counter name description labels) where
  names := hs.names
  others := forall_getOrCreate hs.others hnew
  apart := by
    intro key₁ key₂ c c' hc hc' hne
    rcases get?_getOrCreate hc with hc | ⟨rfl, rfl⟩
    · rcases get?_getOrCreate hc' with hc' | ⟨rfl, rfl⟩
      · exact hs.apart key₁ key₂ c c' hc hc' hne
      · exact apart_new c name description
    · exact (apart_new c' name description).symm
  counters := forall_getOrCreate hs.counters (.inr (by rintro k ⟨⟩))
  gauges := hs.gauges
  histograms := hs.histograms

omit [Zero K] [LinearOrder K] in
/-- A name that no metric uses is used by no counter and shown by nothing else. -/
theorem notMem_exposedNames {name : String} (h : name ∉ exposedNames r) :
    name ∉ shownNames r ∧ ∀ c ∈ r.counters.values, c.name ≠ name := by
  rw [exposedNames, List.mem_append, not_or] at h
  exact ⟨h.2, fun c hc hname => h.1 (hname ▸ List.mem_map_of_mem hc)⟩

omit [LinearOrder K] in
theorem Sound.gauge (hs : Sound floatText r) (name description : String)
    (labels : Dict String String)
    (hnew : r.gauges.contains (key name labels) = true ∨ name ∉ exposedNames r) :
    Sound floatText (r.gauge name description labels) := by
  by_cases hkey : r.gauges.contains (key name labels) = true
  · rw [MetricsRegistry.gauge, getOrCreate, if_pos hkey]
    exact hs
  · obtain ⟨hfresh, hcounters⟩ := notMem_exposedNames (hnew.resolve_left hkey)
    have hshown : shownNames (r.gauge name description labels) =
        r.gauges.values.map (·.name) ++ [name] ++
          r.histograms.values.flatMap fun h => histogramNames h.name := by
      rw [shownNames, MetricsRegistry.gauge, values_getOrCreate hkey, List.map_append]
      rfl
    constructor
    · rw [hshown]
      exact nodup_insert hs.names (List.nodup_singleton _)
        fun n hn => List.mem_singleton.mp hn ▸ hfresh
    · intro c hc hname
      rw [hshown, List.append_assoc, (List.perm_append_comm_assoc _ _ _).mem_iff] at hname
      rcases List.mem_append.mp hname with hname | hname
      · exact hcounters c hc (List.mem_singleton.mp hname)
      · exact hs.others c hc hname
    · exact hs.apart
    · exact hs.counters
    · exact forall_getOrCreate hs.gauges (.inr (by rintro k ⟨⟩))
    · exact hs.histograms

theorem Sound.histogram (hs : Sound floatText r) (name description : String)
    (buckets : Option (List K)) (labels : Dict String String)
    (hnew : r.histograms.contains (key name labels) = true ∨
      (∀ sampleName ∈ histogramNames name, sampleName ∉ exposedNames r) ∧
        DistinctBounds floatText (buckets.getD [])) :
    Sound floatText (r.histogram name description buckets labels) := by
  by_cases hkey : r.histograms.contains (key name labels) = true
  · rw [MetricsRegistry.histogram, getOrCreate, if_pos hkey]
    exact hs
  · have hfresh : ∀ sampleName ∈ histogramNames name, sampleName ∉ shownNames r ∧
        ∀ c ∈ r.counters.values, c.name ≠ sampleName :=
      fun n hn => notMem_exposedNames ((hnew.resolve_left hkey).1 n hn)
    have hshown : shownNames (r.histogram name description buckets labels) =
        shownNames r ++ histogramNames name := by
      rw [shownNames, MetricsRegistry.histogram, values_getOrCreate hkey, List.flatMap_append,
        ← List.append_assoc, List.flatMap_singleton]
      rfl
    constructor
    · rw [hshown]
      exact hs.names.append (histogramNames_nodup name) fun a ha hname => (hfresh a hname).1 ha
    · intro c hc hname
      rw [hshown] at hname
      rcases List.mem_append.mp hname with hname | hname
      · exact hs.others c hc hname
      · exact (hfresh _ hname).2 c hc rfl
    · exact hs.apart
    · exact hs.counters
    · exact hs.gauges
    · exact forall_getOrCreate hs.histograms (hnew.imp_right fun h => ⟨h.2, by rintro k ⟨⟩⟩)

variable [Add K]

def apply (r : MetricsRegistry K) : Operation K → MetricsRegistry K
  | .counter name description labels => r.counter name description labels
  | .gauge name description labels => r.gauge name description labels
  | .histogram name description buckets labels => r.histogram name description buckets labels
  | .inc key value labels =>
    { r with counters := modify r.counters key fun c => c.inc value labels }
  | .updateGauge key f labels =>
    { r with gauges := modify r.gauges key fun g => g.update f labels }
  | .observe key value labels =>
    { r with histograms := modify r.histograms key fun h => h.observe value labels }

omit [Zero K] [LinearOrder K] [Add K] in
/-- Storing under the key of safe labels keeps the keys safe. -/
theorem safeKey_set {V : Type} {values : Dict String V} {labels : Dict String String} (v : V)
    (hne : labels.entries ≠ []) (hlabels : ∀ p ∈ labels.entries, SafeItem p)
    (hvalues : ∀ key ∈ values.keys, SafeKey key) :
    ∀ key ∈ (values.set (labelsKey labels) v).keys, SafeKey key := by
  intro key hkey
  rcases Dict.mem_keys_set.mp hkey with rfl | hkey
  · exact ⟨_, keyItems_labelsKey hne hlabels⟩
  · exact hvalues key hkey

omit [LinearOrder K] in
theorem counter_inc (c : Counter K) (value : K) {labels : Dict String String}
    (hlabels : ∀ p ∈ labels.entries, SafeItem p) (hc : ∀ key ∈ c.labelValues.keys, SafeKey key) :
    ∀ key ∈ (c.inc value labels).labelValues.keys, SafeKey key := by
  rw [Counter.inc]
  split_ifs with hempty
  · exact hc
  · exact safeKey_set _ hempty hlabels hc

omit [LinearOrder K] [Add K] in
theorem gauge_update (g : Gauge K) (f : K → K) {labels : Dict String String}
    (hlabels : ∀ p ∈ labels.entries, SafeItem p) (hg : ∀ key ∈ g.labelValues.keys, SafeKey key) :
    ∀ key ∈ (g.update f labels).labelValues.keys, SafeKey key := by
  rw [Gauge.update]
  split_ifs with hempty
  · exact hg
  · exact safeKey_set _ hempty hlabels hg

theorem histogram_observe (h : Histogram K) (value : K) {labels : Dict String String}
    (hlabels : ∀ p ∈ labels.entries, SafeItem p) (hle : ∀ p ∈ labels.entries, p.1 ≠ "le")
    (hh : DistinctBounds floatText h.buckets ∧
      ∀ key ∈ h.labeledData.keys, SafeSeriesKey (some key)) :
    DistinctBounds floatText (h.observe value labels).buckets ∧
      ∀ key ∈ (h.observe value labels).labeledData.keys, SafeSeriesKey (some key) := by
  rw [Histogram.observe]
  split_ifs with hempty
  · exact hh
  · refine ⟨hh.1, fun key hkey => ?_⟩
    rcases Dict.mem_keys_set.mp hkey with rfl | hkey
    · exact ⟨_, keyItems_labelsKey hempty hlabels,
        fun p hp => hle p ((sortedItems_perm labels).mem_iff.mp hp)⟩
    · exact hh.2 key hkey

omit [LinearOrder K] in
theorem inc_name (c : Counter K) (value : K) (labels : Dict String String) :
    (c.inc value labels).name = c.name := by
  rw [Counter.inc]
  split_ifs <;> rfl

omit [LinearOrder K] [Add K] in
theorem update_name (g : Gauge K) (f : K → K) (labels : Dict String String) :
    (g.update f labels).name = g.name := by
  rw [Gauge.update]
  split_ifs <;> rfl

theorem observe_name (h : Histogram K) (value : K) (labels : Dict String String) :
    (h.observe value labels).name = h.name := by
  rw [Histogram.observe]
  split_ifs <;> rfl

omit [LinearOrder K] in
/-- Counting keeps counters apart, unless the other one holds a value for the labels. -/
theorem Apart.inc {c c' : Counter K} (h : Apart c c') (value : K) {labels : Dict String String}
    (hfree : c'.name = c.name → ¬ Holds c' labels) : Apart (c.inc value labels) c' := by
  intro hname
  rw [inc_name] at hname
  obtain ⟨hvalues, hkeys⟩ := h hname
  have hfree := hfree hname.symm
  unfold Holds at hfree
  rw [Counter.inc]
  split_ifs with hempty
  · rw [if_pos hempty, not_not] at hfree
    exact ⟨.inr hfree, hkeys⟩
  · rw [if_neg hempty] at hfree
    refine ⟨hvalues, fun key hkey => ?_⟩
    rcases Dict.mem_keys_set.mp hkey with rfl | hkey
    · exact hfree
    · exact hkeys key hkey

theorem Sound.inc (hs : Sound floatText r) (key : String) (value : K)
    {labels : Dict String String} (hsafe : ∀ p ∈ labels.entries, SafeItem p)
    (hfree : Meets floatText r (.inc key value labels)) :
    Sound floatText (apply r (.inc key value labels)) where
  names := hs.names
  others := forall_modify hs.others fun c hc => (inc_name c value labels).symm ▸ hc
  apart := by
    intro key₁ key₂ c c' hc hc' hne
    rcases get?_modify hc with ⟨hother, hkept⟩ | ⟨rfl, old, hold, rfl⟩
    · rcases get?_modify hc' with ⟨-, hkept'⟩ | ⟨rfl, old, hold, rfl⟩
      · exact hs.apart key₁ key₂ c c' hkept hkept' hne
      · have hapart := hs.apart key₂ key₁ old c hold hkept hne.symm
        exact (hapart.inc value (hfree old hold key₁ c hkept hother)).symm
    · rcases get?_modify hc' with ⟨hother, hkept'⟩ | ⟨rfl, -⟩
      · have hapart := hs.apart key₁ key₂ old c' hold hkept' hne
        exact hapart.inc value (hfree old hold key₂ c' hkept' hother)
      · exact absurd rfl hne
  counters := forall_modify hs.counters fun c hc => counter_inc c value hsafe hc
  gauges := hs.gauges
  histograms := hs.histograms

/-- A call that meets the condition keeps the registry sound. -/
theorem Sound.apply (hs : Sound floatText r) {op : Operation K} (hsafe : LabelsSafe op)
    (hmeets : Meets floatText r op) : Sound floatText (apply r op) := by
  cases op with
  | counter name description labels => exact hs.counter name description labels hmeets
  | gauge name description labels => exact hs.gauge name description labels hmeets
  | histogram name description buckets labels =>
    exact hs.histogram name description buckets labels hmeets
  | inc key value labels => exact hs.inc key value hsafe hmeets
  | updateGauge key f labels =>
    have hshown : shownNames (ExposedSeries.apply r (.updateGauge key f labels)) =
        shownNames r := by
      rw [shownNames, ExposedSeries.apply, map_modify r.gauges key fun g => update_name g f labels]
      rfl
    exact ⟨hshown ▸ hs.names, hshown ▸ hs.others, hs.apart, hs.counters,
      forall_modify hs.gauges fun g hg => gauge_update g f hsafe hg, hs.histograms⟩
  | observe key value labels =>
    have hshown : shownNames (ExposedSeries.apply r (.observe key value labels)) =
        shownNames r := by
      have hnames := map_modify r.histograms key (g := fun h => histogramNames h.name)
        fun h => congrArg histogramNames (observe_name h value labels)
      rw [shownNames, ExposedSeries.apply, List.flatMap_def, hnames, ← List.flatMap_def]
      rfl
    exact ⟨hshown ▸ hs.names, hshown ▸ hs.others, hs.apart, hs.counters, hs.gauges,
      forall_modify hs.histograms fun h hh => histogram_observe h value hsafe hmeets hh⟩

/-- The key of the metric that a registration returns, and the registry after the call. -/
def call (r : MetricsRegistry K) (op : Operation K) : Option String × MetricsRegistry K :=
  (match op with
    | .counter name _ labels | .gauge name _ labels | .histogram name _ _ labels =>
      some (key name labels)
    | _ => none, apply r op)

/-- In a run whose calls meet the condition no state exposes a series twice. -/
theorem series_unique (hfloat : ∀ x, ',' ∉ (floatText x).toList ∧ '"' ∉ (floatText x).toList)
    (ops : List (Operation K))
    (hmeets : Along call (fun r op => LabelsSafe op ∧ Meets floatText r op) .init ops) :
    Along call (fun r op => SeriesUnique floatText (call r op).2) .init ops := by
  apply along_of_invariant (Sound floatText) _ Sound.init hmeets
  rintro r op hs ⟨hsafe, hmeets⟩
  have hkept : Sound floatText (call r op).2 := hs.apply hsafe hmeets
  exact ⟨hkept, hkept.unique hfloat⟩

end Registry

/-! One counter name for two labels, each counted by its own counter; and one gauge name, registered
without labels and then with the given ones. -/

/-- `str` of a whole float. -/
def sampleText (n : ℕ) : String := toString n ++ ".0"

theorem sampleText_plain (n : ℕ) : ',' ∉ (sampleText n).toList ∧ '"' ∉ (sampleText n).toList := by
  have hdigit : ∀ c ∈ (toString n).toList, c.isDigit = true := by
    intro c hc
    rw [Nat.toString_eq_repr, Nat.toList_repr] at hc
    exact Nat.isDigit_of_mem_toDigits (by decide) (by decide) hc
  rw [sampleText, String.toList_append, List.mem_append, List.mem_append]
  constructor
  · rintro (h | h)
    · exact absurd (hdigit _ h) (by decide)
    · exact absurd h (by decide)
  · rintro (h | h)
    · exact absurd (hdigit _ h) (by decide)
    · exact absurd h (by decide)

def countPath (path : String) : Operation ℕ :=
  .inc (MetricsRegistry.key "requests" (sampleLabels path)) 1 (sampleLabels path)

def labelledCalls : List (Operation ℕ) :=
  [.counter "requests" "" (sampleLabels "1"), .counter "requests" "" (sampleLabels "2"),
    countPath "1", countPath "2"]

theorem series_unique_sample :
    Along call (fun r op => SeriesUnique sampleText (call r op).2) .init labelledCalls := by
  apply series_unique sampleText_plain
  have hsafe (path : String) (h : ',' ∉ path.toList ∧ '"' ∉ path.toList) :
      LabelsSafe (countPath path) := by
    intro p hp
    obtain rfl := List.mem_singleton.mp hp
    have hname : '=' ∉ ("a" : String).toList ∧ ',' ∉ ("a" : String).toList := by decide
    exact ⟨hname, h⟩
  have hnew : ∀ key c, (call (call (.init : MetricsRegistry ℕ)
      (.counter "requests" "" (sampleLabels "1"))).2
        (.counter "requests" "" (sampleLabels "2"))).2.counters.get? key = some c →
      c = .new "requests" "" := by
    intro key c h
    rcases get?_getOrCreate h with h | ⟨-, rfl⟩
    · rcases get?_getOrCreate h with h | ⟨-, rfl⟩
      · cases h
      · rfl
    · rfl
  have hlabels (path : String) : (sampleLabels path).entries ≠ [] := List.cons_ne_nil _ _
  have hunheld (path : String) : ¬ Holds (.new "requests" "" : Counter ℕ) (sampleLabels path) := by
    rw [Holds, if_neg (hlabels path)]
    exact List.not_mem_nil
  refine ⟨⟨trivial, .inr List.not_mem_nil⟩, ⟨trivial, .inr List.not_mem_nil⟩,
    ⟨hsafe "1" (by decide), ?_⟩, ⟨hsafe "2" (by decide), ?_⟩, trivial⟩
  · intro c _ key' c' hc' _ _
    obtain rfl := hnew key' c' hc'
    exact hunheld "1"
  · intro c _ key' c' hc' _ _
    rcases get?_modify hc' with ⟨-, hc'⟩ | ⟨-, old, hold, rfl⟩
    · obtain rfl := hnew key' c' hc'
      exact hunheld "2"
    · obtain rfl := hnew _ old hold
      have hkeys : labelsKey (sampleLabels "2") ≠ labelsKey (sampleLabels "1") := by
        rw [sampleLabels, sampleLabels, labelsKey_ofItems, labelsKey_ofItems]
        decide
      rw [Holds, if_neg (hlabels "2"), Counter.inc, if_neg (hlabels "1")]
      intro hheld
      rcases Dict.mem_keys_set.mp hheld with heq | hnone
      · exact hkeys heq
      · cases hnone

def sampleCalls (labels : Dict String String) : List (Operation ℕ) :=
  [.gauge "x" "" .empty, .gauge "x" "" labels]

theorem sample_key_ne :
    MetricsRegistry.key "x" .empty ≠ MetricsRegistry.key "x" (sampleLabels "1") := by
  intro h
  have hlabels : labelsKey .empty = labelsKey (sampleLabels "1") := by
    simpa [MetricsRegistry.key] using h
  rw [sampleLabels, labelsKey_ofItems] at hlabels
  exact absurd (entries_eq_empty.mp hlabels.symm) (List.cons_ne_nil _ _)

/-- Two gauges of one name print one series. -/
theorem series_repeated : (∀ op ∈ sampleCalls (sampleLabels "1"), LabelsSafe op) ∧
    ¬ Along call (fun r op => SeriesUnique sampleText (call r op).2) .init
      (sampleCalls (sampleLabels "1")) := by
  constructor
  · intro op hop
    rcases List.mem_cons.mp hop with rfl | hop
    · trivial
    · obtain rfl := List.mem_singleton.mp hop
      trivial
  · rintro ⟨-, h, -⟩
    have hkey : (call (.init : MetricsRegistry ℕ) (.gauge "x" "" .empty)).2.gauges.contains
        (MetricsRegistry.key "x" (sampleLabels "1")) ≠ true := by
      simp [call, apply, MetricsRegistry.gauge, MetricsRegistry.init, MetricsRegistry.getOrCreate,
        Dict.contains, Dict.get?_set, sample_key_ne.symm]
    have hvalues := values_getOrCreate hkey (Gauge.new "x" "")
    have hlines : sampleKeys (((call (call (.init : MetricsRegistry ℕ) (.gauge "x" "" .empty)).2
        (.gauge "x" "" (sampleLabels "1"))).2).collectLines sampleText) = sampleKeys
        ((MetricsRegistry.getOrCreate (call (.init : MetricsRegistry ℕ)
          (.gauge "x" "" .empty)).2.gauges (MetricsRegistry.key "x" (sampleLabels "1"))
            (Gauge.new "x" "")).values.flatMap Gauge.collect ++ []) := rfl
    rw [SeriesUnique, hlines, hvalues] at h
    revert h
    decide

end ExposedSeries
