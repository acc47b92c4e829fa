import SynapticBridge.Metrics
import Mathlib.Data.List.Count
import Mathlib.Data.List.Induction

/-! What a histogram prints after a sequence of observations. Observing already counts a value in
every bucket above it, and printing adds the buckets up once more. -/
namespace HistogramCounts

open OrderedDict Metrics

variable {K : Type} [Zero K] [LinearOrder K] {b value : K} {bounds : List K}

section Recording

/-- The count of a bucket, zero when it has none. -/
def bucketCount (buckets : Dict K ℕ) (b : K) : ℕ := (buckets.get? b).getD 0

omit [Zero K] in
theorem bucketCount_set (buckets : Dict K ℕ) (b' : K) (n : ℕ) :
    bucketCount (buckets.set b' n) b = if b = b' then n else bucketCount buckets b := by
  rw [bucketCount, Dict.get?_set]
  split_ifs with hb
  · rfl
  · rfl

theorem bucketCount_new (bounds : List K) (b : K) :
    bucketCount (Series.new bounds).buckets b = 0 := by
  have main : ∀ d : Dict K ℕ, bucketCount d b = 0 →
      bucketCount (bounds.foldl (fun d b => d.set b 0) d) b = 0 := by
    induction bounds with
    | nil => exact fun d hd => hd
    | cons b' bounds ih =>
      intro d hd
      apply ih
      rw [bucketCount_set]
      split_ifs with hb
      · rfl
      · exact hd
  exact main .empty rfl

omit [Zero K] in
theorem bucketCount_countUp_of_notMem (hb : b ∉ bounds) (value : K) (buckets : Dict K ℕ) :
    bucketCount (Series.countUp bounds value buckets) b = bucketCount buckets b := by
  induction bounds generalizing buckets with
  | nil => rfl
  | cons b' bounds ih =>
    rw [List.mem_cons, not_or] at hb
    rw [Series.countUp, List.foldl_cons, ← Series.countUp, ih hb.2]
    split_ifs with hvalue
    · rw [bucketCount_set, if_neg hb.1]
    · rfl

omit [Zero K] in
/-- A bucket of its own is counted up once, by values that it holds. -/
theorem bucketCount_countUp (hbounds : bounds.Nodup) (hb : b ∈ bounds) (value : K)
    (buckets : Dict K ℕ) : bucketCount (Series.countUp bounds value buckets) b =
      bucketCount buckets b + if value ≤ b then 1 else 0 := by
  induction bounds generalizing buckets with
  | nil => cases hb
  | cons b' bounds ih =>
    rw [List.nodup_cons] at hbounds
    rw [Series.countUp, List.foldl_cons, ← Series.countUp]
    rcases List.mem_cons.mp hb with rfl | hb
    · rw [bucketCount_countUp_of_notMem hbounds.1]
      split_ifs with hvalue
      · rw [bucketCount_set, if_pos rfl]
        rfl
      · rfl
    · have hne : b ≠ b' := fun h => hbounds.1 (h ▸ hb)
      rw [ih hbounds.2 hb]
      split_ifs with hvalue' hvalue <;> simp only [bucketCount_set, if_neg hne]

variable [Add K]

/-- What a series has recorded: each bucket already holds all values up to its bound. -/
structure Recorded (bounds : List K) (s : Series K) (values : List K) : Prop where
  count : s.count = values.length
  buckets : ∀ b ∈ bounds, bucketCount s.buckets b = values.countP (· ≤ b)

omit [Add K] in
theorem recorded_new (bounds : List K) : Recorded bounds (.new bounds) [] where
  count := rfl
  buckets := fun b _ => bucketCount_new bounds b

omit [Zero K] in
theorem Recorded.observe {s : Series K} {values : List K} (h : Recorded bounds s values)
    (hbounds : bounds.Nodup) (value : K) :
    Recorded bounds (s.observe bounds value) (values ++ [value]) where
  count := by
    rw [List.length_append, List.length_singleton, ← h.count]
    rfl
  buckets := by
    intro b hb
    rw [Series.observe, bucketCount_countUp hbounds hb, h.buckets b hb, List.countP_append,
      List.countP_singleton]
    simp only [decide_eq_true_eq]

end Recording

section Printing

variable {s : Series K} {values : List K}

omit [Zero K] in
theorem cumulated_cons (s : Series K) (cumulative : ℕ) (b : K) (bounds : List K) :
    s.cumulated cumulative (b :: bounds) = (b, cumulative + bucketCount s.buckets b) ::
      s.cumulated (cumulative + bucketCount s.buckets b) bounds := rfl

omit [Zero K] in
/-- Adding the buckets up gives them back only when all but the last are empty. -/
theorem cumulated_iff (s : Series K) (bounds : List K) (cumulative : ℕ) :
    (∀ b n, (b, n) ∈ s.cumulated cumulative bounds → n = bucketCount s.buckets b) ↔
      (bounds ≠ [] → cumulative = 0) ∧ ∀ b ∈ bounds.dropLast, bucketCount s.buckets b = 0 := by
  induction bounds generalizing cumulative with
  | nil => exact iff_of_true (fun b n h => by cases h) ⟨fun h => absurd rfl h, by simp⟩
  | cons b bounds ih =>
    have hhead : (∀ b' n, (b', n) ∈ s.cumulated cumulative (b :: bounds) →
        n = bucketCount s.buckets b') ↔
        cumulative = 0 ∧ ∀ b' n,
          (b', n) ∈ s.cumulated (cumulative + bucketCount s.buckets b) bounds →
            n = bucketCount s.buckets b' := by
      rw [cumulated_cons]
      constructor
      · intro h
        have hfirst := h b _ List.mem_cons_self
        exact ⟨by omega, fun b' n hmem => h b' n (List.mem_cons_of_mem _ hmem)⟩
      · rintro ⟨hzero, hrest⟩ b' n hmem
        rcases List.mem_cons.mp hmem with heq | hmem
        · obtain ⟨rfl, rfl⟩ := Prod.mk.inj heq
          omega
        · exact hrest b' n hmem
    rw [hhead, ih]
    cases bounds with
    | nil => simp
    | cons b' bounds =>
      rw [List.dropLast_cons_of_ne_nil (List.cons_ne_nil _ _), List.forall_mem_cons]
      simp only [ne_eq, List.cons_ne_nil, not_false_eq_true, true_imp_iff]
      constructor
      · rintro ⟨hzero, hsum, hrest⟩
        exact ⟨hzero, by omega, hrest⟩
      · rintro ⟨hzero, hbucket, hrest⟩
        exact ⟨hzero, by omega, hrest⟩

omit [Zero K] in
theorem mem_cumulated (s : Series K) {n cumulative : ℕ}
    (h : (b, n) ∈ s.cumulated cumulative bounds) : b ∈ bounds := by
  induction bounds generalizing cumulative with
  | nil => cases h
  | cons b' bounds ih =>
    rw [cumulated_cons] at h
    rcases List.mem_cons.mp h with heq | h
    · exact (Prod.mk.inj heq).1 ▸ List.mem_cons_self
    · exact List.mem_cons_of_mem _ (ih h)

omit [Zero K] in
/-- Running sums never fall. -/
theorem cumulated_nondecreasing (s : Series K) (bounds : List K) (cumulative : ℕ) :
    (∀ p ∈ s.cumulated cumulative bounds, cumulative ≤ p.2) ∧
      (s.cumulated cumulative bounds).Pairwise fun p q => p.2 ≤ q.2 := by
  induction bounds generalizing cumulative with
  | nil => exact ⟨(by rintro p ⟨⟩), List.Pairwise.nil⟩
  | cons b bounds ih =>
    rw [cumulated_cons]
    obtain ⟨hbelow, hpairwise⟩ := ih (cumulative + bucketCount s.buckets b)
    refine ⟨?_, List.pairwise_cons.mpr ⟨hbelow, hpairwise⟩⟩
    intro p hp
    rcases List.mem_cons.mp hp with rfl | hp
    · exact Nat.le_add_right _ _
    · have := hbelow p hp
      omega

/-- What the bucket lines of a series are to say about the values observed for it. -/
structure Exposes (h : Histogram K) (s : Series K) (values : List K) : Prop where
  exact : ∀ b n, (b, n) ∈ h.bucketSamples s → n = values.countP (· ≤ b)
  nondecreasing : (h.bucketSamples s).Pairwise fun p q => p.2 ≤ q.2
  below_total : ∀ b n, (b, n) ∈ h.bucketSamples s → n ≤ s.count

omit [Zero K] in
theorem exposes_iff {h : Histogram K} (hr : Recorded h.buckets s values) :
    Exposes h s values ↔ ∀ value ∈ values, ∀ b ∈ h.buckets.dropLast, b < value := by
  have hexact : (∀ b n, (b, n) ∈ h.bucketSamples s → n = values.countP (· ≤ b)) ↔
      ∀ value ∈ values, ∀ b ∈ h.buckets.dropLast, b < value := by
    have hsame : (∀ b n, (b, n) ∈ h.bucketSamples s → n = values.countP (· ≤ b)) ↔
        ∀ b n, (b, n) ∈ h.bucketSamples s → n = bucketCount s.buckets b :=
      forall₃_congr fun b n hmem => by rw [hr.buckets b (mem_cumulated s hmem)]
    have hempty : (∀ b ∈ h.buckets.dropLast, bucketCount s.buckets b = 0) ↔
        ∀ b ∈ h.buckets.dropLast, ∀ value ∈ values, b < value := by
      refine forall₂_congr fun b hb => ?_
      rw [hr.buckets b (List.dropLast_subset _ hb), List.countP_eq_zero]
      simp only [decide_eq_true_eq, not_le]
    rw [hsame, Histogram.bucketSamples, cumulated_iff, hempty]
    simp only [implies_true, true_and]
    exact ⟨fun h value hvalue b hb => h b hb value hvalue,
      fun h b hb value hvalue => h value hvalue b hb⟩
  rw [← hexact]
  refine ⟨Exposes.exact, fun hcounts => ⟨hcounts, (cumulated_nondecreasing s _ 0).2, ?_⟩⟩
  intro b n hmem
  rw [hcounts b n hmem, hr.count]
  exact List.countP_le_length

end Printing

section Runs

variable [Add K]

structure Observation (K : Type) where
  value : K
  labels : Dict String String

/-- A new histogram after a sequence of observations. -/
def observed (name description : String) (bounds : List K) (obs : List (Observation K)) :
    Histogram K :=
  obs.foldl (fun h o => h.observe o.value o.labels) (.new name description bounds)

/-- The values that were observed with a label key. -/
def valuesOf (labelKey : String) (obs : List (Observation K)) : List K :=
  (obs.filter fun o => o.labels.entries ≠ [] ∧ labelsKey o.labels = labelKey).map (·.value)

theorem observed_concat (name description : String) (bounds : List K)
    (obs : List (Observation K)) (o : Observation K) :
    observed name description bounds (obs ++ [o]) =
      (observed name description bounds obs).observe o.value o.labels := by
  rw [observed, List.foldl_append, List.foldl_cons, List.foldl_nil]
  rfl

omit [Zero K] [LinearOrder K] [Add K] in
theorem valuesOf_concat (labelKey : String) (obs : List (Observation K)) (o : Observation K) :
    valuesOf labelKey (obs ++ [o]) = valuesOf labelKey obs ++
      if o.labels.entries ≠ [] ∧ labelsKey o.labels = labelKey then [o.value] else [] := by
  rw [valuesOf, List.filter_append, List.map_append, ← valuesOf]
  congr 1
  split_ifs with hkey
  · simp [hkey]
  · simp [hkey]

/-- Both kinds of series record what was observed for them. -/
structure Records (h : Histogram K) (bounds : List K) (obs : List (Observation K)) : Prop where
  bounds : h.buckets = bounds
  totals : Recorded h.buckets h.totals (obs.map (·.value))
  labelled : ∀ labelKey,
    Recorded h.buckets ((h.labeledData.get? labelKey).getD (.new h.buckets)) (valuesOf labelKey obs)

theorem Records.observe {h : Histogram K} {obs : List (Observation K)} (hr : Records h bounds obs)
    (hbounds : bounds.Nodup) (o : Observation K) :
    Records (h.observe o.value o.labels) bounds (obs ++ [o]) := by
  have hnodup : h.buckets.Nodup := hr.bounds ▸ hbounds
  have htotals := hr.totals.observe hnodup o.value
  rw [Histogram.observe]
  split_ifs with hlabels
  · refine ⟨hr.bounds, ?_, fun labelKey => ?_⟩
    · rw [List.map_append]
      exact htotals
    · rw [valuesOf_concat, if_neg (fun h => h.1 hlabels), List.append_nil]
      exact hr.labelled labelKey
  · refine ⟨hr.bounds, ?_, fun labelKey => ?_⟩
    · rw [List.map_append]
      exact htotals
    · rw [valuesOf_concat, Dict.get?_set]
      by_cases hkey : labelKey = labelsKey o.labels
      · subst hkey
        rw [if_pos rfl, if_pos ⟨hlabels, rfl⟩]
        exact (hr.labelled _).observe hnodup o.value
      · rw [if_neg hkey, if_neg (fun h => hkey h.2.symm), List.append_nil]
        exact hr.labelled labelKey

theorem records_observed (name description : String) (hbounds : bounds.Nodup)
    (obs : List (Observation K)) : Records (observed name description bounds obs) bounds obs := by
  induction obs using List.reverseRecOn with
  | nil => exact ⟨rfl, recorded_new bounds, fun _ => recorded_new bounds⟩
  | append_singleton obs o ih =>
    rw [observed_concat]
    exact ih.observe hbounds o

/-- The printed buckets are right, for all series at once, exactly when no value lies at or below
a bound other than the last. -/
theorem buckets_exact_iff (name description : String) (hbounds : bounds.Pairwise (· < ·))
    (obs : List (Observation K)) :
    (Exposes (observed name description bounds obs) (observed name description bounds obs).totals
        (obs.map (·.value)) ∧
      ∀ labelKey s,
        (observed name description bounds obs).labeledData.get? labelKey = some s →
          Exposes (observed name description bounds obs) s (valuesOf labelKey obs)) ↔
      ∀ o ∈ obs, ∀ b ∈ bounds.dropLast, b < o.value := by
  have hr := records_observed name description hbounds.nodup obs
  rw [exposes_iff hr.totals, hr.bounds, List.forall_mem_map]
  refine and_iff_left_of_imp fun habove labelKey s hs => ?_
  have hlabelled := hr.labelled labelKey
  rw [hs, Option.getD_some] at hlabelled
  rw [exposes_iff hlabelled, hr.bounds]
  intro value hvalue
  obtain ⟨o, ho, rfl⟩ := List.mem_map.mp hvalue
  exact habove o (List.mem_filter.mp ho).1

end Runs

/-! Two buckets, with values above the first of them or one within it. -/

def sampleObservation (value : ℕ) : List (Observation ℕ) := [⟨value, .empty⟩]

def lateObservations : List (Observation ℕ) :=
  [⟨3, .empty⟩, ⟨7, Dict.empty.set "path" "execute"⟩, ⟨2, Dict.empty.set "path" "execute"⟩]

theorem buckets_exact_sample :
    Exposes (observed "h" "" [1, 5] lateObservations)
      (observed "h" "" [1, 5] lateObservations).totals [3, 7, 2] ∧
    (observed "h" "" [1, 5] lateObservations).bucketSamples
      (observed "h" "" [1, 5] lateObservations).totals = [(1, 0), (5, 2)] :=
  ⟨((buckets_exact_iff "h" "" (by decide) lateObservations).mpr (by decide)).1, by decide⟩

/-- A single value is printed as two. -/
theorem counted_twice : (5, 2) ∈ (observed "h" "" [1, 5] (sampleObservation 1)).bucketSamples
      (observed "h" "" [1, 5] (sampleObservation 1)).totals ∧
    ¬ Exposes (observed "h" "" [1, 5] (sampleObservation 1))
      (observed "h" "" [1, 5] (sampleObservation 1)).totals [1] := by
  have hmem : (5, 2) ∈ (observed "h" "" [1, 5] (sampleObservation 1)).bucketSamples
      (observed "h" "" [1, 5] (sampleObservation 1)).totals := by decide
  refine ⟨hmem, fun hexposes => ?_⟩
  exact absurd (hexposes.exact 5 2 hmem) (by decide)

end HistogramCounts
