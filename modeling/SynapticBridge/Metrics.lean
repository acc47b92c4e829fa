import SynapticBridge.OrderedDict
import SynapticBridge.QuotedEntries
import Mathlib.Algebra.GroupWithZero.Nat
import Mathlib.Data.List.Sort
import Mathlib.Data.String.Basic

/-! Counters, gauges and histograms, and the registry that exposes them. Labelled values are kept
under the text of their labels. -/
namespace Metrics

open OrderedDict QuotedEntries

/-- `sorted(labels.items())`; the names are distinct, so values are never compared. -/
def sortedItems (labels : Dict String String) : List (String × String) :=
  labels.entries.insertionSort fun a b => a.1 ≤ b.1

def labelsKey (labels : Dict String String) : String := entries (sortedItems labels)

/-- Counts are floats in the source; they stay whole. -/
inductive SampleValue (K : Type) where
  | number (x : K)
  | count (n : ℕ)

inductive Line (K : Type) where
  | comment (text : String)
  | sample (name labels : String) (value : SampleValue K)

structure Counter (K : Type) where
  name : String
  description : String
  value : K
  labelValues : Dict String K

structure Gauge (K : Type) where
  name : String
  description : String
  value : K
  labelValues : Dict String K

/-- The totals of a histogram, or of one of its label keys. -/
structure Series (K : Type) where
  count : ℕ
  sum : K
  buckets : Dict K ℕ

structure Histogram (K : Type) where
  name : String
  description : String
  buckets : List K
  totals : Series K
  labeledData : Dict String (Series K)

/-- The comments before the samples of a metric. -/
def header {K : Type} (name description kind : String) : List (Line K) :=
  [.comment s!"# HELP {name} {description}", .comment s!"# TYPE {name} {kind}"]

variable {K : Type} [Zero K]

namespace Counter

def new (name description : String) : Counter K := ⟨name, description, 0, .empty⟩

def inc [Add K] (c : Counter K) (value : K) (labels : Dict String String) : Counter K :=
  if labels.entries = [] then { c with value := c.value + value }
  else
    let labelKey := labelsKey labels
    { c with
      labelValues := c.labelValues.set labelKey ((c.labelValues.get? labelKey).getD 0 + value) }

def collect [LT K] [DecidableLT K] (c : Counter K) : List (Line K) :=
  header c.name c.description "counter" ++
    (if c.value > 0 then [.sample c.name "" (.number c.value)] else []) ++
    (c.labelValues.entries.filter fun e => e.2 > 0).map fun e =>
      .sample c.name e.1 (.number e.2)

end Counter

namespace Gauge

def new (name description : String) : Gauge K := ⟨name, description, 0, .empty⟩

/-- What `inc`, `dec` and `set` have in common: a value is replaced. -/
def update (g : Gauge K) (f : K → K) (labels : Dict String String) : Gauge K :=
  if labels.entries = [] then { g with value := f g.value }
  else
    let labelKey := labelsKey labels
    { g with
      labelValues := g.labelValues.set labelKey (f ((g.labelValues.get? labelKey).getD 0)) }

def inc [Add K] (g : Gauge K) (value : K) (labels : Dict String String) : Gauge K :=
  g.update (· + value) labels

def dec [Sub K] (g : Gauge K) (value : K) (labels : Dict String String) : Gauge K :=
  g.update (· - value) labels

def set (g : Gauge K) (value : K) (labels : Dict String String) : Gauge K :=
  g.update (fun _ => value) labels

def collect (g : Gauge K) : List (Line K) :=
  header g.name g.description "gauge" ++ [.sample g.name "" (.number g.value)] ++
    g.labelValues.entries.map fun e => .sample g.name e.1 (.number e.2)

end Gauge

namespace Series

variable [LinearOrder K]

def new (bounds : List K) : Series K :=
  ⟨0, 0, bounds.foldl (fun d b => d.set b 0) .empty⟩

/-- Every bucket at or above the value is counted up. -/
def countUp (bounds : List K) (value : K) (buckets : Dict K ℕ) : Dict K ℕ :=
  bounds.foldl (fun d b => if value ≤ b then d.set b ((d.get? b).getD 0 + 1) else d) buckets

def observe [Add K] (bounds : List K) (value : K) (s : Series K) : Series K where
  count := s.count + 1
  sum := s.sum + value
  buckets := countUp bounds value s.buckets

/-- The buckets as they are printed: each bound with the running sum of the bucket counts. -/
def cumulated (s : Series K) : ℕ → List K → List (K × ℕ)
  | _, [] => []
  | cumulative, b :: bounds =>
    let cumulative := cumulative + (s.buckets.get? b).getD 0
    (b, cumulative) :: cumulated s cumulative bounds

end Series

/-- The labels of a bucket line, before the labels of its series if it has any. -/
def bucketLabels (bucket : String) : Option String → String
  | none => "le=\"" ++ bucket ++ "\""
  | some labelKey => "le=\"" ++ bucket ++ "\"," ++ labelKey

namespace Histogram

variable [LinearOrder K]

def new (name description : String) (buckets : List K) : Histogram K :=
  ⟨name, description, buckets, .new buckets, .empty⟩

def observe [Add K] (h : Histogram K) (value : K) (labels : Dict String String) : Histogram K :=
  let h := { h with totals := h.totals.observe h.buckets value }
  if labels.entries = [] then h
  else
    let labelKey := labelsKey labels
    let data := (h.labeledData.get? labelKey).getD (.new h.buckets)
    { h with labeledData := h.labeledData.set labelKey (data.observe h.buckets value) }

/-- The buckets of a series as `collect` prints them. -/
def bucketSamples (h : Histogram K) (s : Series K) : List (K × ℕ) := s.cumulated 0 h.buckets

/-- The lines of the totals, or of one label key. `floatText` is `str` of a number. -/
def seriesLines (floatText : K → String) (h : Histogram K) (labelKey : Option String)
    (s : Series K) : List (Line K) :=
  ((h.bucketSamples s).map fun p =>
    .sample (h.name ++ "_bucket") (bucketLabels (floatText p.1) labelKey) (.count p.2)) ++
  [.sample (h.name ++ "_bucket") (bucketLabels "+Inf" labelKey) (.count s.count),
    .sample (h.name ++ "_sum") (labelKey.getD "") (.number s.sum),
    .sample (h.name ++ "_count") (labelKey.getD "") (.count s.count)]

def collect (floatText : K → String) (h : Histogram K) : List (Line K) :=
  header h.name h.description "histogram" ++ h.seriesLines floatText none h.totals ++
    h.labeledData.entries.flatMap fun e => h.seriesLines floatText (some e.1) e.2

end Histogram

structure MetricsRegistry (K : Type) where
  counters : Dict String (Counter K)
  gauges : Dict String (Gauge K)
  histograms : Dict String (Histogram K)

namespace MetricsRegistry

def init : MetricsRegistry K := ⟨.empty, .empty, .empty⟩

def key (name : String) (labels : Dict String String) : String := name ++ ":" ++ labelsKey labels

/-- `if key not in metrics: metrics[key] = metric`. -/
def getOrCreate {M : Type} (metrics : Dict String M) (key : String) (metric : M) :
    Dict String M :=
  if metrics.contains key then metrics else metrics.set key metric

def counter (r : MetricsRegistry K) (name description : String) (labels : Dict String String) :
    MetricsRegistry K :=
  { r with counters := getOrCreate r.counters (key name labels) (.new name description) }

def gauge (r : MetricsRegistry K) (name description : String) (labels : Dict String String) :
    MetricsRegistry K :=
  { r with gauges := getOrCreate r.gauges (key name labels) (.new name description) }

variable [LinearOrder K]

def histogram (r : MetricsRegistry K) (name description : String) (buckets : Option (List K))
    (labels : Dict String String) : MetricsRegistry K :=
  { r with
    histograms := getOrCreate r.histograms (key name labels)
      (.new name description (buckets.getD [])) }

def collectLines (floatText : K → String) (r : MetricsRegistry K) : List (Line K) :=
  .comment "# Prometheus metrics" ::
    (r.counters.values.flatMap Counter.collect ++ r.gauges.values.flatMap Gauge.collect ++
      r.histograms.values.flatMap (Histogram.collect floatText))

end MetricsRegistry

def SampleValue.text (floatText : K → String) : SampleValue K → String
  | .number x => floatText x
  | .count n => s!"{n}.0"

def Line.text (floatText : K → String) : Line K → String
  | .comment text => text
  | .sample name labels value =>
    name ++ (if labels = "" then "" else "\x7b" ++ labels ++ "\x7d") ++ " " ++ value.text floatText

def MetricsRegistry.collect [LinearOrder K] (floatText : K → String) (r : MetricsRegistry K) :
    String :=
  "\n".intercalate ((r.collectLines floatText).map (Line.text floatText)) ++ "\n"

end Metrics
