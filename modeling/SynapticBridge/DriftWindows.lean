import SynapticBridge.DriftAlarms

/-! What the drift detector reports about a tool is a function of the calls that were made: the
last samples of the tool, and the window that its last baseline was taken from. -/
namespace DriftWindows

open Domain OrderedDict SampleDeviation DriftAlarms
open CorrectionPatterns (PyMath)

inductive Call (K : Type) where
  | checkDrift (toolName : String) (behavior : Behavior K) (now : String)
  | updateBaseline (toolName now : String)

structure BehaviorStats (K : Type) where
  toolName : String
  sampleCount : ℕ
  executionTimeMs : Stats K
  hasBaseline : Bool

/-- Statistics are left out for an empty history, and the baseline where there is none. -/
structure ToolInfo (K : Type) where
  toolName : String
  sampleCount : ℕ
  hasBaseline : Bool
  executionTimeStats : Option (Stats K)
  baseline : Option (Baseline K)

structure DriftReport (K : Type) where
  toolsMonitored : ℕ
  toolsWithBaselines : ℕ
  tools : List (ToolInfo K)

section Readers

variable {K : Type} [Field K] [LinearOrder K] [PyMath K]

/-- A detector goes on after a call that raised. -/
def call (dd : DriftDetector K) : Call K → DriftDetector K
  | .checkDrift toolName behavior now => (checkDrift dd toolName behavior now).2
  | .updateBaseline toolName now => (updateBaseline dd toolName now).2

def afterCalls (windowSize : ℤ) (driftThreshold : K) (minSamples : ℤ) (calls : List (Call K)) :
    DriftDetector K :=
  calls.foldl call (init windowSize driftThreshold minSamples)

/-- An empty deque is as good as none here. -/
def getBehaviorStats (dd : DriftDetector K) (toolName : String) : Option (BehaviorStats K) :=
  match dd.behaviorHistory.get? toolName with
  | none => none
  | some history =>
    if history = [] then none
    else some ⟨toolName, history.length, getStats (executionTimes history),
      dd.baselines.contains toolName⟩

def toolInfo (dd : DriftDetector K) (entry : String × List (Sample K)) : ToolInfo K where
  toolName := entry.1
  sampleCount := entry.2.length
  hasBaseline := dd.baselines.contains entry.1
  executionTimeStats :=
    if executionTimes entry.2 = [] then none else some (getStats (executionTimes entry.2))
  baseline := dd.baselines.get? entry.1

def getDriftReport (dd : DriftDetector K) : DriftReport K where
  toolsMonitored := dd.behaviorHistory.keys.length
  toolsWithBaselines := dd.baselines.keys.length
  tools := dd.behaviorHistory.entries.map (toolInfo dd)

end Readers

/-! Names in the order of their first mention. -/

def firstSeen (names : List String) : List String := names.reverse.dedup.reverse

theorem mem_firstSeen {names : List String} {name : String} :
    name ∈ firstSeen names ↔ name ∈ names := by
  simp [firstSeen]

theorem firstSeen_concat (names : List String) (name : String) :
    firstSeen (names ++ [name]) =
      if name ∈ names then firstSeen names else firstSeen names ++ [name] := by
  rw [firstSeen, List.reverse_concat]
  split_ifs with hseen
  · rw [List.dedup_cons_of_mem (List.mem_reverse.mpr hseen), firstSeen]
  · rw [List.dedup_cons_of_notMem (mt List.mem_reverse.mp hseen), List.reverse_cons, firstSeen]

/-- What lies further back than the window does not come in again. -/
theorem rtake_concat {α : Type} (n : ℕ) (xs : List α) (x : α) :
    (xs.rtake n ++ [x]).rtake n = (xs ++ [x]).rtake n := by
  cases n with
  | zero => simp
  | succ n =>
    rw [List.rtake_concat_succ, List.rtake_concat_succ]
    simp only [List.rtake_eq_reverse_take_reverse, List.reverse_reverse, List.take_take,
      Nat.min_eq_left n.le_succ]

theorem length_rtake {α : Type} (n : ℕ) (xs : List α) :
    (xs.rtake n).length = min n xs.length := by
  simp [List.rtake_eq_reverse_take_reverse]

section Log

variable {K : Type} [Field K]

def checkedTool : Call K → Option String
  | .checkDrift toolName _ _ => some toolName
  | .updateBaseline _ _ => none

def observation (toolName : String) : Call K → Option (Sample K)
  | .checkDrift tool behavior now => if tool = toolName then some (sample behavior now) else none
  | .updateBaseline _ _ => none

/-- The samples of a tool, the forgotten ones among them. -/
def observed (calls : List (Call K)) (toolName : String) : List (Sample K) :=
  calls.filterMap (observation toolName)

/-- The samples that are still held. A negative size holds none, as no deque can be made. -/
def recent (windowSize : ℤ) (calls : List (Call K)) (toolName : String) : List (Sample K) :=
  (observed calls toolName).rtake windowSize.toNat

/-- A baseline can be taken: enough samples, and one at least. -/
def Enough (minSamples : ℤ) (window : List (Sample K)) : Prop :=
  minSamples ≤ window.length ∧ 0 < window.length

instance (minSamples : ℤ) (window : List (Sample K)) : Decidable (Enough minSamples window) :=
  inferInstanceAs (Decidable (_ ∧ _))

/-- No update of this tool's baseline. -/
def Untouched (toolName : String) (calls : List (Call K)) : Prop :=
  ∀ now, Call.updateBaseline toolName now ∉ calls

theorem observed_concat (calls : List (Call K)) (c : Call K) (toolName : String) :
    observed (calls ++ [c]) toolName =
      observed calls toolName ++ (observation toolName c).toList := by
  rw [observed, List.filterMap_append, observed]
  cases h : observation toolName c with
  | none => simp [h]
  | some s => simp [h]

/-- A window only fills. -/
theorem Enough.later {minSamples windowSize : ℤ} {calls : List (Call K)} {toolName : String}
    (h : Enough minSamples (recent windowSize calls toolName)) (c : Call K) :
    Enough minSamples (recent windowSize (calls ++ [c]) toolName) := by
  simp only [Enough, recent, length_rtake, observed_concat, List.length_append] at h ⊢
  omega

variable [LinearOrder K] [PyMath K]

def baselineOf (window : List (Sample K)) (now : String) : Baseline K :=
  ⟨getStats (executionTimes window), mean (window.map (·.errorRate)), now⟩

/-- What an update takes from the samples that are held when it comes. -/
def taken (windowSize minSamples : ℤ) (before : List (Call K)) (toolName now : String) :
    Option (Baseline K) :=
  if Enough minSamples (recent windowSize before toolName) then
    some (baselineOf (recent windowSize before toolName) now)
  else none

end Log

section Runs

variable {K : Type} [Field K] [LinearOrder K] [PyMath K] {windowSize minSamples : ℤ}
  {driftThreshold : K} {calls : List (Call K)} {dd : DriftDetector K} {toolName : String}

/-- What a detector holds of the calls. -/
structure Recorded (windowSize minSamples : ℤ) (calls : List (Call K)) (dd : DriftDetector K) :
    Prop where
  size : dd.windowSize = windowSize
  fewest : dd.minSamples = minSamples
  keys : dd.behaviorHistory.keys =
    if 0 ≤ windowSize then firstSeen (calls.filterMap checkedTool) else []
  window : ∀ toolName,
    (dd.behaviorHistory.get? toolName).getD [] = recent windowSize calls toolName
  earned : ∀ toolName, (dd.baselines.get? toolName).isSome →
    Enough minSamples (recent windowSize calls toolName)

omit [LinearOrder K] [PyMath K] in
theorem recorded_init (windowSize minSamples : ℤ) (driftThreshold : K) :
    Recorded windowSize minSamples [] (init windowSize driftThreshold minSamples) where
  size := rfl
  fewest := rfl
  keys := by simp [init, firstSeen]
  window := by simp [init, recent, observed]
  earned := by simp [init]

/-- Both ways of a check: there is a deque to append to, or none of the size asked for. -/
theorem Recorded.checkDrift_eq (h : Recorded windowSize minSamples calls dd) (toolName : String)
    (behavior : Behavior K) (now : String) :
    (checkDrift dd toolName behavior now).2 =
      if 0 ≤ windowSize then { dd with
        behaviorHistory := dd.behaviorHistory.set toolName
          (recent windowSize (calls ++ [.checkDrift toolName behavior now]) toolName) }
      else dd := by
  have hwindow := h.window toolName
  have hstep : append windowSize (recent windowSize calls toolName) (sample behavior now) =
      recent windowSize (calls ++ [.checkDrift toolName behavior now]) toolName := by
    rw [append, recent, rtake_concat, recent, observed_concat, observation, if_pos rfl]
    rfl
  have hkeys : windowSize < 0 → dd.behaviorHistory.get? toolName = none := by
    intro hneg
    rw [Dict.get?_eq_none, h.keys, if_neg (not_le.mpr hneg)]
    exact List.not_mem_nil
  rw [checkDrift, historyOf, h.size]
  cases hget : dd.behaviorHistory.get? toolName with
  | none =>
    rw [hget, Option.getD_none] at hwindow
    simp only
    split_ifs with hneg hpos hpos
    · omega
    · rfl
    · simp only [hwindow, hstep]
    · omega
  | some history =>
    rw [hget, Option.getD_some] at hwindow
    have hpos : 0 ≤ windowSize := by
      by_contra hneg
      rw [hkeys (not_le.mp hneg)] at hget
      cases hget
    rw [if_pos hpos]
    simp only [hwindow, hstep]

theorem Recorded.updateBaseline_eq (h : Recorded windowSize minSamples calls dd)
    (toolName now : String) :
    (updateBaseline dd toolName now).2 =
      if Enough minSamples (recent windowSize calls toolName) then { dd with
        baselines := dd.baselines.set toolName
          (baselineOf (recent windowSize calls toolName) now) }
      else dd := by
  rw [updateBaseline, h.window, h.fewest, meanErrorRate]
  by_cases hfew : ((recent windowSize calls toolName).length : ℤ) < minSamples
  · have hnot : ¬ Enough minSamples (recent windowSize calls toolName) := by
      intro henough
      exact absurd henough.1 (not_le.mpr hfew)
    simp only [if_pos hfew, if_neg hnot]
  · by_cases hempty : recent windowSize calls toolName = []
    · have hnot : ¬ Enough minSamples (recent windowSize calls toolName) := by
        intro henough
        exact absurd henough.2 (by simp [hempty])
      simp only [if_neg hfew, if_pos hempty, if_neg hnot]
    · have henough : Enough minSamples (recent windowSize calls toolName) :=
        ⟨not_lt.mp hfew, List.length_pos_iff.mpr hempty⟩
      simp only [if_neg hfew, if_neg hempty, if_pos henough, baselineOf]

theorem Recorded.checkDrift (h : Recorded windowSize minSamples calls dd) (toolName : String)
    (behavior : Behavior K) (now : String) :
    Recorded windowSize minSamples (calls ++ [.checkDrift toolName behavior now])
      (checkDrift dd toolName behavior now).2 := by
  rw [h.checkDrift_eq]
  have hearned : ∀ tool, (dd.baselines.get? tool).isSome → Enough minSamples
      (recent windowSize (calls ++ [.checkDrift toolName behavior now]) tool) :=
    fun tool htool => (h.earned tool htool).later _
  split_ifs with hpos
  · refine ⟨h.size, h.fewest, ?_, ?_, hearned⟩
    · rw [Dict.keys_set, h.keys, if_pos hpos, if_pos hpos, List.filterMap_append]
      simp only [mem_firstSeen]
      exact (firstSeen_concat _ _).symm
    · intro tool
      rw [Dict.get?_set]
      split_ifs with htool
      · rw [htool, Option.getD_some]
      · rw [h.window, recent, recent, observed_concat, observation, if_neg (Ne.symm htool),
          Option.toList_none, List.append_nil]
  · refine ⟨h.size, h.fewest, ?_, ?_, hearned⟩
    · rw [h.keys, if_neg hpos, if_neg hpos]
    · intro tool
      have hzero : windowSize.toNat = 0 := by omega
      rw [h.window, recent, recent, hzero, List.rtake_zero, List.rtake_zero]

theorem Recorded.updateBaseline (h : Recorded windowSize minSamples calls dd)
    (toolName now : String) :
    Recorded windowSize minSamples (calls ++ [.updateBaseline toolName now])
      (updateBaseline dd toolName now).2 := by
  have hkeys : (calls ++ [Call.updateBaseline toolName now]).filterMap checkedTool =
      calls.filterMap checkedTool := by
    simp [checkedTool]
  have hrecent : ∀ tool, recent windowSize (calls ++ [.updateBaseline toolName now]) tool =
      recent windowSize calls tool := by
    intro tool
    rw [recent, recent, observed_concat, observation, Option.toList_none, List.append_nil]
  have hsame : Recorded windowSize minSamples (calls ++ [.updateBaseline toolName now]) dd := by
    refine ⟨h.size, h.fewest, ?_, ?_, ?_⟩
    · rw [hkeys]
      exact h.keys
    · intro tool
      rw [hrecent]
      exact h.window tool
    · intro tool hsome
      rw [hrecent]
      exact h.earned tool hsome
  rw [h.updateBaseline_eq]
  split_ifs with henough
  · refine ⟨hsame.size, hsame.fewest, hsame.keys, hsame.window, ?_⟩
    intro tool hsome
    rw [Dict.get?_set] at hsome
    split_ifs at hsome with htool
    · rw [hrecent, htool]
      exact henough
    · exact hsame.earned tool hsome
  · exact hsame

theorem recorded (windowSize minSamples : ℤ) (driftThreshold : K) (calls : List (Call K)) :
    Recorded windowSize minSamples calls
      (afterCalls windowSize driftThreshold minSamples calls) := by
  induction calls using List.reverseRecOn with
  | nil => exact recorded_init _ _ _
  | append_singleton calls c ih =>
    rw [afterCalls, List.foldl_concat]
    cases c with
    | checkDrift toolName behavior now => exact ih.checkDrift toolName behavior now
    | updateBaseline toolName now => exact ih.updateBaseline toolName now

/-- Only an update of its own touches a tool's baseline. -/
theorem baseline_untouched (windowSize minSamples : ℤ) (driftThreshold : K)
    {before after : List (Call K)} (h : Untouched toolName after) :
    (afterCalls windowSize driftThreshold minSamples (before ++ after)).baselines.get? toolName =
      (afterCalls windowSize driftThreshold minSamples before).baselines.get? toolName := by
  induction after using List.reverseRecOn with
  | nil => rw [List.append_nil]
  | append_singleton after c ih =>
    have hafter : Untouched toolName after :=
      fun now hmem => h now (List.mem_append_left _ hmem)
    have hrec := recorded windowSize minSamples driftThreshold (before ++ after)
    rw [← ih hafter, ← List.append_assoc]
    generalize hdd : afterCalls windowSize driftThreshold minSamples (before ++ after) = dd at hrec
    rw [afterCalls, List.foldl_concat]
    rw [afterCalls] at hdd
    rw [hdd]
    cases c with
    | checkDrift tool behavior now =>
      rw [call, hrec.checkDrift_eq]
      split_ifs <;> rfl
    | updateBaseline tool now =>
      have hne : toolName ≠ tool := by
        rintro rfl
        exact h now (List.mem_append_right _ List.mem_cons_self)
      rw [call, hrec.updateBaseline_eq]
      split_ifs
      · exact Dict.get?_set_of_ne _ hne _
      · rfl

theorem baseline_never (windowSize minSamples : ℤ) (driftThreshold : K)
    (h : Untouched toolName calls) :
    (afterCalls windowSize driftThreshold minSamples calls).baselines.get? toolName = none := by
  rw [← List.nil_append calls, baseline_untouched _ _ _ h]
  rfl

/-- The last update decides. Where it finds too few samples there was no baseline before it
either, for a window does not get shorter. -/
theorem baseline_last (windowSize minSamples : ℤ) (driftThreshold : K)
    (before : List (Call K)) (now : String) {after : List (Call K)}
    (h : Untouched toolName after) :
    (afterCalls windowSize driftThreshold minSamples
        (before ++ .updateBaseline toolName now :: after)).baselines.get? toolName =
      taken windowSize minSamples before toolName now := by
  have hrec := recorded windowSize minSamples driftThreshold before
  rw [List.append_cons, baseline_untouched _ _ _ h, afterCalls, List.foldl_concat, ← afterCalls,
    call, hrec.updateBaseline_eq, taken]
  split_ifs with henough
  · exact Dict.get?_set_self _ _ _
  · rw [← Option.not_isSome_iff_eq_none]
    exact mt (hrec.earned toolName) henough

omit [LinearOrder K] [PyMath K] in
/-- A baseline belongs to a tool that is monitored. -/
theorem Recorded.monitored (h : Recorded windowSize minSamples calls dd)
    (hb : toolName ∈ dd.baselines.keys) : toolName ∈ dd.behaviorHistory.keys := by
  by_contra hnone
  have hsome : (dd.baselines.get? toolName).isSome := Dict.contains_iff.mpr hb
  have hempty := h.window toolName
  rw [Dict.get?_eq_none.mpr hnone, Option.getD_none] at hempty
  exact absurd (h.earned toolName hsome).2 (by simp [← hempty])

theorem Recorded.counted (h : Recorded windowSize minSamples calls dd) :
    (getDriftReport dd).toolsWithBaselines = (getDriftReport dd).tools.countP (·.hasBaseline) := by
  have hcount : (getDriftReport dd).tools.countP (·.hasBaseline) =
      (dd.behaviorHistory.keys.filter dd.baselines.contains).length := by
    rw [← List.countP_eq_length_filter, getDriftReport, Dict.keys, List.countP_map,
      List.countP_map]
    rfl
  rw [hcount]
  apply List.Perm.length_eq
  rw [List.perm_ext_iff_of_nodup (Dict.keys_nodup _) ((Dict.keys_nodup _).filter _)]
  intro tool
  rw [List.mem_filter, Dict.contains_iff]
  exact ⟨fun hb => ⟨h.monitored hb, hb⟩, fun hb => hb.2⟩

/-- The row of a tool, told from the calls alone. -/
structure Told (windowSize minSamples : ℤ) (calls : List (Call K)) (info : ToolInfo K) :
    Prop where
  sampleCount : info.sampleCount = min windowSize.toNat (observed calls info.toolName).length
  statistics : info.executionTimeStats =
    if info.sampleCount = 0 then none
    else some (getStats (executionTimes (recent windowSize calls info.toolName)))
  hasBaseline : info.hasBaseline = info.baseline.isSome
  never : Untouched info.toolName calls → info.baseline = none
  last : ∀ before now after, calls = before ++ .updateBaseline info.toolName now :: after →
    Untouched info.toolName after →
      info.baseline = taken windowSize minSamples before info.toolName now

theorem toolInfo_told (windowSize minSamples : ℤ) (driftThreshold : K) (calls : List (Call K))
    {entry : String × List (Sample K)}
    (h : entry ∈ (afterCalls windowSize driftThreshold minSamples calls).behaviorHistory.entries) :
    Told windowSize minSamples calls
      (toolInfo (afterCalls windowSize driftThreshold minSamples calls) entry) := by
  obtain ⟨toolName, history⟩ := entry
  have hwindow : history = recent windowSize calls toolName := by
    rw [← (recorded windowSize minSamples driftThreshold calls).window toolName,
      Dict.get?_eq_some.mpr h, Option.getD_some]
  constructor
  · rw [toolInfo, hwindow, recent, length_rtake]
  · simp only [toolInfo, ← hwindow, List.length_eq_zero_iff, executionTimes, List.map_eq_nil_iff]
  · rfl
  · exact baseline_never windowSize minSamples driftThreshold
  · intro before now after hcalls huntouched
    have hlast := baseline_last windowSize minSamples driftThreshold before now huntouched
    rw [← hcalls] at hlast
    exact hlast

/-- What one tool's reader says, out of the tool's row. -/
def ToolInfo.behaviorStats? (info : ToolInfo K) : Option (BehaviorStats K) :=
  info.executionTimeStats.map fun stats =>
    ⟨info.toolName, info.sampleCount, stats, info.hasBaseline⟩

omit [Field K] [LinearOrder K] [PyMath K] in
theorem executionTimes_eq_nil {history : List (Sample K)} :
    executionTimes history = [] ↔ history = [] := by
  rw [executionTimes, List.map_eq_nil_iff]

theorem getBehaviorStats_iff (dd : DriftDetector K) (toolName : String) (s : BehaviorStats K) :
    getBehaviorStats dd toolName = some s ↔ ∃ info ∈ (getDriftReport dd).tools,
      info.toolName = toolName ∧ info.behaviorStats? = some s := by
  rw [getBehaviorStats]
  constructor
  · intro h
    cases hget : dd.behaviorHistory.get? toolName with
    | none =>
      rw [hget] at h
      cases h
    | some history =>
      rw [hget] at h
      refine ⟨_, List.mem_map_of_mem (Dict.get?_eq_some.mp hget), rfl, ?_⟩
      simp only [ToolInfo.behaviorStats?, toolInfo, executionTimes_eq_nil] at h ⊢
      split_ifs at h ⊢ with hempty
      exact h
  · rintro ⟨info, hinfo, rfl, h⟩
    obtain ⟨⟨tool, history⟩, hentry, rfl⟩ := List.mem_map.mp hinfo
    simp only [ToolInfo.behaviorStats?, toolInfo, executionTimes_eq_nil] at h ⊢
    rw [Dict.get?_eq_some.mpr hentry]
    simp only
    split_ifs at h ⊢ with hempty
    · cases h
    · exact h

/-- Whatever was called, the report has a row for each tool that was checked, in the order of the
first checks, and the calls alone tell what stands in it. -/
theorem report_told (windowSize minSamples : ℤ) (driftThreshold : K) (calls : List (Call K)) :
    (getDriftReport (afterCalls windowSize driftThreshold minSamples calls)).tools.map
        (·.toolName) =
      (if 0 ≤ windowSize then firstSeen (calls.filterMap checkedTool) else []) ∧
    (∀ info ∈ (getDriftReport (afterCalls windowSize driftThreshold minSamples calls)).tools,
      Told windowSize minSamples calls info) ∧
    (getDriftReport (afterCalls windowSize driftThreshold minSamples calls)).toolsMonitored =
      (getDriftReport (afterCalls windowSize driftThreshold minSamples calls)).tools.length ∧
    (getDriftReport (afterCalls windowSize driftThreshold minSamples calls)).toolsWithBaselines =
      (getDriftReport (afterCalls windowSize driftThreshold minSamples calls)).tools.countP
        (·.hasBaseline) ∧
    ∀ toolName s, getBehaviorStats (afterCalls windowSize driftThreshold minSamples calls)
        toolName = some s ↔
      ∃ info ∈ (getDriftReport (afterCalls windowSize driftThreshold minSamples calls)).tools,
        info.toolName = toolName ∧ info.behaviorStats? = some s := by
  have hrec := recorded windowSize minSamples driftThreshold calls
  refine ⟨?_, ?_, ?_, hrec.counted, getBehaviorStats_iff _⟩
  · rw [← hrec.keys, getDriftReport, List.map_map]
    rfl
  · intro info hinfo
    obtain ⟨entry, hentry, rfl⟩ := List.mem_map.mp hinfo
    exact toolInfo_told windowSize minSamples driftThreshold calls hentry
  · rw [getDriftReport, List.length_map, Dict.keys, List.length_map]

end Runs

end DriftWindows
