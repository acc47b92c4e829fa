import SynapticBridge.ClaudeCodeTools

/-! Error replies against what was stored. Five of the six tools store nothing before they raise,
and what they return can be written; a captured correction is stored, but cannot be written. -/
namespace ErrorReplies

open Domain OrderedDict PythonText PythonValues ClaudeCodeServer ClaudeCodeTools
open Procedures.Proc

inductive SynapticTool where
  | createSession
  | executeTool
  | captureCorrection
  | listTools
  | addPolicy
  | queryLogs
  deriving DecidableEq

def SynapticTool.name : SynapticTool → String
  | .createSession => "synaptic_create_session"
  | .executeTool => "synaptic_execute_tool"
  | .captureCorrection => "synaptic_capture_correction"
  | .listTools => "synaptic_list_tools"
  | .addPolicy => "synaptic_add_policy"
  | .queryLogs => "synaptic_query_logs"

section Frames

variable {K D α : Type} [Field K] [LinearOrder K] {libs : Libraries K} {draws : Draws K}

/-- The parts of the state that an error reply is about. -/
def stored (s : State K D) :
    CorrectionStore K D × Dict String ToolManifest × Dict String (StoredPolicy K) :=
  (s.correctionStore, s.toolRegistry, s.policyEngine)

theorem keeps_onExecutionPort (x : Proc (Dict String (Session K)) α) :
    Keeps stored (onExecutionPort x : Proc (State K D) α) := by
  refine keeps_on ?_ x
  intro _ _
  rfl

theorem keeps_onAuditLog (x : Proc (List (AuditEvent K)) α) :
    Keeps stored (onAuditLog x : Proc (State K D) α) := by
  refine keeps_on ?_ x
  intro _ _
  rfl

theorem keeps_flushDomainEvents (events : List (Event K)) :
    Keeps stored (flushDomainEvents libs draws events : Proc (State K D) Unit) := by
  induction events with
  | nil => exact keeps_pure ()
  | cons event rest ih => exact keeps_bind (keeps_onAuditLog _) fun _ => ih

theorem keeps_createSessionCall (params : PyVal K) :
    Keeps stored (createSessionCall libs draws params : Proc (State K D) (Session K)) := by
  refine keeps_bind (keeps_ofExcept _) fun agentId => ?_
  refine keeps_bind (keeps_ofExcept _) fun createdBy => ?_
  refine keeps_bind (keeps_onExecutionPort _) fun session => ?_
  exact keeps_bind (keeps_flushDomainEvents _) fun _ => keeps_pure session

/-- A denial only writes to the log. -/
theorem keeps_checkPolicies (cmd : ExecuteToolCommand K) (session : Session K)
    (policies : List (StoredPolicy K)) :
    Keeps stored (checkPolicies libs draws cmd session policies : Proc (State K D) Unit) := by
  induction policies with
  | nil => exact keeps_pure ()
  | cons policy rest ih =>
    rw [checkPolicies]
    split_ifs
    · exact ih
    · exact keeps_bind (keeps_onAuditLog _) fun _ => keeps_raise _
    · exact ih

theorem keeps_executeToolCommand (cmd : ExecuteToolCommand K) :
    Keeps stored (cmd.execute libs draws : Proc (State K D) (PyVal K)) := by
  refine keeps_bind (keeps_onExecutionPort _) fun found => ?_
  cases found with
  | none => exact keeps_raise _
  | some session =>
    simp only
    split_ifs
    · refine keeps_bind keeps_read fun _ => ?_
      refine keeps_bind (keeps_ofExcept _) fun manifest => ?_
      cases manifest with
      | none => exact keeps_raise _
      | some manifest =>
        refine keeps_bind keeps_read fun _ => ?_
        refine keeps_bind (keeps_checkPolicies _ _ _) fun _ => ?_
        exact keeps_bind (keeps_onAuditLog _) fun _ => keeps_pure _
    · exact keeps_raise _

theorem keeps_executeToolCall (params : PyVal K) :
    Keeps stored (executeToolCall libs draws params : Proc (State K D) (PyVal K)) := by
  refine keeps_bind (keeps_ofExcept _) fun sessionId => ?_
  refine keeps_bind (keeps_ofExcept _) fun toolName => ?_
  refine keeps_bind (keeps_ofExcept _) fun parameters => ?_
  exact keeps_bind (keeps_ofExcept _) fun intent => keeps_executeToolCommand _

theorem keeps_listToolsCall (params : PyVal K) :
    Keeps stored (listToolsCall params : Proc (State K D) (Dict String ToolManifest)) :=
  keeps_bind keeps_read fun _ => keeps_pure _

theorem keeps_queryLogsCall (params : PyVal K) :
    Keeps stored (queryLogsCall params : Proc (State K D) (List (AuditEvent K))) := by
  refine keeps_bind (keeps_ofExcept _) fun sessionId => ?_
  refine keeps_bind keeps_read fun _ => ?_
  exact keeps_bind (keeps_ofExcept _) fun limit => keeps_ofExcept _

/-- A policy enters the engine as the last thing that happens. -/
theorem keepsRaising_addPolicyCall (params : PyVal K) :
    KeepsRaising stored
      (addPolicyCall libs draws params : Proc (State K D) (StoredPolicy K)) := by
  refine keepsRaising_bind (keeps_ofExcept _) fun cmd => ?_
  refine keepsRaising_bind (keeps_ofExcept _) fun policy => ?_
  exact keepsRaising_of_returns fun s => ⟨policy, _, rfl⟩

end Frames

/-! What a turn prints for a call of a tool. -/

section Turns

variable {K D : Type} [Field K] [LinearOrder K] (connection : Connection K D)
  (libs : Libraries K) (draws : Draws K)

def SynapticTool.handler (params : PyVal K) : SynapticTool → Proc (State K D) (Returned K)
  | .createSession => createSessionHandler libs draws params
  | .executeTool => executeToolHandler libs draws params
  | .captureCorrection => captureCorrectionHandler connection libs draws params
  | .listTools => listToolsHandler params
  | .addPolicy => addPolicyHandler libs draws params
  | .queryLogs => queryLogsHandler params

/-- The command behind the tool returns; the two tools without a command have their query. -/
def Completed (params : PyVal K) (s : State K D) : SynapticTool → Prop
  | .createSession => Returns (createSessionCall libs draws params) s
  | .executeTool => Returns (executeToolCall libs draws params) s
  | .captureCorrection => Returns (captureCorrectionCall connection libs draws params) s
  | .listTools => Returns (listToolsCall params) s
  | .addPolicy => Returns (addPolicyCall libs draws params) s
  | .queryLogs => Returns (queryLogsCall params) s

/-- A message that calls the tool with these arguments. -/
structure Calls (message : List (String × PyVal K)) (tool : SynapticTool) (params : PyVal K) :
    Prop where
  method : field message "method" .none = .str "tools/call"
  params : ∃ items, field message "params" (.dict []) = .dict items ∧
    field items "name" .none = .str tool.name ∧ field items "arguments" (.dict []) = params

variable (loads : Text → Except PyException (PyVal K)) {line : Text}
  {message : List (String × PyVal K)} {tool : SynapticTool} {params : PyVal K}
  {s s' : State K D} {e : PyException}

/-- Every tool is registered under its own name. -/
theorem registered (tool : SynapticTool) : ∃ entry,
    (initialTools connection libs draws).get? tool.name = some entry ∧
      ∀ params, entry.handler params = raised (tool.handler connection libs draws params) := by
  cases tool <;> exact ⟨_, rfl, fun _ => rfl⟩

theorem request_calls (h : Calls message tool params) : ∃ entry,
    request (initializedServer connection libs draws loads) message = .callTool entry params ∧
      entry.handler params = raised (tool.handler connection libs draws params) := by
  obtain ⟨items, hitems, hname, rfl⟩ := h.params
  obtain ⟨entry, hentry, hhandler⟩ := registered connection libs draws tool
  refine ⟨entry, ?_, hhandler _⟩
  have hfind : find (initializedServer connection libs draws loads).tools
      (field items "name" .none) = .ok (some (tool.name, entry)) := by
    rw [hname]
    exact congrArg (fun found => Except.ok (found.map fun a => (tool.name, a))) hentry
  unfold request
  simp only [h.method, hitems, isText, callRequest, hfind]
  rfl

/-- The handlers return what their commands do. -/
theorem completed_iff : Completed connection libs draws params s tool ↔
    Returns (tool.handler connection libs draws params) s := by
  cases tool with
  | createSession => exact (returns_bind_pure _).symm
  | executeTool => exact (returns_bind_pure _).symm
  | captureCorrection => exact (returns_bind_pure _).symm
  | listTools => exact (returns_bind_pure _).symm
  | addPolicy => exact (returns_bind_pure _).symm
  | queryLogs => exact (returns_bind_pure _).symm

/-- The response that a handler's outcome becomes. -/
def printed (libs : Libraries K) (msgId : PyVal K) :
    Except PyException (Returned K) → List (Response K (Returned K))
  | .ok (.value v) => [.result msgId (.content (libs.dumps v))]
  | .ok (.correction _) =>
    [.error none (-32603) "Object of type Correction is not JSON serializable"]
  | .error e => if isJsonDecodeError e then [] else [.error none (-32603) e.text]

theorem raised_error {x : Proc (State K D) (Returned K)} (h : x.run s = (.error e, s')) :
    (raised x).run s = (.error (.exception e), s') := by
  unfold raised
  simp only [h]
  rfl

theorem raised_ok {x : Proc (State K D) (Returned K)} {v : Returned K}
    (h : x.run s = (.ok v, s')) : (raised x).run s = (.ok v, s') := by
  unfold raised
  simp only [h]
  rfl

variable {loads} in
/-- A turn runs the handler and prints what becomes of its outcome. -/
theorem respond_calls (hloads : loads (strip line) = .ok (.dict message))
    (hcalls : Calls message tool params) :
    (respond (initializedServer connection libs draws loads) line).run s =
      (.ok (printed libs (field message "id" .none)
        ((tool.handler connection libs draws params).run s).1),
        ((tool.handler connection libs draws params).run s).2) := by
  obtain ⟨entry, hrequest, hhandler⟩ := request_calls connection libs draws loads hcalls
  rw [respond_eq hloads, hrequest, finish]
  rcases hrun : (tool.handler connection libs draws params).run s with ⟨e | v, s'⟩
  · refine guarded_exception (bind_error ?_ _)
    rw [perform, hhandler]
    exact bind_error (raised_error hrun) _
  · cases v with
    | value v =>
      have hperform : (perform (initializedServer connection libs draws loads)
          (field message "id" .none) (.callTool entry params)).run s =
            (.ok (.result (field message "id" .none) (.content (libs.dumps v))), s') := by
        rw [perform, hhandler, bind_ok (raised_ok hrun)]
        rfl
      exact guarded_ok (bind_ok hperform _)
    | correction c =>
      have hperform : (perform (initializedServer connection libs draws loads)
          (field message "id" .none) (.callTool entry params)).run s =
            (.error (.exception (.typeError
              "Object of type Correction is not JSON serializable")), s') := by
        rw [perform, hhandler, bind_ok (raised_ok hrun)]
        rfl
      exact guarded_exception (bind_error hperform _)

theorem value_of_bind {α : Type} {x : Proc (State K D) α} {g : α → PyVal K} {r : Returned K}
    (h : (x >>= fun a => pure (.value (g a))).run s = (.ok r, s')) : ∃ v, r = .value v := by
  obtain ⟨a, s₁, -, hpure⟩ := bind_eq_ok.mp h
  cases hpure
  exact ⟨g a, rfl⟩

/-- What five handlers return can be written. -/
theorem handler_value {r : Returned K} (hother : tool ≠ .captureCorrection)
    (h : (tool.handler connection libs draws params).run s = (.ok r, s')) :
    ∃ v, r = .value v := by
  cases tool with
  | captureCorrection => exact absurd rfl hother
  | createSession => exact value_of_bind h
  | executeTool => exact value_of_bind h
  | listTools => exact value_of_bind h
  | addPolicy => exact value_of_bind h
  | queryLogs => exact value_of_bind h

/-- Five handlers store nothing where they raise. -/
theorem handler_keepsRaising (hother : tool ≠ .captureCorrection) :
    KeepsRaising stored (tool.handler connection libs draws params) := by
  cases tool with
  | captureCorrection => exact absurd rfl hother
  | createSession => exact (keeps_createSessionCall params).raising.bind_pure _
  | executeTool => exact (keeps_executeToolCall params).raising.bind_pure _
  | listTools => exact (keeps_listToolsCall params).raising.bind_pure _
  | addPolicy => exact (keepsRaising_addPolicyCall params).bind_pure _
  | queryLogs => exact (keeps_queryLogsCall params).raising.bind_pure _

end Turns

/-! A captured correction: what makes one, and what saving it does to the store. -/

section Capture

variable {K D : Type} [Field K] [LinearOrder K] {connection : Connection K D}
  {libs : Libraries K} {draws : Draws K} {params value : PyVal K} {c : Captured K} {s : State K D}
  {store store' : CorrectionStore K D} {db db' : D} {e : PyException}

/-- A number between zero and one. -/
def InRange (value : PyVal K) : Prop := ∃ x, number value = some (.finite x) ∧ 0 ≤ x ∧ x ≤ 1

/-- The two tools are there, and both confidences, given or not, are in range. -/
structure Recordable (items : List (String × PyVal K)) : Prop where
  originalTool : (items.lookup "original_tool").isSome = true
  correctedTool : (items.lookup "corrected_tool").isSome = true
  before : InRange (field items "confidence_before" (.float (fraction 1 2)))
  after : InRange (field items "confidence_after" (.float (fraction 9 10)))

theorem confidence_ok : (∃ x, confidence value = .ok x) ↔ InRange value := by
  unfold confidence InRange
  cases number value with
  | none => simp
  | some n =>
    cases n with
    | finite x =>
      by_cases h : 0 ≤ x ∧ x ≤ 1
      · simp [h]
      · simp [h]
    | infinite negative => simp
    | nan => simp

theorem newCorrection_ok (cmd : CaptureCorrectionCommand K) :
    (∃ c, cmd.newCorrection draws = .ok c) ↔
      InRange cmd.confidenceBefore ∧ InRange cmd.confidenceAfter := by
  rw [← confidence_ok, ← confidence_ok]
  unfold CaptureCorrectionCommand.newCorrection
  rcases confidence cmd.confidenceBefore with e | before
  · simp [bind, Except.bind]
  · rcases confidence cmd.confidenceAfter with e | after
    · simp [bind, Except.bind]
    · simp [bind, Except.bind, pure, Except.pure]

/-- The command of two tools; whatever else is not given has its default. -/
def filled (items : List (String × PyVal K)) (originalTool correctedTool : PyVal K) :
    CaptureCorrectionCommand K :=
  ⟨field items "session_id" (.str ""), field items "agent_id" (.str ""),
    field items "original_intent" (.str ""), field items "inferred_context" (.str ""),
    originalTool, correctedTool, field items "correction_metadata" (.dict []),
    field items "operator_identity" (.str "claude"),
    field items "confidence_before" (.float (fraction 1 2)),
    field items "confidence_after" (.float (fraction 9 10))⟩

omit [LinearOrder K] in
theorem captureCorrectionCommand_dict (items : List (String × PyVal K)) :
    captureCorrectionCommand (.dict items) = (do
      let originalTool ← getItem (.dict items) "original_tool"
      let correctedTool ← getItem (.dict items) "corrected_tool"
      return filled items originalTool correctedTool) := rfl

/-- The correction that the arguments make, under the identifier that is drawn. -/
def Makes (draws : Draws K) (params : PyVal K) (c : Captured K) : Prop :=
  ∃ cmd, captureCorrectionCommand params = .ok cmd ∧ cmd.newCorrection draws = .ok c

variable (draws) in
theorem makes_iff : (∃ c, Makes draws params c) ↔
    ∃ items, params = .dict items ∧ Recordable items := by
  cases params with
  | dict items =>
    simp only [Makes, captureCorrectionCommand_dict, getItem]
    rcases horiginal : items.lookup "original_tool" with _ | originalTool
    · refine iff_of_false ?_ ?_
      · rintro ⟨c, cmd, hcmd, -⟩
        cases hcmd
      · rintro ⟨items', hitems, recordable⟩
        obtain rfl := PyVal.dict.inj hitems
        have hgiven := recordable.originalTool
        rw [horiginal] at hgiven
        cases hgiven
    · rcases hcorrected : items.lookup "corrected_tool" with _ | correctedTool
      · refine iff_of_false ?_ ?_
        · rintro ⟨c, cmd, hcmd, -⟩
          cases hcmd
        · rintro ⟨items', hitems, recordable⟩
          obtain rfl := PyVal.dict.inj hitems
          have hgiven := recordable.correctedTool
          rw [hcorrected] at hgiven
          cases hgiven
      · constructor
        · rintro ⟨c, cmd, hcmd, hc⟩
          obtain rfl := Except.ok.inj hcmd
          obtain ⟨before, after⟩ := (newCorrection_ok _).mp ⟨c, hc⟩
          exact ⟨items, rfl, by rw [horiginal]; rfl, by rw [hcorrected]; rfl, before, after⟩
        · rintro ⟨items', hitems, recordable⟩
          obtain rfl := PyVal.dict.inj hitems
          obtain ⟨c, hc⟩ := (newCorrection_ok (filled items originalTool correctedTool)).mpr
            ⟨recordable.before, recordable.after⟩
          exact ⟨c, _, rfl, hc⟩
  | _ =>
    refine iff_of_false ?_ ?_
    · rintro ⟨c, cmd, hcmd, -⟩
      cases hcmd
    · rintro ⟨items, hitems, -⟩
      cases hitems

theorem Makes.correctionId (h : Makes draws params c) :
    c.correctionId = "corr_" ++ hexPrefix 12 draws.correctionHex := by
  obtain ⟨cmd, -, hc⟩ := h
  unfold CaptureCorrectionCommand.newCorrection at hc
  rcases hbefore : confidence cmd.confidenceBefore with e | before
  · rw [hbefore] at hc
    cases hc
  · rcases hafter : confidence cmd.confidenceAfter with e | after
    · rw [hbefore, hafter] at hc
      cases hc
    · rw [hbefore, hafter] at hc
      obtain rfl := Except.ok.inj hc
      rfl

variable (draws c) in
/-- The correction is in before the key of its pattern is hashed, and stays in. -/
theorem saveInMemory_corrections (corrections : Dict String (Captured K))
    (patterns : Dict (HashKey K) (Pattern K)) :
    ((saveInMemory draws c).run (corrections, patterns)).2.1 =
      corrections.set c.correctionId c := by
  rw [saveInMemory, bind_ok (modify_run _ _)]
  rcases hashKey c.correctedTool with e | key
  · rfl
  · rfl

theorem statement_run (f : D → Except PyException D) (db : D) :
    (statement f).run db = match f db with
      | .ok db' => (.ok (), db')
      | .error e => (.error e, db) := by
  rw [statement, bind_ok (read_run db), bind_run]
  rcases f db with e | db'
  · rfl
  · rfl

theorem keeps_statement {f : D → Except PyException D} {view : D → ℕ}
    (h : ∀ db db', f db = .ok db' → view db' = view db) : Keeps view (statement f) := by
  intro db
  rw [statement_run]
  rcases hf : f db with e | db'
  · rfl
  · exact h db db' hf

variable (connection libs draws c) in
/-- The statements about patterns leave the corrections alone. -/
theorem keeps_updatePattern : Keeps connection.corrections
    (updatePatternFromCorrection connection libs draws c) := by
  refine keeps_bind keeps_read fun db => ?_
  refine keeps_bind (keeps_ofExcept _) fun found => ?_
  cases found with
  | none => exact keeps_statement (connection.insertPattern_keeps _ _ _ _ _ _ _)
  | some found => exact keeps_statement (connection.updatePattern_keeps _ _ _ _ _)

theorem saveInDuckDB_inserted
    (h : connection.insertCorrection c (libs.dumps c.correctionMetadata) db = .ok db') :
    (saveInDuckDB connection libs draws c).run db =
      (updatePatternFromCorrection connection libs draws c).run db' := by
  have hinsert : (statement (connection.insertCorrection c
      (libs.dumps c.correctionMetadata))).run db = (.ok (), db') := by
    rw [statement_run, h]
  exact bind_ok hinsert _

theorem saveInDuckDB_refused
    (h : connection.insertCorrection c (libs.dumps c.correctionMetadata) db = .error e) :
    (saveInDuckDB connection libs draws c).run db = (.error e, db) := by
  have hinsert : (statement (connection.insertCorrection c
      (libs.dumps c.correctionMetadata))).run db = (.error e, db) := by
    rw [statement_run, h]
  exact bind_error hinsert _

/-- The store takes the correction: a dictionary does, and DuckDB if the insert passes. -/
def Takes (connection : Connection K D) (libs : Libraries K) (c : Captured K) :
    CorrectionStore K D → Prop
  | .inMemory _ _ => True
  | .duckDB db => ∃ db',
      connection.insertCorrection c (libs.dumps c.correctionMetadata) db = .ok db'

/-- The identifier of the correction is not in use. -/
def Fresh (correctionId : String) : CorrectionStore K D → Prop
  | .inMemory corrections _ => corrections.get? correctionId = none
  | .duckDB _ => True

/-- A taken correction changes the store, also where the save raises afterwards. -/
theorem saved_changes (takes : Takes connection libs c store) (fresh : Fresh c.correctionId store) :
    ((saveCorrection connection libs draws c).run store).2 ≠ store := by
  intro hsame
  cases store with
  | inMemory corrections patterns =>
    have hcorrections := saveInMemory_corrections draws c corrections patterns
    rw [(CorrectionStore.inMemory.inj hsame).1] at hcorrections
    have hid := congrArg (fun d => d.get? c.correctionId) hcorrections
    simp only [Dict.get?_set_self] at hid
    rw [fresh] at hid
    cases hid
  | duckDB db =>
    obtain ⟨db', hinsert⟩ := takes
    have hadded := connection.insertCorrection_adds _ _ _ _ hinsert
    have hkept := keeps_updatePattern connection libs draws c db'
    rw [← saveInDuckDB_inserted hinsert, CorrectionStore.duckDB.inj hsame] at hkept
    omega

variable (draws) in
/-- A refused one leaves it. -/
theorem not_taken (refused : ¬ Takes connection libs c store) : ∃ e,
    (saveCorrection connection libs draws c).run store = (.error e, store) := by
  cases store with
  | inMemory corrections patterns => exact absurd trivial refused
  | duckDB db =>
    rcases hinsert : connection.insertCorrection c (libs.dumps c.correctionMetadata) db with
      e | db'
    · refine ⟨e, ?_⟩
      simp only [saveCorrection, saveInDuckDB_refused hinsert]
    · exact absurd ⟨db', hinsert⟩ refused

omit [LinearOrder K] in
theorem hashKey_error (h : hashKey value = .error e) : isJsonDecodeError e = false := by
  cases value with
  | list items =>
    obtain rfl := Except.error.inj h
    rfl
  | dict items =>
    obtain rfl := Except.error.inj h
    rfl
  | _ => cases h

/-- An error that the loop prints. -/
def Printable (e : PyException) : Prop := isJsonDecodeError e = false

theorem raisesOnly_statement {f : D → Except PyException D}
    (h : ∀ db e, f db = .error e → Printable e) : RaisesOnly Printable (statement f) := by
  refine raisesOnly_bind raisesOnly_read fun db => ?_
  exact raisesOnly_bind (raisesOnly_ofExcept (h db)) fun _ => raisesOnly_modify _

theorem raisesOnly_saveInMemory : RaisesOnly Printable (saveInMemory draws c) := by
  refine raisesOnly_bind (raisesOnly_modify _) fun _ => ?_
  refine raisesOnly_bind (raisesOnly_ofExcept fun e h => hashKey_error h) fun key => ?_
  exact raisesOnly_modify _

theorem raisesOnly_saveInDuckDB :
    RaisesOnly Printable (saveInDuckDB connection libs draws c) := by
  refine raisesOnly_bind (raisesOnly_statement (connection.insertCorrection_error _ _)) fun _ => ?_
  refine raisesOnly_bind raisesOnly_read fun db => ?_
  refine raisesOnly_bind
    (raisesOnly_ofExcept (connection.selectPattern_error _ _ _)) fun found => ?_
  cases found with
  | none => exact raisesOnly_statement (connection.insertPattern_error _ _ _ _ _ _ _)
  | some found => exact raisesOnly_statement (connection.updatePattern_error _ _ _ _ _)

/-- No save raises a `JSONDecodeError`, so its errors are printed. -/
theorem saveCorrection_error
    (h : (saveCorrection connection libs draws c).run store = (.error e, store')) :
    Printable e := by
  cases store with
  | inMemory corrections patterns =>
    exact raisesOnly_saveInMemory (corrections, patterns) e _ (Prod.ext (Prod.mk.inj h).1 rfl)
  | duckDB db => exact raisesOnly_saveInDuckDB db e _ (Prod.ext (Prod.mk.inj h).1 rfl)

/-- The handler saves what the arguments make. -/
theorem capture_run (h : Makes draws params c) :
    (captureCorrectionHandler connection libs draws params).run s =
      (((saveCorrection connection libs draws c).run s.correctionStore).1.map
          fun _ => .correction c,
        { s with
          correctionStore := ((saveCorrection connection libs draws c).run s.correctionStore).2 })
    := by
  obtain ⟨cmd, hcmd, hc⟩ := h
  unfold captureCorrectionHandler captureCorrectionCall CaptureCorrectionCommand.execute
  simp only [bind_run, ofExcept_run, hcmd, hc, onCorrectionStore, on_run]
  rcases (saveCorrection connection libs draws c).run s.correctionStore with ⟨e | u, store⟩
  · rfl
  · rfl

/-- Without a correction nothing happens. -/
theorem capture_unmade (h : ¬ ∃ c, Makes draws params c) : ∃ e,
    (captureCorrectionHandler connection libs draws params).run s = (.error e, s) := by
  unfold captureCorrectionHandler captureCorrectionCall CaptureCorrectionCommand.execute
  rcases hcmd : captureCorrectionCommand params with e | cmd
  · exact ⟨e, rfl⟩
  · rcases hc : cmd.newCorrection draws with e | c
    · refine ⟨e, ?_⟩
      simp only [bind_run, ofExcept_run, hc]
    · exact absurd ⟨c, cmd, hcmd, hc⟩ h

variable (connection libs draws c store) in
/-- Whether the save raises or not, an error is printed. -/
theorem capture_printed (msgId : PyVal K) : ∃ text, printed libs msgId
    (((saveCorrection connection libs draws c).run store).1.map fun _ => .correction c) =
      [.error none (-32603) text] := by
  rcases hsave : (saveCorrection connection libs draws c).run store with ⟨e | u, store'⟩
  · have hprintable : isJsonDecodeError e = false := saveCorrection_error hsave
    refine ⟨e.text, ?_⟩
    simp only [Except.map, printed, hprintable, Bool.false_eq_true, if_false]
  · exact ⟨_, rfl⟩

end Capture

section Replies

variable {K D : Type} [Field K] [LinearOrder K] {connection : Connection K D}
  {libs : Libraries K} {draws : Draws K} {loads : Text → Except PyException (PyVal K)}
  {line : Text} {message : List (String × PyVal K)} {tool : SynapticTool} {params : PyVal K}
  {s : State K D}

/-- An error reply means that nothing was stored, and a completed command has a result. -/
structure Honest (connection : Connection K D) (libs : Libraries K) (draws : Draws K)
    (loads : Text → Except PyException (PyVal K)) (line : Text) (tool : SynapticTool)
    (params : PyVal K) (s : State K D) : Prop where
  unchanged : ∀ responses s',
    (respond (initializedServer connection libs draws loads) line).run s = (.ok responses, s') →
      (∃ id code text, Response.error id code text ∈ responses) → stored s' = stored s
  answered : Completed connection libs draws params s tool → ∃ id body s',
    (respond (initializedServer connection libs draws loads) line).run s =
      (.ok [.result id body], s')

/-- A handler that stores nothing where it raises, and returns what can be written. -/
theorem honest_of_handler (hloads : loads (strip line) = .ok (.dict message))
    (hcalls : Calls message tool params)
    (hraises : ∀ e s', (tool.handler connection libs draws params).run s = (.error e, s') →
      stored s' = stored s)
    (hreturns : ∀ r s', (tool.handler connection libs draws params).run s = (.ok r, s') →
      ∃ v, r = .value v) : Honest connection libs draws loads line tool params s := by
  have hrespond := respond_calls connection libs draws (s := s) hloads hcalls
  rcases hrun : (tool.handler connection libs draws params).run s with ⟨e | r, s₁⟩
  · rw [hrun] at hrespond
    constructor
    · intro responses s' hturn _
      rw [hrespond] at hturn
      obtain ⟨-, rfl⟩ := Prod.mk.inj hturn
      exact hraises e s₁ hrun
    · intro hcompleted
      obtain ⟨r, s', hok⟩ := (completed_iff connection libs draws).mp hcompleted
      rw [hrun] at hok
      cases hok
  · obtain ⟨v, rfl⟩ := hreturns r s₁ hrun
    rw [hrun] at hrespond
    constructor
    · rintro responses s' hturn ⟨id, code, text, herror⟩
      rw [hrespond] at hturn
      obtain ⟨hresponses, -⟩ := Prod.mk.inj hturn
      rw [← Except.ok.inj hresponses] at herror
      cases List.mem_singleton.mp herror
    · intro _
      exact ⟨_, _, s₁, hrespond⟩

/-- A correction that the store takes is answered with an error. -/
theorem captured_not_honest (hloads : loads (strip line) = .ok (.dict message))
    (hcalls : Calls message .captureCorrection params) {c : Captured K}
    (hmakes : Makes draws params c) (htakes : Takes connection libs c s.correctionStore)
    (hfresh : Fresh ("corr_" ++ hexPrefix 12 draws.correctionHex) s.correctionStore) :
    ¬ Honest connection libs draws loads line .captureCorrection params s := by
  intro honest
  have hrespond := respond_calls connection libs draws (s := s) hloads hcalls
  rw [SynapticTool.handler, capture_run hmakes] at hrespond
  obtain ⟨text, hprinted⟩ := capture_printed connection libs draws c s.correctionStore
    (field message "id" .none)
  have hsame := honest.unchanged _ _ hrespond
    ⟨none, -32603, text, by rw [hprinted]; exact List.mem_singleton_self _⟩
  rw [← hmakes.correctionId] at hfresh
  exact saved_changes htakes hfresh (Prod.mk.inj hsame).1

/-- Without one, the handler fails before it saves. -/
theorem capture_fails
    (h : ¬ ∃ c, Makes draws params c ∧ Takes connection libs c s.correctionStore) : ∃ e,
      (captureCorrectionHandler connection libs draws params).run s = (.error e, s) := by
  by_cases hmade : ∃ c, Makes draws params c
  · obtain ⟨c, hmakes⟩ := hmade
    obtain ⟨e, hsave⟩ := not_taken draws fun takes => h ⟨c, hmakes, takes⟩
    refine ⟨e, ?_⟩
    rw [capture_run hmakes, hsave]
    rfl
  · exact capture_unmade hmade

/-- The arguments make one correction at most. -/
theorem Makes.unique {c' : Captured K} (h : Makes draws params c) (h' : Makes draws params c') :
    c = c' := by
  obtain ⟨cmd, hcmd, hc⟩ := h
  obtain ⟨cmd', hcmd', hc'⟩ := h'
  obtain rfl := Except.ok.inj (hcmd.symm.trans hcmd')
  exact Except.ok.inj (hc.symm.trans hc')

/-- Every message is answered honestly, except one that captures a correction which the store
takes. -/
theorem error_stores_nothing_iff (hloads : loads (strip line) = .ok (.dict message))
    (hcalls : Calls message tool params)
    (hfresh : Fresh ("corr_" ++ hexPrefix 12 draws.correctionHex) s.correctionStore) :
    Honest connection libs draws loads line tool params s ↔
      ¬ (tool = .captureCorrection ∧ (∃ items, params = .dict items ∧ Recordable items) ∧
        ∀ c, Makes draws params c → Takes connection libs c s.correctionStore) := by
  constructor
  · rintro honest ⟨rfl, recordable, takes⟩
    obtain ⟨c, hmakes⟩ := (makes_iff draws).mpr recordable
    exact captured_not_honest hloads hcalls hmakes (takes c hmakes) hfresh honest
  · intro hcond
    by_cases hcapture : tool = .captureCorrection
    · subst hcapture
      have hnone : ¬ ∃ c, Makes draws params c ∧ Takes connection libs c s.correctionStore := by
        rintro ⟨c, hmakes, takes⟩
        refine hcond ⟨rfl, (makes_iff draws).mp ⟨c, hmakes⟩, ?_⟩
        intro c' hmakes'
        rwa [hmakes'.unique hmakes]
      obtain ⟨e, hrun⟩ := capture_fails hnone
      refine honest_of_handler hloads hcalls ?_ ?_
      · intro e' s' h
        rw [SynapticTool.handler, hrun] at h
        obtain ⟨-, rfl⟩ := Prod.mk.inj h
        rfl
      · intro r s' h
        rw [SynapticTool.handler, hrun] at h
        cases h
    · exact honest_of_handler hloads hcalls (handler_keepsRaising connection libs draws hcapture s)
        fun r s' h => handler_value connection libs draws hcapture h

end Replies

/-! A server whose stores are empty, asked for its tools and given a correction. -/

section Sample

def sampleConnection : Connection ℚ ℕ where
  corrections rows := rows
  insertCorrection _ _ rows := .ok (rows + 1)
  selectPattern _ _ _ := .ok none
  updatePattern _ _ _ _ _ rows := .ok rows
  insertPattern _ _ _ _ _ _ _ rows := .ok rows
  insertCorrection_adds _ _ _ _ h := (Except.ok.inj h).symm
  updatePattern_keeps _ _ _ _ _ _ _ h := (Except.ok.inj h).symm
  insertPattern_keeps _ _ _ _ _ _ _ _ _ h := (Except.ok.inj h).symm
  insertCorrection_error _ _ _ _ h := by cases h
  selectPattern_error _ _ _ _ h := by cases h
  updatePattern_error _ _ _ _ _ _ _ h := by cases h
  insertPattern_error _ _ _ _ _ _ _ _ _ h := by cases h

def sampleLibs : Libraries ℚ where
  encode _ _ := .ok "token"
  secret := .ok "secret"
  str _ := ""
  dumps _ := "[]"
  formats := ⟨fun _ => "", fun _ => "", fun _ => ""⟩

def sampleDraws : Draws ℚ where
  creation := ⟨"0a1b2c3d4e5f", 0, 0⟩
  lookup := ⟨0, 0, 0⟩
  violationHex := "0a1b2c3d4e5f"
  violationAt := 0
  callHex := "0a1b2c3d4e5f"
  callAt := 0
  auditHex _ := "0a1b2c3d4e5f"
  auditAt _ := 0
  correctionHex := "0a1b2c3d4e5f"
  capturedAt := 0
  patternHex := "0a1b2c3d4e5f"
  patternAt := 0
  policyHex := "0a1b2c3d4e5f"

def emptyState : State ℚ ℕ := ⟨.empty, .empty, .empty, [], .inMemory .empty .empty⟩

def toolCall (name : String) (arguments : List (String × PyVal ℚ)) : List (String × PyVal ℚ) :=
  [("id", .int 1), ("method", .str "tools/call"),
    ("params", .dict [("name", .str name), ("arguments", .dict arguments)])]

/-- The line of an object. -/
def objectLine (members : String) : Text := '\x7b' :: (members.toList ++ ['\x7d'])

theorem strip_objectLine (members : String) : strip (objectLine members) = objectLine members :=
  strip_of_ends (by decide) (by decide)

def incompleteLine : Text := objectLine
  ("\"id\": 1, \"method\": \"tools/call\", \"params\": " ++
    "\x7b\"name\": \"synaptic_capture_correction\", \"arguments\": \x7b" ++
    "\"original_tool\": \"bash.execute\"\x7d\x7d")

def originalTool : List (String × PyVal ℚ) := [("original_tool", .str "bash.execute")]

def captureLine : Text := objectLine
  ("\"id\": 1, \"method\": \"tools/call\", \"params\": " ++
    "\x7b\"name\": \"synaptic_capture_correction\", \"arguments\": \x7b" ++
    "\"original_tool\": \"bash.execute\", \"corrected_tool\": \"filesystem.read\"\x7d\x7d")

def correctedTools : List (String × PyVal ℚ) :=
  [("original_tool", .str "bash.execute"), ("corrected_tool", .str "filesystem.read")]

/-- `json.loads`, on the one line that is read. -/
def sampleLoads (line : Text) (message : List (String × PyVal ℚ)) (text : Text) :
    Except PyException (PyVal ℚ) :=
  if text = line then .ok (.dict message)
  else .error (.other "JSONDecodeError" "Expecting value: line 1 column 1 (char 0)")

theorem sampleLoads_objectLine (members : String) (message : List (String × PyVal ℚ)) :
    sampleLoads (objectLine members) message (strip (objectLine members)) =
      .ok (.dict message) := by
  rw [strip_objectLine, sampleLoads, if_pos rfl]

theorem toolCall_calls (tool : SynapticTool) (arguments : List (String × PyVal ℚ)) :
    Calls (toolCall tool.name arguments) tool (.dict arguments) :=
  ⟨rfl, _, rfl, rfl, rfl⟩

/-- Without a corrected tool the call is answered with an error, and nothing is stored. -/
theorem incomplete_honest :
    (respond (initializedServer sampleConnection sampleLibs sampleDraws
      (sampleLoads incompleteLine (toolCall "synaptic_capture_correction" originalTool)))
        incompleteLine).run emptyState =
      (.ok [.error none (-32603) "'corrected_tool'"], emptyState) ∧
    Honest sampleConnection sampleLibs sampleDraws
      (sampleLoads incompleteLine (toolCall "synaptic_capture_correction" originalTool))
      incompleteLine .captureCorrection (.dict originalTool) emptyState := by
  have hloads : sampleLoads incompleteLine (toolCall "synaptic_capture_correction" originalTool)
      (strip incompleteLine) = .ok (.dict (toolCall "synaptic_capture_correction" originalTool)) :=
    sampleLoads_objectLine _ _
  have hcalls := toolCall_calls .captureCorrection originalTool
  have hfresh : Fresh ("corr_" ++ hexPrefix 12 sampleDraws.correctionHex)
    emptyState.correctionStore := rfl
  constructor
  · have hrun : (SynapticTool.captureCorrection.handler sampleConnection sampleLibs sampleDraws
        (.dict originalTool)).run emptyState = (.error (.keyError "corrected_tool"), emptyState) :=
      rfl
    have hturn := respond_calls sampleConnection sampleLibs sampleDraws (s := emptyState) hloads
      hcalls
    rw [hrun] at hturn
    exact hturn
  · refine (error_stores_nothing_iff hloads hcalls hfresh).mpr ?_
    rintro ⟨-, ⟨items, hitems, recordable⟩, -⟩
    obtain rfl := PyVal.dict.inj hitems
    exact absurd recordable.correctedTool (by decide)

/-- The correction is in the store, and the caller is told that it failed. -/
theorem correction_not_honest :
    Calls (toolCall "synaptic_capture_correction" correctedTools) .captureCorrection
      (.dict correctedTools) ∧
    ¬ Honest sampleConnection sampleLibs sampleDraws
      (sampleLoads captureLine (toolCall "synaptic_capture_correction" correctedTools)) captureLine
      .captureCorrection (.dict correctedTools) emptyState := by
  have hcalls := toolCall_calls .captureCorrection correctedTools
  have recordable : Recordable correctedTools :=
    ⟨rfl, rfl, ⟨fraction 1 2, rfl, by norm_num [fraction], by norm_num [fraction]⟩,
      ⟨fraction 9 10, rfl, by norm_num [fraction], by norm_num [fraction]⟩⟩
  obtain ⟨c, hmakes⟩ := (makes_iff sampleDraws).mpr ⟨correctedTools, rfl, recordable⟩
  exact ⟨hcalls, captured_not_honest (sampleLoads_objectLine _ _) hcalls hmakes trivial rfl⟩

end Sample

end ErrorReplies
