import SynapticBridge.OrderedDict
import SynapticBridge.PythonValues

/-! `ClaudeCodeMCPServer`: one loop that reads a line, handles it as a JSON-RPC message and
prints the response. Handlers are any procedures on a state, and return any Python values. -/
namespace ClaudeCodeServer

open Domain PythonText PythonValues OrderedDict
open Procedures Procedures.Proc

/-- What a handler can raise: an `Exception`, or something that no handler of the loop catches. -/
inductive Raised where
  | exception (e : PyException)
  | base (className : String)

def isJsonDecodeError : PyException → Bool
  | .other className _ => className == "JSONDecodeError"
  | _ => false

/-- The `json` module. Only decoding raises a `JSONDecodeError`. -/
structure Json (K V : Type) where
  loads : Text → Except PyException (PyVal K)
  dumps : V → Except PyException String
  dumps_error : ∀ v e, dumps v = .error e → isJsonDecodeError e = false

structure Tool (K V σ : Type) where
  handler : PyVal K → Procedures.Proc Raised σ V
  description : V
  inputSchema : V

structure Resource (V σ : Type) where
  handler : Procedures.Proc Raised σ V
  mimeType : V

/-- The tables as `initialize` and any other registrations left them. -/
structure Server (K V σ : Type) where
  tools : Dict String (Tool K V σ)
  resources : Dict String (Resource V σ)
  json : Json K V

inductive Body (V : Type) where
  | initialized
  | tools (entries : List (String × V × V))
  | content (text : String)
  | resources (entries : List (String × V))
  | contents (uri : String) (mimeType text : V)

/-- The dictionaries that are printed; an internal error has no `id`. -/
inductive Response (K V : Type) where
  | result (id : PyVal K) (body : Body V)
  | error (id : Option (PyVal K)) (code : ℤ) (message : String)

def Response.id {K V : Type} : Response K V → Option (PyVal K)
  | .result id _ => some id
  | .error id _ _ => id

section Loop

variable {K V σ : Type}

/-- `value.get(key, default)`. -/
def getAttr (value : PyVal K) (key : String) (default : PyVal K) :
    Except PyException (PyVal K) :=
  match value with
  | .dict items => .ok ((items.lookup key).getD default)
  | v => .error (.other "AttributeError" s!"'{typeName v}' object has no attribute 'get'")

/-- `key in table`, and the entry. -/
def find {α : Type} (table : Dict String α) : PyVal K → Except PyException (Option (String × α))
  | .str name => .ok ((table.get? name).map fun a => (name, a))
  | .list _ => .error (.typeError "unhashable type: 'list'")
  | .dict _ => .error (.typeError "unhashable type: 'dict'")
  | _ => .ok none

def isText (value : PyVal K) (text : String) : Bool :=
  match value with
  | .str s => s == text
  | _ => false

def lift {α : Type} (x : Except PyException α) : Procedures.Proc Raised σ α :=
  ofExcept (x.mapError .exception)

def notFound (msgId : PyVal K) : Response K V := .error (some msgId) (-32601) "Method not found"

def handleMessage (server : Server K V σ) (message : PyVal K) :
    Procedures.Proc Raised σ (Response K V) := do
  let msgId ← lift (getAttr message "id" .none)
  let method ← lift (getAttr message "method" .none)
  let params ← lift (getAttr message "params" (.dict []))
  if isText method "initialize" then pure (.result msgId .initialized)
  else if isText method "tools/list" then
    pure (.result msgId (.tools (server.tools.entries.map fun (name, info) =>
      (name, info.description, info.inputSchema))))
  else if isText method "tools/call" then do
    let toolName ← lift (getAttr params "name" .none)
    let toolParams ← lift (getAttr params "arguments" (.dict []))
    match ← lift (find server.tools toolName) with
    | some (_, tool) => do
      let result ← tool.handler toolParams
      let text ← lift (server.json.dumps result)
      pure (.result msgId (.content text))
    | none => pure (notFound msgId)
  else if isText method "resources/list" then
    pure (.result msgId (.resources (server.resources.entries.map fun (uri, info) =>
      (uri, info.mimeType))))
  else if isText method "resources/read" then do
    let uri ← lift (getAttr params "uri" .none)
    match ← lift (find server.resources uri) with
    | some (uri, resource) => do
      let content ← resource.handler
      pure (.result msgId (.contents uri resource.mimeType content))
    | none => pure (notFound msgId)
  else pure (notFound msgId)

/-- The registered and returned values inside a response. -/
def Response.values : Response K V → List V
  | .result _ (.tools entries) => entries.flatMap fun e => [e.2.1, e.2.2]
  | .result _ (.resources entries) => entries.map fun e => e.2
  | .result _ (.contents _ mimeType text) => [mimeType, text]
  | _ => []

def dumpsAll (json : Json K V) : List V → Except PyException Unit
  | [] => .ok ()
  | v :: rest =>
    match json.dumps v with
    | .ok _ => dumpsAll json rest
    | .error e => .error e

/-- `json.dumps(response)`; the rest of a response can always be written. -/
def dumpsResponse (json : Json K V) (response : Response K V) : Except PyException Unit :=
  dumpsAll json response.values

/-- The two handlers of the loop. -/
def guarded (x : Procedures.Proc Raised σ (List (Response K V))) :
    Procedures.Proc Raised σ (List (Response K V)) :=
  ⟨fun s =>
    match x.run s with
    | (.error (.exception e), s') =>
      (.ok (if isJsonDecodeError e then [] else [.error none (-32603) e.text]), s')
    | result => result⟩

/-- What the loop prints for one line. -/
def respond (server : Server K V σ) (line : Text) :
    Procedures.Proc Raised σ (List (Response K V)) :=
  guarded (do
    let message ← lift (server.json.loads (strip line))
    let response ← handleMessage server message
    lift (dumpsResponse server.json response)
    return [response])

/-- One turn of the loop: the line, the state it finds and what it prints. -/
structure Turn (K V σ : Type) where
  line : Text
  before : σ
  responses : List (Response K V)

/-- The turns of the loop and how it ends: at an empty read, or by what no handler catches. -/
def run (server : Server K V σ) : List Text → σ → List (Turn K V σ) × Except Raised Unit
  | [], _ => ([], .ok ())
  | line :: rest, s =>
    if line = [] then ([], .ok ())
    else
      match (respond server line).run s with
      | (.ok responses, s') =>
        (⟨line, s, responses⟩ :: (run server rest s').1, (run server rest s').2)
      | (.error e, _) => ([⟨line, s, []⟩], .error e)

end Loop

/-! What a message asks for, and when it can be answered. -/

section Requests

variable {K V σ : Type}

inductive Request (K V σ : Type) where
  | initialization
  | listTools
  | callTool (tool : Tool K V σ) (toolParams : PyVal K)
  | listResources
  | readResource (uri : String) (resource : Resource V σ)
  | unknown
  | malformed (e : PyException)

def field (message : List (String × PyVal K)) (key : String) (default : PyVal K) : PyVal K :=
  (message.lookup key).getD default

/-- `tools/call` looks its name up in parameters that have to be an object. -/
def callRequest (server : Server K V σ) (params : PyVal K) : Request K V σ :=
  match params with
  | .dict items =>
    match find server.tools (field items "name" .none) with
    | .ok (some (_, tool)) => .callTool tool (field items "arguments" (.dict []))
    | .ok none => .unknown
    | .error e => .malformed e
  | v => .malformed (.other "AttributeError" s!"'{typeName v}' object has no attribute 'get'")

def readRequest (server : Server K V σ) (params : PyVal K) : Request K V σ :=
  match params with
  | .dict items =>
    match find server.resources (field items "uri" .none) with
    | .ok (some (uri, resource)) => .readResource uri resource
    | .ok none => .unknown
    | .error e => .malformed e
  | v => .malformed (.other "AttributeError" s!"'{typeName v}' object has no attribute 'get'")

def request (server : Server K V σ) (message : List (String × PyVal K)) : Request K V σ :=
  let method := field message "method" .none
  let params := field message "params" (.dict [])
  if isText method "initialize" then .initialization
  else if isText method "tools/list" then .listTools
  else if isText method "tools/call" then callRequest server params
  else if isText method "resources/list" then .listResources
  else if isText method "resources/read" then readRequest server params
  else .unknown

/-- The response to a request, or what its handler raises. -/
def perform (server : Server K V σ) (msgId : PyVal K) :
    Request K V σ → Procedures.Proc Raised σ (Response K V)
  | .initialization => pure (.result msgId .initialized)
  | .listTools => pure (.result msgId (.tools (server.tools.entries.map fun (name, info) =>
      (name, info.description, info.inputSchema))))
  | .callTool tool toolParams => do
    let result ← tool.handler toolParams
    let text ← lift (server.json.dumps result)
    pure (.result msgId (.content text))
  | .listResources => pure (.result msgId (.resources (server.resources.entries.map
      fun (uri, info) => (uri, info.mimeType))))
  | .readResource uri resource => do
    let content ← resource.handler
    pure (.result msgId (.contents uri resource.mimeType content))
  | .unknown => pure (notFound msgId)
  | .malformed e => raise (.exception e)

theorem lift_ok {α β : Type} (a : α) (f : α → Procedures.Proc Raised σ β) :
    lift (.ok a) >>= f = f a := rfl

theorem getAttr_dict (items : List (String × PyVal K)) (key : String) (default : PyVal K) :
    getAttr (.dict items) key default = .ok (field items key default) := rfl

theorem handleMessage_eq (server : Server K V σ) (message : List (String × PyVal K)) :
    handleMessage server (.dict message) =
      perform server (field message "id" .none) (request server message) := by
  unfold handleMessage request
  simp only [getAttr_dict, lift_ok]
  split_ifs with hinit hlist hcall hresources hread
  · rfl
  · rfl
  · cases field message "params" (.dict []) with
    | dict items =>
      simp only [getAttr_dict, lift_ok, callRequest]
      rcases find server.tools (field items "name" .none) with e | entry
      · rfl
      · cases entry with
        | none => rfl
        | some entry => rfl
    | _ => rfl
  · rfl
  · cases field message "params" (.dict []) with
    | dict items =>
      simp only [getAttr_dict, lift_ok, readRequest]
      rcases find server.resources (field items "uri" .none) with e | entry
      · rfl
      · cases entry with
        | none => rfl
        | some entry => rfl
    | _ => rfl
  · rfl

def Serializable (json : Json K V) (v : V) : Prop := ∃ text, json.dumps v = .ok text

/-- The message is well formed, its handler returns, and what the response holds can be
written. -/
def Answerable (server : Server K V σ) (s : σ) : Request K V σ → Prop
  | .initialization => True
  | .listTools => ∀ tool ∈ server.tools.values,
      Serializable server.json tool.description ∧ Serializable server.json tool.inputSchema
  | .callTool tool toolParams =>
    ∃ v s', (tool.handler toolParams).run s = (.ok v, s') ∧ Serializable server.json v
  | .listResources => ∀ resource ∈ server.resources.values,
      Serializable server.json resource.mimeType
  | .readResource _ resource => ∃ v s', resource.handler.run s = (.ok v, s') ∧
      Serializable server.json resource.mimeType ∧ Serializable server.json v
  | .unknown => True
  | .malformed _ => False

/-- The handler of the message raises a `JSONDecodeError`. -/
def Silenced (s : σ) : Request K V σ → Prop
  | .callTool tool toolParams => ∃ e s', (tool.handler toolParams).run s =
      (.error (.exception e), s') ∧ isJsonDecodeError e = true
  | .readResource _ resource => ∃ e s', resource.handler.run s =
      (.error (.exception e), s') ∧ isJsonDecodeError e = true
  | _ => False

/-- What a turn has to find for the message of its line: with an id it can be answered,
without one it is silenced. -/
def Meets (server : Server K V σ) (s : σ) (message : List (String × PyVal K)) : Prop :=
  if (message.lookup "id").isSome then Answerable server s (request server message)
  else Silenced s (request server message)

/-- One response with the id of the message, or none to a message without id. -/
def Answers (message : List (String × PyVal K)) (responses : List (Response K V)) : Prop :=
  match message.lookup "id" with
  | some msgId => ∃ response, responses = [response] ∧ response.id = some msgId
  | none => responses = []

end Requests

section Turns

variable {K V σ : Type} {server : Server K V σ} {s : σ} {msgId : PyVal K}

theorem dumpsAll_ok {json : Json K V} {values : List V} :
    dumpsAll json values = .ok () ↔ ∀ v ∈ values, Serializable json v := by
  induction values with
  | nil => simp [dumpsAll]
  | cons v rest ih =>
    rw [dumpsAll, List.forall_mem_cons, ← ih, Serializable]
    rcases json.dumps v with e | text
    · simp
    · simp

theorem dumpsAll_error {json : Json K V} {values : List V} {e : PyException}
    (h : dumpsAll json values = .error e) : isJsonDecodeError e = false := by
  induction values with
  | nil => cases h
  | cons v rest ih =>
    rw [dumpsAll] at h
    rcases hv : json.dumps v with e' | text
    · rw [hv] at h
      obtain rfl := Except.error.inj h
      exact json.dumps_error v e' hv
    · rw [hv] at h
      exact ih h

theorem guarded_ok {x : Procedures.Proc Raised σ (List (Response K V))}
    {responses : List (Response K V)} {s s' : σ} (h : x.run s = (.ok responses, s')) :
    (guarded x).run s = (.ok responses, s') := by
  unfold guarded
  simp only [h]

theorem guarded_exception {x : Procedures.Proc Raised σ (List (Response K V))} {e : PyException}
    {s s' : σ} (h : x.run s = (.error (.exception e), s')) : (guarded x).run s =
      (.ok (if isJsonDecodeError e then [] else [.error none (-32603) e.text]), s') := by
  unfold guarded
  simp only [h]

theorem guarded_base {x : Procedures.Proc Raised σ (List (Response K V))} {className : String}
    {s s' : σ} (h : x.run s = (.error (.base className), s')) :
    (guarded x).run s = (.error (.base className), s') := by
  unfold guarded
  simp only [h]

/-- The rest of a turn behind `json.loads`. -/
def finish (server : Server K V σ) (msgId : PyVal K) (r : Request K V σ) :
    Procedures.Proc Raised σ (List (Response K V)) :=
  guarded (do
    let response ← perform server msgId r
    lift (dumpsResponse server.json response)
    return [response])

theorem respond_eq {line : Text} {message : List (String × PyVal K)}
    (h : server.json.loads (strip line) = .ok (.dict message)) :
    respond server line =
      finish server (field message "id" .none) (request server message) := by
  unfold respond finish
  rw [h, lift_ok, handleMessage_eq]

theorem perform_id {r : Request K V σ} {response : Response K V} {s' : σ}
    (h : (perform server msgId r).run s = (.ok response, s')) : response.id = some msgId := by
  cases r with
  | callTool tool toolParams =>
    obtain ⟨v, s₁, -, hrest⟩ := bind_eq_ok.mp h
    obtain ⟨text, s₂, -, hpure⟩ := bind_eq_ok.mp hrest
    cases hpure
    rfl
  | readResource uri resource =>
    obtain ⟨v, s₁, -, hpure⟩ := bind_eq_ok.mp h
    cases hpure
    rfl
  | malformed e => cases h
  | _ =>
    cases h
    rfl

theorem pure_ready (response : Response K V) (s : σ) (P : Response K V → Prop) :
    (∃ response' s', (pure response : Procedures.Proc Raised σ (Response K V)).run s =
      (.ok response', s') ∧ P response') ↔ P response := by
  constructor
  · rintro ⟨response', s', h, hP⟩
    cases h
    exact hP
  · intro hP
    exact ⟨response, s, rfl, hP⟩

theorem lift_run_ok {α : Type} {x : Except PyException α} {a : α} {s s' : σ} :
    (lift x).run s = (.ok a, s') ↔ x = .ok a ∧ s' = s := by
  rcases x with e | b
  · simp [lift, Except.mapError]
  · simp [lift, Except.mapError, eq_comm]

theorem lift_run_error {α : Type} {x : Except PyException α} {e : PyException} {s s' : σ} :
    (lift x).run s = (.error (.exception e), s') ↔ x = .error e ∧ s' = s := by
  rcases x with e' | b
  · simp [lift, Except.mapError, eq_comm]
  · simp [lift, Except.mapError]

theorem answerable_callTool (msgId : PyVal K) (tool : Tool K V σ) (toolParams : PyVal K) :
    Answerable server s (.callTool tool toolParams) ↔
      ∃ response s', (perform server msgId (.callTool tool toolParams)).run s = (.ok response, s') ∧
        ∀ v ∈ response.values, Serializable server.json v := by
  constructor
  · rintro ⟨v, s', hrun, text, htext⟩
    refine ⟨.result msgId (.content text), s', ?_, by simp [Response.values]⟩
    rw [perform, bind_ok hrun, htext]
    rfl
  · rintro ⟨response, s', h, -⟩
    obtain ⟨v, s₁, hrun, hrest⟩ := bind_eq_ok.mp h
    obtain ⟨text, s₂, htext, -⟩ := bind_eq_ok.mp hrest
    exact ⟨v, s₁, hrun, text, (lift_run_ok.mp htext).1⟩

theorem answerable_readResource (msgId : PyVal K) (uri : String) (resource : Resource V σ) :
    Answerable server s (.readResource uri resource) ↔
      ∃ response s', (perform server msgId (.readResource uri resource)).run s =
        (.ok response, s') ∧ ∀ v ∈ response.values, Serializable server.json v := by
  constructor
  · rintro ⟨v, s', hrun, hmime, hv⟩
    refine ⟨.result msgId (.contents uri resource.mimeType v), s', ?_, ?_⟩
    · rw [perform, bind_ok hrun]
      rfl
    · simpa [Response.values] using ⟨hmime, hv⟩
  · rintro ⟨response, s', h, hvalues⟩
    obtain ⟨v, s₁, hrun, hpure⟩ := bind_eq_ok.mp h
    cases hpure
    have hboth : Serializable server.json resource.mimeType ∧ Serializable server.json v := by
      simpa [Response.values] using hvalues
    exact ⟨v, _, hrun, hboth⟩

/-- A message can be answered when a response is ready and can be written. -/
theorem answerable_iff (msgId : PyVal K) (r : Request K V σ) : Answerable server s r ↔
    ∃ response s', (perform server msgId r).run s = (.ok response, s') ∧
      ∀ v ∈ response.values, Serializable server.json v := by
  cases r with
  | initialization =>
    refine iff_of_true trivial ((pure_ready _ s _).mpr ?_)
    simp [Response.values]
  | listTools =>
    rw [perform, pure_ready]
    simp only [Answerable, Response.values, Dict.values, List.mem_flatMap, List.mem_map]
    constructor
    · rintro h v ⟨-, ⟨entry, hentry, rfl⟩, hv⟩
      obtain ⟨hdescription, hschema⟩ := h entry.2 ⟨entry, hentry, rfl⟩
      rcases List.mem_cons.mp hv with rfl | hv
      · exact hdescription
      · obtain rfl := List.mem_singleton.mp hv
        exact hschema
    · rintro h - ⟨entry, hentry, rfl⟩
      exact ⟨h _ ⟨_, ⟨entry, hentry, rfl⟩, by simp⟩, h _ ⟨_, ⟨entry, hentry, rfl⟩, by simp⟩⟩
  | callTool tool toolParams => exact answerable_callTool msgId tool toolParams
  | listResources =>
    rw [perform, pure_ready]
    simp only [Answerable, Response.values, Dict.values, List.map_map, List.mem_map]
    constructor
    · rintro h - ⟨entry, hentry, rfl⟩
      exact h entry.2 ⟨entry, hentry, rfl⟩
    · rintro h - ⟨entry, hentry, rfl⟩
      exact h _ ⟨entry, hentry, rfl⟩
  | readResource uri resource => exact answerable_readResource msgId uri resource
  | unknown =>
    refine iff_of_true trivial ((pure_ready _ s _).mpr ?_)
    simp [notFound, Response.values]
  | malformed e =>
    refine iff_of_false id ?_
    rintro ⟨response, s', h, -⟩
    cases h

/-- A silenced message is one whose response is not ready for a `JSONDecodeError`. -/
theorem silenced_iff (msgId : PyVal K) {r : Request K V σ}
    (wellFormed : ∀ e, r = .malformed e → isJsonDecodeError e = false) : Silenced s r ↔
    ∃ e s', (perform server msgId r).run s = (.error (.exception e), s') ∧
      isJsonDecodeError e = true := by
  cases r with
  | callTool tool toolParams =>
    constructor
    · rintro ⟨e, s', hrun, he⟩
      exact ⟨e, s', bind_error hrun _, he⟩
    · rintro ⟨e, s', h, he⟩
      rcases bind_eq_error.mp h with hrun | ⟨v, s₁, -, hrest⟩
      · exact ⟨e, s', hrun, he⟩
      · rcases bind_eq_error.mp hrest with hdumps | ⟨text, s₂, -, hpure⟩
        · rw [server.json.dumps_error v e (lift_run_error.mp hdumps).1] at he
          cases he
        · cases hpure
  | readResource uri resource =>
    constructor
    · rintro ⟨e, s', hrun, he⟩
      exact ⟨e, s', bind_error hrun _, he⟩
    · rintro ⟨e, s', h, he⟩
      rcases bind_eq_error.mp h with hrun | ⟨v, s₁, -, hpure⟩
      · exact ⟨e, s', hrun, he⟩
      · cases hpure
  | malformed e =>
    refine iff_of_false id ?_
    rintro ⟨e', s', h, he⟩
    cases h
    rw [wellFormed e rfl] at he
    cases he
  | _ =>
    refine iff_of_false id ?_
    rintro ⟨e, s', h, -⟩
    cases h

theorem find_error {α : Type} {table : Dict String α} {key : PyVal K} {e : PyException}
    (h : find table key = .error e) : isJsonDecodeError e = false := by
  cases key with
  | list items =>
    obtain rfl := Except.error.inj h
    rfl
  | dict items =>
    obtain rfl := Except.error.inj h
    rfl
  | _ => cases h

theorem callRequest_malformed {params : PyVal K} {e : PyException}
    (h : callRequest server params = .malformed e) : isJsonDecodeError e = false := by
  cases params with
  | dict items =>
    simp only [callRequest] at h
    rcases hfind : find server.tools (field items "name" .none) with e' | entry
    · rw [hfind] at h
      obtain rfl := Request.malformed.inj h
      exact find_error hfind
    · rw [hfind] at h
      cases entry <;> cases h
  | _ =>
    obtain rfl := Request.malformed.inj h
    rfl

theorem readRequest_malformed {params : PyVal K} {e : PyException}
    (h : readRequest server params = .malformed e) : isJsonDecodeError e = false := by
  cases params with
  | dict items =>
    simp only [readRequest] at h
    rcases hfind : find server.resources (field items "uri" .none) with e' | entry
    · rw [hfind] at h
      obtain rfl := Request.malformed.inj h
      exact find_error hfind
    · rw [hfind] at h
      cases entry <;> cases h
  | _ =>
    obtain rfl := Request.malformed.inj h
    rfl

/-- Malformed parameters raise an `AttributeError` or a `TypeError`. -/
theorem request_malformed {message : List (String × PyVal K)} {e : PyException}
    (h : request server message = .malformed e) : isJsonDecodeError e = false := by
  simp only [request] at h
  split_ifs at h with hinit hlist hcall hresources hread
  · exact callRequest_malformed h
  · exact readRequest_malformed h

/-- What a turn prints, by whether its message can be answered or is silenced. -/
inductive Printed (server : Server K V σ) (msgId : PyVal K) (s : σ) (r : Request K V σ) :
    Except Raised (List (Response K V)) → Prop where
  | answered (response : Response K V) (id : response.id = some msgId)
      (answerable : Answerable server s r) (loud : ¬ Silenced s r) :
      Printed server msgId s r (.ok [response])
  | failed (text : String) (unanswerable : ¬ Answerable server s r) (loud : ¬ Silenced s r) :
      Printed server msgId s r (.ok [.error none (-32603) text])
  | silenced (unanswerable : ¬ Answerable server s r) (silenced : Silenced s r) :
      Printed server msgId s r (.ok [])
  | interrupted (className : String) (unanswerable : ¬ Answerable server s r)
      (loud : ¬ Silenced s r) : Printed server msgId s r (.error (.base className))

theorem finish_printed (server : Server K V σ) (msgId : PyVal K) (s : σ) {r : Request K V σ}
    (wellFormed : ∀ e, r = .malformed e → isJsonDecodeError e = false) :
    Printed server msgId s r ((finish server msgId r).run s).1 := by
  have answerable : Answerable server s r ↔ _ := answerable_iff msgId r
  have silenced : Silenced s r ↔ ∃ e s', (perform server msgId r).run s =
    (.error (.exception e), s') ∧ isJsonDecodeError e = true := silenced_iff msgId wellFormed
  rcases hrun : (perform server msgId r).run s with ⟨raised | response, s'⟩
  · rw [hrun] at answerable silenced
    have unanswerable : ¬ Answerable server s r := by
      rw [answerable]
      rintro ⟨response, s₁, h, -⟩
      cases h
    cases raised with
    | base className =>
      rw [finish, guarded_base (bind_error hrun _)]
      refine .interrupted className unanswerable ?_
      rw [silenced]
      rintro ⟨e, s₁, h, -⟩
      cases h
    | exception e =>
      rw [finish, guarded_exception (bind_error hrun _)]
      by_cases decode : isJsonDecodeError e = true
      · simp only [if_pos decode]
        exact .silenced unanswerable (silenced.mpr ⟨e, s', rfl, decode⟩)
      · simp only [if_neg decode]
        refine .failed e.text unanswerable ?_
        rw [silenced]
        rintro ⟨e', s₁, h, he⟩
        cases h
        exact decode he
  · rw [hrun] at answerable silenced
    have loud : ¬ Silenced s r := by
      rw [silenced]
      rintro ⟨e, s₁, h, -⟩
      cases h
    rcases hdumps : dumpsResponse server.json response with e | u
    · have unanswerable : ¬ Answerable server s r := by
        rw [answerable]
        rintro ⟨response', s₁, h, hvalues⟩
        cases h
        rw [dumpsResponse, dumpsAll_ok.mpr hvalues] at hdumps
        cases hdumps
      have hdecode : ¬ isJsonDecodeError e = true := by
        rw [dumpsAll_error hdumps]
        exact Bool.false_ne_true
      have hraised := lift_run_error.mpr ⟨hdumps, Eq.refl s'⟩
      rw [finish, guarded_exception ((bind_ok hrun _).trans (bind_error hraised _))]
      simp only [if_neg hdecode]
      exact .failed e.text unanswerable loud
    · have hwritten := lift_run_ok.mpr ⟨hdumps, Eq.refl s'⟩
      rw [finish, guarded_ok ((bind_ok hrun _).trans (bind_ok hwritten _))]
      refine .answered response (perform_id hrun) ?_ loud
      rw [answerable]
      exact ⟨response, s', rfl, dumpsAll_ok.mp hdumps⟩

/-- A turn prints what the message is due exactly if it finds what the message needs. -/
theorem respond_answers {line : Text} {message : List (String × PyVal K)}
    (h : server.json.loads (strip line) = .ok (.dict message)) (s : σ) :
    (∃ responses, ((respond server line).run s).1 = .ok responses ∧
      Answers message responses) ↔ Meets server s message := by
  have printed := finish_printed server (field message "id" .none) s
    (r := request server message) fun e he => request_malformed he
  rw [respond_eq h]
  generalize ((finish server (field message "id" .none) (request server message)).run s).1 =
    result at printed
  unfold Answers Meets
  cases hid : message.lookup "id" with
  | none =>
    rw [Option.isSome_none, if_neg Bool.false_ne_true]
    cases printed with
    | answered response id answerable loud => simp [loud]
    | failed text unanswerable loud => simp [loud]
    | silenced unanswerable silenced => simp [silenced]
    | interrupted className unanswerable loud => simp [loud]
  | some msgId =>
    have hfield : field message "id" .none = msgId := by rw [field, hid, Option.getD_some]
    rw [Option.isSome_some, if_pos rfl]
    cases printed with
    | answered response id answerable loud => simp [answerable, id, hfield]
    | failed text unanswerable loud => simp [unanswerable, Response.id]
    | silenced unanswerable silenced => simp [unanswerable]
    | interrupted className unanswerable loud => simp [unanswerable]

end Turns

section Streams

variable {K V σ : Type} {server : Server K V σ}

/-- A line that is read and decodes to an object. -/
def IsObject (server : Server K V σ) (line : Text) : Prop :=
  line ≠ [] ∧ ∃ message, server.json.loads (strip line) = .ok (.dict message)

/-- The loop reads all lines and prints for each what its message is due. -/
structure Disciplined (server : Server K V σ) (lines : List Text) (s : σ) : Prop where
  ends : (run server lines s).2 = .ok ()
  reads : (run server lines s).1.map (fun turn => turn.line) = lines
  answers : ∀ turn ∈ (run server lines s).1, ∀ message,
    server.json.loads (strip turn.line) = .ok (.dict message) → Answers message turn.responses

theorem run_cons_error {line : Text} {rest : List Text} {s s' : σ} {e : Raised}
    (hne : line ≠ []) (h : (respond server line).run s = (.error e, s')) :
    run server (line :: rest) s = ([⟨line, s, []⟩], .error e) := by
  rw [run, if_neg hne, h]

theorem run_cons_ok {line : Text} {rest : List Text} {s s' : σ}
    {responses : List (Response K V)} (hne : line ≠ [])
    (h : (respond server line).run s = (.ok responses, s')) :
    run server (line :: rest) s =
      (⟨line, s, responses⟩ :: (run server rest s').1, (run server rest s').2) := by
  rw [run, if_neg hne, h]

theorem disciplined_cons {line : Text} {rest : List Text} {s s' : σ}
    {message : List (String × PyVal K)} {responses : List (Response K V)} (hne : line ≠ [])
    (hmessage : server.json.loads (strip line) = .ok (.dict message))
    (h : (respond server line).run s = (.ok responses, s')) :
    Disciplined server (line :: rest) s ↔
      Answers message responses ∧ Disciplined server rest s' := by
  have hrun : run server (line :: rest) s =
    (⟨line, s, responses⟩ :: (run server rest s').1, (run server rest s').2) := run_cons_ok hne h
  constructor
  · rintro ⟨ends, reads, answers⟩
    rw [hrun] at ends reads answers
    obtain ⟨hfirst, hrest⟩ := List.forall_mem_cons.mp answers
    exact ⟨hfirst message hmessage, ends, (List.cons.inj reads).2, hrest⟩
  · rintro ⟨hfirst, ends, reads, answers⟩
    constructor
    · rw [hrun]
      exact ends
    · rw [hrun, List.map_cons, reads]
    · rw [hrun]
      refine List.forall_mem_cons.mpr ⟨?_, answers⟩
      intro message' hmessage'
      obtain rfl := PyVal.dict.inj (Except.ok.inj (hmessage.symm.trans hmessage'))
      exact hfirst

/-- The loop takes its turns on the lines that it is given. -/
theorem line_mem_of_turn_mem {lines : List Text} {s : σ} {turn : Turn K V σ}
    (h : turn ∈ (run server lines s).1) : turn.line ∈ lines := by
  induction lines generalizing s with
  | nil => cases h
  | cons line rest ih =>
    rw [run] at h
    split_ifs at h with hempty
    · cases h
    · rcases hrun : (respond server line).run s with ⟨e | responses, s'⟩
      · rw [hrun] at h
        obtain rfl := List.mem_singleton.mp h
        exact List.mem_cons_self
      · rw [hrun] at h
        rcases List.mem_cons.mp h with rfl | hrest
        · exact List.mem_cons_self
        · exact List.mem_cons_of_mem _ (ih hrest)

/-- Over a whole stream of objects the loop is disciplined exactly if every turn finds what
its message needs. -/
theorem disciplined_iff {lines : List Text} (objects : ∀ line ∈ lines, IsObject server line)
    (s : σ) : Disciplined server lines s ↔ ∀ turn ∈ (run server lines s).1, ∀ message,
      server.json.loads (strip turn.line) = .ok (.dict message) →
        Meets server turn.before message := by
  induction lines generalizing s with
  | nil =>
    refine iff_of_true ⟨rfl, rfl, ?_⟩ ?_
    · intro turn hturn
      cases hturn
    · intro turn hturn
      cases hturn
  | cons line rest ih =>
    obtain ⟨⟨hne, message, hmessage⟩, hrest⟩ := List.forall_mem_cons.mp objects
    have meets := respond_answers hmessage s
    rcases hrun : (respond server line).run s with ⟨e | responses, s'⟩
    · rw [hrun] at meets
      have unmet : ¬ Meets server s message := by
        rw [← meets]
        rintro ⟨responses, h, -⟩
        cases h
      refine iff_of_false ?_ ?_
      · rintro ⟨ends, -, -⟩
        rw [run_cons_error hne hrun] at ends
        cases ends
      · rw [run_cons_error hne hrun]
        intro h
        exact unmet (h _ (List.mem_singleton_self _) message hmessage)
    · have hanswers : Answers message responses ↔ Meets server s message := by
        rw [← meets, hrun]
        simp
      rw [disciplined_cons hne hmessage hrun, hanswers, ih hrest, run_cons_ok hne hrun,
        List.forall_mem_cons]
      refine and_congr_left' ?_
      constructor
      · intro h message' hmessage'
        obtain rfl := PyVal.dict.inj (Except.ok.inj (hmessage.symm.trans hmessage'))
        exact h
      · intro h
        exact h message hmessage

end Streams

/-! A server with one tool, which counts its calls, reads requests, or the notification of a
client's handshake. -/

section Sample

def pingLine : Text := "\x7b\"id\": 1, \"method\": \"ping\"\x7d".toList
def ping : List (String × PyVal ℤ) := [("id", .int 1), ("method", .str "ping")]

def saveLine : Text := ("\x7b\"id\": 2, \"method\": \"tools/call\", " ++
  "\"params\": \x7b\"name\": \"save\"\x7d\x7d\n").toList
def save : List (String × PyVal ℤ) :=
  [("id", .int 2), ("method", .str "tools/call"), ("params", .dict [("name", .str "save")])]

def noteLine : Text := "\x7b\"method\": \"notifications/initialized\"\x7d".toList
def note : List (String × PyVal ℤ) := [("method", .str "notifications/initialized")]

def sampleLoads (text : Text) : Except PyException (PyVal ℤ) :=
  if text = strip pingLine then .ok (.dict ping)
  else if text = strip saveLine then .ok (.dict save)
  else if text = strip noteLine then .ok (.dict note)
  else .error (.other "JSONDecodeError" "Expecting value: line 1 column 1 (char 0)")

def saveTool : Tool ℤ String ℕ :=
  ⟨fun _ => ⟨fun calls => (.ok "saved", calls + 1)⟩, "Save a note", "object"⟩

def sampleServer : Server ℤ String ℕ :=
  ⟨Dict.empty.set "save" saveTool, .empty, sampleLoads, fun s => .ok s!"\"{s}\"",
    fun _ _ h => by cases h⟩

theorem ping_loads : sampleServer.json.loads (strip pingLine) = .ok (.dict ping) := by
  change sampleLoads (strip pingLine) = _
  rw [sampleLoads, if_pos rfl]

theorem save_loads : sampleServer.json.loads (strip saveLine) = .ok (.dict save) := by
  have hping : strip saveLine ≠ strip pingLine := by decide +kernel
  change sampleLoads (strip saveLine) = _
  rw [sampleLoads, if_neg hping, if_pos rfl]

theorem note_loads : sampleServer.json.loads (strip noteLine) = .ok (.dict note) := by
  have hping : strip noteLine ≠ strip pingLine := by decide +kernel
  have hsave : strip noteLine ≠ strip saveLine := by decide +kernel
  change sampleLoads (strip noteLine) = _
  rw [sampleLoads, if_neg hping, if_neg hsave, if_pos rfl]

/-- However many notes were saved, the tool answers. -/
theorem save_meets (calls : ℕ) : Meets sampleServer calls save :=
  ⟨"saved", calls + 1, rfl, _, rfl⟩

theorem disciplined_iff_sample : Disciplined sampleServer [saveLine, pingLine, saveLine] 0 := by
  have objects : ∀ line ∈ [saveLine, pingLine, saveLine], IsObject sampleServer line := by
    simp only [List.forall_mem_cons]
    refine ⟨?saved, ⟨by decide +kernel, ping, ping_loads⟩, ?saved, List.forall_mem_nil _⟩
    exact ⟨by decide +kernel, save, save_loads⟩
  refine (disciplined_iff objects 0).mpr ?_
  intro turn hturn message hmessage
  have hline := line_mem_of_turn_mem hturn
  simp only [List.mem_cons, List.not_mem_nil, or_false] at hline
  rcases hline with hline | hline | hline
  · rw [hline, save_loads] at hmessage
    obtain rfl := PyVal.dict.inj (Except.ok.inj hmessage)
    exact save_meets turn.before
  · rw [hline, ping_loads] at hmessage
    obtain rfl := PyVal.dict.inj (Except.ok.inj hmessage)
    exact trivial
  · rw [hline, save_loads] at hmessage
    obtain rfl := PyVal.dict.inj (Except.ok.inj hmessage)
    exact save_meets turn.before

/-- The notification is answered with an error whose id is null. -/
theorem notification_answered : IsObject sampleServer noteLine ∧
    ¬ Disciplined sampleServer [noteLine] 0 := by
  refine ⟨⟨by decide +kernel, note, note_loads⟩, fun disciplined => ?_⟩
  have hrun : (respond sampleServer noteLine).run 0 = (.ok [notFound .none], 0) := by
    rw [respond_eq note_loads]
    rfl
  obtain ⟨answers, -⟩ := (disciplined_cons (by decide +kernel) note_loads hrun).mp disciplined
  cases answers

end Sample

end ClaudeCodeServer
