import SynapticBridge.ExecuteEndpoint
import SynapticBridge.Grouping
import SynapticBridge.GrowingPages
import SynapticBridge.ManifestText
import Mathlib.Data.List.Dedup

/-! The endpoints that register tools and policies and list them in pages. A request that passed
its validation is a value that carries what was validated. -/
namespace CatalogEndpoints

open Domain OrderedDict GrowingPages
open ExecuteEndpoint (HTTPException)
open ManifestText (capabilityValue auditLevelValue)
open Procedures.Proc

section Commands

/-- The lookup of an enumeration's member by its value; `repr` is Python's. -/
def capabilityType (repr : String → String) : String → Except PyException CapabilityType
  | "read" => .ok .read
  | "write" => .ok .write
  | "execute" => .ok .execute
  | "network" => .ok .network
  | value => .error (.valueError (repr value ++ " is not a valid CapabilityType"))

def auditLevel (repr : String → String) : String → Except PyException AuditLevel
  | "none" => .ok .none
  | "summary" => .ok .summary
  | "full" => .ok .full
  | value => .error (.valueError (repr value ++ " is not a valid AuditLevel"))

def policyEffect (repr : String → String) : String → Except PyException PolicyEffect
  | "allow" => .ok .allow
  | "deny" => .ok .deny
  | value => .error (.valueError (repr value ++ " is not a valid PolicyEffect"))

def policyScope (repr : String → String) : String → Except PyException PolicyScope
  | "tool" => .ok .tool
  | "session" => .ok .session
  | "agent" => .ok .agent
  | "network" => .ok .network
  | value => .error (.valueError (repr value ++ " is not a valid PolicyScope"))

structure RegisterToolCommand where
  toolName : String
  version : String
  capabilities : List String
  scope : String
  ttlSeconds : ℤ
  networkEgress : Bool
  auditLevel : String
  signature : String

/-- `ToolManifest.__post_init__` with the fields of the command. -/
def RegisterToolCommand.manifest (cmd : RegisterToolCommand) (caps : List CapabilityType)
    (audit : AuditLevel) : Except PyException ToolManifest :=
  if ttl_pos : 0 < cmd.ttlSeconds then
    if has_name : cmd.toolName ≠ "" then
      .ok ⟨cmd.toolName, cmd.version, caps, cmd.scope, cmd.ttlSeconds, cmd.networkEgress, audit,
        cmd.signature, ttl_pos, has_name⟩
    else .error (.valueError "Tool name is required")
  else .error (.valueError "TTL must be positive")

/-- The command over `InMemoryToolRegistry`. A frozen set is the list of its members. -/
def RegisterToolCommand.execute (repr : String → String) (cmd : RegisterToolCommand) :
    Proc (Dict String ToolManifest) ToolManifest := do
  let caps ← ofExcept (cmd.capabilities.mapM (capabilityType repr))
  let audit ← ofExcept (CatalogEndpoints.auditLevel repr cmd.auditLevel)
  let manifest ← ofExcept (cmd.manifest caps.dedup audit)
  modify fun tools => tools.set manifest.toolName manifest
  return manifest

structure AddPolicyCommand where
  name : String
  regoCode : String
  effect : PolicyEffect
  scope : PolicyScope

/-- `Policy.__post_init__` with the fields of the command and the digits of a `uuid4`. -/
def AddPolicyCommand.policy (cmd : AddPolicyCommand) (hex : String) : Except PyException Policy :=
  if has_name : cmd.name ≠ "" then
    if has_code : cmd.regoCode ≠ "" then
      .ok ⟨"policy_" ++ hexPrefix 8 hex, cmd.name, cmd.regoCode, cmd.effect, cmd.scope, true,
        has_name, has_code⟩
    else .error (.valueError "Rego code is required")
  else .error (.valueError "Policy name is required")

/-- The command over the policy engine's table. -/
def AddPolicyCommand.execute (cmd : AddPolicyCommand) (hex : String) :
    Proc (Dict String Policy) Policy := do
  let policy ← ofExcept (cmd.policy hex)
  modify fun policies => policies.set policy.policyId policy
  return policy

end Commands

section Requests

/-- A request that passed the model's validators; the form of the version is left out. -/
structure RegisterToolRequest extends RegisterToolCommand where
  name_length : 1 ≤ toolName.length ∧ toolName.length ≤ 100
  has_capabilities : capabilities ≠ []
  capabilities_valid : ∀ cap ∈ capabilities, cap ∈ ["read", "write", "execute", "network"]
  scope_length : 1 ≤ scope.length ∧ scope.length ≤ 200
  ttl_range : 60 ≤ ttlSeconds ∧ ttlSeconds ≤ 86400
  audit_level_valid : auditLevel ∈ ["none", "summary", "full"]

/-- The description and the tags, which nothing reads, are left out. -/
structure AddPolicyRequest where
  name : String
  regoCode : String
  effect : String
  scope : String
  name_length : 1 ≤ name.length ∧ name.length ≤ 100
  code_length : 1 ≤ regoCode.length
  effect_valid : effect ∈ ["allow", "deny"]
  scope_valid : scope ∈ ["tool", "session", "agent", "network"]

/-- The `except` clauses of both endpoints. -/
def respond {α : Type} : Except PyException α → Except HTTPException α
  | .ok value => .ok value
  | .error (.valueError message) => .error ⟨400, message, none⟩
  | .error _ => .error ⟨500, "Internal server error", none⟩

structure Registered where
  toolName : String
  version : String
  status : String
  deriving DecidableEq, Repr

def registerTool (repr : String → String) (request : RegisterToolRequest)
    (tools : Dict String ToolManifest) :
    Except HTTPException Registered × Dict String ToolManifest :=
  let result := (request.toRegisterToolCommand.execute repr).run tools
  (respond (result.1.map fun manifest => ⟨manifest.toolName, manifest.version, "registered"⟩),
    result.2)

structure Added where
  policyId : String
  name : String
  enabled : Bool
  deriving DecidableEq, Repr

/-- `PolicyMCPServer.add_policy`, which looks the effect and the scope up first. -/
def addPolicyCall (repr : String → String) (request : AddPolicyRequest) (hex : String) :
    Proc (Dict String Policy) Policy := do
  let effect ← ofExcept (policyEffect repr request.effect)
  let scope ← ofExcept (policyScope repr request.scope)
  AddPolicyCommand.execute ⟨request.name, request.regoCode, effect, scope⟩ hex

def addPolicy (repr : String → String) (request : AddPolicyRequest) (hex : String)
    (policies : Dict String Policy) : Except HTTPException Added × Dict String Policy :=
  let result := (addPolicyCall repr request hex).run policies
  (respond (result.1.map fun policy => ⟨policy.policyId, policy.name, policy.enabled⟩), result.2)

end Requests

section Lists

structure ToolRow where
  toolName : String
  version : String
  capabilities : List String
  scope : String
  deriving DecidableEq, Repr

def toolRow (t : ToolManifest) : ToolRow :=
  ⟨t.toolName, t.version, t.capabilities.map capabilityValue, t.scope⟩

structure PolicyRow where
  policyId : String
  name : String
  effect : PolicyEffect
  scope : PolicyScope
  enabled : Bool
  deriving DecidableEq, Repr

def policyRow (p : Policy) : PolicyRow := ⟨p.policyId, p.name, p.effect, p.scope, p.enabled⟩

/-- `GET /tools` among registrations. -/
def toolCatalog (repr : String → String) :
    Catalog (Dict String ToolManifest) RegisterToolRequest ToolRow where
  step tools request := (registerTool repr request tools).2
  list tools := tools.values.map toolRow

/-- `GET /policies`, which shows the enabled ones, among additions. -/
def policyCatalog (repr : String → String) :
    Catalog (Dict String Policy) (AddPolicyRequest × String) PolicyRow where
  step policies add := (addPolicy repr add.1 add.2 policies).2
  list policies := (policies.values.filter (·.enabled)).map policyRow

end Lists

/-! What passed the validators passes the checks of the commands as well. -/

section Accepted

/-- The manifest says what the request says. -/
structure Describes (request : RegisterToolRequest) (m : ToolManifest) : Prop where
  toolName : m.toolName = request.toolName
  version : m.version = request.version
  capabilities : ∀ c, c ∈ m.capabilities ↔ capabilityValue c ∈ request.capabilities
  scope : m.scope = request.scope
  ttlSeconds : m.ttlSeconds = request.ttlSeconds
  networkEgress : m.networkEgress = request.networkEgress
  auditLevel : auditLevelValue m.auditLevel = request.auditLevel
  signature : m.signature = request.signature

theorem capabilityType_valid (repr : String → String) {cap : String}
    (h : cap ∈ ["read", "write", "execute", "network"]) :
    ∃ c, capabilityType repr cap = .ok c ∧ capabilityValue c = cap := by
  simp only [List.mem_cons, List.not_mem_nil, or_false] at h
  rcases h with rfl | rfl | rfl | rfl
  · exact ⟨.read, rfl, rfl⟩
  · exact ⟨.write, rfl, rfl⟩
  · exact ⟨.execute, rfl, rfl⟩
  · exact ⟨.network, rfl, rfl⟩

theorem mapM_capabilityType (repr : String → String) {caps : List String}
    (h : ∀ cap ∈ caps, cap ∈ ["read", "write", "execute", "network"]) :
    ∃ cs, caps.mapM (capabilityType repr) = .ok cs ∧ cs.map capabilityValue = caps := by
  induction caps with
  | nil => exact ⟨[], rfl, rfl⟩
  | cons cap caps ih =>
    obtain ⟨c, hc, hvalue⟩ := capabilityType_valid repr (h cap List.mem_cons_self)
    obtain ⟨cs, hcs, hvalues⟩ := ih fun cap hcap => h cap (List.mem_cons_of_mem _ hcap)
    refine ⟨c :: cs, ?_, by rw [List.map_cons, hvalue, hvalues]⟩
    rw [List.mapM_cons, hc, hcs]
    rfl

theorem auditLevel_valid (repr : String → String) {level : String}
    (h : level ∈ ["none", "summary", "full"]) :
    ∃ l, auditLevel repr level = .ok l ∧ auditLevelValue l = level := by
  simp only [List.mem_cons, List.not_mem_nil, or_false] at h
  rcases h with rfl | rfl | rfl
  · exact ⟨.none, rfl, rfl⟩
  · exact ⟨.summary, rfl, rfl⟩
  · exact ⟨.full, rfl, rfl⟩

theorem ne_empty_of_length {s : String} (h : 1 ≤ s.length) : s ≠ "" := by
  rintro rfl
  exact absurd h (by decide)

/-- A validated registration is never refused, and its manifest replaces the tool's. -/
theorem registerTool_accepts (repr : String → String) (request : RegisterToolRequest) :
    ∃ m, Describes request m ∧ ∀ tools, registerTool repr request tools =
      (.ok ⟨request.toolName, request.version, "registered"⟩, tools.set request.toolName m) := by
  obtain ⟨caps, hcaps, hvalues⟩ := mapM_capabilityType repr request.capabilities_valid
  obtain ⟨audit, haudit, hlevel⟩ := auditLevel_valid repr request.audit_level_valid
  have hname : request.toolName ≠ "" := ne_empty_of_length request.name_length.1
  have httl : 0 < request.ttlSeconds := by have := request.ttl_range.1; omega
  refine ⟨⟨request.toolName, request.version, caps.dedup, request.scope, request.ttlSeconds,
    request.networkEgress, audit, request.signature, httl, hname⟩, ?_, fun tools => ?_⟩
  · refine ⟨rfl, rfl, fun c => ?_, rfl, rfl, rfl, hlevel, rfl⟩
    rw [List.mem_dedup, ← hvalues]
    constructor
    · exact fun hc => List.mem_map_of_mem hc
    · intro hc
      obtain ⟨d, hd, hvalue⟩ := List.mem_map.mp hc
      exact ManifestText.capabilityValue_injective hvalue ▸ hd
  · have hmanifest : request.manifest caps.dedup audit = .ok _ :=
      (dif_pos httl).trans (dif_pos hname)
    have hrun : (request.execute repr).run tools = (.ok _, tools.set request.toolName _) :=
      (bind_ok (by rw [hcaps]; rfl) _).trans <| (bind_ok (by rw [haudit]; rfl) _).trans <|
        (bind_ok (by rw [hmanifest]; rfl) _).trans rfl
    rw [registerTool, hrun]
    rfl

theorem policyEffect_valid (repr : String → String) {effect : String}
    (h : effect ∈ ["allow", "deny"]) : ∃ e, policyEffect repr effect = .ok e := by
  simp only [List.mem_cons, List.not_mem_nil, or_false] at h
  rcases h with rfl | rfl
  · exact ⟨.allow, rfl⟩
  · exact ⟨.deny, rfl⟩

theorem policyScope_valid (repr : String → String) {scope : String}
    (h : scope ∈ ["tool", "session", "agent", "network"]) :
    ∃ s, policyScope repr scope = .ok s := by
  simp only [List.mem_cons, List.not_mem_nil, or_false] at h
  rcases h with rfl | rfl | rfl | rfl
  · exact ⟨.tool, rfl⟩
  · exact ⟨.session, rfl⟩
  · exact ⟨.agent, rfl⟩
  · exact ⟨.network, rfl⟩

/-- A validated policy is never refused; it is enabled, under an id of its own digits. -/
theorem addPolicy_accepts (repr : String → String) (request : AddPolicyRequest) (hex : String) :
    ∃ p : Policy, p.policyId = "policy_" ++ hexPrefix 8 hex ∧ p.name = request.name ∧
      p.regoCode = request.regoCode ∧ p.enabled = true ∧
      ∀ policies, addPolicy repr request hex policies =
        (.ok ⟨p.policyId, request.name, true⟩, policies.set p.policyId p) := by
  obtain ⟨effect, heffect⟩ := policyEffect_valid repr request.effect_valid
  obtain ⟨scope, hscope⟩ := policyScope_valid repr request.scope_valid
  have hname : request.name ≠ "" := ne_empty_of_length request.name_length.1
  have hcode : request.regoCode ≠ "" := ne_empty_of_length request.code_length
  refine ⟨⟨"policy_" ++ hexPrefix 8 hex, request.name, request.regoCode, effect, scope, true,
    hname, hcode⟩, rfl, rfl, rfl, rfl, fun policies => ?_⟩
  have hpolicy : AddPolicyCommand.policy ⟨request.name, request.regoCode, effect, scope⟩ hex =
      .ok _ := (dif_pos hname).trans (dif_pos hcode)
  have hrun : (addPolicyCall repr request hex).run policies = (.ok _, policies.set _ _) :=
    (bind_ok (by rw [heffect]; rfl) _).trans <| (bind_ok (by rw [hscope]; rfl) _).trans <|
      (bind_ok (by rw [hpolicy]; rfl) _).trans rfl
  rw [addPolicy, hrun]
  rfl

end Accepted

section Tools

variable {repr : String → String} {tools : Dict String ToolManifest}

/-- Every manifest stands under its own name. -/
def Keyed (tools : Dict String ToolManifest) : Prop :=
  ∀ name m, tools.get? name = some m → m.toolName = name

theorem toolCatalog_step (repr : String → String) (request : RegisterToolRequest) :
    ∃ m, Describes request m ∧
      ∀ tools, (toolCatalog repr).step tools request = tools.set request.toolName m := by
  obtain ⟨m, hm, hset⟩ := registerTool_accepts repr request
  exact ⟨m, hm, fun tools => congrArg Prod.snd (hset tools)⟩

theorem Keyed.step (keyed : Keyed tools) (request : RegisterToolRequest) :
    Keyed ((toolCatalog repr).step tools request) := by
  obtain ⟨m, hm, hset⟩ := toolCatalog_step repr request
  intro name m' hget
  rw [hset, Dict.get?_set] at hget
  split_ifs at hget with hname
  · obtain rfl := Option.some.inj hget
    exact hm.toolName.trans hname.symm
  · exact keyed name m' hget

/-- The names of the list are the keys of the table, in their order. -/
theorem Keyed.names (keyed : Keyed tools) :
    ((toolCatalog repr).list tools).map (·.toolName) = tools.keys := by
  change (List.map toolRow (tools.entries.map Prod.snd)).map (·.toolName) =
    tools.entries.map Prod.fst
  rw [List.map_map, List.map_map]
  refine List.map_congr_left fun e he => ?_
  exact keyed e.1 e.2 (Dict.get?_eq_some.mpr he)

theorem tools_grow (repr : String → String) :
    Grows (toolCatalog repr) (·.toolName) Keyed where
  keeps _ request keyed := keyed.step request
  grows tools request keyed := by
    obtain ⟨m, -, hset⟩ := toolCatalog_step repr request
    rw [keyed.names, (keyed.step request).names, hset]
    exact tools.keys_prefix_set request.toolName m

/-- The registration that counts for a name is the last one. -/
def lastRegistration (name : String) (requests : List RegisterToolRequest) :
    Option RegisterToolRequest :=
  (requests.filter (·.toolName = name)).getLast?

theorem get?_after (repr : String → String) (requests : List RegisterToolRequest) (name : String) :
    Option.Rel Describes (lastRegistration name requests)
      (((toolCatalog repr).after requests .empty).get? name) := by
  induction requests using List.reverseRecOn with
  | nil => exact .none
  | append_singleton requests request ih =>
    obtain ⟨m, hm, hset⟩ := toolCatalog_step repr request
    rw [Catalog.after, List.foldl_append, List.foldl_cons, List.foldl_nil, ← Catalog.after, hset,
      Dict.get?_set, lastRegistration, List.filter_append]
    by_cases hname : name = request.toolName
    · subst hname
      simpa using hm
    · have hnone : [request].filter (fun r => r.toolName = name) = [] := by
        simp [Ne.symm hname]
      rw [if_neg hname, hnone, List.append_nil]
      exact ih

/-- A row of the list shows a registration. -/
structure Shows (request : RegisterToolRequest) (row : ToolRow) : Prop where
  toolName : row.toolName = request.toolName
  version : row.version = request.version
  capabilities : ∀ cap, cap ∈ row.capabilities ↔ cap ∈ request.capabilities
  scope : row.scope = request.scope

theorem Describes.shows {request : RegisterToolRequest} {m : ToolManifest}
    (h : Describes request m) : Shows request (toolRow m) where
  toolName := h.toolName
  version := h.version
  scope := h.scope
  capabilities cap := by
    change cap ∈ m.capabilities.map capabilityValue ↔ _
    constructor
    · intro hcap
      obtain ⟨c, hc, rfl⟩ := List.mem_map.mp hcap
      exact (h.capabilities c).mp hc
    · intro hcap
      obtain ⟨c, -, rfl⟩ := capabilityType_valid id (request.capabilities_valid cap hcap)
      exact List.mem_map_of_mem ((h.capabilities c).mpr hcap)

/-- In any run of validated registrations each is accepted, and the list has one row for every
name that was registered, with what its last registration said. -/
theorem registrations_listed (repr : String → String) (requests : List RegisterToolRequest) :
    (∀ before r rest, requests = before ++ r :: rest →
      (registerTool repr r ((toolCatalog repr).after before .empty)).1 =
        .ok ⟨r.toolName, r.version, "registered"⟩) ∧
    (((toolCatalog repr).list ((toolCatalog repr).after requests .empty)).map (·.toolName)).Nodup ∧
    (∀ r ∈ requests, ∃ row ∈ (toolCatalog repr).list ((toolCatalog repr).after requests .empty),
      row.toolName = r.toolName) ∧
    ∀ row ∈ (toolCatalog repr).list ((toolCatalog repr).after requests .empty),
      ∃ last, lastRegistration row.toolName requests = some last ∧ Shows last row := by
  have hkeyed : Keyed ((toolCatalog repr).after requests .empty) :=
    (tools_grow repr).inv (fun name m h => by cases h) requests
  refine ⟨fun before r rest _ => ?_, ?_, fun r hr => ?_, fun row hrow => ?_⟩
  · obtain ⟨m, -, hset⟩ := registerTool_accepts repr r
    rw [hset]
  · rw [hkeyed.names]
    exact Dict.keys_nodup _
  · have hmem : r ∈ requests.filter (·.toolName = r.toolName) :=
      List.mem_filter.mpr ⟨hr, by simp⟩
    have hrel := get?_after repr requests r.toolName
    rw [lastRegistration] at hrel
    cases hlast : (requests.filter (·.toolName = r.toolName)).getLast? with
    | none =>
      rw [List.getLast?_eq_none_iff] at hlast
      rw [hlast] at hmem
      cases hmem
    | some last =>
      rw [hlast] at hrel
      cases hget : ((toolCatalog repr).after requests .empty).get? r.toolName with
      | none =>
        rw [hget] at hrel
        cases hrel
      | some m =>
        exact ⟨toolRow m, List.mem_map_of_mem (Dict.mem_values.mpr ⟨_, hget⟩), hkeyed _ _ hget⟩
  · obtain ⟨m, hm, rfl⟩ := List.mem_map.mp hrow
    obtain ⟨name, hget⟩ := Dict.mem_values.mp hm
    have hrel := get?_after repr requests name
    rw [hget] at hrel
    rw [show (toolRow m).toolName = name from hkeyed name m hget]
    cases hlast : lastRegistration name requests with
    | none =>
      rw [hlast] at hrel
      cases hrel
    | some last =>
      rw [hlast] at hrel
      cases hrel with
      | some h => exact ⟨last, rfl, h.shows⟩

end Tools

section Pages

variable {repr : String → String} {policies : Dict String Policy}

/-- Every policy stands under its own id, and is enabled: nothing disables one here. -/
structure Enabled (policies : Dict String Policy) : Prop where
  keyed : ∀ id p, policies.get? id = some p → p.policyId = id
  enabled : ∀ id p, policies.get? id = some p → p.enabled = true

theorem policyCatalog_step (repr : String → String) (add : AddPolicyRequest × String) :
    ∃ p : Policy, p.enabled = true ∧
      ∀ policies, (policyCatalog repr).step policies add = policies.set p.policyId p := by
  obtain ⟨p, -, -, -, henabled, hset⟩ := addPolicy_accepts repr add.1 add.2
  exact ⟨p, henabled, fun policies => congrArg Prod.snd (hset policies)⟩

theorem Enabled.step (h : Enabled policies) (add : AddPolicyRequest × String) :
    Enabled ((policyCatalog repr).step policies add) := by
  obtain ⟨p, henabled, hset⟩ := policyCatalog_step repr add
  rw [hset]
  constructor
  · intro id q hget
    rw [Dict.get?_set] at hget
    split_ifs at hget with hid
    · obtain rfl := Option.some.inj hget
      exact hid.symm
    · exact h.keyed id q hget
  · intro id q hget
    rw [Dict.get?_set] at hget
    split_ifs at hget with hid
    · obtain rfl := Option.some.inj hget
      exact henabled
    · exact h.enabled id q hget

theorem Enabled.ids (h : Enabled policies) :
    ((policyCatalog repr).list policies).map (·.policyId) = policies.keys := by
  have hall : policies.values.filter (·.enabled) = policies.values := by
    rw [List.filter_eq_self]
    intro p hp
    obtain ⟨id, hget⟩ := Dict.mem_values.mp hp
    exact h.enabled id p hget
  change ((policies.values.filter (·.enabled)).map policyRow).map (·.policyId) =
    policies.entries.map Prod.fst
  rw [hall, Dict.values, List.map_map, List.map_map]
  refine List.map_congr_left fun e he => ?_
  exact h.keyed e.1 e.2 (Dict.get?_eq_some.mpr he)

theorem policies_grow (repr : String → String) :
    Grows (policyCatalog repr) (·.policyId) Enabled where
  keeps _ add h := h.step add
  grows policies add h := by
    obtain ⟨p, -, hset⟩ := policyCatalog_step repr add
    rw [h.ids, (h.step add).ids, hset]
    exact policies.keys_prefix_set p.policyId p

/-- Who reads the tools page by page, while others register, sees no tool twice. What full pages
show is the beginning of the final list, and all of it once a page is short. -/
theorem tools_paged (repr : String → String) (limit : ℕ)
    (rounds : List (List RegisterToolRequest)) :
    let pages := (toolCatalog repr).pages limit 0 rounds .empty
    let seen := pages.flatMap fun p => p.items.map (·.toolName)
    let final := ((toolCatalog repr).list ((toolCatalog repr).after rounds.flatten .empty)).map
      (·.toolName)
    seen.Nodup ∧ ((∀ p ∈ pages.dropLast, p.items.length = limit) →
      seen = final.take (rounds.length * limit) ∧
      ∀ last, pages.getLast? = some last → last.items.length < limit → seen = final) := by
  have hempty : Keyed .empty := fun name m h => by cases h
  have hkeyed := (tools_grow repr).inv hempty rounds.flatten
  refine (tools_grow repr).paged hempty ?_
  rw [hkeyed.names]
  exact Dict.keys_nodup _

/-- The policies are paged alike. -/
theorem policies_paged (repr : String → String) (limit : ℕ)
    (rounds : List (List (AddPolicyRequest × String))) :
    let pages := (policyCatalog repr).pages limit 0 rounds .empty
    let seen := pages.flatMap fun p => p.items.map (·.policyId)
    let final := ((policyCatalog repr).list
      ((policyCatalog repr).after rounds.flatten .empty)).map (·.policyId)
    seen.Nodup ∧ ((∀ p ∈ pages.dropLast, p.items.length = limit) →
      seen = final.take (rounds.length * limit) ∧
      ∀ last, pages.getLast? = some last → last.items.length < limit → seen = final) := by
  have hempty : Enabled .empty := ⟨fun id p h => (by cases h), fun id p h => (by cases h)⟩
  have henabled := (policies_grow repr).inv hempty rounds.flatten
  refine (policies_grow repr).paged hempty ?_
  rw [henabled.ids]
  exact Dict.keys_nodup _

theorem fifteen_minutes : (60 : ℤ) ≤ 900 ∧ (900 : ℤ) ≤ 86400 := by decide
theorem length_tmp : 1 ≤ "/tmp".length ∧ "/tmp".length ≤ 200 := by decide
theorem length_search : 1 ≤ "search".length ∧ "search".length ≤ 100 := by decide
theorem length_fetch : 1 ≤ "fetch".length ∧ "fetch".length ≤ 100 := by decide

def plainTool (name : String) (h : 1 ≤ name.length ∧ name.length ≤ 100) : RegisterToolRequest where
  toolName := name
  version := "1.0.0"
  capabilities := ["read"]
  scope := "/tmp"
  ttlSeconds := 900
  networkEgress := false
  auditLevel := "summary"
  signature := ""
  name_length := h
  has_capabilities := List.cons_ne_nil _ _
  capabilities_valid := List.forall_mem_singleton.mpr List.mem_cons_self
  scope_length := length_tmp
  ttl_range := fifteen_minutes
  audit_level_valid := List.mem_cons_of_mem _ List.mem_cons_self

/-- Two tools that are registered between the pages. -/
def twoRounds : List (List RegisterToolRequest) :=
  [[plainTool "search" length_search], [plainTool "fetch" length_fetch], []]

theorem tools_paged_twoRounds :
    ((toolCatalog id).pages 1 0 twoRounds .empty).flatMap (fun p => p.items.map (·.toolName)) =
      ["search", "fetch"] :=
  ((tools_paged id 1 twoRounds).2 (by decide)).1

end Pages

end CatalogEndpoints
