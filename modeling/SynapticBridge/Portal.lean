import SynapticBridge.ExecuteEndpoint
import SynapticBridge.NumberedRecords
import SynapticBridge.OrderedDict

/-! The admin portal. Its routes keep policies, access requests and corrections in three lists of
records that are numbered as they are made, and decide about one record by a search for its id. -/
namespace Portal

open Domain NumberedRecords OrderedDict
open ExecuteEndpoint (HTTPException)

variable {K : Type}

@[ext] structure PortalPolicy (K : Type) where
  id : String
  name : PyVal K
  resource : PyVal K
  action : PyVal K
  effect : PyVal K
  conditions : PyVal K
  enabled : Bool

structure AccessRequest (K : Type) where
  id : String
  requester : PyVal K
  tool : PyVal K
  justification : PyVal K
  status : String
  requestedAt : K

structure PortalCorrection (K : Type) where
  id : String
  originalTool : String
  correctedTool : String
  confidence : K
  occurrenceCount : ℕ
  status : String
  createdAt : K

/-- `_policy_store`, `_access_requests` and `_corrections_store`. -/
structure Stores (K : Type) where
  policies : List (PortalPolicy K)
  accessRequests : List (AccessRequest K)
  corrections : List (PortalCorrection K)

/-- The number in `:03d`. -/
def threeDigits (n : ℕ) : List Char :=
  List.replicate (3 - (Nat.toDigits 10 n).length) '0' ++ Nat.toDigits 10 n

/-- `f"pol-{n + 1:03d}"`, for the record after `n` others. -/
def policyId (n : ℕ) : String := String.ofList ("pol-".toList ++ threeDigits (n + 1))
def requestId (n : ℕ) : String := String.ofList ("req-".toList ++ threeDigits (n + 1))
def correctionId (n : ℕ) : String := String.ofList ("cor-".toList ++ threeDigits (n + 1))

section Stores

variable [Field K]

/-- The records that the module starts with; `now` are the readings of the clock for them. -/
def initial (now : ℕ → K) : Stores K where
  policies := [
    ⟨"pol-001", .str "Production Database Deletion", .str "database.tables", .str "delete",
      .str "deny", .str "\x7b\"env\": \"production\"\x7d", true⟩,
    ⟨"pol-002", .str "Costly AWS Operations", .str "aws.ec2", .str "run_instances",
      .str "deny", .str "\x7b\"requires_approval\": true\x7d", true⟩,
    ⟨"pol-003", .str "File System Read Only", .str "filesystem", .str "write",
      .str "allow", .str "\x7b\"allowed_dirs\": [\"/tmp\", \"/uploads\"]\x7d", true⟩]
  accessRequests := [
    ⟨"req-001", .str "Alice Chen", .str "aws.ec2.describe",
      .str "Need to check instance status for incident investigation", "approved",
      now 0 - ((7200 : ℕ) : K)⟩,
    ⟨"req-002", .str "Bob Smith", .str "database.query",
      .str "Running ad-hoc queries for the weekly report", "pending", now 1 - ((1800 : ℕ) : K)⟩,
    ⟨"req-003", .str "Carol Davis", .str "git.push",
      .str "Need to push hotfix to production branch", "pending", now 2 - ((900 : ℕ) : K)⟩]
  corrections := [
    ⟨"cor-001", "bash.rm", "bash.mv_to_trash", ((85 : ℕ) : K) / ((100 : ℕ) : K), 12, "pending",
      now 3 - ((3600 : ℕ) : K)⟩,
    ⟨"cor-002", "aws.ec2.terminate", "aws.ec2.stop", ((92 : ℕ) : K) / ((100 : ℕ) : K), 8,
      "pending", now 4 - ((10800 : ℕ) : K)⟩,
    ⟨"cor-003", "http.get", "http.head", ((78 : ℕ) : K) / ((100 : ℕ) : K), 5, "approved",
      now 5 - ((86400 : ℕ) : K)⟩,
    ⟨"cor-004", "sql.drop_table", "sql.soft_delete", ((95 : ℕ) : K) / ((100 : ℕ) : K), 20,
      "approved", now 6 - ((172800 : ℕ) : K)⟩,
    ⟨"cor-005", "file.overwrite", "file.backup_and_write", ((65 : ℕ) : K) / ((100 : ℕ) : K), 3,
      "rejected", now 7 - ((259200 : ℕ) : K)⟩]

/-- `get_stats`; the number of active sessions is a constant of the route. -/
structure Stats (K : Type) where
  activeSessions : ℕ
  correctionsToday : ℕ
  cleAccuracy : K
  activePolicies : ℕ

def countStatus (s : Stores K) (status : String) : ℕ :=
  s.corrections.countP (·.status = status)

def getStats (s : Stores K) : Stats K :=
  let pending := countStatus s "pending"
  let approved := countStatus s "approved"
  let rejected := countStatus s "rejected"
  let totalCorrections := pending + approved + rejected
  { activeSessions := 3
    correctionsToday := pending
    cleAccuracy := if totalCorrections > 0 then (approved : K) / (totalCorrections : K)
      else ((8 : ℕ) : K) / ((10 : ℕ) : K)
    activePolicies := s.policies.length }

end Stores

structure Counts where
  pending : ℕ
  approved : ℕ
  rejected : ℕ
  deriving DecidableEq, Repr

def getCorrections (status : String) (s : Stores K) : List (PortalCorrection K) × Counts :=
  (s.corrections.filter (·.status = status),
    ⟨countStatus s "pending", countStatus s "approved", countStatus s "rejected"⟩)

section Routes

/-- The body that every route with an id ends in. -/
def answer {α : Type} (detail : String) : Option α → Except HTTPException α
  | some x => .ok x
  | none => .error ⟨404, detail, none⟩

def decideCorrection (status id : String) (s : Stores K) :
    Except HTTPException (PortalCorrection K) × Stores K :=
  let found := amend (·.id) id (fun c => { c with status := status }) s.corrections
  (answer "Correction not found" found.1, { s with corrections := found.2 })

def approveCorrection (id : String) (s : Stores K) := decideCorrection "approved" id s
def rejectCorrection (id : String) (s : Stores K) := decideCorrection "rejected" id s

/-- `policy` is the JSON object of the request. -/
def newPolicy (policy : List (String × PyVal K)) (id : String) : PortalPolicy K where
  id := id
  name := (findEntry "name" policy).getD (.str "Unnamed Policy")
  resource := (findEntry "resource" policy).getD (.str "")
  action := (findEntry "action" policy).getD (.str "")
  effect := (findEntry "effect" policy).getD (.str "deny")
  conditions := (findEntry "conditions" policy).getD .none
  enabled := true

def createPolicy (policy : List (String × PyVal K)) (s : Stores K) :
    PortalPolicy K × Stores K :=
  let new := newPolicy policy (policyId s.policies.length)
  (new, { s with policies := s.policies ++ [new] })

def updated (policy : List (String × PyVal K)) (p : PortalPolicy K) : PortalPolicy K :=
  { p with
    name := (findEntry "name" policy).getD p.name
    resource := (findEntry "resource" policy).getD p.resource
    action := (findEntry "action" policy).getD p.action
    effect := (findEntry "effect" policy).getD p.effect
    conditions := (findEntry "conditions" policy).getD p.conditions }

def changePolicy (f : PortalPolicy K → PortalPolicy K) (id : String) (s : Stores K) :
    Except HTTPException (PortalPolicy K) × Stores K :=
  let found := amend (·.id) id f s.policies
  (answer "Policy not found" found.1, { s with policies := found.2 })

def updatePolicy (id : String) (policy : List (String × PyVal K)) (s : Stores K) :=
  changePolicy (updated policy) id s
def togglePolicy (id : String) (s : Stores K) :=
  changePolicy (fun p => { p with enabled := !p.enabled }) id s

def newRequest (request : List (String × PyVal K)) (now : K) (id : String) : AccessRequest K where
  id := id
  requester := (findEntry "requester" request).getD (.str "Unknown")
  tool := (findEntry "tool" request).getD (.str "")
  justification := (findEntry "justification" request).getD .none
  status := "pending"
  requestedAt := now

def createAccessRequest (request : List (String × PyVal K)) (now : K) (s : Stores K) :
    AccessRequest K × Stores K :=
  let new := newRequest request now (requestId s.accessRequests.length)
  (new, { s with accessRequests := s.accessRequests ++ [new] })

def decideAccessRequest (status id : String) (s : Stores K) :
    Except HTTPException (AccessRequest K) × Stores K :=
  let found := amend (·.id) id (fun r => { r with status := status }) s.accessRequests
  (answer "Request not found" found.1, { s with accessRequests := found.2 })

def approveAccessRequest (id : String) (s : Stores K) := decideAccessRequest "approved" id s
def rejectAccessRequest (id : String) (s : Stores K) := decideAccessRequest "rejected" id s

end Routes

/-- A request to one of the routes that write. -/
inductive Call (K : Type) where
  | approveCorrection (id : String)
  | rejectCorrection (id : String)
  | createPolicy (policy : List (String × PyVal K))
  | updatePolicy (id : String) (policy : List (String × PyVal K))
  | togglePolicy (id : String)
  | createAccessRequest (request : List (String × PyVal K)) (now : K)
  | approveAccessRequest (id : String)
  | rejectAccessRequest (id : String)

def step (s : Stores K) : Call K → Stores K
  | .approveCorrection id => (approveCorrection id s).2
  | .rejectCorrection id => (rejectCorrection id s).2
  | .createPolicy policy => (createPolicy policy s).2
  | .updatePolicy id policy => (updatePolicy id policy s).2
  | .togglePolicy id => (togglePolicy id s).2
  | .createAccessRequest request now => (createAccessRequest request now s).2
  | .approveAccessRequest id => (approveAccessRequest id s).2
  | .rejectAccessRequest id => (rejectAccessRequest id s).2

def after (calls : List (Call K)) (s : Stores K) : Stores K := calls.foldl step s

/-! Each list sees of the calls only the changes of its own records. -/

section Changes

def policyChange : Call K → Change String (PortalPolicy K)
  | .createPolicy policy => .append (newPolicy policy)
  | .updatePolicy id policy => .amend id (updated policy)
  | .togglePolicy id => .amend id fun p => { p with enabled := !p.enabled }
  | _ => .keep

def requestChange : Call K → Change String (AccessRequest K)
  | .createAccessRequest request now => .append (newRequest request now)
  | .approveAccessRequest id => .amend id fun r => { r with status := "approved" }
  | .rejectAccessRequest id => .amend id fun r => { r with status := "rejected" }
  | _ => .keep

def correctionChange : Call K → Change String (PortalCorrection K)
  | .approveCorrection id => .amend id fun c => { c with status := "approved" }
  | .rejectCorrection id => .amend id fun c => { c with status := "rejected" }
  | _ => .keep

variable {calls : List (Call K)} {s : Stores K}

theorem after_policies (calls : List (Call K)) (s : Stores K) :
    (after calls s).policies = run (·.id) policyId s.policies (calls.map policyChange) := by
  induction calls generalizing s with
  | nil => rfl
  | cons c calls ih => exact (ih (step s c)).trans (by cases c <;> rfl)

theorem after_requests (calls : List (Call K)) (s : Stores K) :
    (after calls s).accessRequests =
      run (·.id) requestId s.accessRequests (calls.map requestChange) := by
  induction calls generalizing s with
  | nil => rfl
  | cons c calls ih => exact (ih (step s c)).trans (by cases c <;> rfl)

theorem after_corrections (calls : List (Call K)) (s : Stores K) :
    (after calls s).corrections =
      run (·.id) correctionId s.corrections (calls.map correctionChange) := by
  induction calls generalizing s with
  | nil => rfl
  | cons c calls ih => exact (ih (step s c)).trans (by cases c <;> rfl)

theorem lawful_policyChange (calls : List (Call K)) :
    ∀ c ∈ calls.map policyChange, Lawful (·.id) c := by
  intro c hc
  obtain ⟨call, -, rfl⟩ := List.mem_map.mp hc
  cases call <;> simp [policyChange, Lawful, newPolicy, updated]

theorem lawful_requestChange (calls : List (Call K)) :
    ∀ c ∈ calls.map requestChange, Lawful (·.id) c := by
  intro c hc
  obtain ⟨call, -, rfl⟩ := List.mem_map.mp hc
  cases call <;> simp [requestChange, Lawful, newRequest]

theorem lawful_correctionChange (calls : List (Call K)) :
    ∀ c ∈ calls.map correctionChange, Lawful (·.id) c := by
  intro c hc
  obtain ⟨call, -, rfl⟩ := List.mem_map.mp hc
  cases call <;> simp [correctionChange, Lawful]

end Changes

section Numbers

/-- Padding with zeros keeps the number. -/
theorem threeDigits_injective : Function.Injective threeDigits := by
  intro m n h
  have hread (k : ℕ) : Nat.ofDigitChars 10 (threeDigits k) 0 = k := by
    rw [threeDigits, Nat.ofDigitChars_append, Nat.ofDigitChars_replicate_zero, Nat.mul_zero,
      Nat.ofDigitChars_ten_toDigits]
  rw [← hread m, h, hread n]

theorem labelled_injective (stem : List Char) :
    Function.Injective fun n => String.ofList (stem ++ threeDigits (n + 1)) := by
  intro m n h
  have hdigits := List.append_cancel_left (String.ofList_injective h)
  have := threeDigits_injective hdigits
  omega

theorem policyId_injective : Function.Injective policyId := labelled_injective _
theorem requestId_injective : Function.Injective requestId := labelled_injective _
theorem correctionId_injective : Function.Injective correctionId := labelled_injective _

variable [Field K] (now : ℕ → K)

theorem numbered_policies : Numbered (·.id) policyId (initial now).policies := by
  rintro (_ | _ | _ | n) p hp <;> simp [initial] at hp <;> subst hp <;> rfl

theorem numbered_requests : Numbered (·.id) requestId (initial now).accessRequests := by
  rintro (_ | _ | _ | n) r hr <;> simp [initial] at hr <;> subst hr <;> rfl

theorem numbered_corrections : Numbered (·.id) correctionId (initial now).corrections := by
  rintro (_ | _ | _ | _ | _ | n) c hc <;> simp [initial] at hc <;> subst hc <;> rfl

end Numbers

section Isolation

def findPolicy (id : String) (s : Stores K) : Option (PortalPolicy K) :=
  s.policies.find? (·.id = id)
def findRequest (id : String) (s : Stores K) : Option (AccessRequest K) :=
  s.accessRequests.find? (·.id = id)
def findCorrection (id : String) (s : Stores K) : Option (PortalCorrection K) :=
  s.corrections.find? (·.id = id)

/-- The calls that make policies, or name the id of one. -/
def aboutPolicy (id : String) : Call K → Bool
  | .createPolicy _ => true
  | .updatePolicy i _ | .togglePolicy i => decide (i = id)
  | _ => false

def aboutRequest (id : String) : Call K → Bool
  | .createAccessRequest _ _ => true
  | .approveAccessRequest i | .rejectAccessRequest i => decide (i = id)
  | _ => false

def aboutCorrection (id : String) : Call K → Bool
  | .approveCorrection i | .rejectCorrection i => decide (i = id)
  | _ => false

theorem filter_policyChange (id : String) (calls : List (Call K)) :
    (calls.filter (aboutPolicy id)).map policyChange =
      (calls.map policyChange).filter (concerns id) := by
  rw [List.filter_map]
  congr 1
  exact List.filter_congr fun c _ => by cases c <;> rfl

theorem filter_requestChange (id : String) (calls : List (Call K)) :
    (calls.filter (aboutRequest id)).map requestChange =
      (calls.map requestChange).filter (concerns id) := by
  rw [List.filter_map]
  congr 1
  exact List.filter_congr fun c _ => by cases c <;> rfl

theorem filter_correctionChange (id : String) (calls : List (Call K)) :
    (calls.filter (aboutCorrection id)).map correctionChange =
      (calls.map correctionChange).filter (concerns id) := by
  rw [List.filter_map]
  congr 1
  exact List.filter_congr fun c _ => by cases c <;> rfl

/-- The answer of a route with an id: the record as it is kept now, or 404. -/
theorem changePolicy_answer {f : PortalPolicy K → PortalPolicy K} (keeps : ∀ p, (f p).id = p.id)
    (id : String) (s : Stores K) : (changePolicy f id s).1 =
      answer "Policy not found" (findPolicy id (changePolicy f id s).2) := by
  rw [findPolicy, changePolicy, find?_amend_snd keeps]

theorem decideCorrection_answer (status id : String) (s : Stores K) :
    (decideCorrection status id s).1 =
      answer "Correction not found" (findCorrection id (decideCorrection status id s).2) := by
  have keeps (c : PortalCorrection K) : { c with status := status }.id = c.id := rfl
  exact congrArg (answer _) (find?_amend_snd keeps).symm

theorem decideAccessRequest_answer (status id : String) (s : Stores K) :
    (decideAccessRequest status id s).1 =
      answer "Request not found" (findRequest id (decideAccessRequest status id s).2) := by
  have keeps (r : AccessRequest K) : { r with status := status }.id = r.id := rfl
  exact congrArg (answer _) (find?_amend_snd keeps).symm

variable [Field K]

/-- In every run the ids are distinct, and what a search finds under an id comes from the calls
about that id alone: all other decisions, updates and toggles could be left out of the run. -/
theorem records_isolated (now : ℕ → K) (calls : List (Call K)) :
    (((after calls (initial now)).policies.map (·.id)).Nodup ∧
      ((after calls (initial now)).accessRequests.map (·.id)).Nodup ∧
      ((after calls (initial now)).corrections.map (·.id)).Nodup) ∧
    ∀ id : String,
      findPolicy id (after (calls.filter (aboutPolicy id)) (initial now)) =
        findPolicy id (after calls (initial now)) ∧
      findRequest id (after (calls.filter (aboutRequest id)) (initial now)) =
        findRequest id (after calls (initial now)) ∧
      findCorrection id (after (calls.filter (aboutCorrection id)) (initial now)) =
        findCorrection id (after calls (initial now)) := by
  refine ⟨⟨?_, ?_, ?_⟩, fun id => ⟨?_, ?_, ?_⟩⟩
  · rw [after_policies]
    exact ((numbered_policies now).run policyId_injective
      (lawful_policyChange calls)).distinct policyId_injective
  · rw [after_requests]
    exact ((numbered_requests now).run requestId_injective
      (lawful_requestChange calls)).distinct requestId_injective
  · rw [after_corrections]
    exact ((numbered_corrections now).run correctionId_injective
      (lawful_correctionChange calls)).distinct correctionId_injective
  · rw [findPolicy, findPolicy, after_policies, after_policies, filter_policyChange]
    exact find?_run_isolated policyId_injective (numbered_policies now)
      (lawful_policyChange calls) id
  · rw [findRequest, findRequest, after_requests, after_requests, filter_requestChange]
    exact find?_run_isolated requestId_injective (numbered_requests now)
      (lawful_requestChange calls) id
  · rw [findCorrection, findCorrection, after_corrections, after_corrections,
      filter_correctionChange]
    exact find?_run_isolated correctionId_injective (numbered_corrections now)
      (lawful_correctionChange calls) id

end Isolation

section Policies

/-- The value that an update of the policy gives for a field. -/
def given (id field : String) : Call K → Option (PyVal K)
  | .updatePolicy i policy => if i = id then findEntry field policy else none
  | _ => none

/-- The value that the last update to give one gave. -/
def lastGiven (id field : String) (calls : List (Call K)) : Option (PyVal K) :=
  (calls.filterMap (given id field)).getLast?

def toggles (id : String) : Call K → Bool
  | .togglePolicy i => decide (i = id)
  | _ => false

/-- A field that updates replace and toggles leave. -/
theorem amended_field {view : PortalPolicy K → PyVal K} {field : String}
    (hupdated : ∀ policy p, view (updated policy p) = (findEntry field policy).getD (view p))
    (htoggled : ∀ p b, view { p with enabled := b } = view p) (id : String) (c : Call K)
    (x : PortalPolicy K) :
    view (amended id x (policyChange c)) = (given id field c).getD (view x) := by
  cases c with
  | updatePolicy i policy =>
    simp only [policyChange, amended, given]
    split_ifs
    · exact hupdated policy x
    · rfl
  | togglePolicy i =>
    simp only [policyChange, amended, given]
    split_ifs
    · exact htoggled x _
    · rfl
  | _ => rfl

theorem amended_enabled (id : String) (c : Call K) (x : PortalPolicy K) :
    (amended id x (policyChange c)).enabled = (x.enabled ^^ toggles id c) := by
  cases c with
  | updatePolicy i policy =>
    simp only [policyChange, amended, toggles, Bool.xor_false]
    split_ifs
    · rfl
    · rfl
  | togglePolicy i =>
    simp only [policyChange, amended, toggles]
    split_ifs with h
    · simp [h]
    · simp [h]
  | _ => exact (Bool.xor_false _).symm

variable [Field K]

/-- A policy that is made in a run is found under its id ever after. Each of its fields is what
the last update to give it gave, or what it was made with, and it is enabled after an even number
of toggles. Nothing that came before it counts. -/
theorem policy_life (now : ℕ → K) (before rest : List (Call K)) (policy : List (String × PyVal K)) :
    let id := policyId (after before (initial now)).policies.length
    findPolicy id (after (before ++ .createPolicy policy :: rest) (initial now)) = some {
      id := id
      name := (lastGiven id "name" rest).getD
        ((findEntry "name" policy).getD (.str "Unnamed Policy"))
      resource := (lastGiven id "resource" rest).getD ((findEntry "resource" policy).getD (.str ""))
      action := (lastGiven id "action" rest).getD ((findEntry "action" policy).getD (.str ""))
      effect := (lastGiven id "effect" rest).getD ((findEntry "effect" policy).getD (.str "deny"))
      conditions := (lastGiven id "conditions" rest).getD
        ((findEntry "conditions" policy).getD .none)
      enabled := decide (rest.countP (toggles id) % 2 = 0) } := by
  intro id
  have hid : id = policyId (run (·.id) policyId (initial now).policies
      (before.map policyChange)).length := by
    rw [← after_policies]
  have hlawful := lawful_policyChange (before ++ .createPolicy policy :: rest)
  rw [List.map_append, List.map_cons] at hlawful
  have hfound := find?_run_created policyId_injective (numbered_policies now) hlawful rfl
  rw [← hid] at hfound
  rw [findPolicy, after_policies, List.map_append, List.map_cons]
  refine hfound.trans (congrArg some ?_)
  have hfield {view : PortalPolicy K → PyVal K} {field : String}
      (hupdated : ∀ policy p, view (updated policy p) = (findEntry field policy).getD (view p))
      (htoggled : ∀ p b, view { p with enabled := b } = view p) :
      view (replay id (rest.map policyChange) (newPolicy policy id)) =
        (lastGiven id field rest).getD (view (newPolicy policy id)) :=
    replay_last view (amended_field hupdated htoggled id) rest _
  apply PortalPolicy.ext
  case id => simpa using List.find?_some hfound
  case name => exact hfield (fun _ _ => rfl) fun _ _ => rfl
  case resource => exact hfield (fun _ _ => rfl) fun _ _ => rfl
  case action => exact hfield (fun _ _ => rfl) fun _ _ => rfl
  case effect => exact hfield (fun _ _ => rfl) fun _ _ => rfl
  case conditions => exact hfield (fun _ _ => rfl) fun _ _ => rfl
  case enabled =>
    rw [replay_switch PortalPolicy.enabled (amended_enabled id) rest, newPolicy, Bool.true_xor]
    rcases Nat.mod_two_eq_zero_or_one (rest.countP (toggles id)) with h | h
    · simp [h]
    · simp [h]

end Policies

section Decisions

def correctionDecision (id : String) : Call K → Option String
  | .approveCorrection i => if i = id then some "approved" else none
  | .rejectCorrection i => if i = id then some "rejected" else none
  | _ => none

def requestDecision (id : String) : Call K → Option String
  | .approveAccessRequest i => if i = id then some "approved" else none
  | .rejectAccessRequest i => if i = id then some "rejected" else none
  | _ => none

def lastDecision (decision : Call K → Option String) (calls : List (Call K)) : Option String :=
  (calls.filterMap decision).getLast?

theorem replay_correction (id : String) (calls : List (Call K)) (x : PortalCorrection K) :
    replay id (calls.map correctionChange) x =
      (lastDecision (correctionDecision id) calls).elim x fun status =>
        { x with status := status } := by
  refine replay_put (fun status (x : PortalCorrection K) => { x with status := status })
    (fun _ _ _ => rfl) ?_ _ _
  intro c x
  cases c with
  | approveCorrection i | rejectCorrection i =>
    simp only [correctionChange, amended, correctionDecision]
    split_ifs
    · rfl
    · rfl
  | _ => rfl

theorem replay_request (id : String) (calls : List (Call K)) (x : AccessRequest K) :
    replay id (calls.map requestChange) x =
      (lastDecision (requestDecision id) calls).elim x
        fun status => { x with status := status } := by
  refine replay_put (fun status (x : AccessRequest K) => { x with status := status })
    (fun _ _ _ => rfl) ?_ _ _
  intro c x
  cases c with
  | approveAccessRequest i | rejectAccessRequest i =>
    simp only [requestChange, amended, requestDecision]
    split_ifs
    · rfl
    · rfl
  | _ => rfl

variable [Field K]

/-- An access request that is made in a run stays what it was made as, but for its status: the
last decision that names its id and comes after it, and before any the status "pending". -/
theorem request_life (now : ℕ → K) (before rest : List (Call K)) (request : List (String × PyVal K))
    (requestedAt : K) :
    let id := requestId (after before (initial now)).accessRequests.length
    findRequest id (after (before ++ .createAccessRequest request requestedAt :: rest)
        (initial now)) =
      some { newRequest request requestedAt id with
        status := (lastDecision (requestDecision id) rest).getD "pending" } := by
  intro id
  have hid : id = requestId (run (·.id) requestId (initial now).accessRequests
      (before.map requestChange)).length := by
    rw [← after_requests]
  have hlawful := lawful_requestChange (before ++ .createAccessRequest request requestedAt :: rest)
  rw [List.map_append, List.map_cons] at hlawful
  have hfound := find?_run_created requestId_injective (numbered_requests now) hlawful rfl
  rw [← hid, replay_request] at hfound
  rw [findRequest, after_requests, List.map_append, List.map_cons]
  refine hfound.trans (congrArg some ?_)
  cases lastDecision (requestDecision id) rest with
  | none => rfl
  | some status => rfl

end Decisions

section Dashboard

def createsPolicy : Call K → Bool
  | .createPolicy _ => true
  | _ => false

def STATUSES : List String := ["pending", "approved", "rejected"]

/-- Every correction has one of the three statuses that are counted. -/
def Decided (s : Stores K) : Prop := ∀ c ∈ s.corrections, c.status ∈ STATUSES

/-- The lists of the three statuses share the corrections out. -/
theorem Decided.listed_perm {s : Stores K} (decided : Decided s) :
    ((getCorrections "pending" s).1 ++ (getCorrections "approved" s).1 ++
      (getCorrections "rejected" s).1).Perm s.corrections := by
  have hsplit (status : String) (cs : List (PortalCorrection K)) :=
    List.filter_append_perm (fun c : PortalCorrection K => decide (c.status = status)) cs
  have hpending := hsplit "pending" s.corrections
  have happroved := hsplit "approved" (s.corrections.filter fun c => !decide (c.status = "pending"))
  rw [List.filter_filter, List.filter_filter] at happroved
  have hmiddle : s.corrections.filter (fun c => decide (c.status = "approved") &&
      !decide (c.status = "pending")) = (getCorrections "approved" s).1 := by
    refine List.filter_congr fun c hc => ?_
    by_cases h : c.status = "approved" <;> simp [h]
  have hlast : s.corrections.filter (fun c => !decide (c.status = "approved") &&
      !decide (c.status = "pending")) = (getCorrections "rejected" s).1 := by
    refine List.filter_congr fun c hc => ?_
    have hstatus := decided c hc
    simp only [STATUSES, List.mem_cons, List.not_mem_nil, or_false] at hstatus
    rcases hstatus with h | h | h <;> simp [h]
  rw [hmiddle, hlast] at happroved
  rw [List.append_assoc]
  exact (happroved.append_left _).trans hpending

theorem countStatus_eq (s : Stores K) (status : String) :
    countStatus s status = (getCorrections status s).1.length :=
  List.countP_eq_length_filter

theorem Decided.step {s : Stores K} (decided : Decided s) (c : Call K) : Decided (step s c) := by
  cases c with
  | approveCorrection id | rejectCorrection id =>
    exact forall_amend decided fun _ => by simp [STATUSES]
  | _ => exact decided

theorem Decided.after {s : Stores K} (decided : Decided s) (calls : List (Call K)) :
    Decided (after calls s) := by
  induction calls generalizing s with
  | nil => exact decided
  | cons c calls ih => exact ih (decided.step c)

theorem no_correction_appended (calls : List (Call K)) :
    (calls.map correctionChange).countP appends = 0 := by
  rw [List.countP_eq_zero]
  intro c hc
  obtain ⟨call, -, rfl⟩ := List.mem_map.mp hc
  cases call <;> simp [correctionChange, appends]

variable [Field K]

theorem decided_initial (now : ℕ → K) : Decided (initial now) := by
  simp [Decided, initial, STATUSES]

/-- The corrections list is the same five records in every run, each with the status of the last
decision that names it. The three lists of the portal share them out, and the dashboard's numbers
are the lengths of these lists; its default accuracy is never shown. -/
theorem dashboard (now : ℕ → K) (calls : List (Call K)) :
    let s := after calls (initial now)
    let listed := fun status => (getCorrections status s).1
    (∀ id, findCorrection id s = (findCorrection id (initial now)).map fun c =>
      (lastDecision (correctionDecision id) calls).elim c
        fun status => { c with status := status }) ∧
    (listed "pending" ++ listed "approved" ++ listed "rejected").Perm s.corrections ∧
    (getCorrections "pending" s).2 = ⟨(listed "pending").length, (listed "approved").length,
      (listed "rejected").length⟩ ∧
    getStats s = {
      activeSessions := 3
      correctionsToday := (listed "pending").length
      cleAccuracy := ((listed "approved").length : K) / ((5 : ℕ) : K)
      activePolicies := 3 + calls.countP createsPolicy } := by
  intro s listed
  have hperm := ((decided_initial now).after calls).listed_perm
  have hlength : s.corrections.length = 5 := by
    rw [after_corrections, length_run, no_correction_appended]
    rfl
  have htotal := hperm.length_eq.trans hlength
  rw [List.length_append, List.length_append] at htotal
  have hpolicies : s.policies.length = 3 + calls.countP createsPolicy := by
    have hcreates : appends ∘ policyChange = createsPolicy (K := K) := by
      funext c
      cases c <;> rfl
    rw [after_policies, length_run, List.countP_map, hcreates]
    rfl
  refine ⟨fun id => ?_, hperm, ?_, ?_⟩
  · rw [findCorrection, after_corrections, find?_run_kept correctionId_injective
      (numbered_corrections now) (lawful_correctionChange calls) (no_correction_appended calls)]
    exact congrArg (Option.map · _) (funext fun c => replay_correction id calls c)
  · change Counts.mk (countStatus s "pending") (countStatus s "approved")
      (countStatus s "rejected") = _
    rw [countStatus_eq, countStatus_eq, countStatus_eq]
  · simp only [getStats, countStatus_eq, htotal, hpolicies, listed, s]
    rfl

end Dashboard

end Portal
