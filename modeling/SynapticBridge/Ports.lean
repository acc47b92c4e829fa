import SynapticBridge.CorrectionPatterns
import SynapticBridge.OrderedDict

/-! The interfaces a command calls. Each port owns its state and may change only that.
A policy engine answers from its table and changes nothing. -/
namespace Ports

open Domain CorrectionPatterns OrderedDict
open Procedures (Proc.on Proc.modify)

structure ExecutionPort (K : Type) [Field K] [LinearOrder K] (X : Type) where
  getSession : String → Proc X (Option (ExecutionSession K))
  executeTool : ExecutionSession K → String → PyVal K → Proc X (PyVal K)

structure ToolRegistryPort (R : Type) where
  get : String → Proc R (Option ToolManifest)

structure AuditLogPort (K A : Type) where
  write : DomainEvent K → Proc A Unit

structure IntentClassifierPort (K C : Type) where
  classifyIntent : String → Proc C (String × K)
  getEmbedding : String → Proc C (List K)

structure CorrectionStorePort (K : Type) [Field K] [LinearOrder K] (S : Type) where
  saveCorrection : Correction K → Option (List K) → Proc S Unit
  findPatterns : List K → Proc S (List (CorrectionPattern K))

/-- Both engines keep a table of policies and differ only in how they evaluate one. -/
structure PolicyEngine (K : Type) where
  policies : Dict String Policy
  evaluate : Policy → PyVal K → Except PyException Bool

def PolicyEngine.listPolicies {K : Type} (e : PolicyEngine K) : List Policy :=
  e.policies.values.filter (·.enabled)

/-- `InMemoryPolicyEngine`: every `deny` policy denies every call. -/
def inMemoryPolicyEngine {K : Type} (policies : Dict String Policy) : PolicyEngine K where
  policies := policies
  evaluate policy _ := .ok (decide (policy.effect ≠ .deny))

/-- `InMemoryToolRegistry` reads its table. -/
def inMemoryToolRegistry : ToolRegistryPort (Dict String ToolManifest) where
  get toolName := ⟨fun tools => (.ok (tools.get? toolName), tools)⟩

/-- Observable calls: audit writes and tool executions, in order. -/
inductive Effect (K : Type) [Field K] [LinearOrder K] where
  | wrote (event : DomainEvent K)
  | executed (session : ExecutionSession K) (toolName : String) (parameters : PyVal K)

/-- The states of the ports and a ghost record of the observable calls. -/
structure World (K : Type) [Field K] [LinearOrder K] (X R A C S : Type) where
  execution : X
  registry : R
  audit : A
  classifier : C
  corrections : S
  trace : List (Effect K)

variable {K : Type} [Field K] [LinearOrder K] {X R A C S α : Type}

def onExecution (x : Proc X α) : Proc (World K X R A C S) α :=
  Proc.on World.execution (fun y w => { w with execution := y }) x
def onRegistry (x : Proc R α) : Proc (World K X R A C S) α :=
  Proc.on World.registry (fun y w => { w with registry := y }) x
def onAudit (x : Proc A α) : Proc (World K X R A C S) α :=
  Proc.on World.audit (fun y w => { w with audit := y }) x
def onClassifier (x : Proc C α) : Proc (World K X R A C S) α :=
  Proc.on World.classifier (fun y w => { w with classifier := y }) x
def onCorrections (x : Proc S α) : Proc (World K X R A C S) α :=
  Proc.on World.corrections (fun y w => { w with corrections := y }) x

def record (e : Effect K) : Proc (World K X R A C S) Unit :=
  Proc.modify fun w => { w with trace := w.trace ++ [e] }

/-- `await audit_log.write(event)`. The attempt is recorded even when the write raises. -/
def writeAudit (auditLog : AuditLogPort K A) (event : DomainEvent K) :
    Proc (World K X R A C S) Unit := do
  record (.wrote event)
  onAudit (auditLog.write event)

def callTool (executionPort : ExecutionPort K X) (session : ExecutionSession K)
    (toolName : String) (parameters : PyVal K) : Proc (World K X R A C S) (PyVal K) := do
  record (.executed session toolName parameters)
  onExecution (executionPort.executeTool session toolName parameters)

@[simp] theorem onExecution_run (x : Proc X α) (w : World K X R A C S) :
    (onExecution x).run w =
      ((x.run w.execution).1, { w with execution := (x.run w.execution).2 }) := rfl
@[simp] theorem onRegistry_run (x : Proc R α) (w : World K X R A C S) :
    (onRegistry x).run w =
      ((x.run w.registry).1, { w with registry := (x.run w.registry).2 }) := rfl
@[simp] theorem onClassifier_run (x : Proc C α) (w : World K X R A C S) :
    (onClassifier x).run w =
      ((x.run w.classifier).1, { w with classifier := (x.run w.classifier).2 }) := rfl
@[simp] theorem onCorrections_run (x : Proc S α) (w : World K X R A C S) :
    (onCorrections x).run w =
      ((x.run w.corrections).1, { w with corrections := (x.run w.corrections).2 }) := rfl

@[simp] theorem writeAudit_run (auditLog : AuditLogPort K A) (event : DomainEvent K)
    (w : World K X R A C S) : (writeAudit auditLog event).run w =
      (((auditLog.write event).run w.audit).1,
        { w with
          audit := ((auditLog.write event).run w.audit).2
          trace := w.trace ++ [.wrote event] }) := rfl

@[simp] theorem callTool_run (executionPort : ExecutionPort K X) (session : ExecutionSession K)
    (toolName : String) (parameters : PyVal K) (w : World K X R A C S) :
    (callTool executionPort session toolName parameters).run w =
      (((executionPort.executeTool session toolName parameters).run w.execution).1,
        { w with
          execution := ((executionPort.executeTool session toolName parameters).run w.execution).2
          trace := w.trace ++ [.executed session toolName parameters] }) := rfl

end Ports
