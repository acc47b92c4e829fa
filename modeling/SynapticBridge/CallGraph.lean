import SynapticBridge.Domain
import SynapticBridge.Grouping
import SynapticBridge.StepTraces
import Mathlib.Data.Finset.Card
import Mathlib.Data.List.Perm.Basic
import Mathlib.Data.String.Basic

/-! Call graphs of sessions. A graph is one dictionary of metadata and nodes; its edges are
recorded as the caller names them, and the read-outs are computed from it one by one. -/
namespace CallGraph

open Domain OrderedDict StepTraces

variable {V : Type}

structure CallNode (V : Type) where
  id : String
  toolName : String
  sessionId : String
  agentId : String
  status : String
  startedAt : String
  completedAt : Option String
  parameters : Dict String V
  result : Option V
  error : Option String
  wasCorrected : Bool
  correctionId : Option String

structure CallEdge where
  fromNode : String
  toNode : String
  deriving DecidableEq, Repr

/-- The metadata keys of a graph, and the node entries that share its dictionary with them. -/
structure Graph (V : Type) where
  sessionId : String
  agentId : String
  nodes : List String
  edges : List CallEdge
  startedAt : String
  status : String
  endedAt : Option String
  entries : Dict String (CallNode V)

structure CallGraphService (V : Type) where
  graphs : Dict String (Graph V)
  activeSessions : Finset String

def init : CallGraphService V := ⟨.empty, ∅⟩

def startSession (s : CallGraphService V) (sessionId agentId now : String) :
    Graph V × CallGraphService V :=
  let graph : Graph V := ⟨sessionId, agentId, [], [], now, "active", none, .empty⟩
  (graph, ⟨s.graphs.set sessionId graph, insert sessionId s.activeSessions⟩)

def nodeIdOf (hex : String) : String := s!"node_{hexPrefix 12 hex}"

/-- No edge for a parent that is missing or empty. -/
def edgeTo (nodeId : String) : Option String → List CallEdge
  | none => []
  | some parentNodeId => if parentNodeId = "" then [] else [⟨parentNodeId, nodeId⟩]

def addNode (s : CallGraphService V) (sessionId toolName : String) (parameters : Dict String V)
    (parentNodeId : Option String) (hex now : String) :
    Except PyException String × CallGraphService V :=
  match s.graphs.get? sessionId with
  | none => (.error (.valueError s!"Session {sessionId} not found"), s)
  | some graph =>
    let nodeId := nodeIdOf hex
    let node : CallNode V := ⟨nodeId, toolName, sessionId, graph.agentId, "in_progress", now,
      none, parameters, none, none, false, none⟩
    let graph := { graph with
      nodes := graph.nodes ++ [nodeId]
      entries := graph.entries.set nodeId node
      edges := graph.edges ++ edgeTo nodeId parentNodeId }
    (.ok nodeId, { s with graphs := s.graphs.set sessionId graph })

/-- What the dictionary holds under a key other than a node's: a list, a string or nothing. -/
def metadataType (graph : Graph V) (key : String) : Option String :=
  if key = "nodes" ∨ key = "edges" then some "list"
  else if key = "session_id" ∨ key = "agent_id" ∨ key = "started_at" ∨ key = "status" ∨
    key = "ended_at" ∧ graph.endedAt.isSome then some "str"
  else none

/-- `complete_node` and `fail_node` check and look up alike. Metadata passes the check and has no
attributes to set. -/
def updateNode (s : CallGraphService V) (sessionId nodeId : String)
    (update : CallNode V → CallNode V) : Except PyException Unit × CallGraphService V :=
  let notFound : PyException :=
    .valueError s!"Node {nodeId} not found in session {sessionId}"
  match s.graphs.get? sessionId with
  | none => (.error notFound, s)
  | some graph =>
    match graph.entries.get? nodeId, metadataType graph nodeId with
    | some node, _ =>
      let graph := { graph with entries := graph.entries.set nodeId (update node) }
      (.ok (), { s with graphs := s.graphs.set sessionId graph })
    | none, some type =>
      (.error (.other "AttributeError" s!"'{type}' object has no attribute 'status'"), s)
    | none, none => (.error notFound, s)

def completeNode (s : CallGraphService V) (sessionId nodeId : String) (result : Option V)
    (wasCorrected : Bool) (correctionId : Option String) (now : String) :
    Except PyException Unit × CallGraphService V :=
  updateNode s sessionId nodeId fun node => { node with
    status := "completed"
    completedAt := some now
    result := result
    wasCorrected := wasCorrected
    correctionId := correctionId }

def failNode (s : CallGraphService V) (sessionId nodeId error now : String) :
    Except PyException Unit × CallGraphService V :=
  updateNode s sessionId nodeId fun node => { node with
    status := "failed"
    completedAt := some now
    error := some error }

def endSession (s : CallGraphService V) (sessionId now : String) :
    Except PyException (Graph V) × CallGraphService V :=
  match s.graphs.get? sessionId with
  | none => (.error (.valueError s!"Session {sessionId} not found"), s)
  | some graph =>
    let graph := { graph with status := "completed", endedAt := some now }
    (.ok graph, ⟨s.graphs.set sessionId graph, s.activeSessions.erase sessionId⟩)

structure NodeView where
  id : String
  toolName : String
  status : String
  startedAt : String
  completedAt : Option String
  wasCorrected : Bool
  error : Option String

structure GraphView where
  sessionId : String
  agentId : String
  nodes : List NodeView
  edges : List CallEdge
  startedAt : String
  status : String

structure Correction (V : Type) where
  nodeId : String
  toolName : String
  correctionId : Option String
  originalTool : Option V

structure Statistics where
  totalSessions : ℕ
  activeSessions : ℕ
  completedSessions : ℤ
  totalCalls : ℕ
  correctionsApplied : ℕ
  toolUsage : Dict String ℕ

/-- The nodes that every read-out goes through. No metadata key begins as a node id does. -/
def shownNodes (graph : Graph V) : List (CallNode V) := graph.nodes.filterMap graph.entries.get?

def nodeView (node : CallNode V) : NodeView where
  id := node.id
  toolName := node.toolName
  status := node.status
  startedAt := node.startedAt
  completedAt := node.completedAt
  wasCorrected := node.wasCorrected
  error := node.error

def graphView (graph : Graph V) : GraphView where
  sessionId := graph.sessionId
  agentId := graph.agentId
  nodes := (shownNodes graph).map nodeView
  edges := graph.edges
  startedAt := graph.startedAt
  status := graph.status

def getGraph (s : CallGraphService V) (sessionId : String) : Option GraphView :=
  (s.graphs.get? sessionId).map graphView

/-- `order` is the order in which the set of active sessions is iterated. -/
def getActiveSessions (s : CallGraphService V) (order : List String) : List (Option GraphView) :=
  order.map (getGraph s)

def corrections (graph : Graph V) : List (Correction V) :=
  ((shownNodes graph).filter (·.wasCorrected)).map fun node =>
    ⟨node.id, node.toolName, node.correctionId, node.parameters.get? "_original_tool"⟩

def getCorrectionOverlay (s : CallGraphService V) (sessionId : String) : List (Correction V) :=
  match s.graphs.get? sessionId with
  | none => []
  | some graph => corrections graph

/-- `xs[:limit]`. -/
def sliceTo {α : Type} (limit : ℤ) (xs : List α) : List α :=
  if 0 ≤ limit then xs.take limit.toNat else xs.take (xs.length - (-limit).toNat)

def getHistorical (s : CallGraphService V) (limit : ℤ) : List GraphView :=
  let historical := (s.graphs.keys.filter (· ∉ s.activeSessions)).filterMap (getGraph s)
  sliceTo limit (historical.mergeSort fun a b => b.startedAt ≤ a.startedAt)

structure Counts where
  toolUsage : Dict String ℕ
  totalCalls : ℕ
  correctionCount : ℕ

def countNode (counts : Counts) (node : CallNode V) : Counts where
  toolUsage := counts.toolUsage.set node.toolName
    ((counts.toolUsage.get? node.toolName).getD 0 + 1)
  totalCalls := counts.totalCalls + 1
  correctionCount := counts.correctionCount + if node.wasCorrected then 1 else 0

def countGraph (counts : Counts) (graph : Graph V) : Counts :=
  (shownNodes graph).foldl countNode counts

def getStatistics (s : CallGraphService V) : Statistics :=
  let counts := s.graphs.values.foldl countGraph ⟨.empty, 0, 0⟩
  { totalSessions := s.graphs.entries.length
    activeSessions := s.activeSessions.card
    completedSessions := (s.graphs.entries.length : ℤ) - s.activeSessions.card
    totalCalls := counts.totalCalls
    correctionsApplied := counts.correctionCount
    toolUsage := counts.toolUsage }

/-- A call that may change the service, with its arguments and what it draws from the clock and
from `uuid4`. The read-outs leave the service as it is. -/
inductive Operation (V : Type) where
  | startSession (sessionId agentId now : String)
  | addNode (sessionId toolName : String) (parameters : Dict String V)
      (parentNodeId : Option String) (hex now : String)
  | completeNode (sessionId nodeId : String) (result : Option V) (wasCorrected : Bool)
      (correctionId : Option String) (now : String)
  | failNode (sessionId nodeId error now : String)
  | endSession (sessionId now : String)

inductive Answer (V : Type) where
  | graph (graph : Graph V)
  | nodeId (nodeId : Except PyException String)
  | unit (result : Except PyException Unit)
  | ended (graph : Except PyException (Graph V))

def serve (s : CallGraphService V) : Operation V → Answer V × CallGraphService V
  | .startSession sessionId agentId now => (startSession s sessionId agentId now).map .graph id
  | .addNode sessionId toolName parameters parentNodeId hex now =>
    (addNode s sessionId toolName parameters parentNodeId hex now).map .nodeId id
  | .completeNode sessionId nodeId result wasCorrected correctionId now =>
    (completeNode s sessionId nodeId result wasCorrected correctionId now).map .unit id
  | .failNode sessionId nodeId error now => (failNode s sessionId nodeId error now).map .unit id
  | .endSession sessionId now => (endSession s sessionId now).map .ended id

def run (ops : List (Operation V)) : CallGraphService V :=
  ops.foldl (fun s op => (serve s op).2) init

section Steps

variable {s : CallGraphService V} {sessionId : String} {graph : Graph V}

theorem updateNode_cases (s : CallGraphService V) (sessionId nodeId : String)
    (update : CallNode V → CallNode V) :
    (updateNode s sessionId nodeId update).2 = s ∨ ∃ graph node,
      s.graphs.get? sessionId = some graph ∧ graph.entries.get? nodeId = some node ∧
        (updateNode s sessionId nodeId update).2 = { s with
          graphs := s.graphs.set sessionId
            { graph with entries := graph.entries.set nodeId (update node) } } := by
  rw [updateNode]
  cases hgraph : s.graphs.get? sessionId with
  | none => exact .inl rfl
  | some graph =>
    simp only
    cases hnode : graph.entries.get? nodeId with
    | some node => exact .inr ⟨graph, node, rfl, hnode, rfl⟩
    | none =>
      left
      cases metadataType graph nodeId <;> rfl

theorem updateNode_graph {updated nodeId : String} {update : CallNode V → CallNode V}
    (h : (updateNode s updated nodeId update).2.graphs.get? sessionId = some graph) :
    ∃ old, s.graphs.get? sessionId = some old ∧ graph.sessionId = old.sessionId ∧
      graph.nodes = old.nodes ∧ graph.edges = old.edges := by
  rcases updateNode_cases s updated nodeId update with hs | ⟨old, node, hold, -, hs⟩
  · rw [hs] at h
    exact ⟨graph, h, rfl, rfl, rfl⟩
  · rw [hs, Dict.get?_set] at h
    split_ifs at h with hsession
    · subst hsession
      obtain rfl := Option.some.inj h
      exact ⟨old, hold, rfl, rfl, rfl⟩
    · exact ⟨graph, h, rfl, rfl, rfl⟩

/-- What a call leaves of a graph: a new graph, the nodes and edges that were there, or one node
more with at most one edge to it. -/
theorem serve_graph (op : Operation V)
    (h : (serve s op).2.graphs.get? sessionId = some graph) :
    graph.sessionId = sessionId ∧ graph.nodes = [] ∧ graph.edges = [] ∨
    ∃ old, s.graphs.get? sessionId = some old ∧ graph.sessionId = old.sessionId ∧
      (graph.nodes = old.nodes ∧ graph.edges = old.edges ∨
        ∃ toolName parameters parentNodeId hex now,
          op = .addNode sessionId toolName parameters parentNodeId hex now ∧
          graph.nodes = old.nodes ++ [nodeIdOf hex] ∧
          graph.edges = old.edges ++ edgeTo (nodeIdOf hex) parentNodeId) := by
  cases op with
  | startSession started agentId now =>
    simp only [serve, startSession, Prod.map_snd, id, Dict.get?_set] at h
    split_ifs at h with hsession
    · obtain rfl := Option.some.inj h
      exact .inl ⟨hsession.symm, rfl, rfl⟩
    · exact .inr ⟨graph, h, rfl, .inl ⟨rfl, rfl⟩⟩
  | addNode added toolName parameters parentNodeId hex now =>
    simp only [serve, addNode, Prod.map_snd, id] at h
    cases hold : s.graphs.get? added with
    | none =>
      rw [hold] at h
      exact .inr ⟨graph, h, rfl, .inl ⟨rfl, rfl⟩⟩
    | some old =>
      simp only [hold, Dict.get?_set] at h
      split_ifs at h with hsession
      · subst hsession
        obtain rfl := Option.some.inj h
        exact .inr ⟨old, hold, rfl,
          .inr ⟨toolName, parameters, parentNodeId, hex, now, rfl, rfl, rfl⟩⟩
      · exact .inr ⟨graph, h, rfl, .inl ⟨rfl, rfl⟩⟩
  | completeNode updated nodeId result wasCorrected correctionId now =>
    obtain ⟨old, hold, hid, hnodes, hedges⟩ := updateNode_graph h
    exact .inr ⟨old, hold, hid, .inl ⟨hnodes, hedges⟩⟩
  | failNode updated nodeId error now =>
    obtain ⟨old, hold, hid, hnodes, hedges⟩ := updateNode_graph h
    exact .inr ⟨old, hold, hid, .inl ⟨hnodes, hedges⟩⟩
  | endSession ended now =>
    simp only [serve, endSession, Prod.map_snd, id] at h
    cases hold : s.graphs.get? ended with
    | none =>
      rw [hold] at h
      exact .inr ⟨graph, h, rfl, .inl ⟨rfl, rfl⟩⟩
    | some old =>
      simp only [hold, Dict.get?_set] at h
      split_ifs at h with hsession
      · subst hsession
        obtain rfl := Option.some.inj h
        exact .inr ⟨old, hold, rfl, .inl ⟨rfl, rfl⟩⟩
      · exact .inr ⟨graph, h, rfl, .inl ⟨rfl, rfl⟩⟩

theorem addNode_graph (h : s.graphs.get? sessionId = some graph) (toolName : String)
    (parameters : Dict String V) (parentNodeId : Option String) (hex now : String) :
    ∃ new, (serve s (.addNode sessionId toolName parameters parentNodeId hex now)).2.graphs.get?
        sessionId = some new ∧
      new.nodes = graph.nodes ++ [nodeIdOf hex] ∧
      new.edges = graph.edges ++ edgeTo (nodeIdOf hex) parentNodeId := by
  simp only [serve, addNode, h, Prod.map_snd, id, Dict.get?_set_self]
  exact ⟨_, rfl, rfl, rfl⟩

end Steps

/-! A DAG by construction: the list of nodes is a topological order of the edges. -/

section Dag

variable {s : CallGraphService V} {sessionId : String} {graph : Graph V} {ops : List (Operation V)}

/-- The edge joins two nodes of the list, an earlier one to a later one. -/
def Forward (nodes : List String) (edge : CallEdge) : Prop :=
  [edge.fromNode, edge.toNode].Sublist nodes

structure Ordered (graph : Graph V) : Prop where
  distinct : graph.nodes.Nodup
  forward : ∀ edge ∈ graph.edges, Forward graph.nodes edge

def Dag (s : CallGraphService V) : Prop :=
  ∀ sessionId graph, s.graphs.get? sessionId = some graph → Ordered graph

/-- The node id that a call generates when it does not raise. -/
def generated : Operation V → Option String
  | .addNode _ _ _ _ hex _ => some (nodeIdOf hex)
  | _ => none

/-- A parent is named only if it is a node of the session's graph at that time. -/
def ParentKnown (s : CallGraphService V) : Operation V → Prop
  | .addNode sessionId _ _ (some parentNodeId) _ _ => parentNodeId = "" ∨
      ∀ graph, s.graphs.get? sessionId = some graph → parentNodeId ∈ graph.nodes
  | _ => True

/-- The ids still to be generated are new. -/
structure Fresh (s : CallGraphService V) (ops : List (Operation V)) : Prop where
  distinct : (ops.filterMap generated).Nodup
  unused : ∀ sessionId graph, s.graphs.get? sessionId = some graph →
    ∀ nodeId ∈ graph.nodes, nodeId ∉ ops.filterMap generated

/-- An edge to the node added last points forward when it comes from an older node. -/
theorem forward_concat_iff {nodes : List String} {nodeId parentNodeId : String} :
    Forward (nodes ++ [nodeId]) ⟨parentNodeId, nodeId⟩ ↔ parentNodeId ∈ nodes := by
  rw [Forward, ← List.singleton_append, List.append_sublist_append_right,
    List.singleton_sublist]

theorem forward_edgeTo {nodes : List String} {nodeId : String} {parentNodeId : Option String}
    (h : ∀ p, parentNodeId = some p → p = "" ∨ p ∈ nodes) :
    ∀ edge ∈ edgeTo nodeId parentNodeId, Forward (nodes ++ [nodeId]) edge := by
  intro edge hedge
  cases parentNodeId with
  | none => cases hedge
  | some p =>
    rw [edgeTo] at hedge
    split_ifs at hedge with hempty
    · cases hedge
    · obtain rfl := List.mem_singleton.mp hedge
      exact forward_concat_iff.mpr ((h p rfl).resolve_left hempty)

theorem Fresh.head_notMem {op : Operation V} {nodeId : String} (h : Fresh s (op :: ops))
    (hgenerated : generated op = some nodeId) (hgraph : s.graphs.get? sessionId = some graph) :
    nodeId ∉ graph.nodes := by
  intro hmem
  apply h.unused sessionId graph hgraph nodeId hmem
  rw [List.filterMap_cons_some hgenerated]
  exact List.mem_cons_self

theorem filterMap_generated_subset (op : Operation V) (ops : List (Operation V)) :
    (ops.filterMap generated).Sublist ((op :: ops).filterMap generated) :=
  (List.sublist_cons_self op ops).filterMap _

theorem Fresh.serve {op : Operation V} (h : Fresh s (op :: ops)) : Fresh (serve s op).2 ops where
  distinct := h.distinct.sublist (filterMap_generated_subset op ops)
  unused := by
    intro sessionId graph hgraph nodeId hmem hlater
    have hunused : ∀ old, s.graphs.get? sessionId = some old → nodeId ∉ old.nodes :=
      fun old hold hmem => h.unused sessionId old hold nodeId hmem
        ((filterMap_generated_subset op ops).subset hlater)
    rcases serve_graph op hgraph with ⟨-, hnodes, -⟩ | ⟨old, hold, -, ⟨hnodes, -⟩ |
      ⟨toolName, parameters, parentNodeId, hex, now, rfl, hnodes, -⟩⟩
    · rw [hnodes] at hmem
      cases hmem
    · exact hunused old hold (hnodes ▸ hmem)
    · rw [hnodes, List.mem_append, List.mem_singleton] at hmem
      rcases hmem with hmem | rfl
      · exact hunused old hold hmem
      · have hdistinct := h.distinct
        rw [List.filterMap_cons_some (show generated _ = some (nodeIdOf hex) from rfl),
          List.nodup_cons] at hdistinct
        exact hdistinct.1 hlater

/-- One call keeps the graphs ordered exactly when it names no unknown parent. -/
theorem dag_serve_iff {op : Operation V} (hdag : Dag s) (hfresh : Fresh s (op :: ops)) :
    Dag (serve s op).2 ↔ ParentKnown s op := by
  constructor
  · intro hafter
    cases op with
    | addNode sessionId toolName parameters parentNodeId hex now =>
      cases parentNodeId with
      | none => trivial
      | some parentNodeId =>
        refine or_iff_not_imp_left.mpr fun hempty graph hgraph => ?_
        obtain ⟨new, hnew, hnodes, hedges⟩ :=
          addNode_graph hgraph toolName parameters (some parentNodeId) hex now
        apply forward_concat_iff.mp
        rw [← hnodes]
        apply (hafter sessionId new hnew).forward
        rw [hedges, List.mem_append, edgeTo, if_neg hempty]
        exact .inr (List.mem_singleton.mpr rfl)
    | startSession | completeNode | failNode | endSession => trivial
  · intro hknown sessionId graph hgraph
    rcases serve_graph op hgraph with ⟨-, hnodes, hedges⟩ | ⟨old, hold, -, ⟨hnodes, hedges⟩ |
      ⟨toolName, parameters, parentNodeId, hex, now, rfl, hnodes, hedges⟩⟩
    · refine ⟨hnodes ▸ List.nodup_nil, fun edge hedge => ?_⟩
      rw [hedges] at hedge
      cases hedge
    · refine ⟨hnodes ▸ (hdag sessionId old hold).distinct, fun edge hedge => ?_⟩
      rw [hnodes]
      exact (hdag sessionId old hold).forward edge (hedges ▸ hedge)
    · constructor
      · rw [hnodes]
        exact (hdag sessionId old hold).distinct.append (List.nodup_singleton _)
          (List.disjoint_singleton.mpr (hfresh.head_notMem rfl hold))
      · intro edge hedge
        rw [hedges, List.mem_append] at hedge
        rw [hnodes]
        rcases hedge with hedge | hedge
        · exact ((hdag sessionId old hold).forward edge hedge).trans
            (List.sublist_append_left _ _)
        · refine forward_edgeTo ?_ edge hedge
          rintro p rfl
          exact hknown.imp_right fun h => h old hold

/-- With fresh ids the graphs stay DAGs exactly in the runs that name no unknown parent. -/
theorem dag_iff (ops : List (Operation V)) (hfresh : (ops.filterMap generated).Nodup) :
    Along serve (fun s op => Dag (serve s op).2) init ops ↔ Along serve ParentKnown init ops := by
  apply along_iff fun s ops => Dag s ∧ Fresh s ops
  · rintro s op ops ⟨hdag, hfresh⟩
    exact dag_serve_iff hdag hfresh
  · rintro s op ops ⟨-, hfresh⟩ hafter
    exact ⟨hafter, hfresh.serve⟩
  · refine ⟨?_, hfresh, ?_⟩
    · intro sessionId graph h
      cases h
    · intro sessionId graph h
      cases h

end Dag

/-! The read-outs, each computed on its own, agree in every state that calls lead to. -/

section ReadOuts

variable {s : CallGraphService V} {sessionId : String} {graph : Graph V}

/-- The session ids under which graphs are kept and listed. -/
structure Kept (s : CallGraphService V) : Prop where
  active_known : ∀ sessionId ∈ s.activeSessions, sessionId ∈ s.graphs.keys
  own_id : ∀ sessionId graph, s.graphs.get? sessionId = some graph → graph.sessionId = sessionId

theorem updateNode_keys {updated nodeId : String} {update : CallNode V → CallNode V}
    (h : sessionId ∈ s.graphs.keys) :
    sessionId ∈ (updateNode s updated nodeId update).2.graphs.keys := by
  rcases updateNode_cases s updated nodeId update with hs | ⟨old, node, -, -, hs⟩
  · rwa [hs]
  · rw [hs]
    exact Dict.mem_keys_set.mpr (.inr h)

theorem updateNode_active (s : CallGraphService V) (updated nodeId : String)
    (update : CallNode V → CallNode V) :
    (updateNode s updated nodeId update).2.activeSessions = s.activeSessions := by
  rcases updateNode_cases s updated nodeId update with hs | ⟨old, node, -, -, hs⟩
  · rw [hs]
  · rw [hs]

theorem Kept.active (hk : Kept s) (op : Operation V) : ∀ sessionId ∈ (serve s op).2.activeSessions,
    sessionId ∈ (serve s op).2.graphs.keys := by
  intro sessionId h
  cases op with
  | startSession started agentId now =>
    rcases Finset.mem_insert.mp h with rfl | h
    · exact Dict.mem_keys_set.mpr (.inl rfl)
    · exact Dict.mem_keys_set.mpr (.inr (hk.active_known sessionId h))
  | addNode added toolName parameters parentNodeId hex now =>
    simp only [serve, addNode, Prod.map_snd, id] at h ⊢
    cases hold : s.graphs.get? added with
    | none =>
      rw [hold] at h
      exact hk.active_known sessionId h
    | some old =>
      rw [hold] at h
      exact Dict.mem_keys_set.mpr (.inr (hk.active_known sessionId h))
  | completeNode updated nodeId result wasCorrected correctionId now =>
    simp only [serve, completeNode, Prod.map_snd, id, updateNode_active] at h ⊢
    exact updateNode_keys (hk.active_known sessionId h)
  | failNode updated nodeId error now =>
    simp only [serve, failNode, Prod.map_snd, id, updateNode_active] at h ⊢
    exact updateNode_keys (hk.active_known sessionId h)
  | endSession ended now =>
    simp only [serve, endSession, Prod.map_snd, id] at h ⊢
    cases hold : s.graphs.get? ended with
    | none =>
      rw [hold] at h
      exact hk.active_known sessionId h
    | some old =>
      rw [hold] at h
      have hactive := hk.active_known sessionId (Finset.mem_of_mem_erase h)
      exact Dict.mem_keys_set.mpr (.inr hactive)

theorem Kept.serve (hk : Kept s) (op : Operation V) : Kept (serve s op).2 where
  active_known := hk.active op
  own_id := by
    intro sessionId graph hgraph
    rcases serve_graph op hgraph with ⟨hid, -⟩ | ⟨old, hold, hid, -⟩
    · exact hid
    · rw [hid, hk.own_id sessionId old hold]

theorem kept_run (ops : List (Operation V)) : Kept (run ops) := by
  induction ops using List.reverseRecOn with
  | nil =>
    constructor
    · intro sessionId h
      cases h
    · intro sessionId graph h
      cases h
  | append_singleton ops op ih =>
    rw [run, List.foldl_append, List.foldl_cons, List.foldl_nil]
    exact ih.serve op

/-- All nodes that the read-outs go through, session by session. -/
def allNodes (s : CallGraphService V) : List (CallNode V) := s.graphs.values.flatMap shownNodes

theorem foldl_countGraph (graphs : List (Graph V)) (counts : Counts) :
    graphs.foldl countGraph counts = (graphs.flatMap shownNodes).foldl countNode counts := by
  induction graphs generalizing counts with
  | nil => rfl
  | cons graph graphs ih =>
    rw [List.foldl_cons, ih, List.flatMap_cons, List.foldl_append]
    rfl

/-- Counting is grouping by tool, counting all, and counting the corrected. -/
theorem foldl_countNode (nodes : List (CallNode V)) :
    nodes.foldl countNode ⟨.empty, 0, 0⟩ =
      ⟨Grouping.group CallNode.toolName (fun old _ => old.getD 0 + 1) nodes, nodes.length,
        nodes.countP (·.wasCorrected)⟩ := by
  induction nodes using List.reverseRecOn with
  | nil => rfl
  | append_singleton nodes node ih =>
    rw [List.foldl_append, List.foldl_cons, List.foldl_nil, ih, Grouping.group_snoc,
      List.length_append, List.countP_append, List.countP_singleton]
    rfl

theorem getStatistics_eq (s : CallGraphService V) :
    (getStatistics s).totalCalls = (allNodes s).length ∧
      (getStatistics s).correctionsApplied = (allNodes s).countP (·.wasCorrected) ∧
      (getStatistics s).toolUsage.values.sum = (allNodes s).length := by
  simp only [getStatistics, foldl_countGraph]
  rw [← allNodes, foldl_countNode]
  refine ⟨rfl, rfl, ?_⟩
  have hsum : ((Grouping.group CallNode.toolName (fun old _ => old.getD 0 + 1)
      (allNodes s)).values.map id).sum = (allNodes s).length :=
    Grouping.sum_weights (fun _ => rfl) (fun _ _ => rfl) _
  rwa [List.map_id] at hsum

/-- A sum over the graphs is a sum over the known session ids. -/
theorem sum_over_keys {f : String → ℕ} {g : Graph V → ℕ}
    (h : ∀ sessionId graph, s.graphs.get? sessionId = some graph → f sessionId = g graph) :
    (s.graphs.values.map g).sum = (s.graphs.keys.map f).sum := by
  rw [Dict.values, Dict.keys, List.map_map, List.map_map]
  congr 1
  apply List.map_congr_left
  rintro ⟨sessionId, graph⟩ hmem
  exact (h sessionId graph (Dict.get?_eq_some.mpr hmem)).symm

theorem total_shown (s : CallGraphService V) : (allNodes s).length =
    (s.graphs.keys.map fun sessionId =>
      ((getGraph s sessionId).map (·.nodes.length)).getD 0).sum := by
  rw [allNodes, List.length_flatMap]
  apply sum_over_keys
  intro sessionId graph hgraph
  simp [getGraph, hgraph, graphView]

theorem total_overlay (s : CallGraphService V) : (allNodes s).countP (·.wasCorrected) =
    (s.graphs.keys.map fun sessionId => (getCorrectionOverlay s sessionId).length).sum := by
  rw [allNodes, List.countP_flatMap]
  apply sum_over_keys
  intro sessionId graph hgraph
  simp [getCorrectionOverlay, hgraph, corrections, List.countP_eq_length_filter]

/-- Known sessions are shown, each under its own id. -/
theorem Kept.shown (hk : Kept s) (ids : List String) (h : ∀ id ∈ ids, id ∈ s.graphs.keys) :
    ∃ views : List GraphView, ids.map (getGraph s) = views.map some ∧
      views.map (·.sessionId) = ids := by
  induction ids with
  | nil => exact ⟨[], rfl, rfl⟩
  | cons sessionId ids ih =>
    obtain ⟨views, hviews, hids⟩ := ih fun id hid => h id (List.mem_cons_of_mem _ hid)
    cases hgraph : s.graphs.get? sessionId with
    | none => exact absurd (h sessionId List.mem_cons_self) (Dict.get?_eq_none.mp hgraph)
    | some graph =>
      refine ⟨graphView graph :: views, ?_, ?_⟩
      · rw [List.map_cons, List.map_cons, hviews, getGraph, hgraph]
        rfl
      · rw [List.map_cons, hids]
        exact congrArg (· :: ids) (hk.own_id sessionId graph hgraph)

theorem sliceTo_all {α : Type} {limit : ℤ} {xs : List α} (h : (xs.length : ℤ) ≤ limit) :
    sliceTo limit xs = xs := by
  rw [sliceTo, if_pos (by omega), List.take_of_length_le (by omega)]

/-- Sessions that are not active are listed by `get_historical`, in some order. -/
theorem Kept.historical (hk : Kept s) {limit : ℤ} (hlimit : (s.graphs.keys.length : ℤ) ≤ limit) :
    ((getHistorical s limit).map (·.sessionId)).Perm
      (s.graphs.keys.filter (· ∉ s.activeSessions)) := by
  obtain ⟨views, hviews, hids⟩ := hk.shown (s.graphs.keys.filter (· ∉ s.activeSessions))
    fun id hid => (List.mem_filter.mp hid).1
  have hshown : (s.graphs.keys.filter (· ∉ s.activeSessions)).filterMap (getGraph s) = views := by
    rw [← Function.id_comp (getGraph s), ← List.filterMap_map, hviews, List.filterMap_map]
    simp
  have hlength : (views.length : ℤ) ≤ limit := by
    have hcount := congrArg List.length hids
    have hle := List.length_filter_le (fun id => decide (id ∉ s.activeSessions)) s.graphs.keys
    rw [List.length_map] at hcount
    omega
  rw [getHistorical, hshown, sliceTo_all (by rwa [List.length_mergeSort]), ← hids]
  exact (List.mergeSort_perm _ _).map _

/-- What the read-outs have to do with each other. -/
structure Agree (s : CallGraphService V) : Prop where
  active_known : ∀ sessionId ∈ s.activeSessions, sessionId ∈ s.graphs.keys
  listed_once : ∀ order limit, order.Nodup → (∀ id, id ∈ order ↔ id ∈ s.activeSessions) →
    (s.graphs.keys.length : ℤ) ≤ limit → ∃ active : List GraphView,
      getActiveSessions s order = active.map some ∧
      ((active ++ getHistorical s limit).map (·.sessionId)).Perm s.graphs.keys
  calls_by_tool : (getStatistics s).totalCalls = (getStatistics s).toolUsage.values.sum
  calls_shown : (getStatistics s).totalCalls = (s.graphs.keys.map fun sessionId =>
    ((getGraph s sessionId).map (·.nodes.length)).getD 0).sum
  corrections : (getStatistics s).correctionsApplied =
    (s.graphs.keys.map fun sessionId => (getCorrectionOverlay s sessionId).length).sum
  sessions : (getStatistics s).activeSessions + (getStatistics s).completedSessions =
    (getStatistics s).totalSessions

/-- The read-outs agree after every sequence of calls. -/
theorem read_outs_agree (ops : List (Operation V)) : Agree (run ops) := by
  have hk := kept_run ops
  obtain ⟨hcalls, hcorrections, husage⟩ := getStatistics_eq (run ops)
  refine ⟨hk.active_known, ?_, hcalls.trans husage.symm, hcalls.trans (total_shown _),
    hcorrections.trans (total_overlay _), add_sub_cancel _ _⟩
  intro order limit hnodup horder hlimit
  obtain ⟨active, hactive, hids⟩ := hk.shown order
    fun id hid => hk.active_known id ((horder id).mp hid)
  refine ⟨active, hactive, ?_⟩
  rw [List.map_append, hids]
  have hfiltered : order.Perm ((run ops).graphs.keys.filter (· ∈ (run ops).activeSessions)) := by
    rw [List.perm_ext_iff_of_nodup hnodup ((Dict.keys_nodup _).filter _)]
    intro id
    rw [horder, List.mem_filter, decide_eq_true_eq]
    exact ⟨fun h => ⟨hk.active_known id h, h⟩, And.right⟩
  refine (hfiltered.append (hk.historical hlimit)).trans ?_
  simpa using List.filter_append_perm (· ∈ (run ops).activeSessions) (run ops).graphs.keys

end ReadOuts

/-! One session, whose first node names a parent or none. -/

def sampleCalls (parentNodeId : Option String) : List (Operation String) :=
  [.startSession "s1" "agent_1" "", .addNode "s1" "filesystem.read" .empty parentNodeId "1" ""]

/-- A second node with the first one as its parent. -/
def twoNodes : List (Operation String) :=
  sampleCalls none ++ [.addNode "s1" "db.query" .empty (some (nodeIdOf "1")) "2" ""]

theorem dag_sample : Along serve (fun s op => Dag (serve s op).2) init twoNodes ∧
    ((run twoNodes).graphs.get? "s1").map (·.edges) =
      some [⟨nodeIdOf "1", nodeIdOf "2"⟩] := by
  have fresh : (twoNodes.filterMap generated).Nodup := by decide
  have known : ParentKnown (run (sampleCalls none))
      (.addNode "s1" "db.query" .empty (some (nodeIdOf "1")) "2" "") := by
    refine .inr fun graph hgraph => ?_
    obtain rfl := Option.some.inj hgraph
    exact List.mem_singleton.mpr rfl
  exact ⟨(dag_iff twoNodes fresh).mpr ⟨trivial, trivial, known, trivial⟩, rfl⟩

/-- An edge from a node that the graph does not have. -/
theorem unknown_parent_recorded :
    ((sampleCalls (some "node_missing")).filterMap generated).Nodup ∧
    ¬ Along serve (fun s op => Dag (serve s op).2) init (sampleCalls (some "node_missing")) := by
  refine ⟨List.nodup_singleton _, ?_⟩
  rintro ⟨-, hdag, -⟩
  have hforward := (hdag "s1" _ rfl).forward ⟨"node_missing", nodeIdOf "1"⟩
    (List.mem_singleton.mpr rfl)
  have hlength := hforward.length_le
  simp at hlength

end CallGraph
