import HeteroAccel.Execution.ExecutionGraph
import HeteroAccel.Model.ModelResidencyManager
import HeteroAccel.Planner.ExecutionPlan

/-!
# The graph builder

`ExecutionGraphBuilder::build`: from a plan, a graph with a residency node for each region, a
barrier behind them, and a compute node behind the barrier. The counter `next_id_` of the builder is
an argument, and the one it ends with is a result.

## Main definitions

* `NodeOp`: what the nodes of `ExecutionNodes.h` do;
* `build`: the builder;
* `Layered`: the graphs that it makes, and `layered_build`.
-/

namespace HeteroAccel.Execution

open Planner

/-- The nodes of `ExecutionNodes.h`, by the members that their `execute` reads. -/
inductive NodeOp where
  | residency (region : ModelRegion) (target : ModelResidencyTarget)
  | synchronization
  | compute (prompt : String)
  deriving DecidableEq

namespace ExecutionGraphBuilder

/-- `ResidencyNode`. -/
def residencyNode (id : ℕ) (region : ModelRegion) (target : ModelResidencyTarget)
    (resource : ExecutionResource) : IExecutionNode NodeOp where
  id
  name := "Residency_" ++ region.identifier
  type := .residency
  resource
  op := .residency region target

/-- `SynchronizationNode`. -/
def synchronizationNode (id : ℕ) : IExecutionNode NodeOp where
  id
  name := "Sync_Data_Ready"
  type := .synchronization
  resource := .none
  op := .synchronization

/-- `ComputeNode`. -/
def computeNode (id : ℕ) (prompt : String) (resource : ExecutionResource) :
    IExecutionNode NodeOp where
  id
  name := "Engine_Compute"
  type := .compute
  resource
  op := .compute prompt

/-- A residency node for each region, under the ids from `nextId`. -/
def addResidencyNodes (target : ModelResidencyTarget) (resource : ExecutionResource) :
    ℕ → ExecutionGraph NodeOp → List ModelRegion → ExecutionGraph NodeOp
  | _, g, [] => g
  | nextId, g, region :: rest =>
    addResidencyNodes target resource (nextId + 1)
      (g.addNode (some (residencyNode nextId region target resource))).2 rest

/-- The dependencies of the barrier. -/
def addDependencies (syncId : ℕ) (g : ExecutionGraph NodeOp) (ids : List ℕ) :
    ExecutionGraph NodeOp :=
  ids.foldl (fun g id => (g.addDependency id syncId).2) g

/-- The resource of the node that generates. -/
def computeResource (plan : ModelExecutionPlan) : ExecutionResource :=
  match plan.mode with
  | .vulkan => .vulkan
  | .cuda => .cuda
  | _ => .cpu

/-- The target and the resource of the residency nodes, and the regions that get one; nothing for a
strategy that is not modelled by the builder. -/
def residencyNodes (plan : ModelExecutionPlan) (regions : List ModelRegion) :
    Option (ModelResidencyTarget × ExecutionResource × List ModelRegion) :=
  let computeRes := computeResource plan
  let accelRes : ExecutionResource := if computeRes = .cpu then .none else computeRes
  match plan.residency with
  | .fullResident | .auto =>
    some (if computeRes ≠ .cpu then .accelerator else .ram,
      if accelRes ≠ .none then accelRes else .ram, regions)
  | .partialResident | .hybrid => some (.ram, .ram, regions)
  | .cpuFallback => some (.ram, .ram, regions)
  | .streaming => some (.ram, .ram, [])
  | .memoryPressure | .acceleratorOffload => none

/-- What `build` returns and leaves: its result with `out_error`, the graph and the counter. -/
structure BuildResult where
  outcome : Option (Bool × String)
  graph : ExecutionGraph NodeOp
  nextId : ℕ

/-- The nodes and dependencies that are added for the given regions. -/
def addLayers (target : ModelResidencyTarget) (resource : ExecutionResource)
    (regions : List ModelRegion) (prompt : String) (computeRes : ExecutionResource) (nextId : ℕ)
    (g : ExecutionGraph NodeOp) : ExecutionGraph NodeOp :=
  let g := addResidencyNodes target resource nextId g regions
  let syncId := nextId + regions.length
  let g := (g.addNode (some (synchronizationNode syncId))).2
  let g := addDependencies syncId g (List.range' nextId regions.length)
  let computeId := syncId + 1
  let g := (g.addNode (some (computeNode computeId prompt computeRes))).2
  (g.addDependency syncId computeId).2

/-- `build`: residency nodes for the regions, and the node of the workload behind them. -/
def build (nextId : ℕ) (order : Traversal ℕ) (plan : ModelExecutionPlan)
    (regions : List ModelRegion)
    (prompt : String) (outGraph : ExecutionGraph NodeOp) : BuildResult :=
  if !plan.viable || plan.mode = .unsupported then
    { outcome := some (false, "Cannot build graph for unsupported or non-viable plan.")
      graph := outGraph
      nextId }
  else
    match residencyNodes plan regions with
    | none =>
      { outcome := some (false, "ExecutionStrategy not fully modeled in GraphBuilder.")
        graph := outGraph
        nextId }
    | some (target, resource, regions) =>
      let graph := addLayers target resource regions prompt (computeResource plan) nextId outGraph
      { outcome := graph.validate order, graph, nextId := nextId + regions.length + 2 }

end ExecutionGraphBuilder

namespace ExecutionGraph

variable {Op : Type*}

/-- What a node does. -/
def opOf (g : ExecutionGraph Op) (id : ℕ) : Option Op := (g.getNode id).map IExecutionNode.op

end ExecutionGraph

namespace ExecutionGraphBuilder

variable {g : ExecutionGraph NodeOp} {target : ModelResidencyTarget} {resource : ExecutionResource}
  {regions : List ModelRegion} {nextId n q : ℕ}

/-! ## The graph that is built -/

/-- The residency nodes are added by the operations of a graph. -/
theorem built_addResidencyNodes (h : g.Built) :
    (addResidencyNodes target resource nextId g regions).Built := by
  induction regions generalizing nextId g with
  | nil => exact h
  | cons region rest ih => exact ih (h.addNode _)

/-- The dependencies are added by the operations of a graph. -/
theorem built_addDependencies (h : g.Built) (syncId : ℕ) (ids : List ℕ) :
    (addDependencies syncId g ids).Built := by
  induction ids generalizing g with
  | nil => exact h
  | cons id ids ih => exact ih (h.addDependency id syncId)

/-- The residency nodes add no dependency. -/
theorem getPredecessors_addResidencyNodes :
    (addResidencyNodes target resource nextId g regions).getPredecessors n =
      g.getPredecessors n := by
  induction regions generalizing nextId g with
  | nil => rfl
  | cons region rest ih => exact ih.trans ExecutionGraph.getPredecessors_addNode

/-- The residency nodes are added to the nodes there are. -/
theorem getNode_addResidencyNodes :
    (addResidencyNodes target resource nextId g regions).getNode n =
      if nextId ≤ n then
        (regions[n - nextId]?.map fun region => residencyNode n region target resource).or
          (g.getNode n)
      else g.getNode n := by
  induction regions generalizing nextId g with
  | nil => simp [addResidencyNodes]
  | cons region rest ih =>
    show (addResidencyNodes target resource (nextId + 1) _ rest).getNode n = _
    rw [ih, ExecutionGraph.getNode_addNode]
    show (if nextId + 1 ≤ n then Option.or _ (if n = nextId then _ else _)
      else if n = nextId then _ else _) = _
    rcases Nat.lt_trichotomy n nextId with hlt | heq | hgt
    · rw [if_neg (by omega), if_neg (by omega), if_neg (by omega)]
    · rw [if_neg (by omega), if_pos heq, if_pos (by omega), heq, Nat.sub_self]
      rfl
    · rw [if_pos (by omega), if_neg (by omega), if_pos (by omega),
        show n - nextId = n - (nextId + 1) + 1 by omega, List.getElem?_cons_succ]

theorem nodes_addDependencies (syncId : ℕ) (ids : List ℕ) :
    (addDependencies syncId g ids).nodes = g.nodes := by
  induction ids generalizing g with
  | nil => rfl
  | cons id ids ih => exact ih.trans ExecutionGraph.nodes_addDependency

/-- The node that synchronizes waits for all residency nodes. -/
theorem mem_getPredecessors_addDependencies {syncId : ℕ} {ids : List ℕ} (hsync : syncId ∈ g.nodes)
    (hids : ∀ id ∈ ids, id ∈ g.nodes) :
    q ∈ (addDependencies syncId g ids).getPredecessors n ↔
      q ∈ g.getPredecessors n ∨ (n = syncId ∧ q ∈ ids) := by
  induction ids generalizing g with
  | nil => simp [addDependencies]
  | cons id ids ih =>
    obtain ⟨hid, hids⟩ := List.forall_mem_cons.mp hids
    show q ∈ (addDependencies syncId (g.addDependency id syncId).2 ids).getPredecessors n ↔ _
    rw [ih (by rwa [ExecutionGraph.nodes_addDependency])
      (fun id h => by rw [ExecutionGraph.nodes_addDependency]; exact hids id h),
      ExecutionGraph.mem_getPredecessors_addDependency hid hsync, List.mem_cons, or_assoc,
      ← and_or_left]

/-- The graphs of the builder: residency nodes for the regions from the id `first`, a barrier behind
all of them, and a compute node behind the barrier. -/
structure Layered (first : ℕ) (target : ModelResidencyTarget) (regions : List ModelRegion)
    (prompt : String) (g : ExecutionGraph NodeOp) : Prop where
  built : g.Built
  op_residency : ∀ i (h : i < regions.length),
    g.opOf (first + i) = some (.residency regions[i] target)
  op_sync : g.opOf (first + regions.length) = some .synchronization
  op_compute : g.opOf (first + regions.length + 1) = some (.compute prompt)
  op_other : ∀ n, n < first ∨ first + regions.length + 1 < n → g.opOf n = none
  predecessors : ∀ n q, q ∈ g.getPredecessors n ↔
    (n = first + regions.length ∧ first ≤ q ∧ q < first + regions.length) ∨
      (n = first + regions.length + 1 ∧ q = first + regions.length)

/-- The nodes of the graph, by their ids. -/
theorem getNode_addLayers (prompt : String) (computeRes : ExecutionResource) :
    (addLayers target resource regions prompt computeRes nextId {}).getNode n =
      if n = nextId + regions.length + 1 then some (computeNode n prompt computeRes)
      else if n = nextId + regions.length then some (synchronizationNode n)
      else if nextId ≤ n then
        regions[n - nextId]?.map fun region => residencyNode n region target resource
      else none := by
  have hempty : ({} : ExecutionGraph NodeOp).getNode n = none := rfl
  unfold addLayers ExecutionGraph.getNode
  dsimp only
  rw [ExecutionGraph.nodes_addDependency]
  show (ExecutionGraph.addNode _ _).2.getNode n = _
  rw [ExecutionGraph.getNode_addNode]
  unfold ExecutionGraph.getNode
  rw [nodes_addDependencies]
  show (if _ then _ else (ExecutionGraph.addNode _ _).2.getNode n) = _
  rw [ExecutionGraph.getNode_addNode, getNode_addResidencyNodes, hempty, Option.or_none]
  show (if n = nextId + regions.length + 1 then _
    else if n = nextId + regions.length then _ else _) = _
  split
  next heq => rw [heq]
  next =>
    split
    next heq => rw [heq]
    next => rfl

/-- The dependencies of the graph. -/
theorem mem_getPredecessors_addLayers (prompt : String) (computeRes : ExecutionResource) :
    q ∈ (addLayers target resource regions prompt computeRes nextId {}).getPredecessors n ↔
      (n = nextId + regions.length ∧ nextId ≤ q ∧ q < nextId + regions.length) ∨
        (n = nextId + regions.length + 1 ∧ q = nextId + regions.length) := by
  unfold addLayers
  dsimp only
  -- the nodes of the layers are there before their edges are
  have hnode : ∀ i < regions.length,
      nextId + i ∈ (addResidencyNodes target resource nextId {} regions).nodes := by
    intro i hi
    have hsome : (addResidencyNodes target resource nextId {} regions).getNode (nextId + i) =
        some (residencyNode (nextId + i) regions[i] target resource) := by
      rw [getNode_addResidencyNodes, if_pos (by omega), Nat.add_sub_cancel_left,
        List.getElem?_eq_getElem hi]
      rfl
    exact AList.lookup_isSome.mp (by
      show ((addResidencyNodes target resource nextId {} regions).getNode
        (nextId + i)).isSome = true
      rw [hsome]
      rfl)
  have hnone : (addResidencyNodes target resource nextId {} regions).getPredecessors n = [] :=
    getPredecessors_addResidencyNodes
  generalize addResidencyNodes target resource nextId {} regions = g at hnode hnone ⊢
  -- and so is the node that waits for them
  have hsync : nextId + regions.length ∈
      (g.addNode (some (synchronizationNode (nextId + regions.length)))).2.nodes :=
    ExecutionGraph.mem_nodes_addNode.mpr (.inl rfl)
  rw [ExecutionGraph.mem_getPredecessors_addDependency, ExecutionGraph.getPredecessors_addNode,
    mem_getPredecessors_addDependencies hsync, ExecutionGraph.getPredecessors_addNode, hnone,
    List.mem_range'_1]
  · simp only [List.not_mem_nil, false_or]
  · intro id hid
    obtain ⟨hle, hlt⟩ := List.mem_range'_1.mp hid
    refine ExecutionGraph.mem_nodes_addNode.mpr (.inr ?_)
    have hmem := hnode (id - nextId) (by omega)
    rwa [Nat.add_sub_cancel' hle] at hmem
  · rw [ExecutionGraph.mem_nodes_addNode, nodes_addDependencies]
    exact .inr hsync
  · exact ExecutionGraph.mem_nodes_addNode.mpr (.inl rfl)

/-- The graph that is built has three layers. -/
theorem layered_addLayers (prompt : String) (computeRes : ExecutionResource) :
    Layered nextId target regions prompt
      (addLayers target resource regions prompt computeRes nextId {}) := by
  refine ⟨?_, fun i h => ?_, ?_, ?_, fun n h => ?_, fun n q => mem_getPredecessors_addLayers _ _⟩
  · exact ((built_addDependencies ((built_addResidencyNodes .empty).addNode _) _ _).addNode
      _).addDependency _ _
  · rw [ExecutionGraph.opOf, getNode_addLayers, if_neg (by omega), if_neg (by omega),
      if_pos (by omega), Nat.add_sub_cancel_left, List.getElem?_eq_getElem h]
    rfl
  · rw [ExecutionGraph.opOf, getNode_addLayers, if_neg (by omega), if_pos rfl]
    rfl
  · rw [ExecutionGraph.opOf, getNode_addLayers, if_pos rfl]
    rfl
  · rw [ExecutionGraph.opOf, getNode_addLayers]
    rcases h with h | h
    · rw [if_neg (by omega), if_neg (by omega), if_neg (by omega)]
      rfl
    · rw [if_neg (by omega), if_neg (by omega), if_pos (by omega),
        List.getElem?_eq_none (by omega)]
      rfl

/-- The target of the residency nodes of a plan. -/
def targetOf (plan : ModelExecutionPlan) : ModelResidencyTarget :=
  match residencyNodes plan [] with
  | some (target, _, _) => target
  | none => .ram

/-- What `build` makes in an empty graph, for a plan that loads the regions. -/
theorem layered_build {order : Traversal ℕ} {plan : ModelExecutionPlan} {prompt : String}
    (hviable : plan.viable = true ∧ plan.mode ≠ .unsupported)
    (hresidency : plan.residency = .fullResident ∨ plan.residency = .auto ∨
      plan.residency = .partialResident ∨ plan.residency = .cpuFallback) :
    Layered nextId (targetOf plan) regions prompt
      (build nextId order plan regions prompt {}).graph := by
  unfold build targetOf residencyNodes
  rw [if_neg (by simp [hviable.1, hviable.2])]
  dsimp only
  rcases hresidency with h | h | h | h
  all_goals
    rw [h]
    exact layered_addLayers prompt _

end ExecutionGraphBuilder

end HeteroAccel.Execution
