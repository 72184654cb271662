import HeteroAccel.Execution.ExecutionGraph
import HeteroAccel.Lib.Transition

/-!
# The graph scheduler

`ExecutionGraphScheduler::execute`: the loop that starts ready nodes, waits for running ones, and
passes failures on. The thread of `execute` takes one step at a time; between its steps, nodes
finish with any result, and cancellation is requested. Times and the polling interval are left out.

The tracker is a function: `execute` fills it for the nodes of the graph, and looks up no other ids.

## Main definitions

* `ExecuteState`: the variables of `execute`, where its thread is, and the nodes it has started;
* `ExecuteState.tick`: a step of the thread, and `tick_cases`: what it can be;
* `system`: a run of `execute` on a graph.
-/

namespace HeteroAccel.Execution

/-- The states of a node. -/
inductive GraphNodeState where
  | created | ready | running | completed | failed | cancelled | blocked | skipped
  deriving DecidableEq, Repr

/-- What the execution of a node returns. -/
structure GraphNodeResult where
  success : Bool := false
  errorMessage : String := ""
  deriving DecidableEq, Repr

/-- The report on one node when `execute` returns. -/
structure NodeTelemetry where
  nodeId : ℕ
  type : ExecutionNodeType
  resource : ExecutionResource
  finalState : GraphNodeState
  success : Bool
  failureReason : String
  deriving DecidableEq, Repr

/-- What `execute` returns. -/
structure ExecutionGraphResult where
  success : Bool := false
  errorMessage : String := ""
  telemetry : List NodeTelemetry := []
  deriving DecidableEq, Repr

/-- What the scheduler keeps of a node: its state, the predecessors it still waits for, and why it
has failed. -/
structure NodeStateTracker where
  state : GraphNodeState := .created
  inDegree : ℤ := 0
  failReason : String := ""
  deriving DecidableEq, Repr

/-- Where the thread of `execute` is. -/
inductive Phase where
  /-- At the check for cancellation, at the top of the loop. -/
  | top
  /-- Dispatching nodes; `rest` is still to be looked at. -/
  | dispatch (rest : List ℕ)
  /-- Waiting for tasks; `rest` is still to be looked at in this round. -/
  | poll (rest : List ℕ) (finished : Bool)
  /-- In `failDependentNodes`, with its queue. -/
  | propagate (queue : List ℕ) (reason : String) (rest : List ℕ)
  /-- At the last check of the loop. -/
  | check (active : Bool)
  | returned
  deriving DecidableEq, Repr

/-- The variables of `execute`. A task is there until its result is taken; `starts` records the
nodes that have been started, the last one first. -/
structure ExecuteState where
  cancelRequested : Bool := false
  tracker : ℕ → NodeStateTracker
  activeResources : ExecutionResource → ℤ := fun _ => 0
  activeTasks : KeyedMap ℕ (Option GraphNodeResult) := ∅
  overallSuccess : Bool := true
  errorMessage : String := ""
  phase : Phase := .top
  starts : List ℕ := []

/-- Resources that one node may use at a time. -/
def ExecutionResource.Exclusive (res : ExecutionResource) : Prop := res ≠ .none ∧ res ≠ .cpu

instance (res : ExecutionResource) : Decidable res.Exclusive := inferInstanceAs (Decidable (_ ∧ _))

/-- A resource other than the CPU serves one node at a time. -/
def checkResourceAvailable (res : ExecutionResource) (activeResources : ExecutionResource → ℤ) :
    Bool :=
  if res = .none then true
  else if res = .cpu then true
  else !decide (activeResources res > 0)

/-- A successor of a node that has completed. -/
def release (tracker : ℕ → NodeStateTracker) (succ : ℕ) : ℕ → NodeStateTracker :=
  let t := tracker succ
  let inDegree := t.inDegree - 1
  Function.update tracker succ { t with
    inDegree
    state := if inDegree = 0 ∧ t.state = .created then .ready else t.state }

variable {Op : Type*}

/-- The resource of a node. -/
def ExecutionGraph.resourceOf (g : ExecutionGraph Op) (id : ℕ) : ExecutionResource :=
  match g.getNode id with
  | some node => node.resource
  | none => .none

namespace ExecuteState

variable (g : ExecutionGraph Op) (s : ExecuteState)

/-- The variables before the loop. -/
def initial : ExecuteState where
  tracker id :=
    if id ∈ g.nodes then
      { inDegree := (g.getPredecessors id).length
        state := if (g.getPredecessors id).length = 0 then .ready else .created }
    else {}

/-- The state of a node. -/
def state (id : ℕ) : GraphNodeState := (s.tracker id).state

/-- A node has not been started. -/
def Waiting (id : ℕ) : Prop := s.state id = .created ∨ s.state id = .ready

instance (id : ℕ) : Decidable (s.Waiting id) := inferInstanceAs (Decidable (_ ∨ _))

/-- Marking the remaining nodes as cancelled. -/
def cancelRemaining : ExecuteState :=
  { s with
    overallSuccess := false
    errorMessage := "Execution cancelled."
    tracker := fun id =>
      if id ∈ g.nodes ∧ s.Waiting id then { s.tracker id with state := .cancelled }
      else s.tracker id }

/-- Starting a node. -/
def start (id : ℕ) : ExecuteState :=
  { s with
    tracker := Function.update s.tracker id { s.tracker id with state := .running }
    activeResources := Function.update s.activeResources (g.resourceOf id)
      (s.activeResources (g.resourceOf id) + 1)
    activeTasks := s.activeTasks.insert id none
    starts := id :: s.starts }

/-- The resource of a task that has finished. -/
def collect (id : ℕ) : ExecuteState :=
  { s with
    activeResources := Function.update s.activeResources (g.resourceOf id)
      (s.activeResources (g.resourceOf id) - 1)
    activeTasks := s.activeTasks.erase id }

/-- A task that has succeeded. -/
def complete (id : ℕ) : ExecuteState :=
  { s.collect g id with
    tracker := (g.getSuccessors id).foldl release
      (Function.update s.tracker id { s.tracker id with state := .completed }) }

/-- A task that has failed. -/
def fail (id : ℕ) (error : String) : ExecuteState :=
  { s.collect g id with
    tracker :=
      Function.update s.tracker id { s.tracker id with state := .failed, failReason := error }
    overallSuccess := false }

/-- A node that depends on a failed one. -/
def block (id : ℕ) (reason : String) : ExecuteState :=
  { s with
    tracker := Function.update s.tracker id { s.tracker id with
      state := .blocked
      failReason := "Blocked by failure of predecessor: " ++ reason } }

/-- One round of the loop that waits for tasks. -/
def pollRound : ExecuteState := { s with phase := .poll (sortedKeys s.activeTasks) false }

/-- A step of the thread of `execute`. -/
def tick : Option ExecuteState :=
  match s.phase with
  | .top =>
    let s := if s.cancelRequested then s.cancelRemaining g else s
    some { s with phase := .dispatch g.getAllNodeIds }
  | .dispatch (id :: rest) =>
    if s.state id = .ready ∧ !s.cancelRequested ∧
        checkResourceAvailable (g.resourceOf id) s.activeResources then
      some { s.start g id with phase := .dispatch rest }
    else some { s with phase := .dispatch rest }
  | .dispatch [] =>
    if s.activeTasks.keys = [] then some { s with phase := .check false } else some s.pollRound
  | .poll (id :: rest) finished =>
    match s.activeTasks.lookup id with
    | some (some res) =>
      if res.success then some { s.complete g id with phase := .poll rest true }
      else
        some { s.fail g id res.errorMessage with
          phase := .propagate (g.getSuccessors id) res.errorMessage rest }
    -- not ready within the polling interval
    | _ => some { s with phase := .poll rest finished }
  | .poll [] finished =>
    if finished ∨ s.activeTasks.keys = [] then some { s with phase := .check true }
    else some s.pollRound
  | .propagate (curr :: queue) reason rest =>
    if s.Waiting curr then
      some { s.block curr reason with
        phase := .propagate (queue ++ g.getSuccessors curr) reason rest }
    else some { s with phase := .propagate queue reason rest }
  | .propagate [] _ rest => some { s with phase := .poll rest true }
  | .check active =>
    if active ∨ ∃ id ∈ g.getAllNodeIds, s.state id = .ready ∨ s.state id = .running then
      some { s with phase := .top }
    else some { s with phase := .returned }
  | .returned => none

/-- What `execute` returns. -/
def result : ExecutionGraphResult :=
  let finished : Bool := g.getAllNodeIds.all fun id =>
    s.state id = .completed || s.state id = .skipped || s.state id = .cancelled
  { success := s.overallSuccess && finished
    errorMessage :=
      if !finished && s.errorMessage = "" then "Not all nodes completed successfully."
      else s.errorMessage
    telemetry := g.getAllNodeIds.filterMap fun id => (g.getNode id).map fun node =>
      { nodeId := id
        type := node.type
        resource := node.resource
        finalState := s.state id
        success := s.state id = .completed
        failureReason := (s.tracker id).failReason } }

end ExecuteState

/-- What happens while `execute` runs. -/
inductive Event where
  | requestCancel
  /-- A running node returns a result. -/
  | finish (id : ℕ) (res : GraphNodeResult)
  | tick

/-- The step that an event takes. -/
def ExecuteState.step (g : ExecutionGraph Op) (s : ExecuteState) : Event → Option ExecuteState
  | .requestCancel => some { s with cancelRequested := true }
  | .finish id res =>
    if s.activeTasks.lookup id = some none then
      some { s with activeTasks := s.activeTasks.insert id (some res) }
    else none
  | .tick => s.tick g

/-- A run of `execute` on a graph, from behind its validation. -/
def system (g : ExecutionGraph Op) : TransitionSystem ExecuteState Event where
  Init s := s = ExecuteState.initial g
  Step s l s' := s.step g l = some s'

end HeteroAccel.Execution
