import HeteroAccel.Execution.SchedulerRuns
import HeteroAccel.Execution.TensorComputeNode

/-!
# Graphs of tensor nodes

A graph of tensor nodes, executed by the scheduler. Each node runs on a thread of its own; between
two rounds of its loop, other nodes may run rounds of theirs. The graph has to make nodes wait for
each other when one sets a tensor that the other one uses.

## Main definitions

* `TensorRun`, `tensorSystem`: the scheduler, the tensors, and the nodes in their loops;
* `RaceFree`: what the graph has to ensure;
* `sequential`: the nodes one after the other;
* `RunsAsSequential`, `runsAsSequential_of_returned`: the tensors when `execute` has returned.
-/

namespace HeteroAccel.Execution

open Primitives Interleaving TransitionSystem

/-- The scheduler, the tensors, and the nodes in their loops. -/
structure TensorRun where
  exec : ExecuteState
  bytes : TensorBytes
  /-- How many rounds a node has run, once it has passed its checks. -/
  rounds : ℕ → Option ℕ := fun _ => none

/-- What happens while a graph of tensor nodes is executed. -/
inductive TensorEvent where
  | requestCancel
  | tick
  /-- A node looks for a cancellation and makes its checks. -/
  | enter (id : ℕ)
  /-- A node runs a round of its loop. -/
  | round (id : ℕ)
  /-- A node has left its loop, and returns. -/
  | leave (id : ℕ)
  deriving DecidableEq

section model

variable (tensors : ℕ → Tensor) (ops : Float32Ops) (g : ExecutionGraph TensorComputeNode)

/-- What a node does when it is not cancelled. -/
def executeNode (id : ℕ) : Except String (List TensorStep) :=
  match g.getNode id with
  | some node => node.op.execute tensors ops false
  | none => .ok []

/-- The rounds of a node; none when its checks fail. -/
def nodeRounds (id : ℕ) : List TensorStep :=
  match executeNode tensors ops g id with
  | .ok steps => steps
  | .error _ => []

/-- What a node returns when it is not cancelled. -/
def nodeResult (id : ℕ) : GraphNodeResult :=
  match executeNode tensors ops g id with
  | .ok _ => { success := true }
  | .error errorMessage => { errorMessage }

namespace TensorRun

variable (s : TensorRun)

/-- A step of the scheduler. -/
def schedule (event : Event) : Option TensorRun :=
  (s.exec.step g event).map fun exec => { s with exec }

/-- The thread of a started node checks its arguments; an error finishes the node at once. -/
def enter (id : ℕ) : Option TensorRun :=
  match s.exec.activeTasks.lookup id, s.rounds id, g.getNode id with
  | some none, none, some node =>
    match node.op.execute tensors ops s.exec.cancelRequested with
    | .ok _ => some { s with rounds := Function.update s.rounds id (some 0) }
    | .error errorMessage => s.schedule g (.finish id { errorMessage })
  | _, _, _ => none

/-- The thread of a node carries out its next round on the shared bytes. -/
def round (id : ℕ) : Option TensorRun :=
  match s.rounds id with
  | some k =>
    ((nodeRounds tensors ops g id)[k]?).map fun a =>
      { s with bytes := a.run s.bytes, rounds := Function.update s.rounds id (some (k + 1)) }
  | none => none

/-- The thread of a node has carried out all rounds and finishes it. -/
def leave (id : ℕ) : Option TensorRun :=
  if s.rounds id = some (nodeRounds tensors ops g id).length then
    s.schedule g (.finish id { success := true })
  else none

/-- A step of the scheduler, or of the thread of a node. -/
def step : TensorEvent → Option TensorRun
  | .requestCancel => s.schedule g .requestCancel
  | .tick => s.schedule g .tick
  | .enter id => s.enter tensors ops g id
  | .round id => s.round tensors ops g id
  | .leave id => s.leave tensors ops g id

end TensorRun

/-- A run of `execute` on a graph of tensor nodes, from given tensors. -/
def tensorSystem (bytes : TensorBytes) : TransitionSystem TensorRun TensorEvent where
  Init s := s = { exec := ExecuteState.initial g, bytes }
  Step s event s' := s.step tensors ops g event = some s'

/-- Nodes of which neither waits for the other do not use a tensor that one of them sets. -/
def RaceFree : Prop :=
  ∀ n m node node', n ≠ m → ¬ Ancestor g n m → ¬ Ancestor g m n → g.getNode n = some node →
    g.getNode m = some node' → ¬ node.op.Spoils node'.op

/-- The tensors after some nodes, one after the other. -/
def sequential (order : List ℕ) (m : TensorBytes) : TensorBytes :=
  order.foldl (fun m n =>
    match g.getNode n with
    | some node => node.op.effect tensors ops m
    | none => m) m

/-- An order for some nodes, each of them behind those it waits for. -/
structure IsOrder (nodes : ℕ → Prop) (order : List ℕ) : Prop where
  nodup : order.Nodup
  arranged : Arranged (Ancestor g) order
  mem : ∀ n, n ∈ order ↔ nodes n

/-- What a run leaves: the tensors are as after the nodes that have completed, one after the other
in any order that the graph allows. Unless a cancellation was requested, these are the nodes that
pass their checks, with all nodes they wait for. -/
structure RunsAsSequential (bytes : TensorBytes) (s : TensorRun) : Prop where
  ordered : ∃ order, IsOrder g (fun n => s.exec.state n = .completed) order
  bytes : ∀ order, IsOrder g (fun n => s.exec.state n = .completed) order →
    s.bytes = sequential tensors ops g order bytes
  completed : s.exec.cancelRequested = false → ∀ n ∈ g.nodes,
    (s.exec.state n = .completed ↔ (nodeResult tensors ops g n).success ∧
      ∀ a, Ancestor g a n → (nodeResult tensors ops g a).success)

end model

/-! ## The scheduler's side -/

section scheduler

variable {Op : Type*} {g : ExecutionGraph Op} {outcome : ℕ → GraphNodeResult}
  {s s' : ExecuteState} {id n : ℕ} {event : Event} {success : Bool}

/-- A node has returned with success, or without; its result may still have to be taken. -/
def Ended (s : ExecuteState) (n : ℕ) (success : Bool) : Prop :=
  (∃ res, s.activeTasks.lookup n = some (some res) ∧ res.success = success) ∨
    s.state n = if success then .completed else .failed

/-- Whether a node has ended depends on its task and state. -/
theorem Ended.congr (h : Ended s' n success) (htasks : s'.activeTasks = s.activeTasks)
    (hstate : s'.state n = (if success then .completed else .failed) →
      s.state n = if success then .completed else .failed) : Ended s n success := by
  refine h.imp (fun htask => ?_) hstate
  rw [← htasks]
  exact htask

/-- The thread of `execute` makes no node return. -/
theorem Ended.of_tick (hg : g.WellFormed) (hself : ∀ n, n ∉ g.getSuccessors n)
    (hstep : s.tick g = some s') (h : Ended s' n success) : Ended s n success := by
  -- a node that has ended is in one of two states
  have hne : ∀ st : GraphNodeState, st ≠ .completed → st ≠ .failed →
      (if success then GraphNodeState.completed else .failed) ≠ st := by
    intro st hc hf
    cases success with
    | true => exact hc.symm
    | false => exact hf.symm
  cases ExecuteState.tick_cases hstep with
  | moved => exact h
  | skipped => exact h
  | cancelled =>
    refine h.congr rfl fun hn => ?_
    refine (ExecuteState.state_cancelRemaining_iff ?_ ?_ ?_).mp hn <;>
    exact hne _ (by decide) (by decide)
  | @started id _ hready =>
    rcases h with ⟨res, htask, hres⟩ | hn
    · have htask : (s.activeTasks.insert id none).lookup n = some (some res) := htask
      rw [KeyedMap.lookup_insert_eq_ite] at htask
      split at htask
      next => cases htask
      next => exact .inl ⟨res, htask, hres⟩
    · have hn : (s.start g id).state n = _ := hn
      rw [ExecuteState.state_start] at hn
      split at hn
      next => exact absurd hn.symm (hne _ (by decide) (by decide))
      next => exact .inr hn
  | @completed id res _ htask hsuccess =>
    rcases h with ⟨res, htask, hres⟩ | hn
    · exact .inl ⟨res, KeyedMap.lookup_of_lookup_erase htask, hres⟩
    · have hn : (s.complete g id).state n = _ := hn
      -- the node that completes had its result pending
      by_cases heq : n = id
      · rw [heq, ExecuteState.state_complete_self hg (hself id)] at hn
        refine .inl ⟨res, heq ▸ htask, hsuccess.trans ?_⟩
        cases success with
        | true => rfl
        | false => cases hn
      · exact .inr ((ExecuteState.state_complete_iff hg (hself id) heq
          (hne _ (by decide) (by decide)) (hne _ (by decide) (by decide))).mp hn)
  | @failed id res _ htask hfails =>
    rcases h with ⟨res, htask, hres⟩ | hn
    · exact .inl ⟨res, KeyedMap.lookup_of_lookup_erase htask, hres⟩
    · have hn : (s.fail g id res.errorMessage).state n = _ := hn
      rw [ExecuteState.state_fail] at hn
      split at hn
      next heq =>
        refine .inl ⟨res, heq ▸ htask, hfails.trans ?_⟩
        cases success with
        | true => cases hn
        | false => rfl
      next => exact .inr hn
  | @blocked id _ reason _ hwaiting =>
    refine h.congr rfl fun hn => ?_
    have hn : (s.block id reason).state n = _ := hn
    rw [ExecuteState.state_block] at hn
    split at hn
    next => exact absurd hn.symm (hne _ (by decide) (by decide))
    next => exact hn

/-- A node returns when it finishes. -/
theorem Ended.of_step (hg : g.WellFormed) (hself : ∀ n, n ∉ g.getSuccessors n)
    (hstep : s.step g event = some s') (h : Ended s' n success) :
    Ended s n success ∨ ∃ res, event = .finish n res ∧ res.success = success := by
  cases event with
  | requestCancel =>
    cases hstep
    exact .inl h
  | tick => exact .inl (h.of_tick hg hself hstep)
  | finish id res =>
    unfold ExecuteState.step at hstep
    dsimp only at hstep
    split at hstep
    next =>
      cases hstep
      rcases h with ⟨res', htask, hres⟩ | hn
      · dsimp only at htask
        rw [KeyedMap.lookup_insert_eq_ite] at htask
        split at htask
        next heq =>
          cases htask
          exact .inr ⟨res, by rw [heq], hres⟩
        next => exact .inl (.inl ⟨res', htask, hres⟩)
      · exact .inl (.inr hn)
    next => cases hstep

/-- Nodes that have been started stay so. -/
theorem RunFits.started_of_step (h : RunFits g outcome s) {outcome' : ℕ → GraphNodeResult}
    (h' : RunFits g outcome' s') (hstep : s.step g event = some s') (hn : s.Started n) :
    s'.Started n := by
  rw [← h'.tasks.starts]
  have hn := (h.tasks.starts n).mpr hn
  rcases h.startsSafely hstep with heq | ⟨m, heq, -⟩
  · exact heq ▸ hn
  · exact heq ▸ List.mem_cons_of_mem _ hn

/-- A node that runs has no outcome yet. -/
theorem RunFits.update (h : RunFits g outcome s) (htask : s.activeTasks.lookup id = some none)
    (res : GraphNodeResult) : RunFits g (Function.update outcome id res) s := by
  have hrunning := h.tasks.running_of_lookup htask
  refine ⟨h.states, h.tasks, ⟨fun n res' hn => ?_, fun n hn => ?_, fun n hn => ?_⟩, h.report,
    h.returned⟩
  · rw [Function.update_of_ne (by rintro rfl; cases hn.symm.trans htask)]
    exact h.outcomes.pending n res' hn
  · rw [Function.update_of_ne (by rintro rfl; cases hn.symm.trans hrunning)]
    exact h.outcomes.completed n hn
  · rw [Function.update_of_ne (by rintro rfl; cases hn.symm.trans hrunning)]
    exact h.outcomes.failed n hn

/-- What a node that has been started had to wait for has completed. -/
theorem RunFits.completed_of_started (h : RunFits g outcome s) (hg : g.WellFormed) {a : ℕ}
    (ha : Ancestor g a n) (hn : s.Started n) : s.state a = .completed := by
  cases ha with
  | single hedge => exact h.states.ready n (.inr hn) a ((hg.inverse _ _).mpr hedge)
  | tail ha hedge =>
    exact h.completed_ancestor hg ha (h.states.ready n (.inr hn) _ ((hg.inverse _ _).mpr hedge))

theorem cancelRequested_of_step (hstep : s.step g event = some s')
    (h : s'.cancelRequested = false) : s.cancelRequested = false := by
  cases event with
  | requestCancel =>
    cases hstep
    cases h
  | finish id res =>
    unfold ExecuteState.step at hstep
    dsimp only at hstep
    split at hstep
    next =>
      cases hstep
      exact h
    next => cases hstep
  | tick => cases ExecuteState.tick_cases hstep <;> exact h

/-- No node is started in front of one that it waits for. -/
def StartsInOrder (g : ExecutionGraph Op) (starts : List ℕ) : Prop :=
  starts.Nodup ∧ starts.Pairwise fun n m => ¬ Ancestor g n m

/-- A step starts nodes behind their predecessors. -/
theorem RunFits.startsInOrder_of_step (h : RunFits g outcome s) (hg : g.WellFormed)
    (hstep : s.step g event = some s') (hstarts : StartsInOrder g s.starts) :
    StartsInOrder g s'.starts := by
  rcases h.startsSafely hstep with heq | ⟨n, heq, hnew, -⟩
  · exact heq ▸ hstarts
  · rw [heq]
    refine ⟨List.nodup_cons.mpr ⟨hnew, hstarts.1⟩, List.pairwise_cons.mpr ⟨?_, hstarts.2⟩⟩
    intro m hm hancestor
    -- the later node would have completed already
    have hcompleted := h.completed_of_started hg hancestor ((h.tasks.starts m).mp hm)
    exact hnew ((h.tasks.starts n).mpr (.inr (.inl hcompleted)))

end scheduler

/-! ## The invariant -/

section invariant

variable {tensors : ℕ → Tensor} {ops : Float32Ops} {g : ExecutionGraph TensorComputeNode}
  {bytes : TensorBytes} {s s' : TensorRun} {id n : ℕ}

/-- The nodes of a graph without cycles as processes with a shared memory. -/
def tensorProcesses (tensors : ℕ → Tensor) (ops : Float32Ops)
    (g : ExecutionGraph TensorComputeNode) (hirrefl : ∀ n, ¬ Ancestor g n n) :
    Processes ℕ (ℕ × ℕ) UInt8 where
  program := nodeRounds tensors ops g
  before := Ancestor g
  irrefl := hirrefl

/-- The invariant of a run from the tensors `bytes`. -/
structure TensorFits (tensors : ℕ → Tensor) (ops : Float32Ops)
    (g : ExecutionGraph TensorComputeNode) (hirrefl : ∀ n, ¬ Ancestor g n n) (bytes : TensorBytes)
    (s : TensorRun) : Prop where
  exec : ∃ outcome, RunFits g outcome s.exec ∧
    (s.exec.cancelRequested = false → outcome = nodeResult tensors ops g)
  starts : StartsInOrder g s.exec.starts
  came : (tensorProcesses tensors ops g hirrefl).Came bytes s.bytes fun n => (s.rounds n).getD 0
  started : ∀ n, s.rounds n ≠ none → s.exec.Started n
  passed : ∀ n, s.rounds n ≠ none → ∃ steps, executeNode tensors ops g n = .ok steps
  succeeded : ∀ n, Ended s.exec n true → s.rounds n = some (nodeRounds tensors ops g n).length
  failed : ∀ n, Ended s.exec n false → s.rounds n = none

variable {hirrefl : ∀ n, ¬ Ancestor g n n}

/-- What the thread of a node of the graph executes. -/
theorem executeNode_of_getNode {node : IExecutionNode TensorComputeNode}
    (hnode : g.getNode id = some node) :
    executeNode tensors ops g id = node.op.execute tensors ops false := by
  rw [executeNode, hnode]

/-- A step of the scheduler; a node that finishes is at the end of its loop, or has failed. -/
theorem TensorFits.schedule (h : TensorFits tensors ops g hirrefl bytes s) (hg : g.WellFormed)
    (hself : ∀ n, n ∉ g.getSuccessors n) {event : Event}
    (hfinish : ∀ id res, event = .finish id res →
      (s.exec.cancelRequested = false → res = nodeResult tensors ops g id) ∧
        s.rounds id = if res.success then some (nodeRounds tensors ops g id).length else none)
    (hstep : s.schedule g event = some s') : TensorFits tensors ops g hirrefl bytes s' := by
  obtain ⟨exec, hexec, rfl⟩ := Option.map_eq_some_iff.mp hstep
  obtain ⟨outcome, hfits, houtcome⟩ := h.exec
  -- without a cancellation the outcomes are the results of the nodes
  have hexec' : ∃ outcome, RunFits g outcome exec ∧
      (exec.cancelRequested = false → outcome = nodeResult tensors ops g) := by
    cases event with
    | requestCancel =>
      have hanswers : Answers outcome s.exec .requestCancel := trivial
      exact ⟨outcome, hfits.step hg hself hanswers hexec,
        fun hc => houtcome (cancelRequested_of_step hexec hc)⟩
    | tick =>
      have hanswers : Answers outcome s.exec .tick := trivial
      exact ⟨outcome, hfits.step hg hself hanswers hexec,
        fun hc => houtcome (cancelRequested_of_step hexec hc)⟩
    | finish id res =>
      have htask : s.exec.activeTasks.lookup id = some none := by
        unfold ExecuteState.step at hexec
        dsimp only at hexec
        split at hexec
        next htask => exact htask
        next => cases hexec
      -- the outcome of the node is fixed now
      refine ⟨Function.update outcome id res, (hfits.update htask res).step hg hself ?_ hexec,
        fun hc => ?_⟩
      · exact (Function.update_self id res outcome).symm
      · have hc := cancelRequested_of_step hexec hc
        rw [houtcome hc, (hfinish id res rfl).1 hc, Function.update_eq_self]
  obtain ⟨outcome', hfits', hresults⟩ := hexec'
  refine ⟨⟨outcome', hfits', hresults⟩, hfits.startsInOrder_of_step hg hexec h.starts, h.came,
    fun n hn => hfits.started_of_step hfits' hexec (h.started n hn), h.passed, ?_, ?_⟩
  · intro n hn
    rcases hn.of_step hg hself hexec with hended | ⟨res, rfl, hres⟩
    · exact h.succeeded n hended
    · exact (hfinish n res rfl).2.trans (if_pos hres)
  · intro n hn
    rcases hn.of_step hg hself hexec with hended | ⟨res, rfl, hres⟩
    · exact h.failed n hended
    · exact (hfinish n res rfl).2.trans (if_neg (by rw [hres]; decide))

/-- A node that runs has not returned. -/
theorem TensorFits.not_ended (h : TensorFits tensors ops g hirrefl bytes s)
    (htask : s.exec.activeTasks.lookup id = some none) (success : Bool) :
    ¬ Ended s.exec id success := by
  obtain ⟨outcome, hfits, -⟩ := h.exec
  have hrunning := hfits.tasks.running_of_lookup htask
  rintro (⟨res, hres, -⟩ | hstate)
  · cases hres.symm.trans htask
  · rw [hrunning] at hstate
    cases success <;> cases hstate

/-- A node comes to a round of its loop. -/
theorem TensorFits.move (h : TensorFits tensors ops g hirrefl bytes s) {k : ℕ}
    {bytes' : TensorBytes}
    (hcame : (tensorProcesses tensors ops g hirrefl).Came bytes bytes' fun n =>
      (Function.update s.rounds id (some k) n).getD 0)
    (hstarted : s.exec.Started id) (hpassed : ∃ steps, executeNode tensors ops g id = .ok steps)
    (hended : ∀ success, ¬ Ended s.exec id success) :
    TensorFits tensors ops g hirrefl bytes
      { s with bytes := bytes', rounds := Function.update s.rounds id (some k) } := by
  have hother : ∀ {n}, n ≠ id → Function.update s.rounds id (some k) n = s.rounds n :=
    fun hne => Function.update_of_ne hne _ _
  refine ⟨h.exec, h.starts, hcame, fun n hn => ?_, fun n hn => ?_, fun n hn => ?_, fun n hn => ?_⟩
  · by_cases heq : n = id
    · exact heq ▸ hstarted
    · exact h.started n (hother heq ▸ hn)
  · by_cases heq : n = id
    · exact heq ▸ hpassed
    · exact h.passed n (hother heq ▸ hn)
  · have hne : n ≠ id := by
      rintro rfl
      exact hended true hn
    exact (hother hne).trans (h.succeeded n hn)
  · have hne : n ≠ id := by
      rintro rfl
      exact hended false hn
    exact (hother hne).trans (h.failed n hn)

/-- A node that passes its checks comes to its loop. -/
theorem TensorFits.enter (h : TensorFits tensors ops g hirrefl bytes s) (hg : g.WellFormed)
    (hself : ∀ n, n ∉ g.getSuccessors n) (hstep : s.enter tensors ops g id = some s') :
    TensorFits tensors ops g hirrefl bytes s' := by
  unfold TensorRun.enter at hstep
  split at hstep
  next node htask hrounds hnode =>
    split at hstep
    next steps hexecute =>
      cases hstep
      obtain ⟨outcome, hfits, -⟩ := h.exec
      have hdone : (fun n => (Function.update s.rounds id (some 0) n).getD 0) =
          fun n => (s.rounds n).getD 0 := by
        funext n
        rw [Function.update_apply]
        split
        next heq =>
          rw [heq, hrounds]
          rfl
        next => rfl
      refine h.move (hdone ▸ h.came) (.inl (hfits.tasks.running_of_lookup htask)) ⟨steps, ?_⟩
        (h.not_ended htask)
      rw [executeNode_of_getNode hnode]
      exact TensorComputeNode.execute_of_ok hexecute
    next errorMessage hexecute =>
      refine h.schedule hg hself (fun _ _ hevent => ?_) hstep
      cases hevent
      refine ⟨fun hc => ?_, hrounds⟩
      rw [hc, ← executeNode_of_getNode hnode] at hexecute
      rw [nodeResult, hexecute]
  next => cases hstep

/-- A round of a node that is in its loop. -/
theorem TensorFits.round (h : TensorFits tensors ops g hirrefl bytes s) (hg : g.WellFormed)
    (hstep : s.round tensors ops g id = some s') : TensorFits tensors ops g hirrefl bytes s' := by
  unfold TensorRun.round at hstep
  split at hstep
  next k hrounds =>
    obtain ⟨a, ha, rfl⟩ := Option.map_eq_some_iff.mp hstep
    obtain ⟨outcome, hfits, -⟩ := h.exec
    have hsome : s.rounds id ≠ none := by simp [hrounds]
    have hlt : k < (nodeRounds tensors ops g id).length := (List.getElem?_eq_some_iff.mp ha).1
    have hended : ∀ success, ¬ Ended s.exec id success := by
      intro success hended
      cases success with
      | true => exact hlt.ne (Option.some.inj (hrounds.symm.trans (h.succeeded id hended)))
      | false => exact hsome (h.failed id hended)
    have hdone : (fun n => (Function.update s.rounds id (some (k + 1)) n).getD 0) =
        Function.update (fun n => (s.rounds n).getD 0) id ((s.rounds id).getD 0 + 1) := by
      funext n
      rw [Function.update_apply, Function.update_apply, hrounds]
      split <;> rfl
    refine h.move ?_ (h.started id hsome) (h.passed id hsome) hended
    rw [hdone]
    refine h.came.step (by rw [hrounds]; exact ha) fun m hm hancestor => ?_
    -- a node that waits for this one would have found it completed
    have hm : s.rounds m ≠ none := by
      intro hnone
      rw [hnone] at hm
      exact absurd hm (Nat.lt_irrefl 0)
    exact hended true (.inr (hfits.completed_of_started hg hancestor (h.started m hm)))
  next => cases hstep

theorem TensorFits.step (h : TensorFits tensors ops g hirrefl bytes s) (hg : g.WellFormed)
    (hself : ∀ n, n ∉ g.getSuccessors n) {event : TensorEvent}
    (hstep : s.step tensors ops g event = some s') : TensorFits tensors ops g hirrefl bytes s' := by
  cases event with
  | requestCancel => exact h.schedule hg hself (fun _ _ hevent => by cases hevent) hstep
  | tick => exact h.schedule hg hself (fun _ _ hevent => by cases hevent) hstep
  | enter id => exact h.enter hg hself hstep
  | round id => exact h.round hg hstep
  | leave id =>
    have hstep : s.leave tensors ops g id = some s' := hstep
    unfold TensorRun.leave at hstep
    split at hstep
    next hrounds =>
      refine h.schedule hg hself (fun _ _ hevent => ?_) hstep
      cases hevent
      obtain ⟨steps, hsteps⟩ := h.passed id (by simp [hrounds])
      refine ⟨fun _ => ?_, hrounds⟩
      rw [nodeResult, hsteps]
    next => cases hstep

/-- The initial state satisfies the invariant. -/
theorem TensorFits.initial (tensors : ℕ → Tensor) (ops : Float32Ops)
    (g : ExecutionGraph TensorComputeNode) (hirrefl : ∀ n, ¬ Ancestor g n n) (bytes : TensorBytes) :
    TensorFits tensors ops g hirrefl bytes { exec := ExecuteState.initial g, bytes } where
  exec := ⟨_, .initial g _, fun _ => rfl⟩
  starts := ⟨.nil, .nil⟩
  came := .refl
  started _ hn := absurd rfl hn
  passed _ hn := absurd rfl hn
  succeeded n hn := by
    rcases hn with ⟨res, htask, -⟩ | hstate
    · cases htask
    · exact absurd hstate (state_initial_ne (by decide) (by decide))
  failed _ _ := rfl

/-! ## The tensors in the end -/

/-- Nodes that may overlap do not race. -/
theorem RaceFree.processes (hfree : RaceFree g) :
    (tensorProcesses tensors ops g hirrefl).RaceFree := by
  have hnode : ∀ {n : ℕ} {a : TensorStep}, a ∈ nodeRounds tensors ops g n →
      ∃ node, g.getNode n = some node ∧ node.op.Touches a := by
    intro n a ha
    unfold nodeRounds at ha
    split at ha
    next steps hsteps =>
      cases hnode : g.getNode n with
      | none =>
        rw [executeNode, hnode] at hsteps
        cases hsteps
        cases ha
      | some node =>
        rw [executeNode_of_getNode hnode] at hsteps
        exact ⟨node, rfl, TensorComputeNode.touches_execute hsteps ha⟩
    next => cases ha
  intro n m hne hnm hmn a ha b hb
  obtain ⟨node, hn, hwrites, hreads⟩ := hnode ha
  obtain ⟨node', hm, hwrites', hreads'⟩ := hnode hb
  have hspoils := hfree n m node node' hne hnm hmn hn hm
  have hspoils' := hfree m n node' node hne.symm hmn hnm hm hn
  refine ⟨fun l hl hl' => ?_, fun l hl hl' => ?_, fun l hl hl' => ?_⟩
  · exact hspoils ⟨l.1, hwrites l hl, .inl (hwrites' l hl')⟩
  · exact hspoils' ⟨l.1, hwrites' l hl', .inr (hreads l hl)⟩
  · exact hspoils ⟨l.1, hwrites l hl', .inr (hreads' l hl)⟩

/-- The rounds of nodes that pass their checks have the effects of the nodes. -/
theorem foldl_nodeRounds {order : List ℕ} (m : TensorBytes)
    (hpassed : ∀ n ∈ order, ∃ steps, executeNode tensors ops g n = .ok steps) :
    order.foldl (fun m n => Action.runAll m (nodeRounds tensors ops g n)) m =
      sequential tensors ops g order m := by
  induction order generalizing m with
  | nil => rfl
  | cons n order ih =>
    obtain ⟨⟨steps, hsteps⟩, hpassed⟩ := List.forall_mem_cons.mp hpassed
    unfold sequential
    rw [List.foldl_cons, List.foldl_cons, ih _ hpassed, nodeRounds, hsteps]
    cases hnode : g.getNode n with
    | none =>
      rw [executeNode, hnode] at hsteps
      cases hsteps
      rfl
    | some node =>
      rw [executeNode_of_getNode hnode] at hsteps
      dsimp only
      rw [TensorComputeNode.runAll_execute hsteps]
      rfl

/-- **Graphs of tensor nodes.** In every run on a graph that is built with `addNode` and
`addDependency`, passes `validate` and has no races, the tensors are those of a sequential run when
`execute` returns. -/
theorem runsAsSequential_of_returned (hbuilt : g.Built) {order : Traversal ℕ} {text : String}
    (hvalid : g.validate order = some (true, text)) (hfree : RaceFree g)
    (h : (tensorSystem tensors ops g bytes).Reachable anyCall s)
    (hreturned : s.exec.phase = .returned) : RunsAsSequential tensors ops g bytes s := by
  have hg := hbuilt.wellFormed
  have hwf := ExecutionGraph.wellFounded_of_validate hg hvalid
  have hself : ∀ n, n ∉ g.getSuccessors n := fun n hn => hwf.irrefl.irrefl n hn
  have hirrefl : ∀ n, ¬ Ancestor g n n := hwf.transGen.irrefl.irrefl
  have hfits : TensorFits tensors ops g hirrefl bytes s := by
    refine h.invariant ?_ fun s event s' hs _ hstep => hs.step hg hself hstep
    rintro s rfl
    exact .initial tensors ops g hirrefl bytes
  obtain ⟨outcome, hexec, houtcome⟩ := hfits.exec
  have hfinal := hexec.finalStates hg hwf hreturned
  refine ⟨?ordered, ?bytes, ?completed⟩
  case ordered =>
    refine ⟨s.exec.starts.reverse.filter fun n => s.exec.state n = .completed, ?_, ?_, ?_⟩
    · exact (List.nodup_reverse.mpr hfits.starts.1).filter _
    · exact (List.pairwise_reverse.mpr hfits.starts.2).filter _
    · intro n
      rw [List.mem_filter, List.mem_reverse, hexec.tasks.starts, decide_eq_true_iff]
      exact and_iff_right_of_imp fun hn => .inr (.inl hn)
  case bytes =>
    intro order horder
    have hended : ∀ n ∈ order, s.rounds n = some (nodeRounds tensors ops g n).length :=
      fun n hn => hfits.succeeded n (.inr ((horder.mem n).mp hn))
    rw [← foldl_nodeRounds _ fun n hn => hfits.passed n (by simp [hended n hn])]
    refine hfits.came.memory_eq hfree.processes horder.nodup horder.arranged ?_ ?_
    · intro n hn
      rw [hended n hn]
      rfl
    · intro n hn
      by_contra hrounds
      have hsome : s.rounds n ≠ none := by
        intro hnone
        rw [hnone] at hrounds
        exact hrounds rfl
      -- a node that has come to its loop has completed
      rcases hfits.started n hsome with hrunning | hcompleted | hfailed
      · have hmem : n ∈ g.nodes := hexec.states.mem_nodes (by rw [hrunning]; decide)
        exact (hfinal.ended n hmem).2.2 hrunning
      · exact hn ((horder.mem n).mpr hcompleted)
      · exact hsome (hfits.failed n (.inr hfailed))
  case completed =>
    intro hc n hn
    rw [hfinal.completed hc n hn, houtcome hc]

end invariant

/-! ### A sample run -/

/-- Tensors of two floats. -/
def sampleTensor : Tensor where
  shape := { dims := [2], dtype := .float32 }
  buffer := { ptr := some (List.replicate 8 0), capacity := 8 }
  valid := true

/-- 3 + 4 = 7 and 3 * 4 = 12, on the bit patterns of these floats. -/
def sampleFloats : Float32Ops where
  add x y := if x = 0x40400000 ∧ y = 0x40800000 then 0x40E00000 else 0
  mul x y := if x = 0x40400000 ∧ y = 0x40800000 then 0x41400000 else 0

/-- Two tensors are filled, and added in place of the first. -/
def sampleTensorGraph : ExecutionGraph TensorComputeNode :=
  let exec := some IBackendExecutor.cpuBackendExecutor
  let g := (({} : ExecutionGraph TensorComputeNode).addNode
    (some (makeFill 1 exec (some 10) 0x40400000))).2
  let g := (g.addNode (some (makeFill 2 exec (some 11) 0x40800000))).2
  let g := (g.addNode (some (makeAdd 3 exec (some 10) (some 10) (some 11)))).2
  ((g.addDependency 1 3).2.addDependency 2 3).2

theorem built_sampleTensorGraph : sampleTensorGraph.Built :=
  ((((ExecutionGraph.Built.empty.addNode _).addNode _).addNode _).addDependency 1 3).addDependency
    2 3

/-- The nodes that are filled take turns. -/
def sampleTensorEvents : List TensorEvent :=
  List.replicate 4 .tick ++ [.enter 2, .enter 1, .round 1, .round 2, .round 2, .leave 2, .round 1,
    .leave 1] ++ List.replicate 10 .tick ++ [.enter 3, .round 3, .round 3, .leave 3] ++
    List.replicate 9 .tick

/-- The state after an event; where the step is not possible, nothing changes. -/
def sampleTensorNext (s : TensorRun) (event : TensorEvent) : TensorRun :=
  (s.step (fun _ => sampleTensor) sampleFloats sampleTensorGraph event).getD s

/-- The state behind the sample's events. -/
def sampleTensorRun : TensorRun :=
  sampleTensorEvents.foldl sampleTensorNext
    { exec := ExecuteState.initial sampleTensorGraph, bytes := fun _ => 0 }

theorem reachable_sampleTensorRun :
    (tensorSystem (fun _ => sampleTensor) sampleFloats sampleTensorGraph fun _ => 0).Reachable
      anyCall sampleTensorRun := by
  have hevents : Along
      (fun s event => (s.step (fun _ => sampleTensor) sampleFloats sampleTensorGraph event).isSome)
      sampleTensorNext { exec := ExecuteState.initial sampleTensorGraph, bytes := fun _ => 0 }
      sampleTensorEvents := by decide +kernel
  refine Reachable.foldl (fun s event hevent => ⟨trivial, ?_⟩) (.init rfl) hevents
  obtain ⟨s', hs'⟩ := Option.isSome_iff_exists.mp hevent
  show s.step _ _ _ event = some (sampleTensorNext s event)
  rw [sampleTensorNext, hs', Option.getD_some]

theorem raceFree_sampleTensorGraph : RaceFree sampleTensorGraph := by
  have hancestor₁ : Ancestor sampleTensorGraph 1 3 := .single (by decide +kernel)
  have hancestor₂ : Ancestor sampleTensorGraph 2 3 := .single (by decide +kernel)
  have hids : ∀ {n node}, sampleTensorGraph.getNode n = some node → n = 1 ∨ n = 2 ∨ n = 3 := by
    intro n node hn
    have hmem : n ∈ sampleTensorGraph.nodes.keys :=
      AList.lookup_isSome.mp (Option.isSome_iff_exists.mpr ⟨node, hn⟩)
    have hkeys : sampleTensorGraph.nodes.keys = [3, 2, 1] := by decide +kernel
    rw [hkeys] at hmem
    simp only [List.mem_cons, List.not_mem_nil, or_false] at hmem
    omega
  -- tensors that are filled have no operands
  have hfills : ∀ {node node' : TensorComputeNode}, node'.operands = [] → node.dst ≠ node'.dst →
      ¬ node.Spoils node' := by
    rintro node node' hnone hne ⟨t, ht, hdst | hmem⟩
    · exact hne (ht.trans hdst.symm)
    · rw [hnone] at hmem
      cases hmem
  intro n m node node' hne hnm hmn hn hm
  rcases hids hn with rfl | rfl | rfl
  · rcases hids hm with rfl | rfl | rfl
    · exact absurd rfl hne
    · cases hn
      cases hm
      exact hfills rfl (by decide)
    · exact absurd hancestor₁ hnm
  · rcases hids hm with rfl | rfl | rfl
    · cases hn
      cases hm
      exact hfills rfl (by decide)
    · exact absurd rfl hne
    · exact absurd hancestor₂ hnm
  · rcases hids hm with rfl | rfl | rfl
    · exact absurd hancestor₁ hmn
    · exact absurd hancestor₂ hmn
    · exact absurd rfl hne

/-- The sample run ends as the nodes one after the other do. -/
theorem runsAsSequential_sampleTensorRun : sampleTensorRun.exec.phase = .returned ∧
    readFloat sampleTensorRun.bytes 10 1 = 0x40E00000 ∧
    RunsAsSequential (fun _ => sampleTensor) sampleFloats sampleTensorGraph (fun _ => 0)
      sampleTensorRun := by
  have hvalid : sampleTensorGraph.validate .stored = some (true, "") := by decide +kernel
  exact ⟨by decide +kernel, by decide +kernel,
    runsAsSequential_of_returned built_sampleTensorGraph hvalid raceFree_sampleTensorGraph
      reachable_sampleTensorRun (by decide +kernel)⟩

end HeteroAccel.Execution
