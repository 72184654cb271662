import HeteroAccel.Execution.SchedulerRuns
import HeteroAccel.Lib.FairRuns
import Mathlib.Data.List.GetD

/-!
# `execute` returns

The loop of `execute` has no bound of its own: it goes round while a node is ready or running. It
ends because the graph has no cycles, in every run that lets its thread go on and in which tasks
that have been started finish.

## Main definitions

* `ExecuteState.work`: what is left to do, lowered by each change to the nodes;
* `Idle.ahead`: when no task is running, the thread lowers it or returns;
* `execute_returns`: `execute` returns in every fair run.
-/

namespace HeteroAccel.Execution

open ExecuteState TransitionSystem

variable {Op : Type*} {g : ExecutionGraph Op} {outcome : ℕ → GraphNodeResult}
  {s s' : ExecuteState} {id n w : ℕ}

/-! ## What is left to do -/

/-- What is left to do for a node: to start it, to wait for its result, and to take the result. -/
def GraphNodeState.work (task : Option (Option GraphNodeResult)) : GraphNodeState → ℕ
  | .created => 3
  | .ready => 3
  | .running => if task = some none then 2 else 1
  -- nothing happens to a node in one of the other states
  | _ => 0

namespace ExecuteState

/-- How many events the node of an id has before it at most. -/
def nodeWork (s : ExecuteState) (n : ℕ) : ℕ := (s.state n).work (s.activeTasks.lookup n)

/-- What is left to do for the nodes of a graph, and for a request to cancel. -/
def work (g : ExecutionGraph Op) (s : ExecuteState) : ℕ :=
  (g.getAllNodeIds.map s.nodeWork).sum + if s.cancelRequested then 0 else 1

/-- Where no node has more work, there is not more in all. -/
theorem work_le_work (hcancel : s'.cancelRequested = s.cancelRequested)
    (h : ∀ n, s'.nodeWork n ≤ s.nodeWork n) : s'.work g ≤ s.work g := by
  unfold work
  rw [hcancel]
  exact Nat.add_le_add_right (List.sum_le_sum fun n _ => h n) _

/-- Where one node has less work and none more, there is less in all. -/
theorem work_lt_work (hcancel : s'.cancelRequested = s.cancelRequested)
    (h : ∀ n, s'.nodeWork n ≤ s.nodeWork n) (hid : id ∈ g.nodes)
    (hlt : s'.nodeWork id < s.nodeWork id) : s'.work g < s.work g := by
  unfold work
  rw [hcancel]
  refine Nat.add_lt_add_right (List.sum_lt_sum _ _ (fun n _ => h n) ?_) _
  exact ⟨id, mem_sortedKeys.mpr hid, hlt⟩

/-- A change to one node that leaves less to do for it. -/
theorem work_lt_of_nodeWork {k : ℕ} (hcancel : s'.cancelRequested = s.cancelRequested)
    (hid : id ∈ g.nodes) (h : ∀ n, s'.nodeWork n = if n = id then k else s.nodeWork n)
    (hk : k < s.nodeWork id) : s'.work g < s.work g := by
  refine work_lt_work hcancel (fun n => ?_) hid ?_
  · rw [h]
    split
    next heq => exact heq ▸ hk.le
    next => exact le_rfl
  · rw [h, if_pos rfl]
    exact hk

/-- A node that waits has three events before it. -/
theorem nodeWork_of_waiting (h : s.Waiting n) : s.nodeWork n = 3 := by
  unfold nodeWork
  rcases h with hcreated | hready
  · rw [hcreated]
    rfl
  · rw [hready]
    rfl

/-- A running node has an event before it. -/
theorem nodeWork_pos_of_running (h : s.state n = .running) : 0 < s.nodeWork n := by
  rw [nodeWork, h, GraphNodeState.work]
  split <;> decide

/-! ## What the steps lower -/

theorem work_start_lt (hid : id ∈ g.nodes) (hready : s.state id = .ready) :
    (s.start g id).work g < s.work g := by
  refine work_lt_of_nodeWork (k := 2) rfl hid (fun n => ?_) ?_
  · have hlookup : (s.start g id).activeTasks.lookup n =
        if n = id then some none else s.activeTasks.lookup n := KeyedMap.lookup_insert_eq_ite
    rw [nodeWork, state_start, hlookup]
    split <;> rfl
  · rw [nodeWork_of_waiting (.inr hready)]
    decide

theorem work_finish_lt (res : GraphNodeResult) (hid : id ∈ g.nodes)
    (hrunning : s.state id = .running) (htask : s.activeTasks.lookup id = some none) :
    ({ s with activeTasks := s.activeTasks.insert id (some res) } : ExecuteState).work g <
      s.work g := by
  refine work_lt_of_nodeWork (k := 1) rfl hid (fun n => ?_) ?_
  · have hstate : ({ s with activeTasks := s.activeTasks.insert id (some res) } :
        ExecuteState).state n = s.state n := rfl
    rw [nodeWork, hstate, KeyedMap.lookup_insert_eq_ite]
    split
    next heq =>
      rw [heq, hrunning]
      rfl
    next => rfl
  · rw [nodeWork, hrunning, htask]
    decide

/-- A completion is progress: the successors that become ready have no more work than before. -/
theorem work_complete_lt (hg : g.WellFormed) (hself : id ∉ g.getSuccessors id) (hid : id ∈ g.nodes)
    (hrunning : s.state id = .running) : (s.complete g id).work g < s.work g := by
  refine work_lt_of_nodeWork (k := 0) rfl hid (fun n => ?_) (nodeWork_pos_of_running hrunning)
  have hlookup : (s.complete g id).activeTasks.lookup n =
      if n = id then none else s.activeTasks.lookup n := KeyedMap.lookup_erase_eq_ite
  by_cases hne : n = id
  · rw [if_pos hne, hne, nodeWork, state_complete_self hg hself]
    rfl
  · rw [if_neg hne, nodeWork, nodeWork, hlookup, if_neg hne, state_complete_of_ne hg hself hne]
    split
    -- a successor that has become ready is still to be started
    next hnew =>
      rw [hnew.2.2]
      rfl
    next => rfl

theorem work_fail_lt (error : String) (hid : id ∈ g.nodes) (hrunning : s.state id = .running) :
    (s.fail g id error).work g < s.work g := by
  refine work_lt_of_nodeWork (k := 0) rfl hid (fun n => ?_) (nodeWork_pos_of_running hrunning)
  have hlookup : (s.fail g id error).activeTasks.lookup n =
      if n = id then none else s.activeTasks.lookup n := KeyedMap.lookup_erase_eq_ite
  rw [nodeWork, state_fail, hlookup]
  split <;> rfl

/-- To block a node is progress. -/
theorem work_block_lt (reason : String) (hid : id ∈ g.nodes) (hwaiting : s.Waiting id) :
    (s.block id reason).work g < s.work g := by
  refine work_lt_of_nodeWork (k := 0) rfl hid (fun n => ?_) ?_
  · rw [nodeWork, state_block]
    split <;> rfl
  · rw [nodeWork_of_waiting hwaiting]
    decide

/-- A cancellation leaves waiting nodes no work. -/
theorem nodeWork_cancelRemaining : (s.cancelRemaining g).nodeWork n =
    if n ∈ g.nodes ∧ s.Waiting n then 0 else s.nodeWork n := by
  rw [nodeWork, state_cancelRemaining]
  split <;> rfl

theorem nodeWork_cancelRemaining_le : (s.cancelRemaining g).nodeWork n ≤ s.nodeWork n := by
  rw [nodeWork_cancelRemaining]
  split
  next => exact Nat.zero_le _
  next => exact le_rfl

theorem work_cancelRemaining_le : (s.cancelRemaining g).work g ≤ s.work g :=
  work_le_work rfl fun _ => nodeWork_cancelRemaining_le

/-- A cancellation is progress if a node was waiting. -/
theorem work_cancelRemaining_lt (hid : id ∈ g.nodes) (hwaiting : s.Waiting id) :
    (s.cancelRemaining g).work g < s.work g := by
  refine work_lt_work rfl (fun _ => nodeWork_cancelRemaining_le) hid ?_
  rw [nodeWork_cancelRemaining, if_pos ⟨hid, hwaiting⟩, nodeWork_of_waiting hwaiting]
  decide

end ExecuteState

/-- A node whose task is running or has finished belongs to the graph. -/
theorem RunFits.mem_nodes_of_lookup (h : RunFits g outcome s) {task : Option GraphNodeResult}
    (htask : s.activeTasks.lookup id = some task) : id ∈ g.nodes :=
  h.states.mem_nodes (by rw [h.tasks.running_of_lookup htask]; decide)

/-- The nodes in a queue are nodes of the graph. -/
theorem RunFits.mem_nodes_of_queue (h : RunFits g outcome s) (hg : g.WellFormed)
    (hid : id ∈ s.phase.queue) : id ∈ g.nodes := by
  obtain ⟨p, hp, -⟩ := h.states.blocked id (.inr hid)
  exact (hg.closed p id ((hg.inverse p id).mp hp)).2

/-- A step that does not lower what is left to do leaves the tasks as they are. -/
theorem RunFits.work_step (h : RunFits g outcome s) (hg : g.WellFormed)
    (hself : ∀ n, n ∉ g.getSuccessors n) {event : Event} (hstep : s.step g event = some s') :
    s'.work g < s.work g ∨ s'.work g ≤ s.work g ∧ s'.activeTasks = s.activeTasks := by
  cases event with
  | requestCancel =>
    cases hstep
    refine .inr ⟨Nat.add_le_add_left ?_ _, rfl⟩
    exact Nat.zero_le _
  | finish id res =>
    unfold ExecuteState.step at hstep
    dsimp only at hstep
    split at hstep
    next htask =>
      cases hstep
      exact .inl (work_finish_lt res (h.mem_nodes_of_lookup htask)
        (h.tasks.running_of_lookup htask) htask)
    next => cases hstep
  | tick =>
    cases tick_cases hstep with
    | moved => exact .inr ⟨le_rfl, rfl⟩
    | cancelled => exact .inr ⟨work_cancelRemaining_le, rfl⟩
    | started hready => exact .inl (work_start_lt (h.states.mem_nodes (by simp [hready])) hready)
    | completed htask =>
      exact .inl (work_complete_lt hg (hself _) (h.mem_nodes_of_lookup htask)
        (h.tasks.running_of_lookup htask))
    | failed htask =>
      exact .inl (work_fail_lt _ (h.mem_nodes_of_lookup htask) (h.tasks.running_of_lookup htask))
    | blocked hwaiting hqueue =>
      have hid := h.mem_nodes_of_queue hg (by rw [hqueue]; exact List.mem_cons_self)
      exact .inl (work_block_lt _ hid hwaiting)
    | skipped => exact .inr ⟨le_rfl, rfl⟩

/-! ## The thread on its own -/

/-- No task is running. -/
def Quiet (s : ExecuteState) : Prop := ∀ n, s.activeTasks.lookup n ≠ some none

/-- A state in a run, in which no task is running and at most `w` is left to do. -/
structure Idle (g : ExecutionGraph Op) (outcome : ℕ → GraphNodeResult) (w : ℕ) (s : ExecuteState) :
    Prop where
  fits : RunFits g outcome s
  quiet : Quiet s
  le : s.work g ≤ w

/-- `execute` has returned, or less than `w` is left to do. -/
def Progress (g : ExecutionGraph Op) (w : ℕ) (s : ExecuteState) : Prop :=
  s.phase = .returned ∨ s.work g < w

namespace Idle

variable (h : Idle g outcome w s)

include h

/-- The thread goes on without a change to the nodes. -/
theorem move (hg : g.WellFormed) (hself : ∀ n, n ∉ g.getSuccessors n) {phase : Phase}
    (htick : s.tick g = some { s with phase }) : Idle g outcome w { s with phase } :=
  ⟨h.fits.tick hg hself htick, h.quiet, h.le⟩

/-- A step that lowers what is left to do. -/
theorem lower (s' : ExecuteState) (htick : s.tick g = some s') (hlt : s'.work g < s.work g) :
    Ahead (tick g) (Progress g w) s :=
  .step htick (.here (.inr (hlt.trans_le h.le)))

/-- A task is there to be collected. -/
theorem collects (hg : g.WellFormed) (hself : ∀ n, n ∉ g.getSuccessors n) {rest : List ℕ}
    {finished : Bool} (hphase : s.phase = .poll (id :: rest) finished) (hid : id ∈ s.activeTasks) :
    Ahead (tick g) (Progress g w) s := by
  obtain ⟨task, htask⟩ := Option.isSome_iff_exists.mp (AList.lookup_isSome.mpr hid)
  have hmem := h.fits.mem_nodes_of_lookup htask
  have hrunning := h.fits.tasks.running_of_lookup htask
  cases task with
  | none => exact absurd htask (h.quiet id)
  | some res =>
    by_cases hsuccess : res.success = true
    · refine h.lower { s.complete g id with phase := .poll rest true } ?_
        (work_complete_lt hg (hself id) hmem hrunning)
      unfold tick
      simp only [hphase, htask, if_pos hsuccess]
    · refine h.lower { s.fail g id res.errorMessage with
        phase := .propagate (g.getSuccessors id) res.errorMessage rest } ?_
        (work_fail_lt _ hmem hrunning)
      unfold tick
      simp only [hphase, htask, if_neg hsuccess]

end Idle

section thread

variable (hg : g.WellFormed) (hself : ∀ n, n ∉ g.getSuccessors n)

include hg hself

/-- A round of polls that comes to a task. -/
theorem Idle.ahead_poll_of_mem {rest : List ℕ} (h : Idle g outcome w s) {finished : Bool}
    (hphase : s.phase = .poll rest finished) (hid : id ∈ rest) (htask : id ∈ s.activeTasks) :
    Ahead (tick g) (Progress g w) s := by
  induction rest generalizing s with
  | nil => cases hid
  | cons first rest ih =>
    by_cases hfirst : first ∈ s.activeTasks
    · exact h.collects hg hself hphase hfirst
    · have hnone := AList.lookup_eq_none.mpr hfirst
      have htick : s.tick g = some { s with phase := .poll rest finished } := by
        unfold tick
        simp only [hphase, hnone]
      have hrest : id ∈ rest := by
        refine (List.mem_cons.mp hid).resolve_left ?_
        rintro rfl
        exact hfirst htask
      exact .step htick (ih (h.move hg hself htick) rfl hrest htask)

/-- A new round, while there are tasks. -/
theorem Idle.ahead_pollRound (h : Idle g outcome w s) (hkeys : s.activeTasks.keys ≠ [])
    (htick : s.tick g = some s.pollRound) : Ahead (tick g) (Progress g w) s := by
  obtain ⟨id, hid⟩ := List.exists_mem_of_ne_nil _ hkeys
  have hmoved : Idle g outcome w s.pollRound := h.move hg hself htick
  have hphase : s.pollRound.phase = .poll (sortedKeys s.activeTasks) false := rfl
  exact .step htick (hmoved.ahead_poll_of_mem hg hself hphase (mem_sortedKeys.mpr hid) hid)

/-- Dispatching, when all nodes that could be started are still to be looked at. -/
theorem Idle.ahead_dispatch_all {rest : List ℕ} (h : Idle g outcome w s)
    (hphase : s.phase = .dispatch rest)
    (hcancel : s.cancelRequested = true → ∀ n ∈ g.nodes, ¬ s.Waiting n)
    (hrest : ∀ n, s.state n = .ready → n ∈ rest ∨
      ¬ checkResourceAvailable (g.resourceOf n) s.activeResources) :
    Ahead (tick g) (Progress g w) s := by
  induction rest generalizing s with
  | cons id rest ih =>
    by_cases hstart : s.state id = .ready ∧ !s.cancelRequested ∧
        checkResourceAvailable (g.resourceOf id) s.activeResources
    · refine h.lower { s.start g id with phase := .dispatch rest } ?_
        (work_start_lt (h.fits.states.mem_nodes (by simp [hstart.1])) hstart.1)
      unfold tick
      simp only [hphase, if_pos hstart]
    · have htick : s.tick g = some { s with phase := .dispatch rest } := by
        unfold tick
        simp only [hphase, if_neg hstart]
      refine .step htick (ih (h.move hg hself htick) rfl hcancel fun n hn => ?_)
      rcases hrest n hn with hmem | hbusy
      · rcases List.mem_cons.mp hmem with rfl | hmem
        · refine .inr fun havailable => hstart ⟨hn, ?_, havailable⟩
          have hmem : n ∈ g.nodes := h.fits.states.mem_nodes (hn.trans_ne (by decide))
          have hnot : s.cancelRequested ≠ true := fun hc => hcancel hc n hmem (.inr hn)
          simpa using hnot
        · exact .inl hmem
      · exact .inr hbusy
  | nil =>
    by_cases hkeys : s.activeTasks.keys = []
    · have hrunning : ∀ n, s.state n ≠ .running := by
        intro n hn
        have hmem : n ∈ s.activeTasks.keys := (h.fits.tasks.tasks n).mpr hn
        rw [hkeys] at hmem
        cases hmem
      -- all resources are free, so that no node is ready
      have hready : ∀ n, s.state n ≠ .ready := by
        intro n hn
        refine (hrest n hn).elim (fun hmem => by cases hmem) fun hbusy => hbusy ?_
        unfold checkResourceAvailable
        split
        next => rfl
        next hnone =>
          split
          next => rfl
          next hcpu =>
            rw [h.fits.tasks.free _ ⟨hnone, hcpu⟩ fun n hn => absurd hn (hrunning n)]
            rfl
      have htick : s.tick g = some { s with phase := .check false } := by
        unfold tick
        simp only [hphase, if_pos hkeys]
      have hreturn : ({ s with phase := .check false } : ExecuteState).tick g =
          some { s with phase := .returned } := by
        unfold tick
        dsimp only
        rw [if_neg]
        rintro (hfalse | ⟨n, -, hn | hn⟩)
        · cases hfalse
        · exact hready n hn
        · exact hrunning n hn
      exact .step htick (.step hreturn (.here (.inl rfl)))
    · refine h.ahead_pollRound hg hself hkeys ?_
      unfold tick
      simp only [hphase, if_neg hkeys]

/-- The top of the loop. -/
theorem Idle.ahead_top (h : Idle g outcome w s) (hphase : s.phase = .top) :
    Ahead (tick g) (Progress g w) s := by
  have hall : ∀ {s : ExecuteState} n, StatesFit g s s.phase.queue → s.state n = .ready →
      n ∈ g.getAllNodeIds :=
    fun n hs hn => mem_sortedKeys.mpr (hs.mem_nodes (hn.trans_ne (by decide)))
  by_cases hcancel : s.cancelRequested = true
  · have htick : s.tick g =
        some { s.cancelRemaining g with phase := .dispatch g.getAllNodeIds } := by
      unfold tick
      simp only [hphase, if_pos hcancel]
    by_cases hwaiting : ∃ n ∈ g.nodes, s.Waiting n
    · obtain ⟨n, hn, hw⟩ := hwaiting
      exact h.lower _ htick (work_cancelRemaining_lt hn hw)
    · have hidle : Idle g outcome w
          { s.cancelRemaining g with phase := .dispatch g.getAllNodeIds } :=
        ⟨h.fits.tick hg hself htick, h.quiet, work_cancelRemaining_le.trans h.le⟩
      refine .step htick (hidle.ahead_dispatch_all hg hself rfl (fun _ n hn hw => ?_) fun n hn =>
        .inl (hall n hidle.fits.states hn))
      have hstate : (s.cancelRemaining g).state n = s.state n := by
        rw [state_cancelRemaining, if_neg fun hw => hwaiting ⟨n, hw⟩]
      have hw : (s.cancelRemaining g).Waiting n := hw
      rw [Waiting, hstate] at hw
      exact hwaiting ⟨n, hn, hw⟩
  · have htick : s.tick g = some { s with phase := .dispatch g.getAllNodeIds } := by
      unfold tick
      simp only [hphase, if_neg hcancel]
    have hidle := h.move hg hself htick
    exact .step htick (hidle.ahead_dispatch_all hg hself rfl (fun hc => absurd hc hcancel)
      fun n hn => .inl (hall n hidle.fits.states hn))

/-- The end of the loop. -/
theorem Idle.ahead_check {active : Bool} (h : Idle g outcome w s)
    (hphase : s.phase = .check active) : Ahead (tick g) (Progress g w) s := by
  by_cases hmore : active ∨ ∃ id ∈ g.getAllNodeIds, s.state id = .ready ∨ s.state id = .running
  · have htick : s.tick g = some { s with phase := .top } := by
      unfold tick
      simp only [hphase, if_pos hmore]
    exact .step htick ((h.move hg hself htick).ahead_top hg hself rfl)
  · have htick : s.tick g = some { s with phase := .returned } := by
      unfold tick
      simp only [hphase, if_neg hmore]
    exact .step htick (.here (.inl rfl))

/-- The rounds of the dispatch come to progress, by induction on the queue. -/
theorem Idle.ahead_dispatch {rest : List ℕ} (h : Idle g outcome w s)
    (hphase : s.phase = .dispatch rest) : Ahead (tick g) (Progress g w) s := by
  induction rest generalizing s with
  | cons id rest ih =>
    by_cases hstart : s.state id = .ready ∧ !s.cancelRequested ∧
        checkResourceAvailable (g.resourceOf id) s.activeResources
    · refine h.lower { s.start g id with phase := .dispatch rest } ?_
        (work_start_lt (h.fits.states.mem_nodes (by simp [hstart.1])) hstart.1)
      unfold tick
      simp only [hphase, if_pos hstart]
    · have htick : s.tick g = some { s with phase := .dispatch rest } := by
        unfold tick
        simp only [hphase, if_neg hstart]
      exact .step htick (ih (h.move hg hself htick) rfl)
  | nil =>
    by_cases hkeys : s.activeTasks.keys = []
    · have htick : s.tick g = some { s with phase := .check false } := by
        unfold tick
        simp only [hphase, if_pos hkeys]
      exact .step htick ((h.move hg hself htick).ahead_check hg hself rfl)
    · refine h.ahead_pollRound hg hself hkeys ?_
      unfold tick
      simp only [hphase, if_neg hkeys]

/-- The rounds of the poll come to progress, by induction on the queue. -/
theorem Idle.ahead_poll {rest : List ℕ} {finished : Bool} (h : Idle g outcome w s)
    (hphase : s.phase = .poll rest finished) : Ahead (tick g) (Progress g w) s := by
  by_cases hmem : ∃ id ∈ rest, id ∈ s.activeTasks
  · obtain ⟨id, hid, htask⟩ := hmem
    exact h.ahead_poll_of_mem hg hself hphase hid htask
  · push Not at hmem
    induction rest generalizing s with
    | cons id rest ih =>
      have hnone := AList.lookup_eq_none.mpr (hmem id List.mem_cons_self)
      have htick : s.tick g = some { s with phase := .poll rest finished } := by
        unfold tick
        simp only [hphase, hnone]
      exact .step htick (ih (h.move hg hself htick) rfl
        fun n hn => hmem n (List.mem_cons_of_mem _ hn))
    | nil =>
      by_cases hend : finished = true ∨ s.activeTasks.keys = []
      · have htick : s.tick g = some { s with phase := .check true } := by
          unfold tick
          simp only [hphase, if_pos hend]
        exact .step htick ((h.move hg hself htick).ahead_check hg hself rfl)
      · refine h.ahead_pollRound hg hself (fun hkeys => hend (.inr hkeys)) ?_
        unfold tick
        simp only [hphase, if_neg hend]

/-- The rounds of the propagation come to progress, by induction on the queue. -/
theorem Idle.ahead_propagate {queue rest : List ℕ} {reason : String} (h : Idle g outcome w s)
    (hphase : s.phase = .propagate queue reason rest) : Ahead (tick g) (Progress g w) s := by
  induction queue generalizing s with
  | cons curr queue ih =>
    by_cases hwaiting : s.Waiting curr
    · have hmem : curr ∈ g.nodes :=
        h.fits.mem_nodes_of_queue hg (by rw [hphase]; exact List.mem_cons_self)
      refine h.lower { s.block curr reason with
        phase := .propagate (queue ++ g.getSuccessors curr) reason rest } ?_
        (work_block_lt reason hmem hwaiting)
      unfold tick
      simp only [hphase, if_pos hwaiting]
    · have htick : s.tick g = some { s with phase := .propagate queue reason rest } := by
        unfold tick
        simp only [hphase, if_neg hwaiting]
      exact .step htick (ih (h.move hg hself htick) rfl)
  | nil =>
    have htick : s.tick g = some { s with phase := .poll rest true } := by
      unfold tick
      simp only [hphase]
    exact .step htick ((h.move hg hself htick).ahead_poll hg hself rfl)

/-- When no task is running, the thread goes on until it returns or has done something. -/
theorem Idle.ahead (h : Idle g outcome w s) : Ahead (tick g) (Progress g w) s := by
  cases hphase : s.phase with
  | top => exact h.ahead_top hg hself hphase
  | dispatch rest => exact h.ahead_dispatch hg hself hphase
  | poll rest finished => exact h.ahead_poll hg hself hphase
  | propagate queue reason rest => exact h.ahead_propagate hg hself hphase
  | check active => exact h.ahead_check hg hself hphase
  | returned => exact .here (.inl hphase)

/-! ## Runs -/

variable {run : (system g).InfiniteRun (Answers outcome)}

/-- What is left to do never grows, and stays as it is only if the tasks do. -/
theorem work_state {i j : ℕ} (hle : i ≤ j) :
    (run.state j).work g < (run.state i).work g ∨
      (run.state j).work g ≤ (run.state i).work g ∧
        (run.state j).activeTasks = (run.state i).activeTasks := by
  refine run.of_le (P := fun s => s.work g < (run.state i).work g ∨
    s.work g ≤ (run.state i).work g ∧ s.activeTasks = (run.state i).activeTasks) ?_ hle
    (.inr ⟨le_rfl, rfl⟩)
  intro k hk
  have hfits := runFits_of_reachable hg hself (run.reachable k)
  rcases hfits.work_step hg hself (run.step k) with hlt | ⟨hle, htasks⟩
  · exact .inl (hlt.trans_le (hk.elim le_of_lt And.left))
  · rcases hk with hlt | ⟨hle', htasks'⟩
    · exact .inl (hle.trans_lt hlt)
    · exact .inr ⟨hle.trans hle', htasks.trans htasks'⟩

/-- As long as what is left to do has not fallen, the tasks are the same. -/
theorem activeTasks_of_not_eventually {i j : ℕ} (hle : i ≤ j)
    (hnever : ¬ run.Eventually (Progress g ((run.state i).work g)) i) :
    (run.state j).work g ≤ (run.state i).work g ∧
      (run.state j).activeTasks = (run.state i).activeTasks :=
  (work_state hg hself hle).resolve_left fun hlt => hnever ⟨j, hle, .inr hlt⟩

/-- A running task finishes. -/
theorem eventually_of_running {i : ℕ} (hn : (run.state i).activeTasks.lookup n = some none)
    (hfair : run.WeaklyFair fun event => ∃ res, event = .finish n res) :
    run.Eventually (Progress g ((run.state i).work g)) i := by
  have hfinish : ∀ k res, (run.state k).activeTasks.lookup n = some none →
      (run.state k).step g (.finish n res) =
        some { run.state k with activeTasks := (run.state k).activeTasks.insert n (some res) } :=
    fun _ _ htask => if_pos htask
  refine run.eventually_of_stays (P := fun s => s.activeTasks.lookup n = some none ∧
    s.work g ≤ (run.state i).work g) hfair ⟨hn, le_rfl⟩ ?_ ?_ ?_
  · rintro k - ⟨htask, hle⟩
    have hfits := runFits_of_reachable hg hself (run.reachable k)
    rcases hfits.work_step hg hself (run.step k) with hlt | ⟨hle', htasks⟩
    · exact .inr (.inr (hlt.trans_le hle))
    · exact .inl ⟨htasks ▸ htask, hle'.trans hle⟩
  · -- its result leaves less to do
    rintro k - ⟨htask, hle⟩ ⟨res, hcall⟩
    have hstep : (run.state k).step g (.finish n res) = some (run.state (k + 1)) :=
      hcall ▸ run.step k
    have hfits := runFits_of_reachable hg hself (run.reachable k)
    have hlt := work_finish_lt res (hfits.mem_nodes_of_lookup htask)
      (hfits.tasks.running_of_lookup htask) htask
    rw [Option.some.inj ((hfinish k res htask).symm.trans hstep)] at hlt
    exact .inr (hlt.trans_le hle)
  · rintro k - ⟨htask, -⟩
    exact ⟨_, _, ⟨outcome n, rfl⟩, hfinish k (outcome n) htask⟩

/-- When no task is running, the thread returns or lowers what is left to do. -/
theorem eventually_of_quiet {i : ℕ} (hquiet : Quiet (run.state i))
    (hfair : run.WeaklyFair fun event => event = .tick) :
    run.Eventually (Progress g ((run.state i).work g)) i := by
  have hfits : ∀ j, RunFits g outcome (run.state j) :=
    fun j => runFits_of_reachable hg hself (run.reachable j)
  refine run.eventually_of_ahead ?_ ?_ hfair ?_ (Idle.ahead hg hself ⟨hfits i, hquiet, le_rfl⟩)
  · rintro s _ s' rfl hstep
    exact hstep
  · intro s s' hnext
    exact ⟨.tick, rfl, hnext⟩
  · intro j hj hother hnever
    obtain ⟨hle, htasks⟩ := activeTasks_of_not_eventually hg hself hj hnever
    have hstep := run.step j
    cases hcall : run.call j with
    | tick => exact absurd hcall hother
    | finish n res =>
      have hstep : (run.state j).step g (.finish n res) = some (run.state (j + 1)) :=
        hcall ▸ hstep
      unfold ExecuteState.step at hstep
      dsimp only at hstep
      rw [if_neg (htasks ▸ hquiet n)] at hstep
      cases hstep
    | requestCancel =>
      have hstep : (run.state j).step g .requestCancel = some (run.state (j + 1)) := hcall ▸ hstep
      have hstate : run.state (j + 1) = { run.state j with cancelRequested := true } :=
        (Option.some.inj hstep).symm
      have hrequested : (run.state j).cancelRequested = true := by
        by_contra hnot
        refine hnever ⟨j + 1, hj.trans j.le_succ, .inr (lt_of_lt_of_le ?_ hle)⟩
        rw [hstate, work, work, if_neg hnot]
        exact Nat.lt_succ_self _
      rw [hstate, ← hrequested]

end thread

/-- **`execute` returns.** On a graph that is built with `addNode` and `addDependency` and passes
`validate`, every run ends in which the thread of `execute` goes on and tasks that run finish; the
states of the nodes are final then. -/
theorem execute_returns (hbuilt : g.Built) {order : Traversal ℕ} {text : String}
    (hvalid : g.validate order = some (true, text)) (run : (system g).InfiniteRun (Answers outcome))
    (hthread : run.WeaklyFair fun event => event = .tick)
    (htasks : ∀ n, run.WeaklyFair fun event => ∃ res, event = .finish n res) :
    ∃ i, (run.state i).phase = .returned ∧ FinalStates g outcome (run.state i) := by
  have hg := hbuilt.wellFormed
  have hwf := ExecutionGraph.wellFounded_of_validate hg hvalid
  have hself : ∀ n, n ∉ g.getSuccessors n := fun n hn => hwf.irrefl.irrefl n hn
  have hprogress : ∀ i, run.Eventually (Progress g ((run.state i).work g)) i := by
    intro i
    by_cases hquiet : Quiet (run.state i)
    · exact eventually_of_quiet hg hself hquiet hthread
    · unfold Quiet at hquiet
      push Not at hquiet
      obtain ⟨n, hn⟩ := hquiet
      exact eventually_of_running hg hself hn (htasks n)
  obtain ⟨i, -, hreturned⟩ := run.eventually_of_rank (work g) (i := 0) fun i _ => hprogress i
  exact ⟨i, hreturned, (runFits_of_reachable hg hself (run.reachable i)).finalStates hg hwf
    hreturned⟩

/-! ### A sample run -/

/-- The events of the sample run, and requests to cancel ever after. -/
def fairCall (i : ℕ) : Event := sampleEvents.getD i .requestCancel

/-- The states of a run of the sample graph: its events, and then nothing more. -/
def fairState (i : ℕ) : ExecuteState := runEvents sampleGraph ((List.range i).map fairCall)

/-- The run goes on with the next event. -/
theorem fairState_succ (i : ℕ) :
    fairState (i + 1) = (fairState i).next sampleGraph (fairCall i) := by
  unfold fairState runEvents
  rw [List.range_succ, List.map_append, List.foldl_append]
  rfl

theorem fairCall_of_le {i : ℕ} (hi : 28 ≤ i) : fairCall i = .requestCancel :=
  List.getD_eq_default _ _ hi

/-- `execute` has returned, and no task is left. -/
theorem fairState_of_le {i : ℕ} (hi : 28 ≤ i) :
    (fairState i).phase = .returned ∧ (fairState i).activeTasks.keys = [] := by
  induction i, hi using Nat.le_induction with
  | base => exact ⟨by decide +kernel, by decide +kernel⟩
  | succ i hi ih =>
    rw [fairState_succ, fairCall_of_le hi]
    exact ih

/-- The run, in which every task that is started gets its answer. -/
def fairRun : (system sampleGraph).InfiniteRun (Answers sampleOutcome) where
  state := fairState
  call := fairCall
  init := rfl
  guarded i := by
    have hevents : ∀ event ∈ sampleEvents, Answers sampleOutcome (fairState 0) event := by
      decide +kernel
    by_cases hi : i < sampleEvents.length
    · have hmem : fairCall i ∈ sampleEvents := by
        rw [fairCall, List.getD_eq_getElem _ _ hi]
        exact List.getElem_mem hi
      exact hevents _ hmem
    · rw [fairCall_of_le (Nat.le_of_not_lt hi)]
      trivial
  step i := by
    have hevents : ∀ i < 28, ((fairState i).step sampleGraph (fairCall i)).isSome := by
      decide +kernel
    have hsome : ((fairState i).step sampleGraph (fairCall i)).isSome := by
      by_cases hi : i < 28
      · exact hevents i hi
      · rw [fairCall_of_le (Nat.le_of_not_lt hi)]
        rfl
    obtain ⟨s', hs'⟩ := Option.isSome_iff_exists.mp hsome
    show (fairState i).step sampleGraph (fairCall i) = some (fairState (i + 1))
    rw [fairState_succ, ExecuteState.next, hs', Option.getD_some]

theorem execute_returns_fairRun : ∃ i, (fairRun.state i).phase = .returned ∧
    FinalStates sampleGraph sampleOutcome (fairRun.state i) := by
  have hvalid : sampleGraph.validate .stored = some (true, "") := by decide +kernel
  refine execute_returns built_sampleGraph hvalid fairRun (fun i henabled => ?_)
    fun n i henabled => ?_
  · by_cases hi : i ≤ 27
    · exact ⟨27, hi, rfl⟩
    · obtain ⟨_, s', rfl, hstep⟩ := henabled i le_rfl
      have htick : (fairState i).tick sampleGraph = some s' := hstep
      rw [tick, (fairState_of_le (Nat.lt_of_not_le hi)).1] at htick
      cases htick
  · obtain ⟨_, s', ⟨res, rfl⟩, hstep⟩ := henabled (max i 28) (le_max_left _ _)
    have hstep : (fairState (max i 28)).step sampleGraph (.finish n res) = some s' := hstep
    have htask : n ∉ (fairState (max i 28)).activeTasks.keys := by
      rw [(fairState_of_le (le_max_right i 28)).2]
      exact List.not_mem_nil
    rw [ExecuteState.step, AList.lookup_eq_none.mpr htask] at hstep
    cases hstep

end HeteroAccel.Execution
