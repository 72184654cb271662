import HeteroAccel.Execution.ExecutionGraphBuilder
import HeteroAccel.Execution.SchedulerRuns
import HeteroAccel.Model.PlanResidency

/-!
# Graphs that load a model

A graph of the builder, executed by the scheduler over one residency manager. Each node runs on a
thread of its own: a residency node makes its request, and reads `lastError()` when it was refused;
it then returns. The requests are serialized by the manager.

The barrier makes the compute node wait for every residency node, but a region that one of them has
made resident may be evicted for a later one. Where no request picks such a region, the compute node
finds all of them.

## Main definitions

* `GraphRun`, `graphSystem`: the scheduler, the manager and the nodes at work;
* `SparesGranted`: a request takes the place of no region that a node was granted;
* `ComputeFinds`: what the compute node finds when it starts;
* `computeFinds_of_reachable`.
-/

namespace HeteroAccel.Execution

open ModelResidencyManager TransitionSystem Planner

variable {ρ σ α : Type}

/-- How far the `execute` of a residency node is. -/
inductive NodeWork where
  | idle
  /-- The request was refused, and the error text is not yet read. -/
  | refused
  | done (res : GraphNodeResult)
  deriving DecidableEq

/-- The scheduler, the manager that the nodes share, and the nodes at work. -/
structure GraphRun (σ : Type) where
  exec : ExecuteState
  mgr : ModelResidencyManager σ
  work : ℕ → NodeWork := fun _ => .idle

/-- What happens while a graph is executed. -/
inductive GraphEvent (ρ α : Type) where
  | requestCancel
  | tick
  /-- A residency node calls `ensureResident`. -/
  | request (id : ℕ) (call : ResidencyCall ρ α)
  /-- A residency node that was refused calls `lastError`. -/
  | readError (id : ℕ)
  /-- The `execute` of a node returns. -/
  | finish (id : ℕ) (res : GraphNodeResult)

namespace GraphRun

/-- Whether a node may return a result. The engine behind a compute node may return any. -/
def mayReturn (s : GraphRun σ) (id : ℕ) (res : GraphNodeResult) : NodeOp → Prop
  | .residency _ _ => s.work id = .done res
  | .synchronization => res = { success := true }
  | .compute _ => True

instance (s : GraphRun σ) (id : ℕ) (res : GraphNodeResult) (op : NodeOp) :
    Decidable (s.mayReturn id res op) := by
  unfold mayReturn
  split <;> infer_instance

/-- A step of the scheduler. -/
def schedule (g : ExecutionGraph NodeOp) (s : GraphRun σ) (event : Event) : Option (GraphRun σ) :=
  (s.exec.step g event).map fun exec => { s with exec }

/-- The request of a residency node. -/
def request (cx : ResidencyContext ρ σ α) (s : GraphRun σ) (id : ℕ) (region : ModelRegion)
    (target : ModelResidencyTarget) (call : ResidencyCall ρ α) : GraphRun σ :=
  match s.mgr.ensureResident cx region target call with
  | (.ok _, mgr) => { s with mgr, work := Function.update s.work id (.done { success := true }) }
  | (.error _, mgr) => { s with mgr, work := Function.update s.work id .refused }

/-- A step of the scheduler, or one part of the work of a residency node: its request, and its
return. -/
def step (cx : ResidencyContext ρ σ α) (g : ExecutionGraph NodeOp) (s : GraphRun σ) :
    GraphEvent ρ α → Option (GraphRun σ)
  | .requestCancel => s.schedule g .requestCancel
  | .tick => s.schedule g .tick
  | .request id call =>
    match g.opOf id with
    | some (.residency region target) =>
      if s.exec.activeTasks.lookup id = some none ∧ s.work id = .idle then
        some (s.request cx id region target call)
      else none
    | _ => none
  | .readError id =>
    if s.work id = .refused then
      some { s with work := Function.update s.work id (.done { errorMessage := s.mgr.lastError }) }
    else none
  | .finish id res =>
    match g.opOf id with
    | some op => if s.mayReturn id res op then s.schedule g (.finish id res) else none
    | none => none

/-- A node was granted its request. -/
def Granted (s : GraphRun σ) (id : ℕ) : Prop := ∃ res, s.work id = .done res ∧ res.success = true

end GraphRun

/-- A run of `execute` on a graph, over a manager in the state `mgr`. -/
def graphSystem (cx : ResidencyContext ρ σ α) (g : ExecutionGraph NodeOp)
    (mgr : ModelResidencyManager σ) : TransitionSystem (GraphRun σ) (GraphEvent ρ α) where
  Init s := s = { exec := ExecuteState.initial g, mgr }
  Step s event s' := s.step cx g event = some s'

/-- A request takes the place of no region whose node was granted its own. -/
def SparesGranted (cx : ResidencyContext ρ σ α) (g : ExecutionGraph NodeOp) (s : GraphRun σ) :
    GraphEvent ρ α → Prop
  | .request id call =>
    ∀ region target, g.opOf id = some (.residency region target) →
      ∀ id' region' target', g.opOf id' = some (.residency region' target') → s.Granted id' →
        ¬ Displaces cx s.mgr region target call region'.id
  | _ => True

/-- When a compute node has been started, every region is resident in the target that its residency
node asks for. -/
def ComputeFinds (g : ExecutionGraph NodeOp) (regions : List ModelRegion) (s : GraphRun σ) : Prop :=
  ∀ id prompt, g.opOf id = some (.compute prompt) → id ∈ s.exec.starts →
    ∀ region ∈ regions, ∃ node target, g.opOf node = some (.residency region target) ∧
      s.mgr.isResident region.id target = true

/-! ## The scheduler, with results that are not known beforehand -/

section Scheduler

variable {Op : Type*} {g : ExecutionGraph Op} {s s' : ExecuteState} {id n : ℕ}

/-- The invariant of the scheduler, whatever the nodes return. -/
def Fits (g : ExecutionGraph Op) (s : ExecuteState) : Prop := ∃ outcome, RunFits g outcome s

/-- The predecessors of a started node have completed. -/
theorem Fits.started (h : Fits g s) (hn : n ∈ s.starts) :
    ∀ p ∈ g.getPredecessors n, s.state p = .completed := by
  obtain ⟨outcome, h⟩ := h
  exact h.states.ready n (.inr ((h.tasks.starts n).mp hn))

/-- The predecessors of a completed node have completed. -/
theorem Fits.completed (h : Fits g s) (hn : s.state n = .completed) :
    ∀ p ∈ g.getPredecessors n, s.state p = .completed := by
  obtain ⟨outcome, h⟩ := h
  exact h.states.ready n (.inr (.inr (.inl hn)))

/-- A node with a task has not completed. -/
theorem Fits.not_completed (h : Fits g s) {task : Option GraphNodeResult}
    (hn : s.activeTasks.lookup n = some task) : s.state n ≠ .completed := by
  obtain ⟨outcome, h⟩ := h
  rw [h.tasks.running_of_lookup hn]
  decide

/-- What a node returns is its outcome from then on. -/
theorem Fits.step (h : Fits g s) (hg : g.WellFormed) (hself : ∀ n, n ∉ g.getSuccessors n)
    {event : Event} (hstep : s.step g event = some s') : Fits g s' := by
  obtain ⟨outcome, h⟩ := h
  cases event with
  | requestCancel =>
    have hanswers : Answers outcome s .requestCancel := trivial
    exact ⟨outcome, h.step hg hself hanswers hstep⟩
  | tick =>
    have hanswers : Answers outcome s .tick := trivial
    exact ⟨outcome, h.step hg hself hanswers hstep⟩
  | finish id res =>
    have htask : s.activeTasks.lookup id = some none := by
      unfold ExecuteState.step at hstep
      dsimp only at hstep
      split at hstep
      next htask => exact htask
      next => cases hstep
    have hrunning := h.tasks.running_of_lookup htask
    have hne : ∀ n, s.state n ≠ .running → Function.update outcome id res n = outcome n :=
      fun n hn => Function.update_of_ne (fun heq => hn (by rw [heq]; exact hrunning)) _ _
    have h' : RunFits g (Function.update outcome id res) s := by
      refine { h with outcomes := ⟨fun n res' hn => ?_, fun n hn => ?_, fun n hn => ?_⟩ }
      · rw [Function.update_of_ne]
        · exact h.outcomes.pending n res' hn
        · rintro rfl
          rw [htask] at hn
          cases hn
      · rw [hne n (by rw [hn]; decide)]
        exact h.outcomes.completed n hn
      · rw [hne n (by rw [hn]; decide)]
        exact h.outcomes.failed n hn
    have hanswers : Answers (Function.update outcome id res) s (.finish id res) := by
      show res = _
      rw [Function.update_self]
    exact ⟨_, h'.step hg hself hanswers hstep⟩

/-- The thread of `execute` adds no results, and completes nodes that returned a success. -/
theorem tick_results (hg : g.WellFormed) (hself : ∀ n, n ∉ g.getSuccessors n)
    (h : s.tick g = some s') :
    (∀ n res,
      s'.activeTasks.lookup n = some (some res) → s.activeTasks.lookup n = some (some res)) ∧
      ∀ n, s'.state n = .completed → s.state n = .completed ∨
        ∃ res, s.activeTasks.lookup n = some (some res) ∧ res.success = true := by
  cases ExecuteState.tick_cases h with
  | moved => exact ⟨fun _ _ hn => hn, fun _ hn => .inl hn⟩
  | cancelled =>
    refine ⟨fun _ _ hn => hn, fun n hn => .inl ?_⟩
    exact (ExecuteState.state_cancelRemaining_iff (by decide) (by decide) (by decide)).mp hn
  | @started id =>
    -- a node is started, without a result
    refine ⟨fun n res hn => ?_, fun n hn => .inl ?_⟩
    · have hn : (s.activeTasks.insert id none).lookup n = some (some res) := hn
      rw [KeyedMap.lookup_insert_eq_ite] at hn
      split at hn
      next => cases hn
      next => exact hn
    · rw [ExecuteState.state_with_phase, ExecuteState.state_start] at hn
      split at hn
      next => cases hn
      next => exact hn
  | @completed id res _ htask hsuccess =>
    -- a node that returned a success is completed
    refine ⟨fun n res' hn => KeyedMap.lookup_of_lookup_erase hn, fun n hn => ?_⟩
    by_cases heq : n = id
    · exact .inr ⟨res, heq ▸ htask, hsuccess⟩
    · left
      exact (ExecuteState.state_complete_iff hg (hself id) heq (by decide) (by decide)).mp hn
  | failed =>
    refine ⟨fun n res' hn => KeyedMap.lookup_of_lookup_erase hn, fun n hn => .inl ?_⟩
    rw [ExecuteState.state_with_phase, ExecuteState.state_fail] at hn
    split at hn
    next => cases hn
    next => exact hn
  | blocked =>
    refine ⟨fun _ _ hn => hn, fun n hn => .inl ?_⟩
    rw [ExecuteState.state_with_phase, ExecuteState.state_block] at hn
    split at hn
    next => cases hn
    next => exact hn
  | skipped => exact ⟨fun _ _ hn => hn, fun _ hn => .inl hn⟩

end Scheduler

/-! ## The requests of a run -/

variable {cx : ResidencyContext ρ σ α} {g : ExecutionGraph NodeOp} {s s' : GraphRun σ} {id n : ℕ}
  {region : ModelRegion} {target : ModelResidencyTarget} {call : ResidencyCall ρ α}

namespace GraphRun

/-- A request does not change the scheduler. -/
@[simp]
theorem exec_request : (s.request cx id region target call).exec = s.exec := by
  unfold request
  split <;> rfl

/-- A request changes the manager as `ensureResident` does. -/
@[simp]
theorem mgr_request :
    (s.request cx id region target call).mgr = (s.mgr.ensureResident cx region target call).2 := by
  unfold request
  split
  next h => rw [h]
  next h => rw [h]

/-- A request changes the work of its own node only. -/
theorem work_request_of_ne (hne : n ≠ id) :
    (s.request cx id region target call).work n = s.work n := by
  unfold request
  split <;> exact Function.update_of_ne hne _ _

/-- A node whose request returns `true` is granted it. -/
theorem granted_request_self (h : (s.request cx id region target call).Granted id) :
    (s.mgr.ensureResident cx region target call).1 = .ok () := by
  obtain ⟨res, hwork, -⟩ := h
  unfold request at hwork
  split at hwork
  next heq => rw [heq]
  next heq =>
    have hwork : Function.update s.work id .refused id = .done res := hwork
    rw [Function.update_self] at hwork
    cases hwork

/-- The steps of a run, by what they change: a step of the scheduler, by which a node may return a
result, a request, and the reading of an error. -/
theorem step_cases {event : GraphEvent ρ α} (h : s.step cx g event = some s') :
    (∃ e exec, s.exec.step g e = some exec ∧ s' = { s with exec } ∧
      ∀ id res, e = .finish id res → ∃ op, g.opOf id = some op ∧ s.mayReturn id res op) ∨
    (∃ id call region target,
      event = .request id call ∧ g.opOf id = some (.residency region target) ∧
      s.exec.activeTasks.lookup id = some none ∧ s.work id = .idle ∧
      s' = s.request cx id region target call) ∨
    (∃ id, s.work id = .refused ∧ s' =
      { s with work :=
        Function.update s.work id (.done { errorMessage := s.mgr.lastError }) }) := by
  cases event with
  | requestCancel =>
    obtain ⟨exec, hexec, rfl⟩ := Option.map_eq_some_iff.mp (show s.schedule g _ = some s' from h)
    exact .inl ⟨_, exec, hexec, rfl, nofun⟩
  | tick =>
    obtain ⟨exec, hexec, rfl⟩ := Option.map_eq_some_iff.mp (show s.schedule g _ = some s' from h)
    exact .inl ⟨_, exec, hexec, rfl, nofun⟩
  | request id call =>
    -- the guard: the node is started, and its thread has not asked yet
    unfold step at h
    dsimp only at h
    split at h
    next region target hop =>
      split at h
      next hidle =>
        exact .inr (.inl ⟨id, call, region, target, rfl, hop, hidle.1, hidle.2,
          (Option.some.inj h).symm⟩)
      next => cases h
    next => cases h
  | readError id =>
    unfold step at h
    dsimp only at h
    split at h
    next hrefused => exact .inr (.inr ⟨id, hrefused, (Option.some.inj h).symm⟩)
    next => cases h
  | finish id res =>
    -- a result is returned only where the thread may return it
    unfold step at h
    dsimp only at h
    split at h
    next op hop =>
      split at h
      next hreturn =>
        obtain ⟨exec, hexec, rfl⟩ := Option.map_eq_some_iff.mp h
        refine .inl ⟨_, exec, hexec, rfl, ?_⟩
        rintro _ _ ⟨⟩
        exact ⟨op, hop, hreturn⟩
      next => cases h
    next => cases h

end GraphRun

/-- The invariant of a run: what the nodes return is what their requests came to, and what was
granted to a node is where the node wants it. -/
structure LoadsFit (g : ExecutionGraph NodeOp) (s : GraphRun σ) : Prop where
  exec : Fits g s.exec
  keys : s.mgr.KeysMatch
  pending : ∀ id region target res, g.opOf id = some (.residency region target) →
    s.exec.activeTasks.lookup id = some (some res) → s.work id = .done res
  completed : ∀ id region target, g.opOf id = some (.residency region target) →
    s.exec.state id = .completed → s.Granted id
  resident : ∀ id region target, g.opOf id = some (.residency region target) → s.Granted id →
    s.mgr.isResident region.id target = true

/-- No two nodes of a graph load the same region. -/
def DistinctLoads (g : ExecutionGraph NodeOp) : Prop :=
  ∀ id region target, g.opOf id = some (.residency region target) →
    ∀ id' region' target', g.opOf id' = some (.residency region' target') →
      region'.id = region.id → id' = id

/-- A request that takes the place of nothing granted before. -/
theorem LoadsFit.request (h : LoadsFit g s) (hdistinct : DistinctLoads g)
    (hop : g.opOf id = some (.residency region target))
    (hrunning : s.exec.activeTasks.lookup id = some none)
    (hspares : SparesGranted cx g s (.request id call)) :
    LoadsFit g (s.request cx id region target call) := by
  -- the work of the other nodes stays
  have hgranted : ∀ {n}, n ≠ id → (s.request cx id region target call).Granted n → s.Granted n := by
    rintro n hne ⟨res, hwork, hsuccess⟩
    rw [GraphRun.work_request_of_ne hne] at hwork
    exact ⟨res, hwork, hsuccess⟩
  refine ⟨?exec, ?keys, ?pending, ?completed, ?resident⟩
  case exec =>
    rw [GraphRun.exec_request]
    exact h.exec
  case keys =>
    rw [GraphRun.mgr_request]
    exact h.keys.ensureResident target
  case pending =>
    intro n region' target' res hop' htask
    rw [GraphRun.exec_request] at htask
    have hne : n ≠ id := by
      rintro rfl
      rw [hrunning] at htask
      cases htask
    rw [GraphRun.work_request_of_ne hne]
    exact h.pending n region' target' res hop' htask
  case completed =>
    intro n region' target' hop' hcompleted
    rw [GraphRun.exec_request] at hcompleted
    have hne : n ≠ id := by
      rintro rfl
      exact h.exec.not_completed hrunning hcompleted
    obtain ⟨res, hwork, hsuccess⟩ := h.completed n region' target' hop' hcompleted
    exact ⟨res, by rw [GraphRun.work_request_of_ne hne, hwork], hsuccess⟩
  case resident =>
    intro n region' target' hop' hn
    rw [GraphRun.mgr_request]
    by_cases heq : n = id
    · -- the region of the request itself
      subst heq
      rw [hop] at hop'
      cases hop'
      exact isResident_of_ensureResident h.keys (GraphRun.granted_request_self hn)
    · have hold := hgranted heq hn
      have hne : region'.id ≠ region.id := fun h' => heq (hdistinct id _ _ hop n _ _ hop' h')
      have hkept := hspares region target hop n region' target' hop' hold
      -- the regions of the other nodes: what was granted is spared by hypothesis
      cases ensureResident_fate cx call h.keys target hne with
      | kept _ hsame =>
        rw [isResident_congr hsame]
        exact h.resident n region' target' hop' hold
      | lost hlost => exact absurd hlost hkept

/-- A step of the scheduler that adds no result but `res` of the node `id`, and completes only what
has returned a success. -/
theorem LoadsFit.schedule {exec : ExecuteState} (h : LoadsFit g s) (hexec : Fits g exec)
    (hpending : ∀ n region target res, g.opOf n = some (.residency region target) →
      exec.activeTasks.lookup n = some (some res) → s.work n = .done res)
    (hcompleted : ∀ n, exec.state n = .completed → s.exec.state n = .completed ∨
      ∃ res, s.exec.activeTasks.lookup n = some (some res) ∧ res.success = true) :
    LoadsFit g { s with exec } where
  exec := hexec
  keys := h.keys
  pending := hpending
  completed n region target hop hn := by
    rcases hcompleted n hn with hold | ⟨res, htask, hsuccess⟩
    · exact h.completed n region target hop hold
    · exact ⟨res, h.pending n region target res hop htask, hsuccess⟩
  resident := h.resident

/-- A node that reads the error of a request it was refused. -/
theorem LoadsFit.readError (h : LoadsFit g s) (hrefused : s.work id = .refused) (error : String) :
    LoadsFit g { s with work := Function.update s.work id (.done { errorMessage := error }) } := by
  -- the node has returned nothing yet
  have hne : ∀ {n res}, s.work n = .done res → n ≠ id := by
    rintro n res hdone rfl
    rw [hrefused] at hdone
    cases hdone
  refine ⟨h.exec, h.keys, ?pending, ?completed, ?resident⟩
  case pending =>
    intro n region target res hop htask
    have hdone := h.pending n region target res hop htask
    exact (Function.update_of_ne (hne hdone) _ _).trans hdone
  case completed =>
    intro n region target hop hn
    obtain ⟨res, hdone, hsuccess⟩ := h.completed n region target hop hn
    exact ⟨res, (Function.update_of_ne (hne hdone) _ _).trans hdone, hsuccess⟩
  case resident =>
    rintro n region target hop ⟨res, hdone, hsuccess⟩
    have hdone : Function.update s.work id (.done { errorMessage := error }) n = .done res := hdone
    rw [Function.update_apply] at hdone
    split at hdone
    next =>
      -- an error is no success
      cases hdone
      cases hsuccess
    next => exact h.resident n region target hop ⟨res, hdone, hsuccess⟩

/-- What a step of a run preserves. -/
theorem LoadsFit.step (h : LoadsFit g s) (hg : g.WellFormed) (hself : ∀ n, n ∉ g.getSuccessors n)
    (hdistinct : DistinctLoads g) {event : GraphEvent ρ α} (hspares : SparesGranted cx g s event)
    (hstep : s.step cx g event = some s') : LoadsFit g s' := by
  rcases GraphRun.step_cases hstep with ⟨e, exec, hexec, rfl, hreturn⟩ |
    ⟨id, call, region, target, rfl, hop, hrunning, -, rfl⟩ | ⟨id, hrefused, rfl⟩
  · have hfits := h.exec.step hg hself hexec
    cases e with
    | requestCancel =>
      cases hexec
      exact h.schedule hfits h.pending fun n => .inl
    | tick =>
      obtain ⟨hresults, hcompleted⟩ := tick_results hg hself hexec
      exact h.schedule hfits (fun n region target res hop htask =>
        h.pending n region target res hop (hresults n res htask)) hcompleted
    | finish id res =>
      obtain ⟨op, hop, hreturn⟩ := hreturn id res rfl
      unfold ExecuteState.step at hexec
      dsimp only at hexec
      split at hexec
      next =>
        cases hexec
        refine h.schedule hfits (fun n region target res' hop' htask => ?_) fun n => .inl
        have htask : (s.exec.activeTasks.insert id (some res)).lookup n = some (some res') := htask
        rw [KeyedMap.lookup_insert_eq_ite] at htask
        split at htask
        next heq =>
          -- the node returns what its request came to
          rw [heq, hop] at hop'
          cases hop'
          cases htask
          rw [heq]
          exact hreturn
        next => exact h.pending n region target res' hop' htask
      next => cases hexec
  · exact h.request hdistinct hop hrunning hspares
  · exact h.readError hrefused _

/-! ## Runs on the graphs of the builder -/

namespace ExecutionGraphBuilder.Layered

variable {first : ℕ} {regions : List ModelRegion} {prompt : String}

/-- The residency nodes of the graph. -/
theorem residency_cases {target' : ModelResidencyTarget} (h : Layered first target regions prompt g)
    (hop : g.opOf n = some (.residency region target')) :
    ∃ i, ∃ hi : i < regions.length, n = first + i ∧ regions[i] = region ∧ target = target' := by
  by_cases hi : first ≤ n ∧ n < first + regions.length
  · have hn : n = first + (n - first) := by omega
    have hload := h.op_residency (n - first) (by omega)
    rw [← hn, hop] at hload
    cases hload
    exact ⟨n - first, by omega, hn, rfl, rfl⟩
  · -- the other nodes do something else
    exfalso
    by_cases hsync : n = first + regions.length
    · rw [hsync, h.op_sync] at hop
      cases hop
    · by_cases hcompute : n = first + regions.length + 1
      · rw [hcompute, h.op_compute] at hop
        cases hop
      · rw [h.op_other n (by omega)] at hop
        cases hop

/-- There is one node that computes: the last one. -/
theorem eq_of_compute {prompt' : String} (h : Layered first target regions prompt g)
    (hop : g.opOf n = some (.compute prompt')) : n = first + regions.length + 1 := by
  by_contra hne
  by_cases hi : first ≤ n ∧ n < first + regions.length
  · have hload := h.op_residency (n - first) (by omega)
    rw [Nat.add_sub_cancel' hi.1, hop] at hload
    cases hload
  · by_cases hsync : n = first + regions.length
    · rw [hsync, h.op_sync] at hop
      cases hop
    · rw [h.op_other n (by omega)] at hop
      cases hop

theorem not_mem_successors_self (h : Layered first target regions prompt g) (n : ℕ) :
    n ∉ g.getSuccessors n := by
  intro hn
  have hself := (h.built.wellFormed.inverse n n).mpr hn
  rcases (h.predecessors n n).mp hself with ⟨heq, -, hlt⟩ | ⟨heq, heq'⟩
  · omega
  · omega

/-- Regions with different ids are loaded by one node each. -/
theorem distinctLoads (h : Layered first target regions prompt g)
    (hids : (regions.map ModelRegion.id).Nodup) : DistinctLoads g := by
  intro n region target₁ hop n' region' target₂ hop' heq
  obtain ⟨i, hi, rfl, rfl, -⟩ := h.residency_cases hop
  obtain ⟨j, hj, rfl, rfl, -⟩ := h.residency_cases hop'
  have hregion : regions[j] = regions[i] :=
    List.inj_on_of_nodup_map hids (List.getElem_mem hj) (List.getElem_mem hi) heq
  rw [hids.of_map.getElem_inj_iff.mp hregion]

end ExecutionGraphBuilder.Layered

open ExecutionGraphBuilder

variable {first : ℕ} {regions : List ModelRegion} {prompt : String}

/-- At first nothing is loaded by the run. -/
theorem LoadsFit.initial (g : ExecutionGraph NodeOp) {mgr : ModelResidencyManager σ}
    (hkeys : mgr.KeysMatch) : LoadsFit g { exec := ExecuteState.initial g, mgr } where
  exec := ⟨fun _ => {}, .initial g _⟩
  keys := hkeys
  pending _ _ _ _ _ htask := by cases htask
  completed n _ _ _ hn := by
    unfold ExecuteState.state ExecuteState.initial at hn
    dsimp only at hn
    split at hn
    next =>
      dsimp only at hn
      split at hn <;> cases hn
    next => cases hn
  resident _ _ _ _ hgranted := by
    obtain ⟨res, hwork, -⟩ := hgranted
    cases hwork

/-- The barrier is behind every region, and what was granted is still there. -/
theorem LoadsFit.computeFinds (h : LoadsFit g s) (hlayers : Layered first target regions prompt g) :
    ComputeFinds g regions s := by
  intro id prompt' hop hstarted region hregion
  obtain rfl := hlayers.eq_of_compute hop
  obtain ⟨i, hi, rfl⟩ := List.getElem_of_mem hregion
  have hsync : s.exec.state (first + regions.length) = .completed :=
    h.exec.started hstarted _ ((hlayers.predecessors _ _).mpr (.inr ⟨rfl, rfl⟩))
  have hcompleted : s.exec.state (first + i) = .completed :=
    h.exec.completed hsync _ ((hlayers.predecessors _ _).mpr (.inl ⟨rfl, by omega, by omega⟩))
  have hload := hlayers.op_residency i hi
  exact ⟨first + i, target, hload, h.resident _ _ _ hload (h.completed _ _ _ hload hcompleted)⟩

/-- A compute node finds every region, in runs where no request takes the place of a region that was
granted before. -/
theorem computeFinds_of_reachable (cx : ResidencyContext ρ σ α) (accelMemory : σ)
    (mgr : ModelResidencyManager σ) (nextId : ℕ) (order : Traversal ℕ) (plan : ModelExecutionPlan)
    (regions : List ModelRegion) (prompt : String) (s : GraphRun σ)
    (hmgr : (residencySystem cx accelMemory).Reachable anyCall mgr)
    (hviable : plan.viable = true ∧ plan.mode ≠ .unsupported)
    (hresidency : plan.residency = .fullResident ∨ plan.residency = .auto ∨
      plan.residency = .partialResident ∨ plan.residency = .cpuFallback)
    (hids : (regions.map ModelRegion.id).Nodup)
    (hreach : (graphSystem cx (build nextId order plan regions prompt {}).graph mgr).Reachable
      (SparesGranted cx (build nextId order plan regions prompt {}).graph) s) :
    ComputeFinds (build nextId order plan regions prompt {}).graph regions s := by
  have hlayers : Layered nextId (targetOf plan) regions prompt
      (build nextId order plan regions prompt {}).graph := layered_build hviable hresidency
  generalize (build nextId order plan regions prompt {}).graph = g at hreach hlayers ⊢
  have hkeys : mgr.KeysMatch := (Accounted.of_reachable hmgr).1
  refine LoadsFit.computeFinds ?_ hlayers
  refine hreach.invariant ?_ fun s event s' h hspares hstep => ?_
  · rintro s rfl
    exact .initial g hkeys
  · exact h.step hlayers.built.wellFormed hlayers.not_mem_successors_self
      (hlayers.distinctLoads hids) hspares hstep

/-! ## Regions that are lost -/

/-- A region that a node has asked for, and that is not where the node wants it. -/
def Lost (g : ExecutionGraph NodeOp) (target : ModelResidencyTarget) (s : GraphRun σ) : Prop :=
  ∃ id region, g.opOf id = some (.residency region target) ∧ s.work id ≠ .idle ∧
    s.mgr.isResident region.id target = false

/-- No node asks twice, and a request brings no other region back. -/
theorem Lost.step (h : Lost g target s) (hkeys : s.mgr.KeysMatch) (hdistinct : DistinctLoads g)
    {event : GraphEvent ρ α} (hstep : s.step cx g event = some s') : Lost g target s' := by
  obtain ⟨n, region, hop, hwork, hout⟩ := h
  rcases GraphRun.step_cases hstep with ⟨e, exec, -, rfl, -⟩ |
    ⟨id, call, region', target', -, hop', -, hidle, rfl⟩ | ⟨id, -, rfl⟩
  · exact ⟨n, region, hop, hwork, hout⟩
  · have hne : n ≠ id := by
      rintro rfl
      exact hwork hidle
    have hregion : region.id ≠ region'.id := fun heq => hne (hdistinct id _ _ hop' n _ _ hop heq)
    refine ⟨n, region, hop, ?_, ?_⟩
    · rw [GraphRun.work_request_of_ne hne]
      exact hwork
    · rw [GraphRun.mgr_request, ← Bool.not_eq_true]
      intro hback
      have hfate := ensureResident_fate cx call hkeys target' hregion
      rw [hfate.isResident_of hback] at hout
      cases hout
  · refine ⟨n, region, hop, ?_, hout⟩
    show Function.update s.work id _ n ≠ .idle
    rw [Function.update_apply]
    split
    next => nofun
    next => exact hwork

theorem keysMatch_step {event : GraphEvent ρ α} (hkeys : s.mgr.KeysMatch)
    (hstep : s.step cx g event = some s') : s'.mgr.KeysMatch := by
  rcases GraphRun.step_cases hstep with ⟨e, exec, -, rfl, -⟩ |
    ⟨id, call, region, target, -, -, -, -, rfl⟩ | ⟨id, -, rfl⟩
  · exact hkeys
  · rw [GraphRun.mgr_request]
    exact hkeys.ensureResident target
  · exact hkeys

/-- A request that takes the place of a region that a node was granted. -/
theorem lost_of_displaces (hkeys : s.mgr.KeysMatch) (hdistinct : DistinctLoads g)
    (hop : g.opOf id = some (.residency region target)) (hidle : s.work id = .idle)
    {region' : ModelRegion} (hop' : g.opOf n = some (.residency region' target)) (hn : s.Granted n)
    (hdisplaces : Displaces cx s.mgr region target call region'.id) :
    Lost g target (s.request cx id region target call) := by
  obtain ⟨res, hdone, -⟩ := hn
  have hne : n ≠ id := by
    rintro rfl
    rw [hidle] at hdone
    cases hdone
  have hregion : region'.id ≠ region.id := fun heq => hne (hdistinct id _ _ hop n _ _ hop' heq)
  refine ⟨n, region', hop', ?_, ?_⟩
  · rw [GraphRun.work_request_of_ne hne, hdone]
    nofun
  · rw [GraphRun.mgr_request]
    cases ensureResident_fate cx call hkeys target hregion with
    | kept hkept => exact absurd hdisplaces hkept
    | lost _ hout => exact hout

/-- A request that takes the place of a region granted before is never made good: where the compute
node is started all the same, it does not find every region. -/
theorem not_computeFinds_of_displaces {guard : GraphRun σ → GraphEvent ρ α → Prop} {s₂ : GraphRun σ}
    {mgr : ModelResidencyManager σ} (hlayers : Layered first target regions prompt g)
    (hids : (regions.map ModelRegion.id).Nodup) (hmgr : mgr.KeysMatch)
    (hreach : (graphSystem cx g mgr).Reachable guard s) {event : GraphEvent ρ α}
    (hstep : s.step cx g event = some s') (hdisplaces : ¬ SparesGranted cx g s event)
    (hrun : (graphSystem cx g mgr).Run guard s' s₂)
    (hstarted : first + regions.length + 1 ∈ s₂.exec.starts) : ¬ ComputeFinds g regions s₂ := by
  have hdistinct : DistinctLoads g := hlayers.distinctLoads hids
  have hkeys : s.mgr.KeysMatch := by
    refine hreach.invariant (P := fun s : GraphRun σ => s.mgr.KeysMatch) ?_
      fun s event s' h _ hstep => keysMatch_step h hstep
    rintro s rfl
    exact hmgr
  -- the step is a request, for no other step displaces anything
  have hlost : Lost g target s' := by
    cases event with
    | request id call =>
      unfold SparesGranted at hdisplaces
      push Not at hdisplaces
      obtain ⟨region, target₁, hop, n, region', target₂, hop', hgranted, hdisplaces⟩ := hdisplaces
      obtain ⟨-, -, -, -, rfl⟩ := hlayers.residency_cases hop
      obtain ⟨-, -, -, -, rfl⟩ := hlayers.residency_cases hop'
      unfold GraphRun.step at hstep
      dsimp only at hstep
      rw [hop] at hstep
      dsimp only at hstep
      split at hstep
      next hidle =>
        cases hstep
        exact lost_of_displaces hkeys hdistinct hop hidle.2 hop' hgranted hdisplaces
      next => cases hstep
    | _ => exact absurd trivial hdisplaces
  -- what is lost stays lost, for each region is requested once
  have hend : s₂.mgr.KeysMatch ∧ Lost g target s₂ := by
    refine hrun.preserves (P := fun s : GraphRun σ => s.mgr.KeysMatch ∧ Lost g target s) ?_
      ⟨keysMatch_step hkeys hstep, hlost⟩
    exact fun s event s' h _ hstep => ⟨keysMatch_step h.1 hstep, h.2.step h.1 hdistinct hstep⟩
  -- so the last node does not find the region of the node `n`
  obtain ⟨n, region, hop, -, hout⟩ := hend.2
  intro hfinds
  obtain ⟨i, hi, rfl, rfl, -⟩ := hlayers.residency_cases hop
  obtain ⟨node, target', hop', hresident⟩ :=
    hfinds _ prompt hlayers.op_compute hstarted regions[i] (List.getElem_mem hi)
  obtain ⟨-, -, -, -, rfl⟩ := hlayers.residency_cases hop'
  rw [hout] at hresident
  cases hresident

/-! ## Requests for which room is left -/

/-- A request for RAM that finds room left for the region. -/
def RoomIsLeft (cx : ResidencyContext ρ σ α) (g : ExecutionGraph NodeOp) (s : GraphRun σ) :
    GraphEvent ρ α → Prop
  | .request id _ =>
    match g.opOf id with
    | some (.residency region .ram) =>
      let m := s.mgr.getOrCreateLocked region
      m.telemetry.residentRamBytes + (m.recordAt region.id).region.size ≤ cx.budget.ramBytes
    | some (.residency _ .accelerator) => False
    | _ => True
  | _ => True

instance (cx : ResidencyContext ρ σ α) (s : GraphRun σ) (event : GraphEvent ρ α) :
    Decidable (RoomIsLeft cx g s event) := by
  unfold RoomIsLeft
  split
  · split <;> infer_instance
  · infer_instance

/-- Where room is left, no scan is made. -/
theorem sparesGranted_of_roomIsLeft {event : GraphEvent ρ α} (h : RoomIsLeft cx g s event) :
    SparesGranted cx g s event := by
  cases event with
  | request id call =>
    intro region target hop id' region' target' hop' hgranted hdisplaces
    unfold RoomIsLeft at h
    dsimp only at h
    rw [hop] at h
    cases target with
    | ram =>
      obtain ⟨-, -, -, ⟨-, -, m₁, m₂, hrun, hevicts, -⟩ | ⟨hram, -⟩⟩ := hdisplaces
      · -- the first round would find the budget exceeded
        rcases hrun.cases_head with rfl | ⟨m', hfirst, -⟩
        · exact absurd hevicts.full (UInt64.not_lt.mpr h)
        · exact absurd hfirst.full (UInt64.not_lt.mpr h)
      · cases hram
    | accelerator => exact h.elim
  | _ => trivial

/-! ## Samples -/

/-- The state after an event; where the step is not possible, nothing changes. -/
def GraphRun.next (cx : ResidencyContext ρ σ α) (g : ExecutionGraph NodeOp) (s : GraphRun σ)
    (event : GraphEvent ρ α) : GraphRun σ :=
  (s.step cx g event).getD s

/-- A graph after a list of events. -/
def runGraph (cx : ResidencyContext ρ σ α) (g : ExecutionGraph NodeOp)
    (mgr : ModelResidencyManager σ)
    (events : List (GraphEvent ρ α)) : GraphRun σ :=
  events.foldl (GraphRun.next cx g) { exec := ExecuteState.initial g, mgr }

/-- A list of events that are possible leads to a reachable state. -/
theorem reachable_runGraph {guard : GraphRun σ → GraphEvent ρ α → Prop}
    {mgr : ModelResidencyManager σ} {events : List (GraphEvent ρ α)}
    (h : Along (fun s event => guard s event ∧ (s.step cx g event).isSome) (GraphRun.next cx g)
      { exec := ExecuteState.initial g, mgr } events) :
    (graphSystem cx g mgr).Reachable guard (runGraph cx g mgr events) := by
  have hinit : (graphSystem cx g mgr).Reachable guard { exec := ExecuteState.initial g, mgr } :=
    .init rfl
  refine hinit.foldl (fun s event hevent => ⟨hevent.1, ?_⟩) h
  obtain ⟨s', hs'⟩ := Option.isSome_iff_exists.mp hevent.2
  show s.step cx g event = some (s.next cx g event)
  rw [GraphRun.next, hs', Option.getD_some]

/-- A plan that loads the regions one after the other. -/
def samplePlan : ModelExecutionPlan := { viable := true, mode := .cpu, residency := .cpuFallback }

/-- As many regions of two bytes, under the ids from 1. -/
def sampleRegions (n : ℕ) : List ModelRegion :=
  (List.range n).map fun i => sampleRegion (.ofNat (i + 1)) (.ofNat (2 * i))

/-- The graph that loads them. -/
def loadGraph (n : ℕ) : ExecutionGraph NodeOp :=
  (build 1 .stored samplePlan (sampleRegions n) "Hello" {}).graph

/-- A round of the loop in which one node is started, and collected after the given events. -/
def sampleRound (n : ℕ) (events : List (GraphEvent FileReadEnv (Option ℕ))) :
    List (GraphEvent FileReadEnv (Option ℕ)) :=
  List.replicate (n + 4) .tick ++ events ++ List.replicate 3 .tick

/-- All regions are loaded, until the compute node is started. -/
def sampleLoads (n : ℕ) : List (GraphEvent FileReadEnv (Option ℕ)) :=
  ((List.range n).flatMap fun i =>
    sampleRound n [.request (i + 1) (sampleCall (i + 1)), .finish (i + 1) { success := true }]) ++
  sampleRound n [.finish (n + 1) { success := true }] ++ List.replicate (n + 3) .tick

/-- Two regions, for which there is room. -/
theorem computeFinds_sample :
    4 ∈ (runGraph sampleContext (loadGraph 2) (sampleRun []) (sampleLoads 2)).exec.starts ∧
      ComputeFinds (loadGraph 2) (sampleRegions 2)
        (runGraph sampleContext (loadGraph 2) (sampleRun []) (sampleLoads 2)) := by
  refine ⟨by decide +kernel, ?_⟩
  have hroom : (graphSystem sampleContext (loadGraph 2) (sampleRun [])).Reachable
      (RoomIsLeft sampleContext (loadGraph 2))
      (runGraph sampleContext (loadGraph 2) (sampleRun []) (sampleLoads 2)) :=
    reachable_runGraph (by decide +kernel)
  exact computeFinds_of_reachable sampleContext (.construct 4) (sampleRun []) 1 .stored samplePlan
    (sampleRegions 2) "Hello" _ (reachable_foldl _ _ []) (by decide) (by decide) (by decide)
    (hroom.mono fun _ _ => sparesGranted_of_roomIsLeft)

/-- Three regions: when the compute node is started, the third has taken the place of the first. -/
theorem not_computeFinds_sample :
    ¬ ∀ (mgr : ModelResidencyManager HostAcceleratorMemory) (nextId : ℕ) (order : Traversal ℕ)
      (plan : ModelExecutionPlan) (regions : List ModelRegion) (prompt : String)
      (s : GraphRun HostAcceleratorMemory),
      (residencySystem sampleContext (.construct 4)).Reachable anyCall mgr →
      plan.viable = true ∧ plan.mode ≠ .unsupported →
      plan.residency = .fullResident ∨ plan.residency = .auto ∨ plan.residency = .partialResident ∨
        plan.residency = .cpuFallback →
      (regions.map ModelRegion.id).Nodup → (∀ region ∈ regions, region.id ≠ 0) →
      (graphSystem sampleContext (build nextId order plan regions prompt {}).graph mgr).Reachable
        anyCall s →
      ComputeFinds (build nextId order plan regions prompt {}).graph regions s := by
  intro hall
  have hreach : (graphSystem sampleContext (loadGraph 3) (sampleRun [])).Reachable anyCall
      (runGraph sampleContext (loadGraph 3) (sampleRun []) (sampleLoads 3)) :=
    reachable_runGraph (by decide +kernel)
  obtain ⟨node, target, -, hresident⟩ := hall (sampleRun []) 1 .stored samplePlan (sampleRegions 3)
    "Hello" _ (reachable_foldl _ _ []) (by decide) (by decide) (by decide) (by decide) hreach
    5 "Hello" (by decide +kernel) (by decide +kernel) (sampleRegion 1 0) (by decide)
  revert hresident
  cases target <;> decide +kernel

end HeteroAccel.Execution
