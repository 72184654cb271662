import HeteroAccel.Execution.SchedulerStates

/-!
# Runs of the graph scheduler

What `execute` keeps: a node starts when its predecessors have completed, once, and not while a node
with the same exclusive resource runs; and in which states it leaves the nodes.

## Main definitions

* `Answers`: every node has one outcome;
* `RunFits`: the invariant of a run;
* `StartsSafely`: when a node may start;
* `FinalStates`: the states of the nodes when `execute` returns;
* `scheduler_of_reachable`: both hold in every run on a graph that passes `validate`.
-/

namespace HeteroAccel.Execution

open ExecuteState

variable {Op : Type*} {g : ExecutionGraph Op}

/-- Nodes finish with their outcomes. -/
def Answers (outcome : ℕ → GraphNodeResult) (_ : ExecuteState) : Event → Prop
  | .finish id res => res = outcome id
  | _ => True

/-- The tasks, the resources and the nodes that have been started. -/
structure TasksFit (g : ExecutionGraph Op) (s : ExecuteState) : Prop where
  tasks : ∀ n, n ∈ s.activeTasks ↔ s.state n = .running
  /-- An exclusive resource is counted while a node that uses it runs, -/
  busy : ∀ n, s.state n = .running → (g.resourceOf n).Exclusive →
    s.activeResources (g.resourceOf n) = 1
  /-- and no longer. -/
  free : ∀ r : ExecutionResource, r.Exclusive → (∀ n, s.state n = .running → g.resourceOf n ≠ r) →
    s.activeResources r = 0
  exclusive : ∀ n m, s.state n = .running → s.state m = .running → (g.resourceOf n).Exclusive →
    g.resourceOf m = g.resourceOf n → m = n
  starts : ∀ n, n ∈ s.starts ↔ s.Started n

/-- The results of the nodes. -/
structure OutcomesFit (outcome : ℕ → GraphNodeResult) (s : ExecuteState) : Prop where
  pending : ∀ n res, s.activeTasks.lookup n = some (some res) → res = outcome n
  completed : ∀ n, s.state n = .completed → (outcome n).success = true
  failed : ∀ n, s.state n = .failed → (outcome n).success = false

/-- What `execute` reports, as long as no cancellation is requested. -/
structure ReportFits (s : ExecuteState) : Prop where
  cancelled : ∀ n, s.state n ≠ .cancelled
  success : s.overallSuccess = true ↔ ∀ n, s.state n ≠ .failed

/-- The invariant of a run. -/
structure RunFits (g : ExecutionGraph Op) (outcome : ℕ → GraphNodeResult) (s : ExecuteState) :
    Prop where
  states : StatesFit g s s.phase.queue
  tasks : TasksFit g s
  outcomes : OutcomesFit outcome s
  report : s.cancelRequested = false → ReportFits s
  returned : s.phase = .returned → ∀ n ∈ g.nodes, s.state n ≠ .ready ∧ s.state n ≠ .running

variable {outcome : ℕ → GraphNodeResult} {s s' : ExecuteState} {id : ℕ}

/-! ## Tasks and resources -/

/-- An exclusive resource that is available is not in use. -/
theorem TasksFit.not_running (h : TasksFit g s) {r : ExecutionResource}
    (havailable : checkResourceAvailable r s.activeResources) (hr : r.Exclusive) :
    ∀ n, s.state n = .running → g.resourceOf n ≠ r := by
  rintro n hn rfl
  rw [checkResourceAvailable, if_neg hr.1, if_neg hr.2, h.busy n hn hr] at havailable
  simp at havailable

/-- A step by which no node is started or collected. -/
theorem TasksFit.of_eq (h : TasksFit g s)
    (hrunning : ∀ n, s'.state n = .running ↔ s.state n = .running)
    (hstarted : ∀ n, s'.Started n ↔ s.Started n)
    (htasks : ∀ n, n ∈ s'.activeTasks ↔ n ∈ s.activeTasks)
    (hresources : s'.activeResources = s.activeResources) (hstarts : s'.starts = s.starts) :
    TasksFit g s' := by
  refine ⟨?tasks, ?busy, ?free, ?exclusive, ?starts⟩
  case tasks =>
    intro n
    rw [htasks, hrunning]
    exact h.tasks n
  case busy =>
    intro n hn
    rw [hresources]
    exact h.busy n ((hrunning n).mp hn)
  case free =>
    intro r hr hfree
    rw [hresources]
    exact h.free r hr fun n hn => hfree n ((hrunning n).mpr hn)
  case exclusive => exact fun n m hn hm => h.exclusive n m ((hrunning n).mp hn) ((hrunning m).mp hm)
  case starts =>
    intro n
    rw [hstarts, hstarted]
    exact h.starts n

/-- A node that starts takes its resource, which was free. -/
theorem TasksFit.start (h : TasksFit g s) (hready : s.state id = .ready)
    (havailable : checkResourceAvailable (g.resourceOf id) s.activeResources) :
    TasksFit g (s.start g id) := by
  have hrunning : ∀ n, (s.start g id).state n = .running ↔ n = id ∨ s.state n = .running := by
    intro n
    rw [state_start]
    split
    next heq => simp [heq]
    next hne => simp [hne]
  -- no running node has the resource, if it is exclusive
  have hfree := h.not_running havailable
  refine ⟨?tasks, ?busy, ?free, ?exclusive, ?starts⟩
  case tasks =>
    intro n
    rw [hrunning, ← h.tasks]
    exact AList.mem_insert _
  case busy =>
    intro n hn hexclusive
    show Function.update s.activeResources _ _ _ = 1
    -- two running nodes, either of which may be the new one
    rcases (hrunning n).mp hn with rfl | hold
    · rw [Function.update_self, h.free _ hexclusive (hfree hexclusive), zero_add]
    · rw [Function.update_of_ne]
      · exact h.busy n hold hexclusive
      · exact fun heq => hfree (heq ▸ hexclusive) n hold heq
  case free =>
    intro r hr hnone
    show Function.update s.activeResources _ _ _ = 0
    rw [Function.update_of_ne fun heq => hnone id ((hrunning id).mpr (.inl rfl)) heq.symm]
    exact h.free r hr fun n hn => hnone n ((hrunning n).mpr (.inr hn))
  case exclusive =>
    intro n m hn hm hexclusive heq
    rcases (hrunning n).mp hn with rfl | hn'
    · rcases (hrunning m).mp hm with rfl | hm'
      · rfl
      · exact absurd heq (hfree hexclusive m hm')
    · rcases (hrunning m).mp hm with rfl | hm'
      · exact absurd heq.symm (hfree (heq ▸ hexclusive) n hn')
      · exact h.exclusive n m hn' hm' hexclusive heq
  case starts =>
    intro n
    show n ∈ id :: s.starts ↔ _
    rw [List.mem_cons, h.starts]
    unfold Started
    rw [state_start]
    split
    next heq => simp [heq]
    next hne => simp [hne]

/-- A step by which the task of a running node is collected. -/
theorem TasksFit.collect (h : TasksFit g s) (hid : s.state id = .running)
    (hrunning : ∀ n, s'.state n = .running ↔ n ≠ id ∧ s.state n = .running)
    (hstarted : ∀ n, s'.Started n ↔ s.Started n)
    (htasks : s'.activeTasks = s.activeTasks.erase id)
    (hresources : s'.activeResources = Function.update s.activeResources (g.resourceOf id)
      (s.activeResources (g.resourceOf id) - 1)) (hstarts : s'.starts = s.starts) :
    TasksFit g s' := by
  refine ⟨?tasks, ?busy, ?free, ?exclusive, ?starts⟩
  case tasks =>
    intro n
    rw [htasks, hrunning, AList.mem_erase, h.tasks]
  case busy =>
    intro n hn hexclusive
    obtain ⟨hne, hn⟩ := (hrunning n).mp hn
    rw [hresources, Function.update_of_ne fun heq => ?_]
    · exact h.busy n hn hexclusive
    · exact hne (h.exclusive n id hn hid hexclusive heq.symm).symm
  case free =>
    intro r hr hnone
    rw [hresources]
    by_cases heq : r = g.resourceOf id
    · rw [heq, Function.update_self, h.busy id hid (heq ▸ hr), sub_self]
    · rw [Function.update_of_ne heq]
      refine h.free r hr fun n hn hres => ?_
      by_cases hne : n = id
      · exact heq (hres ▸ hne ▸ rfl)
      · exact hnone n ((hrunning n).mpr ⟨hne, hn⟩) hres
  case exclusive =>
    exact fun n m hn hm => h.exclusive n m ((hrunning n).mp hn).2 ((hrunning m).mp hm).2
  case starts =>
    intro n
    rw [hstarts, hstarted]
    exact h.starts n

/-! ## Steps -/

/-- The invariant does not depend on where the thread is, but for the queue. -/
theorem RunFits.with_phase {phase : Phase} (hstates : StatesFit g s phase.queue)
    (htasks : TasksFit g s)
    (houtcomes : OutcomesFit outcome s) (hreport : s.cancelRequested = false → ReportFits s)
    (hreturned : phase = .returned → ∀ n ∈ g.nodes, s.state n ≠ .ready ∧ s.state n ≠ .running) :
    RunFits g outcome { s with phase } :=
  ⟨hstates.of_tracker rfl, htasks.of_eq (fun _ => .rfl) (fun _ => .rfl) (fun _ => .rfl) rfl rfl,
    ⟨houtcomes.pending, houtcomes.completed, houtcomes.failed⟩,
    fun hc => ⟨(hreport hc).cancelled, (hreport hc).success⟩, hreturned⟩

/-- A node that has finished is a running one. -/
theorem TasksFit.running_of_lookup (h : TasksFit g s) {task : Option GraphNodeResult}
    (htask : s.activeTasks.lookup id = some task) : s.state id = .running :=
  (h.tasks id).mp (AList.lookup_isSome.mp (by rw [htask]; rfl))

/-- A task that is taken off changes no other outcome. -/
theorem pending_erase (h : OutcomesFit outcome s) :
    ∀ n res, (s.activeTasks.erase id).lookup n = some (some res) → res = outcome n :=
  fun n res hn => h.pending n res (KeyedMap.lookup_of_lookup_erase hn)

/-- Marking the remaining nodes. -/
theorem RunFits.cancelRemaining (h : RunFits g outcome s) {phase : Phase}
    (hcancel : s.cancelRequested = true) (hqueue : s.phase.queue = []) (hqueue' : phase.queue = [])
    (hphase : phase ≠ .returned) : RunFits g outcome { s.cancelRemaining g with phase } := by
  have hstates := h.states
  rw [hqueue] at hstates
  have hkept : ∀ n (st : GraphNodeState), st = .running ∨ st = .completed ∨ st = .failed →
      ((s.cancelRemaining g).state n = st ↔ s.state n = st) := by
    rintro n st (rfl | rfl | rfl) <;> exact state_cancelRemaining_iff (by decide)
      (by decide) (by decide)
  refine .with_phase (hqueue' ▸ hstates.cancelRemaining) ?_ ⟨h.outcomes.pending, ?_, ?_⟩ ?_
    fun heq => absurd heq hphase
  · refine h.tasks.of_eq (fun n => hkept n _ (.inl rfl)) (fun n => ?_) (fun _ => .rfl) rfl rfl
    unfold Started
    rw [hkept n _ (.inl rfl), hkept n _ (.inr (.inl rfl)), hkept n _ (.inr (.inr rfl))]
  · exact fun n hn => h.outcomes.completed n ((hkept n _ (.inr (.inl rfl))).mp hn)
  · exact fun n hn => h.outcomes.failed n ((hkept n _ (.inr (.inr rfl))).mp hn)
  · intro hfalse
    cases hcancel.symm.trans hfalse

/-- Starting a node. -/
theorem RunFits.start (h : RunFits g outcome s) {phase : Phase} (hready : s.state id = .ready)
    (havailable : checkResourceAvailable (g.resourceOf id) s.activeResources)
    (hqueue : s.phase.queue = []) (hqueue' : phase.queue = []) (hphase : phase ≠ .returned) :
    RunFits g outcome { s.start g id with phase } := by
  have hstates := h.states
  rw [hqueue] at hstates
  have hkept : ∀ n (st : GraphNodeState), st ≠ .ready → st ≠ .running →
      ((s.start g id).state n = st ↔ s.state n = st) := by
    intro n st hr hrun
    rw [state_start]
    split
    next heq => rw [heq, hready]; exact iff_of_false hrun.symm hr.symm
    next => rfl
  refine .with_phase (hqueue' ▸ hstates.start hready) (h.tasks.start hready havailable)
    ⟨?_, ?_, ?_⟩ ?_
    fun heq => absurd heq hphase
  · intro n res hn
    have hn : (s.activeTasks.insert id none).lookup n = some (some res) := hn
    rw [KeyedMap.lookup_insert_eq_ite] at hn
    split at hn
    next => cases hn
    next => exact h.outcomes.pending n res hn
  · exact fun n hn => h.outcomes.completed n ((hkept n _ (by decide) (by decide)).mp hn)
  · exact fun n hn => h.outcomes.failed n ((hkept n _ (by decide) (by decide)).mp hn)
  · intro hcancel
    obtain ⟨hcancelled, hsuccess⟩ := h.report hcancel
    refine ⟨fun n hn => hcancelled n ((hkept n _ (by decide) (by decide)).mp hn), hsuccess.trans ?_⟩
    exact forall_congr' fun n => not_congr (hkept n _ (by decide) (by decide)).symm

/-- Collecting a node that has succeeded. -/
theorem RunFits.complete (h : RunFits g outcome s) (hg : g.WellFormed)
    (hself : id ∉ g.getSuccessors id)
    {phase : Phase} {res : GraphNodeResult} (htask : s.activeTasks.lookup id = some (some res))
    (hsuccess : res.success = true) (hqueue : s.phase.queue = []) (hqueue' : phase.queue = [])
    (hphase : phase ≠ .returned) : RunFits g outcome { s.complete g id with phase } := by
  have hstates := h.states
  rw [hqueue] at hstates
  have hrunning := h.tasks.running_of_lookup htask
  have hdone : (s.complete g id).state id = .completed := state_complete_self hg hself
  -- a completion moves other nodes from `created` to `ready` only
  have hkept : ∀ n ≠ id, ∀ st : GraphNodeState, st ≠ .created → st ≠ .ready →
      ((s.complete g id).state n = st ↔ s.state n = st) :=
    fun n hne st => state_complete_iff hg hself hne
  have hall : ∀ n (st : GraphNodeState),
    st ≠ .created → st ≠ .ready → st ≠ .running → st ≠ .completed →
      ((s.complete g id).state n = st ↔ s.state n = st) := by
    intro n st hcr hre hrun hcomp
    by_cases hne : n = id
    · rw [hne, hdone, hrunning]
      exact iff_of_false hcomp.symm hrun.symm
    · exact hkept n hne st hcr hre
  refine .with_phase (hqueue' ▸ hstates.complete hg hself hrunning) ?_
    ⟨pending_erase h.outcomes, ?_, ?_⟩ ?_ fun heq => absurd heq hphase
  · -- the task of the node is collected
    refine h.tasks.collect hrunning (fun n => ?_) (fun n => ?_) rfl rfl rfl
    · by_cases hne : n = id
      · simp [hne, hdone]
      · simp [hne, hkept n hne]
    · by_cases hne : n = id
      · simp [hne, Started, hdone, hrunning]
      · simp [Started, hkept n hne]
  · intro n hn
    by_cases hne : n = id
    · rw [hne, ← h.outcomes.pending id res htask]
      exact hsuccess
    · exact h.outcomes.completed n ((hkept n hne _ (by decide) (by decide)).mp hn)
  · exact fun n hn => h.outcomes.failed n
      ((hall n _ (by decide) (by decide) (by decide) (by decide)).mp hn)
  · intro hcancel
    obtain ⟨hcancelled, hreport⟩ := h.report hcancel
    refine ⟨fun n hn =>
      hcancelled n ((hall n _ (by decide) (by decide) (by decide) (by decide)).mp hn),
      hreport.trans ?_⟩
    exact forall_congr' fun n =>
      not_congr (hall n _ (by decide) (by decide) (by decide) (by decide)).symm

/-- Collecting a node that has failed. -/
theorem RunFits.fail (h : RunFits g outcome s) (hg : g.WellFormed) {phase : Phase}
    {res : GraphNodeResult} (htask : s.activeTasks.lookup id = some (some res))
    (hfails : res.success = false) (hqueue : s.phase.queue = [])
    (hqueue' : phase.queue = g.getSuccessors id) (hphase : phase ≠ .returned) :
    RunFits g outcome { s.fail g id res.errorMessage with phase } := by
  have hstates := h.states
  rw [hqueue] at hstates
  have hrunning := h.tasks.running_of_lookup htask
  have hfailed : (s.fail g id res.errorMessage).state id = .failed := by rw [state_fail, if_pos rfl]
  have hother : ∀ {n}, n ≠ id → (s.fail g id res.errorMessage).state n = s.state n :=
    fun hne => by rw [state_fail, if_neg hne]
  refine .with_phase (hqueue' ▸ hstates.fail hg hrunning res.errorMessage) ?_
    ⟨pending_erase h.outcomes, ?_, ?_⟩ ?_ fun heq => absurd heq hphase
  · refine h.tasks.collect hrunning (fun n => ?_) (fun n => ?_) rfl rfl rfl
    · by_cases hne : n = id
      · simp [hne, hfailed]
      · simp [hne, hother hne]
    · by_cases hne : n = id
      · simp [hne, Started, hfailed, hrunning]
      · simp [Started, hother hne]
  · intro n hn
    by_cases hne : n = id
    · rw [hne, hfailed] at hn
      cases hn
    · exact h.outcomes.completed n (hother hne ▸ hn)
  · intro n hn
    by_cases hne : n = id
    · rw [hne, ← h.outcomes.pending id res htask]
      exact hfails
    · exact h.outcomes.failed n (hother hne ▸ hn)
  · intro hcancel
    obtain ⟨hcancelled, -⟩ := h.report hcancel
    refine ⟨fun n hn => ?_, iff_of_false Bool.false_ne_true fun hnone => hnone id hfailed⟩
    by_cases hne : n = id
    · rw [hne, hfailed] at hn
      cases hn
    · exact hcancelled n (hother hne ▸ hn)

/-- Blocking a node. -/
theorem RunFits.block (h : RunFits g outcome s) (hg : g.WellFormed) {phase : Phase} {queue : List ℕ}
    {reason : String} (hwaiting : s.Waiting id) (hqueue : s.phase.queue = id :: queue)
    (hqueue' : phase.queue = queue ++ g.getSuccessors id) (hphase : phase ≠ .returned) :
    RunFits g outcome { s.block id reason with phase } := by
  have hstates := h.states
  rw [hqueue] at hstates
  have hkept : ∀ n (st : GraphNodeState), st ≠ .created → st ≠ .ready → st ≠ .blocked →
      ((s.block id reason).state n = st ↔ s.state n = st) := by
    intro n st hcr hre hbl
    rw [state_block]
    split
    next heq =>
      refine iff_of_false hbl.symm ?_
      rintro rfl
      rw [heq] at hcr hre
      exact hwaiting.elim hcr hre
    next => rfl
  refine .with_phase (hqueue' ▸ hstates.block hg hwaiting reason) ?_ ⟨h.outcomes.pending, ?_, ?_⟩ ?_
    fun heq => absurd heq hphase
  · refine h.tasks.of_eq (fun n => hkept n _ (by decide) (by decide) (by decide)) (fun n => ?_)
      (fun _ => .rfl) rfl rfl
    unfold Started
    rw [hkept n _ (by decide) (by decide) (by decide),
      hkept n _ (by decide) (by decide) (by decide),
      hkept n _ (by decide) (by decide) (by decide)]
  · exact fun n hn => h.outcomes.completed n
      ((hkept n _ (by decide) (by decide) (by decide)).mp hn)
  · exact fun n hn => h.outcomes.failed n ((hkept n _ (by decide) (by decide) (by decide)).mp hn)
  · intro hcancel
    obtain ⟨hcancelled, hreport⟩ := h.report hcancel
    refine ⟨fun n hn => hcancelled n ((hkept n _ (by decide) (by decide) (by decide)).mp hn),
      hreport.trans ?_⟩
    exact forall_congr' fun n => not_congr (hkept n _ (by decide) (by decide) (by decide)).symm

/-- The steps of the thread keep the invariant. -/
theorem RunFits.tick (h : RunFits g outcome s) (hg : g.WellFormed)
    (hself : ∀ n, n ∉ g.getSuccessors n) (hstep : s.tick g = some s') : RunFits g outcome s' := by
  cases tick_cases hstep with
  | moved hqueue hreturned =>
    exact .with_phase (hqueue ▸ h.states) h.tasks h.outcomes h.report hreturned
  | cancelled hcancel hqueue hqueue' hphase => exact h.cancelRemaining hcancel hqueue hqueue' hphase
  | started hready havailable hqueue hqueue' hphase =>
    exact h.start hready havailable hqueue hqueue' hphase
  | completed htask hsuccess hqueue hqueue' hphase =>
    exact h.complete hg (hself _) htask hsuccess hqueue hqueue' hphase
  | failed htask hfails hqueue hqueue' hphase => exact h.fail hg htask hfails hqueue hqueue' hphase
  | blocked hwaiting hqueue hqueue' hphase => exact h.block hg hwaiting hqueue hqueue' hphase
  | skipped hwaiting hqueue hqueue' hphase =>
    have hstates := h.states
    rw [hqueue] at hstates
    exact .with_phase (hqueue' ▸ hstates.skip hwaiting) h.tasks h.outcomes h.report
      fun heq => absurd heq hphase

/-- At first the nodes without predecessors are ready. -/
theorem state_initial (g : ExecutionGraph Op) (n : ℕ) : (ExecuteState.initial g).state n =
    if n ∈ g.nodes ∧ (g.getPredecessors n).length = 0 then .ready else .created := by
  unfold state ExecuteState.initial
  dsimp only
  by_cases hn : n ∈ g.nodes <;> simp [hn]

/-- At first a node is as created, or ready. -/
theorem state_initial_ne {st : GraphNodeState} (hcreated : st ≠ .created) (hready : st ≠ .ready) :
    (ExecuteState.initial g).state id ≠ st := by
  rw [state_initial]
  split
  next => exact hready.symm
  next => exact hcreated.symm

theorem not_broken_initial : ¬ (ExecuteState.initial g).Broken id := by
  rintro (hfailed | hblocked)
  · exact state_initial_ne (by decide) (by decide) hfailed
  · exact state_initial_ne (by decide) (by decide) hblocked

theorem not_started_initial : ¬ (ExecuteState.initial g).Started id := by
  rintro (hrunning | hcompleted | hfailed)
  · exact state_initial_ne (by decide) (by decide) hrunning
  · exact state_initial_ne (by decide) (by decide) hcompleted
  · exact state_initial_ne (by decide) (by decide) hfailed

/-- At first a node waits for all its predecessors. -/
theorem inDegree_initial (hid : id ∈ g.nodes) :
    ((ExecuteState.initial g).tracker id).inDegree = (g.getPredecessors id).length := by
  unfold ExecuteState.initial
  dsimp only
  rw [if_pos hid]

theorem StatesFit.initial (g : ExecutionGraph Op) : StatesFit g (ExecuteState.initial g) [] := by
  refine ⟨?ready, ?degree, ?created, ?blocks, ?blocked, ?cancelled, ?skipped, ?outside⟩
  case ready =>
    -- a node that is ready has no predecessors
    intro n hn p hp
    have hready := hn.resolve_right not_started_initial
    rw [state_initial] at hready
    split at hready
    next hnone =>
      rw [List.length_eq_zero_iff.mp hnone.2] at hp
      cases hp
    next => cases hready
  case degree =>
    intro n hn
    rw [inDegree_initial hn, List.countP_eq_length.mpr]
    intro p _
    exact decide_eq_true (state_initial_ne (by decide) (by decide))
  case created =>
    intro n hn hcreated hzero
    rw [inDegree_initial hn] at hzero
    rw [state_initial, if_pos ⟨hn, by simpa using hzero⟩] at hcreated
    cases hcreated
  case blocks => exact fun p hp => absurd hp not_broken_initial
  case blocked =>
    rintro n (hn | hn)
    · exact absurd (.inr hn) not_broken_initial
    · cases hn
  case cancelled => exact fun p hp => absurd hp (state_initial_ne (by decide) (by decide))
  case skipped => exact fun n => state_initial_ne (by decide) (by decide)
  case outside =>
    intro n hn
    rw [state_initial, if_neg fun hready => hn hready.1]

theorem TasksFit.initial (g : ExecutionGraph Op) : TasksFit g (ExecuteState.initial g) := by
  have hrunning : ∀ n, (ExecuteState.initial g).state n ≠ .running :=
    fun n => state_initial_ne (by decide) (by decide)
  refine ⟨?tasks, ?busy, ?free, ?exclusive, ?starts⟩
  case tasks => exact fun n => iff_of_false (AList.notMem_empty n) (hrunning n)
  case busy => exact fun n hn => absurd hn (hrunning n)
  case free => exact fun _ _ _ => rfl
  case exclusive => exact fun n _ hn => absurd hn (hrunning n)
  case starts => exact fun n => iff_of_false List.not_mem_nil not_started_initial

theorem OutcomesFit.initial (g : ExecutionGraph Op) (outcome : ℕ → GraphNodeResult) :
    OutcomesFit outcome (ExecuteState.initial g) where
  pending _ _ h := nomatch h
  completed _ h := absurd h (state_initial_ne (by decide) (by decide))
  failed _ h := absurd h (state_initial_ne (by decide) (by decide))

/-- There is nothing to report at first. -/
theorem ReportFits.initial (g : ExecutionGraph Op) : ReportFits (ExecuteState.initial g) where
  cancelled _ := state_initial_ne (by decide) (by decide)
  success := iff_of_true rfl fun _ => state_initial_ne (by decide) (by decide)

theorem RunFits.initial (g : ExecutionGraph Op) (outcome : ℕ → GraphNodeResult) :
    RunFits g outcome (ExecuteState.initial g) where
  states := StatesFit.initial g
  tasks := TasksFit.initial g
  outcomes := OutcomesFit.initial g outcome
  report _ := ReportFits.initial g
  returned h := nomatch h

/-- A node that finishes, or a request to cancel. -/
theorem RunFits.step (h : RunFits g outcome s) (hg : g.WellFormed)
    (hself : ∀ n, n ∉ g.getSuccessors n) {event : Event} (hanswers : Answers outcome s event)
    (hstep : s.step g event = some s') : RunFits g outcome s' := by
  cases event with
  | requestCancel =>
    cases hstep
    exact ⟨h.states.of_tracker rfl,
      h.tasks.of_eq (fun _ => .rfl) (fun _ => .rfl) (fun _ => .rfl) rfl rfl,
      ⟨h.outcomes.pending, h.outcomes.completed, h.outcomes.failed⟩, fun hc => (by cases hc),
      h.returned⟩
  | finish id res =>
    unfold ExecuteState.step at hstep
    dsimp only at hstep
    split at hstep
    next htask =>
      cases hstep
      have hmem : id ∈ s.activeTasks := AList.lookup_isSome.mp (by rw [htask]; rfl)
      refine ⟨h.states.of_tracker rfl,
        h.tasks.of_eq (fun _ => .rfl) (fun _ => .rfl) (fun n => ?_) rfl rfl,
        ⟨?_, h.outcomes.completed, h.outcomes.failed⟩,
        fun hc => ⟨(h.report hc).cancelled, (h.report hc).success⟩, h.returned⟩
      · rw [AList.mem_insert]
        exact or_iff_right_of_imp fun heq => heq ▸ hmem
      · intro n res' hn
        dsimp only at hn
        rw [KeyedMap.lookup_insert_eq_ite] at hn
        split at hn
        next heq =>
          cases hn
          rw [heq]
          exact hanswers
        next => exact h.outcomes.pending n res' hn
    next => cases hstep
  | tick => exact h.tick hg hself hstep

/-! ## Starts and final states -/

/-- A step that starts a node does so at most once, behind its predecessors, and with its exclusive
resource for itself. -/
def StartsSafely (g : ExecutionGraph Op) (s s' : ExecuteState) : Prop :=
  s'.starts = s.starts ∨
    ∃ n, s'.starts = n :: s.starts ∧ n ∉ s.starts ∧
      (∀ p ∈ g.getPredecessors n, s.state p = .completed) ∧
      ((g.resourceOf n).Exclusive → ∀ m ∈ s.activeTasks, g.resourceOf m ≠ g.resourceOf n)

/-- Every step starts nodes safely. -/
theorem RunFits.startsSafely (h : RunFits g outcome s) {event : Event}
    (hstep : s.step g event = some s') : StartsSafely g s s' := by
  cases event with
  | requestCancel =>
    cases hstep
    exact .inl rfl
  | finish id res =>
    unfold ExecuteState.step at hstep
    dsimp only at hstep
    split at hstep
    next =>
      cases hstep
      exact .inl rfl
    next => cases hstep
  | tick =>
    cases tick_cases hstep with
    | @started id _ hready havailable =>
      refine .inr ⟨id, rfl, ?_, h.states.ready id (.inl hready), fun hexclusive m hm => ?_⟩
      · rw [h.tasks.starts, Started, hready]
        decide
      · exact h.tasks.not_running havailable hexclusive m ((h.tasks.tasks m).mp hm)
    | _ => exact .inl rfl

/-- A path of dependencies leads from a node to another. -/
def Ancestor (g : ExecutionGraph Op) : ℕ → ℕ → Prop :=
  Relation.TransGen fun n m => m ∈ g.getSuccessors n

/-- The states of the nodes when `execute` returns. -/
structure FinalStates (g : ExecutionGraph Op) (outcome : ℕ → GraphNodeResult) (s : ExecuteState) :
    Prop where
  ended : ∀ n ∈ g.nodes, s.state n ≠ .created ∧ s.state n ≠ .ready ∧ s.state n ≠ .running
  completed : s.cancelRequested = false → ∀ n ∈ g.nodes,
    (s.state n = .completed ↔
      (outcome n).success ∧ ∀ a, Ancestor g a n → (outcome a).success)
  blocked : s.cancelRequested = false → ∀ n ∈ g.nodes,
    (s.state n = .blocked ↔ ∃ a, Ancestor g a n ∧ s.state a = .failed)
  success : s.cancelRequested = false →
    ((s.result g).success ↔ ∀ n ∈ g.nodes, s.state n = .completed)

/-- A node that has not been started waits for one that has not completed. -/
theorem RunFits.not_created (h : RunFits g outcome s) (hg : g.WellFormed)
    (hwf : WellFounded fun n m => m ∈ g.getSuccessors n) (hreturned : s.phase = .returned) :
    ∀ n ∈ g.nodes, s.state n ≠ .created := by
  intro n
  induction n using hwf.induction with
  | _ n ih =>
  intro hn hcreated
  have hdegree := h.states.created n hn hcreated
  rw [h.states.degree n hn] at hdegree
  obtain ⟨p, hp, hincomplete⟩ : ∃ p ∈ g.getPredecessors n, s.state p ≠ .completed := by
    simpa using hdegree
  have hsucc : n ∈ g.getSuccessors p := (hg.inverse p n).mp hp
  have hpmem : p ∈ g.nodes := (hg.closed p n hsucc).1
  have hbroken : ¬ s.Broken p := by
    intro hbroken
    have hqueue : s.phase.queue = [] := by rw [hreturned]; rfl
    rcases h.states.blocks p hbroken n hsucc with hblocked | hcancelled | hmem
    · rw [hcreated] at hblocked
      cases hblocked
    · rw [hcreated] at hcancelled
      cases hcancelled
    · rw [hqueue] at hmem
      cases hmem
  have hp' := h.returned hreturned p hpmem
  cases hstate : s.state p with
  | created => exact ih p hsucc hpmem hstate
  | ready => exact hp'.1 hstate
  | running => exact hp'.2 hstate
  | completed => exact hincomplete hstate
  | failed => exact hbroken (.inl hstate)
  | blocked => exact hbroken (.inr hstate)
  | cancelled => exact h.states.cancelled p hstate n hn (.inl hcreated)
  | skipped => exact h.states.skipped p hstate

/-- The ancestors of a node that has completed have completed. -/
theorem RunFits.completed_ancestor (h : RunFits g outcome s) (hg : g.WellFormed) {a n : ℕ}
    (ha : Ancestor g a n) (hn : s.state n = .completed) : s.state a = .completed := by
  induction ha with
  | single hedge => exact h.states.ready _ (.inr (.inr (.inl hn))) a ((hg.inverse _ _).mpr hedge)
  | tail _ hedge ih =>
    exact ih (h.states.ready _ (.inr (.inr (.inl hn))) _ ((hg.inverse _ _).mpr hedge))

/-- A blocked node has a failed ancestor. -/
theorem RunFits.failed_ancestor (h : RunFits g outcome s) (hg : g.WellFormed)
    (hwf : WellFounded fun n m => m ∈ g.getSuccessors n) :
    ∀ n, s.state n = .blocked → ∃ a, Ancestor g a n ∧ s.state a = .failed := by
  intro n
  induction n using hwf.induction with
  | _ n ih =>
  intro hblocked
  obtain ⟨p, hp, hbroken⟩ := h.states.blocked n (.inl hblocked)
  have hsucc : n ∈ g.getSuccessors p := (hg.inverse p n).mp hp
  rcases hbroken with hfailed | hblocked'
  · exact ⟨p, .single hsucc, hfailed⟩
  · obtain ⟨a, ha, hfailed⟩ := ih p hsucc hblocked'
    exact ⟨a, ha.tail hsucc, hfailed⟩

/-- What depends on a failed node is blocked in the end. -/
theorem RunFits.blocked_of_ancestor (h : RunFits g outcome s) (hqueue : s.phase.queue = [])
    (hcancel : s.cancelRequested = false) {a n : ℕ} (ha : Ancestor g a n)
    (hfailed : s.state a = .failed) : s.state n = .blocked := by
  have hnext : ∀ p m, s.Broken p → m ∈ g.getSuccessors p → s.state m = .blocked := by
    intro p m hbroken hm
    rcases h.states.blocks p hbroken m hm with hblocked | hcancelled | hmem
    · exact hblocked
    · exact absurd hcancelled ((h.report hcancel).cancelled m)
    · rw [hqueue] at hmem
      cases hmem
  induction ha with
  | single hedge => exact hnext a _ (.inl hfailed) hedge
  | tail _ hedge ih => exact hnext _ _ (.inr ih) hedge

theorem success_result : (s.result g).success = true ↔ s.overallSuccess = true ∧
    ∀ n ∈ g.nodes, s.state n = .completed ∨ s.state n = .skipped ∨ s.state n = .cancelled := by
  simp [ExecuteState.result, ExecutionGraph.getAllNodeIds, or_assoc]

/-- In a fitting state that has returned, every node is in its final state. -/
theorem RunFits.finalStates (h : RunFits g outcome s) (hg : g.WellFormed)
    (hwf : WellFounded fun n m => m ∈ g.getSuccessors n) (hreturned : s.phase = .returned) :
    FinalStates g outcome s := by
  have hcreated := h.not_created hg hwf hreturned
  have hqueue : s.phase.queue = [] := by rw [hreturned]; rfl
  refine ⟨fun n hn => ⟨hcreated n hn, h.returned hreturned n hn⟩, ?_, ?_, ?_⟩
  · intro hcancel n hn
    refine ⟨fun hcompleted => ⟨h.outcomes.completed n hcompleted, fun a ha =>
      h.outcomes.completed a (h.completed_ancestor hg ha hcompleted)⟩, ?_⟩
    rintro ⟨hself, hancestors⟩
    cases hstate : s.state n with
    | completed => rfl
    | created => exact absurd hstate (hcreated n hn)
    | ready => exact absurd hstate (h.returned hreturned n hn).1
    | running => exact absurd hstate (h.returned hreturned n hn).2
    | failed => cases (h.outcomes.failed n hstate).symm.trans hself
    | blocked =>
      obtain ⟨a, ha, hfailed⟩ := h.failed_ancestor hg hwf n hstate
      cases (h.outcomes.failed a hfailed).symm.trans (hancestors a ha)
    | cancelled => exact absurd hstate ((h.report hcancel).cancelled n)
    | skipped => exact absurd hstate (h.states.skipped n)
  · intro hcancel n _
    refine ⟨h.failed_ancestor hg hwf n, ?_⟩
    rintro ⟨a, ha, hfailed⟩
    exact h.blocked_of_ancestor hqueue hcancel ha hfailed
  · intro hcancel
    obtain ⟨hcancelled, hsuccess⟩ := h.report hcancel
    rw [success_result]
    constructor
    · rintro ⟨-, hfinished⟩ n hn
      rcases hfinished n hn with hcompleted | hskipped | hcancelled'
      · exact hcompleted
      · exact absurd hskipped (h.states.skipped n)
      · exact absurd hcancelled' (hcancelled n)
    · intro hall
      refine ⟨hsuccess.mpr fun n hfailed => ?_, fun n hn => .inl (hall n hn)⟩
      have hn : n ∈ g.nodes := h.states.mem_nodes (by rw [hfailed]; decide)
      rw [hall n hn] at hfailed
      cases hfailed

/-- The invariant of every run on a graph without cycles. -/
theorem runFits_of_reachable (hg : g.WellFormed) (hself : ∀ n, n ∉ g.getSuccessors n)
    (h : (system g).Reachable (Answers outcome) s) : RunFits g outcome s := by
  refine h.invariant (P := RunFits g outcome) ?_ fun s event s' hs hanswers hstep =>
    hs.step hg hself hanswers hstep
  rintro s rfl
  exact .initial g outcome

/-- **The graph scheduler.** On a graph that is built with `addNode` and `addDependency` and passes
`validate`, nodes start safely in every run, and when `execute` returns their states are final. -/
theorem scheduler_of_reachable (hbuilt : g.Built) {order : Traversal ℕ} {text : String}
    (hvalid : g.validate order = some (true, text))
    (h : (system g).Reachable (Answers outcome) s) :
    (∀ event s', (system g).Step s event s' → StartsSafely g s s') ∧
      (s.phase = .returned → FinalStates g outcome s) := by
  have hg := hbuilt.wellFormed
  have hwf := ExecutionGraph.wellFounded_of_validate hg hvalid
  have hself : ∀ n, n ∉ g.getSuccessors n := fun n hn => hwf.irrefl.irrefl n hn
  have hrun := runFits_of_reachable hg hself h
  exact ⟨fun event s' hstep => hrun.startsSafely hstep, hrun.finalStates hg hwf⟩

/-! ### A sample run -/

instance (outcome : ℕ → GraphNodeResult) (s : ExecuteState) (event : Event) :
    Decidable (Answers outcome s event) := by
  unfold Answers
  split <;> infer_instance

/-- The state after an event; where the step is not possible, nothing changes. -/
def ExecuteState.next (g : ExecutionGraph Op) (s : ExecuteState) (event : Event) : ExecuteState :=
  (s.step g event).getD s

/-- `execute` after a list of events. -/
def runEvents (g : ExecutionGraph Op) (events : List Event) : ExecuteState :=
  events.foldl (ExecuteState.next g) (ExecuteState.initial g)

/-- A list of events that are possible leads to a reachable state. -/
theorem reachable_runEvents {guard : ExecuteState → Event → Prop} {events : List Event}
    (h : TransitionSystem.Along (fun s event => guard s event ∧ (s.step g event).isSome)
      (ExecuteState.next g) (ExecuteState.initial g) events) :
    (system g).Reachable guard (runEvents g events) := by
  have hinit : (system g).Reachable guard (ExecuteState.initial g) := .init rfl
  refine hinit.foldl (fun s event hevent => ⟨hevent.1, ?_⟩) h
  obtain ⟨s', hs'⟩ := Option.isSome_iff_exists.mp hevent.2
  show s.step g event = some (s.next g event)
  rw [ExecuteState.next, hs', Option.getD_some]

/-- Two nodes that use the same accelerator, and one that depends on both. -/
def sampleGraph : ExecutionGraph Unit :=
  let node (id : ℕ) (resource : ExecutionResource) : Option (IExecutionNode Unit) :=
    some { id, name := "node", type := .custom, resource, op := () }
  let g := ((({} : ExecutionGraph Unit).addNode (node 1 .vulkan)).2.addNode (node 2 .vulkan)).2
  (((g.addNode (node 3 .none)).2.addDependency 1 3).2.addDependency 2 3).2

theorem built_sampleGraph : sampleGraph.Built :=
  ((((ExecutionGraph.Built.empty.addNode _).addNode _).addNode _).addDependency 1 3).addDependency
    2 3

/-- The second node fails. -/
def sampleOutcome (id : ℕ) : GraphNodeResult :=
  if id = 2 then { errorMessage := "out of memory" } else { success := true }

/-- The events of a run of the sample graph: its first node succeeds, its second one fails. -/
def sampleEvents : List Event :=
  List.replicate 7 .tick ++ [.finish 1 (sampleOutcome 1)] ++ List.replicate 8 .tick ++
    [.finish 2 (sampleOutcome 2)] ++ List.replicate 11 .tick

/-- In the sample run two nodes start, the second one fails, and the third one stays blocked. -/
theorem scheduler_sampleEvents :
    (runEvents sampleGraph sampleEvents).starts = [2, 1] ∧
      (runEvents sampleGraph sampleEvents).state 3 = .blocked ∧
      FinalStates sampleGraph sampleOutcome (runEvents sampleGraph sampleEvents) := by
  have hvalid : sampleGraph.validate .stored = some (true, "") := by decide +kernel
  exact ⟨by decide +kernel, by decide +kernel,
    (scheduler_of_reachable built_sampleGraph hvalid (reachable_runEvents (by decide +kernel))).2
      (by decide +kernel)⟩

end HeteroAccel.Execution
