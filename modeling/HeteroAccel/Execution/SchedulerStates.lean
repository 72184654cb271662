import HeteroAccel.Execution.ExecutionGraphScheduler

/-!
# The states of nodes while a graph is executed

The invariant of the node states: started nodes have complete predecessors, the counts of incomplete
predecessors are right, and what depends on a failed node is blocked or in the queue of
`failDependentNodes`.

## Main definitions

* `TickCase`: the steps of the thread, by what they change;
* `StatesFit`: the invariant, and `StatesFit.start`, `complete`, `fail`, `block`, `cancelRemaining`:
  its preservation.
-/

namespace HeteroAccel.Execution

variable {Op : Type*} {g : ExecutionGraph Op}

/-- The queue of `failDependentNodes`. -/
def Phase.queue : Phase → List ℕ
  | .propagate queue _ _ => queue
  | _ => []

namespace ExecuteState

variable {s s' : ExecuteState} {id n : ℕ}

/-- What a step of the thread changes, besides where it is. -/
inductive TickCase (g : ExecutionGraph Op) (s : ExecuteState) : ExecuteState → Prop where
  | moved {phase : Phase} (hqueue : phase.queue = s.phase.queue)
      (hreturned : phase = .returned →
        ∀ n ∈ g.nodes, s.state n ≠ .ready ∧ s.state n ≠ .running) :
      TickCase g s { s with phase }
  | cancelled {phase : Phase} (hcancel : s.cancelRequested = true) (hqueue : s.phase.queue = [])
      (hqueue' : phase.queue = []) (hphase : phase ≠ .returned) :
      TickCase g s { s.cancelRemaining g with phase }
  | started {id : ℕ} {phase : Phase} (hready : s.state id = .ready)
      (havailable : checkResourceAvailable (g.resourceOf id) s.activeResources)
      (hqueue : s.phase.queue = []) (hqueue' : phase.queue = []) (hphase : phase ≠ .returned) :
      TickCase g s { s.start g id with phase }
  | completed {id : ℕ} {res : GraphNodeResult} {phase : Phase}
      (htask : s.activeTasks.lookup id = some (some res)) (hsuccess : res.success = true)
      (hqueue : s.phase.queue = []) (hqueue' : phase.queue = []) (hphase : phase ≠ .returned) :
      TickCase g s { s.complete g id with phase }
  | failed {id : ℕ} {res : GraphNodeResult} {phase : Phase}
      (htask : s.activeTasks.lookup id = some (some res)) (hfails : res.success = false)
      (hqueue : s.phase.queue = []) (hqueue' : phase.queue = g.getSuccessors id)
      (hphase : phase ≠ .returned) : TickCase g s { s.fail g id res.errorMessage with phase }
  | blocked {id : ℕ} {queue : List ℕ} {reason : String} {phase : Phase} (hwaiting : s.Waiting id)
      (hqueue : s.phase.queue = id :: queue) (hqueue' : phase.queue = queue ++ g.getSuccessors id)
      (hphase : phase ≠ .returned) : TickCase g s { s.block id reason with phase }
  /-- A node of the queue that no longer waits. -/
  | skipped {id : ℕ} {queue : List ℕ} {phase : Phase} (hwaiting : ¬ s.Waiting id)
      (hqueue : s.phase.queue = id :: queue) (hqueue' : phase.queue = queue)
      (hphase : phase ≠ .returned) : TickCase g s { s with phase }

/-- The steps of the thread, by what they change. -/
theorem tick_cases (h : s.tick g = some s') : TickCase g s s' := by
  unfold tick at h
  split at h
  -- at the check for cancellation
  next hphase =>
    split at h
    next hcancel =>
      cases h
      exact .cancelled hcancel (by rw [hphase]; rfl) rfl (by simp)
    next =>
      cases h
      exact .moved (by rw [hphase]; rfl) (by simp)
  -- dispatching
  next id rest hphase =>
    split at h
    next hstart =>
      cases h
      exact .started hstart.1 hstart.2.2 (by rw [hphase]; rfl) rfl (by simp)
    next =>
      cases h
      exact .moved (by rw [hphase]; rfl) (by simp)
  next hphase =>
    split at h <;>
    · cases h
      exact .moved (by rw [hphase]; rfl) (by simp)
  -- waiting for tasks
  next id rest finished hphase =>
    split at h
    next res hready =>
      split at h
      next hsuccess =>
        cases h
        exact .completed hready hsuccess (by rw [hphase]; rfl) rfl (by simp)
      next hfails =>
        cases h
        exact .failed hready (Bool.eq_false_iff.mpr hfails) (by rw [hphase]; rfl) rfl (by simp)
    next =>
      cases h
      exact .moved (by rw [hphase]; rfl) (by simp)
  next finished hphase =>
    split at h <;>
    · cases h
      exact .moved (by rw [hphase]; rfl) (by simp)
  -- in `failDependentNodes`
  next curr queue reason rest hphase =>
    split at h
    next hwaiting =>
      cases h
      exact .blocked hwaiting (by rw [hphase]; rfl) rfl (by simp)
    next hwaiting =>
      cases h
      exact .skipped hwaiting (by rw [hphase]; rfl) rfl (by simp)
  next reason rest hphase =>
    cases h
    exact .moved (by rw [hphase]; rfl) (by simp)
  -- asking whether any node is left
  next active hphase =>
    split at h
    next =>
      cases h
      exact .moved (by rw [hphase]; rfl) (by simp)
    next hidle =>
      cases h
      refine .moved (by rw [hphase]; rfl) fun _ n hn => ?_
      rw [not_or, not_exists] at hidle
      exact not_or.mp fun hn' => hidle.2 n ⟨mem_sortedKeys.mpr hn, hn'⟩
  next => cases h

/-! ## States after a step -/

@[simp]
theorem state_with_phase (phase : Phase) :
    ({ s with phase } : ExecuteState).state n = s.state n := rfl

/-- A start changes the state of the node that starts. -/
theorem state_start : (s.start g id).state n = if n = id then .running else s.state n := by
  unfold state start
  dsimp only
  rw [Function.update_apply]
  split <;> rfl

/-- A failure changes the state of the node that fails. -/
theorem state_fail (error : String) :
    (s.fail g id error).state n = if n = id then .failed else s.state n := by
  unfold state fail
  dsimp only
  rw [Function.update_apply]
  split <;> rfl

theorem state_block (reason : String) :
    (s.block id reason).state n = if n = id then .blocked else s.state n := by
  unfold state block
  dsimp only
  rw [Function.update_apply]
  split <;> rfl

/-- A cancellation ends the nodes that are waiting. -/
theorem state_cancelRemaining : (s.cancelRemaining g).state n =
    if n ∈ g.nodes ∧ s.Waiting n then .cancelled else s.state n := by
  unfold state cancelRemaining
  dsimp only
  split <;> rfl

/-- What `release` does to a successor. -/
def released (t : NodeStateTracker) : NodeStateTracker :=
  { t with
    inDegree := t.inDegree - 1
    state := if t.inDegree - 1 = 0 ∧ t.state = .created then .ready else t.state }

theorem foldl_release {l : List ℕ} (hl : l.Nodup) (tracker : ℕ → NodeStateTracker) (n : ℕ) :
    l.foldl release tracker n = if n ∈ l then released (tracker n) else tracker n := by
  induction l generalizing tracker with
  | nil => rfl
  | cons m l ih =>
    obtain ⟨hm, hl⟩ := List.nodup_cons.mp hl
    have hrelease : release tracker m = Function.update tracker m (released (tracker m)) := rfl
    rw [List.foldl_cons, ih hl, hrelease]
    by_cases heq : n = m
    · rw [heq, if_neg hm, if_pos List.mem_cons_self, Function.update_self]
    · rw [Function.update_of_ne heq]
      simp [heq]

/-- The tracker of a node after one has completed. -/
theorem tracker_complete (hg : g.WellFormed) (hself : id ∉ g.getSuccessors id) :
    (s.complete g id).tracker n =
      if n = id then { s.tracker id with state := .completed }
      else if n ∈ g.getSuccessors id then released (s.tracker n) else s.tracker n := by
  unfold complete
  dsimp only
  rw [foldl_release (hg.successors_nodup id)]
  by_cases heq : n = id
  · rw [heq, if_neg hself, if_pos rfl, Function.update_self]
  · rw [Function.update_of_ne heq, if_neg heq]

/-- States that nodes neither leave nor enter by a cancellation. -/
theorem state_cancelRemaining_iff {st : GraphNodeState} (hcreated : st ≠ .created)
    (hready : st ≠ .ready)
    (hcancelled : st ≠ .cancelled) : (s.cancelRemaining g).state n = st ↔ s.state n = st := by
  rw [state_cancelRemaining]
  split
  next hwaiting =>
    refine iff_of_false (Ne.symm hcancelled) ?_
    rintro rfl
    exact hwaiting.2.elim hcreated hready
  next => rfl

theorem state_complete_self (hg : g.WellFormed) (hself : id ∉ g.getSuccessors id) :
    (s.complete g id).state id = .completed := by
  rw [state, tracker_complete hg hself, if_pos rfl]

/-- A completion makes those successors ready that wait for nothing else. -/
theorem state_complete_of_ne (hg : g.WellFormed) (hself : id ∉ g.getSuccessors id) (hne : n ≠ id) :
    (s.complete g id).state n =
      if n ∈ g.getSuccessors id ∧ (s.tracker n).inDegree - 1 = 0 ∧ s.state n = .created then .ready
      else s.state n := by
  rw [state, tracker_complete hg hself, if_neg hne]
  by_cases hn : n ∈ g.getSuccessors id
  · simp [hn, released, state]
  · simp [hn, state]

/-- States that no other node leaves or enters when one completes. -/
theorem state_complete_iff (hg : g.WellFormed) (hself : id ∉ g.getSuccessors id) (hne : n ≠ id)
    {st : GraphNodeState} (hcreated : st ≠ .created) (hready : st ≠ .ready) :
    (s.complete g id).state n = st ↔ s.state n = st := by
  rw [state_complete_of_ne hg hself hne]
  split
  next hnew => rw [hnew.2.2]; exact iff_of_false hready.symm hcreated.symm
  next => rfl

/-! ## The invariant -/

/-- A node has been started. -/
def Started (s : ExecuteState) (n : ℕ) : Prop :=
  s.state n = .running ∨ s.state n = .completed ∨ s.state n = .failed

/-- A node has failed, or depends on one that has. -/
def Broken (s : ExecuteState) (n : ℕ) : Prop := s.state n = .failed ∨ s.state n = .blocked

/-- The states of the nodes; `queue` is that of `failDependentNodes`. -/
structure StatesFit (g : ExecutionGraph Op) (s : ExecuteState) (queue : List ℕ) : Prop where
  /-- A node that is ready or started has complete predecessors. -/
  ready : ∀ n, s.state n = .ready ∨ s.Started n → ∀ p ∈ g.getPredecessors n, s.state p = .completed
  /-- The in-degree counts the predecessors that are not complete. -/
  degree : ∀ n ∈ g.nodes, (s.tracker n).inDegree =
    (g.getPredecessors n).countP fun p => s.state p ≠ .completed
  /-- A node is not ready for want of a predecessor. -/
  created : ∀ n ∈ g.nodes, s.state n = .created → (s.tracker n).inDegree ≠ 0
  /-- What depends on a broken node is blocked, or will be. -/
  blocks : ∀ p, s.Broken p → ∀ n ∈ g.getSuccessors p,
    s.state n = .blocked ∨ s.state n = .cancelled ∨ n ∈ queue
  /-- What is blocked, or will be, depends on a broken node. -/
  blocked : ∀ n, s.state n = .blocked ∨ n ∈ queue → ∃ p ∈ g.getPredecessors n, s.Broken p
  /-- Cancellation leaves no node waiting. -/
  cancelled : ∀ p, s.state p = .cancelled → ∀ n ∈ g.nodes, ¬ s.Waiting n
  skipped : ∀ n, s.state n ≠ .skipped
  /-- Nothing happens to other ids. -/
  outside : ∀ n, n ∉ g.nodes → s.state n = .created

variable {queue : List ℕ}

/-- The states of the nodes are those of the tracker. -/
theorem StatesFit.of_tracker {queue : List ℕ} (h : StatesFit g s queue)
    (htracker : s'.tracker = s.tracker) : StatesFit g s' queue := by
  have hstate : s'.state = s.state := by
    funext n
    rw [state, htracker, state]
  obtain ⟨_, _, _, _, _, _, _, _⟩ := s'
  cases htracker
  exact ⟨h.ready, h.degree, h.created, h.blocks, h.blocked, h.cancelled, h.skipped, h.outside⟩

/-- A node that waits for a broken one is neither ready nor started. -/
theorem StatesFit.not_ready (h : StatesFit g s queue) (hn : n ∈ queue) :
    ¬ (s.state n = .ready ∨ s.Started n) := by
  intro hready
  obtain ⟨p, hp, hbroken⟩ := h.blocked n (.inr hn)
  have hcompleted := h.ready n hready p hp
  rcases hbroken with hfailed | hblocked
  · rw [hcompleted] at hfailed
    cases hfailed
  · rw [hcompleted] at hblocked
    cases hblocked

/-- A node that is neither as created nor outside the graph. -/
theorem StatesFit.mem_nodes (h : StatesFit g s queue) (hn : s.state n ≠ .created) :
    n ∈ g.nodes := by
  by_contra hout
  exact hn (h.outside n hout)

/-- A change to the state of one node, by which it neither completes nor waits again. -/
theorem StatesFit.set (h : StatesFit g s queue) {queue' : List ℕ} {new : GraphNodeState}
    (hid : id ∈ g.nodes) (hstate : ∀ n, s'.state n = if n = id then new else s.state n)
    (hdegree : ∀ n, (s'.tracker n).inDegree = (s.tracker n).inDegree)
    (hold : s.state id ≠ .completed) (hnew : new = .running ∨ new = .failed ∨ new = .blocked)
    (hready : new ≠ .blocked → s.state id = .ready ∨ s.Started id)
    (hblocks : ∀ p, s'.Broken p → ∀ n ∈ g.getSuccessors p,
      s'.state n = .blocked ∨ s'.state n = .cancelled ∨ n ∈ queue')
    (hblocked : ∀ n, s'.state n = .blocked ∨ n ∈ queue' →
      ∃ p ∈ g.getPredecessors n, s'.Broken p) : StatesFit g s' queue' := by
  have hself : s'.state id = new := by rw [hstate, if_pos rfl]
  have hother : ∀ {n}, n ≠ id → s'.state n = s.state n := fun hne => by rw [hstate, if_neg hne]
  -- the same nodes are completed before and after
  have hcompleted : ∀ n, s'.state n = .completed ↔ s.state n = .completed := by
    intro n
    by_cases heq : n = id
    · rw [heq, hself]
      exact iff_of_false (by rintro rfl; simp at hnew) hold
    · rw [hother heq]
  -- each field for the node `id` and for the others
  refine ⟨?ready, ?degree, ?created, hblocks, hblocked, ?cancelled, ?skipped, ?outside⟩
  case ready =>
    intro n hn p hp
    rw [hcompleted]
    by_cases heq : n = id
    · have hne : new ≠ .blocked := by
        rintro rfl
        rw [Started, heq, hself] at hn
        simp at hn
      exact h.ready id (hready hne) p (heq ▸ hp)
    · rw [Started, hother heq] at hn
      exact h.ready n hn p hp
  case degree =>
    intro n hn
    rw [hdegree, h.degree n hn]
    simp only [ne_eq, hcompleted]
  case created =>
    intro n hn hcreated
    rw [hdegree]
    by_cases heq : n = id
    · rw [heq, hself] at hcreated
      rw [hcreated] at hnew
      simp at hnew
    · rw [hother heq] at hcreated
      exact h.created n hn hcreated
  case cancelled =>
    intro p hp n hn hwaiting
    have hpne : p ≠ id := by
      rintro rfl
      rw [hself] at hp
      rw [hp] at hnew
      simp at hnew
    rw [hother hpne] at hp
    by_cases heq : n = id
    · rw [Waiting, heq, hself] at hwaiting
      rcases hwaiting with rfl | rfl <;> simp at hnew
    · rw [Waiting, hother heq] at hwaiting
      exact h.cancelled p hp n hn hwaiting
  case skipped =>
    intro n
    by_cases heq : n = id
    · rw [heq, hself]
      rintro rfl
      simp at hnew
    · rw [hother heq]
      exact h.skipped n
  case outside =>
    intro n hn
    rw [hother (by rintro rfl; exact hn hid)]
    exact h.outside n hn

/-- Starting a node. -/
theorem StatesFit.start (h : StatesFit g s []) (hready : s.state id = .ready) :
    StatesFit g (s.start g id) [] := by
  have hother : ∀ {n}, n ≠ id → (s.start g id).state n = s.state n :=
    fun hne => by rw [state_start, if_neg hne]
  refine h.set (h.mem_nodes (by simp [hready])) (fun n => state_start) ?_
    (by simp [hready]) (.inl rfl)
    (fun _ => .inl hready) ?_ ?_
  · intro n
    unfold ExecuteState.start
    dsimp only
    rw [Function.update_apply]
    split
    next heq => rw [heq]
    next => rfl
  · intro p hp n hn
    have hpne : p ≠ id := by
      rintro rfl
      simp [Broken, state_start] at hp
    rw [Broken, hother hpne] at hp
    have hold := h.blocks p hp n hn
    have hne : n ≠ id := by
      rintro rfl
      simp [hready] at hold
    rw [hother hne]
    exact hold
  · intro n hn
    have hne : n ≠ id := by
      rintro rfl
      simp [state_start] at hn
    rw [hother hne] at hn
    obtain ⟨p, hp, hbroken⟩ := h.blocked n hn
    refine ⟨p, hp, ?_⟩
    have hpne : p ≠ id := by
      rintro rfl
      simp [Broken, hready] at hbroken
    rw [Broken, hother hpne]
    exact hbroken

/-- A node that fails. -/
theorem StatesFit.fail (h : StatesFit g s []) (hg : g.WellFormed) (hrunning : s.state id = .running)
    (error : String) : StatesFit g (s.fail g id error) (g.getSuccessors id) := by
  have hother : ∀ {n}, n ≠ id → (s.fail g id error).state n = s.state n :=
    fun hne => by rw [state_fail, if_neg hne]
  have hfailed : (s.fail g id error).Broken id := .inl (by rw [state_fail, if_pos rfl])
  refine h.set (h.mem_nodes (by simp [hrunning])) (fun n => state_fail error) ?_
    (by simp [hrunning])
    (.inr (.inl rfl)) (fun _ => .inr (.inl hrunning)) ?_ ?_
  · intro n
    unfold ExecuteState.fail
    dsimp only
    rw [Function.update_apply]
    split
    next heq => rw [heq]
    next => rfl
  · intro p hp n hn
    by_cases heq : p = id
    · exact .inr (.inr (heq ▸ hn))
    · rw [Broken, hother heq] at hp
      have hold := h.blocks p hp n hn
      have hne : n ≠ id := by
        rintro rfl
        simp [hrunning] at hold
      rw [hother hne]
      exact hold.imp_right (Or.imp_right fun hnil => by cases hnil)
  · rintro n (hn | hn)
    · have hne : n ≠ id := by
        rintro rfl
        simp [state_fail] at hn
      rw [hother hne] at hn
      obtain ⟨p, hp, hbroken⟩ := h.blocked n (.inl hn)
      refine ⟨p, hp, ?_⟩
      have hpne : p ≠ id := by
        rintro rfl
        simp [Broken, hrunning] at hbroken
      rw [Broken, hother hpne]
      exact hbroken
    · exact ⟨id, (hg.inverse id n).mpr hn, hfailed⟩

/-- A node that is blocked. -/
theorem StatesFit.block (h : StatesFit g s (id :: queue)) (hg : g.WellFormed)
    (hwaiting : s.Waiting id)
    (reason : String) : StatesFit g (s.block id reason) (queue ++ g.getSuccessors id) := by
  have hother : ∀ {n}, n ≠ id → (s.block id reason).state n = s.state n :=
    fun hne => by rw [state_block, if_neg hne]
  have hself : (s.block id reason).state id = .blocked := by rw [state_block, if_pos rfl]
  have hnot : ¬ s.Broken id ∧ s.state id ≠ .completed := by
    rcases hwaiting with hstate | hstate <;> simp [Broken, hstate]
  -- what was broken is broken still
  have hbroken : ∀ p, s.Broken p → (s.block id reason).Broken p := by
    intro p hp
    have hne : p ≠ id := by
      rintro rfl
      exact hnot.1 hp
    rw [Broken, hother hne]
    exact hp
  -- the node is in the queue, so it has a broken predecessor and is a node of the graph
  obtain ⟨p₀, hp₀, -⟩ := h.blocked id (.inr List.mem_cons_self)
  refine h.set (hg.closed p₀ id ((hg.inverse p₀ id).mp hp₀)).2
    (fun n => state_block reason) ?_ hnot.2
    (.inr (.inr rfl)) (fun hne => absurd rfl hne) ?_ ?_
  · intro n
    unfold ExecuteState.block
    dsimp only
    rw [Function.update_apply]
    split
    next heq => rw [heq]
    next => rfl
  · intro p hp n hn
    -- the successors of the node itself join the queue
    by_cases heq : p = id
    · exact .inr (.inr (List.mem_append_right _ (heq ▸ hn)))
    · rw [Broken, hother heq] at hp
      by_cases hne : n = id
      · exact .inl (hne ▸ hself)
      · rw [hother hne]
        refine (h.blocks p hp n hn).imp_right (Or.imp_right fun hqueue => ?_)
        exact List.mem_append_left _ ((List.mem_cons.mp hqueue).resolve_left hne)
  · intro n hn
    by_cases hne : n = id
    · obtain ⟨p, hp, hpbroken⟩ := h.blocked id (.inr List.mem_cons_self)
      exact ⟨p, hne ▸ hp, hbroken p hpbroken⟩
    · rw [hother hne, List.mem_append] at hn
      rcases hn with hn | hn | hn
      · obtain ⟨p, hp, hpbroken⟩ := h.blocked n (.inl hn)
        exact ⟨p, hp, hbroken p hpbroken⟩
      · obtain ⟨p, hp, hpbroken⟩ := h.blocked n (.inr (List.mem_cons_of_mem _ hn))
        exact ⟨p, hp, hbroken p hpbroken⟩
      · exact ⟨id, (hg.inverse id n).mpr hn, .inr hself⟩

/-- Completing one element of a list that has no duplicates. -/
theorem countP_complete {l : List ℕ} (hl : l.Nodup) (id : ℕ) (incomplete : ℕ → Bool)
    (hid : incomplete id = true) :
    (l.countP fun p => p ≠ id && incomplete p) + (if id ∈ l then 1 else 0) =
      l.countP incomplete := by
  induction l with
  | nil => rfl
  | cons p l ih =>
    obtain ⟨hp, hl⟩ := List.nodup_cons.mp hl
    have ih := ih hl
    simp only [List.countP_cons, List.mem_cons]
    by_cases heq : p = id
    · have hnot : id ∉ l := heq ▸ hp
      rw [if_neg hnot] at ih
      simp [heq, hid, ← ih]
    · have hne : id ≠ p := Ne.symm heq
      rw [← ih]
      simp [heq, hne]
      omega

/-- A node that completes. -/
theorem StatesFit.complete (h : StatesFit g s []) (hg : g.WellFormed)
    (hself : id ∉ g.getSuccessors id)
    (hrunning : s.state id = .running) : StatesFit g (s.complete g id) [] := by
  have hid : id ∈ g.nodes := h.mem_nodes (by simp [hrunning])
  have hdone : (s.complete g id).state id = .completed := state_complete_self hg hself
  have hdegree : ∀ n, ((s.complete g id).tracker n).inDegree =
      (s.tracker n).inDegree - if n ∈ g.getSuccessors id then 1 else 0 := by
    intro n
    rw [tracker_complete hg hself]
    by_cases heq : n = id
    · simp [heq, hself]
    · rw [if_neg heq]
      split <;> simp [released]
  -- the states that are neither left nor entered
  have hkept : ∀ n (st : GraphNodeState), st ≠ .running → st ≠ .completed → st ≠ .created →
      st ≠ .ready → ((s.complete g id).state n = st ↔ s.state n = st) := by
    intro n st hr hc hcr hre
    by_cases heq : n = id
    · rw [heq, hdone, hrunning]
      exact iff_of_false hc.symm hr.symm
    · exact state_complete_iff hg hself heq hcr hre
  have hcompleted : ∀ n,
      (s.complete g id).state n = .completed ↔ n = id ∨ s.state n = .completed := by
    intro n
    by_cases heq : n = id
    · simp [heq, hdone]
    · rw [state_complete_iff hg hself heq (by decide) (by decide), or_iff_right heq]
  have hbroken : ∀ n, (s.complete g id).Broken n ↔ s.Broken n := by
    intro n
    unfold Broken
    rw [hkept n .failed (by decide) (by decide) (by decide) (by decide),
      hkept n .blocked (by decide) (by decide) (by decide) (by decide)]
  have hdegree' : ∀ n ∈ g.nodes, ((s.complete g id).tracker n).inDegree =
      (g.getPredecessors n).countP fun p => (s.complete g id).state p ≠ .completed := by
    intro n hn
    have hcount := countP_complete (hg.predecessors_nodup n) id (fun p => s.state p ≠ .completed)
      (by simp [hrunning])
    have hcongr : (g.getPredecessors n).countP (fun p => (s.complete g id).state p ≠ .completed) =
        (g.getPredecessors n).countP fun p => p ≠ id && decide (s.state p ≠ .completed) := by
      refine List.countP_congr fun p _ => ?_
      simp [hcompleted]
    rw [hdegree, h.degree n hn, hcongr, ← hcount]
    simp only [hg.inverse]
    split <;> simp
  refine ⟨?ready, hdegree', ?created, ?blocks, ?blocked, ?cancelled, ?skipped, ?outside⟩
  case ready =>
    intro n hn p hp
    by_cases heq : n = id
    · exact (hcompleted p).mpr (.inr (h.ready id (.inr (.inl hrunning)) p (heq ▸ hp)))
    · rw [Started, state_complete_of_ne hg hself heq] at hn
      split at hn
      next hnew =>
        -- no predecessor is missing any more
        have hzero := hdegree' n (hg.closed id n hnew.1).2
        rw [hdegree, if_pos hnew.1, hnew.2.1] at hzero
        have hnone := List.countP_eq_zero.mp (Int.ofNat_eq_zero.mp hzero.symm) p hp
        simpa using hnone
      next => exact (hcompleted p).mpr (.inr (h.ready n hn p hp))
  case created =>
    intro n hn hcreated
    have hne : n ≠ id := by
      rintro rfl
      rw [hdone] at hcreated
      cases hcreated
    rw [state_complete_of_ne hg hself hne] at hcreated
    rw [hdegree]
    split at hcreated
    next => cases hcreated
    next hnot =>
      split
      next hsucc => exact fun hzero => hnot ⟨hsucc, hzero, hcreated⟩
      next =>
        rw [sub_zero]
        exact h.created n hn hcreated
  case blocks =>
    intro p hp n hn
    rw [hkept n .blocked (by decide) (by decide) (by decide) (by decide),
      hkept n .cancelled (by decide) (by decide) (by decide) (by decide)]
    exact h.blocks p ((hbroken p).mp hp) n hn
  case blocked =>
    intro n hn
    rw [hkept n .blocked (by decide) (by decide) (by decide) (by decide)] at hn
    obtain ⟨p, hp, hpbroken⟩ := h.blocked n hn
    exact ⟨p, hp, (hbroken p).mpr hpbroken⟩
  case cancelled =>
    intro p hp n hn
    rw [hkept p .cancelled (by decide) (by decide) (by decide) (by decide)] at hp
    have hold := h.cancelled p hp n hn
    by_cases heq : n = id
    · simp [Waiting, heq, hdone]
    · rw [Waiting, state_complete_of_ne hg hself heq]
      split
      next hnew => exact absurd (.inl hnew.2.2) hold
      next => exact hold
  case skipped =>
    exact fun n hn => h.skipped n
      ((hkept n .skipped (by decide) (by decide) (by decide) (by decide)).mp hn)
  case outside =>
    intro n hn
    have hne : n ≠ id := by
      rintro rfl
      exact hn hid
    rw [state_complete_of_ne hg hself hne, if_neg fun hnew => hn (hg.closed id n hnew.1).2]
    exact h.outside n hn

/-- A node of the queue that is not waiting. -/
theorem StatesFit.skip (h : StatesFit g s (id :: queue)) (hwaiting : ¬ s.Waiting id) :
    StatesFit g s queue := by
  -- the node is blocked or cancelled, since it has a predecessor that is not complete
  have hstate : s.state id = .blocked ∨ s.state id = .cancelled := by
    have hready := h.not_ready (n := id) List.mem_cons_self
    have hskipped := h.skipped id
    unfold Waiting at hwaiting
    unfold Started at hready
    cases hs : s.state id <;> simp [hs] at hwaiting hready hskipped ⊢
  refine ⟨h.ready, h.degree, h.created, ?_, ?_, h.cancelled, h.skipped, h.outside⟩
  · intro p hp n hn
    rcases h.blocks p hp n hn with hblocked | hcancelled | hqueue
    · exact .inl hblocked
    · exact .inr (.inl hcancelled)
    · rcases List.mem_cons.mp hqueue with rfl | hqueue
      · exact hstate.imp_right .inl
      · exact .inr (.inr hqueue)
  · exact fun n hn => h.blocked n (hn.imp_right (List.mem_cons_of_mem _))

/-- Cancelling the nodes that wait. -/
theorem StatesFit.cancelRemaining (h : StatesFit g s []) :
    StatesFit g (s.cancelRemaining g) [] := by
  -- nodes that do not wait are left as they are
  have hkept : ∀ n (st : GraphNodeState), st ≠ .created → st ≠ .ready → st ≠ .cancelled →
      ((s.cancelRemaining g).state n = st ↔ s.state n = st) :=
    fun n st => state_cancelRemaining_iff
  have hwaiting : ∀ n ∈ g.nodes, ¬ (s.cancelRemaining g).Waiting n := by
    intro n hn
    unfold Waiting
    rw [state_cancelRemaining]
    split
    next => simp
    next hnot => exact fun hw => hnot ⟨hn, hw⟩
  have hbroken : ∀ n, (s.cancelRemaining g).Broken n ↔ s.Broken n := by
    intro n
    unfold Broken
    rw [hkept n .failed (by decide) (by decide) (by decide),
      hkept n .blocked (by decide) (by decide) (by decide)]
  have hcompleted : ∀ n, (s.cancelRemaining g).state n = .completed ↔ s.state n = .completed :=
    fun n => hkept n .completed (by decide) (by decide) (by decide)
  have hdegree : ∀ n, ((s.cancelRemaining g).tracker n).inDegree = (s.tracker n).inDegree := by
    intro n
    unfold ExecuteState.cancelRemaining
    dsimp only
    split <;> rfl
  refine ⟨?ready, ?degree, ?created, ?blocks, ?blocked, ?cancelled, ?skipped, ?outside⟩
  case ready =>
    intro n hn p hp
    rw [hcompleted]
    refine h.ready n ?_ p hp
    unfold Started at hn ⊢
    rw [hkept n .running (by decide) (by decide) (by decide), hcompleted,
      hkept n .failed (by decide) (by decide) (by decide), state_cancelRemaining] at hn
    split at hn
    next => exact .inr (hn.resolve_left (by decide))
    next => exact hn
  case degree =>
    intro n hn
    rw [hdegree, h.degree n hn]
    simp only [ne_eq, hcompleted]
  case created => exact fun n hn hcreated => absurd (.inl hcreated) (hwaiting n hn)
  case blocks =>
    intro p hp n hn
    rw [hkept n .blocked (by decide) (by decide) (by decide)]
    refine (h.blocks p ((hbroken p).mp hp) n hn).imp_right (Or.imp_left fun hcancelled => ?_)
    rw [state_cancelRemaining, hcancelled, ite_self]
  case blocked =>
    intro n hn
    rw [hkept n .blocked (by decide) (by decide) (by decide)] at hn
    obtain ⟨p, hp, hpbroken⟩ := h.blocked n hn
    exact ⟨p, hp, (hbroken p).mpr hpbroken⟩
  case cancelled => exact fun _ _ n hn => hwaiting n hn
  case skipped =>
    exact fun n hn => h.skipped n ((hkept n .skipped (by decide) (by decide) (by decide)).mp hn)
  case outside =>
    intro n hn
    rw [state_cancelRemaining, if_neg fun hw => hn hw.1]
    exact h.outside n hn

end ExecuteState
end HeteroAccel.Execution
