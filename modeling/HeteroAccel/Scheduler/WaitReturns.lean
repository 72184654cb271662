import HeteroAccel.Lib.FairRuns
import HeteroAccel.Scheduler.AdaptiveScheduler
import Mathlib.Data.List.GetD

/-!
# `wait` returns

A call of `AdaptiveScheduler::wait` blocks until a worker has executed the job of its task. Other
jobs are before it in the queue, and further calls come in between. It returns nevertheless, in
every run in which the threads of the workers and the caller go on, as the queue is served in order.

Here a step is taken only when it can be: a thread waits for the queue, and a caller for the worker.

## Main definitions

* `AdaptiveScheduler.system`: the scheduler as a transition system;
* `Worker.Change`: what a step does to a worker;
* `Worker.left`: how many steps of the thread are left until a job is done.

## Main results

* `Worker.Change.advances`: no step adds to them, and each step of the thread takes one away;
* `wait_returns`: a blocked call returns, with the result that stays with the job.
-/

namespace HeteroAccel.Scheduler

open HeteroAccel.Model (ComputeBackend)
open TransitionSystem

/-! ## Steps that can be taken -/

namespace SchedulerEvent

/-- A step of a worker's thread. -/
def OfThread (backend : ComputeBackend) : SchedulerEvent → Prop
  | .take backend' => backend' = backend
  | .finish backend' _ _ => backend' = backend
  | _ => False

/-- A step by which a call of `wait` goes on. -/
def OfCaller (caller : ℕ) : SchedulerEvent → Prop
  | .wake caller' => caller' = caller
  | .endWait caller' => caller' = caller
  | _ => False

end SchedulerEvent

namespace AdaptiveScheduler

/-- The step can be taken. -/
def Enabled (s : AdaptiveScheduler) : SchedulerEvent → Prop
  | .submit _ _ => True
  | .take backend => (s.workers backend).running = none ∧ (s.workers backend).queue ≠ []
  | .finish backend _ _ => (s.workers backend).running ≠ none
  | .beginWait caller _ => s.calls.lookup caller = none
  | .wake caller => ∃ task record result, s.calls.lookup caller = some (.blocked task record) ∧
      (s.workers record.backend).wait record.workerHandle = some result
  | .endWait caller =>
      ∃ task record result, s.calls.lookup caller = some (.woken task record result)

/-- The scheduler, from when it is built. -/
def system : TransitionSystem AdaptiveScheduler SchedulerEvent where
  Init s := s = {}
  Step s event s' := s.Enabled event ∧ s' = s.next event

end AdaptiveScheduler

/-! ## What a step does to a worker -/

namespace Worker

variable {w w' : Worker} {backend : ComputeBackend} {event : SchedulerEvent} {handle : ℕ}
  {job : Job}

/-- What a step does to the worker of a backend. -/
inductive Change (backend : ComputeBackend) : SchedulerEvent → Worker → Worker → Prop where
  | same {event : SchedulerEvent} {w : Worker} (h : ¬ event.OfThread backend) :
      Change backend event w w
  | submitted {workload : Workload} {plan : ExecutionPlan} {w : Worker} :
      Change backend (.submit workload plan) w (w.submit workload plan).2
  | taken {w : Worker} {handle : ℕ} {queue : List ℕ} {job : Job} (hrunning : w.running = none)
      (hqueue : w.queue = handle :: queue) (hjob : w.jobs.lookup handle = some job) :
      Change backend (.take backend) w { w with
        queue
        jobs := w.jobs.insert handle { job with status := .running }
        running := some handle }
  | finished {outcome : CallbackOutcome} {computeMs : ℚ} {w : Worker} {handle : ℕ} {job : Job}
      (hrunning : w.running = some handle) (hdone : job.done = true) :
      Change backend (.finish backend outcome computeMs) w { w with
        jobs := w.jobs.insert handle job
        running := none }

/-- A worker that takes a job makes one of the changes. -/
theorem change_take (h : w.Fits) (hrunning : w.running = none) (hqueue : w.queue ≠ []) :
    Change backend (.take backend) w w.take := by
  obtain ⟨handle, queue, hcons⟩ := List.exists_cons_of_ne_nil hqueue
  obtain ⟨job, hjob, -⟩ := h.queued handle (hcons ▸ List.mem_cons_self)
  have htake : w.take = { w with
      queue
      jobs := w.jobs.insert handle { job with status := .running }
      running := some handle } := by
    simp only [take, hrunning, hcons, hjob]
  exact htake ▸ .taken hrunning hcons hjob

/-- A worker that finishes a job makes one of the changes. -/
theorem change_finish (h : w.Fits) (hrunning : w.running ≠ none) {outcome : CallbackOutcome}
    {computeMs : ℚ} :
    Change backend (.finish backend outcome computeMs) w (w.finish backend outcome computeMs) := by
  obtain ⟨handle, hhandle⟩ := Option.ne_none_iff_exists'.mp hrunning
  obtain ⟨job, hjob, -⟩ := h.running handle hhandle
  unfold finish
  simp only [hhandle, hjob]
  refine .finished hhandle ?_
  -- whether the callback has succeeded or not
  unfold Job.done
  split <;> rfl

/-- A job that is not done is in the queue, or the thread executes it. -/
def Pending (w : Worker) (handle : ℕ) : Prop := w.running = some handle ∨ handle ∈ w.queue

/-- No job is lost. -/
def Located (w : Worker) : Prop :=
  ∀ handle job, w.jobs.lookup handle = some job → job.done = true ∨ w.Pending handle

/-- How many steps of the thread are left: two for each job that is before it in the queue and for
the job itself, and one for a job that is running. -/
def left (w : Worker) (handle : ℕ) : ℕ :=
  if w.running = some handle then 1
  else 2 * (w.queue.idxOf handle + 1) + if w.running = none then 0 else 1

/-- A change keeps every pending job in the queue or in work. -/
theorem Located.change (h : w.Located) (hchange : Change backend event w w') : w'.Located := by
  cases hchange with
  | same => exact h
  | submitted =>
    intro other job hjob
    have hjob : (w.jobs.insert w.nextHandle _).lookup other = some job := hjob
    rw [KeyedMap.lookup_insert_eq_ite] at hjob
    split at hjob
    next heq => exact .inr (.inr (List.mem_append_right _ (List.mem_singleton.mpr heq)))
    next => exact (h other job hjob).imp_right fun hp => hp.imp_right (List.mem_append_left _)
  | @taken _ handle queue _ hrunning hqueue _ =>
    intro other job hjob
    have hjob : (w.jobs.insert handle _).lookup other = some job := hjob
    rw [KeyedMap.lookup_insert_eq_ite] at hjob
    split at hjob
    next heq => exact .inr (.inl (congrArg some heq.symm))
    next hne =>
      -- the others that were in the queue are behind the first
      rcases h other job hjob with hdone | hother | hmem
      · exact .inl hdone
      · rw [hrunning] at hother
        cases hother
      · rw [hqueue] at hmem
        exact .inr (.inr ((List.mem_cons.mp hmem).resolve_left hne))
  | @finished _ _ _ handle _ hrunning hdone =>
    intro other job hjob
    have hjob : (w.jobs.insert handle _).lookup other = some job := hjob
    rw [KeyedMap.lookup_insert_eq_ite] at hjob
    split at hjob
    next =>
      cases hjob
      exact .inl hdone
    next hne =>
      rcases h other job hjob with hdone | hother | hmem
      · exact .inl hdone
      · rw [hrunning] at hother
        exact absurd (Option.some.inj hother).symm hne
      · exact .inr (.inr hmem)

/-- A job stays with its worker. -/
theorem Change.exists_job (hchange : Change backend event w w')
    (hjob : ∃ job, w.jobs.lookup handle = some job) : ∃ job, w'.jobs.lookup handle = some job := by
  have hinsert : ∀ other (job : Job), ∃ job', (w.jobs.insert other job).lookup handle =
      some job' := by
    intro other job
    rw [KeyedMap.lookup_insert_eq_ite]
    split
    next => exact ⟨_, rfl⟩
    next => exact hjob
  cases hchange with
  | same => exact hjob
  | submitted => exact hinsert _ _
  | taken => exact hinsert _ _
  | finished => exact hinsert _ _

/-- A job in work has one event before it. -/
theorem left_of_running (h : w.running = some handle) : w.left handle = 1 := if_pos h

/-- With an idle worker, a job waits for two events of each job up to itself. -/
theorem left_of_idle (h : w.running = none) :
    w.left handle = 2 * (w.queue.idxOf handle + 1) := by
  rw [left, h, if_neg nofun, if_pos rfl, Nat.add_zero]

/-- With a busy worker, a job waits for one event more. -/
theorem left_of_busy {other : ℕ} (h : w.running = some other) (hne : other ≠ handle) :
    w.left handle = 2 * (w.queue.idxOf handle + 1) + 1 := by
  rw [left, h, if_neg fun heq => hne (Option.some.inj heq), if_neg nofun]

/-- The job is done, or as near to its end as it was, and nearer after a step of the thread. -/
def Advances (backend : ComputeBackend) (event : SchedulerEvent) (w w' : Worker) (handle : ℕ) :
    Prop :=
  (∃ result, w'.wait handle = some result) ∨ w'.Pending handle ∧ w'.left handle ≤ w.left handle ∧
    (event.OfThread backend → w'.left handle < w.left handle)

/-- A job that has less before it has advanced. -/
theorem advances_of_lt (hpending : w'.Pending handle) (hlt : w'.left handle < w.left handle) :
    Advances backend event w w' handle :=
  .inr ⟨hpending, hlt.le, fun _ => hlt⟩

/-- **Progress.** Each step advances a job that is not done. -/
theorem Change.advances (hchange : Change backend event w w') (hpending : w.Pending handle) :
    Advances backend event w w' handle := by
  -- what the step did to the worker
  cases hchange with
  | same h => exact .inr ⟨hpending, le_rfl, fun hown => absurd hown h⟩
  | @submitted workload plan =>
    refine .inr ⟨hpending.imp_right (List.mem_append_left _), le_of_eq ?_, False.elim⟩
    rcases hpending with hrunning | hmem
    · rw [left_of_running hrunning]
      exact left_of_running hrunning
    · -- what is behind a job in the queue does not count
      have hidx : (w.submit workload plan).2.queue.idxOf handle = w.queue.idxOf handle :=
        List.idxOf_append_of_mem hmem
      rw [left, hidx]
      rfl
  | @taken _ first queue _ hrunning hqueue _ =>
    by_cases hfirst : first = handle
    · refine advances_of_lt (.inl (congrArg some hfirst)) ?_
      rw [left_of_running (congrArg some hfirst), left_of_idle hrunning]
      omega
    · have hmem : handle ∈ first :: queue := by
        refine hqueue ▸ hpending.resolve_left ?_
        rw [hrunning]
        exact nofun
      refine advances_of_lt (.inr ((List.mem_cons.mp hmem).resolve_left (Ne.symm hfirst))) ?_
      rw [left_of_busy rfl hfirst, left_of_idle hrunning, hqueue, List.idxOf_cons_ne _ hfirst]
      dsimp only
      omega
  | @finished _ _ _ first job hrunning hdone =>
    by_cases hfirst : first = handle
    · refine .inl ⟨job.result, ?_⟩
      rw [wait, hfirst, AList.lookup_insert, Option.bind_some, if_pos hdone]
    · have hmem : handle ∈ w.queue := by
        refine hpending.resolve_left ?_
        rw [hrunning]
        exact fun heq => hfirst (Option.some.inj heq)
      refine advances_of_lt (.inr hmem) ?_
      rw [left_of_idle rfl, left_of_busy hrunning hfirst]
      exact Nat.lt_succ_self _

end Worker

/-! ## What a step does to the scheduler -/

namespace AdaptiveScheduler

variable {s : AdaptiveScheduler} {event : SchedulerEvent} {backend : ComputeBackend}
  {caller task handle : ℕ} {record : TaskRecord} {result : WorkerResult}

-- the steps of callers leave the workers and the records alone

/-- The beginning of a wait changes no worker. -/
theorem beginWait_unchanged : (s.next (.beginWait caller task)).workers = s.workers ∧
    (s.next (.beginWait caller task)).records = s.records := by
  show (s.beginWait caller task).workers = _ ∧ (s.beginWait caller task).records = _
  unfold beginWait
  split <;> exact ⟨rfl, rfl⟩

theorem wake_unchanged : (s.next (.wake caller)).workers = s.workers ∧
    (s.next (.wake caller)).records = s.records := by
  show (s.wake caller).workers = _ ∧ (s.wake caller).records = _
  unfold wake
  split
  next => split <;> exact ⟨rfl, rfl⟩
  next => exact ⟨rfl, rfl⟩

/-- The end of a wait changes no worker. -/
theorem endWait_unchanged : (s.next (.endWait caller)).workers = s.workers ∧
    (s.next (.endWait caller)).records = s.records := by
  show (s.endWait caller).workers = _ ∧ (s.endWait caller).records = _
  unfold endWait
  split <;> exact ⟨rfl, rfl⟩

/-- Every event is a change of each worker. -/
theorem change_next (h : Consistent s) (henabled : s.Enabled event) (backend : ComputeBackend) :
    Worker.Change backend event (s.workers backend) ((s.next event).workers backend) := by
  cases event with
  | submit workload plan =>
    -- the plan says which worker gets the job
    show Worker.Change backend _ _ (Function.update s.workers plan.selectedBackend _ backend)
    by_cases heq : backend = plan.selectedBackend
    · rw [heq, Function.update_self]
      exact .submitted
    · rw [Function.update_of_ne heq]
      exact .same id
  | take backend' =>
    show Worker.Change backend _ _ (Function.update s.workers backend' _ backend)
    by_cases heq : backend = backend'
    · rw [heq, Function.update_self]
      exact Worker.change_take (h.workers _) henabled.1 henabled.2
    · rw [Function.update_of_ne heq]
      exact .same fun hown => heq hown.symm
  | finish backend' outcome computeMs =>
    show Worker.Change backend _ _ (Function.update s.workers backend' _ backend)
    by_cases heq : backend = backend'
    · rw [heq, Function.update_self]
      exact Worker.change_finish (h.workers _) henabled
    · rw [Function.update_of_ne heq]
      exact .same fun hown => heq hown.symm
  | beginWait caller task =>
    rw [beginWait_unchanged.1]
    exact .same id
  | wake caller =>
    rw [wake_unchanged.1]
    exact .same id
  | endWait caller =>
    rw [endWait_unchanged.1]
    exact .same id

/-- The results that there are stay. -/
theorem keeps_next (h : Consistent s) (event : SchedulerEvent) (backend : ComputeBackend) :
    (s.workers backend).Keeps ((s.next event).workers backend) := by
  cases event with
  | submit workload plan =>
    exact keeps_update (Worker.keeps_submit (h.workers _) workload plan) backend
  | take backend' => exact keeps_update (Worker.keeps_take (h.workers backend')) backend
  | finish backend' outcome computeMs =>
    exact keeps_update (Worker.keeps_finish (h.workers backend') backend' outcome computeMs) backend
  | beginWait caller task =>
    rw [beginWait_unchanged.1]
    exact fun _ _ => id
  | wake caller =>
    rw [wake_unchanged.1]
    exact fun _ _ => id
  | endWait caller =>
    rw [endWait_unchanged.1]
    exact fun _ _ => id

/-- A call of `wait` is where it was, unless its caller goes on. -/
theorem calls_next {call : WaitCall} (hcall : s.calls.lookup caller = some call)
    (henabled : s.Enabled event) (hother : ¬ event.OfCaller caller) :
    (s.next event).calls.lookup caller = some call := by
  cases event with
  | submit workload plan => exact hcall
  | take backend => exact hcall
  | finish backend outcome computeMs => exact hcall
  | beginWait caller' task =>
    -- the call is by another caller, as this one makes one at a time
    have hne : caller ≠ caller' := by
      rintro rfl
      cases hcall.symm.trans henabled
    show (s.beginWait caller' task).calls.lookup caller = some call
    unfold beginWait
    split
    next => exact (AList.lookup_insert_ne hne).trans hcall
    next => exact hcall
    next => exact hcall
  | wake caller' =>
    have hne : caller ≠ caller' := fun heq => hother heq.symm
    show (s.wake caller').calls.lookup caller = some call
    unfold wake
    split
    next =>
      split
      next => exact (AList.lookup_insert_ne hne).trans hcall
      next => exact hcall
    next => exact hcall
  | endWait caller' =>
    have hne : caller ≠ caller' := fun heq => hother heq.symm
    show (s.endWait caller').calls.lookup caller = some call
    unfold endWait
    split
    next => exact (AList.lookup_erase_ne hne).trans hcall
    next => exact hcall

/-- A call that blocks goes on with the result of the worker. -/
theorem woken_of_ofCaller (hcall : s.calls.lookup caller = some (.blocked task record))
    (henabled : s.Enabled event) (hown : event.OfCaller caller) :
    ∃ result, (s.next event).calls.lookup caller = some (.woken task record result) := by
  cases event with
  | wake caller' =>
    obtain rfl := hown
    obtain ⟨task', record', result, hcall', hresult⟩ := henabled
    obtain ⟨rfl, rfl⟩ := WaitCall.blocked.inj (Option.some.inj (hcall.symm.trans hcall'))
    refine ⟨result, ?_⟩
    show (s.wake caller').calls.lookup caller' = _
    simp only [wake, hcall, hresult]
    exact AList.lookup_insert _
  | endWait caller' =>
    obtain rfl := hown
    obtain ⟨_, _, _, hcall'⟩ := henabled
    cases hcall.symm.trans hcall'
  | _ => exact hown.elim

/-- And then it returns. -/
theorem returned_of_ofCaller (hcall : s.calls.lookup caller = some (.woken task record result))
    (henabled : s.Enabled event) (hown : event.OfCaller caller) :
    (s.next event).calls.lookup caller = none ∧
      (s.next event).returned.lookup caller = some result := by
  cases event with
  | wake caller' =>
    obtain rfl := hown
    obtain ⟨_, _, _, hcall', -⟩ := henabled
    cases hcall.symm.trans hcall'
  | endWait caller' =>
    obtain rfl := hown
    show (s.endWait caller').calls.lookup caller' = none ∧
      (s.endWait caller').returned.lookup caller' = some result
    simp only [endWait, hcall]
    exact ⟨AList.lookup_erase _ _, AList.lookup_insert _⟩
  | _ => exact hown.elim

/-- The invariant of the runs: no job is lost, and each task has one. -/
structure Serves (s : AdaptiveScheduler) : Prop where
  consistent : Consistent s
  located : ∀ backend, (s.workers backend).Located
  recorded : ∀ task record, s.records.lookup task = some record →
    ∃ job, (s.workers record.backend).jobs.lookup record.workerHandle = some job

theorem serves_new : Serves {} where
  consistent := consistent_new
  located _ _ _ h := nomatch h
  recorded _ _ h := nomatch h

/-- Every event keeps that the tasks are served. -/
theorem Serves.next (h : Serves s) (henabled : s.Enabled event) : Serves (s.next event) where
  consistent := h.consistent.next event
  located backend := (h.located backend).change (change_next h.consistent henabled backend)
  recorded task record hrecord := by
    have hkept (hbefore : s.records.lookup task = some record) :
        ∃ job, ((s.next event).workers record.backend).jobs.lookup record.workerHandle = some job :=
      (change_next h.consistent henabled record.backend).exists_job (h.recorded task record hbefore)
    cases event with
    | submit workload plan =>
      have hlookup : (s.records.insert s.nextHandle _).lookup task = some record := hrecord
      rw [KeyedMap.lookup_insert_eq_ite] at hlookup
      split at hlookup
      next =>
        -- the record of the new task
        cases hlookup
        refine ⟨{ workload, plan }, ?_⟩
        show (Function.update s.workers plan.selectedBackend _ plan.selectedBackend).jobs.lookup _ =
          some _
        rw [Function.update_self]
        exact AList.lookup_insert _
      next => exact hkept hlookup
    | take backend => exact hkept hrecord
    | finish backend outcome computeMs => exact hkept hrecord
    | beginWait caller task' => exact hkept (beginWait_unchanged.2 ▸ hrecord)
    | wake caller => exact hkept (wake_unchanged.2 ▸ hrecord)
    | endWait caller => exact hkept (endWait_unchanged.2 ▸ hrecord)

/-- A thread whose worker has a job that is not done can go on. -/
theorem enabled_of_pending (h : (s.workers backend).Pending handle) :
    ∃ event s', event.OfThread backend ∧ system.Step s event s' := by
  by_cases hrunning : (s.workers backend).running = none
  · have hmem : handle ∈ (s.workers backend).queue := by
      refine h.resolve_left ?_
      rw [hrunning]
      exact nofun
    exact ⟨.take backend, _, rfl, ⟨hrunning, List.ne_nil_of_mem hmem⟩, rfl⟩
  · exact ⟨.finish backend (.returns true) 0, _, rfl, hrunning, rfl⟩

/-! ## Runs -/

section runs

variable {guard : AdaptiveScheduler → SchedulerEvent → Prop} (run : system.InfiniteRun guard)
  {i : ℕ}

/-- The tasks are served in every state of a run. -/
theorem serves (i : ℕ) : Serves (run.state i) := by
  induction i with
  | zero => exact run.init ▸ serves_new
  | succ i ih =>
    obtain ⟨henabled, hnext⟩ := run.step i
    exact hnext ▸ ih.next henabled

/-- A result stays. -/
theorem wait_of_le {j : ℕ} (hle : i ≤ j)
    (h : ((run.state i).workers backend).wait handle = some result) :
    ((run.state j).workers backend).wait handle = some result := by
  refine run.of_le (P := fun s => (s.workers backend).wait handle = some result) ?_ hle h
  intro k hk
  rw [(run.step k).2]
  exact keeps_next (serves run k).consistent _ _ _ _ hk

/-- Each job is done in the end. -/
theorem eventually_done (hthread : run.WeaklyFair (SchedulerEvent.OfThread backend))
    (hjob : ∃ job, ((run.state i).workers backend).jobs.lookup handle = some job) :
    run.Eventually (fun s => ∃ result, (s.workers backend).wait handle = some result) i := by
  have hchange : ∀ k, Worker.Change backend (run.call k) ((run.state k).workers backend)
      ((run.state (k + 1)).workers backend) := by
    intro k
    obtain ⟨henabled, hnext⟩ := run.step k
    rw [hnext]
    exact change_next (serves run k).consistent henabled backend
  -- the number of steps that are left decreases
  refine run.eventually_of_rank (fun s => (s.workers backend).left handle) fun j hj => ?_
  obtain ⟨job, hjob⟩ := run.of_le
    (P := fun s => ∃ job, (s.workers backend).jobs.lookup handle = some job)
    (fun k => (hchange k).exists_job) hj hjob
  rcases (serves run j).located backend handle job hjob with hdone | hpending
  · refine ⟨j, le_rfl, .inl ⟨job.result, ?_⟩⟩
    rw [Worker.wait, hjob, Option.bind_some, if_pos hdone]
  · -- the job is as near to its end as now until the thread goes on
    refine run.eventually_of_stays (P := fun s => (s.workers backend).Pending handle ∧
      (s.workers backend).left handle ≤ ((run.state j).workers backend).left handle) hthread
      ⟨hpending, le_rfl⟩ ?_ ?_ fun k _ h => enabled_of_pending h.1
    · rintro k - ⟨hpending, hle⟩
      rcases (hchange k).advances hpending with hdone | ⟨hpending, hle', -⟩
      · exact .inr (.inl hdone)
      · exact .inl ⟨hpending, hle'.trans hle⟩
    · rintro k - ⟨hpending, hle⟩ hown
      rcases (hchange k).advances hpending with hdone | ⟨-, -, hlt⟩
      · exact .inl hdone
      · exact .inr ((hlt hown).trans_le hle)

/-! ## A call -/

/-- The call of a caller blocks. -/
def Blocks (caller task : ℕ) (record : TaskRecord) (s : AdaptiveScheduler) : Prop :=
  s.calls.lookup caller = some (.blocked task record)

/-- The call has the answer of the worker. -/
def Woken (caller task : ℕ) (record : TaskRecord) (s : AdaptiveScheduler) : Prop :=
  ∃ result, s.calls.lookup caller = some (.woken task record result)

/-- The call has returned. -/
def Returned (caller : ℕ) (result : WorkerResult) (s : AdaptiveScheduler) : Prop :=
  s.calls.lookup caller = none ∧ s.returned.lookup caller = some result

/-- A caller whose call blocks goes on once the job is done. -/
theorem eventually_woken (hcaller : run.WeaklyFair (SchedulerEvent.OfCaller caller))
    (hblocks : Blocks caller task record (run.state i))
    (hdone : run.Eventually (fun s =>
      ∃ result, (s.workers record.backend).wait record.workerHandle = some result) i) :
    run.Eventually (Woken caller task record) i := by
  have hown : ∀ k, Blocks caller task record (run.state k) → (run.call k).OfCaller caller →
      Woken caller task record (run.state (k + 1)) := by
    intro k hblocks hown
    obtain ⟨henabled, hnext⟩ := run.step k
    exact hnext ▸ woken_of_ofCaller hblocks henabled hown
  have hstep : ∀ k, Blocks caller task record (run.state k) →
      Blocks caller task record (run.state (k + 1)) ∨
        Woken caller task record (run.state (k + 1)) := by
    intro k hblocks
    by_cases hcall : (run.call k).OfCaller caller
    · exact .inr (hown k hblocks hcall)
    · obtain ⟨henabled, hnext⟩ := run.step k
      exact .inl (hnext ▸ calls_next hblocks henabled hcall)
  -- when the job is done, the call still blocks or has been woken
  obtain ⟨d, hd, result, hresult⟩ := hdone
  rcases run.holds_or_eventually (P := Blocks caller task record)
    (Q := Woken caller task record) hd hblocks fun k _ => hstep k with hblocks | hwoken
  · obtain ⟨w, hw, hwoken⟩ := run.eventually_of_stays (P := Blocks caller task record)
      (Q := Woken caller task record) hcaller hblocks (fun k _ => hstep k) (fun k _ => hown k)
      fun k hk hblocks => ⟨.wake caller, _, rfl,
        ⟨task, record, result, hblocks, wait_of_le run hk hresult⟩, rfl⟩
    exact ⟨w, hd.trans hw, hwoken⟩
  · exact hwoken

/-- A caller whose call has an answer returns it. -/
theorem eventually_returned (hcaller : run.WeaklyFair (SchedulerEvent.OfCaller caller))
    (hwoken : (run.state i).calls.lookup caller = some (.woken task record result)) :
    run.Eventually (Returned caller result) i := by
  have hown : ∀ k, (run.state k).calls.lookup caller = some (.woken task record result) →
      (run.call k).OfCaller caller → Returned caller result (run.state (k + 1)) := by
    intro k hwoken hown
    obtain ⟨henabled, hnext⟩ := run.step k
    exact hnext ▸ returned_of_ofCaller hwoken henabled hown
  refine run.eventually_of_stays
    (P := fun s => s.calls.lookup caller = some (.woken task record result)) hcaller hwoken
    (fun k _ hwoken => ?_) (fun k _ => hown k)
    fun k _ hwoken => ⟨.endWait caller, _, rfl, ⟨_, _, _, hwoken⟩, rfl⟩
  by_cases hcall : (run.call k).OfCaller caller
  · exact .inr (hown k hwoken hcall)
  · obtain ⟨henabled, hnext⟩ := run.step k
    exact .inl (hnext ▸ calls_next hwoken henabled hcall)

end runs

end AdaptiveScheduler

open AdaptiveScheduler

/-- **`wait` returns.** In a run in which the thread of its worker and its caller go on, a call that
blocks returns, with the result that the job has from then on. -/
theorem wait_returns (run : system.InfiniteRun anyCall) {i caller task : ℕ} {record : TaskRecord}
    (hcall : (run.state i).calls.lookup caller = some (.blocked task record))
    (hthread : run.WeaklyFair (SchedulerEvent.OfThread record.backend))
    (hcaller : run.WeaklyFair (SchedulerEvent.OfCaller caller)) :
    ∃ j result, i ≤ j ∧ (run.state j).calls.lookup caller = none ∧
      (run.state j).returned.lookup caller = some result ∧
      ∀ k, j ≤ k →
        ((run.state k).workers record.backend).wait record.workerHandle = some result := by
  have hrecord := (serves run i).consistent.blocked caller task record hcall
  have hdone := eventually_done run hthread ((serves run i).recorded task record hrecord)
  obtain ⟨w, hw, result, hwoken⟩ := eventually_woken run hcaller hcall hdone
  have hresult := ((serves run w).consistent.woken caller task record result hwoken).2
  obtain ⟨j, hj, hnone, hreturned⟩ := eventually_returned run hcaller hwoken
  exact ⟨j, result, hw.trans hj, hnone, hreturned,
    fun k hk => wait_of_le run (hj.trans hk) hresult⟩

/-! ### A sample run -/

/-- A call of `wait` for a job that is done later, and calls with a wrong handle ever after. -/
def waitEvents : List SchedulerEvent :=
  [.submit { cpuExecute := true } {}, .beginWait 1 1, .take .cpu, .finish .cpu (.returns true) 1,
    .wake 1, .endWait 1]

/-- The events of a run: a task is submitted, run and waited for, and then waited for again and
again. -/
def waitCall (i : ℕ) : SchedulerEvent := waitEvents.getD i (.beginWait 1 2)

/-- The scheduler before each of these events. -/
def waitState (i : ℕ) : AdaptiveScheduler := AdaptiveScheduler.run ((List.range i).map waitCall)

/-- The run goes on with the next event. -/
theorem waitState_succ (i : ℕ) : waitState (i + 1) = (waitState i).next (waitCall i) := by
  unfold waitState AdaptiveScheduler.run
  rw [List.range_succ, List.map_append, List.foldl_append]
  rfl

theorem waitCall_of_le {i : ℕ} (hi : 6 ≤ i) : waitCall i = .beginWait 1 2 :=
  List.getD_eq_default _ _ hi

/-- The workers and the callers have nothing to do, and there is no task 2. -/
structure Rests (s : AdaptiveScheduler) : Prop where
  calls : s.calls.keys = []
  records : s.records.lookup 2 = none
  workers : ∀ backend, (s.workers backend).running = none ∧ (s.workers backend).queue = []

theorem Rests.lookup {s : AdaptiveScheduler} (h : Rests s) (caller : ℕ) :
    s.calls.lookup caller = none := by
  refine AList.lookup_eq_none.mpr fun hmem => ?_
  have hmem : caller ∈ s.calls.keys := hmem
  rw [h.calls] at hmem
  cases hmem

/-- From the sixth event on the scheduler rests. -/
theorem rests_waitState {i : ℕ} (hi : 6 ≤ i) : Rests (waitState i) := by
  induction i, hi using Nat.le_induction with
  | base =>
    refine ⟨by decide +kernel, ?_, fun backend => ?_⟩
    · exact AList.lookup_eq_none.mpr (by decide +kernel)
    · cases backend <;> decide +kernel
  | succ i hi ih =>
    have hnext : waitState (i + 1) = { waitState i with
        returned := (waitState i).returned.insert 1 { errorMessage := "Invalid TaskHandle" } } := by
      rw [waitState_succ, waitCall_of_le hi]
      simp only [AdaptiveScheduler.next, beginWait, ih.lookup 1, ih.records]
    rw [hnext]
    exact ⟨ih.calls, ih.records, ih.workers⟩

/-- The run. -/
def waitRun : system.InfiniteRun anyCall where
  state := waitState
  call := waitCall
  init := rfl
  guarded _ := trivial
  step i := by
    refine ⟨?_, waitState_succ i⟩
    by_cases hi : 6 ≤ i
    · rw [waitCall_of_le hi]
      exact (rests_waitState hi).lookup 1
    · match i with
      | 0 => trivial
      | 1 => rfl
      | 2 => exact ⟨rfl, nofun⟩
      | 3 => exact nofun
      | 4 => exact ⟨_, _, _, rfl, rfl⟩
      | 5 => exact ⟨_, _, _, rfl⟩
      | i + 6 => exact absurd (Nat.le_add_left 6 i) hi

/-- In the run, the wait returns the result of the task, and the worker keeps it. -/
theorem wait_returns_waitRun : ∃ j result, 2 ≤ j ∧ (waitRun.state j).calls.lookup 1 = none ∧
    (waitRun.state j).returned.lookup 1 = some result ∧
    ∀ k, j ≤ k → ((waitRun.state k).workers .cpu).wait 1 = some result := by
  have hcall : (waitRun.state 2).calls.lookup 1 =
      some (.blocked 1 ⟨1, .cpu, { cpuExecute := true }, {}⟩) := rfl
  refine wait_returns waitRun hcall (fun i henabled => ?_) fun i henabled => ?_
  · obtain ⟨event, _, hown, hstep, -⟩ := henabled (max i 6) (le_max_left _ _)
    have hrests : Rests (waitRun.state (max i 6)) := rests_waitState (le_max_right i 6)
    cases event with
    | take backend => exact absurd (hrests.workers backend).2 hstep.2
    | finish backend outcome computeMs => exact absurd (hrests.workers backend).1 hstep
    | _ => exact hown.elim
  · obtain ⟨event, _, hown, hstep, -⟩ := henabled (max i 6) (le_max_left _ _)
    have hrests : Rests (waitRun.state (max i 6)) := rests_waitState (le_max_right i 6)
    cases event with
    | wake caller =>
      obtain ⟨_, _, _, hcall, -⟩ := hstep
      cases hcall.symm.trans (hrests.lookup caller)
    | endWait caller =>
      obtain ⟨_, _, _, hcall⟩ := hstep
      cases hcall.symm.trans (hrests.lookup caller)
    | _ => exact hown.elim

end HeteroAccel.Scheduler
