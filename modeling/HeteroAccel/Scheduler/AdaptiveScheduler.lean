import HeteroAccel.Lib.KeyedMap
import HeteroAccel.Scheduler.CostSamples

/-!
# The adaptive scheduler

`AdaptiveScheduler` with its three workers, each of which executes its jobs in a thread of its own.
`wait` looks the task up, blocks in the worker until the job is done, and then feeds the history;
other calls and the threads go on between these steps. `schedule` and `scheduleToBackend` differ in
their plans only, so the plan is an argument.

Handles are natural numbers. What a callback does, and the time it takes, is an event.

## Main definitions

* `Worker`: the jobs of a worker, its queue and its thread;
* `AdaptiveScheduler.next`: the steps of callers and threads;
* `FeedsOnce`: each successful task that was waited for has given the history one sample.

## Main results

* `feedsOnce_iff`: it is so exactly when no such task was waited for twice, or took no time;
* `not_feedsOnce`: two calls of `wait` on one handle.
-/

namespace HeteroAccel.Scheduler

open HeteroAccel.Model (ComputeBackend)

/-- The states of a task. -/
inductive TaskStatus where
  | queued | transferring | running | completed | failed
  deriving DecidableEq, Repr

/-- A result with all that a worker writes. -/
structure WorkerResult extends TaskResult where
  status : TaskStatus := .failed
  totalMs : ℚ := 0
  errorMessage : String := ""

/-- A task, as the worker of its backend knows it. -/
structure Job where
  workload : Workload
  plan : ExecutionPlan
  status : TaskStatus := .queued
  result : WorkerResult := {}

/-- The job has been executed. -/
def Job.done (job : Job) : Bool := job.status = .completed || job.status = .failed

/-- What the callback of a workload does. -/
inductive CallbackOutcome where
  | returns (success : Bool)
  | throws (what : String)

/-- The callback for a backend is present. -/
def Workload.callback (workload : Workload) : ComputeBackend → Bool
  | .cpu => workload.cpuExecute
  | .vulkan => workload.vulkanExecute
  | .cuda => workload.cudaExecute

/-- The error of a worker whose callback is missing. -/
def missingCallback : ComputeBackend → String
  | .cpu => "CPU execute callback not provided"
  | .vulkan => "Vulkan execute callback not provided"
  | .cuda => "CUDA execute callback not provided / CUDA unavailable"

/-! ## Workers -/

/-- A worker; `running` is the job that its thread executes. -/
structure Worker where
  nextHandle : ℕ := 1
  queue : List ℕ := []
  jobs : KeyedMap ℕ Job := ∅
  running : Option ℕ := none

namespace Worker

variable (w : Worker)

/-- A job joins the queue of the worker under the next handle. -/
def submit (workload : Workload) (plan : ExecutionPlan) : ℕ × Worker :=
  (w.nextHandle, { w with
    nextHandle := w.nextHandle + 1
    queue := w.queue ++ [w.nextHandle]
    jobs := w.jobs.insert w.nextHandle { workload, plan } })

/-- What `wait` returns; `none` while it blocks. -/
def wait (handle : ℕ) : Option WorkerResult :=
  (w.jobs.lookup handle).bind fun job => if job.done then some job.result else none

/-- `workerLoop` takes the first job of the queue. -/
def take : Worker :=
  match w.running, w.queue with
  | none, handle :: queue =>
    match w.jobs.lookup handle with
    | none => w
    | some job => { w with
        queue
        jobs := w.jobs.insert handle { job with status := .running }
        running := some handle }
  | _, _ => w

/-- The success of a job and its error. -/
def execute (backend : ComputeBackend) (workload : Workload) (outcome : CallbackOutcome) :
    Bool × String :=
  if workload.callback backend then
    match outcome with
    | .returns success => (success, "")
    | .throws what => (false, what)
  else (false, missingCallback backend)

/-- `workerLoop` writes the result of the job that it has executed. -/
def finish (backend : ComputeBackend) (outcome : CallbackOutcome) (computeMs : ℚ) : Worker :=
  match w.running with
  | none => w
  | some handle =>
    match w.jobs.lookup handle with
    | none => w
    | some job =>
      let (success, errorMessage) := execute backend job.workload outcome
      let status : TaskStatus := if success then .completed else .failed
      { w with
        jobs := w.jobs.insert handle { job with
          status
          result := { job.result with
            success, status, computeMs, totalMs := computeMs, errorMessage } }
        running := none }

end Worker

/-! ## The scheduler -/

/-- A task, as the scheduler knows it: where it went, and under which handle of the worker. -/
structure TaskRecord where
  workerHandle : ℕ
  backend : ComputeBackend
  workload : Workload
  plan : ExecutionPlan

/-- A call of `wait` that has not returned: it blocks in the worker, or has the worker's answer. -/
inductive WaitCall where
  | blocked (task : ℕ) (record : TaskRecord)
  | woken (task : ℕ) (record : TaskRecord) (result : WorkerResult)

/-- The scheduler with its callers. The last two fields follow the calls of `wait` and decide
nothing. -/
structure AdaptiveScheduler where
  history : SampledHistory := .new
  workers : ComputeBackend → Worker := fun _ => {}
  nextHandle : ℕ := 1
  records : KeyedMap ℕ TaskRecord := ∅
  /-- The calls of `wait` under way, by their callers. -/
  calls : KeyedMap ℕ WaitCall := ∅
  /-- What `wait` has returned last to a caller. -/
  returned : KeyedMap ℕ WorkerResult := ∅
  /-- The tasks that `wait` has returned for, one after the other. -/
  waited : List ℕ := []
  /-- The tasks from which the history has taken a sample, one after the other. -/
  sampled : List ℕ := []

/-- A step of a caller or of a worker's thread. -/
inductive SchedulerEvent where
  | submit (workload : Workload) (plan : ExecutionPlan)
  | take (backend : ComputeBackend)
  | finish (backend : ComputeBackend) (outcome : CallbackOutcome) (computeMs : ℚ)
  | beginWait (caller task : ℕ)
  | wake (caller : ℕ)
  | endWait (caller : ℕ)

namespace AdaptiveScheduler

variable (s : AdaptiveScheduler)

/-- The task goes to the worker that its plan selects, and gets a handle of the scheduler. -/
def submitToWorker (workload : Workload) (plan : ExecutionPlan) : ℕ × AdaptiveScheduler :=
  let (workerHandle, worker) := (s.workers plan.selectedBackend).submit workload plan
  (s.nextHandle, { s with
    workers := Function.update s.workers plan.selectedBackend worker
    nextHandle := s.nextHandle + 1
    records := s.records.insert s.nextHandle
      { workerHandle, backend := plan.selectedBackend, workload, plan } })

/-- `wait` up to the call of the worker's `wait`. -/
def beginWait (caller task : ℕ) : AdaptiveScheduler :=
  match s.calls.lookup caller, s.records.lookup task with
  | none, some record => { s with calls := s.calls.insert caller (.blocked task record) }
  | none, none => { s with
      returned := s.returned.insert caller { errorMessage := "Invalid TaskHandle" } }
  -- a caller makes one call at a time
  | some _, _ => s

/-- The worker's `wait` returns. -/
def wake (caller : ℕ) : AdaptiveScheduler :=
  match s.calls.lookup caller with
  | some (.blocked task record) =>
    match (s.workers record.backend).wait record.workerHandle with
    | some result => { s with calls := s.calls.insert caller (.woken task record result) }
    | none => s
  | _ => s

/-- The sample of a task with its result. -/
def sample (record : TaskRecord) (result : WorkerResult) : Sample :=
  ⟨record.backend, record.workload, result.toTaskResult⟩

/-- The rest of `wait`. -/
def endWait (caller : ℕ) : AdaptiveScheduler :=
  match s.calls.lookup caller with
  | some (.woken task record result) => { s with
      history :=
        if result.success then s.history.recordCompletion (sample record result) else s.history
      calls := s.calls.erase caller
      returned := s.returned.insert caller result
      waited := s.waited ++ [task]
      sampled := if (sample record result).counts then s.sampled ++ [task] else s.sampled }
  | _ => s

/-- The state after a step; a step that cannot be taken leaves the state as it is. -/
def next : SchedulerEvent → AdaptiveScheduler
  | .submit workload plan => (s.submitToWorker workload plan).2
  | .take backend => { s with
      workers := Function.update s.workers backend (s.workers backend).take }
  | .finish backend outcome computeMs => { s with
      workers := Function.update s.workers backend
        ((s.workers backend).finish backend outcome computeMs) }
  | .beginWait caller task => s.beginWait caller task
  | .wake caller => s.wake caller
  | .endWait caller => s.endWait caller

/-- The state after steps in the order in which they are taken. -/
def run (events : List SchedulerEvent) : AdaptiveScheduler := events.foldl next {}

/-! ## The property -/

/-- The sample that a task gives once it is done. -/
def sample? (task : ℕ) : Option Sample :=
  (s.records.lookup task).bind fun record =>
    ((s.workers record.backend).wait record.workerHandle).map (sample record)

/-- The task is done, and was successful. -/
def Succeeded (task : ℕ) : Prop :=
  ∃ sample, s.sample? task = some sample ∧ sample.result.success = true

/-- The history has taken one sample from each successful task that was waited for, and none from
the others; its averages are those of the samples. -/
structure FeedsOnce : Prop where
  once : ∀ task, task ∈ s.waited → s.Succeeded task → s.sampled.count task = 1
  otherwise : ∀ task, ¬ (task ∈ s.waited ∧ s.Succeeded task) → s.sampled.count task = 0
  averages : s.history = .after (s.sampled.filterMap s.sample?)

/-- No successful task was waited for more than once, and none that was waited for took no time. -/
def WaitedOnce : Prop :=
  ∀ task ∈ s.waited, ∀ sample, s.sample? task = some sample → sample.result.success = true →
    s.waited.count task = 1 ∧ 0 < sample.result.computeMs

end AdaptiveScheduler

/-! ## What workers keep -/

namespace Worker

variable {w w' : Worker} {handle : ℕ}

/-- The jobs in the queue have not been taken, the one that the thread executes is running, and no
job has the next handle. -/
structure Fits (w : Worker) : Prop where
  queued : ∀ handle ∈ w.queue, ∃ job, w.jobs.lookup handle = some job ∧ job.status = .queued
  nodup : w.queue.Nodup
  running : ∀ handle, w.running = some handle →
    ∃ job, w.jobs.lookup handle = some job ∧ job.status = .running
  below : ∀ handle job, w.jobs.lookup handle = some job → handle < w.nextHandle

/-- The results that there are stay. -/
def Keeps (w w' : Worker) : Prop :=
  ∀ handle result, w.wait handle = some result → w'.wait handle = some result

/-- Only a job that is done has a result, so that any other may change. -/
theorem keeps_of_insert {job' : Job} (hjobs : w'.jobs = w.jobs.insert handle job')
    (h : ∀ job, w.jobs.lookup handle = some job → job.done = false) : w.Keeps w' := by
  intro other result hwait
  unfold wait at hwait ⊢
  rw [hjobs]
  by_cases heq : other = handle
  · rw [heq] at hwait
    obtain ⟨job, hjob, hdone⟩ := Option.bind_eq_some_iff.mp hwait
    rw [h job hjob] at hdone
    cases hdone
  · rwa [AList.lookup_insert_ne heq]

theorem lookup_nextHandle (h : w.Fits) : w.jobs.lookup w.nextHandle = none := by
  cases hjob : w.jobs.lookup w.nextHandle with
  | none => rfl
  | some job => exact absurd (h.below _ job hjob) (lt_irrefl _)

/-- A submission keeps the worker's invariant. -/
theorem Fits.submit (h : w.Fits) (workload : Workload) (plan : ExecutionPlan) :
    (w.submit workload plan).2.Fits := by
  -- the new handle is in no queue yet
  have hnew : ∀ handle ∈ w.queue, handle ≠ w.nextHandle := by
    rintro _ hmem rfl
    obtain ⟨job, hjob, -⟩ := h.queued _ hmem
    rw [lookup_nextHandle h] at hjob
    cases hjob
  refine ⟨fun handle hmem => ?queued, ?nodup, fun handle hrunning => ?running,
    fun handle job hjob => ?below⟩
  case queued =>
    rcases List.mem_append.mp hmem with hmem | hmem
    · obtain ⟨job, hjob, hstatus⟩ := h.queued handle hmem
      exact ⟨job, (AList.lookup_insert_ne (hnew handle hmem)).trans hjob, hstatus⟩
    · rw [List.mem_singleton.mp hmem]
      exact ⟨_, AList.lookup_insert _, rfl⟩
  case nodup =>
    refine h.nodup.append (List.nodup_singleton _) (List.disjoint_singleton.mpr fun hmem => ?_)
    exact hnew _ hmem rfl
  case running =>
    obtain ⟨job, hjob, hstatus⟩ := h.running handle hrunning
    refine ⟨job, (AList.lookup_insert_ne ?_).trans hjob, hstatus⟩
    exact (h.below handle job hjob).ne
  case below =>
    have hjob : (w.jobs.insert w.nextHandle { workload, plan }).lookup handle = some job := hjob
    rw [KeyedMap.lookup_insert_eq_ite] at hjob
    split at hjob
    next heq => exact heq ▸ Nat.lt_succ_self _
    next => exact (h.below handle job hjob).trans (Nat.lt_succ_self _)

theorem keeps_submit (h : w.Fits) (workload : Workload) (plan : ExecutionPlan) :
    w.Keeps (w.submit workload plan).2 := by
  refine keeps_of_insert rfl fun job hjob => ?_
  rw [lookup_nextHandle h] at hjob
  cases hjob

/-- The thread takes the first job of the queue, or nothing happens. -/
theorem take_cases (h : w.Fits) : w.take = w ∨ ∃ handle queue job,
    w.running = none ∧ w.queue = handle :: queue ∧ w.jobs.lookup handle = some job ∧
    job.status = .queued ∧
    w.take = { w with
      queue
      jobs := w.jobs.insert handle { job with status := .running }
      running := some handle } := by
  unfold take
  split
  next handle queue hrunning hqueue =>
    obtain ⟨job, hjob, hstatus⟩ := h.queued handle (by rw [hqueue]; exact List.mem_cons_self)
    rw [hjob]
    exact .inr ⟨handle, queue, job, hrunning, hqueue, hjob, hstatus, rfl⟩
  next => exact .inl rfl

/-- A job that is taken keeps the worker's invariant. -/
theorem Fits.take (h : w.Fits) : w.take.Fits := by
  rcases take_cases h with heq | ⟨handle, queue, job, -, hqueue, hjob, -, heq⟩
  · rw [heq]
    exact h
  · rw [heq]
    have hnodup := h.nodup
    rw [hqueue, List.nodup_cons] at hnodup
    refine ⟨fun other hmem => ?_, hnodup.2, fun other hrunning => ?_, fun other job' hjob' => ?_⟩
    · have hne : other ≠ handle := fun heq => hnodup.1 (heq ▸ hmem)
      obtain ⟨job', hjob', hstatus'⟩ := h.queued other (hqueue ▸ List.mem_cons_of_mem _ hmem)
      exact ⟨job', (AList.lookup_insert_ne hne).trans hjob', hstatus'⟩
    · cases hrunning
      exact ⟨_, AList.lookup_insert _, rfl⟩
    · have hjob' : (w.jobs.insert handle { job with status := .running }).lookup other =
        some job' := hjob'
      rw [KeyedMap.lookup_insert_eq_ite] at hjob'
      split at hjob'
      next heq => exact heq ▸ h.below handle job hjob
      next => exact h.below other job' hjob'

/-- A job that is taken keeps the results. -/
theorem keeps_take (h : w.Fits) : w.Keeps w.take := by
  rcases take_cases h with heq | ⟨handle, queue, job, -, -, hjob, hstatus, heq⟩
  · rw [heq]
    exact fun _ _ => id
  · rw [heq]
    refine keeps_of_insert rfl fun job' hjob' => ?_
    rw [hjob] at hjob'
    cases hjob'
    simp [Job.done, hstatus]

/-- The thread completes the job that it executes, or nothing happens. -/
theorem finish_cases (h : w.Fits) (backend : ComputeBackend) (outcome : CallbackOutcome)
    (computeMs : ℚ) : w.finish backend outcome computeMs = w ∨ ∃ handle job job',
      w.running = some handle ∧ w.jobs.lookup handle = some job ∧ job.status = .running ∧
      w.finish backend outcome computeMs = { w with
        jobs := w.jobs.insert handle job'
        running := none } := by
  unfold finish
  split
  next => exact .inl rfl
  next handle hrunning =>
    obtain ⟨job, hjob, hstatus⟩ := h.running handle hrunning
    rw [hjob]
    exact .inr ⟨handle, job, _, hrunning, hjob, hstatus, rfl⟩

/-- A job that is finished keeps the worker's invariant. -/
theorem Fits.finish (h : w.Fits) (backend : ComputeBackend) (outcome : CallbackOutcome)
    (computeMs : ℚ) : (w.finish backend outcome computeMs).Fits := by
  rcases finish_cases h backend outcome computeMs with
    heq | ⟨handle, job, job', hrunning, hjob, hstatus, heq⟩
  · rw [heq]
    exact h
  · rw [heq]
    refine ⟨fun other hmem => ?_, h.nodup, fun other hrunning => ?_, fun other job₁ hjob₁ => ?_⟩
    · obtain ⟨job₁, hjob₁, hstatus₁⟩ := h.queued other hmem
      -- the job that runs is not in the queue
      have hne : other ≠ handle := by
        rintro rfl
        rw [hjob] at hjob₁
        cases hjob₁
        rw [hstatus] at hstatus₁
        cases hstatus₁
      exact ⟨job₁, (AList.lookup_insert_ne hne).trans hjob₁, hstatus₁⟩
    · cases hrunning
    · have hjob₁ : (w.jobs.insert handle job').lookup other = some job₁ := hjob₁
      rw [KeyedMap.lookup_insert_eq_ite] at hjob₁
      split at hjob₁
      next heq => exact heq ▸ h.below handle job hjob
      next => exact h.below other job₁ hjob₁

/-- A job that is finished keeps the results. -/
theorem keeps_finish (h : w.Fits) (backend : ComputeBackend) (outcome : CallbackOutcome)
    (computeMs : ℚ) : w.Keeps (w.finish backend outcome computeMs) := by
  rcases finish_cases h backend outcome computeMs with
    heq | ⟨handle, job, job', -, hjob, hstatus, heq⟩
  · rw [heq]
    exact fun _ _ => id
  · rw [heq]
    refine keeps_of_insert rfl fun job₁ hjob₁ => ?_
    rw [hjob] at hjob₁
    cases hjob₁
    simp [Job.done, hstatus]

end Worker

/-! ## What the scheduler keeps -/

namespace AdaptiveScheduler

variable {s s' : AdaptiveScheduler} {task : ℕ}

/-- Tasks keep their records, and the results that there are stay. -/
structure Extends (s s' : AdaptiveScheduler) : Prop where
  records : ∀ task record, s.records.lookup task = some record →
    s'.records.lookup task = some record
  workers : ∀ backend, (s.workers backend).Keeps (s'.workers backend)

/-- A task with a record and a result gives a sample. -/
theorem sample?_eq_some {record : TaskRecord} {result : WorkerResult}
    (hrecord : s.records.lookup task = some record)
    (hresult : (s.workers record.backend).wait record.workerHandle = some result) :
    s.sample? task = some (sample record result) := by
  rw [sample?, hrecord, Option.bind_some, hresult]
  rfl

/-- The sample of a task stays once it is there. -/
theorem Extends.sample? (h : Extends s s') {smp : Sample} (hsample : s.sample? task = some smp) :
    s'.sample? task = some smp := by
  obtain ⟨record, hrecord, hsample⟩ := Option.bind_eq_some_iff.mp hsample
  obtain ⟨result, hresult, rfl⟩ := Option.map_eq_some_iff.mp hsample
  exact sample?_eq_some (h.records task record hrecord) (h.workers _ _ result hresult)

/-- The invariant: a call knows the record of its task and, when woken, its result; the history has
counted the samples of the tasks that were waited for, as often as they were. -/
structure Consistent (s : AdaptiveScheduler) : Prop where
  workers : ∀ backend, (s.workers backend).Fits
  below : ∀ task record, s.records.lookup task = some record → task < s.nextHandle
  blocked : ∀ caller task record, s.calls.lookup caller = some (.blocked task record) →
    s.records.lookup task = some record
  woken : ∀ caller task record result, s.calls.lookup caller = some (.woken task record result) →
    s.records.lookup task = some record ∧
      (s.workers record.backend).wait record.workerHandle = some result
  waited : ∀ task ∈ s.waited, ∃ smp, s.sample? task = some smp
  sampled : ∀ task, s.sampled.count task =
    if (s.sample? task).any Sample.counts then s.waited.count task else 0
  history : s.history = .after (s.sampled.filterMap s.sample?)

theorem consistent_new : Consistent {} where
  workers _ := ⟨fun _ h => (nomatch h), .nil, fun _ h => (nomatch h), fun _ _ h => (nomatch h)⟩
  below _ _ h := nomatch h
  blocked _ _ _ h := nomatch h
  woken _ _ _ _ h := nomatch h
  waited _ h := nomatch h
  sampled _ := rfl
  history := rfl

/-- A task that gave a sample was waited for. -/
theorem Consistent.mem_waited (h : Consistent s) (hmem : task ∈ s.sampled) : task ∈ s.waited := by
  have hpos := List.count_pos_iff.mpr hmem
  rw [h.sampled] at hpos
  split at hpos
  next => exact List.count_pos_iff.mp hpos
  next => cases hpos

/-- A step of a worker, or a submission, which leaves the calls of `wait` alone. -/
theorem Consistent.of_extends (h : Consistent s) (hext : Extends s s')
    (hworkers : ∀ backend, (s'.workers backend).Fits)
    (hbelow : ∀ task record, s'.records.lookup task = some record → task < s'.nextHandle)
    (hcalls : s'.calls = s.calls) (hwaited : s'.waited = s.waited)
    (hsampled : s'.sampled = s.sampled) (hhistory : s'.history = s.history) : Consistent s' := by
  -- a sample that was taken is never taken back
  have hsame : ∀ task ∈ s.waited, s'.sample? task = s.sample? task := by
    intro task hmem
    obtain ⟨smp, hsmp⟩ := h.waited task hmem
    rw [hsmp, hext.sample? hsmp]
  refine ⟨hworkers, hbelow, ?blocked, ?woken, ?waited, fun task => ?sampled, ?history⟩
  case blocked =>
    rw [hcalls]
    exact fun caller task record hcall => hext.records _ _ (h.blocked caller task record hcall)
  case woken =>
    rw [hcalls]
    intro caller task record result hcall
    obtain ⟨hrecord, hresult⟩ := h.woken caller task record result hcall
    exact ⟨hext.records _ _ hrecord, hext.workers _ _ _ hresult⟩
  case waited =>
    rw [hwaited]
    intro task hmem
    rw [hsame task hmem]
    exact h.waited task hmem
  case sampled =>
    rw [hsampled, hwaited, h.sampled]
    by_cases hmem : task ∈ s.waited
    · rw [hsame task hmem]
    · simp [List.count_eq_zero_of_not_mem hmem]
  case history =>
    rw [hhistory, hsampled, h.history]
    congr 1
    exact List.filterMap_congr fun task hmem => (hsame task (h.mem_waited hmem)).symm

/-- A step that changes calls of `wait` only. -/
theorem Consistent.of_calls (h : Consistent s) {calls : KeyedMap ℕ WaitCall}
    {returned : KeyedMap ℕ WorkerResult}
    (hblocked : ∀ caller task record, calls.lookup caller = some (.blocked task record) →
      s.records.lookup task = some record)
    (hwoken : ∀ caller task record result, calls.lookup caller = some (.woken task record result) →
      s.records.lookup task = some record ∧
        (s.workers record.backend).wait record.workerHandle = some result) :
    Consistent { s with calls, returned } :=
  { h with blocked := hblocked, woken := hwoken }

theorem fits_update {backend : ComputeBackend} {w : Worker} (h : Consistent s) (hw : w.Fits)
    (other : ComputeBackend) : (Function.update s.workers backend w other).Fits := by
  by_cases heq : other = backend
  · rw [heq, Function.update_self]
    exact hw
  · rw [Function.update_of_ne heq]
    exact h.workers other

/-- A worker that keeps the results may replace the one before. -/
theorem keeps_update {backend : ComputeBackend} {w : Worker} (hw : (s.workers backend).Keeps w)
    (other : ComputeBackend) :
    (s.workers other).Keeps (Function.update s.workers backend w other) := by
  by_cases heq : other = backend
  · rw [heq, Function.update_self]
    exact hw
  · rw [Function.update_of_ne heq]
    exact fun _ _ => id

/-- A submission keeps the scheduler consistent. -/
theorem Consistent.submit (h : Consistent s) (workload : Workload) (plan : ExecutionPlan) :
    Consistent (s.submitToWorker workload plan).2 := by
  have hworker := h.workers plan.selectedBackend
  refine h.of_extends ⟨fun task record hrecord => ?_, keeps_update ?_⟩ (fits_update h ?_)
    (fun task record hrecord => ?_) rfl rfl rfl rfl
  · refine (AList.lookup_insert_ne ?_).trans hrecord
    exact (h.below task record hrecord).ne
  · exact Worker.keeps_submit hworker workload plan
  · exact hworker.submit workload plan
  · have hrecord : (s.records.insert s.nextHandle _).lookup task = some record := hrecord
    rw [KeyedMap.lookup_insert_eq_ite] at hrecord
    split at hrecord
    next heq => exact heq ▸ Nat.lt_succ_self _
    next => exact (h.below task record hrecord).trans (Nat.lt_succ_self _)

/-- A step of a worker's thread. -/
theorem Consistent.worker (h : Consistent s) {backend : ComputeBackend} {w : Worker}
    (hfits : w.Fits) (hkeeps : (s.workers backend).Keeps w) :
    Consistent { s with workers := Function.update s.workers backend w } :=
  h.of_extends ⟨fun _ _ => id, keeps_update hkeeps⟩ (fits_update h hfits) h.below rfl rfl rfl rfl

/-- The beginning of a wait keeps the scheduler consistent. -/
theorem Consistent.beginWait (h : Consistent s) (caller task : ℕ) :
    Consistent (s.beginWait caller task) := by
  unfold AdaptiveScheduler.beginWait
  split
  next record _ hrecord =>
    refine h.of_calls (fun other task' record' hcall => ?_)
      fun other task' record' result hcall => ?_
    · rw [KeyedMap.lookup_insert_eq_ite] at hcall
      split at hcall
      next =>
        cases hcall
        exact hrecord
      next => exact h.blocked other task' record' hcall
    · rw [KeyedMap.lookup_insert_eq_ite] at hcall
      split at hcall
      next => cases hcall
      next => exact h.woken other task' record' result hcall
  next => exact h.of_calls h.blocked h.woken
  next => exact h

/-- A wake-up keeps the scheduler consistent. -/
theorem Consistent.wake (h : Consistent s) (caller : ℕ) : Consistent (s.wake caller) := by
  unfold AdaptiveScheduler.wake
  split
  next task record hcaller =>
    split
    next result hresult =>
      refine h.of_calls (fun other task' record' hcall => ?_)
        fun other task' record' result' hcall => ?_
      · rw [KeyedMap.lookup_insert_eq_ite] at hcall
        split at hcall
        next => cases hcall
        next => exact h.blocked other task' record' hcall
      · rw [KeyedMap.lookup_insert_eq_ite] at hcall
        split at hcall
        next =>
          cases hcall
          exact ⟨h.blocked caller task record hcaller, hresult⟩
        next => exact h.woken other task' record' result' hcall
    next => exact h
  next => exact h

/-- What `wait` hands to the history when the task was successful is counted unless the task took
no time; otherwise nothing is. -/
theorem history_endWait (history : SampledHistory) (record : TaskRecord) (result : WorkerResult) :
    (if result.success then history.recordCompletion (sample record result) else history) =
      if (sample record result).counts then history.recordCompletion (sample record result)
      else history := by
  by_cases hcounts : (sample record result).counts = true
  · have hsuccess : result.success = true := (Bool.and_eq_true_iff.mp hcounts).1
    rw [if_pos hcounts, if_pos hsuccess]
  · have hignored : history.recordCompletion (sample record result) = history :=
      if_pos (by simpa using hcounts)
    rw [if_neg hcounts, hignored, ite_self]

/-- The end of a wait keeps the scheduler consistent. -/
theorem Consistent.endWait (h : Consistent s) (caller : ℕ) : Consistent (s.endWait caller) := by
  unfold AdaptiveScheduler.endWait
  split
  next task record result hcaller =>
    obtain ⟨hrecord, hresult⟩ := h.woken caller task record result hcaller
    have hsample := sample?_eq_some hrecord hresult
    refine ⟨h.workers, h.below, fun other task' record' hother => ?_,
      fun other task' record' result' hother => ?_, fun task' hmem => ?_, fun task' => ?_, ?_⟩
    · exact h.blocked other task' record' (KeyedMap.lookup_of_lookup_erase hother)
    · exact h.woken other task' record' result' (KeyedMap.lookup_of_lookup_erase hother)
    · rcases List.mem_append.mp hmem with hmem | hmem
      · exact h.waited task' hmem
      · rw [List.mem_singleton.mp hmem]
        exact ⟨_, hsample⟩
    · show (if (sample record result).counts then s.sampled ++ [task] else s.sampled).count task' =
        if (s.sample? task').any Sample.counts then (s.waited ++ [task]).count task' else 0
      have hbefore := h.sampled task'
      -- the task that was waited for counts once more, if its sample counts
      by_cases htask : task' = task
      · rw [htask, hsample] at hbefore ⊢
        by_cases hcounts : (sample record result).counts = true
        · simp only [hcounts, Option.any_some, ↓reduceIte, List.count_append] at hbefore ⊢
          rw [hbefore]
        · simp only [hcounts, Option.any_some, Bool.false_eq_true, ↓reduceIte] at hbefore ⊢
          exact hbefore
      · have hnot : [task].count task' = 0 :=
          List.count_eq_zero_of_not_mem fun hmem => htask (List.mem_singleton.mp hmem)
        rw [List.count_append, hnot, Nat.add_zero, ← hbefore]
        split
        next => rw [List.count_append, hnot, Nat.add_zero]
        next => rfl
    · show (if result.success then s.history.recordCompletion (sample record result)
        else s.history) = .after ((if (sample record result).counts then s.sampled ++ [task]
          else s.sampled).filterMap s.sample?)
      rw [history_endWait]
      split
      next =>
        rw [List.filterMap_append, List.filterMap_cons_some hsample, List.filterMap_nil,
          SampledHistory.after_concat, h.history]
      next => exact h.history
  next => exact h

/-- Each step keeps the invariant. -/
theorem Consistent.next (h : Consistent s) (event : SchedulerEvent) :
    Consistent (s.next event) := by
  cases event with
  | submit workload plan => exact h.submit workload plan
  | take backend =>
    exact h.worker (h.workers backend).take (Worker.keeps_take (h.workers backend))
  | finish backend outcome computeMs =>
    exact h.worker ((h.workers backend).finish backend outcome computeMs)
      (Worker.keeps_finish (h.workers backend) backend outcome computeMs)
  | beginWait caller task => exact h.beginWait caller task
  | wake caller => exact h.wake caller
  | endWait caller => exact h.endWait caller

/-- The invariant holds after any steps. -/
theorem consistent_run (events : List SchedulerEvent) : Consistent (run events) := by
  induction events using List.reverseRecOn with
  | nil => exact consistent_new
  | append_singleton events event ih =>
    rw [run, List.foldl_concat]
    exact ih.next event

/-! ## Samples and calls of `wait` -/

/-- If each task feeds the history once, each is waited for once. -/
theorem Consistent.waitedOnce (h : Consistent s) (hfeeds : s.FeedsOnce) : s.WaitedOnce := by
  intro task hmem smp hsample hsuccess
  have hone := hfeeds.once task hmem ⟨smp, hsample, hsuccess⟩
  rw [h.sampled, hsample, Option.any_some] at hone
  split at hone
  next hcounts => exact ⟨hone, SampledHistory.computeMs_pos hcounts⟩
  next => cases hone

/-- If each task is waited for once, each feeds the history once. -/
theorem Consistent.feedsOnce (h : Consistent s) (hwaited : s.WaitedOnce) : s.FeedsOnce where
  once task hmem hsucceeded := by
    obtain ⟨smp, hsample, hsuccess⟩ := hsucceeded
    obtain ⟨hone, hpos⟩ := hwaited task hmem smp hsample hsuccess
    have hcounts : smp.counts = true := by simp [Sample.counts, hsuccess, hpos]
    rw [h.sampled, hsample, Option.any_some, if_pos hcounts, hone]
  otherwise task hnot := by
    rw [h.sampled]
    cases hsample : s.sample? task with
    | none => rfl
    | some smp =>
      rw [Option.any_some]
      split
      next hcounts =>
        have hsuccess : smp.result.success = true := (Bool.and_eq_true_iff.mp hcounts).1
        exact List.count_eq_zero_of_not_mem fun hmem => hnot ⟨hmem, smp, hsample, hsuccess⟩
      next => rfl
  averages := h.history

end AdaptiveScheduler

open AdaptiveScheduler

/-- **Samples.** After any steps of callers and threads, each successful task that was waited for
has given exactly one sample, and no other task any, exactly when no such task was waited for more
than once and none took no time. -/
theorem feedsOnce_iff (events : List SchedulerEvent) :
    (run events).FeedsOnce ↔ (run events).WaitedOnce :=
  ⟨(consistent_run events).waitedOnce, (consistent_run events).feedsOnce⟩

/-- A task on the CPU that takes a millisecond. -/
def sampleEvents : List SchedulerEvent :=
  [.submit { cpuExecute := true, computeOpsEstimate := 1000 } {}, .take .cpu,
    .finish .cpu (.returns true) 1]

/-- Two callers wait for it, and the history takes its sample twice. -/
theorem not_feedsOnce : ¬∀ events, (run events).FeedsOnce := by
  intro hall
  let events : List SchedulerEvent := sampleEvents ++
    [.beginWait 1 1, .beginWait 2 1, .wake 1, .wake 2, .endWait 1, .endWait 2]
  have hwaited : (run events).waited = [1, 1] := by decide +kernel
  have hsample : ((run events).sample? 1).map (fun smp => smp.result.success) = some true := by
    decide +kernel
  obtain ⟨smp, hsmp, hsuccess⟩ := Option.map_eq_some_iff.mp hsample
  have hone := ((consistent_run events).waitedOnce (hall events) 1 (by rw [hwaited]; decide) smp
    hsmp hsuccess).1
  rw [hwaited] at hone
  cases hone

end HeteroAccel.Scheduler
