import HeteroAccel.Runtime.HeteroRuntime

/-!
# The states of workloads

A workload should be in a terminal state when `doGenerate` returns, and a terminal state should be
final. `doGenerate` publishes no state where it returns early, nor for a cancelled execution; and
`setRunning` overwrites the state of a workload that is cancelled behind the check of its flag.

## Main definitions

* `GenerateCall.Fits`: the state of a workload by the phase of its call;
* `WorkloadsFit`: the invariant of the calls and their workloads;
* `Publishes`: the steps after which a call has published a state;
* `terminal_of_reachable`: in runs of such steps, workloads end in terminal states, which are final.
-/

namespace HeteroAccel.Runtime

open WorkloadRegistry

/-- The state of a workload for which no execution has been started. -/
def WorkloadEntry.Idle (e : WorkloadEntry) : Prop :=
  e.state = if e.cancelRequested then .cancelled else .queued

/-- The execution has seen its cancellation flag. -/
def ExecutionResult.Cancelled (res : ExecutionResult) : Prop :=
  res.success = false ∧ res.error ∈ HeteroRuntime.cancelErrors

/-- The state of the workload of a call. -/
def GenerateCall.Fits (call : GenerateCall) (e : WorkloadEntry) : Prop :=
  match call.phase with
  | .started => e.Idle
  | .checked => e.state = .queued
  | .running | .picked _ _ => e.state = .running
  | .executed res => e.state = .running ∧ ¬ res.Cancelled
  | .returning _ => e.state.Terminal ∨ (call.prompt = "" ∧ e.Idle)
  | .returned _ => e.state.Terminal

/-- The calls and their workloads. -/
structure WorkloadsFit (s : Sys) : Prop where
  initialized : s.runtime.initialized = true
  nextId : 0 < s.runtime.workloadRegistry.nextId
  /-- Ids are given out in order. -/
  ids : ∀ k e, s.runtime.workloadRegistry.entries.lookup k = some e →
    0 < k ∧ k < s.runtime.workloadRegistry.nextId
  /-- The workload of a call has an entry, in a state that fits the phase of the call. -/
  fits : ∀ call ∈ s.calls, call.workloadId ≠ 0 →
    ∃ e, s.runtime.workloadRegistry.entries.lookup call.workloadId = some e ∧ call.Fits e
  /-- No two calls have the same workload. -/
  distinct : ∀ (c c' : ℕ) (call call' : GenerateCall),
    s.calls[c]? = some call → s.calls[c']? = some call' →
    call.workloadId ≠ 0 → call.workloadId = call'.workloadId → c = c'

/-- An engine can be had: the one that is loaded has the placement, or a new one loads. -/
def HeteroRuntime.Offers (rt : HeteroRuntime) (modelPath : String) (tcfg : TuningConfig)
    (outcome : Option LoadOutcome) : Prop :=
  ((rt.engines.lookup modelPath).isSome ∧ rt.loadedLayers modelPath = tcfg.nGpuLayers) ∨
    (modelPath ≠ "" ∧ ∃ o ∈ outcome, o.fileExists ∧ o.modelLoads ∧ o.contextCreated)

/-- The execution that a call is about to make is cancelled. -/
def Sys.Interrupts (s : Sys) (call : GenerateCall) (outcome : ExecutionResult) : Prop :=
  match call.phase with
  | .picked e _ => ((s.runtime.objects e).execute outcome).1.Cancelled
  | _ => False

/-- The steps after which a call has published a state. -/
def Publishes (s : Sys) (a : Act) : Prop :=
  match a with
  -- no cancellation between the check of the flag and `setRunning`
  | .cancelWorkload id => ∀ call ∈ s.calls, call.workloadId ≠ 0 → call.workloadId = id →
    call.phase ≠ .checked
  -- the engine is created and the model loads
  | .select c tcfg outcome => ∀ call ∈ s.calls[c]?, call.workloadId ≠ 0 →
    s.runtime.Offers call.modelPath tcfg outcome
  -- the execution is not one that has been cancelled
  | .execute c outcome => ∀ call ∈ s.calls[c]?, call.workloadId ≠ 0 →
    ¬ s.Interrupts call outcome
  -- a call with an empty prompt returns for a workload that has been cancelled
  | .leave c => ∀ call ∈ s.calls[c]?, call.workloadId ≠ 0 → call.prompt = "" →
    s.runtime.workloadRegistry.isCancelled call.workloadId
  | _ => True

/-- An engine that can be had is picked. -/
theorem HeteroRuntime.Offers.selectEngine {rt : HeteroRuntime} {modelPath : String}
    {tcfg : TuningConfig} {outcome : Option LoadOutcome} (h : rt.Offers modelPath tcfg outcome)
    (nCtx : Int) : ∃ e, (rt.selectEngine modelPath tcfg nCtx outcome).1 = .ok e := by
  unfold HeteroRuntime.selectEngine
  dsimp only
  split
  next e _ => exact ⟨e, rfl⟩
  next hnone =>
    rcases h with ⟨hsome, hlayers⟩ | ⟨hpath, hloads⟩
    · -- an engine with the placement is not dropped
      rcases rt.dropStale_cases modelPath tcfg with ⟨hlookup, -⟩ | ⟨e, hlookup, -, hdrop⟩ |
        ⟨e, -, hne, -⟩
      · rw [hlookup] at hsome
        cases hsome
      · rw [hdrop, hlookup] at hnone
        cases hnone
      · exact absurd hlayers hne
    · obtain ⟨rt', hadd⟩ := (rt.dropStale modelPath tcfg).addEngine_of_loads tcfg nCtx hpath hloads
      rw [hadd]
      exact ⟨_, rfl⟩

/-! ## Steps -/

/-- Terminal states are kept. -/
def Final (s s' : Sys) : Prop :=
  ∀ k e, s.runtime.workloadRegistry.entries.lookup k = some e → e.state.Terminal →
    ∃ e', s'.runtime.workloadRegistry.entries.lookup k = some e' ∧ e'.state = e.state

variable {s s' : Sys} {a : Act} {c : ℕ} {call : GenerateCall}

/-- A step of a call changes the entry of its own workload only. -/
theorem WorkloadsFit.callChanged (h : WorkloadsFit s) (hc : s.calls[c]? = some call)
    {phase : Phase} {f : WorkloadEntry → WorkloadEntry}
    (hcalls : s'.calls = s.calls.set c { call with phase })
    (hinit : s'.runtime.initialized = s.runtime.initialized)
    (hnext : s'.runtime.workloadRegistry.nextId = s.runtime.workloadRegistry.nextId)
    (hlookup : ∀ k, s'.runtime.workloadRegistry.entries.lookup k =
      if k = call.workloadId then (s.runtime.workloadRegistry.entries.lookup k).map f
      else s.runtime.workloadRegistry.entries.lookup k)
    (hfits : ∀ e, call.workloadId ≠ 0 →
      s.runtime.workloadRegistry.entries.lookup call.workloadId = some e → call.Fits e →
      ({ call with phase } : GenerateCall).Fits (f e))
    (hfinal : ∀ e, call.Fits e → e.state.Terminal → (f e).state = e.state) :
    WorkloadsFit s' ∧ Final s s' := by
  have hmem : call ∈ s.calls := List.mem_of_getElem? hc
  refine ⟨⟨hinit.trans h.initialized, hnext ▸ h.nextId, ?_, ?_, ?_⟩, ?_⟩
  · intro k e hk
    rw [hlookup] at hk
    rw [hnext]
    split at hk
    next =>
      obtain ⟨e₀, he₀, -⟩ := Option.map_eq_some_iff.mp hk
      exact h.ids k e₀ he₀
    next => exact h.ids k e hk
  · intro call' hcall' hid
    obtain ⟨i, hi⟩ := List.mem_iff_getElem?.mp hcall'
    rw [hcalls] at hi
    rcases Sys.getElem?_set_cases hi with ⟨-, rfl⟩ | ⟨hne, hi⟩
    · obtain ⟨e, he, hfit⟩ := h.fits call hmem hid
      refine ⟨f e, ?_, hfits e hid he hfit⟩
      rw [hlookup, if_pos rfl, he, Option.map_some]
    · obtain ⟨e, he, hfit⟩ := h.fits call' (List.mem_of_getElem? hi) hid
      refine ⟨e, ?_, hfit⟩
      rw [hlookup, if_neg fun heq => hne (h.distinct i c call' call hi hc hid heq), he]
  · intro c₁ c₂ call₁ call₂ h₁ h₂ hid heq
    rw [hcalls] at h₁ h₂
    -- the changed call keeps its workload
    have hold : ∀ {i : ℕ} {call' : GenerateCall},
      (s.calls.set c { call with phase })[i]? = some call' →
        ∃ call₀, s.calls[i]? = some call₀ ∧ call₀.workloadId = call'.workloadId := by
      intro i call' hi
      rcases Sys.getElem?_set_cases hi with ⟨rfl, rfl⟩ | ⟨-, hi⟩
      · exact ⟨call, hc, rfl⟩
      · exact ⟨call', hi, rfl⟩
    obtain ⟨call₁', hc₁, hid₁⟩ := hold h₁
    obtain ⟨call₂', hc₂, hid₂⟩ := hold h₂
    exact h.distinct c₁ c₂ call₁' call₂' hc₁ hc₂ (hid₁ ▸ hid) (hid₁.trans (heq.trans hid₂.symm))
  · intro k e hk hterminal
    rw [hlookup, hk, Option.map_some]
    split
    next heq =>
      have hid : call.workloadId ≠ 0 := heq ▸ (h.ids k e hk).1.ne'
      obtain ⟨e₀, he₀, hfit⟩ := h.fits call hmem hid
      rw [← heq, hk] at he₀
      cases he₀
      exact ⟨_, rfl, hfinal e hfit hterminal⟩
    next => exact ⟨e, rfl, rfl⟩

/-- A new call, with a new workload or none. -/
theorem WorkloadsFit.callAdded (h : WorkloadsFit s) {new : GenerateCall}
    (hcalls : s'.calls = s.calls ++ [new])
    (hinit : s'.runtime.initialized = s.runtime.initialized)
    (hnext : s.runtime.workloadRegistry.nextId ≤ s'.runtime.workloadRegistry.nextId)
    (hids : ∀ k e, s'.runtime.workloadRegistry.entries.lookup k = some e →
      0 < k ∧ k < s'.runtime.workloadRegistry.nextId)
    (hold : ∀ k e, s.runtime.workloadRegistry.entries.lookup k = some e →
      s'.runtime.workloadRegistry.entries.lookup k = some e)
    (hnew : new.workloadId ≠ 0 → s.runtime.workloadRegistry.nextId ≤ new.workloadId ∧
      ∃ e, s'.runtime.workloadRegistry.entries.lookup new.workloadId = some e ∧ new.Fits e) :
    WorkloadsFit s' ∧ Final s s' := by
  have hlt : ∀ call ∈ s.calls, call.workloadId ≠ 0 →
      call.workloadId < s.runtime.workloadRegistry.nextId := by
    intro call hcall hid
    obtain ⟨e, he, -⟩ := h.fits call hcall hid
    exact (h.ids _ e he).2
  refine ⟨⟨hinit.trans h.initialized, Nat.lt_of_lt_of_le h.nextId hnext, hids, ?_, ?_⟩, ?_⟩
  · intro call hcall hid
    rw [hcalls, List.mem_append, List.mem_singleton] at hcall
    rcases hcall with hcall | rfl
    · obtain ⟨e, he, hfit⟩ := h.fits call hcall hid
      exact ⟨e, hold _ e he, hfit⟩
    · exact (hnew hid).2
  · intro c c' call call' hc hc' hid heq
    -- an index behind the old calls is that of the new one
    have hcases : ∀ {i : ℕ} {call : GenerateCall}, s'.calls[i]? = some call →
        s.calls[i]? = some call ∨ (i = s.calls.length ∧ call = new) := by
      intro i call hi
      rw [hcalls, List.getElem?_append] at hi
      split at hi
      next => exact .inl hi
      next hge =>
        rw [List.getElem?_singleton] at hi
        split at hi
        next hzero => exact .inr ⟨by omega, (Option.some.inj hi).symm⟩
        next => cases hi
    rcases hcases hc with hc | ⟨rfl, rfl⟩
    · rcases hcases hc' with hc' | ⟨rfl, rfl⟩
      · exact h.distinct c c' call call' hc hc' hid heq
      · have := hlt call (List.mem_of_getElem? hc) hid
        have := (hnew (heq ▸ hid)).1
        omega
    · rcases hcases hc' with hc' | ⟨rfl, rfl⟩
      · have := hlt call' (List.mem_of_getElem? hc') (heq ▸ hid)
        have := (hnew hid).1
        omega
      · rfl
  · exact fun k e hk _ => ⟨e, hold k e hk, rfl⟩

/-- A cancellation fits every phase in which no execution is about to start. -/
theorem GenerateCall.Fits.cancelled {e : WorkloadEntry} (h : call.Fits e)
    (hphase : call.phase ≠ .checked) : call.Fits (WorkloadRegistry.cancelled e) := by
  -- a cancellation changes the state of a queued entry only
  have hidle : e.Idle → (WorkloadRegistry.cancelled e).Idle := by
    intro hidle
    unfold WorkloadEntry.Idle WorkloadRegistry.cancelled at *
    cases hrequested : e.cancelRequested <;> rw [hrequested] at hidle <;> simp_all
  have hrunning : e.state = .running → (WorkloadRegistry.cancelled e).state = .running := by
    intro hrunning
    simp [WorkloadRegistry.cancelled, hrunning]
  have hterminal : e.state.Terminal → (WorkloadRegistry.cancelled e).state.Terminal := by
    intro hterminal
    unfold WorkloadRegistry.cancelled
    rcases hterminal with hstate | hstate | hstate <;> simp [hstate, WorkloadState.Terminal]
  unfold GenerateCall.Fits at h ⊢
  split
  next => exact hidle (by simpa [*] using h)
  next => contradiction
  next => exact hrunning (by simpa [*] using h)
  next => exact hrunning (by simpa [*] using h)
  next res hexecuted =>
    simp only [hexecuted] at h
    exact ⟨hrunning h.1, h.2⟩
  next hreturning =>
    simp only [hreturning] at h
    exact h.imp hterminal fun h => ⟨h.1, hidle h.2⟩
  next => exact hterminal (by simpa [*] using h)

/-- A cancellation leaves terminal states as they are. -/
theorem WorkloadRegistry.state_cancelled {e : WorkloadEntry} (h : e.state.Terminal) :
    (WorkloadRegistry.cancelled e).state = e.state := by
  unfold WorkloadRegistry.cancelled
  rcases h with hstate | hstate | hstate <;> simp [hstate]

/-- A cancellation outside the window between the check and `setRunning`. -/
theorem WorkloadsFit.cancel (h : WorkloadsFit s) {id : ℕ}
    (hid : ∀ call ∈ s.calls, call.workloadId ≠ 0 → call.workloadId = id → call.phase ≠ .checked)
    (hs' : s' = { s with runtime := { s.runtime with
      workloadRegistry := (s.runtime.workloadRegistry.cancel id).2 } }) :
    WorkloadsFit s' ∧ Final s s' := by
  have hlookup : ∀ k, s'.runtime.workloadRegistry.entries.lookup k =
      if k = id then (s.runtime.workloadRegistry.entries.lookup id).map WorkloadRegistry.cancelled
      else s.runtime.workloadRegistry.entries.lookup k := by
    rw [hs']
    exact WorkloadRegistry.lookup_modify id _
  have hnext : s'.runtime.workloadRegistry.nextId = s.runtime.workloadRegistry.nextId := by
    rw [hs']
    exact WorkloadRegistry.nextId_modify id _
  have hcalls : s'.calls = s.calls := by rw [hs']
  refine ⟨⟨?_, hnext ▸ h.nextId, ?_, ?_, hcalls ▸ h.distinct⟩, ?_⟩
  · rw [hs']
    exact h.initialized
  · intro k e hk
    rw [hlookup] at hk
    rw [hnext]
    split at hk
    next heq =>
      obtain ⟨e₀, he₀, -⟩ := Option.map_eq_some_iff.mp hk
      exact heq ▸ h.ids id e₀ he₀
    next => exact h.ids k e hk
  · intro call hcall hne
    rw [hcalls] at hcall
    obtain ⟨e, he, hfit⟩ := h.fits call hcall hne
    -- the call whose workload is cancelled, and the others
    by_cases heq : call.workloadId = id
    · refine ⟨_, ?_, hfit.cancelled (hid call hcall hne heq)⟩
      rw [hlookup, if_pos heq, ← heq, he, Option.map_some]
    · refine ⟨e, ?_, hfit⟩
      rw [hlookup, if_neg heq, he]
  · intro k e hk hterminal
    by_cases heq : k = id
    · refine ⟨_, ?_, WorkloadRegistry.state_cancelled hterminal⟩
      rw [hlookup, if_pos heq, ← heq, hk, Option.map_some]
    · refine ⟨e, ?_, rfl⟩
      rw [hlookup, if_neg heq, hk]

/-- The flag of an entry. -/
theorem WorkloadRegistry.isCancelled_of_lookup {reg : WorkloadRegistry} {id : ℕ} {e : WorkloadEntry}
    (h : reg.entries.lookup id = some e) : reg.isCancelled id = e.cancelRequested := by
  rw [WorkloadRegistry.isCancelled, h]

/-- An idle entry whose cancellation was requested is in a terminal state. -/
theorem WorkloadEntry.Idle.terminal {e : WorkloadEntry} (h : e.Idle)
    (hrequested : e.cancelRequested = true) : e.state.Terminal := by
  rw [WorkloadEntry.Idle, if_pos hrequested] at h
  exact .inr (.inr h)

/-- A step of a call that leaves the registry as it is. -/
theorem WorkloadsFit.phaseChanged (h : WorkloadsFit s) (hc : s.calls[c]? = some call)
    {phase : Phase} (hcalls : s'.calls = s.calls.set c { call with phase })
    (hinit : s'.runtime.initialized = s.runtime.initialized)
    (hregistry : s'.runtime.workloadRegistry = s.runtime.workloadRegistry)
    (hfits : ∀ e, call.workloadId ≠ 0 →
      s.runtime.workloadRegistry.entries.lookup call.workloadId = some e → call.Fits e →
      ({ call with phase } : GenerateCall).Fits e) :
    WorkloadsFit s' ∧ Final s s' := by
  refine h.callChanged hc hcalls hinit (by rw [hregistry]) (f := id) (fun k => ?_) hfits
    fun _ _ _ => rfl
  rw [hregistry, Option.map_id, id_eq, ite_self]

/-- A step of a call that changes the entry of its workload. -/
theorem WorkloadsFit.entryModified (h : WorkloadsFit s) (hc : s.calls[c]? = some call)
    {phase : Phase} {f : WorkloadEntry → WorkloadEntry}
    (hcalls : s'.calls = s.calls.set c { call with phase })
    (hinit : s'.runtime.initialized = s.runtime.initialized)
    (hregistry : s'.runtime.workloadRegistry =
      s.runtime.workloadRegistry.modify call.workloadId f)
    (hfits : ∀ e, ({ call with phase } : GenerateCall).Fits (f e))
    (hterminal : ∀ e, call.Fits e → ¬ e.state.Terminal) :
    WorkloadsFit s' ∧ Final s s' := by
  refine h.callChanged hc hcalls hinit ?_ (f := f) (fun k => ?_) (fun e _ _ _ => hfits e)
    fun e hfit hend => absurd hend (hterminal e hfit)
  · rw [hregistry]
    exact WorkloadRegistry.nextId_modify _ _
  · rw [hregistry, WorkloadRegistry.lookup_modify]
    split
    next heq => rw [heq]
    next => rfl

/-- A call is refused for an empty prompt, or because its workload has been cancelled. -/
theorem WorkloadsFit.refusal_cases (h : WorkloadsFit s) {e : WorkloadEntry} {error : String}
    (he : s.runtime.workloadRegistry.entries.lookup call.workloadId = some e)
    (hrefusal : s.refusal call = some error) : call.prompt = "" ∨ e.cancelRequested = true := by
  simp only [Sys.refusal, h.initialized, WorkloadRegistry.isCancelled_of_lookup he] at hrefusal
  split at hrefusal
  next => contradiction
  next =>
    split at hrefusal
    next hempty => exact .inl hempty
    next =>
      split at hrefusal
      next hcancelled => exact .inr hcancelled.2
      next => cases hrefusal

/-- A call that is not refused has a workload that has not been cancelled. -/
theorem WorkloadsFit.cancelRequested_eq_false (h : WorkloadsFit s) {e : WorkloadEntry}
    (hid : call.workloadId ≠ 0)
    (he : s.runtime.workloadRegistry.entries.lookup call.workloadId = some e)
    (hrefusal : s.refusal call = none) : e.cancelRequested = false := by
  simp only [Sys.refusal, h.initialized, WorkloadRegistry.isCancelled_of_lookup he] at hrefusal
  by_contra hset
  split at hrefusal
  next => contradiction
  next =>
    split at hrefusal
    next => cases hrefusal
    next => simp [hid, hset] at hrefusal

/-- A call that returns publishes the state of its execution, or that execution was cancelled. -/
theorem WorkloadsFit.publish (h : WorkloadsFit s) (hc : s.calls[c]? = some call)
    {res : ExecutionResult} (hphase : call.phase = .executed res)
    (hcalls : s'.calls = s.calls.set c { call with phase := .returning res })
    (hruntime : s'.runtime = s.runtime.publish call.workloadId res) :
    WorkloadsFit s' ∧ Final s s' := by
  have hrunning : ∀ e, call.Fits e → e.state = .running ∧ ¬ res.Cancelled := by
    intro e hfit
    simpa only [GenerateCall.Fits, hphase] using hfit
  have hterminal : ∀ e, call.Fits e → ¬ e.state.Terminal := by
    intro e hfit
    rw [(hrunning e hfit).1]
    decide
  unfold HeteroRuntime.publish at hruntime
  split at hruntime
  next hid =>
    refine h.phaseChanged hc hcalls (by rw [hruntime]) (by rw [hruntime]) ?_
    exact fun e hne => absurd hid hne
  next =>
    split at hruntime
    next =>
      refine h.entryModified hc hcalls (by rw [hruntime]) (by rw [hruntime]; rfl) ?_ hterminal
      exact fun e => .inl (.inl rfl)
    next hfails =>
      split at hruntime
      next hcancelled =>
        -- no state is published here
        refine h.phaseChanged hc hcalls (by rw [hruntime]) (by rw [hruntime]) fun e _ _ hfit => ?_
        exact absurd ⟨Bool.eq_false_iff.mpr hfails, hcancelled⟩ (hrunning e hfit).2
      next =>
        refine h.entryModified hc hcalls (by rw [hruntime]) (by rw [hruntime]; rfl) ?_ hterminal
        exact fun e => .inl (.inr (.inl rfl))

/-- A step of a call that publishes. -/
theorem WorkloadsFit.callStep (h : WorkloadsFit s) (hpublishes : Publishes s a)
    (hcaller : a.caller = some c) (hc : s.calls[c]? = some call)
    (hstep : s.callStep a c call = some s') : WorkloadsFit s' ∧ Final s s' := by
  cases Sys.callStep_cases hcaller hstep with
  | refused hphase _ hrefusal =>
    -- the workload is cancelled, or the prompt is empty
    refine h.phaseChanged hc rfl rfl rfl fun e hid he hfit => ?_
    simp only [GenerateCall.Fits, hphase] at hfit ⊢
    obtain hempty | hcancelled := h.refusal_cases he hrefusal
    · exact .inr ⟨hempty, hfit⟩
    · exact .inl (hfit.terminal hcancelled)
  | checked hphase _ hrefusal =>
    -- the flag of the workload is not set
    refine h.phaseChanged hc rfl rfl rfl fun e hid he hfit => ?_
    simp only [GenerateCall.Fits, hphase] at hfit ⊢
    rw [WorkloadEntry.Idle, h.cancelRequested_eq_false hid he hrefusal] at hfit
    exact hfit
  | setRunning hphase =>
    by_cases hid : call.workloadId = 0
    · refine h.phaseChanged hc rfl rfl (by simp [hid]) fun e hne => absurd hid hne
    · refine h.entryModified hc rfl rfl (if_pos hid) (fun _ => rfl) fun e hfit => ?_
      simp only [GenerateCall.Fits, hphase] at hfit
      rw [hfit]
      decide
  | @selected tcfg outcome hphase =>
    obtain ⟨hregistry, hinit⟩ :=
      s.runtime.registry_selectEngine call.modelPath tcfg call.nCtx outcome
    refine h.phaseChanged hc rfl hinit hregistry fun e hid _ hfit => ?_
    simp only [GenerateCall.Fits, hphase] at hfit ⊢
    obtain ⟨engine, hengine⟩ := (hpublishes call hc hid).selectEngine call.nCtx
    rw [hengine]
    exact hfit
  | executed hphase =>
    -- not cancelled in it
    refine h.phaseChanged hc rfl rfl rfl fun e' hid _ hfit => ?_
    have hcancelled := hpublishes call hc hid
    simp only [GenerateCall.Fits, Sys.Interrupts, hphase] at hfit hcancelled ⊢
    exact ⟨hfit, hcancelled⟩
  | published hphase => exact h.publish hc hphase rfl rfl
  | left hphase =>
    -- a state has been published, or the cancelled workload has one
    refine h.phaseChanged hc rfl rfl rfl fun e hid he hfit => ?_
    simp only [GenerateCall.Fits, hphase] at hfit ⊢
    rcases hfit with hterminal | ⟨hempty, hidle⟩
    · exact hterminal
    · have hflag := hpublishes call hc hid hempty
      rw [WorkloadRegistry.isCancelled_of_lookup he] at hflag
      exact hidle.terminal hflag

/-- What a step that publishes keeps. -/
theorem WorkloadsFit.step (h : WorkloadsFit s) (hpublishes : Publishes s a)
    (hstep : s.step a = some s') : WorkloadsFit s' ∧ Final s s' := by
  rcases Sys.step_cases hstep with ⟨modelPath, prompt, nCtx, rfl, rfl⟩ |
    ⟨modelPath, prompt, nCtx, priority, wclass, rfl, rfl⟩ |
    ⟨modelPath, tcfg, nCtx, outcome, rfl, -, rfl⟩ | ⟨id, rfl, rfl⟩ | ⟨c, call, hcaller, hc, hcall⟩
  · exact h.callAdded rfl rfl Nat.le.refl h.ids (fun _ _ hk => hk) fun hid => absurd rfl hid
  · -- the new id is above all others
    have hfresh : ∀ k e, s.runtime.workloadRegistry.entries.lookup k = some e →
        k ≠ s.runtime.workloadRegistry.nextId := fun k e hk => (h.ids k e hk).2.ne
    refine h.callAdded rfl rfl (Nat.le_succ _) ?_ ?_
      fun _ => ⟨Nat.le.refl, _, AList.lookup_insert _, rfl⟩
    · intro k e hk
      dsimp only [WorkloadRegistry.registerWorkload] at hk ⊢
      rw [KeyedMap.lookup_insert_eq_ite] at hk
      split at hk
      next heq => exact ⟨heq ▸ h.nextId, by omega⟩
      next =>
        have := h.ids k e hk
        exact ⟨this.1, by omega⟩
    · intro k e hk
      exact (AList.lookup_insert_ne (hfresh k e hk)).trans hk
  · -- loading a model leaves the registry alone
    obtain ⟨hregistry, hinit⟩ := s.runtime.registry_loadModel modelPath tcfg nCtx outcome
    refine ⟨⟨hinit.trans h.initialized, ?_, ?_, ?_, h.distinct⟩, ?_⟩
    · rw [hregistry]
      exact h.nextId
    · rw [hregistry]
      exact h.ids
    · rw [hregistry]
      exact h.fits
    · intro k e hk _
      exact ⟨e, by rw [hregistry, hk], rfl⟩
  · exact h.cancel hpublishes rfl
  · exact h.callStep hpublishes hcaller hc hcall

/-! ## Workloads end -/

/-- The workloads of the calls that have returned are in terminal states. -/
def AllTerminal (s : Sys) : Prop :=
  ∀ call ∈ s.calls, ∀ res, call.phase = .returned res → call.workloadId ≠ 0 →
    (s.runtime.workloadRegistry.getState call.workloadId).Terminal

/-- Every reachable state satisfies the invariant. -/
theorem workloadsFit_of_reachable (h : system.Reachable Publishes s) : WorkloadsFit s := by
  refine h.invariant (P := WorkloadsFit) ?_ fun s a s' hs ha hstep => (hs.step ha hstep).1
  rintro s rfl
  refine ⟨rfl, Nat.one_pos, ?_, ?_, ?_⟩
  · intro k e hk
    cases hk
  · intro call hcall
    cases hcall
  · intro c c' call call' hc
    cases hc

theorem WorkloadsFit.allTerminal (h : WorkloadsFit s) : AllTerminal s := by
  intro call hcall res hphase hid
  obtain ⟨e, he, hfit⟩ := h.fits call hcall hid
  rw [WorkloadRegistry.getState, he]
  simpa only [GenerateCall.Fits, hphase] using hfit

/-- What a run of steps that publish keeps. -/
theorem WorkloadsFit.run (h : WorkloadsFit s) (hrun : system.Run Publishes s s') : Final s s' := by
  refine (hrun.preserves (P := fun s' => WorkloadsFit s' ∧ Final s s') ?_ ⟨h, ?_⟩).2
  · rintro s₁ a s₂ ⟨hfit, hfinal⟩ hpublishes hstep
    obtain ⟨hfit', hfinal'⟩ := hfit.step hpublishes hstep
    refine ⟨hfit', fun k e hk hterminal => ?_⟩
    obtain ⟨e₁, hk₁, hstate₁⟩ := hfinal k e hk hterminal
    obtain ⟨e₂, hk₂, hstate₂⟩ := hfinal' k e₁ hk₁ (hstate₁ ▸ hterminal)
    exact ⟨e₂, hk₂, hstate₂.trans hstate₁⟩
  · exact fun k e hk _ => ⟨e, hk, rfl⟩

/-- **Workloads end.** In runs whose steps publish, the workload of a call that has returned is in a
terminal state, and keeps it. -/
theorem terminal_of_reachable (h : system.Reachable Publishes s) :
    AllTerminal s ∧ ∀ s', system.Run Publishes s s' → Final s s' :=
  ⟨(workloadsFit_of_reachable h).allTerminal, fun _ => (workloadsFit_of_reachable h).run⟩

/-! ### Sample runs -/

instance (res : ExecutionResult) : Decidable res.Cancelled := inferInstanceAs (Decidable (_ ∧ _))

instance (rt : HeteroRuntime) (modelPath : String) (tcfg : TuningConfig)
    (outcome : Option LoadOutcome) : Decidable (rt.Offers modelPath tcfg outcome) :=
  inferInstanceAs (Decidable (_ ∨ _))

instance (s : Sys) (call : GenerateCall) (outcome : ExecutionResult) :
    Decidable (s.Interrupts call outcome) := by
  unfold Sys.Interrupts
  exact match call.phase with
    | .picked e _ => inferInstanceAs (Decidable ((s.runtime.objects e).execute outcome).1.Cancelled)
    | .started | .checked | .running | .executed _ | .returning _ | .returned _ =>
      inferInstanceAs (Decidable False)

instance (s : Sys) : ∀ a, Decidable (Publishes s a)
  | .cancelWorkload id => inferInstanceAs (Decidable (∀ call ∈ s.calls, call.workloadId ≠ 0 →
      call.workloadId = id → call.phase ≠ .checked))
  | .select c tcfg outcome =>
    inferInstanceAs (Decidable (∀ call ∈ s.calls[c]?, call.workloadId ≠ 0 →
      s.runtime.Offers call.modelPath tcfg outcome))
  | .execute c outcome => inferInstanceAs (Decidable (∀ call ∈ s.calls[c]?, call.workloadId ≠ 0 →
      ¬ s.Interrupts call outcome))
  | .leave c => inferInstanceAs (Decidable (∀ call ∈ s.calls[c]?, call.workloadId ≠ 0 →
      call.prompt = "" → s.runtime.workloadRegistry.isCancelled call.workloadId))
  | .generate _ _ _ | .generateWorkload _ _ _ _ _ | .lock _ | .setRunning _ | .publish _
  | .loadModel _ _ _ _ => inferInstanceAs (Decidable True)

/-- A workload that runs to its end, and is cancelled afterwards. -/
def publishedActs : List Act :=
  [.generateWorkload "model.gguf" "prompt" 2048 .normal .default, .lock 0, .setRunning 0,
    .select 0 {} (some {}), .execute 0 { success := true }, .publish 0, .leave 0, .cancelWorkload 1]

theorem terminal_publishedActs :
    (sampleRun publishedActs).runtime.workloadRegistry.getState 1 = .completed ∧
      AllTerminal (sampleRun publishedActs) :=
  ⟨by decide +kernel, (terminal_of_reachable (reachable_sampleRun (by decide +kernel))).1⟩

/-- A workload whose model does not load. -/
def unloadableActs : List Act :=
  [.generateWorkload "model.gguf" "prompt" 2048 .normal .default, .lock 0, .setRunning 0,
    .select 0 {} (some { modelLoads := false }), .leave 0]

/-- It is running when its call has returned. -/
theorem not_terminal_unloadableActs :
    ¬∀ s : Sys, system.Reachable TransitionSystem.anyCall s →
      AllTerminal s ∧ ∀ s', system.Run TransitionSystem.anyCall s s' → Final s s' := by
  intro hall
  have hterminal := (hall (sampleRun unloadableActs) (reachable_sampleRun (by decide +kernel))).1
  have hcalls : (sampleRun unloadableActs).calls =
      [{ modelPath := "model.gguf"
         prompt := "prompt"
         workloadId := 1
         phase := .returned { error := "Failed to load model: " } }] := by decide +kernel
  have hstate := hterminal _ (hcalls ▸ List.mem_cons_self) _ rfl (by decide)
  exact absurd hstate (by decide +kernel)

end HeteroAccel.Runtime
