import HeteroAccel.Lib.Transition
import Mathlib.Tactic.SplitIfs

/-!
# Inference sessions

`HaSession` of `HeteroAccelSDK.cpp`: its cancellation flag, and how far the call that holds its
mutex has come. A step is one atomic access to the flag, one call of the user's callback or one
action of the engine; `ha_session_cancel` does not take the mutex and may come between any two of
them.

The engine and the callback are arbitrary: the labels say what they do. A call with a null pointer
returns before it takes the mutex, so that it has no steps.
-/

namespace HeteroAccel.Sdk

/-- The error codes. -/
inductive HaError where
  | ok | invalidArg | modelLoad | noBackend | inference | cancelled | oom | unsupported | internal
  deriving DecidableEq, Repr

/-- The two entry points for inference. -/
inductive Entry where
  | infer | inferStream
  deriving DecidableEq, Repr

/-- How far a call that holds the mutex has come. -/
inductive Phase where
  /-- Before `cancelled.exchange(false)`. -/
  | entered (entry : Entry)
  /-- Before the check of the engine. -/
  | admitted (entry : Entry)
  /-- Before the engine is run. -/
  | ready (entry : Entry)
  /-- In `run_stream`, outside the stream callback. -/
  | generating
  /-- In the stream callback, before the user's callback. -/
  | calling
  /-- In the stream callback, after the user's callback asked to cancel. -/
  | aborting
  /-- In `run_stream`, after the stream callback returned `false`. -/
  | stopped
  /-- After `run_stream`, before the last check of the flag. -/
  | generated (ok : Bool)
  /-- In the loop over the pieces of a finished run, before the check of the flag. -/
  | replaying
  /-- In that loop, before the user's callback. -/
  | replayCalling
  /-- In that loop, after the user's callback asked to cancel. -/
  | replayAborting
  /-- Before the mutex is unlocked. -/
  | returning (res : HaError)
  deriving DecidableEq, Repr

/-- The steps. -/
inductive Act where
  /-- `ha_session_cancel`. -/
  | cancel
  /-- A call takes the mutex. -/
  | lock (entry : Entry)
  /-- `cancelled.exchange(false)`. -/
  | exchange
  /-- `engine->is_ready()`. -/
  | checkEngine (isReady : Bool)
  /-- `engine->run`. -/
  | run (success : Bool)
  /-- `engine->run_stream` is called. -/
  | runStream
  /-- The engine has a token: the stream callback loads the flag. -/
  | token
  /-- The user's callback returns, non-zero to cancel. -/
  | callback (cancels : Bool)
  /-- `cancelled.store(true)` after that. -/
  | store
  /-- `run_stream` returns; `ok` is its result and `success`. -/
  | endStream (ok : Bool)
  /-- `cancelled.load()`. -/
  | load
  /-- The loop over the pieces ends. -/
  | endReplay
  /-- An exception, for want of memory or not. -/
  | throw (outOfMemory : Bool)
  /-- The call returns. -/
  | unlock
  deriving DecidableEq, Repr

namespace Phase

/-- The call has exchanged the flag. -/
def exchanged : Phase → Bool
  | entered _ => false
  | _ => true

/-- The steps behind the exchange that do not write the flag; `cancelled` is what they load. -/
def advance (cancelled : Bool) : Act → Phase → Option Phase
  | .checkEngine isReady, admitted entry =>
    some (if isReady then ready entry else returning .inference)
  | .run success, ready .infer => some (returning (if success then .ok else .inference))
  | .run success, ready .inferStream =>
    some (if success then replaying else returning .inference)
  -- native streaming
  | .runStream, ready .inferStream => some generating
  | .token, generating => some (if cancelled then stopped else calling)
  | .callback cancels, calling => some (if cancels then aborting else generating)
  | .endStream ok, generating | .endStream ok, stopped => some (generated ok)
  | .load, generated ok =>
    some (returning (if cancelled then .cancelled else if ok then .ok else .inference))
  -- a finished run is streamed
  | .load, replaying => some (if cancelled then returning .cancelled else replayCalling)
  | .callback cancels, replayCalling => some (if cancels then replayAborting else replaying)
  | .endReplay, replaying => some (returning .ok)
  | .throw outOfMemory, ready _ | .throw outOfMemory, generating | .throw outOfMemory, calling
  | .throw outOfMemory, stopped | .throw outOfMemory, generated _ | .throw outOfMemory, replaying
  | .throw outOfMemory, replayCalling => some (returning (if outOfMemory then .oom else .internal))
  | _, _ => none

variable {cancelled : Bool} {a : Act} {phase phase' : Phase}

/-- Such a step neither sets or clears the flag nor begins or ends a call. -/
theorem ne_of_advance (h : advance cancelled a phase = some phase') :
    a ≠ .cancel ∧ a ≠ .exchange ∧ a ≠ .store ∧ a ≠ .unlock ∧ ∀ entry, a ≠ .lock entry := by
  refine ⟨?_, ?_, ?_, ?_, fun entry => ?_⟩
  all_goals
    rintro rfl
    simp [advance] at h

/-- Such a step is one of a call that has exchanged the flag. -/
theorem exchanged_of_advance (h : advance cancelled a phase = some phase') :
    phase.exchanged ∧ phase'.exchanged := by
  unfold advance at h
  split at h
  all_goals cases h
  all_goals refine ⟨rfl, ?_⟩
  all_goals first | rfl | (split_ifs <;> rfl)

/-- A call that does not write the flag returns `HA_ERR_CANCELLED` only where it finds it set. -/
theorem cancelled_of_advance (h : advance cancelled a phase = some (.returning .cancelled)) :
    cancelled := by
  unfold advance at h
  split at h
  all_goals simp only [Option.some.injEq, reduceCtorEq] at h
  -- what is left returns some code, or another phase
  all_goals try split_ifs at h
  all_goals first | assumption | cases h

end Phase

/-- A session. -/
structure HaSession where
  cancelled : Bool := false
  /-- The call that holds the mutex, if any. -/
  phase : Option Phase := none
  deriving DecidableEq, Repr

namespace HaSession

/-- The step that a label describes, where it is possible. -/
def step (s : HaSession) (a : Act) : Option HaSession :=
  match a, s.phase with
  | .cancel, _ => some { s with cancelled := true }
  | .lock entry, none => some { s with phase := some (.entered entry) }
  | .exchange, some (.entered entry) =>
    some { cancelled := false
           phase := some (if s.cancelled then .returning .cancelled else .admitted entry) }
  | .store, some .aborting => some { cancelled := true, phase := some .stopped }
  | .store, some .replayAborting =>
    some { cancelled := true, phase := some (.returning .cancelled) }
  | .unlock, some (.returning _) => some { s with phase := none }
  | a, some phase => (phase.advance s.cancelled a).map fun phase => { s with phase := some phase }
  | _, none => none

/-- The call that holds the mutex has exchanged the flag. -/
def Exchanged (s : HaSession) : Prop := ∃ phase ∈ s.phase, phase.exchanged

instance (s : HaSession) : Decidable s.Exchanged :=
  inferInstanceAs (Decidable (∃ phase ∈ s.phase, _))

variable {s s' : HaSession} {a : Act}

/-- A step is a request, a step of a call that takes the mutex, writes the flag or returns, or one
behind the exchange that only loads the flag. -/
inductive StepCase (s : HaSession) : Act → HaSession → Prop where
  | cancel : StepCase s .cancel { s with cancelled := true }
  | lock {entry : Entry} (hphase : s.phase = none) :
      StepCase s (.lock entry) { s with phase := some (.entered entry) }
  | exchange {entry : Entry} (hphase : s.phase = some (.entered entry)) :
      StepCase s .exchange
        ⟨false, some (if s.cancelled then .returning .cancelled else .admitted entry)⟩
  | store {s' : HaSession} : StepCase s .store s'
  | unlock {res : HaError} (hphase : s.phase = some (.returning res)) :
      StepCase s .unlock { s with phase := none }
  | advance {a : Act} {phase phase' : Phase} (hphase : s.phase = some phase)
      (hadvance : phase.advance s.cancelled a = some phase') :
      StepCase s a { s with phase := some phase' }

theorem step_cases (h : s.step a = some s') : StepCase s a s' := by
  obtain ⟨cancelled, phase⟩ := s
  unfold step at h
  split at h
  next =>
    cases h
    exact .cancel
  next entry hphase =>
    cases h
    exact .lock hphase
  next entry hphase =>
    cases h
    exact .exchange hphase
  next => exact .store
  next => exact .store
  next res hphase =>
    cases h
    exact .unlock hphase
  next phase _ _ _ _ _ hphase =>
    obtain ⟨phase', hadvance, rfl⟩ := Option.map_eq_some_iff.mp h
    exact .advance hphase hadvance
  next => cases h

end HaSession
end HeteroAccel.Sdk
