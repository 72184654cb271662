import HeteroAccel.Sdk.Session
import Mathlib.Data.Nat.Notation

/-!
# What a cancellation stops

A *signal* is what sets the flag of a session: a request, or a callback that asks to cancel. A
history of a run records which calls return `HA_ERR_CANCELLED`, and the signals that made them:
those since the flag was last cleared, or the one of the callback that the call returns for.

The initial check of a call clears the flag. Its later checks do not, so that a signal that comes
behind the initial check is still there for the next call.

## Main definitions

* `Recorded`, `system`: a session with the history of its run;
* `CancelLaw`: a signal stops at most one call, and none after the call it came in;
* `Calm`: the steps that set the flag in front of an initial check only;
* `cancelLaw_of_reachable`: the law holds in every state that calm steps reach.
-/

namespace HeteroAccel.Sdk

/-- A signal, with the numbers of the calls that had begun and returned. -/
structure Signal where
  id : ℕ
  begun : ℕ
  returned : ℕ
  deriving DecidableEq, Repr

/-- The signal came while a call was running; calls are numbered from 0. -/
def Signal.During (sig : Signal) (call : ℕ) : Prop := sig.returned ≤ call ∧ call < sig.begun

/-- A call that returns `HA_ERR_CANCELLED`, and the signals that made it. -/
structure Cancellation where
  call : ℕ
  causes : List Signal
  deriving DecidableEq, Repr

/-- A session with the history of its run. -/
structure Recorded where
  session : HaSession := {}
  begun : ℕ := 0
  returned : ℕ := 0
  signals : ℕ := 0
  /-- The signals since the flag was last cleared. -/
  pending : List Signal := []
  cancellations : List Cancellation := []
  deriving DecidableEq, Repr

namespace Recorded

variable (r : Recorded)

/-- The next signal. -/
def signal : Signal := ⟨r.signals, r.begun, r.returned⟩

/-- The signals that a step makes a call return `HA_ERR_CANCELLED` for: the step either finds the
flag set, or sets it. -/
def causes (a : Act) : List Signal := if a = .store then [r.signal] else r.pending

/-- The history after a step to `session`. -/
def record (a : Act) (session : HaSession) : Recorded where
  session
  begun := match a with
    | .lock _ => r.begun + 1
    | _ => r.begun
  returned := if a = .unlock then r.returned + 1 else r.returned
  signals := if a = .cancel ∨ a = .store then r.signals + 1 else r.signals
  pending :=
    if a = .cancel ∨ a = .store then r.signal :: r.pending
    else if a = .exchange then []
    else r.pending
  cancellations :=
    if session.phase = some (.returning .cancelled) ∧ r.session.phase ≠ session.phase then
      ⟨r.returned, r.causes a⟩ :: r.cancellations
    else r.cancellations

variable {r} {a : Act} {session : HaSession}

/-- A step by which the call does not come to return `HA_ERR_CANCELLED`. -/
theorem cancellations_record
    (h : session.phase = some (.returning .cancelled) → r.session.phase = session.phase) :
    (r.record a session).cancellations = r.cancellations :=
  if_neg fun hnew => hnew.2 (h hnew.1)

/-- A step by which it does. -/
theorem cancellations_record_returning (h : session.phase = some (.returning .cancelled))
    (hne : r.session.phase ≠ session.phase) :
    (r.record a session).cancellations = ⟨r.returned, r.causes a⟩ :: r.cancellations :=
  if_pos ⟨h, hne⟩

/-- A step that neither sets nor clears the flag, and neither begins nor ends a call. -/
theorem record_eq (hcancel : a ≠ .cancel) (hexchange : a ≠ .exchange) (hstore : a ≠ .store)
    (hunlock : a ≠ .unlock) (hlock : ∀ entry, a ≠ .lock entry)
    (h : session.phase = some (.returning .cancelled) → r.session.phase = session.phase) :
    r.record a session = { r with session } := by
  have hbegun : (r.record a session).begun = r.begun := by
    unfold record
    dsimp only
    split
    next entry => exact absurd rfl (hlock entry)
    next => rfl
  have hcancellations : (r.record a session).cancellations = r.cancellations :=
    cancellations_record h
  have hnot : ¬(a = .cancel ∨ a = .store) := fun h => h.elim hcancel hstore
  unfold record at hbegun hcancellations ⊢
  dsimp only at hbegun hcancellations
  rw [hbegun, hcancellations, if_neg hnot, if_neg hnot, if_neg hexchange, if_neg hunlock]

end Recorded

/-- A session from its creation on, with its history. -/
def system : TransitionSystem Recorded Act where
  Init r := r = {}
  Step r a r' := ∃ session, r.session.step a = some session ∧ r' = r.record a session

/-- What a cancellation stops. -/
structure CancelLaw (r : Recorded) : Prop where
  /-- A signal makes at most one call return `HA_ERR_CANCELLED`. -/
  once : ∀ c ∈ r.cancellations, ∀ c' ∈ r.cancellations, ∀ sig ∈ c.causes, sig ∈ c'.causes →
    c.call = c'.call
  /-- A signal that comes while a call is running cancels no later call. -/
  noLater : ∀ c ∈ r.cancellations, ∀ sig ∈ c.causes, ∀ call, sig.During call → c.call ≤ call
  /-- The call after a cancelled one is cancelled only for a signal after it has returned. -/
  renewed : ∀ c ∈ r.cancellations, ∀ c' ∈ r.cancellations, c'.call = c.call + 1 →
    ∃ sig ∈ c'.causes, c.call < sig.returned

/-- The steps that do not set the flag behind the initial check of a call. -/
def Calm (r : Recorded) (a : Act) : Prop := a ≠ .store ∧ (a = .cancel → ¬r.session.Exchanged)

/-! ## Runs of calm steps -/

open Recorded

/-- What calm steps keep. -/
structure Calmed (r : Recorded) : Prop where
  /-- Calls are run one at a time. -/
  serial : r.begun = if r.session.phase = none then r.returned else r.returned + 1
  /-- Behind the initial check, the flag is clear. -/
  clear : r.session.Exchanged → r.session.cancelled = false ∧ r.pending = []
  /-- A flag that is set was set by a signal. -/
  signalled : r.session.cancelled → r.pending ≠ []
  /-- Pending signals came after the last return. -/
  recent : ∀ sig ∈ r.pending, sig.returned = r.returned
  /-- The causes of a cancellation came after the return of the call in front. -/
  caused : ∀ c ∈ r.cancellations, c.causes ≠ [] ∧ ∀ sig ∈ c.causes, sig.returned = c.call

theorem Calmed.cancelLaw {r : Recorded} (h : Calmed r) : CancelLaw r where
  once c hc c' hc' sig hsig hsig' :=
    ((h.caused c hc).2 sig hsig).symm.trans ((h.caused c' hc').2 sig hsig')
  noLater c hc sig hsig call hduring := (h.caused c hc).2 sig hsig ▸ hduring.1
  renewed c hc c' hc' hnext := by
    obtain ⟨hne, hcauses⟩ := h.caused c' hc'
    obtain ⟨sig, hsig⟩ := List.exists_mem_of_ne_nil _ hne
    exact ⟨sig, hsig, by rw [hcauses sig hsig, hnext]; exact Nat.lt_succ_self _⟩

theorem Calmed.step {r r' : Recorded} {a : Act} (h : Calmed r) (hcalm : Calm r a)
    (hstep : system.Step r a r') : Calmed r' := by
  obtain ⟨session, hsession, rfl⟩ := hstep
  cases HaSession.step_cases hsession with
  | cancel =>
    -- a request in front of an initial check
    have hfront : ¬r.session.Exchanged := hcalm.2 rfl
    refine ⟨h.serial, fun hexchanged => absurd hexchanged hfront, fun _ => List.cons_ne_nil _ _,
      List.forall_mem_cons.mpr ⟨rfl, h.recent⟩, ?_⟩
    rw [cancellations_record (by exact fun _ => rfl)]
    exact h.caused
  | lock hphase =>
    have hserial := h.serial
    rw [if_pos hphase] at hserial
    refine ⟨congrArg (· + 1) hserial, ?_, h.signalled, h.recent, ?_⟩
    · rintro ⟨phase, hphase, hexchanged⟩
      cases hphase
      cases hexchanged
    · rw [cancellations_record fun hnew => by cases hnew]
      exact h.caused
  | exchange hphase =>
    -- the initial check, which clears the flag
    have hserial := h.serial
    rw [hphase, if_neg (Option.some_ne_none _)] at hserial
    refine ⟨hserial, fun _ => ⟨rfl, rfl⟩, (fun hset => by cases hset),
      (fun _ hsig => by cases hsig), ?_⟩
    by_cases hset : r.session.cancelled
    · rw [cancellations_record_returning (by simp [hset]) (by simp [hset, hphase])]
      exact List.forall_mem_cons.mpr ⟨⟨h.signalled hset, h.recent⟩, h.caused⟩
    · rw [cancellations_record (by simp [hset])]
      exact h.caused
  | store => exact absurd rfl hcalm.1
  | unlock hphase =>
    have hserial := h.serial
    rw [hphase, if_neg (Option.some_ne_none _)] at hserial
    obtain ⟨-, hpending⟩ := h.clear ⟨_, hphase, rfl⟩
    refine ⟨hserial, ?_, h.signalled, ?_, ?_⟩
    · rintro ⟨phase, hphase, -⟩
      cases hphase
    · show ∀ sig ∈ r.pending, _
      rw [hpending]
      exact fun sig hsig => by cases hsig
    · rw [cancellations_record fun hnew => by cases hnew]
      exact h.caused
  | @advance _ _ phase' hphase hadvance =>
    -- behind the initial check no load finds the flag set
    obtain ⟨hcancel, hexchange, hstore, hunlock, hlock⟩ := Phase.ne_of_advance hadvance
    have hclear := h.clear ⟨_, hphase, (Phase.exchanged_of_advance hadvance).1⟩
    have hnot : phase' ≠ .returning .cancelled := by
      rintro rfl
      rw [hclear.1] at hadvance
      cases Phase.cancelled_of_advance hadvance
    rw [record_eq hcancel hexchange hstore hunlock hlock
      fun hnew => absurd (Option.some.inj hnew) hnot]
    refine ⟨?_, fun _ => hclear, h.signalled, h.recent, h.caused⟩
    have hserial := h.serial
    rw [hphase, if_neg (Option.some_ne_none _)] at hserial
    exact hserial

/-- **What a cancellation stops.** In every state that a run reaches whose requests come in front of
an initial check and whose callbacks do not cancel, a signal has stopped at most one call, and none
after the one it came in. -/
theorem cancelLaw_of_reachable {r : Recorded} (h : system.Reachable Calm r) : CancelLaw r := by
  refine (h.invariant (P := Calmed) ?_ fun r a r' hr hcalm hstep => hr.step hcalm hstep).cancelLaw
  rintro r rfl
  refine ⟨rfl, ?_, (fun hset => by cases hset), (fun _ hsig => by cases hsig),
    fun _ hc => by cases hc⟩
  rintro ⟨phase, hphase, -⟩
  cases hphase

/-! ## Sample runs -/

/-- The state after a step; where the step is not possible, nothing changes. -/
def Recorded.next (r : Recorded) (a : Act) : Recorded :=
  match r.session.step a with
  | some session => r.record a session
  | none => r

/-- A session after a list of steps. -/
def sampleRun (acts : List Act) : Recorded := acts.foldl Recorded.next {}

instance (r : Recorded) (a : Act) : Decidable (Calm r a) := inferInstanceAs (Decidable (_ ∧ _))

/-- A list of steps that are possible leads to a reachable state. -/
theorem reachable_sampleRun {guard : Recorded → Act → Prop} {acts : List Act}
    (h : TransitionSystem.Along (fun r a => guard r a ∧ (r.session.step a).isSome) Recorded.next {}
      acts) : system.Reachable guard (sampleRun acts) := by
  have hinit : system.Reachable guard ({} : Recorded) := .init rfl
  refine hinit.foldl (fun r a hra => ⟨hra.1, ?_⟩) h
  obtain ⟨session, hsession⟩ := Option.isSome_iff_exists.mp hra.2
  exact ⟨session, hsession, by rw [Recorded.next, hsession]⟩

/-- Two requests stop one call; the next one runs. -/
def calmActs : List Act :=
  [.cancel, .lock .infer, .cancel, .exchange, .unlock, .lock .infer, .exchange, .checkEngine true,
    .run true]

/-- The sample run has one cancellation, and keeps the law. -/
theorem cancelLaw_calmActs : (sampleRun calmActs).cancellations.length = 1 ∧
    CancelLaw (sampleRun calmActs) :=
  ⟨by decide, cancelLaw_of_reachable (reachable_sampleRun (by decide))⟩

/-- A stream whose callback cancels at the first token, and the call behind it. -/
def staleActs : List Act :=
  [.lock .inferStream, .exchange, .checkEngine true, .runStream, .token, .callback true, .store,
    .endStream true, .load, .unlock, .lock .infer, .exchange]

/-- The callback stops both calls. -/
theorem not_cancelLaw_staleActs :
    ¬∀ r : Recorded, system.Reachable TransitionSystem.anyCall r → CancelLaw r := by
  intro hall
  have hlaw := hall (sampleRun staleActs) (reachable_sampleRun (by decide))
  have hcalls : (sampleRun staleActs).cancellations =
      [⟨1, [⟨0, 1, 0⟩]⟩, ⟨0, [⟨0, 1, 0⟩]⟩] := by decide
  have honce := hlaw.once
  rw [hcalls] at honce
  exact absurd (honce _ List.mem_cons_self _ (List.mem_cons_of_mem _ List.mem_cons_self) _
    List.mem_cons_self List.mem_cons_self) (by decide)

end HeteroAccel.Sdk
