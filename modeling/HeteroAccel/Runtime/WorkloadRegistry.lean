import HeteroAccel.Lib.KeyedMap

/-!
# The workload registry

`WorkloadRegistry` of `WorkloadRegistry.cpp`: a map from ids to entries with a state and a
cancellation flag. Every operation holds the registry's mutex, and is one step here. Time stamps are
left out.
-/

namespace HeteroAccel.Runtime

/-- The priority of a workload. -/
inductive WorkloadPriority where
  | background | normal | high | critical
  deriving DecidableEq, Repr

/-- The class of a workload. -/
inductive WorkloadClass where
  | default | lowLatency | throughput | memoryBound | computeBound | streaming | background
  | interactive | batch
  deriving DecidableEq, Repr

/-- The states of a workload. -/
inductive WorkloadState where
  | queued | running | completed | cancelled | failed
  deriving DecidableEq, Repr

/-- The states that `pruneOld` counts as terminal. -/
def WorkloadState.Terminal (s : WorkloadState) : Prop :=
  s = .completed ∨ s = .failed ∨ s = .cancelled

instance (s : WorkloadState) : Decidable s.Terminal := inferInstanceAs (Decidable (_ ∨ _))

/-- An entry of the registry. A cancellation is first a request, which the execution observes. -/
structure WorkloadEntry where
  id : ℕ
  name : String
  modelPath : String
  priority : WorkloadPriority := .normal
  wclass : WorkloadClass := .default
  state : WorkloadState := .queued
  cancelRequested : Bool := false
  error : String := ""
  deriving DecidableEq

/-- The registry: the entries, and the id of the next one. -/
structure WorkloadRegistry where
  nextId : ℕ := 1
  entries : KeyedMap ℕ WorkloadEntry := ∅

namespace WorkloadRegistry

variable (reg : WorkloadRegistry)

/-- A new entry, queued, under an id that was never used before. -/
def registerWorkload (name modelPath : String) (priority : WorkloadPriority)
    (wclass : WorkloadClass) : ℕ × WorkloadRegistry :=
  let e : WorkloadEntry := { id := reg.nextId, name, modelPath, priority, wclass }
  (reg.nextId, { nextId := reg.nextId + 1, entries := reg.entries.insert reg.nextId e })

/-- A change to the entry of an id, if there is one. -/
def modify (id : ℕ) (f : WorkloadEntry → WorkloadEntry) : WorkloadRegistry :=
  match reg.entries.lookup id with
  | none => reg
  | some e => { reg with entries := reg.entries.insert id (f e) }

/-- What `cancel` does to an entry. -/
def cancelled (e : WorkloadEntry) : WorkloadEntry :=
  { e with
    cancelRequested := true
    state := if e.state = .queued then .cancelled else e.state }

/-- A cancellation is requested; whether the id is known. -/
def cancel (id : ℕ) : Bool × WorkloadRegistry :=
  ((reg.entries.lookup id).isSome, reg.modify id cancelled)

/-- The entry is running, whatever it was. -/
def setRunning (id : ℕ) : WorkloadRegistry := reg.modify id ({ · with state := .running })

/-- The entry is completed, whatever it was. -/
def setCompleted (id : ℕ) : WorkloadRegistry := reg.modify id ({ · with state := .completed })

/-- The entry has failed, with an error. -/
def setFailed (id : ℕ) (error : String) : WorkloadRegistry :=
  reg.modify id ({ · with state := .failed, error })

/-- The entry is cancelled, whatever it was. -/
def setCancelled (id : ℕ) : WorkloadRegistry := reg.modify id ({ · with state := .cancelled })

/-- The state of an entry; an unknown id has failed. -/
def getState (id : ℕ) : WorkloadState :=
  match reg.entries.lookup id with
  | none => .failed
  | some e => e.state

/-- A cancellation of the entry was requested. -/
def isCancelled (id : ℕ) : Bool :=
  match reg.entries.lookup id with
  | none => false
  | some e => e.cancelRequested

/-! ## Lookups -/

variable {reg}

theorem lookup_modify (id : ℕ) (f : WorkloadEntry → WorkloadEntry) (k : ℕ) :
    (reg.modify id f).entries.lookup k =
      if k = id then (reg.entries.lookup id).map f else reg.entries.lookup k := by
  unfold modify
  cases h : reg.entries.lookup id with
  | none =>
    dsimp only
    split
    next hk => rw [hk, h, Option.map_none]
    next => rfl
  | some e =>
    dsimp only
    rw [KeyedMap.lookup_insert_eq_ite, Option.map_some]

@[simp]
theorem nextId_modify (id : ℕ) (f : WorkloadEntry → WorkloadEntry) :
    (reg.modify id f).nextId = reg.nextId := by
  unfold modify
  split <;> rfl

end WorkloadRegistry
end HeteroAccel.Runtime
