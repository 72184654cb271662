import Mathlib.Logic.Relation

/-!
# Labelled transition systems with guarded runs

A system is a set of initial states and a step relation labelled by the call that takes the step.
A *guard* restricts the calls a run may take, as a condition on the state before the call:

* `TransitionSystem.Run guard s s'`: a run from `s` to `s'` whose steps all meet the guard;
* `TransitionSystem.Reachable guard s`: a state such runs reach from an initial state;
* `Run.preserves`, `Reachable.invariant`: the induction rules every invariant is proved by;
* `Along`, `Reachable.foldl`: runs given by a list of calls.
-/

/-- A labelled transition system over states `S` and calls `L`. -/
structure TransitionSystem (S L : Type*) where
  /-- The initial states. -/
  Init : S → Prop
  /-- One call takes the first state to the second. -/
  Step : S → L → S → Prop

namespace TransitionSystem

variable {S L : Type*} (T : TransitionSystem S L)

/-- The guard that lets every call pass. -/
def anyCall : S → L → Prop := fun _ _ => True

instance (s : S) (l : L) : Decidable (anyCall s l) := inferInstanceAs (Decidable True)

/-- A run from one state to another, all of whose calls meet the guard. -/
def Run (guard : S → L → Prop) : S → S → Prop :=
  Relation.ReflTransGen fun s s' => ∃ l, guard s l ∧ T.Step s l s'

/-- A state that some guarded run reaches from an initial state. -/
def Reachable (guard : S → L → Prop) (s : S) : Prop :=
  ∃ s₀, T.Init s₀ ∧ T.Run guard s₀ s

variable {T} {guard : S → L → Prop}

namespace Run

theorem refl (s : S) : T.Run guard s s := Relation.ReflTransGen.refl

/-- A run extended by one call. -/
theorem tail {s s' s'' : S} {l : L} (hrun : T.Run guard s s') (hl : guard s' l)
    (hstep : T.Step s' l s'') : T.Run guard s s'' :=
  Relation.ReflTransGen.tail hrun ⟨l, hl, hstep⟩

theorem trans {s s' s'' : S} (h : T.Run guard s s') (h' : T.Run guard s' s'') :
    T.Run guard s s'' :=
  Relation.ReflTransGen.trans h h'

/-- What every guarded call preserves, a run preserves. -/
theorem preserves {P : S → Prop}
    (hstep : ∀ s l s', P s → guard s l → T.Step s l s' → P s')
    {s s' : S} (hrun : T.Run guard s s') (h : P s) : P s' := by
  induction hrun with
  | refl => exact h
  | tail _ hlast ih =>
    obtain ⟨l, hl, hs⟩ := hlast
    exact hstep _ _ _ ih hl hs

/-- A run whose guard is weakened is a run. -/
theorem mono {guard' : S → L → Prop} (hle : ∀ s l, guard s l → guard' s l)
    {s s' : S} (hrun : T.Run guard s s') : T.Run guard' s s' :=
  Relation.ReflTransGen.mono (fun _ _ ⟨l, hl, hs⟩ => ⟨l, hle _ l hl, hs⟩) _ _ hrun

end Run

namespace Reachable

theorem init {s : S} (h : T.Init s) : T.Reachable guard s := ⟨s, h, Run.refl s⟩

/-- One more call leads from a reachable state to a reachable state. -/
theorem step {s s' : S} {l : L} (h : T.Reachable guard s) (hl : guard s l)
    (hs : T.Step s l s') : T.Reachable guard s' := by
  obtain ⟨s₀, h₀, hrun⟩ := h
  exact ⟨s₀, h₀, hrun.tail hl hs⟩

/-- A run leads from a reachable state to a reachable state. -/
theorem run {s s' : S} (h : T.Reachable guard s) (hrun : T.Run guard s s') :
    T.Reachable guard s' := by
  obtain ⟨s₀, h₀, hrun₀⟩ := h
  exact ⟨s₀, h₀, hrun₀.trans hrun⟩

/-- What holds initially and is preserved by every guarded call holds of every reachable
state. -/
theorem invariant {P : S → Prop} (hinit : ∀ s, T.Init s → P s)
    (hstep : ∀ s l s', P s → guard s l → T.Step s l s' → P s')
    {s : S} (h : T.Reachable guard s) : P s := by
  obtain ⟨s₀, h₀, hrun⟩ := h
  exact hrun.preserves hstep (hinit s₀ h₀)

/-- Reachability under a weaker guard. -/
theorem mono {guard' : S → L → Prop} (hle : ∀ s l, guard s l → guard' s l)
    {s : S} (h : T.Reachable guard s) : T.Reachable guard' s := by
  obtain ⟨s₀, h₀, hrun⟩ := h
  exact ⟨s₀, h₀, hrun.mono hle⟩

end Reachable

/-- A list of calls, each of which meets `ok` in the state that the calls before it lead to. -/
def Along (ok : S → L → Prop) (next : S → L → S) : S → List L → Prop
  | _, [] => True
  | s, l :: ls => ok s l ∧ Along ok next (next s l) ls

instance decidableAlong {ok : S → L → Prop} [∀ s l, Decidable (ok s l)] {next : S → L → S} :
    ∀ s ls, Decidable (Along ok next s ls)
  | _, [] => inferInstanceAs (Decidable True)
  | s, l :: ls =>
    have : Decidable (Along ok next (next s l) ls) := decidableAlong (next s l) ls
    inferInstanceAs (Decidable (ok s l ∧ _))

/-- A condition along a list of steps, step by step. -/
theorem along_append_singleton {ok : S → L → Prop} {next : S → L → S} {s : S}
    {ls : List L} {l : L} :
    Along ok next s (ls ++ [l]) ↔ Along ok next s ls ∧ ok (ls.foldl next s) l := by
  induction ls generalizing s with
  | nil => exact and_comm
  | cons l' ls ih =>
    show ok s l' ∧ Along ok next (next s l') (ls ++ [l]) ↔
      (ok s l' ∧ Along ok next (next s l') ls) ∧ _
    rw [ih, and_assoc, List.foldl_cons]

/-- Conditions that agree where an invariant holds, which the first of them keeps, agree along a
list of calls. -/
theorem along_congr_of_invariant {I : S → Prop} {ok ok' : S → L → Prop} {next : S → L → S}
    {ls : List L} (hI : ∀ s, I s → ∀ l ∈ ls, ok s l → I (next s l))
    (h : ∀ s, I s → ∀ l ∈ ls, (ok s l ↔ ok' s l)) {s : S} (hs : I s) :
    Along ok next s ls ↔ Along ok' next s ls := by
  induction ls generalizing s with
  | nil => rfl
  | cons l ls ih =>
    have hfirst := h s hs l List.mem_cons_self
    have hrest (hl : ok s l) := ih (fun s hs l hl => hI s hs l (List.mem_cons_of_mem _ hl))
      (fun s hs l hl => h s hs l (List.mem_cons_of_mem _ hl)) (hI s hs l List.mem_cons_self hl)
    constructor
    · rintro ⟨hl, hls⟩
      exact ⟨hfirst.mp hl, (hrest hl).mp hls⟩
    · rintro ⟨hl, hls⟩
      exact ⟨hfirst.mpr hl, (hrest (hfirst.mpr hl)).mpr hls⟩

/-- Conditions that agree in every state agree along every list of calls. -/
theorem along_congr {ok ok' : S → L → Prop} {next : S → L → S} (h : ∀ s l, ok s l ↔ ok' s l) {s : S}
    {ls : List L} : Along ok next s ls ↔ Along ok' next s ls :=
  along_congr_of_invariant (I := fun _ => True) (fun _ _ _ _ _ => trivial) (fun s _ l _ => h s l)
    trivial

/-- Where each call has one outcome, a list of calls that are all possible and meet the guard leads
to a reachable state. -/
theorem Reachable.foldl {ok : S → L → Prop} {next : S → L → S}
    (hok : ∀ s l, ok s l → guard s l ∧ T.Step s l (next s l)) {s : S} (h : T.Reachable guard s) :
    ∀ {ls : List L}, Along ok next s ls → T.Reachable guard (ls.foldl next s) := by
  intro ls
  induction ls generalizing s with
  | nil => exact fun _ => h
  | cons l ls ih =>
    rintro ⟨hl, hls⟩
    obtain ⟨hguard, hstep⟩ := hok s l hl
    exact ih (h.step hguard hstep) hls

/-- What elementary changes preserve, sequences of them preserve. -/
theorem preserves_reflTransGen {R : S → S → Prop} {P : S → Prop}
    (hR : ∀ s s', P s → R s s' → P s') {s s' : S}
    (h : Relation.ReflTransGen R s s') (hs : P s) : P s' := by
  induction h with
  | refl => exact hs
  | tail _ hlast ih => exact hR _ _ ih hlast

end TransitionSystem
