import Mathlib.Data.List.Nodup
import Mathlib.Data.List.Perm.Basic
import Mathlib.Data.List.Range
import Mathlib.Logic.Function.Basic

/-!
# Interleavings of processes that do not race

Processes with a shared memory take their steps in any order that respects which of them must come
first. When processes that may overlap touch different locations, but for common reads, the memory
in the end does not depend on the order: it is that of the processes one after the other.

* `foldl_eq_of_arranged`: steps in two orders, with the dependent ones in the same order in both;
* `Action`: a step with the locations that it reads and writes, such as an assignment;
* `Action.runAll_flatMap_of_mem`: what only one of some independent programs writes;
* `Processes`, `Processes.RaceFree`: processes by their programs;
* `Processes.Came`: a memory to which steps of the processes lead;
* `Processes.Came.memory_eq`: the memory when they have all come to their end.
-/

namespace Interleaving

variable {S ι Loc Val : Type*}

/-! ## Lists of steps -/

/-- No step stands in front of one that must precede it. -/
def Arranged (precedes : ι → ι → Prop) (l : List ι) : Prop := l.Pairwise fun a b => ¬ precedes b a

/-- A step moves in front of steps that it commutes with. -/
theorem foldl_move {f : S → ι → S} {a : ι} {front rest : List ι}
    (h : ∀ b ∈ front, ∀ s, f (f s b) a = f (f s a) b) (s : S) :
    (front ++ a :: rest).foldl f s = (a :: (front ++ rest)).foldl f s := by
  induction front generalizing s with
  | nil => rfl
  | cons b front ih =>
    have ih := ih (fun c hc => h c (List.mem_cons_of_mem _ hc)) (f s b)
    rw [List.cons_append, List.foldl_cons, ih, List.foldl_cons, h b List.mem_cons_self]
    rfl

/-- The same steps in two orders lead to the same state, when steps that need not come in one order
commute. -/
theorem foldl_eq_of_arranged {f : S → ι → S} {precedes : ι → ι → Prop} {l₁ l₂ : List ι}
    (hperm : l₁.Perm l₂) (h₁ : Arranged precedes l₁) (h₂ : Arranged precedes l₂)
    (hcomm : ∀ a ∈ l₁, ∀ b ∈ l₁, ¬ precedes a b → ¬ precedes b a → ∀ s, f (f s a) b = f (f s b) a)
    (s : S) : l₁.foldl f s = l₂.foldl f s := by
  induction l₁ generalizing l₂ s with
  | nil => rw [hperm.nil_eq]
  | cons a l₁ ih =>
    obtain ⟨hfirst, h₁⟩ := List.pairwise_cons.mp h₁
    -- the first step of one list stands somewhere in the other; what is in front of it commutes
    obtain ⟨front, rest, rfl⟩ := List.append_of_mem (hperm.mem_iff.mp List.mem_cons_self)
    have hrest : l₁.Perm (front ++ rest) := (hperm.trans List.perm_middle).cons_inv
    obtain ⟨hfront, htail, hacross⟩ := List.pairwise_append.mp h₂
    have hmoves : ∀ b ∈ front, ∀ s, f (f s b) a = f (f s a) b := by
      intro b hb
      have hmem : b ∈ l₁ := hrest.mem_iff.mpr (List.mem_append_left _ hb)
      exact hcomm b (List.mem_cons_of_mem _ hmem) a List.mem_cons_self (hfirst b hmem)
        (hacross b hb a List.mem_cons_self)
    have harranged : Arranged precedes (front ++ rest) := by
      refine List.pairwise_append.mpr ⟨hfront, (List.pairwise_cons.mp htail).2, ?_⟩
      exact fun b hb c hc => hacross b hb c (List.mem_cons_of_mem _ hc)
    rw [foldl_move hmoves, List.foldl_cons, List.foldl_cons]
    exact ih hrest h₁ harranged
      (fun b hb c hc => hcomm b (List.mem_cons_of_mem _ hb) c (List.mem_cons_of_mem _ hc)) (f s a)

/-! ## Actions on a memory -/

/-- A step that sets some locations to values that depend on what other locations hold. -/
structure Action (Loc Val : Type*) where
  reads : List Loc
  writes : List Loc
  value : (Loc → Val) → Loc → Val
  depends : ∀ {m m' : Loc → Val}, (∀ l ∈ reads, m l = m' l) → ∀ l ∈ writes, value m l = value m' l

namespace Action

variable [DecidableEq Loc] (a b : Action Loc Val) (m : Loc → Val)

/-- The memory after the step. -/
def run : Loc → Val := fun l => if l ∈ a.writes then a.value m l else m l

/-- The steps of a list, one after the other. -/
def runAll (actions : List (Action Loc Val)) : Loc → Val := actions.foldl (fun m a => a.run m) m

@[simp]
theorem runAll_nil : runAll m ([] : List (Action Loc Val)) = m := rfl

@[simp]
theorem runAll_cons (actions : List (Action Loc Val)) :
    runAll m (a :: actions) = runAll (a.run m) actions := rfl

theorem runAll_append (l₁ l₂ : List (Action Loc Val)) :
    runAll m (l₁ ++ l₂) = runAll (runAll m l₁) l₂ := List.foldl_append

/-- Programs one after the other are one program. -/
theorem foldl_runAll (order : List ι) (programs : ι → List (Action Loc Val)) :
    order.foldl (fun m i => runAll m (programs i)) m = runAll m (order.flatMap programs) := by
  induction order generalizing m with
  | nil => rfl
  | cons i order ih => rw [List.foldl_cons, ih, List.flatMap_cons, runAll_append]

/-- What holds behind each round of a loop holds behind the loop. -/
theorem runAll_rounds {β : Type*} {body : β → List (Action Loc Val)}
    {P : List β → (Loc → Val) → Prop} {is : List β}
    (hround : ∀ done i rest m, is = done ++ i :: rest → P done m →
      P (done ++ [i]) (runAll m (body i)))
    (hstart : P [] m) : P is (runAll m (is.flatMap body)) := by
  suffices h : ∀ rest done m, is = done ++ rest → P done m → P is (runAll m (rest.flatMap body)) by
    exact h is [] m rfl hstart
  intro rest
  induction rest with
  | nil =>
    intro done m his hdone
    rw [his, List.append_nil]
    exact hdone
  | cons i rest ih =>
    intro done m his hdone
    rw [List.flatMap_cons, runAll_append]
    exact ih (done ++ [i]) _ (by rw [his, List.append_assoc]; rfl) (hround done i rest m his hdone)

/-- A loop that accumulates in one location, and otherwise writes only what the rounds may write
anew. -/
theorem runAll_accumulate {β : Type*} {body : β → List (Action Loc Val)} {acc : Loc}
    (scratch : Loc → Prop) {f : Val → β → Val} {is : List β}
    (hround : ∀ i ∈ is, ∀ m', (∀ l, l ≠ acc → ¬ scratch l → m' l = m l) →
      runAll m' (body i) acc = f (m' acc) i ∧
        ∀ l, l ≠ acc → ¬ scratch l → runAll m' (body i) l = m l) :
    runAll m (is.flatMap body) acc = is.foldl f (m acc) := by
  have hall : runAll m (is.flatMap body) acc = is.foldl f (m acc) ∧
      ∀ l, l ≠ acc → ¬ scratch l → runAll m (is.flatMap body) l = m l := by
    refine runAll_rounds m (P := fun done m' => m' acc = done.foldl f (m acc) ∧
      ∀ l, l ≠ acc → ¬ scratch l → m' l = m l) (fun done i rest m' his ⟨hacc, hother⟩ => ?_)
      ⟨rfl, fun _ _ _ => rfl⟩
    have hi : i ∈ is := by rw [his]; exact List.mem_append_right _ List.mem_cons_self
    obtain ⟨hnext, hrest⟩ := hround i hi m' hother
    refine ⟨?_, hrest⟩
    rw [hnext, hacc, List.foldl_append]
    rfl
  exact hall.1

/-- A loop each of whose rounds sets a location of its own, from locations that no other round
sets. -/
theorem runAll_fill {β : Type*} {body : β → List (Action Loc Val)} {dst : β → Loc} {v : β → Val}
    {is : List β} (hnodup : (is.map dst).Nodup)
    (hround : ∀ i ∈ is, ∀ m', (∀ l, (∀ j ∈ is, l = dst j → l = dst i) → m' l = m l) →
      runAll m' (body i) (dst i) = v i ∧ ∀ l, l ≠ dst i → runAll m' (body i) l = m' l) :
    (∀ i ∈ is, runAll m (is.flatMap body) (dst i) = v i) ∧
      ∀ l, l ∉ is.map dst → runAll m (is.flatMap body) l = m l := by
  refine runAll_rounds m (P := fun done m' => (∀ i ∈ done, m' (dst i) = v i) ∧
    ∀ l, l ∉ done.map dst → m' l = m l) (fun done i rest m' his ⟨hdone, hother⟩ => ?_)
    ⟨fun _ h => (List.not_mem_nil h).elim, fun _ _ => rfl⟩
  have hi : i ∈ is := by rw [his]; exact List.mem_append_right _ List.mem_cons_self
  -- the location of this round is not one of those that have been set
  have hnew : dst i ∉ done.map dst := by
    rw [his, List.map_append, List.map_cons] at hnodup
    exact fun h => List.disjoint_of_nodup_append hnodup h List.mem_cons_self
  obtain ⟨hset, hkeep⟩ := hround i hi m' fun l hl => hother l fun hmem => by
    obtain ⟨j, hj, rfl⟩ := List.mem_map.mp hmem
    have hj' : j ∈ is := by rw [his]; exact List.mem_append_left _ hj
    exact hnew (hl j hj' rfl ▸ hmem)
  refine ⟨fun j hj => ?_, fun l hl => ?_⟩
  · rcases List.mem_append.mp hj with hj | hj
    · rw [hkeep _ fun heq => hnew (heq ▸ List.mem_map_of_mem hj), hdone j hj]
    · rw [List.mem_singleton.mp hj, hset]
  · rw [List.map_append, List.mem_append, not_or, List.map_singleton, List.mem_singleton] at hl
    rw [hkeep l hl.2, hother l hl.1]

/-! ### Assignments -/

section Assignments

variable (dst a b c : Loc)

/-- A location is set to a value. -/
def assign (v : Val) : Action Loc Val where
  reads := []
  writes := [dst]
  value _ _ := v
  depends _ _ _ := rfl

/-- A location is set to a function of another one. -/
def assign₁ (f : Val → Val) : Action Loc Val where
  reads := [a]
  writes := [dst]
  value m _ := f (m a)
  depends h _ _ := by rw [h a List.mem_cons_self]

/-- A location is set to a function of two others. -/
def assign₂ (f : Val → Val → Val) : Action Loc Val where
  reads := [a, b]
  writes := [dst]
  value m _ := f (m a) (m b)
  depends h _ _ := by rw [h a (by simp), h b (by simp)]

/-- A location is set to a function of three others. -/
def assign₃ (f : Val → Val → Val → Val) : Action Loc Val where
  reads := [a, b, c]
  writes := [dst]
  value m _ := f (m a) (m b) (m c)
  depends h _ _ := by rw [h a (by simp), h b (by simp), h c (by simp)]

variable (m : Loc → Val)

@[simp]
theorem run_assign (v : Val) : (assign dst v).run m = Function.update m dst v := by
  funext l
  simp [run, assign, Function.update_apply]

@[simp]
theorem run_assign₁ (f : Val → Val) :
    (assign₁ dst a f).run m = Function.update m dst (f (m a)) := by
  funext l
  simp [run, assign₁, Function.update_apply]

@[simp]
theorem run_assign₂ (f : Val → Val → Val) :
    (assign₂ dst a b f).run m = Function.update m dst (f (m a) (m b)) := by
  funext l
  simp [run, assign₂, Function.update_apply]

@[simp]
theorem run_assign₃ (f : Val → Val → Val → Val) :
    (assign₃ dst a b c f).run m = Function.update m dst (f (m a) (m b) (m c)) := by
  funext l
  simp [run, assign₃, Function.update_apply]

/-- A loop that accumulates from a value on, and whose result is stored. -/
theorem runAll_accumulateTo {β : Type*} {body : β → List (Action Loc Val)} {acc dst : Loc}
    (scratch : Loc → Prop) {f : Val → β → Val} {is : List β} {v : Val} {m : Loc → Val}
    (hround : ∀ i ∈ is, ∀ m', (∀ l, l ≠ acc → ¬ scratch l → m' l = m l) →
      runAll m' (body i) acc = f (m' acc) i ∧
        ∀ l, l ≠ acc → ¬ scratch l → runAll m' (body i) l = m l) :
    runAll m (assign acc v :: is.flatMap body ++ [assign₁ dst acc id]) dst = is.foldl f v := by
  rw [runAll_append, runAll_cons, runAll_nil, run_assign₁, Function.update_self, runAll_cons,
    run_assign]
  have haccumulate : runAll (Function.update m acc v) (is.flatMap body) acc =
      is.foldl f (Function.update m acc v acc) := by
    refine runAll_accumulate _ scratch fun i hi m' hm' => ?_
    obtain ⟨hacc, hother⟩ := hround i hi m' fun l hl hs => by
      rw [hm' l hl hs, Function.update_of_ne hl]
    exact ⟨hacc, fun l hl hs => by rw [hother l hl hs, Function.update_of_ne hl]⟩
  rw [id, haccumulate, Function.update_self]

end Assignments

/-! ### Steps that do not touch the same locations -/

/-- Neither of two steps touches what the other one writes. -/
structure Independent (a b : Action Loc Val) : Prop where
  writes : ∀ l ∈ a.writes, l ∉ b.writes
  left : ∀ l ∈ a.reads, l ∉ b.writes
  right : ∀ l ∈ b.reads, l ∉ a.writes

variable {a b m} {l : Loc}

/-- An action gives the locations that it writes their values. -/
theorem run_of_mem (h : l ∈ a.writes) : a.run m l = a.value m l := if_pos h

/-- An action leaves every location that it does not write. -/
theorem run_of_notMem (h : l ∉ a.writes) : a.run m l = m l := if_neg h

/-- Where no step writes, a list of steps changes nothing. -/
theorem runAll_of_notMem {actions : List (Action Loc Val)} (h : ∀ a ∈ actions, l ∉ a.writes) :
    runAll m actions l = m l := by
  induction actions generalizing m with
  | nil => rfl
  | cons a actions ih =>
    rw [runAll_cons, ih fun b hb => h b (List.mem_cons_of_mem _ hb),
      run_of_notMem (h a List.mem_cons_self)]

/-- When no step touches what an earlier one has written, each sets its locations as it would have
done at first. -/
theorem runAll_of_mem {actions : List (Action Loc Val)}
    (hfresh : actions.Pairwise fun a b => ∀ l ∈ a.writes, l ∉ b.reads ∧ l ∉ b.writes)
    (ha : a ∈ actions) (hl : l ∈ a.writes) : runAll m actions l = a.value m l := by
  induction actions generalizing m with
  | nil => cases ha
  | cons first actions ih =>
    obtain ⟨hfirst, hfresh⟩ := List.pairwise_cons.mp hfresh
    rw [runAll_cons]
    rcases List.mem_cons.mp ha with rfl | ha
    · rw [runAll_of_notMem fun b hb => (hfirst b hb l hl).2, run_of_mem hl]
    · rw [ih hfresh ha]
      refine a.depends (fun l' hl' => run_of_notMem fun hw => ?_) l hl
      exact (hfirst a ha l' hw).1 hl'

/-- A list of steps does the same on memories that agree on what it reads. -/
theorem runAll_congr {actions : List (Action Loc Val)} {m m' : Loc → Val}
    (hreads : ∀ a ∈ actions, ∀ l ∈ a.reads, m l = m' l) (hl : m l = m' l) :
    runAll m actions l = runAll m' actions l := by
  -- the memories agree on a set of locations, and go on doing so
  suffices h : ∀ (S : Loc → Prop) (m m' : Loc → Val), (∀ l, S l → m l = m' l) →
      (∀ a ∈ actions, ∀ l ∈ a.reads, S l) → ∀ l, S l → runAll m actions l = runAll m' actions l by
    exact h (fun l => m l = m' l) m m' (fun _ => id) hreads l hl
  intro S
  clear hreads hl
  induction actions with
  | nil => exact fun m m' hagree _ => hagree
  | cons a actions ih =>
    intro m m' hagree hreads
    have hstep : ∀ l, S l → a.run m l = a.run m' l := by
      intro l hl
      by_cases hw : l ∈ a.writes
      · rw [run_of_mem hw, run_of_mem hw]
        exact a.depends (fun l' hl' => hagree l' (hreads a List.mem_cons_self l' hl')) l hw
      · rw [run_of_notMem hw, run_of_notMem hw, hagree l hl]
    exact ih _ _ hstep fun b hb => hreads b (List.mem_cons_of_mem _ hb)

/-- Among programs whose steps are independent, what only one of them writes is as this one leaves
it. -/
theorem runAll_flatMap_of_mem {order : List ι} {programs : ι → List (Action Loc Val)} {i : ι}
    (hnodup : order.Nodup) (hi : i ∈ order)
    (hindependent : ∀ j ∈ order, j ≠ i → ∀ a ∈ programs i, ∀ b ∈ programs j, a.Independent b)
    (hl : ∀ j ∈ order, j ≠ i → ∀ b ∈ programs j, l ∉ b.writes) :
    runAll m (order.flatMap programs) l = runAll m (programs i) l := by
  induction order generalizing m with
  | nil => cases hi
  | cons j order ih =>
    obtain ⟨hfresh, hnodup⟩ := List.nodup_cons.mp hnodup
    rw [List.flatMap_cons, runAll_append]
    rcases List.mem_cons.mp hi with rfl | hi
    · -- what follows does not write here
      refine runAll_of_notMem fun b hb => ?_
      obtain ⟨j, hj, hb⟩ := List.mem_flatMap.mp hb
      exact hl j (List.mem_cons_of_mem _ hj) (fun heq => hfresh (heq ▸ hj)) b hb
    · have hne : j ≠ i := fun heq => hfresh (heq ▸ hi)
      rw [ih hnodup hi (fun k hk => hindependent k (List.mem_cons_of_mem _ hk))
        fun k hk => hl k (List.mem_cons_of_mem _ hk)]
      -- what comes before does not write what is read
      refine runAll_congr (fun a ha l' hl' => ?_) ?_
      · exact runAll_of_notMem fun b hb hw =>
          (hindependent j List.mem_cons_self hne a ha b hb).left l' hl' hw
      · exact runAll_of_notMem (hl j List.mem_cons_self hne)

/-- Independent actions may change places. -/
theorem Independent.run_comm (h : a.Independent b) (m : Loc → Val) :
    b.run (a.run m) = a.run (b.run m) := by
  funext l
  by_cases ha : l ∈ a.writes
  · rw [run_of_notMem (h.writes l ha), run_of_mem ha, run_of_mem ha]
    exact a.depends (fun l' hl' => (run_of_notMem (h.left l' hl')).symm) l ha
  · rw [run_of_notMem ha]
    by_cases hb : l ∈ b.writes
    · rw [run_of_mem hb, run_of_mem hb]
      exact b.depends (fun l' hl' => run_of_notMem (h.right l' hl')) l hb
    · rw [run_of_notMem hb, run_of_notMem hb, run_of_notMem ha]

end Action

/-! ## Processes -/

/-- Processes with a shared memory, some of which must wait for others. -/
structure Processes (ι Loc Val : Type*) where
  program : ι → List (Action Loc Val)
  /-- The first process must have ended when the second one starts. -/
  before : ι → ι → Prop
  irrefl : ∀ i, ¬ before i i

namespace Processes

variable (P : Processes ι Loc Val)

/-- Processes that may overlap do not touch what the other one writes. -/
def RaceFree : Prop :=
  ∀ i j, i ≠ j → ¬ P.before i j → ¬ P.before j i →
    ∀ a ∈ P.program i, ∀ b ∈ P.program j, a.Independent b

/-- The steps of one process come in order, and behind those of processes it waits for. -/
def Precedes (a b : ι × ℕ) : Prop := (a.1 = b.1 ∧ a.2 < b.2) ∨ P.before a.1 b.1

/-- All steps of some processes, process by process. -/
def steps (order : List ι) : List (ι × ℕ) :=
  order.flatMap fun i => (List.range (P.program i).length).map fun k => (i, k)

section steps

variable {P}

/-- The steps of some threads are those of their programs. -/
theorem mem_steps {order : List ι} {step : ι × ℕ} :
    step ∈ P.steps order ↔ step.1 ∈ order ∧ step.2 < (P.program step.1).length := by
  obtain ⟨i, k⟩ := step
  simp only [steps, List.mem_flatMap, List.mem_map, List.mem_range, Prod.mk.injEq]
  constructor
  · rintro ⟨j, hj, k', hk, rfl, rfl⟩
    exact ⟨hj, hk⟩
  · rintro ⟨hi, hk⟩
    exact ⟨i, hi, k, hk, rfl, rfl⟩

theorem nodup_steps {order : List ι} (hnodup : order.Nodup) : (P.steps order).Nodup := by
  refine List.nodup_flatMap.mpr ⟨fun i _ => ?_, hnodup.imp fun {i j} hne step hi hj => ?_⟩
  · exact List.nodup_range.map fun k k' h => (Prod.ext_iff.mp h).2
  · obtain ⟨k, -, rfl⟩ := List.mem_map.mp hi
    obtain ⟨k', -, heq⟩ := List.mem_map.mp hj
    exact hne (Prod.ext_iff.mp heq).1.symm

/-- Threads in a permitted order have their steps in a permitted order. -/
theorem arranged_steps {order : List ι} (hnodup : order.Nodup)
    (harranged : Arranged P.before order) : Arranged P.Precedes (P.steps order) := by
  have hboth : order.Pairwise fun i j => i ≠ j ∧ ¬ P.before j i := hnodup.and harranged
  refine List.pairwise_flatMap.mpr ⟨fun i _ => ?_, hboth.imp fun {i j} ⟨hne, hbefore⟩ => ?_⟩
  · rw [List.pairwise_map]
    refine List.pairwise_lt_range.imp fun {k k'} hlt => ?_
    rintro (⟨-, hgt⟩ | hbefore)
    · exact Nat.lt_asymm hlt hgt
    · exact P.irrefl i hbefore
  · intro step hstep step' hstep'
    obtain ⟨k, -, rfl⟩ := List.mem_map.mp hstep
    obtain ⟨k', -, rfl⟩ := List.mem_map.mp hstep'
    rintro (⟨heq, -⟩ | hbefore')
    · exact hne heq.symm
    · exact hbefore hbefore'

end steps

variable [DecidableEq Loc]

/-- The memory after a step that is given by its process and its place in the program. -/
def act (m : Loc → Val) (step : ι × ℕ) : Loc → Val :=
  match (P.program step.1)[step.2]? with
  | some a => a.run m
  | none => m

/-- From the memory `m₀`, steps of the processes lead to the memory `m`; so many steps of each
process are done. -/
def Came (m₀ m : Loc → Val) (done : ι → ℕ) : Prop :=
  ∃ trace : List (ι × ℕ), m = trace.foldl P.act m₀ ∧ trace.Nodup ∧ Arranged P.Precedes trace ∧
    ∀ step, step ∈ trace ↔ step.2 < done step.1

variable {P} {m₀ m : Loc → Val} {done : ι → ℕ}

theorem Came.refl : P.Came m₀ m₀ fun _ => 0 :=
  ⟨[], rfl, .nil, .nil, fun _ => iff_of_false List.not_mem_nil (Nat.not_lt_zero _)⟩

/-- One more step of a process, when no process has begun that must wait for it. -/
theorem Came.step [DecidableEq ι] (h : P.Came m₀ m done) {i : ι} {a : Action Loc Val}
    (ha : (P.program i)[done i]? = some a) (horder : ∀ j, 0 < done j → ¬ P.before i j) :
    P.Came m₀ (a.run m) (Function.update done i (done i + 1)) := by
  obtain ⟨trace, rfl, hnodup, harranged, hmem⟩ := h
  have hnew : (i, done i) ∉ trace := fun h => lt_irrefl _ ((hmem _).mp h)
  refine ⟨trace ++ [(i, done i)], ?_, ?_, ?_, ?_⟩
  · rw [List.foldl_append, List.foldl_cons, List.foldl_nil]
    unfold act
    rw [ha]
  · exact hnodup.append (List.nodup_singleton _) (List.disjoint_singleton.mpr hnew)
  · refine List.pairwise_append.mpr ⟨harranged, List.pairwise_singleton _ _, ?_⟩
    intro step hstep last hlast hprecedes
    have hdone := (hmem step).mp hstep
    rw [List.mem_singleton.mp hlast] at hprecedes
    rcases hprecedes with ⟨heq, hlt⟩ | hbefore
    · have heq : i = step.1 := heq
      exact absurd (heq ▸ hlt) (Nat.lt_asymm hdone)
    · exact horder step.1 (Nat.zero_lt_of_lt hdone) hbefore
  · intro step
    rw [List.mem_append, hmem, List.mem_singleton, Function.update_apply]
    split
    next heq =>
      rw [heq, Nat.lt_succ_iff_lt_or_eq, Prod.ext_iff]
      exact or_congr_right ⟨And.right, fun h => ⟨heq, h⟩⟩
    next hne => exact or_iff_left fun heq => hne (by rw [heq])

/-- The steps of a process in order are its program. -/
theorem foldl_act_range (i : ι) (m : Loc → Val) :
    ((List.range (P.program i).length).map fun k => (i, k)).foldl P.act m =
      Action.runAll m (P.program i) := by
  have hfirst : ∀ n ≤ (P.program i).length, ((List.range n).map fun k => (i, k)).foldl P.act m =
      Action.runAll m ((P.program i).take n) := by
    intro n
    induction n with
    | zero => exact fun _ => rfl
    | succ n ih =>
      intro hn
      have ha := List.getElem?_eq_getElem (Nat.lt_of_succ_le hn)
      rw [List.range_succ, List.map_append, List.foldl_append, ih (Nat.le_of_succ_le hn),
        List.take_add_one, ha, Action.runAll_append, List.map_singleton, List.foldl_cons,
        List.foldl_nil]
      unfold act
      rw [ha]
      rfl
  rw [hfirst _ le_rfl, List.take_length]

/-- The steps of threads in order are their programs in order. -/
theorem foldl_act_steps (order : List ι) (m : Loc → Val) :
    (P.steps order).foldl P.act m = order.foldl (fun m i => Action.runAll m (P.program i)) m := by
  induction order generalizing m with
  | nil => rfl
  | cons i order ih =>
    rw [List.foldl_cons, ← ih, steps, List.flatMap_cons, List.foldl_append, foldl_act_range]
    rfl

/-- Steps of processes without races commute, unless one must precede the other. -/
theorem RaceFree.act_comm (h : P.RaceFree) {a b : ι × ℕ} (hab : ¬ P.Precedes a b)
    (hba : ¬ P.Precedes b a) (m : Loc → Val) : P.act (P.act m a) b = P.act (P.act m b) a := by
  obtain ⟨i, k⟩ := a
  obtain ⟨j, k'⟩ := b
  obtain ⟨hsame, hbefore⟩ := not_or.mp hab
  obtain ⟨hsame', hbefore'⟩ := not_or.mp hba
  by_cases hne : i = j
  · obtain rfl := hne
    have hk : k = k' := by
      have hle : ¬ k < k' := fun hlt => hsame ⟨rfl, hlt⟩
      have hge : ¬ k' < k := fun hlt => hsame' ⟨rfl, hlt⟩
      omega
    rw [hk]
  · unfold act
    dsimp only
    cases ha : (P.program i)[k]? with
    | none => rfl
    | some a =>
      cases hb : (P.program j)[k']? with
      | none => rfl
      | some b =>
        exact (h i j hne hbefore hbefore' a (List.mem_of_getElem? ha) b
          (List.mem_of_getElem? hb)).run_comm m

/-- When some processes have ended and no other one has begun, the memory is that of these processes
one after the other, in any order in which they may run. -/
theorem Came.memory_eq (h : P.Came m₀ m done) (hfree : P.RaceFree) {order : List ι}
    (hnodup : order.Nodup) (harranged : Arranged P.before order)
    (hended : ∀ i ∈ order, done i = (P.program i).length) (hothers : ∀ i, i ∉ order → done i = 0) :
    m = order.foldl (fun m i => Action.runAll m (P.program i)) m₀ := by
  obtain ⟨trace, rfl, htrace, harranged', hmem⟩ := h
  have hperm : trace.Perm (P.steps order) := by
    refine (List.perm_ext_iff_of_nodup htrace (nodup_steps hnodup)).mpr fun step => ?_
    rw [hmem, mem_steps]
    by_cases hi : step.1 ∈ order
    · rw [hended _ hi]
      exact (and_iff_right hi).symm
    · rw [hothers _ hi]
      exact iff_of_false (Nat.not_lt_zero _) fun h => hi h.1
  rw [← foldl_act_steps]
  exact foldl_eq_of_arranged hperm harranged' (arranged_steps hnodup harranged)
    (fun a _ b _ hab hba => hfree.act_comm hab hba) m₀

end Processes

end Interleaving
