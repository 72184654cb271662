import HeteroAccel.Lib.Interleaving
import Mathlib.Algebra.BigOperators.Group.Finset.Basic
import Mathlib.Algebra.Order.BigOperators.Group.Finset
import Mathlib.Logic.Relation

/-!
# Kernels of workgroups

A kernel runs on the threads of some workgroups. All threads share a memory; the threads of one
workgroup wait for each other at barriers, those of different workgroups never do. Any thread that
does not wait may take the next step.

When the threads of a kernel do not race, every schedule ends, none is stuck at a barrier, and the
memory in the end is that of the threads one after the other, from each barrier to the next.

## Main definitions

* `Kernel`: what each thread does between the barriers, of which all threads of a workgroup come to
  the same ones;
* `Kernel.Step`, `Kernel.Finished`: the schedules;
* `Kernel.RaceFree`, `Kernel.Owners`: threads that do not race, and how to see it;
* `Kernel.result`: the memory in the end.

## Main results

* `Kernel.acc_step`: no schedule goes on without an end;
* `Kernel.Valid.finished_of_stuck`: a schedule that cannot go on has finished;
* `Kernel.Valid.memory_eq`: the memory of a schedule that has finished;
* `Kernel.RaceFree.result_eq_group`, `Kernel.afterPhase_eq_thread`: what only one of the workgroups,
  or only one of the threads, writes.
-/

namespace Workgroups

open Interleaving (Action Processes)

/-- What the threads of some workgroups do. -/
structure Kernel (Loc Val : Type*) where
  groups : ℕ
  /-- The threads of a workgroup. -/
  threads : ℕ
  /-- The phases of a workgroup, up to the first barrier, from each barrier to the next, and behind
  the last one: what each thread does in them. -/
  main : ℕ → List (ℕ → List (Action Loc Val))

namespace Kernel

variable {Loc Val : Type*} (K : Kernel Loc Val)

/-- How many phases a workgroup has. -/
def phases (g : ℕ) : ℕ := (K.main g).length

/-- The steps of the threads in a phase. -/
def phase (g p : ℕ) : ℕ → List (Action Loc Val) := (K.main g).getD p fun _ => []

/-! ## Schedules -/

/-- Where a thread is: its phase, and the steps that it has taken in it. -/
structure Place where
  phase : ℕ := 0
  steps : ℕ := 0

/-- The memory, and where the threads are. -/
structure State (Loc Val : Type*) where
  memory : Loc → Val
  place : ℕ × ℕ → Place := fun _ => {}

variable {K} in
/-- A thread has taken all steps of a phase. -/
def Ended (K : Kernel Loc Val) (s : State Loc Val) (g t p : ℕ) : Prop :=
  p < (s.place (g, t)).phase ∨
    (s.place (g, t)).phase = p ∧ (s.place (g, t)).steps = (K.phase g p t).length

section

variable [DecidableEq Loc]

/-- A thread takes a step, or passes a barrier at which all threads of its workgroup have
arrived. -/
inductive Step : State Loc Val → State Loc Val → Prop
  | act {s : State Loc Val} {g t p k : ℕ} {a : Action Loc Val} (hg : g < K.groups)
      (ht : t < K.threads) (hplace : s.place (g, t) = ⟨p, k⟩) (ha : (K.phase g p t)[k]? = some a) :
      Step s { memory := a.run s.memory, place := Function.update s.place (g, t) ⟨p, k + 1⟩ }
  | pass {s : State Loc Val} {g t p k : ℕ} (hg : g < K.groups) (ht : t < K.threads)
      (hplace : s.place (g, t) = ⟨p, k⟩) (hmore : p + 1 < K.phases g)
      (harrived : ∀ t' < K.threads, K.Ended s g t' p) :
      Step s { s with place := Function.update s.place (g, t) ⟨p + 1, 0⟩ }

/-- A schedule from the first state to the second. -/
def Reaches : State Loc Val → State Loc Val → Prop := Relation.ReflTransGen K.Step

/-- All threads have come to their end. -/
def Finished (s : State Loc Val) : Prop :=
  ∀ g < K.groups, ∀ t < K.threads, ∀ p < K.phases g, K.Ended s g t p

/-- The threads of a workgroup, one after the other, in a phase. -/
def afterPhase (m : Loc → Val) (phase : ℕ → List (Action Loc Val)) : Loc → Val :=
  Action.runAll m ((List.range K.threads).flatMap phase)

/-- The steps of a workgroup, phase by phase. -/
def groupProgram (g : ℕ) : List (Action Loc Val) :=
  (K.main g).flatMap fun phase => (List.range K.threads).flatMap phase

/-- The workgroups, one after the other. -/
def result (m : Loc → Val) : Loc → Val :=
  Action.runAll m ((List.range K.groups).flatMap K.groupProgram)

end

/-! ## Threads that do not race -/

/-- Threads that may overlap do not touch what the other one writes: those of a workgroup in the
same phase, and those of different workgroups at any time. -/
structure RaceFree : Prop where
  threads : ∀ g < K.groups, ∀ phase ∈ K.main g, ∀ t < K.threads, ∀ t' < K.threads, t ≠ t' →
    ∀ a ∈ phase t, ∀ b ∈ phase t', a.Independent b
  groups : ∀ g < K.groups, ∀ g' < K.groups, g ≠ g' → ∀ phase ∈ K.main g, ∀ phase' ∈ K.main g',
    ∀ t < K.threads, ∀ t' < K.threads, ∀ a ∈ phase t, ∀ b ∈ phase' t', a.Independent b

/-- An owner for each location that is written in a phase. A location may change its owner from one
phase to the next, but stays in its workgroup. -/
structure Owners (owner : ℕ → Loc → Option (ℕ × ℕ)) : Prop where
  group : ∀ {p p' l g t g' t'}, owner p l = some (g, t) → owner p' l = some (g', t') → g = g'
  writes : ∀ {g p t a l}, g < K.groups → t < K.threads → a ∈ K.phase g p t → l ∈ a.writes →
    owner p l = some (g, t)
  /-- What is read belongs to nobody else. -/
  reads : ∀ {g p t a l p' g' t'}, g < K.groups → t < K.threads → a ∈ K.phase g p t → l ∈ a.reads →
    owner p' l = some (g', t') → g' = g ∧ (p' = p → t' = t)

variable {K}

/-- Behind its last phase a group does nothing. -/
theorem phase_eq_nil {g p t : ℕ} (h : K.phases g ≤ p) : K.phase g p t = [] := by
  rw [phase, List.getD_eq_getElem?_getD, List.getElem?_eq_none h, Option.getD_none]

/-- Actions belong to one of the phases. -/
theorem phase_lt_of_mem {g p t : ℕ} {a : Action Loc Val} (h : a ∈ K.phase g p t) :
    p < K.phases g := by
  by_contra hp
  rw [phase_eq_nil (not_lt.mp hp)] at h
  exact List.not_mem_nil h

theorem phase_eq {g p : ℕ} {phase : ℕ → List (Action Loc Val)} (h : (K.main g)[p]? = some phase) :
    K.phase g p = phase := by
  rw [Kernel.phase, List.getD_eq_getElem?_getD, h, Option.getD_some]

/-- The phases of a group, by their numbers. -/
theorem mem_main {g : ℕ} {phase : ℕ → List (Action Loc Val)} :
    phase ∈ K.main g ↔ ∃ p < K.phases g, K.phase g p = phase := by
  rw [List.mem_iff_getElem]
  constructor
  · rintro ⟨p, hp, rfl⟩
    exact ⟨p, hp, phase_eq (List.getElem?_eq_getElem hp)⟩
  · rintro ⟨p, hp, rfl⟩
    exact ⟨p, hp, (phase_eq (List.getElem?_eq_getElem hp)).symm⟩

theorem phase_mem_main {g p t : ℕ} {a : Action Loc Val} (h : a ∈ K.phase g p t) :
    K.phase g p ∈ K.main g := mem_main.mpr ⟨p, phase_lt_of_mem h, rfl⟩

/-- The phases by their numbers. -/
theorem map_phase (g : ℕ) : (List.range (K.phases g)).map (K.phase g) = K.main g := by
  refine List.ext_getElem (by simp [phases]) fun p hp hp' => ?_
  rw [List.getElem_map, List.getElem_range, phase_eq (List.getElem?_eq_getElem hp')]

/-- A kernel whose locations have owners is free of races. -/
theorem Owners.raceFree {owner : ℕ → Loc → Option (ℕ × ℕ)} (h : K.Owners owner) : K.RaceFree where
  threads g hg phase hphase t ht t' ht' hne a ha b hb := by
    obtain ⟨p, -, rfl⟩ := mem_main.mp hphase
    have hreads : ∀ {t t'}, t < K.threads → t' < K.threads → t ≠ t' → ∀ {a b},
        a ∈ K.phase g p t → b ∈ K.phase g p t' → ∀ l ∈ a.reads, l ∉ b.writes :=
      fun ht ht' hne _ _ ha hb l hl hw =>
        hne ((h.reads hg ht ha hl (h.writes hg ht' hb hw)).2 rfl).symm
    refine ⟨fun l hl hw => hne ?_, hreads ht ht' hne ha hb, hreads ht' ht hne.symm hb ha⟩
    have heq := (h.writes hg ht ha hl).symm.trans (h.writes hg ht' hb hw)
    exact (Prod.ext_iff.mp (Option.some.inj heq)).2
  groups g hg g' hg' hne phase hphase phase' hphase' t ht t' ht' a ha b hb := by
    obtain ⟨p, -, rfl⟩ := mem_main.mp hphase
    obtain ⟨p', -, rfl⟩ := mem_main.mp hphase'
    refine ⟨fun l hl hw => ?_, fun l hl hw => ?_, fun l hl hw => ?_⟩
    · exact hne (h.group (h.writes hg ht ha hl) (h.writes hg' ht' hb hw))
    · exact hne (h.reads hg ht ha hl (h.writes hg' ht' hb hw)).1.symm
    · exact hne (h.reads hg' ht' hb hl (h.writes hg ht ha hw)).1

/-! ## The kernel as processes -/

variable (K) in
/-- A process for each workgroup, phase and thread. -/
def processes : Processes (ℕ × ℕ × ℕ) Loc Val where
  program i := if i.1 < K.groups ∧ i.2.2 < K.threads then K.phase i.1 i.2.1 i.2.2 else []
  before i j := i.1 = j.1 ∧ i.2.1 < j.2.1
  irrefl _ h := lt_irrefl _ h.2

theorem program_eq {g p t : ℕ} (hg : g < K.groups) (ht : t < K.threads) :
    K.processes.program (g, p, t) = K.phase g p t := if_pos ⟨hg, ht⟩

/-- The steps that each process has taken. -/
def done (K : Kernel Loc Val) (s : State Loc Val) (i : ℕ × ℕ × ℕ) : ℕ :=
  let place := s.place (i.1, i.2.2)
  if i.2.1 < place.phase then (K.phase i.1 i.2.1 i.2.2).length
  else if i.2.1 = place.phase then place.steps
  else 0

/-- All processes, workgroup by workgroup and phase by phase. -/
def order (K : Kernel Loc Val) : List (ℕ × ℕ × ℕ) :=
  (List.range K.groups).flatMap fun g => (List.range (K.phases g)).flatMap fun p =>
    (List.range K.threads).map fun t => (g, p, t)

/-- The order has every thread in every phase of its group. -/
theorem mem_order {g p t : ℕ} :
    (g, p, t) ∈ K.order ↔ g < K.groups ∧ p < K.phases g ∧ t < K.threads := by
  simp only [order, List.mem_flatMap, List.mem_map, List.mem_range, Prod.mk.injEq]
  constructor
  · rintro ⟨g', hg, p', hp, t', ht, rfl, rfl, rfl⟩
    exact ⟨hg, hp, ht⟩
  · rintro ⟨hg, hp, ht⟩
    exact ⟨g, hg, p, hp, t, ht, rfl, rfl, rfl⟩

/-- Processes that come one after the other are different, and not in the wrong order. -/
theorem pairwise_order : K.order.Pairwise fun i j => i ≠ j ∧ ¬ K.processes.before j i := by
  have hlt : ∀ n, (List.range n).Pairwise (· < ·) := fun n => List.pairwise_lt_range
  refine List.pairwise_flatMap.mpr ⟨fun g _ => List.pairwise_flatMap.mpr ⟨fun p _ => ?_, ?_⟩, ?_⟩
  · -- the threads of a phase
    refine List.pairwise_map.mpr ((hlt K.threads).imp fun hlt => ⟨?_, ?_⟩)
    · exact fun heq => hlt.ne (Prod.ext_iff.mp (Prod.ext_iff.mp heq).2).2
    · exact fun hbefore => lt_irrefl _ hbefore.2
  · -- the phases of a workgroup
    refine (hlt (K.phases g)).imp fun {p p'} hlt i hi j hj => ?_
    obtain ⟨t, -, rfl⟩ := List.mem_map.mp hi
    obtain ⟨t', -, rfl⟩ := List.mem_map.mp hj
    refine ⟨?_, ?_⟩
    · exact fun heq => hlt.ne (Prod.ext_iff.mp (Prod.ext_iff.mp heq).2).1
    · exact fun hbefore => lt_asymm hlt hbefore.2
  · refine (hlt K.groups).imp fun {g g'} hlt i hi j hj => ?_
    obtain ⟨p, -, hi⟩ := List.mem_flatMap.mp hi
    obtain ⟨t, -, rfl⟩ := List.mem_map.mp hi
    obtain ⟨p', -, hj⟩ := List.mem_flatMap.mp hj
    obtain ⟨t', -, rfl⟩ := List.mem_map.mp hj
    refine ⟨?_, ?_⟩
    · exact fun heq => hlt.ne (Prod.ext_iff.mp heq).1
    · exact fun hbefore => hlt.ne' hbefore.1

/-- A kernel that is free of races is so as a set of processes. -/
theorem RaceFree.processes (h : K.RaceFree) : K.processes.RaceFree := by
  rintro ⟨g, p, t⟩ ⟨g', p', t'⟩ hne hbefore hbefore' a ha b hb
  simp only [Kernel.processes] at ha hb
  split_ifs at ha hb with hi hj
  · obtain ⟨hg, ht⟩ := hi
    obtain ⟨hg', ht'⟩ := hj
    by_cases hgroup : g = g'
    · subst hgroup
      have hp : p = p' := le_antisymm (not_lt.mp fun hlt => hbefore' ⟨rfl, hlt⟩)
        (not_lt.mp fun hlt => hbefore ⟨rfl, hlt⟩)
      subst hp
      exact h.threads g hg _ (phase_mem_main ha) t ht t' ht' (fun heq => hne (by rw [heq])) a ha b
        hb
    · exact h.groups g hg g' hg' hgroup _ (phase_mem_main ha) _ (phase_mem_main hb) t ht t' ht' a
        ha b hb
  · cases hb
  · cases ha
  · cases ha

/-- What has ended stays so when a thread moves on. -/
theorem Ended.update {s : State Loc Val} {g t p g' t' : ℕ} {m : Loc → Val} {place : Place}
    (h : K.Ended s g t p)
    (hplace : (s.place (g', t')).phase < place.phase ∨
      (s.place (g', t')).phase = place.phase ∧
        (s.place (g', t')).steps < (K.phase g' place.phase t').length) :
    K.Ended { memory := m, place := Function.update s.place (g', t') place } g t p := by
  unfold Ended at h ⊢
  dsimp only
  by_cases heq : (g, t) = (g', t')
  · obtain ⟨rfl, rfl⟩ := Prod.ext_iff.mp heq
    dsimp only at h hplace ⊢
    rw [Function.update_self]
    rcases h with hlt | ⟨hphase, hsteps⟩
    · rcases hplace with hmore | ⟨hsame, -⟩
      · exact .inl (hlt.trans hmore)
      · exact .inl (hsame ▸ hlt)
    · rcases hplace with hmore | ⟨hsame, hsteps'⟩
      · exact .inl (hphase ▸ hmore)
      · rw [← hsame, hphase] at hsteps'
        exact absurd hsteps hsteps'.ne
  · rwa [Function.update_of_ne heq]

section

variable [DecidableEq Loc] {m₀ : Loc → Val} {s s' : State Loc Val}

/-! ## Runs -/

variable (K m₀) in
/-- What holds in every schedule. -/
structure Valid (s : State Loc Val) : Prop where
  came : K.processes.Came m₀ s.memory (K.done s)
  /-- Where a thread has passed a barrier, all have arrived. -/
  arrived : ∀ {g t t' p}, g < K.groups → t' < K.threads → p < (s.place (g, t)).phase →
    K.Ended s g t' p
  steps : ∀ g t, (s.place (g, t)).steps ≤ (K.phase g (s.place (g, t)).phase t).length
  others : ∀ g t, ¬ (g < K.groups ∧ t < K.threads) → s.place (g, t) = {}

theorem Valid.start : K.Valid m₀ { memory := m₀ } where
  came := by
    have hdone : K.done ({ memory := m₀ } : State Loc Val) = fun _ => 0 := by
      funext i
      simp [done]
    rw [hdone]
    exact Processes.Came.refl
  arrived _ _ hp := absurd hp (Nat.not_lt_zero _)
  steps _ _ := Nat.zero_le _
  others _ _ _ := rfl

theorem Valid.step (h : K.Valid m₀ s) (hstep : K.Step s s') : K.Valid m₀ s' := by
  cases hstep with
  | @act g t p k a hg ht hplace ha =>
    have hlt : k < (K.phase g p t).length := (List.getElem?_eq_some_iff.mp ha).1
    have hended : ∀ {g' t' p'}, K.Ended s g' t' p' → K.Ended
        { memory := a.run s.memory, place := Function.update s.place (g, t) ⟨p, k + 1⟩ } g' t' p' :=
      fun h => h.update (.inr ⟨by rw [hplace], by rw [hplace]; exact hlt⟩)
    refine ⟨?_, fun {g' t' t'' p'} hg' ht'' hp' => hended ?_, fun g' t' => ?_, fun g' t' hout => ?_⟩
    · -- the process that takes the step
      have hnow : K.done s (g, p, t) = k := by simp [done, hplace]
      have hnext : K.done
          { memory := a.run s.memory, place := Function.update s.place (g, t) ⟨p, k + 1⟩ } =
          Function.update (K.done s) (g, p, t) (K.done s (g, p, t) + 1) := by
        rw [hnow]
        funext ⟨g', p', t'⟩
        by_cases heq : (g', t') = (g, t)
        · obtain ⟨rfl, rfl⟩ := Prod.ext_iff.mp heq
          by_cases hp' : p' = p
          · subst hp'
            simp [done]
          · rw [Function.update_of_ne (by simp [hp'])]
            simp [done, hplace, hp']
        · rw [Function.update_of_ne fun h => heq (by cases h; rfl)]
          simp only [done, Function.update_of_ne heq]
      rw [hnext]
      refine h.came.step (by rw [program_eq hg ht, hnow, ha]) ?_
      -- nobody is beyond the barrier that the thread has not come to
      rintro ⟨g', p', t'⟩ hdone ⟨hgroup, hbefore⟩
      dsimp only at hgroup hbefore
      subst hgroup
      have hp' : p < (s.place (g, t')).phase := by
        refine lt_of_lt_of_le hbefore (not_lt.mp fun hlt => ?_)
        simp [done, hlt.ne', hlt.not_gt] at hdone
      rcases h.arrived hg ht hp' with hmore | ⟨-, hsteps⟩
      · rw [hplace] at hmore
        exact lt_irrefl _ hmore
      · rw [hplace] at hsteps
        exact hlt.ne hsteps
    · by_cases heq : (g', t') = (g, t)
      · obtain ⟨rfl, rfl⟩ := Prod.ext_iff.mp heq
        dsimp only at hp'
        rw [Function.update_self] at hp'
        exact h.arrived (t := t') hg' ht'' (by rw [hplace]; exact hp')
      · dsimp only at hp'
        rw [Function.update_of_ne heq] at hp'
        exact h.arrived hg' ht'' hp'
    · dsimp only
      by_cases heq : (g', t') = (g, t)
      · obtain ⟨rfl, rfl⟩ := Prod.ext_iff.mp heq
        rw [Function.update_self]
        exact hlt
      · rw [Function.update_of_ne heq]
        exact h.steps g' t'
    · dsimp only
      rw [Function.update_of_ne fun heq => hout ?_]
      · exact h.others g' t' hout
      · obtain ⟨rfl, rfl⟩ := Prod.ext_iff.mp heq
        exact ⟨hg, ht⟩
  | @pass g t p k hg ht hplace hmore harrived =>
    have hsteps : k = (K.phase g p t).length := by
      rcases harrived t ht with hlt | ⟨-, hsteps⟩
      · rw [hplace] at hlt
        exact absurd hlt (lt_irrefl _)
      · rwa [hplace] at hsteps
    have hended : ∀ {g' t' p'}, K.Ended s g' t' p' → K.Ended
        { s with place := Function.update s.place (g, t) ⟨p + 1, 0⟩ } g' t' p' :=
      fun h => h.update (.inl (by rw [hplace]; exact Nat.lt_succ_self p))
    refine ⟨?_, fun {g' t' t'' p'} hg' ht'' hp' => hended ?_, fun g' t' => ?_, fun g' t' hout => ?_⟩
    · -- no process takes a step
      have hnext : K.done { s with place := Function.update s.place (g, t) ⟨p + 1, 0⟩ } =
          K.done s := by
        funext ⟨g', p', t'⟩
        by_cases heq : (g', t') = (g, t)
        · obtain ⟨rfl, rfl⟩ := Prod.ext_iff.mp heq
          simp only [done, Function.update_self, hplace]
          rcases lt_trichotomy p' p with hlt | rfl | hgt
          · rw [if_pos hlt, if_pos (hlt.trans (Nat.lt_succ_self p))]
          · simp [hsteps]
          · rw [if_neg (by omega), if_neg hgt.not_gt, if_neg hgt.ne']
            split_ifs <;> rfl
        · simp only [done, Function.update_of_ne heq]
      rw [hnext]
      exact h.came
    · by_cases heq : (g', t') = (g, t)
      · obtain ⟨rfl, rfl⟩ := Prod.ext_iff.mp heq
        dsimp only at hp'
        rw [Function.update_self] at hp'
        rcases Nat.lt_succ_iff_lt_or_eq.mp hp' with hlt | rfl
        · exact h.arrived (t := t') hg' ht'' (by rw [hplace]; exact hlt)
        · exact harrived t'' ht''
      · dsimp only at hp'
        rw [Function.update_of_ne heq] at hp'
        exact h.arrived hg' ht'' hp'
    · dsimp only
      by_cases heq : (g', t') = (g, t)
      · obtain ⟨rfl, rfl⟩ := Prod.ext_iff.mp heq
        rw [Function.update_self]
        exact Nat.zero_le _
      · rw [Function.update_of_ne heq]
        exact h.steps g' t'
    · dsimp only
      rw [Function.update_of_ne fun heq => hout ?_]
      · exact h.others g' t' hout
      · obtain ⟨rfl, rfl⟩ := Prod.ext_iff.mp heq
        exact ⟨hg, ht⟩

theorem Valid.reaches (h : K.Valid m₀ s) (hs : K.Reaches s s') : K.Valid m₀ s' := by
  induction hs with
  | refl => exact h
  | tail _ hlast ih => exact ih.step hlast

/-! ## Every schedule ends -/

/-- The steps and barriers of a thread up to a phase. -/
def work (K : Kernel Loc Val) (g t p : ℕ) : ℕ :=
  ∑ q ∈ Finset.range p, ((K.phase g q t).length + 1)

/-- What a thread still has to do. -/
def left (K : Kernel Loc Val) (s : State Loc Val) (i : ℕ × ℕ) : ℕ :=
  K.work i.1 i.2 (K.phases i.1) - (K.work i.1 i.2 (s.place i).phase + (s.place i).steps)

/-- What all threads still have to do. -/
def remaining (K : Kernel Loc Val) (s : State Loc Val) : ℕ :=
  ∑ i ∈ Finset.range K.groups ×ˢ Finset.range K.threads, K.left s i

omit [DecidableEq Loc] in
/-- Later phases have done no less work. -/
theorem work_mono {g t p p' : ℕ} (h : p ≤ p') : K.work g t p ≤ K.work g t p' :=
  Finset.sum_le_sum_of_subset (Finset.range_subset_range.mpr h)

omit [DecidableEq Loc] in
/-- A phase is its actions and the barrier. -/
theorem work_succ (g t p : ℕ) :
    K.work g t (p + 1) = K.work g t p + ((K.phase g p t).length + 1) :=
  Finset.sum_range_succ _ _

omit [DecidableEq Loc] in
/-- A thread that moves on has less to do, and the others as much as before. -/
theorem remaining_lt {g t : ℕ} {m : Loc → Val} {place : Place} (hg : g < K.groups)
    (ht : t < K.threads)
    (hless : K.left { memory := m, place := Function.update s.place (g, t) place } (g, t) <
      K.left s (g, t)) :
    K.remaining { memory := m, place := Function.update s.place (g, t) place } <
      K.remaining s := by
  refine Finset.sum_lt_sum (fun i _ => ?_) ⟨(g, t), ?_, hless⟩
  · by_cases hi : i = (g, t)
    · rw [hi]
      exact hless.le
    · simp only [left, Function.update_of_ne hi, le_refl]
  · exact Finset.mem_product.mpr ⟨Finset.mem_range.mpr hg, Finset.mem_range.mpr ht⟩

/-- Every step leaves less to do. -/
theorem Step.remaining_lt (h : K.Step s s') : K.remaining s' < K.remaining s := by
  cases h with
  | @act g t p k a hg ht hplace ha =>
    refine Kernel.remaining_lt hg ht ?_
    have hlt : k < (K.phase g p t).length := (List.getElem?_eq_some_iff.mp ha).1
    have hp : p + 1 ≤ K.phases g := phase_lt_of_mem (List.mem_of_getElem? ha)
    have hwork := work_mono (K := K) (g := g) (t := t) hp
    rw [work_succ] at hwork
    simp only [left, Function.update_self, hplace]
    omega
  | @pass g t p k hg ht hplace hmore harrived =>
    refine Kernel.remaining_lt hg ht ?_
    have hsteps : k = (K.phase g p t).length := by
      rcases harrived t ht with hlt | ⟨-, hsteps⟩
      · rw [hplace] at hlt
        exact absurd hlt (lt_irrefl _)
      · rwa [hplace] at hsteps
    have hwork := work_mono (K := K) (g := g) (t := t) (Nat.succ_le_of_lt hmore)
    rw [Nat.succ_eq_add_one, work_succ _ _ (p + 1)] at hwork
    have hnext := work_succ (K := K) g t p
    simp only [left, Function.update_self, hplace]
    omega

/-- No schedule goes on without an end. -/
theorem acc_step (s : State Loc Val) : Acc (fun s' s => K.Step s s') s := by
  induction hn : K.remaining s using Nat.strong_induction_on generalizing s with
  | _ n ih => exact .intro s fun s' hstep => ih _ (hn ▸ hstep.remaining_lt) s' rfl

/-- A schedule that cannot go on has finished: no thread waits at a barrier forever. -/
theorem Valid.finished_of_stuck (h : K.Valid m₀ s) (hstuck : ∀ s', ¬ K.Step s s') :
    K.Finished s := by
  intro g hg t ht p
  induction p using Nat.strong_induction_on generalizing t with
  | _ p ih =>
    intro hp
    obtain ⟨q, k, hplace⟩ : ∃ q k, s.place (g, t) = ⟨q, k⟩ := ⟨_, _, rfl⟩
    rcases lt_trichotomy p q with hlt | rfl | hgt
    · exact .inl (by rw [hplace]; exact hlt)
    · refine .inr ⟨by rw [hplace], ?_⟩
      have hsteps := h.steps g t
      rw [hplace] at hsteps ⊢
      dsimp only at hsteps ⊢
      refine hsteps.eq_of_not_lt fun hlt => ?_
      exact hstuck _ (.act hg ht hplace (List.getElem?_eq_getElem hlt))
    · -- all have arrived at the barrier behind the phase `q`
      refine absurd (Step.pass hg ht hplace (lt_of_le_of_lt hgt hp) fun t' ht' => ?_) (hstuck _)
      exact ih q hgt t' ht' (hgt.trans hp)

/-! ## The memory in the end -/

/-- A schedule that has finished leaves the memory of the threads one after the other. -/
theorem Valid.memory_eq (h : K.Valid m₀ s) (hfree : K.RaceFree) (hs : K.Finished s) :
    s.memory = K.result m₀ := by
  have hmemory : s.memory =
      K.order.foldl (fun m i => Action.runAll m (K.processes.program i)) m₀ := by
    refine h.came.memory_eq hfree.processes ?_ ?_ ?_ ?_
    · exact pairwise_order.imp And.left
    · exact pairwise_order.imp And.right
    · rintro ⟨g, p, t⟩ hi
      obtain ⟨hg, hp, ht⟩ := mem_order.mp hi
      rw [program_eq hg ht]
      rcases hs g hg t ht p hp with hlt | ⟨rfl, hsteps⟩
      · simp [done, hlt]
      · simp [done, hsteps]
    · rintro ⟨g, p, t⟩ hi
      by_cases hin : g < K.groups ∧ t < K.threads
      · -- beyond the last phase
        have hp : K.phases g ≤ p := not_lt.mp fun hp => hi (mem_order.mpr ⟨hin.1, hp, hin.2⟩)
        have hnil := phase_eq_nil (t := t) hp
        have hsteps := h.steps g t
        simp only [done]
        split_ifs with hlt heq
        · rw [hnil, List.length_nil]
        · rw [← heq, hnil] at hsteps
          exact Nat.le_zero.mp hsteps
        · rfl
      · simp [done, h.others g t hin]
  rw [hmemory, Action.foldl_runAll, result, order, List.flatMap_assoc]
  congr 1
  refine List.flatMap_congr fun g hg => ?_
  rw [groupProgram, ← map_phase, List.flatMap_assoc, List.flatMap_map]
  refine List.flatMap_congr fun p _ => ?_
  rw [List.flatMap_map]
  exact List.flatMap_congr fun t ht => program_eq (List.mem_range.mp hg) (List.mem_range.mp ht)

variable (K) in
/-- **Every schedule ends**, from whatever is in the memory, and leaves what is promised. -/
structure Ends (m₀ : Loc → Val) (promised : (Loc → Val) → Prop) : Prop where
  /-- No schedule goes on without an end. -/
  acc : Acc (fun s' s => K.Step s s') { memory := m₀ }
  /-- One that cannot go on is not stuck at a barrier. -/
  finished : ∀ s, K.Reaches { memory := m₀ } s → (∀ s', ¬ K.Step s s') → K.Finished s
  memory : ∀ s, K.Reaches { memory := m₀ } s → K.Finished s → promised s.memory

/-- Less may be promised. -/
theorem Ends.mono {promised promised' : (Loc → Val) → Prop} (h : K.Ends m₀ promised)
    (himp : ∀ m, promised m → promised' m) : K.Ends m₀ promised' :=
  ⟨h.acc, h.finished, fun s hs hfinished => himp _ (h.memory s hs hfinished)⟩

/-- There is a schedule that finishes. -/
theorem Ends.exists_finished {promised : (Loc → Val) → Prop} (h : K.Ends m₀ promised) :
    ∃ s, K.Reaches { memory := m₀ } s ∧ K.Finished s ∧ promised s.memory := by
  have hstuck : ∀ s, Acc (fun s' s => K.Step s s') s → K.Reaches { memory := m₀ } s →
      ∃ s', K.Reaches { memory := m₀ } s' ∧ ∀ s'', ¬ K.Step s' s'' := by
    intro s hacc
    induction hacc with
    | intro s _ ih =>
      intro hs
      by_cases hend : ∀ s'', ¬ K.Step s s''
      · exact ⟨s, hs, hend⟩
      · obtain ⟨s'', hstep⟩ := not_forall_not.mp hend
        exact ih s'' hstep (hs.tail hstep)
  obtain ⟨s, hs, hend⟩ := hstuck _ h.acc .refl
  have hfinished := h.finished s hs hend
  exact ⟨s, hs, hfinished, h.memory s hs hfinished⟩

/-- Schedules of threads that do not race. -/
theorem RaceFree.ends (h : K.RaceFree) {promised : (Loc → Val) → Prop}
    (hresult : promised (K.result m₀)) : K.Ends m₀ promised where
  acc := acc_step _
  finished s hs := (Valid.start.reaches hs).finished_of_stuck
  memory s hs hfinished := by
    rw [(Valid.start.reaches hs).memory_eq h hfinished]
    exact hresult

/-! ## One workgroup, and one thread -/

omit [DecidableEq Loc] in
/-- The actions of a group are those of its threads. -/
theorem mem_groupProgram {g : ℕ} {a : Action Loc Val} (h : a ∈ K.groupProgram g) :
    ∃ phase ∈ K.main g, ∃ t < K.threads, a ∈ phase t := by
  obtain ⟨phase, hphase, h⟩ := List.mem_flatMap.mp h
  obtain ⟨t, ht, h⟩ := List.mem_flatMap.mp h
  exact ⟨phase, hphase, t, List.mem_range.mp ht, h⟩

variable {m : Loc → Val} {l : Loc}

/-- What only one of the workgroups writes. -/
theorem RaceFree.result_eq_group (h : K.RaceFree) {g : ℕ} (hg : g < K.groups)
    (hl : ∀ g' < K.groups, g' ≠ g → ∀ phase ∈ K.main g', ∀ t < K.threads, ∀ a ∈ phase t,
      l ∉ a.writes) :
    K.result m l = Action.runAll m (K.groupProgram g) l := by
  refine Action.runAll_flatMap_of_mem List.nodup_range (List.mem_range.mpr hg)
    (fun g' hg' hne a ha b hb => ?_) fun g' hg' hne b hb => ?_
  · obtain ⟨phase, hphase, t, ht, ha⟩ := mem_groupProgram ha
    obtain ⟨phase', hphase', t', ht', hb⟩ := mem_groupProgram hb
    exact h.groups g hg g' (List.mem_range.mp hg') hne.symm phase hphase phase' hphase' t ht t' ht'
      a ha b hb
  · obtain ⟨phase, hphase, t, ht, hb⟩ := mem_groupProgram hb
    exact hl g' (List.mem_range.mp hg') hne phase hphase t ht b hb

/-- What nobody writes. -/
theorem result_of_notMem
    (hl : ∀ g < K.groups, ∀ phase ∈ K.main g, ∀ t < K.threads, ∀ a ∈ phase t, l ∉ a.writes) :
    K.result m l = m l := by
  refine Action.runAll_of_notMem fun a ha => ?_
  obtain ⟨g, hg, ha⟩ := List.mem_flatMap.mp ha
  obtain ⟨phase, hphase, t, ht, ha⟩ := mem_groupProgram ha
  exact hl g (List.mem_range.mp hg) phase hphase t ht a ha

/-- A workgroup, phase by phase. -/
theorem runAll_groupProgram (g : ℕ) (m : Loc → Val) :
    Action.runAll m (K.groupProgram g) = (K.main g).foldl K.afterPhase m :=
  (Action.foldl_runAll _ _ _).symm

variable {t : ℕ} {phase : ℕ → List (Action Loc Val)}

/-- What only one of the threads writes in a phase. -/
theorem afterPhase_eq_thread (ht : t < K.threads)
    (hindependent : ∀ t' < K.threads, t' ≠ t → ∀ a ∈ phase t, ∀ b ∈ phase t', a.Independent b)
    (hl : ∀ t' < K.threads, t' ≠ t → ∀ a ∈ phase t', l ∉ a.writes) :
    K.afterPhase m phase l = Action.runAll m (phase t) l :=
  Action.runAll_flatMap_of_mem List.nodup_range (List.mem_range.mpr ht)
    (fun t' ht' => hindependent t' (List.mem_range.mp ht'))
    fun t' ht' => hl t' (List.mem_range.mp ht')

/-- What nobody writes in a phase. -/
theorem afterPhase_of_notMem (hl : ∀ t < K.threads, ∀ a ∈ phase t, l ∉ a.writes) :
    K.afterPhase m phase l = m l := by
  refine Action.runAll_of_notMem fun a ha => ?_
  obtain ⟨t, ht, ha⟩ := List.mem_flatMap.mp ha
  exact hl t (List.mem_range.mp ht) a ha

end

end Kernel

end Workgroups
