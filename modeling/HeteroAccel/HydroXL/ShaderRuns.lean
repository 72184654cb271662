import HeteroAccel.HydroXL.Shaders
import HeteroAccel.Lib.BufferLoop

/-!
# What the compute shaders leave

The threads of a shader do not race. However they are scheduled, and whatever is in the shared
memory and in the variables before, a dispatch ends and leaves the same in the buffers.

The argument is one of ownership. In each phase, an element of a buffer or of the shared array is
written by the thread that owns it only, and read by no other thread while it is owned. The shared
array has its owners in the phases in which it is written, and in a round of the reduction only its
first half.

## Main results

* `Shaders.counters_eq_none_iff`: the sizes at which threads never end;
* `ShaderCall.owned`: the owners of the locations;
* `ShaderCall.computes`: every schedule of a dispatch ends with the values of `ShaderCall.value`.
-/

namespace HeteroAccel

open Interleaving (Action)
open TreeReduction (halves reduce stride)
open Workgroups (Kernel)

variable {α : Type}

/-! ## Loops -/

namespace Shaders

/-- A loop that does not come near 2^32 ends. -/
theorem counter_eq_some {n : UInt32} (hn : n.toNat ≤ 2 ^ 32 - 256) {fuel : ℕ} {i : UInt32}
    (hfuel : n.toNat - i.toNat < fuel) :
    ∃ is, counter n fuel i = some is ∧ is.map UInt32.toNat = stride 256 n.toNat i.toNat := by
  induction fuel generalizing i with
  | zero => exact absurd hfuel (Nat.not_lt_zero _)
  | succ fuel ih =>
    rw [counter]
    by_cases hi : i < n
    · have hlt : i.toNat < n.toNat := UInt32.lt_iff_toNat_lt.mp hi
      have hnext : (i + 256).toNat = i.toNat + 256 := by
        rw [UInt32.toNat_add]
        exact Nat.mod_eq_of_lt (by change i.toNat + 256 < 2 ^ 32; omega)
      obtain ⟨is, his, hmap⟩ := ih (i := i + 256) (by omega)
      refine ⟨i :: is, by rw [if_pos hi, his]; rfl, ?_⟩
      rw [List.map_cons, hmap, hnext, TreeReduction.stride_of_lt (by decide) hlt]
    · have hle : n.toNat ≤ i.toNat := not_lt.mp fun hlt => hi (UInt32.lt_iff_toNat_lt.mpr hlt)
      exact ⟨[], if_neg hi, (TreeReduction.stride_of_le (by decide) hle).symm⟩

/-- A counter that begins with 0 is never beyond 2^32 - 256. -/
theorem counter_eq_none {n : UInt32} (hn : 2 ^ 32 - 256 < n.toNat) (fuel : ℕ) {i : UInt32}
    (hi : i.toNat % 256 = 0) : counter n fuel i = none := by
  induction fuel generalizing i with
  | zero => rfl
  | succ fuel ih =>
    have hbound := i.toNat_lt
    have hlt : i < n := UInt32.lt_iff_toNat_lt.mpr (by omega)
    rw [counter, if_pos hlt, ih, Option.map_none]
    rw [UInt32.toNat_add]
    change (i.toNat + 256) % 2 ^ 32 % 256 = 0
    omega

/-- The loops of all threads end, each with its own numbers. -/
theorem exists_counters {n : UInt32} (hn : n.toNat ≤ 2 ^ 32 - 256) : ∃ loops,
    counters n = some loops ∧
      ∀ t < 256, (roundsOf loops t).map UInt32.toNat = stride 256 n.toNat t := by
  have hloop : ∀ t ∈ List.range 256, ∃ is, counter n (n.toNat + 1) (.ofNat t) = some is ∧
      is.map UInt32.toNat = stride 256 n.toNat t := by
    intro t ht
    have htoNat : (UInt32.ofNat t).toNat = t := by
      rw [UInt32.toNat_ofNat']
      exact Nat.mod_eq_of_lt ((List.mem_range.mp ht).trans (by decide))
    have hfuel : n.toNat - (UInt32.ofNat t).toNat < n.toNat + 1 :=
      Nat.lt_succ_of_le (Nat.sub_le _ _)
    obtain ⟨is, his, hmap⟩ := counter_eq_some hn hfuel
    exact ⟨is, his, by rw [hmap, htoNat]⟩
  choose! loop hloop hmap using hloop
  refine ⟨(List.range 256).map loop, ?_, fun t ht => ?_⟩
  · exact Buffer.mapM_eq_map hloop
  · rw [roundsOf, List.getD_eq_getElem?_getD, List.getElem?_map, List.getElem?_range ht]
    exact hmap t (List.mem_range.mpr ht)

/-- The first thread never ends from there on. -/
theorem counters_eq_none_iff {n : UInt32} : counters n = none ↔ 2 ^ 32 - 256 < n.toNat := by
  constructor
  · intro hnone
    by_contra hn
    obtain ⟨loops, hloops, -⟩ := exists_counters (not_lt.mp hn)
    rw [hnone] at hloops
    cases hloops
  · intro hn
    rw [counters, List.range_succ_eq_map, List.mapM_cons, counter_eq_none hn _ rfl]
    rfl

end Shaders

/-! ## Owners -/

namespace Shaders

/-- The sizes of the buffers, and the thread that writes an element. -/
structure Layout where
  size : ℕ → ℕ
  owner : ℕ → ℕ → Option (ℕ × ℕ)

/-- The owner of a location in a phase that writes the first `limit` elements of the shared
arrays. -/
def ownerAt (L : Layout) (limit : ℕ) : ShaderLoc → Option (ℕ × ℕ)
  | .buffer b i => L.owner b i
  | .shared g i => if i < limit then some (g, i) else none
  | .var g t _ => some (g, t)

/-- The thread may write the location in such a phase. -/
def MayWrite (L : Layout) (limit g t : ℕ) : ShaderLoc → Prop
  | .buffer b i => L.owner b i = some (g, t) ∧ i < L.size b
  | .shared g' i => g' = g ∧ i = t ∧ i < limit
  | .var g' t' _ => g' = g ∧ t' = t

/-- The thread may read the location in such a phase. -/
def MayRead (L : Layout) (limit g t : ℕ) : ShaderLoc → Prop
  | .buffer b i => (∀ owner, L.owner b i = some owner → owner = (g, t)) ∧ i < L.size b
  | .shared g' i => g' = g ∧ (i < limit → i = t)
  | .var g' t' _ => g' = g ∧ t' = t

/-- A step of the thread writes and reads what it may. -/
structure Fits (L : Layout) (limit g t : ℕ) (a : Action ShaderLoc α) : Prop where
  writes : ∀ l ∈ a.writes, MayWrite L limit g t l
  reads : ∀ l ∈ a.reads, MayRead L limit g t l

/-- So do all threads in a phase. -/
def PhaseFits (L : Layout) (g : ℕ) (phase : ℕ → List (Action ShaderLoc α)) (limit : ℕ) : Prop :=
  ∀ t < 256, ∀ a ∈ phase t, Fits L limit g t a

/-- A kernel that keeps to a layout; in each phase, so much of the shared arrays is written. -/
structure Owned (K : Kernel ShaderLoc α) (L : Layout) (limits : List ℕ) : Prop where
  threads : K.threads = 256
  phases : ∀ g < K.groups, List.Forall₂ (PhaseFits L g) (K.main g) limits

variable {L : Layout} {limit limit' g g' t t' : ℕ} {a b : Action ShaderLoc α} {l : ShaderLoc}
  {K : Kernel ShaderLoc α} {limits : List ℕ} {phase : ℕ → List (Action ShaderLoc α)}

section

variable {dst x y z : ShaderLoc}

/-- What a thread needs for an assignment of a value. -/
@[simp]
theorem fits_assign {v : α} : Fits L limit g t (.assign dst v) ↔ MayWrite L limit g t dst :=
  ⟨fun h => h.writes dst List.mem_cons_self, fun h => ⟨by simp [Action.assign, h], nofun⟩⟩

/-- What a thread needs for an assignment that reads one location. -/
@[simp]
theorem fits_assign₁ {f : α → α} : Fits L limit g t (.assign₁ dst x f) ↔
    MayWrite L limit g t dst ∧ MayRead L limit g t x := by
  refine ⟨fun ⟨hw, hr⟩ => ⟨hw dst List.mem_cons_self, hr x List.mem_cons_self⟩, fun ⟨hw, hr⟩ => ?_⟩
  exact ⟨by simpa [Action.assign₁] using hw, by simpa [Action.assign₁] using hr⟩

/-- What a thread needs for an assignment that reads two locations. -/
@[simp]
theorem fits_assign₂ {f : α → α → α} : Fits L limit g t (.assign₂ dst x y f) ↔
    MayWrite L limit g t dst ∧ MayRead L limit g t x ∧ MayRead L limit g t y := by
  refine ⟨fun ⟨hw, hr⟩ => ?_, fun ⟨hw, hr⟩ => ?_⟩
  · exact ⟨hw dst List.mem_cons_self, by simpa [Action.assign₂] using hr⟩
  · exact ⟨by simpa [Action.assign₂] using hw, by simpa [Action.assign₂] using hr⟩

/-- What a thread needs for an assignment that reads three locations. -/
@[simp]
theorem fits_assign₃ {f : α → α → α → α} : Fits L limit g t (.assign₃ dst x y z f) ↔
    MayWrite L limit g t dst ∧ MayRead L limit g t x ∧ MayRead L limit g t y ∧
      MayRead L limit g t z := by
  refine ⟨fun ⟨hw, hr⟩ => ?_, fun ⟨hw, hr⟩ => ?_⟩
  · exact ⟨hw dst List.mem_cons_self, by simpa [Action.assign₃] using hr⟩
  · exact ⟨by simpa [Action.assign₃] using hw, by simpa [Action.assign₃] using hr⟩

end

theorem MayWrite.ownerAt_eq (h : MayWrite L limit g t l) : ownerAt L limit l = some (g, t) := by
  cases l with
  | buffer b i => exact h.1
  | shared g' i =>
    obtain ⟨rfl, rfl, hlt⟩ := h
    exact if_pos hlt
  | var g' t' x =>
    obtain ⟨rfl, rfl⟩ := h
    rfl

/-- What may be read belongs to nobody else. -/
theorem MayRead.eq_of_ownerAt (h : MayRead L limit g t l)
    (howner : ownerAt L limit' l = some (g', t')) : g' = g ∧ (limit' = limit → t' = t) := by
  cases l with
  | buffer b i =>
    obtain ⟨rfl, rfl⟩ := Prod.ext_iff.mp (h.1 _ howner)
    exact ⟨rfl, fun _ => rfl⟩
  | shared g₀ i =>
    obtain ⟨rfl, hi⟩ := h
    simp only [ownerAt] at howner
    split_ifs at howner with hlt
    cases howner
    exact ⟨rfl, fun heq => hi (heq ▸ hlt)⟩
  | var g₀ t₀ x =>
    obtain ⟨rfl, rfl⟩ := h
    cases howner
    exact ⟨rfl, fun _ => rfl⟩

/-- An owner stays in its workgroup. -/
theorem group_eq (h : ownerAt L limit l = some (g, t)) (h' : ownerAt L limit' l = some (g', t')) :
    g = g' := by
  cases l with
  | buffer b i => exact (Prod.ext_iff.mp (Option.some.inj (h.symm.trans h'))).1
  | shared g₀ i =>
    simp only [ownerAt] at h h'
    split_ifs at h h'
    cases h
    cases h'
    rfl
  | var g₀ t₀ x =>
    cases h
    cases h'
    rfl

namespace Owned

/-- The steps of a thread in a phase. -/
theorem fits (h : Owned K L limits) {p : ℕ} (hg : g < K.groups) (ht : t < K.threads)
    (ha : a ∈ K.phase g p t) : Fits L (limits.getD p 0) g t a := by
  have hp := Kernel.phase_lt_of_mem ha
  have hphases := h.phases g hg
  have hp' : p < limits.length := hphases.length_eq ▸ hp
  have hget := List.forall₂_iff_get.mp hphases |>.2 p hp hp'
  rw [Kernel.phase_eq (List.getElem?_eq_getElem hp)] at ha
  rw [List.getD_eq_getElem?_getD, List.getElem?_eq_getElem hp']
  exact hget t (h.threads ▸ ht) a ha

/-- In every phase, each location has one owner. -/
theorem owners (h : Owned K L limits) : K.Owners fun p => ownerAt L (limits.getD p 0) where
  group := group_eq
  writes hg ht ha hl := ((h.fits hg ht ha).writes _ hl).ownerAt_eq
  reads hg ht ha hl howner := by
    obtain ⟨hgroup, hthread⟩ := ((h.fits hg ht ha).reads _ hl).eq_of_ownerAt howner
    exact ⟨hgroup, fun hp => hthread (by rw [hp])⟩

/-- A kernel whose phases keep to their layout is free of races. -/
theorem raceFree (h : Owned K L limits) : K.RaceFree := h.owners.raceFree

/-- A kernel whose phases keep to their layout stays within its buffers. -/
theorem within (h : Owned K L limits) : ShaderCall.Within L.size K := by
  intro g hg phase hphase t ht a ha b i hl
  obtain ⟨p, -, rfl⟩ := Kernel.mem_main.mp hphase
  rcases hl with hr | hw
  · exact ((h.fits hg ht ha).reads _ hr).2
  · exact ((h.fits hg ht ha).writes _ hw).2

end Owned

/-! ### One phase -/

section Phase

variable {m : ShaderLoc → α}

/-- What a thread owns is as this thread leaves it. -/
theorem afterPhase_owned (hthreads : K.threads = 256) (hfits : PhaseFits L g phase limit)
    (ht : t < 256) (howner : ownerAt L limit l = some (g, t)) :
    K.afterPhase m phase l = Action.runAll m (phase t) l := by
  have hne : ∀ {t t' l a b}, t < 256 → t' < 256 → t' ≠ t → a ∈ phase t → b ∈ phase t' →
      l ∈ b.writes → l ∉ a.writes ∧ l ∉ a.reads := by
    intro t t' l a b ht ht' hne ha hb hl
    have howner := ((hfits t' ht' b hb).writes l hl).ownerAt_eq
    refine ⟨fun hw => hne ?_, fun hr => hne ?_⟩
    · have heq := howner.symm.trans ((hfits t ht a ha).writes l hw).ownerAt_eq
      exact (Prod.ext_iff.mp (Option.some.inj heq)).2
    · exact (((hfits t ht a ha).reads l hr).eq_of_ownerAt howner).2 rfl
  refine Kernel.afterPhase_eq_thread (hthreads ▸ ht) (fun t' ht' hne' a ha b hb => ?_)
    fun t' ht' hne' b hb hl => ?_
  · rw [hthreads] at ht'
    exact ⟨fun l hl hw => (hne ht ht' hne' ha hb hw).1 hl,
      fun l hl hw => (hne ht ht' hne' ha hb hw).2 hl,
      fun l hl hw => (hne ht' ht hne'.symm hb ha hw).2 hl⟩
  · have heq := ((hfits t' (hthreads ▸ ht') b hb).writes l hl).ownerAt_eq.symm.trans howner
    exact hne' (Prod.ext_iff.mp (Option.some.inj heq)).2

/-- What no thread of the workgroup owns is as before. -/
theorem afterPhase_unowned (hthreads : K.threads = 256) (hfits : PhaseFits L g phase limit)
    (howner : ∀ t < 256, ownerAt L limit l ≠ some (g, t)) :
    K.afterPhase m phase l = m l :=
  Kernel.afterPhase_of_notMem fun t ht a ha hl =>
    howner t (hthreads ▸ ht) ((hfits t (hthreads ▸ ht) a ha).writes l hl).ownerAt_eq

end Phase

/-! ### The reduction -/

section Reduction

variable {op : α → α → α}

/-- The threads below the stride add the element at its distance. -/
theorem mem_reductionRound {s : ℕ} (ha : a ∈ reductionRound op g s t) :
    t < s ∧ a = .assign₂ (.shared g t) (.shared g t) (.shared g (t + s)) op := by
  unfold reductionRound at ha
  split_ifs at ha with hlt
  · exact ⟨hlt, List.mem_singleton.mp ha⟩
  · cases ha

/-- A round for the stride `s` writes the first `s` elements. -/
theorem phaseFits_reductionRound (op : α → α → α) (g s : ℕ) :
    PhaseFits L g (reductionRound op g s) s := by
  intro t ht a ha
  obtain ⟨hlt, rfl⟩ := mem_reductionRound ha
  simp [MayWrite, MayRead, hlt]

/-- Each round of a reduction halves the elements that the threads own. -/
theorem forall₂_reduction (op : α → α → α) (g : ℕ) :
    List.Forall₂ (PhaseFits L g) (reduction op g) (halves 8) :=
  List.forall₂_map_left_iff.mpr
    (List.forall₂_same.mpr fun s _ => phaseFits_reductionRound op g s)

variable {m : ShaderLoc → α}

/-- A round of a reduction. -/
theorem afterPhase_reductionRound (hthreads : K.threads = 256) {s : ℕ} (hs : s ≤ 256) (i : ℕ) :
    K.afterPhase m (reductionRound op g s) (.shared g i) =
      TreeReduction.step op (fun i => m (.shared g i)) s i := by
  have hfits := phaseFits_reductionRound (L := ⟨fun _ => 0, fun _ _ => none⟩) op g s
  by_cases hi : i < s
  · have howner : ownerAt ⟨fun _ => 0, fun _ _ => none⟩ s (.shared g i) = some (g, i) := if_pos hi
    rw [afterPhase_owned hthreads hfits (hi.trans_le hs) howner]
    simp [reductionRound, TreeReduction.step, hi]
  · rw [afterPhase_unowned hthreads hfits fun t _ => by simp [ownerAt, hi]]
    simp [TreeReduction.step, hi]

/-- The rounds of a reduction are those of the tree reduction of the library. -/
theorem foldl_reductionRound (hthreads : K.threads = 256) {strides : List ℕ}
    (hstrides : ∀ s ∈ strides, s ≤ 256) (i : ℕ) :
    (strides.map (reductionRound op g)).foldl K.afterPhase m (.shared g i) =
      strides.foldl (TreeReduction.step op) (fun i => m (.shared g i)) i := by
  induction strides generalizing m with
  | nil => rfl
  | cons s strides ih =>
    have hround : (fun i => K.afterPhase m (reductionRound op g s) (.shared g i)) =
        TreeReduction.step op (fun i => m (.shared g i)) s :=
      funext (afterPhase_reductionRound hthreads (hstrides s List.mem_cons_self))
    rw [List.map_cons, List.foldl_cons, List.foldl_cons,
      ih fun s hs => hstrides s (List.mem_cons_of_mem _ hs), hround]

/-- Behind the reduction, the first element is that of the whole array. -/
theorem foldl_reduction (hthreads : K.threads = 256) :
    (reduction op g).foldl K.afterPhase m (.shared g 0) = reduce op 8 fun i => m (.shared g i) := by
  refine foldl_reductionRound hthreads (fun s hs => ?_) 0
  simp only [halves, List.mem_cons, List.not_mem_nil, or_false] at hs
  omega

/-- The reduction leaves everything but the shared array. -/
theorem foldl_reduction_of_ne (hl : ∀ i, l ≠ .shared g i) :
    (reduction op g).foldl K.afterPhase m l = m l := by
  have hround : ∀ s ∈ halves 8, ∀ m : ShaderLoc → α,
      K.afterPhase m (reductionRound op g s) l = m l := by
    intro s _ m
    refine Kernel.afterPhase_of_notMem fun t _ a ha hw => ?_
    obtain ⟨-, rfl⟩ := mem_reductionRound ha
    exact hl t (List.mem_singleton.mp hw)
  rw [reduction]
  generalize halves 8 = strides at hround
  induction strides generalizing m with
  | nil => rfl
  | cons s strides ih =>
    rw [List.map_cons, List.foldl_cons, ih fun s hs => hround s (List.mem_cons_of_mem _ hs)]
    exact hround s List.mem_cons_self m

/-- A phase that fills the shared array, and the reduction behind it. -/
theorem foldl_load_reduction (hthreads : K.threads = 256) (hfits : PhaseFits L g phase 256)
    {p : ℕ → α} (hload : ∀ t < 256, Action.runAll m (phase t) (.shared g t) = p t) :
    (phase :: reduction op g).foldl K.afterPhase m (.shared g 0) = reduce op 8 p := by
  rw [List.foldl_cons, foldl_reduction hthreads]
  refine TreeReduction.reduce_congr op fun t ht => ?_
  have howner : ownerAt L 256 (.shared g t) = some (g, t) := if_pos ht
  rw [afterPhase_owned hthreads hfits ht howner, hload t ht]

/-- A buffer that nobody owns is as before. -/
theorem foldl_load_reduction_buffer (hthreads : K.threads = 256)
    (hfits : PhaseFits L g phase 256) {b i : ℕ} (hnone : L.owner b i = none) :
    (phase :: reduction op g).foldl K.afterPhase m (.buffer b i) = m (.buffer b i) := by
  rw [List.foldl_cons, foldl_reduction_of_ne (by simp),
    afterPhase_unowned hthreads hfits fun t _ => ?_]
  simp [ownerAt, hnone]

end Reduction

/-! ### The whole kernel -/

section Kernels

variable {m : ShaderLoc → α} {b i : ℕ}

/-- An element of a buffer is as its workgroup leaves it. -/
theorem Owned.result_buffer (h : Owned K L limits) (hg : g < K.groups)
    (howner : L.owner b i = some (g, t)) :
    K.result m (.buffer b i) = (K.main g).foldl K.afterPhase m (.buffer b i) := by
  have howner' : ownerAt L 0 (.buffer b i) = some (g, t) := howner
  rw [← Kernel.runAll_groupProgram]
  refine h.raceFree.result_eq_group hg fun g' hg' hne phase hphase t' ht' a ha hl => hne ?_
  obtain ⟨p, -, rfl⟩ := Kernel.mem_main.mp hphase
  exact group_eq ((h.fits hg' ht' ha).writes _ hl).ownerAt_eq howner'

/-- What nobody owns, and what is beyond a buffer, is not written. -/
theorem Owned.result_buffer_of_none (h : Owned K L limits)
    (hi : L.owner b i = none ∨ L.size b ≤ i) : K.result m (.buffer b i) = m (.buffer b i) := by
  refine Kernel.result_of_notMem fun g hg phase hphase t ht a ha hl => ?_
  obtain ⟨p, -, rfl⟩ := Kernel.mem_main.mp hphase
  obtain ⟨howner, hlt⟩ := (h.fits hg ht ha).writes _ hl
  rcases hi with hnone | hle
  · rw [hnone] at howner
    cases howner
  · exact absurd hlt (not_lt.mpr hle)

/-- The rounds of a thread are indices that are congruent to it. -/
theorem mem_roundsOf {n : UInt32} {loops : List (List UInt32)}
    (hloops : ∀ t < 256, (roundsOf loops t).map UInt32.toNat = stride 256 n.toNat t) {k : UInt32}
    (ht : t < 256) (hk : k ∈ roundsOf loops t) : k.toNat < n.toNat ∧ k.toNat % 256 = t := by
  rw [← TreeReduction.mem_stride ht, ← hloops t ht]
  exact List.mem_map_of_mem hk

/-- The elements of a thread, each of them once. -/
theorem nodup_roundsOf {n : UInt32} {loops : List (List UInt32)}
    (hloops : ∀ t < 256, (roundsOf loops t).map UInt32.toNat = stride 256 n.toNat t)
    (ht : t < 256) (b : ℕ) :
    ((roundsOf loops t).map fun k => ShaderLoc.buffer b k.toNat).Nodup := by
  have hnodup := (TreeReduction.nodup_stride (n := n.toNat) (t := t) (Nat.succ_pos 255)).map
    (f := ShaderLoc.buffer b) fun _ _ h => by cases h; rfl
  rwa [← hloops t ht, List.map_map] at hnodup

/-- An element is that of its thread. -/
theorem exists_roundsOf {n : UInt32} {loops : List (List UInt32)}
    (hloops : ∀ t < 256, (roundsOf loops t).map UInt32.toNat = stride 256 n.toNat t)
    (hi : i < n.toNat) : ∃ k ∈ roundsOf loops (i % 256), k.toNat = i := by
  have ht : i % 256 < 256 := Nat.mod_lt _ (by decide)
  rw [← List.mem_map, hloops _ ht, TreeReduction.mem_stride ht]
  exact ⟨hi, rfl⟩

end Kernels

/-! ## Matrix and vector -/

section Matvec

variable (gpu : ShaderOps α) {mRows kCols : UInt32} {loops : List (List UInt32)}

variable (mRows kCols) in
/-- The first thread of each workgroup writes a row. -/
def matvecLayout : Layout where
  size := ShaderCall.bufferSize (.matvec mRows kCols : ShaderCall α)
  owner b i := if b = 2 then some (i, 0) else none

variable (mRows kCols loops) in
/-- The kernel, when all loops end. -/
def matvecKernel : Kernel ShaderLoc α where
  groups := mRows.toNat
  threads := 256
  main := matvecMain gpu mRows kCols (roundsOf loops)

theorem toNat_row (hg : g < mRows.toNat) : (UInt32.ofNat g).toNat = g := by
  rw [UInt32.toNat_ofNat']
  exact Nat.mod_eq_of_lt (hg.trans mRows.toNat_lt)

theorem main_matvecKernel (hg : g < mRows.toNat) :
    (matvecKernel gpu mRows kCols loops).main g =
      matvecLoad gpu (.ofNat g * kCols) (roundsOf loops) g :: reduction gpu.add g ++
        [matvecStore (.ofNat g) g] := by
  have hrow : ¬ UInt32.ofNat g ≥ mRows := by
    rw [ge_iff_le, UInt32.le_iff_toNat_le, toNat_row hg]
    exact not_le.mpr hg
  simp only [matvecKernel, matvecMain, if_neg hrow]

/-- The index of an element of the matrix. -/
theorem toNat_base_add {k : UInt32} (hg : g < mRows.toNat) (hk : k.toNat < kCols.toNat)
    (hsize : mRows.toNat * kCols.toNat ≤ 2 ^ 32) :
    (UInt32.ofNat g * kCols + k).toNat = g * kCols.toNat + k.toNat ∧
      g * kCols.toNat + k.toNat < mRows.toNat * kCols.toNat := by
  have hle : (g + 1) * kCols.toNat ≤ mRows.toNat * kCols.toNat := Nat.mul_le_mul_right _ hg
  rw [Nat.succ_mul] at hle
  have hlt : g * kCols.toNat + k.toNat < mRows.toNat * kCols.toNat := by omega
  refine ⟨?_, hlt⟩
  rw [UInt32.toNat_add, UInt32.toNat_mul, toNat_row hg, Nat.mod_add_mod]
  exact Nat.mod_eq_of_lt (hlt.trans_le hsize)

variable (hloops : ∀ t < 256, (roundsOf loops t).map UInt32.toNat = stride 256 kCols.toNat t)
  (hsize : mRows.toNat * kCols.toNat ≤ 2 ^ 32)

include hloops hsize

/-- The first phase of `matvec` keeps to its layout. -/
theorem phaseFits_matvecLoad (hg : g < mRows.toNat) :
    PhaseFits (matvecLayout (α := α) mRows kCols) g
      (matvecLoad gpu (.ofNat g * kCols) (roundsOf loops) g) 256 := by
  intro t ht a ha
  simp only [matvecLoad, List.cons_append, List.mem_cons, List.mem_append, List.mem_flatMap,
    List.not_mem_nil, or_false] at ha
  obtain rfl | ⟨k, hk, rfl⟩ | rfl := ha
  · simp [MayWrite]
  · obtain ⟨hk, -⟩ := mem_roundsOf hloops ht hk
    obtain ⟨hindex, hlt⟩ := toNat_base_add hg hk hsize
    simp [MayWrite, MayRead, matvecLayout, ShaderCall.bufferSize, hindex, hlt, hk]
  · simp [MayWrite, MayRead, ht]

omit hloops hsize in
/-- The last phase of `matvec` keeps to its layout: one thread writes the element of the row. -/
theorem phaseFits_matvecStore (hg : g < mRows.toNat) :
    PhaseFits (α := α) (matvecLayout (α := α) mRows kCols) g (matvecStore (.ofNat g) g) 0 := by
  intro t ht a ha
  unfold matvecStore at ha
  split_ifs at ha with hzero
  · rw [List.mem_singleton.mp ha, hzero]
    simpa [MayWrite, MayRead, matvecLayout, ShaderCall.bufferSize, toNat_row hg] using hg
  · cases ha

/-- `matvec` keeps to its layout; each group has its own row. -/
theorem owned_matvecKernel : Owned (matvecKernel gpu mRows kCols loops)
    (matvecLayout (α := α) mRows kCols) (256 :: halves 8 ++ [0]) where
  threads := rfl
  phases g hg := by
    rw [main_matvecKernel gpu hg]
    exact .cons (phaseFits_matvecLoad gpu hloops hsize hg)
      (List.rel_append (forall₂_reduction gpu.add g) (.cons (phaseFits_matvecStore hg) .nil))

/-- The part of a thread of the row. -/
theorem runAll_matvecLoad {m : ShaderLoc → α} (hg : g < mRows.toNat) (ht : t < 256) :
    Action.runAll m (matvecLoad gpu (.ofNat g * kCols) (roundsOf loops) g t) (.shared g t) =
      (stride 256 kCols.toNat t).foldl (fun sum k => gpu.add sum
        (gpu.mul (m (.buffer 0 (g * kCols.toNat + k))) (m (.buffer 1 k)))) (gpu.lit 0) := by
  rw [← hloops t ht, List.foldl_map]
  refine Action.runAll_accumulateTo (fun _ => False) fun k hk m' hm' => ?_
  obtain ⟨hk, -⟩ := mem_roundsOf hloops ht hk
  rw [(toNat_base_add hg hk hsize).1, Action.runAll_cons, Action.runAll_nil, Action.run_assign₃,
    Function.update_self, hm' (.buffer 0 _) (by simp) id, hm' (.buffer 1 _) (by simp) id]
  refine ⟨rfl, fun l hl _ => ?_⟩
  rw [Function.update_of_ne hl, hm' l hl id]

/-- An element of the product. -/
theorem result_matvecKernel {m : ShaderLoc → α} {i : ℕ} (hi : i < mRows.toNat) :
    (matvecKernel gpu mRows kCols loops).result m (.buffer 2 i) =
      ShaderCall.value gpu (fun b i => m (.buffer b i)) (.matvec mRows kCols) i := by
  have howned := owned_matvecKernel gpu hloops hsize
  have hfits := phaseFits_matvecLoad gpu hloops hsize hi
  have hstore : matvecStore (α := α) (.ofNat i) i 0 =
      [.assign₁ (.buffer 2 i) (.shared i 0) id] := by
    rw [matvecStore, if_pos rfl, toNat_row hi]
  have hstoreFits : PhaseFits (α := α) (matvecLayout (α := α) mRows kCols) i
      (matvecStore (.ofNat i) i) 0 := phaseFits_matvecStore hi
  rw [howned.result_buffer (t := 0) hi rfl, main_matvecKernel gpu hi, List.foldl_append,
    List.foldl_cons, List.foldl_nil, afterPhase_owned (t := 0) rfl hstoreFits (by decide) rfl,
    hstore, Action.runAll_cons, Action.runAll_nil, Action.run_assign₁, Function.update_self]
  exact foldl_load_reduction rfl hfits fun t ht => runAll_matvecLoad gpu hloops hsize hi ht

end Matvec

/-! ## Root mean square -/

/-- One workgroup whose threads share the elements of the buffer `out`. -/
def sharedLayout (size : ℕ → ℕ) (out : ℕ) : Layout where
  size
  owner b i := if b = out then some (0, i % 256) else none

section Rmsnorm

variable (gpu : ShaderOps α) (n : UInt32) (eps : α) (loops : List (List UInt32))

/-- The kernel, when all loops end. -/
def rmsnormKernel : Kernel ShaderLoc α where
  groups := 1
  threads := 256
  main := rmsnormMain gpu n eps (roundsOf loops)

/-- The buffers of `rmsnorm`. -/
def rmsnormLayout : Layout := sharedLayout (ShaderCall.bufferSize (.rmsnorm n eps)) 2

variable {n loops} (hloops : ∀ t < 256, (roundsOf loops t).map UInt32.toNat = stride 256 n.toNat t)

include hloops

/-- The first phase of `rmsnorm` keeps to its layout. -/
theorem phaseFits_rmsnormLoad :
    PhaseFits (rmsnormLayout n eps) g (rmsnormLoad gpu (roundsOf loops) g) 256 := by
  intro t ht a ha
  simp only [rmsnormLoad, List.cons_append, List.mem_cons, List.mem_append, List.mem_flatMap,
    List.not_mem_nil, or_false] at ha
  obtain rfl | ⟨k, hk, rfl | rfl⟩ | rfl := ha
  · simp [MayWrite]
  · obtain ⟨hk, -⟩ := mem_roundsOf hloops ht hk
    simp [MayWrite, MayRead, rmsnormLayout, sharedLayout, ShaderCall.bufferSize, hk]
  · simp [MayWrite, MayRead]
  · simp [MayWrite, MayRead, ht]

/-- The last phase of `rmsnorm` keeps to its layout. -/
theorem phaseFits_rmsnormStore :
    PhaseFits (rmsnormLayout n eps) 0 (rmsnormStore gpu n eps (roundsOf loops) 0) 0 := by
  intro t ht a ha
  simp only [rmsnormStore, List.mem_cons, List.mem_flatMap, List.not_mem_nil, or_false] at ha
  obtain rfl | ⟨k, hk, rfl⟩ := ha
  · simp [MayWrite, MayRead]
  · obtain ⟨hk, hmod⟩ := mem_roundsOf hloops ht hk
    simp [MayWrite, MayRead, rmsnormLayout, sharedLayout, ShaderCall.bufferSize, hk, hmod]

/-- `rmsnorm` keeps to its layout; it has one group. -/
theorem owned_rmsnormKernel : Owned (rmsnormKernel gpu n eps loops) (rmsnormLayout n eps)
    (256 :: halves 8 ++ [0]) where
  threads := rfl
  phases g hg := by
    obtain rfl := Nat.lt_one_iff.mp hg
    exact .cons (phaseFits_rmsnormLoad gpu eps hloops)
      (List.rel_append (forall₂_reduction gpu.add 0)
        (.cons (phaseFits_rmsnormStore gpu eps hloops) .nil))

/-- The part of a thread of the squares. -/
theorem runAll_rmsnormLoad {m : ShaderLoc → α} (ht : t < 256) :
    Action.runAll m (rmsnormLoad gpu (roundsOf loops) g t) (.shared g t) =
      (stride 256 n.toNat t).foldl (fun ss k => gpu.add ss
        (gpu.mul (m (.buffer 0 k)) (m (.buffer 0 k)))) (gpu.lit 0) := by
  rw [← hloops t ht, List.foldl_map]
  refine Action.runAll_accumulateTo (fun l => l = .var g t .v) fun k hk m' hm' => ?_
  simp only [Action.runAll_cons, Action.runAll_nil, Action.run_assign₁, Action.run_assign₂,
    Function.update_self, id]
  rw [Function.update_of_ne (by simp), hm' (.buffer 0 _) (by simp) (by simp)]
  refine ⟨rfl, fun l hl hv => ?_⟩
  rw [Function.update_of_ne hl, Function.update_of_ne hv, hm' l hl hv]

/-- A thread stores its elements. -/
theorem runAll_rmsnormStore {m : ShaderLoc → α} {i : ℕ} (hi : i < n.toNat) :
    Action.runAll m (rmsnormStore gpu n eps (roundsOf loops) g (i % 256)) (.buffer 2 i) =
      gpu.mul (gpu.mul (m (.buffer 0 i)) (gpu.inversesqrt
        (gpu.add (gpu.div (m (.shared g 0)) (gpu.ofUInt32 n)) eps))) (m (.buffer 1 i)) := by
  have ht : i % 256 < 256 := Nat.mod_lt _ (by decide)
  obtain ⟨k, hk, rfl⟩ := exists_roundsOf hloops hi
  rw [rmsnormStore, Action.runAll_cons, Action.run_assign₁]
  set rms := gpu.inversesqrt (gpu.add (gpu.div (m (.shared g 0)) (gpu.ofUInt32 n)) eps)
  have hnodup := nodup_roundsOf hloops ht 2
  refine (Action.runAll_fill _ hnodup (v := fun k =>
    gpu.mul (gpu.mul (m (.buffer 0 k.toNat)) rms) (m (.buffer 1 k.toNat)))
    fun j hj m' hm' => ?_).1 k hk
  rw [Action.runAll_cons, Action.runAll_nil, Action.run_assign₃, Function.update_self,
    hm' (.buffer 0 _) (by simp), hm' (.buffer 1 _) (by simp), hm' (.var _ _ _) (by simp),
    Function.update_self, Function.update_of_ne (by simp), Function.update_of_ne (by simp)]
  exact ⟨rfl, fun l hl => Function.update_of_ne hl _ _⟩

/-- An element of the result. -/
theorem result_rmsnormKernel {m : ShaderLoc → α} {i : ℕ} (hi : i < n.toNat) :
    (rmsnormKernel gpu n eps loops).result m (.buffer 2 i) =
      ShaderCall.value gpu (fun b i => m (.buffer b i)) (.rmsnorm n eps) i := by
  have ht : i % 256 < 256 := Nat.mod_lt _ (by decide)
  have hfits := phaseFits_rmsnormLoad (g := 0) gpu eps hloops
  have hmain : (rmsnormKernel gpu n eps loops).main 0 =
      rmsnormLoad gpu (roundsOf loops) 0 :: reduction gpu.add 0 ++
        [rmsnormStore gpu n eps (roundsOf loops) 0] := rfl
  -- the memory behind the reduction
  obtain ⟨m₂, hm₂⟩ : ∃ m₂, (rmsnormLoad gpu (roundsOf loops) 0 :: reduction gpu.add 0).foldl
    (rmsnormKernel gpu n eps loops).afterPhase m = m₂ := ⟨_, rfl⟩
  have hshared : m₂ (.shared 0 0) = ShaderCall.total gpu n.toNat fun k =>
      gpu.mul (m (.buffer 0 k)) (m (.buffer 0 k)) := by
    rw [← hm₂]
    exact foldl_load_reduction rfl hfits fun t ht => runAll_rmsnormLoad gpu hloops ht
  have hbuffer : ∀ {b j}, b ≠ 2 → m₂ (.buffer b j) = m (.buffer b j) := by
    intro b j hb
    rw [← hm₂]
    exact foldl_load_reduction_buffer rfl hfits (if_neg hb)
  rw [(owned_rmsnormKernel gpu eps hloops).result_buffer Nat.one_pos rfl, hmain,
    List.foldl_append, hm₂, List.foldl_cons, List.foldl_nil,
    afterPhase_owned rfl (phaseFits_rmsnormStore gpu eps hloops) ht rfl,
    runAll_rmsnormStore gpu eps hloops hi, hshared, hbuffer (by decide), hbuffer (by decide)]
  rfl

end Rmsnorm

/-! ## Elementwise operations -/

section Elemwise

variable (gpu : ShaderOps α) (n opType : UInt32)

/-- A thread for each element. -/
def elemwiseLayout : Layout where
  size := ShaderCall.bufferSize (.elemwise n opType : ShaderCall α)
  owner b i := if b = 2 then some (i / 256, i % 256) else none

variable {n} (hn : n.toNat ≤ 2 ^ 32 - 256)

include hn

theorem toNat_groups : ((n + 255) / 256).toNat = (n.toNat + 255) / 256 := by
  rw [UInt32.toNat_div, UInt32.toNat_add]
  change (n.toNat + 255) % 2 ^ 32 / 256 = _
  rw [Nat.mod_eq_of_lt (by omega)]

/-- The number of a thread among all. -/
theorem toNat_global (hg : g < ((n + 255) / 256).toNat) (ht : t < 256) :
    (UInt32.ofNat g * 256 + UInt32.ofNat t).toNat = g * 256 + t := by
  rw [toNat_groups hn] at hg
  rw [UInt32.toNat_add, UInt32.toNat_mul, UInt32.toNat_ofNat', UInt32.toNat_ofNat']
  change (g % 2 ^ 32 * 256 % 2 ^ 32 + t % 2 ^ 32) % 2 ^ 32 = _
  omega

/-- The elementwise operators keep to their layout: each thread has its own element. -/
theorem owned_elemwiseKernel :
    Owned (hydroxlElemwise gpu n opType) (elemwiseLayout (α := α) n opType) [0] where
  threads := rfl
  phases g hg := by
    refine .cons (fun t ht a ha => ?_) .nil
    have hglobal := toNat_global hn hg ht
    simp only [elemwiseStore] at ha
    by_cases hi : UInt32.ofNat g * 256 + UInt32.ofNat t ≥ n
    · rw [if_pos hi] at ha
      cases ha
    · rw [if_neg hi, hglobal] at ha
      have hlt : g * 256 + t < n.toNat := by
        rw [ge_iff_le, UInt32.le_iff_toNat_le, hglobal] at hi
        exact not_le.mp hi
      have hdiv : (g * 256 + t) / 256 = g ∧ (g * 256 + t) % 256 = t := by omega
      split_ifs at ha <;>
        simp only [List.mem_cons, List.not_mem_nil, or_false] at ha
      · subst ha
        simp [MayWrite, MayRead, elemwiseLayout, ShaderCall.bufferSize, hdiv, hlt]
      · obtain rfl | rfl := ha <;>
          simp [MayWrite, MayRead, elemwiseLayout, ShaderCall.bufferSize, hdiv, hlt]
      · obtain rfl | rfl := ha <;>
          simp [MayWrite, MayRead, elemwiseLayout, ShaderCall.bufferSize, hdiv, hlt]

/-- An element of the result. -/
theorem result_elemwiseKernel {m : ShaderLoc → α} {i : ℕ} (hi : i < n.toNat) :
    (hydroxlElemwise gpu n opType).result m (.buffer 2 i) =
      ShaderCall.value gpu (fun b i => m (.buffer b i)) (.elemwise n opType) i := by
  have howned := owned_elemwiseKernel gpu opType hn
  have ht : i % 256 < 256 := Nat.mod_lt _ (by decide)
  have hg : i / 256 < (hydroxlElemwise gpu n opType).groups := by
    change _ < ((n + 255) / 256).toNat
    rw [toNat_groups hn]
    omega
  have hindex : (UInt32.ofNat (i / 256) * 256 + UInt32.ofNat (i % 256)).toNat = i := by
    rw [toNat_global hn hg ht]
    omega
  have hnot : ¬ UInt32.ofNat (i / 256) * 256 + UInt32.ofNat (i % 256) ≥ n := by
    rw [ge_iff_le, UInt32.le_iff_toNat_le, hindex]
    exact not_le.mpr hi
  have hmain : (hydroxlElemwise gpu n opType).main (i / 256) =
    [elemwiseStore gpu n opType (i / 256)] := rfl
  have hfits := howned.phases _ hg
  rw [hmain] at hfits
  rw [howned.result_buffer hg rfl, hmain, List.foldl_cons, List.foldl_nil,
    afterPhase_owned rfl (List.forall₂_cons.mp hfits).1 ht rfl, elemwiseStore, if_neg hnot,
    hindex]
  simp only [ShaderCall.value]
  split_ifs <;> simp

end Elemwise

/-! ## Softmax -/

section Softmax

variable (gpu : ShaderOps α) (n : UInt32) (loops : List (List UInt32))

/-- The kernel, when all loops end. -/
def softmaxKernel : Kernel ShaderLoc α where
  groups := 1
  threads := 256
  main := softmaxMain gpu (roundsOf loops)

/-- The buffers of `softmax`. -/
def softmaxSize : ℕ → ℕ := ShaderCall.bufferSize (.softmax n : ShaderCall α)

variable {n loops} (hloops : ∀ t < 256, (roundsOf loops t).map UInt32.toNat = stride 256 n.toNat t)

include hloops

/-- The phase in which each thread of `softmax` finds the maximum of its elements. -/
theorem phaseFits_softmaxLoadMax (out : ℕ) : PhaseFits (sharedLayout (softmaxSize (α := α) n) out) 0
    (softmaxLoadMax gpu (roundsOf loops) 0) 256 := by
  intro t ht a ha
  simp only [softmaxLoadMax, List.cons_append, List.mem_cons, List.mem_append, List.mem_flatMap,
    List.not_mem_nil, or_false] at ha
  obtain rfl | ⟨k, hk, rfl⟩ | rfl := ha
  · simp [MayWrite]
  · obtain ⟨hk, hmod⟩ := mem_roundsOf hloops ht hk
    simp [MayWrite, MayRead, sharedLayout, softmaxSize, ShaderCall.bufferSize, hk, hmod]
  · simp [MayWrite, MayRead, ht]

omit hloops in
/-- The phase in which each thread of `softmax` reads the maximum of all. -/
theorem phaseFits_softmaxReadMax {L : Layout} :
    PhaseFits (α := α) L g (softmaxReadMax g) 0 := by
  intro t ht a ha
  rw [List.mem_singleton.mp ha]
  simp [MayWrite, MayRead]

/-- The phase in which each thread of `softmax` replaces its elements by exponentials. -/
theorem phaseFits_softmaxLoadExp : PhaseFits (sharedLayout (softmaxSize (α := α) n) 0) 0
    (softmaxLoadExp gpu (roundsOf loops) 0) 256 := by
  intro t ht a ha
  simp only [softmaxLoadExp, softmaxExpRound, List.cons_append, List.mem_cons, List.mem_append,
    List.mem_flatMap, List.not_mem_nil, or_false] at ha
  obtain rfl | ⟨k, hk, rfl | rfl⟩ | rfl := ha
  · simp [MayWrite]
  · obtain ⟨hk, hmod⟩ := mem_roundsOf hloops ht hk
    simp [MayWrite, MayRead, sharedLayout, softmaxSize, ShaderCall.bufferSize, hk, hmod]
  · obtain ⟨hk, hmod⟩ := mem_roundsOf hloops ht hk
    simp [MayWrite, MayRead, sharedLayout, softmaxSize, ShaderCall.bufferSize, hk, hmod]
  · simp [MayWrite, MayRead, ht]

/-- The phase in which each thread of `softmax` divides its elements by the sum of all. -/
theorem phaseFits_softmaxStore : PhaseFits (sharedLayout (softmaxSize (α := α) n) 0) 0
    (softmaxStore gpu (roundsOf loops) 0) 0 := by
  intro t ht a ha
  simp only [softmaxStore, List.mem_cons, List.mem_flatMap, List.not_mem_nil, or_false] at ha
  obtain rfl | ⟨k, hk, rfl⟩ := ha
  · simp [MayWrite, MayRead]
  · obtain ⟨hk, hmod⟩ := mem_roundsOf hloops ht hk
    simp [MayWrite, MayRead, sharedLayout, softmaxSize, ShaderCall.bufferSize, hk, hmod]

/-- `softmax` keeps to its layout; it has one group and two reductions. -/
theorem owned_softmaxKernel : Owned (softmaxKernel gpu loops)
    (sharedLayout (softmaxSize (α := α) n) 0)
    (256 :: halves 8 ++ 0 :: 256 :: halves 8 ++ [0]) where
  threads := rfl
  phases g hg := by
    obtain rfl := Nat.lt_one_iff.mp hg
    refine List.rel_append (List.rel_append (.cons (phaseFits_softmaxLoadMax gpu hloops 0) ?_)
      (.cons phaseFits_softmaxReadMax (.cons (phaseFits_softmaxLoadExp gpu hloops) ?_)))
      (.cons (phaseFits_softmaxStore gpu hloops) .nil)
    · exact forall₂_reduction gpu.max 0
    · exact forall₂_reduction gpu.add 0

/-- The part of a thread of the maximum. -/
theorem runAll_softmaxLoadMax {m : ShaderLoc → α} (ht : t < 256) :
    Action.runAll m (softmaxLoadMax gpu (roundsOf loops) g t) (.shared g t) =
      (stride 256 n.toNat t).foldl (fun mx k => gpu.max mx (m (.buffer 0 k)))
        (gpu.lit (-10 ^ 38)) := by
  rw [← hloops t ht, List.foldl_map]
  refine Action.runAll_accumulateTo (fun _ => False) fun k hk m' hm' => ?_
  rw [Action.runAll_cons, Action.runAll_nil, Action.run_assign₂, Function.update_self,
    hm' (.buffer 0 _) (by simp) id]
  refine ⟨rfl, fun l hl _ => ?_⟩
  rw [Function.update_of_ne hl, hm' l hl id]

/-- The loop of a thread over the exponentials. -/
theorem runAll_softmaxExpRounds {m : ShaderLoc → α} {e : ℕ → α} (ht : t < 256)
    (he : ∀ i, e i = gpu.exp (gpu.sub (m (.buffer 0 i)) (m (.var g t .vmax)))) {z : α} :
    let m' := Action.runAll (Function.update m (.var g t .sm) z)
      ((roundsOf loops t).flatMap (softmaxExpRound gpu g t))
    m' (.var g t .sm) = (roundsOf loops t).foldl (fun sm k => gpu.add sm (e k.toNat)) z ∧
      (∀ k ∈ roundsOf loops t, m' (.buffer 0 k.toNat) = e k.toNat) ∧
      ∀ l, l ≠ .var g t .sm → l ∉ (roundsOf loops t).map (fun k => .buffer 0 k.toNat) →
        m' l = m l := by
  have hnodup := nodup_roundsOf hloops ht 0
  refine Action.runAll_rounds _ (P := fun (done : List UInt32) m' =>
    m' (.var g t .sm) = done.foldl (fun sm k => gpu.add sm (e k.toNat)) z ∧
      (∀ k ∈ done, m' (.buffer 0 k.toNat) = e k.toNat) ∧
      ∀ l, l ≠ .var g t .sm → l ∉ done.map (fun k => .buffer 0 k.toNat) → m' l = m l)
    (fun done i rest m' hsplit ⟨hsum, hdone, hother⟩ => ?_)
    ⟨Function.update_self _ _ _, fun _ h => (List.not_mem_nil h).elim,
      fun l hl _ => Function.update_of_ne hl _ _⟩
  -- the number of this round has not been replaced before
  have hnew : ShaderLoc.buffer 0 i.toNat ∉ done.map fun k => .buffer 0 k.toNat := by
    rw [hsplit, List.map_append, List.map_cons] at hnodup
    exact fun h => List.disjoint_of_nodup_append hnodup h List.mem_cons_self
  have hvmax : ShaderLoc.var g t .vmax ∉ done.map fun k => .buffer 0 k.toNat := by simp
  have hexp : gpu.exp (gpu.sub (m' (.buffer 0 i.toNat)) (m' (.var g t .vmax))) = e i.toNat := by
    rw [hother _ (by simp) hnew, hother _ (by simp) hvmax, he]
  rw [softmaxExpRound, Action.runAll_cons, Action.runAll_cons, Action.runAll_nil,
    Action.run_assign₂, Action.run_assign₂, hexp, Function.update_self,
    Function.update_of_ne (by simp)]
  refine ⟨?_, fun k hk => ?_, fun l hl hout => ?_⟩
  · rw [Function.update_self, hsum, List.foldl_append]
    rfl
  · rw [Function.update_of_ne (by simp)]
    by_cases hki : k.toNat = i.toNat
    · rw [hki, Function.update_self]
    · rw [Function.update_of_ne (by simpa using hki)]
      rcases List.mem_append.mp hk with hk | hk
      · exact hdone k hk
      · exact absurd (congrArg UInt32.toNat (List.mem_singleton.mp hk)) hki
  · rw [List.map_append, List.mem_append, not_or, List.map_singleton, List.mem_singleton] at hout
    rw [Function.update_of_ne hl, Function.update_of_ne hout.2, hother l hl hout.1]

/-- A thread of `softmax` sums up its exponentials, and stores each. -/
theorem runAll_softmaxLoadExp {m : ShaderLoc → α} {e : ℕ → α} (ht : t < 256)
    (he : ∀ i, e i = gpu.exp (gpu.sub (m (.buffer 0 i)) (m (.var g t .vmax)))) :
    Action.runAll m (softmaxLoadExp gpu (roundsOf loops) g t) (.shared g t) =
        (stride 256 n.toNat t).foldl (fun sm k => gpu.add sm (e k)) (gpu.lit 0) ∧
      ∀ k ∈ roundsOf loops t,
        Action.runAll m (softmaxLoadExp gpu (roundsOf loops) g t) (.buffer 0 k.toNat) =
          e k.toNat := by
  obtain ⟨hsum, hexps, -⟩ := runAll_softmaxExpRounds gpu hloops ht he (z := gpu.lit 0)
  rw [softmaxLoadExp, Action.runAll_append, Action.runAll_cons, Action.runAll_nil,
    Action.run_assign₁, Action.runAll_cons, Action.run_assign]
  refine ⟨?_, fun k hk => ?_⟩
  · rw [Function.update_self, id, hsum, ← hloops t ht, List.foldl_map]
  · rw [Function.update_of_ne (by simp), hexps k hk]

/-- A thread stores its elements. -/
theorem runAll_softmaxStore {m : ShaderLoc → α} {i : ℕ} (hi : i < n.toNat) :
    Action.runAll m (softmaxStore gpu (roundsOf loops) g (i % 256)) (.buffer 0 i) =
      gpu.mul (m (.buffer 0 i)) (gpu.div (gpu.lit 1) (m (.shared g 0))) := by
  have ht : i % 256 < 256 := Nat.mod_lt _ (by decide)
  obtain ⟨k, hk, rfl⟩ := exists_roundsOf hloops hi
  rw [softmaxStore, Action.runAll_cons, Action.run_assign₁]
  have hnodup := nodup_roundsOf hloops ht 0
  refine (Action.runAll_fill _ hnodup (v := fun k =>
    gpu.mul (m (.buffer 0 k.toNat)) (gpu.div (gpu.lit 1) (m (.shared g 0))))
    fun j hj m' hm' => ?_).1 k hk
  rw [Action.runAll_cons, Action.runAll_nil, Action.run_assign₂, Function.update_self,
    hm' (.buffer 0 _) (by simp), hm' (.var _ _ _) (by simp), Function.update_self,
    Function.update_of_ne (by simp)]
  exact ⟨rfl, fun l hl => Function.update_of_ne hl _ _⟩

/-- An element of the result. -/
theorem result_softmaxKernel {m : ShaderLoc → α} {i : ℕ} (hi : i < n.toNat) :
    (softmaxKernel gpu loops).result m (.buffer 0 i) =
      ShaderCall.value gpu (fun b i => m (.buffer b i)) (.softmax n) i := by
  have ht : i % 256 < 256 := Nat.mod_lt _ (by decide)
  set vmax := ShaderCall.maximum gpu n.toNat fun k => m (.buffer 0 k) with hvmax
  set e := fun k => gpu.exp (gpu.sub (m (.buffer 0 k)) vmax) with he
  have hmain : (softmaxKernel gpu loops).main 0 =
      softmaxLoadMax gpu (roundsOf loops) 0 :: reduction gpu.max 0 ++ softmaxReadMax 0 ::
        (softmaxLoadExp gpu (roundsOf loops) 0 :: reduction gpu.add 0) ++
          [softmaxStore gpu (roundsOf loops) 0] := rfl
  -- behind the first reduction
  obtain ⟨m₁, hm₁⟩ : ∃ m₁, (softmaxLoadMax gpu (roundsOf loops) 0 :: reduction gpu.max 0).foldl
    (softmaxKernel gpu loops).afterPhase m = m₁ := ⟨_, rfl⟩
  have hmax : m₁ (.shared 0 0) = vmax := by
    rw [← hm₁]
    exact foldl_load_reduction rfl (phaseFits_softmaxLoadMax gpu hloops 0) fun t ht =>
      runAll_softmaxLoadMax gpu hloops ht
  have hbuffer : ∀ k, m₁ (.buffer 0 k) = m (.buffer 0 k) := by
    intro k
    rw [← hm₁]
    exact foldl_load_reduction_buffer rfl (phaseFits_softmaxLoadMax gpu hloops 1) rfl
  -- all threads have read the maximum
  obtain ⟨m₂, hm₂⟩ : ∃ m₂, (softmaxKernel gpu loops).afterPhase m₁ (softmaxReadMax 0) = m₂ :=
    ⟨_, rfl⟩
  have hread : ∀ t < 256, m₂ (.var 0 t .vmax) = vmax := by
    intro t ht
    rw [← hm₂, afterPhase_owned rfl (phaseFits_softmaxReadMax (L := sharedLayout (fun _ => 0) 1))
      ht rfl, softmaxReadMax, Action.runAll_cons, Action.runAll_nil, Action.run_assign₁,
      Function.update_self, id, hmax]
  have hbuffer₂ : ∀ k, m₂ (.buffer 0 k) = m (.buffer 0 k) := by
    intro k
    rw [← hm₂, afterPhase_unowned rfl
      (phaseFits_softmaxReadMax (L := sharedLayout (fun _ => 0) 1))
      (by simp [ownerAt, sharedLayout]),
      hbuffer]
  -- behind the second reduction
  have hexp : ∀ t < 256, ∀ i, e i =
      gpu.exp (gpu.sub (m₂ (.buffer 0 i)) (m₂ (.var 0 t .vmax))) := by
    intro t ht i
    rw [hread t ht, hbuffer₂]
  have hfits := phaseFits_softmaxLoadExp gpu hloops
  obtain ⟨m₃, hm₃⟩ : ∃ m₃, (softmaxLoadExp gpu (roundsOf loops) 0 :: reduction gpu.add 0).foldl
    (softmaxKernel gpu loops).afterPhase m₂ = m₃ := ⟨_, rfl⟩
  have hsum : m₃ (.shared 0 0) = ShaderCall.total gpu n.toNat e := by
    rw [← hm₃]
    exact foldl_load_reduction rfl hfits fun t ht =>
      (runAll_softmaxLoadExp gpu hloops ht (hexp t ht)).1
  have hexps : m₃ (.buffer 0 i) = e i := by
    obtain ⟨k, hk, rfl⟩ := exists_roundsOf hloops hi
    rw [← hm₃, List.foldl_cons, foldl_reduction_of_ne (by simp), afterPhase_owned rfl hfits ht rfl]
    exact (runAll_softmaxLoadExp gpu hloops ht (hexp _ ht)).2 k hk
  rw [(owned_softmaxKernel gpu hloops).result_buffer Nat.one_pos rfl, hmain, List.foldl_append,
    List.foldl_append, hm₁, List.foldl_cons, List.foldl_nil, List.foldl_cons, hm₂, hm₃,
    afterPhase_owned rfl (phaseFits_softmaxStore gpu hloops) ht rfl,
    runAll_softmaxStore gpu hloops hi, hexps, hsum]
  rfl

end Softmax

end Shaders

/-! ## Every dispatch -/

namespace ShaderCall

open Shaders

variable (gpu : ShaderOps α)

/-- The kernel of a dispatch: its buffers have owners, and the output is the one that is written. -/
structure Runs (call : ShaderCall α) (K : Kernel ShaderLoc α) (L : Layout) (limits : List ℕ) :
    Prop where
  kernel : call.kernel gpu = some K
  size : L.size = call.bufferSize
  owned : Owned K L limits
  unowned : ∀ b i, b ≠ call.output → L.owner b i = none
  result : ∀ m, ∀ i < call.bufferSize call.output,
    K.result m (.buffer call.output i) = call.value gpu (fun b i => m (.buffer b i)) i

/-- Every dispatch in range has its kernel. -/
theorem exists_runs (call : ShaderCall α) (h : call.InRange) : ∃ K L limits,
    call.Runs gpu K L limits := by
  cases call with
  | matvec mRows kCols =>
    obtain ⟨hcols, hsize⟩ := h
    obtain ⟨loops, hcounters, hloops⟩ := exists_counters hcols
    refine ⟨matvecKernel gpu mRows kCols loops, _, _, ?_, rfl,
      owned_matvecKernel gpu hloops hsize, fun b i hb => if_neg hb, fun m i hi =>
        result_matvecKernel gpu hloops hsize hi⟩
    rw [kernel, hydroxlMatvec, hcounters]
    rfl
  | rmsnorm n eps =>
    obtain ⟨loops, hcounters, hloops⟩ := exists_counters h
    refine ⟨rmsnormKernel gpu n eps loops, _, _, ?_, rfl, owned_rmsnormKernel gpu eps hloops,
      fun b i hb => if_neg hb, fun m i hi => result_rmsnormKernel gpu eps hloops hi⟩
    rw [kernel, hydroxlRmsnorm, hcounters]
    rfl
  | elemwise n opType =>
    exact ⟨hydroxlElemwise gpu n opType, _, _, rfl, rfl, owned_elemwiseKernel gpu opType h,
      fun b i hb => if_neg hb, fun m i hi => result_elemwiseKernel gpu opType h hi⟩
  | softmax n =>
    obtain ⟨loops, hcounters, hloops⟩ := exists_counters h
    refine ⟨softmaxKernel gpu loops, _, _, ?_, rfl, owned_softmaxKernel gpu hloops,
      fun b i hb => if_neg hb, fun m i hi => result_softmaxKernel gpu hloops hi⟩
    rw [kernel, hydroxlSoftmax, hcounters]
    rfl

/-- What a dispatch leaves in the buffers. -/
theorem Runs.ends {call : ShaderCall α} {K : Kernel ShaderLoc α} {L : Layout} {limits : List ℕ}
    (h : call.Runs gpu K L limits) (m₀ : ShaderLoc → α) :
    K.Ends m₀ fun m => ∀ b i, m (.buffer b i) =
      if b = call.output ∧ i < call.bufferSize b then
        call.value gpu (fun b i => m₀ (.buffer b i)) i
      else m₀ (.buffer b i) := by
  refine h.owned.raceFree.ends fun b i => ?_
  split_ifs with hi
  · obtain ⟨rfl, hi⟩ := hi
    exact h.result m₀ i hi
  · refine h.owned.result_buffer_of_none ?_
    by_cases hb : b = call.output
    · exact .inr (not_lt.mp fun hlt => hi ⟨hb, h.size ▸ hlt⟩)
    · exact .inl (h.unowned b i hb)

/-- **A dispatch does not depend on its schedule.** Its threads do not race and keep within the
buffers. Every schedule ends, and whatever was in the shared memory, in the variables and in the
output, it leaves the values of `value` in the output and nothing else. -/
theorem computes (call : ShaderCall α) (h : call.InRange) : ∃ K, call.kernel gpu = some K ∧
    K.RaceFree ∧ Within call.bufferSize K ∧ ∀ m₀, K.Ends m₀ fun m => ∀ b i, m (.buffer b i) =
      if b = call.output ∧ i < call.bufferSize b then
        call.value gpu (fun b i => m₀ (.buffer b i)) i
      else m₀ (.buffer b i) := by
  obtain ⟨K, L, limits, hruns⟩ := exists_runs gpu call h
  have hwithin : Within call.bufferSize K := hruns.size ▸ hruns.owned.within
  exact ⟨K, hruns.kernel, hruns.owned.raceFree, hwithin, hruns.ends gpu⟩

/-- A matrix of 2 rows and 3 columns. -/
theorem computes_matvec : ∃ K, (matvec 2 3).kernel rationalShaderOps = some K ∧ K.RaceFree ∧
    Within (matvec 2 3 : ShaderCall ℚ).bufferSize K ∧ ∀ m₀, K.Ends m₀ fun m => ∀ b i,
      m (.buffer b i) =
        if b = (matvec 2 3 : ShaderCall ℚ).output ∧
            i < (matvec 2 3 : ShaderCall ℚ).bufferSize b then
          (matvec 2 3).value rationalShaderOps (fun b i => m₀ (.buffer b i)) i
        else m₀ (.buffer b i) :=
  computes rationalShaderOps (.matvec 2 3) ⟨by decide, by decide⟩

end ShaderCall

end HeteroAccel
