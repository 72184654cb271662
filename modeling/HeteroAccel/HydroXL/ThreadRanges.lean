import HeteroAccel.HydroXL.Dequant
import Mathlib.Data.List.Nodup

/-!
# The ranges of the threads

What `parallel_dequant` and `dequant_f16` hand to their threads:

* `Shared`: the ranges have no item in common and every item once;
* `shared`: they are so for every number of items of an array and every number of threads;
* `parallel_eq_plainLoop`: with any interleaving of the threads the output is that of the plain
  loop.
-/

namespace HeteroAccel

variable {α : Type}

/-- The array of floats behind a pointer: its bytes have addresses. -/
structure FloatBuffer (α : Type) where
  elems : List α
  bytes_lt : 4 * elems.length < 2 ^ 64

namespace Threads

/-- Every one of `n` items is in one range, and in no other. -/
structure Shared (threads : Threads) (n threshold : UInt64) : Prop where
  disjoint : (threads.ranges n threshold).Pairwise fun r r' => (items r).Disjoint (items r')
  once : (threads.schedule n threshold).Perm (List.range n.toNat)

theorem nodup_items (r : UInt64 × UInt64) : (items r).Nodup := List.nodup_range'

variable {threads : Threads} {n threshold : UInt64}

/-- Two threads are given no item in common. -/
theorem disjoint_range {perThread : UInt64} {c t t' : ℕ} (hwrap : c * perThread.toNat < 2 ^ 64)
    (ht : t < c) (ht' : t' < c) (hne : t ≠ t') :
    (items (range n perThread t)).Disjoint (items (range n perThread t')) := by
  intro i hi hi'
  obtain ⟨hstart, hend, -⟩ := (mem_items_range ht hwrap).mp hi
  obtain ⟨hstart', hend', -⟩ := (mem_items_range ht' hwrap).mp hi'
  rw [← Nat.succ_mul] at hend hend'
  have hlt : t < t' + 1 := Nat.lt_of_mul_lt_mul_right (Nat.lt_of_le_of_lt hstart hend')
  have hlt' : t' < t + 1 := Nat.lt_of_mul_lt_mul_right (Nat.lt_of_le_of_lt hstart' hend)
  omega

/-- The ranges of the threads are disjoint. -/
theorem disjoint_ranges (threads : Threads) (hn : n.toNat + 3 < 2 ^ 64) :
    (threads.ranges n threshold).Pairwise fun r r' => (items r).Disjoint (items r') := by
  unfold ranges
  split
  · exact List.pairwise_singleton _ _
  next hmany =>
    obtain ⟨-, hwrap⟩ := threads.share_spec hn fun hone => hmany (.inl hone)
    -- the threads have their ranges in any order
    have hsymm : ∀ {r r' : UInt64 × UInt64}, (items r).Disjoint (items r') →
        (items r').Disjoint (items r) := fun h => h.symm
    refine ((threads.order.perm _).pairwise_iff hsymm).mpr (List.pairwise_map.mpr ?_)
    refine List.nodup_range.imp_of_mem fun ht ht' hne => ?_
    exact disjoint_range hwrap (List.mem_range.mp ht) (List.mem_range.mp ht') hne

/-- **Ranges.** The ranges are disjoint and have every item once. -/
theorem shared (threads : Threads) (hn : n.toNat + 3 < 2 ^ 64) :
    threads.Shared n threshold := by
  have hdisjoint : (threads.ranges n threshold).Pairwise fun r r' =>
      (items r).Disjoint (items r') :=
    threads.disjoint_ranges hn
  refine ⟨hdisjoint, ?_⟩
  have hnodup : (threads.schedule n threshold).Nodup :=
    List.nodup_flatMap.mpr ⟨fun r _ => nodup_items r, hdisjoint⟩
  refine (List.perm_ext_iff_of_nodup hnodup List.nodup_range).mpr fun i => ?_
  rw [threads.mem_schedule_iff hn, List.mem_range]

end Threads

/-! ## The output -/

open Threads

variable (ops : TensorOps α δ)

/-- `parallel_dequant` when its threads write the blocks in the order `is`. -/
def BlockFormat.writeBlocks (f : BlockFormat α) (raw : Bytes) (is : List ℕ)
    (dst : List α) : List α :=
  Buffer.writeRows f.blockSize.toNat
    (fun b => f.decode (blockAt raw f.rawBlockBytes.toNat b)) is dst

/-- `dequant_f16` when its threads write the elements in the order `is`. -/
def writeHalves (raw : Bytes) (is : List ℕ) (dst : List α) : List α :=
  Buffer.writeRows 1 (fun i => [fp16At ops raw (2 * i)]) is dst

variable {ops} {threads : Threads} {raw : Bytes} {dst : FloatBuffer α} {nElements : UInt64}

/-- As many elements as a buffer holds can be rounded up within 64 bits. -/
theorem toNat_add_lt (hfit : nElements.toNat ≤ dst.elems.length) :
    nElements.toNat + 3 < 2 ^ 64 := by
  have := dst.bytes_lt
  omega

/-- The threads share out `n` items, and whichever of them writes first, the result is what the
plain loop writes. -/
structure LikePlainLoop (threads : Threads) (n threshold : UInt64) (write : List ℕ → List α)
    (result : List α) : Prop where
  shared : threads.Shared n threshold
  result_eq : result = write (List.range n.toNat)
  anyOrder : ∀ order, order.Perm (threads.schedule n threshold) →
    write order = write (List.range n.toNat)

/-- Rows that are written in ranges are those of one loop. -/
theorem likePlainLoop_writeRows {width : ℕ} {rows : ℕ → List α} {n threshold : UInt64}
    (hrows : ∀ p, (rows p).length = width) (hwidth : 0 < width) (hn : n.toNat + 3 < 2 ^ 64)
    (hfit : n.toNat * width ≤ dst.elems.length) :
    LikePlainLoop threads n threshold (Buffer.writeRows width rows · dst.elems)
      (Buffer.writeRows width rows (threads.schedule n threshold) dst.elems) := by
  have hanyOrder : ∀ order, order.Perm (threads.schedule n threshold) →
      Buffer.writeRows width rows order dst.elems =
        Buffer.writeRows width rows (List.range n.toNat) dst.elems := by
    intro order horder
    have hmem : ∀ i, i ∈ order ↔ i < n.toNat := fun i =>
      horder.mem_iff.trans (threads.mem_schedule_iff hn i)
    exact Buffer.writeRows_congr hrows hwidth (fun i hi => (hmem i).mp hi) hfit fun i =>
      (hmem i).trans List.mem_range.symm
  exact ⟨threads.shared hn, hanyOrder _ (.refl _), hanyOrder⟩

/-- **Parallel dequantization.** The blocks, and the elements of half precision, are each handed to
one thread, and the output is that of the plain loop. -/
theorem parallel_eq_plainLoop (threads : Threads) (dst : FloatBuffer α) (hraw : raw ≠ [])
    (hfit : nElements.toNat ≤ dst.elems.length) :
    (∀ f : BlockFormat α, nElements ≠ 0 → nElements % f.blockSize = 0 →
      (parallelDequant threads f raw dst.elems nElements).1 = true ∧
        LikePlainLoop threads (nElements / f.blockSize) 256 (f.writeBlocks raw · dst.elems)
          (parallelDequant threads f raw dst.elems nElements).2) ∧
      LikePlainLoop threads nElements 131072 (writeHalves ops raw · dst.elems)
        (dequantF16 ops threads raw dst.elems nElements) := by
  have hn := toNat_add_lt hfit
  constructor
  · intro f hpos hblocks
    have hdst : dst.elems ≠ [] := by
      intro hnil
      rw [hnil] at hfit
      exact hpos (UInt64.toNat_inj.mp (Nat.le_zero.mp hfit))
    have hdiv : (nElements / f.blockSize).toNat = nElements.toNat / f.blockSize.toNat :=
      UInt64.toNat_div ..
    have hle := Nat.div_le_self nElements.toNat f.blockSize.toNat
    rw [parallelDequant, if_neg (by simp [hraw, hdst, hpos]), if_neg (by simp [hblocks])]
    refine ⟨rfl, likePlainLoop_writeRows (fun b => f.length_decode _) ?_ (by omega) ?_⟩
    · exact UInt64.lt_iff_toNat_lt.mp f.blockSize_pos
    · rw [hdiv]
      exact (Nat.div_mul_le_self ..).trans hfit
  · have hrows : ∀ i, [fp16At ops raw (2 * i)].length = 1 := fun _ => rfl
    have hlike : LikePlainLoop threads nElements 131072 (writeHalves ops raw · dst.elems)
        (Buffer.writeRows 1 (fun i => [fp16At ops raw (2 * i)])
          (threads.schedule nElements 131072) dst.elems) :=
      likePlainLoop_writeRows hrows Nat.one_pos hn (by rw [Nat.mul_one]; exact hfit)
    -- nothing is written for no elements, nor to no destination
    have hresult : dequantF16 ops threads raw dst.elems nElements =
        Buffer.writeRows 1 (fun i => [fp16At ops raw (2 * i)])
          (threads.schedule nElements 131072) dst.elems := by
      unfold dequantF16
      split
      next h =>
        have hzero : nElements.toNat = 0 := by
          obtain hnil | hnil | hzero := h
          · exact absurd hnil hraw
          · rw [hnil] at hfit
            exact Nat.le_zero.mp hfit
          · rw [hzero]
            rfl
        rw [hlike.result_eq, hzero]
        rfl
      next => rfl
    rw [hresult]
    exact hlike

/-- The destination of 257 blocks. -/
def sampleFloats : FloatBuffer ℚ where
  elems := List.replicate 8224 0
  bytes_lt := by
    rw [List.length_replicate]
    norm_num

/-- Three threads for 257 blocks: the last one is given less. -/
theorem parallel_eq_plainLoop_three :
    (⟨3, .stored⟩ : Threads).ranges 257 256 = [(0, 86), (86, 172), (172, 257)] ∧
      LikePlainLoop ⟨3, .stored⟩ 257 256
        ((BlockFormat.q5_0 rationalOps).writeBlocks (List.replicate 5654 0) · sampleFloats.elems)
        (parallelDequant ⟨3, .stored⟩ (.q5_0 rationalOps) (List.replicate 5654 0)
          sampleFloats.elems 8224).2 := by
  have hraw : List.replicate 5654 (0 : UInt8) ≠ [] := List.cons_ne_nil _ _
  have hfit : (8224 : UInt64).toNat ≤ sampleFloats.elems.length := by
    rw [sampleFloats, List.length_replicate]
    exact Nat.le_refl 8224
  obtain ⟨hblocks, -⟩ : _ ∧ LikePlainLoop ⟨3, .stored⟩ 8224 131072
      (writeHalves rationalOps (List.replicate 5654 0) · sampleFloats.elems) _ :=
    parallel_eq_plainLoop ⟨3, .stored⟩ sampleFloats hraw hfit
  exact ⟨by decide, (hblocks (.q5_0 rationalOps) (by decide) (by decide)).2⟩

end HeteroAccel
