import HeteroAccel.HydroXL.GGUFOpen

/-!
# Byte sizes of tensors

The byte size that `parseTensors` computes for a descriptor, against the exact size of its blocks.
The number of elements is rounded up to whole blocks and multiplied in 64 bits, with an overflow
check for the two types without blocks only.

## Main results

* `GGUFLoader.hasExactSize_iff`: the accepted descriptors with an exact size;
* `GGUFLoader.not_hasExactSize`: a file with a tensor of 2^64 - 1 elements that takes no bytes.
-/

namespace HeteroAccel

/-- The elements and the bytes of a block. -/
structure BlockShape where
  elems : ℕ
  bytes : ℕ
  deriving DecidableEq

namespace BlockShape

/-- The bytes of `n` elements, of which the last block may not be full. -/
def bytesFor (block : BlockShape) (n : ℕ) : ℕ := (n + block.elems - 1) / block.elems * block.bytes

/-- The sum and the product of the byte size of `n` elements fit in 64 bits. -/
def NoOverflow (block : BlockShape) (n : ℕ) : Prop :=
  n + block.elems - 1 < 2 ^ 64 ∧ block.bytesFor n < 2 ^ 64

instance (block : BlockShape) (n : ℕ) : Decidable (block.NoOverflow n) :=
  inferInstanceAs (Decidable (_ ∧ _))

theorem bytesFor_single (bytes n : ℕ) : bytesFor ⟨1, bytes⟩ n = n * bytes := by
  simp [bytesFor]

end BlockShape

/-- The blocks of a type that is known; an element without blocks is a block of its own. -/
def GGMLType.blockShape (type : GGMLType) : Option BlockShape :=
  if type = f32 then some ⟨1, 4⟩
  else if type = f16 then some ⟨1, 2⟩
  else (blocks.lookup type).map fun (size, bytes) => ⟨size.toNat, bytes.toNat⟩

/-- The byte size of a descriptor is the exact one, which fits in 64 bits. -/
def GGUFTensorDesc.HasExactSize (desc : GGUFTensorDesc) (block : BlockShape) : Prop :=
  desc.nBytes.toNat = block.bytesFor (volume desc.shape) ∧
    block.bytesFor (volume desc.shape) < 2 ^ 64

namespace GGUFLoader

open StreamState Parser

/-- Rounding up and multiplying in 64 bits is exact when nothing overflows; a sum that wraps around
gives no blocks at all. -/
theorem toNat_roundUp_iff {n size bytes : UInt64} (hn : 0 < n.toNat) (hsize : 0 < size.toNat)
    (hbytes : 0 < bytes.toNat) :
    ((n + size - 1) / size * bytes).toNat =
        (BlockShape.mk size.toNat bytes.toNat).bytesFor n.toNat ↔
      (BlockShape.mk size.toNat bytes.toNat).NoOverflow n.toNat := by
  have hsum : (n + size - 1).toNat = (n.toNat + (size.toNat - 1)) % 2 ^ 64 := by
    have hsize_lt := size.toNat_lt
    rw [UInt64.toNat_sub, UInt64.toNat_add]
    change (2 ^ 64 - 1 + (n.toNat + size.toNat) % 2 ^ 64) % 2 ^ 64 = _
    omega
  have hassoc : n.toNat + (size.toNat - 1) = n.toNat + size.toNat - 1 := by omega
  rw [UInt64.toNat_mul, UInt64.toNat_div, hsum, hassoc]
  unfold BlockShape.NoOverflow BlockShape.bytesFor
  dsimp only
  constructor
  · intro h
    have hfits : (n.toNat + size.toNat - 1) / size.toNat * bytes.toNat < 2 ^ 64 := by
      rw [← h]
      exact Nat.mod_lt _ (Nat.two_pow_pos 64)
    refine ⟨?_, hfits⟩
    by_contra hwraps
    -- the wrapped sum is below the block size
    have hsmall : (n.toNat + size.toNat - 1) % 2 ^ 64 < size.toNat := by
      have hlt := n.toNat_lt
      rw [Nat.mod_eq_sub_mod (Nat.le_of_not_lt hwraps)]
      exact Nat.lt_of_le_of_lt (Nat.mod_le _ _) (by omega)
    rw [Nat.div_eq_of_lt hsmall, Nat.zero_mul, Nat.zero_mod] at h
    have hblocks : 0 < (n.toNat + size.toNat - 1) / size.toNat :=
      Nat.div_pos (by omega) hsize
    exact absurd h.symm (Nat.mul_pos hblocks hbytes).ne'
  · rintro ⟨hsumFits, hfits⟩
    rw [Nat.mod_eq_of_lt hsumFits, Nat.mod_eq_of_lt hfits]

/-- The blocks of the table have elements and bytes. -/
theorem blocks_pos {type : GGMLType} {size bytes : UInt64}
    (h : GGMLType.blocks.lookup type = some (size, bytes)) :
    0 < size.toNat ∧ 0 < bytes.toNat := by
  have hall : ∀ entry ∈ GGMLType.blocks, 0 < entry.2.1.toNat ∧ 0 < entry.2.2.toNat := by
    simp [GGMLType.blocks]
  obtain ⟨before, behind, hblocks, -⟩ := List.lookup_eq_some_iff.mp h
  refine hall (type, size, bytes) ?_
  simp [hblocks]

variable {t : GGUFTensor} {block : BlockShape}

/-- The exact descriptors of tensors in the limits. -/
theorem descOf_hasExactSize_iff (ht : t.InLimits) (hblock : t.type.blockShape = some block) :
    (descOf t).HasExactSize block ↔ block.NoOverflow t.count := by
  have hcount : (UInt64.ofNat t.count).toNat = t.count := UInt64.toNat_ofNat_of_lt' ht.count
  have hvolume : volume (descOf t).shape = t.count := rfl
  have hbytes : (descOf t).nBytes = tensorBytes t.type (.ofNat t.count) := rfl
  unfold GGMLType.blockShape at hblock
  unfold GGUFTensorDesc.HasExactSize
  rw [hvolume, hbytes, tensorBytes]
  by_cases hf32 : t.type = GGMLType.f32
  · rw [if_pos hf32] at hblock ⊢
    obtain rfl := Option.some.inj hblock
    have hfits := ht.f32 hf32
    have hlt := ht.count
    rw [Nat.mul_comm] at hfits
    have hexact : (UInt64.ofNat t.count * 4).toNat = t.count * 4 := by
      rw [UInt64.toNat_mul, hcount]
      exact Nat.mod_eq_of_lt hfits
    rw [BlockShape.NoOverflow, BlockShape.bytesFor_single, hexact]
    exact iff_of_true ⟨rfl, hfits⟩ ⟨hlt, hfits⟩
  · rw [if_neg hf32] at hblock ⊢
    by_cases hf16 : t.type = GGMLType.f16
    · rw [if_pos hf16] at hblock ⊢
      obtain rfl := Option.some.inj hblock
      have hfits := ht.f16 hf16
      have hlt := ht.count
      rw [Nat.mul_comm] at hfits
      have hexact : (UInt64.ofNat t.count * 2).toNat = t.count * 2 := by
        rw [UInt64.toNat_mul, hcount]
        exact Nat.mod_eq_of_lt hfits
      rw [BlockShape.NoOverflow, BlockShape.bytesFor_single, hexact]
      exact iff_of_true ⟨rfl, hfits⟩ ⟨hlt, hfits⟩
    · rw [if_neg hf16] at hblock ⊢
      obtain ⟨⟨size, bytes⟩, hlookup, rfl⟩ := Option.map_eq_some_iff.mp hblock
      obtain ⟨hsize, hbytes⟩ := blocks_pos hlookup
      have hpos : 0 < t.count := volume_pos fun dim hdim => (ht.dims dim hdim).1
      rw [← hcount] at hpos
      -- for blocks the rounding up decides
      have hround := toNat_roundUp_iff hpos hsize hbytes
      rw [hcount] at hround
      rw [hlookup]
      dsimp only
      rw [hround]
      exact and_iff_left_of_imp fun h => h.2

/-- **Exact sizes.** A descriptor of a known type that `parseTensors` accepts has its exact byte
size exactly when neither the rounded number of elements nor the byte size overflows. -/
theorem hasExactSize_iff {l l' : GGUFLoader} (hl : (stream l).Ready) (htensors : l.tensors = [])
    (h : exec parseTensors l = (some (), l')) {desc : GGUFTensorDesc} (hdesc : desc ∈ l'.tensors)
    (hblock : desc.type.blockShape = some block) :
    desc.HasExactSize block ↔ block.NoOverflow (volume desc.shape) := by
  obtain ⟨tensors, -, hlimits, -, rfl⟩ := (exec_parseTensors hl htensors).mp h
  obtain ⟨t, ht, rfl⟩ := List.mem_map.mp hdesc
  exact descOf_hasExactSize_iff (hlimits t ht) hblock

/-- The descriptor of a tensor of two blocks, of which the second one is not full. -/
def roundedTensor : GGUFTensor where
  name := []
  shape := [11, 3]
  type := GGMLType.q8_0
  offset := 0

/-- A loader that has come to this descriptor. -/
def beforeRounded : GGUFLoader where
  file := { content := some ⟨roundedTensor.encode, by decide +kernel⟩ }
  nTensors := 1

/-- The tensor is recorded with the 68 bytes of its two blocks. -/
theorem hasExactSize_rounded : ∃ l' : GGUFLoader,
    exec parseTensors beforeRounded = (some (), l') ∧ ∃ desc ∈ l'.tensors,
      desc.nBytes = 68 ∧ desc.HasExactSize ⟨32, 34⟩ := by
  have hdims : ∀ dim ∈ roundedTensor.shape, 1 ≤ dim.toNat ∧ dim.toNat ≤ 2 ^ 32 := by
    simp [roundedTensor]
  have hlimits : roundedTensor.InLimits :=
    ⟨by decide, by decide, hdims, by decide +kernel, by decide +kernel, by decide +kernel⟩
  have hready : (stream beforeRounded).Ready := ⟨rfl, Nat.two_pow_pos 63⟩
  have hfits : (stream beforeRounded).Fits ([roundedTensor].flatMap GGUFTensor.encode) 0 :=
    .inl (List.prefix_rfl)
  have hrun := (exec_parseTensors hready rfl).mpr
    ⟨[roundedTensor], rfl, List.forall_mem_singleton.mpr hlimits, hfits, rfl⟩
  have hblock : (descOf roundedTensor).type.blockShape = some ⟨32, 34⟩ := by decide
  refine ⟨_, hrun, descOf roundedTensor, List.mem_singleton_self _, by decide, ?_⟩
  exact (hasExactSize_iff hready rfl hrun (List.mem_singleton_self _) hblock).mpr (by decide)

/-! ## A tensor without bytes -/

/-- A tensor of 2^64 - 1 elements in blocks of 32. -/
def hugeTensor : GGUFTensor where
  name := Bytes.ofString "t"
  shape := [4294967295, 641, 6700417]
  type := GGMLType.q4_0
  offset := 0

/-- A file with this tensor. -/
def hugeFile : FileContent where
  bytes := (GGUFContent.mk 3 [] [hugeTensor]).encode ++ List.replicate 64 0
  length_lt := by decide +kernel

theorem not_hasExactSize : ¬∀ (path : Bytes) (file : FileContent) (l : GGUFLoader),
    «open» {} path (some file) = (true, l) → ∀ desc ∈ l.tensors, ∀ block : BlockShape,
      desc.type.blockShape = some block → desc.HasExactSize block := by
  intro h
  cases hopen : «open» {} [] (some hugeFile) with
  | mk done l =>
    obtain ⟨hdone, htensors⟩ : done = true ∧ l.tensors = [descOf hugeTensor] := by
      rw [show done = (done, l).1 from rfl, show l = (done, l).2 from rfl, ← hopen]
      decide +kernel
    subst hdone
    have hmem : descOf hugeTensor ∈ l.tensors := by simp [htensors]
    have hblock : (descOf hugeTensor).type.blockShape = some ⟨32, 18⟩ := by decide +kernel
    obtain ⟨hexact, -⟩ := h [] hugeFile l hopen _ hmem _ hblock
    exact absurd hexact (by decide +kernel)

end GGUFLoader
end HeteroAccel
