import HeteroAccel.HydroXL.GGUFOpen
import HeteroAccel.HydroXL.Model

/-!
# Reading tensors of an open file

What `readTensorData` reads and `decodeTensor` makes of it, told without the state of the stream and
without the buffers that are written over. A `TensorFile` is what reading does not change of a
loader, and `TensorFile.content` what a tensor of it stands for.

## Main results

* `readTensorData_of_holds`, `readTensorData_of_not_holds`: a read succeeds exactly when the bytes
  are in the file, and gets them;
* `toOption_decodeTensor`: what is decoded depends on the bytes of the tensor only;
* `checkDesc_ok`, `checkDesc_of_size`: which descriptors pass the checks of `loadTensor`.
-/

namespace HeteroAccel

open Bytes (ofString)

/-- What reading tensors does not change of a loader: the descriptors, the start of the data section
and the bytes of the file. -/
structure TensorFile where
  tensors : List GGUFTensorDesc
  dataOffset : ℕ
  bytes : Bytes

namespace TensorFile

variable (f : TensorFile) (desc : GGUFTensorDesc)

/-- The first descriptor with a name. -/
def find (name : Bytes) : Option GGUFTensorDesc := f.tensors.find? fun t => t.name = name

/-- The file has all bytes of the tensor, and there are some. -/
def Holds : Prop :=
  0 < desc.nBytes.toNat ∧ f.dataOffset + desc.offset.toNat + desc.nBytes.toNat ≤ f.bytes.length

instance : Decidable (f.Holds desc) :=
  inferInstanceAs (Decidable (0 < desc.nBytes.toNat ∧
    f.dataOffset + desc.offset.toNat + desc.nBytes.toNat ≤ f.bytes.length))

/-- The bytes of the tensor. -/
def data : Bytes := (f.bytes.drop (f.dataOffset + desc.offset.toNat)).take desc.nBytes.toNat

variable {f desc}

/-- The data of a tensor have the length that the description says. -/
theorem length_data (h : f.Holds desc) : (f.data desc).length = desc.nBytes.toNat := by
  have := h.2
  rw [data, List.length_take, List.length_drop]
  omega

end TensorFile

namespace GGUFLoader

/-- The part of a loader that reading tensors does not change. -/
def tensorFile (l : GGUFLoader) : TensorFile :=
  { tensors := l.tensors, dataOffset := l.dataOffset.toNat, bytes := l.file.bytes }

/-- A loader that has opened a file. -/
structure Opened (l : GGUFLoader) : Prop where
  isOpen : l.isOpen = true
  notFailed : l.file.fail = false
  fileSize : l.fileSize.toNat = l.file.bytes.length
  tensors : ∀ desc ∈ l.tensors, ∃ t : GGUFTensor, t.InLimits ∧ desc = descOf t

/-- What `open` of a fresh loader leaves when it succeeds. -/
theorem opened_of_open {path : Bytes} {file : Option FileContent} {l : GGUFLoader}
    (h : «open» {} path file = (true, l)) : l.Opened := by
  cases file with
  | none =>
    have hfalse : («open» {} path none).1 = false := rfl
    rw [h] at hfalse
    cases hfalse
  | some file =>
    obtain ⟨c, dataOffset, ⟨hc, -⟩, -, -, rfl⟩ := open_eq_true_iff.mp h
    refine ⟨rfl, rfl, toNat_fileSize path file, fun desc hdesc => ?_⟩
    obtain ⟨t, ht, rfl⟩ := List.mem_map.mp hdesc
    exact ⟨t, hc.tensors t ht, rfl⟩

variable {l : GGUFLoader} {desc : GGUFTensorDesc} {dst : Bytes}

/-- The loader finds the tensors of its file. -/
theorem findTensor_eq (l : GGUFLoader) (name : Bytes) :
    l.findTensor name = l.tensorFile.find name := rfl

/-- The loader after a seek and a read of the file. -/
theorem Opened.setFile (hl : l.Opened) {file : InputStream} (hbytes : file.bytes = l.file.bytes)
    (hfail : file.fail = false) :
    ({ l with file } : GGUFLoader).Opened ∧
      ({ l with file } : GGUFLoader).tensorFile = l.tensorFile where
  left :=
    { isOpen := hl.isOpen
      notFailed := hfail
      fileSize := hl.fileSize.trans (congrArg List.length hbytes.symm)
      tensors := hl.tensors }
  right := by
    rw [tensorFile, tensorFile, hbytes]

/-- The range checks pass exactly when the bytes are in the file. -/
theorem inRange_iff (hl : l.Opened) (hpos : desc.nBytes ≠ 0) :
    (¬(desc.offset > l.fileSize ∨ desc.nBytes > l.fileSize - desc.offset) ∧
      ¬desc.offset > -1 - l.dataOffset ∧
      ¬(l.dataOffset + desc.offset > l.fileSize ∨
        desc.nBytes > l.fileSize - (l.dataOffset + desc.offset))) ↔ l.tensorFile.Holds desc := by
  have hsize := l.file.length_bytes_lt
  rw [← hl.fileSize] at hsize
  have hn : 0 < desc.nBytes.toNat :=
    Nat.pos_of_ne_zero fun h => hpos (UInt64.toNat_inj.mp h)
  have hwhole : l.tensorFile.Holds desc ↔
      l.dataOffset.toNat + desc.offset.toNat + desc.nBytes.toNat ≤ l.fileSize.toNat := by
    rw [hl.fileSize]
    exact and_iff_right hn
  have hone : (-1 - l.dataOffset).toNat = 2 ^ 64 - 1 - l.dataOffset.toNat :=
    UInt64.toNat_sub_of_le _ _ (UInt64.le_iff_toNat_le.mpr (Nat.le_of_lt_succ (UInt64.toNat_lt _)))
  have hsub : ∀ {a : UInt64}, a.toNat ≤ l.fileSize.toNat →
      (l.fileSize - a).toNat = l.fileSize.toNat - a.toNat := fun h =>
    UInt64.toNat_sub_of_le _ _ (UInt64.le_iff_toNat_le.mpr h)
  have hlt := l.dataOffset.toNat_lt
  simp only [hwhole, gt_iff_lt, UInt64.lt_iff_toNat_lt, hone, not_or, Nat.not_lt]
  constructor
  · rintro ⟨⟨h₁, h₂⟩, h₃, h₄, h₅⟩
    have hsum : (l.dataOffset + desc.offset).toNat = l.dataOffset.toNat + desc.offset.toNat := by
      rw [UInt64.toNat_add, Nat.mod_eq_of_lt]
      omega
    rw [hsum] at h₄
    rw [hsub (hsum ▸ h₄), hsum] at h₅
    omega
  · intro h
    have hsum : (l.dataOffset + desc.offset).toNat = l.dataOffset.toNat + desc.offset.toNat := by
      rw [UInt64.toNat_add, Nat.mod_eq_of_lt]
      omega
    have hoffset : desc.offset.toNat ≤ l.fileSize.toNat := by omega
    have hboth : (l.dataOffset + desc.offset).toNat ≤ l.fileSize.toNat := by omega
    rw [hsub hoffset, hsub hboth, hsum]
    omega

/-- A read of bytes that the file does not have. -/
theorem readTensorData_of_not_holds (hl : l.Opened) (h : ¬l.tensorFile.Holds desc) :
    l.readTensorData desc dst desc.nBytes = (false, dst, l) := by
  unfold readTensorData
  rw [hl.isOpen, if_neg (by decide)]
  split_ifs with hnull hmax hoffset hwrap
  · rfl
  · rfl
  · rfl
  · rfl
  · -- only a range beyond the end of the file is left
    dsimp only
    refine if_pos ?_
    by_contra hrange
    exact h ((inRange_iff hl fun h => hnull (.inl h)).mp ⟨hoffset, hwrap, hrange⟩)

/-- A read of bytes that the file has, into a buffer with room for them. -/
theorem readTensorData_of_holds (hl : l.Opened) (h : l.tensorFile.Holds desc)
    (hroom : desc.nBytes.toNat ≤ dst.length) : ∃ l' : GGUFLoader,
      l.readTensorData desc dst desc.nBytes =
        (true, l.tensorFile.data desc ++ dst.drop desc.nBytes.toNat, l') ∧
      l'.Opened ∧ l'.tensorFile = l.tensorFile := by
  have hpos : desc.nBytes ≠ 0 := by
    intro hzero
    have := h.1
    rw [hzero] at this
    exact absurd this (by decide)
  obtain ⟨hoffset, hwrap, hrange⟩ := (inRange_iff hl hpos).mpr h
  have hdst : dst ≠ [] := by
    rintro rfl
    have := h.1
    rw [List.length_nil] at hroom
    omega
  have hend := h.2
  have hlength := l.file.length_bytes_lt
  have hsum : (l.dataOffset + desc.offset).toNat = l.dataOffset.toNat + desc.offset.toNat := by
    rw [UInt64.toNat_add, Nat.mod_eq_of_lt]
    change l.dataOffset.toNat + desc.offset.toNat + desc.nBytes.toNat ≤ l.file.bytes.length at hend
    omega
  -- the stream stands at the bytes of the tensor
  set start := l.dataOffset.toNat + desc.offset.toNat with hstart
  have hend' : start + desc.nBytes.toNat ≤ l.file.bytes.length := hend
  have hseek : l.file.seekg (l.dataOffset + desc.offset) =
      { l.file with eof := false, pos := start } := by
    unfold InputStream.seekg
    dsimp only
    rw [hl.notFailed, if_neg Bool.false_ne_true, hsum, if_pos (by omega)]
  set stream : InputStream := { l.file with eof := false, pos := start } with hstream
  have hgood : stream.good := by
    simp [hstream, InputStream.good, hl.notFailed]
  have hrest : stream.rest = l.file.bytes.drop start := rfl
  have hread := InputStream.read_of_le hgood (n := desc.nBytes.toNat) (by
    rw [hrest, List.length_drop]
    omega)
  rw [hrest] at hread
  have hdata : (l.file.bytes.drop start).take desc.nBytes.toNat = l.tensorFile.data desc := rfl
  refine ⟨{ l with file := stream.advance desc.nBytes.toNat }, ?_, ?_⟩
  · unfold readTensorData
    rw [hl.isOpen, if_neg (by decide), if_neg (by simp [hpos, hdst]),
      if_neg (by rw [gt_iff_lt, UInt64.lt_iff_toNat_lt]; omega), if_neg hoffset, if_neg hwrap]
    dsimp only
    have hnotFailed : ¬stream.fail = true := by simp [hstream, hl.notFailed]
    rw [if_neg hrange, hseek, if_neg hnotFailed, hread]
    dsimp only
    rw [hdata, TensorFile.length_data h]
  · exact hl.setFile rfl hl.notFailed

end GGUFLoader

/-! ## The content of a tensor -/

section Decoding

variable {α δ : Type} (ops : TensorOps α δ)

/-- The elements that the bytes of a tensor stand for; nothing when its type is not decoded or its
elements do not fill the blocks. -/
def dequantize (type : GGMLType) (n : ℕ) (raw : Bytes) : Option (List α) :=
  if type = GGMLType.f32 then some ((GGUFLoader.words raw n).map ops.ofBits)
  else if type = GGMLType.f16 then some ((List.range n).map fun i => fp16At ops raw (2 * i))
  else
    match HydroXLModel.blockFormat ops type with
    | some f =>
      if n % f.blockSize.toNat = 0 then some (f.decodeBlocks raw (n / f.blockSize.toNat)) else none
    | none => none

/-- The dequantized content of a tensor of the file, when the file has all of it. -/
def TensorFile.content (f : TensorFile) (desc : GGUFTensorDesc) : Option (List α) :=
  if f.Holds desc then dequantize ops desc.type (volume desc.shape) (f.data desc) else none

section Blocks

variable {ops} {type : GGMLType} {f : BlockFormat α} {n : ℕ} {raw rest : Bytes}

/-- The sizes of a block format are those that the loader computes the bytes of a tensor with. -/
theorem lookup_of_blockFormat (h : HydroXLModel.blockFormat ops type = some f) :
    type ≠ GGMLType.f32 ∧ type ≠ GGMLType.f16 ∧
      GGMLType.blocks.lookup type = some (f.blockSize, f.rawBlockBytes) ∧
      f.blockSize.toNat ≤ 256 ∧ f.rawBlockBytes.toNat ≤ 2 * f.blockSize.toNat ∧
      0 < f.rawBlockBytes.toNat := by
  unfold HydroXLModel.blockFormat at h
  split_ifs at h with h₁ h₂ h₃ h₄ h₅ h₆ <;> cases h <;> subst type <;>
    exact ⟨by decide, by decide, rfl, Nat.le_of_ble_eq_true rfl, Nat.le_of_ble_eq_true rfl,
      Nat.le_of_ble_eq_true rfl⟩

/-- Blocks are decoded to their number of elements. -/
theorem length_decodeBlocks (f : BlockFormat α) (raw : Bytes) (n : ℕ) :
    (f.decodeBlocks raw n).length = n * f.blockSize.toNat :=
  BlockFormat.length_flatMap_range fun _ => f.length_decode _

/-- As many elements are decoded as are asked for. -/
theorem length_of_dequantize {v : List α} (h : dequantize ops type n raw = some v) :
    v.length = n := by
  unfold dequantize at h
  split_ifs at h with h₁ h₂
  · cases h
    simp [GGUFLoader.words]
  · cases h
    simp
  · split at h
    next f hf =>
      split_ifs at h with hmod
      cases h
      rw [length_decodeBlocks, Nat.div_mul_cancel (Nat.dvd_of_mod_eq_zero hmod)]
    next => cases h

/-! What lies behind the bytes of a tensor is not looked at. -/

/-- What stands behind the bytes that are read does not matter. -/
theorem slice_append {i k : ℕ} (h : i + k ≤ raw.length) :
    ((raw ++ rest).drop i).take k = (raw.drop i).take k := by
  rw [List.drop_append_of_le_length (by omega),
    List.take_append_of_le_length (by rw [List.length_drop]; omega)]

/-- Words are read from their own bytes only. -/
theorem words_append (h : n * 4 ≤ raw.length) :
    GGUFLoader.words (raw ++ rest) n = GGUFLoader.words raw n := by
  refine List.map_congr_left fun i hi => ?_
  rw [List.mem_range] at hi
  rw [slice_append (by omega)]

/-- A half float is read from its own bytes only. -/
theorem fp16At_append {i : ℕ} (h : i + 2 ≤ raw.length) :
    fp16At ops (raw ++ rest) i = fp16At ops raw i := by
  rw [fp16At, fp16At, uint16At, uint16At, slice_append h]

/-- Blocks are decoded from their own bytes only. -/
theorem decodeBlocks_append (h : n * f.rawBlockBytes.toNat ≤ raw.length) :
    f.decodeBlocks (raw ++ rest) n = f.decodeBlocks raw n := by
  refine List.flatMap_congr fun b hb => ?_
  rw [List.mem_range] at hb
  have hrow := Buffer.row_le f.rawBlockBytes.toNat hb
  rw [blockAt, blockAt, slice_append (by omega)]

/-! The bytes of a tensor with no more elements than a vector can have. -/

section Sizes

variable {nElems : UInt64}

/-- The loader accepts fewer than 2^61 elements. -/
theorem toNat_le_of_le_maxElems (hle : nElems ≤ HydroXLModel.maxElems) : nElems.toNat < 2 ^ 61 :=
  Nat.lt_of_le_of_lt (UInt64.le_iff_toNat_le.mp hle) (by decide +kernel)

theorem toNat_tensorBytes_f32 (hle : nElems ≤ HydroXLModel.maxElems) :
    (GGUFLoader.tensorBytes GGMLType.f32 nElems).toNat = nElems.toNat * 4 := by
  have := toNat_le_of_le_maxElems hle
  rw [GGUFLoader.tensorBytes, if_pos rfl, UInt64.toNat_mul]
  exact Nat.mod_eq_of_lt (show nElems.toNat * 4 < 2 ^ 64 by omega)

theorem toNat_tensorBytes_f16 (hle : nElems ≤ HydroXLModel.maxElems) :
    (GGUFLoader.tensorBytes GGMLType.f16 nElems).toNat = nElems.toNat * 2 := by
  have := toNat_le_of_le_maxElems hle
  rw [GGUFLoader.tensorBytes, if_neg (by decide), if_pos rfl, UInt64.toNat_mul]
  exact Nat.mod_eq_of_lt (show nElems.toNat * 2 < 2 ^ 64 by omega)

/-- The bytes of a tensor of blocks, of which the last one may not be full. -/
theorem toNat_tensorBytes_block (hle : nElems ≤ HydroXLModel.maxElems)
    (h : HydroXLModel.blockFormat ops type = some f) :
    (GGUFLoader.tensorBytes type nElems).toNat =
      (nElems.toNat + f.blockSize.toNat - 1) / f.blockSize.toNat * f.rawBlockBytes.toNat := by
  obtain ⟨hf32, hf16, hlookup, hbs, hraw, -⟩ := lookup_of_blockFormat h
  have hlt := toNat_le_of_le_maxElems hle
  have hpos : 0 < f.blockSize.toNat := UInt64.lt_iff_toNat_lt.mp f.blockSize_pos
  have hsum : (nElems + f.blockSize).toNat = nElems.toNat + f.blockSize.toNat := by
    rw [UInt64.toNat_add]
    exact Nat.mod_eq_of_lt (by omega)
  have hone : (1 : UInt64) ≤ nElems + f.blockSize := by
    rw [UInt64.le_iff_toNat_le, hsum]
    change 1 ≤ nElems.toNat + f.blockSize.toNat
    omega
  have hsub : (nElems + f.blockSize - 1).toNat = nElems.toNat + f.blockSize.toNat - 1 := by
    rw [UInt64.toNat_sub_of_le _ _ hone, hsum]
    rfl
  rw [GGUFLoader.tensorBytes, if_neg hf32, if_neg hf16, hlookup]
  dsimp only
  rw [UInt64.toNat_mul, UInt64.toNat_div, hsub]
  refine Nat.mod_eq_of_lt ?_
  calc (nElems.toNat + f.blockSize.toNat - 1) / f.blockSize.toNat * f.rawBlockBytes.toNat
      ≤ (nElems.toNat + f.blockSize.toNat - 1) / f.blockSize.toNat * (2 * f.blockSize.toNat) :=
        Nat.mul_le_mul_left _ hraw
    _ = (nElems.toNat + f.blockSize.toNat - 1) / f.blockSize.toNat * f.blockSize.toNat * 2 := by
        ring
    _ ≤ (nElems.toNat + f.blockSize.toNat - 1) * 2 :=
        Nat.mul_le_mul_right _ (Nat.div_mul_le_self ..)
    _ < 2 ^ 64 := by omega

/-- The bytes that the model loader insists on are never more than those of the descriptor. -/
theorem minBytes_le (hle : nElems ≤ HydroXLModel.maxElems) (type : GGMLType) :
    HydroXLModel.minBytes ops type nElems ≤ GGUFLoader.tensorBytes type nElems := by
  unfold HydroXLModel.minBytes
  split_ifs with hf32 hf16
  · rw [GGUFLoader.tensorBytes, if_pos hf32]
    exact UInt64.le_refl _
  · rw [GGUFLoader.tensorBytes, if_neg hf32, if_pos hf16]
    exact UInt64.le_refl _
  · split
    next f hf =>
      rw [UInt64.le_iff_toNat_le, toNat_tensorBytes_block hle hf, UInt64.toNat_mul,
        UInt64.toNat_div]
      refine (Nat.mod_le ..).trans (Nat.mul_le_mul_right _ (Nat.div_le_div_right ?_))
      have hpos : 0 < f.blockSize.toNat := UInt64.lt_iff_toNat_lt.mp f.blockSize_pos
      omega
    next => exact UInt64.le_iff_toNat_le.mpr (Nat.zero_le _)

end Sizes

/-- What `decodeTensor` makes of the bytes of a tensor depends on them only: not on what the
output held, nor on what lies behind them in the buffer, nor on the threads. -/
theorem toOption_decodeTensor {threads : Threads} {name : Bytes} {nElems : UInt64} {out : List α}
    (hpos : nElems ≠ 0) (hle : nElems ≤ HydroXLModel.maxElems) (hout : out.length = nElems.toNat)
    (hraw : raw.length = (GGUFLoader.tensorBytes type nElems).toNat) :
    (HydroXLModel.decodeTensor ops threads name type nElems (raw ++ rest) out).toOption =
      dequantize ops type nElems.toNat raw := by
  have hlt := toNat_le_of_le_maxElems hle
  have hn : 0 < nElems.toNat := Nat.pos_of_ne_zero fun h => hpos (UInt64.toNat_inj.mp h)
  unfold HydroXLModel.decodeTensor dequantize
  by_cases hf32 : type = GGMLType.f32
  · subst type
    rw [toNat_tensorBytes_f32 hle] at hraw
    rw [if_pos rfl, if_pos rfl, words_append hraw.ge]
    refine congrArg some (Buffer.blit_zero_of_length_eq ?_)
    rw [List.length_map, hout]
    simp [GGUFLoader.words]
  -- not plain floats
  rw [if_neg hf32, if_neg hf32]
  by_cases hf16 : type = GGMLType.f16
  · subst type
    rw [toNat_tensorBytes_f16 hle] at hraw
    rw [if_pos rfl, if_pos rfl, dequantF16_eq ?_ hpos hout (by omega)]
    · refine congrArg some (List.map_congr_left fun i hi => fp16At_append ?_)
      rw [List.mem_range] at hi
      omega
    · exact List.append_ne_nil_of_left_ne_nil (List.ne_nil_of_length_pos (by omega)) _
  -- nor half floats, so blocks if any
  rw [if_neg hf16, if_neg hf16]
  cases hf : HydroXLModel.blockFormat ops type with
  | none => rfl
  | some f =>
    obtain ⟨-, -, -, -, -, hbytes⟩ := lookup_of_blockFormat hf
    have hbs : 0 < f.blockSize.toNat := UInt64.lt_iff_toNat_lt.mp f.blockSize_pos
    have hmod : nElems % f.blockSize = 0 ↔ nElems.toNat % f.blockSize.toNat = 0 := by
      rw [← UInt64.toNat_inj, UInt64.toNat_mod]
      rfl
    by_cases hblocks : nElems % f.blockSize = 0
    · have hfull := Nat.div_mul_cancel (Nat.dvd_of_mod_eq_zero (hmod.mp hblocks))
      -- the number of blocks is exact, so the bytes are those of the blocks
      have hcount : (nElems.toNat + f.blockSize.toNat - 1) / f.blockSize.toNat =
          nElems.toNat / f.blockSize.toNat := by
        conv_lhs => rw [← hfull, Nat.add_sub_assoc hbs, Nat.mul_comm, Nat.mul_add_div hbs]
        rw [Nat.div_eq_of_lt (Nat.sub_lt hbs Nat.one_pos), Nat.add_zero]
      rw [toNat_tensorBytes_block hle hf, hcount] at hraw
      have hblock : 0 < nElems.toNat / f.blockSize.toNat :=
        Nat.pos_of_ne_zero fun h => by rw [h, Nat.zero_mul] at hfull; omega
      have hne : raw ++ rest ≠ [] := by
        refine List.append_ne_nil_of_left_ne_nil (List.ne_nil_of_length_pos ?_) _
        rw [hraw]
        exact Nat.mul_pos hblock hbytes
      simp only [hblocks, hmod.mp hblocks, if_pos, ne_eq, not_true_eq_false, if_false]
      rw [parallelDequant_eq hne hpos hblocks hout (by omega)]
      exact congrArg some (decodeBlocks_append hraw.ge)
    · simp only [if_neg (mt hmod.mpr hblocks), hblocks, ne_eq, not_false_eq_true, if_true]
      rfl

end Blocks

/-! ## The checks of a descriptor -/

section Checks

open HydroXLModel (checkDesc countElems maxElems)

variable {ops} {t : GGUFTensor} {name : Bytes} {expected nElems : UInt64}

/-- Elements are counted as the product, where it fits 64 bits. -/
theorem countElems_eq (name : Bytes) {shape : List UInt64} (hdims : ∀ dim ∈ shape, 1 ≤ dim.toNat)
    (h : nElems.toNat * volume shape < 2 ^ 64) :
    ∃ n, countElems name shape nElems = .ok n ∧ n.toNat = nElems.toNat * volume shape := by
  induction shape generalizing nElems with
  | nil => exact ⟨nElems, rfl, (Nat.mul_one _).symm⟩
  | cons dim shape ih =>
    obtain ⟨hdim, hdims⟩ := List.forall_mem_cons.mp hdims
    have hvolume : volume (dim :: shape) = dim.toNat * volume shape := List.prod_cons
    rw [hvolume, ← Nat.mul_assoc] at h ⊢
    have hover : nElems.toNat * dim.toNat < 2 ^ 64 :=
      Nat.lt_of_le_of_lt (Nat.le_mul_of_pos_right _ (GGUFLoader.volume_pos hdims)) h
    have hmul : (nElems * dim).toNat = nElems.toNat * dim.toNat := by
      rw [UInt64.toNat_mul, Nat.mod_eq_of_lt hover]
    have hzero : dim ≠ 0 := by
      rintro rfl
      exact absurd hdim (by decide)
    rw [countElems, if_neg hzero, if_neg ((GGUFLoader.mul_lt_iff hdim).mpr hover), ← hmul]
    exact ih hdims (by rwa [hmul])

/-- The elements of a tensor within limits are counted. -/
theorem countElems_descOf (ht : t.InLimits) :
    countElems name (GGUFLoader.descOf t).shape 1 = .ok (.ofNat t.count) := by
  have hone : (1 : UInt64).toNat * volume t.shape < 2 ^ 64 := (Nat.one_mul _).trans_lt ht.count
  obtain ⟨n, hn, hcount⟩ := countElems_eq name (fun dim hdim => (ht.dims dim hdim).1) hone
  refine hn.trans (congrArg Except.ok (UInt64.toNat_inj.mp (hcount.trans ?_)))
  rw [UInt64.toNat_ofNat_of_lt' ht.count]
  exact Nat.one_mul _

theorem shape_descOf (ht : t.InLimits) : (GGUFLoader.descOf t).shape ≠ [] :=
  List.ne_nil_of_length_pos ht.rank.1

/-- A tensor that passes the checks has the size that is asked for, if one is asked for. -/
theorem checkDesc_ok (ht : t.InLimits)
    (h : checkDesc ops name expected (GGUFLoader.descOf t) = .ok nElems) :
    nElems.toNat = t.count ∧ (expected = 0 ∨ t.count = expected.toNat) := by
  unfold checkDesc at h
  rw [if_neg (shape_descOf ht), countElems_descOf ht] at h
  have hcount : (UInt64.ofNat t.count).toNat = t.count := UInt64.toNat_ofNat_of_lt' ht.count
  simp only [bind, Except.bind, pure, Except.pure] at h
  split_ifs at h with hsize hmin
  cases h
  refine ⟨hcount, or_iff_not_imp_left.mpr fun hexpected => ?_⟩
  by_contra hne
  refine hsize ⟨UInt64.pos_iff_ne_zero.mpr hexpected, fun heq => hne ?_⟩
  rw [← heq, hcount]

/-- A tensor of the size that is asked for passes the checks, as its bytes are computed from its
size. -/
theorem checkDesc_of_size (ht : t.InLimits) (hle : .ofNat t.count ≤ maxElems)
    (hsize : expected = 0 ∨ t.count = expected.toNat) :
    checkDesc ops name expected (GGUFLoader.descOf t) = .ok (.ofNat t.count) := by
  unfold checkDesc
  rw [if_neg (shape_descOf ht), countElems_descOf ht]
  have hcount : (UInt64.ofNat t.count).toNat = t.count := UInt64.toNat_ofNat_of_lt' ht.count
  simp only [bind, Except.bind, pure, Except.pure]
  rw [if_neg ?_, if_neg ?_]
  · rintro ⟨-, hmin⟩
    exact UInt64.not_lt.mpr (minBytes_le hle _) hmin
  · rintro ⟨hpos, hne⟩
    obtain rfl | hsize := hsize
    · exact absurd hpos (by decide)
    · exact hne (UInt64.toNat_inj.mp (hcount.trans hsize))

end Checks

end Decoding

end HeteroAccel
