import HeteroAccel.HydroXL.TensorOps
import HeteroAccel.Lib.Buffer
import HeteroAccel.Lib.ByteStream

/-!
# Dequantization

The block decoders of `HydroXLDequant.cpp`, and the loops that run one of them over a tensor, on one
thread or on several. A pointer is the list of the bytes from it on; the decoders read within a
block.

## Main definitions

* `fp16ToFloat` and a decoder for each block format;
* `Threads`: how many threads there are and in which order their ranges are worked off;
* `parallelDequant`, `dequantF16`: the destination buffer after all of them;
* `parallelDequant_eq`, `dequantF16_eq`: the buffer is the decoded blocks one behind the other,
  whatever the threads are.
-/

namespace HeteroAccel

variable {α δ : Type} (ops : TensorOps α δ)

/-! ## Numbers in a block -/

/-- The byte at an offset. -/
def byteAt (raw : Bytes) (i : ℕ) : UInt8 := raw.getD i 0

/-- The little-endian number at an offset. -/
def uint16At (raw : Bytes) (i : ℕ) : UInt16 := .ofNat (Bytes.toNat ((raw.drop i).take 2))

/-- The four bytes from a place on, as a number. -/
def uint32At (raw : Bytes) (i : ℕ) : UInt32 := .ofNat (Bytes.toNat ((raw.drop i).take 4))

/-- The signed byte at an offset. -/
def int8At (raw : Bytes) (i : ℕ) : Int32 := (byteAt raw i).toInt8.toInt32

/-- An unsigned byte as an `int`. -/
def toInt (b : UInt8) : Int32 := .ofNat b.toNat

/-- The loop that normalises a subnormal mantissa; one of ten bits is shifted ten times at most. -/
def normaliseMantissa : ℕ → (mantissa exponent : UInt32) → UInt32 × UInt32
  | 0, mantissa, exponent => (mantissa, exponent)
  | fuel + 1, mantissa, exponent =>
    if mantissa &&& 0x400 = 0 then normaliseMantissa fuel (mantissa <<< 1) (exponent - 1)
    else (mantissa, exponent)

/-- The bits that `fp16_to_float` puts together. -/
def fp16Bits (h : UInt16) : UInt32 :=
  let sign : UInt32 := (h >>> 15).toUInt32 &&& 1
  let exponent : UInt32 := (h >>> 10).toUInt32 &&& 0x1F
  let mantissa : UInt32 := h.toUInt32 &&& 0x3FF
  let assemble (exponent mantissa : UInt32) : UInt32 :=
    sign <<< 31 ||| (exponent + 127 - 15) <<< 23 ||| mantissa <<< 13
  if exponent = 0 then
    if mantissa = 0 then sign <<< 31
    else
      let (mantissa, exponent) := normaliseMantissa 10 mantissa 1
      assemble exponent (mantissa &&& 0x3FF)
  else if exponent = 31 then sign <<< 31 ||| (0x7F800000 : UInt32) ||| mantissa <<< 13
  else assemble exponent mantissa

/-- `fp16_to_float`. -/
def fp16ToFloat (h : UInt16) : α := ops.ofBits (fp16Bits h)

/-- The half-precision number at an offset. -/
def fp16At (raw : Bytes) (i : ℕ) : α := fp16ToFloat ops (uint16At raw i)

/-! ## The blocks -/

/-- `get_scale_min_k4`: the scale and the minimum number `j`; `q` is the offset of the scales. -/
def getScaleMinK4 (raw : Bytes) (q j : ℕ) : UInt8 × UInt8 :=
  let byte (i : ℕ) : UInt8 := byteAt raw (q + i)
  let d : UInt8 :=
    if j < 4 then byte j &&& 63 else (byte (j + 4) &&& (0xF : UInt8)) ||| (byte (j - 4) >>> 6) <<< 4
  let m : UInt8 :=
    if j < 4 then byte (j + 4) &&& 63 else (byte (j + 4) >>> 4) ||| (byte j >>> 6) <<< 4
  (d, m)

/-- `dequant_q4k_block`. -/
def dequantQ4KBlock (raw : Bytes) : List α :=
  let d := fp16At ops raw 0
  let min := fp16At ops raw 2
  (List.range 4).flatMap fun j =>
    -- the group of 64 elements number `j`, its bytes and its two scales
    let q (l : ℕ) := byteAt raw (16 + 32 * j + l)
    let (sc₁, m₁) := getScaleMinK4 raw 4 (2 * j)
    let (sc₂, m₂) := getScaleMinK4 raw 4 (2 * j + 1)
    let d₁ := ops.mul d (ops.ofInt (toInt sc₁))
    let m₁ := ops.mul min (ops.ofInt (toInt m₁))
    let d₂ := ops.mul d (ops.ofInt (toInt sc₂))
    let m₂ := ops.mul min (ops.ofInt (toInt m₂))
    (List.range 32).map (fun l => ops.sub (ops.mul d₁ (ops.ofInt (toInt (q l &&& 0xF)))) m₁) ++
      (List.range 32).map fun l => ops.sub (ops.mul d₂ (ops.ofInt (toInt (q l >>> 4)))) m₂

/-- The four words `aux` of the unpacked scales of a Q3_K block. -/
def q3kScaleWords (raw : Bytes) : List UInt32 :=
  let kmask1 : UInt32 := 0x03030303
  let kmask2 : UInt32 := 0x0f0f0f0f
  let aux (i : ℕ) := uint32At raw (96 + 4 * i)
  let tmp := aux 2
  [(aux 0 &&& kmask2) ||| ((tmp >>> 0) &&& kmask1) <<< 4,
    (aux 1 &&& kmask2) ||| ((tmp >>> 2) &&& kmask1) <<< 4,
    ((aux 0 >>> 4) &&& kmask2) ||| ((tmp >>> 4) &&& kmask1) <<< 4,
    ((aux 1 >>> 4) &&& kmask2) ||| ((tmp >>> 6) &&& kmask1) <<< 4]

/-- The scales of a Q3_K block, as signed bytes. -/
def q3kScales (raw : Bytes) : Bytes := (q3kScaleWords raw).flatMap fun w => Bytes.ofNat 4 w.toNat

/-- `dequant_q3k_block`. -/
def dequantQ3KBlock (raw : Bytes) : List α :=
  let dAll := fp16At ops raw 108
  let scales := q3kScales raw
  (List.range 2).flatMap fun n =>
    (List.range 4).flatMap fun j =>
      -- the bits of the quants in the round `j` of the half `n`, and the bit of the mask
      let shift : UInt8 := .ofNat (2 * j)
      let m : UInt8 := (1 : UInt8) <<< .ofNat (4 * n + j)
      (List.range 2).flatMap fun half =>
        let scale := int8At scales (8 * n + 2 * j + half)
        let dl := ops.mul dAll (ops.ofInt (scale - 32))
        (List.range 16).map fun l =>
          let low := toInt ((byteAt raw (32 + 32 * n + 16 * half + l) >>> shift) &&& 3)
          let high : Int32 := if byteAt raw (16 * half + l) &&& m ≠ 0 then 0 else 4
          ops.mul dl (ops.ofInt (low - high))

/-- `dequant_q8_0_block`. -/
def dequantQ8_0Block (raw : Bytes) : List α :=
  let d := fp16At ops raw 0
  (List.range 32).map fun i => ops.mul d (ops.ofInt (int8At raw (2 + i)))

/-- The quants of a Q5_0 or Q5_1 block with the high bits at `qh` and the nibbles at `qs`: the
number `x0` or `x1` of each round. -/
def q5Low (raw : Bytes) (qh qs j : ℕ) : Int32 :=
  let xh₀ : UInt8 := ((((uint32At raw qh) >>> .ofNat j) <<< 4) &&& 0x10).toUInt8
  toInt (byteAt raw (qs + j) &&& 0x0F ||| xh₀)

/-- The upper element of a byte in `Q5_0` and `Q5_1`, with its fifth bit. -/
def q5High (raw : Bytes) (qh qs j : ℕ) : Int32 :=
  let xh₁ : UInt8 := (((uint32At raw qh) >>> .ofNat (j + 12)) &&& 0x10).toUInt8
  toInt (byteAt raw (qs + j) >>> 4 ||| xh₁)

/-- `dequant_q5_0_block`. -/
def dequantQ5_0Block (raw : Bytes) : List α :=
  let d := fp16At ops raw 0
  (List.range 16).map (fun j => ops.mul (ops.ofInt (q5Low raw 2 6 j - 16)) d) ++
    (List.range 16).map fun j => ops.mul (ops.ofInt (q5High raw 2 6 j - 16)) d

/-- `dequant_q5_1_block`. -/
def dequantQ5_1Block (raw : Bytes) : List α :=
  let d := fp16At ops raw 0
  let m := fp16At ops raw 2
  (List.range 16).map (fun j => ops.add (ops.mul (ops.ofInt (q5Low raw 4 8 j)) d) m) ++
    (List.range 16).map fun j => ops.add (ops.mul (ops.ofInt (q5High raw 4 8 j)) d) m

/-- `dequant_q6_k_block`. -/
def dequantQ6KBlock (raw : Bytes) : List α :=
  let d := fp16At ops raw 208
  (List.range 2).flatMap fun n =>
    let ql (l : ℕ) := byteAt raw (64 * n + l)
    let qh (l : ℕ) := byteAt raw (128 + 32 * n + l)
    let sc (i : ℕ) := int8At raw (192 + 8 * n + i)
    -- the quarter `k` of the half: its nibbles and the shift of its high bits
    let quant (k l : ℕ) : Int32 :=
      let low := ql (l + 32 * (k % 2))
      let nibble := if k < 2 then low &&& 0xF else low >>> 4
      toInt (nibble ||| ((qh l >>> .ofNat (2 * k)) &&& 3) <<< 4) - 32
    (List.range 4).flatMap fun k =>
      (List.range 32).map fun l =>
        ops.mul (ops.mul d (ops.ofInt (sc (l / 16 + 2 * k)))) (ops.ofInt (quant k l))

/-! ## Threads -/

/-- How many threads there are, as `hardware_concurrency` has it, and in which order the ranges
that they are given are worked off. -/
structure Threads where
  hardwareConcurrency : UInt32 := 1
  order : Traversal (UInt64 × UInt64) := .stored

namespace Threads

variable (threads : Threads)

/-- `num_threads`. -/
def count : UInt32 :=
  let hw := if threads.hardwareConcurrency = 0 then 1 else threads.hardwareConcurrency
  if hw < 4 then hw else 4

/-- The range of the items that the thread `t` is given, of `n` items. -/
def range (n perThread : UInt64) (t : ℕ) : UInt64 × UInt64 :=
  let start := .ofNat t * perThread
  (start, if start + perThread < n then start + perThread else n)

/-- The ranges of `n` items that are worked off; below `threshold` items there is one. -/
def ranges (n threshold : UInt64) : List (UInt64 × UInt64) :=
  if threads.count ≤ 1 ∨ n < threshold then [(0, n)]
  else
    let perThread := (n + threads.count.toUInt64 - 1) / threads.count.toUInt64
    threads.order.visit ((List.range threads.count.toNat).map (range n perThread))

/-- The items of a range. -/
def items (r : UInt64 × UInt64) : List ℕ := List.range' r.1.toNat (r.2.toNat - r.1.toNat)

/-- The items of all ranges, in the order in which they are worked off. -/
def schedule (n threshold : UInt64) : List ℕ := (threads.ranges n threshold).flatMap items

variable {threads}

theorem count_le (threads : Threads) : threads.count.toNat ≤ 4 := by
  obtain ⟨hw, hcount⟩ : ∃ hw : UInt32, threads.count = if hw < 4 then hw else 4 := ⟨_, rfl⟩
  rw [hcount]
  split
  next h => exact (UInt32.lt_iff_toNat_lt.mp h).le
  next => exact Nat.le_refl _

/-- The items of one of `c` threads, in numbers that do not wrap. -/
theorem mem_items_range {n perThread : UInt64} {c t i : ℕ} (ht : t < c)
    (hwrap : c * perThread.toNat < 2 ^ 64) :
    i ∈ items (range n perThread t) ↔
      t * perThread.toNat ≤ i ∧ i < t * perThread.toNat + perThread.toNat ∧ i < n.toNat := by
  have hfits : t * perThread.toNat + perThread.toNat < 2 ^ 64 := by
    rw [← Nat.succ_mul]
    exact Nat.lt_of_le_of_lt (Nat.mul_le_mul_right _ ht) hwrap
  have hstart : (UInt64.ofNat t * perThread).toNat = t * perThread.toNat := by
    rw [UInt64.toNat_mul, UInt64.toNat_ofNat', Nat.mod_mul_mod]
    exact Nat.mod_eq_of_lt (by omega)
  have hend : (UInt64.ofNat t * perThread + perThread).toNat =
      t * perThread.toNat + perThread.toNat := by
    rw [UInt64.toNat_add, hstart]
    exact Nat.mod_eq_of_lt hfits
  unfold items range
  dsimp only
  rw [List.mem_range'_1, hstart]
  split
  next hlt =>
    rw [UInt64.lt_iff_toNat_lt, hend] at hlt
    rw [hend]
    omega
  next hlt =>
    rw [UInt64.lt_iff_toNat_lt, hend] at hlt
    omega

variable (threads) in
/-- The share of a thread, rounded up, when there are several. -/
theorem share_spec {n : UInt64} (hn : n.toNat + 3 < 2 ^ 64) (hmany : ¬threads.count ≤ 1) :
    let perThread := (n + threads.count.toUInt64 - 1) / threads.count.toUInt64
    n.toNat ≤ threads.count.toNat * perThread.toNat ∧
      threads.count.toNat * perThread.toNat < 2 ^ 64 := by
  intro perThread
  have hcount : 1 < threads.count.toNat := by
    rw [UInt32.not_le, UInt32.lt_iff_toNat_lt] at hmany
    exact hmany
  have hle := threads.count_le
  set c := threads.count.toNat with hc
  -- the rounding up, without the wraps of 64 bits
  have hshare : perThread.toNat = (n.toNat + c - 1) / c := by
    have hsub : n + threads.count.toUInt64 - 1 = n + (threads.count.toUInt64 - 1) := by
      grind
    have hone : (1 : UInt64) ≤ threads.count.toUInt64 := by
      rw [UInt64.le_iff_toNat_le, UInt32.toNat_toUInt64]
      exact hcount.le
    rw [UInt64.toNat_div, hsub, UInt64.toNat_add, UInt64.toNat_sub_of_le _ _ hone,
      UInt32.toNat_toUInt64, ← hc, Nat.mod_eq_of_lt (by simp; omega)]
    congr 1
    simp
    omega
  have hround := Nat.lt_mul_div_succ (n.toNat + c - 1) (show 0 < c by omega)
  have hdown := Nat.mul_div_le (n.toNat + c - 1) c
  rw [Nat.mul_add] at hround
  rw [hshare]
  omega

/-- Every item is worked off, and no other. -/
theorem mem_schedule_iff (threads : Threads) {n threshold : UInt64} (hn : n.toNat + 3 < 2 ^ 64)
    (i : ℕ) : i ∈ threads.schedule n threshold ↔ i < n.toNat := by
  unfold schedule ranges
  split
  · simp [items, List.mem_range'_1]
  next hmany =>
    obtain ⟨hcover, hwrap⟩ := threads.share_spec hn fun hone => hmany (.inl hone)
    set perThread := (n + threads.count.toUInt64 - 1) / threads.count.toUInt64
    simp only [List.mem_flatMap, Traversal.mem_visit, List.mem_map, List.mem_range,
      exists_exists_and_eq_and]
    constructor
    · rintro ⟨t, ht, hi⟩
      exact ((mem_items_range ht hwrap).mp hi).2.2
    · intro hi
      have hpos : 0 < perThread.toNat :=
        Nat.pos_of_ne_zero fun hzero => by rw [hzero, Nat.mul_zero] at hcover; omega
      have ht : i / perThread.toNat < threads.count.toNat :=
        Nat.div_lt_of_lt_mul (Nat.mul_comm .. ▸ Nat.lt_of_lt_of_le hi hcover)
      refine ⟨i / perThread.toNat, ht, (mem_items_range ht hwrap).mpr ⟨?_, ?_, hi⟩⟩
      · exact Nat.div_mul_le_self i perThread.toNat
      · exact Nat.lt_div_mul_add hpos

end Threads

/-! ## Tensors -/

/-- The block number `b`. -/
def blockAt (raw : Bytes) (rawBlockBytes b : ℕ) : Bytes :=
  (raw.drop (b * rawBlockBytes)).take rawBlockBytes

/-- A block format: its sizes and its decoder. -/
structure BlockFormat (α : Type) where
  blockSize : UInt64
  rawBlockBytes : UInt64
  decode : Bytes → List α
  blockSize_pos : 0 < blockSize
  length_decode : ∀ raw, (decode raw).length = blockSize.toNat

namespace BlockFormat

@[simp]
theorem length_flatMap_range {β : Type} {n k : ℕ} {f : ℕ → List β} (h : ∀ i, (f i).length = k) :
    ((List.range n).flatMap f).length = n * k := by
  simp [List.length_flatMap, h]

def q4k : BlockFormat α where
  blockSize := 256
  rawBlockBytes := 144
  decode := dequantQ4KBlock ops
  blockSize_pos := by decide
  length_decode raw := by simp [dequantQ4KBlock]

def q3k : BlockFormat α where
  blockSize := 256
  rawBlockBytes := 110
  decode := dequantQ3KBlock ops
  blockSize_pos := by decide
  length_decode raw := by simp [dequantQ3KBlock]

def q8_0 : BlockFormat α where
  blockSize := 32
  rawBlockBytes := 34
  decode := dequantQ8_0Block ops
  blockSize_pos := by decide
  length_decode raw := by simp [dequantQ8_0Block]

def q5_0 : BlockFormat α where
  blockSize := 32
  rawBlockBytes := 22
  decode := dequantQ5_0Block ops
  blockSize_pos := by decide
  length_decode raw := by simp [dequantQ5_0Block]

def q5_1 : BlockFormat α where
  blockSize := 32
  rawBlockBytes := 24
  decode := dequantQ5_1Block ops
  blockSize_pos := by decide
  length_decode raw := by simp [dequantQ5_1Block]

def q6k : BlockFormat α where
  blockSize := 256
  rawBlockBytes := 210
  decode := dequantQ6KBlock ops
  blockSize_pos := by decide
  length_decode raw := by simp [dequantQ6KBlock]

/-- The elements of `n` blocks, one behind the other. -/
def decodeBlocks (f : BlockFormat α) (raw : Bytes) (n : ℕ) : List α :=
  (List.range n).flatMap fun b => f.decode (blockAt raw f.rawBlockBytes.toNat b)

end BlockFormat

/-- `parallel_dequant`: its result and the destination buffer. A null pointer is an empty list, the
content of a vector that has none. -/
def parallelDequant (threads : Threads) (f : BlockFormat α) (raw : Bytes) (dst : List α)
    (nElements : UInt64) : Bool × List α :=
  if raw = [] ∨ dst = [] ∨ nElements = 0 then (false, dst)
  else if nElements % f.blockSize ≠ 0 then (false, dst)
  else
    (true, Buffer.writeRows f.blockSize.toNat
      (fun b => f.decode (blockAt raw f.rawBlockBytes.toNat b))
      (threads.schedule (nElements / f.blockSize) 256) dst)

/-- `dequant_f16`. -/
def dequantF16 (threads : Threads) (raw : Bytes) (dst : List α) (nElements : UInt64) : List α :=
  if raw = [] ∨ dst = [] ∨ nElements = 0 then dst
  else
    Buffer.writeRows 1 (fun i => [fp16At ops raw (2 * i)])
      (threads.schedule nElements 131072) dst

section Results

variable {ops} {threads : Threads} {raw : Bytes} {dst : List α} {nElements : UInt64}

/-- However the blocks are shared out, the destination holds them one behind the other. -/
theorem parallelDequant_eq {f : BlockFormat α} (hraw : raw ≠ []) (hpos : nElements ≠ 0)
    (hblocks : nElements % f.blockSize = 0) (hdst : dst.length = nElements.toNat)
    (hsize : nElements.toNat < 2 ^ 62) :
    parallelDequant threads f raw dst nElements =
      (true, f.decodeBlocks raw (nElements.toNat / f.blockSize.toNat)) := by
  have hdst' : dst ≠ [] := by
    rintro rfl
    exact hpos (UInt64.toNat_inj.mp hdst.symm)
  have hdiv : (nElements / f.blockSize).toNat = nElements.toNat / f.blockSize.toNat :=
    UInt64.toNat_div ..
  have hlength : dst.length = nElements.toNat / f.blockSize.toNat * f.blockSize.toNat := by
    have hmod := congrArg UInt64.toNat hblocks
    rw [UInt64.toNat_mod] at hmod
    rw [hdst, Nat.div_mul_cancel (Nat.dvd_of_mod_eq_zero hmod)]
  rw [parallelDequant, if_neg (by simp [hraw, hdst', hpos]), if_neg (by simp [hblocks])]
  rw [Buffer.writeRows_eq_flatMap (fun b => f.length_decode _) ?_ hlength]
  · rfl
  · intro i
    rw [threads.mem_schedule_iff, hdiv]
    have := Nat.div_le_self nElements.toNat f.blockSize.toNat
    omega

/-- However the elements are shared out, the destination holds all of them. -/
theorem dequantF16_eq (hraw : raw ≠ []) (hpos : nElements ≠ 0)
    (hdst : dst.length = nElements.toNat) (hsize : nElements.toNat < 2 ^ 62) :
    dequantF16 ops threads raw dst nElements =
      (List.range nElements.toNat).map fun i => fp16At ops raw (2 * i) := by
  have hdst' : dst ≠ [] := by
    rintro rfl
    exact hpos (UInt64.toNat_inj.mp hdst.symm)
  have hrows : ∀ i, [fp16At ops raw (2 * i)].length = 1 := fun _ => rfl
  rw [dequantF16, if_neg (by simp [hraw, hdst', hpos]),
    Buffer.writeRows_eq_flatMap hrows (fun i => threads.mem_schedule_iff (by omega) i)
      (by rw [hdst, Nat.mul_one])]
  exact List.flatMap_pure_eq_map ..

end Results

end HeteroAccel
