import HeteroAccel.HydroXL.HalfFloats
import HeteroAccel.Lib.BitFields
import Mathlib.Tactic.IntervalCases

/-!
# The layouts of the quantized blocks

A block of each format as its fields, the bytes in which the format packs them, and the decoders on
these bytes. In exact arithmetic a decoder gives at every position the value that the format
documents (`decoders_undo_packing`).

## Main definitions

* `Q4KBlock`, `Q3KBlock`, `Q6KBlock`, `Q5_0Block`, `Q5_1Block`: the fields of a block;
* `pack`, `value`: its bytes and the number that stands at a position.
-/

namespace HeteroAccel

/-! ## Fields and sections -/

/-- The entry number `i` of a vector of numbers below `w`. -/
def entry {n w : ℕ} [NeZero n] (v : Fin n → Fin w) (i : ℕ) : ℕ := v (.ofNat n i)

/-- An entry of a vector is below its bound. -/
theorem entry_lt {n w : ℕ} [NeZero n] (v : Fin n → Fin w) (i : ℕ) : entry v i < w := (v _).isLt

/-- A section of a block: its bytes by their numbers. -/
def byteSection (n : ℕ) (byte : ℕ → ℕ) : Bytes := (List.range n).map fun k => .ofNat (byte k)

/-- A section has as many bytes as it is asked for. -/
@[simp]
theorem length_byteSection (n : ℕ) (byte : ℕ → ℕ) : (byteSection n byte).length = n := by
  simp [byteSection]

theorem getD_byteSection {n k : ℕ} {byte : ℕ → ℕ} (hk : k < n) (hbyte : byte k < 256) :
    ((byteSection n byte).getD k 0).toNat = byte k := by
  simp [byteSection, List.getD_eq_getElem?_getD, hk, Nat.mod_eq_of_lt hbyte]

section Sections

variable {raw : Bytes} (front back : Bytes) {p : ℕ}

/-- A byte of a section. -/
theorem byteAt_section {n k : ℕ} {byte : ℕ → ℕ}
    (hraw : raw = front ++ (byteSection n byte ++ back)) (hp : front.length = p) (hk : k < n)
    (hbyte : byte k < 256) : (byteAt raw (p + k)).toNat = byte k := by
  rw [byteAt, hraw, ← hp, List.getD_append_right _ _ _ _ (Nat.le_add_right _ _),
    Nat.add_sub_cancel_left, List.getD_append _ _ _ _ (by rwa [length_byteSection])]
  exact getD_byteSection hk hbyte

/-- The bytes of a number. -/
theorem take_drop_ofNat {width n : ℕ} (hraw : raw = front ++ (Bytes.ofNat width n ++ back))
    (hp : front.length = p) : (raw.drop p).take width = Bytes.ofNat width n := by
  rw [hraw, ← hp, List.drop_left, List.take_left' (Bytes.length_ofNat width n)]

/-- A half-precision number. -/
theorem uint16At_section {v : UInt16} (hraw : raw = front ++ (Bytes.ofNat 2 v.toNat ++ back))
    (hp : front.length = p) : uint16At raw p = v := by
  rw [uint16At, take_drop_ofNat front back hraw hp, Bytes.toNat_ofNat_of_lt v.toNat_lt]
  exact UInt16.toNat_inj.mp (UInt16.toNat_ofNat_of_lt' v.toNat_lt)

/-- A little-endian word. -/
theorem uint32At_section {n : ℕ} (hraw : raw = front ++ (Bytes.ofNat 4 n ++ back))
    (hp : front.length = p) (hn : n < 2 ^ 32) : (uint32At raw p).toNat = n := by
  rw [uint32At, take_drop_ofNat front back hraw hp, Bytes.toNat_ofNat_of_lt hn]
  exact UInt32.toNat_ofNat_of_lt' hn

end Sections

/-- The bytes of a word are those at its place. -/
theorem byteOf_uint32At (raw : Bytes) (p : ℕ) {i : ℕ} (hi : i < 4) :
    Bytes.byteOf (uint32At raw p).toNat i = (byteAt raw (p + i)).toNat := by
  have hlt : Bytes.toNat ((raw.drop p).take 4) < 2 ^ 32 := by
    refine Nat.lt_of_lt_of_le (Bytes.toNat_lt _) ?_
    rw [show 2 ^ 32 = 256 ^ 4 from rfl]
    exact Nat.pow_le_pow_right (by decide) (List.length_take_le ..)
  rw [uint32At, UInt32.toNat_ofNat_of_lt' hlt, Bytes.byteOf_toNat, byteAt,
    List.getD_eq_getElem?_getD, List.getD_eq_getElem?_getD, List.getElem?_take_of_lt hi,
    List.getElem?_drop]

/-- Words one behind the other. -/
theorem byteAt_flatMap_words (words : List UInt32) {w i : ℕ} (hw : w < words.length) (hi : i < 4) :
    (byteAt (words.flatMap fun v => Bytes.ofNat 4 v.toNat) (4 * w + i)).toNat =
      Bytes.byteOf words[w].toNat i := by
  induction words generalizing w with
  | nil => exact absurd hw (Nat.not_lt_zero w)
  | cons v words ih =>
    rw [List.flatMap_cons, byteAt]
    cases w with
    | zero =>
      rw [Nat.mul_zero, Nat.zero_add, List.getD_append _ _ _ _ (by rwa [Bytes.length_ofNat]),
        Bytes.getD_ofNat _ hi]
      rfl
    | succ w =>
      rw [List.getD_append_right _ _ _ _ (by rw [Bytes.length_ofNat]; omega), Bytes.length_ofNat,
        show 4 * (w + 1) + i - 4 = 4 * w + i by omega]
      exact ih (Nat.lt_of_succ_lt_succ hw)

/-- Elements in groups of `width` are the elements one behind the other. -/
theorem flatMap_range_map {β : Type} (groups width : ℕ) (f : ℕ → β) :
    ((List.range groups).flatMap fun g => (List.range width).map fun l => f (width * g + l)) =
      (List.range (groups * width)).map f := by
  induction groups with
  | zero => simp
  | succ groups ih =>
    rw [List.range_succ, List.flatMap_append, List.flatMap_singleton, ih, Nat.succ_mul,
      List.range_add, List.map_append, List.map_map, Nat.mul_comm width]
    rfl

/-! ## Numbers -/

theorem toInt_toInt (b : UInt8) : (toInt b).toInt = b.toNat := by
  have hb := b.toNat_lt
  rw [toInt, Int32.toInt_ofNat_of_lt (by simp; omega)]

/-- A signed byte that is not negative. -/
theorem toInt_toInt8 {b : UInt8} (h : b.toNat < 128) : b.toInt8.toInt = b.toNat :=
  BitVec.toInt_eq_toNat_of_lt (show 2 * b.toNat < 2 ^ 8 by omega)

/-- A difference of small numbers. -/
theorem toInt_sub_of_small {x y : Int32} {m n : ℕ} (hx : x.toInt = m) (hy : y.toInt = n)
    (hm : m < 256) (hn : n < 256) : (x - y).toInt = m - n := by
  rw [Int32.toInt_sub, hx, hy]
  exact Int.bmod_eq_of_le (by norm_num; omega) (by norm_num; omega)

/-! ## Q4_K -/

/-- The fields of a Q4_K block: 8 groups of 32 elements. -/
structure Q4KBlock where
  d : Half
  dmin : Half
  scale : Fin 8 → Fin 64
  min : Fin 8 → Fin 64
  quant : Fin 256 → Fin 16

namespace Q4KBlock

variable {α δ : Type} (b : Q4KBlock)

/-- The scales and the minimums: six bits each in twelve bytes. -/
def scaleByte (k : ℕ) : ℕ :=
  if k < 4 then entry b.scale k + 64 * (entry b.scale (k + 4) / 16)
  else if k < 8 then entry b.min (k - 4) + 64 * (entry b.min k / 16)
  else entry b.scale (k - 4) % 16 + 16 * (entry b.min (k - 4) % 16)

/-- The quants of 64 elements in 32 bytes. -/
def quantByte (k : ℕ) : ℕ :=
  entry b.quant (64 * (k / 32) + k % 32) + 16 * entry b.quant (64 * (k / 32) + 32 + k % 32)

/-- The bytes of the block. -/
def pack : Bytes :=
  Bytes.ofNat 2 b.d.bits.toNat ++ (Bytes.ofNat 2 b.dmin.bits.toNat ++
    (byteSection 12 b.scaleByte ++ byteSection 128 b.quantByte))

/-- The number at a position. -/
def value (i : ℕ) : ℚ :=
  b.d.value * entry b.scale (i / 32) * entry b.quant i - b.dmin.value * entry b.min (i / 32)

theorem scaleByte_lt (k : ℕ) : b.scaleByte k < 256 := by
  have hs := entry_lt b.scale
  have hm := entry_lt b.min
  unfold scaleByte
  split_ifs
  · have := hs k; have := hs (k + 4); omega
  · have := hm (k - 4); have := hm k; omega
  · omega

theorem quantByte_lt (k : ℕ) : b.quantByte k < 256 := by
  have h := entry_lt b.quant
  have h₁ := h (64 * (k / 32) + k % 32)
  have h₂ := h (64 * (k / 32) + 32 + k % 32)
  unfold quantByte
  omega

theorem uint16At_pack : uint16At b.pack 0 = b.d.bits ∧ uint16At b.pack 2 = b.dmin.bits :=
  ⟨uint16At_section [] _ (List.nil_append _).symm rfl,
    uint16At_section (Bytes.ofNat 2 b.d.bits.toNat) _ rfl (Bytes.length_ofNat ..)⟩

theorem byteAt_scales {k : ℕ} (hk : k < 12) : (byteAt b.pack (4 + k)).toNat = b.scaleByte k :=
  byteAt_section (Bytes.ofNat 2 b.d.bits.toNat ++ Bytes.ofNat 2 b.dmin.bits.toNat) _
    (List.append_assoc ..).symm (by simp) hk (b.scaleByte_lt k)

theorem byteAt_quants {k : ℕ} (hk : k < 128) : (byteAt b.pack (16 + k)).toNat = b.quantByte k :=
  byteAt_section (Bytes.ofNat 2 b.d.bits.toNat ++ (Bytes.ofNat 2 b.dmin.bits.toNat ++
      byteSection 12 b.scaleByte)) []
    (by simp [pack]) (by simp) hk (b.quantByte_lt k)

theorem toNat_lowNibble {k : ℕ} (hk : k < 128) :
    (byteAt b.pack (16 + k) &&& 0xF).toNat = entry b.quant (64 * (k / 32) + k % 32) := by
  have h := entry_lt b.quant (64 * (k / 32) + k % 32)
  rw [UInt8.toNat_and_mask _ (k := 4) rfl, b.byteAt_quants hk, quantByte]
  omega

theorem toNat_highNibble {k : ℕ} (hk : k < 128) :
    (byteAt b.pack (16 + k) >>> 4).toNat = entry b.quant (64 * (k / 32) + 32 + k % 32) := by
  have h := entry_lt b.quant (64 * (k / 32) + k % 32)
  rw [UInt8.toNat_shiftRight_field _ (k := 4) rfl (by decide), b.byteAt_quants hk, quantByte]
  omega

/-- The scales and the minimums are the ones that are packed. -/
theorem getScaleMinK4_pack {j : ℕ} (hj : j < 8) :
    (getScaleMinK4 b.pack 4 j).1.toNat = entry b.scale j ∧
      (getScaleMinK4 b.pack 4 j).2.toNat = entry b.min j := by
  have hs := entry_lt b.scale j
  have hm := entry_lt b.min j
  unfold getScaleMinK4
  dsimp only
  by_cases hlow : j < 4
  · -- six bits of one byte
    have h₁ := b.byteAt_scales (k := j) (by omega)
    have h₂ := b.byteAt_scales (k := j + 4) (by omega)
    rw [scaleByte, if_pos hlow] at h₁
    rw [scaleByte, if_neg (by omega), if_pos (by omega), Nat.add_sub_cancel] at h₂
    rw [if_pos hlow, if_pos hlow, UInt8.toNat_and_mask _ (k := 6) rfl,
      UInt8.toNat_and_mask _ (k := 6) rfl, h₁, h₂]
    omega
  · -- four bits of one byte and two of another
    have h₁ := b.byteAt_scales (k := j + 4) (by omega)
    have h₂ := b.byteAt_scales (k := j - 4) (by omega)
    have h₃ := b.byteAt_scales (k := j) (by omega)
    rw [scaleByte, if_neg (by omega), if_neg (by omega), Nat.add_sub_cancel] at h₁
    rw [scaleByte, if_pos (by omega), Nat.sub_add_cancel (by omega)] at h₂
    rw [scaleByte, if_neg hlow, if_pos hj] at h₃
    have hs' := entry_lt b.scale (j - 4)
    have hm' := entry_lt b.min (j - 4)
    rw [if_neg hlow, if_neg hlow]
    constructor
    · have hlo := UInt8.toNat_and_mask (byteAt b.pack (4 + (j + 4))) (k := 4)
        (show (0xF : UInt8).toNat = 2 ^ 4 - 1 from rfl)
      have hhi := UInt8.toNat_shiftRight_field (byteAt b.pack (4 + (j - 4))) (s := 6) (k := 6) rfl
        (by decide)
      rw [h₁] at hlo
      rw [h₂] at hhi
      rw [UInt8.toNat_join (k := 4) rfl (by decide) (by omega) (by omega), hlo, hhi]
      omega
    · have hlo := UInt8.toNat_shiftRight_field (byteAt b.pack (4 + (j + 4))) (s := 4) (k := 4) rfl
        (by decide)
      have hhi := UInt8.toNat_shiftRight_field (byteAt b.pack (4 + j)) (s := 6) (k := 6) rfl
        (by decide)
      rw [h₁] at hlo
      rw [h₃] at hhi
      rw [UInt8.toNat_join (k := 4) rfl (by decide) (by omega) (by omega), hlo, hhi]
      omega

section Decode

variable [Field α] [LinearOrder α] [IsStrictOrderedRing α] {ops : TensorOps α δ}

/-- The decoder gives the value at every position. -/
theorem decode_pack (hops : ops.IsExact) (hfloats : ops.ReadsFloats) :
    dequantQ4KBlock ops b.pack = (List.range 256).map fun i => ((b.value i : ℚ) : α) := by
  have hd : fp16At ops b.pack 0 = (b.d.value : α) := by
    rw [fp16At, b.uint16At_pack.1, fp16ToFloat_eq hfloats]
  have hdmin : fp16At ops b.pack 2 = (b.dmin.value : α) := by
    rw [fp16At, b.uint16At_pack.2, fp16ToFloat_eq hfloats]
  rw [show 256 = 4 * 64 from rfl, ← flatMap_range_map, dequantQ4KBlock]
  refine List.flatMap_congr fun j hj => ?_
  have hj := List.mem_range.mp hj
  obtain ⟨hsc₁, hm₁⟩ := b.getScaleMinK4_pack (j := 2 * j) (by omega)
  obtain ⟨hsc₂, hm₂⟩ := b.getScaleMinK4_pack (j := 2 * j + 1) (by omega)
  rw [show 64 = 32 + 32 from rfl, List.range_add, List.map_append, List.map_map]
  dsimp only
  congr 1
  · refine List.map_congr_left fun l hl => ?_
    have hl := List.mem_range.mp hl
    have hq := b.toNat_lowNibble (k := 32 * j + l) (by omega)
    rw [← Nat.add_assoc] at hq
    simp only [hops.sub, hops.mul, hops.ofInt, toInt_toInt, hd, hdmin, hsc₁, hm₁, hq, value]
    rw [show (32 * j + l) / 32 = j by omega, show (32 * j + l) % 32 = l by omega,
      show ((32 + 32) * j + l) / 32 = 2 * j by omega]
    push_cast
    rfl
  · refine List.map_congr_left fun l hl => ?_
    have hl := List.mem_range.mp hl
    have hq := b.toNat_highNibble (k := 32 * j + l) (by omega)
    rw [← Nat.add_assoc] at hq
    simp only [hops.sub, hops.mul, hops.ofInt, toInt_toInt, hd, hdmin, hsc₂, hm₂, hq, value,
      Function.comp_apply]
    rw [show (32 * j + l) / 32 = j by omega, show (32 * j + l) % 32 = l by omega,
      show ((32 + 32) * j + (32 + l)) / 32 = 2 * j + 1 by omega, Nat.add_assoc]
    push_cast
    rfl

end Decode

end Q4KBlock

/-! ## Q5_0 and Q5_1 -/

section Q5

variable (quant : Fin 32 → Fin 32)

/-- The fifth bits of 32 quants. -/
def q5HighBits : ℕ := Nat.ofBits fun e : Fin 32 => decide (16 ≤ (quant e).val)

/-- The nibbles of the quants `k` and `k + 16`. -/
def q5Nibbles (k : ℕ) : ℕ := entry quant k % 16 + 16 * (entry quant (k + 16) % 16)

theorem q5HighBits_lt : q5HighBits quant < 2 ^ 32 := Nat.ofBits_lt_two_pow _

theorem q5Nibbles_lt (k : ℕ) : q5Nibbles quant k < 256 := by
  unfold q5Nibbles
  omega

theorem testBit_q5HighBits {i : ℕ} (hi : i < 32) :
    (q5HighBits quant).testBit i = decide (16 ≤ entry quant i) := by
  rw [q5HighBits, Nat.testBit_ofBits_lt _ i hi, entry]
  have hindex : (⟨i, hi⟩ : Fin 32) = .ofNat 32 i := Fin.ext (Nat.mod_eq_of_lt hi).symm
  rw [hindex]

/-- The fifth bit in its place in a byte. -/
theorem toNat_fifthBit {x : UInt32} {i : ℕ} (hi : i < 32)
    (hbit : x.toNat.testBit 4 = (q5HighBits quant).testBit i) :
    (x &&& 0x10).toUInt8.toNat = 2 ^ 4 * (entry quant i / 16) := by
  have hq := entry_lt quant i
  rw [testBit_q5HighBits quant hi] at hbit
  rw [UInt32.toNat_toUInt8, UInt32.toNat_and]
  change (x.toNat &&& 2 ^ 4) % 256 = _
  rw [Nat.and_two_pow, hbit]
  by_cases hlarge : 16 ≤ entry quant i
  · have hone : entry quant i / 16 = 1 := by omega
    simp [hlarge, hone]
  · have hnone : entry quant i / 16 = 0 := by omega
    simp [hlarge, hnone]

variable {quant} {raw : Bytes} {qh qs : ℕ} (hhigh : (uint32At raw qh).toNat = q5HighBits quant)
  (hlow : ∀ k < 16, (byteAt raw (qs + k)).toNat = q5Nibbles quant k)

include hhigh hlow

/-- The decoded quants of the first half. -/
theorem toInt_q5Low {j : ℕ} (hj : j < 16) : (q5Low raw qh qs j).toInt = entry quant j := by
  have hq := entry_lt quant j
  -- the fifth bit, in its place
  have hxh : (((uint32At raw qh >>> .ofNat j) <<< 4) &&& 0x10).toUInt8.toNat =
      2 ^ 4 * (entry quant j / 16) := by
    apply toNat_fifthBit quant (by omega)
    have hshift : (UInt32.ofNat j).toNat % 32 = j := by
      rw [UInt32.toNat_ofNat', Nat.mod_mod_of_dvd _ (by decide), Nat.mod_eq_of_lt (by omega)]
    rw [UInt32.toNat_shiftLeft, UInt32.toNat_shiftRight, hshift, ← hhigh, Nat.testBit_mod_two_pow,
      show (4 : UInt32).toNat % 32 = 4 from rfl, Nat.testBit_shiftLeft, Nat.testBit_shiftRight]
    rfl
  have hnibble : (byteAt raw (qs + j) &&& 0x0F).toNat = entry quant j % 16 := by
    rw [UInt8.toNat_and_mask _ (k := 4) rfl, hlow j hj, q5Nibbles]
    omega
  rw [q5Low, toInt_toInt, UInt8.toNat_or_field (by omega) hxh, hnibble]
  omega

/-- The decoded quants of the second half. -/
theorem toInt_q5High {j : ℕ} (hj : j < 16) : (q5High raw qh qs j).toInt = entry quant (j + 16) := by
  have hq := entry_lt quant (j + 16)
  have hxh : ((uint32At raw qh >>> .ofNat (j + 12)) &&& 0x10).toUInt8.toNat =
      2 ^ 4 * (entry quant (j + 16) / 16) := by
    apply toNat_fifthBit quant (by omega)
    have hshift : (UInt32.ofNat (j + 12)).toNat % 32 = j + 12 := by
      rw [UInt32.toNat_ofNat', Nat.mod_mod_of_dvd _ (by decide), Nat.mod_eq_of_lt (by omega)]
    rw [UInt32.toNat_shiftRight, hshift, ← hhigh, Nat.testBit_shiftRight, Nat.add_assoc]
  have hnibble : (byteAt raw (qs + j) >>> 4).toNat = entry quant (j + 16) % 16 := by
    rw [UInt8.toNat_shiftRight_field _ (k := 4) rfl (by decide), hlow j hj, q5Nibbles]
    omega
  rw [q5High, toInt_toInt, UInt8.toNat_or_field (by omega) hxh, hnibble]
  omega

end Q5

/-- The fields of a Q5_0 block. -/
structure Q5_0Block where
  d : Half
  quant : Fin 32 → Fin 32

namespace Q5_0Block

variable {α δ : Type} (b : Q5_0Block)

/-- The bytes of the block. -/
def pack : Bytes :=
  Bytes.ofNat 2 b.d.bits.toNat ++ (Bytes.ofNat 4 (q5HighBits b.quant) ++
    byteSection 16 (q5Nibbles b.quant))

/-- The number at a position. -/
def value (i : ℕ) : ℚ := b.d.value * (entry b.quant i - 16)

/-- The decoder gives the value at every position. -/
theorem decode_pack [Field α] [LinearOrder α] [IsStrictOrderedRing α] {ops : TensorOps α δ}
    (hops : ops.IsExact) (hfloats : ops.ReadsFloats) :
    dequantQ5_0Block ops b.pack = (List.range 32).map fun i => ((b.value i : ℚ) : α) := by
  have hd : fp16At ops b.pack 0 = (b.d.value : α) := by
    have hbits : uint16At b.pack 0 = b.d.bits :=
      uint16At_section [] _ (List.nil_append _).symm rfl
    rw [fp16At, hbits, fp16ToFloat_eq hfloats]
  have hhigh : (uint32At b.pack 2).toNat = q5HighBits b.quant :=
    uint32At_section (Bytes.ofNat 2 b.d.bits.toNat) _ rfl (Bytes.length_ofNat ..)
      (q5HighBits_lt _)
  have hlow : ∀ k < 16, (byteAt b.pack (6 + k)).toNat = q5Nibbles b.quant k := fun k hk =>
    byteAt_section (Bytes.ofNat 2 b.d.bits.toNat ++ Bytes.ofNat 4 (q5HighBits b.quant)) []
      (by simp [pack]) (by simp) hk (q5Nibbles_lt _ k)
  rw [dequantQ5_0Block, show 32 = 16 + 16 from rfl, List.range_add, List.map_append, List.map_map]
  congr 1
  · refine List.map_congr_left fun j hj => ?_
    have hq := toInt_q5Low hhigh hlow (List.mem_range.mp hj)
    have hdiff := toInt_sub_of_small (y := 16) (n := 16) hq rfl
      ((entry_lt b.quant j).trans (by decide)) (by decide)
    rw [hops.mul, hops.ofInt, hdiff, hd, value]
    push_cast
    ring
  · refine List.map_congr_left fun j hj => ?_
    have hq := toInt_q5High hhigh hlow (List.mem_range.mp hj)
    have hdiff := toInt_sub_of_small (y := 16) (n := 16) hq rfl
      ((entry_lt b.quant (j + 16)).trans (by decide)) (by decide)
    rw [hops.mul, hops.ofInt, hdiff, hd, Function.comp_apply, value, Nat.add_comm 16]
    push_cast
    ring

end Q5_0Block

/-- The fields of a Q5_1 block. -/
structure Q5_1Block where
  d : Half
  m : Half
  quant : Fin 32 → Fin 32

namespace Q5_1Block

variable {α δ : Type} (b : Q5_1Block)

/-- The bytes of the block. -/
def pack : Bytes :=
  Bytes.ofNat 2 b.d.bits.toNat ++ (Bytes.ofNat 2 b.m.bits.toNat ++
    (Bytes.ofNat 4 (q5HighBits b.quant) ++ byteSection 16 (q5Nibbles b.quant)))

/-- The number at a position. -/
def value (i : ℕ) : ℚ := b.d.value * entry b.quant i + b.m.value

/-- The decoder gives the value at every position. -/
theorem decode_pack [Field α] [LinearOrder α] [IsStrictOrderedRing α] {ops : TensorOps α δ}
    (hops : ops.IsExact) (hfloats : ops.ReadsFloats) :
    dequantQ5_1Block ops b.pack = (List.range 32).map fun i => ((b.value i : ℚ) : α) := by
  have hd : fp16At ops b.pack 0 = (b.d.value : α) := by
    have hbits : uint16At b.pack 0 = b.d.bits :=
      uint16At_section [] _ (List.nil_append _).symm rfl
    rw [fp16At, hbits, fp16ToFloat_eq hfloats]
  have hm : fp16At ops b.pack 2 = (b.m.value : α) := by
    have hbits : uint16At b.pack 2 = b.m.bits :=
      uint16At_section (Bytes.ofNat 2 b.d.bits.toNat) _ rfl (Bytes.length_ofNat ..)
    rw [fp16At, hbits, fp16ToFloat_eq hfloats]
  have hhigh : (uint32At b.pack 4).toNat = q5HighBits b.quant :=
    uint32At_section (Bytes.ofNat 2 b.d.bits.toNat ++ Bytes.ofNat 2 b.m.bits.toNat) _
      (List.append_assoc ..).symm (by simp) (q5HighBits_lt _)
  have hlow : ∀ k < 16, (byteAt b.pack (8 + k)).toNat = q5Nibbles b.quant k := fun k hk =>
    byteAt_section (Bytes.ofNat 2 b.d.bits.toNat ++ (Bytes.ofNat 2 b.m.bits.toNat ++
      Bytes.ofNat 4 (q5HighBits b.quant))) [] (by simp [pack]) (by simp) hk (q5Nibbles_lt _ k)
  rw [dequantQ5_1Block, show 32 = 16 + 16 from rfl, List.range_add, List.map_append, List.map_map]
  congr 1
  · refine List.map_congr_left fun j hj => ?_
    rw [hops.add, hops.mul, hops.ofInt,
      toInt_q5Low hhigh hlow (List.mem_range.mp hj), hd, hm, value]
    push_cast
    ring
  · refine List.map_congr_left fun j hj => ?_
    rw [hops.add, hops.mul, hops.ofInt, toInt_q5High hhigh hlow (List.mem_range.mp hj), hd, hm,
      Function.comp_apply, value, Nat.add_comm 16]
    push_cast
    ring

end Q5_1Block

/-! ## Q6_K -/

/-- The fields of a Q6_K block: 16 groups of 16 elements. -/
structure Q6KBlock where
  d : Half
  scale : Fin 16 → Int8
  quant : Fin 256 → Fin 64

namespace Q6KBlock

variable {α δ : Type} (b : Q6KBlock)

/-- The low nibbles: those of the first 64 elements of a half under those of the other 64. -/
def lowByte (k : ℕ) : ℕ :=
  entry b.quant (128 * (k / 64) + k % 64) % 16 +
    16 * (entry b.quant (128 * (k / 64) + 64 + k % 64) % 16)

/-- The high bits: two for each quarter of a half. -/
def highByte (k : ℕ) : ℕ :=
  let high (quarter : ℕ) : ℕ := entry b.quant (128 * (k / 32) + 32 * quarter + k % 32) / 16
  high 0 + 4 * high 1 + 16 * high 2 + 64 * high 3

/-- The bytes of the scales. -/
def scaleByte (k : ℕ) : ℕ := (b.scale (.ofNat 16 k)).toUInt8.toNat

/-- The bytes of the block. -/
def pack : Bytes :=
  byteSection 128 b.lowByte ++ (byteSection 64 b.highByte ++ (byteSection 16 b.scaleByte ++
    Bytes.ofNat 2 b.d.bits.toNat))

/-- The number at a position. -/
def value (i : ℕ) : ℚ :=
  b.d.value * (b.scale (.ofNat 16 (i / 16))).toInt * (entry b.quant i - 32)

theorem highByte_lt (k : ℕ) : b.highByte k < 256 := by
  have h (quarter : ℕ) := entry_lt b.quant (128 * (k / 32) + 32 * quarter + k % 32)
  have h₀ := h 0
  have h₁ := h 1
  have h₂ := h 2
  have h₃ := h 3
  unfold highByte
  dsimp only
  omega

theorem byteAt_low {k : ℕ} (hk : k < 128) : (byteAt b.pack k).toNat = b.lowByte k := by
  have h := byteAt_section [] _ (List.nil_append b.pack).symm rfl hk (by unfold lowByte; omega)
  rwa [List.length_nil, Nat.zero_add] at h

theorem byteAt_high {k : ℕ} (hk : k < 64) : (byteAt b.pack (128 + k)).toNat = b.highByte k :=
  byteAt_section (byteSection 128 b.lowByte) _ rfl (length_byteSection ..) hk (b.highByte_lt k)

theorem int8At_scale {k : ℕ} (hk : k < 16) :
    (int8At b.pack (192 + k)).toInt = (b.scale (.ofNat 16 k)).toInt := by
  have h : (byteAt b.pack (192 + k)).toNat = b.scaleByte k :=
    byteAt_section (byteSection 128 b.lowByte ++ byteSection 64 b.highByte) _
      (List.append_assoc ..).symm (by simp) hk (UInt8.toNat_lt _)
  rw [int8At, UInt8.toNat_inj.mp h]
  simp

/-- The nibble of an element, in the low or the high half of its byte. -/
theorem toNat_nibble {n k l : ℕ} (hn : n < 2) (hk : k < 4) (hl : l < 32) :
    (if k < 2 then byteAt b.pack (64 * n + (l + 32 * (k % 2))) &&& 0xF
      else byteAt b.pack (64 * n + (l + 32 * (k % 2))) >>> 4).toNat =
      entry b.quant (128 * n + (32 * k + l)) % 16 := by
  have hbyte := b.byteAt_low (k := 64 * n + (l + 32 * (k % 2))) (by omega)
  rw [lowByte, show (64 * n + (l + 32 * (k % 2))) / 64 = n by omega,
    show (64 * n + (l + 32 * (k % 2))) % 64 = l + 32 * (k % 2) by omega] at hbyte
  split_ifs with hlow
  · rw [UInt8.toNat_and_mask _ (k := 4) rfl, hbyte,
      show 128 * n + (l + 32 * (k % 2)) = 128 * n + (32 * k + l) by omega]
    omega
  · rw [UInt8.toNat_shiftRight_field _ (k := 4) rfl (by decide), hbyte,
      show 128 * n + 64 + (l + 32 * (k % 2)) = 128 * n + (32 * k + l) by omega]
    omega

/-- The high bits of an element. -/
theorem toNat_highBits {n k l : ℕ} (hn : n < 2) (hk : k < 4) (hl : l < 32) :
    ((byteAt b.pack (128 + 32 * n + l) >>> .ofNat (2 * k)) &&& 3).toNat =
      entry b.quant (128 * n + (32 * k + l)) / 16 := by
  have hbyte := b.byteAt_high (k := 32 * n + l) (by omega)
  rw [highByte, show (32 * n + l) / 32 = n by omega, show (32 * n + l) % 32 = l by omega] at hbyte
  have h (quarter : ℕ) := entry_lt b.quant (128 * n + 32 * quarter + l)
  have h₀ := h 0
  have h₁ := h 1
  have h₂ := h 2
  have h₃ := h 3
  have hshift : (UInt8.ofNat (2 * k)).toNat = 2 * k := by
    rw [UInt8.toNat_ofNat']
    omega
  rw [UInt8.toNat_and_mask _ (k := 2) rfl, UInt8.toNat_shiftRight_field _ hshift (by omega),
    Nat.add_assoc 128, hbyte, ← Nat.add_assoc]
  dsimp only
  interval_cases k <;> omega

/-- The decoded quant of an element. -/
theorem toNat_quant {n k l : ℕ} (hn : n < 2) (hk : k < 4) (hl : l < 32) :
    ((if k < 2 then byteAt b.pack (64 * n + (l + 32 * (k % 2))) &&& 0xF
      else byteAt b.pack (64 * n + (l + 32 * (k % 2))) >>> 4) |||
      ((byteAt b.pack (128 + 32 * n + l) >>> .ofNat (2 * k)) &&& 3) <<< 4).toNat =
      entry b.quant (128 * n + (32 * k + l)) := by
  have hq := entry_lt b.quant (128 * n + (32 * k + l))
  have hlow := b.toNat_nibble hn hk hl
  have hhigh := b.toNat_highBits hn hk hl
  rw [UInt8.toNat_join (k := 4) rfl (by decide) (by omega) (by omega), hlow, hhigh]
  omega

/-- The decoder gives the value at every position. -/
theorem decode_pack [Field α] [LinearOrder α] [IsStrictOrderedRing α] {ops : TensorOps α δ}
    (hops : ops.IsExact) (hfloats : ops.ReadsFloats) :
    dequantQ6KBlock ops b.pack = (List.range 256).map fun i => ((b.value i : ℚ) : α) := by
  have hd : fp16At ops b.pack 208 = (b.d.value : α) := by
    have hbits : uint16At b.pack 208 = b.d.bits :=
      uint16At_section (byteSection 128 b.lowByte ++ (byteSection 64 b.highByte ++
        byteSection 16 b.scaleByte)) [] (by simp [pack]) (by simp)
    rw [fp16At, hbits, fp16ToFloat_eq hfloats]
  rw [show 256 = 2 * (4 * 32) from rfl, ← flatMap_range_map, dequantQ6KBlock]
  refine List.flatMap_congr fun n hn => ?_
  rw [← flatMap_range_map]
  refine List.flatMap_congr fun k hk => List.map_congr_left fun l hl => ?_
  have hn := List.mem_range.mp hn
  have hk := List.mem_range.mp hk
  have hl := List.mem_range.mp hl
  have hquant : (toInt _).toInt = _ := (toInt_toInt _).trans
    (congrArg Nat.cast (b.toNat_quant hn hk hl))
  have hdiff := toInt_sub_of_small (y := 32) (n := 32) hquant rfl
    ((entry_lt b.quant _).trans (by decide)) (by decide)
  have hscale := b.int8At_scale (k := 8 * n + (l / 16 + 2 * k)) (by omega)
  rw [← Nat.add_assoc] at hscale
  rw [hops.mul, hops.mul, hops.ofInt, hops.ofInt, hd, hscale, hdiff, value,
    show (4 * 32 * n + (32 * k + l)) / 16 = 8 * n + (l / 16 + 2 * k) by omega]
  push_cast
  rfl

end Q6KBlock

/-! ## Q3_K -/

/-- The fields of a Q3_K block: 16 groups of 16 elements. -/
structure Q3KBlock where
  d : Half
  scale : Fin 16 → Fin 64
  quant : Fin 256 → Fin 8

namespace Q3KBlock

variable {α δ : Type} (b : Q3KBlock)

/-- The mask: the third bits of the elements, 32 bytes for each eighth of the block. -/
def maskByte (k : ℕ) : ℕ := Nat.ofBits fun e : Fin 8 => decide (4 ≤ entry b.quant (32 * e + k))

/-- The low bits: two for each quarter of a half. -/
def quantByte (k : ℕ) : ℕ :=
  let low (quarter : ℕ) : ℕ := entry b.quant (128 * (k / 32) + 32 * quarter + k % 32) % 4
  low 0 + 4 * low 1 + 16 * low 2 + 64 * low 3

/-- The scales: eight bytes of nibbles, and two bits of each scale in four bytes. -/
def scaleByte (k : ℕ) : ℕ :=
  if k < 8 then entry b.scale k % 16 + 16 * (entry b.scale (k + 8) % 16)
  else
    let high (quarter : ℕ) : ℕ := entry b.scale (4 * quarter + (k - 8)) / 16
    high 0 + 4 * high 1 + 16 * high 2 + 64 * high 3

/-- The bytes of the block. -/
def pack : Bytes :=
  byteSection 32 b.maskByte ++ (byteSection 64 b.quantByte ++ (byteSection 12 b.scaleByte ++
    Bytes.ofNat 2 b.d.bits.toNat))

/-- The number at a position. -/
def value (i : ℕ) : ℚ :=
  b.d.value * (entry b.scale (i / 16) - 32) * (entry b.quant i - 4)

theorem scaleByte_lt (k : ℕ) : b.scaleByte k < 256 := by
  have h (quarter : ℕ) := entry_lt b.scale (4 * quarter + (k - 8))
  have h₀ := h 0
  have h₁ := h 1
  have h₂ := h 2
  have h₃ := h 3
  unfold scaleByte
  dsimp only
  split_ifs <;> omega

theorem byteAt_mask {k : ℕ} (hk : k < 32) : (byteAt b.pack k).toNat = b.maskByte k := by
  have h := byteAt_section [] _ (List.nil_append b.pack).symm rfl hk (Nat.ofBits_lt_two_pow _)
  rwa [List.length_nil, Nat.zero_add] at h

theorem byteAt_quants {k : ℕ} (hk : k < 64) : (byteAt b.pack (32 + k)).toNat = b.quantByte k := by
  refine byteAt_section (byteSection 32 b.maskByte) _ rfl (length_byteSection ..) hk ?_
  unfold quantByte
  dsimp only
  omega

theorem byteAt_scales {k : ℕ} (hk : k < 12) : (byteAt b.pack (96 + k)).toNat = b.scaleByte k :=
  byteAt_section (byteSection 32 b.maskByte ++ byteSection 64 b.quantByte) _
    (List.append_assoc ..).symm (by simp) hk (b.scaleByte_lt k)

/-- The low bits of an element. -/
theorem toNat_lowBits {n j l : ℕ} (hn : n < 2) (hj : j < 4) (hl : l < 32) :
    ((byteAt b.pack (32 + (32 * n + l)) >>> .ofNat (2 * j)) &&& 3).toNat =
      entry b.quant (128 * n + (32 * j + l)) % 4 := by
  have hbyte := b.byteAt_quants (k := 32 * n + l) (by omega)
  rw [quantByte, show (32 * n + l) / 32 = n by omega, show (32 * n + l) % 32 = l by omega] at hbyte
  have hshift : (UInt8.ofNat (2 * j)).toNat = 2 * j := by
    rw [UInt8.toNat_ofNat']
    omega
  rw [UInt8.toNat_and_mask _ (k := 2) rfl, UInt8.toNat_shiftRight_field _ hshift (by omega), hbyte,
    ← Nat.add_assoc]
  dsimp only
  interval_cases j <;> omega

/-- The bit of the mask of an element. -/
theorem mask_and_ne_zero {n j l : ℕ} (hn : n < 2) (hj : j < 4) (hl : l < 32) :
    byteAt b.pack l &&& (1 : UInt8) <<< .ofNat (4 * n + j) ≠ 0 ↔
      4 ≤ entry b.quant (128 * n + (32 * j + l)) := by
  have hshift : (UInt8.ofNat (4 * n + j)).toNat = 4 * n + j := by
    rw [UInt8.toNat_ofNat']
    omega
  rw [UInt8.and_shiftLeft_ne_zero _ hshift (by omega), b.byteAt_mask hl, maskByte,
    Nat.testBit_ofBits_lt _ _ (by omega), decide_eq_true_iff]
  rw [show 32 * (4 * n + j) + l = 128 * n + (32 * j + l) by omega]

/-- The decoded quant of an element. -/
theorem toInt_quant {n j l : ℕ} (hn : n < 2) (hj : j < 4) (hl : l < 32) :
    (toInt ((byteAt b.pack (32 + (32 * n + l)) >>> .ofNat (2 * j)) &&& 3) -
      if byteAt b.pack l &&& (1 : UInt8) <<< .ofNat (4 * n + j) ≠ 0 then 0 else 4).toInt =
      (entry b.quant (128 * n + (32 * j + l)) : ℤ) - 4 := by
  have hq := entry_lt b.quant (128 * n + (32 * j + l))
  have hlow := (toInt_toInt _).trans (congrArg Nat.cast (b.toNat_lowBits hn hj hl))
  by_cases hbit : byteAt b.pack l &&& (1 : UInt8) <<< .ofNat (4 * n + j) ≠ 0
  · -- the third bit is set: the two low bits are the quant less four
    have hge := (b.mask_and_ne_zero hn hj hl).mp hbit
    rw [if_pos hbit, toInt_sub_of_small (n := 0) hlow rfl (by omega) (by decide)]
    omega
  · have hlt := mt (b.mask_and_ne_zero hn hj hl).mpr hbit
    rw [if_neg hbit, toInt_sub_of_small (n := 4) hlow rfl (by omega) (by decide)]
    omega

/-- The byte `i` of the word `w` of the scales. -/
theorem byteAt_q3kScales (raw : Bytes) {w i : ℕ} (hw : w < 4) (hi : i < 4) :
    (byteAt (q3kScales raw) (4 * w + i)).toNat =
      (byteAt raw (96 + (4 * (w % 2) + i))).toNat / 2 ^ (4 * (w / 2)) % 2 ^ 4 +
        2 ^ 4 * ((byteAt raw (96 + (8 + i))).toNat / 2 ^ (2 * w) % 2 ^ 2) := by
  have hword : (byteAt (q3kScales raw) (4 * w + i)).toNat = Bytes.byteOf
      (((uint32At raw (96 + 4 * (w % 2))).toNat >>> (4 * (w / 2)) &&& 0x0f0f0f0f) |||
        (((uint32At raw (96 + 8)).toNat >>> (2 * w) &&& 0x03030303) <<< 4) % 2 ^ 32) i := by
    rw [q3kScales, byteAt_flatMap_words (q3kScaleWords raw) hw hi]
    interval_cases w <;> rfl
  rw [hword, Bytes.byteOf_joinNibbles _ _ (by omega) (by omega) hi, byteOf_uint32At _ _ hi,
    byteOf_uint32At _ _ hi, Nat.add_assoc, Nat.add_assoc 96]

/-- A scale out of its nibble and its two bits, for the scales `f q` of one place in the words. -/
theorem join_scale {f : ℕ → ℕ} (hf : ∀ q, f q < 64) {w : ℕ} (hw : w < 4) :
    (f (w % 2) % 16 + 16 * (f (w % 2 + 2) % 16)) / 2 ^ (4 * (w / 2)) % 2 ^ 4 +
      2 ^ 4 * ((f 0 / 16 + 4 * (f 1 / 16) + 16 * (f 2 / 16) + 64 * (f 3 / 16)) / 2 ^ (2 * w) %
        2 ^ 2) = f w := by
  have h₀ := hf 0
  have h₁ := hf 1
  have h₂ := hf 2
  have h₃ := hf 3
  interval_cases w <;> simp <;> omega

/-- A scale is made of a nibble of one byte and two bits of another. -/
theorem toNat_q3kScales {w i : ℕ} (hw : w < 4) (hi : i < 4) :
    (byteAt (q3kScales b.pack) (4 * w + i)).toNat = entry b.scale (4 * w + i) := by
  have hjoin := join_scale (f := fun q => entry b.scale (4 * q + i))
    (fun q => entry_lt b.scale (4 * q + i)) hw
  rw [byteAt_q3kScales _ hw hi, b.byteAt_scales (by omega), b.byteAt_scales (by omega), scaleByte,
    if_pos (by omega), scaleByte, if_neg (by omega), Nat.add_sub_cancel_left]
  rw [← hjoin, show 4 * (w % 2) + i + 8 = 4 * (w % 2 + 2) + i by omega]

/-- The decoder gives the value at every position. -/
theorem decode_pack [Field α] [LinearOrder α] [IsStrictOrderedRing α] {ops : TensorOps α δ}
    (hops : ops.IsExact) (hfloats : ops.ReadsFloats) :
    dequantQ3KBlock ops b.pack = (List.range 256).map fun i => ((b.value i : ℚ) : α) := by
  have hd : fp16At ops b.pack 108 = (b.d.value : α) := by
    have hbits : uint16At b.pack 108 = b.d.bits :=
      uint16At_section (byteSection 32 b.maskByte ++ (byteSection 64 b.quantByte ++
        byteSection 12 b.scaleByte)) [] (by simp [pack]) (by simp)
    rw [fp16At, hbits, fp16ToFloat_eq hfloats]
  rw [show 256 = 2 * (4 * (2 * 16)) from rfl, ← flatMap_range_map, dequantQ3KBlock]
  refine List.flatMap_congr fun n hn => ?_
  rw [← flatMap_range_map]
  refine List.flatMap_congr fun j hj => ?_
  rw [← flatMap_range_map]
  refine List.flatMap_congr fun half hhalf => List.map_congr_left fun l hl => ?_
  have hn := List.mem_range.mp hn
  have hj := List.mem_range.mp hj
  have hhalf := List.mem_range.mp hhalf
  have hl := List.mem_range.mp hl
  have hscale : (int8At (q3kScales b.pack) (8 * n + 2 * j + half)).toInt =
      entry b.scale (8 * n + 2 * j + half) := by
    have hbyte := b.toNat_q3kScales (w := (8 * n + 2 * j + half) / 4)
      (i := (8 * n + 2 * j + half) % 4) (by omega) (by omega)
    rw [Nat.div_add_mod] at hbyte
    have hs := entry_lt b.scale (8 * n + 2 * j + half)
    rw [int8At, Int8.toInt_toInt32, toInt_toInt8 (by omega), hbyte]
  have hquant := b.toInt_quant hn hj (l := 16 * half + l) (by omega)
  rw [← Nat.add_assoc, ← Nat.add_assoc] at hquant
  have hdiff := toInt_sub_of_small (y := 32) (n := 32) hscale rfl
    ((entry_lt b.scale _).trans (by decide)) (by decide)
  rw [hops.mul, hops.mul, hops.ofInt, hops.ofInt, hd, hdiff, hquant, value,
    show (4 * (2 * 16) * n + (2 * 16 * j + (16 * half + l))) / 16 = 8 * n + 2 * j + half by omega]
  push_cast
  rfl

end Q3KBlock

/-! ## All formats -/

section Exact

variable {α δ : Type} [Field α] [LinearOrder α] [IsStrictOrderedRing α] {ops : TensorOps α δ}

/-- **Block decoders.** In exact arithmetic the decoder of each format gives, on the bytes of a
block, the documented value at every position. -/
theorem decoders_undo_packing (hops : ops.IsExact) (hfloats : ops.ReadsFloats) :
    (∀ b : Q4KBlock, b.pack.length = 144 ∧
      dequantQ4KBlock ops b.pack = (List.range 256).map fun i => ((b.value i : ℚ) : α)) ∧
    (∀ b : Q3KBlock, b.pack.length = 110 ∧
      dequantQ3KBlock ops b.pack = (List.range 256).map fun i => ((b.value i : ℚ) : α)) ∧
    (∀ b : Q6KBlock, b.pack.length = 210 ∧
      dequantQ6KBlock ops b.pack = (List.range 256).map fun i => ((b.value i : ℚ) : α)) ∧
    (∀ b : Q5_0Block, b.pack.length = 22 ∧
      dequantQ5_0Block ops b.pack = (List.range 32).map fun i => ((b.value i : ℚ) : α)) ∧
    (∀ b : Q5_1Block, b.pack.length = 24 ∧
      dequantQ5_1Block ops b.pack = (List.range 32).map fun i => ((b.value i : ℚ) : α)) :=
  ⟨fun b => ⟨by simp [Q4KBlock.pack], b.decode_pack hops hfloats⟩,
    fun b => ⟨by simp [Q3KBlock.pack], b.decode_pack hops hfloats⟩,
    fun b => ⟨by simp [Q6KBlock.pack], b.decode_pack hops hfloats⟩,
    fun b => ⟨by simp [Q5_0Block.pack], b.decode_pack hops hfloats⟩,
    fun b => ⟨by simp [Q5_1Block.pack], b.decode_pack hops hfloats⟩⟩

end Exact

/-- A Q3_K block with the scale 1, all scales of groups and all quants. -/
def sampleQ3KBlock : Q3KBlock where
  d := ⟨0x3C00, by decide⟩
  scale k := .ofNat 64 (4 * k.val + 3)
  quant i := .ofNat 8 i.val

/-- The sample block is decoded to its values. -/
theorem decode_sampleQ3KBlock :
    dequantQ3KBlock rationalOps sampleQ3KBlock.pack =
      (List.range 256).map fun i => ((sampleQ3KBlock.value i : ℚ) : ℚ) :=
  ((decoders_undo_packing isExact_rationalOps readsFloats_rationalOps).2.1 sampleQ3KBlock).2

end HeteroAccel
