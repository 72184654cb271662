import HeteroAccel.HydroXL.Ops

/-!
# The layout of the key-value cache

The cache documents the order head, position, dimension, and `causal_attention` reads in that
order; `writeKV` writes in the order position, head, dimension. The two orders coincide exactly
when there is one key-value head or one position.

## Main definitions

* `LayoutAgrees`: attention reads the vectors that were written;
* `layoutAgrees_iff`: for which dimensions it does.
-/

namespace HeteroAccel

variable {α : Type}

/-- After vectors have been written at the positions `0, …, t` of a layer, attention reads at each
of these positions the vector written there, reads no other element, and the other layers are as
before. -/
def LayoutAgrees (c : HydroXLKVCache α) (nHeads : UInt32) : Prop :=
  let width := c.nKvHeads.toNat * c.headDim.toNat
  let index := kvIndex nHeads c.nKvHeads c.headDim c.maxSeqLen
  ∀ layer t : UInt32, layer < c.nLayers → t < c.maxSeqLen →
    ∀ ks vs : ℕ → List α, (∀ p, (ks p).length = width) → (∀ p, (vs p).length = width) →
    ∃ c', c.writeFirst layer ks vs (t.toNat + 1) = some c' ∧
      (∀ h p d : UInt32, h < nHeads → p ≤ t → d < c.headDim →
        (∃ p' ≤ t.toNat, p' * width ≤ index h p d ∧ index h p d < p' * width + width) ∧
        (c'.kLayer layer).bind (fun buf => buf[index h p d]?) =
          (ks p.toNat)[(kvHead nHeads c.nKvHeads h).toNat * c.headDim.toNat + d.toNat]? ∧
        (c'.vLayer layer).bind (fun buf => buf[index h p d]?) =
          (vs p.toNat)[(kvHead nHeads c.nKvHeads h).toNat * c.headDim.toNat + d.toNat]?) ∧
      ∀ layer', layer' ≠ layer →
        c'.kLayer layer' = c.kLayer layer' ∧ c'.vLayer layer' = c.vLayer layer'

namespace HydroXLKVCache

variable {c : HydroXLKVCache α} {layer : UInt32} {kBuf vBuf : List α}

/-- The writes at the first positions of a layer fill consecutive rows of its buffers. -/
theorem writeFirst_eq (halloc : c.allocated = true) (hlayer : layer < c.nLayers)
    (hkBuf : c.kData[layer.toNat]? = some kBuf) (hvBuf : c.vData[layer.toNat]? = some vBuf)
    (hsize : kBuf.length = c.maxSeqLen.toNat * (c.nKvHeads.toNat * c.headDim.toNat))
    (hsize' : vBuf.length = c.maxSeqLen.toNat * (c.nKvHeads.toNat * c.headDim.toNat))
    (hwrap : c.maxSeqLen.toNat * (c.nKvHeads.toNat * c.headDim.toNat) < 2 ^ 64)
    {ks vs : ℕ → List α} (hks : ∀ p, (ks p).length = c.nKvHeads.toNat * c.headDim.toNat)
    (hvs : ∀ p, (vs p).length = c.nKvHeads.toNat * c.headDim.toNat)
    {n : ℕ} (hn : n ≤ c.maxSeqLen.toNat) :
    c.writeFirst layer ks vs n = some { c with
      kData := c.kData.set layer.toNat
        (Buffer.blitRows (c.nKvHeads.toNat * c.headDim.toNat) ks n kBuf)
      vData := c.vData.set layer.toNat
        (Buffer.blitRows (c.nKvHeads.toNat * c.headDim.toNat) vs n vBuf) } := by
  induction n with
  | zero =>
    have hself : ∀ {l : List (List α)} {i : ℕ} {b : List α}, l[i]? = some b → l.set i b = l := by
      intro l i b h
      obtain ⟨hi, rfl⟩ := List.getElem?_eq_some_iff.mp h
      exact List.set_getElem_self hi
    simp only [writeFirst, Buffer.blitRows, hself hkBuf, hself hvBuf]
  | succ n ih =>
    have hfit : n * (c.nKvHeads.toNat * c.headDim.toNat) ≤
        c.maxSeqLen.toNat * (c.nKvHeads.toNat * c.headDim.toNat) :=
          Nat.mul_le_mul_right _ (by omega)
    have hpos : (UInt32.ofNat n).toNat = n := by
      have := c.maxSeqLen.toNat_lt
      rw [UInt32.toNat_ofNat', Nat.mod_eq_of_lt (by omega)]
    have hlt : UInt32.ofNat n < c.maxSeqLen := by
      rw [UInt32.lt_iff_toNat_lt, hpos]
      omega
    obtain ⟨hki, -⟩ := List.getElem?_eq_some_iff.mp hkBuf
    obtain ⟨hvi, -⟩ := List.getElem?_eq_some_iff.mp hvBuf
    -- the next row is written over the rows before it
    have hwrite := writeKV_eq_some_true (c := { c with
      kData := c.kData.set layer.toNat
        (Buffer.blitRows (c.nKvHeads.toNat * c.headDim.toNat) ks n kBuf)
      vData := c.vData.set layer.toNat
        (Buffer.blitRows (c.nKvHeads.toNat * c.headDim.toNat) vs n vBuf) })
      halloc hlayer hlt (hks n) (hvs n) (List.getElem?_set_self hki) (List.getElem?_set_self hvi)
      ((Buffer.length_blitRows hks (hsize ▸ hfit)).trans hsize)
      ((Buffer.length_blitRows hvs (hsize' ▸ hfit)).trans hsize') hwrap
    rw [writeFirst, ih (by omega)]
    simp only [Option.bind_eq_bind, Option.bind_some]
    rw [hwrite]
    simp only [Option.bind_some, List.set_set, hpos, Buffer.blitRows]

/-- A layer's buffers after its first rows are written. -/
theorem exists_writeFirst (halloc : c.allocated = true) (hlayer : layer < c.nLayers)
    (hkBuf : c.kData[layer.toNat]? = some kBuf) (hvBuf : c.vData[layer.toNat]? = some vBuf)
    (hsize : kBuf.length = c.maxSeqLen.toNat * (c.nKvHeads.toNat * c.headDim.toNat))
    (hsize' : vBuf.length = c.maxSeqLen.toNat * (c.nKvHeads.toNat * c.headDim.toNat))
    (hwrap : c.maxSeqLen.toNat * (c.nKvHeads.toNat * c.headDim.toNat) < 2 ^ 64)
    {ks vs : ℕ → List α} (hks : ∀ p, (ks p).length = c.nKvHeads.toNat * c.headDim.toNat)
    (hvs : ∀ p, (vs p).length = c.nKvHeads.toNat * c.headDim.toNat)
    {n : ℕ} (hn : n ≤ c.maxSeqLen.toNat) :
    ∃ c', c.writeFirst layer ks vs n = some c' ∧
      c'.kLayer layer =
        some (Buffer.blitRows (c.nKvHeads.toNat * c.headDim.toNat) ks n kBuf) ∧
      c'.vLayer layer =
        some (Buffer.blitRows (c.nKvHeads.toNat * c.headDim.toNat) vs n vBuf) ∧
      ∀ layer', layer' ≠ layer →
        c'.kLayer layer' = c.kLayer layer' ∧ c'.vLayer layer' = c.vLayer layer' := by
  obtain ⟨hki, -⟩ := List.getElem?_eq_some_iff.mp hkBuf
  obtain ⟨hvi, -⟩ := List.getElem?_eq_some_iff.mp hvBuf
  refine ⟨_, writeFirst_eq halloc hlayer hkBuf hvBuf hsize hsize' hwrap hks hvs hn, ?_, ?_, ?_⟩
  · simp [kLayer, halloc, UInt32.not_le.mpr hlayer, hki]
  · simp [vLayer, halloc, UInt32.not_le.mpr hlayer, hvi]
  · intro layer' hne
    have hne' : layer.toNat ≠ layer'.toNat := fun h => hne (UInt32.toNat_inj.mp h).symm
    simp [kLayer, vLayer, List.getElem?_set_ne hne']

end HydroXLKVCache

/-! ## The index that is read -/

/-- With one key-value head the element read is in the row of the position. -/
theorem kvIndex_of_one_head {nHeads h : UInt32} (headDim maxSeqLen p d : UInt32)
    (hh : h < nHeads) :
    (kvHead nHeads 1 h).toNat = 0 ∧
      kvIndex nHeads 1 headDim maxSeqLen h p d = p.toNat * headDim.toNat + d.toNat := by
  have hhead : kvHead nHeads 1 h = 0 := by
    rw [kvHead, ← UInt32.toNat_inj, UInt32.toNat_div, UInt32.toNat_div]
    change h.toNat / (nHeads.toNat / 1) = 0
    rw [Nat.div_one, Nat.div_eq_of_lt (UInt32.lt_iff_toNat_lt.mp hh)]
  have hzero : ((0 : UInt32).toUInt64 * maxSeqLen.toUInt64 * headDim.toUInt64).toNat = 0 := by
    simp
  rw [kvIndex, hhead, hzero, HydroXLKVCache.toNat_mul_toUInt64, Nat.zero_add]
  exact ⟨rfl, rfl⟩

/-- With one position the element read is in the part of the row that belongs to the head. -/
theorem kvIndex_of_one_position {nHeads nKvHeads headDim h d : UInt32} :
    kvIndex nHeads nKvHeads headDim 1 h 0 d =
      (kvHead nHeads nKvHeads h).toNat * headDim.toNat + d.toNat := by
  have hone : (1 : UInt32).toUInt64 = 1 := rfl
  rw [kvIndex, hone, UInt64.mul_one, HydroXLKVCache.toNat_mul_toUInt64,
    HydroXLKVCache.toNat_mul_toUInt64]
  simp

/-- The key-value head of a query head is one of the key-value heads. -/
theorem kvHead_lt {nHeads nKvHeads h : UInt32} (hdvd : nKvHeads.toNat ∣ nHeads.toNat)
    (hh : h < nHeads) : (kvHead nHeads nKvHeads h).toNat < nKvHeads.toNat := by
  have hlt := UInt32.lt_iff_toNat_lt.mp hh
  obtain ⟨q, hq⟩ := hdvd
  rw [kvHead, UInt32.toNat_div, UInt32.toNat_div, hq]
  have hpos : 0 < nKvHeads.toNat := Nat.pos_of_ne_zero (by rintro h0; simp [h0] at hq; omega)
  rw [Nat.mul_div_cancel_left _ hpos, Nat.div_lt_iff_lt_mul, ← hq]
  · exact hlt
  · exact Nat.pos_of_ne_zero (by rintro rfl; simp at hq; omega)

/-- The second key-value head begins after all positions of the first. -/
theorem kvIndex_of_second_head {nHeads nKvHeads : UInt32} (headDim maxSeqLen : UInt32)
    (hheads : 2 ≤ nKvHeads.toNat) (hdvd : nKvHeads.toNat ∣ nHeads.toNat) (hpos : nHeads ≠ 0) :
    nHeads / nKvHeads < nHeads ∧ kvHead nHeads nKvHeads (nHeads / nKvHeads) = 1 ∧
      kvIndex nHeads nKvHeads headDim maxSeqLen (nHeads / nKvHeads) 0 0 =
        maxSeqLen.toNat * headDim.toNat := by
  have hpos' : 0 < nHeads.toNat :=
    Nat.pos_of_ne_zero fun h => hpos (UInt32.toNat_inj.mp (by simpa using h))
  have hgroup : 0 < nHeads.toNat / nKvHeads.toNat :=
    Nat.div_pos (Nat.le_of_dvd hpos' hdvd) (by omega)
  have hhead : kvHead nHeads nKvHeads (nHeads / nKvHeads) = 1 := by
    rw [kvHead, ← UInt32.toNat_inj, UInt32.toNat_div, UInt32.toNat_div, Nat.div_self hgroup]
    rfl
  refine ⟨?_, hhead, ?_⟩
  · rw [UInt32.lt_iff_toNat_lt, UInt32.toNat_div]
    exact Nat.div_lt_self hpos' hheads
  · have hone : (1 : UInt32).toUInt64 = 1 := rfl
    rw [kvIndex, hhead, hone, UInt64.one_mul, HydroXLKVCache.toNat_mul_toUInt64]
    simp

/-! ## When the two orders agree -/

namespace HydroXLKVCache

variable {c : HydroXLKVCache α} {layer : UInt32} {kBuf vBuf : List α}

/-- A write at position 0 fills the front of the buffers, if they are large enough. -/
theorem writeKV_zero (halloc : c.allocated = true) (hlayer : layer < c.nLayers)
    (hseq : c.maxSeqLen ≠ 0) (hkBuf : c.kData[layer.toNat]? = some kBuf)
    (hvBuf : c.vData[layer.toNat]? = some vBuf) (hlen : vBuf.length = kBuf.length)
    (hlt : kBuf.length < 2 ^ 64) {k v : List α}
    (hk : k.length = c.nKvHeads.toNat * c.headDim.toNat)
    (hv : v.length = c.nKvHeads.toNat * c.headDim.toNat) :
    c.writeKV layer 0 (some k) (some v) = some (
      if c.nKvHeads.toNat * c.headDim.toNat ≤ kBuf.length then
        (true, { c with
          kData := c.kData.set layer.toNat (Buffer.blit kBuf 0 k)
          vData := c.vData.set layer.toNat (Buffer.blit vBuf 0 v) })
      else (false, c)) := by
  have hpos : (0 : UInt32) < c.maxSeqLen := UInt32.pos_iff_ne_zero.mpr hseq
  have hvecLen := toNat_mul_toUInt64 c.nKvHeads c.headDim
  have hoffset : (0 : UInt32).toUInt64 * c.nKvHeads.toUInt64 * c.headDim.toUInt64 = 0 := by
    simp
  have hcheck : c.nKvHeads.toUInt64 * c.headDim.toUInt64 > .ofNat kBuf.length ↔
      ¬ c.nKvHeads.toNat * c.headDim.toNat ≤ kBuf.length := by
    rw [gt_iff_lt, UInt64.lt_iff_toNat_lt, hvecLen, UInt64.toNat_ofNat', Nat.mod_eq_of_lt hlt,
      Nat.not_le]
  unfold writeKV
  rw [if_neg (by simp [halloc]), if_neg (UInt32.not_le.mpr hlayer), if_neg (UInt32.not_le.mpr hpos)]
  simp only [hkBuf, hvBuf, hoffset, UInt64.zero_add, UInt64.toNat_zero, hvecLen,
    Option.bind_eq_bind, Option.bind_some]
  by_cases hfits : c.nKvHeads.toNat * c.headDim.toNat ≤ kBuf.length
  · rw [if_neg (fun h => hcheck.mp h hfits), if_pos hfits,
      Buffer.memcpy_eq_blit hk (by omega), Buffer.memcpy_eq_blit hv (by omega)]
    rfl
  · rw [if_pos (hcheck.mpr hfits), if_neg hfits]

/-- Away from one element of the key vector, the write at position 0 leaves in the key buffer what
it would leave for another value of that element. -/
theorem read_writeKV_zero_set (halloc : c.allocated = true) (hlayer : layer < c.nLayers)
    (hseq : c.maxSeqLen ≠ 0) (hkBuf : c.kData[layer.toNat]? = some kBuf)
    (hvBuf : c.vData[layer.toNat]? = some vBuf) (hlen : vBuf.length = kBuf.length)
    (hlt : kBuf.length < 2 ^ 64) {k v : List α}
    (hk : k.length = c.nKvHeads.toNat * c.headDim.toNat)
    (hv : v.length = c.nKvHeads.toNat * c.headDim.toNat) {i j : ℕ} (hij : i ≠ j) (b : α)
    {c₁ c₂ : HydroXLKVCache α} {ok₁ ok₂ : Bool}
    (h₁ : c.writeKV layer 0 (some k) (some v) = some (ok₁, c₁))
    (h₂ : c.writeKV layer 0 (some (k.set j b)) (some v) = some (ok₂, c₂)) :
    (c₁.kLayer layer).bind (fun buf => buf[i]?) = (c₂.kLayer layer).bind (fun buf => buf[i]?) := by
  obtain ⟨hki, -⟩ := List.getElem?_eq_some_iff.mp hkBuf
  rw [writeKV_zero halloc hlayer hseq hkBuf hvBuf hlen hlt hk hv] at h₁
  rw [writeKV_zero halloc hlayer hseq hkBuf hvBuf hlen hlt (by simpa using hk) hv] at h₂
  by_cases hfits : c.nKvHeads.toNat * c.headDim.toNat ≤ kBuf.length
  · rw [if_pos hfits] at h₁ h₂
    cases h₁
    cases h₂
    have hsame : (Buffer.blit kBuf 0 k)[i]? = (Buffer.blit kBuf 0 (k.set j b))[i]? := by
      by_cases hi : i < k.length
      · rw [Buffer.getElem?_blit_of_mem (by omega) (by omega) (by omega),
          Buffer.getElem?_blit_of_mem (by simp; omega) (by omega) (by simp; omega), Nat.sub_zero,
          List.getElem?_set_ne hij.symm]
      · rw [Buffer.getElem?_blit_of_notMem (by omega) (by omega),
          Buffer.getElem?_blit_of_notMem (by simp; omega) (by simp; omega)]
    simpa [kLayer, halloc, UInt32.not_le.mpr hlayer, hki] using hsame
  · rw [if_neg hfits] at h₁ h₂
    cases h₁
    cases h₂
    rfl

/-- A cache whose layers all have buffers of the size the dimensions say (modulo `2 ^ 64`). -/
structure Sized (c : HydroXLKVCache α) : Prop where
  allocated : c.allocated = true
  layers : c.nLayers ≠ 0
  heads : c.nKvHeads ≠ 0
  seq : c.maxSeqLen ≠ 0
  dim : c.headDim ≠ 0
  buffers : ∀ layer : UInt32, layer < c.nLayers → ∃ kBuf vBuf : List α,
    c.kData[layer.toNat]? = some kBuf ∧ c.vData[layer.toNat]? = some vBuf ∧
      kBuf.length = (perLayerFloats c.nKvHeads c.maxSeqLen c.headDim).toNat ∧
      vBuf.length = (perLayerFloats c.nKvHeads c.maxSeqLen c.headDim).toNat

/-- What `allocate` returns is sized. -/
theorem sized_of_allocate {zero : α} {outcome : AssignOutcome α} {c c' : HydroXLKVCache α}
    {nLayers nKvHeads maxSeqLen headDim : UInt32}
    (h : c.allocate zero outcome nLayers nKvHeads maxSeqLen headDim = (true, c')) : c'.Sized := by
  obtain ⟨hlayers, hheads, hseq, hdim, rfl⟩ := allocate_eq_true h
  refine ⟨rfl, hlayers, hheads, hseq, hdim, fun layer hlayer => ?_⟩
  let buf := List.replicate (perLayerFloats nKvHeads maxSeqLen headDim).toNat zero
  have hbuffer : (List.replicate nLayers.toNat buf)[layer.toNat]? = some buf := by
    rw [List.getElem?_replicate, if_pos (UInt32.lt_iff_toNat_lt.mp hlayer)]
  exact ⟨buf, buf, hbuffer, hbuffer, by simp [buf], by simp [buf]⟩

/-- Two dimensions that are not zero and not one are at least two. -/
theorem two_le_toNat {n : UInt32} (h0 : n ≠ 0) (h1 : n ≠ 1) : 2 ≤ n.toNat := by
  have h0' : n.toNat ≠ 0 := fun h => h0 (UInt32.toNat_inj.mp (by simpa using h))
  have h1' : n.toNat ≠ 1 := fun h => h1 (UInt32.toNat_inj.mp (by simpa using h))
  omega

/-- With two heads and two positions the first element of the second head is not read where it was
written: what is read for it does not change with it. -/
theorem Sized.not_layoutAgrees [Nontrivial α] (hc : c.Sized) {nHeads : UInt32}
    (hdvd : c.nKvHeads.toNat ∣ nHeads.toNat) (hpos : nHeads ≠ 0) (hheads : c.nKvHeads ≠ 1)
    (hseq : c.maxSeqLen ≠ 1) : ¬ LayoutAgrees c nHeads := by
  intro hagree
  have hheads2 := two_le_toNat hc.heads hheads
  have hseq2 := two_le_toNat hc.seq hseq
  have hdim : 0 < c.headDim.toNat :=
    Nat.pos_of_ne_zero fun h => hc.dim (UInt32.toNat_inj.mp (by simpa using h))
  obtain ⟨a, b, hab⟩ := exists_pair_ne α
  set width := c.nKvHeads.toNat * c.headDim.toNat with hwidth
  set k := List.replicate width a with hk
  have hlenK : k.length = width := by simp [hk]
  have hinner : c.headDim.toNat < width := by
    have := Nat.mul_le_mul_right c.headDim.toNat hheads2
    omega
  have hlayer : 0 < c.nLayers := UInt32.pos_iff_ne_zero.mpr hc.layers
  have hfirst : (0 : UInt32) < c.maxSeqLen := UInt32.pos_iff_ne_zero.mpr hc.seq
  obtain ⟨hsecond, hhead, hindex⟩ := kvIndex_of_second_head c.headDim c.maxSeqLen
    hheads2 hdvd hpos
  -- what is read for the second head, for any key vector written at position 0
  have hread : ∀ x : List α, x.length = width → ∃ ok c', c.writeKV 0 0 (some x) (some k) =
      some (ok, c') ∧ (c'.kLayer 0).bind
        (fun buf => buf[c.maxSeqLen.toNat * c.headDim.toNat]?) = x[c.headDim.toNat]? := by
    intro x hx
    obtain ⟨c', hwrite, hreads, -⟩ := hagree 0 0 hlayer hfirst (fun _ => x) (fun _ => k)
      (fun _ => hx) (fun _ => hlenK)
    obtain ⟨-, hkey, -⟩ :=
      hreads _ 0 0 hsecond (UInt32.le_refl 0) (UInt32.pos_iff_ne_zero.mpr hc.dim)
    rw [hhead, hindex] at hkey
    change (c.writeFirst 0 (fun _ => x) (fun _ => k) 1) = some c' at hwrite
    simp only [writeFirst, Option.bind_eq_bind, Option.bind_some] at hwrite
    have hnat : UInt32.ofNat 0 = 0 := rfl
    rw [hnat] at hwrite
    cases hres : c.writeKV 0 0 (some x) (some k) with
    | none =>
      rw [hres] at hwrite
      cases hwrite
    | some result =>
      rw [hres] at hwrite
      cases hwrite
      exact ⟨result.1, result.2, rfl, by simpa using hkey⟩
  obtain ⟨ok₁, c₁, hwrite₁, hread₁⟩ := hread k hlenK
  obtain ⟨ok₂, c₂, hwrite₂, hread₂⟩ := hread (k.set c.headDim.toNat b) (by simpa using hlenK)
  obtain ⟨kBuf, vBuf, hkBuf, hvBuf, hkLen, hvLen⟩ := hc.buffers 0 hlayer
  have hne : c.maxSeqLen.toNat * c.headDim.toNat ≠ c.headDim.toNat := by
    have := Nat.mul_le_mul_right c.headDim.toNat hseq2
    omega
  have hsame := read_writeKV_zero_set hc.allocated hlayer hc.seq hkBuf hvBuf
    (hvLen.trans hkLen.symm) (hkLen ▸ UInt64.toNat_lt _) hlenK hlenK hne b hwrite₁ hwrite₂
  rw [hread₁, hread₂, List.getElem?_set_self (by omega), hk, List.getElem?_replicate,
    if_pos hinner] at hsame
  exact hab (Option.some.inj hsame)

/-- With one head or one position every element is read where it was written. -/
theorem Sized.layoutAgrees (hc : c.Sized) {nHeads : UInt32}
    (hdvd : c.nKvHeads.toNat ∣ nHeads.toNat) (hone : c.nKvHeads = 1 ∨ c.maxSeqLen = 1) :
    LayoutAgrees c nHeads := by
  set width := c.nKvHeads.toNat * c.headDim.toNat with hwidth
  have hwrap : c.maxSeqLen.toNat * width < 2 ^ 64 ∧
      (perLayerFloats c.nKvHeads c.maxSeqLen c.headDim).toNat = c.maxSeqLen.toNat * width := by
    have hsmall : c.maxSeqLen.toNat * width < 2 ^ 64 := by
      have hlt : ∀ a b : UInt32, a.toNat * b.toNat < 2 ^ 64 := fun a b => by
        rw [← toNat_mul_toUInt64]
        exact UInt64.toNat_lt _
      rcases hone with h | h
      · rw [hwidth, h, show (1 : UInt32).toNat = 1 from rfl, Nat.one_mul]
        exact hlt _ _
      · rw [h, show (1 : UInt32).toNat = 1 from rfl, Nat.one_mul]
        exact hlt _ _
    refine ⟨hsmall, ?_⟩
    have hcomm : c.nKvHeads.toNat * c.maxSeqLen.toNat * c.headDim.toNat =
        c.maxSeqLen.toNat * width := by
      rw [hwidth, Nat.mul_comm c.nKvHeads.toNat, Nat.mul_assoc]
    rw [perLayerFloats, toNat_mul_mul_toUInt64 (hcomm ▸ hsmall), hcomm]
  obtain ⟨hsmall, hperLayer⟩ := hwrap
  intro layer t hlayer ht ks vs hks hvs
  obtain ⟨kBuf, vBuf, hkBuf, hvBuf, hkLen, hvLen⟩ := hc.buffers layer hlayer
  have hfit : t.toNat + 1 ≤ c.maxSeqLen.toNat := UInt32.lt_iff_toNat_lt.mp ht
  obtain ⟨c', hwrite, hkLayer, hvLayer, hothers⟩ := exists_writeFirst hc.allocated hlayer hkBuf
    hvBuf (hkLen.trans hperLayer) (hvLen.trans hperLayer) hsmall hks hvs hfit
  refine ⟨c', hwrite, fun h p d hh hp hd => ?_, hothers⟩
  have hple : p.toNat ≤ t.toNat := UInt32.le_iff_toNat_le.mp hp
  -- the element read is in the row of the position, in the part of the head
  have hindex : kvIndex nHeads c.nKvHeads c.headDim c.maxSeqLen h p d = p.toNat * width +
      ((kvHead nHeads c.nKvHeads h).toNat * c.headDim.toNat + d.toNat) := by
    rcases hone with h1 | h1
    · have hrow := kvIndex_of_one_head c.headDim c.maxSeqLen p d hh
      rw [hwidth, h1, hrow.1, hrow.2]
      simp
    · have hp0 : p = 0 := by
        rw [h1, show (1 : UInt32).toNat = 1 from rfl] at hfit
        exact UInt32.toNat_inj.mp (by simpa using by omega)
      rw [h1, hp0, kvIndex_of_one_position]
      simp
  have hinner : (kvHead nHeads c.nKvHeads h).toNat * c.headDim.toNat + d.toNat < width := by
    have hhead := kvHead_lt hdvd hh
    have := Nat.mul_le_mul_right c.headDim.toNat (Nat.succ_le_of_lt hhead)
    rw [Nat.succ_mul] at this
    have := UInt32.lt_iff_toNat_lt.mp hd
    omega
  have hrows : (t.toNat + 1) * width ≤ c.maxSeqLen.toNat * width := Nat.mul_le_mul_right _ hfit
  refine ⟨⟨p.toNat, hple, ?_, ?_⟩, ?_, ?_⟩
  · rw [← hwidth, hindex]
    omega
  · rw [← hwidth, hindex]
    omega
  · rw [hkLayer, hindex]
    exact Buffer.getElem?_blitRows hks (by rw [hkLen, hperLayer]; exact hrows) (by omega) hinner
  · rw [hvLayer, hindex]
    exact Buffer.getElem?_blitRows hvs (by rw [hvLen, hperLayer]; exact hrows) (by omega) hinner

end HydroXLKVCache

/-- Attention reads the vectors that were written, on every cache `allocate` returns and for every
number of query heads the key-value heads divide, exactly when there is one key-value head or one
position. -/
theorem layoutAgrees_iff [Nontrivial α] (zero : α) (outcome : AssignOutcome α)
    (c c' : HydroXLKVCache α) (nLayers nHeads nKvHeads maxSeqLen headDim : UInt32)
    (halloc : c.allocate zero outcome nLayers nKvHeads maxSeqLen headDim = (true, c'))
    (hdvd : nKvHeads.toNat ∣ nHeads.toNat) (hpos : nHeads ≠ 0) :
    LayoutAgrees c' nHeads ↔ nKvHeads = 1 ∨ maxSeqLen = 1 := by
  have hsized := HydroXLKVCache.sized_of_allocate halloc
  obtain ⟨-, -, -, -, rfl⟩ := HydroXLKVCache.allocate_eq_true halloc
  constructor
  · intro hagree
    by_contra hne
    rw [not_or] at hne
    exact hsized.not_layoutAgrees hdvd hpos hne.1 hne.2 hagree
  · intro hone
    exact hsized.layoutAgrees hdvd hone

/-- Two key-value heads and one position, four query heads: the layouts agree. -/
theorem layoutAgrees_iff_one_position :
    let c := ({} : HydroXLKVCache ℤ).allocate 0 .granted 1 2 1 3
    LayoutAgrees c.2 4 ↔ (2 : UInt32) = 1 ∨ (1 : UInt32) = 1 :=
  layoutAgrees_iff 0 .granted {} _ 1 4 2 1 3 rfl (by decide) (by decide)

/-- Two key-value heads and two positions: after the keys `1, 2` are written at position 0, a zero
that was never written is read for the second head. -/
theorem not_layoutAgrees_two_heads :
    ¬ ∀ (c c' : HydroXLKVCache ℤ) (nLayers nHeads nKvHeads maxSeqLen headDim : UInt32),
      c.allocate 0 .granted nLayers nKvHeads maxSeqLen headDim = (true, c') →
      nKvHeads.toNat ∣ nHeads.toNat → nHeads ≠ 0 → LayoutAgrees c' nHeads := by
  intro hall
  let c := (({} : HydroXLKVCache ℤ).allocate 0 .granted 1 2 2 1).2
  obtain ⟨c', hwrite, hreads, -⟩ := hall {} c 1 2 2 2 1 rfl (by decide) (by decide) 0 0 (by decide)
    (by decide) (fun _ => [1, 2]) (fun _ => [3, 4]) (fun _ => rfl) (fun _ => rfl)
  have hstate : c.writeFirst 0 (fun _ => [1, 2]) (fun _ => [3, 4]) 1 =
      some { c with kData := [[1, 2, 0, 0]], vData := [[3, 4, 0, 0]] } := by decide +kernel
  cases hstate.symm.trans hwrite
  obtain ⟨-, hkey, -⟩ := hreads 1 0 0 (by decide) (by decide) (by decide)
  revert hkey
  decide +kernel

/-! ## What decoding computes -/

/-- Where the layouts agree, the attention step of the forward pass at position `t` is attention
over the key and value vectors written so far. -/
theorem causalAttention_of_layoutAgrees {δ : Type} {ops : FloatOps α δ}
    {c c' : HydroXLKVCache α} {layer t nHeads : UInt32} {q : List α} {ks vs : ℕ → List α}
    {scale : α} (hc : c.Sized) (hagree : LayoutAgrees c nHeads) (hheads : nHeads ≠ 0)
    (hdvd : c.nKvHeads.toNat ∣ nHeads.toNat) (hlayer : layer < c.nLayers) (ht : t < c.maxSeqLen)
    (hks : ∀ p, (ks p).length = c.nKvHeads.toNat * c.headDim.toNat)
    (hvs : ∀ p, (vs p).length = c.nKvHeads.toNat * c.headDim.toNat)
    (hwrite : c.writeFirst layer ks vs (t.toNat + 1) = some c') :
    causalAttention ops (some q) (c'.kLayer layer) (c'.vLayer layer) (t + 1) nHeads c.nKvHeads
        c.headDim c.maxSeqLen scale =
      (attendVectors ops q ks vs (t + 1) nHeads c.nKvHeads c.headDim scale).map some := by
  obtain ⟨c₁, hwrite₁, hreads, -⟩ := hagree layer t hlayer ht ks vs hks hvs
  cases hwrite.symm.trans hwrite₁
  have hsucc : (t + 1).toNat = t.toNat + 1 := by
    have := UInt32.lt_iff_toNat_lt.mp ht
    have := c.maxSeqLen.toNat_lt
    rw [UInt32.toNat_add]
    exact Nat.mod_eq_of_lt (by simp; omega)
  -- both buffers exist, for otherwise nothing could be read from them
  obtain ⟨-, hk₀, hv₀⟩ := hreads 0 0 0 (UInt32.pos_iff_ne_zero.mpr hheads) (UInt32.zero_le)
    (UInt32.pos_iff_ne_zero.mpr hc.dim)
  have hin : (kvHead nHeads c.nKvHeads 0).toNat * c.headDim.toNat + (0 : UInt32).toNat <
      c.nKvHeads.toNat * c.headDim.toNat := by
    have hhead := kvHead_lt hdvd (UInt32.pos_iff_ne_zero.mpr hheads)
    have := Nat.mul_le_mul_right c.headDim.toNat (Nat.succ_le_of_lt hhead)
    rw [Nat.succ_mul] at this
    have hdim : 0 < c.headDim.toNat :=
      Nat.pos_of_ne_zero fun h => hc.dim (UInt32.toNat_inj.mp (by simpa using h))
    have hzero : (0 : UInt32).toNat = 0 := rfl
    omega
  cases hkLayer : c'.kLayer layer with
  | none =>
    rw [hkLayer, Option.bind_none, List.getElem?_eq_getElem (by rw [hks]; exact hin)] at hk₀
    cases hk₀
  | some kBuf =>
    cases hvLayer : c'.vLayer layer with
    | none =>
      rw [hvLayer, Option.bind_none, List.getElem?_eq_getElem (by rw [hvs]; exact hin)] at hv₀
      cases hv₀
    | some vBuf =>
      have hle : t + 1 ≤ c.maxSeqLen := by
        rw [UInt32.le_iff_toNat_le, hsucc]
        exact UInt32.lt_iff_toNat_lt.mp ht
      have hne : t + 1 ≠ 0 := by
        intro h
        rw [h] at hsucc
        have hzero : (0 : UInt32).toNat = 0 := rfl
        omega
      refine causalAttention_eq_attendVectors hne hheads hc.heads hc.dim hdvd hle
        fun h p d hh hp hd => ?_
      have hpt : p ≤ t := by
        rw [UInt32.le_iff_toNat_le]
        have := UInt32.lt_iff_toNat_lt.mp hp
        omega
      obtain ⟨-, hkey, hvalue⟩ := hreads h p d hh hpt hd
      rw [hkLayer] at hkey
      rw [hvLayer] at hvalue
      exact ⟨hkey, hvalue⟩

end HeteroAccel
