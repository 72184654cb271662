import HeteroAccel.HydroXL.PassBounds
import HeteroAccel.HydroXL.Transformer

/-!
# The rows of a cache

With one key-value head the vectors that `writeKV` copies to a layer of the cache are the rows that
`causal_attention` reads back. Attention over the buffers of a layer is then attention to the key
and value vectors themselves.

## Main definitions

* `HydroXLKVCache.Stored`: a layer of the cache begins with the given keys and values.

## Main results

* `Stored.exists_writeKV`: the next position is written behind them;
* `exists_causalAttentionInto_stored`: `causal_attention` over them.
-/

namespace HeteroAccel

variable {α δ : Type}

/-! ## Rows of a buffer -/

/-- A buffer begins with the given rows. -/
def BeginsWith (width : ℕ) (rows : List (List α)) (buf : List α) : Prop :=
  ∀ t < rows.length, ∀ d < width, buf[t * width + d]? = (rows.getD t [])[d]?

/-- The next row is copied behind the rows that are there. -/
theorem BeginsWith.blit {width : ℕ} {rows : List (List α)} {row buf : List α}
    (h : BeginsWith width rows buf) (hrow : row.length = width)
    (hfit : rows.length * width + width ≤ buf.length) :
    BeginsWith width (rows ++ [row]) (Buffer.blit buf (rows.length * width) row) := by
  intro t ht d hd
  rw [List.length_append, List.length_singleton] at ht
  have hfit' : rows.length * width + row.length ≤ buf.length := by omega
  by_cases hlast : t = rows.length
  · subst hlast
    rw [Buffer.getElem?_blit_of_mem hfit' (by omega) (by omega), Nat.add_sub_cancel_left]
    simp
  · have hlt : (t + 1) * width ≤ rows.length * width := Nat.mul_le_mul_right _ (by omega)
    rw [Nat.succ_mul] at hlt
    rw [Buffer.getElem?_blit_of_notMem hfit' (by omega), h t (by omega) d hd]
    simp only [List.getD_eq_getElem?_getD, List.getElem?_append_left (by omega : t < rows.length)]

/-! ## Layers of a cache -/

namespace HydroXLKVCache

variable {c c' : HydroXLKVCache α} {l : ℕ} {es : List (List α × List α)} {pos : UInt32}

/-- The buffers of a layer begin with the given keys and values. -/
structure Stored (c : HydroXLKVCache α) (l : ℕ) (es : List (List α × List α)) : Prop where
  keys : ∀ buf, c.kData[l]? = some buf → BeginsWith c.dims.width (es.map Prod.fst) buf
  values : ∀ buf, c.vData[l]? = some buf → BeginsWith c.dims.width (es.map Prod.snd) buf

theorem stored_nil (c : HydroXLKVCache α) (l : ℕ) : c.Stored l [] := by
  constructor
  all_goals
    intro buf _ t ht
    exact absurd ht t.not_lt_zero

/-- The key and the value of the next position are written behind those that are stored. The other
layers are not touched. -/
theorem Stored.exists_writeKV (h : c.Stored l es) (hc : c.Sized) (hwidth : c.dims.width < 2 ^ 32)
    (hl : l < c.nLayers.toNat) (hpos : pos < c.maxSeqLen) (hes : es.length = pos.toNat)
    {k v : List α} (hk : k.length = c.dims.width) (hv : v.length = c.dims.width) :
    ∃ c', c.writeKV (.ofNat l) pos (some k) (some v) = some (true, c') ∧
      c'.Stored l (es ++ [(k, v)]) ∧ ∀ l' es', l' ≠ l → c.Stored l' es' → c'.Stored l' es' := by
  have hlayer : UInt32.ofNat l < c.nLayers := ofNat_lt hl
  have hlNat : (UInt32.ofNat l).toNat = l := by
    have hlt := c.nLayers.toNat_lt
    rw [UInt32.toNat_ofNat', Nat.mod_eq_of_lt (by omega)]
  obtain ⟨kBuf, vBuf, hkBuf, hvBuf, hkSize, hvSize⟩ := hc.buffers _ hlayer
  rw [hlNat] at hkBuf hvBuf
  have hfloats : (perLayerFloats c.nKvHeads c.maxSeqLen c.headDim).toNat =
      c.maxSeqLen.toNat * c.dims.width := (KVDims.floats_eq hwidth).trans c.dims.layerSize_eq
  have hsize : c.maxSeqLen.toNat * c.dims.width < 2 ^ 64 :=
    c.dims.layerSize_eq.symm.trans_lt (KVDims.layerSize_lt hwidth)
  have hwrite := writeKV_eq_some_true (k := k) (v := v) hc.allocated hlayer hpos hk hv
    (hlNat.symm ▸ hkBuf) (hlNat.symm ▸ hvBuf) (hkSize.trans hfloats) (hvSize.trans hfloats) hsize
  rw [hlNat] at hwrite
  refine ⟨_, hwrite, ?_, ?_⟩
  · -- the row of the position, in both buffers
    have hrow : (pos.toNat + 1) * c.dims.width ≤ c.maxSeqLen.toNat * c.dims.width :=
      Nat.mul_le_mul_right _ (UInt32.lt_iff_toNat_lt.mp hpos)
    rw [Nat.succ_mul] at hrow
    have hkLt := (List.getElem?_eq_some_iff.mp hkBuf).1
    have hvLt := (List.getElem?_eq_some_iff.mp hvBuf).1
    constructor
    · intro buf hbuf
      dsimp only at hbuf
      rw [List.getElem?_set_self hkLt] at hbuf
      cases hbuf
      have hblit := (h.keys kBuf hkBuf).blit hk (by
        rw [List.length_map, hes, hkSize, hfloats]
        exact hrow)
      rw [List.length_map, hes] at hblit
      rw [List.map_append]
      exact hblit
    · intro buf hbuf
      dsimp only at hbuf
      rw [List.getElem?_set_self hvLt] at hbuf
      cases hbuf
      have hblit := (h.values vBuf hvBuf).blit hv (by
        rw [List.length_map, hes, hvSize, hfloats]
        exact hrow)
      rw [List.length_map, hes] at hblit
      rw [List.map_append]
      exact hblit
  · intro l' es' hne h'
    constructor
    · intro buf hbuf
      rw [List.getElem?_set_ne hne.symm] at hbuf
      exact h'.keys buf hbuf
    · intro buf hbuf
      rw [List.getElem?_set_ne hne.symm] at hbuf
      exact h'.values buf hbuf

end HydroXLKVCache

/-! ## Attention to stored rows -/

section Attention

variable {ops : TensorOps α δ} {hp : Qwen2HParams α} {es : List (List α × List α)}
  {q kBuf vBuf out scores : List α} {maxSeqLen pos : UInt32}

theorem ofNat_add_one (pos : UInt32) : UInt32.ofNat (pos.toNat + 1) = pos + 1 := by
  rw [UInt32.ofNat_add, UInt32.ofNat_toNat]
  rfl

theorem toNat_add_one {pos bound : UInt32} (h : pos < bound) : (pos + 1).toNat = pos.toNat + 1 := by
  have hlt := UInt32.lt_iff_toNat_lt.mp h
  have hmax := bound.toNat_lt
  rw [← ofNat_add_one, UInt32.toNat_ofNat', Nat.mod_eq_of_lt (by omega)]

/-- `causal_attention` over buffers that begin with the keys and values of the positions up to
`pos`. -/
theorem exists_causalAttentionInto_stored (hone : hp.nKvHeads = 1) (hheads : hp.nHeads ≠ 0)
    (hdim : hp.nHeadDim ≠ 0) (hpos : pos < maxSeqLen) (hes : es.length = pos.toNat + 1)
    (hq : q.length = hp.nHeads.toNat * hp.nHeadDim.toNat)
    (hout : out.length = hp.nHeads.toNat * hp.nHeadDim.toNat)
    (hscores : maxSeqLen.toNat ≤ scores.length)
    (hkSize : kBuf.length = maxSeqLen.toNat * hp.nHeadDim.toNat)
    (hvSize : vBuf.length = maxSeqLen.toNat * hp.nHeadDim.toNat)
    (hk : BeginsWith hp.nHeadDim.toNat (es.map Prod.fst) kBuf)
    (hv : BeginsWith hp.nHeadDim.toNat (es.map Prod.snd) vBuf) :
    ∃ w, causalAttentionInto ops q (some kBuf) (some vBuf) out (pos + 1) hp.nHeads hp.nKvHeads
        hp.nHeadDim maxSeqLen (ops.div ops.one (ops.sqrt (ops.ofUInt32 hp.nHeadDim))) scores =
          some (true, Transformer.attention ops hp pos.toNat es q, w) ∧
      (Transformer.attention ops hp pos.toNat es q).length = out.length ∧
      w.length = scores.length := by
  unfold Transformer.attention
  dsimp only
  generalize ops.div ops.one (ops.sqrt (ops.ofUInt32 hp.nHeadDim)) = scale
  obtain ⟨hseq, hle⟩ := Bounds.next_le hpos
  have hnext := toNat_add_one hpos
  have hmod : hp.nHeads % hp.nKvHeads = 0 := by
    rw [hone]
    apply UInt32.toNat_inj.mp
    rw [UInt32.toNat_mod]
    exact Nat.mod_one _
  have hkv : hp.nKvHeads ≠ 0 := by
    rw [hone]
    decide
  -- what is read of a buffer is in its first rows
  have hreads : ∀ {buf : List α} {rows : List (List α)}, rows.length = pos.toNat + 1 →
      BeginsWith hp.nHeadDim.toNat rows buf → ∀ h t d, h < hp.nHeads → t < pos + 1 →
      d < hp.nHeadDim → buf[kvIndex hp.nHeads hp.nKvHeads hp.nHeadDim maxSeqLen h t d]? =
        (rows.getD t.toNat [])[(kvHead hp.nHeads hp.nKvHeads h).toNat * hp.nHeadDim.toNat +
          d.toNat]? := by
    intro buf rows hrows hbegins h t d hh ht hd
    obtain ⟨hhead, hindex⟩ := kvIndex_of_one_head hp.nHeadDim maxSeqLen t d hh
    have ht := UInt32.lt_iff_toNat_lt.mp ht
    rw [hone, hhead, hindex, Nat.zero_mul, Nat.zero_add]
    exact hbegins _ (by omega) _ (UInt32.lt_iff_toNat_lt.mp hd)
  have hwrap : hp.nKvHeads.toNat * maxSeqLen.toNat * hp.nHeadDim.toNat < 2 ^ 64 := by
    rw [hone]
    have hlt : maxSeqLen.toNat * hp.nHeadDim.toNat < 2 ^ 32 * 2 ^ 32 :=
      Nat.mul_lt_mul'' maxSeqLen.toNat_lt hp.nHeadDim.toNat_lt
    simpa using hlt
  have hfit : ReadsFit hp.nHeads hp.nKvHeads hp.nHeadDim maxSeqLen (pos + 1)
      (maxSeqLen.toNat * hp.nHeadDim.toNat) := by
    have hdims := readsFit_of_dims hmod hle hwrap
    rw [hone] at hdims ⊢
    simpa using hdims
  obtain ⟨v, w, hr, hvLength, hwLength⟩ := exists_causalAttentionInto ops scale hq hout hscores
    hseq hheads hkv hdim hmod hle (hkSize.symm ▸ hfit) (hvSize.symm ▸ hfit)
  -- the output is attention to the vectors
  have hdvd : hp.nKvHeads.toNat ∣ hp.nHeads.toNat := by
    rw [hone]
    exact Nat.one_dvd _
  have hvectors : causalAttention ops.floatOps (some q) (some kBuf) (some vBuf) (pos + 1) hp.nHeads
      hp.nKvHeads hp.nHeadDim maxSeqLen scale =
        (attendVectors ops.floatOps q (fun t => (es.getD t ([], [])).1)
          (fun t => (es.getD t ([], [])).2) (pos + 1) hp.nHeads hp.nKvHeads hp.nHeadDim
          scale).map some := by
    refine causalAttention_eq_attendVectors hseq hheads hkv hdim hdvd hle fun h t d hh ht hd => ?_
    have hkey := hreads (by simpa using hes) hk h t d hh ht hd
    have hvalue := hreads (by simpa using hes) hv h t d hh ht hd
    simp only [List.getD_eq_getElem?_getD, List.getElem?_map] at hkey hvalue ⊢
    rw [hkey, hvalue]
    constructor <;> cases es[t.toNat]? <;> rfl
  have hpositive : 0 < hp.nHeads.toNat * hp.nHeadDim.toNat :=
    Nat.mul_pos (pos_of_ne_zero hheads) (pos_of_ne_zero hdim)
  have hnull : ¬(q = [] ∨ out = []) := by
    simp [ne_nil_of_le hpositive hq.ge, ne_nil_of_le hpositive hout.ge]
  have hinto : (causalAttentionInto ops q (some kBuf) (some vBuf) out (pos + 1) hp.nHeads
      hp.nKvHeads hp.nHeadDim maxSeqLen scale scores).map _ = _ :=
    causalAttentionInto_eq q (pos + 1) hp.nHeadDim hout hscores
  rw [if_neg hnull, hvectors, hr, Option.map_some, ← ofNat_add_one] at hinto
  cases hresult : attendVectors ops.floatOps q (fun t => (es.getD t ([], [])).1)
      (fun t => (es.getD t ([], [])).2) (.ofNat (pos.toNat + 1)) hp.nHeads hp.nKvHeads hp.nHeadDim
      scale with
  | none =>
    rw [hresult] at hinto
    cases hinto
  | some heads =>
    rw [hresult] at hinto
    simp only [Option.map_some, Option.elim_some, Option.some.injEq, Prod.mk.injEq] at hinto
    rw [Option.getD_some, ← hinto.2.1]
    exact ⟨w, hr, hvLength, hwLength⟩

end Attention

end HeteroAccel
