import HeteroAccel.HydroXL.ForwardPass
import HeteroAccel.HydroXL.OperatorBounds
import HeteroAccel.Lib.OneRun

/-!
# Does a forward pass stay in its buffers?

A pass over weights that are as large as the operators take them to be. Its buffers have 32-bit
sizes, and so has the number of columns that `matvec` counts to; the cache has 64-bit sizes. There
is one rule for each operator, over states whose buffers and cache have their sizes (`Fits`).

## Main results

* `meets_pass`: the pass is defined when the vectors of the cache have fewer than 2^32 elements and
  `matvec` can count the columns of the feed-forward network, or never gets there;
* `meets_pass_of_null`: it is defined, and never succeeds, when the number of these elements is a
  multiple of 2^32, so that there is no vector;
* `pass_undefined_of_short`, `pass_undefined_of_ff`: otherwise it is not defined.
-/

namespace HeteroAccel

open OneRun
open Bytes (ofString)

variable {α δ : Type}

/-! ## States of the right sizes -/

/-- The elements of a layer of the cache. -/
def KVDims.floats (d : KVDims) : ℕ :=
  (HydroXLKVCache.perLayerFloats d.nKvHeads d.maxSeqLen d.headDim).toNat

/-- Short vectors do not make a large layer. -/
theorem KVDims.layerSize_lt {d : KVDims} (hwidth : d.width < 2 ^ 32) : d.layerSize < 2 ^ 64 := by
  rw [d.layerSize_eq]
  have hlt : d.maxSeqLen.toNat * d.width < 2 ^ 32 * 2 ^ 32 :=
    Nat.mul_lt_mul'' d.maxSeqLen.toNat_lt hwidth
  exact hlt.trans_eq (by decide)

/-- The size of a layer's cache does not wrap, if the width fits 32 bits. -/
theorem KVDims.floats_eq {d : KVDims} (hwidth : d.width < 2 ^ 32) : d.floats = d.layerSize :=
  HydroXLKVCache.toNat_mul_mul_toUInt64 (KVDims.layerSize_lt hwidth)

/-- The buffers have their sizes, and the cache that of its dimensions. -/
structure Fits (size : ForwardBuffer → UInt32) (d : KVDims) (s : ForwardState α) : Prop where
  sized : ∀ b, (s.buffers b).length = (size b).toNat
  cache : s.kvCache.Sized
  dims : s.kvCache.dims = d

namespace Fits

variable {size : ForwardBuffer → UInt32} {d : KVDims} {s : ForwardState α} {b : ForwardBuffer}
  {v : List α}

/-- A buffer may be replaced by one of its length. -/
theorem put (h : Fits size d s) (hv : v.length = (size b).toNat) : Fits size d (s.put b v) := by
  refine ⟨fun c => ?_, h.cache, h.dims⟩
  by_cases hc : c = b
  · subst hc
    rw [ForwardState.buffers_put, hv]
  · rw [ForwardState.buffers_put_of_ne s hc, h.sized]

theorem report (h : Fits size d s) (ok : Bool) : Fits size d (s.report ok) :=
  ⟨h.sized, h.cache, h.dims⟩

/-- A layer of the cache. -/
theorem layer (h : Fits size d s) {layer : UInt32} (hlayer : layer < d.nLayers) :
    ∃ kBuf vBuf, s.kvCache.kLayer layer = some kBuf ∧ s.kvCache.vLayer layer = some vBuf ∧
      kBuf.length = d.floats ∧ vBuf.length = d.floats := by
  obtain rfl := h.dims
  have hlayer : layer < s.kvCache.nLayers := hlayer
  obtain ⟨kBuf, vBuf, hk, hv, hkSize, hvSize⟩ := h.cache.buffers layer hlayer
  refine ⟨kBuf, vBuf, ?_, ?_, hkSize, hvSize⟩
  · rw [HydroXLKVCache.kLayer, if_neg (by simpa [h.cache.allocated] using hlayer), hk]
  · rw [HydroXLKVCache.vLayer, if_neg (by simpa [h.cache.allocated] using hlayer), hv]

end Fits

/-! ## Rules for the operators -/

namespace Bounds

variable {ops : TensorOps α δ} {size : ForwardBuffer → UInt32} {d : KVDims} {U : Prop}
  {E : ForwardState α → Prop} {b c x : ForwardBuffer}

/-- An operator that writes one buffer; `C` is what it says when it reports. -/
theorem operate {op : ForwardState α → List α → Option (Bool × List α)} {C : Bool → Prop}
    (hdefined : ∀ s, Fits size d s → ¬U → ∃ r, op s (s.buffers b) = some r)
    (hlength : ∀ s ok v, op s (s.buffers b) = some (ok, v) → v.length = (s.buffers b).length)
    (hok : ∀ s ok v, Fits size d s → op s (s.buffers b) = some (ok, v) → C ok) :
    Meets U (Fits size d) (ForwardM.operate b op) (fun ok s => Fits size d s ∧ C ok) E := by
  refine Meets.action (fun s hs hnone => ?_) fun s ok t hs ht => ?_
  · by_contra hU
    obtain ⟨r, hr⟩ := hdefined s hs hU
    rw [hr] at hnone
    cases hnone
  · obtain ⟨⟨ok', v⟩, hop, ht⟩ := Option.bind_eq_some_iff.mp ht
    cases ht
    have hv := (hlength s ok v hop).trans (hs.sized b)
    exact ⟨(hs.put hv).report ok, hok s ok v hs hop⟩

/-- A step that overwrites a buffer stays in bounds if it is defined and keeps the length. -/
theorem overwrite {op : ForwardState α → List α → Option (List α)}
    (hdefined : ∀ s, Fits size d s → ¬U → ∃ v, op s (s.buffers b) = some v)
    (hlength : ∀ s v, op s (s.buffers b) = some v → v.length = (s.buffers b).length) :
    Meets U (Fits size d) (ForwardM.overwrite b op) (fun _ => Fits size d) E := by
  refine Meets.action (fun s hs hnone => ?_) fun s ok t hs ht => ?_
  · by_contra hU
    obtain ⟨v, hv⟩ := hdefined s hs hU
    rw [hv] at hnone
    cases hnone
  · obtain ⟨v, hop, ht⟩ := Option.bind_eq_some_iff.mp ht
    cases ht
    exact hs.put ((hlength s v hop).trans (hs.sized b))

/-- A test that always succeeds. -/
theorem orFail_of_true {p : ForwardM α Bool} {e : Bytes}
    (h : Meets U (Fits size d) p (fun ok s => Fits size d s ∧ ok = true) E) :
    Meets U (Fits size d) (p.orFail e) (fun _ => Fits size d) E := by
  refine Meets.orFail (h.weaken fun ok s hs => ?_)
  rw [hs.2]
  exact hs.1

variable (ops) in
/-- `rms_norm` of an embedding. -/
theorem rmsNorm {weight : List α} {n : UInt32} (eps : α) (e : Bytes) (hn : n ≠ 0)
    (hweight : n.toNat ≤ weight.length) (hx : size x = n) (hb : size b = n) :
    Meets U (Fits size d) ((ForwardM.rmsNorm ops x weight b n eps).orFail e)
      (fun _ => Fits size d) E := by
  have hresult : ∀ s : ForwardState α, Fits size d s →
      ∃ v, HeteroAccel.rmsNorm ops (s.buffers x) weight (s.buffers b) n eps = some (true, v) :=
    fun s hs => exists_rmsNorm ops eps hn (hx ▸ (hs.sized x).ge) hweight (hb ▸ (hs.sized b).ge)
  refine orFail_of_true (operate (fun s hs _ => ?_) (fun s ok v hv => length_rmsNorm hv)
    fun s ok v hs hv => ?_)
  · obtain ⟨v, hv⟩ := hresult s hs
    exact ⟨_, hv⟩
  · obtain ⟨v', hv'⟩ := hresult s hs
    cases hv.symm.trans hv'
    rfl

variable (ops) in
/-- `matvec`, whose report is not looked at. -/
theorem matvec {a : List α} {mRows kCols : UInt32} (hx : size x = kCols) (hb : size b = mRows)
    (h : ¬U → kCols.toNat < 2 ^ 32 - 4 ∧ mRows.toNat * kCols.toNat ≤ a.length) :
    Meets U (Fits size d) (ForwardM.matvec ops a x b mRows kCols) (fun _ => Fits size d) E := by
  refine (operate (C := fun _ => True) (fun s hs hU => ?_) (fun s ok v hv => length_matvec hv)
    fun _ _ _ _ _ => trivial).weaken fun _ _ hs => hs.1
  obtain ⟨hcols, ha⟩ := h hU
  obtain ⟨ok, v, hv⟩ := exists_matvec ops hcols ha (hx ▸ (hs.sized x).ge) (hb ▸ (hs.sized b).ge)
  exact ⟨_, hv⟩

variable (ops) in
/-- `matvec` with columns that it cannot count. -/
theorem matvec_undefined {a : List α} {mRows kCols : UInt32} (ha : a ≠ [])
    (hcols : 2 ^ 32 - 4 ≤ kCols.toNat) (hrows : mRows ≠ 0) (hx : size x = kCols)
    (hb : size b = mRows) :
    Meets True (Fits size d) (ForwardM.matvec ops a x b mRows kCols) (fun _ _ => False)
      fun _ => False := by
  refine Meets.action (fun _ _ _ => trivial) fun s ok t hs ht => ?_
  have hx' : s.buffers x ≠ [] :=
    ne_nil_of_le (by omega : 0 < kCols.toNat) (hx ▸ (hs.sized x).ge)
  have hb' : s.buffers b ≠ [] := ne_nil_of_le (pos_of_ne_zero hrows) (hb ▸ (hs.sized b).ge)
  simp only [matvec_eq_none ops hcols hrows ha hx' hb'] at ht
  cases ht

/-- `embed_lookup`: a token that is not in the vocabulary is rejected. -/
theorem embedLookup {table : List α} {tokenId vocabSize n : UInt32} (e : Bytes) (hn : n ≠ 0)
    (htable : vocabSize.toNat * n.toNat ≤ table.length) (hb : size b = n)
    (hE : tokenId ≥ vocabSize → ∀ s, Fits size d s → E s) :
    Meets U (Fits size d) ((ForwardM.embedLookup table tokenId vocabSize n b).orFail e)
      (fun _ s => Fits size d s ∧ ¬tokenId ≥ vocabSize) E := by
  refine Meets.orFail (A := fun s => Fits size d s ∧ ¬tokenId ≥ vocabSize) ?_
  by_cases hge : tokenId ≥ vocabSize
  · refine (operate (C := fun ok => ok = false) (fun s hs _ => ⟨_, embedLookup_of_ge hge⟩)
      (fun s ok v hv => length_embedLookup hv) fun s ok v hs hv => ?_).weaken fun ok s hs => ?_
    · rw [embedLookup_of_ge hge] at hv
      cases hv
      rfl
    · rw [hs.2]
      exact hE hge s hs.1
  · have hresult : ∀ s : ForwardState α, Fits size d s → ∃ v,
        HeteroAccel.embedLookup table tokenId vocabSize n (s.buffers b) = some (true, v) :=
      fun s hs => exists_embedLookup hn htable (hb ▸ (hs.sized b).ge) hge
    refine (operate (C := fun ok => ok = true) (fun s hs _ => ?_)
      (fun s ok v hv => length_embedLookup hv) fun s ok v hs hv => ?_).weaken fun ok s hs => ?_
    · obtain ⟨v, hv⟩ := hresult s hs
      exact ⟨_, hv⟩
    · obtain ⟨v', hv'⟩ := hresult s hs
      cases hv.symm.trans hv'
      rfl
    · rw [hs.2]
      exact ⟨hs.1, hge⟩

variable (ops) in
theorem swiglu {n : UInt32} (hgate : size b = n) (hup : size x = n) (hout : size c = n) :
    Meets U (Fits size d) (ForwardM.swiglu ops b x c n) (fun _ => Fits size d) E := by
  refine overwrite (fun s hs _ => ?_) fun s v hv => Buffer.length_of_update hv
  exact exists_swiglu ops (hgate ▸ (hs.sized b).ge) (hup ▸ (hs.sized x).ge)
    (hout ▸ (hs.sized c).ge)

variable (ops) in
theorem residualAdd {n : UInt32} (hb : size b = n) (hx : size x = n) :
    Meets U (Fits size d) (ForwardM.residualAdd ops b x n) (fun _ => Fits size d) E := by
  refine overwrite (fun s hs _ => ?_) fun s v hv => Buffer.length_of_update hv
  exact exists_residualAdd ops (hb ▸ (hs.sized b).ge) (hx ▸ (hs.sized x).ge)

variable (ops) in
/-- A bias that is not there, or is as long as the buffer. -/
theorem addBias {bias : List α} {n : UInt32} (hb : size b = n)
    (hbias : ¬U → bias = [] ∨ n.toNat ≤ bias.length) :
    Meets U (Fits size d) (ForwardM.addBias ops bias b n) (fun _ => Fits size d) E := by
  unfold ForwardM.addBias
  split
  next hne =>
    refine overwrite (fun s hs hU => ?_) fun s v hv => Buffer.length_of_update hv
    exact exists_residualAdd ops (hb ▸ (hs.sized b).ge) ((hbias hU).resolve_left hne)
  next => exact Meets.pure () fun _ hs => hs

variable (ops) in
/-- `rope_apply`, whose report is not looked at. -/
theorem ropeApply {nHeads nKvHeads headDim : UInt32} (pos : UInt32) (freqBase freqScale : α)
    (h : ¬U → nHeads.toNat * headDim.toNat ≤ (size b).toNat ∧
      (size c = 0 ∨ nKvHeads.toNat * headDim.toNat ≤ (size c).toNat)) :
    Meets U (Fits size d)
      (ForwardM.ropeApply ops b nHeads c nKvHeads headDim pos freqBase freqScale)
      (fun _ => Fits size d) E := by
  refine Meets.action (fun s hs hnone => ?_) fun s ok t hs ht => ?_
  · by_contra hU
    obtain ⟨hq, hk⟩ := h hU
    have hk' : s.buffers c = [] ∨ nKvHeads.toNat * headDim.toNat ≤ (s.buffers c).length := by
      refine hk.imp (fun hzero => ?_) fun hle => (hs.sized c).symm ▸ hle
      exact List.eq_nil_of_length_eq_zero ((hs.sized c).trans (hzero ▸ rfl))
    obtain ⟨ok, q', k', hr⟩ :=
      exists_ropeApply ops pos freqBase freqScale ((hs.sized b).symm ▸ hq) hk'
    simp only [hr] at hnone
    cases hnone
  · obtain ⟨⟨ok', v, w⟩, hop, ht⟩ := Option.bind_eq_some_iff.mp ht
    cases ht
    obtain ⟨hv, hw⟩ := length_ropeApply hop
    exact ((hs.put (hv.trans (hs.sized b))).put (hw.trans (hs.sized c))).report ok

/-! ### The cache -/

theorem pointer_of_ne {v : List α} (h : v ≠ []) : pointer v = some v := if_neg h

/-- A step that is some report on a state that fits and another one that fits. -/
theorem tested {p : ForwardM α Bool} {e : Bytes} {C : Prop}
    (h : Meets U (Fits size d) p (fun ok s => Fits size d s ∧ (ok = true ↔ C)) E)
    (hE : ¬C → ∀ s, Fits size d s → E s) :
    Meets U (Fits size d) (p.orFail e) (fun _ s => Fits size d s ∧ C) E := by
  refine Meets.orFail (A := fun s => Fits size d s ∧ C) (h.weaken fun ok s hs => ?_)
  cases ok with
  | true => exact ⟨hs.1, hs.2.mp rfl⟩
  | false => exact hE (fun hC => Bool.false_ne_true (hs.2.mpr hC)) s hs.1

/-- `writeKV` of vectors that are long enough. -/
theorem writeKV {layer pos : UInt32} (e : Bytes) (hlayer : layer < d.nLayers)
    (hwrap : d.nKvHeads.toNat * d.maxSeqLen.toNat * d.headDim.toNat < 2 ^ 64)
    (hb : d.width ≤ (size b).toNat) (hc : d.width ≤ (size c).toNat) (hwidth : 0 < d.width)
    (hE : ¬pos < d.maxSeqLen → ∀ s, Fits size d s → E s) :
    Meets U (Fits size d) ((ForwardM.writeKV layer pos b c).orFail e)
      (fun _ s => Fits size d s ∧ pos < d.maxSeqLen) E := by
  have hresult : ∀ s : ForwardState α, Fits size d s → ∃ kvCache, s.kvCache.writeKV layer pos
      (pointer (s.buffers b)) (pointer (s.buffers c)) =
        some (decide (pos < d.maxSeqLen), kvCache) := by
    intro s hs
    obtain rfl := hs.dims
    have hbs : s.kvCache.dims.width ≤ (s.buffers b).length := (hs.sized b).symm ▸ hb
    have hcs : s.kvCache.dims.width ≤ (s.buffers c).length := (hs.sized c).symm ▸ hc
    rw [pointer_of_ne (ne_nil_of_le hwidth hbs), pointer_of_ne (ne_nil_of_le hwidth hcs)]
    by_cases hpos : pos < s.kvCache.maxSeqLen
    · obtain ⟨kvCache, hwrite⟩ := hs.cache.exists_writeKV hlayer hpos hwrap hbs hcs
      exact ⟨kvCache, hwrite.trans (by simp [HydroXLKVCache.dims, hpos])⟩
    · exact ⟨s.kvCache, (HydroXLKVCache.writeKV_of_ge (UInt32.not_lt.mp hpos)).trans
        (by simp [HydroXLKVCache.dims, hpos])⟩
  refine tested (Meets.action (fun s hs hnone => ?_) fun s ok t hs ht => ?_) hE
  · obtain ⟨kvCache, hwrite⟩ := hresult s hs
    simp only [hwrite] at hnone
    cases hnone
  · obtain ⟨kvCache, hwrite⟩ := hresult s hs
    simp only [hwrite] at ht
    cases ht
    obtain ⟨hcache, hdims⟩ := hs.cache.writeKV hwrite
    exact ⟨⟨hs.sized, hcache, hdims.trans hs.dims⟩, decide_eq_true_iff⟩

/-- `writeKV` without a vector. -/
theorem writeKV_of_null {layer pos : UInt32} (e : Bytes) (hb : size b = 0)
    (hE : ∀ s, Fits size d s → E s) :
    Meets U (Fits size d) ((ForwardM.writeKV layer pos b c).orFail e) (fun _ _ => False) E := by
  have hresult : ∀ s : ForwardState α, Fits size d s → s.kvCache.writeKV layer pos
      (pointer (s.buffers b)) (pointer (s.buffers c)) = some (false, s.kvCache) := by
    intro s hs
    have hnil : s.buffers b = [] :=
      List.eq_nil_of_length_eq_zero ((hs.sized b).trans (hb ▸ rfl))
    rw [hnil]
    exact HydroXLKVCache.writeKV_of_null
  have htest : Meets U (Fits size d) ((ForwardM.writeKV layer pos b c).orFail e)
      (fun _ s => Fits size d s ∧ False) E := by
    refine tested (Meets.action (fun s hs hnone => ?_) fun s ok t hs ht => ?_) fun _ => hE
    · simp only [hresult s hs] at hnone
      cases hnone
    · simp only [hresult s hs] at ht
      cases ht
      exact ⟨⟨hs.sized, hs.cache, hs.dims⟩, by simp⟩
  exact htest.weaken fun _ _ hs => hs.2

/-- `writeKV` of too short a vector at the last position. -/
theorem writeKV_undefined {layer pos : UInt32} (e : Bytes) (hlayer : layer < d.nLayers)
    (hpos : pos.toNat + 1 = d.maxSeqLen.toNat) (hb : size b ≠ 0) (hc : size c ≠ 0)
    (hshort : (size b).toNat < d.width) :
    Meets True (Fits size d) ((ForwardM.writeKV layer pos b c : ForwardM α Bool).orFail e)
      (fun _ _ => False) fun _ => False := by
  refine Meets.orFail (A := fun _ => False)
    (Meets.action (fun _ _ _ => trivial) fun s ok t hs ht => ?_)
  obtain rfl := hs.dims
  rw [pointer_of_ne (ne_nil_of_le (pos_of_ne_zero hb) (hs.sized b).ge),
    pointer_of_ne (ne_nil_of_le (pos_of_ne_zero hc) (hs.sized c).ge)] at ht
  have hnone := hs.cache.writeKV_eq_none (v := s.buffers c) hlayer hpos
    ((hs.sized b).trans_lt hshort)
  simp only [hnone] at ht
  cases ht

/-- The positions up to one in the cache: the sum does not wrap around. -/
theorem next_le {pos maxSeqLen : UInt32} (hpos : pos < maxSeqLen) :
    pos + 1 ≠ 0 ∧ pos + 1 ≤ maxSeqLen := by
  have hnext : (pos + 1).toNat = pos.toNat + 1 := by
    have hlt := UInt32.lt_iff_toNat_lt.mp hpos
    have hmax := maxSeqLen.toNat_lt
    rw [UInt32.toNat_add]
    exact Nat.mod_eq_of_lt (by simpa using Nat.lt_of_le_of_lt hlt hmax)
  constructor
  · intro hzero
    rw [hzero] at hnext
    cases hnext
  · rw [UInt32.le_iff_toNat_le, hnext]
    exact UInt32.lt_iff_toNat_lt.mp hpos

/-- `causal_attention` over a layer that has what it reads. -/
theorem causalAttention (ops : TensorOps α δ)
    {layer pos nHeads nKvHeads headDim : UInt32} (scale : α)
    (e : Bytes) (hlayer : layer < d.nLayers) (hpos : pos < d.maxSeqLen) (hheads : nHeads ≠ 0)
    (hkv : nKvHeads ≠ 0) (hdim : headDim ≠ 0) (hfloats : 0 < d.floats)
    (hreads : nHeads % nKvHeads = 0 →
      ReadsFit nHeads nKvHeads headDim d.maxSeqLen (pos + 1) d.floats)
    (hb : (size b).toNat = nHeads.toNat * headDim.toNat)
    (hx : (size x).toNat = nHeads.toNat * headDim.toNat) (hc : size c = d.maxSeqLen)
    (hE : ¬nHeads % nKvHeads = 0 → ∀ s, Fits size d s → E s) :
    Meets U (Fits size d)
      ((ForwardM.causalAttention ops layer x b (pos + 1) nHeads nKvHeads headDim scale c).orFail e)
      (fun _ s => Fits size d s ∧ nHeads % nKvHeads = 0) E := by
  obtain ⟨hseq, hle⟩ := next_le hpos
  -- the result depends on the grouping of the heads only
  have hresult : ∀ s : ForwardState α, Fits size d s → ∃ v w, causalAttentionInto ops (s.buffers x)
      ((s.kvCache.kLayer layer).bind pointer) ((s.kvCache.vLayer layer).bind pointer) (s.buffers b)
      (pos + 1) nHeads nKvHeads headDim s.kvCache.maxSeqLen scale (s.buffers c) =
        some (decide (nHeads % nKvHeads = 0), v, w) ∧ v.length = (s.buffers b).length ∧
          w.length = (s.buffers c).length := by
    intro s hs
    obtain ⟨kBuf, vBuf, hk, hv, hkSize, hvSize⟩ := hs.layer hlayer
    rw [hk, hv, Option.bind_some, Option.bind_some, pointer_of_ne (ne_nil_of_le hfloats hkSize.ge),
      pointer_of_ne (ne_nil_of_le hfloats hvSize.ge)]
    by_cases hmod : nHeads % nKvHeads = 0
    · obtain rfl := hs.dims
      have hscores : s.kvCache.maxSeqLen.toNat ≤ (s.buffers c).length := by
        rw [hs.sized c, hc]
        exact Nat.le_refl _
      obtain ⟨v, w, hr, hvw⟩ := exists_causalAttentionInto ops scale ((hs.sized x).trans hx)
        ((hs.sized b).trans hb) hscores hseq hheads hkv hdim hmod hle
        (hkSize.symm ▸ hreads hmod) (hvSize.symm ▸ hreads hmod)
      exact ⟨v, w, hr.trans (by simp [hmod]), hvw⟩
    · exact ⟨_, _, (causalAttentionInto_of_mod ops scale hmod).trans (by simp [hmod]), rfl, rfl⟩
  refine tested (Meets.action (fun s hs hnone => ?_) fun s ok t hs ht => ?_) hE
  · obtain ⟨v, w, hr, -⟩ := hresult s hs
    simp only [hr] at hnone
    cases hnone
  · obtain ⟨v, w, hr, hv, hw⟩ := hresult s hs
    simp only [hr] at ht
    cases ht
    exact ⟨((hs.put (hv.trans (hs.sized b))).put (hw.trans (hs.sized c))).report _,
      decide_eq_true_iff⟩

end Bounds

/-! ## The weights -/

/-- The elements of a tensor that a pass reads, of a bias if there is one: rows and columns are
counted in 32 bits. -/
def LayerTensor.read (hp : Qwen2HParams α) : LayerTensor → ℕ
  | attnNorm | ffnNorm => hp.nEmbd.toNat
  | attnQ => (hp.nHeads * hp.nHeadDim).toNat * hp.nEmbd.toNat
  | attnK | attnV => (hp.nKvHeads * hp.nHeadDim).toNat * hp.nEmbd.toNat
  | attnOut => hp.nEmbd.toNat * (hp.nHeads * hp.nHeadDim).toNat
  | attnQBias => (hp.nHeads * hp.nHeadDim).toNat
  | attnKBias | attnVBias => (hp.nKvHeads * hp.nHeadDim).toNat
  | ffnGate | ffnUp => hp.nFf.toNat * hp.nEmbd.toNat
  | ffnDown => hp.nEmbd.toNat * hp.nFf.toNat

/-- What holds of every loaded model and every cache of its dimensions: the weights beside the key
and value projections have the elements that a pass reads. -/
structure Suits (m : HydroXLModel α) (d : KVDims) : Prop where
  loaded : m.loaded = true
  nLayers : d.nLayers = m.hparams.nLayers
  nKvHeads : d.nKvHeads = m.hparams.nKvHeads
  headDim : d.headDim = m.hparams.nHeadDim
  positive : d.Positive
  vocabSize : m.hparams.vocabSize ≠ 0
  nEmbd : m.hparams.nEmbd ≠ 0
  nEmbd_lt : m.hparams.nEmbd.toNat < 2 ^ 31
  nHeads : m.hparams.nHeads ≠ 0
  nFf : m.hparams.nFf ≠ 0
  heads : (m.hparams.nHeads * m.hparams.nHeadDim).toNat =
    m.hparams.nHeads.toNat * m.hparams.nHeadDim.toNat
  heads_lt : (m.hparams.nHeads * m.hparams.nHeadDim).toNat < 2 ^ 31
  tokEmbd : m.hparams.vocabSize.toNat * m.hparams.nEmbd.toNat ≤ m.tokEmbd.length
  outputNorm : m.hparams.nEmbd.toNat ≤ m.outputNorm.length
  lmHead : m.hparams.vocabSize.toNat * m.hparams.nEmbd.toNat ≤ m.lmHeadWeights.length
  layers : m.layers.length = m.hparams.nLayers.toNat
  weights : ∀ w ∈ m.layers, ∀ t : LayerTensor, t.isBias = false → t ∉ [.attnK, .attnV] →
    t.read m.hparams ≤ (t.get w).length
  biases : ∀ w ∈ m.layers, ∀ t : LayerTensor, t.isBias = true →
    t.get w = [] ∨ t.read m.hparams ≤ (t.get w).length

/-- The key and value projections have the elements that a pass reads. -/
def KvSuit (m : HydroXLModel α) : Prop :=
  ∀ w ∈ m.layers, ∀ t ∈ [LayerTensor.attnK, .attnV], t.read m.hparams ≤ (t.get w).length

/-! ## The pass -/

namespace HydroXLForwardPass

variable {ops : TensorOps α δ} {m : HydroXLModel α} {d d' : KVDims} {U : Prop}
  {w : Qwen2LayerWeights α} {E : ForwardState α → Prop}

/-- The states of a pass. -/
abbrev Inside (m : HydroXLModel α) (d : KVDims) : ForwardState α → Prop :=
  Fits (bufferSize m.hparams d.maxSeqLen) d

variable (ops) in
theorem meets_project (hm : Suits m d) (hw : w ∈ m.layers) (pos : UInt32)
    (hkv : ¬U → KvSuit m ∧ (m.hparams.nKvHeads * m.hparams.nHeadDim = 0 ∨
      m.hparams.nKvHeads.toNat * m.hparams.nHeadDim.toNat ≤
        (m.hparams.nKvHeads * m.hparams.nHeadDim).toNat)) :
    Meets U (Inside m d') (project ops m.hparams w pos) (fun _ => Inside m d') E := by
  have hcols : m.hparams.nEmbd.toNat < 2 ^ 32 - 4 := hm.nEmbd_lt.trans (by decide)
  refine (Bounds.matvec ops rfl rfl fun _ => ⟨hcols, ?_⟩).bind fun _ => ?_
  · exact hm.weights w hw .attnQ rfl (by decide)
  refine (Bounds.matvec ops rfl rfl fun hU => ⟨hcols, ?_⟩).bind fun _ => ?_
  · exact (hkv hU).1 w hw .attnK (by decide)
  refine (Bounds.matvec ops rfl rfl fun hU => ⟨hcols, ?_⟩).bind fun _ => ?_
  · exact (hkv hU).1 w hw .attnV (by decide)
  refine (Bounds.addBias ops rfl fun _ => hm.biases w hw .attnQBias rfl).bind fun _ => ?_
  refine (Bounds.addBias ops rfl fun _ => hm.biases w hw .attnKBias rfl).bind fun _ => ?_
  refine (Bounds.addBias ops rfl fun _ => hm.biases w hw .attnVBias rfl).bind fun _ => ?_
  refine (Bounds.ropeApply ops pos _ _ fun hU => ⟨hm.heads.ge, (hkv hU).2⟩).bind fun _ => ?_
  exact Meets.pure _ fun _ hs => hs

variable (ops) in
/-- The norm and the projections of a layer. -/
theorem meets_attend_front (hm : Suits m d) (hw : w ∈ m.layers) (pos : UInt32)
    {R : Unit → ForwardState α → Prop} {rest : ForwardM α Unit}
    (hkv : ¬U → KvSuit m ∧ (m.hparams.nKvHeads * m.hparams.nHeadDim = 0 ∨
      m.hparams.nKvHeads.toNat * m.hparams.nHeadDim.toNat ≤
        (m.hparams.nKvHeads * m.hparams.nHeadDim).toNat))
    (hrest : Meets U (Inside m d') rest R E) (e : Bytes) :
    Meets U (Inside m d') (do
      (ForwardM.rmsNorm ops .hidden w.attnNorm .normed m.hparams.nEmbd
        m.hparams.rmsNormEps).orFail e
      project ops m.hparams w pos
      rest) R E := by
  refine (Bounds.rmsNorm ops _ e hm.nEmbd (hm.weights w hw .attnNorm rfl (by decide)) rfl rfl).bind
    fun _ => ?_
  exact (meets_project ops hm hw pos hkv).bind fun _ => hrest

/-- A cache that a pass at the position `pos` can work on: its key vectors are not longer than those
of the model, and a layer has what is read of it. -/
structure Serves (m : HydroXLModel α) (d : KVDims) (pos : UInt32) : Prop where
  kvSize : (m.hparams.nKvHeads * m.hparams.nHeadDim).toNat =
    m.hparams.nKvHeads.toNat * m.hparams.nHeadDim.toNat
  nLayers : m.hparams.nLayers ≤ d.nLayers
  width_pos : 0 < d.width
  width_le : d.width ≤ (m.hparams.nKvHeads * m.hparams.nHeadDim).toNat
  reads : pos < d.maxSeqLen → m.hparams.nHeads % m.hparams.nKvHeads = 0 →
    ReadsFit m.hparams.nHeads m.hparams.nKvHeads m.hparams.nHeadDim d.maxSeqLen
      (pos + 1) d.layerSize

/-- A cache of the model's dimensions, if its vectors have fewer than 2^32 elements. -/
theorem serves_of_dims (hm : Suits m d) (hwidth : d.width < 2 ^ 32) (pos : UInt32) :
    Serves m d pos := by
  have hsize : (m.hparams.nKvHeads * m.hparams.nHeadDim).toNat = d.width := by
    rw [UInt32.toNat_mul, ← hm.nKvHeads, ← hm.headDim]
    exact Nat.mod_eq_of_lt hwidth
  have hwrap := KVDims.layerSize_lt hwidth
  refine ⟨?_, UInt32.le_of_eq hm.nLayers.symm, ?_, hsize.ge, fun hpos hmod => ?_⟩
  · rw [hsize, KVDims.width, hm.nKvHeads, hm.headDim]
  · exact Nat.mul_pos (pos_of_ne_zero hm.positive.2.1) (pos_of_ne_zero hm.positive.2.2.2)
  · rw [← hm.nKvHeads] at hmod
    rw [← hm.nKvHeads, ← hm.headDim]
    exact readsFit_of_dims hmod (Bounds.next_le hpos).2 hwrap

variable (ops) in
/-- The first half of a layer. -/
theorem meets_attend (hm : Suits m d) (hkv : KvSuit m) {l pos : UInt32} (hd : Serves m d' pos)
    (hw : w ∈ m.layers) (hl : l < d'.nLayers)
    (hE : ¬(pos < d'.maxSeqLen ∧ m.hparams.nHeads % m.hparams.nKvHeads = 0) →
      ∀ s, Inside m d' s → E s) :
    Meets U (Inside m d') (attend ops m.hparams w l pos)
      (fun _ s => Inside m d' s ∧
        (pos < d'.maxSeqLen ∧ m.hparams.nHeads % m.hparams.nKvHeads = 0)) E := by
  have hwidth : d'.width < 2 ^ 32 := hd.width_le.trans_lt (UInt32.toNat_lt _)
  have hfloats := KVDims.floats_eq hwidth
  have hkvHeads : m.hparams.nKvHeads ≠ 0 := hm.nKvHeads ▸ hm.positive.2.1
  have hheadDim : m.hparams.nHeadDim ≠ 0 := hm.headDim ▸ hm.positive.2.2.2
  unfold attend
  refine meets_attend_front ops hm hw pos (fun _ => ⟨hkv, .inr hd.kvSize.ge⟩) ?_ _
  refine (Bounds.writeKV _ hl (KVDims.layerSize_lt hwidth) hd.width_le hd.width_le hd.width_pos
    fun hlt => hE fun h => hlt h.1).bind fun _ => ?_
  refine Meets.of_and fun hlt => ?_
  have hlayer : 0 < d'.layerSize := by
    rw [d'.layerSize_eq]
    exact Nat.mul_pos (Nat.zero_lt_of_lt (UInt32.lt_iff_toNat_lt.mp hlt)) hd.width_pos
  refine (Bounds.causalAttention ops _ _ hl hlt hm.nHeads hkvHeads hheadDim (hfloats ▸ hlayer)
    (fun hmod => hfloats ▸ hd.reads hlt hmod) hm.heads hm.heads rfl
    fun hmod => hE fun h => hmod h.2).bind fun _ => ?_
  refine Meets.of_and fun hmod => ?_
  refine (Bounds.matvec ops rfl rfl fun _ => ⟨hm.heads_lt.trans (by decide), ?_⟩).bind fun _ => ?_
  · exact hm.weights w hw .attnOut rfl (by decide)
  have hadd : Meets U (Inside m d') (ForwardM.residualAdd ops .hidden .projOut m.hparams.nEmbd)
      (fun _ => Inside m d') E := Bounds.residualAdd ops rfl rfl
  exact hadd.weaken fun _ _ hs => ⟨hs, hlt, hmod⟩

variable (ops) in
/-- Without vectors for the cache the first half fails. -/
theorem meets_attend_of_null (hm : Suits m d) (hkv : KvSuit m)
    (hzero : m.hparams.nKvHeads * m.hparams.nHeadDim = 0) (hw : w ∈ m.layers) (l pos : UInt32)
    (hE : ∀ s, Inside m d s → E s) :
    Meets U (Inside m d) (attend ops m.hparams w l pos) (fun _ _ => False) E := by
  unfold attend
  refine meets_attend_front ops hm hw pos (fun _ => ⟨hkv, .inl hzero⟩) ?_ _
  exact (Bounds.writeKV_of_null _ hzero hE).bind fun _ _ hfalse => hfalse.elim

variable (ops) in
/-- With too short vectors for the cache the first half is not defined at the last position. -/
theorem attend_undefined (hm : Suits m d)
    (hne : m.hparams.nKvHeads * m.hparams.nHeadDim ≠ 0)
    (hshort : (m.hparams.nKvHeads * m.hparams.nHeadDim).toNat < d.width) (hw : w ∈ m.layers)
    {l pos : UInt32} (hl : l < d.nLayers) (hpos : pos.toNat + 1 = d.maxSeqLen.toNat) :
    Meets True (Inside m d) (attend ops m.hparams w l pos) (fun _ _ => False) fun _ => False := by
  unfold attend
  refine meets_attend_front ops hm hw pos (fun hU => absurd trivial hU) ?_ _
  exact (Bounds.writeKV_undefined _ hl hpos hne hne hshort).bind fun _ _ hfalse => hfalse.elim

variable (ops) in
/-- The second half of a layer. -/
theorem meets_feedForward (hm : Suits m d) (hff : m.hparams.nFf.toNat < 2 ^ 32 - 4)
    (hw : w ∈ m.layers) (l : UInt32) :
    Meets U (Inside m d') (feedForward ops m.hparams w l) (fun _ => Inside m d') E := by
  have hcols : m.hparams.nEmbd.toNat < 2 ^ 32 - 4 := hm.nEmbd_lt.trans (by decide)
  unfold feedForward
  refine (Bounds.rmsNorm ops _ _ hm.nEmbd (hm.weights w hw .ffnNorm rfl (by decide)) rfl rfl).bind
    fun _ => ?_
  refine (Bounds.matvec ops rfl rfl fun _ => ⟨hcols, ?_⟩).bind fun _ => ?_
  · exact hm.weights w hw .ffnGate rfl (by decide)
  refine (Bounds.matvec ops rfl rfl fun _ => ⟨hcols, ?_⟩).bind fun _ => ?_
  · exact hm.weights w hw .ffnUp rfl (by decide)
  have hswiglu : Meets U (Inside m d') (ForwardM.swiglu ops .gateBuf .upBuf .ffnBuf m.hparams.nFf)
      (fun _ => Inside m d') E := Bounds.swiglu ops rfl rfl rfl
  refine hswiglu.bind fun _ => ?_
  refine (Bounds.matvec ops rfl rfl fun _ => ⟨hff, ?_⟩).bind fun _ => ?_
  · exact hm.weights w hw .ffnDown rfl (by decide)
  exact Bounds.residualAdd ops rfl rfl

variable (ops) in
/-- With more columns than `matvec` can count the second half is not defined. -/
theorem feedForward_undefined (hm : Suits m d) (hff : 2 ^ 32 - 4 ≤ m.hparams.nFf.toNat)
    (hw : w ∈ m.layers) (l : UInt32) :
    Meets True (Inside m d') (feedForward ops m.hparams w l) (fun _ _ => False) fun _ => False := by
  have hdown : w.ffnDown ≠ [] := by
    have hread := hm.weights w hw .ffnDown rfl (by decide)
    refine ne_nil_of_le (Nat.mul_pos (pos_of_ne_zero hm.nEmbd) ?_) hread
    exact pos_of_ne_zero hm.nFf
  unfold feedForward
  refine (Bounds.rmsNorm ops _ _ hm.nEmbd (hm.weights w hw .ffnNorm rfl (by decide)) rfl rfl).bind
    fun _ => ?_
  refine (Bounds.matvec ops rfl rfl fun hU => absurd trivial hU).bind fun _ => ?_
  refine (Bounds.matvec ops rfl rfl fun hU => absurd trivial hU).bind fun _ => ?_
  have hswiglu : Meets True (Inside m d')
      (ForwardM.swiglu ops .gateBuf .upBuf .ffnBuf m.hparams.nFf) (fun _ => Inside m d')
      fun _ => False := Bounds.swiglu ops rfl rfl rfl
  refine hswiglu.bind fun _ => ?_
  exact (Bounds.matvec_undefined ops hdown hff hm.nEmbd rfl rfl).bind fun _ _ hfalse => hfalse.elim

/-! ### The layers -/

/-- The weights and the number of a layer. -/
theorem exists_layer (hm : Suits m d) {l : ℕ} (hl : l < m.hparams.nLayers.toNat) :
    ∃ w ∈ m.layers, m.layers[l]? = some w ∧ UInt32.ofNat l < m.hparams.nLayers := by
  have hlength : l < m.layers.length := hl.trans_eq hm.layers.symm
  exact ⟨m.layers[l], List.getElem_mem hlength, List.getElem?_eq_getElem hlength, ofNat_lt hl⟩

variable (ops) in
theorem meets_layer (hm : Suits m d) (hkv : KvSuit m) {pos : UInt32} (hd : Serves m d' pos)
    (hff : m.hparams.nFf.toNat < 2 ^ 32 - 4 ∨ m.hparams.nHeads % m.hparams.nKvHeads ≠ 0)
    {l : ℕ} (hl : l < m.hparams.nLayers.toNat)
    (hE : ¬(pos < d'.maxSeqLen ∧ m.hparams.nHeads % m.hparams.nKvHeads = 0) →
      ∀ s, Inside m d' s → E s) :
    Meets U (Inside m d') (layer ops m pos l)
      (fun _ s => Inside m d' s ∧ pos < d'.maxSeqLen) E := by
  obtain ⟨w, hw, hlayer, hlt⟩ := exists_layer hm hl
  unfold layer
  rw [hlayer]
  refine (meets_attend ops hm hkv hd hw (UInt32.lt_of_lt_of_le hlt hd.nLayers) hE).bind
    fun _ => ?_
  refine Meets.of_and fun haccept => ?_
  have hff : m.hparams.nFf.toNat < 2 ^ 32 - 4 := hff.resolve_right fun hmod => hmod haccept.2
  exact (meets_feedForward ops hm hff hw _).weaken fun _ _ hs => ⟨hs, haccept.1⟩

/-- The numbers of the layers, the first one apart. -/
theorem range_of_pos {n : ℕ} (hpos : 0 < n) :
    ∃ rest, List.range n = 0 :: rest ∧ ∀ l ∈ rest, l < n := by
  obtain ⟨n, rfl⟩ := Nat.exists_eq_succ_of_ne_zero hpos.ne'
  refine ⟨(List.range n).map Nat.succ, List.range_succ_eq_map, fun l hl => ?_⟩
  obtain ⟨i, hi, rfl⟩ := List.mem_map.mp hl
  exact Nat.succ_lt_succ (List.mem_range.mp hi)

theorem nLayers_pos (hm : Suits m d) : 0 < m.hparams.nLayers.toNat := by
  rw [← hm.nLayers]
  exact pos_of_ne_zero hm.positive.1

variable (ops) in
/-- What is done behind the layers. -/
theorem meets_head (hm : Suits m d) (e : Bytes) :
    Meets U (Inside m d') (do
      (ForwardM.rmsNorm ops .hidden m.outputNorm .normed m.hparams.nEmbd
        m.hparams.rmsNormEps).orFail e
      let _ ← ForwardM.matvec ops m.lmHeadWeights .normed .logits m.hparams.vocabSize
        m.hparams.nEmbd) (fun _ => Inside m d') E := by
  have hcols : m.hparams.nEmbd.toNat < 2 ^ 32 - 4 := hm.nEmbd_lt.trans (by decide)
  refine (Bounds.rmsNorm ops _ _ hm.nEmbd hm.outputNorm rfl rfl).bind fun _ => ?_
  refine (Bounds.matvec ops rfl rfl fun _ => ⟨hcols, hm.lmHead⟩).bind fun _ => ?_
  exact Meets.pure _ fun _ hs => hs

variable (ops) in
/-- **A pass in its buffers.** It is defined, and succeeds for the tokens of the vocabulary and the
positions of the cache only. -/
theorem meets_pass (hm : Suits m d) (hkv : KvSuit m) {tokenId pos : UInt32} (hd : Serves m d' pos)
    (hff : m.hparams.nFf.toNat < 2 ^ 32 - 4 ∨ m.hparams.nHeads % m.hparams.nKvHeads ≠ 0)
    (hE : ¬(¬tokenId ≥ m.hparams.vocabSize ∧ pos < d'.maxSeqLen ∧
      m.hparams.nHeads % m.hparams.nKvHeads = 0) → ∀ s, Inside m d' s → E s) :
    Meets False (Inside m d') (pass ops m tokenId pos)
      (fun _ s => Inside m d' s ∧ (¬tokenId ≥ m.hparams.vocabSize ∧ pos < d'.maxSeqLen)) E := by
  refine (Bounds.embedLookup _ hm.nEmbd hm.tokEmbd rfl fun hge => hE fun h => h.1 hge).bind
    fun _ => ?_
  refine Meets.of_and fun htoken => ?_
  obtain ⟨rest, hrange, hrest⟩ := range_of_pos (nLayers_pos hm)
  rw [hrange]
  have hlayer : ∀ l, l < m.hparams.nLayers.toNat → Meets False (Inside m d') (layer ops m pos l)
      (fun _ s => Inside m d' s ∧ pos < d'.maxSeqLen) E := fun l hl =>
    meets_layer ops hm hkv hd hff hl fun h => hE fun h' => h h'.2
  refine (Meets.forM_cons (hlayer 0 (nLayers_pos hm)) fun l hl =>
    Meets.of_and fun _ => hlayer l (hrest l hl)).bind fun _ => ?_
  refine Meets.of_and fun hpos => ?_
  exact (meets_head ops hm _).weaken fun _ _ hs => ⟨hs, htoken, hpos⟩

variable (ops) in
/-- A pass whose layers fail or are undefined, as the first one is. -/
theorem meets_pass_of_layer (hm : Suits m d) {tokenId pos : UInt32}
    (hE : tokenId ≥ m.hparams.vocabSize → ∀ s, Inside m d' s → E s)
    (hlayer : ∀ w ∈ m.layers, UInt32.ofNat 0 < m.hparams.nLayers → Meets U (Inside m d')
      (do attend ops m.hparams w (.ofNat 0) pos; feedForward ops m.hparams w (.ofNat 0))
      (fun _ _ => False) E) :
    Meets U (Inside m d') (pass ops m tokenId pos) (fun _ _ => False) E := by
  refine (Bounds.embedLookup _ hm.nEmbd hm.tokEmbd rfl hE).bind fun _ => ?_
  refine Meets.of_and fun _ => ?_
  obtain ⟨rest, hrange, -⟩ := range_of_pos (nLayers_pos hm)
  obtain ⟨w, hw, hfirst, hlt⟩ := exists_layer hm (nLayers_pos hm)
  have hzero : Meets U (Inside m d') (layer ops m pos 0) (fun _ _ => False) E := by
    unfold layer
    rw [hfirst]
    exact hlayer w hw hlt
  rw [hrange]
  refine (Meets.forM_cons hzero fun _ _ _ hfalse => hfalse.elim).bind fun _ => ?_
  exact fun _ hfalse => hfalse.elim

variable (ops) in
/-- A pass without vectors for the cache is defined, and fails. -/
theorem meets_pass_of_null (hm : Suits m d) (hkv : KvSuit m)
    (hzero : m.hparams.nKvHeads * m.hparams.nHeadDim = 0) (tokenId pos : UInt32) :
    Meets False (Inside m d) (pass ops m tokenId pos) (fun _ _ => False) (Inside m d) := by
  refine meets_pass_of_layer ops hm (fun _ _ hs => hs) fun w hw _ => ?_
  exact (meets_attend_of_null ops hm hkv hzero hw _ pos fun _ hs => hs).bind
    fun _ _ hfalse => hfalse.elim

variable (ops) in
/-- A pass with too short vectors for the cache is not defined at the last position. -/
theorem pass_undefined_of_short (hm : Suits m d)
    (hne : m.hparams.nKvHeads * m.hparams.nHeadDim ≠ 0)
    (hshort : (m.hparams.nKvHeads * m.hparams.nHeadDim).toNat < d.width) {tokenId pos : UInt32}
    (htoken : ¬tokenId ≥ m.hparams.vocabSize) (hpos : pos.toNat + 1 = d.maxSeqLen.toNat) :
    Meets True (Inside m d) (pass ops m tokenId pos) (fun _ _ => False) fun _ => False := by
  refine meets_pass_of_layer ops hm (fun hge => absurd hge htoken) fun w hw hlt => ?_
  exact (attend_undefined ops hm hne hshort hw (hm.nLayers ▸ hlt) hpos).bind fun _ _ hfalse =>
    hfalse.elim

variable (ops) in
/-- A pass that gets to more columns than `matvec` can count is not defined. -/
theorem pass_undefined_of_ff (hm : Suits m d) (hkv : KvSuit m) (hwidth : d.width < 2 ^ 32)
    (hff : 2 ^ 32 - 4 ≤ m.hparams.nFf.toNat) (hmod : m.hparams.nHeads % m.hparams.nKvHeads = 0)
    {tokenId pos : UInt32} (htoken : ¬tokenId ≥ m.hparams.vocabSize) (hpos : pos < d.maxSeqLen) :
    Meets True (Inside m d) (pass ops m tokenId pos) (fun _ _ => False) fun _ => False := by
  refine meets_pass_of_layer ops hm (fun hge => absurd hge htoken) fun w hw hlt => ?_
  refine (meets_attend ops hm hkv (serves_of_dims hm hwidth pos) hw (hm.nLayers ▸ hlt)
    fun h => absurd ⟨hpos, hmod⟩ h).bind fun _ => ?_
  exact Meets.of_and fun _ => feedForward_undefined ops hm hff hw _

end HydroXLForwardPass

end HeteroAccel
