import HeteroAccel.HydroXL.PassIndependence
import HeteroAccel.HydroXL.StoredRows

/-!
# A forward pass is one step of decoding

A pass at a position, over a cache that holds the keys and values of the positions before it, leaves
in its buffers what the layers of the transformer compute for this position, and in the cache the
keys and values of the position behind the others. There is one rule for each operator, over states
of which the contents of some buffers are known.

## Main definitions

* `Holds`: what is known of the buffers and of the cache;
* `OneHead`: models and caches with which every operator is defined, for one key-value head.

## Main results

* `meets_layer_decode`: a layer is `CausalStack.decodeLayer`;
* `meets_pass_decode`: the pass is `CausalStack.decode`, between the embedding and the logits;
* `fails_pass_of_token`, `fails_pass_of_full`: when it fails.
-/

namespace HeteroAccel

open OneRun
open Bytes (ofString ofDecimal)

variable {α δ : Type}

/-! ## States of which something is known -/

/-- The buffers whose content is known. -/
abbrev Contents (α : Type) := ForwardBuffer → Option (List α)

/-- What the layers of a cache begin with. -/
abbrev CacheRows (α : Type) := ℕ → List (List α × List α)

/-- Only one buffer is known. -/
def Contents.only (b : ForwardBuffer) (v : List α) : Contents α :=
  Function.update (fun _ => none) b (some v)

/-- The buffers and the cache have their sizes, and hold what is known. -/
structure Holds (size : ForwardBuffer → UInt32) (d : KVDims) (known : Contents α)
    (rows : CacheRows α) (s : ForwardState α) : Prop where
  fits : Fits size d s
  known : ∀ b v, known b = some v → s.buffers b = v
  stored : ∀ l < d.nLayers.toNat, s.kvCache.Stored l (rows l)

namespace Holds

variable {size : ForwardBuffer → UInt32} {d : KVDims} {known known' : Contents α}
  {rows : CacheRows α} {s : ForwardState α} {b : ForwardBuffer} {v : List α}

theorem mono (h : Holds size d known rows s) (hle : ∀ b v, known' b = some v → known b = some v) :
    Holds size d known' rows s :=
  ⟨h.fits, fun b v hb => h.known b v (hle b v hb), h.stored⟩

/-- All but one buffer is forgotten. -/
theorem forget (h : Holds size d known rows s) (hb : known b = some v) :
    Holds size d (.only b v) rows s := by
  refine h.mono fun c w hc => ?_
  by_cases hcb : c = b
  · subst hcb
    rw [Contents.only, Function.update_self] at hc
    rw [hb, hc]
  · rw [Contents.only, Function.update_of_ne hcb] at hc
    cases hc

/-- A buffer with a new content, known or not. -/
theorem put (h : Holds size d known rows s) (hv : v.length = (size b).toNat)
    {o : Option (List α)} (ho : ∀ u, o = some u → u = v) :
    Holds size d (Function.update known b o) rows (s.put b v) := by
  refine ⟨h.fits.put hv, fun c w hc => ?_, h.stored⟩
  by_cases hcb : c = b
  · subst hcb
    rw [Function.update_self] at hc
    rw [ForwardState.buffers_put, ho w hc]
  · rw [Function.update_of_ne hcb] at hc
    rw [ForwardState.buffers_put_of_ne s hcb, h.known c w hc]

theorem put_some (h : Holds size d known rows s) (hv : v.length = (size b).toNat) :
    Holds size d (Function.update known b (some v)) rows (s.put b v) :=
  h.put hv fun _ hu => (Option.some.inj hu).symm

theorem report (h : Holds size d known rows s) (ok : Bool) :
    Holds size d known rows (s.report ok) :=
  ⟨h.fits.report ok, h.known, h.stored⟩

/-- A known buffer has its size. -/
theorem length (h : Holds size d known rows s) (hb : known b = some v) :
    v.length = (size b).toNat := by
  rw [← h.known b v hb]
  exact h.fits.sized b

end Holds

/-! ## Rules for the operators -/

namespace Decodes

variable {ops : TensorOps α δ} {size : ForwardBuffer → UInt32} {d : KVDims} {U : Prop}
  {E : ForwardState α → Prop} {known : Contents α} {rows : CacheRows α}
  {b c x : ForwardBuffer} {u v : List α} {n : UInt32}

/-- An operator that fills a buffer with `v`; `C` is what it says when it reports. -/
theorem operate {op : ForwardState α → List α → Option (Bool × List α)} {C : Bool → Prop}
    (h : ∀ s, Holds size d known rows s → ∃ ok, op s (s.buffers b) = some (ok, v) ∧
      v.length = (size b).toNat ∧ C ok) :
    Meets U (Holds size d known rows) (ForwardM.operate b op)
      (fun ok s => Holds size d (Function.update known b (some v)) rows s ∧ C ok) E := by
  refine Meets.action (fun s hs hnone => ?_) fun s ok t hs ht => ?_
  · obtain ⟨ok, hop, -⟩ := h s hs
    simp only [hop] at hnone
    cases hnone
  · obtain ⟨ok', hop, hv, hC⟩ := h s hs
    simp only [hop] at ht
    cases ht
    exact ⟨(hs.put_some hv).report _, hC⟩

/-- A step that overwrites a buffer with a known value. -/
theorem overwrite {op : ForwardState α → List α → Option (List α)}
    (h : ∀ s, Holds size d known rows s → op s (s.buffers b) = some v ∧
      v.length = (size b).toNat) :
    Meets U (Holds size d known rows) (ForwardM.overwrite b op)
      (fun _ => Holds size d (Function.update known b (some v)) rows) E := by
  refine Meets.action (fun s hs hnone => ?_) fun s ok t hs ht => ?_
  · rw [(h s hs).1] at hnone
    cases hnone
  · obtain ⟨hop, hv⟩ := h s hs
    simp only [hop] at ht
    cases ht
    exact hs.put_some hv

/-- A test that always succeeds. -/
theorem orFail_of_true {P R : ForwardState α → Prop} {p : ForwardM α Bool} (e : Bytes)
    (h : Meets U P p (fun ok s => R s ∧ ok = true) E) :
    Meets U P (p.orFail e) (fun _ => R) E := by
  refine Meets.orFail (h.weaken fun ok s hs => ?_)
  rw [hs.2]
  exact hs.1

variable (ops) in
/-- `rms_norm` of a known buffer. -/
theorem rmsNorm {weight : List α} (eps : α) (e : Bytes) (hn : n ≠ 0)
    (hweight : n.toNat ≤ weight.length) (hx : known x = some u) (hsizex : size x = n)
    (hsize : size b = n) :
    Meets U (Holds size d known rows) ((ForwardM.rmsNorm ops x weight b n eps).orFail e)
      (fun _ => Holds size d (Function.update known b
        (some (Transformer.fill ops n fun out => HeteroAccel.rmsNorm ops u weight out n eps)))
        rows) E := by
  refine orFail_of_true e (operate fun s hs => ?_)
  have hu : u.length = n.toNat := hsizex ▸ hs.length hx
  have hb : (s.buffers b).length = n.toNat := hsize ▸ hs.fits.sized b
  obtain ⟨v, hv⟩ := exists_rmsNorm ops eps hn hu.ge hweight hb.ge
  have hpos := pos_of_ne_zero hn
  have hfill : Transformer.fill ops n (fun out => HeteroAccel.rmsNorm ops u weight out n eps) = v :=
    Transformer.fill_eq (rmsNorm_congr (ne_nil_of_le hpos hu.ge) (ne_nil_of_le hpos hweight)
      List.length_replicate hb) hv
  rw [hfill, hs.known x u hx]
  exact ⟨true, hv, (length_rmsNorm hv).trans (hs.fits.sized b), rfl⟩

variable (ops) in
/-- `matvec` of a known buffer. -/
theorem matvec {a : List α} {mRows kCols : UInt32} (hrows : mRows ≠ 0) (hne : kCols ≠ 0)
    (hcols : kCols.toNat < 2 ^ 32 - 4) (ha : mRows.toNat * kCols.toNat ≤ a.length)
    (hx : known x = some u) (hsizex : size x = kCols) (hsize : size b = mRows) :
    Meets U (Holds size d known rows) (ForwardM.matvec ops a x b mRows kCols)
      (fun _ => Holds size d (Function.update known b
        (some (Transformer.linear ops a mRows kCols u))) rows) E := by
  refine (operate (C := fun _ => True) fun s hs => ?_).weaken fun _ _ hs => hs.1
  have hu : u.length = kCols.toNat := hsizex ▸ hs.length hx
  have hb : (s.buffers b).length = mRows.toNat := hsize ▸ hs.fits.sized b
  obtain ⟨ok, v, hv⟩ := exists_matvec ops hcols ha hu.ge hb.ge
  have hpos := pos_of_ne_zero hne
  have hfill : Transformer.linear ops a mRows kCols u = v :=
    Transformer.fill_eq (matvec_congr (ne_nil_of_le (Nat.mul_pos (pos_of_ne_zero hrows) hpos) ha)
      (ne_nil_of_le hpos hu.ge) hne List.length_replicate hb) hv
  rw [hfill, hs.known x u hx]
  exact ⟨ok, hv, (length_matvec hv).trans (hs.fits.sized b), trivial⟩

variable (ops) in
/-- `residual_add` of a known buffer to a known buffer. -/
theorem residualAdd {y : List α} (hb : known b = some u) (hx : known x = some y)
    (hsizex : size x = n) (hsize : size b = n) :
    Meets U (Holds size d known rows) (ForwardM.residualAdd ops b x n)
      (fun _ => Holds size d (Function.update known b (some (Transformer.plus ops n u y))) rows)
      E := by
  refine overwrite fun s hs => ?_
  have hu : u.length = n.toNat := hsize ▸ hs.length hb
  have hy : y.length = n.toNat := hsizex ▸ hs.length hx
  obtain ⟨v, hv⟩ := exists_residualAdd ops hu.ge hy.ge
  rw [hs.known b u hb, hs.known x y hx, Transformer.plus, hv]
  exact ⟨rfl, (Buffer.length_of_update hv).trans (hs.length hb)⟩

variable (ops) in
/-- A bias on a known buffer. -/
theorem addBias {bias : List α} (hbias : bias = [] ∨ n.toNat ≤ bias.length)
    (hb : known b = some u) (hsize : size b = n) :
    Meets U (Holds size d known rows) (ForwardM.addBias ops bias b n)
      (fun _ => Holds size d (Function.update known b (some (Transformer.biased ops bias n u)))
        rows) E := by
  unfold ForwardM.addBias Transformer.biased
  split
  next hne =>
    refine overwrite fun s hs => ?_
    have hu : u.length = n.toNat := hsize ▸ hs.length hb
    obtain ⟨v, hv⟩ := exists_residualAdd ops hu.ge (hbias.resolve_left hne)
    rw [hs.known b u hb, Transformer.plus, hv]
    exact ⟨rfl, (Buffer.length_of_update hv).trans (hs.length hb)⟩
  next =>
    rw [← hb, Function.update_eq_self]
    exact Meets.pure () fun _ hs => hs

variable (ops) in
/-- `swiglu` of known buffers. -/
theorem swiglu {y : List α} (hb : known b = some u) (hx : known x = some y) (hsizeb : size b = n)
    (hsizex : size x = n) (hsize : size c = n) :
    Meets U (Holds size d known rows) (ForwardM.swiglu ops b x c n)
      (fun _ => Holds size d (Function.update known c (some (Transformer.gated ops n u y))) rows)
      E := by
  refine overwrite fun s hs => ?_
  have hu : u.length = n.toNat := hsizeb ▸ hs.length hb
  have hy : y.length = n.toNat := hsizex ▸ hs.length hx
  have hc : (s.buffers c).length = n.toNat := hsize ▸ hs.fits.sized c
  obtain ⟨v, hv⟩ := exists_swiglu ops hu.ge hy.ge hc.ge
  rw [hs.known b u hb, hs.known x y hx, Transformer.gated,
    swiglu_congr List.length_replicate hc, hv]
  exact ⟨rfl, (Buffer.length_of_update hv).trans (hs.fits.sized c)⟩

variable (ops) in
/-- `rope_apply` on a known query and a known key. -/
theorem ropeApply {hp : Qwen2HParams α} {pos : UInt32} {q k : List α} (hb : known b = some q)
    (hc : known c = some k)
    (hq : hp.nHeads.toNat * hp.nHeadDim.toNat ≤ (size b).toNat)
    (hk : hp.nKvHeads.toNat * hp.nHeadDim.toNat ≤ (size c).toNat) :
    Meets U (Holds size d known rows)
      (ForwardM.ropeApply ops b hp.nHeads c hp.nKvHeads hp.nHeadDim pos hp.ropeFreqBase ops.one)
      (fun _ => Holds size d
        (Function.update (Function.update known b
          (some (Transformer.rotated ops hp pos.toNat q k).1)) c
          (some (Transformer.rotated ops hp pos.toNat q k).2)) rows) E := by
  -- the operator computes what the reference rotates
  have hresult : ∀ s, Holds size d known rows s → ∃ ok, HeteroAccel.ropeApply ops (s.buffers b)
      hp.nHeads (s.buffers c) hp.nKvHeads hp.nHeadDim pos hp.ropeFreqBase ops.one =
        some (ok, Transformer.rotated ops hp pos.toNat q k) ∧
      (Transformer.rotated ops hp pos.toNat q k).1.length = (size b).toNat ∧
      (Transformer.rotated ops hp pos.toNat q k).2.length = (size c).toNat := by
    intro s hs
    obtain ⟨ok, q', k', hr⟩ := exists_ropeApply ops pos hp.ropeFreqBase ops.one
      (hs.length hb ▸ hq) (.inr (hs.length hc ▸ hk))
    rw [hs.known b q hb, hs.known c k hc, Transformer.rotated, UInt32.ofNat_toNat, hr]
    obtain ⟨hqLength, hkLength⟩ := length_ropeApply hr
    exact ⟨ok, rfl, hqLength.trans (hs.length hb), hkLength.trans (hs.length hc)⟩
  refine Meets.action (fun s hs hnone => ?_) fun s ok t hs ht => ?_
  · obtain ⟨ok, hr, -⟩ := hresult s hs
    simp only [hr] at hnone
    cases hnone
  · obtain ⟨ok', hr, hqLength, hkLength⟩ := hresult s hs
    simp only [hr] at ht
    cases ht
    exact ((hs.put_some hqLength).put_some hkLength).report _

variable (ops) in
/-- `embed_lookup` of a token of the vocabulary. -/
theorem embedLookup {table : List α} {tokenId vocabSize : UInt32} (e : Bytes) (hn : n ≠ 0)
    (htable : vocabSize.toNat * n.toNat ≤ table.length) (htoken : ¬tokenId ≥ vocabSize)
    (hsize : size b = n) :
    Meets U (Holds size d known rows)
      ((ForwardM.embedLookup table tokenId vocabSize n b).orFail e)
      (fun _ => Holds size d (Function.update known b
        (some (Transformer.fill ops n fun out =>
          HeteroAccel.embedLookup table tokenId vocabSize n out))) rows) E := by
  refine orFail_of_true e (operate fun s hs => ?_)
  have hb : (s.buffers b).length = n.toNat := hsize ▸ hs.fits.sized b
  obtain ⟨v, hv⟩ := exists_embedLookup hn htable hb.ge htoken
  have hlt : 0 < vocabSize.toNat :=
    Nat.zero_lt_of_lt (UInt32.lt_iff_toNat_lt.mp (UInt32.not_le.mp htoken))
  have hne : table ≠ [] := ne_nil_of_le (Nat.mul_pos hlt (pos_of_ne_zero hn)) htable
  have hfill : Transformer.fill ops n
      (fun out => HeteroAccel.embedLookup table tokenId vocabSize n out) = v :=
    Transformer.fill_eq (embedLookup_congr hne htoken List.length_replicate hb) hv
  rw [hfill]
  exact ⟨true, hv, (length_embedLookup hv).trans (hs.fits.sized b), rfl⟩

/-! ### The cache -/

/-- `writeKV` of the next position. -/
theorem writeKV {l : ℕ} {pos : UInt32} {k v : List α} (e : Bytes) (hwidth : d.width < 2 ^ 32)
    (hpositive : 0 < d.width) (hl : l < d.nLayers.toNat) (hpos : pos < d.maxSeqLen)
    (hrows : (rows l).length = pos.toNat) (hb : known b = some k) (hc : known c = some v)
    (hsizeb : (size b).toNat = d.width) (hsizec : (size c).toNat = d.width) :
    Meets U (Holds size d known rows) ((ForwardM.writeKV (.ofNat l) pos b c).orFail e)
      (fun _ => Holds size d known (Function.update rows l (rows l ++ [(k, v)]))) E := by
  -- the write succeeds and appends the pair to the rows of its layer
  have hresult : ∀ s : ForwardState α, Holds size d known rows s → ∃ kvCache,
      s.kvCache.writeKV (.ofNat l) pos (pointer (s.buffers b)) (pointer (s.buffers c)) =
        some (true, kvCache) ∧
      ∀ l' < d.nLayers.toNat,
        kvCache.Stored l' (Function.update rows l (rows l ++ [(k, v)]) l') := by
    intro s hs
    obtain rfl := hs.fits.dims
    have hk : k.length = s.kvCache.dims.width := (hs.length hb).trans hsizeb
    have hv : v.length = s.kvCache.dims.width := (hs.length hc).trans hsizec
    obtain ⟨kvCache, hwrite, hself, hother⟩ :=
      (hs.stored l hl).exists_writeKV hs.fits.cache hwidth hl hpos hrows hk hv
    rw [hs.known b k hb, hs.known c v hc, Bounds.pointer_of_ne (ne_nil_of_le hpositive hk.ge),
      Bounds.pointer_of_ne (ne_nil_of_le hpositive hv.ge)]
    refine ⟨kvCache, hwrite, fun l' hl' => ?_⟩
    by_cases hll : l' = l
    · subst hll
      rw [Function.update_self]
      exact hself
    · rw [Function.update_of_ne hll]
      exact hother l' _ hll (hs.stored l' hl')
  refine orFail_of_true e (Meets.action (fun s hs hnone => ?_)
    fun s ok t hs ht => ?_)
  · obtain ⟨kvCache, hwrite, -⟩ := hresult s hs
    simp only [hwrite] at hnone
    cases hnone
  · obtain ⟨kvCache, hwrite, hstored⟩ := hresult s hs
    obtain ⟨hcache, hdims⟩ := hs.fits.cache.writeKV hwrite
    simp only [hwrite] at ht
    cases ht
    exact ⟨⟨⟨hs.fits.sized, hcache, hdims.trans hs.fits.dims⟩, hs.known, hstored⟩, rfl⟩

variable (ops) in
/-- `causal_attention` of a known query to the keys and values up to its position. -/
theorem causalAttention {hp : Qwen2HParams α} {l : ℕ} {pos : UInt32} {q : List α} (e : Bytes)
    (hone : hp.nKvHeads = 1) (hheads : hp.nHeads ≠ 0) (hdim : hp.nHeadDim ≠ 0)
    (hkvHeads : d.nKvHeads = hp.nKvHeads) (hheadDim : d.headDim = hp.nHeadDim)
    (hl : l < d.nLayers.toNat) (hpos : pos < d.maxSeqLen)
    (hrows : (rows l).length = pos.toNat + 1) (hx : known x = some q)
    (hsizex : (size x).toNat = hp.nHeads.toNat * hp.nHeadDim.toNat)
    (hsize : (size b).toNat = hp.nHeads.toNat * hp.nHeadDim.toNat)
    (hscores : size c = d.maxSeqLen) :
    Meets U (Holds size d known rows)
      ((ForwardM.causalAttention ops (.ofNat l) x b (pos + 1) hp.nHeads hp.nKvHeads hp.nHeadDim
        (ops.div ops.one (ops.sqrt (ops.ofUInt32 hp.nHeadDim))) c).orFail e)
      (fun _ => Holds size d
        (Function.update (Function.update known b
          (some (Transformer.attention ops hp pos.toNat (rows l) q))) c none) rows) E := by
  have hlNat : (UInt32.ofNat l).toNat = l := by
    have hlt := d.nLayers.toNat_lt
    rw [UInt32.toNat_ofNat', Nat.mod_eq_of_lt (by omega)]
  have hwidth : d.width = hp.nHeadDim.toNat := by
    rw [KVDims.width, hkvHeads, hheadDim, hone]
    exact Nat.one_mul _
  have hfloats : d.floats = d.maxSeqLen.toNat * hp.nHeadDim.toNat := by
    rw [KVDims.floats_eq (hwidth.trans_lt hp.nHeadDim.toNat_lt), d.layerSize_eq, hwidth]
  have hpositive : 0 < d.floats := by
    rw [hfloats]
    exact Nat.mul_pos (Nat.zero_lt_of_lt (UInt32.lt_iff_toNat_lt.mp hpos)) (pos_of_ne_zero hdim)
  have hresult : ∀ s : ForwardState α, Holds size d known rows s → ∃ w, causalAttentionInto ops
      (s.buffers x) ((s.kvCache.kLayer (.ofNat l)).bind pointer)
      ((s.kvCache.vLayer (.ofNat l)).bind pointer) (s.buffers b) (pos + 1) hp.nHeads hp.nKvHeads
      hp.nHeadDim s.kvCache.maxSeqLen (ops.div ops.one (ops.sqrt (ops.ofUInt32 hp.nHeadDim)))
      (s.buffers c) = some (true, Transformer.attention ops hp pos.toNat (rows l) q, w) ∧
      (Transformer.attention ops hp pos.toNat (rows l) q).length = (s.buffers b).length ∧
      w.length = (s.buffers c).length := by
    intro s hs
    obtain ⟨kBuf, vBuf, hk, hv, hkSize, hvSize⟩ := hs.fits.layer (ofNat_lt hl)
    rw [hk, hv, Option.bind_some, Option.bind_some,
      Bounds.pointer_of_ne (ne_nil_of_le hpositive hkSize.ge),
      Bounds.pointer_of_ne (ne_nil_of_le hpositive hvSize.ge), hs.known x q hx]
    obtain rfl := hs.fits.dims
    have hstored := hs.stored l hl
    -- the buffers of the layer are those that begin with the rows
    have hk' : s.kvCache.kData[l]? = some kBuf := by
      unfold HydroXLKVCache.kLayer at hk
      split at hk
      · cases hk
      · exact hlNat ▸ hk
    have hv' : s.kvCache.vData[l]? = some vBuf := by
      unfold HydroXLKVCache.vLayer at hv
      split at hv
      · cases hv
      · exact hlNat ▸ hv
    have hscoresSize : s.kvCache.maxSeqLen.toNat ≤ (s.buffers c).length := by
      rw [hs.fits.sized c, hscores]
      exact Nat.le_refl _
    exact exists_causalAttentionInto_stored hone hheads hdim hpos hrows
      ((hs.length hx).trans hsizex) ((hs.fits.sized b).trans hsize) hscoresSize
      (hkSize.trans hfloats) (hvSize.trans hfloats) (hwidth ▸ hstored.keys kBuf hk')
      (hwidth ▸ hstored.values vBuf hv')
  refine orFail_of_true e (Meets.action (fun s hs hnone => ?_)
    fun s ok t hs ht => ?_)
  · obtain ⟨w, hr, -⟩ := hresult s hs
    simp only [hr] at hnone
    cases hnone
  · obtain ⟨w, hr, hvLength, hwLength⟩ := hresult s hs
    simp only [hr] at ht
    cases ht
    have hput := (hs.put_some (b := b) (hvLength.trans (hs.fits.sized b))).put (b := c) (o := none)
      (hwLength.trans (hs.fits.sized c)) fun _ hu => by cases hu
    exact ⟨hput.report true, rfl⟩

end Decodes

/-! ## The pass -/

/-- What is known behind the projections. -/
def Contents.projected (x q : List α) (e : List α × List α) : Contents α
  | .hidden => some x
  | .qBuf => some q
  | .kBuf => some e.1
  | .vBuf => some e.2
  | _ => none

namespace HydroXLForwardPass

variable {ops : TensorOps α δ} {m : HydroXLModel α} {d : KVDims} {U : Prop}
  {E : ForwardState α → Prop} {w : Qwen2LayerWeights α} {known : Contents α} {rows : CacheRows α}
  {x : List α} {l : ℕ} {pos : UInt32}

/-- A model with one key-value head, with weights that are as large as the operators take them to
be and columns that `matvec` can count. -/
structure OneHead (m : HydroXLModel α) (d : KVDims) : Prop extends Suits m d where
  kvSuit : KvSuit m
  nFf_lt : m.hparams.nFf.toNat < 2 ^ 32 - 4
  one : m.hparams.nKvHeads = 1

/-- The states of a pass of which something is known. -/
abbrev Knows (m : HydroXLModel α) (d : KVDims) (known : Contents α) (rows : CacheRows α) :
    ForwardState α → Prop :=
  Holds (bufferSize m.hparams d.maxSeqLen) d known rows

namespace OneHead

/-- With one head for keys the product is the head's dimension. -/
theorem kvSize (hm : OneHead m d) :
    m.hparams.nKvHeads * m.hparams.nHeadDim = m.hparams.nHeadDim := by
  rw [hm.one, UInt32.one_mul]

theorem toNat_kvSize (hm : OneHead m d) : (m.hparams.nKvHeads * m.hparams.nHeadDim).toNat =
    m.hparams.nKvHeads.toNat * m.hparams.nHeadDim.toNat := by
  rw [hm.kvSize, hm.one]
  exact (Nat.one_mul _).symm

/-- The width of the cache is the head's dimension. -/
theorem width (hm : OneHead m d) : d.width = m.hparams.nHeadDim.toNat := by
  rw [KVDims.width, hm.nKvHeads, hm.headDim, hm.one]
  exact Nat.one_mul _

theorem width_lt (hm : OneHead m d) : d.width < 2 ^ 32 :=
  hm.width.trans_lt (UInt32.toNat_lt _)

theorem headDim_ne (hm : OneHead m d) : m.hparams.nHeadDim ≠ 0 := hm.headDim ▸ hm.positive.2.2.2

theorem heads_ne (hm : OneHead m d) : m.hparams.nHeads * m.hparams.nHeadDim ≠ 0 := by
  intro hzero
  have hpositive := Nat.mul_pos (pos_of_ne_zero hm.nHeads) (pos_of_ne_zero hm.headDim_ne)
  rw [← hm.heads, hzero] at hpositive
  exact absurd hpositive (by decide)

theorem nEmbd_count (hm : OneHead m d) : m.hparams.nEmbd.toNat < 2 ^ 32 - 4 :=
  hm.nEmbd_lt.trans (by decide)

end OneHead

variable (ops) in
/-- The projections of a hidden state and its rotated query and key. -/
theorem meets_project_decode (hm : OneHead m d) (hw : w ∈ m.layers) (hx : known .hidden = some x)
    (hn : known .normed = some (Transformer.norm ops m.hparams w.attnNorm x)) :
    Meets U (Knows m d known rows) (project ops m.hparams w pos)
      (fun _ => Knows m d (.projected x (Transformer.query ops m.hparams w pos.toNat x)
        (Transformer.entry ops m.hparams w pos.toNat x)) rows) E := by
  have hkv : m.hparams.nKvHeads * m.hparams.nHeadDim ≠ 0 := by
    rw [hm.kvSize]
    exact hm.headDim_ne
  have hq := hm.weights w hw .attnQ rfl (by decide)
  have hk := hm.kvSuit w hw .attnK (by decide)
  have hv := hm.kvSuit w hw .attnV (by decide)
  -- query, key and value, their biases, the rotation
  refine Meets.bind (Decodes.matvec ops hm.heads_ne hm.nEmbd hm.nEmbd_count hq hn rfl rfl)
    fun _ => ?_
  refine Meets.bind (Decodes.matvec ops hkv hm.nEmbd hm.nEmbd_count hk hn rfl rfl) fun _ => ?_
  refine Meets.bind (Decodes.matvec ops hkv hm.nEmbd hm.nEmbd_count hv hn rfl rfl) fun _ => ?_
  refine Meets.bind (Decodes.addBias ops (hm.biases w hw .attnQBias rfl) rfl rfl) fun _ => ?_
  refine Meets.bind (Decodes.addBias ops (hm.biases w hw .attnKBias rfl) rfl rfl) fun _ => ?_
  refine Meets.bind (Decodes.addBias ops (hm.biases w hw .attnVBias rfl) rfl rfl) fun _ => ?_
  refine Meets.bind (Decodes.ropeApply ops rfl rfl hm.heads.ge ?_) fun _ => ?_
  · exact hm.toNat_kvSize.ge
  refine Meets.pure _ fun s hs => hs.mono fun b v hb => ?_
  -- what is known of the other buffers is forgotten
  cases b
  all_goals first
    | exact hb
    | exact hx.trans hb
    | cases hb

variable (ops) in
/-- The first half of a layer, behind the positions that the cache holds. -/
theorem meets_attend_decode (hm : OneHead m d) (hw : w ∈ m.layers) (hl : l < d.nLayers.toNat)
    (hpos : pos < d.maxSeqLen) (hrows : (rows l).length = pos.toNat) :
    Meets U (Knows m d (.only .hidden x) rows) (attend ops m.hparams w (.ofNat l) pos)
      (fun _ => Knows m d
        (.only .hidden (Transformer.attend ops m.hparams w pos.toNat
          (rows l ++ [Transformer.entry ops m.hparams w pos.toNat x]) x))
        (Function.update rows l
          (rows l ++ [Transformer.entry ops m.hparams w pos.toNat x]))) E := by
  have hrow : (Function.update rows l (rows l ++
      [Transformer.entry ops m.hparams w pos.toNat x]) l).length = pos.toNat + 1 := by
    rw [Function.update_self, List.length_append, hrows]
    rfl
  unfold attend
  refine Meets.bind (Decodes.rmsNorm ops _ _ hm.nEmbd (hm.weights w hw .attnNorm rfl (by decide))
    rfl rfl rfl) fun _ => ?_
  refine Meets.bind (meets_project_decode ops hm hw rfl rfl) fun _ => ?_
  refine Meets.bind (Decodes.writeKV _ hm.width_lt ?_ hl hpos hrows rfl rfl ?_ ?_) fun _ => ?_
  · rw [hm.width]
    exact pos_of_ne_zero hm.headDim_ne
  · rw [hm.width]
    exact congrArg UInt32.toNat hm.kvSize
  · rw [hm.width]
    exact congrArg UInt32.toNat hm.kvSize
  refine Meets.bind (Decodes.causalAttention ops _ hm.one hm.nHeads hm.headDim_ne hm.nKvHeads
    hm.headDim hl hpos hrow rfl hm.heads hm.heads rfl) fun _ => ?_
  rw [Function.update_self]
  refine Meets.bind (Decodes.matvec ops hm.nEmbd hm.heads_ne (hm.heads_lt.trans (by decide))
    (hm.weights w hw .attnOut rfl (by decide)) rfl rfl rfl) fun _ => ?_
  exact Meets.weaken (Decodes.residualAdd ops rfl rfl rfl rfl) fun _ s hs => hs.forget rfl

variable (ops) in
/-- The second half of a layer. -/
theorem meets_feedForward_decode (hm : OneHead m d) (hw : w ∈ m.layers) (n : UInt32) :
    Meets U (Knows m d (.only .hidden x) rows) (feedForward ops m.hparams w n)
      (fun _ => Knows m d (.only .hidden (Transformer.feedForward ops m.hparams w x)) rows) E := by
  have hgate := hm.weights w hw .ffnGate rfl (by decide)
  have hup := hm.weights w hw .ffnUp rfl (by decide)
  have hdown := hm.weights w hw .ffnDown rfl (by decide)
  unfold feedForward
  refine Meets.bind (Decodes.rmsNorm ops _ _ hm.nEmbd (hm.weights w hw .ffnNorm rfl (by decide))
    rfl rfl rfl) fun _ => ?_
  refine Meets.bind (Decodes.matvec ops hm.nFf hm.nEmbd hm.nEmbd_count hgate rfl rfl rfl)
    fun _ => ?_
  refine Meets.bind (Decodes.matvec ops hm.nFf hm.nEmbd hm.nEmbd_count hup rfl rfl rfl) fun _ => ?_
  refine Meets.bind (Decodes.swiglu ops rfl rfl rfl rfl rfl) fun _ => ?_
  refine Meets.bind (Decodes.matvec ops hm.nEmbd hm.nFf hm.nFf_lt hdown rfl rfl rfl) fun _ => ?_
  exact Meets.weaken (Decodes.residualAdd ops rfl rfl rfl rfl) fun _ s hs => hs.forget rfl

variable (ops) in
/-- **A layer** is a step of decoding. -/
theorem meets_layer_decode (hm : OneHead m d) (hl : l < m.hparams.nLayers.toNat)
    (hpos : pos < d.maxSeqLen) (hrows : (rows l).length = pos.toNat) :
    Meets U (Knows m d (.only .hidden x) rows) (layer ops m pos l)
      (fun _ => Knows m d
        (.only .hidden ((Transformer.stack ops m).decodeLayer pos.toNat l (rows, x)).2)
        ((Transformer.stack ops m).decodeLayer pos.toNat l (rows, x)).1) E := by
  obtain ⟨w, hw, hlayer, -⟩ := exists_layer hm.toSuits hl
  rw [CausalStack.decodeLayer]
  dsimp only
  rw [Transformer.stack_entry ops hlayer, Transformer.stack_block ops hlayer]
  unfold layer
  rw [hlayer]
  refine Meets.bind (meets_attend_decode ops hm hw (hm.nLayers ▸ hl) hpos hrows) fun _ => ?_
  exact meets_feedForward_decode ops hm hw _

variable (ops) in
/-- All layers. -/
theorem meets_layers_decode (hm : OneHead m d) (hpos : pos < d.maxSeqLen)
    (hrows : ∀ l < m.hparams.nLayers.toNat, (rows l).length = pos.toNat) :
    Meets U (Knows m d (.only .hidden x) rows)
      ((List.range m.hparams.nLayers.toNat).forM (layer ops m pos))
      (fun _ => Knows m d
        (.only .hidden
          ((Transformer.stack ops m).decode m.hparams.nLayers.toNat pos.toNat rows x).2)
        ((Transformer.stack ops m).decode m.hparams.nLayers.toNat pos.toNat rows x).1) E := by
  refine Meets.forM_range (I := fun n => Knows m d
    (.only .hidden ((Transformer.stack ops m).decode n pos.toNat rows x).2)
    ((Transformer.stack ops m).decode n pos.toNat rows x).1) fun l hl => ?_
  rw [CausalStack.decode_succ]
  refine meets_layer_decode ops hm hl hpos ?_
  rw [CausalStack.decode_of_le (Nat.le_refl l)]
  exact hrows l hl

variable (ops) in
/-- **The pass.** Behind the positions that the cache holds it leaves the logits of the next one,
and the cache holds this one too. -/
theorem meets_pass_decode (hm : OneHead m d) {tokenId : UInt32}
    (htoken : ¬tokenId ≥ m.hparams.vocabSize) (hpos : pos < d.maxSeqLen)
    (hrows : ∀ l < m.hparams.nLayers.toNat, (rows l).length = pos.toNat) :
    Meets U (Knows m d (fun _ => none) rows) (pass ops m tokenId pos)
      (fun _ => Knows m d
        (.only .logits (Transformer.head ops m
          ((Transformer.stack ops m).decode m.hparams.nLayers.toNat pos.toNat rows
            (Transformer.embed ops m tokenId)).2))
        ((Transformer.stack ops m).decode m.hparams.nLayers.toNat pos.toNat rows
          (Transformer.embed ops m tokenId)).1) E := by
  unfold pass
  refine Meets.bind (Decodes.embedLookup ops _ hm.nEmbd hm.tokEmbd htoken rfl) fun _ => ?_
  refine Meets.bind (meets_layers_decode ops hm hpos hrows) fun _ => ?_
  refine Meets.bind (Decodes.rmsNorm ops _ _ hm.nEmbd hm.outputNorm rfl rfl rfl) fun _ => ?_
  refine Meets.bind (Decodes.matvec ops hm.vocabSize hm.nEmbd hm.nEmbd_count hm.lmHead rfl rfl rfl)
    fun _ => ?_
  exact Meets.pure _ fun s hs => hs.forget rfl

/-! ## Passes that fail -/

variable (ops) in
/-- A token that is not in the vocabulary. -/
theorem fails_pass_of_token {tokenId : UInt32} (htoken : tokenId ≥ m.hparams.vocabSize) :
    Fails (ofString "Invalid token_id=" ++ ofDecimal tokenId.toNat) (Knows m d known rows)
      (pass ops m tokenId pos) := by
  unfold pass
  refine Fails.bind (Fails.orFail (Meets.action (fun s hs hnone => ?_) fun s ok t hs ht => ?_))
  · simp only [embedLookup_of_ge htoken] at hnone
    cases hnone
  · simp only [embedLookup_of_ge htoken] at ht
    cases ht
    rfl

variable (ops) in
/-- A position behind the end of the cache. -/
theorem fails_pass_of_full (hm : OneHead m d) {tokenId : UInt32}
    (htoken : ¬tokenId ≥ m.hparams.vocabSize) (hpos : d.maxSeqLen ≤ pos) :
    Fails (ofString "KV cache write failed at layer " ++ ofDecimal 0)
      (Knows m d (fun _ => none) rows) (pass ops m tokenId pos) := by
  have hlayers := nLayers_pos hm.toSuits
  obtain ⟨n, hn⟩ := Nat.exists_eq_add_one_of_ne_zero hlayers.ne'
  obtain ⟨w, hw, hlayer, -⟩ := exists_layer hm.toSuits hlayers
  -- a position behind the end of the cache is refused
  have hfull : ∀ s : ForwardState α, ∀ known : Contents α, Knows m d known rows s →
      s.kvCache.writeKV (.ofNat 0) pos (pointer (s.buffers .kBuf)) (pointer (s.buffers .vBuf)) =
        some (false, s.kvCache) := by
    intro s known hs
    obtain rfl := hs.fits.dims
    exact HydroXLKVCache.writeKV_of_ge hpos
  unfold pass
  -- the first layer is reached, and its write fails
  refine Fails.bind_of_meets (Decodes.embedLookup ops _ hm.nEmbd hm.tokEmbd htoken rfl)
    fun _ => ?_
  refine Fails.bind ?_
  rw [hn, List.range_succ_eq_map]
  refine Fails.bind ?_
  unfold layer
  rw [hlayer]
  refine Fails.bind ?_
  unfold attend
  refine Fails.bind_of_meets (Decodes.rmsNorm ops _ _ hm.nEmbd
    (hm.weights w hw .attnNorm rfl (by decide)) rfl rfl rfl) fun _ => ?_
  refine Fails.bind_of_meets (meets_project_decode ops hm hw rfl rfl) fun _ => ?_
  refine Fails.bind (Fails.orFail (Meets.action (fun s hs hnone => ?_) fun s ok t hs ht => ?_))
  · rw [hfull s _ hs] at hnone
    cases hnone
  · rw [hfull s _ hs] at ht
    cases ht
    rfl

end HydroXLForwardPass

end HeteroAccel
