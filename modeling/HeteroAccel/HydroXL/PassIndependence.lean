import HeteroAccel.HydroXL.ForwardPass
import HeteroAccel.HydroXL.KVRepresentation
import HeteroAccel.HydroXL.ModelLoad

/-!
# What a forward pass depends on

Two forward passes with the same weights and the same content of the cache, whose buffers hold
anything: no buffer is read before the pass has written it, so that both end alike. The argument is
that of a definite assignment. `Agree known` is the relation between the two states behind a part of
the pass that has written the buffers `known`, and there is one rule for each operator, which needs
the buffers that it reads to be known.

## Main results

* `Reads.matvec`, `Reads.rmsNorm`, `reads_attention`, …: the rules;
* `reads_pass`: the pass knows the logits, from no known buffer on;
* `forward_rel`: two calls of `forward`.
-/

namespace HeteroAccel

open TwoRuns

variable {α δ : Type}

/-! ## The cache -/

namespace HydroXLKVCache

variable {zero : α} {c c' : HydroXLKVCache α}

/-- A row that is written keeps its length, so that nothing of it is left when all is cleared. -/
theorem map_clear_set {rows : List (List α)} {i : ℕ} {row row' : List α}
    (hrow : rows[i]? = some row)
    (hlength : row'.length = row.length) :
    (rows.set i row').map (fun v => v.map fun _ => zero) = rows.map fun v =>
      v.map fun _ => zero := by
  have hi : i < rows.length := (List.getElem?_eq_some_iff.mp hrow).1
  apply List.ext_getElem?
  intro j
  rw [List.getElem?_map, List.getElem?_map, List.getElem?_set]
  by_cases hj : i = j
  · subst hj
    have heq : rows[i] = row := (List.getElem?_eq_some_iff.mp hrow).2
    simp [hi, heq, List.map_const', hlength]
  · rw [if_neg hj]

/-- A write leaves what a reset leaves. -/
theorem reset_writeKV {layer pos : UInt32} {k v : Option (List α)} {ok : Bool}
    (h : c.writeKV layer pos k v = some (ok, c')) : c'.reset zero = c.reset zero := by
  obtain rfl | ⟨kRow, vRow, kRow', vRow', hk, hv, hk', hv', rfl⟩ := writeKV_cases h
  · rfl
  · simp only [reset, map_clear_set hk hk', map_clear_set hv hv']

end HydroXLKVCache

/-! ## States that agree -/

/-- Two states of a pass that has written the buffers `known`: the same cache, which clears to
`cleared`, buffers of their sizes, and the same in the buffers `known`. -/
structure Agree (ops : TensorOps α δ) (size : ForwardBuffer → UInt32) (cleared : HydroXLKVCache α)
    (known : List ForwardBuffer) (s s' : ForwardState α) : Prop where
  kvCache : s.kvCache = s'.kvCache
  clears : s.kvCache.reset ops.zero = cleared
  sized : ∀ b, (s.buffers b).length = (size b).toNat
  sized' : ∀ b, (s'.buffers b).length = (size b).toNat
  known : ∀ b ∈ known, s.buffers b = s'.buffers b

namespace Agree

variable {ops : TensorOps α δ} {size : ForwardBuffer → UInt32} {cleared : HydroXLKVCache α}
  {known known' : List ForwardBuffer} {s s' : ForwardState α} {b : ForwardBuffer} {v v' : List α}

/-- What is known to agree may be forgotten. -/
theorem mono (h : Agree ops size cleared known s s') (hle : known' ⊆ known) :
    Agree ops size cleared known' s s' :=
  { h with known := fun b hb => h.known b (hle hb) }

theorem report (h : Agree ops size cleared known s s') (ok ok' : Bool) :
    Agree ops size cleared known (s.report ok) (s'.report ok') :=
  ⟨h.kvCache, h.clears, h.sized, h.sized', h.known⟩

/-- The sizes when a buffer is replaced by one of the same size. -/
theorem sized_put (h : ∀ b, (s.buffers b).length = (size b).toNat)
    (hv : v.length = (size b).toNat) (c : ForwardBuffer) :
    ((s.put b v).buffers c).length = (size c).toNat := by
  by_cases hc : c = b
  · subst hc
    rw [ForwardState.buffers_put, hv]
  · rw [ForwardState.buffers_put_of_ne s hc, h]

/-- A buffer is replaced, and known from then on if it is by the same in both. -/
theorem put (h : Agree ops size cleared known s s') (hv : v.length = (size b).toNat)
    (hv' : v'.length = (size b).toNat) (hknown : ∀ c ∈ known', c = b ∧ v = v' ∨ c ≠ b ∧ c ∈ known) :
    Agree ops size cleared known' (s.put b v) (s'.put b v') where
  kvCache := h.kvCache
  clears := h.clears
  sized := sized_put h.sized hv
  sized' := sized_put h.sized' hv'
  known c hc := by
    obtain ⟨rfl, rfl⟩ | ⟨hne, hc⟩ := hknown c hc
    · simp
    · simp [hne, h.known c hc]

/-- A buffer that is replaced by the same in both. -/
theorem put_same (h : Agree ops size cleared known s s') (hv : v.length = (size b).toNat) :
    Agree ops size cleared (b :: known) (s.put b v) (s'.put b v) := by
  refine h.put hv hv fun c hc => ?_
  by_cases hcb : c = b
  · exact .inl ⟨hcb, rfl⟩
  · exact .inr ⟨hcb, (List.mem_cons.mp hc).resolve_left hcb⟩

end Agree

/-! ## Rules for the operators -/

/-- The program reads only buffers that are among `known` or that it has written, and when it does
not fail the buffers `known'` are known. -/
def Reads {β : Type} (ops : TensorOps α δ) (size : ForwardBuffer → UInt32)
    (cleared : HydroXLKVCache α) (known : List ForwardBuffer) (x : ForwardM α β)
    (known' : List ForwardBuffer) : Prop :=
  Coupled (Agree ops size cleared known) x (fun _ => Agree ops size cleared known')
    (Agree ops size cleared [])

namespace Reads

variable {ops : TensorOps α δ} {size : ForwardBuffer → UInt32} {cleared : HydroXLKVCache α}
  {known known' known'' : List ForwardBuffer} {b c x : ForwardBuffer}

theorem mono {β : Type} {p : ForwardM α β} (h : Reads ops size cleared known p known')
    (hle : known'' ⊆ known') : Reads ops size cleared known p known'' :=
  Coupled.mono h (fun _ _ hs => hs) (fun _ _ _ hs => hs.mono hle) fun _ _ hs => hs

theorem bind {β γ : Type} {p : ForwardM α β} {f : β → ForwardM α γ}
    (h : Reads ops size cleared known p known')
    (hf : ∀ v, Reads ops size cleared known' (f v) known'') :
    Reads ops size cleared known (p >>= f) known'' :=
  Coupled.bind h hf

/-- An operator whose result is tested. -/
theorem orFail {p : ForwardM α Bool} {e : Bytes}
    (h : Coupled (Agree ops size cleared known) p
      (fun ok => if ok then Agree ops size cleared known' else Agree ops size cleared [])
      (Agree ops size cleared [])) :
    Reads ops size cleared known (p.orFail e) known' :=
  Coupled.orFail h

/-- An operator whose result is tested, but which does the same in both runs anyway. -/
theorem orFail_of_reads {p : ForwardM α Bool} {e : Bytes}
    (h : Reads ops size cleared known p known') :
    Reads ops size cleared known (p.orFail e) known' := by
  refine orFail (Coupled.mono h (fun _ _ hs => hs) (fun ok s s' hs => ?_) fun _ _ hs => hs)
  cases ok with
  | true => exact hs
  | false => exact hs.mono (List.nil_subset _)

/-- An operator that does the same on known buffers, whatever its output held. -/
theorem operate {op : ForwardState α → List α → Option (Bool × List α)}
    (heq : ∀ s s', Agree ops size cleared known s s' → op s (s.buffers b) = op s' (s'.buffers b))
    (hlength : ∀ s ok v, op s (s.buffers b) = some (ok, v) → v.length = (s.buffers b).length) :
    Reads ops size cleared known (ForwardM.operate b op) (b :: known) := by
  refine Coupled.action fun s s' hs => ?_
  refine rel_bind (R := fun r r' => r = r' ∧ r.2.length = (size b).toNat)
    (rel_of_eq (heq s s' hs) fun r hr => ⟨rfl, ?_⟩) ?_
  · exact (hlength s r.1 r.2 hr).trans (hs.sized b)
  · rintro ⟨ok, v⟩ _ ⟨rfl, hv⟩
    exact .some ⟨rfl, (hs.put_same hv).report ok ok⟩

/-- A step that overwrites a buffer from what agrees. -/
theorem overwrite {op : ForwardState α → List α → Option (List α)}
    (heq : ∀ s s', Agree ops size cleared known s s' → op s (s.buffers b) = op s' (s'.buffers b))
    (hlength : ∀ s v, op s (s.buffers b) = some v → v.length = (s.buffers b).length) :
    Reads ops size cleared known (ForwardM.overwrite b op) (b :: known) := by
  refine Coupled.action fun s s' hs => ?_
  refine rel_bind (R := fun v v' => v = v' ∧ v.length = (size b).toNat)
    (rel_of_eq (heq s s' hs) fun v hv => ⟨rfl, (hlength s v hv).trans (hs.sized b)⟩) ?_
  rintro v _ ⟨rfl, hv⟩
  exact .some ⟨rfl, hs.put_same hv⟩

/-- A buffer of a positive size is not a null pointer. -/
theorem ne_nil_of_size {s : ForwardState α} (h : (s.buffers b).length = (size b).toNat)
    (hsize : size b ≠ 0) : s.buffers b ≠ [] := by
  intro hnil
  rw [hnil] at h
  exact hsize (UInt32.toNat_inj.mp h.symm)

/-- `rms_norm` of a known buffer. -/
theorem rmsNorm {weight : List α} {n : UInt32} {eps : α} (hweight : weight ≠ [])
    (hx : x ∈ known) (hn : size x ≠ 0) (hsize : size b = n) :
    Reads ops size cleared known (ForwardM.rmsNorm ops x weight b n eps) (b :: known) := by
  refine operate (fun s s' hs => ?_) fun s ok v hv => length_rmsNorm hv
  rw [hs.known x hx]
  have hne := ne_nil_of_size (hs.sized' x) hn
  exact rmsNorm_congr hne hweight (hsize ▸ hs.sized b) (hsize ▸ hs.sized' b)

/-- `matvec` of a known buffer. -/
theorem matvec {a : List α} {mRows kCols : UInt32} (ha : a ≠ []) (hx : x ∈ known)
    (hcols : size x = kCols) (hne : kCols ≠ 0) (hsize : size b = mRows) :
    Reads ops size cleared known (ForwardM.matvec ops a x b mRows kCols) (b :: known) := by
  refine operate (fun s s' hs => ?_) fun s ok v hv => length_matvec hv
  rw [hs.known x hx]
  have hnil := ne_nil_of_size (hs.sized' x) (hcols ▸ hne)
  exact matvec_congr ha hnil hne (hsize ▸ hs.sized b) (hsize ▸ hs.sized' b)

/-- `swiglu` of known buffers. -/
theorem swiglu {n : UInt32} (hb : b ∈ known) (hx : x ∈ known) (hsize : size c = n) :
    Reads ops size cleared known (ForwardM.swiglu ops b x c n) (c :: known) := by
  refine overwrite (fun s s' hs => ?_) fun s v hv => Buffer.length_of_update hv
  rw [hs.known b hb, hs.known x hx]
  exact swiglu_congr (hsize ▸ hs.sized c) (hsize ▸ hs.sized' c)

/-- `residual_add` of a known buffer to a known buffer. -/
theorem residualAdd {n : UInt32} (hb : b ∈ known) (hx : x ∈ known) :
    Reads ops size cleared known (ForwardM.residualAdd ops b x n) (b :: known) := by
  refine overwrite (fun s s' hs => ?_) fun s v hv => Buffer.length_of_update hv
  rw [hs.known b hb, hs.known x hx]

/-- A bias on a known buffer. -/
theorem addBias {n : UInt32} (bias : List α) (hb : b ∈ known) :
    Reads ops size cleared known (ForwardM.addBias ops bias b n) known := by
  unfold ForwardM.addBias
  split
  · refine mono (overwrite (b := b) (fun s s' hs => ?_) fun s v hv => Buffer.length_of_update hv)
      (List.subset_cons_self _ _)
    rw [hs.known b hb]
  · exact Coupled.pure _

/-- `rope_apply` on known buffers. -/
theorem ropeApply {nHeads nKvHeads headDim pos : UInt32} {freqBase freqScale : α} (hb : b ∈ known)
    (hc : c ∈ known) :
    Reads ops size cleared known
      (ForwardM.ropeApply ops b nHeads c nKvHeads headDim pos freqBase freqScale) known := by
  refine Coupled.action fun s s' hs => ?_
  refine rel_bind (R := fun r r' => r = r' ∧ r.2.1.length = (size b).toNat ∧
    r.2.2.length = (size c).toNat) (rel_of_eq ?_ fun r hr => ⟨rfl, ?_⟩) ?_
  · rw [hs.known b hb, hs.known c hc]
  · obtain ⟨hq, hk⟩ := length_ropeApply hr
    exact ⟨hq.trans (hs.sized b), hk.trans (hs.sized c)⟩
  · rintro ⟨ok, v, w⟩ _ ⟨rfl, hv, hw⟩
    have hput := ((hs.put_same hv).put_same hw).report ok ok
    exact .some ⟨rfl, hput.mono fun d hd => List.mem_cons_of_mem _ (List.mem_cons_of_mem _ hd)⟩

/-- `writeKV` from known buffers. -/
theorem writeKV {layer pos : UInt32} (hb : b ∈ known) (hc : c ∈ known) :
    Reads ops size cleared known (ForwardM.writeKV layer pos b c) known := by
  refine Coupled.action fun s s' hs => ?_
  refine rel_bind (R := fun r r' => r = r' ∧ r.2.reset ops.zero = cleared)
    (rel_of_eq ?_ fun r hr => ⟨rfl, ?_⟩) ?_
  · rw [hs.kvCache, hs.known b hb, hs.known c hc]
  · exact (HydroXLKVCache.reset_writeKV hr).trans hs.clears
  · rintro ⟨ok, kvCache⟩ _ ⟨rfl, hclears⟩
    exact .some ⟨rfl, rfl, hclears, hs.sized, hs.sized', hs.known⟩

/-- `embed_lookup`. A token that is rejected leaves its output unknown. -/
theorem embedLookup {table : List α} {tokenId vocabSize n : UInt32} {e : Bytes}
    (htable : table ≠ [])
    (hsize : size b = n) :
    Reads ops size cleared known
      ((ForwardM.embedLookup table tokenId vocabSize n b).orFail e) (b :: known) := by
  by_cases hge : tokenId ≥ vocabSize
  · refine orFail (Coupled.action fun s s' hs => ?_)
    beta_reduce
    rw [embedLookup_of_ge hge, embedLookup_of_ge hge]
    have hput : Agree ops size cleared [] (s.put b (s.buffers b)) (s'.put b (s'.buffers b)) :=
      hs.put (hs.sized b) (hs.sized' b) (by simp)
    exact .some ⟨rfl, hput.report false false⟩
  · refine orFail_of_reads (operate (fun s s' hs => ?_) fun s ok v hv => length_embedLookup hv)
    exact embedLookup_congr htable hge (hsize ▸ hs.sized b) (hsize ▸ hs.sized' b)

/-- `causal_attention` of a known query. The scores stay unknown, and so does the output when the
arguments are rejected. -/
theorem causalAttention {layer seqLen nHeads nKvHeads headDim : UInt32} {scale : α} {e : Bytes}
    (hx : x ∈ known) (hc : c ∉ known) (hcb : b ≠ c)
    (hsize : (size b).toNat = nHeads.toNat * headDim.toNat) (hscores : size c = cleared.maxSeqLen) :
    Reads ops size cleared known
      ((ForwardM.causalAttention ops layer x b seqLen nHeads nKvHeads headDim scale c).orFail e)
      (b :: known) := by
  refine orFail (Coupled.action fun s s' hs => ?_)
  have hmax : s'.kvCache.maxSeqLen.toNat ≤ (size c).toNat := by
    rw [hscores, ← hs.clears, hs.kvCache]
    exact Nat.le_refl _
  beta_reduce
  rw [hs.known x hx, hs.kvCache]
  refine rel_bind (causalAttentionInto_rel _ seqLen headDim ((hs.sized b).trans hsize)
    ((hs.sized' b).trans hsize) (hmax.trans_eq (hs.sized c).symm)
    (hmax.trans_eq (hs.sized' c).symm)) ?_
  rintro ⟨ok, v, w⟩ ⟨ok', v', w'⟩ ⟨rfl, ⟨hv, hw⟩, ⟨hv', hw'⟩, heq⟩
  dsimp only at hv hw hv' hw' heq
  refine .some ⟨rfl, ?_⟩
  cases ok with
  | true =>
    obtain rfl := heq rfl
    refine ((hs.put_same (hv.trans (hs.sized b))).put (hw.trans (hs.sized c))
      (hw'.trans (hs.sized' c))
      fun d hd => .inr ⟨?_, hd⟩).report true true
    rintro rfl
    obtain h | h := List.mem_cons.mp hd
    · exact hcb h.symm
    · exact hc h
  | false =>
    have hout : Agree ops size cleared [] (s.put b v) (s'.put b v') :=
      hs.put (hv.trans (hs.sized b)) (hv'.trans (hs.sized' b)) (by simp)
    exact (hout.put (hw.trans (hs.sized c)) (hw'.trans (hs.sized' c)) (by simp)).report false false

end Reads

/-! ## The pass -/

namespace HydroXLModel

/-- What a pass relies on: the sizes are not zero and do not wrap, and the required tensors are
there. -/
structure Sound (m : HydroXLModel α) : Prop where
  loaded : m.loaded = true
  nEmbd : m.hparams.nEmbd ≠ 0
  nFf : m.hparams.nFf ≠ 0
  heads : m.hparams.nHeads * m.hparams.nHeadDim ≠ 0
  toNat_heads : (m.hparams.nHeads * m.hparams.nHeadDim).toNat =
    m.hparams.nHeads.toNat * m.hparams.nHeadDim.toNat
  tokEmbd : m.tokEmbd ≠ []
  outputNorm : m.outputNorm ≠ []
  lmHead : m.lmHeadWeights ≠ []
  layers : ∀ w ∈ m.layers, ∀ t : LayerTensor, t.isBias = false → t.get w ≠ []

end HydroXLModel

namespace HydroXLForwardPass

section Pass

variable {ops : TensorOps α δ} {m : HydroXLModel α} {cleared : HydroXLKVCache α}
  {w : Qwen2LayerWeights α}

variable (ops cleared) in
/-- The projections read only what agrees. -/
theorem reads_project (hm : m.Sound) (hw : ∀ t : LayerTensor, t.isBias = false → t.get w ≠ [])
    (pos : UInt32) :
    Reads ops (bufferSize m.hparams cleared.maxSeqLen) cleared [.normed, .hidden]
      (project ops m.hparams w pos) [.vBuf, .kBuf, .qBuf, .normed, .hidden] := by
  refine (Reads.matvec (hw .attnQ rfl) (by simp) rfl hm.nEmbd rfl).bind fun _ => ?_
  refine (Reads.matvec (hw .attnK rfl) (by simp) rfl hm.nEmbd rfl).bind fun _ => ?_
  refine (Reads.matvec (hw .attnV rfl) (by simp) rfl hm.nEmbd rfl).bind fun _ => ?_
  refine (Reads.addBias w.attnQBias (by simp)).bind fun _ => ?_
  refine (Reads.addBias w.attnKBias (by simp)).bind fun _ => ?_
  refine (Reads.addBias w.attnVBias (by simp)).bind fun _ => ?_
  exact (Reads.ropeApply (by simp) (by simp)).bind fun _ => Coupled.pure _

variable (ops cleared) in
/-- The attention reads only what agrees. -/
theorem reads_attend (hm : m.Sound) (hw : ∀ t : LayerTensor, t.isBias = false → t.get w ≠ [])
    (l pos : UInt32) :
    Reads ops (bufferSize m.hparams cleared.maxSeqLen) cleared [.hidden]
      (attend ops m.hparams w l pos) [.hidden] := by
  refine (Reads.orFail_of_reads
    (Reads.rmsNorm (hw .attnNorm rfl) (by simp) hm.nEmbd rfl)).bind fun _ => ?_
  refine (reads_project ops cleared hm hw pos).bind fun _ => ?_
  refine (Reads.orFail_of_reads (Reads.writeKV (by simp) (by simp))).bind fun _ => ?_
  refine (Reads.causalAttention (by simp) (by simp) (by simp) hm.toNat_heads rfl).bind fun _ => ?_
  refine (Reads.matvec (hw .attnOut rfl) (by simp) rfl hm.heads rfl).bind fun _ => ?_
  exact (Reads.residualAdd (by simp) (by simp)).mono (by simp)

variable (ops cleared) in
/-- The feed-forward network reads only what agrees. -/
theorem reads_feedForward (hm : m.Sound) (hw : ∀ t : LayerTensor, t.isBias = false → t.get w ≠ [])
    (l : UInt32) :
    Reads ops (bufferSize m.hparams cleared.maxSeqLen) cleared [.hidden]
      (feedForward ops m.hparams w l) [.hidden] := by
  refine (Reads.orFail_of_reads
    (Reads.rmsNorm (hw .ffnNorm rfl) (by simp) hm.nEmbd rfl)).bind fun _ => ?_
  refine (Reads.matvec (hw .ffnGate rfl) (by simp) rfl hm.nEmbd rfl).bind fun _ => ?_
  refine (Reads.matvec (hw .ffnUp rfl) (by simp) rfl hm.nEmbd rfl).bind fun _ => ?_
  refine (Reads.swiglu (by simp) (by simp) rfl).bind fun _ => ?_
  refine (Reads.matvec (hw .ffnDown rfl) (by simp) rfl hm.nFf rfl).bind fun _ => ?_
  exact (Reads.residualAdd (by simp) (by simp)).mono (by simp)

variable (ops cleared) in
/-- A layer needs the hidden state, and leaves a new one. -/
theorem reads_layer (hm : m.Sound) (pos : UInt32) (l : ℕ) :
    Reads ops (bufferSize m.hparams cleared.maxSeqLen) cleared [.hidden] (layer ops m pos l)
      [.hidden] := by
  unfold layer
  split
  next => exact Coupled.undefined
  next w hw =>
    have hweights := hm.layers w (List.mem_of_getElem? hw)
    refine (reads_attend ops cleared hm hweights _ pos).bind fun _ => ?_
    exact reads_feedForward ops cleared hm hweights _

variable (ops cleared) in
/-- **The pass.** It starts with nothing known and ends with the logits known. -/
theorem reads_pass (hm : m.Sound) (tokenId pos : UInt32) :
    Reads ops (bufferSize m.hparams cleared.maxSeqLen) cleared [] (pass ops m tokenId pos)
      [.logits] := by
  refine (Reads.embedLookup hm.tokEmbd rfl).bind fun _ => ?_
  refine Reads.bind (Coupled.forM fun l _ => reads_layer ops cleared hm pos l) fun _ => ?_
  refine (Reads.orFail_of_reads
    (Reads.rmsNorm hm.outputNorm (by simp) hm.nEmbd rfl)).bind fun _ => ?_
  refine (Reads.matvec hm.lmHead (by simp) rfl hm.nEmbd rfl).bind fun _ => ?_
  exact Reads.mono (Coupled.pure _) (by simp)

end Pass

/-! ## Two calls -/

/-- Two objects for models with the same weights, with the same content in their caches. Nothing is
said about their buffers. -/
structure SamePass (ops : TensorOps α δ) (m m' : HydroXLModel α) (cleared : HydroXLKVCache α)
    (p p' : HydroXLForwardPass α) : Prop where
  model : p.model = some m
  model' : p'.model = some m'
  kvCache : p.kvCache = p'.kvCache
  clears : p.kvCache.map (HydroXLKVCache.reset ops.zero) = some cleared

/-- Two results of calls: the same is returned, with the same logits or for the same reason. -/
structure SameCall (ops : TensorOps α δ) (m m' : HydroXLModel α) (cleared : HydroXLKVCache α)
    (r r' : Bool × List α × HydroXLForwardPass α) : Prop where
  returned : r.1 = r'.1
  logits : r.1 = true → r.2.1 = r'.2.1
  lastError : r.1 = false → r.2.2.lastError = r'.2.2.lastError
  after : SamePass ops m m' cleared r.2.2 r'.2.2

section Calls

variable {ops : TensorOps α δ} {m m' : HydroXLModel α} {cleared : HydroXLKVCache α}
  {p p' : HydroXLForwardPass α}

/-- The path, the buffer for reading and the count of bytes are not looked at. -/
theorem pass_congr (h : m.SameWeights m') (tokenId pos : UInt32) :
    pass ops m tokenId pos = pass ops m' tokenId pos := by
  have hlayer : layer ops m pos = layer ops m' pos := by
    funext l
    rw [layer, layer, h.layers, h.hparams]
  have hhead : m.lmHeadWeights = m'.lmHeadWeights := by
    rw [HydroXLModel.lmHeadWeights, HydroXLModel.lmHeadWeights, h.lmHeadTied, h.tokEmbd, h.lmHead]
  rw [pass, pass, h.hparams, h.tokEmbd, h.outputNorm, hlayer, hhead]

theorem length_start (logits : List α) (kvCache : HydroXLKVCache α) (b : ForwardBuffer) :
    ((p.start ops m kvCache logits).buffers b).length =
      (bufferSize m.hparams kvCache.maxSeqLen b).toNat :=
  HydroXLModel.length_resize _ _ _

/-- **Two forward passes.** With the same weights and the same content of the cache, two calls end
alike, whatever the buffers and the logits vector held. -/
theorem forward_rel (hm : m.Sound) (hm' : m'.Sound) (hsame : m.SameWeights m')
    (halloc : cleared.allocated = true) (h : SamePass ops m m' cleared p p') (tokenId pos : UInt32)
    (logits logits' : List α) :
    Option.Rel (SameCall ops m m' cleared) (p.forward ops tokenId pos logits)
      (p'.forward ops tokenId pos logits') := by
  obtain ⟨kvCache, hkv, hclears⟩ := Option.map_eq_some_iff.mp h.clears
  have hkv' : p'.kvCache = some kvCache := h.kvCache ▸ hkv
  have hready : (!kvCache.allocated) = false := by
    rw [← hclears] at halloc
    exact congrArg (!·) halloc
  have hmax : kvCache.maxSeqLen = cleared.maxSeqLen := by
    rw [← hclears]
    rfl
  unfold forward
  simp only [h.model, h.model', hkv, hkv', hm.loaded, hm'.loaded, hready, Bool.not_true, if_false,
    Bool.false_eq_true]
  have hstart : Agree ops (bufferSize m.hparams cleared.maxSeqLen) cleared []
      (p.start ops m kvCache logits) (p'.start ops m' kvCache logits') := by
    refine ⟨rfl, hclears, fun b => ?_, fun b => ?_, by simp⟩
    · rw [← hmax]
      exact length_start logits kvCache b
    · rw [← hmax, hsame.hparams]
      exact length_start logits' kvCache b
  rw [← pass_congr hsame]
  refine rel_bind (reads_pass ops cleared hm tokenId pos _ _ hstart) fun r r' hr => ?_
  cases hr with
  | ok hs =>
    refine .some ⟨rfl, fun _ => ?_, fun hfalse => ?_, rfl, rfl, congrArg some hs.kvCache,
      congrArg some hs.clears⟩
    · exact hs.known .logits (by simp)
    · cases hfalse
  | error hs =>
    refine .some ⟨rfl, fun htrue => ?_, fun _ => rfl, rfl, rfl, congrArg some hs.kvCache,
      congrArg some hs.clears⟩
    cases htrue

end Calls

end HydroXLForwardPass

end HeteroAccel
