import HeteroAccel.HydroXL.PassBounds

/-!
# What the operators of a forward pass report

A pass over a cache of any dimensions, as far as it is defined. `forward` fails when a norm, the
lookup, the write to the cache or the attention refuses its arguments, and does not look at what the
projections and the rotary encoding report. With weights and dimensions that are not empty the
projections do not refuse; the rotary encoding does for every odd head dimension.

## Main definitions

* `Reported`: states, with what has been reported;
* `Supplied`: the weights and dimensions are not empty.

## Main results

* `meets_pass_reports`: a pass that succeeds has written to a cache that has room for it, and what
  has been reported is `true` and what the rotary encoding says.
-/

namespace HeteroAccel

open OneRun

variable {α δ : Type}

/-- A state of the right sizes. If `H` holds, every report is `true` or `b`, and `l` are among the
reports. -/
structure Reported (size : ForwardBuffer → UInt32) (d : KVDims) (H : Prop) (b : Bool)
    (l : List Bool) (s : ForwardState α) : Prop where
  fits : Fits size d s
  forall_mem : H → ∀ ok ∈ s.reports, ok = true ∨ ok = b
  subset : H → l ⊆ s.reports

namespace Reported

variable {ops : TensorOps α δ} {size : ForwardBuffer → UInt32} {d : KVDims} {H : Prop} {b ok : Bool}
  {l : List Bool} {s t : ForwardState α} {c x y : ForwardBuffer}

/-- What was heard first may be forgotten. -/
theorem of_cons (h : Reported size d H b (ok :: l) s) : Reported size d H b l s :=
  ⟨h.fits, h.forall_mem, fun hH => List.Subset.trans (List.subset_cons_self ok l) (h.subset hH)⟩

/-- One more report. -/
theorem append (h : Reported size d H b l s) (ht : Fits size d t)
    (hreports : t.reports = s.reports ++ [ok]) (hok : H → ok = true ∨ ok = b) :
    Reported size d H b (ok :: l) t := by
  refine ⟨ht, fun hH ok' hmem => ?_, fun hH => ?_⟩
  · rw [hreports, List.mem_append, List.mem_singleton] at hmem
    obtain hmem | rfl := hmem
    · exact h.forall_mem hH ok' hmem
    · exact hok hH
  · rw [hreports, List.cons_subset]
    exact ⟨by simp, List.Subset.trans (h.subset hH) (List.subset_append_left _ _)⟩

/-! ## Rules for the operators -/

variable (size d H b) in
/-- An operator that reports; `C` is what holds of its report. -/
def Tells (p : ForwardM α Bool) (C : Bool → Prop) : Prop :=
  ∀ l, Meets True (Reported size d H b l) p
    (fun ok s => Fits size d s ∧ C ok ∧
      ((H → ok = true ∨ ok = b) → Reported size d H b (ok :: l) s)) (Fits size d)

theorem tells_action {f : ForwardState α → Option (Bool × ForwardState α)} {C : Bool → Prop}
    (h : ∀ s ok t, Fits size d s → f s = some (ok, t) →
      Fits size d t ∧ t.reports = s.reports ++ [ok] ∧ C ok) :
    Tells size d H b (TwoRuns.Prog.action f) C := by
  refine fun l => Meets.action (fun _ _ _ => trivial) fun s ok t hs ht => ?_
  obtain ⟨hfits, hreports, hC⟩ := h s ok t hs.fits ht
  exact ⟨hfits, hC, hs.append hfits hreports⟩

/-- An operation on one buffer reports its result. -/
theorem tells_operate {op : ForwardState α → List α → Option (Bool × List α)} {C : Bool → Prop}
    (hlength : ∀ s ok v, op s (s.buffers c) = some (ok, v) → v.length = (s.buffers c).length)
    (hC : ∀ s ok v, Fits size d s → op s (s.buffers c) = some (ok, v) → C ok) :
    Tells size d H b (ForwardM.operate c op) C := by
  refine tells_action fun s ok t hs ht => ?_
  obtain ⟨⟨ok', v⟩, hop, ht⟩ := Option.bind_eq_some_iff.mp ht
  cases ht
  have hv := (hlength s ok v hop).trans (hs.sized c)
  exact ⟨(hs.put hv).report ok, rfl, hC s ok v hs hop⟩

/-- An operation on two buffers reports its result. -/
theorem tells_operate₂ {op : ForwardState α → List α → List α → Option (Bool × List α × List α)}
    {C : Bool → Prop}
    (hlength : ∀ s ok v w, Fits size d s → op s (s.buffers c) (s.buffers x) = some (ok, v, w) →
      v.length = (s.buffers c).length ∧ w.length = (s.buffers x).length)
    (hC : ∀ s ok v w, Fits size d s → op s (s.buffers c) (s.buffers x) = some (ok, v, w) → C ok) :
    Tells size d H b (ForwardM.operate₂ c x op) C := by
  refine tells_action fun s ok t hs ht => ?_
  obtain ⟨⟨ok', v, w⟩, hop, ht⟩ := Option.bind_eq_some_iff.mp ht
  cases ht
  obtain ⟨hv, hw⟩ := hlength s ok v w hs hop
  refine ⟨((hs.put (hv.trans (hs.sized c))).put (hw.trans (hs.sized x))).report ok, rfl, ?_⟩
  exact hC s ok v w hs hop

/-- A report that is looked at. -/
theorem orFail {p : ForwardM α Bool} {C : Bool → Prop} (h : Tells size d H b p C) (e : Bytes) :
    Meets True (Reported size d H b l) (p.orFail e) (fun _ s => Reported size d H b l s ∧ C true)
      (Fits size d) := by
  refine Meets.orFail (A := fun s => Reported size d H b l s ∧ C true)
    ((h l).weaken fun ok s hs => ?_)
  cases ok with
  | true => exact ⟨(hs.2.2 fun _ => .inl rfl).of_cons, hs.2.1⟩
  | false => exact hs.1

/-- A report that is not. -/
theorem ignore {p : ForwardM α Bool} {C : Bool → Prop} (h : Tells size d H b p C)
    (hC : ∀ ok, C ok → H → ok = true ∨ ok = b) :
    Meets True (Reported size d H b l) p (fun ok s => Reported size d H b (ok :: l) s ∧ C ok)
      (Fits size d) :=
  (h l).weaken fun ok _ hs => ⟨hs.2.2 (hC ok hs.2.1), hs.2.1⟩

/-- A step that overwrites a buffer keeps what is known of the reports. -/
theorem overwrite {op : ForwardState α → List α → Option (List α)}
    (hlength : ∀ s v, op s (s.buffers c) = some v → v.length = (s.buffers c).length) :
    Meets True (Reported size d H b l) (ForwardM.overwrite c op) (fun _ => Reported size d H b l)
      (Fits size d) := by
  refine Meets.action (fun _ _ _ => trivial) fun s ok t hs ht => ?_
  obtain ⟨v, hop, ht⟩ := Option.bind_eq_some_iff.mp ht
  cases ht
  exact ⟨hs.fits.put ((hlength s v hop).trans (hs.fits.sized c)), hs.forall_mem, hs.subset⟩

variable (ops) in
/-- The normalization keeps what is known of the reports. -/
theorem rmsNorm {weight : List α} {n : UInt32} (eps : α) (e : Bytes) :
    Meets True (Reported size d H b l) ((ForwardM.rmsNorm ops x weight c n eps).orFail e)
      (fun _ => Reported size d H b l) (Fits size d) := by
  have htells : Tells size d H b (ForwardM.rmsNorm ops x weight c n eps) fun _ => True :=
    tells_operate (fun _ _ _ hv => length_rmsNorm hv) fun _ _ _ _ _ => trivial
  exact (orFail htells e).weaken fun _ _ hs => hs.1

/-- The embedding keeps what is known of the reports. -/
theorem embedLookup {table : List α} {tokenId vocabSize n : UInt32} (e : Bytes) :
    Meets True (Reported size d H b l) ((ForwardM.embedLookup table tokenId vocabSize n c).orFail e)
      (fun _ => Reported size d H b l) (Fits size d) := by
  have htells : Tells size d H b (ForwardM.embedLookup table tokenId vocabSize n c) fun _ => True :=
    tells_operate (fun _ _ _ hv => length_embedLookup hv) fun _ _ _ _ _ => trivial
  exact (orFail htells e).weaken fun _ _ hs => hs.1

/-- A buffer that has elements. -/
theorem buffer_ne_nil (hs : Fits size d s) (hc : size c ≠ 0) : s.buffers c ≠ [] :=
  ne_nil_of_le (pos_of_ne_zero hc) (hs.sized c).ge

variable (ops) in
/-- `matvec` accepts operands that are not empty, and counts their columns. -/
theorem matvec_lt {a : List α} {mRows kCols : UInt32} (hx : size x = kCols) (hc : size c = mRows)
    (hH : H → a ≠ [] ∧ mRows ≠ 0 ∧ kCols ≠ 0) :
    Meets True (Reported size d H b l) (ForwardM.matvec ops a x c mRows kCols)
      (fun _ s => Reported size d H b l s ∧ (H → kCols.toNat < 2 ^ 32 - 4)) (Fits size d) := by
  have htells : Tells size d H b (ForwardM.matvec ops a x c mRows kCols)
      fun ok => H → ok = true ∧ kCols.toNat < 2 ^ 32 - 4 := by
    refine tells_operate (fun _ _ _ hv => length_matvec hv) fun s ok v hs hv h => ?_
    obtain ⟨ha, hrows, hcols⟩ := hH h
    have hx' := buffer_ne_nil hs (hx ▸ hcols)
    have hc' := buffer_ne_nil hs (hc ▸ hrows)
    have hlt : kCols.toNat < 2 ^ 32 - 4 := by
      by_contra hge
      rw [matvec_eq_none ops (Nat.not_lt.mp hge) hrows ha hx' hc'] at hv
      cases hv
    unfold HeteroAccel.matvec at hv
    rw [if_neg (by simp [ha, hrows, hcols, hx', hc'])] at hv
    obtain ⟨v', -, hv⟩ := Option.bind_eq_some_iff.mp hv
    cases hv
    exact ⟨rfl, hlt⟩
  exact (ignore htells fun ok hok h => .inl (hok h).1).weaken fun _ _ hs =>
    ⟨hs.1.of_cons, fun h => (hs.2 h).2⟩

variable (ops) in
/-- The product with a matrix keeps what is known of the reports. -/
theorem matvec {a : List α} {mRows kCols : UInt32} (hx : size x = kCols) (hc : size c = mRows)
    (hH : H → a ≠ [] ∧ mRows ≠ 0 ∧ kCols ≠ 0) :
    Meets True (Reported size d H b l) (ForwardM.matvec ops a x c mRows kCols)
      (fun _ => Reported size d H b l) (Fits size d) :=
  (matvec_lt ops hx hc hH).weaken fun _ _ hs => hs.1

variable (ops) in
/-- The gate keeps what is known of the reports. -/
theorem swiglu {n : UInt32} : Meets True (Reported size d H b l) (ForwardM.swiglu ops x y c n)
    (fun _ => Reported size d H b l) (Fits size d) :=
  overwrite fun _ _ hv => Buffer.length_of_update hv

variable (ops) in
/-- The residual sum keeps what is known of the reports. -/
theorem residualAdd {n : UInt32} :
    Meets True (Reported size d H b l) (ForwardM.residualAdd ops c x n)
      (fun _ => Reported size d H b l) (Fits size d) :=
  overwrite fun _ _ hv => Buffer.length_of_update hv

variable (ops) in
/-- The sum with a bias keeps what is known of the reports. -/
theorem addBias {bias : List α} {n : UInt32} :
    Meets True (Reported size d H b l) (ForwardM.addBias ops bias c n)
      (fun _ => Reported size d H b l) (Fits size d) := by
  unfold ForwardM.addBias
  split
  next => exact overwrite fun _ _ hv => Buffer.length_of_update hv
  next => exact Meets.pure () fun _ hs => hs

variable (ops) in
/-- `rope_apply` accepts the heads of an even dimension. -/
theorem ropeApply {nHeads nKvHeads headDim : UInt32} (pos : UInt32) (freqBase freqScale : α)
    (hH : H → (size c ≠ 0 ∧ size x ≠ 0) ∧ nHeads ≠ 0 ∧ nKvHeads ≠ 0 ∧ headDim ≠ 0 ∧
      b = decide (headDim % 2 = 0)) :
    Meets True (Reported size d H b l)
      (ForwardM.ropeApply ops c nHeads x nKvHeads headDim pos freqBase freqScale)
      (fun _ => Reported size d H b [b]) (Fits size d) := by
  have htells : Tells size d H b
      (ForwardM.ropeApply ops c nHeads x nKvHeads headDim pos freqBase freqScale)
      fun ok => H → ok = b := by
    refine tells_operate₂ (fun _ _ _ _ _ hv => length_ropeApply hv) fun s ok v w hs hv h => ?_
    obtain ⟨⟨hc, hx⟩, hheads, hkv, hdim, rfl⟩ := hH h
    have hq := buffer_ne_nil hs hc
    have hk := buffer_ne_nil hs hx
    unfold HeteroAccel.ropeApply at hv
    by_cases heven : headDim % 2 = 0
    · rw [if_neg (by simp [hq, hk, hdim, heven]), if_neg (by simp [hheads, hkv])] at hv
      simp only [Option.bind_eq_bind, Option.bind_eq_some_iff] at hv
      obtain ⟨q', -, k', -, hv⟩ := hv
      cases hv
      simp [heven]
    · rw [if_pos (by simp [heven])] at hv
      cases hv
      simp [heven]
  refine (ignore htells fun ok hok h => .inr (hok h)).weaken fun ok s hs => ?_
  refine ⟨hs.1.fits, hs.1.forall_mem, fun h => ?_⟩
  have hmem := (List.cons_subset.mp (hs.1.subset h)).1
  rw [hs.2 h] at hmem
  exact List.cons_subset.mpr ⟨hmem, List.nil_subset _⟩

/-- `writeKV` accepts vectors that are long enough, and the layers of the cache. -/
theorem writeKV {layer pos : UInt32} (e : Bytes) :
    Meets True (Reported size d H b l) ((ForwardM.writeKV layer pos c x : ForwardM α Bool).orFail e)
      (fun _ s => Reported size d H b l s ∧ (layer < d.nLayers ∧ d.width ≤ (size c).toNat))
      (Fits size d) := by
  have htells : Tells size d H b (ForwardM.writeKV layer pos c x : ForwardM α Bool)
      fun ok => ok = true → layer < d.nLayers ∧ d.width ≤ (size c).toNat := by
    refine tells_action fun s ok t hs ht => ?_
    obtain ⟨⟨ok', kvCache⟩, hwrite, ht⟩ := Option.bind_eq_some_iff.mp ht
    cases ht
    obtain ⟨hcache, hdims⟩ := hs.cache.writeKV hwrite
    refine ⟨⟨hs.sized, hcache, hdims.trans hs.dims⟩, rfl, ?_⟩
    rintro rfl
    obtain ⟨hlayer, k, hk, hwidth⟩ := HydroXLKVCache.of_writeKV hwrite
    obtain rfl := hs.dims
    have hbuffer : s.buffers c = k := by
      unfold pointer at hk
      split at hk
      · cases hk
      · exact Option.some.inj hk
    refine ⟨hlayer, ?_⟩
    rw [← hs.sized c, hbuffer]
    exact hwidth
  exact (orFail htells e).weaken fun _ _ hs => ⟨hs.1, hs.2 rfl⟩

variable (ops) in
/-- `causal_attention` accepts heads that can be grouped. -/
theorem causalAttention {layer pos nHeads nKvHeads headDim : UInt32} (scale : α) (e : Bytes)
    (hlayer : layer < d.nLayers) (hfloats : 0 < d.floats)
    (hc : (size c).toNat = nHeads.toNat * headDim.toNat) (hx : size x = d.maxSeqLen) :
    Meets True (Reported size d H b l)
      ((ForwardM.causalAttention ops layer y c (pos + 1) nHeads nKvHeads headDim scale x).orFail e)
      (fun _ s => Reported size d H b l s ∧ (nHeads % nKvHeads = 0 ∧ pos + 1 ≠ 0 ∧
        ReadsFit nHeads nKvHeads headDim d.maxSeqLen (pos + 1) d.floats))
      (Fits size d) := by
  have htells : Tells size d H b
      (ForwardM.causalAttention ops layer y c (pos + 1) nHeads nKvHeads headDim scale x)
      fun ok => ok = true → nHeads % nKvHeads = 0 ∧ pos + 1 ≠ 0 ∧
        ReadsFit nHeads nKvHeads headDim d.maxSeqLen (pos + 1) d.floats := by
    have hscores : ∀ s : ForwardState α, Fits size d s →
        s.kvCache.maxSeqLen.toNat ≤ (s.buffers x).length := by
      intro s hs
      rw [hs.sized x, hx, ← hs.dims]
      exact Nat.le_refl _
    refine tells_operate₂ (fun s ok v w hs hv => ?_) fun s ok v w hs hv hok => ?_
    · exact length_causalAttentionInto hv ((hs.sized c).trans hc) (hscores s hs)
    · subst hok
      obtain ⟨kBuf, vBuf, hk, -, hkSize, -⟩ := hs.layer hlayer
      obtain ⟨hmod, hseq, hreads⟩ :=
        readsFit_of_causalAttentionInto ops hv ((hs.sized c).trans hc) (hscores s hs)
      refine ⟨hmod, hseq, ?_⟩
      have hpointer : ((s.kvCache.kLayer layer).bind pointer) = some kBuf := by
        rw [hk]
        exact Bounds.pointer_of_ne (ne_nil_of_le hfloats hkSize.ge)
      rw [← hkSize, ← hs.dims]
      exact hreads kBuf hpointer
  exact (orFail htells e).weaken fun _ _ hs => ⟨hs.1, hs.2 rfl⟩

end Reported

/-! ## The pass -/

/-- The weights and the dimensions of a model are not empty. -/
structure Supplied (m : HydroXLModel α) : Prop where
  vocabSize : m.hparams.vocabSize ≠ 0
  nEmbd : m.hparams.nEmbd ≠ 0
  nFf : m.hparams.nFf ≠ 0
  nHeads : m.hparams.nHeads ≠ 0
  nKvHeads : m.hparams.nKvHeads ≠ 0
  nHeadDim : m.hparams.nHeadDim ≠ 0
  qSize : m.hparams.nHeads * m.hparams.nHeadDim ≠ 0
  kvSize : m.hparams.nKvHeads * m.hparams.nHeadDim ≠ 0
  lmHead : m.lmHeadWeights ≠ []
  weights : ∀ w ∈ m.layers, ∀ t : LayerTensor, t.isBias = false → t.get w ≠ []

namespace HydroXLForwardPass

variable {ops : TensorOps α δ} {m : HydroXLModel α} {d : KVDims} {w : Qwen2LayerWeights α}
  {reports : List Bool}

/-- What the rotary encoding reports. -/
def ropeReport (m : HydroXLModel α) : Bool := decide (m.hparams.nHeadDim % 2 = 0)

/-- The states of a pass over a model that is supplied. -/
abbrev Heard (m : HydroXLModel α) (d : KVDims) (reports : List Bool) : ForwardState α → Prop :=
  Reported (bufferSize m.hparams d.maxSeqLen) d (Supplied m) (ropeReport m) reports

variable (ops) in
/-- The projections report what `rope_apply` returned, and nothing else. -/
theorem heard_project (hw : w ∈ m.layers) (pos : UInt32) :
    Meets True (Heard m d reports) (project ops m.hparams w pos)
      (fun _ => Heard m d [ropeReport m]) (Inside m d) := by
  refine (Reported.matvec ops rfl rfl fun h => ⟨?_, h.qSize, h.nEmbd⟩).bind fun _ => ?_
  · exact h.weights w hw .attnQ rfl
  refine (Reported.matvec ops rfl rfl fun h => ⟨?_, h.kvSize, h.nEmbd⟩).bind fun _ => ?_
  · exact h.weights w hw .attnK rfl
  refine (Reported.matvec ops rfl rfl fun h => ⟨?_, h.kvSize, h.nEmbd⟩).bind fun _ => ?_
  · exact h.weights w hw .attnV rfl
  refine (Reported.addBias ops).bind fun _ => ?_
  refine (Reported.addBias ops).bind fun _ => ?_
  refine (Reported.addBias ops).bind fun _ => ?_
  refine (Reported.ropeApply ops pos _ _ fun h =>
    ⟨⟨h.qSize, h.kvSize⟩, h.nHeads, h.nKvHeads, h.nHeadDim, rfl⟩).bind fun _ => ?_
  exact Meets.pure _ fun _ hs => hs

/-- What a pass that succeeds shows of the model and of the cache. -/
structure Passed (m : HydroXLModel α) (d : KVDims) (pos : UInt32) : Prop where
  width : d.width ≤ (m.hparams.nKvHeads * m.hparams.nHeadDim).toNat
  heads : m.hparams.nHeads % m.hparams.nKvHeads = 0
  next : pos + 1 ≠ 0
  reads : ReadsFit m.hparams.nHeads m.hparams.nKvHeads m.hparams.nHeadDim d.maxSeqLen (pos + 1)
    d.floats
  columns : Supplied m → m.hparams.nFf.toNat < 2 ^ 32 - 4

variable (ops) in
theorem heard_attend (hd : d.Positive) (hheads : (m.hparams.nHeads * m.hparams.nHeadDim).toNat =
      m.hparams.nHeads.toNat * m.hparams.nHeadDim.toNat) (hw : w ∈ m.layers) (l pos : UInt32) :
    Meets True (Heard m d reports) (attend ops m.hparams w l pos)
      (fun _ s => Heard m d [ropeReport m] s ∧ (l < d.nLayers ∧
        ((Supplied m → m.hparams.nFf.toNat < 2 ^ 32 - 4) → Passed m d pos))) (Inside m d) := by
  unfold attend
  refine (Reported.rmsNorm ops _ _).bind fun _ => ?_
  refine (heard_project ops hw pos).bind fun _ => ?_
  refine (Reported.writeKV _).bind fun _ => Meets.of_and fun hwrite => ?_
  have hfloats : 0 < d.floats := by
    rw [KVDims.floats_eq (hwrite.2.trans_lt (UInt32.toNat_lt _)), KVDims.layerSize]
    exact Nat.mul_pos (Nat.mul_pos (pos_of_ne_zero hd.2.1) (pos_of_ne_zero hd.2.2.1))
      (pos_of_ne_zero hd.2.2.2)
  refine (Reported.causalAttention ops _ _ hwrite.1 hfloats hheads rfl).bind fun _ =>
    Meets.of_and fun hattention => ?_
  refine (Reported.matvec ops rfl rfl fun h => ⟨?_, h.nEmbd, h.qSize⟩).bind fun _ => ?_
  · exact h.weights w hw .attnOut rfl
  obtain ⟨hmod, hnext, hreads⟩ := hattention
  exact (Reported.residualAdd ops).weaken fun _ _ hs =>
    ⟨hs, hwrite.1, fun hcolumns => ⟨hwrite.2, hmod, hnext, hreads, hcolumns⟩⟩

variable (ops) in
/-- The feed-forward network reports nothing new. -/
theorem heard_feedForward (hw : w ∈ m.layers) (l : UInt32) :
    Meets True (Heard m d reports) (feedForward ops m.hparams w l)
      (fun _ s => Heard m d reports s ∧ (Supplied m → m.hparams.nFf.toNat < 2 ^ 32 - 4))
      (Inside m d) := by
  unfold feedForward
  refine (Reported.rmsNorm ops _ _).bind fun _ => ?_
  refine (Reported.matvec ops rfl rfl fun h => ⟨?_, h.nFf, h.nEmbd⟩).bind fun _ => ?_
  · exact h.weights w hw .ffnGate rfl
  refine (Reported.matvec ops rfl rfl fun h => ⟨?_, h.nFf, h.nEmbd⟩).bind fun _ => ?_
  · exact h.weights w hw .ffnUp rfl
  refine (Reported.swiglu ops).bind fun _ => ?_
  refine (Reported.matvec_lt ops rfl rfl fun h => ⟨?_, h.nEmbd, h.nFf⟩).bind fun _ => ?_
  · exact h.weights w hw .ffnDown rfl
  refine Meets.of_and fun hcolumns => ?_
  exact (Reported.residualAdd ops).weaken fun _ _ hs => ⟨hs, hcolumns⟩

variable (ops) in
theorem heard_layer (hd : d.Positive) (hheads : (m.hparams.nHeads * m.hparams.nHeadDim).toNat =
      m.hparams.nHeads.toNat * m.hparams.nHeadDim.toNat) (pos : UInt32) (l : ℕ) :
    Meets True (Heard m d reports) (layer ops m pos l)
      (fun _ s => Heard m d [ropeReport m] s ∧ (UInt32.ofNat l < d.nLayers ∧ Passed m d pos))
      (Inside m d) := by
  unfold layer
  split
  next => exact fun _ _ => .undefined trivial
  next w hlayer =>
    have hw : w ∈ m.layers := List.mem_of_getElem? hlayer
    refine (heard_attend ops hd hheads hw _ pos).bind fun _ => Meets.of_and fun hpassed => ?_
    exact (heard_feedForward ops hw _).weaken fun _ _ hs => ⟨hs.1, hpassed.1, hpassed.2 hs.2⟩

variable (ops) in
/-- **The reports of a pass** that succeeds: `true`, and what the rotary encoding says. The cache
has the layers of the model, and room for its vectors. -/
theorem heard_pass (hd : d.Positive) (hheads : (m.hparams.nHeads * m.hparams.nHeadDim).toNat =
      m.hparams.nHeads.toNat * m.hparams.nHeadDim.toNat) (hlayers : 0 < m.hparams.nLayers.toNat)
    (tokenId pos : UInt32) :
    Meets True (Heard m d []) (pass ops m tokenId pos)
      (fun _ s => Heard m d [ropeReport m] s ∧
        (m.hparams.nLayers ≤ d.nLayers ∧ Passed m d pos)) (Inside m d) := by
  refine (Reported.embedLookup _).bind fun _ => ?_
  obtain ⟨rest, hrange, -⟩ := range_of_pos hlayers
  have hlast : m.hparams.nLayers.toNat - 1 ∈ 0 :: rest := by
    rw [← hrange, List.mem_range]
    omega
  rw [hrange]
  refine (Meets.forM_cons_all (heard_layer ops hd hheads pos 0) fun l _ =>
    heard_layer ops hd hheads pos l).bind fun _ => Meets.of_and fun hall => ?_
  refine (Reported.rmsNorm ops _ _).bind fun _ => ?_
  refine (Reported.matvec ops rfl rfl fun h => ⟨h.lmHead, h.vocabSize, h.nEmbd⟩).bind fun _ => ?_
  refine Meets.pure _ fun _ hs => ⟨hs, ?_, (hall _ hlast).2⟩
  -- the last layer is one of the cache
  have hlt := UInt32.lt_iff_toNat_lt.mp (hall _ hlast).1
  have hmax := m.hparams.nLayers.toNat_lt
  rw [UInt32.toNat_ofNat', Nat.mod_eq_of_lt (by omega)] at hlt
  rw [UInt32.le_iff_toNat_le]
  omega

end HydroXLForwardPass

end HeteroAccel
