import HeteroAccel.HydroXL.LoadedBounds
import HeteroAccel.HydroXL.ModelHistory

/-!
# Does a forward pass that succeeds apply every operator?

A model that has been loaded into a fresh object, and a cache that has been allocated with any
dimensions. `ReportsSuccess` says that all operators have accepted their arguments in a call of
`forward` that succeeds. The loader does not look at the parity of the head dimension, which
`rope_apply` wants to be even, and `forward` does not look at what `rope_apply` reports.

## Main definitions

* `ReportsSuccess`: no operator refuses its arguments in a call that succeeds;
* `Qwen2HParams.CanPass`: some call succeeds over a cache of given dimensions.

## Main results

* `reportsSuccess_iff`: the head dimension is even, or no call succeeds;
* `not_reportsSuccess`: a model with one element in a head.
-/

namespace HeteroAccel

open Bytes (ofString)

variable {α δ : Type}

/-! ## What is promised -/

/-- Loaded from the file into a fresh object and with a cache of the dimensions `d`, the model is
passed with success only when **every operator reports success**. -/
def ReportsSuccess (ops : TensorOps α δ) (path : Bytes) (content : FileContent)
    (d : KVDims) : Prop :=
  ∀ threads m c outcome kvCache,
    HydroXLModel.load ops threads path (.file content) (HydroXLModel.fresh ops) = (.loaded, m) →
    HydroXLKVCache.callAllocate ops.zero outcome c d = (some true, kvCache) →
    ∀ p, (HydroXLForwardPass.uses ops m kvCache).Reachable TransitionSystem.anyCall p →
    ∀ tokenId pos logits logits' q,
      p.forward ops tokenId pos logits = some (true, logits', q) →
      ∀ ok ∈ p.reports ops tokenId pos logits, ok = true

/-- What a pass asks of the model and of a cache of the dimensions `d`: the cache has the layers of
the model, its vectors are not longer than those of the model, and the first position of every head
is in a layer; the heads can be grouped, and `matvec` can count the columns of the feed-forward
network. -/
structure Qwen2HParams.CanPass (hp : Qwen2HParams α) (d : KVDims) : Prop where
  nLayers : hp.nLayers ≤ d.nLayers
  width : d.width ≤ hp.kvSize
  reads : ReadsFit hp.nHeads hp.nKvHeads hp.nHeadDim d.maxSeqLen 1 d.layerSize
  heads : hp.nHeads % hp.nKvHeads = 0
  columns : hp.nFf.toNat < 2 ^ 32 - 4

namespace HydroXLForwardPass

open HydroXLModel OneRun

variable {ops : TensorOps α δ} {path : Bytes} {content : FileContent} {gguf : GGUFLoader}
  {hp : Qwen2HParams α} {m : HydroXLModel α} {kvCache : HydroXLKVCache α} {d : KVDims}
  {p q : HydroXLForwardPass α} {tokenId pos : UInt32} {logits logits' : List α}

/-! ## Heads that can be grouped -/

/-- Then the key vectors are not longer than the query vectors. -/
theorem kvSize_le (hvalid : hp.Valid) (hmod : hp.nHeads % hp.nKvHeads = 0) :
    hp.kvSize ≤ hp.nEmbd.toNat := by
  have hdvd : hp.nKvHeads.toNat ∣ hp.nHeads.toNat := by
    apply Nat.dvd_of_mod_eq_zero
    rw [← UInt32.toNat_mod, hmod]
    rfl
  have hle : hp.nKvHeads.toNat ≤ hp.nHeads.toNat := Nat.le_of_dvd hvalid.nHeads hdvd
  exact (Nat.mul_le_mul_right _ hle).trans (toNat_heads hvalid).2

/-- The size of the keys does not wrap where the heads are grouped evenly. -/
theorem toNat_kvSize_of_mod (hvalid : hp.Valid) (hmod : hp.nHeads % hp.nKvHeads = 0) :
    (hp.nKvHeads * hp.nHeadDim).toNat = hp.kvSize := by
  rw [toNat_kvSize]
  exact Nat.mod_eq_of_lt ((kvSize_le hvalid hmod).trans_lt hp.nEmbd.toNat_lt)

variable (ops path content gguf hp m kvCache d) in
/-- A loaded model, and a cache of the dimensions `d`. -/
structure Given : Prop where
  loads : Loads ops path content gguf hp
  content : LoadedOver ops gguf.tensorFile hp (fresh ops) m
  loaded : m.loaded = true
  sized : kvCache.Sized
  dims : kvCache.dims = d

namespace Given

/-- The dimensions of the cache are positive. -/
theorem positive (h : Given ops path content gguf hp m kvCache d) : d.Positive :=
  h.dims ▸ ⟨h.sized.layers, h.sized.heads, h.sized.seq, h.sized.dim⟩

theorem width_pos (h : Given ops path content gguf hp m kvCache d) : 0 < d.width :=
  Nat.mul_pos (pos_of_ne_zero h.positive.2.1) (pos_of_ne_zero h.positive.2.2.2)

theorem valid (h : Given ops path content gguf hp m kvCache d) : hp.Valid :=
  valid_of_hparamsOf h.loads.hparams

/-- Every reachable pass works with its model and cache. -/
theorem works (h : Given ops path content gguf hp m kvCache d)
    (hp : (uses ops m kvCache).Reachable TransitionSystem.anyCall p) : Works m d p := by
  rw [← h.dims]
  refine works_of_reachable h.loaded ?_ ?_ h.sized hp <;> rw [h.content.hparams]
  · exact (toNat_heads h.valid).1
  · exact h.valid.nLayers

/-- The model with a cache of its own dimensions, for one position. -/
theorem suits (h : Given ops path content gguf hp m kvCache d) (hdim : hp.nHeadDim ≠ 0) :
    Suits m ⟨hp.nLayers, hp.nKvHeads, 1, hp.nHeadDim⟩ := by
  have hne : ∀ {n : UInt32}, 0 < n.toNat → n ≠ 0 := by
    rintro n hn rfl
    exact Nat.lt_irrefl 0 hn
  refine suits_of_load h.loads h.content h.loaded ⟨?_, ?_, ?_, hdim⟩ rfl rfl rfl
  · exact hne h.valid.nLayers
  · exact hne h.valid.nKvHeads
  · exact hne Nat.one_pos

/-- The weights of the keys suit where the heads are grouped evenly. -/
theorem kvSuit (h : Given ops path content gguf hp m kvCache d) (hdim : hp.nHeadDim ≠ 0)
    (hmod : hp.nHeads % hp.nKvHeads = 0) : KvSuit m := by
  have hembd := (h.suits hdim).nEmbd_lt
  rw [h.content.hparams] at hembd
  have hlt : hp.kvSize < 2 ^ 31 := (kvSize_le h.valid hmod).trans_lt hembd
  refine kvSuit_of_load h.loads h.content ?_ ?_
  · exact Nat.mul_pos h.valid.nKvHeads (pos_of_ne_zero hdim)
  · exact (Nat.mul_lt_mul'' hlt hembd).trans (by decide)

/-- Its weights and dimensions are not empty. -/
theorem supplied (h : Given ops path content gguf hp m kvCache d) (hdim : hp.nHeadDim ≠ 0)
    (hmod : hp.nHeads % hp.nKvHeads = 0) : Supplied m := by
  have hsuits := h.suits hdim
  have hhparams := h.content.hparams
  have hkv : m.hparams.nKvHeads ≠ 0 := hsuits.nKvHeads ▸ hsuits.positive.2.1
  have hdim' : m.hparams.nHeadDim ≠ 0 := hhparams ▸ hdim
  have hq : m.hparams.nHeads * m.hparams.nHeadDim ≠ 0 := by
    intro hzero
    have hheads := hsuits.heads
    rw [hzero] at hheads
    exact (Nat.mul_pos (pos_of_ne_zero hsuits.nHeads) (pos_of_ne_zero hdim')).ne hheads
  have hkvSize : m.hparams.nKvHeads * m.hparams.nHeadDim ≠ 0 := by
    intro hzero
    have hsize := toNat_kvSize_of_mod h.valid hmod
    rw [← hhparams, hzero] at hsize
    exact (Nat.mul_pos (pos_of_ne_zero hkv) (pos_of_ne_zero hdim')).ne hsize
  refine ⟨hsuits.vocabSize, hsuits.nEmbd, hsuits.nFf, hsuits.nHeads, hkv, hdim', hq,
    hkvSize, ?_, ?_⟩
  · exact ne_nil_of_le (Nat.mul_pos (pos_of_ne_zero hsuits.vocabSize) (pos_of_ne_zero hsuits.nEmbd))
      hsuits.lmHead
  · intro w hw t hbias
    -- every weight has an element that a pass reads
    have hpos : 0 < t.read m.hparams := by
      have hembd := pos_of_ne_zero hsuits.nEmbd
      have hff := pos_of_ne_zero hsuits.nFf
      have hq := pos_of_ne_zero hq
      have hkv := pos_of_ne_zero hkvSize
      cases t <;> (simp only [LayerTensor.read]; positivity)
    by_cases hkvTensor : t ∈ [LayerTensor.attnK, .attnV]
    · exact ne_nil_of_le hpos (h.kvSuit hdim hmod w hw t hkvTensor)
    · exact ne_nil_of_le hpos (hsuits.weights w hw t hbias hkvTensor)

/-! ## Calls that succeed -/

/-- What a call that succeeds shows, and what has been reported in it. -/
theorem heard_forward (h : Given ops path content gguf hp m kvCache d) (hp : Works m d p)
    (hforward : p.forward ops tokenId pos logits = some (true, logits', q)) :
    m.hparams.nLayers ≤ d.nLayers ∧ Passed m d pos ∧ (Supplied m →
      (∀ ok ∈ p.reports ops tokenId pos logits, ok = true ∨ ok = ropeReport m) ∧
        ropeReport m ∈ p.reports ops tokenId pos logits) := by
  have hheads := (toNat_heads h.valid).1
  have hlayers := h.valid.nLayers
  rw [← h.content.hparams] at hheads hlayers
  obtain ⟨-, hnone⟩ | ⟨ok, s, q', hforward', hreports, -, -, hs⟩ :=
    forward_cases h.loaded hp (fun _ => heard_of_start)
      (heard_pass ops h.positive hheads hlayers tokenId pos) logits
  · rw [hnone] at hforward
    cases hforward
  · cases hforward.symm.trans hforward'
    obtain ⟨hheard, hcache, hpassed⟩ := hs
    refine ⟨hcache, hpassed, fun hsupplied => ?_⟩
    rw [hreports]
    exact ⟨hheard.forall_mem hsupplied,
      (List.cons_subset.mp (hheard.subset hsupplied)).1⟩

/-- A call that succeeds shows that one can. -/
theorem canPass (h : Given ops path content gguf hp m kvCache d)
    (hnLayers : m.hparams.nLayers ≤ d.nLayers) (hpassed : Passed m d pos) :
    hp.nHeadDim ≠ 0 ∧ hp.CanPass d := by
  have hhparams := h.content.hparams
  obtain ⟨hwidth, hmod, hnext, hreads, hcolumns⟩ := hpassed
  rw [hhparams] at hnLayers hwidth hmod hreads hcolumns
  have hlt : d.width < 2 ^ 32 := hwidth.trans_lt (UInt32.toNat_lt _)
  rw [toNat_kvSize_of_mod h.valid hmod] at hwidth
  have hdim : hp.nHeadDim ≠ 0 := by
    intro hzero
    have hpos := h.width_pos.trans_le hwidth
    rw [Qwen2HParams.kvSize, hzero] at hpos
    exact Nat.lt_irrefl 0 hpos
  refine ⟨hdim, hnLayers, hwidth, fun i hi t ht e he => ?_, hmod, ?_⟩
  · rw [← KVDims.floats_eq hlt]
    refine hreads i hi t (Nat.lt_of_lt_of_le ht ?_) e he
    exact pos_of_ne_zero hnext
  · exact hcolumns (h.supplied hdim hmod)

/-- A cache that a call can succeed over, at the first position. -/
theorem serves (h : Given ops path content gguf hp m kvCache d) (hcan : hp.CanPass d) :
    hp.nHeadDim ≠ 0 ∧ Serves m d 0 := by
  have hsize := toNat_kvSize_of_mod h.valid hcan.heads
  have hdim : hp.nHeadDim ≠ 0 := by
    intro hzero
    have hpos := h.width_pos.trans_le hcan.width
    rw [Qwen2HParams.kvSize, hzero] at hpos
    exact Nat.lt_irrefl 0 hpos
  refine ⟨hdim, ?_, ?_, h.width_pos, ?_, fun _ _ => ?_⟩ <;> rw [h.content.hparams]
  · exact hsize
  · exact hcan.nLayers
  · exact hsize ▸ hcan.width
  · exact hcan.reads

/-- The first token at the first position. -/
theorem exists_forward_of_canPass (h : Given ops path content gguf hp m kvCache d)
    (hcan : hp.CanPass d) (hp : Works m d p) (logits : List α) :
    ∃ logits' q, p.forward ops 0 0 logits = some (true, logits', q) := by
  obtain ⟨hdim, hserves⟩ := h.serves hcan
  have hsuits := h.suits hdim
  have hmod := hcan.heads
  have hcolumns := hcan.columns
  rw [← h.content.hparams] at hmod hcolumns
  have htoken : ¬(0 : UInt32) ≥ m.hparams.vocabSize :=
    fun hge => hsuits.vocabSize (UInt32.le_zero_iff.mp hge)
  have hpos : (0 : UInt32) < d.maxSeqLen := UInt32.pos_iff_ne_zero.mpr h.positive.2.2.1
  have hpass := meets_pass ops (E := fun _ => False) hsuits (h.kvSuit hdim hcan.heads) hserves
    (.inl hcolumns) fun hreject => absurd ⟨htoken, hpos, hmod⟩ hreject
  obtain ⟨hfalse, -⟩ | ⟨ok, s, q, hforward, -, -, -, hs⟩ :=
    forward_cases h.loaded hp (fun _ hs _ => hs) hpass logits
  · exact hfalse.elim
  · cases ok with
    | true => exact ⟨_, q, hforward⟩
    | false => exact hs.elim

end Given

/-- What a load and an allocation prepare. -/
theorem given_of_load {threads : Threads} {c : HydroXLKVCache α} {outcome : AssignOutcome α}
    (hloads : Loads ops path content gguf hp)
    (hload : load ops threads path (.file content) (fresh ops) = (.loaded, m))
    (halloc : c.callAllocate ops.zero outcome d = (some true, kvCache)) :
    Given ops path content gguf hp m kvCache d := by
  obtain ⟨hsized, hdims⟩ := HydroXLKVCache.sized_of_callAllocate halloc
  exact ⟨hloads, loadedOver_of_load hloads hload, loaded_of_load hload, hsized, hdims⟩

end HydroXLForwardPass

/-! ## Files -/

namespace HydroXLModel

open HydroXLForwardPass

variable {ops : TensorOps α δ}

/-- **Every operator reports success** in the calls that succeed exactly when the head dimension is
even, or no call succeeds over a cache of these dimensions. -/
theorem reportsSuccess_iff (path : Bytes) (content : FileContent) (d : KVDims) :
    ReportsSuccess ops path content d ↔ ∀ gguf hp, Loads ops path content gguf hp →
      (∃ c outcome, (HydroXLKVCache.callAllocate ops.zero outcome c d).1 = some true) →
      hp.nHeadDim % 2 = 0 ∨ ¬hp.CanPass d := by
  constructor
  · rintro hsuccess gguf hp hloads ⟨c, outcome, halloc⟩
    refine or_iff_not_imp_right.mpr fun hcan => ?_
    rw [not_not] at hcan
    obtain ⟨m, hload, hover⟩ := hloads.load {} (fresh ops)
    have hgiven := given_of_load hloads hload (Prod.ext halloc rfl)
    set kvCache := (c.callAllocate ops.zero outcome d).2
    -- a fresh object
    have hinit : (uses ops m kvCache).Reachable TransitionSystem.anyCall
        (({} : HydroXLForwardPass α).attach m kvCache) := .init ⟨{}, rfl, fun _ _ => rfl⟩
    have hworks := hgiven.works hinit
    obtain ⟨logits', q, hforward⟩ := hgiven.exists_forward_of_canPass hcan hworks []
    have htrue :=
      hsuccess _ m c outcome kvCache hload (Prod.ext halloc rfl) _ hinit 0 0 [] logits' q
      hforward
    obtain ⟨-, -, hreports⟩ := hgiven.heard_forward hworks hforward
    have hrope := htrue _ (hreports (hgiven.supplied (hgiven.serves hcan).1 hcan.heads)).2
    rw [← hover.hparams]
    exact of_decide_eq_true hrope
  · intro heven threads m c outcome kvCache hload halloc p hp tokenId pos logits logits' q hforward
    obtain ⟨gguf, hparams, hloads⟩ := loads_of_load hload
    have hgiven := given_of_load hloads hload halloc
    obtain ⟨hnLayers, hpassed, hreports⟩ := hgiven.heard_forward (hgiven.works hp) hforward
    obtain ⟨hdim, hcan⟩ := hgiven.canPass hnLayers hpassed
    have hrope : ropeReport m = true := by
      have h := (heven gguf hparams hloads ⟨c, outcome, congrArg Prod.fst halloc⟩).resolve_right
        fun hnot => hnot hcan
      rw [← hgiven.content.hparams] at h
      exact decide_eq_true h
    intro ok hok
    obtain htrue | hrope' := (hreports (hgiven.supplied hdim hcan.heads)).1 ok hok
    · exact htrue
    · exact hrope'.trans hrope

/-! ## A head of one element -/

/-- A cache for one vector of one element. -/
def smallCache : HydroXLKVCache ℚ :=
  (HydroXLKVCache.callAllocate rationalOps.zero .granted {} ⟨1, 1, 1, 1⟩).2

/-- A fresh object that works on a model over the small cache. -/
def smallPass (m : HydroXLModel ℚ) : HydroXLForwardPass ℚ :=
  HydroXLForwardPass.attach m smallCache {}

/-- The rotary encoding of a head of one element is refused, and the call succeeds. -/
theorem not_reportsSuccess : ¬∀ (path : Bytes) (content : FileContent) (d : KVDims),
    ReportsSuccess rationalOps path content d := by
  intro h
  specialize h (ofString "b") withoutBias ⟨1, 1, 1, 1⟩ {}
  generalize hload : load rationalOps {} (ofString "b") (.file withoutBias) (fresh rationalOps) = r
    at h
  obtain ⟨hloaded, hforward, hreports⟩ : r.1 = .loaded ∧
      ((smallPass r.2).forward rationalOps 0 0 []).map Prod.fst = some true ∧
      false ∈ (smallPass r.2).reports rationalOps 0 0 [] := by
    rw [← hload]
    decide +kernel
  obtain ⟨⟨ok, logits', q⟩, hforward, hok⟩ := Option.map_eq_some_iff.mp hforward
  obtain rfl : ok = true := hok
  have hinit : (uses rationalOps r.2 smallCache).Reachable TransitionSystem.anyCall
      (smallPass r.2) := .init ⟨{}, rfl, fun _ _ => rfl⟩
  have htrue := h r.2 {} .granted smallCache (Prod.ext hloaded rfl) rfl _ hinit 0 0 [] logits' q
    hforward false hreports
  exact Bool.false_ne_true htrue

end HydroXLModel

end HeteroAccel
