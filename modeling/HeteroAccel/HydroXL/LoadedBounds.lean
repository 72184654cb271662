import HeteroAccel.HydroXL.GGUFRoundTrip
import HeteroAccel.HydroXL.LoadedWeights
import HeteroAccel.HydroXL.PassIndependence
import HeteroAccel.HydroXL.PassReports

/-!
# Can a loaded model be indexed out of bounds?

A model that has been loaded into a fresh object, and a cache that has been allocated with its
dimensions. `InBounds` says that no weight is too small for its dimensions, and that every call of
`forward` stays in its buffers. The loader compares 64-bit products, the buffers have 32-bit sizes,
and the metadata is free.

## Main results

* `works_of_reachable`: the object behind any calls;
* `loadedInBounds_iff`: the hyper-parameters with which nothing is indexed out of bounds;
* `not_loadedInBounds`: a model with 2^32 - 4 columns in its feed-forward network.
-/

namespace HeteroAccel

open Bytes (ofString)

variable {α δ : Type}

/-! ## What is promised -/

/-- What is done with the object behind `attach`, and with its cache between two calls. -/
inductive ForwardUse (α : Type)
  | forward (tokenId pos : UInt32) (logits : List α)
  | reset
  | advanceSeq

namespace HydroXLForwardPass

variable (ops : TensorOps α δ)

/-- What a use leaves; a call that has no defined behaviour takes no step. -/
def Takes (p : HydroXLForwardPass α) : ForwardUse α → HydroXLForwardPass α → Prop
  | .forward tokenId pos logits, q => ∃ ok logits',
      p.forward ops tokenId pos logits = some (ok, logits', q)
  | .reset, q => { p with kvCache := p.kvCache.map fun c => c.reset ops.zero } = q
  | .advanceSeq, q => { p with kvCache := p.kvCache.map fun c => c.advanceSeq.2 } = q

/-- The uses of an object that a model and a cache are attached to. A vector that is resized to
nothing keeps its memory, so that its `data()` is no null pointer: in the beginning the vectors that
the model needs no elements of have none. -/
def uses (m : HydroXLModel α) (kvCache : HydroXLKVCache α) :
    TransitionSystem (HydroXLForwardPass α) (ForwardUse α) where
  Init p := ∃ p₀ : HydroXLForwardPass α, p = p₀.attach m kvCache ∧
    ∀ b, bufferSize m.hparams kvCache.maxSeqLen b = 0 → p₀.buffers b = []
  Step p use q := p.Takes ops use q

/-- **Nothing is indexed out of bounds.** -/
structure InBounds (m : HydroXLModel α) (kvCache : HydroXLKVCache α) : Prop where
  /-- A weight has the elements that its dimensions say, as natural numbers; a bias may lack. -/
  weights : ∀ slot ∈ Slot.used m.hparams.nLayers.toNat,
    (slot.isBias = true ∧ m.weights slot = []) ∨ slot.size m.hparams ≤ (m.weights slot).length
  /-- A call stays in the buffers, and rejects a token that is not in the vocabulary and a position
  that is not in the cache. -/
  forward : ∀ p, (uses ops m kvCache).Reachable TransitionSystem.anyCall p →
    ∀ tokenId pos logits, ∃ ok logits' q,
      p.forward ops tokenId pos logits = some (ok, logits', q) ∧
        (tokenId ≥ m.hparams.vocabSize ∨ pos ≥ kvCache.maxSeqLen → ok = false)

end HydroXLForwardPass

/-- Loaded from the file into a fresh object and with a cache for `maxSeqLen` positions, the model
is not indexed out of bounds. -/
def LoadedInBounds (ops : TensorOps α δ) (path : Bytes) (content : FileContent)
    (maxSeqLen : UInt32) : Prop :=
  ∀ threads m c outcome kvCache,
    HydroXLModel.load ops threads path (.file content) (HydroXLModel.fresh ops) = (.loaded, m) →
    HydroXLKVCache.callAllocate ops.zero outcome c
      ⟨m.hparams.nLayers, m.hparams.nKvHeads, maxSeqLen,
      m.hparams.nHeadDim⟩ = (some true, kvCache) →
    HydroXLForwardPass.InBounds ops m kvCache

namespace Qwen2HParams

variable (hp : Qwen2HParams α)

/-- The hyper-parameters with which nothing is indexed out of bounds. A key vector has fewer than
2^32 elements, and `matvec` can count to the columns of the feed-forward network, or never gets
there as the heads cannot be grouped. Or the 32-bit size of the key vector is zero, so that every
pass fails, and the key projection fits in 64 bits. -/
def IndexesFit : Prop :=
  (hp.kvSize < 2 ^ 32 ∧ (hp.nFf.toNat < 2 ^ 32 - 4 ∨ hp.nHeads % hp.nKvHeads ≠ 0)) ∨
    (2 ^ 32 ∣ hp.kvSize ∧ hp.kvSize * hp.nEmbd.toNat < 2 ^ 64)

end Qwen2HParams

/-! ## Calls -/

namespace HydroXLForwardPass

open OneRun

variable {ops : TensorOps α δ} {m : HydroXLModel α} {d : KVDims} {kvCache : HydroXLKVCache α}
  {p q : HydroXLForwardPass α} {tokenId pos : UInt32}

/-- The object works on a model, over a cache with the dimensions `d`. -/
structure Works (m : HydroXLModel α) (d : KVDims) (p : HydroXLForwardPass α) : Prop where
  model : p.model = some m
  kvCache : ∃ c, p.kvCache = some c ∧ c.Sized ∧ c.dims = d

/-- How a call ends, from how its pass does. -/
theorem forward_cases {U : Prop} {P Q E : ForwardState α → Prop} (hm : m.loaded = true)
    (hp : Works m d p) (hP : ∀ s, Inside m d s → s.reports = [] → P s)
    (h : Meets U P (pass ops m tokenId pos) (fun _ => Q) E) (logits : List α) :
    (U ∧ p.forward ops tokenId pos logits = none) ∨ ∃ ok s q,
      p.forward ops tokenId pos logits = some (ok, s.buffers .logits, q) ∧
        p.reports ops tokenId pos logits = s.reports ∧ q.model = some m ∧
        q.kvCache = some s.kvCache ∧ if ok then Q s else E s := by
  obtain ⟨c, hc, hsized, rfl⟩ := hp.kvCache
  have hends := h (p.start ops m c logits)
    (hP _ ⟨fun b => length_start logits c b, hsized, rfl⟩ rfl)
  unfold forward reports
  simp only [hp.model, hc, hm, hsized.allocated, Bool.not_true, if_false, if_true,
    Bool.false_eq_true, Bool.and_self]
  generalize (pass ops m tokenId pos).runFrom (p.start ops m c logits) = r at hends ⊢
  cases hends with
  | undefined h => exact .inl ⟨h, rfl⟩
  | @ok v s h => exact .inr ⟨true, s, _, rfl, rfl, rfl, rfl, h⟩
  | @error e s h => exact .inr ⟨false, s, _, rfl, rfl, rfl, rfl, h⟩

/-- A call that is defined; `C` is what holds when it succeeds. -/
theorem exists_forward {C : Prop} {E : ForwardState α → Prop} (hm : m.loaded = true)
    (hp : Works m d p)
    (h : Meets False (Inside m d) (pass ops m tokenId pos) (fun _ s => Inside m d s ∧ C) E)
    (logits : List α) :
    ∃ ok logits' q, p.forward ops tokenId pos logits = some (ok, logits', q) ∧
      (ok = true → C) := by
  obtain ⟨hfalse, -⟩ | ⟨ok, s, q, hforward, -, -, -, hs⟩ :=
    forward_cases hm hp (fun _ hs _ => hs) h logits
  · exact hfalse.elim
  · refine ⟨ok, _, q, hforward, ?_⟩
    rintro rfl
    exact hs.2

/-- A call that is not. -/
theorem forward_eq_none (hm : m.loaded = true) (hp : Works m d p)
    (h : Meets True (Inside m d) (pass ops m tokenId pos) (fun _ _ => False) fun _ => False)
    (logits : List α) : p.forward ops tokenId pos logits = none := by
  obtain ⟨-, hnone⟩ | ⟨ok, s, q, -, -, -, -, hs⟩ := forward_cases hm hp (fun _ hs _ => hs) h logits
  · exact hnone
  · cases ok with
    | true => exact hs.elim
    | false => exact hs.elim

/-! ## Runs of calls -/

/-- The cache is reset or advanced between two calls. -/
theorem Works.mapCache (hp : Works m d p) {change : HydroXLKVCache α → HydroXLKVCache α}
    (h : ∀ c : HydroXLKVCache α, c.Sized → (change c).Sized ∧ (change c).dims = c.dims) :
    Works m d { p with kvCache := p.kvCache.map change } := by
  obtain ⟨c, hc, hsized, hdims⟩ := hp.kvCache
  refine ⟨hp.model, change c, congrArg (Option.map change) hc, (h c hsized).1, ?_⟩
  exact (h c hsized).2.trans hdims

theorem sized_reset (zero : α) {c : HydroXLKVCache α} (hc : c.Sized) : (c.reset zero).Sized := by
  refine ⟨hc.allocated, hc.layers, hc.heads, hc.seq, hc.dim, fun layer hlayer => ?_⟩
  obtain ⟨kBuf, vBuf, hk, hv, hkSize, hvSize⟩ := hc.buffers layer hlayer
  refine ⟨kBuf.map fun _ => zero, vBuf.map fun _ => zero, ?_, ?_, ?_, ?_⟩
  · simp [HydroXLKVCache.reset, hk]
  · simp [HydroXLKVCache.reset, hv]
  · exact (List.length_map _).trans hkSize
  · exact (List.length_map _).trans hvSize

/-- A position more keeps the sizes of a cache. -/
theorem sized_advanceSeq {c : HydroXLKVCache α} (hc : c.Sized) :
    c.advanceSeq.2.Sized ∧ c.advanceSeq.2.dims = c.dims := by
  unfold HydroXLKVCache.advanceSeq
  split
  · exact ⟨hc, rfl⟩
  · exact ⟨⟨hc.allocated, hc.layers, hc.heads, hc.seq, hc.dim, hc.buffers⟩, rfl⟩

/-- A new forward pass works with its model and cache. -/
theorem works_of_init (hc : kvCache.Sized) (hp : (uses ops m kvCache).Init p) :
    Works m kvCache.dims p := by
  obtain ⟨p₀, rfl, -⟩ := hp
  exact ⟨rfl, kvCache, rfl, hc, rfl⟩

/-- The state in which a call begins. -/
theorem heard_of_start {s : ForwardState α} (hs : Inside m d s) (hreports : s.reports = []) :
    Heard m d [] s := by
  refine ⟨hs, fun _ ok hok => ?_, fun _ => List.nil_subset _⟩
  rw [hreports] at hok
  cases hok

/-- All reachable objects work on the model, over a cache of the same dimensions. -/
theorem works_of_reachable (hm : m.loaded = true)
    (hheads : (m.hparams.nHeads * m.hparams.nHeadDim).toNat =
      m.hparams.nHeads.toNat * m.hparams.nHeadDim.toNat) (hlayers : 0 < m.hparams.nLayers.toNat)
    (hc : kvCache.Sized) (hp : (uses ops m kvCache).Reachable TransitionSystem.anyCall p) :
    Works m kvCache.dims p := by
  refine hp.invariant (fun _ => works_of_init hc) fun p use q hp _ hstep => ?_
  cases use with
  | forward tokenId pos logits =>
    obtain ⟨ok, logits', hforward⟩ := hstep
    have hpositive : kvCache.dims.Positive := ⟨hc.layers, hc.heads, hc.seq, hc.dim⟩
    obtain ⟨-, hnone⟩ | ⟨ok', s, q', hforward', -, hmodel, hcache, hs⟩ :=
      forward_cases hm hp (fun _ => heard_of_start)
        (heard_pass ops hpositive hheads hlayers tokenId pos) logits
    · rw [hnone] at hforward
      cases hforward
    · cases hforward.symm.trans hforward'
      refine ⟨hmodel, s.kvCache, hcache, ?_⟩
      cases ok with
      | true => exact ⟨hs.1.fits.cache, hs.1.fits.dims⟩
      | false => exact ⟨hs.cache, hs.dims⟩
  | reset =>
    obtain rfl := hstep
    exact hp.mapCache fun c hc => ⟨sized_reset ops.zero hc, rfl⟩
  | advanceSeq =>
    obtain rfl := hstep
    exact hp.mapCache fun c hc => sized_advanceSeq hc

/-- A pass that is never defined is not in bounds. -/
theorem not_inBounds_of_undefined (hm : Suits m kvCache.dims) (hc : kvCache.Sized)
    (h : Meets True (Inside m kvCache.dims) (pass ops m tokenId pos) (fun _ _ => False)
      fun _ => False) : ¬InBounds ops m kvCache := by
  intro hbounds
  -- a fresh object
  have hinit : (uses ops m kvCache).Init (({} : HydroXLForwardPass α).attach m kvCache) :=
    ⟨{}, rfl, fun _ _ => rfl⟩
  obtain ⟨ok, logits', q, hforward, -⟩ := hbounds.forward _ (.init hinit) tokenId pos []
  rw [forward_eq_none hm.loaded (works_of_init hc hinit) h] at hforward
  cases hforward

end HydroXLForwardPass

/-! ## The hyper-parameters -/

namespace HydroXLKVCache

/-- An allocated cache has the sizes of its dimensions. -/
theorem sized_of_callAllocate {zero : α} {outcome : AssignOutcome α} {c c' : HydroXLKVCache α}
    {d : KVDims} (h : c.callAllocate zero outcome d = (some true, c')) :
    c'.Sized ∧ c'.dims = d := by
  have hallocate := callAllocate_eq_true h
  refine ⟨sized_of_allocate hallocate, ?_⟩
  obtain ⟨-, -, -, -, rfl⟩ := allocate_eq_true hallocate
  rfl

end HydroXLKVCache

namespace HydroXLForwardPass

open HydroXLModel OneRun

variable {ops : TensorOps α δ} {path : Bytes} {content : FileContent} {gguf : GGUFLoader}
  {hp : Qwen2HParams α} {m : HydroXLModel α} {kvCache : HydroXLKVCache α}

/-- The 32-bit size of a key vector. -/
theorem toNat_kvSize : (hp.nKvHeads * hp.nHeadDim).toNat = hp.kvSize % 2 ^ 32 := UInt32.toNat_mul ..

variable (ops path content gguf hp m kvCache) in
/-- A loaded model with a cache of its dimensions. -/
structure Equipped (maxSeqLen : UInt32) : Prop where
  loads : Loads ops path content gguf hp
  content : LoadedOver ops gguf.tensorFile hp (fresh ops) m
  loaded : m.loaded = true
  sized : kvCache.Sized
  dims : kvCache.dims = ⟨hp.nLayers, hp.nKvHeads, maxSeqLen, hp.nHeadDim⟩

namespace Equipped

variable {maxSeqLen : UInt32}

theorem suits (h : Equipped ops path content gguf hp m kvCache maxSeqLen) :
    Suits m kvCache.dims := by
  have hpositive : kvCache.dims.Positive :=
    ⟨h.sized.layers, h.sized.heads, h.sized.seq, h.sized.dim⟩
  refine suits_of_load h.loads h.content h.loaded hpositive ?_ ?_ ?_ <;> rw [h.dims]

/-- The width of the cache is the model's. -/
theorem width (h : Equipped ops path content gguf hp m kvCache maxSeqLen) :
    kvCache.dims.width = hp.kvSize := by
  rw [h.dims]
  rfl

theorem nHeadDim_pos (h : Equipped ops path content gguf hp m kvCache maxSeqLen) :
    0 < hp.nHeadDim.toNat := by
  have hpos := pos_of_ne_zero h.suits.positive.2.2.2
  rwa [h.dims] at hpos

theorem kvSize_pos (h : Equipped ops path content gguf hp m kvCache maxSeqLen) : 0 < hp.kvSize :=
  Nat.mul_pos (valid_of_hparamsOf h.loads.hparams).nKvHeads h.nHeadDim_pos

/-- The width of a loaded model is below 2^31. -/
theorem nEmbd_lt (h : Equipped ops path content gguf hp m kvCache maxSeqLen) :
    hp.nEmbd.toNat < 2 ^ 31 := by
  rw [← h.content.hparams]
  exact h.suits.nEmbd_lt

/-- The size of a projection is below 2^64, if keys fit 32 bits. -/
theorem product_lt (h : Equipped ops path content gguf hp m kvCache maxSeqLen)
    (hlt : hp.kvSize < 2 ^ 32) : hp.kvSize * hp.nEmbd.toNat < 2 ^ 64 :=
  (Nat.mul_lt_mul'' hlt h.nEmbd_lt).trans (by decide)

/-- The weights of the keys suit, if keys fit 32 bits. -/
theorem kvSuit (h : Equipped ops path content gguf hp m kvCache maxSeqLen)
    (hlt : hp.kvSize < 2 ^ 32) : KvSuit m :=
  kvSuit_of_load h.loads h.content h.kvSize_pos (h.product_lt hlt)

/-- Passes that stay in the buffers, and the weights. -/
theorem inBounds_of_meets (h : Equipped ops path content gguf hp m kvCache maxSeqLen)
    (hproduct : hp.kvSize * hp.nEmbd.toNat < 2 ^ 64)
    (hpass : ∀ tokenId pos, Meets False (Inside m kvCache.dims) (pass ops m tokenId pos)
      (fun _ s => Inside m kvCache.dims s ∧
        (¬tokenId ≥ m.hparams.vocabSize ∧ pos < kvCache.dims.maxSeqLen))
      (Inside m kvCache.dims)) : InBounds ops m kvCache := by
  refine ⟨(weights_iff h.loads h.content h.nHeadDim_pos).mpr hproduct,
    fun p hp tokenId pos logits => ?_⟩
  have hworks := works_of_reachable h.loaded h.suits.heads (nLayers_pos h.suits) h.sized hp
  obtain ⟨ok, logits', q, hforward, hok⟩ :=
    exists_forward h.loaded hworks (hpass tokenId pos) logits
  refine ⟨ok, logits', q, hforward, fun hreject => Bool.eq_false_of_not_eq_true fun htrue => ?_⟩
  obtain ⟨htoken, hpos⟩ := hok htrue
  obtain hge | hge := hreject
  · exact htoken hge
  · exact UInt32.not_le.mpr hpos hge

/-- Key vectors of fewer than 2^32 elements. -/
theorem inBounds_of_lt (h : Equipped ops path content gguf hp m kvCache maxSeqLen)
    (hlt : hp.kvSize < 2 ^ 32)
    (hff : hp.nFf.toNat < 2 ^ 32 - 4 ∨ hp.nHeads % hp.nKvHeads ≠ 0) : InBounds ops m kvCache := by
  refine h.inBounds_of_meets (h.product_lt hlt) fun tokenId pos => ?_
  rw [← h.content.hparams] at hff
  exact meets_pass ops h.suits (h.kvSuit hlt) (serves_of_dims h.suits (h.width ▸ hlt) pos) hff
    fun _ _ hs => hs

/-- No key vectors. -/
theorem inBounds_of_dvd (h : Equipped ops path content gguf hp m kvCache maxSeqLen)
    (hdvd : 2 ^ 32 ∣ hp.kvSize) (hproduct : hp.kvSize * hp.nEmbd.toNat < 2 ^ 64) :
    InBounds ops m kvCache := by
  have hzero : m.hparams.nKvHeads * m.hparams.nHeadDim = 0 := by
    rw [h.content.hparams, ← UInt32.toNat_inj, toNat_kvSize, Nat.mod_eq_zero_of_dvd hdvd]
    rfl
  refine h.inBounds_of_meets hproduct fun tokenId pos => ?_
  exact (meets_pass_of_null ops h.suits (kvSuit_of_null hzero) hzero tokenId pos).weaken
    fun _ _ hfalse => hfalse.elim

/-- A token in the vocabulary. -/
theorem token_zero (h : Equipped ops path content gguf hp m kvCache maxSeqLen) :
    ¬(0 : UInt32) ≥ m.hparams.vocabSize :=
  fun hge => h.suits.vocabSize (UInt32.le_zero_iff.mp hge)

/-- Columns that `matvec` cannot count. -/
theorem not_inBounds_of_ff (h : Equipped ops path content gguf hp m kvCache maxSeqLen)
    (hlt : hp.kvSize < 2 ^ 32) (hff : 2 ^ 32 - 4 ≤ hp.nFf.toNat)
    (hmod : hp.nHeads % hp.nKvHeads = 0) : ¬InBounds ops m kvCache := by
  have hpos : (0 : UInt32) < kvCache.dims.maxSeqLen := UInt32.pos_iff_ne_zero.mpr h.sized.seq
  rw [← h.content.hparams] at hff hmod
  exact not_inBounds_of_undefined h.suits h.sized
    (pass_undefined_of_ff ops h.suits (h.kvSuit hlt) (h.width ▸ hlt) hff hmod h.token_zero hpos)

/-- Key vectors that are too short for the cache. -/
theorem not_inBounds_of_short (h : Equipped ops path content gguf hp m kvCache maxSeqLen)
    (hge : 2 ^ 32 ≤ hp.kvSize) (hdvd : ¬2 ^ 32 ∣ hp.kvSize) : ¬InBounds ops m kvCache := by
  have hsize : (m.hparams.nKvHeads * m.hparams.nHeadDim).toNat = hp.kvSize % 2 ^ 32 := by
    rw [h.content.hparams, toNat_kvSize]
  have hne : m.hparams.nKvHeads * m.hparams.nHeadDim ≠ 0 := by
    intro hzero
    rw [hzero] at hsize
    exact hdvd (Nat.dvd_of_mod_eq_zero hsize.symm)
  have hshort : (m.hparams.nKvHeads * m.hparams.nHeadDim).toNat < kvCache.dims.width := by
    rw [hsize, h.width]
    exact (Nat.mod_lt _ (by decide)).trans_le hge
  -- the last position
  have hseq := pos_of_ne_zero h.sized.seq
  have hone : (1 : UInt32) ≤ kvCache.maxSeqLen := UInt32.le_iff_toNat_le.mpr hseq
  have hlast : (kvCache.maxSeqLen - 1).toNat + 1 = kvCache.maxSeqLen.toNat := by
    rw [UInt32.toNat_sub_of_le _ _ hone]
    exact Nat.sub_add_cancel hseq
  exact not_inBounds_of_undefined h.suits h.sized
    (pass_undefined_of_short ops h.suits hne hshort h.token_zero hlast)

/-- **Nothing is indexed out of bounds** exactly when the indexes fit. -/
theorem inBounds_iff (h : Equipped ops path content gguf hp m kvCache maxSeqLen) :
    InBounds ops m kvCache ↔ hp.IndexesFit := by
  constructor
  · intro hbounds
    have hproduct := (weights_iff h.loads h.content h.nHeadDim_pos).mp hbounds.weights
    by_cases hlt : hp.kvSize < 2 ^ 32
    · refine .inl ⟨hlt, ?_⟩
      by_contra hff
      obtain ⟨hff, hmod⟩ := not_or.mp hff
      exact h.not_inBounds_of_ff hlt (Nat.not_lt.mp hff) (not_not.mp hmod) hbounds
    · refine .inr ⟨?_, hproduct⟩
      by_contra hdvd
      exact h.not_inBounds_of_short (Nat.not_lt.mp hlt) hdvd hbounds
  · rintro (⟨hlt, hff⟩ | ⟨hdvd, hproduct⟩)
    · exact h.inBounds_of_lt hlt hff
    · exact h.inBounds_of_dvd hdvd hproduct

end Equipped

/-- What a load and an allocation with the dimensions of the model prepare. -/
theorem equipped_of_load {threads : Threads} {c : HydroXLKVCache α} {outcome : AssignOutcome α}
    {maxSeqLen : UInt32} (hloads : Loads ops path content gguf hp)
    (hload : load ops threads path (.file content) (fresh ops) = (.loaded, m))
    (halloc : c.callAllocate ops.zero outcome
      ⟨m.hparams.nLayers, m.hparams.nKvHeads, maxSeqLen, m.hparams.nHeadDim⟩ =
        (some true, kvCache)) :
    Equipped ops path content gguf hp m kvCache maxSeqLen := by
  have hover := loadedOver_of_load hloads hload
  obtain ⟨hsized, hdims⟩ := HydroXLKVCache.sized_of_callAllocate halloc
  rw [hover.hparams] at hdims
  exact ⟨hloads, hover, loaded_of_load hload, hsized, hdims⟩

end HydroXLForwardPass

/-! ## Files -/

namespace HydroXLModel

variable {ops : TensorOps α δ}

/-- **A loaded model is not indexed out of bounds** exactly when the metadata of the file has
indexes that fit, or there is no cache for it. -/
theorem loadedInBounds_iff (path : Bytes) (content : FileContent) (maxSeqLen : UInt32) :
    LoadedInBounds ops path content maxSeqLen ↔ ∀ gguf hp, Loads ops path content gguf hp →
      (∃ c outcome, (HydroXLKVCache.callAllocate ops.zero outcome c
        ⟨hp.nLayers, hp.nKvHeads, maxSeqLen, hp.nHeadDim⟩).1 = some true) → hp.IndexesFit := by
  constructor
  · rintro hbounds gguf hp hloads ⟨c, outcome, halloc⟩
    obtain ⟨m, hload, hover⟩ := hloads.load {} (fresh ops)
    rw [← hover.hparams] at halloc
    have hequipped := HydroXLForwardPass.equipped_of_load hloads hload (Prod.ext halloc rfl)
    exact hequipped.inBounds_iff.mp (hbounds _ m c outcome _ hload (Prod.ext halloc rfl))
  · intro hfit threads m c outcome kvCache hload halloc
    obtain ⟨gguf, hp, hloads⟩ := loads_of_load hload
    have hequipped := HydroXLForwardPass.equipped_of_load hloads hload halloc
    refine hequipped.inBounds_iff.mpr (hfit gguf hp hloads ⟨c, outcome, ?_⟩)
    rw [hequipped.content.hparams] at halloc
    exact congrArg Prod.fst halloc

/-! ## A wide feed-forward network -/

/-- A small tensor has as many elements as its dimension says. -/
theorem count_smallTensor (slot : Slot) (n : UInt64) : (smallTensor slot [n]).count = n.toNat :=
  Nat.mul_one _

theorem smallTensor_inLimits {slot : Slot} {n : UInt64} (hname : slot.name.length ≤ 2 ^ 20)
    (hpos : 1 ≤ n.toNat) (hle : n.toNat ≤ 2 ^ 32) : (smallTensor slot [n]).InLimits := by
  refine ⟨hname, ⟨Nat.le_refl 1, Nat.le_of_ble_eq_true rfl⟩, ?_, ?_, fun _ => ?_, fun h => ?_⟩
  · exact List.forall_mem_singleton.mpr ⟨hpos, hle⟩
  · rw [count_smallTensor]
    exact UInt64.toNat_lt n
  · rw [count_smallTensor]
    omega
  · have hne : GGMLType.f32 ≠ GGMLType.f16 := by decide
    exact absurd h hne

/-- The elements of a small tensor have four bytes. -/
theorem nBytes_smallTensor (slot : Slot) (n : UInt64) :
    (GGUFLoader.descOf (smallTensor slot [n])).nBytes = n * 4 := by
  change UInt64.ofNat (smallTensor slot [n]).count * 4 = n * 4
  rw [count_smallTensor, UInt64.ofNat_toNat]

/-- Data begin at most 31 bytes behind the description. -/
theorem dataStart_le (c : GGUFContent) : c.dataStart 32 ≤ c.encode.length + 31 :=
  Nat.div_mul_le_self _ _

/-- The hyper-parameters of a model whose feed-forward network has 2^32 - 4 columns. -/
def wideHParams : Qwen2HParams ℚ where
  vocabSize := 1
  nEmbd := 1
  nHeads := 1
  nKvHeads := 1
  nLayers := 1
  nFf := 4294967292
  nCtxMax := 32768
  rmsNormEps := 1 / 1000000
  ropeFreqBase := 1000000
  nHeadDim := 1

/-- The required tensors, in the sizes that are asked for. -/
def wideContent : GGUFContent where
  version := 3
  entries := smallEntries ++
    [{ key := ofString "qwen2.feed_forward_length", data := .uint32 4294967292 }]
  tensors := ((Slot.used 1).filter fun slot => !slot.optional).map fun slot =>
    smallTensor slot [slot.expected wideHParams]

theorem length_encode_wideContent : wideContent.encode.length ≤ 2 ^ 12 := by decide +kernel

/-- The data section of the file is all zero. -/
def wideFile : FileContent where
  bytes := wideContent.encode ++ List.replicate (2 ^ 35) 0
  length_lt := by
    have hlength := length_encode_wideContent
    rw [List.length_append, List.length_replicate]
    omega

theorem length_wideFile : wideFile.bytes.length = wideContent.encode.length + 2 ^ 35 := by
  rw [wideFile, List.length_append, List.length_replicate]

theorem wideContent_inLimits : wideContent.InLimits := by
  refine ⟨.inr rfl, by decide, by decide, fun e he => ?_, fun t ht => ?_⟩
  · obtain hsmall | hlast := List.mem_append.mp he
    · obtain ⟨key, hkey, rfl⟩ := List.mem_map.mp hsmall
      have hkeys : ∀ key ∈ ["llm.vocab_size", "qwen2.embedding_length",
          "qwen2.attention.head_count", "qwen2.attention.head_count_kv", "qwen2.block_count",
          "qwen2.feed_forward_length"], (ofString key).length ≤ 2 ^ 20 := by decide
      exact ⟨hkeys key hkey, trivial⟩
    · obtain rfl := List.mem_singleton.mp hlast
      exact ⟨by decide, trivial⟩
  · obtain ⟨slot, hslot, rfl⟩ := List.mem_map.mp ht
    have hslots : ∀ slot ∈ (Slot.used 1).filter fun slot => !slot.optional,
        slot.name.length ≤ 2 ^ 20 ∧ 1 ≤ (slot.expected wideHParams).toNat ∧
          (slot.expected wideHParams).toNat ≤ 2 ^ 32 := by decide +kernel
    obtain ⟨hname, hpos, hle⟩ := hslots slot hslot
    exact smallTensor_inLimits hname hpos hle

/-- The hyperparameters depend on the metadata only. -/
theorem hparamsOf_eq (ops : TensorOps α δ) (gguf : GGUFLoader) :
    hparamsOf ops gguf = hparamsOf ops { kv := gguf.kv } := rfl

theorem open_wideFile : ∃ gguf : GGUFLoader, GGUFLoader.open {} [] (some wideFile) = (true, gguf) ∧
    gguf.kv = wideContent.metadata ∧
    gguf.tensorFile.tensors = wideContent.tensors.map GGUFLoader.descOf ∧
    gguf.tensorFile.dataOffset = wideContent.dataStart 32 ∧
    gguf.tensorFile.bytes = wideFile.bytes := by
  have halign : wideContent.HasAlignment 32 := .inl ⟨by decide +kernel, rfl⟩
  have hprefix : wideContent.encode <+: wideFile.bytes := List.prefix_append _ _
  have hstart := dataStart_le wideContent
  have hlength := length_wideFile
  obtain ⟨hoffset, hopen⟩ := GGUFLoader.open_of_prefix wideContent_inLimits halign [] hprefix
    fun _ => by omega
  exact ⟨_, hopen, rfl, rfl, hoffset, rfl⟩

/-- The optional tensors are not there. -/
theorem admits_wide_of_optional {f : TensorFile} {slot : Slot} (hslot : slot ∈ Slot.used 1)
    (hf : f.tensors = wideContent.tensors.map GGUFLoader.descOf)
    (hoptional : slot.optional = true) :
    f.Admits rationalOps wideHParams slot := by
  have hmissing : ∀ slot ∈ Slot.used 1, slot.optional = true →
      (wideContent.tensors.map GGUFLoader.descOf).find? (fun t => t.name = slot.name) = none := by
    decide +kernel
  refine .inr ⟨hoptional, ?_⟩
  rw [outcome_of_find_eq_none]
  · rfl
  · rw [TensorFile.find, hf]
    exact hmissing slot hslot hoptional

/-- The required tensors are in the data section. -/
theorem admits_wide_of_required {f : TensorFile} {slot : Slot} (hslot : slot ∈ Slot.used 1)
    (hlimits : f.InLimits) (hf : f.tensors = wideContent.tensors.map GGUFLoader.descOf)
    (hdata : f.dataOffset + 2 ^ 34 ≤ f.bytes.length) (hrequired : slot.optional = false) :
    f.Admits rationalOps wideHParams slot := by
  have hthere : ∀ slot ∈ Slot.used 1, slot.optional = false →
      (wideContent.tensors.map GGUFLoader.descOf).find? (fun t => t.name = slot.name) =
          some (GGUFLoader.descOf (smallTensor slot [slot.expected wideHParams])) ∧
        (slot.expected wideHParams).toNat ≤ 2 ^ 32 ∧
        0 < (slot.expected wideHParams * 4).toNat ∧
        (slot.expected wideHParams * 4).toNat ≤ 2 ^ 34 := by decide +kernel
  obtain ⟨hfind, hle, hpos, hbytes⟩ := hthere slot hslot hrequired
  have hholds : f.Holds (GGUFLoader.descOf (smallTensor slot [slot.expected wideHParams])) := by
    rw [TensorFile.Holds, nBytes_smallTensor]
    refine ⟨hpos, ?_⟩
    change f.dataOffset + 0 + _ ≤ f.bytes.length
    omega
  have hvolume : volume (smallTensor slot [slot.expected wideHParams]).shape =
      (slot.expected wideHParams).toNat := count_smallTensor ..
  have hloaded : ∃ v, f.outcome rationalOps wideHParams slot = .loaded v := by
    refine ⟨_, (outcome_eq_loaded_iff hlimits).mpr ⟨_, ?_, .inr hvolume, ?_, if_pos hholds⟩⟩
    · rw [TensorFile.find, hf]
      exact hfind
    · refine hvolume.trans_le (hle.trans ?_)
      rw [toNat_maxElems]
      decide
  obtain ⟨v, hv⟩ := hloaded
  rw [TensorFile.Admits, hv]
  exact .inl rfl

/-- The wide model is loaded. -/
theorem exists_loads_wideFile :
    ∃ gguf, Loads rationalOps [] wideFile gguf wideHParams := by
  obtain ⟨gguf, hopen, hkv, htensors, hoffset, hbytes⟩ := open_wideFile
  have hlimits : gguf.tensorFile.InLimits := (GGUFLoader.opened_of_open hopen).tensors
  have hdata : gguf.tensorFile.dataOffset + 2 ^ 34 ≤ gguf.tensorFile.bytes.length := by
    have hstart := dataStart_le wideContent
    have hlength := length_wideFile
    rw [← hoffset] at hstart
    rw [← hbytes] at hlength
    omega
  refine ⟨gguf, hopen, ?_, fun slot hslot => ?_⟩
  · have hmetadata : hparamsOf rationalOps ({ kv := wideContent.metadata } : GGUFLoader) =
        some wideHParams := by decide +kernel
    rw [hparamsOf_eq, hkv]
    exact hmetadata
  · cases hoptional : slot.optional with
    | true => exact admits_wide_of_optional hslot htensors hoptional
    | false => exact admits_wide_of_required hslot hlimits htensors hdata hoptional

/-- The rows of the last projection have more columns than `matvec` can count. -/
theorem not_loadedInBounds : ¬∀ (path : Bytes) (content : FileContent) (maxSeqLen : UInt32),
    LoadedInBounds rationalOps path content maxSeqLen := by
  intro h
  obtain ⟨gguf, hloads⟩ := exists_loads_wideFile
  obtain ⟨m, hload, hover⟩ := hloads.load {} (fresh rationalOps)
  obtain ⟨kvCache, halloc⟩ : ∃ kvCache, HydroXLKVCache.callAllocate rationalOps.zero .granted {}
      ⟨m.hparams.nLayers, m.hparams.nKvHeads, 1, m.hparams.nHeadDim⟩ = (some true, kvCache) := by
    rw [hover.hparams]
    exact ⟨_, rfl⟩
  have hequipped := HydroXLForwardPass.equipped_of_load hloads hload halloc
  refine hequipped.not_inBounds_of_ff (by decide) (by decide) (by decide) ?_
  exact h [] wideFile 1 {} m {} .granted kvCache hload halloc

end HydroXLModel

end HeteroAccel
