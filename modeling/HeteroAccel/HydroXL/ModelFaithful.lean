import HeteroAccel.HydroXL.ModelLoad

/-!
# Is the model that of the file?

What a successful load into a fresh object should mean: every tensor of the file that the model uses
is held, and one that cannot be held makes the load fail. The loader means it for the tensors that
it requires. It ignores why an optional one is not loaded, and its check of a size is skipped when
the size, computed in 64 bits, is zero.

## Main results

* `loadFaithful_iff`: a load is faithful exactly when the optional tensors of the file are sound and
  the sizes can be computed.
-/

namespace HeteroAccel

open Bytes (ofString)

variable {α δ : Type}

/-! ## The sizes of the tensors -/

/-- The number of elements that a tensor of a layer has in the model. -/
def LayerTensor.size (hp : Qwen2HParams α) : LayerTensor → ℕ
  | attnNorm | ffnNorm => hp.nEmbd.toNat
  | attnQ => hp.nHeads.toNat * hp.nHeadDim.toNat * hp.nEmbd.toNat
  | attnK | attnV => hp.nKvHeads.toNat * hp.nHeadDim.toNat * hp.nEmbd.toNat
  | attnOut => hp.nEmbd.toNat * hp.nHeads.toNat * hp.nHeadDim.toNat
  | attnQBias => hp.nHeads.toNat * hp.nHeadDim.toNat
  | attnKBias | attnVBias => hp.nKvHeads.toNat * hp.nHeadDim.toNat
  | ffnGate | ffnUp => hp.nFf.toNat * hp.nEmbd.toNat
  | ffnDown => hp.nEmbd.toNat * hp.nFf.toNat

/-- How many elements the tensor of a slot has. -/
def Slot.size (hp : Qwen2HParams α) : Slot → ℕ
  | tokEmbd | lmHead => hp.vocabSize.toNat * hp.nEmbd.toNat
  | outputNorm => hp.nEmbd.toNat
  | layer _ t => t.size hp

namespace Qwen2HParams

variable (hp : Qwen2HParams α)

/-- A head has elements, and the sizes of the key and value projections fit in 64 bits. -/
def SizesFit : Prop :=
  0 < hp.nHeadDim.toNat ∧ hp.nKvHeads.toNat * hp.nHeadDim.toNat * hp.nEmbd.toNat < 2 ^ 64

/-- What the loader has checked of hyper-parameters. -/
structure Valid : Prop where
  vocabSize : 0 < hp.vocabSize.toNat
  nEmbd : 0 < hp.nEmbd.toNat
  nHeads : 0 < hp.nHeads.toNat
  nKvHeads : 0 < hp.nKvHeads.toNat
  nLayers : 0 < hp.nLayers.toNat
  nFf : 0 < hp.nFf.toNat
  nHeadDim : hp.nHeadDim.toNat = hp.nEmbd.toNat / hp.nHeads.toNat

end Qwen2HParams

section Sizes

variable {hp : Qwen2HParams α}

variable (hp) in
/-- The loader asks for the sizes modulo 2^64. -/
theorem toNat_expected_eq_mod (slot : Slot) :
    (slot.expected hp).toNat = slot.size hp % 2 ^ 64 := by
  have hone : ∀ a : UInt32, a.toUInt64.toNat = a.toNat % 2 ^ 64 := fun a => by
    rw [UInt32.toNat_toUInt64, Nat.mod_eq_of_lt (a.toNat_lt.trans (by decide))]
  have htwo : ∀ a b : UInt32, (a.toUInt64 * b.toUInt64).toNat = a.toNat * b.toNat % 2 ^ 64 :=
    fun a b => by
      rw [UInt64.toNat_mul, UInt32.toNat_toUInt64, UInt32.toNat_toUInt64]
  have hthree : ∀ a b c : UInt32, (a.toUInt64 * b.toUInt64 * c.toUInt64).toNat =
      a.toNat * b.toNat * c.toNat % 2 ^ 64 := fun a b c => by
    rw [UInt64.toNat_mul, htwo, UInt32.toNat_toUInt64, Nat.mod_mul_mod]
  cases slot with
  | outputNorm => exact hone _
  | layer l t =>
    cases t with
    | attnNorm => exact hone _
    | ffnNorm => exact hone _
    | attnQ => exact hthree ..
    | attnK => exact hthree ..
    | attnV => exact hthree ..
    | attnOut => exact hthree ..
    | _ => exact htwo ..
  | _ => exact htwo ..

/-- The sizes fit in 64 bits, those of the key and value projections apart. -/
theorem size_lt (hvalid : hp.Valid) {slot : Slot}
    (hkv : ∀ l, slot = .layer l .attnK ∨ slot = .layer l .attnV →
      hp.nKvHeads.toNat * hp.nHeadDim.toNat * hp.nEmbd.toNat < 2 ^ 64) :
    slot.size hp < 2 ^ 64 := by
  have hsquare : ∀ a b : UInt32, a.toNat * b.toNat < 2 ^ 64 := fun a b =>
    (Nat.mul_lt_mul'' a.toNat_lt b.toNat_lt).trans_eq (by decide)
  -- all heads together have no more elements than an embedding
  have hheads : hp.nHeads.toNat * hp.nHeadDim.toNat ≤ hp.nEmbd.toNat := by
    rw [hvalid.nHeadDim]
    exact Nat.mul_div_le ..
  have hembd : hp.nEmbd.toNat < 2 ^ 64 := hp.nEmbd.toNat_lt.trans (by decide)
  cases slot with
  | outputNorm => exact hembd
  | layer l t =>
    cases t with
    | attnNorm => exact hembd
    | ffnNorm => exact hembd
    | attnQ => exact (Nat.mul_le_mul_right _ hheads).trans_lt (hsquare _ _)
    | attnK => exact hkv l (.inl rfl)
    | attnV => exact hkv l (.inr rfl)
    | attnOut =>
      change hp.nEmbd.toNat * hp.nHeads.toNat * hp.nHeadDim.toNat < 2 ^ 64
      rw [Nat.mul_assoc]
      exact (Nat.mul_le_mul_left _ hheads).trans_lt (hsquare _ _)
    | _ => exact hsquare _ _
  | _ => exact hsquare _ _

/-- When the sizes fit, the loader asks for them. -/
theorem toNat_expected (hvalid : hp.Valid) (hfit : hp.SizesFit) (slot : Slot) :
    (slot.expected hp).toNat = slot.size hp := by
  rw [toNat_expected_eq_mod, Nat.mod_eq_of_lt (size_lt hvalid fun _ _ => hfit.2)]

theorem size_pos (hvalid : hp.Valid) (hdim : 0 < hp.nHeadDim.toNat) (slot : Slot) :
    0 < slot.size hp := by
  obtain ⟨hvocab, hembd, hheads, hkv, -, hff, -⟩ := hvalid
  cases slot with
  | layer l t => cases t <;> simp [Slot.size, LayerTensor.size, *]
  | _ => simp [Slot.size, *]

end Sizes

/-! ## Faithful loads -/

section Faithful

variable (ops : TensorOps α δ)

/-- A tensor of the file that can be held: it has the size that the model needs, no more elements
than a vector can have, and the file has its content. -/
structure TensorFile.Sound (f : TensorFile) (size : ℕ) (desc : GGUFTensorDesc) : Prop where
  volume : volume desc.shape = size
  le_maxElems : size ≤ HydroXLModel.maxElems.toNat
  content : ∃ v, f.content ops desc = some v

/-- The model `m` is that of the file `f`. -/
structure Faithful (f : TensorFile) (m : HydroXLModel α) : Prop where
  /-- Every tensor of the file that is used has the right size and is held. -/
  holds : ∀ slot ∈ Slot.used m.hparams.nLayers.toNat, ∀ desc, f.find slot.name = some desc →
    volume desc.shape = slot.size m.hparams ∧ f.content ops desc = some (m.tensor slot)
  /-- The output head is shared exactly when the file has none. -/
  tied : m.lmHeadTied = true ↔ f.find Slot.lmHead.name = none
  /-- A bias that is there was read from the file. -/
  biases : ∀ l < m.hparams.nLayers.toNat, ∀ t : LayerTensor, t.isBias = true →
    m.tensor (.layer l t) ≠ [] → ∃ desc, f.find (Slot.layer l t).name = some desc ∧
      f.content ops desc = some (m.tensor (.layer l t))

/-- If the file is loaded into a fresh object, the model is that of the file. -/
def LoadFaithful (threads : Threads) (path : Bytes) (content : FileContent) : Prop :=
  ∀ (m : HydroXLModel α) (gguf : GGUFLoader),
    HydroXLModel.load ops threads path (.file content) (HydroXLModel.fresh ops) = (.loaded, m) →
    GGUFLoader.open {} path (some content) = (true, gguf) → Faithful ops gguf.tensorFile m

end Faithful

namespace HydroXLModel

variable {ops : TensorOps α δ} {f : TensorFile} {hp : Qwen2HParams α} {slot : Slot}
  {m : HydroXLModel α} {gguf : GGUFLoader} {path : Bytes} {content : FileContent}

/-- Hyperparameters that are accepted are valid. -/
theorem valid_of_hparamsOf (h : hparamsOf ops gguf = some hp) : hp.Valid := by
  unfold hparamsOf at h
  dsimp only at h
  split_ifs at h with harch hinvalid
  cases h
  -- the fields are those that were checked, and the head dimension is computed
  simp only [Qwen2HParams.isValid, Bool.not_eq_true', Bool.not_eq_false, Bool.and_eq_true,
    decide_eq_true_eq, gt_iff_lt, UInt32.lt_iff_toNat_lt] at hinvalid
  obtain ⟨⟨⟨⟨⟨hvocab, hembd⟩, hheads⟩, hkv⟩, hlayers⟩, hff⟩ := hinvalid
  exact ⟨hvocab, hembd, hheads, hkv, hlayers, hff, UInt32.toNat_div ..⟩

/-- A tensor that breaks the load has no content. -/
theorem content_eq_none_of_broken {desc : GGUFTensorDesc} (hfind : f.find slot.name = some desc)
    {n : ℕ} (h : f.outcome ops hp slot = .broken n) : f.content ops desc = none := by
  unfold TensorFile.outcome at h
  rw [hfind] at h
  dsimp only at h
  split at h
  next => cases h
  next =>
    split_ifs at h
    split at h
    next => cases h
    next hcontent => exact hcontent

/-- A slot without a tensor stays untouched. -/
theorem outcome_of_find_eq_none (hfind : f.find slot.name = none) :
    f.outcome ops hp slot = .untouched := by
  unfold TensorFile.outcome
  rw [hfind]

/-- A bias or an LM head that is not loaded leaves a fresh object without it, or with elements that
the file has no content for. -/
theorem content_eq_none_of_failed {desc : GGUFTensorDesc}
    (hfind : f.find slot.name = some desc) (hfailed : (f.outcome ops hp slot).status = .failed) :
    f.stored ops hp slot [] = [] ∨ f.content ops desc = none := by
  by_cases hlm : slot = .lmHead
  · exact .inl (if_pos ⟨hlm, hfailed⟩)
  · rw [TensorFile.stored, if_neg fun h => hlm h.1]
    cases houtcome : f.outcome ops hp slot with
    | untouched => exact .inl rfl
    | broken n => exact .inr (content_eq_none_of_broken hfind houtcome)
    | _ =>
      rw [houtcome] at hfailed
      cases hfailed

/-- A sound tensor that does not stop the load is loaded. -/
theorem outcome_of_sound (hf : f.InLimits) (hvalid : hp.Valid) (hfit : hp.SizesFit)
    {desc : GGUFTensorDesc} (hfind : f.find slot.name = some desc)
    (hsound : f.Sound ops (slot.size hp) desc) :
    ∃ v, f.outcome ops hp slot = .loaded v ∧ f.content ops desc = some v := by
  obtain ⟨hsize, hle, v, hcontent⟩ := hsound
  refine ⟨v, (outcome_eq_loaded_iff hf).mpr ⟨desc, hfind, .inr ?_, ?_, hcontent⟩, hcontent⟩
  · rw [hsize, toNat_expected hvalid hfit]
  · rwa [hsize]

/-- A tensor that is loaded is sound, when the sizes fit. -/
theorem sound_of_outcome (hf : f.InLimits) (hvalid : hp.Valid) (hfit : hp.SizesFit)
    {desc : GGUFTensorDesc} (hfind : f.find slot.name = some desc) {v : List α}
    (h : f.outcome ops hp slot = .loaded v) :
    f.Sound ops (slot.size hp) desc ∧ f.content ops desc = some v := by
  obtain ⟨desc', hfind', hsize, hle, hcontent⟩ := (outcome_eq_loaded_iff hf).mp h
  obtain rfl : desc' = desc := Option.some.inj (hfind'.symm.trans hfind)
  have hpos := size_pos hvalid hfit.1 slot
  rw [← toNat_expected hvalid hfit] at hpos ⊢
  have hvolume : volume desc'.shape = (slot.expected hp).toNat := by
    refine hsize.resolve_left fun hzero => ?_
    rw [hzero] at hpos
    exact absurd hpos (by decide)
  exact ⟨⟨hvolume, (Nat.le_of_eq hvolume.symm).trans hle, v, hcontent⟩, hcontent⟩

/-- Hyper-parameters with which a faithful model is loaded. -/
theorem sizesFit_of_faithful (hloads : Loads ops path content gguf hp)
    (hover : LoadedOver ops gguf.tensorFile hp (fresh ops) m) (h : Faithful ops gguf.tensorFile m) :
    hp.SizesFit := by
  have hvalid := valid_of_hparamsOf hloads.hparams
  have hf : gguf.tensorFile.InLimits := hloads.inLimits
  have hlayer : ∀ t : LayerTensor, Slot.layer 0 t ∈ Slot.used hp.nLayers.toNat := fun t =>
    Slot.layer_mem_used hvalid.nLayers t
  -- the sizes of the tensors that a layer must have
  have hsize : ∀ t : LayerTensor, t.isBias = false →
      1 ≤ (Slot.layer 0 t).size hp ∧ (Slot.layer 0 t).size hp < 2 ^ 64 := by
    intro t hbias
    obtain ⟨v, hv⟩ := (hloads.admits _ (hlayer t)).exists_loaded hbias
    obtain ⟨desc, hfind, -⟩ := (outcome_eq_loaded_iff hf).mp hv
    obtain ⟨hvolume, -⟩ := h.holds (.layer 0 t) (hover.hparams ▸ hlayer t) desc hfind
    rw [hover.hparams] at hvolume
    obtain ⟨tensor, ht, rfl⟩ := hf.exists_tensor hfind
    rw [← hvolume]
    exact ⟨GGUFLoader.volume_pos fun dim hdim => (ht.dims dim hdim).1, ht.count⟩
  constructor
  · refine Nat.pos_of_ne_zero fun hzero => ?_
    have hq := (hsize .attnQ rfl).1
    simp [Slot.size, LayerTensor.size, hzero] at hq
  · exact (hsize .attnK rfl).2

/-- **Faithful loads.** A load into a fresh object is faithful exactly when, if the required tensors
can be loaded, the sizes fit and the optional tensors that the file has are sound. -/
theorem loadFaithful_iff (threads : Threads) (path : Bytes) (content : FileContent) :
    LoadFaithful ops threads path content ↔ ∀ gguf hp, Loads ops path content gguf hp →
      hp.SizesFit ∧ ∀ slot ∈ Slot.used hp.nLayers.toNat, slot.optional = true →
        ∀ desc, gguf.tensorFile.find slot.name = some desc →
          gguf.tensorFile.Sound ops (slot.size hp) desc := by
  constructor
  · intro hfaithful gguf hp hloads
    obtain ⟨m, hm, hover⟩ := hloads.load threads (fresh ops)
    have h := hfaithful m gguf hm hloads.opens
    have hvalid := valid_of_hparamsOf hloads.hparams
    have hf : gguf.tensorFile.InLimits := hloads.inLimits
    have hfit := sizesFit_of_faithful hloads hover h
    refine ⟨hfit, fun slot hslot hoptional desc hfind => ?_⟩
    obtain ⟨-, hcontent⟩ := h.holds slot (hover.hparams ▸ hslot) desc hfind
    obtain hloaded | ⟨-, hfailed⟩ := hloads.admits slot hslot
    · obtain ⟨v, hv⟩ := TensorOutcome.exists_loaded hloaded
      exact (sound_of_outcome hf hvalid hfit hfind hv).1
    · -- a tensor that is not loaded is not held
      have htensor := hover.tensor slot hslot
      rw [tensor_fresh] at htensor
      obtain hnil | hnone := content_eq_none_of_failed hfind hfailed
      · exact absurd (htensor.trans hnil) (ne_nil_of_content hf hfind hcontent)
      · rw [hnone] at hcontent
        cases hcontent
  · intro hsound m gguf hm hopen
    obtain ⟨gguf', hp, hloads⟩ := loads_of_load hm
    obtain rfl : gguf' = gguf := congrArg Prod.snd (hloads.opens.symm.trans hopen)
    obtain ⟨m', hm', hover⟩ := hloads.load threads (fresh ops)
    obtain rfl : m' = m := congrArg Prod.snd (hm'.symm.trans hm)
    obtain ⟨hfit, hsound⟩ := hsound gguf' hp hloads
    have hvalid := valid_of_hparamsOf hloads.hparams
    have hf : gguf'.tensorFile.InLimits := hloads.inLimits
    -- every tensor of the file that is used is loaded
    have hloaded : ∀ slot ∈ Slot.used hp.nLayers.toNat, ∀ desc,
        gguf'.tensorFile.find slot.name = some desc →
        ∃ v, gguf'.tensorFile.outcome ops hp slot = .loaded v := fun slot hslot desc hfind => by
      cases hoptional : slot.optional with
      | false => exact (hloads.admits slot hslot).exists_loaded hoptional
      | true =>
        obtain ⟨v, hv, -⟩ :=
          outcome_of_sound hf hvalid hfit hfind (hsound slot hslot hoptional desc hfind)
        exact ⟨v, hv⟩
    have hholds : ∀ slot ∈ Slot.used hp.nLayers.toNat, ∀ desc,
        gguf'.tensorFile.find slot.name = some desc → volume desc.shape = slot.size hp ∧
          gguf'.tensorFile.content ops desc = some (m'.tensor slot) :=
      fun slot hslot desc hfind => by
        obtain ⟨v, hv⟩ := hloaded slot hslot desc hfind
        obtain ⟨hsoundv, hcontent⟩ := sound_of_outcome hf hvalid hfit hfind hv
        rw [hover.tensor slot hslot, TensorFile.stored_of_loaded hv]
        exact ⟨hsoundv.volume, hcontent⟩
    refine ⟨by rwa [hover.hparams], ?_, fun l hl t hbias hne => ?_⟩
    · rw [hover.tied, decide_eq_true_eq]
      cases hfind : gguf'.tensorFile.find Slot.lmHead.name with
      | none => simp [outcome_of_find_eq_none hfind, TensorOutcome.status]
      | some desc =>
        obtain ⟨v, hv⟩ := hloaded .lmHead (by simp [Slot.used]) desc hfind
        simp [hv, TensorOutcome.status]
    · have hmem : Slot.layer l t ∈ Slot.used hp.nLayers.toNat :=
        Slot.layer_mem_used (hover.hparams ▸ hl) t
      cases hfind : gguf'.tensorFile.find (Slot.layer l t).name with
      | none =>
        refine absurd ?_ hne
        rw [hover.tensor _ hmem, tensor_fresh, TensorFile.stored, outcome_of_find_eq_none hfind]
        exact if_neg fun h => by cases h.1
      | some desc => exact ⟨desc, rfl, (hholds _ hmem desc hfind).2⟩

/-! ## A head that is not looked at -/

/-- A model with an LM head of another size. -/
def wrongHead : FileContent where
  bytes := smallFile (smallTensors ++ [smallTensor .lmHead [2]])
  length_lt := by decide +kernel

/-- The model is loaded, with the embedding in the place of its LM head. -/
theorem not_loadFaithful : ¬∀ (threads : Threads) (path : Bytes) (content : FileContent),
    LoadFaithful rationalOps threads path content := by
  intro h
  specialize h {} [] wrongHead
  cases hload : load rationalOps {} [] (.file wrongHead) (fresh rationalOps) with
  | mk status m =>
    cases hopen : GGUFLoader.open {} [] (some wrongHead) with
    | mk done gguf =>
      obtain ⟨hstatus, htied, hdone, hfind⟩ : status = .loaded ∧ m.lmHeadTied = true ∧
          done = true ∧ gguf.tensorFile.find Slot.lmHead.name ≠ none := by
        rw [show status = (status, m).1 from rfl, show m = (status, m).2 from rfl,
          show done = (done, gguf).1 from rfl, show gguf = (done, gguf).2 from rfl,
            ← hload, ← hopen]
        decide +kernel
      subst hstatus hdone
      exact hfind ((h m gguf hload hopen).tied.mp htied)

end HydroXLModel

end HeteroAccel
