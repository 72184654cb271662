import HeteroAccel.HydroXL.ModelFaithful
import HeteroAccel.HydroXL.PassBounds

/-!
# The weights of a loaded model

How many elements the weights have that a load into a fresh object leaves. The loader compares the
elements of a tensor with a 64-bit product, and does not if that is zero. Only the sizes of the key
and value projections can wrap around.

## Main results

* `weights_iff`: the weights have the elements that their dimensions say;
* `suits_of_load`, `kvSuit_of_load`: they have those that a pass reads.
-/

namespace HeteroAccel

variable {α δ : Type}

namespace Slot

/-- A tensor that a model can do without. -/
def isBias : Slot → Bool
  | .layer _ t => t.isBias
  | _ => false

end Slot

/-- The weights that stand for a tensor of a model. -/
def HydroXLModel.weights (m : HydroXLModel α) : Slot → List α
  | .lmHead => m.lmHeadWeights
  | slot => m.tensor slot

/-- The elements of a key vector. -/
def Qwen2HParams.kvSize (hp : Qwen2HParams α) : ℕ := hp.nKvHeads.toNat * hp.nHeadDim.toNat

/-! ## The elements of the weights -/

/-- The operators read no more of a tensor than it has. -/
theorem LayerTensor.read_le_size (hp : Qwen2HParams α) (t : LayerTensor) :
    t.read hp ≤ t.size hp := by
  have hmul : ∀ a b : UInt32, (a * b).toNat ≤ a.toNat * b.toNat := fun a b => by
    rw [UInt32.toNat_mul]
    exact Nat.mod_le _ _
  cases t with
  | attnQ => exact Nat.mul_le_mul_right _ (hmul _ _)
  | attnK => exact Nat.mul_le_mul_right _ (hmul _ _)
  | attnV => exact Nat.mul_le_mul_right _ (hmul _ _)
  | attnOut => exact (Nat.mul_le_mul_left _ (hmul _ _)).trans_eq (Nat.mul_assoc ..).symm
  | attnQBias => exact hmul _ _
  | attnKBias => exact hmul _ _
  | attnVBias => exact hmul _ _
  | _ => exact Nat.le_refl _

namespace HydroXLModel

variable {ops : TensorOps α δ} {threads : Threads} {f : TensorFile} {hp : Qwen2HParams α}
  {slot : Slot} {m : HydroXLModel α} {gguf : GGUFLoader} {path : Bytes} {content : FileContent}

/-- The weights of a slot are its tensor, but for the head, which may be shared. -/
theorem weights_of_ne (h : slot ≠ .lmHead) : m.weights slot = m.tensor slot := by
  cases slot with
  | lmHead => exact absurd rfl h
  | _ => rfl

/-- A tensor that is loaded has the size that was asked for, modulo 2^64, unless that is zero. -/
theorem length_of_outcome (hf : f.InLimits) {v : List α} (h : f.outcome ops hp slot = .loaded v) :
    v.length ≤ maxElems.toNat ∧
      (slot.size hp % 2 ^ 64 = 0 ∨ v.length = slot.size hp % 2 ^ 64) := by
  obtain ⟨desc, -, hsize, hle, hcontent⟩ := (outcome_eq_loaded_iff hf).mp h
  rw [length_of_content hcontent, ← toNat_expected_eq_mod]
  refine ⟨hle, hsize.imp (fun hzero => ?_) id⟩
  rw [hzero]
  rfl

/-- So has one that cannot be decoded. -/
theorem length_of_broken (hf : f.InLimits) {n : ℕ} (h : f.outcome ops hp slot = .broken n) :
    slot.size hp % 2 ^ 64 = 0 ∨ n = slot.size hp % 2 ^ 64 := by
  unfold TensorFile.outcome at h
  split at h
  next => cases h
  next desc hfind =>
    obtain ⟨t, ht, rfl⟩ := hf.exists_tensor hfind
    split at h
    next => cases h
    next nElems hcheck =>
      split_ifs at h
      split at h
      next => cases h
      next =>
        cases h
        obtain ⟨hcount, hsize⟩ := checkDesc_ok ht hcheck
        rw [← toNat_expected_eq_mod]
        refine hsize.imp (fun hzero => ?_) fun hvolume => hcount.trans hvolume
        rw [hzero]
        rfl

/-- A loaded tensor has the elements of its description. -/
theorem length_tensor_of_loaded (hloads : Loads ops path content gguf hp)
    (hover : LoadedOver ops gguf.tensorFile hp (fresh ops) m)
    (hslot : slot ∈ Slot.used hp.nLayers.toNat)
    (hstatus : (gguf.tensorFile.outcome ops hp slot).status = .loaded) :
    (m.tensor slot).length ≤ maxElems.toNat ∧ (0 < slot.size hp → slot.size hp < 2 ^ 64 →
      (m.tensor slot).length = slot.size hp) := by
  obtain ⟨v, hv⟩ := TensorOutcome.exists_loaded hstatus
  rw [hover.tensor slot hslot, TensorFile.stored_of_loaded hv]
  obtain ⟨hle, hsize⟩ := length_of_outcome hloads.inLimits hv
  refine ⟨hle, fun hpos hlt => ?_⟩
  rw [Nat.mod_eq_of_lt hlt] at hsize
  exact hsize.resolve_left hpos.ne'

/-- The weights for a tensor that a model cannot do without. -/
theorem length_weights (hloads : Loads ops path content gguf hp)
    (hover : LoadedOver ops gguf.tensorFile hp (fresh ops) m)
    (hslot : slot ∈ Slot.used hp.nLayers.toNat) (hbias : slot.isBias = false) :
    (m.weights slot).length ≤ maxElems.toNat ∧ (0 < slot.size hp → slot.size hp < 2 ^ 64 →
      (m.weights slot).length = slot.size hp) := by
  have hrequired : ∀ slot ∈ Slot.used hp.nLayers.toNat, slot.optional = false →
      (gguf.tensorFile.outcome ops hp slot).status = .loaded := fun slot hslot hoptional =>
    (hloads.admits slot hslot).resolve_right fun h => by
      rw [hoptional] at h
      cases h.1
  by_cases hlm : slot = .lmHead
  · subst hlm
    have htied : m.weights .lmHead = if m.lmHeadTied then m.tokEmbd else m.lmHead := rfl
    rw [htied, hover.tied]
    obtain hloaded | ⟨-, hfailed⟩ := hloads.admits .lmHead hslot
    · rw [if_neg (by simp [hloaded])]
      exact length_tensor_of_loaded hloads hover hslot hloaded
    · -- the embedding has the size of the LM head
      rw [if_pos (by simp [hfailed])]
      have hembd : Slot.tokEmbd ∈ Slot.used hp.nLayers.toNat := by simp [Slot.used]
      exact length_tensor_of_loaded hloads hover hembd (hrequired _ hembd rfl)
  · rw [weights_of_ne hlm]
    refine length_tensor_of_loaded hloads hover hslot (hrequired slot hslot ?_)
    cases slot with
    | lmHead => exact absurd rfl hlm
    | layer l t => exact hbias
    | _ => rfl

/-- A bias. -/
theorem weights_of_bias (hloads : Loads ops path content gguf hp)
    (hover : LoadedOver ops gguf.tensorFile hp (fresh ops) m)
    (hslot : slot ∈ Slot.used hp.nLayers.toNat) (hbias : slot.isBias = true)
    (hpos : 0 < slot.size hp) (hlt : slot.size hp < 2 ^ 64) :
    m.weights slot = [] ∨ (m.weights slot).length = slot.size hp := by
  have hlm : slot ≠ .lmHead := by
    rintro rfl
    cases hbias
  rw [weights_of_ne hlm]
  obtain hloaded | ⟨-, hfailed⟩ := hloads.admits slot hslot
  · exact .inr ((length_tensor_of_loaded hloads hover hslot hloaded).2 hpos hlt)
  · rw [hover.tensor slot hslot, tensor_fresh, TensorFile.stored, if_neg fun h => hlm h.1]
    cases houtcome : gguf.tensorFile.outcome ops hp slot with
    | untouched => exact .inl rfl
    | broken n =>
      have hsize := length_of_broken hloads.inLimits houtcome
      rw [Nat.mod_eq_of_lt hlt] at hsize
      exact .inr ((length_resize _ _ _).trans (hsize.resolve_left hpos.ne'))
    | thrown =>
      rw [houtcome] at hfailed
      cases hfailed
    | loaded v =>
      rw [houtcome] at hfailed
      cases hfailed

/-- The weights are as large as their dimensions say exactly when the key projection fits. -/
theorem weights_iff (hloads : Loads ops path content gguf hp)
    (hover : LoadedOver ops gguf.tensorFile hp (fresh ops) m) (hdim : 0 < hp.nHeadDim.toNat) :
    (∀ slot ∈ Slot.used m.hparams.nLayers.toNat, (slot.isBias = true ∧ m.weights slot = []) ∨
      slot.size m.hparams ≤ (m.weights slot).length) ↔ hp.kvSize * hp.nEmbd.toNat < 2 ^ 64 := by
  have hvalid := valid_of_hparamsOf hloads.hparams
  have hpos := size_pos hvalid hdim
  rw [hover.hparams]
  constructor
  · intro h
    -- the key projection of the first layer can be held
    have hmem := Slot.layer_mem_used hvalid.nLayers .attnK
    have hsize := (h _ hmem).resolve_left fun h => by cases h.1
    have hmax := hsize.trans (length_weights hloads hover hmem rfl).1
    exact hmax.trans_lt (UInt64.toNat_lt _)
  · intro hkv slot hslot
    have hlt : slot.size hp < 2 ^ 64 := size_lt hvalid fun _ _ => hkv
    cases hbias : slot.isBias with
    | false => exact .inr ((length_weights hloads hover hslot hbias).2 (hpos slot) hlt).ge
    | true =>
      obtain hnil | hlength := weights_of_bias hloads hover hslot hbias (hpos slot) hlt
      · exact .inl ⟨rfl, hnil⟩
      · exact .inr hlength.ge

/-! ## The weights suit a pass -/

/-- A head is not empty and the query projection can be held: an embedding is short. -/
theorem nEmbd_lt (hvalid : hp.Valid) (hdim : 0 < hp.nHeadDim.toNat)
    (hq : hp.nHeads.toNat * hp.nHeadDim.toNat * hp.nEmbd.toNat ≤ maxElems.toNat) :
    hp.nEmbd.toNat < 2 ^ 31 := by
  by_contra hge
  -- the heads have more than half of the elements of an embedding
  have hsplit : hp.nHeads.toNat * hp.nHeadDim.toNat + hp.nEmbd.toNat % hp.nHeads.toNat =
      hp.nEmbd.toNat := by
    rw [hvalid.nHeadDim]
    exact Nat.div_add_mod _ _
  have hmod : hp.nEmbd.toNat % hp.nHeads.toNat < hp.nHeads.toNat := Nat.mod_lt _ hvalid.nHeads
  have hone : hp.nHeads.toNat ≤ hp.nHeads.toNat * hp.nHeadDim.toNat :=
    Nat.le_mul_of_pos_right _ hdim
  have hprod : 2 ^ 30 * 2 ^ 31 ≤ hp.nHeads.toNat * hp.nHeadDim.toNat * hp.nEmbd.toNat :=
    Nat.mul_le_mul (by omega) (by omega)
  have hmax := toNat_maxElems
  omega

/-- All heads together have no more elements than an embedding, so that their 32-bit number does not
wrap around. -/
theorem toNat_heads (hvalid : hp.Valid) :
    (hp.nHeads * hp.nHeadDim).toNat = hp.nHeads.toNat * hp.nHeadDim.toNat ∧
      hp.nHeads.toNat * hp.nHeadDim.toNat ≤ hp.nEmbd.toNat := by
  have hle : hp.nHeads.toNat * hp.nHeadDim.toNat ≤ hp.nEmbd.toNat := by
    rw [hvalid.nHeadDim]
    exact Nat.mul_div_le ..
  refine ⟨?_, hle⟩
  rw [UInt32.toNat_mul]
  exact Nat.mod_eq_of_lt (hle.trans_lt hp.nEmbd.toNat_lt)

/-- The weights of a layer. -/
theorem exists_slot (hover : LoadedOver ops f hp (fresh ops) m) {w : Qwen2LayerWeights α}
    (hw : w ∈ m.layers) : ∃ l < hp.nLayers.toNat, ∀ t : LayerTensor,
      t.get w = m.weights (.layer l t) := by
  obtain ⟨l, hl, rfl⟩ := List.mem_iff_getElem.mp hw
  refine ⟨l, hl.trans_eq hover.layers, fun t => ?_⟩
  simp [weights, tensor, List.getD_eq_getElem?_getD, List.getElem?_eq_getElem hl]

/-- What a load leaves suits a pass over a cache with its dimensions. -/
theorem suits_of_load (hloads : Loads ops path content gguf hp)
    (hover : LoadedOver ops gguf.tensorFile hp (fresh ops) m) (hloaded : m.loaded = true)
    {d : KVDims} (hd : d.Positive) (hlayers : d.nLayers = hp.nLayers)
    (hkvHeads : d.nKvHeads = hp.nKvHeads) (hheadDim : d.headDim = hp.nHeadDim) : Suits m d := by
  have hvalid := valid_of_hparamsOf hloads.hparams
  have hdim : 0 < hp.nHeadDim.toNat := pos_of_ne_zero (hheadDim ▸ hd.2.2.2)
  have hpos := size_pos hvalid hdim
  have hne : ∀ {n : UInt32}, 0 < n.toNat → n ≠ 0 := by
    rintro n hn rfl
    exact Nat.lt_irrefl 0 hn
  have hlt : ∀ {slot : Slot}, (∀ l, slot ≠ .layer l .attnK ∧ slot ≠ .layer l .attnV) →
      slot.size hp < 2 ^ 64 := fun hslot => size_lt hvalid fun l hkv =>
    absurd hkv (not_or.mpr (hslot l))
  have hlength : ∀ slot ∈ Slot.used hp.nLayers.toNat, slot.isBias = false →
      (∀ l, slot ≠ .layer l .attnK ∧ slot ≠ .layer l .attnV) →
      (m.weights slot).length = slot.size hp := fun slot hslot hbias hkv =>
    (length_weights hloads hover hslot hbias).2 (hpos slot) (hlt hkv)
  -- the query projection of the first layer bounds the embedding
  have hq := length_weights hloads hover (Slot.layer_mem_used hvalid.nLayers .attnQ) rfl
  have hqLength := hq.2 (hpos _) (hlt (by simp))
  have hembd : hp.nEmbd.toNat < 2 ^ 31 := nEmbd_lt hvalid hdim (hqLength.symm.le.trans hq.1)
  obtain ⟨hheads, hheads_le⟩ := toNat_heads hvalid
  have hhparams := hover.hparams
  refine ⟨hloaded, ?_, ?_, ?_, hd, ?_, ?_, ?_, ?_, ?_, ?_, ?_, ?_, ?_, ?_, ?_, ?_, ?_⟩ <;>
    rw [hhparams]
  · exact hlayers
  · exact hkvHeads
  · exact hheadDim
  · exact hne hvalid.vocabSize
  · exact hne hvalid.nEmbd
  · exact hembd
  · exact hne hvalid.nHeads
  · exact hne hvalid.nFf
  · exact hheads
  · rw [hheads]
    exact hheads_le.trans_lt hembd
  · exact (hlength .tokEmbd (by simp [Slot.used]) rfl (by simp)).ge
  · exact (hlength .outputNorm (by simp [Slot.used]) rfl (by simp)).ge
  · exact (hlength .lmHead (by simp [Slot.used]) rfl (by simp)).ge
  · exact hover.layers
  · intro w hw t hbias hkv
    obtain ⟨l, hl, hget⟩ := exists_slot hover hw
    rw [hget]
    refine (t.read_le_size hp).trans_eq (hlength _ (Slot.layer_mem_used hl t) hbias ?_).symm
    simp_all
  · intro w hw t hbias
    obtain ⟨l, hl, hget⟩ := exists_slot hover hw
    rw [hget]
    refine (weights_of_bias hloads hover (Slot.layer_mem_used hl t) hbias (hpos _) (hlt ?_)).imp id
      fun hsize => (t.read_le_size hp).trans_eq hsize.symm
    cases t <;> simp_all [LayerTensor.isBias]

/-- The key and value projections suit when the key vectors have fewer than 2^32 elements. -/
theorem kvSuit_of_load (hloads : Loads ops path content gguf hp)
    (hover : LoadedOver ops gguf.tensorFile hp (fresh ops) m) (hpos : 0 < hp.kvSize)
    (hlt : hp.kvSize * hp.nEmbd.toNat < 2 ^ 64) : KvSuit m := by
  have hvalid := valid_of_hparamsOf hloads.hparams
  intro w hw t ht
  obtain ⟨l, hl, hget⟩ := exists_slot hover hw
  rw [hget, hover.hparams]
  obtain ⟨hsize, hbias⟩ : (Slot.layer l t).size hp = hp.kvSize * hp.nEmbd.toNat ∧
      t.isBias = false := by
    simp only [List.mem_cons, List.not_mem_nil, or_false] at ht
    obtain rfl | rfl := ht <;> exact ⟨rfl, rfl⟩
  have hlength := (length_weights hloads hover (Slot.layer_mem_used hl t) hbias).2
  rw [hsize] at hlength
  specialize hlength (Nat.mul_pos hpos hvalid.nEmbd) hlt
  exact (t.read_le_size hp).trans_eq (hsize.trans hlength.symm)

/-- No key vector is read of projections that a pass reads nothing of. -/
theorem kvSuit_of_null (hzero : m.hparams.nKvHeads * m.hparams.nHeadDim = 0) : KvSuit m := by
  intro w _ t ht
  have hread : t.read m.hparams = 0 := by
    simp only [List.mem_cons, List.not_mem_nil, or_false] at ht
    obtain rfl | rfl := ht <;> simp [LayerTensor.read, hzero]
  exact hread ▸ Nat.zero_le _

end HydroXLModel

end HeteroAccel
