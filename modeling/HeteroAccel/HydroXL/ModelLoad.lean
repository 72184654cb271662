import HeteroAccel.HydroXL.TensorData

/-!
# What a load leaves

The load of a model told from the file: what the file has for each tensor (`TensorOutcome`), whether
a load goes through (`Loads`), and which content every tensor of the model then has (`stored`). The
buffers and the state of the stream do not occur in it, and neither do the threads.

## Main results

* `Stored`, `Runs`: what a part of the load leaves, and how the parts compose;
* `load_eq_loaded`, `exists_load`: when `load` succeeds and what it leaves.
-/

namespace HeteroAccel

open Bytes (ofString ofDecimal)

variable {α δ : Type}

/-! ## What the file has for a tensor -/

/-- What `loadTensor` does to its output. -/
inductive TensorOutcome (α : Type) where
  /-- There is no such tensor, or it does not pass the checks. -/
  | untouched
  /-- It has more elements than a vector can have. -/
  | thrown
  /-- The output has been resized when reading or decoding fails. -/
  | broken (n : ℕ)
  | loaded (v : List α)

namespace TensorOutcome

/-- How a load ends that ends with this tensor. -/
def status : TensorOutcome α → LoadStatus
  | untouched => .failed
  | thrown => .thrown
  | broken _ => .failed
  | loaded _ => .loaded

/-- The output afterwards. -/
def after (fill : α) (old : List α) : TensorOutcome α → List α
  | untouched => old
  | thrown => old
  | broken n => HydroXLModel.resize fill old n
  | loaded v => v

end TensorOutcome

namespace Slot

/-- A failure to load it does not stop the load. -/
def optional : Slot → Bool
  | .lmHead => true
  | .layer _ t => t.isBias
  | _ => false

/-- The tensors of a layer. -/
def ofLayer (l : ℕ) : List Slot := LayerTensor.all.map (layer l)

/-- The tensors of `left` layers from the layer `l` on. -/
def ofLayers (left l : ℕ) : List Slot := (List.range' l left).flatMap ofLayer

/-- The tensors that are used of a model with `n` layers. -/
def used (n : ℕ) : List Slot := [tokEmbd, outputNorm, lmHead] ++ ofLayers n 0

theorem mem_ofLayer {l : ℕ} {slot : Slot} : slot ∈ ofLayer l ↔ ∃ t, slot = .layer l t := by
  constructor
  · intro h
    obtain ⟨t, -, rfl⟩ := List.mem_map.mp h
    exact ⟨t, rfl⟩
  · rintro ⟨t, rfl⟩
    exact List.mem_map_of_mem (LayerTensor.mem_all t)

theorem mem_ofLayers {left l : ℕ} {slot : Slot} :
    slot ∈ ofLayers left l ↔ ∃ i t, (l ≤ i ∧ i < l + left) ∧ slot = .layer i t := by
  simp only [ofLayers, List.mem_flatMap, List.mem_range'_1, mem_ofLayer]
  constructor
  · rintro ⟨i, hi, t, rfl⟩
    exact ⟨i, t, hi, rfl⟩
  · rintro ⟨i, t, hi, rfl⟩
    exact ⟨i, hi, t, rfl⟩

/-- The slots of a layer are used if the model has the layer. -/
theorem layer_mem_used_iff {n l : ℕ} {t : LayerTensor} : .layer l t ∈ used n ↔ l < n := by
  simp [used, mem_ofLayers]

theorem layer_mem_used {n l : ℕ} (hl : l < n) (t : LayerTensor) : .layer l t ∈ used n :=
  layer_mem_used_iff.mpr hl

end Slot

section File

variable (ops : TensorOps α δ) (f : TensorFile) (hp : Qwen2HParams α)

/-- What the file has for a slot. -/
def TensorFile.outcome (slot : Slot) : TensorOutcome α :=
  match f.find slot.name with
  | none => .untouched
  | some desc =>
    match HydroXLModel.checkDesc ops slot.name (slot.expected hp) desc with
    | .error _ => .untouched
    | .ok nElems =>
      if nElems > HydroXLModel.maxElems then .thrown
      else
        match f.content ops desc with
        | some v => .loaded v
        | none => .broken nElems.toNat

/-- The slot does not stop a load. -/
def TensorFile.Admits (slot : Slot) : Prop :=
  (f.outcome ops hp slot).status = .loaded ∨
    (slot.optional = true ∧ (f.outcome ops hp slot).status = .failed)

/-- What a load that goes through leaves in a slot that held `old`. -/
def TensorFile.stored (slot : Slot) (old : List α) : List α :=
  if slot = .lmHead ∧ (f.outcome ops hp slot).status = .failed then []
  else (f.outcome ops hp slot).after ops.zero old

end File

section Outcome

variable {ops : TensorOps α δ} {f : TensorFile} {hp : Qwen2HParams α} {slot : Slot} {v : List α}

/-- The descriptors are those of tensors within the limits of the loader. -/
def TensorFile.InLimits (f : TensorFile) : Prop :=
  ∀ desc ∈ f.tensors, ∃ t : GGUFTensor, t.InLimits ∧ desc = GGUFLoader.descOf t

/-- What a file within limits has under a name is one of its tensors. -/
theorem TensorFile.InLimits.exists_tensor (hf : f.InLimits) {name : Bytes} {desc : GGUFTensorDesc}
    (hfind : f.find name = some desc) :
    ∃ t : GGUFTensor, t.InLimits ∧ desc = GGUFLoader.descOf t :=
  hf desc (List.mem_of_find?_eq_some hfind)

theorem toNat_maxElems : HydroXLModel.maxElems.toNat = 2 ^ 61 - 1 := by decide +kernel

/-- The number of elements of a tensor as the loader has it. -/
theorem not_gt_maxElems_iff {t : GGUFTensor} (ht : t.InLimits) :
    ¬UInt64.ofNat t.count > HydroXLModel.maxElems ↔ t.count ≤ HydroXLModel.maxElems.toNat := by
  rw [gt_iff_lt, UInt64.lt_iff_toNat_lt, UInt64.toNat_ofNat_of_lt' ht.count, Nat.not_lt]

/-- A tensor is loaded when it has the size that is asked for, if one is asked for, and the file
has its content. -/
theorem outcome_eq_loaded_iff (hf : f.InLimits) :
    f.outcome ops hp slot = .loaded v ↔ ∃ desc, f.find slot.name = some desc ∧
      (slot.expected hp = 0 ∨ volume desc.shape = (slot.expected hp).toNat) ∧
      volume desc.shape ≤ HydroXLModel.maxElems.toNat ∧ f.content ops desc = some v := by
  unfold TensorFile.outcome
  constructor
  · intro h
    split at h
    next => cases h
    next desc hfind =>
      obtain ⟨t, ht, rfl⟩ := hf.exists_tensor hfind
      split at h
      next => cases h
      next nElems hcheck =>
        obtain ⟨hcount, hsize⟩ := checkDesc_ok ht hcheck
        split_ifs at h with hmax
        split at h
        next v' hcontent =>
          cases h
          refine ⟨_, hfind, hsize, ?_, hcontent⟩
          exact (Nat.le_of_eq hcount.symm).trans (UInt64.le_iff_toNat_le.mp (UInt64.not_lt.mp hmax))
        next => cases h
  · rintro ⟨desc, hfind, hsize, hle, hcontent⟩
    obtain ⟨t, ht, rfl⟩ := hf.exists_tensor hfind
    have hmax := (not_gt_maxElems_iff ht).mpr hle
    rw [hfind]
    dsimp only
    rw [checkDesc_of_size ht (UInt64.not_lt.mp hmax) hsize]
    dsimp only
    rw [if_neg hmax, hcontent]

/-- The content of a tensor has as many elements as its dimensions say. -/
theorem length_of_content {desc : GGUFTensorDesc} (h : f.content ops desc = some v) :
    v.length = volume desc.shape := by
  unfold TensorFile.content at h
  split_ifs at h
  exact length_of_dequantize h

/-- In a file within limits no tensor is empty. -/
theorem ne_nil_of_content (hf : f.InLimits) {name : Bytes} {desc : GGUFTensorDesc}
    (hfind : f.find name = some desc) (h : f.content ops desc = some v) : v ≠ [] := by
  obtain ⟨t, ht, rfl⟩ := hf.exists_tensor hfind
  have hpos := GGUFLoader.volume_pos fun dim hdim => (ht.dims dim hdim).1
  exact List.ne_nil_of_length_pos ((length_of_content h).symm ▸ hpos)

theorem ne_nil_of_loaded (hf : f.InLimits) (h : f.outcome ops hp slot = .loaded v) : v ≠ [] := by
  obtain ⟨desc, hfind, -, -, hcontent⟩ := (outcome_eq_loaded_iff hf).mp h
  exact ne_nil_of_content hf hfind hcontent

/-- A slot that ends as loaded has a content. -/
theorem TensorOutcome.exists_loaded {o : TensorOutcome α} (h : o.status = .loaded) :
    ∃ v, o = .loaded v := by
  cases o with
  | loaded v => exact ⟨v, rfl⟩
  | _ => cases h

/-- A slot that has to be loaded, or is, holds what the file has for it. -/
theorem TensorFile.stored_of_loaded (h : f.outcome ops hp slot = .loaded v) (old : List α) :
    f.stored ops hp slot old = v := by
  rw [stored, h, if_neg (by simp [TensorOutcome.status])]
  rfl

/-- A tensor that is required is loaded where the file admits it. -/
theorem TensorFile.Admits.exists_loaded (h : f.Admits ops hp slot)
    (hrequired : slot.optional = false) : ∃ v, f.outcome ops hp slot = .loaded v := by
  obtain h | ⟨hoptional, -⟩ := h
  · exact TensorOutcome.exists_loaded h
  · rw [hrequired] at hoptional
    cases hoptional

end Outcome

/-! ## One tensor -/

namespace HydroXLModel

variable {ops : TensorOps α δ} {threads : Threads} {f : TensorFile} {hp : Qwen2HParams α}
  {s s' : Loading α} {slot : Slot}

theorem length_resize {β : Type} (fill : β) (v : List β) (n : ℕ) :
    (resize fill v n).length = n := by
  rw [resize, List.length_append, List.length_take, List.length_replicate]
  omega

/-- The place of a slot is there. -/
def HasPlace (m : HydroXLModel α) : Slot → Prop
  | .layer l _ => l < m.layers.length
  | _ => True

/-- A slot that is set changes no other slot. -/
@[simp]
theorem tensor_setTensor {m : HydroXLModel α} {v : List α} (hplace : m.HasPlace slot)
    (slot' : Slot) :
    (m.setTensor v slot).tensor slot' = if slot' = slot then v else m.tensor slot' := by
  cases slot with
  | tokEmbd => cases slot' <;> rfl
  | outputNorm => cases slot' <;> rfl
  | lmHead => cases slot' <;> rfl
  | layer l t =>
    cases slot' with
    | tokEmbd => rfl
    | outputNorm => rfl
    | lmHead => rfl
    | layer l' t' =>
      have hl : l < m.layers.length := hplace
      change LayerTensor.get ((m.layers.modify l fun w => t.set w v).getD l' {}) t' = _
      rw [List.getD_eq_getElem?_getD, List.getElem?_modify]
      by_cases h : l = l'
      · subst h
        rw [List.getElem?_eq_getElem hl]
        simp [tensor, List.getD_eq_getElem?_getD, List.getElem?_eq_getElem hl]
      · have hne : ¬l' = l := fun h' => h h'.symm
        simp [tensor, List.getD_eq_getElem?_getD, h, hne]

/-- Which slots a model has depends only on the number of its layers. -/
theorem HasPlace.of_length {m m' : HydroXLModel α} (hplace : m.HasPlace slot)
    (h : m'.layers.length = m.layers.length) : m'.HasPlace slot := by
  cases slot with
  | layer l t => exact (show l < m.layers.length from hplace).trans_eq h.symm
  | _ => trivial

/-- Two models with the same weights, biases, hyper-parameters and tied-head flag. -/
structure SameWeights (m m' : HydroXLModel α) : Prop where
  hparams : m.hparams = m'.hparams
  lmHeadTied : m.lmHeadTied = m'.lmHeadTied
  tokEmbd : m.tokEmbd = m'.tokEmbd
  outputNorm : m.outputNorm = m'.outputNorm
  lmHead : m.lmHead = m'.lmHead
  layers : m.layers = m'.layers

/-- Models with the same weights agree in every slot. -/
theorem SameWeights.tensor {m m' : HydroXLModel α} (h : SameWeights m m') (slot : Slot) :
    m.tensor slot = m'.tensor slot := by
  cases slot with
  | tokEmbd => exact h.tokEmbd
  | outputNorm => exact h.outputNorm
  | lmHead => exact h.lmHead
  | layer l t => exact congrArg (fun layers => t.get (layers.getD l {})) h.layers

theorem tensor_fresh (slot : Slot) : (fresh ops).tensor slot = [] := by
  cases slot with
  | layer l t => cases t <;> rfl
  | _ => rfl

/-- The parts of a model that the load of a tensor leaves alone. -/
theorem setTensor_other (m : HydroXLModel α) (v : List α) (slot : Slot) :
    (m.setTensor v slot).hparams = m.hparams ∧ (m.setTensor v slot).lmHeadTied = m.lmHeadTied ∧
      (m.setTensor v slot).layers.length = m.layers.length := by
  cases slot <;> simp [setTensor]

/-- A model that is being loaded from the file `f`, with the hyper-parameters `hp`. -/
structure Ready (f : TensorFile) (hp : Qwen2HParams α) (s : Loading α) : Prop where
  opened : s.gguf.Opened
  file : s.gguf.tensorFile = f
  hparams : s.model.hparams = hp

/-- What a part of a load leaves: the tensors, and whether the LM head is shared. -/
structure Leaves (f : TensorFile) (hp : Qwen2HParams α) (s s' : Loading α) (tied : Bool)
    (tensor : Slot → List α) : Prop where
  ready : Ready f hp s'
  layers : s'.model.layers.length = s.model.layers.length
  tied : s'.model.lmHeadTied = tied
  tensor : ∀ slot, s'.model.tensor slot = tensor slot

/-- The tensors when one of them is replaced. -/
def put (m : HydroXLModel α) (slot : Slot) (v : List α) (slot' : Slot) : List α :=
  if slot' = slot then v else m.tensor slot'

theorem Leaves.refl (hs : Ready f hp s) : Leaves f hp s s s.model.lmHeadTied s.model.tensor :=
  ⟨hs, rfl, rfl, fun _ => rfl⟩

/-- The buffer, the count of bytes and the message are not looked at. -/
theorem Leaves.congr {tied : Bool} {tensor : Slot → List α} (h : Leaves f hp s s' tied tensor)
    {m : HydroXLModel α} (hsame : SameWeights m s'.model) :
    Leaves f hp s { s' with model := m } tied tensor where
  ready := ⟨h.ready.opened, h.ready.file, hsame.hparams.trans h.ready.hparams⟩
  layers := (congrArg List.length hsame.layers).trans h.layers
  tied := hsame.lmHeadTied.trans h.tied
  tensor slot := (hsame.tensor slot).trans (h.tensor slot)

/-- A failure leaves what was loaded before it. -/
theorem Leaves.fail {tied : Bool} {tensor : Slot → List α} (h : Leaves f hp s s' tied tensor)
    (msg : Bytes) : Leaves f hp s (HydroXLModel.fail s' msg).2 tied tensor :=
  h.congr ⟨rfl, rfl, rfl, rfl, rfl, rfl⟩

theorem put_self (m : HydroXLModel α) (slot : Slot) : put m slot (m.tensor slot) = m.tensor := by
  funext slot'
  unfold put
  split
  next h => rw [h]
  next => rfl

/-- A tensor that is set behind a read of the file. -/
theorem leaves_setTensor (hs : Ready f hp s) (hplace : s.model.HasPlace slot) {gguf : GGUFLoader}
    (hopened : gguf.Opened) (hfile : gguf.tensorFile = f) {v : List α} {m : HydroXLModel α}
    (hm : SameWeights m (s.model.setTensor v slot)) :
    Leaves f hp s { gguf, model := m } s.model.lmHeadTied (put s.model slot v) := by
  obtain ⟨hhparams, htied, hlayers⟩ := setTensor_other s.model v slot
  refine ⟨⟨hopened, hfile, ?_⟩, ?_, hm.lmHeadTied.trans htied, fun slot' => ?_⟩
  · exact hm.hparams.trans (hhparams.trans hs.hparams)
  · exact (congrArg List.length hm.layers).trans hlayers
  · exact (hm.tensor slot').trans (tensor_setTensor hplace slot')

/-- A tensor that is set twice. -/
theorem Leaves.put_put {v v' : List α} {s'' : Loading α}
    (h : Leaves f hp s s' s.model.lmHeadTied (put s.model slot v))
    (h' : Leaves f hp s' s'' s'.model.lmHeadTied (put s'.model slot v')) :
    Leaves f hp s s'' s.model.lmHeadTied (put s.model slot v') where
  ready := h'.ready
  layers := h'.layers.trans h.layers
  tied := h'.tied.trans h.tied
  tensor slot' := by
    rw [h'.tensor, put, put, h.tensor, put]
    split <;> rfl

theorem Ready.inLimits (hs : Ready f hp s) : f.InLimits := by
  rw [← hs.file]
  exact hs.opened.tensors

/-- What is decoded of the bytes that the file has for a tensor. -/
theorem toOption_decodeTensor_data {t : GGUFTensor} {nElems : UInt64} {name rest : Bytes}
    {out : List α} (ht : t.InLimits) (hcount : nElems.toNat = t.count) (hle : nElems ≤ maxElems)
    (hholds : f.Holds (GGUFLoader.descOf t)) (hout : out.length = nElems.toNat) :
    (decodeTensor ops threads name (GGUFLoader.descOf t).type nElems
        (f.data (GGUFLoader.descOf t) ++ rest) out).toOption =
      f.content ops (GGUFLoader.descOf t) := by
  have hn : nElems = .ofNat t.count := by
    rw [← hcount, UInt64.ofNat_toNat]
  have hpos : nElems ≠ 0 := by
    rintro rfl
    have := GGUFLoader.volume_pos fun dim hdim => (ht.dims dim hdim).1
    change 0 = volume t.shape at hcount
    omega
  have hlength : (f.data (GGUFLoader.descOf t)).length =
      (GGUFLoader.tensorBytes t.type nElems).toNat := by
    rw [TensorFile.length_data hholds, hn]
    rfl
  rw [TensorFile.content, if_pos hholds]
  refine (toOption_decodeTensor hpos hle hout hlength).trans ?_
  rw [hcount]
  rfl

variable (ops threads slot) in
/-- What `loadTensor` does depends on the file and, where it leaves its output alone, on what was
there. -/
theorem loadTensor_spec (hs : Ready f hp s) (hplace : s.model.HasPlace slot) :
    (loadTensor ops threads slot s).1 = (f.outcome ops hp slot).status ∧
      Leaves f hp s (loadTensor ops threads slot s).2 s.model.lmHeadTied
        (put s.model slot ((f.outcome ops hp slot).after ops.zero (s.model.tensor slot))) := by
  have hleave : Leaves f hp s s s.model.lmHeadTied (put s.model slot (s.model.tensor slot)) := by
    rw [put_self]
    exact .refl hs
  unfold loadTensor TensorFile.outcome
  dsimp only
  rw [GGUFLoader.findTensor_eq, hs.file, hs.hparams]
  cases hfind : f.find slot.name with
  | none => exact ⟨rfl, hleave⟩
  | some desc =>
    obtain ⟨t, ht, rfl⟩ := hs.inLimits.exists_tensor hfind
    dsimp only
    cases hcheck : checkDesc ops slot.name (slot.expected hp) (GGUFLoader.descOf t) with
    | error msg => exact ⟨rfl, hleave.fail msg⟩
    | ok nElems =>
      obtain ⟨hcount, -⟩ := checkDesc_ok ht hcheck
      dsimp only
      by_cases hmax : nElems > maxElems
      · rw [if_pos hmax, if_pos hmax]
        exact ⟨rfl, hleave⟩
      · rw [if_neg hmax, if_neg hmax]
        set out := resize ops.zero (s.model.tensor slot) nElems.toNat with hout
        set buf := if s.model.rawBuf.length < (GGUFLoader.descOf t).nBytes.toNat
          then resize 0 s.model.rawBuf (GGUFLoader.descOf t).nBytes.toNat else s.model.rawBuf
          with hbuf
        have hroom : (GGUFLoader.descOf t).nBytes.toNat ≤ buf.length := by
          rw [hbuf]
          split
          · rw [length_resize]
          next h => exact Nat.not_lt.mp h
        by_cases hholds : f.Holds (GGUFLoader.descOf t)
        · obtain ⟨l', hread, hopened, hfile⟩ :=
            GGUFLoader.readTensorData_of_holds hs.opened (hs.file ▸ hholds) hroom
          rw [hread, hs.file]
          dsimp only
          have hcontent : (decodeTensor ops threads slot.name (GGUFLoader.descOf t).type nElems
              (f.data (GGUFLoader.descOf t) ++ buf.drop (GGUFLoader.descOf t).nBytes.toNat)
                out).toOption = f.content ops (GGUFLoader.descOf t) :=
            toOption_decodeTensor_data ht hcount (UInt64.not_lt.mp hmax) hholds
              (length_resize ops.zero (s.model.tensor slot) _)
          -- the output has been resized, and decoding may fail
          have hresized := leaves_setTensor hs hplace hopened (hfile.trans hs.file)
            (m := { s.model.setTensor out slot with
              rawBuf := f.data (GGUFLoader.descOf t) ++
                buf.drop (GGUFLoader.descOf t).nBytes.toNat })
            (v := out) ⟨rfl, rfl, rfl, rfl, rfl, rfl⟩
          rw [← hcontent]
          generalize decodeTensor ops threads slot.name (GGUFLoader.descOf t).type nElems _ _ = r
          cases r with
          | error msg => exact ⟨rfl, hresized.fail msg⟩
          | ok v =>
            refine ⟨rfl, hresized.put_put ?_⟩
            exact leaves_setTensor hresized.ready (hplace.of_length hresized.layers)
              hresized.ready.opened hresized.ready.file ⟨rfl, rfl, rfl, rfl, rfl, rfl⟩
        · have hread : s.gguf.readTensorData (GGUFLoader.descOf t) buf
              (GGUFLoader.descOf t).nBytes = (false, buf, s.gguf) :=
            GGUFLoader.readTensorData_of_not_holds hs.opened (hs.file ▸ hholds)
          rw [hread, TensorFile.content, if_neg hholds]
          refine ⟨rfl, Leaves.fail ?_ _⟩
          exact leaves_setTensor hs hplace hs.opened hs.file ⟨rfl, rfl, rfl, rfl, rfl, rfl⟩

/-! ## Parts of a load -/

section Parts

variable (ops f hp) in
/-- What a part that goes through leaves: the tensors of `ss` are loaded. -/
def Stored (ss : List Slot) (s s' : Loading α) : Prop :=
  Leaves f hp s s'
    (if .lmHead ∈ ss then decide ((f.outcome ops hp .lmHead).status = .failed)
      else s.model.lmHeadTied)
    fun slot =>
      if slot ∈ ss then f.stored ops hp slot (s.model.tensor slot) else s.model.tensor slot

variable (ops f hp) in
/-- A part that loads the tensors of `ss`: it goes through unless one of them stops it. -/
structure Runs (ss : List Slot) (s : Loading α) (r : LoadStatus × Loading α) : Prop where
  status : r.1 = .loaded ↔ ∀ slot ∈ ss, f.Admits ops hp slot
  stored : r.1 = .loaded → Stored ops f hp ss s r.2

variable {ss ts : List Slot} {r : LoadStatus × Loading α}
  {next : Loading α → LoadStatus × Loading α}

/-- Two parts of a load, one behind the other, for different slots. -/
theorem Stored.append {s'' : Loading α} (h : Stored ops f hp ss s s')
    (h' : Stored ops f hp ts s' s'') (hdisj : ∀ slot ∈ ss, slot ∉ ts) :
    Stored ops f hp (ss ++ ts) s s'' where
  ready := h'.ready
  layers := h'.layers.trans h.layers
  tied := by
    rw [h'.tied, h.tied]
    by_cases hss : Slot.lmHead ∈ ss <;> simp [hss]
  tensor slot := by
    rw [h'.tensor, h.tensor]
    by_cases hss : slot ∈ ss
    · simp [hss, hdisj slot hss]
    · simp [hss]

theorem Runs.nil (hs : Ready f hp s) : Runs ops f hp [] s (.loaded, s) where
  status := by simp
  stored _ := by
    have := Leaves.refl hs
    simpa [Stored] using this

/-- After a failure nothing more is loaded. -/
theorem andThen_of_ne (h : r.1 ≠ .loaded) : andThen r next = r := by
  obtain ⟨status, s'⟩ := r
  cases status with
  | loaded => exact absurd rfl h
  | failed => rfl
  | thrown => rfl

/-- A part behind a part. -/
theorem Runs.andThen (hr : Runs ops f hp ss s r)
    (hnext : ∀ s', Stored ops f hp ss s s' → Runs ops f hp ts s' (next s'))
    (hdisj : ∀ slot ∈ ss, slot ∉ ts) : Runs ops f hp (ss ++ ts) s (andThen r next) := by
  by_cases hloaded : r.1 = .loaded
  · obtain ⟨status, s'⟩ := r
    cases hloaded
    have hstored := hr.stored rfl
    have hruns := hnext s' hstored
    have hss := hr.status.mp rfl
    constructor
    · rw [List.forall_mem_append]
      exact hruns.status.trans (and_iff_right hss).symm
    · exact fun h => hstored.append (hruns.stored h) hdisj
  · rw [andThen_of_ne hloaded]
    constructor
    · refine iff_of_false hloaded fun hall => hloaded (hr.status.mpr fun slot hslot => ?_)
      exact hall slot (List.mem_append_left _ hslot)
    · exact fun h => absurd h hloaded

/-- A part that ends with a check that it passes. -/
theorem Runs.andThen_self (hr : Runs ops f hp ss s r)
    (hnext : ∀ s', Stored ops f hp ss s s' → (∀ slot ∈ ss, f.Admits ops hp slot) →
      next s' = (.loaded, s')) :
    Runs ops f hp ss s (HydroXLModel.andThen r next) := by
  by_cases hall : ∀ slot ∈ ss, f.Admits ops hp slot
  · have h : Runs ops f hp (ss ++ []) s (HydroXLModel.andThen r next) :=
      hr.andThen (fun s' hs' => (hnext s' hs' hall).symm ▸ Runs.nil hs'.ready)
        (fun _ _ => List.not_mem_nil)
    rwa [List.append_nil] at h
  · have hstop : r.1 ≠ .loaded := mt hr.status.mp hall
    rw [andThen_of_ne hstop]
    exact ⟨iff_of_false hstop hall, fun h => absurd h hstop⟩

/-- A tensor without which the model is not loaded. -/
theorem runs_loadTensor (hs : Ready f hp s) (hplace : s.model.HasPlace slot)
    (hrequired : slot.optional = false) :
    Runs ops f hp [slot] s (loadTensor ops threads slot s) := by
  obtain ⟨hstatus, hleaves⟩ := loadTensor_spec ops threads _ hs hplace
  have hlm : slot ≠ .lmHead := by
    rintro rfl
    exact absurd hrequired (by decide)
  constructor
  · rw [hstatus]
    simp [TensorFile.Admits, hrequired]
  · intro _
    refine ⟨hleaves.ready, hleaves.layers, ?_, fun slot' => ?_⟩
    · simpa [hlm.symm] using hleaves.tied
    · rw [hleaves.tensor, put]
      by_cases h : slot' = slot
      · subst h
        simp [TensorFile.stored, hlm]
      · simp [h]

/-- A bias, whose load is not looked at. -/
theorem runs_attempt {l : ℕ} {t : LayerTensor} (hs : Ready f hp s)
    (hplace : s.model.HasPlace (.layer l t)) (hbias : t.isBias = true) :
    Runs ops f hp [.layer l t] s (attempt ops threads (.layer l t) s) := by
  obtain ⟨hstatus, hleaves⟩ := loadTensor_spec ops threads _ hs hplace
  unfold attempt
  generalize loadTensor ops threads (.layer l t) s = r at hstatus hleaves
  obtain ⟨status, s'⟩ := r
  dsimp only at hstatus hleaves
  have hstored : Stored ops f hp [.layer l t] s s' := by
    refine ⟨hleaves.ready, hleaves.layers, ?_, fun slot' => ?_⟩
    · simpa using hleaves.tied
    · rw [hleaves.tensor, put]
      by_cases h : slot' = .layer l t
      · subst h
        simp [TensorFile.stored]
      · simp [h]
  cases status with
  | loaded =>
    refine ⟨?_, fun _ => hstored⟩
    simp [TensorFile.Admits, ← hstatus]
  | failed =>
    refine ⟨?_, fun _ => hstored⟩
    simp [TensorFile.Admits, ← hstatus, Slot.optional, hbias]
  | thrown =>
    refine ⟨?_, fun h => by cases h⟩
    simp [TensorFile.Admits, ← hstatus]

/-- The load of the head: from its own tensor, or shared. -/
theorem runs_loadLmHead (hs : Ready f hp s) :
    Runs ops f hp [.lmHead] s (loadLmHead ops threads s) := by
  obtain ⟨hstatus, hleaves⟩ := loadTensor_spec ops threads .lmHead hs trivial
  unfold loadLmHead
  generalize loadTensor ops threads .lmHead s = r at hstatus hleaves
  obtain ⟨status, s'⟩ := r
  dsimp only at hstatus hleaves
  cases status with
  | loaded =>
    -- the file has a head of its own
    obtain ⟨v, hv⟩ := TensorOutcome.exists_loaded hstatus.symm
    refine ⟨by simp [TensorFile.Admits, ← hstatus], fun _ => ?_⟩
    refine ⟨⟨hleaves.ready.opened, hleaves.ready.file, hleaves.ready.hparams⟩, hleaves.layers, ?_,
      fun slot => ?_⟩
    · simp [← hstatus]
    · have htensor := hleaves.tensor slot
      rw [hv, put] at htensor
      by_cases h : slot = .lmHead
      · subst h
        rw [if_pos rfl] at htensor
        rw [if_pos List.mem_cons_self, TensorFile.stored_of_loaded hv]
        exact htensor
      · rw [if_neg h] at htensor
        rw [if_neg (by simpa using h), ← htensor]
        cases slot <;> rfl
  | failed =>
    -- any failure makes the head a shared one
    refine ⟨by simp [TensorFile.Admits, ← hstatus, Slot.optional], fun _ => ?_⟩
    refine ⟨⟨hleaves.ready.opened, hleaves.ready.file, hleaves.ready.hparams⟩, hleaves.layers, ?_,
      fun slot => ?_⟩
    · simp [← hstatus]
    · have htensor := hleaves.tensor slot
      rw [put] at htensor
      by_cases h : slot = .lmHead
      · subst h
        simp [TensorFile.stored, ← hstatus, tensor]
      · rw [if_neg h] at htensor
        rw [if_neg (by simpa using h), ← htensor]
        cases slot with
        | lmHead => exact absurd rfl h
        | _ => rfl
  | thrown =>
    refine ⟨?_, fun h => by cases h⟩
    simp [TensorFile.Admits, ← hstatus]

/-- The tensors of a layer one behind the other. -/
theorem runs_loadLayerTensors {l : ℕ} (ts : List LayerTensor) (hnodup : ts.Nodup)
    (hs : Ready f hp s) (hl : l < s.model.layers.length) :
    Runs ops f hp (ts.map (Slot.layer l)) s (loadLayerTensors ops threads l ts s) := by
  induction ts generalizing s with
  | nil => exact Runs.nil hs
  | cons t ts ih =>
    obtain ⟨hnotMem, hnodup⟩ := List.nodup_cons.mp hnodup
    have hplace : s.model.HasPlace (.layer l t) := hl
    have hone : Runs ops f hp [.layer l t] s
        (if t.isBias then attempt ops threads (.layer l t) s
          else loadTensor ops threads (.layer l t) s) := by
      split
      next hbias => exact runs_attempt hs hplace hbias
      next hbias => exact runs_loadTensor hs hplace (Bool.eq_false_of_not_eq_true hbias)
    change Runs ops f hp ([.layer l t] ++ ts.map (Slot.layer l)) s _
    refine hone.andThen (fun s' hs' => ?_) ?_
    · exact ih hnodup hs'.ready (hl.trans_eq hs'.layers.symm)
    · simp only [List.mem_singleton, forall_eq, List.mem_map, not_exists, not_and]
      rintro t' ht' heq
      cases heq
      exact hnotMem ht'

/-- The check behind the tensors of a layer never fails. -/
theorem isComplete_of_stored {l : ℕ} (hf : f.InLimits) (h : Stored ops f hp (Slot.ofLayer l) s s')
    (hall : ∀ slot ∈ Slot.ofLayer l, f.Admits ops hp slot) :
    (s'.model.layers.getD l {}).isComplete = true := by
  refine List.all_eq_true.mpr fun t _ => ?_
  have hmem : Slot.layer l t ∈ Slot.ofLayer l := Slot.mem_ofLayer.mpr ⟨t, rfl⟩
  cases hbias : t.isBias with
  | true => rfl
  | false =>
    obtain ⟨v, hv⟩ := (hall _ hmem).exists_loaded hbias
    have htensor := h.tensor (.layer l t)
    rw [if_pos hmem, TensorFile.stored_of_loaded hv] at htensor
    change t.get (s'.model.layers.getD l {}) = v at htensor
    rw [htensor]
    simpa using ne_nil_of_loaded hf hv

theorem nodup_all : LayerTensor.all.Nodup := by decide

theorem runs_loadLayer {l : ℕ} (hs : Ready f hp s) (hl : l < s.model.layers.length) :
    Runs ops f hp (Slot.ofLayer l) s (loadLayer ops threads l s) := by
  have htensors : Runs ops f hp (Slot.ofLayer l) s
      (loadLayerTensors ops threads l LayerTensor.all s) :=
    runs_loadLayerTensors _ nodup_all hs hl
  refine htensors.andThen_self fun s' hs' hall => ?_
  rw [if_pos (isComplete_of_stored hs.inLimits hs' hall)]

variable (ops threads) in
/-- The layers one behind the other. -/
theorem runs_loadLayers (left l : ℕ) (hs : Ready f hp s)
    (hl : l + left ≤ s.model.layers.length) :
    Runs ops f hp (Slot.ofLayers left l) s (loadLayers ops threads left l s) := by
  induction left generalizing l s with
  | zero => exact Runs.nil hs
  | succ left ih =>
    have hlist : Slot.ofLayers (left + 1) l = Slot.ofLayer l ++ Slot.ofLayers left (l + 1) := rfl
    rw [hlist]
    refine (runs_loadLayer hs (by omega)).andThen (fun s' hs' => ?_) ?_
    · exact ih (l + 1) hs'.ready (by rw [hs'.layers]; omega)
    · rintro slot hslot hslot'
      obtain ⟨t, rfl⟩ := Slot.mem_ofLayer.mp hslot
      obtain ⟨i, t', hi, heq⟩ := Slot.mem_ofLayers.mp hslot'
      cases heq
      omega

end Parts

/-! ## The whole load -/

section Load

variable (ops) in
/-- The hyper-parameters that the metadata gives, when they pass the checks. -/
def hparamsOf (gguf : GGUFLoader) : Option (Qwen2HParams α) :=
  if unsupportedArch (gguf.kvString (ofString "general.architecture") []) then none
  else
    let hparams := readHParams ops gguf (fresh ops).hparams
    if !hparams.isValid then none
    else some { hparams with nHeadDim := hparams.nEmbd / hparams.nHeads }

variable (ops f hp) in
/-- A model `m'` that is loaded over the model `m`. -/
structure LoadedOver (m m' : HydroXLModel α) : Prop where
  hparams : m'.hparams = hp
  layers : m'.layers.length = hp.nLayers.toNat
  tied : m'.lmHeadTied = decide ((f.outcome ops hp .lmHead).status = .failed)
  tensor : ∀ slot ∈ Slot.used hp.nLayers.toNat,
    m'.tensor slot = f.stored ops hp slot (m.tensor slot)

variable (ops) in
/-- A file that can be loaded: it can be opened, its hyper-parameters pass the checks, and no
tensor stops the load. -/
structure Loads (path : Bytes) (content : FileContent) (gguf : GGUFLoader) (hp : Qwen2HParams α) :
    Prop where
  opens : GGUFLoader.open {} path (some content) = (true, gguf)
  hparams : hparamsOf ops gguf = some hp
  admits : ∀ slot ∈ Slot.used hp.nLayers.toNat, gguf.tensorFile.Admits ops hp slot

variable (ops) in
/-- Nothing is left of the old hyper-parameters. -/
theorem loadHParams_eq (gguf : GGUFLoader) (m : HydroXLModel α) :
    (loadHParams ops gguf m).1 = (hparamsOf ops gguf).isSome ∧
      ∀ hp, hparamsOf ops gguf = some hp →
        loadHParams ops gguf m = (true, { m with hparams := hp }) := by
  have hvalid : (readHParams ops gguf m.hparams).isValid =
      (readHParams ops gguf (fresh ops).hparams).isValid := rfl
  unfold loadHParams hparamsOf
  dsimp only
  rw [hvalid]
  split_ifs with harch hinvalid
  · exact ⟨rfl, fun hp h => by cases h⟩
  · exact ⟨rfl, fun hp h => by cases h⟩
  · refine ⟨rfl, fun hp h => ?_⟩
    cases h
    rfl

/-- The layers that are kept or added hold what they held. -/
theorem tensor_resize (m : HydroXLModel α) {n : ℕ} (hslot : slot ∈ Slot.used n) :
    ({ m with layers := resize {} m.layers n } : HydroXLModel α).tensor slot = m.tensor slot := by
  cases slot with
  | tokEmbd => rfl
  | outputNorm => rfl
  | lmHead => rfl
  | layer l t =>
    have hl : l < n := Slot.layer_mem_used_iff.mp hslot
    refine congrArg t.get ?_
    change (resize {} m.layers n).getD l {} = m.layers.getD l {}
    rw [List.getD_eq_getElem?_getD, List.getD_eq_getElem?_getD, resize]
    by_cases hold : l < m.layers.length
    · rw [List.getElem?_append_left (by rw [List.length_take]; omega),
        List.getElem?_take_of_lt hl]
    · rw [List.getElem?_append_right (by rw [List.length_take]; omega),
        List.getElem?_replicate_of_lt (by rw [List.length_take]; omega),
        List.getElem?_eq_none (Nat.not_lt.mp hold)]
      rfl

theorem andThen_loaded (s : Loading α) (g : Loading α → LoadStatus × Loading α) :
    andThen (.loaded, s) g = g s := rfl

/-- The parts of a load may be grouped at will. -/
theorem andThen_assoc (r : LoadStatus × Loading α) (g h : Loading α → LoadStatus × Loading α) :
    andThen (andThen r g) h = andThen r fun s => andThen (g s) h := by
  obtain ⟨status, s'⟩ := r
  cases status <;> rfl

variable (ops threads) in
/-- The tensors in front of the layers. -/
theorem runs_head (hs : Ready f hp s) :
    Runs ops f hp [.tokEmbd, .outputNorm, .lmHead] s
      (andThen (loadTensor ops threads .tokEmbd s) fun s =>
        andThen (loadTensor ops threads .outputNorm s) (loadLmHead ops threads)) := by
  change Runs ops f hp ([.tokEmbd] ++ ([.outputNorm] ++ [.lmHead])) s _
  have htok : s.model.HasPlace .tokEmbd := trivial
  refine (runs_loadTensor hs htok rfl).andThen (fun s₁ hs₁ => ?_) (by decide)
  have hnorm : s₁.model.HasPlace .outputNorm := trivial
  refine (runs_loadTensor hs₁.ready hnorm rfl).andThen (fun s₂ hs₂ => ?_) (by decide)
  exact runs_loadLmHead hs₂.ready

variable (ops threads) in
/-- The tensors in front of the layers as one part. -/
theorem loadTensors_eq (s : Loading α) : loadTensors ops threads s =
    andThen (andThen (loadTensor ops threads .tokEmbd s) fun s =>
      andThen (loadTensor ops threads .outputNorm s) (loadLmHead ops threads)) fun s =>
        loadLayers ops threads s.model.hparams.nLayers.toNat 0
          { s with model.layers := resize {} s.model.layers s.model.hparams.nLayers.toNat } := by
  rw [andThen_assoc]
  simp only [andThen_assoc]
  rfl

variable (ops threads) in
/-- The tensors are loaded exactly where the file admits every slot, and then over what was
there. -/
theorem loadTensors_spec (hs : Ready f hp s) :
    ((loadTensors ops threads s).1 = .loaded ↔
        ∀ slot ∈ Slot.used hp.nLayers.toNat, f.Admits ops hp slot) ∧
      ((loadTensors ops threads s).1 = .loaded →
        LoadedOver ops f hp s.model (loadTensors ops threads s).2.model) := by
  have hhead := runs_head ops threads hs
  rw [loadTensors_eq]
  generalize andThen (loadTensor ops threads .tokEmbd s) _ = r at hhead
  rw [Slot.used, List.forall_mem_append, ← hhead.status]
  by_cases hloaded : r.1 = .loaded
  · obtain ⟨status, s₁⟩ := r
    cases hloaded
    have hs₁ := hhead.stored rfl
    have hhparams : s₁.model.hparams = hp := hs₁.ready.hparams
    -- the layers are resized in front of their tensors
    rw [andThen_loaded, hhparams]
    set s₂ : Loading α :=
      { s₁ with model.layers := resize {} s₁.model.layers hp.nLayers.toNat } with hs₂
    have hready : Ready f hp s₂ := ⟨hs₁.ready.opened, hs₁.ready.file, hhparams⟩
    have hlength : s₂.model.layers.length = hp.nLayers.toNat := length_resize _ _ _
    have hlayers := runs_loadLayers ops threads hp.nLayers.toNat 0 hready (by omega)
    refine ⟨by simpa using hlayers.status, fun h => ?_⟩
    have hs₃ := hlayers.stored h
    refine ⟨hs₃.ready.hparams, hs₃.layers.trans hlength, ?_, fun slot hslot => ?_⟩
    · have htied := hs₃.tied
      rw [if_neg (by simp [Slot.mem_ofLayers])] at htied
      rw [htied]
      exact hs₁.tied.trans (if_pos (by decide))
    · rw [hs₃.tensor]
      have hresize : s₂.model.tensor slot = s₁.model.tensor slot := tensor_resize s₁.model hslot
      rw [hresize, hs₁.tensor]
      obtain hhead | hlayer := List.mem_append.mp hslot
      · have hnot : slot ∉ Slot.ofLayers hp.nLayers.toNat 0 := by
          intro hlayer
          obtain ⟨l, t, -, rfl⟩ := Slot.mem_ofLayers.mp hlayer
          simp at hhead
        rw [if_neg hnot, if_pos hhead]
      · have hnot : slot ∉ [Slot.tokEmbd, .outputNorm, .lmHead] := by
          intro hhead
          obtain ⟨l, t, -, rfl⟩ := Slot.mem_ofLayers.mp hlayer
          simp at hhead
        rw [if_pos hlayer, if_neg hnot]
  · rw [andThen_of_ne hloaded]
    exact ⟨iff_of_false hloaded fun h => hloaded h.1, fun h => absurd h hloaded⟩

/-- The path, the buffer and the other fields beside the weights are not looked at. -/
theorem LoadedOver.congr {m m' : HydroXLModel α} (h : LoadedOver ops f hp m m')
    {m₀ m₀' : HydroXLModel α} (hm : ∀ slot, m.tensor slot = m₀.tensor slot)
    (hm' : SameWeights m' m₀') : LoadedOver ops f hp m₀ m₀' where
  hparams := hm'.hparams.symm.trans h.hparams
  layers := (congrArg List.length hm'.layers).symm.trans h.layers
  tied := hm'.lmHeadTied.symm.trans h.tied
  tensor slot hslot := by
    rw [← hm'.tensor slot, ← hm slot]
    exact h.tensor slot hslot

variable {path : Bytes} {content : FileContent} {gguf : GGUFLoader}

/-- The tensors of a file that has been opened and has hyper-parameters. -/
theorem load_spec (hopen : GGUFLoader.open {} path (some content) = (true, gguf))
    (hhparams : hparamsOf ops gguf = some hp) (threads : Threads) (m : HydroXLModel α) :
    ((load ops threads path (.file content) m).1 = .loaded ↔
        ∀ slot ∈ Slot.used hp.nLayers.toNat, gguf.tensorFile.Admits ops hp slot) ∧
      ((load ops threads path (.file content) m).1 = .loaded →
        LoadedOver ops gguf.tensorFile hp m (load ops threads path (.file content) m).2) := by
  have hloadHParams : ∀ m, loadHParams ops gguf m = (true, { m with hparams := hp }) := fun m =>
    (loadHParams_eq ops gguf m).2 hp hhparams
  unfold load
  dsimp only
  rw [hopen]
  dsimp only
  rw [hloadHParams]
  dsimp only
  have hready : Ready gguf.tensorFile hp
      { gguf, model := { m with path, loaded := false, memoryBytes := 0, hparams := hp } } :=
    ⟨GGUFLoader.opened_of_open hopen, rfl, rfl⟩
  obtain ⟨hstatus, hloaded⟩ := loadTensors_spec ops threads hready
  generalize loadTensors ops threads _ = r at hstatus hloaded
  obtain ⟨status, s⟩ := r
  rw [← hstatus]
  cases status with
  | loaded =>
    refine ⟨Iff.rfl, fun _ => (hloaded rfl).congr (fun slot => ?_) ⟨rfl, rfl, rfl, rfl, rfl, rfl⟩⟩
    cases slot <;> rfl
  | failed => exact ⟨Iff.rfl, fun h => by cases h⟩
  | thrown => exact ⟨Iff.rfl, fun h => by cases h⟩

/-- A file that was opened is within limits. -/
theorem Loads.inLimits (h : Loads ops path content gguf hp) : gguf.tensorFile.InLimits :=
  (GGUFLoader.opened_of_open h.opens).tensors

/-- A file that can be loaded is loaded over any model. -/
theorem Loads.load (h : Loads ops path content gguf hp) (threads : Threads) (m : HydroXLModel α) :
    ∃ m', load ops threads path (.file content) m = (.loaded, m') ∧
      LoadedOver ops gguf.tensorFile hp m m' := by
  obtain ⟨hstatus, hloaded⟩ := load_spec h.opens h.hparams threads m
  have hdone := hstatus.mpr h.admits
  exact ⟨_, Prod.ext hdone rfl, hloaded hdone⟩

theorem loaded_of_load {threads : Threads} {entry : DirEntry} {m₀ m : HydroXLModel α}
    (h : load ops threads path entry m₀ = (.loaded, m)) : m.loaded = true := by
  unfold load at h
  dsimp only at h
  split at h
  · cases h
  · cases h
  · split at h
    · cases h
    · generalize loadTensors ops threads _ = r at h
      obtain ⟨status, s⟩ := r
      cases status with
      | loaded =>
        cases h
        rfl
      | failed => cases h
      | thrown => cases h

/-- What such a file is loaded over has its content then. -/
theorem loadedOver_of_load {threads : Threads} {m m' : HydroXLModel α}
    (h : Loads ops path content gguf hp)
    (hload : load ops threads path (.file content) m = (.loaded, m')) :
    LoadedOver ops gguf.tensorFile hp m m' := by
  obtain ⟨m₁, hm₁, hover⟩ := h.load threads m
  cases hm₁.symm.trans hload
  exact hover

/-- Only a file that can be loaded is loaded. -/
theorem loads_of_load {m m' : HydroXLModel α}
    (h : load ops threads path (.file content) m = (.loaded, m')) :
    ∃ gguf hp, Loads ops path content gguf hp := by
  cases hopen : GGUFLoader.open {} path (some content) with
  | mk done gguf =>
    cases done with
    | false =>
      unfold load at h
      dsimp only at h
      rw [hopen] at h
      cases h
    | true =>
      cases hhparams : hparamsOf ops gguf with
      | none =>
        unfold load at h
        dsimp only at h
        rw [hopen] at h
        dsimp only at h
        have hfalse := (loadHParams_eq ops gguf
          { m with path, loaded := false, memoryBytes := 0 }).1
        rw [hhparams] at hfalse
        generalize loadHParams ops gguf _ = r at h hfalse
        obtain ⟨done, m₁⟩ := r
        obtain rfl : done = false := hfalse
        cases h
      | some hp =>
        exact ⟨gguf, hp, hopen, hhparams, (load_spec hopen hhparams threads m).1.mp (by rw [h])⟩

end Load

/-! ## A smallest file -/

/-- The metadata of a model with one layer in which everything has size one. -/
def smallEntries : List GGUFEntry :=
  ["llm.vocab_size", "qwen2.embedding_length", "qwen2.attention.head_count",
    "qwen2.attention.head_count_kv", "qwen2.block_count", "qwen2.feed_forward_length"].map
      fun key => { key := ofString key, data := .uint32 1 }

/-- A tensor of floats at the start of the data section. -/
def smallTensor (slot : Slot) (shape : List UInt64) : GGUFTensor where
  name := slot.name
  shape := shape
  type := GGMLType.f32
  offset := 0

/-- The tensors without which the model is not loaded. -/
def smallTensors : List GGUFTensor :=
  ((Slot.used 1).filter fun slot => !slot.optional).map fun slot => smallTensor slot [1]

/-- A file whose data section is the number one. -/
def smallFile (tensors : List GGUFTensor) : Bytes :=
  let header := GGUFContent.encode { version := 3, entries := smallEntries, tensors }
  header ++ List.replicate ((32 - header.length % 32) % 32) 0 ++ [0, 0, 128, 63]

end HydroXLModel

end HeteroAccel
