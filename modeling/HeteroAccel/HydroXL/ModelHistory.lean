import HeteroAccel.HydroXL.ModelLoad

/-!
# Loading over an earlier model

An object is loaded again and again; what is there of the new model and what of the old ones? All
required tensors, the hyper-parameters and the tied-head flag are those of the new file, and so is
the LM head, which is cleared when the file has none. The biases are not cleared: one that the new
file does not load stays as it was.

## Main results

* `forgets_iff`: a load leaves what it leaves in a fresh object exactly when the biases that it does
  not load were clear.
-/

namespace HeteroAccel

open Bytes (ofString)

variable {α δ : Type}

/-- What was in the output does not show: it was empty or is replaced, or is filled up with what it
consists of. -/
def TensorOutcome.Clears (fill : α) (old : List α) : TensorOutcome α → Prop
  | untouched => old = []
  | broken n => ∀ x ∈ old.take n, x = fill
  | thrown => True
  | loaded _ => True

namespace HydroXLModel

variable (ops : TensorOps α δ)

/-- One call of `load`. -/
structure LoadCall where
  threads : Threads := {}
  path : Bytes
  entry : DirEntry

/-- A call of `load` on a model that may have been loaded before. -/
def LoadCall.run (call : LoadCall) (m : HydroXLModel α) : LoadStatus × HydroXLModel α :=
  load ops call.threads call.path call.entry m

/-- An object after some calls of `load`, whether they succeed or not. -/
def loads (calls : List LoadCall) : HydroXLModel α :=
  calls.foldl (fun m call => (call.run ops m).2) (fresh ops)

/-- A load of the file over the model `m` that succeeds leaves what a successful load leaves in a
fresh object. -/
def Forgets (call call' : LoadCall) (m : HydroXLModel α) : Prop :=
  ∀ m', call.run ops m = (.loaded, m') →
    ∃ m'', call'.run ops (fresh ops) = (.loaded, m'') ∧ SameWeights m' m''

/-- The biases of the layers that the file does not load are clear. -/
def BiasesClear (f : TensorFile) (hp : Qwen2HParams α) (m : HydroXLModel α) : Prop :=
  ∀ l < hp.nLayers.toNat, ∀ t : LayerTensor, t.isBias = true →
    (f.outcome ops hp (.layer l t)).Clears ops.zero (m.tensor (.layer l t))

section Results

variable {ops} {f : TensorFile} {hp : Qwen2HParams α} {slot : Slot} {m m' m'' : HydroXLModel α}

theorem resize_eq_resize_nil_iff (fill : α) (old : List α) (n : ℕ) :
    resize fill old n = resize fill [] n ↔ ∀ x ∈ old.take n, x = fill := by
  have hnil : resize fill [] n = List.replicate n fill := by
    simp [resize]
  rw [hnil, List.eq_replicate_iff, and_iff_right (length_resize fill old n)]
  constructor
  · exact fun h x hx => h x (List.mem_append_left _ hx)
  · intro h x hx
    obtain hx | hx := List.mem_append.mp hx
    · exact h x hx
    · exact List.eq_of_mem_replicate hx

theorem after_eq_after_nil_iff (fill : α) (old : List α) {o : TensorOutcome α}
    (hthrown : o.status ≠ .thrown) : o.after fill old = o.after fill [] ↔ o.Clears fill old := by
  cases o with
  | untouched => exact Iff.rfl
  | thrown => exact absurd rfl hthrown
  | broken n => exact resize_eq_resize_nil_iff fill old n
  | loaded v => exact iff_of_true rfl trivial

/-- Only the biases can keep what they held. -/
theorem stored_eq_stored_nil_iff (h : f.Admits ops hp slot) (old : List α) :
    f.stored ops hp slot old = f.stored ops hp slot [] ↔
      ∀ l t, slot = .layer l t → t.isBias = true → (f.outcome ops hp slot).Clears ops.zero old := by
  cases hoptional : slot.optional with
  | false =>
    obtain ⟨v, hv⟩ := h.exists_loaded hoptional
    rw [TensorFile.stored_of_loaded hv, TensorFile.stored_of_loaded hv]
    refine iff_of_true rfl fun l t heq hbias => ?_
    rw [hv]
    trivial
  | true =>
    have hthrown : (f.outcome ops hp slot).status ≠ .thrown := by
      obtain h | ⟨-, h⟩ := h <;> rw [h] <;> decide
    by_cases hlm : slot = .lmHead
    · subst hlm
      refine iff_of_true ?_ fun l t heq => by cases heq
      obtain h | ⟨-, h⟩ := h
      · obtain ⟨v, hv⟩ := TensorOutcome.exists_loaded h
        rw [TensorFile.stored_of_loaded hv, TensorFile.stored_of_loaded hv]
      · rw [TensorFile.stored, TensorFile.stored, if_pos ⟨rfl, h⟩, if_pos ⟨rfl, h⟩]
    · obtain ⟨l, t, rfl, hbias⟩ : ∃ l t, slot = .layer l t ∧ t.isBias = true := by
        cases slot with
        | layer l t => exact ⟨l, t, rfl, hoptional⟩
        | lmHead => exact absurd rfl hlm
        | _ => cases hoptional
      rw [TensorFile.stored, TensorFile.stored, if_neg (fun h => hlm h.1),
        if_neg (fun h => hlm h.1),
        after_eq_after_nil_iff _ _ hthrown]
      exact ⟨fun h _ _ _ _ => h, fun h => h l t rfl hbias⟩

/-- Two models that are loaded from a file have the same weights when the same is in all slots. -/
theorem sameWeights_iff (h : LoadedOver ops f hp m m') (h' : LoadedOver ops f hp (fresh ops) m'') :
    SameWeights m' m'' ↔ ∀ slot ∈ Slot.used hp.nLayers.toNat,
      f.stored ops hp slot (m.tensor slot) = f.stored ops hp slot [] := by
  have htensor : ∀ slot ∈ Slot.used hp.nLayers.toNat, (m'.tensor slot = m''.tensor slot ↔
      f.stored ops hp slot (m.tensor slot) = f.stored ops hp slot []) := fun slot hslot => by
    rw [h.tensor slot hslot, h'.tensor slot hslot, tensor_fresh]
  constructor
  · exact fun hsame slot hslot => (htensor slot hslot).mp (hsame.tensor slot)
  · intro hall
    have hslots : ∀ slot ∈ Slot.used hp.nLayers.toNat, m'.tensor slot = m''.tensor slot :=
      fun slot hslot => (htensor slot hslot).mpr (hall slot hslot)
    refine ⟨h.hparams.trans h'.hparams.symm, h.tied.trans h'.tied.symm, ?_, ?_, ?_, ?_⟩
    · exact hslots .tokEmbd (by simp [Slot.used])
    · exact hslots .outputNorm (by simp [Slot.used])
    · exact hslots .lmHead (by simp [Slot.used])
    · refine List.ext_getElem (h.layers.trans h'.layers.symm) fun l hl hl' => ?_
      refine LayerTensor.ext_get fun t => ?_
      have hlayer := hslots (.layer l t) (Slot.layer_mem_used (hl.trans_eq h.layers) t)
      change t.get (m'.layers.getD l {}) = t.get (m''.layers.getD l {}) at hlayer
      simpa [List.getD_eq_getElem?_getD, List.getElem?_eq_getElem hl,
        List.getElem?_eq_getElem hl'] using hlayer

/-- What shows of the model `m` in a load of a file over it. -/
theorem forgets_of_model_iff (threads threads' : Threads) (path : Bytes) (content : FileContent)
    (m : HydroXLModel α) :
    Forgets ops { threads, path, entry := .file content }
        { threads := threads', path, entry := .file content } m ↔
      ∀ gguf hp, Loads ops path content gguf hp → BiasesClear ops gguf.tensorFile hp m := by
  constructor
  · intro hforgets gguf hp hloads l hl t hbias
    obtain ⟨m', hm', hover⟩ := hloads.load threads m
    obtain ⟨m₁, hm₁, hover₁⟩ := hloads.load threads' (fresh ops)
    obtain ⟨m'', hm'', hsame⟩ := hforgets m' hm'
    obtain rfl : m₁ = m'' := congrArg Prod.snd (hm₁.symm.trans hm'')
    have hmem : Slot.layer l t ∈ Slot.used hp.nLayers.toNat := Slot.layer_mem_used hl t
    have hstored := (sameWeights_iff hover hover₁).mp hsame _ hmem
    exact (stored_eq_stored_nil_iff (hloads.admits _ hmem) _).mp hstored l t rfl hbias
  · intro hclear m' hm'
    obtain ⟨gguf, hp, hloads⟩ := loads_of_load hm'
    obtain ⟨m₀, hm₀, hover⟩ := hloads.load threads m
    obtain rfl : m₀ = m' := congrArg Prod.snd (hm₀.symm.trans hm')
    obtain ⟨m'', hm'', hover''⟩ := hloads.load threads' (fresh ops)
    refine ⟨m'', hm'', (sameWeights_iff hover hover'').mpr fun slot hslot => ?_⟩
    refine (stored_eq_stored_nil_iff (hloads.admits _ hslot) _).mpr ?_
    rintro l t rfl hbias
    exact hclear gguf hp hloads l (Slot.layer_mem_used_iff.mp hslot) t hbias

/-- **A load forgets all but the biases.** After any earlier loads, a load that succeeds leaves the
weights, biases, hyper-parameters and tied-head flag that it leaves in a fresh object, exactly when
the biases that the file does not load were clear. -/
theorem forgets_iff (calls : List LoadCall) (threads threads' : Threads) (path : Bytes)
    (content : FileContent) :
    Forgets ops { threads, path, entry := .file content }
        { threads := threads', path, entry := .file content } (loads ops calls) ↔
      ∀ gguf hp, Loads ops path content gguf hp →
        BiasesClear ops gguf.tensorFile hp (loads ops calls) :=
  forgets_of_model_iff threads threads' path content (loads ops calls)

end Results

/-! ## A bias that is left -/

/-- A model with a bias, behind which one without is loaded. -/
def withBias : FileContent where
  bytes := smallFile (smallTensors ++ [smallTensor (.layer 0 .attnQBias) [1]])
  length_lt := by decide +kernel

/-- A file without biases. -/
def withoutBias : FileContent where
  bytes := smallFile smallTensors
  length_lt := by decide +kernel

/-- The load of a file with a bias. -/
def loadWithBias : LoadCall := { path := ofString "a", entry := .file withBias }

/-- The load of the file without biases. -/
def loadWithoutBias : LoadCall := { path := ofString "b", entry := .file withoutBias }

/-- A load is not forgotten whose model has other layers than the one that is loaded into a fresh
object. -/
theorem not_forgets_of_layers_ne {ops : TensorOps α δ} {call call' : LoadCall} {m : HydroXLModel α}
    (hload : (call.run ops m).1 = .loaded)
    (hlayers : (call.run ops m).2.layers ≠ (call'.run ops (fresh ops)).2.layers) :
    ¬Forgets ops call call' m := by
  intro h
  obtain ⟨m'', hfresh, hsame⟩ := h _ (Prod.ext hload rfl)
  have hm'' : (call'.run ops (fresh ops)).2 = m'' := (Prod.ext_iff.mp hfresh).2
  rw [hm''] at hlayers
  exact hlayers hsame.layers

/-- The bias of the earlier model is left. -/
theorem not_forgets : ¬∀ (calls : List LoadCall) (threads threads' : Threads) (path : Bytes)
    (content : FileContent),
    Forgets rationalOps { threads, path, entry := .file content }
      { threads := threads', path, entry := .file content } (loads rationalOps calls) := by
  intro h
  -- the second load succeeds
  obtain ⟨hload, hlayers⟩ : (loadWithoutBias.run rationalOps (loads rationalOps [loadWithBias])).1 =
        .loaded ∧
      (loadWithoutBias.run rationalOps (loads rationalOps [loadWithBias])).2.layers ≠
        (loadWithoutBias.run rationalOps (fresh rationalOps)).2.layers := by
    decide +kernel
  exact not_forgets_of_layers_ne hload hlayers
    (h [loadWithBias] {} {} (ofString "b") withoutBias)

end HydroXLModel

end HeteroAccel
