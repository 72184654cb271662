import HeteroAccel.HydroXL.ModelFaithful

/-!
# The bytes of a loaded model

`memory_bytes_` counts four bytes for each element of a tensor that is loaded. A load into any
object starts from zero and adds what each part of the load has added, in 64 bits.

## Main results

* `Counts`: what a part of a load adds to the count, composed like the parts of `ModelLoad`;
* `memoryBytes_of_load`: the count behind a load.
-/

namespace HeteroAccel

open Bytes (ofString)

variable {α δ : Type}

/-- What is added to the count for a tensor. -/
def TensorOutcome.counted : TensorOutcome α → UInt64
  | loaded v => .ofNat v.length * 4
  | _ => 0

/-- A tensor that is not loaded does not count. -/
theorem TensorOutcome.counted_of_ne_loaded {o : TensorOutcome α} (h : o.status ≠ .loaded) :
    o.counted = 0 := by
  cases o with
  | loaded v => exact absurd rfl h
  | _ => rfl

/-- What is added to the count for the tensors of `ss`. -/
def TensorFile.counted (ops : TensorOps α δ) (f : TensorFile) (hp : Qwen2HParams α)
    (ss : List Slot) : UInt64 :=
  (ss.map fun slot => (f.outcome ops hp slot).counted).sum

namespace HydroXLModel

variable {ops : TensorOps α δ} {threads : Threads} {f : TensorFile} {hp : Qwen2HParams α}
  {s s' : Loading α} {slot : Slot} {ss ts : List Slot} {r : LoadStatus × Loading α}
  {next : Loading α → LoadStatus × Loading α}

@[simp]
theorem counted_nil : f.counted ops hp [] = 0 := rfl

@[simp]
theorem counted_singleton (slot : Slot) :
    f.counted ops hp [slot] = (f.outcome ops hp slot).counted := by
  simp [TensorFile.counted]

theorem counted_append (ss ts : List Slot) :
    f.counted ops hp (ss ++ ts) = f.counted ops hp ss + f.counted ops hp ts := by
  unfold TensorFile.counted
  rw [List.map_append, List.sum_append]

/-- A tensor that is stored does not change the counter itself. -/
theorem memoryBytes_setTensor (m : HydroXLModel α) (v : List α) (slot : Slot) :
    (m.setTensor v slot).memoryBytes = m.memoryBytes := by
  cases slot <;> rfl

/-! ## One tensor -/

/-- The count changes with a tensor that is loaded only. -/
theorem memoryBytes_loadTensor_cases (slot : Slot) (s : Loading α) :
    ((loadTensor ops threads slot s).1 ≠ .loaded ∧
        (loadTensor ops threads slot s).2.model.memoryBytes = s.model.memoryBytes) ∨
      ∃ desc nElems, s.gguf.findTensor slot.name = some desc ∧
        checkDesc ops slot.name (slot.expected s.model.hparams) desc = .ok nElems ∧
        (loadTensor ops threads slot s).1 = .loaded ∧
        (loadTensor ops threads slot s).2.model.memoryBytes =
          s.model.memoryBytes + nElems * 4 := by
  unfold loadTensor
  dsimp only
  cases hfind : s.gguf.findTensor slot.name with
  | none => exact .inl ⟨by simp, rfl⟩
  | some desc =>
    dsimp only
    cases hcheck : checkDesc ops slot.name (slot.expected s.model.hparams) desc with
    | error msg => exact .inl ⟨by simp [fail], rfl⟩
    | ok nElems =>
      dsimp only
      by_cases hmax : nElems > maxElems
      · rw [if_pos hmax]
        exact .inl ⟨by simp, rfl⟩
      · rw [if_neg hmax]
        generalize s.gguf.readTensorData desc _ desc.nBytes = r
        obtain ⟨read, rawBuf, gguf⟩ := r
        cases read with
        | false => exact .inl ⟨by simp [fail], memoryBytes_setTensor _ _ _⟩
        | true =>
          dsimp only
          rw [if_neg (by decide)]
          generalize decodeTensor ops threads slot.name desc.type nElems rawBuf _ = decoded
          cases decoded with
          | error msg => exact .inl ⟨by simp [fail], memoryBytes_setTensor _ _ _⟩
          | ok out =>
            refine .inr ⟨desc, nElems, rfl, hcheck, rfl, ?_⟩
            dsimp only
            rw [memoryBytes_setTensor]

variable (ops threads) in
/-- What `loadTensor` adds to the count. -/
theorem memoryBytes_loadTensor (hs : Ready f hp s) (hplace : s.model.HasPlace slot) :
    (loadTensor ops threads slot s).2.model.memoryBytes =
      s.model.memoryBytes + (f.outcome ops hp slot).counted := by
  obtain ⟨hstatus, -⟩ := loadTensor_spec ops threads slot hs hplace
  obtain ⟨hne, hsame⟩ | ⟨desc, nElems, hfind, hcheck, hloaded, hcount⟩ :=
    memoryBytes_loadTensor_cases slot s
  · rw [hsame, TensorOutcome.counted_of_ne_loaded (hstatus ▸ hne), UInt64.add_zero]
  · rw [GGUFLoader.findTensor_eq, hs.file] at hfind
    rw [hs.hparams] at hcheck
    obtain ⟨v, hv⟩ := TensorOutcome.exists_loaded (hstatus ▸ hloaded)
    obtain ⟨desc', hfind', -, -, hcontent⟩ := (outcome_eq_loaded_iff hs.inLimits).mp hv
    obtain rfl : desc' = desc := Option.some.inj (hfind'.symm.trans hfind)
    obtain ⟨t, ht, rfl⟩ := hs.inLimits.exists_tensor hfind
    obtain ⟨helems, -⟩ := checkDesc_ok ht hcheck
    have hlength : v.length = nElems.toNat := (length_of_content hcontent).trans helems.symm
    rw [hcount, hv, TensorOutcome.counted, hlength, UInt64.ofNat_toNat]

/-! ## Parts of a load -/

variable (ops f hp) in
/-- A part that adds the bytes of the tensors of `ss` when it goes through. -/
def Counts (ss : List Slot) (s : Loading α) (r : LoadStatus × Loading α) : Prop :=
  r.1 = .loaded → r.2.model.memoryBytes = s.model.memoryBytes + f.counted ops hp ss

theorem Counts.nil (s : Loading α) : Counts ops f hp [] s (.loaded, s) := by
  intro _
  rw [counted_nil, UInt64.add_zero]

/-- A part behind a part. -/
theorem Counts.andThen (hc : Counts ops f hp ss s r) (hr : Runs ops f hp ss s r)
    (hnext : ∀ s', Stored ops f hp ss s s' → Counts ops f hp ts s' (next s')) :
    Counts ops f hp (ss ++ ts) s (andThen r next) := by
  intro hloaded
  by_cases hfirst : r.1 = .loaded
  · obtain ⟨status, s'⟩ := r
    cases hfirst
    have hsecond := hnext s' (hr.stored rfl) hloaded
    rw [andThen_loaded, hsecond, hc rfl, counted_append, UInt64.add_assoc]
  · rw [andThen_of_ne hfirst] at hloaded
    exact absurd hloaded hfirst

/-- The load of a tensor counts its bytes. -/
theorem counts_loadTensor (hs : Ready f hp s) (hplace : s.model.HasPlace slot) :
    Counts ops f hp [slot] s (loadTensor ops threads slot s) := by
  intro _
  rw [counted_singleton]
  exact memoryBytes_loadTensor ops threads hs hplace

/-- The load of an optional tensor counts its bytes, if it has some. -/
theorem counts_attempt (hs : Ready f hp s) (hplace : s.model.HasPlace slot) :
    Counts ops f hp [slot] s (attempt ops threads slot s) := by
  have hcount := memoryBytes_loadTensor ops threads hs hplace
  intro _
  rw [counted_singleton, ← hcount]
  unfold attempt
  split
  next heq => rw [heq]
  next => rfl

/-- The load of the head counts its bytes, unless it is shared. -/
theorem counts_loadLmHead (hs : Ready f hp s) :
    Counts ops f hp [.lmHead] s (loadLmHead ops threads s) := by
  have hplace : s.model.HasPlace .lmHead := trivial
  have hcount := memoryBytes_loadTensor ops threads hs hplace
  intro _
  rw [counted_singleton, ← hcount]
  unfold loadLmHead
  split
  next heq => rw [heq]
  next heq => rw [heq]
  next => rfl

/-- The load of some tensors of a layer counts their bytes. -/
theorem counts_loadLayerTensors {l : ℕ} (ts : List LayerTensor) (hnodup : ts.Nodup)
    (hs : Ready f hp s) (hl : l < s.model.layers.length) :
    Counts ops f hp (ts.map (Slot.layer l)) s (loadLayerTensors ops threads l ts s) := by
  induction ts generalizing s with
  | nil => exact .nil s
  | cons t ts ih =>
    obtain ⟨-, hnodup⟩ := List.nodup_cons.mp hnodup
    have hplace : s.model.HasPlace (.layer l t) := hl
    change Counts ops f hp ([.layer l t] ++ ts.map (Slot.layer l)) s _
    have hrest : ∀ s', Stored ops f hp [.layer l t] s s' →
        Counts ops f hp (ts.map (Slot.layer l)) s' (loadLayerTensors ops threads l ts s') :=
      fun s' hs' => ih hnodup hs'.ready (hl.trans_eq hs'.layers.symm)
    unfold loadLayerTensors
    split_ifs with hbias
    · exact (counts_attempt hs hplace).andThen (runs_attempt hs hplace hbias) hrest
    · have hrequired : t.isBias = false := Bool.eq_false_of_not_eq_true hbias
      exact (counts_loadTensor hs hplace).andThen (runs_loadTensor hs hplace hrequired) hrest

/-- The check behind the tensors of a layer leaves the count. -/
theorem counts_loadLayer {l : ℕ} (hs : Ready f hp s) (hl : l < s.model.layers.length) :
    Counts ops f hp (Slot.ofLayer l) s (loadLayer ops threads l s) := by
  have htensors : Counts ops f hp (Slot.ofLayer l) s
      (loadLayerTensors ops threads l LayerTensor.all s) :=
    counts_loadLayerTensors _ nodup_all hs hl
  unfold loadLayer
  generalize loadLayerTensors ops threads l LayerTensor.all s = r at htensors
  obtain ⟨status, s'⟩ := r
  intro hloaded
  cases status with
  | loaded =>
    rw [andThen_loaded] at hloaded ⊢
    split_ifs at hloaded ⊢
    · exact htensors rfl
    · cases hloaded
  | failed => cases hloaded
  | thrown => cases hloaded

variable (ops threads) in
/-- The load of the layers counts their bytes. -/
theorem counts_loadLayers (left l : ℕ) (hs : Ready f hp s)
    (hl : l + left ≤ s.model.layers.length) :
    Counts ops f hp (Slot.ofLayers left l) s (loadLayers ops threads left l s) := by
  induction left generalizing l s with
  | zero => exact .nil s
  | succ left ih =>
    have hlist : Slot.ofLayers (left + 1) l = Slot.ofLayer l ++ Slot.ofLayers left (l + 1) := rfl
    rw [hlist]
    have hlength : l < s.model.layers.length := by omega
    refine (counts_loadLayer hs hlength).andThen (runs_loadLayer hs hlength) fun s' hs' => ?_
    exact ih (l + 1) hs'.ready (by rw [hs'.layers]; omega)

variable (ops threads) in
/-- The tensors in front of the layers. -/
theorem counts_head (hs : Ready f hp s) :
    Counts ops f hp [.tokEmbd, .outputNorm, .lmHead] s
      (andThen (loadTensor ops threads .tokEmbd s) fun s =>
        andThen (loadTensor ops threads .outputNorm s) (loadLmHead ops threads)) := by
  change Counts ops f hp ([.tokEmbd] ++ ([.outputNorm] ++ [.lmHead])) s _
  have htok : s.model.HasPlace .tokEmbd := trivial
  refine (counts_loadTensor hs htok).andThen (runs_loadTensor hs htok rfl) fun s₁ hs₁ => ?_
  have hnorm : s₁.model.HasPlace .outputNorm := trivial
  refine (counts_loadTensor hs₁.ready hnorm).andThen (runs_loadTensor hs₁.ready hnorm rfl)
    fun s₂ hs₂ => ?_
  exact counts_loadLmHead hs₂.ready

/-! ## The whole load -/

variable (ops threads) in
/-- A load counts the bytes of all its slots. -/
theorem memoryBytes_loadTensors (hs : Ready f hp s)
    (hloaded : (loadTensors ops threads s).1 = .loaded) :
    (loadTensors ops threads s).2.model.memoryBytes =
      s.model.memoryBytes + f.counted ops hp (Slot.used hp.nLayers.toNat) := by
  have hruns := runs_head ops threads hs
  have hcounts := counts_head ops threads hs
  rw [loadTensors_eq] at hloaded ⊢
  generalize andThen (loadTensor ops threads .tokEmbd s) _ = r at hruns hcounts hloaded
  by_cases hhead : r.1 = .loaded
  · obtain ⟨status, s₁⟩ := r
    cases hhead
    have hs₁ := hruns.stored rfl
    have hhparams : s₁.model.hparams = hp := hs₁.ready.hparams
    rw [andThen_loaded, hhparams] at hloaded ⊢
    set s₂ : Loading α :=
      { s₁ with model.layers := resize {} s₁.model.layers hp.nLayers.toNat } with hs₂
    have hready : Ready f hp s₂ := ⟨hs₁.ready.opened, hs₁.ready.file, hhparams⟩
    have hlength : s₂.model.layers.length = hp.nLayers.toNat := length_resize _ _ _
    have hlayers := counts_loadLayers ops threads hp.nLayers.toNat 0 hready (by omega) hloaded
    have hfirst : s₁.model.memoryBytes = _ := hcounts rfl
    rw [hlayers, Slot.used, counted_append, ← UInt64.add_assoc, ← hfirst]
  · rw [andThen_of_ne hhead] at hloaded
    exact absurd hloaded hhead

variable {path : Bytes} {content : FileContent} {gguf : GGUFLoader} {m m' : HydroXLModel α}

/-- The count of a model that is loaded. -/
theorem memoryBytes_of_load (hloads : Loads ops path content gguf hp)
    (hload : load ops threads path (.file content) m = (.loaded, m')) :
    m'.memoryBytes = gguf.tensorFile.counted ops hp (Slot.used hp.nLayers.toNat) := by
  unfold load at hload
  dsimp only at hload
  rw [hloads.opens] at hload
  dsimp only at hload
  rw [(loadHParams_eq ops gguf _).2 hp hloads.hparams] at hload
  dsimp only at hload
  have hready : Ready gguf.tensorFile hp
      { gguf, model := { m with path, loaded := false, memoryBytes := 0, hparams := hp } } :=
    ⟨GGUFLoader.opened_of_open hloads.opens, rfl, rfl⟩
  have hcount := memoryBytes_loadTensors ops threads hready
  generalize loadTensors ops threads _ = r at hcount hload
  obtain ⟨status, s⟩ := r
  cases status with
  | loaded =>
    cases hload
    exact (hcount rfl).trans (UInt64.zero_add _)
  | failed => cases hload
  | thrown => cases hload

/-! ## The count as a natural number -/

variable (ops f hp) in
/-- The elements that a slot is counted with. -/
def elements (slot : Slot) : ℕ :=
  match f.outcome ops hp slot with
  | .loaded v => v.length
  | _ => 0

/-- A loaded slot has as many elements as its tensor. -/
theorem elements_of_loaded {v : List α} (h : f.outcome ops hp slot = .loaded v) :
    elements ops f hp slot = v.length := by
  unfold elements
  rw [h]

/-- A slot that is not loaded has no element. -/
theorem elements_of_ne_loaded (h : (f.outcome ops hp slot).status ≠ .loaded) :
    elements ops f hp slot = 0 := by
  unfold elements
  cases houtcome : f.outcome ops hp slot with
  | loaded v => exact absurd (by rw [houtcome]; rfl) h
  | _ => rfl

/-- The count is that of the natural numbers, reduced. -/
theorem counted_eq_ofNat (ss : List Slot) :
    f.counted ops hp ss = .ofNat (4 * (ss.map (elements ops f hp)).sum) := by
  induction ss with
  | nil => rfl
  | cons slot ss ih =>
    have hone : (f.outcome ops hp slot).counted = .ofNat (4 * elements ops f hp slot) := by
      unfold elements
      cases f.outcome ops hp slot with
      | loaded v => rw [TensorOutcome.counted, Nat.mul_comm, UInt64.ofNat_mul]; rfl
      | _ => rfl
    rw [← List.singleton_append, counted_append, counted_singleton, ih, hone, ← UInt64.ofNat_add,
      List.map_append, List.sum_append, Nat.mul_add]
    simp

variable (ops) in
/-- A tensor that is loaded has the size that the model needs. -/
theorem elements_eq_ite (hf : f.InLimits) (hvalid : hp.Valid) (hfit : hp.SizesFit) (slot : Slot) :
    elements ops f hp slot =
      if (f.outcome ops hp slot).status = .loaded then slot.size hp else 0 := by
  split_ifs with hloaded
  · obtain ⟨v, hv⟩ := TensorOutcome.exists_loaded hloaded
    obtain ⟨desc, hfind, -, -, -⟩ := (outcome_eq_loaded_iff hf).mp hv
    obtain ⟨hsound, hcontent⟩ := sound_of_outcome hf hvalid hfit hfind hv
    rw [elements_of_loaded hv, length_of_content hcontent, hsound.volume]
  · exact elements_of_ne_loaded hloaded

variable (ops) in
/-- No more is counted than the sizes of the tensors, and as much only if all are loaded. -/
theorem sum_elements_le (hf : f.InLimits) (hvalid : hp.Valid) (hfit : hp.SizesFit)
    (ss : List Slot) :
    (ss.map (elements ops f hp)).sum ≤ (ss.map (Slot.size hp)).sum ∧
      ((ss.map (elements ops f hp)).sum = (ss.map (Slot.size hp)).sum ↔
        ∀ slot ∈ ss, (f.outcome ops hp slot).status = .loaded) := by
  induction ss with
  | nil => simp
  | cons slot ss ih =>
    obtain ⟨hle, heq⟩ := ih
    have hone := elements_eq_ite ops hf hvalid hfit slot
    have hpos := size_pos hvalid hfit.1 slot
    rw [List.map_cons, List.sum_cons, List.map_cons, List.sum_cons, List.forall_mem_cons, ← heq]
    split_ifs at hone with hloaded
    · rw [hone]
      simp only [hloaded, true_and]
      omega
    · rw [hone]
      simp only [hloaded, false_and, iff_false]
      omega

end HydroXLModel
end HeteroAccel
