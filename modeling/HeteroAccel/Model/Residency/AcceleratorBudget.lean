import HeteroAccel.Model.Residency.Accounting

/-!
# The accelerator's buffers and its budget

When the accelerator memory keeps its promises (`IAcceleratorMemory.Spec`), each accelerator
pointer of a record denotes a buffer of its own that holds the record's RAM bytes, so the bytes
resident on the accelerator are bounded by its capacity, by the RAM budget and by the host's
memory. `budget_.accelerator_bytes` is read nowhere: it bounds them exactly when one of the three
does.
-/

namespace HeteroAccel

variable {ρ σ α : Type} {cx : ResidencyContext ρ σ α} {M : IAcceleratorMemory σ α} {capacity : ℕ}
  {spec : M.Spec capacity}

namespace ModelResidencyManager

variable {m m' : ModelResidencyManager σ} {id : UInt64} {rec rec' : Record} {foreign : ℕ}

/-- The accelerator holds each record's bytes in a buffer of its own, and `foreign` bytes beside
them. -/
structure AccelHolds (spec : M.Spec capacity) (foreign : ℕ) (m : ModelResidencyManager σ) :
    Prop where
  valid : spec.Valid m.accelMemory
  holds : ∀ id rec p, m.records.lookup id = some rec → rec.accel = some p →
    ∃ bytes, rec.ram = some bytes ∧ (spec.buffers m.accelMemory).lookup p = some bytes
  distinct : ∀ id id' rec rec' p, m.records.lookup id = some rec →
    m.records.lookup id' = some rec' → rec.accel = some p → rec'.accel = some p → id = id'
  owned : bufferBytes (spec.buffers m.accelMemory) = m.accelTotal + foreign

namespace AccelHolds

/-- A change of one record and of buffers no other record points to. -/
theorem change (h : AccelHolds spec foreign m) (id : UInt64) (hvalid : spec.Valid m'.accelMemory)
    (hother : ∀ id', id' ≠ id → m'.records.lookup id' = m.records.lookup id')
    (hbuffers : ∀ id' rec p, id' ≠ id → m.records.lookup id' = some rec → rec.accel = some p →
      (spec.buffers m'.accelMemory).lookup p = (spec.buffers m.accelMemory).lookup p)
    (hself : ∀ rec p, m'.records.lookup id = some rec → rec.accel = some p →
      (∃ bytes, rec.ram = some bytes ∧ (spec.buffers m'.accelMemory).lookup p = some bytes) ∧
        ∀ id' rec', id' ≠ id → m.records.lookup id' = some rec' → rec'.accel ≠ some p)
    (howned : bufferBytes (spec.buffers m'.accelMemory) = m'.accelTotal + foreign) :
    AccelHolds spec foreign m' := by
  refine ⟨hvalid, ?_, ?_, howned⟩
  · intro id₁ rec₁ p hrec₁ hp
    by_cases hid : id₁ = id
    · exact (hself rec₁ p (hid ▸ hrec₁) hp).1
    · rw [hother id₁ hid] at hrec₁
      obtain ⟨bytes, hram, hlookup⟩ := h.holds id₁ rec₁ p hrec₁ hp
      exact ⟨bytes, hram, (hbuffers id₁ rec₁ p hid hrec₁ hp).trans hlookup⟩
  · intro id₁ id₂ rec₁ rec₂ p hrec₁ hrec₂ hp₁ hp₂
    -- at most one of two records is the changed one
    by_cases hid₁ : id₁ = id
    · by_cases hid₂ : id₂ = id
      · exact hid₁.trans hid₂.symm
      · rw [hother id₂ hid₂] at hrec₂
        exact absurd hp₂ ((hself rec₁ p (hid₁ ▸ hrec₁) hp₁).2 id₂ rec₂ hid₂ hrec₂)
    · rw [hother id₁ hid₁] at hrec₁
      by_cases hid₂ : id₂ = id
      · exact absurd hp₁ ((hself rec₂ p (hid₂ ▸ hrec₂) hp₂).2 id₁ rec₁ hid₁ hrec₁)
      · rw [hother id₂ hid₂] at hrec₂
        exact h.distinct id₁ id₂ rec₁ rec₂ p hrec₁ hrec₂ hp₁ hp₂

/-- Replacing a record by one with the same buffers, or one that is not on the accelerator by
another such, while the live buffers stay what they are. -/
theorem replace (h : AccelHolds spec foreign m) (hrec : m.records.lookup id = some rec)
    (hrecords : m'.records = m.records.insert id rec')
    (hsame : (rec'.accel = none ∧ rec.accel = none) ∨ rec'.accel = rec.accel ∧ rec'.ram = rec.ram)
    (hregion : rec'.region = rec.region) (hvalid : spec.Valid m'.accelMemory)
    (hbuffers : ∀ p, (spec.buffers m'.accelMemory).lookup p =
      (spec.buffers m.accelMemory).lookup p) : AccelHolds spec foreign m' := by
  have hbytes : bufferBytes (spec.buffers m'.accelMemory) =
      bufferBytes (spec.buffers m.accelMemory) := KeyedMap.total_eq_of_lookup_eq hbuffers
  refine h.change id hvalid ?_ (fun _ _ p _ _ _ => hbuffers p) ?_ ?_
  · intro id' hid
    rw [hrecords, KeyedMap.lookup_insert_eq_ite, if_neg hid]
  · intro rec₁ p hrec₁ hp
    rw [hrecords, AList.lookup_insert, Option.some.injEq] at hrec₁
    subst hrec₁
    rcases hsame with ⟨hnone, -⟩ | ⟨haccel, hram⟩
    · rw [hnone] at hp
      cases hp
    · rw [haccel] at hp
      rw [hram, hbuffers]
      refine ⟨h.holds id rec p hrec hp, fun id' rec₂ hid hrec₂ hp₂ => hid ?_⟩
      exact h.distinct id' id rec₂ rec p hrec₂ hrec hp₂ hp
  · have htotals := (Accounted.totals_insert m' hrec hrecords).2
    have hsize : rec'.accelSize = rec.accelSize := by
      unfold Record.accelSize
      rcases hsame with ⟨hnone, hnone'⟩ | ⟨haccel, -⟩
      · simp [hnone, hnone']
      · rw [haccel, hregion]
    have := h.owned
    omega

/-- Giving back the buffer of a record that leaves the accelerator. -/
theorem giveBack (h : AccelHolds spec foreign m) (hacc : Accounted cx m) {p : ℕ}
    (hrec : m.records.lookup id = some rec) (hp : rec.accel = some p)
    (hmemory : m'.accelMemory = M.release m.accelMemory p)
    (hother : ∀ id', id' ≠ id → m'.records.lookup id' = m.records.lookup id')
    (hself : ∀ rec, m'.records.lookup id = some rec → rec.accel = none)
    (htotal : m'.accelTotal + rec.region.size.toNat = m.accelTotal) :
    AccelHolds spec foreign m' := by
  have hbuffers : spec.buffers m'.accelMemory = (spec.buffers m.accelMemory).erase p := by
    rw [hmemory]
    exact spec.release_buffers _ p h.valid
  refine h.change id ?_ hother ?_ ?_ ?_
  · rw [hmemory]
    exact spec.valid_release _ p h.valid
  · intro id' rec' q hid hrec' hq
    -- the buffers of other records are other buffers
    have hne : q ≠ p := by
      rintro rfl
      exact hid (h.distinct id' id rec' rec q hrec' hrec hq hp)
    rw [hbuffers, KeyedMap.lookup_erase_eq_ite, if_neg hne]
  · intro rec' q hrec' hq
    rw [hself rec' hrec'] at hq
    cases hq
  · obtain ⟨bytes, hram, hlookup⟩ := h.holds id rec p hrec hp
    have hlen := length_of_fileSlice ((hacc.atRest id rec hrec).content bytes hram)
    have herase : bufferBytes ((spec.buffers m.accelMemory).erase p) + bytes.length =
        bufferBytes (spec.buffers m.accelMemory) :=
      KeyedMap.total_erase (f := fun _ b => b.length) hlookup
    have := h.owned
    rw [hbuffers]
    omega

/-- A dropped record gives its buffer back. -/
theorem drop (h : AccelHolds spec foreign m) (hacc : Accounted cx m)
    (hM : cx.accelerator = some M) (hrec : m.records.lookup id = some rec) :
    AccelHolds spec foreign (m.dropRecord cx id rec) := by
  have htotal : (m.dropRecord cx id rec).accelTotal + rec.accelSize = m.accelTotal := by
    unfold accelTotal
    rw [dropRecord_records]
    exact KeyedMap.total_erase (f := fun _ rec => rec.accelSize) hrec
  have hmemory : (m.dropRecord cx id rec).accelMemory = _ := dropRecord_accelMemory
  have hother : ∀ id', id' ≠ id →
      (m.dropRecord cx id rec).records.lookup id' = m.records.lookup id' := by
    intro id' hid
    rw [lookup_dropRecord, if_neg hid]
  have hself : (m.dropRecord cx id rec).records.lookup id = none := by
    rw [lookup_dropRecord, if_pos rfl]
  cases hp : rec.accel with
  | some p =>
    -- the buffer of the record goes back to the device
    simp only [hp, hM] at hmemory
    refine h.giveBack hacc hrec hp hmemory hother ?_ ?_
    · intro rec' hrec'
      rw [hself] at hrec'
      cases hrec'
    · simpa [Record.accelSize, hp] using htotal
  | none =>
    -- a record without a buffer leaves the device alone
    simp only [hp] at hmemory
    refine h.change id (hmemory ▸ h.valid) hother (fun _ _ _ _ _ _ => by rw [hmemory]) ?_ ?_
    · intro rec' p hrec'
      rw [hself] at hrec'
      cases hrec'
    · have hnone : rec.accelSize = 0 := by simp [Record.accelSize, hp]
      have := h.owned
      rw [hmemory]
      omega

theorem demote (h : AccelHolds spec foreign m) (hacc : Accounted cx m) {p : ℕ}
    (hrec : m.records.lookup id = some rec) (hp : rec.accel = some p) :
    AccelHolds spec foreign (m.demote M id rec p) := by
  have htotal := (Accounted.totals_insert (m.demote M id rec p) hrec demote_records).2
  simp only [Record.accelSize, hp, Option.isSome_some, Option.isSome_none, ↓reduceIte,
    Bool.false_eq_true, Nat.add_zero] at htotal
  refine h.giveBack hacc hrec hp rfl ?_ ?_ htotal
  · intro id' hid
    rw [lookup_demote, if_neg hid]
  · intro rec' hrec'
    rw [lookup_demote, if_pos rfl] at hrec'
    cases hrec'
    rfl

/-- A refused allocation changes nothing on the accelerator. -/
theorem uploadRefused (h : AccelHolds spec foreign m) {env : α}
    (hrec : m.records.lookup id = some rec)
    (halloc : (M.allocate env m.accelMemory rec.region.size).1 = none) :
    AccelHolds spec foreign
      (m.uploadFailed id rec M (M.allocate env m.accelMemory rec.region.size).2).2 := by
  refine h.replace hrec rfl (.inr ⟨rfl, rfl⟩) rfl (spec.valid_allocate _ _ _ h.valid) fun p => ?_
  change (spec.buffers (M.allocate env m.accelMemory rec.region.size).2).lookup p = _
  rw [spec.allocate_none _ _ _ h.valid halloc]

/-- A failed upload gives its buffer back. -/
theorem uploadAborted (h : AccelHolds spec foreign m) {env : α} {dst : ℕ}
    (hrec : m.records.lookup id = some rec)
    (halloc : (M.allocate env m.accelMemory rec.region.size).1 = some dst)
    (hupload : (M.upload env (M.allocate env m.accelMemory rec.region.size).2
      (rec.ram.getD []) dst rec.region.size).1 = false) :
    AccelHolds spec foreign (m.uploadFailed id rec M
      (M.release (M.upload env (M.allocate env m.accelMemory rec.region.size).2
        (rec.ram.getD []) dst rec.region.size).2 dst)).2 := by
  set a := (M.allocate env m.accelMemory rec.region.size).2
  set a' := (M.upload env a (rec.ram.getD []) dst rec.region.size).2
  have hvalid : spec.Valid a := spec.valid_allocate _ _ _ h.valid
  have hvalid' : spec.Valid a' := spec.valid_upload _ _ _ _ _ hvalid
  obtain ⟨hfresh, b, -, hgranted⟩ := spec.allocate_some _ _ _ _ h.valid halloc
  refine h.replace hrec rfl (.inr ⟨rfl, rfl⟩) rfl (spec.valid_release _ _ hvalid') fun p => ?_
  change (spec.buffers (M.release a' dst)).lookup p = _
  rw [spec.release_buffers _ _ hvalid', KeyedMap.lookup_erase_eq_ite]
  split
  next heq => rw [heq, hfresh]
  next hne =>
    rw [spec.upload_false _ _ _ _ _ hvalid hupload p hne, hgranted, AList.lookup_insert_ne hne]

theorem uploaded (h : AccelHolds spec foreign m) (hacc : Accounted cx m) {env : α} {dst : ℕ}
    (hrec : m.records.lookup id = some rec) (hstate : rec.state = .residentInRam)
    (halloc : (M.allocate env m.accelMemory rec.region.size).1 = some dst)
    (hupload : (M.upload env (M.allocate env m.accelMemory rec.region.size).2
      (rec.ram.getD []) dst rec.region.size).1 = true) :
    AccelHolds spec foreign (m.uploaded id rec dst
      (M.upload env (M.allocate env m.accelMemory rec.region.size).2
        (rec.ram.getD []) dst rec.region.size).2) := by
  set a := (M.allocate env m.accelMemory rec.region.size).2
  set a' := (M.upload env a (rec.ram.getD []) dst rec.region.size).2
  have hrest := hacc.atRest id rec hrec
  have hvalid : spec.Valid a := spec.valid_allocate _ _ _ h.valid
  obtain ⟨hfresh, b, hb, hgranted⟩ := spec.allocate_some _ _ _ _ h.valid halloc
  have hsome : rec.ram.isSome = true :=
    hrest.ram_iff.mpr (by simp [ModelResidencyState.satisfies, hstate])
  obtain ⟨bytes, hram⟩ := Option.isSome_iff_exists.mp hsome
  have hlen : bytes.length = rec.region.size.toNat :=
    length_of_fileSlice (hrest.content bytes hram)
  -- the buffer is new, and holds the record's bytes after the upload
  have hbuffers :
      spec.buffers a' = ((spec.buffers m.accelMemory).insert dst b).insert dst bytes := by
    have hfilled := spec.upload_true env a (rec.ram.getD []) dst rec.region.size hvalid hupload
      ⟨b, by rw [hgranted]; exact AList.lookup_insert _, hb⟩ (by simpa [hram] using hlen)
    rw [hgranted, hram] at hfilled
    simpa [a', hram] using hfilled
  have hlookup : ∀ p, (spec.buffers a').lookup p =
      if p = dst then some bytes else (spec.buffers m.accelMemory).lookup p := by
    intro p
    rw [hbuffers, KeyedMap.lookup_insert_eq_ite]
    split
    next => rfl
    next hne => rw [AList.lookup_insert_ne hne]
  have hne : ∀ id' rec', m.records.lookup id' = some rec' → rec'.accel ≠ some dst := by
    intro id' rec' hrec' hp
    obtain ⟨_, -, hlive⟩ := h.holds id' rec' dst hrec' hp
    rw [hfresh] at hlive
    cases hlive
  refine h.change id (spec.valid_upload _ _ _ _ _ hvalid) ?_ ?_ ?_ ?_
  · intro id' hid
    exact AList.lookup_insert_ne hid
  · intro id' rec' p _ hrec' hp
    change (spec.buffers a').lookup p = _
    rw [hlookup, if_neg]
    rintro rfl
    exact hne id' rec' hrec' hp
  · intro rec' p hrec' hp
    have hself : (m.uploaded id rec dst a').records.lookup id = some { rec with
        accel := some dst, state := .residentInAccelerator, transferring := false } :=
      AList.lookup_insert _
    rw [hself, Option.some.injEq] at hrec'
    subst hrec'
    cases hp
    refine ⟨⟨bytes, hram, ?_⟩, fun id' rec' _ hrec' => hne id' rec' hrec'⟩
    change (spec.buffers a').lookup dst = _
    rw [hlookup, if_pos rfl]
  · have htotals := (Accounted.totals_insert (m.uploaded id rec dst a') hrec rfl).2
    have haccel : rec.accel = none :=
      hrest.accel_eq_none (by simp [ModelResidencyState.satisfies, hstate])
    simp only [Record.accelSize, haccel, Option.isSome_some, Option.isSome_none, ↓reduceIte,
      Bool.false_eq_true, Nat.add_zero] at htotals
    have hgrow : bufferBytes (spec.buffers a') =
        bufferBytes (spec.buffers m.accelMemory) + bytes.length := by
      have hinsert : bufferBytes (spec.buffers a') =
          bufferBytes ((spec.buffers m.accelMemory).insert dst bytes) := by
        refine KeyedMap.total_eq_of_lookup_eq fun p => ?_
        rw [hlookup, KeyedMap.lookup_insert_eq_ite]
      rw [hinsert]
      exact KeyedMap.total_insert_of_notMem hfresh
    have := h.owned
    change bufferBytes (spec.buffers a') = _
    omega

/-- Every elementary change keeps the records' bytes on the accelerator. -/
theorem step (h : AccelHolds spec foreign m) (hacc : Accounted cx m)
    (hM : cx.accelerator = some M) (hstep : ResidencyStep cx m m') :
    AccelHolds spec foreign m' := by
  -- three kinds of step reach the memory of the device: drop, demote and upload
  cases hstep with
  | note hrecords haccel =>
    refine ⟨haccel ▸ h.valid, ?_, ?_, ?_⟩
    · rw [hrecords, haccel]
      exact h.holds
    · rw [hrecords]
      exact h.distinct
    · rw [accelTotal, hrecords, haccel]
      exact h.owned
  | create hvalid hnew =>
    rename_i region
    refine h.change region.id h.valid ?_ (fun _ _ _ _ _ _ => rfl) ?_ ?_
    · intro id' hid
      exact AList.lookup_insert_ne hid
    · intro rec' p hrec' hp
      rw [setRecord_records, AList.lookup_insert, Option.some.injEq] at hrec'
      subst hrec'
      cases hp
    · have htotal : (m.setRecord region.id { region }).accelTotal = m.accelTotal := by
        simp [accelTotal, KeyedMap.total_insert_of_notMem hnew, Record.accelSize]
      rw [htotal]
      exact h.owned
  | mark _ _ _ hrec =>
    exact h.replace hrec setRecord_records (.inr ⟨rfl, rfl⟩) rfl h.valid fun _ => rfl
  | drop hrec => exact h.drop hacc hM hrec
  | demote hM' hrec _ _ hp =>
    rw [hM] at hM'
    cases hM'
    exact h.demote hacc hrec hp
  | loadFailed _ hrec => exact h.replace hrec rfl (.inr ⟨rfl, rfl⟩) rfl h.valid fun _ => rfl
  | loaded hrec hstate =>
    have haccel := (hacc.atRest _ _ hrec).accel_eq_none
      (Record.AtRest.satisfies_accelerator_of_ram hstate)
    exact h.replace hrec rfl (.inl ⟨haccel, haccel⟩) rfl h.valid fun _ => rfl
  | uploadRefused _ hM' hrec _ halloc =>
    rw [hM] at hM'
    cases hM'
    exact h.uploadRefused hrec halloc
  | uploadAborted _ hM' hrec _ halloc hupload =>
    rw [hM] at hM'
    cases hM'
    exact h.uploadAborted hrec halloc hupload
  | uploaded _ hM' hrec hstate halloc hupload =>
    rw [hM] at hM'
    cases hM'
    exact h.uploaded hacc hrec hstate halloc hupload

/-- To unpin a region changes nothing on the accelerator. -/
theorem unpin (h : AccelHolds spec foreign m) (id : UInt64) :
    AccelHolds spec foreign (m.unpin id) := by
  unfold ModelResidencyManager.unpin
  cases hrec : m.records.lookup id with
  | none => exact h
  | some rec =>
    dsimp only
    split
    next => exact h.replace hrec setRecord_records (.inr ⟨rfl, rfl⟩) rfl h.valid fun _ => rfl
    next => exact h

/-- So do sequences of them. -/
theorem steps (h : AccelHolds spec foreign m) (hacc : Accounted cx m)
    (hM : cx.accelerator = some M) (hsteps : ResidencySteps cx m m') :
    AccelHolds spec foreign m' := by
  induction hsteps with
  | refl => exact h
  | tail hrun hlast ih => exact ih.step (hacc.steps hrun) hM hlast

/-- The bytes of the records are among those on the accelerator. -/
theorem accelTotal_le (h : AccelHolds spec foreign m) : m.accelTotal ≤ capacity := by
  have hle := spec.bufferBytes_le _ h.valid
  rw [h.owned] at hle
  omega

/-- A manager without records points to no buffer. -/
theorem of_empty (hvalid : spec.Valid m.accelMemory) (hrecords : m.records = ∅) :
    AccelHolds spec (bufferBytes (spec.buffers m.accelMemory)) m := by
  have hnone : ∀ id rec, m.records.lookup id ≠ some rec := by
    intro id rec hrec
    rw [hrecords, AList.lookup_empty] at hrec
    cases hrec
  refine ⟨hvalid, ?_, ?_, ?_⟩
  · intro id rec p hrec
    exact absurd hrec (hnone id rec)
  · intro id id' rec rec' p hrec
    exact absurd hrec (hnone id rec)
  · simp [accelTotal, hrecords]

/-- What is left on the accelerator belongs to no record any more. -/
theorem releaseAll (h : AccelHolds spec foreign m) (hM : cx.accelerator = some M)
    (order : Traversal (Σ _ : UInt64, Record)) :
    ∃ foreign, AccelHolds spec foreign (m.releaseAll cx order) := by
  refine ⟨_, of_empty ?_ rfl⟩
  refine List.foldlRecOn (motive := spec.Valid) _ _ h.valid ?_
  intro a ha kv _
  rw [hM]
  cases kv.2.accel with
  | none => exact ha
  | some p => exact spec.valid_release a p ha

/-- In every reachable state the records' bytes are on the accelerator. -/
theorem of_reachable {accelMemory : σ} (hM : cx.accelerator = some M)
    (hvalid : spec.Valid accelMemory) {guard : ModelResidencyManager σ → ResidencyOp ρ α → Prop}
    (hreach : (residencySystem cx accelMemory).Reachable guard m) :
    ∃ foreign, AccelHolds spec foreign m :=
  (residency_invariant (P := fun m => Accounted cx m ∧ ∃ foreign, AccelHolds spec foreign m)
    ⟨.of_empty rfl rfl rfl, _, .of_empty hvalid rfl⟩
    (fun _ _ _ h hstep => ⟨h.1.step hstep, h.2.imp fun _ h' => h'.step h.1 hM hstep⟩)
    (fun _ id h => ⟨h.1.unpin id, h.2.imp fun _ h' => h'.unpin id⟩)
    (fun _ order h => ⟨.of_empty rfl rfl rfl, h.2.elim fun _ h' => h'.releaseAll hM order⟩)
    hreach).2.2

end AccelHolds

/-! ## When a region is placed -/

/-- The loop on the accelerator never meets a region that is marked resident there without a
buffer. -/
theorem makeAccelRoomLocked_ne_stuck {call : ResidencyCall ρ α} (hacc : Accounted cx m)
    (hM : cx.accelerator = some M) (needed skipId : UInt64) :
    (makeAccelRoomLocked M call m needed skipId).1 ≠ .error .stuck := by
  obtain ⟨m', hrun, hend⟩ := makeAccelRoomLocked_spec M call m needed skipId
  have hacc' : Accounted cx m' :=
    hacc.steps (hrun.toSteps hM)
  rcases hend with ⟨hok, -⟩ | hfail | ⟨-, id, rec, hrec, hstate, hnone⟩
  · rw [hok]
    nofun
  · rw [hfail]
    nofun
  · have hsome := (hacc'.atRest id rec hrec).accel_iff.mpr (by
      simp [ModelResidencyState.satisfies, hstate])
    rw [hnone] at hsome
    cases hsome

/-- A load that nothing stands in the way of. -/
theorem loadToRamLocked_eq_loaded {call : ResidencyCall ρ α} {bytes : List UInt8}
    (hrec : m.records.lookup id = some rec) (hcancel : call.cancelBeforeLoad = false)
    (hroom : ¬ m.telemetry.residentRamBytes + rec.region.size > cx.budget.ramBytes)
    (hhost : m.hostNew cx call rec.region.size = true)
    (hread : cx.source.read call.read rec.region.offset rec.region.size = .ok bytes) :
    loadToRamLocked cx call m id = (.ok (), m.loaded id rec bytes) := by
  unfold loadToRamLocked
  rw [hcancel, if_neg (by decide), recordAt_of_lookup hrec, makeRamRoomLocked, if_neg hroom]
  dsimp only
  rw [recordAt_of_lookup hrec, hhost, if_neg (by decide), hread]
  rfl

/-- An upload that nothing stands in the way of. -/
theorem uploadLocked_eq_uploaded {call : ResidencyCall ρ α} {dst : ℕ} {bytes : List UInt8}
    (hM : cx.accelerator = some M) (hrec : m.records.lookup id = some rec)
    (hcancel : call.cancelBeforeUpload = false) (havail : M.isAvailable m.accelMemory = true)
    (hroom : ¬ M.available m.accelMemory < rec.region.size) (hram : rec.ram = some bytes)
    (halloc : (M.allocate call.accel m.accelMemory rec.region.size).1 = some dst)
    (hupload : (M.upload call.accel (M.allocate call.accel m.accelMemory rec.region.size).2 bytes
      dst rec.region.size).1 = true) :
    (uploadLocked cx call m id).1 = .ok () := by
  unfold uploadLocked
  rw [hM]
  dsimp only
  rw [havail, if_neg (by decide), recordAt_of_lookup hrec, hram, if_neg (by simp), hcancel,
    if_neg (by decide), makeAccelRoomLocked, if_neg hroom]
  dsimp only
  rw [recordAt_of_lookup hrec]
  unfold transfer
  cases hgrant : M.allocate call.accel m.accelMemory rec.region.size with
  | mk answer a =>
    rw [hgrant] at halloc hupload
    cases halloc
    cases hdone : M.upload call.accel a bytes dst rec.region.size with
    | mk ok a' =>
      rw [hdone] at hupload
      cases hupload
      simp [hram, hdone]

end ModelResidencyManager

open ModelResidencyManager

/-! ## The budget -/

/-- A manager over a model file and an accelerator memory. -/
def fileContext (file : FileModelDataSource) (budget : ModelResidencyBudget)
    (M : IAcceleratorMemory σ α) (hostBytes : ℕ) (hlt : hostBytes < 2 ^ 63) :
    ResidencyContext FileReadEnv σ α where
  source := file.toSource
  budget := budget
  accelerator := some M
  hostBytes := hostBytes
  hostBytes_lt := hlt

/-- The first request of a manager succeeds when the region fits the RAM budget, the host's memory
and the accelerator's capacity. -/
theorem exists_ensureResident_fresh (spec : M.Spec capacity) {budget : ModelResidencyBudget}
    {hostBytes : ℕ} (hlt : hostBytes < 2 ^ 63) {n : UInt64} (hpos : n ≠ 0)
    (hcap : n.toNat ≤ capacity) (hram : n ≤ budget.ramBytes) (hhost : n.toNat ≤ hostBytes) :
    ∃ (file : FileModelDataSource) (call : ResidencyCall FileReadEnv α),
      (ModelResidencyManager.ensureResident (fileContext file budget M hostBytes hlt)
        (.construct spec.fresh) { id := 1, size := n } .accelerator call).1 = .ok () := by
  obtain ⟨havail, hfree, env, dst, halloc, hupload⟩ := spec.grants n hpos hcap
  -- a file of `n` zeros, read without a failure
  let file : FileModelDataSource := .opened (List.replicate n.toNat 0)
    (by simpa using n.toNat_lt)
  let call : ResidencyCall FileReadEnv α :=
    { now := 0, cancelBeforeLoad := false, cancelBeforeUpload := false, hostNew := true,
      read := FileModelDataSource.calm, accel := env, order := .stored }
  refine ⟨file, call, ?_⟩
  set cx := fileContext file budget M hostBytes hlt
  let rec₀ : Record := { region := { id := 1, size := n } }
  let m₀ : ModelResidencyManager σ := (construct spec.fresh).setRecord 1 rec₀
  have hrec₀ : m₀.records.lookup 1 = some rec₀ := AList.lookup_insert _
  obtain ⟨bytes, hread⟩ : ∃ bytes, file.read FileModelDataSource.calm 0 n = .ok bytes :=
    FileModelDataSource.read_ok (fun _ => rfl) (fun _ => le_rfl) rfl rfl hpos
      (by simp [file, FileModelDataSource.opened])
  -- the load needs no room made, for nothing is resident
  have hload : loadToRamLocked cx call m₀ 1 = (.ok (), m₀.loaded 1 rec₀ bytes) := by
    refine loadToRamLocked_eq_loaded hrec₀ rfl ?_ ?_ hread
    · have hsum : m₀.telemetry.residentRamBytes + n = n := UInt64.zero_add n
      change ¬ m₀.telemetry.residentRamBytes + n > budget.ramBytes
      rw [hsum]
      exact UInt64.not_lt.mpr hram
    · have howned : m₀.ramOwned = 0 := rfl
      simp only [hostNew, howned, Bool.and_eq_true, decide_eq_true_eq, Nat.zero_add]
      exact ⟨rfl, hhost⟩
  have hrec₁ : (m₀.loaded 1 rec₀ bytes).records.lookup 1 = some { rec₀ with
      ram := some bytes, state := .residentInRam, transferring := false } :=
    AList.lookup_insert _
  have hlen : bytes.length = n.toNat := length_of_fileSlice (file.read_eq _ _ _ _ hread)
  have hupl : (uploadLocked cx call (m₀.loaded 1 rec₀ bytes) 1).1 = .ok () :=
    uploadLocked_eq_uploaded rfl hrec₁ rfl havail (UInt64.not_lt.mpr hfree) rfl halloc
      (hupload bytes hlen)
  have hvalid : ({ id := 1, size := n } : ModelRegion).valid = true := by
    simp [ModelRegion.valid, UInt64.pos_iff_ne_zero, hpos]
  -- the call: a new record, its load, its upload
  unfold ModelResidencyManager.ensureResident
  rw [if_neg (by rw [hvalid]; decide)]
  have hcreate : (construct spec.fresh).getOrCreateLocked { id := 1, size := n } = m₀ := rfl
  dsimp only
  rw [hcreate, recordAt_of_lookup hrec₀, if_neg (by simp [rec₀, ModelResidencyState.satisfies]),
    if_neg (by simp [rec₀])]
  unfold place
  rw [recordAt_of_lookup hrec₀, if_neg (by simp [rec₀, ModelResidencyState.satisfies]), hload]
  dsimp only
  rw [recordAt_of_lookup hrec₁, if_neg (by simp [ModelResidencyState.satisfies])]
  split
  next hres =>
    rw [hres] at hupl
    cases hupl
  next => rfl

/-- The bytes resident on the accelerator stay within `budget_.accelerator_bytes`, for every model
file and every run, exactly when the accelerator's capacity, the RAM budget or the host's memory
is within it. -/
theorem residentAcceleratorBytes_le_iff {σ α : Type} (M : IAcceleratorMemory σ α) (capacity : ℕ)
    (spec : M.Spec capacity) (budget : ModelResidencyBudget) (hostBytes : ℕ)
    (hlt : hostBytes < 2 ^ 63) :
    (∀ (file : FileModelDataSource) (m : ModelResidencyManager σ),
      (residencySystem (fileContext file budget M hostBytes hlt) spec.fresh).Reachable
        TransitionSystem.anyCall m →
      m.telemetry.residentAcceleratorBytes ≤ budget.acceleratorBytes) ↔
    min capacity (min budget.ramBytes.toNat hostBytes) ≤ budget.acceleratorBytes.toNat := by
  constructor
  · intro hall
    by_contra hlarge
    push Not at hlarge
    -- one byte more than the budget fits everywhere
    obtain ⟨n, hn⟩ : ∃ n : UInt64, n.toNat = budget.acceleratorBytes.toNat + 1 := by
      have := budget.ramBytes.toNat_lt
      refine ⟨.ofNat (budget.acceleratorBytes.toNat + 1), ?_⟩
      rw [UInt64.toNat_ofNat']
      exact Nat.mod_eq_of_lt (by omega)
    have hpos : n ≠ 0 := by
      rintro rfl
      simp at hn
    have hram : n ≤ budget.ramBytes := UInt64.le_iff_toNat_le.mpr (by omega)
    obtain ⟨file, call, hok⟩ :=
      exists_ensureResident_fresh spec hlt hpos (by omega) hram (by omega)
    have hreach := reachable_foldl (fileContext file budget M hostBytes hlt) spec.fresh
      [.ensureResident { id := 1, size := n } .accelerator call]
    have hkeys : (construct spec.fresh : ModelResidencyManager σ).KeysMatch := nofun
    have hvalid : ({ id := 1, size := n } : ModelRegion).valid = true := by
      simp [ModelRegion.valid, UInt64.pos_iff_ne_zero, hpos]
    have houtcome : Outcome _ _ _ _ _ ((construct spec.fresh).ensureResident
        (fileContext file budget M hostBytes hlt) { id := 1, size := n } .accelerator call) :=
      ensureResident_outcome hkeys hvalid
    obtain ⟨rec, hrec, hsat⟩ := houtcome.resident hok
    obtain ⟨rec', hrec', hregion⟩ := houtcome.tracks
    rw [hrec] at hrec'
    cases hrec'
    set m := ([ResidencyOp.ensureResident { id := 1, size := n } .accelerator call]).foldl
      (apply (fileContext file budget M hostBytes hlt)) (construct spec.fresh)
    have hacc := (Accounted.of_reachable hreach).2
    have hle := UInt64.le_iff_toNat_le.mp (hall file m hreach)
    rw [hacc.accel_eq] at hle
    have hone := KeyedMap.le_total (f := fun _ rec => rec.accelSize) hrec
    have haccel := (hacc.atRest 1 rec hrec).accel_iff.mpr hsat
    have hsize : rec.accelSize = n.toNat := by
      rw [Record.accelSize, if_pos haccel, hregion]
      rfl
    change rec.accelSize ≤ m.accelTotal at hone
    omega
  · intro hsmall file m hreach
    have hacc := (Accounted.of_reachable hreach).2
    obtain ⟨_, hholds⟩ := AccelHolds.of_reachable (M := M) rfl spec.fresh_valid hreach
    have hcap := hholds.accelTotal_le
    have hram := hacc.accelTotal_le
    have hbudget : m.ramTotal ≤ budget.ramBytes.toNat := hacc.ram_le
    have hhost : m.ramTotal ≤ hostBytes := hacc.host_le
    rw [UInt64.le_iff_toNat_le, hacc.accel_eq]
    omega

/-- A four-byte accelerator under a RAM budget of four bytes: one byte of accelerator budget does
not hold. -/
theorem residentAcceleratorBytes_le_iff_host :
    (∀ (file : FileModelDataSource) (m : ModelResidencyManager HostAcceleratorMemory),
      (residencySystem (fileContext file { ramBytes := 4, acceleratorBytes := 1 }
        HostAcceleratorMemory.toInterface 1024 (by decide)) (.construct 4)).Reachable
          TransitionSystem.anyCall m →
      m.telemetry.residentAcceleratorBytes ≤ 1) ↔ min 4 (min 4 1024) ≤ 1 :=
  residentAcceleratorBytes_le_iff HostAcceleratorMemory.toInterface _
    (HostAcceleratorMemory.spec 4) { ramBytes := 4, acceleratorBytes := 1 } 1024 (by decide)

/-- With one byte of accelerator budget, two bytes are uploaded. -/
theorem not_residentAcceleratorBytes_le_sample :
    ¬ ∀ m, (residencySystem sampleContext (.construct 4)).Reachable TransitionSystem.anyCall m →
      m.telemetry.residentAcceleratorBytes ≤ sampleContext.budget.acceleratorBytes := by
  intro hall
  have hle := hall _ (reachable_foldl sampleContext (.construct 4)
    [.ensureResident (sampleRegion 1 0) .accelerator (sampleCall 1)])
  revert hle
  decide +kernel

end HeteroAccel
