import HeteroAccel.HydroXL.GGUFReaders

/-!
# Opening a GGUF file

`GGUFLoader.open` on a fresh loader, against the content that the file encodes. Parsing succeeds
exactly where the file begins with an encoding in the limits, up to skipped elements at its end
(`exec_parse`), and leaves the content in the loader; `open_eq_true_iff` adds the data section.
-/

namespace HeteroAccel

/-! ## Encodings of contents -/

namespace GGUFContent

variable (c : GGUFContent)

/-- The encoding of a header. -/
def encodeHeader (version : UInt32) (nTensors nKv : ℕ) : Bytes :=
  Bytes.ofNat 4 GGUFLoader.ggufMagic.toNat ++ (Bytes.ofNat 4 version.toNat ++
    (Bytes.ofNat 8 nTensors ++ Bytes.ofNat 8 nKv))

@[simp]
theorem length_encodeHeader (version : UInt32) (nTensors nKv : ℕ) :
    (encodeHeader version nTensors nKv).length = 24 := by
  simp [encodeHeader]

/-- An encoding is the header, the entries and the tensors. -/
theorem encode_eq : c.encode = encodeHeader c.version c.tensors.length c.entries.length ++
    (c.entries.flatMap GGUFEntry.encode ++ c.tensors.flatMap GGUFTensor.encode) := by
  simp only [encode, encodeHeader, List.append_assoc]
  rfl

/-- The skipped bytes at the end of entries. -/
def skippedOf (entries : List GGUFEntry) : ℕ := entries.foldl (fun _ e => e.data.skippedBytes) 0

/-- What is skipped is part of the entries. -/
theorem skippedOf_le (entries : List GGUFEntry) :
    skippedOf entries ≤ (entries.flatMap GGUFEntry.encode).length := by
  have hlast : ∀ n, entries.foldl (fun _ e => e.data.skippedBytes) n ≤
      n + (entries.flatMap GGUFEntry.encode).length := by
    induction entries with
    | nil => exact fun n => by simp
    | cons e entries ih =>
      intro n
      have hfirst := GGUFLoader.skippedBytes_le e.data
      have hothers := ih e.data.skippedBytes
      rw [List.foldl_cons, List.flatMap_cons, List.length_append, GGUFEntry.encode,
        List.length_append, List.length_append]
      omega
  have := hlast 0
  rw [skippedOf]
  omega

/-- A stream fits a content as it fits its parts one behind the other. -/
theorem fits_encode_iff (s : InputStream) :
    s.Fits c.encode c.skippedBytes ↔
      encodeHeader c.version c.tensors.length c.entries.length <+: s.rest ∧
      (s.advance 24).Fits (c.entries.flatMap GGUFEntry.encode) (skippedOf c.entries) ∧
      ((s.advance 24).advance (c.entries.flatMap GGUFEntry.encode).length).Fits
        (c.tensors.flatMap GGUFTensor.encode) 0 := by
  rw [encode_eq, skippedBytes, ← InputStream.fits_zero,
    ← length_encodeHeader c.version c.tensors.length c.entries.length]
  cases htensors : c.tensors with
  | nil =>
    rw [if_pos rfl, List.flatMap_nil, List.append_nil, ← skippedOf,
      InputStream.fits_append (skippedOf_le c.entries) (.inl rfl)]
    exact and_congr_right fun _ => (and_iff_left InputStream.fits_nil).symm
  | cons t ts =>
    have hlooked : 0 < ((t :: ts).flatMap GGUFTensor.encode).length := by
      rw [List.flatMap_cons, List.length_append, GGUFTensor.encode, encodeString,
        List.length_append, List.length_append, Bytes.length_ofNat]
      omega
    rw [if_neg (List.cons_ne_nil _ _), InputStream.fits_append (Nat.zero_le _) (.inl rfl),
      InputStream.fits_append (Nat.zero_le _) (.inr hlooked)]

end GGUFContent

namespace GGUFLoader

open Parser StreamState GGUFContent

/-! ## The header -/

section Numbers

variable {α β : Type} {read : Parse α} {encode : α → Bytes}
  (hread : Codes read (Whole fun v bytes => bytes = encode v)) {k : α → Parse β} {l l' : GGUFLoader}
  {b : β}

include hread

/-- A number that is read is there. -/
theorem number_of_exec (h : exec (read >>= k) l = (some b, l')) (hl : (stream l).Ready) :
    ∃ v, encode v <+: l.file.rest ∧ (stream (advance l (encode v).length)).Ready ∧
      exec (k v) (advance l (encode v).length) = (some b, l') := by
  obtain ⟨v, l₁, hv, hk⟩ := exec_bind_eq_some.mp h
  obtain ⟨_, _, ⟨rfl, rfl⟩, hfits, rfl⟩ := (hread l hl v l₁).mp hv
  exact ⟨v, InputStream.fits_zero.mp hfits, hl.advance hfits, hk⟩

/-- A number that is there is read. -/
theorem exec_of_number (hl : (stream l).Ready) {v : α} (hv : encode v <+: l.file.rest)
    (hk : (stream (advance l (encode v).length)).Ready →
      exec (k v) (advance l (encode v).length) = (some b, l')) :
    exec (read >>= k) l = (some b, l') := by
  have hfits : (stream l).Fits (encode v) 0 := InputStream.fits_zero.mpr hv
  exact exec_bind_eq_some.mpr
    ⟨v, _, (hread l hl v _).mpr ⟨_, _, ⟨rfl, rfl⟩, hfits, rfl⟩, hk (hl.advance hfits)⟩

end Numbers

/-- A check succeeds where there is no error. -/
theorem exec_errorIf {bad : Prop} [Decidable bad] {msg : Bytes} {l l' : GGUFLoader} :
    exec (errorIf bad msg) l = (some (), l') ↔ ¬bad ∧ l = l' := by
  unfold errorIf
  split_ifs with hbad
  · rw [exec_error]
    simp [hbad]
  · rw [exec_pure]
    simp [hbad]

/-- A check in front of a parser that succeeds. -/
theorem exec_errorIf_bind {β : Type} {bad : Prop} [Decidable bad] {msg : Bytes} {k : Unit → Parse β}
    {l l' : GGUFLoader} {b : β} :
    exec (errorIf bad msg >>= k) l = (some b, l') ↔ ¬bad ∧ exec (k ()) l = (some b, l') := by
  rw [exec_bind_eq_some]
  constructor
  · rintro ⟨⟨⟩, l₁, hcheck, hk⟩
    obtain ⟨hbad, rfl⟩ := exec_errorIf.mp hcheck
    exact ⟨hbad, hk⟩
  · rintro ⟨hbad, hk⟩
    exact ⟨(), l, exec_errorIf.mpr ⟨hbad, rfl⟩, hk⟩

theorem exec_get_bind {β : Type} {k : GGUFLoader → Parse β} {l : GGUFLoader} :
    exec (get >>= k) l = exec (k l) l := rfl

theorem exec_modify_bind {β : Type} {f : GGUFLoader → GGUFLoader} {k : PUnit → Parse β}
    {l : GGUFLoader} : exec (modify f >>= k) l = exec (k ⟨⟩) (f l) := by
  rw [exec_bind, exec_modify]

theorem append_prefix_iff {a b l : Bytes} : a ++ b <+: l ↔ a <+: l ∧ b <+: l.drop a.length := by
  constructor
  · rintro ⟨r, rfl⟩
    rw [List.append_assoc, List.drop_left]
    exact ⟨List.prefix_append _ _, List.prefix_append _ _⟩
  · rintro ⟨⟨r, rfl⟩, hb⟩
    rw [List.drop_left] at hb
    exact (List.prefix_append_right_inj _).mpr hb

/-- The header that `parseHeader` accepts. -/
theorem exec_parseHeader {l l' : GGUFLoader} (hl : (stream l).Ready) :
    exec parseHeader l = (some (), l') ↔ ∃ (version : UInt32) (nTensors nKv : UInt64),
      ((version = 2 ∨ version = 3) ∧ nTensors.toNat ≤ 65536 ∧ nKv.toNat ≤ 65536) ∧
      encodeHeader version nTensors.toNat nKv.toNat <+: l.file.rest ∧
      l' = advance { l with version, nTensors, nKv } 24 := by
  have hversions : ∀ version : UInt32, ¬(version < ggufVerMin ∨ version > ggufVerMax) ↔
      version = 2 ∨ version = 3 := by
    intro version
    simp only [gt_iff_lt, UInt32.lt_iff_toNat_lt, ← UInt32.toNat_inj, ggufVerMin, ggufVerMax,
      UInt32.reduceToNat]
    omega
  have hcount : ∀ n : UInt64, ¬n > 65536 ↔ n.toNat ≤ 65536 := by
    intro n
    rw [gt_iff_lt, UInt64.lt_iff_toNat_lt, Nat.not_lt]
    rfl
  -- each number is looked for behind the ones in front of it
  have hparts : ∀ (version : UInt32) (nTensors nKv : UInt64),
      encodeHeader version nTensors.toNat nKv.toNat <+: l.file.rest ↔
        Bytes.ofNat 4 ggufMagic.toNat <+: l.file.rest ∧
        Bytes.ofNat 4 version.toNat <+: (l.file.advance 4).rest ∧
        Bytes.ofNat 8 nTensors.toNat <+: ((l.file.advance 4).advance 4).rest ∧
        Bytes.ofNat 8 nKv.toNat <+: (((l.file.advance 4).advance 4).advance 8).rest := by
    intro version nTensors nKv
    simp only [encodeHeader, append_prefix_iff, Bytes.length_ofNat, InputStream.rest_advance]
  unfold parseHeader
  constructor
  · intro h
    obtain ⟨magic, hread₁, hl₁, h⟩ := number_of_exec codes_readUInt32 h hl
    obtain ⟨hmagic, h⟩ := exec_errorIf_bind.mp h
    obtain rfl : magic = ggufMagic := Decidable.not_not.mp hmagic
    obtain ⟨version, hread₂, hl₂, h⟩ := number_of_exec codes_readUInt32 h hl₁
    rw [exec_modify_bind] at h
    obtain ⟨hversion, h⟩ := exec_errorIf_bind.mp h
    obtain ⟨nTensors, hread₃, hl₃, h⟩ := number_of_exec codes_readUInt64 h hl₂
    rw [exec_modify_bind] at h
    obtain ⟨nKv, hread₄, -, h⟩ := number_of_exec codes_readUInt64 h hl₃
    rw [exec_modify_bind] at h
    obtain ⟨hTensors, h⟩ := exec_errorIf_bind.mp h
    obtain ⟨hKv, rfl⟩ := exec_errorIf.mp h
    refine ⟨version, nTensors, nKv, ⟨(hversions version).mp hversion, (hcount _).mp hTensors,
      (hcount _).mp hKv⟩, ?_, rfl⟩
    exact (hparts ..).mpr ⟨hread₁, hread₂, hread₃, hread₄⟩
  · rintro ⟨version, nTensors, nKv, ⟨hversion, hTensors, hKv⟩, hbytes, rfl⟩
    obtain ⟨hread₁, hread₂, hread₃, hread₄⟩ := (hparts ..).mp hbytes
    refine exec_of_number codes_readUInt32 hl hread₁ fun hl₁ => ?_
    refine exec_errorIf_bind.mpr ⟨not_not_intro rfl, ?_⟩
    refine exec_of_number codes_readUInt32 hl₁ hread₂ fun hl₂ => ?_
    rw [exec_modify_bind]
    refine exec_errorIf_bind.mpr ⟨(hversions version).mpr hversion, ?_⟩
    refine exec_of_number codes_readUInt64 hl₂ hread₃ fun hl₃ => ?_
    rw [exec_modify_bind]
    refine exec_of_number codes_readUInt64 hl₃ hread₄ fun _ => ?_
    rw [exec_modify_bind]
    refine exec_errorIf_bind.mpr ⟨(hcount nTensors).mpr hTensors, ?_⟩
    exact exec_errorIf.mpr ⟨(hcount nKv).mpr hKv, rfl⟩

/-! ## The loops -/

theorem records_recordEntry : Records recordEntry := fun _ _ _ => rfl

theorem records_recordTensor : Records recordTensor := fun _ _ _ => rfl

/-- The metadata entries that `parseKV` accepts. -/
theorem exec_parseKV {l l' : GGUFLoader} (hl : (stream l).Ready) (hkv : l.kv = ∅) :
    exec parseKV l = (some (), l') ↔ ∃ entries : List GGUFEntry, entries.length = l.nKv.toNat ∧
      (∀ e ∈ entries, e.InLimits) ∧
      (stream l).Fits (entries.flatMap GGUFEntry.encode) (skippedOf entries) ∧
      l' = advance { l with kv := KeyedMap.ofPairs (entries.map fun e => (e.key, e.data.value)) }
        (entries.flatMap GGUFEntry.encode).length := by
  have hfold : ∀ (pairs : List (Bytes × GGUFValue)) (l : GGUFLoader),
      pairs.foldl (fun l p => recordEntry p l) l =
        { l with kv := pairs.foldl (fun m p => m.insert p.1 p.2) l.kv } := by
    intro pairs
    induction pairs with
    | nil => exact fun _ => rfl
    | cons p pairs ih => exact fun l => ih (recordEntry p l)
  have hentries : ∀ {pairs bytes skipped}, Each entryCoding pairs bytes skipped ↔
      ∃ entries : List GGUFEntry, (∀ e ∈ entries, e.InLimits) ∧
        pairs = entries.map (fun e => (e.key, e.data.value)) ∧
        bytes = entries.flatMap GGUFEntry.encode ∧ skipped = skippedOf entries :=
    each_image_iff
  show exec (loop (readEntry >>= fun a => modify (recordEntry a)) l.nKv.toNat) l = _ ↔ _
  rw [codes_readEntry.exec_loop looked_entry records_recordEntry _ hl]
  simp only [hfold, hkv]
  constructor
  · rintro ⟨_, _, _, hlength, heach, hfits, rfl⟩
    obtain ⟨entries, hlimits, rfl, rfl, rfl⟩ := hentries.mp heach
    exact ⟨entries, (List.length_map _).symm.trans hlength, hlimits, hfits, rfl⟩
  · rintro ⟨entries, hlength, hlimits, hfits, rfl⟩
    exact ⟨_, _, _, (List.length_map _).trans hlength,
      hentries.mpr ⟨entries, hlimits, rfl, rfl, rfl⟩,
      hfits, rfl⟩

/-- The tensor descriptors that `parseTensors` accepts. -/
theorem exec_parseTensors {l l' : GGUFLoader} (hl : (stream l).Ready) (htensors : l.tensors = []) :
    exec parseTensors l = (some (), l') ↔ ∃ tensors : List GGUFTensor,
      tensors.length = l.nTensors.toNat ∧ (∀ t ∈ tensors, t.InLimits) ∧
      (stream l).Fits (tensors.flatMap GGUFTensor.encode) 0 ∧
      l' = advance { l with tensors := tensors.map descOf }
        (tensors.flatMap GGUFTensor.encode).length := by
  have hfold : ∀ (descs : List GGUFTensorDesc) (l : GGUFLoader),
      descs.foldl (fun l desc => recordTensor desc l) l =
        { l with tensors := l.tensors ++ descs } := by
    intro descs
    induction descs with
    | nil => exact fun l => by rw [List.foldl_nil, List.append_nil]
    | cons desc descs ih =>
      intro l
      rw [List.foldl_cons, ih, recordTensor, List.append_assoc]
      rfl
  have hall : ∀ {descs bytes skipped}, Each tensorCoding descs bytes skipped ↔
      ∃ tensors : List GGUFTensor, (∀ t ∈ tensors, t.InLimits) ∧ descs = tensors.map descOf ∧
        bytes = tensors.flatMap GGUFTensor.encode ∧ skipped = 0 :=
    each_whole_image_iff
  show exec (loop (readTensor >>= fun a => modify (recordTensor a)) l.nTensors.toNat) l = _ ↔ _
  rw [codes_readTensor.exec_loop looked_tensor records_recordTensor _ hl]
  simp only [hfold, htensors, List.nil_append]
  constructor
  · rintro ⟨_, _, _, hlength, heach, hfits, rfl⟩
    obtain ⟨tensors, hlimits, rfl, rfl, rfl⟩ := hall.mp heach
    exact ⟨tensors, (List.length_map _).symm.trans hlength, hlimits, hfits, rfl⟩
  · rintro ⟨tensors, hlength, hlimits, hfits, rfl⟩
    exact ⟨_, _, _, (List.length_map _).trans hlength, hall.mpr ⟨tensors, hlimits, rfl, rfl, rfl⟩,
      hfits, rfl⟩

/-- What parsing leaves of a content in the loader. -/
def parsed (c : GGUFContent) (l : GGUFLoader) : GGUFLoader :=
  { l with
    version := c.version
    nTensors := .ofNat c.tensors.length
    nKv := .ofNat c.entries.length
    kv := c.metadata
    tensors := c.tensors.map descOf }

/-- Parsing succeeds exactly on the encodings in the limits, up to skipped bytes at the end. -/
theorem exec_parse {β : Type} {k : Parse β} {l l' : GGUFLoader} {b : β}
    (hl : (stream l).Ready) (hkv : l.kv = ∅) (htensors : l.tensors = []) :
    exec (do parseHeader; parseKV; parseTensors; k) l = (some b, l') ↔
      ∃ c : GGUFContent, c.InLimits ∧ l.file.Fits c.encode c.skippedBytes ∧
        exec k (advance (parsed c l) c.encode.length) = (some b, l') := by
  have hlength : ∀ c : GGUFContent, c.encode.length =
      24 + (c.entries.flatMap GGUFEntry.encode).length +
        (c.tensors.flatMap GGUFTensor.encode).length := by
    intro c
    rw [c.encode_eq, List.length_append, List.length_append, length_encodeHeader, Nat.add_assoc]
  constructor
  · -- the parts of the file, as the parser reads them
    intro h
    obtain ⟨⟨⟩, l₁, hheader, h⟩ := exec_bind_eq_some.mp h
    obtain ⟨version, nTensors, nKv, ⟨hversion, hTensors, hKv⟩, hbytes, rfl⟩ :=
      (exec_parseHeader hl).mp hheader
    have hl₁ : (l.file.advance 24).Ready := by
      rw [← length_encodeHeader version nTensors.toNat nKv.toNat]
      exact hl.advance (InputStream.fits_zero.mpr hbytes)
    obtain ⟨⟨⟩, l₂, hentries, h⟩ := exec_bind_eq_some.mp h
    obtain ⟨entries, hentriesLength, hentriesLimits, hfits, rfl⟩ :=
      (exec_parseKV (by exact hl₁) (by exact hkv)).mp hentries
    obtain ⟨⟨⟩, l₃, hdescs, h⟩ := exec_bind_eq_some.mp h
    obtain ⟨tensors, htensorsLength, htensorsLimits, hfits', rfl⟩ :=
      (exec_parseTensors (by exact hl₁.advance hfits) (by exact htensors)).mp hdescs
    have hT : tensors.length = nTensors.toNat := htensorsLength
    have hK : entries.length = nKv.toNat := hentriesLength
    let c : GGUFContent := ⟨version, entries, tensors⟩
    refine ⟨c, ⟨hversion, hK ▸ hKv, hT ▸ hTensors, hentriesLimits, htensorsLimits⟩,
      c.fits_encode_iff _ |>.mpr ⟨?_, hfits, hfits'⟩, ?_⟩
    · show encodeHeader version tensors.length entries.length <+: _
      rw [hT, hK]
      exact hbytes
    · rw [← h, hlength, ← advance_advance, ← advance_advance, parsed, hT, hK]
      simp only [UInt64.ofNat_toNat]
      rfl
  · -- and as they are written
    rintro ⟨c, hc, hfits, h⟩
    obtain ⟨hheader, hentries, hdescs⟩ := (c.fits_encode_iff _).mp hfits
    have hT : (UInt64.ofNat c.tensors.length).toNat = c.tensors.length :=
      UInt64.toNat_ofNat_of_lt' (Nat.lt_of_le_of_lt hc.tensorsLength (by decide))
    have hK : (UInt64.ofNat c.entries.length).toNat = c.entries.length :=
      UInt64.toNat_ofNat_of_lt' (Nat.lt_of_le_of_lt hc.entriesLength (by decide))
    have hl₁ : (l.file.advance 24).Ready := by
      rw [← length_encodeHeader c.version c.tensors.length c.entries.length]
      exact hl.advance (InputStream.fits_zero.mpr hheader)
    refine exec_bind_eq_some.mpr ⟨(), _, (exec_parseHeader hl).mpr ⟨c.version, .ofNat _, .ofNat _,
      ⟨hc.version, hT.trans_le hc.tensorsLength, hK.trans_le hc.entriesLength⟩, ?_, rfl⟩, ?_⟩
    · rw [hT, hK]
      exact hheader
    refine exec_bind_eq_some.mpr ⟨(), _, (exec_parseKV (by exact hl₁) (by exact hkv)).mpr
      ⟨c.entries, hK.symm, hc.entries, hentries, rfl⟩, ?_⟩
    refine exec_bind_eq_some.mpr ⟨(), _, (exec_parseTensors (by exact hl₁.advance hentries)
      (by exact htensors)).mpr
      ⟨c.tensors, hT.symm, hc.tensors, hdescs, rfl⟩, ?_⟩
    rw [← h, hlength, ← advance_advance, ← advance_advance]
    rfl

/-! ## The data section -/

/-- The alignment that `open` uses. -/
def alignment (l : GGUFLoader) : UInt32 :=
  let declared := l.kvUInt32 (Bytes.ofString "general.alignment") ggufDefaultAlign
  if declared = 0 then ggufDefaultAlign else declared

theorem alignment_pos (l : GGUFLoader) : 0 < l.alignment.toNat := by
  unfold alignment
  dsimp only
  split_ifs with h
  · decide
  · exact Nat.pos_of_ne_zero fun hzero => h (UInt32.toNat_inj.mp hzero)

/-- The multiple of `align` that `open` computes. -/
theorem add_padding {n align : ℕ} (h : 0 < align) :
    n + (align - n % align) % align = (n + align - 1) / align * align := by
  have hlt := Nat.mod_lt n h
  have hdiv := Nat.div_add_mod n align
  by_cases hzero : n % align = 0
  · have hceil : (n + align - 1) / align = n / align :=
      Nat.div_eq_of_lt_le (by rw [Nat.mul_comm]; omega) (by rw [Nat.succ_mul, Nat.mul_comm]; omega)
    rw [hzero, Nat.sub_zero, Nat.mod_self, hceil, Nat.mul_comm]
    omega
  · have hceil : (n + align - 1) / align = n / align + 1 :=
      Nat.div_eq_of_lt_le (by rw [Nat.succ_mul, Nat.mul_comm]; omega)
        (by rw [Nat.succ_mul, Nat.succ_mul, Nat.mul_comm]; omega)
    rw [Nat.mod_eq_of_lt (by omega), hceil, Nat.succ_mul, Nat.mul_comm]
    omega

/-- Where `open` finds the data section. -/
theorem exec_locateData {l l' : GGUFLoader} (hl : (stream l).Ready) :
    exec locateData l = (some (), l') ↔ ∃ dataOffset : UInt64,
      dataOffset.toNat =
        (l.file.pos + l.alignment.toNat - 1) / l.alignment.toNat * l.alignment.toNat ∧
      ¬(l.nTensors > 0 ∧ dataOffset ≥ l.fileSize) ∧
      l' = { l with dataOffset, isOpen := true } := by
  obtain ⟨hgood, hpos⟩ : l.file.good ∧ l.file.pos < 2 ^ 63 := hl
  have halign := l.alignment_pos
  have halign' := l.alignment.toNat_lt
  have hcur : (UInt64.ofNat l.file.pos).toNat = l.file.pos :=
    UInt64.toNat_ofNat_of_lt' (Nat.lt_trans hpos (by decide))
  -- no step of the padding wraps around
  have hpad : ((l.alignment.toUInt64 - .ofNat l.file.pos % l.alignment.toUInt64) %
      l.alignment.toUInt64).toNat =
      (l.alignment.toNat - l.file.pos % l.alignment.toNat) % l.alignment.toNat := by
    have hlt := Nat.mod_lt l.file.pos halign
    have hle : UInt64.ofNat l.file.pos % l.alignment.toUInt64 ≤ l.alignment.toUInt64 := by
      rw [UInt64.le_iff_toNat_le, UInt64.toNat_mod, UInt32.toNat_toUInt64, hcur]
      exact hlt.le
    rw [UInt64.toNat_mod, UInt64.toNat_sub_of_le _ _ hle, UInt64.toNat_mod, UInt32.toNat_toUInt64,
      hcur]
  have hlt := Nat.mod_lt (l.alignment.toNat - l.file.pos % l.alignment.toNat) halign
  rw [← hpad] at hlt
  have hoffset : (UInt64.ofNat l.file.pos + (l.alignment.toUInt64 - .ofNat l.file.pos %
      l.alignment.toUInt64) % l.alignment.toUInt64).toNat =
      (l.file.pos + l.alignment.toNat - 1) / l.alignment.toNat * l.alignment.toNat := by
    rw [← add_padding halign, ← hpad, UInt64.toNat_add, hcur, Nat.mod_eq_of_lt (by omega)]
  have hfits : ¬UInt64.ofNat l.file.pos > -1 - (l.alignment.toUInt64 - .ofNat l.file.pos %
      l.alignment.toUInt64) % l.alignment.toUInt64 := by
    rw [gt_iff_lt, UInt64.lt_iff_toNat_lt, hcur,
      UInt64.toNat_sub_of_le _ _ (UInt64.le_iff_toNat_le.mpr
      (Nat.le_of_lt_succ (UInt64.toNat_lt _)))]
    show ¬2 ^ 64 - 1 - _ < l.file.pos
    omega
  have halignment : (if l.kvUInt32 (Bytes.ofString "general.alignment") ggufDefaultAlign = 0 then
      ggufDefaultAlign else l.kvUInt32 (Bytes.ofString "general.alignment") ggufDefaultAlign) =
      l.alignment := rfl
  rw [locateData, exec_get_bind]
  dsimp only
  rw [halignment]
  rw [InputStream.tellg_of_good hgood, exec_errorIf_bind, and_iff_right hfits, exec_modify_bind,
    exec_errorIf_bind, exec_modify]
  constructor
  · rintro ⟨hdata, h⟩
    obtain ⟨-, rfl⟩ := Prod.mk.inj h
    exact ⟨_, hoffset, hdata, rfl⟩
  · rintro ⟨dataOffset, heq, hdata, rfl⟩
    obtain rfl := UInt64.toNat_inj.mp (heq.trans hoffset.symm)
    exact ⟨hdata, rfl⟩

/-! ## Opening -/

/-- A fresh loader when it starts parsing. -/
def opened (path : Bytes) (file : FileContent) : GGUFLoader :=
  { path, file := { content := some file }, fileSize := .ofNat file.bytes.length }

/-- A fresh loader when it has parsed a content. -/
def scanned (path : Bytes) (file : FileContent) (c : GGUFContent) : GGUFLoader :=
  advance (parsed c (opened path file)) c.encode.length

section Open

variable {path : Bytes} {file : FileContent}

theorem toNat_fileSize (path : Bytes) (file : FileContent) :
    (opened path file).fileSize.toNat = file.bytes.length :=
  UInt64.toNat_ofNat_of_lt' (Nat.lt_trans file.length_lt (by decide))

theorem ready_opened (path : Bytes) (file : FileContent) : (stream (opened path file)).Ready :=
  ⟨rfl, Nat.two_pow_pos 63⟩

/-- An opened file is read from its beginning. -/
theorem rest_opened (path : Bytes) (file : FileContent) :
    (opened path file).file.rest = file.bytes := List.drop_zero

/-- What `open` of a fresh loader does before parsing. -/
theorem exec_openFile {l : GGUFLoader} :
    exec (openFile path (some file)) {} = (some (), l) ↔
      12 ≤ file.bytes.length ∧ l = opened path file := by
  have hsmall : ¬(opened path file).fileSize < 12 ↔ 12 ≤ file.bytes.length := by
    rw [UInt64.lt_iff_toNat_lt, toNat_fileSize, Nat.not_lt]
    rfl
  rw [openFile, exec_modify_bind, exec_get_bind, exec_errorIf_bind, exec_modify_bind, exec_get_bind,
    exec_errorIf_bind, exec_modify_bind, exec_get_bind, exec_errorIf]
  constructor
  · rintro ⟨-, -, h, rfl⟩
    exact ⟨hsmall.mp h, rfl⟩
  · rintro ⟨h, rfl⟩
    refine ⟨?_, ?_, hsmall.mpr h, rfl⟩
    · simp [InputStream.open, InputStream.isOpen]
    · simp [InputStream.open, InputStream.isOpen, InputStream.seekEnd]

/-- What a fresh loader opens: a content whose data section, if there are tensors, begins in the
file. -/
theorem open_eq_true_iff {l : GGUFLoader} :
    «open» {} path (some file) = (true, l) ↔ ∃ (c : GGUFContent) (dataOffset : UInt64),
      (c.InLimits ∧ (opened path file).file.Fits c.encode c.skippedBytes) ∧
      dataOffset.toNat = c.dataStart (scanned path file c).alignment.toNat ∧
      (c.tensors ≠ [] → dataOffset.toNat < file.bytes.length) ∧
      l = { scanned path file c with dataOffset, isOpen := true } := by
  have hexec : «open» {} path (some file) = (true, l) ↔
      exec (do openFile path (some file); parseHeader; parseKV; parseTensors; locateData) {} =
        (some (), l) := by
    rw [«open»]
    generalize exec _ _ = r
    obtain ⟨_ | ⟨⟩, l'⟩ := r <;> simp
  have hready : ∀ c : GGUFContent, (opened path file).file.Fits c.encode c.skippedBytes →
      (stream (scanned path file c)).Ready := fun c hfits =>
    (ready_opened path file).advance hfits
  have hpos : ∀ c, (scanned path file c).file.pos = c.encode.length := fun c => Nat.zero_add _
  -- tensors are declared when there are some
  have hdata : ∀ (c : GGUFContent), c.InLimits → ∀ dataOffset : UInt64,
      ¬((scanned path file c).nTensors > 0 ∧ dataOffset ≥ (scanned path file c).fileSize) ↔
        (c.tensors ≠ [] → dataOffset.toNat < file.bytes.length) := by
    intro c hc dataOffset
    have hT : (UInt64.ofNat c.tensors.length).toNat = c.tensors.length :=
      UInt64.toNat_ofNat_of_lt' (Nat.lt_of_le_of_lt hc.tensorsLength (by decide))
    show ¬(UInt64.ofNat c.tensors.length > 0 ∧ (opened path file).fileSize ≤ dataOffset) ↔ _
    rw [gt_iff_lt, UInt64.lt_iff_toNat_lt, hT, UInt64.le_iff_toNat_le, toNat_fileSize, not_and,
      Nat.not_le, ← List.length_pos_iff]
    rfl
  rw [hexec, exec_bind_eq_some]
  constructor
  · rintro ⟨⟨⟩, l₁, hopen, h⟩
    obtain ⟨-, rfl⟩ := exec_openFile.mp hopen
    obtain ⟨c, hc, hfits, h⟩ := (exec_parse (ready_opened path file) rfl rfl).mp h
    obtain ⟨dataOffset, hoffset, hlocated, rfl⟩ := (exec_locateData (hready c hfits)).mp h
    rw [hpos] at hoffset
    exact ⟨c, dataOffset, ⟨hc, hfits⟩, hoffset, (hdata c hc _).mp hlocated, rfl⟩
  · rintro ⟨c, dataOffset, ⟨hc, hfits⟩, hoffset, hlocated, rfl⟩
    have hheader := ((c.fits_encode_iff _).mp hfits).1.length_le
    rw [length_encodeHeader, rest_opened] at hheader
    refine ⟨(), _, exec_openFile.mpr ⟨by omega, rfl⟩, ?_⟩
    refine (exec_parse (ready_opened path file) rfl rfl).mpr ⟨c, hc, hfits, ?_⟩
    refine (exec_locateData (hready c hfits)).mpr ⟨dataOffset, ?_, (hdata c hc _).mpr hlocated, rfl⟩
    rw [hpos]
    exact hoffset

end Open

end GGUFLoader
end HeteroAccel
