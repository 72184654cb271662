import HeteroAccel.HydroXL.GGUFOpen

/-!
# Opening encoded and truncated files

## Main results

* `open_encode`: a fresh loader opens the encoding of a content in its limits, and gets its
  metadata, its tensors and the start of its data section;
* `covers_of_open_iff`: a file that is opened covers all that it declares, unless it ends in the
  elements of a skipped array behind which nothing comes;
* `not_covers_of_open`: such a file is opened.
-/

namespace HeteroAccel

open GGUFLoader

namespace GGUFContent

variable {c : GGUFContent}

/-- The data of a file begin below 2^64. -/
theorem dataStart_lt {align : ℕ} (hencode : c.encode.length < 2 ^ 63) (halign : align < 2 ^ 32) :
    c.dataStart align < 2 ^ 64 := by
  have := Nat.div_mul_le_self (c.encode.length + align - 1) align
  rw [dataStart]
  omega

/-- The loader reads the alignment of the content. -/
theorem alignment_scanned {align : ℕ} (h : c.HasAlignment align) (path : Bytes)
    (file : FileContent) : (scanned path file c).alignment.toNat = align := by
  have hkv : (scanned path file c).kv = c.metadata := rfl
  unfold alignment kvUInt32
  rw [hkv]
  rcases h with ⟨hlookup, rfl⟩ | ⟨v, hlookup, hv, rfl⟩
  · rw [hlookup]
    rfl
  · rw [hlookup]
    dsimp only
    rw [if_neg hv]

end GGUFContent

namespace GGUFLoader

/-- The state in which a fresh loader has opened a file that begins with an encoded content. -/
theorem open_of_prefix {c : GGUFContent} (hc : c.InLimits) {align : ℕ}
    (halign : c.HasAlignment align)
    (path : Bytes) {file : FileContent} (hfile : c.encode <+: file.bytes)
    (hdata : c.tensors ≠ [] → c.dataStart align < file.bytes.length) :
    (UInt64.ofNat (c.dataStart align)).toNat = c.dataStart align ∧
      «open» {} path (some file) = (true, { scanned path file c with
        dataOffset := .ofNat (c.dataStart align)
        isOpen := true }) := by
  have halignment := GGUFContent.alignment_scanned halign path file
  have hoffset : (UInt64.ofNat (c.dataStart align)).toNat = c.dataStart align :=
    UInt64.toNat_ofNat_of_lt' (GGUFContent.dataStart_lt
      (Nat.lt_of_le_of_lt hfile.length_le file.length_lt) (halignment ▸ UInt32.toNat_lt _))
  refine ⟨hoffset, open_eq_true_iff.mpr ⟨c, _, ⟨hc, .inl ?_⟩, ?_, ?_, rfl⟩⟩
  · rw [rest_opened]
    exact hfile
  · rw [hoffset, halignment]
  · rw [hoffset]
    exact hdata

/-- **Round trip.** A fresh loader opens the encoding of a content in its limits, with a data
section when there are tensors, and gets the metadata, the tensors in their order and the start of
the data section. -/
theorem open_encode {c : GGUFContent} (hc : c.InLimits) {align : ℕ} (halign : c.HasAlignment align)
    (path : Bytes) {file : FileContent} (hfile : c.encode <+: file.bytes)
    (hdata : c.tensors ≠ [] → c.dataStart align < file.bytes.length) :
    ∃ l, «open» {} path (some file) = (true, l) ∧ l.kv = c.metadata ∧
      l.tensors.map (fun desc => (desc.name, desc.shape, desc.type, desc.offset)) =
        c.tensors.map (fun t => (t.name, t.shape, t.type, t.offset)) ∧
      l.dataOffset.toNat = c.dataStart align := by
  obtain ⟨hoffset, hopen⟩ := open_of_prefix hc halign path hfile hdata
  refine ⟨_, hopen, rfl, ?_, hoffset⟩
  show (c.tensors.map descOf).map _ = _
  rw [List.map_map]
  rfl

/-- An array of a skipped array, a kept one and an empty one. -/
def sampleArray : GGUFArray :=
  .nested [.skipped .uint16 2 ⟨[1, 2, 3, 4], rfl⟩, .strings ⟨[[7, 8]], by decide⟩, .nested []]

/-- A content with an alignment, a key twice and a tensor. -/
def sampleContent : GGUFContent where
  version := 3
  entries :=
    [⟨Bytes.ofString "general.alignment", .uint32 64⟩, ⟨Bytes.ofString "a", .array sampleArray⟩,
      ⟨Bytes.ofString "a", .int8 (-1)⟩]
  tensors := [⟨Bytes.ofString "t", [32, 2], GGMLType.q4_0, 0⟩]

/-- The sample's content is within limits. -/
theorem sampleContent_inLimits : sampleContent.InLimits := by
  have harray : sampleArray.InLimits := by
    simp [sampleArray, GGUFArray.InLimits]
  constructor
  · exact .inr rfl
  · decide
  · decide
  · simp only [sampleContent, List.forall_mem_cons, GGUFEntry.InLimits, GGUFData.InLimits, harray]
    refine ⟨?_, ?_, ?_, ?_⟩
    · decide
    · decide
    · decide
    · simp
  · simp only [sampleContent, List.forall_mem_cons]
    refine ⟨⟨by decide, by decide, ?_, by decide, by decide, by decide⟩, by simp⟩
    simp only [List.forall_mem_cons]
    exact ⟨by decide, by decide, by simp⟩

theorem length_encode_sampleContent : sampleContent.encode.length = 187 := by
  have harray : sampleArray.encode =
      [9, 0, 0, 0, 3, 0, 0, 0, 0, 0, 0, 0,
        2, 0, 0, 0, 2, 0, 0, 0, 0, 0, 0, 0, 1, 2, 3, 4,
        8, 0, 0, 0, 1, 0, 0, 0, 0, 0, 0, 0, 2, 0, 0, 0, 0, 0, 0, 0, 7, 8,
        9, 0, 0, 0, 0, 0, 0, 0, 0, 0, 0, 0] := by
    simp only [sampleArray, GGUFArray.encode, List.flatMap_cons, List.flatMap_nil]
    rfl
  simp only [GGUFContent.encode, sampleContent, List.flatMap_cons, List.flatMap_nil,
    GGUFEntry.encode, GGUFData.encode, harray]
  decide +kernel

/-- A file with the sample's content and 64 bytes of data. -/
def sampleFile : FileContent where
  bytes := sampleContent.encode ++ List.replicate 64 0
  length_lt := by
    rw [List.length_append, length_encode_sampleContent, List.length_replicate]
    decide

/-- The sample file is opened, with its metadata and tensors. -/
theorem open_encode_sampleContent : ∃ l, «open» {} [] (some sampleFile) = (true, l) ∧
    l.kv = sampleContent.metadata ∧
    l.tensors.map (fun desc => (desc.name, desc.shape, desc.type, desc.offset)) =
      [(Bytes.ofString "t", [32, 2], GGMLType.q4_0, 0)] ∧
    l.dataOffset.toNat = sampleContent.dataStart 64 := by
  refine open_encode sampleContent_inLimits (.inr ⟨64, by decide +kernel, by decide, rfl⟩) []
    (List.prefix_append _ _) fun _ => ?_
  rw [GGUFContent.dataStart, length_encode_sampleContent, sampleFile, List.length_append,
    length_encode_sampleContent, List.length_replicate]
  decide

/-! ## Truncated files -/

/-- The file covers the header, the entries and the descriptors that it declares. -/
def Covers (file : FileContent) : Prop :=
  ∃ c : GGUFContent, c.InLimits ∧ c.encode <+: file.bytes

/-- The file ends in the elements of a skipped array at the end of its entries, with no descriptors
declared behind them. -/
def CutInSkipped (file : FileContent) : Prop :=
  ∃ c : GGUFContent, c.InLimits ∧ file.bytes <+: c.encode ∧
    file.bytes.length < c.encode.length ∧
    c.encode.length ≤ file.bytes.length + c.skippedBytes ∧ c.encode.length < 2 ^ 63

variable {file : FileContent}

/-- What is opened is covered, or cut in the elements of a skipped array. -/
theorem covers_or_cut (path : Bytes) (h : («open» {} path (some file)).1) :
    Covers file ∨ CutInSkipped file := by
  obtain ⟨c, -, ⟨hc, hfits⟩, -⟩ := open_eq_true_iff.mp (Prod.ext h rfl)
  rcases hfits with hwhole | ⟨hpre, hlength, hoffset⟩
  · rw [rest_opened] at hwhole
    exact .inl ⟨c, hc, hwhole⟩
  · rw [rest_opened] at hpre hlength
    rcases Nat.lt_or_ge file.bytes.length c.encode.length with hlt | hge
    · exact .inr ⟨c, hc, hpre, hlt, hlength, (Nat.zero_add _).symm.trans_lt hoffset⟩
    · exact .inl ⟨c, hc, (hpre.eq_of_length_le hge) ▸ List.prefix_rfl⟩

/-- No seek notices such a cut: the file is opened, and not covered. -/
theorem open_of_cut (path : Bytes) (h : CutInSkipped file) :
    («open» {} path (some file)).1 ∧ ¬Covers file := by
  obtain ⟨c, hc, hpre, hlt, hlength, hbound⟩ := h
  have hfits : (opened path file).file.Fits c.encode c.skippedBytes := by
    refine .inr ⟨?_, ?_, (Nat.zero_add _).trans_lt hbound⟩
    · rw [rest_opened]
      exact hpre
    · rw [rest_opened]
      exact hlength
  have hnone : c.tensors = [] := by
    by_contra hne
    rw [GGUFContent.skippedBytes, if_neg hne] at hlength
    omega
  have hoffset : (UInt64.ofNat (c.dataStart (scanned path file c).alignment.toNat)).toNat =
      c.dataStart (scanned path file c).alignment.toNat :=
    UInt64.toNat_ofNat_of_lt' (GGUFContent.dataStart_lt hbound (UInt32.toNat_lt _))
  constructor
  · have hopen := open_eq_true_iff.mpr
      ⟨c, _, ⟨hc, hfits⟩, hoffset, fun hne => absurd hnone hne, rfl⟩
    rw [hopen]
  · rintro ⟨c', hc', hwhole⟩
    -- both contents describe the same run of the parser
    have hfits' : (opened path file).file.Fits c'.encode c'.skippedBytes :=
      .inl ((rest_opened path file).symm ▸ hwhole)
    have hrun := (exec_parse (k := get) (ready_opened path file) rfl rfl).mpr ⟨c, hc, hfits, rfl⟩
    have hrun' := (exec_parse (k := get) (ready_opened path file) rfl rfl).mpr
      ⟨c', hc', hfits', rfl⟩
    have hpos : c.encode.length = c'.encode.length := by
      have hstates := congrArg (·.2.file.pos) (hrun.symm.trans hrun')
      exact (Nat.zero_add _).symm.trans (hstates.trans (Nat.zero_add _))
    have hle := hwhole.length_le
    omega

/-- **Truncated files.** Opening tells that a file covers what it declares exactly when the file
does not end in the elements of a skipped array with nothing declared behind it. -/
theorem covers_of_open_iff (file : FileContent) :
    (∀ path, («open» {} path (some file)).1 → Covers file) ↔ ¬CutInSkipped file := by
  constructor
  · intro h hcut
    exact (open_of_cut [] hcut).2 (h [] (open_of_cut [] hcut).1)
  · exact fun hcut path h => (covers_or_cut path h).resolve_right hcut

/-- A file with one entry, an array of 100 bytes, that ends before its elements. -/
def cutFile : FileContent where
  bytes :=
    [0x47, 0x47, 0x55, 0x46, 3, 0, 0, 0, 0, 0, 0, 0, 0, 0, 0, 0, 1, 0, 0, 0, 0, 0, 0, 0,
      1, 0, 0, 0, 0, 0, 0, 0, 0x61, 9, 0, 0, 0, 0, 0, 0, 0, 100, 0, 0, 0, 0, 0, 0, 0]
  length_lt := by decide

/-- The file is cut where the loader skips. -/
theorem cutInSkipped_cutFile : CutInSkipped cutFile := by
  let payload : { bytes : Bytes // bytes.length = 100 * SkippedType.uint8.size } :=
    ⟨List.replicate 100 0, rfl⟩
  let array : GGUFArray := .skipped .uint8 100 payload
  let c : GGUFContent := ⟨3, [⟨[0x61], .array array⟩], []⟩
  have hlimits : array.InLimits := by
    simp [array, GGUFArray.InLimits]
  have hskipped : c.skippedBytes = 100 := by
    simp [c, array, GGUFContent.skippedBytes, GGUFData.skippedBytes, GGUFArray.skippedBytes,
      SkippedType.size]
  have hencode : c.encode = cutFile.bytes ++ payload.1 := by
    simp only [c, array, GGUFContent.encode, GGUFEntry.encode, GGUFData.encode, GGUFData.type,
      GGUFArray.encode, List.flatMap_cons, List.flatMap_nil, List.append_nil, List.length_cons,
      List.length_nil]
    rfl
  have hlength : c.encode.length = 149 := by
    rw [hencode]
    rfl
  refine ⟨c, ⟨.inr rfl, by decide, by decide, ?_, by simp [c]⟩, ?_, ?_, ?_, ?_⟩
  · exact List.forall_mem_singleton.mpr ⟨by decide, hlimits⟩
  · exact hencode ▸ List.prefix_append _ _
  · rw [hlength]
    decide
  · rw [hlength, hskipped]
    decide
  · rw [hlength]
    decide

/-- A file that is opened need not have all bytes that its content describes. -/
theorem not_covers_of_open :
    ¬∀ (path : Bytes) (file : FileContent), («open» {} path (some file)).1 → Covers file := by
  intro hall
  obtain ⟨hopen, hcovers⟩ := open_of_cut [] cutInSkipped_cutFile
  exact hcovers (hall [] cutFile hopen)

end GGUFLoader
end HeteroAccel
