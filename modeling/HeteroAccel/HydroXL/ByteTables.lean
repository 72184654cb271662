import HeteroAccel.Lib.ByteStream
import HeteroAccel.Lib.Chunks
import HeteroAccel.Lib.KeyedMap

/-!
# UTF-8 and the byte symbols of the tokenizer

The helpers at the head of `HydroXLTokenizer.cpp`: `decodeUtf8`, `encodeUtf8` and the two tables
that `buildByteTables` fills. A position in a `std::string` is the list of the bytes from there
on.

Every byte has a symbol, a code point of one or two UTF-8 bytes. `Visible` names the bytes that are
their own symbol. Text is spelled symbol by symbol (`spell`), and `unmap`, the last loop of
`decode`, takes every spelling back to its text (`unmap_spell`).
-/

namespace HeteroAccel

/-! ## UTF-8 -/

/-- The code point at the head of `s` and the number of bytes it takes. A byte that starts no
complete sequence is its own code point. -/
def decodeUtf8 (s : Bytes) : UInt32 × ℕ :=
  let c (k : ℕ) : UInt32 := (s.getD k 0).toUInt32
  if c 0 < 0x80 then (c 0, 1)
  else if c 0 &&& 0xE0 = 0xC0 ∧ 1 < s.length then
    ((c 0 &&& 0x1F) <<< 6 ||| (c 1 &&& 0x3F), 2)
  else if c 0 &&& 0xF0 = 0xE0 ∧ 2 < s.length then
    ((c 0 &&& 0x0F) <<< 12 ||| (c 1 &&& 0x3F) <<< 6 ||| (c 2 &&& 0x3F), 3)
  else if c 0 &&& 0xF8 = 0xF0 ∧ 3 < s.length then
    ((c 0 &&& 0x07) <<< 18 ||| (c 1 &&& 0x3F) <<< 12 ||| (c 2 &&& 0x3F) <<< 6 |||
      (c 3 &&& 0x3F), 4)
  else (c 0, 1)

theorem decodeUtf8_length_pos (s : Bytes) : 0 < (decodeUtf8 s).2 := by
  unfold decodeUtf8
  dsimp only
  split_ifs <;> simp

theorem decodeUtf8_of_ascii {c₀ : UInt8} (h : c₀.toUInt32 < 0x80) (rest : Bytes) :
    decodeUtf8 (c₀ :: rest) = (c₀.toUInt32, 1) :=
  if_pos h

theorem decodeUtf8_of_twoBytes {c₀ : UInt8} (h : ¬c₀.toUInt32 < 0x80)
    (hmark : c₀.toUInt32 &&& 0xE0 = 0xC0) (c₁ : UInt8) (rest : Bytes) :
    decodeUtf8 (c₀ :: c₁ :: rest) =
      ((c₀.toUInt32 &&& 0x1F) <<< 6 ||| (c₁.toUInt32 &&& 0x3F), 2) :=
  (if_neg h).trans (if_pos ⟨hmark, by simp⟩)

theorem decodeUtf8_of_threeBytes {c₀ : UInt8} (h : ¬c₀.toUInt32 < 0x80)
    (hmark₂ : c₀.toUInt32 &&& 0xE0 ≠ 0xC0) (hmark : c₀.toUInt32 &&& 0xF0 = 0xE0) (c₁ c₂ : UInt8)
    (rest : Bytes) :
    decodeUtf8 (c₀ :: c₁ :: c₂ :: rest) =
      ((c₀.toUInt32 &&& 0x0F) <<< 12 ||| (c₁.toUInt32 &&& 0x3F) <<< 6 |||
        (c₂.toUInt32 &&& 0x3F), 3) :=
  (if_neg h).trans ((if_neg fun h => hmark₂ h.1).trans (if_pos ⟨hmark, by simp⟩))

theorem decodeUtf8_of_fourBytes {c₀ : UInt8} (h : ¬c₀.toUInt32 < 0x80)
    (hmark₂ : c₀.toUInt32 &&& 0xE0 ≠ 0xC0) (hmark₃ : c₀.toUInt32 &&& 0xF0 ≠ 0xE0)
    (hmark : c₀.toUInt32 &&& 0xF8 = 0xF0) (c₁ c₂ c₃ : UInt8) (rest : Bytes) :
    decodeUtf8 (c₀ :: c₁ :: c₂ :: c₃ :: rest) =
      ((c₀.toUInt32 &&& 0x07) <<< 18 ||| (c₁.toUInt32 &&& 0x3F) <<< 12 |||
        (c₂.toUInt32 &&& 0x3F) <<< 6 ||| (c₃.toUInt32 &&& 0x3F), 4) :=
  (if_neg h).trans ((if_neg fun h => hmark₂ h.1).trans
    ((if_neg fun h => hmark₃ h.1).trans (if_pos ⟨hmark, by simp⟩)))

/-- The code points of a text, each with its bytes. -/
def codePoints : Chunker UInt8 where
  size s := (decodeUtf8 s).2
  size_pos s _ := decodeUtf8_length_pos s

/-- The UTF-8 bytes of a code point. -/
def encodeUtf8 (cp : UInt32) : Bytes :=
  let lead (mark : UInt32) (shift : UInt32) : UInt8 := (mark ||| cp >>> shift).toUInt8
  let tail (shift : UInt32) : UInt8 := (0x80 ||| (cp >>> shift &&& 0x3F)).toUInt8
  if cp < 0x80 then [cp.toUInt8]
  else if cp < 0x800 then [lead 0xC0 6, tail 0]
  else if cp < 0x10000 then [lead 0xE0 12, tail 6, tail 0]
  else [lead 0xF0 18, tail 12, tail 6, tail 0]

/-! ## The byte tables -/

/-- The bytes whose code point is the byte itself. -/
def mapsToItself (b : UInt8) : Bool :=
  (33 ≤ b && b ≤ 126) || (161 ≤ b && b ≤ 172) || (174 ≤ b && b ≤ 255)

/-- The loop of `buildByteTables` over the bytes that are left: the symbol of each. The others get
the code points from `next` on. -/
def byteSymbols (next : UInt32) : List UInt8 → List Bytes
  | [] => []
  | b :: bytes =>
    if mapsToItself b then encodeUtf8 b.toUInt32 :: byteSymbols next bytes
    else encodeUtf8 next :: byteSymbols (next + 1) bytes

/-- The table `byte_to_unicode_`. -/
def byteTable : List Bytes := byteSymbols 256 ((List.range 256).map .ofNat)

/-- `byte_to_unicode_[b]`. -/
def byteToUnicode (b : UInt8) : Bytes := byteTable.getD b.toNat []

/-- The table `unicode_to_byte_`. -/
def unicodeToByte : KeyedMap Bytes UInt8 :=
  KeyedMap.ofPairs (byteTable.zipIdx.map fun e => (e.1, .ofNat e.2))

theorem length_byteTable : byteTable.length = 256 := by decide +kernel

/-- The table has the symbol of every byte at its place. -/
theorem getElem?_byteTable (b : UInt8) : byteTable[b.toNat]? = some (byteToUnicode b) := by
  have hb : b.toNat < byteTable.length := length_byteTable ▸ b.toNat_lt
  rw [byteToUnicode, List.getD_eq_getElem?_getD, List.getElem?_eq_getElem hb, Option.getD_some]

/-- What is checked of every row of the table holds of every byte. -/
theorem forall_byteToUnicode {P : UInt8 → Bytes → Prop}
    (h : ∀ e ∈ byteTable.zipIdx, P (.ofNat e.2) e.1) (b : UInt8) : P b (byteToUnicode b) := by
  have hmem : (byteToUnicode b, b.toNat) ∈ byteTable.zipIdx :=
    List.mem_zipIdx_iff_getElem?.mpr (getElem?_byteTable b)
  simpa using h _ hmem

/-- A byte from `!` to `~`. -/
def Visible (b : UInt8) : Prop := 33 ≤ b ∧ b ≤ 126

instance : DecidablePred Visible :=
  fun b => inferInstanceAs (Decidable (33 ≤ b ∧ b ≤ 126))

/-- A visible byte is its own symbol. -/
theorem byteToUnicode_of_visible : ∀ {b : UInt8}, Visible b → byteToUnicode b = [b] :=
  fun {b} => forall_byteToUnicode (P := fun b sym => Visible b → sym = [b]) (by decide +kernel) b

/-- The symbol of any other byte is a sequence of two bytes that are not visible. -/
theorem byteToUnicode_of_not_visible {b : UInt8} (hb : ¬Visible b) : ∃ c₀ c₁,
    byteToUnicode b = [c₀, c₁] ∧ (¬c₀.toUInt32 < 0x80 ∧ c₀.toUInt32 &&& 0xE0 = 0xC0) ∧
      ¬Visible c₀ ∧ ¬Visible c₁ := by
  have hrow := forall_byteToUnicode (P := fun b sym => ¬Visible b → sym.length = 2 ∧
    (¬(sym.getD 0 0).toUInt32 < 0x80 ∧ (sym.getD 0 0).toUInt32 &&& 0xE0 = 0xC0) ∧
      ¬Visible (sym.getD 0 0) ∧ ¬Visible (sym.getD 1 0)) (by decide +kernel) b hb
  obtain ⟨hlength, hlead⟩ := hrow
  obtain ⟨c₀, c₁, hsym⟩ := List.length_eq_two.mp hlength
  rw [hsym] at hlead
  exact ⟨c₀, c₁, hsym, hlead⟩

theorem byteToUnicode_ne_nil (b : UInt8) : byteToUnicode b ≠ [] := by
  by_cases hb : Visible b
  · rw [byteToUnicode_of_visible hb]
    exact List.cons_ne_nil _ _
  · obtain ⟨c₀, c₁, hsym, -⟩ := byteToUnicode_of_not_visible hb
    rw [hsym]
    exact List.cons_ne_nil _ _

/-- A byte is its own symbol only if it is visible. -/
theorem byteToUnicode_eq_singleton_iff {b : UInt8} : byteToUnicode b = [b] ↔ Visible b := by
  refine ⟨fun h => ?_, byteToUnicode_of_visible⟩
  by_contra hb
  obtain ⟨c₀, c₁, hsym, -⟩ := byteToUnicode_of_not_visible hb
  rw [hsym] at h
  cases h

/-- `decodeUtf8` reads a symbol whole, whatever follows it. -/
theorem decodeUtf8_byteToUnicode (b : UInt8) (rest : Bytes) :
    (decodeUtf8 (byteToUnicode b ++ rest)).2 = (byteToUnicode b).length := by
  by_cases hb : Visible b
  · have hascii : b.toUInt32 < 0x80 := by
      have := UInt8.le_iff_toNat_le.mp hb.2
      rw [UInt32.lt_iff_toNat_lt, UInt8.toNat_toUInt32]
      exact Nat.lt_of_le_of_lt this (by decide)
    rw [byteToUnicode_of_visible hb, List.singleton_append, decodeUtf8_of_ascii hascii,
      List.length_singleton]
  · obtain ⟨c₀, c₁, hsym, ⟨hlead, hmark⟩, -⟩ := byteToUnicode_of_not_visible hb
    rw [hsym, List.cons_append, List.singleton_append, decodeUtf8_of_twoBytes hlead hmark]
    rfl

/-- The byte of a symbol: the code points that `byteSymbols` hands out, taken back. -/
def symbolByte (sym : Bytes) : UInt8 :=
  let cp := (decodeUtf8 sym).1
  if cp < 256 then cp.toUInt8
  else if cp ≤ 288 then (cp - 256).toUInt8
  else if cp ≤ 322 then (cp - 289 + 127).toUInt8
  else 173

/-- The symbol of a byte stands for the byte. -/
theorem symbolByte_byteToUnicode (b : UInt8) : symbolByte (byteToUnicode b) = b :=
  forall_byteToUnicode (P := fun b sym => symbolByte sym = b) (by decide +kernel) b

/-- `unicode_to_byte_` inverts `byte_to_unicode_`. -/
theorem lookup_unicodeToByte (b : UInt8) : unicodeToByte.lookup (byteToUnicode b) = some b := by
  -- the rows of the table are the pairs of a symbol and its byte
  have hrow : ∀ {sym : Bytes} {b : UInt8},
      (sym, b) ∈ byteTable.zipIdx.map (fun e => (e.1, UInt8.ofNat e.2)) → symbolByte sym = b := by
    intro sym b h
    obtain ⟨e, he, heq⟩ := List.mem_map.mp h
    obtain ⟨rfl, rfl⟩ := Prod.mk.inj heq
    exact (by decide +kernel : ∀ e ∈ byteTable.zipIdx, symbolByte e.1 = .ofNat e.2) e he
  have hmem : (byteToUnicode b, b) ∈ byteTable.zipIdx.map (fun e => (e.1, UInt8.ofNat e.2)) :=
    List.mem_map.mpr ⟨(byteToUnicode b, b.toNat),
      List.mem_zipIdx_iff_getElem?.mpr (getElem?_byteTable b), by simp⟩
  obtain ⟨b', hb'⟩ := KeyedMap.exists_lookup_ofPairs hmem
  have hsame := hrow (KeyedMap.mem_of_lookup_ofPairs hb')
  rw [symbolByte_byteToUnicode] at hsame
  exact hb'.trans (congrArg some hsame.symm)

/-! ## Spelling -/

/-- A text as the symbols of its bytes. -/
def spell (text : Bytes) : Bytes := text.flatMap byteToUnicode

@[simp]
theorem spell_append (s t : Bytes) : spell (s ++ t) = spell s ++ spell t :=
  List.flatMap_append

@[simp]
theorem spell_singleton (b : UInt8) : spell [b] = byteToUnicode b :=
  List.flatMap_singleton ..

theorem spell_flatten (pieces : List Bytes) :
    spell pieces.flatten = (pieces.map spell).flatten := by
  induction pieces with
  | nil => rfl
  | cons x pieces ih => rw [List.flatten_cons, spell_append, ih, List.map_cons, List.flatten_cons]

/-- A spelling is not shorter than its text. -/
theorem length_le_length_spell (text : Bytes) : text.length ≤ (spell text).length :=
  List.length_le_length_flatMap byteToUnicode_ne_nil text

/-- The last loop of `decode`: each code point back to its byte, and through as it is when it is
the symbol of none. -/
def unmap (mapped : Bytes) : Bytes :=
  (codePoints.chunks mapped).flatMap fun ch =>
    match unicodeToByte.lookup ch with
    | some b => [b]
    | none => ch

/-- The unmapping undoes the spelling of any text. -/
theorem unmap_spell (text : Bytes) : unmap (spell text) = text := by
  have hchunks : codePoints.chunks (spell text) = text.map byteToUnicode := by
    rw [spell, List.flatMap_def]
    refine codePoints.chunks_flatten ?_ ?_
    · rintro _ h
      obtain ⟨b, -, rfl⟩ := List.mem_map.mp h
      exact byteToUnicode_ne_nil b
    · rintro _ h rest
      obtain ⟨b, -, rfl⟩ := List.mem_map.mp h
      exact decodeUtf8_byteToUnicode b rest
  rw [unmap, hchunks, List.flatMap_map]
  simp only [lookup_unicodeToByte, List.flatMap_singleton']

/-- The image of a chunk under `unmap`. -/
def unmapChunk (ch : Bytes) : Bytes :=
  match unicodeToByte.lookup ch with
  | some b => [b]
  | none => ch

/-- What the reverse table finds is a byte's symbol. -/
theorem byteToUnicode_of_lookup {ch : Bytes} {b : UInt8} (h : unicodeToByte.lookup ch = some b) :
    byteToUnicode b = ch := by
  obtain ⟨⟨sym, n⟩, he, heq⟩ := List.mem_map.mp (KeyedMap.mem_of_lookup_ofPairs h)
  obtain ⟨rfl, rfl⟩ := Prod.mk.inj heq
  have hn := List.mem_zipIdx_iff_getElem?.mp he
  have hlt : n < 256 := length_byteTable ▸ (List.getElem?_eq_some_iff.mp hn).1
  have hbyte : (UInt8.ofNat n).toNat = n := by
    rw [UInt8.toNat_ofNat', Nat.mod_eq_of_lt hlt]
  have hsym := getElem?_byteTable (.ofNat n)
  rw [hbyte, hn] at hsym
  exact (Option.some.inj hsym).symm

theorem length_unmapChunk_le (ch : Bytes) : (unmapChunk ch).length ≤ ch.length := by
  unfold unmapChunk
  split
  next b hb =>
    rw [← byteToUnicode_of_lookup hb]
    exact List.length_pos_iff.mpr (byteToUnicode_ne_nil b)
  next => exact Nat.le_refl _

/-- A chunk stays as it is unless it is the symbol of a byte that is not visible. -/
theorem unmapChunk_eq_self_iff {ch : Bytes} :
    unmapChunk ch = ch ↔ ∀ b, byteToUnicode b = ch → Visible b := by
  constructor
  · rintro h b rfl
    rw [unmapChunk, lookup_unicodeToByte] at h
    exact byteToUnicode_eq_singleton_iff.mp h.symm
  · intro h
    unfold unmapChunk
    split
    next b hb =>
      have hsym := byteToUnicode_of_lookup hb
      rw [← hsym, byteToUnicode_of_visible (h b hsym)]
    next => rfl

/-- No code point of the text is the symbol of a byte outside of `!` to `~`. -/
def SymbolFree (text : Bytes) : Prop :=
  ∀ ch ∈ codePoints.chunks text, ∀ b, byteToUnicode b = ch → Visible b

/-- The unmapping changes every text but these. -/
theorem unmap_eq_self_iff (text : Bytes) : unmap text = text ↔ SymbolFree text := by
  have hunmap : unmap text = ((codePoints.chunks text).map unmapChunk).flatten :=
    List.flatMap_def ..
  have htext := codePoints.flatten_chunks text
  have hkept : ((codePoints.chunks text).map unmapChunk).flatten =
      (codePoints.chunks text).flatten ↔ ∀ ch ∈ codePoints.chunks text, unmapChunk ch = ch :=
    List.flatten_map_eq_flatten_iff_of_length_le fun ch _ => length_unmapChunk_le ch
  rw [htext, ← hunmap] at hkept
  rw [hkept, SymbolFree]
  exact forall₂_congr fun ch _ => unmapChunk_eq_self_iff

/-- Nothing is unmapped to the empty text but itself. -/
theorem unmap_eq_nil_iff (text : Bytes) : unmap text = [] ↔ text = [] := by
  constructor
  · intro h
    have htext := codePoints.flatten_chunks text
    cases hchunks : codePoints.chunks text with
    | nil => rwa [hchunks, List.flatten_nil, eq_comm] at htext
    | cons ch chs =>
      -- the first code point would be unmapped to a byte or kept
      rw [unmap, hchunks, List.flatMap_cons, List.append_eq_nil_iff] at h
      obtain ⟨hfirst, -⟩ := h
      split at hfirst
      · exact absurd hfirst (List.cons_ne_nil _ _)
      · exact absurd hfirst (codePoints.ne_nil_of_mem_chunks (hchunks ▸ List.mem_cons_self))
  · rintro rfl
    exact unmap_spell []

/-- A text is its own spelling exactly when its spelling is all visible. -/
theorem spell_eq_self_iff (text : Bytes) : spell text = text ↔ ∀ c ∈ spell text, Visible c := by
  constructor
  · intro h
    -- no symbol is longer than its byte
    have hbytes : (text.map ([·])).flatten = text := by
      rw [← List.flatMap_def, List.flatMap_singleton']
    have hpieces : ((text.map ([·])).map spell).flatten = (text.map ([·])).flatten := by
      rw [← spell_flatten, hbytes, h]
    have hkept := (List.flatten_map_eq_flatten_iff fun x _ => length_le_length_spell x).mp hpieces
    rw [h]
    intro b hb
    have := hkept [b] (List.mem_map.mpr ⟨b, hb, rfl⟩)
    rwa [spell_singleton, byteToUnicode_eq_singleton_iff] at this
  · intro h
    have hkept : ∀ b ∈ text, byteToUnicode b = [b] := by
      intro b hb
      refine byteToUnicode_of_visible ?_
      by_contra hvisible
      obtain ⟨c₀, c₁, hsym, -, hc₀, -⟩ := byteToUnicode_of_not_visible hvisible
      exact hc₀ (h c₀ (List.mem_flatMap.mpr ⟨b, hb, by rw [hsym]; exact List.mem_cons_self⟩))
    rw [spell, List.flatMap_congr hkept, List.flatMap_singleton']

end HeteroAccel
