import HeteroAccel.HydroXL.Tokenizer

/-!
# The tokenizer round trip

Decoding undoes encoding as long as the byte fallback of `bpe` is not taken on a symbol with a byte
outside of `!` to `~`. The fallback is written for the bytes of the text, but it runs on a symbol
that `byte_to_unicode_` has already mapped: it maps the UTF-8 bytes of that symbol once more.

The symbols that the merge loop leaves of a piece spell consecutive parts of it
(`mergeLoop_spells`). Decoded, a part is itself when its symbol is in the vocabulary and the
spelling of the part when it is not (`decodedPart`); a part that changes gets longer, so the text
comes back only if no part changes (`decode_encode_eq_iff`).
-/

namespace HeteroAccel
namespace HydroXLTokenizer

variable {tok : HydroXLTokenizer}

/-! ## The vocabulary -/

/-- The symbol of every byte is a token. -/
def HasByteSymbols (tok : HydroXLTokenizer) : Prop := ∀ b, byteToUnicode b ∈ tok.vocab.1

/-- A text of the vocabulary is in the index. -/
theorem mem_vocabIndex {vocab : List Bytes} {s : Bytes} {n : ℕ} (h : vocab[n]? = some s) :
    (s, Int32.ofNat n) ∈ vocab.zipIdx.map fun e => (e.1, Int32.ofNat e.2) :=
  List.mem_map.mpr ⟨(s, n), List.mem_zipIdx_iff_getElem?.mpr h, rfl⟩

/-- The id of a text is an index at which the vocabulary has it. -/
theorem exists_of_lookup_strToId {s : Bytes} {id : TokenID} (h : tok.strToId.lookup s = some id) :
    ∃ n < 2 ^ 24, tok.vocab.1[n]? = some s ∧ id = .ofNat n := by
  rw [tok.strToId_eq] at h
  obtain ⟨⟨s', n⟩, he, heq⟩ := List.mem_map.mp (KeyedMap.mem_of_lookup_ofPairs h)
  obtain ⟨rfl, rfl⟩ := Prod.mk.inj heq
  have hn := List.mem_zipIdx_iff_getElem?.mp he
  refine ⟨n, ?_, hn, rfl⟩
  exact Nat.lt_of_lt_of_le (List.getElem?_eq_some_iff.mp hn).1 tok.vocab.2

theorem ofNat_nonneg {n : ℕ} (hn : n < 2 ^ 24) : ¬Int32.ofNat n < 0 := by
  rw [Int32.lt_iff_toInt_lt, Int32.toInt_ofNat_of_lt (by omega)]
  simp

/-- The text of a token that is looked up by its text. -/
theorem tokenText_tokenToId {s : Bytes} (hs : s ∈ tok.vocab.1) :
    tok.tokenToId s ≠ tokenInvalid ∧ tok.tokenText false (tok.tokenToId s) = s := by
  obtain ⟨n, hn⟩ := List.mem_iff_getElem?.mp hs
  obtain ⟨id, hid⟩ := KeyedMap.exists_lookup_ofPairs (mem_vocabIndex hn)
  have hlookup : tok.strToId.lookup s = some id := by
    rw [tok.strToId_eq]
    exact hid
  obtain ⟨m, hm, hvocab, rfl⟩ := exists_of_lookup_strToId hlookup
  have hclamp : (Int32.ofNat m).toNatClampNeg = m := Int32.toNatClampNeg_ofNat_of_lt (by omega)
  rw [tokenToId, hlookup]
  constructor
  · intro hinvalid
    have hm' : Int32.ofNat m = tokenInvalid := hinvalid
    exact ofNat_nonneg hm (hm' ▸ (by decide : tokenInvalid < 0))
  · dsimp only
    rw [tokenText, if_neg (ofNat_nonneg hm), hclamp, hvocab]
    dsimp only
    split <;> simp

/-- A text that is not in the vocabulary has no id. -/
theorem tokenToId_of_notMem {s : Bytes} (hs : s ∉ tok.vocab.1) :
    tok.tokenToId s = tokenInvalid := by
  unfold tokenToId
  split
  next id hid =>
    obtain ⟨n, -, hn, -⟩ := exists_of_lookup_strToId hid
    exact absurd (List.mem_of_getElem? hn) hs
  next => rfl

/-- What decoding makes of a symbol: the fallback spells it once more. -/
theorem flatMap_tokenText_symbolIds (hbytes : HasByteSymbols tok) (sym : Bytes) :
    (tok.symbolIds sym).flatMap (tok.tokenText false) =
      if sym ∈ tok.vocab.1 then sym else spell sym := by
  unfold symbolIds
  dsimp only
  split_ifs with hinvalid hmem hmem
  · exact absurd hinvalid (tokenText_tokenToId hmem).1
  · -- every byte has a token, so none is dropped
    have hkept : ∀ bid ∈ sym.map fun ch => tok.tokenToId (byteToUnicode ch),
        decide (bid ≠ tokenInvalid) = true := by
      intro bid hbid
      obtain ⟨ch, -, rfl⟩ := List.mem_map.mp hbid
      exact decide_eq_true (tokenText_tokenToId (hbytes ch)).1
    rw [List.filter_eq_self.mpr hkept, List.flatMap_map, spell]
    exact List.flatMap_congr fun ch _ => (tokenText_tokenToId (hbytes ch)).2
  · rw [List.flatMap_singleton]
    exact (tokenText_tokenToId hmem).2
  · exact absurd (tokenToId_of_notMem hmem) hinvalid

/-! ## The merge loop -/

/-- The symbols spell consecutive parts of the text. -/
def Spells (symbols : List Bytes) (text : Bytes) : Prop :=
  ∃ parts : List Bytes, symbols = parts.map spell ∧ parts.flatten = text

theorem spells_bytes (piece : Bytes) : Spells (piece.map byteToUnicode) piece := by
  refine ⟨piece.map ([·]), ?_, ?_⟩
  · rw [List.map_map]
    exact List.map_congr_left fun b _ => (spell_singleton b).symm
  · rw [← List.flatMap_def, List.flatMap_singleton']

/-- Merging joins parts. -/
theorem Spells.mergePair {symbols : List Bytes} {text : Bytes} (h : Spells symbols text)
    (left right : Bytes) : Spells (mergePair left right symbols) text := by
  induction symbols using mergePair.induct left right generalizing text with
  | case1 a b symbols hpair ih =>
    obtain ⟨_ | ⟨x, _ | ⟨y, parts⟩⟩, hparts, rfl⟩ := h
    · cases hparts
    · cases hparts
    · obtain ⟨hx, hy, hrest⟩ : a = spell x ∧ b = spell y ∧ symbols = parts.map spell := by
        simpa using hparts
      obtain ⟨parts', hparts', hflatten⟩ := ih ⟨parts, hrest, rfl⟩
      refine ⟨(x ++ y) :: parts', ?_, ?_⟩
      · rw [HydroXLTokenizer.mergePair, if_pos hpair, List.map_cons, spell_append, ← hparts',
          ← hx, ← hy, hpair.1, hpair.2]
      · simp [hflatten]
  | case2 a b symbols hpair ih =>
    obtain ⟨_ | ⟨x, parts⟩, hparts, rfl⟩ := h
    · cases hparts
    · obtain ⟨hx, hrest⟩ : a = spell x ∧ b :: symbols = parts.map spell := by
        simpa using hparts
      obtain ⟨parts', hparts', hflatten⟩ := ih ⟨parts, hrest, rfl⟩
      refine ⟨x :: parts', ?_, ?_⟩
      · rw [HydroXLTokenizer.mergePair, if_neg hpair, List.map_cons, ← hparts', ← hx]
      · rw [List.flatten_cons, List.flatten_cons, hflatten]
  | case3 symbols hshort =>
    rw [HydroXLTokenizer.mergePair]
    · exact h
    · exact hshort

/-- Every round of the merge loop keeps the text that is spelled. -/
theorem mergeLoop_spells (tok : HydroXLTokenizer) {symbols : List Bytes} {text : Bytes}
    (h : Spells symbols text) :
    Spells (tok.mergeLoop symbols) text := by
  induction symbols using mergeLoop.induct tok with
  | case1 symbols hlong pair hbest ih =>
    rw [mergeLoop, if_pos hlong]
    split
    next pair' hbest' =>
      obtain rfl := Option.some.inj (hbest.symm.trans hbest')
      exact ih (h.mergePair _ _)
    next hnone => cases hbest.symm.trans hnone
  | case2 symbols hlong hnone =>
    rw [mergeLoop, if_pos hlong]
    split
    next pair hbest => cases hbest.symm.trans hnone
    next => exact h
  | case3 symbols hshort =>
    rw [mergeLoop, if_neg hshort]
    exact h

/-! ## The round trip -/

/-- The symbols that the merge loop leaves of a text. -/
def textSymbols (tok : HydroXLTokenizer) (text : Bytes) : List Bytes :=
  (preTokenize text).flatMap tok.bpeSymbols

/-- The symbols of a text spell it, also when they have been merged. -/
theorem spells_textSymbols (tok : HydroXLTokenizer) (text : Bytes) :
    Spells (tok.textSymbols text) text := by
  have hpieces : ∀ pieces : List Bytes, Spells (pieces.flatMap tok.bpeSymbols) pieces.flatten := by
    intro pieces
    induction pieces with
    | nil => exact ⟨[], rfl, rfl⟩
    | cons piece pieces ih =>
      obtain ⟨parts, hparts, hflatten⟩ := ih
      obtain ⟨parts', hparts', hflatten'⟩ := mergeLoop_spells tok (spells_bytes piece)
      refine ⟨parts' ++ parts, ?_, ?_⟩
      · rw [List.flatMap_cons, hparts, List.map_append, ← hparts']
        rfl
      · rw [List.flatten_append, hflatten, hflatten', List.flatten_cons]
  have := hpieces (preTokenize text)
  rwa [flatten_preTokenize] at this

/-- A part of the text as it comes back. -/
def decodedPart (tok : HydroXLTokenizer) (part : Bytes) : Bytes :=
  if spell part ∈ tok.vocab.1 then part else spell part

/-- The tokens of a text are decoded part by part. -/
theorem decode_encode (hloaded : tok.loaded) (hbytes : HasByteSymbols tok) {text : Bytes}
    {parts : List Bytes} (hparts : tok.textSymbols text = parts.map spell) :
    tok.decode (tok.encode text false) false = (parts.map tok.decodedPart).flatten := by
  have hids : tok.encode text false = (tok.textSymbols text).flatMap tok.symbolIds := by
    simp only [encode, hloaded, textSymbols, List.flatMap_assoc, Bool.not_true, Bool.false_and,
      Bool.false_eq_true, if_false, List.nil_append]
    rfl
  have hmapped : (tok.encode text false).flatMap (tok.tokenText false) =
      spell (parts.map tok.decodedPart).flatten := by
    rw [hids, List.flatMap_assoc, hparts, List.flatMap_map, spell_flatten, List.map_map,
      ← List.flatMap_def]
    refine List.flatMap_congr fun part _ => ?_
    rw [flatMap_tokenText_symbolIds hbytes, Function.comp_apply, decodedPart]
    split_ifs <;> rfl
  rw [decode, hloaded, hmapped]
  exact unmap_spell _

/-- A text comes back exactly when every symbol is a token or all visible. -/
theorem decode_encode_eq_iff (hloaded : tok.loaded) (hbytes : HasByteSymbols tok) (text : Bytes) :
    tok.decode (tok.encode text false) false = text ↔
      ∀ sym ∈ tok.textSymbols text, sym ∈ tok.vocab.1 ∨ ∀ c ∈ sym, Visible c := by
  obtain ⟨parts, hparts, hflatten⟩ := spells_textSymbols tok text
  have hle : ∀ part : Bytes, part.length ≤ (tok.decodedPart part).length := by
    intro part
    unfold decodedPart
    split_ifs
    · exact Nat.le_refl _
    · exact length_le_length_spell part
  rw [decode_encode hloaded hbytes hparts, hparts]
  have hkept : (parts.map tok.decodedPart).flatten = text ↔
      ∀ part ∈ parts, tok.decodedPart part = part := by
    rw [← List.flatten_map_eq_flatten_iff fun part _ => hle part, hflatten]
  rw [hkept, List.forall_mem_map]
  refine forall₂_congr fun part _ => ?_
  unfold decodedPart
  split_ifs with hmem
  · exact iff_of_true rfl (.inl hmem)
  · rw [spell_eq_self_iff, or_iff_right hmem]

/-- What loading leaves of the metadata. -/
theorem loadFromGGUF_loaded {tok₀ : HydroXLTokenizer} {gguf : GGUFLoader}
    (h : (tok₀.loadFromGGUF gguf).1) : (tok₀.loadFromGGUF gguf).2.loaded := by
  unfold loadFromGGUF fail at h ⊢
  dsimp only at h ⊢
  split_ifs at h ⊢
  split at h <;> simp_all

/-- **Tokenizer round trip.** A tokenizer loaded from a vocabulary with all byte symbols gives a
text back exactly when every symbol that its merge loop leaves of the text is in the vocabulary or
consists of bytes from `!` to `~`. -/
theorem roundTrip_iff (tok₀ : HydroXLTokenizer) (gguf : GGUFLoader)
    (hload : (tok₀.loadFromGGUF gguf).1) (hbytes : HasByteSymbols (tok₀.loadFromGGUF gguf).2)
    (text : Bytes) :
    (tok₀.loadFromGGUF gguf).2.decode ((tok₀.loadFromGGUF gguf).2.encode text false) false = text ↔
      ∀ sym ∈ (tok₀.loadFromGGUF gguf).2.textSymbols text,
        sym ∈ (tok₀.loadFromGGUF gguf).2.vocab.1 ∨ ∀ c ∈ sym, Visible c :=
  decode_encode_eq_iff (loadFromGGUF_loaded hload) hbytes text

/-- Metadata with the byte symbols as the vocabulary and the merge of two spaces, whose product is
no token. -/
def sampleGGUF : GGUFLoader where
  kv := KeyedMap.ofPairs
    [(Bytes.ofString "tokenizer.ggml.model", .string (Bytes.ofString "gpt2")),
      (Bytes.ofString "tokenizer.ggml.tokens",
        .strings ⟨byteTable, by rw [length_byteTable]; decide⟩),
      (Bytes.ofString "tokenizer.ggml.merges",
        .strings ⟨[pairKey (byteToUnicode 0x20) (byteToUnicode 0x20)], by decide⟩)]

theorem sampleGGUF_loads : (loadFromGGUF {} sampleGGUF).1 := by decide +kernel

/-- The sample's vocabulary has the symbols of all bytes. -/
theorem sampleGGUF_hasByteSymbols : HasByteSymbols (loadFromGGUF {} sampleGGUF).2 := by
  have hvocab : (loadFromGGUF {} sampleGGUF).2.vocab.1 = byteTable := by decide +kernel
  intro b
  rw [hvocab]
  exact List.mem_of_getElem? (getElem?_byteTable b)

/-- A text is read back from its tokens by the sample's tokenizer. -/
theorem roundTrip_iff_sampleGGUF :
    (loadFromGGUF {} sampleGGUF).2.decode
      ((loadFromGGUF {} sampleGGUF).2.encode (Bytes.ofString "hi x") false) false =
        Bytes.ofString "hi x" :=
  (roundTrip_iff {} sampleGGUF sampleGGUF_loads sampleGGUF_hasByteSymbols _).mpr (by decide +kernel)

/-- Two spaces do not come back: their symbols merge to one that is no token. -/
theorem not_roundTrip_sampleGGUF : ¬∀ (tok₀ : HydroXLTokenizer) (gguf : GGUFLoader),
    (tok₀.loadFromGGUF gguf).1 → HasByteSymbols (tok₀.loadFromGGUF gguf).2 → ∀ text : Bytes,
      (tok₀.loadFromGGUF gguf).2.decode ((tok₀.loadFromGGUF gguf).2.encode text false) false =
        text := by
  intro hall
  have hspaces := hall {} sampleGGUF sampleGGUF_loads sampleGGUF_hasByteSymbols [0x20, 0x20]
  rw [decode_encode_eq_iff (loadFromGGUF_loaded sampleGGUF_loads) sampleGGUF_hasByteSymbols]
    at hspaces
  exact absurd hspaces (by decide +kernel)

end HydroXLTokenizer
end HeteroAccel
