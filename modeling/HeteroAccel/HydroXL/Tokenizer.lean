import HeteroAccel.HydroXL.GGUFLoader
import HeteroAccel.HydroXL.PreTokenize
import HeteroAccel.Lib.FirstLeast

/-!
# The byte-level BPE tokenizer

`HydroXLTokenizer`: loading from GGUF metadata, the merge loop of `bpe`, `encode` and `decode`. The
byte tables are the same for every tokenizer and stand in `ByteTables`; `buildByteTables` fills them
before anything else is loaded.
-/

namespace HeteroAccel

/-- The id of a token: an index into the vocabulary, or negative. -/
abbrev TokenID := Int32

/-- The id for a token that the vocabulary does not have. -/
def tokenInvalid : TokenID := -1

/-- The reverse lookup that `loadFromGGUF` fills: a later token overwrites an earlier one. -/
def vocabIndex (vocab : List Bytes) : KeyedMap Bytes TokenID :=
  KeyedMap.ofPairs (vocab.zipIdx.map fun e => (e.1, .ofNat e.2))

/-- A `HydroXLTokenizer`. The reverse lookup is always that of the vocabulary. -/
structure HydroXLTokenizer where
  loaded : Bool := false
  addBos : Bool := false
  /-- The token texts in byte-level form. -/
  vocab : Retained Bytes := ⟨[], Nat.zero_le _⟩
  strToId : KeyedMap Bytes TokenID := ∅
  strToId_eq : strToId = vocabIndex vocab.1 := by rfl
  /-- The rank of the merge `left right`; indices of an array that the loader keeps fit in an
  `int`. -/
  mergeRank : KeyedMap Bytes ℕ := ∅
  tokenType : List Int32 := []
  bosId : TokenID := 151643
  eosId : TokenID := 151645
  unkId : TokenID := tokenInvalid
  lastError : Bytes := []

namespace HydroXLTokenizer

open Bytes (ofString ofDecimal)

/-! ## Loading -/

/-- One merge is `left right` with a single separating space. -/
def wellFormedMerge (m : Bytes) : Bool :=
  match m.idxOf? 0x20 with
  | some sp => !(m.drop (sp + 1)).contains 0x20
  | none => false

/-- The loop over the merges from number `i` on, up to the first malformed one. -/
def addMerges (rank : KeyedMap Bytes ℕ) (i : ℕ) : List Bytes → KeyedMap Bytes ℕ × Option Bytes
  | [] => (rank, none)
  | m :: merges =>
    if wellFormedMerge m then addMerges (rank.insert m i) (i + 1) merges
    else (rank, some (ofString "Malformed merge entry #" ++ ofDecimal i ++ ofString ": '" ++ m ++
      ofString "'"))

/-- The token types: 1 where the metadata has none. -/
def tokenTypes (gguf : GGUFLoader) (n : ℕ) : List Int32 :=
  match gguf.kv.lookup (ofString "tokenizer.ggml.token_type") with
  | some (.int32s arr) => arr.1.take n ++ List.replicate (n - arr.1.length) 1
  | _ => List.replicate n 1

/-- A token id of the metadata. -/
def tokenIdOf (gguf : GGUFLoader) (key : String) : TokenID :=
  (gguf.kvUInt32 (ofString key) tokenInvalid.toUInt32).toInt32

/-- `last_error_ = msg; return false;` -/
def fail (tok : HydroXLTokenizer) (msg : Bytes) : Bool × HydroXLTokenizer :=
  (false, { tok with lastError := msg })

/-- `loadFromGGUF` and its result. -/
def loadFromGGUF (tok : HydroXLTokenizer) (gguf : GGUFLoader) : Bool × HydroXLTokenizer :=
  let tok := { tok with loaded := false }
  let model := gguf.kvString (ofString "tokenizer.ggml.model") []
  let tokens := gguf.kvStringArray (ofString "tokenizer.ggml.tokens")
  let merges := gguf.kvStringArray (ofString "tokenizer.ggml.merges")
  if model ≠ ofString "gpt2" then
    tok.fail (ofString "Unsupported tokenizer model '" ++ model ++
      ofString "' (only 'gpt2' byte-level BPE is supported)")
  else if tokens.1 = [] then
    tok.fail (ofString "tokenizer.ggml.tokens (string array) missing or empty")
  else if merges.1 = [] then
    tok.fail (ofString
      "tokenizer.ggml.merges (string array) missing or empty — required for gpt2 BPE")
  else
    let (mergeRank, malformed) := addMerges ∅ 0 merges.1
    let tok := { tok with
      vocab := tokens
      strToId := vocabIndex tokens.1
      strToId_eq := rfl
      mergeRank }
    match malformed with
    | some msg => tok.fail msg
    | none => (true, { tok with
        tokenType := tokenTypes gguf tokens.1.length
        bosId := tokenIdOf gguf "tokenizer.ggml.bos_token_id"
        eosId := tokenIdOf gguf "tokenizer.ggml.eos_token_id"
        unkId := tokenIdOf gguf "tokenizer.ggml.unknown_token_id"
        addBos :=
          match gguf.kv.lookup (ofString "tokenizer.ggml.add_bos_token") with
          | some (.bool b) => b
          | some _ => tok.addBos
          | none => false
        loaded := true })

variable (tok : HydroXLTokenizer)

/-! ## Byte pair encoding -/

/-- The key of a pair in the merge table. -/
def pairKey (left right : Bytes) : Bytes := left ++ 0x20 :: right

/-- The largest `int`. -/
def intMax : ℕ := 2 ^ 31 - 1

/-- One round of the search for the pair of lowest rank. -/
def considerPair (best : ℕ × Option (Bytes × Bytes)) (pair : Bytes × Bytes) :
    ℕ × Option (Bytes × Bytes) :=
  match tok.mergeRank.lookup (pairKey pair.1 pair.2) with
  | some rank => if rank < best.1 then (rank, some pair) else best
  | none => best

/-- The pairs of neighbours. -/
def adjacent (symbols : List Bytes) : List (Bytes × Bytes) := symbols.zip symbols.tail

/-- The first pair of lowest rank, if any is in the merge table. -/
def bestPair (symbols : List Bytes) : Option (Bytes × Bytes) :=
  ((adjacent symbols).foldl tok.considerPair (intMax, none)).2

/-- The symbols with every occurrence of the pair merged, from left to right. -/
def mergePair (left right : Bytes) : List Bytes → List Bytes
  | a :: b :: symbols =>
    if a = left ∧ b = right then (left ++ right) :: mergePair left right symbols
    else a :: mergePair left right (b :: symbols)
  | symbols => symbols

/-- The rank of a pair. -/
def rankOf (pair : Bytes × Bytes) : Option ℕ := tok.mergeRank.lookup (pairKey pair.1 pair.2)

/-- The best pair is found by the search of the library. -/
theorem bestPair_eq_search (symbols : List Bytes) :
    tok.bestPair symbols = FirstLeast.search tok.rankOf intMax (adjacent symbols) := rfl

/-- The pair found is one of neighbours and in the merge table. -/
theorem bestPair_spec {symbols : List Bytes} {pair : Bytes × Bytes}
    (h : tok.bestPair symbols = some pair) :
    pair ∈ adjacent symbols ∧ pairKey pair.1 pair.2 ∈ tok.mergeRank := by
  obtain ⟨hmem, rank, hrank, -⟩ := FirstLeast.search_eq_some (tok.bestPair_eq_search symbols ▸ h)
  exact ⟨hmem, AList.lookup_isSome.mp (Option.isSome_of_eq_some hrank)⟩

theorem length_mergePair_le (left right : Bytes) (symbols : List Bytes) :
    (mergePair left right symbols).length ≤ symbols.length := by
  induction symbols using mergePair.induct left right with
  | case1 a b symbols h ih =>
    rw [mergePair, if_pos h]
    simp only [List.length_cons]
    omega
  | case2 a b symbols h ih =>
    rw [mergePair, if_neg h]
    simp only [List.length_cons] at ih ⊢
    omega
  | case3 symbols hshort =>
    rw [mergePair]
    exact hshort

/-- A merge of a pair that is there leaves fewer symbols. -/
theorem length_mergePair_lt {left right : Bytes} {symbols : List Bytes}
    (h : (left, right) ∈ adjacent symbols) :
    (mergePair left right symbols).length < symbols.length := by
  induction symbols using mergePair.induct left right with
  | case1 a b symbols hpair =>
    have := length_mergePair_le left right symbols
    rw [mergePair, if_pos hpair]
    simp only [List.length_cons]
    omega
  | case2 a b symbols hpair ih =>
    have htail : (left, right) ∈ adjacent (b :: symbols) := by
      rcases List.mem_cons.mp h with heq | h
      · exact absurd ⟨(Prod.mk.inj heq).1.symm, (Prod.mk.inj heq).2.symm⟩ hpair
      · exact h
    rw [mergePair, if_neg hpair]
    simpa using ih htail
  | case3 symbols hshort =>
    match symbols, hshort, h with
    | a :: b :: symbols, hshort, _ => exact absurd rfl (hshort a b symbols)

/-- The loop of `bpe`: merge the pair of lowest rank until none is left. -/
def mergeLoop (symbols : List Bytes) : List Bytes :=
  if symbols.length > 1 then
    match _h : tok.bestPair symbols with
    | some pair => mergeLoop (mergePair pair.1 pair.2 symbols)
    | none => symbols
  else symbols
termination_by symbols.length
decreasing_by exact length_mergePair_lt (tok.bestPair_spec ‹_›).1

/-- `tokenToId`. -/
def tokenToId (s : Bytes) : TokenID :=
  match tok.strToId.lookup s with
  | some id => id
  | none => tokenInvalid

/-- The ids of a symbol; one that is not in the vocabulary falls back to its bytes. -/
def symbolIds (sym : Bytes) : List TokenID :=
  let id := tok.tokenToId sym
  if id = tokenInvalid then
    (sym.map fun ch => tok.tokenToId (byteToUnicode ch)).filter fun bid => bid ≠ tokenInvalid
  else [id]

/-- The symbols that the merge loop leaves of a piece. -/
def bpeSymbols (piece : Bytes) : List Bytes := tok.mergeLoop (piece.map byteToUnicode)

/-- The tokens of a piece of text. -/
def bpe (piece : Bytes) : List TokenID := (tok.bpeSymbols piece).flatMap tok.symbolIds

/-! ## Encoding and decoding -/

/-- `encode`: the tokens of a text, behind the token for its beginning if that is asked for. -/
def encode (text : Bytes) (addBos : Bool) : List TokenID :=
  if !tok.loaded then []
  else
    (if addBos && tok.bosId ≠ tokenInvalid then [tok.bosId] else []) ++
      (preTokenize text).flatMap tok.bpe

/-- What `decode` takes over from a token: nothing from an id that is out of range, nor from a
control or unused token when these are skipped. -/
def tokenText (skipSpecial : Bool) (id : TokenID) : Bytes :=
  if id < 0 then []
  else
    match tok.vocab.1[id.toNatClampNeg]? with
    | some text =>
      match tok.tokenType[id.toNatClampNeg]? with
      | some t => if skipSpecial && (t = 3 || t = 5) then [] else text
      | none => text
    | none => []

/-- `decode`: the text of the tokens. -/
def decode (ids : List TokenID) (skipSpecial : Bool) : Bytes :=
  if !tok.loaded then [] else unmap (ids.flatMap (tok.tokenText skipSpecial))

/-- `decodeToken`: the text of a token as the vocabulary has it. -/
def decodeToken (id : TokenID) : Bytes :=
  if id < 0 then [] else (tok.vocab.1[id.toNatClampNeg]?).getD []

end HydroXLTokenizer
end HeteroAccel
