import HeteroAccel.HydroXL.Tokenizer

/-!
# The rounds of byte pair encoding

The merge loop of `bpe`, round by round. Each round merges a pair of least rank among the
neighbours, wherever it occurs from left to right (`mergesLeast_of_mergeRound`); the text of the
symbols stays, their number falls, and at the end no pair of neighbours is in the merge table
(`mergeRounds_spec`).

The table is one that `loadFromGGUF` has filled, so that its ranks are numbers of an `int`
(`Built.rank_lt`).
-/

namespace HeteroAccel.HydroXLTokenizer

/-! ## The merge table -/

/-- The tokenizers there are: a fresh one, and what loading makes of one. -/
inductive Built : HydroXLTokenizer → Prop
  | fresh : Built {}
  | load {tok : HydroXLTokenizer} (h : Built tok) (gguf : GGUFLoader) :
    Built (tok.loadFromGGUF gguf).2

/-- The ranks that the loop over the merges gives are their numbers. -/
theorem lookup_addMerges {rank : KeyedMap Bytes ℕ} {i bound : ℕ} {merges : List Bytes}
    (hbound : i + merges.length ≤ bound)
    (hrank : ∀ key r, rank.lookup key = some r → r < bound) :
    ∀ key r, (addMerges rank i merges).1.lookup key = some r → r < bound := by
  induction merges generalizing rank i with
  | nil => exact hrank
  | cons m merges ih =>
    rw [List.length_cons] at hbound
    unfold addMerges
    split
    · refine ih (by omega) fun key r hr => ?_
      by_cases hkey : key = m
      · rw [hkey, AList.lookup_insert] at hr
        have := Option.some.inj hr
        omega
      · rw [AList.lookup_insert_ne hkey] at hr
        exact hrank key r hr
    · exact hrank

/-- Loading leaves the table as it is, or fills it from an array of merges. -/
theorem mergeRank_loadFromGGUF (tok : HydroXLTokenizer) (gguf : GGUFLoader) :
    (tok.loadFromGGUF gguf).2.mergeRank = tok.mergeRank ∨ ∃ merges : Retained Bytes,
      (tok.loadFromGGUF gguf).2.mergeRank = (addMerges ∅ 0 merges.1).1 := by
  unfold loadFromGGUF
  dsimp only
  split_ifs
  · exact .inl rfl
  · exact .inl rfl
  · exact .inl rfl
  · refine .inr ⟨gguf.kvStringArray (Bytes.ofString "tokenizer.ggml.merges"), ?_⟩
    split <;> rfl

/-- The ranks of a built tokenizer are below the greatest number. -/
theorem Built.rank_lt {tok : HydroXLTokenizer} (h : tok.Built) {pair : Bytes × Bytes} {r : ℕ}
    (hr : tok.rankOf pair = some r) : r < intMax := by
  have hall : ∀ key r, tok.mergeRank.lookup key = some r → r < 2 ^ 24 := by
    clear hr
    induction h with
    | fresh => exact fun key r hr => by cases hr
    | load h gguf ih =>
      obtain heq | ⟨merges, heq⟩ := mergeRank_loadFromGGUF _ gguf
      · rw [heq]
        exact ih
      · rw [heq]
        refine lookup_addMerges ?_ fun key r hr => by cases hr
        rw [Nat.zero_add]
        exact merges.2
  have := hall _ r hr
  unfold intMax
  omega

/-! ## One round -/

variable (tok : HydroXLTokenizer)

/-- The symbols after one round of the loop; `none` where the loop ends. -/
def mergeRound (symbols : List Bytes) : Option (List Bytes) :=
  if symbols.length > 1 then
    (tok.bestPair symbols).map fun pair => mergePair pair.1 pair.2 symbols
  else none

/-- Every occurrence of the pair is merged, from left to right: the symbols fall into blocks, of
which each is the pair, or one symbol with which no occurrence of the pair begins. -/
def MergesOccurrences (left right : Bytes) (symbols merged : List Bytes) : Prop :=
  ∃ blocks : List (List Bytes), blocks.flatten = symbols ∧ blocks.map List.flatten = merged ∧
    ∀ before block behind, blocks = before ++ block :: behind →
      block = [left, right] ∨
        ∃ a, block = [a] ∧ ¬[left, right] <+: (block :: behind).flatten

/-- A pair of least rank among the neighbours is merged. -/
def MergesLeast (symbols merged : List Bytes) : Prop :=
  ∃ left right rank, (left, right) ∈ adjacent symbols ∧ tok.rankOf (left, right) = some rank ∧
    (∀ pair ∈ adjacent symbols, ∀ rank', tok.rankOf pair = some rank' → rank ≤ rank') ∧
    MergesOccurrences left right symbols merged

variable {tok} {left right : Bytes} {symbols merged : List Bytes}

/-- A block in front of blocks. -/
theorem MergesOccurrences.cons {block : List Bytes}
    (h : MergesOccurrences left right symbols merged)
    (hblock : block = [left, right] ∨
      ∃ a, block = [a] ∧ ¬[left, right] <+: block ++ symbols) :
    MergesOccurrences left right (block ++ symbols) (block.flatten :: merged) := by
  obtain ⟨blocks, rfl, rfl, hall⟩ := h
  refine ⟨block :: blocks, rfl, rfl, fun before b behind heq => ?_⟩
  cases before with
  | nil =>
    obtain ⟨rfl, rfl⟩ := List.cons.inj heq
    exact hblock
  | cons b' before => exact hall before b behind (List.cons.inj heq).2

theorem mergesOccurrences_nil : MergesOccurrences left right [] [] :=
  ⟨[], rfl, rfl, fun before block behind heq => by simp at heq⟩

/-- `mergePair` merges the occurrences of a pair from the left. -/
theorem mergesOccurrences_mergePair (left right : Bytes) (symbols : List Bytes) :
    MergesOccurrences left right symbols (mergePair left right symbols) := by
  induction symbols using mergePair.induct left right with
  | case1 a b symbols hpair ih =>
    obtain ⟨rfl, rfl⟩ := hpair
    have hblock : MergesOccurrences a b ([a, b] ++ symbols)
        ([a, b].flatten :: mergePair a b symbols) := ih.cons (.inl rfl)
    rw [mergePair, if_pos ⟨rfl, rfl⟩]
    simpa using hblock
  | case2 a b symbols hpair ih =>
    have hnot : ¬[left, right] <+: [a] ++ b :: symbols := fun hstarts => by
      simp only [List.singleton_append, List.cons_prefix_cons] at hstarts
      exact hpair ⟨hstarts.1.symm, hstarts.2.1.symm⟩
    have hblock : MergesOccurrences left right ([a] ++ b :: symbols)
        ([a].flatten :: mergePair left right (b :: symbols)) := ih.cons (.inr ⟨a, rfl, hnot⟩)
    rw [mergePair, if_neg hpair]
    simpa using hblock
  | case3 symbols hshort =>
    rcases symbols with _ | ⟨a, _ | ⟨b, symbols⟩⟩
    · exact mergesOccurrences_nil
    · -- one symbol is a block of its own
      have hnot : ¬[left, right] <+: [a] ++ [] := fun h => by simpa using h.length_le
      have hblock : MergesOccurrences left right ([a] ++ []) ([a].flatten :: []) :=
        mergesOccurrences_nil.cons (.inr ⟨a, rfl, hnot⟩)
      simpa [mergePair] using hblock
    · exact absurd rfl (hshort a b symbols)

/-- Merging keeps the text of the symbols. -/
theorem MergesOccurrences.flatten_eq (h : MergesOccurrences left right symbols merged) :
    merged.flatten = symbols.flatten := by
  obtain ⟨blocks, rfl, rfl, -⟩ := h
  rw [List.flatten_flatten]

/-- A round merges a pair of least rank, and leaves fewer symbols. -/
theorem mergesLeast_of_mergeRound (h : tok.mergeRound symbols = some merged) :
    tok.MergesLeast symbols merged ∧ merged.length < symbols.length ∧ 1 < symbols.length := by
  unfold mergeRound at h
  split_ifs at h with hlong
  obtain ⟨⟨left, right⟩, hbest, rfl⟩ := Option.map_eq_some_iff.mp h
  obtain ⟨hmem, rank, hrank, hleast⟩ :=
    FirstLeast.search_eq_some (tok.bestPair_eq_search symbols ▸ hbest)
  exact ⟨⟨left, right, rank, hmem, hrank, hleast, mergesOccurrences_mergePair left right symbols⟩,
    length_mergePair_lt hmem, hlong⟩

/-- Where the loop ends, no pair of neighbours has a rank. -/
theorem rankOf_of_mergeRound (hbuilt : tok.Built) (h : tok.mergeRound symbols = none) :
    ∀ pair ∈ adjacent symbols, tok.rankOf pair = none := by
  intro pair hpair
  unfold mergeRound at h
  split_ifs at h with hlong
  · cases hrank : tok.rankOf pair with
    | none => rfl
    | some rank =>
      -- a rank that is there lies below the start of the search
      have hnone := Option.map_eq_none_iff.mp h
      have hle := FirstLeast.search_eq_none (tok.bestPair_eq_search symbols ▸ hnone) pair hpair
        rank hrank
      exact absurd (hbuilt.rank_lt hrank) (Nat.not_lt.mpr hle)
  · -- a single symbol has no neighbour
    match symbols, hlong, hpair with
    | [a], _, hpair => cases hpair
    | a :: b :: symbols, hlong, _ => exact absurd (by simp) hlong

/-! ## All rounds -/

variable (tok) in
/-- The symbols after each round of the loop. -/
def mergeRounds (symbols : List Bytes) : List (List Bytes) :=
  match _h : tok.mergeRound symbols with
  | some merged => merged :: mergeRounds merged
  | none => []
termination_by symbols.length
decreasing_by exact (mergesLeast_of_mergeRound ‹_›).2.1

theorem mergeRounds_of_some (h : tok.mergeRound symbols = some merged) :
    tok.mergeRounds symbols = merged :: tok.mergeRounds merged := by
  rw [mergeRounds]
  split
  next heq => rw [h] at heq; obtain rfl := Option.some.inj heq; rfl
  next heq => rw [h] at heq; cases heq

/-- The rounds end where no pair is left. -/
theorem mergeRounds_of_none (h : tok.mergeRound symbols = none) : tok.mergeRounds symbols = [] := by
  rw [mergeRounds]
  split
  next heq => rw [h] at heq; cases heq
  next => rfl

/-- The loop is its rounds. -/
theorem mergeLoop_eq (tok : HydroXLTokenizer) (symbols : List Bytes) :
    tok.mergeLoop symbols = match tok.mergeRound symbols with
      | some merged => tok.mergeLoop merged
      | none => symbols := by
  rw [mergeLoop]
  unfold mergeRound
  split_ifs with hlong
  · split <;> rename_i heq <;> simp [heq]
  · rfl

/-- What the rounds are, and what they leave. -/
structure RoundsSpec (tok : HydroXLTokenizer) (symbols : List Bytes)
    (rounds : List (List Bytes)) : Prop where
  chain : (symbols :: rounds).IsChain tok.MergesLeast
  text : ∀ s ∈ symbols :: rounds, s.flatten = symbols.flatten
  last : (symbols :: rounds).getLast? = some (tok.mergeLoop symbols)
  fewer : rounds.length ≤ symbols.length - 1
  complete : ∀ pair ∈ adjacent (tok.mergeLoop symbols), tok.rankOf pair = none

/-- The rounds satisfy their specification. -/
theorem mergeRounds_spec (hbuilt : tok.Built) (symbols : List Bytes) :
    RoundsSpec tok symbols (tok.mergeRounds symbols) := by
  induction hn : symbols.length using Nat.strong_induction_on generalizing symbols with
  | _ n ih =>
    subst hn
    have hloop := tok.mergeLoop_eq symbols
    cases hround : tok.mergeRound symbols with
    | none =>
      simp only [hround] at hloop
      rw [mergeRounds_of_none hround]
      refine ⟨.singleton _, ?_, ?_, Nat.zero_le _, ?_⟩
      · simp
      · rw [hloop]
        rfl
      · rw [hloop]
        exact rankOf_of_mergeRound hbuilt hround
    | some merged =>
      obtain ⟨hleast, hlt, hlong⟩ := mergesLeast_of_mergeRound hround
      have htext : merged.flatten = symbols.flatten := by
        obtain ⟨left, right, rank, -, -, -, hmerges⟩ := hleast
        exact hmerges.flatten_eq
      have hrest := ih merged.length hlt merged rfl
      simp only [hround] at hloop
      rw [mergeRounds_of_some hround]
      refine ⟨.cons_cons hleast hrest.chain, ?_, ?_, ?_, ?_⟩
      · rintro s hs
        obtain rfl | hs := List.mem_cons.mp hs
        · rfl
        · rw [hrest.text s hs, htext]
      · rw [hloop, List.getLast?_cons_cons, hrest.last]
      · have hfewer := hrest.fewer
        rw [List.length_cons]
        omega
      · rw [hloop]
        exact hrest.complete

/-- **Byte pair encoding.** The loop takes fewer rounds than the piece has bytes, every round merges
a pair of least rank and keeps the text, and at the end no pair of neighbours is in the table. -/
theorem bpe_rounds (hbuilt : tok.Built) (piece : Bytes) :
    let symbols := piece.map byteToUnicode
    let rounds := tok.mergeRounds symbols
    (rounds.length ≤ piece.length - 1 ∧ (piece ≠ [] → rounds.length < piece.length)) ∧
      (∀ s ∈ symbols :: rounds, s.flatten = piece.flatMap byteToUnicode) ∧
      (symbols :: rounds).IsChain tok.MergesLeast ∧
      (symbols :: rounds).getLast? = some (tok.bpeSymbols piece) ∧
      ∀ pair ∈ adjacent (tok.bpeSymbols piece), pairKey pair.1 pair.2 ∉ tok.mergeRank := by
  intro symbols rounds
  have hspec : RoundsSpec tok symbols rounds := mergeRounds_spec hbuilt symbols
  have hfewer : rounds.length ≤ piece.length - 1 := by
    simpa [symbols] using hspec.fewer
  refine ⟨⟨hfewer, fun hne => ?_⟩, fun s hs => ?_, hspec.chain, hspec.last, fun pair hpair => ?_⟩
  · have := List.length_pos_iff.mpr hne
    omega
  · rw [hspec.text s hs, List.flatMap_def]
  · rw [← AList.lookup_eq_none]
    exact hspec.complete pair hpair

/-- Metadata with two merges, of which one makes a symbol for the other. -/
def sampleMerges : GGUFLoader where
  kv := KeyedMap.ofPairs [(Bytes.ofString "tokenizer.ggml.model", .string (Bytes.ofString "gpt2")),
    (Bytes.ofString "tokenizer.ggml.tokens", .strings ⟨[Bytes.ofString "a"], by simp⟩),
    (Bytes.ofString "tokenizer.ggml.merges",
      .strings ⟨[Bytes.ofString "aa b", Bytes.ofString "a a"], by simp⟩)]

/-- A piece in which the occurrences of a pair overlap. -/
theorem bpe_rounds_sample :
    let tok := (loadFromGGUF {} sampleMerges).2
    pairKey (Bytes.ofString "a") (Bytes.ofString "a") ∈ tok.mergeRank ∧
      ∀ pair ∈ adjacent (tok.bpeSymbols (Bytes.ofString "aaab")),
        pairKey pair.1 pair.2 ∉ tok.mergeRank := by
  intro tok
  have hrounds := bpe_rounds (Built.fresh.load sampleMerges) (Bytes.ofString "aaab")
  refine ⟨?_, hrounds.2.2.2.2⟩
  rw [← AList.lookup_isSome]
  decide +kernel

end HeteroAccel.HydroXLTokenizer
