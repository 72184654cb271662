import HeteroAccel.HydroXL.TokenizerRoundTrip
import HeteroAccel.Orchestration.HydroXLEngineAdapter

/-!
# The text that is emitted

The three generation loops append to their text what `decodeToken` gives for each token: its text as
the vocabulary has it, in byte-level form. `decode` joins the same texts and then takes every symbol
of a byte back to the byte. The two agree exactly when the joined text holds no symbol of a byte
outside of `!` to `~`, the symbol of a space being one (`decodesTo_iff`).

An adapter returns what it has emitted also when a forward pass fails. The engine returns no text
then, nor when it is cancelled, although it has emitted tokens.

## Main definitions

* `SpecialOrPlain`: the tokens whose emitted text is their decoding;
* `HydroXLEngine.Interrupted`: the flag and the forward pass interrupt a generation behind its
  tokens.

## Main results

* `emitsRaw_decodeLoop`, for the engine and for the adapters: what a loop emits is the texts of its
  tokens;
* `HydroXLEngine.failure_decodeLoop_iff`: the loop fails exactly when it is interrupted;
* `emits_decoding_iff`: when the text and the pieces are the decoding, for the engine and for both
  adapters;
* `not_emits_decoding`: a token with a space marker.
-/

namespace HeteroAccel

open Bytes (ofString)

namespace HydroXLTokenizer

variable {tok : HydroXLTokenizer} {ids : List TokenID}

/-- Not a control or unused token. -/
def Ordinary (tok : HydroXLTokenizer) (id : TokenID) : Prop :=
  ∀ t ∈ tok.tokenType[id.toNatClampNeg]?, t ≠ 3 ∧ t ≠ 5

/-- The texts of tokens as the vocabulary has them. -/
def rawText (tok : HydroXLTokenizer) (ids : List TokenID) : Bytes := ids.flatMap tok.decodeToken

@[simp]
theorem rawText_append_singleton (tok : HydroXLTokenizer) (ids : List TokenID) (id : TokenID) :
    tok.rawText (ids ++ [id]) = tok.rawText ids ++ tok.decodeToken id := by
  simp [rawText]

/-- `decode` takes over the text of an ordinary token. -/
theorem tokenText_of_ordinary {id : TokenID} (h : tok.Ordinary id) (skipSpecial : Bool) :
    tok.tokenText skipSpecial id = tok.decodeToken id := by
  unfold tokenText decodeToken
  split
  · rfl
  · cases hvocab : tok.vocab.1[id.toNatClampNeg]? with
    | none => rfl
    | some text =>
      cases htype : tok.tokenType[id.toNatClampNeg]? with
      | none => rfl
      | some t =>
        obtain ⟨hcontrol, hunused⟩ := h t htype
        simp [hcontrol, hunused]

/-- `decode` of ordinary tokens. -/
theorem decode_of_ordinary (hloaded : tok.loaded) (h : ∀ id ∈ ids, tok.Ordinary id)
    (skipSpecial : Bool) : tok.decode ids skipSpecial = unmap (tok.rawText ids) := by
  have htexts : ids.flatMap (tok.tokenText skipSpecial) = tok.rawText ids :=
    List.flatMap_congr fun id hid => tokenText_of_ordinary (h id hid) skipSpecial
  rw [decode, hloaded, htexts]
  rfl

/-- The text is the decoding of the tokens, if none of them is a control or unused token. -/
def DecodesTo (tok : HydroXLTokenizer) (ids : List TokenID) (text : Bytes) : Prop :=
  (∀ id ∈ ids, tok.Ordinary id) → ∀ skipSpecial, text = tok.decode ids skipSpecial

/-- A token is a control or unused token, or the joined text holds no symbol of a byte outside of
`!` to `~`. -/
def SpecialOrPlain (tok : HydroXLTokenizer) (ids : List TokenID) : Prop :=
  (∃ id ∈ ids, ¬tok.Ordinary id) ∨ SymbolFree (tok.rawText ids)

/-- A token is a control or unused token, or the joined text is empty. -/
def SpecialOrEmpty (tok : HydroXLTokenizer) (ids : List TokenID) : Prop :=
  (∃ id ∈ ids, ¬tok.Ordinary id) ∨ tok.rawText ids = []

/-- A text, and the pieces that were streamed if any were, are the joined texts of tokens. -/
structure EmitsRaw (tok : HydroXLTokenizer) (streaming : Bool) (ids : List TokenID) (text : Bytes)
    (pieces : List Bytes) : Prop where
  text : text = tok.rawText ids
  pieces : streaming → pieces.flatten = tok.rawText ids

theorem EmitsRaw.nil (tok : HydroXLTokenizer) (streaming : Bool) :
    tok.EmitsRaw streaming [] [] [] :=
  ⟨rfl, fun _ => rfl⟩

/-- A decoding is asked for only if all tokens are ordinary ones. -/
theorem decodesTo_iff_of_loaded (hloaded : tok.loaded) (text : Bytes) :
    tok.DecodesTo ids text ↔
      (∃ id ∈ ids, ¬tok.Ordinary id) ∨ text = unmap (tok.rawText ids) := by
  unfold DecodesTo
  by_cases hordinary : ∀ id ∈ ids, tok.Ordinary id
  · have hspecial : ¬∃ id ∈ ids, ¬tok.Ordinary id := by simpa using hordinary
    simp only [decode_of_ordinary hloaded hordinary, hspecial, false_or]
    exact ⟨fun h => h hordinary true, fun h _ _ => h⟩
  · have hspecial : ∃ id ∈ ids, ¬tok.Ordinary id := by simpa using hordinary
    exact ⟨fun _ => .inl hspecial, fun _ h => absurd h hordinary⟩

/-- When the joined texts of tokens are their decoding. -/
theorem decodesTo_iff (hloaded : tok.loaded) :
    tok.DecodesTo ids (tok.rawText ids) ↔ tok.SpecialOrPlain ids := by
  rw [decodesTo_iff_of_loaded hloaded, SpecialOrPlain, ← unmap_eq_self_iff, eq_comm]

/-- When the empty text is the decoding of tokens. -/
theorem decodesTo_nil_iff (hloaded : tok.loaded) :
    tok.DecodesTo ids [] ↔ tok.SpecialOrEmpty ids := by
  rw [decodesTo_iff_of_loaded hloaded, SpecialOrEmpty, eq_comm, unmap_eq_nil_iff]

/-- An empty text holds no symbol. -/
theorem SpecialOrEmpty.specialOrPlain (h : tok.SpecialOrEmpty ids) : tok.SpecialOrPlain ids := by
  apply h.imp_right
  intro hempty
  rw [hempty]
  exact (unmap_eq_self_iff []).mp ((unmap_eq_nil_iff []).mpr rfl)

end HydroXLTokenizer

variable {σ α δ : Type} {ops : TensorOps α δ} {m : LanguageModel σ α}

/-! ## The engine -/

namespace HydroXLEngine

variable {ctx : ExecutionContext α} {limit : UInt32} {streaming : Bool}

/-- The engine emits the text of a token. -/
theorem emitsRaw_emit {p : Progress σ α} {tok : HydroXLTokenizer}
    (h : tok.EmitsRaw streaming p.generatedTokens p.outputText p.streamed) (id : TokenID) :
    let e := p.emit streaming (tok.decodeToken id) id
    tok.EmitsRaw streaming e.generatedTokens e.outputText e.streamed where
  text := by simp [Progress.emit, h.text]
  pieces hstreaming := by simp [Progress.emit, hstreaming, h.pieces hstreaming]

variable (ops m ctx limit streaming) in
/-- Every round appends the text of its token. -/
theorem emitsRaw_decodeLoop (left i : ℕ) {p : Progress σ α}
    (h : m.tokenizer.EmitsRaw streaming p.generatedTokens p.outputText p.streamed) :
    let q := (decodeLoop ops m ctx limit streaming left i p).1
    m.tokenizer.EmitsRaw streaming q.generatedTokens q.outputText q.streamed := by
  induction left generalizing i p with
  | zero => exact h
  | succ left ih =>
    dsimp only
    obtain ⟨sampler, ⟨failure, hend⟩ | ⟨tok, hround⟩⟩ :=
      round_cases ops m ctx limit streaming left i p
    · rw [hend]
      exact h
    · have hemit := emitsRaw_emit (p := { p with sampler }) h tok
      rw [hround, roundFrom]
      split
      · exact ih (i + 1) hemit
      · exact hemit

/-! ### Interrupted generations -/

variable (m ctx) in
/-- What interrupts a generation behind the tokens it has made: the flag is set when it is read for
the next one, or the forward pass fails for a token of the prompt or for one of them. -/
def Interrupted (promptTokens generated : List TokenID) (st : σ) : Prop :=
  (generated.length < ctx.maxNew ∧ ctx.cancelled (promptTokens.length + generated.length)) ∨
    ∃ f, (promptTokens ++ generated).foldlM m.step { state := m.resetCache st } = .error f

variable (ops m ctx limit streaming) in
/-- The tokens that a loop adds, and whether it fails: at the flag, or at a forward pass. -/
theorem failure_decodeLoop_iff (left i : ℕ) (p : Progress σ α) :
    let r := decodeLoop ops m ctx limit streaming left i p
    ∃ new, r.1.generatedTokens = p.generatedTokens ++ new ∧
      (r.2.isSome ↔ (new.length < left ∧ ctx.cancelled (p.polls + new.length)) ∨
        ∃ f, new.foldlM m.step p.cursor = .error f) := by
  induction left generalizing i p with
  | zero =>
    refine ⟨[], (List.append_nil _).symm, iff_of_false Bool.false_ne_true ?_⟩
    rintro (⟨hlt, -⟩ | ⟨f, hf⟩)
    · exact absurd hlt (Nat.not_lt_zero _)
    · cases hf
  | succ left ih =>
    -- a round that ends the loop without a failure has read the flag as not set
    have hend (hflag : ¬ctx.cancelled p.polls) : ¬((([] : List TokenID).length < left + 1 ∧
        ctx.cancelled (p.polls + ([] : List TokenID).length)) ∨
        ∃ f, ([] : List TokenID).foldlM m.step p.cursor = .error f) := by
      rintro (⟨-, hset⟩ | ⟨f, hf⟩)
      · exact hflag hset
      · cases hf
    dsimp only
    rw [decodeLoop]
    by_cases hflag : ctx.cancelled p.polls
    · rw [if_pos hflag]
      exact ⟨[], (List.append_nil _).symm, iff_of_true rfl (.inl ⟨Nat.succ_pos _, hflag⟩)⟩
    rw [if_neg hflag]
    by_cases hlimit : p.cursor.pos ≥ limit
    · rw [if_pos hlimit]
      exact ⟨[], (List.append_nil _).symm, iff_of_false Bool.false_ne_true (hend hflag)⟩
    rw [if_neg hlimit]
    obtain ⟨tok, sampler, hsample⟩ : ∃ tok sampler, p.sampler.sample ops p.cursor.logits
        (.ofNat p.cursor.logits.length) p.generatedTokens = (tok, sampler) := ⟨_, _, rfl⟩
    rw [hsample]
    dsimp only
    by_cases hstop : m.Stops tok
    · rw [if_pos hstop]
      exact ⟨[], (List.append_nil _).symm, iff_of_false Bool.false_ne_true (hend hflag)⟩
    rw [if_neg hstop]
    cases hstep : m.step p.cursor tok with
    | error f =>
      have hstep' : m.step ({ p with sampler }.emit streaming
        (m.tokenizer.decodeToken tok) tok).cursor tok = .error f := hstep
      refine ⟨[tok], by rw [hstep']; rfl, iff_of_true (by rw [hstep']; rfl) (.inr ⟨f, ?_⟩)⟩
      rw [List.foldlM_cons, hstep]
      rfl
    | ok cursor =>
      have hstep' : m.step ({ p with sampler }.emit streaming
        (m.tokenizer.decodeToken tok) tok).cursor tok = .ok cursor := hstep
      rw [hstep']
      obtain ⟨new, hnew, hfail⟩ := ih (i + 1) { { p with sampler }.emit streaming
        (m.tokenizer.decodeToken tok) tok with cursor }
      refine ⟨tok :: new, by rw [hnew]; simp [Progress.emit], hfail.trans ?_⟩
      rw [List.foldlM_cons, hstep, List.length_cons, Nat.add_lt_add_iff_right, ← Nat.add_assoc,
        Nat.add_right_comm]
      rfl

/-- A prefill that succeeds is a forward pass for each token of the prompt. -/
theorem foldlM_of_prefill (polls : ℕ) {toks : List TokenID} {c cursor : Cursor σ α}
    (h : prefill m ctx limit polls toks c = .ok cursor) : toks.foldlM m.step c = .ok cursor := by
  induction toks generalizing polls c with
  | nil =>
    rw [prefill, Except.ok.injEq] at h
    rw [h]
    rfl
  | cons tok toks ih =>
    rw [prefill] at h
    split_ifs at h
    rw [List.foldlM_cons]
    cases hstep : m.step c tok with
    | error f => simp [hstep] at h
    | ok c' =>
      rw [hstep] at h
      exact ih (polls + 1) h

/-- What a generation returns: no text before the first token, and behind it the texts of the tokens
if it is not interrupted. -/
inductive Returns (tok : HydroXLTokenizer) (streaming interrupted : Prop) (g : Generation σ) : Prop
  | early (hids : g.generated = []) (htext : g.result.output = []) (hstreamed : g.streamed = [])
  | late (hstreamed : streaming → g.streamed.flatten = tok.rawText g.generated)
      (htext : g.result.output = [] ∧ interrupted ∨
        g.result.output = tok.rawText g.generated ∧ ¬interrupted)

variable (ops m ctx streaming) in
/-- What a generation returns. -/
theorem returns_generateFrom (promptTokens : List TokenID) (st : σ) :
    let g := generateFrom ops m ctx streaming promptTokens st
    Returns m.tokenizer streaming (Interrupted m ctx promptTokens g.generated st) g := by
  dsimp only
  unfold generateFrom
  dsimp only
  split
  · exact .early rfl rfl rfl
  · split
    · exact .early rfl rfl rfl
    · split
      · exact .early rfl rfl rfl
      · rename_i cursor hprefill _
        have hloop := emitsRaw_decodeLoop ops m ctx (ctx.effectiveLimit m.maxSeqLen) streaming
          ctx.maxNew 0
          (p := { polls := promptTokens.length, cursor, sampler := .new (ctx.samplerParams ops) })
          (.nil _ _)
        obtain ⟨new, hnew, hfail⟩ := failure_decodeLoop_iff ops m ctx
          (ctx.effectiveLimit m.maxSeqLen) streaming ctx.maxNew 0
          { polls := promptTokens.length, cursor, sampler := .new (ctx.samplerParams ops) }
        -- the loop goes on where the prefill has ended
        have hinterrupted : (decodeLoop ops m ctx (ctx.effectiveLimit m.maxSeqLen) streaming
            ctx.maxNew 0 { polls := promptTokens.length, cursor
                           sampler := .new (ctx.samplerParams ops) }).2.isSome ↔
            Interrupted m ctx promptTokens (decodeLoop ops m ctx (ctx.effectiveLimit m.maxSeqLen)
              streaming ctx.maxNew 0 { polls := promptTokens.length, cursor
                                       sampler := .new (ctx.samplerParams ops) }).1.generatedTokens
              st := by
          rw [hfail, hnew, Interrupted, List.foldlM_append, foldlM_of_prefill 0 hprefill]
          rfl
        split
        next f hf =>
          exact .late hloop.pieces (.inl ⟨rfl, hinterrupted.mp (by rw [hf]; rfl)⟩)
        next hf =>
          refine .late hloop.pieces (.inr ⟨hloop.text, fun h => ?_⟩)
          have hsome := hinterrupted.mpr h
          rw [hf] at hsome
          cases hsome

/-- When the text and the pieces of a generation are the decoding of its tokens. -/
theorem decodesTo_generateFrom_iff (hloaded : m.tokenizer.loaded) (promptTokens : List TokenID)
    (st : σ) :
    let g := generateFrom ops m ctx streaming promptTokens st
    (m.tokenizer.DecodesTo g.generated g.result.output ↔
      m.tokenizer.SpecialOrPlain g.generated ∧
        (Interrupted m ctx promptTokens g.generated st →
          m.tokenizer.SpecialOrEmpty g.generated)) ∧
    (streaming →
      (m.tokenizer.DecodesTo g.generated g.streamed.flatten ↔
        m.tokenizer.SpecialOrPlain g.generated)) := by
  dsimp only
  obtain ⟨hids, htext, hstreamed⟩ | ⟨hstreamed, htext⟩ :=
    returns_generateFrom ops m ctx streaming promptTokens st
  · -- no token, and the empty text
    have hempty : m.tokenizer.SpecialOrEmpty [] := .inr rfl
    rw [hids, htext, hstreamed, List.flatten_nil, HydroXLTokenizer.decodesTo_nil_iff hloaded]
    exact ⟨iff_of_true hempty ⟨hempty.specialOrPlain, fun _ => hempty⟩,
      fun _ => iff_of_true hempty hempty.specialOrPlain⟩
  · refine ⟨?_, fun hstreaming => ?_⟩
    · -- an interruption empties the text, but not the tokens
      obtain ⟨htext, hinterrupted⟩ | ⟨htext, hgoesOn⟩ := htext
      · rw [htext, HydroXLTokenizer.decodesTo_nil_iff hloaded]
        exact ⟨fun h => ⟨h.specialOrPlain, fun _ => h⟩, fun h => h.2 hinterrupted⟩
      · rw [htext, HydroXLTokenizer.decodesTo_iff hloaded]
        exact ⟨fun h => ⟨h, fun hi => absurd hi hgoesOn⟩, fun h => h.1⟩
    · rw [hstreamed hstreaming]
      exact HydroXLTokenizer.decodesTo_iff hloaded

end HydroXLEngine

/-! ## The adapters -/

namespace Orchestration

variable {cb : Option StreamCallback} {promptTokens : List TokenID} {req : InferenceRequest α}

/-- An adapter emits the text of a token. -/
theorem emitsRaw_emit {p : Progress σ α} {tok : HydroXLTokenizer}
    (h : tok.EmitsRaw cb.isSome p.outIds p.outText (p.delivered.map (·.1))) (id : TokenID) :
    let e := p.emit cb (tok.decodeToken id) id
    tok.EmitsRaw cb.isSome e.outIds e.outText (e.delivered.map (·.1)) where
  text := by simp [Progress.emit, h.text]
  pieces hstreaming := by
    have := h.pieces hstreaming
    simp [Progress.emit, hstreaming, this]

/-- Every round appends the text of its token, also the one that is cancelled. -/
theorem emitsRaw_decodeLoop (left : ℕ) {p : Progress σ α}
    (h : m.tokenizer.EmitsRaw cb.isSome p.outIds p.outText (p.delivered.map (·.1))) :
    let q := (decodeLoop ops m cb promptTokens left p).1
    m.tokenizer.EmitsRaw cb.isSome q.outIds q.outText (q.delivered.map (·.1)) := by
  induction left generalizing p with
  | zero => exact h
  | succ left ih =>
    dsimp only
    obtain ⟨sampler, hfinish | ⟨tok, -, hround⟩⟩ :=
      round_cases ops m promptTokens p.cursor p.sampler
    · rw [hfinish _ _ _ rfl rfl]
      exact h
    · have hemit := emitsRaw_emit (p := { p with sampler }) h tok
      rw [hround _ _ _ rfl rfl, roundFrom]
      split
      · exact hemit
      · split
        · exact ih hemit
        · exact hemit

variable (ops m cb req) in
/-- What a stream emits is the texts of its tokens. -/
theorem emitsRaw_runStream (backendUsed : String) (gpuUsed : Bool) (st : σ) :
    let r := runStream ops backendUsed gpuUsed (some m) cb req st
    m.tokenizer.EmitsRaw cb.isSome r.result.outputTokenIds r.result.outputText
      (r.delivered.map (·.1)) := by
  dsimp only
  cases hprefill : prefill m (req.promptTokens m.tokenizer) { state := m.resetCache st } with
  | error e =>
    rw [runStream_of_prefill_error hprefill]
    exact .nil _ _
  | ok cursor =>
    rw [runStream_of_prefill_ok hprefill, outputTokenIds_conclude, outputText_conclude,
      delivered_conclude]
    exact emitsRaw_decodeLoop _ (.nil _ _)

/-- When the text and the pieces of a stream are the decoding of its tokens. -/
theorem decodesTo_runStream_iff (hloaded : m.tokenizer.loaded) (backendUsed : String)
    (gpuUsed : Bool) (st : σ) :
    let r := runStream ops backendUsed gpuUsed (some m) cb req st
    let ids := r.result.outputTokenIds
    (m.tokenizer.DecodesTo ids r.result.outputText ↔ m.tokenizer.SpecialOrPlain ids) ∧
    (cb.isSome → (m.tokenizer.DecodesTo ids (r.delivered.map (·.1)).flatten ↔
      m.tokenizer.SpecialOrPlain ids)) := by
  have hraw := emitsRaw_runStream ops m cb req backendUsed gpuUsed st
  dsimp only
  constructor
  · rw [hraw.text]
    exact HydroXLTokenizer.decodesTo_iff hloaded
  · intro hstreaming
    rw [hraw.pieces hstreaming]
    exact HydroXLTokenizer.decodesTo_iff hloaded

/-! ## All three -/

/-- **Emitted text.** With a loaded tokenizer, the text that `doGenerate` or an adapter returns is
the decoding of the generated tokens, and so are the pieces that it streams, exactly when a token is
a control or unused token or the joined vocabulary texts hold no symbol of a byte outside of `!` to
`~`; for the text of `doGenerate` they also have to be empty if the generation is interrupted. -/
theorem emits_decoding_iff (ops : TensorOps α δ) (m : LanguageModel σ α)
    (hloaded : m.tokenizer.loaded) (ctx : HydroXLEngine.ExecutionContext α) (streaming : Bool)
    (req : InferenceRequest α) (cb : Option StreamCallback) (st : σ) :
    let g := HydroXLEngine.doGenerate ops ctx (some m) streaming st
    let cpu := HydroXLCpuEngineAdapter.runStream ops (some m) cb req st
    let vulkan := HydroXLVulkanEngineAdapter.runStream ops (some m) cb req st
    let Decodes := m.tokenizer.DecodesTo
    let Plain := m.tokenizer.SpecialOrPlain
    ((Decodes g.generated g.result.output ↔ Plain g.generated ∧
        (HydroXLEngine.Interrupted m ctx (m.tokenizer.encode ctx.prompt m.tokenizer.addBos)
          g.generated st → m.tokenizer.SpecialOrEmpty g.generated)) ∧
      (streaming → (Decodes g.generated g.streamed.flatten ↔ Plain g.generated))) ∧
    ((Decodes cpu.result.outputTokenIds cpu.result.outputText ↔
        Plain cpu.result.outputTokenIds) ∧
      (cb.isSome → (Decodes cpu.result.outputTokenIds (cpu.delivered.map (·.1)).flatten ↔
        Plain cpu.result.outputTokenIds))) ∧
    ((Decodes vulkan.result.outputTokenIds vulkan.result.outputText ↔
        Plain vulkan.result.outputTokenIds) ∧
      (cb.isSome → (Decodes vulkan.result.outputTokenIds (vulkan.delivered.map (·.1)).flatten ↔
        Plain vulkan.result.outputTokenIds))) :=
  ⟨HydroXLEngine.decodesTo_generateFrom_iff hloaded _ st,
    decodesTo_runStream_iff hloaded "hydroxl_cpu" false st,
    decodesTo_runStream_iff hloaded "hydroxl_vulkan" true st⟩

/-- A vocabulary of `a` and of a space. -/
def spaceTokenizer : HydroXLTokenizer where
  loaded := true
  vocab := ⟨[[0x61], byteToUnicode 0x20], by decide⟩
  strToId := vocabIndex [[0x61], byteToUnicode 0x20]
  tokenType := [1, 1]

/-- A model whose largest logit is always that of the space. -/
def spaceModel : LanguageModel Unit ℚ where
  tokenizer := spaceTokenizer
  maxSeqLen := 8
  resetCache := id
  forward _ _ _ st := (.ok [0, 1], st)

/-- A request for one token. -/
def spaceRequest : InferenceRequest ℚ :=
  { promptTokenIds := [0], maxNewTokens := 1, temperature := 0, topP := 1 }

/-- The condition for the tokens of this model. -/
theorem emits_decoding_iff_space :
    let cpu := HydroXLCpuEngineAdapter.runStream rationalOps (some spaceModel) none spaceRequest ()
    spaceTokenizer.DecodesTo cpu.result.outputTokenIds cpu.result.outputText ↔
      spaceTokenizer.SpecialOrPlain cpu.result.outputTokenIds :=
  (emits_decoding_iff rationalOps spaceModel rfl { temperature := 0 } false spaceRequest none
    ()).2.1.1

/-- The space is emitted as the two bytes of its symbol, and decoded to one. -/
theorem not_emits_decoding :
    ¬∀ (m : LanguageModel Unit ℚ), m.tokenizer.loaded →
      ∀ (ctx : HydroXLEngine.ExecutionContext ℚ) (req : InferenceRequest ℚ),
        let g := HydroXLEngine.doGenerate rationalOps ctx (some m) false ()
        let cpu := HydroXLCpuEngineAdapter.runStream rationalOps (some m) none req ()
        let vulkan := HydroXLVulkanEngineAdapter.runStream rationalOps (some m) none req ()
        m.tokenizer.DecodesTo g.generated g.result.output ∧
          m.tokenizer.DecodesTo cpu.result.outputTokenIds cpu.result.outputText ∧
          m.tokenizer.DecodesTo vulkan.result.outputTokenIds vulkan.result.outputText := by
  intro h
  obtain ⟨-, hcpu, -⟩ := h spaceModel rfl { temperature := 0 } spaceRequest
  -- the adapter returns the letter that stands for a blank
  have hrun : (HydroXLCpuEngineAdapter.runStream rationalOps (some spaceModel) none spaceRequest
      ()).result = { outputTokenIds := [1], outputText := byteToUnicode 0x20, promptTokens := 1
                     outputTokens := 1, backendUsed := "hydroxl_cpu", success := true } := by
    decide +kernel
  have htext : spaceTokenizer.decodeToken 1 = byteToUnicode 0x20 := by decide +kernel
  have hordinary : ∀ id ∈ [(1 : TokenID)], spaceTokenizer.Ordinary id := by
    intro id hid t ht
    rw [List.mem_singleton.mp hid] at ht
    obtain rfl := Option.some.inj ((by decide +kernel : _ = some (1 : Int32)).symm.trans ht)
    decide
  rw [hrun] at hcpu
  -- and the tokenizer would decode the token to the blank itself
  have hdecode : byteToUnicode 0x20 = spaceTokenizer.decode [1] true := hcpu hordinary true
  rw [HydroXLTokenizer.decode_of_ordinary rfl hordinary, HydroXLTokenizer.rawText,
    List.flatMap_singleton, htext, ← spell_singleton, unmap_spell] at hdecode
  exact absurd hdecode (by decide +kernel)

end Orchestration

end HeteroAccel
