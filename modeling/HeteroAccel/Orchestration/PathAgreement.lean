import HeteroAccel.HydroXL.GreedyChoice
import HeteroAccel.Orchestration.HydroXLEngineAdapter
import Mathlib.Logic.Relation

/-!
# The engine against the adapter

`HydroXLEngine::doGenerate` and the adapters' `run_stream` are written separately. For a greedy
request without a context limit both run the same prompt through the model and then choose the
token of the largest penalised logit; but the engine penalises the tokens that it has generated, the
adapters penalise the tokens of the prompt. So their tokens are the same exactly when, behind each
greedy continuation of the prompt, no token whose number of occurrences differs between the prompt
and the continuation gets ahead of the leader when the prompt is penalised instead
(`KeepsLeaders`).

## Main definitions

* `GreedyStep`, `Continues`: the greedy continuations of a prompt;
* `KeepsLeaders`, `PromptKeepsLeaders`: the penalties for the prompt change no leader.

## Main results

* `prefill_eq`: both prefill loops do the same on a prompt that fits;
* `generatedTokens_eq_outIds_iff`: both decoding loops, round by round;
* `samePicks_iff`: the rounds in terms of logits and numbers of occurrences;
* `generated_eq_outputTokenIds_iff`: the engine and the CPU adapter.
-/

namespace HeteroAccel

open Bytes (ofString)
open HydroXLSampler (greedyToken LeadsWith Undisturbed seen)

variable {σ α δ : Type} {ops : TensorOps α δ} {m : LanguageModel σ α}

/-! ## The engine's loops -/

namespace HydroXLEngine

variable {ctx : ExecutionContext α} {limit : UInt32} {streaming : Bool}

/-- Without a flag, and with a position for each token, the prefill loop of the engine is that of
the adapters. -/
theorem prefill_eq (hflag : ctx.cancelFlag = none) (polls : ℕ) (toks : List TokenID)
    (c : Cursor σ α) (hfit : c.pos.toNat + toks.length ≤ limit.toNat) :
    prefill m ctx limit polls toks c =
      match Orchestration.prefill m toks c with
      | .ok c => .ok c
      | .error e =>
        .error { error := ofString "Forward pass failed: " ++ e.error, state := e.state } := by
  induction toks generalizing polls c with
  | nil => rfl
  | cons tok toks ih =>
    rw [List.length_cons] at hfit
    have hcancel : ctx.cancelled polls = false := by simp [ExecutionContext.cancelled, hflag]
    have hpos : ¬c.pos ≥ limit := by
      rw [ge_iff_le, UInt32.le_iff_toNat_le]
      omega
    rw [prefill, hcancel, if_neg Bool.false_ne_true, if_neg hpos, Orchestration.prefill,
      List.foldlM_cons]
    cases hstep : m.step c tok with
    | error e => rfl
    | ok c' =>
      -- the next position is one further, and still below the limit
      have hnext : c'.pos = c.pos + 1 := by
        unfold LanguageModel.step at hstep
        split at hstep
        · cases hstep
          rfl
        · cases hstep
      refine ih (polls + 1) c' ?_
      have hlt := limit.toNat_lt
      rw [hnext, UInt32.toNat_add, Nat.mod_eq_of_lt]
      · change c.pos.toNat + 1 + toks.length ≤ limit.toNat
        omega
      · change c.pos.toNat + 1 < 2 ^ 32
        omega

/-- A greedy round without a flag. -/
theorem decodeLoop_greedy (hflag : ctx.cancelFlag = none) {p : Progress σ α}
    (hgreedy : ops.le p.sampler.params.temperature ops.zero) (left i : ℕ) :
    decodeLoop ops m ctx limit streaming (left + 1) i p =
      if p.cursor.pos ≥ limit then (p, none)
      else
        let tok := greedyToken ops p.sampler.params.repeatPenalty p.generatedTokens p.cursor.logits
        if m.Stops tok then (p, none)
        else roundFrom ops m ctx limit streaming left i tok p := by
  have hcancel : ctx.cancelled p.polls = false := by simp [ExecutionContext.cancelled, hflag]
  rw [decodeLoop, hcancel, if_neg Bool.false_ne_true, HydroXLSampler.sample_of_greedy hgreedy]
  rfl

/-- The loop only appends to the tokens. -/
theorem prefix_generatedTokens_decodeLoop (left i : ℕ) (p : Progress σ α) :
    p.generatedTokens <+:
      (decodeLoop ops m ctx limit streaming left i p).1.generatedTokens := by
  induction left generalizing i p with
  | zero => exact List.prefix_rfl
  | succ left ih =>
    obtain ⟨sampler, ⟨failure, hend⟩ | ⟨tok, hround⟩⟩ :=
      round_cases ops m ctx limit streaming left i p
    · rw [hend]
    · have hemit : p.generatedTokens <+: p.generatedTokens ++ [tok] := List.prefix_append _ _
      rw [hround, roundFrom]
      split
      · refine List.IsPrefix.trans ?_ (ih _ _)
        exact hemit
      · exact hemit

end HydroXLEngine

/-! ## The adapters' loop -/

namespace Orchestration

variable {cb : Option StreamCallback} {promptTokens : List TokenID}

/-- A greedy round. -/
theorem decodeLoop_greedy {p : Progress σ α}
    (hgreedy : ops.le p.sampler.params.temperature ops.zero) (left : ℕ) :
    decodeLoop ops m cb promptTokens (left + 1) p =
      if p.cursor.pos ≥ m.maxSeqLen then (p, .finished)
      else
        let tok := greedyToken ops p.sampler.params.repeatPenalty promptTokens p.cursor.logits
        if m.Stops tok then (p, .finished)
        else roundFrom ops m cb promptTokens left tok p := by
  rw [decodeLoop, HydroXLSampler.sample_of_greedy hgreedy]
  rfl

/-- The loop only appends to the tokens. -/
theorem prefix_outIds_decodeLoop (left : ℕ) (p : Progress σ α) :
    p.outIds <+: (decodeLoop ops m cb promptTokens left p).1.outIds := by
  induction left generalizing p with
  | zero => exact List.prefix_rfl
  | succ left ih =>
    obtain ⟨sampler', hfinish | ⟨tok, -, hround⟩⟩ :=
      round_cases ops m promptTokens p.cursor p.sampler
    · rw [hfinish _ _ _ rfl rfl]
    · have hemit : p.outIds <+: p.outIds ++ [tok] := List.prefix_append _ _
      rw [hround _ _ _ rfl rfl, roundFrom]
      split
      · exact hemit
      · split
        · refine List.IsPrefix.trans ?_ (ih _)
          exact hemit
        · exact hemit

/-! ## Both loops -/

/-- The token that is chosen when `pastTokens` are penalised as a `SamplerParams` does by itself. -/
def pickToken (ops : TensorOps α δ) (pastTokens : List TokenID) (logits : List α) : TokenID :=
  greedyToken ops (SamplerParams.standard ops).repeatPenalty pastTokens logits

/-- In each of the `left` rounds from the cursor on, the penalty for the generated tokens and the
penalty for the prompt lead to the same token, or both to one that ends generation. -/
def SamePicks (ops : TensorOps α δ) (m : LanguageModel σ α) (promptTokens : List TokenID) :
    (left : ℕ) → Cursor σ α → (generated : List TokenID) → Prop
  | 0, _, _ => True
  | left + 1, c, generated =>
    c.pos ≥ m.maxSeqLen ∨
    (m.Stops (pickToken ops generated c.logits) ∧ m.Stops (pickToken ops promptTokens c.logits)) ∨
    (¬m.Stops (pickToken ops generated c.logits) ∧
      pickToken ops generated c.logits = pickToken ops promptTokens c.logits ∧
      ∀ c', m.step c (pickToken ops generated c.logits) = .ok c' →
        SamePicks ops m promptTokens left c' (generated ++ [pickToken ops generated c.logits]))

/-! ### Greedy continuations -/

/-- One token of a greedy generation: there is room for it, it leads when the tokens before it are
penalised, it is not the one that ends generation, and it runs through the model. -/
def GreedyStep (ops : TensorOps α δ) (m : LanguageModel σ α)
    (s s' : Cursor σ α × List TokenID) : Prop :=
  s.1.pos < m.maxSeqLen ∧
  ∃ a, LeadsWith ops (SamplerParams.standard ops).repeatPenalty s.2 s.1.logits a ∧
    .ofNat a ≠ m.tokenizer.eosId ∧ m.step s.1 (.ofNat a) = .ok s'.1 ∧ s'.2 = s.2 ++ [.ofNat a]

/-- The prompt that ends at `start` has a greedy continuation by `generated`, which ends at `c`. -/
def Continues (ops : TensorOps α δ) (m : LanguageModel σ α) (start : Cursor σ α)
    (generated : List TokenID) (c : Cursor σ α) : Prop :=
  Relation.ReflTransGen (GreedyStep ops m) (start, []) (c, generated)

/-- Behind each greedy continuation, below `maxNew` tokens and with room for one more, the leader is
not disturbed when the prompt is penalised in the place of the continuation. -/
def KeepsLeaders (ops : TensorOps α δ) (m : LanguageModel σ α) (promptTokens : List TokenID)
    (maxNew : ℕ) (start : Cursor σ α) : Prop :=
  ∀ c generated, Continues ops m start generated c → generated.length < maxNew →
    c.pos < m.maxSeqLen → ∀ a,
      LeadsWith ops (SamplerParams.standard ops).repeatPenalty generated c.logits a →
      Undisturbed ops (SamplerParams.standard ops).repeatPenalty generated promptTokens c.logits a

/-- A token that leads ends generation if it is the one for that. -/
theorem stops_ofNat_iff {past : List TokenID} {logits : List α} {penalty : α} {a : ℕ}
    (h : LeadsWith ops penalty past logits a) :
    m.Stops (.ofNat a) ↔ .ofNat a = m.tokenizer.eosId :=
  or_iff_left h.ne_invalid

/-- A greedy step adds a token. -/
theorem length_le_of_reflTransGen {s s' : Cursor σ α × List TokenID}
    (h : Relation.ReflTransGen (GreedyStep ops m) s s') : s.2.length ≤ s'.2.length := by
  induction h with
  | refl => exact Nat.le_refl _
  | tail _ hstep ih =>
    obtain ⟨-, a, -, -, -, htokens⟩ := hstep
    rw [htokens, List.length_append]
    exact Nat.le_add_right_of_le ih

variable (promptTokens) in
/-- One round: two pasts lead to the same token, or both to the end, exactly when the leader is not
disturbed. -/
theorem pickToken_cases (hops : ops.FloatOrder) {past : List TokenID} {logits : List α} {a : ℕ}
    (h : LeadsWith ops (SamplerParams.standard ops).repeatPenalty past logits a) :
    pickToken ops past logits = .ofNat a ∧
      (pickToken ops promptTokens logits = .ofNat a ↔
        Undisturbed ops (SamplerParams.standard ops).repeatPenalty past promptTokens logits a) := by
  refine ⟨h.greedyToken_eq hops, ?_⟩
  rw [← HydroXLSampler.leadsWith_iff_undisturbed h]
  constructor
  · exact HydroXLSampler.leadsWith_of_greedyToken_eq hops h.lt_length
  · exact fun hprompt => hprompt.greedyToken_eq hops

/-- If both picks end generation, they are the same token. -/
theorem pickToken_eq_of_stops (hops : ops.FloatOrder) {past : List TokenID} {logits : List α}
    {a : ℕ} (h : LeadsWith ops (SamplerParams.standard ops).repeatPenalty past logits a)
    (hstop : m.Stops (pickToken ops past logits))
    (hstop' : m.Stops (pickToken ops promptTokens logits)) :
    pickToken ops promptTokens logits = .ofNat a := by
  have hne : seen logits ≠ [] := List.ne_nil_of_length_pos (Nat.zero_lt_of_lt h.lt_length)
  obtain ⟨b, hb, hchosen⟩ := HydroXLSampler.exists_leadsWith
    (SamplerParams.standard ops).repeatPenalty promptTokens hops hne
  have hpick : pickToken ops past logits = .ofNat a := h.greedyToken_eq hops
  have hpick' : pickToken ops promptTokens logits = .ofNat b := hchosen
  rw [hpick, stops_ofNat_iff h] at hstop
  rw [hpick', stops_ofNat_iff hb] at hstop'
  rw [hpick', hstop, hstop']

/-- **The rounds.** Both loops pick the same tokens from a cursor on exactly when no leader is
disturbed behind the greedy continuations. -/
theorem samePicks_iff (hops : ops.FloatOrder) (left : ℕ) (c : Cursor σ α)
    (generated : List TokenID) :
    SamePicks ops m promptTokens left c generated ↔
      ∀ c' generated', Relation.ReflTransGen (GreedyStep ops m) (c, generated) (c', generated') →
        generated'.length < generated.length + left → c'.pos < m.maxSeqLen → ∀ a,
          LeadsWith ops (SamplerParams.standard ops).repeatPenalty generated' c'.logits a →
          Undisturbed ops (SamplerParams.standard ops).repeatPenalty generated' promptTokens
            c'.logits a := by
  induction left generalizing c generated with
  | zero =>
    refine iff_of_true trivial fun c' generated' hrun hlength => ?_
    exact absurd (length_le_of_reflTransGen hrun) (Nat.not_le.mpr hlength)
  | succ left ih =>
    rw [SamePicks]
    constructor
    · intro hpicks c' generated' hrun hlength hroom a hlead
      rcases Relation.ReflTransGen.cases_head hrun with heq | ⟨⟨c₁, g₁⟩, hstep, hrest⟩
      · -- the first round
        obtain ⟨rfl, rfl⟩ := Prod.mk.inj heq
        obtain ⟨hpick, hund⟩ := pickToken_cases promptTokens hops hlead
        apply hund.mp
        rcases hpicks with hfull | ⟨hstop, hstop'⟩ | ⟨-, hsame, -⟩
        · exact absurd hroom (UInt32.not_lt.mpr hfull)
        · exact pickToken_eq_of_stops hops hlead hstop hstop'
        · exact hsame.symm.trans hpick
      · obtain ⟨hroom₁, b, hb, hordinary, hstep, rfl⟩ := hstep
        -- a later round: the first one has picked an ordinary token
        have hpick : pickToken ops generated c.logits = .ofNat b := hb.greedyToken_eq hops
        have hgoes : ¬m.Stops (pickToken ops generated c.logits) := by
          rw [hpick, stops_ofNat_iff hb]
          exact hordinary
        rcases hpicks with hfull | ⟨hstop, -⟩ | ⟨-, -, hnext⟩
        · exact absurd hroom₁ (UInt32.not_lt.mpr hfull)
        · exact absurd hstop hgoes
        · have hnext := hnext c₁ (by rw [hpick]; exact hstep)
          rw [hpick] at hnext
          refine (ih _ _).mp hnext c' generated' hrest ?_ hroom a hlead
          rw [List.length_append, List.length_singleton]
          omega
    · intro hund
      by_cases hfull : c.pos ≥ m.maxSeqLen
      · exact .inl hfull
      by_cases hnone : seen c.logits = []
      · -- without logits both pick the invalid token
        refine .inr (.inl ⟨.inr ?_, .inr ?_⟩) <;>
          exact HydroXLSampler.greedyToken_of_seen_nil hnone
      -- some token leads, and the prompt does not disturb it
      obtain ⟨a, hlead, -⟩ := HydroXLSampler.exists_leadsWith
        (SamplerParams.standard ops).repeatPenalty generated hops hnone
      obtain ⟨hpick, hsame⟩ := pickToken_cases promptTokens hops hlead
      have hsame := hsame.mpr
        (hund c generated .refl (by omega) (UInt32.not_le.mp hfull) a hlead)
      rw [hpick, hsame, stops_ofNat_iff hlead]
      by_cases heos : .ofNat a = m.tokenizer.eosId
      · exact .inr (.inl ⟨heos, heos⟩)
      · refine .inr (.inr ⟨heos, rfl, fun c' hstep => (ih _ _).mpr ?_⟩)
        intro c'' generated'' hrun hlength
        have hfirst : GreedyStep ops m (c, generated) (c', generated ++ [.ofNat a]) :=
          ⟨UInt32.not_le.mp hfull, a, hlead, heos, hstep, rfl⟩
        refine hund c'' generated'' (.head hfirst hrun) ?_
        rw [List.length_append, List.length_singleton] at hlength
        omega

/-! ### The loops -/

/-- What both samplers of a greedy request have in common. -/
structure GreedySampler (ops : TensorOps α δ) (s : HydroXLSampler α) : Prop where
  greedy : ops.le s.params.temperature ops.zero
  penalty : s.params.repeatPenalty = (SamplerParams.standard ops).repeatPenalty

/-- Two lists that extend the same one by different elements differ. -/
theorem ne_of_prefix_append_singleton {β : Type} {l l₁ l₂ : List β} {a b : β} (hab : a ≠ b)
    (h₁ : l ++ [a] <+: l₁) (h₂ : l ++ [b] <+: l₂) : l₁ ≠ l₂ := by
  rintro rfl
  obtain ⟨r, rfl⟩ := h₁
  obtain ⟨r', h'⟩ := h₂
  simp only [List.append_assoc, List.append_cancel_left_eq, List.singleton_append,
    List.cons.injEq] at h'
  exact hab h'.1.symm

/-- A list differs from the lists that extend it. -/
theorem ne_of_longer {β : Type} {l l' : List β} {a : β} (h : l ++ [a] <+: l') :
    l ≠ l' := by
  rintro rfl
  have := h.length_le
  simp at this

variable (ops m cb promptTokens) in
/-- The tokens of a round begin with its token, also of one that is declined. -/
theorem append_prefix_outIds_roundFrom (left : ℕ) (tok : TokenID) (q : Progress σ α) :
    q.outIds ++ [tok] <+: (roundFrom ops m cb promptTokens left tok q).1.outIds := by
  have hemit : q.outIds ++ [tok] <+:
      (q.emit cb (m.tokenizer.decodeToken tok) tok).outIds := List.prefix_rfl
  unfold roundFrom
  dsimp only
  split
  · exact hemit
  · split
    · refine List.IsPrefix.trans ?_ (prefix_outIds_decodeLoop _ _)
      exact hemit
    · exact hemit

section Loops

variable {ctx : HydroXLEngine.ExecutionContext α} {streaming : Bool}

variable (ops m ctx streaming) in
theorem append_prefix_generatedTokens_roundFrom (limit : UInt32) (left i : ℕ) (tok : TokenID)
    (p : HydroXLEngine.Progress σ α) : p.generatedTokens ++ [tok] <+:
      (HydroXLEngine.roundFrom ops m ctx limit streaming left i tok p).1.generatedTokens := by
  unfold HydroXLEngine.roundFrom
  dsimp only
  split
  · refine List.IsPrefix.trans ?_ (HydroXLEngine.prefix_generatedTokens_decodeLoop _ _ _)
    exact List.prefix_rfl
  · exact List.prefix_rfl

variable (ops m cb promptTokens streaming) in
/-- **The decoding loops.** From the same cursor and with the same tokens so far, the two loops end
with the same tokens exactly when they pick the same ones in every round. -/
theorem generatedTokens_eq_outIds_iff (hflag : ctx.cancelFlag = none)
    (haccepts : ∀ q : Progress σ α, q.declined cb = false) (left i : ℕ)
    {p : HydroXLEngine.Progress σ α} {q : Progress σ α} (hp : GreedySampler ops p.sampler)
    (hq : GreedySampler ops q.sampler) (hcursor : p.cursor = q.cursor)
    (htokens : p.generatedTokens = q.outIds) :
    (HydroXLEngine.decodeLoop ops m ctx m.maxSeqLen streaming left i p).1.generatedTokens =
        (decodeLoop ops m cb promptTokens left q).1.outIds ↔
      SamePicks ops m promptTokens left q.cursor q.outIds := by
  induction left generalizing i p q with
  | zero => exact iff_of_true htokens trivial
  | succ left ih =>
    rw [HydroXLEngine.decodeLoop_greedy hflag hp.greedy, decodeLoop_greedy hq.greedy, hp.penalty,
      hq.penalty, hcursor, htokens, SamePicks]
    by_cases hpos : q.cursor.pos ≥ m.maxSeqLen
    · rw [if_pos hpos, if_pos hpos]
      exact iff_of_true htokens (.inl hpos)
    · rw [if_neg hpos, if_neg hpos]
      set a := pickToken ops q.outIds q.cursor.logits with ha
      set b := pickToken ops promptTokens q.cursor.logits with hb
      change (if m.Stops a then (p, none)
          else HydroXLEngine.roundFrom ops m ctx m.maxSeqLen streaming left i a
            p).1.generatedTokens =
        (if m.Stops b then (q, Ending.finished)
          else roundFrom ops m cb promptTokens left b q).1.outIds ↔ _
      -- what a loop has added stays in front of what it adds later
      have hp' := append_prefix_generatedTokens_roundFrom ops m ctx streaming m.maxSeqLen left i
        a p
      have hq' := append_prefix_outIds_roundFrom ops m cb promptTokens left b q
      rw [htokens] at hp'
      by_cases hsa : m.Stops a
      · by_cases hsb : m.Stops b
        · rw [if_pos hsa, if_pos hsb]
          exact iff_of_true htokens (.inr (.inl ⟨hsa, hsb⟩))
        · -- only the engine stops
          rw [if_pos hsa, if_neg hsb]
          refine iff_of_false ?_ ?_
          · rw [htokens]
            exact ne_of_longer hq'
          · rintro (h | ⟨-, h⟩ | ⟨h, -⟩)
            · exact hpos h
            · exact hsb h
            · exact h hsa
      · by_cases hsb : m.Stops b
        · -- only the adapter stops
          rw [if_neg hsa, if_pos hsb]
          refine iff_of_false (ne_of_longer hp').symm ?_
          rintro (h | ⟨h, -⟩ | ⟨-, h, -⟩)
          · exact hpos h
          · exact hsa h
          · exact hsa (h ▸ hsb)
        · rw [if_neg hsa, if_neg hsb]
          by_cases hab : a = b
          · -- the same token, and from it on the same cursor
            rw [← hab, HydroXLEngine.roundFrom, roundFrom, hcursor]
            dsimp only
            rw [haccepts, if_neg Bool.false_ne_true]
            cases hstep : m.step q.cursor a with
            | error f =>
              refine iff_of_true ?_ (.inr (.inr ⟨hsa, rfl, fun c' hc' => ?_⟩))
              · exact congrArg (· ++ [a]) htokens
              · cases hc'
            | ok cursor =>
              refine (ih (i + 1) ?_ ?_ rfl ?_).trans ?_
              · exact ⟨hp.greedy, hp.penalty⟩
              · exact ⟨hq.greedy, hq.penalty⟩
              · exact congrArg (· ++ [a]) htokens
              · constructor
                · intro h
                  refine .inr (.inr ⟨hsa, rfl, fun c' hc' => ?_⟩)
                  obtain rfl := Except.ok.inj hc'
                  exact h
                · rintro (h | ⟨h, -⟩ | ⟨-, -, h⟩)
                  · exact absurd h hpos
                  · exact absurd h hsa
                  · exact h cursor rfl
          · refine iff_of_false (ne_of_prefix_append_singleton hab hp' hq') ?_
            rintro (h | ⟨h, -⟩ | ⟨-, h, -⟩)
            · exact hpos h
            · exact hsa h
            · exact hab h

end Loops

/-! ## The engine and the CPU adapter -/

/-- The same greedy request to the engine and to an adapter: the same prompt tokens, the same
positive number of new tokens, no context limit and no flag. -/
structure SameGreedyRequest (ops : TensorOps α δ) (promptTokens : List TokenID)
    (ctx : HydroXLEngine.ExecutionContext α) (req : InferenceRequest α) : Prop where
  prompt_ne_nil : promptTokens ≠ []
  prompt : req.promptTokenIds = promptTokens
  maxNew : ctx.maxTokens = req.maxNewTokens
  maxNew_pos : 0 < ctx.maxTokens
  greedyEngine : ops.le ctx.temperature ops.zero
  greedyAdapter : ops.le req.temperature ops.zero
  noLimit : ¬0 < ctx.nCtx
  noFlag : ctx.cancelFlag = none

/-- The adapter ends without a token behind a prompt: the cache is full, there are no logits, or the
leader with the prompt penalised is the token that ends generation. -/
def EndsAtOnce (ops : TensorOps α δ) (m : LanguageModel σ α) (promptTokens : List TokenID)
    (start : Cursor σ α) : Prop :=
  m.maxSeqLen ≤ .ofNat promptTokens.length ∨ seen start.logits = [] ∨
    ∃ a, LeadsWith ops (SamplerParams.standard ops).repeatPenalty promptTokens start.logits a ∧
      .ofNat a = m.tokenizer.eosId

/-- The penalties for the prompt change no leader, if the prompt runs through the model. A prompt
that is longer than the cache is not run by the engine at all, so there the adapter has to end
without a token. -/
def PromptKeepsLeaders (ops : TensorOps α δ) (m : LanguageModel σ α) (promptTokens : List TokenID)
    (maxNew : ℕ) (st : σ) : Prop :=
  ∀ start, prefill m promptTokens { state := m.resetCache st } = .ok start →
    (promptTokens.length ≤ m.maxSeqLen.toNat → KeepsLeaders ops m promptTokens maxNew start) ∧
    (m.maxSeqLen.toNat < promptTokens.length → EndsAtOnce ops m promptTokens start)

/-- The position behind a prompt. -/
theorem pos_of_prefill {toks : List TokenID} {c start : Cursor σ α}
    (h : prefill m toks c = .ok start) : start.pos = c.pos + .ofNat toks.length := by
  induction toks generalizing c with
  | nil =>
    obtain rfl := Except.ok.inj h
    exact (UInt32.add_zero _).symm
  | cons tok toks ih =>
    rw [prefill, List.foldlM_cons] at h
    cases hstep : m.step c tok with
    | error e =>
      rw [hstep] at h
      cases h
    | ok c' =>
      rw [hstep] at h
      have hnext : c'.pos = c.pos + 1 := by
        unfold LanguageModel.step at hstep
        split at hstep
        · obtain rfl := Except.ok.inj hstep
          rfl
        · cases hstep
      rw [ih h, hnext, List.length_cons, UInt32.add_assoc]
      congr 1
      rw [Nat.add_comm, UInt32.ofNat_add]
      rfl

/-- When the adapter's first pick ends generation. -/
theorem stops_pickToken_iff (hops : ops.FloatOrder) (past : List TokenID) (logits : List α) :
    m.Stops (pickToken ops past logits) ↔ seen logits = [] ∨
      ∃ a, LeadsWith ops (SamplerParams.standard ops).repeatPenalty past logits a ∧
        .ofNat a = m.tokenizer.eosId := by
  by_cases hnone : seen logits = []
  · exact iff_of_true (.inr (HydroXLSampler.greedyToken_of_seen_nil hnone)) (.inl hnone)
  · obtain ⟨a, hlead, hpick⟩ := HydroXLSampler.exists_leadsWith
      (SamplerParams.standard ops).repeatPenalty past hops hnone
    have hpick : pickToken ops past logits = .ofNat a := hpick
    rw [hpick, stops_ofNat_iff hlead, or_iff_right hnone]
    constructor
    · exact fun heos => ⟨a, hlead, heos⟩
    · rintro ⟨b, hb, heos⟩
      rwa [FirstGreatest.Leads.unique hops hlead hb]

namespace SameGreedyRequest

variable {ctx : HydroXLEngine.ExecutionContext α} {req : InferenceRequest α} {streaming : Bool}

theorem promptTokens_eq (h : SameGreedyRequest ops promptTokens ctx req)
    (tokenizer : HydroXLTokenizer) : req.promptTokens tokenizer = promptTokens := by
  simp [InferenceRequest.promptTokens, h.prompt, h.prompt_ne_nil]

theorem maxNew_eq (h : SameGreedyRequest ops promptTokens ctx req) : ctx.maxNew = req.maxNew := by
  unfold HydroXLEngine.ExecutionContext.maxNew InferenceRequest.maxNew
  rw [← h.maxNew, if_pos h.maxNew_pos, if_pos h.maxNew_pos]

theorem exists_maxNew (h : SameGreedyRequest ops promptTokens ctx req) :
    ∃ n, req.maxNew = n + 1 := by
  refine Nat.exists_eq_succ_of_ne_zero ?_
  unfold InferenceRequest.maxNew
  rw [← h.maxNew, if_pos h.maxNew_pos]
  have hpos := Int32.lt_iff_toInt_lt.mp h.maxNew_pos
  change 0 < ctx.maxTokens.toInt at hpos
  change ctx.maxTokens.toInt.toNat ≠ 0
  omega

theorem effectiveLimit_eq (h : SameGreedyRequest ops promptTokens ctx req) (maxSeqLen : UInt32) :
    ctx.effectiveLimit maxSeqLen = maxSeqLen :=
  if_neg fun hlimit => h.noLimit hlimit.1

/-- The adapter finds no token in a round that ends the loop, and finds one in any other. -/
theorem outIds_eq_nil_iff (h : SameGreedyRequest ops promptTokens ctx req) (c : Cursor σ α) :
    (decodeLoop ops m cb promptTokens req.maxNew
        { cursor := c, sampler := .new (req.samplerParams ops) }).1.outIds = [] ↔
      c.pos ≥ m.maxSeqLen ∨ m.Stops (pickToken ops promptTokens c.logits) := by
  obtain ⟨n, hn⟩ := h.exists_maxNew
  rw [hn, decodeLoop_greedy h.greedyAdapter]
  split
  next hpos => exact iff_of_true rfl (.inl hpos)
  next hpos =>
    dsimp only
    split
    next hstop => exact iff_of_true rfl (.inr hstop)
    next hstop =>
      refine iff_of_false ?_ ?_
      · exact (ne_of_longer (append_prefix_outIds_roundFrom ..)).symm
      · rintro (hpos' | hstop')
        · exact hpos hpos'
        · exact hstop hstop'

/-- **The two generation paths.** On the same greedy request the engine and the CPU adapter generate
the same tokens exactly when the penalties for the prompt change no leader behind the greedy
continuations. -/
theorem generated_eq_outputTokenIds_iff (h : SameGreedyRequest ops promptTokens ctx req)
    (hops : ops.FloatOrder) (haccepts : ∀ f ∈ cb, ∀ calls, f calls) (st : σ) :
    (HydroXLEngine.generateFrom ops m ctx streaming promptTokens st).generated =
        (HydroXLCpuEngineAdapter.runStream ops (some m) cb req st).result.outputTokenIds ↔
      PromptKeepsLeaders ops m promptTokens req.maxNew st := by
  have hdeclined (q : Progress σ α) : q.declined cb = false := by
    cases cb with
    | none => rfl
    | some f => simp [Progress.declined, haccepts f rfl]
  have hprompt := h.promptTokens_eq m.tokenizer
  unfold HydroXLEngine.generateFrom PromptKeepsLeaders HydroXLCpuEngineAdapter.runStream
  dsimp only
  rw [h.effectiveLimit_eq]
  cases hprefill : prefill m promptTokens { state := m.resetCache st } with
  | error e =>
    -- neither of them gets behind the prefill
    rw [runStream_of_prefill_error (hprompt ▸ hprefill)]
    refine iff_of_true ?_ fun c hc => by cases hc
    split
    · rfl
    · rename_i hfit
      rw [HydroXLEngine.prefill_eq h.noFlag _ _ _ (by simpa using hfit), hprefill]
      rfl
  | ok c =>
    rw [runStream_of_prefill_ok (hprompt ▸ hprefill), outputTokenIds_conclude, hprompt]
    simp only [Except.ok.injEq, forall_eq']
    split
    next hlong =>
      -- the engine rejects the prompt
      simp only [Nat.not_le.mpr hlong, hlong, false_imp_iff, true_and, true_imp_iff]
      have hpos : c.pos = .ofNat promptTokens.length :=
        (pos_of_prefill hprefill).trans (UInt32.zero_add _)
      rw [EndsAtOnce, ← hpos, ← stops_pickToken_iff hops, eq_comm]
      exact h.outIds_eq_nil_iff c
    next hfit =>
      have hkeeps : KeepsLeaders ops m promptTokens req.maxNew c ↔
          SamePicks ops m promptTokens req.maxNew c [] := by
        rw [samePicks_iff hops, List.length_nil, Nat.zero_add]
        exact Iff.rfl
      simp only [Nat.le_of_not_lt hfit, hfit, false_imp_iff, and_true, true_imp_iff]
      rw [hkeeps, HydroXLEngine.prefill_eq h.noFlag _ _ _ (by simpa using hfit), hprefill]
      dsimp only
      split
      next hempty =>
        -- without logits the adapter's sampler returns the invalid token
        have hlogits : c.logits = [] := by simpa [h.prompt_ne_nil] using hempty
        have hstop : m.Stops (pickToken ops promptTokens c.logits) := .inr (by rw [hlogits]; rfl)
        have hstop' : m.Stops (pickToken ops [] c.logits) := .inr (by rw [hlogits]; rfl)
        obtain ⟨n, hn⟩ := h.exists_maxNew
        refine iff_of_true ((h.outIds_eq_nil_iff c).mpr (.inr hstop)).symm ?_
        rw [hn]
        exact .inr (.inl ⟨hstop', hstop⟩)
      next =>
        have hloops :=
          generatedTokens_eq_outIds_iff ops m cb promptTokens streaming h.noFlag hdeclined
          ctx.maxNew 0
          (p := { polls := promptTokens.length, cursor := c,
                  sampler := .new (ctx.samplerParams ops) })
          (q := { cursor := c, sampler := .new (req.samplerParams ops) })
          ⟨h.greedyEngine, rfl⟩ ⟨h.greedyAdapter, rfl⟩ rfl rfl
        rw [h.maxNew_eq] at hloops ⊢
        rw [← hloops]
        split <;> exact Iff.rfl

end SameGreedyRequest

/-- A model of two tokens with the logits `lead` and 1. -/
def twoTokens (lead : ℚ) : LanguageModel Unit ℚ where
  tokenizer :=
    { loaded := true
      vocab := ⟨[[0x61], [0x62]], by decide⟩
      strToId := vocabIndex [[0x61], [0x62]] }
  maxSeqLen := 8
  resetCache := id
  forward _ _ _ st := (.ok [lead, 1], st)

/-- One new token after the prompt of the first token. -/
def oneTokenContext : HydroXLEngine.ExecutionContext ℚ :=
  { maxTokens := 1, temperature := 0, nCtx := 0 }

/-- A greedy request for one token. -/
def oneTokenRequest : InferenceRequest ℚ :=
  { promptTokenIds := [0], maxNewTokens := 1, temperature := 0, topP := 1 }

theorem sameGreedyRequest_oneToken :
    SameGreedyRequest rationalOps [0] oneTokenContext oneTokenRequest where
  prompt_ne_nil := by decide
  prompt := rfl
  maxNew := rfl
  maxNew_pos := by decide
  greedyEngine := by decide +kernel
  greedyAdapter := by decide +kernel
  noLimit := by decide
  noFlag := rfl

/-- A logit of 2 leads 1 also when it is divided by 1.1. -/
theorem promptKeepsLeaders_two : PromptKeepsLeaders rationalOps (twoTokens 2) [0] 1 () := by
  intro start hstart
  obtain rfl := Except.ok.inj hstart
  refine ⟨fun _ => ?_, fun hlong => absurd hlong (by decide)⟩
  intro c generated hrun hlength _ a hlead
  rcases Relation.ReflTransGen.cases_tail hrun with heq | ⟨s, -, -, b, -, -, -, htokens⟩
  · -- there is no token yet, and the first one leads
    obtain ⟨rfl, rfl⟩ := Prod.mk.inj heq
    have hfirst := hlead.greedyToken_eq floatOrder_rationalOps
    obtain rfl : (0 : ℕ) = a := HydroXLSampler.ofNat_injective (by decide)
      (hlead.lt_length.trans (HydroXLSampler.length_seen_lt _))
      ((by decide +kernel : Int32.ofNat 0 = _).trans hfirst)
    apply (HydroXLSampler.leadsWith_iff_undisturbed hlead).mp
    exact HydroXLSampler.leadsWith_of_greedyToken_eq floatOrder_rationalOps hlead.lt_length
      (by decide +kernel)
  · have hlonger : generated = s.2 ++ [Int32.ofNat b] := htokens
    rw [hlonger, List.length_append, List.length_singleton] at hlength
    omega

/-- With these logits both generate the first token. -/
theorem generated_eq_outputTokenIds_iff_oneToken :
    (HydroXLEngine.generateFrom rationalOps (twoTokens 2) oneTokenContext true [0] ()).generated =
      (HydroXLCpuEngineAdapter.runStream rationalOps (some (twoTokens 2)) (some fun _ => true)
        oneTokenRequest ()).result.outputTokenIds :=
  (sameGreedyRequest_oneToken.generated_eq_outputTokenIds_iff floatOrder_rationalOps
    (fun _ hf _ => by cases hf; rfl) ()).mpr promptKeepsLeaders_two

/-- With logits of 1.05 and 1 the adapter penalises the prompt and picks the second token; the
engine, which has generated none yet, picks the first. -/
theorem not_generated_eq_outputTokenIds :
    ¬∀ (m : LanguageModel Unit ℚ) (promptTokens : List TokenID)
      (ctx : HydroXLEngine.ExecutionContext ℚ) (req : InferenceRequest ℚ),
      SameGreedyRequest rationalOps promptTokens ctx req →
        (HydroXLEngine.generateFrom rationalOps m ctx false promptTokens ()).generated =
          (HydroXLCpuEngineAdapter.runStream rationalOps (some m) none req
            ()).result.outputTokenIds := by
  intro h
  have hsame :=
    h (twoTokens (21 / 20)) [0] oneTokenContext oneTokenRequest sameGreedyRequest_oneToken
  exact absurd hsame (by decide +kernel)

end Orchestration

end HeteroAccel
