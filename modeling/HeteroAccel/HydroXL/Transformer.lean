import HeteroAccel.HydroXL.ForwardPass
import HeteroAccel.Lib.CausalStack

/-!
# The transformer without a cache

What a forward pass is for, said of a whole sequence of tokens: every layer is applied to the hidden
states of all positions at once, and attention reads the key and value vectors themselves. There are
no buffers, no cache and no positions to be counted. The operators are those of the forward pass, on
new buffers.

## Main definitions

* `Transformer.stack`: the layers of a model, as a `CausalStack`;
* `Transformer.hidden`, `Transformer.logits`: what the model makes of a sequence.

## Main results

* `Transformer.hidden_prefix`: no token sees those behind it.
-/

namespace HeteroAccel.Transformer

variable {α δ : Type} (ops : TensorOps α δ)

/-! ## The operators on new buffers -/

/-- What an operator leaves in a new buffer. -/
def fill (n : UInt32) (op : List α → Option (Bool × List α)) : List α :=
  ((op (List.replicate n.toNat ops.zero)).map Prod.snd).getD []

variable {ops} in
/-- An operator that fills its output leaves there what it leaves in a new buffer. -/
theorem fill_eq {n : UInt32} {op : List α → Option (Bool × List α)} {out v : List α} {ok : Bool}
    (hop : op (List.replicate n.toNat ops.zero) = op out) (h : op out = some (ok, v)) :
    fill ops n op = v := by
  rw [fill, hop, h]
  rfl

variable (hp : Qwen2HParams α)

/-- RMS normalization with the model's parameters. -/
def norm (weight x : List α) : List α :=
  fill ops hp.nEmbd fun out => rmsNorm ops x weight out hp.nEmbd hp.rmsNormEps

/-- A matrix with `rows` and `cols`, applied to a vector. -/
def linear (a : List α) (rows cols : UInt32) (x : List α) : List α :=
  fill ops rows fun out => matvec ops a x out rows cols

/-- The sum of two vectors. -/
def plus (n : UInt32) (x y : List α) : List α := (residualAdd ops x y n).getD []

/-- A bias, if there is one. -/
def biased (bias : List α) (n : UInt32) (x : List α) : List α :=
  if bias ≠ [] then plus ops n x bias else x

/-- The rotary encoding of a query and a key. -/
def rotated (pos : ℕ) (q k : List α) : List α × List α :=
  ((ropeApply ops q hp.nHeads k hp.nKvHeads hp.nHeadDim (.ofNat pos) hp.ropeFreqBase ops.one).map
    Prod.snd).getD ([], [])

/-- The gate of the feed-forward network. -/
def gated (n : UInt32) (gate up : List α) : List α :=
  (swiglu ops gate up (List.replicate n.toNat ops.zero) n).getD []

/-! ## A layer -/

variable (w : Qwen2LayerWeights α)

/-- The query and the key of a hidden state before the rotary encoding, and its value. -/
def projections (x : List α) : List α × List α × List α :=
  let n := norm ops hp w.attnNorm x
  let q := linear ops w.attnQ (hp.nHeads * hp.nHeadDim) hp.nEmbd n
  let k := linear ops w.attnK (hp.nKvHeads * hp.nHeadDim) hp.nEmbd n
  let v := linear ops w.attnV (hp.nKvHeads * hp.nHeadDim) hp.nEmbd n
  (biased ops w.attnQBias (hp.nHeads * hp.nHeadDim) q,
    biased ops w.attnKBias (hp.nKvHeads * hp.nHeadDim) k,
    biased ops w.attnVBias (hp.nKvHeads * hp.nHeadDim) v)

/-- The query of a token at a position. -/
def query (pos : ℕ) (x : List α) : List α :=
  let (q, k, _) := projections ops hp w x
  (rotated ops hp pos q k).1

/-- The key and the value of a position. -/
def entry (pos : ℕ) (x : List α) : List α × List α :=
  let (q, k, v) := projections ops hp w x
  ((rotated ops hp pos q k).2, v)

/-- Attention of a query at a position to the keys and values of the positions up to it. -/
def attention (pos : ℕ) (es : List (List α × List α)) (q : List α) : List α :=
  let scale := ops.div ops.one (ops.sqrt (ops.ofUInt32 hp.nHeadDim))
  ((attendVectors ops.floatOps q (fun t => (es.getD t ([], [])).1)
    (fun t => (es.getD t ([], [])).2) (.ofNat (pos + 1)) hp.nHeads hp.nKvHeads hp.nHeadDim
    scale).getD []).flatten

/-- The first half of a layer. -/
def attend (pos : ℕ) (es : List (List α × List α)) (x : List α) : List α :=
  plus ops hp.nEmbd x (linear ops w.attnOut hp.nEmbd (hp.nHeads * hp.nHeadDim)
    (attention ops hp pos es (query ops hp w pos x)))

/-- The second half of a layer. -/
def feedForward (x : List α) : List α :=
  let n := norm ops hp w.ffnNorm x
  plus ops hp.nEmbd x (linear ops w.ffnDown hp.nEmbd hp.nFf
    (gated ops hp.nFf (linear ops w.ffnGate hp.nFf hp.nEmbd n)
      (linear ops w.ffnUp hp.nFf hp.nEmbd n)))

/-! ## The model -/

variable (m : HydroXLModel α)

/-- The layers of a model. -/
def stack : CausalStack (List α) (List α × List α) where
  entry l pos x := (m.layers[l]?).elim ([], []) fun w => entry ops m.hparams w pos x
  block l pos es x :=
    (m.layers[l]?).elim x fun w => feedForward ops m.hparams w (attend ops m.hparams w pos es x)

/-- The embedding of a token. -/
def embed (tokenId : UInt32) : List α :=
  fill ops m.hparams.nEmbd fun out =>
    embedLookup m.tokEmbd tokenId m.hparams.vocabSize m.hparams.nEmbd out

/-- The hidden states of a sequence of tokens behind the layers. -/
def hidden (tokens : List UInt32) : List (List α) :=
  (stack ops m).run m.hparams.nLayers.toNat (tokens.map (embed ops m))

/-- The logits of a hidden state. -/
def head (x : List α) : List α :=
  linear ops m.lmHeadWeights m.hparams.vocabSize m.hparams.nEmbd
    (norm ops m.hparams m.outputNorm x)

/-- The logits of the last token of a sequence. -/
def logits (tokens : List UInt32) : List α := head ops m ((hidden ops m tokens).getLastD [])

/-- The tokens that follow do not change the hidden states of those that are there. -/
theorem hidden_prefix {tokens tokens' : List UInt32} (h : tokens <+: tokens') :
    hidden ops m tokens <+: hidden ops m tokens' :=
  CausalStack.run_prefix (stack ops m) _ (h.map _)

variable {m}

theorem stack_entry {l : ℕ} {w : Qwen2LayerWeights α} (h : m.layers[l]? = some w) (pos : ℕ)
    (x : List α) : (stack ops m).entry l pos x = entry ops m.hparams w pos x := by
  simp only [stack, h, Option.elim_some]

theorem stack_block {l : ℕ} {w : Qwen2LayerWeights α} (h : m.layers[l]? = some w) (pos : ℕ)
    (es : List (List α × List α)) (x : List α) : (stack ops m).block l pos es x =
      feedForward ops m.hparams w (attend ops m.hparams w pos es x) := by
  simp only [stack, h, Option.elim_some]

end HeteroAccel.Transformer
