import HeteroAccel.HydroXL.Model
import HeteroAccel.HydroXL.Operators
import HeteroAccel.Lib.TwoRuns
import Mathlib.Logic.Function.Basic

/-!
# The forward pass

`HydroXLForwardPass::forward`: one token at one position is run through the layers of a model, over
the cache of the earlier positions. The results on the way are in buffers that the object keeps from
one call to the next; `forward` resizes all of them when it begins. A call is a program over the
cache and the buffers. It fails with the text for `last_error_`, and has no result where an operator
has none.

Some results of operators are tested, others are not looked at. What the operators reported in a
call is kept in `ForwardState.reports`, and the calls of a device, where there is one, in
`ForwardState.calls`. Both are not part of the source.

## Main definitions

* `HydroXLForwardPass`, `ForwardBuffer`, `ForwardState`, `DeviceCall`;
* `ForwardM`: the operators as programs over the buffers;
* `HydroXLForwardPass.layer`, `HydroXLForwardPass.pass`, `HydroXLForwardPass.forward`.
-/

namespace HeteroAccel

open Bytes (ofString ofDecimal)
open TwoRuns (Prog)

/-- The buffers that a forward pass works on: those that the object keeps, and the logits of the
caller. -/
inductive ForwardBuffer where
  | hidden | normed | qBuf | kBuf | vBuf | attnOut | projOut | gateBuf | upBuf | ffnBuf | ffnOut
  | attnScores | logits
  deriving DecidableEq, Repr

/-- The object, with what its pointers lead to; a null pointer is `none`. The buffer `logits` is not
one of its own. -/
structure HydroXLForwardPass (α : Type) where
  model : Option (HydroXLModel α) := none
  kvCache : Option (HydroXLKVCache α) := none
  lastError : Bytes := []
  buffers : ForwardBuffer → List α := fun _ => []

/-- A call of a device, with what it is given: the content of vectors, and the names of tensors. -/
inductive DeviceCall (α : Type) where
  | rmsnorm (x : List α) (weight : Bytes) (n : UInt32) (eps : α)
  | matvecHost (a : Bytes) (x : List α) (mRows kCols : UInt32)
  | elemwise (a : List α) (b : Option (List α)) (n opType : UInt32)

/-- What a call works on. -/
structure ForwardState (α : Type) where
  kvCache : HydroXLKVCache α
  buffers : ForwardBuffer → List α
  /-- What the operators have reported in this call. -/
  reports : List Bool := []
  /-- The calls of a device so far, the latest one last. -/
  calls : List (DeviceCall α) := []

namespace ForwardState

variable {α : Type}

/-- A buffer with a new content. -/
def put (s : ForwardState α) (b : ForwardBuffer) (v : List α) : ForwardState α :=
  { s with buffers := Function.update s.buffers b v }

/-- An operator has reported `ok`. -/
def report (s : ForwardState α) (ok : Bool) : ForwardState α :=
  { s with reports := s.reports ++ [ok] }

/-- A device has been called. -/
def log (s : ForwardState α) (call : DeviceCall α) : ForwardState α :=
  { s with calls := s.calls ++ [call] }

@[simp]
theorem buffers_put (s : ForwardState α) (b : ForwardBuffer) (v : List α) :
    (s.put b v).buffers b = v :=
  Function.update_self _ _ _

@[simp]
theorem buffers_put_of_ne (s : ForwardState α) {b c : ForwardBuffer} (hc : c ≠ b) (v : List α) :
    (s.put b v).buffers c = s.buffers c :=
  Function.update_of_ne hc _ _

end ForwardState

/-- `data()` of a vector; without elements it is a null pointer. -/
def pointer {α : Type} (v : List α) : Option (List α) := if v = [] then none else some v

/-! ## The operators on the buffers -/

/-- The programs of a forward pass. -/
abbrev ForwardM (α : Type) := Prog Bytes (ForwardState α)

namespace ForwardM

variable {α δ : Type} (ops : TensorOps α δ)

/-- An operator that writes the buffer `b`, given its old content. -/
def operate (b : ForwardBuffer) (op : ForwardState α → List α → Option (Bool × List α)) :
    ForwardM α Bool :=
  Prog.action fun s => do
    let (ok, v) ← op s (s.buffers b)
    some (ok, (s.put b v).report ok)

/-- An operator that writes two buffers. -/
def operate₂ (b c : ForwardBuffer)
    (op : ForwardState α → List α → List α → Option (Bool × List α × List α)) : ForwardM α Bool :=
  Prog.action fun s => do
    let (ok, v, w) ← op s (s.buffers b) (s.buffers c)
    some (ok, ((s.put b v).put c w).report ok)

/-- An operator without a result. -/
def overwrite (b : ForwardBuffer) (op : ForwardState α → List α → Option (List α)) :
    ForwardM α Unit :=
  Prog.action fun s => do
    let v ← op s (s.buffers b)
    some ((), s.put b v)

/-- `embed_lookup`. -/
def embedLookup (table : List α) (tokenId vocabSize nEmbd : UInt32) (dst : ForwardBuffer) :
    ForwardM α Bool :=
  operate dst fun _ v => HeteroAccel.embedLookup table tokenId vocabSize nEmbd v

/-- `rms_norm`. -/
def rmsNorm (x : ForwardBuffer) (weight : List α) (out : ForwardBuffer) (n : UInt32) (eps : α) :
    ForwardM α Bool :=
  operate out fun s v => HeteroAccel.rmsNorm ops (s.buffers x) weight v n eps

/-- `matvec`. -/
def matvec (a : List α) (x out : ForwardBuffer) (mRows kCols : UInt32) : ForwardM α Bool :=
  operate out fun s v => HeteroAccel.matvec ops a (s.buffers x) v mRows kCols

/-- `rope_apply`. -/
def ropeApply (q : ForwardBuffer) (nHeads : UInt32) (k : ForwardBuffer)
    (nKvHeads headDim pos : UInt32) (freqBase freqScale : α) : ForwardM α Bool :=
  operate₂ q k fun _ v w =>
    HeteroAccel.ropeApply ops v nHeads w nKvHeads headDim pos freqBase freqScale

/-- `writeKV` of the cache. -/
def writeKV (layer pos : UInt32) (k v : ForwardBuffer) : ForwardM α Bool :=
  Prog.action fun s => do
    let (ok, kvCache) ←
      s.kvCache.writeKV layer pos (pointer (s.buffers k)) (pointer (s.buffers v))
    some (ok, { s with kvCache }.report ok)

/-- `causal_attention` over a layer of the cache. -/
def causalAttention (layer : UInt32) (q out : ForwardBuffer)
    (seqLen nHeads nKvHeads headDim : UInt32) (scale : α) (scratchScores : ForwardBuffer) :
    ForwardM α Bool :=
  operate₂ out scratchScores fun s v w =>
    causalAttentionInto ops (s.buffers q) ((s.kvCache.kLayer layer).bind pointer)
      ((s.kvCache.vLayer layer).bind pointer) v seqLen nHeads nKvHeads headDim s.kvCache.maxSeqLen
      scale w

/-- `swiglu`. -/
def swiglu (gate up out : ForwardBuffer) (n : UInt32) : ForwardM α Unit :=
  overwrite out fun s v => HeteroAccel.swiglu ops (s.buffers gate) (s.buffers up) v n

/-- `residual_add`. -/
def residualAdd (a b : ForwardBuffer) (n : UInt32) : ForwardM α Unit :=
  overwrite a fun s v => HeteroAccel.residualAdd ops v (s.buffers b) n

/-- The loop that adds a bias, if there is one. -/
def addBias (bias : List α) (a : ForwardBuffer) (n : UInt32) : ForwardM α Unit :=
  if bias ≠ [] then overwrite a fun _ v => HeteroAccel.residualAdd ops v bias n else pure ()

end ForwardM

/-! ## The pass -/

namespace HydroXLForwardPass

variable {α δ : Type} (ops : TensorOps α δ)

/-- The elements of each buffer, in 32-bit numbers. -/
def bufferSize (hp : Qwen2HParams α) (maxSeqLen : UInt32) : ForwardBuffer → UInt32
  | .hidden => hp.nEmbd
  | .normed => hp.nEmbd
  | .qBuf => hp.nHeads * hp.nHeadDim
  | .kBuf => hp.nKvHeads * hp.nHeadDim
  | .vBuf => hp.nKvHeads * hp.nHeadDim
  | .attnOut => hp.nHeads * hp.nHeadDim
  | .projOut => hp.nEmbd
  | .gateBuf => hp.nFf
  | .upBuf => hp.nFf
  | .ffnBuf => hp.nFf
  | .ffnOut => hp.nEmbd
  | .attnScores => maxSeqLen
  | .logits => hp.vocabSize

/-- The projections of a layer with their biases, and the rotary encoding: none of the results is
looked at. -/
def project (hp : Qwen2HParams α) (w : Qwen2LayerWeights α) (pos : UInt32) : ForwardM α Unit := do
  let _ ← ForwardM.matvec ops w.attnQ .normed .qBuf (hp.nHeads * hp.nHeadDim) hp.nEmbd
  let _ ← ForwardM.matvec ops w.attnK .normed .kBuf (hp.nKvHeads * hp.nHeadDim) hp.nEmbd
  let _ ← ForwardM.matvec ops w.attnV .normed .vBuf (hp.nKvHeads * hp.nHeadDim) hp.nEmbd
  ForwardM.addBias ops w.attnQBias .qBuf (hp.nHeads * hp.nHeadDim)
  ForwardM.addBias ops w.attnKBias .kBuf (hp.nKvHeads * hp.nHeadDim)
  ForwardM.addBias ops w.attnVBias .vBuf (hp.nKvHeads * hp.nHeadDim)
  let _ ← ForwardM.ropeApply ops .qBuf hp.nHeads .kBuf hp.nKvHeads hp.nHeadDim pos hp.ropeFreqBase
    ops.one

/-- The first half of a layer. -/
def attend (hp : Qwen2HParams α) (w : Qwen2LayerWeights α) (l pos : UInt32) : ForwardM α Unit := do
  let attnScale := ops.div ops.one (ops.sqrt (ops.ofUInt32 hp.nHeadDim))
  (ForwardM.rmsNorm ops .hidden w.attnNorm .normed hp.nEmbd hp.rmsNormEps).orFail
    (ofString "rms_norm failed at layer " ++ ofDecimal l.toNat)
  project ops hp w pos
  (ForwardM.writeKV l pos .kBuf .vBuf).orFail
    (ofString "KV cache write failed at layer " ++ ofDecimal l.toNat)
  (ForwardM.causalAttention ops l .qBuf .attnOut (pos + 1) hp.nHeads hp.nKvHeads hp.nHeadDim
    attnScale .attnScores).orFail
    (ofString "causal_attention failed at layer " ++ ofDecimal l.toNat)
  let _ ← ForwardM.matvec ops w.attnOut .attnOut .projOut hp.nEmbd (hp.nHeads * hp.nHeadDim)
  ForwardM.residualAdd ops .hidden .projOut hp.nEmbd

/-- The second half of a layer. -/
def feedForward (hp : Qwen2HParams α) (w : Qwen2LayerWeights α) (l : UInt32) : ForwardM α Unit := do
  (ForwardM.rmsNorm ops .hidden w.ffnNorm .normed hp.nEmbd hp.rmsNormEps).orFail
    (ofString "ffn rms_norm failed at layer " ++ ofDecimal l.toNat)
  let _ ← ForwardM.matvec ops w.ffnGate .normed .gateBuf hp.nFf hp.nEmbd
  let _ ← ForwardM.matvec ops w.ffnUp .normed .upBuf hp.nFf hp.nEmbd
  ForwardM.swiglu ops .gateBuf .upBuf .ffnBuf hp.nFf
  let _ ← ForwardM.matvec ops w.ffnDown .ffnBuf .ffnOut hp.nEmbd hp.nFf
  ForwardM.residualAdd ops .hidden .ffnOut hp.nEmbd

/-- One round of the loop over the layers. The access `.at(l)` beyond the layers throws, which no
caller catches. -/
def layer (m : HydroXLModel α) (pos : UInt32) (l : ℕ) : ForwardM α PUnit :=
  match m.layers[l]? with
  | none => Prog.undefined
  | some w => do
    attend ops m.hparams w (.ofNat l) pos
    feedForward ops m.hparams w (.ofNat l)

/-- What is done with the buffers. -/
def pass (m : HydroXLModel α) (tokenId pos : UInt32) : ForwardM α Unit := do
  let hp := m.hparams
  (ForwardM.embedLookup m.tokEmbd tokenId hp.vocabSize hp.nEmbd .hidden).orFail
    (ofString "Invalid token_id=" ++ ofDecimal tokenId.toNat)
  (List.range hp.nLayers.toNat).forM (layer ops m pos)
  (ForwardM.rmsNorm ops .hidden m.outputNorm .normed hp.nEmbd hp.rmsNormEps).orFail
    (ofString "Final rms_norm failed")
  let _ ← ForwardM.matvec ops m.lmHeadWeights .normed .logits hp.vocabSize hp.nEmbd

/-- `attach`. -/
def attach (model : HydroXLModel α) (kvCache : HydroXLKVCache α) (p : HydroXLForwardPass α) :
    HydroXLForwardPass α :=
  { p with model := some model, kvCache := some kvCache }

/-- `isReady`. -/
def isReady (p : HydroXLForwardPass α) : Bool :=
  p.model.isSome && p.kvCache.any fun kvCache => kvCache.allocated

/-- The state in which a call begins to compute: all buffers are resized. -/
def start (p : HydroXLForwardPass α) (m : HydroXLModel α) (kvCache : HydroXLKVCache α)
    (logits : List α) : ForwardState α where
  kvCache
  buffers b := HydroXLModel.resize ops.zero (if b = .logits then logits else p.buffers b)
    (bufferSize m.hparams kvCache.maxSeqLen b).toNat

/-- `forward` for a vector `logits`: what it returns, the new logits and the object behind it. -/
def forward (p : HydroXLForwardPass α) (tokenId pos : UInt32) (logits : List α) :
    Option (Bool × List α × HydroXLForwardPass α) :=
  match p.model, p.kvCache with
  | some m, some kvCache =>
    if !m.loaded then
      some (false, logits, { p with lastError := ofString "Model is not loaded" })
    else if !kvCache.allocated then
      some (false, logits, { p with lastError := ofString "KV cache not allocated" })
    else do
      let (result, s) ← (pass ops m tokenId pos).runFrom (p.start ops m kvCache logits)
      let p := { p with kvCache := some s.kvCache, buffers := s.buffers }
      match result with
      | .ok _ => some (true, s.buffers .logits, p)
      | .error lastError => some (false, s.buffers .logits, { p with lastError })
  | _, _ =>
    some (false, logits,
      { p with lastError := ofString "Forward pass not attached to model/cache" })

/-- What the operators report in a call of `forward`. -/
def reports (p : HydroXLForwardPass α) (tokenId pos : UInt32) (logits : List α) : List Bool :=
  match p.model, p.kvCache with
  | some m, some kvCache =>
    if m.loaded && kvCache.allocated then
      ((pass ops m tokenId pos).runFrom (p.start ops m kvCache logits)).elim [] fun r => r.2.reports
    else []
  | _, _ => []

end HydroXLForwardPass

end HeteroAccel
