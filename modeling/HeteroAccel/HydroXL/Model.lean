import HeteroAccel.HydroXL.Dequant
import HeteroAccel.HydroXL.GGUFLoader

/-!
# The model

`HydroXLModel`: the hyper-parameters and the dequantized weights of a Qwen2 model, and `load`, which
fills them from a GGUF file. `loadTensor` is shared by all tensors, required or not; a caller that
does not look at its result makes a tensor optional.

`load` has three ways to end (`LoadStatus`): it returns `true`, returns `false`, or an exception of
`resize` leaves it when a tensor has more elements than a vector can have.

## Main definitions

* `Slot`: the tensors that are loaded, with their names, their sizes and their places;
* `HydroXLModel.loadTensor`, `HydroXLModel.load`.
-/

namespace HeteroAccel

open Bytes (ofString ofDecimal)

/-- The hyperparameters of a model, read from the metadata of its file. -/
structure Qwen2HParams (α : Type) where
  vocabSize : UInt32 := 0
  nEmbd : UInt32 := 0
  nHeads : UInt32 := 0
  nKvHeads : UInt32 := 0
  nLayers : UInt32 := 0
  nFf : UInt32 := 0
  nCtxMax : UInt32 := 0
  rmsNormEps : α
  ropeFreqBase : α
  nHeadDim : UInt32 := 0
  deriving DecidableEq

namespace Qwen2HParams

variable {α : Type}

/-- `isValid`. -/
def isValid (hp : Qwen2HParams α) : Bool :=
  hp.vocabSize > 0 && hp.nEmbd > 0 && hp.nHeads > 0 && hp.nKvHeads > 0 && hp.nLayers > 0 &&
    hp.nFf > 0

end Qwen2HParams

/-- The weights of one layer; a bias that the file does not have is empty. -/
structure Qwen2LayerWeights (α : Type) where
  attnNorm : List α := []
  ffnNorm : List α := []
  attnQ : List α := []
  attnK : List α := []
  attnV : List α := []
  attnOut : List α := []
  attnQBias : List α := []
  attnKBias : List α := []
  attnVBias : List α := []
  ffnGate : List α := []
  ffnUp : List α := []
  ffnDown : List α := []
  deriving DecidableEq

/-- The tensors of a layer. -/
inductive LayerTensor where
  | attnNorm | ffnNorm | attnQ | attnK | attnV | attnOut | attnQBias | attnKBias | attnVBias
  | ffnGate | ffnUp | ffnDown
  deriving DecidableEq, Repr

namespace LayerTensor

/-- The tensors of a layer, in the order in which they are loaded. -/
def all : List LayerTensor :=
  [attnNorm, ffnNorm, attnQ, attnK, attnV, attnOut, attnQBias, attnKBias, attnVBias, ffnGate,
    ffnUp, ffnDown]

theorem mem_all (t : LayerTensor) : t ∈ all := by cases t <;> decide

/-- The name behind the prefix of the layer. -/
def suffix : LayerTensor → String
  | attnNorm => "attn_norm.weight"
  | ffnNorm => "ffn_norm.weight"
  | attnQ => "attn_q.weight"
  | attnK => "attn_k.weight"
  | attnV => "attn_v.weight"
  | attnOut => "attn_output.weight"
  | attnQBias => "attn_q.bias"
  | attnKBias => "attn_k.bias"
  | attnVBias => "attn_v.bias"
  | ffnGate => "ffn_gate.weight"
  | ffnUp => "ffn_up.weight"
  | ffnDown => "ffn_down.weight"

/-- A tensor whose load is not looked at. -/
def isBias : LayerTensor → Bool
  | attnQBias | attnKBias | attnVBias => true
  | _ => false

variable {α : Type}

/-- The number of elements that is asked for, in 64-bit numbers. -/
def expected (hp : Qwen2HParams α) : LayerTensor → UInt64
  | attnNorm | ffnNorm => hp.nEmbd.toUInt64
  | attnQ => hp.nHeads.toUInt64 * hp.nHeadDim.toUInt64 * hp.nEmbd.toUInt64
  | attnK | attnV => hp.nKvHeads.toUInt64 * hp.nHeadDim.toUInt64 * hp.nEmbd.toUInt64
  | attnOut => hp.nEmbd.toUInt64 * hp.nHeads.toUInt64 * hp.nHeadDim.toUInt64
  | attnQBias => hp.nHeads.toUInt64 * hp.nHeadDim.toUInt64
  | attnKBias | attnVBias => hp.nKvHeads.toUInt64 * hp.nHeadDim.toUInt64
  | ffnGate | ffnUp => hp.nFf.toUInt64 * hp.nEmbd.toUInt64
  | ffnDown => hp.nEmbd.toUInt64 * hp.nFf.toUInt64

/-- The weights of a tensor. -/
def get (w : Qwen2LayerWeights α) : LayerTensor → List α
  | attnNorm => w.attnNorm
  | ffnNorm => w.ffnNorm
  | attnQ => w.attnQ
  | attnK => w.attnK
  | attnV => w.attnV
  | attnOut => w.attnOut
  | attnQBias => w.attnQBias
  | attnKBias => w.attnKBias
  | attnVBias => w.attnVBias
  | ffnGate => w.ffnGate
  | ffnUp => w.ffnUp
  | ffnDown => w.ffnDown

/-- The layer with one of its tensors replaced. -/
def set (w : Qwen2LayerWeights α) (v : List α) : LayerTensor → Qwen2LayerWeights α
  | attnNorm => { w with attnNorm := v }
  | ffnNorm => { w with ffnNorm := v }
  | attnQ => { w with attnQ := v }
  | attnK => { w with attnK := v }
  | attnV => { w with attnV := v }
  | attnOut => { w with attnOut := v }
  | attnQBias => { w with attnQBias := v }
  | attnKBias => { w with attnKBias := v }
  | attnVBias => { w with attnVBias := v }
  | ffnGate => { w with ffnGate := v }
  | ffnUp => { w with ffnUp := v }
  | ffnDown => { w with ffnDown := v }

/-- A tensor of a layer that is set changes no other one. -/
@[simp]
theorem get_set (w : Qwen2LayerWeights α) (v : List α) (t t' : LayerTensor) :
    get (set w v t) t' = if t' = t then v else get w t' := by
  cases t <;> cases t' <;> rfl

/-- Layers with the same tensors are the same. -/
theorem ext_get {w w' : Qwen2LayerWeights α} (h : ∀ t, get w t = get w' t) : w = w' := by
  cases w
  cases w'
  congr
  · exact h attnNorm
  · exact h ffnNorm
  · exact h attnQ
  · exact h attnK
  · exact h attnV
  · exact h attnOut
  · exact h attnQBias
  · exact h attnKBias
  · exact h attnVBias
  · exact h ffnGate
  · exact h ffnUp
  · exact h ffnDown

end LayerTensor

/-- `isComplete`. -/
def Qwen2LayerWeights.isComplete {α : Type} (w : Qwen2LayerWeights α) : Bool :=
  LayerTensor.all.all fun t => t.isBias || !(t.get w).isEmpty

/-- The tensors of a model. -/
inductive Slot where
  | tokEmbd | outputNorm | lmHead
  | layer (l : ℕ) (t : LayerTensor)
  deriving DecidableEq

namespace Slot

variable {α : Type}

/-- The name in the file. -/
def name : Slot → Bytes
  | tokEmbd => ofString "token_embd.weight"
  | outputNorm => ofString "output_norm.weight"
  | lmHead => ofString "output.weight"
  | layer l t => ofString "blk." ++ ofDecimal l ++ ofString "." ++ ofString t.suffix

/-- The number of elements that is asked for. -/
def expected (hp : Qwen2HParams α) : Slot → UInt64
  | tokEmbd | lmHead => hp.vocabSize.toUInt64 * hp.nEmbd.toUInt64
  | outputNorm => hp.nEmbd.toUInt64
  | layer _ t => t.expected hp

end Slot

/-- A model, as `load` leaves it. -/
structure HydroXLModel (α : Type) where
  path : Bytes := []
  loaded : Bool := false
  lmHeadTied : Bool := false
  rawBuf : Bytes := []
  hparams : Qwen2HParams α
  tokEmbd : List α := []
  outputNorm : List α := []
  lmHead : List α := []
  layers : List (Qwen2LayerWeights α) := []
  memoryBytes : UInt64 := 0
  lastError : Bytes := []

/-- What a path names. -/
inductive DirEntry where
  | missing
  | unreadable
  | file (content : FileContent)

/-- How a load ends. -/
inductive LoadStatus where
  | loaded
  | failed
  | thrown
  deriving DecidableEq, Repr

/-- A model that is being loaded from an open file. -/
structure Loading (α : Type) where
  gguf : GGUFLoader
  model : HydroXLModel α

namespace HydroXLModel

variable {α δ : Type} (ops : TensorOps α δ)

/-- A fresh object. -/
def fresh : HydroXLModel α where
  hparams := { rmsNormEps := ops.lit (1 / 1000000), ropeFreqBase := ops.lit 1000000 }

/-- The content of a tensor. -/
def tensor (m : HydroXLModel α) : Slot → List α
  | .tokEmbd => m.tokEmbd
  | .outputNorm => m.outputNorm
  | .lmHead => m.lmHead
  | .layer l t => t.get (m.layers.getD l {})

/-- The model with one of its tensors replaced. -/
def setTensor (m : HydroXLModel α) (v : List α) : Slot → HydroXLModel α
  | .tokEmbd => { m with tokEmbd := v }
  | .outputNorm => { m with outputNorm := v }
  | .lmHead => { m with lmHead := v }
  | .layer l t => { m with layers := m.layers.modify l fun w => t.set w v }

/-! ## Hyper-parameters -/

/-- `kvFloat`. -/
def kvFloat (gguf : GGUFLoader) (key : String) (default : α) : α :=
  match gguf.kv.lookup (ofString key) with
  | some (.float32 bits) => ops.ofBits bits
  | some (.float64 bits) => ops.ofDoubleBits bits
  | _ => default

/-- The hyper-parameters that the metadata gives, before they are checked. -/
def readHParams (gguf : GGUFLoader) (hp : Qwen2HParams α) : Qwen2HParams α :=
  let key (k : String) (default : UInt32) := gguf.kvUInt32 (ofString k) default
  let vocabSize := key "llm.vocab_size" 0
  { hp with
    vocabSize := if vocabSize = 0 then key "qwen2.vocab_size" 151936 else vocabSize
    nEmbd := key "qwen2.embedding_length" 896
    nHeads := key "qwen2.attention.head_count" 14
    nKvHeads := key "qwen2.attention.head_count_kv" 2
    nLayers := key "qwen2.block_count" 24
    nFf := key "qwen2.feed_forward_length" 4864
    nCtxMax := key "qwen2.context_length" 32768
    rmsNormEps := kvFloat ops gguf "qwen2.attention.layer_norm_rms_epsilon" (ops.lit (1 / 1000000))
    ropeFreqBase := kvFloat ops gguf "qwen2.rope.freq_base" (ops.lit 1000000) }

/-- The architecture is neither known nor left out nor a kind of `qwen`. -/
def unsupportedArch (arch : Bytes) : Bool :=
  arch ≠ ofString "qwen2" && arch ≠ ofString "qwen2_vl" && arch ≠ [] &&
    !decide (ofString "qwen" <:+: arch)

/-- `loadHParams`. -/
def loadHParams (gguf : GGUFLoader) (m : HydroXLModel α) : Bool × HydroXLModel α :=
  let arch := gguf.kvString (ofString "general.architecture") []
  if unsupportedArch arch then
    (false, { m with lastError := ofString "Unsupported architecture '" ++ arch ++
                       ofString "' (expected qwen2)" })
  else
    let hparams := readHParams ops gguf m.hparams
    if !hparams.isValid then
      (false, { m with
        hparams
        lastError := ofString "Invalid hyperparameters (zero embedding/heads/layers)" })
    else
      (true, { m with hparams := { hparams with nHeadDim := hparams.nEmbd / hparams.nHeads } })

/-! ## Tensors -/

/-- `Tensor '<name>'<text>`. -/
def tensorError (name : Bytes) (text : Bytes) : Bytes :=
  ofString "Tensor '" ++ name ++ ofString "'" ++ text

/-- The loop over the dimensions, which are multiplied with checks. -/
def countElems (name : Bytes) : List UInt64 → (nElems : UInt64) → Except Bytes UInt64
  | [], nElems => .ok nElems
  | d :: shape, nElems =>
    if d = 0 then .error (tensorError name (ofString " has 0 dimension"))
    else if nElems > -1 / d then
      .error (tensorError name (ofString " element count overflow"))
    else countElems name shape (nElems * d)

/-- The block format of a tensor type that has one which is decoded. -/
def blockFormat (type : GGMLType) : Option (BlockFormat α) :=
  if type = GGMLType.q4_k then some (.q4k ops)
  else if type = GGMLType.q3_k then some (.q3k ops)
  else if type = GGMLType.q8_0 then some (.q8_0 ops)
  else if type = GGMLType.q5_0 then some (.q5_0 ops)
  else if type = GGMLType.q5_1 then some (.q5_1 ops)
  else if type = GGMLType.q6_k then some (.q6k ops)
  else none

/-- `toString` of a tensor type. -/
def typeName (type : GGMLType) : String :=
  (["F32", "F16", "Q4_0", "Q4_1", "Other", "Other", "Q5_0", "Q5_1", "Q8_0", "Q8_1", "Q2_K", "Q3_K",
    "Q4_K", "Q5_K", "Q6_K", "Q8_K"][type.toNat]?).getD "Other"

/-- `min_bytes`. -/
def minBytes (type : GGMLType) (nElems : UInt64) : UInt64 :=
  if type = GGMLType.f32 then nElems * 4
  else if type = GGMLType.f16 then nElems * 2
  else
    match blockFormat ops type with
    | some f => nElems / f.blockSize * f.rawBlockBytes
    | none => 0

/-- What `loadTensor` checks of a descriptor before it touches its output: the number of
elements. -/
def checkDesc (name : Bytes) (expected : UInt64) (desc : GGUFTensorDesc) : Except Bytes UInt64 := do
  if desc.shape = [] then .error (tensorError name (ofString " has empty shape"))
  let nElems ← countElems name desc.shape 1
  if expected > 0 ∧ nElems ≠ expected then
    .error (tensorError name (ofString " has " ++ ofDecimal nElems.toNat ++
      ofString " elements, expected " ++ ofDecimal expected.toNat))
  let min := minBytes ops desc.type nElems
  if min > 0 ∧ desc.nBytes < min then
    .error (tensorError name (ofString " disk size " ++ ofDecimal desc.nBytes.toNat ++
      ofString " < minimum expected " ++ ofDecimal min.toNat))
  return nElems

/-- `resize`: the first elements stay, new ones are `fill`. -/
def resize {β : Type} (fill : β) (v : List β) (n : ℕ) : List β :=
  v.take n ++ List.replicate (n - v.length) fill

/-- The most elements that a `std::vector<float>` can have. -/
def maxElems : UInt64 := 2 ^ 61 - 1

/-- The last switch of `loadTensor`: the output after decoding the bytes that were read. -/
def decodeTensor (threads : Threads) (name : Bytes) (type : GGMLType) (nElems : UInt64)
    (raw : Bytes) (out : List α) : Except Bytes (List α) :=
  if type = GGMLType.f32 then
    .ok (Buffer.blit out 0 ((GGUFLoader.words raw nElems.toNat).map ops.ofBits))
  else if type = GGMLType.f16 then .ok (dequantF16 ops threads raw out nElems)
  else
    match blockFormat ops type with
    | some f =>
      if nElems % f.blockSize ≠ 0 then
        .error (tensorError name
          ((if type = GGMLType.q4_k then ofString " n_elems=" ++ ofDecimal nElems.toNat
            else ofString " n_elems") ++
            ofString " not divisible by " ++ ofDecimal f.blockSize.toNat))
      else
        match parallelDequant threads f raw out nElems with
        | (true, out) => .ok out
        | (false, _) =>
          .error ((if type = GGMLType.q4_k then ofString "Dequant"
            else ofString (typeName type) ++ ofString " dequant") ++
              ofString " failed for tensor '" ++ name ++ ofString "'")
    | none =>
      .error (tensorError name (ofString " has unsupported type " ++ ofString (typeName type)))

variable (threads : Threads)

/-- `last_error_ = msg; return false;` -/
def fail (s : Loading α) (msg : Bytes) : LoadStatus × Loading α :=
  (.failed, { s with model.lastError := msg })

/-- `loadTensor` into a tensor of the model, with the name and the size that it is called with. -/
def loadTensor (slot : Slot) (s : Loading α) : LoadStatus × Loading α :=
  let name := slot.name
  match s.gguf.findTensor name with
  | none => (.failed, s)
  | some desc =>
    match checkDesc ops name (slot.expected s.model.hparams) desc with
    | .error msg => fail s msg
    | .ok nElems =>
      if nElems > maxElems then (.thrown, s)
      else
        let out := resize ops.zero (s.model.tensor slot) nElems.toNat
        let rawBuf := if s.model.rawBuf.length < desc.nBytes.toNat
          then resize 0 s.model.rawBuf desc.nBytes.toNat else s.model.rawBuf
        let (read, rawBuf, gguf) := s.gguf.readTensorData desc rawBuf desc.nBytes
        let s : Loading α := { gguf, model := { s.model.setTensor out slot with rawBuf } }
        if !read then fail s (ofString "IO error reading tensor '" ++ name ++ ofString "'")
        else
          match decodeTensor ops threads name desc.type nElems rawBuf out with
          | .error msg => fail s msg
          | .ok out =>
            (.loaded, { s with model := { s.model.setTensor out slot with
              memoryBytes := s.model.memoryBytes + nElems * 4 } })

/-! ## The whole model -/

/-- What is done behind a step that was not to fail. -/
def andThen (r : LoadStatus × Loading α) (next : Loading α → LoadStatus × Loading α) :
    LoadStatus × Loading α :=
  match r with
  | (.loaded, s) => next s
  | r => r

/-- A load whose result is not looked at. -/
def attempt (slot : Slot) (s : Loading α) : LoadStatus × Loading α :=
  match loadTensor ops threads slot s with
  | (.failed, s) => (.loaded, s)
  | r => r

/-- The LM head, which is shared with the embedding when it cannot be loaded. -/
def loadLmHead (s : Loading α) : LoadStatus × Loading α :=
  match loadTensor ops threads .lmHead s with
  | (.failed, s) => (.loaded, { s with model := { s.model with lmHeadTied := true, lmHead := [] } })
  | (.loaded, s) => (.loaded, { s with model.lmHeadTied := false })
  | r => r

/-- Some tensors of the layer `l`. -/
def loadLayerTensors (l : ℕ) : List LayerTensor → Loading α → LoadStatus × Loading α
  | [], s => (.loaded, s)
  | t :: ts, s =>
    andThen
      (if t.isBias then attempt ops threads (.layer l t) s
        else loadTensor ops threads (.layer l t) s)
      (loadLayerTensors l ts)

/-- One round of the loop over the layers. -/
def loadLayer (l : ℕ) (s : Loading α) : LoadStatus × Loading α :=
  andThen (loadLayerTensors ops threads l LayerTensor.all s) fun s =>
    if (s.model.layers.getD l {}).isComplete then (.loaded, s)
    else fail s (ofString "Layer " ++ ofDecimal l ++ ofString " is incomplete after loading")

/-- The loop over the layers, with `left` layers left from the layer `l` on. -/
def loadLayers : (left l : ℕ) → Loading α → LoadStatus × Loading α
  | 0, _, s => (.loaded, s)
  | left + 1, l, s => andThen (loadLayer ops threads l s) (loadLayers left (l + 1))

/-- The tensors, with the hyper-parameters known. -/
def loadTensors (s : Loading α) : LoadStatus × Loading α :=
  andThen (loadTensor ops threads .tokEmbd s) fun s =>
    andThen (loadTensor ops threads .outputNorm s) fun s =>
      andThen (loadLmHead ops threads s) fun s =>
        let nLayers := s.model.hparams.nLayers.toNat
        loadLayers ops threads nLayers 0
          { s with model.layers := resize {} s.model.layers nLayers }

/-- `load`. -/
def load (path : Bytes) (entry : DirEntry) (m : HydroXLModel α) : LoadStatus × HydroXLModel α :=
  let m := { m with path, loaded := false, memoryBytes := 0 }
  let opened :=
    match entry with
    | .missing => none
    | .unreadable => some (GGUFLoader.open {} path none)
    | .file content => some (GGUFLoader.open {} path (some content))
  match opened with
  | none => (.failed, { m with lastError := ofString "Model file not found: " ++ path })
  | some (false, gguf) =>
    (.failed, { m with lastError := ofString "Failed to open GGUF: " ++ gguf.lastError })
  | some (true, gguf) =>
    match loadHParams ops gguf m with
    | (false, m) => (.failed, m)
    | (true, m) =>
      match loadTensors ops threads { gguf, model := m } with
      | (.loaded, s) => (.loaded, { s.model with rawBuf := [], loaded := true })
      | (status, s) => (status, s.model)

/-- `lmHead()`. -/
def lmHeadWeights (m : HydroXLModel α) : List α := if m.lmHeadTied then m.tokEmbd else m.lmHead

end HydroXLModel

end HeteroAccel
