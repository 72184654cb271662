import HeteroAccel.HydroXL.TensorOps
import HeteroAccel.HydroXL.Tokenizer

/-!
# The sampler

`HydroXLSampler`: repetition penalty, greedy choice, temperature, top-k, top-p and a linear
congruential generator. The scratch buffers are filled by every call before it reads them, so they
are not part of the state; the state is the generator's.

## Main definitions

* `HydroXLSampler.sample`: the next token and the sampler after it;
* `greedyToken`: the token with the largest penalised score;
* `sample_of_greedy`: without a temperature, the former is the latter and the sampler stays.
-/

namespace HeteroAccel

/-- The parameters of a sampler. -/
structure SamplerParams (α : Type) where
  temperature : α
  topK : Int32
  topP : α
  repeatPenalty : α
  seed : UInt32

/-- The parameters that a `SamplerParams` starts with. -/
def SamplerParams.standard {α δ : Type} (ops : TensorOps α δ) : SamplerParams α where
  temperature := ops.one
  topK := 40
  topP := ops.lit (95 / 100)
  repeatPenalty := ops.lit (11 / 10)
  seed := 42

/-- A sampler: its parameters, and the state of its random numbers. -/
structure HydroXLSampler (α : Type) where
  params : SamplerParams α
  rngState : UInt64

namespace HydroXLSampler

variable {α δ : Type} (ops : TensorOps α δ)

/-- The constructor. -/
def new (params : SamplerParams α) : HydroXLSampler α :=
  { params, rngState := params.seed.toUInt64 }

/-- `nextRandom`. -/
def nextRandom (s : HydroXLSampler α) : α × HydroXLSampler α :=
  let rngState := s.rngState * 6364136223846793005 + 1442695040888963407
  let bits := (rngState >>> 33).toUInt32
  (ops.div (ops.ofUInt32 bits) (ops.ofUInt32 (-1)), { s with rngState })

/-- The penalty for one past token. -/
def penalizeToken (penalty : α) (scores : List α) (t : TokenID) : List α :=
  if 0 ≤ t then
    scores.modify t.toNatClampNeg fun s =>
      if ops.lt ops.zero s then ops.div s penalty else ops.mul s penalty
  else scores

/-- The repetition penalty: a token that occurs twice is penalised twice. -/
def penalize (penalty : α) (pastTokens : List TokenID) (scores : List α) : List α :=
  if !ops.eq penalty ops.one && !pastTokens.isEmpty then
    pastTokens.foldl (penalizeToken ops penalty) scores
  else scores

/-- The index of the largest score. -/
def argmax : List α → TokenID
  | [] => 0
  | x₀ :: xs => .ofNat (ops.maxElement x₀ xs).2

/-- Temperature scaling and softmax. -/
def probabilities (temperature : α) (scores : List α) : List α :=
  let invTemp := ops.div ops.one temperature
  match scores.map (ops.mul · invTemp) with
  | [] => []
  | x₀ :: xs =>
    let maxS := (ops.maxElement x₀ xs).1
    let exps := (x₀ :: xs).map fun s => ops.exp (ops.sub s maxS)
    let sum := ops.sum exps
    exps.map (ops.div · sum)

/-- How many candidates top-k keeps. The size of the vocabulary is narrowed to an `int`, which is
negative from 2^31 tokens on. -/
def topKCount (topK : Int32) (vocabSize : UInt32) : Int32 :=
  if 0 < topK ∧ topK < vocabSize.toInt32 then topK else vocabSize.toInt32

/-- The `k` most probable indices, in descending order. Where `k` is negative, `begin() + k` is
before the first index and the source has no defined behaviour; no candidate is kept here. -/
def partialSort (k : Int32) (scores : List α) : List (α × UInt32) :=
  let indices := scores.zipIdx.map fun e => (e.1, UInt32.ofNat e.2)
  ((ops.ties.visit indices).mergeSort fun a b => !ops.lt a.1 b.1).take k.toNatClampNeg

/-- The candidates up to the first at which the sum reaches `topP`. -/
def nucleus (topP : α) : (cumsum : α) → List (α × UInt32) → List (α × UInt32)
  | _, [] => []
  | cumsum, e :: candidates =>
    let cumsum := ops.add cumsum e.1
    e :: if ops.le topP cumsum then [] else nucleus topP cumsum candidates

/-- The first candidate at which the sum reaches `r`. -/
def pick (r : α) : (running : α) → List (α × UInt32) → Option UInt32
  | _, [] => none
  | running, e :: candidates =>
    let running := ops.add running e.1
    if ops.le r running then some e.2 else pick r running candidates

/-- `sample`. The logits are as many as the vocabulary is said to have. -/
def sample (s : HydroXLSampler α) (logits : List α) (vocabSize : UInt32)
    (pastTokens : List TokenID) : TokenID × HydroXLSampler α :=
  if vocabSize = 0 then (tokenInvalid, s)
  else
    let scores := penalize ops s.params.repeatPenalty pastTokens (logits.take vocabSize.toNat)
    if ops.le s.params.temperature ops.zero then (argmax ops scores, s)
    else
      let probs := probabilities ops s.params.temperature scores
      let indices := partialSort ops (topKCount s.params.topK vocabSize) probs
      let indices :=
        if ops.lt s.params.topP ops.one then nucleus ops s.params.topP ops.zero indices
        else indices
      let subSum := ops.sum (indices.map (·.1))
      let (random, s) := s.nextRandom ops
      match pick ops (ops.mul random subSum) ops.zero indices, indices with
      | some idx, _ => (idx.toInt32, s)
      | none, e :: _ => (e.2.toInt32, s)
      | none, [] => (tokenInvalid, s)

/-- The token that is chosen without a temperature. -/
def greedyToken (penalty : α) (pastTokens : List TokenID) (logits : List α) : TokenID :=
  if UInt32.ofNat logits.length = 0 then tokenInvalid
  else argmax ops (penalize ops penalty pastTokens
    (logits.take (UInt32.ofNat logits.length).toNat))

variable {ops}

/-- Without a temperature no random number is drawn. -/
theorem sample_of_greedy {s : HydroXLSampler α} (h : ops.le s.params.temperature ops.zero)
    (logits : List α) (pastTokens : List TokenID) :
    s.sample ops logits (.ofNat logits.length) pastTokens =
      (greedyToken ops s.params.repeatPenalty pastTokens logits, s) := by
  unfold sample greedyToken
  by_cases hsize : UInt32.ofNat logits.length = 0
  · simp [hsize]
  · simp [hsize, h]

@[simp]
theorem greedyToken_nil (penalty : α) (pastTokens : List TokenID) :
    greedyToken ops penalty pastTokens [] = tokenInvalid :=
  rfl

end HydroXLSampler
end HeteroAccel
