import HeteroAccel.HydroXL.Ops
import HeteroAccel.HydroXL.TensorOps
import HeteroAccel.Lib.BufferLoop

/-!
# The transformer operators

The operators of `HydroXLOps.cpp` on the buffers that they write: each is handed the old content of
its output and returns what it reports and the new content. A null pointer is an empty list, the
content of a vector that has none. A read or write outside a buffer, or a loop that does not end, is
undefined behaviour, the result `none`.

## Main definitions

* `rmsNorm`, `matvec`, `embedLookup`, `ropeApply`, `swiglu`, `residualAdd`;
* `causalAttentionInto`: `causal_attention` with its output and its buffer for the scores.

## Main results

* `rmsNorm_congr`, `matvec_congr`, `swiglu_congr`: an output that is filled does not depend on what
  it held;
* `causalAttentionInto_eq`: the buffers of `causal_attention` hold what `causalAttention` says.
-/

namespace HeteroAccel

variable {α δ : Type} (ops : TensorOps α δ)

/-! ## Norms and projections -/

/-- The loop over the squares in `rms_norm`. -/
def sumOfSquares (x : List α) (n : ℕ) : Option δ :=
  (List.range n).foldlM (fun sum i => do
    let v ← x[i]?
    some (ops.mulAdd sum v v)) ops.zeroDouble

/-- The element number `i` that `rms_norm` writes. -/
def normElement (x weight : List α) (rmsInv : α) (i : ℕ) : Option α := do
  some (ops.mul (ops.mul (← x[i]?) rmsInv) (← weight[i]?))

/-- `rms_norm`. -/
def rmsNorm (x weight out : List α) (n : UInt32) (eps : α) : Option (Bool × List α) :=
  if x = [] ∨ weight = [] ∨ out = [] ∨ n = 0 then some (false, out)
  else do
    let sumSq ← sumOfSquares ops x n.toNat
    let mean := ops.toFloat (ops.divCount sumSq n)
    let rmsInv := ops.div ops.one (ops.sqrt (ops.add mean eps))
    let out ← Buffer.update 0 n.toNat (fun i _ => normElement ops x weight rmsInv i) out
    some (true, out)

/-- The four accumulators of `matvec`. -/
structure Accumulators (α : Type) where
  acc0 : α
  acc1 : α
  acc2 : α
  acc3 : α

/-- The product of the element number `k` of a row and of `x`. -/
def rowProduct (row : ℕ → Option α) (x : List α) (k : ℕ) : Option α := do
  some (ops.mul (← row k) (← x[k]?))

/-- The product of a row and `x`: four elements at a time, and the rest one by one. From 2^32 - 4
columns on the number `k + 4` wraps, and the loop goes on beyond the row without an end. -/
def matvecRow (row : ℕ → Option α) (x : List α) (kCols : UInt32) : Option α :=
  if kCols.toNat ≥ 2 ^ 32 - 4 then none
  else do
    let a ← (List.range (kCols.toNat / 4)).foldlM (fun (a : Accumulators α) i => do
      let k := 4 * i
      some
        { acc0 := ops.add a.acc0 (← rowProduct ops row x (k + 0))
          acc1 := ops.add a.acc1 (← rowProduct ops row x (k + 1))
          acc2 := ops.add a.acc2 (← rowProduct ops row x (k + 2))
          acc3 := ops.add a.acc3 (← rowProduct ops row x (k + 3)) })
      { acc0 := ops.zero, acc1 := ops.zero, acc2 := ops.zero, acc3 := ops.zero }
    let acc := ops.add (ops.add a.acc0 a.acc1) (ops.add a.acc2 a.acc3)
    (List.range' (4 * (kCols.toNat / 4)) (kCols.toNat % 4)).foldlM
      (fun acc k => do some (ops.add acc (← rowProduct ops row x k))) acc

/-- `matvec`. -/
def matvec (a x out : List α) (mRows kCols : UInt32) : Option (Bool × List α) :=
  if a = [] ∨ x = [] ∨ out = [] ∨ mRows = 0 ∨ kCols = 0 then some (false, out)
  else do
    let out ← Buffer.update 0 mRows.toNat
      (fun m _ => matvecRow ops (fun k => a[m * kCols.toNat + k]?) x kCols) out
    some (true, out)

/-! ## Embedding and rotary encoding -/

/-- `embed_lookup`. -/
def embedLookup (table : List α) (tokenId vocabSize nEmbd : UInt32) (dst : List α) :
    Option (Bool × List α) :=
  if table = [] ∨ dst = [] ∨ nEmbd = 0 then some (false, dst)
  else if tokenId ≥ vocabSize then some (false, dst)
  else do
    let src := table.drop (tokenId.toNat * nEmbd.toNat)
    let dst ← Buffer.memcpy dst 0 src nEmbd.toNat
    some (true, dst)

/-- The angle of the pair number `i` of a head. -/
def ropeAngle (headDim pos : UInt32) (freqBase freqScale : α) (i : ℕ) : α :=
  let exponent := ops.div (ops.ofUInt32 (2 * .ofNat i)) (ops.ofUInt32 headDim)
  let theta := ops.div freqScale (ops.pow freqBase exponent)
  ops.mul (ops.ofUInt32 pos) theta

/-- The rotation of the elements `i` and `j`. -/
def rotate (angle : α) (x : List α) (i j : ℕ) : Option (List α) := do
  let cosA := ops.cos angle
  let sinA := ops.sin angle
  let x0 ← x[i]?
  let x1 ← x[j]?
  some ((x.set i (ops.sub (ops.mul x0 cosA) (ops.mul x1 sinA))).set j
    (ops.add (ops.mul x0 sinA) (ops.mul x1 cosA)))

/-- The loops over the heads of a query or a key, and over the pairs of a head. -/
def ropeHeads (n headDim pos : UInt32) (freqBase freqScale : α) (x : List α) : Option (List α) :=
  let half := headDim.toNat / 2
  (List.range n.toNat).foldlM (fun x h =>
    (List.range half).foldlM (fun x i =>
      rotate ops (ropeAngle ops headDim pos freqBase freqScale i) x (h * headDim.toNat + i)
        (h * headDim.toNat + (i + half))) x) x

/-- `rope_apply`. -/
def ropeApply (q : List α) (nHeads : UInt32) (k : List α) (nKvHeads headDim pos : UInt32)
    (freqBase freqScale : α) : Option (Bool × List α × List α) :=
  if q = [] ∨ k = [] ∨ headDim = 0 ∨ headDim % 2 ≠ 0 then some (false, q, k)
  else if nHeads = 0 ∨ nKvHeads = 0 then some (false, q, k)
  else do
    let q ← ropeHeads ops nHeads headDim pos freqBase freqScale q
    let k ← ropeHeads ops nKvHeads headDim pos freqBase freqScale k
    some (true, q, k)

/-! ## Elementwise operators -/

/-- The element number `i` that `swiglu` writes. -/
def swigluElement (gate up : List α) (i : ℕ) : Option α := do
  let g ← gate[i]?
  let activated := ops.div g (ops.add ops.one (ops.exp (ops.neg g)))
  some (ops.mul activated (← up[i]?))

/-- `swiglu`. -/
def swiglu (gate up out : List α) (n : UInt32) : Option (List α) :=
  Buffer.update 0 n.toNat (fun i _ => swigluElement ops gate up i) out

/-- `residual_add`. -/
def residualAdd (a b : List α) (n : UInt32) : Option (List α) :=
  Buffer.update 0 n.toNat (fun i ai => do some (ops.add ai (← b[i]?))) a

/-! ## Attention -/

namespace TensorOps

/-- The operations of the attention loop. -/
def floatOps : FloatOps α δ where
  zero := ops.zero
  zeroDouble := ops.zeroDouble
  mulAdd := ops.mulAdd
  toFloat := ops.toFloat
  mul := ops.mul
  add := ops.add
  softmax := ops.softmaxInplace

end TensorOps

/-- The score of the cached position `t`. -/
def attentionScore (q : ℕ → Option α) (key : ℕ → ℕ → Option α) (headDim : ℕ) (scale : α) (t : ℕ) :
    Option α := do
  let dot ← (List.range headDim).foldlM
    (fun dot d => do some (ops.mulAdd dot (← q d) (← key t d))) ops.zeroDouble
  some (ops.mul (ops.toFloat dot) scale)

/-- The round of `causal_attention` for a query head, whose output begins at `offset`: the output
and the scores. -/
def attendHeadInto (q : ℕ → Option α) (key value : ℕ → ℕ → Option α) (seqLen headDim : ℕ)
    (scale : α) (offset : ℕ) (out scores : List α) : Option (List α × List α) := do
  let scores ← Buffer.update 0 seqLen (fun t _ => attentionScore ops q key headDim scale t) scores
  let scores := Buffer.blit scores 0 (ops.softmaxInplace (scores.take seqLen))
  let out ← Buffer.update offset headDim (fun _ _ => some ops.zero) out
  let out ← (List.range seqLen).foldlM
    (fun out t => do
      let s ← scores[t]?
      Buffer.update offset headDim (fun d o => do some (ops.add o (ops.mul s (← value t d)))) out)
    out
  some (out, scores)

/-- `causal_attention`: what it reports, the output and the buffer for the scores. A null pointer in
the place of a layer of the cache is `none`. -/
def causalAttentionInto (q : List α) (kCache vCache : Option (List α)) (out : List α)
    (seqLen nHeads nKvHeads headDim maxSeqLen : UInt32) (scale : α) (scratchScores : List α) :
    Option (Bool × List α × List α) :=
  match kCache, vCache with
  | some kCache, some vCache =>
    if q = [] ∨ out = [] then some (false, out, scratchScores)
    else if seqLen = 0 || nHeads = 0 || nKvHeads = 0 || headDim = 0 then
      some (false, out, scratchScores)
    else if nHeads % nKvHeads ≠ 0 then some (false, out, scratchScores)
    else if seqLen > maxSeqLen then some (false, out, scratchScores)
    else do
      let localScores := scratchScores = []
      let scores := if localScores then List.replicate seqLen.toNat ops.zero else scratchScores
      let (out, scores) ← (List.range nHeads.toNat).foldlM
        (fun (r : List α × List α) h =>
          attendHeadInto ops (fun d => q[h * headDim.toNat + d]?)
            (fun t d => kCache[kvIndex nHeads nKvHeads headDim maxSeqLen (.ofNat h) (.ofNat t)
              (.ofNat d)]?)
            (fun t d => vCache[kvIndex nHeads nKvHeads headDim maxSeqLen (.ofNat h) (.ofNat t)
              (.ofNat d)]?)
            seqLen.toNat headDim.toNat scale (h * headDim.toNat) r.1 r.2)
        (out, scores)
      some (true, out, if localScores then [] else scores)
  | _, _ => some (false, out, scratchScores)

/-! ## Sizes -/

section Sizes

variable {ops} {x weight a out out' q q' k k' : List α} {n mRows kCols : UInt32}
    {eps : α} {ok : Bool}

/-- The normalization keeps the length of its output. -/
theorem length_rmsNorm (h : rmsNorm ops x weight out n eps = some (ok, out')) :
    out'.length = out.length := by
  unfold rmsNorm at h
  split at h
  · cases h
    rfl
  · simp only [Option.bind_eq_bind, Option.bind_eq_some_iff] at h
    obtain ⟨sumSq, -, out', hupdate, h⟩ := h
    cases h
    exact Buffer.length_of_update hupdate

/-- The product with a matrix keeps the length of its output. -/
theorem length_matvec (h : matvec ops a x out mRows kCols = some (ok, out')) :
    out'.length = out.length := by
  unfold matvec at h
  split at h
  · cases h
    rfl
  · simp only [Option.bind_eq_bind, Option.bind_eq_some_iff] at h
    obtain ⟨out', hupdate, h⟩ := h
    cases h
    exact Buffer.length_of_update hupdate

/-- The embedding keeps the length of its output. -/
theorem length_embedLookup {table dst dst' : List α} {tokenId vocabSize : UInt32}
    (h : embedLookup table tokenId vocabSize n dst = some (ok, dst')) :
    dst'.length = dst.length := by
  unfold embedLookup at h
  split_ifs at h
  · cases h
    rfl
  · cases h
    rfl
  · obtain ⟨dst', hcopy, h⟩ := Option.bind_eq_some_iff.mp h
    cases h
    exact Buffer.length_memcpy hcopy

theorem length_rotate {angle : α} {i j : ℕ} (h : rotate ops angle x i j = some out) :
    out.length = x.length := by
  unfold rotate at h
  simp only [Option.bind_eq_bind, Option.bind_eq_some_iff] at h
  obtain ⟨x0, -, x1, -, h⟩ := h
  cases h
  simp

/-- The rotation of all heads keeps the length. -/
theorem length_ropeHeads {headDim pos : UInt32} {freqBase freqScale : α}
    (h : ropeHeads ops n headDim pos freqBase freqScale x = some out) : out.length = x.length := by
  refine Buffer.foldlM_induction (P := fun out : List α => out.length = x.length)
    (fun head _ y y' hy hhead => ?_) rfl h
  -- the pairs of one head
  exact Buffer.foldlM_induction (P := fun out : List α => out.length = x.length)
    (fun i _ z z' hz hpair => (length_rotate hpair).trans hz) hy hhead

/-- `rope_apply` keeps the lengths of queries and keys. -/
theorem length_ropeApply {nHeads nKvHeads headDim pos : UInt32} {freqBase freqScale : α}
    (h : ropeApply ops q nHeads k nKvHeads headDim pos freqBase freqScale = some (ok, q', k')) :
    q'.length = q.length ∧ k'.length = k.length := by
  unfold ropeApply at h
  split_ifs at h
  · cases h
    exact ⟨rfl, rfl⟩
  · cases h
    exact ⟨rfl, rfl⟩
  · simp only [Option.bind_eq_bind, Option.bind_eq_some_iff] at h
    obtain ⟨q', hq, k', hk, h⟩ := h
    cases h
    exact ⟨length_ropeHeads hq, length_ropeHeads hk⟩

end Sizes

/-! ## Outputs that are filled -/

section Filled

variable {ops} {x weight a out out' gate up b : List α} {n mRows kCols : UInt32} {eps : α}

/-- An empty output is the same as another empty one, and another is not null. -/
theorem eq_or_ne_nil_of_length (h : out.length = n.toNat) (h' : out'.length = n.toNat) :
    (n = 0 ∧ out = [] ∧ out' = []) ∨ (n ≠ 0 ∧ out ≠ [] ∧ out' ≠ []) := by
  by_cases hn : n = 0
  · subst hn
    exact .inl ⟨rfl, List.eq_nil_of_length_eq_zero h, List.eq_nil_of_length_eq_zero h'⟩
  · have hpos : 0 < n.toNat := Nat.pos_of_ne_zero fun hzero => hn (UInt32.toNat_inj.mp hzero)
    exact .inr ⟨hn, List.ne_nil_of_length_pos (h ▸ hpos), List.ne_nil_of_length_pos (h' ▸ hpos)⟩

/-- `rms_norm` fills its output. -/
theorem rmsNorm_congr (hx : x ≠ []) (hweight : weight ≠ []) (h : out.length = n.toNat)
    (h' : out'.length = n.toNat) :
    rmsNorm ops x weight out n eps = rmsNorm ops x weight out' n eps := by
  obtain ⟨-, rfl, rfl⟩ | ⟨hn, hout, hout'⟩ := eq_or_ne_nil_of_length h h'
  · rfl
  · rw [rmsNorm, rmsNorm, if_neg (by simp [*]), if_neg (by simp [*])]
    simp only [Buffer.update_eq_mapM _ h, Buffer.update_eq_mapM _ h']

/-- `matvec` fills its output. -/
theorem matvec_congr (ha : a ≠ []) (hx : x ≠ []) (hcols : kCols ≠ 0) (h : out.length = mRows.toNat)
    (h' : out'.length = mRows.toNat) :
    matvec ops a x out mRows kCols = matvec ops a x out' mRows kCols := by
  obtain ⟨-, rfl, rfl⟩ | ⟨hn, hout, hout'⟩ := eq_or_ne_nil_of_length h h'
  · rfl
  · rw [matvec, matvec, if_neg (by simp [*]), if_neg (by simp [*])]
    simp only [Buffer.update_eq_mapM _ h, Buffer.update_eq_mapM _ h']

/-- `swiglu` fills its output. -/
theorem swiglu_congr (h : out.length = n.toNat) (h' : out'.length = n.toNat) :
    swiglu ops gate up out n = swiglu ops gate up out' n := by
  rw [swiglu, swiglu, Buffer.update_eq_mapM _ h, Buffer.update_eq_mapM _ h']

/-- A copy over a whole buffer. -/
theorem memcpy_congr {dst dst' : List α} {src : List α} {k : ℕ} (h : dst.length = k)
    (h' : dst'.length = k) : Buffer.memcpy dst 0 src k = Buffer.memcpy dst' 0 src k := by
  unfold Buffer.memcpy
  by_cases hsrc : k ≤ src.length
  · have hlength : (src.take k).length = k := List.length_take_of_le hsrc
    rw [if_pos ⟨hsrc, by omega⟩, if_pos ⟨hsrc, by omega⟩,
      Buffer.blit_zero_of_length_eq (hlength.trans h.symm),
      Buffer.blit_zero_of_length_eq (hlength.trans h'.symm)]
  · rw [if_neg fun hfits => hsrc hfits.1, if_neg fun hfits => hsrc hfits.1]

/-- A token outside of the vocabulary has no embedding. -/
theorem embedLookup_of_ge {table dst : List α} {tokenId vocabSize : UInt32}
    (h : tokenId ≥ vocabSize) :
    embedLookup table tokenId vocabSize n dst = some (false, dst) := by
  rw [embedLookup, if_pos h, ite_self]

/-- `embed_lookup` of a token that it does not reject fills its output. -/
theorem embedLookup_congr {table dst dst' : List α} {tokenId vocabSize : UInt32}
    (htable : table ≠ []) (hlt : ¬tokenId ≥ vocabSize) (h : dst.length = n.toNat)
    (h' : dst'.length = n.toNat) :
    embedLookup table tokenId vocabSize n dst = embedLookup table tokenId vocabSize n dst' := by
  obtain ⟨-, rfl, rfl⟩ | ⟨hn, hdst, hdst'⟩ := eq_or_ne_nil_of_length h h'
  · rfl
  · rw [embedLookup, embedLookup, if_neg (by simp [*]), if_neg hlt,
      if_neg (by simp [*]), if_neg hlt]
    simp only [memcpy_congr h h']

end Filled

/-! ## The buffers of attention -/

section Attention

variable {ops} {q : ℕ → Option α} {key value : ℕ → ℕ → Option α} {seqLen headDim offset : ℕ}
  {scale : α} {out scores vs : List α}

/-- The attention of a head has the head's dimension. -/
theorem length_attendHead
    (h : attendHead ops.floatOps q key value seqLen headDim scale = some vs) :
    vs.length = headDim := by
  unfold attendHead at h
  simp only [Option.bind_eq_bind, Option.bind_eq_some_iff] at h
  obtain ⟨scores, -, h⟩ := h
  refine Buffer.foldlM_induction (P := fun out : List α => out.length = headDim)
    (fun t _ out out' _ hround => Buffer.length_of_mapM hround) List.length_replicate h

variable (ops value) in
/-- The loop over the positions works on a slice of the output as on a list of its own. -/
theorem accumulate_eq {weights : List α} (hweights : weights.length = seqLen)
    (hscores : ∀ t < seqLen, scores[t]? = weights[t]?) (hout : offset + headDim ≤ out.length)
    {acc : List α} (hacc : acc.length = headDim) :
    (List.range seqLen).foldlM
        (fun out t => do
          let s ← scores[t]?
          Buffer.update offset headDim
            (fun d o => do some (ops.add o (ops.mul s (← value t d)))) out)
        (Buffer.blit out offset acc) =
      ((List.range seqLen).foldlM
        (fun acc t => (List.range headDim).mapM fun d => do
          some (ops.add (← acc[d]?) (ops.mul (← weights[t]?) (← value t d))))
        acc).map (Buffer.blit out offset) := by
  refine Buffer.foldlM_eq_map (P := fun acc : List α => acc.length = headDim)
    (fun t ht acc hacc => ?_) (fun t _ acc acc' _ hround => Buffer.length_of_mapM hround) hacc
  rw [List.mem_range] at ht
  have hfit : offset + acc.length ≤ out.length := by omega
  obtain ⟨s, hs⟩ : ∃ s, weights[t]? = some s := ⟨_, List.getElem?_eq_getElem (by omega)⟩
  simp only [hscores t ht, hs, Option.bind_eq_bind, Option.bind_some]
  rw [Buffer.update_eq (by rw [Buffer.length_blit hfit]; exact hout)]
  -- the slice is read where the list has its elements
  have hvalues : Buffer.values offset headDim
        (fun d o => (value t d).bind fun v => some (ops.add o (ops.mul s v)))
        (Buffer.blit out offset acc) =
      (List.range headDim).mapM fun d =>
        acc[d]?.bind fun o => (value t d).bind fun v => some (ops.add o (ops.mul s v)) := by
    refine mapM_congr_of_mem fun d hd => ?_
    rw [List.mem_range] at hd
    rw [Buffer.getElem?_blit_of_mem hfit (by omega) (by omega), Nat.add_sub_cancel_left]
    rfl
  rw [hvalues]
  cases hvs : (List.range headDim).mapM fun d =>
      acc[d]?.bind fun o => (value t d).bind fun v => some (ops.add o (ops.mul s v)) with
  | none => rfl
  | some vs =>
    rw [Option.map_some, Option.map_some,
      Buffer.blit_blit hfit ((Buffer.length_of_mapM hvs).trans hacc.symm)]

variable (ops q key value scale) in
/-- The buffers after the round for a head. What the buffer for the scores holds does not matter. -/
theorem attendHeadInto_eq (hout : offset + headDim ≤ out.length)
    (hscores : seqLen ≤ scores.length) :
    (attendHeadInto ops q key value seqLen headDim scale offset out scores).map
        (fun r => (r.1, r.2.length)) =
      (attendHead ops.floatOps q key value seqLen headDim scale).map
        fun vs => (Buffer.blit out offset vs, scores.length) := by
  unfold attendHeadInto attendHead
  have hfill : 0 + seqLen ≤ scores.length := by omega
  -- the first loop fills the scores
  rw [Buffer.update_eq hfill, Buffer.values_eq_mapM _ hfill]
  have hbody : (fun t => attentionScore ops q key headDim scale t) = fun t => (do
      let dot ← (List.range headDim).foldlM
        (fun dot d => do some (ops.floatOps.mulAdd dot (← q d) (← key t d))) ops.floatOps.zeroDouble
      some (ops.floatOps.mul (ops.floatOps.toFloat dot) scale)) := rfl
  rw [← hbody]
  cases hvs : (List.range seqLen).mapM fun t => attentionScore ops q key headDim scale t with
  | none => rfl
  | some vs =>
    have hlength : vs.length = seqLen := Buffer.length_of_mapM hvs
    have htake : (Buffer.blit scores 0 vs).take seqLen = vs := by
      simp [Buffer.blit, ← hlength]
    have hweights : (ops.softmaxInplace vs).length = vs.length := ops.length_softmaxInplace vs
    -- the output begins with zeros
    have hzeros : Buffer.update offset headDim (fun _ _ => some ops.zero) out =
        some (Buffer.blit out offset (List.replicate headDim ops.zero)) := by
      have hmapM : (List.range headDim).mapM (fun _ => some ops.zero) =
          some (List.replicate headDim ops.zero) := by
        refine (List.mapM_pure (f := fun _ => ops.zero)).trans ?_
        rw [List.map_const', List.length_range]
        rfl
      rw [Buffer.update_eq hout, Buffer.values_eq_mapM _ hout, hmapM, Option.map_some]
    simp only [Option.map_some, Option.bind_eq_bind, Option.bind_some, htake, hzeros]
    rw [Buffer.blit_blit (by omega) hweights]
    have hread : ∀ t < seqLen,
        (Buffer.blit scores 0 (ops.softmaxInplace vs))[t]? = (ops.softmaxInplace vs)[t]? := by
      intro t ht
      exact Buffer.getElem?_blit_of_mem (by omega) (Nat.zero_le t) (by omega)
    have hlengthScores : (Buffer.blit scores 0 (ops.softmaxInplace vs)).length = scores.length :=
      Buffer.length_blit (by omega)
    -- the last loop adds the weighted values
    have hsum := accumulate_eq ops value (hweights.trans hlength) hread hout
      (List.length_replicate (n := headDim) (a := ops.zero))
    simp only [Option.bind_eq_bind] at hsum
    rw [hsum]
    simp only [TensorOps.floatOps]
    generalize List.foldlM (m := Option) _ (List.replicate headDim ops.zero)
      (List.range seqLen) = acc
    cases acc with
    | none => rfl
    | some acc => simp [hlengthScores]

theorem length_flatten_of_forall {heads : List (List α)} (h : ∀ vs ∈ heads, vs.length = headDim) :
    heads.flatten.length = heads.length * headDim := by
  rw [List.length_flatten, List.map_congr_left h, List.map_const', List.sum_replicate_nat]

/-- The outputs of the heads one behind the other. -/
theorem length_flatten_mapM {q : ℕ → ℕ → Option α} {key value : ℕ → ℕ → ℕ → Option α} {n : ℕ}
    {heads : List (List α)} (h : ((List.range n).mapM fun h =>
      attendHead ops.floatOps (q h) (key h) (value h) seqLen headDim scale) = some heads) :
    heads.flatten.length = n * headDim := by
  obtain ⟨hn, hall⟩ := Buffer.forall_of_mapM h
  rw [← hn]
  refine length_flatten_of_forall fun vs hvs => ?_
  obtain ⟨i, hi⟩ := hall vs hvs
  exact length_attendHead hi

variable (ops scale) in
/-- The loop over the heads. -/
theorem foldlM_attendHeadInto (q : ℕ → ℕ → Option α) (key value : ℕ → ℕ → ℕ → Option α) (n : ℕ)
    (hout : n * headDim ≤ out.length) (hscores : seqLen ≤ scores.length) :
    ((List.range n).foldlM
        (fun (r : List α × List α) h =>
          attendHeadInto ops (q h) (key h) (value h) seqLen headDim scale (h * headDim) r.1 r.2)
        (out, scores)).map (fun r => (r.1, r.2.length)) =
      ((List.range n).mapM fun h =>
        attendHead ops.floatOps (q h) (key h) (value h) seqLen headDim scale).map
          fun heads => (Buffer.blit out 0 heads.flatten, scores.length) := by
  induction n with
  | zero => simp [Buffer.blit]
  | succ n ih =>
    rw [Nat.succ_mul] at hout
    have ih := ih (by omega)
    rw [List.range_succ, List.foldlM_append, ← List.range_succ, Buffer.mapM_succ]
    generalize List.foldlM (m := Option) _ (out, scores) (List.range n) = r at ih ⊢
    cases hheads : (List.range n).mapM fun h =>
        attendHead ops.floatOps (q h) (key h) (value h) seqLen headDim scale with
    | none =>
      rw [hheads] at ih
      cases r with
      | none => rfl
      | some r => cases ih
    | some heads =>
      rw [hheads] at ih
      cases r with
      | none => cases ih
      | some r =>
        obtain ⟨hr₁, hr₂⟩ := Prod.ext_iff.mp (Option.some.inj ih)
        dsimp only at hr₁ hr₂
        -- the heads so far fill the output up to the next one
        have hlength := length_flatten_mapM hheads
        have hroom : n * headDim + headDim ≤ r.1.length := by
          rw [hr₁, Buffer.length_blit (by omega)]
          exact hout
        have hhead := attendHeadInto_eq ops (q n) (key n) (value n) scale hroom
          (hscores.trans_eq hr₂.symm)
        simp only [List.foldlM_cons, List.foldlM_nil, Option.bind_eq_bind, Option.bind_some,
          Option.pure_def, Option.bind_fun_some] at hhead ⊢
        rw [hhead]
        cases attendHead ops.floatOps (q n) (key n) (value n) seqLen headDim scale with
        | none => rfl
        | some vs =>
          simp only [Option.map_some, Option.bind_some, hr₁, hr₂, List.flatten_append,
            List.flatten_singleton]
          rw [← hlength, Buffer.blit_append]

variable {kCache vCache : Option (List α)} {nHeads nKvHeads maxSeqLen : UInt32}

/-- **Attention on its buffers.** What `causal_attention` reports and leaves in its output is what
`causalAttention` says, and the buffer for the scores keeps its size. -/
theorem causalAttentionInto_eq (q : List α) (seqLen headDim : UInt32)
    (hout : out.length = nHeads.toNat * headDim.toNat) (hscores : maxSeqLen.toNat ≤ scores.length) :
    (causalAttentionInto ops q kCache vCache out seqLen nHeads nKvHeads headDim maxSeqLen scale
        scores).map (fun r => (r.1, r.2.1, r.2.2.length)) =
      (causalAttention ops.floatOps (if q = [] ∨ out = [] then none else some q)
        kCache vCache seqLen
        nHeads nKvHeads headDim maxSeqLen scale).map
          fun r => r.elim (false, out, scores.length) fun heads =>
            (true, heads.flatten, scores.length) := by
  cases kCache with
  | none =>
    by_cases hnull : q = [] ∨ out = [] <;> simp [causalAttentionInto, causalAttention, hnull]
  | some kCache =>
    cases vCache with
    | none =>
      by_cases hnull : q = [] ∨ out = [] <;> simp [causalAttentionInto, causalAttention, hnull]
    | some vCache =>
      unfold causalAttentionInto causalAttention
      dsimp only
      by_cases hnull : q = [] ∨ out = []
      · rw [if_pos hnull, if_pos hnull]
        rfl
      rw [if_neg hnull, if_neg hnull]
      dsimp only
      by_cases hzero : (seqLen = 0 || nHeads = 0 || nKvHeads = 0 || headDim = 0) = true
      · rw [if_pos hzero, if_pos hzero]
        rfl
      rw [if_neg hzero, if_neg hzero]
      by_cases hmod : nHeads % nKvHeads ≠ 0
      · rw [if_pos hmod, if_pos hmod]
        rfl
      rw [if_neg hmod, if_neg hmod]
      by_cases hmax : seqLen > maxSeqLen
      · rw [if_pos hmax, if_pos hmax]
        rfl
      rw [if_neg hmax, if_neg hmax]
      -- there are scores, and room for them
      have hle : seqLen.toNat ≤ scores.length :=
        (UInt32.le_iff_toNat_le.mp (UInt32.not_lt.mp hmax)).trans hscores
      have hne : scores ≠ [] := by
        rintro rfl
        have : seqLen = 0 := UInt32.toNat_inj.mp (Nat.le_zero.mp hle)
        simp [this] at hzero
      have hfold := foldlM_attendHeadInto ops scale (fun h d => q[h * headDim.toNat + d]?)
        (fun h t d => kCache[kvIndex nHeads nKvHeads headDim maxSeqLen (.ofNat h) (.ofNat t)
          (.ofNat d)]?)
        (fun h t d => vCache[kvIndex nHeads nKvHeads headDim maxSeqLen (.ofNat h) (.ofNat t)
          (.ofNat d)]?) nHeads.toNat hout.ge hle
      simp only [hne, if_false, Option.bind_eq_bind]
      generalize List.foldlM (m := Option) _ (out, scores) (List.range nHeads.toNat) = r at hfold ⊢
      cases hheads : (List.range nHeads.toNat).mapM fun h => attendHead ops.floatOps
          (fun d => q[h * headDim.toNat + d]?)
          (fun t d => kCache[kvIndex nHeads nKvHeads headDim maxSeqLen (.ofNat h) (.ofNat t)
            (.ofNat d)]?)
          (fun t d => vCache[kvIndex nHeads nKvHeads headDim maxSeqLen (.ofNat h) (.ofNat t)
            (.ofNat d)]?) seqLen.toNat headDim.toNat scale with
      | none =>
        rw [hheads] at hfold
        cases r with
        | none => rfl
        | some r => cases hfold
      | some heads =>
        rw [hheads] at hfold
        cases r with
        | none => cases hfold
        | some r =>
          obtain ⟨hr₁, hr₂⟩ := Prod.ext_iff.mp (Option.some.inj hfold)
          dsimp only at hr₁ hr₂
          have hlength : heads.flatten.length = out.length := by
            rw [length_flatten_mapM hheads, hout]
          simp only [Option.bind_some, Option.map_some, Option.elim_some, hr₁, hr₂,
            Buffer.blit_zero_of_length_eq hlength]

/-- The outputs of all heads. -/
theorem length_flatten_causalAttention {q : Option (List α)} {seqLen headDim : UInt32}
    {heads : List (List α)} (h : causalAttention ops.floatOps q kCache vCache seqLen nHeads nKvHeads
      headDim maxSeqLen scale = some (some heads)) :
    heads.flatten.length = nHeads.toNat * headDim.toNat := by
  unfold causalAttention at h
  split at h
  · split_ifs at h
    · cases h
    · cases h
    · cases h
    · obtain ⟨heads, hheads, heq⟩ := Option.map_eq_some_iff.mp h
      cases heq
      exact length_flatten_mapM hheads
  · cases h

/-- What `causal_attention` reports does not depend on what its buffers held, nor does its output
when it reports success. -/
theorem causalAttentionInto_rel {out' scores' : List α} (q : List α) (seqLen headDim : UInt32)
    (hout : out.length = nHeads.toNat * headDim.toNat)
    (hout' : out'.length = nHeads.toNat * headDim.toNat)
    (hscores : maxSeqLen.toNat ≤ scores.length) (hscores' : maxSeqLen.toNat ≤ scores'.length) :
    Option.Rel (fun r r' => r.1 = r'.1 ∧
        (r.2.1.length = out.length ∧ r.2.2.length = scores.length) ∧
        (r'.2.1.length = out'.length ∧ r'.2.2.length = scores'.length) ∧
        (r.1 = true → r.2.1 = r'.2.1))
      (causalAttentionInto ops q kCache vCache out seqLen nHeads nKvHeads headDim maxSeqLen scale
        scores)
      (causalAttentionInto ops q kCache vCache out' seqLen nHeads nKvHeads headDim maxSeqLen scale
        scores') := by
  have h : (causalAttentionInto ops q kCache vCache out seqLen nHeads nKvHeads headDim maxSeqLen
      scale scores).map _ = _ := causalAttentionInto_eq q seqLen headDim hout hscores
  have h' : (causalAttentionInto ops q kCache vCache out' seqLen nHeads nKvHeads headDim maxSeqLen
      scale scores').map _ = _ := causalAttentionInto_eq q seqLen headDim hout' hscores'
  have hnil : out' = [] ↔ out = [] := by
    rw [← List.length_eq_zero_iff, ← List.length_eq_zero_iff, hout, hout']
  simp only [hnil] at h'
  generalize causalAttentionInto ops q kCache vCache out seqLen nHeads nKvHeads headDim maxSeqLen
    scale scores = x at h ⊢
  generalize causalAttentionInto ops q kCache vCache out' seqLen nHeads nKvHeads headDim maxSeqLen
    scale scores' = x' at h' ⊢
  -- both runs compute the same heads
  cases hres :
    causalAttention ops.floatOps (if q = [] ∨ out = [] then none else some q) kCache vCache
      seqLen nHeads nKvHeads headDim maxSeqLen scale with
  | none =>
    rw [hres, Option.map_none, Option.map_eq_none_iff] at h h'
    rw [h, h']
    exact .none
  | some heads =>
    rw [hres, Option.map_some, Option.map_eq_some_iff] at h h'
    obtain ⟨r, rfl, hr⟩ := h
    obtain ⟨r', rfl, hr'⟩ := h'
    cases heads with
    | none =>
      simp only [Option.elim_none, Prod.mk.injEq] at hr hr'
      refine .some ⟨hr.1.trans hr'.1.symm, ?_, ?_, fun hok => ?_⟩
      · exact ⟨congrArg List.length hr.2.1, hr.2.2⟩
      · exact ⟨congrArg List.length hr'.2.1, hr'.2.2⟩
      · rw [hr.1] at hok
        cases hok
    | some heads =>
      have hlength := length_flatten_causalAttention hres
      simp only [Option.elim_some, Prod.mk.injEq] at hr hr'
      refine .some ⟨hr.1.trans hr'.1.symm, ?_, ?_, fun _ => hr.2.1.trans hr'.2.1.symm⟩
      · exact ⟨(congrArg List.length hr.2.1).trans (hlength.trans hout.symm), hr.2.2⟩
      · exact ⟨(congrArg List.length hr'.2.1).trans (hlength.trans hout'.symm), hr'.2.2⟩

end Attention

end HeteroAccel
