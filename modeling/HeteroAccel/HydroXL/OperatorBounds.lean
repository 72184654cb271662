import HeteroAccel.HydroXL.KVLayout
import HeteroAccel.HydroXL.KVRepresentation
import HeteroAccel.HydroXL.Operators

/-!
# When the operators stay in their buffers

An operator of `HydroXLOps.cpp` is defined when its buffers are as large as its arguments say, as
natural numbers. `matvec` is not defined from 2^32 - 4 columns on, however large its buffers are.

## Main results

* `exists_rmsNorm`, `exists_matvec`, `exists_ropeApply`, …: one for each operator;
* `matvec_eq_none`: too many columns;
* `kvIndex_lt`, `exists_causalAttentionInto`: attention over a layer of the cache.
-/

namespace HeteroAccel

variable {α δ : Type} {ops : TensorOps α δ}

/-! ## Norms and projections -/

section Rows

variable {x weight a out table dst gate up b : List α} {n mRows kCols : UInt32} {eps : α}

theorem pos_of_ne_zero {n : UInt32} (hn : n ≠ 0) : 0 < n.toNat :=
  Nat.pos_of_ne_zero fun hzero => hn (UInt32.toNat_inj.mp hzero)

/-- A buffer with room for something is not a null pointer. -/
theorem ne_nil_of_le {m : ℕ} (hm : 0 < m) (h : m ≤ x.length) : x ≠ [] :=
  List.ne_nil_of_length_pos (Nat.lt_of_lt_of_le hm h)

variable (ops eps) in
theorem exists_rmsNorm (hn : n ≠ 0) (hx : n.toNat ≤ x.length) (hweight : n.toNat ≤ weight.length)
    (hout : n.toNat ≤ out.length) : ∃ v, rmsNorm ops x weight out n eps = some (true, v) := by
  have hpos := pos_of_ne_zero hn
  have hread : ∀ i < n.toNat, ∃ v, x[i]? = some v := fun i hi =>
    ⟨_, List.getElem?_eq_getElem (Nat.lt_of_lt_of_le hi hx)⟩
  obtain ⟨sumSq, hsum, -⟩ : ∃ sum, sumOfSquares ops x n.toNat = some sum ∧ True := by
    refine Buffer.exists_foldlM (fun _ => True) (fun i hi sum _ => ?_) trivial
    obtain ⟨v, hv⟩ := hread i (List.mem_range.mp hi)
    exact ⟨_, by simp only [hv, Option.bind_eq_bind, Option.bind_some]; rfl, trivial⟩
  unfold rmsNorm
  have hnull : ¬(x = [] ∨ weight = [] ∨ out = [] ∨ n = 0) := by
    simp [ne_nil_of_le hpos hx, ne_nil_of_le hpos hweight, ne_nil_of_le hpos hout, hn]
  rw [if_neg hnull]
  simp only [hsum, Option.bind_eq_bind, Option.bind_some]
  obtain ⟨v, hv⟩ : ∃ v, Buffer.update 0 n.toNat (fun i _ => normElement ops x weight
      (ops.div ops.one (ops.sqrt (ops.add (ops.toFloat (ops.divCount sumSq n)) eps))) i) out =
        some v := by
    refine Buffer.exists_update (by omega) fun i hi old => ?_
    obtain ⟨xi, hxi⟩ := hread i hi
    have hwi : weight[i]? = some weight[i] :=
      List.getElem?_eq_getElem (Nat.lt_of_lt_of_le hi hweight)
    exact ⟨_, by simp only [normElement, hxi, hwi, Option.bind_eq_bind, Option.bind_some]; rfl⟩
  rw [hv]
  exact ⟨v, rfl⟩

/-- The product of a row that is there. -/
theorem exists_matvecRow {row : ℕ → Option α} (hcols : kCols.toNat < 2 ^ 32 - 4)
    (hrow : ∀ k < kCols.toNat, ∃ v, row k = some v) (hx : kCols.toNat ≤ x.length) :
    ∃ v, matvecRow ops row x kCols = some v := by
  have hproduct : ∀ k < kCols.toNat, ∃ v, rowProduct ops row x k = some v := by
    intro k hk
    obtain ⟨r, hr⟩ := hrow k hk
    have hxk : x[k]? = some x[k] := List.getElem?_eq_getElem (Nat.lt_of_lt_of_le hk hx)
    exact ⟨_, by simp only [rowProduct, hr, hxk, Option.bind_eq_bind, Option.bind_some]; rfl⟩
  unfold matvecRow
  rw [if_neg (by omega)]
  obtain ⟨acc, hacc, -⟩ := Buffer.exists_foldlM (fun _ => True)
    (f := fun (a : Accumulators α) i => do
      let k := 4 * i
      some
        { acc0 := ops.add a.acc0 (← rowProduct ops row x (k + 0))
          acc1 := ops.add a.acc1 (← rowProduct ops row x (k + 1))
          acc2 := ops.add a.acc2 (← rowProduct ops row x (k + 2))
          acc3 := ops.add a.acc3 (← rowProduct ops row x (k + 3)) })
    (l := List.range (kCols.toNat / 4)) (fun i hi acc _ => by
      rw [List.mem_range] at hi
      obtain ⟨v0, h0⟩ := hproduct (4 * i + 0) (by omega)
      obtain ⟨v1, h1⟩ := hproduct (4 * i + 1) (by omega)
      obtain ⟨v2, h2⟩ := hproduct (4 * i + 2) (by omega)
      obtain ⟨v3, h3⟩ := hproduct (4 * i + 3) (by omega)
      exact ⟨_, by simp only [h0, h1, h2, h3, Option.bind_eq_bind, Option.bind_some]; rfl, trivial⟩)
    (b := { acc0 := ops.zero, acc1 := ops.zero, acc2 := ops.zero, acc3 := ops.zero }) trivial
  rw [hacc]
  -- the columns behind the last four
  obtain ⟨v, hv, -⟩ := Buffer.exists_foldlM (fun _ => True)
    (f := fun acc k => do some (ops.add acc (← rowProduct ops row x k)))
    (l := List.range' (4 * (kCols.toNat / 4)) (kCols.toNat % 4)) (fun k hk acc _ => by
      obtain ⟨-, hk⟩ := List.mem_range'_1.mp hk
      obtain ⟨v, hv⟩ := hproduct k (by omega)
      exact ⟨_, by simp only [hv, Option.bind_eq_bind, Option.bind_some]; rfl, trivial⟩)
    (b := ops.add (ops.add acc.acc0 acc.acc1) (ops.add acc.acc2 acc.acc3)) trivial
  exact ⟨v, hv⟩

variable (ops) in
/-- The product with a matrix stays in bounds. -/
theorem exists_matvec (hcols : kCols.toNat < 2 ^ 32 - 4) (ha : mRows.toNat * kCols.toNat ≤ a.length)
    (hx : kCols.toNat ≤ x.length) (hout : mRows.toNat ≤ out.length) :
    ∃ ok v, matvec ops a x out mRows kCols = some (ok, v) := by
  unfold matvec
  split
  · exact ⟨_, _, rfl⟩
  · obtain ⟨v, hv⟩ : ∃ v, Buffer.update 0 mRows.toNat
        (fun m _ => matvecRow ops (fun k => a[m * kCols.toNat + k]?) x kCols) out = some v := by
      refine Buffer.exists_update (by omega) fun m hm _ =>
        exists_matvecRow hcols (fun k hk => ?_) hx
      have hrow : (m + 1) * kCols.toNat ≤ mRows.toNat * kCols.toNat := Nat.mul_le_mul_right _ hm
      rw [Nat.succ_mul] at hrow
      exact ⟨_, List.getElem?_eq_getElem (by omega)⟩
    rw [hv]
    exact ⟨true, v, rfl⟩

variable (ops) in
/-- From 2^32 - 4 columns on a row has no end. -/
theorem matvec_eq_none (hcols : 2 ^ 32 - 4 ≤ kCols.toNat) (hrows : mRows ≠ 0) (ha : a ≠ [])
    (hx : x ≠ []) (hout : out ≠ []) : matvec ops a x out mRows kCols = none := by
  have hne : kCols ≠ 0 := by
    rintro rfl
    exact absurd hcols (by decide)
  unfold matvec
  rw [if_neg (by simp [ha, hx, hout, hrows, hne])]
  rw [Buffer.update_eq_none (pos_of_ne_zero hrows) fun _ => by rw [matvecRow, if_pos hcols]]
  rfl

/-! ## Embedding and elementwise operators -/

theorem exists_embedLookup {tokenId vocabSize : UInt32} (hn : n ≠ 0)
    (htable : vocabSize.toNat * n.toNat ≤ table.length) (hdst : n.toNat ≤ dst.length)
    (hlt : ¬tokenId ≥ vocabSize) :
    ∃ v, embedLookup table tokenId vocabSize n dst = some (true, v) := by
  have hlt' : tokenId.toNat < vocabSize.toNat := UInt32.lt_iff_toNat_lt.mp (UInt32.not_le.mp hlt)
  have hrow : (tokenId.toNat + 1) * n.toNat ≤ vocabSize.toNat * n.toNat :=
    Nat.mul_le_mul_right _ hlt'
  rw [Nat.succ_mul] at hrow
  have hpos := pos_of_ne_zero hn
  have hne : table ≠ [] := ne_nil_of_le (by omega) (hrow.trans htable)
  rw [embedLookup, if_neg (by simp [hne, ne_nil_of_le hpos hdst, hn]), if_neg hlt]
  have hsrc : n.toNat ≤ (table.drop (tokenId.toNat * n.toNat)).length := by
    rw [List.length_drop]
    omega
  obtain ⟨v, hv⟩ : ∃ v, Buffer.memcpy dst 0 (table.drop (tokenId.toNat * n.toNat)) n.toNat =
      some v := by
    rw [Buffer.memcpy, if_pos ⟨hsrc, by omega⟩]
    exact ⟨_, rfl⟩
  simp only [hv, Option.bind_eq_bind, Option.bind_some]
  exact ⟨v, rfl⟩

variable (ops) in
theorem exists_swiglu (hgate : n.toNat ≤ gate.length) (hup : n.toNat ≤ up.length)
    (hout : n.toNat ≤ out.length) : ∃ v, swiglu ops gate up out n = some v := by
  refine Buffer.exists_update (by omega) fun i hi _ => ?_
  have hg : gate[i]? = some gate[i] := List.getElem?_eq_getElem (Nat.lt_of_lt_of_le hi hgate)
  have hu : up[i]? = some up[i] := List.getElem?_eq_getElem (Nat.lt_of_lt_of_le hi hup)
  exact ⟨_, by simp only [swigluElement, hg, hu, Option.bind_eq_bind, Option.bind_some]; rfl⟩

variable (ops) in
theorem exists_residualAdd (ha : n.toNat ≤ a.length) (hb : n.toNat ≤ b.length) :
    ∃ v, residualAdd ops a b n = some v := by
  refine Buffer.exists_update (by omega) fun i hi old => ?_
  have hbi : b[i]? = some b[i] := List.getElem?_eq_getElem (Nat.lt_of_lt_of_le hi hb)
  exact ⟨_, by simp only [hbi, Option.bind_eq_bind, Option.bind_some]; rfl⟩

end Rows

/-! ## Rotary encoding -/

section Rope

variable {q k x : List α} {n nHeads nKvHeads headDim pos : UInt32}

variable (ops pos) in
/-- The rotation of heads stays in bounds. -/
theorem exists_ropeHeads (freqBase freqScale : α) (hx : n.toNat * headDim.toNat ≤ x.length) :
    ∃ out, ropeHeads ops n headDim pos freqBase freqScale x = some out := by
  have hpairs : ∀ h < n.toNat, ∀ y : List α, y.length = x.length → ∃ y',
      (List.range (headDim.toNat / 2)).foldlM (fun x i =>
        rotate ops (ropeAngle ops headDim pos freqBase freqScale i) x (h * headDim.toNat + i)
          (h * headDim.toNat + (i + headDim.toNat / 2))) y = some y' ∧ y'.length = x.length := by
    intro h hh y hy
    refine Buffer.exists_foldlM (fun out : List α => out.length = x.length)
      (fun i hi z hz => ?_) hy
    -- both elements of a pair are in the head
    have hhead : (h + 1) * headDim.toNat ≤ n.toNat * headDim.toNat := Nat.mul_le_mul_right _ hh
    rw [Nat.succ_mul] at hhead
    rw [List.mem_range] at hi
    have h0 : z[h * headDim.toNat + i]? = some z[h * headDim.toNat + i] :=
      List.getElem?_eq_getElem (by omega)
    have h1 : z[h * headDim.toNat + (i + headDim.toNat / 2)]? =
        some z[h * headDim.toNat + (i + headDim.toNat / 2)] :=
      List.getElem?_eq_getElem (by omega)
    refine ⟨_, by simp only [rotate, h0, h1, Option.bind_eq_bind, Option.bind_some]; rfl, ?_⟩
    simpa using hz
  obtain ⟨out, hout, -⟩ := Buffer.exists_foldlM (fun out : List α => out.length = x.length)
    (fun h hh y hy => hpairs h (List.mem_range.mp hh) y hy) rfl
  exact ⟨out, hout⟩

variable (ops pos) in
theorem exists_ropeApply (freqBase freqScale : α) (hq : nHeads.toNat * headDim.toNat ≤ q.length)
    (hk : k = [] ∨ nKvHeads.toNat * headDim.toNat ≤ k.length) :
    ∃ ok q' k', ropeApply ops q nHeads k nKvHeads headDim pos freqBase freqScale =
      some (ok, q', k') := by
  unfold ropeApply
  split
  · exact ⟨_, _, _, rfl⟩
  next hargs =>
    split
    · exact ⟨_, _, _, rfl⟩
    · have hk : nKvHeads.toNat * headDim.toNat ≤ k.length :=
        hk.resolve_left fun hnil => hargs (.inr (.inl hnil))
      obtain ⟨q', hq'⟩ := exists_ropeHeads ops pos freqBase freqScale hq
      obtain ⟨k', hk'⟩ := exists_ropeHeads ops pos freqBase freqScale hk
      rw [hq', hk']
      exact ⟨true, q', k', rfl⟩

end Rope

/-! ## Attention -/

section Attention

variable {nHeads nKvHeads headDim maxSeqLen : UInt32}

/-- What is read of a layer of the cache is in it. -/
theorem kvIndex_lt {h t d : UInt32} (hdvd : nKvHeads.toNat ∣ nHeads.toNat) (hh : h < nHeads)
    (ht : t < maxSeqLen) (hd : d < headDim)
    (hwrap : nKvHeads.toNat * maxSeqLen.toNat * headDim.toNat < 2 ^ 64) :
    kvIndex nHeads nKvHeads headDim maxSeqLen h t d <
      nKvHeads.toNat * maxSeqLen.toNat * headDim.toNat := by
  have hhead := kvHead_lt hdvd hh
  rw [UInt32.lt_iff_toNat_lt] at ht hd
  set g := (kvHead nHeads nKvHeads h).toNat
  -- the head in front of the next one, the position in front of the next one
  have hnext : (g + 1) * maxSeqLen.toNat * headDim.toNat ≤
      nKvHeads.toNat * maxSeqLen.toNat * headDim.toNat :=
    Nat.mul_le_mul_right _ (Nat.mul_le_mul_right _ hhead)
  have hposition : (t.toNat + 1) * headDim.toNat ≤ maxSeqLen.toNat * headDim.toNat :=
    Nat.mul_le_mul_right _ ht
  rw [Nat.succ_mul, Nat.add_mul] at hnext
  rw [Nat.succ_mul] at hposition
  have hlt : g * maxSeqLen.toNat * headDim.toNat < 2 ^ 64 := by omega
  have hproduct : ((kvHead nHeads nKvHeads h).toUInt64 * maxSeqLen.toUInt64 *
      headDim.toUInt64).toNat = g * maxSeqLen.toNat * headDim.toNat :=
    HydroXLKVCache.toNat_mul_mul_toUInt64 hlt
  rw [kvIndex, hproduct, HydroXLKVCache.toNat_mul_toUInt64]
  omega

/-- Attention of a head whose reads are all there. -/
theorem exists_attendHead {q : ℕ → Option α} {key value : ℕ → ℕ → Option α} {seqLen headDim : ℕ}
    (scale : α) (hq : ∀ d < headDim, ∃ v, q d = some v)
    (hkey : ∀ t < seqLen, ∀ d < headDim, ∃ v, key t d = some v)
    (hvalue : ∀ t < seqLen, ∀ d < headDim, ∃ v, value t d = some v) :
    ∃ vs, attendHead ops.floatOps q key value seqLen headDim scale = some vs := by
  have hscore : ∀ t < seqLen, ∃ score, (do
      let dot ← (List.range headDim).foldlM
        (fun dot d => do some (ops.floatOps.mulAdd dot (← q d) (← key t d))) ops.floatOps.zeroDouble
      some (ops.floatOps.mul (ops.floatOps.toFloat dot) scale)) = some score := by
    intro t ht
    obtain ⟨dot, hdot, -⟩ := Buffer.exists_foldlM (fun _ => True)
      (f := fun dot d => do some (ops.floatOps.mulAdd dot (← q d) (← key t d)))
      (l := List.range headDim) (fun d hd dot _ => by
        obtain ⟨v, hv⟩ := hq d (List.mem_range.mp hd)
        obtain ⟨w, hw⟩ := hkey t ht d (List.mem_range.mp hd)
        exact ⟨_, by simp only [hv, hw, Option.bind_eq_bind, Option.bind_some]; rfl, trivial⟩)
      (b := ops.floatOps.zeroDouble) trivial
    rw [hdot]
    exact ⟨_, rfl⟩
  obtain ⟨scores, hscores⟩ := Buffer.exists_mapM hscore
  have hlength : (ops.floatOps.softmax scores).length = seqLen :=
    (ops.length_softmaxInplace scores).trans (Buffer.length_of_mapM hscores)
  unfold attendHead
  rw [hscores]
  -- the output keeps its size, so that each of its elements is there
  obtain ⟨vs, hvs, -⟩ := Buffer.exists_foldlM (fun out : List α => out.length = headDim)
    (f := fun out t => (List.range headDim).mapM fun d => do
      some (ops.floatOps.add (← out[d]?)
        (ops.floatOps.mul (← (ops.floatOps.softmax scores)[t]?) (← value t d))))
    (l := List.range seqLen) (fun t ht out hout => by
      rw [List.mem_range] at ht
      obtain ⟨vs, hvs⟩ := Buffer.exists_mapM (n := headDim) (f := fun d => do
          some (ops.floatOps.add (← out[d]?)
            (ops.floatOps.mul (← (ops.floatOps.softmax scores)[t]?) (← value t d))))
        fun d hd => by
          obtain ⟨v, hv⟩ := hvalue t ht d hd
          have ho : out[d]? = some out[d] := List.getElem?_eq_getElem (by omega)
          have hw : (ops.floatOps.softmax scores)[t]? = some (ops.floatOps.softmax scores)[t] :=
            List.getElem?_eq_getElem (by omega)
          exact ⟨_, by simp only [ho, hw, hv, Option.bind_eq_bind, Option.bind_some]; rfl⟩
      exact ⟨vs, hvs, Buffer.length_of_mapM hvs⟩)
    (b := List.replicate headDim ops.floatOps.zero) List.length_replicate
  exact ⟨vs, hvs⟩

/-- The numbers below a 32-bit number. -/
theorem ofNat_lt {n : UInt32} {i : ℕ} (hi : i < n.toNat) : UInt32.ofNat i < n := by
  have hlt := n.toNat_lt
  rw [UInt32.lt_iff_toNat_lt, UInt32.toNat_ofNat', Nat.mod_eq_of_lt (by omega)]
  exact hi

/-- All that attention reads of a layer of the cache is among its first `floats` elements. -/
def ReadsFit (nHeads nKvHeads headDim maxSeqLen seqLen : UInt32) (floats : ℕ) : Prop :=
  ∀ h < nHeads.toNat, ∀ t < seqLen.toNat, ∀ d < headDim.toNat,
    kvIndex nHeads nKvHeads headDim maxSeqLen (.ofNat h) (.ofNat t) (.ofNat d) < floats

/-- A layer of its dimensions has what is read. -/
theorem readsFit_of_dims {seqLen : UInt32} (hmod : nHeads % nKvHeads = 0) (hle : seqLen ≤ maxSeqLen)
    (hwrap : nKvHeads.toNat * maxSeqLen.toNat * headDim.toNat < 2 ^ 64) :
    ReadsFit nHeads nKvHeads headDim maxSeqLen seqLen
      (nKvHeads.toNat * maxSeqLen.toNat * headDim.toNat) := by
  have hdvd : nKvHeads.toNat ∣ nHeads.toNat := by
    apply Nat.dvd_of_mod_eq_zero
    rw [← UInt32.toNat_mod, hmod]
    rfl
  exact fun h hh t ht d hd =>
    kvIndex_lt hdvd (ofNat_lt hh) (UInt32.lt_of_lt_of_le (ofNat_lt ht) hle) (ofNat_lt hd) hwrap

variable (ops) in
/-- `causal_attention` over a layer that has what it reads. -/
theorem exists_causalAttentionInto {q kCache vCache out scores : List α}
    {seqLen : UInt32} (scale : α)
    (hq : q.length = nHeads.toNat * headDim.toNat)
    (hout : out.length = nHeads.toNat * headDim.toNat)
    (hscores : maxSeqLen.toNat ≤ scores.length) (hseq : seqLen ≠ 0) (hheads : nHeads ≠ 0)
    (hkv : nKvHeads ≠ 0) (hdim : headDim ≠ 0) (hmod : nHeads % nKvHeads = 0)
    (hle : seqLen ≤ maxSeqLen)
    (hk : ReadsFit nHeads nKvHeads headDim maxSeqLen seqLen kCache.length)
    (hv : ReadsFit nHeads nKvHeads headDim maxSeqLen seqLen vCache.length) :
    ∃ v w, causalAttentionInto ops q (some kCache) (some vCache) out seqLen nHeads nKvHeads headDim
      maxSeqLen scale scores = some (true, v, w) ∧ v.length = out.length ∧
        w.length = scores.length := by
  have hpos : 0 < nHeads.toNat * headDim.toNat :=
    Nat.mul_pos (pos_of_ne_zero hheads) (pos_of_ne_zero hdim)
  have hnull : ¬(q = [] ∨ out = []) := by
    simp [ne_nil_of_le hpos hq.ge, ne_nil_of_le hpos hout.ge]
  obtain ⟨heads, hattention⟩ : ∃ heads, causalAttention ops.floatOps (some q) (some kCache)
      (some vCache) seqLen nHeads nKvHeads headDim maxSeqLen scale = some (some heads) := by
    unfold causalAttention
    dsimp only
    rw [if_neg (by simp [hseq, hheads, hkv, hdim]), if_neg (by simp [hmod]),
      if_neg (UInt32.not_lt.mpr hle)]
    -- each head reads its own part of the query, and the cache where it fits
    have hhead : ∀ h < nHeads.toNat, ∃ vs, attendHead ops.floatOps
        (fun d => q[h * headDim.toNat + d]?)
        (fun t d => kCache[kvIndex nHeads nKvHeads headDim maxSeqLen (.ofNat h) (.ofNat t)
          (.ofNat d)]?)
        (fun t d => vCache[kvIndex nHeads nKvHeads headDim maxSeqLen (.ofNat h) (.ofNat t)
          (.ofNat d)]?) seqLen.toNat headDim.toNat scale = some vs := by
      intro h hh
      refine exists_attendHead scale (fun d hd => ?_) (fun t ht d hd => ?_) fun t ht d hd => ?_
      · have hrow : (h + 1) * headDim.toNat ≤ nHeads.toNat * headDim.toNat :=
          Nat.mul_le_mul_right _ hh
        rw [Nat.succ_mul] at hrow
        exact ⟨_, List.getElem?_eq_getElem (by omega)⟩
      · exact ⟨_, List.getElem?_eq_getElem (hk h hh t ht d hd)⟩
      · exact ⟨_, List.getElem?_eq_getElem (hv h hh t ht d hd)⟩
    obtain ⟨heads, hheads⟩ := Buffer.exists_mapM hhead
    rw [hheads]
    exact ⟨heads, rfl⟩
  -- the operator with its buffers, from the one on values
  have hinto : (causalAttentionInto ops q (some kCache) (some vCache) out seqLen nHeads nKvHeads
      headDim maxSeqLen scale scores).map _ = _ :=
    causalAttentionInto_eq q seqLen headDim hout hscores
  rw [if_neg hnull, hattention, Option.map_some, Option.elim_some, Option.map_eq_some_iff] at hinto
  obtain ⟨⟨ok, v, w⟩, hr, heq⟩ := hinto
  simp only [Prod.mk.injEq] at heq
  obtain ⟨rfl, rfl, hw⟩ := heq
  exact ⟨_, _, hr, (length_flatten_causalAttention hattention).trans hout.symm, hw⟩

/-- `causal_attention` leaves buffers of the same sizes. -/
theorem length_causalAttentionInto {q out scores v w : List α} {kCache vCache : Option (List α)}
    {seqLen : UInt32} {scale : α} {ok : Bool}
    (h : causalAttentionInto ops q kCache vCache out seqLen nHeads nKvHeads headDim maxSeqLen scale
      scores = some (ok, v, w))
    (hout : out.length = nHeads.toNat * headDim.toNat) (hscores : maxSeqLen.toNat ≤ scores.length) :
    v.length = out.length ∧ w.length = scores.length := by
  have hinto : (causalAttentionInto ops q kCache vCache out seqLen nHeads nKvHeads headDim maxSeqLen
      scale scores).map _ = _ := causalAttentionInto_eq q seqLen headDim hout hscores
  rw [h, Option.map_some, eq_comm, Option.map_eq_some_iff] at hinto
  obtain ⟨r, hr, heq⟩ := hinto
  cases r with
  | none =>
    simp only [Option.elim_none, Prod.mk.injEq] at heq
    exact ⟨congrArg List.length heq.2.1.symm, heq.2.2.symm⟩
  | some heads =>
    simp only [Option.elim_some, Prod.mk.injEq] at heq
    rw [← heq.2.1, length_flatten_causalAttention hr]
    exact ⟨hout.symm, heq.2.2.symm⟩

variable (ops) in
/-- When `causal_attention` succeeds the heads can be grouped, and the layer has what it reads. -/
theorem readsFit_of_causalAttentionInto {q out scores v w : List α}
    {kCache vCache : Option (List α)}
    {seqLen : UInt32} {scale : α}
    (h : causalAttentionInto ops q kCache vCache out seqLen nHeads nKvHeads headDim maxSeqLen scale
      scores = some (true, v, w))
    (hout : out.length = nHeads.toNat * headDim.toNat) (hscores : maxSeqLen.toNat ≤ scores.length) :
    nHeads % nKvHeads = 0 ∧ seqLen ≠ 0 ∧
      ∀ k ∈ kCache, ReadsFit nHeads nKvHeads headDim maxSeqLen seqLen k.length := by
  have hinto : (causalAttentionInto ops q kCache vCache out seqLen nHeads nKvHeads headDim maxSeqLen
      scale scores).map _ = _ := causalAttentionInto_eq q seqLen headDim hout hscores
  rw [h, Option.map_some, eq_comm, Option.map_eq_some_iff] at hinto
  obtain ⟨r, hr, heq⟩ := hinto
  cases r with
  | none => cases heq
  | some heads =>
    unfold causalAttention at hr
    split at hr
    next k _ _ _ _ =>
      split at hr
      · cases hr
      next hzero =>
        split at hr
        · cases hr
        next hmod =>
          split at hr
          · cases hr
          · obtain ⟨heads', hmapM, -⟩ := Option.map_eq_some_iff.mp hr
            refine ⟨not_not.mp hmod, by simp_all, ?_⟩
            rintro k' ⟨⟩ i hi t ht d hd
            -- the scores of a head are computed from its keys
            obtain ⟨vs, hvs⟩ := Buffer.exists_of_mapM hmapM hi
            obtain ⟨dots, hdots, -⟩ := Option.bind_eq_some_iff.mp hvs
            obtain ⟨score, hscore⟩ := Buffer.exists_of_mapM hdots ht
            obtain ⟨dot, hdot, -⟩ := Option.bind_eq_some_iff.mp hscore
            obtain ⟨c, c', hround⟩ := Buffer.exists_of_foldlM hdot (List.mem_range.mpr hd)
            obtain ⟨x, -, hround⟩ := Option.bind_eq_some_iff.mp hround
            obtain ⟨y, hy, -⟩ := Option.bind_eq_some_iff.mp hround
            exact (List.getElem?_eq_some_iff.mp hy).1
    next => cases hr

variable (ops) in
/-- Query heads that the key-value heads do not divide are rejected. -/
theorem causalAttentionInto_of_mod {q kCache vCache out scores : List α} {seqLen : UInt32}
    (scale : α) (hmod : nHeads % nKvHeads ≠ 0) :
    causalAttentionInto ops q (some kCache) (some vCache) out seqLen nHeads nKvHeads headDim
      maxSeqLen scale scores = some (false, out, scores) := by
  unfold causalAttentionInto
  dsimp only
  by_cases hnull : q = [] ∨ out = []
  · rw [if_pos hnull]
  · rw [if_neg hnull]
    by_cases hzero : (seqLen = 0 || nHeads = 0 || nKvHeads = 0 || headDim = 0) = true
    · rw [if_pos hzero]
    · rw [if_neg hzero, if_pos hmod]

end Attention

/-! ## Writes to the cache -/

namespace HydroXLKVCache

variable {c c' : HydroXLKVCache α} {layer pos : UInt32} {k v : List α}

/-- The buffers keep their sizes. -/
theorem Sized.writeKV (hc : c.Sized) {kVec vVec : Option (List α)} {ok : Bool}
    (h : c.writeKV layer pos kVec vVec = some (ok, c')) : c'.Sized ∧ c'.dims = c.dims := by
  obtain rfl | ⟨kOld, vOld, kNew, vNew, hkOld, hvOld, hkNew, hvNew, rfl⟩ := writeKV_cases h
  · exact ⟨hc, rfl⟩
  · refine ⟨⟨hc.allocated, hc.layers, hc.heads, hc.seq, hc.dim, fun l hl => ?_⟩, rfl⟩
    obtain ⟨kBuf, vBuf, hk, hv, hkSize, hvSize⟩ := hc.buffers l hl
    by_cases hlayer : layer.toNat = l.toNat
    · rw [hlayer] at hkOld hvOld
      obtain rfl : kOld = kBuf := Option.some.inj (hkOld.symm.trans hk)
      obtain rfl : vOld = vBuf := Option.some.inj (hvOld.symm.trans hv)
      have hkLt : l.toNat < c.kData.length := (List.getElem?_eq_some_iff.mp hk).1
      have hvLt : l.toNat < c.vData.length := (List.getElem?_eq_some_iff.mp hv).1
      refine ⟨kNew, vNew, ?_, ?_, hkNew.trans hkSize, hvNew.trans hvSize⟩
      · simp [hlayer, hkLt]
      · simp [hlayer, hvLt]
    · refine ⟨kBuf, vBuf, ?_, ?_, hkSize, hvSize⟩
      · simpa [List.getElem?_set, hlayer] using hk
      · simpa [List.getElem?_set, hlayer] using hv

/-- A null pointer is rejected. -/
theorem writeKV_of_null {vVec : Option (List α)} :
    c.writeKV layer pos none vVec = some (false, c) := by
  unfold HydroXLKVCache.writeKV
  split_ifs <;> rfl

/-- A position behind the last one is rejected. -/
theorem writeKV_of_ge {kVec vVec : Option (List α)} (hpos : pos ≥ c.maxSeqLen) :
    c.writeKV layer pos kVec vVec = some (false, c) := by
  unfold HydroXLKVCache.writeKV
  split_ifs <;> rfl

/-- A write of vectors that are at least as long as the dimensions say. -/
theorem Sized.exists_writeKV (hc : c.Sized) (hlayer : layer < c.nLayers) (hpos : pos < c.maxSeqLen)
    (hwrap : c.nKvHeads.toNat * c.maxSeqLen.toNat * c.headDim.toNat < 2 ^ 64)
    (hk : c.dims.width ≤ k.length) (hv : c.dims.width ≤ v.length) :
    ∃ c', c.writeKV layer pos (some k) (some v) = some (true, c') := by
  obtain ⟨kBuf, vBuf, hkBuf, hvBuf, hkSize, hvSize⟩ := hc.buffers layer hlayer
  have hsize : (perLayerFloats c.nKvHeads c.maxSeqLen c.headDim).toNat =
      c.maxSeqLen.toNat * (c.nKvHeads.toNat * c.headDim.toNat) := by
    rw [perLayerFloats, toNat_mul_mul_toUInt64 hwrap]
    ring
  have hwrap' : c.maxSeqLen.toNat * (c.nKvHeads.toNat * c.headDim.toNat) < 2 ^ 64 := by
    rw [← hsize]
    exact UInt64.toNat_lt _
  -- only the first elements are copied
  rw [writeKV_take hk hv]
  exact ⟨_, writeKV_eq_some_true hc.allocated hlayer hpos (List.length_take_of_le hk)
    (List.length_take_of_le hv) hkBuf hvBuf (hkSize.trans hsize) (hvSize.trans hsize) hwrap'⟩

/-- What a write that succeeds has been given. -/
theorem of_writeKV {kVec vVec : Option (List α)}
    (h : c.writeKV layer pos kVec vVec = some (true, c')) :
    layer < c.nLayers ∧ ∃ k ∈ kVec, c.dims.width ≤ k.length := by
  have hwidth : (c.nKvHeads.toUInt64 * c.headDim.toUInt64).toNat = c.dims.width :=
    toNat_mul_toUInt64 _ _
  unfold HydroXLKVCache.writeKV at h
  simp only [hwidth] at h
  split at h
  · cases h
  · split at h
    · cases h
    next hlayer =>
      split at h
      · cases h
      · split at h
        next k v =>
          simp only [Option.bind_eq_bind, Option.bind_eq_some_iff] at h
          obtain ⟨kOld, -, vOld, -, h⟩ := h
          split at h
          · cases h
          · obtain ⟨kNew, hkNew, -⟩ := Option.bind_eq_some_iff.mp h
            refine ⟨UInt32.not_le.mp hlayer, k, rfl, ?_⟩
            unfold Buffer.memcpy at hkNew
            split at hkNew
            next hfits => exact hfits.1
            next => cases hkNew
        next => cases h

/-- The write of a shorter vector at the last position leaves the vector: there the end of the row
is that of the buffer, also when both wrap around. -/
theorem Sized.writeKV_eq_none (hc : c.Sized) (hlayer : layer < c.nLayers)
    (hpos : pos.toNat + 1 = c.maxSeqLen.toNat)
    (hk : k.length < c.nKvHeads.toNat * c.headDim.toNat) :
    c.writeKV layer pos (some k) (some v) = none := by
  obtain ⟨kBuf, vBuf, hkBuf, hvBuf, hkSize, -⟩ := hc.buffers layer hlayer
  have hlt : pos < c.maxSeqLen := by
    rw [UInt32.lt_iff_toNat_lt]
    omega
  have hend : pos.toUInt64 * c.nKvHeads.toUInt64 * c.headDim.toUInt64 +
      c.nKvHeads.toUInt64 * c.headDim.toUInt64 = .ofNat kBuf.length := by
    have hlast : pos.toUInt64 + 1 = c.maxSeqLen.toUInt64 := by
      rw [← UInt64.ofNat_uInt32ToNat, ← UInt64.ofNat_uInt32ToNat, ← hpos, UInt64.ofNat_add]
      rfl
    rw [hkSize, UInt64.ofNat_toNat, perLayerFloats, ← hlast]
    grind
  have hvec : (c.nKvHeads.toUInt64 * c.headDim.toUInt64).toNat =
      c.nKvHeads.toNat * c.headDim.toNat := toNat_mul_toUInt64 _ _
  unfold HydroXLKVCache.writeKV
  rw [if_neg (by simp [hc.allocated]), if_neg (UInt32.not_le.mpr hlayer),
    if_neg (UInt32.not_le.mpr hlt)]
  simp only [hkBuf, hvBuf, Option.bind_eq_bind, Option.bind_some]
  rw [hend, if_neg (UInt64.lt_irrefl _), hvec]
  have hcopy : Buffer.memcpy kBuf (pos.toUInt64 * c.nKvHeads.toUInt64 * c.headDim.toUInt64).toNat k
      (c.nKvHeads.toNat * c.headDim.toNat) = none := by
    rw [Buffer.memcpy, if_neg fun hfits => absurd hfits.1 (by omega)]
  rw [hcopy]
  rfl

end HydroXLKVCache

end HeteroAccel
