import HeteroAccel.HydroXL.KVCache

/-!
# Causal attention

`causal_attention` reads the key and value buffers of one layer, for each query head at the
position of each cached token. Floating point is a parameter (`FloatOps`); which elements are read
is not. A read outside a buffer is undefined behaviour, the result `none`.

## Main definitions

* `kvHead`, `kvIndex`: the key-value head of a query head, and the element read for it;
* `causalAttention`: the argument checks and the loops over heads, positions and dimensions;
* `attendVectors`: attention over the key and value vectors themselves;
* `causalAttention_eq_attendVectors`: what is computed depends on the elements read only.
-/

namespace HeteroAccel

/-- The floating-point operations of the attention loop, over floats `α` and doubles `δ`. -/
structure FloatOps (α δ : Type) where
  zero : α
  zeroDouble : δ
  /-- `dot += static_cast<double>(a) * static_cast<double>(b)`. -/
  mulAdd : δ → α → α → δ
  toFloat : δ → α
  mul : α → α → α
  add : α → α → α
  /-- `softmax_inplace`. -/
  softmax : List α → List α

variable {α δ : Type}

/-- The key-value head of a query head. -/
def kvHead (nHeads nKvHeads h : UInt32) : UInt32 := h / (nHeads / nKvHeads)

/-- The element of a layer's buffer that is read for the query head `h`, the cached position `t`
and the dimension `d`. -/
def kvIndex (nHeads nKvHeads headDim maxSeqLen h t d : UInt32) : ℕ :=
  ((kvHead nHeads nKvHeads h).toUInt64 * maxSeqLen.toUInt64 * headDim.toUInt64).toNat +
    (t.toUInt64 * headDim.toUInt64).toNat + d.toNat

/-- The output of one query head, given the reads of its query, of the keys and of the values. -/
def attendHead (ops : FloatOps α δ) (q : ℕ → Option α) (key value : ℕ → ℕ → Option α)
    (seqLen headDim : ℕ) (scale : α) : Option (List α) := do
  let scores ← (List.range seqLen).mapM fun t => do
    let dot ← (List.range headDim).foldlM
      (fun dot d => do some (ops.mulAdd dot (← q d) (← key t d))) ops.zeroDouble
    some (ops.mul (ops.toFloat dot) scale)
  let weights := ops.softmax scores
  (List.range seqLen).foldlM
    (fun out t => (List.range headDim).mapM fun d => do
      some (ops.add (← out[d]?) (ops.mul (← weights[t]?) (← value t d))))
    (List.replicate headDim ops.zero)

/-- `causal_attention`: the outputs of all query heads, or `some none` where it returns `false`. A
null pointer is `none`. -/
def causalAttention (ops : FloatOps α δ) (q kCache vCache : Option (List α))
    (seqLen nHeads nKvHeads headDim maxSeqLen : UInt32) (scale : α) :
    Option (Option (List (List α))) :=
  match q, kCache, vCache with
  | some q, some kCache, some vCache =>
    if seqLen = 0 || nHeads = 0 || nKvHeads = 0 || headDim = 0 then some none
    else if nHeads % nKvHeads ≠ 0 then some none
    else if seqLen > maxSeqLen then some none
    else
      ((List.range nHeads.toNat).mapM fun h =>
        attendHead ops (fun d => q[h * headDim.toNat + d]?)
          (fun t d => kCache[kvIndex nHeads nKvHeads headDim maxSeqLen (.ofNat h) (.ofNat t)
            (.ofNat d)]?)
          (fun t d => vCache[kvIndex nHeads nKvHeads headDim maxSeqLen (.ofNat h) (.ofNat t)
            (.ofNat d)]?)
          seqLen.toNat headDim.toNat scale).map some
  | _, _, _ => some none

/-! ## What the result depends on -/

/-- Actions that agree on a list's elements agree on the list. -/
theorem mapM_congr_of_mem {β γ : Type} {f g : β → Option γ} {l : List β}
    (h : ∀ a ∈ l, f a = g a) : l.mapM f = l.mapM g := by
  induction l with
  | nil => rfl
  | cons a l ih =>
    rw [List.mapM_cons, List.mapM_cons, h a (by simp), ih fun b hb => h b (by simp [hb])]

/-- Folds whose steps agree on a list's elements agree. -/
theorem foldlM_congr_of_mem {β γ : Type} {f g : γ → β → Option γ} {l : List β}
    (h : ∀ c, ∀ a ∈ l, f c a = g c a) (c : γ) : l.foldlM f c = l.foldlM g c := by
  induction l generalizing c with
  | nil => rfl
  | cons a l ih =>
    rw [List.foldlM_cons, List.foldlM_cons, h c a (by simp)]
    congr 1
    funext c'
    exact ih (fun c b hb => h c b (by simp [hb])) c'

/-- The output of a head depends on the keys and values of the attended positions only. -/
theorem attendHead_congr {ops : FloatOps α δ} {q : ℕ → Option α}
    {key key' value value' : ℕ → ℕ → Option α} {seqLen headDim : ℕ} {scale : α}
    (hkey : ∀ t < seqLen, ∀ d < headDim, key t d = key' t d)
    (hvalue : ∀ t < seqLen, ∀ d < headDim, value t d = value' t d) :
    attendHead ops q key value seqLen headDim scale =
      attendHead ops q key' value' seqLen headDim scale := by
  unfold attendHead
  congr 1
  · refine mapM_congr_of_mem fun t ht => ?_
    congr 1
    refine foldlM_congr_of_mem (fun dot d hd => ?_) _
    rw [hkey t (List.mem_range.mp ht) d (List.mem_range.mp hd)]
  · funext scores
    refine foldlM_congr_of_mem (fun out t ht => ?_) _
    refine mapM_congr_of_mem fun d hd => ?_
    rw [hvalue t (List.mem_range.mp ht) d (List.mem_range.mp hd)]

/-- Attention over the key and value vectors themselves: the output of all heads over the first
`seqLen` of the vectors `ks` and `vs`. -/
def attendVectors (ops : FloatOps α δ) (q : List α) (ks vs : ℕ → List α)
    (seqLen nHeads nKvHeads headDim : UInt32) (scale : α) : Option (List (List α)) :=
  (List.range nHeads.toNat).mapM fun h =>
    let part := (kvHead nHeads nKvHeads (.ofNat h)).toNat * headDim.toNat
    attendHead ops (fun d => q[h * headDim.toNat + d]?) (fun t d => (ks t)[part + d]?)
      (fun t d => (vs t)[part + d]?) seqLen.toNat headDim.toNat scale

/-- `causal_attention` is attention over the vectors that its reads find. -/
theorem causalAttention_eq_attendVectors {ops : FloatOps α δ} {q kCache vCache : List α}
    {ks vs : ℕ → List α} {seqLen nHeads nKvHeads headDim maxSeqLen : UInt32} {scale : α}
    (hseq : seqLen ≠ 0) (hheads : nHeads ≠ 0) (hkv : nKvHeads ≠ 0) (hdim : headDim ≠ 0)
    (hdvd : nKvHeads.toNat ∣ nHeads.toNat) (hle : seqLen ≤ maxSeqLen)
    (hreads : ∀ h t d, h < nHeads → t < seqLen → d < headDim →
      kCache[kvIndex nHeads nKvHeads headDim maxSeqLen h t d]? =
        (ks t.toNat)[(kvHead nHeads nKvHeads h).toNat * headDim.toNat + d.toNat]? ∧
      vCache[kvIndex nHeads nKvHeads headDim maxSeqLen h t d]? =
        (vs t.toNat)[(kvHead nHeads nKvHeads h).toNat * headDim.toNat + d.toNat]?) :
    causalAttention ops (some q) (some kCache) (some vCache) seqLen nHeads nKvHeads headDim
        maxSeqLen scale =
      (attendVectors ops q ks vs seqLen nHeads nKvHeads headDim scale).map some := by
  -- the loop variables are 32-bit, and never leave their range
  have hrange : ∀ (n : UInt32) (i : ℕ), i < n.toNat →
      UInt32.ofNat i < n ∧ (UInt32.ofNat i).toNat = i := by
    intro n i hi
    have hlt := n.toNat_lt
    have hnat : (UInt32.ofNat i).toNat = i := by
      rw [UInt32.toNat_ofNat', Nat.mod_eq_of_lt (by omega)]
    exact ⟨by rw [UInt32.lt_iff_toNat_lt, hnat]; exact hi, hnat⟩
  have hmod : nHeads % nKvHeads = 0 := by
    rw [← UInt32.toNat_inj, UInt32.toNat_mod, Nat.mod_eq_zero_of_dvd hdvd]
    rfl
  unfold causalAttention
  dsimp only
  rw [if_neg (by simp [hseq, hheads, hkv, hdim]), if_neg (by simp [hmod]),
    if_neg (UInt32.not_lt.mpr hle)]
  have hout : ∀ h ∈ List.range nHeads.toNat,
      attendHead ops (fun d => q[h * headDim.toNat + d]?)
        (fun t d => kCache[kvIndex nHeads nKvHeads headDim maxSeqLen (.ofNat h) (.ofNat t)
          (.ofNat d)]?)
        (fun t d => vCache[kvIndex nHeads nKvHeads headDim maxSeqLen (.ofNat h) (.ofNat t)
          (.ofNat d)]?)
        seqLen.toNat headDim.toNat scale =
      attendHead ops (fun d => q[h * headDim.toNat + d]?)
        (fun t d => (ks t)[(kvHead nHeads nKvHeads (.ofNat h)).toNat * headDim.toNat + d]?)
        (fun t d => (vs t)[(kvHead nHeads nKvHeads (.ofNat h)).toNat * headDim.toNat + d]?)
        seqLen.toNat headDim.toNat scale := by
    intro h hh
    obtain ⟨hh', -⟩ := hrange _ _ (List.mem_range.mp hh)
    refine attendHead_congr (fun t ht d hd => ?_) (fun t ht d hd => ?_)
    · obtain ⟨ht', htn⟩ := hrange _ _ ht
      obtain ⟨hd', hdn⟩ := hrange _ _ hd
      have := (hreads _ _ _ hh' ht' hd').1
      rwa [htn, hdn] at this
    · obtain ⟨ht', htn⟩ := hrange _ _ ht
      obtain ⟨hd', hdn⟩ := hrange _ _ hd
      have := (hreads _ _ _ hh' ht' hd').2
      rwa [htn, hdn] at this
  rw [mapM_congr_of_mem hout, attendVectors]

end HeteroAccel
