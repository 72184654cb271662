import HeteroAccel.HydroXL.OperatorBounds
import HeteroAccel.HydroXL.SamplerReach
import HeteroAccel.HydroXL.ShaderRuns
import Mathlib.Algebra.BigOperators.Intervals
import Mathlib.Algebra.BigOperators.Ring.Finset

/-!
# The compute shaders and the operators of the CPU

Without rounding, a dispatch leaves what the operator of the CPU computes from the same numbers: the
sum that the threads add up in a tree is the sum that `matvec` adds up in four accumulators, and
that `rms_norm` adds up in a double. The shaders multiply with an inverse root and an inverse sum
where the operators divide.

With rounding the results differ, since the additions are made in another order. What is asked of
the functions that leave the field is only that both sides have the same ones.

## Main definitions

* `TensorOps.ExactDoubles`, `ShaderOps.IsExact`: arithmetic without rounding;
* `ShaderCall.host`: the operator of the CPU in the place of a shader.

## Main results

* `matvec_eq`, `rmsNorm_eq`, `residualAdd_eq`, `swiglu_eq`, `softmaxInplace_eq`: the operators in
  terms of sums and maxima;
* `ShaderCall.host_eq`: a dispatch leaves what the CPU computes.
-/

namespace HeteroAccel

open TreeReduction (reduce stride)

variable {α δ : Type}

/-- Doubles do not round either. -/
structure TensorOps.ExactDoubles [Field α] (ops : TensorOps α δ) : Prop where
  zero : ops.toFloat ops.zeroDouble = 0
  mulAdd : ∀ sum x y, ops.toFloat (ops.mulAdd sum x y) = ops.toFloat sum + x * y
  divCount : ∀ sum n, ops.toFloat (ops.divCount sum n) = ops.toFloat sum / n.toNat

theorem exactDoubles_rationalOps : rationalOps.ExactDoubles := by
  constructor <;> intros <;> simp [rationalOps]

/-- The operations of the shaders do not round, and have the functions of the CPU. -/
structure ShaderOps.IsExact [Field α] [LinearOrder α] (gpu : ShaderOps α) (ops : TensorOps α δ) :
    Prop where
  lit : ∀ q : ℚ, gpu.lit q = q
  ofUInt32 : ∀ n, gpu.ofUInt32 n = n.toNat
  add : ∀ x y, gpu.add x y = x + y
  sub : ∀ x y, gpu.sub x y = x - y
  mul : ∀ x y, gpu.mul x y = x * y
  div : ∀ x y, gpu.div x y = x / y
  max : ∀ x y, gpu.max x y = x ⊔ y
  neg : ∀ x, gpu.neg x = ops.neg x
  exp : ∀ x, gpu.exp x = ops.exp x
  inversesqrt : ∀ x, gpu.inversesqrt x = 1 / ops.sqrt x

/-- The shader's rational operations are exact. -/
theorem isExact_rationalShaderOps : rationalShaderOps.IsExact rationalOps := by
  constructor <;> intros <;> simp [rationalShaderOps]

/-! ## Sums -/

section Sums

variable [Field α] [LinearOrder α] {ops : TensorOps α δ} {gpu : ShaderOps α}

/-- The sum that the threads add up. -/
theorem ShaderCall.total_eq (hgpu : gpu.IsExact ops) (n : ℕ) (f : ℕ → α) :
    ShaderCall.total gpu n f = ∑ i ∈ Finset.range n, f i := by
  have hadd : gpu.add = (· + ·) := funext fun x => funext (hgpu.add x)
  have hzero : gpu.lit 0 = 0 := by rw [hgpu.lit, Rat.cast_zero]
  have hreduce := TreeReduction.op_reduce (· + · : α → α → α) (add_zero 0) 8
    fun t => (stride 256 n t).foldl (fun acc i => acc + f i) 0
  have hstride := TreeReduction.fold_stride (· + · : α → α → α) (add_zero 0)
    (by decide : 0 < 256) n f
  rw [ShaderCall.total, hadd, hzero, ← add_zero (reduce _ _ _), Finset.sum_eq_fold]
  exact hreduce.trans hstride

/-- The maximum that the threads find. -/
theorem ShaderCall.maximum_eq (hgpu : gpu.IsExact ops) (n : ℕ) (f : ℕ → α) :
    ShaderCall.maximum gpu n f = (Finset.range n).fold max (gpu.lit (-10 ^ 38)) f := by
  have hmax : gpu.max = max := funext fun x => funext (hgpu.max x)
  have hreduce := TreeReduction.op_reduce (max : α → α → α) (sup_idem (gpu.lit (-10 ^ 38))) 8
    fun t => (stride 256 n t).foldl (fun acc i => max acc (f i)) (gpu.lit (-10 ^ 38))
  have hstride := TreeReduction.fold_stride (max : α → α → α)
    (sup_idem (gpu.lit (-10 ^ 38))) (by decide : 0 < 256) n f
  -- no thread falls below the number that it begins with
  have hthread : ∀ (l : List ℕ) (acc : α), acc ≤ l.foldl (fun acc i => max acc (f i)) acc := by
    intro l
    induction l with
    | nil => exact fun acc => le_refl acc
    | cons i l ih => exact fun acc => le_sup_left.trans (ih (max acc (f i)))
  have hle := (hthread (stride 256 n 0) (gpu.lit (-10 ^ 38))).trans
    (TreeReduction.le_reduce max (fun x y => le_sup_left) 8 fun t =>
      (stride 256 n t).foldl (fun acc i => max acc (f i)) (gpu.lit (-10 ^ 38)))
  rw [ShaderCall.maximum, hmax, ← sup_eq_left.mpr hle]
  exact hreduce.trans hstride

end Sums

/-! ## The operators of the CPU -/

/-- A buffer that has elements. -/
theorem ne_nil_of_getElem? {x : List α} {f : ℕ → α} {n : ℕ} (hn : 0 < n)
    (hx : ∀ i < n, x[i]? = some (f i)) : x ≠ [] := by
  rintro rfl
  cases hx 0 hn

section Operators

variable [Field α] {ops : TensorOps α δ}

/-- `rms_norm` adds up the squares. -/
theorem sumOfSquares_eq (hdoubles : ops.ExactDoubles) {x : List α} {f : ℕ → α} {n : ℕ}
    (hx : ∀ i < n, x[i]? = some (f i)) : ∃ sum, sumOfSquares ops x n = some sum ∧
      ops.toFloat sum = ∑ i ∈ Finset.range n, f i * f i := by
  refine Buffer.exists_foldlM_range
    (fun k sum => ops.toFloat sum = ∑ i ∈ Finset.range k, f i * f i) (fun i hi sum hsum => ?_)
    hdoubles.zero
  refine ⟨ops.mulAdd sum (f i) (f i), by rw [hx i hi]; rfl, ?_⟩
  rw [hdoubles.mulAdd, hsum, Finset.sum_range_succ]

variable [LinearOrder α] {gpu : ShaderOps α}

/-- `rms_norm`. -/
theorem rmsNorm_eq (hops : ops.IsExact) (hdoubles : ops.ExactDoubles) {x weight out : List α}
    {f w : ℕ → α} {n : UInt32} (eps : α) (hn : n ≠ 0) (hx : ∀ i < n.toNat, x[i]? = some (f i))
    (hweight : ∀ i < n.toNat, weight[i]? = some (w i)) (hout : out.length = n.toNat) :
    rmsNorm ops x weight out n eps = some (true, (List.range n.toNat).map fun i =>
      f i * (1 / ops.sqrt ((∑ k ∈ Finset.range n.toNat, f k * f k) / n.toNat + eps)) * w i) := by
  have hpos : 0 < n.toNat := pos_of_ne_zero hn
  have hnonempty : ¬(x = [] ∨ weight = [] ∨ out = [] ∨ n = 0) := by
    rintro (h | h | rfl | h)
    · exact ne_nil_of_getElem? hpos hx h
    · exact ne_nil_of_getElem? hpos hweight h
    · exact hpos.ne hout
    · exact hn h
  obtain ⟨sum, hsum, hvalue⟩ := sumOfSquares_eq hdoubles hx
  rw [rmsNorm, if_neg hnonempty, hsum, Option.bind_eq_bind, Option.bind_some]
  dsimp only
  rw [Buffer.update_eq_mapM _ hout, Buffer.mapM_eq_map (g := fun i =>
      f i * (1 / ops.sqrt ((∑ k ∈ Finset.range n.toNat, f k * f k) / n.toNat + eps)) * w i)]
  · rfl
  · intro i hi
    have hlt := List.mem_range.mp hi
    rw [normElement, hx i hlt, hweight i hlt]
    simp only [Option.bind_eq_bind, Option.bind_some, hops.mul, hops.div, hops.add,
      TensorOps.one, hops.lit, Rat.cast_one, hdoubles.divCount, hvalue]

/-- A row of `matvec`: the four accumulators have the sum of their elements. -/
theorem matvecRow_eq (hops : ops.IsExact) {row : ℕ → Option α} {x : List α} {r f : ℕ → α}
    {kCols : UInt32} (hcols : kCols.toNat < 2 ^ 32 - 4)
    (hrow : ∀ k < kCols.toNat, row k = some (r k))
    (hx : ∀ k < kCols.toNat, x[k]? = some (f k)) :
    matvecRow ops row x kCols = some (∑ k ∈ Finset.range kCols.toNat, r k * f k) := by
  have hproduct : ∀ k < kCols.toNat, rowProduct ops row x k = some (r k * f k) := by
    intro k hk
    rw [rowProduct, hrow k hk, hx k hk]
    exact congrArg some (hops.mul _ _)
  have hfour : 4 * (kCols.toNat / 4) ≤ kCols.toNat := Nat.mul_div_le _ _
  have hzero : ops.zero = 0 := HydroXLSampler.zero_eq hops
  obtain ⟨a, ha, hsum⟩ := Buffer.exists_foldlM_range (n := kCols.toNat / 4)
    (f := fun (a : Accumulators α) i => do
      let k := 4 * i
      some
        { acc0 := ops.add a.acc0 (← rowProduct ops row x (k + 0))
          acc1 := ops.add a.acc1 (← rowProduct ops row x (k + 1))
          acc2 := ops.add a.acc2 (← rowProduct ops row x (k + 2))
          acc3 := ops.add a.acc3 (← rowProduct ops row x (k + 3)) })
    (b := { acc0 := ops.zero, acc1 := ops.zero, acc2 := ops.zero, acc3 := ops.zero })
    (fun i a => a.acc0 + a.acc1 + (a.acc2 + a.acc3) = ∑ k ∈ Finset.range (4 * i), r k * f k)
    (by
      intro i hi a ha
      dsimp only
      rw [hproduct _ (by omega), hproduct _ (by omega), hproduct _ (by omega),
        hproduct _ (by omega)]
      refine ⟨_, rfl, ?_⟩
      simp only [hops.add]
      rw [Nat.mul_succ, Finset.sum_range_succ, Finset.sum_range_succ, Finset.sum_range_succ,
        Finset.sum_range_succ, ← ha, Nat.add_zero]
      ring)
    (by simp [hzero])
  -- the rest of the row
  obtain ⟨acc, hacc, hrest⟩ := Buffer.exists_foldlM_range (n := kCols.toNat % 4)
    (f := fun acc k => do
      some (ops.add acc (← rowProduct ops row x (4 * (kCols.toNat / 4) + k))))
    (b := ops.add (ops.add a.acc0 a.acc1) (ops.add a.acc2 a.acc3))
    (fun i acc => acc = ∑ k ∈ Finset.range (4 * (kCols.toNat / 4) + i), r k * f k)
    (by
      rintro i hi acc rfl
      rw [hproduct _ (by omega)]
      refine ⟨_, rfl, ?_⟩
      rw [hops.add, ← Nat.add_assoc, Finset.sum_range_succ])
    (by rw [hops.add, hops.add, hops.add, hsum, Nat.add_zero])
  rw [matvecRow, if_neg (not_le.mpr hcols), ha, Option.bind_eq_bind, Option.bind_some,
    List.range'_eq_map_range, List.foldlM_map, hacc, hrest, Nat.div_add_mod]

/-- `matvec`. -/
theorem matvec_eq (hops : ops.IsExact) {a x out : List α} {A f : ℕ → α} {mRows kCols : UInt32}
    (hrows : mRows ≠ 0) (hcols : kCols ≠ 0) (hlt : kCols.toNat < 2 ^ 32 - 4)
    (ha : ∀ i < mRows.toNat * kCols.toNat, a[i]? = some (A i))
    (hx : ∀ k < kCols.toNat, x[k]? = some (f k)) (hout : out.length = mRows.toNat) :
    matvec ops a x out mRows kCols = some (true, (List.range mRows.toNat).map fun i =>
      ∑ k ∈ Finset.range kCols.toNat, A (i * kCols.toNat + k) * f k) := by
  have hnonempty : ¬(a = [] ∨ x = [] ∨ out = [] ∨ mRows = 0 ∨ kCols = 0) := by
    rintro (h | h | rfl | h | h)
    · exact ne_nil_of_getElem? (Nat.mul_pos (pos_of_ne_zero hrows) (pos_of_ne_zero hcols)) ha h
    · exact ne_nil_of_getElem? (pos_of_ne_zero hcols) hx h
    · exact (pos_of_ne_zero hrows).ne hout
    · exact hrows h
    · exact hcols h
  rw [matvec, if_neg hnonempty, Buffer.update_eq_mapM _ hout, Buffer.mapM_eq_map
    (g := fun i => ∑ k ∈ Finset.range kCols.toNat, A (i * kCols.toNat + k) * f k)]
  · rfl
  · intro i hi
    refine matvecRow_eq hops hlt (fun k hk => ha _ ?_) hx
    calc i * kCols.toNat + k < i * kCols.toNat + kCols.toNat := Nat.add_lt_add_left hk _
      _ = (i + 1) * kCols.toNat := (Nat.succ_mul _ _).symm
      _ ≤ mRows.toNat * kCols.toNat := Nat.mul_le_mul_right _ (List.mem_range.mp hi)

/-- `residual_add`. -/
theorem residualAdd_eq (hops : ops.IsExact) {a b : List α} {f g : ℕ → α} {n : UInt32}
    (ha : ∀ i < n.toNat, a[i]? = some (f i)) (hb : ∀ i < n.toNat, b[i]? = some (g i))
    (hlength : a.length = n.toNat) :
    residualAdd ops a b n = some ((List.range n.toNat).map fun i => f i + g i) := by
  have hvalues : Buffer.values 0 n.toNat (fun i ai => do some (ops.add ai (← b[i]?))) a =
      some ((List.range n.toNat).map fun i => f i + g i) := by
    refine Buffer.mapM_eq_map fun i hi => ?_
    have hlt := List.mem_range.mp hi
    rw [Nat.zero_add, ha i hlt, Option.bind_eq_bind, Option.bind_some]
    dsimp only
    rw [hb i hlt]
    exact congrArg some (hops.add _ _)
  rw [residualAdd, Buffer.update_eq (by omega), hvalues, Option.map_some,
    Buffer.blit_zero_of_length_eq (by simp [hlength])]

/-- `swiglu`. -/
theorem swiglu_eq (hops : ops.IsExact) {gate up out : List α} {f g : ℕ → α} {n : UInt32}
    (hgate : ∀ i < n.toNat, gate[i]? = some (f i)) (hup : ∀ i < n.toNat, up[i]? = some (g i))
    (hlength : out.length = n.toNat) :
    swiglu ops gate up out n = some ((List.range n.toNat).map fun i =>
      f i / (1 + ops.exp (ops.neg (f i))) * g i) := by
  rw [swiglu, Buffer.update_eq_mapM _ hlength]
  refine Buffer.mapM_eq_map fun i hi => ?_
  have hlt := List.mem_range.mp hi
  rw [swigluElement, hgate i hlt, hup i hlt]
  simp only [Option.bind_eq_bind, Option.bind_some, hops.mul, hops.div, hops.add, TensorOps.one,
    hops.lit, Rat.cast_one]

/-- Exponentials are positive, and the one of a sum is the product. -/
structure TensorOps.Exponential (ops : TensorOps α δ) : Prop where
  pos : ∀ x, 0 < ops.exp x
  add : ∀ x y, ops.exp (x + y) = ops.exp x * ops.exp y

/-- Subtracting another number before the exponentials are taken leaves their shares as they are. -/
theorem TensorOps.Exponential.div_sum_sub [IsStrictOrderedRing α] (hexp : ops.Exponential)
    (f : ℕ → α) (n i : ℕ) (c d : α) :
    ops.exp (f i - c) / ∑ k ∈ Finset.range n, ops.exp (f k - c) =
      ops.exp (f i - d) / ∑ k ∈ Finset.range n, ops.exp (f k - d) := by
  have hshift (k : ℕ) : ops.exp (f k - c) = ops.exp (f k - d) * ops.exp (d - c) := by
    rw [← hexp.add, sub_add_sub_cancel]
  have hsum : ∑ k ∈ Finset.range n, ops.exp (f k - c) =
      (∑ k ∈ Finset.range n, ops.exp (f k - d)) * ops.exp (d - c) := by
    rw [Finset.sum_mul]
    exact Finset.sum_congr rfl fun k _ => hshift k
  rw [hsum, hshift, mul_div_mul_right _ _ (hexp.pos _).ne']

/-- `softmax_inplace`, whatever number is subtracted in the place of the maximum. -/
theorem softmaxInplace_eq [IsStrictOrderedRing α] (hops : ops.IsExact) (hexp : ops.Exponential)
    (f : ℕ → α) (n : ℕ) (c : α) :
    ops.softmaxInplace ((List.range n).map f) = (List.range n).map fun i =>
      ops.exp (f i - c) / ∑ k ∈ Finset.range n, ops.exp (f k - c) := by
  rcases n.eq_zero_or_pos with rfl | hn
  · rfl
  obtain ⟨x₀, xs, hlist⟩ : ∃ x₀ xs, (List.range n).map f = x₀ :: xs :=
    List.exists_cons_of_ne_nil (List.ne_nil_of_length_pos (by simpa using hn))
  set M := (ops.maxElement x₀ xs).1 with hM
  have hexps : ((x₀ :: xs).map fun x => ops.exp (ops.sub x M)) =
      (List.range n).map fun i => ops.exp (f i - M) := by
    rw [← hlist, List.map_map]
    exact List.map_congr_left fun i _ => congrArg ops.exp (hops.sub _ _)
  have hsum : ops.sum ((List.range n).map fun i => ops.exp (f i - M)) =
      ∑ k ∈ Finset.range n, ops.exp (f k - M) := HydroXLSampler.sum_eq hops _
  have hpos : 0 < ∑ k ∈ Finset.range n, ops.exp (f k - M) :=
    Finset.sum_pos (fun k _ => hexp.pos _) ⟨0, Finset.mem_range.mpr hn⟩
  rw [hlist, TensorOps.softmaxInplace, ← hM, hexps, hsum, HydroXLSampler.zero_eq hops, hops.lt,
    if_pos (decide_eq_true hpos), List.map_map]
  refine List.map_congr_left fun i _ => (hops.div _ _).trans ?_
  exact hexp.div_sum_sub f n i M c

end Operators

/-! ## The values of the shaders -/

namespace ShaderCall

variable [Field α] [LinearOrder α] {ops : TensorOps α δ} {gpu : ShaderOps α}
  {buf : ℕ → ℕ → α} {n : UInt32} {i : ℕ}

/-- With exact arithmetic `matvec` computes a sum of products. -/
theorem value_matvec (hgpu : gpu.IsExact ops) {mRows kCols : UInt32} :
    (matvec mRows kCols).value gpu buf i =
      ∑ k ∈ Finset.range kCols.toNat, buf 0 (i * kCols.toNat + k) * buf 1 k := by
  rw [value, total_eq hgpu]
  exact Finset.sum_congr rfl fun k _ => hgpu.mul _ _

/-- With exact arithmetic `rmsnorm` divides by the root of the mean square. -/
theorem value_rmsnorm (hgpu : gpu.IsExact ops) {eps : α} :
    (rmsnorm n eps).value gpu buf i =
      buf 0 i * (1 / ops.sqrt ((∑ k ∈ Finset.range n.toNat, buf 0 k * buf 0 k) / n.toNat + eps)) *
        buf 1 i := by
  simp only [value, total_eq hgpu, hgpu.mul, hgpu.inversesqrt, hgpu.add, hgpu.div, hgpu.ofUInt32]

/-- With exact arithmetic the residual operator computes a sum. -/
theorem value_residual (hgpu : gpu.IsExact ops) :
    (elemwise n 0).value gpu buf i = buf 0 i + buf 1 i := by
  rw [value, if_pos rfl, hgpu.add]

/-- With exact arithmetic `swiglu` computes its formula. -/
theorem value_swiglu (hgpu : gpu.IsExact ops) :
    (elemwise n 2).value gpu buf i =
      buf 0 i / (1 + ops.exp (ops.neg (buf 0 i))) * buf 1 i := by
  rw [value, if_neg (by decide), if_neg (by decide), Shaders.silu]
  simp only [hgpu.mul, hgpu.div, hgpu.add, hgpu.exp, hgpu.neg, hgpu.lit, Rat.cast_one]

/-- With exact arithmetic `softmax` computes its formula, where the maximum starts at -10^38. -/
theorem value_softmax (hgpu : gpu.IsExact ops) :
    (softmax n).value gpu buf i =
      ops.exp (buf 0 i - (Finset.range n.toNat).fold max (gpu.lit (-10 ^ 38)) (buf 0)) /
        ∑ k ∈ Finset.range n.toNat, ops.exp
          (buf 0 k - (Finset.range n.toNat).fold max (gpu.lit (-10 ^ 38)) (buf 0)) := by
  simp only [value, total_eq hgpu, maximum_eq hgpu, hgpu.mul, hgpu.div, hgpu.exp, hgpu.sub]
  rw [hgpu.lit 1, Rat.cast_one, mul_one_div]

/-! ## Both sides -/

/-- The operator of the CPU on the same buffers; for `op_type = 1` there is none. -/
def host (ops : TensorOps α δ) (bufs : ℕ → List α) : ShaderCall α → Option (List α)
  | matvec mRows kCols =>
    (HeteroAccel.matvec ops (bufs 0) (bufs 1) (bufs 2) mRows kCols).map Prod.snd
  | rmsnorm n eps => (rmsNorm ops (bufs 0) (bufs 1) (bufs 2) n eps).map Prod.snd
  | elemwise n opType =>
    if opType = 0 then residualAdd ops (bufs 0) (bufs 1) n
    else if opType = 2 then swiglu ops (bufs 0) (bufs 1) (bufs 2) n
    else none
  | softmax _ => some (ops.softmaxInplace (bufs 0))

/-- Where both sides are to agree: there is something to compute, the CPU has the operation, and for
the softmax the exponential is one. -/
def Comparable (ops : TensorOps α δ) : ShaderCall α → Prop
  | matvec mRows kCols => mRows ≠ 0 ∧ kCols ≠ 0
  | rmsnorm n _ => n ≠ 0
  | elemwise _ opType => opType = 0 ∨ opType = 2
  | softmax _ => ops.Exponential

/-- The operator of the CPU gives the values of the dispatch. -/
theorem host_eq_value [IsStrictOrderedRing α] (hops : ops.IsExact) (hdoubles : ops.ExactDoubles)
    (hgpu : gpu.IsExact ops) {call : ShaderCall α} (h : call.InRange) {bufs : ℕ → List α}
    (hlength : ∀ b, (bufs b).length = call.bufferSize b) (hcomparable : call.Comparable ops)
    (hbuf : ∀ b, ∀ i < call.bufferSize b, (bufs b)[i]? = some (buf b i)) :
    call.host ops bufs =
      some ((List.range (call.bufferSize call.output)).map (call.value gpu buf)) := by
  cases call with
  | matvec mRows kCols =>
    obtain ⟨hrows, hcols⟩ := hcomparable
    have hlt : kCols.toNat < 2 ^ 32 - 4 := h.1.trans_lt (by decide)
    rw [host, matvec_eq hops hrows hcols hlt (hbuf 0) (hbuf 1) (hlength 2)]
    exact congrArg some (List.map_congr_left fun i _ => (value_matvec hgpu).symm)
  | rmsnorm n eps =>
    rw [host, rmsNorm_eq hops hdoubles eps hcomparable (hbuf 0) (hbuf 1) (hlength 2)]
    exact congrArg some (List.map_congr_left fun i _ => (value_rmsnorm hgpu).symm)
  | elemwise n opType =>
    rcases hcomparable with rfl | rfl
    · rw [host, if_pos rfl, residualAdd_eq hops (hbuf 0) (hbuf 1) (hlength 0)]
      exact congrArg some (List.map_congr_left fun i _ => (value_residual hgpu).symm)
    · rw [host, if_neg (by decide), if_pos rfl, swiglu_eq hops (hbuf 0) (hbuf 1) (hlength 2)]
      exact congrArg some (List.map_congr_left fun i _ => (value_swiglu hgpu).symm)
  | softmax n =>
    have hlist : bufs 0 = (List.range n.toNat).map (buf 0) := by
      refine List.ext_getElem? fun i => ?_
      by_cases hi : i < n.toNat
      · rw [hbuf 0 i hi, List.getElem?_map, List.getElem?_range hi, Option.map_some]
      · rw [List.getElem?_eq_none ((hlength 0).trans_le (not_lt.mp hi)),
          List.getElem?_eq_none (by simpa using hi)]
    -- the shader's maximum may be the number it begins with, which changes no share
    rw [host, hlist, softmaxInplace_eq hops hcomparable (buf 0) n.toNat
      ((Finset.range n.toNat).fold max (gpu.lit (-10 ^ 38)) (buf 0))]
    exact congrArg some (List.map_congr_left fun i _ => (value_softmax hgpu).symm)

/-- **A dispatch computes what the CPU computes**, without rounding and however its threads are
scheduled. -/
theorem host_eq [IsStrictOrderedRing α] (hops : ops.IsExact) (hdoubles : ops.ExactDoubles)
    (hgpu : gpu.IsExact ops) {call : ShaderCall α} (h : call.InRange) {bufs : ℕ → List α}
    (hlength : ∀ b, (bufs b).length = call.bufferSize b) (hcomparable : call.Comparable ops) :
    ∃ K out, call.kernel gpu = some K ∧ call.host ops bufs = some out ∧ ∀ m₀,
      (∀ b, ∀ i < call.bufferSize b, (bufs b)[i]? = some (m₀ (.buffer b i))) →
        K.Ends m₀ fun m => out =
          (List.range (call.bufferSize call.output)).map fun i => m (.buffer call.output i) := by
  obtain ⟨K, L, limits, hruns⟩ := exists_runs gpu call h
  have hbuf : ∀ b, ∀ i < call.bufferSize b, (bufs b)[i]? = some ((bufs b).getD i 0) := by
    intro b i hi
    rw [List.getD_eq_getElem?_getD, List.getElem?_eq_getElem ((hlength b).symm ▸ hi),
      Option.getD_some]
  refine ⟨K, _, hruns.kernel, host_eq_value hops hdoubles hgpu h hlength hcomparable hbuf,
    fun m₀ hm₀ => (hruns.ends gpu m₀).mono fun m hm => ?_⟩
  have hvalues := (host_eq_value hops hdoubles hgpu h hlength hcomparable hbuf).symm.trans
    (host_eq_value hops hdoubles hgpu h hlength hcomparable hm₀)
  refine (Option.some.inj hvalues).trans (List.map_congr_left fun i hi => ?_)
  rw [hm, if_pos ⟨rfl, List.mem_range.mp hi⟩]

/-- A matrix of 2 rows and 2 columns. -/
theorem host_eq_matvec : ∃ K out, (matvec 2 2).kernel rationalShaderOps = some K ∧
    (matvec 2 2).host rationalOps (fun b => [[1, 2, 3, 4], [5, 6], [0, 0]].getD b []) = some out ∧
      ∀ m₀ : ShaderLoc → ℚ, (∀ b, ∀ i < (matvec 2 2 : ShaderCall ℚ).bufferSize b,
        ([[1, 2, 3, 4], [5, 6], [0, 0]].getD b [])[i]? = some (m₀ (.buffer b i))) →
          K.Ends m₀ fun m => out = (List.range 2).map fun i => m (.buffer 2 i) := by
  refine host_eq isExact_rationalOps exactDoubles_rationalOps isExact_rationalShaderOps ?_ ?_ ?_
  · exact ⟨by decide, by decide⟩
  · intro b
    rcases b with _ | _ | _ | b <;> rfl
  · exact ⟨by decide, by decide⟩

end ShaderCall

end HeteroAccel
