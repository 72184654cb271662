import HeteroAccel.HydroXL.TensorOps
import HeteroAccel.Lib.TreeReduction
import HeteroAccel.Lib.Workgroups

/-!
# The compute shaders

The four shaders of `src/shaders` that the Vulkan engine runs, each on workgroups of 256 threads. A
statement that reads numbers and stores one is a step of a thread; what a thread computes without
numbers, its indices and the rounds of its loops, does not depend on the memory and is computed in
advance. A loop counter is a 32-bit number that grows by 256: from some length on it wraps around in
front of the end, so that the loop goes on forever and the kernel is `none`.

## Main definitions

* `ShaderOps`: the floating-point operations of a shader;
* `ShaderLoc`: the buffers, the shared memory of a workgroup and the variables of a thread;
* `Shaders.hydroxlMatvec`, `Shaders.hydroxlRmsnorm`, `Shaders.hydroxlElemwise`,
  `Shaders.hydroxlSoftmax`: the kernels;
* `ShaderCall`: a dispatch of one of them, as `VulkanTensorOps` makes it.
-/

namespace HeteroAccel

open Interleaving (Action)
open TreeReduction (halves reduce stride)
open Workgroups (Kernel)

/-- The floating-point operations of a shader. -/
structure ShaderOps (α : Type) where
  lit : ℚ → α
  /-- `float` of an unsigned number. -/
  ofUInt32 : UInt32 → α
  add : α → α → α
  sub : α → α → α
  mul : α → α → α
  div : α → α → α
  neg : α → α
  exp : α → α
  max : α → α → α
  inversesqrt : α → α

/-- Rational arithmetic in the shaders. -/
def rationalShaderOps : ShaderOps ℚ where
  lit q := q
  ofUInt32 n := n.toNat
  add := (· + ·)
  sub := (· - ·)
  mul := (· * ·)
  div := (· / ·)
  neg := rationalOps.neg
  exp := rationalOps.exp
  max := (· ⊔ ·)
  inversesqrt x := 1 / rationalOps.sqrt x

/-- The variables of a thread that hold numbers. -/
inductive ShaderVar where
  | sum | ss | v | rms | mx | vmax | sm | invSum | gate
  deriving DecidableEq, Repr

/-- Where numbers are stored. -/
inductive ShaderLoc where
  /-- An element of the buffer that is bound with the number. -/
  | buffer (binding i : ℕ)
  /-- An element of the shared array of a workgroup. -/
  | shared (group i : ℕ)
  | var (group tid : ℕ) (x : ShaderVar)
  deriving DecidableEq, Repr

namespace Shaders

variable {α : Type} (gpu : ShaderOps α)

/-- The values of `i` in `for (uint i = tid; i < n; i += 256)`, if the loop ends within so many
rounds. -/
def counter (n : UInt32) : ℕ → UInt32 → Option (List UInt32)
  | 0, _ => none
  | fuel + 1, i => if i < n then (counter n fuel (i + 256)).map (i :: ·) else some []

/-- The loop of each of the 256 threads. -/
def counters (n : UInt32) : Option (List (List UInt32)) :=
  (List.range 256).mapM fun tid => counter n (n.toNat + 1) (.ofNat tid)

/-- The rounds of a thread, when all loops end. -/
def roundsOf (loops : List (List UInt32)) (tid : ℕ) : List UInt32 := loops.getD tid []

/-- A round of the loop over the shared array. -/
def reductionRound (op : α → α → α) (group s tid : ℕ) : List (Action ShaderLoc α) :=
  if tid < s then [.assign₂ (.shared group tid) (.shared group tid) (.shared group (tid + s)) op]
  else []

/-- The loop `for (uint s = 128; s > 0; s >>= 1)`, with a barrier in each round. -/
def reduction (op : α → α → α) (group : ℕ) : List (ℕ → List (Action ShaderLoc α)) :=
  (halves 8).map (reductionRound op group)

/-! ### `hydroxl_matvec.comp` -/

/-- The product of a part of the row with a part of `x`; `base` is where the row begins. -/
def matvecLoad (base : UInt32) (ks : ℕ → List UInt32) (group tid : ℕ) :
    List (Action ShaderLoc α) :=
  .assign (.var group tid .sum) (gpu.lit 0) ::
    (ks tid).flatMap (fun k =>
      [.assign₃ (.var group tid .sum) (.var group tid .sum) (.buffer 0 (base + k).toNat)
        (.buffer 1 k.toNat) fun sum a x => gpu.add sum (gpu.mul a x)]) ++
    [.assign₁ (.shared group tid) (.var group tid .sum) id]

/-- The first thread stores the sum. -/
def matvecStore (row : UInt32) (group tid : ℕ) : List (Action ShaderLoc α) :=
  if tid = 0 then [.assign₁ (.buffer 2 row.toNat) (.shared group 0) id] else []

/-- `main`. -/
def matvecMain (mRows kCols : UInt32) (ks : ℕ → List UInt32) (group : ℕ) :
    List (ℕ → List (Action ShaderLoc α)) :=
  let row : UInt32 := .ofNat group
  if row ≥ mRows then []
  else
    let base := row * kCols
    matvecLoad gpu base ks group :: reduction gpu.add group ++ [matvecStore row group]

/-- The dispatch: a workgroup for each row. -/
def hydroxlMatvec (mRows kCols : UInt32) : Option (Kernel ShaderLoc α) :=
  (counters kCols).map fun loops =>
    { groups := mRows.toNat
      threads := 256
      main := matvecMain gpu mRows kCols (roundsOf loops) }

/-! ### `hydroxl_rmsnorm.comp` -/

/-- The squares. -/
def rmsnormLoad (is : ℕ → List UInt32) (group tid : ℕ) : List (Action ShaderLoc α) :=
  .assign (.var group tid .ss) (gpu.lit 0) ::
    (is tid).flatMap (fun i =>
      [.assign₁ (.var group tid .v) (.buffer 0 i.toNat) id,
        .assign₂ (.var group tid .ss) (.var group tid .ss) (.var group tid .v) fun ss v =>
          gpu.add ss (gpu.mul v v)]) ++
    [.assign₁ (.shared group tid) (.var group tid .ss) id]

/-- Every thread computes the root, and stores its part of the result. -/
def rmsnormStore (n : UInt32) (eps : α) (is : ℕ → List UInt32) (group tid : ℕ) :
    List (Action ShaderLoc α) :=
  .assign₁ (.var group tid .rms) (.shared group 0) (fun sum =>
      gpu.inversesqrt (gpu.add (gpu.div sum (gpu.ofUInt32 n)) eps)) ::
    (is tid).flatMap fun i =>
      [.assign₃ (.buffer 2 i.toNat) (.buffer 0 i.toNat) (.var group tid .rms) (.buffer 1 i.toNat)
        fun x rms weight => gpu.mul (gpu.mul x rms) weight]

/-- `main`. -/
def rmsnormMain (n : UInt32) (eps : α) (is : ℕ → List UInt32) (group : ℕ) :
    List (ℕ → List (Action ShaderLoc α)) :=
  rmsnormLoad gpu is group :: reduction gpu.add group ++ [rmsnormStore gpu n eps is group]

/-- The dispatch: one workgroup. -/
def hydroxlRmsnorm (n : UInt32) (eps : α) : Option (Kernel ShaderLoc α) :=
  (counters n).map fun loops =>
    { groups := 1
      threads := 256
      main := rmsnormMain gpu n eps (roundsOf loops) }

/-! ### `hydroxl_elemwise.comp` -/

/-- `v / (1.0 + exp(-v))`. -/
def silu (v : α) : α := gpu.div v (gpu.add (gpu.lit 1) (gpu.exp (gpu.neg v)))

/-- The element of a thread. -/
def elemwiseStore (n opType : UInt32) (group tid : ℕ) : List (Action ShaderLoc α) :=
  let i : UInt32 := .ofNat group * 256 + .ofNat tid
  if i ≥ n then []
  else if opType = 0 then
    [.assign₂ (.buffer 2 i.toNat) (.buffer 0 i.toNat) (.buffer 1 i.toNat) gpu.add]
  else if opType = 1 then
    [.assign₁ (.var group tid .v) (.buffer 0 i.toNat) id,
      .assign₁ (.buffer 2 i.toNat) (.var group tid .v) (silu gpu)]
  else
    [.assign₁ (.var group tid .gate) (.buffer 0 i.toNat) id,
      .assign₂ (.buffer 2 i.toNat) (.var group tid .gate) (.buffer 1 i.toNat) fun gate b =>
        gpu.mul (silu gpu gate) b]

/-- The dispatch: a thread for each element, and no barrier. -/
def hydroxlElemwise (n opType : UInt32) : Kernel ShaderLoc α where
  groups := ((n + 255) / 256).toNat
  threads := 256
  main group := [elemwiseStore gpu n opType group]

/-! ### `hydroxl_softmax.comp` -/

/-- The maximum of a part. -/
def softmaxLoadMax (is : ℕ → List UInt32) (group tid : ℕ) : List (Action ShaderLoc α) :=
  .assign (.var group tid .mx) (gpu.lit (-10 ^ 38)) ::
    (is tid).flatMap (fun i =>
      [.assign₂ (.var group tid .mx) (.var group tid .mx) (.buffer 0 i.toNat) gpu.max]) ++
    [.assign₁ (.shared group tid) (.var group tid .mx) id]

/-- A thread of `softmax` reads the maximum that the group has found. -/
def softmaxReadMax (group tid : ℕ) : List (Action ShaderLoc α) :=
  [.assign₁ (.var group tid .vmax) (.shared group 0) id]

/-- The exponential in the place of a number, which is added to the sum. -/
def softmaxExpRound (group tid : ℕ) (i : UInt32) : List (Action ShaderLoc α) :=
  [.assign₂ (.buffer 0 i.toNat) (.buffer 0 i.toNat) (.var group tid .vmax) fun x vmax =>
      gpu.exp (gpu.sub x vmax),
    .assign₂ (.var group tid .sm) (.var group tid .sm) (.buffer 0 i.toNat) gpu.add]

/-- The exponentials and the sum of a part. -/
def softmaxLoadExp (is : ℕ → List UInt32) (group tid : ℕ) : List (Action ShaderLoc α) :=
  .assign (.var group tid .sm) (gpu.lit 0) :: (is tid).flatMap (softmaxExpRound gpu group tid) ++
    [.assign₁ (.shared group tid) (.var group tid .sm) id]

/-- A thread of `softmax` divides its elements by the sum that the group has found. -/
def softmaxStore (is : ℕ → List UInt32) (group tid : ℕ) : List (Action ShaderLoc α) :=
  .assign₁ (.var group tid .invSum) (.shared group 0) (fun sum => gpu.div (gpu.lit 1) sum) ::
    (is tid).flatMap fun i =>
      [.assign₂ (.buffer 0 i.toNat) (.buffer 0 i.toNat) (.var group tid .invSum) gpu.mul]

/-- `main`. The barrier behind `softmaxReadMax` keeps the shared array until all threads have read
the maximum. -/
def softmaxMain (is : ℕ → List UInt32) (group : ℕ) : List (ℕ → List (Action ShaderLoc α)) :=
  softmaxLoadMax gpu is group :: reduction gpu.max group ++ softmaxReadMax group ::
    softmaxLoadExp gpu is group :: reduction gpu.add group ++ [softmaxStore gpu is group]

/-- The dispatch: one workgroup. -/
def hydroxlSoftmax (n : UInt32) : Option (Kernel ShaderLoc α) :=
  (counters n).map fun loops =>
    { groups := 1
      threads := 256
      main := softmaxMain gpu (roundsOf loops) }

end Shaders

/-! ## Dispatches -/

/-- A shader with its push constants. -/
inductive ShaderCall (α : Type) where
  | matvec (mRows kCols : UInt32)
  | rmsnorm (n : UInt32) (eps : α)
  | elemwise (n opType : UInt32)
  | softmax (n : UInt32)

namespace ShaderCall

variable {α : Type} (gpu : ShaderOps α)

/-- What is dispatched; `none` when threads never end. -/
def kernel : ShaderCall α → Option (Kernel ShaderLoc α)
  | matvec mRows kCols => Shaders.hydroxlMatvec gpu mRows kCols
  | rmsnorm n eps => Shaders.hydroxlRmsnorm gpu n eps
  | elemwise n opType => some (Shaders.hydroxlElemwise gpu n opType)
  | softmax n => Shaders.hydroxlSoftmax gpu n

/-- The elements of each buffer that are bound. -/
def bufferSize : ShaderCall α → ℕ → ℕ
  | matvec mRows kCols, 0 => mRows.toNat * kCols.toNat
  | matvec _ kCols, 1 => kCols.toNat
  | matvec mRows _, 2 => mRows.toNat
  | rmsnorm n _, 0 | rmsnorm n _, 1 | rmsnorm n _, 2 => n.toNat
  | elemwise n _, 0 | elemwise n _, 1 | elemwise n _, 2 => n.toNat
  | softmax n, 0 => n.toNat
  | _, _ => 0

/-- The buffer that is downloaded. -/
def output : ShaderCall α → ℕ
  | softmax _ => 0
  | _ => 2

/-- The number of threads' rounds, or of threads, does not wrap, and neither do the elements of a
matrix. -/
def InRange : ShaderCall α → Prop
  | matvec mRows kCols => kCols.toNat ≤ 2 ^ 32 - 256 ∧ mRows.toNat * kCols.toNat ≤ 2 ^ 32
  | rmsnorm n _ => n.toNat ≤ 2 ^ 32 - 256
  | elemwise n _ => n.toNat ≤ 2 ^ 32 - 256
  | softmax n => n.toNat ≤ 2 ^ 32 - 256

/-- No thread reads or writes beyond a buffer. -/
def Within (size : ℕ → ℕ) (K : Kernel ShaderLoc α) : Prop :=
  ∀ g < K.groups, ∀ phase ∈ K.main g, ∀ t < K.threads, ∀ a ∈ phase t, ∀ b i,
    .buffer b i ∈ a.reads ∨ .buffer b i ∈ a.writes → i < size b

/-! ### What the shaders compute -/

/-- The sum over a loop of all threads, as the shaders add it up. -/
def total (n : ℕ) (f : ℕ → α) : α :=
  reduce gpu.add 8 fun t => (stride 256 n t).foldl (fun sum i => gpu.add sum (f i)) (gpu.lit 0)

/-- The maximum over a loop of all threads. -/
def maximum (n : ℕ) (f : ℕ → α) : α :=
  reduce gpu.max 8 fun t =>
    (stride 256 n t).foldl (fun mx i => gpu.max mx (f i)) (gpu.lit (-10 ^ 38))

/-- An element of the output, given the buffers before the dispatch. -/
def value (buf : ℕ → ℕ → α) : ShaderCall α → ℕ → α
  | matvec _ kCols, i =>
    total gpu kCols.toNat fun k => gpu.mul (buf 0 (i * kCols.toNat + k)) (buf 1 k)
  | rmsnorm n eps, i =>
    let ss := total gpu n.toNat fun k => gpu.mul (buf 0 k) (buf 0 k)
    let rms := gpu.inversesqrt (gpu.add (gpu.div ss (gpu.ofUInt32 n)) eps)
    gpu.mul (gpu.mul (buf 0 i) rms) (buf 1 i)
  | elemwise _ opType, i =>
    if opType = 0 then gpu.add (buf 0 i) (buf 1 i)
    else if opType = 1 then Shaders.silu gpu (buf 0 i)
    else gpu.mul (Shaders.silu gpu (buf 0 i)) (buf 1 i)
  | softmax n, i =>
    let vmax := maximum gpu n.toNat (buf 0)
    let exps k := gpu.exp (gpu.sub (buf 0 k) vmax)
    gpu.mul (exps i) (gpu.div (gpu.lit 1) (total gpu n.toNat exps))

end ShaderCall

end HeteroAccel
