import HeteroAccel.Lib.BitFields
import HeteroAccel.Lib.Interleaving
import HeteroAccel.Primitives.Tensor

/-!
# Tensor operations on the CPU

The operations of `CpuOps.cpp` that set a tensor, behind `IBackendExecutor`. An operation checks its
operands, and then runs a loop over the elements; it is modelled by the message of the check that
fails, or by the rounds of its loop. A float is its bit pattern, and lies in four bytes of a buffer.

## Main definitions

* `TensorBytes`, `TensorStep`: the bytes of all buffers, and a round of a loop over them;
* `cpu.copy`, `cpu.fill`, `cpu.add`, `cpu.multiply`, `cpu.scale`: the operations;
* `IBackendExecutor`: the backends that run them.

## Main results

* `runAll_floats`: a loop over the elements sets each float as from the tensors before the loop,
  also when the tensor that is set is one of the operands.
-/

namespace HeteroAccel.Primitives

open Interleaving

/-- The bytes of all buffers. A place is a tensor, by what its pointer is, and an offset. -/
abbrev TensorBytes := ℕ × ℕ → UInt8

/-- A round of the loop of an operation. -/
abbrev TensorStep := Interleaving.Action (ℕ × ℕ) UInt8

/-- Arithmetic on the bit patterns of floats. -/
structure Float32Ops where
  add : UInt32 → UInt32 → UInt32
  mul : UInt32 → UInt32 → UInt32

/-! ## Floats in buffers -/

/-- The places of element `i` of a tensor of floats. -/
def floatPlaces (t i : ℕ) : List (ℕ × ℕ) := (List.range 4).map fun k => (t, 4 * i + k)

/-- `p[i]`, for a pointer to the floats of a tensor. -/
def readFloat (m : TensorBytes) (t i : ℕ) : UInt32 :=
  UInt32.ofNat (Bytes.toNat ((floatPlaces t i).map m))

/-- One of the four bytes of a float. -/
def floatByte (v : UInt32) (k : ℕ) : UInt8 := (Bytes.ofNat 4 v.toNat).getD k 0

theorem mem_floatPlaces {t i : ℕ} {l : ℕ × ℕ} :
    l ∈ floatPlaces t i ↔ l.1 = t ∧ l.2 / 4 = i := by
  obtain ⟨t', j⟩ := l
  simp only [floatPlaces, List.mem_map, List.mem_range, Prod.mk.injEq]
  constructor
  · rintro ⟨k, hk, rfl, rfl⟩
    exact ⟨rfl, by omega⟩
  · rintro ⟨rfl, rfl⟩
    exact ⟨j % 4, Nat.mod_lt _ (by decide), rfl, Nat.div_add_mod j 4⟩

/-- An element depends on its four bytes. -/
theorem readFloat_congr {m m' : TensorBytes} {t i : ℕ} (h : ∀ l ∈ floatPlaces t i, m l = m' l) :
    readFloat m t i = readFloat m' t i := by
  rw [readFloat, readFloat, List.map_congr_left h]

/-- A float is read from the bytes that it has. -/
theorem readFloat_of_bytes {m : TensorBytes} {t i : ℕ} {v : UInt32}
    (h : ∀ k < 4, m (t, 4 * i + k) = floatByte v k) : readFloat m t i = v := by
  have hbytes : (floatPlaces t i).map m = Bytes.ofNat 4 v.toNat := by
    rw [floatPlaces, List.map_map]
    refine List.ext_getElem (by simp [Bytes.length_ofNat]) fun k hk hk' => ?_
    rw [List.getElem_map, List.getElem_range, Function.comp_apply, h k (by simpa using hk),
      floatByte, List.getD_eq_getElem _ _ hk']
  have hlt : v.toNat < 256 ^ 4 := v.toNat_lt
  rw [readFloat, hbytes, Bytes.toNat_ofNat, Nat.mod_eq_of_lt hlt, UInt32.ofNat_toNat]

/-- `p[i] = v`, for a value that is read from the places `reads`. -/
def storeFloat (t i : ℕ) (reads : List (ℕ × ℕ)) (v : TensorBytes → UInt32)
    (h : ∀ {m m' : TensorBytes}, (∀ l ∈ reads, m l = m' l) → v m = v m') : TensorStep where
  reads
  writes := floatPlaces t i
  value m l := floatByte (v m) (l.2 - 4 * i)
  depends hreads _ _ := by rw [h hreads]

/-! ## The rounds of the loops -/

/-- A byte that `memcpy` copies. -/
def copyByte (dst src i : ℕ) : TensorStep where
  reads := [(src, i)]
  writes := [(dst, i)]
  value m _ := m (src, i)
  depends h _ _ := h _ List.mem_cons_self

/-- One round of `fill`: the value is stored at an index. -/
def fillRound (dst : ℕ) (value : UInt32) (i : ℕ) : TensorStep :=
  storeFloat dst i [] (fun _ => value) fun _ => rfl

/-- A round of `add` or `multiply`. Both operands are read before the element is set. -/
def binaryRound (op : UInt32 → UInt32 → UInt32) (dst a b i : ℕ) : TensorStep :=
  storeFloat dst i (floatPlaces a i ++ floatPlaces b i)
    (fun m => op (readFloat m a i) (readFloat m b i)) fun h => by
      rw [readFloat_congr fun l hl => h l (List.mem_append_left _ hl),
        readFloat_congr fun l hl => h l (List.mem_append_right _ hl)]

/-- One round of `scale`: an element times the scalar is stored at its index. -/
def scaleRound (ops : Float32Ops) (dst src : ℕ) (scalar : UInt32) (i : ℕ) : TensorStep :=
  storeFloat dst i (floatPlaces src i) (fun m => ops.mul (readFloat m src i) scalar) fun h => by
    rw [readFloat_congr h]

/-! ## The operations -/

/-- The check of an argument: a valid tensor of 32-bit floats. -/
def isFloat32 (t : Tensor) : Bool := t.isValid && t.shape.dtype = .float32

namespace cpu

-- the tensors that pointers lead to; operations change nothing of them but the bytes
variable (tensors : ℕ → Tensor) (ops : Float32Ops)

/-- `copy`: the bytes of one tensor, if the shapes agree. -/
def copy (dst src : ℕ) : Except String (List TensorStep) :=
  if ¬ (tensors dst).isValid then .error "copy: dst is invalid"
  else if ¬ (tensors src).isValid then .error "copy: src is invalid"
  else if (tensors dst).shape ≠ (tensors src).shape then
    .error ("copy: shape mismatch: dst=" ++ (tensors dst).shape.describe ++
      " src=" ++ (tensors src).shape.describe)
  else
    let bytes := (tensors src).shape.byteSize
    -- empty is a no-op
    if bytes = 0 then .ok []
    else if (tensors src).buffer.data 0 bytes = none then .error "copy: src data pointer is null"
    -- `HostBuffer::write` fails when the bytes do not fit
    else if (tensors dst).buffer.data 0 bytes = none then .error "copy: write to dst failed"
    else .ok ((List.range bytes.toNat).map (copyByte dst src))

/-- `fill`: one round for each element. -/
def fill (dst : ℕ) (value : UInt32) : Except String (List TensorStep) :=
  if ¬ isFloat32 (tensors dst) then
    .error ("fill: tensor must be FLOAT32, got " ++ (tensors dst).shape.dtype.toString)
  else
    let count := (tensors dst).shape.elementCount
    if count = 0 then .error "fill: tensor is empty"
    else if (tensors dst).dataAs = none then .error "fill: data pointer is null"
    else .ok ((List.range count.toNat).map (fillRound dst value))

/-- `add` and `multiply`, which differ in their names and in what they do with two floats. -/
def binary (name : String) (op : UInt32 → UInt32 → UInt32) (dst a b : ℕ) :
    Except String (List TensorStep) :=
  if ¬ isFloat32 (tensors dst) then .error (name ++ ": dst must be FLOAT32")
  else if ¬ isFloat32 (tensors a) then .error (name ++ ": a must be FLOAT32")
  else if ¬ isFloat32 (tensors b) then .error (name ++ ": b must be FLOAT32")
  else if (tensors dst).shape ≠ (tensors a).shape then .error (name ++ ": dst/a shape mismatch")
  else if (tensors a).shape ≠ (tensors b).shape then .error (name ++ ": a/b shape mismatch")
  else
    let count := (tensors a).shape.elementCount
    if count = 0 then .error (name ++ ": tensors are empty")
    else if (tensors a).dataAs = none ∨ (tensors b).dataAs = none ∨ (tensors dst).dataAs = none then
      .error (name ++ ": null data pointer")
    else .ok ((List.range count.toNat).map (binaryRound op dst a b))

/-- `add`, elementwise. -/
def add (dst a b : ℕ) : Except String (List TensorStep) := binary tensors "add" ops.add dst a b

/-- `multiply`, elementwise. -/
def multiply (dst a b : ℕ) : Except String (List TensorStep) :=
  binary tensors "multiply" ops.mul dst a b

/-- `scale`: one round for each element. -/
def scale (dst src : ℕ) (scalar : UInt32) : Except String (List TensorStep) :=
  if ¬ isFloat32 (tensors dst) then .error "scale: dst must be FLOAT32"
  else if ¬ isFloat32 (tensors src) then .error "scale: src must be FLOAT32"
  else if (tensors dst).shape ≠ (tensors src).shape then .error "scale: dst/src shape mismatch"
  else
    let count := (tensors src).shape.elementCount
    if count = 0 then .error "scale: tensors are empty"
    else if (tensors src).dataAs = none ∨ (tensors dst).dataAs = none then
      .error "scale: null data pointer"
    else .ok ((List.range count.toNat).map (scaleRound ops dst src scalar))

end cpu

/-- The implementations of the interface. -/
inductive IBackendExecutor where
  | cpuBackendExecutor
  deriving DecidableEq

namespace IBackendExecutor

variable (tensors : ℕ → Tensor) (ops : Float32Ops)

/-- The name of an executor. -/
def name : IBackendExecutor → String
  | cpuBackendExecutor => "CpuBackendExecutor"

/-- The CPU executor is always available. -/
def isAvailable : IBackendExecutor → Bool
  | cpuBackendExecutor => true

/-- `copy` of an executor, as the other operators, passes its arguments on. -/
def copy : IBackendExecutor → ℕ → ℕ → Except String (List TensorStep)
  | cpuBackendExecutor => cpu.copy tensors

/-- `fill` of an executor. -/
def fill : IBackendExecutor → ℕ → UInt32 → Except String (List TensorStep)
  | cpuBackendExecutor => cpu.fill tensors

/-- `add` of an executor. -/
def add : IBackendExecutor → ℕ → ℕ → ℕ → Except String (List TensorStep)
  | cpuBackendExecutor => cpu.add tensors ops

/-- `multiply` of an executor. -/
def multiply : IBackendExecutor → ℕ → ℕ → ℕ → Except String (List TensorStep)
  | cpuBackendExecutor => cpu.multiply tensors ops

/-- `scale` of an executor. -/
def scale : IBackendExecutor → ℕ → ℕ → UInt32 → Except String (List TensorStep)
  | cpuBackendExecutor => cpu.scale tensors ops

end IBackendExecutor

/-! ## What the loops do -/

section loops

variable {m : TensorBytes} {dst count : ℕ}

/-- The bytes when the first floats of a tensor have been set. -/
def setFloats (dst count : ℕ) (v : ℕ → UInt32) (m : TensorBytes) : TensorBytes := fun l =>
  if l.1 = dst ∧ l.2 < 4 * count then floatByte (v (l.2 / 4)) (l.2 % 4) else m l

/-- The bytes when the first bytes of a tensor have been copied. -/
def setBytes (dst src count : ℕ) (m : TensorBytes) : TensorBytes := fun l =>
  if l.1 = dst ∧ l.2 < count then m (src, l.2) else m l

/-- The floats that have been set are read again, and all others are as before. -/
theorem readFloat_setFloats (v : ℕ → UInt32) (t i : ℕ) :
    readFloat (setFloats dst count v m) t i =
      if t = dst ∧ i < count then v i else readFloat m t i := by
  by_cases hset : t = dst ∧ i < count
  · obtain ⟨rfl, hi⟩ := hset
    rw [if_pos ⟨rfl, hi⟩]
    refine readFloat_of_bytes fun k hk => ?_
    have hplace : (4 * i + k) / 4 = i := by omega
    have hbyte : (4 * i + k) % 4 = k := by omega
    rw [setFloats, if_pos ⟨rfl, by dsimp only; omega⟩, hplace, hbyte]
  · rw [if_neg hset]
    refine readFloat_congr fun l hl => if_neg fun hin => hset ?_
    obtain ⟨htensor, hplace⟩ := mem_floatPlaces.mp hl
    exact ⟨htensor.symm.trans hin.1, by omega⟩

/-- A loop that sets the floats of a tensor, one after the other, from floats at the same place. -/
theorem runAll_floats {round : ℕ → TensorStep} {v : TensorBytes → ℕ → UInt32}
    (hwrites : ∀ i, (round i).writes = floatPlaces dst i)
    (hvalue : ∀ m i l, (round i).value m l = floatByte (v m i) (l.2 - 4 * i))
    (hreads : ∀ i, ∀ l ∈ (round i).reads, l.2 / 4 = i) :
    Action.runAll m ((List.range count).map round) = setFloats dst count (v m) m := by
  -- no round touches the bytes of another
  have hfresh : ((List.range count).map round).Pairwise
      fun a b => ∀ l ∈ a.writes, l ∉ b.reads ∧ l ∉ b.writes := by
    refine List.pairwise_map.mpr (List.pairwise_lt_range.imp fun {i j} hlt l hl => ?_)
    rw [hwrites] at hl
    have hplace := (mem_floatPlaces.mp hl).2
    refine ⟨fun hread => ?_, fun hwrite => ?_⟩
    · have hread := hreads j l hread
      omega
    · have hwrite := (mem_floatPlaces.mp (hwrites j ▸ hwrite)).2
      omega
  funext l
  by_cases hl : l.1 = dst ∧ l.2 < 4 * count
  · have hmem : round (l.2 / 4) ∈ (List.range count).map round :=
      List.mem_map_of_mem (List.mem_range.mpr (by omega))
    have hwrite : l ∈ (round (l.2 / 4)).writes := by
      rw [hwrites]
      exact mem_floatPlaces.mpr ⟨hl.1, rfl⟩
    have hbyte : l.2 - 4 * (l.2 / 4) = l.2 % 4 := by omega
    rw [Action.runAll_of_mem hfresh hmem hwrite, hvalue, setFloats, if_pos hl, hbyte]
  · rw [setFloats, if_neg hl]
    refine Action.runAll_of_notMem fun a ha hwrite => hl ?_
    obtain ⟨i, hi, rfl⟩ := List.mem_map.mp ha
    have hi := List.mem_range.mp hi
    obtain ⟨hdst, hplace⟩ := mem_floatPlaces.mp (hwrites i ▸ hwrite)
    exact ⟨hdst, by omega⟩

/-- The rounds of `fill` set every element to the value. -/
theorem runAll_fillRound (value : UInt32) :
    Action.runAll m ((List.range count).map (fillRound dst value)) =
      setFloats dst count (fun _ => value) m :=
  runAll_floats (v := fun _ _ => value) (fun _ => rfl) (fun _ _ _ => rfl)
    fun _ _ h => absurd h List.not_mem_nil

/-- Also when one of the operands is the tensor that is set. -/
theorem runAll_binaryRound (op : UInt32 → UInt32 → UInt32) (a b : ℕ) :
    Action.runAll m ((List.range count).map (binaryRound op dst a b)) =
      setFloats dst count (fun i => op (readFloat m a i) (readFloat m b i)) m := by
  refine runAll_floats (v := fun m i => op (readFloat m a i) (readFloat m b i)) (fun _ => rfl)
    (fun _ _ _ => rfl) fun i l hl => ?_
  rcases List.mem_append.mp hl with hl | hl
  · exact (mem_floatPlaces.mp hl).2
  · exact (mem_floatPlaces.mp hl).2

/-- The rounds of `scale` set every element to its multiple. -/
theorem runAll_scaleRound (ops : Float32Ops) (src : ℕ) (scalar : UInt32) :
    Action.runAll m ((List.range count).map (scaleRound ops dst src scalar)) =
      setFloats dst count (fun i => ops.mul (readFloat m src i) scalar) m :=
  runAll_floats (v := fun m i => ops.mul (readFloat m src i) scalar) (fun _ => rfl)
    (fun _ _ _ => rfl) fun _ _ hl => (mem_floatPlaces.mp hl).2

/-- The rounds of `copy` set every byte. -/
theorem runAll_copyByte (src : ℕ) :
    Action.runAll m ((List.range count).map (copyByte dst src)) = setBytes dst src count m := by
  have hfresh : ((List.range count).map (copyByte dst src)).Pairwise
      fun a b => ∀ l ∈ a.writes, l ∉ b.reads ∧ l ∉ b.writes := by
    refine List.pairwise_map.mpr (List.pairwise_lt_range.imp fun {i j} hlt l hl => ?_)
    obtain rfl := List.mem_singleton.mp hl
    refine ⟨fun hread => ?_, fun hwrite => ?_⟩
    · exact hlt.ne (Prod.ext_iff.mp (List.mem_singleton.mp hread)).2
    · exact hlt.ne (Prod.ext_iff.mp (List.mem_singleton.mp hwrite)).2
  funext l
  by_cases hl : l.1 = dst ∧ l.2 < count
  · have hmem : copyByte dst src l.2 ∈ (List.range count).map (copyByte dst src) :=
      List.mem_map_of_mem (List.mem_range.mpr hl.2)
    have hwrite : l ∈ (copyByte dst src l.2).writes := List.mem_singleton.mpr (Prod.ext hl.1 rfl)
    rw [Action.runAll_of_mem hfresh hmem hwrite, setBytes, if_pos hl]
    rfl
  · rw [setBytes, if_neg hl]
    refine Action.runAll_of_notMem fun a ha hwrite => hl ?_
    obtain ⟨i, hi, rfl⟩ := List.mem_map.mp ha
    obtain rfl := List.mem_singleton.mp hwrite
    exact ⟨rfl, List.mem_range.mp hi⟩

end loops

end HeteroAccel.Primitives
