import HeteroAccel.Execution.ExecutionGraph
import HeteroAccel.Primitives.CpuOps

/-!
# Nodes that compute tensors

`TensorComputeNode`: a node of an execution graph that runs one operation of a backend on tensors it
has pointers to. `execute` looks whether a cancellation is requested, checks its pointers and leaves
the rest to the backend; it is modelled like the operations, by an error message or by the rounds of
the loop.

## Main definitions

* `TensorComputeNode`, `makeCopy`, `makeFill`, `makeAdd`, `makeMultiply`, `makeScale`;
* `TensorComputeNode.execute`;
* `TensorComputeNode.effect`: what a node does to the tensors as a whole.

## Main results

* `readFloat_binary`: which floats `add` and `multiply` set, and to what;
* `runAll_execute`: the rounds of a node have this effect;
* `touches_execute`: they touch no other tensors than those the node has pointers to.
-/

namespace HeteroAccel.Execution

open Primitives Interleaving

/-- The operations of a tensor node. -/
inductive TensorOpType where
  | copy | fill | add | multiply | scale | sum | max
  deriving DecidableEq, Repr

/-- The name of an operation in errors. -/
def TensorOpType.toString : TensorOpType → String
  | .copy => "COPY"
  | .fill => "FILL"
  | .add => "ADD"
  | .multiply => "MULTIPLY"
  | .scale => "SCALE"
  | .sum => "SUM"
  | .max => "MAX"

/-- The members that `execute` uses. A pointer is `none` when it is null. -/
structure TensorComputeNode where
  op : TensorOpType := .copy
  exec : Option IBackendExecutor := none
  dst : Option ℕ := none
  a : Option ℕ := none
  b : Option ℕ := none
  scalar : UInt32 := 0

/-! ## The constructors -/

/-- A node in a graph: it computes, and uses the CPU. -/
def tensorNode (id : ℕ) (name : String) (op : TensorComputeNode) :
    IExecutionNode TensorComputeNode where
  id
  name
  type := .compute
  resource := .cpu
  op

section make

variable (id : ℕ) (exec : Option IBackendExecutor) (dst a b src : Option ℕ) (scalar : UInt32)

/-- A node that copies a tensor; the other operations have such a node, too. -/
def makeCopy : IExecutionNode TensorComputeNode :=
  tensorNode id "TensorCopy" { op := .copy, exec, dst, a := src }

/-- A node that fills a tensor. -/
def makeFill : IExecutionNode TensorComputeNode :=
  tensorNode id "TensorFill" { op := .fill, exec, dst, scalar }

/-- A node that adds two tensors. -/
def makeAdd : IExecutionNode TensorComputeNode :=
  tensorNode id "TensorAdd" { op := .add, exec, dst, a, b }

/-- A node that multiplies two tensors. -/
def makeMultiply : IExecutionNode TensorComputeNode :=
  tensorNode id "TensorMultiply" { op := .multiply, exec, dst, a, b }

/-- A node that scales a tensor. -/
def makeScale : IExecutionNode TensorComputeNode :=
  tensorNode id "TensorScale" { op := .scale, exec, dst, a := src, scalar }

end make

namespace TensorComputeNode

variable (tensors : ℕ → Tensor) (ops : Float32Ops) (node : TensorComputeNode)

/-- The switch over the operation, once there is a backend. -/
def dispatch (exec : IBackendExecutor) : Except String (List TensorStep) :=
  match node.op, node.dst, node.a, node.b with
  | .copy, some dst, some src, _ => exec.copy tensors dst src
  | .copy, _, _, _ => .error "TensorComputeNode(COPY): null tensor pointer"
  | .fill, some dst, _, _ => exec.fill tensors dst node.scalar
  | .fill, none, _, _ => .error "TensorComputeNode(FILL): null dst tensor"
  | .add, some dst, some a, some b => exec.add tensors ops dst a b
  | .add, _, _, _ => .error "TensorComputeNode(ADD): null tensor pointer"
  | .multiply, some dst, some a, some b => exec.multiply tensors ops dst a b
  | .multiply, _, _, _ => .error "TensorComputeNode(MULTIPLY): null tensor pointer"
  | .scale, some dst, some src, _ => exec.scale tensors ops dst src node.scalar
  | .scale, _, _, _ => .error "TensorComputeNode(SCALE): null tensor pointer"
  | op, _, _, _ => .error ("TensorComputeNode: unsupported op type: " ++ op.toString)

/-- `execute`, where a cancellation is requested or not. -/
def execute (cancelled : Bool) : Except String (List TensorStep) :=
  if cancelled then .error "TensorComputeNode: execution cancelled"
  else
    match node.exec with
    | none => .error "TensorComputeNode: no IBackendExecutor provided"
    | some exec =>
      if ¬ exec.isAvailable then
        .error ("TensorComputeNode: backend '" ++ exec.name ++ "' is not available")
      else node.dispatch tensors ops exec

/-- What a node does to the tensors, all of which it reads before it sets one. -/
def effect (m : TensorBytes) : TensorBytes :=
  match node.op, node.dst, node.a, node.b with
  | .copy, some dst, some src, _ => setBytes dst src (tensors src).shape.byteSize.toNat m
  | .fill, some dst, _, _ =>
    setFloats dst (tensors dst).shape.elementCount.toNat (fun _ => node.scalar) m
  | .add, some dst, some a, some b =>
    setFloats dst (tensors a).shape.elementCount.toNat
      (fun i => ops.add (readFloat m a i) (readFloat m b i)) m
  | .multiply, some dst, some a, some b =>
    setFloats dst (tensors a).shape.elementCount.toNat
      (fun i => ops.mul (readFloat m a i) (readFloat m b i)) m
  | .scale, some dst, some src, _ =>
    setFloats dst (tensors src).shape.elementCount.toNat
      (fun i => ops.mul (readFloat m src i) node.scalar) m
  | _, _, _, _ => m

/-- The tensors that a node may read. -/
def operands : List ℕ := node.a.toList ++ node.b.toList

/-- A node sets a tensor that another one sets or may read. -/
def Spoils (node node' : TensorComputeNode) : Prop :=
  ∃ t ∈ node.dst, node'.dst = some t ∨ t ∈ node'.operands

end TensorComputeNode

/-! ## What the rounds do -/

section rounds

variable {tensors : ℕ → Tensor} {ops : Float32Ops} {steps : List TensorStep} {dst src : ℕ}

/-- Behind a check that has passed. -/
theorem ok_of_ite_error {p : Prop} [Decidable p] {ε α : Type*} {e : ε} {x : Except ε α} {a : α}
    (h : (if p then .error e else x) = Except.ok a) : x = .ok a := by
  split at h
  next => cases h
  next => exact h

/-- A copy that is accepted has a step for each byte. -/
theorem steps_of_copy (h : cpu.copy tensors dst src = .ok steps) :
    steps = (List.range (tensors src).shape.byteSize.toNat).map (copyByte dst src) := by
  have h := ok_of_ite_error (ok_of_ite_error (ok_of_ite_error h))
  dsimp only at h
  split at h
  next hempty =>
    rw [hempty]
    exact (Except.ok.inj h).symm
  next => exact (Except.ok.inj (ok_of_ite_error (ok_of_ite_error h))).symm

/-- A fill that is accepted has a step for each element. -/
theorem steps_of_fill {value : UInt32} (h : cpu.fill tensors dst value = .ok steps) :
    steps = (List.range (tensors dst).shape.elementCount.toNat).map (fillRound dst value) :=
  (Except.ok.inj (ok_of_ite_error (ok_of_ite_error (ok_of_ite_error h)))).symm

/-- A binary operation that is accepted has a step for each element. -/
theorem steps_of_binary {name : String} {op : UInt32 → UInt32 → UInt32} {a b : ℕ}
    (h : cpu.binary tensors name op dst a b = .ok steps) :
    steps = (List.range (tensors a).shape.elementCount.toNat).map (binaryRound op dst a b) := by
  have hshapes := ok_of_ite_error (ok_of_ite_error (ok_of_ite_error h))
  have hsizes := ok_of_ite_error (ok_of_ite_error hshapes)
  exact (Except.ok.inj (ok_of_ite_error (ok_of_ite_error hsizes))).symm

/-- The elements that `add` and `multiply` set have the value of the operands before the loop, and
nothing else is set. -/
theorem readFloat_binary {name : String} {op : UInt32 → UInt32 → UInt32} {a b : ℕ}
    (h : cpu.binary tensors name op dst a b = .ok steps) (m : TensorBytes) (t i : ℕ) :
    readFloat (Action.runAll m steps) t i =
      if t = dst ∧ i < (tensors a).shape.elementCount.toNat then
        op (readFloat m a i) (readFloat m b i)
      else readFloat m t i := by
  rw [steps_of_binary h, runAll_binaryRound, readFloat_setFloats]

/-- A scale that is accepted has a step for each element. -/
theorem steps_of_scale {scalar : UInt32} (h : cpu.scale tensors ops dst src scalar = .ok steps) :
    steps =
      (List.range (tensors src).shape.elementCount.toNat).map (scaleRound ops dst src scalar) := by
  have hsizes := ok_of_ite_error (ok_of_ite_error (ok_of_ite_error h))
  exact (Except.ok.inj (ok_of_ite_error (ok_of_ite_error hsizes))).symm

namespace TensorComputeNode

variable {node : TensorComputeNode}

/-- A cancellation is the only reason for which a node may fail at one time and not at another. -/
theorem execute_of_ok {cancelled : Bool} (h : node.execute tensors ops cancelled = .ok steps) :
    node.execute tensors ops false = .ok steps := by
  cases cancelled with
  | false => exact h
  | true => cases h

/-- The rounds of a node that passes its checks. -/
inductive Rounds (tensors : ℕ → Tensor) (ops : Float32Ops) (node : TensorComputeNode) :
    List TensorStep → Prop where
  | copy {dst src : ℕ} (hop : node.op = .copy) (hdst : node.dst = some dst)
      (ha : node.a = some src) :
      Rounds tensors ops node
        ((List.range (tensors src).shape.byteSize.toNat).map (copyByte dst src))
  | fill {dst : ℕ} (hop : node.op = .fill) (hdst : node.dst = some dst) :
      Rounds tensors ops node
        ((List.range (tensors dst).shape.elementCount.toNat).map (fillRound dst node.scalar))
  | add {dst a b : ℕ} (hop : node.op = .add) (hdst : node.dst = some dst) (ha : node.a = some a)
      (hb : node.b = some b) :
      Rounds tensors ops node
        ((List.range (tensors a).shape.elementCount.toNat).map (binaryRound ops.add dst a b))
  | multiply {dst a b : ℕ} (hop : node.op = .multiply) (hdst : node.dst = some dst)
      (ha : node.a = some a) (hb : node.b = some b) :
      Rounds tensors ops node
        ((List.range (tensors a).shape.elementCount.toNat).map (binaryRound ops.mul dst a b))
  | scale {dst src : ℕ} (hop : node.op = .scale) (hdst : node.dst = some dst)
      (ha : node.a = some src) :
      Rounds tensors ops node
        ((List.range (tensors src).shape.elementCount.toNat).map
          (scaleRound ops dst src node.scalar))

/-- The steps of a node are the rounds of its operation. -/
theorem rounds_of_execute {cancelled : Bool}
    (h : node.execute tensors ops cancelled = .ok steps) : Rounds tensors ops node steps := by
  have h := ok_of_ite_error h
  split at h
  next => cases h
  next exec _ =>
    cases exec
    have h := ok_of_ite_error h
    unfold dispatch at h
    split at h
    next b dst src hop hdst ha => exact steps_of_copy h ▸ .copy hop hdst ha
    next => cases h
    next a b dst hop hdst => exact steps_of_fill h ▸ .fill hop hdst
    next => cases h
    next dst a b hop hdst ha hb => exact steps_of_binary h ▸ .add hop hdst ha hb
    next => cases h
    next dst a b hop hdst ha hb => exact steps_of_binary h ▸ .multiply hop hdst ha hb
    next => cases h
    next b dst src hop hdst ha => exact steps_of_scale h ▸ .scale hop hdst ha
    next => cases h
    next => cases h

/-- **The effect of a node.** The rounds of a node, one after the other, set each element from the
tensors before the first round. -/
theorem runAll_execute {cancelled : Bool} (h : node.execute tensors ops cancelled = .ok steps)
    (m : TensorBytes) : Action.runAll m steps = node.effect tensors ops m := by
  unfold effect
  cases rounds_of_execute h with
  | copy hop hdst ha =>
    rw [hop, hdst, ha]
    exact runAll_copyByte _
  | fill hop hdst =>
    rw [hop, hdst]
    exact runAll_fillRound _
  | add hop hdst ha hb =>
    rw [hop, hdst, ha, hb]
    exact runAll_binaryRound _ _ _
  | multiply hop hdst ha hb =>
    rw [hop, hdst, ha, hb]
    exact runAll_binaryRound _ _ _
  | scale hop hdst ha =>
    rw [hop, hdst, ha]
    exact runAll_scaleRound _ _ _

/-- What a round touches. -/
def Touches (node : TensorComputeNode) (step : TensorStep) : Prop :=
  (∀ l ∈ step.writes, node.dst = some l.1) ∧ ∀ l ∈ step.reads, l.1 ∈ node.operands

/-- A round that sets a float. -/
theorem touches_of_writes {step : TensorStep} {dst i : ℕ}
    (hwrites : step.writes = floatPlaces dst i) (hdst : node.dst = some dst)
    (hreads : ∀ l ∈ step.reads, l.1 ∈ node.operands) :
    node.Touches step := by
  refine ⟨fun l hl => ?_, hreads⟩
  rw [hwrites] at hl
  rw [hdst, (mem_floatPlaces.mp hl).1]

theorem mem_operands {t : ℕ} : t ∈ node.operands ↔ node.a = some t ∨ node.b = some t := by
  rw [operands, List.mem_append, Option.mem_toList, Option.mem_toList]

/-- The rounds of a node set its tensor, and read its operands. -/
theorem touches_execute {cancelled : Bool} (h : node.execute tensors ops cancelled = .ok steps)
    {step : TensorStep} (hstep : step ∈ steps) : node.Touches step := by
  have hfloat : ∀ {t i : ℕ} {l : ℕ × ℕ}, node.a = some t ∨ node.b = some t →
      l ∈ floatPlaces t i → l.1 ∈ node.operands := by
    intro t i l ht hl
    rw [(mem_floatPlaces.mp hl).1]
    exact mem_operands.mpr ht
  cases rounds_of_execute h with
  | copy hop hdst ha =>
    obtain ⟨i, -, rfl⟩ := List.mem_map.mp hstep
    refine ⟨fun l hl => ?_, fun l hl => ?_⟩
    · rw [hdst, List.mem_singleton.mp hl]
    · rw [List.mem_singleton.mp hl]
      exact mem_operands.mpr (.inl ha)
  | fill hop hdst =>
    obtain ⟨i, -, rfl⟩ := List.mem_map.mp hstep
    exact touches_of_writes rfl hdst fun l hl => absurd hl List.not_mem_nil
  | add hop hdst ha hb =>
    obtain ⟨i, -, rfl⟩ := List.mem_map.mp hstep
    refine touches_of_writes rfl hdst fun l hl => ?_
    exact (List.mem_append.mp hl).elim (hfloat (.inl ha)) (hfloat (.inr hb))
  | multiply hop hdst ha hb =>
    obtain ⟨i, -, rfl⟩ := List.mem_map.mp hstep
    refine touches_of_writes rfl hdst fun l hl => ?_
    exact (List.mem_append.mp hl).elim (hfloat (.inl ha)) (hfloat (.inr hb))
  | scale hop hdst ha =>
    obtain ⟨i, -, rfl⟩ := List.mem_map.mp hstep
    exact touches_of_writes rfl hdst fun l hl => hfloat (.inl ha) hl

end TensorComputeNode

end rounds

end HeteroAccel.Execution
