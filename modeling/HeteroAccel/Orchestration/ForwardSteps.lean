import HeteroAccel.HydroXL.LoadedBounds
import HeteroAccel.Orchestration.RequestIsolation

/-!
# One token on the CPU

A call of the forward pass that is attached to a loaded model and a cache of its dimensions, from
how the pass in it ends. Whatever the cache holds, it clears to the same.

## Main results

* `forwardStep_of_runFrom`: the call, from its pass;
* `reset_of_runFrom`: the cache behind a pass clears as before;
* `exists_equipped`: what an initialization leaves is attached so.
-/

namespace HeteroAccel

namespace HydroXLKVCache

variable {α : Type} {zero : α} {c : HydroXLKVCache α}

/-- A cache that clears to one of the right sizes has them. -/
theorem sized_of_reset (h : (c.reset zero).Sized) : c.Sized := by
  refine ⟨h.allocated, h.layers, h.heads, h.seq, h.dim, fun layer hlayer => ?_⟩
  obtain ⟨kBuf, vBuf, hk, hv, hkSize, hvSize⟩ := h.buffers layer hlayer
  simp only [reset, List.getElem?_map, Option.map_eq_some_iff] at hk hv
  obtain ⟨k, hk, rfl⟩ := hk
  obtain ⟨v, hv, rfl⟩ := hv
  rw [List.length_map] at hkSize hvSize
  exact ⟨k, v, hk, hv, hkSize, hvSize⟩

theorem reset_reset : (c.reset zero).reset zero = c.reset zero := by
  simp [reset]

end HydroXLKVCache

namespace HydroXLForwardPass

variable {α δ : Type} {ops : TensorOps α δ} {m m' : HydroXLModel α} {d : KVDims}
  {cleared kvCache : HydroXLKVCache α} {p : HydroXLForwardPass α} {tokenId pos : UInt32}
  {logits : List α} {r : Except Bytes Unit × ForwardState α}

/-- A cache that is clear, of the given dimensions. -/
structure Clear (ops : TensorOps α δ) (d : KVDims) (cleared : HydroXLKVCache α) : Prop where
  sized : cleared.Sized
  dims : cleared.dims = d
  reset : cleared.reset ops.zero = cleared

theorem Clear.of_sized (h : kvCache.Sized) : Clear ops kvCache.dims (kvCache.reset ops.zero) :=
  ⟨sized_reset ops.zero h, rfl, HydroXLKVCache.reset_reset⟩

/-- The state in which a pass starts has the sizes of the dimensions. -/
theorem Clear.inside_start (h : Clear ops d cleared) (hsame : m.hparams = m'.hparams)
    (hreset : kvCache.reset ops.zero = cleared) (logits : List α) :
    Inside m d (p.start ops m' kvCache logits) := by
  have hsized : kvCache.Sized := HydroXLKVCache.sized_of_reset (hreset.symm ▸ h.sized)
  have hdims : kvCache.dims = d := by
    rw [← h.dims, ← hreset]
    rfl
  refine ⟨fun b => ?_, hsized, hdims⟩
  rw [length_start, ← hsame, ← hdims]
  rfl

/-- A call, from how its pass ends. -/
theorem forwardStep_of_runFrom (hm : m.loaded = true) (hmodel : p.model = some m)
    (hkv : p.kvCache = some kvCache) (halloc : kvCache.allocated = true)
    (h : (pass ops m tokenId pos).runFrom (p.start ops m kvCache logits) = some r) :
    ∃ q, forwardStep ops tokenId pos logits (some p) =
        (r.1.map fun _ => r.2.buffers .logits, some q) ∧
      q.model = some m ∧ q.kvCache = some r.2.kvCache := by
  obtain ⟨result, t⟩ := r
  unfold forwardStep forward
  simp only [Option.bind_some, hmodel, hkv, hm, halloc, h, Bool.not_true, Bool.false_eq_true,
    if_false]
  cases result with
  | ok v => exact ⟨_, rfl, rfl, rfl⟩
  | error e => exact ⟨_, rfl, rfl, rfl⟩

/-- The cache behind a pass, which is one from a state that agrees with itself. -/
theorem reset_of_runFrom (hm : m.Sound) (hreset : kvCache.reset ops.zero = cleared)
    (h : (pass ops m tokenId pos).runFrom (p.start ops m kvCache logits) = some r) :
    r.2.kvCache.reset ops.zero = cleared := by
  have hlength : ∀ b, ((p.start ops m kvCache logits).buffers b).length =
      (bufferSize m.hparams cleared.maxSeqLen b).toNat := by
    intro b
    rw [length_start, ← hreset]
    rfl
  have hagree : Agree ops (bufferSize m.hparams cleared.maxSeqLen) cleared []
      (p.start ops m kvCache logits) (p.start ops m kvCache logits) :=
    ⟨rfl, hreset, hlength, hlength, by simp⟩
  rcases (reads_pass ops cleared hm tokenId pos).self hagree h with
    ⟨-, -, hend⟩ | ⟨-, -, hend⟩
  · exact hend.clears
  · exact hend.clears

/-- What a load and an allocation leave. -/
theorem exists_equipped {threads : Threads} {outcome : AssignOutcome α} {path : Bytes}
    {content : FileContent} {maxSeqLen : UInt32}
    (hload : HydroXLModel.load ops threads path (.file content) (HydroXLModel.fresh ops) =
      (.loaded, m))
    (halloc : HydroXLKVCache.allocate ops.zero outcome {} m.hparams.nLayers m.hparams.nKvHeads
      maxSeqLen m.hparams.nHeadDim = (true, kvCache)) :
    ∃ gguf hp, Equipped ops path content gguf hp m kvCache maxSeqLen := by
  obtain ⟨gguf, hp, hloads⟩ := HydroXLModel.loads_of_load hload
  obtain ⟨-, -, -, -, hkv⟩ := HydroXLKVCache.allocate_eq_true halloc
  have hover := HydroXLModel.loadedOver_of_load hloads hload
  refine ⟨gguf, hp, hloads, hover, HydroXLModel.loaded_of_load hload,
    HydroXLKVCache.sized_of_allocate halloc, ?_⟩
  rw [hkv, ← hover.hparams]
  rfl

end HydroXLForwardPass

end HeteroAccel
