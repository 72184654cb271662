import Mathlib.Data.List.Induction
import Mathlib.Logic.Function.Basic

/-!
# Stacks of causal layers

A layer is causal when its output at a position depends on the activations at that position and at
the earlier ones. What it needs of an earlier position it can store when it has seen it, so that a
sequence can be run through the layers as a whole, or one position at a time over what is stored.
Both give the same.

## Main definitions

* `CausalStack`: what each layer stores, and what it computes from it;
* `CausalStack.run`: the layers on a whole sequence;
* `CausalStack.decode`: one more position, over a cache.

## Main results

* `run_prefix`: a sequence that goes on is run like the part that is known;
* `run_append`, `Caches.decode`: the cached run of a position is the last one of the whole run.
-/

/-- A stack of causal layers over activations `X`. The layer `l` stores `entry l i x` for the
activation `x` at the position `i`, and computes `block l i es x` from the entries `es` of the
positions up to `i`. -/
structure CausalStack (X E : Type*) where
  entry : ℕ → ℕ → X → E
  block : ℕ → ℕ → List E → X → X

namespace CausalStack

variable {X E : Type*} (S : CausalStack X E)

/-! ## Whole sequences -/

/-- What a layer stores for a sequence. -/
def entries (l : ℕ) (xs : List X) : List E := xs.mapIdx (S.entry l)

/-- A layer on a sequence. No position sees the entries behind it. -/
def layer (l : ℕ) (xs : List X) : List X :=
  xs.mapIdx fun i x => S.block l i ((S.entries l xs).take (i + 1)) x

/-- The first `n` layers on a sequence. -/
def run (n : ℕ) (xs : List X) : List X := (List.range n).foldl (fun xs l => S.layer l xs) xs

@[simp]
theorem run_zero (xs : List X) : S.run 0 xs = xs := rfl

theorem run_succ (n : ℕ) (xs : List X) : S.run (n + 1) xs = S.layer n (S.run n xs) := by
  rw [run, List.range_succ, List.foldl_append]
  rfl

@[simp]
theorem length_entries (l : ℕ) (xs : List X) : (S.entries l xs).length = xs.length :=
  List.length_mapIdx

@[simp]
theorem length_layer (l : ℕ) (xs : List X) : (S.layer l xs).length = xs.length :=
  List.length_mapIdx

/-- A stack keeps the length of its input. -/
@[simp]
theorem length_run (n : ℕ) (xs : List X) : (S.run n xs).length = xs.length := by
  induction n with
  | zero => rfl
  | succ n ih => rw [run_succ, length_layer, ih]

/-! ## One more position -/

theorem entries_append (l : ℕ) (xs : List X) (x : X) :
    S.entries l (xs ++ [x]) = S.entries l xs ++ [S.entry l xs.length x] :=
  List.mapIdx_concat

/-- The positions before a new one do not see it, and it sees all of them. -/
theorem layer_append (l : ℕ) (xs : List X) (x : X) :
    S.layer l (xs ++ [x]) =
      S.layer l xs ++ [S.block l xs.length (S.entries l (xs ++ [x])) x] := by
  have hall : (S.entries l (xs ++ [x])).take (xs.length + 1) = S.entries l (xs ++ [x]) :=
    List.take_of_length_le (by simp)
  rw [layer, List.mapIdx_concat, hall]
  congr 1
  apply List.ext_getElem (by simp)
  intro i hi hi'
  have hlt : i < xs.length := by simpa using hi
  have htake : (S.entries l (xs ++ [x])).take (i + 1) = (S.entries l xs).take (i + 1) := by
    rw [entries_append, List.take_append_of_le_length (by rw [length_entries]; exact hlt)]
  simp only [layer, List.getElem_mapIdx, htake]

/-- **Causality.** What follows does not change what is known. -/
theorem run_prefix (n : ℕ) {xs ys : List X} (h : xs <+: ys) : S.run n xs <+: S.run n ys := by
  induction n with
  | zero => exact h
  | succ n ih =>
    rw [run_succ, run_succ]
    obtain ⟨rest, hrest⟩ := ih
    rw [← hrest]
    -- the positions that follow come one by one
    clear hrest
    induction rest using List.reverseRecOn with
    | nil => simp
    | append_singleton rest x ih =>
      rw [← List.append_assoc, layer_append]
      exact ih.trans (List.prefix_append _ _)

/-! ## Decoding -/

/-- One position in one layer: its entry is stored behind those that the cache holds, and the layer
computes from all of them. -/
def decodeLayer (i l : ℕ) (s : (ℕ → List E) × X) : (ℕ → List E) × X :=
  let es := s.1 l ++ [S.entry l i s.2]
  (Function.update s.1 l es, S.block l i es s.2)

/-- One position in the first `n` layers. -/
def decode (n i : ℕ) (cache : ℕ → List E) (x : X) : (ℕ → List E) × X :=
  (List.range n).foldl (fun s l => S.decodeLayer i l s) (cache, x)

@[simp]
theorem decode_zero (i : ℕ) (cache : ℕ → List E) (x : X) : S.decode 0 i cache x = (cache, x) := rfl

theorem decode_succ (n i : ℕ) (cache : ℕ → List E) (x : X) :
    S.decode (n + 1) i cache x = S.decodeLayer i n (S.decode n i cache x) := by
  rw [decode, List.range_succ, List.foldl_append]
  rfl

/-- The cache holds what the first `n` layers store when they are run on `xs`. -/
def Caches (n : ℕ) (xs : List X) (cache : ℕ → List E) : Prop :=
  ∀ l < n, cache l = S.entries l (S.run l xs)

variable {S} {n i : ℕ} {xs : List X} {x : X} {cache : ℕ → List E}

/-- The layers that have not been reached are as before. -/
theorem decode_of_le {l : ℕ} (h : n ≤ l) : (S.decode n i cache x).1 l = cache l := by
  induction n with
  | zero => rfl
  | succ n ih =>
    rw [decode_succ, decodeLayer]
    dsimp only
    rw [Function.update_of_ne (by omega), ih (by omega)]

/-- **Decoding.** Over the cache of a sequence, one more position is run as it is behind the whole
sequence, and leaves the cache of the longer sequence. -/
theorem run_append_and_caches (h : S.Caches n xs cache) :
    S.run n (xs ++ [x]) = S.run n xs ++ [(S.decode n xs.length cache x).2] ∧
      S.Caches n (xs ++ [x]) (S.decode n xs.length cache x).1 := by
  induction n with
  | zero => exact ⟨rfl, fun l hl => absurd hl l.not_lt_zero⟩
  | succ n ih =>
    obtain ⟨hrun, hcaches⟩ := ih fun l hl => h l (by omega)
    -- the entries of this layer, with that of the new position
    have hentries : S.entries n (S.run n (xs ++ [x])) =
        (S.decode n xs.length cache x).1 n ++
          [S.entry n xs.length (S.decode n xs.length cache x).2] := by
      rw [hrun, entries_append, length_run, decode_of_le (Nat.le_refl n), h n (by omega)]
    rw [run_succ, run_succ, decode_succ]
    constructor
    · rw [hrun, layer_append, ← hrun, hentries, length_run]
      rfl
    · intro l hl
      by_cases hln : l = n
      · subst hln
        rw [hentries]
        exact Function.update_self _ _ _
      · rw [decodeLayer]
        dsimp only
        rw [Function.update_of_ne hln]
        exact hcaches l (by omega)

/-- The output for one input more is what decoding it from the caches gives. -/
theorem run_append (h : S.Caches n xs cache) :
    S.run n (xs ++ [x]) = S.run n xs ++ [(S.decode n xs.length cache x).2] :=
  (run_append_and_caches h).1

theorem Caches.decode (h : S.Caches n xs cache) :
    S.Caches n (xs ++ [x]) (S.decode n xs.length cache x).1 :=
  (run_append_and_caches h).2

end CausalStack
