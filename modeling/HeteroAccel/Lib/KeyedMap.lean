import Mathlib.Data.List.AList
import Mathlib.Algebra.Order.BigOperators.Group.List
import Mathlib.Data.List.Induction
import Mathlib.Tactic.Linarith

/-!
# Keyed maps with a weighted total

Association lists (`AList`) with one value type, read as hash maps. The module adds what an
accounting proof needs of them:

* `KeyedMap.total f m`: the sum of the weights `f key value` over the entries of `m`, with its
  change under `insert` and `erase`;
* `KeyedMap.le_total` and `KeyedMap.total_le_total`: one entry's weight is at most the total, and
  totals are monotone in the weight;
* `KeyedMap.total_le_sum_add`, `KeyedMap.sum_add_le_total`: a total compared with weights given for
  a list of keys and with the total of another map;
* `KeyedMap.ofPairs`: the map that a list of assignments leaves;
* `Traversal`: an order in which a hash map's entries may be visited. The order is any
  permutation, and may change from one visit to the next.
-/

/-- A map from keys to values with at most one entry a key. -/
abbrev KeyedMap (K V : Type*) := AList fun _ : K => V

/-- A way to visit the entries of a hash map: for each list of entries, a permutation of it. -/
structure Traversal (α : Type*) where
  /-- The entries in visiting order. -/
  visit : List α → List α
  /-- Every entry is visited exactly once. -/
  perm : ∀ l, (visit l).Perm l

namespace Traversal

/-- Visiting the entries in the order they are stored. -/
def stored {α : Type*} : Traversal α := ⟨id, fun _ => .refl _⟩

/-- Visiting the entries that satisfy `p` before the others. -/
def first {α : Type*} (p : α → Bool) : Traversal α where
  visit l := l.filter p ++ l.filter fun a => !p a
  perm l := List.filter_append_perm p l

@[simp]
theorem mem_visit {α : Type*} (t : Traversal α) {l : List α} {a : α} :
    a ∈ t.visit l ↔ a ∈ l :=
  (t.perm l).mem_iff

end Traversal

namespace KeyedMap

variable {K V : Type*} [DecidableEq K]

theorem mem_entries_iff {m : KeyedMap K V} {k : K} {v : V} :
    (⟨k, v⟩ : Σ _ : K, V) ∈ m.entries ↔ m.lookup k = some v :=
  AList.mem_lookup_iff.symm

/-- A looked-up key comes first in some rearrangement of the entries. -/
theorem perm_cons_erase {m : KeyedMap K V} {k : K} {v : V} (h : m.lookup k = some v) :
    m.entries.Perm (⟨k, v⟩ :: (m.erase k).entries) := by
  obtain ⟨v', l₁, l₂, hk, hm, he⟩ := List.exists_of_kerase
    (AList.lookup_isSome.mp (by rw [h]; rfl) : k ∈ m.entries.keys)
  have hv : v' = v := by
    have : m.lookup k = some v' := mem_entries_iff.mp (by rw [hm]; simp)
    simpa [h] using this.symm
  subst hv
  change m.entries.Perm (⟨k, v'⟩ :: List.kerase k m.entries)
  rw [he, hm]
  exact List.perm_middle

theorem length_erase {m : KeyedMap K V} {k : K} {v : V} (h : m.lookup k = some v) :
    (m.erase k).entries.length < m.entries.length := by
  rw [(perm_cons_erase h).length_eq]
  simp

/-- The lookup of an inserted key, at every key. -/
theorem lookup_insert_eq_ite {m : KeyedMap K V} {k k' : K} {v : V} :
    (m.insert k v).lookup k' = if k' = k then some v else m.lookup k' := by
  split
  next h => rw [h, AList.lookup_insert]
  next h => rw [AList.lookup_insert_ne h]

/-- The lookup after an erasure, at every key. -/
theorem lookup_erase_eq_ite {m : KeyedMap K V} {k k' : K} :
    (m.erase k).lookup k' = if k' = k then none else m.lookup k' := by
  split
  next h => rw [h, AList.lookup_erase]
  next h => rw [AList.lookup_erase_ne h]

/-- What is left after an erasure was there before. -/
theorem lookup_of_lookup_erase {m : KeyedMap K V} {k k' : K} {v : V}
    (h : (m.erase k).lookup k' = some v) : m.lookup k' = some v := by
  rw [lookup_erase_eq_ite] at h
  split at h
  next => cases h
  next => exact h

/-! ## Assigning pairs one after the other -/

/-- The map that assigning the pairs in order leaves: a later pair overwrites an earlier one. -/
def ofPairs (l : List (K × V)) : KeyedMap K V :=
  l.foldl (fun m e => m.insert e.1 e.2) ∅

theorem ofPairs_concat (l : List (K × V)) (e : K × V) :
    ofPairs (l ++ [e]) = (ofPairs l).insert e.1 e.2 := by
  rw [ofPairs, ofPairs, List.foldl_concat]

/-- What a key is mapped to was assigned to it. -/
theorem mem_of_lookup_ofPairs {l : List (K × V)} {k : K} {v : V}
    (h : (ofPairs l).lookup k = some v) : (k, v) ∈ l := by
  induction l using List.reverseRecOn with
  | nil =>
    rw [show ofPairs ([] : List (K × V)) = ∅ from rfl, AList.lookup_empty] at h
    cases h
  | append_singleton l e ih =>
    rw [ofPairs_concat, lookup_insert_eq_ite] at h
    split at h
    next hk =>
      obtain rfl := Option.some.inj h
      subst hk
      exact List.mem_append_right _ List.mem_cons_self
    next => exact List.mem_append_left _ (ih h)

/-- A key that was assigned to is mapped. -/
theorem exists_lookup_ofPairs {l : List (K × V)} {e : K × V} (h : e ∈ l) :
    ∃ v, (ofPairs l).lookup e.1 = some v := by
  induction l using List.reverseRecOn with
  | nil => cases h
  | append_singleton l e' ih =>
    rw [ofPairs_concat, lookup_insert_eq_ite]
    split
    next => exact ⟨_, rfl⟩
    next hk =>
      rcases List.mem_append.mp h with h | h
      · exact ih h
      · exact absurd (congrArg Prod.fst (List.mem_singleton.mp h)) hk

/-- The last assignment to a key is the one that counts. -/
theorem lookup_ofPairs_append {l₁ l₂ : List (K × V)} {k : K} {v : V} (h : ∀ e ∈ l₂, e.1 ≠ k) :
    (ofPairs (l₁ ++ (k, v) :: l₂)).lookup k = some v := by
  induction l₂ using List.reverseRecOn with
  | nil => rw [ofPairs_concat, AList.lookup_insert]
  | append_singleton l₂ e ih =>
    obtain ⟨hl₂, he⟩ := List.forall_mem_append.mp h
    rw [← List.cons_append, ← List.append_assoc, ofPairs_concat,
      AList.lookup_insert_ne (Ne.symm (he e List.mem_cons_self))]
    exact ih hl₂

/-- A key is mapped to what was assigned to it last. -/
theorem lookup_ofPairs_iff {l : List (K × V)} {k : K} {v : V} :
    (ofPairs l).lookup k = some v ↔
      ∃ l₁ l₂, l = l₁ ++ (k, v) :: l₂ ∧ ∀ e ∈ l₂, e.1 ≠ k := by
  constructor
  · intro h
    induction l using List.reverseRecOn with
    | nil => cases mem_of_lookup_ofPairs h
    | append_singleton l e ih =>
      rw [ofPairs_concat, lookup_insert_eq_ite] at h
      split at h
      next hk =>
        obtain rfl := Option.some.inj h
        subst hk
        exact ⟨l, [], rfl, by simp⟩
      next hk =>
        obtain ⟨l₁, l₂, rfl, hlast⟩ := ih h
        refine ⟨l₁, l₂ ++ [e], by simp, List.forall_mem_append.mpr ⟨hlast, ?_⟩⟩
        simpa using Ne.symm hk
  · rintro ⟨l₁, l₂, rfl, hlast⟩
    exact lookup_ofPairs_append hlast

/-! ## Totals -/

/-- The sum of the weights `f key value` over all entries. -/
def total (f : K → V → ℕ) (m : KeyedMap K V) : ℕ :=
  (m.entries.map fun e => f e.1 e.2).sum

variable {f g : K → V → ℕ} {m : KeyedMap K V} {k : K} {v : V}

omit [DecidableEq K] in
@[simp]
theorem total_empty : total f (∅ : KeyedMap K V) = 0 := rfl

/-- Erasing an entry takes its weight off the total. -/
theorem total_erase (h : m.lookup k = some v) :
    total f (m.erase k) + f k v = total f m := by
  unfold total
  rw [((perm_cons_erase h).map _).sum_eq]
  simp [Nat.add_comm]

/-- Inserting a new key adds its weight. -/
theorem total_insert_of_notMem (h : m.lookup k = none) :
    total f (m.insert k v) = total f m + f k v := by
  unfold total
  rw [AList.entries_insert_of_notMem (AList.lookup_eq_none.mp h)]
  simp [Nat.add_comm]

/-- Replacing a key's value exchanges its weight. -/
theorem total_insert_of_lookup {w : V} (h : m.lookup k = some v) :
    total f (m.insert k w) + f k v = total f m + f k w := by
  have hins : total f (m.insert k w) = total f (m.erase k) + f k w := by
    unfold total
    rw [AList.entries_insert]
    simp only [List.map_cons, List.sum_cons, Nat.add_comm]
    rfl
  have := total_erase (f := f) h
  omega

/-- The weight of one entry is at most the total. -/
theorem le_total (h : m.lookup k = some v) : f k v ≤ total f m := by
  have := total_erase (f := f) h
  omega

/-- A pointwise bound on the weights bounds the totals. -/
theorem total_le_total (h : ∀ k v, m.lookup k = some v → f k v ≤ g k v) :
    total f m ≤ total g m := by
  refine List.sum_le_sum fun e he => ?_
  exact h e.1 e.2 (mem_entries_iff.mp he)

/-- Weights that agree on the entries have the same total. -/
theorem total_congr (h : ∀ k v, m.lookup k = some v → f k v = g k v) :
    total f m = total g m :=
  le_antisymm (total_le_total fun k v hk => (h k v hk).le)
    (total_le_total fun k v hk => (h k v hk).ge)

/-- Maps with the same lookups have the same totals. -/
theorem total_eq_of_lookup_eq {m' : KeyedMap K V} (h : ∀ k, m'.lookup k = m.lookup k) :
    total f m' = total f m := by
  have hperm : m'.entries.Perm m.entries := by
    refine List.lookup_ext m'.nodupKeys m.nodupKeys fun k v => ?_
    exact Iff.of_eq (congrArg (fun o => v ∈ o) (h k))
  exact (hperm.map _).sum_eq

/-- A positive total has an entry of positive weight. -/
theorem exists_pos_of_total_pos (h : 0 < total f m) :
    ∃ k v, m.lookup k = some v ∧ 0 < f k v := by
  by_contra hne
  push Not at hne
  have hz : total f m = total (fun _ _ => 0) m :=
    total_congr fun k v hk => Nat.le_zero.mp (hne k v hk)
  simp [total] at hz
  unfold total at h
  omega

/-- A total that another map bounds entry by entry. -/
theorem total_le_of_lookup {m₀ m : KeyedMap K V}
    (h : ∀ k v, m.lookup k = some v → 0 < f k v → ∃ w, m₀.lookup k = some w ∧ f k v ≤ g k w) :
    total f m ≤ total g m₀ := by
  induction hlength : m.entries.length generalizing m m₀ with
  | zero =>
    have hempty : m.entries = [] := List.length_eq_zero_iff.mp hlength
    simp [total, hempty]
  | succ n ih =>
    obtain ⟨e, he⟩ := List.exists_mem_of_length_pos (by omega : 0 < m.entries.length)
    have hlookup : m.lookup e.1 = some e.2 := mem_entries_iff.mp he
    have herase := total_erase (f := f) hlookup
    have hless : (m.erase e.1).entries.length = n := by
      have hperm := (perm_cons_erase hlookup).length_eq
      rw [List.length_cons] at hperm
      omega
    -- the other entries keep their bounds when the key is taken from both maps
    have hrest : ∀ k v, (m.erase e.1).lookup k = some v → 0 < f k v →
        ∃ w, (m₀.erase e.1).lookup k = some w ∧ f k v ≤ g k w := by
      intro k v hk hpos
      rw [lookup_erase_eq_ite] at hk ⊢
      split at hk
      next => cases hk
      next hne =>
        rw [if_neg hne]
        exact h k v hk hpos
    have hle := ih hrest hless
    by_cases hpos : 0 < f e.1 e.2
    · obtain ⟨w, hw, hfw⟩ := h e.1 e.2 hlookup hpos
      have hbound := total_erase (f := g) hw
      omega
    · have hsmaller : total g (m₀.erase e.1) ≤ total g m₀ := by
        cases hw : m₀.lookup e.1 with
        | some w => exact (Nat.le_add_right _ _).trans (total_erase (f := g) hw).le
        | none =>
          refine (total_eq_of_lookup_eq fun k => ?_).le
          rw [lookup_erase_eq_ite]
          split
          next hk => rw [hk, hw]
          next => rfl
      omega

/-- A total that a list of keys and another map bound: each entry is one of the keys, with a weight
of its own, or the other map bounds it. -/
theorem total_le_sum_add {m₀ m : KeyedMap K V} {ι : Type*} {keys : List ι} {s : ι → ℕ} (key : ι → K)
    (h : ∀ k v, m.lookup k = some v → 0 < f k v →
      (∃ i ∈ keys, key i = k ∧ f k v ≤ s i) ∨ ∃ w, m₀.lookup k = some w ∧ f k v ≤ g k w) :
    total f m ≤ (keys.map s).sum + total g m₀ := by
  induction keys generalizing m with
  | nil =>
    rw [List.map_nil, List.sum_nil, Nat.zero_add]
    refine total_le_of_lookup fun k v hk hpos => ?_
    exact (h k v hk hpos).resolve_left fun ⟨i, hi, _⟩ => absurd hi List.not_mem_nil
  | cons i keys ih =>
    rw [List.map_cons, List.sum_cons]
    -- the value that the first key accounts for is taken out
    by_cases hfirst : ∃ v, m.lookup (key i) = some v ∧ f (key i) v ≤ s i
    · obtain ⟨v, hv, hle⟩ := hfirst
      have herase := total_erase (f := f) hv
      have hrest : total f (m.erase (key i)) ≤ (keys.map s).sum + total g m₀ := by
        refine ih fun k w hk hpos => ?_
        rw [lookup_erase_eq_ite] at hk
        split at hk
        next => cases hk
        next hne =>
          refine (h k w hk hpos).imp_left fun ⟨j, hj, hkey, hle⟩ => ⟨j, ?_, hkey, hle⟩
          rcases List.mem_cons.mp hj with rfl | hj
          · exact absurd hkey.symm hne
          · exact hj
      omega
    · have hrest : total f m ≤ (keys.map s).sum + total g m₀ := by
        refine ih fun k w hk hpos => ?_
        refine (h k w hk hpos).imp_left fun ⟨j, hj, hkey, hle⟩ => ?_
        rcases List.mem_cons.mp hj with rfl | hj
        · exact absurd ⟨w, hkey ▸ hk, hkey ▸ hle⟩ hfirst
        · exact ⟨j, hj, hkey, hle⟩
      omega

/-- A total that is no less than what a list of keys and another map ask for, each at other
keys. -/
theorem sum_add_le_total {m₀ m : KeyedMap K V} {ι : Type*} {keys : List ι} {s : ι → ℕ} (key : ι → K)
    (hnodup : (keys.map key).Nodup)
    (hkeys : ∀ i ∈ keys, ∃ v, m.lookup (key i) = some v ∧ s i ≤ f (key i) v)
    (hothers : ∀ k w, m₀.lookup k = some w → 0 < g k w →
      (∀ i ∈ keys, key i ≠ k) ∧ ∃ v, m.lookup k = some v ∧ g k w ≤ f k v) :
    (keys.map s).sum + total g m₀ ≤ total f m := by
  induction keys generalizing m with
  | nil =>
    rw [List.map_nil, List.sum_nil, Nat.zero_add]
    exact total_le_of_lookup fun k w hk hpos => (hothers k w hk hpos).2
  | cons i keys ih =>
    rw [List.map_cons, List.sum_cons]
    rw [List.map_cons, List.nodup_cons] at hnodup
    obtain ⟨v, hv, hle⟩ := hkeys i List.mem_cons_self
    have herase := total_erase (f := f) hv
    have hrest : (keys.map s).sum + total g m₀ ≤ total f (m.erase (key i)) := by
      refine ih hnodup.2 (fun j hj => ?_) fun k w hk hpos => ?_
      · obtain ⟨w, hw, hsw⟩ := hkeys j (List.mem_cons_of_mem _ hj)
        refine ⟨w, ?_, hsw⟩
        rw [lookup_erase_eq_ite, if_neg, hw]
        exact fun heq => hnodup.1 (heq ▸ List.mem_map_of_mem hj)
      · obtain ⟨hne, w', hw', hgw⟩ := hothers k w hk hpos
        refine ⟨fun j hj => hne j (List.mem_cons_of_mem _ hj), w', ?_, hgw⟩
        rw [lookup_erase_eq_ite, if_neg (hne i List.mem_cons_self).symm, hw']
    omega

end KeyedMap
