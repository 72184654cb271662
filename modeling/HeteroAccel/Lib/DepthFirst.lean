import Mathlib.Data.Nat.Notation
import Mathlib.Logic.Function.Basic
import Mathlib.Data.List.Basic
import Mathlib.Data.Set.Finite.List
import Mathlib.Logic.Relation
import Mathlib.Order.WellFounded
import Mathlib.Data.Fintype.Card

/-!
# Depth-first search with three marks

The search for a cycle that marks a vertex while its successors are searched, and again when they
are done. Vertices and successors are arbitrary; the depth of the recursion is bounded by fuel.

* `DepthFirst.scan`: the loop over the successors of a vertex;
* `DepthFirst.dfs`: the search from a vertex, which answers whether it met a vertex in progress;
* `DepthFirst.Finished`: what is known of vertices that are done: every path from them ends;
* `DepthFirst.dfs_finished`: a search that meets no vertex in progress finishes its vertex;
* `DepthFirst.cyclic_of_search`: a search meets a vertex in progress only on a cycle;
* `DepthFirst.wellFounded_predecessors`: where every path ends, so do the paths backwards;
* `DepthFirst.dfs_isSome`: one unit of fuel for each unvisited vertex is enough.
-/

namespace DepthFirst

/-- The three colours of the search. -/
inductive Mark where
  | unvisited | visiting | visited
  deriving DecidableEq, Repr

variable {V : Type*} [DecidableEq V]

/-- The loop over the successors of a vertex. -/
def scan (visit : V → (V → Mark) → Option (Bool × (V → Mark))) :
    List V → (V → Mark) → Option (Bool × (V → Mark))
  | [], marks => some (false, marks)
  | v :: vs, marks =>
    match marks v with
    -- a vertex in progress closes a cycle
    | .visiting => some (true, marks)
    | .visited => scan visit vs marks
    | .unvisited =>
      match visit v marks with
      | some (false, marks) => scan visit vs marks
      | result => result

/-- The search from a vertex; `none` when the fuel is used up. -/
def dfs (succ : V → List V) : ℕ → V → (V → Mark) → Option (Bool × (V → Mark))
  | 0, _, _ => none
  | fuel + 1, v, marks =>
    match scan (dfs succ fuel) (succ v) (Function.update marks v .visiting) with
    | some (false, marks) => some (false, Function.update marks v .visited)
    | result => result

/-- Whether searches from the vertices of a list, each left out if it has been visited, meet a
vertex in progress. -/
def search (succ : V → List V) (fuel : ℕ) : List V → (V → Mark) → Option Bool
  | [], _ => some false
  | v :: vs, marks =>
    if marks v = .unvisited then
      match dfs succ fuel v marks with
      | some (false, marks) => search succ fuel vs marks
      | result => result.map Prod.fst
    else search succ fuel vs marks

variable {succ : V → List V} {fuel : ℕ} {v : V} {vs : List V} {marks marks' : V → Mark}

/-! ## Vertices that are done -/

/-- Every path from a vertex that is done ends. -/
def Finished (succ : V → List V) (marks : V → Mark) : Prop :=
  ∀ v, marks v = .visited → Acc (fun w v => w ∈ succ v) v

/-- What a search that meets no vertex in progress leaves: all vertices that are done are finished,
and those in progress were so before. -/
structure Extends (succ : V → List V) (marks marks' : V → Mark) : Prop where
  kept : ∀ v, marks v = .visited → marks' v = .visited
  progress : ∀ v, marks' v = .visiting → marks v = .visiting
  finished : Finished succ marks'

omit [DecidableEq V] in
/-- A scan without a cycle has visited all of its list. -/
theorem scan_finished {visit : V → (V → Mark) → Option (Bool × (V → Mark))}
    (hvisit : ∀ v marks marks', Finished succ marks → visit v marks = some (false, marks') →
      Extends succ marks marks' ∧ marks' v = .visited)
    (hmarks : Finished succ marks) (h : scan visit vs marks = some (false, marks')) :
    Extends succ marks marks' ∧ ∀ v ∈ vs, marks' v = .visited := by
  induction vs generalizing marks with
  | nil =>
    cases h
    exact ⟨⟨fun _ => id, fun _ => id, hmarks⟩, fun _ hv => by cases hv⟩
  | cons v vs ih =>
    rw [scan] at h
    split at h
    next => cases h
    next hdone =>
      obtain ⟨hext, hall⟩ := ih hmarks h
      exact ⟨hext, List.forall_mem_cons.mpr ⟨hext.kept v hdone, hall⟩⟩
    next =>
      split at h
      next marks₁ hv =>
        obtain ⟨hext₁, hdone⟩ := hvisit v marks marks₁ hmarks hv
        obtain ⟨hext, hall⟩ := ih hext₁.finished h
        exact ⟨⟨fun w hw => hext.kept w (hext₁.kept w hw),
          fun w hw => hext₁.progress w (hext.progress w hw), hext.finished⟩,
          List.forall_mem_cons.mpr ⟨hext.kept v hdone, hall⟩⟩
      next hne => exact absurd h (hne _)

/-- To mark a vertex as in progress finishes nothing. -/
theorem Finished.start (h : Finished succ marks) (v : V) :
    Finished succ (Function.update marks v .visiting) := by
  intro w hw
  by_cases heq : w = v
  · rw [heq, Function.update_self] at hw
    cases hw
  · rw [Function.update_of_ne heq] at hw
    exact h w hw

/-- A search that meets no vertex in progress finishes its vertex, since it finishes the successors
first. -/
theorem dfs_finished (hmarks : Finished succ marks)
    (h : dfs succ fuel v marks = some (false, marks')) :
    Extends succ marks marks' ∧ marks' v = .visited := by
  induction fuel generalizing v marks marks' with
  | zero => cases h
  | succ fuel ih =>
    rw [dfs] at h
    split at h
    next marks₁ hscan =>
      cases h
      obtain ⟨hext, hall⟩ :=
        scan_finished (fun v marks marks' hm hd => ih hm hd) (hmarks.start v) hscan
      refine ⟨⟨fun w hw => ?_, fun w hw => ?_, fun w hw => ?_⟩, Function.update_self _ _ _⟩
      · -- the vertex itself, and the others
        by_cases heq : w = v
        · rw [heq, Function.update_self]
        · rw [Function.update_of_ne heq]
          exact hext.kept w (by rw [Function.update_of_ne heq, hw])
      · by_cases heq : w = v
        · rw [heq, Function.update_self] at hw
          cases hw
        · rw [Function.update_of_ne heq] at hw
          have := hext.progress w hw
          rwa [Function.update_of_ne heq] at this
      · by_cases heq : w = v
        · -- the successors of the vertex are done
          exact .intro w fun u hu => hext.finished u (hall u (heq ▸ hu))
        · rw [Function.update_of_ne heq] at hw
          exact hext.finished w hw
    next hne => exact absurd h (hne _)

/-- Every path ends that begins at a vertex searched from, when no search meets a vertex in
progress. -/
theorem acc_of_search (hmarks : Finished succ marks) (hnone : ∀ v, marks v ≠ .visiting)
    (h : search succ fuel vs marks = some false) : ∀ v ∈ vs, Acc (fun w v => w ∈ succ v) v := by
  induction vs generalizing marks with
  | nil => exact fun _ hv => by cases hv
  | cons v vs ih =>
    rw [search] at h
    split at h
    next =>
      split at h
      next marks₁ hdfs =>
        obtain ⟨hext, hdone⟩ := dfs_finished hmarks hdfs
        refine List.forall_mem_cons.mpr ⟨hext.finished v hdone, ?_⟩
        exact ih hext.finished (fun w hw => hnone w (hext.progress w hw)) h
      next hne =>
        obtain ⟨⟨found, marks₁⟩, hdfs, hfound⟩ := Option.map_eq_some_iff.mp h
        cases hfound
        exact absurd hdfs (hne _)
    next hmark =>
      refine List.forall_mem_cons.mpr ⟨?_, ih hmarks hnone h⟩
      cases hv : marks v with
      | unvisited => exact absurd hv hmark
      | visiting => exact absurd hv (hnone v)
      | visited => exact hmarks v hv

/-! ## A vertex in progress that is met -/

/-- All vertices in progress lead to the vertex that is searched from. -/
def Leads (succ : V → List V) (marks : V → Mark) (v : V) : Prop :=
  ∀ w, marks w = .visiting → Relation.TransGen (fun v w => w ∈ succ v) w v

omit [DecidableEq V] in
/-- Where a scan reports a cycle there is one. -/
theorem scan_found {visit : V → (V → Mark) → Option (Bool × (V → Mark))} {u : V}
    (hkeep : ∀ v marks marks', Finished succ marks → visit v marks = some (false, marks') →
      Extends succ marks marks')
    (hvisit : ∀ v marks marks', Finished succ marks → Leads succ marks v →
      visit v marks = some (true, marks') → ∃ w, Relation.TransGen (fun v w => w ∈ succ v) w w)
    (hedges : ∀ v ∈ vs, v ∈ succ u) (hmarks : Finished succ marks)
    (hleads : ∀ w, marks w = .visiting → Relation.ReflTransGen (fun v w => w ∈ succ v) w u)
    (h : scan visit vs marks = some (true, marks')) :
    ∃ w, Relation.TransGen (fun v w => w ∈ succ v) w w := by
  induction vs generalizing marks with
  | nil => cases h
  | cons v vs ih =>
    obtain ⟨hedge, hedges'⟩ := List.forall_mem_cons.mp hedges
    rw [scan] at h
    split at h
    next hvisiting =>
      -- the edge to a vertex in progress closes a cycle
      exact ⟨v, .tail' (hleads v hvisiting) hedge⟩
    next => exact ih hedges' hmarks hleads h
    next =>
      split at h
      next marks₁ hv =>
        have hext : Extends succ marks marks₁ := hkeep v marks marks₁ hmarks hv
        exact ih hedges' hext.finished (fun w hw => hleads w (hext.progress w hw)) h
      next =>
        have hleads' : Leads succ marks v := fun w hw => .tail' (hleads w hw) hedge
        exact hvisit v marks marks' hmarks hleads' h

/-- A search that meets a vertex in progress has come round a cycle. -/
theorem dfs_found (hmarks : Finished succ marks) (hleads : Leads succ marks v)
    (h : dfs succ fuel v marks = some (true, marks')) :
    ∃ w, Relation.TransGen (fun v w => w ∈ succ v) w w := by
  induction fuel generalizing v marks marks' with
  | zero => cases h
  | succ fuel ih =>
    rw [dfs] at h
    split at h
    next => cases h
    next =>
      refine scan_found (fun v marks marks' hm hd => (dfs_finished hm hd).1)
        (fun v marks marks' hm hl hd => ih hm hl hd) (fun w hw => hw) (hmarks.start v) ?_ h
      intro w hw
      by_cases heq : w = v
      · rw [heq]
      · rw [Function.update_of_ne heq] at hw
        exact (hleads w hw).to_reflTransGen

/-- When a search meets a vertex in progress, there is a cycle. -/
theorem cyclic_of_search (hmarks : Finished succ marks) (hnone : ∀ v, marks v ≠ .visiting)
    (h : search succ fuel vs marks = some true) :
    ∃ v, Relation.TransGen (fun v w => w ∈ succ v) v v := by
  induction vs generalizing marks with
  | nil => cases h
  | cons v vs ih =>
    rw [search] at h
    split at h
    next =>
      split at h
      next marks₁ hdfs =>
        obtain ⟨hext, -⟩ := dfs_finished hmarks hdfs
        exact ih hext.finished (fun w hw => hnone w (hext.progress w hw)) h
      next =>
        obtain ⟨⟨found, marks₁⟩, hdfs, hfound⟩ := Option.map_eq_some_iff.mp h
        cases hfound
        exact dfs_found hmarks (fun w hw => absurd hw (hnone w)) hdfs
    next => exact ih hmarks hnone h

omit [DecidableEq V] in
/-- Where every path ends, no path returns. -/
theorem acyclic_of_acc (hacc : ∀ v, Acc (fun w v => w ∈ succ v) v) (v : V) :
    ¬ Relation.TransGen (fun v w => w ∈ succ v) v v :=
  fun hcycle =>
    (WellFounded.intro hacc).transGen.irrefl.irrefl v (Relation.transGen_swap.mp hcycle)

omit [DecidableEq V] in
/-- On finitely many vertices, the paths backwards end as well. -/
theorem wellFounded_predecessors (hclosed : ∀ v w, w ∈ succ v → v ∈ vs)
    (hacc : ∀ v, Acc (fun w v => w ∈ succ v) v) : WellFounded fun v w => w ∈ succ v := by
  have htrans : IsTrans {v // v ∈ vs} fun v w =>
      Relation.TransGen (fun v w => w ∈ succ v) v.1 w.1 :=
    ⟨fun _ _ _ => Relation.TransGen.trans⟩
  have hirrefl : Std.Irrefl fun v w : {v // v ∈ vs} =>
      Relation.TransGen (fun v w => w ∈ succ v) v.1 w.1 :=
    ⟨fun v => acyclic_of_acc hacc v.1⟩
  have hfinite : Finite {v // v ∈ vs} := (List.finite_toSet vs).to_subtype
  have hback := Finite.wellFounded_of_trans_of_irrefl fun v w : {v // v ∈ vs} =>
    Relation.TransGen (fun v w => w ∈ succ v) v.1 w.1
  have hmem : ∀ v : {v // v ∈ vs}, Acc (fun v w => w ∈ succ v) v.1 := by
    intro v
    induction v using hback.induction with
    | _ w ih => exact .intro w.1 fun v hv => ih ⟨v, hclosed v w.1 hv⟩ (.single hv)
  exact ⟨fun w => .intro w fun v hv => hmem ⟨v, hclosed v w hv⟩⟩

/-! ## Fuel -/

/-- The unvisited vertices among `vs` are in `us`. -/
def Covers (vs us : List V) (marks : V → Mark) : Prop :=
  ∀ v ∈ vs, marks v = .unvisited → v ∈ us

/-- A search visits, and never unvisits. -/
def Visits (marks marks' : V → Mark) : Prop := ∀ v, marks' v = .unvisited → marks v = .unvisited

omit [DecidableEq V] in
/-- What is covered stays so when more is visited. -/
theorem Covers.visits {us : List V} (h : Covers vs us marks) (hvisits : Visits marks marks') :
    Covers vs us marks' :=
  fun v hv hm => h v hv (hvisits v hm)

omit [DecidableEq V] in
/-- A scan has a result, if its visits do. -/
theorem scan_isSome {visit : V → (V → Mark) → Option (Bool × (V → Mark))} {us ws : List V}
    (hvisit : ∀ v ∈ vs, ∀ marks, Covers vs us marks → marks v = .unvisited →
      ∃ r, visit v marks = some r ∧ Visits marks r.2)
    (hws : ∀ w ∈ ws, w ∈ vs) (hus : Covers vs us marks) :
    ∃ r, scan visit ws marks = some r ∧ Visits marks r.2 := by
  induction ws generalizing marks with
  | nil => exact ⟨_, rfl, fun _ => id⟩
  | cons w ws ih =>
    have hws' : ∀ w ∈ ws, w ∈ vs := fun w hw => hws w (List.mem_cons_of_mem _ hw)
    rw [scan]
    split
    next => exact ⟨_, rfl, fun _ => id⟩
    next => exact ih hws' hus
    next hw =>
      obtain ⟨⟨found, marks₁⟩, hvisited, hvisits⟩ :=
        hvisit w (hws w List.mem_cons_self) marks hus hw
      rw [hvisited]
      cases found with
      | true => exact ⟨_, rfl, hvisits⟩
      | false =>
        obtain ⟨r, hr, hvisits'⟩ := ih hws' (hus.visits hvisits)
        exact ⟨r, hr, fun v hv => hvisits v (hvisits' v hv)⟩

/-- One unit of fuel for each unvisited vertex is enough. -/
theorem dfs_isSome (hclosed : ∀ v ∈ vs, ∀ w ∈ succ v, w ∈ vs) {us : List V}
    (hus : Covers vs us marks) (hfuel : us.length ≤ fuel) (hv : v ∈ vs)
    (hmark : marks v = .unvisited) :
    ∃ r, dfs succ fuel v marks = some r ∧ Visits marks r.2 := by
  induction fuel generalizing v us marks with
  | zero =>
    have hmem := hus v hv hmark
    rw [List.length_eq_zero_iff.mp (Nat.le_zero.mp hfuel)] at hmem
    cases hmem
  | succ fuel ih =>
    -- the vertex itself is no longer unvisited
    have hus' : Covers vs (us.erase v) (Function.update marks v .visiting) := by
      intro w hw hm
      have hne : w ≠ v := by
        rintro rfl
        rw [Function.update_self] at hm
        cases hm
      rw [Function.update_of_ne hne] at hm
      exact (List.mem_erase_of_ne hne).mpr (hus w hw hm)
    have hlength : (us.erase v).length ≤ fuel := by
      rw [List.length_erase_of_mem (hus v hv hmark)]
      omega
    obtain ⟨⟨found, marks₁⟩, hscan, hvisits⟩ :=
      scan_isSome (fun w hw marks hm hmark => ih hm hlength hw hmark) (hclosed v hv) hus'
    rw [dfs, hscan]
    have hvisits' : Visits marks marks₁ := by
      intro w hw
      have := hvisits w hw
      by_cases heq : w = v
      · rw [heq, hmark]
      · rwa [Function.update_of_ne heq] at this
    cases found with
    | true => exact ⟨_, rfl, hvisits'⟩
    | false =>
      refine ⟨_, rfl, fun w hw => ?_⟩
      by_cases heq : w = v
      · rw [heq, hmark]
      · dsimp only at hw
        rw [Function.update_of_ne heq] at hw
        exact hvisits' w hw

/-- With enough fuel the search has a result. -/
theorem search_isSome (hclosed : ∀ v ∈ vs, ∀ w ∈ succ v, w ∈ vs) {us ws : List V}
    (hws : ∀ w ∈ ws, w ∈ vs) (hus : Covers vs us marks) (hfuel : us.length ≤ fuel) :
    ∃ found, search succ fuel ws marks = some found := by
  induction ws generalizing marks with
  | nil => exact ⟨_, rfl⟩
  | cons w ws ih =>
    have hws' : ∀ w ∈ ws, w ∈ vs := fun w hw => hws w (List.mem_cons_of_mem _ hw)
    rw [search]
    split
    next hmark =>
      obtain ⟨⟨found, marks₁⟩, hdfs, hvisits⟩ :=
        dfs_isSome hclosed hus hfuel (hws w List.mem_cons_self) hmark
      rw [hdfs]
      cases found with
      | true => exact ⟨_, rfl⟩
      | false => exact ih hws' (hus.visits hvisits)
    next => exact ih hws' hus

end DepthFirst
