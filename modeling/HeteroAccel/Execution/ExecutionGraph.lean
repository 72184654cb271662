import HeteroAccel.Lib.DepthFirst
import HeteroAccel.Lib.KeyedMap
import Mathlib.Data.List.Sort

/-!
# Execution graphs

`ExecutionGraph` of `ExecutionGraph.cpp`: nodes under their ids, and successor and predecessor
lists. What a node does is left to a type of operations; the order in which `detectCycle` visits the
nodes is an argument.

## Main definitions

* `ExecutionGraph.addNode`, `addDependency`, `validate`;
* `ExecutionGraph.Built`: the graphs that these calls build;
* `Depends`: the dependencies that a sequence of calls has declared.

## Main results

* `Built.wellFormed`: successors and predecessors are inverse to each other, and without duplicates;
* `acc_of_validate`: in a graph that passes `validate`, every path ends;
* `validate_iff`: `validate` passes a graph exactly when nothing depends on itself.
-/

namespace HeteroAccel.Execution

/-- The kinds of nodes. -/
inductive ExecutionNodeType where
  | compute | dataRead | dataWrite | transfer | residency | prefetch | eviction | synchronization
  | barrier | custom
  deriving DecidableEq, Repr

/-- What a node needs to run. -/
inductive ExecutionResource where
  | cpu | vulkan | cuda | npu | ram | ssd | none
  deriving DecidableEq, Repr

/-- A node; `op` is what its `execute` does. -/
structure IExecutionNode (Op : Type*) where
  id : ℕ
  name : String
  type : ExecutionNodeType
  resource : ExecutionResource
  op : Op

/-- A graph of nodes by their ids, with the edges in both directions. -/
structure ExecutionGraph (Op : Type*) where
  nodes : KeyedMap ℕ (IExecutionNode Op) := ∅
  adj : KeyedMap ℕ (List ℕ) := ∅
  revAdj : KeyedMap ℕ (List ℕ) := ∅

/-- The keys of a map, in order. -/
def sortedKeys {V : Type*} (m : KeyedMap ℕ V) : List ℕ := m.keys.insertionSort (· ≤ ·)

@[simp]
theorem mem_sortedKeys {V : Type*} {m : KeyedMap ℕ V} {k : ℕ} : k ∈ sortedKeys m ↔ k ∈ m := by
  rw [sortedKeys, List.mem_insertionSort]
  rfl

namespace ExecutionGraph

variable {Op : Type*} (g : ExecutionGraph Op)

/-- A node joins the graph and keeps its edges, if it had some; a null pointer is ignored. -/
def addNode (node : Option (IExecutionNode Op)) : ℕ × ExecutionGraph Op :=
  match node with
  | none => (0, g)
  | some node =>
    (node.id, {
      nodes := g.nodes.insert node.id node
      adj := if node.id ∈ g.adj then g.adj else g.adj.insert node.id []
      revAdj := if node.id ∈ g.revAdj then g.revAdj else g.revAdj.insert node.id [] })

/-- The nodes that a node waits for. -/
def getPredecessors (nodeId : ℕ) : List ℕ := (g.revAdj.lookup nodeId).getD []

/-- The nodes that wait for a node. -/
def getSuccessors (nodeId : ℕ) : List ℕ := (g.adj.lookup nodeId).getD []

/-- The node of an id. -/
def getNode (nodeId : ℕ) : Option (IExecutionNode Op) := g.nodes.lookup nodeId

/-- All ids, in increasing order. -/
def getAllNodeIds : List ℕ := sortedKeys g.nodes

/-- An id at the end of a list, unless the list has it. -/
def pushNew (l : List ℕ) (id : ℕ) : List ℕ := if id ∈ l then l else l ++ [id]

/-- One node waits for another, if the graph has both; a second time changes nothing. -/
def addDependency (predecessorId successorId : ℕ) : Bool × ExecutionGraph Op :=
  if predecessorId ∉ g.nodes ∨ successorId ∉ g.nodes then (false, g)
  else
    (true, { g with
      adj := g.adj.insert predecessorId (pushNew (g.getSuccessors predecessorId) successorId)
      revAdj :=
        g.revAdj.insert successorId (pushNew (g.getPredecessors successorId) predecessorId) })

/-- The search for a cycle, from all nodes; `none` would mean that the fuel is used up. -/
def detectCycle (order : Traversal ℕ) : Option Bool :=
  DepthFirst.search g.getSuccessors g.nodes.keys.length (order.visit g.nodes.keys)
    fun _ => .unvisited

/-- `validate`, with its error text. -/
def validate (order : Traversal ℕ) : Option (Bool × String) :=
  if g.nodes.keys = [] then some (true, "Graph is empty.")
  else
    match g.detectCycle order with
    | some true => some (false, "Cycle detected in execution graph dependencies.")
    | some false => some (true, "")
    | none => none

/-- The graphs that calls of `addNode` and `addDependency` build. -/
inductive Built : ExecutionGraph Op → Prop where
  | empty : Built {}
  | addNode {g : ExecutionGraph Op} (h : Built g) (node : Option (IExecutionNode Op)) :
      Built (g.addNode node).2
  | addDependency {g : ExecutionGraph Op} (h : Built g) (predecessorId successorId : ℕ) :
      Built (g.addDependency predecessorId successorId).2

variable {g} {n m : ℕ}

/-! ## Well-formed graphs -/

/-- What holds of the adjacency lists. -/
structure WellFormed (g : ExecutionGraph Op) : Prop where
  inverse : ∀ n m, n ∈ g.getPredecessors m ↔ m ∈ g.getSuccessors n
  closed : ∀ n m, m ∈ g.getSuccessors n → n ∈ g.nodes ∧ m ∈ g.nodes
  successors_nodup : ∀ n, (g.getSuccessors n).Nodup
  predecessors_nodup : ∀ n, (g.getPredecessors n).Nodup
  /-- Nodes are stored under their ids. -/
  ids : ∀ n node, g.getNode n = some node → node.id = n

theorem mem_pushNew {l : List ℕ} {a b : ℕ} : a ∈ pushNew l b ↔ a ∈ l ∨ a = b := by
  unfold pushNew
  split
  next h => exact ⟨.inl, fun h' => h'.elim id fun heq => heq ▸ h⟩
  next => rw [List.mem_append, List.mem_singleton]

theorem nodup_pushNew {l : List ℕ} (h : l.Nodup) (b : ℕ) : (pushNew l b).Nodup := by
  unfold pushNew
  split
  next => exact h
  next hb => exact h.append (List.nodup_singleton b) (List.disjoint_singleton.mpr hb)

/-- A new entry with an empty list changes no list. -/
theorem getD_lookup_insert_nil {adj : KeyedMap ℕ (List ℕ)} {id : ℕ} :
    ((if id ∈ adj then adj else adj.insert id []).lookup n).getD [] = (adj.lookup n).getD [] := by
  split
  next => rfl
  next h =>
    rw [KeyedMap.lookup_insert_eq_ite]
    split
    next heq => rw [heq, AList.lookup_eq_none.mpr h]; rfl
    next => rfl

/-- A new node changes no edge to a successor. -/
@[simp]
theorem getSuccessors_addNode {node : Option (IExecutionNode Op)} :
    (g.addNode node).2.getSuccessors n = g.getSuccessors n := by
  cases node with
  | none => rfl
  | some node => exact getD_lookup_insert_nil

/-- A new node changes no edge to a predecessor. -/
@[simp]
theorem getPredecessors_addNode {node : Option (IExecutionNode Op)} :
    (g.addNode node).2.getPredecessors n = g.getPredecessors n := by
  cases node with
  | none => rfl
  | some node => exact getD_lookup_insert_nil

theorem getNode_addNode (node : IExecutionNode Op) :
    (g.addNode (some node)).2.getNode n = if n = node.id then some node else g.getNode n :=
  KeyedMap.lookup_insert_eq_ite

theorem mem_nodes_addNode {node : IExecutionNode Op} :
    n ∈ (g.addNode (some node)).2.nodes ↔ n = node.id ∨ n ∈ g.nodes :=
  AList.mem_insert _

@[simp]
theorem nodes_addDependency {p s : ℕ} : (g.addDependency p s).2.nodes = g.nodes := by
  unfold addDependency
  split <;> rfl

theorem getSuccessors_addDependency {p s : ℕ} (hp : p ∈ g.nodes) (hs : s ∈ g.nodes) :
    (g.addDependency p s).2.getSuccessors n =
      if n = p then pushNew (g.getSuccessors p) s else g.getSuccessors n := by
  unfold addDependency
  rw [if_neg (by simp [hp, hs]), getSuccessors, KeyedMap.lookup_insert_eq_ite]
  split <;> rfl

theorem getPredecessors_addDependency {p s : ℕ} (hp : p ∈ g.nodes) (hs : s ∈ g.nodes) :
    (g.addDependency p s).2.getPredecessors n =
      if n = s then pushNew (g.getPredecessors s) p else g.getPredecessors n := by
  unfold addDependency
  rw [if_neg (by simp [hp, hs]), getPredecessors, KeyedMap.lookup_insert_eq_ite]
  split <;> rfl

/-- A refused dependency changes nothing. -/
theorem addDependency_of_notMem {p s : ℕ} (h : p ∉ g.nodes ∨ s ∉ g.nodes) :
    g.addDependency p s = (false, g) :=
  if_pos h

/-- A dependency between nodes is one more edge. -/
theorem mem_getSuccessors_addDependency {p s : ℕ} (hp : p ∈ g.nodes) (hs : s ∈ g.nodes) :
    m ∈ (g.addDependency p s).2.getSuccessors n ↔ m ∈ g.getSuccessors n ∨ (n = p ∧ m = s) := by
  rw [getSuccessors_addDependency hp hs]
  split
  next heq => rw [mem_pushNew, heq, and_iff_right rfl]
  next hne => rw [or_iff_left fun heq => hne heq.1]

/-- Seen from its end, too. -/
theorem mem_getPredecessors_addDependency {p s : ℕ} (hp : p ∈ g.nodes) (hs : s ∈ g.nodes) :
    n ∈ (g.addDependency p s).2.getPredecessors m ↔
      n ∈ g.getPredecessors m ∨ (m = s ∧ n = p) := by
  rw [getPredecessors_addDependency hp hs]
  split
  next heq => rw [mem_pushNew, heq, and_iff_right rfl]
  next hne => rw [or_iff_left fun heq => hne heq.1]

/-- A new node keeps the graph well formed. -/
theorem WellFormed.addNode (h : g.WellFormed) (node : Option (IExecutionNode Op)) :
    (g.addNode node).2.WellFormed := by
  cases node with
  | none => exact h
  | some node =>
    refine ⟨?inverse, ?closed, ?successors_nodup, ?predecessors_nodup, ?ids⟩
    case inverse =>
      intro n m
      rw [getSuccessors_addNode, getPredecessors_addNode]
      exact h.inverse n m
    case closed =>
      intro n m hm
      rw [getSuccessors_addNode] at hm
      obtain ⟨hn, hm⟩ := h.closed n m hm
      exact ⟨mem_nodes_addNode.mpr (.inr hn), mem_nodes_addNode.mpr (.inr hm)⟩
    case successors_nodup =>
      intro n
      rw [getSuccessors_addNode]
      exact h.successors_nodup n
    case predecessors_nodup =>
      intro n
      rw [getPredecessors_addNode]
      exact h.predecessors_nodup n
    case ids =>
      intro n node' hn
      rw [getNode_addNode] at hn
      split at hn
      next heq =>
        cases hn
        exact heq.symm
      next => exact h.ids n node' hn

/-- A dependency keeps the graph well formed. -/
theorem WellFormed.addDependency (h : g.WellFormed) (p s : ℕ) :
    (g.addDependency p s).2.WellFormed := by
  by_cases hnodes : p ∉ g.nodes ∨ s ∉ g.nodes
  · rw [addDependency_of_notMem hnodes]
    exact h
  · rw [not_or, not_not, not_not] at hnodes
    obtain ⟨hp, hs⟩ := hnodes
    -- both edges are entered, each once
    refine ⟨?inverse, ?closed, ?successors_nodup, ?predecessors_nodup, ?ids⟩
    case inverse =>
      intro n m
      rw [mem_getSuccessors_addDependency hp hs, mem_getPredecessors_addDependency hp hs, h.inverse,
        and_comm]
    case closed =>
      intro n m hm
      rw [nodes_addDependency]
      rcases (mem_getSuccessors_addDependency hp hs).mp hm with hm | ⟨rfl, rfl⟩
      · exact h.closed n m hm
      · exact ⟨hp, hs⟩
    case successors_nodup =>
      intro n
      rw [getSuccessors_addDependency hp hs]
      split
      next => exact nodup_pushNew (h.successors_nodup p) s
      next => exact h.successors_nodup n
    case predecessors_nodup =>
      intro n
      rw [getPredecessors_addDependency hp hs]
      split
      next => exact nodup_pushNew (h.predecessors_nodup s) p
      next => exact h.predecessors_nodup n
    case ids =>
      intro n node hn
      rw [getNode, nodes_addDependency] at hn
      exact h.ids n node hn

/-- A graph that was built is well formed. -/
theorem Built.wellFormed (h : g.Built) : g.WellFormed := by
  induction h with
  | empty =>
    refine ⟨?_, ?_, fun _ => .nil, fun _ => .nil, ?_⟩
    · intro n m
      exact iff_of_false (List.not_mem_nil) (List.not_mem_nil)
    · intro n m hm
      cases hm
    · intro n node hn
      cases hn
  | addNode _ node ih => exact ih.addNode node
  | addDependency _ p s ih => exact ih.addDependency p s

/-! ## Cycles -/

/-- The search for a cycle ends. -/
theorem WellFormed.detectCycle_isSome (h : g.WellFormed) (order : Traversal ℕ) :
    ∃ found, g.detectCycle order = some found := by
  refine DepthFirst.search_isSome ?_ ?_ (fun v (hv : v ∈ g.nodes.keys) _ => hv) Nat.le.refl
  · exact fun n _ m hm => (h.closed n m hm).2
  · exact fun n hn => order.mem_visit.mp hn

/-- In a graph that passes `validate`, every path ends. -/
theorem acc_of_validate (h : g.WellFormed) {order : Traversal ℕ} {text : String}
    (hvalid : g.validate order = some (true, text)) (n : ℕ) :
    Acc (fun m n => m ∈ g.getSuccessors n) n := by
  by_cases hn : n ∈ g.nodes
  · unfold validate at hvalid
    split at hvalid
    next hempty =>
      have hn : n ∈ g.nodes.keys := hn
      rw [hempty] at hn
      cases hn
    next =>
      split at hvalid
      next => cases hvalid
      next hsearch =>
        refine DepthFirst.acc_of_search (fun _ hv => by cases hv)
          (fun _ hv => by cases hv) hsearch n ?_
        exact order.mem_visit.mpr hn
      next => cases hvalid
  · exact .intro n fun m hm => absurd (h.closed n m hm).1 hn

/-- Nor does a path backwards go on for ever. -/
theorem wellFounded_of_validate (h : g.WellFormed) {order : Traversal ℕ} {text : String}
    (hvalid : g.validate order = some (true, text)) :
    WellFounded fun n m => m ∈ g.getSuccessors n := by
  have hclosed : ∀ n m, m ∈ g.getSuccessors n → n ∈ g.nodes.keys := fun n m hm =>
    (h.closed n m hm).1
  exact DepthFirst.wellFounded_predecessors hclosed (acc_of_validate h hvalid)

/-- A graph that does not pass `validate` has a cycle. -/
theorem cyclic_of_validate {order : Traversal ℕ} {text : String}
    (hvalid : g.validate order = some (false, text)) :
    ∃ n, Relation.TransGen (fun n m => m ∈ g.getSuccessors n) n n := by
  unfold validate at hvalid
  split at hvalid
  next => cases hvalid
  next =>
    split at hvalid
    next hsearch =>
      exact DepthFirst.cyclic_of_search (fun _ hv => by cases hv) (fun _ hv => by cases hv) hsearch
    next => cases hvalid
    next => cases hvalid

/-- `validate` decides whether there is a cycle, in whatever order it visits the nodes. -/
theorem WellFormed.exists_validate (h : g.WellFormed) (order : Traversal ℕ) :
    ∃ valid text, g.validate order = some (valid, text) ∧
      (valid = true ↔ ∀ n, ¬ Relation.TransGen (fun n m => m ∈ g.getSuccessors n) n n) := by
  obtain ⟨valid, text, hvalid⟩ : ∃ valid text, g.validate order = some (valid, text) := by
    obtain ⟨found, hfound⟩ := h.detectCycle_isSome order
    unfold validate
    rw [hfound]
    split
    next => exact ⟨true, _, rfl⟩
    next =>
      cases found with
      | true => exact ⟨false, _, rfl⟩
      | false => exact ⟨true, _, rfl⟩
  refine ⟨valid, text, hvalid, ?_⟩
  cases valid with
  | true =>
    exact iff_of_true rfl (DepthFirst.acyclic_of_acc (acc_of_validate h hvalid))
  | false =>
    obtain ⟨n, hn⟩ := cyclic_of_validate hvalid
    exact iff_of_false (by decide) fun hall => hall n hn

end ExecutionGraph

/-! ## Sequences of calls -/

/-- A call that builds a graph. -/
inductive GraphCall (Op : Type*) where
  | addNode (node : Option (IExecutionNode Op))
  | addDependency (predecessorId successorId : ℕ)

namespace ExecutionGraph

variable {Op : Type*} {n m : ℕ}

/-- The graph after a call. -/
def apply (g : ExecutionGraph Op) : GraphCall Op → ExecutionGraph Op
  | .addNode node => (g.addNode node).2
  | .addDependency predecessorId successorId => (g.addDependency predecessorId successorId).2

/-- The graph that calls build. -/
def build (calls : List (GraphCall Op)) : ExecutionGraph Op := calls.foldl apply {}

/-- The calls have added a node with this id. -/
def Added (calls : List (GraphCall Op)) (id : ℕ) : Prop :=
  ∃ node : IExecutionNode Op, .addNode (some node) ∈ calls ∧ node.id = id

/-- The calls have declared a dependency between nodes, each of which had been added before. -/
def Depends (calls : List (GraphCall Op)) (predecessorId successorId : ℕ) : Prop :=
  ∃ earlier, earlier ++ [.addDependency predecessorId successorId] <+: calls ∧
    Added earlier predecessorId ∧ Added earlier successorId

variable {calls : List (GraphCall Op)} {c : GraphCall Op}

theorem build_concat : build (calls ++ [c]) = (build calls).apply c := by
  rw [build, List.foldl_concat]
  rfl

theorem built_build (calls : List (GraphCall Op)) : (build calls).Built := by
  induction calls using List.reverseRecOn with
  | nil => exact .empty
  | append_singleton calls c ih =>
    rw [build_concat]
    cases c with
    | addNode node => exact ih.addNode node
    | addDependency p s => exact ih.addDependency p s

/-- A node is added by an earlier call or by the last one. -/
theorem added_concat : Added (calls ++ [c]) n ↔
    Added calls n ∨ ∃ node : IExecutionNode Op, c = .addNode (some node) ∧ node.id = n := by
  simp only [Added, List.mem_append, List.mem_singleton, or_and_right, exists_or, eq_comm]

/-- A dependency is there from an earlier call, or the last call adds it between nodes that were
added. -/
theorem depends_concat : Depends (calls ++ [c]) n m ↔
    Depends calls n m ∨ c = .addDependency n m ∧ Added calls n ∧ Added calls m := by
  constructor
  · rintro ⟨earlier, hprefix, hadded⟩
    rcases List.prefix_concat_iff.mp hprefix with heq | hprefix
    · obtain ⟨rfl, hc⟩ := List.append_inj' heq rfl
      exact .inr ⟨(List.singleton_inj.mp hc).symm, hadded⟩
    · exact .inl ⟨earlier, hprefix, hadded⟩
  · rintro (⟨earlier, hprefix, hadded⟩ | ⟨rfl, hadded⟩)
    · exact ⟨earlier, hprefix.trans (List.prefix_append _ _), hadded⟩
    · exact ⟨calls, List.prefix_rfl, hadded⟩

/-- The nodes are those that have been added. -/
theorem mem_nodes_build : n ∈ (build calls).nodes ↔ Added calls n := by
  induction calls using List.reverseRecOn with
  | nil => exact iff_of_false (AList.notMem_empty n) (by rintro ⟨node, hmem, -⟩; cases hmem)
  | append_singleton calls c ih =>
    rw [build_concat, added_concat, ← ih]
    cases c with
    | addNode node =>
      cases node with
      | none => simp [apply, addNode]
      | some node =>
        rw [apply, mem_nodes_addNode]
        simp [or_comm, eq_comm]
    | addDependency p s => simp [apply]

/-- The edges are the dependencies that have been declared. -/
theorem mem_getSuccessors_build : m ∈ (build calls).getSuccessors n ↔ Depends calls n m := by
  induction calls using List.reverseRecOn with
  | nil => exact iff_of_false List.not_mem_nil (by rintro ⟨earlier, hprefix, -⟩; simp at hprefix)
  | append_singleton calls c ih =>
    rw [build_concat, depends_concat, ← ih]
    cases c with
    | addNode node => simp [apply]
    | addDependency p s =>
      rw [apply]
      by_cases hnodes : p ∉ (build calls).nodes ∨ s ∉ (build calls).nodes
      · rw [addDependency_of_notMem hnodes, or_iff_left]
        rintro ⟨hc, hn, hm⟩
        cases hc
        exact hnodes.elim (absurd (mem_nodes_build.mpr hn)) (absurd (mem_nodes_build.mpr hm))
      · rw [not_or, not_not, not_not] at hnodes
        obtain ⟨hp, hs⟩ := hnodes
        rw [mem_getSuccessors_addDependency hp hs, or_congr_right]
        constructor
        · rintro ⟨rfl, rfl⟩
          exact ⟨rfl, mem_nodes_build.mp hp, mem_nodes_build.mp hs⟩
        · rintro ⟨hc, -⟩
          cases hc
          exact ⟨rfl, rfl⟩

/-- After any calls, successors and predecessors are what has been declared, each once and between
nodes, and `validate` passes exactly the graphs in which nothing depends on itself. -/
theorem validate_iff (calls : List (GraphCall Op)) (order : Traversal ℕ) :
    (∀ n m, m ∈ (build calls).getSuccessors n ↔ Depends calls n m) ∧
    (∀ n m, n ∈ (build calls).getPredecessors m ↔ Depends calls n m) ∧
    (∀ n, ((build calls).getSuccessors n).Nodup ∧ ((build calls).getPredecessors n).Nodup) ∧
    (∀ n m, Depends calls n m → n ∈ (build calls).nodes ∧ m ∈ (build calls).nodes) ∧
    ∃ valid text, (build calls).validate order = some (valid, text) ∧
      (valid = true ↔ ∀ n, ¬ Relation.TransGen (Depends calls) n n) := by
  have h : (build calls).WellFormed := (built_build calls).wellFormed
  have hsucc : (fun n m => m ∈ (build calls).getSuccessors n) = Depends calls := by
    ext n m
    exact mem_getSuccessors_build
  refine ⟨fun n m => mem_getSuccessors_build, fun n m => ?_, fun n => ?_, fun n m hdep => ?_, ?_⟩
  · rw [h.inverse, mem_getSuccessors_build]
  · exact ⟨h.successors_nodup n, h.predecessors_nodup n⟩
  · exact h.closed n m (mem_getSuccessors_build.mpr hdep)
  · rw [← hsucc]
    exact h.exists_validate order

end ExecutionGraph
end HeteroAccel.Execution
