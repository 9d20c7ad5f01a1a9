import FuelCore.Lib.AList
import Mathlib.Logic.Relation

/-! # Stable directed graphs

A model of a directed `StableGraph`: node weights under indices that stay valid while
other nodes are removed, and edges between present nodes. A removed node's index goes
to the list of vacant slots; an added node takes the most recently freed slot, else
the index past every index used so far. The structure carries what the graph
maintains, so that the index of an added node is always fresh: every edge joins
present nodes, and the vacant slots are distinct, free and below the bound.

Reachability along the edges is `Reaches`; removing nodes and changing weights only
ever shrink it.
-/

/-- `petgraph::Direction`. -/
inductive Direction
  | outgoing
  | incoming
  deriving DecidableEq, Repr

structure StableGraph (N : Type*) where
  nodes : AList fun _ : ℕ => N
  /-- `(source, target)`, the most recently added edge first. -/
  edges : List (ℕ × ℕ)
  /-- The freed slots, the most recently freed first. -/
  vacant : List ℕ
  nodeBound : ℕ
  edges_mem : ∀ edge ∈ edges, edge.1 ∈ nodes ∧ edge.2 ∈ nodes
  vacant_not_mem : ∀ index ∈ vacant, index ∉ nodes
  vacant_nodup : vacant.Nodup
  lt_nodeBound : ∀ index, index ∈ nodes ∨ index ∈ vacant → index < nodeBound

namespace StableGraph

variable {N : Type*}

/-- `StableGraph::new`. -/
def empty : StableGraph N where
  nodes := ∅
  edges := []
  vacant := []
  nodeBound := 0
  edges_mem := by simp
  vacant_not_mem := by simp
  vacant_nodup := List.nodup_nil
  lt_nodeBound := by simp [AList.notMem_empty]

/-- `node_weight`. -/
def nodeWeight (g : StableGraph N) (index : ℕ) : Option N :=
  g.nodes.lookup index

/-- `neighbors_directed`: the targets of the edges leaving `index`, or the sources of
the edges entering it, the most recent edge first. -/
def neighborsDirected (g : StableGraph N) (index : ℕ) : Direction → List ℕ
  | .outgoing => g.edges.filterMap fun edge => if edge.1 = index then some edge.2 else none
  | .incoming => g.edges.filterMap fun edge => if edge.2 = index then some edge.1 else none

/-! ## Adding nodes and edges -/

/-- The slot `add_node` fills: the most recently freed one, else a new one. -/
def nextIndex (g : StableGraph N) : ℕ :=
  match g.vacant with
  | index :: _ => index
  | [] => g.nodeBound

theorem nextIndex_not_mem (g : StableGraph N) : g.nextIndex ∉ g.nodes := by
  unfold nextIndex
  split
  case h_1 index rest vacantEq =>
    exact g.vacant_not_mem index (by simp [vacantEq])
  case h_2 =>
    intro present
    exact Nat.lt_irrefl _ (g.lt_nodeBound _ (.inl present))

theorem nextIndex_lt (g : StableGraph N) : g.nextIndex < max g.nodeBound (g.nextIndex + 1) :=
  Nat.lt_of_lt_of_le (Nat.lt_succ_self _) (Nat.le_max_right _ _)

theorem ne_nextIndex_of_mem_tail (g : StableGraph N) {index : ℕ} (member : index ∈ g.vacant.tail) :
    index ≠ g.nextIndex := by
  unfold nextIndex
  split
  case h_1 first rest vacantEq =>
    have distinct := g.vacant_nodup
    rw [vacantEq] at distinct member
    rintro rfl
    exact (List.nodup_cons.mp distinct).1 member
  case h_2 vacantEq =>
    simp [vacantEq] at member

/-- `add_node`: the graph with the new node, and its index. -/
def addNode (g : StableGraph N) (weight : N) : StableGraph N × ℕ :=
  ({ nodes := g.nodes.insert g.nextIndex weight
     edges := g.edges
     vacant := g.vacant.tail
     nodeBound := max g.nodeBound (g.nextIndex + 1)
     edges_mem := fun edge member => by
       have ends := g.edges_mem edge member
       exact ⟨(AList.mem_insert _).mpr (.inr ends.1), (AList.mem_insert _).mpr (.inr ends.2)⟩
     vacant_not_mem := fun index member present => by
       rcases (AList.mem_insert _).mp present with same | old
       · exact g.ne_nextIndex_of_mem_tail member same
       · exact g.vacant_not_mem index (List.mem_of_mem_tail member) old
     vacant_nodup := g.vacant_nodup.sublist (List.tail_sublist _)
     lt_nodeBound := fun index member => by
       rcases member with present | free
       · rcases (AList.mem_insert _).mp present with same | old
         · exact same ▸ g.nextIndex_lt
         · exact Nat.lt_of_lt_of_le (g.lt_nodeBound index (.inl old)) (Nat.le_max_left _ _)
       · exact Nat.lt_of_lt_of_le (g.lt_nodeBound index (.inr (List.mem_of_mem_tail free)))
           (Nat.le_max_left _ _) },
   g.nextIndex)

/-- `add_edge` between two present nodes; the source panics on an absent one. -/
def addEdge (g : StableGraph N) (source target : ℕ) : StableGraph N :=
  if present : source ∈ g.nodes ∧ target ∈ g.nodes then
    { g with
      edges := (source, target) :: g.edges
      edges_mem := fun edge member => by
        rcases List.mem_cons.mp member with rfl | old
        · exact present
        · exact g.edges_mem edge old }
  else g

/-! ## Changing and removing nodes -/

/-- `node_weight_mut` on a present node, replaced by its image under `f`. -/
def modifyNode (g : StableGraph N) (index : ℕ) (f : N → N) : StableGraph N :=
  match found : g.nodes.lookup index with
  | none => g
  | some weight =>
      have present : index ∈ g.nodes := AList.lookup_isSome.mp (by simp [found])
      have sameKeys : ∀ other, other ∈ g.nodes.insert index (f weight) ↔ other ∈ g.nodes :=
        fun other => by
          rw [AList.mem_insert]
          constructor
          · rintro (rfl | old)
            · exact present
            · exact old
          · exact .inr
      { g with
        nodes := g.nodes.insert index (f weight)
        edges_mem := fun edge member => by
          rw [sameKeys, sameKeys]
          exact g.edges_mem edge member
        vacant_not_mem := fun other member => by
          rw [sameKeys]
          exact g.vacant_not_mem other member
        lt_nodeBound := fun other member => by
          rw [sameKeys] at member
          exact g.lt_nodeBound other member }

/-- The graph without a present node and the edges at it, its slot freed. -/
def eraseNode (g : StableGraph N) (index : ℕ) (present : index ∈ g.nodes) : StableGraph N where
  nodes := g.nodes.erase index
  edges := g.edges.filter fun edge => edge.1 ≠ index ∧ edge.2 ≠ index
  vacant := index :: g.vacant
  nodeBound := g.nodeBound
  edges_mem := fun edge member => by
    rw [List.mem_filter] at member
    have ends := g.edges_mem edge member.1
    have away : edge.1 ≠ index ∧ edge.2 ≠ index := by simpa using member.2
    exact ⟨AList.mem_erase.mpr ⟨away.1, ends.1⟩, AList.mem_erase.mpr ⟨away.2, ends.2⟩⟩
  vacant_not_mem := fun other member erased => by
    rw [AList.mem_erase] at erased
    rcases List.mem_cons.mp member with rfl | old
    · exact erased.1 rfl
    · exact g.vacant_not_mem other old erased.2
  vacant_nodup := List.nodup_cons.mpr ⟨fun free => g.vacant_not_mem index free present,
    g.vacant_nodup⟩
  lt_nodeBound := fun other member => by
    rcases member with erased | free
    · exact g.lt_nodeBound other (.inl (AList.mem_erase.mp erased).2)
    · rcases List.mem_cons.mp free with rfl | old
      · exact g.lt_nodeBound other (.inl present)
      · exact g.lt_nodeBound other (.inr old)

/-- `remove_node`: the graph without the node and the node's weight, if it is present. -/
def removeNode (g : StableGraph N) (index : ℕ) : Option (StableGraph N × N) :=
  match found : g.nodes.lookup index with
  | none => none
  | some weight => some (g.eraseNode index (AList.lookup_isSome.mp (by simp [found])), weight)

/-! ## Lemmas -/

section Lemmas

variable (g : StableGraph N)

theorem mem_neighborsDirected_outgoing {index other : ℕ} :
    other ∈ g.neighborsDirected index .outgoing ↔ (index, other) ∈ g.edges := by
  simp only [neighborsDirected, List.mem_filterMap, Option.ite_none_right_eq_some,
    Option.some.injEq]
  constructor
  · rintro ⟨edge, member, source, rfl⟩
    rw [← source]
    exact member
  · intro member
    exact ⟨_, member, rfl, rfl⟩

theorem mem_neighborsDirected_incoming {index other : ℕ} :
    other ∈ g.neighborsDirected index .incoming ↔ (other, index) ∈ g.edges := by
  simp only [neighborsDirected, List.mem_filterMap, Option.ite_none_right_eq_some,
    Option.some.injEq]
  constructor
  · rintro ⟨edge, member, target, rfl⟩
    rw [← target]
    exact member
  · intro member
    exact ⟨_, member, rfl, rfl⟩

@[simp] theorem addNode_nodes (weight : N) :
    (g.addNode weight).1.nodes = g.nodes.insert g.nextIndex weight := rfl

@[simp] theorem addNode_edges (weight : N) : (g.addNode weight).1.edges = g.edges := rfl

@[simp] theorem addNode_index (weight : N) : (g.addNode weight).2 = g.nextIndex := rfl

theorem addEdge_nodes (source target : ℕ) : (g.addEdge source target).nodes = g.nodes := by
  unfold addEdge
  split <;> rfl

theorem addEdge_edges {source target : ℕ} (present : source ∈ g.nodes ∧ target ∈ g.nodes) :
    (g.addEdge source target).edges = (source, target) :: g.edges := by
  simp [addEdge, present]

theorem foldl_addEdge_nodes (sources : List ℕ) (target : ℕ) :
    (sources.foldl (fun g source => g.addEdge source target) g).nodes = g.nodes := by
  induction sources generalizing g with
  | nil => rfl
  | cons source sources induction => rw [List.foldl_cons, induction, addEdge_nodes]

theorem mem_foldl_addEdge_edges {sources : List ℕ} {target : ℕ}
    (present : ∀ source ∈ sources, source ∈ g.nodes) (targetPresent : target ∈ g.nodes)
    (edge : ℕ × ℕ) :
    edge ∈ (sources.foldl (fun g source => g.addEdge source target) g).edges ↔
      edge ∈ g.edges ∨ (edge.2 = target ∧ edge.1 ∈ sources) := by
  induction sources generalizing g with
  | nil => simp
  | cons source sources induction =>
      have sourcePresent := present source (List.mem_cons_self ..)
      have restPresent : ∀ other ∈ sources, other ∈ (g.addEdge source target).nodes := by
        intro other listed
        rw [addEdge_nodes]
        exact present other (List.mem_cons_of_mem _ listed)
      rw [List.foldl_cons, induction _ restPresent (by rwa [addEdge_nodes]),
        addEdge_edges _ ⟨sourcePresent, targetPresent⟩]
      obtain ⟨first, second⟩ := edge
      simp only [List.mem_cons, Prod.mk.injEq]
      constructor
      · rintro ((⟨rfl, rfl⟩ | old) | ⟨rfl, later⟩)
        · exact .inr ⟨rfl, .inl rfl⟩
        · exact .inl old
        · exact .inr ⟨rfl, .inr later⟩
      · rintro (old | ⟨rfl, rfl | later⟩)
        · exact .inl (.inr old)
        · exact .inl (.inl ⟨rfl, rfl⟩)
        · exact .inr ⟨rfl, later⟩

theorem modifyNode_edges (index : ℕ) (f : N → N) : (g.modifyNode index f).edges = g.edges := by
  unfold modifyNode
  split <;> rfl

theorem lookup_modifyNode (index other : ℕ) (f : N → N) :
    (g.modifyNode index f).nodes.lookup other =
      if other = index then (g.nodes.lookup index).map f else g.nodes.lookup other := by
  unfold modifyNode
  split
  case h_1 found =>
    split_ifs with same
    · subst same
      simp [found]
    · rfl
  case h_2 weight found =>
    split_ifs with same
    · subst same
      simp [found, AList.lookup_insert]
    · exact AList.lookup_insert_ne same

@[simp] theorem eraseNode_nodes (index : ℕ) (present : index ∈ g.nodes) :
    (g.eraseNode index present).nodes = g.nodes.erase index := rfl

@[simp] theorem eraseNode_edges (index : ℕ) (present : index ∈ g.nodes) :
    (g.eraseNode index present).edges =
      g.edges.filter fun edge => edge.1 ≠ index ∧ edge.2 ≠ index := rfl

theorem removeNode_eq_some {index : ℕ} {result : StableGraph N × N} :
    g.removeNode index = some result ↔
      ∃ present, g.nodes.lookup index = some result.2 ∧ result.1 = g.eraseNode index present := by
  unfold removeNode
  split
  case h_1 found =>
    simp only [reduceCtorEq, false_iff, not_exists, not_and]
    intro _ found'
    rw [found] at found'
    cases found'
  case h_2 weight found =>
    constructor
    · rintro ⟨⟩
      exact ⟨AList.lookup_isSome.mp (by simp [found]), found, rfl⟩
    · rintro ⟨present, found', erased⟩
      rw [found, Option.some.injEq] at found'
      obtain ⟨graph, removed⟩ := result
      simp only at found' erased
      subst found' erased
      rfl

theorem removeNode_eq_none {index : ℕ} : g.removeNode index = none ↔ index ∉ g.nodes := by
  unfold removeNode
  split
  case h_1 found => simpa [AList.lookup_eq_none] using found
  case h_2 weight found =>
    simp only [reduceCtorEq, false_iff, not_not]
    exact AList.lookup_isSome.mp (by simp [found])

theorem eraseNode_edges_length (index : ℕ) (present : index ∈ g.nodes) :
    (g.eraseNode index present).edges.length + (g.neighborsDirected index .outgoing).length ≤
      g.edges.length := by
  simp only [eraseNode_edges, neighborsDirected]
  generalize g.edges = edges
  induction edges with
  | nil => simp
  | cons edge rest induction =>
      rw [List.filter_cons]
      by_cases source : edge.1 = index
      · have dropped : decide (edge.1 ≠ index ∧ edge.2 ≠ index) = false := by simp [source]
        rw [dropped, if_neg Bool.false_ne_true,
          List.filterMap_cons_some (b := edge.2) (by simp [source])]
        simp only [List.length_cons]
        omega
      · rw [List.filterMap_cons_none (by simp [source])]
        by_cases target : edge.2 = index
        · have dropped : decide (edge.1 ≠ index ∧ edge.2 ≠ index) = false := by simp [target]
          rw [dropped, if_neg Bool.false_ne_true]
          simp only [List.length_cons]
          omega
        · have kept : decide (edge.1 ≠ index ∧ edge.2 ≠ index) = true := by simp [source, target]
          rw [kept, if_pos rfl]
          simp only [List.length_cons]
          omega

end Lemmas

/-! ## Reachability -/

/-- `Reaches g a b`: a path of edges leads from `a` to `b`. -/
def Reaches (g : StableGraph N) : ℕ → ℕ → Prop :=
  Relation.ReflTransGen fun source target => (source, target) ∈ g.edges

theorem Reaches.mono {g g' : StableGraph N} (more : ∀ edge ∈ g.edges, edge ∈ g'.edges)
    {a b : ℕ} (reaches : g.Reaches a b) : g'.Reaches a b :=
  Relation.ReflTransGen.mono (fun _ _ edge => more _ edge) _ _ reaches

theorem Reaches.of_edge {g : StableGraph N} {a b : ℕ} (edge : (a, b) ∈ g.edges) :
    g.Reaches a b :=
  Relation.ReflTransGen.single edge

end StableGraph
