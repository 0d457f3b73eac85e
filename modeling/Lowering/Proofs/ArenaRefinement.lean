import Mathlib.Data.List.Induction
import Mathlib.Data.List.Nodup
import Lowering.Ir.Arena
import Lowering.Proofs.WellFormed

/-! # The arena form refines the node list

An IR graph kept in an arena — node weights and a store of edges — behaves as the node list
`Graph`, where each node holds the inputs it was made with. `Arena.Stores a g` says that `a`
holds the weights of `g` in index order and exactly the edges of its input slots
(`Graph.edges`), in some order. Every edit the library carries out keeps it (`Arena.Stores.edit`),
so every run does (`Arena.stores_run`), and through it the arena answers as the node list does:

* `Arena.Stores.inputs` — sorting a node's incoming edges by slot gives back the inputs it was
  made with, whatever order the store holds them in, since one node's slots are distinct;
* `Arena.Stores.consumerCount` — the edges that leave an output are the input slots that read
  it (`Graph.readers`, each slot once), which the node list counts too;
* `Arena.Stores.hasOutput`;
* `Arena.Stores.rollback` — a rollback keeps the older weights as they were and, of the edges,
  exactly those between older nodes. This needs every node to read only older nodes and itself
  (`Graph.ReadsBack`), which holds because the library refuses an edge from a missing node.

`arena_refines_node_list` puts these together for every sequence of edits.
-/

namespace Lowering.Ir

/-! ## The edges of a node's slots -/

theorem Arena.Edge.eq_of_source {e e' : Arena.Edge} (source : e.source = e'.source)
    (dst : e.dst = e'.dst) (dstPort : e.dstPort = e'.dstPort) : e = e' := by
  cases e
  cases e'
  simp only [Arena.Edge.source, Handle.mk.injEq] at source
  simp_all

section SlotEdges

variable {n : Nat} {hs : List Handle}

theorem mem_slotEdges {e : Arena.Edge} :
    e ∈ slotEdges n hs ↔ e.dst = n ∧ hs[e.dstPort]? = some e.source := by
  simp only [slotEdges, List.mem_mapIdx]
  constructor
  · rintro ⟨i, bound, rfl⟩
    simp [Arena.Edge.source, bound]
  · rintro ⟨dst, found⟩
    obtain ⟨bound, same⟩ := List.getElem?_eq_some_iff.mp found
    refine ⟨e.dstPort, bound, Arena.Edge.eq_of_source ?_ dst.symm rfl⟩
    simp [same, Arena.Edge.source]

theorem dst_of_mem_slotEdges {e : Arena.Edge} (member : e ∈ slotEdges n hs) : e.dst = n :=
  (mem_slotEdges.mp member).1

theorem source_mem_of_mem_slotEdges {e : Arena.Edge} (member : e ∈ slotEdges n hs) : e.source ∈ hs :=
  List.mem_of_getElem? (mem_slotEdges.mp member).2

@[simp] theorem map_source_slotEdges (n : Nat) (hs : List Handle) :
    (slotEdges n hs).map Arena.Edge.source = hs := by
  apply List.ext_getElem?
  intro i
  simp only [slotEdges, List.getElem?_map, List.getElem?_mapIdx, Option.map_map]
  cases hs[i]? <;> rfl

/-- The slots of one node come in strictly increasing order. -/
theorem slotEdges_pairwise : (slotEdges n hs).Pairwise fun e e' => e.dstPort < e'.dstPort := by
  rw [List.pairwise_iff_getElem]
  intro i j _ _ before
  simpa [slotEdges] using before

/-- Sorting the edges of a node's slots by slot, whatever order they come in, puts them in slot
order: the slots are distinct, so only one order is sorted. -/
theorem mergeSort_of_perm_slotEdges {es : List Arena.Edge} (perm : es.Perm (slotEdges n hs)) :
    es.mergeSort (fun e e' => e.dstPort ≤ e'.dstPort) = slotEdges n hs := by
  have sorted := @List.pairwise_mergeSort Arena.Edge (fun e e' => decide (e.dstPort ≤ e'.dstPort))
    (fun _ _ _ first second => by simp only [decide_eq_true_eq] at *; omega)
    (fun _ _ => by simp only [Bool.or_eq_true, decide_eq_true_eq]; omega) es
  refine List.Perm.eq_of_pairwise ?_ sorted
    (slotEdges_pairwise.imp fun before => by simp only [decide_eq_true_eq]; omega)
    ((List.mergeSort_perm es _).trans perm)
  intro e e' member member' le ge
  simp only [decide_eq_true_eq] at le ge
  have member : e ∈ slotEdges n hs := perm.subset ((List.mergeSort_perm es _).subset member)
  obtain ⟨dst, found⟩ := mem_slotEdges.mp member
  obtain ⟨dst', found'⟩ := mem_slotEdges.mp member'
  have samePort : e.dstPort = e'.dstPort := by omega
  rw [samePort, found'] at found
  exact Arena.Edge.eq_of_source (Option.some.inj found).symm (dst.trans dst'.symm) samePort

/-- The slots among a node's that read `h` are as many as the times `h` is among its inputs. -/
theorem length_filter_slotEdges (h : Handle) :
    ((slotEdges n hs).filter (·.source == h)).length = hs.count h := by
  have counted := congrArg (List.countP (· == h)) (map_source_slotEdges n hs)
  rw [List.countP_map] at counted
  rw [← List.countP_eq_length_filter, List.count_eq_countP, ← counted]
  rfl

end SlotEdges

/-! ## The edges of a node list -/

namespace Graph

variable {g : Graph}

/-- The edges of a graph: one into each input slot of each node, from the output it reads. -/
def edges (g : Graph) : List Arena.Edge :=
  (List.range g.size).flatMap fun n => slotEdges n (g.inputs n)

/-- The input slots, as (node, slot) pairs, that read output `h`. -/
def readers (g : Graph) (h : Handle) : List (Nat × Nat) :=
  (g.edges.filter (·.source == h)).map fun e => (e.dst, e.dstPort)

/-- Every node reads only older nodes and itself. -/
def ReadsBack (g : Graph) : Prop := ∀ n, ∀ h ∈ g.inputs n, h.node ≤ n

theorem inputs_eq_nil_of_size_le {n : Nat} (beyond : g.size ≤ n) : g.inputs n = [] := by
  have missing : g.node? n = none := Array.getElem?_eq_none beyond
  simp [inputs, missing]

theorem inputs_addNode (name : String) (op : Op) (ins : List Handle) (outs : List TensorInfo)
    (n : Nat) : (g.addNode name op ins outs).1.inputs n = if n = g.size then ins else g.inputs n := by
  unfold inputs
  rw [node?_addNode]
  by_cases fresh : n = g.size
  · rw [if_pos fresh, if_pos fresh]
  · rw [if_neg fresh, if_neg fresh]

theorem inputs_rollback (mark n : Nat) :
    (g.rollback mark).inputs n = if n < mark then g.inputs n else [] := by
  unfold inputs
  rw [node?_rollback]
  by_cases kept : n < mark
  · rw [if_pos kept, if_pos kept]
  · rw [if_neg kept, if_neg kept]

@[simp] theorem inputs_modifyWeight (m : Nat) (f : Weight → Weight) (n : Nat) :
    (g.modifyWeight m f).inputs n = g.inputs n := by
  unfold inputs modifyWeight
  rw [node?_modifyNode]
  by_cases same : m = n
  · rw [if_pos same]
    cases g.node? n <;> rfl
  · rw [if_neg same]

theorem size_rollback (mark : Nat) : (g.rollback mark).size = min mark g.size := by
  simp [rollback, size]

/-- Keeping the edges into the nodes that pass `p` keeps the whole block of each such node. -/
theorem filter_dst_flatMap_range {f : Nat → List Arena.Edge} (dsts : ∀ k, ∀ e ∈ f k, e.dst = k)
    (p : Nat → Bool) (m : Nat) :
    ((List.range m).flatMap f).filter (fun e => p e.dst) =
      (List.range m).flatMap fun k => if p k then f k else [] := by
  have block : ∀ k, (f k).filter (fun e => p e.dst) = if p k then f k else [] := by
    intro k
    by_cases pass : p k
    · rw [if_pos pass, List.filter_eq_self]
      intro e member
      rw [dsts k e member]
      exact pass
    · rw [if_neg pass, List.filter_eq_nil_iff]
      intro e member
      rw [dsts k e member]
      exact pass
  simp only [List.filter_flatMap, block]

theorem flatMap_range_single (f : Nat → List Arena.Edge) (n m : Nat) :
    ((List.range m).flatMap fun k => if (k == n) = true then f k else []) =
      if n < m then f n else [] := by
  induction m with
  | zero => simp
  | succ m ih =>
    rw [List.range_succ, List.flatMap_append, ih, List.flatMap_singleton]
    by_cases below : n < m
    · simp [below, Nat.ne_of_gt below, Nat.lt_succ_of_lt below]
    · by_cases same : m = n
      · subst same
        simp
      · simp [below, same, show ¬n < m + 1 by omega]

theorem flatMap_range_below (f : Nat → List Arena.Edge) (c m : Nat) :
    ((List.range m).flatMap fun k => if decide (k < c) = true then f k else []) =
      (List.range (min c m)).flatMap f := by
  induction m with
  | zero => simp
  | succ m ih =>
    rw [List.range_succ, List.flatMap_append, ih, List.flatMap_singleton]
    by_cases below : m < c
    · rw [show min c (m + 1) = m + 1 by omega, show min c m = m by omega, List.range_succ,
        List.flatMap_append, List.flatMap_singleton]
      simp [below]
    · rw [show min c (m + 1) = min c m by omega]
      simp [below]

/-- The edges into node `n` are those of its slots. -/
theorem filter_dst_edges (n : Nat) : g.edges.filter (·.dst == n) = slotEdges n (g.inputs n) := by
  have kept := filter_dst_flatMap_range (f := fun k => slotEdges k (g.inputs k))
    (fun _ _ => dst_of_mem_slotEdges) (fun k => k == n) g.size
  rw [edges, kept, flatMap_range_single]
  split
  · rfl
  · rw [inputs_eq_nil_of_size_le (by omega)]
    rfl

theorem mem_edges {e : Arena.Edge} : e ∈ g.edges ↔ e ∈ slotEdges e.dst (g.inputs e.dst) := by
  rw [← filter_dst_edges, List.mem_filter]
  simp

theorem edges_addNode (name : String) (op : Op) (ins : List Handle) (outs : List TensorInfo) :
    (g.addNode name op ins outs).1.edges = g.edges ++ slotEdges g.size ins := by
  rw [edges, size_addNode, List.range_succ, List.flatMap_append, List.flatMap_singleton,
    inputs_addNode, if_pos rfl, edges]
  congr 1
  apply List.flatMap_congr
  intro k member
  rw [inputs_addNode, if_neg (Nat.ne_of_lt (List.mem_range.mp member))]

/-- A rollback keeps the edges into the nodes it keeps. -/
theorem edges_rollback (mark : Nat) :
    (g.rollback mark).edges = g.edges.filter fun e => decide (e.dst < mark) := by
  have kept := filter_dst_flatMap_range (f := fun k => slotEdges k (g.inputs k))
    (fun _ _ => dst_of_mem_slotEdges) (fun k => decide (k < mark)) g.size
  rw [edges, edges, kept, flatMap_range_below, size_rollback]
  apply List.flatMap_congr
  intro k member
  rw [inputs_rollback, if_pos (Nat.lt_of_lt_of_le (List.mem_range.mp member) (Nat.min_le_left _ _))]

@[simp] theorem size_modifyWeight (m : Nat) (f : Weight → Weight) :
    (g.modifyWeight m f).size = g.size :=
  size_modifyNode m _

@[simp] theorem edges_modifyWeight (m : Nat) (f : Weight → Weight) :
    (g.modifyWeight m f).edges = g.edges := by
  simp only [edges, inputs_modifyWeight, size_modifyWeight]

@[simp] theorem size_edit_modifyAll (f : Weight → Weight) : (g.edit (.modifyAll f)).size = g.size := by
  simp [edit, size]

@[simp] theorem inputs_edit_modifyAll (f : Weight → Weight) (n : Nat) :
    (g.edit (.modifyAll f)).inputs n = g.inputs n := by
  simp only [edit, inputs, node?, Array.getElem?_map]
  cases g.nodes[n]? <;> rfl

@[simp] theorem edges_edit_modifyAll (f : Weight → Weight) : (g.edit (.modifyAll f)).edges = g.edges := by
  simp only [edges, inputs_edit_modifyAll, size_edit_modifyAll]

theorem toList_rollback (mark : Nat) : (g.rollback mark).nodes.toList = g.nodes.toList.take mark := by
  simp [rollback, List.extract_eq_take_drop]

theorem eq_of_toList {g' : Graph} (same : g.nodes.toList = g'.nodes.toList) : g = g' := by
  cases g
  cases g'
  exact congrArg Graph.mk (Array.toList_inj.mp same)

theorem rollback_rollback (mark mark' : Nat) : (g.rollback mark).rollback mark' = g.rollback (min mark mark') := by
  apply eq_of_toList
  rw [toList_rollback, toList_rollback, toList_rollback, List.take_take, Nat.min_comm]

@[simp] theorem rollback_size : g.rollback g.size = g := by
  apply eq_of_toList
  have length : g.nodes.toList.length = g.size := Array.length_toList
  rw [toList_rollback, List.take_of_length_le (Nat.le_of_eq length)]

/-- A rollback to `min mark size` is the rollback to `mark`: nodes beyond the last are not there. -/
theorem rollback_min_size (mark : Nat) : g.rollback (min mark g.size) = g.rollback mark := by
  apply eq_of_toList
  rw [toList_rollback, toList_rollback]
  have length : g.nodes.toList.length = g.size := Array.length_toList
  by_cases within : mark ≤ g.size
  · rw [Nat.min_eq_left within]
  · rw [Nat.min_eq_right (by omega), List.take_of_length_le (by omega),
      List.take_of_length_le (by omega)]

/-! ## Readers -/

theorem mem_readers {h : Handle} {n i : Nat} : (n, i) ∈ g.readers h ↔ (g.inputs n)[i]? = some h := by
  simp only [readers, List.mem_map, List.mem_filter, beq_iff_eq, Prod.mk.injEq]
  constructor
  · rintro ⟨e, ⟨member, source⟩, rfl, rfl⟩
    rw [mem_edges, mem_slotEdges] at member
    rw [member.2, source]
  · intro found
    refine ⟨⟨h.node, h.output, n, i⟩, ⟨?_, rfl⟩, rfl, rfl⟩
    rw [mem_edges, mem_slotEdges]
    exact ⟨rfl, found⟩

/-- No input slot is listed twice: slots of one node differ, and so do the nodes of two blocks. -/
theorem readers_nodup (h : Handle) : (g.readers h).Nodup := by
  have slots : (g.edges.map fun e => (e.dst, e.dstPort)).Nodup := by
    rw [edges, List.map_flatMap, List.nodup_flatMap]
    constructor
    · intro n _
      exact List.pairwise_map.mpr (slotEdges_pairwise.imp fun before same => by
        simp only [Prod.mk.injEq] at same
        omega)
    · refine List.nodup_range.imp fun differ => ?_
      intro slot first second
      obtain ⟨e, member, rfl⟩ := List.mem_map.mp first
      obtain ⟨e', member', same⟩ := List.mem_map.mp second
      simp only [Prod.mk.injEq] at same
      exact differ ((dst_of_mem_slotEdges member).symm.trans
        (same.1.symm.trans (dst_of_mem_slotEdges member')))
  exact (List.filter_sublist.map _).nodup slots

theorem consumerCount_addNode (name : String) (op : Op) (ins : List Handle) (outs : List TensorInfo)
    (h : Handle) : (g.addNode name op ins outs).1.consumerCount h = g.consumerCount h + ins.count h := by
  simp [consumerCount, addNode]

theorem length_readers_addNode (name : String) (op : Op) (ins : List Handle)
    (outs : List TensorInfo) (h : Handle) :
    ((g.addNode name op ins outs).1.readers h).length = (g.readers h).length + ins.count h := by
  simp only [readers, List.length_map, edges_addNode, List.filter_append, List.length_append,
    length_filter_slotEdges]

/-- The node list counts, for an output, the input slots that read it. -/
theorem consumerCount_eq_length_readers (g : Graph) (h : Handle) :
    g.consumerCount h = (g.readers h).length := by
  obtain ⟨⟨nodes⟩⟩ := g
  -- the nodes were added one after another
  induction nodes using List.reverseRecOn with
  | nil => simp [consumerCount, readers, edges, size]
  | append_singleton nodes nd previous =>
    have grown : ({ nodes := (nodes ++ [nd]).toArray } : Graph) =
        (({ nodes := nodes.toArray } : Graph).addNode nd.name nd.op nd.inputs nd.outputs).1 := by
      simp [addNode, List.push_toArray]
    rw [grown, consumerCount_addNode, length_readers_addNode, previous]

/-! ## Reading only older nodes -/

theorem ReadsBack.mem_edges (back : g.ReadsBack) {e : Arena.Edge} (member : e ∈ g.edges) :
    e.src ≤ e.dst ∧ e.dst < g.size := by
  rw [Graph.mem_edges] at member
  have read := source_mem_of_mem_slotEdges member
  refine ⟨back e.dst e.source read, ?_⟩
  by_contra beyond
  rw [inputs_eq_nil_of_size_le (by omega)] at read
  exact List.not_mem_nil read

theorem readsBack_empty : ({} : Graph).ReadsBack := by
  intro n h member
  rw [inputs_eq_nil_of_size_le (Nat.zero_le n)] at member
  exact absurd member List.not_mem_nil

theorem ReadsBack.rollback (back : g.ReadsBack) (mark : Nat) : (g.rollback mark).ReadsBack := by
  intro n h member
  rw [inputs_rollback] at member
  split at member
  · exact back n h member
  · exact absurd member List.not_mem_nil

/-- An edit the library carries out keeps every node reading only older nodes and itself. -/
theorem ReadsBack.edit (back : g.ReadsBack) {e : Edit} (allowed : g.allows e = true) :
    (g.edit e).ReadsBack := by
  cases e with
  | add w ins =>
    intro n h member
    rw [Graph.edit, inputs_addNode] at member
    split at member
    · rename_i fresh
      simp only [allows, List.all_eq_true, decide_eq_true_eq] at allowed
      exact fresh ▸ allowed h member
    · exact back n h member
  | modify m f =>
    intro n h member
    rw [Graph.edit, inputs_modifyWeight] at member
    exact back n h member
  | modifyAll f =>
    intro n h member
    rw [inputs_edit_modifyAll] at member
    exact back n h member
  | rollback mark => exact back.rollback mark

end Graph

/-! ## Weights -/

/-- Editing a node's weight in place in a list of nodes edits its weight in the list of weights. -/
theorem map_weight_modify (l : List Node) (m : Nat) (f : Weight → Weight) :
    (l.modify m fun nd => (f nd.weight).withInputs nd.inputs).map Node.weight =
      (l.map Node.weight).modify m f := by
  apply List.ext_getElem?
  intro i
  simp only [List.getElem?_map, List.getElem?_modify]
  cases l[i]? with
  | none => rfl
  | some nd =>
    by_cases same : m = i
    · simp [same, Node.weight, Weight.withInputs]
    · simp [same]

/-! ## The arena stores a node list -/

namespace Arena

variable {drop : List Edge → Nat → List Edge} {a : Arena} {g : Graph}

/-- `a` holds the weights of `g` in index order, and exactly the edges of `g`, in some order. -/
structure Stores (a : Arena) (g : Graph) : Prop where
  weights : a.weights = g.nodes.toList.map Node.weight
  edges : a.edges.Perm g.edges

theorem stores_empty : ({} : Arena).Stores {} :=
  ⟨rfl, by simp [Graph.edges, Graph.size]⟩

theorem Stores.size_eq (stores : a.Stores g) : a.size = g.size := by
  simp [Arena.size, stores.weights, Graph.size]

theorem Stores.hasOutput (stores : a.Stores g) (h : Handle) : a.hasOutput h = g.hasOutput h := by
  unfold Arena.hasOutput Graph.hasOutput Graph.node?
  rw [stores.weights, List.getElem?_map, Array.getElem?_toList]
  cases g.nodes[h.node]? <;> rfl

/-- The arena gives each node the inputs the node list holds: its incoming edges, in whatever
order the store keeps them, are the edges of its slots, and sorting them restores slot order. -/
theorem Stores.inputs (stores : a.Stores g) (n : Nat) : a.inputs n = g.inputs n := by
  have incoming : (a.edges.filter (·.dst == n)).Perm (slotEdges n (g.inputs n)) := by
    rw [← Graph.filter_dst_edges]
    exact stores.edges.filter _
  rw [Arena.inputs, mergeSort_of_perm_slotEdges incoming, map_source_slotEdges]

theorem Stores.consumerCount (stores : a.Stores g) (h : Handle) :
    a.consumerCount h = (g.readers h).length := by
  rw [Arena.consumerCount, Graph.readers, List.length_map]
  exact (stores.edges.filter _).length_eq

/-- Removing the newest node takes away its weight and the edges at it, which are the edges into
it: its outputs are read by no older node. -/
theorem Stores.removeNewest (drops : DropsIncident drop) (stores : a.Stores g)
    (back : g.ReadsBack) : (a.removeNewest drop).Stores (g.rollback (g.size - 1)) := by
  have length : g.nodes.toList.length = g.size := Array.length_toList
  refine ⟨?_, ?_⟩
  · rw [Arena.removeNewest, stores.weights, Graph.toList_rollback, List.dropLast_eq_take,
      List.length_map, length, List.map_take]
  · have untouched : g.edges.filter (fun e => !e.touches (g.size - 1)) =
        g.edges.filter fun e => decide (e.dst < g.size - 1) := by
      apply List.filter_congr
      intro e member
      obtain ⟨ordered, bound⟩ := back.mem_edges member
      by_cases below : e.dst < g.size - 1
      · simp only [Edge.touches, below, decide_true, Bool.not_eq_true', Bool.or_eq_false_iff,
          beq_eq_false_iff_ne]
        omega
      · simp only [Edge.touches, below, decide_false, Bool.not_eq_false', Bool.or_eq_true,
          beq_iff_eq]
        omega
    rw [Arena.removeNewest, Graph.edges_rollback, stores.size_eq, ← untouched]
    exact (drops a.edges (g.size - 1)).trans (stores.edges.filter _)

theorem Stores.removeNewestN (drops : DropsIncident drop) (k : Nat) (stores : a.Stores g)
    (back : g.ReadsBack) : (Arena.removeNewestN drop k a).Stores (g.rollback (g.size - k)) := by
  -- each removal is a rollback by one node, and rollbacks compose
  induction k generalizing a g with
  | zero =>
    rw [Arena.removeNewestN, Nat.sub_zero, Graph.rollback_size]
    exact stores
  | succ k previous =>
    have next := previous (stores.removeNewest drops back) (back.rollback _)
    rw [Graph.rollback_rollback, Graph.size_rollback] at next
    rw [Arena.removeNewestN]
    convert next using 2
    omega

theorem Stores.rollback (drops : DropsIncident drop) (stores : a.Stores g) (back : g.ReadsBack)
    (mark : Nat) : (a.rollback drop mark).Stores (g.rollback mark) := by
  have removed := stores.removeNewestN drops (g.size - mark) back
  rw [Nat.sub_sub_eq_min, Nat.min_comm, Graph.rollback_min_size] at removed
  rwa [Arena.rollback, stores.size_eq]

/-- Every edit keeps the arena storing the node list, given that every node reads only older
nodes and itself. -/
theorem Stores.edit (drops : DropsIncident drop) (stores : a.Stores g) (back : g.ReadsBack)
    (e : Edit) : (a.edit drop e).Stores (g.edit e) := by
  cases e with
  | add w ins =>
    refine ⟨?_, ?_⟩
    · simp [Arena.edit, Arena.addNode, Graph.edit, Graph.addNode, stores.weights, Node.weight]
    · rw [Arena.edit, Arena.addNode, Graph.edit, Graph.edges_addNode, stores.size_eq]
      exact stores.edges.append_right _
  | modify m f =>
    refine ⟨?_, ?_⟩
    · show a.weights.modify m f = _
      rw [stores.weights, Graph.edit, Graph.modifyWeight, Graph.modifyNode, Array.toList_modify,
        map_weight_modify]
    · rw [Arena.edit, Graph.edit, Graph.edges_modifyWeight]
      exact stores.edges
  | modifyAll f =>
    refine ⟨?_, ?_⟩
    · show a.weights.map f = _
      simp [stores.weights, Graph.edit, Node.weight, Weight.withInputs]
    · rw [Arena.edit, Graph.edges_edit_modifyAll]
      exact stores.edges
  | rollback mark => exact stores.rollback drops back mark

/-- From a state where the arena stores the node list, every sequence of edits the library
carries out keeps it so, and keeps every node reading only older nodes and itself. -/
theorem stores_foldl (drops : DropsIncident drop) (es : List Edit) (stores : a.Stores g)
    (back : g.ReadsBack) (admitted : g.admits es = true) :
    (es.foldl (Arena.edit drop) a).Stores (es.foldl Graph.edit g) ∧
      (es.foldl Graph.edit g).ReadsBack := by
  induction es generalizing a g with
  | nil => exact ⟨stores, back⟩
  | cons e es later =>
    simp only [Graph.admits, Bool.and_eq_true] at admitted
    exact later (stores.edit drops back e) (back.edit admitted.1) admitted.2

theorem stores_run (drops : DropsIncident drop) {es : List Edit}
    (admitted : Graph.admits {} es = true) :
    (Arena.run drop es).Stores (Graph.run es) ∧ (Graph.run es).ReadsBack :=
  stores_foldl drops es stores_empty Graph.readsBack_empty admitted

/-- What a rollback keeps of an arena: the weights of the older nodes as they were, their
inputs, and of the edges exactly those between older nodes. -/
theorem Stores.rollback_keeps (drops : DropsIncident drop) (stores : a.Stores g)
    (back : g.ReadsBack) (mark : Nat) :
    (a.rollback drop mark).weights = a.weights.take mark ∧
      (∀ n < mark, (a.rollback drop mark).inputs n = a.inputs n) ∧
      (a.rollback drop mark).edges.Perm (a.edges.filter fun e => e.src < mark ∧ e.dst < mark) := by
  have rolled := stores.rollback drops back mark
  refine ⟨?_, fun n below => ?_, ?_⟩
  · rw [rolled.weights, Graph.toList_rollback, stores.weights, List.map_take]
  · rw [rolled.inputs, stores.inputs, Graph.inputs_rollback, if_pos below]
  · -- an edge into an older node comes from an older node, so only its target decides
    have between : a.edges.filter (fun e => e.src < mark ∧ e.dst < mark) =
        a.edges.filter fun e => decide (e.dst < mark) := by
      apply List.filter_congr
      intro e member
      have ordered := (back.mem_edges (stores.edges.subset member)).1
      by_cases below : e.dst < mark
      · simp only [below, and_true, decide_true, decide_eq_true_eq]
        omega
      · simp [below]
    rw [between]
    refine rolled.edges.trans ?_
    rw [Graph.edges_rollback]
    exact (stores.edges.filter _).symm

end Arena

namespace Arena

/-- The arena `a`, whose removal of edges is `drop`, answers as the node list `g`: the weights are
the nodes' in index order; each node's inputs are those of `g`; an output has as many consumers in
both, one per input slot that reads it (`Graph.readers`, each slot once); an output exists
exactly when its node does and has that port; and a rollback to any mark keeps the weights of the
older nodes as they are, their inputs, and of the edges exactly those between older nodes. -/
structure Refines (drop : List Edge → Nat → List Edge) (a : Arena) (g : Graph) : Prop where
  weights : a.weights = g.nodes.toList.map Node.weight
  inputs : ∀ n, a.inputs n = g.inputs n
  consumerCount : ∀ h, a.consumerCount h = g.consumerCount h
  readers : ∀ h, g.consumerCount h = (g.readers h).length ∧ (g.readers h).Nodup ∧
    ∀ n i, (n, i) ∈ g.readers h ↔ (g.inputs n)[i]? = some h
  hasOutput : ∀ h, a.hasOutput h = true ↔ ∃ nd, g.node? h.node = some nd ∧ h.output < nd.outputs.length
  rollback : ∀ mark, (a.rollback drop mark).weights = a.weights.take mark ∧
    (∀ n < mark, (a.rollback drop mark).inputs n = a.inputs n) ∧
    (a.rollback drop mark).edges.Perm (a.edges.filter fun e => e.src < mark ∧ e.dst < mark)

end Arena

/-- An IR graph kept in an arena behaves as the node list after every sequence of edits the
library carries out, whatever order removing a node leaves the remaining edges in. -/
theorem arena_refines_node_list (drop : List Arena.Edge → Nat → List Arena.Edge)
    (drops : DropsIncident drop) (es : List Edit) (admitted : Graph.admits {} es = true) :
    (Arena.run drop es).Refines drop (Graph.run es) := by
  obtain ⟨stores, back⟩ := Arena.stores_run drops admitted
  have counted := Graph.consumerCount_eq_length_readers (Graph.run es)
  refine ⟨stores.weights, stores.inputs, fun h => ?_, fun h => ⟨counted h, Graph.readers_nodup h,
    fun n i => Graph.mem_readers⟩, fun h => ?_, stores.rollback_keeps drops back⟩
  · rw [stores.consumerCount, counted]
  · rw [stores.hasOutput]
    exact Graph.hasOutput_iff

/-- The removal of edges that leaves the remaining ones in their order. -/
def dropKeepingOrder (es : List Arena.Edge) (n : Nat) : List Arena.Edge := es.filter fun e => !e.touches n

theorem dropKeepingOrder_drops : DropsIncident dropKeepingOrder := fun _ _ => List.Perm.refl _

/-- A stand-in `fw` and a parameter `p`; a checkpoint at two nodes; `fw` grown to three outputs
and `p` retyped to `i32`; a node reading `p` and one reading its own output; then the rollback to
the checkpoint. -/
def rollbackScript : List Edit :=
  [.add ⟨"fw", .framework "Custom" [] none, [{}]⟩ [],
   .add ⟨"", .parameter, [{}]⟩ [],
   .modify 0 fun w => { w with outputs := w.outputs ++ List.replicate (3 - w.outputs.length) {} },
   .modify 1 fun w => { w with outputs := w.outputs.modify 0 ({ · with elementType := .i32 }) },
   .add ⟨"relu", .op "Relu" [], [{}]⟩ [⟨1, 0⟩],
   .add ⟨"loop", .op "Loop" [], [{}]⟩ [⟨2, 0⟩, ⟨3, 0⟩],
   .rollback 2]

theorem arena_refines_node_list_rollbackScript :
    DropsIncident dropKeepingOrder ∧ Graph.admits {} rollbackScript = true ∧
      (Arena.run dropKeepingOrder rollbackScript).Refines dropKeepingOrder (Graph.run rollbackScript) :=
  ⟨dropKeepingOrder_drops, by decide,
    arena_refines_node_list dropKeepingOrder dropKeepingOrder_drops rollbackScript (by decide)⟩

end Lowering.Ir
