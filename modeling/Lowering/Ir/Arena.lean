import Lowering.Ir.Basic

/-! # IR graphs in a node-and-edge arena

The form a general graph library gives an IR graph: node weights by index (a name, an operation
and the output tensors) and a store of edges, each from an output of one node into an input slot
of another. A node's inputs are not kept with it: they are its incoming edges ordered by slot
(`Arena.inputs`), and the readers of an output are the edges that leave it
(`Arena.consumerCount`).

Every operation on an IR graph is an `Edit`: a new node with its inputs (`addNode` and its
forms), an edit of one node's weight or of every node's (naming, growing, retyping, clearing
names), and a rollback to a checkpoint. `Arena.edit` carries one out on an arena and
`Graph.edit` on the node list of `Graph`.

Of the library the arena trusts two things, and no order of its edge store:

* a new node takes the next index, and a new edge is appended;
* removing the newest node removes it and every edge at it and moves no other node, but the
  remaining edges may come out in another order. `Arena.rollback` takes this removal as a
  parameter `drop`; `DropsIncident drop` says what it has to do.

A new node's edges are added after the node, so it may read its own outputs; an edge from a node
that does not exist makes the library stop, which `Graph.admits` rules out.
-/

namespace Lowering.Ir

/-- What the arena keeps at a node: everything but its inputs. -/
structure Weight where
  name : String
  op : Op
  outputs : List TensorInfo
  deriving Inhabited

/-- The weight of a node. -/
def Node.weight (nd : Node) : Weight := ⟨nd.name, nd.op, nd.outputs⟩

/-- The node of a weight that reads `inputs`. -/
def Weight.withInputs (w : Weight) (inputs : List Handle) : Node :=
  ⟨w.name, w.op, w.outputs, inputs⟩

/-- Output `srcPort` of node `src` feeds input slot `dstPort` of node `dst`. -/
structure Arena.Edge where
  src : Nat
  srcPort : Nat
  dst : Nat
  dstPort : Nat
  deriving DecidableEq, Repr

namespace Arena.Edge

/-- The output an edge reads. -/
def source (e : Edge) : Handle := ⟨e.src, e.srcPort⟩

/-- Whether node `n` is at either end of the edge. -/
def touches (e : Edge) (n : Nat) : Bool := e.src == n || e.dst == n

end Arena.Edge

/-- The edges into slots `0, 1, …` of node `n`, one from each handle of `hs` in turn. -/
def slotEdges (n : Nat) (hs : List Handle) : List Arena.Edge :=
  hs.mapIdx fun i h => ⟨h.node, h.output, n, i⟩

/-- One operation on an IR graph. -/
inductive Edit where
  /-- A new node with this weight, reading `inputs` in slot order. -/
  | add (w : Weight) (inputs : List Handle)
  /-- An edit of the weight of node `n`, in place. -/
  | modify (n : Nat) (f : Weight → Weight)
  /-- The same edit of the weight of every node. -/
  | modifyAll (f : Weight → Weight)
  /-- Dropping the newest nodes until at most `mark` remain. -/
  | rollback (mark : Nat)

/-- An IR graph as an arena: node weights in index order, and the edges in no particular order. -/
structure Arena where
  weights : List Weight := []
  edges : List Arena.Edge := []

/-- What removing the newest node `n` may do to the edges: drop exactly those at `n`, in any
order. -/
def DropsIncident (drop : List Arena.Edge → Nat → List Arena.Edge) : Prop :=
  ∀ es n, (drop es n).Perm (es.filter fun e => !e.touches n)

namespace Arena

variable (drop : List Edge → Nat → List Edge)

/-- The number of nodes. -/
def size (a : Arena) : Nat := a.weights.length

/-- Adds a node at the next index, then an edge into each of its slots; gives the index. -/
def addNode (a : Arena) (w : Weight) (inputs : List Handle) : Arena × Nat :=
  (⟨a.weights ++ [w], a.edges ++ slotEdges a.size inputs⟩, a.size)

/-- Whether a handle names an existing output. -/
def hasOutput (a : Arena) (h : Handle) : Bool :=
  match a.weights[h.node]? with
  | some w => h.output < w.outputs.length
  | none => false

/-- The inputs of a node: its incoming edges sorted by slot, as the outputs they read. -/
def inputs (a : Arena) (n : Nat) : List Handle :=
  ((a.edges.filter (·.dst == n)).mergeSort fun e e' => e.dstPort ≤ e'.dstPort).map Edge.source

/-- The number of edges that leave output `h`. -/
def consumerCount (a : Arena) (h : Handle) : Nat :=
  (a.edges.filter (·.source == h)).length

/-- A checkpoint: the current number of nodes. -/
def checkpoint (a : Arena) : Nat := a.size

/-- Removes the newest node, its edges by `drop`. -/
def removeNewest (a : Arena) : Arena :=
  ⟨a.weights.dropLast, drop a.edges (a.size - 1)⟩

/-- Removes the newest node `k` times. -/
def removeNewestN : Nat → Arena → Arena
  | 0, a => a
  | k + 1, a => removeNewestN k (a.removeNewest drop)

/-- Removes the newest node while more than `mark` remain; older nodes keep their edits. -/
def rollback (a : Arena) (mark : Nat) : Arena :=
  removeNewestN drop (a.size - mark) a

/-- Carries out an edit. -/
def edit (a : Arena) : Edit → Arena
  | .add w inputs => (a.addNode w inputs).1
  | .modify n f => { a with weights := a.weights.modify n f }
  | .modifyAll f => { a with weights := a.weights.map f }
  | .rollback mark => a.rollback drop mark

/-- The arena after a sequence of edits, from the empty one. -/
def run (es : List Edit) : Arena := es.foldl (edit drop) {}

end Arena

namespace Graph

/-- Edits the weight of node `n` in place; its inputs stay. -/
def modifyWeight (g : Graph) (n : Nat) (f : Weight → Weight) : Graph :=
  g.modifyNode n fun nd => (f nd.weight).withInputs nd.inputs

/-- Carries out an edit on the node list. -/
def edit (g : Graph) : Edit → Graph
  | .add w inputs => (g.addNode w.name w.op inputs w.outputs).1
  | .modify n f => g.modifyWeight n f
  | .modifyAll f => { nodes := g.nodes.map fun nd => (f nd.weight).withInputs nd.inputs }
  | .rollback mark => g.rollback mark

/-- The node list after a sequence of edits, from the empty one. -/
def run (es : List Edit) : Graph := es.foldl edit {}

/-- Whether the library carries out an edit on `g` without stopping: a new node may read only
existing nodes and itself. -/
def allows (g : Graph) : Edit → Bool
  | .add _ inputs => inputs.all (·.node ≤ g.size)
  | _ => true

/-- Whether the library carries out every edit in turn, from `g` on. -/
def admits (g : Graph) : List Edit → Bool
  | [] => true
  | e :: es => g.allows e && (g.edit e).admits es

end Graph

end Lowering.Ir
