import Lowering.Ir.Order
import Lowering.Ir.Json

/-! # Edit scripts for IR graphs

A script is a list of steps that build and inspect an IR graph: adding parameters, constants,
nodes, stand-ins and results; growing, naming, retyping and clearing names; checkpoints and
rollbacks; and queries (topological order, inputs, outputs, readers, whether an output exists).

Each step answers with a JSON value, or is refused with a text when it names a node or value
that does not exist (a refused step changes nothing). A new node may read its own outputs.
-/

namespace Lowering.Ir

open Lowering.Json

/-- One step of an edit script. -/
inductive Step where
  | parameter (t : ElementType) (s : Shape)
  | constant (c : Constant)
  | node (name opType : String) (inputs : List Handle) (outputs : List TensorInfo)
  | framework (name opType : String) (inputs : List Handle) (count : Nat)
  | result (v : Handle) (name : String)
  | grow (n len : Nat)
  | setName (n : Nat) (name : String)
  | setType (v : Handle) (t : ElementType)
  | clearNames
  | checkpoint
  | rollback (k : Nat)
  | order
  | inputs (n : Nat)
  | inputValue (n : Nat)
  | outputs (n : Nat)
  | consumers (v : Handle)
  | hasOutput (v : Handle)
  deriving Inhabited

/-- A graph being edited, with the node counts recorded by its checkpoints. -/
structure Bench where
  graph : Graph := {}
  marks : List Nat := []
  deriving Inhabited

/-- The refusal of a step naming a missing node. -/
def missingNode (n : Nat) : String := "node " ++ toString n ++ " does not exist"

/-- The refusal of a step naming a missing value. -/
def missingValue (v : Handle) : String :=
  "value [" ++ toString v.node ++ ", " ++ toString v.output ++ "] does not exist"

namespace Bench

/-- Requires a node. -/
def needNode (b : Bench) (n : Nat) : Except String Unit :=
  if n < b.graph.size then .ok () else .error (missingNode n)

/-- Requires a value. -/
def needValue (b : Bench) (v : Handle) : Except String Unit :=
  if b.graph.hasOutput v then .ok () else .error (missingValue v)

/-- Requires the inputs of a new node to name existing nodes or the new node itself. -/
def needSources (b : Bench) (hs : List Handle) : Except String Unit :=
  match hs.find? (fun h => h.node > b.graph.size) with
  | some h => .error (missingNode h.node)
  | none => .ok ()

/-- Applies a step, giving its answer. -/
def apply (b : Bench) : Step → Except String (Bench × Value)
  | .parameter t s =>
    let (g, h) := b.graph.addParameter t s
    .ok ({ b with graph := g }, h.toJson)
  | .constant c =>
    let (g, h) := b.graph.addConstant c
    .ok ({ b with graph := g }, h.toJson)
  | .node name opType ins outs => do
    b.needSources ins
    let (g, n) := b.graph.addNode name (.op opType []) ins outs
    .ok ({ b with graph := g }, Value.ofNat n)
  | .framework name opType ins count => do
    b.needSources ins
    let (g, n) := b.graph.addFramework name opType [] none ins count
    .ok ({ b with graph := g }, Value.ofNat n)
  | .result v name => do
    b.needValue v
    let (g, n) := b.graph.addResult v name
    .ok ({ b with graph := g }, Value.ofNat n)
  | .grow n len => do
    b.needNode n
    let g := b.graph.growOutputs n len
    .ok ({ b with graph := g }, Value.ofNat (g.outputs n).length)
  | .setName n name => do
    b.needNode n
    let g := b.graph.setName name n
    .ok ({ b with graph := g }, (g.node? n).elim .null Node.toJson)
  | .setType v t => do
    b.needValue v
    .ok ({ b with graph := b.graph.modifyTensor v fun x => { x with elementType := t } }, .null)
  | .clearNames => .ok ({ b with graph := b.graph.clearNames }, .null)
  | .checkpoint =>
    .ok ({ b with marks := b.marks ++ [b.graph.checkpoint] }, Value.ofNat b.marks.length)
  | .rollback k =>
    match b.marks[k]? with
    | some mark => .ok ({ b with graph := b.graph.rollback mark }, .null)
    | none => .error "no such checkpoint"
  | .order =>
    .ok (b, Value.ofOption (fun ns => .arr (ns.map Value.ofNat)) b.graph.topoOrder)
  | .inputs n => do
    b.needNode n
    .ok (b, handlesToJson (b.graph.inputs n))
  | .inputValue n => do
    b.needNode n
    .ok (b, Value.ofOption Handle.toJson (b.graph.inputValue n))
  | .outputs n => do
    b.needNode n
    .ok (b, handlesToJson (b.graph.outputs n))
  | .consumers v => do
    b.needNode v.node
    .ok (b, Value.ofNat (b.graph.consumerCount v))
  | .hasOutput v => .ok (b, .bool (b.graph.hasOutput v))

end Bench

end Lowering.Ir
