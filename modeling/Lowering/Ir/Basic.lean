import Lowering.Tensor.Basic
import Lowering.Json.Value

/-! # IR graphs

An IR graph is an array of nodes in creation order; a node's index is its position. Each node
has a name, an operation, its output tensors and its inputs, in slot order, as handles to
outputs of nodes. An edge runs from the node of each input handle to the node that has it.

* `Graph.addNode` and its forms for parameters, constants, results and stand-ins append a node;
* `Graph.growOutputs`, `Graph.setName`, `Graph.clearNames` and tensor edits change nodes in place;
* `Graph.rollback` drops the newest nodes down to a checkpoint, keeping edits to older nodes;
* `Graph.consumerCount` counts the input slots that read a handle.
-/

namespace Lowering.Ir

/-- Output number `output` of node `node`. -/
structure Handle where
  node : Nat
  output : Nat
  deriving DecidableEq, Repr, Inhabited

/-- Inserts a name into a sorted list of names, each once. -/
def insertName (n : String) : List String → List String
  | [] => [n]
  | m :: rest => if n < m then n :: m :: rest else if n = m then m :: rest else m :: insertName n rest

/-- What is known about an output tensor, and the names it goes by (sorted, each once). -/
structure TensorInfo where
  elementType : ElementType := .dynamic
  shape : Shape := Shape.dynamic
  names : List String := []
  deriving DecidableEq, Repr, Inhabited

/-- The operation of a node. -/
inductive Op where
  | parameter
  | constant (value : Constant)
  | result
  /-- An operation of the target vocabulary. -/
  | op (opType : String) (attrs : Json.Fields)
  /-- A stand-in for a source operation that was not translated; `failure` says why a
  translator failed, and is `none` when no translator was tried. -/
  | framework (opType : String) (attrs : Json.Fields) (failure : Option String)
  deriving Repr, Inhabited

namespace Op

/-- The type name of an operation: the kind, or for a target operation its type. -/
def typeName : Op → String
  | parameter => "Parameter"
  | constant _ => "Constant"
  | result => "Result"
  | op t _ => t
  | framework .. => "FrameworkNode"

/-- The kind of an operation. -/
def kindName : Op → String
  | parameter => "Parameter"
  | constant _ => "Constant"
  | result => "Result"
  | op .. => "Op"
  | framework .. => "Framework"

def isParameter : Op → Bool
  | parameter => true
  | _ => false

def isResult : Op → Bool
  | result => true
  | _ => false

def isFramework : Op → Bool
  | framework .. => true
  | _ => false

end Op

/-- A node of an IR graph. -/
structure Node where
  name : String
  op : Op
  outputs : List TensorInfo
  inputs : List Handle
  deriving Repr, Inhabited

/-- An IR graph: nodes in creation order. -/
structure Graph where
  nodes : Array Node := #[]
  deriving Inhabited

namespace Graph

/-- The number of nodes. -/
def size (g : Graph) : Nat := g.nodes.size

/-- The node at an index. -/
def node? (g : Graph) (n : Nat) : Option Node := g.nodes[n]?

/-- Appends a node and gives its index. -/
def addNode (g : Graph) (name : String) (op : Op) (inputs : List Handle)
    (outputs : List TensorInfo) : Graph × Nat :=
  ({ nodes := g.nodes.push ⟨name, op, outputs, inputs⟩ }, g.size)

/-- A parameter with one output of the given type and shape; its name is empty. -/
def addParameter (g : Graph) (t : ElementType) (s : Shape) : Graph × Handle :=
  let (g, n) := g.addNode "" .parameter [] [{ elementType := t, shape := s }]
  (g, ⟨n, 0⟩)

/-- A constant whose one output has the constant's type and shape; its name is empty. -/
def addConstant (g : Graph) (c : Constant) : Graph × Handle :=
  let (g, n) := g.addNode "" (.constant c) [] [{ elementType := c.elementType, shape := c.shapeOf }]
  (g, ⟨n, 0⟩)

/-- Whether a handle names an existing output. -/
def hasOutput (g : Graph) (h : Handle) : Bool :=
  match g.node? h.node with
  | some nd => h.output < nd.outputs.length
  | none => false

/-- The tensor of a handle; a default tensor for a handle that names nothing. -/
def tensor (g : Graph) (h : Handle) : TensorInfo :=
  match g.node? h.node with
  | some nd => nd.outputs.getD h.output {}
  | none => {}

/-- Changes the tensor of a handle; nothing for a handle that names nothing. -/
def modifyTensor (g : Graph) (h : Handle) (f : TensorInfo → TensorInfo) : Graph :=
  { nodes := g.nodes.modify h.node fun nd => { nd with outputs := nd.outputs.modify h.output f } }

/-- Changes a node; nothing for a missing index. -/
def modifyNode (g : Graph) (n : Nat) (f : Node → Node) : Graph :=
  { nodes := g.nodes.modify n f }

/-- A result reading `v`: one output with the type and shape of `v` and no names. -/
def addResult (g : Graph) (v : Handle) (name : String) : Graph × Nat :=
  let t := g.tensor v
  g.addNode name .result [v] [{ elementType := t.elementType, shape := t.shape }]

/-- A stand-in with `count` outputs of unknown type and shape. -/
def addFramework (g : Graph) (name : String) (opType : String) (attrs : Json.Fields)
    (failure : Option String) (inputs : List Handle) (count : Nat) : Graph × Nat :=
  g.addNode name (.framework opType attrs failure) inputs (List.replicate count {})

/-- The handles of all outputs of a node. -/
def outputs (g : Graph) (n : Nat) : List Handle :=
  match g.node? n with
  | some nd => (List.range nd.outputs.length).map fun p => ⟨n, p⟩
  | none => []

/-- The inputs of a node, in slot order. -/
def inputs (g : Graph) (n : Nat) : List Handle :=
  match g.node? n with
  | some nd => nd.inputs
  | none => []

/-- The first input of a node. -/
def inputValue (g : Graph) (n : Nat) : Option Handle := (g.inputs n).head?

/-- The number of input slots, over all nodes, that read `h`. -/
def consumerCount (g : Graph) (h : Handle) : Nat :=
  g.nodes.foldl (fun acc nd => acc + nd.inputs.count h) 0

/-- The most outputs a node can hold: its tensor records take 56 bytes each and lie together in
one block, which an address space caps at `2^63 - 1` bytes. -/
def maxOutputs : Nat := (Nat.pow 2 63 - 1) / 56

/-- Grows a node to at least `len` outputs; new outputs are of unknown type and shape. A growth
past `maxOutputs` cannot be stored, and callers stop before it. -/
def growOutputs (g : Graph) (n : Nat) (len : Nat) : Graph :=
  g.modifyNode n fun nd =>
    if nd.outputs.length < len then
      { nd with outputs := nd.outputs ++ List.replicate (len - nd.outputs.length) {} }
    else nd

/-- Names a node, and tags its outputs: output `p` gets `name:p`, and a single output
also the bare name. Names already there stay. -/
def setName (g : Graph) (name : String) (n : Nat) : Graph :=
  g.modifyNode n fun nd =>
    let single := nd.outputs.length == 1
    let tag (p : Nat) (t : TensorInfo) : TensorInfo :=
      let names := if single then insertName name t.names else t.names
      { t with names := insertName (name ++ ":" ++ toString p) names }
    { nd with name := name, outputs := nd.outputs.mapIdx tag }

/-- Removes every tensor name. -/
def clearNames (g : Graph) : Graph :=
  { nodes := g.nodes.map fun nd => { nd with outputs := nd.outputs.map ({ · with names := [] }) } }

/-- A checkpoint: the current number of nodes. -/
def checkpoint (g : Graph) : Nat := g.size

/-- Drops the newest nodes until at most `mark` remain; older nodes keep their edits. -/
def rollback (g : Graph) (mark : Nat) : Graph :=
  { nodes := g.nodes.extract 0 mark }

end Graph

end Lowering.Ir
