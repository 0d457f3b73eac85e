import Lowering.Source.Edge
import Lowering.Tensor.Basic
import Lowering.Json.Value
import Lowering.Error

/-! # Source graphs

A source graph as a model reader hands it over:

* `Operation` — a named operation of some type, its input edges, its number of outputs and its
  attributes;
* `Place` — an input place: a name, a shape and element type, and for a frozen input its value;
* `Graph` — operations, input places, declared outputs, requested orders of the inputs and
  outputs, name registries for restoring names, and a library of body graphs by name.

`Graph.specialize` pins the formal (not frozen) inputs of a body to what a caller passes in.
-/

namespace Lowering.Source

/-- An operation of a source graph. -/
structure Operation where
  name : String
  opType : String
  inputs : List Edge := []
  numOutputs : Nat := 1
  attrs : Json.Fields := []
  deriving Repr, Inhabited

/-- An input place; one with a value is frozen. -/
structure Place where
  name : String
  shape : Shape := Shape.dynamic
  elementType : ElementType := .dynamic
  value : Option Constant := none
  deriving Repr, Inhabited

/-- A source graph. `functions` is sorted by name. -/
structure Graph where
  name : Option String := none
  operations : List Operation := []
  inputs : List Place := []
  outputs : List Sink := []
  inputNames : List String := []
  outputNames : List String := []
  savedInputs : Option (List (String × String)) := none
  savedOutputs : Option (List (String × String)) := none
  functions : List (String × Graph) := []
  deriving Inhabited

namespace Graph

/-- The first operation of a name. -/
def operation? (g : Graph) (name : String) : Option Operation :=
  g.operations.find? (·.name == name)

/-- The body graph of a name, if the library has one. -/
def function? (g : Graph) (identity : String) : Option Graph :=
  (g.functions.find? (·.1 == identity)).map (·.2)

/-- Whether the library has a body graph of that name. -/
def hasFunction (g : Graph) (identity : String) : Bool :=
  g.functions.any (·.1 == identity)

/-- A fresh copy of a body graph, named after its identity unless it has a name. -/
def bodyGraph? (g : Graph) (identity : String) : Option Graph :=
  (g.function? identity).map fun b => { b with name := some (b.name.getD identity) }

/-- The input places a caller has to feed: those without a value. -/
def formal (g : Graph) : List Place := g.inputs.filter (·.value.isNone)

/-- Pins formal places, in order, to the given shapes and types: a known type replaces the
place's type, a shape of known rank replaces its shape; frozen places stay as they are. -/
def pin : List Place → List (Shape × ElementType) → List Place
  | [], _ => []
  | p :: ps, args =>
    match p.value, args with
    | some _, _ => p :: pin ps args
    | none, (s, t) :: rest =>
      let p := if t.isStatic then { p with elementType := t } else p
      let p := if s.isRankStatic then { p with shape := s } else p
      p :: pin ps rest
    | none, [] => p :: pin ps []

/-- Pins the formal inputs to a caller's shapes and types. Fails when the number of formal
inputs, of shapes and of types are not all equal; the failure names the graph (or nothing),
counts the formal inputs as expected and the shapes as given. -/
def specialize (g : Graph) (shapes : List Shape) (types : List ElementType) :
    Except LowerError Graph :=
  let expected := g.formal.length
  if expected ≠ shapes.length ∨ shapes.length ≠ types.length then
    .error (.bodyArity (g.name.getD "") expected shapes.length)
  else .ok { g with inputs := pin g.inputs (shapes.zip types) }

end Graph

end Lowering.Source
