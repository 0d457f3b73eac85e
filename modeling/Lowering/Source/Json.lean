import Lowering.Source.Graph
import Lowering.Tensor.Json
import Lowering.Json.Reader.Text
import Lowering.Json.Reader.Tree

/-! # Source graphs in JSON

Reading a source graph with any `Reader`. Every field of a graph is optional and unknown fields
are ignored; an operation needs a name and a type; an input place needs a name. Edges and
declared outputs are strings, and a string that is no edge (or no declared output) fails with
the text of `LowerError.invalidEdge` (or `invalidOutputPlace`).

`Graph.ofText` and `Graph.ofValue` read a whole graph, failing with `LowerError.parse`.
-/

namespace Lowering.Source

open Lowering.Json

section Reading

variable {m : Type → Type} [Monad m] [MonadExceptOf DecodeError m] [Reader m]

/-- An edge, from its text. -/
def Edge.read : m Edge :=
  convert string fun s =>
    match Edge.parse? s with
    | some e => .ok e
    | none => .error (.custom (LowerError.invalidEdge s).message)

/-- A declared output, from its text. -/
def Sink.read : m Sink :=
  convert string fun s =>
    match Sink.parse? s with
    | some k => .ok k
    | none => .error (.custom (LowerError.invalidOutputPlace s).message)

/-- The draft of an operation while its fields are read. -/
structure OperationDraft where
  name : Option String := none
  opType : Option String := none
  inputs : Option (List Edge) := none
  numOutputs : Option Nat := none
  attrs : Option Fields := none

/-- An operation: `name` and `type` are required. -/
def Operation.read : m Operation :=
  record {
    name := "struct OpDef"
    fields := ["name", "type", "inputs", "num_outputs", "attrs"]
    required := fun i => i < 2
    init := ({} : OperationDraft)
    isSet := fun
      | 0, d => d.name.isSome
      | 1, d => d.opType.isSome
      | 2, d => d.inputs.isSome
      | 3, d => d.numOutputs.isSome
      | _, d => d.attrs.isSome
    read := fun
      | 0, d => do pure { d with name := some (← string) }
      | 1, d => do pure { d with opType := some (← string) }
      | 2, d => do pure { d with inputs := some (← listOf Edge.read) }
      | 3, d => do pure { d with numOutputs := some (← natural) }
      | _, d => do pure { d with attrs := some (← mapOf Reader.any) }
    finish := fun d =>
      match d.name, d.opType with
      | none, _ => .error (.missingField "name")
      | _, none => .error (.missingField "type")
      | some n, some t =>
        .ok ⟨n, t, d.inputs.getD [], d.numOutputs.getD 1, d.attrs.getD []⟩ }

/-- The draft of an input place while its fields are read. -/
structure PlaceDraft where
  name : Option String := none
  shape : Option Shape := none
  elementType : Option ElementType := none
  value : Option (Option Constant) := none

/-- An input place: `name` is required. -/
def Place.read : m Place :=
  record {
    name := "struct InputPlace"
    fields := ["name", "shape", "element_type", "value"]
    required := fun i => i = 0
    init := ({} : PlaceDraft)
    isSet := fun
      | 0, d => d.name.isSome
      | 1, d => d.shape.isSome
      | 2, d => d.elementType.isSome
      | _, d => d.value.isSome
    read := fun
      | 0, d => do pure { d with name := some (← string) }
      | 1, d => do pure { d with shape := some (← Shape.read) }
      | 2, d => do pure { d with elementType := some (← ElementType.read) }
      | _, d => do pure { d with value := some (← Reader.option Constant.read) }
    finish := fun d =>
      match d.name with
      | none => .error (.missingField "name")
      | some n =>
        .ok ⟨n, d.shape.getD Shape.dynamic, d.elementType.getD .dynamic, d.value.getD none⟩ }

/-- The draft of a graph while its fields are read. -/
structure GraphDraft where
  name : Option (Option String) := none
  operations : Option (List Operation) := none
  inputs : Option (List Place) := none
  outputs : Option (List Sink) := none
  inputNames : Option (List String) := none
  outputNames : Option (List String) := none
  savedInputs : Option (Option (List (String × String))) := none
  savedOutputs : Option (Option (List (String × String))) := none
  functions : Option (List (String × Graph)) := none

/-- A graph whose body graphs nest at most `depth` deep; every field is optional. A reader of
text refuses deeper nesting on its own, long before. -/
def Graph.readAt : Nat → m Graph
  | 0 => fail .recursionLimit
  | depth + 1 =>
    record {
      name := "struct SourceGraph"
      fields := ["name", "operations", "inputs", "outputs", "input_names", "output_names",
        "saved_model_inputs", "saved_model_outputs", "functions"]
      required := fun _ => false
      init := ({} : GraphDraft)
      isSet := fun
        | 0, d => d.name.isSome
        | 1, d => d.operations.isSome
        | 2, d => d.inputs.isSome
        | 3, d => d.outputs.isSome
        | 4, d => d.inputNames.isSome
        | 5, d => d.outputNames.isSome
        | 6, d => d.savedInputs.isSome
        | 7, d => d.savedOutputs.isSome
        | _, d => d.functions.isSome
      read := fun
        | 0, d => do pure { d with name := some (← Reader.option string) }
        | 1, d => do pure { d with operations := some (← listOf Operation.read) }
        | 2, d => do pure { d with inputs := some (← listOf Place.read) }
        | 3, d => do pure { d with outputs := some (← listOf Sink.read) }
        | 4, d => do pure { d with inputNames := some (← listOf string) }
        | 5, d => do pure { d with outputNames := some (← listOf string) }
        | 6, d => do pure { d with savedInputs := some (← Reader.option (mapOf string)) }
        | 7, d => do pure { d with savedOutputs := some (← Reader.option (mapOf string)) }
        | _, d => do pure { d with functions := some (← mapOf (Graph.readAt depth)) }
      finish := fun d =>
        .ok { name := d.name.getD none
              operations := d.operations.getD []
              inputs := d.inputs.getD []
              outputs := d.outputs.getD []
              inputNames := d.inputNames.getD []
              outputNames := d.outputNames.getD []
              savedInputs := d.savedInputs.getD none
              savedOutputs := d.savedOutputs.getD none
              functions := d.functions.getD [] } }

/-- A graph; body graphs may nest as deep as any reader allows. -/
def Graph.read : m Graph := Graph.readAt 128

end Reading

/-- A graph from JSON text. -/
def Graph.ofText (text : String) : Except LowerError Graph :=
  (decodeText Graph.read text).mapError .parse

/-- A graph from a JSON value. -/
def Graph.ofValue (v : Value) : Except LowerError Graph :=
  (decodeTree Graph.read v).mapError .parse

end Lowering.Source
