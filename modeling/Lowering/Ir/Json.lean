import Lowering.Ir.Model
import Lowering.Tensor.Json

/-! # IR graphs and models as JSON

* a handle is `[node, output]`;
* a tensor is `{"element_type", "shape", "names"}`;
* a node is `{"name", "kind", "type_name", "inputs", "outputs"}`, with `"value"` for a constant,
  `"op_type"` and `"attrs"` for a target operation or a stand-in, and `"failed_conversion"` for
  a stand-in;
* a model lists its nodes, parameters, results, their names, the value each result reads, the
  names of its stand-ins and its summary.
-/

namespace Lowering.Ir

open Lowering.Json

/-- A handle as `[node, output]`. -/
def Handle.toJson (h : Handle) : Value := .arr [Value.ofNat h.node, Value.ofNat h.output]

/-- A list of handles. -/
def handlesToJson (hs : List Handle) : Value := .arr (hs.map Handle.toJson)

/-- A tensor. -/
def TensorInfo.toJson (t : TensorInfo) : Value :=
  .obj [("element_type", t.elementType.toJson), ("names", .arr (t.names.map .str)),
        ("shape", t.shape.toJson)]

/-- A node. -/
def Node.toJson (nd : Node) : Value :=
  let extra : List (String × Value) :=
    match nd.op with
    | .constant c => [("value", c.toJson)]
    | .op t attrs => [("attrs", .obj attrs), ("op_type", .str t)]
    | .framework t attrs failure =>
      [("attrs", .obj attrs), ("failed_conversion", Value.ofOption .str failure), ("op_type", .str t)]
    | _ => []
  .obj (Fields.ofList ([("name", .str nd.name), ("kind", .str nd.op.kindName),
    ("type_name", .str nd.op.typeName), ("inputs", handlesToJson nd.inputs),
    ("outputs", .arr (nd.outputs.map TensorInfo.toJson))] ++ extra))

/-- The nodes of a graph, by index. -/
def Graph.toJson (g : Graph) : Value := .arr (g.nodes.toList.map Node.toJson)

/-- A model. -/
def Model.toJson (m : Model) : Value :=
  .obj (Fields.ofList [
    ("name", .str m.name),
    ("nodes", m.graph.toJson),
    ("parameters", .arr (m.parameters.map Value.ofNat)),
    ("results", .arr (m.results.map Value.ofNat)),
    ("parameter_names", .arr (m.parameterNames.map .str)),
    ("result_names", .arr (m.resultNames.map .str)),
    ("result_values", .arr (m.resultValues.map (Value.ofOption Handle.toJson))),
    ("passthrough", .arr (m.passthrough.map fun nd => .str nd.name)),
    ("summary", .str m.summary)])

end Lowering.Ir
