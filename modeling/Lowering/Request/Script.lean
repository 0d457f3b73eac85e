import Lowering.Request.Basic

/-! # Edit scripts in JSON

Each step is an object whose `"do"` names it; its other members default as listed:

* `parameter {element_type = "dynamic", shape = null}`, `constant {value}`;
* `node {name = "", op_type = "Op", inputs = [], outputs = 1}`, where `outputs` is a count of
  tensors of unknown type or a list of `{element_type, shape}`;
* `framework {name = "", op_type = "Custom", inputs = [], num_outputs = 1}`;
* `result {value, name = ""}`, `grow {node, len}`, `set_name {node, name}`,
  `set_type {value, element_type}`, `clear_names`, `checkpoint`, `rollback {checkpoint}`;
* queries `toposort`, `inputs {node}`, `input_value {node}`, `outputs {node}`,
  `consumers {value}`, `has_output {value}`.

Members are decoded as typed data: one that does not decode refuses the step with
`bad <member>: <message>`, and a required one that is absent with `missing field '<member>'`.
An optional member that is null takes its default, except `inputs` and `outputs`, which must be
lists (or, for `outputs`, a count) when present. In a list of declared tensors, an item that is not an object declares a tensor of
unknown type and shape.

Members are read in order, and a node or value a step names is checked as soon as it is read,
so a step that names a missing node is refused for that before its later members are read.

A script's trace lists, per step, its answer `{"ok": R}` or its refusal, and the node count
after it.
-/

namespace Lowering.Request

open Lowering.Json Lowering.Ir

/-- The largest count of outputs a node step may declare: counts must fit in 32 bits. -/
def maxDeclaredOutputs : Nat := Nat.pow 2 32 - 1

/-- An optional element type member: unknown when absent or null. -/
def elementTypeOf (v : Value) : Except Refusal ElementType :=
  optional v "element_type" (decoded "element_type" ElementType.read) .dynamic

/-- An optional shape member: of unknown rank when absent or null. -/
def shapeOf (v : Value) : Except Refusal Shape :=
  optional v "shape" (decoded "shape" Shape.read) Shape.dynamic

/-- An optional string member. -/
def stringOf (v : Value) (k default : String) : Except Refusal String :=
  optional v k (decoded k string) default

/-- The input handles of a node step, none when absent, each naming an existing node or the
new node itself. -/
def inputsOf (b : Bench) (v : Value) : Except Refusal (List Handle) := do
  let hs ← match v.field? "inputs" with
    | some x => decoded "inputs" (listOf Handle.read) x
    | none => pure []
  b.needSources hs
  pure hs

/-- One declared tensor: an object's `element_type` and `shape`, or unknown for anything else. -/
def tensorOf (x : Value) : Except Refusal TensorInfo :=
  match x with
  | .obj _ => do pure { elementType := ← elementTypeOf x, shape := ← shapeOf x }
  | _ => pure {}

/-- The tensors declared by a node step: one of unknown type when absent, a count of such
tensors, or a list of declared tensors. -/
def tensorsOf (v : Value) : Except Refusal (List TensorInfo) :=
  match v.field? "outputs" with
  | none => pure [{}]
  | some (.num n) =>
    match n with
    | .nat k => if k ≤ maxDeclaredOutputs then pure (List.replicate k {})
      else throw "outputs count must be a small integer"
    | _ => throw "outputs count must be a small integer"
  | some x => do (← decoded "outputs" (listOf Reader.any) x).mapM tensorOf

/-- A required node member, naming an existing node. -/
def nodeOf (b : Bench) (v : Value) : Except Refusal Nat := do
  let n ← required v "node" natural
  b.needNode n
  pure n

/-- A required value member, naming an existing value. -/
def valueOf (b : Bench) (v : Value) : Except Refusal Handle := do
  let h ← required v "value" Handle.read
  b.needValue h
  pure h

/-- A step of an edit script, read against the bench it is to be applied to. -/
def asStep (b : Bench) (v : Value) : Except Refusal Step := do
  let kind ← asString "'do'" (← need v "do")
  match kind with
  | "parameter" =>
    let t ← elementTypeOf v
    pure (.parameter t (← shapeOf v))
  | "constant" => pure (.constant (← required v "value" Constant.read))
  | "node" =>
    let name ← stringOf v "name" ""
    let opType ← stringOf v "op_type" "Op"
    let ins ← inputsOf b v
    pure (.node name opType ins (← tensorsOf v))
  | "framework" =>
    let name ← stringOf v "name" ""
    let opType ← stringOf v "op_type" "Custom"
    let ins ← inputsOf b v
    pure (.framework name opType ins (← optional v "num_outputs" (decoded "num_outputs" natural) 1))
  | "result" =>
    let h ← valueOf b v
    pure (.result h (← stringOf v "name" ""))
  | "grow" =>
    let n ← nodeOf b v
    pure (.grow n (← required v "len" natural))
  | "set_name" =>
    let n ← nodeOf b v
    pure (.setName n (← required v "name" string))
  | "set_type" =>
    let h ← valueOf b v
    pure (.setType h (← required v "element_type" ElementType.read))
  | "clear_names" => pure .clearNames
  | "checkpoint" => pure .checkpoint
  | "rollback" => pure (.rollback (← required v "checkpoint" natural))
  | "toposort" => pure .order
  | "inputs" => pure (.inputs (← nodeOf b v))
  | "input_value" => pure (.inputValue (← nodeOf b v))
  | "outputs" => pure (.outputs (← nodeOf b v))
  | "consumers" => pure (.consumers (← required v "value" Handle.read))
  | "has_output" => pure (.hasOutput (← required v "value" Handle.read))
  | other => throw ("unknown step '" ++ other ++ "'")

/-- Runs a script from `b`, giving the bench after it and the trace. -/
def runScript (b : Bench) (steps : List Value) : Bench × List Value :=
  let (b, trace) := steps.foldl (fun (b, trace) v =>
    let (b, r) := match asStep b v >>= b.apply with
      | .ok (b', answer) => (b', Value.obj [("ok", answer)])
      | .error text => (b, refused text)
    (b, trace ++ [Value.obj [("node_count", Value.ofNat b.graph.size), ("result", r)]]))
    (b, [])
  (b, trace)

end Lowering.Request
