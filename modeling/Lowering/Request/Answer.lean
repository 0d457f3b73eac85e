import Lowering.Request.Script
import Lowering.Session
import Lowering.Pass.Splice
import Lowering.Json.Write

/-! # Answering requests

`answer` serves one request, named by its `"op"`:

* `parse_edge`, `parse_output` — an edge or declared output read and written back;
* `shape`, `config` — a shape from a value, options from text;
* `resolve_flat_index`, `reorder` — a group position, a requested order;
* `specialize` — a graph's formal inputs pinned to shapes and types;
* `translate`, `batch` — one model in a session, or several in their own sessions;
* `ir_graph`, `inject` — edit scripts, and a body spliced into a graph.
-/

namespace Lowering.Request

open Lowering.Json Lowering.Ir Lowering.Source Lowering.Pass Lowering.Translator

/-- An edge as its parts and its text. -/
def edgeJson (e : Edge) : Value :=
  .obj [("control", .bool e.control), ("display", .str e.render),
        ("group", Value.ofOption .str e.group), ("index", Value.ofNat e.index),
        ("producer", .str e.producer)]

/-- A declared output as its parts and its text. -/
def sinkJson (k : Sink) : Value :=
  let (mode, index) : String × Value := match k.mode with
    | .all => ("all", .null)
    | .output p => ("by_index", Value.ofNat p)
    | .feed i => ("from_input_edge", Value.ofNat i)
  .obj [("display", .str k.render), ("mode", .str mode), ("name", .str k.name), ("port", index)]

/-- Options as their three fields. -/
def optionsJson (o : Options) : Value :=
  .obj [("clear_body_names", .bool o.clearBodyNames),
        ("default_input_type", .str o.defaultInputType.name), ("model_name", .str o.modelName)]

/-- A shape with its text, rank and kind. -/
def shapeJson (s : Shape) : Value :=
  .obj [("display", .str s.render), ("is_rank_static", .bool s.isRankStatic),
        ("is_static", .bool s.isStatic), ("json", s.toJson),
        ("rank", Value.ofOption Value.ofNat s.rank?)]

/-- The translators a request maps operation types to. -/
def registry (req : Value) : Except Refusal Registry := do
  let fs ← optional req "translators" (asObject "translators") []
  fs.mapM fun (opType, v) => do
    let name ← asString "translator kind" v
    match Kind.ofName? name with
    | some k => pure (opType, k)
    | none => throw ("unknown translator kind '" ++ name ++ "'")

/-- The options of a request, read from the `"config"` value. -/
def options (req : Value) : Except DecodeError Options :=
  match given? req "config" with
  | some v => Options.ofValue v
  | none => .ok {}

/-- Serves `translate`. -/
def translate (req : Value) : Except Refusal Value := do
  match ← model req with
  | .error e => return lowerFailure e
  | .ok src =>
    let reg ← registry req
    match options req with
    | .error e => return failure "Config" e.message
    | .ok opts =>
      let s : Session := ⟨src, reg, opts, {}, none⟩
      match s.convertedModel with
      | (.error e, s) => return .obj [("cache", cacheJson s.cache), ("error", .str e.kind),
          ("message", .str e.message)]
      | (.ok m, s) =>
        let (again, s') := s.convertedModel
        let same := match again with
          | .ok m' => m'.toJson.render == m.toJson.render && s'.cache.stats == s.cache.stats
          | .error _ => false
        return .obj [("cache", cacheJson s'.cache), ("memoized", .bool same), ("model", m.toJson)]

/-- Serves `batch`. -/
def batch (req : Value) : Except Refusal Value := do
  let items ← required req "models" (listOf Reader.any)
  match items.mapM Source.Graph.ofValue with
  | .error e => return lowerFailure e
  | .ok models =>
    let reg ← registry req
    match options req with
    | .error e => return failure "Config" e.message
    | .ok opts =>
      return .arr ((lowerAll models reg opts).map fun
        | .ok m => .obj [("model", m.toJson)]
        | .error e => .obj [("error", lowerFailure e)])

/-- Serves `specialize`. -/
def specialize (req : Value) : Except Refusal Value := do
  match ← model req with
  | .error e => return lowerFailure e
  | .ok src =>
    let shapes ← required req "shapes" (listOf Shape.read)
    let types ← required req "types" (listOf ElementType.read)
    match src.specialize shapes types with
    | .error e => return lowerFailure e
    | .ok g =>
      return .obj [("formal", .arr (g.formal.map fun p => .str p.name)),
        ("inputs", .arr (g.inputs.map fun p => .obj [("element_type", .str p.elementType.name),
          ("frozen", .bool p.value.isSome), ("name", .str p.name), ("shape", p.shape.toJson)]))]

/-- Serves `resolve_flat_index`. -/
def resolveFlatIndex (req : Value) : Except Refusal Value := do
  let names ← required req "outputs" (listOf (Reader.option string))
  let group ← required req "group" string
  let index ← required req "index" natural
  let outputs := names.zipIdx.map fun (n, i) => ({ label := n, handle := ⟨0, i⟩ } : Labeled)
  return match flatIndex outputs group index with
    | .ok k => Value.ofNat k
    | .error e => lowerFailure e

/-- Serves `reorder`. -/
def reorder (req : Value) : Except Refusal Value := do
  let kind ← optional req "kind" (fun v => do
    match ← decoded "kind" string v with
    | "parameters" => pure OrderKind.parameters
    | "results" => pure OrderKind.results
    | _ => throw "kind must be 'parameters' or 'results'") .parameters
  let names ← required req "names" (listOf string)
  let items ← required req "items" (listOf string)
  return match arrange kind names (List.range items.length) (fun i => items.getD i "") with
    | .ok order => .arr (order.map Value.ofNat)
    | .error e => lowerFailure e

/-- Serves `ir_graph`. -/
def irGraph (req : Value) : Except Refusal Value := do
  let steps ← asList "steps" (← need req "steps")
  let (b, trace) := runScript {} steps
  return .obj [("graph", b.graph.toJson), ("trace", .arr trace)]

/-- The node numbers of a body's parameters or results: none when absent or null. -/
def nodesOf (body : Value) (k : String) : Except Refusal (List Nat) :=
  optional body k (decoded k (listOf natural)) []

/-- A handle among the inputs of a splice, naming a value of the outer graph. -/
def spliceInput (outer : Bench) (x : Value) : Except Refusal Handle := do
  let h ← decoded "value" Handle.read x
  outer.needValue h
  pure h

/-- Serves `inject`: runs the outer script, then the body's script, then splices the body into
the outer graph. Before splicing, each body parameter must have an output, each body result
must be a node, and each input must be a value of the outer graph; the inputs are read after
the body is checked, and checked one by one, in order; the operation type is read last. -/
def inject (req : Value) : Except Refusal Value := do
  let outerSteps ← asList "steps" (← need req "outer")
  let body ← need req "body"
  let bodySteps ← asList "steps" (← need body "steps")
  let params ← nodesOf body "parameters"
  let results ← nodesOf body "results"
  let (outer, outerTrace) := runScript {} outerSteps
  let (inner, bodyTrace) := runScript {} bodySteps
  for p in params do
    inner.needValue ⟨p, 0⟩
  for r in results do
    inner.needNode r
  let inputItems ← optional req "inputs" (decoded "inputs" (listOf Reader.any)) []
  let inputs ← inputItems.mapM (spliceInput outer)
  let opType ← optional req "op_type" (decoded "op_type" string) "Body"
  let m : Model := ⟨"body", inner.graph, params, results⟩
  let (g, r) := outer.graph.splice m opType inputs
  let outcome := match r with
    | .ok vs => .obj [("ok", handlesToJson vs)]
    | .error e => lowerFailure e
  return .obj [("body_trace", .arr bodyTrace), ("graph", g.toJson), ("outcome", outcome),
    ("outer_trace", .arr outerTrace)]

/-- Serves one request. -/
def serve (req : Value) : Except Refusal Value := do
  let op ← asString "'op'" (← need req "op")
  match op with
  | "parse_edge" =>
    let text ← asString "text" (← need req "text")
    return match Edge.parse? text with
      | some e => edgeJson e
      | none => lowerFailure (.invalidEdge text)
  | "parse_output" =>
    let text ← asString "text" (← need req "text")
    return match Sink.parse? text with
      | some k => sinkJson k
      | none => lowerFailure (.invalidOutputPlace text)
  | "shape" =>
    return match decodeTree Shape.read (← need req "shape") with
      | .ok s => shapeJson s
      | .error e => failure "Parse" e.message
  | "config" =>
    let text ← asString "text" (← need req "text")
    return match Options.ofText text with
      | .ok o => optionsJson o
      | .error e => failure "Config" e.message
  | "resolve_flat_index" => resolveFlatIndex req
  | "reorder" => reorder req
  | "specialize" => specialize req
  | "translate" => translate req
  | "batch" => batch req
  | "ir_graph" => irGraph req
  | "inject" => inject req
  | other => throw ("unknown op '" ++ other ++ "'")

/-- The answer to a request: what it asks for, or its refusal. -/
def answer (req : Value) : Value :=
  match serve req with
  | .ok v => v
  | .error text => refused text

/-- The answer to a request line: the line read as JSON, then answered. -/
def answerLine (line : String) : String :=
  match decodeText Reader.any line with
  | .ok req => (answer req).render
  | .error e => (refused ("request is not JSON: " ++ e.message)).render

end Lowering.Request
