import Lowering.Ir.Order
import Lowering.Ir.Model
import Lowering.Error

/-! # Splicing a body into a graph

`Graph.splice` copies a translated body into a graph in place of a call: each body parameter
stands for the caller's value at the same position, the other nodes (results apart) are copied
in topological order with their inputs redirected, and the values the body's results read
become the values of the call.

Before copying, a caller parameter of unknown element type takes the type the body was
translated with. Copies made before a failure stay in the graph.
-/

namespace Lowering.Pass

open Lowering.Ir

/-- Where a body node went: a parameter stands for a caller value, a copied node for its
copy. Later pairs for one node count over earlier ones. -/
structure Relocation where
  replaced : List (Nat × Handle) := []
  copied : List (Nat × Nat) := []

namespace Relocation

/-- The caller value that a body parameter stands for, the last pair for it counting. -/
def replacement? (r : Relocation) (n : Nat) : Option Handle :=
  (r.replaced.reverse.find? (·.1 == n)).map (·.2)

/-- Whether a body node is a parameter that stands for a caller value. -/
def isReplaced (r : Relocation) (n : Nat) : Bool := r.replaced.any (·.1 == n)

/-- Where a body value goes: the caller value for any output of a replaced parameter, the same
output of the copy for a copied node; a node that is neither names a missing output. -/
def relocate (r : Relocation) (body : Graph) (v : Handle) : Except LowerError Handle :=
  match r.replacement? v.node with
  | some h => .ok h
  | none =>
    match r.copied.find? (·.1 == v.node) with
    | some (_, c) => .ok ⟨c, v.output⟩
    | none => .error (.noOutput ((body.node? v.node).elim "" (·.name)) v.output)

end Relocation

/-- Gives a caller parameter of unknown element type the known type of the body parameter that
stands for it. -/
def adoptType (body : Graph) (g : Graph) (pair : Nat × Handle) : Graph :=
  let (param, input) := pair
  let bodyType := (body.tensor ⟨param, 0⟩).elementType
  let isParam := (g.node? input.node).elim false (·.op.isParameter)
  if bodyType.isStatic && !(g.tensor input).elementType.isStatic && isParam then
    g.modifyTensor input fun t => { t with elementType := bodyType }
  else g

/-- Copies the body nodes of `order` into `g`, skipping replaced parameters and results. -/
def copyNodes (body : Graph) : List Nat → Graph × Relocation → Graph × Except LowerError Relocation
  | [], (g, r) => (g, .ok r)
  | n :: rest, (g, r) =>
    match body.node? n with
    | none => copyNodes body rest (g, r)
    | some nd =>
      if r.isReplaced n || nd.op.isResult then copyNodes body rest (g, r)
      else
        match nd.inputs.mapM (r.relocate body) with
        | .error e => (g, .error e)
        | .ok ins =>
          let (g, c) := g.addNode nd.name nd.op ins nd.outputs
          copyNodes body rest (g, { r with copied := r.copied ++ [(n, c)] })

end Lowering.Pass

namespace Lowering.Ir.Graph

open Lowering.Pass

/-- Splices `body` into `g` as a call named `opType` on `inputs`, giving the values of the
body's results. Fails when the counts of body parameters and inputs differ (with the graph
unchanged), when the body has a cycle, or when a body value has nowhere to go. -/
def splice (g : Graph) (body : Model) (opType : String) (inputs : List Handle) :
    Graph × Except LowerError (List Handle) :=
  if body.parameters.length ≠ inputs.length then
    (g, .error (.bodyArity opType body.parameters.length inputs.length))
  else
    let pairs := body.parameters.zip inputs
    let g := pairs.foldl (adoptType body.graph) g
    match body.graph.topoOrder with
    | none => (g, .error (.bodyCycle opType))
    | some order =>
      match copyNodes body.graph order (g, { replaced := pairs }) with
      | (g, .error e) => (g, .error e)
      | (g, .ok r) =>
        let values := body.results.mapM fun res =>
          match body.graph.inputValue res with
          | some v => r.relocate body.graph v
          | none => .error (.noOutput ((body.graph.node? res).elim "" (·.name)) 0)
        (g, values)

end Lowering.Ir.Graph
