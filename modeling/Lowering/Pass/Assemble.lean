import Lowering.Pass.Bindings
import Lowering.Source.Graph

/-! # Results, names and order of a translated graph

The last steps of a pass:

* `declaredResults` — a result for each value a declared output names;
* `terminalResults` — when nothing is declared, a result for every bound value nobody reads;
* `restoreParameterNames`, `restoreResultNames` — names taken back from the graph's registries;
* `arrange` — a list put in the order of requested names.
-/

namespace Lowering.Pass

open Lowering.Ir
open Lowering.Source (Sink Edge Operation)

/-- The tensor name given to a parameter or result that the registry does not know. -/
def unusedMarker : String := "saved_model_unused"

/-- The values bound to a name, or a missing-operation failure. -/
def Bindings.require (b : Bindings) (name : String) : Except LowerError (List Labeled) :=
  match b.get? name with
  | some vs => .ok vs
  | none => .error (.missingOperation name)

/-- The results of one declared output, appended to `acc`. -/
def declareSink (src : Source.Graph) (b : Bindings) (g : Ir.Graph) (acc : List Nat) (k : Sink) :
    Except LowerError (Ir.Graph × List Nat) := do
  match k.mode with
  | .all =>
    let vs ← b.require k.name
    pure <| (vs.zipIdx).foldl (fun (g, acc) (v, p) =>
      let (g, r) := g.addResult v.handle (k.name ++ ":" ++ toString p)
      (g, acc ++ [r])) (g, acc)
  | .output p =>
    let vs ← b.require k.name
    match vs[p]? with
    | none => throw (.noOutput k.name p)
    | some v =>
      let (g, r) := g.addResult v.handle (k.render)
      pure (g, acc ++ [r])
  | .feed slot =>
    let op : Operation ← match src.operation? k.name with
      | some op => pure op
      | none => throw (.missingOperation k.name)
    let edge : Edge ← match op.inputs[slot]? with
      | some e => if e.control then throw (.inputResolution op.name slot "" 0 .noDataInput) else pure e
      | none => throw (.inputResolution op.name slot "" 0 .noDataInput)
    let vs ← b.require edge.producer
    let out ← match edge.group with
      | some grp =>
        match flatIndex vs grp edge.index with
        | .ok p => pure p
        | .error (.groupLookup g' i f) =>
          throw (.inputResolution op.name slot edge.producer edge.index (.group g' i f))
        | .error e => throw e
      | none => pure edge.index
    match vs[out]? with
    | none => throw (.noOutput edge.producer out)
    | some v =>
      let (g, r) := g.addResult v.handle (edge.producer ++ ":" ++ toString out)
      pure (g, acc ++ [r])

/-- Results for the declared outputs of `src`, in order. -/
def declaredResults (src : Source.Graph) (b : Bindings) (g : Ir.Graph) :
    Except LowerError (Ir.Graph × List Nat) :=
  src.outputs.foldlM (fun (g, acc) k => declareSink src b g acc k) (g, [])

/-- A result for every bound value that is no result's, has no reader yet and was not seen
before, walking names in order and each name's values in order; the result is named after the
value's node and the value's position under that name. -/
def terminalResults (b : Bindings) (g : Ir.Graph) : Ir.Graph × List Nat :=
  let candidates := b.entries.flatMap fun (_, vs) => vs.zipIdx.map fun (v, i) => (v.handle, i)
  let (g, _, acc) := candidates.foldl (fun (g, seen, acc) (h, i) =>
    if seen.contains h then (g, seen, acc)
    else
      let seen := seen ++ [h]
      let isResult := (g.node? h.node).elim false (·.op.isResult)
      if isResult || g.consumerCount h > 0 then (g, seen, acc)
      else
        let name := (g.node? h.node).elim "" (·.name) ++ ":" ++ toString i
        let (g, r) := g.addResult h name
        (g, seen, acc ++ [r])) (g, ([] : List Handle), ([] : List Nat))
  (g, acc)

/-- The registry entry of the first name, over the outputs of a node in order and each
output's names in order, that the registry has. -/
def registered (registry : List (String × String)) (names : List String) : Option String :=
  names.findSome? fun n => (registry.find? (·.1 == n)).map (·.2)

/-- Renames each parameter after the registry entry of one of its tensor names; a parameter
the registry does not know gets the unused marker. -/
def restoreParameterNames (g : Ir.Graph) (params : List Nat) (registry : List (String × String)) :
    Ir.Graph :=
  params.foldl (fun g p =>
    let names := (g.outputs p).flatMap fun h => (g.tensor h).names
    match registered registry names with
    | some name => g.setName name p
    | none => g.modifyTensor ⟨p, 0⟩ fun t => { t with names := insertName unusedMarker t.names })
    g

/-- Renames each result after the registry entry of one of the names of the value it reads,
and adds that name to the value; a value the registry does not know gets the unused marker. -/
def restoreResultNames (g : Ir.Graph) (results : List Nat) (registry : List (String × String)) :
    Ir.Graph :=
  results.foldl (fun g r =>
    match g.inputValue r with
    | none => g
    | some v =>
      match registered registry (g.tensor v).names with
      | some name =>
        let g := g.modifyNode r fun nd => { nd with name := name }
        g.modifyTensor v fun t => { t with names := insertName name t.names }
      | none => g.modifyTensor v fun t => { t with names := insertName unusedMarker t.names })
    g

/-- Puts `items` in the order of `names`, each item going to the first position of its name.
An empty list of names keeps the order. Fails when the counts differ, for the first item whose
name is not requested, and for an item whose position is taken. -/
def arrange (kind : OrderKind) (names : List String) (items : List α) (nameOf : α → String) :
    Except LowerError (List α) :=
  if names.isEmpty then .ok items
  else if names.length ≠ items.length then
    .error (.reorder kind (.lengths names.length items.length))
  else
    let placed : Except LowerError (List (Option α)) := items.foldlM (fun slots item =>
      let name := nameOf item
      match names.idxOf? name with
      | none => .error (LowerError.reorder kind (.notRequested name))
      | some i =>
        match slots[i]? with
        | some (some _) => .error (LowerError.reorder kind (.twice name))
        | _ => .ok (slots.set i (some item))) (List.replicate items.length (none : Option α))
    placed.map List.reduceOption

end Lowering.Pass
