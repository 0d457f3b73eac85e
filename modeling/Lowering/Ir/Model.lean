import Lowering.Ir.Basic

/-! # IR models

A model is a named IR graph with its parameters and results listed in their public order.
`Model.summary` describes it in a few lines: counts, then a line per parameter and result with
its name, element type and shape.
-/

namespace Lowering.Ir

/-- A translated model. -/
structure Model where
  name : String
  graph : Graph
  parameters : List Nat
  results : List Nat
  deriving Inhabited

namespace Model

/-- The name of a node, or the empty name for a missing index. -/
def nodeName (m : Model) (n : Nat) : String :=
  (m.graph.node? n).elim "" (·.name)

/-- The names of the parameters, in order. -/
def parameterNames (m : Model) : List String := m.parameters.map m.nodeName

/-- The names of the results, in order. -/
def resultNames (m : Model) : List String := m.results.map m.nodeName

/-- The value each result reads. -/
def resultValues (m : Model) : List (Option Handle) := m.results.map m.graph.inputValue

/-- The stand-in nodes, in index order. -/
def passthrough (m : Model) : List Node :=
  m.graph.nodes.toList.filter (·.op.isFramework)

/-- One line of the summary for a parameter or result: name, element type, shape. -/
def summaryLine (m : Model) (label : String) (n : Nat) : String :=
  let t := m.graph.tensor ⟨n, 0⟩
  "\n  " ++ label ++ " " ++ m.nodeName n ++ " " ++ t.elementType.name ++ " " ++ t.shape.render

/-- A description of the model: its counts, then its parameters and its results. -/
def summary (m : Model) : String :=
  "Model '" ++ m.name ++ "': " ++ toString m.graph.size ++ " nodes, " ++
    toString m.parameters.length ++ " parameters, " ++ toString m.results.length ++
    " results, " ++ toString m.passthrough.length ++ " framework nodes" ++
    String.join (m.parameters.map (m.summaryLine "in ")) ++
    String.join (m.results.map (m.summaryLine "out"))

end Model

end Lowering.Ir
