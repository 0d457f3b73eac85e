import Lowering.Translator.Kind
import Lowering.Pass.Assemble
import Lowering.Options

/-! # One lowering pass

`lowerGraph` turns a source graph into an IR model in one walk:

1. each frozen input becomes a named constant, each other input a parameter (once per name);
2. each operation, in source order and once per name, has its inputs bound to values, and is
   then translated by its registered translator, or replaced by the body of the same name
   from the library, or kept as a stand-in; its values are bound to its name;
3. results come from the declared outputs, or else from every value nobody reads;
4. names are restored from the registries and parameters and results are put in the
   requested order.

A translator that fails only turns its operation into a stand-in that records why; every
other failure stops the pass.
-/

namespace Lowering.Pass

open Lowering.Ir Lowering.Translator
open Lowering.Source (Operation Edge Place)

/-- Operation types whose inputs are not bound: a constant carries its value in attributes, and
the back edge of a loop's next iteration was cut by the reader. -/
def inputless (opType : String) : Bool := opType == "Const" || opType == "NextIteration"

/-- Stock translators by operation type. -/
abbrev Registry := List (String × Kind)

/-- What a pass works with: the translators, the options, and the session's source of
translated bodies, which knows the top-level model's library. -/
structure Env where
  registry : Registry
  options : Options
  library : Source.Graph
  bodies : BodySource

/-- The state of a pass: the graph being built, the session's body cache, the bindings, and
the parameters and results found so far. -/
structure PassState where
  graph : Graph := {}
  cache : BodyCache := {}
  bindings : Bindings := {}
  parameters : List Nat := []
  results : List Nat := []

/-- A pass's computation; the state (in particular the body cache) survives a failure. -/
abbrev PassM := ExceptT LowerError (StateM PassState)

/-- Lifts a failure or a value. -/
def liftExcept (r : Except LowerError α) : PassM α :=
  match r with
  | .ok a => pure a
  | .error e => throw e

/-- Binds a name. -/
def bindName (name : String) (vs : List Labeled) : PassM Unit := do
  let s ← get
  let b ← liftExcept (s.bindings.bind name vs)
  set { s with bindings := b }

/-- The one value under a key written for a single value; another count is a failure. -/
def single (vs : List Labeled) (fault : LowerError) : PassM Handle :=
  match vs with
  | [v] => pure v.handle
  | _ => throw fault

/-- The value for input `slot` of `op` through `edge`, or `none` for a control edge.

In order: a value bound to `slot:op` (an input cut off by pruning) wins; a control edge gives
none; a group is resolved to an output index `i`; a value bound to `producer:i` wins next;
otherwise the producer's values are used, and a stand-in producer first grows to have output `i`,
unless that takes more than `Graph.maxOutputs` outputs. -/
def resolveInput (op : Operation) (slot : Nat) (edge : Edge) : PassM (Option Handle) := do
  let fault (i : Nat) (f : InputFault) : LowerError :=
    .inputResolution op.name slot edge.producer i f
  let s ← get
  match s.bindings.get? (toString slot ++ ":" ++ op.name) with
  | some vs => return some (← single vs (fault edge.index .pruned))
  | none =>
  if edge.control then return none
  let out ← match edge.group with
    | some grp =>
      match flatIndex ((s.bindings.get? edge.producer).getD []) grp edge.index with
      | .ok p => pure p
      | .error (.groupLookup g i f) => throw (fault edge.index (.group g i f))
      | .error e => throw e
    | none => pure edge.index
  match s.bindings.get? (edge.producer ++ ":" ++ toString out) with
  | some vs => return some (← single vs (fault out .pruned))
  | none =>
  match s.bindings.get? edge.producer with
  | none => throw (fault out .notFound)
  | some vs =>
    if vs.length ≤ out then
      if let some first := vs.head? then
        let n := first.handle.node
        if (s.graph.node? n).elim false (·.op.isFramework) then
          -- a stand-in learns its number of outputs from its readers
          let len := (out + 1) % Nat.pow 2 64
          if (s.graph.outputs n).length < len ∧ Graph.maxOutputs < len then throw .capacityOverflow
          let g := s.graph.growOutputs n len
          set { s with graph := g, bindings := s.bindings.rebind edge.producer (unlabeled (g.outputs n)) }
    let s ← get
    match (s.bindings.get? edge.producer).bind (·[out]?) with
    | some v => return some v.handle
    | none => throw (fault out .outOfRange)

/-- The values of the inputs of `op`, control edges left out. -/
def resolveInputs (op : Operation) : PassM (List Handle) := do
  if inputless op.opType then return []
  let found ← op.inputs.zipIdx.mapM fun (e, i) => resolveInput op i e
  return found.reduceOption

/-- A stand-in for `op` on `inputs` with its declared number of outputs. -/
def passthrough (op : Operation) (inputs : List Handle) (failure : Option String) :
    PassM (List Labeled) := do
  let s ← get
  let (g, n) := s.graph.addFramework "" op.opType op.attrs failure inputs op.numOutputs
  let g := g.setName op.name n
  set { s with graph := g }
  return unlabeled (g.outputs n)

/-- The text of a translator's outcome that cannot be used: the first value that does not
exist, or the failure. -/
def rejection (g : Graph) : Except Failure (List Labeled) → Option String
  | .ok vs =>
    match vs.find? (fun v => !g.hasOutput v.handle) with
    | some v =>
      some ("translator returned port " ++ toString v.handle.output ++ " of node " ++
        toString v.handle.node ++ ", which does not exist")
    | none => none
  | .error f => some f.text

/-- The values of `op`: from its translator (falling back to a stand-in that records the
translator's failure, after dropping the nodes it added), else from the library body of its
type, else from a stand-in. -/
def dispatch (env : Env) (op : Operation) (inputs : List Handle) : PassM (List Labeled) := do
  match env.registry.find? (·.1 == op.opType) with
  | some (_, kind) =>
    let s ← get
    let mark := s.graph.checkpoint
    let ctx : Context := ⟨op, inputs, env.bodies⟩
    let (outcome, w) := ((kind.run ctx).run).run ⟨s.graph, s.cache⟩
    match rejection w.graph outcome, outcome with
    | none, .ok vs =>
      set { s with graph := w.graph, cache := w.cache }
      return vs
    | failure, _ =>
      set { s with graph := w.graph.rollback mark, cache := w.cache }
      passthrough op inputs (some (failure.getD ""))
  | none =>
    let s ← get
    let (found, cache) := env.bodies op.opType inputs s.graph s.cache
    set { s with cache := cache }
    match ← liftExcept found with
    | none => passthrough op inputs none
    | some body =>
      let s ← get
      let (g, r) := s.graph.splice body op.opType inputs
      set { s with graph := g }
      let vs ← liftExcept r
      -- each value of the call is named after the operation and its position
      let g := vs.zipIdx.foldl (fun g (v, i) =>
        g.modifyTensor v fun t => { t with names := [op.name ++ ":" ++ toString i] }) g
      modify fun s => { s with graph := g }
      return unlabeled vs

/-- Records the values of `op`: a result's node joins the results, a parameter not yet listed
joins the parameters, and the other values are bound to the operation's name. -/
def register (op : Operation) (vs : List Labeled) : PassM Unit := do
  let s ← get
  let (kept, parameters, results) := vs.foldl (fun (kept, ps, rs) v =>
    let nd := s.graph.node? v.handle.node
    if nd.elim false (·.op.isResult) then
      (kept, ps, if rs.contains v.handle.node then rs else rs ++ [v.handle.node])
    else
      let ps := if nd.elim false (·.op.isParameter) && !ps.contains v.handle.node then
        ps ++ [v.handle.node] else ps
      (kept ++ [v], ps, rs)) ([], s.parameters, s.results)
  set { s with parameters := parameters, results := results }
  if !kept.isEmpty then bindName op.name kept

/-- The frozen inputs, as named constants. -/
def freezeInputs (places : List Place) : PassM Unit :=
  places.forM fun p => do
    match p.value with
    | none => pure ()
    | some c =>
      let s ← get
      let (g, h) := s.graph.addConstant c
      set { s with graph := g.setName p.name h.node }
      bindName p.name [{ handle := h }]

/-- The other inputs, as parameters, skipping names already bound. -/
def openInputs (options : Options) (places : List Place) : PassM Unit :=
  places.forM fun p => do
    if p.value.isSome then return
    let s ← get
    if s.bindings.contains p.name then return
    let t := if p.elementType.isStatic then p.elementType else options.defaultInputType
    let (g, h) := s.graph.addParameter t p.shape
    set { s with graph := g.setName p.name h.node, parameters := s.parameters ++ [h.node] }
    bindName p.name [{ handle := h }]

/-- Translates the operations in order, skipping names already bound. -/
def translateOperations (env : Env) (ops : List Operation) : PassM Unit :=
  ops.forM fun op => do
    if (← get).bindings.contains op.name then return
    let inputs ← resolveInputs op
    let vs ← dispatch env op inputs
    register op vs

/-- Results, when no translator made any: declared ones, else the values nobody reads. -/
def assembleResults (src : Source.Graph) : PassM Unit := do
  let s ← get
  if !s.results.isEmpty then return
  let (g, rs) ← liftExcept (declaredResults src s.bindings s.graph)
  set { s with graph := g, results := rs }
  if !rs.isEmpty then return
  let (g, rs) := terminalResults s.bindings g
  set { s with graph := g, results := rs }

/-- Registry names, then the requested order. -/
def finishNames (src : Source.Graph) : PassM Unit := do
  let s ← get
  let g := match src.savedInputs with
    | some reg => if reg.isEmpty then s.graph else restoreParameterNames s.graph s.parameters reg
    | none => s.graph
  let g := match src.savedOutputs with
    | some reg => if reg.isEmpty then g else restoreResultNames g s.results reg
    | none => g
  let nameOf (n : Nat) : String := (g.node? n).elim "" (·.name)
  let ps ← liftExcept (arrange .parameters src.inputNames s.parameters nameOf)
  let rs ← liftExcept (arrange .results src.outputNames s.results nameOf)
  set { s with graph := g, parameters := ps, results := rs }

/-- One pass over `src`, giving the model `name`. -/
def lowerGraph (env : Env) (src : Source.Graph) (name : String) :
    StateM BodyCache (Except LowerError Model) := do
  let cache ← get
  let pass : PassM Model := do
    freezeInputs src.inputs
    openInputs env.options src.inputs
    translateOperations env src.operations
    assembleResults src
    finishNames src
    let s ← get
    return ⟨name, s.graph, s.parameters, s.results⟩
  let (r, s) := (pass.run).run { cache := cache }
  set s.cache
  return r

end Lowering.Pass
