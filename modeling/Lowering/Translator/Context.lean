import Lowering.Pass.Bindings
import Lowering.Pass.BodyCache
import Lowering.Source.Graph
import Lowering.Json.Reader.Tree

/-! # What a translator sees

A translator turns one source operation into IR nodes. It works on the graph under
construction and may ask the session for translated bodies, so its state is a `Workspace`:
the graph and the session's body cache. A translator either gives the values of the operation,
or fails (`Failure`); a failure keeps the workspace as it was left, and the pass then drops the
nodes the translator added.

`Context` holds the operation, its resolved inputs and the session's source of bodies, with the
reads a translator needs: `input`, `attr`, `attrOr`, `addOp` and `bodyModel`.
-/

namespace Lowering.Translator

open Lowering.Ir Lowering.Pass Lowering.Json

/-- Why a translator gave up. -/
inductive Failure where
  /-- An error, with its text. -/
  | error (text : String)
  /-- An abort, with its text when it carries one. -/
  | abort (payload : Option String)
  deriving Repr

/-- The text of a failure; an abort without text is an unknown exception. -/
def Failure.text : Failure → String
  | .error t => t
  | .abort (some t) => t
  | .abort none => "Unknown exception type"

/-- What a translator changes: the graph under construction and the session's body cache. -/
structure Workspace where
  graph : Graph
  cache : BodyCache

/-- The session's source of translated bodies: for a body name, the caller's inputs and the
caller's graph, the translated body specialized to the inputs, if the library has that body. -/
abbrev BodySource :=
  String → List Handle → Graph → BodyCache → Except LowerError (Option Model) × BodyCache

/-- A translator's computation. -/
abbrev TranslatorM := ExceptT Failure (StateM Workspace)

/-- What a translator is given. -/
structure Context where
  op : Source.Operation
  inputs : List Handle
  bodies : BodySource

namespace Context

/-- Fails with an error text. -/
def fail (text : String) : TranslatorM α := throw (.error text)

/-- Input `i`. -/
def input (ctx : Context) (i : Nat) : TranslatorM Handle :=
  match ctx.inputs[i]? with
  | some h => pure h
  | none => fail (ctx.op.opType ++ " '" ++ ctx.op.name ++ "' has no input " ++ toString i)

/-- Reads a present attribute. -/
def readAttr (ctx : Context) (k : String) (v : Value) (read : TreeReader α) : TranslatorM α :=
  match decodeTree read v with
  | .ok a => pure a
  | .error e =>
    fail ("attribute '" ++ k ++ "' of '" ++ ctx.op.name ++ "' has unexpected type: " ++ e.message)

/-- Attribute `k`, which must be present. -/
def attr (ctx : Context) (k : String) (read : TreeReader α) : TranslatorM α :=
  match Fields.find? ctx.op.attrs k with
  | some v => ctx.readAttr k v read
  | none => fail ("attribute '" ++ k ++ "' is missing on '" ++ ctx.op.name ++ "'")

/-- Attribute `k`, or `default` when it is absent. -/
def attrOr (ctx : Context) (k : String) (read : TreeReader α) (default : α) : TranslatorM α :=
  match Fields.find? ctx.op.attrs k with
  | some v => ctx.readAttr k v read
  | none => pure default

/-- The tensor of a handle. -/
def tensor (h : Handle) : TranslatorM TensorInfo := do
  pure ((← get).graph.tensor h)

/-- Adds a target operation without attributes and names it after the source operation. -/
def addOp (ctx : Context) (opType : String) (inputs : List Handle) (outputs : List TensorInfo) :
    TranslatorM Nat := do
  let w ← get
  let (g, n) := w.graph.addNode "" (.op opType []) inputs outputs
  set { w with graph := g.setName ctx.op.name n }
  pure n

/-- The translated body `identity` for `inputs`, from the session (which may translate it now). -/
def bodyModel (ctx : Context) (identity : String) (inputs : List Handle) :
    TranslatorM (Except LowerError (Option Model)) := do
  let w ← get
  let (r, cache) := ctx.bodies identity inputs w.graph w.cache
  set { w with cache := cache }
  pure r

end Context

end Lowering.Translator
