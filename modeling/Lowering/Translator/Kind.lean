import Lowering.Translator.Context
import Lowering.Tensor.Json
import Lowering.Pass.Splice

/-! # Stock translators

A fixed set of generic translators, each named by a `Kind`, that a registry maps operation types
to. They cover the shapes a translator can take: one node from its inputs, several outputs, named
output groups, passing an input through, creating parameters, constants and results, failing in
each of the ways a translator can fail, returning a value that does not exist, and embedding a
body graph by itself.
-/

namespace Lowering.Translator

open Lowering.Ir Lowering.Pass Lowering.Json

/-- A stock translator. -/
inductive Kind where
  /-- One node of the operation's type on input 0, typed like it. -/
  | unary
  /-- One node on inputs 0 and 1, typed like input 0. -/
  | binary
  /-- One node on all inputs with `n` outputs typed like the first input. -/
  | variadic
  /-- One node on all inputs whose outputs form the named groups of attribute `groups`. -/
  | grouped
  /-- Input 0 itself. -/
  | identity
  /-- A result reading input 0. -/
  | result
  /-- A new parameter. -/
  | parameter
  /-- A constant from attribute `value`. -/
  | constant
  /-- Adds a node, then fails with attribute `message`. -/
  | fail
  /-- Fails because of the value of attribute `mode`. -/
  | failAttr
  /-- Aborts with attribute `message`. -/
  | abort
  /-- Aborts with a fixed text. -/
  | abortText
  /-- Aborts without a text. -/
  | abortSilent
  /-- Returns an output, numbered by an attribute, of a new one-output node; it need not exist. -/
  | strayHandle
  /-- Returns input `index`, aborting when there is none. -/
  | inputOutOfRange
  /-- Splices body `body` `times` times on all inputs. -/
  | repeatBody
  deriving DecidableEq, Repr

namespace Kind

/-- The kinds by the names requests use. -/
def names : List (String × Kind) :=
  [("unary", unary), ("binary", binary), ("variadic", variadic), ("grouped", grouped),
   ("identity", identity), ("result", result), ("parameter", parameter), ("constant", constant),
   ("fail", fail), ("fail_attr", failAttr), ("panic", abort), ("panic_str", abortText),
   ("panic_opaque", abortSilent), ("bad_port", strayHandle), ("input_oob", inputOutOfRange),
   ("repeat", repeatBody)]

/-- The kind of a name. -/
def ofName? (s : String) : Option Kind := (names.find? (·.1 == s)).map (·.2)

/-- A tensor typed like `t`, without names. -/
def like (t : TensorInfo) : TensorInfo := { elementType := t.elementType, shape := t.shape }

/-- Splices `body` on `inputs` `times` times, collecting the values. -/
def repeatSplice (ctx : Context) (body : String) (inputs : List Handle) :
    Nat → List Handle → TranslatorM (List Handle)
  | 0, acc => pure acc
  | k + 1, acc => do
    match ← ctx.bodyModel body inputs with
    | .error e => Context.fail e.message
    | .ok none => Context.fail ("no body graph '" ++ body ++ "'")
    | .ok (some m) =>
      let w ← get
      let (g, r) := w.graph.splice m body inputs
      set { w with graph := g }
      match r with
      | .error e => Context.fail e.message
      | .ok vs => repeatSplice ctx body inputs k (acc ++ vs)

/-- Runs a stock translator. -/
def run (k : Kind) (ctx : Context) : TranslatorM (List Labeled) := do
  let op := ctx.op
  match k with
  | unary =>
    let x ← ctx.input 0
    let t ← Context.tensor x
    let n ← ctx.addOp op.opType [x] [like t]
    pure (unlabeled [⟨n, 0⟩])
  | binary =>
    let a ← ctx.input 0
    let b ← ctx.input 1
    let t ← Context.tensor a
    let n ← ctx.addOp op.opType [a, b] [like t]
    pure (unlabeled [⟨n, 0⟩])
  | variadic =>
    let count ← ctx.attrOr "n" natural 1
    let info ← match ctx.inputs.head? with
      | some x => like <$> Context.tensor x
      | none => pure {}
    let n ← ctx.addOp op.opType ctx.inputs (List.replicate count info)
    pure (unlabeled ((List.range count).map fun p => ⟨n, p⟩))
  | grouped =>
    let groups ← ctx.attrOr "groups" (listOf (Reader.option string)) [some "y", some "idx", some "count"]
    let n ← ctx.addOp op.opType ctx.inputs (List.replicate groups.length {})
    pure (groups.zipIdx.map fun (g, p) => { label := g, handle := ⟨n, p⟩ })
  | identity =>
    let x ← ctx.input 0
    pure (unlabeled [x])
  | result =>
    let x ← ctx.input 0
    let name ← ctx.attrOr "name" string "retval"
    let w ← get
    let (g, r) := w.graph.addResult x name
    set { w with graph := g }
    pure (unlabeled [⟨r, 0⟩])
  | parameter =>
    let t ← ctx.attrOr "element_type" ElementType.read .f32
    let s ← ctx.attrOr "shape" Shape.read Shape.dynamic
    let name ← ctx.attrOr "name" string op.name
    let w ← get
    let (g, p) := w.graph.addParameter t s
    set { w with graph := g.setName name p.node }
    pure (unlabeled [p])
  | constant =>
    let c ← ctx.attr "value" Constant.read
    let w ← get
    let (g, h) := w.graph.addConstant c
    set { w with graph := g.setName op.name h.node }
    pure (unlabeled [h])
  | fail =>
    let message ← ctx.attrOr "message" string "unsupported attribute value"
    let _ ← ctx.addOp "Partial" ctx.inputs [{}]
    Context.fail message
  | failAttr =>
    let mode ← ctx.attr "mode" string
    Context.fail ("mode '" ++ mode ++ "' is not supported")
  | abort =>
    let message ← ctx.attrOr "message" string "translator panicked"
    throw (.abort (some message))
  | abortText => throw (.abort (some "index out of bounds"))
  | abortSilent => throw (.abort none)
  | strayHandle =>
    let out ← ctx.attrOr "port" natural 5
    let n ← ctx.addOp op.opType [] [{}]
    pure (unlabeled [⟨n, out⟩])
  | inputOutOfRange =>
    let i ← ctx.attrOr "index" natural 7
    match ctx.inputs[i]? with
    | some x => pure (unlabeled [x])
    | none =>
      throw (.abort (some ("index out of bounds: the len is " ++ toString ctx.inputs.length ++
        " but the index is " ++ toString i)))
  | repeatBody =>
    let body ← ctx.attrOr "body" string "Step"
    let times ← ctx.attrOr "times" natural 2
    let giveUp ← ctx.attrOr "fail_after" (Reader.bool "a boolean") false
    let vs ← repeatSplice ctx body ctx.inputs times []
    if giveUp then
      Context.fail ("repeat of '" ++ body ++ "' gave up after " ++ toString times ++ " injections")
    else pure (unlabeled vs)

end Kind

end Lowering.Translator
