import Lowering.Ir.Script
import Lowering.Source.Json
import Lowering.Options
import Lowering.Pass.BodyCache

/-! # Requests in JSON: fields and answers

A request is a JSON object naming an operation in `"op"`; its other members are read with the
accessors here, each refusing a missing or ill-typed member with a text (a bad request).
Answers are JSON values; a failure is `{"error": kind, "message": text}`.
-/

namespace Lowering.Request

open Lowering.Json Lowering.Ir

/-- A request that cannot be served, with its text. -/
abbrev Refusal := String

/-- A failure answer. -/
def failure (kind message : String) : Value :=
  .obj [("error", .str kind), ("message", .str message)]

/-- The answer to a refused request. -/
def refused (text : Refusal) : Value := failure "BadRequest" text

/-- The answer for a lowering failure. -/
def lowerFailure (e : LowerError) : Value := failure e.kind e.message

/-- A member that must be present (it may be null). -/
def need (req : Value) (k : String) : Except Refusal Value :=
  match req.field? k with
  | some v => .ok v
  | none => .error ("missing field '" ++ k ++ "'")

/-- A member that is present and not null. -/
def given? (req : Value) (k : String) : Option Value :=
  match req.field? k with
  | some .null | none => none
  | some v => some v

/-- A string member's value. -/
def asString (k : String) : Value → Except Refusal String
  | .str s => .ok s
  | _ => .error (k ++ " must be a string")

/-- An array member's items. -/
def asList (k : String) : Value → Except Refusal (List Value)
  | .arr xs => .ok xs
  | _ => .error (k ++ " must be a list")

/-- An object member's members. -/
def asObject (k : String) : Value → Except Refusal Fields
  | .obj fs => .ok fs
  | _ => .error (k ++ " must be an object")

/-- A member read with `read`, or `default` when absent or null. -/
def optional (req : Value) (k : String) (read : Value → Except Refusal α) (default : α) :
    Except Refusal α :=
  match given? req k with
  | some v => read v
  | none => .ok default

/-- A typed value decoded from a member's JSON value; what does not decode is refused as
`bad k: ...` with the decoder's message. -/
def decoded (k : String) (read : TreeReader α) (v : Value) : Except Refusal α :=
  (decodeTree read v).mapError fun e => "bad " ++ k ++ ": " ++ e.message

/-- A handle, from a pair `[node, output]` of counts. -/
def Handle.read : TreeReader Handle :=
  (fun (n, p) => ⟨n, p⟩) <$> pairOf natural

/-- A required member decoded by `read`. -/
def required (req : Value) (k : String) (read : TreeReader α) : Except Refusal α := do
  decoded k read (← need req k)

/-- The source graph of a request: `"model_text"` as text when present (it must be a string),
else `"model"` as a value. A graph that does not read is a lowering failure, an absent one a refusal. -/
def model (req : Value) : Except Refusal (Except LowerError Source.Graph) :=
  match req.field? "model_text" with
  | some (.str t) => .ok (Source.Graph.ofText t)
  | some _ => .error "model_text must be a string"
  | none =>
    match req.field? "model" with
    | some v => .ok (Source.Graph.ofValue v)
    | none => .error "missing field 'model'"

/-- Cache statistics as `{"lookups", "hits", "inserts", "len"}`. -/
def cacheJson (c : Pass.BodyCache) : Value :=
  .obj [("hits", Value.ofNat c.stats.hits), ("inserts", Value.ofNat c.stats.inserts),
        ("len", Value.ofNat c.size), ("lookups", Value.ofNat c.stats.lookups)]

end Lowering.Request
