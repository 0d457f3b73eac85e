import Lowering.Json.Error

/-! # Reading typed data from JSON

Decoders of typed data are written once, against `Reader`, the operations that every source of
JSON offers: JSON text (`Reader/Text`) and values already read (`Reader/Tree`). The two differ
in what they report, not in what the decoders ask:

* primitives: strings, booleans and numbers, each with the text of what was expected;
* containers: `container` opens an array or an object, `nextElement`, `elements`, `members` and
  `memberValue` read inside it, and closing it is part of `container`;
* `variant` reads the name of a unit variant; `any` a whole value; `skip` one to ignore.

On top of them stand the common decoders: `natural`, `integer`, `float`, `listOf`, `pairOf`,
`mapOf`, `record` (an object by field names or an array by position) and `enumOf`.
-/

namespace Lowering.Json

/-- The kind of an opened container. -/
inductive Shape where
  | seq
  | map
  deriving DecidableEq, Repr

/-- A source of JSON that decoders read from. Every operation reads the next value, or inside
an opened container the next element or member; `exp` names what was expected, for messages. -/
class Reader (m : Type → Type) where
  /-- A string, passed through `check`; a failure of `check` is placed at the string. -/
  stringWith {α : Type} : (exp : String) → (String → Except Problem α) → m α
  bool : (exp : String) → m Bool
  /-- A number, passed through `check`; a failure of `check` is placed at the number. -/
  number {α : Type} : (exp : String) → (Number → Except Problem α) → m α
  /-- `none` for null, otherwise the value read by `read`. -/
  option {α : Type} : m α → m (Option α)
  /-- Opens an array (if `seq`) or an object (if `map`), reads inside it with `body`, and
  closes it. A failure without a place gets the place where the container was closed. -/
  container {α : Type} : (exp : String) → (seq map : Bool) → (Shape → m α) → m α
  /-- Inside an array: the next element, or `none` after the last. -/
  nextElement {α : Type} : m α → m (Option α)
  /-- Inside an array: all remaining elements. -/
  elements {α : Type} : m α → m (List α)
  /-- Inside an object: folds `step` over the remaining members, in the order of the source;
  `step` receives the key and reads the value with `memberValue`. -/
  members {β : Type} : (String → β → m β) → β → m β
  /-- Inside an object: the value of the member whose key was just read. -/
  memberValue {α : Type} : m α → m α
  /-- The name of a unit variant, written as a string or as an object with one member whose
  value is null, passed through `check`. -/
  variant {α : Type} : (String → Except Problem α) → m α
  /-- A whole value. -/
  any : m Value
  /-- A value that is not wanted. -/
  skip : m Unit

section Decoders

variable {m : Type → Type} [Monad m] [MonadExceptOf DecodeError m] [Reader m]

/-- Fails with a problem that has no place yet. -/
def fail (p : Problem) : m α := throw (DecodeError.bare p)

/-- A string. -/
def string (exp : String := "a string") : m String := Reader.stringWith exp .ok

/-- Converts what `read` gives; a failed conversion has no place of its own. -/
def convert (read : m α) (f : α → Except Problem β) : m β := do
  match f (← read) with
  | .ok b => pure b
  | .error p => fail p

/-- A non-negative integer below `2^64`. -/
def natural (exp : String := "usize") : m Nat :=
  Reader.number exp fun
    | .nat n => .ok n
    | .neg i => .error (.invalidValue (.signed i) exp)
    | .float f => .error (.invalidType (.float f) exp)

/-- An integer of the signed 64-bit range. -/
def integer (exp : String := "i64") : m Int :=
  Reader.number exp fun
    | .nat n => if n < Nat.pow 2 63 then .ok n else .error (.invalidValue (.unsigned n) exp)
    | .neg i => .ok i
    | .float f => .error (.invalidType (.float f) exp)

/-- A float; an integer is rounded to the nearest float. -/
def float (exp : String := "f64") : m Float :=
  Reader.number exp fun
    | .nat n => .ok (Float.ofNat n)
    | .neg i => .ok (-(Float.ofNat i.natAbs))
    | .float f => .ok f

/-- An array of values read by `read`. -/
def listOf (read : m α) : m (List α) :=
  Reader.container "a sequence" true false fun _ => Reader.elements read

/-- A pair, from a sequence of exactly two elements each read by `read`. -/
def pairOf (read : m α) : m (α × α) :=
  Reader.container "a tuple of size 2" true false fun _ => do
    let some a ← Reader.nextElement read | fail (.invalidLength 0 "a tuple of size 2")
    let some b ← Reader.nextElement read | fail (.invalidLength 1 "a tuple of size 2")
    pure (a, b)

/-- An object whose member values are read by `read`, sorted by key; of two members with one
key the later counts. -/
def mapOf (read : m α) : m (List (String × α)) :=
  Reader.container "a map" false true fun _ =>
    Reader.members (fun k acc => do
      let v ← Reader.memberValue read
      pure (insertSorted k v acc)) []

/-- One of the named unit variants. -/
def enumOf (variants : List (String × α)) : m α :=
  Reader.variant fun s =>
    match variants.find? (·.1 == s) with
    | some (_, a) => .ok a
    | none => .error (.unknownVariant s (variants.map (·.1)))

/-- How a record is read: its fields in order, which of them must be present, and how each is
read into a draft that `finish` completes (filling defaults, or naming a missing field). -/
structure RecordSpec (m : Type → Type) (β α : Type) where
  /-- The record's description in messages, as `struct Name`. -/
  name : String
  fields : List String
  required : Nat → Bool
  init : β
  isSet : Nat → β → Bool
  read : Nat → β → m β
  finish : β → Except Problem α

/-- The fields of a record from position `i` on, read from consecutive array elements. An
element missing for a required field is a length failure; for a field with a default, the
default stays. -/
def readPositional (spec : RecordSpec m β α) (count : Nat) : List Nat → β → m β
  | [], d => pure d
  | i :: rest, d => do
    match ← Reader.nextElement (spec.read i d) with
    | some d' => readPositional spec count rest d'
    | none =>
      if spec.required i then
        fail (.invalidLength i (spec.name ++ " with " ++ toString count ++ " elements"))
      else readPositional spec count rest d

/-- A record: from an object, each member is matched to a field by name (a field named twice is
a failure, an unknown member is skipped); from an array, fields are read by position. -/
def record (spec : RecordSpec m β α) : m α :=
  Reader.container spec.name true true fun
    | .seq => do
      let n := spec.fields.length
      let d ← readPositional spec n (List.range n) spec.init
      match spec.finish d with
      | .ok a => pure a
      | .error p => fail p
    | .map => do
      let d ← Reader.members (fun key d =>
        match spec.fields.idxOf? key with
        | some i =>
          if spec.isSet i d then fail (.duplicateField key)
          else Reader.memberValue (spec.read i d)
        | none => do
          Reader.memberValue (Reader.skip (m := m))
          pure d) spec.init
      match spec.finish d with
      | .ok a => pure a
      | .error p => fail p

end Decoders

end Lowering.Json
