import Lowering.Json.Reader

/-! # Reading typed data from a value

The `Reader` over a value already read. Failures have no place, object members come in key
order (a value holds each key once), and:

* an array read as a record may not have elements left over ("fewer elements in array");
* a unit variant is a string or an object with exactly one member, and anything else is a
  type failure that expects "string or map".

`decodeTree` runs a decoder on a value.
-/

namespace Lowering.Json

/-- What a value reader reads next: one value (`none` once it was read), the remaining
elements of an opened array, or the remaining members of an opened object together with the
value of the member whose key was just read. The totals are the container's sizes. -/
inductive Focus where
  | one (v : Option Value)
  | items (rest : List Value) (total : Nat)
  | entries (rest : List (String × Value)) (pending : Option Value) (total : Nat)

/-- Reading a value. -/
abbrev TreeReader := StateT Focus (Except DecodeError)

namespace TreeReader

/-- The failure of a decoder that reads where nothing is to be read. -/
def misplaced : Problem := .custom "no value to read here"

/-- Takes the value to be read. -/
def take : TreeReader Value := do
  match ← get with
  | .one (some v) => set (Focus.one none); pure v
  | _ => throw (DecodeError.bare misplaced)

/-- Fails with a problem. -/
def failWith (p : Problem) : TreeReader α := throw (DecodeError.bare p)

/-- The result of a check. -/
def check (r : Except Problem α) : TreeReader α :=
  match r with
  | .ok a => pure a
  | .error p => failWith p

def stringWith (exp : String) (chk : String → Except Problem α) : TreeReader α := do
  match ← take with
  | .str s => check (chk s)
  | v => failWith (.invalidType v.unexpected exp)

def bool (exp : String) : TreeReader Bool := do
  match ← take with
  | .bool b => pure b
  | v => failWith (.invalidType v.unexpected exp)

def number (exp : String) (chk : Number → Except Problem α) : TreeReader α := do
  match ← take with
  | .num n => check (chk n)
  | v => failWith (.invalidType v.unexpected exp)

def option (read : TreeReader α) : TreeReader (Option α) := do
  match ← get with
  | .one (some .null) => set (Focus.one none); pure none
  | _ => some <$> read

def container (exp : String) (seq map : Bool) (body : Shape → TreeReader α) : TreeReader α := do
  match ← take with
  | .arr xs =>
    if seq then
      set (Focus.items xs xs.length)
      let a ← body .seq
      match ← get with
      | .items [] _ => set (Focus.one none); pure a
      | .items _ total => failWith (.invalidLength total "fewer elements in array")
      | _ => failWith misplaced
    else failWith (.invalidType .seq exp)
  | .obj fs =>
    if map then
      set (Focus.entries fs none fs.length)
      let a ← body .map
      match ← get with
      | .entries [] _ _ => set (Focus.one none); pure a
      | .entries _ _ total => failWith (.invalidLength total "fewer elements in map")
      | _ => failWith misplaced
    else failWith (.invalidType .map exp)
  | v => failWith (.invalidType v.unexpected exp)

def nextElement (read : TreeReader α) : TreeReader (Option α) := do
  match ← get with
  | .items (x :: rest) total =>
    set (Focus.one (some x))
    let a ← read
    set (Focus.items rest total)
    pure (some a)
  | .items [] _ => pure none
  | _ => failWith misplaced

/-- Reads each of `xs` in turn. -/
def each (read : TreeReader α) (total : Nat) : List Value → TreeReader (List α)
  | [] => do set (Focus.items [] total); pure []
  | x :: rest => do
    set (Focus.one (some x))
    let a ← read
    let as ← each read total rest
    pure (a :: as)

def elements (read : TreeReader α) : TreeReader (List α) := do
  match ← get with
  | .items xs total => each read total xs
  | _ => failWith misplaced

/-- Folds `step` over the members `fs`. -/
def fold (step : String → β → TreeReader β) (total : Nat) : List (String × Value) → β → TreeReader β
  | [], acc => do set (Focus.entries [] none total); pure acc
  | (k, v) :: rest, acc => do
    set (Focus.entries rest (some v) total)
    let acc ← step k acc
    fold step total rest acc

def members (step : String → β → TreeReader β) (init : β) : TreeReader β := do
  match ← get with
  | .entries fs _ total => fold step total fs init
  | _ => failWith misplaced

def memberValue (read : TreeReader α) : TreeReader α := do
  match ← get with
  | .entries rest (some v) total =>
    set (Focus.one (some v))
    let a ← read
    set (Focus.entries rest none total)
    pure a
  | _ => failWith misplaced

def variant (chk : String → Except Problem α) : TreeReader α := do
  match ← take with
  | .str s => check (chk s)
  | .obj [(k, v)] => do
    let a ← check (chk k)
    match v with
    | .null => pure a
    | v => failWith (.invalidType v.unexpected "unit")
  | .obj _ => failWith (.invalidValue .map "map with a single key")
  | v => failWith (.invalidType v.unexpected "string or map")

def any : TreeReader Value := take

def skip : TreeReader Unit := do
  let _ ← take
  pure ()

end TreeReader

instance : Reader TreeReader where
  stringWith := TreeReader.stringWith
  bool := TreeReader.bool
  number := TreeReader.number
  option := TreeReader.option
  container := TreeReader.container
  nextElement := TreeReader.nextElement
  elements := TreeReader.elements
  members := TreeReader.members
  memberValue := TreeReader.memberValue
  variant := TreeReader.variant
  any := TreeReader.any
  skip := TreeReader.skip

/-- Runs a decoder on a value. -/
def decodeTree (read : TreeReader α) (v : Value) : Except DecodeError α :=
  (read.run (Focus.one (some v))).map (·.1)

end Lowering.Json
