/-! # Edges and declared outputs of a source graph

An operation names its inputs by text, and a source graph declares its outputs by text:

* `Edge` — `producer`, `producer:output`, `producer:group:index`, or `^producer` for an
  ordering-only (control) edge; `Edge.parse?` reads it, `Edge.render` writes it;
* `Sink` — `op` (all its outputs), `op:output` (one output) or `slot:op` (whatever feeds that
  input slot of `op`); `Sink.parse?` reads it, `Sink.render` writes it;
* `readCount?` — a count as such texts write it: an optional `+`, then ASCII digits, below
  `2^64`; leading zeros are allowed.
-/

namespace Lowering.Source

/-- Whether every character is an ASCII digit. -/
def allDigits (s : String) : Bool := s.toList.all Char.isDigit

/-- The colon-separated fields of a text: the pieces between its colons, empty ones included. -/
def fields (s : String) : List String := (s.toList.splitOn ':').map String.ofList

/-- The value of a string of ASCII digits. -/
def digitsValue (cs : List Char) : Nat := cs.foldl (fun acc c => acc * 10 + (c.toNat - 48)) 0

/-- A count: an optional `+`, at least one ASCII digit, and a value below `2^64`. -/
def readCount? (s : String) : Option Nat :=
  let cs := match s.toList with
    | '+' :: rest => rest
    | cs => cs
  if cs.isEmpty || !cs.all Char.isDigit then none
  else
    let n := digitsValue cs
    if n < Nat.pow 2 64 then some n else none

/-- An input edge of an operation: output `index` of `producer` (within output `group` when
one is named), or, for a control edge, only an ordering on `producer`. -/
structure Edge where
  producer : String
  group : Option String := none
  index : Nat := 0
  control : Bool := false
  deriving DecidableEq, Repr, Inhabited

namespace Edge

/-- Reads an edge. A control edge is `^` and a non-empty producer (which may hold colons);
otherwise the text splits at every colon into a non-empty producer, an optional non-empty group
and an optional count. -/
def parse? (s : String) : Option Edge :=
  match s.toList with
  | '^' :: rest =>
    if rest.isEmpty then none else some ⟨String.ofList rest, none, 0, true⟩
  | _ =>
    match fields s with
    | [p] => if p.isEmpty then none else some ⟨p, none, 0, false⟩
    | [p, i] =>
      match readCount? i with
      | some n => if p.isEmpty then none else some ⟨p, none, n, false⟩
      | none => none
    | [p, g, i] =>
      if g.isEmpty then none
      else
        match readCount? i with
        | some n => if p.isEmpty then none else some ⟨p, some g, n, false⟩
        | none => none
    | _ => none

/-- Writes an edge: `^producer`, `producer:index` or `producer:group:index`. -/
def render (e : Edge) : String :=
  if e.control then "^" ++ e.producer
  else
    match e.group with
    | some g => e.producer ++ ":" ++ g ++ ":" ++ toString e.index
    | none => e.producer ++ ":" ++ toString e.index

end Edge

/-- Which outputs of an operation a declared output stands for. -/
inductive SinkMode where
  /-- All outputs of the operation. -/
  | all
  /-- One output of the operation, by index. -/
  | output (p : Nat)
  /-- The value that feeds an input slot of the operation. -/
  | feed (slot : Nat)
  deriving DecidableEq, Repr

/-- A declared output of a source graph. -/
structure Sink where
  name : String
  mode : SinkMode
  deriving DecidableEq, Repr

namespace Sink

/-- Reads a declared output, split at its first colon: no colon is all outputs of the operation;
a left part of ASCII digits is an input slot of the operation named on the right; otherwise the
right part is an output index of the operation named on the left. The name must be non-empty and
colon-free. -/
def parse? (s : String) : Option Sink :=
  let sink : Option Sink :=
    match fields s with
    | [] | [_] => some ⟨s, .all⟩
    | left :: rest =>
      let right := ":".intercalate rest
      if !left.isEmpty && allDigits left then
        (readCount? left).map fun n => ⟨right, .feed n⟩
      else (readCount? right).map fun n => ⟨left, .output n⟩
  match sink with
  | some k => if k.name.isEmpty || k.name.contains ':' then none else some k
  | none => none

/-- Writes a declared output: `name`, `name:output` or `slot:name`. -/
def render (k : Sink) : String :=
  match k.mode with
  | .all => k.name
  | .output p => k.name ++ ":" ++ toString p
  | .feed i => toString i ++ ":" ++ k.name

end Sink

end Lowering.Source
