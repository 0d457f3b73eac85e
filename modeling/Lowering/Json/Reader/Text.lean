import Lowering.Json.Reader
import Lowering.Json.Scan

/-! # Reading typed data from JSON text

The `Reader` over JSON text reads as it goes, so a decoder sees the first problem in the order
of the text, and every failure carries the line and column where it was noticed:

* a failure of a primitive (wrong type, a value out of range, an unknown variant) is placed just
  after the value, which was consumed;
* a failure without a place (a missing field, a conversion after reading) gets the place where
  the innermost enclosing container was closed, after its closing bracket when there is one;
* containers nest at most 127 deep.

`decodeText` runs a decoder on a whole text; only blanks may follow the value.
-/

namespace Lowering.Json

open Lowering.Json.Scan

/-- Where a text reader stands: the text, the index of the next byte, how many more containers
may be opened, and whether the innermost open container has had no element yet. -/
structure Cursor where
  bytes : ByteArray
  pos : Nat
  depth : Nat
  first : Bool

/-- Reading JSON text; the cursor survives a failure, since the place of a failure depends on
how far reading went. -/
abbrev TextReader := ExceptT DecodeError (StateM Cursor)

namespace TextReader

/-- Fails with a syntax fault. -/
def fault (f : Fault) : TextReader α := do
  throw ⟨f.problem, some (position (← get).bytes f.index)⟩

/-- Gives a failure without a place the place where the reader stands. -/
def place (e : DecodeError) : TextReader DecodeError := do
  match e.pos with
  | some _ => pure e
  | none =>
    let c ← get
    pure ⟨e.problem, some (position c.bytes c.pos)⟩

/-- Runs `act`; a failure without a place gets the place where the reader then stands. -/
def placed (act : TextReader α) : TextReader α :=
  tryCatch act fun e => do throw (← place e)

/-- Runs a scan from the current index and moves past what it read. -/
def scan (f : ByteArray → Nat → Except Fault (α × Nat)) : TextReader α := do
  let c ← get
  match f c.bytes c.pos with
  | .ok (a, i) => set { c with pos := i }; pure a
  | .error x => fault x

/-- Skips blanks and gives the next byte, if any. -/
def peek : TextReader (Option UInt8) := do
  let c ← get
  let j := blank c.bytes c.pos
  set { c with pos := j }
  pure (byte? c.bytes j)

/-- Fails at the next byte, which was looked at and not consumed. -/
def faultAhead (p : Problem) : TextReader α := do
  let c ← get
  fault (Fault.ahead c.bytes p c.pos)

/-- The failure for a value of the wrong kind at the current (blank-free) index. A scalar is
consumed to name it; an array or object is named by its bracket. -/
def wrongKind (exp : String) : TextReader α := do
  let c ← get
  let b := c.bytes
  let j := c.pos
  match byte? b j with
  | none => faultAhead .expectedValue
  | some x =>
    let found : TextReader Unexpected :=
      if x == '['.toUInt8 then pure .seq
      else if x == '{'.toUInt8 then pure .map
      else
        match scalar b j with
        | some r => do
          let v ← scan fun _ _ => r
          match v with
          | .num n => pure n.unexpected
          | v => pure v.unexpected
        | none => faultAhead .expectedValue
    let u ← found
    throw (← place (DecodeError.bare (.invalidType u exp)))

/-- Applies a check to what was read; its failure is placed where the reader stands. -/
def check (r : Except Problem α) : TextReader α :=
  match r with
  | .ok a => pure a
  | .error p => do throw (← place (DecodeError.bare p))

/-- A string passed through `chk`. -/
def stringWith (exp : String) (chk : String → Except Problem α) : TextReader α := placed do
  match ← peek with
  | none => faultAhead .eofInValue
  | some x =>
    if x == '"'.toUInt8 then
      let s ← scan fun b i => Scan.string b (i + 1)
      check (chk s)
    else wrongKind exp

/-- A boolean. -/
def bool (exp : String) : TextReader Bool := placed do
  match ← peek with
  | none => faultAhead .eofInValue
  | some x =>
    if x == 't'.toUInt8 then
      scan fun b i => (ident b (i + 1) "rue".toList).map fun k => (true, k)
    else if x == 'f'.toUInt8 then
      scan fun b i => (ident b (i + 1) "alse".toList).map fun k => (false, k)
    else wrongKind exp

/-- A number passed through `chk`. -/
def number (exp : String) (chk : Number → Except Problem α) : TextReader α := placed do
  match ← peek with
  | none => faultAhead .eofInValue
  | some x =>
    if x == '-'.toUInt8 then
      let n ← scan fun b i => Scan.number b false (i + 1)
      check (chk n)
    else if isDigit x then
      let n ← scan fun b i => Scan.number b true i
      check (chk n)
    else wrongKind exp

/-- `none` for null, otherwise what `read` reads. -/
def option (read : TextReader α) : TextReader (Option α) := do
  match ← peek with
  | some x =>
    if x == 'n'.toUInt8 then
      scan fun b i => (ident b (i + 1) "ull".toList).map fun k => (none, k)
    else some <$> read
  | none => some <$> read

/-- Opens a container at the current index (its bracket already looked at), runs `body`,
closes it, and places a failure without a place where the container was closed. -/
def enter (shape : Shape) (body : Shape → TextReader α) : TextReader α := do
  let c ← get
  if c.depth ≤ 1 then faultAhead .recursionLimit
  else
    set { c with pos := c.pos + 1, depth := c.depth - 1, first := true }
    let r ← tryCatch (Except.ok <$> body shape) (fun e => pure (Except.error e))
    let c' ← get
    let (k, closing) :=
      if shape = .seq then seqEnd c'.bytes c'.pos else mapEnd c'.bytes c'.pos
    set { c' with pos := k, depth := c.depth, first := c.first }
    match r, closing with
    | .ok a, none => pure a
    | .error e, _ => throw (← place e)
    | .ok _, some f => fault f

/-- An array or an object, as allowed. -/
def container (exp : String) (seq map : Bool) (body : Shape → TextReader α) : TextReader α := do
  match ← peek with
  | none => faultAhead .eofInValue
  | some x =>
    if x == '['.toUInt8 ∧ seq then enter .seq body
    else if x == '{'.toUInt8 ∧ map then enter .map body
    else placed (wrongKind exp)

/-- The next element of the open array. -/
def nextElement (read : TextReader α) : TextReader (Option α) := do
  let c ← get
  match elementStart c.bytes c.pos c.first with
  | .error f => fault f
  | .ok none => set { c with pos := blank c.bytes c.pos }; pure none
  | .ok (some j) =>
    set { c with pos := j, first := false }
    some <$> read

/-- At most `fuel` further elements of the open array. -/
def elementsFor (read : TextReader α) : Nat → List α → TextReader (List α)
  | 0, acc => pure acc.reverse
  | fuel + 1, acc => do
    match ← nextElement read with
    | none => pure acc.reverse
    | some a => elementsFor read fuel (a :: acc)

/-- All remaining elements of the open array; each takes at least one byte. -/
def elements (read : TextReader α) : TextReader (List α) := do
  let c ← get
  elementsFor read (c.bytes.size - c.pos + 1) []

/-- At most `fuel` further members of the open object, folded with `step`. -/
def membersFor (step : String → β → TextReader β) : Nat → β → TextReader β
  | 0, acc => pure acc
  | fuel + 1, acc => do
    let c ← get
    match keyStart c.bytes c.pos c.first with
    | .error f => fault f
    | .ok none => set { c with pos := blank c.bytes c.pos }; pure acc
    | .ok (some q) =>
      set { c with pos := q, first := false }
      let key ← scan fun b i => Scan.string b (i + 1)
      let acc ← step key acc
      membersFor step fuel acc

/-- All remaining members of the open object. -/
def members (step : String → β → TextReader β) (init : β) : TextReader β := do
  let c ← get
  membersFor step (c.bytes.size - c.pos + 1) init

/-- The value after the key just read: a colon, then what `read` reads. -/
def memberValue (read : TextReader α) : TextReader α := do
  scan fun b i => (colon b i).map fun k => ((), k)
  read

/-- A unit variant: a string, or an object whose one member has a null value. In the object
form a key that does not start with a quote is refused as a key, before it is read, and an end
of text after the opening brace is the end of an unfinished object. -/
def variant (chk : String → Except Problem α) : TextReader α := do
  match ← peek with
  | none => faultAhead .eofInValue
  | some x =>
    if x == '"'.toUInt8 then stringWith "variant identifier" chk
    else if x == '{'.toUInt8 then
      let c ← get
      if c.depth ≤ 1 then faultAhead .recursionLimit
      else
        set { c with pos := c.pos + 1, depth := c.depth - 1 }
        let r ← tryCatch (Except.ok <$> (do
            match ← peek with
            | none => faultAhead .eofInObject
            | some y => if y != '"'.toUInt8 && y != '}'.toUInt8 then faultAhead .keyMustBeString
            let a ← stringWith "variant identifier" chk
            scan fun b i => (colon b i).map fun k => ((), k)
            placed do
              match ← peek with
              | none => faultAhead .eofInValue
              | some y =>
                if y == 'n'.toUInt8 then
                  scan fun b i => (ident b (i + 1) "ull".toList).map fun k => ((), k)
                else wrongKind "unit"
            pure a)) (fun e => pure (Except.error e))
        modify fun c' => { c' with depth := c.depth }
        match r with
        | .error e => throw e
        | .ok a =>
          match ← peek with
          | none => do fault ⟨.eofInObject, (← get).pos⟩
          | some y =>
            if y == '}'.toUInt8 then modify (fun c' => { c' with pos := c'.pos + 1 }); pure a
            else do fault ⟨.expectedValue, (← get).pos⟩
    else faultAhead .expectedValue

/-- A whole value, within the remaining nesting allowance. -/
def any : TextReader Value := do
  let c ← get
  scan fun b i => Scan.value b c.depth (fuelFrom b i) i

/-- A value checked for syntax only. -/
def skip : TextReader Unit := do
  scan fun b i => (skipValue b (fuelFrom b i) i).map fun k => ((), k)

end TextReader

instance : Reader TextReader where
  stringWith := TextReader.stringWith
  bool := TextReader.bool
  number := TextReader.number
  option := TextReader.option
  container := TextReader.container
  nextElement := TextReader.nextElement
  elements := TextReader.elements
  members := TextReader.members
  memberValue := TextReader.memberValue
  variant := TextReader.variant
  any := TextReader.any
  skip := TextReader.skip

/-- Runs a decoder on a whole text: the value, then nothing but blanks. -/
def decodeText (read : TextReader α) (text : String) : Except DecodeError α :=
  let b := text.toUTF8
  match (read.run).run ⟨b, 0, 128, true⟩ with
  | (.error e, _) => .error e
  | (.ok a, c) =>
    let j := blank b c.pos
    if j < b.size then .error ⟨.trailingCharacters, some (position b (min (j + 1) b.size))⟩
    else .ok a

end Lowering.Json
