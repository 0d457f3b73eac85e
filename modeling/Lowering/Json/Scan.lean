import Lowering.Json.Error

/-! # Scanning JSON text

The lexical layer of reading JSON text, as pure functions from a byte index to the index after
what they read:

* `blank`, `ident`, `number`, `string`, `skipString` — leaves;
* `elementStart`, `keyStart`, `colon`, `seqEnd`, `mapEnd` — the separators around the elements
  of an array and the members of an object;
* `value` — a whole value, nested at most `depth` containers deep;
* `skipValue` — a whole value checked for syntax only, numbers not evaluated, at any depth.

A failure is a `Fault`: its cause and the byte index whose line and column a message gives.
Some failures are noticed on a byte before it is consumed; they point just past that byte
(`Fault.ahead`).
-/

namespace Lowering.Json.Scan

/-- A syntax failure at a byte index. -/
structure Fault where
  problem : Problem
  index : Nat
  deriving Repr

/-- A failure noticed on the byte at `i` before it is consumed: it points past that byte. -/
def Fault.ahead (b : ByteArray) (p : Problem) (i : Nat) : Fault :=
  ⟨p, min (i + 1) b.size⟩

/-- Line and column of a byte index: lines count from 1, the column counts the bytes between
the last line break before the index and the index. -/
def position (b : ByteArray) (i : Nat) : TextPos :=
  let (line, start) := (List.range (min i b.size)).foldl
    (fun (line, start) k => if b.get! k == 10 then (line + 1, k + 1) else (line, start)) (1, 0)
  ⟨line, i - start⟩

/-- The byte at `i`, if there is one. -/
def byte? (b : ByteArray) (i : Nat) : Option UInt8 :=
  if h : i < b.size then some b[i] else none

/-- Whether the byte at `i` is `c`. -/
def isAt (b : ByteArray) (i : Nat) (c : Char) : Bool :=
  byte? b i == some c.toUInt8

/-- An ASCII digit. -/
def isDigit (c : UInt8) : Bool := 48 ≤ c && c ≤ 57

/-- Whether the byte at `i` is a digit. -/
def digitAt (b : ByteArray) (i : Nat) : Bool :=
  match byte? b i with
  | some c => isDigit c
  | none => false

/-- The index of the first byte at or after `i` that is no blank (space, tab, line feed,
carriage return). -/
def blank (b : ByteArray) (i : Nat) : Nat :=
  if h : i < b.size then
    let c := b[i]
    if c == 32 || c == 9 || c == 10 || c == 13 then blank b (i + 1) else i
  else i
termination_by b.size - i

/-- Reads the bytes of `rest` from `i` on (the rest of `null`, `true` or `false`). -/
def ident (b : ByteArray) (i : Nat) : List Char → Except Fault Nat
  | [] => .ok i
  | c :: cs =>
    match byte? b i with
    | none => .error ⟨.eofInValue, i⟩
    | some x => if x == c.toUInt8 then ident b (i + 1) cs else .error ⟨.expectedIdent, i + 1⟩

/-! ## Numbers -/

/-- The index after the digits that start at `i`. -/
def skipDigits (b : ByteArray) (i : Nat) : Nat :=
  if h : i < b.size then
    if isDigit b[i] then skipDigits b (i + 1) else i
  else i
termination_by b.size - i

/-- Appends the digits from `i` on to `acc` while the result stays at most `2^64 - 1`; stops at
the first byte that is no digit or whose digit would overflow. Gives the value, the number of
digits taken and the index where it stopped. -/
def accumulate (b : ByteArray) (i acc taken : Nat) : Nat × Nat × Nat :=
  if h : i < b.size then
    let c := b[i]
    if isDigit c ∧ acc * 10 + (c.toNat - 48) < Nat.pow 2 64 then
      accumulate b (i + 1) (acc * 10 + (c.toNat - 48)) (taken + 1)
    else (acc, taken, i)
  else (acc, taken, i)
termination_by b.size - i

/-- An exponent clamped to the 32-bit signed range, as the reader keeps it. -/
def clampExp (e : Int) : Int := max (-Int.pow 2 31) (min (Int.pow 2 31 - 1) e)

/-- The float for `±significand * 10^exp`, or number-out-of-range at `i`. -/
def floatAt (positive : Bool) (significand : Nat) (exp : Int) (i : Nat) :
    Except Fault (Number × Nat) :=
  match fromParts positive significand exp with
  | some f => .ok (.float f, i)
  | none => .error ⟨.numberOutOfRange, i⟩

/-- Exponent digits from `i` on, appended to `acc`: stops before the first byte that is no
digit, or just after the first digit that would take the exponent past `2^31 - 1` (then the
flag is set). -/
def exponentDigits (b : ByteArray) (i acc : Nat) : Nat × Nat × Bool :=
  if h : i < b.size then
    let c := b[i]
    if isDigit c then
      let next := acc * 10 + (c.toNat - 48)
      if next > Nat.pow 2 31 - 1 then (acc, i + 1, true) else exponentDigits b (i + 1) next
    else (acc, i, false)
  else (acc, i, false)
termination_by b.size - i

/-- The exponent part from the `e` at `i`: an optional sign and at least one digit. An exponent
past the 32-bit range gives zero, or for a positive exponent of a nonzero significand, an
out-of-range failure. -/
def exponent (b : ByteArray) (positive : Bool) (significand : Nat) (start : Int) (i : Nat) :
    Except Fault (Number × Nat) :=
  let j := i + 1
  let (up, j) :=
    if isAt b j '+' then (true, j + 1) else if isAt b j '-' then (false, j + 1) else (true, j)
  match byte? b j with
  | none => .error ⟨.eofInValue, j⟩
  | some c =>
    if !isDigit c then .error ⟨.invalidNumber, j + 1⟩
    else
      match exponentDigits b (j + 1) (c.toNat - 48) with
      | (_, k, true) =>
        if significand ≠ 0 ∧ up then .error ⟨.numberOutOfRange, k⟩
        else .ok (.float (if positive then 0.0 else -0.0), skipDigits b k)
      | (e, k, false) =>
        let e : Int := if up then clampExp (start + e) else clampExp (start - e)
        floatAt positive significand e k

/-- After a significand that no longer fits 64 bits: the remaining digits only raise the
exponent. -/
def skipFraction (b : ByteArray) (positive : Bool) (significand : Nat) (exp : Int) (i : Nat) :
    Except Fault (Number × Nat) :=
  let j := skipDigits b i
  if isAt b j 'e' ∨ isAt b j 'E' then exponent b positive significand exp j
  else floatAt positive significand exp j

/-- The fraction from the `.` at `i`: at least one digit, then an optional exponent. -/
def fraction (b : ByteArray) (positive : Bool) (significand : Nat) (before : Int) (i : Nat) :
    Except Fault (Number × Nat) :=
  let (sig, taken, j) := accumulate b (i + 1) significand 0
  if digitAt b j then skipFraction b positive sig (before - taken) j
  else if taken = 0 then
    match byte? b j with
    | some _ => .error (Fault.ahead b .invalidNumber j)
    | none => .error (Fault.ahead b .eofInValue j)
  else if isAt b j 'e' ∨ isAt b j 'E' then exponent b positive sig (before - taken) j
  else floatAt positive sig (before - taken) j

/-- What follows the integer digits of a number that fitted 64 bits. A negative integer is kept
as an integer when it is at least `-2^63`; `-0` and anything below is a float. -/
def integerTail (b : ByteArray) (positive : Bool) (significand : Nat) (i : Nat) :
    Except Fault (Number × Nat) :=
  if isAt b i '.' then fraction b positive significand 0 i
  else if isAt b i 'e' ∨ isAt b i 'E' then exponent b positive significand 0 i
  else if positive then .ok (.nat significand, i)
  else if 0 < significand ∧ significand ≤ Nat.pow 2 63 then .ok (.neg (-(significand : Int)), i)
  else .ok (.float (-(Float.ofNat significand)), i)

/-- A number without its sign, from its first digit at `i`. -/
def number (b : ByteArray) (positive : Bool) (i : Nat) : Except Fault (Number × Nat) :=
  match byte? b i with
  | none => .error ⟨.eofInValue, i⟩
  | some c =>
    if c == '0'.toUInt8 then
      if digitAt b (i + 1) then .error (Fault.ahead b .invalidNumber (i + 1))
      else integerTail b positive 0 (i + 1)
    else if isDigit c then
      let (sig, _, j) := accumulate b (i + 1) (c.toNat - 48) 0
      if digitAt b j then
        -- too long for 64 bits: the remaining integer digits count as powers of ten
        let k := skipDigits b j
        let e : Int := k - j
        if isAt b k '.' then fraction b positive sig e k
        else if isAt b k 'e' ∨ isAt b k 'E' then exponent b positive sig e k
        else floatAt positive sig e k
      else integerTail b positive sig j
    else .error ⟨.invalidNumber, i + 1⟩

/-- A number checked for syntax only, from its first digit at `i`. -/
def skipNumber (b : ByteArray) (i : Nat) : Except Fault Nat :=
  let afterInt : Except Fault Nat :=
    match byte? b i with
    | some c =>
      if c == '0'.toUInt8 then
        if digitAt b (i + 1) then .error (Fault.ahead b .invalidNumber (i + 1)) else .ok (i + 1)
      else if isDigit c then .ok (skipDigits b (i + 1))
      else .error ⟨.invalidNumber, i + 1⟩
    | none => .error ⟨.invalidNumber, i⟩
  let skipExp (j : Nat) : Except Fault Nat :=
    let k := if isAt b (j + 1) '+' ∨ isAt b (j + 1) '-' then j + 2 else j + 1
    if digitAt b k then .ok (skipDigits b k)
    else .error ⟨.invalidNumber, min (k + 1) b.size⟩
  match afterInt with
  | .error f => .error f
  | .ok j =>
    if isAt b j '.' then
      let k := skipDigits b (j + 1)
      if k = j + 1 then .error (Fault.ahead b .invalidNumber k)
      else if isAt b k 'e' ∨ isAt b k 'E' then skipExp k else .ok k
    else if isAt b j 'e' ∨ isAt b j 'E' then skipExp j
    else .ok j

/-! ## Strings -/

/-- The value of a hex digit. -/
def hexValue (c : UInt8) : Option Nat :=
  if 48 ≤ c ∧ c ≤ 57 then some (c.toNat - 48)
  else if 97 ≤ c ∧ c ≤ 102 then some (c.toNat - 87)
  else if 65 ≤ c ∧ c ≤ 70 then some (c.toNat - 55)
  else none

/-- Four hex digits from `i`. Fewer than four bytes left is the end of the text inside a
string; a byte that is no hex digit is an invalid escape. -/
def hex4 (b : ByteArray) (i : Nat) : Except Fault (Nat × Nat) :=
  if i + 4 > b.size then .error ⟨.eofInString, b.size⟩
  else
    let digits := [i, i + 1, i + 2, i + 3].map fun k => hexValue (b.get! k)
    match digits with
    | [some d0, some d1, some d2, some d3] => .ok (((d0 * 16 + d1) * 16 + d2) * 16 + d3, i + 4)
    | _ => .error ⟨.invalidEscape, i + 4⟩

/-- UTF-8 bytes of a code point. -/
def utf8 (n : Nat) : ByteArray := (String.singleton (Char.ofNat n)).toUTF8

/-- A `\u` escape whose four hex digits start at `i`. A code point of the surrogate range must
come as a leading surrogate directly followed by a `\u` escape of a trailing one. -/
def unicodeEscape (b : ByteArray) (i : Nat) : Except Fault (ByteArray × Nat) := do
  let (n, j) ← hex4 b i
  if 0xDC00 ≤ n ∧ n ≤ 0xDFFF then throw ⟨.loneLeadingSurrogate, j⟩
  if n < 0xD800 ∨ n > 0xDBFF then return (utf8 n, j)
  if j ≥ b.size then throw ⟨.eofInString, j⟩
  if !isAt b j '\\' then throw ⟨.unexpectedEndOfHexEscape, j + 1⟩
  if j + 1 ≥ b.size then throw ⟨.eofInString, j + 1⟩
  if !isAt b (j + 1) 'u' then throw ⟨.unexpectedEndOfHexEscape, j + 2⟩
  let (n2, k) ← hex4 b (j + 2)
  if n2 < 0xDC00 ∨ n2 > 0xDFFF then throw ⟨.loneLeadingSurrogate, k⟩
  return (utf8 ((n - 0xD800) * 1024 + (n2 - 0xDC00) + 0x10000), k)

/-- The escape after the backslash at `i - 1`, its first byte at `i`. -/
def escape (b : ByteArray) (i : Nat) : Except Fault (ByteArray × Nat) :=
  match byte? b i with
  | none => .error ⟨.eofInString, i⟩
  | some c =>
    let one (x : Nat) : Except Fault (ByteArray × Nat) := .ok (ByteArray.empty.push x.toUInt8, i + 1)
    if c == '"'.toUInt8 then one 34
    else if c == '\\'.toUInt8 then one 92
    else if c == '/'.toUInt8 then one 47
    else if c == 'b'.toUInt8 then one 8
    else if c == 'f'.toUInt8 then one 12
    else if c == 'n'.toUInt8 then one 10
    else if c == 'r'.toUInt8 then one 13
    else if c == 't'.toUInt8 then one 9
    else if c == 'u'.toUInt8 then unicodeEscape b (i + 1)
    else .error ⟨.invalidEscape, i + 1⟩

/-- The bytes of a string whose opening quote was before `i`, up to and without the closing
quote; also the index after that quote. A control character is refused. -/
def stringBytes (b : ByteArray) (i : Nat) (acc : ByteArray) : Except Fault (ByteArray × Nat) :=
  if h : i < b.size then
    let c := b[i]
    if c == '"'.toUInt8 then .ok (acc, i + 1)
    else if c == '\\'.toUInt8 then
      match escape b (i + 1) with
      | .error f => .error f
      | .ok (bytes, j) =>
        if j ≤ i then .error ⟨.invalidEscape, j⟩
        else stringBytes b j (acc ++ bytes)
    else if c < 32 then .error ⟨.controlCharInString, i + 1⟩
    else stringBytes b (i + 1) (acc.push c)
  else .error ⟨.eofInString, b.size⟩
termination_by b.size - i

/-- A string whose opening quote was before `i`. -/
def string (b : ByteArray) (i : Nat) : Except Fault (String × Nat) :=
  match stringBytes b i ByteArray.empty with
  | .error f => .error f
  | .ok (bytes, j) =>
    match String.fromUTF8? bytes with
    | some s => .ok (s, j)
    | none => .error ⟨.invalidEscape, j⟩

/-- The escape after a backslash, checked only. -/
def skipEscape (b : ByteArray) (i : Nat) : Except Fault Nat :=
  match byte? b i with
  | none => .error ⟨.eofInString, i⟩
  | some c =>
    if "\"\\/bfnrt".toList.any (·.toUInt8 == c) then .ok (i + 1)
    else if c == 'u'.toUInt8 then (hex4 b (i + 1)).map (·.2)
    else .error ⟨.invalidEscape, i + 1⟩

/-- A string whose opening quote was before `i`, checked only: its escapes are not decoded, and
a control character points at itself. -/
def skipString (b : ByteArray) (i : Nat) : Except Fault Nat :=
  if h : i < b.size then
    let c := b[i]
    if c == '"'.toUInt8 then .ok (i + 1)
    else if c == '\\'.toUInt8 then
      match skipEscape b (i + 1) with
      | .error f => .error f
      | .ok j => if j ≤ i then .error ⟨.invalidEscape, j⟩ else skipString b j
    else if c < 32 then .error ⟨.controlCharInString, i⟩
    else skipString b (i + 1)
  else .error ⟨.eofInString, b.size⟩
termination_by b.size - i

/-! ## Separators -/

/-- Before the next element of an opened array (`first` when none was read yet): `none` at the
closing bracket, which stays unread, else the index where the element starts. -/
def elementStart (b : ByteArray) (i : Nat) (first : Bool) : Except Fault (Option Nat) :=
  let j := blank b i
  match byte? b j with
  | none => .error (Fault.ahead b .eofInList j)
  | some c =>
    if c == ']'.toUInt8 then .ok none
    else if c == ','.toUInt8 ∧ !first then
      let k := blank b (j + 1)
      match byte? b k with
      | none => .error (Fault.ahead b .eofInValue k)
      | some d => if d == ']'.toUInt8 then .error (Fault.ahead b .trailingComma k) else .ok (some k)
    else if first then .ok (some j)
    else .error (Fault.ahead b .expectedListCommaOrEnd j)

/-- Before the next member of an opened object: `none` at the closing brace, which stays
unread, else the index of the key's opening quote. -/
def keyStart (b : ByteArray) (i : Nat) (first : Bool) : Except Fault (Option Nat) :=
  let j := blank b i
  let key (k : Nat) : Except Fault (Option Nat) :=
    match byte? b k with
    | none => .error (Fault.ahead b .eofInValue k)
    | some d =>
      if d == '"'.toUInt8 then .ok (some k)
      else if d == '}'.toUInt8 then .error (Fault.ahead b .trailingComma k)
      else .error (Fault.ahead b .keyMustBeString k)
  match byte? b j with
  | none => .error (Fault.ahead b .eofInObject j)
  | some c =>
    if c == '}'.toUInt8 then .ok none
    else if c == ','.toUInt8 ∧ !first then key (blank b (j + 1))
    else if first then
      if c == '"'.toUInt8 then .ok (some j) else .error (Fault.ahead b .keyMustBeString j)
    else .error (Fault.ahead b .expectedObjectCommaOrEnd j)

/-- The colon between a key and its value. -/
def colon (b : ByteArray) (i : Nat) : Except Fault Nat :=
  let j := blank b i
  match byte? b j with
  | none => .error (Fault.ahead b .eofInObject j)
  | some c => if c == ':'.toUInt8 then .ok (j + 1) else .error (Fault.ahead b .expectedColon j)

/-- Closing an array after its last wanted element: the index reached and the failure, if the
closing bracket does not follow. A comma is consumed with the blanks after it. -/
def seqEnd (b : ByteArray) (i : Nat) : Nat × Option Fault :=
  let j := blank b i
  match byte? b j with
  | none => (j, some (Fault.ahead b .eofInList j))
  | some c =>
    if c == ']'.toUInt8 then (j + 1, none)
    else if c == ','.toUInt8 then
      let k := blank b (j + 1)
      if isAt b k ']' then (k, some (Fault.ahead b .trailingComma k))
      else (k, some (Fault.ahead b .trailingCharacters k))
    else (j, some (Fault.ahead b .trailingCharacters j))

/-- Closing an object after its last member: the index reached and the failure, if the closing
brace does not follow. -/
def mapEnd (b : ByteArray) (i : Nat) : Nat × Option Fault :=
  let j := blank b i
  match byte? b j with
  | none => (j, some (Fault.ahead b .eofInObject j))
  | some c =>
    if c == '}'.toUInt8 then (j + 1, none)
    else if c == ','.toUInt8 then (j, some (Fault.ahead b .trailingComma j))
    else (j, some (Fault.ahead b .trailingCharacters j))

/-! ## Whole values -/

/-- A scalar (null, a boolean, a number or a string) starting at the blank-free index `j`, or
`none` when the byte there starts no scalar. -/
def scalar (b : ByteArray) (j : Nat) : Option (Except Fault (Value × Nat)) :=
  match byte? b j with
  | none => none
  | some c =>
    if c == 'n'.toUInt8 then some ((ident b (j + 1) "ull".toList).map fun k => (.null, k))
    else if c == 't'.toUInt8 then some ((ident b (j + 1) "rue".toList).map fun k => (.bool true, k))
    else if c == 'f'.toUInt8 then some ((ident b (j + 1) "alse".toList).map fun k => (.bool false, k))
    else if c == '-'.toUInt8 then some ((number b false (j + 1)).map fun (n, k) => (.num n, k))
    else if isDigit c then some ((number b true j).map fun (n, k) => (.num n, k))
    else if c == '"'.toUInt8 then some ((string b (j + 1)).map fun (s, k) => (.str s, k))
    else none

/-- Combines the outcome of reading a container's contents with the outcome of closing it: the
first failure wins. -/
def closeWith (inner : Except Fault (α × Nat)) (close : Nat → Nat × Option Fault) :
    Except Fault (α × Nat) :=
  match inner with
  | .error f => .error f
  | .ok (a, i) =>
    match close i with
    | (j, none) => .ok (a, j)
    | (_, some f) => .error f

mutual

/-- A whole value from `i`, nested at most `depth - 1` containers deep. `fuel` bounds the chain
of nested reads; each read in the chain starts further into the text. -/
def value (b : ByteArray) (depth : Nat) : (fuel : Nat) → (i : Nat) → Except Fault (Value × Nat)
  | 0, i => .error ⟨.eofInValue, i⟩
  | fuel + 1, i =>
    let j := blank b i
    match scalar b j with
    | some r => r
    | none =>
      match byte? b j with
      | none => .error (Fault.ahead b .eofInValue j)
      | some c =>
        if c == '['.toUInt8 ∨ c == '{'.toUInt8 then
          if depth ≤ 1 then .error (Fault.ahead b .recursionLimit j)
          else if c == '['.toUInt8 then
            closeWith (items b (depth - 1) fuel (j + 1) true []) (seqEnd b)
          else closeWith (members b (depth - 1) fuel (j + 1) true []) (mapEnd b)
        else .error (Fault.ahead b .expectedValue j)

/-- The remaining elements of an opened array, read into `acc` (newest first). -/
def items (b : ByteArray) (depth : Nat) : (fuel : Nat) → (i : Nat) → (first : Bool) →
    List Value → Except Fault (Value × Nat)
  | 0, i, _, _ => .error ⟨.eofInList, i⟩
  | fuel + 1, i, first, acc =>
    match elementStart b i first with
    | .error f => .error f
    | .ok none => .ok (.arr acc.reverse, i)
    | .ok (some j) =>
      match value b depth fuel j with
      | .error f => .error f
      | .ok (v, k) => items b depth fuel k false (v :: acc)

/-- The remaining members of an opened object, a later member of a key replacing an earlier. -/
def members (b : ByteArray) (depth : Nat) : (fuel : Nat) → (i : Nat) → (first : Bool) →
    Fields → Except Fault (Value × Nat)
  | 0, i, _, _ => .error ⟨.eofInObject, i⟩
  | fuel + 1, i, first, acc =>
    match keyStart b i first with
    | .error f => .error f
    | .ok none => .ok (.obj acc, i)
    | .ok (some q) =>
      match string b (q + 1) with
      | .error f => .error f
      | .ok (key, k) =>
        match colon b k with
        | .error f => .error f
        | .ok k' =>
          match value b depth fuel k' with
          | .error f => .error f
          | .ok (v, k'') => members b depth fuel k'' false (Fields.insert key v acc)

end

mutual

/-- A whole value from `i`, checked for syntax only, at any depth. -/
def skipValue (b : ByteArray) : (fuel : Nat) → (i : Nat) → Except Fault Nat
  | 0, i => .error ⟨.eofInValue, i⟩
  | fuel + 1, i =>
    let j := blank b i
    match byte? b j with
    | none => .error (Fault.ahead b .eofInValue j)
    | some c =>
      if c == 'n'.toUInt8 then ident b (j + 1) "ull".toList
      else if c == 't'.toUInt8 then ident b (j + 1) "rue".toList
      else if c == 'f'.toUInt8 then ident b (j + 1) "alse".toList
      else if c == '-'.toUInt8 then skipNumber b (j + 1)
      else if isDigit c then skipNumber b j
      else if c == '"'.toUInt8 then skipString b (j + 1)
      else if c == '['.toUInt8 then skipItems b fuel (j + 1) true
      else if c == '{'.toUInt8 then skipMembers b fuel (j + 1) true
      else .error (Fault.ahead b .expectedValue j)

/-- The rest of an array being skipped. After an element only a comma or the closing bracket
may follow; a comma must be followed by another element. -/
def skipItems (b : ByteArray) : (fuel : Nat) → (i : Nat) → (first : Bool) → Except Fault Nat
  | 0, i, _ => .error ⟨.eofInList, i⟩
  | fuel + 1, i, first =>
    let j := blank b i
    match byte? b j with
    | none => .error (Fault.ahead b .eofInList j)
    | some c =>
      if c == ']'.toUInt8 then .ok (j + 1)
      else if first then
        match skipValue b fuel j with
        | .error f => .error f
        | .ok k => skipItems b fuel k false
      else if c == ','.toUInt8 then
        match skipValue b fuel (j + 1) with
        | .error f => .error f
        | .ok k => skipItems b fuel k false
      else .error (Fault.ahead b .expectedListCommaOrEnd j)

/-- The rest of an object being skipped. -/
def skipMembers (b : ByteArray) : (fuel : Nat) → (i : Nat) → (first : Bool) → Except Fault Nat
  | 0, i, _ => .error ⟨.eofInObject, i⟩
  | fuel + 1, i, first =>
    let j := blank b i
    let member (k : Nat) : Except Fault Nat :=
      let q := blank b k
      match byte? b q with
      | none => .error (Fault.ahead b .eofInObject q)
      | some d =>
        if d != '"'.toUInt8 then .error (Fault.ahead b .keyMustBeString q)
        else
          match skipString b (q + 1) with
          | .error f => .error f
          | .ok r =>
            match colon b r with
            | .error f => .error f
            | .ok s => skipValue b fuel s
    match byte? b j with
    | none => .error (Fault.ahead b .eofInObject j)
    | some c =>
      if c == '}'.toUInt8 then .ok (j + 1)
      else if first then
        match member j with
        | .error f => .error f
        | .ok k => skipMembers b fuel k false
      else if c == ','.toUInt8 then
        match member (j + 1) with
        | .error f => .error f
        | .ok k => skipMembers b fuel k false
      else .error (Fault.ahead b .expectedObjectCommaOrEnd j)

end

/-- Enough fuel for any chain of nested reads from `i` on. -/
def fuelFrom (b : ByteArray) (i : Nat) : Nat := 2 * (b.size - i) + 2

end Lowering.Json.Scan
