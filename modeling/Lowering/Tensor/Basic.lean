/-! # Element types, shapes and constants

The static facts a tensor carries:

* `ElementType` — the element type, with `dynamic` for "not known";
* `Dim` and `Shape` — a shape whose rank, and each of whose dimensions, may be unknown;
* `Constant` — a frozen tensor: element type, static shape and values.

A dimension is written `?` when unknown; in JSON it is an integer, `-1` when unknown.
-/

namespace Lowering

/-- The element type of a tensor; `dynamic` when it is not known. -/
inductive ElementType where
  | dynamic
  | boolean
  | f16
  | f32
  | f64
  | i8
  | i32
  | i64
  | u8
  | u32
  deriving DecidableEq, Repr, Inhabited

namespace ElementType

/-- Every element type, in the order messages list them. -/
def all : List ElementType := [dynamic, boolean, f16, f32, f64, i8, i32, i64, u8, u32]

/-- The lowercase name of an element type. -/
def name : ElementType → String
  | dynamic => "dynamic"
  | boolean => "boolean"
  | f16 => "f16"
  | f32 => "f32"
  | f64 => "f64"
  | i8 => "i8"
  | i32 => "i32"
  | i64 => "i64"
  | u8 => "u8"
  | u32 => "u32"

/-- Whether the element type is known. -/
def isStatic (t : ElementType) : Bool := t != dynamic

end ElementType

/-- One dimension of a shape. -/
inductive Dim where
  | known (size : Nat)
  | unknown
  deriving DecidableEq, Repr, Inhabited

/-- Reduces an integer into the signed 64-bit range, as a 64-bit word read as signed. -/
def wrapSigned64 (n : Int) : Int :=
  let r := n % Int.pow 2 64
  if r < Int.pow 2 63 then r else r - Int.pow 2 64

namespace Dim

/-- A dimension from its JSON integer: a negative one means unknown. -/
def ofInt (i : Int) : Dim := if i < 0 then unknown else known i.toNat

/-- The JSON integer of a dimension: `-1` when unknown, else the size as a signed 64-bit word
(a size of `2^63` or more comes out negative). -/
def toInt : Dim → Int
  | known n => wrapSigned64 n
  | unknown => -1

/-- `?` for an unknown dimension, else its size. -/
def render : Dim → String
  | known n => toString n
  | unknown => "?"

/-- Whether the dimension is known. -/
def isStatic : Dim → Bool
  | known _ => true
  | unknown => false

end Dim

/-- A shape: `none` when even the rank is unknown. -/
structure Shape where
  dims : Option (List Dim)
  deriving DecidableEq, Repr, Inhabited

namespace Shape

/-- The shape of unknown rank. -/
def dynamic : Shape := ⟨none⟩

/-- A shape with all dimensions known. -/
def ofSizes (sizes : List Nat) : Shape := ⟨some (sizes.map Dim.known)⟩

/-- The rank, if known. -/
def rank? (s : Shape) : Option Nat := s.dims.map List.length

/-- Whether the rank is known. -/
def isRankStatic (s : Shape) : Bool := s.dims.isSome

/-- Whether the rank and every dimension are known. -/
def isStatic (s : Shape) : Bool :=
  match s.dims with
  | some ds => ds.all Dim.isStatic
  | none => false

/-- `[...]` for an unknown rank, else the dimensions between brackets, separated by commas. -/
def render (s : Shape) : String :=
  match s.dims with
  | none => "[...]"
  | some ds => "[" ++ ",".intercalate (ds.map Dim.render) ++ "]"

end Shape

/-- A frozen tensor. -/
structure Constant where
  elementType : ElementType
  shape : List Nat
  values : List Float
  deriving Repr, Inhabited

/-- The shape of a constant's tensor. -/
def Constant.shapeOf (c : Constant) : Shape := Shape.ofSizes c.shape

end Lowering
