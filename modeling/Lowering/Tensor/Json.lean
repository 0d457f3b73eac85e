import Lowering.Tensor.Basic
import Lowering.Json.Reader

/-! # Element types, shapes and constants in JSON

Reading them with any `Reader`, and writing them as values:

* an element type is its lowercase name;
* a shape is `null` for an unknown rank, else an array of signed 64-bit integers, any negative
  one meaning an unknown dimension;
* a constant is `{"element_type", "shape" (default empty), "values"}`.
-/

namespace Lowering

open Lowering.Json

section Reading

variable {m : Type → Type} [Monad m] [MonadExceptOf DecodeError m] [Reader m]

/-- An element type by its name. -/
def ElementType.read : m ElementType :=
  enumOf (ElementType.all.map fun t => (t.name, t))

/-- A dimension from a signed 64-bit integer. -/
def Dim.read : m Dim := Dim.ofInt <$> integer

/-- A shape: null, or an array of dimensions. -/
def Shape.read : m Shape := Shape.mk <$> Reader.option (listOf Dim.read)

/-- The draft of a constant while its fields are read. -/
structure ConstantDraft where
  elementType : Option ElementType := none
  shape : Option (List Nat) := none
  values : Option (List Float) := none

/-- A constant: the element type and the values must be given, the shape defaults to empty. -/
def Constant.read : m Constant :=
  record {
    name := "struct ConstantValue"
    fields := ["element_type", "shape", "values"]
    required := fun i => i != 1
    init := ({} : ConstantDraft)
    isSet := fun
      | 0, d => d.elementType.isSome
      | 1, d => d.shape.isSome
      | _, d => d.values.isSome
    read := fun
      | 0, d => do pure { d with elementType := some (← ElementType.read) }
      | 1, d => do pure { d with shape := some (← listOf natural) }
      | _, d => do pure { d with values := some (← listOf float) }
    finish := fun d =>
      match d.elementType, d.values with
      | none, _ => .error (.missingField "element_type")
      | _, none => .error (.missingField "values")
      | some t, some vs => .ok ⟨t, d.shape.getD [], vs⟩ }

end Reading

/-- An element type as its name. -/
def ElementType.toJson (t : ElementType) : Value := .str t.name

/-- A shape as null or an array of integers. -/
def Shape.toJson (s : Shape) : Value :=
  match s.dims with
  | none => .null
  | some ds => .arr (ds.map fun d => Value.ofInt d.toInt)

/-- A constant as an object. -/
def Constant.toJson (c : Constant) : Value :=
  .obj [("element_type", c.elementType.toJson),
        ("shape", .arr (c.shape.map Value.ofNat)),
        ("values", .arr (c.values.map fun f => .num (.float f)))]

end Lowering
