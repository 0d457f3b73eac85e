import Lowering.Tensor.Json
import Lowering.Json.Reader.Text
import Lowering.Json.Reader.Tree

/-! # Session options

What a lowering session may be told: the name of the top-level model, whether tensor names are
stripped from body graphs before they are cached, and the element type of an input whose type
is unknown. Every field is optional in JSON.
-/

namespace Lowering

open Lowering.Json

/-- Options of a lowering session. -/
structure Options where
  /-- The name of the top-level model. -/
  modelName : String := "model"
  /-- Strip tensor names from translated bodies, so that several copies of one body do not
  carry the same names. -/
  clearBodyNames : Bool := true
  /-- The element type of a parameter whose input place has none. -/
  defaultInputType : ElementType := .f32
  deriving Repr, Inhabited

/-- The draft of options while their fields are read. -/
structure OptionsDraft where
  modelName : Option String := none
  clearBodyNames : Option Bool := none
  defaultInputType : Option ElementType := none

/-- Options, each field defaulting. -/
def Options.read {m : Type → Type} [Monad m] [MonadExceptOf DecodeError m] [Reader m] :
    m Options :=
  record {
    name := "struct SessionConfig"
    fields := ["model_name", "clear_body_names", "default_input_type"]
    required := fun _ => false
    init := ({} : OptionsDraft)
    isSet := fun
      | 0, d => d.modelName.isSome
      | 1, d => d.clearBodyNames.isSome
      | _, d => d.defaultInputType.isSome
    read := fun
      | 0, d => do pure { d with modelName := some (← string) }
      | 1, d => do pure { d with clearBodyNames := some (← Reader.bool "a boolean") }
      | _, d => do pure { d with defaultInputType := some (← ElementType.read) }
    finish := fun d =>
      .ok { modelName := d.modelName.getD "model"
            clearBodyNames := d.clearBodyNames.getD true
            defaultInputType := d.defaultInputType.getD .f32 } }

/-- Options from JSON text. -/
def Options.ofText (text : String) : Except DecodeError Options := decodeText Options.read text

/-- Options from a JSON value. -/
def Options.ofValue (v : Value) : Except DecodeError Options := decodeTree Options.read v

end Lowering
