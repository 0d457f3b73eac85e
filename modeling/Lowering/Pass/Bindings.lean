import Lowering.Ir.Basic
import Lowering.Error

/-! # Bindings of operation names to values

During a pass, every translated operation (and every input place) is bound, by name, to the
values it produced. A value may carry the name of the output group it belongs to.

* `Bindings.bind` adds a name once; binding a name again is a failure;
* `Bindings.rebind` replaces the values of a bound name (after its node grew outputs);
* `flatIndex` finds the position of the `index`-th value of a named group.
-/

namespace Lowering.Pass

open Lowering.Ir

/-- A value produced by an operation, with the name of its output group if it has one. -/
structure Labeled where
  label : Option String := none
  handle : Handle
  deriving DecidableEq, Repr, Inhabited

/-- Values without group names. -/
def unlabeled (hs : List Handle) : List Labeled := hs.map fun h => { handle := h }

/-- Names bound to the values their operations produced, sorted by name. -/
structure Bindings where
  entries : List (String × List Labeled) := []
  deriving Inhabited

namespace Bindings

/-- The values bound to a name. -/
def get? (b : Bindings) (name : String) : Option (List Labeled) :=
  (b.entries.find? (·.1 == name)).map (·.2)

/-- Whether a name is bound. -/
def contains (b : Bindings) (name : String) : Bool :=
  b.entries.any (·.1 == name)

/-- Binds a name that is not bound yet. -/
def bind (b : Bindings) (name : String) (vs : List Labeled) : Except LowerError Bindings :=
  if b.contains name then .error (.duplicateOperation name)
  else .ok { entries := Json.insertSorted name vs b.entries }

/-- Replaces the values of a bound name; an unbound name stays unbound. -/
def rebind (b : Bindings) (name : String) (vs : List Labeled) : Bindings :=
  if b.contains name then { entries := Json.insertSorted name vs b.entries } else b

end Bindings

/-- The position of the `index`-th value of group `group` among `outputs`. When the first value
has no group name, the values are taken as unnamed and the index is already a position.
Otherwise the group starts at the first value named `group`, and the value `index` places
further must exist and belong to the same group. Positions are 64-bit words, so the sum of the
group's start and the index wraps around at `2^64`. -/
def flatIndex (outputs : List Labeled) (group : String) (index : Nat) : Except LowerError Nat :=
  match outputs.head? with
  | none => .ok index
  | some first =>
    if first.label.isNone then .ok index
    else
      match outputs.findIdx? (·.label == some group) with
      | none => .error (.groupLookup group index .absent)
      | some start =>
        let pos := (start + index) % Nat.pow 2 64
        match outputs[pos]? with
        | none => .error (.groupLookup group index .absent)
        | some v =>
          if v.label == some group then .ok pos
          else .error (.groupLookup group index .otherGroup)

end Lowering.Pass
