import Lowering.Json.Error

/-! # Why lowering failed

`LowerError` lists the structural failures that stop a lowering pass (a failure inside one
operation's translator only turns that operation into a stand-in node). `LowerError.message`
gives their texts and `LowerError.kind` their names.
-/

namespace Lowering

/-- Why an output could not be found in a named output group. -/
inductive GroupFault where
  /-- The group is not there, or the index runs past the outputs. -/
  | absent
  /-- The output at the index belongs to another group. -/
  | otherGroup
  deriving DecidableEq, Repr

/-- The text of a group failure. -/
def GroupFault.message : GroupFault → String
  | .absent => "there is no output port specified by name and index"
  | .otherGroup => "there is no output port with specified index in a group with specified name"

/-- Why an input of an operation could not be bound to a value. -/
inductive InputFault where
  /-- An input cut off by pruning names an entry that does not hold exactly one output. -/
  | pruned
  /-- The named output group does not resolve. -/
  | group (group : String) (index : Nat) (fault : GroupFault)
  /-- The producer was never translated. -/
  | notFound
  /-- The producer has no output at the index. -/
  | outOfRange
  /-- A declared output refers to an input slot that is missing or carries no data. -/
  | noDataInput
  deriving DecidableEq, Repr

/-- The text of a group failure with its group and index. -/
def groupMessage (group : String) (index : Nat) (f : GroupFault) : String :=
  "no output port in group '" ++ group ++ "' with index " ++ toString index ++ ": " ++ f.message

/-- The text of an input failure. -/
def InputFault.message : InputFault → String
  | .pruned => "input created with pruning must have one output"
  | .group g i f => groupMessage g i f
  | .notFound => "no input is found"
  | .outOfRange => "output port is out of range"
  | .noDataInput => "the operation has no data input at this slot"

/-- The two lists that can be put in a requested order. -/
inductive OrderKind where
  | parameters
  | results
  deriving DecidableEq, Repr

/-- The name of what is being ordered. -/
def OrderKind.name : OrderKind → String
  | .parameters => "parameters"
  | .results => "results"

/-- Why a list could not be put in the requested order. -/
inductive OrderFault where
  | lengths (names items : Nat)
  | notRequested (name : String)
  | twice (name : String)
  deriving DecidableEq, Repr

/-- A failure that stops a lowering pass. -/
inductive LowerError where
  | duplicateOperation (name : String)
  | groupLookup (group : String) (index : Nat) (fault : GroupFault)
  | inputResolution (operation : String) (input : Nat) (producer : String) (output : Nat)
      (fault : InputFault)
  | missingOperation (name : String)
  | noOutput (operation : String) (output : Nat)
  | bodyArity (body : String) (expected actual : Nat)
  | bodyCycle (body : String)
  | reorder (kind : OrderKind) (fault : OrderFault)
  | invalidEdge (text : String)
  | invalidOutputPlace (text : String)
  | parse (e : Json.DecodeError)
  /-- A node would need more outputs than `Ir.Graph.maxOutputs`: no block of memory holds them. -/
  | capacityOverflow
  deriving Repr

namespace LowerError

/-- The name of the kind of failure. -/
def kind : LowerError → String
  | duplicateOperation .. => "DuplicateOperation"
  | groupLookup .. => "PortResolution"
  | inputResolution .. => "InputResolution"
  | missingOperation .. => "MissingOperation"
  | noOutput .. => "OutputPort"
  | bodyArity .. => "BodyArity"
  | bodyCycle .. => "BodyCycle"
  | reorder .. => "Reorder"
  | invalidEdge .. => "InvalidEdge"
  | invalidOutputPlace .. => "InvalidOutputPlace"
  | parse .. => "Parse"
  | capacityOverflow => "Panic"

/-- The text of an ordering failure. -/
def orderMessage (k : OrderKind) : OrderFault → String
  | .lengths n m => toString n ++ " names requested for " ++ toString m ++ " " ++ k.name
  | .notRequested name => "'" ++ name ++ "' is not among the requested names"
  | .twice name => "two " ++ k.name ++ " are mapped to the name '" ++ name ++ "'"

/-- The text of a failure. -/
def message : LowerError → String
  | duplicateOperation name => "operation '" ++ name ++ "' has already been registered"
  | groupLookup g i f => groupMessage g i f
  | inputResolution op i prod out f =>
    "cannot prepare input " ++ toString i ++ " of operation '" ++ op ++ "', expected producer '" ++
      prod ++ "' port " ++ toString out ++ ": " ++ f.message
  | missingOperation name => "there is no operation with name '" ++ name ++ "'"
  | noOutput op out => "output port " ++ toString out ++ " of operation '" ++ op ++ "' does not exist"
  | bodyArity body e a =>
    "number of inputs (" ++ toString e ++ ") and arguments (" ++ toString a ++ ") of body graph '" ++
      body ++ "' do not match"
  | bodyCycle body => "body graph '" ++ body ++ "' contains a cycle"
  | reorder k f => "cannot reorder " ++ k.name ++ ": " ++ orderMessage k f
  | invalidEdge text => "invalid input edge '" ++ text ++ "'"
  | invalidOutputPlace text => "invalid output place '" ++ text ++ "'"
  | parse e => "failed to parse source graph: " ++ e.message
  | capacityOverflow => "capacity overflow"

end LowerError

end Lowering
