import Lowering.Cli

/-! # The command

Reads the files the arguments name, hands their texts to `Lowering.Cli`, and prints what it
says. Usage errors end the run with code 2, failures with code 1.
-/

open Lowering Lowering.Cli

/-- A system failure as the command reports it: the system's description, capitalized, and
the error number. -/
def systemFailure (code : UInt32) (details : String) : String :=
  let errno := if code ≥ UInt32.ofNat (Nat.pow 2 31) then 0 - code else code
  details.capitalize ++ " (os error " ++ toString errno ++ ")"

/-- Why a file could not be read. -/
def readFailure : IO.Error → String
  | .alreadyExists _ c d | .otherError c d | .resourceBusy c d | .resourceVanished c d
  | .unsupportedOperation c d | .hardwareFault c d | .unsatisfiedConstraints c d
  | .illegalOperation c d | .protocolError c d | .timeExpired c d | .interrupted _ c d
  | .noFileOrDirectory _ c d | .invalidArgument _ c d | .permissionDenied _ c d
  | .resourceExhausted _ c d | .inappropriateType _ c d | .noSuchThing _ c d =>
    systemFailure c d
  | .unexpectedEof => "failed to fill whole buffer"
  | .userError msg => msg

/-- The text of a file, or why it could not be read. -/
def readText (path : String) : IO (Except String String) := do
  try
    match String.fromUTF8? (← IO.FS.readBinFile path) with
    | some text => pure (.ok text)
    | none => pure (.error "stream did not contain valid UTF-8")
  catch e => pure (.error (readFailure e))

/-- Loads the options and the source graphs, stopping at the first that fails. -/
def load (inv : Invocation) : IO (Except String (Options × List (String × Source.Graph))) := do
  let options : Except String Options ← match inv.config with
    | none => pure (.ok {})
    | some path => pure (loadOptions path (← readText path))
  match options with
  | .error e => pure (.error e)
  | .ok options =>
    let mut graphs := #[]
    for path in inv.models do
      match loadModel path (← readText path) with
      | .error e => return .error e
      | .ok g => graphs := graphs.push (path, g)
    pure (.ok (options, graphs.toList))

/-- Runs the command: prints the help, the version or the models' summaries, or why it stopped. -/
def main (args : List String) : IO UInt32 := do
  match parseArgs args with
  | .error msg => IO.eprintln (usageError msg); pure 2
  | .ok .help => IO.println helpText; pure 0
  | .ok .version => IO.println versionText; pure 0
  | .ok (.run inv) =>
    match ← load inv with
    | .error e => IO.eprintln e; pure 1
    | .ok (options, graphs) =>
      let o := lowerFiles options graphs
      o.out.forM IO.println
      o.err.forM IO.eprintln
      pure o.code
