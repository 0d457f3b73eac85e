import Lowering.Session
import Lowering.Source.Json
import Lowering.Options

/-! # The command line

The command lowers source graph files with no translators, so every operation that is not a
call of a body becomes a stand-in node, and prints a summary of each model with its stand-ins.

Everything here is pure: `readArgs` reads the arguments, `loadOptions` and `loadModel` turn a
file's text (or the reason it could not be read) into options or a graph, and `lowerFiles`
says what is printed and how the run ends. Failures are written as a chain: a headline, then
the failures that caused it, each on its own line.
-/

namespace Lowering.Cli

open Lowering.Json Lowering.Ir

/-- The command's name, as its usage and version lines show it. -/
def programName : String := "graphbridge"

/-- The version line. -/
def versionText : String := programName ++ " 0.1.0"

/-- What the command line asks to be done. -/
structure Invocation where
  /-- The source graph files, in order. -/
  models : List String := []
  /-- The options file. -/
  config : Option String := none
  /-- How many times the verbose flag was given. -/
  verbose : Nat := 0
  deriving Repr, Inhabited

/-- A request read from the arguments. -/
inductive Command where
  | run (inv : Invocation)
  | help
  | version
  deriving Repr, Inhabited

/-- The usage line. -/
def usage : String := "Usage: " ++ programName ++ " [OPTIONS] <MODELS>..."

/-- The text printed for the help flag. -/
def helpText : String :=
  "Translate source dataflow graphs into IR graphs\n\n" ++ usage ++ "\n\n" ++
  "Arguments:\n  <MODELS>...  Source graph files (JSON)\n\n" ++
  "Options:\n" ++
  "  -c, --config <CONFIG>  Session configuration file (JSON)\n" ++
  "  -v, --verbose...       Verbose logging (-v, -vv)\n" ++
  "  -h, --help             Print help\n" ++
  "  -V, --version          Print version"

/-- A usage error as printed: the message, the usage line and a pointer to the help. -/
def usageError (msg : String) : String :=
  "error: " ++ msg ++ "\n\n" ++ usage ++ "\n\nFor more information, try '--help'."

/-- The options file was named twice. -/
def configTwice : String := "the argument '--config <CONFIG>' cannot be used multiple times"

/-- The options flag ended the arguments, or was followed by another flag. -/
def configMissing : String := "a value is required for '--config <CONFIG>' but none was supplied"

/-- No source graph file was named. -/
def modelsMissing : String := "the following required arguments were not provided:\n  <MODELS>..."

/-- An argument that is neither a known flag nor a file. -/
def unexpected (arg : String) : String :=
  "unexpected argument '" ++ arg ++ "' found\n\n  tip: to pass '" ++ arg ++
    "' as a value, use '-- " ++ arg ++ "'"

/-- Whether an argument reads as a flag rather than a value. -/
def flagLike (arg : String) : Bool := arg.startsWith "-" && arg.length > 1

/-- Names the options file, once. -/
def Invocation.setConfig (inv : Invocation) (path : String) : Except String Invocation :=
  if inv.config.isSome then .error configTwice else .ok { inv with config := some path }

/-- How reading a cluster of short flags ends. -/
inductive Cluster where
  /-- The cluster asks for help or the version. -/
  | stop (c : Command)
  /-- The cluster is read; the options flag may still wait for its value. -/
  | next (inv : Invocation) (awaitingConfig : Bool)

/-- Reads the letters of a cluster of short flags such as "-vv" or "-cfile.json". -/
def shortFlags (inv : Invocation) : List Char → Except String Cluster
  | [] => .ok (.next inv false)
  | 'v' :: cs => shortFlags { inv with verbose := inv.verbose + 1 } cs
  | 'h' :: _ => .ok (.stop .help)
  | 'V' :: _ => .ok (.stop .version)
  | 'c' :: cs =>
    let value := match cs with
      | '=' :: vs => vs
      | vs => vs
    if value.isEmpty then .ok (.next inv true)
    else return .next (← inv.setConfig (String.ofList value)) false
  | c :: _ => .error (unexpected ("-" ++ String.singleton c))

/-- The arguments read so far, as a command once they run out. -/
def Invocation.finish (inv : Invocation) : Except String Command :=
  if inv.models.isEmpty then .error modelsMissing
  else .ok (.run { inv with models := inv.models.reverse })

/-- Reads the arguments in order. Files are gathered in reverse; after "--" every argument is
a file; `awaitingConfig` says that the previous argument was the options flag without its value.
The help and version flags end the reading where they stand. -/
def readArgs (inv : Invocation) (afterDashes awaitingConfig : Bool) :
    List String → Except String Command
  | [] => if awaitingConfig then .error configMissing else inv.finish
  | arg :: rest =>
    if awaitingConfig then
      if flagLike arg then .error configMissing
      else do readArgs (← inv.setConfig arg) afterDashes false rest
    else if afterDashes || !flagLike arg then
      readArgs { inv with models := arg :: inv.models } afterDashes false rest
    else if arg == "--" then readArgs inv true false rest
    else if arg == "--help" then .ok .help
    else if arg == "--version" then .ok .version
    else if arg == "--verbose" then readArgs { inv with verbose := inv.verbose + 1 } false false rest
    else if arg == "--config" then readArgs inv false true rest
    else if arg.startsWith "--config=" then do
      readArgs (← inv.setConfig (arg.drop 9).toString) false false rest
    else if arg.startsWith "--" then .error (unexpected arg)
    else do
      match ← shortFlags inv (arg.toList.drop 1) with
      | .stop c => .ok c
      | .next inv waiting => readArgs inv false waiting rest

/-- The command asked for by the arguments, or the usage error to print. -/
def parseArgs (args : List String) : Except String Command :=
  readArgs {} false false args

/-- A failure with the failures that caused it, as printed when the run stops: one cause is
written alone, several are numbered. -/
def chain (headline : String) : List String → String
  | [] => "Error: " ++ headline
  | [c] => "Error: " ++ headline ++ "\n\nCaused by:\n    " ++ c
  | cs => "Error: " ++ headline ++ "\n\nCaused by:" ++
      String.join (cs.zipIdx.map fun (c, i) => "\n    " ++ toString i ++ ": " ++ c)

/-- Options from the options file's text, or the chain that stops the run. -/
def loadOptions (path : String) (content : Except String String) : Except String Options :=
  match content with
  | .error e => .error (chain ("cannot read config '" ++ path ++ "': " ++ e) [])
  | .ok text =>
    match Options.ofText text with
    | .ok o => .ok o
    | .error e => .error (chain e.message [])

/-- A source graph from its file's text, or the chain that stops the run. -/
def loadModel (path : String) (content : Except String String) : Except String Source.Graph :=
  let headline := "cannot load '" ++ path ++ "'"
  match content with
  | .error e => .error (chain headline ["failed to read source graph: " ++ e, e])
  | .ok text =>
    match Source.Graph.ofText text with
    | .ok g => .ok g
    | .error (.parse e) => .error (chain headline [LowerError.message (.parse e), e.message])
    | .error e => .error (chain headline [e.message])

/-- The line printed for a stand-in node, if the node is one. -/
def standIn (n : Node) : Option String :=
  match n.op with
  | .framework opType _ reason =>
    some ("  framework " ++ n.name ++ " (" ++ opType ++ ")" ++
      match reason with
      | some r => ": " ++ r
      | none => "")
  | _ => none

/-- What is printed for a lowered model: its summary, then its stand-in nodes. -/
def report (m : Model) : List String :=
  m.summary :: m.graph.nodes.toList.filterMap standIn

/-- What a run prints and how it ends. -/
structure Outcome where
  /-- Lines for standard output. -/
  out : List String := []
  /-- Lines for standard error. -/
  err : List String := []
  /-- The exit code. -/
  code : UInt32 := 0
  deriving Repr, Inhabited

/-- Lowers the loaded models with no translators. A single model is named after its own name
or the options, and its failure stops the run; of several models each failure is reported
beside its file, and the run fails at the end if any did. -/
def lowerFiles (options : Options) (models : List (String × Source.Graph)) : Outcome :=
  match models with
  | [(_, g)] =>
    let options := match g.name with
      | some n => { options with modelName := n }
      | none => options
    match (Session.convertedModel ⟨g, [], options, {}, none⟩).1 with
    | .ok m => { out := report m }
    | .error e => { err := [chain "translation failed" [e.message]], code := 1 }
  | _ =>
    let outcomes := (lowerAll (models.map (·.2)) [] options).zip (models.map (·.1))
    let failed := outcomes.countP fun (r, _) => r matches .error _
    let step (o : Outcome) : Except LowerError Model × String → Outcome
      | (.ok m, _) => { o with out := o.out ++ report m }
      | (.error e, path) => { o with err := o.err ++ [path ++ ": " ++ e.message] }
    let run := outcomes.foldl step {}
    if failed > 0 then
      { run with
        err := run.err ++ [chain (toString failed ++ " of " ++ toString models.length ++
          " models failed to translate") []]
        code := 1 }
    else run

end Lowering.Cli
