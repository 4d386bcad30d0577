import ConfigFill.Command.Arguments
import ConfigFill.Document.Loading
import ConfigFill.Parameter.Table
import ConfigFill.Resolution.Resolver
import ConfigFill.Service.Store
import ConfigFill.Yaml.Printer

/-!
# Running commands

What a command does, as a function of the files, the variables and the service around it: an
`Outcome` with the exit status, the two output texts and the file to be written, if any, and beside
it the trace. A command that fills files either does all of its work or puts out and writes nothing.
-/

namespace ConfigFill.Command

/-- What a command can see. -/
structure Surroundings where
  files : Files
  environment : Environment
  service : Service

/-- How a command ends. -/
inductive Status where
  | success
  /-- A placeholder or a parameter path cannot be resolved. -/
  | unresolved
  /-- Files, arguments or the output target are at fault. -/
  | misused
  deriving DecidableEq, Repr

/-- The exit code of a status. -/
def Status.code : Status → Nat
  | success => 0
  | unresolved => 1
  | misused => 2

/-- What comes of a command: its output, its messages, and the file with its text that it writes. -/
structure Outcome where
  status : Status
  output : String
  messages : String
  written : Option (String × String)
  deriving DecidableEq, Repr

/-- Why a command stops early: how it ends and the message. -/
structure Stop where
  status : Status
  message : String
  deriving DecidableEq, Repr

namespace Stop

/-- Stop on account of files, arguments or the output target. -/
def misuse (message : String) : Stop :=
  ⟨.misused, message ++ "\n"⟩

/-- Stop on account of something that cannot be resolved. -/
def unresolved (message : String) : Stop :=
  ⟨.unresolved, message ++ "\n"⟩

/-- What comes of a command that stops: nothing but the message. -/
def outcome (stop : Stop) : Outcome :=
  ⟨stop.status, "", stop.message, none⟩

end Stop

/-- The table in a parameters file. -/
def loadTable (files : Files) (path : String) : Except Stop Parameter.Table := do
  let tree ← (Document.load files path).mapError fun failure ↦
    .misuse s!"Failed to load parameters {path}: {failure.message}"
  (Parameter.Table.ofTree tree).mapError fun failure ↦
    .misuse s!"Invalid parameters file {path}: {failure.message}"

/-- The merged tree of the files that a command names. -/
def loadConfiguration (files : Files) (paths : List String) : Effect Stop Tree :=
  if paths.isEmpty then .fail (.misuse "No configuration files specified")
  else (Document.loadMerged files paths).mapFailure fun failure ↦
    .misuse s!"Failed to load configuration: {failure.message}"

/-- The resolver over a source of parameter values. -/
def openResolver (surroundings : Surroundings) (source : Source) : Effect Stop Resolver :=
  match source.parametersFile with
  | some path => do
      let table ← Effect.ofExcept (loadTable surroundings.files path)
      .log (.parametersFileUsed table.size)
      return ⟨table.store⟩
  | none => do
      .log (.connectionBuilt (Service.Configuration.initial.connection source.connection))
      return ⟨surroundings.service.store⟩

/-- The text of a tree in a format, if there is such a format. -/
def render (format : String) (tree : Tree) : Except String String :=
  match format with
  | "json" => .ok (Json.pretty tree ++ "\n")
  | "yaml" | "yml" => .ok (Yaml.render tree)
  | "text" =>
      match tree with
      | .sequence _ | .mapping _ => .ok (Yaml.render tree)
      | scalar => .ok (scalar.text ++ "\n")
  | other => .error s!"Unsupported format: {other}. Use text, yaml, or json."

/-- The text of a tree in a format, as far as a command is concerned. -/
def rendered (format : String) (tree : Tree) : Except Stop String :=
  (render format tree).mapError fun reason ↦ .misuse s!"Error: {reason}"

/-- The part of a tree at a path, or all of it. -/
def selected (select : Option String) (tree : Tree) : Except Stop Tree :=
  match select with
  | none => .ok tree
  | some path =>
      (tree.select path).mapError fun _ ↦ .misuse s!"Error: Path '{path}' not found"

/-- Put a text out, or have it written to a file. -/
def deliver (files : Files) (output : Option String) (text : String) : Except Stop Outcome :=
  match output with
  | none => .ok ⟨.success, text, "", none⟩
  | some path =>
      match files.refusal path with
      | some fault => .error (.misuse s!"Error writing file: {fault.message}")
      | none => .ok ⟨.success, "", s!"✓ Wrote to {path}\n", some (path, text)⟩

/-- Put out the selected part of a tree in a format. -/
def putOut (files : Files) (format : String) (output select : Option String) (tree : Tree) :
    Except Stop Outcome := do
  let part ← selected select tree
  let text ← rendered format part
  deliver files output text

/-- Merge files, fill their placeholders and put out the result. -/
def fillFiles (surroundings : Surroundings) (files : List String) (format : String)
    (output select : Option String) (source : Source) : Effect Stop Outcome := do
  if format = "text" then .fail (.misuse "Unsupported format: text. Use yaml or json.")
  else
    let tree ← loadConfiguration surroundings.files files
    let resolver ← openResolver surroundings source
    .log (.fillingStarted resolver.name)
    let filled ← (resolver.fill surroundings.environment tree).mapFailure fun failure ↦
      .unresolved ("✗ Resolution failed\n\n" ++ failure.message)
    .ofExcept (putOut surroundings.files format output select filled)

/-- Put out the value of a parameter path. -/
def getPath (surroundings : Surroundings) (path format : String) (source : Source) :
    Effect Stop Outcome := do
  let resolver ← openResolver surroundings source
  let value ← (resolver.resolve surroundings.environment path).mapFailure fun failure ↦
    .unresolved s!"Error: {failure.message}"
  .ofExcept (putOut surroundings.files format none none value)

/-- The line about one placeholder. -/
def placeholderLine (path : Tree.Path) (placeholder : Placeholder) : String :=
  let mark := if placeholder.json then " (json)" else ""
  let suffix :=
    match placeholder.suffix with
    | some suffix => s!" + '{suffix}'"
    | none => ""
  "    " ++ path.shown ++ " -> " ++ placeholder.path ++ mark ++ suffix ++ "\n"

/-- The lines about a file that can be loaded: a heading and a line for each placeholder. -/
def placeholderLines (file : String) (placeholders : List (Tree.Path × Placeholder)) : String :=
  s!"✓ {file}: {placeholders.length} placeholder(s)\n" ++
    String.join (placeholders.map fun (path, placeholder) ↦ placeholderLine path placeholder)

/-- What comes of checking one file. -/
def checkFile (files : Files) (file : String) : Outcome :=
  match Document.load files file with
  | .ok tree => ⟨.success, placeholderLines file tree.placeholders, "", none⟩
  | .error failure => ⟨.misused, "", s!"✗ {file}: {failure.message}\n", none⟩

/-- List the placeholders of files. A file that cannot be loaded does not stop the others. -/
def checkFiles (files : Files) (paths : List String) : Outcome :=
  let outcomes := paths.map (checkFile files)
  { status := if outcomes.all (·.status = .success) then .success else .misused
    output := String.join (outcomes.map (·.output))
    messages := String.join (outcomes.map (·.messages))
    written := none }

/-- Do what a command says. -/
def execute (surroundings : Surroundings) : Command → Effect Stop Outcome
  | .fill files format output select source =>
      fillFiles surroundings files format output select source
  | .get path format source => getPath surroundings path format source
  | .check files => return checkFiles surroundings.files files

/-- The log lines of a trace that are shown on request. -/
def shownLog (trace : Trace) : String :=
  String.join ((trace.records.filter (·.level = .debug)).map fun record ↦ record.line ++ "\n")

/-- What comes of a command by how it ends. -/
def outcomeOf : Except Stop Outcome → Outcome
  | .ok outcome => outcome
  | .error stop => stop.outcome

/-- Run a command. With `verbose`, log lines come before its messages. -/
def run (surroundings : Surroundings) (command : Command) (verbose : Bool) :
    Trace × Outcome :=
  let (trace, result) := (command.execute surroundings).start
  let outcome := outcomeOf result
  let log := if verbose then shownLog trace else ""
  (trace, { outcome with messages := log ++ outcome.messages })

/-- The name and the version of the program. -/
def versionLine : String :=
  "ssm-inject 0.1.0\n"

end ConfigFill.Command
