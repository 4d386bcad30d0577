import ConfigFill.Command.Execution

/-!
# The program

The outer layer of the command line: it reads the files and variables that a command may ask for,
runs the command, writes what comes of it and ends with its exit code. It decides nothing itself. No
service is at hand, so parameter values come from files.
-/

namespace ConfigFill.Command

/-- The reason behind a failure of the system. -/
def faultOf : IO.Error → FileFault
  | .noFileOrDirectory .. => .missing
  | .inappropriateType _ code _ => if code = 20 then .notDirectory else .isDirectory
  | .permissionDenied _ code _ => .refused s!"Permission denied (os error {code})"
  | error => .refused (toString error)

/-- What a path reads as. -/
def readPath (path : String) : IO (Except FileFault ByteArray) := do
  if path.toList.contains '\x00' then return .error .nulInName
  try
    return .ok (← IO.FS.readBinFile path)
  catch error => return .error (faultOf error)

/-- Write a text to a path, or say why it cannot be written. -/
def writePath (path text : String) : IO (Option FileFault) := do
  if path.toList.contains '\x00' then return some .nulInName
  try
    IO.FS.writeFile path text
    return none
  catch error => return some (faultOf error)

/-- The files that a command reads. -/
def inputPaths : Command → List String
  | .fill files _ _ _ source => files ++ source.parametersFile.toList
  | .get _ _ source => source.parametersFile.toList
  | .check files => files

/-- The variables that a command may ask for. -/
def variableNames (files : Files) : Command → List String
  | .fill paths _ _ _ _ =>
      match (Document.loadMerged files paths).start.2 with
      | .ok tree =>
          tree.placeholders.filterMap fun (_, placeholder) ↦
            (VariableSplit.of? placeholder.path).map (·.name)
      | .error _ => []
  | .get path _ _ => ((VariableSplit.of? path).map (·.name)).toList
  | .check _ => []

/-- The variables of these names. -/
def readVariables (names : List String) : IO Environment :=
  names.foldlM (fun environment name ↦ do
    match ← IO.getEnv name with
    | some value => return environment.set name value.toUTF8
    | none => return environment) Environment.empty

/-- Run a command. If its output file then cannot be written, what comes of it is what would have
come had that been known. -/
def perform (command : Command) (verbose : Bool) : IO Outcome := do
  let contents ← command.inputPaths.mapM fun path ↦ return (path, ← readPath path)
  let files (refusal : Option FileFault) : Files :=
    { read := fun path ↦ (contents.lookup path).getD (.error .missing)
      refusal := fun _ ↦ refusal }
  let environment ← readVariables (command.variableNames (files none))
  let outcome (refusal : Option FileFault) : Outcome :=
    (command.run ⟨files refusal, environment, .offline⟩ verbose).2
  match (outcome none).written with
  | none => return outcome none
  | some (path, text) => return outcome (← writePath path text)

/-- How to call the program. -/
def usage : String :=
  "Usage: ssm-inject [-v] inject FILES... [-f FORMAT] [-o FILE] [-s PATH] [SOURCE]\n" ++
  "       ssm-inject [-v] get PATH [-f FORMAT] [SOURCE]\n" ++
  "       ssm-inject [-v] check FILES...\n" ++
  "SOURCE: [--params FILE] [--region REGION] [--profile PROFILE] [--endpoint ENDPOINT]\n"

end ConfigFill.Command

open ConfigFill.Command in
/-- Run the program. -/
def main (arguments : List String) : IO UInt32 := do
  match Invocation.ofArguments arguments with
  | .version =>
      IO.print versionLine
      return 0
  | .help =>
      IO.print usage
      return 0
  | .misuse =>
      IO.eprint usage
      return Status.misused.code.toUInt32
  | .run command verbose =>
      let outcome ← command.perform verbose
      IO.eprint outcome.messages
      IO.print outcome.output
      return outcome.status.code.toUInt32
