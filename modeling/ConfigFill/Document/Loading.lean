import ConfigFill.Document.Files
import ConfigFill.Json.Reader
import ConfigFill.Trace.Run
import ConfigFill.Tree.Merge
import ConfigFill.Yaml.Reader

/-!
# Loading documents

A document is read from a file as JSON if the file's name says so, and as YAML otherwise. Several
files merge in order, later ones over earlier ones.
-/

namespace ConfigFill.Document

/-- The tree of a YAML text. -/
def ofYaml (text : String) : Except Failure Tree :=
  (Yaml.parse text).mapError fun reason ↦ .of (.parse reason)

/-- The tree of a JSON text. -/
def ofJson (text : String) : Except Failure Tree :=
  (Json.parse text).mapError fun reason ↦ .of (.parse reason)

/-- The tree of a file. -/
def load (files : Files) (path : String) : Except Failure Tree :=
  match files.readText path with
  | .error fault => .error (.of (.io s!"Failed to read file '{path}': {fault.message}"))
  | .ok text =>
      (if Files.isJsonPath path then ofJson text else ofYaml text).mapError fun failure ↦
        failure.advised s!"Fix the syntax of '{path}'"

/-- The trees of files in order, up to the first that cannot be loaded. -/
def loadAll (files : Files) : List String → Run (List Tree)
  | [] => return []
  | path :: rest => do
      let tree ← Effect.ofExcept (load files path)
      .log (.fileLoaded path)
      return tree :: (← loadAll files rest)

/-- The trees of files merged in order. Without files, an empty mapping. -/
def loadMerged (files : Files) (paths : List String) : Run Tree := do
  return Tree.mergeAll (← loadAll files paths)

end ConfigFill.Document
