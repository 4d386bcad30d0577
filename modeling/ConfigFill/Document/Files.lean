import ConfigFill.Text.Segments

/-!
# Files

What a program sees of the files around it: what each path reads as, and why a path cannot be
written, where it cannot. The ending of a file's name says whether it holds JSON.
-/

namespace ConfigFill

/-- Why a file cannot be read or written. -/
inductive FileFault where
  | missing
  | isDirectory
  | notDirectory
  | notText
  | nulInName
  /-- Any other reason, in the words of the system. -/
  | refused (reason : String)
  deriving DecidableEq, Repr

/-- The wording of a fault. -/
def FileFault.message : FileFault → String
  | missing => "No such file or directory (os error 2)"
  | isDirectory => "Is a directory (os error 21)"
  | notDirectory => "Not a directory (os error 20)"
  | notText => "stream did not contain valid UTF-8"
  | nulInName => "file name contained an unexpected NUL byte"
  | refused reason => reason

/-- Files by their paths. -/
structure Files where
  read : (path : String) → Except FileFault ByteArray
  /-- Why a text cannot be written to a path, where it cannot. -/
  refusal : (path : String) → Option FileFault

namespace Files

/-- The content of a file as a text. -/
def readText (files : Files) (path : String) : Except FileFault String := do
  match String.fromUTF8? (← files.read path) with
  | some text => return text
  | none => throw .notText

/-- The parts of a path between slashes, empty ones left out. -/
def stepsOf (path : String) : List String :=
  ((Text.segments '/' path.toList).filter (!·.isEmpty)).map String.ofList

/-- The names of a path in order, without the dots that lead nowhere new. -/
def namesOf (path : String) : List String :=
  (stepsOf path).filter (· != ".")

/-- The ending of the file name that a path leads to, without its dot. A dot that begins the name
begins no ending. -/
def extension? (path : String) : Option String :=
  match (namesOf path).getLast? with
  | none => none
  | some name =>
      if name = ".." then none
      else
        let reversed := name.toList.reverse
        let ending := reversed.takeWhile (· ≠ '.')
        if ending.length + 1 < reversed.length then some (String.ofList ending.reverse) else none

/-- The path names a JSON file. -/
def isJsonPath (path : String) : Bool :=
  match extension? path with
  | some ending => ending.toList.map Char.toLower == "json".toList
  | none => false

end Files

end ConfigFill
