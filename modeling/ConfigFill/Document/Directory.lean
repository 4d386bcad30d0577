import ConfigFill.Document.Files

/-!
# A working directory

Files and directories by the names that lead to them from the working directory. Reading and writing
walk a path name by name and fail as an operating system would. Outside the working directory there
are directories without files.
-/

namespace ConfigFill

/-- What a directory has under a name. -/
inductive FileNode where
  | file (content : ByteArray)
  | directory

/-- The files and directories below the working directory. -/
structure Directory where
  nodes : List (List String × FileNode)

namespace Directory

/-- Nothing but the working directory. -/
def empty : Directory :=
  ⟨[]⟩

/-- What the names lead to. -/
def node? (directory : Directory) (names : List String) : Option FileNode :=
  if names.isEmpty then some .directory else directory.nodes.lookup names

/-- The directory with a node under names, and directories on the way to it. -/
def put (directory : Directory) (names : List String) (node : FileNode) : Directory :=
  let ways := (List.range names.length).map names.take
  let missing := ways.filter fun way ↦ !way.isEmpty && (directory.node? way).isNone
  let others := directory.nodes.filter (·.1 != names)
  ⟨others ++ missing.map (·, .directory) ++ [(names, node)]⟩

/-- The directory with a file of this content. -/
def putFile (directory : Directory) (path : String) (content : ByteArray) : Directory :=
  directory.put (Files.namesOf path) (.file content)

/-- The directory with a directory in it. -/
def putDirectory (directory : Directory) (path : String) : Directory :=
  directory.put (Files.namesOf path) .directory

/-- Where a walk along a path stands. -/
inductive Spot where
  | inside (names : List String)
  | outside
  deriving DecidableEq

/-- The node where a walk stands. -/
def nodeAt? (directory : Directory) : Spot → Option FileNode
  | .inside names => directory.node? names
  | .outside => some .directory

/-- One name further along a path. -/
def follow (directory : Directory) (spot : Spot) (name : String) : Except FileFault Spot :=
  match directory.nodeAt? spot with
  | none => .error .missing
  | some (.file _) => .error .notDirectory
  | some .directory =>
      match spot with
      | .outside => if name = ".." || name = "." then .ok .outside else .error .missing
      | .inside names =>
          if name = "." then .ok spot
          else if name = ".." then
            .ok (if names.isEmpty then .outside else .inside names.dropLast)
          else .ok (.inside (names ++ [name]))

/-- The spot that a path leads to; only its last name may be missing. -/
def walk (directory : Directory) (path : String) : Except FileFault Spot :=
  if path.toList.contains '\x00' then .error .nulInName
  else if path.isEmpty then .error .missing
  else
    let start := if path.toList.head? == some '/' then Spot.outside else .inside []
    (Files.stepsOf path).foldlM directory.follow start

/-- The path asks for a directory. -/
def wantsDirectory (path : String) : Bool :=
  path.toList.getLast? == some '/'

/-- The content of a file. -/
def read (directory : Directory) (path : String) : Except FileFault ByteArray := do
  match directory.nodeAt? (← directory.walk path) with
  | none => throw .missing
  | some .directory => throw .isDirectory
  | some (.file content) => if wantsDirectory path then throw .notDirectory else return content

/-- The names of the file that a text written to a path goes to. -/
def target (directory : Directory) (path : String) : Except FileFault (List String) := do
  match ← directory.walk path with
  | .outside => throw .isDirectory
  | .inside names =>
      match directory.node? names with
      | some .directory => throw .isDirectory
      | _ => if wantsDirectory path then throw .isDirectory else return names

/-- The directory as a program sees it. -/
def files (directory : Directory) : Files where
  read := directory.read
  refusal path :=
    match directory.target path with
    | .ok _ => none
    | .error fault => some fault

end Directory

end ConfigFill
