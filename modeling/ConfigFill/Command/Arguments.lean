import ConfigFill.Trace.Record

/-!
# Command lines

The arguments of the program as a command. There are three commands, each with options of its own.
An option may be given once, as one argument or two; its short form may close a cluster of flags.
Two dashes end the options. The flag for more output may stand before the command or after it.
-/

namespace ConfigFill

/-- Where parameter values come from: a file of parameters or, without one, the service. -/
structure Command.Source where
  parametersFile : Option String
  connection : Connection
  deriving DecidableEq, Repr

/-- What the program is asked to do. -/
inductive Command where
  /-- Write the merged files with their placeholders replaced, or the part at a path. -/
  | fill (files : List String) (format : String) (output select : Option String)
      (source : Command.Source)
  /-- Write the value of one parameter path. -/
  | get (path format : String) (source : Command.Source)
  /-- List the placeholders of files. -/
  | check (files : List String)
  deriving DecidableEq, Repr

namespace Command

/-- What a command line comes to. -/
inductive Invocation where
  | run (command : Command) (verbose : Bool)
  | version
  | help
  /-- The arguments make no command. -/
  | misuse
  deriving DecidableEq, Repr

/-- An option that takes a value. -/
inductive ValueOption where
  | format
  | output
  | select
  | parametersFile
  | region
  | profile
  | endpoint
  deriving DecidableEq, Repr

namespace ValueOption

/-- The long name of an option. -/
def name : ValueOption → String
  | format => "format"
  | output => "output"
  | select => "select"
  | parametersFile => "params"
  | region => "region"
  | profile => "profile"
  | endpoint => "endpoint"

/-- The one-letter name of an option that has one. -/
def letter? : ValueOption → Option Char
  | format => some 'f'
  | output => some 'o'
  | select => some 's'
  | _ => none

/-- The value is the path of a file, which cannot be empty. -/
def isPath : ValueOption → Bool
  | output | parametersFile => true
  | _ => false

end ValueOption

/-- What a command takes besides flags. -/
structure Grammar where
  options : List ValueOption
  /-- The operands are paths of files, one at least; otherwise there is exactly one, any text. -/
  takesFiles : Bool

/-- The options that say where parameter values come from. -/
def sourceOptions : List ValueOption :=
  [.parametersFile, .region, .profile, .endpoint]

/-- What has been read of a command's arguments. -/
structure Given where
  verbose : Bool
  values : List (ValueOption × String)
  operands : List String

namespace Given

def empty : Given :=
  ⟨false, [], []⟩

/-- The value of an option. -/
def value? (given : Given) (option : ValueOption) : Option String :=
  given.values.lookup option

/-- Note the flag for more output. -/
def noteVerbose (given : Given) : Except Invocation Given :=
  if given.verbose then .error .misuse else .ok { given with verbose := true }

/-- Note the value of an option. -/
def noteValue (given : Given) (option : ValueOption) (value : String) : Except Invocation Given :=
  if (given.value? option).isSome || (option.isPath && value.isEmpty) then .error .misuse
  else .ok { given with values := given.values ++ [(option, value)] }

/-- Note an operand. -/
def noteOperand (given : Given) (grammar : Grammar) (operand : String) : Except Invocation Given :=
  if grammar.takesFiles && operand.isEmpty then .error .misuse
  else if !grammar.takesFiles && !given.operands.isEmpty then .error .misuse
  else .ok { given with operands := given.operands ++ [operand] }

/-- The source of parameter values that the options give. -/
def source (given : Given) : Source where
  parametersFile := given.value? .parametersFile
  connection :=
    { endpoint := given.value? .endpoint
      region := given.value? .region
      profile := given.value? .profile }

end Given

/-- The arguments read so far, and the option whose value is the next argument. -/
abbrev Progress := Given × Option ValueOption

/-- Read an argument after its two dashes. -/
def readLong (grammar : Grammar) (given : Given) (text : List Char) :
    Except Invocation Progress := do
  let name := String.ofList (text.takeWhile (· ≠ '='))
  let value? :=
    match text.dropWhile (· ≠ '=') with
    | [] => none
    | _ :: value => some (String.ofList value)
  match grammar.options.find? (·.name == name), value? with
  | some option, some value => return (← given.noteValue option value, none)
  | some option, none =>
      if (given.value? option).isSome then throw .misuse else return (given, some option)
  | none, none =>
      match name with
      | "verbose" => return (← given.noteVerbose, none)
      | "help" => throw .help
      | _ => throw .misuse
  | none, some _ => throw .misuse

/-- Read a cluster of one-letter names after its dash. -/
def readCluster (grammar : Grammar) (given : Given) : List Char → Except Invocation Progress
  | [] => .ok (given, none)
  | letter :: rest =>
      match grammar.options.find? (·.letter? == some letter) with
      | some option =>
          match rest with
          | [] => if (given.value? option).isSome then .error .misuse else .ok (given, some option)
          | '=' :: value => (given.noteValue option (String.ofList value)).map (·, none)
          | value => (given.noteValue option (String.ofList value)).map (·, none)
      | none =>
          match letter with
          | 'v' => do readCluster grammar (← given.noteVerbose) rest
          | 'h' => .error .help
          | _ => .error .misuse

/-- The argument is an option, or ends the options. -/
def isOption (argument : String) : Bool :=
  match argument.toList with
  | '-' :: _ :: _ => true
  | _ => false

/-- Read the arguments of a command. -/
def readArguments (grammar : Grammar) : Progress → List String → Except Invocation Given
  | (given, none), [] => .ok given
  | (_, some _), [] => .error .misuse
  | (given, some option), argument :: rest => do
      if isOption argument then throw .misuse
      readArguments grammar (← given.noteValue option argument, none) rest
  | (given, none), argument :: rest =>
      match argument.toList with
      | ['-', '-'] => rest.foldlM (fun given operand ↦ given.noteOperand grammar operand) given
      | '-' :: '-' :: text => do readArguments grammar (← readLong grammar given text) rest
      | '-' :: letter :: letters => do
          readArguments grammar (← readCluster grammar given (letter :: letters)) rest
      | _ => do readArguments grammar (← given.noteOperand grammar argument, none) rest

/-- The command of a name and its arguments. -/
def readCommand (name : String) (arguments : List String) : Except Invocation (Command × Bool) := do
  match name with
  | "inject" =>
      let grammar : Grammar := ⟨[.format, .output, .select] ++ sourceOptions, true⟩
      let given ← readArguments grammar (.empty, none) arguments
      if given.operands.isEmpty then throw .misuse
      return (.fill given.operands ((given.value? .format).getD "yaml") (given.value? .output)
        (given.value? .select) given.source, given.verbose)
  | "get" =>
      let given ← readArguments ⟨.format :: sourceOptions, false⟩ (.empty, none) arguments
      match given.operands with
      | [path] =>
          return (.get path ((given.value? .format).getD "text") given.source, given.verbose)
      | _ => throw .misuse
  | "check" =>
      let given ← readArguments ⟨[], true⟩ (.empty, none) arguments
      if given.operands.isEmpty then throw .misuse
      return (.check given.operands, given.verbose)
  | "help" => throw .help
  | _ => throw .misuse

/-- Read the flags of a cluster before the command. -/
def readOuterCluster (verbose : Bool) : List Char → Except Invocation Bool
  | [] => .ok verbose
  | 'v' :: rest => if verbose then .error .misuse else readOuterCluster true rest
  | 'V' :: _ => .error .version
  | 'h' :: _ => .error .help
  | _ => .error .misuse

/-- Read flags up to the command, and the command. -/
def readInvocation (verbose : Bool) : List String → Except Invocation (Command × Bool)
  | [] => .error .misuse
  | argument :: rest =>
      match argument.toList with
      | '-' :: '-' :: _ =>
          match argument with
          | "--verbose" => if verbose then .error .misuse else readInvocation true rest
          | "--version" => .error .version
          | "--help" => .error .help
          | _ => .error .misuse
      | '-' :: letter :: letters => do
          readInvocation (← readOuterCluster verbose (letter :: letters)) rest
      | _ => (readCommand argument rest).map fun (command, inner) ↦ (command, verbose || inner)

/-- What the arguments of the program come to. -/
def Invocation.ofArguments (arguments : List String) : Invocation :=
  match readInvocation false arguments with
  | .ok (command, verbose) => .run command verbose
  | .error invocation => invocation

end Command

end ConfigFill
