import ConfigFill.Text.Quoted
import ConfigFill.Text.Terminal

/-!
# Log records

What a log can say, as data: each record knows its level, the part of the program it speaks for and
its text. Records carry names, paths and counts; none carries the value of a parameter.
-/

namespace ConfigFill

/-- How much a log record matters. -/
inductive Level where
  | debug
  | trace
  deriving DecidableEq, Repr

/-- The name of a level in log lines. -/
def Level.label : Level → String
  | debug => "DEBUG"
  | trace => "TRACE"

/-- Where to reach a parameter service; what is not given is left to its own defaults. -/
structure Connection where
  endpoint : Option String
  region : Option String
  profile : Option String
  deriving DecidableEq, Repr, Inhabited

/-- Something worth a line in the log. -/
inductive LogRecord where
  | placeholderMet (location text : String)
  | storeAsked (store path : String)
  | parametersFound (count : Nat) (path : String)
  | parentProbed (path parent : String)
  | variableExpanded (name : String)
  | parameterDropped (name path : String)
  | fileLoaded (name : String)
  | connectionBuilt (connection : Connection)
  | serviceAnswered (count : Nat) (path : String)
  | parametersFileUsed (count : Nat)
  | fillingStarted (store : String)
  deriving DecidableEq, Repr

namespace LogRecord

def level : LogRecord → Level
  | placeholderMet .. | storeAsked .. | parametersFound .. | fileLoaded .. | connectionBuilt ..
  | parametersFileUsed .. | fillingStarted .. => .debug
  | parentProbed .. | variableExpanded .. | parameterDropped .. | serviceAnswered .. => .trace

/-- The part of the program that a record speaks for. -/
def target : LogRecord → String
  | placeholderMet .. => "ssm_inject_core::inject"
  | storeAsked .. | parametersFound .. | parentProbed .. => "ssm_inject_core::resolve"
  | variableExpanded .. => "ssm_inject_core::path"
  | parameterDropped .. => "ssm_inject_core::reconcile"
  | fileLoaded .. => "ssm_inject_core::document"
  | connectionBuilt .. | serviceAnswered .. => "ssm_inject_aws::ssm"
  | parametersFileUsed .. | fillingStarted .. => "ssm_inject_cli::cli"

/-- The text of a record, without level and target. -/
def message : LogRecord → String
  | placeholderMet location text => s!"Placeholder at {location}: {text}"
  | storeAsked store path => s!"Querying '{store}' for {path}"
  | parametersFound count path => s!"{count} parameter(s) under {path}"
  | parentProbed path parent => s!"Nothing under {path}, probing parent {parent}"
  | variableExpanded name => "Expanded $\x7b" ++ name ++ "\x7d in parameter path"
  | parameterDropped name path =>
      s!"Dropped parameter '{name}' below '{path}': no mapping to place it in"
  | fileLoaded name => s!"Loaded {name}"
  | connectionBuilt connection =>
      let shown (setting : Option String) : String := setting.getD "<sdk default>"
      "Building SSM client (region: " ++ shown connection.region ++ ", profile: " ++
        shown connection.profile ++ ", endpoint: " ++ shown connection.endpoint ++ ")"
  | serviceAnswered count path => s!"SSM returned {count} parameter(s) for {path}"
  | parametersFileUsed count => s!"Using local parameters file count={count}"
  | fillingStarted store => "Resolving placeholders store=" ++ Text.quoted store

/-- The record as a line of a log on a terminal. -/
def line (record : LogRecord) : String :=
  record.level.label ++ " " ++ record.target ++ ": " ++ Text.terminalText record.message

end LogRecord

end ConfigFill
