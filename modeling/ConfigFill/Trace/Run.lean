import ConfigFill.Failure
import ConfigFill.Trace.Record

/-!
# Runs

What an operation does besides answering: the paths it asks a parameter store for, the requests
that reach a remote service, and the log records it writes, all in the order in which they happen.
An `Effect` is an operation with its trace. It is a function of the paths that were asked before it,
so that a store may answer according to what it was asked earlier.
-/

namespace ConfigFill

/-- A request that reaches the parameter service. -/
inductive Request where
  | parameter (name : String) (decrypted : Bool)
  | page (path : String) (decrypted recursive : Bool) (token : Option String)
  deriving DecidableEq, Repr

/-- One thing that an operation does. -/
inductive Event where
  | query (path : String)
  | request (request : Request)
  | log (record : LogRecord)
  deriving DecidableEq, Repr

/-- The events of an operation in the order in which they happen. -/
abbrev Trace := List Event

namespace Trace

/-- The paths asked of the store. -/
def queries (trace : Trace) : List String :=
  trace.filterMap fun
    | .query path => some path
    | _ => none

/-- The requests that reached the service. -/
def requests (trace : Trace) : List Request :=
  trace.filterMap fun
    | .request request => some request
    | _ => none

/-- The log records written. -/
def records (trace : Trace) : List LogRecord :=
  trace.filterMap fun
    | .log record => some record
    | _ => none

end Trace

/-- An operation with its trace: given the paths asked before it, what it does and how it ends. -/
def Effect (ε α : Type) := List String → Trace × Except ε α

namespace Effect

variable {ε δ α β : Type}

/-- End with a result and do nothing. -/
def pure (value : α) : Effect ε α :=
  fun _ ↦ ([], .ok value)

/-- End with a failure and do nothing. -/
def fail (failure : ε) : Effect ε α :=
  fun _ ↦ ([], .error failure)

/-- One operation and then another on its result; a failure ends both. -/
def bind (first : Effect ε α) (next : α → Effect ε β) : Effect ε β := fun earlier ↦
  let (events, result) := first earlier
  match result with
  | .ok value =>
      let (later, final) := next value (earlier ++ Trace.queries events)
      (events ++ later, final)
  | .error failure => (events, .error failure)

instance : Monad (Effect ε) where
  pure := pure
  bind := bind

/-- End as an `Except` value says. -/
def ofExcept (result : Except ε α) : Effect ε α :=
  fun _ ↦ ([], result)

/-- Do these things. -/
def emit (events : Trace) : Effect ε Unit :=
  fun _ ↦ (events, .ok ())

/-- Write one log record. -/
def log (record : LogRecord) : Effect ε Unit :=
  emit [.log record]

/-- Write log records in order. -/
def logAll (records : List LogRecord) : Effect ε Unit :=
  emit (records.map .log)

/-- The same operation with another failure where it fails. -/
def mapFailure (change : ε → δ) (run : Effect ε α) : Effect δ α := fun earlier ↦
  let (events, result) := run earlier
  (events, result.mapError change)

/-- The trace and the outcome of an operation that nothing went before. -/
def start (run : Effect ε α) : Trace × Except ε α :=
  run []

end Effect

/-- An operation that can fail for one of the causes of this library. -/
abbrev Run := Effect Failure

end ConfigFill
