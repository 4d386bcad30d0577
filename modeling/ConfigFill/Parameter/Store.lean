import ConfigFill.Trace.Run

/-!
# Parameter stores

A store is asked for the parameters at or below a path. It answers with a list in any order, or
fails. What it answers may depend on the paths asked before, and answering may leave a trace of its
own.
-/

namespace ConfigFill

/-- A named text in a parameter store. -/
structure Parameter where
  name : String
  value : String
  deriving DecidableEq, Repr, Inhabited

/-- What a store does on being asked, and what it answers. -/
structure Reply where
  events : Trace
  result : Except Failure (List Parameter)

/-- A parameter store: its name in messages, and its reply to a path given those asked earlier. -/
structure Store where
  name : String
  answer : (earlier : List String) → (path : String) → Reply

namespace Store

/-- Ask for the parameters at or below a path. -/
def query (store : Store) (path : String) : Run (List Parameter) := fun earlier ↦
  let reply := store.answer earlier path
  (.query path :: reply.events, reply.result)

/-- A store that answers each path in one way and leaves no trace. -/
def ofFunction (name : String) (answer : String → Except Failure (List Parameter)) : Store where
  name := name
  answer := fun _ path ↦ ⟨[], answer path⟩

end Store

end ConfigFill
