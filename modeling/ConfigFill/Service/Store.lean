import ConfigFill.Service.Settings
import ConfigFill.Service.Tables

/-!
# The service as a store

Asked for a path, the store first asks the service for the parameter of that name, unless the path
is the root, and then for all pages of the parameters below it. A fault on the way fails the whole
query: what was gathered before it is not handed out. Of the entries of a page, those with a name
and a value are parameters (`Entry.complete_eq_some_iff`).
-/

namespace ConfigFill.Service

/-- The name of the store in messages. -/
def storeName : String :=
  "ssm"

/-- The failure of a request that the service did not answer. -/
def requestFailure (request path : String) : Failure :=
  .of (.store storeName s!"{request} '{path}'")

/-- Note a request that reached the service. -/
def noteRequest (request : Request) : Run Unit :=
  .emit [.request request]

/-- The parameter that an entry gives, if it has a value; `name` stands in for a missing name. -/
def Entry.named (entry : Entry) (name : String) : Option Parameter :=
  entry.value.map fun value ↦ ⟨entry.name.getD name, value⟩

/-- The parameter that an entry gives, if it has both a name and a value. -/
def Entry.complete? (entry : Entry) : Option Parameter :=
  match entry.name, entry.value with
  | some name, some value => some ⟨name, value⟩
  | _, _ => none

/-- An entry gives a parameter exactly if it has both a name and a value, and then one with these. -/
theorem Entry.complete_eq_some_iff {entry : Entry} {parameter : Parameter} :
    entry.complete? = some parameter ↔
      entry.name = some parameter.name ∧ entry.value = some parameter.value := by
  obtain ⟨name, value⟩ := parameter
  obtain ⟨_ | _, _ | _⟩ := entry <;> simp [complete?]

/-- An entry without a name or without a value gives none. -/
theorem Entry.complete_eq_none_iff {entry : Entry} :
    entry.complete? = none ↔ entry.name = none ∨ entry.value = none := by
  obtain ⟨_ | _, _ | _⟩ := entry <;> simp [complete?]

/-- Ask for the parameter of exactly this name. -/
def fetchExact (service : Service) (name : String) : Run (Option Parameter) :=
  let request := Request.parameter name true
  match service.parameter name with
  | .unreachable => .fail (requestFailure "GetParameter" name)
  | .fault => do
      noteRequest request
      .fail (requestFailure "GetParameter" name)
  | .found entry => do
      noteRequest request
      return entry.named name
  | _ => do
      noteRequest request
      return none

/-- Ask for pages from a token on, at most `fuel` of them. An empty token ends the pages like none
at all. -/
def fetchPages (service : Service) (path : String) :
    Nat → Option String → Run (List Parameter)
  | 0, _ => return []
  | fuel + 1, token =>
      let request := Request.page path true true token
      match service.page path token with
      | .unreachable => .fail (requestFailure "GetParametersByPath" path)
      | .fault => do
          noteRequest request
          .fail (requestFailure "GetParametersByPath" path)
      | .page entries next => do
          noteRequest request
          let parameters := entries.filterMap Entry.complete?
          match next with
          | some token =>
              if token.isEmpty then return parameters
              else return parameters ++ (← fetchPages service path fuel (some token))
          | none => return parameters

/-- Ask for the parameters at and below a path. -/
def fetch (service : Service) (path : String) : Run (List Parameter) := do
  let exact ← if path = "/" then pure none else fetchExact service path
  let below ← fetchPages service path (service.pageBound path) none
  let parameters := exact.toList ++ below
  .log (.serviceAnswered parameters.length path)
  return parameters

/-- The service as a store. -/
def store (service : Service) : Store where
  name := storeName
  answer earlier path :=
    let (events, result) := fetch service path earlier
    ⟨events, result⟩

/-- Connect to the service with the settings in effect. -/
def connect (service : Service) (connection : Connection) : Run Store := do
  .log (.connectionBuilt connection)
  return service.store

end ConfigFill.Service
