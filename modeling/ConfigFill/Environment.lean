/-!
# Environment variables

An environment gives each name that is set its value as bytes. A value is of use as a text only if
its bytes are valid UTF-8, and a name that holds an equals sign or a NUL names no variable.
-/

namespace ConfigFill

/-- The variables of a process: the bytes of every name that is set. -/
structure Environment where
  bytes? : String → Option ByteArray

namespace Environment

/-- Nothing is set. -/
def empty : Environment :=
  ⟨fun _ ↦ none⟩

/-- The environment with one more variable, or another value for one. -/
def set (environment : Environment) (name : String) (value : ByteArray) : Environment :=
  ⟨fun other ↦ if other = name then some value else environment.bytes? other⟩

/-- The environment without a variable. -/
def unset (environment : Environment) (name : String) : Environment :=
  ⟨fun other ↦ if other = name then none else environment.bytes? other⟩

/-- The name can be that of a variable. -/
def isName (name : String) : Bool :=
  !name.toList.any fun character ↦ character == '=' || character == '\x00'

/-- The value of a variable as a text. -/
def text? (environment : Environment) (name : String) : Option String :=
  if isName name then (environment.bytes? name).bind String.fromUTF8? else none

end Environment

end ConfigFill
