import ConfigFill.Resolution.Filling

/-!
# Resolvers

A resolver is a store in use: it fills trees, looks up paths, with or without a variable in them,
and lists what the store holds.
-/

namespace ConfigFill

/-- A store in use. -/
structure Resolver where
  store : Store

namespace Resolver

/-- The name of the store. -/
def name (resolver : Resolver) : String :=
  resolver.store.name

/-- The tree with every placeholder replaced. -/
def fill (resolver : Resolver) (environment : Environment) (tree : Tree) : Run Tree :=
  tree.fill environment resolver.store

/-- The value of a path as it stands. -/
def lookup (resolver : Resolver) (path : String) : Run Tree :=
  resolver.store.lookup path

/-- The value of a path whose variable is expanded first. -/
def resolve (resolver : Resolver) (environment : Environment) (path : String) : Run Tree := do
  resolver.store.lookup (← environment.expand path)

/-- The parameters at or below a path, as the store lists them. -/
def query (resolver : Resolver) (path : String) : Run (List Parameter) :=
  resolver.store.query path

/-- What the resolver is, for a reader of logs. -/
def description (resolver : Resolver) : String :=
  "Injector \x7b store: " ++ Text.quoted resolver.name ++ " \x7d"

end Resolver

end ConfigFill
