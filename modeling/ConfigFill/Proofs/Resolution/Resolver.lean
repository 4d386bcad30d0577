import ConfigFill.Proofs.Filling.Reference
import ConfigFill.Proofs.Placeholder.Parts
import ConfigFill.Resolution.Resolver

/-!
# One path, two ways

A parameter path can be resolved on its own, or as the placeholder that a document consists of. The
two do the same: the second goes through the grammar of placeholders, but the grammar gives every
path back whole (`parse_scheme_append`), and without a suffix and a mark for JSON nothing is made of
the value. The main statement is `fill_root_eq_resolve`.
-/

namespace ConfigFill

namespace Placeholder

/-- The scheme and a path make a placeholder of just this path, whatever the path holds besides
bars. -/
theorem parse_scheme_append {path : String} {first : Char} {rest : List Char}
    (hpath : path.toList = '/' :: first :: rest) (hfirst : isSegmentStart first = true)
    (hbar : '|' ∉ path.toList) :
    parse (scheme false ++ path) = some ⟨scheme false ++ path, false, path, none⟩ := by
  have hnone : IsSuffix none := fun _ h ↦ nomatch h
  have hparse : parse (text false path none) = _ := parse_text hpath hfirst hbar hnone
  simpa only [text, String.append_empty] using hparse

/-- Without a suffix and a mark for JSON, a placeholder stands for the value of its path. -/
theorem replacement_plain (environment : Environment) (store : Store) (matched path : String) :
    replacement environment store ⟨matched, false, path, none⟩ =
      environment.expand path >>= store.lookup := by
  have hplain (expanded : String) :
      (store.lookup expanded >>= fun value ↦
        Effect.ofExcept (applied ⟨matched, false, path, none⟩ expanded value)) =
      store.lookup expanded := bind_pure (store.lookup expanded)
  simp only [replacement, hplain]

end Placeholder

namespace Resolver

variable {resolver : Resolver} {environment : Environment} {path : String} {first : Char}
  {rest : List Char}

/-- Filling a tree that is a plain placeholder meets it and then resolves its path. -/
theorem fill_root_apply (hpath : path.toList = '/' :: first :: rest)
    (hfirst : Placeholder.isSegmentStart first = true) (hbar : '|' ∉ path.toList)
    (earlier : List String) :
    resolver.fill environment (.string ("aws-ssm:/" ++ path)) earlier =
      (.log (.placeholderMet "<root>" ("aws-ssm:/" ++ path)) ::
          (resolver.resolve environment path earlier).1,
        (resolver.resolve environment path earlier).2.mapError (·.located "<root>")) := by
  have hparse : Placeholder.parse ("aws-ssm:/" ++ path) =
      some ⟨"aws-ssm:/" ++ path, false, path, none⟩ :=
    Placeholder.parse_scheme_append hpath hfirst hbar
  have hshown : Tree.Path.shown [] = "<root>" := rfl
  simp only [Resolver.fill, Tree.fill, Tree.fillAt, Tree.fillString, hparse, hshown]
  rw [Effect.log_bind_apply, Placeholder.replacement_plain]
  rfl

end Resolver

end ConfigFill
