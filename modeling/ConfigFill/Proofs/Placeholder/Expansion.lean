import ConfigFill.Proofs.Placeholder.Variable
import ConfigFill.Proofs.Text.Pattern

/-!
# Expanding the leftmost variable

A path has at most one leftmost variable token, and a search for the pattern of tokens finds it
(`search_eq_of`). Expanding the path puts the value of this one variable in place of its token, or
fails if there is no value to put. The main statement is `expand_replaces_leftmost`.
-/

namespace ConfigFill

namespace VariableSplit

open Text (Pattern)

/-- The pattern of variable tokens: `\$\{([^}]+)\}`. -/
def pattern : Pattern :=
  .sequence (.literal "$\x7b") (.sequence (.group 1 (.atLeastOne (· ≠ '\x7d'))) (.literal "\x7d"))

/-- The parts of a text at a match of the pattern: what is before it, its name and what is after
it. -/
def partsAt? (before : List Char) (found : Text.Match) : Option (List Char × List Char × List Char) :=
  (found.group? 1).map fun name ↦ (before, name, found.rest)

/-- The text split at the leftmost match of the pattern. -/
def search? (text : String) : Option VariableSplit :=
  ((pattern.search? text.toList).bind fun place ↦ partsAt? place.1 place.2).map fun parts ↦
    ⟨String.ofList parts.1, String.ofList parts.2.1, String.ofList parts.2.2⟩

variable {text name after : List Char}

/-- The pattern of a variable takes just the token where there is one. -/
theorem first_of_starts_token (h : StartsToken text name after) :
    pattern.first? text =
      some ⟨['$', '\x7b'] ++ (name ++ ['\x7d']), [(1, name)], after⟩ := by
  obtain ⟨rfl, hne, hmem⟩ := h
  have hopening : (Pattern.literal "$\x7b").first? ('$' :: '\x7b' :: (name ++ '\x7d' :: after)) =
      some ⟨['$', '\x7b'], [], name ++ '\x7d' :: after⟩ := Pattern.first_literal "$\x7b" _
  have hname : (Pattern.group 1 (.atLeastOne (· ≠ '\x7d'))).first? (name ++ '\x7d' :: after) =
      some ⟨name, [(1, name)], '\x7d' :: after⟩ := by
    rw [Pattern.first_group, Pattern.first_at_least_one, Text.take_while_ne_cut hmem,
      Text.drop_while_ne_cut hmem, if_neg hne]
    rfl
  have hclosing : (Pattern.literal "\x7d").first? ('\x7d' :: after) = some ⟨['\x7d'], [], after⟩ :=
    Pattern.first_literal "\x7d" after
  exact Pattern.first_sequence hopening (Pattern.first_sequence hname hclosing)

/-- Where the pattern matches, a token begins. -/
theorem token_at_of_first {found : Text.Match} (h : pattern.first? text = some found) :
    TokenAt text 0 := by
  obtain ⟨opening, hopening, _, hrest, _⟩ :=
    Pattern.mem_ways_sequence_iff.1 (Pattern.mem_ways_of_first h)
  obtain ⟨_, hgroup, closing, hclosing, _⟩ := Pattern.mem_ways_sequence_iff.1 hrest
  obtain ⟨inside, hinside, rfl⟩ := Pattern.mem_ways_group_iff.1 hgroup
  obtain ⟨hname, hne, hmem⟩ := Pattern.of_mem_ways_at_least_one hinside
  have hafter : inside.rest = '\x7d' :: closing.rest := (Pattern.mem_ways_literal_iff.1 hclosing).1
  refine ⟨inside.matched, closing.rest, ?_, hne, ?_⟩
  · rw [← hafter, ← hname]
    exact (Pattern.mem_ways_literal_iff.1 hopening).1
  · intro hbrace
    simpa using hmem _ hbrace

/-- Searching for the pattern finds the leftmost token. -/
theorem search_eq_leftmost (text : List Char) :
    ((pattern.search? text).bind fun place ↦ partsAt? place.1 place.2) = leftmost? text := by
  induction text with
  | nil => rfl
  | cons character rest ih =>
      rw [Pattern.search?, leftmost?]
      cases htoken : token? (character :: rest) with
      | some token =>
          rw [first_of_starts_token (token_eq_some_iff.1 htoken)]
          rfl
      | none =>
          have hfirst : pattern.first? (character :: rest) = none := by
            rw [Option.eq_none_iff_forall_ne_some]
            intro found hfound
            exact token_eq_none_iff.1 htoken (token_at_of_first hfound)
          rw [hfirst, ← ih]
          cases pattern.search? rest with
          | none => rfl
          | some place =>
              show partsAt? (character :: place.1) place.2 =
                (partsAt? place.1 place.2).map fun parts ↦ (character :: parts.1, parts.2)
              rw [partsAt?, partsAt?, Option.map_map]
              rfl

/-- The leftmost match of the pattern is the leftmost variable token. -/
theorem search_eq_of (text : String) : search? text = of? text := by
  rw [search?, search_eq_leftmost, of?]

/-- A token in a part of a text is one of the whole text. -/
theorem TokenAt.within {position : Nat} (h : TokenAt text position) (before after : List Char) :
    TokenAt (before ++ text ++ after) (before.length + position) := by
  obtain ⟨name, rest, hstarts, hne, hmem⟩ := h
  have hlt : position < text.length := by
    by_contra hge
    rw [List.drop_eq_nil_of_le (Nat.le_of_not_lt hge)] at hstarts
    cases hstarts
  refine ⟨name, rest ++ after, ?_, hne, hmem⟩
  rw [List.append_assoc, List.drop_length_add_append,
    List.drop_append_of_le_length (Nat.le_of_lt hlt), hstarts]
  simp

end VariableSplit

namespace Environment

open VariableSplit (TokenAt)

/-- The variable is set to the value, which is not empty, in UTF-8. -/
structure Provides (environment : Environment) (name value : String) : Prop where
  isName : isName name = true
  bytes : environment.bytes? name = some value.toUTF8
  nonempty : value ≠ ""

variable {environment : Environment} {name value path : String}

/-- The environment provides a value exactly if it has that text for the variable and the text is
not empty. -/
theorem provides_iff :
    environment.Provides name value ↔ environment.text? name = some value ∧ value ≠ "" := by
  unfold text?
  constructor
  · intro h
    rw [if_pos h.isName, h.bytes]
    exact ⟨from_utf8_eq_some_iff.2 rfl, h.nonempty⟩
  · intro h
    obtain ⟨htext, hne⟩ := h
    split at htext
    · rename_i hname
      obtain ⟨bytes, hbytes, htext⟩ := Option.bind_eq_some_iff.1 htext
      exact ⟨hname, from_utf8_eq_some_iff.1 htext ▸ hbytes, hne⟩
    · cases htext

/-- The environment lacks a variable exactly if it provides no value for it. -/
theorem lacks_iff_forall_not_provides :
    environment.Lacks name ↔ ∀ value, ¬ environment.Provides name value := by
  simp only [lacks_iff, provides_iff, not_and, not_not]

/-- A path without a variable token is left as it is. Any other is cut in one way at its leftmost
token, which is also where its pattern matches first, and the value of the variable goes in place of
the token if the variable is set to a text that is not empty; otherwise the expansion fails. What
goes there and what comes after it are not looked at again, so that tokens in them stay. -/
theorem expand_replaces_leftmost (environment : Environment) (path : String)
    (earlier : List String) :
    ((∀ position, ¬ TokenAt path.toList position) →
        environment.expand path earlier = ([], .ok path)) ∧
      ((∃ position, TokenAt path.toList position) →
        ∃! split : VariableSplit, split.IsFirst path) ∧
      ∀ split : VariableSplit, split.IsFirst path →
        path = split.before ++ "$\x7b" ++ split.name ++ "\x7d" ++ split.after ∧
          VariableSplit.search? path = some split ∧
          (∀ value, environment.Provides split.name value →
            environment.expand path earlier =
                ([.log (.variableExpanded split.name)],
                  .ok (split.before ++ value ++ split.after)) ∧
              (∀ position, TokenAt value.toList position →
                TokenAt (split.before ++ value ++ split.after).toList
                  (split.before.length + position)) ∧
              ∀ position, TokenAt split.after.toList position →
                TokenAt (split.before ++ value ++ split.after).toList
                  ((split.before ++ value).length + position)) ∧
          ((∀ value, ¬ environment.Provides split.name value) →
            environment.expand path earlier =
              ([], .error (.of (.variableNotFound split.name)))) := by
  refine ⟨fun h ↦ environment.expand_apply_unchanged h earlier, ?_, ?_⟩
  · intro h
    cases hsplit : VariableSplit.of? path with
    | none =>
        obtain ⟨position, htoken⟩ := h
        exact absurd htoken (VariableSplit.of_eq_none_iff.1 hsplit position)
    | some split =>
        refine ⟨split, VariableSplit.of_eq_some_iff.1 hsplit, fun other hother ↦ ?_⟩
        have hsame := VariableSplit.of_eq_some_iff.2 hother
        exact Option.some.inj (hsame.symm.trans hsplit)
  · intro split hsplit
    refine ⟨?_, ?_, ?_, ?_⟩
    · obtain ⟨⟨rest, hpath, hrest, _, _⟩, _⟩ := hsplit
      apply String.ext
      rw [hpath, hrest]
      simp
    · rw [VariableSplit.search_eq_of, VariableSplit.of_eq_some_iff]
      exact hsplit
    · intro value hvalue
      obtain ⟨htext, hne⟩ := provides_iff.1 hvalue
      refine ⟨expand_apply_replaced hsplit htext hne earlier, ?_, ?_⟩
      · intro position htoken
        have hwithin := htoken.within split.before.toList split.after.toList
        simpa [String.length_toList] using hwithin
      · intro position htoken
        have hwithin := htoken.within (split.before ++ value).toList []
        simpa [String.length_toList] using hwithin
    · intro hnone
      exact expand_apply_lacking hsplit (lacks_iff_forall_not_provides.2 hnone) earlier

end Environment

end ConfigFill
