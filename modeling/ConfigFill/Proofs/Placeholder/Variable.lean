import ConfigFill.Placeholder.Variable
import ConfigFill.Proofs.Trace.Settled
import ConfigFill.Text.Segments
import Mathlib.Data.List.TakeWhile

/-!
# The leftmost variable of a path

Where the leftmost variable token of a text is, said by cutting the text (`of_eq_some_iff`,
`of_eq_none_iff`), and what comes of expanding a path: `Expands` says it by that token and by what
the environment has for the variable, and `expands_iff` that the program does just that. Expanding
keeps the slash that a path begins with (`Expands.head`).
-/

namespace ConfigFill

namespace VariableSplit

/-- The text is a variable token of the name with this after it. -/
def StartsToken (text name after : List Char) : Prop :=
  text = '$' :: '\x7b' :: (name ++ '\x7d' :: after) ∧ name ≠ [] ∧ '\x7d' ∉ name

/-- A token is read exactly where the text is one with a rest after it. -/
theorem token_eq_some_iff {text name after : List Char} :
    token? text = some (name, after) ↔ StartsToken text name after := by
  constructor
  · intro h
    unfold token? at h
    split at h
    · rename_i rest
      have hcut := List.takeWhile_append_dropWhile (p := (· ≠ '\x7d')) (l := rest)
      cases hdrop : rest.dropWhile (· ≠ '\x7d') with
      | nil =>
          simp only [hdrop] at h
          cases h
      | cons close others =>
          have hne : rest.dropWhile (· ≠ '\x7d') ≠ [] := hdrop ▸ List.cons_ne_nil _ _
          have hhead := List.head_dropWhile_not (· ≠ '\x7d') hne
          simp only [hdrop, List.head_cons, decide_eq_false_iff_not, ne_eq, not_not] at hhead
          subst hhead
          rw [hdrop] at hcut
          simp only [hdrop] at h
          split at h
          · cases h
          · rename_i hname
            cases h
            refine ⟨by rw [hcut], by simpa using hname, fun hmem ↦ ?_⟩
            simpa using List.mem_takeWhile_imp hmem
    · cases h
  · rintro ⟨rfl, hne, hmem⟩
    have htake := Text.take_while_ne_cut hmem after
    have hdrop := Text.drop_while_ne_cut hmem after
    have hname : name.isEmpty = false := by simpa using hne
    simp only [token?, htake, hdrop, hname, Bool.false_eq_true, if_false]

/-- A variable token begins at the position. -/
def TokenAt (text : List Char) (position : Nat) : Prop :=
  ∃ name after, StartsToken (text.drop position) name after

/-- The text is what stands before a variable token, the token and what stands after it, and no
token begins earlier. -/
def IsLeftmost (text before name after : List Char) : Prop :=
  (∃ rest, text = before ++ rest ∧ StartsToken rest name after) ∧
    ∀ position < before.length, ¬ TokenAt text position

/-- No token is read exactly if none begins at the start of the text. -/
theorem token_eq_none_iff {text : List Char} : token? text = none ↔ ¬ TokenAt text 0 := by
  rw [Option.eq_none_iff_forall_ne_some]
  constructor
  · rintro h ⟨name, after, htoken⟩
    exact h (name, after) (token_eq_some_iff.2 htoken)
  · rintro h ⟨name, after⟩ htoken
    exact h ⟨name, after, token_eq_some_iff.1 htoken⟩

/-- The leftmost token is found exactly where it is. -/
theorem leftmost_eq_some_iff {text before name after : List Char} :
    leftmost? text = some (before, name, after) ↔ IsLeftmost text before name after := by
  induction text generalizing before with
  | nil =>
      constructor
      · intro h
        cases h
      · rintro ⟨⟨rest, heq, hstarts, _⟩, _⟩
        rw [hstarts] at heq
        simp at heq
  | cons character rest ih =>
      unfold leftmost?
      cases htoken : token? (character :: rest) with
      | some token =>
          have hstarts := token_eq_some_iff.1 htoken
          constructor
          · intro h
            cases h
            exact ⟨⟨_, rfl, hstarts⟩, fun _ hlt ↦ absurd hlt (Nat.not_lt_zero _)⟩
          · rintro ⟨⟨others, heq, hothers⟩, hfirst⟩
            have hbefore : before = [] := by
              rw [← List.length_eq_zero_iff]
              refine Nat.eq_zero_of_not_pos fun hpos ↦ hfirst 0 hpos ⟨_, _, hstarts⟩
            subst hbefore
            rw [List.nil_append] at heq
            rw [← heq] at hothers
            have hsame := htoken.symm.trans (token_eq_some_iff.2 hothers)
            cases hsame
            rfl
      | none =>
          have hnone := token_eq_none_iff.1 htoken
          simp only [Option.map_eq_some_iff]
          constructor
          · rintro ⟨⟨front, name, after⟩, hrest, heq⟩
            cases heq
            obtain ⟨⟨others, rfl, hstarts⟩, hfirst⟩ := ih.1 hrest
            refine ⟨⟨others, rfl, hstarts⟩, fun position hlt ↦ ?_⟩
            cases position with
            | zero => exact hnone
            | succ position => exact hfirst position (Nat.lt_of_succ_lt_succ hlt)
          · rintro ⟨⟨others, heq, hstarts⟩, hfirst⟩
            cases before with
            | nil =>
                rw [List.nil_append] at heq
                exact absurd ⟨name, after, heq ▸ hstarts⟩ hnone
            | cons first front =>
                cases heq
                refine ⟨(front, name, after), ih.2 ⟨⟨others, rfl, hstarts⟩, ?_⟩, rfl⟩
                exact fun position hlt ↦ hfirst (position + 1) (Nat.succ_lt_succ hlt)

/-- No token is found exactly if none begins anywhere. -/
theorem leftmost_eq_none_iff {text : List Char} :
    leftmost? text = none ↔ ∀ position, ¬ TokenAt text position := by
  constructor
  · intro h position
    induction text generalizing position with
    | nil =>
        rintro ⟨name, after, heq, _⟩
        rw [List.drop_nil] at heq
        cases heq
    | cons character rest ih =>
        unfold leftmost? at h
        split at h
        · cases h
        · rename_i hnone
          cases position with
          | zero => exact token_eq_none_iff.1 hnone
          | succ position => exact ih (Option.map_eq_none_iff.1 h) position
  · intro h
    rw [Option.eq_none_iff_forall_ne_some]
    rintro ⟨before, name, after⟩ hsome
    obtain ⟨⟨rest, rfl, hstarts⟩, _⟩ := leftmost_eq_some_iff.1 hsome
    refine h before.length ⟨name, after, ?_⟩
    rwa [List.drop_left]

/-- The split is that of the text at its first variable token. -/
def IsFirst (split : VariableSplit) (text : String) : Prop :=
  IsLeftmost text.toList split.before.toList split.name.toList split.after.toList

/-- A path is split exactly at its first variable token. -/
theorem of_eq_some_iff {text : String} {split : VariableSplit} :
    of? text = some split ↔ split.IsFirst text := by
  rw [IsFirst, ← leftmost_eq_some_iff, of?, Option.map_eq_some_iff]
  constructor
  · rintro ⟨⟨before, name, after⟩, hparts, rfl⟩
    simpa using hparts
  · intro hparts
    exact ⟨_, hparts, by simp⟩

/-- A path is not split exactly if it has no variable token. -/
theorem of_eq_none_iff {text : String} :
    of? text = none ↔ ∀ position, ¬ TokenAt text.toList position := by
  rw [of?, Option.map_eq_none_iff, leftmost_eq_none_iff]

end VariableSplit

namespace Environment

open VariableSplit (TokenAt)

/-- The environment has nothing to put in place of a variable: it is unset, or its value is empty or
no valid UTF-8. -/
inductive Lacks (environment : Environment) (name : String) : Prop where
  | unset (h : isName name = true → environment.bytes? name = none)
  | notText {bytes : ByteArray} (h : environment.bytes? name = some bytes)
      (hbytes : String.fromUTF8? bytes = none)
  | empty (h : environment.bytes? name = some .empty)

/-- How the expansion of a path ends: with the path itself if it has no variable token, and else as
the environment says of the first. -/
inductive Expands (environment : Environment) (path : String) : Except Failure String → Prop where
  | unchanged (h : ∀ position, ¬ TokenAt path.toList position) : Expands environment path (.ok path)
  | replaced {split : VariableSplit} {value : String} (hsplit : split.IsFirst path)
      (h : environment.text? split.name = some value) (hvalue : value ≠ "") :
      Expands environment path (.ok (split.before ++ value ++ split.after))
  | lacking {split : VariableSplit} (hsplit : split.IsFirst path)
      (h : environment.Lacks split.name) :
      Expands environment path (.error (.of (.variableNotFound split.name)))

variable {environment : Environment} {name path : String}

/-- Bytes are read as a text exactly if they are its bytes. -/
theorem from_utf8_eq_some_iff {bytes : ByteArray} {value : String} :
    String.fromUTF8? bytes = some value ↔ bytes = value.toUTF8 := by
  unfold String.fromUTF8?
  constructor
  · intro h
    split at h
    · exact congrArg String.toByteArray (Option.some.inj h)
    · cases h
  · rintro rfl
    exact dif_pos value.isValidUTF8

/-- Only no bytes are read as the empty text. -/
theorem from_utf8_eq_empty_iff {bytes : ByteArray} :
    String.fromUTF8? bytes = some "" ↔ bytes = .empty :=
  from_utf8_eq_some_iff

/-- A variable that is not lacking has a text that is not empty. -/
theorem lacks_iff :
    environment.Lacks name ↔ ∀ value, environment.text? name = some value → value = "" := by
  unfold text?
  constructor
  · intro h value
    cases h with
    | unset h => by_cases hname : isName name = true <;> simp [hname, h]
    | notText h hbytes => simp [h, hbytes]
    | empty h => simp [h, from_utf8_eq_empty_iff.2]
  · intro h
    by_cases hname : isName name = true
    · simp only [hname, if_true] at h
      cases hbytes : environment.bytes? name with
      | none => exact .unset fun _ ↦ hbytes
      | some bytes =>
          cases htext : String.fromUTF8? bytes with
          | none => exact .notText hbytes htext
          | some value =>
              obtain rfl := h value (by rw [hbytes]; exact htext)
              rw [from_utf8_eq_empty_iff] at htext
              exact .empty (htext ▸ hbytes)
    · exact .unset fun hname' ↦ absurd hname' hname

/-- Without a variable token, nothing is done. -/
theorem expand_apply_unchanged (environment : Environment)
    (h : ∀ position, ¬ TokenAt path.toList position) (earlier : List String) :
    environment.expand path earlier = ([], .ok path) := by
  rw [← VariableSplit.of_eq_none_iff] at h
  rw [expand, h]
  rfl

/-- With a value for the variable, the one thing that is done is to note the variable. -/
theorem expand_apply_replaced {split : VariableSplit} {value : String}
    (hsplit : split.IsFirst path) (h : environment.text? split.name = some value)
    (hvalue : value ≠ "") (earlier : List String) :
    environment.expand path earlier =
      ([.log (.variableExpanded split.name)], .ok (split.before ++ value ++ split.after)) := by
  rw [← VariableSplit.of_eq_some_iff] at hsplit
  have hempty : value.isEmpty = false := by simpa using hvalue
  rw [expand, hsplit]
  simp only [h, hempty]
  rfl

/-- Without a value for the variable, the expansion fails and does nothing. -/
theorem expand_apply_lacking {split : VariableSplit} (hsplit : split.IsFirst path)
    (h : environment.Lacks split.name) (earlier : List String) :
    environment.expand path earlier = ([], .error (.of (.variableNotFound split.name))) := by
  rw [← VariableSplit.of_eq_some_iff] at hsplit
  rw [lacks_iff] at h
  rw [expand, hsplit]
  cases htext : environment.text? split.name with
  | none =>
      simp only [htext]
      rfl
  | some value =>
      obtain rfl := h value htext
      simp only [htext]
      rfl

/-- A path without a variable token stays as it is. -/
theorem expand_unchanged (environment : Environment)
    (h : ∀ position, ¬ TokenAt path.toList position) :
    (environment.expand path).start.2 = .ok path :=
  congrArg Prod.snd (environment.expand_apply_unchanged h [])

/-- The value of the first variable is put in place of its token. -/
theorem expand_replaced {split : VariableSplit} {value : String} (hsplit : split.IsFirst path)
    (h : environment.text? split.name = some value) (hvalue : value ≠ "") :
    (environment.expand path).start.2 = .ok (split.before ++ value ++ split.after) :=
  congrArg Prod.snd (expand_apply_replaced hsplit h hvalue [])

/-- A path whose first variable is lacking cannot be expanded. -/
theorem expand_lacking {split : VariableSplit} (hsplit : split.IsFirst path)
    (h : environment.Lacks split.name) :
    (environment.expand path).start.2 = .error (.of (.variableNotFound split.name)) :=
  congrArg Prod.snd (expand_apply_lacking hsplit h [])

/-- The expansion of a path has just the end that it should. -/
theorem expands_iff {outcome : Except Failure String} :
    environment.Expands path outcome ↔ (environment.expand path).start.2 = outcome := by
  constructor
  · intro h
    cases h with
    | unchanged h => exact environment.expand_unchanged h
    | replaced hsplit h hvalue => exact expand_replaced hsplit h hvalue
    | lacking hsplit h => exact expand_lacking hsplit h
  · rintro rfl
    cases hsplit : VariableSplit.of? path with
    | none =>
        have htokens := VariableSplit.of_eq_none_iff.1 hsplit
        rw [environment.expand_unchanged htokens]
        exact .unchanged htokens
    | some split =>
        have hfirst := VariableSplit.of_eq_some_iff.1 hsplit
        by_cases hlacks : environment.Lacks split.name
        · rw [expand_lacking hfirst hlacks]
          exact .lacking hfirst hlacks
        · rw [lacks_iff, not_forall] at hlacks
          obtain ⟨value, hlacks⟩ := hlacks
          obtain ⟨htext, hvalue⟩ := Classical.not_imp.1 hlacks
          rw [expand_replaced hfirst htext hvalue]
          exact .replaced hfirst htext hvalue

/-- Expanding a path keeps the slash that it begins with. -/
theorem Expands.head {expanded : String} (h : environment.Expands path (.ok expanded))
    (hpath : path.toList.head? = some '/') : expanded.toList.head? = some '/' := by
  cases h with
  | unchanged _ => exact hpath
  | @replaced split value hsplit _ _ =>
      obtain ⟨⟨rest, heq, hstarts, _⟩, _⟩ := hsplit
      rw [heq] at hpath
      rw [String.toList_append, String.toList_append]
      cases hbefore : split.before.toList with
      | nil =>
          -- The token itself begins with another character.
          rw [hbefore, hstarts] at hpath
          simp at hpath
      | cons first before =>
          rw [hbefore] at hpath
          exact hpath

end Environment

end ConfigFill
