import ConfigFill.Proofs.Tree.Path

/-!
# The grammar of paths

What the text of a path can be, said by the parts that it is put together from. A part is a text
without brackets, which is a key unless it is empty, and then groups of digits in brackets, each of
which is a position (`Part`, `Group`). A text is read exactly if it is parts with dots between them,
and then as the steps of the parts in turn (`of_text_eq_ok_iff`). Any other text is refused for what
is wrong with its first piece that is no part (`Flawed`, `of_text_eq_error_iff`). The steps that are
read are plain, so that the plain paths are the ones that are read back from their text. The main
statement is `of_text_accepts_grammar`.
-/

namespace ConfigFill.Tree.Path

/-! ## Groups and parts -/

/-- The digits of a position below 2^64, with a plus sign before them or without one. -/
structure Group where
  plus : Bool
  digits : List Char
  nonempty : digits ≠ []
  isDigit : ∀ digit ∈ digits, digit.isDigit = true
  small : Nat.ofDigitChars 10 digits 0 < Nat.pow 2 64

/-- What stands between two dots of a path: a text without brackets, which may be empty, and the
groups after it. -/
structure Part where
  name : List Char
  groups : List Group
  dot : '.' ∉ name
  opening : '[' ∉ name
  closing : ']' ∉ name

namespace Group

variable (group : Group)

/-- The characters between the brackets of a group. -/
def inside : List Char :=
  if group.plus then '+' :: group.digits else group.digits

/-- The characters of a group. -/
def text : List Char :=
  '[' :: group.inside ++ [']']

/-- The position that the digits of a group write. -/
def index : Nat :=
  Nat.ofDigitChars 10 group.digits 0

/-- The step that a group is read as. -/
def step : Step :=
  .position group.index

/-- What stands between brackets is digits and maybe a plus sign. -/
theorem not_mem_inside {character : Char} (hdigit : character.isDigit = false)
    (hplus : character ≠ '+') : character ∉ group.inside := by
  have hdigits : character ∉ group.digits := by
    intro hmem
    rw [group.isDigit character hmem] at hdigit
    cases hdigit
  unfold inside
  split
  · simp [hplus, hdigits]
  · exact hdigits

/-- There is no dot in a bracket group. -/
theorem dot_not_mem_text : '.' ∉ group.text := by
  have hinside : '.' ∉ group.inside := group.not_mem_inside (by decide) (by decide)
  simp [text, hinside]

/-- The texts that are read as a position are those between the brackets of a group. -/
theorem index?_eq_some_iff_exists {text : List Char} {index : Nat} :
    index? text = some index ↔ ∃ group : Group, text = group.inside ∧ index = group.index := by
  rw [index?_eq_some_iff]
  constructor
  · rintro ⟨digits, htext, hnumber, hsmall⟩
    obtain ⟨hne, hdigits, rfl⟩ := Text.number?_ten_eq_some_iff.1 hnumber
    obtain rfl | rfl := htext
    · exact ⟨⟨false, text, hne, hdigits, hsmall⟩, rfl, rfl⟩
    · exact ⟨⟨true, digits, hne, hdigits, hsmall⟩, rfl, rfl⟩
  · rintro ⟨group, rfl, rfl⟩
    refine ⟨group.digits, ?_, ?_, group.small⟩
    · unfold inside
      split
      · exact .inr rfl
      · exact .inl rfl
    · exact Text.number?_ten_eq_some_iff.2 ⟨group.nonempty, group.isDigit, rfl⟩

end Group

namespace Part

variable (part : Part)

/-- The characters of a part. -/
def text : List Char :=
  part.name ++ part.groups.flatMap Group.text

/-- The steps that a part is read as: the key, if there is one, and then the positions. -/
def steps : Path :=
  keySteps part.name ++ part.groups.map Group.step

/-- The part with one more group. -/
def extended (group : Group) : Part :=
  { part with groups := part.groups ++ [group] }

/-- The text of a part with one more group is that of the part and that of the group. -/
theorem extended_text (group : Group) : (part.extended group).text = part.text ++ group.text := by
  simp [extended, text]

/-- There is no dot in a part. -/
theorem dot_not_mem_text : '.' ∉ part.text := by
  simp [text, part.dot, Group.dot_not_mem_text]

/-- The steps of a part are plain. -/
theorem steps_plain : IsPlain part.steps := by
  intro step hstep
  rw [steps, List.mem_append, List.mem_map] at hstep
  obtain hkey | ⟨group, _, rfl⟩ := hstep
  · unfold keySteps at hkey
    split at hkey
    · cases hkey
    · rename_i hname
      obtain rfl := List.mem_singleton.1 hkey
      have hplain : IsPlainKey (String.ofList part.name) :=
        ⟨by simpa using hname, by simpa using part.dot, by simpa using part.opening,
          by simpa using part.closing⟩
      exact hplain
  · exact group.small

end Part

/-! ## Reading a piece -/

/-- The groups of a row are read one after the other. -/
theorem positions_append (groups : List Group) (rest : List Char) :
    positions (groups.flatMap Group.text ++ rest) =
      (positions rest).map (groups.map Group.step ++ ·) := by
  induction groups with
  | nil =>
      show positions rest = (positions rest).map ([] ++ ·)
      cases positions rest <;> rfl
  | cons group others ih =>
      have hinside : ']' ∉ group.inside := group.not_mem_inside (by decide) (by decide)
      have hindex := Group.index?_eq_some_iff_exists.2 ⟨group, rfl, rfl⟩
      have htext : (group :: others).flatMap Group.text ++ rest =
          '[' :: group.inside ++ ']' :: (others.flatMap Group.text ++ rest) := by
        simp [Group.text]
      rw [htext, positions_group hinside, hindex, ih]
      cases positions rest <;> rfl

/-- A part is read before what comes after it, unless this makes its key longer. -/
theorem Part.of_part_append (part : Part) {rest : List Char}
    (h : part.groups = [] → ∀ first ∈ rest.head?, first = '[') :
    ofPart (part.text ++ rest) = (positions rest).map (part.steps ++ ·) := by
  have hbrackets : ∀ first ∈ (part.groups.flatMap Group.text ++ rest).head?, first = '[' := by
    cases hgroups : part.groups with
    | nil => exact h hgroups
    | cons group others => simp [Group.text]
  rw [Part.text, List.append_assoc, Path.of_part_append part.opening part.closing hbrackets,
    positions_append]
  cases positions rest with
  | error fault => rfl
  | ok steps => simp [Except.map, Part.steps]

/-- A part is read as its steps. -/
theorem Part.of_part_text (part : Part) : ofPart part.text = .ok part.steps := by
  have h : ofPart (part.text ++ []) = (positions []).map (part.steps ++ ·) :=
    part.of_part_append (by simp)
  rw [List.append_nil, positions] at h
  simpa [Except.map] using h

/-- Why a piece between two dots is no part. A bracket closes before any opens, or one opens after
the part that the piece begins with and never closes, or something else comes after the groups of
this part, or what the next brackets hold is no position. -/
inductive Flawed : List Char → PathFault → Prop where
  | strayBracket {name rest : List Char} (hopening : '[' ∉ name) :
      Flawed (name ++ ']' :: rest) .strayBracket
  | unclosed {part : Part} {rest : List Char} (hclosing : ']' ∉ rest) :
      Flawed (part.text ++ '[' :: rest) .unclosedBracket
  | trailing {part : Part} {character : Char} {rest : List Char} (hgroups : part.groups ≠ [])
      (hopening : character ≠ '[') : Flawed (part.text ++ character :: rest) .unclosedBracket
  | badIndex {part : Part} {inside rest : List Char} (hclosing : ']' ∉ inside)
      (hinside : ∀ group : Group, inside ≠ group.inside) :
      Flawed (part.text ++ ('[' :: inside ++ ']' :: rest)) (.badIndex (String.ofList inside))

/-- A flawed piece is refused with its flaw. -/
theorem Flawed.of_part {piece : List Char} {fault : PathFault} (h : Flawed piece fault) :
    ofPart piece = .error fault := by
  cases h with
  | @strayBracket name rest hopening =>
      have htake : (name ++ ']' :: rest).takeWhile (· ≠ '[') =
          name ++ ']' :: rest.takeWhile (· ≠ '[') := by
        rw [List.takeWhile_append_of_pos (Text.decide_ne_of_not_mem hopening)]
        simp
      simp only [ofPart, htake, List.mem_append, List.mem_cons, true_or, or_true, if_true]
  | @unclosed part rest hclosing =>
      rw [part.of_part_append (by simp), positions_unclosed hclosing]
      rfl
  | @trailing part character rest hgroups hopening =>
      rw [part.of_part_append fun h ↦ absurd h hgroups, positions_trailing hopening]
      rfl
  | @badIndex part inside rest hclosing hinside =>
      have hindex : index? inside = none := by
        rw [Option.eq_none_iff_forall_ne_some]
        intro index hindex
        obtain ⟨group, hgroup, _⟩ := Group.index?_eq_some_iff_exists.1 hindex
        exact hinside group hgroup
      rw [part.of_part_append (by simp), positions_group hclosing, hindex]
      rfl

/-- What begins with a part is a part itself or has a flaw. -/
theorem part_or_flawed_append (part : Part) (rest : List Char)
    (h : part.groups = [] → ∀ first ∈ rest.head?, first = '[') :
    (∃ other : Part, part.text ++ rest = other.text) ∨
      ∃ fault, Flawed (part.text ++ rest) fault := by
  -- The part is what is read already. The induction is on the length of the rest, of which one
  -- group is taken at a time.
  obtain hrest | ⟨inside, after, hinside, hrest⟩ | ⟨after, hclosing, hrest⟩ |
    ⟨character, after, hopening, hrest⟩ := brackets_cases rest
  · exact .inl ⟨part, by rw [hrest, List.append_nil]⟩
  · rw [hrest]
    by_cases hgroup : ∃ group : Group, inside = group.inside
    · obtain ⟨group, rfl⟩ := hgroup
      have htext : part.text ++ ('[' :: group.inside ++ ']' :: after) =
          (part.extended group).text ++ after := by
        simp [Part.extended_text, Group.text]
      rw [htext]
      exact part_or_flawed_append (part.extended group) after (by simp [Part.extended])
    · exact .inr ⟨_, .badIndex hinside fun group hinside ↦ hgroup ⟨group, hinside⟩⟩
  · rw [hrest]
    exact .inr ⟨_, .unclosed hclosing⟩
  · have hgroups : part.groups ≠ [] := by
      intro hgroups
      exact hopening (h hgroups character (by simp [hrest]))
    rw [hrest]
    exact .inr ⟨_, .trailing hgroups hopening⟩
termination_by rest.length
decreasing_by
  simp only [hrest, List.length_append, List.length_cons]
  omega

/-- A piece without dots is a part or has a flaw. -/
theorem part_or_flawed {piece : List Char} (h : '.' ∉ piece) :
    (∃ part : Part, piece = part.text) ∨ ∃ fault, Flawed piece fault := by
  obtain ⟨name, brackets, rfl, hopening, hbrackets⟩ : ∃ name brackets, piece = name ++ brackets ∧
      '[' ∉ name ∧ ∀ first ∈ brackets.head?, first = '[' := by
    by_cases hmem : '[' ∈ piece
    · obtain ⟨name, rest, rfl, hname⟩ := List.eq_append_cons_of_mem hmem
      exact ⟨name, '[' :: rest, rfl, hname, by simp⟩
    · exact ⟨piece, [], by simp, hmem, by simp⟩
  by_cases hclosing : ']' ∈ name
  · obtain ⟨before, after, rfl⟩ := List.append_of_mem hclosing
    have hbefore : '[' ∉ before := fun hmem ↦ hopening (List.mem_append_left _ hmem)
    rw [List.append_assoc, List.cons_append]
    exact .inr ⟨_, .strayBracket hbefore⟩
  · have hdot : '.' ∉ name := fun hmem ↦ h (List.mem_append_left _ hmem)
    have hpart := part_or_flawed_append ⟨name, [], hdot, hopening, hclosing⟩ brackets
      fun _ ↦ hbrackets
    simpa [Part.text] using hpart

/-- A piece without dots is read exactly if it is a part, and then as the steps of the part. -/
theorem of_part_eq_ok_iff_exists {piece : List Char} {path : Path} (hdot : '.' ∉ piece) :
    ofPart piece = .ok path ↔ ∃ part : Part, piece = part.text ∧ path = part.steps := by
  constructor
  · intro h
    obtain ⟨part, rfl⟩ | ⟨fault, hflawed⟩ := part_or_flawed hdot
    · exact ⟨part, rfl, Except.ok.inj (h.symm.trans part.of_part_text)⟩
    · cases h.symm.trans hflawed.of_part
  · rintro ⟨part, rfl, rfl⟩
    exact part.of_part_text

/-- A piece without dots is refused exactly for its flaw. -/
theorem of_part_eq_error_iff {piece : List Char} {fault : PathFault} (hdot : '.' ∉ piece) :
    ofPart piece = .error fault ↔ Flawed piece fault := by
  constructor
  · intro h
    obtain ⟨part, rfl⟩ | ⟨other, hflawed⟩ := part_or_flawed hdot
    · cases h.symm.trans part.of_part_text
    · cases h.symm.trans hflawed.of_part
      exact hflawed
  · exact Flawed.of_part

/-- A piece without a dot can be read exactly if it is a part. -/
theorem exists_of_part_iff {piece : List Char} (h : '.' ∉ piece) :
    (∃ path, ofPart piece = .ok path) ↔ ∃ part : Part, piece = part.text := by
  simp only [of_part_eq_ok_iff_exists h]
  constructor
  · rintro ⟨_, part, hpart, _⟩
    exact ⟨part, hpart⟩
  · rintro ⟨part, hpart⟩
    exact ⟨part.steps, part, hpart, rfl⟩

/-! ## Reading a text -/

/-- Pieces without dots are read exactly if they are parts, and then as the steps of the parts in
turn. -/
theorem of_parts_eq_ok_iff_exists {pieces : List (List Char)} {path : Path}
    (h : ∀ piece ∈ pieces, '.' ∉ piece) :
    ofParts pieces = .ok path ↔
      ∃ parts : List Part, pieces = parts.map Part.text ∧ path = parts.flatMap Part.steps := by
  induction pieces generalizing path with
  | nil => simp [ofParts, eq_comm]
  | cons piece rest ih =>
      have hpiece : '.' ∉ piece := h piece List.mem_cons_self
      have hrest : ∀ other ∈ rest, '.' ∉ other :=
        fun other hmem ↦ h other (List.mem_cons_of_mem piece hmem)
      simp only [of_parts_cons_eq_ok_iff, of_part_eq_ok_iff_exists hpiece, ih hrest]
      constructor
      · rintro ⟨_, _, ⟨part, rfl, rfl⟩, ⟨parts, rfl, rfl⟩, rfl⟩
        exact ⟨part :: parts, rfl, rfl⟩
      · rintro ⟨parts, hpieces, rfl⟩
        obtain ⟨part, others, rfl, rfl, rfl⟩ := List.map_eq_cons_iff.1 hpieces.symm
        exact ⟨_, _, ⟨part, rfl, rfl⟩, ⟨others, rfl, rfl⟩, rfl⟩

/-- A text is read exactly if it is parts with dots between them, and then as the steps of the parts
in turn. -/
theorem of_text_eq_ok_iff {text : String} {path : Path} :
    ofText text = .ok path ↔
      ∃ parts : List Part, text.toList = Text.joined '.' (parts.map Part.text) ∧
        path = parts.flatMap Part.steps := by
  rw [of_text_eq, of_parts_eq_ok_iff_exists fun _ ↦ Text.not_mem_of_mem_segments]
  constructor
  · rintro ⟨parts, hparts, rfl⟩
    exact ⟨parts, by rw [← hparts, Text.joined_segments], rfl⟩
  · rintro ⟨parts, htext, rfl⟩
    rw [htext]
    cases parts with
    | nil =>
        -- The empty text has one segment, which is a part without a key and without groups.
        exact ⟨[⟨[], [], by simp, by simp, by simp⟩], rfl, rfl⟩
    | cons part others =>
        refine ⟨part :: others, Text.segments_joined (by simp) ?_, rfl⟩
        intro piece hpiece
        obtain ⟨other, _, rfl⟩ := List.mem_map.1 hpiece
        exact other.dot_not_mem_text

/-- Pieces can be read exactly if each of them can be. -/
theorem exists_of_parts_iff {pieces : List (List Char)} :
    (∃ path, ofParts pieces = .ok path) ↔ ∀ piece ∈ pieces, ∃ path, ofPart piece = .ok path := by
  induction pieces with
  | nil => simp [ofParts]
  | cons piece rest ih =>
      rw [List.forall_mem_cons, ← ih]
      simp only [of_parts_cons_eq_ok_iff]
      constructor
      · rintro ⟨_, steps, others, hpiece, hrest, rfl⟩
        exact ⟨⟨steps, hpiece⟩, ⟨others, hrest⟩⟩
      · rintro ⟨⟨steps, hpiece⟩, ⟨others, hrest⟩⟩
        exact ⟨_, steps, others, hpiece, hrest, rfl⟩

/-- A text is read exactly if each of its segments between dots is empty or a part. -/
theorem exists_of_text_iff {text : String} :
    (∃ path, ofText text = .ok path) ↔
      ∀ piece ∈ Text.segments '.' text.toList, piece ≠ [] → ∃ part : Part, piece = part.text := by
  rw [of_text_eq, exists_of_parts_iff]
  constructor
  · intro h piece hpiece _
    exact (exists_of_part_iff (Text.not_mem_of_mem_segments hpiece)).1 (h piece hpiece)
  · intro h piece hpiece
    by_cases hempty : piece = []
    · exact ⟨[], hempty ▸ of_part_nil⟩
    · have hpart := h piece hpiece hempty
      exact (exists_of_part_iff (Text.not_mem_of_mem_segments hpiece)).2 hpart

/-- What is read is a plain path. -/
theorem plain_of_of_text {text : String} {path : Path} (h : ofText text = .ok path) :
    path.IsPlain := by
  obtain ⟨parts, _, rfl⟩ := of_text_eq_ok_iff.1 h
  intro step hstep
  obtain ⟨part, _, hstep⟩ := List.mem_flatMap.1 hstep
  exact part.steps_plain step hstep

/-- Pieces are refused for the first of them that cannot be read. -/
theorem of_parts_cons_eq_error_iff {piece : List Char} {rest : List (List Char)}
    {fault : PathFault} :
    ofParts (piece :: rest) = .error fault ↔
      ofPart piece = .error fault ∨
        (∃ path, ofPart piece = .ok path) ∧ ofParts rest = .error fault := by
  rw [ofParts]
  cases ofPart piece with
  | error other => simp [bind, Except.bind]
  | ok steps =>
      cases ofParts rest with
      | error other => simp [bind, Except.bind]
      | ok others => simp [bind, Except.bind, pure, Except.pure]

/-- Pieces are refused for the first one that cannot be read. -/
theorem of_parts_eq_error_iff {pieces : List (List Char)} {fault : PathFault} :
    ofParts pieces = .error fault ↔
      ∃ before piece after, pieces = before ++ piece :: after ∧
        (∀ other ∈ before, ∃ path, ofPart other = .ok path) ∧ ofPart piece = .error fault := by
  constructor
  · intro h
    induction pieces with
    | nil => cases h
    | cons piece rest ih =>
        obtain hpiece | ⟨hpiece, hrest⟩ := of_parts_cons_eq_error_iff.1 h
        · exact ⟨[], piece, rest, rfl, by simp, hpiece⟩
        · obtain ⟨before, flawed, after, rfl, hbefore, hflawed⟩ := ih hrest
          exact ⟨piece :: before, flawed, after, rfl, List.forall_mem_cons.2 ⟨hpiece, hbefore⟩,
            hflawed⟩
  · rintro ⟨before, piece, after, rfl, hbefore, hpiece⟩
    induction before with
    | nil => exact of_parts_cons_eq_error_iff.2 (.inl hpiece)
    | cons first others ih =>
        obtain ⟨hfirst, hothers⟩ := List.forall_mem_cons.1 hbefore
        exact of_parts_cons_eq_error_iff.2 (.inr ⟨hfirst, ih hothers⟩)

/-- A text is refused for the first of its segments between dots that is no part. -/
theorem of_text_eq_error_iff {text : String} {fault : PathFault} :
    ofText text = .error fault ↔
      ∃ before piece after, Text.segments '.' text.toList = before ++ piece :: after ∧
        (∀ other ∈ before, ∃ part : Part, other = part.text) ∧ Flawed piece fault := by
  have hdots : ∀ piece ∈ Text.segments '.' text.toList, '.' ∉ piece :=
    fun _ ↦ Text.not_mem_of_mem_segments
  rw [of_text_eq, of_parts_eq_error_iff]
  refine exists₃_congr fun before piece after ↦ and_congr_right fun hpieces ↦ ?_
  rw [hpieces] at hdots
  have hbefore : ∀ other ∈ before, '.' ∉ other :=
    fun other hother ↦ hdots other (List.mem_append_left _ hother)
  have hpiece : '.' ∉ piece := hdots piece (by simp)
  exact and_congr (forall₂_congr fun other hother ↦ exists_of_part_iff (hbefore other hother))
    (of_part_eq_error_iff hpiece)

/-- A text is read as a path exactly if every piece of it between dots that is not empty is a text
without brackets, which may be empty, and then groups in brackets, each of them of digits, with a
plus sign or without one, that write a number below 2^64. The path has, part by part, the key, if
there is one, and then the positions in order. Every other text is refused, for the flaw of the
first piece that is no part. The paths that are read back from their text are those that have no
empty keys, no keys with dots or brackets and no positions from 2^64 on. -/
theorem of_text_accepts_grammar :
    (∀ text, (∃ path, ofText text = .ok path) ↔
        ∀ piece ∈ Text.segments '.' text.toList, piece ≠ [] → ∃ part : Part, piece = part.text) ∧
      (∀ text path, ofText text = .ok path ↔
        ∃ parts : List Part, text.toList = Text.joined '.' (parts.map Part.text) ∧
          path = parts.flatMap Part.steps) ∧
      (∀ text fault, ofText text = .error fault ↔
        ∃ before piece after, Text.segments '.' text.toList = before ++ piece :: after ∧
          (∀ other ∈ before, ∃ part : Part, other = part.text) ∧ Flawed piece fault) ∧
      ∀ path : Path, ofText path.text = .ok path ↔ path.IsPlain := by
  refine ⟨?_, ?_, ?_, ?_⟩
  · intro text
    exact exists_of_text_iff
  · intro text path
    exact of_text_eq_ok_iff
  · intro text fault
    exact of_text_eq_error_iff
  · intro path
    constructor
    · exact plain_of_of_text
    · exact of_text_text

/-- Empty pieces count for nothing, and a position may have a plus sign and leading zeros. -/
example : ofText "hosts..[0][+02].name" =
    .ok [.key "hosts", .position 0, .position 2, .key "name"] := by
  decide +kernel

/-- A bracket that never opens, one that never closes, text after a group, a bracket in a bracket,
and a position that is too large. -/
example :
    ofText "hosts]" = .error .strayBracket ∧ ofText "hosts[0" = .error .unclosedBracket ∧
      ofText "hosts[0]x" = .error .unclosedBracket ∧
      ofText "hosts[[0]]" = .error (.badIndex "[0") ∧
      ofText "hosts[18446744073709551616]" = .error (.badIndex "18446744073709551616") := by
  decide +kernel

end ConfigFill.Tree.Path
