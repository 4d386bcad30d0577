import ConfigFill.Proofs.Parameter.Leaf
import ConfigFill.Proofs.Trace.Effect
import Mathlib.Data.List.Induction

/-!
# What parameters amount to

The tree that is made of the parameters found for a path, said without the order in which it is
made. A parameter without a remainder is the whole value, and the last such one counts. Otherwise
there is a leaf under some keys exactly if a parameter has those keys and none has a proper prefix
of them. The invariant behind it is `Assembled`, which every parameter keeps (`Assembled.put`,
`Assembled.drop`); the main statement is `assemble_describes`. Whatever the parameters, they
amount to nothing, to a text or to a mapping of texts (`Amounts.leafy`).
-/

namespace ConfigFill.Parameter

open ConfigFill.Tree

/-- The keys to the leaf that a parameter found for a path is. -/
def segmentPath (path : String) (parameter : Parameter) : List String :=
  leafKeys (Path.remainder path parameter.name)

/-- The parameters whose names leave no remainder below the path. -/
def exactOnes (path : String) (parameters : List Parameter) : List Parameter :=
  parameters.filter fun parameter ↦ (Path.remainder path parameter.name).isEmpty

/-- The value of the last parameter with these keys. -/
def lastValue? (path : String) (keys : List String) (parameters : List Parameter) : Option String :=
  (parameters.filter fun parameter ↦ segmentPath path parameter = keys).getLast?.map (·.value)

/-- A parameter has a proper prefix of the keys. -/
def Shadowed (path : String) (keys : List String) (parameters : List Parameter) : Prop :=
  ∃ parameter ∈ parameters, segmentPath path parameter <+: keys ∧ segmentPath path parameter ≠ keys

variable {path : String} {parameters : List Parameter} {parameter : Parameter} {tree : Tree}

/-- A remainder leads under one key at least. -/
theorem leaf_keys_ne_nil (remainder : String) : leafKeys remainder ≠ [] := by
  simp [leafKeys, Text.segments_ne_nil]

/-- The last value for keys is that of the last parameter if it has these keys. -/
theorem last_value_concat (path : String) (keys : List String) (parameters : List Parameter)
    (parameter : Parameter) :
    lastValue? path keys (parameters ++ [parameter]) =
      if segmentPath path parameter = keys then some parameter.value
      else lastValue? path keys parameters := by
  by_cases h : segmentPath path parameter = keys <;> simp [lastValue?, List.filter_append, h]

/-- Keys are shadowed with one more parameter exactly if they were before or it is above them. -/
theorem shadowed_concat {keys : List String} :
    Shadowed path keys (parameters ++ [parameter]) ↔
      Shadowed path keys parameters ∨
        segmentPath path parameter <+: keys ∧ segmentPath path parameter ≠ keys := by
  simp [Shadowed, or_and_right, exists_or]

/-- A parameter whose keys are not a prefix of these changes nothing about them. -/
theorem shadowed_concat_elsewhere {keys : List String}
    (h : ¬ segmentPath path parameter <+: keys) :
    Shadowed path keys (parameters ++ [parameter]) ↔ Shadowed path keys parameters := by
  rw [shadowed_concat]
  exact or_iff_left fun hbegins ↦ h hbegins.1

/-- Keys that have a value are those of a parameter that gives it. -/
theorem exists_of_last_value {keys : List String} {value : String}
    (h : lastValue? path keys parameters = some value) :
    ∃ parameter ∈ parameters, segmentPath path parameter = keys ∧ parameter.value = value := by
  obtain ⟨parameter, hlast, hvalue⟩ := Option.map_eq_some_iff.1 h
  obtain ⟨hmem, hkeys⟩ := List.mem_filter.1 (List.mem_of_getLast? hlast)
  exact ⟨parameter, hmem, by simpa using hkeys, hvalue⟩

/-- The keys of a parameter have a value. -/
theorem exists_last_value (path : String) (hmem : parameter ∈ parameters) :
    ∃ value, lastValue? path (segmentPath path parameter) parameters = some value := by
  have hfilter : parameter ∈
      parameters.filter fun other ↦ segmentPath path other = segmentPath path parameter :=
    List.mem_filter.2 ⟨hmem, by simp⟩
  obtain ⟨last, hlast⟩ := Option.isSome_iff_exists.1
    (List.getLast?_isSome.2 (List.ne_nil_of_mem hfilter))
  exact ⟨last.value, by rw [lastValue?, hlast]; rfl⟩

/-- At or above the keys of a parameter there are keys with a value that nothing shadows. -/
theorem exists_unshadowed (path : String) (hmem : parameter ∈ parameters) :
    ∃ keys value, keys <+: segmentPath path parameter ∧
      lastValue? path keys parameters = some value ∧ ¬ Shadowed path keys parameters := by
  -- The induction is on how many keys there are: what shadows a parameter has fewer.
  induction hlength : (segmentPath path parameter).length using Nat.strongRecOn
    generalizing parameter with
  | ind length ih =>
      by_cases hshadowed : Shadowed path (segmentPath path parameter) parameters
      · obtain ⟨other, hother, hbegins, hne⟩ := hshadowed
        have hlt : (segmentPath path other).length < length := by
          rcases Nat.lt_or_eq_of_le hbegins.length_le with hlt | heq
          · exact hlength ▸ hlt
          · exact absurd (hbegins.eq_of_length heq) hne
        obtain ⟨keys, value, hkeys, hvalue⟩ := ih _ hlt hother rfl
        exact ⟨keys, value, hkeys.trans hbegins, hvalue⟩
      · obtain ⟨value, hvalue⟩ := exists_last_value path hmem
        exact ⟨_, value, List.prefix_rfl, hvalue, hshadowed⟩

/-- The tree is what the parameters amount to if none of them is the path itself: a mapping of
texts, with the leaves that the parameters describe. -/
structure Assembled (path : String) (parameters : List Parameter) (tree : Tree) : Prop where
  mapping : ∃ entries, tree = .mapping entries
  leafy : tree = .mapping [] ∨ Leafy tree
  leaf_iff : ∀ keys value, tree.leaf? keys = some value ↔
    lastValue? path keys parameters = some value ∧ ¬ Shadowed path keys parameters

namespace Assembled

/-- No parameters amount to an empty mapping. -/
theorem empty (path : String) : Assembled path [] (.mapping []) where
  mapping := ⟨[], rfl⟩
  leafy := .inl rfl
  leaf_iff keys value := by simp [lastValue?]

/-- What is in the way of a leaf is a leaf itself. -/
theorem leaf_of_in_the_way (h : Assembled path parameters tree) {keys : List String}
    (hway : InTheWay keys tree) :
    ∃ above value, above <+: keys ∧ above ≠ keys ∧ tree.leaf? above = some value := by
  obtain ⟨above, hbegins, hne, node, hnode, hentries⟩ := hway
  refine ⟨above, ?_⟩
  rcases h.leafy with rfl | hleafy
  · cases above with
    | nil =>
        cases hnode
        cases hentries
    | cons key rest => cases hnode
  · cases hleafy.follow hnode with
    | string value => exact ⟨value, hbegins, hne, leaf_eq_some_iff.2 hnode⟩
    | mapping => cases hentries

/-- A parameter whose leaf can be set is taken in. -/
theorem put (h : Assembled path parameters tree) {result : Tree}
    (hput : putLeaf? parameter.value (segmentPath path parameter) tree = some result) :
    Assembled path (parameters ++ [parameter]) result where
  mapping := by
    obtain ⟨_, _, _, _, _, _, rfl, _⟩ := put_leaf_cases hput
    exact ⟨_, rfl⟩
  leafy := .inr (put_leaf_leafy hput h.leafy)
  leaf_iff keys value := by
    rw [leaf_put_leaf hput, last_value_concat]
    by_cases hbegins : segmentPath path parameter <+: keys
    · by_cases hkeys : keys = segmentPath path parameter
      · -- Nothing shadows the keys of the new parameter, or it could not have been set.
        have hclear : ¬ Shadowed path keys (parameters ++ [parameter]) := by
          rw [shadowed_concat, hkeys]
          rintro (⟨other, hother, hotherPrefix, hne⟩ | ⟨_, hne⟩)
          · obtain ⟨above, leaf, habove, hleaf⟩ := exists_unshadowed path hother
            have hnode := leaf_eq_some_iff.1 ((h.leaf_iff above leaf).2 hleaf)
            have hway : InTheWay (segmentPath path parameter) tree := by
              refine ⟨above, habove.trans hotherPrefix, ?_, _, hnode, rfl⟩
              rintro rfl
              exact hne (hotherPrefix.eq_of_length_le habove.length_le)
            rw [put_leaf_eq_none_iff.2 (.inr hway)] at hput
            cases hput
          · exact hne rfl
        subst hkeys
        simp [hclear]
      · have hshadowed : Shadowed path keys (parameters ++ [parameter]) :=
          shadowed_concat.2 (.inr ⟨hbegins, fun heq ↦ hkeys heq.symm⟩)
        simp [hbegins, hkeys, hshadowed]
    · have hne : ¬ segmentPath path parameter = keys := by
        rintro rfl
        exact hbegins List.prefix_rfl
      simp only [hbegins, hne, if_false]
      rw [shadowed_concat_elsewhere hbegins]
      exact h.leaf_iff keys value

/-- A parameter whose leaf cannot be set is shadowed, and so is all below it. -/
theorem drop (h : Assembled path parameters tree)
    (hput : putLeaf? parameter.value (segmentPath path parameter) tree = none) :
    Assembled path (parameters ++ [parameter]) tree where
  mapping := h.mapping
  leafy := h.leafy
  leaf_iff keys value := by
    have hway := (put_leaf_eq_none_iff.1 hput).resolve_left (leaf_keys_ne_nil _)
    obtain ⟨above, leaf, habove, hne, hleaf⟩ := h.leaf_of_in_the_way hway
    obtain ⟨other, hother, rfl, _⟩ := exists_of_last_value ((h.leaf_iff above leaf).1 hleaf).1
    rw [h.leaf_iff keys value, last_value_concat]
    by_cases hbegins : segmentPath path parameter <+: keys
    · have hshadowed : Shadowed path keys parameters := by
        refine ⟨other, hother, habove.trans hbegins, ?_⟩
        rintro rfl
        exact hne (habove.eq_of_length_le hbegins.length_le)
      have hlater : Shadowed path keys (parameters ++ [parameter]) :=
        shadowed_concat.2 (.inl hshadowed)
      simp [hshadowed, hlater]
    · have hkeys : ¬ segmentPath path parameter = keys := by
        rintro rfl
        exact hbegins List.prefix_rfl
      rw [shadowed_concat_elsewhere hbegins, if_neg hkeys]

/-- Every node of the tree is a text or a mapping, and only the root may be an empty one. -/
theorem node_cases (h : Assembled path parameters tree) {steps : Tree.Path} {node : Tree}
    (hnode : tree.follow? steps = some node) :
    (∃ value, node = .string value) ∨
      ∃ entries, node = .mapping entries ∧ (entries = [] → steps = []) := by
  rcases h.leafy with rfl | hleafy
  · cases steps with
    | nil =>
        cases hnode
        exact .inr ⟨[], rfl, fun _ ↦ rfl⟩
    | cons step rest => cases step <;> cases hnode
  · cases hleafy.follow hnode with
    | string value => exact .inl ⟨value, rfl⟩
    | mapping nonempty => exact .inr ⟨_, rfl, fun hempty ↦ absurd hempty nonempty⟩

/-- Some parameters make a tree with a leaf. -/
theorem leafy_of_mem (h : Assembled path parameters tree) (hmem : parameter ∈ parameters) :
    Leafy tree := by
  refine h.leafy.resolve_left ?_
  rintro rfl
  obtain ⟨keys, value, _, hvalue⟩ := exists_unshadowed path hmem
  have hleaf := (h.leaf_iff keys value).2 hvalue
  simp at hleaf

/-- No mapping of the tree has a key twice. -/
theorem keys_distinct (h : Assembled path parameters tree) : tree.KeysDistinct := by
  rcases h.leafy with rfl | hleafy
  · exact ⟨List.nodup_nil, trivial⟩
  · exact hleafy.keys_distinct

end Assembled

/-- What the parameters found for a path amount to. -/
def Amounts (path : String) (parameters : List Parameter) (exactOnly : Bool) (tree : Tree) : Prop :=
  match (exactOnes path parameters).getLast?, exactOnly with
  | some exact, _ => tree = .string exact.value
  | none, true => tree = .mapping []
  | none, false => Assembled path parameters tree

/-- One more parameter is taken after the others. -/
theorem assembly_concat (path : String) (parameters : List Parameter) (parameter : Parameter)
    (exactOnly : Bool) :
    Assembly.of path (parameters ++ [parameter]) exactOnly =
      (Assembly.of path parameters exactOnly).add path exactOnly parameter := by
  simp [Assembly.of]

/-- One more parameter keeps the tree what the parameters amount to. -/
theorem Amounts.add {exactOnly : Bool} {assembly : Assembly}
    (h : Amounts path parameters exactOnly assembly.tree) (parameter : Parameter) :
    Amounts path (parameters ++ [parameter]) exactOnly
      (assembly.add path exactOnly parameter).tree := by
  unfold Assembly.add
  by_cases hexact : (Path.remainder path parameter.name).isEmpty
  · simp [Amounts, exactOnes, List.filter_append, hexact]
  · have hones : exactOnes path (parameters ++ [parameter]) = exactOnes path parameters := by
      simp [exactOnes, List.filter_append, hexact]
    simp only [hexact, Bool.false_eq_true, if_false]
    unfold Amounts at h ⊢
    rw [hones]
    cases hlast : (exactOnes path parameters).getLast? with
    | some exact =>
        -- Nothing can be set in a text, so the text stays.
        have htree : assembly.tree = .string exact.value := by simpa [hlast] using h
        cases exactOnly with
        | true => exact htree
        | false =>
            have hstays (keys : List String) : putLeaf? parameter.value keys assembly.tree = none :=
              put_leaf_eq_none (by rw [htree]; rfl)
            simp only [Bool.false_eq_true, if_false, hstays]
            exact htree
    | none =>
        rw [hlast] at h
        cases exactOnly with
        | true => simpa using h
        | false =>
            simp only [Bool.false_eq_true, if_false]
            split
            · rename_i result hput
              exact Assembled.put h hput
            · rename_i hput
              exact Assembled.drop h hput

/-- The tree that is assembled is what the parameters amount to. -/
theorem assembly_amounts (path : String) (parameters : List Parameter) (exactOnly : Bool) :
    Amounts path parameters exactOnly (Assembly.of path parameters exactOnly).tree := by
  induction parameters using List.reverseRecOn with
  | nil =>
      cases exactOnly with
      | true => rfl
      | false => exact .empty path
  | append_singleton parameters parameter ih =>
      rw [assembly_concat]
      exact ih.add parameter

/-- Parameters amount to nothing, to a text or to a mapping of texts. -/
theorem Amounts.leafy {exactOnly : Bool} {tree : Tree}
    (h : Amounts path parameters exactOnly tree) : tree = .mapping [] ∨ Leafy tree := by
  unfold Amounts at h
  split at h
  · exact .inr (h ▸ .string _)
  · exact .inl h
  · exact h.leafy

/-- Some parameters amount to something if those below the path count. -/
theorem Amounts.leafy_of_ne_nil {tree : Tree} (h : Amounts path parameters false tree)
    (hne : parameters ≠ []) : Leafy tree := by
  obtain ⟨parameter, rest, rfl⟩ := List.exists_cons_of_ne_nil hne
  unfold Amounts at h
  split at h
  · exact h ▸ .string _
  · rename_i hexact
    cases hexact
  · exact h.leafy_of_mem List.mem_cons_self

/-- Assembling never fails, and writes only log records. -/
theorem assemble_apply (path : String) (parameters : List Parameter) (exactOnly : Bool)
    (earlier : List String) :
    assemble path parameters exactOnly earlier =
      (((Assembly.of path parameters exactOnly).dropped.map (.parameterDropped · path)).map .log,
        .ok (Assembly.of path parameters exactOnly).tree) := by
  refine (Effect.bind_apply_ok rfl).trans ?_
  simp [Effect.pure_apply]

/-- A mapping of texts whose leaves are told by the parameters, whatever their order: under the keys
of a parameter, unless another has a proper prefix of them, stands the last value given for them. -/
structure Describes (path : String) (parameters : List Parameter) (tree : Tree) : Prop where
  mapping : ∃ entries, tree = .mapping entries
  keysDistinct : tree.KeysDistinct
  leaf_iff : ∀ keys value, tree.atKeys? keys = some (.string value) ↔
    lastValue? path keys parameters = some value ∧ ¬ Shadowed path keys parameters
  node_cases : ∀ steps node, tree.follow? steps = some node →
    (∃ value, node = .string value) ∨
      ∃ entries, node = .mapping entries ∧ (entries = [] → steps = [])

/-- What comes of the parameters found for a path: the text of the last one without a remainder;
without such, nothing if only those count, and else the mapping that the parameters describe. -/
theorem assemble_describes (path : String) (parameters : List Parameter) (exactOnly : Bool) :
    ∃ tree, (∀ earlier, (assemble path parameters exactOnly earlier).2 = .ok tree) ∧
      match (exactOnes path parameters).getLast?, exactOnly with
      | some exact, _ => tree = .string exact.value
      | none, true => tree = .mapping []
      | none, false => Describes path parameters tree := by
  refine ⟨_, fun earlier ↦ by rw [assemble_apply], ?_⟩
  have h := assembly_amounts path parameters exactOnly
  unfold Amounts at h
  split at h
  · exact h
  · exact h
  · exact
      { mapping := h.mapping
        keysDistinct := h.keys_distinct
        leaf_iff := fun keys value ↦ leaf_eq_some_iff.symm.trans (h.leaf_iff keys value)
        node_cases := fun _ _ hnode ↦ h.node_cases hnode }

/-- The order of a parameter and one that shadows it does not show. -/
example :
    (Assembly.of "/app" [⟨"/app/db/host", "h"⟩, ⟨"/app/db", "d"⟩] false).tree =
      (Assembly.of "/app" [⟨"/app/db", "d"⟩, ⟨"/app/db/host", "h"⟩] false).tree := by
  rfl

end ConfigFill.Parameter
