import ConfigFill.Proofs.Tree.Path

/-!
# Selecting part by part

What a path selects in a tree can be found part by part: a path is followed as far as it goes, and
the rest of it from there (`follow_append`). The same holds of paths as text, cut at a dot or before
a position in brackets, and also of texts that are no paths, which lead nowhere however they are
cut. The main statement is `select_part_by_part`.
-/

namespace ConfigFill.Tree

/-- The second of two paths goes on from where the first leads. -/
theorem follow_append (tree : Tree) (path other : Path) :
    tree.follow? (path ++ other) = (tree.follow? path).bind (·.follow? other) := by
  induction path generalizing tree with
  | nil => rfl
  | cons step rest ih =>
      simp only [List.cons_append, follow?, Option.bind_assoc]
      exact congrArg _ (funext ih)

/-- A position leads into sequences only. -/
theorem follow_position_eq_some_iff {tree node : Tree} {index : Nat} :
    tree.follow? [.position index] = some node ↔
      ∃ items, tree = sequence items ∧ items[index]? = some node := by
  have hfollow : tree.follow? [.position index] = tree.items?.bind (·[index]?) := by
    simp [follow?, step?]
  rw [hfollow]
  cases tree with
  | sequence items => simp [items?]
  | _ => simp [items?]

/-- A node is found exactly if the text is a path that leads to it. -/
theorem find_eq_ok_iff {tree node : Tree} {text : String} :
    tree.find text = .ok node ↔
      ∃ path, Path.ofText text = .ok path ∧ tree.follow? path = some node := by
  unfold find
  cases Path.ofText text with
  | error fault => simp [bind, Except.bind]
  | ok path =>
      cases hnode : tree.follow? path with
      | none => simp [bind, Except.bind, hnode]
      | some other => simp [bind, Except.bind, pure, Except.pure, hnode]

/-- A text selects the node that the path it is read as leads to. -/
theorem select_eq_ok_iff {tree node : Tree} {text : String} :
    tree.select text = .ok node ↔
      ∃ path, Path.ofText text = .ok path ∧ tree.follow? path = some node := by
  rw [← find_eq_ok_iff, select]
  cases tree.find text <;> simp [Except.mapError]

/-- Selecting fails exactly if finding does, with that fault put in words. -/
theorem select_eq_error_iff {tree : Tree} {text : String} {failure : Failure} :
    tree.select text = .error failure ↔
      ∃ fault, tree.find text = .error fault ∧ fault.failure text = failure := by
  rw [select]
  cases tree.find text <;> simp [Except.mapError]

/-- Whatever is wrong with a path, the report is one of a text that cannot be read. -/
theorem PathFault.failure_cause (fault : PathFault) (text : String) :
    ∃ reason, (fault.failure text).cause = .parse reason := by
  cases fault <;> exact ⟨_, rfl⟩

/-- Two texts with a dot between them select what the second selects in what the first selects. -/
theorem select_dot_eq_ok_iff {tree node : Tree} {first second : String} :
    tree.select (first ++ "." ++ second) = .ok node ↔
      ∃ middle, tree.select first = .ok middle ∧ middle.select second = .ok node := by
  simp only [select_eq_ok_iff, Path.of_text_dot_eq_ok_iff]
  constructor
  · intro h
    obtain ⟨_, ⟨steps, others, hfirst, hsecond, rfl⟩, hnode⟩ := h
    rw [follow_append, Option.bind_eq_some_iff] at hnode
    obtain ⟨middle, hmiddle, hnode⟩ := hnode
    exact ⟨middle, ⟨steps, hfirst, hmiddle⟩, ⟨others, hsecond, hnode⟩⟩
  · intro h
    obtain ⟨middle, ⟨steps, hfirst, hmiddle⟩, ⟨others, hsecond, hnode⟩⟩ := h
    refine ⟨_, ⟨steps, others, hfirst, hsecond, rfl⟩, ?_⟩
    rw [follow_append, hmiddle]
    exact hnode

/-- A small position in brackets after a text selects an item of the sequence that the text
selects. -/
theorem select_bracketed_eq_ok_iff {tree node : Tree} {text : String} {index : Nat}
    (hindex : index < Nat.pow 2 64) :
    tree.select (text ++ "[" ++ toString index ++ "]") = .ok node ↔
      ∃ items, tree.select text = .ok (sequence items) ∧ items[index]? = some node := by
  simp only [select_eq_ok_iff, Path.of_text_bracketed_eq_ok_iff hindex]
  constructor
  · intro h
    obtain ⟨_, ⟨steps, htext, rfl⟩, hnode⟩ := h
    rw [follow_append, Option.bind_eq_some_iff] at hnode
    obtain ⟨middle, hmiddle, hnode⟩ := hnode
    obtain ⟨items, rfl, hitem⟩ := follow_position_eq_some_iff.1 hnode
    exact ⟨items, ⟨steps, htext, hmiddle⟩, hitem⟩
  · intro h
    obtain ⟨items, ⟨steps, htext, hitems⟩, hitem⟩ := h
    refine ⟨_, ⟨steps, htext, rfl⟩, ?_⟩
    rw [follow_append, hitems]
    exact follow_position_eq_some_iff.2 ⟨items, rfl, hitem⟩

/-- A text that is no path selects nothing, nor do longer texts that it is a part of. -/
theorem select_ne_ok_of_fault {tree : Tree} {text : String} {fault : PathFault}
    (h : Path.ofText text = .error fault) :
    (∀ (other : String) (node : Tree), tree.select (text ++ "." ++ other) ≠ .ok node) ∧
      (∀ (other : String) (node : Tree), tree.select (other ++ "." ++ text) ≠ .ok node) ∧
      ∀ (index : Nat) (node : Tree), index < Nat.pow 2 64 →
        tree.select (text ++ "[" ++ toString index ++ "]") ≠ .ok node := by
  have hnone : ∀ (tree node : Tree), tree.select text ≠ .ok node := by
    intro tree node hnode
    obtain ⟨path, hpath, _⟩ := select_eq_ok_iff.1 hnode
    rw [h] at hpath
    cases hpath
  refine ⟨?_, ?_, ?_⟩
  · intro other node hnode
    obtain ⟨middle, hmiddle, _⟩ := select_dot_eq_ok_iff.1 hnode
    exact hnone tree middle hmiddle
  · intro other node hnode
    obtain ⟨middle, _, hother⟩ := select_dot_eq_ok_iff.1 hnode
    exact hnone middle node hother
  · intro index node hindex hnode
    obtain ⟨items, hitems, _⟩ := (select_bracketed_eq_ok_iff hindex).1 hnode
    exact hnone tree (sequence items) hitems

/-- In every tree, any two texts with a dot between them select a node exactly if the first selects
some node and the second selects this node in it; and any text with a position below 2^64 in
brackets after it selects a node exactly if the text selects a sequence that has this node at the
position. A text that is no path selects nothing, however it is made longer. Where a text selects
nothing, it is reported as one that cannot be read. -/
theorem select_part_by_part (tree : Tree) :
    (∀ (first second : String) (node : Tree),
        tree.select (first ++ "." ++ second) = .ok node ↔
          ∃ middle, tree.select first = .ok middle ∧ middle.select second = .ok node) ∧
      (∀ (text : String) (index : Nat) (node : Tree), index < Nat.pow 2 64 →
        (tree.select (text ++ "[" ++ toString index ++ "]") = .ok node ↔
          ∃ items, tree.select text = .ok (sequence items) ∧ items[index]? = some node)) ∧
      (∀ (text : String) (fault : PathFault), Path.ofText text = .error fault →
        (∀ (other : String) (node : Tree), tree.select (text ++ "." ++ other) ≠ .ok node) ∧
          (∀ (other : String) (node : Tree), tree.select (other ++ "." ++ text) ≠ .ok node) ∧
          ∀ (index : Nat) (node : Tree), index < Nat.pow 2 64 →
            tree.select (text ++ "[" ++ toString index ++ "]") ≠ .ok node) ∧
      ∀ (text : String) (failure : Failure), tree.select text = .error failure →
        ∃ reason, failure.cause = .parse reason := by
  refine ⟨fun _ _ _ ↦ select_dot_eq_ok_iff, fun _ _ _ ↦ select_bracketed_eq_ok_iff,
    fun _ _ ↦ select_ne_ok_of_fault, ?_⟩
  intro text failure h
  obtain ⟨fault, _, rfl⟩ := select_eq_error_iff.1 h
  exact fault.failure_cause text

end ConfigFill.Tree
