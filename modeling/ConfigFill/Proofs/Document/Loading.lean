import ConfigFill.Document.Loading
import ConfigFill.Proofs.Json.Reader
import ConfigFill.Proofs.Trace.Settled
import ConfigFill.Proofs.Tree.Repetition
import ConfigFill.Proofs.Yaml.Reader

/-!
# Loaded documents

Loading files asks no store for anything, and its outcome is that of the files one after the other
(`load_all_outcome`), so files can be merged exactly if each of them can be loaded
(`exists_load_merged_iff`). Whatever the files hold, no mapping of a document that is loaded has a key
twice, nor does one of the documents merged (`keys_distinct_of_load_merged`).
-/

namespace ConfigFill.Document

open Effect (Settled)

variable {files : Files} {path : String} {paths : List String} {tree : Tree}

/-- A document fits the depth that YAML allows, which is more than JSON does. -/
theorem fits_of_load (h : load files path = .ok tree) : tree.Fits Yaml.Document.depthLimit := by
  unfold load at h
  split at h
  · cases h
  · rw [Except.map_error_eq_ok_iff] at h
    split at h
    · have hjson : tree.Fits Json.depthLimit :=
        Json.fits_of_parse (Except.map_error_eq_ok_iff.1 h)
      exact hjson.mono (by decide)
    · exact Yaml.fits_of_parse (Except.map_error_eq_ok_iff.1 h)

/-- Loading files asks for no path. -/
theorem load_all_settled (files : Files) (paths : List String) : Settled (loadAll files paths) := by
  induction paths with
  | nil => exact .pure []
  | cons path rest ih =>
      refine (Settled.of_except _).bind fun tree ↦ (Settled.log _).bind fun _ ↦ ?_
      exact ih.bind fun trees ↦ .pure _

/-- Nor does merging them. -/
theorem load_merged_settled (files : Files) (paths : List String) :
    Settled (loadMerged files paths) :=
  (load_all_settled files paths).bind fun _ ↦ .pure _

/-- Files are loaded one after the other, up to the first that cannot be. -/
theorem load_all_outcome (files : Files) (paths : List String) :
    (loadAll files paths).start.2 = paths.mapM (load files) := by
  induction paths with
  | nil => rfl
  | cons path rest ih =>
      rw [List.mapM_cons, ← ih]
      refine ((Settled.of_except _).outcome_bind _ []).trans (congrArg _ (funext fun tree ↦ ?_))
      refine ((Settled.log _).outcome_bind _ []).trans ?_
      exact (load_all_settled files rest).outcome_bind _ []

/-- What is merged are the files that are loaded. -/
theorem load_merged_eq_ok_iff :
    (loadMerged files paths).start.2 = .ok tree ↔
      ∃ trees, List.Forall₂ (fun path tree ↦ load files path = .ok tree) paths trees ∧
        Tree.mergeAll trees = tree := by
  have houtcome : (loadMerged files paths).start.2 =
      (loadAll files paths).start.2 >>= fun trees ↦ .ok (Tree.mergeAll trees) :=
    (load_all_settled files paths).outcome_bind _ []
  rw [houtcome, load_all_outcome]
  simp only [Except.bind_eq_ok_iff, Except.map_m_eq_ok_iff, Except.ok.injEq]

/-- Files can be merged exactly if each of them can be loaded. -/
theorem exists_load_merged_iff :
    (∃ tree, (loadMerged files paths).start.2 = .ok tree) ↔
      ∀ path ∈ paths, ∃ tree, load files path = .ok tree := by
  simp only [load_merged_eq_ok_iff]
  constructor
  · intro h
    obtain ⟨_, trees, htrees, rfl⟩ := h
    intro path hmem
    induction htrees with
    | nil => cases hmem
    | cons hload _ ih =>
        obtain rfl | hmem := List.mem_cons.1 hmem
        · exact ⟨_, hload⟩
        · exact ih hmem
  · intro h
    suffices hall : ∃ trees, List.Forall₂ (fun path tree ↦ load files path = .ok tree) paths trees by
      obtain ⟨trees, htrees⟩ := hall
      exact ⟨_, trees, htrees, rfl⟩
    induction paths with
    | nil => exact ⟨[], .nil⟩
    | cons path rest ih =>
        rw [List.forall_mem_cons] at h
        obtain ⟨⟨tree, htree⟩, hrest⟩ := h
        obtain ⟨trees, htrees⟩ := ih hrest
        exact ⟨tree :: trees, .cons htree htrees⟩

/-- No mapping of loaded documents has a key twice. -/
theorem keys_distinct_of_loads {trees : List Tree}
    (h : List.Forall₂ (fun path tree ↦ load files path = .ok tree) paths trees) :
    ∀ tree ∈ trees, tree.KeysDistinct := by
  induction h with
  | nil => exact fun _ hmem ↦ absurd hmem List.not_mem_nil
  | cons hload _ ih => exact List.forall_mem_cons.2 ⟨(fits_of_load hload).keysDistinct, ih⟩

/-- No mapping of the documents that files hold has a key twice once they are merged. -/
theorem keys_distinct_of_load_merged (h : (loadMerged files paths).start.2 = .ok tree) :
    tree.KeysDistinct := by
  obtain ⟨trees, htrees, rfl⟩ := load_merged_eq_ok_iff.1 h
  have hkeys := keys_distinct_of_loads htrees
  cases trees with
  | nil => exact ⟨List.nodup_nil, trivial⟩
  | cons first rest =>
      rw [List.forall_mem_cons] at hkeys
      exact hkeys.1.merge_all hkeys.2

end ConfigFill.Document
