import RcpGraph.Paper.Proposal

/-!
The changes of an output by the file that they change. A file of the snapshot has its
move and then the changes of its content; a new file has its creation.
-/

namespace RcpGraph.Paper

open EditScript

variable (env : CoachEnv) (revision : Nat) {files : List PaperFile} {o : Output}

theorem eq_of_fileId (hids : (files.map (·.fileId)).Nodup) {file other : PaperFile}
    (hfile : file ∈ files) (hother : other ∈ files) (h : other.fileId = file.fileId) :
    other = file :=
  List.inj_on_of_nodup_map hids hother hfile h

/-- The deletion or the move of a file. -/
def moveChanges (o : Output) (file : PaperFile) : List Change :=
  if file.path ∈ o.deletions then [deleteChange revision file]
  else if o.target file.path = file.path then []
  else [renameChange revision file (o.target file.path)]

/-- The changes of the content of a file. -/
def contentChanges (files : List PaperFile) (o : Output) (file : PaperFile) : List Change :=
  match o.files.get? (o.target file.path) with
  | none => []
  | some body => writtenChanges env revision files o (o.target file.path) body

section Written

theorem perm_insertByKey {α : Type} (key : α → String) (x : α) (xs : List α) :
    (Text.insertByKey key x xs).Perm (x :: xs) := by
  induction xs with
  | nil => exact List.Perm.refl _
  | cons y ys ih =>
      rw [Text.insertByKey]
      split
      · exact List.Perm.refl _
      · exact (ih.cons y).trans (List.Perm.swap x y ys)

theorem perm_sortedByKey {α : Type} (key : α → String) (xs : List α) :
    (Text.sortedByKey key xs).Perm xs := by
  have hfold : ∀ (ys acc : List α),
      (ys.foldl (fun acc x => Text.insertByKey key x acc) acc).Perm (acc ++ ys) := by
    intro ys
    induction ys with
    | nil =>
        intro acc
        rw [List.append_nil]
        exact List.Perm.refl acc
    | cons y ys ih =>
        intro acc
        refine (ih _).trans (((perm_insertByKey key y acc).append_right ys).trans ?_)
        exact List.perm_middle.symm
  exact hfold xs []

/-- The written files are listed once. -/
theorem sortedFiles_perm (o : Output) : (sortedFiles o).Perm o.files.entries :=
  perm_sortedByKey Prod.fst o.files.entries

theorem sortedFiles_nodup (o : Output) : ((sortedFiles o).map Prod.fst).Nodup :=
  ((sortedFiles_perm o).map Prod.fst).nodup_iff.mpr o.files.nodup

theorem mem_sortedFiles (e : String × Bytes) :
    e ∈ sortedFiles o ↔ o.files.get? e.1 = some e.2 := by
  rw [(sortedFiles_perm o).mem_iff, Dict.get?_eq_some_iff]

theorem mem_files_of_sorted {e : String × Bytes} (he : e ∈ sortedFiles o) : e.1 ∈ o.files :=
  Dict.mem_of_get? ((mem_sortedFiles e).mp he)

/-- The changes of a written file are those of the file that it replaces. -/
theorem writtenChanges_replaced {file : PaperFile} {name : String} {body : Bytes}
    (h : fileAt files (o.source name) = some file) :
    ∀ c ∈ writtenChanges env revision files o name body, c.fileId = file.fileId := by
  intro c hc
  unfold writtenChanges at hc
  rw [h] at hc
  cases hcontent : writtenContent env files o name body with
  | binary sha256 =>
      rw [hcontent] at hc
      simp only at hc
      split at hc
      · cases hc
      · rw [List.mem_singleton.mp hc]
  | text text =>
      rw [hcontent] at hc
      obtain ⟨change, -, rfl⟩ := List.mem_map.mp hc
      rfl

/-- The creation of a new file. -/
def createChange (name : String) (content : PaperContent) : Change :=
  match content with
  | .text text =>
      { kind := .create, fileId := env.newId name, path := name, baseRevision := revision,
        after := text, fileKind := .text }
  | .binary sha256 =>
      { kind := .create, fileId := env.newId name, path := name, baseRevision := revision,
        fileKind := .binary, afterBlob := some sha256 }

theorem createChange_fields (name : String) (content : PaperContent) :
    (createChange env revision name content).kind = .create ∧
      (createChange env revision name content).fileId = env.newId name ∧
      (createChange env revision name content).path = name := by
  cases content <;> exact ⟨rfl, rfl, rfl⟩

theorem writtenChanges_new {name : String} {body : Bytes}
    (h : fileAt files (o.source name) = none) :
    writtenChanges env revision files o name body =
      [createChange env revision name (writtenContent env files o name body)] := by
  unfold writtenChanges
  rw [h]
  cases writtenContent env files o name body <;> rfl

end Written

section Filtered

variable (hvalid : ValidOutput files o) (hids : (files.map (·.fileId)).Nodup)
  (hpaths : (files.map (·.path)).Nodup)

include hvalid hids hpaths

theorem filter_renames {file : PaperFile} (hfile : file ∈ files) :
    (o.renames.filterMap fun pair =>
        (fileAt files pair.1).map (renameChange revision · pair.2)).filter
        (·.fileId = file.fileId) =
      if o.target file.path = file.path then [] else [renameChange revision file (o.target file.path)] := by
  rw [List.filterMap_eq_flatMap_toList]
  have hother : ∀ pair ∈ o.renames, pair.1 ≠ file.path →
      (((fileAt files pair.1).map (renameChange revision · pair.2)).toList).filter
        (·.fileId = file.fileId) = [] := by
    intro pair hpair hne
    apply List.filter_eq_nil_iff.mpr
    intro c hc
    obtain ⟨other, hother, rfl⟩ := Option.map_eq_some_iff.mp (Option.mem_toList.mp hc)
    obtain ⟨hmem, hpath⟩ := fileAt_some hother
    intro heq
    have hsame := eq_of_fileId hids hfile hmem (of_decide_eq_true heq)
    exact hne (hpath.symm.trans (congrArg PaperFile.path hsame))
  by_cases hsource : file.path ∈ o.renames.map (·.1)
  · obtain ⟨pair, hpair, heq⟩ := List.mem_map.mp hsource
    rw [List.filter_flatMap_of_unique _ _ o.renames (hvalid.sources_nodup.of_map _) pair hpair,
      ← heq, Output.target_of_mem hvalid.sources_nodup hpair, if_neg (hvalid.target_ne hpair), heq,
      fileAt_mem hpaths hfile]
    · simp [renameChange]
    · intro other hmem hne
      refine hother other hmem fun hpath => hne ?_
      exact List.inj_on_of_nodup_map hvalid.sources_nodup hmem hpair (hpath.trans heq.symm)
  · rw [Output.target_of_not_mem hsource, if_pos rfl]
    apply List.filter_flatMap_eq_nil
    intro pair hpair
    exact hother pair hpair fun heq => hsource (List.mem_map.mpr ⟨pair, hpair, heq⟩)

theorem filter_deletions {file : PaperFile} (hfile : file ∈ files) :
    (o.deletions.filterMap fun name => (fileAt files name).map (deleteChange revision)).filter
        (·.fileId = file.fileId) =
      if file.path ∈ o.deletions then [deleteChange revision file] else [] := by
  rw [List.filterMap_eq_flatMap_toList]
  have hother : ∀ name ∈ o.deletions, name ≠ file.path →
      (((fileAt files name).map (deleteChange revision)).toList).filter
        (·.fileId = file.fileId) = [] := by
    intro name _ hne
    apply List.filter_eq_nil_iff.mpr
    intro c hc
    obtain ⟨other, hother, rfl⟩ := Option.map_eq_some_iff.mp (Option.mem_toList.mp hc)
    obtain ⟨hmem, hpath⟩ := fileAt_some hother
    intro heq
    have hsame := eq_of_fileId hids hfile hmem (of_decide_eq_true heq)
    exact hne (hpath.symm.trans (congrArg PaperFile.path hsame))
  split
  next hdeleted =>
    rw [List.filter_flatMap_of_unique _ _ o.deletions hvalid.deletions_nodup file.path hdeleted
      hother, fileAt_mem hpaths hfile]
    simp [deleteChange]
  next hkept =>
    apply List.filter_flatMap_eq_nil
    intro name hname
    exact hother name hname fun heq => hkept (heq ▸ hname)

theorem filter_written {file : PaperFile} (hfile : file ∈ files)
    (hnew : ∀ name, file.fileId ≠ env.newId name) :
    ((sortedFiles o).flatMap fun e => writtenChanges env revision files o e.1 e.2).filter
        (·.fileId = file.fileId) = contentChanges env revision files o file := by
  have hother : ∀ e ∈ sortedFiles o, e.1 ≠ o.target file.path →
      (writtenChanges env revision files o e.1 e.2).filter (·.fileId = file.fileId) = [] := by
    intro e he hne
    apply List.filter_eq_nil_iff.mpr
    intro c hc
    simp only [decide_eq_true_eq]
    intro heq
    cases hsource : fileAt files (o.source e.1) with
    | none =>
        rw [writtenChanges_new env revision hsource, List.mem_singleton] at hc
        rw [hc, (createChange_fields env revision _ _).2.1] at heq
        exact hnew e.1 heq.symm
    | some other =>
        rw [writtenChanges_replaced env revision hsource c hc] at heq
        have hsame := eq_of_fileId hids hfile (fileAt_some hsource).1 heq
        rw [hsame] at hsource
        exact hne ((hvalid.source_eq_iff hpaths (mem_files_of_sorted he) hfile).mp hsource)
  unfold contentChanges
  cases hbody : o.files.get? (o.target file.path) with
  | none =>
      apply List.filter_flatMap_eq_nil
      intro e he
      refine hother e he fun heq => ?_
      rw [← heq, (mem_sortedFiles e).mp he] at hbody
      cases hbody
  | some body =>
      have hmem : (o.target file.path, body) ∈ sortedFiles o := (mem_sortedFiles _).mpr hbody
      rw [List.filter_flatMap_of_unique _ _ _ ((sortedFiles_nodup o).of_map _) _ hmem]
      · apply List.filter_eq_self.mpr
        intro c hc
        rw [decide_eq_true_eq]
        have hsource := (hvalid.source_eq_iff hpaths (mem_files_of_sorted hmem) hfile).mpr rfl
        exact writtenChanges_replaced env revision hsource c hc
      · intro e he hne
        refine hother e he fun heq => hne ?_
        exact List.inj_on_of_nodup_map (sortedFiles_nodup o) he hmem heq

/-- The changes of a file: its move, then those of its content. -/
theorem filter_outputChanges {file : PaperFile} (hfile : file ∈ files)
    (hnew : ∀ name, file.fileId ≠ env.newId name) :
    (outputChanges env revision files o).filter (·.fileId = file.fileId) =
      moveChanges revision o file ++ contentChanges env revision files o file := by
  rw [outputChanges, List.filter_append, List.filter_append,
    filter_renames revision hvalid hids hpaths hfile,
    filter_deletions revision hvalid hids hpaths hfile,
    filter_written env revision hvalid hids hpaths hfile hnew]
  congr 1
  unfold moveChanges
  by_cases hdeleted : file.path ∈ o.deletions
  · have hkept : file.path ∉ o.renames.map (·.1) := by
      intro hsource
      obtain ⟨pair, hpair, heq⟩ := List.mem_map.mp hsource
      exact (hvalid.sources_kept pair hpair).1 (heq ▸ hdeleted)
    rw [if_pos hdeleted, if_pos hdeleted, if_pos (Output.target_of_not_mem hkept), List.nil_append]
  · rw [if_neg hdeleted, if_neg hdeleted, List.append_nil]

omit hvalid hids hpaths in
/-- A new file is created once. -/
theorem filter_created {name : String} {body : Bytes} (hbody : o.files.get? name = some body)
    (hcreated : fileAt files (o.source name) = none) (hinj : Function.Injective env.newId)
    (hnew : ∀ file ∈ files, file.fileId ≠ env.newId name) :
    (outputChanges env revision files o).filter (·.fileId = env.newId name) =
      [createChange env revision name (writtenContent env files o name body)] := by
  have hrenames : (o.renames.filterMap fun pair =>
      (fileAt files pair.1).map (renameChange revision · pair.2)).filter
      (·.fileId = env.newId name) = [] := by
    apply List.filter_eq_nil_iff.mpr
    intro c hc
    obtain ⟨pair, -, hpair⟩ := List.mem_filterMap.mp hc
    obtain ⟨file, hfile, rfl⟩ := Option.map_eq_some_iff.mp hpair
    exact fun heq => hnew file (fileAt_some hfile).1 (of_decide_eq_true heq)
  have hdeletions : (o.deletions.filterMap fun name =>
      (fileAt files name).map (deleteChange revision)).filter
      (·.fileId = env.newId name) = [] := by
    apply List.filter_eq_nil_iff.mpr
    intro c hc
    obtain ⟨path, -, hpath⟩ := List.mem_filterMap.mp hc
    obtain ⟨file, hfile, rfl⟩ := Option.map_eq_some_iff.mp hpath
    exact fun heq => hnew file (fileAt_some hfile).1 (of_decide_eq_true heq)
  have hmem : (name, body) ∈ sortedFiles o := (mem_sortedFiles _).mpr hbody
  rw [outputChanges, List.filter_append, List.filter_append, hrenames, hdeletions, List.nil_append,
    List.filter_flatMap_of_unique _ _ _ ((sortedFiles_nodup o).of_map _) _ hmem,
    writtenChanges_new env revision hcreated]
  · apply List.filter_eq_self.mpr
    intro c hc
    rw [List.mem_singleton.mp hc, (createChange_fields env revision _ _).2.1]
    exact decide_eq_true rfl
  · intro e he hne
    apply List.filter_eq_nil_iff.mpr
    intro c hc
    simp only [decide_eq_true_eq]
    intro heq
    cases hsource : fileAt files (o.source e.1) with
    | none =>
        rw [writtenChanges_new env revision hsource, List.mem_singleton] at hc
        rw [hc, (createChange_fields env revision _ _).2.1] at heq
        exact hne (List.inj_on_of_nodup_map (sortedFiles_nodup o) he hmem (hinj heq))
    | some file =>
        rw [writtenChanges_replaced env revision hsource c hc] at heq
        exact hnew file (fileAt_some hsource).1 heq

end Filtered

end RcpGraph.Paper
