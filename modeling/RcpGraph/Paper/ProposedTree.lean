import RcpGraph.Paper.Applied

/-!
The proposed tree, file by file. The files of the paper that are not deleted come at
their paths with what was written there, and the new files at theirs.
-/

namespace RcpGraph.Paper

open EditScript

/-- A turn of the coach on a part of the saved paper, with identities as they are made. -/
structure Turn (env : CoachEnv) (snapshot tree : PaperSnapshot env.digest) : Prop where
  revision : snapshot.revision = tree.revision
  part : ∀ file ∈ snapshot.files, file ∈ tree.files
  matcher : ∀ old new, Script old new (env.getOpcodes old new)
  digest : Function.Injective env.digest
  newId : Function.Injective env.newId
  fresh : ∀ file ∈ tree.files, ∀ name, file.fileId ≠ env.newId name ∧ file.fileId ≠ "new:" ++ name

theorem append_right_inj_string {a b c : String} (h : a ++ b = a ++ c) : b = c := by
  have hlist := congrArg String.toList h
  rw [String.toList_append, String.toList_append] at hlist
  exact String.toList_inj.mp (List.append_cancel_left hlist)

section Proposed

variable {env : CoachEnv} {snapshot tree : PaperSnapshot env.digest} {o : Output}

/-- What is proposed for a file of the paper. -/
def proposedOf (env : CoachEnv) (files : List PaperFile) (o : Output) (file : PaperFile) :
    PaperFile where
  fileId := file.fileId
  path := o.target file.path
  content :=
    match o.files.get? (o.target file.path) with
    | none => file.content
    | some body => writtenContent env files o (o.target file.path) body

/-- The files that are not deleted. -/
def keptFiles (files : List PaperFile) (o : Output) : List PaperFile :=
  files.filter (·.path ∉ o.deletions)

/-- The files that are created. -/
def newFiles (files : List PaperFile) (o : Output) : List (String × Bytes) :=
  o.files.entries.filter fun e => (fileAt files (o.source e.1)).isNone

theorem mem_newFiles {files : List PaperFile} (e : String × Bytes) :
    e ∈ newFiles files o ↔ o.files.get? e.1 = some e.2 ∧ fileAt files (o.source e.1) = none := by
  rw [newFiles, List.mem_filter, Option.isNone_iff_eq_none, Dict.get?_eq_some_iff]

/-- The files of the paper as a part of it are found in the whole. -/
theorem Turn.mem_of_path (turn : Turn env snapshot tree) {file other : PaperFile}
    (hfile : file ∈ tree.files) (hother : other ∈ snapshot.files) (h : other.path = file.path) :
    file ∈ snapshot.files := by
  have heq := List.inj_on_of_nodup_map tree.paths_nodup (turn.part other hother) hfile h
  exact heq ▸ hother

theorem Turn.mem_of_fileId (turn : Turn env snapshot tree) {file other : PaperFile}
    (hfile : file ∈ tree.files) (hother : other ∈ snapshot.files)
    (h : other.fileId = file.fileId) : other = file :=
  eq_of_fileId tree.ids_nodup hfile (turn.part other hother) h

theorem Turn.kept_of_not_mem (turn : Turn env snapshot tree) (hvalid : ValidOutput snapshot.files o)
    {file : PaperFile} (hfile : file ∈ tree.files) (hout : file ∉ snapshot.files) :
    file.path ∉ o.deletions ∧ o.target file.path = file.path := by
  have hlive : ∀ path, (fileAt snapshot.files path).isSome = true → path ≠ file.path := by
    intro path hpath heq
    obtain ⟨other, hother⟩ := Option.isSome_iff_exists.mp hpath
    obtain ⟨hmem, hother⟩ := fileAt_some hother
    exact hout (turn.mem_of_path hfile hmem (hother.trans heq))
  constructor
  · intro hdeleted
    exact hlive _ (hvalid.deletions_live _ hdeleted) rfl
  · apply Output.target_of_not_mem
    intro hsource
    obtain ⟨pair, hpair, heq⟩ := List.mem_map.mp hsource
    exact hlive _ (hvalid.sources_live pair hpair) heq

variable (turn : Turn env snapshot tree) (hvalid : ValidOutput snapshot.files o)

include turn hvalid

theorem proposedKey_inj {e e' : String × Bytes} (he : e ∈ sortedFiles o) (he' : e' ∈ sortedFiles o)
    (h : proposedKey snapshot.files o e.1 = proposedKey snapshot.files o e'.1) : e = e' := by
  have hname : e.1 = e'.1 := by
    unfold proposedKey at h
    cases hsource : fileAt snapshot.files (o.source e.1) with
    | none =>
        cases hsource' : fileAt snapshot.files (o.source e'.1) with
        | none =>
            rw [hsource, hsource'] at h
            exact append_right_inj_string h
        | some file =>
            rw [hsource, hsource'] at h
            exact absurd h.symm (turn.fresh file (turn.part file (fileAt_some hsource').1) e.1).2
    | some file =>
        cases hsource' : fileAt snapshot.files (o.source e'.1) with
        | none =>
            rw [hsource, hsource'] at h
            exact absurd h (turn.fresh file (turn.part file (fileAt_some hsource).1) e'.1).2
        | some file' =>
            rw [hsource, hsource'] at h
            have hmem := (fileAt_some hsource).1
            have heq : file' = file :=
              eq_of_fileId snapshot.ids_nodup hmem (fileAt_some hsource').1 h.symm
            rw [heq] at hsource'
            rw [(hvalid.source_eq_iff snapshot.paths_nodup (mem_files_of_sorted he) hmem).mp hsource,
              (hvalid.source_eq_iff snapshot.paths_nodup (mem_files_of_sorted he') hmem).mp hsource']
  exact List.inj_on_of_nodup_map (sortedFiles_nodup o) he he' hname

/-- The entries that the written files add. -/
theorem written_nodup :
    (((sortedFiles o).map fun e => (proposedKey snapshot.files o e.1,
      proposedFile env snapshot.files o e.1 e.2)).map Prod.fst).Nodup := by
  rw [List.map_map]
  refine List.Nodup.map_on ?_ ((sortedFiles_nodup o).of_map _)
  intro e he e' he' h
  exact proposedKey_inj turn hvalid he he' h

omit turn hvalid in
theorem kept_nodup :
    (((keptFiles tree.files o).map fun file =>
      (file.fileId, { file with path := o.target file.path })).map Prod.fst).Nodup := by
  rw [List.map_map]
  exact tree.ids_nodup.sublist (List.filter_sublist.map _)

/-- What the proposed tree has under a key. -/
theorem proposedTree_get? (k : String) :
    (proposedTree env snapshot.files tree.files o).get? k =
      (Assoc.find k ((sortedFiles o).map fun e => (proposedKey snapshot.files o e.1,
          proposedFile env snapshot.files o e.1 e.2))).or
        (Assoc.find k ((keptFiles tree.files o).map fun file =>
          (file.fileId, { file with path := o.target file.path }))) := by
  rw [proposedTree, Dict.get?_update _ _ (written_nodup turn hvalid)]
  congr 1
  exact Dict.get?_ofList _ kept_nodup k

/-- A new file is proposed at its path. -/
theorem proposedTree_new {e : String × Bytes} (he : e ∈ newFiles snapshot.files o) :
    (proposedTree env snapshot.files tree.files o).get? ("new:" ++ e.1) =
      some (proposedFile env snapshot.files o e.1 e.2) := by
  obtain ⟨hbody, hsource⟩ := (mem_newFiles e).mp he
  have hmem : ("new:" ++ e.1, proposedFile env snapshot.files o e.1 e.2) ∈
      (sortedFiles o).map fun e => (proposedKey snapshot.files o e.1,
        proposedFile env snapshot.files o e.1 e.2) := by
    refine List.mem_map.mpr ⟨e, (mem_sortedFiles e).mpr hbody, ?_⟩
    rw [proposedKey, hsource]
  rw [proposedTree_get? turn hvalid,
    (Assoc.find_eq_some_iff _ (written_nodup turn hvalid) _ _).mpr hmem, Option.some_or]

/-- A file that the coach has not seen is proposed as it is. -/
theorem proposedTree_unseen {file : PaperFile} (hfile : file ∈ tree.files)
    (hout : file ∉ snapshot.files) :
    (proposedTree env snapshot.files tree.files o).get? file.fileId = some file := by
  obtain ⟨hkept, htarget⟩ := turn.kept_of_not_mem hvalid hfile hout
  have hmem : (file.fileId, file) ∈ (keptFiles tree.files o).map fun file =>
      (file.fileId, { file with path := o.target file.path }) := by
    refine List.mem_map.mpr ⟨file, List.mem_filter.mpr ⟨hfile, by simpa using hkept⟩, ?_⟩
    rw [htarget]
  rw [proposedTree_get? turn hvalid, Assoc.find_eq_none,
    (Assoc.find_eq_some_iff _ kept_nodup _ _).mpr hmem, Option.none_or]
  intro hkey
  obtain ⟨x, hx, hxk⟩ := List.mem_map.mp hkey
  obtain ⟨e, -, rfl⟩ := List.mem_map.mp hx
  unfold proposedKey at hxk
  cases hsource : fileAt snapshot.files (o.source e.1) with
  | none =>
      rw [hsource] at hxk
      exact (turn.fresh file hfile e.1).2 hxk.symm
  | some other =>
      rw [hsource] at hxk
      obtain ⟨hother, -⟩ := fileAt_some hsource
      exact hout (turn.mem_of_fileId hfile hother hxk ▸ hother)

/-- A file that the coach has seen is proposed at its path, with what was written there. -/
theorem proposedTree_seen {file : PaperFile} (hfile : file ∈ snapshot.files)
    (hkept : file.path ∉ o.deletions) :
    (proposedTree env snapshot.files tree.files o).get? file.fileId =
      some (proposedOf env snapshot.files o file) := by
  have htree : (file.fileId, { file with path := o.target file.path }) ∈
      (keptFiles tree.files o).map fun file =>
        (file.fileId, { file with path := o.target file.path }) :=
    List.mem_map.mpr ⟨file, List.mem_filter.mpr ⟨turn.part file hfile, by simpa using hkept⟩, rfl⟩
  rw [proposedTree_get? turn hvalid,
    (Assoc.find_eq_some_iff _ kept_nodup _ _).mpr htree]
  cases hbody : o.files.get? (o.target file.path) with
  | some body =>
      have hsource := (hvalid.source_eq_iff snapshot.paths_nodup (Dict.mem_of_get? hbody) hfile).mpr rfl
      have hmem : (file.fileId, proposedOf env snapshot.files o file) ∈
          (sortedFiles o).map fun e => (proposedKey snapshot.files o e.1,
            proposedFile env snapshot.files o e.1 e.2) := by
        refine List.mem_map.mpr ⟨(o.target file.path, body), (mem_sortedFiles _).mpr hbody, ?_⟩
        rw [proposedKey, hsource, proposedFile, hsource, proposedOf, hbody]
        rfl
      rw [(Assoc.find_eq_some_iff _ (written_nodup turn hvalid) _ _).mpr hmem, Option.some_or]
  | none =>
      rw [Assoc.find_eq_none, Option.none_or, proposedOf, hbody]
      intro hkey
      obtain ⟨x, hx, hxk⟩ := List.mem_map.mp hkey
      obtain ⟨e, he, rfl⟩ := List.mem_map.mp hx
      unfold proposedKey at hxk
      cases hsource : fileAt snapshot.files (o.source e.1) with
      | none =>
          rw [hsource] at hxk
          exact (turn.fresh file (turn.part file hfile) e.1).2 hxk.symm
      | some other =>
          rw [hsource] at hxk
          have heq := eq_of_fileId snapshot.ids_nodup hfile (fileAt_some hsource).1 hxk
          rw [heq] at hsource
          have hname := (hvalid.source_eq_iff snapshot.paths_nodup (mem_files_of_sorted he) hfile).mp
            hsource
          rw [← hname, (mem_sortedFiles e).mp he] at hbody
          cases hbody

/-- Only files of the paper and new files are proposed. -/
theorem proposedTree_keys (k : String) (hk : k ∈ proposedTree env snapshot.files tree.files o) :
    (∃ file ∈ keptFiles tree.files o, k = file.fileId) ∨
      ∃ e ∈ newFiles snapshot.files o, k = "new:" ++ e.1 := by
  obtain ⟨file, hfile⟩ := (Dict.mem_iff_exists _ _).mp hk
  rw [proposedTree_get? turn hvalid] at hfile
  cases hwritten : Assoc.find k ((sortedFiles o).map fun e => (proposedKey snapshot.files o e.1,
      proposedFile env snapshot.files o e.1 e.2)) with
  | none =>
      rw [hwritten, Option.none_or] at hfile
      obtain ⟨x, hx, hxk⟩ := List.mem_map.mp (Assoc.mem_of_find _ _ _ hfile)
      exact .inl ⟨x, hx, (congrArg Prod.fst hxk).symm⟩
  | some proposed =>
      obtain ⟨e, he, hek⟩ := List.mem_map.mp (Assoc.mem_of_find _ _ _ hwritten)
      have hkey := congrArg Prod.fst hek
      simp only [proposedKey] at hkey
      cases hsource : fileAt snapshot.files (o.source e.1) with
      | none =>
          rw [hsource] at hkey
          exact .inr ⟨e, (mem_newFiles e).mpr ⟨(mem_sortedFiles e).mp he, hsource⟩, hkey.symm⟩
      | some original =>
          rw [hsource] at hkey
          obtain ⟨hmem, -⟩ := fileAt_some hsource
          refine .inl ⟨original, List.mem_filter.mpr ⟨turn.part original hmem, ?_⟩, hkey.symm⟩
          have hname :=
            (hvalid.source_eq_iff snapshot.paths_nodup (mem_files_of_sorted he) hmem).mp hsource
          rw [decide_eq_true_eq]
          intro hdeleted
          obtain ⟨hnot, -⟩ := hvalid.deletions_gone _ hdeleted
          rw [← (contentChanges_of_deleted env 0 hvalid hdeleted).2, ← hname] at hnot
          exact hnot (mem_files_of_sorted he)

section Valid

variable {find : String → Option Bytes}
  (hproposed : ValidTree find (proposedTree env snapshot.files tree.files o).values)

omit turn hvalid in
include hproposed in
/-- A path is proposed once. -/
theorem key_of_path {k k' : String} {file file' : PaperFile}
    (hfile : (proposedTree env snapshot.files tree.files o).get? k = some file)
    (hfile' : (proposedTree env snapshot.files tree.files o).get? k' = some file')
    (h : file.path = file'.path) : k = k' := by
  have hnodup := hproposed.nodup
  rw [Dict.values, List.map_map] at hnodup
  have heq := List.inj_on_of_nodup_map hnodup ((Dict.get?_eq_some_iff _ _ _).mp hfile)
    ((Dict.get?_eq_some_iff _ _ _).mp hfile') h
  exact congrArg Prod.fst heq

include hproposed

theorem unseen_not_written {file : PaperFile} (hfile : file ∈ tree.files)
    (hout : file ∉ snapshot.files) : o.files.get? file.path = none := by
  cases hbody : o.files.get? file.path with
  | none => rfl
  | some body =>
      have hname : fileAt snapshot.files (o.source file.path) = none := by
        cases hsource : fileAt snapshot.files (o.source file.path) with
        | none => rfl
        | some other =>
            obtain ⟨hother, -⟩ := fileAt_some hsource
            have htarget := (hvalid.source_eq_iff snapshot.paths_nodup (Dict.mem_of_get? hbody)
              hother).mp hsource
            have hkept : other.path ∉ o.deletions := by
              intro hdeleted
              have hgone := (hvalid.deletions_gone _ hdeleted).1
              rw [← (contentChanges_of_deleted env 0 hvalid hdeleted).2, ← htarget] at hgone
              exact hgone (Dict.mem_of_get? hbody)
            have hkey := key_of_path hproposed (proposedTree_seen turn hvalid hother hkept)
              (proposedTree_unseen turn hvalid hfile hout) htarget.symm
            exact absurd (turn.mem_of_fileId hfile hother hkey ▸ hother) hout
      have hkey := key_of_path hproposed
        (proposedTree_new turn hvalid ((mem_newFiles (file.path, body)).mpr ⟨hbody, hname⟩))
        (proposedTree_unseen turn hvalid hfile hout) rfl
      exact absurd hkey.symm (turn.fresh file hfile file.path).2

/-- A file of the paper is proposed at its path, with what was written there. -/
theorem proposedTree_file {file : PaperFile} (hfile : file ∈ keptFiles tree.files o) :
    (proposedTree env snapshot.files tree.files o).get? file.fileId =
      some (proposedOf env snapshot.files o file) := by
  obtain ⟨hmem, hkept⟩ := List.mem_filter.mp hfile
  by_cases hin : file ∈ snapshot.files
  · exact proposedTree_seen turn hvalid hin (by simpa using hkept)
  · rw [proposedTree_unseen turn hvalid hmem hin, proposedOf,
      (turn.kept_of_not_mem hvalid hmem hin).2, unseen_not_written turn hvalid hproposed hmem hin]

/-- Nothing of the paper is at the path of a new file. -/
theorem newFiles_free {e : String × Bytes} (he : e ∈ newFiles snapshot.files o) :
    fileAt tree.files e.1 = none := by
  obtain ⟨hbody, hsource⟩ := (mem_newFiles e).mp he
  cases h : fileAt tree.files e.1 with
  | none => rfl
  | some file =>
      obtain ⟨hfile, hpath⟩ := fileAt_some h
      by_cases hin : file ∈ snapshot.files
      · have hfree := ((hvalid.source_eq_none_iff e.1).mp hsource).1
        rw [← hpath, fileAt_mem snapshot.paths_nodup hin] at hfree
        cases hfree
      · have hnone := unseen_not_written turn hvalid hproposed hfile hin
        rw [hpath, hbody] at hnone
        cases hnone

/-- Nothing of the paper is at the destination of a rename. -/
theorem renames_free {pair : String × String} (hpair : pair ∈ o.renames) :
    fileAt tree.files pair.2 = none := by
  cases h : fileAt tree.files pair.2 with
  | none => rfl
  | some file =>
      obtain ⟨hfile, hpath⟩ := fileAt_some h
      by_cases hin : file ∈ snapshot.files
      · have hfree := hvalid.targets_free pair hpair
        rw [← hpath, fileAt_mem snapshot.paths_nodup hin] at hfree
        cases hfree
      · obtain ⟨moved, hmoved⟩ := Option.isSome_iff_exists.mp (hvalid.sources_live pair hpair)
        obtain ⟨hmem, hsource⟩ := fileAt_some hmoved
        have hkept : moved.path ∉ o.deletions := hsource ▸ (hvalid.sources_kept pair hpair).1
        have htarget : o.target moved.path = file.path := by
          rw [hsource, Output.target_of_mem hvalid.sources_nodup hpair, hpath]
        have hkey := key_of_path hproposed (proposedTree_seen turn hvalid hmem hkept)
          (proposedTree_unseen turn hvalid hfile hin) htarget
        exact absurd (turn.mem_of_fileId hfile hmem hkey ▸ hmem) hin

/-- The files that the proposed tree consists of. -/
theorem proposedTree_perm :
    (proposedTree env snapshot.files tree.files o).values.Perm
      ((keptFiles tree.files o).map (proposedOf env snapshot.files o) ++
        (newFiles snapshot.files o).map fun e => proposedFile env snapshot.files o e.1 e.2) := by
  have hperm := Dict.entries_perm (proposedTree env snapshot.files tree.files o)
    ((keptFiles tree.files o).map (fun file => (file.fileId, proposedOf env snapshot.files o file)) ++
      (newFiles snapshot.files o).map fun e =>
        ("new:" ++ e.1, proposedFile env snapshot.files o e.1 e.2)) ?_ ?_ ?_
  · have := hperm.map Prod.snd
    rwa [List.map_append, List.map_map, List.map_map] at this
  · rw [List.map_append, List.map_map, List.map_map]
    refine List.Nodup.append ?_ ?_ ?_
    · exact tree.ids_nodup.sublist (List.filter_sublist.map _)
    · refine List.Nodup.map_on ?_ ((o.files.nodup.of_map _).filter _)
      intro e he e' he' h
      exact List.inj_on_of_nodup_map o.files.nodup (List.mem_filter.mp he).1
        (List.mem_filter.mp he').1 (append_right_inj_string h)
    · intro k hk hk'
      obtain ⟨file, hfile, rfl⟩ := List.mem_map.mp hk
      obtain ⟨e, -, heq⟩ := List.mem_map.mp hk'
      exact (turn.fresh file (List.mem_filter.mp hfile).1 e.1).2 heq.symm
  · intro x hx
    cases List.mem_append.mp hx with
    | inl hkept =>
        obtain ⟨file, hfile, rfl⟩ := List.mem_map.mp hkept
        exact proposedTree_file turn hvalid hproposed hfile
    | inr hnew =>
        obtain ⟨e, he, rfl⟩ := List.mem_map.mp hnew
        exact proposedTree_new turn hvalid he
  · intro k hk
    rw [List.map_append, List.map_map, List.map_map, List.mem_append]
    rcases proposedTree_keys turn hvalid k hk with ⟨file, hfile, rfl⟩ | ⟨e, he, rfl⟩
    · exact .inl (List.mem_map.mpr ⟨file, hfile, rfl⟩)
    · exact .inr (List.mem_map.mpr ⟨e, he, rfl⟩)

end Valid

end Proposed

end RcpGraph.Paper
