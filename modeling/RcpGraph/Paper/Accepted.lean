import RcpGraph.Paper.ProposedTree

/-!
Accepting the group of an output on a paper that has not changed. Preparing finds what
every change expects, and applying leaves the proposed tree, unless a new file is
inside a path that the group frees, or is a folder of one.
-/

namespace RcpGraph.Paper

open EditScript

section Same

/-- The same content, up to an added final newline. -/
def SameContent (content proposed : PaperContent) : Prop :=
  content = proposed ∨ ∃ text, content = .text text ∧ proposed = .text (text ++ ['\n'])

def SameFile (file proposed : PaperFile) : Prop :=
  file.path = proposed.path ∧ SameContent file.content proposed.content

/-- The files of two trees pair up. -/
def SameTree (files proposed : List PaperFile) : Prop :=
  ∃ files' proposed', files.Perm files' ∧ proposed.Perm proposed' ∧
    List.Forall₂ SameFile files' proposed'

theorem sameContent_withoutAddedNewline (base text : List Char) :
    SameContent (.text (withoutAddedNewline base text)) (.text text) := by
  unfold withoutAddedNewline
  split
  next h =>
    refine .inr ⟨text.dropLast, rfl, ?_⟩
    have hne : text ≠ [] := by
      intro hnil
      rw [hnil] at h
      cases h.2.2
    rw [← List.dropLast_append_getLast hne]
    have hlast := h.2.2
    rw [List.getLast?_eq_some_getLast hne, Option.some.injEq] at hlast
    rw [hlast, List.dropLast_concat]
  next => exact .inl rfl

/-- The size that a file is counted with. -/
def sizeIn (find : String → Option Bytes) (file : PaperFile) : Nat :=
  ((fileSize find file).toOption).getD 0

theorem sizeIn_eq {find : String → Option Bytes} {file : PaperFile} {n : Nat}
    (h : fileSize find file = .ok n) : sizeIn find file = n := by
  rw [sizeIn, h]
  rfl

theorem treeSize_ok {find : String → Option Bytes} (files : List PaperFile) (n : Nat)
    (h : treeSize find files = .ok n) :
    (∀ file ∈ files, fileSize find file = .ok (sizeIn find file)) ∧
      n = (files.map (sizeIn find)).sum := by
  induction files generalizing n with
  | nil =>
      cases h
      exact ⟨fun file hfile => absurd hfile List.not_mem_nil, rfl⟩
  | cons file files ih =>
      rw [treeSize] at h
      cases hfile : fileSize find file with
      | error e => rw [hfile] at h; cases h
      | ok size =>
          cases hfiles : treeSize find files with
          | error e => rw [hfile, hfiles] at h; cases h
          | ok rest =>
              rw [hfile, hfiles] at h
              cases h
              obtain ⟨hall, hsum⟩ := ih rest hfiles
              constructor
              · intro other hother
                cases List.mem_cons.mp hother with
                | inl heq => rw [heq, hfile, sizeIn_eq hfile]
                | inr hmem => exact hall other hmem
              · rw [List.map_cons, List.sum_cons, sizeIn_eq hfile, ← hsum]

theorem treeSize_eq {find : String → Option Bytes} (files : List PaperFile)
    (h : ∀ file ∈ files, fileSize find file = .ok (sizeIn find file)) :
    treeSize find files = .ok (files.map (sizeIn find)).sum := by
  induction files with
  | nil => rfl
  | cons file files ih =>
      rw [treeSize, h file List.mem_cons_self,
        ih fun other hother => h other (List.mem_cons_of_mem file hother)]
      rfl

theorem utf8Size_append (s t : List Char) : utf8Size (s ++ t) = utf8Size s + utf8Size t := by
  rw [utf8Size, List.map_append, List.sum_append]
  rfl

/-- A file is no larger than the one that was proposed for it. -/
theorem fileSize_of_same {find find' : String → Option Bytes} {file proposed : PaperFile}
    (hfind : ∀ sha256 data data', find sha256 = some data → find' sha256 = some data' →
      data' = data)
    (h : SameFile file proposed)
    (hknown : ∀ sha256, file.content = .binary sha256 → (find' sha256).isSome = true) (n : Nat)
    (hn : fileSize find proposed = .ok n) : ∃ m ≤ n, fileSize find' file = .ok m := by
  unfold fileSize at hn ⊢
  rcases h.2 with heq | ⟨text, hfile, hproposed⟩
  · rw [← heq] at hn
    cases hcontent : file.content with
    | text text =>
        rw [hcontent] at hn
        exact ⟨n, Nat.le_refl n, hn⟩
    | binary sha256 =>
        rw [hcontent] at hn
        obtain ⟨data', hdata'⟩ := Option.isSome_iff_exists.mp (hknown sha256 hcontent)
        cases hdata : find sha256 with
        | none =>
            simp only [hdata] at hn
            cases hn
        | some data =>
            simp only [hdata] at hn
            simp only [hdata', hfind sha256 data data' hdata hdata']
            exact ⟨n, Nat.le_refl n, hn⟩
  · rw [hproposed] at hn
    rw [hfile]
    simp only [List.mem_append, utf8Size_append] at hn
    split at hn
    · cases hn
    next hnul =>
      split at hn
      · cases hn
      next hsize =>
        cases hn
        refine ⟨utf8Size text, Nat.le_add_right _ _, ?_⟩
        simp only
        rw [if_neg fun h => hnul (.inl h), if_neg (by omega)]

theorem map_path_of_same {files proposed : List PaperFile}
    (h : List.Forall₂ SameFile files proposed) :
    files.map (·.path) = proposed.map (·.path) := by
  induction h with
  | nil => rfl
  | cons hfile _ ih => rw [List.map_cons, List.map_cons, hfile.1, ih]

theorem sizes_le {find find' : String → Option Bytes} {files proposed : List PaperFile}
    (h : List.Forall₂ (fun file proposed => fileSize find' file = .ok (sizeIn find' file) ∧
      sizeIn find' file ≤ sizeIn find proposed) files proposed) :
    (∀ file ∈ files, fileSize find' file = .ok (sizeIn find' file)) ∧
      (files.map (sizeIn find')).sum ≤ (proposed.map (sizeIn find)).sum := by
  induction h with
  | nil => exact ⟨fun file hfile => absurd hfile List.not_mem_nil, Nat.le_refl _⟩
  | cons hfile _ ih =>
      obtain ⟨hall, hsum⟩ := ih
      constructor
      · intro other hother
        cases List.mem_cons.mp hother with
        | inl heq => exact heq ▸ hfile.1
        | inr hmem => exact hall other hmem
      · rw [List.map_cons, List.map_cons, List.sum_cons, List.sum_cons]
        exact Nat.add_le_add hfile.2 hsum

/-- A tree like a valid one is valid. -/
theorem ValidTree.of_same {find find' : String → Option Bytes} {files proposed : List PaperFile}
    (hvalid : ValidTree find proposed) (h : SameTree files proposed)
    (hfind : ∀ sha256 data data', find sha256 = some data → find' sha256 = some data' →
      data' = data)
    (hknown : ∀ file ∈ files, ∀ sha256, file.content = .binary sha256 →
      (find' sha256).isSome = true) : ValidTree find' files := by
  obtain ⟨files', proposed', hfiles, hproposed, hsame⟩ := h
  have hpaths : (files.map (·.path)).Perm (proposed.map (·.path)) := by
    refine (hfiles.map _).trans ?_
    rw [map_path_of_same hsame]
    exact (hproposed.map _).symm
  have hpath : ∀ file ∈ files, ∃ file' ∈ proposed, file'.path = file.path := by
    intro file hfile
    exact List.mem_map.mp (hpaths.mem_iff.mp (List.mem_map.mpr ⟨file, hfile, rfl⟩))
  refine ⟨?_, ?_, hpaths.nodup_iff.mpr hvalid.nodup, ?_, ?_⟩
  · have := hpaths.length_eq
    rw [List.length_map, List.length_map] at this
    rw [this]
    exact hvalid.count
  · intro file hfile
    obtain ⟨file', hfile', heq⟩ := hpath file hfile
    exact heq ▸ hvalid.paths file' hfile'
  · intro file hfile other hother
    obtain ⟨file', hfile', heq⟩ := hpath file hfile
    obtain ⟨other', hother', heq'⟩ := hpath other hother
    rw [← heq, ← heq']
    exact hvalid.apart file' hfile' other' hother'
  · obtain ⟨n, hn, hle⟩ := hvalid.size
    obtain ⟨hsizes, rfl⟩ := treeSize_ok _ _ hn
    have hle' : List.Forall₂ (fun file proposed => fileSize find' file = .ok (sizeIn find' file) ∧
        sizeIn find' file ≤ sizeIn find proposed) files' proposed' := by
      refine List.forall₂_iff_get.mpr ⟨hsame.length_eq, fun i hi hi' => ?_⟩
      have hfile := hsame.get hi hi'
      obtain ⟨m, hm, hsize⟩ := fileSize_of_same hfind hfile
        (hknown _ (hfiles.mem_iff.mpr (List.get_mem _ _))) _
        (hsizes _ (hproposed.mem_iff.mpr (List.get_mem _ _)))
      rw [sizeIn_eq hsize]
      exact ⟨hsize, hm⟩
    obtain ⟨hall, hsum⟩ := sizes_le hle'
    refine ⟨_, treeSize_eq files fun file hfile => hall file (hfiles.mem_iff.mp hfile), ?_⟩
    calc (files.map (sizeIn find')).sum
        = (files'.map (sizeIn find')).sum := (hfiles.map _).sum_eq
      _ ≤ (proposed'.map (sizeIn find)).sum := hsum
      _ = (proposed.map (sizeIn find)).sum := (hproposed.map _).sum_eq.symm
      _ ≤ paperMaxTreeBytes := hle

end Same

variable {env : CoachEnv} {snapshot tree : PaperSnapshot env.digest} {o : Output}

section Prepared

/-- A paper that has not changed since the turn, and has the blobs of the collected changes. Its
texts can be read back, new identities have not been used, no operation meets the rate of the
project or the size of the encoded documents, and pycrdt edits texts as it documents. -/
structure Unchanged (env : CoachEnv) (tree : PaperSnapshot env.digest) (store : BlobStore env.digest)
    (saved : List String) (paper : LiveEnv) (live : LiveStore) : Prop where
  matcher : ∀ old new, Script old new (paper.getOpcodes old new)
  texts : ∀ file ∈ tree.files, ∀ text, file.content = .text text →
    paper.textAt file.fileId tree.revision = some text
  addressed : ∀ sha256 data, live.blob sha256 = some data → env.digest data = sha256
  stored : ∀ sha256, (store.find sha256).isSome = true → (live.blob sha256).isSome = true
  saved : ∀ sha256 ∈ saved, (live.blob sha256).isSome = true
  fresh : ∀ name, live.tombstone (env.newId name) = none
  admits : ∀ ops, live.admits ops = true
  edits : live.EditsBytes

/-- No new file is inside a path that is renamed or deleted, or is a folder of one. -/
def Clear (files : List PaperFile) (o : Output) : Prop :=
  ∀ name ∈ o.files, fileAt files name = none → name ∉ o.renames.map (·.2) →
    ∀ old ∈ o.renames.map (·.1) ++ o.deletions,
      isUnder name old = false ∧ isUnder old name = false

theorem sameContent_whole (file : PaperFile) (c : Change) (hbefore : c.before = file.text.getD [])
    (hblob : c.beforeBlob = file.blobSha256) : sameContent file c = true := by
  rw [sameContent, hbefore, hblob, PaperFile.text, PaperFile.kind]
  cases file.content <;> simp

variable (turn : Turn env snapshot tree) (hvalid : ValidOutput snapshot.files o)
  {find : String → Option Bytes}
  (hproposed : ValidTree find (proposedTree env snapshot.files tree.files o).values)

include turn hvalid hproposed

/-- The paths that a group frees are all that can block a new file. -/
theorem createBlocked_iff {e : String × Bytes} (he : e ∈ newFiles snapshot.files o)
    (revision : Nat) (content : PaperContent) :
    createBlocked tree.files (createChange env revision e.1 content) = false ↔
      ∀ old ∈ o.renames.map (·.1) ++ o.deletions,
        isUnder e.1 old = false ∧ isUnder old e.1 = false := by
  obtain ⟨-, hid, hpath⟩ := createChange_fields env revision e.1 content
  have hidFree : tree.files.find? (·.fileId = env.newId e.1) = none := by
    apply List.find?_eq_none.mpr
    intro file hfile
    simpa using (turn.fresh file hfile e.1).1
  rw [createBlocked, hid, hpath, hidFree, newFiles_free turn hvalid hproposed he]
  simp only [Option.isSome_none, Bool.false_or, List.any_eq_false, Bool.or_eq_true, not_or,
    Bool.not_eq_true]
  constructor
  · intro h old hold
    have hlive : (fileAt snapshot.files old).isSome = true := by
      cases List.mem_append.mp hold with
      | inl hsource =>
          obtain ⟨pair, hpair, rfl⟩ := List.mem_map.mp hsource
          exact hvalid.sources_live pair hpair
      | inr hdeleted => exact hvalid.deletions_live old hdeleted
    obtain ⟨file, hfile⟩ := Option.isSome_iff_exists.mp hlive
    obtain ⟨hmem, hpath⟩ := fileAt_some hfile
    rw [← hpath]
    exact h file (turn.part file hmem)
  · intro h file hfile
    by_cases hfreed : file.path ∈ o.renames.map (·.1) ++ o.deletions
    · exact h file.path hfreed
    · rw [List.mem_append, not_or] at hfreed
      have hkept : file ∈ keptFiles tree.files o :=
        List.mem_filter.mpr ⟨hfile, by simpa using hfreed.2⟩
      have hin : proposedOf env snapshot.files o file ∈
          (proposedTree env snapshot.files tree.files o).values :=
        (Dict.mem_values _ _).mpr ⟨_, proposedTree_file turn hvalid hproposed hkept⟩
      have hnew : proposedFile env snapshot.files o e.1 e.2 ∈
          (proposedTree env snapshot.files tree.files o).values :=
        (Dict.mem_values _ _).mpr ⟨_, proposedTree_new turn hvalid he⟩
      have hstays : (proposedOf env snapshot.files o file).path = file.path :=
        Output.target_of_not_mem hfreed.1
      have hbelow := hproposed.apart _ hin _ hnew
      have habove := hproposed.apart _ hnew _ hin
      rw [hstays] at hbelow habove
      exact ⟨hbelow, habove⟩

/-- Every change of an output finds what it expects on the unchanged paper. -/
theorem preparable {store : BlobStore env.digest} {saved : List String} {paper : LiveEnv}
    {live : LiveStore} (unchanged : Unchanged env tree store saved paper live)
    (hclear : Clear snapshot.files o) :
    ∀ c ∈ outputChanges env snapshot.revision snapshot.files o, Preparable paper tree.files c := by
  intro c hc
  rw [outputChanges, List.mem_append, List.mem_append] at hc
  rcases hc with (hc | hc) | hc
  · obtain ⟨pair, hpair, hmap⟩ := List.mem_filterMap.mp hc
    obtain ⟨file, hfile, rfl⟩ := Option.map_eq_some_iff.mp hmap
    obtain ⟨hmem, hpath⟩ := fileAt_some hfile
    refine ⟨PaperChangeKind.noConfusion, fun _ => ⟨file, turn.part file hmem, rfl, rfl, rfl, ?_, ?_, ?_⟩⟩
    · intro hedit
      cases hedit
    · intro _
      exact sameContent_whole file _ rfl rfl
    · intro _
      exact renames_free turn hvalid hproposed hpair
  · obtain ⟨name, hname, hmap⟩ := List.mem_filterMap.mp hc
    obtain ⟨file, hfile, rfl⟩ := Option.map_eq_some_iff.mp hmap
    obtain ⟨hmem, hpath⟩ := fileAt_some hfile
    refine ⟨PaperChangeKind.noConfusion, fun _ => ⟨file, turn.part file hmem, rfl, rfl, rfl, ?_, ?_, ?_⟩⟩
    · intro hedit
      cases hedit
    · intro _
      exact sameContent_whole file _ rfl rfl
    · intro hrename
      cases hrename
  · obtain ⟨e, he, hc⟩ := List.mem_flatMap.mp hc
    cases hsource : fileAt snapshot.files (o.source e.1) with
    | none =>
        have hnew : e ∈ newFiles snapshot.files o :=
          (mem_newFiles e).mpr ⟨(mem_sortedFiles e).mp he, hsource⟩
        rw [writtenChanges_new env _ hsource, List.mem_singleton] at hc
        obtain ⟨hkind, -, -⟩ := createChange_fields env snapshot.revision e.1
          (writtenContent env snapshot.files o e.1 e.2)
        rw [hc]
        refine ⟨fun _ => ?_, fun h => absurd hkind h⟩
        apply (createBlocked_iff turn hvalid hproposed hnew _ _).mpr
        obtain ⟨hfree, htarget⟩ := (hvalid.source_eq_none_iff e.1).mp hsource
        exact hclear e.1 (mem_files_of_sorted he) hfree htarget
    | some file =>
        obtain ⟨hmem, -⟩ := fileAt_some hsource
        have hname := (hvalid.source_eq_iff snapshot.paths_nodup (mem_files_of_sorted he) hmem).mp
          hsource
        have hchange : c ∈ contentChanges env snapshot.revision snapshot.files o file := by
          rw [contentChanges, ← hname, (mem_sortedFiles e).mp he]
          exact hc
        have hfile := turn.part file hmem
        rcases contentChanges_cases env snapshot.revision hvalid snapshot.paths_nodup hmem with
          ⟨hnone, -⟩ | ⟨old, sha256, hcontent, hbinary, -⟩ | ⟨base, text, hcontent, hedits, -⟩
        · rw [hnone] at hchange
          cases hchange
        · rw [hbinary, List.mem_singleton] at hchange
          rw [hchange]
          have hkind : file.kind = .binary := by rw [PaperFile.kind, hcontent]
          have hnoText : file.text = none := by rw [PaperFile.text, hcontent]
          refine ⟨PaperChangeKind.noConfusion, fun _ => ⟨file, hfile, rfl, rfl, hkind, ?_, ?_, ?_⟩⟩
          · intro hedit
            cases hedit
          · intro _
            refine sameContent_whole file _ ?_ rfl
            rw [hnoText]
            rfl
          · intro hrename
            cases hrename
        · rw [hedits] at hchange
          obtain ⟨change, hmemChange, rfl⟩ := List.mem_map.mp hchange
          have hexact := lineChanges_exact env.getOpcodes turn.matcher base text
          obtain ⟨hle, hlen⟩ := hexact.ranges change hmemChange
          have hedit : isEdit (editChange snapshot.revision file change) = true := by
            cases hkind : change.kind <;> simp [isEdit, editChange, editKind, hkind]
          have hkind : file.kind = .text := by rw [PaperFile.kind, hcontent]
          refine ⟨?_, fun _ => ⟨file, hfile, rfl, rfl, hkind, ?_, ?_, ?_⟩⟩
          · intro hcreate
            simp [isEdit, hcreate] at hedit
          · intro _
            refine ⟨base, hcontent, ?_, hle, hlen, hexact.texts change hmemChange⟩
            have htext := unchanged.texts file hfile base hcontent
            rwa [← turn.revision] at htext
          · intro hplain
            rw [hedit] at hplain
            cases hplain
          · intro hrename
            simp [isEdit, hrename] at hedit

end Prepared

section Applied

/-- What a file of the paper ends as, when it is kept. -/
def finalOf (env : CoachEnv) (files : List PaperFile) (o : Output) (file : PaperFile) : PaperFile :=
  { file with path := o.target file.path, content := finalContent env files o file }

/-- What a new file ends as. -/
def newOf (env : CoachEnv) (files : List PaperFile) (o : Output) (e : String × Bytes) : PaperFile :=
  newFile env e.1 (writtenContent env files o e.1 e.2)

/-- What is under an identity once the group has been applied. -/
def resultOf (env : CoachEnv) (files tree : List PaperFile) (o : Output) (fileId : String) :
    Option PaperFile :=
  match tree.find? (·.fileId = fileId) with
  | some file => finalFile env files o file
  | none => ((newFiles files o).find? (env.newId ·.1 = fileId)).map (newOf env files o)

theorem fileId_rangeOp (c : Change) : (rangeOp c).fileId = c.fileId := by
  unfold rangeOp changeOp
  cases c.kind <;> rfl

/-- The operations of an identity are those of its changes. -/
theorem filter_rangeOp (changes : List Change) (fileId : String) :
    (changes.map rangeOp).filter (fun op => op.fileId = fileId) =
      (changes.filter (·.fileId = fileId)).map rangeOp := by
  rw [List.filter_map]
  congr 2
  funext c
  rw [Function.comp_apply, fileId_rangeOp]

theorem get?_putFile (files : Dict String PaperFile) (fileId : String) (file : Option PaperFile)
    (x : String) : (putFile files fileId file).get? x = if x = fileId then file else files.get? x := by
  cases file with
  | none => exact Dict.get?_erase files fileId x
  | some file => exact Dict.get?_insert files fileId x file

/-- Every change is of a file of the snapshot or of a new one. -/
theorem change_fileId (files : List PaperFile) (revision : Nat) :
    ∀ c ∈ outputChanges env revision files o, (∃ file ∈ files, c.fileId = file.fileId) ∨
      ∃ e ∈ newFiles files o, c.fileId = env.newId e.1 := by
  intro c hc
  rw [outputChanges, List.mem_append, List.mem_append] at hc
  rcases hc with (hc | hc) | hc
  · obtain ⟨pair, -, hmap⟩ := List.mem_filterMap.mp hc
    obtain ⟨file, hfile, rfl⟩ := Option.map_eq_some_iff.mp hmap
    exact .inl ⟨file, (fileAt_some hfile).1, rfl⟩
  · obtain ⟨name, -, hmap⟩ := List.mem_filterMap.mp hc
    obtain ⟨file, hfile, rfl⟩ := Option.map_eq_some_iff.mp hmap
    exact .inl ⟨file, (fileAt_some hfile).1, rfl⟩
  · obtain ⟨e, he, hc⟩ := List.mem_flatMap.mp hc
    cases hsource : fileAt files (o.source e.1) with
    | none =>
        rw [writtenChanges_new env revision hsource, List.mem_singleton] at hc
        rw [hc]
        exact .inr ⟨e, (mem_newFiles e).mpr ⟨(mem_sortedFiles e).mp he, hsource⟩,
          (createChange_fields env revision _ _).2.1⟩
    | some file =>
        exact .inl ⟨file, (fileAt_some hsource).1, writtenChanges_replaced env revision hsource c hc⟩

variable (turn : Turn env snapshot tree) (hvalid : ValidOutput snapshot.files o)
  {find : String → Option Bytes}
  (hproposed : ValidTree find (proposedTree env snapshot.files tree.files o).values)
  {store : BlobStore env.digest} {saved : List String} {paper : LiveEnv} {live : LiveStore}
  (unchanged : Unchanged env tree store saved paper live)
  (hsaved : ∀ c ∈ outputChanges env snapshot.revision snapshot.files o, ∀ sha256 ∈ c.afterBlob,
    sha256 ∈ saved)

include turn

omit turn in
/-- The changes of an identity that has none. -/
theorem filter_none (fileId : String) (hout : ∀ file ∈ snapshot.files, fileId ≠ file.fileId)
    (hnew : ∀ e ∈ newFiles snapshot.files o, fileId ≠ env.newId e.1) :
    (ordered (outputChanges env snapshot.revision snapshot.files o)).filter (·.fileId = fileId) =
      [] := by
  apply List.filter_eq_nil_iff.mpr
  intro c hc
  rw [decide_eq_true_eq]
  intro heq
  rcases change_fileId snapshot.files snapshot.revision c
    ((List.perm_insertionSort ChangeOrder _).mem_iff.mp hc) with ⟨file, hfile, hid⟩ | ⟨e, he, hid⟩
  · exact hout file hfile (heq.symm.trans hid)
  · exact hnew e he (heq.symm.trans hid)

include hvalid hproposed unchanged hsaved

/-- The operations of every identity make what is to be under it. -/
theorem foldlM_resultOf (known : String → Option Bytes) (checks : List PaperCheck)
    (hguarded : ∀ c ∈ outputChanges env snapshot.revision snapshot.files o, isEdit c = true →
      editCheck c ∈ checks) (fileId : String) :
    (((ordered (outputChanges env snapshot.revision snapshot.files o)).map rangeOp).filter
        fun op => op.fileId = fileId).foldlM (applyToFile live known checks)
        (tree.files.find? (·.fileId = fileId)) =
      .ok (resultOf env snapshot.files tree.files o fileId) := by
  have hpath : ∀ k file, (proposedTree env snapshot.files tree.files o).get? k = some file →
      isPaperPath file.path = true := fun k file h =>
    hproposed.paths file ((Dict.mem_values _ _).mpr ⟨k, h⟩)
  rw [filter_rangeOp, resultOf]
  cases hfind : tree.files.find? (·.fileId = fileId) with
  | some file =>
      have hfile := List.mem_of_find?_eq_some hfind
      have hid : file.fileId = fileId := by simpa using List.find?_some hfind
      simp only
      rw [← hid]
      by_cases hin : file ∈ snapshot.files
      · have hfilter := filter_outputChanges env snapshot.revision hvalid snapshot.ids_nodup
          snapshot.paths_nodup hin fun name => (turn.fresh file hfile name).1
        have hchange : ∀ c ∈ contentChanges env snapshot.revision snapshot.files o file,
            c ∈ outputChanges env snapshot.revision snapshot.files o := by
          intro c hc
          have := List.mem_append_right (moveChanges snapshot.revision o file) hc
          rw [← hfilter] at this
          exact (List.mem_filter.mp this).1
        refine foldlM_file env snapshot.revision hvalid snapshot.paths_nodup hin snapshot.ids_nodup
          turn.matcher (fun name => (turn.fresh file hfile name).1) live unchanged.edits known checks
          ?_ ?_ ?_
        · intro hkept
          exact hpath _ _ (proposedTree_seen turn hvalid hin hkept)
        · intro c hc sha256 hsha
          exact unchanged.saved sha256 (hsaved c (hchange c hc) sha256 hsha)
        · intro c hc
          exact hguarded c (hchange c hc)
      · obtain ⟨hkept, htarget⟩ := turn.kept_of_not_mem hvalid hfile hin
        rw [filter_none file.fileId, finalFile, if_neg hkept, finalContent, htarget,
          unseen_not_written turn hvalid hproposed hfile hin]
        · rfl
        · intro other hother heq
          exact hin (turn.mem_of_fileId hfile hother heq.symm ▸ hother)
        · intro e _
          exact (turn.fresh file hfile e.1).1
  | none =>
      have hout : ∀ file ∈ snapshot.files, fileId ≠ file.fileId := by
        intro file hfile heq
        have := List.find?_eq_none.mp hfind file (turn.part file hfile)
        simp [heq] at this
      simp only
      cases hnew : (newFiles snapshot.files o).find? (env.newId ·.1 = fileId) with
      | none =>
          rw [filter_none fileId hout]
          · rfl
          · intro e he heq
            have := List.find?_eq_none.mp hnew e he
            simp [heq] at this
      | some e =>
          have he := List.mem_of_find?_eq_some hnew
          have hid : env.newId e.1 = fileId := by simpa using List.find?_some hnew
          obtain ⟨hbody, hsource⟩ := (mem_newFiles e).mp he
          have hfilter := filter_created env snapshot.revision hbody hsource turn.newId
            fun file hfile => (turn.fresh file (turn.part file hfile) e.1).1
          obtain ⟨hkind, -, -⟩ := createChange_fields env snapshot.revision e.1
            (writtenContent env snapshot.files o e.1 e.2)
          have hmem : createChange env snapshot.revision e.1
              (writtenContent env snapshot.files o e.1 e.2) ∈
              outputChanges env snapshot.revision snapshot.files o := by
            have := List.mem_singleton.mpr (rfl : createChange env snapshot.revision e.1
              (writtenContent env snapshot.files o e.1 e.2) = _)
            rw [← hfilter] at this
            exact (List.mem_filter.mp this).1
          rw [← hid, filter_ordered _ _ [createChange env snapshot.revision e.1
            (writtenContent env snapshot.files o e.1 e.2)] [] (hfilter.trans (List.append_nil _).symm)]
          · rw [List.reverse_nil, List.append_nil]
            refine foldlM_created env snapshot.revision live known checks e.1 _ ?_
              (unchanged.fresh e.1) ?_
            · exact hpath _ _ (proposedTree_new turn hvalid he)
            · intro sha256 hcontent
              refine unchanged.saved sha256 (hsaved _ hmem sha256 ?_)
              rw [hcontent]
              rfl
          · intro c hc
            rw [List.mem_singleton.mp hc]
            cases writtenContent env snapshot.files o e.1 e.2 <;> exact ⟨rfl, rfl⟩
          · intro c hc
            cases hc
          · exact List.Pairwise.nil

/-- Applying the operations leaves what is to be under every identity. -/
theorem foldlM_applyOp (known : String → Option Bytes) (checks : List PaperCheck)
    (hguarded : ∀ c ∈ outputChanges env snapshot.revision snapshot.files o, isEdit c = true →
      editCheck c ∈ checks) :
    ∃ final, ((ordered (outputChanges env snapshot.revision snapshot.files o)).map rangeOp).foldlM
        (applyOp live known checks) (Dict.ofList (tree.files.map fun file => (file.fileId, file))) =
      .ok final ∧ ∀ k, final.get? k = resultOf env snapshot.files tree.files o k := by
  refine Dict.foldlM_updateKey PaperOp.fileId (applyToFile live known checks) putFile get?_putFile
    _ _ _ fun k => ?_
  have hstart : (Dict.ofList (tree.files.map fun file => (file.fileId, file))).get? k =
      tree.files.find? (·.fileId = k) := by
    have hnodup : ((tree.files.map fun file => (file.fileId, file)).map Prod.fst).Nodup := by
      rw [List.map_map]
      exact tree.ids_nodup
    rw [Dict.get?_ofList _ hnodup]
    cases hfind : tree.files.find? (·.fileId = k) with
    | none =>
        apply Assoc.find_eq_none
        intro hk
        obtain ⟨x, hx, hxk⟩ := List.mem_map.mp hk
        obtain ⟨file, hfile, rfl⟩ := List.mem_map.mp hx
        have := List.find?_eq_none.mp hfind file hfile
        simp only at hxk
        simp [hxk] at this
    | some file =>
        have hid : file.fileId = k := by simpa using List.find?_some hfind
        exact (Assoc.find_eq_some_iff _ hnodup k file).mpr
          (List.mem_map.mpr ⟨file, List.mem_of_find?_eq_some hfind, by rw [hid]⟩)
  rw [hstart]
  exact foldlM_resultOf turn hvalid hproposed unchanged hsaved known checks hguarded k

omit unchanged hsaved

omit hvalid hproposed in
/-- The files that are left. -/
theorem final_perm {final : Dict String PaperFile}
    (hfinal : ∀ k, final.get? k = resultOf env snapshot.files tree.files o k) :
    final.values.Perm ((keptFiles tree.files o).map (finalOf env snapshot.files o) ++
      (newFiles snapshot.files o).map (newOf env snapshot.files o)) := by
  have hfile : ∀ file ∈ tree.files, resultOf env snapshot.files tree.files o file.fileId =
      finalFile env snapshot.files o file := by
    intro file hfile
    rw [resultOf, find?_fileId tree.ids_nodup hfile]
  have hperm := Dict.entries_perm final
    ((keptFiles tree.files o).map (fun file => (file.fileId, finalOf env snapshot.files o file)) ++
      (newFiles snapshot.files o).map fun e => (env.newId e.1, newOf env snapshot.files o e)) ?_ ?_ ?_
  · have := hperm.map Prod.snd
    rwa [List.map_append, List.map_map, List.map_map] at this
  · rw [List.map_append, List.map_map, List.map_map]
    refine List.Nodup.append ?_ ?_ ?_
    · exact tree.ids_nodup.sublist (List.filter_sublist.map _)
    · refine List.Nodup.map_on ?_ ((o.files.nodup.of_map _).filter _)
      intro e he e' he' h
      exact List.inj_on_of_nodup_map o.files.nodup (List.mem_filter.mp he).1
        (List.mem_filter.mp he').1 (turn.newId h)
    · intro k hk hk'
      obtain ⟨file, hfile, rfl⟩ := List.mem_map.mp hk
      obtain ⟨e, -, heq⟩ := List.mem_map.mp hk'
      exact (turn.fresh file (List.mem_filter.mp hfile).1 e.1).1 heq.symm
  · intro x hx
    cases List.mem_append.mp hx with
    | inl hkept =>
        obtain ⟨file, hmem, rfl⟩ := List.mem_map.mp hkept
        obtain ⟨hin, hkept⟩ := List.mem_filter.mp hmem
        simp only
        rw [hfinal, hfile file hin, finalFile, if_neg (by simpa using hkept)]
        rfl
    | inr hnew =>
        obtain ⟨e, he, rfl⟩ := List.mem_map.mp hnew
        have hnone : tree.files.find? (·.fileId = env.newId e.1) = none := by
          apply List.find?_eq_none.mpr
          intro file hfile
          simpa using (turn.fresh file hfile e.1).1
        simp only
        rw [hfinal, resultOf, hnone]
        simp only
        have hinj : ((newFiles snapshot.files o).map fun e => env.newId e.1).Nodup := by
          refine List.Nodup.map_on ?_ ((o.files.nodup.of_map _).filter _)
          intro e he e' he' h
          exact List.inj_on_of_nodup_map o.files.nodup (List.mem_filter.mp he).1
            (List.mem_filter.mp he').1 (turn.newId h)
        rw [find?_of_nodup_map (fun e : String × Bytes => env.newId e.1) _ hinj e he]
        rfl
  · intro k hk
    obtain ⟨file, hget⟩ := (Dict.mem_iff_exists _ _).mp hk
    rw [hfinal, resultOf] at hget
    rw [List.map_append, List.map_map, List.map_map, List.mem_append]
    cases hfind : tree.files.find? (·.fileId = k) with
    | some original =>
        rw [hfind] at hget
        simp only [finalFile] at hget
        split at hget
        · cases hget
        next hkept =>
          refine .inl (List.mem_map.mpr ⟨original, ?_, by simpa using List.find?_some hfind⟩)
          exact List.mem_filter.mpr ⟨List.mem_of_find?_eq_some hfind, by simpa using hkept⟩
    | none =>
        rw [hfind] at hget
        obtain ⟨e, he, -⟩ := Option.map_eq_some_iff.mp hget
        exact .inr (List.mem_map.mpr ⟨e, List.mem_of_find?_eq_some he, by
          simpa using List.find?_some he⟩)

/-- The files that are left pair up with the proposed ones. -/
theorem final_same {final : Dict String PaperFile}
    (hfinal : ∀ k, final.get? k = resultOf env snapshot.files tree.files o k) :
    SameTree final.values (proposedTree env snapshot.files tree.files o).values := by
  refine ⟨_, _, final_perm turn hfinal, proposedTree_perm turn hvalid hproposed, ?_⟩
  refine List.rel_append ?_ ?_
  · rw [List.forall₂_map_left_iff, List.forall₂_map_right_iff, List.forall₂_same]
    intro file _
    refine ⟨rfl, ?_⟩
    simp only [finalOf, proposedOf, finalContent]
    cases o.files.get? (o.target file.path) with
    | none => exact .inl rfl
    | some body =>
        simp only
        cases writtenContent env snapshot.files o (o.target file.path) body with
        | text text => exact sameContent_withoutAddedNewline _ text
        | binary sha256 => exact .inl rfl
  · rw [List.forall₂_map_left_iff, List.forall₂_map_right_iff, List.forall₂_same]
    intro e _
    exact ⟨rfl, .inl rfl⟩

end Applied

end RcpGraph.Paper
