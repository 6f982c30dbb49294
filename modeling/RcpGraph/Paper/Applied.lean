import RcpGraph.Paper.Group

/-!
Applying a group, one file after another. A file of the paper ends deleted, or at its
path with its content; a new file ends as it was written.
-/

namespace RcpGraph.Paper

open EditScript

section Edits

variable (live : LiveStore) (known : String → Option Bytes) (checks : List PaperCheck)

theorem foldlM_singleton {α β : Type} (f : α → β → Except PaperError α) (a : α) (x : β) :
    [x].foldlM f a = f a x := by
  rw [List.foldlM_cons]
  cases f a x <;> rfl

theorem applyChanges_cons (change : LineChange) (changes : List LineChange) (text : List Char) :
    applyChanges (change :: changes) text =
      replaceRange (applyChanges changes text) change.start change.finish change.after := rfl

/-- Replacing what is past a position keeps that much of the text. -/
theorem le_length_applyChanges (changes : List LineChange) (text : List Char)
    (hordered : changes.Pairwise fun earlier later => earlier.finish < later.start)
    (hranges : ∀ c ∈ changes, c.start ≤ c.finish ∧ c.finish ≤ text.length)
    (n : Nat) (hn : n ≤ text.length) (hstarts : ∀ c ∈ changes, n ≤ c.start) :
    n ≤ (applyChanges changes text).length := by
  induction changes generalizing n with
  | nil => exact hn
  | cons c changes ih =>
      obtain ⟨hlater, hordered⟩ := List.pairwise_cons.mp hordered
      obtain ⟨hle, hlen⟩ := hranges c List.mem_cons_self
      have hrest := ih hordered (fun x hx => hranges x (List.mem_cons_of_mem c hx)) c.start
        (by omega) fun x hx => by
          have := hlater x hx
          omega
      have hstart := hstarts c List.mem_cons_self
      rw [applyChanges_cons, replaceRange, List.length_append, List.length_append,
        List.length_take]
      omega

/-- The edits of a file, from right to left, make its new text. -/
theorem foldlM_edits (hedits : live.EditsBytes) (revision : Nat) (file : PaperFile)
    (moved : PaperFile)
    (changes : List LineChange) (text : List Char) (hcontent : moved.content = .text text)
    (hordered : changes.Pairwise fun earlier later => earlier.finish < later.start)
    (hranges : ∀ c ∈ changes, c.start ≤ c.finish ∧ c.finish ≤ text.length)
    (hguarded : ∀ c ∈ changes, editCheck (editChange revision file c) ∈ checks) :
    ((changes.map (editChange revision file)).reverse.map rangeOp).foldlM
        (applyToFile live known checks) (some moved) =
      .ok (some { moved with content := .text (applyChanges changes text) }) := by
  induction changes with
  | nil =>
      rw [applyChanges, List.foldr_nil, ← hcontent]
      rfl
  | cons c changes ih =>
      obtain ⟨hlater, hordered⟩ := List.pairwise_cons.mp hordered
      obtain ⟨hle, hlen⟩ := hranges c List.mem_cons_self
      have hranges' : ∀ x ∈ changes, x.start ≤ x.finish ∧ x.finish ≤ text.length :=
        fun x hx => hranges x (List.mem_cons_of_mem c hx)
      have hfits : c.finish ≤ (applyChanges changes text).length :=
        le_length_applyChanges changes text hordered hranges' c.finish hlen fun x hx =>
          Nat.le_of_lt (hlater x hx)
      have hguard : guarded checks (rangeOp (editChange revision file c)) = true := by
        apply List.any_eq_true.mpr
        refine ⟨_, hguarded c List.mem_cons_self, ?_⟩
        cases hkind : c.kind <;> simp [editCheck, rangeOp, changeOp, editChange, editKind, hkind]
      have hstep : applyToFile live known checks
          (some { moved with content := .text (applyChanges changes text) })
          (rangeOp (editChange revision file c)) =
          .ok (some { moved with content := .text (applyChanges (c :: changes) text) }) := by
        have hop : rangeOp (editChange revision file c) =
            { kind := .replace, fileId := file.fileId, start := c.start, finish := c.finish,
              text := c.after } := by
          cases hkind : c.kind <;> simp [rangeOp, changeOp, editChange, editKind, hkind]
        rw [hop] at hguard ⊢
        simp only [applyToFile, hguard, not_true_eq_false, if_false]
        rw [if_neg (not_not.mpr ⟨hle, hfits⟩), hedits.replaceText _ _ hle,
          applyChanges_cons]
      rw [List.map_cons, List.reverse_cons, List.map_append, List.foldlM_append,
        ih hordered hranges' fun x hx => hguarded x (List.mem_cons_of_mem c hx), List.map_cons,
        List.map_nil]
      simp only [bind, Except.bind]
      rw [foldlM_singleton, hstep]

end Edits

variable (env : CoachEnv) (revision : Nat) {files : List PaperFile} {o : Output}

/-- The content that a file ends with. -/
def finalContent (files : List PaperFile) (o : Output) (file : PaperFile) : PaperContent :=
  match o.files.get? (o.target file.path) with
  | none => file.content
  | some body =>
      match writtenContent env files o (o.target file.path) body with
      | .text text => .text (withoutAddedNewline (file.text.getD []) text)
      | .binary sha256 => .binary sha256

/-- The file that a file of the paper ends as. -/
def finalFile (files : List PaperFile) (o : Output) (file : PaperFile) : Option PaperFile :=
  if file.path ∈ o.deletions then none
  else some { file with path := o.target file.path, content := finalContent env files o file }

/-- Other bytes for a binary file. -/
def binaryChange (file : PaperFile) (sha256 : String) : Change :=
  { kind := .binary, fileId := file.fileId, path := file.path, baseRevision := revision,
    fileKind := .binary, beforeBlob := file.blobSha256, afterBlob := some sha256 }

/-- A deleted file is neither moved nor written. -/
theorem contentChanges_of_deleted (hvalid : ValidOutput files o) {file : PaperFile}
    (hdeleted : file.path ∈ o.deletions) :
    contentChanges env revision files o file = [] ∧ o.target file.path = file.path := by
  have htarget : o.target file.path = file.path := by
    apply Output.target_of_not_mem
    intro hsource
    obtain ⟨pair, hpair, heq⟩ := List.mem_map.mp hsource
    exact (hvalid.sources_kept pair hpair).1 (heq ▸ hdeleted)
  have hbody : o.files.get? (o.target file.path) = none := by
    rw [htarget, ← Dict.not_mem_iff]
    exact (hvalid.deletions_gone file.path hdeleted).1
  rw [contentChanges, hbody]
  exact ⟨rfl, htarget⟩

section Files

variable (hvalid : ValidOutput files o) (hids : (files.map (·.fileId)).Nodup)
  (hpaths : (files.map (·.path)).Nodup) {file : PaperFile} (hfile : file ∈ files)

include hvalid hpaths hfile

theorem writtenKind_target {body : Bytes} (hbody : o.files.get? (o.target file.path) = some body) :
    writtenKind env files o (o.target file.path) body = file.kind := by
  rw [writtenKind, (hvalid.source_eq_iff hpaths (Dict.mem_of_get? hbody) hfile).mpr rfl]

/-- What changes of the content of a file. -/
theorem contentChanges_cases :
    (contentChanges env revision files o file = [] ∧ finalContent env files o file = file.content) ∨
    (∃ old sha256, file.content = .binary old ∧
      contentChanges env revision files o file = [binaryChange revision file sha256] ∧
      finalContent env files o file = .binary sha256) ∨
    ∃ base text, file.content = .text base ∧
      contentChanges env revision files o file =
        (lineChanges env.getOpcodes base text).map (editChange revision file) ∧
      finalContent env files o file = .text text := by
  unfold contentChanges finalContent
  cases hbody : o.files.get? (o.target file.path) with
  | none => exact .inl ⟨rfl, rfl⟩
  | some body =>
      have hsource := (hvalid.source_eq_iff hpaths (Dict.mem_of_get? hbody) hfile).mpr rfl
      have hkind := writtenKind_target env hvalid hpaths hfile hbody
      simp only
      unfold writtenChanges
      rw [hsource]
      cases hcontent : file.content with
      | binary old =>
          have hwritten : writtenContent env files o (o.target file.path) body =
              .binary (env.digest body) := by
            rw [writtenContent, hkind, PaperFile.kind, hcontent]
          rw [hwritten]
          simp only
          by_cases hsame : some (env.digest body) = file.blobSha256
          · rw [if_pos hsame]
            rw [PaperFile.blobSha256, hcontent, Option.some.injEq] at hsame
            exact .inl ⟨rfl, congrArg PaperContent.binary hsame⟩
          · rw [if_neg hsame]
            exact .inr (.inl ⟨old, env.digest body, rfl, rfl, rfl⟩)
      | text base =>
          have hwritten : writtenContent env files o (o.target file.path) body =
              .text ((env.decode body).getD []) := by
            rw [writtenContent, hkind, PaperFile.kind, hcontent]
          have htext : file.text = some base := by rw [PaperFile.text, hcontent]
          simp only [hwritten, htext, Option.getD_some]
          exact .inr (.inr ⟨base, _, rfl, rfl, rfl⟩)

/-- How the changes of a file are divided: what comes first, and the edits of its text. -/
theorem filter_ordered_file (hids : (files.map (·.fileId)).Nodup)
    (hmatcher : ∀ old new, Script old new (env.getOpcodes old new))
    (hnew : ∀ name, file.fileId ≠ env.newId name) :
    (ordered (outputChanges env revision files o)).filter (·.fileId = file.fileId) =
      moveChanges revision o file ++
        if file.kind = .text then (contentChanges env revision files o file).reverse
        else contentChanges env revision files o file := by
  have hfilter := filter_outputChanges env revision hvalid hids hpaths hfile hnew
  have hmoves : ∀ c ∈ moveChanges revision o file, isEdit c = false ∧ c.start = 0 := by
    intro c hc
    unfold moveChanges at hc
    split at hc
    · rw [List.mem_singleton.mp hc]
      exact ⟨rfl, rfl⟩
    · split at hc
      · cases hc
      · rw [List.mem_singleton.mp hc]
        exact ⟨rfl, rfl⟩
  rcases contentChanges_cases env revision hvalid hpaths hfile with
    ⟨hcontent, -⟩ | ⟨old, sha256, hbinary, hcontent, -⟩ | ⟨base, text, htext, hcontent, -⟩
  · rw [hcontent, List.reverse_nil, ite_self]
    refine filter_ordered _ _ _ [] (hfilter.trans (by rw [hcontent])) hmoves ?_ List.Pairwise.nil
    intro c hc
    cases hc
  · rw [PaperFile.kind, hbinary]
    simp only [reduceCtorEq, if_false]
    have h := filter_ordered _ _ (moveChanges revision o file ++ [binaryChange revision file sha256])
      [] (hfilter.trans (by rw [hcontent, List.append_nil])) ?_ ?_ List.Pairwise.nil
    · rw [h, hcontent, List.reverse_nil, List.append_nil]
    · intro c hc
      cases List.mem_append.mp hc with
      | inl hmove => exact hmoves c hmove
      | inr hbinary =>
          rw [List.mem_singleton.mp hbinary]
          exact ⟨rfl, rfl⟩
    · intro c hc
      cases hc
  · rw [PaperFile.kind, htext]
    simp only [if_true]
    have hexact := lineChanges_exact env.getOpcodes hmatcher base text
    refine filter_ordered _ _ _ _ hfilter hmoves ?_ ?_
    · intro c hc
      rw [hcontent] at hc
      obtain ⟨change, -, rfl⟩ := List.mem_map.mp hc
      cases hkind : change.kind <;> simp [isEdit, editChange, editKind, hkind]
    · rw [hcontent, List.pairwise_map]
      refine hexact.ordered.imp_of_mem ?_
      intro earlier later hearlier _ hlt
      exact Nat.lt_of_le_of_lt (hexact.ranges earlier hearlier).1 hlt

/-- The operations of a file make it what it ends as. -/
theorem foldlM_file (hids : (files.map (·.fileId)).Nodup)
    (hmatcher : ∀ old new, Script old new (env.getOpcodes old new))
    (hnew : ∀ name, file.fileId ≠ env.newId name)
    (live : LiveStore) (hedits : live.EditsBytes) (known : String → Option Bytes)
    (checks : List PaperCheck)
    (hplaced : file.path ∉ o.deletions → isPaperPath (o.target file.path) = true)
    (hblobs : ∀ c ∈ contentChanges env revision files o file, ∀ sha256 ∈ c.afterBlob,
      (live.blob sha256).isSome = true)
    (hguarded : ∀ c ∈ contentChanges env revision files o file, isEdit c = true →
      editCheck c ∈ checks) :
    (((ordered (outputChanges env revision files o)).filter
        (·.fileId = file.fileId)).map rangeOp).foldlM (applyToFile live known checks) (some file) =
      .ok (finalFile env files o file) := by
  rw [filter_ordered_file env revision hvalid hpaths hfile hids hmatcher hnew, List.map_append,
    List.foldlM_append]
  by_cases hdeleted : file.path ∈ o.deletions
  · rw [(contentChanges_of_deleted env revision hvalid hdeleted).1, moveChanges, if_pos hdeleted,
      finalFile, if_pos hdeleted, List.reverse_nil, ite_self]
    rfl
  · -- The file at its new path.
    have hmoved : ((moveChanges revision o file).map rangeOp).foldlM
        (applyToFile live known checks) (some file) =
        .ok (some { file with path := o.target file.path }) := by
      rw [moveChanges, if_neg hdeleted]
      split
      next hstays =>
        rw [hstays]
        rfl
      next =>
        have hop : rangeOp (renameChange revision file (o.target file.path)) =
            { kind := .rename, fileId := file.fileId, path := o.target file.path } := rfl
        rw [List.map_cons, List.map_nil, foldlM_singleton, hop]
        simp only [applyToFile, hplaced hdeleted, if_true]
    rw [hmoved, finalFile, if_neg hdeleted]
    simp only [bind, Except.bind]
    rcases contentChanges_cases env revision hvalid hpaths hfile with
      ⟨hcontent, hfinal⟩ | ⟨old, sha256, hbinary, hcontent, hfinal⟩ |
        ⟨base, text, htext, hcontent, hfinal⟩
    · rw [hcontent, List.reverse_nil, ite_self, hfinal]
      rfl
    · have hblob := hblobs (binaryChange revision file sha256)
        (by rw [hcontent]; exact List.mem_singleton.mpr rfl) sha256 rfl
      rw [hcontent, PaperFile.kind, hbinary]
      simp only [reduceCtorEq, if_false]
      have hop : rangeOp (binaryChange revision file sha256) =
          { kind := .binary, fileId := file.fileId, blobSha256 := some sha256 } := rfl
      have hfound : opBlob live known (rangeOp (binaryChange revision file sha256)) = .ok sha256 := by
        rw [hop, opBlob]
        simp only [Option.getD_some]
        rw [if_neg]
        rintro ⟨-, hnone⟩
        rw [Option.isNone_iff_eq_none] at hnone
        rw [hnone] at hblob
        cases hblob
      rw [List.map_cons, List.map_nil, foldlM_singleton, hfinal]
      rw [hop] at hfound ⊢
      simp only [applyToFile, hfound, bind, Except.bind]
    · have hexact := lineChanges_exact env.getOpcodes hmatcher base text
      rw [hcontent, PaperFile.kind, htext]
      simp only [if_true]
      rw [foldlM_edits live known checks hedits revision file ⟨file.fileId, o.target file.path, .text base⟩
        (lineChanges env.getOpcodes base text) base rfl hexact.ordered hexact.ranges, hexact.applied,
        hfinal]
      intro c hc
      apply hguarded
      · rw [hcontent]
        exact List.mem_map.mpr ⟨c, hc, rfl⟩
      · cases hkind : c.kind <;> simp [isEdit, editChange, editKind, hkind]

end Files

/-- The file that is created at a path. -/
def newFile (name : String) (content : PaperContent) : PaperFile := ⟨env.newId name, name, content⟩

/-- The operation of a new file creates it. -/
theorem foldlM_created (live : LiveStore) (known : String → Option Bytes) (checks : List PaperCheck)
    (name : String) (content : PaperContent) (hpath : isPaperPath name = true)
    (hfresh : live.tombstone (env.newId name) = none)
    (hblob : ∀ sha256, content = .binary sha256 → (live.blob sha256).isSome = true) :
    ([createChange env revision name content].map rangeOp).foldlM
        (applyToFile live known checks) none = .ok (some (newFile env name content)) := by
  rw [List.map_cons, List.map_nil, foldlM_singleton]
  cases content with
  | text text =>
      have hop : rangeOp (createChange env revision name (.text text)) =
          { kind := .create, fileId := env.newId name, path := name, text := text } := rfl
      rw [hop]
      simp only [applyToFile, hfresh, hpath, Option.any_none, Bool.false_eq_true, if_false, not_true_eq_false]
      rfl
  | binary sha256 =>
      have hop : rangeOp (createChange env revision name (.binary sha256)) =
          { kind := .create, fileId := env.newId name, path := name, fileKind := .binary,
            blobSha256 := some sha256 } := rfl
      have hfound : ¬((known sha256).isNone ∧ (live.blob sha256).isNone) := by
        rintro ⟨-, hnone⟩
        rw [Option.isNone_iff_eq_none] at hnone
        have := hblob sha256 rfl
        rw [hnone] at this
        cases this
      rw [hop]
      simp only [applyToFile, hfresh, hpath, Option.any_none, Bool.false_eq_true, if_false, not_true_eq_false,
        opBlob, Option.getD_some]
      rw [if_neg (by simpa using hfound)]
      rfl

end RcpGraph.Paper
