import RcpGraph.Paper.Accepted

/-!
Collected proposals that can be accepted. Collecting judges the proposed tree as a
whole; preparing judges a new file against the paths before the group.
-/

namespace RcpGraph.Paper

open EditScript

section Applicable

variable {env : CoachEnv} {snapshot tree : PaperSnapshot env.digest} {o : Output}

theorem mapM_ok {α : Type} (f : α → Except PaperError Unit) (xs : List α)
    (h : ∀ x ∈ xs, f x = .ok ()) : ∃ ys, xs.mapM f = .ok ys := by
  induction xs with
  | nil => exact ⟨[], rfl⟩
  | cons x xs ih =>
      obtain ⟨ys, hys⟩ := ih fun y hy => h y (List.mem_cons_of_mem x hy)
      refine ⟨() :: ys, ?_⟩
      rw [List.mapM_cons, h x List.mem_cons_self, hys]
      rfl

/-- The blobs of the proposed tree are found by their digest. -/
theorem digest_of_proposedBlob (store : BlobStore env.digest) (sha256 : String) (data : Bytes)
    (h : ((proposedBlob env snapshot.files o tree.blobs.find sha256).or (store.find sha256)) =
      some data) : env.digest data = sha256 := by
  rw [proposedBlob] at h
  cases hwritten : (writtenBlobs env snapshot.files o).reverse.find? (env.digest · = sha256) with
  | some body =>
      rw [hwritten, Option.some_or, Option.some_or, Option.some.injEq] at h
      rw [← h]
      simpa using List.find?_some hwritten
  | none =>
      rw [hwritten, Option.none_or] at h
      cases hknown : tree.blobs.find sha256 with
      | some known =>
          rw [hknown, Option.some_or, Option.some.injEq] at h
          rw [← h]
          exact tree.blobs.addressed sha256 known hknown
      | none =>
          rw [hknown, Option.none_or] at h
          exact store.addressed sha256 data h

/-- What collecting has established. -/
theorem buildChanges_ok {store : BlobStore env.digest} {output : RegularTree} {moves : Moves}
    {collected : Collected}
    (hmoves : parseMoves env.loads (output.files.get? "moves.json") = .ok moves)
    (hcollected : buildChanges env store.find snapshot tree output = .ok collected)
    (houtput : o = ⟨outputFiles output, moves.renames, moves.deletions⟩) :
    ValidOutput snapshot.files o ∧
      ValidTree (fun sha256 => (proposedBlob env snapshot.files o tree.blobs.find sha256).or
        (store.find sha256)) (proposedTree env snapshot.files tree.files o).values ∧
      collected.groups =
        (if o.renames ≠ [] ∧ outputChanges env snapshot.revision snapshot.files o ≠ [] then
          [outputChanges env snapshot.revision snapshot.files o]
        else (outputChanges env snapshot.revision snapshot.files o).map ([·])) ∧
      collected.blobs.map (·.1) =
        (outputChanges env snapshot.revision snapshot.files o).filterMap (·.afterBlob) := by
  rw [buildChanges] at hcollected
  cases hvalidated : validateOutput env output snapshot.files with
  | error e => rw [hvalidated] at hcollected; cases hcollected
  | ok o' =>
      obtain ⟨⟨moves', hmoves', heq⟩, hvalid⟩ := validateOutput_ok env output snapshot.files o' hvalidated
      rw [hmoves, Except.ok.injEq] at hmoves'
      rw [← hmoves', ← houtput] at heq
      rw [heq] at hvalid hvalidated
      rw [hvalidated] at hcollected
      simp only [bind, Except.bind] at hcollected
      cases htree : validateTree (fun sha256 =>
          (proposedBlob env snapshot.files o tree.blobs.find sha256).or (store.find sha256))
          (proposedTree env snapshot.files tree.files o).values with
      | error e =>
          rw [htree] at hcollected
          cases e <;> cases hcollected
      | ok _ =>
          rw [htree] at hcollected
          cases hcollected
          refine ⟨hvalid, (validateTree_ok_iff _ _).mp htree, rfl, ?_⟩
          simp [List.map_map, Function.comp_def]

/-- The changes of an output with a rename are not empty. -/
theorem outputChanges_ne_nil (hvalid : ValidOutput snapshot.files o) (hrename : o.renames ≠ [])
    (revision : Nat) : outputChanges env revision snapshot.files o ≠ [] := by
  obtain ⟨pair, hpair⟩ := List.exists_mem_of_ne_nil _ hrename
  obtain ⟨file, hfile⟩ := Option.isSome_iff_exists.mp (hvalid.sources_live pair hpair)
  have hmem : renameChange revision file pair.2 ∈ outputChanges env revision snapshot.files o := by
    rw [outputChanges, List.mem_append, List.mem_append]
    exact .inl (.inl (List.mem_filterMap.mpr ⟨pair, hpair, by rw [hfile]; rfl⟩))
  exact List.ne_nil_of_mem hmem

variable (turn : Turn env snapshot tree) (hvalid : ValidOutput snapshot.files o)
  {find : String → Option Bytes}
  (hproposed : ValidTree find (proposedTree env snapshot.files tree.files o).values)
  {store : BlobStore env.digest} {saved : List String} {paper : LiveEnv} {live : LiveStore}
  (unchanged : Unchanged env tree store saved paper live)
  (hsaved : ∀ c ∈ outputChanges env snapshot.revision snapshot.files o, ∀ sha256 ∈ c.afterBlob,
    sha256 ∈ saved)

include turn hvalid hproposed unchanged hsaved

/-- The blobs of the files that are left are at hand. -/
theorem final_known {final : Dict String PaperFile}
    (hfinal : ∀ k, final.get? k = resultOf env snapshot.files tree.files o k) :
    ∀ file ∈ final.values, ∀ sha256, file.content = .binary sha256 →
      ((tree.blobs.find sha256).or (live.blob sha256)).isSome = true := by
  intro file hfile sha256 hcontent
  rw [(final_perm turn hfinal).mem_iff, List.mem_append] at hfile
  have hlive : ∀ c ∈ outputChanges env snapshot.revision snapshot.files o,
      c.afterBlob = some sha256 → ((tree.blobs.find sha256).or (live.blob sha256)).isSome = true := by
    intro c hc hblob
    rw [Option.isSome_or, unchanged.saved sha256 (hsaved c hc sha256 hblob), Bool.or_true]
  rcases hfile with hkept | hnew
  · obtain ⟨original, horiginal, rfl⟩ := List.mem_map.mp hkept
    obtain ⟨hmem, -⟩ := List.mem_filter.mp horiginal
    have hold : ∀ sha256, original.content = .binary sha256 →
        ((tree.blobs.find sha256).or (live.blob sha256)).isSome = true := by
      intro sha256 h
      rw [Option.isSome_or, tree.blobs_known original hmem sha256 h, Bool.true_or]
    simp only [finalOf] at hcontent
    by_cases hin : original ∈ snapshot.files
    · rcases contentChanges_cases env snapshot.revision hvalid snapshot.paths_nodup hin with
        ⟨-, hsame⟩ | ⟨old, new, -, hchanges, hbinary⟩ | ⟨base, text, -, -, htext⟩
      · exact hold sha256 (hsame.symm.trans hcontent)
      · rw [hbinary, PaperContent.binary.injEq] at hcontent
        have hfilter := filter_outputChanges env snapshot.revision hvalid snapshot.ids_nodup
          snapshot.paths_nodup hin fun name => (turn.fresh original hmem name).1
        have hchange : binaryChange snapshot.revision original new ∈
            outputChanges env snapshot.revision snapshot.files o := by
          have hlast : binaryChange snapshot.revision original new ∈
              moveChanges snapshot.revision o original ++
                contentChanges env snapshot.revision snapshot.files o original := by
            rw [hchanges]
            exact List.mem_append_right _ (List.mem_singleton.mpr rfl)
          rw [← hfilter] at hlast
          exact (List.mem_filter.mp hlast).1
        exact hlive _ hchange (congrArg some hcontent)
      · rw [htext] at hcontent
        cases hcontent
    · have hunchanged : finalContent env snapshot.files o original = original.content := by
        rw [finalContent, (turn.kept_of_not_mem hvalid hmem hin).2,
          unseen_not_written turn hvalid hproposed hmem hin]
      exact hold sha256 (hunchanged.symm.trans hcontent)
  · obtain ⟨e, he, rfl⟩ := List.mem_map.mp hnew
    obtain ⟨hbody, hsource⟩ := (mem_newFiles e).mp he
    have hchange : createChange env snapshot.revision e.1
        (writtenContent env snapshot.files o e.1 e.2) ∈
        outputChanges env snapshot.revision snapshot.files o := by
      rw [outputChanges, List.mem_append]
      refine .inr (List.mem_flatMap.mpr ⟨e, (mem_sortedFiles e).mpr hbody, ?_⟩)
      rw [writtenChanges_new env _ hsource]
      exact List.mem_singleton.mpr rfl
    refine hlive _ hchange ?_
    simp only [newOf, newFile] at hcontent
    rw [hcontent]
    rfl

/-- A prepared group applies, and leaves the proposed tree. -/
theorem applyOps_ok (hdigest : ∀ sha256 data, find sha256 = some data → env.digest data = sha256)
    (hrename : o.renames ≠ []) {prepared : PreparedGroup}
    (hops : prepared.ops =
      (ordered (outputChanges env snapshot.revision snapshot.files o)).map rangeOp)
    (hchecks : ∀ check ∈ prepared.checks, checkSnapshot tree.files check = .ok ())
    (hguarded : ∀ c ∈ outputChanges env snapshot.revision snapshot.files o, isEdit c = true →
      editCheck c ∈ prepared.checks) :
    ∃ final, applyOps live tree prepared.ops prepared.checks = .ok final ∧
      SameTree final.values (proposedTree env snapshot.files tree.files o).values := by
  obtain ⟨final, hrun, hfinal⟩ := foldlM_applyOp turn hvalid hproposed unchanged hsaved
    tree.blobs.find prepared.checks hguarded
  have hsame := final_same turn hvalid hproposed hfinal
  have hfound : ∀ sha256 data data', find sha256 = some data →
      (tree.blobs.find sha256).or (live.blob sha256) = some data' → data' = data := by
    intro sha256 data data' hdata hdata'
    have haddress : env.digest data' = sha256 := by
      cases htree : tree.blobs.find sha256 with
      | some known =>
          rw [htree, Option.some_or, Option.some.injEq] at hdata'
          rw [← hdata']
          exact tree.blobs.addressed sha256 known htree
      | none =>
          rw [htree, Option.none_or] at hdata'
          exact unchanged.addressed sha256 data' hdata'
    exact turn.digest (haddress.trans (hdigest sha256 data hdata).symm)
  have hvalidFinal := (validateTree_ok_iff _ _).mpr (hproposed.of_same hsame hfound
    (final_known turn hvalid hproposed unchanged hsaved hfinal))
  have hne : prepared.ops ≠ [] := by
    rw [hops]
    intro hnil
    have hlength := congrArg List.length hnil
    rw [List.length_map, ordered, List.length_insertionSort, List.length_nil,
      List.length_eq_zero_iff] at hlength
    exact outputChanges_ne_nil hvalid hrename _ hlength
  obtain ⟨units, hunits⟩ := mapM_ok (checkSnapshot tree.files) prepared.checks hchecks
  refine ⟨final, ?_, hsame⟩
  rw [applyOps, if_neg hne, hunits, hops]
  simp only [bind, Except.bind, hrun, hvalidFinal, unchanged.admits, if_true]

end Applicable

/-- A proposal with a rename that was collected from a paper is prepared on the unchanged paper,
applies and leaves the proposed tree, exactly when no new file is inside a path that the proposal
renames or deletes, or is a folder of one. -/
theorem accepted_proposal_iff (env : CoachEnv) (snapshot tree : PaperSnapshot env.digest)
    (turn : Turn env snapshot tree) (store : BlobStore env.digest) (output : RegularTree)
    (moves : Moves) (hmoves : parseMoves env.loads (output.files.get? "moves.json") = .ok moves)
    (hrename : moves.renames ≠ []) (collected : Collected)
    (hcollected : buildChanges env store.find snapshot tree output = .ok collected)
    (paper : LiveEnv) (live : LiveStore)
    (unchanged : Unchanged env tree store (collected.blobs.map (·.1)) paper live) :
    ∃ changes, collected.groups = [changes] ∧
      ((∃ prepared final, prepare paper tree.files changes = .ok prepared ∧
          applyOps live tree prepared.ops prepared.checks = .ok final ∧
          SameTree final.values (proposedTree env snapshot.files tree.files
            ⟨outputFiles output, moves.renames, moves.deletions⟩).values) ↔
        Clear snapshot.files ⟨outputFiles output, moves.renames, moves.deletions⟩) := by
  obtain ⟨hvalid, hproposed, hgroups, hblobs⟩ := buildChanges_ok hmoves hcollected rfl
  have hne : outputChanges env snapshot.revision snapshot.files
      ⟨outputFiles output, moves.renames, moves.deletions⟩ ≠ [] :=
    outputChanges_ne_nil hvalid hrename snapshot.revision
  have hsaved : ∀ c ∈ outputChanges env snapshot.revision snapshot.files
      ⟨outputFiles output, moves.renames, moves.deletions⟩, ∀ sha256 ∈ c.afterBlob,
        sha256 ∈ collected.blobs.map (·.1) := by
    intro c hc sha256 hsha
    rw [hblobs]
    exact List.mem_filterMap.mpr ⟨c, hc, hsha⟩
  refine ⟨_, hgroups.trans (if_pos ⟨hrename, hne⟩), ?_⟩
  constructor
  · intro h name hname hfree htarget
    obtain ⟨prepared, final, hprepare, -⟩ := h
    obtain ⟨body, hbody⟩ := (Dict.mem_iff_exists _ _).mp hname
    have hnew : (name, body) ∈ newFiles snapshot.files
        ⟨outputFiles output, moves.renames, moves.deletions⟩ :=
      (mem_newFiles (name, body)).mpr ⟨hbody, (hvalid.source_eq_none_iff name).mpr ⟨hfree, htarget⟩⟩
    obtain ⟨-, hsource⟩ := (mem_newFiles (name, body)).mp hnew
    apply (createBlocked_iff turn hvalid hproposed hnew snapshot.revision
      (writtenContent env snapshot.files _ name body)).mp
    apply createBlocked_of_prepare hprepare
    · rw [outputChanges, List.mem_append]
      refine .inr (List.mem_flatMap.mpr ⟨(name, body), (mem_sortedFiles _).mpr hbody, ?_⟩)
      rw [writtenChanges_new env _ hsource]
      exact List.mem_singleton.mpr rfl
    · exact (createChange_fields env _ _ _).1
  · intro hclear
    obtain ⟨prepared, hprepare, hops, hchecks, hguarded⟩ := prepare_ok unchanged.matcher
      tree.ids_nodup _ (preparable turn hvalid hproposed unchanged hclear)
    obtain ⟨final, happly, hsame⟩ := applyOps_ok turn hvalid hproposed unchanged hsaved
      (digest_of_proposedBlob store) hrename hops hchecks hguarded
    exact ⟨prepared, final, hprepare, happly, hsame⟩

section Instances

/-- Bytes below 128 as text, and digests that are the bytes themselves. -/
def asciiEnv : CoachEnv where
  digest data := String.ofList (data.map fun b => Char.ofNat b.toNat)
  loads data :=
    if data = [109] then
      some (.obj [("rename", .arr [.arr [.str "b", .str "c"]]), ("delete", .arr [.str "a"])])
    else none
  decode data :=
    if data.all (· < 128) then some (data.map fun b => Char.ofNat b.toNat) else none
  getOpcodes := replaceAll
  newId path := "n" ++ path

def noBlobs : BlobStore asciiEnv.digest where
  find _ := none
  addressed := by
    intro sha256 data h
    cases h

/-- Two files, `a` and `b`. -/
def twoFiles : PaperSnapshot asciiEnv.digest where
  revision := 1
  files := [⟨"f1", "a", .text ['A']⟩, ⟨"f2", "b", .text ['B']⟩]
  blobs := noBlobs
  ids_nodup := by decide
  paths_nodup := by decide
  blobs_known := by simp

/-- The coach renames `b` to `c`, deletes `a` and writes one file. -/
def movesAndWrites (name : String) : RegularTree where
  files := Dict.ofList [("moves.json", [109]), ("files/" ++ name, [88])]
  directories := ["files"]

def twoTexts : LiveEnv where
  getOpcodes := replaceAll
  textAt fileId _ := if fileId = "f1" then some ['A'] else some ['B']

/-- The characters that begin before an offset in bytes. -/
def takeBytes : Nat → List Char → List Char
  | 0, _ => []
  | _, [] => []
  | n + 1, c :: text => c :: takeBytes (n + 1 - c.utf8Size) text

/-- The other characters. -/
def dropBytes : Nat → List Char → List Char
  | 0, text => text
  | _, [] => []
  | n + 1, c :: text => dropBytes (n + 1 - c.utf8Size) text

theorem split_encodedLength (before behind : List Char) :
    takeBytes (encodedLength before) (before ++ behind) = before ∧
      dropBytes (encodedLength before) (before ++ behind) = behind := by
  induction before with
  | nil => cases behind <;> exact ⟨rfl, rfl⟩
  | cons c before ih =>
      have hlength : encodedLength (c :: before) = encodedLength before + c.utf8Size := by
        rw [encodedLength, List.map_cons, List.sum_cons, Nat.add_comm]
        rfl
      obtain ⟨n, hn⟩ : ∃ n, encodedLength (c :: before) = n + 1 :=
        Nat.exists_eq_add_one.mpr (by have := c.utf8Size_pos; omega)
      have hrest : n + 1 - c.utf8Size = encodedLength before := by omega
      rw [hn, List.cons_append, takeBytes, dropBytes, hrest, ih.1, ih.2]
      exact ⟨rfl, rfl⟩

def emptyStore : LiveStore where
  blob _ := none
  tombstone _ := none
  admits _ := true
  edit text start finish after := takeBytes start text ++ (after ++ dropBytes finish text)

theorem emptyStore_edits : emptyStore.EditsBytes := by
  intro before old behind after
  have hbefore := (split_encodedLength before (old ++ behind)).1
  have hbehind := (split_encodedLength (before ++ old) behind).2
  rw [List.append_assoc] at hbehind
  simp only [emptyStore, hbefore, hbehind]

theorem twoFiles_turn : Turn asciiEnv twoFiles twoFiles where
  revision := rfl
  part _ h := h
  matcher := replaceAll_script
  digest := by
    intro data data' h
    have hlist := String.ofList_injective h
    refine List.map_injective_iff.mpr ?_ hlist
    intro b b' hb
    have hvalue : ∀ n < 256, (Char.ofNat n).toNat = n := by decide +kernel
    have hnat := congrArg Char.toNat hb
    rw [hvalue _ b.toNat_lt, hvalue _ b'.toNat_lt] at hnat
    exact UInt8.toNat_inj.mp hnat
  newId := fun _ _ h => append_right_inj_string h
  fresh := by
    intro file hfile name
    have hfirst : file.fileId.toList.head? = some 'f' := by
      revert file
      decide
    have hother : ∀ rest : String, ("n" ++ rest).toList.head? = some 'n' := by
      intro rest
      rw [String.toList_append]
      rfl
    constructor
    · intro h
      rw [h, show asciiEnv.newId name = "n" ++ name from rfl, hother] at hfirst
      cases hfirst
    · intro h
      rw [h, show ("new:" : String) = "n" ++ "ew:" from rfl, String.append_assoc, hother] at hfirst
      cases hfirst

theorem twoFiles_unchanged : Unchanged asciiEnv twoFiles noBlobs [] twoTexts emptyStore where
  matcher := replaceAll_script
  texts := by
    intro file hfile text htext
    simp only [twoFiles, List.mem_cons, List.not_mem_nil, or_false] at hfile
    rcases hfile with rfl | rfl
    · cases htext
      rfl
    · cases htext
      rfl
  addressed := by
    intro sha256 data h
    cases h
  stored := by
    intro sha256 h
    cases h
  saved _ h := absurd h List.not_mem_nil
  fresh _ := rfl
  admits _ := rfl
  edits := emptyStore_edits

/-- A new file below the deleted one: the proposal is collected, but it is never prepared. -/
theorem accepted_proposal_blocked :
    Turn asciiEnv twoFiles twoFiles ∧
      Unchanged asciiEnv twoFiles noBlobs [] twoTexts emptyStore ∧
      (buildChanges asciiEnv noBlobs.find twoFiles twoFiles (movesAndWrites "a/x")).toOption.map
        (fun collected => (collected.groups.map fun changes =>
          (prepare twoTexts twoFiles.files changes).toOption.isSome, collected.blobs.map (·.1))) =
        some ([false], []) :=
  ⟨twoFiles_turn, twoFiles_unchanged, by decide +kernel⟩

/-- The coach also writes to the file it renames. -/
def movesAndEdits : RegularTree where
  files := Dict.ofList [("moves.json", [109]), ("files/c", [67]), ("files/d", [88])]
  directories := ["files"]

/-- A new file elsewhere, and an edit: the proposal is prepared and applies. -/
theorem accepted_proposal_beside :
    ∃ collected, buildChanges asciiEnv noBlobs.find twoFiles twoFiles movesAndEdits =
        .ok collected ∧
      ∃ changes, collected.groups = [changes] ∧
        ∃ prepared final, prepare twoTexts twoFiles.files changes = .ok prepared ∧
          applyOps emptyStore twoFiles prepared.ops prepared.checks = .ok final ∧
          SameTree final.values (proposedTree asciiEnv twoFiles.files twoFiles.files
            ⟨outputFiles movesAndEdits, [("b", "c")], ["a"]⟩).values := by
  have hcollects : (buildChanges asciiEnv noBlobs.find twoFiles twoFiles
      movesAndEdits).toOption.map (fun collected => collected.blobs.map (·.1)) = some [] := by
    decide +kernel
  have hclear : Clear twoFiles.files ⟨outputFiles movesAndEdits, [("b", "c")], ["a"]⟩ := by
    have hnames : (outputFiles movesAndEdits).keys = ["c", "d"] := by decide +kernel
    intro name hname
    have hname : name = "c" ∨ name = "d" := by
      have hkey : name ∈ (outputFiles movesAndEdits).keys := hname
      simpa [hnames] using hkey
    rcases hname with rfl | rfl
    · intro _ hnot
      exact absurd List.mem_cons_self hnot
    · intro _ _
      decide
  cases hcollected : buildChanges asciiEnv noBlobs.find twoFiles twoFiles movesAndEdits with
  | error e =>
      rw [hcollected] at hcollects
      cases hcollects
  | ok collected =>
      rw [hcollected] at hcollects
      have hblobs : collected.blobs.map (·.1) = [] := Option.some.inj hcollects
      obtain ⟨changes, hgroups, haccepted⟩ := accepted_proposal_iff asciiEnv twoFiles twoFiles
        twoFiles_turn noBlobs movesAndEdits ⟨[("b", "c")], ["a"]⟩ rfl (List.cons_ne_nil _ _)
        collected hcollected twoTexts emptyStore (by rw [hblobs]; exact twoFiles_unchanged)
      exact ⟨collected, rfl, changes, hgroups, haccepted.mpr hclear⟩

end Instances

end RcpGraph.Paper
