import Mathlib.Data.List.Sort
import RcpGraph.Paper.Collect

/-!
Accepting a group of changes: `PaperChanges._prepare` turns it into operations with
their checks and their inverse, `PaperLive._apply` runs the operations on the live
tree and validates what they leave.
-/

namespace RcpGraph.Paper

open EditScript

inductive PaperOpKind where
  | replace
  | create
  | rename
  | delete
  | binary
  deriving DecidableEq, Repr

structure PaperOp where
  kind : PaperOpKind
  fileId : String
  path : String := ""
  text : List Char := []
  start : Nat := 0
  finish : Nat := 0
  blobSha256 : Option String := none
  fileKind : FileKind := .text
  deriving DecidableEq, Repr

/-- One entry of `checks` or `guards`; a key that is absent is not checked. -/
structure PaperCheck where
  pathFree : Option String := none
  fileIdAbsent : Option String := none
  fileId : Option String := none
  path : Option String := none
  kind : Option FileKind := none
  blobSha256 : Option (Option String) := none
  text : Option (Option (List Char)) := none
  range : Option (Nat × Nat) := none
  deriving DecidableEq, Repr

/-- What `_prepare` has gathered. -/
structure Prepared where
  checks : List PaperCheck := []
  ops : List PaperOp := []
  original : List (String × Option PaperFile) := []
  resulting : Dict String PaperFile := Dict.empty

/-- The live paper that a group is prepared against. -/
structure LiveEnv where
  getOpcodes : Matcher
  /-- `text_at`: the text of a file at a revision. -/
  textAt : String → Nat → Option (List Char)

section Prepare

variable (env : LiveEnv)

def isEdit (change : Change) : Bool := change.kind = .edit || change.kind = .rewrite

/-- The order of `_prepare`: edits last, each file's from right to left. -/
def ChangeOrder (x y : Change) : Prop :=
  isEdit x < isEdit y ∨ isEdit x = isEdit y ∧
    (x.fileId < y.fileId ∨ x.fileId = y.fileId ∧ y.start ≤ x.start)

instance : DecidableRel ChangeOrder := fun _ _ =>
  inferInstanceAs (Decidable (_ ∨ _ ∧ (_ ∨ _ ∧ _)))

def ordered (changes : List Change) : List Change := changes.insertionSort ChangeOrder

/-- `dict.setdefault` on the files as they were. -/
def setDefault (original : List (String × Option PaperFile)) (fileId : String)
    (file : Option PaperFile) : List (String × Option PaperFile) :=
  if original.any (·.1 = fileId) then original else original ++ [(fileId, file)]

def editText (file : PaperFile) (f : List Char → List Char) : PaperFile :=
  match file.content with
  | .text text => { file with content := .text (f text) }
  | .binary _ => file

def createdFile (change : Change) : PaperFile where
  fileId := change.fileId
  path := change.path
  content :=
    match change.fileKind with
    | .text => .text change.after
    | .binary => .binary (change.afterBlob.getD "")

/-- The operation of a change whose anchor has not moved from `range`. -/
def changeOp (change : Change) (range : Nat × Nat) : PaperOp :=
  match change.kind with
  | .create =>
      { kind := .create, fileId := change.fileId, path := change.path, fileKind := change.fileKind,
        text := if change.fileKind = .text then change.after else [],
        blobSha256 := change.afterBlob }
  | .edit | .rewrite =>
      { kind := .replace, fileId := change.fileId, start := range.1, finish := range.2,
        text := change.after }
  | .rename =>
      { kind := .rename, fileId := change.fileId, path := change.newPath.getD "" }
  | .delete => { kind := .delete, fileId := change.fileId }
  | .binary => { kind := .binary, fileId := change.fileId, blobSha256 := change.afterBlob }

/-- The check of a whole touched file, made once. -/
def fileCheck (file : PaperFile) : PaperCheck :=
  { fileId := some file.fileId, path := some file.path, kind := some file.kind,
    text := file.text.map some }

/-- Whether a file still has the content that a rename, deletion or replacement was made from. -/
def sameContent (file : PaperFile) (change : Change) : Bool :=
  file.text = (if file.kind = .text then some change.before else none) &&
    file.blobSha256 = change.beforeBlob

/-- A created path is free, and no path of the paper is a folder of it or inside it. -/
def createBlocked (current : List PaperFile) (change : Change) : Bool :=
  (current.find? (·.fileId = change.fileId)).isSome || (fileAt current change.path).isSome ||
    current.any fun file => isUnder change.path file.path || isUnder file.path change.path

/-- The loop body of `_prepare` for a change of a file that exists. -/
def prepareExisting (current : List PaperFile) (state : Prepared) (change : Change)
    (file : PaperFile) : Except PaperError Prepared :=
  let checks :=
    if state.original.any (·.1 = file.fileId) then state.checks
    else state.checks ++ [fileCheck file]
  let original := setDefault state.original file.fileId (some file)
  let seen := (state.resulting.get? file.fileId).getD file
  let whole : PaperCheck :=
    { fileId := some file.fileId, text := some file.text, blobSha256 := some file.blobSha256 }
  match change.kind with
  | .create => .ok state
  | .edit | .rewrite =>
      match env.textAt file.fileId change.baseRevision with
      | none => .error (.missing file.fileId)
      | some base =>
          match (rangeMapping env.getOpcodes base (file.text.getD [])).map change.start
              change.finish with
          | .error reason => .error (.outdated reason)
          | .ok range =>
              if slice base change.start change.finish ≠ change.before then
                .error (.outdated "Stored paper anchor does not match its base")
              else
                .ok {
                  checks := checks ++ [{ fileId := some file.fileId, range := some range,
                                         text := some (some change.before) }]
                  ops := state.ops ++ [changeOp change range]
                  original := original
                  resulting := state.resulting.insert file.fileId
                    (editText seen fun text => replaceRange text range.1 range.2 change.after) }
  | .rename =>
      if (fileAt current (change.newPath.getD "")).isSome then
        .error (.outdated "Rename destination is no longer free")
      else if ¬sameContent file change then .error (.outdated "Rename source changed")
      else
        .ok {
          checks := checks ++ [whole, { pathFree := change.newPath }]
          ops := state.ops ++ [changeOp change (0, 0)]
          original := original
          resulting := state.resulting.insert file.fileId
            { seen with path := change.newPath.getD "" } }
  | .delete =>
      if ¬sameContent file change then .error (.outdated "Paper file content changed")
      else
        .ok {
          checks := checks ++ [whole]
          ops := state.ops ++ [changeOp change (0, 0)]
          original := original
          resulting := state.resulting.erase file.fileId }
  | .binary =>
      if ¬sameContent file change then .error (.outdated "Paper file content changed")
      else
        .ok {
          checks := checks ++ [whole]
          ops := state.ops ++ [changeOp change (0, 0)]
          original := original
          resulting := state.resulting.insert file.fileId
            { seen with content := .binary (change.afterBlob.getD "") } }

/-- The loop body of `_prepare`. -/
def prepareChange (current : List PaperFile) (state : Prepared) (change : Change) :
    Except PaperError Prepared :=
  if change.kind = .create then
    if createBlocked current change then .error (.outdated "Created paper path is no longer free")
    else
      .ok {
        checks := state.checks ++ [{ pathFree := some change.path }]
        ops := state.ops ++ [changeOp change (0, 0)]
        original := setDefault state.original change.fileId none
        resulting := state.resulting.insert change.fileId (createdFile change) }
  else
    match current.find? (·.fileId = change.fileId) with
    | none => .error (.outdated "Paper file identity or path changed")
    | some file =>
        if file.path ≠ change.path ∨ file.kind ≠ change.fileKind then
          .error (.outdated "Paper file identity or path changed")
        else prepareExisting env current state change file

/-- The inverse of what a group does to one file, with its guards. -/
def inverseOf (resulting : Dict String PaperFile) (entry : String × Option PaperFile) :
    List PaperOp × List PaperCheck :=
  match entry.2, resulting.get? entry.1 with
  | none, none => ([], [])
  | some old, none =>
      ([{ kind := .create, fileId := entry.1, path := old.path, fileKind := old.kind,
          text := old.text.getD [], blobSha256 := old.blobSha256 }],
        [{ pathFree := some old.path, fileIdAbsent := some entry.1 }])
  | old, some new =>
      let guard : PaperCheck :=
        { fileId := some entry.1, path := some new.path, kind := some new.kind,
          text := some new.text, blobSha256 := some new.blobSha256 }
      match old with
      | none => ([{ kind := .delete, fileId := entry.1 }], [guard])
      | some old =>
          let moved := old.path ≠ new.path
          let renames : List PaperOp :=
            if moved then [{ kind := .rename, fileId := entry.1, path := old.path }] else []
          let contents : List PaperOp :=
            if old.kind = .text ∧ old.text ≠ new.text then
              [{ kind := .replace, fileId := entry.1, start := 0,
                 finish := (new.text.getD []).length, text := old.text.getD [] }]
            else if old.kind = .binary ∧ old.blobSha256 ≠ new.blobSha256 then
              [{ kind := .binary, fileId := entry.1, blobSha256 := old.blobSha256 }]
            else []
          (renames ++ contents,
            guard :: if moved then [{ pathFree := some old.path }] else [])

/-- The result of `_prepare`. -/
structure PreparedGroup where
  ops : List PaperOp
  checks : List PaperCheck
  inverse : List PaperOp
  guards : List PaperCheck

/-- `PaperChanges._prepare`. -/
def prepare (current : List PaperFile) (changes : List Change) : Except PaperError PreparedGroup := do
  let state ← (ordered changes).foldlM (prepareChange env current) {}
  let inverses := state.original.map (inverseOf state.resulting)
  .ok {
    ops := state.ops
    checks := state.checks
    inverse := inverses.flatMap (·.1)
    guards := inverses.flatMap (·.2) }

end Prepare

/-- `_check_snapshot` for one check. -/
def checkSnapshot (files : List PaperFile) (check : PaperCheck) : Except PaperError Unit :=
  if check.pathFree.any fun path => (fileAt files path).isSome then
    .error (.precondition "Paper path is occupied")
  else if check.fileIdAbsent.any fun id => (files.find? (·.fileId = id)).isSome then
    .error (.precondition "Paper identity already exists")
  else
    match check.fileId with
    | none => .ok ()
    | some id =>
        match files.find? (·.fileId = id) with
        | none => .error (.precondition "Paper file no longer exists")
        | some file =>
            if check.path.any (file.path ≠ ·) then .error (.precondition "Paper path changed")
            else if check.kind.any (file.kind ≠ ·) then
              .error (.precondition "Paper kind changed")
            else if check.blobSha256.any (file.blobSha256 ≠ ·) then
              .error (.precondition "Paper blob_sha256 changed")
            else
              match check.text, check.range with
              | none, _ => .ok ()
              | some expected, none =>
                  if file.text ≠ expected then .error (.precondition "Paper text changed") else .ok ()
              | some expected, some (start, finish) =>
                  match file.text with
                  | none => .error (.precondition "Paper region is invalid")
                  | some text =>
                      if ¬(start ≤ finish ∧ finish ≤ text.length) then
                        .error (.precondition "Paper region is invalid")
                      else if some (slice text start finish) ≠ expected then
                        .error (.precondition "Paper text changed")
                      else .ok ()

/-- The length of a text in UTF-8. -/
def encodedLength (text : List Char) : Nat := (text.map Char.utf8Size).sum

/-- The store that the live paper runs on. -/
structure LiveStore where
  /-- `paper_blobs`. -/
  blob : String → Option Bytes
  /-- The kind, and the text, of every identity that was ever used. -/
  tombstone : String → Option (FileKind × List Char)
  /-- The rate of the project and the sizes of the encoded documents admit the operations. -/
  admits : List PaperOp → Bool
  /-- The text of a pycrdt document after the bytes between two offsets were taken out of it and
  another text was inserted at the first one. -/
  edit : List Char → Nat → Nat → List Char → List Char

/-- The offsets of pycrdt are bytes of UTF-8, those of an operation are characters. -/
def LiveStore.replaceText (live : LiveStore) (text : List Char) (op : PaperOp) : List Char :=
  live.edit text (encodedLength (text.take op.start)) (encodedLength (text.take op.finish)) op.text

/-- What pycrdt documents of its texts: an edit leaves what is before and behind it. -/
def LiveStore.EditsBytes (live : LiveStore) : Prop :=
  ∀ before old behind after, live.edit (before ++ (old ++ behind)) (encodedLength before)
    (encodedLength (before ++ old)) after = before ++ (after ++ behind)

theorem LiveStore.EditsBytes.replaceText {live : LiveStore} (h : live.EditsBytes)
    (text : List Char) (op : PaperOp) (hle : op.start ≤ op.finish) :
    live.replaceText text op = replaceRange text op.start op.finish op.text := by
  have hold : text.take op.start ++ (text.take op.finish).drop op.start = text.take op.finish := by
    have htake : (text.take op.finish).take op.start = text.take op.start := by
      rw [List.take_take, Nat.min_eq_left hle]
    rw [← htake, List.take_append_drop]
  have htext : text.take op.start ++ ((text.take op.finish).drop op.start ++ text.drop op.finish) =
      text := by
    rw [← List.append_assoc, hold, List.take_append_drop]
  have hedit := h (text.take op.start) ((text.take op.finish).drop op.start) (text.drop op.finish)
    op.text
  rw [htext, hold] at hedit
  rw [LiveStore.replaceText, hedit, replaceRange, List.append_assoc]

section Apply

variable (live : LiveStore) (known : String → Option Bytes) (checks : List PaperCheck)

/-- The blob of an operation is in the snapshot or the store. -/
def opBlob (op : PaperOp) : Except PaperError String :=
  let sha256 := op.blobSha256.getD ""
  if (known sha256).isNone ∧ (live.blob sha256).isNone then .error (.missing sha256)
  else .ok sha256

/-- A replacement is guarded by a check of its region or of the whole text. -/
def guarded (op : PaperOp) : Bool :=
  checks.any fun check => check.fileId = some op.fileId && check.text.isSome &&
    (check.range = none || check.range = some (op.start, op.finish))

/-- One operation on the file of its identity. -/
def applyToFile (file : Option PaperFile) (op : PaperOp) : Except PaperError (Option PaperFile) :=
  match op.kind, file with
  | .create, some _ => .error (.precondition "Paper file already exists")
  | .create, none =>
      if (live.tombstone op.fileId).any fun entry => entry.1 ≠ op.fileKind ||
          ¬checks.any (·.fileIdAbsent = some op.fileId) then
        .error (.precondition "Paper identity already exists")
      else if ¬isPaperPath op.path then .error (.value "Invalid Paper path")
      else if (live.tombstone op.fileId).any fun entry =>
          op.fileKind = .text && entry.2 ≠ op.text then
        .error (.precondition "Retained Paper document differs from Undo")
      else
        match op.fileKind with
        | .text => .ok (some ⟨op.fileId, op.path, .text op.text⟩)
        | .binary => do .ok (some ⟨op.fileId, op.path, .binary (← opBlob live known op)⟩)
  | _, none => .error (.precondition "Paper file no longer exists")
  | .replace, some file =>
      match file.content with
      | .binary _ => .error (.value "Binary files cannot receive text edits")
      | .text text =>
          if ¬(op.start ≤ op.finish ∧ op.finish ≤ text.length) then
            .error (.precondition "Paper region is invalid")
          else if ¬guarded checks op then
            .error (.value "Paper text replacement requires a text precondition")
          else
            .ok (some { file with content := .text (live.replaceText text op) })
  | .rename, some file =>
      if isPaperPath op.path then .ok (some { file with path := op.path })
      else .error (.value "Invalid Paper path")
  | .delete, some _ => .ok none
  | .binary, some file =>
      match file.content with
      | .text _ => .error (.value "Use a binary Paper file for uploads")
      | .binary _ => do
          .ok (some { file with content := .binary (← opBlob live known op) })

def putFile (files : Dict String PaperFile) (fileId : String) (file : Option PaperFile) :
    Dict String PaperFile :=
  match file with
  | some file => files.insert fileId file
  | none => files.erase fileId

/-- The loop body of `_apply`. -/
def applyOp (files : Dict String PaperFile) (op : PaperOp) :
    Except PaperError (Dict String PaperFile) := do
  .ok (putFile files op.fileId (← applyToFile live known checks (files.get? op.fileId) op))

end Apply

/-- `PaperLive._apply`: the files that the operations leave. -/
def applyOps {digest : Bytes → String} (live : LiveStore) (snapshot : PaperSnapshot digest)
    (ops : List PaperOp) (checks : List PaperCheck) : Except PaperError (Dict String PaperFile) :=
  if ops = [] then .error (.value "Paper operations cannot be empty")
  else do
    let _ ← checks.mapM (checkSnapshot snapshot.files)
    let files ← ops.foldlM (applyOp live snapshot.blobs.find checks)
      (Dict.ofList (snapshot.files.map fun file => (file.fileId, file)))
    validateTree (fun sha256 => (snapshot.blobs.find sha256).or (live.blob sha256)) files.values
    if live.admits ops then .ok files else .error (.limit "Paper CRDT state is too large")

end RcpGraph.Paper
