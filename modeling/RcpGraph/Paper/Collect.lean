import RcpGraph.Paper.Tree

/-!
Collecting a coach's output: `validate_output` reads the files and the moves,
`build_changes` compares them with the snapshot they were made from and checks the
proposed tree as a whole.
-/

namespace RcpGraph.Paper

open EditScript

/-- What a coach leaves behind. -/
structure RegularTree where
  files : Dict String Bytes
  directories : List String

/-- The libraries that collecting rests on. -/
structure CoachEnv where
  digest : Bytes → String
  /-- `json.loads` of decoded bytes. -/
  loads : Bytes → Option Json
  /-- Strict UTF-8. -/
  decode : Bytes → Option (List Char)
  getOpcodes : Matcher
  /-- The identity of the file created at a path. -/
  newId : String → String

inductive PaperChangeKind where
  | edit
  | rewrite
  | create
  | rename
  | delete
  | binary
  deriving DecidableEq, Repr

structure Change where
  kind : PaperChangeKind
  fileId : String
  path : String
  newPath : Option String := none
  baseRevision : Nat
  start : Nat := 0
  finish : Nat := 0
  before : List Char := []
  after : List Char := []
  fileKind : FileKind := .text
  beforeBlob : Option String := none
  afterBlob : Option String := none
  deriving DecidableEq, Repr

def paperChangesMaxMovesBytes : Nat := 64 * 1024

/-- `PurePosixPath(path).suffix.lower()`. -/
def pathSuffix (path : String) : List Char :=
  let name := ((path.toList.splitOn '/').getLast?).getD []
  let extension := name.reverse.takeWhile (· ≠ '.')
  if extension ≠ [] ∧ extension.length + 1 < name.length then
    '.' :: (extension.reverse.map Char.toLower)
  else []

def binarySuffixes : List String :=
  [".png", ".jpg", ".jpeg", ".gif", ".webp", ".pdf", ".zip", ".woff", ".woff2"]

/-- `paper_file_kind`. -/
def paperFileKind (decode : Bytes → Option (List Char)) (path : String) (data : Bytes) : FileKind :=
  if String.ofList (pathSuffix path) ∈ binarySuffixes ∨ (0 : UInt8) ∈ data then .binary
  else if (decode data).isNone then .binary
  else .text

/-- The paths of the folders of a path. -/
def parentPaths (path : String) : List String :=
  let parts := (path.toList.splitOn '/').map String.ofList
  (List.range' 1 (parts.length - 1)).map fun k => Text.join "/" (parts.take k)

/-- The renames and deletions of `moves.json`. -/
structure Moves where
  renames : List (String × String)
  deletions : List String

def renamePair : Json → Option (String × String)
  | .arr [.str old, .str new] => some (old, new)
  | _ => none

def jsonString : Json → Option String
  | .str s => some s
  | _ => none

/-- An array under a key of `moves.json`; a missing one is empty. -/
def moveList (fields : List (String × Json)) (key : String) : Option (List Json) :=
  match fields.lookup key with
  | none => some []
  | some (.arr xs) => some xs
  | some _ => none

def parseMoves (loads : Bytes → Option Json) (body : Option Bytes) : Except PaperError Moves :=
  match body.elim (some (Json.obj [])) loads with
  | none => .error (.invalidChanges ["moves.json must contain UTF-8 JSON"])
  | some (.obj fields) =>
      if fields.any fun field => field.1 ∉ ["rename", "delete"] then
        .error (.invalidChanges ["moves.json requires only rename and delete arrays"])
      else
        match (moveList fields "rename").bind (List.mapM renamePair),
          (moveList fields "delete").bind (List.mapM jsonString) with
        | some renames, some deletions => .ok ⟨renames, deletions⟩
        | _, _ => .error (.invalidChanges ["Invalid rename or delete schema"])
  | some _ => .error (.invalidChanges ["moves.json requires only rename and delete arrays"])

/-- `_path`. -/
def changesPath (value : String) : Except PaperError String :=
  if isPaperPath value then .ok value
  else .error (.invalidChanges ["Invalid paper-relative path: " ++ Text.quoted value])

def filesPrefix : String := "files/"

/-- The files of an output, by their paths in the paper. -/
def outputFiles (output : RegularTree) : Dict String Bytes :=
  Dict.ofList ((output.files.entries.filter fun e => filesPrefix.toList.isPrefixOf e.1.toList).map
    fun e => (String.ofList (e.1.toList.drop filesPrefix.length), e.2))

/-- What an output says of a snapshot. -/
structure Output where
  files : Dict String Bytes
  renames : List (String × String)
  deletions : List String

namespace Output

/-- The path in the snapshot of a written file. -/
def source (o : Output) (name : String) : String :=
  ((o.renames.find? (·.2 = name)).map (·.1)).getD name

/-- The path that a file of the snapshot ends at. -/
def target (o : Output) (path : String) : String :=
  ((o.renames.find? (·.1 = path)).map (·.2)).getD path

end Output

section Collect

variable (env : CoachEnv)

/-- The file at a path. -/
def fileAt (files : List PaperFile) (path : String) : Option PaperFile :=
  files.find? (·.path = path)

/-- The kind that a written file has: that of the file it replaces, or as an upload. -/
def writtenKind (files : List PaperFile) (o : Output) (name : String) (body : Bytes) : FileKind :=
  match fileAt files (o.source name) with
  | some original => original.kind
  | none => paperFileKind env.decode name body

/-- `validate_output`. -/
def validateOutput (output : RegularTree) (files : List PaperFile) : Except PaperError Output := do
  let _ ← (output.directories ++ output.files.keys).mapM changesPath
  let moves := output.files.get? "moves.json"
  if (moves.getD []).length > paperChangesMaxMovesBytes then
    .error (.invalidChanges ["Changes byte limit exceeded: moves.json"])
  else
    let unknown := output.files.keys.filter fun name =>
      name ≠ "moves.json" && ¬filesPrefix.toList.isPrefixOf name.toList
    if unknown ≠ [] then
      .error (.invalidChanges (unknown.map fun name => "Unexpected output: " ++ name))
    else
      let moves ← parseMoves env.loads moves
      let written := outputFiles output
      let pairs ← moves.renames.mapM fun pair => do
        .ok (← changesPath pair.1, ← changesPath pair.2)
      let deletions ← moves.deletions.mapM changesPath
      let sources := pairs.map (·.1)
      let targets := pairs.map (·.2)
      if ¬(sources.Nodup ∧ targets.Nodup ∧ deletions.Nodup) then
        .error (.invalidChanges ["Duplicate rename source, destination, or deletion"])
      else if (sources ++ deletions).any fun name => (fileAt files name).isNone then
        .error (.invalidChanges ["Rename/delete source does not exist in the turn snapshot"])
      else if targets.any fun name => (fileAt files name).isSome then
        .error (.invalidChanges ["Rename destination must be free in the turn snapshot"])
      else if (sources.any fun name => name ∈ deletions || name ∈ written) ||
          deletions.any fun name => name ∈ written || name ∈ targets then
        .error (.invalidChanges
          ["A source cannot be both removed and written; write renamed content at its destination"])
      else
        let final := ((files.map (·.path)).filter fun path =>
          path ∉ sources && path ∉ deletions) ++ targets ++ written.keys
        if final.any fun path => (parentPaths path).any (· ∈ final) then
          .error (.invalidChanges ["A paper path cannot be both a file and a folder"])
        else
          let o : Output := ⟨written, pairs, deletions⟩
          match written.entries.find? fun e =>
              writtenKind env files o e.1 e.2 = .text && (env.decode e.2).isNone with
          | some e => .error (.invalidChanges ["Text file is not UTF-8: " ++ e.1])
          | none => .ok o

/-- The content of a written file; a text has been decoded before. -/
def writtenContent (files : List PaperFile) (o : Output) (name : String) (body : Bytes) :
    PaperContent :=
  match writtenKind env files o name body with
  | .text => .text ((env.decode body).getD [])
  | .binary => .binary (env.digest body)

def renameChange (revision : Nat) (file : PaperFile) (new : String) : Change :=
  { kind := .rename, fileId := file.fileId, path := file.path, newPath := some new,
    baseRevision := revision, before := file.text.getD [], fileKind := file.kind,
    beforeBlob := file.blobSha256 }

def deleteChange (revision : Nat) (file : PaperFile) : Change :=
  { kind := .delete, fileId := file.fileId, path := file.path, baseRevision := revision,
    before := file.text.getD [], fileKind := file.kind, beforeBlob := file.blobSha256 }

/-- Agent write tools add a final newline; one the human never typed is not a change. -/
def withoutAddedNewline (base text : List Char) : List Char :=
  if base ≠ [] ∧ base.getLast? ≠ some '\n' ∧ text.getLast? = some '\n' then text.dropLast else text

def editKind : ChangeKind → PaperChangeKind
  | .edit => .edit
  | .rewrite => .rewrite

/-- The card of a changed region. -/
def editChange (revision : Nat) (file : PaperFile) (change : LineChange) : Change :=
  { kind := editKind change.kind, fileId := file.fileId, path := file.path,
    baseRevision := revision, start := change.start, finish := change.finish,
    before := change.before, after := change.after }

/-- The changes of one written file. -/
def writtenChanges (revision : Nat) (files : List PaperFile) (o : Output) (name : String)
    (body : Bytes) : List Change :=
  match fileAt files (o.source name), writtenContent env files o name body with
  | none, .text text =>
      [{ kind := .create, fileId := env.newId name, path := name, baseRevision := revision,
         after := text, fileKind := .text }]
  | none, .binary sha256 =>
      [{ kind := .create, fileId := env.newId name, path := name, baseRevision := revision,
         fileKind := .binary, afterBlob := some sha256 }]
  | some original, .binary sha256 =>
      if some sha256 = original.blobSha256 then []
      else
        [{ kind := .binary, fileId := original.fileId, path := original.path,
           baseRevision := revision, fileKind := .binary, beforeBlob := original.blobSha256,
           afterBlob := some sha256 }]
  | some original, .text text =>
      let base := original.text.getD []
      (lineChanges env.getOpcodes base (withoutAddedNewline base text)).map
        (editChange revision original)

/-- The written files in the order of their names. -/
def sortedFiles (o : Output) : List (String × Bytes) := Text.sortedByKey (·.1) o.files.entries

/-- All changes of an output. -/
def outputChanges (revision : Nat) (files : List PaperFile) (o : Output) : List Change :=
  (o.renames.filterMap fun pair => (fileAt files pair.1).map (renameChange revision · pair.2)) ++
    (o.deletions.filterMap fun name => (fileAt files name).map (deleteChange revision)) ++
    (sortedFiles o).flatMap fun e => writtenChanges env revision files o e.1 e.2

/-- The key of a written file in the proposed tree. -/
def proposedKey (files : List PaperFile) (o : Output) (name : String) : String :=
  match fileAt files (o.source name) with
  | some original => original.fileId
  | none => "new:" ++ name

def proposedFile (files : List PaperFile) (o : Output) (name : String) (body : Bytes) : PaperFile where
  fileId := ((fileAt files (o.source name)).map (·.fileId)).getD name
  path := name
  content := writtenContent env files o name body

/-- The tree that an output proposes. -/
def proposedTree (files tree : List PaperFile) (o : Output) : Dict String PaperFile :=
  (Dict.ofList ((tree.filter (·.path ∉ o.deletions)).map fun file =>
      (file.fileId, { file with path := o.target file.path }))).update
    ((sortedFiles o).map fun e =>
      (proposedKey files o e.1, proposedFile env files o e.1 e.2))

/-- The bodies of written binary files. -/
def writtenBlobs (files : List PaperFile) (o : Output) : List Bytes :=
  ((sortedFiles o).filter fun e => writtenKind env files o e.1 e.2 = .binary).map (·.2)

/-- Blobs of the tree, with the written ones over them. -/
def proposedBlob (files : List PaperFile) (o : Output) (known : String → Option Bytes)
    (sha256 : String) : Option Bytes :=
  ((writtenBlobs env files o).reverse.find? (env.digest · = sha256)).or (known sha256)

def PaperError.reason : PaperError → String
  | .invalidChanges diagnostics => Text.join "; " diagnostics
  | .outdated reason | .precondition reason | .limit reason | .value reason => reason
  | .missing key => key

/-- What `build_changes` returns: the groups, with the blobs that they need. -/
structure Collected where
  groups : List (List Change)
  blobs : List (String × Option Bytes)

/-- `build_changes` of an output against a snapshot that is the whole `tree` or a part of it. -/
def buildChanges (store : String → Option Bytes) (snapshot tree : PaperSnapshot env.digest)
    (output : RegularTree) : Except PaperError Collected := do
  let o ← validateOutput env output snapshot.files
  let changes := outputChanges env snapshot.revision snapshot.files o
  let blob := proposedBlob env snapshot.files o tree.blobs.find
  match validateTree (fun sha256 => (blob sha256).or (store sha256))
      (proposedTree env snapshot.files tree.files o).values with
  | .error (.missing key) => .error (.missing key)
  | .error e => .error (.invalidChanges [e.reason])
  | .ok () =>
      .ok {
        groups := if o.renames ≠ [] ∧ changes ≠ [] then [changes] else changes.map ([·])
        blobs := (changes.filterMap (·.afterBlob)).map fun sha256 => (sha256, blob sha256) }

end Collect

end RcpGraph.Paper
