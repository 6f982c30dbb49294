import RcpGraph.Lib.Dict
import RcpGraph.Lib.Json
import RcpGraph.Paper.RangeMapping

/-!
The files of a paper and the checks of a whole tree. A file's content is its text or
the digest of its bytes; blobs are kept by digest.
-/

namespace RcpGraph.Paper

abbrev Bytes := List UInt8

/-- The errors of the paper's modules. -/
inductive PaperError where
  | invalidChanges (diagnostics : List String)
  | outdated (reason : String)
  | precondition (reason : String)
  | limit (reason : String)
  | value (reason : String)
  | missing (key : String)
  deriving DecidableEq, Repr

inductive FileKind where
  | text
  | binary
  deriving DecidableEq, Repr

/-- `kind` with `text` or `blob_sha256`. -/
inductive PaperContent where
  | text (text : List Char)
  | binary (sha256 : String)
  deriving DecidableEq, Repr

structure PaperFile where
  fileId : String
  path : String
  content : PaperContent
  deriving DecidableEq, Repr

def PaperFile.kind (file : PaperFile) : FileKind :=
  match file.content with
  | .text _ => .text
  | .binary _ => .binary

def PaperFile.text (file : PaperFile) : Option (List Char) :=
  match file.content with
  | .text text => some text
  | .binary _ => none

def PaperFile.blobSha256 (file : PaperFile) : Option String :=
  match file.content with
  | .text _ => none
  | .binary sha256 => some sha256

/-- Blobs by the digest of their bytes. -/
structure BlobStore (digest : Bytes → String) where
  find : String → Option Bytes
  addressed : ∀ sha256 data, find sha256 = some data → digest data = sha256

/-- A paper as it is read: identities and paths are unique, and every blob is at hand. -/
structure PaperSnapshot (digest : Bytes → String) where
  revision : Nat
  files : List PaperFile
  blobs : BlobStore digest
  ids_nodup : (files.map (·.fileId)).Nodup
  paths_nodup : (files.map (·.path)).Nodup
  blobs_known : ∀ file ∈ files, ∀ sha256, file.content = .binary sha256 →
    (blobs.find sha256).isSome = true

def paperMaxFiles : Nat := 256

def paperMaxDocBytes : Nat := 2 * 1024 * 1024

def paperMaxUploadBytes : Nat := 16 * 1024 * 1024

def paperMaxTreeBytes : Nat := 64 * 1024 * 1024

/-- The size of a text in UTF-8. -/
def utf8Size (text : List Char) : Nat := (text.map Char.utf8Size).sum

/-- What `paper_path` accepts. -/
def isPaperPath (value : String) : Bool :=
  value ≠ "" && utf8Size value.toList ≤ 1024 && '\\' ∉ value.toList &&
    value.toList.all (fun c => ¬(c.toNat < 32 ∨ c.toNat = 127)) &&
    (value.toList.splitOn '/').all fun part =>
      String.ofList part ∉ ["", ".", "..", ".git", ".publish"] && utf8Size part ≤ 255

/-- `path.startswith(folder + "/")`. -/
def isUnder (folder path : String) : Bool := (folder.toList ++ ['/']).isPrefixOf path.toList

section Tree

/-- The bytes that one file adds to the tree. -/
def fileSize (find : String → Option Bytes) (file : PaperFile) : Except PaperError Nat :=
  match file.content with
  | .text text =>
      if '\x00' ∈ text then .error (.value "Paper text cannot contain NUL")
      else if utf8Size text > paperMaxDocBytes then .error (.limit "Paper document is too large")
      else .ok (utf8Size text)
  | .binary sha256 =>
      match find sha256 with
      | none => .error (.missing sha256)
      | some data =>
          if data.length > paperMaxUploadBytes then .error (.limit "Paper upload is too large")
          else .ok data.length

/-- The sizes of the files one after another. -/
def treeSize (find : String → Option Bytes) : List PaperFile → Except PaperError Nat
  | [] => .ok 0
  | file :: files => do
      let size ← fileSize find file
      .ok (size + (← treeSize find files))

/-- `validate_tree`; `find` looks a blob up among those given, then in the store. -/
def validateTree (find : String → Option Bytes) (files : List PaperFile) : Except PaperError Unit :=
  let paths := files.map (·.path)
  if files.length > paperMaxFiles then .error (.limit "Paper file limit reached")
  else if ¬paths.all isPaperPath then .error (.value "Invalid Paper path")
  else if ¬paths.Nodup then .error (.precondition "Paper path is occupied")
  else if paths.any (fun path => paths.any fun other => other ≠ path && isUnder other path) then
    .error (.precondition "Paper file blocks a directory")
  else do
    let size ← treeSize find files
    if size > paperMaxTreeBytes then .error (.limit "Paper tree is too large") else .ok ()

/-- A valid tree. -/
structure ValidTree (find : String → Option Bytes) (files : List PaperFile) : Prop where
  count : files.length ≤ paperMaxFiles
  paths : ∀ file ∈ files, isPaperPath file.path = true
  nodup : (files.map (·.path)).Nodup
  apart : ∀ file ∈ files, ∀ other ∈ files, isUnder other.path file.path = false
  size : ∃ size, treeSize find files = .ok size ∧ size ≤ paperMaxTreeBytes

theorem not_isUnder_self (path : String) : isUnder path path = false := by
  rw [isUnder, Bool.eq_false_iff]
  intro h
  have hle := (List.isPrefixOf_iff_prefix.mp h).length_le
  rw [List.length_append, List.length_singleton] at hle
  omega

theorem validateTree_ok_iff (find : String → Option Bytes) (files : List PaperFile) :
    validateTree find files = .ok () ↔ ValidTree find files := by
  have hblocks : (files.map (·.path)).any (fun path => (files.map (·.path)).any fun other =>
        other ≠ path && isUnder other path) = false ↔
      ∀ file ∈ files, ∀ other ∈ files, isUnder other.path file.path = false := by
    simp only [List.any_eq_false, List.any_map, Function.comp_apply, List.any_eq_true, not_exists,
      not_and, Bool.and_eq_true, decide_eq_true_eq, ne_eq, Bool.not_eq_true]
    constructor
    · intro h file hfile other hother
      by_cases heq : other.path = file.path
      · rw [heq]
        exact not_isUnder_self file.path
      · exact h file hfile other hother heq
    · intro h file hfile other hother _
      exact h file hfile other hother
  rw [validateTree]
  constructor
  · intro h
    split at h
    · cases h
    next hcount =>
      split at h
      · cases h
      next hpaths =>
        split at h
        · cases h
        next hnodup =>
          split at h
          · cases h
          next hapart =>
            cases hsize : treeSize find files with
            | error e => rw [hsize] at h; cases h
            | ok size =>
                rw [hsize] at h
                simp only [bind, Except.bind] at h
                split at h
                · cases h
                next hle =>
                  refine ⟨by omega, ?_, not_not.mp hnodup, ?_, size, hsize, by omega⟩
                  · simpa using hpaths
                  · exact hblocks.mp (Bool.eq_false_iff.mpr hapart)
  · intro h
    obtain ⟨size, hsize, hle⟩ := h.size
    rw [if_neg (by have := h.count; omega), if_neg (by simpa using h.paths),
      if_neg (not_not.mpr h.nodup), if_neg (Bool.eq_false_iff.mp (hblocks.mpr h.apart)), hsize]
    simp only [bind, Except.bind]
    rw [if_neg (by omega)]

end Tree

end RcpGraph.Paper
