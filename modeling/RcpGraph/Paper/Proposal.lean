import RcpGraph.Lib.Keyed
import RcpGraph.Paper.Prepare

/-!
What an accepted output proposes. Each file of the paper ends at one path, is written
at most once, and has its own changes; every other written path is created.
-/

namespace RcpGraph.Paper

open EditScript

/-- What `validate_output` has checked of an output. -/
structure ValidOutput (files : List PaperFile) (o : Output) : Prop where
  sources_nodup : (o.renames.map (·.1)).Nodup
  targets_nodup : (o.renames.map (·.2)).Nodup
  deletions_nodup : o.deletions.Nodup
  sources_live : ∀ pair ∈ o.renames, (fileAt files pair.1).isSome = true
  deletions_live : ∀ name ∈ o.deletions, (fileAt files name).isSome = true
  targets_free : ∀ pair ∈ o.renames, fileAt files pair.2 = none
  sources_kept : ∀ pair ∈ o.renames, pair.1 ∉ o.deletions ∧ pair.1 ∉ o.files
  deletions_gone : ∀ name ∈ o.deletions, name ∉ o.files ∧ ∀ pair ∈ o.renames, pair.2 ≠ name

section Validated

theorem fileAt_some {files : List PaperFile} {path : String} {file : PaperFile}
    (h : fileAt files path = some file) : file ∈ files ∧ file.path = path :=
  ⟨List.mem_of_find?_eq_some h, by simpa using List.find?_some h⟩

theorem changesPath_ok (value path : String) (h : changesPath value = .ok path) : path = value := by
  rw [changesPath] at h
  split at h <;> cases h
  rfl

/-- Checking the paths of a list keeps the list. -/
theorem mapM_keeps {α : Type} (f : α → Except PaperError α) (hf : ∀ x y, f x = .ok y → y = x)
    (xs ys : List α) (h : xs.mapM f = .ok ys) : ys = xs := by
  induction xs generalizing ys with
  | nil =>
      cases h
      rfl
  | cons x xs ih =>
      rw [List.mapM_cons] at h
      cases hx : f x with
      | error e => rw [hx] at h; cases h
      | ok y =>
          cases hxs : xs.mapM f with
          | error e => rw [hx, hxs] at h; cases h
          | ok ys' =>
              rw [hx, hxs] at h
              cases h
              rw [hf x y hx, ih ys' hxs]

theorem renamePath_ok (pair pair' : String × String)
    (h : (do .ok (← changesPath pair.1, ← changesPath pair.2) : Except PaperError _) = .ok pair') :
    pair' = pair := by
  cases hold : changesPath pair.1 with
  | error e => rw [hold] at h; cases h
  | ok old =>
      cases hnew : changesPath pair.2 with
      | error e => rw [hold, hnew] at h; cases h
      | ok new =>
          rw [hold, hnew] at h
          cases h
          rw [changesPath_ok _ _ hold, changesPath_ok _ _ hnew]

/-- A validated output is what was read, and has been checked. -/
theorem validateOutput_ok (env : CoachEnv) (output : RegularTree) (files : List PaperFile)
    (o : Output) (h : validateOutput env output files = .ok o) :
    (∃ moves, parseMoves env.loads (output.files.get? "moves.json") = .ok moves ∧
      o = ⟨outputFiles output, moves.renames, moves.deletions⟩) ∧ ValidOutput files o := by
  unfold validateOutput at h
  cases hpaths : (output.directories ++ output.files.keys).mapM changesPath with
  | error e => rw [hpaths] at h; cases h
  | ok paths =>
      rw [hpaths] at h
      simp only [bind, Except.bind] at h
      split at h
      · cases h
      · split at h
        · cases h
        · split at h
          · cases h
          next moves hmoves =>
            split at h
            · cases h
            next pairs hpairs =>
              split at h
              · cases h
              next deletions hdeletions =>
                split at h
                · cases h
                next hnodup =>
                  split at h
                  · cases h
                  next hlive =>
                    split at h
                    · cases h
                    next hfree =>
                      split at h
                      · cases h
                      next hkept =>
                        split at h
                        · cases h
                        · split at h
                          · cases h
                          · cases h
                            rw [not_not] at hnodup
                            rw [Bool.not_eq_true, Bool.or_eq_false_iff] at hkept
                            simp only [List.any_eq_true, List.mem_append, List.mem_map,
                              not_exists, not_and, Option.isNone_iff_eq_none] at hlive hfree
                            simp only [List.any_eq_false, List.mem_map, Bool.or_eq_true, not_or,
                              decide_eq_true_eq, not_exists, not_and] at hkept
                            rw [mapM_keeps _ renamePath_ok _ _ hpairs] at *
                            rw [mapM_keeps _ changesPath_ok _ _ hdeletions] at *
                            refine ⟨⟨moves, hmoves, rfl⟩, hnodup.1, hnodup.2.1, hnodup.2.2, ?_, ?_, ?_, ?_, ?_⟩
                            · intro pair hpair
                              rw [Option.isSome_iff_ne_none]
                              exact hlive pair.1 (.inl ⟨pair, hpair, rfl⟩)
                            · intro name hname
                              rw [Option.isSome_iff_ne_none]
                              exact hlive name (.inr hname)
                            · intro pair hpair
                              exact Option.not_isSome_iff_eq_none.mp
                                (hfree pair.2 ⟨pair, hpair, rfl⟩)
                            · intro pair hpair
                              exact hkept.1 pair.1 ⟨pair, hpair, rfl⟩
                            · intro name hname
                              exact hkept.2 name hname

end Validated

section Moves

variable {files : List PaperFile} {o : Output}

theorem fileAt_mem (hpaths : (files.map (·.path)).Nodup) {file : PaperFile} (hfile : file ∈ files) :
    fileAt files file.path = some file := by
  cases h : fileAt files file.path with
  | none =>
      have := List.find?_eq_none.mp h file hfile
      simp at this
  | some other =>
      obtain ⟨hother, hpath⟩ := fileAt_some h
      rw [List.inj_on_of_nodup_map hpaths hother hfile hpath]

theorem find?_of_nodup_map {α β : Type} [DecidableEq β] (f : α → β) (xs : List α)
    (hxs : (xs.map f).Nodup) (x : α) (hx : x ∈ xs) : xs.find? (f · = f x) = some x := by
  cases h : xs.find? (f · = f x) with
  | none =>
      have := List.find?_eq_none.mp h x hx
      simp at this
  | some y =>
      have hy : f y = f x := by simpa using List.find?_some h
      rw [List.inj_on_of_nodup_map hxs (List.mem_of_find?_eq_some h) hx hy]

namespace Output

theorem target_of_mem (hsources : (o.renames.map (·.1)).Nodup) {pair : String × String}
    (hpair : pair ∈ o.renames) : o.target pair.1 = pair.2 := by
  rw [target, find?_of_nodup_map Prod.fst o.renames hsources pair hpair]
  rfl

theorem source_of_mem (htargets : (o.renames.map (·.2)).Nodup) {pair : String × String}
    (hpair : pair ∈ o.renames) : o.source pair.2 = pair.1 := by
  rw [source, find?_of_nodup_map Prod.snd o.renames htargets pair hpair]
  rfl

theorem target_of_not_mem {path : String} (h : path ∉ o.renames.map (·.1)) :
    o.target path = path := by
  have hnone : o.renames.find? (·.1 = path) = none := by
    apply List.find?_eq_none.mpr
    intro pair hpair
    simpa using fun heq => h (List.mem_map.mpr ⟨pair, hpair, heq⟩)
  rw [target, hnone]
  rfl

theorem source_of_not_mem {name : String} (h : name ∉ o.renames.map (·.2)) :
    o.source name = name := by
  have hnone : o.renames.find? (·.2 = name) = none := by
    apply List.find?_eq_none.mpr
    intro pair hpair
    simpa using fun heq => h (List.mem_map.mpr ⟨pair, hpair, heq⟩)
  rw [source, hnone]
  rfl

end Output

/-- A rename moves a file to another path. -/
theorem ValidOutput.target_ne (hvalid : ValidOutput files o) {pair : String × String}
    (hpair : pair ∈ o.renames) : pair.2 ≠ pair.1 := by
  intro heq
  have hlive := hvalid.sources_live pair hpair
  rw [← heq, hvalid.targets_free pair hpair] at hlive
  cases hlive

/-- A written file replaces the file that ends at its path. -/
theorem ValidOutput.source_eq_iff (hvalid : ValidOutput files o)
    (hpaths : (files.map (·.path)).Nodup) {name : String} (hname : name ∈ o.files)
    {file : PaperFile} (hfile : file ∈ files) :
    fileAt files (o.source name) = some file ↔ name = o.target file.path := by
  constructor
  · intro h
    have hpath := (fileAt_some h).2
    by_cases htarget : name ∈ o.renames.map (·.2)
    · obtain ⟨pair, hpair, rfl⟩ := List.mem_map.mp htarget
      rw [Output.source_of_mem hvalid.targets_nodup hpair] at hpath
      rw [hpath, Output.target_of_mem hvalid.sources_nodup hpair]
    · rw [Output.source_of_not_mem htarget] at hpath
      rw [hpath, Output.target_of_not_mem]
      intro hsource
      obtain ⟨pair, hpair, heq⟩ := List.mem_map.mp hsource
      exact (hvalid.sources_kept pair hpair).2 (heq ▸ hname)
  · intro h
    by_cases hsource : file.path ∈ o.renames.map (·.1)
    · obtain ⟨pair, hpair, heq⟩ := List.mem_map.mp hsource
      rw [← heq, Output.target_of_mem hvalid.sources_nodup hpair] at h
      rw [h, Output.source_of_mem hvalid.targets_nodup hpair, heq, fileAt_mem hpaths hfile]
    · rw [Output.target_of_not_mem hsource] at h
      rw [h, Output.source_of_not_mem, fileAt_mem hpaths hfile]
      intro htarget
      obtain ⟨pair, hpair, heq⟩ := List.mem_map.mp htarget
      have hfree := hvalid.targets_free pair hpair
      rw [heq, fileAt_mem hpaths hfile] at hfree
      cases hfree

/-- A written file is new unless its path is one of the snapshot or of a rename. -/
theorem ValidOutput.source_eq_none_iff (hvalid : ValidOutput files o) (name : String) :
    fileAt files (o.source name) = none ↔
      fileAt files name = none ∧ name ∉ o.renames.map (·.2) := by
  by_cases htarget : name ∈ o.renames.map (·.2)
  · refine iff_of_false ?_ fun h => h.2 htarget
    obtain ⟨pair, hpair, rfl⟩ := List.mem_map.mp htarget
    rw [Output.source_of_mem hvalid.targets_nodup hpair]
    exact Option.isSome_iff_ne_none.mp (hvalid.sources_live pair hpair)
  · rw [Output.source_of_not_mem htarget]
    exact (and_iff_left htarget).symm

end Moves

end RcpGraph.Paper
