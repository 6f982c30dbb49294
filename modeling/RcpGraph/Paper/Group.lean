import Mathlib.Data.String.Basic
import RcpGraph.Paper.Changes

/-!
The group of an output, in the order in which it is prepared and applied.
-/

namespace RcpGraph.Paper

open EditScript

section Order

theorem changeOrder_total (x y : Change) : ChangeOrder x y ∨ ChangeOrder y x := by
  unfold ChangeOrder
  cases isEdit x <;> cases isEdit y <;> simp only [Bool.false_lt_true, true_or, or_true]
  all_goals
    rcases lt_trichotomy x.fileId y.fileId with h | h | h
    · simp [h]
    · simp [h, Nat.le_total]
    · simp [h]

instance : Std.Total ChangeOrder := ⟨changeOrder_total⟩

instance : IsTrans Change ChangeOrder where
  trans x y z hxy hyz := by
    unfold ChangeOrder at *
    rcases hxy with hxy | ⟨hxy, hid⟩
    · rcases hyz with hyz | ⟨hyz, -⟩
      · exact .inl (lt_trans hxy hyz)
      · exact .inl (hyz ▸ hxy)
    · rcases hyz with hyz | ⟨hyz, hid'⟩
      · exact .inl (hxy ▸ hyz)
      · refine .inr ⟨hxy.trans hyz, ?_⟩
        rcases hid with hid | ⟨hid, hstart⟩
        · rcases hid' with hid' | ⟨hid', -⟩
          · exact .inl (lt_trans hid hid')
          · exact .inl (hid' ▸ hid)
        · rcases hid' with hid' | ⟨hid', hstart'⟩
          · exact .inl (hid ▸ hid')
          · exact .inr ⟨hid.trans hid', hstart'.trans hstart⟩

/-- A sorted list has its edits at the end. -/
theorem eq_append_of_pairwise (xs : List Change) (h : xs.Pairwise ChangeOrder) :
    xs = (xs.filter fun c => !isEdit c) ++ xs.filter isEdit := by
  induction xs with
  | nil => rfl
  | cons x xs ih =>
      obtain ⟨hx, hxs⟩ := List.pairwise_cons.mp h
      cases hedit : isEdit x with
      | false =>
          rw [List.filter_cons_of_pos (by simp [hedit]), List.filter_cons_of_neg (by simp [hedit]),
            List.cons_append, ← ih hxs]
      | true =>
          have hedits : ∀ y ∈ xs, isEdit y = true := by
            intro y hy
            have := hx y hy
            unfold ChangeOrder at this
            rw [hedit] at this
            cases hedit' : isEdit y with
            | true => rfl
            | false =>
                rw [hedit'] at this
                exact absurd (this.resolve_right fun h => Bool.noConfusion h.1) (by decide)
          have hall : ∀ y ∈ x :: xs, isEdit y = true := by
            intro y hy
            cases List.mem_cons.mp hy with
            | inl heq => rw [heq, hedit]
            | inr hmem => exact hedits y hmem
          rw [List.filter_eq_self.mpr hall, List.filter_eq_nil_iff.mpr fun y hy => by simp [hall y hy],
            List.nil_append]

/-- The changes of a file are prepared in their order, but its edits from right to left. -/
theorem filter_ordered (changes : List Change) (id : String) (heads edits : List Change)
    (hfilter : changes.filter (·.fileId = id) = heads ++ edits)
    (hheads : ∀ c ∈ heads, isEdit c = false ∧ c.start = 0)
    (hedits : ∀ c ∈ edits, isEdit c = true) (hstarts : edits.Pairwise (·.start < ·.start)) :
    (ordered changes).filter (·.fileId = id) = heads ++ edits.reverse := by
  have hid : ∀ c ∈ heads ++ edits, c.fileId = id := by
    intro c hc
    rw [← hfilter] at hc
    simpa using (List.mem_filter.mp hc).2
  have hsorted : ((ordered changes).filter (·.fileId = id)).Pairwise ChangeOrder :=
    (List.pairwise_insertionSort ChangeOrder changes).filter _
  have hperm : ((ordered changes).filter (·.fileId = id)).Perm (heads ++ edits) := by
    rw [← hfilter]
    exact (List.perm_insertionSort ChangeOrder changes).filter _
  have hnonEdits : (heads ++ edits).filter (fun c => !isEdit c) = heads := by
    rw [List.filter_append, List.filter_eq_self.mpr fun c hc => by simp [(hheads c hc).1],
      List.filter_eq_nil_iff.mpr fun c hc => by simp [hedits c hc], List.append_nil]
  have hedits' : (heads ++ edits).filter isEdit = edits := by
    rw [List.filter_append, List.filter_eq_nil_iff.mpr fun c hc => by simp [(hheads c hc).1],
      List.filter_eq_self.mpr hedits, List.nil_append]
  rw [eq_append_of_pairwise _ hsorted]
  congr 1
  · -- The sort is stable, and keeps what is in order.
    have hpairwise : heads.Pairwise ChangeOrder := by
      apply List.pairwise_of_forall_mem_list
      intro x hx y hy
      obtain ⟨hx', hx0⟩ := hheads x hx
      obtain ⟨hy', hy0⟩ := hheads y hy
      refine .inr ⟨by rw [hx', hy'], .inr ⟨?_, by rw [hx0, hy0]⟩⟩
      rw [hid x (List.mem_append_left _ hx), hid y (List.mem_append_left _ hy)]
    have hsub : heads.Sublist changes := by
      have : (heads ++ edits).Sublist changes := hfilter ▸ List.filter_sublist
      exact (List.sublist_append_left heads edits).trans this
    have hsub' := (List.sublist_insertionSort hpairwise hsub).filter (·.fileId = id)
    rw [List.filter_eq_self.mpr fun c hc => by simp [hid c (List.mem_append_left _ hc)]] at hsub'
    have hsub'' := hsub'.filter fun c => !isEdit c
    rw [List.filter_eq_self.mpr fun c hc => by simp [(hheads c hc).1]] at hsub''
    refine (hsub''.eq_of_length ?_).symm
    have := (hperm.filter fun c => !isEdit c).length_eq
    rw [hnonEdits] at this
    exact this.symm
  · -- Edits of one file that begin at different places have one order.
    have hreverse : edits.reverse.Pairwise ChangeOrder := by
      rw [List.pairwise_reverse]
      refine hstarts.imp_of_mem ?_
      intro x y hx hy hlt
      refine .inr ⟨by rw [hedits x hx, hedits y hy], .inr ⟨?_, hlt.le⟩⟩
      rw [hid x (List.mem_append_right _ hx), hid y (List.mem_append_right _ hy)]
    have hpermEdits : (((ordered changes).filter (·.fileId = id)).filter isEdit).Perm edits := by
      have := hperm.filter isEdit
      rwa [hedits'] at this
    refine (hpermEdits.trans (List.reverse_perm edits).symm).eq_of_pairwise ?_
      (hsorted.filter isEdit) hreverse
    intro x y hx hy hxy hyx
    have hx := hpermEdits.mem_iff.mp hx
    have hy := List.mem_reverse.mp hy
    have hstart : x.start = y.start := by
      have hsame : x.fileId = y.fileId := by
        rw [hid x (List.mem_append_right _ hx), hid y (List.mem_append_right _ hy)]
      unfold ChangeOrder at hxy hyx
      rw [hedits x hx, hedits y hy, hsame] at hxy hyx
      simp only [lt_self_iff_false, true_and, false_or] at hxy hyx
      exact Nat.le_antisymm hyx hxy
    exact List.inj_on_of_nodup_map (List.pairwise_map.mpr (hstarts.imp Nat.ne_of_lt)) hx hy hstart

end Order

section Checks

variable {current : List PaperFile}

/-- The file of a check that names one. -/
theorem checkSnapshot_file {check : PaperCheck} {file : PaperFile}
    (hfree : check.pathFree = none) (habsent : check.fileIdAbsent = none)
    (hid : check.fileId = some file.fileId)
    (hfind : current.find? (·.fileId = file.fileId) = some file)
    (hpath : ∀ path ∈ check.path, file.path = path) (hkind : ∀ kind ∈ check.kind, file.kind = kind)
    (hblob : ∀ blob ∈ check.blobSha256, file.blobSha256 = blob)
    (htext : ∀ expected ∈ check.text,
      (check.range = none ∧ file.text = expected) ∨ ∃ start finish text,
        check.range = some (start, finish) ∧ file.text = some text ∧ start ≤ finish ∧
          finish ≤ text.length ∧ some (slice text start finish) = expected) :
    checkSnapshot current check = .ok () := by
  have hpath' : check.path.any (file.path ≠ ·) = false := by
    cases h : check.path with
    | none => rfl
    | some path => simp [hpath path h]
  have hkind' : check.kind.any (file.kind ≠ ·) = false := by
    cases h : check.kind with
    | none => rfl
    | some kind => simp [hkind kind h]
  have hblob' : check.blobSha256.any (file.blobSha256 ≠ ·) = false := by
    cases h : check.blobSha256 with
    | none => rfl
    | some blob => simp [hblob blob h]
  rw [checkSnapshot, hfree, habsent, hid]
  simp only [Option.any_none, Bool.false_eq_true, if_false, hfind, hpath', hkind', hblob']
  cases h : check.text with
  | none => rfl
  | some expected =>
      rcases htext expected h with ⟨hrange, heq⟩ | ⟨start, finish, text, hrange, heq, hle, hlen, hslice⟩
      · rw [hrange]
        simp [heq]
      · rw [hrange]
        simp [heq, hle, hlen, hslice]

theorem checkSnapshot_free {path : Option String}
    (h : ∀ p ∈ path, fileAt current p = none) :
    checkSnapshot current { pathFree := path } = .ok () := by
  cases path with
  | none => rfl
  | some p => simp [checkSnapshot, h p rfl]

end Checks

section Prepare

variable {env : LiveEnv} {current : List PaperFile}

/-- What a change that applies to the files finds there. -/
structure Preparable (env : LiveEnv) (current : List PaperFile) (c : Change) : Prop where
  free : c.kind = .create → createBlocked current c = false
  present : c.kind ≠ .create → ∃ file ∈ current,
    file.fileId = c.fileId ∧ file.path = c.path ∧ file.kind = c.fileKind ∧
      (isEdit c = true → ∃ text, file.content = .text text ∧
        env.textAt file.fileId c.baseRevision = some text ∧ c.start ≤ c.finish ∧
          c.finish ≤ text.length ∧ slice text c.start c.finish = c.before) ∧
      (isEdit c = false → sameContent file c = true) ∧
      (c.kind = .rename → fileAt current (c.newPath.getD "") = none)

/-- The check that guards an edit. -/
def editCheck (c : Change) : PaperCheck :=
  { fileId := some c.fileId, range := some (c.start, c.finish), text := some (some c.before) }

/-- What preparing one change adds. -/
structure Prepares (current : List PaperFile) (state : Prepared) (c : Change)
    (state' : Prepared) : Prop where
  ops : state'.ops = state.ops ++ [changeOp c (c.start, c.finish)]
  kept : ∀ check ∈ state.checks, check ∈ state'.checks
  checked : ∀ check ∈ state'.checks, check ∈ state.checks ∨ checkSnapshot current check = .ok ()
  guarded : isEdit c = true → editCheck c ∈ state'.checks

theorem changeOp_range {c : Change} (h : isEdit c = false) (range range' : Nat × Nat) :
    changeOp c range = changeOp c range' := by
  unfold changeOp
  cases hkind : c.kind with
  | edit => simp [isEdit, hkind] at h
  | rewrite => simp [isEdit, hkind] at h
  | create | rename | delete | binary => rfl

theorem find?_fileId (hids : (current.map (·.fileId)).Nodup) {file : PaperFile}
    (hfile : file ∈ current) : current.find? (·.fileId = file.fileId) = some file :=
  find?_of_nodup_map PaperFile.fileId current hids file hfile

theorem checkSnapshot_fileCheck (hids : (current.map (·.fileId)).Nodup) {file : PaperFile}
    (hfile : file ∈ current) : checkSnapshot current (fileCheck file) = .ok () := by
  refine checkSnapshot_file rfl rfl rfl (find?_fileId hids hfile) ?_ ?_ ?_ ?_
  · intro path hpath
    exact Option.some.inj hpath
  · intro kind hkind
    exact Option.some.inj hkind
  · intro blob hblob
    cases hblob
  · intro expected hexpected
    obtain ⟨text, htext, rfl⟩ := Option.map_eq_some_iff.mp hexpected
    exact .inl ⟨rfl, htext⟩

theorem checkSnapshot_whole (hids : (current.map (·.fileId)).Nodup) {file : PaperFile}
    (hfile : file ∈ current) :
    checkSnapshot current { fileId := some file.fileId, text := some file.text,
                            blobSha256 := some file.blobSha256 } = .ok () := by
  refine checkSnapshot_file rfl rfl rfl (find?_fileId hids hfile) ?_ ?_ ?_ ?_
  · intro path hpath
    cases hpath
  · intro kind hkind
    cases hkind
  · intro blob hblob
    exact Option.some.inj hblob
  · intro expected hexpected
    exact .inl ⟨rfl, Option.some.inj hexpected⟩

/-- The checks with the first one of a touched file. -/
def firstChecks (state : Prepared) (file : PaperFile) : List PaperCheck :=
  if state.original.any (·.1 = file.fileId) then state.checks else state.checks ++ [fileCheck file]

/-- Preparing an edit whose anchor has not moved. -/
theorem prepareExisting_edit {state : Prepared} {c : Change} {file : PaperFile} {base : List Char}
    (hedit : isEdit c = true) (hbase : env.textAt file.fileId c.baseRevision = some base)
    (hmap : (rangeMapping env.getOpcodes base (file.text.getD [])).map c.start c.finish =
      .ok (c.start, c.finish))
    (hslice : slice base c.start c.finish = c.before) :
    prepareExisting env current state c file = .ok {
      checks := firstChecks state file ++ [{ fileId := some file.fileId,
                                             range := some (c.start, c.finish),
                                             text := some (some c.before) }]
      ops := state.ops ++ [changeOp c (c.start, c.finish)]
      original := setDefault state.original file.fileId (some file)
      resulting := state.resulting.insert file.fileId
        (editText ((state.resulting.get? file.fileId).getD file) fun text =>
          replaceRange text c.start c.finish c.after) } := by
  unfold prepareExisting
  cases hkind : c.kind with
  | edit | rewrite =>
      simp only [hbase, hmap, hslice, ne_eq, not_true_eq_false, if_false]
      rfl
  | create | rename | delete | binary => simp [isEdit, hkind] at hedit

theorem prepareExisting_ok (hmatcher : ∀ old new, Script old new (env.getOpcodes old new))
    (hids : (current.map (·.fileId)).Nodup) (state : Prepared) (c : Change)
    (hc : Preparable env current c) (hkind : c.kind ≠ .create) {file : PaperFile}
    (hfile : file ∈ current) (hid : file.fileId = c.fileId) :
    ∃ state', prepareExisting env current state c file = .ok state' ∧
      Prepares current state c state' := by
  obtain ⟨other, hother, hotherId, -, -, hedits, hsame, hfree⟩ := hc.present hkind
  have heq : other = file := eq_of_fileId hids hfile hother (hotherId.trans hid.symm)
  rw [heq] at hedits hsame
  have hfirst : ∀ check ∈ firstChecks state file,
      check ∈ state.checks ∨ checkSnapshot current check = .ok () := by
    intro check hcheck
    unfold firstChecks at hcheck
    split at hcheck
    · exact .inl hcheck
    · cases List.mem_append.mp hcheck with
      | inl hold => exact .inl hold
      | inr hnew =>
          rw [List.mem_singleton.mp hnew]
          exact .inr (checkSnapshot_fileCheck hids hfile)
  have hstays : ∀ check ∈ state.checks, check ∈ firstChecks state file := by
    intro check hcheck
    unfold firstChecks
    split
    · exact hcheck
    · exact List.mem_append_left _ hcheck
  have hadded : ∀ added : List PaperCheck,
      (∀ check ∈ added, checkSnapshot current check = .ok ()) →
      ∀ check ∈ firstChecks state file ++ added,
        check ∈ state.checks ∨ checkSnapshot current check = .ok () := by
    intro added hok check hcheck
    cases List.mem_append.mp hcheck with
    | inl hold => exact hfirst check hold
    | inr hnew => exact .inr (hok check hnew)
  have hwhole := checkSnapshot_whole hids hfile
  have hedit : isEdit c = true → ∃ state', prepareExisting env current state c file = .ok state' ∧
      Prepares current state c state' := by
    intro hedit
    obtain ⟨text, hcontent, hbase, hle, hlen, hslice⟩ := hedits hedit
    have htext : file.text = some text := by rw [PaperFile.text, hcontent]
    have hrange : checkSnapshot current (editCheck c) = .ok () := by
      have hnamed : (editCheck c).fileId = some file.fileId := congrArg some hid.symm
      refine checkSnapshot_file rfl rfl hnamed (find?_fileId hids hfile) ?_ ?_ ?_ ?_
      · intro path hpath
        cases hpath
      · intro kind hkind
        cases hkind
      · intro blob hblob
        cases hblob
      · intro expected hexpected
        exact .inr ⟨c.start, c.finish, text, rfl, htext, hle, hlen,
          (congrArg some hslice).trans (Option.some.inj hexpected)⟩
    have hunchanged : (rangeMapping env.getOpcodes text (file.text.getD [])).map c.start c.finish =
        .ok (c.start, c.finish) := by
      rw [htext]
      exact map_unchanged env.getOpcodes hmatcher text c.start c.finish hle hlen
    refine ⟨_, prepareExisting_edit hedit hbase hunchanged hslice, rfl, ?_, ?_, ?_⟩
    · intro check hcheck
      exact List.mem_append_left _ (hstays check hcheck)
    · apply hadded
      intro check hcheck
      rw [List.mem_singleton.mp hcheck, hid]
      exact hrange
    · intro _
      rw [editCheck, ← hid]
      exact List.mem_append_right _ (List.mem_singleton.mpr rfl)
  cases hc' : c.kind with
  | create => exact absurd hc' hkind
  | edit | rewrite => exact hedit (by simp [isEdit, hc'])
  | rename =>
      have hplain : isEdit c = false := by simp [isEdit, hc']
      have hdestination := hfree hc'
      unfold prepareExisting
      simp only [hc', hdestination, hsame hplain, Option.isSome_none, Bool.false_eq_true, if_false,
        not_true_eq_false]
      refine ⟨_, rfl, ?_, ?_, ?_, ?_⟩
      · simp only
        rw [changeOp_range hplain (0, 0) (c.start, c.finish)]
      · intro check hcheck
        exact List.mem_append_left _ (hstays check hcheck)
      · apply hadded
        intro check hcheck
        simp only [List.mem_cons, List.not_mem_nil, or_false] at hcheck
        rcases hcheck with rfl | rfl
        · exact hwhole
        · apply checkSnapshot_free
          intro p hp
          rw [Option.mem_def.mp hp] at hdestination
          exact hdestination
      · intro h
        rw [hplain] at h
        cases h
  | delete | binary =>
      have hplain : isEdit c = false := by simp [isEdit, hc']
      unfold prepareExisting
      simp only [hc', hsame hplain, if_false, not_true_eq_false]
      refine ⟨_, rfl, ?_, ?_, ?_, ?_⟩
      · simp only
        rw [changeOp_range hplain (0, 0) (c.start, c.finish)]
      · intro check hcheck
        exact List.mem_append_left _ (hstays check hcheck)
      · apply hadded
        intro check hcheck
        rw [List.mem_singleton.mp hcheck]
        exact hwhole
      · intro h
        rw [hplain] at h
        cases h

theorem prepareChange_ok (hmatcher : ∀ old new, Script old new (env.getOpcodes old new))
    (hids : (current.map (·.fileId)).Nodup) (state : Prepared) (c : Change)
    (hc : Preparable env current c) :
    ∃ state', prepareChange env current state c = .ok state' ∧ Prepares current state c state' := by
  rw [prepareChange]
  by_cases hkind : c.kind = .create
  · have hfree := hc.free hkind
    have hpath : fileAt current c.path = none := by
      rw [createBlocked, Bool.or_eq_false_iff, Bool.or_eq_false_iff] at hfree
      exact Option.not_isSome_iff_eq_none.mp (Bool.eq_false_iff.mp hfree.1.2)
    have hedit : isEdit c = false := by simp [isEdit, hkind]
    rw [if_pos hkind, hfree, if_neg Bool.false_ne_true]
    refine ⟨_, rfl, ?_, ?_, ?_, ?_⟩
    · simp only
      rw [changeOp_range hedit (0, 0) (c.start, c.finish)]
    · intro check hcheck
      exact List.mem_append_left _ hcheck
    · intro check hcheck
      cases List.mem_append.mp hcheck with
      | inl hold => exact .inl hold
      | inr hnew =>
          rw [List.mem_singleton.mp hnew]
          exact .inr (checkSnapshot_free fun p hp => Option.some.inj hp ▸ hpath)
    · intro h
      rw [hedit] at h
      cases h
  · obtain ⟨file, hfile, hid, hpath, hfileKind, -⟩ := hc.present hkind
    rw [if_neg hkind, ← hid, find?_fileId hids hfile]
    simp only
    rw [if_neg (by simp [hpath, hfileKind])]
    exact prepareExisting_ok hmatcher hids state c hc hkind hfile hid

/-- The operation of a change at its own range. -/
def rangeOp (c : Change) : PaperOp := changeOp c (c.start, c.finish)

theorem foldlM_prepareChange (hmatcher : ∀ old new, Script old new (env.getOpcodes old new))
    (hids : (current.map (·.fileId)).Nodup) (changes : List Change)
    (hchanges : ∀ c ∈ changes, Preparable env current c) (state : Prepared)
    (hstate : ∀ check ∈ state.checks, checkSnapshot current check = .ok ()) :
    ∃ state', changes.foldlM (prepareChange env current) state = .ok state' ∧
      state'.ops = state.ops ++ changes.map rangeOp ∧
      (∀ check ∈ state.checks, check ∈ state'.checks) ∧
      (∀ check ∈ state'.checks, checkSnapshot current check = .ok ()) ∧
      ∀ c ∈ changes, isEdit c = true → editCheck c ∈ state'.checks := by
  induction changes generalizing state with
  | nil =>
      refine ⟨state, rfl, (List.append_nil _).symm, fun check hcheck => hcheck, hstate, ?_⟩
      intro c hc
      cases hc
  | cons c changes ih =>
      obtain ⟨middle, hstep, hprepares⟩ :=
        prepareChange_ok hmatcher hids state c (hchanges c List.mem_cons_self)
      have hmiddle : ∀ check ∈ middle.checks, checkSnapshot current check = .ok () := by
        intro check hcheck
        exact (hprepares.checked check hcheck).elim (hstate check) id
      obtain ⟨state', hrun, hops, hkept, hchecks, hguarded⟩ :=
        ih (fun x hx => hchanges x (List.mem_cons_of_mem c hx)) middle hmiddle
      refine ⟨state', ?_, ?_, ?_, hchecks, ?_⟩
      · rw [List.foldlM_cons, hstep]
        exact hrun
      · rw [hops, hprepares.ops, List.map_cons, List.append_assoc]
        rfl
      · intro check hcheck
        exact hkept check (hprepares.kept check hcheck)
      · intro x hx hedit
        cases List.mem_cons.mp hx with
        | inl heq =>
            rw [heq] at hedit ⊢
            exact hkept _ (hprepares.guarded hedit)
        | inr hmem => exact hguarded x hmem hedit

/-- A group of changes that find what they expect is prepared. -/
theorem prepare_ok (hmatcher : ∀ old new, Script old new (env.getOpcodes old new))
    (hids : (current.map (·.fileId)).Nodup) (changes : List Change)
    (hchanges : ∀ c ∈ changes, Preparable env current c) :
    ∃ prepared, prepare env current changes = .ok prepared ∧
      prepared.ops = (ordered changes).map rangeOp ∧
      (∀ check ∈ prepared.checks, checkSnapshot current check = .ok ()) ∧
      ∀ c ∈ changes, isEdit c = true → editCheck c ∈ prepared.checks := by
  have hmem : ∀ c, c ∈ ordered changes ↔ c ∈ changes := fun c =>
    (List.perm_insertionSort ChangeOrder changes).mem_iff
  obtain ⟨state, hrun, hops, -, hchecks, hguarded⟩ := foldlM_prepareChange hmatcher hids
    (ordered changes) (fun c hc => hchanges c ((hmem c).mp hc)) {} (fun check hcheck => by cases hcheck)
  rw [prepare, hrun]
  exact ⟨_, rfl, hops, hchecks, fun c hc => hguarded c ((hmem c).mpr hc)⟩

/-- A prepared group creates no file where one is, or where a folder is. -/
theorem createBlocked_of_prepare {changes : List Change} {prepared : PreparedGroup}
    (h : prepare env current changes = .ok prepared) :
    ∀ c ∈ changes, c.kind = .create → createBlocked current c = false := by
  have hrun : ∀ (cs : List Change) (state state' : Prepared),
      cs.foldlM (prepareChange env current) state = .ok state' →
        ∀ c ∈ cs, c.kind = .create → createBlocked current c = false := by
    intro cs
    induction cs with
    | nil =>
        intro state state' _ c hc
        cases hc
    | cons x cs ih =>
        intro state state' h c hc hkind
        rw [List.foldlM_cons] at h
        cases hx : prepareChange env current state x with
        | error e => rw [hx] at h; cases h
        | ok middle =>
            rw [hx] at h
            cases List.mem_cons.mp hc with
            | inl heq =>
                rw [← heq, prepareChange, if_pos hkind] at hx
                split at hx
                · cases hx
                next hfree => exact Bool.eq_false_iff.mpr hfree
            | inr hmem => exact ih middle state' h c hmem hkind
  rw [prepare] at h
  cases hfold : (ordered changes).foldlM (prepareChange env current) {} with
  | error e => rw [hfold] at h; cases h
  | ok state =>
      intro c hc
      exact hrun _ _ _ hfold c ((List.perm_insertionSort ChangeOrder changes).mem_iff.mpr hc)

end Prepare

end RcpGraph.Paper
