import RcpGraph.History.Attribution
import RcpGraph.History.RefreshDelta

/-!
What the refresh delta selects. The greedy loop keeps the bounds it measures, the
empty selection fits because revisions and counts are short, and the candidates
of an accepted history are all built without a refusal.
-/

namespace RcpGraph

variable {rt : Runtime}

namespace RefreshDelta

/-- `sys.maxsize`: no list is longer. -/
def maxsize : Nat := 2 ^ 63 - 1

/-- The steps the history engine keeps of a log: the patches up to the last replayed one. -/
def indexedSteps (patches : List (Patch rt)) (m : MaterializationResult rt) :
    List (Patch rt × Bool) :=
  (patches.filter fun p => decide (p.revision ≤ m.state.revision)).map fun p =>
    (p, decide (p.admission ≠ .rejected))

/-- A stored log with what `build_refresh_delta` is given beside it. -/
structure StoredHistory (vc : ValidationContext rt) (patches : List (Patch rt))
    (steps : Option (List (Patch rt × Bool))) : Prop where
  numbered : Numbered 0 patches
  short : patches.length ≤ maxsize
  /-- Without its steps, a receipt is known by the messages that rejected it. -/
  known : steps = some (indexedSteps patches (materializePatches patches vc)) ∨
    steps = none ∧ ∀ p ∈ patches, p.admission = .rejected → rejected p.admissionMessages = true

theorem accepted_of_stored {vc : ValidationContext rt} {patches : List (Patch rt)}
    {steps : Option (List (Patch rt × Bool))} (h : StoredHistory vc patches steps) :
    acceptedPatches patches (materializePatches patches vc) steps =
      takenIn patches (materializePatches patches vc) := by
  have hsorted : (takenIn patches (materializePatches patches vc)).insertionSort
      (fun p q => p.revision ≤ q.revision) = takenIn patches (materializePatches patches vc) := by
    apply List.Pairwise.insertionSort_eq
    exact (h.numbered.pairwise.filter _).imp Nat.le_of_lt
  rcases h.known with hsteps | ⟨hsteps, hreceipts⟩
  · subst hsteps
    simp only [acceptedPatches, indexedSteps, List.filter_map, List.map_map]
    rw [← hsorted, takenIn]
    congr 1
    simp only [List.filter_filter, Function.comp_def, List.map_id']
    apply List.filter_congr
    intro p _
    simp
  · subst hsteps
    simp only [acceptedPatches]
    rw [← hsorted, takenIn]
    congr 1
    apply List.filter_congr
    intro p hp
    exact accepted_by_report vc patches _ h.numbered (fun k _ => rfl) hreceipts p hp

section Entries

theorem validate_ok {f : EntryFields} {e : Entry} (h : f.validate = .ok e) : e.toEntryFields = f := by
  rw [EntryFields.validate] at h
  split at h
  next =>
    split at h
    next =>
      cases h
      rfl
    next => cases h
  next => cases h

/-- What an entry about a patch is built from. -/
structure EntryFields.About (f : EntryFields) (p : Patch rt) : Prop where
  author : f.author = p.author
  revision : f.revision = p.revision
  title : f.title.length ≤ maxTitleChars

variable (fields : FieldsSet rt) (s : GraphState rt) (p : Patch rt)

theorem about_chatEntries (op : GraphOperation rt) :
    ∀ f ∈ chatEntries fields s p op, f.About p := by
  intro f hf
  obtain ⟨t, -, rfl⟩ := List.mem_map.mp hf
  exact ⟨rfl, rfl, length_boundedTitle _⟩

theorem about_decisionEntries (op : GraphOperation rt) :
    ∀ f ∈ decisionEntries fields s p op, f.About p := by
  intro f hf
  cases op with
  | updateNodes updates =>
      rw [decisionEntries] at hf
      split at hf
      next =>
        obtain ⟨u, -, rfl⟩ := List.mem_map.mp hf
        exact ⟨rfl, rfl, length_boundedTitle _⟩
      next => cases hf
  | resolveProposals resolutions =>
      obtain ⟨r, -, rfl⟩ := List.mem_map.mp hf
      exact ⟨rfl, rfl, length_boundedTitle _⟩
  | withdrawProposals proposals =>
      obtain ⟨w, -, rfl⟩ := List.mem_map.mp hf
      exact ⟨rfl, rfl, length_boundedTitle _⟩
  | resolveAmbiguities resolutions =>
      rw [decisionEntries] at hf
      split at hf
      next =>
        obtain ⟨r, -, rfl⟩ := List.mem_map.mp hf
        exact ⟨rfl, rfl, Nat.zero_le _⟩
      next => cases hf
  | removeNodes ids =>
      obtain ⟨id, -, rfl⟩ := List.mem_map.mp hf
      exact ⟨rfl, rfl, Nat.zero_le _⟩
  | _ => cases hf

theorem about_operationEntries (op : GraphOperation rt) :
    ∀ f ∈ operationEntries fields s p op, f.About p := by
  intro f hf
  rw [operationEntries] at hf
  rcases List.mem_append.mp hf with hf | hf
  · exact about_decisionEntries fields s p op f hf
  · split at hf
    next => exact about_chatEntries fields s p op f hf
    next => cases hf

/-- Entries about patches with an author are all built. -/
theorem validated (fs : List EntryFields)
    (h : ∀ f ∈ fs, f.author.isSome ∧ f.title.length ≤ maxTitleChars) :
    ∃ es, fs.mapM EntryFields.validate = .ok es ∧ es.map Entry.toEntryFields = fs := by
  induction fs with
  | nil => exact ⟨[], rfl, rfl⟩
  | cons f fs ih =>
      obtain ⟨es, hes, hmap⟩ := ih fun g hg => h g (List.mem_cons_of_mem _ hg)
      obtain ⟨hauthor, htitle⟩ := h f List.mem_cons_self
      refine ⟨⟨f, htitle, hauthor⟩ :: es, ?_, by rw [List.map_cons, hmap]⟩
      have hf : f.validate = .ok ⟨f, htitle, hauthor⟩ := by
        rw [EntryFields.validate, dif_pos htitle, dif_pos hauthor]
      rw [List.mapM_cons, hf, hes]
      rfl

theorem recentEntries_ok (patches : List (Patch rt))
    (hauthor : ∀ p ∈ patches, p.ops ≠ [] → p.author.isSome) :
    ∃ es, recentEntries fields patches s = .ok es ∧
      ∀ e ∈ es, ∃ p ∈ patches, e.revision = p.revision := by
  have habout : ∀ f ∈ patches.flatMap fun p => p.ops.flatMap (operationEntries fields s p),
      ∃ p ∈ patches, p.ops ≠ [] ∧ f.About p := by
    intro f hf
    obtain ⟨p, hp, hf⟩ := List.mem_flatMap.mp hf
    obtain ⟨op, hop, hf⟩ := List.mem_flatMap.mp hf
    exact ⟨p, hp, List.ne_nil_of_mem hop, about_operationEntries fields s p op f hf⟩
  obtain ⟨es, hes, hmap⟩ := validated
    (patches.flatMap fun p => p.ops.flatMap (operationEntries fields s p)) (by
      intro f hf
      obtain ⟨p, hp, hops, habout⟩ := habout f hf
      exact ⟨by rw [habout.author]; exact hauthor p hp hops, habout.title⟩)
  refine ⟨sorted es, by rw [recentEntries, hes, Except.map], fun e he => ?_⟩
  have hmem : e.toEntryFields ∈ es.map Entry.toEntryFields :=
    List.mem_map_of_mem ((List.mem_insertionSort _).mp he)
  rw [hmap] at hmem
  obtain ⟨p, hp, -, habout⟩ := habout _ hmem
  exact ⟨p, hp, habout.revision⟩

theorem revision_contestedEntry (transitions : List Entry) (n : ProjectNode rt) (e : Entry)
    (h : contestedEntry transitions n = .ok e) :
    e.revision = n.updatedRev ∨ ∃ t ∈ transitions, e.revision = t.revision := by
  have hfields := congrArg EntryFields.revision (validate_ok h)
  simp only at hfields
  rw [hfields]
  cases hfind : transitions.reverse.find? fun e =>
      decide (e.targetId = n.id ∧ e.currentStanding = some .contested) with
  | none => exact .inl rfl
  | some t => exact .inr ⟨t, List.mem_reverse.mp (List.mem_of_find?_eq_some hfind), rfl⟩

end Entries

section Built

variable (fields : FieldsSet rt)

/-- What selection starts from: contested nodes first, then events from the newest on. -/
structure Candidates.Of (c : Candidates) (s : GraphState rt) : Prop where
  contested : ∀ id, (∃ e ∈ c.mandatory, e.targetId = id) ↔ standingAt s id = some .contested
  newestFirst : c.recent.Pairwise fun e e' => e'.revision ≤ e.revision
  revision : ∀ e ∈ c.list, e.revision ≤ s.revision

theorem sorted_newestFirst (entries : List Entry) :
    (sorted entries).Pairwise fun e e' => e'.revision ≤ e.revision := by
  have htotal : Std.Total fun a b : Entry => sortKey a ≤ sortKey b :=
    ⟨fun a b => le_total (sortKey a) (sortKey b)⟩
  have htrans : IsTrans Entry fun a b => sortKey a ≤ sortKey b :=
    ⟨fun _ _ _ hab hbc => le_trans hab hbc⟩
  have hsorted := List.pairwise_insertionSort (fun a b : Entry => sortKey a ≤ sortKey b) entries
  refine hsorted.imp fun {e e'} h => ?_
  have hfirst := Prod.Lex.monotone_fst _ _ h
  simp only [sortKey, ofLex_toLex] at hfirst
  omega

/-- Every candidate of an accepted history is built. -/
theorem candidates_ok {ps : List (Patch rt)} {steps : List (OpStep rt)} {t s : GraphState rt}
    (h : ReplayRun ps steps t) (hagrees : t.AgreesButFailure s) :
    ∃ c, candidates fields ps s = .ok c ∧ c.Of s := by
  have hnodes : s.nodes = t.nodes := (congrArg GraphState.nodes hagrees).symm
  have hrevision : s.revision = t.revision := (congrArg GraphState.revision hagrees).symm
  obtain ⟨hkeyed, -, -⟩ := h.sound
  have hkeyed' : s.Keyed := by
    rw [GraphState.Keyed, hnodes]
    exact hkeyed
  have hps := h.attributed
  obtain ⟨scan, groups, hscan, hentries, -, hlists⟩ := transitions_listed s h
  obtain ⟨contested, hcontested, hexact, hof⟩ := contested_listed s hkeyed' groups.flatten
  obtain ⟨recent, hrecent, hpatches⟩ := recentEntries_ok fields s
    (ps.filter fun p => baselineOf ps < p.revision)
    (fun p hp => hps.author p (List.mem_filter.mp hp).1)
  have htransitions : standingTransitionEntries ps s = .ok groups.flatten := by
    rw [standingTransitionEntries, hscan, Except.map, hentries]
  have hlisted : ∀ e ∈ groups.flatten, e.revision ≤ s.revision := by
    intro e he
    obtain ⟨st, hst, group, hgroup, hmem⟩ := step_of_entry hlists e he
    obtain ⟨before, after, -, -, -, hof⟩ := hgroup.only e hmem
    rw [hof.revision, hrevision]
    exact hps.revision _ (h.patch_mem st hst)
  refine ⟨⟨contested, sorted ((groups.flatten.filter fun e => baselineOf ps < e.revision) ++
    recent)⟩, ?_, ⟨hexact, sorted_newestFirst _, ?_⟩⟩
  · simp only [candidates, htransitions, hcontested, hrecent, bind, Except.bind, pure, Except.pure]
  · intro e he
    rcases List.mem_append.mp he with he | he
    · obtain ⟨n, hget, -, hbuilt, -⟩ := hof e he
      rcases revision_contestedEntry groups.flatten n e hbuilt with hn | ⟨t, ht, heq⟩
      · rw [hn, hrevision]
        rw [hnodes] at hget
        exact hps.dated n.id n hget
      · rw [heq]
        exact hlisted t ht
    · have he := (List.mem_insertionSort _).mp (List.mem_filter.mp he).1
      rcases List.mem_append.mp he with he | he
      · exact hlisted e (List.mem_filter.mp he).1
      · obtain ⟨p, hp, heq⟩ := hpatches e he
        rw [heq, hrevision]
        exact hps.revision p (List.mem_filter.mp hp).1

end Built

section Bounds

/-- The revisions from the first to the last that some entries have. -/
structure RangeOf (entries : List Entry) (first last : Nat) : Prop where
  first_mem : ∃ e ∈ entries, e.revision = first
  last_mem : ∃ e ∈ entries, e.revision = last
  between : ∀ e ∈ entries, first ≤ e.revision ∧ e.revision ≤ last

theorem foldl_min (r : Nat) (rs : List Nat) :
    rs.foldl min r ∈ r :: rs ∧ ∀ x ∈ r :: rs, rs.foldl min r ≤ x := by
  induction rs generalizing r with
  | nil => simp
  | cons x rs ih =>
      obtain ⟨hmem, hle⟩ := ih (min r x)
      rw [List.foldl_cons]
      rw [List.forall_mem_cons] at hle
      refine ⟨?_, ?_⟩
      · rcases List.mem_cons.mp hmem with heq | hmem
        · rw [heq]
          rcases min_choice r x with hmin | hmin <;> simp [hmin]
        · simp [hmem]
      · simp only [List.forall_mem_cons]
        exact ⟨hle.1.trans (min_le_left r x), hle.1.trans (min_le_right r x), hle.2⟩

theorem foldl_max (r : Nat) (rs : List Nat) :
    rs.foldl max r ∈ r :: rs ∧ ∀ x ∈ r :: rs, x ≤ rs.foldl max r := by
  induction rs generalizing r with
  | nil => simp
  | cons x rs ih =>
      obtain ⟨hmem, hle⟩ := ih (max r x)
      rw [List.foldl_cons]
      rw [List.forall_mem_cons] at hle
      refine ⟨?_, ?_⟩
      · rcases List.mem_cons.mp hmem with heq | hmem
        · rw [heq]
          rcases max_choice r x with hmax | hmax <;> simp [hmax]
        · simp [hmem]
      · simp only [List.forall_mem_cons]
        exact ⟨(le_max_left r x).trans hle.1, (le_max_right r x).trans hle.1, hle.2⟩

theorem omittedRange_exact (entries : List Entry) :
    (omittedRevisionRange entries = none ↔ entries = []) ∧
      ∀ r ∈ omittedRevisionRange entries, RangeOf entries r.1 r.2 := by
  cases entries with
  | nil => simp [omittedRevisionRange]
  | cons e entries =>
      refine ⟨by simp [omittedRevisionRange], fun r hr => ?_⟩
      cases hr
      obtain ⟨hmin, hminle⟩ := foldl_min e.revision (entries.map fun e => e.revision)
      obtain ⟨hmax, hmaxle⟩ := foldl_max e.revision (entries.map fun e => e.revision)
      rw [← List.map_cons (f := fun e : Entry => e.revision), List.mem_map] at hmin hmax
      rw [← List.map_cons (f := fun e : Entry => e.revision), List.forall_mem_map] at hminle hmaxle
      exact ⟨hmin, hmax, fun x hx => ⟨hminle x hx, hmaxle x hx⟩⟩

theorem baselineOf_le (ps : List (Patch rt)) (r : Nat) (h : ∀ p ∈ ps, p.revision ≤ r) :
    baselineOf ps ≤ r := by
  obtain ⟨hmem, -⟩ := foldl_max 0
    ((ps.filter fun p => p.kind = .seed ∨ p.kind = .refresh).map fun p => p.revision)
  rcases List.mem_cons.mp hmem with hzero | hmem
  · rw [baselineOf, hzero]
    exact Nat.zero_le r
  · obtain ⟨p, hp, heq⟩ := List.mem_map.mp hmem
    rw [baselineOf, ← heq]
    exact h p (List.mem_filter.mp hp).1

/-- The greedy loop keeps every candidate and the bounds that it measures. -/
theorem select_spec (baseline through : Nat) (selected rest : List Entry)
    (hlength : selected.length ≤ REFRESH_DELTA_MAX_ENTRIES)
    (hsize : (fieldsOf baseline through selected rest).encodedSize ≤ REFRESH_DELTA_MAX_BYTES) :
    ∃ sel om, select baseline through selected rest = (sel, om) ∧ sel ++ om = selected ++ rest ∧
      sel.length ≤ REFRESH_DELTA_MAX_ENTRIES ∧
      (fieldsOf baseline through sel om).encodedSize ≤ REFRESH_DELTA_MAX_BYTES := by
  induction rest generalizing selected with
  | nil => exact ⟨selected, [], rfl, rfl, hlength, hsize⟩
  | cons e rest ih =>
      rw [select]
      split
      next => exact ⟨selected, e :: rest, rfl, rfl, hlength, hsize⟩
      next hroom =>
        split
        next => exact ⟨selected, e :: rest, rfl, rfl, hlength, hsize⟩
        next hfits =>
          have hroom' : (selected ++ [e]).length ≤ REFRESH_DELTA_MAX_ENTRIES := by
            rw [List.length_append, List.length_singleton]
            omega
          obtain ⟨sel, om, hselect, hparts, hlen, hsize⟩ :=
            ih (selected ++ [e]) hroom' (Nat.le_of_not_lt hfits)
          refine ⟨sel, om, hselect, ?_, hlen, hsize⟩
          rw [hparts, List.append_assoc, List.singleton_append]

/-- The keys of a dumped delta in order. -/
theorem key_order :
    ["after_revision", "entries", "omitted_count", "omitted_from_revision",
      "omitted_through_revision", "through_revision"].Pairwise fun k k' => k < k' ∧ ¬k' < k := by
  decide +kernel

theorem dump_empty (baseline through count : Nat) (range : Option (Nat × Nat)) :
    (Fields.dump ⟨baseline, through, [], count, range⟩).canonical =
      .obj
        [ ("after_revision", nat baseline), ("entries", .arr []), ("omitted_count", nat count),
          ("omitted_from_revision", nullable (fun r => nat r.1) range),
          ("omitted_through_revision", nullable (fun r => nat r.2) range),
          ("through_revision", nat through) ] := by
  have h := key_order
  simp only [List.pairwise_cons, List.forall_mem_cons] at h
  cases range <;> simp only [Fields.dump, nat, nullable, Json.canonical, Json.canonicalFields,
    Json.canonicalList, Json.insertField, List.map_nil, h, if_true, if_false]

theorem size_nat {n : Nat} (h : n ≤ maxsize) : (JsonText.text (nat n)).utf8ByteSize ≤ 19 := by
  apply JsonText.size_digits (by omega)
  rw [maxsize] at h
  omega

theorem size_nullable {α : Type} (a : Option α) (f : α → Nat) (h : ∀ x ∈ a, f x ≤ maxsize) :
    (JsonText.text (nullable (fun x => nat (f x)) a)).utf8ByteSize ≤ 19 := by
  cases a with
  | none =>
      have hnull : (JsonText.text .null).utf8ByteSize = 4 := rfl
      exact hnull.le.trans (by omega)
  | some x => exact size_nat (h x rfl)

/-- A delta without entries fits: its numbers have at most nineteen digits. -/
theorem size_empty (baseline through count : Nat) (range : Option (Nat × Nat))
    (hbaseline : baseline ≤ maxsize) (hthrough : through ≤ maxsize) (hcount : count ≤ maxsize)
    (hrange : ∀ r ∈ range, r.1 ≤ maxsize ∧ r.2 ≤ maxsize) :
    Fields.encodedSize ⟨baseline, through, [], count, range⟩ ≤ REFRESH_DELTA_MAX_BYTES := by
  have hkeys : ∀ k ∈ ["after_revision", "entries", "omitted_count", "omitted_from_revision",
      "omitted_through_revision", "through_revision"],
      (String.ofList (JsonText.quote k)).utf8ByteSize ≤ 30 := by decide +kernel
  simp only [List.forall_mem_cons] at hkeys
  have hfirst := size_nullable range (fun r => r.1) fun r hr => (hrange r hr).1
  have hlast := size_nullable range (fun r => r.2) fun r hr => (hrange r hr).2
  have hbaseline := size_nat hbaseline
  have hthrough := size_nat hthrough
  have hcount := size_nat hcount
  have hopen : "\x7b".utf8ByteSize = 1 := rfl
  have hclose : "\x7d".utf8ByteSize = 1 := rfl
  have hcomma : ",".utf8ByteSize = 1 := rfl
  have hcolon : ":".utf8ByteSize = 1 := rfl
  have hnone : (JsonText.text (.arr [])).utf8ByteSize = 2 := rfl
  rw [Fields.encodedSize, JsonText.dumps, dump_empty]
  simp only [JsonText.text.eq_6, JsonText.fieldTexts, Text.join, String.utf8ByteSize_append, hopen,
    hclose, hcomma, hcolon, hnone]
  rw [REFRESH_DELTA_MAX_BYTES]
  omega

end Bounds

theorem Fields.validate_of (d : Fields) (hentries : d.entries.length ≤ REFRESH_DELTA_MAX_ENTRIES)
    (hordered : d.afterRevision ≤ d.throughRevision)
    (hsize : d.encodedSize ≤ REFRESH_DELTA_MAX_BYTES) :
    d.validate = .ok ⟨d, hentries, hordered, hsize⟩ := by
  rw [Fields.validate, dif_pos hentries, dif_pos hordered, dif_pos hsize]

/-- A delta selected from candidates, with what it leaves out. -/
structure Delta.SelectedFrom (delta : Delta) (c : Candidates) (omitted : List Entry) : Prop where
  initial : c.list = delta.entries ++ omitted
  count : delta.omittedCount + delta.entries.length = c.list.length
  range : (delta.omittedRange = none ↔ omitted = []) ∧
    ∀ r ∈ delta.omittedRange, RangeOf omitted r.1 r.2
  entries : delta.entries.length ≤ REFRESH_DELTA_MAX_ENTRIES
  size : delta.encodedSize ≤ REFRESH_DELTA_MAX_BYTES

/-- The delta of an accepted history is built, and it is an initial part of the candidates
within the bounds. -/
theorem delta_selected (fields : FieldsSet rt) (vc : ValidationContext rt)
    (patches : List (Patch rt)) (steps : Option (List (Patch rt × Bool)))
    (h : StoredHistory vc patches steps) :
    ∃ c, candidates fields (acceptedPatches patches (materializePatches patches vc) steps)
        (materializePatches patches vc).state = .ok c ∧
      c.Of (materializePatches patches vc).state ∧
      (∀ e ∈ c.list, e ∈ c.mandatory ∨
        e ∈ c.recent ∧ entryIdentity e ∉ c.mandatory.map entryIdentity) ∧
      (c.list.length ≤ maxsize →
        ∃ delta omitted,
          buildRefreshDelta fields patches (materializePatches patches vc) steps = .ok delta ∧
          delta.SelectedFrom c omitted) := by
  obtain ⟨ops, t, hrun, hagrees⟩ := materialized_run vc patches [] []
    { state := .initial rt vc.projectTruthScope } h.numbered (.initial vc.projectTruthScope)
  rw [List.nil_append] at hrun
  have hrevision := (revision_materialized vc patches
    { state := .initial rt vc.projectTruthScope } h.numbered).2
  have hthrough : (materializePatches patches vc).state.revision ≤ maxsize := by
    have hzero : (GraphState.initial rt vc.projectTruthScope).revision = 0 := rfl
    rw [hzero, Nat.zero_add] at hrevision
    exact hrevision.trans h.short
  have hbaseline := baselineOf_le (takenIn patches (materializePatches patches vc)) _
    fun p hp => (of_decide_eq_true (List.mem_filter.mp hp).2).2
  obtain ⟨c, hc, hof⟩ := candidates_ok fields hrun hagrees
  change candidates fields (takenIn patches (materializePatches patches vc))
    (materializePatches patches vc).state = .ok c at hc
  rw [accepted_of_stored h]
  refine ⟨c, hc, hof, ?_, fun hlist => ?_⟩
  · intro e he
    rcases List.mem_append.mp he with he | he
    · exact .inl he
    · obtain ⟨hmem, hnew⟩ := List.mem_filter.mp he
      exact .inr ⟨hmem, of_decide_eq_true hnew⟩
  · have hempty := size_empty (baselineOf (takenIn patches (materializePatches patches vc)))
      (materializePatches patches vc).state.revision c.list.length (omittedRevisionRange c.list)
      (hbaseline.trans hthrough) hthrough hlist (by
        intro r hr
        obtain ⟨⟨e, he, hfirst⟩, ⟨e', he', hlast⟩, -⟩ := (omittedRange_exact c.list).2 r hr
        rw [← hfirst, ← hlast]
        exact ⟨(hof.revision e he).trans hthrough, (hof.revision e' he').trans hthrough⟩)
    obtain ⟨sel, om, hselect, hparts, hlength, hsize⟩ := select_spec _ _ [] c.list
      (Nat.zero_le _) hempty
    rw [List.nil_append] at hparts
    refine ⟨⟨fieldsOf _ _ sel om, hlength, hbaseline, hsize⟩, om, ?_, ?_⟩
    · simp only [buildRefreshDelta, accepted_of_stored h, bind, Except.bind]
      rw [hc]
      simp only
      rw [hselect]
      exact Fields.validate_of _ hlength hbaseline hsize
    · refine ⟨hparts.symm, ?_, omittedRange_exact om, hlength, hsize⟩
      rw [← hparts, List.length_append]
      exact Nat.add_comm _ _

section Concrete

/-- The fields that JSON payloads of a plain project set. -/
def FieldsSet.plain : FieldsSet .plain where
  node raw := ["id", "type"] ++ raw.content.map Prod.fst
  update _ := ["id", "changes"]
  edge _ := ["source", "relation", "target"]
  ambiguity _ := ["id", "text"]
  proposal _ := ["id", "title", "ops"]
  term _ := ["term", "definition"]
  resolution _ := ["id", "status"]
  withdrawal _ := ["id"]

def retitled : NodeUpdate where
  id := "rq/a"
  changes := .ofList [("title", .str "Another title")]

/-- A chat asks a question, another one updates it twice in one operation. -/
def retitledHistory : List (Patch .plain) :=
  [ { revision := 1
      kind := .chat
      author := some .agent
      producer := .agent
      createdAt := "2026-01-01T00:00:00Z"
      summary := "Ask."
      runTruthScope := ["repo"]
      ops := [.createNodes [{ contestedDraft with standing := none }]] },
    { revision := 2
      kind := .chat
      author := some .agent
      producer := .agent
      createdAt := "2026-01-02T00:00:00Z"
      summary := "Retitle."
      runTruthScope := ["repo"]
      ops := [.updateNodes [retitled, retitled]] } ]

theorem retitled_stored :
    StoredHistory { projectTruthScope := ["repo"] } retitledHistory none where
  numbered := ⟨rfl, rfl, trivial⟩
  short := by decide
  known := .inr ⟨rfl, by simp [retitledHistory]⟩

theorem repeated_identity :
    ¬∀ (fields : FieldsSet .plain) (vc : ValidationContext .plain) (patches : List (Patch .plain))
      (steps : Option (List (Patch .plain × Bool))), StoredHistory vc patches steps →
      ∀ delta, buildRefreshDelta fields patches (materializePatches patches vc) steps = .ok delta →
        (delta.entries.map entryIdentity).Nodup := by
  have hbuilt : (buildRefreshDelta .plain retitledHistory
      (materializePatches retitledHistory { projectTruthScope := ["repo"] }) none).toOption.any
      (fun delta => decide (delta.entries.map entryIdentity =
        [ ("rq/a", 2, "title"), ("rq/a", 2, "title"),
          ("rq/a", 1, "id,question,title,type") ])) = true := by
    decide +kernel
  intro hnodup
  obtain ⟨delta, hdelta, hentries⟩ := (Option.any_eq_true _ _).mp hbuilt
  have h := hnodup .plain _ _ none retitled_stored delta (by
    cases hcase : buildRefreshDelta .plain retitledHistory
      (materializePatches retitledHistory { projectTruthScope := ["repo"] }) none <;>
      simp_all [Except.toOption])
  rw [of_decide_eq_true hentries] at h
  exact absurd h (by decide)

theorem delta_selected_retitled :
    ∃ c delta omitted, c.list.length = 3 ∧
      buildRefreshDelta .plain retitledHistory
        (materializePatches retitledHistory { projectTruthScope := ["repo"] }) none = .ok delta ∧
      delta.SelectedFrom c omitted := by
  have hcount : (candidates .plain
      (acceptedPatches retitledHistory
        (materializePatches retitledHistory { projectTruthScope := ["repo"] }) none)
      (materializePatches retitledHistory { projectTruthScope := ["repo"] }).state).toOption.any
      (fun c => decide (c.list.length = 3)) = true := by
    decide +kernel
  obtain ⟨c, hc, -, -, hdelta⟩ := delta_selected .plain _ _ none retitled_stored
  rw [hc] at hcount
  have hthree : c.list.length = 3 := of_decide_eq_true hcount
  obtain ⟨delta, omitted, hbuilt, hselected⟩ := hdelta (by rw [hthree]; decide)
  exact ⟨c, delta, omitted, hthree, hbuilt, hselected⟩

end Concrete

end RefreshDelta

end RcpGraph
