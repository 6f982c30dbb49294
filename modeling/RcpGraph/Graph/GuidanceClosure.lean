import Mathlib.Data.List.Dedup
import RcpGraph.Graph.Decisions
import RcpGraph.Graph.Proposals

/-!
The guidance rule over whole transitions. The generated operations set the stale
marks that the dependencies and edits of the source operations call for, they
move nothing the rule reads, and running the rule again has nothing to add.
-/

namespace RcpGraph

open Schema

variable {rt : Runtime}

/-- The guidance fields of an Experiment, each with its stale mark. -/
def guidanceFields : List (String × String) :=
  [("current_summary", "current_summary_stale"), ("next_action", "next_action_stale")]

/-- A node whose content differs at most in its stale marks. -/
structure ProjectNode.Marked (n m : ProjectNode rt) : Prop where
  id : m.id = n.id
  type : m.type = n.type
  extensionType : m.extensionType = n.extensionType
  createdRev : m.createdRev = n.createdRev
  content : ∀ f, f ∉ guidanceStaleFields → m.field? f = n.field? f

theorem ProjectNode.Marked.refl (n : ProjectNode rt) : n.Marked n :=
  ⟨rfl, rfl, rfl, rfl, fun _ _ => rfl⟩

theorem ProjectNode.Marked.trans {n m k : ProjectNode rt} (h : n.Marked m) (h' : m.Marked k) :
    n.Marked k :=
  ⟨h'.id.trans h.id, h'.type.trans h.type, h'.extensionType.trans h.extensionType,
    h'.createdRev.trans h.createdRev, fun f hf => (h'.content f hf).trans (h.content f hf)⟩

/-- What an operation writes into one mark of one node. -/
def GraphOperation.mark (id f : String) : GraphOperation rt → Option Json
  | .updateNodes [u] => if u.id = id then u.changes.get? f else none
  | _ => none

/-- Every mark an operation writes is a boolean. -/
def GraphOperation.MarksFlags (op : GraphOperation rt) : Prop :=
  ∀ id f j, op.mark id f = some j → ∃ b, j = .bool b

section Marks

theorem stale_declared (f : String) (hf : f ∈ guidanceStaleFields) :
    Fields.flagField f ∈ contentFields rt .experiment ∧ f ≠ "invocation_ceiling" ∧
      f ≠ "attempt_ceiling" := by
  simp only [guidanceStaleFields, List.mem_cons, List.not_mem_nil, or_false] at hf
  rcases hf with rfl | rfl <;>
    simp [contentFields, Fields.own]

/-- One generated operation, seen at one node. -/
theorem applyOp_marks (p : Patch rt) (op : GraphOperation rt) (s t : GraphState rt)
    (hop : op.MarksGuidance s) (hflags : op.MarksFlags) (hs : s.Keyed)
    (h : applyOp p true op s = .ok t) (id : String) (n : ProjectNode rt)
    (hn : s.nodes.get? id = some n) :
    ∃ m, t.nodes.get? id = some m ∧ n.Marked m ∧
      ∀ f ∈ guidanceStaleFields, m.field? f = (op.mark id f).or (n.field? f) := by
  obtain ⟨u, rfl, htype, -, hfields⟩ := hop
  obtain ⟨t', ht', hlast⟩ := (Steps.run_cons_ok _ _ _ _ _).mp h
  cases hlast
  by_cases hid : u.id = id
  · subst hid
    obtain ⟨k, m, hk, -, hm, rfl⟩ := updateNode_ok p true u s t ht'
    rw [hn] at hk
    cases hk
    have hexperiment : n.type = .experiment := by simpa [GraphState.nodeType?, hn] using htype
    obtain ⟨-, hmid, hmtype, hmext, -, hmrev, -⟩ := ProjectNode.revise_ok _ _ _ _ _ _ hm
    have hceiling : "attempt_ceiling" ∉ u.changes.keys := by
      intro hmem
      have := hfields _ hmem
      simp [guidanceStaleFields] at this
    refine ⟨m, by simp [hs u.id n hn], ⟨hmid, hmtype, hmext, hmrev, fun f hf => ?_⟩, fun f hf => ?_⟩
    · exact ProjectNode.field?_revise n m _ _ _ _ hm f (fun hmem => hf (hfields f hmem))
        fun _ => hceiling
    · simp only [GraphOperation.mark, if_true]
      cases hj : u.changes.get? f with
      | none =>
          rw [Option.none_or]
          refine ProjectNode.field?_revise n m _ _ _ _ hm f ?_ fun _ => hceiling
          exact (Dict.not_mem_iff _ _).mpr hj
      | some j =>
          obtain ⟨b, rfl⟩ := hflags u.id f j (by simp [GraphOperation.mark, hj])
          obtain ⟨hdeclared, hne, hne'⟩ := @stale_declared rt f hf
          rw [Option.some_or]
          exact ProjectNode.flag_revise n m _ _ _ _ hm f (hexperiment ▸ hdeclared) hne hne' b hj
  · refine ⟨n, ?_, .refl n, fun f hf => by simp [GraphOperation.mark, hid]⟩
    rw [(updateNode_rewrites p true u s t hs ht').1.other (Ne.symm hid)]
    exact hn

/-- What a run of generated operations writes into one mark of one node. -/
def lastMark (id f : String) (ops : List (GraphOperation rt)) (old : Option Json) : Option Json :=
  ops.foldl (fun old op => (op.mark id f).or old) old

theorem lastMark_of_none (id f : String) (ops : List (GraphOperation rt)) (old : Option Json)
    (h : ∀ op ∈ ops, op.mark id f = none) : lastMark id f ops old = old := by
  induction ops generalizing old with
  | nil => rfl
  | cons op ops ih =>
      rw [lastMark, List.foldl_cons, h op List.mem_cons_self, Option.none_or]
      exact ih old fun o ho => h o (List.mem_cons_of_mem op ho)

theorem lastMark_of_some (id f : String) (ops : List (GraphOperation rt)) (old : Option Json)
    (j : Json) (hall : ∀ op ∈ ops, ∀ i, op.mark id f = some i → i = j)
    (hone : old = some j ∨ ∃ op ∈ ops, op.mark id f = some j) :
    lastMark id f ops old = some j := by
  induction ops generalizing old with
  | nil =>
      rcases hone with hold | ⟨op, hop, -⟩
      · exact hold
      · cases hop
  | cons op ops ih =>
      rw [lastMark, List.foldl_cons]
      apply ih _ fun o ho => hall o (List.mem_cons_of_mem op ho)
      cases hmark : op.mark id f with
      | some i =>
          left
          rw [hall op List.mem_cons_self i hmark, Option.some_or]
      | none =>
          rw [Option.none_or]
          rcases hone with hold | ⟨o, ho, hmarked⟩
          · exact .inl hold
          · rcases List.mem_cons.mp ho with rfl | ho
            · rw [hmark] at hmarked
              cases hmarked
            · exact .inr ⟨o, ho, hmarked⟩

/-- What a run of generated operations does to the nodes. -/
theorem marks_nodes (p : Patch rt) (ops : List (GraphOperation rt)) (s t : GraphState rt)
    (hops : ∀ op ∈ ops, op.MarksGuidance s ∧ op.MarksFlags) (hs : s.Keyed)
    (h : Steps.run (applyOp p true) ops s = .ok t) (id : String) (n : ProjectNode rt)
    (hn : s.nodes.get? id = some n) :
    ∃ m, t.nodes.get? id = some m ∧ n.Marked m ∧
      ∀ f ∈ guidanceStaleFields, m.field? f = lastMark id f ops (n.field? f) := by
  induction ops generalizing s n with
  | nil =>
      cases h
      exact ⟨n, hn, .refl n, fun _ _ => rfl⟩
  | cons op ops ih =>
      obtain ⟨u, hu, hrest⟩ := (Steps.run_cons_ok _ _ _ _ _).mp h
      obtain ⟨hmarks, hflags⟩ := hops op List.mem_cons_self
      obtain ⟨m, hm, hmarked, hfields⟩ := applyOp_marks p op s u hmarks hflags hs hu id n hn
      have htypes := (marks_run p [op] s u (fun o ho => by
        rw [List.mem_singleton.mp ho]
        exact hmarks) hs ((Steps.run_cons_ok _ _ _ _ _).mpr ⟨u, hu, rfl⟩)).2.1
      obtain ⟨k, hk, hmarked', hfields'⟩ := ih u
        (fun o ho => by
          obtain ⟨⟨x, hx, hxtype, hxrest⟩, hxflags⟩ := hops o (List.mem_cons_of_mem op ho)
          exact ⟨⟨x, hx, (htypes x.id).trans hxtype, hxrest⟩, hxflags⟩)
        (keyed_applyOp p true op s u hs hu) hrest m hm
      refine ⟨k, hk, hmarked.trans hmarked', fun f hf => ?_⟩
      rw [hfields' f hf, hfields f hf]
      rfl

end Marks

section Rule

variable (s : GraphState rt) (timeline : List (TimelineEntry rt))
  (actions : List (GraphOperation rt))

/-- What the rule wants of one field of an Experiment. -/
def wantedMark (id : String) (n : ProjectNode rt) (field : String × String) :
    Option (Nat × String × Bool) :=
  wantedStale n (dependencyChangeCause timeline id) (explicitGuidanceUpdate actions id field.1)
    field.1 field.2

/-- Everything the rule wants of an Experiment. -/
def wantedMarks (id : String) (n : ProjectNode rt) : List (Nat × String × Bool) :=
  guidanceFields.filterMap (wantedMark timeline actions id n)

theorem wantedMarks_names (id : String) (n : ProjectNode rt) :
    ((wantedMarks timeline actions id n).map (·.2.1)).Nodup := by
  have hname : ∀ field m, wantedMark timeline actions id n field = some m → m.2.1 = field.2 :=
    fun field m h => wantedStale_field n _ _ field.1 field.2 m h
  simp only [wantedMarks, guidanceFields, List.filterMap_cons, List.filterMap_nil]
  cases h1 : wantedMark timeline actions id n ("current_summary", "current_summary_stale") with
  | none =>
      cases wantedMark timeline actions id n ("next_action", "next_action_stale") <;> simp
  | some a =>
      cases h2 : wantedMark timeline actions id n ("next_action", "next_action_stale") with
      | none => simp
      | some b => simp [hname _ a h1, hname _ b h2]

theorem get?_staleChanges (marks : List (Nat × String × Bool)) (hn : (marks.map (·.2.1)).Nodup)
    (cause : Nat) (f : String) (j : Json) :
    (staleChanges marks cause).get? f = some j ↔ ∃ b, j = .bool b ∧ (cause, f, b) ∈ marks := by
  have hnames : (((marks.filter fun m => m.1 = cause).map fun m =>
      (m.2.1, Json.bool m.2.2)).map Prod.fst).Nodup := by
    rw [List.map_map]
    exact hn.sublist (List.filter_sublist.map _)
  have hfind : (staleChanges marks cause).get? f = Assoc.find f
      ((marks.filter fun m => m.1 = cause).map fun m => (m.2.1, Json.bool m.2.2)) := by
    unfold staleChanges Dict.ofList Dict.update Dict.get?
    rw [Assoc.find_overwrite _ _ hnames]
    exact Option.or_none
  rw [hfind, Assoc.find_eq_some_iff _ hnames]
  simp only [List.mem_map, List.mem_filter, decide_eq_true_eq, Prod.mk.injEq]
  constructor
  · rintro ⟨⟨c, g, b⟩, ⟨hmem, rfl⟩, rfl, rfl⟩
    exact ⟨b, rfl, hmem⟩
  · rintro ⟨b, rfl, hmem⟩
    exact ⟨(cause, f, b), ⟨hmem, rfl⟩, rfl, rfl⟩

theorem typed?_iff (type : NodeType) (id : String) (n : ProjectNode rt) :
    s.typed? type id = some n ↔ s.nodes.get? id = some n ∧ n.type = type := by
  rw [GraphState.typed?, Option.filter_eq_some_iff, decide_eq_true_eq]

theorem mem_guidanceActions (g : GraphOperation rt × Nat) :
    g ∈ guidanceActions s timeline actions ↔
      ∃ id n, s.typed? .experiment id = some n ∧
        g.2 ∈ (wantedMarks timeline actions id n).map (·.1) ∧
        g.1 = .updateNodes
          [{ id := id, changes := staleChanges (wantedMarks timeline actions id n) g.2 }] := by
  rw [guidanceActions, List.mem_flatMap]
  have hone : ∀ id n, s.nodes.get? id = some n →
      experimentGuidanceActions s timeline actions id =
        (sortedCauses (wantedMarks timeline actions id n)).map fun cause =>
          (.updateNodes
            [{ id := id, changes := staleChanges (wantedMarks timeline actions id n) cause }],
            cause) := by
    intro id n hn
    have hmarks : wantedMarks timeline actions id n =
        (wantedMark timeline actions id n ("current_summary", "current_summary_stale")).toList ++
          (wantedMark timeline actions id n ("next_action", "next_action_stale")).toList := by
      simp only [wantedMarks, guidanceFields, List.filterMap_cons, List.filterMap_nil]
      cases wantedMark timeline actions id n ("current_summary", "current_summary_stale") <;>
        cases wantedMark timeline actions id n ("next_action", "next_action_stale") <;> rfl
    simp only [experimentGuidanceActions, hn, hmarks, wantedMark]
  have hcauses : ∀ (marks : List (Nat × String × Bool)) c,
      c ∈ sortedCauses marks ↔ c ∈ marks.map (·.1) := by
    intro marks c
    rw [sortedCauses, List.mem_insertionSort, List.mem_dedup]
  constructor
  · rintro ⟨id, hid, hg⟩
    rw [mem_idsOf, GraphState.nodeType?, Option.map_eq_some_iff] at hid
    obtain ⟨n, hn, htype⟩ := hid
    rw [hone id n hn, List.mem_map] at hg
    obtain ⟨cause, hcause, rfl⟩ := hg
    exact ⟨id, n, (typed?_iff s _ id n).mpr ⟨hn, htype⟩, (hcauses _ _).mp hcause, rfl⟩
  · rintro ⟨id, n, htyped, hcause, hg⟩
    obtain ⟨hn, htype⟩ := (typed?_iff s _ id n).mp htyped
    refine ⟨id, ?_, ?_⟩
    · rw [mem_idsOf, GraphState.nodeType?, hn, Option.map_some, htype]
    · rw [hone id n hn, List.mem_map]
      exact ⟨g.2, (hcauses _ _).mpr hcause, Prod.ext hg.symm rfl⟩

/-- What the generated operations write into one mark. -/
theorem mark_guidanceActions (g : GraphOperation rt × Nat)
    (hg : g ∈ guidanceActions s timeline actions) (id f : String) (j : Json) :
    g.1.mark id f = some j ↔ ∃ n b, s.typed? .experiment id = some n ∧ j = .bool b ∧
      (g.2, f, b) ∈ wantedMarks timeline actions id n ∧ g.1 = .updateNodes
        [{ id := id, changes := staleChanges (wantedMarks timeline actions id n) g.2 }] := by
  constructor
  · intro hmark
    obtain ⟨id', n, htyped, -, hop⟩ := (mem_guidanceActions s timeline actions g).mp hg
    rw [hop, GraphOperation.mark] at hmark
    by_cases hid : id' = id
    · subst hid
      rw [if_pos rfl, get?_staleChanges _ (wantedMarks_names timeline actions id' n)] at hmark
      obtain ⟨b, hj, hmem⟩ := hmark
      exact ⟨n, b, htyped, hj, hmem, hop⟩
    · rw [if_neg hid] at hmark
      cases hmark
  · rintro ⟨n, b, htyped, hj, hmem, hop⟩
    rw [hop, GraphOperation.mark, if_pos rfl,
      get?_staleChanges _ (wantedMarks_names timeline actions id n)]
    exact ⟨b, hj, hmem⟩

theorem marksFlags_guidanceActions (g : GraphOperation rt × Nat)
    (hg : g ∈ guidanceActions s timeline actions) : g.1.MarksFlags := by
  intro id f j hj
  obtain ⟨-, b, -, hb, -⟩ := (mark_guidanceActions s timeline actions g hg id f j).mp hj
  exact ⟨b, hb⟩

/-- The mark the rule settles for a field: it wants this value, or the value is there. -/
def Settles (n : ProjectNode rt) (stale : String) (desired : Bool)
    (mark : Option (Nat × String × Bool)) : Prop :=
  (mark = none ∧ n.field? stale = some (.bool desired)) ∨ ∃ c, mark = some (c, stale, desired)

theorem settles_invalidated (n : ProjectNode rt) (cause : Nat) (explicit : Option Nat)
    (field stale : String) :
    Settles n stale ((n.field? field).getD .null).truthy
      (wantedStale n (some cause) explicit field stale) := by
  simp only [wantedStale, Option.bind_some]
  by_cases h : n.field? stale = some (.bool ((n.field? field).getD .null).truthy)
  · exact .inl ⟨if_pos h, h⟩
  · exact .inr ⟨cause, if_neg h⟩

theorem settles_explicit (n : ProjectNode rt) (cause : Nat) (field stale : String) :
    Settles n stale false (wantedStale n none (some cause) field stale) := by
  simp only [wantedStale, Option.bind_some]
  by_cases h : n.field? stale = some (.bool false)
  · exact .inl ⟨if_pos h, h⟩
  · exact .inr ⟨cause, if_neg h⟩

/-- A wanted mark comes from the field it belongs to. -/
theorem mem_wantedMarks (id : String) (n : ProjectNode rt) (field : String × String)
    (hfield : field ∈ guidanceFields) (c : Nat) (b : Bool) :
    (c, field.2, b) ∈ wantedMarks timeline actions id n ↔
      wantedMark timeline actions id n field = some (c, field.2, b) := by
  rw [wantedMarks, List.mem_filterMap]
  constructor
  · rintro ⟨field', hfield', hmark⟩
    have hname := wantedStale_field n _ _ field'.1 field'.2 _ hmark
    have hsame : field' = field := by
      simp only [guidanceFields, List.mem_cons, List.not_mem_nil, or_false] at hfield hfield'
      rcases hfield with rfl | rfl <;> rcases hfield' with rfl | rfl <;> simp at hname ⊢
    rw [← hsame]
    rw [← hsame] at hmark
    exact hmark
  · intro hmark
    exact ⟨field, hfield, hmark⟩

/-- The marks after all generated operations. -/
theorem lastMark_guidanceActions (id : String) (n : ProjectNode rt)
    (hn : s.typed? .experiment id = some n) (field : String × String)
    (hfield : field ∈ guidanceFields) :
    (∀ desired, Settles n field.2 desired (wantedMark timeline actions id n field) →
      lastMark id field.2 ((guidanceActions s timeline actions).map Prod.fst) (n.field? field.2) =
        some (.bool desired)) ∧
      (wantedMark timeline actions id n field = none →
        lastMark id field.2 ((guidanceActions s timeline actions).map Prod.fst)
          (n.field? field.2) = n.field? field.2) := by
  have hwrites : ∀ op ∈ (guidanceActions s timeline actions).map Prod.fst, ∀ j,
      op.mark id field.2 = some j → ∃ c b, j = .bool b ∧
        wantedMark timeline actions id n field = some (c, field.2, b) := by
    intro op hop j hj
    obtain ⟨g, hg, rfl⟩ := List.mem_map.mp hop
    obtain ⟨n', b, hn', hjb, hmem, -⟩ :=
      (mark_guidanceActions s timeline actions g hg id field.2 j).mp hj
    rw [hn] at hn'
    cases hn'
    exact ⟨g.2, b, hjb, (mem_wantedMarks timeline actions id n field hfield _ b).mp hmem⟩
  have hquiet : wantedMark timeline actions id n field = none →
      ∀ op ∈ (guidanceActions s timeline actions).map Prod.fst, op.mark id field.2 = none := by
    intro hnone op hop
    cases hj : op.mark id field.2 with
    | none => rfl
    | some j =>
        obtain ⟨c, b, -, hmark⟩ := hwrites op hop j hj
        rw [hnone] at hmark
        cases hmark
  refine ⟨fun desired hsettles => ?_, fun hnone => ?_⟩
  · rcases hsettles with ⟨hnone, hthere⟩ | ⟨c, hmark⟩
    · rw [lastMark_of_none _ _ _ _ (hquiet hnone)]
      exact hthere
    · refine lastMark_of_some _ _ _ _ _ (fun op hop j hj => ?_) (.inr ?_)
      · obtain ⟨c', b, hjb, hmark'⟩ := hwrites op hop j hj
        rw [hmark] at hmark'
        cases hmark'
        exact hjb
      · have hmem := (mem_wantedMarks timeline actions id n field hfield c desired).mpr hmark
        have hg := (mem_guidanceActions s timeline actions
          (.updateNodes
            [{ id := id, changes := staleChanges (wantedMarks timeline actions id n) c }], c)).mpr
          ⟨id, n, hn, List.mem_map.mpr ⟨_, hmem, rfl⟩, rfl⟩
        refine ⟨_, List.mem_map.mpr ⟨_, hg, rfl⟩, ?_⟩
        exact (mark_guidanceActions s timeline actions _ hg id field.2 _).mpr
          ⟨n, desired, hn, rfl, hmem, rfl⟩
  · exact lastMark_of_none _ _ _ _ (hquiet hnone)

end Rule

section Signature

theorem relatedTargets_erased (s : GraphState rt) (source relation : String) :
    relatedTargets s.erased source relation = relatedTargets s source relation := by
  simp [relatedTargets, GraphState.erased, Dict.values, Dict.map, List.filter_map,
    Function.comp_def, Edge.erased]

/-- The signature does not see edge layers and watermark. -/
theorem signature_erased (s : GraphState rt) (id : String) :
    experimentDependencySignature s.erased id = experimentDependencySignature s id := by
  have htargets : relatedTargets s.erased = relatedTargets s := by
    funext source relation
    exact relatedTargets_erased s source relation
  have hassessed : ∀ ids, s.erased.edges.values.filterMap (assessedEdge? s.erased ids) =
      s.edges.values.filterMap (assessedEdge? s ids) := by
    intro ids
    simp only [GraphState.erased, Dict.values, Dict.map, List.map_map, List.filterMap_map]
    rfl
  have htests : ∀ source, ((s.erased.edges.values.filter fun e =>
      e.source = source && e.relation = "tests").map fun e => (e.id, e.target)) =
        (s.edges.values.filter fun e => e.source = source && e.relation = "tests").map
          fun e => (e.id, e.target) := by
    intro source
    simp [GraphState.erased, Dict.values, Dict.map, List.filter_map, Function.comp_def,
      Edge.erased]
  unfold experimentDependencySignature
  simp only [hassessed, htests, experimentControlDependencies, experimentGraphPreconditionReasons,
    htargets]
  rfl

theorem Alike.signature {s t : GraphState rt} (h : Alike s t) (id : String) :
    experimentDependencySignature s id = experimentDependencySignature t id := by
  rw [← signature_erased s, ← signature_erased t, h.eq]

/-- The signature reads edges, Proposals and the nodes that are no Experiments. -/
theorem signature_congr (s t : GraphState rt) (hedges : t.edges = s.edges)
    (hproposals : t.proposals = s.proposals)
    (htypes : ∀ x, t.nodeType? x = s.nodeType? x)
    (hnodes : ∀ x, s.nodeType? x ≠ some .experiment → t.nodes.get? x = s.nodes.get? x)
    (id : String) : experimentDependencySignature t id = experimentDependencySignature s id := by
  have htyped : ∀ type, type ≠ .experiment → t.typed? type = s.typed? type := by
    intro type hne
    funext x
    by_cases hx : s.nodeType? x = some .experiment
    · have hnone : ∀ g : GraphState rt, g.nodeType? x = some .experiment →
          g.typed? type x = none := by
        intro g hg
        obtain ⟨n, hn, htype⟩ := Option.map_eq_some_iff.mp hg
        rw [GraphState.typed?, hn, Option.filter_some, if_neg]
        rw [decide_eq_true_eq, htype]
        exact Ne.symm hne
      rw [hnone t ((htypes x).trans hx), hnone s hx]
    · rw [GraphState.typed?, GraphState.typed?, hnodes x hx]
  have hpresent : (t.typed? .experiment id).isSome = (s.typed? .experiment id).isSome := by
    have hiff : ∀ g : GraphState rt, (g.typed? .experiment id).isSome =
        decide (g.nodeType? id = some .experiment) := by
      intro g
      rw [GraphState.typed?, GraphState.nodeType?]
      cases g.nodes.get? id with
      | none => simp
      | some n => by_cases h : n.type = .experiment <;> simp [Option.filter, h]
    rw [hiff, hiff, htypes]
  have hpending : hasPendingProposal t = hasPendingProposal s := by
    funext x
    rw [hasPendingProposal, hasPendingProposal, hproposals]
  have htargets : relatedTargets t = relatedTargets s := by
    funext source relation
    rw [relatedTargets, relatedTargets, hedges]
  have hassessed : assessedEdge? t = assessedEdge? s := by
    funext ids e
    rw [assessedEdge?, assessedEdge?, htyped .evidence (by decide)]
  have hdecisions : decisionReasons t = decisionReasons s := by
    funext x
    rw [decisionReasons, decisionReasons, htyped .decision (by decide), hpending]
  have hblockers : blockerReasons t = blockerReasons s := by
    funext x
    rw [blockerReasons, blockerReasons, htyped .blocker (by decide)]
  have hcontrol : experimentControlDependencies t id = experimentControlDependencies s id := by
    simp only [experimentControlDependencies, experimentGraphPreconditionReasons, htargets,
      hdecisions, hblockers, hpending, htyped .decision (by decide), htyped .blocker (by decide)]
  simp only [experimentDependencySignature, hcontrol, hedges, hassessed]
  cases hs : s.typed? .experiment id with
  | none =>
      rw [hs] at hpresent
      have hnone : t.typed? .experiment id = none := by
        cases ht : t.typed? .experiment id with
        | none => rfl
        | some m => simp [ht] at hpresent
      rw [hnone]
  | some n =>
      rw [hs] at hpresent
      obtain ⟨m, hm⟩ := Option.isSome_iff_exists.mp hpresent
      rw [hm]

end Signature

section Sources

/-- An accepted update names no stale mark. -/
theorem spares_stale (ctx : OpContext rt) (hmode : ctx.mode = .admission) (u : NodeUpdate)
    (h : refused (updateNodeIssues ctx u) = false) (f : String) (hf : f ∈ guidanceStaleFields) :
    f ∉ u.changes.keys := by
  unfold updateNodeIssues at h
  split at h
  next => simp at h
  next n hn =>
    simp only [refused_append, Bool.or_eq_false_iff] at h
    obtain ⟨-, h⟩ := h
    split at h
    next => simp at h
    next hnone =>
      rw [not_not, immutableNamed, Text.sortedSet_eq_nil, List.filter_eq_nil_iff] at hnone
      intro hmem
      have hnot := hnone f hmem
      simp only [guidanceStaleFields, List.mem_cons, List.not_mem_nil, or_false] at hf
      rcases hf with rfl | rfl <;> simp [immutableNodeUpdateFields, hmode] at hnot

/-- The stale marks of a node after a step that rewrites it. -/
def SameStale (id : String) (s t : GraphState rt) : Prop :=
  ∀ n, s.nodes.get? id = some n → ∃ m, t.nodes.get? id = some m ∧
    ∀ f ∈ guidanceStaleFields, m.field? f = n.field? f

theorem SameStale.of_get? {id : String} {s t : GraphState rt}
    (h : t.nodes.get? id = s.nodes.get? id) : SameStale id s t :=
  fun n hn => ⟨n, h.trans hn, fun _ _ => rfl⟩

theorem SameStale.trans {id : String} {s t u : GraphState rt} (h : SameStale id s t)
    (h' : SameStale id t u) : SameStale id s u := by
  intro n hn
  obtain ⟨m, hm, hmf⟩ := h n hn
  obtain ⟨k, hk, hkf⟩ := h' m hm
  exact ⟨k, hk, fun f hf => (hkf f hf).trans (hmf f hf)⟩

theorem sameStale_run {α : Type} (id : String)
    (f : α → GraphState rt → Except String (GraphState rt)) (as : List α)
    (step : ∀ a ∈ as, ∀ s t, s.Keyed → f a s = .ok t → SameStale id s t ∧ t.Keyed)
    (s t : GraphState rt) (hs : s.Keyed) (h : Steps.run f as s = .ok t) : SameStale id s t := by
  have key := Steps.run_invariant f (fun u => SameStale id s u ∧ u.Keyed) as
    (fun a ha u v ⟨hu, hkeyed⟩ hv => by
      obtain ⟨hstep, hkeyed'⟩ := step a ha u v hkeyed hv
      exact ⟨hu.trans hstep, hkeyed'⟩) s t ⟨.of_get? rfl, hs⟩ h
  exact key.1

/-- The stale marks of a node. -/
def ProjectNode.staleMarks (n : ProjectNode rt) : List (Option Json) :=
  guidanceStaleFields.map n.field?

theorem staleMarks_look (n m : ProjectNode rt) (_ : m.type = n.type)
    (_ : m.extensionType = n.extensionType)
    (hfields : ∀ f, f ≠ "status" → f ≠ "validity" → m.field? f = n.field? f) :
    m.staleMarks = n.staleMarks := by
  refine List.map_congr_left fun f hf => hfields f ?_ ?_ <;> rintro rfl <;>
    simp [guidanceStaleFields] at hf

theorem SameStale.of_look {id : String} {s t : GraphState rt}
    (h : (t.nodes.get? id).map ProjectNode.staleMarks =
      (s.nodes.get? id).map ProjectNode.staleMarks) : SameStale id s t := by
  intro n hn
  rw [hn, Option.map_some] at h
  obtain ⟨m, hm, hmarks⟩ := Option.map_eq_some_iff.mp h
  exact ⟨m, hm, List.map_inj_left.mp hmarks⟩

/-- An accepted source operation that does not remove a node keeps its stale marks. -/
theorem sameStale_applyOp (ctx : OpContext rt) (hmode : ctx.mode = .admission) (p : Patch rt)
    (op : GraphOperation rt) (s t : GraphState rt) (ha : Alike ctx.state s)
    (hr : refused (patchRules ctx op) = false) (hs : s.Keyed)
    (h : applyOp p false op s = .ok t) (id : String)
    (hkept : ∀ ids, op = .removeNodes ids → id ∉ ids) (hin : id ∈ s.nodes) :
    SameStale id s t := by
  cases op with
  | createNodes nodes =>
      refine .of_get? (get?_nodes_applyOp p false _ s t hs h id fun hmem => ?_)
      obtain ⟨raw, hraw, rfl⟩ := List.mem_map.mp hmem
      exact created_new ctx nodes hr raw hraw (ha.nodes ▸ hin)
  | updateNodes updates =>
      have haccepted := updates_accepted ctx updates hr
      refine sameStale_run id (updateNode p false) updates (fun u hu a b hkeyed hab => ?_) s t hs h
      refine ⟨?_, (updateNode_rewrites p false u a b hkeyed hab).1.keyed hkeyed⟩
      by_cases hid : id = u.id
      · subst hid
        obtain ⟨n, m, hn, -, hm, rfl⟩ := updateNode_ok p false u a b hab
        intro n' hn'
        rw [hn] at hn'
        cases hn'
        refine ⟨m, by simp [hkeyed u.id n hn], fun f hf => ?_⟩
        refine ProjectNode.field?_revise n m _ _ _ _ hm f ?_ fun hname => ?_
        · exact spares_stale ctx hmode u (haccepted u hu) f hf
        · rw [hname] at hf
          simp [guidanceStaleFields] at hf
      · exact .of_get? ((updateNode_rewrites p false u a b hkeyed hab).1.other hid)
  | removeNodes ids =>
      cases h
      refine .of_get? ?_
      rw [removeNodes, Dict.get?_filter]
      cases s.nodes.get? id with
      | none => rfl
      | some n => simp [Option.filter, hkept ids rfl]
  | _ => exact .of_look (look_applyOp ProjectNode.staleMarks staleMarks_look p false _ rfl s t hs h id)

/-- Admitted source patches that do not remove a node keep its stale marks. -/
theorem sameStale_sources (project : Project rt) (revision : Nat) (raws : List (Patch rt))
    (p : Patch rt) (admitted : List (Patch rt)) (s u : GraphState rt)
    (h : JudgedRun (Admitted project revision raws) p admitted s u) (hs : s.Keyed) (id : String)
    (hkept : ∀ ids, .removeNodes ids ∈ admitted.flatMap (·.ops) → id ∉ ids) (hin : id ∈ s.nodes) :
    SameStale id s u := by
  have key := h.invariant
    (fun rest v => (∀ ids, .removeNodes ids ∈ rest.flatMap (·.ops) → id ∉ ids) ∧ id ∈ v.nodes ∧
      v.Keyed ∧ SameStale id s v)
    (fun here v w source rest happ hplain ha hj hrun ⟨hrest, hv, hkeyed, hsame⟩ => by
      obtain ⟨raw, -, -, -, hissues⟩ := hj.gates hplain
      have hend := patchIssues_run here source _ _ hissues p happ hplain
        (fun ops x => (∀ ids, .removeNodes ids ∈ ops → id ∉ ids) ∧ id ∈ x.nodes ∧ x.Keyed ∧
          SameStale id s x)
        (by
          rintro op ops ctx x y - ⟨a, r, rfl⟩ hax hr happlied ⟨hops, hx, hkx, hsx⟩
          have hstep := sameStale_applyOp _ (mode_admissionContext project here source) p op x y hax
            hr hkx happlied id (fun ids heq => hops ids (heq ▸ List.mem_cons_self)) hx
          obtain ⟨n, hn⟩ := (Dict.mem_iff_exists _ _).mp hx
          obtain ⟨m, hm, -⟩ := hstep n hn
          exact ⟨fun ids hids => hops ids (List.mem_cons_of_mem op hids), Dict.mem_of_get? hm,
            keyed_applyOp p false op x y hkx happlied, hsx.trans hstep⟩)
        v w ha hrun
        ⟨fun ids hids => hrest ids (by
          rw [List.flatMap_cons]
          exact List.mem_append_left _ hids), hv, hkeyed, hsame⟩
      exact ⟨fun ids hids => hrest ids (by
        rw [List.flatMap_cons]
        exact List.mem_append_right _ hids), hend.2⟩)
    ⟨hkept, hin, hs, .of_get? rfl⟩
  exact key.2.2.2

theorem removal_finalized (ops finals : List (GraphOperation rt))
    (h : List.Forall₂ Finalized ops finals) (ids : List String) (hids : .removeNodes ids ∈ ops) :
    .removeNodes ids ∈ finals := by
  induction h with
  | nil => cases hids
  | @cons op final _ _ hop _ ih =>
      rcases List.mem_cons.mp hids with rfl | hids
      · obtain ⟨staged, rfl⟩ := hop
        exact List.mem_cons_self
      · exact List.mem_cons_of_mem _ (ih hids)

end Sources

section Closure

/-- Some source operation changes what an Experiment's guidance was written against. -/
def DependenciesMove (timeline : List (TimelineEntry rt)) (id : String) : Prop :=
  ∃ e ∈ timeline, (e.before.typed? .experiment id).isSome = true ∧
    (e.after.typed? .experiment id).isSome = true ∧
    experimentDependencySignature e.before id ≠ experimentDependencySignature e.after id

/-- The operation writes a field of a node. -/
def GraphOperation.writesField (id field : String) : GraphOperation rt → Bool
  | .updateNodes updates => updates.any fun u => decide (u.id = id) && decide (field ∈ u.changes)
  | _ => false

theorem dependencyChangeCause_isSome (timeline : List (TimelineEntry rt)) (id : String) :
    (dependencyChangeCause timeline id).isSome = true ↔ DependenciesMove timeline id := by
  rw [dependencyChangeCause, Option.isSome_map, List.find?_isSome]
  simp only [DependenciesMove, dependencyChanged, Bool.and_eq_true, decide_eq_true_eq]
  constructor
  · rintro ⟨e, he, hafter, hbefore, hne⟩
    exact ⟨e, he, hbefore, hafter, hne⟩
  · rintro ⟨e, he, hbefore, hafter, hne⟩
    exact ⟨e, he, hafter, hbefore, hne⟩

theorem explicitGuidanceUpdate_isSome (ops : List (GraphOperation rt)) (id field : String) :
    (explicitGuidanceUpdate ops id field).isSome = true ↔
      ∃ op ∈ ops, op.writesField id field = true := by
  rw [explicitGuidanceUpdate, Option.isSome_map, List.find?_isSome]
  constructor
  · rintro ⟨⟨op, i⟩, hop, hwrites⟩
    refine ⟨op, ?_, hwrites⟩
    exact (List.mem_zipIdx' (List.mem_reverse.mp hop)).2 ▸ List.getElem_mem _
  · rintro ⟨op, hop, hwrites⟩
    obtain ⟨i, hi, rfl⟩ := List.mem_iff_getElem.mp hop
    refine ⟨(ops[i], i), ?_, hwrites⟩
    rw [List.mem_reverse, List.mem_zipIdx_iff_getElem?, List.getElem?_eq_getElem hi]

/-- The stale marks of a graph that source operations `ops` led to from `s`. -/
structure GuidanceClosed (s t : GraphState rt) (timeline : List (TimelineEntry rt))
    (ops : List (GraphOperation rt)) : Prop where
  moved : ∀ id m, t.typed? .experiment id = some m → DependenciesMove timeline id →
    ∀ field ∈ guidanceFields,
      m.field? field.2 = some (.bool ((m.field? field.1).getD .null).truthy)
  written : ∀ id m, t.typed? .experiment id = some m → ¬DependenciesMove timeline id →
    ∀ field ∈ guidanceFields, (∃ op ∈ ops, op.writesField id field.1 = true) →
      m.field? field.2 = some (.bool false)
  kept : ∀ id n m, s.typed? .experiment id = some n → t.typed? .experiment id = some m →
    ¬DependenciesMove timeline id → (∀ ids, .removeNodes ids ∈ ops → id ∉ ids) →
    ∀ field ∈ guidanceFields, (∀ op ∈ ops, op.writesField id field.1 = false) →
      m.field? field.2 = n.field? field.2

/-- The rule asks for nothing where its marks are set. -/
theorem wantedStale_settled (m : ProjectNode rt) (invalidation explicit : Option Nat)
    (field stale : String)
    (hmoved : invalidation.isSome = true →
      m.field? stale = some (.bool ((m.field? field).getD .null).truthy))
    (hwritten : invalidation.isSome = false → explicit.isSome = true →
      m.field? stale = some (.bool false)) :
    wantedStale m invalidation explicit field stale = none := by
  cases invalidation with
  | some c => simp [wantedStale, hmoved rfl]
  | none =>
      cases explicit with
      | some c => simp [wantedStale, hwritten rfl rfl]
      | none => rfl

theorem guidanceActions_settled (t : GraphState rt) (timeline : List (TimelineEntry rt))
    (ops : List (GraphOperation rt))
    (h : ∀ id m, t.typed? .experiment id = some m → ∀ field ∈ guidanceFields,
      wantedMark timeline ops id m field = none) : guidanceActions t timeline ops = [] := by
  rw [List.eq_nil_iff_forall_not_mem]
  intro g hg
  obtain ⟨id, m, hm, hcause, -⟩ := (mem_guidanceActions t timeline ops g).mp hg
  obtain ⟨mark, hmark, -⟩ := List.mem_map.mp hcause
  obtain ⟨field, hfield, hwanted⟩ := List.mem_filterMap.mp hmark
  rw [h id m hm field hfield] at hwanted
  cases hwanted

theorem GuidanceClosed.settled {s t : GraphState rt} {timeline : List (TimelineEntry rt)}
    {ops : List (GraphOperation rt)} (h : GuidanceClosed s t timeline ops) :
    guidanceActions t timeline ops = [] := by
  apply guidanceActions_settled
  intro id m hm field hfield
  refine wantedStale_settled m _ _ field.1 field.2 (fun hmoved => ?_) fun hquiet hwritten => ?_
  · exact h.moved id m hm ((dependencyChangeCause_isSome timeline id).mp hmoved) field hfield
  · refine h.written id m hm (fun hmoved => ?_) field hfield
      ((explicitGuidanceUpdate_isSome ops id field.1).mp hwritten)
    rw [(dependencyChangeCause_isSome timeline id).mpr hmoved] at hquiet
    cases hquiet

/-- Generated operations write no guidance. -/
theorem writesField_generated (w : GraphState rt) (op : GraphOperation rt)
    (hop : op.MarksGuidance w) (id : String) (field : String × String)
    (hfield : field ∈ guidanceFields) : op.writesField id field.1 = false := by
  obtain ⟨u, rfl, -, -, hkeys⟩ := hop
  simp only [GraphOperation.writesField, List.any_cons, List.any_nil, Bool.or_false]
  rw [Bool.and_eq_false_iff]
  right
  rw [decide_eq_false_iff_not]
  intro hmem
  have hstale := hkeys field.1 hmem
  simp only [guidanceFields, List.mem_cons, List.not_mem_nil, or_false] at hfield
  rcases hfield with rfl | rfl <;> simp [guidanceStaleFields] at hstale

/-- No generated operation changes a signature. -/
theorem signature_generated (p : Patch rt) (ops : List (GraphOperation rt × Nat)) (index : Nat)
    (s final : GraphState rt) (timeline : List (TimelineEntry rt)) (hs : s.Keyed)
    (hops : ∀ g ∈ ops, g.1.MarksGuidance s)
    (h : applyGenerated p index ops s = .ok (timeline, final)) :
    ∀ e ∈ timeline, ∀ id, experimentDependencySignature e.after id =
      experimentDependencySignature e.before id := by
  induction ops generalizing index s timeline with
  | nil =>
      cases h
      intro e he
      cases he
  | cons g ops ih =>
      obtain ⟨op, cause⟩ := g
      simp only [applyGenerated, bind, Except.bind, pure, Except.pure] at h
      cases ht : applyTransitionGeneratedOperation s p op with
      | error text => simp [ht] at h
      | ok t =>
          simp only [ht] at h
          cases hr : applyGenerated p (index + 1) ops t with
          | error e => simp [hr] at h
          | ok r =>
              simp only [hr, Except.ok.injEq, Prod.mk.injEq] at h
              obtain ⟨rfl, rfl⟩ := h
              obtain ⟨u, hu, halike⟩ := applyTransitionGeneratedOperation_ok s p op t ht
              have hrun := (Steps.run_cons_ok (applyOp p true) op [] s u).mpr ⟨u, hu, rfl⟩
              have hmark : ∀ o ∈ [op], o.MarksGuidance s := by
                intro o ho
                rw [List.mem_singleton.mp ho]
                exact hops _ List.mem_cons_self
              obtain ⟨hedges, htypes, hnodes⟩ := marks_run p [op] s u hmark hs hrun
              intro e he id
              rcases List.mem_cons.mp he with rfl | he
              · exact (halike.signature id).trans (signature_congr s u hedges
                  (proposals_marks p [op] s hmark s u hrun) htypes hnodes id)
              · refine ih (index + 1) t r.1 (keyed_of_nodes t u halike.nodes
                  (keyed_applyOp p true op s u hs hu)) (fun g hg => ?_) hr e he id
                obtain ⟨x, hx, hxtype, hxrest⟩ := hops g (List.mem_cons_of_mem _ hg)
                refine ⟨x, hx, ?_, hxrest⟩
                rw [GraphState.nodeType?, halike.nodes]
                exact (htypes x.id).trans hxtype

/-- The marks that the generated operations leave, where they start from the graph `w` after
the source operations. -/
theorem guidanceClosed_of_marks (s w t : GraphState rt) (timeline : List (TimelineEntry rt))
    (ops : List (GraphOperation rt))
    (hnodes : ∀ id m, t.typed? .experiment id = some m →
      ∃ n, w.typed? .experiment id = some n ∧ n.Marked m ∧ ∀ f ∈ guidanceStaleFields,
        m.field? f = lastMark id f ((guidanceActions w timeline ops).map Prod.fst) (n.field? f))
    (hsources : ∀ id, id ∈ s.nodes → (∀ ids, .removeNodes ids ∈ ops → id ∉ ids) →
      SameStale id s w) : GuidanceClosed s t timeline ops := by
  have hstale : ∀ field ∈ guidanceFields,
      field.2 ∈ guidanceStaleFields ∧ field.1 ∉ guidanceStaleFields := by decide
  refine ⟨fun id m hm hmoved field hfield => ?_, fun id m hm hquiet field hfield hwritten => ?_,
    fun id n m hn hm hquiet hkept field hfield hsilent => ?_⟩
  · obtain ⟨n, hn, hmarked, hmarks⟩ := hnodes id m hm
    obtain ⟨c, hc⟩ := Option.isSome_iff_exists.mp
      ((dependencyChangeCause_isSome timeline id).mpr hmoved)
    rw [hmarks field.2 (hstale field hfield).1, hmarked.content field.1 (hstale field hfield).2]
    apply (lastMark_guidanceActions w timeline ops id n hn field hfield).1
    rw [wantedMark, hc]
    exact settles_invalidated n c _ field.1 field.2
  · obtain ⟨n, hn, hmarked, hmarks⟩ := hnodes id m hm
    have hnone : dependencyChangeCause timeline id = none := by
      rw [← Option.not_isSome_iff_eq_none, dependencyChangeCause_isSome]
      exact hquiet
    obtain ⟨c, hc⟩ := Option.isSome_iff_exists.mp
      ((explicitGuidanceUpdate_isSome ops id field.1).mpr hwritten)
    rw [hmarks field.2 (hstale field hfield).1]
    apply (lastMark_guidanceActions w timeline ops id n hn field hfield).1
    rw [wantedMark, hnone, hc]
    exact settles_explicit n c field.1 field.2
  · obtain ⟨k, hk, hmarked, hmarks⟩ := hnodes id m hm
    have hnone : dependencyChangeCause timeline id = none := by
      rw [← Option.not_isSome_iff_eq_none, dependencyChangeCause_isSome]
      exact hquiet
    have hunwritten : explicitGuidanceUpdate ops id field.1 = none := by
      rw [← Option.not_isSome_iff_eq_none, explicitGuidanceUpdate_isSome]
      rintro ⟨op, hop, hwrites⟩
      rw [hsilent op hop] at hwrites
      cases hwrites
    have hleft := (lastMark_guidanceActions w timeline ops id k hk field hfield).2
      (by rw [wantedMark, hnone, hunwritten]; rfl)
    rw [hmarks field.2 (hstale field hfield).1, hleft]
    obtain ⟨hns, -⟩ := (typed?_iff s _ id n).mp hn
    obtain ⟨k', hk', hsame⟩ := hsources id (Dict.mem_of_get? hns) hkept n hns
    rw [((typed?_iff w _ id k).mp hk).1] at hk'
    cases hk'
    exact hsame field.2 (hstale field hfield).1

/-- The guidance rule closes every admitted transition: its marks are as the source operations
call for, it moves no signature, a second pass has nothing to add, and it changes nodes in
their marks only. -/
theorem guidance_closure (project : Project rt) (s : GraphState rt)
    (hs : Reachable (fun _ _ => True) s) (revision : Nat) (raws : List (Patch rt))
    (sources : AdmittedSources rt) (preHead : Option GraphHeadRef)
    (prepared : PreparedTransition rt)
    (hgates : admitSources project s.revision revision raws s = .ok sources)
    (hprepared : prepareValidated s sources.patches preHead = .ok prepared) :
    ∃ first rest staged w, sources.patches = first :: rest ∧
      stageTransition s first rest defaultMaxRuleFirings = .ok staged ∧
      applyTimeline 0 (sourceActions sources.patches) s = .ok (staged.initiating, w) ∧
      prepared.patch.ops =
        sources.patches.flatMap (·.ops) ++ staged.generatedOps.map Prod.fst ∧
      GuidanceClosed s prepared.graph staged.initiating (sources.patches.flatMap (·.ops)) ∧
      (∀ id, experimentDependencySignature prepared.graph id =
        experimentDependencySignature w id) ∧
      (∀ e ∈ staged.generated, ∀ id, experimentDependencySignature e.after id =
        experimentDependencySignature e.before id) ∧
      guidanceActions prepared.graph staged.initiating (sources.patches.flatMap (·.ops)) = [] ∧
      guidanceActions prepared.graph staged.generated (staged.generatedOps.map Prod.fst) = [] ∧
      (∀ id, prepared.graph.nodeType? id = w.nodeType? id) ∧
      ∀ id n, w.nodes.get? id = some n →
        ∃ m, prepared.graph.nodes.get? id = some m ∧ n.Marked m := by
  obtain ⟨first, rest, staged, w, admitted, u, v, hfirst, hstaged, htimeline, hgenerated, halike,
    happlied, henvelope, hops, hrun⟩ :=
    appended_staged project s revision raws sources preHead _ prepared hgates hprepared
  have hkeyed := keyed_of_reachable s hs
  have hu := keyed_run _ false _ s u hkeyed hrun.judged.run_sources
  have hw := keyed_of_nodes w u halike.nodes hu
  obtain ⟨hedges, htypes, hothers⟩ := marks_run _ _ u v hrun.marks hu hrun.marked
  have hnodes : prepared.graph.nodes = v.nodes := by
    rw [hrun.graph]
    exact (relayer_alike _ v).nodes
  have hproposals := proposals_marks _ _ u hrun.marks u v hrun.marked
  have hflags : ∀ op ∈ staged.generatedOps.map Prod.fst, op.MarksGuidance u ∧ op.MarksFlags := by
    intro op hop
    refine ⟨hrun.marks op hop, ?_⟩
    obtain ⟨g, hg, rfl⟩ := List.mem_map.mp hop
    rw [hgenerated] at hg
    exact marksFlags_guidanceActions _ _ _ g hg
  have hmarked : ∀ id n, w.nodes.get? id = some n → ∃ m, prepared.graph.nodes.get? id = some m ∧
      n.Marked m ∧ ∀ f ∈ guidanceStaleFields,
        m.field? f = lastMark id f (staged.generatedOps.map Prod.fst) (n.field? f) := by
    intro id n hn
    rw [halike.nodes] at hn
    rw [hnodes]
    exact marks_nodes _ _ u v hflags hu hrun.marked id n hn
  have htypes' : ∀ id, prepared.graph.nodeType? id = w.nodeType? id := by
    intro id
    rw [GraphState.nodeType?, hnodes, GraphState.nodeType?, halike.nodes]
    exact htypes id
  have hclosed : GuidanceClosed s prepared.graph staged.initiating
      (sources.patches.flatMap (·.ops)) := by
    refine guidanceClosed_of_marks s { w with revision := first.revision } prepared.graph _ _ ?_ ?_
    · intro id m hm
      obtain ⟨hmget, hmtype⟩ := (typed?_iff _ _ id m).mp hm
      have hwtype : w.nodeType? id = some .experiment := by
        rw [← htypes' id, GraphState.nodeType?, hmget, Option.map_some, hmtype]
      obtain ⟨n, hn, hntype⟩ := Option.map_eq_some_iff.mp hwtype
      obtain ⟨m', hm', hmark, hfields⟩ := hmarked id n hn
      rw [hmget] at hm'
      cases hm'
      refine ⟨n, (typed?_iff _ _ id n).mpr ⟨hn, hntype⟩, hmark, ?_⟩
      rw [← hgenerated]
      exact hfields
    · intro id hin hkept
      obtain ⟨finals, hfinals, hsame⟩ := hrun.finalized
      have hfinal : finals = sources.patches.flatMap (·.ops) :=
        List.append_cancel_right (hsame.symm.trans hops)
      have hstale := sameStale_sources project revision raws _ admitted s u hrun.judged hkeyed id
        (fun ids hids => hkept ids (hfinal ▸ removal_finalized _ _ hfinals ids hids)) hin
      exact hstale.trans (.of_get? (congrArg (·.get? id) halike.nodes))
  have hsignature : ∀ e ∈ staged.generated, ∀ id,
      experimentDependencySignature e.after id = experimentDependencySignature e.before id :=
    signature_generated first staged.generatedOps _ { w with revision := first.revision } _ _ hw
      (fun g hg => MarksGuidance.congr halike.symm.nodes _
        (hrun.marks g.1 (List.mem_map.mpr ⟨g, hg, rfl⟩))) happlied
  refine ⟨first, rest, staged, w, hfirst, hstaged, htimeline, hops, hclosed, fun id => ?_,
    hsignature, hclosed.settled, ?_, htypes', fun id n hn => ?_⟩
  · have hgraph : experimentDependencySignature prepared.graph id =
        experimentDependencySignature (relayer (prepared.patch.ops.flatMap createdEdgeIds) v) id := by
      rw [hrun.graph]
      rfl
    rw [hgraph, (relayer_alike _ v).signature id,
      signature_congr u v hedges hproposals htypes hothers id, halike.signature id]
  · apply guidanceActions_settled
    intro id m hm field hfield
    refine wantedStale_settled m _ _ field.1 field.2 (fun hmoved => ?_) fun _ hwritten => ?_
    · obtain ⟨e, he, -, -, hne⟩ := (dependencyChangeCause_isSome staged.generated id).mp hmoved
      exact absurd (hsignature e he id).symm hne
    · obtain ⟨op, hop, hwrites⟩ := (explicitGuidanceUpdate_isSome _ id field.1).mp hwritten
      rw [writesField_generated u op (hrun.marks op hop) id field hfield] at hwrites
      cases hwrites
  · obtain ⟨m, hm, hmark, -⟩ := hmarked id n hn
    exact ⟨m, hm, hmark⟩

end Closure

section Concrete

/-- An Experiment with a summary of where it stands. -/
def experimentDraft (id : String) (stale : Bool := false) : RawNode .plain where
  id := id
  type := .experiment
  extensionType := none
  standing := none
  createdRev := none
  updatedRev := none
  content :=
    [ ("title", .str "Title"), ("objective", .str "Objective"),
      ("current_summary", .str "Set up."), ("current_summary_stale", .bool stale) ]
  extensionType_ok := RawNode.no_extension
  content_ok := by cases stale <;> rfl

def governedDraft (source target : String) : NewEdge where
  source := source
  target := target
  relation := "governed_by"
  relation_ok := by rfl

def filedExperiment : Patch .plain :=
  firstPatch [.createNodes [experimentDraft "exp/a", decisionDraft "dec/a"]]

/-- The Experiment arrives with a summary that is already marked. -/
def filedStaleExperiment : Patch .plain :=
  firstPatch [.createNodes [experimentDraft "exp/a" true]]

/-- A Decision starts to govern the Experiment. -/
def governedExperiment : Patch .plain :=
  firstPatch [.createEdges [governedDraft "exp/a" "dec/a"]]

/-- One edit of a human Sync. -/
def syncPatch (ops : List (GraphOperation .plain)) : Patch .plain where
  revision := 1
  kind := .approval
  author := some .human
  producer := .human
  createdAt := "2026-01-01T00:00:00Z"
  summary := "Sync."
  authorizedBy := some ⟨"space", "user", "User"⟩
  ops := ops

/-- A Sync that removes the Experiment and creates it anew. -/
def recreatedExperiment : List (Patch .plain) :=
  [ syncPatch [.removeNodes ["exp/a"]], syncPatch [.createNodes [experimentDraft "exp/a"]] ]

theorem reachable_filedExperiment :
    ∃ s, applyValidPatch (.initial .plain ["repo"]) filedExperiment = .ok s ∧
      Reachable (fun _ _ => True) (s.record []) ∧
      (nextAppend Project.solo (s.record []) [governedExperiment]).any (fun prepared =>
        (prepared.graph.nodes.get? "exp/a").bind (·.field? "current_summary_stale") =
          some (.bool true)) = true := by
  refine ⟨_, rfl, ?_, by decide +kernel⟩
  exact .accept _ _ filedExperiment { projectTruthScope := ["repo"] } {} [] (.initial ["repo"])
    trivial (by decide) rfl

theorem guidance_closure_governed :
    ∃ s prepared timeline ops,
      applyValidPatch (.initial .plain ["repo"]) filedExperiment = .ok s ∧
      nextAppend Project.solo (s.record []) [governedExperiment] = some prepared ∧
      (prepared.graph.nodes.get? "exp/a").bind (·.field? "current_summary_stale") =
        some (.bool true) ∧
      GuidanceClosed (s.record []) prepared.graph timeline ops ∧
      guidanceActions prepared.graph timeline ops = [] := by
  obtain ⟨s, hs, hreachable, hany⟩ := reachable_filedExperiment
  obtain ⟨prepared, hp, hstale⟩ := (Option.any_eq_true _ _).mp hany
  obtain ⟨sources, hgates, hprepared⟩ := nextAppend_ok _ _ _ prepared hp
  obtain ⟨_, _, staged, _, _, _, _, _, hclosed, _, _, hsettled, _⟩ :=
    guidance_closure Project.solo _ hreachable _ _ sources none prepared hgates hprepared
  rw [decide_eq_true_eq] at hstale
  exact ⟨s, prepared, staged.initiating, _, hs, hp, hstale, hclosed, hsettled⟩

/-- The marks as they would follow from the source operations alone, whatever it means that
the dependencies of an Experiment differ across them. -/
def MarksFollow (differ : List (TimelineEntry rt) → String → Prop) (s t : GraphState rt)
    (timeline : List (TimelineEntry rt)) (ops : List (GraphOperation rt)) : Prop :=
  ∀ id n m, s.typed? .experiment id = some n → t.typed? .experiment id = some m →
    ∀ field ∈ guidanceFields,
      (differ timeline id →
        m.field? field.2 = some (.bool ((m.field? field.1).getD .null).truthy)) ∧
      (¬differ timeline id → (∃ op ∈ ops, op.writesField id field.1 = true) →
        m.field? field.2 = some (.bool false)) ∧
      (¬differ timeline id → (∀ op ∈ ops, op.writesField id field.1 = false) →
        m.field? field.2 = n.field? field.2)

/-- The signature differs across an operation, also where the Experiment comes or goes. -/
def SignatureDiffers (timeline : List (TimelineEntry rt)) (id : String) : Prop :=
  ∃ e ∈ timeline,
    experimentDependencySignature e.before id ≠ experimentDependencySignature e.after id

instance (timeline : List (TimelineEntry rt)) (id : String) :
    Decidable (SignatureDiffers timeline id) :=
  inferInstanceAs (Decidable (∃ e ∈ timeline,
    experimentDependencySignature e.before id ≠ experimentDependencySignature e.after id))

instance (timeline : List (TimelineEntry rt)) (id : String) :
    Decidable (DependenciesMove timeline id) :=
  inferInstanceAs (Decidable (∃ e ∈ timeline, (e.before.typed? .experiment id).isSome = true ∧
    (e.after.typed? .experiment id).isSome = true ∧
    experimentDependencySignature e.before id ≠ experimentDependencySignature e.after id))

/-- Every admitted transition leaves marks that follow from its source operations. -/
def MarksAlwaysFollow (differ : List (TimelineEntry .plain) → String → Prop) : Prop :=
  ∀ s : GraphState .plain, Reachable (fun _ _ => True) s →
    ∀ revision raws sources preHead prepared timeline w,
      admitSources Project.solo s.revision revision raws s = .ok sources →
      prepareValidated s sources.patches preHead = .ok prepared →
      applyTimeline 0 (sourceActions sources.patches) s = .ok (timeline, w) →
      MarksFollow differ s prepared.graph timeline (sources.patches.flatMap (·.ops))

/-- What the Sync leaves of the marks: stale before it, not stale after it, and the summary
is there. -/
def recreationLoses (s : GraphState .plain) : Bool :=
  ((admitSources Project.solo s.revision (s.revision + 1) recreatedExperiment s).toOption.any
    fun sources => (prepareValidated s sources.patches).toOption.any fun prepared =>
      (applyTimeline 0 (sourceActions sources.patches) s).toOption.any fun timeline =>
        decide ((s.typed? .experiment "exp/a").bind (·.field? "current_summary_stale") =
          some (.bool true)) &&
        decide ((prepared.graph.typed? .experiment "exp/a").map (fun m =>
          (m.field? "current_summary_stale", m.field? "current_summary")) =
            some (some (.bool false), some (.str "Set up."))) &&
        decide (SignatureDiffers timeline.1 "exp/a") &&
        decide (¬DependenciesMove timeline.1 "exp/a") &&
        (sources.patches.flatMap (·.ops)).all fun op =>
          !op.writesField "exp/a" "current_summary")

theorem toOption_eq_some {ε α : Type} (x : Except ε α) (a : α) :
    x.toOption = some a ↔ x = .ok a := by
  cases x <;> simp [Except.toOption]

theorem reachable_recreationLoses :
    ∃ s, Reachable (fun _ _ => True) s ∧ recreationLoses s = true := by
  have hrun : ∃ s, applyValidPatch (.initial .plain ["repo"]) filedStaleExperiment = .ok s ∧
      recreationLoses (s.record []) = true :=
    ⟨_, rfl, by decide +kernel⟩
  obtain ⟨s, hs, hloses⟩ := hrun
  exact ⟨_, .accept _ s filedStaleExperiment { projectTruthScope := ["repo"] } {} []
    (.initial ["repo"]) trivial (by decide) hs, hloses⟩

theorem marks_lost_on_recreation :
    ¬MarksAlwaysFollow DependenciesMove ∧ ¬MarksAlwaysFollow SignatureDiffers := by
  obtain ⟨s, hs, hlost⟩ := reachable_recreationLoses
  simp only [recreationLoses, Option.any_eq_true, Bool.and_eq_true, decide_eq_true_eq,
    List.all_eq_true, Bool.not_eq_true', toOption_eq_some] at hlost
  obtain ⟨sources, hgates, prepared, hprepared, ⟨timeline, w⟩, htimeline,
    ⟨⟨⟨hbefore, hafter⟩, hdiffers⟩, hquiet⟩, hsilent⟩ := hlost
  obtain ⟨n, hn, hstale⟩ := Option.bind_eq_some_iff.mp hbefore
  obtain ⟨m, hm, hfields⟩ := Option.map_eq_some_iff.mp hafter
  obtain ⟨hfresh, hsummary⟩ := Prod.mk.injEq .. ▸ hfields
  have hfield : ("current_summary", "current_summary_stale") ∈ guidanceFields := by decide
  constructor
  · intro hfollow
    have hkept := (hfollow s hs _ _ sources none prepared timeline w hgates hprepared htimeline
      "exp/a" n m hn hm _ hfield).2.2 hquiet hsilent
    rw [hstale, hfresh] at hkept
    cases hkept
  · intro hfollow
    have hmarked := (hfollow s hs _ _ sources none prepared timeline w hgates hprepared htimeline
      "exp/a" n m hn hm _ hfield).1 hdiffers
    rw [hfresh, hsummary] at hmarked
    cases hmarked

end Concrete

end RcpGraph
