import RcpGraph.Graph.GuidanceClosure

/-!
What the guidance rule reads of a graph. Two graphs with the same guiding edges, the same
outcomes of Decisions, Blockers and Evidence, and the same pending Proposals over governing
Decisions give every Experiment one dependency signature; the lemmas say which steps of an
operation keep all of that.
-/

namespace Assoc

variable {κ : Type*} {α : Type*} [DecidableEq κ]

/-- A test that accepts neither the old nor the new entry of a key does not see the write. -/
theorem filter_write (p : κ × α → Bool) (k : κ) (a : α) (es : List (κ × α))
    (hnew : p (k, a) = false) (hold : ∀ b, find k es = some b → p (k, b) = false) :
    (write k a es).filter p = es.filter p := by
  induction es with
  | nil => simp [write, hnew]
  | cons e es ih =>
      by_cases hk : e.1 = k
      · have hb : p (k, e.2) = false := hold e.2 (by simp [find, hk])
        have he : p e = false := by
          rw [← hb, ← hk]
        simp [write, hk, hnew, he]
      · have ih := ih fun b hb => hold b (by simpa [find, hk] using hb)
        simp only [write, hk, if_false, List.filter_cons, ih]

end Assoc

namespace Dict

variable {κ : Type*} {α : Type*} [DecidableEq κ]

theorem filter_insert (d : Dict κ α) (p : κ → α → Bool) (k : κ) (a : α) (hnew : p k a = false)
    (hold : ∀ b, d.get? k = some b → p k b = false) : (d.insert k a).filter p = d.filter p :=
  Dict.ext (Assoc.filter_write (fun e => p e.1 e.2) k a d.entries hnew hold)

theorem filter_erase (d : Dict κ α) (p : κ → α → Bool) (k : κ)
    (hold : ∀ b, d.get? k = some b → p k b = false) : (d.erase k).filter p = d.filter p := by
  refine Dict.ext ?_
  simp only [erase, filter, List.filter_filter]
  refine List.filter_congr fun e he => ?_
  by_cases hk : e.1 = k
  · have hget : d.get? k = some e.2 := (get?_eq_some_iff d k e.2).mpr (hk ▸ he)
    rw [hk, hold e.2 hget]
    rfl
  · simp [hk]

omit [DecidableEq κ] in
theorem values_filter (d : Dict κ α) (p : α → Bool) :
    (d.filter fun _ a => p a).values = d.values.filter p := by
  simp only [filter, values, List.filter_map]
  rfl

end Dict

namespace RcpGraph

variable {rt : Runtime}

/-- The relations through which the guidance rule looks at a graph. -/
def guidingRelations : List String :=
  ["blocked_by", "governed_by", "tests", "supports", "weakens", "refutes", "inconclusive",
    "contradicts"]

def Edge.guides (e : Edge) : Bool := decide (e.relation ∈ guidingRelations)

/-- The fields the rule reads of Decisions, Blockers and Evidence. -/
def guidingFields : List String := ["status", "selected_option", "validity"]

def NodeType.isGuiding : NodeType → Bool
  | .decision | .blocker | .evidence => true
  | _ => false

/-- Every Proposal is stored under its own id. -/
def GraphState.ProposalsKeyed (s : GraphState rt) : Prop :=
  ∀ id q, s.proposals.get? id = some q → q.id = id

/-- The nodes the operations of a Proposal name. -/
def Proposal.targets (q : Proposal rt) : List String := q.ops.flatMap opTargetIds

/-- What the guidance rule reads is the same in both graphs, as far as some nodes go. -/
structure GuidingOn (R : String → Prop) (s t : GraphState rt) : Prop where
  types : ∀ x, R x → t.nodeType? x = s.nodeType? x
  edges : t.edges.filter (fun _ e => e.guides) = s.edges.filter fun _ e => e.guides
  fields : ∀ x n m, R x → s.nodes.get? x = some n → t.nodes.get? x = some m → n.type.isGuiding →
    ∀ f ∈ guidingFields, m.field? f = n.field? f
  pending : ∀ e ∈ s.edges.values, e.relation = "governed_by" →
    hasPendingProposal t e.target = hasPendingProposal s e.target

/-- The ends of the guiding edges are among some nodes. -/
def GraphState.GuidesWithin (s : GraphState rt) (R : String → Prop) : Prop :=
  ∀ e ∈ s.edges.values, e.guides = true → R e.source ∧ R e.target

/-- What the guidance rule reads is the same in both graphs. -/
abbrev GuidingAlike (s t : GraphState rt) : Prop := GuidingOn (fun _ => True) s t

section Congruence

variable {R : String → Prop} {s t : GraphState rt}

theorem GuidingAlike.refl (s : GraphState rt) : GuidingAlike s s where
  types _ _ := rfl
  edges := rfl
  fields x n m _ hn hm _ f _ := by
    rw [hn] at hm
    cases hm
    rfl
  pending _ _ _ := rfl

theorem GuidingOn.guiding (h : GuidingOn R s t) :
    t.edges.values.filter Edge.guides = s.edges.values.filter Edge.guides := by
  rw [← Dict.values_filter, ← Dict.values_filter]
  exact congrArg Dict.values h.edges

/-- Edges of guiding relations may be picked before or after. -/
theorem filter_guides (p : Edge → Bool) (hp : ∀ e, p e = true → e.guides = true) (es : List Edge) :
    es.filter p = (es.filter Edge.guides).filter p := by
  rw [List.filter_filter]
  refine List.filter_congr fun e _ => ?_
  cases hpe : p e with
  | false => rfl
  | true => simp [hp e hpe]

theorem GuidingOn.relatedTargets (h : GuidingOn R s t) (source relation : String)
    (hrelation : relation ∈ guidingRelations) :
    relatedTargets t source relation = relatedTargets s source relation := by
  have hp : ∀ e : Edge, (decide (e.source = source) && decide (e.relation = relation)) = true →
      e.guides = true := by
    intro e he
    simp only [Bool.and_eq_true, decide_eq_true_eq] at he
    rw [Edge.guides, he.2, decide_eq_true_eq]
    exact hrelation
  unfold RcpGraph.relatedTargets
  rw [filter_guides _ hp t.edges.values, filter_guides _ hp s.edges.values, h.guiding]

/-- The two graphs hold alike nodes of a type the rule reads. -/
theorem GuidingOn.typed (h : GuidingOn R s t) (type : NodeType) (x : String)
    (hR : R x) (htype : type.isGuiding = true) {β : Type} (look : ProjectNode rt → β)
    (hlook : ∀ n m : ProjectNode rt, (∀ f ∈ guidingFields, m.field? f = n.field? f) →
      look m = look n) : (t.typed? type x).map look = (s.typed? type x).map look := by
  have hx := h.types x hR
  rw [GraphState.nodeType?, GraphState.nodeType?] at hx
  rw [GraphState.typed?, GraphState.typed?]
  cases hn : s.nodes.get? x with
  | none =>
      rw [hn] at hx
      rw [Option.map_eq_none_iff.mp hx]
  | some n =>
      rw [hn] at hx
      obtain ⟨m, hm, hmtype⟩ := Option.map_eq_some_iff.mp hx
      rw [hm]
      by_cases hntype : n.type = type
      · have hguiding : n.type.isGuiding = true := hntype ▸ htype
        simp only [Option.filter_some, hmtype, hntype, decide_true, if_true, Option.map_some]
        rw [hlook n m (h.fields x n m hR hn hm hguiding)]
      · simp only [Option.filter_some, hmtype, hntype, decide_false]
        rfl

theorem GuidingOn.decisionReasons (h : GuidingOn R s t) (x : String) (hR : R x)
    (hpending : hasPendingProposal t x = hasPendingProposal s x) :
    decisionReasons t x = decisionReasons s x := by
  have hdecision := h.typed .decision x hR rfl
    (fun d => (d.text "status", d.text "selected_option")) fun n m hfields => by
      rw [ProjectNode.text, ProjectNode.text, ProjectNode.text, ProjectNode.text,
        hfields "status" (by decide), hfields "selected_option" (by decide)]
  unfold RcpGraph.decisionReasons
  rw [hpending]
  cases hs : s.typed? .decision x with
  | none =>
      rw [hs] at hdecision
      rw [Option.map_eq_none_iff.mp hdecision]
  | some n =>
      rw [hs] at hdecision
      obtain ⟨m, hm, hsame⟩ := Option.map_eq_some_iff.mp hdecision
      obtain ⟨hstatus, hoption⟩ := Prod.mk.injEq .. ▸ hsame
      rw [hm]
      simp only [hstatus, hoption]

theorem GuidingOn.blockerReasons (h : GuidingOn R s t) (x : String) (hR : R x) :
    blockerReasons t x = blockerReasons s x := by
  have hblocker := h.typed .blocker x hR rfl (fun b => b.text "status") fun n m hfields => by
    rw [ProjectNode.text, ProjectNode.text, hfields "status" (by decide)]
  unfold RcpGraph.blockerReasons
  cases hs : s.typed? .blocker x with
  | none =>
      rw [hs] at hblocker
      rw [Option.map_eq_none_iff.mp hblocker]
  | some n =>
      rw [hs] at hblocker
      obtain ⟨m, hm, hsame⟩ := Option.map_eq_some_iff.mp hblocker
      rw [hm]
      simp only [hsame]

theorem mem_related (s : GraphState rt) (source relation x : String)
    (hx : x ∈ RcpGraph.relatedTargets s source relation) :
    ∃ e ∈ s.edges.values, e.relation = relation ∧ e.target = x := by
  obtain ⟨e, he, rfl⟩ := List.mem_map.mp ((Text.mem_sortedSet _ _).mp hx)
  obtain ⟨he, hboth⟩ := List.mem_filter.mp he
  simp only [Bool.and_eq_true, decide_eq_true_eq] at hboth
  exact ⟨e, he, hboth.2, rfl⟩

theorem GuidingOn.control (h : GuidingOn R s t) (hends : s.GuidesWithin R) (id : String) :
    experimentControlDependencies t id = experimentControlDependencies s id := by
  have hgoverned := h.relatedTargets id "governed_by" (by decide)
  have hblocked := h.relatedTargets id "blocked_by" (by decide)
  have hpending : ∀ x ∈ RcpGraph.relatedTargets s id "governed_by",
      hasPendingProposal t x = hasPendingProposal s x := by
    intro x hx
    obtain ⟨e, he, hrelation, rfl⟩ := mem_related s id "governed_by" x hx
    exact h.pending e he hrelation
  have hread : ∀ relation ∈ guidingRelations, ∀ x ∈ RcpGraph.relatedTargets s id relation, R x := by
    intro relation hin x hx
    obtain ⟨e, he, rfl, rfl⟩ := mem_related s id relation x hx
    exact (hends e he (decide_eq_true hin)).2
  have hreasons : experimentGraphPreconditionReasons t id =
      experimentGraphPreconditionReasons s id := by
    rw [experimentGraphPreconditionReasons, experimentGraphPreconditionReasons, hgoverned, hblocked]
    refine congrArg₂ (· ++ ·) ?_ ?_
    · exact List.flatMap_congr fun x hx => h.decisionReasons x
        (hread "governed_by" (by decide) x hx) (hpending x hx)
    · exact List.flatMap_congr fun x hx => h.blockerReasons x
        (hread "blocked_by" (by decide) x hx)
  rw [experimentControlDependencies, experimentControlDependencies, hreasons, hgoverned, hblocked]
  refine congrArg₂ (ExperimentControlDependencies.mk _) ?_ ?_
  · refine List.map_congr_left fun x hx => ?_
    have hR := hread "governed_by" (by decide) x hx
    have hstatus := h.typed .decision x hR rfl ProjectNode.status? fun n m hfields => by
      rw [ProjectNode.status?, ProjectNode.status?, hfields "status" (by decide)]
    have hoption := h.typed .decision x hR rfl
      (fun d => (d.field? "selected_option").bind Json.str?) fun n m hfields => by
        rw [hfields "selected_option" (by decide)]
    have hbind : ∀ {β : Type} (o : Option (ProjectNode rt)) (f : ProjectNode rt → Option β),
        o.bind f = (o.map f).join := by
      intro β o f
      cases o <;> rfl
    simp only [hbind, hstatus, hoption, hpending x hx]
  · refine List.map_congr_left fun x hx => ?_
    have hR := hread "blocked_by" (by decide) x hx
    have hstatus := h.typed .blocker x hR rfl ProjectNode.status? fun n m hfields => by
      rw [ProjectNode.status?, ProjectNode.status?, hfields "status" (by decide)]
    have hbind : ∀ o : Option (ProjectNode rt),
        o.bind ProjectNode.status? = (o.map ProjectNode.status?).join := by
      intro o
      cases o <;> rfl
    simp only [hbind, hstatus]

theorem GuidingOn.assessedEdge (h : GuidingOn R s t) (ids : List String) (e : Edge)
    (hR : R e.source) : assessedEdge? t ids e = assessedEdge? s ids e := by
  unfold assessedEdge?
  split
  · have hsource := h.typed .evidence e.source hR rfl
      (fun n => n.field? "validity") fun n m hfields => hfields "validity" (by decide)
    cases hs : s.typed? .evidence e.source with
    | none =>
        rw [hs] at hsource
        rw [Option.map_eq_none_iff.mp hsource]
    | some n =>
        rw [hs] at hsource
        obtain ⟨m, hm, hsame⟩ := Option.map_eq_some_iff.mp hsource
        have hlifecycle : ∀ (g : GraphState rt) (k : ProjectNode rt),
            g.typed? .evidence e.source = some k →
              k.field? k.type.lifecycleField = k.field? "validity" := by
          intro g k hk
          rw [((typed?_iff g _ _ k).mp hk).2]
          rfl
        rw [hm]
        simp only [hlifecycle t m hm, hlifecycle s n hs, hsame]
  · rfl

theorem filterMap_guides {β : Type} (f : Edge → Option β)
    (hf : ∀ e, e.guides = false → f e = none) (es : List Edge) :
    es.filterMap f = (es.filter Edge.guides).filterMap f := by
  induction es with
  | nil => rfl
  | cons e es ih =>
      cases he : e.guides with
      | false => rw [List.filterMap_cons_none (hf e he), List.filter_cons_of_neg (by simp [he]), ih]
      | true =>
          rw [List.filter_cons_of_pos he]
          simp only [List.filterMap_cons, ih]

theorem assessedEdge?_unguided (s : GraphState rt) (ids : List String) (e : Edge)
    (he : e.guides = false) : assessedEdge? s ids e = none := by
  refine if_neg fun hboth => ?_
  have hsub : ∀ r ∈ beliefOutcomeRelations, r ∈ guidingRelations := by decide
  rw [Edge.guides, decide_eq_false_iff_not] at he
  exact he (hsub _ hboth.2)

/-- Whether an Experiment is there is a matter of its type. -/
theorem typed?_isSome (g : GraphState rt) (type : NodeType) (id : String) :
    (g.typed? type id).isSome = decide (g.nodeType? id = some type) := by
  rw [GraphState.typed?, GraphState.nodeType?]
  cases g.nodes.get? id with
  | none => simp
  | some n => by_cases hn : n.type = type <;> simp [Option.filter, hn]

/-- Graphs that the rule reads alike give every Experiment one signature. -/
theorem GuidingOn.signature_on (h : GuidingOn R s t) (hends : s.GuidesWithin R) (id : String)
    (hid : R id) : experimentDependencySignature t id = experimentDependencySignature s id := by
  have hpresent : (t.typed? .experiment id).isSome = (s.typed? .experiment id).isSome := by
    rw [typed?_isSome, typed?_isSome, h.types id hid]
  have htests : (t.edges.values.filter fun e =>
      decide (e.source = id) && decide (e.relation = "tests")) =
        s.edges.values.filter fun e =>
          decide (e.source = id) && decide (e.relation = "tests") := by
    have hp : ∀ e : Edge, (decide (e.source = id) && decide (e.relation = "tests")) = true →
        e.guides = true := by
      intro e he
      simp only [Bool.and_eq_true, decide_eq_true_eq] at he
      rw [Edge.guides, he.2]
      decide
    rw [filter_guides _ hp t.edges.values, filter_guides _ hp s.edges.values, h.guiding]
  have hassessed : ∀ ids, t.edges.values.filterMap (assessedEdge? t ids) =
      s.edges.values.filterMap (assessedEdge? s ids) := by
    intro ids
    rw [filterMap_guides _ (assessedEdge?_unguided t ids) t.edges.values,
      filterMap_guides _ (assessedEdge?_unguided s ids) s.edges.values, h.guiding]
    refine List.filterMap_congr fun e he => ?_
    obtain ⟨he, hguides⟩ := List.mem_filter.mp he
    exact h.assessedEdge ids e (hends e he hguides).1
  unfold experimentDependencySignature
  simp only [h.control hends, htests, hassessed]
  cases hs : s.typed? .experiment id with
  | none =>
      rw [hs, Option.isSome_none, Option.isSome_eq_false_iff, Option.isNone_iff_eq_none] at hpresent
      rw [hpresent]
  | some n =>
      rw [hs] at hpresent
      obtain ⟨m, hm⟩ := Option.isSome_iff_exists.mp hpresent
      rw [hm]

theorem GuidingAlike.signature (h : GuidingAlike s t) (id : String) :
    experimentDependencySignature t id = experimentDependencySignature s id :=
  h.signature_on (fun _ _ _ => ⟨trivial, trivial⟩) id trivial

end Congruence

end RcpGraph
