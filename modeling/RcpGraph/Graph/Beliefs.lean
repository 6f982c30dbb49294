import RcpGraph.Core.Layers
import RcpGraph.Graph.Endpoints
import RcpGraph.History.Admitted

/-!
Protected beliefs under agents. The authority gate judges the operations of a
patch by the graph before it; what it refuses an agent is enough to keep every
research question and hypothesis, and every relation that restructures one, as
they were through the whole transition.
-/

namespace RcpGraph

variable {rt : Runtime}

/-- An edge of a protected relation between nodes of a graph, one of them protected. -/
structure Edge.Binds (s : GraphState rt) (e : Edge) : Prop where
  relation : e.relation ∈ protectedEpistemicRelations
  source : e.source ∈ s.nodes
  target : e.target ∈ s.nodes
  belief : isExistingProtectedNode s e.source = true ∨ isExistingProtectedNode s e.target = true

/-- What a patch with these operations left of the protected beliefs of `s` in `t`. -/
structure BeliefsKept (s : GraphState rt) (ops : List (GraphOperation rt)) (t : GraphState rt) :
    Prop where
  nodes : ∀ id n, s.nodes.get? id = some n → n.type.isProtectedBelief = true →
    t.nodes.get? id = some n
  added : ∀ id e, e.Binds s → t.edges.get? id = some e → s.edges.get? id = some e
  removed : ∀ id e, e.Binds s → s.edges.get? id = some e → t.edges.get? id = some e ∨
    ∃ ids, .removeNodes ids ∈ ops ∧ ∃ x ∈ ids, (x = e.source ∨ x = e.target) ∧
      isExistingProtectedNode s x = false

section Gate

/-- The actions on a protected belief that only a human may perform. -/
def protectedActions : List GraphAction :=
  [ .mergeProtectedEpistemic, .removeProtectedEpistemic, .restructureProtectedEpistemic,
    .supersedeProtectedEpistemic, .updateProtectedEpistemic ]

theorem not_permits_agent (p : Patch rt) (hauthor : p.author = some .agent) (a : GraphAction)
    (ha : a ∈ protectedActions) : permits p a = false := by
  have hordinary : ∀ a ∈ protectedActions, a ∉ GraphAction.ordinaryAgent := by decide
  have horchestrator : ∀ a ∈ protectedActions, a ∉ GraphAction.orchestratorAgent := by decide
  unfold permits
  rw [hauthor]
  split
  next h => cases h
  next => exact decide_eq_false (horchestrator a ha)
  next => exact decide_eq_false (hordinary a ha)
  next h => cases h

theorem mem_orDefault (actions : List GraphAction) (base a : GraphAction) (h : a ∈ actions) :
    a ∈ orDefault actions base := by
  cases actions with
  | nil => cases h
  | cons b bs => exact h

theorem updateActions_ok (s : GraphState rt) (p : Patch rt) (updates : List NodeUpdate)
    (actions : List GraphAction) (h : updateActions s p updates = .ok actions) (u : NodeUpdate)
    (hu : u ∈ updates) : ∃ a ∈ actions, updateAction s p u = .ok a := by
  induction updates generalizing actions with
  | nil => cases hu
  | cons w ws ih =>
      simp only [updateActions, bind, Except.bind, pure, Except.pure] at h
      cases ha : updateAction s p w with
      | error e => simp [ha] at h
      | ok a =>
          cases has : updateActions s p ws with
          | error e => simp [ha, has] at h
          | ok as =>
              simp only [ha, has, Except.ok.injEq] at h
              subst h
              rcases List.mem_cons.mp hu with rfl | hu
              · exact ⟨a, List.mem_cons_self, ha⟩
              · obtain ⟨b, hb, hub⟩ := ih as has hu
                exact ⟨b, List.mem_cons_of_mem a hb, hub⟩

/-- A protected relation between nodes of the graph is a restructuring of it. -/
theorem Edge.Binds.restructures {s : GraphState rt} {e : Edge} (h : e.Binds s) (p : Patch rt) :
    restructuresProtectedRelation s p e.relation e.source e.target = true := by
  have known : ∀ x ∈ s.nodes, x ∉ newNodeIds s p := by
    intro x hx hnew
    simp only [newNodeIds, List.mem_filter, decide_eq_true_eq] at hnew
    exact hnew.2 hx
  simp [restructuresProtectedRelation, h.relation, known _ h.source, known _ h.target, h.belief]

/-- What an operation must leave alone in a graph. -/
structure GraphOperation.Spares (s : GraphState rt) (op : GraphOperation rt) : Prop where
  targets : ∀ id ∈ op.nodeTargets, id ∉ op.createdIds → isExistingProtectedNode s id = false
  written : ∀ e, op.Writes e → ¬e.Binds s
  unlinked : ∀ ids, op = .removeEdges ids → ∀ id ∈ ids, ∀ e, s.edges.get? id = some e →
    ¬e.Binds s

theorem nodeTargets_spared (s : GraphState rt) (ids : List String) (base protect : GraphAction)
    (h : protect ∉ nodeTargetActions s ids base protect) (id : String) (hid : id ∈ ids) :
    isExistingProtectedNode s id = false := by
  cases hp : isExistingProtectedNode s id with
  | false => rfl
  | true =>
      refine absurd (mem_orDefault _ base protect ?_) h
      exact List.mem_map.mpr ⟨id, hid, by simp [hp]⟩

/-- An operation of an agent that the authority gate lets through. -/
theorem spares_of_gate (s : GraphState rt) (p : Patch rt) (hauthor : p.author = some .agent)
    (hgate : rejected (validatePermissions s p) = false) (op : GraphOperation rt)
    (hop : op ∈ p.ops) : op.Spares s := by
  cases hlegacy : op.legacyOnly with
  | true =>
      cases op with
      | createAmbiguities _ | resolveAmbiguities _ | setCoverage _ =>
          exact ⟨fun _ h => (by cases h), fun _ h => h.elim, fun _ h => by cases h⟩
      | _ => cases hlegacy
  | false =>
      obtain ⟨actions, hactions, hpermits⟩ :=
        permits_of_validatePermissions s p hgate op hop hlegacy
      have refusal : ∀ a ∈ protectedActions, a ∉ actions := by
        intro a ha hmem
        have := hpermits a hmem
        rw [not_permits_agent p hauthor a ha] at this
        cases this
      cases op with
      | createNodes nodes =>
          exact ⟨fun id h hnot => absurd h hnot, fun _ h => h.elim, fun _ h => by cases h⟩
      | updateNodes updates =>
          refine ⟨fun id hid _ => ?_, fun _ h => h.elim, fun _ h => by cases h⟩
          obtain ⟨u, hu, rfl⟩ := List.mem_map.mp hid
          simp only [operationActions] at hactions
          cases has : updateActions s p updates with
          | error e => simp [has, Except.map] at hactions
          | ok as =>
              simp only [has, Except.map, Except.ok.injEq] at hactions
              obtain ⟨a, ha, hua⟩ := updateActions_ok s p updates as has u hu
              cases hp : isExistingProtectedNode s u.id with
              | false => rfl
              | true =>
                  simp only [updateAction, hp, if_true, Except.ok.injEq] at hua
                  refine absurd ?_ (refusal .updateProtectedEpistemic (by decide))
                  rw [← hactions]
                  exact mem_orDefault as _ _ (hua ▸ ha)
      | createEdges edges =>
          refine ⟨fun _ h => (by cases h), ?_, fun _ h => by cases h⟩
          rintro e ⟨raw, hraw, hrel, hsource, htarget⟩ hb
          cases hactions
          refine refusal .restructureProtectedEpistemic (by decide) (mem_orDefault _ _ _ ?_)
          refine List.mem_map.mpr ⟨raw, hraw, ?_⟩
          have := hb.restructures p
          rw [hrel, hsource, htarget] at this
          simp [createEdgeAction, this]
      | removeEdges ids =>
          refine ⟨fun _ h => (by cases h), fun _ h => h.elim, ?_⟩
          rintro ids' ⟨rfl⟩ id hid e he hb
          cases hactions
          refine refusal .restructureProtectedEpistemic (by decide) (mem_orDefault _ _ _ ?_)
          refine List.mem_map.mpr ⟨id, hid, ?_⟩
          have hold : id ∉ newEdgeIds s p := by
            intro hnew
            simp only [newEdgeIds, List.mem_filter, decide_eq_true_eq] at hnew
            exact hnew.2 (Dict.mem_of_get? he)
          simp [removeEdgeAction, he, hold, hb.relation, hb.belief]
      | removeNodes ids =>
          cases hactions
          exact ⟨fun id hid _ => nodeTargets_spared s ids _ _
            (refusal .removeProtectedEpistemic (by decide)) id hid, fun _ h => h.elim,
            fun _ h => by cases h⟩
      | supersedeNodes items =>
          cases hactions
          refine ⟨fun id hid _ => ?_, ?_, fun _ h => by cases h⟩
          · refine nodeTargets_spared s _ .supersedeNode .supersedeProtectedEpistemic (fun h => ?_)
              id hid
            exact refusal .supersedeProtectedEpistemic (by decide) (List.mem_append_left _ h)
          · rintro e ⟨-, i, hi, hrel, hsource, htarget⟩ hb
            refine refusal .restructureProtectedEpistemic (by decide) (List.mem_append_right _ ?_)
            refine List.mem_filterMap.mpr ⟨(i.id, e.target), ?_, ?_⟩
            · exact List.mem_filterMap.mpr ⟨i, hi, by simp [htarget]⟩
            · have := hb.restructures p
              rw [hrel, hsource] at this
              simp [this]
      | mergeNodes merges =>
          cases hactions
          refine ⟨fun id hid _ => ?_, ?_, fun _ h => by cases h⟩
          · refine nodeTargets_spared s _ .mergeNode .mergeProtectedEpistemic (fun h => ?_) id hid
            exact refusal .mergeProtectedEpistemic (by decide) (List.mem_append_left _ h)
          · rintro e ⟨-, m, hm, hrel, hsource, htarget⟩ hb
            refine refusal .restructureProtectedEpistemic (by decide) (List.mem_append_right _ ?_)
            refine List.mem_filterMap.mpr ⟨(m.duplicate, m.canonical), ?_, ?_⟩
            · exact List.mem_map.mpr ⟨m, hm, rfl⟩
            · have := hb.restructures p
              rw [hrel, hsource, htarget] at this
              simp [this]
      | setStanding id standing =>
          refine ⟨fun x hx _ => ?_, fun _ h => h.elim, fun _ h => by cases h⟩
          obtain rfl : x = id := by simpa [GraphOperation.nodeTargets] using hx
          cases hp : isExistingProtectedNode s x with
          | false => rfl
          | true =>
              simp only [operationActions, hp, Bool.true_or, if_true, Except.ok.injEq] at hactions
              refine absurd ?_ (refusal .updateProtectedEpistemic (by decide))
              rw [← hactions]
              exact List.mem_singleton_self _
      | _ => exact ⟨fun _ h => (by cases h), fun _ h => h.elim, fun _ h => by cases h⟩

end Gate

section Transition

/-- The beliefs of `s` at a point of a patch; `rest` of its operations is still to come. -/
structure BeliefsAt (s : GraphState rt) (all rest : List (GraphOperation rt))
    (u : GraphState rt) : Prop where
  keyed : u.Keyed
  kept : BeliefsKept s all u
  -- An edge that binds a belief was never written, so its layer stays as it is.
  unwritten : ∀ id e, e.Binds s → u.edges.get? id = some e →
    id ∈ all.flatMap createdEdgeIds → id ∈ rest.flatMap createdEdgeIds

theorem isExistingProtectedNode_of_get? (s : GraphState rt) (id : String) (n : ProjectNode rt)
    (hn : s.nodes.get? id = some n) :
    isExistingProtectedNode s id = n.type.isProtectedBelief := by
  simp [isExistingProtectedNode, hn]

theorem BeliefsAt.step (s : GraphState rt) (all rest : List (GraphOperation rt))
    (ctx : OpContext rt) (hmode : ctx.mode = .admission) (p : Patch rt) (op : GraphOperation rt)
    (hop : op ∈ all) (hspares : op.Spares s) (u v : GraphState rt) (ha : Alike ctx.state u)
    (hr : refused (patchRules ctx op) = false) (happ : applyOp p false op u = .ok v)
    (h : BeliefsAt s all (op :: rest) u) : BeliefsAt s all rest v := by
  obtain ⟨hkeyed, ⟨hnodes, hadded, hremoved⟩, hunwritten⟩ := h
  obtain ⟨hafter, hbefore⟩ := edges_applyOp p false op u v hkeyed happ
  have fresh : ∀ id e, u.edges.get? id = some e → id ∉ op.edgesWritten.map (·.1) := by
    intro id e he hid
    refine unwritten_of_accepted ctx hmode op hr id hid ?_
    have := ha.get?_edges id
    rw [he, Option.map_some] at this
    obtain ⟨e', he', -⟩ := Option.map_eq_some_iff.mp this
    exact Dict.mem_of_get? he'
  have old : ∀ id e, e.Binds s → v.edges.get? id = some e → u.edges.get? id = some e := by
    intro id e hb he
    rcases hafter id e he with he | ⟨-, hw⟩
    · exact he
    · exact absurd hb (hspares.written e hw)
  refine ⟨keyed_applyOp p false op u v hkeyed happ, ⟨fun id n hn hp => ?_, fun id e hb he => ?_,
    fun id e hb he => ?_⟩, fun id e hb he hall => ?_⟩
  · have hu := hnodes id n hn hp
    rw [← hu]
    refine get?_nodes_applyOp p false op u v hkeyed happ id fun htarget => ?_
    by_cases hc : id ∈ op.createdIds
    · cases op with
      | createNodes nodes =>
          obtain ⟨raw, hraw, rfl⟩ := List.mem_map.mp hc
          refine created_new ctx nodes hr raw hraw ?_
          rw [ha.nodes]
          exact Dict.mem_of_get? hu
      | _ => cases hc
    · have := hspares.targets id htarget hc
      rw [isExistingProtectedNode_of_get? s id n hn, hp] at this
      cases this
  · exact hadded id e hb (old id e hb he)
  · rcases hremoved id e hb he with hu | hgone
    · rcases hbefore id e hu with hv | hunlinks | hwritten
      · exact .inl hv
      · cases op with
        | removeEdges ids => exact absurd hb (hspares.unlinked ids rfl id hunlinks e he)
        | removeNodes ids =>
            refine .inr ⟨ids, hop, ?_⟩
            rcases hunlinks with hx | hx
            · exact ⟨e.source, hx, .inl rfl, hspares.targets _ hx (by simp [GraphOperation.createdIds])⟩
            · exact ⟨e.target, hx, .inr rfl, hspares.targets _ hx (by simp [GraphOperation.createdIds])⟩
        | _ => exact hunlinks.elim
      · exact absurd hwritten (fresh id e hu)
    · exact .inr hgone
  · have hu := old id e hb he
    rcases List.mem_append.mp (hunwritten id e hb hu hall) with hcreated | hrest
    · exact absurd (createdEdgeIds_written op id hcreated) (fresh id e hu)
    · exact hrest

theorem Edge.Binds.congr {s t : GraphState rt} (h : s.nodes = t.nodes) (e : Edge)
    (hb : e.Binds s) : e.Binds t := by
  have hprotected : isExistingProtectedNode t = isExistingProtectedNode s := by
    funext id
    simp only [isExistingProtectedNode, h]
  exact ⟨hb.relation, h ▸ hb.source, h ▸ hb.target, hprotected ▸ hb.belief⟩

/-- The gate may judge on any graph alike to the real one. -/
theorem GraphOperation.Spares.congr {s t : GraphState rt} (h : Alike s t)
    (op : GraphOperation rt) (hop : op.Spares s) : op.Spares t := by
  have hprotected : isExistingProtectedNode t = isExistingProtectedNode s := by
    funext id
    simp only [isExistingProtectedNode, h.nodes]
  refine ⟨hprotected ▸ hop.targets, fun e hw hb => hop.written e hw (hb.congr h.nodes.symm), ?_⟩
  intro ids hids id hid e he hb
  have hget := h.get?_edges id
  rw [he, Option.map_some] at hget
  obtain ⟨e', he', herased⟩ := Option.map_eq_some_iff.mp hget
  have hsource : e'.source = e.source := show e'.erased.source = e.erased.source by rw [herased]
  have htarget : e'.target = e.target := show e'.erased.target = e.erased.target by rw [herased]
  have hrelation : e'.relation = e.relation := show e'.erased.relation = e.erased.relation by rw [herased]
  refine hop.unlinked ids hids id hid e' he' (Edge.Binds.congr h.symm.nodes e' ?_)
  exact ⟨hrelation ▸ hb.relation, hsource ▸ hb.source, htarget ▸ hb.target,
    by rw [hsource, htarget]; exact hb.belief⟩

/-- A source patch of an agent, applied where both gates let it through. -/
theorem beliefsAt_source (project : Project rt) (revision : Nat) (raw source p : Patch rt)
    (hauthor : raw.author = some .agent) (happ : source.applies = p.applies)
    (hplain : source.transition = none) (here s t : GraphState rt) (ha : Alike here s)
    (hj : Admitted project revision [raw] here source)
    (hrun : Steps.run (applyOp p false) source.ops s = .ok t) (hs : s.Keyed) :
    BeliefsAt s source.ops [] t := by
  obtain ⟨raw', hraw, hsource, hgate, hissues⟩ := hj.gates hplain
  obtain rfl : raw' = raw := List.mem_singleton.mp hraw
  have hspares : ∀ op ∈ source.ops, op.Spares s := by
    intro op hop
    rw [hsource] at hop
    rcases mem_prepareOperations _ _ _ _ op hop with hop | ⟨ps, rfl⟩ | ⟨ts, rfl⟩
    · exact (spares_of_gate here { raw' with revision := revision } hauthor hgate op hop).congr ha
    · exact ⟨fun _ h => (by cases h), fun _ h => h.elim, fun _ h => by cases h⟩
    · exact ⟨fun _ h => (by cases h), fun _ h => h.elim, fun _ h => by cases h⟩
  refine patchIssues_run here source _ _ hissues p happ hplain
    (fun rest u => BeliefsAt s source.ops rest u) ?_ s t ha hrun ?_
  · rintro op rest ctx u v hop ⟨a, r, rfl⟩ hau hr happlied h
    exact h.step s source.ops rest _ (mode_admissionContext project here source) p op hop
      (hspares op hop) u v hau hr happlied
  · exact ⟨hs, ⟨fun _ _ h _ => h, fun _ _ _ h => h, fun _ _ _ h => .inl h⟩, fun _ _ _ _ h => h⟩

theorem JudgedRun.single {J : GraphState rt → Patch rt → Prop} {p : Patch rt}
    {sources : List (Patch rt)} {s u : GraphState rt} (h : JudgedRun J p sources s u)
    (hlength : sources.length = 1) :
    ∃ source here, sources = [source] ∧ source.applies = p.applies ∧ source.transition = none ∧
      Alike here s ∧ J here source ∧ Steps.run (applyOp p false) source.ops s = .ok u := by
  cases h with
  | nil => cases hlength
  | cons here s t u source rest envelope plain alike judged run tail =>
      obtain rfl : rest = [] := List.length_eq_zero_iff.mp (Nat.succ.inj hlength)
      cases tail
      exact ⟨source, here, rfl, envelope, plain, alike, judged, run⟩

theorem removeNodes_prepared (here : GraphState rt) (raw : Patch rt) (ids : List String)
    (h : .removeNodes ids ∈ (preparePatchBookkeeping here raw).ops) : .removeNodes ids ∈ raw.ops := by
  rcases mem_prepareOperations _ _ _ _ _ h with h | ⟨ps, hps⟩ | ⟨ts, hts⟩
  · exact h
  · cases hps
  · cases hts

/-- A patch of an agent that both gates admit keeps the protected beliefs of every
reached graph through its whole transition, generated operations included. -/
theorem beliefs_of_agentAppend (project : Project rt) (s : GraphState rt)
    (hs : Reachable (fun _ _ => True) s) (revision : Nat) (raw : Patch rt)
    (hauthor : raw.author = some .agent) (sources : AdmittedSources rt)
    (preHead : Option GraphHeadRef) (most : Nat) (prepared : PreparedTransition rt)
    (hgates : admitSources project s.revision revision [raw] s = .ok sources)
    (hprepared : prepareValidated s sources.patches preHead most = .ok prepared) :
    BeliefsKept s raw.ops prepared.graph := by
  have hkeyed := keyed_of_reachable s hs
  obtain ⟨admitted, generated, u, v, hrun⟩ :=
    appended_run project s revision [raw] sources preHead most prepared hgates hprepared
  obtain ⟨source, here, rfl, happ, hplain, ha, hj, hsource⟩ := hrun.judged.single hrun.count
  obtain ⟨hukeyed, hkept, hunwritten⟩ := beliefsAt_source project revision raw source prepared.patch
    hauthor happ hplain here s u ha hj hsource hkeyed
  obtain ⟨hedges, htypes, hnodes⟩ := marks_run prepared.patch generated u v hrun.marks hukeyed
    hrun.marked
  obtain ⟨raw', hraw, hprep, -⟩ := hj
  obtain rfl : raw' = raw := List.mem_singleton.mp hraw
  have hcreated : prepared.patch.ops.flatMap createdEdgeIds = source.ops.flatMap createdEdgeIds := by
    simpa using hrun.created
  rw [hrun.graph, hcreated]
  refine ⟨fun id n hn hp => ?_, fun id e hb he => ?_, fun id e hb he => ?_⟩
  · have hu := hkept.nodes id n hn hp
    rw [← hu, ← hnodes id ?_]
    · exact congrArg (·.get? id) (relayer_alike _ v).nodes
    · rw [GraphState.nodeType?, hu, Option.map_some]
      intro htype
      rw [Option.some.inj htype] at hp
      cases hp
  · change (relayer _ v).edges.get? id = some e at he
    rw [get?_relayer, hedges] at he
    split at he
    next hid =>
      obtain ⟨e', he', rfl⟩ := Option.map_eq_some_iff.mp he
      have hb' : e'.Binds s := ⟨hb.relation, hb.source, hb.target, hb.belief⟩
      cases hunwritten id e' hb' he' hid
    next => exact hkept.added id e hb he
  · rcases hkept.removed id e hb he with hu | ⟨ids, hids, hgone⟩
    · refine .inl ?_
      change (relayer _ v).edges.get? id = some e
      rw [get?_relayer, hedges, if_neg (hunwritten id e hb hu · |> List.not_mem_nil), hu]
    · refine .inr ⟨ids, ?_, hgone⟩
      rw [hprep] at hids
      exact removeNodes_prepared here { raw' with revision := revision } ids hids

/-- An agent files a further question below one that is there. -/
def askedFurther : Patch .plain :=
  firstPatch
    [ .createNodes [questionDraft "rq/c"], .createEdges [subquestionDraft "rq/a" "rq/c"] ]

theorem beliefs_of_askedFurther :
    ∃ s prepared, applyValidPatch (.initial .plain ["repo"]) relatedQuestions = .ok s ∧
      s.nodes.keys = ["rq/a", "rq/b"] ∧
      nextAppend Project.solo (s.record []) [askedFurther] = some prepared ∧
      BeliefsKept (s.record []) askedFurther.ops prepared.graph := by
  have happend : ∃ s, applyValidPatch (.initial .plain ["repo"]) relatedQuestions = .ok s ∧
      s.nodes.keys = ["rq/a", "rq/b"] ∧
      (nextAppend Project.solo (s.record []) [askedFurther]).isSome = true :=
    ⟨_, rfl, rfl, by decide +kernel⟩
  obtain ⟨s, hs, hkeys, hsome⟩ := happend
  obtain ⟨prepared, hp⟩ := Option.isSome_iff_exists.mp hsome
  obtain ⟨sources, hgates, hprepared⟩ := nextAppend_ok _ _ _ prepared hp
  refine ⟨s, prepared, hs, hkeys, hp, beliefs_of_agentAppend Project.solo _ ?_ _ askedFurther rfl
    sources none _ prepared hgates hprepared⟩
  exact .accept _ s relatedQuestions { projectTruthScope := ["repo"] } {} [] (.initial ["repo"])
    trivial (by decide) hs

end Transition

end RcpGraph
