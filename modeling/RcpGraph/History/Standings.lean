import RcpGraph.History.Trace

/-!
The standings a refresh delta reports. `standingTransitionEntries` reads them off
the syntax of the accepted patches; the theorems compare what it lists with the
standings that the nodes have around every operation of the replay.
-/

namespace RcpGraph

variable {rt : Runtime}

namespace RefreshDelta

/-- `_MAX_TITLE_CHARS`. -/
def maxTitleChars : Nat := 240

inductive Category where
  | currentContested
  | standingTransition
  | humanProseEdit
  | nodeRemoval
  | chatGraphUpdate
  | proposalDecision
  | ambiguityDecision
  deriving DecidableEq, Repr

def Category.name : Category → String
  | currentContested => "current_contested"
  | standingTransition => "standing_transition"
  | humanProseEdit => "human_prose_edit"
  | nodeRemoval => "node_removal"
  | chatGraphUpdate => "chat_graph_update"
  | proposalDecision => "proposal_decision"
  | ambiguityDecision => "ambiguity_decision"

inductive Outcome where
  | approved
  | rejected
  | withdrawn
  | resolved
  | dismissed
  deriving DecidableEq, Repr

/-- What the constructor of an entry is given. -/
structure EntryFields where
  category : Category
  targetId : String
  targetType : String
  title : String := ""
  revision : Nat
  author : Option Author
  fieldNames : List String := []
  previousStanding : Option Standing := none
  currentStanding : Option Standing := none
  decision : Option Outcome := none
  deriving DecidableEq, Repr

/-- `RefreshDeltaEntry`: the fields that passed its model's validation. -/
structure Entry extends EntryFields where
  title_ok : title.length ≤ maxTitleChars
  author_ok : author.isSome
  deriving DecidableEq, Repr

/-- Validation of an entry when it is built. -/
def EntryFields.validate (e : EntryFields) : Except String Entry :=
  if title : e.title.length ≤ maxTitleChars then
    if author : e.author.isSome then .ok ⟨e, title, author⟩
    else .error "Input should be 'agent' or 'human'"
  else .error ("String should have at most " ++ toString maxTitleChars ++ " characters")

/-- `_bounded_title`. -/
def boundedTitle (value : String) : String := String.ofList (value.toList.take maxTitleChars)

theorem length_boundedTitle (value : String) : (boundedTitle value).length ≤ maxTitleChars := by
  simp [boundedTitle, List.length_take]

/-- `node.type if node else "node"`. -/
def targetType (s : GraphState rt) (id : String) : String :=
  ((s.nodes.get? id).map fun n => n.type.name).getD "node"

def titleOf (s : GraphState rt) (id : String) : String :=
  ((s.nodes.get? id).map fun n => n.text "title").getD ""

/-- `_standing_entry`. -/
def standingEntry (s : GraphState rt) (p : Patch rt) (id : String) (before after : Standing) :
    Except String Entry :=
  EntryFields.validate
    { category := .standingTransition
      targetId := id
      targetType := targetType s id
      title := boundedTitle (titleOf s id)
      revision := p.revision
      author := p.author
      fieldNames := ["standing"]
      previousStanding := some before
      currentStanding := some after }

/-- `_nodes_reset_by_operation`. -/
def nodesResetByOperation : GraphOperation rt → List String
  | .updateNodes updates => updates.map (·.id)
  | .supersedeNodes items => items.map (·.id)
  | .mergeNodes merges => merges.map (·.duplicate)
  | _ => []

/-- The locals of `_standing_transition_entries`. -/
structure Scan where
  standings : Dict String Standing := .empty
  entries : List Entry := []

/-- One standing the scan reads off an operation. -/
def Scan.note (s : GraphState rt) (p : Patch rt) (after : Standing) (id : String) (scan : Scan) :
    Except String Scan :=
  let before := scan.standings.getD id .asserted
  let standings := scan.standings.insert id after
  if before = after then .ok { scan with standings := standings }
  else
    match standingEntry s p id before after with
    | .error text => .error text
    | .ok e => .ok ⟨standings, scan.entries ++ [e]⟩

def Scan.operation (s : GraphState rt) (p : Patch rt) (op : GraphOperation rt) (scan : Scan) :
    Except String Scan :=
  match op with
  | .createNodes nodes =>
      .ok
        { scan with
          standings := nodes.foldl (fun d raw => d.insert raw.id (raw.standing.getD .asserted))
            scan.standings }
  | .setStanding id standing => scan.note s p standing id
  | op =>
      if p.kind = .approval then .ok scan
      else Steps.run (Scan.note s p .asserted) (nodesResetByOperation op) scan

/-- `_standing_transition_entries`. -/
def standingTransitionEntries (patches : List (Patch rt)) (s : GraphState rt) :
    Except String (List Entry) :=
  (Steps.run (fun p => Steps.run (Scan.operation s p) p.ops) patches {}).map Scan.entries

/-- The entry of one contested node. -/
def contestedEntry (transitions : List Entry) (n : ProjectNode rt) : Except String Entry :=
  let transition := transitions.reverse.find? fun e =>
    decide (e.targetId = n.id ∧ e.currentStanding = some .contested)
  EntryFields.validate
    { category := .currentContested
      targetId := n.id
      targetType := n.type.name
      title := boundedTitle (n.text "title")
      revision := (transition.map fun e => e.revision).getD n.updatedRev
      author := (transition.map fun e => e.author).getD (some .human)
      fieldNames := ["standing"]
      previousStanding := transition.bind fun e => e.previousStanding
      currentStanding := some n.standing }

/-- `_current_contested_entries`. -/
def currentContestedEntries (s : GraphState rt) (transitions : List Entry) :
    Except String (List Entry) :=
  ((Text.sortedByKey (fun n : ProjectNode rt => n.id) s.nodes.values).filter fun n =>
    decide (n.standing = .contested)).mapM (contestedEntry transitions)

end RefreshDelta

/-- The standing of a node that is there. -/
def standingAt (s : GraphState rt) (id : String) : Option Standing :=
  (s.nodes.get? id).map (·.standing)

section Effect

variable (p : Patch rt)

/-- The nodes whose standing an operation other than a creation writes, and what it writes. -/
def standingWrites (op : GraphOperation rt) : List String × Standing :=
  match op with
  | .setStanding id standing => ([id], standing)
  | op => (if p.kind = .approval then [] else RefreshDelta.nodesResetByOperation op, .asserted)

/-- One item gives a node that is there a standing and leaves the others alone. -/
def Stands (id : String) (after : Standing) (s t : GraphState rt) : Prop :=
  (standingAt s id).isSome ∧ ∀ x, standingAt t x = if x = id then some after else standingAt s x

theorem stands_insert {s : GraphState rt} {id : String} {n : ProjectNode rt}
    (hn : s.nodes.get? id = some n) (m : ProjectNode rt) (t : GraphState rt)
    (ht : t.nodes = s.nodes.insert id m) : Stands id m.standing s t := by
  constructor
  · simp [standingAt, hn]
  · intro x
    by_cases hx : x = id <;> simp [standingAt, ht, hx]

theorem stands_updateNode (generated : Bool) (u : NodeUpdate) (s t : GraphState rt) (hs : s.Keyed)
    (h : updateNode p generated u s = .ok t) :
    ∃ n, s.nodes.get? u.id = some n ∧
      Stands u.id (if p.kind = .approval then n.standing else .asserted) s t := by
  obtain ⟨n, m, hn, -, hm, rfl⟩ := updateNode_ok p generated u s t h
  obtain ⟨-, -, -, -, hstanding, -⟩ := ProjectNode.revise_ok _ _ _ _ _ _ hm
  refine ⟨n, hn, ?_⟩
  rw [← hstanding]
  exact stands_insert hn m _ (by simp [hs u.id n hn])

theorem stands_retireNode (id : String) (cause : Option BeliefCause) (s t : GraphState rt)
    (h : retireNode p id cause s = .ok t) :
    ∃ n, s.nodes.get? id = some n ∧
      Stands id (if p.kind = .approval then n.standing else .asserted) s t := by
  obtain ⟨n, m, hn, hm, rfl⟩ := retireNode_ok p id cause s t h
  obtain ⟨-, -, -, -, hstanding, -⟩ := ProjectNode.revise_ok _ _ _ _ _ _ hm
  have hm' : m.standing = if p.kind = .approval then n.standing else .asserted := by
    simpa using hstanding
  refine ⟨n, hn, ?_⟩
  rw [← hm']
  exact stands_insert hn m _ (by simp)

/-- The items of an operation that rewrites nodes, one after another. -/
theorem stands_item (generated : Bool) :
    (∀ u s t, s.Keyed → updateNode p generated u s = .ok t → ∃ n, s.nodes.get? u.id = some n ∧
        Stands u.id (if p.kind = .approval then n.standing else .asserted) s t) ∧
      (∀ i s t, s.Keyed → supersedeNode p i s = .ok t → ∃ n, s.nodes.get? i.id = some n ∧
        Stands i.id (if p.kind = .approval then n.standing else .asserted) s t) ∧
      ∀ m s t, s.Keyed → mergeNode p m s = .ok t → ∃ n, s.nodes.get? m.duplicate = some n ∧
        Stands m.duplicate (if p.kind = .approval then n.standing else .asserted) s t := by
  refine ⟨fun u s t hs h => stands_updateNode p generated u s t hs h, ?_, ?_⟩
  · intro i s t _ h
    obtain ⟨u, hu, rfl⟩ := supersedeNode_ok p i s t h
    obtain ⟨n, hn, hstands⟩ := stands_retireNode p i.id i.cause s u hu
    refine ⟨n, hn, ?_⟩
    cases i.edge? p.revision <;> exact hstands
  · intro m s t _ h
    obtain ⟨u, hu, rfl⟩ := mergeNode_ok p m s t h
    exact stands_retireNode p m.duplicate m.cause s u hu

/-- What an operation does to the standings of the nodes that stay. -/
def Writes (ids : List String) (after : Standing) (s t : GraphState rt) : Prop :=
  (∀ x ∈ ids, (standingAt s x).isSome ∧ standingAt t x = some after) ∧
    ∀ x, x ∉ ids → standingAt t x = standingAt s x ∨ standingAt t x = none

/-- A run of items: outside approvals every named node is asserted, in one all keep theirs. -/
theorem writes_run {α : Type} (f : α → GraphState rt → Except String (GraphState rt))
    (id : α → String)
    (step : ∀ a s t, s.Keyed → f a s = .ok t → Rewrites (id a) s t ∧
      ∃ n, s.nodes.get? (id a) = some n ∧
        Stands (id a) (if p.kind = .approval then n.standing else .asserted) s t)
    (as : List α) (s t : GraphState rt) (hs : s.Keyed) (h : Steps.run f as s = .ok t) :
    Writes (if p.kind = .approval then [] else as.map id) .asserted s t := by
  induction as generalizing s with
  | nil =>
      cases h
      exact ⟨by simp, fun x _ => .inl rfl⟩
  | cons a as ih =>
      obtain ⟨u, hu, hrun⟩ := (Steps.run_cons_ok _ _ _ _ _).mp h
      obtain ⟨hrewrites, n, hn, hsome, hother⟩ := step a s u hs hu
      obtain ⟨hnamed, hrest⟩ := ih u (hrewrites.keyed hs) hrun
      by_cases happroval : p.kind = .approval
      · simp only [happroval, if_true] at hnamed hrest hother ⊢
        have hsame : ∀ x, standingAt u x = standingAt s x := by
          intro x
          rw [hother x]
          by_cases hx : x = id a <;> simp [hx, standingAt, hn]
        refine ⟨by simp, fun x _ => ?_⟩
        rw [← hsame x]
        exact hrest x (by simp)
      · simp only [happroval, if_false] at hnamed hrest hother ⊢
        constructor
        · intro x hx
          by_cases htail : x ∈ as.map id
          · obtain ⟨husome, ht⟩ := hnamed x htail
            refine ⟨?_, ht⟩
            rw [hother x] at husome
            by_cases hxa : x = id a
            · rw [hxa]
              exact hsome
            · rw [if_neg hxa] at husome
              exact husome
          · have hxa : x = id a := by
              rw [List.map_cons, List.mem_cons] at hx
              exact hx.resolve_right htail
            subst hxa
            refine ⟨hsome, ?_⟩
            have hu := hother (id a)
            rw [if_pos rfl] at hu
            rcases hrest (id a) htail with heq | hnone
            · rw [heq, hu]
            · have hmem := run_mem f as id (fun b _ s t hs hf => (step b s t hs hf).1) u t
                (hrewrites.keyed hs) hrun (id a)
              rw [Dict.mem_iff_isSome, Dict.mem_iff_isSome] at hmem
              simp only [standingAt, Option.map_eq_none_iff] at hnone
              rw [standingAt] at hu
              rw [hnone] at hmem
              cases hget : u.nodes.get? (id a) with
              | none => simp [hget] at hu
              | some k => simp [hget] at hmem
        · intro x hx
          rw [List.map_cons, List.mem_cons, not_or] at hx
          have hu := hother x
          rw [if_neg hx.1] at hu
          rw [← hu]
          exact hrest x hx.2

/-- The standings around one operation that creates no node. -/
theorem writes_applyOp (generated : Bool) (op : GraphOperation rt) (s t : GraphState rt)
    (hs : s.Keyed) (hop : ∀ nodes, op ≠ .createNodes nodes)
    (h : applyOp p generated op s = .ok t) :
    Writes (standingWrites p op).1 (standingWrites p op).2 s t := by
  obtain ⟨hupdate, hsupersede, hmerge⟩ := stands_item p generated
  obtain ⟨hupdate', hsupersede', hmerge'⟩ := applyOp_rewrites p generated
  have hother : op.nodeTargets = [] → Writes [] .asserted s t := by
    intro htargets
    refine ⟨by simp, fun x _ => .inl ?_⟩
    rw [standingAt, standingAt, nodes_applyOp_other p generated op htargets s t h]
  cases op with
  | createNodes nodes => exact absurd rfl (hop nodes)
  | updateNodes updates =>
      exact writes_run p _ (·.id)
        (fun u s t hs h => ⟨hupdate' u s t hs h, hupdate u s t hs h⟩) updates s t hs h
  | supersedeNodes items =>
      exact writes_run p _ (·.id)
        (fun i s t hs h => ⟨hsupersede' i s t hs h, hsupersede i s t hs h⟩) items s t hs h
  | mergeNodes merges =>
      exact writes_run p _ (·.duplicate)
        (fun m s t hs h => ⟨hmerge' m s t hs h, hmerge m s t hs h⟩) merges s t hs h
  | setStanding id standing =>
      obtain ⟨n, hn, rfl⟩ := setStanding_ok p.revision id standing s t h
      have hstands := stands_insert hn (n.withStanding standing p.revision)
        { s with nodes := s.nodes.insert n.id (n.withStanding standing p.revision) }
        (by simp [hs id n hn])
      constructor
      · intro x hx
        rw [standingWrites, List.mem_singleton] at hx
        subst hx
        refine ⟨hstands.1, ?_⟩
        rw [hstands.2, if_pos rfl]
        rfl
      · intro x hx
        rw [standingWrites, List.mem_singleton] at hx
        rw [hstands.2, if_neg hx]
        exact .inl rfl
  | removeNodes ids =>
      cases h
      have hnone : (standingWrites p (.removeNodes ids : GraphOperation rt)).1 = [] := by
        simp [standingWrites, RefreshDelta.nodesResetByOperation]
      rw [hnone]
      refine ⟨by simp, fun x _ => ?_⟩
      by_cases hx : x ∈ ids
      · right
        simp only [standingAt, removeNodes, Dict.get?_filter]
        cases s.nodes.get? x <;> simp [Option.filter, hx]
      · left
        simp only [standingAt, removeNodes, Dict.get?_filter]
        cases s.nodes.get? x <;> simp [Option.filter, hx]
  | createEdges edges | removeEdges ids | createAmbiguities as | resolveAmbiguities rs
  | createProposals ps | resolveProposals rs | withdrawProposals ws | upsertGlossary ts
  | setCoverage c | setProjectTruthScope scope repository | setOntology ontology =>
      have hnone := hother rfl
      simpa [standingWrites, RefreshDelta.nodesResetByOperation] using hnone

end Effect

namespace RefreshDelta

/-- The entry of one change of a node's standing by one patch. -/
structure Entry.Of (e : Entry) (p : Patch rt) (id : String) (before after : Standing) : Prop where
  category : e.category = .standingTransition
  target : e.targetId = id
  revision : e.revision = p.revision
  author : e.author = p.author
  fields : e.fieldNames = ["standing"]
  previous : e.previousStanding = some before
  current : e.currentStanding = some after

theorem standingEntry_ok (s : GraphState rt) (p : Patch rt) (id : String) (before after : Standing)
    (ha : p.author.isSome) :
    ∃ e, standingEntry s p id before after = .ok e ∧ e.Of p id before after := by
  simp only [standingEntry, EntryFields.validate, length_boundedTitle, ha, dif_pos]
  exact ⟨_, rfl, ⟨rfl, rfl, rfl, rfl, rfl, rfl, rfl⟩⟩

/-- What a scan notes when it reads off that some nodes now have one standing. -/
structure Noted (p : Patch rt) (ids : List String) (after : Standing) (scan scan' : Scan)
    (group : List Entry) : Prop where
  entries : scan'.entries = scan.entries ++ group
  standings : ∀ x, scan'.standings.get? x = if x ∈ ids then some after else scan.standings.get? x
  nodup : (group.map fun e => e.targetId).Nodup
  only : ∀ e ∈ group, e.targetId ∈ ids ∧ scan.standings.getD e.targetId .asserted ≠ after ∧
    e.Of p e.targetId (scan.standings.getD e.targetId .asserted) after
  complete : ∀ id ∈ ids, scan.standings.getD id .asserted ≠ after → ∃ e ∈ group, e.targetId = id

theorem Noted.nothing (p : Patch rt) (after : Standing) (scan : Scan) :
    Noted p [] after scan scan [] where
  entries := by simp
  standings := by simp
  nodup := List.nodup_nil
  only := by simp
  complete := by simp

theorem note_ok (s : GraphState rt) (p : Patch rt) (after : Standing) (id : String) (scan : Scan)
    (ha : p.author.isSome) :
    ∃ scan' group, scan.note s p after id = .ok scan' ∧ Noted p [id] after scan scan' group := by
  by_cases hsame : scan.standings.getD id .asserted = after
  · refine ⟨{ scan with standings := scan.standings.insert id after }, [], ?_, ?_⟩
    · rw [Scan.note, if_pos hsame]
    · constructor
      · simp
      · simp
      · simp
      · simp
      · intro x hx hne
        rw [List.mem_singleton] at hx
        subst hx
        exact absurd hsame hne
  · obtain ⟨e, he, hof⟩ := standingEntry_ok s p id (scan.standings.getD id .asserted) after ha
    refine ⟨⟨scan.standings.insert id after, scan.entries ++ [e]⟩, [e], ?_, ?_⟩
    · rw [Scan.note, if_neg hsame, he]
    · constructor
      · rfl
      · simp
      · simp
      · intro e' he'
        rw [List.mem_singleton] at he'
        subst he'
        rw [hof.target]
        exact ⟨List.mem_singleton_self _, hsame, hof⟩
      · intro x hx _
        rw [List.mem_singleton] at hx
        exact ⟨e, List.mem_singleton_self _, hof.target.trans hx.symm⟩

/-- Noting one node and then others. -/
theorem Noted.cons {p : Patch rt} {id : String} {ids : List String} {after : Standing}
    {scan scan' scan'' : Scan} {first rest : List Entry} (h : Noted p [id] after scan scan' first)
    (h' : Noted p ids after scan' scan'' rest) :
    Noted p (id :: ids) after scan scan'' (first ++ rest) := by
  have hget : ∀ x, scan'.standings.getD x .asserted =
      if x = id then after else scan.standings.getD x .asserted := by
    intro x
    rw [Dict.getD, Dict.getD, h.standings x]
    by_cases hx : x = id <;> simp [hx]
  constructor
  · rw [h'.entries, h.entries, List.append_assoc]
  · intro x
    rw [h'.standings, h.standings]
    by_cases hx : x ∈ ids <;> by_cases hxi : x = id <;> simp [hx, hxi]
  · rw [List.map_append, List.nodup_append]
    refine ⟨h.nodup, h'.nodup, ?_⟩
    -- A node noted before has the standing already and gets no second entry.
    intro x hx y hy hxy
    obtain ⟨e, he, rfl⟩ := List.mem_map.mp hx
    obtain ⟨e', he', rfl⟩ := List.mem_map.mp hy
    obtain ⟨-, hne, -⟩ := h'.only e' he'
    have hid := (h.only e he).1
    rw [List.mem_singleton] at hid
    rw [hget, if_pos (hxy ▸ hid)] at hne
    exact hne rfl
  · intro e he
    rcases List.mem_append.mp he with he | he
    · obtain ⟨hid, hne, hof⟩ := h.only e he
      rw [List.mem_singleton] at hid
      exact ⟨by simp [hid], hne, hof⟩
    · obtain ⟨hid, hne, hof⟩ := h'.only e he
      rw [hget] at hne hof
      have hx : e.targetId ≠ id := by
        intro hx
        rw [if_pos hx] at hne
        exact hne rfl
      rw [if_neg hx] at hne hof
      exact ⟨List.mem_cons_of_mem _ hid, hne, hof⟩
  · intro x hx hne
    by_cases hxi : x = id
    · obtain ⟨e, he, htarget⟩ := h.complete x (by simp [hxi]) hne
      exact ⟨e, List.mem_append_left _ he, htarget⟩
    · have hmem : x ∈ ids := (List.mem_cons.mp hx).resolve_left hxi
      obtain ⟨e, he, htarget⟩ := h'.complete x hmem (by rw [hget, if_neg hxi]; exact hne)
      exact ⟨e, List.mem_append_right _ he, htarget⟩

theorem notes_ok (s : GraphState rt) (p : Patch rt) (after : Standing) (ids : List String)
    (scan : Scan) (ha : p.author.isSome) :
    ∃ scan' group, Steps.run (Scan.note s p after) ids scan = .ok scan' ∧
      Noted p ids after scan scan' group := by
  induction ids generalizing scan with
  | nil => exact ⟨scan, [], rfl, .nothing p after scan⟩
  | cons id ids ih =>
      obtain ⟨scan', first, hfirst, hnoted⟩ := note_ok s p after id scan ha
      obtain ⟨scan'', rest, hrest, hnoted'⟩ := ih scan'
      refine ⟨scan'', first ++ rest, ?_, hnoted.cons hnoted'⟩
      exact (Steps.run_cons_ok _ _ _ _ _).mpr ⟨scan', hfirst, hrest⟩

/-- An operation that creates no node is scanned as the standings it writes. -/
theorem operation_ok (s : GraphState rt) (p : Patch rt) (op : GraphOperation rt) (scan : Scan)
    (ha : p.author.isSome) (hop : ∀ nodes, op ≠ .createNodes nodes) :
    ∃ scan' group, scan.operation s p op = .ok scan' ∧
      Noted p (standingWrites p op).1 (standingWrites p op).2 scan scan' group := by
  have hplain : ∀ ids, ∃ scan' group,
      (if p.kind = .approval then .ok scan else Steps.run (Scan.note s p .asserted) ids scan) =
        (.ok scan' : Except String Scan) ∧
      Noted p (if p.kind = .approval then [] else ids) .asserted scan scan' group := by
    intro ids
    by_cases happroval : p.kind = .approval
    · simp only [happroval, if_true]
      exact ⟨scan, [], rfl, .nothing p _ scan⟩
    · simp only [happroval, if_false]
      exact notes_ok s p .asserted ids scan ha
  cases op with
  | createNodes nodes => exact absurd rfl (hop nodes)
  | setStanding id standing => exact note_ok s p standing id scan ha
  | _ => exact hplain _

/-- The scan knows the standing of every node of a graph. -/
def Scan.Knows (scan : Scan) (s : GraphState rt) : Prop :=
  ∀ id standing, standingAt s id = some standing → scan.standings.get? id = some standing

end RefreshDelta

/-- A group of entries lists exactly the changes of standing by one operation. -/
structure OpStep.Lists (st : OpStep rt) (group : List RefreshDelta.Entry) : Prop where
  nodup : (group.map fun e => e.targetId).Nodup
  only : ∀ e ∈ group, ∃ before after, before ≠ after ∧
    standingAt st.before e.targetId = some before ∧ standingAt st.after e.targetId = some after ∧
    e.Of st.patch e.targetId before after
  complete : ∀ id before after, standingAt st.before id = some before →
    standingAt st.after id = some after → before ≠ after → ∃ e ∈ group, e.targetId = id

namespace RefreshDelta

/-- The standing a batch of creations gives to a node. -/
def createdStanding (nodes : List (RawNode rt)) (x : String) : Option Standing :=
  (nodes.reverse.find? fun raw => raw.id = x).map fun raw => raw.standing.getD .asserted

/-- What creations leave in the standings of a scan. -/
theorem get?_created (nodes : List (RawNode rt)) (d : Dict String Standing) (x : String) :
    (nodes.foldl (fun d raw => d.insert raw.id (raw.standing.getD .asserted)) d).get? x =
      (createdStanding nodes x).or (d.get? x) := by
  induction nodes generalizing d with
  | nil => rfl
  | cons raw nodes ih =>
      rw [List.foldl_cons, ih, createdStanding, createdStanding, List.reverse_cons,
        List.find?_append]
      cases nodes.reverse.find? fun raw => raw.id = x with
      | some r => rfl
      | none =>
          simp only [Dict.get?_insert, Option.none_or, List.find?_cons, List.find?_nil]
          by_cases hx : raw.id = x
          · simp [hx]
          · simp [hx, Ne.symm hx]

theorem standingAt_created (p : Patch rt) (generated : Bool) (nodes : List (RawNode rt))
    (s t : GraphState rt) (h : applyOp p generated (.createNodes nodes) s = .ok t) (x : String) :
    standingAt t x = (createdStanding nodes x).or (standingAt s x) := by
  cases h
  rw [standingAt, get?_createNodes, createdStanding]
  cases nodes.reverse.find? fun raw => raw.id = x <;> rfl

/-- Judged creations only give standings to nodes that were not there. -/
theorem absent_of_created (st : OpStep rt) (hst : st.Sound) (nodes : List (RawNode rt))
    (hop : st.op = .createNodes nodes) (x : String) (h : (createdStanding nodes x).isSome) :
    standingAt st.before x = none := by
  simp only [createdStanding, Option.isSome_map] at h
  obtain ⟨raw, hraw⟩ := Option.isSome_iff_exists.mp h
  have hmem : raw ∈ nodes := by simpa using List.mem_of_find?_eq_some hraw
  have hid : raw.id = x := by simpa using List.find?_some hraw
  have hfresh := hst.fresh nodes hop raw hmem
  rw [hid, Dict.not_mem_iff] at hfresh
  simp [standingAt, hfresh]

/-- One operation of the replay is scanned as it changed the standings. -/
theorem operation_lists (final : GraphState rt) (st : OpStep rt) (hst : st.Sound) (scan : Scan)
    (h : scan.Knows st.before) :
    ∃ scan' group, scan.operation final st.patch st.op = .ok scan' ∧
      scan'.entries = scan.entries ++ group ∧ scan'.Knows st.after ∧ st.Lists group := by
  have hrun := hst.runs
  have ha : st.patch.author.isSome := by simp [hst.author]
  by_cases hcreate : ∃ nodes, st.op = .createNodes nodes
  · obtain ⟨nodes, hop⟩ := hcreate
    rw [hop] at hrun
    have hafter := standingAt_created st.patch st.generated nodes st.before st.after hrun
    rw [hop]
    refine ⟨_, [], rfl, by simp, ?_, ?_⟩
    · intro id standing hid
      rw [hafter] at hid
      rw [get?_created]
      cases hcreated : createdStanding nodes id with
      | some c =>
          rw [hcreated] at hid
          exact hid
      | none =>
          rw [hcreated, Option.none_or] at hid
          exact h id standing hid
    · refine ⟨by simp, by simp, ?_⟩
      intro id before after hbefore hnow hne
      cases hcreated : createdStanding nodes id with
      | some c =>
          have habsent := absent_of_created st hst nodes hop id (by simp [hcreated])
          rw [hbefore] at habsent
          cases habsent
      | none =>
          rw [hafter, hcreated, Option.none_or, hbefore] at hnow
          cases hnow
          exact absurd rfl hne
  · obtain ⟨scan', group, hscan, hnoted⟩ := operation_ok final st.patch st.op scan ha
      (fun nodes hop => hcreate ⟨nodes, hop⟩)
    obtain ⟨hnamed, hother⟩ := writes_applyOp st.patch st.generated st.op st.before st.after hst.keyed
      (fun nodes hop => hcreate ⟨nodes, hop⟩) hrun
    refine ⟨scan', group, hscan, hnoted.entries, ?_, ?_⟩
    · intro id standing hid
      rw [hnoted.standings]
      by_cases hmem : id ∈ (standingWrites st.patch st.op).1
      · rw [if_pos hmem, ← (hnamed id hmem).2]
        exact hid
      · rw [if_neg hmem]
        rcases hother id hmem with hsame | hnone
        · apply h
          rw [← hsame]
          exact hid
        · rw [hnone] at hid
          cases hid
    · refine ⟨hnoted.nodup, ?_, ?_⟩
      · intro e he
        obtain ⟨hmem, hne, hof⟩ := hnoted.only e he
        obtain ⟨hsome, hafter⟩ := hnamed e.targetId hmem
        obtain ⟨before, hbefore⟩ := Option.isSome_iff_exists.mp hsome
        have hknown := h e.targetId before hbefore
        rw [Dict.getD, hknown, Option.getD_some] at hne hof
        exact ⟨before, _, hne, hbefore, hafter, hof⟩
      · intro id before after hbefore hafter hne
        by_cases hmem : id ∈ (standingWrites st.patch st.op).1
        · apply hnoted.complete id hmem
          rw [Dict.getD, h id before hbefore, Option.getD_some]
          have hc := (hnamed id hmem).2
          rw [hafter] at hc
          cases hc
          exact hne
        · rcases hother id hmem with hsame | hnone
          · rw [hafter, hbefore] at hsame
            cases hsame
            exact absurd rfl hne
          · rw [hafter] at hnone
            cases hnone

/-- The operations of one patch are scanned as they changed the standings. -/
theorem operations_listed (final : GraphState rt) (p : Patch rt) (generated : List Nat)
    (ops : List (GraphOperation rt × Nat)) (s t : GraphState rt)
    (hrun : Steps.run (fun (op, i) => applyOp p (decide (i ∈ generated)) op) ops s = .ok t)
    (hsound : ∀ st ∈ opSteps p generated ops s, st.Sound) (scan : Scan) (h : scan.Knows s) :
    ∃ scan' groups, Steps.run (Scan.operation final p) (ops.map Prod.fst) scan = .ok scan' ∧
      scan'.entries = scan.entries ++ groups.flatten ∧ scan'.Knows t ∧
      List.Forall₂ OpStep.Lists (opSteps p generated ops s) groups := by
  induction ops generalizing s scan with
  | nil =>
      cases hrun
      exact ⟨scan, [], rfl, by simp, h, .nil⟩
  | cons x ops ih =>
      obtain ⟨u, hu, hrest⟩ := (Steps.run_cons_ok _ _ _ _ _).mp hrun
      simp only at hu
      rw [opSteps, hu] at hsound ⊢
      obtain ⟨scan', group, hscan, hentries, hknows, hlists⟩ :=
        operation_lists final ⟨p, x.1, s, u, decide (x.2 ∈ generated)⟩ (hsound _ List.mem_cons_self) scan h
      obtain ⟨scan'', groups, hscan', hentries', hknows', hlists'⟩ :=
        ih u hrest (fun st hst => hsound st (List.mem_cons_of_mem _ hst)) scan' hknows
      refine ⟨scan'', group :: groups, ?_, ?_, hknows', .cons hlists hlists'⟩
      · exact (Steps.run_cons_ok _ _ _ _ _).mpr ⟨scan', hscan, hscan'⟩
      · rw [hentries', hentries, List.flatten_cons, List.append_assoc]

/-- The scan of a replayed history lists the changes of standing operation by operation. -/
theorem transitions_listed (final : GraphState rt) {ps : List (Patch rt)}
    {steps : List (OpStep rt)} {s : GraphState rt} (h : ReplayRun ps steps s) :
    ∃ scan groups,
      Steps.run (fun p => Steps.run (Scan.operation final p) p.ops) ps {} = .ok scan ∧
      scan.entries = groups.flatten ∧ scan.Knows s ∧ List.Forall₂ OpStep.Lists steps groups := by
  induction h with
  | initial scope =>
      refine ⟨{}, [], rfl, rfl, ?_, .nil⟩
      intro id standing hid
      cases hid
  | accept ps steps s t p vc messages before valid applied ih =>
      obtain ⟨scan, groups, hscan, hentries, hknows, hlists⟩ := ih
      obtain ⟨hkeyed, -, -⟩ := before.sound
      obtain ⟨hsound, -⟩ := steps_sound s t p vc {} hkeyed valid applied
      obtain ⟨u, hrun, rfl⟩ := applyPatch_ok p _ s t applied
      obtain ⟨scan', groups', hscan', hentries', hknows', hlists'⟩ :=
        operations_listed final p _ _ s u hrun (fun st hst => (hsound st hst).1) scan hknows
      rw [List.zipIdx_map_fst] at hscan'
      refine ⟨scan', groups ++ groups', ?_, ?_, ?_, List.rel_append hlists hlists'⟩
      · refine (Steps.run_append_ok _ _ _ _ _).mpr ⟨scan, hscan, ?_⟩
        exact (Steps.run_cons_ok _ _ _ _ _).mpr ⟨scan', hscan', rfl⟩
      · rw [hentries', hentries, List.flatten_append]
      · intro id standing hid
        apply hknows'
        rw [standingAt, ← (relayer_alike (p.ops.flatMap createdEdgeIds) u).nodes]
        exact hid
  | skip ps steps s p before ih => exact ih

end RefreshDelta

/-- The step that made a node contested for good. -/
def MadeContested (steps : List (OpStep rt)) (id : String) (st : OpStep rt) : Prop :=
  ∃ earlier later, steps = earlier ++ st :: later ∧ standingAt st.before id ≠ some .contested ∧
    standingAt st.after id = some .contested ∧
    ∀ st' ∈ later, standingAt st'.before id = some .contested ∧
      standingAt st'.after id = some .contested

/-- A contested node was made contested by a step, or every step left it contested. -/
theorem Linked.contested {d d' : Dict String (ProjectNode rt)} {steps : List (OpStep rt)}
    (h : Linked d steps d') (id : String)
    (hnow : (d'.get? id).map (·.standing) = some .contested) :
    (∃ st, MadeContested steps id st) ∨
      (d.get? id).map (·.standing) = some .contested ∧
        ∀ st ∈ steps, standingAt st.before id = some .contested ∧
          standingAt st.after id = some .contested := by
  induction h with
  | nil d => exact .inr ⟨hnow, by simp⟩
  | cons st steps d' tail ih =>
      rcases ih hnow with ⟨made, earlier, later, rfl, hrest⟩ | ⟨hafter, hall⟩
      · exact .inl ⟨made, st :: earlier, later, rfl, hrest⟩
      · by_cases hbefore : standingAt st.before id = some .contested
        · right
          refine ⟨hbefore, fun st' hst' => ?_⟩
          rcases List.mem_cons.mp hst' with rfl | hst'
          · exact ⟨hbefore, hafter⟩
          · exact hall st' hst'
        · exact .inl ⟨st, [], steps, rfl, hbefore, hafter, hall⟩

namespace RefreshDelta

/-- An entry of a group is listed for the step of that group. -/
theorem step_of_entry {steps : List (OpStep rt)} {groups : List (List Entry)}
    (h : List.Forall₂ OpStep.Lists steps groups) (e : Entry) (he : e ∈ groups.flatten) :
    ∃ st ∈ steps, ∃ group, st.Lists group ∧ e ∈ group := by
  induction h with
  | nil => cases he
  | @cons st group steps groups hlists hrest ih =>
      rw [List.flatten_cons, List.mem_append] at he
      rcases he with he | he
      · exact ⟨st, List.mem_cons_self, group, hlists, he⟩
      · obtain ⟨st', hst', group', hlists', he'⟩ := ih he
        exact ⟨st', List.mem_cons_of_mem _ hst', group', hlists', he'⟩

/-- The last listed transition to contested belongs to the step that made the node contested. -/
theorem find_made {steps : List (OpStep rt)} {groups : List (List Entry)}
    (h : List.Forall₂ OpStep.Lists steps groups) (id : String) (st : OpStep rt)
    (hmade : MadeContested steps id st) (hthere : (standingAt st.before id).isSome) :
    ∃ e before, (groups.flatten.reverse.find? fun e =>
        decide (e.targetId = id ∧ e.currentStanding = some .contested)) = some e ∧
      standingAt st.before id = some before ∧ e.Of st.patch id before .contested := by
  obtain ⟨earlier, later, rfl, hnot, hafter, hlater⟩ := hmade
  obtain ⟨before, hbefore⟩ := Option.isSome_iff_exists.mp hthere
  have hdrop := List.forall₂_drop earlier.length h
  rw [List.drop_left] at hdrop
  obtain ⟨group, others, hgroup, hothers, hsplit⟩ := List.forall₂_cons_left_iff.mp hdrop
  have hgroups : groups = groups.take earlier.length ++ group :: others := by
    rw [← hsplit, List.take_append_drop]
  -- Later operations leave the node contested and list nothing about it.
  have hquiet : others.flatten.reverse.find? (fun e =>
      decide (e.targetId = id ∧ e.currentStanding = some .contested)) = none := by
    rw [List.find?_eq_none]
    intro e he hfound
    rw [List.mem_reverse] at he
    rw [decide_eq_true_eq] at hfound
    obtain ⟨st', hst', group', hlists, hmem⟩ := step_of_entry hothers e he
    obtain ⟨b, a, hne, hb, ha, -⟩ := hlists.only e hmem
    rw [hfound.1] at hb ha
    rw [(hlater st' hst').1] at hb
    rw [(hlater st' hst').2] at ha
    cases hb
    cases ha
    exact hne rfl
  have hlisted : ∀ e ∈ group, e.targetId = id → e.Of st.patch id before .contested := by
    intro e he htarget
    obtain ⟨b, a, -, hb, ha, hof⟩ := hgroup.only e he
    rw [htarget] at hb ha hof
    rw [hbefore] at hb
    rw [hafter] at ha
    cases hb
    cases ha
    exact hof
  have hne : before ≠ .contested := by
    intro hcontested
    rw [hcontested] at hbefore
    exact hnot hbefore
  obtain ⟨e, he, htarget⟩ := hgroup.complete id before .contested hbefore hafter hne
  have hfind : (group.reverse.find? fun e =>
      decide (e.targetId = id ∧ e.currentStanding = some .contested)).isSome := by
    rw [List.find?_isSome]
    exact ⟨e, List.mem_reverse.mpr he, by simp [htarget, (hlisted e he htarget).current]⟩
  obtain ⟨found, hfound⟩ := Option.isSome_iff_exists.mp hfind
  have hmem : found ∈ group := List.mem_reverse.mp (List.mem_of_find?_eq_some hfound)
  have hid : found.targetId = id := by
    have := List.find?_some hfound
    rw [decide_eq_true_eq] at this
    exact this.1
  refine ⟨found, before, ?_, hbefore, hlisted found hmem hid⟩
  rw [hgroups, List.flatten_append, List.flatten_cons, List.reverse_append, List.reverse_append,
    List.find?_append, List.find?_append, hquiet, hfound]
  rfl

/-- Entries of the contested nodes are built one for each node. -/
theorem contestedEntry_ok (transitions : List Entry) (n : ProjectNode rt) :
    ∃ e, contestedEntry transitions n = .ok e ∧ e.targetId = n.id ∧
      e.currentStanding = some n.standing ∧
      ∀ t, (transitions.reverse.find? fun e =>
          decide (e.targetId = n.id ∧ e.currentStanding = some .contested)) = some t →
        e.revision = t.revision ∧ e.author = t.author ∧
          e.previousStanding = t.previousStanding := by
  cases hfind : transitions.reverse.find? fun e =>
      decide (e.targetId = n.id ∧ e.currentStanding = some .contested) with
  | none =>
      simp only [contestedEntry, hfind, EntryFields.validate, length_boundedTitle, dif_pos,
        Option.map_none, Option.getD_none, Option.isSome_some]
      refine ⟨_, rfl, rfl, rfl, fun t ht => ?_⟩
      cases ht
  | some t =>
      simp only [contestedEntry, hfind, EntryFields.validate, length_boundedTitle, dif_pos,
        Option.map_some, Option.getD_some, t.author_ok]
      refine ⟨_, rfl, rfl, rfl, fun t' ht' => ?_⟩
      cases ht'
      exact ⟨rfl, rfl, rfl⟩

theorem contestedEntries_ok (transitions : List Entry) (nodes : List (ProjectNode rt)) :
    ∃ entries, nodes.mapM (contestedEntry transitions) = .ok entries ∧
      List.Forall₂ (fun n e => contestedEntry transitions n = .ok e) nodes entries := by
  induction nodes with
  | nil => exact ⟨[], rfl, .nil⟩
  | cons n nodes ih =>
      obtain ⟨entries, hentries, hall⟩ := ih
      obtain ⟨e, he, -⟩ := contestedEntry_ok transitions n
      refine ⟨e :: entries, ?_, .cons he hall⟩
      rw [List.mapM_cons, he, hentries]
      rfl

/-- The nodes a list of entries was built for. -/
theorem node_of_entry {transitions : List Entry} {nodes : List (ProjectNode rt)}
    {entries : List Entry}
    (h : List.Forall₂ (fun n e => contestedEntry transitions n = .ok e) nodes entries) :
    (∀ e ∈ entries, ∃ n ∈ nodes, contestedEntry transitions n = .ok e) ∧
      ∀ n ∈ nodes, ∃ e ∈ entries, contestedEntry transitions n = .ok e := by
  induction h with
  | nil => simp
  | @cons n e nodes entries he hall ih =>
      simp only [List.forall_mem_cons]
      refine ⟨⟨⟨n, List.mem_cons_self, he⟩, ?_⟩, ⟨e, List.mem_cons_self, he⟩, ?_⟩
      · intro e' he'
        obtain ⟨n', hn', hentry⟩ := ih.1 e' he'
        exact ⟨n', List.mem_cons_of_mem _ hn', hentry⟩
      · intro n' hn'
        obtain ⟨e', he', hentry⟩ := ih.2 n' hn'
        exact ⟨e', List.mem_cons_of_mem _ he', hentry⟩

/-- The entries of the contested nodes of a graph, one for each. -/
theorem contested_listed (s : GraphState rt) (hkeyed : s.Keyed) (transitions : List Entry) :
    ∃ contested, currentContestedEntries s transitions = .ok contested ∧
      (∀ id, (∃ e ∈ contested, e.targetId = id) ↔ standingAt s id = some .contested) ∧
      ∀ e ∈ contested, ∃ n, s.nodes.get? n.id = some n ∧ n.standing = .contested ∧
        contestedEntry transitions n = .ok e ∧ e.targetId = n.id := by
  obtain ⟨contested, hcontested, hall⟩ := contestedEntries_ok transitions
    ((Text.sortedByKey (fun n : ProjectNode rt => n.id) s.nodes.values).filter fun n =>
      decide (n.standing = .contested))
  obtain ⟨hnode, hentry⟩ := node_of_entry hall
  have hmem : ∀ n, n ∈ ((Text.sortedByKey (fun n : ProjectNode rt => n.id) s.nodes.values).filter
      fun n => decide (n.standing = .contested)) ↔
        s.nodes.get? n.id = some n ∧ n.standing = .contested := by
    intro n
    rw [List.mem_filter, Text.mem_sortedByKey, Dict.mem_values, decide_eq_true_eq]
    constructor
    · rintro ⟨⟨k, hk⟩, hn⟩
      rw [hkeyed k n hk]
      exact ⟨hk, hn⟩
    · rintro ⟨hk, hn⟩
      exact ⟨⟨n.id, hk⟩, hn⟩
  have hof : ∀ e ∈ contested, ∃ n, s.nodes.get? n.id = some n ∧ n.standing = .contested ∧
      contestedEntry transitions n = .ok e ∧ e.targetId = n.id := by
    intro e he
    obtain ⟨n, hn, hbuilt⟩ := hnode e he
    obtain ⟨e', he', htarget, -⟩ := contestedEntry_ok transitions n
    rw [hbuilt] at he'
    cases he'
    exact ⟨n, ((hmem n).mp hn).1, ((hmem n).mp hn).2, hbuilt, htarget⟩
  refine ⟨contested, hcontested, fun id => ⟨?_, ?_⟩, hof⟩
  · rintro ⟨e, he, rfl⟩
    obtain ⟨n, hget, hstanding, -, htarget⟩ := hof e he
    simp [standingAt, htarget, hget, hstanding]
  · intro hid
    obtain ⟨n, hn, hstanding⟩ := Option.map_eq_some_iff.mp hid
    have hkey := hkeyed id n hn
    obtain ⟨e, he, hbuilt⟩ := hentry n ((hmem n).mpr ⟨by rw [hkey]; exact hn, hstanding⟩)
    obtain ⟨e', he', htarget, -⟩ := contestedEntry_ok transitions n
    rw [hbuilt] at he'
    cases he'
    exact ⟨e, he, htarget.trans hkey⟩

/-- The standings of a refresh delta are those of the replay: the transitions are the
changes of standing operation by operation, and a node that a change made contested
carries the revision, author and former standing of that change. -/
theorem standings_agree {ps : List (Patch rt)} {steps : List (OpStep rt)} {s : GraphState rt}
    (h : ReplayRun ps steps s) :
    ∃ groups contested, standingTransitionEntries ps s = .ok groups.flatten ∧
      List.Forall₂ OpStep.Lists steps groups ∧
      currentContestedEntries s groups.flatten = .ok contested ∧
      (∀ id, (∃ e ∈ contested, e.targetId = id) ↔ standingAt s id = some .contested) ∧
      ∀ e ∈ contested, e.currentStanding = some .contested ∧
        (∃ st, MadeContested steps e.targetId st) ∧
        ∀ st, MadeContested steps e.targetId st → (standingAt st.before e.targetId).isSome →
          e.revision = st.patch.revision ∧ e.author = st.patch.author ∧
            e.previousStanding = standingAt st.before e.targetId := by
  obtain ⟨scan, groups, hscan, hentries, -, hlists⟩ := transitions_listed s h
  obtain ⟨hkeyed, -, hlinked⟩ := h.sound
  obtain ⟨contested, hcontested, hexact, hof⟩ := contested_listed s hkeyed groups.flatten
  refine ⟨groups, contested, ?_, hlists, hcontested, hexact, ?_⟩
  · rw [standingTransitionEntries, hscan, Except.map, hentries]
  · intro e he
    obtain ⟨n, hget, hstanding, hbuilt, -⟩ := hof e he
    obtain ⟨e', he', htarget, hcurrent, hfound⟩ := contestedEntry_ok groups.flatten n
    rw [hbuilt] at he'
    cases he'
    refine ⟨by rw [hcurrent, hstanding], ?_, ?_⟩
    · rw [htarget]
      rcases hlinked.contested n.id (by simp [hget, hstanding]) with hmade | ⟨hempty, -⟩
      · exact hmade
      · cases hempty
    · intro st hmade hthere
      rw [htarget] at hmade hthere ⊢
      obtain ⟨t, before, hlast, hbefore, hof⟩ := find_made hlists n.id st hmade hthere
      obtain ⟨hrevision, hauthor, hprevious⟩ := hfound t hlast
      refine ⟨hrevision.trans hof.revision, hauthor.trans hof.author, ?_⟩
      rw [hprevious, hof.previous, hbefore]

section Concrete

/-- A question that a Proposal of an old history creates already contested. -/
def contestedDraft : RawNode .plain where
  id := "rq/a"
  type := .researchQuestion
  extensionType := none
  standing := some .contested
  createdRev := none
  updatedRev := none
  content := [("title", .str "Title"), ("question", .str "Question?")]
  extensionType_ok := RawNode.no_extension
  content_ok := by rfl

/-- The Proposal is filed, its approval creates the question, a human edits the title. -/
def contestedHistory : List (Patch .plain) :=
  [ { schemaGeneration := .one
      revision := 1
      kind := .work
      author := some .agent
      producer := .agent
      createdAt := "2026-01-01T00:00:00Z"
      summary := "Propose a question."
      runTruthScope := ["repo"]
      ops :=
        [ .createProposals
            [ { proposal :=
                  { id := "prop/a"
                    title := "A question"
                    card := {}
                    ops := [.legacyCreateNodes [contestedDraft]] } } ] ] },
    { schemaGeneration := .one
      revision := 2
      kind := .approval
      author := some .human
      producer := .human
      createdAt := "2026-01-02T00:00:00Z"
      summary := "Approve."
      ops := [.createNodes [contestedDraft], .resolveProposals [⟨"prop/a", .approved, none⟩]] },
    { revision := 3
      kind := .approval
      author := some .human
      producer := .human
      createdAt := "2026-01-03T00:00:00Z"
      summary := "Edit."
      ops :=
        [ .updateNodes
            [ { id := "rq/a"
                changes := .ofList [("title", .str "Another title")]
                baseUpdatedRev := some 2 } ] ] } ]

/-- What the delta and the replay say of one node of a history. -/
def disagrees (r : List (OpStep .plain) × GraphState .plain) (id : String) : Bool :=
  decide (r.1.map (fun st => (standingAt st.before id, standingAt st.after id)) =
      [ (none, none), (none, some .contested), (some .contested, some .contested),
        (some .contested, some .contested) ]) &&
    decide (r.1.map (fun st => st.patch.revision) = [1, 2, 2, 3]) &&
    (standingTransitionEntries contestedHistory r.2).toOption.any fun transitions =>
      (currentContestedEntries r.2 transitions).toOption.any fun contested =>
        decide (contested.map (fun e => (e.targetId, e.revision)) = [(id, 3)])

theorem contested_since_creation :
    ¬∀ (ps : List (Patch .plain)) (steps : List (OpStep .plain)) (s : GraphState .plain),
      ReplayRun ps steps s → ∀ transitions contested,
        standingTransitionEntries ps s = .ok transitions →
        currentContestedEntries s transitions = .ok contested →
        ∀ e ∈ contested, ∀ st, MadeContested steps e.targetId st →
          e.revision = st.patch.revision ∧ e.author = st.patch.author := by
  have hrun : (replayAll { projectTruthScope := ["repo"], mode := .replay } contestedHistory
      (.initial .plain ["repo"])).any (disagrees · "rq/a") = true := by decide +kernel
  intro hagrees
  obtain ⟨⟨steps, s⟩, hreplay, hdiffers⟩ := (Option.any_eq_true _ _).mp hrun
  have hreplayed := replayRun_of_replayAll _ _ [] [] _ _ (.initial ["repo"]) hreplay
  simp only [disagrees, Bool.and_eq_true, decide_eq_true_eq, Option.any_eq_true] at hdiffers
  obtain ⟨⟨hstandings, hrevisions⟩, transitions, htransitions, contested, hcontested, hentries⟩ :=
    hdiffers
  simp only [List.map_eq_cons_iff, List.map_eq_nil_iff] at hstandings hentries
  obtain ⟨first, _, rfl, -, made, _, rfl, hmade, third, _, rfl, hthird, fourth, _, rfl, hfourth,
    rfl⟩ := hstandings
  obtain ⟨e, _, rfl, he, rfl⟩ := hentries
  simp only [Prod.mk.injEq] at he hmade hthird hfourth
  have hwhen : MadeContested [first, made, third, fourth] e.targetId made := by
    rw [he.1]
    refine ⟨[first], [third, fourth], rfl, ?_, hmade.2, ?_⟩
    · rw [hmade.1]
      simp
    · simp [hthird, hfourth]
  have hsame := hagrees _ _ _ hreplayed transitions [e]
    (by cases h : standingTransitionEntries contestedHistory s <;> simp_all [Except.toOption])
    (by cases h : currentContestedEntries s transitions <;> simp_all [Except.toOption])
    e (List.mem_singleton_self e) made hwhen
  simp only [List.map_cons, List.map_nil, List.cons.injEq] at hrevisions
  rw [he.2, hrevisions.2.1] at hsame
  simp at hsame

/-- An agent's question, contested by a human. -/
def reviewedHistory : List (Patch .plain) :=
  [ { revision := 1
      kind := .work
      author := some .agent
      producer := .agent
      createdAt := "2026-01-01T00:00:00Z"
      summary := "Ask."
      runTruthScope := ["repo"]
      ops := [.createNodes [{ contestedDraft with standing := none }]] },
    { revision := 2
      kind := .approval
      author := some .human
      producer := .human
      createdAt := "2026-01-02T00:00:00Z"
      summary := "Contest."
      ops := [.setStanding "rq/a" .contested] } ]

theorem standings_agree_review :
    ∃ steps s transitions contested, ReplayRun reviewedHistory steps s ∧
      standingTransitionEntries reviewedHistory s = .ok transitions ∧
      currentContestedEntries s transitions = .ok contested ∧
      ∃ e ∈ contested, e.targetId = "rq/a" ∧ e.currentStanding = some .contested := by
  have hrun : (replayAll { projectTruthScope := ["repo"], mode := .replay } reviewedHistory
      (.initial .plain ["repo"])).any (fun r =>
        decide (standingAt r.2 "rq/a" = some .contested)) = true := by decide +kernel
  obtain ⟨⟨steps, s⟩, hreplay, hnow⟩ := (Option.any_eq_true _ _).mp hrun
  have hreplayed := replayRun_of_replayAll _ _ [] [] _ _ (.initial ["repo"]) hreplay
  obtain ⟨groups, contested, htransitions, -, hcontested, hthere, hentries⟩ :=
    standings_agree hreplayed
  obtain ⟨e, he, htarget⟩ := (hthere "rq/a").mpr (of_decide_eq_true hnow)
  exact ⟨_, _, _, _, hreplayed, htransitions, hcontested, e, he, htarget, (hentries e he).1⟩

end Concrete

end RefreshDelta

end RcpGraph
