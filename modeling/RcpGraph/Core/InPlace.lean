import RcpGraph.Core.Effects
import RcpGraph.Lib.Objects

/-!
Application as it runs on shared states. A state object holds its containers by
reference, a fork copies the containers and shares what is in them, and
application writes the fork in place, statement by statement. What it leaves
behind is what `applyPatch` answers, and nothing but the fork is written.
-/

namespace RcpGraph

variable {rt : Runtime}

/-- The attributes of a state that are mutable containers. -/
inductive Container where
  | nodes | edges | proposals | ambiguities | glossary | configRevisions | projectTruthScope
  | validationMessages | beliefTransitions
  deriving DecidableEq

abbrev Cell (rt : Runtime) : Container → Type
  | .nodes => Dict String (ProjectNode rt)
  | .edges => Dict String Edge
  | .proposals => Dict String (Proposal rt)
  | .ambiguities => Dict String Ambiguity
  | .glossary => Dict String GlossaryTerm
  | .configRevisions => Dict String Nat
  | .projectTruthScope => List String
  | .validationMessages => List ValidationMessage
  | .beliefTransitions => List BeliefTransition

instance (k : Container) : Inhabited (Cell rt k) := by
  cases k <;> exact inferInstance

/-- The attributes of a state that are replaced and never written into. -/
structure Attributes where
  revision : Nat := 0
  ontology : OntologyState := .initial
  replayFailure : Option ReplayFailure := none
  lastRefreshAt : Option String := none

instance : Inhabited Attributes := ⟨{}⟩

abbrev StateValue (rt : Runtime) := Objects.Value (Cell rt) Attributes
abbrev StateHeap (rt : Runtime) := Objects.Store (Cell rt) Attributes

def GraphState.value (s : GraphState rt) : StateValue rt where
  contents
    | .nodes => s.nodes
    | .edges => s.edges
    | .proposals => s.proposals
    | .ambiguities => s.ambiguities
    | .glossary => s.glossary
    | .configRevisions => s.configRevisions
    | .projectTruthScope => s.projectTruthScope
    | .validationMessages => s.validationMessages
    | .beliefTransitions => s.beliefTransitions
  attrs := ⟨s.revision, s.ontology, s.replayFailure, s.lastRefreshAt⟩

def GraphState.ofValue (v : StateValue rt) : GraphState rt where
  revision := v.attrs.revision
  projectTruthScope := v.contents .projectTruthScope
  configRevisions := v.contents .configRevisions
  nodes := v.contents .nodes
  edges := v.contents .edges
  proposals := v.contents .proposals
  ambiguities := v.contents .ambiguities
  glossary := v.contents .glossary
  ontology := v.attrs.ontology
  validationMessages := v.contents .validationMessages
  beliefTransitions := v.contents .beliefTransitions
  replayFailure := v.attrs.replayFailure
  lastRefreshAt := v.attrs.lastRefreshAt

def stateLayout (rt : Runtime) : Objects.Layout (GraphState rt) (Cell rt) Attributes where
  value := GraphState.value
  state := GraphState.ofValue
  state_value := fun _ => rfl

theorem GraphState.value_injective {s t : GraphState rt} (h : s.value = t.value) : s = t :=
  congrArg GraphState.ofValue h

namespace InPlace

open Objects (modify rebind assign attempt)

abbrev Run (rt : Runtime) := Objects.Exec (Cell rt) Attributes String

/-- The state an object stands for at this point of the run. -/
def state (o : Nat) : Run rt (GraphState rt) := do
  let v ← Objects.read o
  pure (GraphState.ofValue v)

def recordBeliefTransition (o : Nat) (previous updated : ProjectNode rt) (revision : Nat)
    (cause : Option BeliefCause) : Run rt Unit :=
  match cause with
  | none => pure ()
  | some cause =>
      if previous.type.isBelief && updated.type.isBelief &&
          previous.text "status" ≠ updated.text "status" then
        modify o .beliefTransitions fun ts => ts ++
          [⟨previous.id, previous.text "status", updated.text "status", revision, cause⟩]
      else pure ()

def createNode (o revision : Nat) (raw : RawNode rt) : Run rt Unit :=
  modify o .nodes fun nodes => nodes.insert raw.id (raw.create revision)

def updateNode (p : Patch rt) (generated : Bool) (o : Nat) (u : NodeUpdate) : Run rt Unit := do
  let s ← state o
  let node ← attempt (nodeAt s u.id)
  let immutable := Text.sortedSet (u.changes.keys.filter fun f => f ∈ forbiddenFields p generated)
  if immutable ≠ [] then
    throw ("node updates cannot change system fields: " ++ Text.join ", " immutable)
  else do
    let updated ← attempt (node.revise p.coercions u.changes p.revision
      (if p.kind = .approval then node.standing else .asserted))
    recordBeliefTransition o node updated p.revision u.cause
    modify o .nodes fun nodes => nodes.insert node.id updated

def createEdge (o revision : Nat) (raw : NewEdge) : Run rt Unit := do
  let s ← state o
  match raw.writtenId, declaredLayer s.ontology raw.relation with
  | none, _ => throw "Input should be a valid string"
  | _, none => throw "Field required"
  | some id, some declared =>
      modify o .edges fun edges => edges.insert id (raw.edgeIn s id declared revision)

def addEdge (o : Nat) (e : Edge) : Run rt Unit :=
  modify o .edges fun edges => edges.insert e.id e

/-- The two dictionaries are built anew and take the place of the old ones. -/
def removeNodes (o : Nat) (nodeIds : List String) : Run rt Unit := do
  let s ← state o
  rebind o .nodes (s.nodes.filter fun id _ => id ∉ nodeIds)
  rebind o .edges (s.edges.filter fun _ e => e.source ∉ nodeIds && e.target ∉ nodeIds)

def retireNode (p : Patch rt) (o : Nat) (id : String) (cause : Option BeliefCause) :
    Run rt Unit := do
  let s ← state o
  let previous ← attempt (nodeAt s id)
  let retired ← attempt (previous.retire p.revision (p.kind = .approval))
  modify o .nodes fun nodes => nodes.insert id retired
  recordBeliefTransition o previous retired p.revision cause

def supersedeNode (p : Patch rt) (o : Nat) (item : SupersedeNode) : Run rt Unit := do
  retireNode p o item.id item.cause
  match item.supersededBy with
  | none => pure ()
  | some target =>
      if target = "" then pure ()
      else addEdge o (generatedEdge item.id "supersedes" target item.explanation p.revision)

def mergeNode (p : Patch rt) (o : Nat) (item : NodeMerge) : Run rt Unit := do
  retireNode p o item.duplicate item.cause
  addEdge o
    (generatedEdge item.duplicate "duplicate_of" item.canonical item.explanation p.revision)

def createAmbiguity (o revision : Nat) (raw : NewAmbiguity) : Run rt Unit :=
  modify o .ambiguities fun as => as.insert raw.id { raw with raisedRev := revision }

def resolveAmbiguity (o : Nat) (r : AmbiguityResolution) : Run rt Unit := do
  let s ← state o
  match s.ambiguities.get? r.id with
  | none => throw (Text.quoted r.id)
  | some a =>
      modify o .ambiguities fun as =>
        as.insert a.id { a with status := if r.dismissed then .dismissed else .resolved }

/-- The record a filing stores. -/
def filed (p : Patch rt) (raw : NewProposal rt) (s : GraphState rt) : Proposal rt :=
  let deps := proposalDependencies s raw.proposal.ops
  { raw.proposal with
    baseRev := s.revision
    relatedNodeIds := deps.1
    relatedEdgeIds := deps.2.1
    relatedConfigKeys := deps.2.2
    createdBy := if raw.createdBySet then raw.proposal.createdBy else p.actor
    createdByOperationId :=
      if raw.createdByOperationIdSet then raw.proposal.createdByOperationId
      else p.sourceOperationId
    raisedRev := p.revision }

def createProposal (p : Patch rt) (o : Nat) (raw : NewProposal rt) : Run rt Unit := do
  let s ← state o
  modify o .proposals fun qs => qs.insert raw.proposal.id (filed p raw s)

def resolveProposal (p : Patch rt) (o : Nat) (r : ProposalResolution) : Run rt Unit := do
  let s ← state o
  let q ← attempt (proposalAt s r.id)
  modify o .proposals fun qs => qs.insert q.id
    { q with
      status := r.status.toProposalStatus
      resolvedRev := some p.revision
      resolvedBy := some p.actor
      resolvedByOperationId := p.sourceOperationId
      resolutionReason := r.reason
      rejectionReason := if r.status = .rejected then r.reason else none }

def withdrawProposal (p : Patch rt) (o : Nat) (w : ProposalWithdrawal) : Run rt Unit := do
  let s ← state o
  let q ← attempt (proposalAt s w.id)
  modify o .proposals fun qs => qs.insert q.id
    { q with
      status := .withdrawn
      resolvedRev := some p.revision
      resolvedBy := some .agent
      resolvedByOperationId := p.sourceOperationId
      resolutionReason := some w.reason }

def upsertTerm (o revision : Nat) (raw : NewGlossaryTerm) : Run rt Unit :=
  modify o .glossary fun terms => terms.insert raw.term { raw with updatedRev := revision }

def setStanding (o revision : Nat) (nodeId : String) (standing : Standing) : Run rt Unit := do
  let s ← state o
  let node ← attempt (nodeAt s nodeId)
  modify o .nodes fun nodes => nodes.insert node.id (node.withStanding standing revision)

/-- One operation, as `_apply_patch` runs it on the object `o`. -/
def applyOp (p : Patch rt) (generated : Bool) (o : Nat) : GraphOperation rt → Run rt Unit
  | .createNodes nodes => nodes.forM (createNode o p.revision)
  | .updateNodes updates => updates.forM (updateNode p generated o)
  | .createEdges edges => edges.forM (createEdge o p.revision)
  | .removeEdges edgeIds => edgeIds.forM fun id => modify o .edges fun edges => edges.erase id
  | .removeNodes nodeIds => removeNodes o nodeIds
  | .supersedeNodes items => items.forM (supersedeNode p o)
  | .mergeNodes merges => merges.forM (mergeNode p o)
  | .createAmbiguities ambiguities => ambiguities.forM (createAmbiguity o p.revision)
  | .resolveAmbiguities resolutions => resolutions.forM (resolveAmbiguity o)
  | .createProposals proposals => proposals.forM (createProposal p o)
  | .resolveProposals resolutions => resolutions.forM (resolveProposal p o)
  | .withdrawProposals proposals => proposals.forM (withdrawProposal p o)
  | .upsertGlossary terms => terms.forM (upsertTerm o p.revision)
  | .setCoverage _ => pure ()
  | .setStanding nodeId standing => setStanding o p.revision nodeId standing
  | .setProjectTruthScope scope _ => do
      rebind o .projectTruthScope (Text.sortedSet scope)
      modify o .configRevisions fun keys => keys.insert "project_truth_scope" p.revision
  | .setOntology ontology => do
      assign o fun attrs => { attrs with ontology := ontology }
      modify o .configRevisions fun keys => keys.insert "ontology" p.revision

def relayerEdge (o : Nat) (id : String) : Run rt Unit := do
  let s ← state o
  match s.edges.get? id with
  | none => pure ()
  | some e =>
      let derived := edgeLayer s e.source e.target e.layer
      if derived = e.layer then pure ()
      else modify o .edges fun edges => edges.insert id { e with layer := derived }

/-- `_apply_patch` on the object `o`. -/
def applyPatch (p : Patch rt) (generated : List Nat) (o : Nat) : Run rt Unit := do
  p.ops.zipIdx.forM fun (op, i) => applyOp p (decide (i ∈ generated)) o op
  (Text.stableUnion (p.ops.flatMap createdEdgeIds)).forM (relayerEdge o)
  assign o fun attrs => { attrs with revision := max attrs.revision p.revision }
  if p.kind = .seed ∨ p.kind = .refresh then
    assign o fun attrs => { attrs with lastRefreshAt := some p.createdAt }
  else pure ()

/-- `_fork_state`: the containers are copied, what is in them is shared. -/
def forkState (o : Nat) (σ : StateHeap rt) : Nat × StateHeap rt :=
  let s := GraphState.ofValue (Objects.valueAt σ o)
  Objects.copyWith o
    [ ⟨.nodes, s.nodes⟩, ⟨.edges, s.edges⟩, ⟨.proposals, s.proposals⟩,
      ⟨.ambiguities, s.ambiguities⟩, ⟨.glossary, s.glossary⟩,
      ⟨.configRevisions, s.configRevisions⟩, ⟨.projectTruthScope, s.projectTruthScope⟩,
      ⟨.validationMessages, s.validationMessages⟩, ⟨.beliefTransitions, s.beliefTransitions⟩ ]
    id σ

section Refinement

open Objects (Refines refines_pure refines_throw refines_bind refines_then refines_attempt
  refines_modify refines_rebind refines_assign refines_forM refines_loop)

variable {base : StateHeap rt} {o : Nat} {s : GraphState rt}

/-- The program leaves behind what the function on states answers. -/
abbrev Does (base : StateHeap rt) (o : Nat) (s : GraphState rt) (m : Run rt Unit)
    (answer : Except String (GraphState rt)) : Prop :=
  Refines (stateLayout rt) base o s m answer

theorem does_state {m : GraphState rt → Run rt Unit} {answer : Except String (GraphState rt)}
    (h : Does base o s (m s) answer) : Does base o s (state o >>= m) answer :=
  Objects.refines_read h

theorem does_nodes (f : Dict String (ProjectNode rt) → Dict String (ProjectNode rt)) :
    Does base o s (modify o .nodes f) (.ok { s with nodes := f s.nodes }) := by
  apply refines_modify
  ext k
  · cases k <;> rfl
  · rfl

theorem does_edges (f : Dict String Edge → Dict String Edge) :
    Does base o s (modify o .edges f) (.ok { s with edges := f s.edges }) := by
  apply refines_modify
  ext k
  · cases k <;> rfl
  · rfl

theorem does_proposals (f : Dict String (Proposal rt) → Dict String (Proposal rt)) :
    Does base o s (modify o .proposals f) (.ok { s with proposals := f s.proposals }) := by
  apply refines_modify
  ext k
  · cases k <;> rfl
  · rfl

theorem does_ambiguities (f : Dict String Ambiguity → Dict String Ambiguity) :
    Does base o s (modify o .ambiguities f) (.ok { s with ambiguities := f s.ambiguities }) := by
  apply refines_modify
  ext k
  · cases k <;> rfl
  · rfl

theorem does_glossary (f : Dict String GlossaryTerm → Dict String GlossaryTerm) :
    Does base o s (modify o .glossary f) (.ok { s with glossary := f s.glossary }) := by
  apply refines_modify
  ext k
  · cases k <;> rfl
  · rfl

theorem does_configRevisions (f : Dict String Nat → Dict String Nat) :
    Does base o s (modify o .configRevisions f)
      (.ok { s with configRevisions := f s.configRevisions }) := by
  apply refines_modify
  ext k
  · cases k <;> rfl
  · rfl

theorem does_beliefTransitions (f : List BeliefTransition → List BeliefTransition) :
    Does base o s (modify o .beliefTransitions f)
      (.ok { s with beliefTransitions := f s.beliefTransitions }) := by
  apply refines_modify
  ext k
  · cases k <;> rfl
  · rfl

theorem does_recordBeliefTransition (n m : ProjectNode rt) (revision : Nat)
    (cause : Option BeliefCause) :
    Does base o s (recordBeliefTransition o n m revision cause)
      (.ok (RcpGraph.recordBeliefTransition s n m revision cause)) := by
  cases cause with
  | none => exact refines_pure
  | some cause =>
      unfold recordBeliefTransition RcpGraph.recordBeliefTransition
      simp only
      split
      · exact does_beliefTransitions _
      · exact refines_pure

theorem does_updateNode (p : Patch rt) (generated : Bool) (u : NodeUpdate) :
    Does base o s (updateNode p generated o u) (RcpGraph.updateNode p generated u s) := by
  apply does_state
  apply refines_attempt
  intro node _
  simp only [ne_eq]
  split
  · exact refines_throw _
  · apply refines_attempt
    intro updated _
    apply refines_then (does_recordBeliefTransition node updated p.revision u.cause)
    exact does_nodes _

theorem does_createEdge (revision : Nat) (raw : NewEdge) :
    Does base o s (createEdge o revision raw) (RcpGraph.createEdge revision raw s) := by
  apply does_state
  unfold RcpGraph.createEdge
  cases raw.writtenId with
  | none => exact refines_throw _
  | some id =>
      cases declaredLayer s.ontology raw.relation with
      | none => exact refines_throw _
      | some declared => exact does_edges _

theorem does_newNodes (nodes : Dict String (ProjectNode rt)) :
    Does base o s (rebind o .nodes nodes) (.ok { s with nodes := nodes }) := by
  apply refines_rebind
  ext k
  · cases k <;> rfl
  · rfl

theorem does_newEdges (edges : Dict String Edge) :
    Does base o s (rebind o .edges edges) (.ok { s with edges := edges }) := by
  apply refines_rebind
  ext k
  · cases k <;> rfl
  · rfl

theorem does_newScope (scope : List String) :
    Does base o s (rebind o .projectTruthScope scope)
      (.ok { s with projectTruthScope := scope }) := by
  apply refines_rebind
  ext k
  · cases k <;> rfl
  · rfl

theorem does_ontology (ontology : OntologyState) :
    Does base o s (assign o fun attrs => { attrs with ontology := ontology })
      (.ok { s with ontology := ontology }) :=
  refines_assign rfl

theorem does_revision (revision : Nat) :
    Does base o s (assign o fun attrs => { attrs with revision := max attrs.revision revision })
      (.ok { s with revision := max s.revision revision }) :=
  refines_assign rfl

theorem does_lastRefreshAt (time : String) :
    Does base o s (assign o fun attrs => { attrs with lastRefreshAt := some time })
      (.ok { s with lastRefreshAt := some time }) :=
  refines_assign rfl

theorem does_removeNodes (nodeIds : List String) :
    Does base o s (removeNodes o nodeIds) (.ok (RcpGraph.removeNodes nodeIds s)) := by
  apply does_state
  apply refines_then (does_newNodes _)
  exact does_newEdges _

theorem does_retireNode (p : Patch rt) (id : String) (cause : Option BeliefCause) :
    Does base o s (retireNode p o id cause) (RcpGraph.retireNode p id cause s) := by
  apply does_state
  apply refines_attempt
  intro previous _
  apply refines_attempt
  intro retired _
  apply refines_then (does_nodes _)
  exact does_recordBeliefTransition previous retired p.revision cause

theorem does_addEdge (e : Edge) : Does base o s (addEdge o e) (.ok (RcpGraph.addEdge e s)) :=
  does_edges _

theorem does_supersedeNode (p : Patch rt) (item : SupersedeNode) :
    Does base o s (supersedeNode p o item) (RcpGraph.supersedeNode p item s) := by
  apply refines_bind (does_retireNode p item.id item.cause)
  intro t _
  cases item.supersededBy with
  | none => exact refines_pure
  | some target =>
      simp only
      split
      · exact refines_pure
      · exact does_addEdge _

theorem does_mergeNode (p : Patch rt) (item : NodeMerge) :
    Does base o s (mergeNode p o item) (RcpGraph.mergeNode p item s) := by
  apply refines_bind (does_retireNode p item.duplicate item.cause)
  intro t _
  exact does_addEdge _

theorem does_resolveAmbiguity (r : AmbiguityResolution) :
    Does base o s (resolveAmbiguity o r) (RcpGraph.resolveAmbiguity r s) := by
  apply does_state
  unfold RcpGraph.resolveAmbiguity
  cases s.ambiguities.get? r.id with
  | none => exact refines_throw _
  | some a => exact does_ambiguities _

theorem does_createProposal (p : Patch rt) (raw : NewProposal rt) :
    Does base o s (createProposal p o raw) (.ok (RcpGraph.createProposal p raw s)) := by
  apply does_state
  exact does_proposals _

theorem does_resolveProposal (p : Patch rt) (r : ProposalResolution) :
    Does base o s (resolveProposal p o r) (RcpGraph.resolveProposal p r s) := by
  apply does_state
  apply refines_attempt
  intro q _
  exact does_proposals _

theorem does_withdrawProposal (p : Patch rt) (w : ProposalWithdrawal) :
    Does base o s (withdrawProposal p o w) (RcpGraph.withdrawProposal p w s) := by
  apply does_state
  apply refines_attempt
  intro q _
  exact does_proposals _

theorem does_setStanding (revision : Nat) (nodeId : String) (standing : Standing) :
    Does base o s (setStanding o revision nodeId standing)
      (RcpGraph.setStanding revision nodeId standing s) := by
  apply does_state
  apply refines_attempt
  intro node _
  exact does_nodes _

theorem removeEdges_foldl (edgeIds : List String) (s : GraphState rt) :
    edgeIds.foldl (fun s id => { s with edges := s.edges.erase id }) s =
      RcpGraph.removeEdges edgeIds s := by
  induction edgeIds generalizing s with
  | nil => rfl
  | cons id ids ih => exact ih _

/-- What an operation does in place is what it does to the state. -/
theorem does_applyOp (p : Patch rt) (generated : Bool) (op : GraphOperation rt) :
    Does base o s (applyOp p generated o op) (RcpGraph.applyOp p generated op s) := by
  cases op with
  | createNodes nodes =>
      exact refines_loop nodes _ (RcpGraph.createNode p.revision) fun raw _ s => does_nodes _
  | updateNodes updates =>
      exact refines_forM updates _ _ fun u _ s => does_updateNode p generated u
  | createEdges edges => exact refines_forM edges _ _ fun e _ s => does_createEdge p.revision e
  | removeEdges edgeIds =>
      rw [RcpGraph.applyOp, ← removeEdges_foldl]
      exact refines_loop edgeIds _ (fun id (s : GraphState rt) => { s with edges := s.edges.erase id })
        fun id _ s => does_edges _
  | removeNodes nodeIds => exact does_removeNodes nodeIds
  | supersedeNodes items => exact refines_forM items _ _ fun i _ s => does_supersedeNode p i
  | mergeNodes merges => exact refines_forM merges _ _ fun m _ s => does_mergeNode p m
  | createAmbiguities ambiguities =>
      exact refines_loop ambiguities _ (RcpGraph.createAmbiguity p.revision)
        fun a _ s => does_ambiguities _
  | resolveAmbiguities resolutions =>
      exact refines_forM resolutions _ _ fun r _ s => does_resolveAmbiguity r
  | createProposals proposals =>
      exact refines_loop proposals _ (RcpGraph.createProposal p)
        fun raw _ s => does_createProposal p raw
  | resolveProposals resolutions =>
      exact refines_forM resolutions _ _ fun r _ s => does_resolveProposal p r
  | withdrawProposals proposals =>
      exact refines_forM proposals _ _ fun w _ s => does_withdrawProposal p w
  | upsertGlossary terms =>
      exact refines_loop terms _ (RcpGraph.upsertTerm p.revision) fun t _ s => does_glossary _
  | setCoverage coverage => exact refines_pure
  | setStanding nodeId standing => exact does_setStanding p.revision nodeId standing
  | setProjectTruthScope scope repository =>
      apply refines_then (does_newScope _)
      exact does_configRevisions _
  | setOntology ontology =>
      apply refines_then (does_ontology ontology)
      exact does_configRevisions _

theorem does_relayerEdge (id : String) :
    Does base o s (relayerEdge o id) (.ok (RcpGraph.relayerEdge id s)) := by
  apply does_state
  unfold RcpGraph.relayerEdge
  cases s.edges.get? id with
  | none => exact refines_pure
  | some e =>
      simp only
      split
      · exact refines_pure
      · exact does_edges _

/-- What a patch does in place is what it does to the state, and when it fails only the
object itself is left half written. -/
theorem does_applyPatch (p : Patch rt) (generated : List Nat) :
    Does base o s (applyPatch p generated o) (RcpGraph.applyPatch p generated s) := by
  refine refines_bind (refines_forM p.ops.zipIdx _ _ fun e _ s => does_applyOp p _ e.1)
    fun t _ => ?_
  refine refines_bind (g := fun t => .ok (stamp p t))
    (refines_loop _ _ RcpGraph.relayerEdge fun id _ s => does_relayerEdge id) fun u _ => ?_
  by_cases hkind : p.kind = .seed ∨ p.kind = .refresh
  · rw [stamp, if_pos hkind, if_pos hkind]
    apply refines_then (does_revision p.revision)
    exact does_lastRefreshAt p.createdAt
  · rw [stamp, if_neg hkind, if_neg hkind]
    apply refines_then (does_revision p.revision)
    exact refines_pure

/-- A fork has the value of what it is forked from and owns all its containers. -/
theorem forkState_spec (o : Nat) (σ : StateHeap rt) (s : GraphState rt)
    (h : σ.Holds o s.value) :
    σ.Keeps (forkState o σ).2 ∧ (forkState o σ).2.Holds (forkState o σ).1 s.value ∧
      Objects.Owned σ (forkState o σ).2 (forkState o σ).1 := by
  have hvalue := Objects.valueAt_of_holds h
  obtain ⟨hkeeps, hholds, howned⟩ := Objects.copyWith_spec o
    [ ⟨.nodes, s.nodes⟩, ⟨.edges, s.edges⟩, ⟨.proposals, s.proposals⟩,
      ⟨.ambiguities, s.ambiguities⟩, ⟨.glossary, s.glossary⟩,
      ⟨.configRevisions, s.configRevisions⟩, ⟨.projectTruthScope, s.projectTruthScope⟩,
      ⟨.validationMessages, s.validationMessages⟩, ⟨.beliefTransitions, s.beliefTransitions⟩ ]
    id σ s.value h
  have hfork : forkState o σ = Objects.copyWith o
    [ ⟨.nodes, s.nodes⟩, ⟨.edges, s.edges⟩, ⟨.proposals, s.proposals⟩,
      ⟨.ambiguities, s.ambiguities⟩, ⟨.glossary, s.glossary⟩,
      ⟨.configRevisions, s.configRevisions⟩, ⟨.projectTruthScope, s.projectTruthScope⟩,
      ⟨.validationMessages, s.validationMessages⟩, ⟨.beliefTransitions, s.beliefTransitions⟩ ]
    id σ := by
    unfold forkState
    rw [hvalue]
    rfl
  rw [hfork]
  refine ⟨hkeeps, ?_, howned fun k => by cases k <;> simp⟩
  convert hholds using 1
  ext k
  · cases k <;> rfl
  · rfl

end Refinement

end InPlace

end RcpGraph
