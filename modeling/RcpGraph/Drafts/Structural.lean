import RcpGraph.Drafts.Issued

/-!
Drafts with structural changes only: their operations act on the book they keep, and reading
them against their graph again changes nothing of it.
-/

namespace RcpGraph.Drafts

open Walk

def HumanDraft.book (draft : HumanDraft) : LinkBook where
  removed := draft.removedNodeIds
  added := draft.addedEdges
  dropped := draft.removedEdgeIds
  merges := draft.merges.getD []

def applyOp (graph : GraphState) (draft : HumanDraft) : DraftOp → HumanDraft
  | .merge duplicateId canonicalId activeExperimentIds uuids =>
      stageMerge draft graph duplicateId canonicalId activeExperimentIds uuids
  | .addEdge edge => stageEdgeAddition draft graph edge
  | .removeEdge edgeId => stageEdgeRemoval draft graph edgeId
  | .removeNode nodeId experimentLoopActive =>
      stageNodeRemoval draft graph nodeId experimentLoopActive

/-- The operation is not refused. -/
def takesEffect (graph : GraphState) (draft : HumanDraft) : DraftOp → Prop
  | .merge duplicateId canonicalId activeExperimentIds _ =>
      mergeable draft graph duplicateId canonicalId = true ∧
        (stageNodesRemovalOne? draft graph activeExperimentIds duplicateId).isSome = true
  | .removeNode nodeId experimentLoopActive =>
      (stageNodeRemoval? draft graph nodeId experimentLoopActive).isSome = true
  | _ => True

/-- Nothing but links and removed nodes is staged, on the revision of the graph. -/
structure Structural (graph : GraphState) (draft : HumanDraft) : Prop where
  base : draft.baseRevision = graph.revision
  nodes : draft.nodes = .empty
  proposals : draft.proposals = .empty
  ontology : draft.ontology = none
  customNodes : draft.customNodes = .empty
  edgeBase : draft.edgeBaseRevision.getD graph.revision = graph.revision
  known : ∀ nodeId ∈ draft.removedNodeIds, (graph.nodes.get? nodeId).isSome = true

variable {graph : GraphState} {draft : HumanDraft} {op : DraftOp} {ops : List DraftOp}

theorem structural_empty (graph : GraphState) :
    Structural graph (emptyHumanDraft graph.revision) :=
  ⟨rfl, rfl, rfl, rfl, rfl, rfl, fun _ h => by cases h⟩

theorem Structural.normalize (h : Structural graph draft) :
    Structural graph (normalizeHumanDraft draft graph) where
  base := rfl
  nodes := by simp only [normalizeHumanDraft, h.nodes]; rfl
  proposals := by
    simp only [normalizeHumanDraft, proposalDecisionsWithoutDirectChoices, h.proposals]
    rfl
  ontology := by simp [normalizeHumanDraft, h.ontology]
  customNodes := h.customNodes
  edgeBase := by
    simp only [normalizeHumanDraft, h.base]
    split
    · rfl
    · exact h.edgeBase
  known nodeId hnode := h.known nodeId (List.mem_filter.mp hnode).1

theorem normalizedMerges_eq {removed : List String} {added : List NewEdge}
    {merges : List DraftMerge} (hremoved : ∀ merge ∈ merges, merge.duplicate ∈ removed)
    (hlisted : ∀ merge ∈ merges, ∀ id ∈ merge.edgeIds, id ∈ added.map NewEdge.id) :
    normalizedMerges removed added merges = merges := by
  rw [normalizedMerges, List.filter_eq_self.mpr fun merge hmerge =>
    decide_eq_true (hremoved merge hmerge)]
  refine (List.map_congr_left fun merge hmerge => ?_).trans (List.map_id merges)
  have hids : (merge.edgeIds.filter fun id => added.any fun edge => edge.id = id) =
      merge.edgeIds := by
    refine List.filter_eq_self.mpr fun id hid => ?_
    obtain ⟨edge, hedge, heq⟩ := List.mem_map.mp (hlisted merge hmerge id hid)
    exact List.any_eq_true.mpr ⟨edge, hedge, decide_eq_true heq⟩
  rw [hids]
  rfl

/-- Reading the draft against its graph keeps its book. -/
theorem Structural.book_normalize (h : Structural graph draft)
    (hremoved : ∀ merge ∈ draft.book.merges, merge.duplicate ∈ draft.book.removed)
    (hlisted : ∀ merge ∈ draft.book.merges, ∀ id ∈ merge.edgeIds,
      id ∈ draft.book.added.map NewEdge.id) :
    (normalizeHumanDraft draft graph).book = draft.book := by
  have hknown : (draft.removedNodeIds.filter fun nodeId => (graph.nodes.get? nodeId).isSome) =
      draft.removedNodeIds := List.filter_eq_self.mpr h.known
  cases hmerges : draft.merges with
  | none => simp [HumanDraft.book, normalizeHumanDraft, hknown, hmerges]
  | some merges =>
      simp only [HumanDraft.book, hmerges, Option.getD_some] at hremoved hlisted
      simp [HumanDraft.book, normalizeHumanDraft, hknown, hmerges,
        normalizedMerges_eq hremoved hlisted]

theorem Structural.request (h : Structural graph draft) :
    toHumanSyncRequest draft graph =
      { baseRevision := graph.revision
        removedNodeIds := draft.book.removed
        nodes := []
        proposals := []
        ontology := none
        customNodes := []
        addedEdges := draft.book.sent
        removedEdgeIds := draft.book.dropped } := by
  simp only [toHumanSyncRequest, h.edgeBase, h.nodes, h.proposals, h.ontology, h.customNodes]
  rfl

/-- What a removal of a node does when it is not refused. -/
theorem Structural.removal (h : Structural graph draft) (hclean : draft.book.Clean)
    {nodeId : String} {active : Bool} {next : HumanDraft}
    (hnext : stageNodeRemoval? draft graph nodeId active = some next) :
    nodeId ∉ draft.book.removed ∧ Structural graph next ∧
      next.book = { draft.book with removed := draft.book.removed ++ [nodeId] } := by
  unfold stageNodeRemoval? at hnext
  split at hnext
  · cases hnext
  rename_i node hnode
  split at hnext
  · cases hnext
  rename_i hfree
  cases hnext
  simp only [Bool.or_eq_true, decide_eq_true_eq, not_or] at hfree
  have hstaged : Structural graph
      { draft with removedNodeIds := draft.removedNodeIds ++ [nodeId] } := by
    refine ⟨h.base, h.nodes, h.proposals, h.ontology, h.customNodes, h.edgeBase, ?_⟩
    intro removed hin
    rcases List.mem_append.mp hin with hin | hin
    · exact h.known removed hin
    · rw [List.mem_singleton.mp hin, hnode]
      rfl
  refine ⟨hfree.2, hstaged.normalize, ?_⟩
  exact hstaged.book_normalize
    (fun merge hmerge => List.mem_append_left _ (hclean.removed merge hmerge)) hclean.listed

/-- An operation that takes effect acts on the book, and the book allows it. -/
theorem Structural.step (h : Structural graph draft) (hissued : LinkBook.Issued ops draft.book)
    (hfresh : FreshIds graph.edges.values (ops ++ [op])) (heffect : takesEffect graph draft op) :
    draft.book.Allows op ∧ Structural graph (applyOp graph draft op) ∧
      (applyOp graph draft op).book = draft.book.apply graph.edges.values op := by
  have hclean := hissued.toClean
  cases op with
  | removeNode nodeId active =>
      obtain ⟨next, hnext⟩ := Option.isSome_iff_exists.mp heffect
      obtain ⟨hfree, hstructural, hbook⟩ := h.removal hclean hnext
      have happly : applyOp graph draft (.removeNode nodeId active) = next := by
        rw [applyOp, stageNodeRemoval, hnext, Option.getD_some]
      rw [happly]
      exact ⟨hfree, hstructural, hbook⟩
  | addEdge edge =>
      have hstaged : Structural graph { draft with addedEdges := draft.addedEdges ++ [edge] } :=
        ⟨h.base, h.nodes, h.proposals, h.ontology, h.customNodes, h.edgeBase, h.known⟩
      refine ⟨trivial, hstaged.normalize, hstaged.book_normalize hclean.removed ?_⟩
      intro merge hmerge id hid
      rw [HumanDraft.book, List.map_append]
      exact List.mem_append_left _ (hclean.listed merge hmerge id hid)
  | removeEdge edgeId =>
      -- A canonical link is none of those added.
      have hcanon : (draft.addedEdges.any fun edge => edge.id = edgeId) = false := by
        rw [List.any_eq_false]
        intro edge hedge heq
        have hin := hfresh.removals edgeId (by simp)
        obtain rfl := of_decide_eq_true heq
        rcases hissued.added edge hedge with hhand | ⟨earlier, hearlier, hdrew⟩
        · refine hfresh.hand edge.id ?_ hin
          rw [handIds_append]
          exact List.mem_append_left _ hhand
        · exact (hfresh.drawn earlier (List.mem_append_left _ hearlier) edge.id hdrew).2 hin
      have hstaged : Structural graph
          { draft with removedEdgeIds := (draft.removedEdgeIds ++ [edgeId]).eraseDups } :=
        ⟨h.base, h.nodes, h.proposals, h.ontology, h.customNodes, h.edgeBase, h.known⟩
      have happly : applyOp graph draft (.removeEdge edgeId) = normalizeHumanDraft
          { draft with removedEdgeIds := (draft.removedEdgeIds ++ [edgeId]).eraseDups } graph := by
        rw [applyOp, stageEdgeRemoval, hcanon]
        rfl
      rw [happly]
      exact ⟨trivial, hstaged.normalize, hstaged.book_normalize hclean.removed hclean.listed⟩
  | merge duplicateId canonicalId active uuids =>
      obtain ⟨hmergeable, hremovable⟩ := heffect
      obtain ⟨next, hnext⟩ := Option.isSome_iff_exists.mp hremovable
      have hnocustom : (draft.customNodes.get? duplicateId).isSome = false := by
        rw [h.customNodes]
        rfl
      have hremoval : stageNodeRemoval? draft graph duplicateId
          (decide (duplicateId ∈ active)) = some next := by
        simpa only [stageNodesRemovalOne?, hnocustom, Bool.false_eq_true, if_false] using hnext
      obtain ⟨hfree, hstructural, hbook⟩ := h.removal hclean hremoval
      have happly : applyOp graph draft (.merge duplicateId canonicalId active uuids) =
          normalizeHumanDraft
            { next with
              addedEdges := next.addedEdges ++ draft.book.copies graph.edges.values duplicateId
                canonicalId uuids
              merges := some (next.merges.getD [] ++
                [{ duplicate := duplicateId, canonical := canonicalId
                   edgeIds := (draft.book.copies graph.edges.values duplicateId canonicalId
                     uuids).map NewEdge.id }]) } graph := by
        rw [applyOp, stageMerge, if_pos hmergeable, hnext]
        rfl
      have hstaged : Structural graph
          { next with
            addedEdges := next.addedEdges ++ draft.book.copies graph.edges.values duplicateId
              canonicalId uuids
            merges := some (next.merges.getD [] ++
              [{ duplicate := duplicateId, canonical := canonicalId
                 edgeIds := (draft.book.copies graph.edges.values duplicateId canonicalId
                   uuids).map NewEdge.id }]) } :=
        ⟨hstructural.base, hstructural.nodes, hstructural.proposals, hstructural.ontology,
          hstructural.customNodes, hstructural.edgeBase, hstructural.known⟩
      simp only [mergeable, Bool.and_eq_true, decide_eq_true_eq] at hmergeable
      have hallows : draft.book.Allows (.merge duplicateId canonicalId active uuids) :=
        ⟨hfree, hmergeable.2, hmergeable.1.2⟩
      have hpages : HumanDraft.book
          { next with
            addedEdges := next.addedEdges ++ draft.book.copies graph.edges.values duplicateId
              canonicalId uuids
            merges := some (next.merges.getD [] ++
              [{ duplicate := duplicateId, canonical := canonicalId
                 edgeIds := (draft.book.copies graph.edges.values duplicateId canonicalId
                   uuids).map NewEdge.id }]) } =
          draft.book.apply graph.edges.values (.merge duplicateId canonicalId active uuids) := by
        have hremoved := congrArg LinkBook.removed hbook
        have hadded := congrArg LinkBook.added hbook
        have hdropped := congrArg LinkBook.dropped hbook
        have hmerges := congrArg LinkBook.merges hbook
        simp only [HumanDraft.book] at hremoved hadded hdropped hmerges
        simp only [HumanDraft.book, LinkBook.apply, Option.getD_some, hremoved, hadded, hdropped,
          hmerges]
      have hnextClean := (hissued.step hfresh hallows).toClean
      rw [happly]
      refine ⟨hallows, hstaged.normalize, (hstaged.book_normalize ?_ ?_).trans hpages⟩
      · rw [hpages]
        exact hnextClean.removed
      · rw [hpages]
        exact hnextClean.listed

/-- Undoing a merge acts on the book. -/
theorem Structural.unstage (h : Structural graph draft) (hclean : draft.book.Clean)
    {entry : DraftMerge} (hmerge : entry ∈ draft.book.merges) :
    Structural graph (unstageMerge draft graph entry.duplicate) ∧
      (unstageMerge draft graph entry.duplicate).book = draft.book.unmerge entry.duplicate := by
  have hfound := LinkBook.unmerge_found hmerge hclean
  have hany : ((draft.merges.getD []).any fun other => other.duplicate = entry.duplicate) = true :=
    List.any_eq_true.mpr ⟨entry, hmerge, decide_eq_true rfl⟩
  obtain ⟨merges, hmerges⟩ : ∃ merges, draft.merges = some merges := by
    cases hsome : draft.merges with
    | none =>
        rw [hsome] at hany
        cases hany
    | some merges => exact ⟨merges, rfl⟩
  have hunstaged : unstageNodeRemoval draft entry.duplicate =
      { draft with
        removedNodeIds := draft.removedNodeIds.filter (· ≠ entry.duplicate)
        addedEdges := draft.addedEdges.filter fun edge => decide (edge.id ∉ entry.edgeIds)
        merges := draft.merges.map fun merges => merges.erase entry } := by
    simp only [HumanDraft.book] at hfound
    simp only [unstageNodeRemoval, hfound]
  have hpages : (unstageNodeRemoval draft entry.duplicate).book =
      draft.book.unmerge entry.duplicate := by
    rw [LinkBook.unmerge_eq hfound, hunstaged]
    simp only [HumanDraft.book, hmerges, Option.map_some, Option.getD_some]
  have hstaged : Structural graph (unstageNodeRemoval draft entry.duplicate) := by
    rw [hunstaged]
    refine ⟨h.base, h.nodes, h.proposals, h.ontology, h.customNodes, h.edgeBase, ?_⟩
    exact fun nodeId hnode => h.known nodeId (List.mem_filter.mp hnode).1
  have hnext := hclean.unmerge hmerge
  rw [unstageMerge, if_pos hany]
  refine ⟨hstaged.normalize, (hstaged.book_normalize ?_ ?_).trans hpages⟩
  · rw [hpages]
    exact hnext.removed
  · rw [hpages]
    exact hnext.listed

/-- Over a sequence that takes effect the draft keeps the book of the sequence. -/
theorem structural_run (graph : GraphState) (ops : List DraftOp)
    (hfresh : FreshIds graph.edges.values ops)
    (heffect : All (applyOp graph) (takesEffect graph) (emptyHumanDraft graph.revision) ops) :
    Structural graph (walk (applyOp graph) (emptyHumanDraft graph.revision) ops) ∧
      (walk (applyOp graph) (emptyHumanDraft graph.revision) ops).book =
        walk (LinkBook.apply graph.edges.values) {} ops ∧
      All (LinkBook.apply graph.edges.values) LinkBook.Allows {} ops := by
  induction ops using List.reverseRecOn with
  | nil => exact ⟨structural_empty graph, rfl, fun _ h => by cases h⟩
  | append_singleton ops op ih =>
      obtain ⟨hbefore, hop⟩ := (all_concat ops op).mp heffect
      obtain ⟨hstructural, hbook, hall⟩ := ih hfresh.before hbefore
      have hissued := LinkBook.issued_run hfresh.before hall
      rw [← hbook] at hissued
      obtain ⟨hallows, hnext, hpages⟩ := hstructural.step hissued hfresh hop
      rw [walk_concat, walk_concat, ← hbook]
      refine ⟨hnext, hpages, (all_concat ops op).mpr ⟨hall, ?_⟩⟩
      rw [← hbook]
      exact hallows

end RcpGraph.Drafts
