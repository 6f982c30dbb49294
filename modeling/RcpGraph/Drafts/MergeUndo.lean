import RcpGraph.Drafts.Structural

/-!
Undoing a staged merge, on the drafts themselves: when it gives the Sync request of the same
sequence without the merge, and that undoing all merges always does.
-/

namespace RcpGraph.Drafts

open Walk

/-- The draft after a sequence of operations on an empty one. -/
def draftAfter (graph : GraphState) (ops : List DraftOp) : HumanDraft :=
  walk (applyOp graph) (emptyHumanDraft graph.revision) ops

/-- Every operation of the sequence takes effect. -/
def AllTakeEffect (graph : GraphState) (ops : List DraftOp) : Prop :=
  All (applyOp graph) (takesEffect graph) (emptyHumanDraft graph.revision) ops

/-- The request without the ids of copied links. -/
def forgetCopies (hand : List String) (request : HumanSyncRequest) : HumanSyncRequest :=
  { request with addedEdges := request.addedEdges.map (stripCopy hand) }

/-- The links of a duplicate that its kept node does not have yet. -/
def openLinks (draft : HumanDraft) (graph : GraphState) (duplicateId canonicalId : String) :
    List NewEdge :=
  draft.book.openLinks graph.edges.values duplicateId canonicalId

/-- Undoing the merge gives the request of the sequence without it. -/
def UnstagesMerge (graph : GraphState) (hand : List String) (before : List DraftOp)
    (merge : DraftOp) (after : List DraftOp) (duplicateId : String) : Prop :=
  forgetCopies hand (toHumanSyncRequest
      (unstageMerge (draftAfter graph (before ++ merge :: after)) graph duplicateId) graph) =
    forgetCopies hand (toHumanSyncRequest (draftAfter graph (before ++ after)) graph)

/-- Every later merge finds the same open links with and without the merge. -/
def LaterMergesAlike (graph : GraphState) (before : List DraftOp) (merge : DraftOp)
    (after : List DraftOp) : Prop :=
  ∀ earlier later duplicateId canonicalId active uuids,
    after = earlier ++ .merge duplicateId canonicalId active uuids :: later →
    openLinks (draftAfter graph (before ++ merge :: earlier)) graph duplicateId canonicalId =
      openLinks (draftAfter graph (before ++ earlier)) graph duplicateId canonicalId

variable {graph : GraphState} {draft draft' : HumanDraft} {hand : List String}
  {before after ops : List DraftOp} {op : DraftOp} {canon : List NewEdge}

theorem FreshIds.without (h : FreshIds canon (before ++ op :: after)) :
    FreshIds canon (before ++ after) :=
  h.sublist ((List.sublist_cons_self op after).append_left before)

theorem request_eq_iff (h : Structural graph draft) (h' : Structural graph draft') :
    forgetCopies hand (toHumanSyncRequest draft graph) =
        forgetCopies hand (toHumanSyncRequest draft' graph) ↔
      LinkBook.SameRequest hand draft.book draft'.book := by
  rw [h.request, h'.request]
  simp only [forgetCopies, HumanSyncRequest.mk.injEq, true_and]
  exact ⟨fun heq => ⟨heq.1, heq.2.1, heq.2.2⟩, fun hsame => ⟨hsame.removed, hsame.sent, hsame.dropped⟩⟩

/-- A merge in the book stays there. -/
theorem mem_merges_walk {book : LinkBook} {entry : DraftMerge} (hentry : entry ∈ book.merges)
    (ops : List DraftOp) : entry ∈ (walk (LinkBook.apply canon) book ops).merges := by
  induction ops generalizing book with
  | nil => exact hentry
  | cons op ops ih =>
      refine ih ?_
      cases op with
      | merge => exact List.mem_append_left _ hentry
      | addEdge | removeEdge | removeNode => exact hentry

section Sequence

variable {duplicateId canonicalId : String} {active : List String} {uuids : Nat → String}
  (hfresh : FreshIds graph.edges.values
    (before ++ .merge duplicateId canonicalId active uuids :: after))
  (heffect : AllTakeEffect graph (before ++ .merge duplicateId canonicalId active uuids :: after))
  (hwithout : AllTakeEffect graph (before ++ after))


include hfresh heffect in
/-- The draft with the merge, after a part of the rest of the sequence. -/
theorem with_run {rest later : List DraftOp} (hrest : after = rest ++ later) :
    Structural graph
        (draftAfter graph (before ++ .merge duplicateId canonicalId active uuids :: rest)) ∧
      (draftAfter graph (before ++ .merge duplicateId canonicalId active uuids :: rest)).book =
        walk (LinkBook.apply graph.edges.values)
          ((walk (LinkBook.apply graph.edges.values) {} before).apply graph.edges.values
            (.merge duplicateId canonicalId active uuids)) rest := by
  have hops : before ++ .merge duplicateId canonicalId active uuids :: after =
      (before ++ .merge duplicateId canonicalId active uuids :: rest) ++ later := by
    rw [hrest, List.append_assoc, List.cons_append]
  rw [hops] at hfresh
  rw [AllTakeEffect, hops] at heffect
  obtain ⟨hstructural, hbook, -⟩ :=
    structural_run graph _ hfresh.before ((all_append _ later).mp heffect).1
  refine ⟨hstructural, hbook.trans ?_⟩
  rw [walk_append]
  rfl

include hfresh hwithout in
theorem without_run {rest later : List DraftOp} (hrest : after = rest ++ later) :
    Structural graph (draftAfter graph (before ++ rest)) ∧
      (draftAfter graph (before ++ rest)).book =
        walk (LinkBook.apply graph.edges.values)
          (walk (LinkBook.apply graph.edges.values) {} before) rest := by
  have hops : before ++ after = (before ++ rest) ++ later := by rw [hrest, List.append_assoc]
  have hplain := hfresh.without
  rw [hops] at hplain
  rw [AllTakeEffect, hops] at hwithout
  obtain ⟨hstructural, hbook, -⟩ :=
    structural_run graph _ hplain.before ((all_append _ later).mp hwithout).1
  exact ⟨hstructural, hbook.trans (walk_append before rest)⟩

include hfresh heffect hwithout in
/-- The request comes out right exactly if the books send the same. -/
theorem unstagesMerge_iff {rest later : List DraftOp} (hrest : after = rest ++ later) :
    UnstagesMerge graph hand before (.merge duplicateId canonicalId active uuids) rest
        duplicateId ↔
      LinkBook.SameRequest hand
        ((walk (LinkBook.apply graph.edges.values)
          ((walk (LinkBook.apply graph.edges.values) {} before).apply graph.edges.values
            (.merge duplicateId canonicalId active uuids)) rest).unmerge duplicateId)
        (walk (LinkBook.apply graph.edges.values)
          (walk (LinkBook.apply graph.edges.values) {} before) rest) := by
  obtain ⟨hwith, hbook⟩ := with_run hfresh heffect hrest
  obtain ⟨hplain, hbook'⟩ := without_run hfresh hwithout hrest
  have hops : before ++ .merge duplicateId canonicalId active uuids :: after =
      (before ++ .merge duplicateId canonicalId active uuids :: rest) ++ later := by
    rw [hrest, List.append_assoc, List.cons_append]
  rw [hops] at hfresh
  rw [AllTakeEffect, hops] at heffect
  obtain ⟨-, hwalk, hall⟩ :=
    structural_run graph _ hfresh.before ((all_append _ later).mp heffect).1
  have hclean := (LinkBook.issued_run hfresh.before hall).toClean
  rw [← hwalk] at hclean
  have hentry : DraftMerge.mk duplicateId canonicalId
      (((walk (LinkBook.apply graph.edges.values) {} before).copies graph.edges.values duplicateId
        canonicalId uuids).map NewEdge.id) ∈
      (draftAfter graph (before ++ .merge duplicateId canonicalId active uuids ::
        rest)).book.merges := by
    rw [hbook]
    exact mem_merges_walk (List.mem_append_right _ (List.mem_singleton_self _)) rest
  obtain ⟨hstructural, hunmerged⟩ := hwith.unstage hclean hentry
  rw [UnstagesMerge, request_eq_iff hstructural hplain, hunmerged, hbook, hbook']

include hfresh heffect hwithout in
/-- Along the rest of the sequence the request comes out right exactly as long as every later
merge finds the same open links with and without the merge. -/
theorem unstages_iff :
    (∀ n, UnstagesMerge graph
        (handIds (before ++ .merge duplicateId canonicalId active uuids :: after)) before
        (.merge duplicateId canonicalId active uuids) (after.take n) duplicateId) ↔
      LaterMergesAlike graph before (.merge duplicateId canonicalId active uuids) after := by
  obtain ⟨-, -, hall⟩ := structural_run graph _ hfresh heffect
  obtain ⟨hallBefore, hallRest⟩ := (all_append before _).mp hall
  obtain ⟨hallows, hallAfter⟩ := (all_cons _ after).mp hallRest
  have hfreshMerge : FreshIds graph.edges.values
      ((before ++ [.merge duplicateId canonicalId active uuids]) ++ after) := by
    rw [List.append_assoc]
    exact hfresh
  have hissued := LinkBook.issued_run hfreshMerge.before.before hallBefore
  have halike : LinkBook.Alike
      (handIds (before ++ .merge duplicateId canonicalId active uuids :: after)) _ _ _ :=
    hissued.alike hfreshMerge.before hallows
  have hown : ∀ op ∈ after, LinkBook.OwnIds
      (handIds (before ++ .merge duplicateId canonicalId active uuids :: after))
      (DraftMerge.mk duplicateId canonicalId
        (((walk (LinkBook.apply graph.edges.values) {} before).copies graph.edges.values
          duplicateId canonicalId uuids).map NewEdge.id)) op := by
    intro op hop
    have hin : op ∈ before ++ .merge duplicateId canonicalId active uuids :: after :=
      List.mem_append_right _ (List.mem_cons_of_mem _ hop)
    refine ⟨fun id hid => ?_, fun id hdraws => ?_⟩
    · have hhand : id ∈ handIds (before ++ .merge duplicateId canonicalId active uuids :: after) :=
        List.mem_filterMap.mpr ⟨op, hin, hid⟩
      refine ⟨hhand, fun hcopied => ?_⟩
      exact (hfresh.drawn _ (List.mem_append_right _ List.mem_cons_self) id
        (LinkBook.mem_copies_ids hcopied)).1 hhand
    · refine ⟨(hfresh.drawn op hin id hdraws).1, fun hcopied => ?_⟩
      exact (List.pairwise_cons.mp (List.pairwise_append.mp hfresh.apart).2.1).1 op hop id
        (LinkBook.mem_copies_ids hcopied) hdraws
  refine Iff.trans (forall_congr' fun n => ?_) ((halike.run hallAfter hown).trans ?_)
  · exact unstagesMerge_iff hfresh heffect hwithout (List.take_append_drop n after).symm
  · have hlinks : ∀ earlier later duplicateId' canonicalId',
        after = earlier ++ later →
        openLinks (draftAfter graph
            (before ++ .merge duplicateId canonicalId active uuids :: earlier)) graph
            duplicateId' canonicalId' =
          (walk (LinkBook.apply graph.edges.values)
            ((walk (LinkBook.apply graph.edges.values) {} before).apply graph.edges.values
              (.merge duplicateId canonicalId active uuids)) earlier).openLinks
              graph.edges.values duplicateId' canonicalId' ∧
        openLinks (draftAfter graph (before ++ earlier)) graph duplicateId' canonicalId' =
          (walk (LinkBook.apply graph.edges.values)
            (walk (LinkBook.apply graph.edges.values) {} before) earlier).openLinks
              graph.edges.values duplicateId' canonicalId' := by
      intro earlier later duplicateId' canonicalId' hsplit
      rw [openLinks, openLinks, (with_run hfresh heffect hsplit).2,
        (without_run hfresh hwithout hsplit).2]
      exact ⟨rfl, rfl⟩
    refine ⟨fun hopen earlier later duplicateId' canonicalId' active' uuids' hsplit => ?_,
      fun hopen earlier later duplicateId' canonicalId' active' uuids' hsplit => ?_⟩
    · obtain ⟨hwith, hplain⟩ := hlinks earlier _ duplicateId' canonicalId' hsplit
      rw [hwith, hplain]
      exact hopen earlier later duplicateId' canonicalId' active' uuids' hsplit
    · obtain ⟨hwith, hplain⟩ := hlinks earlier _ duplicateId' canonicalId' hsplit
      rw [← hwith, ← hplain]
      exact hopen earlier later duplicateId' canonicalId' active' uuids' hsplit

end Sequence

/-- Undoing all merges in some order acts on the book merge by merge. -/
theorem Structural.unstage_all (h : Structural graph draft) (hclean : draft.book.Clean)
    (order : List String)
    (horder : order.Perm (draft.book.merges.map DraftMerge.duplicate)) :
    Structural graph (order.foldl (fun draft duplicate => unstageMerge draft graph duplicate) draft) ∧
      (order.foldl (fun draft duplicate => unstageMerge draft graph duplicate) draft).book =
        order.foldl LinkBook.unmerge draft.book := by
  induction order generalizing draft with
  | nil => exact ⟨h, rfl⟩
  | cons duplicateId order ih =>
      obtain ⟨entry, hmerge, rfl⟩ := List.mem_map.mp (horder.subset List.mem_cons_self)
      obtain ⟨hstructural, hbook⟩ := h.unstage hclean hmerge
      have hnext : (unstageMerge draft graph entry.duplicate).book.Clean := by
        rw [hbook]
        exact hclean.unmerge hmerge
      have hrest : order.Perm ((unstageMerge draft graph entry.duplicate).book.merges.map
          DraftMerge.duplicate) := by
        rw [hbook, LinkBook.unmerge_eq (LinkBook.unmerge_found hmerge hclean)]
        exact (horder.trans
          ((List.perm_cons_erase hmerge).map DraftMerge.duplicate)).cons_inv
      rw [List.foldl_cons, List.foldl_cons, ← hbook]
      exact ih hstructural hnext hrest

/-- When undoing merges is as if they had never been staged. -/
structure UnstagesMerges (graph : GraphState) (ops : List DraftOp) : Prop where
  /-- Undoing one: exactly as long as every later merge finds the same open links with and
  without it. -/
  one : ∀ before after duplicateId canonicalId active uuids,
    ops = before ++ .merge duplicateId canonicalId active uuids :: after →
    AllTakeEffect graph (before ++ after) →
    ((∀ n, UnstagesMerge graph (handIds ops) before
        (.merge duplicateId canonicalId active uuids) (after.take n) duplicateId) ↔
      LaterMergesAlike graph before (.merge duplicateId canonicalId active uuids) after)
  /-- Undoing all: always, in whatever order. -/
  all : AllTakeEffect graph (LinkBook.plainOps ops) →
    ∀ order : List String,
      order.Perm (((draftAfter graph ops).merges.getD []).map DraftMerge.duplicate) →
      toHumanSyncRequest (order.foldl (fun draft duplicate => unstageMerge draft graph duplicate)
          (draftAfter graph ops)) graph =
        toHumanSyncRequest (draftAfter graph (LinkBook.plainOps ops)) graph

theorem unstages_merges (graph : GraphState) (ops : List DraftOp)
    (hfresh : FreshIds graph.edges.values ops) (heffect : AllTakeEffect graph ops) :
    UnstagesMerges graph ops := by
  refine ⟨fun before after duplicateId canonicalId active uuids hops hwithout => ?_,
    fun hplain order horder => ?_⟩
  · subst hops
    exact unstages_iff hfresh heffect hwithout
  · obtain ⟨hstructural, hbook, hall⟩ := structural_run graph ops hfresh heffect
    have hissued := LinkBook.issued_run hfresh hall
    have hfreshPlain : FreshIds graph.edges.values (LinkBook.plainOps ops) :=
      hfresh.sublist List.filter_sublist
    obtain ⟨hstructuralPlain, hbookPlain, -⟩ := structural_run graph _ hfreshPlain hplain
    have hclean : (draftAfter graph ops).book.Clean := by
      rw [draftAfter, hbook]
      exact hissued.toClean
    obtain ⟨hunstaged, hpages⟩ := hstructural.unstage_all hclean order horder
    have hwithoutMerges := LinkBook.withoutMerges_run hfresh hall
    rw [← hbook, ← hbookPlain] at hwithoutMerges
    obtain ⟨hremoved, hadded, hdropped⟩ := hwithoutMerges.unmerge_all hclean order horder
    rw [draftAfter, draftAfter, hunstaged.request, hstructuralPlain.request, hpages, hremoved,
      hdropped, LinkBook.sent, LinkBook.sent, hadded, LinkBook.keeps_congr hremoved]

section Examples

def sampleNode : GraphNode where
  type := .hypothesis
  extensionType := none
  standing := .asserted
  updatedRev := 1
  attempts := none
  fields := .empty

def sampleLink (id source target : String) : NewEdge where
  id
  source
  target
  relation := "supports"
  explanation := id

/-- Two duplicates of a kept node, both linked to one other node. -/
def sampleGraph : GraphState where
  revision := 1
  nodes := .ofList (["hyp/a", "hyp/b", "hyp/k", "hyp/n"].map fun id => (id, sampleNode))
  edges := .ofList [("edge/1", sampleLink "edge/1" "hyp/a" "hyp/n"),
    ("edge/2", sampleLink "edge/2" "hyp/b" "hyp/n")]
  proposals := .empty
  ontology := .null

def mergingInto (duplicateId uuid : String) : DraftOp :=
  .merge duplicateId "hyp/k" [] fun _ => uuid

def sampleOps : List DraftOp := [mergingInto "hyp/a" "u", mergingInto "hyp/b" "v"]

theorem fresh_sampleOps : FreshIds sampleGraph.edges.values sampleOps where
  hand id hid := by simp [sampleOps, handIds, DraftOp.handId, mergingInto] at hid
  drawn op hop id hdraws := by
    refine ⟨by simp [sampleOps, handIds, DraftOp.handId, mergingInto], ?_⟩
    have hedges : sampleGraph.edges.values.map NewEdge.id = ["edge/1", "edge/2"] := by
      decide +kernel
    rw [hedges]
    have hu : "edge/" ++ "u" ∉ ["edge/1", "edge/2"] := by decide +kernel
    have hv : "edge/" ++ "v" ∉ ["edge/1", "edge/2"] := by decide +kernel
    simp only [sampleOps, mergingInto, List.mem_cons, List.not_mem_nil, or_false] at hop
    rcases hop with hop | hop <;> subst hop <;> obtain ⟨n, hn⟩ := hdraws <;> subst hn
    · exact hu
    · exact hv
  apart := by
    have hapart : ∀ id, (mergingInto "hyp/a" "u").draws id →
        ¬ (mergingInto "hyp/b" "v").draws id := by
      intro id hu hv
      obtain ⟨n, hn⟩ := hu
      obtain ⟨n', hn'⟩ := hv
      have hne : "edge/" ++ "u" ≠ "edge/" ++ "v" := by decide +kernel
      exact hne (hn.symm.trans hn')
    simpa [sampleOps] using hapart
  removals edgeId hin := by simp [sampleOps, mergingInto] at hin

theorem allTakeEffect_sampleOps : AllTakeEffect sampleGraph sampleOps := by
  intro passed hpassed
  simp only [sampleOps, visited, List.mem_cons, List.not_mem_nil, or_false] at hpassed
  rcases hpassed with rfl | rfl
  · exact ⟨by decide +kernel, by decide +kernel⟩
  · exact ⟨by decide +kernel, by decide +kernel⟩

theorem unstages_merges_sample : UnstagesMerges sampleGraph sampleOps :=
  unstages_merges sampleGraph sampleOps fresh_sampleOps allTakeEffect_sampleOps

theorem allTakeEffect_sampleOps_tail :
    AllTakeEffect sampleGraph [mergingInto "hyp/b" "v"] := by
  intro passed hpassed
  simp only [visited, List.mem_cons, List.not_mem_nil, or_false] at hpassed
  subst hpassed
  exact ⟨by decide +kernel, by decide +kernel⟩

/-- The second merge leaves the link out because the first one had copied it; when the first is
undone, no copy is left. -/
theorem unstaged_merge_loses_link :
    ¬ ∀ (graph : GraphState) (before after : List DraftOp) (duplicateId canonicalId : String)
      (active : List String) (uuids : Nat → String),
      FreshIds graph.edges.values
        (before ++ .merge duplicateId canonicalId active uuids :: after) →
      AllTakeEffect graph (before ++ .merge duplicateId canonicalId active uuids :: after) →
      AllTakeEffect graph (before ++ after) →
      UnstagesMerge graph
        (handIds (before ++ .merge duplicateId canonicalId active uuids :: after)) before
        (.merge duplicateId canonicalId active uuids) after duplicateId := by
  intro hunstages
  have hsame := hunstages sampleGraph [] [mergingInto "hyp/b" "v"] "hyp/a" "hyp/k" [] (fun _ => "u")
    fresh_sampleOps allTakeEffect_sampleOps allTakeEffect_sampleOps_tail
  have hlinks := congrArg (fun request => request.addedEdges.length) hsame
  exact absurd hlinks (by decide +kernel)

end Examples

end RcpGraph.Drafts
