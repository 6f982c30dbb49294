import RcpGraph.Lib.Walk
import RcpGraph.Drafts.Merging

/-!
What staging does to links and removed nodes alone: the book a draft keeps of them, beside
fixed canonical links. Merging copies links; undoing a merge strikes its copies out.
-/

namespace RcpGraph.Drafts

inductive DraftOp where
  | merge (duplicateId canonicalId : String) (activeExperimentIds : List String)
      (uuids : Nat → String)
  | addEdge (edge : NewEdge)
  | removeEdge (edgeId : String)
  | removeNode (nodeId : String) (experimentLoopActive : Bool)

structure LinkBook where
  removed : List String := []
  added : List NewEdge := []
  dropped : List String := []
  merges : List DraftMerge := []
  deriving DecidableEq

namespace LinkBook

variable (book : LinkBook) (canon : List NewEdge)

/-- Both ends of the link are kept. -/
def keeps (edge : NewEdge) : Bool :=
  decide (edge.source ∉ book.removed) && decide (edge.target ∉ book.removed)

def live : List NewEdge :=
  ((canon.filter fun edge => decide (edge.id ∉ book.dropped)) ++ book.added).filter book.keeps

def copies (duplicateId canonicalId : String) (uuids : Nat → String) : List NewEdge :=
  copyEdges duplicateId canonicalId uuids ((book.live canon).map edgeKey) 0 (book.live canon)

def apply (canon : List NewEdge) (book : LinkBook) : DraftOp → LinkBook
  | .merge duplicateId canonicalId _ uuids =>
      let copies := book.copies canon duplicateId canonicalId uuids
      { book with
        removed := book.removed ++ [duplicateId]
        added := book.added ++ copies
        merges := book.merges ++ [{ duplicate := duplicateId, canonical := canonicalId
                                    edgeIds := copies.map NewEdge.id }] }
  | .addEdge edge => { book with added := book.added ++ [edge] }
  | .removeEdge edgeId => { book with dropped := (book.dropped ++ [edgeId]).eraseDups }
  | .removeNode nodeId _ => { book with removed := book.removed ++ [nodeId] }

def unmerge (duplicateId : String) : LinkBook :=
  match book.merges.find? fun entry => entry.duplicate = duplicateId with
  | none => book
  | some merge =>
      { book with
        removed := book.removed.filter (· ≠ duplicateId)
        added := book.added.filter fun edge => decide (edge.id ∉ merge.edgeIds)
        merges := book.merges.erase merge }

/-- The staged links that are sent. -/
def sent : List NewEdge := book.added.filter book.keeps

end LinkBook

/-- A link without its id. -/
def NewEdge.forget (edge : NewEdge) : NewEdge := { edge with id := "" }

/-- A link, without its id unless it was staged by hand. -/
def stripCopy (handIds : List String) (edge : NewEdge) : NewEdge :=
  if edge.id ∈ handIds then edge else edge.forget

/-- The links of a duplicate as they are at its kept node, without those that become loops. -/
def redirected (duplicateId canonicalId : String) (edges : List NewEdge) : List NewEdge :=
  (((edges.filter fun edge => edge.touches duplicateId).map (redirect duplicateId canonicalId)).filter
    fun edge => decide (edge.source ≠ edge.target)).map NewEdge.forget

/-- The links of a duplicate that its kept node does not have yet, the first of each kind. -/
def LinkBook.openLinks (book : LinkBook) (canon : List NewEdge)
    (duplicateId canonicalId : String) : List NewEdge :=
  List.firstOfKey edgeKey ((book.live canon).map edgeKey)
    (redirected duplicateId canonicalId (book.live canon))

section Copies

variable {duplicateId canonicalId : String} {uuids : Nat → String} {edges : List NewEdge}
  {existing : List LinkKey} {drawn : Nat} {copy : NewEdge} {handIds : List String}

theorem mem_copyEdges (hcopy : copy ∈ copyEdges duplicateId canonicalId uuids existing drawn edges) :
    (∃ n, copy.id = "edge/" ++ uuids n) ∧ ∃ edge ∈ edges, edge.touches duplicateId = true ∧
      copy.source = (redirect duplicateId canonicalId edge).source ∧
      copy.target = (redirect duplicateId canonicalId edge).target := by
  induction edges generalizing existing drawn with
  | nil => cases hcopy
  | cons edge edges ih =>
      have hlater : ∀ existing drawn,
          copy ∈ copyEdges duplicateId canonicalId uuids existing drawn edges →
          (∃ n, copy.id = "edge/" ++ uuids n) ∧ ∃ e ∈ edge :: edges,
            e.touches duplicateId = true ∧
            copy.source = (redirect duplicateId canonicalId e).source ∧
            copy.target = (redirect duplicateId canonicalId e).target := by
        intro existing drawn hin
        obtain ⟨hid, e, he, hrest⟩ := ih hin
        exact ⟨hid, e, List.mem_cons_of_mem edge he, hrest⟩
      unfold copyEdges at hcopy
      split at hcopy
      · rename_i htouches
        dsimp only at hcopy
        split at hcopy
        · exact hlater existing (drawn + 1) hcopy
        · rcases List.mem_cons.mp hcopy with rfl | hcopy
          · exact ⟨⟨drawn, rfl⟩, edge, List.mem_cons_self, htouches, rfl, rfl⟩
          · exact hlater _ (drawn + 1) hcopy
      · exact hlater existing drawn hcopy

theorem redirected_other {edge : NewEdge} (htouches : edge.touches duplicateId = false) :
    redirected duplicateId canonicalId (edge :: edges) =
      redirected duplicateId canonicalId edges := by
  simp only [redirected, List.filter_cons, htouches, Bool.false_eq_true, if_false]

theorem redirected_loop {edge : NewEdge} (htouches : edge.touches duplicateId = true)
    (hloop : (redirect duplicateId canonicalId edge).source =
      (redirect duplicateId canonicalId edge).target) :
    redirected duplicateId canonicalId (edge :: edges) =
      redirected duplicateId canonicalId edges := by
  simp only [redirected, List.filter_cons, htouches, if_true, List.map_cons, hloop, ne_eq,
    not_true_eq_false, decide_false, Bool.false_eq_true, if_false]

theorem redirected_link {edge : NewEdge} (htouches : edge.touches duplicateId = true)
    (hloop : (redirect duplicateId canonicalId edge).source ≠
      (redirect duplicateId canonicalId edge).target) :
    redirected duplicateId canonicalId (edge :: edges) =
      (redirect duplicateId canonicalId edge).forget ::
        redirected duplicateId canonicalId edges := by
  simp only [redirected, List.filter_cons, htouches, if_true, List.map_cons, hloop, ne_eq,
    not_false_eq_true, decide_true]

/-- Up to their ids the copies do not depend on what is drawn. -/
theorem forget_copyEdges :
    (copyEdges duplicateId canonicalId uuids existing drawn edges).map NewEdge.forget =
      List.firstOfKey edgeKey existing (redirected duplicateId canonicalId edges) := by
  induction edges generalizing existing drawn with
  | nil => rfl
  | cons edge edges ih =>
      rw [copyEdges]
      cases htouches : edge.touches duplicateId with
      | false =>
          rw [if_neg (by simp), redirected_other htouches]
          exact ih
      | true =>
          rw [if_pos rfl]
          by_cases hloop : (redirect duplicateId canonicalId edge).source =
              (redirect duplicateId canonicalId edge).target
          · rw [redirected_loop htouches hloop]
            exact (congrArg (List.map NewEdge.forget) (if_pos (.inl hloop))).trans ih
          · rw [redirected_link htouches hloop, List.firstOfKey]
            by_cases hin : edgeKey (redirect duplicateId canonicalId edge).forget ∈ existing
            · rw [if_pos hin]
              exact (congrArg (List.map NewEdge.forget) (if_pos (.inr hin))).trans ih
            · rw [if_neg hin]
              refine (congrArg (List.map NewEdge.forget)
                (if_neg (not_or.mpr ⟨hloop, hin⟩))).trans ?_
              rw [List.map_cons, ih]
              rfl

theorem forget_copies (book : LinkBook) (canon : List NewEdge) :
    (book.copies canon duplicateId canonicalId uuids).map NewEdge.forget =
      book.openLinks canon duplicateId canonicalId :=
  forget_copyEdges

/-- Copied links are recognised by their ids. -/
theorem strip_copies (book : LinkBook) (canon : List NewEdge)
    (hfresh : ∀ n, "edge/" ++ uuids n ∉ handIds) :
    (book.copies canon duplicateId canonicalId uuids).map (stripCopy handIds) =
      book.openLinks canon duplicateId canonicalId := by
  refine (List.map_congr_left fun copy hcopy => ?_).trans (forget_copies book canon)
  obtain ⟨n, hid⟩ := (mem_copyEdges hcopy).1
  exact if_neg (hid ▸ hfresh n)

theorem mem_live {book : LinkBook} {canon : List NewEdge} {edge : NewEdge}
    (hlive : edge ∈ book.live canon) : edge.source ∉ book.removed ∧ edge.target ∉ book.removed := by
  have hkeeps := (List.mem_filter.mp hlive).2
  simpa [LinkBook.keeps] using hkeeps

/-- The ends of a copy are the kept node and nodes that are kept beside the duplicate. -/
theorem copies_keep {book : LinkBook} {canon : List NewEdge} {removed : List String}
    (hsub : ∀ x ∈ removed, x ∈ book.removed) (hkept : canonicalId ∉ book.removed)
    (hne : duplicateId ≠ canonicalId)
    (hcopy : copy ∈ book.copies canon duplicateId canonicalId uuids) :
    copy.source ∉ removed ++ [duplicateId] ∧ copy.target ∉ removed ++ [duplicateId] := by
  obtain ⟨-, edge, hedge, -, hsource, htarget⟩ := mem_copyEdges hcopy
  obtain ⟨hkeptSource, hkeptTarget⟩ := mem_live hedge
  have hend : ∀ x, x ∉ book.removed →
      (if x = duplicateId then canonicalId else x) ∉ removed ++ [duplicateId] := by
    intro x hx
    rw [List.mem_append, List.mem_singleton, not_or]
    split
    · exact ⟨fun hin => hkept (hsub canonicalId hin), fun heq => hne heq.symm⟩
    · rename_i hother
      exact ⟨fun hin => hx (hsub x hin), hother⟩
  exact ⟨hsource ▸ hend edge.source hkeptSource, htarget ▸ hend edge.target hkeptTarget⟩

end Copies

end RcpGraph.Drafts
