import RcpGraph.Drafts.LinkBook

/-!
Two books of one sequence, with and without one of its merges. As long as every later merge
finds the same open links in both, striking the copies of the merge out of the one gives the
other, up to the ids of copies; and not a step longer.
-/

namespace RcpGraph.Drafts

open Walk

/-- The operation may draw the id for a copied link. -/
def DraftOp.draws (op : DraftOp) (id : String) : Prop :=
  match op with
  | .merge _ _ _ uuids => ∃ n, id = "edge/" ++ uuids n
  | _ => False

def DraftOp.handId : DraftOp → Option String
  | .addEdge edge => some edge.id
  | _ => none

/-- The ids of the links that were staged by hand. -/
def handIds (ops : List DraftOp) : List String := ops.filterMap DraftOp.handId

/-- Staged links have fresh ids, and the links that are removed are canonical. -/
structure FreshIds (canon : List NewEdge) (ops : List DraftOp) : Prop where
  hand : ∀ id ∈ handIds ops, id ∉ canon.map NewEdge.id
  drawn : ∀ op ∈ ops, ∀ id, op.draws id → id ∉ handIds ops ∧ id ∉ canon.map NewEdge.id
  apart : ops.Pairwise fun op op' => ∀ id, op.draws id → ¬ op'.draws id
  removals : ∀ edgeId, .removeEdge edgeId ∈ ops → edgeId ∈ canon.map NewEdge.id

namespace LinkBook

variable {canon : List NewEdge} {book book' : LinkBook} {op : DraftOp} {ops : List DraftOp}
  {hand : List String} {entry : DraftMerge}

/-- The book lets the operation take effect. -/
def Allows (book : LinkBook) : DraftOp → Prop
  | .merge duplicateId canonicalId _ _ =>
      duplicateId ∉ book.removed ∧ canonicalId ∉ book.removed ∧ duplicateId ≠ canonicalId
  | .removeNode nodeId _ => nodeId ∉ book.removed
  | _ => True

/-- The two books send the same, up to the ids of copies. -/
structure SameRequest (hand : List String) (book book' : LinkBook) : Prop where
  removed : book.removed = book'.removed
  sent : book.sent.map (stripCopy hand) = book'.sent.map (stripCopy hand)
  dropped : book.dropped = book'.dropped

/-- The one book is the other with a merge in it. -/
structure Alike (hand : List String) (entry : DraftMerge) (book book' : LinkBook) : Prop where
  gone : entry.duplicate ∈ book.removed
  removed : book.removed.filter (· ≠ entry.duplicate) = book'.removed
  dropped : book.dropped = book'.dropped
  added : (book.added.filter fun edge => decide (edge.id ∉ entry.edgeIds)).map (stripCopy hand) =
    book'.added.map (stripCopy hand)
  found : book.merges.find? (fun other => other.duplicate = entry.duplicate) = some entry

@[simp] theorem source_stripCopy (hand : List String) (edge : NewEdge) :
    (stripCopy hand edge).source = edge.source := by
  unfold stripCopy
  split <;> rfl

@[simp] theorem target_stripCopy (hand : List String) (edge : NewEdge) :
    (stripCopy hand edge).target = edge.target := by
  unfold stripCopy
  split <;> rfl

theorem keeps_stripCopy (book : LinkBook) (edge : NewEdge) :
    book.keeps (stripCopy hand edge) = book.keeps edge := by
  simp only [keeps, source_stripCopy, target_stripCopy]

/-- What is sent is read off the links without their ids. -/
theorem map_filter_keeps (book : LinkBook) (edges : List NewEdge) :
    (edges.filter book.keeps).map (stripCopy hand) =
      (edges.map (stripCopy hand)).filter book.keeps := by
  rw [List.filter_map]
  refine congrArg (List.map (stripCopy hand)) (List.filter_congr fun edge _ => ?_)
  exact (keeps_stripCopy book edge).symm

theorem keeps_congr (h : book.removed = book'.removed) : book.keeps = book'.keeps := by
  funext edge
  simp only [keeps, h]

theorem unmerge_eq (h : book.merges.find? (fun other => other.duplicate = entry.duplicate) =
    some entry) :
    book.unmerge entry.duplicate =
      { book with
        removed := book.removed.filter (· ≠ entry.duplicate)
        added := book.added.filter fun edge => decide (edge.id ∉ entry.edgeIds)
        merges := book.merges.erase entry } := by
  simp only [unmerge, h]

/-- Undoing the merge gives the request of the other book. -/
theorem Alike.sameRequest (h : Alike hand entry book book') :
    SameRequest hand (book.unmerge entry.duplicate) book' := by
  rw [unmerge_eq h.found]
  refine ⟨h.removed, ?_, h.dropped⟩
  rw [sent, sent, map_filter_keeps, map_filter_keeps, h.added]
  exact congrArg (fun keeps => (book'.added.map (stripCopy hand)).filter keeps)
    (keeps_congr h.removed)

/-- Copies with ids of their own are not struck out. -/
theorem copies_apart {duplicateId canonicalId : String} {uuids : Nat → String} {ids : List String}
    (hids : ∀ n, "edge/" ++ uuids n ∉ ids) :
    (book.copies canon duplicateId canonicalId uuids).filter
        (fun edge => decide (edge.id ∉ ids)) =
      book.copies canon duplicateId canonicalId uuids := by
  refine List.filter_eq_self.mpr fun copy hcopy => ?_
  obtain ⟨n, hid⟩ := (mem_copyEdges hcopy).1
  exact decide_eq_true (hid ▸ hids n)

section Steps

variable (h : Alike hand entry book book') (hallows : book.Allows op)
  (hhand : ∀ id, op.handId = some id → id ∈ hand ∧ id ∉ entry.edgeIds)
  (hdrawn : ∀ id, op.draws id → id ∉ hand ∧ id ∉ entry.edgeIds)

include h in
theorem Alike.ne_of_not_mem {nodeId : String} (hnode : nodeId ∉ book.removed) :
    nodeId ≠ entry.duplicate := fun heq => hnode (heq ▸ h.gone)

include h in
theorem Alike.removed_concat {nodeId : String} (hnode : nodeId ∉ book.removed) :
    (book.removed ++ [nodeId]).filter (· ≠ entry.duplicate) = book'.removed ++ [nodeId] := by
  rw [List.filter_append, h.removed,
    List.filter_cons_of_pos (by simpa using h.ne_of_not_mem hnode), List.filter_nil]

include h hallows hhand hdrawn in
/-- The books stay alike over an operation that copies the same links in both. -/
theorem Alike.step
    (hopen : ∀ duplicateId canonicalId active uuids,
      op = .merge duplicateId canonicalId active uuids →
      book.openLinks canon duplicateId canonicalId =
        book'.openLinks canon duplicateId canonicalId) :
    Alike hand entry (book.apply canon op) (book'.apply canon op) := by
  cases op with
  | removeEdge edgeId =>
      exact ⟨h.gone, h.removed, by rw [apply, apply, h.dropped], h.added, h.found⟩
  | removeNode nodeId active =>
      exact ⟨List.mem_append_left _ h.gone, h.removed_concat hallows, h.dropped, h.added, h.found⟩
  | addEdge edge =>
      refine ⟨h.gone, h.removed, h.dropped, ?_, h.found⟩
      have hid : edge.id ∉ entry.edgeIds := (hhand edge.id rfl).2
      rw [apply, apply, List.filter_append, List.map_append, List.map_append, h.added,
        List.filter_cons_of_pos (by simpa using hid), List.filter_nil]
  | merge duplicateId canonicalId active uuids =>
      have hcopies := hopen duplicateId canonicalId active uuids rfl
      have hids : ∀ n, "edge/" ++ uuids n ∉ hand ∧ "edge/" ++ uuids n ∉ entry.edgeIds :=
        fun n => hdrawn _ ⟨n, rfl⟩
      refine ⟨List.mem_append_left _ h.gone, h.removed_concat hallows.1, h.dropped, ?_, ?_⟩
      · rw [apply, apply, List.filter_append, List.map_append, List.map_append, h.added,
          copies_apart fun n => (hids n).2,
          strip_copies book canon fun n => (hids n).1,
          strip_copies book' canon fun n => (hids n).1, hcopies]
      · rw [apply, List.find?_append, h.found]
        rfl

include h hallows hdrawn in
/-- If the request comes out the same, the merge found the same open links in both. -/
theorem Alike.openLinks_of_sameRequest {duplicateId canonicalId : String}
    {active : List String} {uuids : Nat → String}
    (hop : op = .merge duplicateId canonicalId active uuids)
    (hsame : SameRequest hand ((book.apply canon op).unmerge entry.duplicate)
      (book'.apply canon op)) :
    book.openLinks canon duplicateId canonicalId =
      book'.openLinks canon duplicateId canonicalId := by
  subst hop
  obtain ⟨hduplicate, hcanonical, hne⟩ := hallows
  have hids : ∀ n, "edge/" ++ uuids n ∉ hand ∧ "edge/" ++ uuids n ∉ entry.edgeIds :=
    fun n => hdrawn _ ⟨n, rfl⟩
  have hsub : ∀ x ∈ book'.removed, x ∈ book.removed := by
    intro x hx
    rw [← h.removed] at hx
    exact (List.mem_filter.mp hx).1
  -- Every copy is sent: its ends are kept.
  have hkeeps : ∀ (other : LinkBook), (∀ x ∈ book'.removed, x ∈ other.removed) →
      canonicalId ∉ other.removed →
      (other.copies canon duplicateId canonicalId uuids).filter
        (book'.apply canon (.merge duplicateId canonicalId active uuids)).keeps =
          other.copies canon duplicateId canonicalId uuids := by
    intro other hother hkept
    refine List.filter_eq_self.mpr fun copy hcopy => ?_
    obtain ⟨hsource, htarget⟩ := copies_keep hother hkept hne hcopy
    simp only [keeps, apply, Bool.and_eq_true]
    exact ⟨decide_eq_true hsource, decide_eq_true htarget⟩
  have hfound : (book.apply canon (.merge duplicateId canonicalId active uuids)).merges.find?
      (fun other => other.duplicate = entry.duplicate) = some entry := by
    rw [apply, List.find?_append, h.found]
    rfl
  have hsent := hsame.sent
  rw [sent, keeps_congr hsame.removed, unmerge_eq hfound, sent] at hsent
  simp only [map_filter_keeps] at hsent
  have hcopies : (book.copies canon duplicateId canonicalId uuids).map (stripCopy hand) =
      book.openLinks canon duplicateId canonicalId :=
    strip_copies book canon fun n => (hids n).1
  have hcopies' : (book'.copies canon duplicateId canonicalId uuids).map (stripCopy hand) =
      book'.openLinks canon duplicateId canonicalId :=
    strip_copies book' canon fun n => (hids n).1
  have hadded : ((book.apply canon (.merge duplicateId canonicalId active uuids)).added.filter
      fun edge => decide (edge.id ∉ entry.edgeIds)).map (stripCopy hand) =
        book'.added.map (stripCopy hand) ++ book.openLinks canon duplicateId canonicalId := by
    rw [apply, List.filter_append, List.map_append, h.added, copies_apart fun n => (hids n).2,
      hcopies]
  have hadded' : (book'.apply canon (.merge duplicateId canonicalId active uuids)).added.map
      (stripCopy hand) =
        book'.added.map (stripCopy hand) ++ book'.openLinks canon duplicateId canonicalId := by
    rw [apply, List.map_append, hcopies']
  rw [hadded, hadded', List.filter_append, List.filter_append] at hsent
  have hopen := List.append_cancel_left hsent
  rw [← hcopies, ← hcopies', ← map_filter_keeps, ← map_filter_keeps, hkeeps book hsub hcanonical,
    hkeeps book' (fun _ hx => hx) fun hin => hcanonical (hsub _ hin)] at hopen
  rw [← hcopies, ← hcopies']
  exact hopen

end Steps

/-- What an operation brings along has ids of its own. -/
structure OwnIds (hand : List String) (entry : DraftMerge) (op : DraftOp) : Prop where
  byHand : ∀ id, op.handId = some id → id ∈ hand ∧ id ∉ entry.edgeIds
  drawn : ∀ id, op.draws id → id ∉ hand ∧ id ∉ entry.edgeIds

/-- Along a sequence both requests come out the same after every operation, exactly if every
merge in it finds the same open links in both books. -/
theorem Alike.run (h : Alike hand entry book book')
    (hallows : All (apply canon) Allows book ops)
    (hids : ∀ op ∈ ops, OwnIds hand entry op) :
    (∀ n, SameRequest hand
        ((walk (apply canon) book (ops.take n)).unmerge entry.duplicate)
        (walk (apply canon) book' (ops.take n))) ↔
      ∀ earlier later duplicateId canonicalId active uuids,
        ops = earlier ++ .merge duplicateId canonicalId active uuids :: later →
        (walk (apply canon) book earlier).openLinks canon duplicateId
            canonicalId =
          (walk (apply canon) book' earlier).openLinks canon duplicateId
            canonicalId := by
  induction ops generalizing book book' with
  | nil =>
      refine ⟨fun _ earlier later _ _ _ _ hsplit => ?_, fun _ n => ?_⟩
      · exact absurd hsplit (by simp)
      · rw [List.take_nil]
        exact h.sameRequest
  | cons op ops ih =>
      obtain ⟨hop, hrest⟩ := (all_cons op ops).mp hallows
      obtain ⟨hown, hothers⟩ := List.forall_mem_cons.mp hids
      constructor
      · intro hsame earlier later duplicateId canonicalId active uuids hsplit
        have hopen : ∀ duplicateId canonicalId active uuids,
            op = .merge duplicateId canonicalId active uuids →
            book.openLinks canon duplicateId canonicalId =
              book'.openLinks canon duplicateId canonicalId :=
          fun _ _ _ _ heq => h.openLinks_of_sameRequest hop hown.drawn heq (hsame 1)
        cases earlier with
        | nil =>
            obtain ⟨heq, -⟩ := List.cons.inj hsplit
            exact hopen duplicateId canonicalId active uuids heq
        | cons first earlier =>
            obtain ⟨rfl, htail⟩ := List.cons.inj hsplit
            have hnext := h.step hop hown.byHand hown.drawn hopen
            exact (ih hnext hrest hothers).mp (fun n => hsame (n + 1)) earlier later duplicateId
              canonicalId active uuids htail
      · intro hopen n
        cases n with
        | zero => exact h.sameRequest
        | succ n =>
            have hfirst : ∀ duplicateId canonicalId active uuids,
                op = .merge duplicateId canonicalId active uuids →
                book.openLinks canon duplicateId canonicalId =
                  book'.openLinks canon duplicateId canonicalId := by
              intro duplicateId canonicalId active uuids heq
              exact hopen [] ops duplicateId canonicalId active uuids (heq ▸ rfl)
            refine (ih (h.step hop hown.byHand hown.drawn hfirst) hrest hothers).mpr ?_ n
            intro earlier later duplicateId canonicalId active uuids hsplit
            exact hopen (op :: earlier) later duplicateId canonicalId active uuids
              (hsplit ▸ rfl)

end LinkBook

end RcpGraph.Drafts
