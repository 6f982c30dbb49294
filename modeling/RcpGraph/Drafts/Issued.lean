import RcpGraph.Drafts.Unmerging

/-!
Which ids the links of a book have, and what is left of a book when all its merges are undone.
-/

namespace RcpGraph.Drafts

open Walk

theorem handIds_append (ops ops' : List DraftOp) : handIds (ops ++ ops') = handIds ops ++ handIds ops' :=
  List.filterMap_append

theorem FreshIds.sublist {canon : List NewEdge} {ops ops' : List DraftOp} (h : FreshIds canon ops)
    (hsub : ops'.Sublist ops) : FreshIds canon ops' := by
  have hhand : ∀ id ∈ handIds ops', id ∈ handIds ops :=
    fun id hid => (hsub.filterMap DraftOp.handId).subset hid
  refine ⟨fun id hid => h.hand id (hhand id hid), fun op hop id hdraws => ?_,
    h.apart.sublist hsub, fun edgeId hin => h.removals edgeId (hsub.subset hin)⟩
  obtain ⟨hapart, hcanon⟩ := h.drawn op (hsub.subset hop) id hdraws
  exact ⟨fun hin => hapart (hhand id hin), hcanon⟩

theorem FreshIds.before {canon : List NewEdge} {ops ops' : List DraftOp}
    (h : FreshIds canon (ops ++ ops')) : FreshIds canon ops :=
  h.sublist (List.sublist_append_left ops ops')

/-- The operation is no merge. -/
def DraftOp.isPlain : DraftOp → Bool
  | .merge .. => false
  | _ => true

namespace LinkBook

variable {canon : List NewEdge} {book plain : LinkBook} {op : DraftOp} {ops : List DraftOp}
  {duplicateId : String} {entry : DraftMerge}

/-- Merges have duplicates and copies of their own, and these are in the book. -/
structure Clean (book : LinkBook) : Prop where
  duplicates : (book.merges.map DraftMerge.duplicate).Nodup
  removed : ∀ merge ∈ book.merges, merge.duplicate ∈ book.removed
  listed : ∀ merge ∈ book.merges, ∀ id ∈ merge.edgeIds, id ∈ book.added.map NewEdge.id
  disjoint : book.merges.Pairwise fun merge other => ∀ id ∈ merge.edgeIds, id ∉ other.edgeIds

/-- Every id in the book was issued by an operation, those of copies by drawing them. -/
structure Issued (ops : List DraftOp) (book : LinkBook) : Prop extends Clean book where
  added : ∀ edge ∈ book.added, edge.id ∈ handIds ops ∨ ∃ op ∈ ops, op.draws edge.id
  copied : ∀ merge ∈ book.merges, ∀ id ∈ merge.edgeIds, ∃ op ∈ ops, op.draws id

theorem issued_empty : Issued [] {} where
  duplicates := List.nodup_nil
  removed _ h := by cases h
  listed _ h := by cases h
  disjoint := .nil
  added _ h := by cases h
  copied _ h := by cases h

theorem mem_copies_ids {canonicalId : String} {active : List String} {uuids : Nat → String}
    {id : String}
    (h : id ∈ (book.copies canon duplicateId canonicalId uuids).map NewEdge.id) :
    (DraftOp.merge duplicateId canonicalId active uuids).draws id := by
  obtain ⟨copy, hcopy, rfl⟩ := List.mem_map.mp h
  exact (mem_copyEdges hcopy).1

/-- An id that was issued before is not drawn again. -/
theorem Issued.not_drawn (h : Issued ops book) (hfresh : FreshIds canon (ops ++ [op]))
    {edge : NewEdge} (hedge : edge ∈ book.added) : ¬ op.draws edge.id := by
  intro hdraws
  rcases h.added edge hedge with hhand | ⟨earlier, hearlier, hdrew⟩
  · refine (hfresh.drawn op (by simp) edge.id hdraws).1 ?_
    rw [handIds_append]
    exact List.mem_append_left _ hhand
  · exact (List.pairwise_append.mp hfresh.apart).2.2 earlier hearlier op (by simp) edge.id hdrew
      hdraws

theorem Issued.step (h : Issued ops book) (hfresh : FreshIds canon (ops ++ [op]))
    (hallows : book.Allows op) : Issued (ops ++ [op]) (book.apply canon op) := by
  have hissued : ∀ edge ∈ book.added, edge.id ∈ handIds (ops ++ [op]) ∨
      ∃ op' ∈ ops ++ [op], op'.draws edge.id := by
    intro edge hedge
    rw [handIds_append]
    rcases h.added edge hedge with hhand | ⟨earlier, hearlier, hdrew⟩
    · exact .inl (List.mem_append_left _ hhand)
    · exact .inr ⟨earlier, List.mem_append_left _ hearlier, hdrew⟩
  have hcopied : ∀ merge ∈ book.merges, ∀ id ∈ merge.edgeIds, ∃ op' ∈ ops ++ [op], op'.draws id := by
    intro merge hmerge id hid
    obtain ⟨earlier, hearlier, hdrew⟩ := h.copied merge hmerge id hid
    exact ⟨earlier, List.mem_append_left _ hearlier, hdrew⟩
  cases op with
  | removeEdge edgeId =>
      exact ⟨⟨h.duplicates, h.removed, h.listed, h.disjoint⟩, hissued, hcopied⟩
  | removeNode nodeId active =>
      exact ⟨⟨h.duplicates, fun merge hmerge => List.mem_append_left _ (h.removed merge hmerge),
        h.listed, h.disjoint⟩, hissued, hcopied⟩
  | addEdge edge =>
      refine ⟨⟨h.duplicates, h.removed, fun merge hmerge id hid => ?_, h.disjoint⟩, ?_, hcopied⟩
      · rw [apply, List.map_append]
        exact List.mem_append_left _ (h.listed merge hmerge id hid)
      · intro other hother
        rcases List.mem_append.mp hother with hother | hother
        · exact hissued other hother
        · obtain rfl := List.mem_singleton.mp hother
          left
          rw [handIds_append]
          exact List.mem_append_right _ (by simp [handIds, DraftOp.handId])
  | merge duplicateId canonicalId active uuids =>
      have hdraws : ∀ id ∈ (book.copies canon duplicateId canonicalId uuids).map NewEdge.id,
          (DraftOp.merge duplicateId canonicalId active uuids).draws id := fun _ => mem_copies_ids
      refine ⟨⟨?_, ?_, ?_, ?_⟩, ?_, ?_⟩
      · rw [apply, List.map_append, List.nodup_append]
        refine ⟨h.duplicates, List.nodup_singleton _, ?_⟩
        intro other hother last hlast heq
        obtain ⟨merge, hmerge, rfl⟩ := List.mem_map.mp hother
        obtain rfl := List.mem_singleton.mp hlast
        exact hallows.1 (heq ▸ h.removed merge hmerge)
      · intro merge hmerge
        rcases List.mem_append.mp hmerge with hmerge | hmerge
        · exact List.mem_append_left _ (h.removed merge hmerge)
        · obtain rfl := List.mem_singleton.mp hmerge
          exact List.mem_append_right _ (List.mem_singleton_self _)
      · intro merge hmerge id hid
        rw [apply, List.map_append]
        rcases List.mem_append.mp hmerge with hmerge | hmerge
        · exact List.mem_append_left _ (h.listed merge hmerge id hid)
        · obtain rfl := List.mem_singleton.mp hmerge
          exact List.mem_append_right _ hid
      · refine List.pairwise_append.mpr ⟨h.disjoint, List.pairwise_singleton _ _, ?_⟩
        intro merge hmerge other hother id hid hin
        obtain rfl := List.mem_singleton.mp hother
        obtain ⟨edge, hedge, rfl⟩ := List.mem_map.mp (h.listed merge hmerge id hid)
        exact h.not_drawn hfresh hedge (hdraws edge.id hin)
      · intro edge hedge
        rcases List.mem_append.mp hedge with hedge | hedge
        · exact hissued edge hedge
        · exact .inr ⟨_, List.mem_append_right _ (List.mem_singleton_self _),
            hdraws edge.id (List.mem_map_of_mem hedge)⟩
      · intro merge hmerge id hid
        rcases List.mem_append.mp hmerge with hmerge | hmerge
        · exact hcopied merge hmerge id hid
        · obtain rfl := List.mem_singleton.mp hmerge
          exact ⟨_, List.mem_append_right _ (List.mem_singleton_self _), hdraws id hid⟩

theorem issued_run (hfresh : FreshIds canon ops) (hall : All (apply canon) Allows {} ops) :
    Issued ops (walk (apply canon) {} ops) := by
  induction ops using List.reverseRecOn with
  | nil => exact issued_empty
  | append_singleton ops op ih =>
      obtain ⟨hbefore, hop⟩ := (all_concat ops op).mp hall
      rw [walk_concat]
      exact (ih hfresh.before hbefore).step hfresh hop

/-- Right after a merge the book is the one before it with the merge in it. -/
theorem Issued.alike {hand : List String} {canonicalId : String} {active : List String}
    {uuids : Nat → String} (h : Issued ops book)
    (hfresh : FreshIds canon (ops ++ [.merge duplicateId canonicalId active uuids]))
    (hallows : book.Allows (.merge duplicateId canonicalId active uuids)) :
    Alike hand
      { duplicate := duplicateId, canonical := canonicalId
        edgeIds := (book.copies canon duplicateId canonicalId uuids).map NewEdge.id }
      (book.apply canon (.merge duplicateId canonicalId active uuids)) book where
  gone := List.mem_append_right _ (List.mem_singleton_self _)
  removed := by
    rw [apply, List.filter_append, List.filter_cons_of_neg (by simp), List.filter_nil,
      List.append_nil]
    refine List.filter_eq_self.mpr fun nodeId hnode => decide_eq_true fun heq => ?_
    obtain rfl : nodeId = duplicateId := heq
    exact hallows.1 hnode
  dropped := rfl
  added := by
    have hold : book.added.filter (fun edge => decide (edge.id ∉
        (book.copies canon duplicateId canonicalId uuids).map NewEdge.id)) = book.added := by
      refine List.filter_eq_self.mpr fun edge hedge => decide_eq_true fun hin => ?_
      exact h.not_drawn hfresh hedge (mem_copies_ids hin)
    have hnew : (book.copies canon duplicateId canonicalId uuids).filter (fun edge =>
        decide (edge.id ∉ (book.copies canon duplicateId canonicalId uuids).map NewEdge.id)) =
          [] :=
      List.filter_eq_nil_iff.mpr fun copy hcopy => by
        simpa using ⟨copy, hcopy, rfl⟩
    rw [apply, List.filter_append, hold, hnew, List.append_nil]
  found := by
    have hnone : book.merges.find? (fun other => other.duplicate = duplicateId) = none := by
      refine List.find?_eq_none.mpr fun merge hmerge heq => ?_
      exact hallows.1 (of_decide_eq_true heq ▸ h.removed merge hmerge)
    rw [apply, List.find?_append, hnone]
    simp


section AllMerges

theorem unmerge_found (hmerge : entry ∈ book.merges) (hclean : book.Clean) :
    book.merges.find? (fun other => other.duplicate = entry.duplicate) = some entry := by
  obtain ⟨before, after, hsplit⟩ := List.append_of_mem hmerge
  have hnodup := hclean.duplicates
  rw [hsplit, List.map_append, List.nodup_append] at hnodup
  rw [hsplit, List.find?_append]
  have hnone : before.find? (fun other => other.duplicate = entry.duplicate) = none := by
    refine List.find?_eq_none.mpr fun other hother heq => ?_
    exact hnodup.2.2 other.duplicate (List.mem_map_of_mem hother) entry.duplicate
      (by simp) (of_decide_eq_true heq)
  rw [hnone, Option.none_or]
  simp

/-- Undoing a merge leaves the duplicates and the copies of the others in place. -/
theorem Clean.unmerge (hclean : book.Clean) (hmerge : entry ∈ book.merges) :
    (book.unmerge entry.duplicate).Clean := by
  rw [unmerge_eq (unmerge_found hmerge hclean)]
  have hperm := List.perm_cons_erase hmerge
  have hnodup : (entry.duplicate :: (book.merges.erase entry).map DraftMerge.duplicate).Nodup :=
    ((hperm.map DraftMerge.duplicate).nodup_iff).mp hclean.duplicates
  have hsub : ∀ merge ∈ book.merges.erase entry, merge ∈ book.merges := fun _ => List.mem_of_mem_erase
  have hapart : ∀ merge ∈ book.merges.erase entry, ∀ id ∈ merge.edgeIds, id ∉ entry.edgeIds := by
    have hpair : (entry :: book.merges.erase entry).Pairwise
        fun merge other => ∀ id ∈ merge.edgeIds, id ∉ other.edgeIds :=
      hperm.pairwise hclean.disjoint fun hdisjoint id hid hin => hdisjoint id hin hid
    intro merge hin id hid hentry
    exact (List.pairwise_cons.mp hpair).1 merge hin id hentry hid
  refine ⟨(List.nodup_cons.mp hnodup).2, ?_, ?_, hclean.disjoint.sublist List.erase_sublist⟩
  · intro merge hin
    refine List.mem_filter.mpr ⟨hclean.removed merge (hsub merge hin), decide_eq_true fun heq => ?_⟩
    exact (List.nodup_cons.mp hnodup).1 (heq ▸ List.mem_map_of_mem hin)
  · intro merge hin id hid
    obtain ⟨edge, hedge, rfl⟩ := List.mem_map.mp (hclean.listed merge (hsub merge hin) id hid)
    exact List.mem_map_of_mem
      (List.mem_filter.mpr ⟨hedge, decide_eq_true (hapart merge hin edge.id hid)⟩)

/-- What a book has beside its merges is the other book. -/
structure WithoutMerges (book plain : LinkBook) : Prop where
  removed : book.removed.filter (fun nodeId =>
    decide (nodeId ∉ book.merges.map DraftMerge.duplicate)) = plain.removed
  added : book.added.filter (fun edge =>
    decide (edge.id ∉ book.merges.flatMap DraftMerge.edgeIds)) = plain.added
  dropped : book.dropped = plain.dropped

theorem WithoutMerges.unmerge (h : WithoutMerges book plain) (hclean : book.Clean)
    (hmerge : entry ∈ book.merges) : WithoutMerges (book.unmerge entry.duplicate) plain := by
  rw [unmerge_eq (unmerge_found hmerge hclean)]
  have hperm := List.perm_cons_erase hmerge
  refine ⟨?_, ?_, h.dropped⟩
  · rw [← h.removed, List.filter_filter]
    refine List.filter_congr fun nodeId _ => ?_
    rw [← Bool.decide_and]
    refine decide_eq_decide.mpr ?_
    rw [(hperm.map DraftMerge.duplicate).mem_iff, List.map_cons, List.mem_cons, not_or, and_comm]
  · rw [← h.added, List.filter_filter]
    refine List.filter_congr fun edge _ => ?_
    rw [← Bool.decide_and]
    refine decide_eq_decide.mpr ?_
    rw [(hperm.flatMap_right DraftMerge.edgeIds).mem_iff, List.flatMap_cons, List.mem_append,
      not_or, and_comm]

/-- Undoing all merges, in whatever order, leaves the other book. -/
theorem WithoutMerges.unmerge_all (h : WithoutMerges book plain) (hclean : book.Clean)
    (order : List String) (horder : order.Perm (book.merges.map DraftMerge.duplicate)) :
    (order.foldl LinkBook.unmerge book).removed = plain.removed ∧
      (order.foldl LinkBook.unmerge book).added = plain.added ∧
      (order.foldl LinkBook.unmerge book).dropped = plain.dropped := by
  induction order generalizing book with
  | nil =>
      have hnone : book.merges = [] := by simpa using horder.symm.eq_nil
      refine ⟨?_, ?_, h.dropped⟩
      · rw [List.foldl_nil, ← h.removed, hnone]
        simp
      · rw [List.foldl_nil, ← h.added, hnone]
        simp
  | cons duplicateId order ih =>
      have hin : duplicateId ∈ book.merges.map DraftMerge.duplicate :=
        horder.subset List.mem_cons_self
      obtain ⟨entry, hmerge, rfl⟩ := List.mem_map.mp hin
      refine ih (h.unmerge hclean hmerge) (hclean.unmerge hmerge) ?_
      rw [unmerge_eq (unmerge_found hmerge hclean)]
      exact (horder.trans ((List.perm_cons_erase hmerge).map DraftMerge.duplicate)).cons_inv

/-- The sequence with its merges left out. -/
def plainOps (ops : List DraftOp) : List DraftOp := ops.filter DraftOp.isPlain

theorem WithoutMerges.step (h : WithoutMerges book plain) (hissued : Issued ops book)
    (hfresh : FreshIds canon (ops ++ [op])) (hallows : book.Allows op) :
    WithoutMerges (book.apply canon op)
      (if op.isPlain then plain.apply canon op else plain) := by
  cases op with
  | removeEdge edgeId => exact ⟨h.removed, h.added, by simp [apply, DraftOp.isPlain, h.dropped]⟩
  | removeNode nodeId active =>
      refine ⟨?_, h.added, h.dropped⟩
      have hnode : nodeId ∉ book.merges.map DraftMerge.duplicate := by
        intro hin
        obtain ⟨merge, hmerge, rfl⟩ := List.mem_map.mp hin
        exact hallows (hissued.removed merge hmerge)
      rw [apply, List.filter_append, h.removed]
      exact congrArg (plain.removed ++ ·) (List.filter_cons_of_pos (decide_eq_true hnode))
  | addEdge edge =>
      refine ⟨h.removed, ?_, h.dropped⟩
      have hid : edge.id ∉ book.merges.flatMap DraftMerge.edgeIds := by
        intro hin
        obtain ⟨merge, hmerge, hcopied⟩ := List.mem_flatMap.mp hin
        obtain ⟨earlier, hearlier, hdrew⟩ := hissued.copied merge hmerge edge.id hcopied
        refine (hfresh.drawn earlier (List.mem_append_left _ hearlier) edge.id hdrew).1 ?_
        rw [handIds_append]
        exact List.mem_append_right _ (by simp [handIds, DraftOp.handId])
      rw [apply, List.filter_append, h.added]
      exact congrArg (plain.added ++ ·) (List.filter_cons_of_pos (decide_eq_true hid))
  | merge duplicateId canonicalId active uuids =>
      refine ⟨?_, ?_, h.dropped⟩
      · refine Eq.trans ?_ h.removed
        rw [apply, List.filter_append, List.map_append,
          List.filter_cons_of_neg (by simp), List.filter_nil, List.append_nil]
        refine List.filter_congr fun nodeId hnode => decide_eq_decide.mpr ?_
        have hne : nodeId ≠ duplicateId := fun heq => hallows.1 (heq ▸ hnode)
        simp [hne]
      · refine Eq.trans ?_ h.added
        have hnone : (book.copies canon duplicateId canonicalId uuids).filter (fun edge =>
            decide (edge.id ∉ (book.apply canon
              (.merge duplicateId canonicalId active uuids)).merges.flatMap
                DraftMerge.edgeIds)) = [] := by
          refine List.filter_eq_nil_iff.mpr fun copy hcopy => ?_
          rw [apply, List.flatMap_append, decide_eq_true_eq, not_not, List.mem_append]
          exact .inr (by simpa using ⟨copy, hcopy, rfl⟩)
        rw [apply] at hnone
        rw [apply, List.filter_append, hnone, List.append_nil]
        refine List.filter_congr fun edge hedge => decide_eq_decide.mpr ?_
        rw [List.flatMap_append, List.mem_append, not_or]
        refine and_iff_left fun hin => hissued.not_drawn hfresh hedge ?_
        exact mem_copies_ids (by simpa using hin)

theorem withoutMerges_run (hfresh : FreshIds canon ops)
    (hall : All (apply canon) Allows {} ops) :
    WithoutMerges (walk (apply canon) {} ops) (walk (apply canon) {} (plainOps ops)) := by
  induction ops using List.reverseRecOn with
  | nil => exact ⟨rfl, rfl, rfl⟩
  | append_singleton ops op ih =>
      obtain ⟨hbefore, hop⟩ := (all_concat ops op).mp hall
      have hnext := (ih hfresh.before hbefore).step (issued_run hfresh.before hbefore) hfresh hop
      rw [walk_concat]
      cases hplain : op.isPlain with
      | true =>
          have hops : plainOps (ops ++ [op]) = plainOps ops ++ [op] := by
            simp [plainOps, hplain]
          rw [hops, walk_concat]
          simpa only [hplain, if_true] using hnext
      | false =>
          have hops : plainOps (ops ++ [op]) = plainOps ops := by
            simp [plainOps, hplain]
          rw [hops]
          simpa only [hplain, Bool.false_eq_true, if_false] using hnext

end AllMerges

end LinkBook

end RcpGraph.Drafts
