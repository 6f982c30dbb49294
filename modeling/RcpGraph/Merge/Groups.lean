import RcpGraph.Validation.Proposals

/-!
Connected approval groups: Proposals are joined while the writes of one group meet the reads
of another, or while two groups share a link.
-/

namespace RcpGraph

variable {rt : Runtime}

/-- Every group of these Proposals projects. -/
def Projects (s : GraphState rt) (proposals : List (Proposal rt)) : Prop :=
  ∀ group, group ≠ [] → group.Pairwise (· < ·) → (∀ i ∈ group, i < proposals.length) →
    ∃ footprint, groupFootprint s proposals group = .ok footprint

/-- The joining ends with an ordered partition whose groups neither interfere, by their
combined footprints, nor share a link. -/
theorem connectedProposalGroups_closed (s : GraphState rt) (proposals : List (Proposal rt))
    (links : Option (Nat → List String)) (hproject : Projects s proposals) :
    ∃ groups, connectedProposalGroups s proposals links = .ok groups ∧
      Grouping.Partitions (List.range proposals.length) groups ∧
      groups.Pairwise fun a b => ∀ footprint footprint',
        groupFootprint s proposals a = .ok footprint →
        groupFootprint s proposals b = .ok footprint' →
          interferes footprint footprint' = false ∧ linked links a b = false := by
  have hjudge : ∀ group, group ≠ [] → group.Pairwise (· < ·) →
      (∀ i ∈ group, i ∈ List.range proposals.length) →
        ∃ footprint, groupFootprint s proposals group = .ok footprint := by
    intro group hne hincreasing hmem
    exact hproject group hne hincreasing fun i hi => List.mem_range.mp (hmem i hi)
  have hclosed : ∃ groups, connectedProposalGroups s proposals links = .ok groups ∧
      Grouping.Partitions (List.range proposals.length) groups ∧
        Grouping.Apart (groupFootprint s proposals) (groupsMeet links) groups :=
    Grouping.close_apart List.nodup_range hjudge
      (Grouping.partitions_singletons proposals.length)
  obtain ⟨groups, hclose, hpartition, marked, hmarked, hapart⟩ := hclosed
  refine ⟨groups, hclose, hpartition, ?_⟩
  obtain ⟨hgroups, hjudged⟩ := Grouping.judged_ok hmarked
  rw [← hgroups, List.pairwise_map]
  refine hapart.imp_of_mem ?_
  intro a b ha hb hmeets footprint footprint' hfootprint hfootprint'
  rw [hjudged a ha] at hfootprint
  rw [hjudged b hb] at hfootprint'
  cases hfootprint
  cases hfootprint'
  unfold groupsMeet at hmeets
  rw [Bool.or_eq_false_iff] at hmeets
  exact hmeets

/-- A review that removes one node. -/
def removalReview (nodeId : String) : Proposal .plain where
  id := "prop/" ++ nodeId
  title := "Remove"
  card := {}
  ops := [.removal false [nodeId]]

theorem removalReviews_project :
    Projects (.initial .plain ["repo"]) [removalReview "q/a", removalReview "q/b"] := by
  intro group hne hincreasing hmem
  have hok : ∀ g ∈ [[0], [1], [0, 1]], (groupFootprint (.initial .plain ["repo"])
      [removalReview "q/a", removalReview "q/b"] g).isOk = true := by
    decide +kernel
  have hgroup : group ∈ [[0], [1], [0, 1]] := by
    cases group with
    | nil => exact absurd rfl hne
    | cons a rest =>
        have ha : a < 2 := hmem a (by simp)
        cases rest with
        | nil =>
            obtain rfl | rfl : a = 0 ∨ a = 1 := by omega
            · simp
            · simp
        | cons b rest =>
            have hb : b < 2 := hmem b (by simp)
            have hab : a < b := (List.pairwise_cons.mp hincreasing).1 b (by simp)
            have hrest : rest = [] := by
              apply List.eq_nil_iff_forall_not_mem.mpr
              intro c hc
              have hc2 : c < 2 := hmem c (by simp [hc])
              have hbc : b < c :=
                (List.pairwise_cons.mp (List.pairwise_cons.mp hincreasing).2).1 c hc
              omega
            obtain ⟨rfl, rfl⟩ : a = 0 ∧ b = 1 := by omega
            rw [hrest]
            simp
  cases hfootprint : groupFootprint (.initial .plain ["repo"])
      [removalReview "q/a", removalReview "q/b"] group with
  | ok footprint => exact ⟨footprint, rfl⟩
  | error e =>
      have h := hok group hgroup
      rw [hfootprint] at h
      cases h

theorem connectedProposalGroups_closed_removals :
    ∃ groups, connectedProposalGroups (.initial .plain ["repo"])
        [removalReview "q/a", removalReview "q/b"] (some fun _ => ["repo"]) = .ok groups ∧
      Grouping.Partitions (List.range 2) groups := by
  obtain ⟨groups, hgroups, hpartition, -⟩ := connectedProposalGroups_closed
    (.initial .plain ["repo"]) [removalReview "q/a", removalReview "q/b"] (some fun _ => ["repo"])
    removalReviews_project
  exact ⟨groups, hgroups, hpartition⟩

end RcpGraph
