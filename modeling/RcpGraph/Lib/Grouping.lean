import Mathlib.Data.List.Sort

/-!
Groups of indices joined until no two of them meet. What a group is judged by is
computed anew for the joined group, so it need not grow; the number of groups falls.
-/

universe u v

namespace Grouping

/-- The first pair of positions that a test joins. -/
def firstPair (meets : Nat → Nat → Bool) (n : Nat) : Option (Nat × Nat) :=
  (List.range n).findSome? fun left =>
    ((List.range n).find? fun right => decide (left < right) && meets left right).map
      fun right => (left, right)

theorem firstPair_some {meets : Nat → Nat → Bool} {n : Nat} {pair : Nat × Nat}
    (h : firstPair meets n = some pair) :
    pair.1 < pair.2 ∧ pair.2 < n ∧ meets pair.1 pair.2 = true := by
  unfold firstPair at h
  obtain ⟨left, -, hmap⟩ := List.exists_of_findSome?_eq_some h
  obtain ⟨right, hfind, rfl⟩ := Option.map_eq_some_iff.mp hmap
  have hmem := List.mem_of_find?_eq_some hfind
  have htest := List.find?_some hfind
  rw [Bool.and_eq_true, decide_eq_true_eq] at htest
  exact ⟨htest.1, List.mem_range.mp hmem, htest.2⟩

theorem firstPair_none {meets : Nat → Nat → Bool} {n : Nat} (h : firstPair meets n = none)
    {left right : Nat} (hlt : left < right) (hn : right < n) : meets left right = false := by
  unfold firstPair at h
  have hleft := List.findSome?_eq_none_iff.mp h left (List.mem_range.mpr (hlt.trans hn))
  rw [Option.map_eq_none_iff, List.find?_eq_none] at hleft
  have hright := hleft right (List.mem_range.mpr hn)
  rw [Bool.and_eq_true, decide_eq_true_eq, not_and] at hright
  simpa using hright hlt

/-- Join two groups: the later one moves into the place of the earlier one. -/
def join (groups : List (List Nat)) (left right : Nat) : List (List Nat) :=
  (groups.set left ((groups.getD left [] ++ groups.getD right []).insertionSort (· ≤ ·))).eraseIdx
    right

theorem length_join (groups : List (List Nat)) (left : Nat) {right : Nat}
    (h : right < groups.length) : (join groups left right).length < groups.length := by
  unfold join
  rw [List.length_eraseIdx, List.length_set, if_pos h]
  omega

/-- The groups around the two that are joined. -/
theorem join_eq {groups : List (List Nat)} {left right : Nat} (hlt : left < right)
    (h : right < groups.length) :
    ∃ before first between second after,
      groups = before ++ first :: (between ++ second :: after) ∧
        join groups left right =
          before ++ (first ++ second).insertionSort (· ≤ ·) :: (between ++ after) := by
  obtain ⟨before, first, tail, rfl, hbefore⟩ :
      ∃ before first tail, groups = before ++ first :: tail ∧ before.length = left :=
    ⟨groups.take left, _, _, (List.take_append_drop left groups).symm.trans
      (congrArg _ (List.drop_eq_getElem_cons (hlt.trans h))), by
        rw [List.length_take]
        omega⟩
  rw [List.length_append, List.length_cons] at h
  obtain ⟨between, second, after, rfl, hbetween⟩ :
      ∃ between second after, tail = between ++ second :: after ∧
        between.length = right - left - 1 := by
    have hr : right - left - 1 < tail.length := by omega
    exact ⟨tail.take (right - left - 1), _, _, (List.take_append_drop _ tail).symm.trans
      (congrArg _ (List.drop_eq_getElem_cons hr)), by
        rw [List.length_take]
        omega⟩
  refine ⟨before, first, between, second, after, rfl, ?_⟩
  subst hbefore
  obtain ⟨k, rfl⟩ : ∃ k, right = before.length + (k + 1) := ⟨right - before.length - 1, by omega⟩
  have hk : k = between.length := by omega
  subst hk
  unfold join
  have hsecond : (before ++ first :: (between ++ second :: after)).getD
      (before.length + (between.length + 1)) [] = second := by
    simp [List.getD_eq_getElem?_getD]
  have hfirst : (before ++ first :: (between ++ second :: after)).getD before.length [] = first := by
    simp [List.getD_eq_getElem?_getD]
  rw [hfirst, hsecond, List.set_append_right _ _ le_rfl, Nat.sub_self, List.set_cons_zero,
    List.eraseIdx_append_of_length_le (by omega), Nat.add_sub_cancel_left, List.eraseIdx_cons_succ,
    List.eraseIdx_append_of_length_le le_rfl, Nat.sub_self, List.eraseIdx_cons_zero]

/-- Groups that partition some indices, each of them in increasing order. -/
structure Partitions (indices : List Nat) (groups : List (List Nat)) : Prop where
  members : groups.flatten.Perm indices
  nonempty : ∀ group ∈ groups, group ≠ []
  increasing : ∀ group ∈ groups, group.Pairwise (· < ·)

theorem partitions_singletons (n : Nat) :
    Partitions (List.range n) ((List.range n).map fun i => [i]) := by
  constructor
  · rw [← List.flatMap_def, List.flatMap_singleton']
  · intro group hgroup
    obtain ⟨i, -, rfl⟩ := List.mem_map.mp hgroup
    simp
  · intro group hgroup
    obtain ⟨i, -, rfl⟩ := List.mem_map.mp hgroup
    exact List.pairwise_singleton _ _

/-- Joining keeps a partition. -/
theorem Partitions.join {indices : List Nat} {groups : List (List Nat)}
    (hp : Partitions indices groups) (hnodup : indices.Nodup) {left right : Nat}
    (hlt : left < right) (h : right < groups.length) :
    Partitions indices (Grouping.join groups left right) := by
  obtain ⟨before, first, between, second, after, rfl, hjoin⟩ := join_eq hlt h
  rw [hjoin]
  have hsorted := List.perm_insertionSort (· ≤ ·) (first ++ second)
  have hmembers : (before ++ (first ++ second).insertionSort (· ≤ ·) ::
      (between ++ after)).flatten.Perm indices := by
    refine List.Perm.trans ?_ hp.members
    simp only [List.flatten_append, List.flatten_cons]
    refine List.Perm.append_left _ ?_
    refine (hsorted.append_right _).trans ?_
    rw [List.append_assoc]
    refine List.Perm.append_left _ ?_
    rw [← List.append_assoc, ← List.append_assoc]
    exact List.perm_append_comm.append_right _
  constructor
  · exact hmembers
  · intro group hgroup
    rcases List.mem_append.mp hgroup with hbefore | hrest
    · exact hp.nonempty group (by simp [hbefore])
    · rcases List.mem_cons.mp hrest with rfl | hrest
      · have hfirst := hp.nonempty first (by simp)
        intro hnil
        have hlength := hsorted.length_eq
        rw [hnil, List.length_append, List.length_nil] at hlength
        exact hfirst (List.eq_nil_of_length_eq_zero (by omega))
      · exact hp.nonempty group (by
          rcases List.mem_append.mp hrest with h | h <;> simp [h])
  · intro group hgroup
    rcases List.mem_append.mp hgroup with hbefore | hrest
    · exact hp.increasing group (by simp [hbefore])
    · rcases List.mem_cons.mp hrest with rfl | hrest
      · -- sorted, and without repetition because the indices have none
        have hle := List.pairwise_insertionSort (· ≤ ·) (first ++ second)
        have hflat : ((first ++ second).insertionSort (· ≤ ·)).Nodup := by
          have hall := hmembers.nodup_iff.mpr hnodup
          rw [List.nodup_flatten] at hall
          exact hall.1 _ (by simp)
        exact (hle.and hflat).imp fun hlt => lt_of_le_of_ne hlt.1 hlt.2
      · exact hp.increasing group (by
          rcases List.mem_append.mp hrest with h | h <;> simp [h])

section Close

variable {φ : Type u} {ε : Type v} (judge : List Nat → Except ε φ)
  (meets : List Nat × φ → List Nat × φ → Bool)

/-- Each group with what it is judged by. -/
def judged (groups : List (List Nat)) : Except ε (List (List Nat × φ)) :=
  groups.mapM fun group => (judge group).map fun f => (group, f)

/-- Whether the groups at two positions meet. -/
def meetsAt (marked : List (List Nat × φ)) (left right : Nat) : Bool :=
  match marked[left]?, marked[right]? with
  | some a, some b => meets a b
  | _, _ => false

/-- Join the first pair that meets until there is none. -/
def close (groups : List (List Nat)) : Except ε (List (List Nat)) :=
  match judged judge groups with
  | .error e => .error e
  | .ok marked =>
      match _h : firstPair (meetsAt meets marked) groups.length with
      | none => .ok groups
      | some pair => close (join groups pair.1 pair.2)
termination_by groups.length
decreasing_by exact length_join groups pair.1 (firstPair_some _h).2.1

variable {judge meets}

theorem judged_ok {groups : List (List Nat)} {marked : List (List Nat × φ)}
    (h : judged judge groups = .ok marked) :
    marked.map Prod.fst = groups ∧ ∀ m ∈ marked, judge m.1 = .ok m.2 := by
  induction groups generalizing marked with
  | nil =>
      cases h
      exact ⟨rfl, by simp⟩
  | cons group groups ih =>
      unfold judged at h ih
      rw [List.mapM_cons] at h
      cases hgroup : judge group with
      | error e =>
          rw [hgroup] at h
          cases h
      | ok f =>
          rw [hgroup] at h
          cases hrest : groups.mapM fun group => (judge group).map fun f => (group, f) with
          | error e =>
              rw [hrest] at h
              cases h
          | ok rest =>
              rw [hrest] at h
              cases h
              obtain ⟨hfst, hall⟩ := ih hrest
              refine ⟨by rw [List.map_cons, hfst], ?_⟩
              intro m hm
              rcases List.mem_cons.mp hm with rfl | hm
              · exact hgroup
              · exact hall m hm

theorem judged_total {groups : List (List Nat)} (h : ∀ group ∈ groups, ∃ f, judge group = .ok f) :
    ∃ marked, judged judge groups = .ok marked := by
  induction groups with
  | nil => exact ⟨[], rfl⟩
  | cons group groups ih =>
      obtain ⟨f, hf⟩ := h group List.mem_cons_self
      obtain ⟨rest, hrest⟩ := ih fun g hg => h g (List.mem_cons_of_mem _ hg)
      unfold judged at hrest ⊢
      refine ⟨(group, f) :: rest, ?_⟩
      rw [List.mapM_cons, hf, hrest]
      rfl

/-- No two groups meet. -/
def Apart (judge : List Nat → Except ε φ) (meets : List Nat × φ → List Nat × φ → Bool)
    (groups : List (List Nat)) : Prop :=
  ∃ marked, judged judge groups = .ok marked ∧ marked.Pairwise fun a b => meets a b = false

theorem apart_of_none {groups : List (List Nat)} {marked : List (List Nat × φ)}
    (hmarked : judged judge groups = .ok marked)
    (h : firstPair (meetsAt meets marked) groups.length = none) : Apart judge meets groups := by
  refine ⟨marked, hmarked, ?_⟩
  have hlength : marked.length = groups.length := by
    rw [← (judged_ok hmarked).1, List.length_map]
  rw [List.pairwise_iff_getElem]
  intro i j hi hj hij
  have hnone := firstPair_none h hij (hlength ▸ hj)
  unfold meetsAt at hnone
  rw [List.getElem?_eq_getElem hi, List.getElem?_eq_getElem hj] at hnone
  exact hnone

theorem close_none {groups : List (List Nat)} {marked : List (List Nat × φ)}
    (hmarked : judged judge groups = .ok marked)
    (hpair : firstPair (meetsAt meets marked) groups.length = none) :
    close judge meets groups = .ok groups := by
  rw [close, hmarked]
  dsimp only
  split
  · rfl
  · rename_i pair hsome
    rw [hpair] at hsome
    cases hsome

theorem close_some {groups : List (List Nat)} {marked : List (List Nat × φ)} {pair : Nat × Nat}
    (hmarked : judged judge groups = .ok marked)
    (hpair : firstPair (meetsAt meets marked) groups.length = some pair) :
    close judge meets groups = close judge meets (join groups pair.1 pair.2) := by
  rw [close, hmarked]
  dsimp only
  split
  · rename_i hnone
    rw [hpair] at hnone
    cases hnone
  · rename_i found hsome
    rw [hpair] at hsome
    cases hsome
    rfl

/-- Where every group can be judged, the joining ends with a partition into groups that do not
meet. -/
theorem close_apart {indices : List Nat} (hnodup : indices.Nodup)
    (hjudge : ∀ group, group ≠ [] → group.Pairwise (· < ·) → (∀ i ∈ group, i ∈ indices) →
      ∃ f, judge group = .ok f)
    {groups : List (List Nat)} (hp : Partitions indices groups) :
    ∃ result, close judge meets groups = .ok result ∧ Partitions indices result ∧
      Apart judge meets result := by
  have htotal : ∃ marked, judged judge groups = .ok marked := by
    apply judged_total
    intro group hgroup
    refine hjudge group (hp.nonempty group hgroup) (hp.increasing group hgroup) ?_
    intro i hi
    exact hp.members.mem_iff.mp (List.mem_flatten.mpr ⟨group, hgroup, hi⟩)
  obtain ⟨marked, hmarked⟩ := htotal
  cases hpair : firstPair (meetsAt meets marked) groups.length with
  | none => exact ⟨groups, close_none hmarked hpair, hp, apart_of_none hmarked hpair⟩
  | some pair =>
      obtain ⟨hlt, hright, -⟩ := firstPair_some hpair
      have hshorter := length_join groups pair.1 hright
      rw [close_some hmarked hpair]
      exact close_apart hnodup hjudge (hp.join hnodup hlt hright)
termination_by groups.length

end Close

end Grouping
