import Mathlib

/-!
Timetables: sets of integer instants. `Next` names the first point after an instant
and `count` the points in an interval. The count over an interval splits at any
instant, with the second part counted from the next point on.
-/

namespace Timetable

variable (S : Set Int)

/-- `n` is the first point after `t`. -/
def Next (t n : Int) : Prop := IsLeast {i | i ∈ S ∧ t < i} n

/-- How many points lie in an interval. -/
noncomputable def count (a b : Int) : Nat := (S ∩ Set.Icc a b).ncard

variable {S}

namespace Next

theorem mem {t n : Int} (h : Next S t n) : n ∈ S := h.1.1

theorem lt {t n : Int} (h : Next S t n) : t < n := h.1.2

theorem le {t n i : Int} (h : Next S t n) (hi : i ∈ S) (ht : t < i) : n ≤ i := h.2 ⟨hi, ht⟩

theorem unique {t n m : Int} (h : Next S t n) (h' : Next S t m) : n = m := IsLeast.unique h h'

/-- Until the next point, it stays the next one. -/
theorem later {t u n : Int} (h : Next S t n) (htu : t ≤ u) (hu : u < n) : Next S u n :=
  ⟨⟨h.mem, hu⟩, fun _ hi => h.le hi.1 (lt_of_le_of_lt htu hi.2)⟩

theorem mono {t u n m : Int} (h : Next S t n) (h' : Next S u m) (htu : t ≤ u) : n ≤ m :=
  h.le h'.mem (lt_of_le_of_lt htu h'.lt)

end Next

theorem finite_inter (a b : Int) : (S ∩ Set.Icc a b).Finite := (Set.finite_Icc a b).inter_of_right S

theorem count_eq_zero {a b : Int} (h : b < a) : count S a b = 0 := by
  rw [count, Set.Icc_eq_empty (by omega), Set.inter_empty, Set.ncard_empty]

/-- Counting on from the next point after a part of the interval. -/
theorem count_split {a b c n : Int} (hn : Next S b n) (han : a ≤ n) (hbc : b ≤ c) :
    count S a c = count S a b + count S n c := by
  have hunion : S ∩ Set.Icc a c = (S ∩ Set.Icc a b) ∪ (S ∩ Set.Icc n c) := by
    ext i
    simp only [Set.mem_inter_iff, Set.mem_Icc, Set.mem_union]
    constructor
    · rintro ⟨hi, hai, hic⟩
      by_cases hib : i ≤ b
      · exact .inl ⟨hi, hai, hib⟩
      · exact .inr ⟨hi, hn.le hi (by omega), hic⟩
    · rintro (⟨hi, hai, hib⟩ | ⟨hi, hni, hic⟩)
      · exact ⟨hi, hai, by omega⟩
      · exact ⟨hi, by omega, hic⟩
  have hdisjoint : Disjoint (S ∩ Set.Icc a b) (S ∩ Set.Icc n c) := by
    rw [Set.disjoint_left]
    intro i hi hi'
    have hb := hi.2.2
    have hn' := hi'.2.1
    have := hn.lt
    omega
  rw [count, hunion, Set.ncard_union_eq hdisjoint (finite_inter a b) (finite_inter n c)]
  rfl

/-- Nothing is counted between an instant and the next point. -/
theorem count_until_next {a b n : Int} (hn : Next S b n) (han : a ≤ n) :
    count S a (n - 1) = count S a b := by
  have hlt := hn.lt
  have hnone : count S n (n - 1) = 0 := count_eq_zero (by omega)
  rw [count_split hn han (by omega), hnone, Nat.add_zero]

theorem count_mono {a b c : Int} (hbc : b ≤ c) : count S a b ≤ count S a c := by
  apply Set.ncard_le_ncard _ (finite_inter a c)
  exact Set.inter_subset_inter_right S (Set.Icc_subset_Icc_right hbc)

theorem count_pos {a b : Int} (ha : a ∈ S) (hab : a ≤ b) : 0 < count S a b := by
  rw [count, Set.ncard_pos (finite_inter a b)]
  exact ⟨a, ha, le_refl a, hab⟩

/-- The points of an interval, in order. -/
noncomputable def points (S : Set Int) (a b : Int) : List Int :=
  (finite_inter (S := S) a b).toFinset.sort

theorem mem_points {a b i : Int} : i ∈ points S a b ↔ i ∈ S ∧ a ≤ i ∧ i ≤ b := by
  rw [points, Finset.mem_sort, Set.Finite.mem_toFinset]
  rfl

theorem length_points {a b : Int} : (points S a b).length = count S a b := by
  rw [points, Finset.length_sort, count, Set.ncard_eq_toFinset_card _ (finite_inter a b)]

theorem points_increasing {a b : Int} : (points S a b).Pairwise (· < ·) :=
  (Finset.sortedLT_sort _).pairwise

/-- The list of points is the only increasing one with their members. -/
theorem points_eq {a b : Int} (l : List Int) (hl : l.Pairwise (· < ·))
    (hmem : ∀ i, i ∈ l ↔ i ∈ S ∧ a ≤ i ∧ i ≤ b) : points S a b = l := by
  apply List.Perm.eq_of_pairwise (fun x y _ _ hxy hyx => absurd hxy (lt_asymm hyx))
    points_increasing hl
  rw [List.perm_ext_iff_of_nodup (points_increasing.imp ne_of_lt) (hl.imp ne_of_lt)]
  intro i
  rw [mem_points, hmem]

theorem head_points {a b : Int} (ha : a ∈ S) (hab : a ≤ b) : (points S a b).head? = some a := by
  have hmem : a ∈ points S a b := mem_points.mpr ⟨ha, le_refl a, hab⟩
  have hsorted := points_increasing (S := S) (a := a) (b := b)
  cases hpoints : points S a b with
  | nil => simp [hpoints] at hmem
  | cons first rest =>
      have hfirst : first ∈ points S a b := by simp [hpoints]
      rw [hpoints, List.mem_cons] at hmem
      rw [hpoints, List.pairwise_cons] at hsorted
      rcases hmem with rfl | hrest
      · rfl
      · have hlt := hsorted.1 a hrest
        have hle := (mem_points.mp hfirst).2.1
        omega

/-- The multiples of a step from an anchor. -/
def every (step anchor : Int) : Set Int := {i | step ∣ i - anchor}

theorem every_self (step anchor : Int) : anchor ∈ every step anchor := by
  simp [every]

theorem every_shift {step anchor other : Int} (h : other ∈ every step anchor) :
    every step other = every step anchor := by
  ext i
  simp only [every, Set.mem_ofPred_eq] at h ⊢
  constructor
  · intro hi
    have := Int.dvd_add hi h
    rwa [sub_add_sub_cancel] at this
  · intro hi
    have := Int.dvd_sub hi h
    rwa [sub_sub_sub_cancel_right] at this

theorem next_every (step anchor t : Int) (hstep : 0 < step) :
    Next (every step anchor) t (anchor + step * ((t - anchor) / step + 1)) := by
  have hdiv := Int.emod_add_mul_ediv (t - anchor) step
  have hnonneg := Int.emod_nonneg (t - anchor) (ne_of_gt hstep)
  have hlt := Int.emod_lt_of_pos (t - anchor) hstep
  refine ⟨⟨⟨(t - anchor) / step + 1, by ring⟩, ?_⟩, ?_⟩
  · rw [mul_add, mul_one]
    omega
  · rintro i ⟨⟨k, hk⟩, hti⟩
    have hk' : (t - anchor) / step < k := by
      rw [Int.ediv_lt_iff_lt_mul hstep, mul_comm, ← hk]
      omega
    have := mul_le_mul_of_nonneg_left (show (t - anchor) / step + 1 ≤ k by omega) (le_of_lt hstep)
    omega

theorem count_every (step anchor b : Int) (hstep : 0 < step) (hb : anchor ≤ b) :
    (count (every step anchor) anchor b : Int) = (b - anchor) / step + 1 := by
  -- The points are the images of the multipliers from zero on.
  have himage : every step anchor ∩ Set.Icc anchor b =
      (fun k : Int => anchor + step * k) '' Set.Icc 0 ((b - anchor) / step) := by
    ext i
    simp only [every, Set.mem_inter_iff, Set.mem_ofPred_eq, Set.mem_Icc, Set.mem_image]
    constructor
    · rintro ⟨⟨k, hk⟩, hai, hib⟩
      refine ⟨k, ⟨?_, ?_⟩, by omega⟩
      · by_contra hneg
        have := mul_le_mul_of_nonneg_left (show k ≤ -1 by omega) (le_of_lt hstep)
        omega
      · rw [Int.le_ediv_iff_mul_le hstep, mul_comm, ← hk]
        omega
    · rintro ⟨k, ⟨hk0, hk⟩, rfl⟩
      rw [Int.le_ediv_iff_mul_le hstep, mul_comm] at hk
      have := mul_nonneg (le_of_lt hstep) hk0
      exact ⟨⟨k, by ring⟩, by omega, by omega⟩
  have hinj : Function.Injective fun k : Int => anchor + step * k := by
    intro k k' h
    exact mul_left_cancel₀ (ne_of_gt hstep) (add_left_cancel h)
  have hnonneg : 0 ≤ (b - anchor) / step := Int.ediv_nonneg (by omega) (le_of_lt hstep)
  rw [count, himage, Set.ncard_image_of_injective _ hinj, ← Finset.coe_Icc,
    Set.ncard_coe_finset, Int.card_Icc]
  omega

end Timetable
