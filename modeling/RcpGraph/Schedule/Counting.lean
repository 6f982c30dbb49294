import Mathlib
import RcpGraph.Schedule.Poll

/-!
Counting fires and finding them one by one. `cron_occurrence_count` walks the dates of
its bounds and adds up what each date resolves to; the iteration of `next_occurrence`
passes every instant once. While each fire is due on its own date, between those of the
bounds, they agree exactly when no fire is hidden from the iteration.
-/

namespace RcpGraph

variable (c : Cron) (z : Zone)

/-- The fires that repeated `next_occurrence` calls find up to an instant. -/
def iterateNext (finish : Int) : Nat → Int → List Int
  | 0, _ => []
  | n + 1, after =>
      match nextOccurrence c z after with
      | some fire => if fire ≤ finish then fire :: iterateNext finish n fire else []
      | none => []

/-- The fires from just before `start` to `finish`; instants are whole microseconds. -/
def iteratedFires (start finish : Int) : List Int :=
  iterateNext c z finish (finish - start + 1).toNat (start - 1)

/-- The instants in the bounds that the times of a date resolve to. -/
def landings (start finish d : Int) : Finset Int :=
  if c.matchesDate d then
    (c.civilTimes.map (z.occurrenceAt d)).toFinset.filter fun i => start ≤ i ∧ i ≤ finish
  else ∅

/-- A day that is counted whole. -/
def WholeDay (start finish d : Int) : Prop :=
  c.matchesDate d = true ∧ z.instant (Zone.midnight d) ≥ start ∧
    z.instant (Zone.midnight (d + 1)) ≤ finish ∧
    z.civilOffset (Zone.midnight d) = z.civilOffset (Zone.midnight (d + 1))

instance (start finish d : Int) : Decidable (WholeDay c z start finish d) :=
  inferInstanceAs (Decidable (_ ∧ _))

/-- The dates that the count walks. -/
def walkedDates (start finish : Int) : Finset Int :=
  ((List.range (z.date finish - z.date start + 1).toNat).map
    fun k : Nat => z.date start + (k : Int)).toFinset

/-- Times of whole days that resolve to no instant of their own within the bounds. -/
def surplus (start finish : Int) : Nat :=
  ∑ d ∈ walkedDates z start finish,
    if WholeDay c z start finish d then c.civilTimes.length - (landings c z start finish d).card
    else 0

/-- Instants that a walked date shares with an earlier one. -/
def repeated (start finish : Int) : Nat :=
  ∑ d ∈ walkedDates z start finish,
    (landings c z start finish d ∩
      ((walkedDates z start finish).filter (· < d)).biUnion (landings c z start finish)).card

/-- The instants that the walked dates resolve to. -/
def walked (start finish : Int) : Finset Int :=
  (walkedDates z start finish).biUnion (landings c z start finish)

/-- Every civil time ahead of `after` that resolves by `i` is past the dates of a search. -/
def Silent (after i : Int) : Prop :=
  ∀ d t, (LocalTime.cron c).Ahead z after d t → z.occurrenceAt d t ≤ i →
    z.date after + agentScheduleSearchDays ≤ d

/-- An occurrence of a civil time ahead of `after`. -/
def Upcoming (after i : Int) : Prop :=
  ∃ d t, (LocalTime.cron c).Ahead z after d t ∧ z.occurrenceAt d t = i

/-- An occurrence that no silence separates from `after`. -/
structure Heard (after i : Int) : Prop where
  upcoming : Upcoming c z after i
  unbroken : ∀ a, a = after ∨ Upcoming c z after a → a < i → ¬Silent c z a i

/-- No change of the offset carries a fire between the bounds over a midnight, or makes two
fires of a day that begins and ends at one offset fall together. -/
structure KeepsDates (start finish : Int) : Prop where
  /-- A fire is due on its own date. -/
  own : ∀ d t, (LocalTime.cron c).Occurs d t → start ≤ z.occurrenceAt d t →
    z.occurrenceAt d t ≤ finish → z.date (z.occurrenceAt d t) = d
  /-- Its date is not outside those of the bounds. -/
  between : ∀ d t, (LocalTime.cron c).Occurs d t → start ≤ z.occurrenceAt d t →
    z.occurrenceAt d t ≤ finish → z.date start ≤ d ∧ d ≤ z.date finish
  /-- The fires of such a day are apart, and between the bounds as its midnights are. -/
  apart : ∀ d, WholeDay c z start finish d → (c.civilTimes.map (z.occurrenceAt d)).Nodup ∧
    ∀ t ∈ c.civilTimes, start ≤ z.occurrenceAt d t ∧ z.occurrenceAt d t ≤ finish

/-- No gap in the minute of `start` cuts a fire off, and no fire is behind more dates without
one than a search walks. -/
def Unhidden (start finish : Int) : Prop :=
  ∀ d t, (LocalTime.cron c).Occurs d t → start ≤ z.occurrenceAt d t →
    z.occurrenceAt d t ≤ finish → Heard c z (start - 1) (z.occurrenceAt d t)

section Walk

theorem walkedDates_eq (start finish : Int) : walkedDates z start finish =
    Finset.Ico (z.date start) (z.date start + (z.date finish - z.date start + 1).toNat) := by
  ext d
  simp only [walkedDates, List.mem_toFinset, List.mem_map, List.mem_range, Finset.mem_Ico]
  constructor
  · rintro ⟨k, hk, rfl⟩
    omega
  · intro hd
    exact ⟨(d - z.date start).toNat, by omega, by omega⟩

/-- The sizes of sets over a range, and what each shares with those before it. -/
theorem sum_card_eq (f : Int → Finset Int) (a : Int) (n : Nat) :
    ∑ d ∈ Finset.Ico a (a + n), (f d).card =
      ((Finset.Ico a (a + n)).biUnion f).card +
        ∑ d ∈ Finset.Ico a (a + n), (f d ∩ (Finset.Ico a d).biUnion f).card := by
  induction n with
  | zero => simp
  | succ n ih =>
      have hinsert : Finset.Ico a (a + (n + 1 : Nat)) = insert (a + n) (Finset.Ico a (a + n)) := by
        ext d
        simp only [Finset.mem_Ico, Finset.mem_insert]
        omega
      have hnot : a + (n : Int) ∉ Finset.Ico a (a + n) := by simp
      have hunion := Finset.card_union_add_card_inter (f (a + n)) ((Finset.Ico a (a + n)).biUnion f)
      rw [hinsert, Finset.sum_insert hnot, Finset.sum_insert hnot, Finset.biUnion_insert, ih]
      omega

theorem repeated_eq (start finish : Int) : repeated c z start finish =
    ∑ d ∈ walkedDates z start finish, (landings c z start finish d ∩
      (Finset.Ico (z.date start) d).biUnion (landings c z start finish)).card := by
  rw [repeated]
  apply Finset.sum_congr rfl
  intro d hd
  have hbefore : (walkedDates z start finish).filter (· < d) = Finset.Ico (z.date start) d := by
    rw [walkedDates_eq] at hd ⊢
    ext e
    simp only [Finset.mem_filter, Finset.mem_Ico] at hd ⊢
    omega
  rw [hbefore]

theorem countDays_eq_sum (start finish : Int) (n : Nat) (d : Int) :
    countDays c z start finish n d = ∑ d' ∈ Finset.Ico d (d + n),
      if c.matchesDate d' then dayOccurrences c z start finish d' else 0 := by
  induction n generalizing d with
  | zero => simp [countDays]
  | succ n ih =>
      have hinsert : Finset.Ico d (d + (n + 1 : Nat)) = insert d (Finset.Ico (d + 1) (d + 1 + n)) := by
        ext d'
        simp only [Finset.mem_Ico, Finset.mem_insert]
        omega
      rw [countDays, ih (d + 1), hinsert, Finset.sum_insert (by simp)]

theorem card_landings_le (start finish d : Int) :
    (landings c z start finish d).card ≤ c.civilTimes.length := by
  rw [landings]
  split
  · calc _ ≤ (c.civilTimes.map (z.occurrenceAt d)).toFinset.card := Finset.card_filter_le _ _
      _ ≤ (c.civilTimes.map (z.occurrenceAt d)).length := List.toFinset_card_le _
      _ = c.civilTimes.length := List.length_map _
  · simp

/-- What one date adds to the count. -/
theorem dayOccurrences_eq (start finish d : Int) :
    (if c.matchesDate d then dayOccurrences c z start finish d else 0) =
      (landings c z start finish d).card +
        if WholeDay c z start finish d then
          c.civilTimes.length - (landings c z start finish d).card
        else 0 := by
  have hle := card_landings_le c z start finish d
  by_cases hmatches : c.matchesDate d = true
  · rw [if_pos hmatches, dayOccurrences]
    by_cases hday : z.instant (Zone.midnight d) ≥ start ∧
        z.instant (Zone.midnight (d + 1)) ≤ finish ∧
        z.civilOffset (Zone.midnight d) = z.civilOffset (Zone.midnight (d + 1))
    · rw [if_pos hday, if_pos ⟨hmatches, hday⟩]
      omega
    · rw [if_neg hday, if_neg fun h => hday h.2, landings, if_pos hmatches, add_zero,
        ← List.toFinset_card_of_nodup (List.Nodup.filter _ (List.nodup_dedup _))]
      congr 1
      ext i
      simp
  · rw [if_neg hmatches, if_neg fun h => hmatches h.1, landings, if_neg hmatches]
    simp

/-- The count is the number of instants that the walk resolves to, with its excess. -/
theorem cronOccurrenceCount_eq (start finish : Int) :
    cronOccurrenceCount c z start finish =
      (walked c z start finish).card + repeated c z start finish + surplus c z start finish := by
  rw [cronOccurrenceCount, countDays_eq_sum, ← walkedDates_eq,
    Finset.sum_congr rfl fun d _ => dayOccurrences_eq c z start finish d, Finset.sum_add_distrib,
    walked, repeated_eq, surplus, walkedDates_eq, sum_card_eq]

theorem mem_walked (start finish i : Int) :
    i ∈ walked c z start finish ↔ (start ≤ i ∧ i ≤ finish) ∧
      ∃ d t, (LocalTime.cron c).Occurs d t ∧ z.occurrenceAt d t = i ∧
        z.date start ≤ d ∧ d ≤ z.date finish := by
  simp only [walked, walkedDates_eq, Finset.mem_biUnion, Finset.mem_Ico, landings]
  constructor
  · rintro ⟨d, hd, hi⟩
    split at hi
    next hmatches =>
      rw [Finset.mem_filter, List.mem_toFinset, List.mem_map] at hi
      obtain ⟨⟨t, ht, heq⟩, hbounds⟩ := hi
      exact ⟨hbounds, d, t, ⟨hmatches, ht⟩, heq, by omega, by omega⟩
    next => simp at hi
  · rintro ⟨hbounds, d, t, hoccurs, heq, hfrom, hto⟩
    refine ⟨d, by omega, ?_⟩
    rw [if_pos (show c.matchesDate d = true from hoccurs.date), Finset.mem_filter, List.mem_toFinset, List.mem_map]
    exact ⟨⟨t, hoccurs.time, heq⟩, hbounds⟩

end Walk

section KeepsDates

variable {c z} {start finish : Int} (hdates : KeepsDates c z start finish)

include hdates

theorem KeepsDates.landing {d i : Int} (h : i ∈ landings c z start finish d) : z.date i = d := by
  rw [landings] at h
  split at h
  · rename_i hmatches
    rw [Finset.mem_filter, List.mem_toFinset, List.mem_map] at h
    obtain ⟨⟨t, ht, rfl⟩, hstart, hfinish⟩ := h
    exact hdates.own d t ⟨hmatches, ht⟩ hstart hfinish
  · cases h

theorem KeepsDates.repeated_eq : repeated c z start finish = 0 := by
  rw [repeated]
  apply Finset.sum_eq_zero
  intro d _
  rw [Finset.card_eq_zero, Finset.eq_empty_iff_forall_notMem]
  intro i hi
  rw [Finset.mem_inter, Finset.mem_biUnion] at hi
  obtain ⟨hd, e, he, hi⟩ := hi
  have hbefore := (Finset.mem_filter.mp he).2
  rw [← hdates.landing hd, ← hdates.landing hi] at hbefore
  exact lt_irrefl _ hbefore

theorem KeepsDates.surplus_eq : surplus c z start finish = 0 := by
  rw [surplus]
  apply Finset.sum_eq_zero
  intro d _
  split
  · rename_i hday
    obtain ⟨hnodup, hbounds⟩ := hdates.apart d hday
    have hall : landings c z start finish d = (c.civilTimes.map (z.occurrenceAt d)).toFinset := by
      rw [landings, if_pos hday.1, Finset.filter_true_of_mem]
      intro i hi
      obtain ⟨t, ht, rfl⟩ := List.mem_map.mp (List.mem_toFinset.mp hi)
      exact hbounds t ht
    rw [hall, List.toFinset_card_of_nodup hnodup, List.length_map, Nat.sub_self]
  · rfl

theorem KeepsDates.mem_walked_iff (i : Int) : i ∈ walked c z start finish ↔
    (start ≤ i ∧ i ≤ finish) ∧
      ∃ d t, (LocalTime.cron c).Occurs d t ∧ z.occurrenceAt d t = i := by
  rw [mem_walked]
  constructor
  · rintro ⟨hbounds, d, t, hoccurs, heq, -⟩
    exact ⟨hbounds, d, t, hoccurs, heq⟩
  · rintro ⟨hbounds, d, t, hoccurs, rfl⟩
    obtain ⟨hfrom, hto⟩ := hdates.between d t hoccurs hbounds.1 hbounds.2
    exact ⟨hbounds, d, t, hoccurs, rfl, hfrom, hto⟩

end KeepsDates

/-- Where no change carries the clock over a midnight or comes twice in a day, every fire is
due on its own date. -/
theorem Zone.Steady.keepsDates {c : Cron} {z : Zone} (hz : z.Steady) {start finish : Int} :
    KeepsDates c z start finish where
  own d t hoccurs _ _ := hz.keeps d t hoccurs.lt
  between d t hoccurs hstart hfinish := by
    have hfrom := hz.date_mono _ _ hstart
    have hto := hz.date_mono _ _ hfinish
    rw [hz.keeps d t hoccurs.lt] at hfrom hto
    exact ⟨hfrom, hto⟩
  apart d hday := by
    obtain ⟨-, hstart, hfinish, hoffset⟩ := hday
    obtain ⟨hnodup, hbounds⟩ := whole_occurrences c z hz d hoffset
    refine ⟨hnodup, fun t ht => ?_⟩
    obtain ⟨hfrom, hto⟩ := hbounds t ht
    omega

section Iteration

theorem heard_later (after i : Int) (h : Heard c z after i) : after < i := by
  obtain ⟨d, t, hahead, rfl⟩ := h.upcoming
  exact hahead.later

variable (hz : z.Orderly)

include hz

/-- A step of the iteration: the earliest occurrence ahead, or a silence. -/
theorem next_cases (after i : Int) (hi : Upcoming c z after i) :
    (∃ fire, nextOccurrence c z after = some fire ∧ Upcoming c z after fire ∧ after < fire ∧
      fire ≤ i) ∨ nextOccurrence c z after = none ∧ Silent c z after i := by
  rw [← LocalTime.next_cron]
  cases hnext : (LocalTime.cron c).next z after with
  | none =>
      right
      refine ⟨rfl, ?_⟩
      intro d t hahead _
      exact ((LocalTime.cron c).next_eq_none_iff z after).mp hnext d t hahead
  | some fire =>
      left
      obtain ⟨⟨d, t, hahead, -, hfire⟩, hleast⟩ :=
        ((LocalTime.cron c).next_eq_some_iff z after hz fire).mp hnext
      obtain ⟨d', t', hahead', heq⟩ := hi
      refine ⟨fire, rfl, ⟨d, t, hahead, hfire⟩, ?_, ?_⟩
      · rw [← hfire]
        exact hahead.later
      · rw [← heq]
        exact hleast d' t' hahead'

theorem next_upcoming (after fire : Int) (h : nextOccurrence c z after = some fire) :
    Upcoming c z after fire ∧ after < fire ∧ (∀ i, Upcoming c z after i → fire ≤ i) ∧
      ∀ i, fire ≤ i → ¬Silent c z after i := by
  rw [← LocalTime.next_cron] at h
  obtain ⟨⟨d, t, hahead, hwithin, hfire⟩, hleast⟩ :=
    ((LocalTime.cron c).next_eq_some_iff z after hz fire).mp h
  refine ⟨⟨d, t, hahead, hfire⟩, hfire ▸ hahead.later, ?_, ?_⟩
  · rintro i ⟨d', t', hahead', rfl⟩
    exact hleast d' t' hahead'
  · intro i hi hsilent
    have := hsilent d t hahead (by omega)
    omega

/-- From a fire on, every occurrence to come is ahead. -/
theorem upcoming_iff (after fire i : Int) (hfire : Upcoming c z after fire) (hlt : after < fire) :
    Upcoming c z fire i ↔ Upcoming c z after i ∧ fire < i := by
  obtain ⟨d, t, hahead, rfl⟩ := hfire
  have hminute : Zone.OnMinute (z.clock (z.occurrenceAt d t)) := by
    rw [z.clock_occurrenceAt]
    exact z.onMinute_landing d t
  have hoccurred := LocalTime.minute_occurred z (z.occurrenceAt d t) hz hminute
  have hiff := (LocalTime.cron c).ahead_iff z (z.occurrenceAt d t) hz hoccurred
  constructor
  · rintro ⟨d', t', hahead', rfl⟩
    refine ⟨⟨d', t', ⟨hahead'.occurs, ?_, lt_trans hlt hahead'.later⟩, rfl⟩, hahead'.later⟩
    -- An earlier civil time would have occurred with the fire.
    by_contra hbehind
    have hmono := z.occurrenceAt_mono hz d' d t' t (by have := hahead.past; omega)
    have := hahead'.later
    omega
  · rintro ⟨⟨d', t', hahead', rfl⟩, hlater⟩
    exact ⟨d', t', (hiff d' t' hahead'.occurs).mpr hlater, rfl⟩

/-- What is heard from an instant is its next fire, or heard from that. -/
theorem heard_iff (after fire i : Int) (h : nextOccurrence c z after = some fire) :
    Heard c z after i ↔ i = fire ∨ Heard c z fire i := by
  obtain ⟨hupcoming, hlt, hleast, hsounds⟩ := next_upcoming c z hz after fire h
  have hshift := fun i => upcoming_iff c z hz after fire i hupcoming hlt
  constructor
  · intro hi
    have hle := hleast i hi.upcoming
    rcases eq_or_lt_of_le hle with heq | hfire
    · exact .inl heq.symm
    · refine .inr ⟨(hshift i).mpr ⟨hi.upcoming, hfire⟩, ?_⟩
      rintro a (rfl | ha) hai
      · exact hi.unbroken a (.inr hupcoming) hai
      · exact hi.unbroken a (.inr ((hshift a).mp ha).1) hai
  · rintro (rfl | hi)
    · refine ⟨hupcoming, ?_⟩
      rintro a (rfl | ha) hai
      · exact hsounds i le_rfl
      · have := hleast a ha
        omega
    · have hfire := ((hshift i).mp hi.upcoming).2
      refine ⟨((hshift i).mp hi.upcoming).1, ?_⟩
      rintro a (rfl | ha) hai
      · exact hsounds i (le_of_lt hfire)
      · rcases eq_or_lt_of_le (hleast a ha) with rfl | hpast
        · exact hi.unbroken fire (.inl rfl) hai
        · exact hi.unbroken a (.inr ((hshift a).mpr ⟨ha, hpast⟩)) hai

/-- The iteration finds what is heard, in its order. -/
theorem mem_iterateNext (finish : Int) (n : Nat) (after : Int) (hn : (finish - after).toNat ≤ n) :
    (∀ i, i ∈ iterateNext c z finish n after ↔ Heard c z after i ∧ i ≤ finish) ∧
      (iterateNext c z finish n after).Pairwise (· < ·) := by
  induction n generalizing after with
  | zero =>
      refine ⟨fun i => ?_, List.Pairwise.nil⟩
      rw [iterateNext]
      constructor
      · intro hi
        cases hi
      · rintro ⟨hi, hle⟩
        have := heard_later c z after i hi
        omega
  | succ n ih =>
      rw [iterateNext]
      cases hnext : nextOccurrence c z after with
      | none =>
          refine ⟨fun i => ?_, List.Pairwise.nil⟩
          constructor
          · intro hi
            cases hi
          · rintro ⟨hi, -⟩
            rcases next_cases c z hz after i hi.upcoming with ⟨fire, hfire, -⟩ | ⟨-, hsilent⟩
            · rw [hnext] at hfire
              cases hfire
            · exact absurd hsilent (hi.unbroken after (.inl rfl) (heard_later c z after i hi))
      | some fire =>
          obtain ⟨hupcoming, hlt, hleast, -⟩ := next_upcoming c z hz after fire hnext
          by_cases hle : fire ≤ finish
          · simp only [if_pos hle]
            obtain ⟨hmem, hsorted⟩ := ih fire (by omega)
            refine ⟨fun i => ?_, List.pairwise_cons.mpr ⟨?_, hsorted⟩⟩
            · rw [List.mem_cons, hmem, heard_iff c z hz after fire i hnext]
              constructor
              · rintro (rfl | hi)
                · exact ⟨.inl rfl, hle⟩
                · exact ⟨.inr hi.1, hi.2⟩
              · rintro ⟨rfl | hi, hfinish⟩
                · exact .inl rfl
                · exact .inr ⟨hi, hfinish⟩
            · intro i hi
              exact heard_later c z fire i ((hmem i).mp hi).1
          · simp only [if_neg hle]
            refine ⟨fun i => ?_, List.Pairwise.nil⟩
            constructor
            · intro hi
              cases hi
            · rintro ⟨hi, hfinish⟩
              have := hleast i hi.upcoming
              omega

variable {c z}

end Iteration

section Instances

/-- `30 23 * * *`. -/
def lateEvening : Cron where
  minutes := [30]
  hours := [23]
  daysOfMonth := (List.range' 1 31).map Int.ofNat
  months := (List.range' 1 12).map Int.ofNat
  daysOfWeek := (List.range 8).map fun value => (value % 7 : Nat)
  restricted := false
  minutes_sorted := by decide
  hours_sorted := by decide
  minutes_lt := by decide
  hours_lt := by decide

/-- Nuuk's clock skips the last hour of 2026-03-28. -/
def saturdayChange : Int := 20541 * microsecondsPerDay + 60 * microsecondsPerMinute

def saturdayNuuk : ZoneChanges := .once saturdayChange (-120 * microsecondsPerMinute) (-60 * microsecondsPerMinute)

/-- `0,30 2 * * *`. -/
def twiceAtTwo : Cron where
  minutes := [0, 30]
  hours := [2]
  daysOfMonth := (List.range' 1 31).map Int.ofNat
  months := (List.range' 1 12).map Int.ofNat
  daysOfWeek := (List.range 8).map fun value => (value % 7 : Nat)
  restricted := false
  minutes_sorted := by decide
  hours_sorted := by decide
  minutes_lt := by decide
  hours_lt := by decide

/-- New York's clock skips from two to three in the night of 2026-03-08. -/
def sundayChange : Int := 20520 * microsecondsPerDay + 420 * microsecondsPerMinute

def sundayNewYork : ZoneChanges :=
  .once sundayChange (-300 * microsecondsPerMinute) (-240 * microsecondsPerMinute)

end Instances

end RcpGraph
