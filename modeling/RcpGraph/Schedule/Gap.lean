import RcpGraph.Schedule.Counting

/-!
The distance between fires. `validate_schedule` probes the fires that follow the first;
later ones keep their distance when neighbouring civil times do.
-/

namespace RcpGraph

/-- `AGENT_SCHEDULE_MIN_GAP_MINUTES`. -/
def agentScheduleMinGapMinutes : Nat := 15

variable (c : Cron) (z : Zone)

/-- The fires that `next_occurrence` finds one after another. -/
def nthFire (first : Int) : Nat → Option Int
  | 0 => some first
  | k + 1 => (nthFire first k).bind (nextOccurrence c z)

/-- Two matching civil times without another one between them. -/
structure Neighbours (d : Int) (t : Nat) (d' : Int) (t' : Nat) : Prop where
  earlier : (LocalTime.cron c).Occurs d t
  later : (LocalTime.cron c).Occurs d' t'
  lt : Zone.civilTime d t < Zone.civilTime d' t'
  between : ∀ e s, (LocalTime.cron c).Occurs e s → Zone.civilTime d t < Zone.civilTime e s →
    Zone.civilTime d' t' ≤ Zone.civilTime e s

/-- The occurrences from the first one on, without those behind a silence. -/
def heardFrom (first : Int) : Set Int := {i | i = first ∨ Heard c z first i}

section Fires

theorem Silent.earlier {c : Cron} {z : Zone} {after i j : Int} (h : Silent c z after j)
    (hij : i ≤ j) : Silent c z after i := fun d t hahead hle => h d t hahead (le_trans hle hij)

/-- Neighbours exist between any two matching civil times. -/
theorem exists_neighbour (d d' : Int) (t t' : Nat) (h : (LocalTime.cron c).Occurs d t)
    (h' : (LocalTime.cron c).Occurs d' t') (hlt : Zone.civilTime d t < Zone.civilTime d' t') :
    ∃ e s, Neighbours c e s d' t' ∧ Zone.civilTime d t ≤ Zone.civilTime e s := by
  classical
  have hbounded : ∃ b : Int, ∀ civil, (∃ e s, (LocalTime.cron c).Occurs e s ∧
      Zone.civilTime e s = civil ∧ civil < Zone.civilTime d' t') → civil ≤ b :=
    ⟨Zone.civilTime d' t', fun civil ⟨_, _, _, _, hle⟩ => le_of_lt hle⟩
  obtain ⟨civil, ⟨e, s, hoccurs, rfl, hbefore⟩, hgreatest⟩ :=
    Int.exists_greatest_of_bdd hbounded ⟨_, d, t, h, rfl, hlt⟩
  refine ⟨e, s, ⟨hoccurs, h', hbefore, ?_⟩, hgreatest _ ⟨d, t, h, rfl, hlt⟩⟩
  intro e' s' hoccurs' hpast
  by_contra hbetween
  have := hgreatest _ ⟨e', s', hoccurs', rfl, not_le.mp hbetween⟩
  omega

variable (hz : z.Orderly)

include hz

theorem Heard.trans {after i j : Int} (hi : Heard c z after i) (hj : Heard c z i j) :
    Heard c z after j := by
  have hafter := heard_later c z after i hi
  have hlater := heard_later c z i j hj
  have hshift := fun k => upcoming_iff c z hz after i k hi.upcoming hafter
  refine ⟨((hshift j).mp hj.upcoming).1, ?_⟩
  intro a ha haj hsilent
  rcases lt_trichotomy a i with hlt | rfl | hgt
  · exact hi.unbroken a ha hlt (hsilent.earlier (le_of_lt hlater))
  · exact hj.unbroken a (.inl rfl) haj hsilent
  · cases ha with
    | inl heq => omega
    | inr hupcoming =>
        exact hj.unbroken a (.inr ((hshift a).mpr ⟨hupcoming, hgt⟩)) haj hsilent

theorem heard_next (after fire : Int) (h : nextOccurrence c z after = some fire) :
    Heard c z after fire := (heard_iff c z hz after fire fire h).mpr (.inl rfl)

theorem heard_nthFire (first a : Int) (k : Nat) (h : nthFire c z first k = some a) :
    a ∈ heardFrom c z first := by
  induction k generalizing a with
  | zero =>
      cases h
      exact .inl rfl
  | succ k ih =>
      obtain ⟨b, hb, hnext⟩ := Option.bind_eq_some_iff.mp h
      have hheard := heard_next c z hz b a hnext
      cases ih b hb with
      | inl heq => exact .inr (heq ▸ hheard)
      | inr hfirst => exact .inr (hfirst.trans c z hz hheard)

/-- What is heard later is ahead of what is heard before. -/
theorem upcoming_heard (first a i : Int) (ha : a ∈ heardFrom c z first)
    (hi : i ∈ heardFrom c z first) (hlt : a < i) : Upcoming c z a i := by
  cases hi with
  | inl heq =>
      exfalso
      cases ha with
      | inl heq' => omega
      | inr hheard =>
          have := heard_later c z first a hheard
          omega
  | inr hheard =>
      cases ha with
      | inl heq => exact heq ▸ hheard.upcoming
      | inr ha =>
          exact (upcoming_iff c z hz first a i ha.upcoming (heard_later c z first a ha)).mpr
            ⟨hheard.upcoming, hlt⟩

/-- The k-th fire has k fires before it. -/
theorem ncard_before (first a : Int) (k : Nat) (h : nthFire c z first k = some a) :
    {i | i ∈ heardFrom c z first ∧ i < a}.Finite ∧
      {i | i ∈ heardFrom c z first ∧ i < a}.ncard = k := by
  induction k generalizing a with
  | zero =>
      cases h
      have hempty : {i | i ∈ heardFrom c z first ∧ i < first} = ∅ := by
        rw [Set.eq_empty_iff_forall_notMem]
        rintro i ⟨hi, hlt⟩
        cases hi with
        | inl heq => omega
        | inr hheard =>
            have := heard_later c z first i hheard
            omega
      rw [hempty]
      exact ⟨Set.finite_empty, Set.ncard_empty Int⟩
  | succ k ih =>
      obtain ⟨b, hb, hnext⟩ := Option.bind_eq_some_iff.mp h
      obtain ⟨hfinite, hcard⟩ := ih b hb
      obtain ⟨-, hlt, hleast, -⟩ := next_upcoming c z hz b a hnext
      have hmem := heard_nthFire c z hz first b k hb
      have hinsert : {i | i ∈ heardFrom c z first ∧ i < a} =
          insert b {i | i ∈ heardFrom c z first ∧ i < b} := by
        ext i
        simp only [Set.mem_ofPred_eq, Set.mem_insert_iff]
        constructor
        · rintro ⟨hi, hia⟩
          rcases lt_trichotomy i b with hib | rfl | hbi
          · exact .inr ⟨hi, hib⟩
          · exact .inl rfl
          · have := hleast i (upcoming_heard c z hz first b i hmem hi hbi)
            omega
        · rintro (rfl | ⟨hi, hib⟩)
          · exact ⟨hmem, hlt⟩
          · exact ⟨hi, by omega⟩
      rw [hinsert]
      refine ⟨hfinite.insert b, ?_⟩
      rw [Set.ncard_insert_of_notMem (fun hb => by simp at hb) hfinite, hcard]

/-- Every occurrence heard is a fire. -/
theorem exists_nthFire (first a : Int) (ha : a ∈ heardFrom c z first) :
    ∃ k, nthFire c z first k = some a := by
  have hwalk : ∀ (n : Nat) (b : Int) (k : Nat), nthFire c z first k = some b →
      a ∈ heardFrom c z b → (a - b).toNat ≤ n → ∃ k, nthFire c z first k = some a := by
    intro n
    induction n with
    | zero =>
        rintro b k hb (rfl | hheard) hn
        · exact ⟨k, hb⟩
        · have := heard_later c z b a hheard
          omega
    | succ n ih =>
        rintro b k hb (rfl | hheard) hn
        · exact ⟨k, hb⟩
        · rcases next_cases c z hz b a hheard.upcoming with ⟨fire, hnext, -, hlt, -⟩ | ⟨-, hsilent⟩
          · apply ih fire (k + 1)
            · rw [nthFire, hb, Option.bind_some, hnext]
            · exact (heard_iff c z hz b fire a hnext).mp hheard
            · omega
          · exact absurd hsilent
              (hheard.unbroken b (.inl rfl) (heard_later c z b a hheard))
  exact hwalk (a - first).toNat first 0 rfl ha le_rfl

/-- The occurrence after a fire belongs to a neighbour of a civil time of the fire. -/
theorem neighbours_of_next (d : Int) (t : Nat) (hoccurs : (LocalTime.cron c).Occurs d t) (b : Int)
    (h : nextOccurrence c z (z.occurrenceAt d t) = some b) :
    ∃ e s d' t', Neighbours c e s d' t' ∧ z.occurrenceAt e s = z.occurrenceAt d t ∧
      z.occurrenceAt d' t' = b ∧
      d' < z.date (z.occurrenceAt d t) + agentScheduleSearchDays := by
  rw [← LocalTime.next_cron] at h
  obtain ⟨d', t', hahead, hwithin, hb, hleast⟩ := (LocalTime.cron c).next_some z _ b h
  have hlt : Zone.civilTime d t < Zone.civilTime d' t' := by
    by_contra hle
    have := z.occurrenceAt_mono hz d' d t' t (not_lt.mp hle)
    have := hahead.later
    omega
  obtain ⟨e, s, hneighbours, hle⟩ := exists_neighbour c d d' t t' hoccurs hahead.occurs hlt
  refine ⟨e, s, d', t', hneighbours, ?_, hb, hwithin⟩
  have hfrom := z.occurrenceAt_mono hz d e t s hle
  -- The neighbour is not ahead of the fire any more.
  have hminute : Zone.OnMinute (z.clock (z.occurrenceAt d t)) := by
    rw [z.clock_occurrenceAt]
    exact z.onMinute_landing d t
  have hoccurred := LocalTime.minute_occurred z (z.occurrenceAt d t) hz hminute
  by_contra hne
  have hahead' := ((LocalTime.cron c).ahead_iff z _ hz hoccurred e s hneighbours.earlier).mpr (by omega)
  have := hleast e s hahead'
  have := hneighbours.lt
  omega

/-- A neighbour that resolves later is the next fire. -/
theorem next_of_neighbours (d d' : Int) (t t' : Nat) (h : Neighbours c d t d' t')
    (hlater : z.occurrenceAt d t < z.occurrenceAt d' t')
    (hwithin : d' < z.date (z.occurrenceAt d t) + agentScheduleSearchDays) :
    nextOccurrence c z (z.occurrenceAt d t) = some (z.occurrenceAt d' t') := by
  have hminute : Zone.OnMinute (z.clock (z.occurrenceAt d t)) := by
    rw [z.clock_occurrenceAt]
    exact z.onMinute_landing d t
  have hoccurred := LocalTime.minute_occurred z (z.occurrenceAt d t) hz hminute
  have hiff := (LocalTime.cron c).ahead_iff z _ hz hoccurred
  rw [← LocalTime.next_cron, LocalTime.next_eq_some_iff (LocalTime.cron c) z _ hz]
  refine ⟨⟨d', t', (hiff d' t' h.later).mpr hlater, hwithin, rfl⟩, ?_⟩
  intro e s hahead
  apply z.occurrenceAt_mono hz
  apply h.between e s hahead.occurs
  by_contra hle
  have := z.occurrenceAt_mono hz e d s t (not_lt.mp hle)
  have := hahead.later
  omega

end Fires

section Probe

theorem nthFire_succ (first following : Int) (k : Nat)
    (h : nextOccurrence c z first = some following) :
    nthFire c z first (k + 1) = nthFire c z following k := by
  induction k with
  | zero => exact h
  | succ k ih => rw [nthFire, ih, nthFire]

/-- The probe of `validate_schedule` keeps the fires it passes apart. -/
theorem keepsGap_nthFire (gap : Int) (n : Nat) (first : Int) (h : keepsGap c z gap n first = true)
    (k : Nat) (hk : k < n) (a b : Int) (ha : nthFire c z first k = some a)
    (hb : nextOccurrence c z a = some b) : gap ≤ b - a := by
  induction n generalizing first k with
  | zero => omega
  | succ n ih =>
      rw [keepsGap, Option.any_eq_true] at h
      obtain ⟨following, hfollowing, h⟩ := h
      rw [Bool.and_eq_true, decide_eq_true_eq] at h
      cases k with
      | zero =>
          cases ha
          rw [hfollowing, Option.some.injEq] at hb
          omega
      | succ k =>
          rw [nthFire_succ c z first following k hfollowing] at ha
          exact ih following h.2 k (by omega) ha

variable (zones : String → Zone)

/-- An accepted expression has a first fire, and its probe passed. -/
theorem validateSchedule_cron (request : ScheduleRequest) (now first : Int) (gap : Nat)
    (hcron : request.timing = .cron c)
    (h : validateSchedule zones request now (some gap) = some first) :
    (∃ after, nextOccurrence c (zones request.timezone) after = some first) ∧
      keepsGap c (zones request.timezone) (stepOf gap) (2 * c.civilTimes.length + 1) first = true := by
  rw [validateSchedule, hcron] at h
  obtain ⟨hfirst, hprobe⟩ := Option.filter_eq_some_iff.mp h
  rw [Bool.and_eq_true, Bool.and_eq_true] at hprobe
  exact ⟨⟨_, hfirst⟩, hprobe.1.2⟩

/-- The fires of an accepted expression keep the minimum gap exactly when, behind the fires that
the probe passed, neighbouring civil times resolve to one instant or keep it. -/
theorem accepted_gap_iff (request : ScheduleRequest) (now first : Int)
    (hcron : request.timing = .cron c) (hz : (zones request.timezone).Orderly)
    (h : validateSchedule zones request now (some agentScheduleMinGapMinutes) = some first) :
    (∀ k a b, nthFire c (zones request.timezone) first k = some a →
        nthFire c (zones request.timezone) first (k + 1) = some b →
        stepOf agentScheduleMinGapMinutes ≤ b - a) ↔
      ∀ d t d' t', Neighbours c d t d' t' →
        (zones request.timezone).occurrenceAt d t ∈ heardFrom c (zones request.timezone) first →
        2 * c.civilTimes.length + 1 ≤ {i | i ∈ heardFrom c (zones request.timezone) first ∧
          i < (zones request.timezone).occurrenceAt d t}.ncard →
        d' < (zones request.timezone).date ((zones request.timezone).occurrenceAt d t) +
          agentScheduleSearchDays →
        (zones request.timezone).occurrenceAt d' t' = (zones request.timezone).occurrenceAt d t ∨
          stepOf agentScheduleMinGapMinutes ≤ (zones request.timezone).occurrenceAt d' t' -
            (zones request.timezone).occurrenceAt d t := by
  obtain ⟨⟨after, hfirst⟩, hprobe⟩ :=
    validateSchedule_cron c zones request now first agentScheduleMinGapMinutes hcron h
  generalize zones request.timezone = z at hz hfirst hprobe ⊢
  constructor
  · intro hgap d t d' t' hneighbours hheard _ hwithin
    have hmono := z.occurrenceAt_mono hz d d' t t' (le_of_lt hneighbours.lt)
    rcases eq_or_lt_of_le hmono with heq | hlt
    · exact .inl heq.symm
    · obtain ⟨k, hk⟩ := exists_nthFire c z hz first _ hheard
      have hnext := next_of_neighbours c z hz d d' t t' hneighbours hlt hwithin
      exact .inr (hgap k _ _ hk (by rw [nthFire, hk, Option.bind_some, hnext]))
  · intro hgap k a b ha hb
    rw [nthFire, ha, Option.bind_some] at hb
    by_cases hk : k < 2 * c.civilTimes.length + 1
    · exact keepsGap_nthFire c z _ _ first hprobe k hk a b ha hb
    · have hheard := heard_nthFire c z hz first a k ha
      have hupcoming : ∃ x, Upcoming c z x a := by
        cases hheard with
        | inl heq => exact ⟨after, heq ▸ (next_upcoming c z hz after first hfirst).1⟩
        | inr hheard => exact ⟨first, hheard.upcoming⟩
      obtain ⟨x, d, t, hahead, rfl⟩ := hupcoming
      obtain ⟨e, s, d', t', hneighbours, heq, rfl, hwithin⟩ :=
        neighbours_of_next c z hz d t hahead.occurs b hb
      have hcard := (ncard_before c z hz first _ k ha).2
      rw [← heq] at hheard hwithin hcard hb ⊢
      cases hgap e s d' t' hneighbours hheard (by omega) hwithin with
      | inl hsame =>
          have := (next_upcoming c z hz _ _ hb).2.1
          omega
      | inr hfar => exact hfar

end Probe

section Instances

/-- `0,55 0,23 1,3,5,6 * *`. -/
def aroundMidnight : Cron where
  minutes := [0, 55]
  hours := [0, 23]
  daysOfMonth := [1, 3, 5, 6]
  months := (List.range' 1 12).map Int.ofNat
  daysOfWeek := (List.range 8).map fun value => (value % 7 : Nat)
  restricted := false
  minutes_sorted := by decide
  hours_sorted := by decide
  minutes_lt := by decide
  hours_lt := by decide

def midnightRequest : ScheduleRequest where
  scheduleId := "s1"
  threadId := "t1"
  operationId := "o1"
  key := "k1"
  timing := .cron aroundMidnight
  timezone := "UTC"
  note := ""
  start := none
  finish := none
  count := none

/-- The probe from 2026-09-30 ends on the fifth of October; 23:55 of that day is five minutes
before the next fire. -/
theorem accepted_gap_short :
    cronFields id "0,55 0,23 1,3,5,6 * *" = .ok aroundMidnight ∧
      validateSchedule (fun _ => Zone.fixed 0) midnightRequest (20726 * microsecondsPerDay)
        (some agentScheduleMinGapMinutes) = some (20727 * microsecondsPerDay) ∧
      nthFire aroundMidnight (Zone.fixed 0) (20727 * microsecondsPerDay) 11 =
        some (20731 * microsecondsPerDay + 1435 * microsecondsPerMinute) ∧
      nthFire aroundMidnight (Zone.fixed 0) (20727 * microsecondsPerDay) 12 =
        some (20732 * microsecondsPerDay) ∧
      ¬stepOf agentScheduleMinGapMinutes ≤ 20732 * microsecondsPerDay -
        (20731 * microsecondsPerDay + 1435 * microsecondsPerMinute) :=
  ⟨rfl, by decide +kernel, by decide +kernel, by decide +kernel, by decide⟩

/-- `0 12 * * *`. -/
def noon : Cron where
  minutes := [0]
  hours := [12]
  daysOfMonth := (List.range' 1 31).map Int.ofNat
  months := (List.range' 1 12).map Int.ofNat
  daysOfWeek := (List.range 8).map fun value => (value % 7 : Nat)
  restricted := false
  minutes_sorted := atZero_sorted
  hours_sorted := by decide
  minutes_lt := atZero_lt_minutes
  hours_lt := by decide

/-- One time a day is far from its neighbours. -/
theorem accepted_gap_noon :
    validateSchedule (fun _ => Zone.fixed 0) { midnightRequest with timing := .cron noon } 0
        (some agentScheduleMinGapMinutes) = some (720 * microsecondsPerMinute) ∧
      ∀ k a b, nthFire noon (Zone.fixed 0) (720 * microsecondsPerMinute) k = some a →
        nthFire noon (Zone.fixed 0) (720 * microsecondsPerMinute) (k + 1) = some b →
        stepOf agentScheduleMinGapMinutes ≤ b - a := by
  have haccepted : validateSchedule (fun _ => Zone.fixed 0)
      { midnightRequest with timing := .cron noon } 0 (some agentScheduleMinGapMinutes) =
        some (720 * microsecondsPerMinute) := by
    decide +kernel
  refine ⟨haccepted, ?_⟩
  apply (accepted_gap_iff noon (fun _ => Zone.fixed 0)
    { midnightRequest with timing := .cron noon } 0 (720 * microsecondsPerMinute) rfl
    (orderly_fixed 0) haccepted).mpr
  intro d t d' t' h _ _ _
  have htimes : (LocalTime.cron noon).times = [720] := by decide
  have ht := h.earlier.time
  have ht' := h.later.time
  rw [htimes, List.mem_singleton] at ht ht'
  subst ht ht'
  right
  have hlt := h.lt
  rw [occurrenceAt_fixed, occurrenceAt_fixed]
  simp only [Zone.civilTime, Zone.midnight, stepOf, agentScheduleMinGapMinutes, microsecondsPerDay,
    microsecondsPerMinute] at hlt ⊢
  omega

end Instances

end RcpGraph
