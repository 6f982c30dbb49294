import RcpGraph.Lib.Timetable
import RcpGraph.Schedule.Zone

/-!
Cron expressions over civil time. `nextOccurrence` searches day by day,
`cronOccurrenceCount` adds up the days between two instants, and both agree with
the timetable of the expression's occurrences in a steady zone.
-/

namespace RcpGraph

/-- The month and day of a date, in the proleptic Gregorian calendar. -/
def monthAndDay (d : Int) : Int × Int :=
  -- Years are counted from March, so that the leap day is the last of its year.
  let z := d + 719468
  let dayOfEra := z % 146097
  let yearOfEra := (dayOfEra - dayOfEra / 1460 + dayOfEra / 36524 - dayOfEra / 146096) / 365
  let dayOfYear := dayOfEra - (365 * yearOfEra + yearOfEra / 4 - yearOfEra / 100)
  let month := (5 * dayOfYear + 2) / 153
  (if month < 10 then month + 3 else month - 9, dayOfYear - (153 * month + 2) / 5 + 1)

/-- The day of the week, with Sunday as 0. -/
def dayOfWeek (d : Int) : Int := (d + 4) % 7

example : monthAndDay 0 = (1, 1) ∧ dayOfWeek 0 = 4 := by decide

example : monthAndDay 20512 = (2, 28) ∧ monthAndDay 20513 = (3, 1) ∧ monthAndDay 19782 = (2, 29) := by
  decide

/-- Every date is in one of twelve months. -/
theorem monthAndDay_bounds (d : Int) : 1 ≤ (monthAndDay d).1 ∧ (monthAndDay d).1 ≤ 12 ∧
    1 ≤ (monthAndDay d).2 ∧ (monthAndDay d).2 ≤ 31 := by
  simp only [monthAndDay]
  generalize hera : (d + 719468) % 146097 = dayOfEra
  have hday : 0 ≤ dayOfEra ∧ dayOfEra ≤ 146096 := by omega
  clear hera
  generalize hyear : (dayOfEra - dayOfEra / 1460 + dayOfEra / 36524 - dayOfEra / 146096) / 365 =
    yearOfEra
  generalize hrest : dayOfEra - (365 * yearOfEra + yearOfEra / 4 - yearOfEra / 100) = dayOfYear
  have hyears : 0 ≤ yearOfEra ∧ yearOfEra ≤ 399 := by omega
  have hdays : 0 ≤ dayOfYear ∧ dayOfYear ≤ 366 := by
    -- The leap rules are linear within one century of each count.
    generalize hcenturies : dayOfEra / 36524 = centuries at hyear
    generalize heras : dayOfEra / 146096 = eras at hyear
    generalize hyearCenturies : yearOfEra / 100 = yearCenturies at hrest
    have h1 : centuries = 0 ∨ centuries = 1 ∨ centuries = 2 ∨ centuries = 3 ∨ centuries = 4 := by
      omega
    have h2 : eras = 0 ∨ eras = 1 := by omega
    have h3 : yearCenturies = 0 ∨ yearCenturies = 1 ∨ yearCenturies = 2 ∨ yearCenturies = 3 := by
      omega
    rcases h1 with rfl | rfl | rfl | rfl | rfl <;> rcases h2 with rfl | rfl <;>
      rcases h3 with rfl | rfl | rfl | rfl <;> omega
  clear hyear hrest
  generalize hmonth : (5 * dayOfYear + 2) / 153 = month
  have hmonths : 0 ≤ month ∧ month ≤ 11 := by omega
  split <;> omega

/-- A parsed cron expression. -/
structure Cron where
  minutes : List Nat
  hours : List Nat
  daysOfMonth : List Int
  months : List Int
  daysOfWeek : List Int
  /-- Neither day field starts with a star. -/
  restricted : Bool
  minutes_sorted : minutes.Pairwise (· < ·)
  hours_sorted : hours.Pairwise (· < ·)
  minutes_lt : ∀ m ∈ minutes, m < 60
  hours_lt : ∀ h ∈ hours, h < 24

namespace Cron

/-- `cron_matches_date`. -/
def matchesDate (c : Cron) (d : Int) : Bool :=
  let dom := decide ((monthAndDay d).2 ∈ c.daysOfMonth)
  let dow := decide (dayOfWeek d ∈ c.daysOfWeek)
  decide ((monthAndDay d).1 ∈ c.months) && if c.restricted then dom || dow else dom && dow

/-- `_civil_times`, as minutes of the day. -/
def civilTimes (c : Cron) : List Nat :=
  c.hours.flatMap fun h => c.minutes.map fun m => h * 60 + m

theorem civilTimes_lt (c : Cron) (t : Nat) (ht : t ∈ c.civilTimes) : t < minutesPerDay := by
  obtain ⟨h, hh, ht⟩ := List.mem_flatMap.mp ht
  obtain ⟨m, hm, rfl⟩ := List.mem_map.mp ht
  have := c.hours_lt h hh
  have := c.minutes_lt m hm
  simp only [minutesPerDay]
  omega

theorem civilTimes_sorted (c : Cron) : c.civilTimes.Pairwise (· < ·) := by
  rw [civilTimes, List.pairwise_flatMap]
  constructor
  · intro h _
    rw [List.pairwise_map]
    exact c.minutes_sorted.imp fun hlt => by omega
  · refine c.hours_sorted.imp fun {h h'} hlt x hx y hy => ?_
    obtain ⟨m, hm, rfl⟩ := List.mem_map.mp hx
    obtain ⟨m', -, rfl⟩ := List.mem_map.mp hy
    have := c.minutes_lt m hm
    omega

end Cron

/-- `_first_on`. -/
def firstOn (z : Zone) (d : Int) (times : List Nat) (after : Int) : Option Int :=
  times.findSome? fun time =>
    if d = z.date after ∧ time ≤ z.minuteOfDay after then none
    else if z.occurrenceAt d time > after then some (z.occurrenceAt d time) else none

/-- The search of `next_occurrence` from a date on. -/
def nextOccurrenceFrom (c : Cron) (z : Zone) (after : Int) : Nat → Int → Option Int
  | 0, _ => none
  | n + 1, d =>
      if c.matchesDate d then
        match firstOn z d c.civilTimes after with
        | some candidate => some candidate
        | none => nextOccurrenceFrom c z after n (d + 1)
      else nextOccurrenceFrom c z after n (d + 1)

/-- `AGENT_SCHEDULE_SEARCH_DAYS`. -/
def agentScheduleSearchDays : Nat := 366 * 8

/-- `next_occurrence` of a cron expression; without one within eight years it raises. -/
def nextOccurrence (c : Cron) (z : Zone) (after : Int) : Option Int :=
  nextOccurrenceFrom c z after agentScheduleSearchDays (z.date after)

/-- What `cron_occurrence_count` adds for one matching day. -/
def dayOccurrences (c : Cron) (z : Zone) (start finish d : Int) : Nat :=
  if z.instant (Zone.midnight d) ≥ start ∧ z.instant (Zone.midnight (d + 1)) ≤ finish ∧
      z.civilOffset (Zone.midnight d) = z.civilOffset (Zone.midnight (d + 1)) then
    c.civilTimes.length
  else
    ((c.civilTimes.map (z.occurrenceAt d)).dedup.filter fun i => start ≤ i ∧ i ≤ finish).length

/-- The loop of `cron_occurrence_count` over a number of days. -/
def countDays (c : Cron) (z : Zone) (start finish : Int) : Nat → Int → Nat
  | 0, _ => 0
  | n + 1, d =>
      (if c.matchesDate d then dayOccurrences c z start finish d else 0) +
        countDays c z start finish n (d + 1)

/-- `cron_occurrence_count`. -/
def cronOccurrenceCount (c : Cron) (z : Zone) (start finish : Int) : Nat :=
  countDays c z start finish (z.date finish - z.date start + 1).toNat (z.date start)

/-- The occurrences of a cron expression. -/
def Cron.occurrences (c : Cron) (z : Zone) : Set Int :=
  {i | ∃ d, c.matchesDate d = true ∧ ∃ t ∈ c.civilTimes, z.occurrenceAt d t = i}

section Steady

variable (c : Cron) (z : Zone) (hz : z.Steady)

include hz

/-- A search on one date that finds nothing leaves nothing behind. -/
theorem firstOn_none (d after : Int) (h : firstOn z d c.civilTimes after = none) (t : Nat)
    (ht : t ∈ c.civilTimes) : z.occurrenceAt d t ≤ after := by
  have hnone := List.findSome?_eq_none_iff.mp h t ht
  split at hnone
  next hskip =>
    rw [hskip.1]
    exact hz.passed after t hskip.2
  next =>
    split at hnone
    · cases hnone
    next hlate => omega

theorem firstOn_some (d after i : Int) (h : firstOn z d c.civilTimes after = some i) :
    (∃ t ∈ c.civilTimes, z.occurrenceAt d t = i) ∧ after < i ∧
      ∀ t ∈ c.civilTimes, after < z.occurrenceAt d t → i ≤ z.occurrenceAt d t := by
  obtain ⟨early, t, late, hsplit, hfound, hearly⟩ := List.findSome?_eq_some_iff.mp h
  have hsorted := c.civilTimes_sorted
  have hmem : t ∈ c.civilTimes := by simp [hsplit]
  rw [hsplit] at hsorted
  split at hfound
  · cases hfound
  next hskip =>
    split at hfound
    next hlate =>
      rw [Option.some.injEq] at hfound
      refine ⟨⟨t, hmem, hfound⟩, by omega, fun t' ht' hafter => ?_⟩
      rw [hsplit, List.mem_append, List.mem_cons] at ht'
      rcases ht' with ht' | rfl | ht'
      · -- An earlier time was skipped or had passed.
        exfalso
        have hnone := hearly t' ht'
        split at hnone
        next hskip' =>
          have := hz.passed after t' hskip'.2
          rw [hskip'.1] at hafter
          omega
        next => cases hnone
      · exact le_of_eq hfound.symm
      · have hlt := (List.pairwise_cons.mp (List.pairwise_append.mp hsorted).2.1).1 t' ht'
        rw [← hfound]
        refine hz.ordered d t t' (by omega) (c.civilTimes_lt t' ?_)
        simp [hsplit, ht']
    next => cases hfound

theorem next_nextOccurrenceFrom (after : Int) (n : Nat) (d i : Int)
    (hbefore : ∀ j ∈ c.occurrences z, after < j → d ≤ z.date j)
    (h : nextOccurrenceFrom c z after n d = some i) :
    Timetable.Next (c.occurrences z) after i := by
  induction n generalizing d with
  | zero => cases h
  | succ n ih =>
      have hnext : ¬(c.matchesDate d = true ∧ ∃ t ∈ c.civilTimes, after < z.occurrenceAt d t) →
          ∀ j ∈ c.occurrences z, after < j → d + 1 ≤ z.date j := by
        rintro hnone j ⟨d', hd', t, ht, rfl⟩ hj
        have hd := hbefore _ ⟨d', hd', t, ht, rfl⟩ hj
        rw [hz.keeps d' t (c.civilTimes_lt t ht)] at hd ⊢
        rcases eq_or_lt_of_le hd with rfl | hlt
        · exact absurd ⟨hd', t, ht, hj⟩ hnone
        · omega
      rw [nextOccurrenceFrom] at h
      split at h
      next hmatches =>
        split at h
        next candidate hfound =>
          cases h
          obtain ⟨⟨t, ht, hi⟩, hafter, hleast⟩ := firstOn_some c z hz d after i hfound
          refine ⟨⟨⟨d, hmatches, t, ht, hi⟩, hafter⟩, ?_⟩
          rintro j ⟨⟨d', hd', t', ht', rfl⟩, hj⟩
          have hdate := hz.keeps d' t' (c.civilTimes_lt t' ht')
          have hd := hbefore _ ⟨d', hd', t', ht', rfl⟩ hj
          rw [hdate] at hd
          rcases eq_or_lt_of_le hd with rfl | hlt
          · exact hleast t' ht' hj
          · by_contra hlater
            have := hz.date_mono _ i (le_of_lt (not_le.mp hlater))
            rw [hdate, ← hi, hz.keeps d t (c.civilTimes_lt t ht)] at this
            omega
        next hnone =>
          refine ih (d + 1) (hnext ?_) h
          rintro ⟨-, t, ht, hlate⟩
          have := firstOn_none c z hz d after hnone t ht
          omega
      next hmatches => exact ih (d + 1) (hnext fun hd => hmatches hd.1) h

/-- `next_occurrence` finds the first occurrence after an instant. -/
theorem next_nextOccurrence (after i : Int) (h : nextOccurrence c z after = some i) :
    Timetable.Next (c.occurrences z) after i := by
  refine next_nextOccurrenceFrom c z hz after _ _ i (fun j _ hj => ?_) h
  exact hz.date_mono after j (le_of_lt hj)

/-- An expression that matches every date always finds its next occurrence. -/
theorem nextOccurrence_everyDate (hdaily : ∀ d, c.matchesDate d = true) (t : Nat)
    (ht : t ∈ c.civilTimes) (after : Int) : (nextOccurrence c z after).isSome = true := by
  by_contra hnone
  rw [Bool.not_eq_true, Option.isSome_eq_false_iff, Option.isNone_iff_eq_none] at hnone
  -- What the next date has is never behind the instant.
  have hlater : firstOn z (z.date after + 1) c.civilTimes after = none := by
    change nextOccurrenceFrom c z after (2926 + 1 + 1) (z.date after) = none at hnone
    rw [nextOccurrenceFrom, if_pos (hdaily _)] at hnone
    cases hfirst : firstOn z (z.date after) c.civilTimes after with
    | some i =>
        rw [hfirst] at hnone
        cases hnone
    | none =>
        rw [hfirst] at hnone
        dsimp only at hnone
        rw [nextOccurrenceFrom, if_pos (hdaily _)] at hnone
        cases hnext : firstOn z (z.date after + 1) c.civilTimes after with
        | some i =>
            rw [hnext] at hnone
            cases hnone
        | none => rfl
  have hpassed := firstOn_none c z hz _ after hlater t ht
  have hdate := hz.date_mono _ _ hpassed
  rw [hz.keeps _ t (c.civilTimes_lt t ht)] at hdate
  omega

/-- The times of a day that begins and ends at one offset occur between its midnights, each at
an instant of its own. -/
theorem whole_occurrences (d : Int)
    (hoffset : z.civilOffset (Zone.midnight d) = z.civilOffset (Zone.midnight (d + 1))) :
    (c.civilTimes.map (z.occurrenceAt d)).Nodup ∧ ∀ t ∈ c.civilTimes,
      z.instant (Zone.midnight d) ≤ z.occurrenceAt d t ∧
        z.occurrenceAt d t ≤ z.instant (Zone.midnight (d + 1)) := by
  have hwhole := hz.whole d hoffset
  have hlength : z.instant (Zone.midnight (d + 1)) =
      z.instant (Zone.midnight d) + microsecondsPerDay := by
    rw [Zone.instant, Zone.instant, ← hoffset, Zone.midnight, Zone.midnight]
    simp only [microsecondsPerDay]
    omega
  refine ⟨List.Nodup.map_on (fun t ht t' ht' heq => ?_)
    (c.civilTimes_sorted.imp fun h => Nat.ne_of_lt h), fun t ht => ?_⟩
  · rw [hwhole t (c.civilTimes_lt t ht), hwhole t' (c.civilTimes_lt t' ht')] at heq
    simp only [microsecondsPerMinute] at heq
    omega
  · have hlt := c.civilTimes_lt t ht
    rw [hwhole t hlt]
    simp only [minutesPerDay, microsecondsPerDay, microsecondsPerMinute] at hlt hlength ⊢
    omega

/-- The occurrences that one date adds. -/
theorem ncard_dayOccurrences (start finish d : Int) (hmatches : c.matchesDate d = true) :
    (dayOccurrences c z start finish d) =
      {i | i ∈ c.occurrences z ∩ Set.Icc start finish ∧ z.date i = d}.ncard := by
  have hset : {i | i ∈ c.occurrences z ∩ Set.Icc start finish ∧ z.date i = d} =
      ↑((c.civilTimes.map (z.occurrenceAt d)).toFinset.filter fun i => start ≤ i ∧ i ≤ finish) := by
    ext i
    simp only [Set.mem_ofPred_eq, Set.mem_inter_iff, Set.mem_Icc, Finset.coe_filter,
      List.mem_toFinset, List.mem_map]
    constructor
    · rintro ⟨⟨⟨d', hd', t, ht, rfl⟩, hrange⟩, hdate⟩
      rw [hz.keeps d' t (c.civilTimes_lt t ht)] at hdate
      exact ⟨⟨t, ht, by rw [hdate]⟩, hrange⟩
    · rintro ⟨⟨t, ht, rfl⟩, hrange⟩
      exact ⟨⟨⟨d, hmatches, t, ht, rfl⟩, hrange⟩, hz.keeps d t (c.civilTimes_lt t ht)⟩
  rw [hset, Set.ncard_coe_finset, dayOccurrences]
  split
  next hday =>
    obtain ⟨hstart, hfinish, hoffset⟩ := hday
    obtain ⟨hnodup, hbounds⟩ := whole_occurrences c z hz d hoffset
    rw [Finset.filter_true_of_mem, List.toFinset_card_of_nodup hnodup, List.length_map]
    intro i hi
    obtain ⟨t, ht, rfl⟩ := List.mem_map.mp (List.mem_toFinset.mp hi)
    obtain ⟨hfrom, hto⟩ := hbounds t ht
    omega
  next =>
    rw [← List.toFinset_card_of_nodup (List.Nodup.filter _ (List.nodup_dedup _))]
    congr 1
    ext i
    simp

theorem ncard_countDays (start finish : Int) (n : Nat) (d : Int) :
    countDays c z start finish n d =
      {i | i ∈ c.occurrences z ∩ Set.Icc start finish ∧ d ≤ z.date i ∧ z.date i < d + n}.ncard := by
  induction n generalizing d with
  | zero =>
      have hempty : {i | i ∈ c.occurrences z ∩ Set.Icc start finish ∧ d ≤ z.date i ∧
          z.date i < d + (0 : Nat)} = ∅ := by
        ext i
        simp only [Set.mem_ofPred_eq, Set.mem_empty_iff_false, iff_false]
        omega
      rw [hempty, Set.ncard_empty, countDays]
  | succ n ih =>
      have hunion : {i | i ∈ c.occurrences z ∩ Set.Icc start finish ∧ d ≤ z.date i ∧
          z.date i < d + (n + 1 : Nat)} =
            {i | i ∈ c.occurrences z ∩ Set.Icc start finish ∧ z.date i = d} ∪
              {i | i ∈ c.occurrences z ∩ Set.Icc start finish ∧ d + 1 ≤ z.date i ∧
                z.date i < d + 1 + n} := by
        ext i
        simp only [Set.mem_ofPred_eq, Set.mem_union]
        constructor
        · rintro ⟨hi, hfrom, hto⟩
          rcases eq_or_lt_of_le hfrom with heq | hlt
          · exact .inl ⟨hi, heq.symm⟩
          · exact .inr ⟨hi, by omega, by omega⟩
        · rintro (⟨hi, heq⟩ | ⟨hi, hfrom, hto⟩)
          · exact ⟨hi, by omega, by omega⟩
          · exact ⟨hi, by omega, by omega⟩
      have hfinite : ∀ p : Int → Prop,
          {i | i ∈ c.occurrences z ∩ Set.Icc start finish ∧ p i}.Finite := fun p =>
        (Timetable.finite_inter start finish).subset fun i hi => hi.1
      have hdisjoint : Disjoint {i | i ∈ c.occurrences z ∩ Set.Icc start finish ∧ z.date i = d}
          {i | i ∈ c.occurrences z ∩ Set.Icc start finish ∧ d + 1 ≤ z.date i ∧
            z.date i < d + 1 + n} := by
        rw [Set.disjoint_left]
        rintro i ⟨-, heq⟩ ⟨-, hfrom, -⟩
        omega
      rw [countDays, ih (d + 1), hunion, Set.ncard_union_eq hdisjoint (hfinite _) (hfinite _)]
      congr 1
      split
      next hmatches => exact ncard_dayOccurrences c z hz start finish d hmatches
      next hmatches =>
        symm
        rw [Set.ncard_eq_zero (hfinite _), Set.eq_empty_iff_forall_notMem]
        rintro i ⟨⟨⟨d', hd', t, ht, rfl⟩, -⟩, hdate⟩
        rw [hz.keeps d' t (c.civilTimes_lt t ht)] at hdate
        exact hmatches (hdate ▸ hd')

/-- `cron_occurrence_count` counts the occurrences between two instants. -/
theorem count_cronOccurrenceCount (start finish : Int) (h : start ≤ finish) :
    cronOccurrenceCount c z start finish = Timetable.count (c.occurrences z) start finish := by
  have hdates := hz.date_mono start finish h
  rw [cronOccurrenceCount, ncard_countDays c z hz, Timetable.count]
  congr 1
  ext i
  simp only [Set.mem_ofPred_eq, and_iff_left_iff_imp]
  rintro ⟨-, hstart, hfinish⟩
  have := hz.date_mono start i hstart
  have := hz.date_mono i finish hfinish
  omega

end Steady

end RcpGraph
