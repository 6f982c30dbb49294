import RcpGraph.Schedule.Expression
import RcpGraph.Schedule.Orderly
import RcpGraph.Schedule.Rows

/-!
The search of `next_occurrence`. It walks the civil times past the clock in their
order and stops at the first whose occurrence is still to come, within
`AGENT_SCHEDULE_SEARCH_DAYS` dates; in an orderly zone that is the earliest one.
-/

namespace RcpGraph

deriving instance DecidableEq for Cron

namespace LocalTime

def matchesDate : LocalTime → Int → Bool
  | .daily _ _, _ => true
  | .cron expression, d => expression.matchesDate d

def times : LocalTime → List Nat
  | .daily minute _ => [minute]
  | .cron expression => expression.civilTimes

theorem times_lt (l : LocalTime) (t : Nat) (ht : t ∈ l.times) : t < minutesPerDay := by
  cases l with
  | daily minute valid => rwa [List.mem_singleton.mp ht]
  | cron expression => exact expression.civilTimes_lt t ht

theorem times_sorted (l : LocalTime) : l.times.Pairwise (· < ·) := by
  cases l with
  | daily minute valid => exact List.pairwise_singleton ..
  | cron expression => exact expression.civilTimes_sorted

/-- The search of `next_occurrence` from a date on. -/
def searchFrom (l : LocalTime) (z : Zone) (after : Int) : Nat → Int → Option Int
  | 0, _ => none
  | n + 1, d =>
      if l.matchesDate d then
        match firstOn z d l.times after with
        | some candidate => some candidate
        | none => l.searchFrom z after n (d + 1)
      else l.searchFrom z after n (d + 1)

/-- `next_occurrence`. -/
def next (l : LocalTime) (z : Zone) (after : Int) : Option Int :=
  l.searchFrom z after agentScheduleSearchDays (z.date after)

theorem searchFrom_cron (c : Cron) (z : Zone) (after : Int) (n : Nat) (d : Int) :
    (LocalTime.cron c).searchFrom z after n d = nextOccurrenceFrom c z after n d := by
  induction n generalizing d with
  | zero => rfl
  | succ n ih =>
      rw [searchFrom, nextOccurrenceFrom, ih (d + 1)]
      rfl

theorem next_cron (c : Cron) (z : Zone) (after : Int) :
    (LocalTime.cron c).next z after = nextOccurrence c z after :=
  searchFrom_cron c z after agentScheduleSearchDays (z.date after)

/-- A matching date and time of the calendar. -/
structure Occurs (l : LocalTime) (d : Int) (t : Nat) : Prop where
  date : l.matchesDate d = true
  time : t ∈ l.times

theorem Occurs.lt {l : LocalTime} {d : Int} {t : Nat} (h : l.Occurs d t) : t < minutesPerDay :=
  l.times_lt t h.time

/-- A matching civil time past the clock, with its occurrence still to come. -/
structure Ahead (l : LocalTime) (z : Zone) (after d : Int) (t : Nat) : Prop where
  occurs : l.Occurs d t
  past : z.clock after < Zone.civilTime d t
  later : after < z.occurrenceAt d t

end LocalTime

section Walk

variable (z : Zone)

/-- The search skips the civil times up to the clock's minute. -/
theorem skipped_iff (after d : Int) (t : Nat) (hd : z.date after ≤ d) (ht : t < minutesPerDay) :
    (d = z.date after ∧ t ≤ z.minuteOfDay after) ↔ Zone.civilTime d t ≤ z.clock after := by
  rw [Zone.date] at hd
  rw [Zone.minuteOfDay, Zone.date, Zone.civilTime, Zone.midnight]
  simp only [minutesPerDay, microsecondsPerDay, microsecondsPerMinute] at hd ht ⊢
  omega

/-- A civil time past the clock is on its date or a later one. -/
theorem date_le (after d : Int) (t : Nat) (ht : t < minutesPerDay)
    (h : z.clock after < Zone.civilTime d t) : z.date after ≤ d := by
  rw [Zone.civilTime, Zone.midnight] at h
  rw [Zone.date]
  simp only [minutesPerDay, microsecondsPerDay, microsecondsPerMinute] at ht h ⊢
  omega

theorem civilTime_le_civilTime (d d' : Int) (t t' : Nat) (ht : t < minutesPerDay)
    (h : d < d' ∨ d = d' ∧ t ≤ t') : Zone.civilTime d t ≤ Zone.civilTime d' t' := by
  simp only [Zone.civilTime, Zone.midnight, minutesPerDay, microsecondsPerDay,
    microsecondsPerMinute] at ht ⊢
  omega

theorem firstOn_empty (d after : Int) (times : List Nat) (hlt : ∀ t ∈ times, t < minutesPerDay)
    (hd : z.date after ≤ d) (h : firstOn z d times after = none) (t : Nat) (ht : t ∈ times)
    (hpast : z.clock after < Zone.civilTime d t) : z.occurrenceAt d t ≤ after := by
  have hnone := List.findSome?_eq_none_iff.mp h t ht
  split at hnone
  next hskip =>
    have := (skipped_iff z after d t hd (hlt t ht)).mp hskip
    omega
  next =>
    split at hnone
    · cases hnone
    next hlate => omega

theorem firstOn_least (d after i : Int) (times : List Nat) (hlt : ∀ t ∈ times, t < minutesPerDay)
    (hsorted : times.Pairwise (· < ·)) (hd : z.date after ≤ d)
    (h : firstOn z d times after = some i) :
    ∃ t ∈ times, z.clock after < Zone.civilTime d t ∧ after < z.occurrenceAt d t ∧
      z.occurrenceAt d t = i ∧
      ∀ t' ∈ times, z.clock after < Zone.civilTime d t' → after < z.occurrenceAt d t' → t ≤ t' := by
  obtain ⟨early, t, late, hsplit, hfound, hearly⟩ := List.findSome?_eq_some_iff.mp h
  have hmem : t ∈ times := by simp [hsplit]
  split at hfound
  · cases hfound
  next hskip =>
    split at hfound
    next hlate =>
      have hpast : z.clock after < Zone.civilTime d t := by
        by_contra hle
        exact hskip ((skipped_iff z after d t hd (hlt t hmem)).mpr (not_lt.mp hle))
      refine ⟨t, hmem, hpast, hlate, Option.some.inj hfound, ?_⟩
      intro t' ht' hpast' hlate'
      rw [hsplit, List.mem_append, List.mem_cons] at ht'
      rw [hsplit] at hsorted
      rcases ht' with ht' | rfl | ht'
      · -- An earlier time was skipped or had occurred.
        exfalso
        have hnone := hearly t' ht'
        have hmem' : t' ∈ times := by simp [hsplit, ht']
        split at hnone
        next hskip' =>
          have := (skipped_iff z after d t' hd (hlt t' hmem')).mp hskip'
          omega
        next => cases hnone
      · exact le_rfl
      · have := (List.pairwise_cons.mp (List.pairwise_append.mp hsorted).2.1).1 t' ht'
        omega
    next => cases hfound

end Walk

namespace LocalTime

variable (l : LocalTime) (z : Zone) (after : Int)

theorem searchFrom_none (n : Nat) (d : Int) (hd : z.date after ≤ d)
    (h : l.searchFrom z after n d = none) (d' : Int) (t : Nat) (hahead : l.Ahead z after d' t)
    (hfrom : d ≤ d') : d + n ≤ d' := by
  induction n generalizing d with
  | zero => simpa using hfrom
  | succ n ih =>
      rw [searchFrom] at h
      have hnext : l.searchFrom z after n (d + 1) = none ∧ d ≠ d' := by
        split at h
        next hmatches =>
          cases hfirst : firstOn z d l.times after with
          | some i => rw [hfirst] at h; cases h
          | none =>
              rw [hfirst] at h
              refine ⟨h, ?_⟩
              rintro rfl
              have := firstOn_empty z d after l.times l.times_lt hd hfirst t hahead.occurs.time
                hahead.past
              have := hahead.later
              omega
        next hmatches =>
          refine ⟨h, ?_⟩
          rintro rfl
          exact hmatches hahead.occurs.date
      have := ih (d + 1) (by omega) hnext.1 (by omega)
      omega

theorem searchFrom_some (n : Nat) (d i : Int) (hd : z.date after ≤ d)
    (h : l.searchFrom z after n d = some i) :
    ∃ d' t, l.Ahead z after d' t ∧ d' < d + n ∧ z.occurrenceAt d' t = i ∧
      ∀ d'' t', l.Ahead z after d'' t' → d ≤ d'' → d' < d'' ∨ d' = d'' ∧ t ≤ t' := by
  induction n generalizing d with
  | zero => cases h
  | succ n ih =>
      rw [searchFrom] at h
      have hnext : (∃ t, l.Ahead z after d t ∧ z.occurrenceAt d t = i ∧
            ∀ t', l.Ahead z after d t' → t ≤ t') ∨
          l.searchFrom z after n (d + 1) = some i ∧ ∀ t, ¬l.Ahead z after d t := by
        split at h
        next hmatches =>
          cases hfirst : firstOn z d l.times after with
          | some candidate =>
              rw [hfirst] at h
              cases h
              obtain ⟨t, ht, hpast, hlater, hi, hleast⟩ :=
                firstOn_least z d after i l.times l.times_lt l.times_sorted hd hfirst
              refine .inl ⟨t, ⟨⟨hmatches, ht⟩, hpast, hlater⟩, hi, ?_⟩
              intro t' hahead
              exact hleast t' hahead.occurs.time hahead.past hahead.later
          | none =>
              rw [hfirst] at h
              refine .inr ⟨h, ?_⟩
              intro t hahead
              have := firstOn_empty z d after l.times l.times_lt hd hfirst t hahead.occurs.time
                hahead.past
              have := hahead.later
              omega
        next hmatches =>
          refine .inr ⟨h, ?_⟩
          intro t hahead
          exact hmatches hahead.occurs.date
      cases hnext with
      | inl hfound =>
          obtain ⟨t, hahead, hi, hleast⟩ := hfound
          refine ⟨d, t, hahead, by omega, hi, ?_⟩
          intro d'' t' hahead' hfrom
          rcases eq_or_lt_of_le hfrom with rfl | hlt
          · exact .inr ⟨rfl, hleast t' hahead'⟩
          · exact .inl hlt
      | inr hrest =>
          obtain ⟨d', t, hahead, hwithin, hi, hleast⟩ := ih (d + 1) (by omega) hrest.1
          refine ⟨d', t, hahead, by omega, hi, ?_⟩
          intro d'' t' hahead' hfrom
          rcases eq_or_lt_of_le hfrom with rfl | hlt
          · exact absurd hahead' (hrest.2 t')
          · exact hleast d'' t' hahead' (by omega)

theorem Ahead.from {l : LocalTime} {z : Zone} {after d : Int} {t : Nat}
    (h : l.Ahead z after d t) : z.date after ≤ d :=
  date_le z after d t h.occurs.lt h.past

/-- `next_occurrence` raises exactly without an occurrence on the dates it searches. -/
theorem next_eq_none_iff :
    l.next z after = none ↔ ∀ d t, l.Ahead z after d t → z.date after + agentScheduleSearchDays ≤ d := by
  constructor
  · intro h d t hahead
    exact l.searchFrom_none z after _ _ le_rfl h d t hahead hahead.from
  · intro h
    cases hnext : l.next z after with
    | none => rfl
    | some i =>
        obtain ⟨d, t, hahead, hwithin, -, -⟩ := l.searchFrom_some z after _ _ i le_rfl hnext
        have := h d t hahead
        omega

/-- It finds the first civil time ahead. -/
theorem next_some (i : Int) (h : l.next z after = some i) :
    ∃ d t, l.Ahead z after d t ∧ d < z.date after + agentScheduleSearchDays ∧
      z.occurrenceAt d t = i ∧
      ∀ d' t', l.Ahead z after d' t' → Zone.civilTime d t ≤ Zone.civilTime d' t' := by
  obtain ⟨d, t, hahead, hwithin, hi, hleast⟩ := l.searchFrom_some z after _ _ i le_rfl h
  refine ⟨d, t, hahead, hwithin, hi, ?_⟩
  intro d' t' hahead'
  exact civilTime_le_civilTime d d' t t' hahead.occurs.lt (hleast d' t' hahead' hahead'.from)

variable (hz : z.Orderly)

include hz

/-- In an orderly zone it is the earliest occurrence ahead. -/
theorem next_eq_some_iff (i : Int) :
    l.next z after = some i ↔
      (∃ d t, l.Ahead z after d t ∧ d < z.date after + agentScheduleSearchDays ∧
        z.occurrenceAt d t = i) ∧ ∀ d t, l.Ahead z after d t → i ≤ z.occurrenceAt d t := by
  have hfound : ∀ j, l.next z after = some j →
      (∃ d t, l.Ahead z after d t ∧ d < z.date after + agentScheduleSearchDays ∧
        z.occurrenceAt d t = j) ∧ ∀ d t, l.Ahead z after d t → j ≤ z.occurrenceAt d t := by
    intro j h
    obtain ⟨d, t, hahead, hwithin, hj, hleast⟩ := l.next_some z after j h
    refine ⟨⟨d, t, hahead, hwithin, hj⟩, ?_⟩
    intro d' t' hahead'
    rw [← hj]
    exact z.occurrenceAt_mono hz d d' t t' (hleast d' t' hahead')
  constructor
  · exact hfound i
  · rintro ⟨⟨d, t, hahead, hwithin, hi⟩, hleast⟩
    cases hnext : l.next z after with
    | none =>
        have := (l.next_eq_none_iff z after).mp hnext d t hahead
        omega
    | some j =>
        obtain ⟨⟨d', t', hahead', -, hj⟩, hleast'⟩ := hfound j hnext
        have := hleast d' t' hahead'
        have := hleast' d t hahead
        rw [show i = j by omega]

/-- Where the minute on the clock has occurred, every occurrence to come is ahead. -/
theorem ahead_iff (hminute : z.occurrenceAt (z.date after) (z.minuteOfDay after) ≤ after) (d : Int)
    (t : Nat) (hoccurs : l.Occurs d t) : l.Ahead z after d t ↔ after < z.occurrenceAt d t := by
  refine ⟨Ahead.later, fun hlater => ⟨hoccurs, ?_, hlater⟩⟩
  by_contra hpast
  have hmono : z.occurrenceAt d t ≤ z.occurrenceAt (z.date after) (z.minuteOfDay after) := by
    apply z.occurrenceAt_mono hz
    rw [Zone.civilTime, Zone.midnight] at hpast ⊢
    rw [Zone.civilTime, Zone.midnight, Zone.minuteOfDay, Zone.date]
    simp only [microsecondsPerDay, microsecondsPerMinute] at hpast ⊢
    omega
  omega

/-- A whole minute on the clock has occurred. -/
theorem minute_occurred (hminute : Zone.OnMinute (z.clock after)) :
    z.occurrenceAt (z.date after) (z.minuteOfDay after) ≤ after := by
  apply z.occurrenceAt_le hz after _ _ hminute
  rw [Zone.civilTime, Zone.midnight, Zone.minuteOfDay, Zone.date]
  simp only [microsecondsPerDay, microsecondsPerMinute]
  omega

end LocalTime

end RcpGraph
