import RcpGraph.Schedule.Runs
import RcpGraph.Schedule.Search

/-!
The poll of the schedules. When an advance raises, the due schedules that cannot find
their next fire are disabled and the others advance: `_advance_agent_schedules`.
-/

namespace RcpGraph

section Poll

variable (zones : String → Zone)

/-- A due schedule whose `after_fire` raises. -/
def unschedulable (now : Int) (row : AgentSchedule) : Bool :=
  row.nextFireAt.any fun due => decide (due ≤ now) && (afterFire zones row due now).isNone

/-- `_advance_agent_schedules`. -/
def pollSchedules (now : Int) (table : ScheduleTable) : ScheduleTable :=
  match advanceSchedules zones now table with
  | some advanced => advanced
  | none =>
      let kept := disableSchedules (unschedulable zones now) "unschedulable" table
      (advanceSchedules zones now kept).getD kept

theorem afterFire_eq_none_iff (row : AgentSchedule) (due now : Int) :
    afterFire zones row due now = none ↔
      ∃ c, row.timing = .cron c ∧ nextOccurrence c (zones row.timezone) now = none := by
  cases htiming : row.timing with
  | every minutes positive =>
      have hsome : ∃ fire, repeatFire zones (.every minutes positive) row.timezone now
          (phase (.every minutes positive) due) = some fire := by
        simp only [repeatFire, phase]
        split <;> exact ⟨_, rfl⟩
      obtain ⟨fire, hfire⟩ := hsome
      simp [afterFire, htiming, hfire]
  | cron c =>
      simp only [afterFire, htiming, repeatFire, phase, Option.map_eq_none_iff, Timing.cron.injEq]
      constructor
      · intro h
        exact ⟨c, rfl, h⟩
      · intro h
        obtain ⟨c', hc, hnone⟩ := h
        rw [hc]
        exact hnone
  | once civil => simp [afterFire, htiming]

theorem unschedulable_iff (now : Int) (row : AgentSchedule) :
    unschedulable zones now row = true ↔ ∃ due c, row.nextFireAt = some due ∧ due ≤ now ∧
      row.timing = .cron c ∧ nextOccurrence c (zones row.timezone) now = none := by
  rw [unschedulable, Option.any_eq_true]
  constructor
  · rintro ⟨due, hdue, h⟩
    rw [Bool.and_eq_true, decide_eq_true_eq, Option.isNone_iff_eq_none] at h
    obtain ⟨c, hc, hnone⟩ := (afterFire_eq_none_iff zones row due now).mp h.2
    exact ⟨due, c, hdue, h.1, hc, hnone⟩
  · rintro ⟨due, c, hdue, hle, hc, hnone⟩
    refine ⟨due, hdue, ?_⟩
    rw [Bool.and_eq_true, decide_eq_true_eq, Option.isNone_iff_eq_none]
    exact ⟨hle, (afterFire_eq_none_iff zones row due now).mpr ⟨c, hc, hnone⟩⟩

/-- An advance disables no schedule. -/
theorem advanceRow_disabled (now : Int) (row row' : AgentSchedule)
    (h : advanceRow zones now row = some row') (hrow : row.state ≠ .disabled) :
    row'.state ≠ .disabled := by
  unfold advanceRow at h
  split at h
  next due hstate hdue =>
    split at h
    · obtain ⟨⟨following, left, fired⟩, -, h⟩ := Option.bind_eq_some_iff.mp h
      simp only at h
      -- The waiting note matters for the count only.
      split at h
      all_goals
        split at h
        · cases h
          simp only
          split <;> exact ScheduleState.noConfusion
        · cases h
    · cases h
      exact hrow
  next =>
    cases h
    exact hrow

theorem advanceRow_unschedulable (now : Int) (row : AgentSchedule) (hactive : row.state = .active)
    (h : unschedulable zones now row = true) : advanceRow zones now row = none := by
  rw [unschedulable, Option.any_eq_true] at h
  obtain ⟨due, hdue, h⟩ := h
  rw [Bool.and_eq_true, decide_eq_true_eq, Option.isNone_iff_eq_none] at h
  rw [advanceRow, hactive, hdue]
  simp only [h.1, if_true, h.2, Option.bind_none]

theorem advanceSchedules_some (now : Int) (table advanced : ScheduleTable)
    (h : advanceSchedules zones now table = some advanced) (id : String) (row : AgentSchedule)
    (hrow : table.get? id = some row) :
    ∃ row', advanceRow zones now row = some row' ∧ advanced.get? id = some row' := by
  unfold advanceSchedules at h
  split at h
  next hall =>
    cases h
    have hsome := List.all_eq_true.mp hall row ((Dict.mem_values _ _).mpr ⟨id, hrow⟩)
    obtain ⟨row', hrow'⟩ := Option.isSome_iff_exists.mp hsome
    refine ⟨row', hrow', ?_⟩
    rw [Dict.get?_map, hrow, Option.map_some, hrow', Option.getD_some]
  next => cases h

/-- A poll disables an active schedule exactly when it cannot find the fire after a due one. -/
theorem pollSchedules_disabled (now : Int) (table : ScheduleTable) (id : String)
    (row : AgentSchedule) (hrow : table.get? id = some row) (hactive : row.state = .active) :
    (∃ row', (pollSchedules zones now table).get? id = some row' ∧ row'.state = .disabled) ↔
      unschedulable zones now row = true := by
  have hstill : row.state ≠ .disabled := by rw [hactive]; exact ScheduleState.noConfusion
  unfold pollSchedules
  cases hfirst : advanceSchedules zones now table with
  | some advanced =>
      obtain ⟨row', hadvanced, hget⟩ := advanceSchedules_some zones now table advanced hfirst id row hrow
      constructor
      · rintro ⟨row'', hget', hdisabled⟩
        rw [hget, Option.some.injEq] at hget'
        subst hget'
        exact absurd hdisabled (advanceRow_disabled zones now row row' hadvanced hstill)
      · intro h
        rw [advanceRow_unschedulable zones now row hactive h] at hadvanced
        cases hadvanced
  | none =>
      simp only
      have hkept : ∃ seen,
          (disableSchedules (unschedulable zones now) "unschedulable" table).get? id = some seen ∧
            (seen.state = .disabled ↔ unschedulable zones now row = true) := by
        rw [disableSchedules, Dict.get?_map, hrow, Option.map_some]
        refine ⟨_, rfl, ?_⟩
        by_cases h : unschedulable zones now row = true
        · rw [if_pos ⟨hactive, h⟩]
          exact ⟨fun _ => h, fun _ => rfl⟩
        · rw [if_neg (fun hboth => h hboth.2)]
          exact ⟨fun hdisabled => absurd hdisabled hstill, fun h' => absurd h' h⟩
      obtain ⟨seen, hget, hseen⟩ := hkept
      rw [← hseen]
      cases hsecond : advanceSchedules zones now
          (disableSchedules (unschedulable zones now) "unschedulable" table) with
      | none =>
          rw [Option.getD_none, hget]
          constructor
          · intro hdisabled
            obtain ⟨row', heq, h⟩ := hdisabled
            rw [Option.some.inj heq]
            exact h
          · intro h
            exact ⟨seen, rfl, h⟩
      | some advanced =>
          obtain ⟨row', hadvanced, hget'⟩ := advanceSchedules_some zones now _ advanced hsecond id seen hget
          rw [Option.getD_some, hget']
          constructor
          · rintro ⟨row'', heq, h⟩
            by_contra hstate
            exact advanceRow_disabled zones now seen row' hadvanced hstate (Option.some.inj heq ▸ h)
          · intro h
            -- A disabled schedule does not advance.
            rw [advanceRow, h] at hadvanced
            cases hadvanced
            exact ⟨_, rfl, h⟩

/-- `next_occurrence` finds the earliest occurrence of the civil times past the clock, which
are all that are to come unless a gap has cut into the clock's minute. It raises, and a poll
disables the schedule, exactly when there is none on the dates it searches. -/
theorem nextOccurrence_least (lower : String → String) (text : String) (l : LocalTime)
    (htext : localTimeOf lower text = .ok l) (z : Zone) (hz : z.Orderly) (after : Int) :
    (∀ i, l.next z after = some i ↔
      (∃ d t, l.Ahead z after d t ∧ d < z.date after + agentScheduleSearchDays ∧
        z.occurrenceAt d t = i) ∧ ∀ d t, l.Ahead z after d t → i ≤ z.occurrenceAt d t) ∧
    (l.next z after = none ↔
      ∀ d t, l.Ahead z after d t → z.date after + agentScheduleSearchDays ≤ d) ∧
    (z.occurrenceAt (z.date after) (z.minuteOfDay after) ≤ after →
      ∀ d t, l.Occurs d t → (l.Ahead z after d t ↔ after < z.occurrenceAt d t)) ∧
    ∀ (c : Cron) (table : ScheduleTable) (id : String) (row : AgentSchedule), l = .cron c →
      row.timing = .cron c → zones row.timezone = z → table.get? id = some row →
      row.state = .active →
      ((∃ row', (pollSchedules zones after table).get? id = some row' ∧
          row'.state = .disabled) ↔
        (∃ due, row.nextFireAt = some due ∧ due ≤ after) ∧
          ∀ d t, l.Ahead z after d t → z.date after + agentScheduleSearchDays ≤ d) := by
  refine ⟨l.next_eq_some_iff z after hz, l.next_eq_none_iff z after, l.ahead_iff z after hz, ?_⟩
  rintro c table id row rfl htiming rfl hrow hactive
  rw [pollSchedules_disabled zones after table id row hrow hactive, unschedulable_iff,
    ← LocalTime.next_eq_none_iff, LocalTime.next_cron]
  constructor
  · rintro ⟨due, c', hdue, hle, hc, hnone⟩
    rw [htiming, Timing.cron.injEq] at hc
    exact ⟨⟨due, hdue, hle⟩, hc ▸ hnone⟩
  · rintro ⟨⟨due, hdue, hle⟩, hnone⟩
    exact ⟨due, c, hdue, hle, htiming, hnone⟩

end Poll

section Instances

def everyDay : List Int := (List.range' 1 31).map Int.ofNat

theorem atZero_sorted : List.Pairwise (· < ·) [0] := by decide

theorem atZero_lt_minutes : ∀ m ∈ [0], m < 60 := by decide

theorem atZero_lt_hours : ∀ h ∈ [0], h < 24 := by decide

/-- `44 0 * * *`. -/
def pastMidnight : Cron where
  minutes := [44]
  hours := [0]
  daysOfMonth := everyDay
  months := (List.range' 1 12).map Int.ofNat
  daysOfWeek := (List.range 8).map fun value => (value % 7 : Nat)
  restricted := false
  minutes_sorted := by decide
  hours_sorted := atZero_sorted
  minutes_lt := by decide
  hours_lt := atZero_lt_hours

/-- `0 0 1 2 */7`: the first of February where it is a Sunday. -/
def februarySunday : Cron where
  minutes := [0]
  hours := [0]
  daysOfMonth := [1]
  months := [2]
  daysOfWeek := [0, 0]
  restricted := false
  minutes_sorted := atZero_sorted
  hours_sorted := atZero_sorted
  minutes_lt := atZero_lt_minutes
  hours_lt := atZero_lt_hours

/-- Monrovia's clock moved forward from -00:44:30 to UTC at midnight of 1972-01-07. -/
def monroviaChange : Int := 736 * microsecondsPerDay + 2670 * microsecondsPerSecond

def monrovia : ZoneChanges := .once monroviaChange (-2670 * microsecondsPerSecond) 0

def sundayRequest : ScheduleRequest where
  scheduleId := "s1"
  threadId := "t1"
  operationId := "o1"
  key := "k1"
  timing := .cron februarySunday
  timezone := "UTC"
  note := ""
  start := none
  finish := none
  count := none

/-- The first of February is a Sunday in 2043 and then in 2054. -/
theorem februarySunday_silent :
    nextOccurrence februarySunday (Zone.fixed 0) (26694 * microsecondsPerDay) = none := by
  decide +kernel

/-- In Monrovia the search skips the minute that was cut, which occurs 30 seconds after it. A
schedule for the Sundays is accepted, fires once and is disabled. -/
theorem nextOccurrence_skips :
    (localTimeOf id "44 0 * * *" = .ok (.cron pastMidnight) ∧ monrovia.zone.Orderly ∧
      (LocalTime.cron pastMidnight).next monrovia.zone monroviaChange =
        some (737 * microsecondsPerDay + 2640 * microsecondsPerSecond) ∧
      (LocalTime.cron pastMidnight).Occurs 736 44 ∧
      monrovia.zone.occurrenceAt 736 44 = monroviaChange + 30 * microsecondsPerSecond) ∧
    localTimeOf id "0 0 1 2 */7" = .ok (.cron februarySunday) ∧
    validateSchedule (fun _ => Zone.fixed 0) sundayRequest (26693 * microsecondsPerDay) none =
      some (26694 * microsecondsPerDay) ∧
    ∃ row', (pollSchedules (fun _ => Zone.fixed 0) (26694 * microsecondsPerDay)
        (Dict.empty.insert "s1" (newRow sundayRequest (26694 * microsecondsPerDay)))).get? "s1" =
          some row' ∧ row'.state = .disabled := by
  refine ⟨⟨rfl, monrovia.orderly, ?_, ⟨by decide +kernel, by decide⟩, by decide +kernel⟩, rfl,
    by decide +kernel, ?_⟩
  · rw [LocalTime.next_cron]
    decide +kernel
  · rw [pollSchedules_disabled _ _ _ _ _ (Dict.get?_insert_self ..) rfl, unschedulable_iff]
    exact ⟨_, februarySunday, rfl, le_rfl, rfl, februarySunday_silent⟩

/-- A daily time in a zone without changes. -/
theorem nextOccurrence_daily :
    (∀ i, (LocalTime.daily 150 (by decide)).next (Zone.fixed 0) 0 = some i ↔
      (∃ d t, (LocalTime.daily 150 (by decide)).Ahead (Zone.fixed 0) 0 d t ∧
        d < (Zone.fixed 0).date 0 + agentScheduleSearchDays ∧
        (Zone.fixed 0).occurrenceAt d t = i) ∧
      ∀ d t, (LocalTime.daily 150 (by decide)).Ahead (Zone.fixed 0) 0 d t →
        i ≤ (Zone.fixed 0).occurrenceAt d t) ∧
    ∃ row', (pollSchedules (fun _ => Zone.fixed 0) (26694 * microsecondsPerDay)
        (Dict.empty.insert "s1" (newRow sundayRequest (26694 * microsecondsPerDay)))).get? "s1" =
          some row' ∧ row'.state = .disabled := by
  constructor
  · exact (nextOccurrence_least (fun _ => Zone.fixed 0) id "02:30" _ rfl (Zone.fixed 0)
      (orderly_fixed 0) 0).1
  · have hleast := (nextOccurrence_least (fun _ => Zone.fixed 0) id "0 0 1 2 */7" _ rfl
      (Zone.fixed 0) (orderly_fixed 0) (26694 * microsecondsPerDay)).2
    apply (hleast.2.2 februarySunday _ "s1" _ rfl rfl rfl (Dict.get?_insert_self ..) rfl).mpr
    refine ⟨⟨_, rfl, le_rfl⟩, ?_⟩
    apply hleast.1.mp
    rw [LocalTime.next_cron]
    exact februarySunday_silent

end Instances

end RcpGraph
