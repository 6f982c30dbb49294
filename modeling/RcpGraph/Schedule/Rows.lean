import RcpGraph.Lib.Dict
import RcpGraph.Schedule.Cron

/-!
Rows of `agent_schedules` and the transactions on them. Every transaction runs
alone on the table; one that raises leaves it as it was.
-/

namespace RcpGraph

/-- A repeat is a cron expression or an interval; anything else fires once. -/
inductive Timing where
  | cron (expression : Cron)
  | every (minutes : Nat) (positive : 1 ≤ minutes)
  | once (civil : Int)

inductive ScheduleState where
  | active
  | paused
  | cancelled
  | disabled
  | done
  deriving DecidableEq, Repr

/-- Local times are minutes of the zone's clock since the epoch. -/
structure AgentSchedule where
  scheduleId : String
  threadId : String
  createdOperationId : String
  idempotencyKey : String
  timing : Timing
  timezone : String
  note : String
  state : ScheduleState
  disabledReason : Option String
  nextFireAt : Option Int
  pendingSince : Option Int
  lastFiredAt : Option Int
  deferredReason : Option String
  startLocal : Option Int
  untilLocal : Option Int
  firesLeft : Option Int
  pendingFires : Option Int

/-- The length of an interval. -/
def stepOf (minutes : Nat) : Int := minutes * microsecondsPerMinute

section Fires

variable (zones : String → Zone)

/-- `local_instant`. -/
def localInstant (civil : Int) (timezone : String) : Int :=
  (zones timezone).occurrenceAt (civil / 1440) (civil % 1440).toNat

/-- `repeat_fire`; a cron expression without an occurrence raises. -/
def repeatFire (timing : Timing) (timezone : String) (after : Int) (anchor : Option Int) :
    Option Int :=
  match timing with
  | .every minutes _ =>
      match anchor with
      | none => some (after + stepOf minutes)
      | some anchor =>
          if anchor > after then some anchor
          else some (anchor + stepOf minutes * ((after - anchor) / stepOf minutes + 1))
  | .cron expression =>
      nextOccurrence expression (zones timezone)
        (match anchor with
          | some anchor => if anchor > after then anchor - microsecondsPerSecond else after
          | none => after)
  | .once _ => none

/-- `--until` as an instant. -/
def AgentSchedule.until (schedule : AgentSchedule) : Option Int :=
  schedule.untilLocal.map fun civil => localInstant zones civil schedule.timezone

/-- `within_limits`. -/
def withinLimits (schedule : AgentSchedule) (fire : Int) (firesLeft : Option Int) : Bool :=
  firesLeft.all (fun left => decide (0 < left)) &&
    (schedule.until zones).all fun last => decide (fire ≤ last)

/-- `resume_fire`; the outer option is empty when it raises. -/
def resumeFire (schedule : AgentSchedule) (now : Int) : Option (Option Int) :=
  match schedule.timing with
  | .once civil =>
      some (if localInstant zones civil schedule.timezone > now then
        some (localInstant zones civil schedule.timezone) else none)
  | timing =>
      let start := schedule.startLocal.map fun civil => localInstant zones civil schedule.timezone
      let anchor :=
        match timing, schedule.nextFireAt with
        | .every _ _, some next => some next
        | _, _ => start
      (repeatFire zones timing schedule.timezone now anchor).map fun fire =>
        if withinLimits zones schedule fire schedule.firesLeft then some fire else none

/-- How many fires are due from the next one up to an instant. -/
def dueFires (schedule : AgentSchedule) (due finish : Int) : Int :=
  match schedule.timing with
  | .every minutes _ => (finish - due) / stepOf minutes + 1
  | .cron expression => cronOccurrenceCount expression (zones schedule.timezone) due finish
  | .once _ => 1

/-- Where an interval keeps its phase. -/
def phase (timing : Timing) (due : Int) : Option Int :=
  match timing with
  | .every _ _ => some due
  | _ => none

/-- `after_fire` of a schedule whose next fire is due: the following fire, the fires left
and the fires counted. -/
def afterFire (schedule : AgentSchedule) (due now : Int) :
    Option (Option Int × Option Int × Int) :=
  match schedule.timing with
  | .once _ => some (none, schedule.firesLeft, 1)
  | timing =>
      (repeatFire zones timing schedule.timezone now (phase timing due)).map fun following =>
        let finish := ((schedule.until zones).map (min now)).getD now
        let fired := dueFires zones schedule due finish
        let counted := (schedule.firesLeft.map (min fired)).getD fired
        let left := schedule.firesLeft.map (· - counted)
        (if withinLimits zones schedule following left then some following else none, left, counted)

/-- One row of `advance_agent_schedules`. The table's checks refuse a count below one. -/
def advanceRow (now : Int) (schedule : AgentSchedule) : Option AgentSchedule :=
  match schedule.state, schedule.nextFireAt with
  | .active, some due =>
      if due ≤ now then
        (afterFire zones schedule due now).bind fun (following, left, fired) =>
          let pending :=
            match schedule.pendingSince with
            | none => some fired
            | some _ => schedule.pendingFires.map (· + fired)
          if pending.all (fun n => decide (1 ≤ n)) && left.all (fun n => decide (0 ≤ n)) then
            some { schedule with
              pendingSince := some (schedule.pendingSince.getD due)
              pendingFires := pending
              nextFireAt := following
              firesLeft := left
              state := if following.isSome then .active else .done }
          else none
      else some schedule
  | _, _ => some schedule

end Fires

/-- The table, by schedule id. -/
abbrev ScheduleTable := Dict String AgentSchedule

/-- `AGENT_SCHEDULES_MAX_ACTIVE`. -/
def agentSchedulesMaxActive : Nat := 20

/-- `AGENT_SCHEDULE_MAX_COUNT`. -/
def agentScheduleMaxCount : Nat := 10000

section Transactions

variable (zones : String → Zone)

/-- Rows whose note waits for a wake. -/
def pendingNotes (table : ScheduleTable) : List AgentSchedule :=
  table.values.filter fun row =>
    row.pendingSince.isSome && (row.state = .active || row.state = .done)

/-- `advance_agent_schedules` without its answer, `pendingNotes`. -/
def advanceSchedules (now : Int) (table : ScheduleTable) : Option ScheduleTable :=
  if table.values.all fun row => (advanceRow zones now row).isSome then
    some (table.map fun _ row => (advanceRow zones now row).getD row)
  else none

/-- The active schedules of a thread. -/
def activeCount (table : ScheduleTable) (threadId : String) : Nat :=
  (table.values.filter fun row => row.threadId = threadId && row.state = .active).length

/-- The row of a schedule on a thread. -/
def threadSchedule (table : ScheduleTable) (threadId scheduleId : String) : Option AgentSchedule :=
  (table.get? scheduleId).filter fun row => row.threadId = threadId

/-- `cancel_agent_schedule`. -/
def cancelSchedule (threadId scheduleId : String) (table : ScheduleTable) : Option ScheduleTable :=
  (threadSchedule table threadId scheduleId).map fun row =>
    table.insert scheduleId
      { row with state := .cancelled, pendingSince := none, nextFireAt := none }

/-- `pause_agent_schedule`. -/
def pauseSchedule (threadId scheduleId : String) (table : ScheduleTable) : Option ScheduleTable :=
  (threadSchedule table threadId scheduleId).bind fun row =>
    if row.state = .active ∨ row.state = .paused then
      some (table.insert scheduleId
        { row with state := .paused, pendingSince := none, deferredReason := none })
    else none

/-- `reactivate_agent_schedule`. -/
def reactivateSchedule (threadId scheduleId : String) (nextFireAt : Option Int)
    (was : ScheduleState) (table : ScheduleTable) : Option ScheduleTable :=
  if nextFireAt.isSome ∧ activeCount table threadId ≥ agentSchedulesMaxActive then none
  else
    (threadSchedule table threadId scheduleId).bind fun row =>
      if row.state = was then
        some (table.insert scheduleId
          { row with
            state := if nextFireAt.isSome then .active else .done
            disabledReason := none
            nextFireAt := nextFireAt
            pendingSince := none
            deferredReason := none })
      else none

/-- Active schedules that are switched off: their thread closed, its member lost access, or
they could not be scheduled. -/
def disableSchedules (chosen : AgentSchedule → Bool) (reason : String) (table : ScheduleTable) :
    ScheduleTable :=
  table.map fun _ row =>
    if row.state = .active ∧ chosen row = true then
      { row with
        state := .disabled, disabledReason := some reason, pendingSince := none, nextFireAt := none }
    else row

/-- `defer_agent_schedules`. -/
def deferSchedules (schedules : List AgentSchedule) (reason : String) (table : ScheduleTable) :
    ScheduleTable :=
  table.map fun id row =>
    if id ∈ schedules.map (·.scheduleId) ∧ row.pendingSince.isSome then
      { row with deferredReason := some reason }
    else row

/-- `_notes_unchanged`. -/
def notesUnchanged (table : ScheduleTable) (schedules : List AgentSchedule) : Bool :=
  schedules.all fun seen =>
    (table.get? seen.scheduleId).any fun row =>
      decide (some row.threadId = schedules.head?.map (·.threadId)) &&
        decide ((row.pendingSince, row.nextFireAt, row.state) =
          (seen.pendingSince, seen.nextFireAt, seen.state))

/-- `claim_agent_schedule_wake` on an open thread; `held` says that the thread is busy. -/
def claimWake (schedules : List AgentSchedule) (held : Bool) (createdAt : Int)
    (table : ScheduleTable) : Option ScheduleTable :=
  if schedules = [] ∨ held = true ∨ notesUnchanged table schedules = false then none
  else
    some (table.map fun id row =>
      if id ∈ schedules.map (·.scheduleId) then
        { row with pendingSince := none, deferredReason := none, lastFiredAt := some createdAt }
      else row)

/-- What a schedule is added with. -/
structure ScheduleRequest where
  scheduleId : String
  threadId : String
  operationId : String
  key : String
  timing : Timing
  timezone : String
  note : String
  start : Option Int
  finish : Option Int
  count : Option Nat

/-- Whether consecutive fires of a cron expression keep their distance. -/
def keepsGap (expression : Cron) (zone : Zone) (gap : Int) : Nat → Int → Bool
  | 0, _ => true
  | n + 1, fire =>
      (nextOccurrence expression zone fire).any fun following =>
        decide (gap ≤ following - fire) && keepsGap expression zone gap n following

/-- `validate_schedule`: the first fire, or nothing when the request is refused. -/
def validateSchedule (request : ScheduleRequest) (now : Int) (gapMinutes : Option Nat) :
    Option Int :=
  match request.timing with
  | .once civil =>
      if request.start.isNone ∧ request.finish.isNone ∧ request.count.isNone ∧
          localInstant zones civil request.timezone > now then
        some (localInstant zones civil request.timezone)
      else none
  | timing =>
      let anchor := request.start.map fun civil => localInstant zones civil request.timezone
      (repeatFire zones timing request.timezone now anchor).filter fun first =>
        (match timing, gapMinutes with
          | .every minutes _, some gap => decide (gap ≤ minutes)
          | .cron expression, some gap =>
              let daily := expression.civilTimes.length
              decide (daily ≤ minutesPerDay / gap) &&
                keepsGap expression (zones request.timezone) (stepOf gap) (2 * daily + 1) first
          | _, none => true
          | .once _, _ => true) &&
        request.finish.all fun civil => decide (first ≤ localInstant zones civil request.timezone)

/-- The row that `add_agent_schedule` writes. -/
def newRow (request : ScheduleRequest) (first : Int) : AgentSchedule where
  scheduleId := request.scheduleId
  threadId := request.threadId
  createdOperationId := request.operationId
  idempotencyKey := request.key
  timing := request.timing
  timezone := request.timezone
  note := request.note
  state := .active
  disabledReason := none
  nextFireAt := some first
  pendingSince := none
  lastFiredAt := none
  deferredReason := none
  startLocal := request.start
  untilLocal := request.finish
  firesLeft := request.count.map Int.ofNat
  pendingFires := none

/-- `add_agent_schedule` of a new key, after the checks of its command. -/
def addSchedule (request : ScheduleRequest) (now : Int) (gapMinutes : Option Nat)
    (table : ScheduleTable) : Option ScheduleTable :=
  if request.count.all (fun n => decide (1 ≤ n ∧ n ≤ agentScheduleMaxCount)) &&
      decide (request.scheduleId ∉ table) &&
      table.values.all (fun row =>
        decide ((row.createdOperationId, row.idempotencyKey) ≠ (request.operationId, request.key))) &&
      decide (activeCount table request.threadId < agentSchedulesMaxActive) then
    (validateSchedule zones request now gapMinutes).map fun first =>
      table.insert request.scheduleId (newRow request first)
  else none

end Transactions

end RcpGraph
