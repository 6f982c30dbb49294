import Mathlib.Data.List.Range
import RcpGraph.Lib.Steps
import RcpGraph.Lib.Text
import RcpGraph.Schedule.Cron

/-!
The text of a schedule: a daily `HH:MM` or a cron expression. `cronFields` parses the
five fields; every value it accepts lies within the bounds of its field.
-/

namespace RcpGraph

/-- Why an expression is refused. -/
inductive CronError where
  | notFiveFields
  | invalid (name : String)
  | outside (name : String) (low high : Nat)
  /-- `int` reads at most 4300 digits. -/
  | tooLong
  | notDaily
  deriving DecidableEq, Repr

/-- An entry of `_CRON_FIELDS`. -/
structure CronField where
  name : String
  low : Nat
  high : Nat
  names : List String

namespace CronField

def minute : CronField := ⟨"minute", 0, 59, []⟩

def hour : CronField := ⟨"hour", 0, 23, []⟩

def dayOfMonth : CronField := ⟨"day-of-month", 1, 31, []⟩

def month : CronField :=
  ⟨"month", 1, 12,
    ["JAN", "FEB", "MAR", "APR", "MAY", "JUN", "JUL", "AUG", "SEP", "OCT", "NOV", "DEC"]⟩

def dayOfWeek : CronField :=
  ⟨"day-of-week", 0, 7, ["SUN", "MON", "TUE", "WED", "THU", "FRI", "SAT"]⟩

end CronField

/-- `_CRON_ALIASES`. -/
def cronAliases : List (String × String) :=
  [("@hourly", "0 * * * *"), ("@daily", "0 0 * * *"), ("@midnight", "0 0 * * *"),
    ("@weekly", "0 0 * * 0"), ("@monthly", "0 0 1 * *"), ("@yearly", "0 0 1 1 *"),
    ("@annually", "0 0 1 1 *")]

/-- `str.split` without a separator. -/
def splitWords (current : List Char) : List Char → List (List Char)
  | [] => if current = [] then [] else [current.reverse]
  | c :: cs =>
      if Text.isSpace c then
        if current = [] then splitWords [] cs else current.reverse :: splitWords [] cs
      else splitWords (c :: current) cs

def isLetter (c : Char) : Bool := ('a' ≤ c && c ≤ 'z') || ('A' ≤ c && c ≤ 'Z')

/-- `_numbered`: each run of three letters that is a name becomes its number. -/
def numbered (field : CronField) : List Char → List Char
  | a :: b :: c :: rest =>
      if isLetter a && isLetter b && isLetter c then
        (match field.names.idxOf? (String.ofList [a.toUpper, b.toUpper, c.toUpper]) with
          | some i => Nat.toDigits 10 (i + if field.low = 1 then field.low else 0)
          | none => [a, b, c]) ++ numbered field rest
      else a :: numbered field (b :: c :: rest)
  | rest => rest

/-- `cron_parts`. -/
def cronParts (lower : String → String) (expression : String) :
    Except CronError (List Char × List Char × List Char × List Char × List Char) :=
  let text := (cronAliases.lookup (lower (Text.strip expression))).getD expression
  match splitWords [] text.toList with
  | [minutes, hours, daysOfMonth, months, daysOfWeek] =>
      .ok (numbered .minute minutes, numbered .hour hours, numbered .dayOfMonth daysOfMonth,
        numbered .month months, numbered .dayOfWeek daysOfWeek)
  | _ => .error .notFiveFields

/-- `[0-9]+`. -/
def isDigits (cs : List Char) : Bool := cs ≠ [] && cs.all fun c => '0' ≤ c && c ≤ '9'

/-- `int` of digits. -/
def readInt (cs : List Char) : Except CronError Nat :=
  if 4300 < cs.length then .error .tooLong
  else .ok (cs.foldl (fun n c => n * 10 + (c.toNat - '0'.toNat)) 0)

/-- What a part of a field stands before its stride with. -/
inductive CronBase where
  | star
  | single (start : List Char)
  | range (start finish : List Char)

def cronBase (cs : List Char) : Option CronBase :=
  if cs = ['*'] then some .star
  else
    match cs.splitOn '-' with
    | [start] => if isDigits start then some (.single start) else none
    | [start, finish] =>
        if isDigits start && isDigits finish then some (.range start finish) else none
    | _ => none

/-- The pattern of a part: its base and its stride. -/
def cronPart (cs : List Char) : Option (CronBase × Option (List Char)) :=
  match cs.splitOn '/' with
  | [base] => (cronBase base).map (·, none)
  | [base, stride] => if isDigits stride then (cronBase base).map (·, some stride) else none
  | _ => none

/-- `_cron_span`. -/
def cronSpan (base : CronBase) (stride : Option (List Char)) (low high : Nat) :
    Except CronError (Nat × Nat) :=
  match base, stride with
  | .star, _ => .ok (low, high)
  | .single start, some _ => do .ok (← readInt start, high)
  | .single start, none => do
      let finish ← readInt start
      .ok (finish, finish)
  | .range start finish, _ => do
      let finish ← readInt finish
      .ok (← readInt start, finish)

/-- The values of one part of a field. -/
def cronValues (field : CronField) (cs : List Char) : Except CronError (List Nat) :=
  match cronPart cs with
  | none => .error (.invalid field.name)
  | some (base, stride) => do
      let step ← (stride.map readInt).getD (.ok 1)
      let (start, finish) ← cronSpan base stride field.low field.high
      if step < 1 ∨ ¬(field.low ≤ start ∧ start ≤ finish ∧ finish ≤ field.high) then
        .error (.outside field.name field.low field.high)
      else .ok (List.range' start ((finish - start) / step + 1) step)

/-- `_cron_field`. -/
def cronField (field : CronField) (cs : List Char) : Except CronError (List Nat) := do
  .ok (← (cs.splitOn ',').mapM (cronValues field)).flatten

/-- `sorted` of a set of numbers below a bound. -/
def sortedBelow (bound : Nat) (values : List Nat) : List Nat :=
  (List.range bound).filter (· ∈ values)

/-- `cron_fields`, with whether both day fields are restricted. -/
def cronFields (lower : String → String) (expression : String) : Except CronError Cron := do
  let (minutes, hours, daysOfMonth, months, daysOfWeek) ← cronParts lower expression
  let minuteValues ← cronField .minute minutes
  let hourValues ← cronField .hour hours
  let dayValues ← cronField .dayOfMonth daysOfMonth
  let monthValues ← cronField .month months
  let weekdayValues ← cronField .dayOfWeek daysOfWeek
  .ok {
    minutes := sortedBelow 60 minuteValues
    hours := sortedBelow 24 hourValues
    daysOfMonth := dayValues.map Int.ofNat
    months := monthValues.map Int.ofNat
    daysOfWeek := weekdayValues.map fun value => (value % 7 : Nat)
    restricted := daysOfMonth.head? ≠ some '*' && daysOfWeek.head? ≠ some '*'
    minutes_sorted := List.pairwise_lt_range.filter _
    hours_sorted := List.pairwise_lt_range.filter _
    minutes_lt := fun _ hm => List.mem_range.mp (List.mem_of_mem_filter hm)
    hours_lt := fun _ hh => List.mem_range.mp (List.mem_of_mem_filter hh) }

/-- A `local_time`. -/
inductive LocalTime where
  | daily (minute : Nat) (valid : minute < minutesPerDay)
  | cron (expression : Cron)

/-- `HH:MM` on a clock of 24 hours. -/
def dailyMinute (cs : List Char) : Option Nat :=
  match cs with
  | [h, h', ':', m, m'] =>
      if isDigits [h, h', m, m'] then
        let hour := (h.toNat - '0'.toNat) * 10 + (h'.toNat - '0'.toNat)
        let minute := (m.toNat - '0'.toNat) * 10 + (m'.toNat - '0'.toNat)
        if hour < 24 ∧ minute < 60 then some (hour * 60 + minute) else none
      else none
  | _ => none

/-- A text with a colon is a daily time, any other a cron expression. -/
def localTimeOf (lower : String → String) (text : String) : Except CronError LocalTime :=
  if ':' ∈ text.toList then
    match dailyMinute text.toList with
    | some minute => if h : minute < minutesPerDay then .ok (.daily minute h) else .error .notDaily
    | none => .error .notDaily
  else do .ok (.cron (← cronFields lower text))

theorem mem_cronValues (field : CronField) (cs : List Char) (values : List Nat)
    (h : cronValues field cs = .ok values) (v : Nat) (hv : v ∈ values) :
    field.low ≤ v ∧ v ≤ field.high := by
  unfold cronValues at h
  split at h
  · cases h
  next base stride hpart =>
    cases hstep : (stride.map readInt).getD (.ok 1) with
    | error e => rw [hstep] at h; cases h
    | ok step =>
        cases hspan : cronSpan base stride field.low field.high with
        | error e => rw [hstep, hspan] at h; cases h
        | ok span =>
            rw [hstep, hspan] at h
            simp only [bind, Except.bind] at h
            split at h
            · cases h
            next hbounds =>
              cases h
              simp only [not_or, not_lt, not_not] at hbounds
              obtain ⟨i, hi, rfl⟩ := List.mem_range'.mp hv
              have hle : step * i ≤ span.2 - span.1 :=
                calc step * i ≤ step * ((span.2 - span.1) / step) :=
                      Nat.mul_le_mul_left _ (by omega)
                  _ ≤ span.2 - span.1 := Nat.mul_div_le _ _
              omega

/-- A parsed field stays within its bounds, so sorting it below them loses nothing. -/
theorem mem_cronField (field : CronField) (cs : List Char) (values : List Nat)
    (h : cronField field cs = .ok values) (v : Nat) (hv : v ∈ values) :
    field.low ≤ v ∧ v ≤ field.high := by
  unfold cronField at h
  cases hparts : (cs.splitOn ',').mapM (cronValues field) with
  | error e => rw [hparts] at h; cases h
  | ok parts =>
      rw [hparts] at h
      cases h
      obtain ⟨part, hpart, hmem⟩ := List.mem_flatten.mp hv
      obtain ⟨cs', -, hvalues⟩ := Steps.mem_of_mapM hparts part hpart
      exact mem_cronValues field cs' part hvalues v hmem

theorem mem_sortedBelow (bound : Nat) (values : List Nat) (h : ∀ v ∈ values, v < bound) (v : Nat) :
    v ∈ sortedBelow bound values ↔ v ∈ values := by
  rw [sortedBelow, List.mem_filter, List.mem_range, decide_eq_true_eq]
  exact ⟨And.right, fun hv => ⟨h v hv, hv⟩⟩

/-- An accepted expression fires at the minutes and hours that its fields list. -/
theorem mem_cronFields (lower : String → String) (expression : String) (c : Cron)
    (h : cronFields lower expression = .ok c) :
    ∃ parts minutes hours, cronParts lower expression = .ok parts ∧
      cronField .minute parts.1 = .ok minutes ∧ cronField .hour parts.2.1 = .ok hours ∧
      (∀ v, v ∈ c.minutes ↔ v ∈ minutes) ∧ ∀ v, v ∈ c.hours ↔ v ∈ hours := by
  unfold cronFields at h
  cases hparts : cronParts lower expression with
  | error e => rw [hparts] at h; cases h
  | ok parts =>
      cases hminutes : cronField .minute parts.1 with
      | error e => rw [hparts] at h; simp only [bind, Except.bind, hminutes] at h; cases h
      | ok minutes =>
          cases hhours : cronField .hour parts.2.1 with
          | error e =>
              rw [hparts] at h
              simp only [bind, Except.bind, hminutes, hhours] at h
              cases h
          | ok hours =>
              rw [hparts] at h
              simp only [bind, Except.bind, hminutes, hhours] at h
              split at h
              · cases h
              · split at h
                · cases h
                · split at h
                  · cases h
                  · cases h
                    refine ⟨parts, minutes, hours, rfl, hminutes, hhours, ?_, ?_⟩
                    · apply mem_sortedBelow
                      intro v hv
                      have := (mem_cronField _ _ _ hminutes v hv).2
                      simp only [CronField.minute] at this
                      omega
                    · apply mem_sortedBelow
                      intro v hv
                      have := (mem_cronField _ _ _ hhours v hv).2
                      simp only [CronField.hour] at this
                      omega

example : (cronFields id "*/30 9-17 * * MON-FRI").toOption.map (fun c => (c.minutes, c.daysOfWeek)) =
    some ([0, 30], [1, 2, 3, 4, 5]) := by
  decide +kernel

end RcpGraph
