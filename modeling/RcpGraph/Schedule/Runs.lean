import RcpGraph.Schedule.Ledger
import RcpGraph.Schedule.Orderly

/-!
Runs of the schedule transactions. A resume reads its row and writes the next fire
in two transactions, and a wake is claimed with the notes an earlier advance
answered. The fires behind each row are carried along.
-/

namespace RcpGraph

/-- One schedule in a claimed wake: the number of fires the message gives, and the fires that
waited. -/
structure WakeNote where
  number : Option Int
  fires : List Int

/-- A resume or an enable that has read its row and computed the next fire. -/
structure ResumeRead where
  threadId : String
  scheduleId : String
  was : ScheduleState
  fire : Option Int

structure ScheduleWorld where
  table : ScheduleTable
  /-- What the advances answered. -/
  answers : List (List AgentSchedule)
  resumes : List ResumeRead
  /-- The counts the schedules were added with. -/
  given : String → Option Nat
  /-- The fires folded into a note since the last claim, pause or resume. -/
  waiting : String → List Int
  wakes : String → List WakeNote

inductive ScheduleOp where
  | add (request : ScheduleRequest) (now : Int) (gapMinutes : Option Nat)
  | advance (now : Int)
  | claim (answer : Nat) (threadId : String) (held : Bool) (createdAt : Int)
  | cancel (threadId scheduleId : String)
  | pause (threadId scheduleId : String)
  /-- `resume_schedule` and `enable_schedule` up to their write. -/
  | readResume (threadId scheduleId : String) (enable : Bool) (now : Int)
  | writeResume (index : Nat)
  | disable (chosen : AgentSchedule → Bool) (reason : String)
  | defer (answer : Nat) (threadId : String) (reason : String)

namespace ScheduleWorld

variable (zones : String → Zone)

def start : ScheduleWorld where
  table := Dict.empty
  answers := []
  resumes := []
  given := fun _ => none
  waiting := fun _ => []
  wakes := fun _ => []

/-- The fires of a schedule that wakes have reported. -/
def reported (w : ScheduleWorld) (id : String) : List Int := (w.wakes id).flatMap (·.fires)

/-- The notes of one thread among those an advance answered. -/
def notesOf (w : ScheduleWorld) (answer : Nat) (threadId : String) : List AgentSchedule :=
  ((w.answers[answer]?).getD []).filter fun row => row.threadId = threadId

/-- The waiting fires of one schedule are gone. -/
def dropped (w : ScheduleWorld) (scheduleId : String) (id : String) : List Int :=
  if id = scheduleId then [] else w.waiting id

/-- One transaction; none when it raises or is refused. -/
noncomputable def step (w : ScheduleWorld) : ScheduleOp → Option ScheduleWorld
  | .add request now gapMinutes =>
      (addSchedule zones request now gapMinutes w.table).map fun table =>
        { w with
          table := table
          given := fun id => if id = request.scheduleId then request.count else w.given id }
  | .advance now =>
      (advanceSchedules zones now w.table).map fun table =>
        { w with
          table := table
          answers := w.answers ++ [pendingNotes table]
          waiting := fun id =>
            w.waiting id ++ ((w.table.get? id).map (foldedFires zones · now)).getD [] }
  | .claim answer threadId held createdAt =>
      let schedules := w.notesOf answer threadId
      (claimWake schedules held createdAt w.table).map fun table =>
        { w with
          table := table
          waiting := fun id => if id ∈ schedules.map (·.scheduleId) then [] else w.waiting id
          wakes := fun id => w.wakes id ++
            (schedules.filter (·.scheduleId = id)).map fun seen =>
              ⟨seen.pendingFires, w.waiting id⟩ }
  | .cancel threadId scheduleId =>
      (cancelSchedule threadId scheduleId w.table).map fun table =>
        { w with table := table, waiting := w.dropped scheduleId }
  | .pause threadId scheduleId =>
      (pauseSchedule threadId scheduleId w.table).map fun table =>
        { w with table := table, waiting := w.dropped scheduleId }
  | .readResume threadId scheduleId enable now =>
      (threadSchedule w.table threadId scheduleId).bind fun row =>
        (resumeFire zones row now).bind fun fire =>
          -- Without a fire left an enable is refused; a resume ends the schedule.
          if enable = true ∧ fire = none then none
          else some { w with
            resumes := w.resumes ++
              [⟨threadId, scheduleId, if enable then .disabled else .paused, fire⟩] }
  | .writeResume index =>
      (w.resumes[index]?).bind fun read =>
        (reactivateSchedule read.threadId read.scheduleId read.fire read.was w.table).map fun table =>
          { w with
            table := table
            resumes := w.resumes.eraseIdx index
            waiting := w.dropped read.scheduleId }
  | .disable chosen reason =>
      some { w with
        table := disableSchedules chosen reason w.table
        waiting := fun id =>
          if (w.table.get? id).any (fun row => row.state = .active && chosen row) then []
          else w.waiting id }
  | .defer answer threadId reason =>
      some { w with table := deferSchedules (w.notesOf answer threadId) reason w.table }

/-- The worlds that runs reach, each step meeting a condition. -/
inductive Reached (meets : ScheduleWorld → ScheduleOp → Prop) : ScheduleWorld → Prop where
  | start : Reached meets start
  | step {w w' : ScheduleWorld} (op : ScheduleOp) : Reached meets w → meets w op →
      w.step zones op = some w' → Reached meets w'

/-- Schedules are added to steady zones with expressions that always occur again, and a resume
writes a fire after those already reported. -/
def Orderly (w : ScheduleWorld) : ScheduleOp → Prop
  | .add request _ _ => request.timing.Regular zones request.timezone
  | .writeResume index => ∀ read ∈ w.resumes[index]?, ∀ fire ∈ read.fire,
      ∀ past ∈ w.reported read.scheduleId, past < fire
  | _ => True

/-- Polling a schedule more often changes nothing; every fire is reported in one wake at most,
wakes report as many fires as have waited, and never more than were asked for. -/
def Conserved (w : ScheduleWorld) : Prop :=
  (∀ id row, w.table.get? id = some row → row.Repeats →
    ∀ (polls : List Int) (now : Int), (polls ++ [now]).Pairwise (· < ·) →
      ∃ row', (polls ++ [now]).foldlM (fun row t => advanceRow zones t row) row = some row' ∧
        advanceRow zones now row = some row') ∧
  ∀ id, (w.reported id).Pairwise (· < ·) ∧
    (∀ note ∈ w.wakes id, note.number = some (note.fires.length : Int)) ∧
    ∀ n ∈ w.given id, (w.reported id).length ≤ n

/-- What every orderly run keeps. -/
structure Kept (w : ScheduleWorld) : Prop where
  rows : ∀ id row, w.table.get? id = some row → row.scheduleId = id ∧
    Accounted zones (w.given id) (w.reported id) (w.waiting id) row
  fresh : ∀ id, w.table.get? id = none →
    w.waiting id = [] ∧ w.wakes id = [] ∧ w.given id = none
  answers : ∀ answer ∈ w.answers, (answer.map (·.scheduleId)).Nodup ∧
    ∀ seen ∈ answer, ∃ row, w.table.get? seen.scheduleId = some row ∧ Remembers zones seen row
  resumes : ∀ read ∈ w.resumes, (read.was = .paused ∨ read.was = .disabled) ∧
    ∃ row, w.table.get? read.scheduleId = some row ∧
      ∀ fire ∈ read.fire, fire ∈ row.timetable zones fire ∧ ∀ last ∈ row.until zones, fire ≤ last
  numbers : ∀ id, ∀ note ∈ w.wakes id, note.number = some (note.fires.length : Int)

theorem kept_start : Kept zones start where
  rows := by
    intro id row h
    cases h
  fresh := fun _ _ => ⟨rfl, rfl, rfl⟩
  answers := by
    intro answer h
    cases h
  resumes := by
    intro read h
    cases h
  numbers := by
    intro id note h
    cases h

/-- The notes of a table are those of different schedules. -/
theorem nodup_pendingNotes (table : ScheduleTable)
    (hid : ∀ id row, table.get? id = some row → row.scheduleId = id) :
    ((pendingNotes table).map (·.scheduleId)).Nodup := by
  have hkeys : table.values.map (·.scheduleId) = table.keys := by
    rw [Dict.values, Dict.keys, List.map_map]
    apply List.map_congr_left
    rintro ⟨id, row⟩ hmem
    exact hid id row ((table.get?_eq_some_iff id row).mpr hmem)
  have hnodup : (table.values.map (·.scheduleId)).Nodup := by
    rw [hkeys]
    exact table.nodup
  exact hnodup.sublist (List.Sublist.map _ List.filter_sublist)

variable {zones}

/-- A transaction that changes rows one by one keeps what it keeps of each row. -/
theorem Kept.rowwise {w w' : ScheduleWorld} (h : Kept zones w)
    (f : String → AgentSchedule → AgentSchedule)
    (htable : ∀ id, w'.table.get? id = (w.table.get? id).map (f id))
    (hrow : ∀ id row, w.table.get? id = some row → Follows row (f id row) ∧
      Accounted zones (w'.given id) (w'.reported id) (w'.waiting id) (f id row))
    (hfresh : ∀ id, w.table.get? id = none →
      w'.waiting id = [] ∧ w'.wakes id = [] ∧ w'.given id = none)
    (hanswers : ∀ answer ∈ w'.answers, answer ∈ w.answers ∨ answer = pendingNotes w'.table)
    (hresumes : ∀ read ∈ w'.resumes, read ∈ w.resumes)
    (hnumbers : ∀ id, ∀ note ∈ w'.wakes id,
      note ∈ w.wakes id ∨ note.number = some (note.fires.length : Int)) : Kept zones w' := by
  have hrows : ∀ id row, w'.table.get? id = some row → row.scheduleId = id ∧
      Accounted zones (w'.given id) (w'.reported id) (w'.waiting id) row := by
    intro id row' hrow'
    rw [htable, Option.map_eq_some_iff] at hrow'
    obtain ⟨row, hget, rfl⟩ := hrow'
    obtain ⟨hf, ha⟩ := hrow id row hget
    exact ⟨hf.scheduleId.trans (h.rows id row hget).1, ha⟩
  refine ⟨hrows, ?_, ?_, ?_, ?_⟩
  case refine_1 =>
    intro id hnone
    rw [htable, Option.map_eq_none_iff] at hnone
    exact hfresh id hnone
  case refine_2 =>
    intro answer hanswer
    rcases hanswers answer hanswer with hold | rfl
    · obtain ⟨hnodup, hseen⟩ := h.answers answer hold
      refine ⟨hnodup, fun seen hmem => ?_⟩
      obtain ⟨row, hget, hremembers⟩ := hseen seen hmem
      refine ⟨f seen.scheduleId row, ?_, hremembers.follows zones (hrow _ row hget).1⟩
      rw [htable, hget]
      rfl
    · refine ⟨nodup_pendingNotes w'.table fun id row hget => (hrows id row hget).1, ?_⟩
      intro seen hmem
      obtain ⟨hvalue, hpending⟩ := List.mem_filter.mp hmem
      obtain ⟨id, hget⟩ := (w'.table.mem_values seen).mp hvalue
      obtain ⟨hid, ha⟩ := hrows id seen hget
      rw [Bool.and_eq_true, Bool.or_eq_true, decide_eq_true_eq, decide_eq_true_eq] at hpending
      exact ⟨seen, hid.symm ▸ hget, ha.remembers zones hpending.1 hpending.2⟩
  case refine_3 =>
    intro read hread
    obtain ⟨hwas, row, hget, hfire⟩ := h.resumes read (hresumes read hread)
    obtain ⟨hf, -⟩ := hrow _ row hget
    refine ⟨hwas, f read.scheduleId row, ?_, fun fire hmem => ?_⟩
    · rw [htable, hget]
      rfl
    · rw [hf.timetable zones, hf.until_eq zones]
      exact hfire fire hmem
  case refine_4 =>
    intro id note hnote
    rcases hnumbers id note hnote with hold | hnumber
    · exact h.numbers id note hold
    · exact hnumber

theorem Kept.accounted {w : ScheduleWorld} (h : Kept zones w) {id : String} {row : AgentSchedule}
    (hget : w.table.get? id = some row) :
    Accounted zones (w.given id) (w.reported id) (w.waiting id) row := (h.rows id row hget).2

/-- A transaction on one schedule that empties its note. -/
theorem Kept.single {w : ScheduleWorld} (h : Kept zones w) (scheduleId : String)
    (row row' : AgentSchedule) (hget : w.table.get? scheduleId = some row) (hf : Follows row row')
    (ha : Accounted zones (w.given scheduleId) (w.reported scheduleId) [] row')
    (resumes : List ResumeRead) (hresumes : ∀ read ∈ resumes, read ∈ w.resumes) :
    Kept zones { w with
      table := w.table.insert scheduleId row'
      resumes := resumes
      waiting := w.dropped scheduleId } := by
  refine h.rowwise (fun id row => if id = scheduleId then row' else row) (fun id => ?_)
    (fun id old hold => ?_) (fun id hnone => ?_) (fun _ hanswer => .inl hanswer) hresumes
    (fun _ _ hnote => .inl hnote)
  · rw [Dict.get?_insert]
    split
    next heq =>
      subst heq
      rw [hget]
      rfl
    next => simp
  · by_cases heq : id = scheduleId
    · subst heq
      rw [hget, Option.some.injEq] at hold
      subst hold
      simp only [if_true, dropped]
      exact ⟨hf, ha⟩
    · simp only [if_neg heq, dropped]
      exact ⟨.refl old, h.accounted hold⟩
  · obtain ⟨hwaiting, hwakes, hgiven⟩ := h.fresh id hnone
    refine ⟨?_, hwakes, hgiven⟩
    simp only [dropped, hwaiting, ite_self]

theorem threadSchedule_get {table : ScheduleTable} {threadId scheduleId : String}
    {row : AgentSchedule} (hrow : threadSchedule table threadId scheduleId = some row) :
    table.get? scheduleId = some row := (Option.filter_eq_some_iff.mp hrow).1

/-- The first fire of a valid request is one of its schedule, within its bounds. -/
theorem validateSchedule_legal (request : ScheduleRequest) (now first : Int)
    (gapMinutes : Option Nat) (hr : request.timing.Regular zones request.timezone)
    (h : validateSchedule zones request now gapMinutes = some first) :
    first ∈ (newRow request first).timetable zones first ∧
      (∀ last ∈ (newRow request first).until zones, first ≤ last) ∧
      ∀ civil, request.timing = .once civil → request.finish = none ∧ request.count = none := by
  unfold validateSchedule at h
  split at h
  next civil htiming =>
    rw [Option.ite_none_right_eq_some, Option.some.injEq] at h
    obtain ⟨⟨-, hfinish, hcount, -⟩, -⟩ := h
    rw [Option.isNone_iff_eq_none] at hfinish hcount
    refine ⟨?_, fun last hlast => ?_, fun _ _ => ⟨hfinish, hcount⟩⟩
    · simp [AgentSchedule.timetable, newRow, htiming]
    · simp [AgentSchedule.until, newRow, hfinish] at hlast
  next hrepeats =>
    obtain ⟨hfirst, hchecks⟩ := Option.filter_eq_some_iff.mp h
    rw [Bool.and_eq_true, Option.all_eq_true] at hchecks
    refine ⟨repeatFire_mem zones (newRow request first) hr now _ first hfirst, ?_,
      fun civil htiming => absurd htiming (hrepeats civil)⟩
    intro last hlast
    obtain ⟨civil, hcivil, rfl⟩ := Option.map_eq_some_iff.mp hlast
    exact of_decide_eq_true (hchecks.2 civil hcivil)

theorem accounted_new (request : ScheduleRequest) (now first : Int) (gapMinutes : Option Nat)
    (hr : request.timing.Regular zones request.timezone)
    (hcount : request.count.all (fun n => decide (1 ≤ n ∧ n ≤ agentScheduleMaxCount)) = true)
    (hfirst : validateSchedule zones request now gapMinutes = some first) :
    Accounted zones request.count [] [] (newRow request first) := by
  obtain ⟨hmem, huntil, honce⟩ := validateSchedule_legal request now first gapMinutes hr hfirst
  rw [Option.all_eq_true] at hcount
  refine ⟨hr, ⟨fun _ => ⟨first, rfl, hmem, huntil⟩, fun _ _ left hleft => ?_, fun hsome => ?_⟩,
    fun civil htiming => ?_, rfl, fun hne => absurd rfl hne, List.Pairwise.nil,
    fun _ _ _ fire hfire => ?_, fun _ _ _ since hsince => ?_, fun n hn => ?_⟩
  · obtain ⟨n, hn, rfl⟩ := Option.map_eq_some_iff.mp hleft
    have := of_decide_eq_true (hcount n hn)
    simp only [Int.ofNat_eq_natCast]
    omega
  · cases hsome
  · obtain ⟨hfinish, hnone⟩ := honce civil htiming
    exact ⟨hfinish, by simp [newRow, hnone]⟩
  · cases hfire
  · cases hsince
  · refine ⟨n, ?_, by omega, by simp⟩
    rw [Option.mem_def] at hn
    simp [newRow, hn]

section Ops

variable {w w' : ScheduleWorld} (h : Kept zones w)

include h

theorem kept_cancel (threadId scheduleId : String)
    (hstep : w.step zones (.cancel threadId scheduleId) = some w') : Kept zones w' := by
  obtain ⟨table, htable, rfl⟩ := Option.map_eq_some_iff.mp hstep
  obtain ⟨row, hrow, rfl⟩ := Option.map_eq_some_iff.mp htable
  have hget := threadSchedule_get hrow
  have hf : Follows row { row with state := .cancelled, pendingSince := none, nextFireAt := none } :=
    ⟨rfl, rfl, rfl, rfl, fun _ => rfl, fun _ => .inl rfl⟩
  refine h.single scheduleId row _ hget hf ?_ w.resumes fun _ hread => hread
  have ha := h.accounted hget
  refine ha.settle zones hf rfl rfl (fun _ hcancelled => absurd rfl hcancelled) _
    (List.pairwise_append.mp ha.increasing).1 (by omega) fun hactive => ?_
  cases hactive

theorem kept_pause (threadId scheduleId : String)
    (hstep : w.step zones (.pause threadId scheduleId) = some w') : Kept zones w' := by
  obtain ⟨table, htable, rfl⟩ := Option.map_eq_some_iff.mp hstep
  obtain ⟨row, hrow, hpause⟩ := Option.bind_eq_some_iff.mp htable
  rw [Option.ite_none_right_eq_some, Option.some.injEq] at hpause
  obtain ⟨hstate, rfl⟩ := hpause
  have hget := threadSchedule_get hrow
  have hlive : row.state ≠ .done ∧ row.state ≠ .cancelled := by
    rcases hstate with hstate | hstate
    · rw [hstate]
      decide
    · rw [hstate]
      decide
  have hf : Follows row { row with state := .paused, pendingSince := none, deferredReason := none } :=
    ⟨rfl, rfl, rfl, rfl, fun hc => absurd hc hlive.2, fun hd => absurd hd hlive.1⟩
  refine h.single scheduleId row _ hget hf ?_ w.resumes fun _ hread => hread
  have ha := h.accounted hget
  refine ha.settle zones hf rfl rfl (fun _ _ => hlive) _ (List.pairwise_append.mp ha.increasing).1
    (by omega) fun hactive => ?_
  cases hactive

/-- A resume writes a fire that its schedule can have. -/
theorem kept_writeResume (index : Nat) (horderly : w.Orderly zones (.writeResume index))
    (hstep : w.step zones (.writeResume index) = some w') : Kept zones w' := by
  obtain ⟨read, hread, hstep⟩ := Option.bind_eq_some_iff.mp hstep
  obtain ⟨table, htable, rfl⟩ := Option.map_eq_some_iff.mp hstep
  unfold reactivateSchedule at htable
  rw [Option.ite_none_left_eq_some] at htable
  obtain ⟨row, hrow, hwrite⟩ := Option.bind_eq_some_iff.mp htable.2
  rw [Option.ite_none_right_eq_some, Option.some.injEq] at hwrite
  obtain ⟨hwas, rfl⟩ := hwrite
  have hget := threadSchedule_get hrow
  obtain ⟨hlive, row', hget', hfire⟩ := h.resumes read (List.mem_of_getElem? hread)
  rw [hget, Option.some.injEq] at hget'
  subst hget'
  have hlive : row.state ≠ .done ∧ row.state ≠ .cancelled := by
    rw [hwas]
    rcases hlive with hlive | hlive
    · rw [hlive]
      decide
    · rw [hlive]
      decide
  have ha := h.accounted hget
  have hf : Follows row { row with
      state := if read.fire.isSome then .active else .done
      disabledReason := none
      nextFireAt := read.fire
      pendingSince := none
      deferredReason := none } :=
    ⟨rfl, rfl, rfl, rfl, fun hc => absurd hc hlive.2, fun hd => absurd hd hlive.1⟩
  refine h.single read.scheduleId row _ hget hf ?_ _ fun _ hmem => List.mem_of_mem_eraseIdx hmem
  refine ha.settle zones hf rfl rfl (fun _ _ => hlive) _ (List.pairwise_append.mp ha.increasing).1
    (by omega) fun hactive => ?_
  cases hnext : read.fire with
  | none => simp [hnext] at hactive
  | some fire =>
      obtain ⟨hmem, hlast⟩ := hfire fire hnext
      exact ⟨fire, rfl, hmem, hlast, fun past hpast =>
        horderly read hread fire hnext past hpast⟩

theorem kept_disable (chosen : AgentSchedule → Bool) (reason : String)
    (hstep : w.step zones (.disable chosen reason) = some w') : Kept zones w' := by
  rw [step, Option.some.injEq] at hstep
  subst hstep
  refine h.rowwise _ (fun id => Dict.get?_map _ _ id) (fun id row hget => ?_) (fun id hnone => ?_)
    (fun _ hanswer => .inl hanswer) (fun _ hread => hread) (fun _ _ hnote => .inl hnote)
  · have ha := h.accounted hget
    simp only [hget, Option.any_some, Bool.and_eq_true, decide_eq_true_eq]
    split
    next hchosen =>
      have hf : Follows row { row with
          state := .disabled
          disabledReason := some reason
          pendingSince := none
          nextFireAt := none } := by
        refine ⟨rfl, rfl, rfl, rfl, fun hc => ?_, fun hd => ?_⟩
        · rw [hchosen.1] at hc
          cases hc
        · rw [hchosen.1] at hd
          cases hd
      refine ⟨hf, ha.settle zones hf rfl rfl (fun _ _ => ?_) (w.reported id)
        (List.pairwise_append.mp ha.increasing).1 (by omega) fun hactive => ?_⟩
      · rw [hchosen.1]
        decide
      · cases hactive
    next => exact ⟨.refl row, ha⟩
  · obtain ⟨hwaiting, hwakes, hgiven⟩ := h.fresh id hnone
    refine ⟨?_, hwakes, hgiven⟩
    simp [hnone, hwaiting]

theorem kept_defer (answer : Nat) (threadId reason : String)
    (hstep : w.step zones (.defer answer threadId reason) = some w') : Kept zones w' := by
  rw [step, Option.some.injEq] at hstep
  subst hstep
  refine h.rowwise _ (fun id => Dict.get?_map _ _ id) (fun id row hget => ?_)
    (fun id hnone => h.fresh id hnone) (fun _ hanswer => .inl hanswer) (fun _ hread => hread)
    (fun _ _ hnote => .inl hnote)
  have ha := h.accounted hget
  split
  next =>
    refine ⟨⟨rfl, rfl, rfl, rfl, fun hc => hc, fun hd => .inr ⟨hd, .inr ⟨rfl, rfl⟩⟩⟩, ?_⟩
    exact ⟨ha.regular, ⟨ha.sound.due, ha.sound.left, ha.sound.pending⟩, ha.once, ha.since,
      ha.pending, ha.increasing, ha.ahead, ha.gapless, ha.counted⟩
  next => exact ⟨.refl row, ha⟩

theorem kept_advance (now : Int) (hstep : w.step zones (.advance now) = some w') :
    Kept zones w' := by
  obtain ⟨table, htable, rfl⟩ := Option.map_eq_some_iff.mp hstep
  unfold advanceSchedules at htable
  rw [Option.ite_none_right_eq_some, Option.some.injEq] at htable
  obtain ⟨hall, rfl⟩ := htable
  refine h.rowwise _ (fun id => Dict.get?_map _ _ id) (fun id row hget => ?_) (fun id hnone => ?_)
    (fun answer hanswer => ?_) (fun _ hread => hread) (fun _ _ hnote => .inl hnote)
  · have hsome := List.all_eq_true.mp hall row ((w.table.mem_values row).mpr ⟨id, hget⟩)
    obtain ⟨row', hrow'⟩ := Option.isSome_iff_exists.mp hsome
    simp only [hget, hrow', Option.getD_some, Option.map_some]
    exact ⟨follows_advanceRow zones now row row' hrow',
      accounted_advanceRow zones (h.accounted hget) now row' hrow'⟩
  · obtain ⟨hwaiting, hwakes, hgiven⟩ := h.fresh id hnone
    refine ⟨?_, hwakes, hgiven⟩
    simp [hnone, hwaiting]
  · rcases List.mem_append.mp hanswer with hold | hnew
    · exact .inl hold
    · exact .inr (List.mem_singleton.mp hnew)

theorem notesOf_answer (answer : Nat) (threadId : String) :
    ((w.notesOf answer threadId).map (·.scheduleId)).Nodup ∧
      ∀ seen ∈ w.notesOf answer threadId, ∃ row, w.table.get? seen.scheduleId = some row ∧
        Remembers zones seen row := by
  unfold notesOf
  cases hanswer : w.answers[answer]? with
  | none => simp
  | some notes =>
      obtain ⟨hnodup, hseen⟩ := h.answers notes (List.mem_of_getElem? hanswer)
      refine ⟨hnodup.sublist (List.Sublist.map _ List.filter_sublist), fun seen hmem => ?_⟩
      exact hseen seen (List.mem_of_mem_filter hmem)

omit h in
/-- The one note of a schedule among those of different schedules. -/
theorem filter_note (schedules : List AgentSchedule)
    (hnodup : (schedules.map (·.scheduleId)).Nodup) (seen : AgentSchedule) (hmem : seen ∈ schedules) :
    schedules.filter (fun row => row.scheduleId = seen.scheduleId) = [seen] := by
  induction schedules with
  | nil => cases hmem
  | cons first rest ih =>
      rw [List.map_cons, List.nodup_cons] at hnodup
      rcases List.mem_cons.mp hmem with rfl | hrest
      · rw [List.filter_cons_of_pos (by simp), List.filter_eq_nil_iff.mpr]
        intro row hrow heq
        exact hnodup.1 (of_decide_eq_true heq ▸ List.mem_map_of_mem hrow)
      · rw [List.filter_cons_of_neg, ih hnodup.2 hrest]
        intro heq
        exact hnodup.1 (of_decide_eq_true heq ▸ List.mem_map_of_mem hrest)

theorem kept_claim (answer : Nat) (threadId : String) (held : Bool) (createdAt : Int)
    (hstep : w.step zones (.claim answer threadId held createdAt) = some w') : Kept zones w' := by
  obtain ⟨table, htable, rfl⟩ := Option.map_eq_some_iff.mp hstep
  obtain ⟨hnodup, hseen⟩ := notesOf_answer h answer threadId
  generalize w.notesOf answer threadId = schedules at htable hnodup hseen ⊢
  unfold claimWake at htable
  rw [Option.ite_none_left_eq_some, Option.some.injEq] at htable
  obtain ⟨hclaim, rfl⟩ := htable
  push Not at hclaim
  have hunchanged : notesUnchanged w.table schedules = true := by
    simpa using hclaim.2.2
  have hnumber : ∀ seen ∈ schedules,
      seen.pendingFires = some ((w.waiting seen.scheduleId).length : Int) := by
    intro seen hmem
    obtain ⟨row, hget, hremembers⟩ := hseen seen hmem
    have hsame := List.all_eq_true.mp hunchanged seen hmem
    rw [hget, Option.any_some, Bool.and_eq_true, decide_eq_true_eq, decide_eq_true_eq] at hsame
    exact hremembers.number zones (h.accounted hget) hsame.2
  refine h.rowwise _ (fun id => Dict.get?_map _ _ id) (fun id row hget => ?_) (fun id hnone => ?_)
    (fun _ hanswer => .inl hanswer) (fun _ hread => hread) (fun id note hnote => ?_)
  · have ha := h.accounted hget
    by_cases hclaimed : id ∈ schedules.map (·.scheduleId)
    · obtain ⟨seen, hmem, rfl⟩ := List.mem_map.mp hclaimed
      simp only [if_pos hclaimed, reported, filter_note schedules hnodup seen hmem,
        List.map_singleton, List.flatMap_append, List.flatMap_singleton]
      have hf : Follows row { row with
          pendingSince := none
          deferredReason := none
          lastFiredAt := some createdAt } :=
        ⟨rfl, rfl, rfl, rfl, fun hc => hc, fun hd => .inr ⟨hd, .inl rfl⟩⟩
      refine ⟨hf, ha.settle zones hf rfl rfl (fun hd hc => ⟨hd, hc⟩) _ ha.increasing
        (by rw [List.length_append]; exact le_refl _) fun hactive => ?_⟩
      obtain ⟨due, hnext, hdue, huntil⟩ := ha.sound.due hactive
      exact ⟨due, hnext, hdue, huntil, ha.ahead hactive due hnext⟩
    · have hnone : schedules.filter (fun row => row.scheduleId = id) = [] := by
        rw [List.filter_eq_nil_iff]
        intro row hrow heq
        exact hclaimed (of_decide_eq_true heq ▸ List.mem_map_of_mem hrow)
      simp only [if_neg hclaimed, reported, hnone, List.map_nil, List.append_nil]
      exact ⟨.refl row, ha⟩
  · obtain ⟨hwaiting, hwakes, hgiven⟩ := h.fresh id hnone
    have hother : schedules.filter (fun row => row.scheduleId = id) = [] := by
      rw [List.filter_eq_nil_iff]
      intro seen hmem heq
      obtain ⟨row, hget, -⟩ := hseen seen hmem
      rw [of_decide_eq_true heq, hnone] at hget
      cases hget
    simp only [hwaiting, hwakes, hother, ite_self, List.map_nil, List.append_nil, true_and]
    exact hgiven
  · rcases List.mem_append.mp hnote with hold | hnew
    · exact .inl hold
    · obtain ⟨seen, hmem, rfl⟩ := List.mem_map.mp hnew
      obtain ⟨hmem, hid⟩ := List.mem_filter.mp hmem
      rw [← of_decide_eq_true hid]
      exact .inr (hnumber seen hmem)

/-- A resume computes a fire that its schedule can have. -/
theorem resumeFire_legal (id : String) (row : AgentSchedule) (hget : w.table.get? id = some row)
    (now fire : Int) (hfire : resumeFire zones row now = some (some fire)) :
    fire ∈ row.timetable zones fire ∧ ∀ last ∈ row.until zones, fire ≤ last := by
  have ha := h.accounted hget
  by_cases hrepeats : row.Repeats
  · have hrepeat : ∃ anchor, (repeatFire zones row.timing row.timezone now anchor).map (fun fire =>
        if withinLimits zones row fire row.firesLeft then some fire else none) =
          some (some fire) := by
      unfold resumeFire at hfire
      split at hfire
      next civil htiming => exact absurd htiming (hrepeats civil)
      next => exact ⟨_, hfire⟩
    obtain ⟨anchor, hrepeat⟩ := hrepeat
    obtain ⟨time, htime, hlimits⟩ := Option.map_eq_some_iff.mp hrepeat
    rw [Option.ite_none_right_eq_some, Option.some.injEq] at hlimits
    obtain ⟨hwithin, rfl⟩ := hlimits
    refine ⟨repeatFire_mem zones row ha.regular now anchor time htime, fun last hlast => ?_⟩
    rw [withinLimits, Bool.and_eq_true, Option.all_eq_true, Option.all_eq_true] at hwithin
    exact of_decide_eq_true (hwithin.2 last hlast)
  · unfold AgentSchedule.Repeats at hrepeats
    push Not at hrepeats
    obtain ⟨civil, htiming⟩ := hrepeats
    refine ⟨?_, fun last hlast => ?_⟩
    · simp [AgentSchedule.timetable, htiming]
    · simp [AgentSchedule.until, (ha.once civil htiming).1] at hlast

theorem kept_readResume (threadId scheduleId : String) (enable : Bool) (now : Int)
    (hstep : w.step zones (.readResume threadId scheduleId enable now) = some w') :
    Kept zones w' := by
  obtain ⟨row, hrow, hstep⟩ := Option.bind_eq_some_iff.mp hstep
  obtain ⟨fire, hfire, hstep⟩ := Option.bind_eq_some_iff.mp hstep
  rw [Option.ite_none_left_eq_some, Option.some.injEq] at hstep
  obtain ⟨-, rfl⟩ := hstep
  refine ⟨h.rows, h.fresh, h.answers, fun read hread => ?_, h.numbers⟩
  rcases List.mem_append.mp hread with hold | hnew
  · exact h.resumes read hold
  · rw [List.mem_singleton] at hnew
    subst hnew
    have hget := threadSchedule_get hrow
    refine ⟨?_, row, hget, fun time htime => ?_⟩
    · cases enable with
      | false => exact .inl rfl
      | true => exact .inr rfl
    · rw [Option.mem_def] at htime
      subst htime
      exact resumeFire_legal h scheduleId row hget now time hfire

theorem kept_add (request : ScheduleRequest) (now : Int) (gapMinutes : Option Nat)
    (horderly : w.Orderly zones (.add request now gapMinutes))
    (hstep : w.step zones (.add request now gapMinutes) = some w') : Kept zones w' := by
  obtain ⟨table, htable, rfl⟩ := Option.map_eq_some_iff.mp hstep
  unfold addSchedule at htable
  rw [Option.ite_none_right_eq_some] at htable
  obtain ⟨hchecks, htable⟩ := htable
  obtain ⟨first, hfirst, rfl⟩ := Option.map_eq_some_iff.mp htable
  simp only [Bool.and_eq_true, decide_eq_true_eq] at hchecks
  have hfresh := (w.table.not_mem_iff request.scheduleId).mp hchecks.1.1.2
  have hother : ∀ id row, w.table.get? id = some row → id ≠ request.scheduleId := by
    rintro id row hget rfl
    rw [hfresh] at hget
    cases hget
  obtain ⟨hwaiting, hwakes, -⟩ := h.fresh _ hfresh
  refine ⟨?_, ?_, ?_, ?_, h.numbers⟩
  case refine_1 =>
    intro id row hget
    rw [Dict.get?_insert] at hget
    split at hget
    next heq =>
      subst heq
      rw [Option.some.injEq] at hget
      subst hget
      refine ⟨rfl, ?_⟩
      simp only [reported, hwakes, hwaiting, if_true]
      exact accounted_new request now first gapMinutes horderly hchecks.1.1.1 hfirst
    next hne =>
      simp only [if_neg hne]
      exact h.rows id row hget
  case refine_2 =>
    intro id hnone
    rw [Dict.get?_insert] at hnone
    split at hnone
    · cases hnone
    next hne =>
      simp only [if_neg hne]
      exact h.fresh id hnone
  case refine_3 =>
    intro answer hanswer
    obtain ⟨hnodup, hseen⟩ := h.answers answer hanswer
    refine ⟨hnodup, fun seen hmem => ?_⟩
    obtain ⟨row, hget, hremembers⟩ := hseen seen hmem
    refine ⟨row, ?_, hremembers⟩
    rw [Dict.get?_insert, if_neg (hother _ row hget)]
    exact hget
  case refine_4 =>
    intro read hread
    obtain ⟨hwas, row, hget, hfire⟩ := h.resumes read hread
    refine ⟨hwas, row, ?_, hfire⟩
    rw [Dict.get?_insert, if_neg (hother _ row hget)]
    exact hget

theorem kept_step (op : ScheduleOp) (horderly : w.Orderly zones op)
    (hstep : w.step zones op = some w') : Kept zones w' := by
  cases op with
  | add request now gapMinutes => exact kept_add h request now gapMinutes horderly hstep
  | advance now => exact kept_advance h now hstep
  | claim answer threadId held createdAt => exact kept_claim h answer threadId held createdAt hstep
  | cancel threadId scheduleId => exact kept_cancel h threadId scheduleId hstep
  | pause threadId scheduleId => exact kept_pause h threadId scheduleId hstep
  | readResume threadId scheduleId enable now =>
      exact kept_readResume h threadId scheduleId enable now hstep
  | writeResume index => exact kept_writeResume h index horderly hstep
  | disable chosen reason => exact kept_disable h chosen reason hstep
  | defer answer threadId reason => exact kept_defer h answer threadId reason hstep

end Ops

theorem kept_reached {w : ScheduleWorld} (h : Reached zones (Orderly zones) w) : Kept zones w := by
  induction h with
  | start => exact kept_start zones
  | step op _ horderly hstep ih => exact kept_step ih op horderly hstep

end ScheduleWorld

/-- `0 * * * *` -/
def hourly : Cron where
  minutes := [0]
  hours := List.range 24
  daysOfMonth := (List.range 32).map Int.ofNat
  months := (List.range 13).map Int.ofNat
  daysOfWeek := (List.range 7).map Int.ofNat
  restricted := false
  minutes_sorted := by decide
  hours_sorted := by decide
  minutes_lt := by decide
  hours_lt := by decide

def hourlyRequest : ScheduleRequest where
  scheduleId := "hourly"
  threadId := "thread"
  operationId := "operation"
  key := "key"
  timing := .cron hourly
  timezone := "America/Nuuk"
  note := "note"
  start := none
  finish := none
  count := none

theorem hourly_daily (d : Int) : hourly.matchesDate d = true := by
  have hmem : ∀ (n : Nat) (x : Int), 0 ≤ x → x < n → x ∈ (List.range n).map Int.ofNat := by
    intro n x hlow hhigh
    refine List.mem_map.mpr ⟨x.toNat, List.mem_range.mpr (by omega), ?_⟩
    exact Int.toNat_of_nonneg hlow
  obtain ⟨hmonth, hmonth', hday, hday'⟩ := monthAndDay_bounds d
  have hmonths : (monthAndDay d).1 ∈ hourly.months := hmem 13 _ (by omega) (by omega)
  have hdays : (monthAndDay d).2 ∈ hourly.daysOfMonth := hmem 32 _ (by omega) (by omega)
  have hweek : dayOfWeek d ∈ hourly.daysOfWeek := by
    refine hmem 7 _ ?_ ?_ <;> simp only [dayOfWeek] <;> omega
  have hrestricted : hourly.restricted = false := rfl
  simp [Cron.matchesDate, hmonths, hdays, hweek, hrestricted]

theorem hourly_regular (timezone : String) :
    (Timing.cron hourly).Regular (fun _ => Zone.fixed 0) timezone :=
  ⟨steady_fixed 0, nextOccurrence_everyDate hourly _ (steady_fixed 0) hourly_daily 0 (by decide)⟩

def utcRequest : ScheduleRequest := { hourlyRequest with timezone := "Etc/UTC" }

section Nuuk

/-- The clock of America/Nuuk around 2026-03-29: at one o'clock it goes from eleven in the
evening to midnight. -/
def nuuk : Zone where
  offset := fun i => if i < 1774746000000000 then -7200000000 else -3600000000
  civilOffset := fun civil => if civil < 1774742400000000 then -7200000000 else -3600000000
  longestGap := 60
  settles := by
    intro civil
    have hminute : microsecondsPerMinute = 60000000 := rfl
    by_cases hbefore : civil < 1774738800000000
    · refine ⟨0, by omega, ?_⟩
      rw [if_pos (show civil + ((0 : Nat) : Int) * microsecondsPerMinute < 1774742400000000 by omega),
        if_pos (by omega)]
    · refine ⟨60, by omega, ?_⟩
      rw [if_neg (show ¬civil + ((60 : Nat) : Int) * microsecondsPerMinute < 1774742400000000 by
        omega), if_neg (by omega)]

end Nuuk

end RcpGraph
