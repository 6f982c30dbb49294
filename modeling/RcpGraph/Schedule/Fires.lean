import RcpGraph.Schedule.Rows

/-!
The fires of one schedule. An advance folds the fires that are due into the waiting
note and moves the next fire past the instant of the poll; polling more often folds
the same fires.
-/

namespace RcpGraph

variable (zones : String → Zone)

/-- The instants a schedule fires at from its next fire on. -/
def AgentSchedule.timetable (schedule : AgentSchedule) (due : Int) : Set Int :=
  match schedule.timing with
  | .every minutes _ => Timetable.every (stepOf minutes) due
  | .cron expression => expression.occurrences (zones schedule.timezone)
  | .once _ => {due}

/-- A cron expression in a steady zone that always finds its next occurrence. -/
def Timing.Regular (timing : Timing) (timezone : String) : Prop :=
  match timing with
  | .cron expression => (zones timezone).Steady ∧
      ∀ t, (nextOccurrence expression (zones timezone) t).isSome = true
  | _ => True

def AgentSchedule.Regular (schedule : AgentSchedule) : Prop :=
  schedule.timing.Regular zones schedule.timezone

def AgentSchedule.Repeats (schedule : AgentSchedule) : Prop := ∀ civil, schedule.timing ≠ .once civil

/-- What holds of every row: an active schedule has a next fire within its bounds, one that
may fire again has a fire left, and a waiting note holds a fire. -/
structure AgentSchedule.Sound (schedule : AgentSchedule) : Prop where
  due : schedule.state = .active → ∃ due, schedule.nextFireAt = some due ∧
    due ∈ schedule.timetable zones due ∧ ∀ last ∈ schedule.until zones, due ≤ last
  left : schedule.state ≠ .done → schedule.state ≠ .cancelled → ∀ left ∈ schedule.firesLeft, 0 < left
  pending : schedule.pendingSince.isSome = true → ∃ n, schedule.pendingFires = some n ∧ 1 ≤ n

section Specs

theorem stepOf_pos (minutes : Nat) (h : 1 ≤ minutes) : 0 < stepOf minutes := by
  simp only [stepOf, microsecondsPerMinute]
  omega

/-- `repeat_fire` finds the next fire of the schedule. -/
theorem repeatFire_next (schedule : AgentSchedule) (hr : schedule.Regular zones)
    (hrepeats : schedule.Repeats) (due now : Int) (hdue : due ≤ now) :
    ∃ following, repeatFire zones schedule.timing schedule.timezone now
        (phase schedule.timing due) = some following ∧
      Timetable.Next (schedule.timetable zones due) now following := by
  unfold AgentSchedule.Regular Timing.Regular at hr
  unfold AgentSchedule.timetable
  cases htiming : schedule.timing with
  | every minutes positive =>
      refine ⟨_, if_neg (by omega), ?_⟩
      exact Timetable.next_every _ due now (stepOf_pos minutes positive)
  | cron expression =>
      rw [htiming] at hr
      obtain ⟨following, hfollowing⟩ := Option.isSome_iff_exists.mp (hr.2 now)
      exact ⟨following, hfollowing, next_nextOccurrence _ _ hr.1 now following hfollowing⟩
  | once civil => exact absurd htiming (hrepeats civil)

/-- `repeat_fire` finds a fire of the schedule, wherever it starts. -/
theorem repeatFire_mem (schedule : AgentSchedule) (hr : schedule.Regular zones) (after : Int)
    (anchor : Option Int) (fire : Int)
    (h : repeatFire zones schedule.timing schedule.timezone after anchor = some fire) :
    fire ∈ schedule.timetable zones fire := by
  unfold AgentSchedule.Regular Timing.Regular at hr
  unfold AgentSchedule.timetable
  cases htiming : schedule.timing with
  | every minutes positive => exact Timetable.every_self _ fire
  | cron expression =>
      rw [htiming] at hr h
      exact (next_nextOccurrence _ _ hr.1 _ fire h).mem
  | once civil => exact Set.mem_singleton fire

/-- The code counts the fires of the schedule. -/
theorem dueFires_count (schedule : AgentSchedule) (hr : schedule.Regular zones)
    (hrepeats : schedule.Repeats) (due finish : Int) (hdue : due ≤ finish) :
    dueFires zones schedule due finish =
      Timetable.count (schedule.timetable zones due) due finish := by
  unfold AgentSchedule.Regular Timing.Regular at hr
  unfold AgentSchedule.timetable dueFires
  cases htiming : schedule.timing with
  | every minutes positive =>
      exact (Timetable.count_every _ due finish (stepOf_pos minutes positive) hdue).symm
  | cron expression =>
      rw [htiming] at hr
      simp only [count_cronOccurrenceCount _ _ hr.1 due finish hdue]
  | once civil => exact absurd htiming (hrepeats civil)

/-- A schedule keeps its timetable from one of its fires to another. -/
theorem timetable_shift (schedule : AgentSchedule) (hrepeats : schedule.Repeats) (due fire : Int)
    (hfire : fire ∈ schedule.timetable zones due) :
    schedule.timetable zones fire = schedule.timetable zones due := by
  unfold AgentSchedule.timetable at hfire ⊢
  cases htiming : schedule.timing with
  | every minutes positive =>
      rw [htiming] at hfire
      exact Timetable.every_shift hfire
  | cron expression => rfl
  | once civil => exact absurd htiming (hrepeats civil)

end Specs

section Folded

/-- How many of the due fires the bound on their number lets through. -/
def countedFires (firesLeft : Option Int) (fired : Int) : Int :=
  (firesLeft.map (min fired)).getD fired

/-- The fires a note holds after some more. -/
def pendingAfter (since pending : Option Int) (fired : Int) : Option Int :=
  match since with
  | none => some fired
  | some _ => pending.map (· + fired)

/-- The columns an advance writes. -/
def AgentSchedule.written (schedule : AgentSchedule) (since pending next left : Option Int) :
    AgentSchedule :=
  { schedule with
    pendingSince := since
    pendingFires := pending
    nextFireAt := next
    firesLeft := left
    state := if next.isSome then .active else .done }

/-- A schedule with a number of due fires folded in, before its bounds. -/
def AgentSchedule.folded (schedule : AgentSchedule) (due following fired : Int) : AgentSchedule :=
  let counted := countedFires schedule.firesLeft fired
  let left := schedule.firesLeft.map (· - counted)
  schedule.written (some (schedule.pendingSince.getD due))
    (pendingAfter schedule.pendingSince schedule.pendingFires counted)
    (if withinLimits zones schedule following left then some following else none) left

/-- The last instant whose fires an advance counts. -/
def AgentSchedule.finish (schedule : AgentSchedule) (now : Int) : Int :=
  ((schedule.until zones).map (min now)).getD now

theorem AgentSchedule.finish_le (schedule : AgentSchedule) (now : Int) :
    schedule.finish zones now ≤ now := by
  unfold AgentSchedule.finish
  cases schedule.until zones with
  | none => exact le_refl now
  | some last => exact min_le_left now last

theorem AgentSchedule.le_finish (schedule : AgentSchedule) (due now : Int) (hnow : due ≤ now)
    (huntil : ∀ last ∈ schedule.until zones, due ≤ last) : due ≤ schedule.finish zones now := by
  unfold AgentSchedule.finish
  cases hlast : schedule.until zones with
  | none => exact hnow
  | some last => exact le_min hnow (huntil last hlast)

theorem AgentSchedule.finish_mono (schedule : AgentSchedule) (now later : Int) (h : now ≤ later) :
    schedule.finish zones now ≤ schedule.finish zones later := by
  unfold AgentSchedule.finish
  cases schedule.until zones with
  | none => exact h
  | some last => exact min_le_min_right last h

/-- An advance folds in the fires that are due. -/
theorem advanceRow_due (schedule : AgentSchedule) (hr : schedule.Regular zones)
    (hs : schedule.Sound zones) (hrepeats : schedule.Repeats) (due now : Int)
    (hactive : schedule.state = .active) (hnext : schedule.nextFireAt = some due)
    (hdue : due ≤ now) :
    ∃ following, Timetable.Next (schedule.timetable zones due) now following ∧
      advanceRow zones now schedule = some (schedule.folded zones due following
        (Timetable.count (schedule.timetable zones due) due (schedule.finish zones now))) := by
  obtain ⟨due', hdue', hmem, huntil⟩ := hs.due hactive
  rw [hnext, Option.some.injEq] at hdue'
  subst hdue'
  obtain ⟨following, hfollowing, hfirst⟩ :=
    repeatFire_next zones schedule hr hrepeats due now hdue
  have hfinish := schedule.le_finish zones due now hdue huntil
  have hcount := dueFires_count zones schedule hr hrepeats due _ hfinish
  have hpositive := Timetable.count_pos hmem hfinish
  refine ⟨following, hfirst, ?_⟩
  generalize Timetable.count (schedule.timetable zones due) due (schedule.finish zones now) = count
    at hcount hpositive ⊢
  have hfire : afterFire zones schedule due now =
      some (if withinLimits zones schedule following (schedule.firesLeft.map
          (· - countedFires schedule.firesLeft count)) then some following else none,
        schedule.firesLeft.map (· - countedFires schedule.firesLeft count),
        countedFires schedule.firesLeft count) := by
    rw [← hcount]
    unfold afterFire
    cases htiming : schedule.timing with
    | once civil => exact absurd htiming (hrepeats civil)
    | every _ _ | cron _ =>
        rw [htiming] at hfollowing
        simp only [hfollowing, Option.map_some]
        rfl
  have hleft := hs.left (by rw [hactive]; decide) (by rw [hactive]; decide)
  have hcounted : 1 ≤ countedFires schedule.firesLeft count := by
    unfold countedFires
    cases hl : schedule.firesLeft with
    | none =>
        simp only [Option.map_none, Option.getD_none]
        omega
    | some left =>
        have := hleft left hl
        simp only [Option.map_some, Option.getD_some]
        omega
  unfold advanceRow
  simp only [hactive, hnext, if_pos hdue, hfire, Option.bind_some]
  rw [if_pos]
  · rfl
  · rw [Bool.and_eq_true]
    constructor
    · cases hpending : schedule.pendingSince with
      | none => simpa using hcounted
      | some since =>
          obtain ⟨n, hn, hone⟩ := hs.pending (by simp [hpending])
          simp only [hn, Option.map_some, Option.all_some, decide_eq_true_eq]
          omega
    · cases hl : schedule.firesLeft with
      | none => rfl
      | some left =>
          simp only [Option.map_some, Option.all_some, decide_eq_true_eq, countedFires,
            Option.getD_some]
          omega

section Within

variable (schedule : AgentSchedule) (following fired : Int)
  (hwithin : withinLimits zones schedule following
    (schedule.firesLeft.map (· - countedFires schedule.firesLeft fired)) = true)

include hwithin

/-- A schedule that may fire again has more fires left than it has counted. -/
theorem lt_of_within (left : Int) (hleft : schedule.firesLeft = some left) : fired < left := by
  simp only [withinLimits, hleft, countedFires, Option.map_some, Option.getD_some,
    Option.all_some, Bool.and_eq_true, decide_eq_true_eq] at hwithin
  omega

theorem counted_of_within : countedFires schedule.firesLeft fired = fired := by
  unfold countedFires
  cases hleft : schedule.firesLeft with
  | none => rfl
  | some left =>
      have := lt_of_within zones schedule following fired hwithin left hleft
      simp only [Option.map_some, Option.getD_some]
      omega

theorem until_of_within (last : Int) (hlast : schedule.until zones = some last) :
    following ≤ last := by
  rw [withinLimits, Bool.and_eq_true, Option.all_eq_true, Option.all_eq_true] at hwithin
  exact of_decide_eq_true (hwithin.2 last hlast)

/-- An advance before the last instant counts up to its own. -/
theorem finish_of_within (now : Int) (hnow : now < following) :
    schedule.finish zones now = now := by
  apply le_antisymm (schedule.finish_le zones now)
  apply schedule.le_finish zones now now (le_refl now)
  intro last hlast
  have := until_of_within zones schedule following fired hwithin last hlast
  omega

end Within

/-- Folding on in a schedule that is still active folds in both numbers at once. -/
theorem folded_folded (schedule : AgentSchedule) (due middle following m n : Int)
    (hwithin : withinLimits zones schedule middle
      (schedule.firesLeft.map (· - countedFires schedule.firesLeft m)) = true) :
    (schedule.folded zones due middle m).folded zones middle following n =
      schedule.folded zones due following (m + n) := by
  have hsome := lt_of_within zones schedule middle m hwithin
  have hm := counted_of_within zones schedule middle m hwithin
  have hn : countedFires schedule.firesLeft (m + n) =
      m + countedFires (schedule.firesLeft.map (· - m)) n := by
    unfold countedFires
    cases hleft : schedule.firesLeft with
    | none => rfl
    | some left =>
        have := hsome left hleft
        simp only [Option.map_some, Option.getD_some]
        omega
  have hleft : (schedule.firesLeft.map (· - m)).map
      (· - countedFires (schedule.firesLeft.map (· - m)) n) =
        schedule.firesLeft.map (· - countedFires schedule.firesLeft (m + n)) := by
    rw [Option.map_map, hn]
    congr 1
    funext k
    simp only [Function.comp_apply]
    omega
  have hpending : (pendingAfter schedule.pendingSince schedule.pendingFires m).map
      (· + countedFires (schedule.firesLeft.map (· - m)) n) =
        pendingAfter schedule.pendingSince schedule.pendingFires
          (countedFires schedule.firesLeft (m + n)) := by
    unfold pendingAfter
    rw [hn]
    cases schedule.pendingSince with
    | none => rfl
    | some since =>
        simp only [Option.map_map]
        congr 1
        funext k
        simp only [Function.comp_apply]
        omega
  unfold AgentSchedule.folded
  simp only [hm, ← hleft, ← hpending]
  rfl

/-- Folding more into a schedule whose fires are used up changes nothing. -/
theorem folded_exhausted (schedule : AgentSchedule) (due following following' m n left : Int)
    (hleft : schedule.firesLeft = some left) (hm : left ≤ m) (hmn : m ≤ n) :
    schedule.folded zones due following n = schedule.folded zones due following' m := by
  have hcounted : ∀ k, m ≤ k → countedFires (some left) k = left := by
    intro k hk
    simp only [countedFires, Option.map_some, Option.getD_some]
    omega
  unfold AgentSchedule.folded
  simp only [hleft, hcounted n hmn, hcounted m (le_refl m), withinLimits, Option.map_some,
    Option.all_some, sub_self, lt_irrefl, decide_false, Bool.false_and, Bool.false_eq_true, if_false]

/-- A schedule past its last instant has no next fire. -/
theorem folded_past (schedule : AgentSchedule) (due following following' m last : Int)
    (huntil : schedule.until zones = some last) (h : last < following) (h' : last < following') :
    schedule.folded zones due following m = schedule.folded zones due following' m := by
  unfold AgentSchedule.folded
  simp only [withinLimits, huntil, Option.all_some, decide_eq_false (not_le.mpr h),
    decide_eq_false (not_le.mpr h'), Bool.and_false, Bool.false_eq_true, if_false]

theorem folded_active (schedule : AgentSchedule) (due following fired : Int)
    (hwithin : withinLimits zones schedule following
      (schedule.firesLeft.map (· - countedFires schedule.firesLeft fired)) = true) :
    (schedule.folded zones due following fired).state = .active ∧
      (schedule.folded zones due following fired).nextFireAt = some following := by
  simp [AgentSchedule.folded, AgentSchedule.written, hwithin]

theorem folded_ended (schedule : AgentSchedule) (due following fired : Int)
    (hwithin : withinLimits zones schedule following
      (schedule.firesLeft.map (· - countedFires schedule.firesLeft fired)) = false) :
    (schedule.folded zones due following fired).state = .done ∧
      (schedule.folded zones due following fired).nextFireAt = none := by
  simp [AgentSchedule.folded, AgentSchedule.written, hwithin]

/-- A schedule that is active after an advance is within its bounds. -/
theorem within_of_folded (schedule : AgentSchedule) (due following fired : Int)
    (hactive : (schedule.folded zones due following fired).state = .active) :
    withinLimits zones schedule following
      (schedule.firesLeft.map (· - countedFires schedule.firesLeft fired)) = true := by
  by_contra hwithin
  rw [Bool.not_eq_true] at hwithin
  rw [(folded_ended zones schedule due following fired hwithin).1] at hactive
  cases hactive

theorem counted_pos (schedule : AgentSchedule) (hs : schedule.Sound zones)
    (hactive : schedule.state = .active) (fired : Int) (hfired : 1 ≤ fired) :
    1 ≤ countedFires schedule.firesLeft fired := by
  have hleft := hs.left (by rw [hactive]; decide) (by rw [hactive]; decide)
  unfold countedFires
  cases hl : schedule.firesLeft with
  | none => exact hfired
  | some left =>
      have := hleft left hl
      simp only [Option.map_some, Option.getD_some]
      omega

theorem pendingAfter_pos (schedule : AgentSchedule) (hs : schedule.Sound zones) (fired : Int)
    (hfired : 1 ≤ fired) :
    ∃ n, pendingAfter schedule.pendingSince schedule.pendingFires fired = some n ∧ 1 ≤ n := by
  unfold pendingAfter
  cases hpending : schedule.pendingSince with
  | none => exact ⟨fired, rfl, hfired⟩
  | some since =>
      obtain ⟨n, hn, hone⟩ := hs.pending (by simp [hpending])
      exact ⟨n + fired, by simp [hn], by omega⟩

/-- Folding fires in keeps a row sound. -/
theorem sound_folded (schedule : AgentSchedule) (hs : schedule.Sound zones)
    (hrepeats : schedule.Repeats) (due following fired : Int) (hactive : schedule.state = .active)
    (hmem : following ∈ schedule.timetable zones due) (hfired : 1 ≤ fired) :
    (schedule.folded zones due following fired).Sound zones := by
  cases hwithin : withinLimits zones schedule following
      (schedule.firesLeft.map (· - countedFires schedule.firesLeft fired)) with
  | false =>
      obtain ⟨hdone, -⟩ := folded_ended zones schedule due following fired hwithin
      refine ⟨fun h => ?_, fun h => absurd hdone h, fun _ => ?_⟩
      · rw [hdone] at h
        cases h
      · exact pendingAfter_pos zones schedule hs _ (counted_pos zones schedule hs hactive _ hfired)
  | true =>
      obtain ⟨-, hnext⟩ := folded_active zones schedule due following fired hwithin
      rw [withinLimits, Bool.and_eq_true, Option.all_eq_true, Option.all_eq_true] at hwithin
      refine ⟨fun _ => ⟨following, hnext, ?_, ?_⟩, fun _ _ => ?_, fun _ => ?_⟩
      · change following ∈ schedule.timetable zones following
        rw [timetable_shift zones schedule hrepeats due following hmem]
        exact hmem
      · intro last hlast
        exact of_decide_eq_true (hwithin.2 last hlast)
      · intro left hleft
        exact of_decide_eq_true (hwithin.1 left hleft)
      · exact pendingAfter_pos zones schedule hs _ (counted_pos zones schedule hs hactive _ hfired)

end Folded

section Polls

/-- Rows that no advance touches. -/
theorem advanceRow_quiet (schedule : AgentSchedule) (now : Int)
    (h : schedule.state = .active → ∀ due ∈ schedule.nextFireAt, now < due) :
    advanceRow zones now schedule = some schedule := by
  unfold advanceRow
  split
  next due hactive hnext => exact if_neg (not_le.mpr (h hactive due hnext))
  next => rfl

theorem advanceRow_once (schedule : AgentSchedule) (hs : schedule.Sound zones) (civil due now : Int)
    (htiming : schedule.timing = .once civil) (hactive : schedule.state = .active)
    (hnext : schedule.nextFireAt = some due) (hdue : due ≤ now) :
    advanceRow zones now schedule = some (schedule.written (some (schedule.pendingSince.getD due))
      (pendingAfter schedule.pendingSince schedule.pendingFires 1) none schedule.firesLeft) := by
  have hleft := hs.left (by rw [hactive]; decide) (by rw [hactive]; decide)
  have hfire : afterFire zones schedule due now = some (none, schedule.firesLeft, 1) := by
    simp only [afterFire, htiming]
  unfold advanceRow
  simp only [hactive, hnext, if_pos hdue, hfire, Option.bind_some]
  rw [if_pos]
  · rfl
  · rw [Bool.and_eq_true]
    constructor
    · cases hpending : schedule.pendingSince with
      | none => rfl
      | some since =>
          obtain ⟨n, hn, hone⟩ := hs.pending (by simp [hpending])
          simp only [hn, Option.map_some, Option.all_some, decide_eq_true_eq]
          omega
    · cases hl : schedule.firesLeft with
      | none => rfl
      | some left =>
          have := hleft left hl
          simp only [Option.all_some, decide_eq_true_eq]
          omega

/-- A schedule that folded its last fire stays as it is. -/
theorem advanceRow_ended (schedule : AgentSchedule) (since pending left : Option Int) (now : Int) :
    advanceRow zones now (schedule.written since pending none left) =
      some (schedule.written since pending none left) :=
  advanceRow_quiet zones _ now fun h => by cases h

section Twice

variable (schedule : AgentSchedule) (due now later middle following : Int)

/-- Two polls of a schedule that is still active after the first. -/
theorem polls_active (hr : schedule.Regular zones) (hs : schedule.Sound zones)
    (hrepeats : schedule.Repeats) (hactive : schedule.state = .active) (hlater : now ≤ later)
    (hpositive : 1 ≤ (Timetable.count (schedule.timetable zones due) due
      (schedule.finish zones now) : Int))
    (hmiddle : Timetable.Next (schedule.timetable zones due) now middle)
    (hfollowing : Timetable.Next (schedule.timetable zones due) later following)
    (hwithin : withinLimits zones schedule middle (schedule.firesLeft.map
      (· - countedFires schedule.firesLeft
        (Timetable.count (schedule.timetable zones due) due (schedule.finish zones now)))) = true) :
    advanceRow zones later (schedule.folded zones due middle
        (Timetable.count (schedule.timetable zones due) due (schedule.finish zones now))) =
      some (schedule.folded zones due following
        (Timetable.count (schedule.timetable zones due) due (schedule.finish zones later))) := by
  have hlast := until_of_within zones schedule middle _ hwithin
  have hnow := hmiddle.lt
  have hfinish := finish_of_within zones schedule middle _ hwithin now hnow
  rw [hfinish] at hwithin hpositive ⊢
  have hreach := schedule.le_finish zones now later hlater fun last hl => by
    have := hlast last hl
    omega
  have hdue : due ≤ middle := by
    by_contra hlt
    have hzero := Timetable.count_eq_zero (S := schedule.timetable zones due)
      (show now < due by omega)
    omega
  have hsplit := Timetable.count_split hmiddle hdue hreach
  have hsound := sound_folded zones schedule hs hrepeats due middle _ hactive hmiddle.mem hpositive
  obtain ⟨hactive', hnext'⟩ := folded_active zones schedule due middle _ hwithin
  by_cases hmore : middle ≤ later
  · obtain ⟨following', hfollowing', hfold⟩ :=
      advanceRow_due zones (schedule.folded zones due middle
        (Timetable.count (schedule.timetable zones due) due now)) hr hsound hrepeats middle later
        hactive' hnext' hmore
    -- The folded row keeps timing, zone and last instant.
    change Timetable.Next (schedule.timetable zones middle) later following' at hfollowing'
    change _ = some (AgentSchedule.folded zones _ middle following'
      (Timetable.count (schedule.timetable zones middle) middle (schedule.finish zones later)))
      at hfold
    rw [timetable_shift zones schedule hrepeats due middle hmiddle.mem] at hfollowing' hfold
    rw [hfold, hfollowing'.unique hfollowing, folded_folded zones schedule due middle following _ _
      hwithin, hsplit, Nat.cast_add]
  · have hsame := (hmiddle.later hlater (by omega)).unique hfollowing
    have hnone : Timetable.count (schedule.timetable zones due) middle
        (schedule.finish zones later) = 0 := by
      apply Timetable.count_eq_zero
      have := schedule.finish_le zones later
      omega
    rw [advanceRow_quiet zones _ later fun _ fire hfire => by
      rw [hnext', Option.mem_some_iff] at hfire
      omega, hsplit, hnone, hsame, Nat.add_zero]

/-- Two polls of a schedule that ends with the first. -/
theorem polls_ended (hlater : now ≤ later) (hdue : due ≤ middle)
    (hmiddle : Timetable.Next (schedule.timetable zones due) now middle)
    (hfollowing : Timetable.Next (schedule.timetable zones due) later following)
    (hwithin : withinLimits zones schedule middle (schedule.firesLeft.map
      (· - countedFires schedule.firesLeft
        (Timetable.count (schedule.timetable zones due) due (schedule.finish zones now)))) = false) :
    advanceRow zones later (schedule.folded zones due middle
        (Timetable.count (schedule.timetable zones due) due (schedule.finish zones now))) =
      some (schedule.folded zones due following
        (Timetable.count (schedule.timetable zones due) due (schedule.finish zones later))) := by
  obtain ⟨hdone, -⟩ := folded_ended zones schedule due middle _ hwithin
  have hquiet := advanceRow_quiet zones (schedule.folded zones due middle
    (Timetable.count (schedule.timetable zones due) due (schedule.finish zones now))) later
    fun h => by
      rw [hdone] at h
      cases h
  rw [hquiet, Option.some.injEq]
  symm
  rw [withinLimits, Bool.and_eq_false_iff] at hwithin
  rcases hwithin with hleft | hpast
  · cases hl : schedule.firesLeft with
    | none => simp [hl] at hleft
    | some left =>
        simp only [hl, Option.map_some, Option.all_some, decide_eq_false_iff_not, countedFires,
          Option.getD_some] at hleft
        have hcount : left ≤ (Timetable.count (schedule.timetable zones due) due
            (schedule.finish zones now) : Int) := by omega
        have hmono := Timetable.count_mono (S := schedule.timetable zones due) (a := due)
          (schedule.finish_mono zones now later hlater)
        exact folded_exhausted zones schedule due following middle _ _ left hl hcount
          (Int.ofNat_le.mpr hmono)
  · cases hu : schedule.until zones with
    | none => simp [hu] at hpast
    | some last =>
        simp only [hu, Option.all_some, decide_eq_false_iff_not, not_le] at hpast
        have hsame : Timetable.count (schedule.timetable zones due) due (schedule.finish zones later) =
            Timetable.count (schedule.timetable zones due) due (schedule.finish zones now) := by
          by_cases hlast : last < now
          · simp only [AgentSchedule.finish, hu, Option.map_some, Option.getD_some]
            rw [min_eq_right (by omega), min_eq_right (by omega)]
          · -- No fire stands between this poll and the last instant.
            have hnow : schedule.finish zones now = now := by
              simp only [AgentSchedule.finish, hu, Option.map_some, Option.getD_some]
              omega
            have hend : schedule.finish zones later ≤ last := by
              simp only [AgentSchedule.finish, hu, Option.map_some, Option.getD_some]
              omega
            have hreach : now ≤ schedule.finish zones later := by
              rw [← hnow]
              exact schedule.finish_mono zones now later hlater
            have hnone : Timetable.count (schedule.timetable zones due) middle
                (schedule.finish zones later) = 0 := Timetable.count_eq_zero (by omega)
            rw [hnow, Timetable.count_split hmiddle hdue hreach, hnone, Nat.add_zero]
        rw [hsame]
        exact folded_past zones schedule due following middle _ last hu
          (lt_of_lt_of_le hpast (hmiddle.mono hfollowing hlater)) hpast

end Twice

/-- Two polls fold the same fires as the later one alone. -/
theorem advanceRow_advanceRow (schedule : AgentSchedule) (hr : schedule.Regular zones)
    (hs : schedule.Sound zones) (now later : Int) (hlater : now ≤ later) :
    (advanceRow zones now schedule).bind (advanceRow zones later) =
      advanceRow zones later schedule := by
  by_cases hquiet : schedule.state = .active → ∀ due ∈ schedule.nextFireAt, now < due
  · rw [advanceRow_quiet zones schedule now hquiet]
    rfl
  push Not at hquiet
  obtain ⟨hactive, due, hnext, hdue⟩ := hquiet
  rw [Option.mem_def] at hnext
  by_cases hrepeats : schedule.Repeats
  · obtain ⟨middle, hmiddle, hfold⟩ :=
      advanceRow_due zones schedule hr hs hrepeats due now hactive hnext hdue
    obtain ⟨following, hfollowing, hfold'⟩ :=
      advanceRow_due zones schedule hr hs hrepeats due later hactive hnext (by omega)
    obtain ⟨due', hdue', hmem, huntil⟩ := hs.due hactive
    rw [hnext, Option.some.injEq] at hdue'
    subst hdue'
    have hcount := Timetable.count_pos hmem (schedule.le_finish zones due now hdue huntil)
    rw [hfold, hfold', Option.bind_some]
    cases hwithin : withinLimits zones schedule middle (schedule.firesLeft.map
        (· - countedFires schedule.firesLeft
          (Timetable.count (schedule.timetable zones due) due (schedule.finish zones now)))) with
    | true =>
        exact polls_active zones schedule due now later middle following hr hs hrepeats hactive
          hlater (by omega) hmiddle hfollowing hwithin
    | false =>
        have hlt := hmiddle.lt
        exact polls_ended zones schedule due now later middle following hlater (by omega) hmiddle
          hfollowing hwithin
  · unfold AgentSchedule.Repeats at hrepeats
    push Not at hrepeats
    obtain ⟨civil, htiming⟩ := hrepeats
    rw [advanceRow_once zones schedule hs civil due now htiming hactive hnext hdue,
      advanceRow_once zones schedule hs civil due later htiming hactive hnext (by omega)]
    exact advanceRow_ended zones schedule _ _ _ later

/-- An advance never raises on a sound row, and leaves a sound one. -/
theorem sound_advanceRow (schedule : AgentSchedule) (hr : schedule.Regular zones)
    (hs : schedule.Sound zones) (now : Int) :
    ∃ row, advanceRow zones now schedule = some row ∧ row.Regular zones ∧ row.Sound zones := by
  by_cases hquiet : schedule.state = .active → ∀ due ∈ schedule.nextFireAt, now < due
  · exact ⟨schedule, advanceRow_quiet zones schedule now hquiet, hr, hs⟩
  push Not at hquiet
  obtain ⟨hactive, due, hnext, hdue⟩ := hquiet
  rw [Option.mem_def] at hnext
  by_cases hrepeats : schedule.Repeats
  · obtain ⟨following, hfollowing, hfold⟩ :=
      advanceRow_due zones schedule hr hs hrepeats due now hactive hnext hdue
    obtain ⟨due', hdue', hmem, huntil⟩ := hs.due hactive
    rw [hnext, Option.some.injEq] at hdue'
    subst hdue'
    have hcount := Timetable.count_pos hmem (schedule.le_finish zones due now hdue huntil)
    exact ⟨_, hfold, hr, sound_folded zones schedule hs hrepeats due following _ hactive
      hfollowing.mem (by omega)⟩
  · unfold AgentSchedule.Repeats at hrepeats
    push Not at hrepeats
    obtain ⟨civil, htiming⟩ := hrepeats
    refine ⟨_, advanceRow_once zones schedule hs civil due now htiming hactive hnext hdue, hr, ?_⟩
    refine ⟨fun h => (by cases h), fun h => absurd rfl h, fun _ => ?_⟩
    exact pendingAfter_pos zones schedule hs 1 (le_refl 1)

/-- Polling at each of some instants folds the same fires as one poll at the last. -/
theorem polls_advanceRow (polls : List Int) (now : Int) (hpolls : ∀ t ∈ polls, t ≤ now)
    (schedule : AgentSchedule) (hr : schedule.Regular zones) (hs : schedule.Sound zones) :
    ∃ row, (polls ++ [now]).foldlM (fun row t => advanceRow zones t row) schedule = some row ∧
      advanceRow zones now schedule = some row := by
  induction polls generalizing schedule with
  | nil =>
      obtain ⟨row, hrow, -⟩ := sound_advanceRow zones schedule hr hs now
      exact ⟨row, by simp [hrow], hrow⟩
  | cons t polls ih =>
      obtain ⟨middle, hmiddle, hr', hs'⟩ := sound_advanceRow zones schedule hr hs t
      obtain ⟨row, hrow, hlast⟩ :=
        ih (fun u hu => hpolls u (List.mem_cons_of_mem t hu)) middle hr' hs'
      refine ⟨row, ?_, ?_⟩
      · rw [List.cons_append, List.foldlM_cons, hmiddle]
        exact hrow
      · have htwice := advanceRow_advanceRow zones schedule hr hs t now
          (hpolls t List.mem_cons_self)
        rw [← htwice, hmiddle, Option.bind_some, hlast]

end Polls

end RcpGraph
