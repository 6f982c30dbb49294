import Mathlib.Data.Int.Order.Lemmas
import Mathlib.Data.List.Pairwise
import RcpGraph.Schedule.Zone

/-!
Zones as `zoneinfo` reads them: an offset that is constant between changes, and a
civil time read at the first instant that shows it. The occurrences of civil times
keep their order in such a zone, also where its clock skips or repeats a midnight.
-/

namespace RcpGraph

/-- Civil times are read at their first instant, and the clock shows none for the first time
after it has passed it. -/
structure Zone.Orderly (z : Zone) : Prop where
  first : ∀ i, z.Shown (z.clock i) ∧ z.instant (z.clock i) ≤ i
  onward : ∀ i j, z.clock j ≤ z.clock i → ∃ k ≤ i, z.clock k = z.clock j

/-- The offset in force at an instant, after the given changes of it. -/
def offsetAfter (offset : Int) : List (Int × Int) → Int → Int
  | [], _ => offset
  | (change, next) :: changes, i =>
      if i < change then offset else offsetAfter next changes i

/-- The offset of a civil time at its first fold. -/
def civilOffsetAfter (offset : Int) : List (Int × Int) → Int → Int
  | [], _ => offset
  | (change, next) :: changes, civil =>
      if civil < change + max offset next then offset else civilOffsetAfter next changes civil

/-- A zone's offset at first, and its changes in the order of time. -/
structure ZoneChanges where
  initial : Int
  changes : List (Int × Int)
  /-- The least and the greatest offset. -/
  low : Int
  high : Int
  initial_mem : low ≤ initial ∧ initial ≤ high
  changes_mem : ∀ change ∈ changes, low ≤ change.2 ∧ change.2 ≤ high
  /-- Changes are further apart than they can move the clock. -/
  apart : changes.Pairwise fun earlier later =>
    earlier.1 + (high - low) + microsecondsPerMinute ≤ later.1

section Changes

variable {low high : Int}

theorem offsetAfter_before {offset change next i : Int} (changes : List (Int × Int))
    (h : i < change) : offsetAfter offset ((change, next) :: changes) i = offset := if_pos h

theorem offsetAfter_past {offset change next i : Int} (changes : List (Int × Int))
    (h : ¬i < change) :
    offsetAfter offset ((change, next) :: changes) i = offsetAfter next changes i := if_neg h

theorem civilOffsetAfter_before {offset change next civil : Int} (changes : List (Int × Int))
    (h : civil < change + max offset next) :
    civilOffsetAfter offset ((change, next) :: changes) civil = offset := if_pos h

theorem civilOffsetAfter_past {offset change next civil : Int} (changes : List (Int × Int))
    (h : ¬civil < change + max offset next) :
    civilOffsetAfter offset ((change, next) :: changes) civil = civilOffsetAfter next changes civil :=
  if_neg h

theorem offsetAfter_eq (offset : Int) (changes : List (Int × Int)) (i : Int)
    (h : ∀ change ∈ changes, i < change.1) : offsetAfter offset changes i = offset := by
  cases changes with
  | nil => rfl
  | cons change changes =>
      rw [offsetAfter, if_pos (h change (List.mem_cons_self ..))]

theorem civilOffsetAfter_eq (offset : Int) (changes : List (Int × Int)) (civil : Int)
    (h : ∀ change ∈ changes, civil < change.1 + offset) :
    civilOffsetAfter offset changes civil = offset := by
  cases changes with
  | nil => rfl
  | cons change changes =>
      have := h change (List.mem_cons_self ..)
      rw [civilOffsetAfter, if_pos (by omega)]

theorem offsetAfter_mem (offset : Int) (changes : List (Int × Int)) (i : Int)
    (hoffset : low ≤ offset ∧ offset ≤ high)
    (hchanges : ∀ change ∈ changes, low ≤ change.2 ∧ change.2 ≤ high) :
    low ≤ offsetAfter offset changes i ∧ offsetAfter offset changes i ≤ high := by
  induction changes generalizing offset with
  | nil => exact hoffset
  | cons change changes ih =>
      rw [offsetAfter]
      split
      · exact hoffset
      · apply ih
        · exact hchanges _ (List.mem_cons_self ..)
        · intro later hlater
          exact hchanges later (List.mem_cons_of_mem _ hlater)

theorem civilOffsetAfter_mem (offset : Int) (changes : List (Int × Int)) (civil : Int)
    (hoffset : low ≤ offset ∧ offset ≤ high)
    (hchanges : ∀ change ∈ changes, low ≤ change.2 ∧ change.2 ≤ high) :
    low ≤ civilOffsetAfter offset changes civil ∧ civilOffsetAfter offset changes civil ≤ high := by
  induction changes generalizing offset with
  | nil => exact hoffset
  | cons change changes ih =>
      rw [civilOffsetAfter]
      split
      · exact hoffset
      · apply ih
        · exact hchanges _ (List.mem_cons_self ..)
        · intro later hlater
          exact hchanges later (List.mem_cons_of_mem _ hlater)

/-- Past a change, a civil time is read at an instant past the change. -/
theorem change_le_instant (change next : Int) (changes : List (Int × Int)) (civil : Int)
    (hnext : low ≤ next ∧ next ≤ high)
    (hchanges : ∀ later ∈ changes, low ≤ later.2 ∧ later.2 ≤ high)
    (hlater : ∀ later ∈ changes, change + (high - low) + microsecondsPerMinute ≤ later.1)
    (hcivil : change + next ≤ civil) :
    change ≤ civil - civilOffsetAfter next changes civil := by
  by_cases hpast : ∀ later ∈ changes, civil < later.1 + next
  · rw [civilOffsetAfter_eq next changes civil hpast]
    omega
  · simp only [not_forall, not_lt] at hpast
    obtain ⟨later, hmem, hle⟩ := hpast
    have hgap := hlater later hmem
    have hoffset := civilOffsetAfter_mem next changes civil hnext hchanges
    simp only [microsecondsPerMinute] at hgap
    omega

/-- A clock that shows less than right after a change has not come past it. -/
theorem offsetAfter_le (change next : Int) (changes : List (Int × Int)) (i : Int)
    (hnext : low ≤ next ∧ next ≤ high)
    (hchanges : ∀ later ∈ changes, low ≤ later.2 ∧ later.2 ≤ high)
    (hlater : ∀ later ∈ changes, change + (high - low) + microsecondsPerMinute ≤ later.1)
    (hi : change ≤ i) : change + next ≤ i + offsetAfter next changes i := by
  by_cases hpast : ∀ later ∈ changes, i < later.1
  · rw [offsetAfter_eq next changes i hpast]
    omega
  · simp only [not_forall, not_lt] at hpast
    obtain ⟨later, hmem, hle⟩ := hpast
    have hgap := hlater later hmem
    have hoffset := offsetAfter_mem next changes i hnext hchanges
    simp only [microsecondsPerMinute] at hgap
    omega

theorem first_changes (offset : Int) (changes : List (Int × Int))
    (hoffset : low ≤ offset ∧ offset ≤ high)
    (hchanges : ∀ change ∈ changes, low ≤ change.2 ∧ change.2 ≤ high)
    (hapart : changes.Pairwise fun earlier later =>
      earlier.1 + (high - low) + microsecondsPerMinute ≤ later.1)
    (i civil : Int) (hcivil : i + offsetAfter offset changes i = civil) :
    offsetAfter offset changes (civil - civilOffsetAfter offset changes civil) =
        civilOffsetAfter offset changes civil ∧
      civil - civilOffsetAfter offset changes civil ≤ i := by
  induction changes generalizing offset with
  | nil =>
      rw [offsetAfter] at hcivil
      rw [offsetAfter, civilOffsetAfter]
      exact ⟨rfl, by omega⟩
  | cons entry changes ih =>
      obtain ⟨change, next⟩ := entry
      obtain ⟨hlater, hapart⟩ := List.pairwise_cons.mp hapart
      have hnext := hchanges _ (List.mem_cons_self ..)
      have hchanges : ∀ later ∈ changes, low ≤ later.2 ∧ later.2 ≤ high := by
        intro later hmem
        exact hchanges later (List.mem_cons_of_mem _ hmem)
      by_cases hi : i < change
      · rw [offsetAfter_before changes hi] at hcivil
        rw [civilOffsetAfter_before changes (by omega), offsetAfter_before changes (by omega)]
        omega
      · rw [offsetAfter_past changes hi] at hcivil
        have hshown := offsetAfter_le change next changes i hnext hchanges hlater (by omega)
        by_cases hfold : civil < change + max offset next
        · rw [civilOffsetAfter_before changes hfold, offsetAfter_before changes (by omega)]
          omega
        · have hpast := change_le_instant change next changes civil hnext hchanges hlater (by omega)
          rw [civilOffsetAfter_past changes hfold, offsetAfter_past changes (by omega)]
          exact ih next hnext hchanges hapart hcivil

theorem onward_changes (offset : Int) (changes : List (Int × Int))
    (hoffset : low ≤ offset ∧ offset ≤ high)
    (hchanges : ∀ change ∈ changes, low ≤ change.2 ∧ change.2 ≤ high)
    (hapart : changes.Pairwise fun earlier later =>
      earlier.1 + (high - low) + microsecondsPerMinute ≤ later.1)
    (i j : Int) (h : j + offsetAfter offset changes j ≤ i + offsetAfter offset changes i) :
    ∃ k ≤ i, k + offsetAfter offset changes k = j + offsetAfter offset changes j := by
  induction changes generalizing offset with
  | nil =>
      simp only [offsetAfter] at h ⊢
      exact ⟨j, by omega, rfl⟩
  | cons entry changes ih =>
      obtain ⟨change, next⟩ := entry
      obtain ⟨hlater, hapart⟩ := List.pairwise_cons.mp hapart
      have hnext := hchanges _ (List.mem_cons_self ..)
      have hchanges : ∀ later ∈ changes, low ≤ later.2 ∧ later.2 ≤ high := by
        intro later hmem
        exact hchanges later (List.mem_cons_of_mem _ hmem)
      by_cases hji : j ≤ i
      · exact ⟨j, hji, rfl⟩
      · by_cases hi : i < change
        · rw [offsetAfter_before changes hi] at h
          by_cases hj : j < change
          · rw [offsetAfter_before changes hj] at h
            omega
          · -- The clock showed it before the change already.
            rw [offsetAfter_past changes hj] at h ⊢
            refine ⟨j + offsetAfter next changes j - offset, by omega, ?_⟩
            rw [offsetAfter_before changes (by omega)]
            omega
        · have hj : ¬j < change := by omega
          rw [offsetAfter_past changes hi, offsetAfter_past changes hj] at h
          obtain ⟨k, hk, hclock⟩ := ih next hnext hchanges hapart h
          have hshown := offsetAfter_le change next changes j hnext hchanges hlater (by omega)
          have hback : ¬k < change := by
            intro hback
            rw [offsetAfter_eq next changes k] at hclock
            · omega
            · intro later hmem
              have hgap := hlater later hmem
              simp only [microsecondsPerMinute] at hgap
              omega
          exact ⟨k, hk, by rw [offsetAfter_past changes hback, offsetAfter_past changes hj, hclock]⟩

theorem settles_changes (offset : Int) (changes : List (Int × Int))
    (hoffset : low ≤ offset ∧ offset ≤ high)
    (hchanges : ∀ change ∈ changes, low ≤ change.2 ∧ change.2 ≤ high)
    (hapart : changes.Pairwise fun earlier later =>
      earlier.1 + (high - low) + microsecondsPerMinute ≤ later.1) (start : Int) :
    ∃ k : Nat, k ≤ ((high - low) / microsecondsPerMinute).toNat + 1 ∧
      offsetAfter offset changes (start + k * microsecondsPerMinute -
          civilOffsetAfter offset changes (start + k * microsecondsPerMinute)) =
        civilOffsetAfter offset changes (start + k * microsecondsPerMinute) := by
  induction changes generalizing offset with
  | nil => exact ⟨0, Nat.zero_le _, rfl⟩
  | cons entry changes ih =>
      obtain ⟨change, next⟩ := entry
      obtain ⟨hlater, hapart⟩ := List.pairwise_cons.mp hapart
      have hnext := hchanges _ (List.mem_cons_self ..)
      have hchanges : ∀ later ∈ changes, low ≤ later.2 ∧ later.2 ≤ high := by
        intro later hmem
        exact hchanges later (List.mem_cons_of_mem _ hmem)
      by_cases hbefore : start < change + offset
      · refine ⟨0, Nat.zero_le _, ?_⟩
        rw [Int.natCast_zero, zero_mul, add_zero, civilOffsetAfter_before changes (by omega),
          offsetAfter_before changes (by omega)]
      · by_cases hgap : start < change + max offset next
        · -- The first whole minute at the end of the gap.
          obtain ⟨k, hk, hfrom, hto⟩ : ∃ k : Nat,
              k ≤ ((high - low) / microsecondsPerMinute).toNat + 1 ∧
                change + next ≤ start + k * microsecondsPerMinute ∧
                start + k * microsecondsPerMinute < change + next + microsecondsPerMinute := by
            refine ⟨((change + next - start - 1) / microsecondsPerMinute).toNat + 1, ?_, ?_, ?_⟩
            · simp only [microsecondsPerMinute]
              omega
            · simp only [microsecondsPerMinute]
              omega
            · simp only [microsecondsPerMinute]
              omega
          refine ⟨k, hk, ?_⟩
          generalize start + k * microsecondsPerMinute = civil at hfrom hto ⊢
          have hread : civilOffsetAfter next changes civil = next := by
            apply civilOffsetAfter_eq
            intro later hmem
            have := hlater later hmem
            omega
          rw [civilOffsetAfter_past changes (by omega), hread, offsetAfter_past changes (by omega)]
          apply offsetAfter_eq
          intro later hmem
          have := hlater later hmem
          omega
        · obtain ⟨k, hk, hread⟩ := ih next hnext hchanges hapart
          have hfrom : start ≤ start + (k : Int) * microsecondsPerMinute := by
            simp only [microsecondsPerMinute]
            omega
          have hpast := change_le_instant change next changes
            (start + (k : Int) * microsecondsPerMinute) hnext hchanges hlater (by omega)
          refine ⟨k, hk, ?_⟩
          rw [civilOffsetAfter_past changes (by omega), offsetAfter_past changes (by omega)]
          exact hread

end Changes

/-- The zone of a list of changes. -/
def ZoneChanges.zone (data : ZoneChanges) : Zone where
  offset := offsetAfter data.initial data.changes
  civilOffset := civilOffsetAfter data.initial data.changes
  longestGap := ((data.high - data.low) / microsecondsPerMinute).toNat + 1
  settles := settles_changes data.initial data.changes data.initial_mem data.changes_mem data.apart

/-- Every piecewise constant offset makes an orderly zone. -/
theorem ZoneChanges.orderly (data : ZoneChanges) : data.zone.Orderly := by
  constructor
  · intro i
    obtain ⟨hread, hfirst⟩ := first_changes data.initial data.changes data.initial_mem
      data.changes_mem data.apart i (data.zone.clock i) rfl
    exact ⟨(data.zone.shown_iff _).mpr hread, hfirst⟩
  · intro i j h
    exact onward_changes data.initial data.changes data.initial_mem data.changes_mem data.apart i j h

theorem orderly_fixed (offset : Int) : (Zone.fixed offset).Orderly := by
  have hclock : ∀ i, (Zone.fixed offset).clock i = i + offset := fun _ => rfl
  have hinstant : ∀ civil, (Zone.fixed offset).instant civil = civil - offset := fun _ => rfl
  constructor
  · intro i
    rw [Zone.Shown, hclock, hinstant, hclock]
    omega
  · intro i j h
    rw [hclock, hclock] at h
    exact ⟨j, by omega, rfl⟩

/-- One change of the offset. -/
def ZoneChanges.once (change before after : Int) : ZoneChanges where
  initial := before
  changes := [(change, after)]
  low := min before after
  high := max before after
  initial_mem := by omega
  changes_mem := by
    intro entry hmem
    rw [List.mem_singleton.mp hmem]
    omega
  apart := List.pairwise_singleton ..

namespace Zone

variable (z : Zone)

/-- The search for a shown minute skips none. -/
theorem firstShown_spec (n : Nat) (civil : Int) :
    ∃ k ≤ n, z.firstShown n civil = civil + k * microsecondsPerMinute ∧
      ∀ j < k, ¬z.Shown (civil + j * microsecondsPerMinute) := by
  induction n generalizing civil with
  | zero => exact ⟨0, Nat.le_refl 0, by simp [firstShown], by simp⟩
  | succ n ih =>
      rw [firstShown]
      split
      · exact ⟨0, Nat.zero_le _, by simp, by simp⟩
      next hnot =>
        obtain ⟨k, hk, heq, hnone⟩ := ih (civil + microsecondsPerMinute)
        have hshift : ∀ j : Nat, civil + microsecondsPerMinute + (j : Int) * microsecondsPerMinute =
            civil + ((j + 1 : Nat) : Int) * microsecondsPerMinute := by
          intro j
          simp only [microsecondsPerMinute]
          omega
        refine ⟨k + 1, by omega, ?_, ?_⟩
        · rw [heq, hshift]
        · intro j hj
          cases j with
          | zero => simpa using hnot
          | succ j =>
              rw [← hshift]
              exact hnone j (by omega)

/-- The civil time that an occurrence is moved to. -/
def landing (d : Int) (minute : Nat) : Int := z.firstShown z.longestGap (civilTime d minute)

theorem shown_landing (d : Int) (minute : Nat) : z.Shown (z.landing d minute) :=
  z.shown_occurrenceAt d minute

theorem clock_occurrenceAt (d : Int) (minute : Nat) :
    z.clock (z.occurrenceAt d minute) = z.landing d minute :=
  z.shown_landing d minute

theorem landing_spec (d : Int) (minute : Nat) : ∃ k : Nat,
    z.landing d minute = civilTime d minute + k * microsecondsPerMinute ∧
      ∀ j < k, ¬z.Shown (civilTime d minute + j * microsecondsPerMinute) := by
  obtain ⟨k, -, heq, hnone⟩ := z.firstShown_spec z.longestGap (civilTime d minute)
  exact ⟨k, heq, hnone⟩

theorem civilTime_le_landing (d : Int) (minute : Nat) :
    civilTime d minute ≤ z.landing d minute := by
  obtain ⟨k, heq, -⟩ := z.landing_spec d minute
  simp only [microsecondsPerMinute] at heq
  omega

/-- A whole minute on the clock. -/
def OnMinute (civil : Int) : Prop := civil % microsecondsPerMinute = 0

theorem onMinute_civilTime (d : Int) (minute : Nat) : OnMinute (civilTime d minute) := by
  simp only [OnMinute, civilTime, midnight, microsecondsPerDay, microsecondsPerMinute]
  omega

theorem onMinute_landing (d : Int) (minute : Nat) : OnMinute (z.landing d minute) := by
  obtain ⟨k, heq, -⟩ := z.landing_spec d minute
  have hcivil := onMinute_civilTime d minute
  simp only [OnMinute, microsecondsPerMinute] at heq hcivil ⊢
  omega

/-- A shown minute is no earlier than where an earlier one lands. -/
theorem landing_le (d : Int) (minute : Nat) (civil : Int) (hshown : z.Shown civil)
    (hminute : OnMinute civil) (h : civilTime d minute ≤ civil) : z.landing d minute ≤ civil := by
  obtain ⟨k, heq, hnone⟩ := z.landing_spec d minute
  by_contra hlate
  apply hnone ((civil - civilTime d minute) / microsecondsPerMinute).toNat
  · simp only [microsecondsPerMinute] at heq ⊢
    omega
  · have hcivil := onMinute_civilTime d minute
    have hsame : civilTime d minute +
        (((civil - civilTime d minute) / microsecondsPerMinute).toNat : Int) *
          microsecondsPerMinute = civil := by
      simp only [OnMinute, microsecondsPerMinute] at hminute hcivil ⊢
      omega
    rw [hsame]
    exact hshown

variable (hz : z.Orderly)

include hz

theorem instant_mono (c c' : Int) (hc : z.Shown c) (hc' : z.Shown c') (h : c ≤ c') :
    z.instant c ≤ z.instant c' := by
  obtain ⟨k, hk, hclock⟩ := hz.onward (z.instant c') (z.instant c) (by rw [hc, hc']; exact h)
  have hfirst := (hz.first k).2
  rw [hclock, hc] at hfirst
  omega

/-- Occurrences are in the order of their civil times. -/
theorem occurrenceAt_mono (d d' : Int) (minute minute' : Nat)
    (h : civilTime d minute ≤ civilTime d' minute') :
    z.occurrenceAt d minute ≤ z.occurrenceAt d' minute' := by
  apply z.instant_mono hz
  · exact z.shown_occurrenceAt d minute
  · exact z.shown_occurrenceAt d' minute'
  · apply z.landing_le d minute _ (z.shown_occurrenceAt d' minute') (z.onMinute_landing d' minute')
    have := z.civilTime_le_landing d' minute'
    exact le_trans h this

/-- Where the clock is on a whole minute, every civil time up to it has occurred. -/
theorem occurrenceAt_le (i d : Int) (minute : Nat) (hi : OnMinute (z.clock i))
    (h : civilTime d minute ≤ z.clock i) : z.occurrenceAt d minute ≤ i := by
  obtain ⟨hshown, hfirst⟩ := hz.first i
  have hle := z.landing_le d minute (z.clock i) hshown hi h
  have hmono := z.instant_mono hz _ _ (z.shown_landing d minute) hshown hle
  exact le_trans hmono hfirst

end Zone

section Steady

theorem steady_fixed (offset : Int) : (Zone.fixed offset).Steady := by
  have hclock : ∀ i, (Zone.fixed offset).clock i = i + offset := fun _ => rfl
  have hinstant : ∀ civil, (Zone.fixed offset).instant civil = civil - offset := fun _ => rfl
  constructor
  · intro i j h
    exact Int.ediv_le_ediv (by decide) (by rw [hclock, hclock]; omega)
  · intro d minute hminute
    rw [Zone.date, hclock, occurrenceAt_fixed, Zone.civilTime, Zone.midnight]
    simp only [minutesPerDay, microsecondsPerDay, microsecondsPerMinute] at hminute ⊢
    omega
  · intro d m n h _
    rw [occurrenceAt_fixed, occurrenceAt_fixed, Zone.civilTime, Zone.civilTime]
    simp only [microsecondsPerMinute]
    omega
  · intro i minute h
    rw [Zone.minuteOfDay, hclock] at h
    rw [occurrenceAt_fixed, Zone.civilTime, Zone.midnight, Zone.date, hclock]
    simp only [microsecondsPerDay, microsecondsPerMinute] at h ⊢
    omega
  · intro d _ minute _
    rw [occurrenceAt_fixed, hinstant, Zone.civilTime]
    omega

variable {change before after : Int}

theorem once_offset (i : Int) : (ZoneChanges.once change before after).zone.offset i =
    if i < change then before else after := rfl

theorem once_civilOffset (civil : Int) :
    (ZoneChanges.once change before after).zone.civilOffset civil =
      if civil < change + max before after then before else after := rfl

/-- Only the times in the gap of a change are not shown. -/
theorem once_shown_iff (civil : Int) : (ZoneChanges.once change before after).zone.Shown civil ↔
    civil < change + before ∨ change + after ≤ civil := by
  rw [Zone.shown_iff, once_offset, once_civilOffset]
  split
  · split
    · omega
    · constructor
      · intro heq
        omega
      · omega
  · split
    · omega
    · omega

variable (hbefore : Zone.OnMinute (change + before)) (hafter : Zone.OnMinute (change + after))

include hafter

/-- The times in the gap land at its end, and the others stay. -/
theorem once_landing (d : Int) (minute : Nat) :
    (ZoneChanges.once change before after).zone.landing d minute =
      if change + before ≤ Zone.civilTime d minute ∧ Zone.civilTime d minute < change + after then
        change + after
      else Zone.civilTime d minute := by
  have hfrom := (ZoneChanges.once change before after).zone.civilTime_le_landing d minute
  have hshown := (ZoneChanges.once change before after).zone.shown_landing d minute
  rw [once_shown_iff] at hshown
  split
  · rename_i hgap
    have hend := (ZoneChanges.once change before after).zone.landing_le d minute (change + after)
      ((once_shown_iff _).mpr (by omega)) hafter (by omega)
    omega
  · have hstay := (ZoneChanges.once change before after).zone.landing_le d minute
      (Zone.civilTime d minute) ((once_shown_iff _).mpr (by omega))
      (Zone.onMinute_civilTime d minute) le_rfl
    omega

include hbefore

/-- A change on whole minutes that stays within a date leaves the zone steady. -/
theorem once_steady
    (hdate : (change + before) / microsecondsPerDay = (change + after) / microsecondsPerDay) :
    (ZoneChanges.once change before after).zone.Steady := by
  have horderly := (ZoneChanges.once change before after).orderly
  have hclock : ∀ i, (ZoneChanges.once change before after).zone.clock i =
      i + if i < change then before else after := fun _ => rfl
  have hday : ∀ d, ∀ minute < minutesPerDay, Zone.civilTime d minute / microsecondsPerDay = d := by
    intro d minute hminute
    rw [Zone.civilTime, Zone.midnight]
    simp only [minutesPerDay, microsecondsPerDay, microsecondsPerMinute] at hminute ⊢
    omega
  constructor
  · intro i j h
    rw [Zone.date, Zone.date, hclock, hclock]
    simp only [microsecondsPerDay] at hdate ⊢
    split
    · split <;> omega
    · split <;> omega
  · intro d minute hminute
    rw [Zone.date, Zone.clock_occurrenceAt, once_landing hafter]
    have hd := hday d minute hminute
    simp only [microsecondsPerDay] at hdate hd ⊢
    split
    · omega
    · exact hd
  · intro d m n h _
    apply Zone.occurrenceAt_mono _ horderly
    rw [Zone.civilTime, Zone.civilTime]
    simp only [microsecondsPerMinute]
    omega
  · intro i minute h
    -- The minute on the clock began on the same side of the change.
    have hback : ∃ j ≤ i, Zone.OnMinute ((ZoneChanges.once change before after).zone.clock j) ∧
        (ZoneChanges.once change before after).zone.clock i -
          (ZoneChanges.once change before after).zone.clock j < microsecondsPerMinute := by
      refine ⟨i - (ZoneChanges.once change before after).zone.clock i % microsecondsPerMinute,
        ?_, ?_, ?_⟩
      · simp only [microsecondsPerMinute]
        omega
      · rw [hclock, hclock]
        simp only [Zone.OnMinute, microsecondsPerMinute] at hbefore hafter ⊢
        split <;> split <;> omega
      · rw [hclock, hclock]
        simp only [Zone.OnMinute, microsecondsPerMinute] at hbefore hafter ⊢
        split <;> split <;> omega
    obtain ⟨j, hj, hminute, hclose⟩ := hback
    refine le_trans (Zone.occurrenceAt_le _ horderly j _ minute hminute ?_) hj
    rw [Zone.minuteOfDay] at h
    rw [Zone.civilTime, Zone.midnight, Zone.date]
    simp only [Zone.OnMinute, microsecondsPerDay, microsecondsPerMinute] at h hminute hclose ⊢
    omega
  · intro d hsame minute hminute
    have hd := hday d minute hminute
    have hmidnight : Zone.midnight d ≤ Zone.civilTime d minute ∧
        Zone.civilTime d minute < Zone.midnight (d + 1) := by
      simp only [Zone.civilTime, Zone.midnight, minutesPerDay, microsecondsPerDay,
        microsecondsPerMinute] at hminute ⊢
      omega
    have hnext : Zone.midnight (d + 1) / microsecondsPerDay = d + 1 := by
      rw [Zone.midnight]
      simp only [microsecondsPerDay]
      omega
    have hstays : ¬(change + before ≤ Zone.civilTime d minute ∧
        Zone.civilTime d minute < change + after) ∧
      (ZoneChanges.once change before after).zone.civilOffset (Zone.civilTime d minute) =
        (ZoneChanges.once change before after).zone.civilOffset (Zone.midnight d) := by
      rw [once_civilOffset, once_civilOffset] at hsame ⊢
      by_cases hequal : before = after
      · subst hequal
        exact ⟨by omega, by rw [ite_self, ite_self]⟩
      · by_cases hlast : Zone.midnight (d + 1) < change + max before after
        · rw [if_pos (by omega), if_pos (by omega)]
          refine ⟨?_, rfl⟩
          rintro ⟨hgap, -⟩
          simp only [microsecondsPerDay] at hdate hd hnext
          omega
        · by_cases hfirst : Zone.midnight d < change + max before after
          · rw [if_pos hfirst, if_neg hlast] at hsame
            exact absurd hsame hequal
          · rw [if_neg (by omega), if_neg (by omega)]
            exact ⟨by omega, rfl⟩
    have hoccurs : (ZoneChanges.once change before after).zone.occurrenceAt d minute =
        (ZoneChanges.once change before after).zone.instant
          ((ZoneChanges.once change before after).zone.landing d minute) := rfl
    rw [hoccurs, once_landing hafter, if_neg hstays.1, Zone.instant, hstays.2, Zone.instant,
      Zone.civilTime]
    omega

end Steady

end RcpGraph
