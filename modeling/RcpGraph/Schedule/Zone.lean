import Mathlib.Data.Int.Order.Basic

/-!
Time zones and civil occurrences. Instants and civil times are microseconds since
the epoch, the civil ones on the zone's own clock; a date is the number of its day.
-/

namespace RcpGraph

def microsecondsPerSecond : Int := 1000000

def microsecondsPerMinute : Int := 60000000

def minutesPerDay : Nat := 1440

def microsecondsPerDay : Int := 86400000000

/-- A `ZoneInfo`: the offset in force at an instant, and the offset a civil time is read
with at its first fold. A gap of the clock is at most `longestGap` minutes long. -/
structure Zone where
  offset : Int → Int
  civilOffset : Int → Int
  longestGap : Nat
  settles : ∀ civil, ∃ k ≤ longestGap,
    offset (civil + k * microsecondsPerMinute - civilOffset (civil + k * microsecondsPerMinute)) =
      civilOffset (civil + k * microsecondsPerMinute)

namespace Zone

/-- The clock of the zone at an instant. -/
def clock (z : Zone) (i : Int) : Int := i + z.offset i

def date (z : Zone) (i : Int) : Int := z.clock i / microsecondsPerDay

/-- Hour and minute of the zone's clock, in minutes. -/
def minuteOfDay (z : Zone) (i : Int) : Nat :=
  (z.clock i % microsecondsPerDay / microsecondsPerMinute).toNat

/-- The instant of a civil time, at its first fold. -/
def instant (z : Zone) (civil : Int) : Int := civil - z.civilOffset civil

/-- The clock shows this civil time at its instant; a time in a gap is never shown. -/
def Shown (z : Zone) (civil : Int) : Prop := z.clock (z.instant civil) = civil

instance (z : Zone) (civil : Int) : Decidable (z.Shown civil) :=
  inferInstanceAs (Decidable (z.clock (z.instant civil) = civil))

def midnight (d : Int) : Int := d * microsecondsPerDay

def civilTime (d : Int) (minute : Nat) : Int := midnight d + minute * microsecondsPerMinute

/-- The first minute from a civil time on that the clock shows. -/
def firstShown (z : Zone) : Nat → Int → Int
  | 0, civil => civil
  | n + 1, civil => if z.Shown civil then civil else z.firstShown n (civil + microsecondsPerMinute)

/-- `occurrence_at`. -/
def occurrenceAt (z : Zone) (d : Int) (minute : Nat) : Int :=
  z.instant (z.firstShown z.longestGap (civilTime d minute))

theorem shown_iff (z : Zone) (civil : Int) :
    z.Shown civil ↔ z.offset (civil - z.civilOffset civil) = z.civilOffset civil := by
  unfold Shown clock instant
  omega

/-- The search for a shown minute ends with one. -/
theorem shown_firstShown (z : Zone) (n : Nat) (civil : Int)
    (h : ∃ k ≤ n, z.Shown (civil + k * microsecondsPerMinute)) : z.Shown (z.firstShown n civil) := by
  induction n generalizing civil with
  | zero =>
      obtain ⟨k, hk, hshown⟩ := h
      rw [Nat.le_zero.mp hk] at hshown
      simpa [firstShown] using hshown
  | succ n ih =>
      rw [firstShown]
      split
      next hshown => exact hshown
      next hnot =>
        apply ih
        obtain ⟨k, hk, hshown⟩ := h
        cases k with
        | zero => exact absurd (by simpa using hshown) hnot
        | succ k =>
            have hsame : civil + microsecondsPerMinute + (k : Int) * microsecondsPerMinute =
                civil + ((k + 1 : Nat) : Int) * microsecondsPerMinute := by
              simp only [microsecondsPerMinute]
              omega
            exact ⟨k, by omega, hsame ▸ hshown⟩

/-- An occurrence is at an instant whose clock shows it. -/
theorem shown_occurrenceAt (z : Zone) (d : Int) (minute : Nat) :
    z.Shown (z.firstShown z.longestGap (civilTime d minute)) := by
  apply z.shown_firstShown
  obtain ⟨k, hk, hsettles⟩ := z.settles (civilTime d minute)
  exact ⟨k, hk, (z.shown_iff _).mpr hsettles⟩

/-- No change of the offset carries the clock over a midnight, or changes it twice a day. -/
structure Steady (z : Zone) : Prop where
  /-- The date never steps back. -/
  date_mono : ∀ i j, i ≤ j → z.date i ≤ z.date j
  /-- A time in a gap occurs on its own date. -/
  keeps : ∀ d minute, minute < minutesPerDay → z.date (z.occurrenceAt d minute) = d
  /-- The occurrences of a day are in the order of their times. -/
  ordered : ∀ d m n, m ≤ n → n < minutesPerDay → z.occurrenceAt d m ≤ z.occurrenceAt d n
  /-- A time that the clock shows has occurred, with every earlier one of the date. -/
  passed : ∀ i minute, minute ≤ z.minuteOfDay i → z.occurrenceAt (z.date i) minute ≤ i
  /-- A day that begins and ends at one offset keeps it. -/
  whole : ∀ d, z.civilOffset (midnight d) = z.civilOffset (midnight (d + 1)) →
    ∀ minute < minutesPerDay,
      z.occurrenceAt d minute = z.instant (midnight d) + minute * microsecondsPerMinute

end Zone

/-- A zone whose offset never changes. -/
def Zone.fixed (offset : Int) : Zone where
  offset := fun _ => offset
  civilOffset := fun _ => offset
  longestGap := 0
  settles := fun _ => ⟨0, Nat.le_refl 0, rfl⟩

theorem occurrenceAt_fixed (offset d : Int) (minute : Nat) :
    (Zone.fixed offset).occurrenceAt d minute = Zone.civilTime d minute - offset := rfl

end RcpGraph
