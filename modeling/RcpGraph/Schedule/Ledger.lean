import RcpGraph.Schedule.Fires

/-!
The fires behind a row: those that wait in its note and those that a wake has
reported. A row is accounted for when its columns agree with them.
-/

namespace RcpGraph

variable (zones : String → Zone)

/-- At most as many fires as are left. -/
def capFires (firesLeft : Option Int) (fires : List Int) : List Int :=
  match firesLeft with
  | none => fires
  | some left => fires.take left.toNat

/-- The fires an advance folds into the note of a row. -/
noncomputable def foldedFires (schedule : AgentSchedule) (now : Int) : List Int :=
  match schedule.state, schedule.nextFireAt with
  | .active, some due =>
      if due ≤ now then
        capFires schedule.firesLeft
          (Timetable.points (schedule.timetable zones due) due (schedule.finish zones now))
      else []
  | _, _ => []

section Folds

theorem length_capFires (firesLeft : Option Int) (fires : List Int)
    (hleft : ∀ left ∈ firesLeft, 0 ≤ left) :
    ((capFires firesLeft fires).length : Int) = countedFires firesLeft fires.length := by
  unfold capFires countedFires
  cases hl : firesLeft with
  | none => rfl
  | some left =>
      have := hleft left hl
      simp only [List.length_take, Option.map_some, Option.getD_some]
      omega

theorem mem_of_mem_capFires (firesLeft : Option Int) (fires : List Int) (fire : Int)
    (h : fire ∈ capFires firesLeft fires) : fire ∈ fires := by
  unfold capFires at h
  split at h
  · exact h
  · exact List.mem_of_mem_take h

theorem increasing_capFires (firesLeft : Option Int) (fires : List Int)
    (h : fires.Pairwise (· < ·)) : (capFires firesLeft fires).Pairwise (· < ·) := by
  unfold capFires
  split
  · exact h
  · exact h.take

theorem head_capFires (firesLeft : Option Int) (fires : List Int)
    (hleft : ∀ left ∈ firesLeft, 0 < left) : (capFires firesLeft fires).head? = fires.head? := by
  unfold capFires
  split
  next => rfl
  next left =>
    have := hleft left rfl
    rw [List.head?_take, if_neg (by omega)]

theorem foldedFires_quiet (schedule : AgentSchedule) (now : Int)
    (h : schedule.state = .active → ∀ due ∈ schedule.nextFireAt, now < due) :
    foldedFires zones schedule now = [] := by
  unfold foldedFires
  split
  next due hactive hnext => exact if_neg (not_le.mpr (h hactive due hnext))
  next => rfl

theorem foldedFires_due (schedule : AgentSchedule) (due now : Int)
    (hactive : schedule.state = .active) (hnext : schedule.nextFireAt = some due)
    (hdue : due ≤ now) :
    foldedFires zones schedule now = capFires schedule.firesLeft
      (Timetable.points (schedule.timetable zones due) due (schedule.finish zones now)) := by
  simp only [foldedFires, hactive, hnext, if_pos hdue]

end Folds

/-- A row agrees with the number of fires it was given, the fires reported and the fires
waiting. -/
structure Accounted (given : Option Nat) (reported waiting : List Int) (row : AgentSchedule) :
    Prop where
  regular : row.Regular zones
  sound : row.Sound zones
  once : ∀ civil, row.timing = .once civil → row.untilLocal = none ∧ row.firesLeft = none
  since : row.pendingSince = waiting.head?
  pending : waiting ≠ [] → row.pendingFires = some (waiting.length : Int)
  increasing : (reported ++ waiting).Pairwise (· < ·)
  ahead : row.state = .active → ∀ due ∈ row.nextFireAt, ∀ fire ∈ reported ++ waiting, fire < due
  /-- The note of an active schedule holds every fire from its first to the next one. -/
  gapless : row.state = .active → ∀ due ∈ row.nextFireAt, ∀ since ∈ row.pendingSince,
    due ∈ row.timetable zones since ∧
      row.pendingFires = some (Timetable.count (row.timetable zones since) since (due - 1) : Int)
  counted : ∀ n ∈ given, ∃ left, row.firesLeft = some left ∧ 0 ≤ left ∧
    (reported.length + waiting.length : Int) + left ≤ n

section Advance

variable {given : Option Nat} {reported waiting : List Int} {row : AgentSchedule}

theorem Accounted.since_lt (h : Accounted zones given reported waiting row)
    (hactive : row.state = .active) (due since : Int) (hdue : row.nextFireAt = some due)
    (hsince : row.pendingSince = some since) : since < due := by
  apply h.ahead hactive due hdue
  have hhead := h.since
  rw [hsince] at hhead
  exact List.mem_append_right _ (List.mem_of_mem_head? hhead.symm)

/-- The note of a schedule that is active after an advance has no gap. -/
theorem gapless_folded (h : Accounted zones given reported waiting row) (hrepeats : row.Repeats)
    (hactive : row.state = .active) (due now following : Int) (hnext : row.nextFireAt = some due)
    (hdue : due ≤ now)
    (hfollowing : Timetable.Next (row.timetable zones due) now following) (since : Int)
    (hsince : row.pendingSince.getD due = since) :
    following ∈ row.timetable zones since ∧
      pendingAfter row.pendingSince row.pendingFires
          (Timetable.count (row.timetable zones due) due now) =
        some (Timetable.count (row.timetable zones since) since (following - 1) : Int) := by
  have hlt := hfollowing.lt
  have hrest : Timetable.count (row.timetable zones due) due (following - 1) =
      Timetable.count (row.timetable zones due) due now :=
    Timetable.count_until_next hfollowing (by omega)
  cases hpending : row.pendingSince with
  | none =>
      rw [hpending, Option.getD_none] at hsince
      subst hsince
      refine ⟨hfollowing.mem, ?_⟩
      rw [hrest]
      rfl
  | some first =>
      rw [hpending, Option.getD_some] at hsince
      subst hsince
      obtain ⟨hdue', hcount⟩ := h.gapless hactive due hnext first hpending
      have hshift := timetable_shift zones row hrepeats first due hdue'
      have hfirst := h.since_lt zones hactive due first hnext hpending
      have hstep : Timetable.Next (row.timetable zones first) (due - 1) due :=
        ⟨⟨hdue', by omega⟩, fun i hi => by have := hi.2; omega⟩
      rw [hshift] at hrest hfollowing ⊢
      refine ⟨hfollowing.mem, ?_⟩
      have hsplit : Timetable.count (row.timetable zones first) first (following - 1) =
          Timetable.count (row.timetable zones first) first (due - 1) +
            Timetable.count (row.timetable zones first) due (following - 1) :=
        Timetable.count_split hstep (by omega) (by omega)
      rw [hsplit, hrest]
      simp only [pendingAfter, hcount, Option.map_some, Nat.cast_add]

/-- The note after an advance. -/
theorem note_append (h : Accounted zones given reported waiting row) (due : Int) (fires : List Int)
    (hfires : fires.head? = some due) :
    some (row.pendingSince.getD due) = (waiting ++ fires).head? ∧
      pendingAfter row.pendingSince row.pendingFires fires.length =
        some ((waiting ++ fires).length : Int) := by
  have hsince := h.since
  cases hwaiting : waiting with
  | nil =>
      rw [hwaiting, List.head?_nil] at hsince
      simp [hsince, hfires, pendingAfter]
  | cons first rest =>
      have hpending := h.pending (by simp [hwaiting])
      rw [hwaiting] at hsince hpending
      simp only [hsince, hpending, pendingAfter, List.head?_cons, Option.getD_some, List.cons_append,
        Option.map_some, List.length_cons, List.length_append, true_and, Option.some.injEq]
      push_cast
      omega

theorem increasing_append (h : Accounted zones given reported waiting row)
    (hactive : row.state = .active) (due : Int) (hnext : row.nextFireAt = some due)
    (fires : List Int) (hfires : fires.Pairwise (· < ·)) (hdue : ∀ fire ∈ fires, due ≤ fire) :
    (reported ++ (waiting ++ fires)).Pairwise (· < ·) := by
  rw [← List.append_assoc, List.pairwise_append]
  refine ⟨h.increasing, hfires, fun a ha b hb => ?_⟩
  have hbefore := h.ahead hactive due hnext a ha
  have hafter := hdue b hb
  omega

/-- An advance folds the due fires of a repeat into its note. -/
theorem accounted_folded (h : Accounted zones given reported waiting row) (hrepeats : row.Repeats)
    (hactive : row.state = .active) (due now following : Int) (hnext : row.nextFireAt = some due)
    (hdue : due ≤ now) (hfollowing : Timetable.Next (row.timetable zones due) now following) :
    Accounted zones given reported (waiting ++ foldedFires zones row now)
      (row.folded zones due following
        (Timetable.count (row.timetable zones due) due (row.finish zones now))) := by
  obtain ⟨due', hdue', hmem, huntil⟩ := h.sound.due hactive
  rw [hnext, Option.some.injEq] at hdue'
  subst hdue'
  have hfinish := row.le_finish zones due now hdue huntil
  have hpositive := Timetable.count_pos hmem hfinish
  have hleft := h.sound.left (by rw [hactive]; decide) (by rw [hactive]; decide)
  have hfires := foldedFires_due zones row due now hactive hnext hdue
  have hlength : ((foldedFires zones row now).length : Int) = countedFires row.firesLeft
      (Timetable.count (row.timetable zones due) due (row.finish zones now)) := by
    rw [hfires, length_capFires _ _ fun left hl => le_of_lt (hleft left hl),
      Timetable.length_points]
  have hhead : (foldedFires zones row now).head? = some due := by
    rw [hfires, head_capFires _ _ hleft, Timetable.head_points hmem hfinish]
  have hrange : ∀ fire ∈ foldedFires zones row now, due ≤ fire ∧ fire ≤ now := by
    intro fire hfire
    rw [hfires] at hfire
    have hpoint := Timetable.mem_points.mp (mem_of_mem_capFires _ _ _ hfire)
    exact ⟨hpoint.2.1, le_trans hpoint.2.2 (row.finish_le zones now)⟩
  have hincreasing : (foldedFires zones row now).Pairwise (· < ·) := by
    rw [hfires]
    exact increasing_capFires _ _ Timetable.points_increasing
  obtain ⟨hsince, hpending⟩ := note_append zones h due _ hhead
  rw [hlength] at hpending
  have hlt := hfollowing.lt
  refine ⟨h.regular, sound_folded zones row h.sound hrepeats due following _ hactive hfollowing.mem
    (by omega), fun civil htiming => absurd htiming (hrepeats civil), hsince, fun _ => hpending,
    increasing_append zones h hactive due hnext _ hincreasing fun fire hf => (hrange fire hf).1,
    ?_, ?_, ?_⟩
  case refine_1 =>
    intro hactive' next hnext' fire hfire
    have hwithin := within_of_folded zones row due following _ hactive'
    rw [(folded_active zones row due following _ hwithin).2, Option.mem_some_iff] at hnext'
    subst hnext'
    rw [← List.append_assoc, List.mem_append] at hfire
    rcases hfire with hfire | hfire
    · have := h.ahead hactive due hnext fire hfire
      omega
    · have := hrange fire hfire
      omega
  case refine_2 =>
    intro hactive' next hnext' since hsince'
    have hwithin := within_of_folded zones row due following _ hactive'
    rw [(folded_active zones row due following _ hwithin).2, Option.mem_some_iff] at hnext'
    subst hnext'
    obtain ⟨hmem', hcount⟩ := gapless_folded zones h hrepeats hactive due now following hnext hdue
      hfollowing since (Option.some.inj hsince')
    refine ⟨hmem', ?_⟩
    refine Eq.trans ?_ hcount
    change pendingAfter _ _ (countedFires _ _) = _
    rw [counted_of_within zones row following _ hwithin,
      finish_of_within zones row following _ hwithin now hlt]
  case refine_3 =>
    intro n hn
    obtain ⟨left, hl, hnonneg, hle⟩ := h.counted n hn
    refine ⟨left - (foldedFires zones row now).length, ?_, ?_, ?_⟩
    · rw [hlength]
      change row.firesLeft.map _ = _
      rw [hl]
      rfl
    · rw [hlength, hl]
      simp only [countedFires, Option.map_some, Option.getD_some]
      omega
    · rw [List.length_append]
      push_cast
      omega

/-- An advance folds a fire at a fixed time into its note. -/
theorem accounted_once (h : Accounted zones given reported waiting row) (civil : Int)
    (htiming : row.timing = .once civil) (hactive : row.state = .active) (due now : Int)
    (hnext : row.nextFireAt = some due) (hdue : due ≤ now) :
    Accounted zones given reported (waiting ++ foldedFires zones row now)
      (row.written (some (row.pendingSince.getD due))
        (pendingAfter row.pendingSince row.pendingFires 1) none row.firesLeft) := by
  obtain ⟨huntil, hleft⟩ := h.once civil htiming
  have hfires : foldedFires zones row now = [due] := by
    have hfinish : row.finish zones now = now := by
      simp [AgentSchedule.finish, AgentSchedule.until, huntil]
    rw [foldedFires_due zones row due now hactive hnext hdue, hleft, hfinish]
    apply Timetable.points_eq _ (List.pairwise_singleton _ _)
    intro i
    simp only [AgentSchedule.timetable, htiming, Set.mem_singleton_iff, List.mem_singleton]
    omega
  obtain ⟨hsince, hpending⟩ := note_append zones h due [due] rfl
  rw [hfires]
  refine ⟨h.regular, ⟨fun hdone => (by cases hdone), fun hdone => absurd rfl hdone, fun _ => ?_⟩,
    fun _ _ => ⟨huntil, hleft⟩, hsince, fun _ => hpending, increasing_append zones h hactive due
    hnext _ (List.pairwise_singleton _ _) (by simp), fun hdone => (by cases hdone),
    fun hdone => (by cases hdone), fun n hn => ?_⟩
  · exact pendingAfter_pos zones row h.sound 1 (le_refl 1)
  · obtain ⟨left, hl, -⟩ := h.counted n hn
    rw [hleft] at hl
    cases hl

/-- A row stays accounted for when it is advanced. -/
theorem accounted_advanceRow (h : Accounted zones given reported waiting row) (now : Int)
    (row' : AgentSchedule) (hrow : advanceRow zones now row = some row') :
    Accounted zones given reported (waiting ++ foldedFires zones row now) row' := by
  by_cases hquiet : row.state = .active → ∀ due ∈ row.nextFireAt, now < due
  · rw [advanceRow_quiet zones row now hquiet, Option.some.injEq] at hrow
    subst hrow
    rw [foldedFires_quiet zones row now hquiet, List.append_nil]
    exact h
  push Not at hquiet
  obtain ⟨hactive, due, hnext, hdue⟩ := hquiet
  rw [Option.mem_def] at hnext
  by_cases hrepeats : row.Repeats
  · obtain ⟨following, hfollowing, hfold⟩ :=
      advanceRow_due zones row h.regular h.sound hrepeats due now hactive hnext hdue
    rw [hfold, Option.some.injEq] at hrow
    subst hrow
    exact accounted_folded zones h hrepeats hactive due now following hnext hdue hfollowing
  · unfold AgentSchedule.Repeats at hrepeats
    push Not at hrepeats
    obtain ⟨civil, htiming⟩ := hrepeats
    rw [advanceRow_once zones row h.sound civil due now htiming hactive hnext hdue,
      Option.some.injEq] at hrow
    subst hrow
    exact accounted_once zones h civil htiming hactive due now hnext hdue

end Advance

/-- What a transaction leaves of a row: the request, and the end of a schedule. -/
structure Follows (row row' : AgentSchedule) : Prop where
  scheduleId : row'.scheduleId = row.scheduleId
  timing : row'.timing = row.timing
  timezone : row'.timezone = row.timezone
  untilLocal : row'.untilLocal = row.untilLocal
  cancelled : row.state = .cancelled → row'.state = .cancelled
  done : row.state = .done → row'.state = .cancelled ∨
    row'.state = .done ∧ (row'.pendingSince = none ∨
      row'.pendingSince = row.pendingSince ∧ row'.pendingFires = row.pendingFires)

namespace Follows

variable {row row' : AgentSchedule}

theorem refl (row : AgentSchedule) : Follows row row :=
  ⟨rfl, rfl, rfl, rfl, id, fun h => .inr ⟨h, .inr ⟨rfl, rfl⟩⟩⟩

theorem timetable (h : Follows row row') (due : Int) :
    row'.timetable zones due = row.timetable zones due := by
  rw [AgentSchedule.timetable, AgentSchedule.timetable, h.timing, h.timezone]

theorem until_eq (h : Follows row row') : row'.until zones = row.until zones := by
  rw [AgentSchedule.until, AgentSchedule.until, h.untilLocal, h.timezone]

end Follows

theorem follows_advanceRow (now : Int) (row row' : AgentSchedule)
    (h : advanceRow zones now row = some row') : Follows row row' := by
  unfold advanceRow at h
  split at h
  next due hactive hnext =>
    split at h
    next =>
      obtain ⟨⟨following, left, fired⟩, -, h⟩ := Option.bind_eq_some_iff.mp h
      simp only [Option.ite_none_right_eq_some, Option.some.injEq] at h
      rw [← h.2]
      refine ⟨rfl, rfl, rfl, rfl, fun hc => ?_, fun hc => ?_⟩
      · rw [hactive] at hc
        cases hc
      · rw [hactive] at hc
        cases hc
    next =>
      cases h
      exact .refl row
  next =>
    cases h
    exact .refl row

section Settle

variable {given : Option Nat} {reported waiting : List Int} {row row' : AgentSchedule}

/-- A row stays accounted for when a transaction empties its note: the waiting fires are
reported or dropped, and an active schedule goes on after the reported ones. -/
theorem Accounted.settle (h : Accounted zones given reported waiting row) (hf : Follows row row')
    (hleft : row'.firesLeft = row.firesLeft) (hsince : row'.pendingSince = none)
    (hlive : row'.state ≠ .done → row'.state ≠ .cancelled →
      row.state ≠ .done ∧ row.state ≠ .cancelled)
    (reported' : List Int) (hincreasing : reported'.Pairwise (· < ·))
    (hlength : reported'.length ≤ reported.length + waiting.length)
    (hdue : row'.state = .active → ∃ due, row'.nextFireAt = some due ∧
      due ∈ row.timetable zones due ∧ (∀ last ∈ row.until zones, due ≤ last) ∧
        ∀ fire ∈ reported', fire < due) :
    Accounted zones given reported' [] row' where
  regular := by
    have hregular := h.regular
    unfold AgentSchedule.Regular at hregular ⊢
    rw [hf.timing, hf.timezone]
    exact hregular
  sound := by
    refine ⟨fun hactive => ?_, fun hd hc => ?_, fun hsome => ?_⟩
    · obtain ⟨due, hnext, hmem, huntil, -⟩ := hdue hactive
      refine ⟨due, hnext, ?_, ?_⟩
      · rw [hf.timetable zones]
        exact hmem
      · rw [hf.until_eq zones]
        exact huntil
    · rw [hleft]
      exact h.sound.left (hlive hd hc).1 (hlive hd hc).2
    · simp [hsince] at hsome
  once := by
    intro civil htiming
    rw [hf.untilLocal, hleft]
    exact h.once civil (hf.timing ▸ htiming)
  since := hsince
  pending := fun hne => absurd rfl hne
  increasing := by
    rw [List.append_nil]
    exact hincreasing
  ahead := by
    intro hactive due hnext fire hfire
    obtain ⟨due', hnext', -, -, hahead⟩ := hdue hactive
    rw [hnext', Option.mem_some_iff] at hnext
    rw [List.append_nil] at hfire
    exact hnext ▸ hahead fire hfire
  gapless := by
    intro _ _ _ since hmem
    rw [hsince] at hmem
    cases hmem
  counted := by
    intro n hn
    obtain ⟨left, hl, hnonneg, hle⟩ := h.counted n hn
    refine ⟨left, hleft.trans hl, hnonneg, ?_⟩
    simp only [List.length_nil]
    omega

/-- A note that an advance answered, and the row it was read from as it is now. -/
structure Remembers (seen row : AgentSchedule) : Prop where
  timing : row.timing = seen.timing
  timezone : row.timezone = seen.timezone
  since : seen.pendingSince.isSome = true
  active : seen.state = .active → ∀ due ∈ seen.nextFireAt, ∀ since ∈ seen.pendingSince,
    seen.pendingFires = some (Timetable.count (seen.timetable zones since) since (due - 1) : Int)
  state : seen.state = .active ∨ seen.state = .done
  done : seen.state = .done → row.state = .cancelled ∨
    row.state = .done ∧ (row.pendingSince = none ∨ row.pendingFires = seen.pendingFires)

theorem Remembers.follows {seen : AgentSchedule} (h : Remembers zones seen row)
    (hf : Follows row row') : Remembers zones seen row' := by
  refine ⟨hf.timing.trans h.timing, hf.timezone.trans h.timezone, h.since, h.active, h.state, ?_⟩
  intro hdone
  rcases h.done hdone with hcancelled | ⟨hrow, hnote⟩
  · exact .inl (hf.cancelled hcancelled)
  · rcases hf.done hrow with hcancelled | ⟨hrow', hsame⟩
    · exact .inl hcancelled
    · refine .inr ⟨hrow', ?_⟩
      rcases hsame with hnone | ⟨hsince, hfires⟩
      · exact .inl hnone
      · rw [hsince, hfires]
        exact hnote

/-- A claim sees the fires that wait. -/
theorem Remembers.number {seen : AgentSchedule} (h : Remembers zones seen row)
    (ha : Accounted zones given reported waiting row)
    (hsame : (row.pendingSince, row.nextFireAt, row.state) =
      (seen.pendingSince, seen.nextFireAt, seen.state)) :
    seen.pendingFires = some (waiting.length : Int) := by
  rw [Prod.mk.injEq, Prod.mk.injEq] at hsame
  obtain ⟨hsince, hnext, hstate⟩ := hsame
  obtain ⟨since, hseen⟩ := Option.isSome_iff_exists.mp h.since
  have hwaiting : waiting ≠ [] := by
    rintro rfl
    have hnone := ha.since
    rw [hsince, hseen] at hnone
    cases hnone
  have hpending := ha.pending hwaiting
  rcases h.state with hactive | hdone
  · obtain ⟨due, hdue, -⟩ := ha.sound.due (hstate.trans hactive)
    have hrow := (ha.gapless (hstate.trans hactive) due hdue since (hsince.trans hseen)).2
    rw [h.active hactive due (hnext ▸ hdue) since hseen, ← hpending, hrow, AgentSchedule.timetable,
      AgentSchedule.timetable, h.timing, h.timezone]
  · rcases h.done hdone with hcancelled | ⟨-, hnone | hfires⟩
    · rw [hstate, hdone] at hcancelled
      cases hcancelled
    · rw [hsince, hseen] at hnone
      cases hnone
    · rw [← hfires, hpending]

/-- What an advance answers is what the rows hold. -/
theorem Accounted.remembers (h : Accounted zones given reported waiting row)
    (hsince : row.pendingSince.isSome = true) (hstate : row.state = .active ∨ row.state = .done) :
    Remembers zones row row :=
  ⟨rfl, rfl, hsince, fun hactive due hdue since hmem =>
    (h.gapless hactive due hdue since hmem).2, hstate, fun hdone => .inr ⟨hdone, .inr rfl⟩⟩

end Settle

end RcpGraph
