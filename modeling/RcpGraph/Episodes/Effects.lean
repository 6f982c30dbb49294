import RcpGraph.Episodes.Answers

/-!
What each transaction does to the episodes and the questions of the store.
-/

namespace RcpGraph.Episodes

open Crash

/-- Each episode and each question has moved along its life. -/
structure Moved (d : Digests) (strays : Prop) (reopens : String → Question → Prop)
    (s t : Store) : Prop where
  slots : ∀ id, Slot.Move strays (s.slot id) (t.slot id)
  questions : ∀ id, QuestionMove d id (reopens id) (s.questions.get? id) (t.questions.get? id)

variable {d : Digests} {strays : Prop} {reopens : String → Question → Prop} {s : Store}

theorem Moved.refl (s : Store) : Moved d strays reopens s s where
  slots := fun _ => .stay _
  questions := fun _ => .stay _

/-- Tables that neither slots nor questions read. -/
theorem Moved.of_eq {t : Store} (hslot : t.slot = s.slot) (hq : t.questions = s.questions) :
    Moved d strays reopens s t where
  slots := fun id => by
    rw [hslot]
    exact .stay _
  questions := fun id => by
    rw [hq]
    exact .stay _

/-- A transaction on one question. -/
theorem Moved.of_question {id : String} {q : Question}
    (hq : QuestionMove d id (reopens id) (s.questions.get? id) (some q)) :
    Moved d strays reopens s { s with questions := s.questions.insert id q } where
  slots := fun _ => .stay _
  questions := by
    intro x
    rw [Dict.get?_insert]
    by_cases hx : x = id
    · rw [if_pos hx, hx]
      exact hq
    · rw [if_neg hx]
      exact .stay _

theorem slots_at {t : Store} (id : String) (hmove : Slot.Move strays (s.slot id) (t.slot id))
    (hother : ∀ x, x ≠ id → t.slot x = s.slot x) (x : String) :
    Slot.Move strays (s.slot x) (t.slot x) := by
  by_cases hx : x = id
  · rw [hx]
    exact hmove
  · rw [hother x hx]
    exact .stay _

/-- Only whether a question is withdrawn differs. -/
def Flagged (s t : Store) : Prop :=
  ∀ id, (s.questions.get? id = none ∧ t.questions.get? id = none) ∨
    ∃ q b, s.questions.get? id = some q ∧
      t.questions.get? id = some { q with withdrawnReadonly := b }

theorem Flagged.refl (s : Store) : Flagged s s := by
  intro id
  cases h : s.questions.get? id with
  | none => exact Or.inl ⟨rfl, rfl⟩
  | some q => exact Or.inr ⟨q, q.withdrawnReadonly, rfl, rfl⟩

theorem Flagged.setWithdrawn {t : Store} (h : Flagged s t) (picks : Question → Bool) (b : Bool) :
    Flagged s (t.setWithdrawn picks b) := by
  intro id
  have hget : (t.setWithdrawn picks b).questions.get? id = (t.questions.get? id).map
      fun q => if picks q then { q with withdrawnReadonly := b } else q := Dict.get?_map _ _ _
  rcases h id with ⟨hs, ht⟩ | ⟨q, c, hs, ht⟩
  · refine Or.inl ⟨hs, ?_⟩
    rw [hget, ht]
    rfl
  · rw [ht, Option.map_some] at hget
    by_cases hp : picks { q with withdrawnReadonly := c } = true
    · rw [if_pos hp] at hget
      exact Or.inr ⟨q, b, hs, hget⟩
    · rw [if_neg hp] at hget
      exact Or.inr ⟨q, c, hs, hget⟩

theorem Flagged.moves {t : Store} (h : Flagged s t) (id : String) :
    QuestionMove d id (reopens id) (s.questions.get? id) (t.questions.get? id) := by
  rcases h id with ⟨hs, ht⟩ | ⟨q, b, hs, ht⟩
  · rw [hs, ht]
    exact .stay none
  · rw [hs, ht]
    exact .withdrawn b

theorem pass_ends (check : Option Refusal) (s : Store) :
    Ends (fun _ t => s = t ∧ check = none) (fun _ => True) (pass check s) := by
  cases check with
  | none => exact ⟨rfl, rfl⟩
  | some e => exact trivial

theorem readEpisode_ends (id : String) (s : Store) :
    Ends (fun ep t => s = t ∧ s.episodes.get? id = some ep) (fun _ => True)
      (readEpisode id s) := by
  unfold readEpisode
  refine Ends.read ?_
  cases h : s.episodes.get? id with
  | none => exact trivial
  | some ep => exact ⟨rfl, rfl⟩

theorem insertAgentTask_ends (record : AgentTaskRecord) (check : Option Refusal) (s : Store) :
    Ends (fun _ t => t = { s with tasks := s.tasks.insert record.operationId record })
      (fun _ => True) (insertAgentTask record check s) := by
  unfold insertAgentTask
  refine (pass_ends check s).bind ?_
  rintro _ _ ⟨rfl, -⟩
  refine Ends.read ?_
  exact Ends.ite (fun _ => Ends.raise trivial) fun _ => Ends.modify rfl

theorem insertInvocation_ends (row : EpisodeInvocation) (s : Store) :
    Ends (fun _ t => t = { s with invocations := s.invocations ++ [row] }) (fun _ => True)
      (insertInvocation row s) := by
  unfold insertInvocation
  refine Ends.read ?_
  exact Ends.ite (fun _ => Ends.raise trivial) fun _ => Ends.modify rfl

theorem claimExperimentWatchers_ends (operationId : String) (ids : List String) (s : Store) :
    Ends (fun _ t => ∃ watchers, t = { s with watchers := watchers }) (fun _ => True)
      (claimExperimentWatchers operationId ids s) := by
  unfold claimExperimentWatchers
  refine Ends.read ?_
  exact Ends.ite (fun _ => Ends.modify ⟨_, rfl⟩) fun _ => Ends.raise trivial

theorem mem_wrapups_iff (s : Store) (id : String) : id ∉ s.wrapups ↔ s.wrapups.get? id = none :=
  Dict.not_mem_iff s.wrapups id

theorem slot_insertEpisode (s : Store) (id x : String) (ep : EpisodeRecord) :
    ({ s with episodes := s.episodes.insert id ep } : Store).slot x =
      if x = id then { s.slot x with episode := some ep } else s.slot x := by
  unfold Store.slot
  simp only [Dict.get?_insert]
  by_cases hx : x = id
  · rw [if_pos hx, if_pos hx]
    rfl
  · rw [if_neg hx, if_neg hx]
    rfl

theorem slot_insertWrapup (s : Store) (id x : String) (w : EpisodeWrapupRecord) :
    ({ s with wrapups := s.wrapups.insert id w } : Store).slot x =
      if x = id then { s.slot x with wrapup := some w } else s.slot x := by
  unfold Store.slot
  simp only [Dict.get?_insert]
  by_cases hx : x = id
  · rw [if_pos hx, if_pos hx]
    rfl
  · rw [if_neg hx, if_neg hx]
    rfl

theorem slot_insertInvocation (s : Store) (row : EpisodeInvocation) (x : String) :
    ({ s with invocations := s.invocations ++ [row] } : Store).slot x =
      if x = row.episodeId then { s.slot x with rows := (s.slot x).rows ++ [row] }
      else s.slot x := by
  unfold Store.slot Store.invocationsOf
  simp only [List.filter_append]
  by_cases hx : x = row.episodeId
  · rw [if_pos hx]
    simp [hx]
  · rw [if_neg hx]
    simp [Ne.symm hx]

/-- An episode whose row is rewritten moves along its life. -/
theorem slots_insertEpisode {t : Store} {id : String} {ep ep' : EpisodeRecord}
    (hep : s.episodes.get? id = some ep)
    (ht : t.slot = ({ s with episodes := s.episodes.insert id ep' } : Store).slot)
    (hu : ep'.invocationsUsed = ep.invocationsUsed)
    (hc : ep'.invocationCeiling = ep.invocationCeiling)
    (hlife : ∀ life, Represents ep (s.wrapups.get? id) life →
      ∃ life', life.Step strays life' ∧ Represents ep' (s.wrapups.get? id) life') (x : String) :
    Slot.Move strays (s.slot x) (t.slot x) := by
  apply slots_at id
  · rw [ht, slot_insertEpisode, if_pos rfl, Store.slot, hep]
    exact .moved hu hc hlife
  · intro y hy
    rw [ht, slot_insertEpisode, if_neg hy]

/-- The same, with the wrap-up stored beside it. -/
theorem slots_insertWrapup {t : Store} {id : String} {ep ep' : EpisodeRecord}
    {wrapup : EpisodeWrapupRecord} (hep : s.episodes.get? id = some ep)
    (hw : s.wrapups.get? id = none)
    (ht : t.slot = ({ s with
      wrapups := s.wrapups.insert id wrapup
      episodes := s.episodes.insert id ep' } : Store).slot)
    (hu : ep'.invocationsUsed = ep.invocationsUsed)
    (hc : ep'.invocationCeiling = ep.invocationCeiling)
    (hlife : ∀ life, Represents ep none life →
      ∃ life', life.Step strays life' ∧ Represents ep' (some wrapup) life') (x : String) :
    Slot.Move strays (s.slot x) (t.slot x) := by
  have hslot : ∀ y, t.slot y = if y = id then { s.slot y with
      episode := some ep', wrapup := some wrapup } else s.slot y := by
    intro y
    rw [ht]
    refine (slot_insertEpisode { s with wrapups := s.wrapups.insert id wrapup } id y ep').trans ?_
    rw [slot_insertWrapup]
    by_cases hy : y = id
    · rw [if_pos hy, if_pos hy, if_pos hy]
    · rw [if_neg hy, if_neg hy, if_neg hy]
  apply slots_at id
  · rw [hslot, if_pos rfl, Store.slot, hep, hw]
    exact .moved hu hc hlife
  · intro y hy
    rw [hslot, if_neg hy]

theorem requestEpisodeStop_moved (id : String) (initiatedBy : Option String) (now : String) :
    Ends (fun _ t => Moved d strays reopens s t) (fun _ => True)
      (requestEpisodeStop id initiatedBy now s) := by
  unfold requestEpisodeStop
  refine (readEpisode_ends id s).bind ?_
  rintro ep _ ⟨rfl, hep⟩
  refine Ends.ite (fun _ => Ends.pure (Moved.refl _)) fun _ => ?_
  refine Ends.ite (fun _ => Ends.raise trivial) fun hst => ?_
  refine Ends.read ?_
  refine Ends.ite (fun _ => Ends.raise trivial) fun hw => ?_
  refine Ends.ite (fun _ => Ends.pure (Moved.refl _)) fun hstop => ?_
  refine Ends.write (Ends.modify ⟨?_, ((Flagged.refl s).setWithdrawn _ true).moves⟩)
  refine slots_insertEpisode hep rfl rfl rfl ?_
  intro life hrep
  cases hrep with
  | underway hst he hs hw => exact ⟨.stopping, .stop, .stopping rfl he rfl hw⟩
  | stopping _ _ hs _ => exact absurd hs hstop
  | fenced _ hst' _ _ =>
      rw [hst'] at hst
      exact absurd rfl hst
  | @ended e hst' _ _ =>
      rw [hst'] at hst
      cases e <;> exact absurd rfl hst

theorem fenceEpisodeEnding_moved (id : String) (ending : EpisodeEnding)
    (diagnostic : Option String) (now : String) :
    Ends (fun _ t => Moved d strays reopens s t) (fun _ => True)
      (fenceEpisodeEnding id ending diagnostic now s) := by
  unfold fenceEpisodeEnding
  refine Ends.ite (fun _ => Ends.raise trivial) fun hne => ?_
  refine (readEpisode_ends id s).bind ?_
  rintro ep _ ⟨rfl, hep⟩
  refine Ends.ite (fun _ => Ends.ite (fun _ => Ends.raise trivial)
    fun _ => Ends.pure (Moved.refl _)) fun hend => ?_
  refine Ends.ite (fun _ => Ends.raise trivial) fun hstop => ?_
  refine Ends.ite (fun _ => Ends.raise trivial) fun hst => ?_
  refine Ends.modify ⟨?_, fun _ => .stay _⟩
  refine slots_insertEpisode hep rfl rfl rfl ?_
  intro life hrep
  cases hrep with
  | underway _ _ hs hw => exact ⟨.fenced ending, .fence hne, .fenced hne rfl rfl hs⟩
  | stopping hst' _ _ _ => exact absurd (Or.inr hst') hstop
  | fenced _ _ he _ =>
      rw [he] at hend
      exact absurd rfl hend
  | ended _ he _ =>
      rw [he] at hend
      exact absurd rfl hend

theorem insertEpisodeWrapup_ends {wrapup : EpisodeWrapupRecord}
    (hne : wrapup.ending ≠ some .stopped) (s : Store) :
    Ends (fun _ t => t = { s with wrapups := s.wrapups.insert wrapup.episodeId wrapup })
      (fun _ => True) (insertEpisodeWrapup wrapup s) := by
  unfold insertEpisodeWrapup
  refine Ends.read ?_
  refine Ends.ite (fun _ => Ends.raise trivial) fun _ => ?_
  refine Ends.write ?_
  exact Ends.ite (fun h => absurd h hne) fun _ => Ends.pure rfl

theorem insertStopWrapup_ends (wrapup : EpisodeWrapupRecord)
    (hstop : wrapup.ending = some .stopped) (s : Store) :
    Ends (fun _ t => t = ({ s with wrapups := s.wrapups.insert wrapup.episodeId wrapup } :
      Store).setWithdrawn (s.ownedByChain wrapup.episodeId) true)
      (fun _ => True) (insertEpisodeWrapup wrapup s) := by
  unfold insertEpisodeWrapup
  refine Ends.read ?_
  refine Ends.ite (fun _ => Ends.raise trivial) fun _ => ?_
  refine Ends.write ?_
  exact Ends.ite (fun _ => Ends.modify rfl) fun h => absurd hstop h

theorem validateNewWrapup_none {id : String} {wrapup : EpisodeWrapupRecord}
    {task : AgentTaskRecord} (h : validateNewWrapup id wrapup task = none) :
    wrapup.episodeId = id ∧ wrapup.ending ≠ some .stopped ∧ wrapup.state = .pending := by
  unfold validateNewWrapup at h
  split_ifs at h with h1 h2
  push Not at h1 h2
  exact ⟨h1.1, h1.2, h2.1⟩

theorem beginEpisodeWrapup_moved (id : String) (wrapup : EpisodeWrapupRecord)
    (allocation : AgentTaskRecord) (insertion : Option Refusal) (now : String) :
    Ends (fun _ t => Moved d strays reopens s t) (fun _ => True)
      (beginEpisodeWrapup id wrapup allocation insertion now s) := by
  unfold beginEpisodeWrapup
  refine (pass_ends _ s).bind ?_
  rintro _ _ ⟨rfl, hvalid⟩
  obtain ⟨hid, hne, hpending⟩ := validateNewWrapup_none hvalid
  refine (readEpisode_ends id _).bind ?_
  rintro ep _ ⟨rfl, hep⟩
  refine Ends.ite (fun _ => Ends.raise trivial) fun hst => ?_
  refine Ends.ite (fun _ => Ends.raise trivial) fun _ => ?_
  refine Ends.read ?_
  cases hw : s.wrapups.get? id with
  | some stored =>
      exact Ends.ite (fun _ => Ends.raise trivial) fun _ => Ends.pure (Moved.refl s)
  | none =>
      refine Ends.ite (fun _ => Ends.raise trivial) fun hconflict => ?_
      refine Ends.ite (fun _ => Ends.raise trivial) fun _ => ?_
      refine (insertAgentTask_ends allocation insertion s).bind ?_
      rintro _ _ rfl
      refine (insertEpisodeWrapup_ends hne _).bind ?_
      rintro _ _ rfl
      obtain ⟨ending, he⟩ := Option.isSome_iff_exists.mp (wrapup.ending_isSome
        (by rw [hpending]; decide))
      have hstopped : ending ≠ .stopped := by
        rintro rfl
        exact hne he
      subst hid
      refine Ends.modify ⟨?_, fun _ => .stay _⟩
      refine slots_insertWrapup hep hw rfl rfl rfl ?_
      intro life hrep
      cases hrep with
      | underway _ _ hs _ => exact ⟨.fenced ending, .fence hstopped, .fenced hstopped rfl he hs⟩
      | stopping hst' _ _ _ =>
          rw [hst'] at hst
          exact absurd rfl hst
      | @fenced e hne' _ he' hs =>
          have hsame : e = ending := by
            by_contra hdiff
            refine hconflict ⟨by rw [he']; rfl, Or.inl ?_⟩
            rw [he', he]
            exact fun h => hdiff (Option.some.inj h)
          rw [← hsame] at he
          exact ⟨.fenced e, .refence, .fenced hne' rfl he hs⟩
      | @ended e hst' _ _ =>
          rw [hst'] at hst
          cases e <;> exact absurd rfl hst

theorem endEpisodeWithoutReport_moved (id : String) (ending : EpisodeEnding)
    (diagnostic : Option String) (now : String) :
    Ends (fun _ t => Moved d strays reopens s t) (fun _ => True)
      (endEpisodeWithoutReport id ending diagnostic now s) := by
  unfold endEpisodeWithoutReport
  refine Ends.ite (fun _ => Ends.raise trivial) fun hne => ?_
  refine (readEpisode_ends id s).bind ?_
  rintro ep _ ⟨rfl, hep⟩
  refine Ends.read ?_
  refine Ends.ite (fun _ => Ends.raise trivial) fun _ => ?_
  refine Ends.ite (fun _ => Ends.raise trivial) fun hconflict => ?_
  refine Ends.ite (fun _ => Ends.raise trivial) fun hstop => ?_
  refine Ends.ite (fun _ => Ends.pure (Moved.refl _)) fun _ => ?_
  refine Ends.ite (fun _ => Ends.raise trivial) fun hst => ?_
  refine Ends.modify ⟨?_, fun _ => .stay _⟩
  refine slots_insertEpisode hep rfl rfl rfl ?_
  intro life hrep
  have hunstopped : ep.stopRequestedAt.isSome ↔ ending = .stopped := by
    constructor
    · intro h
      exact absurd (Or.inl h) hstop
    · intro h
      exact absurd h hne
  cases hrep with
  | underway _ _ _ _ => exact ⟨.ended ending, .finish hne, .ended rfl rfl hunstopped⟩
  | stopping hst' _ _ _ => exact absurd (Or.inr hst') hstop
  | @fenced e _ _ he _ =>
      have hsame : e = ending := by
        by_contra hdiff
        refine hconflict ⟨by rw [he]; rfl, Or.inl ?_⟩
        rw [he]
        exact fun h => hdiff (Option.some.inj h)
      subst hsame
      exact ⟨.ended e, .settle hne, .ended rfl rfl hunstopped⟩
  | @ended e hst' _ _ =>
      rw [hst'] at hst
      cases e <;> exact absurd rfl hst

/-- The one transaction that does not compare the ending it writes with the episode's. -/
theorem failEpisodeWrapupUnlaunchable_moved (id : String) (wrapup : EpisodeWrapupRecord)
    (diagnostic : Option String) (now : String)
    (hstray : ∀ ep e, s.episodes.get? id = some ep → s.wrapups.get? id = none →
      ep.ending = some e → wrapup.ending ≠ some e → strays) :
    Ends (fun _ t => Moved d strays reopens s t) (fun _ => True)
      (failEpisodeWrapupUnlaunchable id wrapup diagnostic now s) := by
  unfold failEpisodeWrapupUnlaunchable
  refine Ends.ite (fun _ => Ends.raise trivial) fun hargs => ?_
  push Not at hargs
  obtain ⟨hid, hne, -⟩ := hargs
  cases hending : wrapup.ending with
  | none => exact Ends.raise trivial
  | some ending =>
      have hstopped : ending ≠ .stopped := by
        rintro rfl
        exact hne hending
      refine (readEpisode_ends id s).bind ?_
      rintro ep _ ⟨rfl, hep⟩
      refine Ends.read ?_
      cases hw : s.wrapups.get? id with
      | some stored =>
          exact Ends.ite (fun _ => Ends.raise trivial) fun _ => Ends.pure (Moved.refl _)
      | none =>
          refine Ends.ite (fun _ => Ends.raise trivial) fun hstop => ?_
          refine Ends.ite (fun _ => Ends.raise trivial) fun hst => ?_
          refine Ends.ite (fun _ => Ends.raise trivial) fun _ => ?_
          refine (insertEpisodeWrapup_ends hne _).bind ?_
          rintro _ _ rfl
          subst hid
          refine Ends.modify ⟨?_, fun _ => .stay _⟩
          refine slots_insertWrapup hep hw rfl rfl rfl ?_
          intro life hrep
          have hunstopped : ep.stopRequestedAt.isSome ↔ ending = .stopped := by
            constructor
            · intro h
              exact absurd (Or.inl h) hstop
            · intro h
              exact absurd h hstopped
          cases hrep with
          | underway _ _ _ _ =>
              exact ⟨.ended ending, .finish hstopped, .ended rfl rfl hunstopped⟩
          | stopping hst' _ _ _ =>
              rw [hst'] at hst
              exact absurd rfl hst
          | @fenced e _ _ he _ =>
              refine ⟨.ended ending, ?_, .ended rfl rfl hunstopped⟩
              by_cases hsame : e = ending
              · rw [hsame]
                exact .settle hstopped
              · refine .stray hstopped (hstray ep e hep hw he ?_)
                rw [hending]
                exact fun h => hsame (Option.some.inj h).symm
          | @ended e hst' _ _ =>
              rw [hst'] at hst
              cases e <;> exact absurd rfl hst

theorem markEpisodeStopSkipped_moved (receipt : Option String → String → String × String)
    (id : String) (diagnostic : Option String) (now : String) :
    Ends (fun _ t => Moved d strays reopens s t) (fun _ => True)
      (markEpisodeStopSkipped receipt id diagnostic now s) := by
  unfold markEpisodeStopSkipped
  refine (readEpisode_ends id s).bind ?_
  rintro ep _ ⟨rfl, hep⟩
  refine Ends.ite (fun _ => Ends.pure (Moved.refl _)) fun _ => ?_
  refine Ends.read ?_
  refine Ends.ite (fun _ => Ends.raise trivial) fun hw => ?_
  refine Ends.ite (fun _ => Ends.raise trivial) fun hst => ?_
  have hnone := (mem_wrapups_iff s id).mp hw
  set wrapup := stopWrapup id (s.lastInvocation id) diagnostic (receipt diagnostic id) now
  refine (insertStopWrapup_ends wrapup rfl s).bind ?_
  rintro _ _ rfl
  refine Ends.write (Ends.modify ⟨?_, ?_⟩)
  · refine slots_insertWrapup hep hnone rfl rfl rfl ?_
    intro life hrep
    have hrep' : Represents { ep with
        status := .stopped
        stopRequestedAt := ep.stopRequestedAt.orElse fun _ => some now
        stopSettledAt := ep.stopSettledAt.orElse fun _ => some now
        ending := some .stopped
        endingDiagnostic := diagnostic
        wrapupState := .skipped
        wrapupError := none
        updatedAt := now
        endedAt := ep.endedAt.orElse fun _ => some now } (some wrapup) (.ended .stopped) := by
      refine .ended rfl rfl ⟨fun _ => rfl, fun _ => ?_⟩
      cases ep.stopRequestedAt <;> rfl
    cases hrep with
    | underway _ _ _ _ => exact ⟨.ended .stopped, .skip, hrep'⟩
    | stopping _ _ _ _ => exact ⟨.ended .stopped, .skipped, hrep'⟩
    | fenced _ hst' _ _ =>
        rw [hst'] at hst
        exact absurd rfl hst
    | @ended e hst' _ _ =>
        rw [hst'] at hst
        cases e <;> exact absurd rfl hst
  · exact (((Flagged.refl s).setWithdrawn _ true).setWithdrawn _ true).moves

end RcpGraph.Episodes
