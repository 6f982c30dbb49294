import RcpGraph.Episodes.Runs

/-!
The life of an episode: underway, stopping, fenced by an ending, ended. A store holds for
each episode its row, its wrap-up and its invocation rows; a step of the store moves
each of these along the life.
-/

namespace RcpGraph.Episodes

inductive Life where
  | underway
  | stopping
  | fenced (ending : EpisodeEnding)
  | ended (ending : EpisodeEnding)
  deriving DecidableEq, Repr

namespace Life

def ending : Life → Option EpisodeEnding
  | fenced e | ended e => some e
  | underway | stopping => none

/-- A Stop was requested. -/
def stops : Life → Bool
  | stopping | ended .stopped => true
  | underway | fenced _ | ended _ => false

/-- Nothing more is decided about the episode. -/
def isOver : Life → Bool
  | ended _ => true
  | underway | stopping | fenced _ => false

/-- The steps of a life. With `strays` a fenced episode may end otherwise. -/
inductive Step (strays : Prop) : Life → Life → Prop where
  | stop : Step strays .underway stopping
  | fence {e : EpisodeEnding} : e ≠ .stopped → Step strays .underway (fenced e)
  | refence {e : EpisodeEnding} : Step strays (fenced e) (fenced e)
  | finish {e : EpisodeEnding} : e ≠ .stopped → Step strays .underway (ended e)
  | settle {e : EpisodeEnding} : e ≠ .stopped → Step strays (fenced e) (ended e)
  | stray {e e' : EpisodeEnding} : e' ≠ .stopped → strays → Step strays (fenced e) (ended e')
  | skip : Step strays .underway (ended .stopped)
  | skipped : Step strays stopping (ended .stopped)

theorem Step.isOver {strays : Prop} {l m : Life} (h : Step strays l m) : l.isOver = false := by
  cases h <;> rfl

theorem Step.stops {strays : Prop} {l m : Life} (h : Step strays l m) (hl : l.stops = true) :
    m.stops = true := by
  cases h <;> first | rfl | cases hl

theorem Step.ending {strays : Prop} {l m : Life} (h : Step strays l m) (hs : ¬ strays)
    {e : EpisodeEnding} (hl : l.ending = some e) : m.ending = some e := by
  cases h with
  | refence => exact hl
  | settle he => exact hl
  | stray he hstrays => exact absurd hstrays hs
  | stop | fence _ | finish _ | skip | skipped => cases hl

end Life

/-- The columns of a row in each part of the life. -/
inductive Represents (ep : EpisodeRecord) (wrapup : Option EpisodeWrapupRecord) : Life → Prop where
  | underway : (ep.status = .queued ∨ ep.status = .running) → ep.ending = none →
      ep.stopRequestedAt = none → wrapup = none → Represents ep wrapup .underway
  | stopping : ep.status = .stopping → ep.ending = none → ep.stopRequestedAt.isSome →
      wrapup = none → Represents ep wrapup .stopping
  | fenced {e : EpisodeEnding} : e ≠ .stopped → ep.status = .wrappingUp → ep.ending = some e →
      ep.stopRequestedAt = none → Represents ep wrapup (.fenced e)
  | ended {e : EpisodeEnding} : ep.status = statusForEnding e → ep.ending = some e →
      (ep.stopRequestedAt.isSome ↔ e = .stopped) → Represents ep wrapup (.ended e)

namespace Represents

variable {ep : EpisodeRecord} {wrapup : Option EpisodeWrapupRecord} {life : Life}

theorem ending (h : Represents ep wrapup life) : ep.ending = life.ending := by
  cases h with
  | underway _ he _ _ => exact he
  | stopping _ he _ _ => exact he
  | fenced _ _ he _ => exact he
  | ended _ he _ => exact he

theorem stops (h : Represents ep wrapup life) : ep.stopRequestedAt.isSome = life.stops := by
  cases h with
  | underway _ _ hs _ => simp [hs, Life.stops]
  | stopping _ _ hs _ => simpa [Life.stops] using hs
  | fenced _ _ _ hs => simp [hs, Life.stops]
  | @ended e _ _ hs =>
      rw [Bool.eq_iff_iff, hs]
      cases e <;> simp [Life.stops]

theorem live (h : Represents ep wrapup life) : ep.status.live = !life.isOver := by
  cases h with
  | underway hst _ _ _ =>
      rcases hst with hst | hst <;> rw [hst] <;> rfl
  | stopping hst _ _ _ =>
      rw [hst]
      rfl
  | fenced _ hst _ _ =>
      rw [hst]
      rfl
  | @ended e hst _ _ =>
      rw [hst]
      cases e <;> rfl

/-- A row whose columns are as before is at the same point. -/
theorem congr {ep' : EpisodeRecord} (h : Represents ep wrapup life) (hs : ep'.status = ep.status)
    (he : ep'.ending = ep.ending) (ht : ep'.stopRequestedAt = ep.stopRequestedAt) :
    Represents ep' wrapup life := by
  cases h with
  | underway h1 h2 h3 h4 => exact .underway (by rwa [hs]) (he.trans h2) (ht.trans h3) h4
  | stopping h1 h2 h3 h4 => exact .stopping (hs.trans h1) (he.trans h2) (by rwa [ht]) h4
  | fenced h1 h2 h3 h4 => exact .fenced h1 (hs.trans h2) (he.trans h3) (ht.trans h4)
  | ended h1 h2 h3 => exact .ended (hs.trans h1) (he.trans h2) (by rwa [ht])

end Represents

/-- What the store holds for one episode. -/
structure Slot where
  episode : Option EpisodeRecord
  wrapup : Option EpisodeWrapupRecord
  rows : List EpisodeInvocation

def Store.slot (s : Store) (id : String) : Slot :=
  ⟨s.episodes.get? id, s.wrapups.get? id, s.invocationsOf id⟩

/-- The rows are numbered from 1, their count is the episode's and within its ceiling. -/
structure Numbered (ep : EpisodeRecord) (rows : List EpisodeInvocation) : Prop where
  used : ep.invocationsUsed = rows.length
  numbers : rows.map (·.invocationNumber) = List.range' 1 rows.length
  ceiling : rows.length ≤ ep.invocationCeiling

/-- A row that is at some point of its life, with its invocations. -/
def Slot.Sound (v : Slot) : Prop :=
  match v.episode with
  | none => v.wrapup = none ∧ v.rows = []
  | some ep => (∃ life, Represents ep v.wrapup life) ∧ Numbered ep v.rows

/-- What a transaction may do to an episode. -/
inductive Slot.Move (strays : Prop) : Slot → Slot → Prop where
  | stay (v : Slot) : Move strays v v
  | created {ep : EpisodeRecord} {row : EpisodeInvocation} {wrapup : Option EpisodeWrapupRecord}
      {rows : List EpisodeInvocation} : ep.status = .running → ep.ending = none →
      ep.stopRequestedAt = none → ep.invocationsUsed = 1 → 1 ≤ ep.invocationCeiling →
      row.invocationNumber = 1 → Move strays ⟨none, wrapup, rows⟩ ⟨some ep, wrapup, rows ++ [row]⟩
  | moved {ep ep' : EpisodeRecord} {wrapup wrapup' : Option EpisodeWrapupRecord}
      {rows : List EpisodeInvocation} : ep'.invocationsUsed = ep.invocationsUsed →
      ep'.invocationCeiling = ep.invocationCeiling →
      (∀ life, Represents ep wrapup life →
        ∃ life', life.Step strays life' ∧ Represents ep' wrapup' life') →
      Move strays ⟨some ep, wrapup, rows⟩ ⟨some ep', wrapup', rows⟩
  | invoked {ep ep' : EpisodeRecord} {wrapup : Option EpisodeWrapupRecord}
      {rows : List EpisodeInvocation} {row : EpisodeInvocation} :
      ep.ending = none → ep.stopRequestedAt = none → ep.invocationsUsed < ep.invocationCeiling →
      ep'.status = ep.status → ep'.ending = ep.ending →
      ep'.stopRequestedAt = ep.stopRequestedAt →
      ep'.invocationCeiling = ep.invocationCeiling →
      ep'.invocationsUsed = ep.invocationsUsed + 1 →
      row.invocationNumber = ep.invocationsUsed + 1 →
      Move strays ⟨some ep, wrapup, rows⟩ ⟨some ep', wrapup, rows ++ [row]⟩

/-- What an earlier and a later slot of one episode have to do with each other. -/
structure Slot.Since (v w : Slot) : Prop where
  /-- Nothing but a Run makes the row, and nothing deletes it. -/
  episode : ∀ ep, v.episode = some ep → ∃ ep', w.episode = some ep' ∧
    ep'.invocationCeiling = ep.invocationCeiling ∧
    (ep.ending.isSome → ep'.ending.isSome) ∧
    (ep.stopRequestedAt.isSome → ep'.stopRequestedAt.isSome) ∧
    (ep.status.live = false → ep'.status = ep.status ∧ ep'.ending = ep.ending) ∧
    (ep.ending.isSome ∨ ep.stopRequestedAt.isSome → w.rows = v.rows)

theorem Slot.Since.refl (v : Slot) : v.Since v where
  episode := fun ep h => ⟨ep, h, rfl, id, id, fun _ => ⟨rfl, rfl⟩, fun _ => rfl⟩

theorem Slot.Since.trans {u v w : Slot} (h₁ : u.Since v) (h₂ : v.Since w) : u.Since w where
  episode := by
    intro ep hep
    obtain ⟨ep', hep', hc, he, hs, hl, hr⟩ := h₁.episode ep hep
    obtain ⟨ep'', hep'', hc', he', hs', hl', hr'⟩ := h₂.episode ep' hep'
    refine ⟨ep'', hep'', hc'.trans hc, he' ∘ he, hs' ∘ hs, ?_, ?_⟩
    · intro hlive
      obtain ⟨hst, hend⟩ := hl hlive
      obtain ⟨hst', hend'⟩ := hl' (by rwa [hst])
      exact ⟨hst'.trans hst, hend'.trans hend⟩
    · intro hclosed
      exact (hr' (hclosed.imp he hs)).trans (hr hclosed)

namespace Slot.Move

variable {strays : Prop} {v w : Slot}

theorem sound (h : Move strays v w) (hv : v.Sound) : w.Sound := by
  cases h with
  | stay => exact hv
  | @created ep row wrapup rows hst he hs hu hc hn =>
      obtain ⟨hw, hr⟩ : wrapup = none ∧ rows = [] := hv
      subst hw hr
      exact ⟨⟨.underway, .underway (Or.inr hst) he hs rfl⟩,
        { used := hu, numbers := by simp [hn], ceiling := by simpa using hc }⟩
  | @moved ep ep' wrapup wrapup' rows hu hc hlife =>
      obtain ⟨⟨life, hrep⟩, hnum⟩ : (∃ life, Represents ep wrapup life) ∧ Numbered ep rows := hv
      obtain ⟨life', -, hrep'⟩ := hlife life hrep
      exact ⟨⟨life', hrep'⟩,
        { used := hu.trans hnum.used
          numbers := hnum.numbers
          ceiling := by
            rw [hc]
            exact hnum.ceiling }⟩
  | @invoked ep ep' wrapup rows row he hs hlt hst' he' hs' hc' hu' hn =>
      obtain ⟨⟨life, hrep⟩, hnum⟩ : (∃ life, Represents ep wrapup life) ∧ Numbered ep rows := hv
      have hused := hnum.used
      refine ⟨⟨life, hrep.congr hst' he' hs'⟩, ?_, ?_, ?_⟩
      · simp only [List.length_append, List.length_singleton]
        omega
      · rw [List.map_append, hnum.numbers, List.length_append, List.length_singleton,
          List.range'_concat]
        simp only [List.map_cons, List.map_nil, Nat.one_mul, hn, hused, Nat.add_comm 1]
      · simp only [List.length_append, List.length_singleton]
        omega

theorem since (h : Move strays v w) (hv : v.Sound) : v.Since w := by
  cases h with
  | stay => exact Slot.Since.refl _
  | created hst he hs hu hc hn => exact ⟨fun ep hep => by cases hep⟩
  | @moved ep ep' wrapup wrapup' rows hu hc hlife =>
      obtain ⟨⟨life, hrep⟩, -⟩ : (∃ life, Represents ep wrapup life) ∧ Numbered ep rows := hv
      obtain ⟨life', hstep, hrep'⟩ := hlife life hrep
      refine ⟨?_⟩
      rintro _ ⟨⟩
      refine ⟨ep', rfl, hc, ?_, ?_, ?_, fun _ => rfl⟩
      · rw [hrep.ending, hrep'.ending]
        cases hstep <;> simp [Life.ending]
      · rw [hrep.stops, hrep'.stops]
        exact hstep.stops
      · intro hlive
        rw [hrep.live, hstep.isOver] at hlive
        cases hlive
  | @invoked ep ep' wrapup rows row he hs hlt hst' he' hs' hc' hu' hn =>
      refine ⟨?_⟩
      rintro _ ⟨⟩
      refine ⟨ep', rfl, hc', by rw [he']; exact id, by rw [hs']; exact id,
        fun _ => ⟨hst', he'⟩, ?_⟩
      intro hclosed
      rw [he, hs] at hclosed
      simp at hclosed

/-- Unless the step strays, an ending stays. -/
theorem ending (h : Move strays v w) (hs : ¬ strays) (hv : v.Sound) {ep ep' : EpisodeRecord}
    (hep : v.episode = some ep) (hep' : w.episode = some ep') {e : EpisodeEnding}
    (he : ep.ending = some e) : ep'.ending = some e := by
  cases h with
  | stay =>
      cases hep.symm.trans hep'
      exact he
  | created => cases hep
  | @moved _ _ wrapup wrapup' rows hu hc hlife =>
      cases hep
      cases hep'
      obtain ⟨⟨life, hrep⟩, -⟩ : (∃ life, Represents ep wrapup life) ∧ Numbered ep rows := hv
      obtain ⟨life', hstep, hrep'⟩ := hlife life hrep
      rw [hrep'.ending]
      exact hstep.ending hs (hrep.ending.symm.trans he)
  | invoked hnone =>
      cases hep
      rw [hnone] at he
      cases he

end Slot.Move

end RcpGraph.Episodes
