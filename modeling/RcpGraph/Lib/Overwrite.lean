import Mathlib.Data.List.Perm.Basic

/-!
Partial functions rewritten one overlay after another. An overlay leaves a point, erases it
or gives it a value; the order of the overlays does not matter exactly when any two of them
agree where both say something.
-/

universe u v

namespace Overwrite

variable {κ : Type u} {α : Type v}

/-- What is done at each point: nothing, or erase (`some none`), or write. -/
abbrev Overlay (κ : Type u) (α : Type v) := κ → Option (Option α)

def lay (f : κ → Option α) (p : Overlay κ α) : κ → Option α := fun k => (p k).getD (f k)

def layAll (f : κ → Option α) (ps : List (Overlay κ α)) : κ → Option α := ps.foldl lay f

/-- The overlay that two overlays make in this order. -/
def andThen (p q : Overlay κ α) : Overlay κ α := fun k => (q k).or (p k)

/-- The overlay that a list of overlays makes. -/
def compose (ps : List (Overlay κ α)) : Overlay κ α := ps.foldl andThen fun _ => none

/-- The overlays agree where both say something. -/
def Agree (p q : Overlay κ α) : Prop := ∀ k v w, p k = some v → q k = some w → v = w

theorem Agree.symm {p q : Overlay κ α} (h : Agree p q) : Agree q p :=
  fun k v w hv hw => (h k w v hw hv).symm

theorem lay_andThen (f : κ → Option α) (p q : Overlay κ α) :
    lay f (andThen p q) = lay (lay f p) q := by
  funext k
  rw [lay, lay, lay, andThen]
  cases q k <;> rfl

theorem lay_compose (f : κ → Option α) (ps : List (Overlay κ α)) :
    lay f (compose ps) = layAll f ps := by
  have hfold : ∀ (q : Overlay κ α), lay f (ps.foldl andThen q) = layAll (lay f q) ps := by
    induction ps with
    | nil => intro q; rfl
    | cons p ps ih =>
        intro q
        rw [List.foldl_cons, ih, lay_andThen]
        rfl
  exact hfold fun _ => none

/-- What a list of overlays says at a point, one of them says. -/
theorem exists_of_compose {ps : List (Overlay κ α)} {k : κ} {v : Option α}
    (h : compose ps k = some v) : ∃ p ∈ ps, p k = some v := by
  have hfold : ∀ (q : Overlay κ α), ps.foldl andThen q k = some v →
      q k = some v ∨ ∃ p ∈ ps, p k = some v := by
    clear h
    induction ps with
    | nil => intro q hq; exact .inl hq
    | cons p ps ih =>
        intro q hq
        rcases ih (andThen q p) hq with hp | ⟨r, hr, hv⟩
        · rw [andThen, Option.or_eq_some_iff] at hp
          rcases hp with hp | ⟨-, hq⟩
          · exact .inr ⟨p, List.mem_cons_self, hp⟩
          · exact .inl hq
        · exact .inr ⟨r, List.mem_cons_of_mem p hr, hv⟩
  rcases hfold _ h with hnone | hsome
  · cases hnone
  · exact hsome

/-- A list of overlays speaks wherever one of them does. -/
theorem compose_isSome {ps : List (Overlay κ α)} {k : κ} {p : Overlay κ α} (hp : p ∈ ps)
    (h : (p k).isSome = true) : ∃ v, compose ps k = some v := by
  have hfold : ∀ (q : Overlay κ α), (q k).isSome = true ∨ p ∈ ps →
      (ps.foldl andThen q k).isSome = true := by
    clear hp
    induction ps with
    | nil => intro q hq; simpa using hq
    | cons r ps ih =>
        intro q hq
        apply ih
        rw [andThen, Option.isSome_or, Bool.or_eq_true]
        rcases hq with hq | hq
        · exact .inl (.inr hq)
        · rcases List.mem_cons.mp hq with rfl | hq
          · exact .inl (.inl h)
          · exact .inr hq
  exact Option.isSome_iff_exists.mp (hfold _ (.inr hp))

theorem layAll_append (f : κ → Option α) (ps qs : List (Overlay κ α)) :
    layAll f (ps ++ qs) = layAll (layAll f ps) qs :=
  List.foldl_append

theorem layAll_cons (f : κ → Option α) (p : Overlay κ α) (ps : List (Overlay κ α)) :
    layAll f (p :: ps) = layAll (lay f p) ps := rfl

/-- A point keeps a value that no overlay contradicts. -/
theorem layAll_settled (f : κ → Option α) (ps : List (Overlay κ α)) (k : κ) {v : Option α}
    (hf : f k = v) (h : ∀ p ∈ ps, ∀ w, p k = some w → w = v) : layAll f ps k = v := by
  induction ps generalizing f with
  | nil => exact hf
  | cons p ps ih =>
      rw [layAll_cons]
      apply ih
      · rw [lay]
        cases hp : p k with
        | none => exact hf
        | some w => exact h p List.mem_cons_self w hp
      · intro q hq
        exact h q (List.mem_cons_of_mem p hq)

/-- Where the overlays agree, the result at a point is what any of them says there. -/
theorem layAll_of_agree (f : κ → Option α) (ps : List (Overlay κ α)) (k : κ)
    (hagree : ps.Pairwise Agree) {p : Overlay κ α} (hp : p ∈ ps) {v : Option α}
    (hv : p k = some v) : layAll f ps k = v := by
  induction ps generalizing f with
  | nil => cases hp
  | cons q qs ih =>
      rw [List.pairwise_cons] at hagree
      rw [layAll_cons]
      rcases List.mem_cons.mp hp with rfl | hmem
      · apply layAll_settled
        · rw [lay, hv]
          rfl
        · intro r hr w hw
          exact (hagree.1 r hr k v w hv hw).symm
      · exact ih (lay f q) hagree.2 hmem

/-- The result at a point, where the overlays agree. -/
theorem layAll_eq_iff (f : κ → Option α) (ps : List (Overlay κ α)) (k : κ)
    (hagree : ps.Pairwise Agree) (v : Option α) :
    layAll f ps k = v ↔
      (∃ p ∈ ps, p k = some v) ∨ ((∀ p ∈ ps, p k = none) ∧ f k = v) := by
  by_cases hspoken : ∃ p ∈ ps, ∃ w, p k = some w
  · obtain ⟨p, hp, w, hw⟩ := hspoken
    rw [layAll_of_agree f ps k hagree hp hw]
    constructor
    · rintro rfl
      exact .inl ⟨p, hp, hw⟩
    · rintro (⟨q, hq, hv⟩ | ⟨hsilent, -⟩)
      · rw [← layAll_of_agree f ps k hagree hp hw, layAll_of_agree f ps k hagree hq hv]
      · rw [hsilent p hp] at hw
        cases hw
  · have hsilent : ∀ p ∈ ps, p k = none := by
      intro p hp
      cases hk : p k with
      | none => rfl
      | some w => exact absurd ⟨p, hp, w, hk⟩ hspoken
    have hsettled : layAll f ps k = f k := by
      apply layAll_settled f ps k rfl
      intro p hp w hw
      exact absurd ⟨p, hp, w, hw⟩ hspoken
    rw [hsettled]
    constructor
    · intro hv
      exact .inr ⟨hsilent, hv⟩
    · rintro (⟨p, hp, hv⟩ | ⟨-, hv⟩)
      · exact absurd ⟨p, hp, v, hv⟩ hspoken
      · exact hv

/-- An overlay that comes last decides every point it speaks about. -/
theorem layAll_last (f : κ → Option α) (ps : List (Overlay κ α)) (p : Overlay κ α) {k : κ}
    {v : Option α} (hv : p k = some v) : layAll f (ps ++ [p]) k = v := by
  rw [layAll_append, layAll_cons]
  change lay (layAll f ps) p k = v
  rw [lay, hv]
  rfl

/-- Every order of the sources of overlays gives the same function exactly when their overlays
agree. -/
theorem layAll_perm_iff {ι : Type*} (f : κ → Option α) (d : ι → Overlay κ α) (cs : List ι) :
    (∀ cs' : List ι, cs'.Perm cs → layAll f (cs'.map d) = layAll f (cs.map d)) ↔
      cs.Pairwise fun a b => Agree (d a) (d b) := by
  constructor
  · intro hsame
    have hlast : ∀ c ∈ cs, ∀ k v, d c k = some v → layAll f (cs.map d) k = v := by
      intro c hc k v hv
      obtain ⟨before, after, rfl⟩ := List.append_of_mem hc
      have hperm : (before ++ (after ++ [c])).Perm (before ++ c :: after) :=
        List.Perm.append_left before (List.perm_append_singleton c after)
      rw [← hsame _ hperm, List.map_append, List.map_append, ← List.append_assoc, List.map_singleton]
      exact layAll_last f _ (d c) hv
    rw [List.pairwise_iff_forall_sublist]
    intro a b hsub k v w hv hw
    have ha := hsub.subset List.mem_cons_self
    have hb := hsub.subset (List.mem_cons_of_mem a List.mem_cons_self)
    exact (hlast a ha k v hv).symm.trans (hlast b hb k w hw)
  · intro hagree cs' hperm
    have hagree' : cs'.Pairwise fun a b => Agree (d a) (d b) :=
      (hperm.pairwise_iff fun h => h.symm).mpr hagree
    funext k
    rw [layAll_eq_iff f _ k (List.pairwise_map.mpr hagree')]
    rcases (layAll_eq_iff f _ k (List.pairwise_map.mpr hagree) _).mp rfl with
      ⟨p, hp, hv⟩ | ⟨hsilent, hv⟩
    · exact .inl ⟨p, (hperm.map d).mem_iff.mpr hp, hv⟩
    · exact .inr ⟨fun p hp => hsilent p ((hperm.map d).mem_iff.mp hp), hv⟩

end Overwrite
