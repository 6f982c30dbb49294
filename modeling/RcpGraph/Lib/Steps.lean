import Mathlib.Data.List.Basic

/-!
Runs of fallible steps. A run stops at the first refusal. The rules lift what
one step preserves, and what one step of a related machine answers, to whole
runs.
-/

universe u v w x

namespace Steps

variable {α : Type u} {σ : Type v} {τ : Type w} {ε : Type x}

def run (f : α → σ → Except ε σ) : List α → σ → Except ε σ
  | [], s => .ok s
  | a :: as, s =>
      match f a s with
      | .error e => .error e
      | .ok t => run f as t

@[simp] theorem run_nil (f : α → σ → Except ε σ) (s : σ) : run f [] s = .ok s := rfl

theorem run_cons_ok (f : α → σ → Except ε σ) (a : α) (as : List α) (s u : σ) :
    run f (a :: as) s = .ok u ↔ ∃ t, f a s = .ok t ∧ run f as t = .ok u := by
  rw [run]
  cases h : f a s with
  | error e => simp
  | ok t => simp

theorem run_append_ok (f : α → σ → Except ε σ) (as bs : List α) (s u : σ) :
    run f (as ++ bs) s = .ok u ↔ ∃ t, run f as s = .ok t ∧ run f bs t = .ok u := by
  induction as generalizing s with
  | nil => simp
  | cons a as ih =>
      rw [List.cons_append, run_cons_ok]
      simp only [ih, run_cons_ok]
      constructor
      · rintro ⟨t, ht, t', ht', hu⟩
        exact ⟨t', ⟨t, ht, ht'⟩, hu⟩
      · rintro ⟨t', ⟨t, ht, ht'⟩, hu⟩
        exact ⟨t, ht, t', ht', hu⟩

/-- What every step preserves, a run preserves. -/
theorem run_invariant (f : α → σ → Except ε σ) (P : σ → Prop) (as : List α)
    (step : ∀ a ∈ as, ∀ s t, P s → f a s = .ok t → P t) (s u : σ) (hs : P s)
    (h : run f as s = .ok u) : P u := by
  induction as generalizing s with
  | nil =>
      cases h
      exact hs
  | cons a as ih =>
      obtain ⟨t, ht, hu⟩ := (run_cons_ok f a as s u).mp h
      exact ih (fun b hb => step b (List.mem_cons_of_mem a hb)) t
        (step a List.mem_cons_self s t hs ht) hu

/-- A quantity no step changes, a run does not change. -/
theorem run_constant {β : Type*} (f : α → σ → Except ε σ) (g : σ → β) (as : List α)
    (step : ∀ a ∈ as, ∀ s t, f a s = .ok t → g t = g s) (s u : σ)
    (h : run f as s = .ok u) : g u = g s :=
  run_invariant f (fun t => g t = g s) as
    (fun a ha t t' ht hf => (step a ha t t' hf).trans ht) s u rfl h

/-- Related machines stay related as long as both answer. -/
theorem run_related (f : α → σ → Except ε σ) (g : α → τ → Except ε τ) (R : σ → τ → Prop)
    (as : List α)
    (step : ∀ a ∈ as, ∀ s t s', R s t → f a s = .ok s' → ∃ t', g a t = .ok t' ∧ R s' t')
    (s : σ) (t : τ) (u : σ) (hr : R s t) (h : run f as s = .ok u) :
    ∃ u', run g as t = .ok u' ∧ R u u' := by
  induction as generalizing s t with
  | nil =>
      cases h
      exact ⟨t, rfl, hr⟩
  | cons a as ih =>
      obtain ⟨s', hs', hu⟩ := (run_cons_ok f a as s u).mp h
      obtain ⟨t', ht', hr'⟩ := step a List.mem_cons_self s t s' hr hs'
      obtain ⟨u', hu', hru⟩ :=
        ih (fun b hb => step b (List.mem_cons_of_mem a hb)) s' t' hr' hu
      exact ⟨u', (run_cons_ok g a as t u').mpr ⟨t', ht', hu'⟩, hru⟩

/-- Steps that do not see what `h` forgets, run without seeing it. -/
theorem run_blind (f : α → σ → Except ε σ) (h : σ → σ) (idem : ∀ s, h (h s) = h s) (as : List α)
    (step : ∀ a ∈ as, ∀ s, (f a (h s)).map h = (f a s).map h) (s : σ) :
    (run f as (h s)).map h = (run f as s).map h := by
  induction as generalizing s with
  | nil => simp [Except.map, idem]
  | cons a as ih =>
      have ih := ih fun b hb => step b (List.mem_cons_of_mem a hb)
      have hs := step a List.mem_cons_self s
      simp only [run]
      cases h1 : f a s with
      | error e =>
          cases h2 : f a (h s) with
          | error e' => simpa [h1, h2, Except.map] using hs
          | ok t => simp [h1, h2, Except.map] at hs
      | ok t =>
          cases h2 : f a (h s) with
          | error e => simp [h1, h2, Except.map] at hs
          | ok t' =>
              have ht : h t' = h t := by simpa [h1, h2, Except.map] using hs
              calc (run f as t').map h = (run f as (h t')).map h := (ih t').symm
                _ = (run f as (h t)).map h := by rw [ht]
                _ = (run f as t).map h := ih t

theorem run_map {β : Type*} (f : β → σ → Except ε σ) (g : α → β) (as : List α) (s : σ) :
    run f (as.map g) s = run (fun a => f (g a)) as s := by
  induction as generalizing s with
  | nil => rfl
  | cons a as ih =>
      rw [List.map_cons, run, run]
      cases f (g a) s with
      | error e => rfl
      | ok t => exact ih t

/-- A run of checks passes when every check does. -/
theorem run_check (c : α → Except ε Unit) (as : List α) :
    run (fun a (_ : Unit) => c a) as () = .ok () ↔ ∀ a ∈ as, c a = .ok () := by
  induction as with
  | nil => simp
  | cons a as ih =>
      rw [run_cons_ok, List.forall_mem_cons, ← ih]
      exact ⟨fun ⟨_, h⟩ => h, fun h => ⟨(), h⟩⟩

/-- What a run of answers collects, one of its elements answered. -/
theorem mem_of_mapM {β : Type*} {f : α → Except ε β} {as : List α} {bs : List β}
    (h : as.mapM f = .ok bs) (b : β) (hb : b ∈ bs) : ∃ a ∈ as, f a = .ok b := by
  induction as generalizing bs with
  | nil =>
      cases h
      cases hb
  | cons a as ih =>
      rw [List.mapM_cons] at h
      cases ha : f a with
      | error e => rw [ha] at h; cases h
      | ok b' =>
          cases has : as.mapM f with
          | error e => rw [ha, has] at h; cases h
          | ok bs' =>
              rw [ha, has] at h
              cases h
              cases List.mem_cons.mp hb with
              | inl heq => exact ⟨a, List.mem_cons_self .., by rw [ha, heq]⟩
              | inr hmem =>
                  obtain ⟨a', ha', hf⟩ := ih has hmem
                  exact ⟨a', List.mem_cons_of_mem _ ha', hf⟩

theorem run_congr (f g : α → σ → Except ε σ) (as : List α)
    (h : ∀ a ∈ as, ∀ s, f a s = g a s) (s : σ) : run f as s = run g as s := by
  induction as generalizing s with
  | nil => rfl
  | cons a as ih =>
      rw [run, run, h a List.mem_cons_self s]
      cases g a s with
      | error e => rfl
      | ok t => exact ih (fun b hb => h b (List.mem_cons_of_mem a hb)) t

/-- The states reached by steps that were each allowed where they were taken. -/
inductive Reached (f : α → σ → Option σ) (meets : σ → α → Prop) (s : σ) : σ → Prop where
  | start : Reached f meets s s
  | step {t u : σ} (a : α) : Reached f meets s t → meets t a → f a t = some u →
      Reached f meets s u

/-- What holds at the start and along every allowed step holds wherever they reach. -/
theorem Reached.invariant {f : α → σ → Option σ} {meets : σ → α → Prop} {s t : σ} (P : σ → Prop)
    (hs : P s) (step : ∀ t u a, P t → meets t a → f a t = some u → P u)
    (h : Reached f meets s t) : P t := by
  induction h with
  | start => exact hs
  | step a _ hmeets hstep ih => exact step _ _ a ih hmeets hstep

theorem Reached.mono {f : α → σ → Option σ} {meets meets' : σ → α → Prop} {s t : σ}
    (hle : ∀ s a, meets s a → meets' s a) (h : Reached f meets s t) : Reached f meets' s t := by
  induction h with
  | start => exact .start
  | step a _ hmeets hstep ih => exact .step a ih (hle _ a hmeets) hstep

/-- Run a list of steps, checking that each is allowed. -/
def runWhile (f : α → σ → Option σ) (meets : σ → α → Bool) : List α → σ → Option σ
  | [], s => some s
  | a :: as, s => if meets s a then (f a s).bind (runWhile f meets as) else none

theorem reached_runWhile {f : α → σ → Option σ} {meets : σ → α → Bool} {as : List α} {r s t : σ}
    (hs : Reached f (fun s a => meets s a = true) r s) (h : runWhile f meets as s = some t) :
    Reached f (fun s a => meets s a = true) r t := by
  induction as generalizing s with
  | nil =>
      cases h
      exact hs
  | cons a as ih =>
      unfold runWhile at h
      split at h
      · rename_i hmeets
        obtain ⟨u, hu, hrest⟩ := Option.bind_eq_some_iff.mp h
        exact ih (.step a hs hmeets hu) hrest
      · cases h

end Steps
