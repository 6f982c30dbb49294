import Mathlib.Data.List.Induction

/-!
Walks of a machine whose every step answers. A walk remembers in which state each event
was taken; what is said of all its events is said one event at a time.
-/

universe u v

namespace Walk

variable {σ : Type u} {α : Type v} {step : σ → α → σ} {meets : σ → α → Prop} {s : σ}

def walk (step : σ → α → σ) (s : σ) (events : List α) : σ := events.foldl step s

/-- The events of a walk, each with the state it was taken in. -/
def visited (step : σ → α → σ) : σ → List α → List (σ × α)
  | _, [] => []
  | s, a :: events => (s, a) :: visited step (step s a) events

/-- Every event of the walk is allowed where it is taken. -/
def All (step : σ → α → σ) (meets : σ → α → Prop) (s : σ) (events : List α) : Prop :=
  ∀ at_ ∈ visited step s events, meets at_.1 at_.2

theorem walk_append (before after : List α) :
    walk step s (before ++ after) = walk step (walk step s before) after :=
  List.foldl_append

theorem walk_concat (events : List α) (a : α) :
    walk step s (events ++ [a]) = step (walk step s events) a :=
  walk_append events [a]

theorem visited_append (before after : List α) :
    visited step s (before ++ after) =
      visited step s before ++ visited step (walk step s before) after := by
  induction before generalizing s with
  | nil => rfl
  | cons a before ih => simp only [List.cons_append, visited, ih, walk, List.foldl_cons]

theorem all_cons (a : α) (events : List α) :
    All step meets s (a :: events) ↔ meets s a ∧ All step meets (step s a) events := by
  simp only [All, visited, List.forall_mem_cons]

theorem all_append (before after : List α) :
    All step meets s (before ++ after) ↔
      All step meets s before ∧ All step meets (walk step s before) after := by
  simp only [All, visited_append, List.forall_mem_append]

theorem all_concat (events : List α) (a : α) :
    All step meets s (events ++ [a]) ↔
      All step meets s events ∧ meets (walk step s events) a := by
  rw [all_append]
  simp [All, visited]

/-- What holds before the first event and is carried over by every allowed event, holds
after a walk of allowed events. -/
theorem walk_carries {P : List α → Prop} (hstart : P [])
    (hstep : ∀ events a, P events → meets (walk step s events) a → P (events ++ [a]))
    (events : List α) (hall : All step meets s events) : P events := by
  induction events using List.reverseRecOn with
  | nil => exact hstart
  | append_singleton events a ih =>
      obtain ⟨hbefore, ha⟩ := (all_concat events a).mp hall
      exact hstep events a (ih hbefore) ha

end Walk
