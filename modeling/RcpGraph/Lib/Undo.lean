import Mathlib.Data.List.Basic

/-!
Bounded undo histories: the values one can go back to, newest last, and the values undone.
Nothing is ever brought back but what was recorded when it was replaced.
-/

universe u

namespace List

variable {α : Type u} {xs : List α} {x y : α} {limit : Nat}

/-- At most so many of the last entries. -/
def keepLast (limit : Nat) (xs : List α) : List α := xs.drop (xs.length - limit)

theorem mem_keepLast_concat (h : y ∈ (xs ++ [x]).keepLast limit) : y = x ∨ y ∈ xs := by
  have hin := mem_of_mem_drop h
  rw [mem_append, mem_singleton] at hin
  exact hin.symm

theorem getLast?_keepLast_concat (hlimit : 0 < limit) :
    ((xs ++ [x]).keepLast limit).getLast? = some x := by
  rw [keepLast, drop_append_of_le_length (by simp; omega)]
  exact getLast?_concat

end List

structure UndoHistory (α : Type u) where
  past : List α := []
  future : List α := []
  deriving DecidableEq

namespace UndoHistory

variable {α : Type u} {h h' : UndoHistory α} {x y z : α} {limit : Nat}

def values (h : UndoHistory α) : List α := h.past ++ h.future

/-- The value is replaced by a new one: it can be gone back to, and what was undone is gone. -/
def record (limit : Nat) (h : UndoHistory α) (x : α) : UndoHistory α :=
  ⟨(h.past ++ [x]).keepLast limit, []⟩

/-- The value is replaced by a new one of the same step. -/
def fold (h : UndoHistory α) : UndoHistory α := ⟨h.past, []⟩

def undo (limit : Nat) (h : UndoHistory α) (x : α) : Option (α × UndoHistory α) :=
  h.past.getLast?.map fun y => (y, ⟨h.past.dropLast, (h.future ++ [x]).keepLast limit⟩)

def redo (limit : Nat) (h : UndoHistory α) (x : α) : Option (α × UndoHistory α) :=
  h.future.getLast?.map fun y => (y, ⟨(h.past ++ [x]).keepLast limit, h.future.dropLast⟩)

theorem undo_exists (hpast : h.past ≠ []) : ∃ y h', h.undo limit x = some (y, h') := by
  obtain ⟨last, hlast⟩ := Option.isSome_iff_exists.mp (List.getLast?_isSome.mpr hpast)
  exact ⟨last, _, by rw [undo, hlast, Option.map_some]⟩

theorem redo_exists (hfuture : h.future ≠ []) : ∃ y h', h.redo limit x = some (y, h') := by
  obtain ⟨last, hlast⟩ := Option.isSome_iff_exists.mp (List.getLast?_isSome.mpr hfuture)
  exact ⟨last, _, by rw [redo, hlast, Option.map_some]⟩

theorem mem_record (hz : z ∈ (h.record limit x).values) : z = x ∨ z ∈ h.values := by
  rw [values, record, List.append_nil] at hz
  exact (List.mem_keepLast_concat hz).imp_right (List.mem_append_left _)

theorem mem_fold (hz : z ∈ h.fold.values) : z ∈ h.values := by
  rw [values, fold, List.append_nil] at hz
  exact List.mem_append_left _ hz

/-- What undoing brings back was in the history, and only what it replaces is new there. -/
theorem mem_undo (hundo : h.undo limit x = some (y, h')) :
    y ∈ h.values ∧ ∀ z ∈ h'.values, z = x ∨ z ∈ h.values := by
  obtain ⟨last, hlast, heq⟩ := Option.map_eq_some_iff.mp hundo
  obtain ⟨rfl, rfl⟩ := Prod.mk.inj heq
  refine ⟨List.mem_append_left _ (List.mem_of_getLast? hlast), fun z hz => ?_⟩
  rcases List.mem_append.mp hz with hpast | hfuture
  · exact .inr (List.mem_append_left _ ((List.dropLast_sublist _).subset hpast))
  · exact (List.mem_keepLast_concat hfuture).imp_right (List.mem_append_right _)

theorem mem_redo (hredo : h.redo limit x = some (y, h')) :
    y ∈ h.values ∧ ∀ z ∈ h'.values, z = x ∨ z ∈ h.values := by
  obtain ⟨last, hlast, heq⟩ := Option.map_eq_some_iff.mp hredo
  obtain ⟨rfl, rfl⟩ := Prod.mk.inj heq
  refine ⟨List.mem_append_right _ (List.mem_of_getLast? hlast), fun z hz => ?_⟩
  rcases List.mem_append.mp hz with hpast | hfuture
  · exact (List.mem_keepLast_concat hpast).imp_right (List.mem_append_left _)
  · exact .inr (List.mem_append_right _ ((List.dropLast_sublist _).subset hfuture))

/-- Undoing right after a value was replaced brings it back. -/
theorem undo_record (hlimit : 0 < limit) :
    ((h.record limit x).undo limit y).map Prod.fst = some x := by
  simp only [undo, record, List.getLast?_keepLast_concat hlimit, Option.map_some]

/-- Redoing right after undoing brings back what was undone. -/
theorem redo_undo (hlimit : 0 < limit) (hundo : h.undo limit x = some (y, h')) :
    (h'.redo limit y).map Prod.fst = some x := by
  obtain ⟨z, -, hz⟩ := Option.map_eq_some_iff.mp hundo
  obtain ⟨-, rfl⟩ := Prod.mk.inj hz
  simp only [redo, List.getLast?_keepLast_concat hlimit, Option.map_some]

end UndoHistory
