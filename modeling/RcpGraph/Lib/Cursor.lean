import Mathlib.Data.List.Basic
import Mathlib.Data.List.Nodup

/-!
A log read through a cursor. The entries of a log have increasing keys; a reader that has
come to a key has seen the entries up to it. `first` is the first judgement of a stretch
of the log that is not idle.
-/

universe u v

namespace Cursor

variable {α : Type u} {β : Type v} [DecidableEq β]

/-- The first judgement that is not idle, if there is one. -/
def first (judge : α → β) (idle : β) : List α → β
  | [] => idle
  | x :: xs => if judge x = idle then first judge idle xs else judge x

variable (judge : α → β) (idle : β)

@[simp] theorem first_nil : first judge idle [] = idle := rfl

theorem first_singleton (x : α) : first judge idle [x] = judge x := by
  rw [first]
  by_cases h : judge x = idle
  · rw [if_pos h, first_nil, h]
  · rw [if_neg h]

theorem first_append (xs ys : List α) :
    first judge idle (xs ++ ys) =
      if first judge idle xs = idle then first judge idle ys else first judge idle xs := by
  induction xs with
  | nil => rw [List.nil_append, first_nil, if_pos rfl]
  | cons x xs ih =>
      rw [List.cons_append, first, first]
      by_cases h : judge x = idle
      · rw [if_pos h, if_pos h, ih]
      · rw [if_neg h, if_neg h, if_neg h]

variable (key : α → Nat)

/-- The entries after `a` and up to `k`. -/
def between (xs : List α) (a k : Nat) : List α := xs.filter fun x => a < key x && key x ≤ k

variable {key} {xs : List α}

theorem mem_between {a k : Nat} {x : α} :
    x ∈ between key xs a k ↔ x ∈ xs ∧ a < key x ∧ key x ≤ k := by
  simp [between]

theorem between_congr {a k k' : Nat} (h : ∀ x ∈ xs, a < key x → (key x ≤ k ↔ key x ≤ k')) :
    between key xs a k = between key xs a k' := by
  apply List.filter_congr
  intro x hx
  by_cases ha : a < key x
  · simp [ha, h x hx ha]
  · simp [ha]

theorem between_eq_nil {a k : Nat} (h : ∀ x ∈ xs, a < key x → k < key x) :
    between key xs a k = [] := by
  apply List.eq_nil_iff_forall_not_mem.mpr
  intro x hx
  obtain ⟨hmem, ha, hk⟩ := mem_between.mp hx
  have := h x hmem ha
  omega

/-- What the reader sees next when the cursor moves to the next entry. -/
theorem between_next (hxs : xs.Pairwise fun x y => key x < key y) {a k : Nat} {x : α}
    (hx : x ∈ xs) (hk : k < key x) (ha : a < key x)
    (hnext : ∀ y ∈ xs, key y ≤ k ∨ key x ≤ key y) :
    between key xs a (key x) = between key xs a k ++ [x] := by
  induction xs with
  | nil => cases hx
  | cons y ys ih =>
      rw [List.pairwise_cons] at hxs
      obtain ⟨hbefore, hys⟩ := hxs
      rcases List.mem_cons.mp hx with rfl | hmem
      · -- nothing stands before the next entry, and nothing after it is reached
        have hrest : ∀ c, c ≤ key x → between key ys a c = [] := by
          intro c hc
          apply between_eq_nil
          intro z hz _
          have := hbefore z hz
          omega
        have hself : ¬ key x ≤ k := by omega
        have hr := hrest (key x) (Nat.le_refl _)
        have hl := hrest k (Nat.le_of_lt hk)
        unfold between at hr hl ⊢
        rw [List.filter_cons, List.filter_cons, hr, hl]
        simp [ha, hself]
      · have hy := hbefore x hmem
        have hle : key y ≤ k := by
          rcases hnext y List.mem_cons_self with h | h
          · exact h
          · omega
        have hih := ih hys hmem fun z hz => hnext z (List.mem_cons_of_mem y hz)
        unfold between at hih ⊢
        rw [List.filter_cons, List.filter_cons, hih]
        have hle' : key y ≤ key x := by omega
        by_cases hay : a < key y
        · simp [hay, hle, hle']
        · simp [hay]

/-- No judgement, or the one of the next entry. -/
theorem first_next (hxs : xs.Pairwise fun x y => key x < key y) {a k : Nat} {x : α}
    (hx : x ∈ xs) (hk : k < key x) (ha : a < key x)
    (hnext : ∀ y ∈ xs, key y ≤ k ∨ key x ≤ key y) :
    first judge idle (between key xs a (key x)) =
      if first judge idle (between key xs a k) = idle then judge x
      else first judge idle (between key xs a k) := by
  rw [between_next hxs hx hk ha hnext, first_append, first_singleton]

end Cursor
