import Mathlib.Data.List.Basic

/-!
Cutting a list at a separator. What has been seen may end in the middle of a line; the
line that is left begun is carried to what comes next.
-/

namespace Framing

variable {α : Type} [DecidableEq α] (sep : α)

/-- The lines that end in a list after a line that was begun, and the line that is left begun. -/
def cut (line : List α) : List α → List (List α) × List α
  | [] => ([], line)
  | b :: bs =>
      if b = sep then ((line ++ [b]) :: (cut [] bs).1, (cut [] bs).2) else cut (line ++ [b]) bs

theorem cut_append (line xs ys : List α) :
    cut sep line (xs ++ ys) = ((cut sep line xs).1 ++ (cut sep (cut sep line xs).2 ys).1,
      (cut sep (cut sep line xs).2 ys).2) := by
  induction xs generalizing line with
  | nil => rfl
  | cons b bs ih =>
      rw [List.cons_append, cut, cut]
      split
      · rw [ih, List.cons_append]
      · exact ih (line ++ [b])

/-- Nothing is lost. -/
theorem cut_flatten (line xs : List α) :
    (cut sep line xs).1.flatten ++ (cut sep line xs).2 = line ++ xs := by
  induction xs generalizing line with
  | nil => exact (List.append_nil line).symm
  | cons b bs ih =>
      rw [cut]
      split
      · rw [List.flatten_cons, List.append_assoc, ih, List.nil_append, List.append_assoc,
          List.singleton_append]
      · rw [ih, List.append_assoc, List.singleton_append]

theorem cut_of_not_mem (line xs : List α) (h : sep ∉ xs) : cut sep line xs = ([], line ++ xs) := by
  induction xs generalizing line with
  | nil => rw [cut, List.append_nil]
  | cons b bs ih =>
      rw [List.mem_cons, not_or] at h
      rw [cut, if_neg (Ne.symm h.1), ih (line ++ [b]) h.2, List.append_assoc,
        List.singleton_append]

/-- One line that ends where the list does. -/
theorem cut_line (line body : List α) (h : sep ∉ body) :
    cut sep line (body ++ [sep]) = ([line ++ (body ++ [sep])], []) := by
  rw [cut_append, cut_of_not_mem sep line body h, cut, if_pos rfl, cut, List.append_assoc,
    List.nil_append]

end Framing
