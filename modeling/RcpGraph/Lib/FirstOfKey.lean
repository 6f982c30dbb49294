import Mathlib.Data.List.Basic

/-!
A pass over a list that keeps the first entry of each key it has not seen yet.
-/

universe u v w

namespace List

variable {α : Type u} {β : Type v} {κ : Type w} [DecidableEq κ] {key : α → κ} {seen : List κ}
  {xs : List α} {x : α} {k : κ}

/-- The first entry of each key that is not among those seen. -/
def firstOfKey (key : α → κ) : List κ → List α → List α
  | _, [] => []
  | seen, x :: xs =>
      if key x ∈ seen then firstOfKey key seen xs
      else x :: firstOfKey key (key x :: seen) xs

end List
