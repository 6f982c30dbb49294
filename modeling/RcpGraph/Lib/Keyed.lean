import Mathlib.Data.List.Perm.Basic
import RcpGraph.Lib.Dict

/-!
Updates that each touch one key. A run of them changes every key as the run of its
own updates does, and a dictionary is known by what it has under its keys.
-/

universe u v

namespace List

variable {α : Type u} {β : Type v}

/-- What one element alone contributes. -/
theorem filter_flatMap_of_unique (f : α → List β) (p : β → Bool) (l : List α) (hl : l.Nodup)
    (x : α) (hx : x ∈ l) (hother : ∀ y ∈ l, y ≠ x → (f y).filter p = []) :
    (l.flatMap f).filter p = (f x).filter p := by
  induction l with
  | nil => cases hx
  | cons y ys ih =>
      obtain ⟨hy, hys⟩ := List.nodup_cons.mp hl
      rw [flatMap_cons, filter_append]
      by_cases heq : y = x
      · have hrest : (ys.flatMap f).filter p = [] := by
          rw [filter_flatMap, flatMap_eq_nil_iff]
          intro z hz
          exact hother z (mem_cons_of_mem y hz) fun h => hy (heq.trans h.symm ▸ hz)
        rw [hrest, append_nil, heq]
      · have hmem : x ∈ ys := (mem_cons.mp hx).resolve_left fun h => heq h.symm
        rw [hother y mem_cons_self heq, nil_append]
        exact ih hys hmem fun z hz => hother z (mem_cons_of_mem y hz)

theorem filter_flatMap_eq_nil (f : α → List β) (p : β → Bool) (l : List α)
    (h : ∀ y ∈ l, (f y).filter p = []) : (l.flatMap f).filter p = [] := by
  rw [filter_flatMap, flatMap_eq_nil_iff]
  exact h

end List

namespace Dict

variable {κ α ω : Type} [DecidableEq κ]

theorem get?_update (d : Dict κ α) (es : List (κ × α)) (hes : (es.map Prod.fst).Nodup) (k : κ) :
    (d.update es).get? k = (Assoc.find k es).or (d.get? k) :=
  Assoc.find_overwrite d.entries es hes k

theorem get?_ofList (es : List (κ × α)) (hes : (es.map Prod.fst).Nodup) (k : κ) :
    (ofList es).get? k = Assoc.find k es := by
  rw [ofList, get?_update empty es hes, get?_empty, Option.or_none]

/-- A dictionary has the entries that it answers with. -/
theorem entries_perm (d : Dict κ α) (es : List (κ × α)) (hes : (es.map Prod.fst).Nodup)
    (hget : ∀ e ∈ es, d.get? e.1 = some e.2) (hkeys : ∀ k ∈ d, k ∈ es.map Prod.fst) :
    d.entries.Perm es := by
  refine (List.perm_ext_iff_of_nodup (d.nodup.of_map _) (hes.of_map _)).mpr fun e => ?_
  constructor
  · intro he
    obtain ⟨e', he', hkey⟩ := List.mem_map.mp (hkeys e.1 (List.mem_map.mpr ⟨e, he, rfl⟩))
    have hvalue := hget e' he'
    rw [hkey, (get?_eq_some_iff d e.1 e.2).mpr he, Option.some.injEq] at hvalue
    rw [show e = e' from Prod.ext hkey.symm hvalue]
    exact he'
  · intro he
    exact (get?_eq_some_iff d e.1 e.2).mp (hget e he)

variable {ε : Type} (key : ω → κ) (run : Option α → ω → Except ε (Option α))
  (put : Dict κ α → κ → Option α → Dict κ α)

/-- One update: what is under its key is read, run and put back. -/
def updateKey (d : Dict κ α) (op : ω) : Except ε (Dict κ α) := do
  .ok (put d (key op) (← run (d.get? (key op)) op))

/-- A run of updates, each of one key, runs the updates of every key. -/
theorem foldlM_updateKey
    (hput : ∀ d k a x, (put d k a).get? x = if x = k then a else d.get? x)
    (ops : List ω) (d : Dict κ α) (result : κ → Option α)
    (h : ∀ k, (ops.filter fun op => key op = k).foldlM run (d.get? k) = .ok (result k)) :
    ∃ d', ops.foldlM (updateKey key run put) d = .ok d' ∧ ∀ k, d'.get? k = result k := by
  induction ops generalizing d with
  | nil =>
      refine ⟨d, rfl, fun k => ?_⟩
      have := h k
      rw [List.filter_nil, List.foldlM_nil] at this
      exact Except.ok.inj this
  | cons op ops ih =>
      have hfirst := h (key op)
      rw [List.filter_cons_of_pos (by simp), List.foldlM_cons] at hfirst
      cases hrun : run (d.get? (key op)) op with
      | error e =>
          rw [hrun] at hfirst
          cases hfirst
      | ok a =>
          rw [hrun] at hfirst
          obtain ⟨d', hfold, hget⟩ := ih (put d (key op) a) fun k => by
            rw [hput]
            split
            next hk =>
              rw [hk]
              exact hfirst
            next hk =>
              have := h k
              rw [List.filter_cons_of_neg (by simpa using fun heq => hk heq.symm)] at this
              exact this
          refine ⟨d', ?_, hget⟩
          rw [List.foldlM_cons, updateKey, hrun]
          exact hfold

end Dict
