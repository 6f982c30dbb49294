import Mathlib.Data.List.Nodup
import Mathlib.Data.List.Induction
import RcpGraph.Lib.Steps

/-!
Lists of writers. What a list writes to a place is what the last of its writers there
writes, and a run of the writers leaves it there. When the writers of one kind are folded
into the first of them, the kinds come in the order in which they begin, and the kind that
begins last has the last word.
-/

namespace LastWrite

section Last

variable {X P V : Type} (write : X → P → Option V)

/-- What a list leaves at a place. -/
def last (xs : List X) (p : P) : Option V := xs.reverse.findSome? fun x => write x p

theorem last_append (xs ys : List X) (p : P) :
    last write (xs ++ ys) p = (last write ys p).or (last write xs p) := by
  rw [last, List.reverse_append, List.findSome?_append]
  rfl

theorem last_singleton (x : X) (p : P) : last write [x] p = write x p := by
  cases h : write x p <;> simp [last, h]

theorem last_concat (xs : List X) (x : X) (p : P) :
    last write (xs ++ [x]) p = (write x p).or (last write xs p) := by
  rw [last_append, last_singleton]

theorem last_middle (before after : List X) (x : X) (p : P) :
    last write (before ++ x :: after) p =
      (last write after p).or ((write x p).or (last write before p)) := by
  rw [← List.singleton_append, last_append, last_append, last_singleton, Option.or_assoc]

theorem last_eq_none (xs : List X) (p : P) :
    last write xs p = none ↔ ∀ x ∈ xs, write x p = none := by
  rw [last, List.findSome?_eq_none_iff]
  constructor
  · intro h x hx
    exact h x (List.mem_reverse.mpr hx)
  · intro h x hx
    exact h x (List.mem_reverse.mp hx)

theorem last_map {Y : Type} (f : Y → X) (ys : List Y) (p : P) :
    last write (ys.map f) p = last (fun y => write (f y)) ys p := by
  rw [last, ← List.map_reverse, List.findSome?_map]
  rfl

/-- What is written can be looked at in another way. -/
theorem last_map_value {W : Type} (g : V → W) (xs : List X) (p : P) :
    last (fun x q => (write x q).map g) xs p = (last write xs p).map g := by
  induction xs using List.reverseRecOn with
  | nil => rfl
  | append_singleton xs x ih =>
      rw [last_concat, last_concat, ih]
      cases write x p <;> rfl

theorem last_congr {write' : X → P → Option V} (xs : List X) (p q : P)
    (h : ∀ x ∈ xs, write x p = write' x q) : last write xs p = last write' xs q := by
  induction xs using List.reverseRecOn with
  | nil => rfl
  | append_singleton xs x ih =>
      have hxs := ih fun y hy => h y (List.mem_append_left _ hy)
      rw [last_concat, last_concat, hxs, h x (List.mem_append_right _ List.mem_cons_self)]

/-- What writes nothing can be left out. -/
theorem last_filter (keep : X → Bool) (xs : List X) (p : P)
    (h : ∀ x ∈ xs, keep x = false → write x p = none) :
    last write (xs.filter keep) p = last write xs p := by
  induction xs using List.reverseRecOn with
  | nil => rfl
  | append_singleton xs x ih =>
      have hxs := ih fun y hy => h y (List.mem_append_left _ hy)
      rw [List.filter_append, last_append, hxs, last_concat]
      cases hkeep : keep x with
      | true => rw [List.filter_cons_of_pos hkeep, List.filter_nil, last_singleton]
      | false =>
          have hnone := h x (List.mem_append_right _ List.mem_cons_self) hkeep
          rw [List.filter_cons_of_neg (by rw [hkeep]; exact Bool.false_ne_true), hnone]
          rfl

end Last

section Run

variable {X P V S R : Type} (holds : S → P → R) (shows : R → V → Prop)

/-- A place shows what is written there; where nothing is, it holds what it held. -/
def Leaves (s t : S) (p : P) : Option V → Prop
  | some v => shows (holds t p) v
  | none => holds t p = holds s p

variable {holds shows}

theorem Leaves.trans {s t u : S} {p : P} {v w : Option V} (first : Leaves holds shows s t p v)
    (second : Leaves holds shows t u p w) : Leaves holds shows s u p (w.or v) := by
  cases w with
  | some w => exact second
  | none =>
      have hsame : holds u p = holds t p := second
      cases v with
      | some v =>
          change shows (holds u p) v
          rw [hsame]
          exact first
      | none => exact hsame.trans first

/-- A run of steps that leave what they write leaves what the last of them writes. -/
theorem run_leaves {ε : Type} (write : X → P → Option V) (f : X → S → Except ε S)
    (inv : S → Prop) (xs : List X)
    (step : ∀ x ∈ xs, ∀ s t, inv s → f x s = .ok t →
      inv t ∧ ∀ p, Leaves holds shows s t p (write x p))
    (s u : S) (hs : inv s) (h : Steps.run f xs s = .ok u) :
    inv u ∧ ∀ p, Leaves holds shows s u p (last write xs p) := by
  induction xs generalizing s with
  | nil =>
      cases h
      exact ⟨hs, fun p => rfl⟩
  | cons x xs ih =>
      obtain ⟨t, ht, hu⟩ := (Steps.run_cons_ok f x xs s u).mp h
      obtain ⟨hinv, hfirst⟩ := step x List.mem_cons_self s t hs ht
      obtain ⟨hend, hrest⟩ := ih (fun y hy => step y (List.mem_cons_of_mem x hy)) t hinv hu
      refine ⟨hend, fun p => ?_⟩
      have hsplit : last write (x :: xs) p = (last write xs p).or (write x p) := by
        have hmiddle := last_middle write [] xs x p
        rw [List.nil_append] at hmiddle
        rw [hmiddle]
        cases write x p <;> rfl
      rw [hsplit]
      exact (hfirst p).trans (hrest p)

end Run

section Kinds

variable {X P V K : Type} [DecidableEq K] (kind : X → K) (voids : X → K → Bool)

/-- The kinds of a list, in the order in which they begin. A writer of a new kind may void
kinds that have begun; a kind that is voided can begin again. -/
def begun (xs : List X) : List K :=
  xs.foldl
    (fun ks x => if kind x ∈ ks then ks else ks.filter (fun k => !voids x k) ++ [kind x]) []

/-- The members of a kind. -/
def ofKind (k : K) (xs : List X) : List X := xs.filter fun x => kind x = k

/-- Of the kinds that write a place, the one that begins last. What the members of a kind
write, folded into one, is `joined`. -/
def finalKind (joined : K → List X → P → Option V) (xs : List X) (p : P) : Option K :=
  (begun kind voids xs).reverse.find? fun k => (joined k (ofKind kind k xs) p).isSome

theorem begun_concat (xs : List X) (x : X) :
    begun kind voids (xs ++ [x]) =
      if kind x ∈ begun kind voids xs then begun kind voids xs
      else (begun kind voids xs).filter (fun k => !voids x k) ++ [kind x] := by
  rw [begun, List.foldl_append]
  rfl

theorem kind_mem_begun (xs : List X) (x : X) : kind x ∈ begun kind voids (xs ++ [x]) := by
  rw [begun_concat]
  split
  next hold => exact hold
  next => exact List.mem_append_right _ List.mem_cons_self

/-- A kind that nothing voids has begun as soon as it has a member. -/
theorem mem_begun (xs : List X) {k : K} (h : ∀ x, voids x k = false) (hk : ∃ x ∈ xs, kind x = k) :
    k ∈ begun kind voids xs := by
  induction xs using List.reverseRecOn with
  | nil =>
      obtain ⟨x, hx, -⟩ := hk
      cases hx
  | append_singleton xs x ih =>
      obtain ⟨y, hy, heq⟩ := hk
      cases List.mem_append.mp hy with
      | inr hlast =>
          rw [List.mem_singleton.mp hlast] at heq
          exact heq ▸ kind_mem_begun kind voids xs x
      | inl hold =>
          have hmem := ih ⟨y, hold, heq⟩
          rw [begun_concat]
          split
          next => exact hmem
          next =>
            refine List.mem_append_left _ (List.mem_filter.mpr ⟨hmem, ?_⟩)
            rw [h x]
            rfl

theorem nodup_begun (xs : List X) : (begun kind voids xs).Nodup := by
  induction xs using List.reverseRecOn with
  | nil => exact List.nodup_nil
  | append_singleton xs x ih =>
      rw [begun_concat]
      split
      · exact ih
      next hnew =>
        refine List.nodup_append.mpr ⟨ih.filter _, List.nodup_singleton _, ?_⟩
        intro k hk k' hk' heq
        rw [List.mem_singleton] at hk'
        exact hnew (hk' ▸ heq ▸ (List.mem_filter.mp hk).1)

theorem ofKind_concat_same (xs : List X) (x : X) :
    ofKind kind (kind x) (xs ++ [x]) = ofKind kind (kind x) xs ++ [x] := by
  have hsingle : [x].filter (fun y => decide (kind y = kind x)) = [x] := by simp
  rw [ofKind, List.filter_append, hsingle]
  rfl

theorem ofKind_concat_other (xs : List X) (x : X) {k : K} (h : kind x ≠ k) :
    ofKind kind k (xs ++ [x]) = ofKind kind k xs := by
  have hsingle : [x].filter (fun y => decide (kind y = k)) = [] := by simp [h]
  rw [ofKind, List.filter_append, hsingle, List.append_nil]
  rfl

theorem ofKind_eq_nil (xs : List X) {k : K} (h : ¬∃ x ∈ xs, kind x = k) :
    ofKind kind k xs = [] := by
  rw [ofKind, List.filter_eq_nil_iff]
  intro x hx hkind
  exact h ⟨x, hx, of_decide_eq_true hkind⟩

theorem kind_of_mem {xs : List X} {k : K} {x : X} (h : x ∈ ofKind kind k xs) :
    x ∈ xs ∧ kind x = k := by
  obtain ⟨hmem, hkind⟩ := List.mem_filter.mp h
  exact ⟨hmem, of_decide_eq_true hkind⟩

variable (folds : X → List X → Prop)

/-- One slot for each kind that has begun, into which the members of the kind are folded. -/
structure Slots (xs slots : List X) : Prop where
  kinds : slots.map kind = begun kind voids xs
  folded : ∀ s ∈ slots, folds s (ofKind kind (kind s) xs)

variable {kind voids folds}

theorem Slots.nil : Slots kind voids folds [] [] := ⟨rfl, fun _ hs => absurd hs List.not_mem_nil⟩

theorem Slots.mem_kind {xs slots : List X} (h : Slots kind voids folds xs slots) (k : K) :
    (∃ s ∈ slots, kind s = k) ↔ k ∈ begun kind voids xs := by
  rw [← h.kinds, List.mem_map]

/-- A writer of a new kind has a slot of its own, and the slots that it voids go. -/
theorem Slots.begin {xs slots : List X} (h : Slots kind voids folds xs slots) (x : X)
    (hnew : ∀ s ∈ slots, kind s ≠ kind x) (hfolds : folds x (ofKind kind (kind x) (xs ++ [x]))) :
    Slots kind voids folds (xs ++ [x]) (slots.filter (fun s => !voids x (kind s)) ++ [x]) := by
  have hbegun : kind x ∉ begun kind voids xs := by
    rw [← h.mem_kind]
    rintro ⟨s, hs, heq⟩
    exact hnew s hs heq
  constructor
  · rw [begun_concat, if_neg hbegun, List.map_append, ← h.kinds, List.filter_map]
    rfl
  · intro s hs
    cases List.mem_append.mp hs with
    | inl hold =>
        have hmem := (List.mem_filter.mp hold).1
        rw [ofKind_concat_other kind xs x (Ne.symm (hnew s hmem))]
        exact h.folded s hmem
    | inr hlast =>
        rw [List.mem_singleton.mp hlast]
        exact hfolds

/-- A writer of a kind that has begun is folded into its slot. -/
theorem Slots.fold {xs before after : List X} {s : X}
    (h : Slots kind voids folds xs (before ++ s :: after)) (x t : X) (hs : kind s = kind x)
    (ht : kind t = kind x)
    (hfolds : folds s (ofKind kind (kind x) xs) → folds t (ofKind kind (kind x) xs ++ [x])) :
    Slots kind voids folds (xs ++ [x]) (before ++ t :: after) := by
  have hkinds : (before ++ t :: after).map kind = (before ++ s :: after).map kind := by
    rw [List.map_append, List.map_append, List.map_cons, List.map_cons, hs, ht]
  have hnodup := nodup_begun kind voids xs
  rw [← h.kinds, List.map_append, List.map_cons] at hnodup
  obtain ⟨-, hafter, hdisjoint⟩ := List.nodup_append.mp hnodup
  have hold : ∀ y ∈ before ++ after, kind y ≠ kind x := by
    intro y hy heq
    cases List.mem_append.mp hy with
    | inl hbefore =>
        exact hdisjoint _ (List.mem_map_of_mem hbefore) _ List.mem_cons_self (heq.trans hs.symm)
    | inr hlater =>
        apply (List.nodup_cons.mp hafter).1
        rw [hs, ← heq]
        exact List.mem_map_of_mem hlater
  have hother : ∀ y ∈ before ++ after, folds y (ofKind kind (kind y) (xs ++ [x])) := by
    intro y hy
    rw [ofKind_concat_other kind xs x (Ne.symm (hold y hy))]
    apply h.folded
    rw [List.mem_append] at hy ⊢
    exact hy.imp id (List.mem_cons_of_mem s)
  constructor
  · have hmem : kind x ∈ begun kind voids xs := by
      rw [← h.kinds, ← hs]
      exact List.mem_map_of_mem (List.mem_append_right _ List.mem_cons_self)
    rw [hkinds, h.kinds, begun_concat, if_pos hmem]
  · intro y hy
    rw [List.mem_append, List.mem_cons] at hy
    rcases hy with hbefore | rfl | hlater
    · exact hother y (List.mem_append_left _ hbefore)
    · have hslot := h.folded s (List.mem_append_right _ List.mem_cons_self)
      rw [hs] at hslot
      rw [ht, ofKind_concat_same]
      exact hfolds hslot
    · exact hother y (List.mem_append_right _ hlater)

/-- A writer that says no more than its slot is left out. -/
theorem Slots.skip {xs slots : List X} (h : Slots kind voids folds xs slots) (x s : X)
    (hmem : s ∈ slots) (hs : kind s = kind x)
    (hfolds : folds s (ofKind kind (kind x) xs) → folds s (ofKind kind (kind x) xs ++ [x])) :
    Slots kind voids folds (xs ++ [x]) slots := by
  obtain ⟨before, after, rfl⟩ := List.append_of_mem hmem
  exact h.fold x s hs hs hfolds

variable (write : X → P → Option V) (joined : K → List X → P → Option V)

/-- The slots leave what the kinds leave, one after another. -/
theorem Slots.last_eq {xs slots : List X} (h : Slots kind voids folds xs slots)
    (hjoined : ∀ s, folds s (ofKind kind (kind s) xs) →
      ∀ p, write s p = joined (kind s) (ofKind kind (kind s) xs) p) (p : P) :
    last write slots p =
      (begun kind voids xs).reverse.findSome? fun k => joined k (ofKind kind k xs) p := by
  have hwrites : ∀ s ∈ slots.reverse, write s p = joined (kind s) (ofKind kind (kind s) xs) p :=
    fun s hs => hjoined s (h.folded s (List.mem_reverse.mp hs)) p
  rw [last, ← h.kinds, ← List.map_reverse, List.findSome?_map]
  generalize slots.reverse = rest at hwrites
  induction rest with
  | nil => rfl
  | cons s rest ih =>
      rw [List.findSome?_cons, List.findSome?_cons, hwrites s List.mem_cons_self,
        ih fun t ht => hwrites t (List.mem_cons_of_mem s ht)]
      rfl

theorem findSome?_eq_find? {α β : Type} (f : α → Option β) (l : List α) :
    l.findSome? f = (l.find? fun a => (f a).isSome).bind f := by
  induction l with
  | nil => rfl
  | cons a l ih =>
      rw [List.findSome?_cons, List.find?_cons]
      cases h : f a with
      | none => exact ih
      | some b => exact h.symm

/-- A place that is written is written by a kind that has begun: what voids a kind writes all
that its members write. -/
theorem written_begun (hvoids : ∀ x m p, voids x (kind m) = true → write x p = none →
      write m p = none) (xs : List X) (p : P) (h : ∃ x ∈ xs, write x p ≠ none) :
    ∃ k ∈ begun kind voids xs, ∃ m ∈ xs, kind m = k ∧ write m p ≠ none := by
  induction xs using List.reverseRecOn with
  | nil =>
      obtain ⟨x, hx, -⟩ := h
      cases hx
  | append_singleton xs x ih =>
      by_cases hwrites : write x p = none
      · have hbefore : ∃ y ∈ xs, write y p ≠ none := by
          obtain ⟨y, hy, hne⟩ := h
          cases List.mem_append.mp hy with
          | inl hold => exact ⟨y, hold, hne⟩
          | inr hlast => exact absurd (List.mem_singleton.mp hlast ▸ hwrites) hne
        obtain ⟨k, hk, m, hm, hkind, hne⟩ := ih hbefore
        refine ⟨k, ?_, m, List.mem_append_left _ hm, hkind, hne⟩
        rw [begun_concat]
        split
        · exact hk
        · refine List.mem_append_left _ (List.mem_filter.mpr ⟨hk, ?_⟩)
          cases hvoid : voids x k with
          | false => rfl
          | true => exact absurd (hvoids x m p (hkind ▸ hvoid) hwrites) hne
      · exact ⟨kind x, kind_mem_begun kind voids xs x, x,
          List.mem_append_right _ List.mem_cons_self, rfl, hwrites⟩

/-- The slots keep the last write of a place exactly when the kind that begins last among
those that write it also writes it last, or writes the same last. -/
theorem Slots.last_eq_iff {xs slots : List X} (h : Slots kind voids folds xs slots)
    (hjoined : ∀ s, folds s (ofKind kind (kind s) xs) →
      ∀ p, write s p = joined (kind s) (ofKind kind (kind s) xs) p)
    (hnone : ∀ k p, joined k (ofKind kind k xs) p = none →
      ∀ m ∈ ofKind kind k xs, write m p = none)
    (hvoids : ∀ x m p, voids x (kind m) = true → write x p = none → write m p = none) (p : P) :
    last write slots p = last write xs p ↔
      ∀ k, finalKind kind voids joined xs p = some k →
        joined k (ofKind kind k xs) p = last write xs p := by
  rw [h.last_eq write joined hjoined, findSome?_eq_find?]
  change (finalKind kind voids joined xs p).bind _ = _ ↔ _
  cases hfinal : finalKind kind voids joined xs p with
  | some k =>
      refine ⟨fun heq k' hk' => ?_, fun hall => hall k rfl⟩
      cases hk'
      exact heq
  | none =>
      constructor
      · intro _ k hk
        cases hk
      intro _
      symm
      rw [Option.bind_none, last_eq_none]
      by_contra hall
      push Not at hall
      obtain ⟨k, hk, m, hm, hkind, hne⟩ := written_begun write hvoids xs p hall
      have hsilent := List.find?_eq_none.mp hfinal k (List.mem_reverse.mpr hk)
      rw [Option.not_isSome_iff_eq_none] at hsilent
      exact hne (hnone k p hsilent m (List.mem_filter.mpr ⟨hm, decide_eq_true hkind⟩))

end Kinds

end LastWrite
