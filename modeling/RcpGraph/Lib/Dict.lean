import Mathlib.Data.List.Basic
import Mathlib.Data.List.Nodup

/-!
Insertion-ordered dictionaries. A key is listed once, at the place where it was
first written, and writing a present key keeps its place. The lemmas describe
every operation through lookup, so a client never sees the entry list.
-/

universe u v w

namespace Assoc

variable {κ : Type u} {α : Type v} [DecidableEq κ]

def find (k : κ) : List (κ × α) → Option α
  | [] => none
  | e :: es => if e.1 = k then some e.2 else find k es

/-- Write one key of an entry list: in place when present, else at the end. -/
def write (k : κ) (a : α) : List (κ × α) → List (κ × α)
  | [] => [(k, a)]
  | e :: es => if e.1 = k then (k, a) :: es else e :: write k a es

theorem mem_fst_write (k x : κ) (a : α) (es : List (κ × α)) :
    x ∈ (write k a es).map Prod.fst ↔ x = k ∨ x ∈ es.map Prod.fst := by
  induction es with
  | nil => simp [write]
  | cons e es ih =>
      unfold write
      split
      next h => simp [h]
      next h =>
        simp only [List.map_cons, List.mem_cons, ih]
        tauto

theorem nodup_write (k : κ) (a : α) (es : List (κ × α))
    (h : (es.map Prod.fst).Nodup) : ((write k a es).map Prod.fst).Nodup := by
  induction es with
  | nil => simp [write]
  | cons e es ih =>
      obtain ⟨hn, ht⟩ := List.nodup_cons.mp h
      unfold write
      split
      next he => exact List.nodup_cons.mpr ⟨he ▸ hn, ht⟩
      next he =>
        refine List.nodup_cons.mpr ⟨?_, ih ht⟩
        rw [mem_fst_write]
        exact fun hm => hm.elim he hn

theorem find_write (k x : κ) (a : α) (es : List (κ × α)) :
    find x (write k a es) = if x = k then some a else find x es := by
  induction es with
  | nil => simp [write, find, eq_comm]
  | cons e es ih =>
      unfold write
      split
      next he =>
        subst he
        by_cases hx : e.1 = x
        · simp [find, hx]
        · simp [find, hx, Ne.symm hx]
      next he =>
        simp only [find, ih]
        by_cases hx : e.1 = x
        · subst hx
          simp [he]
        · simp [hx]

theorem find_eq_none (x : κ) (es : List (κ × α)) (h : x ∉ es.map Prod.fst) :
    find x es = none := by
  induction es with
  | nil => rfl
  | cons e es ih =>
      simp only [List.map_cons, List.mem_cons, not_or] at h
      simp [find, Ne.symm h.1, ih h.2]

theorem mem_of_find (x : κ) (a : α) (es : List (κ × α)) (h : find x es = some a) :
    (x, a) ∈ es := by
  induction es with
  | nil => cases h
  | cons e es ih =>
      obtain ⟨k, b⟩ := e
      rw [find] at h
      split at h
      next hk =>
        cases h
        cases hk
        exact List.mem_cons_self
      next => exact List.mem_cons_of_mem _ (ih h)

theorem find_filter (p : κ → α → Bool) (x : κ) (es : List (κ × α))
    (h : (es.map Prod.fst).Nodup) :
    find x (es.filter fun e => p e.1 e.2) = (find x es).filter (p x) := by
  induction es with
  | nil => rfl
  | cons e es ih =>
      obtain ⟨hn, ht⟩ := List.nodup_cons.mp h
      have iht := ih ht
      by_cases hx : e.1 = x
      · subst hx
        rw [find_eq_none e.1 es hn] at iht
        by_cases hp : p e.1 e.2 <;> simp [hp, find, iht, Option.filter]
      · by_cases hp : p e.1 e.2 <;> simp [hp, find, hx, iht]

theorem find_map {β : Type w} (f : κ → α → β) (x : κ) (es : List (κ × α)) :
    find x (es.map fun e => (e.1, f e.1 e.2)) = (find x es).map (f x) := by
  induction es with
  | nil => rfl
  | cons e es ih =>
      simp only [List.map_cons, find, ih]
      by_cases hx : e.1 = x
      · subst hx
        simp
      · simp [hx]

theorem find_eq_some_iff (es : List (κ × α)) (h : (es.map Prod.fst).Nodup) (x : κ) (a : α) :
    find x es = some a ↔ (x, a) ∈ es := by
  induction es with
  | nil => simp [find]
  | cons e es ih =>
      obtain ⟨e, b⟩ := e
      obtain ⟨hn, ht⟩ := List.nodup_cons.mp h
      rw [find, List.mem_cons]
      by_cases hx : e = x
      · subst hx
        have hm : (e, a) ∉ es := fun hm =>
          hn (List.mem_map.mpr ⟨(e, a), hm, rfl⟩)
        simp [hm, eq_comm]
      · simp [hx, Ne.symm hx, ih ht]

theorem map_write {β : Type w} (f : κ → α → β) (k : κ) (a : α) (es : List (κ × α)) :
    (write k a es).map (fun e => (e.1, f e.1 e.2)) =
      write k (f k a) (es.map fun e => (e.1, f e.1 e.2)) := by
  induction es with
  | nil => rfl
  | cons e es ih =>
      simp only [write, List.map_cons]
      split
      · rfl
      · rw [List.map_cons, ih]

theorem write_of_find (k : κ) (a : α) (es : List (κ × α)) (h : find k es = some a) :
    write k a es = es := by
  induction es with
  | nil => cases h
  | cons e es ih =>
      unfold write
      split
      next he =>
        simp only [find, he, if_true, Option.some.injEq] at h
        rw [← he, ← h]
      next he =>
        rw [ih (by simpa [find, he] using h)]

/-- Write a list of entries one after another. -/
def overwrite (es : List (κ × α)) (changes : List (κ × α)) : List (κ × α) :=
  changes.foldl (fun es e => write e.1 e.2 es) es

theorem nodup_overwrite (es changes : List (κ × α)) (h : (es.map Prod.fst).Nodup) :
    ((overwrite es changes).map Prod.fst).Nodup := by
  induction changes generalizing es with
  | nil => exact h
  | cons c changes ih => exact ih (write c.1 c.2 es) (nodup_write c.1 c.2 es h)

theorem find_overwrite_of_not_mem (es changes : List (κ × α)) (x : κ)
    (h : x ∉ changes.map Prod.fst) : find x (overwrite es changes) = find x es := by
  induction changes generalizing es with
  | nil => rfl
  | cons c changes ih =>
      simp only [List.map_cons, List.mem_cons, not_or] at h
      rw [overwrite, List.foldl_cons]
      exact (ih (write c.1 c.2 es) h.2).trans (by rw [find_write, if_neg h.1])

theorem find_overwrite_of_mem (es changes : List (κ × α)) (hn : (changes.map Prod.fst).Nodup)
    (x : κ) (a : α) (h : (x, a) ∈ changes) : find x (overwrite es changes) = some a := by
  induction changes generalizing es with
  | nil => cases h
  | cons c changes ih =>
      obtain ⟨hc, hn⟩ := List.nodup_cons.mp hn
      rw [overwrite, List.foldl_cons]
      rcases List.mem_cons.mp h with rfl | h
      · exact (find_overwrite_of_not_mem _ changes x hc).trans (by simp [find_write])
      · exact ih (write c.1 c.2 es) hn h

theorem find_overwrite (es changes : List (κ × α)) (hn : (changes.map Prod.fst).Nodup) (x : κ) :
    find x (overwrite es changes) = (find x changes).or (find x es) := by
  cases h : find x changes with
  | some a =>
      rw [find_overwrite_of_mem es changes hn x a ((find_eq_some_iff changes hn x a).mp h),
        Option.some_or]
  | none =>
      have hx : x ∉ changes.map Prod.fst := by
        intro hm
        obtain ⟨c, hc, rfl⟩ := List.mem_map.mp hm
        rw [(find_eq_some_iff changes hn c.1 c.2).mpr hc] at h
        cases h
      rw [find_overwrite_of_not_mem es changes x hx, Option.none_or]

theorem write_write (k : κ) (a b : α) (es : List (κ × α)) :
    write k a (write k b es) = write k a es := by
  induction es with
  | nil => simp [write]
  | cons e es ih =>
      by_cases he : e.1 = k
      · simp [write, he]
      · simp [write, he, ih]

theorem write_comm (k j : κ) (a b : α) (es : List (κ × α)) (hne : k ≠ j)
    (hk : k ∈ es.map Prod.fst) : write k a (write j b es) = write j b (write k a es) := by
  induction es with
  | nil => cases hk
  | cons e es ih =>
      by_cases he : e.1 = k
      · simp [write, he, hne]
      · have hin : k ∈ es.map Prod.fst := by
          rcases List.mem_cons.mp hk with h | h
          · exact absurd h.symm he
          · exact h
        by_cases hej : e.1 = j
        · simp [write, hej, Ne.symm hne]
        · simp [write, he, hej, ih hin]

/-- Writing a key that is there commutes with writing others. -/
theorem write_overwrite_of_not_mem (k : κ) (a : α) (es changes : List (κ × α))
    (hk : k ∈ es.map Prod.fst) (hc : k ∉ changes.map Prod.fst) :
    write k a (overwrite es changes) = overwrite (write k a es) changes := by
  induction changes generalizing es with
  | nil => rfl
  | cons c changes ih =>
      simp only [List.map_cons, List.mem_cons, not_or] at hc
      simp only [overwrite, List.foldl_cons] at ih ⊢
      rw [ih (write c.1 c.2 es) ((mem_fst_write c.1 k c.2 es).mpr (.inr hk)) hc.2,
        write_comm k c.1 a c.2 es hc.1 hk]

theorem write_overwrite (k : κ) (a : α) (es changes : List (κ × α))
    (hn : (changes.map Prod.fst).Nodup) :
    write k a (overwrite es changes) = overwrite es (write k a changes) := by
  induction changes generalizing es with
  | nil => rfl
  | cons c changes ih =>
      obtain ⟨hc, hn⟩ := List.nodup_cons.mp hn
      by_cases he : c.1 = k
      · have hwritten : k ∈ (write k c.2 es).map Prod.fst :=
          (mem_fst_write k k c.2 es).mpr (.inl rfl)
        rw [he] at hc
        simp only [write, he, if_true, overwrite, List.foldl_cons]
        exact (write_overwrite_of_not_mem k a _ changes hwritten hc).trans
          (by rw [write_write]; rfl)
      · simp only [write, he, if_false, overwrite, List.foldl_cons]
        exact ih (write c.1 c.2 es) hn

end Assoc

/-- A dictionary with its insertion order. -/
@[ext]
structure Dict (κ : Type u) (α : Type v) where
  entries : List (κ × α)
  nodup : (entries.map Prod.fst).Nodup

namespace Dict

variable {κ : Type u} {α : Type v} {β : Type w}

instance [DecidableEq κ] [DecidableEq α] : DecidableEq (Dict κ α) := fun a b =>
  decidable_of_iff (a.entries = b.entries) Dict.ext_iff.symm

instance [Repr κ] [Repr α] : Repr (Dict κ α) := ⟨fun d n => reprPrec d.entries n⟩

def empty : Dict κ α := ⟨[], List.nodup_nil⟩

instance : Inhabited (Dict κ α) := ⟨empty⟩

def keys (d : Dict κ α) : List κ := d.entries.map Prod.fst

def values (d : Dict κ α) : List α := d.entries.map Prod.snd

instance : Membership κ (Dict κ α) := ⟨fun d k => k ∈ d.keys⟩

theorem mem_iff (d : Dict κ α) (k : κ) : k ∈ d ↔ k ∈ d.keys := Iff.rfl

instance [DecidableEq κ] (d : Dict κ α) (k : κ) : Decidable (k ∈ d) :=
  inferInstanceAs (Decidable (k ∈ d.keys))

variable [DecidableEq κ]

def get? (d : Dict κ α) (k : κ) : Option α := Assoc.find k d.entries

def getD (d : Dict κ α) (k : κ) (fallback : α) : α := (d.get? k).getD fallback

def insert (d : Dict κ α) (k : κ) (a : α) : Dict κ α :=
  ⟨Assoc.write k a d.entries, Assoc.nodup_write k a d.entries d.nodup⟩

/-- Keep the entries a test accepts, in their order. -/
def filter (d : Dict κ α) (p : κ → α → Bool) : Dict κ α :=
  ⟨d.entries.filter fun e => p e.1 e.2,
    d.nodup.sublist (List.filter_sublist.map Prod.fst)⟩

def erase (d : Dict κ α) (k : κ) : Dict κ α := d.filter fun k' _ => k' ≠ k

def map (d : Dict κ α) (f : κ → α → β) : Dict κ β :=
  ⟨d.entries.map fun e => (e.1, f e.1 e.2), by
    simpa [Function.comp_def] using d.nodup⟩

/-- Write a list of entries one after another. -/
def update (d : Dict κ α) (es : List (κ × α)) : Dict κ α :=
  ⟨Assoc.overwrite d.entries es, Assoc.nodup_overwrite d.entries es d.nodup⟩

def ofList (es : List (κ × α)) : Dict κ α := empty.update es

/-- Equality as mappings, without the order. -/
def same [DecidableEq α] (d e : Dict κ α) : Bool :=
  decide (d.entries.length = e.entries.length) &&
    d.entries.all fun x => decide (e.get? x.1 = some x.2)

@[simp] theorem get?_empty (k : κ) : (empty : Dict κ α).get? k = none := rfl

@[simp] theorem get?_insert (d : Dict κ α) (k x : κ) (a : α) :
    (d.insert k a).get? x = if x = k then some a else d.get? x :=
  Assoc.find_write k x a d.entries

theorem get?_insert_self (d : Dict κ α) (k : κ) (a : α) : (d.insert k a).get? k = some a := by
  simp

@[simp] theorem get?_filter (d : Dict κ α) (p : κ → α → Bool) (x : κ) :
    (d.filter p).get? x = (d.get? x).filter (p x) :=
  Assoc.find_filter p x d.entries d.nodup

theorem get?_erase (d : Dict κ α) (k x : κ) :
    (d.erase k).get? x = if x = k then none else d.get? x := by
  rw [erase, get?_filter]
  by_cases h : x = k
  · subst h
    cases d.get? x <;> simp
  · cases d.get? x <;> simp [h]

theorem get?_foldl_erase (ks : List κ) (d : Dict κ α) (x : κ) :
    (ks.foldl erase d).get? x = if x ∈ ks then none else d.get? x := by
  induction ks generalizing d with
  | nil => simp
  | cons k ks ih =>
      rw [List.foldl_cons, ih, get?_erase]
      by_cases hx : x = k <;> by_cases hm : x ∈ ks <;> simp [hx, hm]

@[simp] theorem get?_map (d : Dict κ α) (f : κ → α → β) (x : κ) :
    (d.map f).get? x = (d.get? x).map (f x) :=
  Assoc.find_map f x d.entries

/-- Writing what is there changes nothing. -/
theorem insert_of_get? (d : Dict κ α) (k : κ) (a : α) (h : d.get? k = some a) :
    d.insert k a = d :=
  Dict.ext (Assoc.write_of_find k a d.entries h)

theorem map_insert (d : Dict κ α) (f : κ → α → β) (k : κ) (a : α) :
    (d.insert k a).map f = (d.map f).insert k (f k a) :=
  Dict.ext (Assoc.map_write f k a d.entries)

omit [DecidableEq κ] in
theorem map_filter (d : Dict κ α) (f : κ → α → β) (p : κ → α → Bool) (q : κ → β → Bool)
    (h : ∀ k a, q k (f k a) = p k a) : (d.filter p).map f = (d.map f).filter q := by
  refine Dict.ext ?_
  simp only [map, filter, List.filter_map, Function.comp_def, h]

theorem map_erase (d : Dict κ α) (f : κ → α → β) (k : κ) :
    (d.erase k).map f = (d.map f).erase k :=
  map_filter d f _ _ fun _ _ => rfl

omit [DecidableEq κ] in
@[simp] theorem keys_map (d : Dict κ α) (f : κ → α → β) : (d.map f).keys = d.keys := by
  simp [keys, map, Function.comp_def]

omit [DecidableEq κ] in
theorem mem_map (d : Dict κ α) (f : κ → α → β) (k : κ) : k ∈ d.map f ↔ k ∈ d := by
  simp [mem_iff]

/-- Filing after an update is updating with one entry more. -/
theorem update_insert (d e : Dict κ α) (k : κ) (a : α) :
    (d.update e.entries).insert k a = d.update (e.insert k a).entries := by
  ext1
  exact Assoc.write_overwrite k a d.entries e.entries e.nodup

theorem get?_eq_some_iff (d : Dict κ α) (k : κ) (a : α) :
    d.get? k = some a ↔ (k, a) ∈ d.entries :=
  Assoc.find_eq_some_iff d.entries d.nodup k a

/-- What a dict built from entries holds is one of them. -/
theorem mem_of_get?_ofList (es : List (κ × α)) (k : κ) (a : α) (h : (ofList es).get? k = some a) :
    (k, a) ∈ es := by
  have hfold : ∀ (start : List (κ × α)), Assoc.find k (Assoc.overwrite start es) = some a →
      Assoc.find k start = some a ∨ (k, a) ∈ es := by
    clear h
    induction es with
    | nil => intro start h; exact .inl h
    | cons e es ih =>
        intro start h
        rcases ih (Assoc.write e.1 e.2 start) h with hstart | hmem
        · rw [Assoc.find_write] at hstart
          split at hstart
          · rename_i hk
            cases hstart
            exact .inr (hk ▸ List.mem_cons_self)
          · exact .inl hstart
        · exact .inr (List.mem_cons_of_mem e hmem)
  rcases hfold [] h with hnone | hmem
  · cases hnone
  · exact hmem

theorem same_self [DecidableEq α] (d : Dict κ α) : d.same d = true := by
  simp only [same, decide_true, Bool.true_and, List.all_eq_true, decide_eq_true_eq]
  exact fun x hx => (get?_eq_some_iff d x.1 x.2).mpr hx

/-- Dictionaries that are the same answer every lookup alike. -/
theorem get?_of_same [DecidableEq α] (d e : Dict κ α) (h : d.same e = true) (k : κ) :
    d.get? k = e.get? k := by
  simp only [same, Bool.and_eq_true, decide_eq_true_eq, List.all_eq_true] at h
  obtain ⟨hlen, hall⟩ := h
  cases hd : d.get? k with
  | some a => exact (hall (k, a) ((get?_eq_some_iff d k a).mp hd)).symm
  | none =>
      cases he : e.get? k with
      | none => rfl
      | some a =>
          -- The keys of `d` and `k` are more keys of `e` than `e` has entries.
          have hk : k ∉ d.keys := by
            intro hk
            obtain ⟨x, hx, rfl⟩ := List.mem_map.mp hk
            rw [(get?_eq_some_iff d x.1 x.2).mpr hx] at hd
            cases hd
          have hsub : k :: d.keys ⊆ e.keys := by
            intro x hx
            rcases List.mem_cons.mp hx with rfl | hx
            · exact List.mem_map.mpr ⟨(x, a), (get?_eq_some_iff e x a).mp he, rfl⟩
            · obtain ⟨y, hy, rfl⟩ := List.mem_map.mp hx
              exact List.mem_map.mpr ⟨y, (get?_eq_some_iff e y.1 y.2).mp (hall y hy), rfl⟩
          have hle := (List.nodup_cons.mpr ⟨hk, d.nodup⟩).length_le_of_subset hsub
          rw [List.length_cons, keys, keys, List.length_map, List.length_map, hlen] at hle
          exact absurd hle (Nat.not_succ_le_self _)

theorem same_iff [DecidableEq α] (d e : Dict κ α) :
    d.same e = true ↔ ∀ k, d.get? k = e.get? k := by
  refine ⟨get?_of_same d e, fun h => ?_⟩
  have sub : ∀ (d e : Dict κ α), (∀ k, d.get? k = e.get? k) → d.keys ⊆ e.keys := by
    intro d e h k hk
    obtain ⟨x, hx, rfl⟩ := List.mem_map.mp hk
    have := (get?_eq_some_iff d x.1 x.2).mpr hx
    rw [h] at this
    exact List.mem_map.mpr ⟨x, (get?_eq_some_iff e x.1 x.2).mp this, rfl⟩
  have hlen : d.keys.length = e.keys.length :=
    Nat.le_antisymm (List.Nodup.length_le_of_subset d.nodup (sub d e h))
      (List.Nodup.length_le_of_subset e.nodup (sub e d fun k => (h k).symm))
  rw [keys, keys, List.length_map, List.length_map] at hlen
  simp only [same, Bool.and_eq_true, decide_eq_true_eq, List.all_eq_true]
  refine ⟨hlen, fun x hx => ?_⟩
  rw [← h, get?_eq_some_iff]
  exact hx

theorem mem_iff_exists (d : Dict κ α) (k : κ) : k ∈ d ↔ ∃ a, d.get? k = some a := by
  simp [mem_iff, keys, get?_eq_some_iff]

theorem mem_iff_isSome (d : Dict κ α) (k : κ) : k ∈ d ↔ (d.get? k).isSome := by
  rw [mem_iff_exists, Option.isSome_iff_exists]

theorem not_mem_iff (d : Dict κ α) (k : κ) : k ∉ d ↔ d.get? k = none := by
  rw [mem_iff_isSome]
  simp

theorem mem_of_get? {d : Dict κ α} {k : κ} {a : α} (h : d.get? k = some a) : k ∈ d :=
  (mem_iff_exists d k).mpr ⟨a, h⟩

theorem not_mem_empty (k : κ) : k ∉ (empty : Dict κ α) := by simp [not_mem_iff]

@[simp] theorem mem_insert (d : Dict κ α) (k x : κ) (a : α) :
    x ∈ d.insert k a ↔ x = k ∨ x ∈ d :=
  Assoc.mem_fst_write k x a d.entries

theorem mem_values (d : Dict κ α) (a : α) : a ∈ d.values ↔ ∃ k, d.get? k = some a := by
  simp [values, get?_eq_some_iff]

end Dict
