import Mathlib.Data.List.Basic
import Mathlib.Data.List.DropRight
import Mathlib.Data.List.Nodup

/-!
Strings and sets of strings. A set is a duplicate-free list in code-point order,
which is the order `sorted` gives it. Pattern checks work on characters, so that
they evaluate on a concrete string.
-/

namespace Text

/-- Insert into an ordered duplicate-free list. -/
def insertSorted (s : String) : List String → List String
  | [] => [s]
  | t :: ts =>
      if s = t then t :: ts
      else if s < t then s :: t :: ts
      else t :: insertSorted s ts

/-- `sorted(set(xs))`. -/
def sortedSet (xs : List String) : List String := xs.foldr insertSorted []

@[simp] theorem mem_insertSorted (s x : String) (ts : List String) :
    x ∈ insertSorted s ts ↔ x = s ∨ x ∈ ts := by
  induction ts with
  | nil => simp [insertSorted]
  | cons t ts ih =>
      unfold insertSorted
      split
      next h => simp [h]
      next h =>
        split
        · simp
        · simp only [List.mem_cons, ih]
          tauto

@[simp] theorem mem_sortedSet (x : String) (xs : List String) : x ∈ sortedSet xs ↔ x ∈ xs := by
  induction xs with
  | nil => simp [sortedSet]
  | cons y ys ih =>
      rw [sortedSet, List.foldr_cons, mem_insertSorted, List.mem_cons]
      exact or_congr Iff.rfl ih

theorem sortedSet_eq_nil (xs : List String) : sortedSet xs = [] ↔ xs = [] := by
  rw [List.eq_nil_iff_forall_not_mem, List.eq_nil_iff_forall_not_mem]
  simp

/-- Insert into an ordered duplicate-free list of pairs. -/
def insertPair (p : String × String) : List (String × String) → List (String × String)
  | [] => [p]
  | q :: qs =>
      if p = q then q :: qs
      else if p.1 < q.1 ∨ (p.1 = q.1 ∧ p.2 < q.2) then p :: q :: qs
      else q :: insertPair p qs

/-- `sorted(set(xs))` of pairs. -/
def sortedPairs (xs : List (String × String)) : List (String × String) := xs.foldr insertPair []

/-- Insert by a string key, after the entries with the same key. -/
def insertByKey {α : Type} (key : α → String) (a : α) : List α → List α
  | [] => [a]
  | b :: bs => if key a < key b then a :: b :: bs else b :: insertByKey key a bs

/-- A stable sort by a string key. -/
def sortedByKey {α : Type} (key : α → String) (xs : List α) : List α :=
  xs.foldl (fun acc a => insertByKey key a acc) []

theorem mem_insertByKey {α : Type} (key : α → String) (a x : α) (bs : List α) :
    x ∈ insertByKey key a bs ↔ x = a ∨ x ∈ bs := by
  induction bs with
  | nil => simp [insertByKey]
  | cons b bs ih =>
      unfold insertByKey
      split
      · simp
      · simp only [List.mem_cons, ih]
        tauto

theorem mem_sortedByKey {α : Type} (key : α → String) (x : α) (xs : List α) :
    x ∈ sortedByKey key xs ↔ x ∈ xs := by
  have aux : ∀ (ys acc : List α),
      x ∈ ys.foldl (fun acc a => insertByKey key a acc) acc ↔ x ∈ ys ∨ x ∈ acc := by
    intro ys
    induction ys with
    | nil => simp
    | cons y ys ih =>
        intro acc
        rw [List.foldl_cons, ih, mem_insertByKey, List.mem_cons]
        tauto
  rw [sortedByKey, aux xs []]
  simp

/-- Drop repetitions, keeping first occurrences in order. -/
def stableUnion (xs : List String) : List String :=
  xs.foldl (fun seen x => if x ∈ seen then seen else seen ++ [x]) []

@[simp] theorem mem_stableUnion (x : String) (xs : List String) : x ∈ stableUnion xs ↔ x ∈ xs := by
  have aux : ∀ (xs seen : List String),
      x ∈ xs.foldl (fun seen x => if x ∈ seen then seen else seen ++ [x]) seen ↔
        x ∈ seen ∨ x ∈ xs := by
    intro xs
    induction xs with
    | nil => simp
    | cons y ys ih =>
        intro seen
        rw [List.foldl_cons, ih]
        split
        next hy =>
          constructor
          · rintro (h | h)
            · exact .inl h
            · exact .inr (List.mem_cons_of_mem y h)
          · rintro (h | h)
            · exact .inl h
            · rcases List.mem_cons.mp h with rfl | h
              · exact .inl hy
              · exact .inr h
        next => simp [or_assoc]
  simpa [stableUnion] using aux xs []

def join (sep : String) : List String → String
  | [] => ""
  | [s] => s
  | s :: ss => s ++ sep ++ join sep ss

def isLowerAscii (c : Char) : Bool := 'a' ≤ c && c ≤ 'z'

def isSlugChar (c : Char) : Bool := isLowerAscii c || ('0' ≤ c && c ≤ '9')

/-- `[a-z0-9]+(?:sep[a-z0-9]+)*`, where `fresh` says that a block has just begun. -/
def slugBlocks (sep : Char) : Bool → List Char → Bool
  | fresh, [] => !fresh
  | fresh, c :: cs =>
      if isSlugChar c then slugBlocks sep false cs
      else !fresh && c = sep && slugBlocks sep true cs

/-- `^[a-z][a-z0-9]*(?:_[a-z0-9]+)*$`. -/
def isIdentifier (cs : List Char) : Bool :=
  match cs with
  | [] => false
  | c :: rest => isLowerAscii c && slugBlocks '_' false rest

/-- Split at the first occurrence of a character. -/
def splitFirst (sep : Char) : List Char → Option (List Char × List Char)
  | [] => none
  | c :: cs => if c = sep then some ([], cs) else (splitFirst sep cs).map fun p => (c :: p.1, p.2)

/-- `part in whole`. -/
def contains (whole part : String) : Bool :=
  whole.toList.tails.any fun rest => part.toList.isPrefixOf rest

/-- White space as `str.strip` removes it. -/
def isSpace (c : Char) : Bool :=
  c = ' ' || ('\t' ≤ c && c ≤ '\r') || ('\x1c' ≤ c && c ≤ '\x1f') || c = '\u0085' ||
    c = '\u00a0' || c = '\u1680' || ('\u2000' ≤ c && c ≤ '\u200a') || c = '\u2028' ||
    c = '\u2029' || c = '\u202f' || c = '\u205f' || c = '\u3000'

def stripChars (cs : List Char) : List Char := (cs.dropWhile isSpace).rdropWhile isSpace

def strip (s : String) : String := String.ofList (stripChars s.toList)

theorem stripChars_idem (cs : List Char) : stripChars (stripChars cs) = stripChars cs := by
  have hhead : (stripChars cs).dropWhile isSpace = stripChars cs := by
    cases hs : stripChars cs with
    | nil => rfl
    | cons c rest =>
        obtain ⟨tail, ht⟩ : stripChars cs <+: cs.dropWhile isSpace :=
          List.rdropWhile_prefix isSpace _
        have hne : cs.dropWhile isSpace ≠ [] := by
          rw [← ht, hs]
          simp
        have hc : isSpace ((cs.dropWhile isSpace).head hne) = false := by
          simpa using List.head_dropWhile_not isSpace hne
        have : (cs.dropWhile isSpace).head hne = c := by
          simp [← ht, hs]
        rw [this] at hc
        simp [List.dropWhile, hc]
  rw [stripChars, hhead]
  exact List.rdropWhile_idempotent isSpace _

@[simp] theorem strip_strip (s : String) : strip (strip s) = strip s := by
  simp [strip, stripChars_idem]

/-- One character of a quoted `repr`. -/
def escapeChar (quote c : Char) : List Char :=
  if c = quote || c = '\\' then ['\\', c]
  else if c = '\n' then ['\\', 'n']
  else if c = '\r' then ['\\', 'r']
  else if c = '\t' then ['\\', 't']
  else [c]

/-- `repr` of a string: single quotes unless only double quotes avoid an escape. -/
def quoted (s : String) : String :=
  let cs := s.toList
  let q := if '\'' ∈ cs ∧ '"' ∉ cs then '"' else '\''
  String.ofList (q :: cs.flatMap (escapeChar q) ++ [q])

/-- `repr` of a list of strings. -/
def quotedList (xs : List String) : String := "[" ++ join ", " (xs.map quoted) ++ "]"

end Text
