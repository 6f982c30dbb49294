import Mathlib.Algebra.Order.BigOperators.Group.List
import Mathlib.Algebra.Order.Ring.Int

/-!
Edit scripts: opcodes that turn one list into another piece by piece, and the
regions their changes are gathered into. Replacing the regions from the last to the
first turns the one list into the other.
-/

namespace EditScript

inductive Tag where
  | equal
  | replace
  | delete
  | insert
  deriving DecidableEq, Repr

/-- The elements of the old list from `a` to `b` become those of the new from `c` to `d`. -/
structure Opcode where
  tag : Tag
  a : Nat
  b : Nat
  c : Nat
  d : Nat

/-- Neighbouring changes as one. -/
structure Region where
  a : Nat
  b : Nat
  c : Nat
  d : Nat

section Slices

variable {α : Type}

def slice (xs : List α) (a b : Nat) : List α := (xs.take b).drop a

@[simp] theorem slice_self (xs : List α) (a : Nat) : slice xs a a = [] := by
  rw [slice, List.drop_eq_nil_iff]
  exact List.length_take_le a xs

theorem slice_all (xs : List α) : slice xs 0 xs.length = xs := by
  rw [slice, List.take_length, List.drop_zero]

theorem slice_append (xs : List α) {a b c : Nat} (hab : a ≤ b) (hbc : b ≤ c) :
    slice xs a b ++ slice xs b c = slice xs a c := by
  have htake : xs.take b = (xs.take c).take b := by rw [List.take_take, Nat.min_eq_left hbc]
  rw [slice, slice, slice, htake]
  generalize xs.take c = ys
  rcases Nat.le_total b ys.length with h | h
  · conv_rhs => rw [← List.take_append_drop b ys]
    rw [List.drop_append_of_le_length (by rw [List.length_take]; omega)]
  · rw [List.take_of_length_le h, List.drop_eq_nil_of_le h, List.append_nil]

/-- A slice of a slice. -/
theorem slice_slice (xs : List α) (n m a b : Nat) (h : b + n ≤ m) :
    slice (slice xs n m) a b = slice xs (a + n) (b + n) := by
  rw [slice, slice, slice, List.take_drop, List.drop_drop, List.take_take,
    Nat.min_eq_left (by omega), Nat.add_comm n a, Nat.add_comm n b]

end Slices

variable {α : Type} (old new : List α)

/-- What an opcode says of the two lists. -/
structure Opcode.Valid (op : Opcode) : Prop where
  a_le : op.a ≤ op.b
  c_le : op.c ≤ op.d
  equal : op.tag = .equal → slice old op.a op.b = slice new op.c op.d
  changes : op.tag ≠ .equal → op.a < op.b ∨ op.c < op.d

/-- Opcodes one after another, from a position in the two lists to another. -/
inductive Path : Nat → Nat → List Opcode → Nat → Nat → Prop where
  | nil (i j : Nat) : Path i j [] i j
  | cons (op : Opcode) (ops : List Opcode) (k l : Nat) (hop : op.Valid old new)
      (rest : Path op.b op.d ops k l) : Path op.a op.c (op :: ops) k l

/-- A script for the whole of both lists. -/
def Script (ops : List Opcode) : Prop := Path old new 0 0 ops old.length new.length

def Opcode.shift (n : Nat) (op : Opcode) : Opcode :=
  { op with a := op.a + n, b := op.b + n, c := op.c + n, d := op.d + n }

namespace Path

variable {old new}

theorem mono {i j k l : Nat} {ops : List Opcode} (h : Path old new i j ops k l) :
    i ≤ k ∧ j ≤ l := by
  induction h with
  | nil i j => exact ⟨Nat.le_refl _, Nat.le_refl _⟩
  | cons op ops k l hop rest ih => exact ⟨Nat.le_trans hop.a_le ih.1, Nat.le_trans hop.c_le ih.2⟩

theorem append {i j k l m n : Nat} {ops ops' : List Opcode} (h : Path old new i j ops k l)
    (h' : Path old new k l ops' m n) : Path old new i j (ops ++ ops') m n := by
  induction h with
  | nil i j => exact h'
  | cons op ops k l hop rest ih => exact .cons op (ops ++ ops') m n hop (ih h')

/-- A script for the middles is one for the lists around them. -/
theorem shift {i j k l : Nat} {ops : List Opcode} (n m m' : Nat)
    (h : Path (slice old n m) (slice new n m') i j ops k l) (hk : k + n ≤ m) (hl : l + n ≤ m') :
    Path old new (i + n) (j + n) (ops.map (Opcode.shift n)) (k + n) (l + n) := by
  induction h with
  | nil i j => exact .nil (i + n) (j + n)
  | cons op ops k l hop rest ih =>
      have hmono := rest.mono
      refine .cons (op.shift n) _ _ _ ⟨?_, ?_, ?_, ?_⟩ (ih hk hl)
      · exact Nat.add_le_add_right hop.a_le n
      · exact Nat.add_le_add_right hop.c_le n
      · intro htag
        have heq := hop.equal htag
        rw [slice_slice old n m _ _ (by omega), slice_slice new n m' _ _ (by omega)] at heq
        exact heq
      · intro htag
        have := hop.changes htag
        simp only [Opcode.shift]
        omega

/-- Without a change both lists are the same. -/
theorem slice_eq {i j k l : Nat} {ops : List Opcode} (h : Path old new i j ops k l)
    (hequal : ∀ op ∈ ops, op.tag = .equal) : slice old i k = slice new j l := by
  induction h with
  | nil i j => rw [slice_self, slice_self]
  | cons op ops k l hop rest ih =>
      have hmono := rest.mono
      rw [← slice_append old hop.a_le hmono.1, ← slice_append new hop.c_le hmono.2,
        hop.equal (hequal op (List.mem_cons_self ..)),
        ih fun op' hop' => hequal op' (List.mem_cons_of_mem _ hop')]

/-- Two empty lists have no change. -/
theorem changes_nil {ops : List Opcode} {i j : Nat} (h : Path old new i j ops i j) :
    ∀ op ∈ ops, op.tag = .equal := by
  have hwithin : ∀ {i j k l : Nat} {ops : List Opcode}, Path old new i j ops k l → k ≤ i → l ≤ j →
      ∀ op ∈ ops, op.tag = .equal := by
    intro i j k l ops h
    induction h with
    | nil i j =>
        intro _ _ op hop
        cases hop
    | cons op ops k l hop rest ih =>
        intro hk hl op' hmem
        have hmono := rest.mono
        have ha := hop.a_le
        have hc := hop.c_le
        cases List.mem_cons.mp hmem with
        | inl heq =>
            rw [heq]
            by_contra htag
            have := hop.changes htag
            omega
        | inr hrest => exact ih (by omega) (by omega) op' hrest
  exact hwithin h (Nat.le_refl _) (Nat.le_refl _)

end Path

/-- A change joins the last region, or begins one. The last region comes first. -/
def addRegion (gap : Nat) (regions : List Region) (op : Opcode) : List Region :=
  match regions with
  | last :: rest =>
      if op.a - last.b ≤ gap then ⟨last.a, op.b, last.c, op.d⟩ :: rest
      else ⟨op.a, op.b, op.c, op.d⟩ :: last :: rest
  | [] => [⟨op.a, op.b, op.c, op.d⟩]

/-- The regions, last first, account for all that differs before a position. -/
def Covered : List Region → Nat → Nat → Prop
  | [], i, j => slice old 0 i = slice new 0 j
  | r :: rs, i, j => (r.a ≤ r.b ∧ r.b ≤ i) ∧ (r.c ≤ r.d ∧ r.d ≤ j) ∧
      slice old r.b i = slice new r.d j ∧ Covered rs r.a r.c

/-- Regions more than a gap apart, last first. -/
def Apart (gap : Nat) (regions : List Region) : Prop :=
  regions.Pairwise fun later earlier => earlier.b + gap < later.a

section Regions

variable {old new}

/-- Equal pieces keep the regions. -/
theorem Covered.extend {rs : List Region} {i j k l : Nat} (h : Covered old new rs i j)
    (hik : i ≤ k) (hjl : j ≤ l) (heq : slice old i k = slice new j l) : Covered old new rs k l := by
  cases rs with
  | nil =>
      rw [Covered] at h ⊢
      rw [← slice_append old (Nat.zero_le i) hik, ← slice_append new (Nat.zero_le j) hjl, h, heq]
  | cons r rs =>
      obtain ⟨⟨hab, hb⟩, ⟨hcd, hd⟩, hbetween, hrest⟩ := h
      refine ⟨⟨hab, by omega⟩, ⟨hcd, by omega⟩, ?_, hrest⟩
      rw [← slice_append old hb hik, ← slice_append new hd hjl, hbetween, heq]

theorem covered_addRegion (gap : Nat) (rs : List Region) (op : Opcode) (hop : op.Valid old new)
    (h : Covered old new rs op.a op.c) (hapart : Apart gap rs) :
    Covered old new (addRegion gap rs op) op.b op.d ∧ Apart gap (addRegion gap rs op) := by
  cases rs with
  | nil =>
      refine ⟨⟨⟨hop.a_le, Nat.le_refl _⟩, ⟨hop.c_le, Nat.le_refl _⟩, ?_, h⟩, List.pairwise_singleton ..⟩
      rw [slice_self, slice_self]
  | cons last rest =>
      obtain ⟨⟨hab, hb⟩, ⟨hcd, hd⟩, hbetween, hrest⟩ := h
      obtain ⟨hlast, hapart'⟩ := List.pairwise_cons.mp hapart
      have ha := hop.a_le
      have hc := hop.c_le
      rw [addRegion]
      split
      · refine ⟨⟨⟨by simp only; omega, Nat.le_refl _⟩, ⟨by simp only; omega, Nat.le_refl _⟩, ?_, hrest⟩,
          List.pairwise_cons.mpr ⟨hlast, hapart'⟩⟩
        rw [slice_self, slice_self]
      next hfar =>
        refine ⟨⟨⟨ha, Nat.le_refl _⟩, ⟨hc, Nat.le_refl _⟩, ?_, ⟨hab, hb⟩, ⟨hcd, hd⟩, hbetween, hrest⟩,
          List.pairwise_cons.mpr ⟨?_, hapart⟩⟩
        · rw [slice_self, slice_self]
        · intro r hr
          cases List.mem_cons.mp hr with
          | inl heq =>
              rw [heq]
              simp only
              omega
          | inr hmem =>
              have := hlast r hmem
              simp only
              omega

/-- The regions of a script account for all that differs. -/
theorem covered_foldl (gap : Nat) {i j k l : Nat} {ops : List Opcode}
    (h : Path old new i j ops k l) (rs : List Region) (hrs : Covered old new rs i j)
    (hapart : Apart gap rs) :
    Covered old new ((ops.filter (·.tag ≠ .equal)).foldl (addRegion gap) rs) k l ∧
      Apart gap ((ops.filter (·.tag ≠ .equal)).foldl (addRegion gap) rs) := by
  induction h generalizing rs with
  | nil i j => exact ⟨hrs, hapart⟩
  | cons op ops k l hop rest ih =>
      by_cases htag : op.tag = .equal
      · rw [List.filter_cons_of_neg (by simp [htag])]
        exact ih rs (hrs.extend hop.a_le hop.c_le (hop.equal htag)) hapart
      · rw [List.filter_cons_of_pos (by simp [htag]), List.foldl_cons]
        obtain ⟨hcovered, hapart'⟩ := covered_addRegion gap rs op hop hrs hapart
        exact ih _ hcovered hapart'

theorem foldl_addRegion_eq_nil (gap : Nat) (ops : List Opcode) (rs : List Region) :
    ops.foldl (addRegion gap) rs = [] ↔ ops = [] ∧ rs = [] := by
  induction ops generalizing rs with
  | nil => simp
  | cons op ops ih =>
      rw [List.foldl_cons, ih]
      have hadd : addRegion gap rs op ≠ [] := by
        cases rs with
        | nil => exact List.cons_ne_nil _ _
        | cons last rest =>
            rw [addRegion]
            split <;> exact List.cons_ne_nil _ _
      simp [hadd]

end Regions

section Text

variable {β : Type} (old new : List (List β))

/-- Where a line begins in the text. -/
def offset (lines : List (List β)) (a : Nat) : Nat := ((lines.take a).map List.length).sum

theorem length_slice (lines : List (List β)) (a : Nat) :
    (slice lines 0 a).flatten.length = offset lines a := by
  rw [slice, List.drop_zero, List.length_flatten, offset]

/-- Put other text in the place of a range. -/
def replaceRange (text : List β) (start finish : Nat) (after : List β) : List β :=
  text.take start ++ after ++ text.drop finish

theorem replaceRange_eq (x y z after : List β) :
    replaceRange (x ++ (y ++ z)) x.length (x ++ y).length after = x ++ (after ++ z) := by
  rw [replaceRange, List.take_left, ← List.append_assoc x y z, List.drop_left, List.append_assoc]

/-- Replacing the regions from the last on turns the one text into the other. -/
theorem foldl_replaceRange (rs : List Region) (i j : Nat) (h : Covered old new rs i j)
    (rest : List β) :
    rs.foldl (fun text r => replaceRange text (offset old r.a) (offset old r.b)
        (slice new r.c r.d).flatten) ((slice old 0 i).flatten ++ rest) =
      (slice new 0 j).flatten ++ rest := by
  induction rs generalizing i j rest with
  | nil => rw [List.foldl_nil, h]
  | cons r rs ih =>
      obtain ⟨⟨hab, hb⟩, ⟨hcd, hd⟩, hbetween, hrest⟩ := h
      have hold : (slice old 0 i).flatten ++ rest = (slice old 0 r.a).flatten ++
          ((slice old r.a r.b).flatten ++ ((slice old r.b i).flatten ++ rest)) := by
        rw [← slice_append old (Nat.zero_le r.b) hb, ← slice_append old (Nat.zero_le r.a) hab]
        simp
      have hstart : offset old r.a = (slice old 0 r.a).flatten.length :=
        (length_slice old r.a).symm
      have hfinish : offset old r.b =
          ((slice old 0 r.a).flatten ++ (slice old r.a r.b).flatten).length := by
        rw [← length_slice, ← slice_append old (Nat.zero_le r.a) hab, List.flatten_append]
      rw [List.foldl_cons, hold, hstart, hfinish, replaceRange_eq, ih r.a r.c hrest, hbetween,
        ← slice_append new (Nat.zero_le r.d) hd, ← slice_append new (Nat.zero_le r.c) hcd]
      simp

end Text

end EditScript
