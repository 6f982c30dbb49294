import RcpGraph.Lib.EditScript

/-!
Line changes of a text. `lineChanges` compares two texts line by line and reports the
ranges that differ, near ones as one card and many as one rewrite. The ranges are an
exact patch of the text.
-/

namespace RcpGraph

open EditScript

/-- A separator of `str.splitlines`. -/
def isLineBreak (c : Char) : Bool :=
  c = '\n' || c = '\r' || c = '\x0b' || c = '\x0c' || ('\x1c' ≤ c && c ≤ '\x1e') || c = '\u0085' ||
    c = '\u2028' || c = '\u2029'

/-- `splitlines(keepends=True)`, with the line begun so far reversed. -/
def splitLines (line : List Char) : List Char → List (List Char)
  | '\r' :: '\n' :: rest => ('\n' :: '\r' :: line).reverse :: splitLines [] rest
  | c :: rest =>
      if isLineBreak c then (c :: line).reverse :: splitLines [] rest
      else splitLines (c :: line) rest
  | [] => if line = [] then [] else [line.reverse]

/-- How many elements two lists begin with in common. -/
def commonHead : List (List Char) → List (List Char) → Nat
  | x :: xs, y :: ys => if x = y then commonHead xs ys + 1 else 0
  | _, _ => 0

/-- `PAPER_CHANGES_DIFF_MAX_LINE_PAIRS`. -/
def paperChangesDiffMaxLinePairs : Nat := 1000000

/-- `SequenceMatcher(None, old, new, autojunk=False).get_opcodes()`. -/
abbrev Matcher := List (List Char) → List (List Char) → List Opcode

/-- `_line_opcodes`. -/
def lineOpcodes (getOpcodes : Matcher) (old new : List (List Char)) : List Opcode :=
  let head := commonHead old new
  let tail := commonHead (old.drop head).reverse (new.drop head).reverse
  let oldMiddle := slice old head (old.length - tail)
  let newMiddle := slice new head (new.length - tail)
  let middle :=
    if oldMiddle.length * newMiddle.length > paperChangesDiffMaxLinePairs then
      [⟨.replace, 0, oldMiddle.length, 0, newMiddle.length⟩]
    else getOpcodes oldMiddle newMiddle
  [⟨.equal, 0, head, 0, head⟩] ++ middle.map (Opcode.shift head) ++
    [⟨.equal, old.length - tail, old.length, new.length - tail, new.length⟩]

/-- `_CARD_MERGE_GAP_LINES`. -/
def cardMergeGapLines : Nat := 3

/-- `_REWRITE_CARD_COUNT`. -/
def rewriteCardCount : Nat := 12

inductive ChangeKind where
  | edit
  | rewrite
  deriving DecidableEq, Repr

structure LineChange where
  kind : ChangeKind
  start : Nat
  finish : Nat
  before : List Char
  after : List Char
  firstLine : Nat
  lastLine : Nat
  deriving DecidableEq, Repr

/-- The card of a region. -/
def lineChange (kind : ChangeKind) (old new : List (List Char)) (r : Region) : LineChange where
  kind := kind
  start := offset old r.a
  finish := offset old r.b
  before := (slice old r.a r.b).flatten
  after := (slice new r.c r.d).flatten
  firstLine := r.a + 1
  lastLine := max (r.a + 1) r.b

/-- Whether more than 0.4 of the lines changed, or the regions are too many for cards. -/
def isRewrite (old new : List (List Char)) (edits : List Opcode) (regions : List Region) : Bool :=
  let changed := max (edits.map fun op => op.b - op.a).sum (edits.map fun op => op.d - op.c).sum
  decide (2 * max (max old.length new.length) 1 < 5 * changed) ||
    decide (rewriteCardCount < regions.length)

/-- `line_changes`. -/
def lineChanges (getOpcodes : Matcher) (before after : List Char) : List LineChange :=
  let old := splitLines [] before
  let new := splitLines [] after
  let edits := (lineOpcodes getOpcodes old new).filter (·.tag ≠ .equal)
  let regions := edits.foldl (addRegion cardMergeGapLines) []
  if edits = [] then []
  else if isRewrite old new edits regions then
    [lineChange .rewrite old new ⟨0, old.length, 0, new.length⟩]
  else regions.reverse.map (lineChange .edit old new)

/-- Put the changes into a text from right to left. -/
def applyChanges (changes : List LineChange) (text : List Char) : List Char :=
  changes.foldr (fun change text => replaceRange text change.start change.finish change.after) text

section Lines

theorem flatten_splitLines (line text : List Char) :
    (splitLines line text).flatten = line.reverse ++ text := by
  fun_induction splitLines line text with
  | case1 line rest ih => simp [ih]
  | case2 line c rest _ _ ih => simp [ih]
  | case3 line c rest _ _ ih => simp [ih]
  | case4 => rfl
  | case5 line hline => simp

theorem splitLines_ne_nil (line text : List Char) : ∀ l ∈ splitLines line text, l ≠ [] := by
  fun_induction splitLines line text with
  | case1 line rest ih => simpa using ih
  | case2 line c rest _ _ ih => simpa using ih
  | case3 line c rest _ _ ih => exact ih
  | case4 => simp
  | case5 line hline => simpa using hline

theorem splitLines_inj {s t : List Char} (h : splitLines [] s = splitLines [] t) : s = t := by
  have hs := flatten_splitLines [] s
  rw [h, flatten_splitLines] at hs
  exact hs.symm

theorem commonHead_spec (xs ys : List (List Char)) :
    xs.take (commonHead xs ys) = ys.take (commonHead xs ys) ∧ commonHead xs ys ≤ xs.length ∧
      commonHead xs ys ≤ ys.length := by
  fun_induction commonHead xs ys with
  | case1 x xs ys ih =>
      simp only [List.take_succ_cons, List.length_cons, ih.1, true_and]
      omega
  | case2 => simp
  | case3 => simp

theorem commonHead_self (xs : List (List Char)) : commonHead xs xs = xs.length := by
  induction xs with
  | nil => rfl
  | cons x xs ih => simp [commonHead, ih]

end Lines

section Opcodes

variable (getOpcodes : Matcher)

/-- The common tail of two lists, as a slice of both. -/
theorem slice_tail (old new : List (List Char)) (n : Nat)
    (heq : old.reverse.take n = new.reverse.take n) :
    slice old (old.length - n) old.length = slice new (new.length - n) new.length := by
  rw [slice, slice, List.take_length, List.take_length]
  rw [List.take_reverse, List.take_reverse] at heq
  exact List.reverse_injective heq

/-- A middle past the budget is one replacement; otherwise it is compared. -/
theorem middle_script (hmatcher : ∀ old new, Script old new (getOpcodes old new))
    (old new : List (List Char)) :
    Script old new
      (if old.length * new.length > paperChangesDiffMaxLinePairs then
        [⟨.replace, 0, old.length, 0, new.length⟩]
      else getOpcodes old new) := by
  split
  next hbudget =>
    have hpos : 0 < old.length := by
      by_contra hzero
      rw [Nat.eq_zero_of_not_pos hzero, Nat.zero_mul] at hbudget
      omega
    exact .cons ⟨.replace, 0, old.length, 0, new.length⟩ [] _ _
      ⟨Nat.zero_le _, Nat.zero_le _, nofun, fun _ => .inl hpos⟩ (.nil _ _)
  next => exact hmatcher old new

/-- The opcodes are a script for the whole lists. -/
theorem lineOpcodes_script (hmatcher : ∀ old new, Script old new (getOpcodes old new))
    (old new : List (List Char)) : Script old new (lineOpcodes getOpcodes old new) := by
  have hhead := commonHead_spec old new
  have htail := commonHead_spec (old.drop (commonHead old new)).reverse
    (new.drop (commonHead old new)).reverse
  rw [lineOpcodes]
  generalize commonHead old new = head at hhead htail ⊢
  generalize commonHead (old.drop head).reverse (new.drop head).reverse = tail at htail ⊢
  simp only [List.length_reverse, List.length_drop] at htail
  have hmiddle := middle_script getOpcodes hmatcher (slice old head (old.length - tail))
    (slice new head (new.length - tail))
  have hlength : ∀ xs : List (List Char), tail ≤ xs.length - head → head ≤ xs.length →
      (slice xs head (xs.length - tail)).length + head = xs.length - tail := by
    intro xs h h'
    rw [slice, List.length_drop, List.length_take]
    omega
  have hold := hlength old htail.2.1 hhead.2.1
  have hnew := hlength new htail.2.2 hhead.2.2
  have hshift := hmiddle.shift head (old.length - tail) (new.length - tail) (by omega) (by omega)
  rw [Nat.zero_add, hold, hnew] at hshift
  apply Path.append
  · apply Path.append
    · refine .cons ⟨.equal, 0, head, 0, head⟩ [] _ _ ⟨Nat.zero_le _, Nat.zero_le _, ?_, ?_⟩ (.nil _ _)
      · intro _
        simpa [slice] using hhead.1
      · exact fun h => absurd rfl h
    · exact hshift
  · refine .cons ⟨.equal, old.length - tail, old.length, new.length - tail, new.length⟩ [] _ _
      ⟨Nat.sub_le _ _, Nat.sub_le _ _, ?_, fun h => absurd rfl h⟩ (.nil _ _)
    intro _
    apply slice_tail old new tail
    have hreverse : ∀ xs : List (List Char), tail ≤ xs.length - head →
        xs.reverse.take tail = (xs.drop head).reverse.take tail := by
      intro xs h
      rw [List.reverse_drop, List.take_take, Nat.min_eq_left]
      omega
    rw [hreverse old htail.2.1, hreverse new htail.2.2]
    exact htail.1

/-- The opcodes of one list with itself change nothing. -/
theorem lineOpcodes_self (hmatcher : ∀ old new, Script old new (getOpcodes old new))
    (old : List (List Char)) : ∀ op ∈ lineOpcodes getOpcodes old old, op.tag = .equal := by
  intro op hop
  rw [lineOpcodes, commonHead_self] at hop
  have hempty : ∀ n, slice old old.length n = [] := by
    intro n
    rw [slice, List.drop_eq_nil_iff, List.length_take]
    omega
  simp only [hempty, List.length_nil, Nat.zero_mul, gt_iff_lt, Nat.not_lt_zero, if_false,
    List.mem_append, List.mem_singleton, List.mem_map] at hop
  rcases hop with (rfl | ⟨op', hop', rfl⟩) | rfl
  · rfl
  · exact (hmatcher [] []).changes_nil op' hop'
  · rfl

end Opcodes

section Patch

variable (getOpcodes : Matcher)

theorem offset_length (lines : List (List Char)) :
    offset lines lines.length = lines.flatten.length := by
  rw [← length_slice, slice_all]

theorem offset_mono (lines : List (List Char)) {a b : Nat} (h : a ≤ b) :
    offset lines a ≤ offset lines b := by
  rw [← length_slice, ← length_slice, ← slice_append lines (Nat.zero_le a) h]
  simp

/-- Lines are not empty, so a later line begins later. -/
theorem offset_lt (lines : List (List Char)) (hlines : ∀ l ∈ lines, l ≠ []) {a b : Nat}
    (h : a < b) (hb : b ≤ lines.length) : offset lines a < offset lines b := by
  have ha : a < lines.length := by omega
  have hnext : offset lines (a + 1) = offset lines a + lines[a].length := by
    rw [offset, List.take_succ_eq_append_getElem ha, List.map_append, List.sum_append]
    simp [offset]
  have hline := List.length_pos_iff.mpr (hlines _ (List.getElem_mem ha))
  have := offset_mono lines (show a + 1 ≤ b by omega)
  omega

/-- The text of a region, between its offsets. -/
theorem slice_text (text : List Char) (lines : List (List Char)) (hlines : lines.flatten = text)
    {a b : Nat} (hab : a ≤ b) (hb : b ≤ lines.length) :
    (text.take (offset lines b)).drop (offset lines a) = (slice lines a b).flatten := by
  have hsplit : text = ((slice lines 0 a).flatten ++ (slice lines a b).flatten) ++
      (slice lines b lines.length).flatten := by
    rw [← List.flatten_append, slice_append lines (Nat.zero_le a) hab, ← List.flatten_append,
      slice_append lines (Nat.zero_le b) hb, slice_all, hlines]
  have hfinish : offset lines b = ((slice lines 0 a).flatten ++ (slice lines a b).flatten).length := by
    rw [← length_slice, ← slice_append lines (Nat.zero_le a) hab, List.flatten_append]
  rw [hsplit, hfinish, List.take_left, ← length_slice, List.drop_left]

/-- Regions of a covering lie within the lists. -/
theorem covered_bounds {old new : List (List Char)} {rs : List Region} {i j : Nat}
    (h : Covered old new rs i j) : ∀ r ∈ rs, r.a ≤ r.b ∧ r.b ≤ i := by
  induction rs generalizing i j with
  | nil =>
      intro r hr
      cases hr
  | cons last rest ih =>
      obtain ⟨⟨hab, hb⟩, -, -, hrest⟩ := h
      intro r hr
      cases List.mem_cons.mp hr with
      | inl heq => exact heq ▸ ⟨hab, hb⟩
      | inr hmem =>
          have := ih hrest r hmem
          omega

theorem foldl_map_replaceRange (kind : ChangeKind) (old new : List (List Char)) (rs : List Region)
    (text : List Char) :
    (rs.map (lineChange kind old new)).foldl
        (fun text change => replaceRange text change.start change.finish change.after) text =
      rs.foldl (fun text r => replaceRange text (offset old r.a) (offset old r.b)
        (slice new r.c r.d).flatten) text := by
  rw [List.foldl_map]
  rfl

/-- An exact patch: ordered disjoint ranges with the text they had, that turn one text into
the other. -/
structure ExactPatch (before after : List Char) (changes : List LineChange) : Prop where
  ordered : changes.Pairwise fun earlier later => earlier.finish < later.start
  ranges : ∀ change ∈ changes, change.start ≤ change.finish ∧ change.finish ≤ before.length
  texts : ∀ change ∈ changes,
    (before.take change.finish).drop change.start = change.before
  empty : changes = [] ↔ before = after
  applied : applyChanges changes before = after

/-- `line_changes` gives an exact patch. -/
theorem lineChanges_exact (hmatcher : ∀ old new, Script old new (getOpcodes old new))
    (before after : List Char) :
    ExactPatch before after (lineChanges getOpcodes before after) := by
  have hold := flatten_splitLines [] before
  have hnew := flatten_splitLines [] after
  have hlines := splitLines_ne_nil [] before
  have hinj : splitLines [] before = splitLines [] after ↔ before = after :=
    ⟨splitLines_inj, fun h => h ▸ rfl⟩
  rw [List.reverse_nil, List.nil_append] at hold hnew
  rw [lineChanges]
  generalize splitLines [] before = old at hold hlines hinj ⊢
  generalize splitLines [] after = new at hnew hinj ⊢
  have hscript := lineOpcodes_script getOpcodes hmatcher old new
  have hempty : (lineOpcodes getOpcodes old new).filter (·.tag ≠ .equal) = [] ↔ before = after := by
    rw [← hinj]
    constructor
    · intro hnone
      have hequal := hscript.slice_eq fun op hop => by
        simpa using List.filter_eq_nil_iff.mp hnone op hop
      rwa [slice_all, slice_all] at hequal
    · rintro rfl
      apply List.filter_eq_nil_iff.mpr
      intro op hop
      simp [lineOpcodes_self getOpcodes hmatcher old op hop]
  obtain ⟨hcovered, hapart⟩ := covered_foldl cardMergeGapLines hscript []
    (by rw [Covered, slice_self, slice_self]) List.Pairwise.nil
  have hregions := foldl_addRegion_eq_nil cardMergeGapLines
    ((lineOpcodes getOpcodes old new).filter (·.tag ≠ .equal)) []
  generalize (lineOpcodes getOpcodes old new).filter (·.tag ≠ .equal) = edits at *
  by_cases hnone : edits = []
  · rw [if_pos hnone]
    have heq := hempty.mp hnone
    refine ⟨List.Pairwise.nil, ?_, ?_, iff_of_true rfl heq, heq⟩
    · intro change hchange
      exact absurd hchange List.not_mem_nil
    · intro change hchange
      exact absurd hchange List.not_mem_nil
  · rw [if_neg hnone]
    generalize edits.foldl (addRegion cardMergeGapLines) [] = regions at hcovered hapart hregions ⊢
    split
    · -- The whole text is one card.
      refine ⟨List.pairwise_singleton .., ?_, ?_, ?_, ?_⟩
      · intro change hchange
        rw [List.mem_singleton.mp hchange]
        refine ⟨offset_mono old (Nat.zero_le _), ?_⟩
        rw [← hold, ← offset_length]
        exact Nat.le_refl _
      · intro change hchange
        rw [List.mem_singleton.mp hchange]
        exact slice_text before old hold (Nat.zero_le _) (Nat.le_refl _)
      · exact iff_of_false (List.cons_ne_nil _ _) fun h => hnone (hempty.mpr h)
      · rw [applyChanges, List.foldr_cons, List.foldr_nil, lineChange]
        simp only
        rw [slice_all, hnew, offset_length, hold, replaceRange, List.drop_length]
        simp [offset]
    · have hbounds := covered_bounds hcovered
      refine ⟨?_, ?_, ?_, ?_, ?_⟩
      · rw [List.pairwise_map, List.pairwise_reverse]
        refine List.Pairwise.imp_of_mem ?_ hapart
        intro later earlier hlater hearlier hgap
        apply offset_lt old hlines (by omega)
        have := hbounds later hlater
        omega
      · intro change hchange
        obtain ⟨r, hr, rfl⟩ := List.mem_map.mp hchange
        have hbound := hbounds r (List.mem_reverse.mp hr)
        refine ⟨offset_mono old hbound.1, ?_⟩
        rw [← hold, ← offset_length]
        exact offset_mono old hbound.2
      · intro change hchange
        obtain ⟨r, hr, rfl⟩ := List.mem_map.mp hchange
        have hbound := hbounds r (List.mem_reverse.mp hr)
        exact slice_text before old hold hbound.1 hbound.2
      · rw [List.map_eq_nil_iff, List.reverse_eq_nil_iff, hregions, and_iff_left rfl]
        exact hempty
      · have happly := foldl_replaceRange old new regions old.length new.length hcovered []
        rw [List.append_nil, List.append_nil, slice_all, slice_all, hold, hnew] at happly
        rw [applyChanges, List.map_reverse, List.foldr_reverse, foldl_map_replaceRange]
        exact happly

end Patch

section Instances

/-- A comparison that replaces the whole list. -/
def replaceAll : Matcher := fun old new =>
  if old = [] ∧ new = [] then [] else [⟨.replace, 0, old.length, 0, new.length⟩]

theorem replaceAll_script (old new : List (List Char)) : Script old new (replaceAll old new) := by
  rw [replaceAll]
  split
  next h =>
    obtain ⟨rfl, rfl⟩ := h
    exact .nil 0 0
  next h =>
    refine .cons ⟨.replace, 0, old.length, 0, new.length⟩ [] _ _
      ⟨Nat.zero_le _, Nat.zero_le _, nofun, fun _ => ?_⟩ (.nil _ _)
    by_contra hnone
    simp only [not_or, Nat.not_lt, Nat.le_zero, List.length_eq_zero_iff] at hnone
    exact h hnone

/-- One changed line between two kept ones. -/
theorem lineChanges_oneLine :
    ExactPatch "a\nb\nc\n".toList "a\nd\nc\n".toList
      (lineChanges replaceAll "a\nb\nc\n".toList "a\nd\nc\n".toList) :=
  lineChanges_exact replaceAll replaceAll_script _ _

end Instances

end RcpGraph
