import RcpGraph.Paper.LineChanges

/-!
Anchors of a saved text in the current one: `_RangeMapping`. An anchor moves with the
edits before it and is refused where an edit overlaps it or where it could lie twice.
-/

namespace RcpGraph

open EditScript

/-- `_RangeMapping`. -/
structure RangeMapping where
  base : List Char
  current : List Char
  edits : List Region
  changed : List Region

/-- The windows between unique unchanged lines, while the opcodes are walked. -/
structure WindowScan where
  left : Nat
  right : Nat
  windows : List Region
  edits : List Region

/-- A line that both texts have once closes a window. -/
def scanLine (old new : List (List Char)) (scan : WindowScan) (i j : Nat) : WindowScan :=
  let line := old.getD i []
  if old.count line = new.count line ∧ new.count line = 1 then
    { scan with
      windows := scan.windows ++ [⟨scan.left, offset old i, scan.right, offset new j⟩]
      left := offset old (i + 1)
      right := offset new (j + 1) }
  else scan

def scanOpcode (old new : List (List Char)) (scan : WindowScan) (op : Opcode) : WindowScan :=
  if op.tag ≠ .equal then
    { scan with
      edits := scan.edits ++ [⟨offset old op.a, offset old op.b, offset new op.c, offset new op.d⟩] }
  else
    (List.range (op.b - op.a)).foldl
      (fun scan k => scanLine old new scan (op.a + k) (op.c + k)) scan

def rangeMapping (getOpcodes : Matcher) (base current : List Char) : RangeMapping :=
  let old := splitLines [] base
  let new := splitLines [] current
  let scan := (lineOpcodes getOpcodes old new).foldl (scanOpcode old new) ⟨0, 0, [], []⟩
  let windows := scan.windows ++ [⟨scan.left, base.length, scan.right, current.length⟩]
  { base := base
    current := current
    edits := scan.edits
    changed := windows.filter fun w => slice base w.a w.b ≠ slice current w.c w.d }

/-- `str.find`. -/
def findText (anchor : List Char) : List Char → Option Nat
  | [] => if anchor = [] then some 0 else none
  | c :: cs => if anchor.isPrefixOf (c :: cs) then some 0 else (findText anchor cs).map (· + 1)

/-- A text has the anchor at two places. -/
def hasTwice (anchor text : List Char) : Bool :=
  (findText anchor text).any fun first => (findText anchor (text.drop (first + 1))).isSome

/-- Whether an edit touches an anchor. -/
def overlapsAnchor (edit : Region) (start finish : Nat) : Bool :=
  (edit.a = edit.b && start ≤ edit.a && edit.a ≤ finish) ||
    (start = finish && edit.a ≤ start && start ≤ edit.b) ||
    (edit.a < finish && start < edit.b)

/-- How far the edits before an anchor move it. -/
def RangeMapping.shift (m : RangeMapping) (start : Nat) : Int :=
  ((m.edits.filter (·.b ≤ start)).map fun edit =>
    ((edit.d : Int) - edit.c) - ((edit.b : Int) - edit.a)).sum

/-- `_RangeMapping.map`. -/
def RangeMapping.map (m : RangeMapping) (start finish : Nat) : Except String (Nat × Nat) :=
  if ¬(start ≤ finish ∧ finish ≤ m.base.length) then .error "Invalid base anchor"
  else if m.edits.any (overlapsAnchor · start finish) then
    .error "The anchored paper region changed"
  else
    let mapped := ((start + m.shift start).toNat, (finish + m.shift start).toNat)
    let anchor := slice m.base start finish
    if slice m.current mapped.1 mapped.2 ≠ anchor then .error "The anchored paper region changed"
    else if anchor ≠ [] ∧ m.changed.any (fun w => w.a < finish && start < w.b &&
        (hasTwice anchor (slice m.base w.a w.b) || hasTwice anchor (slice m.current w.c w.d))) = true then
      .error "The anchored paper region is ambiguous"
    else .ok mapped

section Unchanged

variable (getOpcodes : Matcher)

/-- The opcodes of a text with itself compare equal places. -/
theorem lineOpcodes_aligned (hmatcher : ∀ old new, Script old new (getOpcodes old new))
    (old : List (List Char)) : ∀ op ∈ lineOpcodes getOpcodes old old, op.a = op.c := by
  intro op hop
  rw [lineOpcodes, commonHead_self] at hop
  have hempty : ∀ n, slice old old.length n = [] := by
    intro n
    rw [slice, List.drop_eq_nil_iff, List.length_take]
    omega
  have hzero : ∀ {i j k l : Nat} {ops : List Opcode},
      Path ([] : List (List Char)) [] i j ops k l → k = 0 → l = 0 → ∀ op ∈ ops, op.a = op.c := by
    intro i j k l ops h
    induction h with
    | nil i j =>
        intro _ _ op hop
        cases hop
    | cons op ops k l hop rest ih =>
        intro hk hl op' hmem
        have hmono := rest.mono
        have ha := hop.a_le
        have hc := hop.c_le
        cases List.mem_cons.mp hmem with
        | inl heq =>
            rw [heq]
            omega
        | inr hrest => exact ih hk hl op' hrest
  simp only [hempty, List.length_nil, Nat.zero_mul, gt_iff_lt, Nat.not_lt_zero, if_false,
    List.mem_append, List.mem_singleton, List.mem_map] at hop
  rcases hop with (rfl | ⟨op', hop', rfl⟩) | rfl
  · rfl
  · have := hzero (hmatcher [] []) rfl rfl op' hop'
    simp only [Opcode.shift]
    omega
  · rfl

/-- Windows at equal places of both texts. -/
structure WindowScan.Aligned (scan : WindowScan) : Prop where
  bounds : scan.left = scan.right
  windows : ∀ w ∈ scan.windows, w.a = w.c ∧ w.b = w.d
  edits : scan.edits = []

theorem aligned_scanLine (old : List (List Char)) (scan : WindowScan) (h : scan.Aligned) (i : Nat) :
    (scanLine old old scan i i).Aligned := by
  rw [scanLine]
  split
  · refine ⟨rfl, ?_, h.edits⟩
    intro w hw
    cases List.mem_append.mp hw with
    | inl hold => exact h.windows w hold
    | inr hnew =>
        rw [List.mem_singleton.mp hnew]
        exact ⟨h.bounds, rfl⟩
  · exact h

theorem aligned_scanOpcode (old : List (List Char)) (scan : WindowScan) (h : scan.Aligned)
    (op : Opcode) (htag : op.tag = .equal) (heq : op.a = op.c) :
    (scanOpcode old old scan op).Aligned := by
  rw [scanOpcode, if_neg (by simp [htag]), heq]
  generalize List.range (op.b - op.c) = ks
  induction ks generalizing scan with
  | nil => exact h
  | cons k ks ih =>
      rw [List.foldl_cons]
      exact ih _ (aligned_scanLine old scan h (op.c + k))

theorem aligned_foldl (old : List (List Char)) (ops : List Opcode)
    (hops : ∀ op ∈ ops, op.tag = .equal ∧ op.a = op.c) (scan : WindowScan) (h : scan.Aligned) :
    (ops.foldl (scanOpcode old old) scan).Aligned := by
  induction ops generalizing scan with
  | nil => exact h
  | cons op ops ih =>
      rw [List.foldl_cons]
      have hop := hops op (List.mem_cons_self ..)
      apply ih
      · intro op' hop'
        exact hops op' (List.mem_cons_of_mem _ hop')
      · exact aligned_scanOpcode old scan h op hop.1 hop.2

/-- In an unchanged text every anchor stays where it is. -/
theorem map_unchanged (hmatcher : ∀ old new, Script old new (getOpcodes old new))
    (text : List Char) (start finish : Nat) (h : start ≤ finish) (hfinish : finish ≤ text.length) :
    (rangeMapping getOpcodes text text).map start finish = .ok (start, finish) := by
  have haligned := aligned_foldl (splitLines [] text)
    (lineOpcodes getOpcodes (splitLines [] text) (splitLines [] text))
    (fun op hop => ⟨lineOpcodes_self getOpcodes hmatcher _ op hop,
      lineOpcodes_aligned getOpcodes hmatcher _ op hop⟩)
    ⟨0, 0, [], []⟩ ⟨rfl, nofun, rfl⟩
  have hchanged : (rangeMapping getOpcodes text text).changed = [] := by
    rw [rangeMapping]
    apply List.filter_eq_nil_iff.mpr
    intro w hw
    cases List.mem_append.mp hw with
    | inl hmem =>
        obtain ⟨ha, hb⟩ := haligned.windows w hmem
        simp [ha, hb]
    | inr hlast =>
        rw [List.mem_singleton.mp hlast]
        simp [haligned.bounds]
  have hedits : (rangeMapping getOpcodes text text).edits = [] := haligned.edits
  have hbase : (rangeMapping getOpcodes text text).base = text := rfl
  have hcurrent : (rangeMapping getOpcodes text text).current = text := rfl
  rw [RangeMapping.map, if_neg (by rw [hbase]; simp [h, hfinish]), hedits, hchanged]
  simp [RangeMapping.shift, hedits, hbase, hcurrent]

end Unchanged

end RcpGraph
