import RcpGraph.Lib.Framing

/-!
`Lines` of the remote turn supervisor: whole lines of a stream of reads are fed to an
observer under a limit. Reads may cut the stream anywhere; what the observer hears is
what cutting the whole stream at its newlines gives, until a line raises.
-/

namespace RcpGraph.Transport

open Framing

abbrev Output := List UInt8

def newline : UInt8 := 10

def carriageReturn : UInt8 := 13

/-- `bytes.splitlines(keepends=True)` after the bytes of a line. -/
def splitChunks (line : Output) : Output → List Output
  | [] => if line = [] then [] else [line]
  | b :: bs =>
      if b = newline then (line ++ [b]) :: splitChunks [] bs
      else if b = carriageReturn then
        match bs with
        | c :: rest =>
            if c = newline then (line ++ [b, c]) :: splitChunks [] rest
            else (line ++ [b]) :: splitChunks [] (c :: rest)
        | [] => [line ++ [b]]
      else splitChunks (line ++ [b]) bs

/-- What `json.loads` makes of a decoded line. -/
inductive Loaded (V : Type) where
  | value (v : V)
  /-- A `ValueError`. -/
  | refused
  /-- Another exception: a `RecursionError`, of a deeply nested text. -/
  | raised
  deriving DecidableEq, Repr

/-- Who hears of the lines: `consume` of a parsed one, `overflow` of one over the limit. -/
structure Observer (σ V : Type) where
  loads : Output → Loaded V
  consume : σ → V → σ
  /-- An exception other than a `ValueError` leaves `consume`. -/
  fails : σ → V → Bool
  overflow : Option (σ → σ)

structure Lines where
  buffer : Output := []
  overflowed : Bool := false
  deriving DecidableEq, Repr

section Feed

variable {σ V : Type} (o : Observer σ V) (limit : Int)

/-- `_line`, which passes over a `ValueError` only. Another exception leaves it, with the
observer as it is then. -/
def Observer.line (st : σ) (raw : Output) : Except σ σ :=
  match o.loads raw with
  | .value value =>
      if o.fails st value then .error (o.consume st value) else .ok (o.consume st value)
  | .refused => .ok st
  | .raised => .error st

def Observer.notify (st : σ) : σ :=
  match o.overflow with
  | some overflow => overflow st
  | none => st

/-- The loop body of `feed`: the lines and the observer after a chunk, and whether a line was
read. -/
def takeChunk (lines : Lines) (st : σ) (chunk : Output) : Except σ (Lines × σ × Bool) :=
  let tooLong := limit < lines.buffer.length + chunk.length
  if chunk.getLast? ≠ some newline then
    if tooLong then .ok (⟨[], true⟩, if lines.overflowed then st else o.notify st, false)
    else .ok ({ lines with buffer := lines.buffer ++ chunk }, st, false)
  else if lines.overflowed ∨ tooLong then
    .ok (⟨[], false⟩, if lines.overflowed then st else o.notify st, false)
  else do
    let st ← o.line st (lines.buffer ++ chunk)
    .ok (⟨[], lines.overflowed⟩, st, true)

/-- What `feed` leaves, with the number of bytes consumed. -/
structure Fed (σ : Type) where
  lines : Lines
  state : σ
  consumed : Nat

def feedChunks (stop : σ → Bool) : List Output → Fed σ → Except σ (Fed σ)
  | [], fed => .ok fed
  | chunk :: chunks, fed => do
      let taken ← takeChunk o limit fed.lines fed.state chunk
      let fed := ⟨taken.1, taken.2.1, fed.consumed + chunk.length⟩
      if taken.2.2 && stop fed.state then .ok fed else feedChunks stop chunks fed

/-- `Lines.feed`; without a stop condition `stop` is never true. -/
def feed (stop : σ → Bool) (lines : Lines) (st : σ) (data : Output) : Except σ (Fed σ) :=
  feedChunks o limit stop (splitChunks [] data) ⟨lines, st, 0⟩

/-- `Lines.flush`. -/
def flush (lines : Lines) (st : σ) : Except σ (Lines × σ) := do
  let st ← if lines.buffer ≠ [] ∧ lines.overflowed = false then o.line st lines.buffer else .ok st
  .ok (⟨[], false⟩, st)

/-- One read after another. -/
def feedReads : List Output → Lines → σ → Except σ (Lines × σ)
  | [], lines, st => .ok (lines, st)
  | data :: reads, lines, st => do
      let fed ← feed o limit (fun _ => false) lines st data
      feedReads reads fed.lines fed.state

/-- Feed one read after another and flush at the end. -/
def feedAll (reads : List Output) (st : σ) : Except σ σ := do
  let fed ← feedReads o limit reads {} st
  let flushed ← flush o fed.1 fed.2
  .ok flushed.2

end Feed

/-- A line as the observer hears of it. -/
inductive Frame where
  | line (raw : Output)
  | overflow
  deriving DecidableEq, Repr

section Frames

variable {σ V : Type} (o : Observer σ V) (limit : Int)

def frame (raw : Output) : Frame := if limit < raw.length then .overflow else .line raw

/-- The lines of a whole stream, and what follows the last newline. -/
def frames (stream : Output) : List Frame :=
  ((cut newline [] stream).1 ++
    if (cut newline [] stream).2 = [] then [] else [(cut newline [] stream).2]).map (frame limit)

def Observer.observe (st : σ) : Frame → σ
  | .line raw =>
      match o.loads raw with
      | .value value => o.consume st value
      | _ => st
  | .overflow => o.notify st

/-- An observer that hears of every line. -/
def Observer.observeAll (st : σ) (fs : List Frame) : σ := fs.foldl o.observe st

/-- A line that leaves `_line` with an exception. -/
def Observer.raises (st : σ) : Frame → Bool
  | .line raw =>
      match o.loads raw with
      | .value value => o.fails st value
      | .refused => false
      | .raised => true
  | .overflow => false

/-- The lines of a whole stream one by one, until one raises. -/
def Observer.observeLines (st : σ) : List Frame → Except σ σ
  | [] => .ok st
  | f :: fs => if o.raises st f then .error (o.observe st f) else observeLines (o.observe st f) fs

/-- No line raises where the observer hears it. -/
def Calm (o : Observer σ V) (base : σ) (fs : List Frame) : Prop :=
  ∀ pre f post, fs = pre ++ f :: post → o.raises (o.observeAll base pre) f = false

theorem line_eq (st : σ) (raw : Output) : o.line st raw =
    if o.raises st (.line raw) then .error (o.observe st (.line raw))
    else .ok (o.observe st (.line raw)) := by
  cases hloads : o.loads raw with
  | value value => simp only [Observer.line, Observer.raises, Observer.observe, hloads]
  | refused =>
      simp only [Observer.line, Observer.raises, Observer.observe, hloads, Bool.false_eq_true,
        if_false]
  | raised => simp only [Observer.line, Observer.raises, Observer.observe, hloads, if_true]

theorem observeAll_append (st : σ) (fs gs : List Frame) :
    o.observeAll st (fs ++ gs) = o.observeAll (o.observeAll st fs) gs :=
  List.foldl_append

theorem calm_nil (base : σ) : Calm o base [] := by
  intro pre f post h
  cases List.append_ne_nil_of_right_ne_nil pre (List.cons_ne_nil f post) h.symm

variable {o} in
theorem Calm.head {base : σ} {f : Frame} {fs : List Frame} (h : Calm o base (f :: fs)) :
    o.raises base f = false := h [] f fs rfl

theorem calm_cons (base : σ) (f : Frame) (fs : List Frame) :
    Calm o base (f :: fs) ↔ o.raises base f = false ∧ Calm o (o.observe base f) fs := by
  constructor
  · intro h
    refine ⟨h.head, fun pre g post hfs => ?_⟩
    exact h (f :: pre) g post (by rw [hfs, List.cons_append])
  · rintro ⟨hf, hrest⟩ pre g post hfs
    cases pre with
    | nil =>
        obtain ⟨rfl, -⟩ := List.cons.inj hfs
        exact hf
    | cons p pre =>
        obtain ⟨rfl, htail⟩ := List.cons.inj hfs
        exact hrest pre g post htail

/-- Exactly a calm observer hears all lines. -/
theorem observeLines_iff (base : σ) (fs : List Frame) :
    o.observeLines base fs = .ok (o.observeAll base fs) ↔ Calm o base fs := by
  induction fs generalizing base with
  | nil => exact ⟨fun _ => calm_nil o base, fun _ => rfl⟩
  | cons f fs ih =>
      rw [Observer.observeLines, calm_cons, ← ih]
      cases o.raises base f with
      | true =>
          refine ⟨fun h => ?_, fun h => Bool.noConfusion h.1⟩
          cases h
      | false => exact ⟨fun h => ⟨rfl, h⟩, fun h => h.2⟩

variable {o} in
/-- The lines after some that raise nothing. -/
theorem observeLines_append {base : σ} {fs gs : List Frame} (h : Calm o base fs) :
    o.observeLines base (fs ++ gs) = o.observeLines (o.observeAll base fs) gs := by
  induction fs generalizing base with
  | nil => rfl
  | cons f fs ih =>
      rw [calm_cons] at h
      rw [List.cons_append, Observer.observeLines, h.1, if_neg Bool.false_ne_true, ih h.2]
      rfl

/-- A begun line that is over the limit already. -/
def isLong (tail : Output) : Bool := tail ≠ [] && decide (limit < tail.length)

/-- The notification that a begun line has had. -/
def pending (tail : Output) : List Frame := if isLong limit tail then [.overflow] else []

/-- The lines hold a begun line, and the observer has heard of all before it. -/
structure Framed (base : σ) (tail : Output) (lines : Lines) (st : σ) : Prop where
  overflowed : lines.overflowed = isLong limit tail
  buffer : lines.overflowed = false → lines.buffer = tail
  state : st = o.observeAll base (pending limit tail)

/-- A chunk has no newline, or ends in its only one. -/
def Piece (chunk : Output) : Prop :=
  chunk ≠ [] ∧ (newline ∉ chunk ∨ ∃ body, chunk = body ++ [newline] ∧ newline ∉ body)

theorem splitChunks_flatten (line data : Output) :
    (splitChunks line data).flatten = line ++ data := by
  fun_induction splitChunks line data with
  | case1 => rfl
  | case2 line h => rw [List.flatten_singleton, List.append_nil]
  | case3 line bs ih => rw [List.flatten_cons, ih, List.nil_append, List.append_assoc,
      List.singleton_append]
  | case4 line rest _ ih => rw [List.flatten_cons, ih, List.nil_append, List.append_assoc]; rfl
  | case5 line c rest _ _ ih => rw [List.flatten_cons, ih, List.nil_append, List.append_assoc,
      List.singleton_append]
  | case6 line => rw [List.flatten_singleton]
  | case7 line b bs _ _ ih => rw [ih, List.append_assoc, List.singleton_append]

/-- A chunk that ends in its first newline, or before one. -/
theorem piece_concat (line : Output) (b : UInt8) (hline : newline ∉ line) : Piece (line ++ [b]) := by
  refine ⟨List.append_ne_nil_of_right_ne_nil _ (List.cons_ne_nil _ _), ?_⟩
  by_cases hb : b = newline
  · exact .inr ⟨line, by rw [hb], hline⟩
  · refine .inl ?_
    rw [List.mem_append, List.mem_singleton, not_or]
    exact ⟨hline, Ne.symm hb⟩

theorem splitChunks_piece (line data : Output) (hline : newline ∉ line) :
    ∀ chunk ∈ splitChunks line data, Piece chunk := by
  fun_induction splitChunks line data with
  | case1 =>
      intro chunk hchunk
      cases hchunk
  | case2 line h =>
      intro chunk hchunk
      rw [List.mem_singleton.mp hchunk]
      exact ⟨h, .inl hline⟩
  | case3 line bs ih =>
      intro chunk hchunk
      cases List.mem_cons.mp hchunk with
      | inl heq => exact heq ▸ piece_concat line newline hline
      | inr hrest => exact ih List.not_mem_nil chunk hrest
  | case4 line rest hne ih =>
      intro chunk hchunk
      cases List.mem_cons.mp hchunk with
      | inl heq =>
          have hbody : newline ∉ line ++ [carriageReturn] := by
            rw [List.mem_append, List.mem_singleton, not_or]
            exact ⟨hline, Ne.symm hne⟩
          have hpiece := piece_concat (line ++ [carriageReturn]) newline hbody
          rw [List.append_assoc] at hpiece
          exact heq ▸ hpiece
      | inr hrest => exact ih List.not_mem_nil chunk hrest
  | case5 line c rest _ _ ih =>
      intro chunk hchunk
      cases List.mem_cons.mp hchunk with
      | inl heq => exact heq ▸ piece_concat line carriageReturn hline
      | inr hrest => exact ih List.not_mem_nil chunk hrest
  | case6 line =>
      intro chunk hchunk
      rw [List.mem_singleton.mp hchunk]
      exact piece_concat line carriageReturn hline
  | case7 line b bs hb _ ih =>
      apply ih
      rw [List.mem_append, List.mem_singleton, not_or]
      exact ⟨hline, Ne.symm hb⟩

variable {o limit}

theorem isLong_append {tail : Output} (chunk : Output) (h : isLong limit tail = true) :
    isLong limit (tail ++ chunk) = true := by
  simp only [isLong, Bool.and_eq_true, decide_eq_true_eq] at h ⊢
  refine ⟨List.append_ne_nil_of_left_ne_nil h.1 _, ?_⟩
  rw [List.length_append]
  push_cast
  omega

theorem isLong_of_chunk (limit : Int) (tail : Output) {chunk : Output} (hchunk : chunk ≠ []) :
    isLong limit (tail ++ chunk) = decide (limit < (tail.length : Int) + chunk.length) := by
  rw [isLong, List.length_append]
  have hne : tail ++ chunk ≠ [] := List.append_ne_nil_of_right_ne_nil _ hchunk
  push_cast
  simp [hne]

theorem Framed.start (st : σ) : Framed o limit st [] ⟨[], false⟩ st := ⟨rfl, fun _ => rfl, rfl⟩

/-- A chunk without a newline makes the begun line longer. -/
theorem takeChunk_open {base st : σ} {tail : Output} {lines : Lines}
    (hw : Framed o limit base tail lines st) (chunk : Output) (hchunk : chunk ≠ [])
    (h : newline ∉ chunk) :
    ∃ lines' st', takeChunk o limit lines st chunk = .ok (lines', st', false) ∧
      Framed o limit base (tail ++ chunk) lines' st' := by
  have hlast : chunk.getLast? ≠ some newline := fun hlast => h (List.mem_of_getLast? hlast)
  have hlong := isLong_of_chunk limit tail hchunk
  unfold takeChunk
  simp only [hlast, ne_eq, not_false_eq_true, if_true]
  cases hover : lines.overflowed with
  | true =>
      have hbefore := hw.overflowed
      rw [hover] at hbefore
      have hafter := isLong_append chunk hbefore.symm
      have hstate : st = o.observeAll base (pending limit (tail ++ chunk)) := by
        rw [hw.state, pending, pending, hafter, ← hbefore]
      split
      · exact ⟨_, _, rfl, hafter.symm, fun h => Bool.noConfusion h, by rw [if_pos rfl]; exact hstate⟩
      · exact ⟨_, _, rfl, hafter.symm, fun h => Bool.noConfusion h, hstate⟩
  | false =>
      have hbuffer := hw.buffer hover
      have hshort : isLong limit tail = false := by rw [← hw.overflowed, hover]
      have hst : st = base := by
        rw [hw.state, pending, hshort]
        rfl
      rw [hbuffer]
      split
      next htoo =>
        rw [decide_eq_true htoo] at hlong
        refine ⟨_, _, rfl, hlong.symm, fun h => Bool.noConfusion h, ?_⟩
        rw [if_neg Bool.false_ne_true, pending, hlong, hst]
        rfl
      next htoo =>
        rw [decide_eq_false htoo] at hlong
        refine ⟨_, _, rfl, hlong.symm, fun _ => rfl, ?_⟩
        rw [pending, hlong, hst]
        rfl

/-- A chunk with a newline ends the begun line, and the observer hears it. -/
theorem takeChunk_line {base st : σ} {tail : Output} {lines : Lines}
    (hw : Framed o limit base tail lines st) (body : Output) :
    takeChunk o limit lines st (body ++ [newline]) =
      if o.raises base (frame limit (tail ++ (body ++ [newline]))) then
        .error (o.observe base (frame limit (tail ++ (body ++ [newline]))))
      else
        .ok (⟨[], false⟩, o.observe base (frame limit (tail ++ (body ++ [newline]))),
          decide (¬limit < ((tail ++ (body ++ [newline])).length : Int))) := by
  have hne : body ++ [newline] ≠ [] := List.append_ne_nil_of_right_ne_nil _ (List.cons_ne_nil _ _)
  have hlong := isLong_of_chunk limit tail hne
  have hlength : limit < ((tail ++ (body ++ [newline])).length : Int) ↔
      isLong limit (tail ++ (body ++ [newline])) = true := by
    rw [hlong, decide_eq_true_eq, List.length_append]
    push_cast
    exact Iff.rfl
  unfold takeChunk
  rw [List.getLast?_concat]
  simp only [ne_eq, not_true_eq_false, if_false]
  cases hover : lines.overflowed with
  | true =>
      have hbefore := hw.overflowed
      rw [hover] at hbefore
      have hafter := hlength.mpr (isLong_append _ hbefore.symm)
      have hstate : st = o.observe base .overflow := by
        rw [hw.state, pending, ← hbefore]
        rfl
      rw [frame, if_pos hafter, Observer.raises, if_neg Bool.false_ne_true,
        decide_eq_false (not_not.mpr hafter), ← hstate]
      simp only [true_or, if_true]
  | false =>
      have hbuffer := hw.buffer hover
      have hshort : isLong limit tail = false := by rw [← hw.overflowed, hover]
      have hst : st = base := by
        rw [hw.state, pending, hshort]
        rfl
      rw [hbuffer]
      simp only [Bool.false_eq_true, false_or, if_false]
      by_cases htoo : limit < (tail.length : Int) + (body ++ [newline]).length
      · have hafter := hlength.mpr (hlong.trans (decide_eq_true htoo))
        rw [if_pos htoo, frame, if_pos hafter, Observer.raises, if_neg Bool.false_ne_true,
          decide_eq_false (not_not.mpr hafter), hst]
        rfl
      · have hafter : ¬limit < ((tail ++ (body ++ [newline])).length : Int) := by
          rw [hlength, hlong, decide_eq_true_eq]
          exact htoo
        rw [if_neg htoo, frame, if_neg hafter, decide_eq_true hafter, hst, line_eq]
        cases o.raises base (.line (tail ++ (body ++ [newline]))) with
        | true => rfl
        | false => rfl

/-- No frame on the way stops the observer. -/
def Quiet (o : Observer σ V) (stop : σ → Bool) (base : σ) (fs : List Frame) : Prop :=
  ∀ pre, pre <+: fs → stop (o.observeAll base pre) = false

theorem quiet_nil (stop : σ → Bool) {base : σ} (h : stop base = false) : Quiet o stop base [] := by
  intro pre hpre
  rw [List.prefix_nil.mp hpre]
  exact h

theorem Quiet.cons {stop : σ → Bool} {base : σ} {f : Frame} {fs : List Frame}
    (hbase : stop base = false) (h : Quiet o stop (o.observe base f) fs) :
    Quiet o stop base (f :: fs) := by
  intro pre hpre
  cases pre with
  | nil => exact hbase
  | cons g pre =>
      obtain ⟨rfl, hrest⟩ := List.cons_prefix_cons.mp hpre
      exact h pre hrest

/-- The lines of a feed: all are observed, or one stops it, or one raises. -/
inductive FedLines (o : Observer σ V) (limit : Int) (stop : σ → Bool) (base : σ) (tail : Output)
    (data : Output) : Except σ (Fed σ) → Prop
  | whole {fed : Fed σ} (consumed : fed.consumed = data.length)
      (quiet : Quiet o stop base ((cut newline tail data).1.map (frame limit)))
      (calm : Calm o base ((cut newline tail data).1.map (frame limit)))
      (framed : Framed o limit (o.observeAll base ((cut newline tail data).1.map (frame limit)))
        (cut newline tail data).2 fed.lines fed.state) :
      FedLines o limit stop base tail data (.ok fed)
  | stopped {fed : Fed σ} (ls : List Output) (line : Output) (rest : List Output)
      (cuts : (cut newline tail data).1 = ls ++ line :: rest)
      (consumed : (ls ++ [line]).flatten.length = tail.length + fed.consumed)
      (quiet : Quiet o stop base (ls.map (frame limit)))
      (calm : Calm o base ((ls ++ [line]).map (frame limit)))
      (short : ¬limit < (line.length : Int))
      (state : fed.state = o.observeAll base ((ls ++ [line]).map (frame limit)))
      (stops : stop fed.state = true) :
      FedLines o limit stop base tail data (.ok fed)
  | raised {st : σ} (ls : List Output) (line : Output) (rest : List Output)
      (cuts : (cut newline tail data).1 = ls ++ line :: rest)
      (quiet : Quiet o stop base (ls.map (frame limit)))
      (calm : Calm o base (ls.map (frame limit)))
      (raises : o.raises (o.observeAll base (ls.map (frame limit))) (frame limit line) = true)
      (state : st = o.observeAll base ((ls ++ [line]).map (frame limit))) :
      FedLines o limit stop base tail data (.error st)

/-- More bytes were consumed before. -/
def Fed.past (n : Nat) (fed : Fed σ) : Fed σ := { fed with consumed := n + fed.consumed }

/-- The lines after a first one. -/
theorem FedLines.after_line {stop : σ → Bool} {base : σ} {tail chunk data full : Output}
    {fed : Except σ (Fed σ)}
    (h : FedLines o limit stop (o.observe base (frame limit full)) [] data fed)
    (hbase : stop base = false) (hcalm : o.raises base (frame limit full) = false)
    (hcut : cut newline tail (chunk ++ data) =
      (full :: (cut newline [] data).1, (cut newline [] data).2))
    (hlength : full.length = tail.length + chunk.length) :
    FedLines o limit stop base tail (chunk ++ data) (fed.map (Fed.past chunk.length)) := by
  cases h with
  | @whole fed consumed quiet calm framed =>
      change FedLines o limit stop base tail (chunk ++ data) (.ok (fed.past chunk.length))
      refine .whole ?_ ?_ ?_ ?_
      · rw [Fed.past, List.length_append, consumed]
      · rw [hcut, List.map_cons]
        exact quiet.cons hbase
      · rw [hcut, List.map_cons, calm_cons]
        exact ⟨hcalm, calm⟩
      · rw [hcut, List.map_cons]
        exact framed
  | @stopped fed ls line rest cuts consumed quiet calm short state stops =>
      change FedLines o limit stop base tail (chunk ++ data) (.ok (fed.past chunk.length))
      refine .stopped (full :: ls) line rest ?_ ?_
        (quiet.cons hbase) ?_ short state stops
      · rw [hcut, cuts, List.cons_append]
      · rw [List.cons_append, List.flatten_cons, List.length_append, consumed, hlength,
          List.length_nil, Nat.zero_add, Nat.add_assoc, Fed.past]
      · rw [List.cons_append, List.map_cons, calm_cons]
        exact ⟨hcalm, calm⟩
  | raised ls line rest cuts quiet calm raises state =>
      refine .raised (full :: ls) line rest ?_ (quiet.cons hbase) ?_ raises state
      · rw [hcut, cuts, List.cons_append]
      · rw [List.map_cons, calm_cons]
        exact ⟨hcalm, calm⟩

/-- The lines after a chunk of a begun one. -/
theorem FedLines.after_open {stop : σ → Bool} {base : σ} {tail chunk data : Output}
    {fed : Except σ (Fed σ)} (h : FedLines o limit stop base (tail ++ chunk) data fed)
    (hcut : cut newline tail (chunk ++ data) = cut newline (tail ++ chunk) data) :
    FedLines o limit stop base tail (chunk ++ data) (fed.map (Fed.past chunk.length)) := by
  cases h with
  | @whole fed consumed quiet calm framed =>
      change FedLines o limit stop base tail (chunk ++ data) (.ok (fed.past chunk.length))
      refine .whole ?_ ?_ ?_ ?_
      · rw [Fed.past, List.length_append, consumed]
      · rwa [hcut]
      · rwa [hcut]
      · rwa [hcut]
  | @stopped fed ls line rest cuts consumed quiet calm short state stops =>
      change FedLines o limit stop base tail (chunk ++ data) (.ok (fed.past chunk.length))
      refine .stopped ls line rest (hcut ▸ cuts) ?_ quiet calm
        short state stops
      rw [consumed, List.length_append, Nat.add_assoc, Fed.past]
  | raised ls line rest cuts quiet calm raises state =>
      exact .raised ls line rest (hcut ▸ cuts) quiet calm raises state

theorem feedChunks_lines (stop : σ → Bool) (hstop : ∀ st, stop (o.notify st) = stop st)
    (chunks : List Output) (hchunks : ∀ chunk ∈ chunks, Piece chunk) {base st : σ}
    {tail : Output} {lines : Lines} (hw : Framed o limit base tail lines st)
    (hbase : stop base = false) (n : Nat) :
    ∃ fed, feedChunks o limit stop chunks ⟨lines, st, n⟩ = fed.map (Fed.past n) ∧
      FedLines o limit stop base tail chunks.flatten fed := by
  induction chunks generalizing base st tail lines n with
  | nil =>
      exact ⟨.ok ⟨lines, st, 0⟩, rfl, .whole rfl (quiet_nil stop hbase) (calm_nil o base) hw⟩
  | cons chunk chunks ih =>
      obtain ⟨hne, hpiece⟩ := hchunks chunk List.mem_cons_self
      have hrest := fun x hx => hchunks x (List.mem_cons_of_mem chunk hx)
      have hpast : ∀ (m : Nat) (fed : Except σ (Fed σ)),
          fed.map (Fed.past (n + m)) = (fed.map (Fed.past m)).map (Fed.past n) := by
        intro m fed
        cases fed with
        | error st => rfl
        | ok fed => exact congrArg Except.ok (congrArg (Fed.mk _ _) (Nat.add_assoc n m _))
      rw [feedChunks, List.flatten_cons]
      cases hpiece with
      | inl hopen =>
          obtain ⟨lines', st', htaken, hframed⟩ := takeChunk_open hw chunk hne hopen
          obtain ⟨fed, hfed, hlines⟩ := ih hrest hframed hbase (n + chunk.length)
          refine ⟨fed.map (Fed.past chunk.length), ?_, hlines.after_open ?_⟩
          · rw [htaken, ← hpast, ← hfed]
            rfl
          · rw [cut_append, cut_of_not_mem newline tail chunk hopen, List.nil_append]
      | inr hends =>
          obtain ⟨body, rfl, hbody⟩ := hends
          have htaken := takeChunk_line hw body
          have hcut : cut newline tail (body ++ [newline] ++ chunks.flatten) =
              ((tail ++ (body ++ [newline])) :: (cut newline [] chunks.flatten).1,
                (cut newline [] chunks.flatten).2) := by
            rw [cut_append, cut_line newline tail body hbody, List.singleton_append]
          have hlength : (tail ++ (body ++ [newline])).length =
              tail.length + (body ++ [newline]).length := List.length_append
          generalize tail ++ (body ++ [newline]) = full at htaken hcut hlength
          cases hraises : o.raises base (frame limit full) with
          | true =>
              rw [hraises, if_pos rfl] at htaken
              rw [htaken]
              exact ⟨.error _, rfl, .raised [] full (cut newline [] chunks.flatten).1
                (congrArg Prod.fst hcut) (quiet_nil stop hbase) (calm_nil o base) hraises rfl⟩
          | false =>
              rw [hraises, if_neg Bool.false_ne_true] at htaken
              have hframed : Framed o limit (o.observe base (frame limit full)) [] ⟨[], false⟩
                  (o.observe base (frame limit full)) := .start _
              by_cases hquiet : stop (o.observe base (frame limit full)) = false
              · obtain ⟨fed, hfed, hlines⟩ := ih hrest hframed hquiet (n + (body ++ [newline]).length)
                refine ⟨fed.map (Fed.past (body ++ [newline]).length), ?_,
                  hlines.after_line hbase hraises hcut hlength⟩
                rw [htaken, ← hpast, ← hfed]
                change (if _ && stop (o.observe base (frame limit full)) then _ else _) = _
                rw [hquiet, Bool.and_false, if_neg Bool.false_ne_true]
              · rw [Bool.not_eq_false] at hquiet
                -- A line over the limit is not read, and does not stop the feed.
                have hshort : ¬limit < (full.length : Int) := by
                  intro hlong
                  rw [frame, if_pos hlong, Observer.observe, hstop, hbase] at hquiet
                  cases hquiet
                refine ⟨.ok ⟨⟨[], false⟩, o.observe base (frame limit full),
                  (body ++ [newline]).length⟩, ?_, ?_⟩
                · rw [htaken, decide_eq_true hshort]
                  change (if true && stop (o.observe base (frame limit full)) then _ else _) = _
                  rw [hquiet, Bool.and_self, if_pos rfl]
                  rfl
                · refine .stopped [] full (cut newline [] chunks.flatten).1
                    (congrArg Prod.fst hcut) ?_ (quiet_nil stop hbase) ?_ hshort rfl hquiet
                  · rw [List.nil_append, List.flatten_singleton, hlength]
                  · rw [List.nil_append, List.map_singleton, calm_cons]
                    exact ⟨hraises, calm_nil o _⟩

/-- A feed observes the lines that its data ends. -/
theorem feed_lines (stop : σ → Bool) (hstop : ∀ st, stop (o.notify st) = stop st) {base st : σ}
    {tail : Output} {lines : Lines} (hw : Framed o limit base tail lines st)
    (hbase : stop base = false) (data : Output) :
    FedLines o limit stop base tail data (feed o limit stop lines st data) := by
  obtain ⟨fed, hfed, hlines⟩ := feedChunks_lines stop hstop (splitChunks [] data)
    (splitChunks_piece [] data List.not_mem_nil) hw hbase 0
  rw [splitChunks_flatten, List.nil_append] at hlines
  have hzero : fed.map (Fed.past 0) = fed := by
    cases fed with
    | error st => rfl
    | ok fed => exact congrArg Except.ok (congrArg (Fed.mk _ _) (Nat.zero_add _))
  rw [feed, hfed, hzero]
  exact hlines

/-- A feed without a stop condition ends as its lines do, one by one. -/
theorem feed_framed {base st : σ} {tail : Output} {lines : Lines}
    (hw : Framed o limit base tail lines st) (data : Output) (more : List Frame) :
    (∃ fed, feed o limit (fun _ => false) lines st data = .ok fed ∧
      Calm o base ((cut newline tail data).1.map (frame limit)) ∧
      Framed o limit (o.observeAll base ((cut newline tail data).1.map (frame limit)))
        (cut newline tail data).2 fed.lines fed.state) ∨
    ∃ st', feed o limit (fun _ => false) lines st data = .error st' ∧
      o.observeLines base ((cut newline tail data).1.map (frame limit) ++ more) = .error st' := by
  have hlines := feed_lines (fun _ => false) (fun _ => rfl) hw rfl data
  generalize feed o limit (fun _ => false) lines st data = result at hlines ⊢
  cases hlines with
  | @whole fed consumed quiet calm framed => exact .inl ⟨fed, rfl, calm, framed⟩
  | stopped _ _ _ _ _ _ _ _ _ stops => cases stops
  | raised ls line rest cuts quiet calm raises state =>
      refine .inr ⟨_, rfl, ?_⟩
      rw [cuts, List.map_append, List.map_cons, List.append_assoc, observeLines_append calm,
        List.cons_append, Observer.observeLines, raises, if_pos rfl, state, List.map_append,
        observeAll_append]
      rfl

theorem observe_flush {base st : σ} {tail : Output} {lines : Lines}
    (hw : Framed o limit base tail lines st) :
    (flush o lines st).map Prod.snd =
      o.observeLines base ((if tail = [] then [] else [tail]).map (frame limit)) := by
  rw [flush]
  by_cases htail : tail = []
  · have hshort : isLong limit tail = false := by rw [htail]; rfl
    have hover : lines.overflowed = false := hw.overflowed.trans hshort
    have hst : st = base := by
      rw [hw.state, pending, hshort]
      rfl
    rw [if_pos htail, hw.buffer hover, if_neg (fun h => h.1 htail), hst]
    rfl
  · have hlong : isLong limit tail = decide (limit < (tail.length : Int)) := by simp [isLong, htail]
    rw [if_neg htail, List.map_singleton]
    by_cases htoo : limit < (tail.length : Int)
    · rw [decide_eq_true htoo] at hlong
      have hover : lines.overflowed = true := hw.overflowed.trans hlong
      rw [if_neg (fun h => Bool.noConfusion (hover.symm.trans h.2)), hw.state, pending, hlong,
        frame, if_pos htoo]
      rfl
    · rw [decide_eq_false htoo] at hlong
      have hover : lines.overflowed = false := hw.overflowed.trans hlong
      have hst : st = base := by
        rw [hw.state, pending, hlong]
        rfl
      rw [hw.buffer hover, if_pos ⟨htail, hover⟩, frame, if_neg htoo, hst, line_eq,
        Observer.observeLines]
      cases o.raises base (.line tail) with
      | true => rfl
      | false => rfl

theorem feedReads_lines (reads : List Output) {base st : σ} {tail : Output} {lines : Lines}
    (hw : Framed o limit base tail lines st) :
    ((feedReads o limit reads lines st).bind fun fed => (flush o fed.1 fed.2).map Prod.snd) =
      o.observeLines base (((cut newline tail reads.flatten).1 ++
        if (cut newline tail reads.flatten).2 = [] then []
        else [(cut newline tail reads.flatten).2]).map (frame limit)) := by
  induction reads generalizing base st tail lines with
  | nil => exact observe_flush hw
  | cons data reads ih =>
      rw [feedReads, List.flatten_cons, cut_append]
      dsimp only
      rw [List.append_assoc, List.map_append]
      rcases feed_framed hw data _ with ⟨fed, hfed, hcalm, hframed⟩ | ⟨st', hfed, hraised⟩
      · rw [hfed, observeLines_append hcalm]
        exact ih hframed
      · rw [hfed, hraised]
        rfl

/-- However the stream is read, the observer hears of its lines one by one. -/
theorem feedAll_eq (reads : List Output) (st : σ) :
    feedAll o limit reads st = o.observeLines st (frames limit reads.flatten) := by
  have hstart : Framed o limit st [] ⟨[], false⟩ st := .start st
  have hlines := feedReads_lines reads hstart
  rw [frames, ← hlines, feedAll]
  cases feedReads o limit reads {} st with
  | error st => rfl
  | ok fed =>
      cases hflush : flush o fed.1 fed.2 with
      | error st => simp [Except.bind, hflush, Except.map, bind]
      | ok flushed => simp [Except.bind, hflush, Except.map, bind]

end Frames

end RcpGraph.Transport
