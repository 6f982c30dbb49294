import RcpGraph.Transport.Lines
import Mathlib.Data.List.Induction

/-!
The journal of a remote turn: the supervisor reads the provider's output until the
fence has heard the line that ends the turn, and keeps what it has read through that
line.
-/

namespace RcpGraph.Transport

open Framing

/-- A turn's fence: what its output lines make of it, and whether the turn has ended. -/
structure Fence (φ V : Type) where
  loads : Output → Loaded V
  output : φ → V → φ
  /-- An exception other than a `ValueError` leaves `output`. -/
  fails : φ → V → Bool
  terminal : φ → Bool

/-- What the supervisor keeps of the provider's output; `error` says that one is set. -/
structure Supervisor (φ : Type) where
  lines : Lines := {}
  fence : φ
  error : Bool := false
  journal : Output := []
  journalComplete : Bool := true
  /-- The bytes that `feed` has reported as consumed. -/
  consumed : Output := []

/-- A pass of the loop: input for the provider reaches the fence, or output is read. -/
inductive Pass (φ : Type) where
  | input (receive : φ → Except φ φ)
  | output (data : Output)

section Run

variable {φ V : Type} (fence : Fence φ V) (limit : Int) (closeInput : Bool) (maxJournal : Nat)

/-- The observer of the output: `fence.output` and `oversized`. -/
def Fence.observer : Observer (φ × Bool) V where
  loads := fence.loads
  consume st value := (fence.output st.1 value, st.2)
  fails st value := fence.fails st.1 value
  overflow := some fun st => (st.1, st.2 || !closeInput)

/-- What is kept of a read, once it has been fed. -/
def Supervisor.keep (t : Supervisor φ) (data : Output) (fed : Fed (φ × Bool)) : Supervisor φ :=
  let data := data.take fed.consumed
  let t := { t with lines := fed.lines, fence := fed.state.1, error := fed.state.2,
                    consumed := t.consumed ++ data }
  if t.journal.length + data.length ≤ maxJournal ∧ t.journalComplete then
    { t with journal := t.journal ++ data }
  else { t with journalComplete := false, error := true }

/-- One pass of `run`. An exception that leaves it ends the run. -/
def supervise (t : Supervisor φ) : Pass φ → Except (Supervisor φ) (Supervisor φ)
  | .input receive =>
      match receive t.fence with
      | .error f => .error { t with fence := f }
      | .ok f => .ok { t with fence := f }
  | .output data =>
      if fence.terminal t.fence then .ok t
      else
        match feed (fence.observer closeInput) limit (fun st => fence.terminal st.1) t.lines
            (t.fence, t.error) data with
        | .error st => .error { t with fence := st.1, error := st.2 }
        | .ok fed => .ok (t.keep maxJournal data fed)

/-- The output of a run. -/
def outputOf (passes : List (Pass φ)) : Output :=
  passes.flatMap fun pass =>
    match pass with
    | .input _ => []
    | .output data => data

/-- What a fence makes of a line. -/
def Fence.hear (f : φ) : Frame → φ
  | .line raw =>
      match fence.loads raw with
      | .value value => fence.output f value
      | _ => f
  | .overflow => f

def Fence.hearAll (f : φ) (fs : List Frame) : φ := fs.foldl fence.hear f

/-- The fence's reading of a line raises. -/
def Fence.raises (f : φ) : Frame → Bool
  | .line raw =>
      match fence.loads raw with
      | .value value => fence.fails f value
      | .refused => false
      | .raised => true
  | .overflow => false

/-- No line raises before one ends the turn. -/
def CalmUntil (f : φ) (lines : List Output) : Prop :=
  ∀ ls line rest, lines = ls ++ line :: rest →
    (∀ pre, pre <+: ls.map (frame limit) → fence.terminal (fence.hearAll f pre) = false) →
    fence.raises (fence.hearAll f (ls.map (frame limit))) (frame limit line) = false

/-- A pass that raises nothing, after the passes before it. -/
def Pass.Calm (before : List (Pass φ)) (t : Supervisor φ) : Pass φ → Prop
  | .input receive => ∃ f, receive t.fence = .ok f
  | .output data => fence.terminal t.fence = false →
      CalmUntil fence limit t.fence (cut newline (cut newline [] (outputOf before)).2 data).1

variable {fence limit closeInput maxJournal}

variable (closeInput) in
theorem observeAll_fst (st : φ × Bool) (fs : List Frame) :
    ((fence.observer closeInput).observeAll st fs).1 = fence.hearAll st.1 fs := by
  induction fs generalizing st with
  | nil => rfl
  | cons f fs ih =>
      have hstep : ((fence.observer closeInput).observe st f).1 = fence.hear st.1 f := by
        cases f with
        | overflow => rfl
        | line raw =>
            simp only [Observer.observe, Fence.observer, Fence.hear]
            cases fence.loads raw <;> rfl
      rw [Observer.observeAll, List.foldl_cons, Fence.hearAll, List.foldl_cons, ← hstep]
      exact ih _

variable (closeInput) in
theorem observer_raises (st : φ × Bool) (f : Frame) :
    (fence.observer closeInput).raises st f = fence.raises st.1 f := by
  cases f with
  | overflow => rfl
  | line raw => rfl

/-- The line that ends the turn: the fence has not ended before it, and has after it. -/
def Ends (fence : Fence φ V) (line : Output) : Prop :=
  ∃ before value, fence.loads line = .value value ∧ fence.terminal before = false ∧
    fence.terminal (fence.output before value) = true

/-- Whether only output is read. -/
def OnlyOutput (passes : List (Pass φ)) : Prop :=
  ∀ pass ∈ passes, ∃ data, pass = .output data

/-- A run until now: all output is consumed, or what is consumed ends with the line that ended
the turn. -/
structure Reads (fence : Fence φ V) (limit : Int) (closeInput : Bool) (start : φ)
    (passes : List (Pass φ)) (t : Supervisor φ) : Prop where
  running : fence.terminal t.fence = false → t.consumed = outputOf passes ∧
    ∃ base, Framed (fence.observer closeInput) limit base (cut newline [] (outputOf passes)).2
        t.lines (t.fence, t.error) ∧
      (OnlyOutput passes →
        base.1 = fence.hearAll start ((cut newline [] (outputOf passes)).1.map (frame limit)) ∧
        ∀ pre, pre <+: (cut newline [] (outputOf passes)).1.map (frame limit) →
          fence.terminal (fence.hearAll start pre) = false)
  ended : fence.terminal t.fence = true → ∃ ls line rest,
    (cut newline [] (outputOf passes)).1 = ls ++ line :: rest ∧
      t.consumed = (ls ++ [line]).flatten ∧ ¬limit < (line.length : Int) ∧ Ends fence line ∧
      (OnlyOutput passes →
        t.fence = fence.hearAll start ((ls ++ [line]).map (frame limit)) ∧
        ∀ pre, pre <+: ls.map (frame limit) → fence.terminal (fence.hearAll start pre) = false)

theorem outputOf_append (passes passes' : List (Pass φ)) :
    outputOf (passes ++ passes') = outputOf passes ++ outputOf passes' :=
  List.flatMap_append

theorem framed_fst {base : φ × Bool} {tail : Output} {lines : Lines} {st : φ × Bool}
    (hw : Framed (fence.observer closeInput) limit base tail lines st) : st.1 = base.1 := by
  rw [hw.state, pending]
  split <;> rfl

/-- Input and errors reach the state beside what the lines have done. -/
theorem framed_map {base st : φ × Bool} {tail : Output} {lines : Lines}
    (hw : Framed (fence.observer closeInput) limit base tail lines st) (receive : φ → φ) (e : Bool) :
    Framed (fence.observer closeInput) limit (receive base.1, base.2 || e) tail lines
      (receive st.1, st.2 || e) := by
  refine ⟨hw.overflowed, hw.buffer, ?_⟩
  have hstate := hw.state
  rw [pending] at hstate ⊢
  split at hstate
  next hlong =>
    rw [hstate, if_pos hlong]
    exact Prod.ext rfl (Bool.or_right_comm _ _ _)
  next hshort =>
    rw [if_neg hshort]
    exact congrArg (fun st : φ × Bool => (receive st.1, st.2 || e)) hstate

theorem Reads.input {start : φ} {passes : List (Pass φ)} {t : Supervisor φ}
    (h : Reads fence limit closeInput start passes t) {receive : φ → Except φ φ} {f : φ}
    (hterminal : fence.terminal f = fence.terminal t.fence) :
    Reads fence limit closeInput start (passes ++ [.input receive]) { t with fence := f } := by
  have houtput : outputOf (passes ++ [.input receive]) = outputOf passes := by
    rw [outputOf_append]
    exact List.append_nil _
  have hnot : ¬OnlyOutput (passes ++ [.input receive]) := by
    intro honly
    obtain ⟨data, hdata⟩ := honly (.input receive) (List.mem_append_right _ List.mem_cons_self)
    cases hdata
  constructor
  · intro hrunning
    obtain ⟨hconsumed, base, hw, -⟩ := h.running (hterminal.symm.trans hrunning)
    rw [houtput]
    refine ⟨hconsumed, (f, base.2), ?_, fun honly => absurd honly hnot⟩
    have hmapped := framed_map hw (fun _ => f) false
    rw [Bool.or_false, Bool.or_false] at hmapped
    exact hmapped
  · intro hended
    obtain ⟨ls, line, rest, hcuts, hconsumed, hshort, hline, -⟩ :=
      h.ended (hterminal.symm.trans hended)
    rw [houtput]
    exact ⟨ls, line, rest, hcuts, hconsumed, hshort, hline, fun honly => absurd honly hnot⟩

theorem hearAll_append (f : φ) (fs gs : List Frame) :
    fence.hearAll f (fs ++ gs) = fence.hearAll (fence.hearAll f fs) gs :=
  List.foldl_append

theorem quiet_append {f : φ} {fs gs : List Frame}
    (hfs : ∀ pre, pre <+: fs → fence.terminal (fence.hearAll f pre) = false)
    (hgs : ∀ pre, pre <+: gs → fence.terminal (fence.hearAll (fence.hearAll f fs) pre) = false) :
    ∀ pre, pre <+: fs ++ gs → fence.terminal (fence.hearAll f pre) = false := by
  intro pre hpre
  cases List.prefix_or_prefix_of_prefix hpre (List.prefix_append fs gs) with
  | inl hbefore => exact hfs pre hbefore
  | inr hafter =>
      obtain ⟨more, rfl⟩ := hafter
      rw [hearAll_append]
      exact hgs more ((List.prefix_append_right_inj fs).mp hpre)

variable (maxJournal) in
/-- What a read leaves, whatever the journal has room for. -/
theorem keep_reads (t : Supervisor φ) (data : Output) (fed : Fed (φ × Bool)) :
    (t.keep maxJournal data fed).lines = fed.lines ∧
      (t.keep maxJournal data fed).fence = fed.state.1 ∧
      (∃ e, (t.keep maxJournal data fed).error = (fed.state.2 || e)) ∧
      (t.keep maxJournal data fed).consumed = t.consumed ++ data.take fed.consumed := by
  unfold Supervisor.keep
  simp only
  split
  · exact ⟨rfl, rfl, ⟨false, (Bool.or_false _).symm⟩, rfl⟩
  · exact ⟨rfl, rfl, ⟨true, (Bool.or_true _).symm⟩, rfl⟩

/-- What the observer of the output shows of the fence. -/
theorem quiet_fence {base : φ × Bool} {fs : List Frame}
    (h : Quiet (fence.observer closeInput) (fun st => fence.terminal st.1) base fs) :
    ∀ pre, pre <+: fs → fence.terminal (fence.hearAll base.1 pre) = false := by
  intro pre hpre
  rw [← observeAll_fst closeInput]
  exact h pre hpre

theorem calm_fence {base : φ × Bool} {pre post : List Frame} {f : Frame}
    (h : Calm (fence.observer closeInput) base (pre ++ f :: post)) :
    fence.raises (fence.hearAll base.1 pre) f = false := by
  rw [← observeAll_fst closeInput, ← observer_raises closeInput]
  exact h pre f post rfl

/-- Lines that are calm up to the one that ends the turn. -/
theorem calmUntil_of_stopped {f : φ} {ls rest : List Output} {line : Output}
    (hcalm : ∀ pre g post, (ls ++ [line]).map (frame limit) = pre ++ g :: post →
      fence.raises (fence.hearAll f pre) g = false)
    (hends : fence.terminal (fence.hearAll f ((ls ++ [line]).map (frame limit))) = true) :
    CalmUntil fence limit f (ls ++ line :: rest) := by
  intro ls' line' rest' hcuts hquiet
  rcases List.append_eq_append_iff.mp hcuts with ⟨more, rfl, hmore⟩ | ⟨more, rfl, hmore⟩
  · -- the line would come after the one that ends the turn, if not at it
    cases more with
    | nil =>
        obtain ⟨rfl, -⟩ := List.cons.inj hmore
        exact hcalm _ _ [] (by rw [List.append_nil, List.map_append, List.map_singleton])
    | cons g more =>
        obtain ⟨rfl, -⟩ := List.cons.inj hmore
        have hpre : (ls ++ [line]).map (frame limit) <+: (ls ++ line :: more).map (frame limit) := by
          refine ⟨more.map (frame limit), ?_⟩
          rw [← List.map_append, List.append_assoc, List.singleton_append]
        rw [hquiet _ hpre] at hends
        cases hends
  · cases more with
    | nil =>
        obtain ⟨rfl, -⟩ := List.cons.inj hmore
        exact hcalm _ _ [] (by rw [List.append_nil, List.map_append, List.map_singleton])
    | cons g more =>
        obtain ⟨rfl, -⟩ := List.cons.inj hmore
        refine hcalm _ _ ((more ++ [line]).map (frame limit)) ?_
        rw [List.append_assoc, List.map_append, List.cons_append, List.map_cons]

theorem calmUntil_one {f : φ} {line : Output}
    (h : fence.raises f (frame limit line) = false) : CalmUntil fence limit f [line] := by
  intro ls line' rest hcuts _
  cases ls with
  | nil =>
      obtain ⟨rfl, -⟩ := List.cons.inj hcuts
      exact h
  | cons g ls =>
      have hne := List.append_ne_nil_of_right_ne_nil ls (List.cons_ne_nil line' rest)
      exact absurd (List.cons.inj hcuts).2.symm hne

/-- A read of output that raises nothing until the turn ends, or one that does. -/
theorem Reads.output {start : φ} {passes : List (Pass φ)} {t : Supervisor φ} (maxJournal : Nat)
    (h : Reads fence limit closeInput start passes t)
    (hterminal : fence.terminal t.fence = false) (data : Output) :
    (∃ fed, feed (fence.observer closeInput) limit (fun st => fence.terminal st.1) t.lines
        (t.fence, t.error) data = .ok fed ∧
      CalmUntil fence limit t.fence (cut newline (cut newline [] (outputOf passes)).2 data).1 ∧
      Reads fence limit closeInput start (passes ++ [.output data]) (t.keep maxJournal data fed)) ∨
    (∃ st, feed (fence.observer closeInput) limit (fun st => fence.terminal st.1) t.lines
        (t.fence, t.error) data = .error st) ∧
      ¬CalmUntil fence limit t.fence
        (cut newline (cut newline [] (outputOf passes)).2 data).1 := by
  have houtput : outputOf (passes ++ [.output data]) = outputOf passes ++ data := by
    rw [outputOf_append]
    exact congrArg (outputOf passes ++ ·) (List.append_nil data)
  have honly : OnlyOutput (passes ++ [.output data]) → OnlyOutput passes :=
    fun honly pass hpass => honly pass (List.mem_append_left _ hpass)
  have hcut := cut_append newline [] (outputOf passes) data
  obtain ⟨hconsumed, base, hw, hpinned⟩ := h.running hterminal
  have hsame : t.fence = base.1 := framed_fst hw
  have hbase : fence.terminal base.1 = false := hsame ▸ hterminal
  have hflat : (cut newline [] (outputOf passes)).1.flatten ++
      (cut newline [] (outputOf passes)).2 = outputOf passes := cut_flatten newline [] _
  have hlines := feed_lines (fun st => fence.terminal st.1) (fun st => rfl) hw hbase data
  generalize feed (fence.observer closeInput) limit (fun st => fence.terminal st.1) t.lines
    (t.fence, t.error) data = result at hlines ⊢
  rw [hsame]
  generalize cut newline [] (outputOf passes) = begun at *
  cases hlines with
  | @whole fed consumed quiet calm framed =>
      refine .inl ⟨fed, rfl, fun ls line rest hcuts _ => ?_, ?_⟩
      · have hcalm := calm
        rw [hcuts, List.map_append, List.map_cons] at hcalm
        exact calm_fence hcalm
      · obtain ⟨hlinesOf, hfence, ⟨e, herror⟩, hnext⟩ := keep_reads maxJournal t data fed
        generalize t.keep maxJournal data fed = t' at *
        have hnow : fence.terminal t'.fence = false := by
          rw [hfence, framed_fst framed]
          exact quiet _ (List.prefix_refl _)
        refine ⟨fun _ => ?_, fun hended => absurd (hnow.symm.trans hended) Bool.noConfusion⟩
        rw [houtput, hcut, hnext, hconsumed, consumed, List.take_length]
        have hmapped := framed_map framed id e
        generalize hheard : (fence.observer closeInput).observeAll base
          ((cut newline begun.2 data).1.map (frame limit)) = heard at hmapped
        refine ⟨rfl, (heard.1, heard.2 || e), ?_, fun h => ?_⟩
        · rw [hlinesOf, hfence, herror]
          exact hmapped
        · obtain ⟨hstart, hquiet⟩ := hpinned (honly h)
          rw [List.map_append, hearAll_append, ← hstart]
          refine ⟨hheard ▸ observeAll_fst closeInput base _, quiet_append hquiet ?_⟩
          rw [← hstart]
          exact quiet_fence quiet
  | @stopped fed ls line rest cuts consumed quiet calm short state stops =>
      have hafter : fed.state.1 = fence.hearAll base.1 ((ls ++ [line]).map (frame limit)) := by
        rw [state, observeAll_fst closeInput]
      have hends : fence.terminal (fence.hearAll base.1 ((ls ++ [line]).map (frame limit))) = true :=
        hafter ▸ stops
      refine .inl ⟨fed, rfl, ?_, ?_⟩
      · rw [cuts]
        refine calmUntil_of_stopped (fun pre g post hsplit => ?_) hends
        rw [hsplit] at calm
        exact calm_fence calm
      · obtain ⟨-, hfence, -, hnext⟩ := keep_reads maxJournal t data fed
        generalize t.keep maxJournal data fed = t' at *
        have hnow : fence.terminal t'.fence = true := by
          rw [hfence]
          exact stops
        refine ⟨fun hrunning => absurd (hnow.symm.trans hrunning) Bool.noConfusion, fun _ => ?_⟩
        have hbefore : fence.terminal (fence.hearAll base.1 (ls.map (frame limit))) = false :=
          quiet_fence quiet _ (List.prefix_refl _)
        rw [← hfence] at hafter
        rw [houtput, hcut, cuts]
        refine ⟨begun.1 ++ ls, line, rest, (List.append_assoc ..).symm, ?_, short, ?_, fun h => ?_⟩
        · have hrest : begun.2 ++ data = (ls ++ [line]).flatten ++
              (rest.flatten ++ (cut newline begun.2 data).2) := by
            rw [← cut_flatten newline begun.2 data, cuts]
            simp
          have htake : begun.2 ++ data.take fed.consumed = (ls ++ [line]).flatten := by
            rw [← List.take_length_add_append, ← consumed, hrest, List.take_left]
          rw [hnext, hconsumed, ← hflat, List.append_assoc, htake,
            ← List.flatten_append, List.append_assoc]
        · rw [List.map_append, hearAll_append, List.map_singleton, frame, if_neg short] at hafter
          rw [hafter] at hnow
          simp only [Fence.hearAll, List.foldl_cons, List.foldl_nil, Fence.hear] at hnow hbefore
          cases hloads : fence.loads line with
          | value value =>
              rw [hloads] at hnow
              exact ⟨_, value, hloads, hbefore, hnow⟩
          | _ =>
              rw [hloads] at hnow
              exact absurd (hnow.symm.trans hbefore) Bool.noConfusion
        · obtain ⟨hstart, hquiet⟩ := hpinned (honly h)
          have hsplit : (begun.1 ++ ls).map (frame limit) =
              begun.1.map (frame limit) ++ ls.map (frame limit) := List.map_append
          rw [List.append_assoc, List.map_append, hearAll_append, ← hstart, hsplit]
          refine ⟨hafter, quiet_append hquiet ?_⟩
          rw [← hstart]
          exact quiet_fence quiet
  | raised ls line rest cuts quiet calm raises state =>
      refine .inr ⟨⟨_, rfl⟩, fun hcalm => ?_⟩
      rw [observer_raises closeInput, observeAll_fst closeInput,
        hcalm ls line rest cuts (quiet_fence quiet)] at raises
      cases raises

/-- Output after the end of the turn is drained. -/
theorem Reads.output_ended {start : φ} {passes : List (Pass φ)} {t : Supervisor φ}
    (h : Reads fence limit closeInput start passes t)
    (hterminal : fence.terminal t.fence = true) (data : Output) :
    Reads fence limit closeInput start (passes ++ [.output data]) t := by
  have houtput : outputOf (passes ++ [.output data]) = outputOf passes ++ data := by
    rw [outputOf_append]
    exact congrArg (outputOf passes ++ ·) (List.append_nil data)
  obtain ⟨ls, line, rest, hcuts, hconsumed, hshort, hline, hpinned⟩ := h.ended hterminal
  refine ⟨fun hrunning => absurd (hterminal.symm.trans hrunning) Bool.noConfusion, fun _ => ?_⟩
  rw [houtput, cut_append newline [] (outputOf passes) data]
  refine ⟨ls, line, rest ++ (cut newline (cut newline [] (outputOf passes)).2 data).1, ?_,
    hconsumed, hshort, hline, fun honly => hpinned fun pass hpass => ?_⟩
  · simp only
    rw [hcuts, List.append_assoc, List.cons_append]
  · exact honly pass (List.mem_append_left _ hpass)

/-- A pass of a run: it raises nothing and the run goes on, or it does and the run ends. -/
theorem supervise_pass {start : φ} {passes : List (Pass φ)} {t : Supervisor φ}
    (maxJournal : Nat) (h : Reads fence limit closeInput start passes t) (pass : Pass φ)
    (hreceive : ∀ receive, pass = .input receive →
      ∀ f f', receive f = .ok f' → fence.terminal f' = fence.terminal f) :
    (∃ t', supervise fence limit closeInput maxJournal t pass = .ok t' ∧
      pass.Calm fence limit passes t ∧ Reads fence limit closeInput start (passes ++ [pass]) t') ∨
    (∃ t', supervise fence limit closeInput maxJournal t pass = .error t') ∧
      ¬pass.Calm fence limit passes t := by
  cases pass with
  | input receive =>
      cases hf : receive t.fence with
      | error f =>
          refine .inr ⟨⟨{ t with fence := f }, by simp only [supervise, hf]⟩, ?_⟩
          rintro ⟨f', hf'⟩
          rw [hf] at hf'
          cases hf'
      | ok f =>
          have hok : supervise fence limit closeInput maxJournal t (.input receive) =
              .ok { t with fence := f } := by simp only [supervise, hf]
          exact .inl ⟨_, hok, ⟨f, hf⟩, h.input (hreceive receive rfl t.fence f hf)⟩
  | output data =>
      cases hterminal : fence.terminal t.fence with
      | true =>
          have hsame : supervise fence limit closeInput maxJournal t (.output data) = .ok t := by
            simp only [supervise, hterminal, if_true]
          refine .inl ⟨t, hsame, fun hrunning => ?_, ?_⟩
          · rw [hterminal] at hrunning
            cases hrunning
          · exact h.output_ended hterminal data
      | false =>
          rcases h.output maxJournal hterminal data with ⟨fed, hfed, hcalm, hreads⟩ | ⟨⟨st, hst⟩, hnot⟩
          · refine .inl ⟨_, ?_, fun _ => hcalm, hreads⟩
            simp only [supervise, hterminal, Bool.false_eq_true, if_false, hfed]
          · refine .inr ⟨⟨{ t with fence := st.1, error := st.2 }, ?_⟩, fun hcalm => ?_⟩
            · simp only [supervise, hterminal, Bool.false_eq_true, if_false, hst]
            · exact hnot (hcalm hterminal)

/-- The journal holds what has been consumed, until it would be larger than its limit. -/
structure Journaled (maxJournal : Nat) (t : Supervisor φ) : Prop where
  part : t.journal <+: t.consumed
  complete : t.journalComplete = true → t.journal = t.consumed
  full : t.journalComplete = false → maxJournal < t.consumed.length

theorem keep_journaled {t : Supervisor φ} (h : Journaled maxJournal t) (data : Output)
    (fed : Fed (φ × Bool)) : Journaled maxJournal (t.keep maxJournal data fed) := by
  unfold Supervisor.keep
  simp only
  split
  next hroom =>
    obtain ⟨hle, hcomplete⟩ := hroom
    have hsame := h.complete hcomplete
    refine ⟨?_, fun _ => ?_, fun h => ?_⟩
    · exact ⟨[], by rw [List.append_nil, hsame]⟩
    · rw [hsame]
    · exact absurd (hcomplete.symm.trans h) Bool.noConfusion
  next hroom =>
    refine ⟨h.part.trans (List.prefix_append _ _), fun h => Bool.noConfusion h, fun _ => ?_⟩
    rw [List.length_append]
    cases hcomplete : t.journalComplete with
    | true =>
        rw [← h.complete hcomplete]
        rw [not_and_or] at hroom
        cases hroom with
        | inl hlarge => exact Nat.not_le.mp hlarge
        | inr hnot => exact absurd hcomplete hnot
    | false => exact Nat.lt_add_right _ (h.full hcomplete)

theorem supervise_journaled {t t' : Supervisor φ} (h : Journaled maxJournal t) {pass : Pass φ}
    (hok : supervise fence limit closeInput maxJournal t pass = .ok t') :
    Journaled maxJournal t' := by
  cases pass with
  | input receive =>
      cases hf : receive t.fence with
      | error f =>
          simp only [supervise, hf] at hok
          cases hok
      | ok f =>
          simp only [supervise, hf] at hok
          cases hok
          exact ⟨h.part, h.complete, h.full⟩
  | output data =>
      simp only [supervise] at hok
      split at hok
      · cases hok
        exact h
      · split at hok
        · cases hok
        · cases hok
          exact keep_journaled h data _

/-- Input never ends a turn. -/
def Receives (fence : Fence φ V) (passes : List (Pass φ)) : Prop :=
  ∀ receive, .input receive ∈ passes →
    ∀ f f', receive f = .ok f' → fence.terminal f' = fence.terminal f

/-- A run of the loop, until a pass raises. -/
def superviseAll (fence : Fence φ V) (limit : Int) (closeInput : Bool) (maxJournal : Nat)
    (start : φ) (passes : List (Pass φ)) : Except (Supervisor φ) (Supervisor φ) :=
  passes.foldlM (supervise fence limit closeInput maxJournal) { fence := start }

/-- No pass of a run raises. -/
def CalmRun (fence : Fence φ V) (limit : Int) (closeInput : Bool) (maxJournal : Nat)
    (start : φ) (passes : List (Pass φ)) : Prop :=
  ∀ before pass after t, passes = before ++ pass :: after →
    superviseAll fence limit closeInput maxJournal start before = .ok t →
    pass.Calm fence limit before t

theorem superviseAll_concat (start : φ) (passes : List (Pass φ)) (pass : Pass φ) :
    superviseAll fence limit closeInput maxJournal start (passes ++ [pass]) =
      (superviseAll fence limit closeInput maxJournal start passes).bind fun t =>
        supervise fence limit closeInput maxJournal t pass := by
  rw [superviseAll, List.foldlM_append]
  change Except.bind _ _ = _
  unfold superviseAll
  congr 1
  funext t
  rw [List.foldlM_cons]
  cases supervise fence limit closeInput maxJournal t pass <;> rfl

theorem superviseAll_reads {start : φ} (hstart : fence.terminal start = false)
    {passes : List (Pass φ)} (hreceive : Receives fence passes) {t : Supervisor φ}
    (hok : superviseAll fence limit closeInput maxJournal start passes = .ok t) :
    Reads fence limit closeInput start passes t ∧ Journaled maxJournal t := by
  induction passes using List.reverseRecOn generalizing t with
  | nil =>
      cases hok
      refine ⟨⟨fun _ => ⟨rfl, (start, false), Framed.start _, fun _ => ⟨rfl, ?_⟩⟩, ?_⟩, ?_⟩
      · intro pre hpre
        rw [List.prefix_nil.mp hpre]
        exact hstart
      · intro hended
        exact absurd (hstart.symm.trans hended) Bool.noConfusion
      · exact ⟨List.prefix_refl _, fun _ => rfl, fun h => Bool.noConfusion h⟩
  | append_singleton passes pass ih =>
      rw [superviseAll_concat] at hok
      cases hbefore : superviseAll fence limit closeInput maxJournal start passes with
      | error t' =>
          rw [hbefore] at hok
          cases hok
      | ok before =>
          rw [hbefore] at hok
          obtain ⟨hreads, hjournaled⟩ := ih (fun receive hmem =>
            hreceive receive (List.mem_append_left _ hmem)) hbefore
          refine ⟨?_, supervise_journaled hjournaled hok⟩
          have hpass : ∀ receive, pass = .input receive →
              ∀ f f', receive f = .ok f' → fence.terminal f' = fence.terminal f := by
            rintro receive rfl
            exact hreceive receive (List.mem_append_right _ List.mem_cons_self)
          rcases supervise_pass maxJournal hreads pass hpass with
            ⟨t', ht', -, hreads'⟩ | ⟨⟨t', ht'⟩, -⟩
          · cases ht'.symm.trans hok
            exact hreads'
          · cases ht'.symm.trans hok

/-- Exactly a run of calm passes comes to its end. -/
theorem superviseAll_iff {start : φ} (hstart : fence.terminal start = false)
    {passes : List (Pass φ)} (hreceive : Receives fence passes) :
    (∃ t, superviseAll fence limit closeInput maxJournal start passes = .ok t) ↔
      CalmRun fence limit closeInput maxJournal start passes := by
  induction passes using List.reverseRecOn with
  | nil =>
      clear hreceive
      refine ⟨fun _ before pass after t h => ?_, fun _ => ⟨_, rfl⟩⟩
      cases List.append_ne_nil_of_right_ne_nil before (List.cons_ne_nil pass after) h.symm
  | append_singleton passes pass ih =>
      have hbefore : Receives fence passes := fun receive hmem =>
        hreceive receive (List.mem_append_left _ hmem)
      have hpass : ∀ receive, pass = .input receive →
          ∀ f f', receive f = .ok f' → fence.terminal f' = fence.terminal f := by
        rintro receive rfl
        exact hreceive receive (List.mem_append_right _ List.mem_cons_self)
      rw [superviseAll_concat]
      constructor
      · rintro ⟨t', hok⟩ before pass' after t hsplit ht
        cases hrun : superviseAll fence limit closeInput maxJournal start passes with
        | error u =>
            rw [hrun] at hok
            cases hok
        | ok u =>
            rcases List.eq_nil_or_concat after with rfl | ⟨more, last, rfl⟩
            · obtain ⟨rfl, hlast⟩ := List.append_inj' hsplit rfl
              obtain ⟨rfl, -⟩ := List.cons.inj hlast
              rw [hrun] at ht
              cases ht
              rw [hrun] at hok
              have hreads := (superviseAll_reads hstart hbefore hrun).1
              rcases supervise_pass maxJournal hreads pass hpass with
                ⟨_, -, hcalm, -⟩ | ⟨⟨t'', ht''⟩, -⟩
              · exact hcalm
              · cases ht''.symm.trans hok
            · rw [List.concat_eq_append, ← List.cons_append, ← List.append_assoc] at hsplit
              obtain ⟨rfl, -⟩ := List.append_inj' hsplit rfl
              exact (ih hbefore).mp ⟨u, hrun⟩ before pass' more t rfl ht
      · intro hcalm
        obtain ⟨u, hrun⟩ := (ih hbefore).mpr fun before pass' after t hsplit ht =>
          hcalm before pass' (after ++ [pass]) t (by rw [hsplit, List.append_assoc]; rfl) ht
        rw [hrun]
        have hreads := (superviseAll_reads hstart hbefore hrun).1
        rcases supervise_pass maxJournal hreads pass hpass with
          ⟨t', ht', -, -⟩ | ⟨-, hnot⟩
        · exact ⟨t', ht'⟩
        · exact absurd (hcalm passes pass [] u rfl hrun) hnot

end Run

/-- What a run has consumed and kept: all output, or the output through the newline of the line
that ended the turn, the first one to do so. -/
structure Kept {φ V : Type} (fence : Fence φ V) (limit : Int) (maxJournal : Nat) (start : φ)
    (passes : List (Pass φ)) (t : Supervisor φ) : Prop where
  running : fence.terminal t.fence = false → t.consumed = outputOf passes ∧
    (OnlyOutput passes → ∀ pre, pre <+: (cut newline [] (outputOf passes)).1.map (frame limit) →
      fence.terminal (fence.hearAll start pre) = false)
  ended : fence.terminal t.fence = true → ∃ ls line rest,
    (cut newline [] (outputOf passes)).1 = ls ++ line :: rest ∧
      t.consumed = (ls ++ [line]).flatten ∧ ¬limit < (line.length : Int) ∧ Ends fence line ∧
      (OnlyOutput passes → t.fence = fence.hearAll start ((ls ++ [line]).map (frame limit)) ∧
        ∀ pre, pre <+: ls.map (frame limit) → fence.terminal (fence.hearAll start pre) = false)
  part : t.journal <+: t.consumed
  room : t.consumed.length ≤ maxJournal → t.journal = t.consumed

/-- The framing of a turn's output does not depend on how it is read. The observer hears all
lines of the whole stream exactly when none raises where it is heard, and a run comes to its
end, with what it should have kept, exactly when no pass of it meets a line that raises. -/
theorem turn_journal_framing {σ V φ : Type} (o : Observer σ V) (st : σ) (fence : Fence φ V)
    (start : φ) (hstart : fence.terminal start = false) (limit : Int) (closeInput : Bool)
    (maxJournal : Nat) :
    (∀ reads, feedAll o limit reads st = o.observeLines st (frames limit reads.flatten)) ∧
    (∀ reads, feedAll o limit reads st = .ok (o.observeAll st (frames limit reads.flatten)) ↔
      Calm o st (frames limit reads.flatten)) ∧
    ∀ passes, Receives fence passes →
      ((∃ t, superviseAll fence limit closeInput maxJournal start passes = .ok t ∧
        Kept fence limit maxJournal start passes t) ↔
      CalmRun fence limit closeInput maxJournal start passes) := by
  refine ⟨fun reads => feedAll_eq reads st, fun reads => ?_, fun passes hreceive => ?_⟩
  · rw [feedAll_eq]
    exact observeLines_iff o st _
  · rw [← superviseAll_iff hstart hreceive]
    refine ⟨fun ⟨t, hok, _⟩ => ⟨t, hok⟩, fun ⟨t, hok⟩ => ⟨t, hok, ?_⟩⟩
    obtain ⟨hreads, hjournaled⟩ := superviseAll_reads hstart hreceive hok
    refine ⟨fun hrunning => ?_, hreads.ended, hjournaled.part, fun hroom => ?_⟩
    · obtain ⟨hconsumed, _, -, honly⟩ := hreads.running hrunning
      exact ⟨hconsumed, fun h => (honly h).2⟩
    · apply hjournaled.complete
      rw [← Bool.not_eq_false]
      intro hfull
      exact Nat.not_lt.mpr hroom (hjournaled.full hfull)

section DeeplyNested

/-- What `json.loads` makes of the two lines of `nested`. -/
def loadsNested (raw : Output) : Loaded Unit :=
  if raw = [123, 125, newline] then .value ()
  else if raw.head? = some 91 then .raised
  else .refused

/-- An observer that counts the lines it has heard. -/
def counting : Observer Nat Unit where
  loads := loadsNested
  consume heard _ := heard + 1
  fails _ _ := false
  overflow := none

/-- A line of a hundred thousand open brackets. -/
def openBrackets : Output := List.replicate 100000 91 ++ [newline]

/-- A deeply nested line, and `{}` after it. -/
def nested : Output := openBrackets ++ [123, 125, newline]

theorem frames_nested :
    frames 200000 nested = [.line openBrackets, .line [123, 125, newline]] := by
  have hopen : newline ∉ List.replicate 100000 (91 : UInt8) := by
    rw [List.mem_replicate]
    exact fun h => absurd h.2 (by decide)
  have hcut : cut newline [] nested = ([openBrackets, [123, 125, newline]], []) := by
    rw [nested, openBrackets, cut_append, cut_line newline [] _ hopen, List.nil_append]
    rfl
  have hlength : ¬(200000 : Int) < (openBrackets.length : Int) := by
    rw [openBrackets, List.length_append, List.length_replicate]
    decide
  rw [frames, hcut, if_pos rfl, List.append_nil, List.map_cons, List.map_singleton, frame,
    if_neg hlength, frame, if_neg (by decide)]

/-- The line after a deeply nested one is not heard: the exception leaves the feed. -/
theorem deeply_nested_ends_feed :
    feedAll counting 200000 [nested] 0 = .error 0 ∧
      counting.observeAll 0 (frames 200000 [nested].flatten) = 1 := by
  have hhead : openBrackets.head? = some 91 := by
    rw [openBrackets, List.head?_append, List.head?_replicate]
    rfl
  have hother : openBrackets ≠ [123, 125, newline] := by
    intro h
    rw [h] at hhead
    cases hhead
  have hloads : counting.loads openBrackets = .raised := by
    change loadsNested openBrackets = .raised
    rw [loadsNested, if_neg hother, if_pos hhead]
  rw [feedAll_eq, List.flatten_singleton, frames_nested]
  simp only [Observer.observeLines, Observer.observeAll, List.foldl_cons, List.foldl_nil,
    Observer.raises, Observer.observe, hloads]
  exact ⟨rfl, rfl⟩

end DeeplyNested

/-- A fence that one line ends: `A` and a newline. A line that begins with `[` nests too deeply. -/
def endsAtA : Fence Bool Unit where
  loads raw :=
    if raw = [65, newline] then .value ()
    else if raw.head? = some 91 then .raised
    else .refused
  output _ _ := true
  fails _ _ := false
  terminal f := f

/-- The ending line is cut apart by two reads, and a third one nests too deeply after it. -/
def cutRun : List (Pass Bool) :=
  [.output [66, newline, 65], .output [newline, 67], .output [newline, 91, newline]]

theorem turn_journal_cut :
    ∃ t, superviseAll endsAtA 8 true 16 false cutRun = .ok t ∧
      t.consumed = [66, newline, 65, newline] ∧ t.journal = t.consumed := by
  have hreceive : Receives endsAtA cutRun := by
    intro receive hmem
    simp [cutRun] at hmem
  have hcalm : CalmRun endsAtA 8 true 16 false cutRun := by
    intro before pass after t hsplit ht
    rcases before with _ | ⟨first, _ | ⟨second, _ | ⟨third, before⟩⟩⟩
    · obtain ⟨rfl, -⟩ := List.cons.inj hsplit
      cases ht
      exact fun _ => calmUntil_one (by decide)
    · obtain ⟨rfl, hrest⟩ := List.cons.inj hsplit
      obtain ⟨rfl, -⟩ := List.cons.inj hrest
      cases ht
      exact fun _ => calmUntil_one (by decide)
    · obtain ⟨rfl, hrest⟩ := List.cons.inj hsplit
      obtain ⟨rfl, hlast⟩ := List.cons.inj hrest
      obtain ⟨rfl, -⟩ := List.cons.inj hlast
      cases ht
      exact fun hrunning => Bool.noConfusion hrunning
    · simp [cutRun] at hsplit
  obtain ⟨t, hok, hkept⟩ := ((turn_journal_framing (endsAtA.observer true) (false, false) endsAtA
    false rfl 8 true 16).2.2 cutRun hreceive).mpr hcalm
  have hconsumed : t.consumed = [66, newline, 65, newline] := by
    cases hok
    decide
  exact ⟨t, hok, hconsumed, hkept.room (by rw [hconsumed]; decide)⟩

end RcpGraph.Transport
