import RcpGraph.Deploy.Coordinator

/-!
What every deployment keeps, wherever it is cut and however often it is recovered.
One invariant ties the durable phase to the pointer, the selection, the roots and
what has been written; each step of the coordinator is shown to keep it.
-/

namespace RcpGraph.Deploy

open Crash

variable {D W R P : Type} [DecidableEq R]

namespace Phase

/-- The pointer names the target. -/
def ahead : Phase → Bool
  | .pointerSwitched | .candidateVerified | .candidateChosen | .committed => true
  | _ => false

/-- The pointer names the previous release. -/
def behind : Phase → Bool
  | .preparing | .backupReady | .enteringMaintenance | .quiescent | .snapshotting
  | .snapshotReady | .checkpointReady | .previousPointerRestored | .previousVerified
  | .previousChosen | .rolledBack | .aborted => true
  | _ => false

/-- The candidate has been chosen. -/
def picked : Phase → Bool
  | .candidateChosen | .committed => true
  | _ => false

/-- The previous release has been chosen. -/
def kept : Phase → Bool
  | .previousChosen | .rolledBack => true
  | _ => false

/-- The roots have been restored. -/
def back : Phase → Bool
  | .rollbackRootsComplete | .previousPointerRestored | .previousVerified | .previousChosen
  | .rolledBack => true
  | _ => false

/-- Nothing has touched the roots. -/
def clean (kind : Kind) : Phase → Bool
  | .preparing | .backupReady | .enteringMaintenance | .quiescent | .snapshotting
  | .aborted => true
  | .checkpointReady => kind = .restore
  | _ => false

end Phase

/-- An event that must not come later. -/
def Event.Before : Event → Event → Prop
  | .wrote phase, .restored => phase.chosen = false
  | _, _ => True

section Invariant

variable (accept : D → W → D) (previous target : R)

/-- What the durable record says of everything else. -/
structure Inv (o : Operation D R P) (w : World D W R P) : Prop where
  journal : w.journal = some o
  valid : o.valid = true
  previous_eq : o.previous = previous
  target_eq : o.target = target
  version : o.version = 3
  pointer : w.pointer = previous ∨ w.pointer = target
  ahead : o.phase.ahead = true → w.pointer = target
  behind : o.phase.behind = true → w.pointer = previous
  selected : o.phase.picked = false → w.selected = previous
  committed : o.phase = .committed → w.selected = target
  clean : o.phase.clean o.kind = true → w.touched = false
  back : o.phase.back = true → ∃ c, o.checkpoint = some c ∧ w.roots = w.kept.foldl accept c
  ordered : w.log.Pairwise Event.Before
  picked : Event.wrote .candidateChosen ∈ w.log ↔ o.phase.picked = true
  kept : Event.wrote .previousChosen ∈ w.log → o.phase.kept = true

/-- Some durable record holds. -/
def Safe (w : World D W R P) : Prop := ∃ o, Inv accept previous target o w

variable {accept previous target}

theorem Inv.safe {o : Operation D R P} {w : World D W R P} (h : Inv accept previous target o w) :
    Safe accept previous target w := ⟨o, h⟩

theorem Inv.pass {o : Operation D R P} {w : World D W R P} (h : Inv accept previous target o w)
    (c : Choice D W P) : Inv accept previous target o (w.pass accept c) := by
  unfold World.pass
  split
  · refine { h with back := fun hback => ?_ }
    obtain ⟨contents, hcheckpoint, hroots⟩ := h.back hback
    refine ⟨contents, hcheckpoint, ?_⟩
    rw [List.foldl_append, ← hroots]
  · exact { h with }

/-- A record with another phase becomes durable. -/
theorem Inv.wrote {o o' : Operation D R P} {w : World D W R P}
    (h : Inv accept previous target o w) (hvalid : o'.valid = true)
    (hprevious : o'.previous = o.previous) (htarget : o'.target = o.target)
    (hversion : o'.version = o.version)
    (hahead : o'.phase.ahead = true → w.pointer = target)
    (hbehind : o'.phase.behind = true → w.pointer = previous)
    (hselected : o'.phase.picked = false → w.selected = previous)
    (hcommitted : o'.phase = .committed → w.selected = target)
    (hclean : o'.phase.clean o'.kind = true → w.touched = false)
    (hback : o'.phase.back = true → ∃ c, o'.checkpoint = some c ∧ w.roots = w.kept.foldl accept c)
    (hpicked : o'.phase.picked = true ↔ o.phase.picked = true ∨ o'.phase = .candidateChosen)
    (hkept : o.phase.kept = true ∨ o'.phase = .previousChosen → o'.phase.kept = true) :
    Inv accept previous target o' (w.wrote o') where
  journal := rfl
  valid := hvalid
  previous_eq := hprevious.trans h.previous_eq
  target_eq := htarget.trans h.target_eq
  version := hversion.trans h.version
  pointer := h.pointer
  ahead := hahead
  behind := hbehind
  selected := hselected
  committed := hcommitted
  clean := hclean
  back := hback
  ordered := by
    apply List.pairwise_append.mpr
    refine ⟨h.ordered, List.pairwise_singleton _ _, fun a _ b hb => ?_⟩
    rw [List.mem_singleton] at hb
    subst hb
    cases a with
    | wrote => trivial
    | restored => trivial
  picked := by
    rw [World.wrote, List.mem_append, List.mem_singleton, Event.wrote.injEq, h.picked, hpicked]
    exact or_congr_right eq_comm
  kept := by
    intro hmem
    rw [World.wrote, List.mem_append, List.mem_singleton, Event.wrote.injEq] at hmem
    apply hkept
    rcases hmem with hmem | heq
    · exact .inl (h.kept hmem)
    · exact .inr heq.symm

/-- A restore before a choice. -/
theorem Inv.replaced {o : Operation D R P} {w : World D W R P}
    (h : Inv accept previous target o w) (contents : D) (hpicked : o.phase.picked = false)
    (hkept : o.phase.kept = false) (hback : o.phase.back = false)
    (hclean : o.phase.clean o.kind = false) :
    Inv accept previous target o (w.replaced contents) where
  journal := h.journal
  valid := h.valid
  previous_eq := h.previous_eq
  target_eq := h.target_eq
  version := h.version
  pointer := h.pointer
  ahead := h.ahead
  behind := h.behind
  selected := h.selected
  committed := h.committed
  clean := fun hc => absurd hc (by rw [hclean]; decide)
  back := fun hb => absurd hb (by rw [hback]; decide)
  ordered := by
    apply List.pairwise_append.mpr
    refine ⟨h.ordered, List.pairwise_singleton _ _, fun a ha b hb => ?_⟩
    rw [List.mem_singleton] at hb
    subst hb
    cases a with
    | restored => trivial
    | wrote phase =>
        change phase.chosen = false
        by_contra hchosen
        cases phase with
        | candidateChosen =>
            rw [h.picked.mp ha] at hpicked
            cases hpicked
        | previousChosen =>
            rw [h.kept ha] at hkept
            cases hkept
        | _ => exact hchosen rfl
  picked := by
    rw [World.replaced, List.mem_append, h.picked]
    simp
  kept := by
    intro hmem
    apply h.kept
    simpa [World.replaced] using hmem

theorem Inv.migrated {o : Operation D R P} {w : World D W R P}
    (h : Inv accept previous target o w) (c : Choice D W P) (hback : o.phase.back = false)
    (hclean : o.phase.clean o.kind = false) :
    Inv accept previous target o (w.migrated c) :=
  { h with
    clean := fun hc => absurd hc (by rw [hclean]; decide)
    back := fun hb => absurd hb (by rw [hback]; decide) }

theorem Inv.pointed {o : Operation D R P} {w : World D W R P}
    (h : Inv accept previous target o w) (release : R) (hrelease : release = previous ∨ release = target)
    (hahead : o.phase.ahead = true → release = target)
    (hbehind : o.phase.behind = true → release = previous) :
    Inv accept previous target o { w with pointer := release } :=
  { h with pointer := hrelease, ahead := hahead, behind := hbehind }

theorem Inv.chose {o : Operation D R P} {w : World D W R P}
    (h : Inv accept previous target o w) (release : R)
    (hselected : o.phase.picked = false → release = previous)
    (hcommitted : o.phase = .committed → release = target) :
    Inv accept previous target o { w with selected := release } :=
  { h with selected := hselected, committed := hcommitted }

theorem Inv.serving {o : Operation D R P} {w : World D W R P}
    (h : Inv accept previous target o w) (serving : Bool) :
    Inv accept previous target o { w with serving := serving } := { h with }

end Invariant

section Rules

variable {accept : D → W → D} {oracle : Nat → Choice D W P} {A B E : World D W R P → Prop}

/-- The passing of time keeps an assertion. -/
def Stable (accept : D → W → D) (A : World D W R P → Prop) : Prop :=
  ∀ w (c : Choice D W P), A w → A (w.pass accept c)

omit [DecidableEq R] in
theorem act_rule {mid effect : Choice D W P → World D W R P → World D W R P}
    {Q : Choice D W P → World D W R P → Prop} (hA : Stable accept A) (hbefore : ∀ w, A w → E w)
    (hmid : ∀ c w, A w → E (mid c w)) (heffect : ∀ c w, A w → Q c (effect c w))
    (hafter : ∀ c w, Q c w → E w) : Triple A (act accept oracle mid effect) Q E := by
  intro w hw
  have hpass := hA w (oracle w.clock) hw
  have hfail : ∀ u, E u → Ends Q E (fail (oracle w.clock), u) := by
    intro u hu
    unfold fail
    split
    · exact hu
    · exact hu
  unfold act
  cases hpoint : (oracle w.clock).point with
  | before =>
      simp only [hpoint]
      exact hfail _ (hbefore _ hpass)
  | midway =>
      simp only [hpoint]
      exact hfail _ (hmid _ _ hpass)
  | after =>
      simp only [hpoint]
      exact hfail _ (hafter _ _ (heffect _ _ hpass))
  | never =>
      simp only [hpoint]
      exact heffect _ _ hpass

omit [DecidableEq R] in
theorem step_rule {effect : World D W R P → World D W R P} (hA : Stable accept A)
    (hbefore : ∀ w, A w → E w) (heffect : ∀ w, A w → B (effect w)) (hafter : ∀ w, B w → E w) :
    Triple A (step accept oracle effect) (fun _ => B) E := by
  unfold step
  apply Triple.bind (act_rule hA hbefore (fun _ w hw => hbefore w hw) (fun _ => heffect)
    fun _ => hafter)
  intro c
  exact Triple.pure () fun w hw => hw

omit [DecidableEq R] in
theorem visit_rule (hA : Stable accept A) (hE : ∀ w, A w → E w) :
    Triple A (visit accept oracle) (fun _ => A) E :=
  step_rule hA hE (fun _ hw => hw) hE

end Rules

section Steps

variable {accept : D → W → D} {oracle : Nat → Choice D W P} {previous target : R}

/-- A record is durable, and something else holds. -/
def At (accept : D → W → D) (previous target : R) (o : Operation D R P)
    (F : World D W R P → Prop) (w : World D W R P) : Prop :=
  Inv accept previous target o w ∧ F w

variable {o : Operation D R P} {F G : World D W R P → Prop}

theorem At.safe (w : World D W R P) (h : At accept previous target o F w) :
    Safe accept previous target w := h.1.safe

theorem stable_at (hF : Stable accept F) : Stable accept (At accept previous target o F) :=
  fun w c h => ⟨h.1.pass c, hF w c h.2⟩

theorem visit_at (hF : Stable accept F) :
    Triple (At accept previous target o F) (visit accept oracle)
      (fun _ => At accept previous target o F) (Safe accept previous target) :=
  visit_rule (stable_at hF) At.safe

/-- A step that keeps the record's invariant. -/
theorem step_at {effect : World D W R P → World D W R P} (hF : Stable accept F)
    (heffect : ∀ w, At accept previous target o F w → At accept previous target o G (effect w)) :
    Triple (At accept previous target o F) (step accept oracle effect)
      (fun _ => At accept previous target o G) (Safe accept previous target) :=
  step_rule (stable_at hF) At.safe heffect At.safe

theorem serving_at (hF : Stable accept F) (hserving : ∀ w b, F w → F { w with serving := b })
    (serving : Bool) :
    Triple (At accept previous target o F)
      (step accept oracle fun w => { w with serving := serving })
      (fun _ => At accept previous target o F) (Safe accept previous target) :=
  step_at hF fun w hw => ⟨hw.1.serving serving, hserving w serving hw.2⟩

theorem startService_at (hF : Stable accept F) (hserving : ∀ w b, F w → F { w with serving := b }) :
    Triple (At accept previous target o F) (startService accept oracle)
      (fun _ => At accept previous target o F) (Safe accept previous target) := by
  have hstart : ∀ w, At accept previous target o F w →
      At accept previous target o F { w with serving := true } :=
    fun w hw => ⟨hw.1.serving true, hserving w true hw.2⟩
  unfold startService
  apply Triple.bind (act_rule (stable_at hF) At.safe (fun _ w hw => (hstart w hw).safe)
    (fun _ w hw => hstart w hw) fun _ => At.safe)
  intro c
  exact Triple.pure () fun w hw => hw

/-- The pointer moves to a release of the operation. -/
theorem switchPointer_at (release : R) (allowed : List R) (hF : Stable accept F)
    (hswitch : ∀ w, At accept previous target o F w →
      At accept previous target o G { w with pointer := release }) :
    Triple (At accept previous target o F) (switchPointer accept oracle release allowed)
      (fun _ => At accept previous target o G) (Safe accept previous target) := by
  unfold switchPointer
  apply Triple.bind (visit_at hF)
  intro _
  apply Triple.bind (Triple.get (Q := fun _ => At accept previous target o F) fun _ hw => hw)
  intro w
  split
  · exact step_at hF hswitch
  · exact Triple.raise _ At.safe

theorem select_at (release : R) (hF : Stable accept F)
    (hselect : ∀ w, At accept previous target o F w →
      At accept previous target o G { w with selected := release }) :
    Triple (At accept previous target o F) (select accept oracle release)
      (fun _ => At accept previous target o G) (Safe accept previous target) :=
  step_at hF hselect

/-- The candidate is probed before the choice of the previous release. -/
theorem probe_at (candidate : Bool) (hF : Stable accept F)
    (hcandidate : candidate = true → (∀ w c, F w → F (w.migrated c)) ∧ o.phase.back = false ∧
      o.phase.clean o.kind = false) :
    Triple (At accept previous target o F) (probe accept oracle candidate)
      (fun _ => At accept previous target o F) (Safe accept previous target) := by
  unfold probe
  split
  next htrue =>
    obtain ⟨hmigrated, hback, hclean⟩ := hcandidate htrue
    have hrun : ∀ c w, At accept previous target o F w →
        At accept previous target o F (w.migrated c) :=
      fun c w hw => ⟨hw.1.migrated c hback hclean, hmigrated w c hw.2⟩
    apply Triple.bind (act_rule (stable_at hF) At.safe (fun c w hw => (hrun c w hw).safe) hrun
      fun _ => At.safe)
    intro c
    exact Triple.pure () fun w hw => hw
  next => exact visit_at hF

/-- The roots are restored before a choice. -/
theorem restoreRoots_at (contents : D) (hpicked : o.phase.picked = false)
    (hkept : o.phase.kept = false) (hback : o.phase.back = false)
    (hclean : o.phase.clean o.kind = false) (hF : Stable accept F)
    (hG : ∀ w, F w → G (w.replaced contents)) :
    Triple (At accept previous target o F) (restoreRoots accept oracle contents)
      (fun _ => At accept previous target o G) (Safe accept previous target) := by
  unfold restoreRoots
  apply Triple.bind (act_rule (stable_at hF) At.safe
    (fun c w hw => (hw.1.replaced c.left hpicked hkept hback hclean).safe)
    (fun _ w hw => ⟨hw.1.replaced contents hpicked hkept hback hclean, hG w hw.2⟩) fun _ => At.safe)
  intro c
  exact Triple.pure () fun w hw => hw

/-- A record that the invariant allows becomes durable. -/
theorem write_at (o' : Operation D R P) (hF : Stable accept F)
    (hwrote : ∀ w, At accept previous target o F w → o'.valid = true →
      At accept previous target o' G (w.wrote o')) :
    Triple (At accept previous target o F) (write accept oracle o')
      (fun _ => At accept previous target o' G) (Safe accept previous target) := by
  unfold write
  split
  next hvalid =>
    exact step_rule (stable_at hF) At.safe (fun w hw => hwrote w hw hvalid) At.safe
  next => exact Triple.raise _ At.safe

/-- The next phase becomes durable. -/
theorem toPhase_from (o₁ : Operation D R P) (phase : Phase) (hF : Stable accept F)
    (hG : Stable accept G)
    (hwrote : ∀ w, At accept previous target o F w → { o₁ with phase := phase }.valid = true →
      At accept previous target { o₁ with phase := phase } G (w.wrote { o₁ with phase := phase })) :
    Triple (At accept previous target o F) (toPhase accept oracle o₁ phase)
      (fun o' w => o' = { o₁ with phase := phase } ∧
        At accept previous target { o₁ with phase := phase } G w) (Safe accept previous target) := by
  unfold toPhase
  apply Triple.bind (write_at _ hF hwrote)
  intro _
  apply Triple.bind (visit_at hG)
  intro _
  exact Triple.pure _ fun w hw => ⟨rfl, hw⟩

theorem toPhase_at (phase : Phase) (hF : Stable accept F) (hG : Stable accept G)
    (hwrote : ∀ w, At accept previous target o F w → { o with phase := phase }.valid = true →
      At accept previous target { o with phase := phase } G (w.wrote { o with phase := phase })) :
    Triple (At accept previous target o F) (toPhase accept oracle o phase)
      (fun o' w => o' = { o with phase := phase } ∧
        At accept previous target { o with phase := phase } G w) (Safe accept previous target) :=
  toPhase_from o phase hF hG hwrote

/-- The program goes on with the record that became durable. -/
theorem toPhase_then {α : Type} {Q : α → World D W R P → Prop} (phase : Phase)
    (hF : Stable accept F) (hG : Stable accept G)
    (hwrote : ∀ w, At accept previous target o F w → { o with phase := phase }.valid = true →
      At accept previous target { o with phase := phase } G (w.wrote { o with phase := phase }))
    {f : Operation D R P → Coord D W R P α}
    (hf : Triple (At accept previous target { o with phase := phase } G)
      (f { o with phase := phase }) Q (Safe accept previous target)) :
    Triple (At accept previous target o F) (toPhase accept oracle o phase >>= f) Q
      (Safe accept previous target) := by
  apply Triple.bind (toPhase_at phase hF hG hwrote)
  intro o'
  apply Triple.assume
  rintro rfl
  exact hf

/-- Without a further fact. -/
abbrev Anything : World D W R P → Prop := fun _ => True

omit [DecidableEq R] in
theorem stable_anything : Stable accept (Anything : World D W R P → Prop) := fun _ _ h => h

/-- A phase that the invariant of another allows. -/
@[mk_iff]
structure Phase.Next (kind : Kind) (p q : Phase) : Prop where
  ahead : q.ahead = true → p.ahead = true
  behind : q.behind = true → p.behind = true
  selected : q.picked = false → p.picked = false
  committed : q = .committed → p = .committed
  clean : q.clean kind = true → p.clean kind = true
  back : q.back = true → p.back = true
  picked : q.picked = true ↔ p.picked = true ∨ q = .candidateChosen
  kept : p.kept = true ∨ q = .previousChosen → q.kept = true

instance (kind : Kind) (p q : Phase) : Decidable (p.Next kind q) :=
  decidable_of_iff _ (Phase.next_iff kind p q).symm

theorem next_aborted (kind : Kind) (p : Phase) (hearly : p.early = true)
    (hclean : p.clean kind = true) : p.Next kind .aborted := by
  revert hearly hclean
  cases kind <;> cases p <;> decide

theorem next_rollbackStarted (kind : Kind) (p : Phase) (hterminal : p.terminal = false)
    (hchosen : p.chosen = false) : p.Next kind .rollbackStarted := by
  revert hterminal hchosen
  cases kind <;> cases p <;> decide

/-- The moves that need no further fact. -/
def Phase.moves : List (Phase × Phase) :=
  [(.preparing, .backupReady), (.backupReady, .enteringMaintenance),
    (.enteringMaintenance, .quiescent), (.quiescent, .snapshotting), (.snapshotting, .snapshotReady),
    (.checkpointReady, .activating), (.pointerSwitched, .candidateVerified),
    (.candidateVerified, .candidateChosen), (.previousPointerRestored, .previousVerified),
    (.previousVerified, .previousChosen), (.previousChosen, .rolledBack)]

theorem next_moves (kind : Kind) (p q : Phase) (h : (p, q) ∈ Phase.moves) : p.Next kind q := by
  have hall : ∀ move ∈ Phase.moves, move.1.Next kind move.2 := by
    cases kind <;> decide
  exact hall (p, q) h

theorem next_self (kind : Kind) (p : Phase) : p.Next kind p := by
  refine ⟨id, id, id, id, id, id, ⟨.inl, ?_⟩, ?_⟩
  · rintro (h | rfl)
    · exact h
    · rfl
  · rintro (h | rfl)
    · exact h
    · rfl

/-- A record of a later phase becomes durable. -/
theorem Inv.follow {o' : Operation D R P} {w : World D W R P}
    (h : Inv accept previous target o w) (hvalid : o'.valid = true)
    (hprevious : o'.previous = o.previous) (htarget : o'.target = o.target)
    (hversion : o'.version = o.version) (hkind : o'.kind = o.kind)
    (hcheckpoint : o'.phase.back = true → o'.checkpoint = o.checkpoint)
    (hnext : o.phase.Next o.kind o'.phase) : Inv accept previous target o' (w.wrote o') := by
  refine h.wrote hvalid hprevious htarget hversion (fun hq => h.ahead (hnext.ahead hq))
    (fun hq => h.behind (hnext.behind hq)) (fun hq => h.selected (hnext.selected hq))
    (fun hq => h.committed (hnext.committed hq)) (fun hq => h.clean (hnext.clean (hkind ▸ hq)))
    (fun hq => ?_) hnext.picked hnext.kept
  obtain ⟨contents, hcontents, hroots⟩ := h.back (hnext.back hq)
  exact ⟨contents, (hcheckpoint hq).trans hcontents, hroots⟩

/-- A move that needs nothing but the invariant. -/
theorem follow_at (phase : Phase) (hnext : o.phase.Next o.kind phase) (w : World D W R P)
    (hw : At accept previous target o F w) (hvalid : { o with phase := phase }.valid = true) :
    At accept previous target { o with phase := phase } Anything
      (w.wrote { o with phase := phase }) :=
  ⟨hw.1.follow hvalid rfl rfl rfl rfl (fun _ => rfl) hnext, trivial⟩

theorem move_then {α : Type} {Q : α → World D W R P → Prop} (phase : Phase)
    (hF : Stable accept F) (hnext : o.phase.Next o.kind phase)
    {f : Operation D R P → Coord D W R P α}
    (hf : Triple (At accept previous target { o with phase := phase } Anything)
      (f { o with phase := phase }) Q (Safe accept previous target)) :
    Triple (At accept previous target o F) (toPhase accept oracle o phase >>= f) Q
      (Safe accept previous target) :=
  toPhase_then phase hF stable_anything (follow_at phase hnext) hf

/-- The last phase of a program. -/
theorem move_last (phase : Phase) (hF : Stable accept F) (hnext : o.phase.Next o.kind phase) :
    Triple (At accept previous target o F) (toPhase accept oracle o phase)
      (fun _ => Safe accept previous target) (Safe accept previous target) :=
  (toPhase_at phase hF stable_anything (follow_at phase hnext)).weaken (fun _ hw => hw)
    (fun _ _ hw => hw.2.1.safe) fun _ hw => hw

theorem unlessIs_at {m : Coord D W R P Unit} (skip : Bool)
    (hm : Triple (At accept previous target o F) m (fun _ => At accept previous target o F)
      (Safe accept previous target)) :
    Triple (At accept previous target o F) (unlessIs skip m)
      (fun _ => At accept previous target o F) (Safe accept previous target) := by
  unfold unlessIs
  split
  · exact Triple.pure () fun _ hw => hw
  · exact hm

theorem stopService_at (hF : Stable accept F) (hserving : ∀ w b, F w → F { w with serving := b }) :
    Triple (At accept previous target o F) (stopService accept oracle)
      (fun _ => At accept previous target o F) (Safe accept previous target) :=
  serving_at hF hserving false

end Steps

section Recover

variable {accept : D → W → D} {oracle : Nat → Choice D W P} {previous target : R}
  {o : Operation D R P}

/-- The selection is the target. -/
def SelectedIs (release : R) (w : World D W R P) : Prop := w.selected = release

omit [DecidableEq R] in
theorem stable_selectedIs (release : R) :
    Stable accept (SelectedIs release : World D W R P → Prop) := by
  intro w c h
  unfold World.pass
  split
  · exact h
  · exact h

def PointerIs (release : R) (w : World D W R P) : Prop := w.pointer = release

omit [DecidableEq R] in
theorem stable_pointerIs (release : R) :
    Stable accept (PointerIs release : World D W R P → Prop) := by
  intro w c h
  unfold World.pass
  split
  · exact h
  · exact h

/-- The roots hold a checkpoint and the work accepted since. -/
def RootsAre (accept : D → W → D) (contents : D) (w : World D W R P) : Prop :=
  w.roots = w.kept.foldl accept contents

omit [DecidableEq R] in
theorem stable_rootsAre (contents : D) :
    Stable accept (RootsAre accept contents : World D W R P → Prop) := by
  intro w c h
  unfold World.pass
  split
  · unfold RootsAre
    rw [List.foldl_append, ← h]
  · exact h

/-- The choice of the candidate is carried out. -/
theorem commit_last (hphase : o.phase = .candidateChosen) :
    Triple (At accept previous target o (SelectedIs target)) (toPhase accept oracle o .committed)
      (fun _ => Safe accept previous target) (Safe accept previous target) := by
  refine (toPhase_at .committed (stable_selectedIs target) stable_anything
    fun w hw hvalid => ⟨?_, trivial⟩).weaken (fun _ hw => hw) (fun _ _ hw => hw.2.1.safe)
      fun _ hw => hw
  refine hw.1.wrote hvalid rfl rfl rfl (fun _ => hw.1.ahead (by rw [hphase]; rfl))
    (fun h => by cases h) (fun h => by cases h) (fun _ => hw.2) (fun h => by cases h)
    (fun h => by cases h) ?_ ?_
  · simp [hphase, Phase.picked]
  · simp [hphase, Phase.kept]

/-- A chosen candidate stays chosen. -/
theorem recoverChosen_candidate (startup : Bool) (hphase : o.phase = .candidateChosen)
    (htarget : o.target = target) :
    Triple (At accept previous target o Anything) (recoverChosen accept oracle o startup)
      (fun _ => Safe accept previous target) (Safe accept previous target) := by
  unfold recoverChosen
  simp only [hphase, decide_true, if_true, Bool.not_true, Bool.false_and, Bool.false_eq_true,
    if_false, htarget]
  apply Triple.bind (unlessIs_at startup (stopService_at stable_anything fun _ _ h => h))
  intro _
  have hswitch : ∀ w : World D W R P, At accept previous target o Anything w →
      At accept previous target o Anything { w with pointer := target } := by
    intro w hw
    refine ⟨hw.1.pointed target (.inr rfl) (fun _ => rfl) fun h => ?_, trivial⟩
    rw [hphase] at h
    cases h
  apply Triple.bind (switchPointer_at target _ stable_anything hswitch)
  intro _
  have hselect : ∀ w : World D W R P, At accept previous target o Anything w →
      At accept previous target o (SelectedIs target) { w with selected := target } := by
    intro w hw
    refine ⟨hw.1.chose target (fun h => ?_) fun _ => rfl, rfl⟩
    rw [hphase] at h
    cases h
  apply Triple.bind (select_at target stable_anything hselect)
  intro _
  have hprobe : (∀ (w : World D W R P) c, SelectedIs target w → SelectedIs target (w.migrated c)) ∧
      o.phase.back = false ∧ o.phase.clean o.kind = false := by
    rw [hphase]
    exact ⟨fun _ _ h => h, rfl, rfl⟩
  apply Triple.bind (probe_at true (stable_selectedIs target) fun _ => hprobe)
  intro _
  apply Triple.bind (unlessIs_at startup
    (startService_at (stable_selectedIs target) fun _ _ h => h))
  intro _
  exact commit_last hphase

/-- The pointer is the previous release and stays so. -/
theorem pointed_previous {F : World D W R P → Prop} (hF : ∀ w r, F w → F { w with pointer := r })
    (hahead : o.phase.ahead = false) (w : World D W R P) (hw : At accept previous target o F w) :
    At accept previous target o F { w with pointer := previous } := by
  refine ⟨hw.1.pointed previous (.inl rfl) (fun h => ?_) fun _ => rfl, hF w previous hw.2⟩
  rw [hahead] at h
  cases h

theorem chose_previous (hphase : o.phase ≠ .committed) (w : World D W R P)
    (hw : At accept previous target o Anything w) :
    At accept previous target o Anything { w with selected := previous } :=
  ⟨hw.1.chose previous (fun _ => rfl) fun h => absurd h hphase, trivial⟩

/-- A chosen previous release stays chosen, with its data. -/
theorem recoverChosen_previous (startup : Bool) (hphase : o.phase = .previousChosen)
    (hprevious : o.previous = previous) :
    Triple (At accept previous target o Anything) (recoverChosen accept oracle o startup)
      (fun _ => Safe accept previous target) (Safe accept previous target) := by
  unfold recoverChosen
  have hnot : decide (o.phase = .candidateChosen) = false := by
    rw [hphase]
    rfl
  have hnext : o.phase.Next o.kind .rolledBack := next_moves o.kind _ _ (by rw [hphase]; decide)
  simp only [hnot, Bool.false_eq_true, if_false, Bool.not_false, Bool.true_and, hprevious]
  apply Triple.bind (unlessIs_at startup (stopService_at stable_anything fun _ _ h => h))
  intro _
  apply Triple.bind (switchPointer_at previous _ stable_anything
    (pointed_previous (fun _ _ h => h) (by rw [hphase]; rfl)))
  intro _
  apply Triple.bind (select_at previous stable_anything (chose_previous (by rw [hphase]; decide)))
  intro _
  split
  · exact move_last .rolledBack stable_anything hnext
  · apply Triple.bind (probe_at false stable_anything fun h => by cases h)
    intro _
    apply Triple.bind (unlessIs_at startup (startService_at stable_anything fun _ _ h => h))
    intro _
    exact move_last .rolledBack stable_anything hnext

/-- Before anything is activated, an abort keeps everything. -/
theorem abortEarly_safe (startup : Bool) (hprevious : o.previous = previous)
    (hclean : o.phase.clean o.kind = true) (hearly : o.phase.early = true) :
    Triple (At accept previous target o Anything) (abortEarly accept oracle o startup)
      (fun _ => Safe accept previous target) (Safe accept previous target) := by
  have hnext := next_aborted o.kind o.phase hearly hclean
  have hahead : o.phase.ahead = false := by
    cases hphase : o.phase <;> rw [hphase] at hearly <;> first | rfl | cases hearly
  have hcommitted : o.phase ≠ .committed := by
    intro h
    rw [h] at hearly
    cases hearly
  unfold abortEarly
  split
  · apply Triple.bind (unlessIs_at startup (stopService_at stable_anything fun _ _ h => h))
    intro _
    exact move_last .aborted stable_anything hnext
  · split
    · apply Triple.bind (serving_at stable_anything (fun _ _ h => h) true)
      intro _
      exact move_last .aborted stable_anything hnext
    · rw [hprevious]
      apply Triple.bind (unlessIs_at startup (stopService_at stable_anything fun _ _ h => h))
      intro _
      apply Triple.bind (switchPointer_at previous _ stable_anything
        (pointed_previous (fun _ _ h => h) hahead))
      intro _
      apply Triple.bind (probe_at false stable_anything fun h => by cases h)
      intro _
      apply Triple.bind (select_at previous stable_anything (chose_previous hcommitted))
      intro _
      apply move_then .aborted stable_anything hnext
      apply Triple.bind (unlessIs_at startup (startService_at stable_anything fun _ _ h => h))
      intro _
      exact Triple.pure _ fun w hw => hw.1.safe

/-- A record in a phase of the rollback, with the data of its phase. -/
def Rolling (accept : D → W → D) (previous target : R) (phases : List Phase)
    (o : Operation D R P) (w : World D W R P) : Prop :=
  o.phase ∈ phases ∧ At accept previous target o Anything w

theorem rollBackRoots_at (hphase : o.phase.rollback = true) :
    Triple (At accept previous target o Anything) (rollBackRoots accept oracle o)
      (Rolling accept previous target
        [.rollbackRootsComplete, .previousPointerRestored, .previousVerified])
      (Safe accept previous target) := by
  unfold rollBackRoots
  split
  next hstarted =>
    cases hcheckpoint : o.checkpoint with
    | none => exact Triple.raise _ At.safe
    | some contents =>
        have hrestore : Triple (At accept previous target o Anything)
            (restoreRoots accept oracle contents)
            (fun _ => At accept previous target o (RootsAre accept contents))
            (Safe accept previous target) := by
          apply restoreRoots_at contents <;> first | (rw [hstarted]; rfl) | skip
          · exact stable_anything
          · intro w _
            rfl
        apply Triple.bind hrestore
        intro _
        refine (toPhase_at .rollbackRootsComplete (stable_rootsAre contents) stable_anything
          fun w hw hvalid => ⟨?_, trivial⟩).weaken (fun _ hw => hw) (fun o' w hw => ?_) fun _ hw => hw
        · refine hw.1.wrote hvalid rfl rfl rfl (fun h => by cases h) (fun h => by cases h)
            (fun _ => hw.1.selected (by rw [hstarted]; rfl)) (fun h => by cases h)
            (fun h => by cases h) (fun _ => ⟨contents, hcheckpoint, hw.2⟩) ?_ ?_
          · simp [hstarted, Phase.picked]
          · simp [hstarted, Phase.kept]
        · obtain ⟨rfl, hat⟩ := hw
          exact ⟨by simp, hat⟩
  next hnot =>
    refine Triple.pure o fun w hw => ⟨?_, hw⟩
    revert hphase hnot
    cases o.phase <;> decide

theorem rollBackPointer_at (hprevious : o.previous = previous) (hphase : o.phase ∈
      [.rollbackRootsComplete, .previousPointerRestored, .previousVerified]) :
    Triple (At accept previous target o Anything) (rollBackPointer accept oracle o)
      (Rolling accept previous target [.previousPointerRestored, .previousVerified])
      (Safe accept previous target) := by
  unfold rollBackPointer
  split
  next hcomplete =>
    have hswitch : ∀ w : World D W R P, At accept previous target o Anything w →
        At accept previous target o (PointerIs previous) { w with pointer := previous } := by
      intro w hw
      exact ⟨(pointed_previous (fun _ _ h => h) (by rw [hcomplete]; rfl) w hw).1, rfl⟩
    rw [hprevious]
    apply Triple.bind (switchPointer_at previous _ stable_anything hswitch)
    intro _
    refine (toPhase_at .previousPointerRestored (stable_pointerIs previous) stable_anything
      fun w hw hvalid => ⟨?_, trivial⟩).weaken (fun _ hw => hw) (fun o' w hw => ?_) fun _ hw => hw
    · refine hw.1.wrote hvalid rfl rfl rfl (fun h => by cases h) (fun _ => hw.2)
        (fun _ => hw.1.selected (by rw [hcomplete]; rfl)) (fun h => by cases h)
        (fun h => by cases h) (fun _ => hw.1.back (by rw [hcomplete]; rfl)) ?_ ?_
      · simp [hcomplete, Phase.picked]
      · simp [hcomplete, Phase.kept]
    · obtain ⟨rfl, hat⟩ := hw
      exact ⟨by simp, hat⟩
  next hnot =>
    refine Triple.pure o fun w hw => ⟨?_, hw⟩
    simpa [hnot] using hphase

theorem verifyPrevious_at (hphase : o.phase ∈ [.previousPointerRestored, .previousVerified]) :
    Triple (At accept previous target o Anything) (verifyPrevious accept oracle o)
      (Rolling accept previous target [.previousVerified]) (Safe accept previous target) := by
  unfold verifyPrevious
  split
  next hrestored =>
    apply Triple.bind (unlessIs_at _ (probe_at false stable_anything fun h => by cases h))
    intro _
    refine (toPhase_at .previousVerified stable_anything stable_anything
      (follow_at _ (next_moves _ _ _ (by rw [hrestored]; decide)))).weaken (fun _ hw => hw)
        (fun o' w hw => ?_) fun _ hw => hw
    obtain ⟨rfl, hat⟩ := hw
    exact ⟨by simp, hat⟩
  next hnot =>
    refine Triple.pure o fun w hw => ⟨?_, hw⟩
    simpa [hnot] using hphase

/-- What the record says of the releases is there at once. -/
theorem assume_releases {α : Type} {F : World D W R P → Prop} {m : Coord D W R P α}
    {Q : α → World D W R P → Prop} {E : World D W R P → Prop}
    (h : o.previous = previous → o.target = target → o.version = 3 → o.valid = true →
      Triple (At accept previous target o F) m Q E) :
    Triple (At accept previous target o F) m Q E :=
  fun w hw => h hw.1.previous_eq hw.1.target_eq hw.1.version hw.1.valid w hw

theorem startRollback_at (hterminal : o.phase.terminal = false) (hchosen : o.phase.chosen = false) :
    Triple (At accept previous target o Anything) (startRollback accept oracle o)
      (fun o' w => o'.phase.rollback = true ∧ At accept previous target o' Anything w)
      (Safe accept previous target) := by
  unfold startRollback
  split
  next hrollback => exact Triple.pure o fun w hw => ⟨hrollback, hw⟩
  next =>
    refine (toPhase_at .rollbackStarted stable_anything stable_anything (follow_at _
      (next_rollbackStarted o.kind o.phase hterminal hchosen))).weaken (fun _ hw => hw)
        (fun o' w hw => ?_) fun _ hw => hw
    obtain ⟨rfl, hat⟩ := hw
    exact ⟨rfl, hat⟩

/-- A rollback ends with the previous release and its data. -/
theorem rollBack_safe (startup : Bool) (hterminal : o.phase.terminal = false)
    (hchosen : o.phase.chosen = false) :
    Triple (At accept previous target o Anything) (rollBack accept oracle o startup)
      (fun _ => Safe accept previous target) (Safe accept previous target) := by
  unfold rollBack
  apply Triple.bind (unlessIs_at startup (stopService_at stable_anything fun _ _ h => h))
  intro _
  apply Triple.bind (startRollback_at hterminal hchosen)
  intro o₁
  apply Triple.assume
  intro hrollback
  apply Triple.bind (rollBackRoots_at hrollback)
  intro o₂
  apply Triple.assume
  intro hroots
  apply assume_releases
  intro hprevious _ _ _
  apply Triple.bind (rollBackPointer_at hprevious hroots)
  intro o₃
  apply Triple.assume
  intro hpointer
  apply Triple.bind (verifyPrevious_at hpointer)
  intro o₄
  apply Triple.assume
  intro hverified
  rw [List.mem_singleton] at hverified
  apply assume_releases
  intro hprevious' _ _ _
  apply move_then .previousChosen stable_anything (next_moves _ _ _ (by rw [hverified]; decide))
  rw [hprevious']
  apply Triple.bind (select_at previous stable_anything (chose_previous (by simp)))
  intro _
  apply Triple.bind (unlessIs_at _ (startService_at stable_anything fun _ _ h => h))
  intro _
  exact move_last .rolledBack stable_anything
    (next_moves _ .previousChosen .rolledBack (by decide))

/-- A valid record whose checkpoint is ready has its checkpoint. -/
theorem checkpoint_of_valid (hvalid : o.valid = true) (hphase : o.phase = .checkpointReady) :
    o.checkpoint.isSome = true := by
  simp only [Operation.valid, hphase, Bool.and_eq_true] at hvalid
  have hcheckpoint := hvalid.1.1.1.1.2
  cases h : o.checkpoint with
  | none =>
      rw [h] at hcheckpoint
      simp [Phase.early] at hcheckpoint
  | some contents => rfl

theorem recoverOperation_safe (startup : Bool) (hterminal : o.phase.terminal = false) :
    Triple (At accept previous target o Anything) (recoverOperation accept oracle o startup)
      (fun _ => Safe accept previous target) (Safe accept previous target) := by
  apply assume_releases
  intro hprevious htarget hversion hvalid
  unfold recoverOperation
  simp only
  split
  next hchosen =>
    cases hphase : o.phase with
    | candidateChosen => exact recoverChosen_candidate startup hphase htarget
    | previousChosen => exact recoverChosen_previous startup hphase hprevious
    | _ =>
        rw [hphase] at hchosen
        cases hchosen
  next hchosen =>
    split
    · exact Triple.raise _ At.safe
    · split
      next hearly =>
        rw [Bool.and_eq_true] at hearly
        apply abortEarly_safe startup hprevious _ hearly.1
        have hready := checkpoint_of_valid hvalid
        obtain ⟨hearly, hexact⟩ := hearly
        rw [hversion] at hexact
        -- An update whose checkpoint is ready is rolled back.
        cases hphase : o.phase with
        | checkpointReady =>
            rw [hready hphase] at hexact
            cases hkind : o.kind with
            | update => simp [hkind] at hexact
            | restore => rfl
        | preparing | backupReady | enteringMaintenance | quiescent | snapshotting => rfl
        | _ =>
            rw [hphase] at hearly
            cases hearly
      next => exact rollBack_safe startup hterminal (by simpa using hchosen)

theorem stable_safe : Stable accept (Safe accept previous target : World D W R P → Prop) := by
  rintro w c ⟨o, h⟩
  exact ⟨o, h.pass c⟩

/-- The durable record is read back. -/
theorem active_safe :
    Triple (Safe accept previous target) (active accept oracle)
      (fun answer w => Safe accept previous target w ∧ ∀ o ∈ answer,
        o.phase.terminal = false ∧ At accept previous target o Anything w)
      (Safe accept previous target : World D W R P → Prop) := by
  unfold active
  apply Triple.bind (visit_rule stable_safe fun _ h => h)
  intro _ w hw
  refine ⟨hw, fun o ho => ?_⟩
  obtain ⟨o', h⟩ := hw
  obtain ⟨hjournal, hopen⟩ := Option.filter_eq_some_iff.mp ho
  rw [h.journal, Option.some.injEq] at hjournal
  subst hjournal
  exact ⟨by simpa using hopen, h, trivial⟩

/-- The same phase with another diagnostic. -/
theorem writeError_at (o : Operation D R P) (error : Option String) :
    Triple (At accept previous target o Anything) (write accept oracle { o with error := error })
      (fun _ => At accept previous target { o with error := error } Anything)
      (Safe accept previous target) :=
  write_at _ stable_anything fun _ hw hvalid =>
    ⟨hw.1.follow hvalid rfl rfl rfl rfl (fun _ => rfl) (next_self _ _), trivial⟩

theorem recoverFrom_safe (startup : Bool) (hterminal : o.phase.terminal = false) :
    Triple (At accept previous target o Anything) (recoverFrom accept oracle o startup)
      (fun _ => Safe accept previous target) (Safe accept previous target) := by
  unfold recoverFrom
  refine Triple.handle (recoverOperation_safe startup hterminal) (fun cause => ?_) fun _ h => h
  apply Triple.bind active_safe
  intro answer
  cases answer with
  | none => exact Triple.raise _ fun w hw => hw.1
  | some current =>
      refine (Triple.bind (writeError_at current _) fun _ => Triple.raise _ At.safe).weaken
        (fun w hw => (hw.2 current rfl).2) (fun _ _ h => h) fun _ h => h

end Recover

section Deploy

variable {accept : D → W → D} {oracle : Nat → Choice D W P} {previous target : R}
  {o : Operation D R P}

/-- No deployment has begun. -/
structure Idle (w : World D W R P) : Prop where
  journal : w.journal = none
  touched : w.touched = false
  log : w.log = []

omit [DecidableEq R] in
theorem stable_idle : Stable accept (Idle : World D W R P → Prop) := by
  intro w c h
  unfold World.pass
  split
  · exact ⟨h.journal, h.touched, h.log⟩
  · exact ⟨h.journal, h.touched, h.log⟩

/-- A deployment has not begun, or its record holds. -/
def Fine (accept : D → W → D) (previous target : R) (w : World D W R P) : Prop :=
  Idle w ∨ Safe accept previous target w

theorem quiesce_at (hphase : o.phase = .preparing) :
    Triple (At accept previous target o Anything) (quiesce accept oracle o)
      (fun o' w => o' = { o with phase := .quiescent } ∧ At accept previous target o' Anything w)
      (Safe accept previous target) := by
  unfold quiesce
  apply Triple.bind (unlessIs_at _ (visit_at stable_anything))
  intro _
  apply move_then .backupReady stable_anything (next_moves _ _ _ (by rw [hphase]; decide))
  apply Triple.bind (visit_at stable_anything)
  intro _
  apply move_then .enteringMaintenance stable_anything
    (next_moves _ .backupReady .enteringMaintenance (by decide))
  apply Triple.bind (unlessIs_at _ (serving_at stable_anything (fun _ _ h => h) false))
  intro _
  apply Triple.bind (unlessIs_at _ (visit_at stable_anything))
  intro _
  apply move_then .quiescent stable_anything
    (next_moves _ .enteringMaintenance .quiescent (by decide))
  apply Triple.bind (stopService_at stable_anything fun _ _ h => h)
  intro _
  exact Triple.pure _ fun w hw => ⟨rfl, hw⟩

/-- A record with more in it becomes durable before anything is restored. -/
theorem fill_at (o o₁ : Operation D R P) (phase : Phase) (hprevious : o₁.previous = o.previous)
    (htarget : o₁.target = o.target) (hversion : o₁.version = o.version) (hkind : o₁.kind = o.kind)
    (hback : phase.back = false) (hnext : o.phase.Next o.kind phase) :
    Triple (At accept previous target o Anything) (toPhase accept oracle o₁ phase)
      (fun o' w => o' = { o₁ with phase := phase } ∧
        At accept previous target { o₁ with phase := phase } Anything w)
      (Safe accept previous target) := by
  apply toPhase_from o₁ phase stable_anything stable_anything
  intro w hw hvalid
  refine ⟨hw.1.follow hvalid hprevious htarget hversion hkind (fun h => ?_) hnext, trivial⟩
  rw [hback] at h
  cases h

/-- An update has its snapshot, a restore none yet. -/
theorem takeSnapshot_at (hphase : o.phase = .quiescent) :
    Triple (At accept previous target o Anything) (takeSnapshot accept oracle o)
      (fun o' w => (o'.kind = .update ∧ o'.phase = .snapshotReady ∨
        o'.kind = .restore ∧ o'.phase = .quiescent) ∧ At accept previous target o' Anything w)
      (Safe accept previous target) := by
  unfold takeSnapshot
  split
  next hkind =>
    apply move_then .snapshotting stable_anything (next_moves _ _ _ (by rw [hphase]; decide))
    have hsnapshot : Triple (At accept previous target { o with phase := .snapshotting } Anything)
        (snapshot accept oracle)
        (fun _ => At accept previous target { o with phase := .snapshotting } Anything)
        (Safe accept previous target) := by
      unfold snapshot
      apply Triple.bind (visit_at stable_anything)
      intro _ w hw
      exact hw
    apply Triple.bind hsnapshot
    intro contents
    refine (fill_at { o with phase := .snapshotting }
      { o with phase := .snapshotting, checkpoint := some contents } .snapshotReady rfl rfl rfl rfl rfl
      (next_moves _ .snapshotting .snapshotReady (by decide))).weaken (fun _ hw => hw)
        (fun o' w hw => ?_) fun _ hw => hw
    obtain ⟨rfl, hat⟩ := hw
    exact ⟨.inl ⟨hkind, rfl⟩, hat⟩
  next hkind => exact Triple.pure o fun w hw => ⟨.inr ⟨hkind, hphase⟩, hw⟩

/-- The candidate of an update runs beside its snapshot; a restore only reads the roots. -/
theorem prepare_at (hready : o.kind = .update ∧ o.phase = .snapshotReady ∨
      o.kind = .restore ∧ o.phase = .quiescent) :
    Triple (At accept previous target o Anything) (prepare accept oracle o)
      (fun _ => At accept previous target o Anything) (Safe accept previous target) := by
  unfold prepare
  split
  next hkind hcheckpoint =>
    have hphase : o.phase = .snapshotReady := by
      rcases hready with hready | hready
      · exact hready.2
      · rw [hready.1] at hkind
        cases hkind
    have hrun : ∀ (c : Choice D W P) (w : World D W R P), At accept previous target o Anything w →
        At accept previous target o Anything (w.migrated c) := by
      intro c w hw
      exact ⟨hw.1.migrated c (by rw [hphase]; rfl) (by rw [hphase]; rfl), trivial⟩
    apply Triple.bind (act_rule (stable_at stable_anything) At.safe
      (fun c w hw => (hrun c w hw).safe) hrun fun _ => At.safe)
    intro c
    exact Triple.pure _ fun w hw => hw
  next =>
    apply Triple.bind (act_rule (stable_at stable_anything) At.safe (fun _ w hw => hw.1.safe)
      (fun _ _ hw => hw) fun _ => At.safe)
    intro c
    exact fun w hw => hw

/-- The candidate's data is put in place. -/
theorem activateRoots_at (hphase : o.phase = .activating) :
    Triple (At accept previous target o Anything) (activateRoots accept oracle o)
      (fun _ => At accept previous target o Anything) (Safe accept previous target) := by
  unfold activateRoots
  split
  · exact restoreRoots_at _ (by rw [hphase]; rfl) (by rw [hphase]; rfl) (by rw [hphase]; rfl)
      (by rw [hphase]; rfl) stable_anything fun _ _ => trivial
  · exact Triple.pure () fun _ hw => hw

theorem move_bind {α : Type} {Q : α → World D W R P → Prop} {F : World D W R P → Prop}
    (phase : Phase) (hF : Stable accept F) (hnext : o.phase.Next o.kind phase)
    {f : Operation D R P → Coord D W R P α}
    (hf : ∀ o' : Operation D R P, o'.phase = phase →
      Triple (At accept previous target o' Anything) (f o') Q (Safe accept previous target)) :
    Triple (At accept previous target o F) (toPhase accept oracle o phase >>= f) Q
      (Safe accept previous target) :=
  move_then phase hF hnext (hf _ rfl)

theorem point_target (htarget : o.target = target) (hphase : o.phase = .activating)
    (w : World D W R P) (hw : At accept previous target o Anything w) :
    At accept previous target o (PointerIs target) { w with pointer := o.target } := by
  refine ⟨hw.1.pointed o.target (.inr htarget) (fun _ => htarget) fun h => ?_, htarget⟩
  rw [hphase] at h
  cases h

theorem pointerSwitched_at (hphase : o.phase = .activating) :
    Triple (At accept previous target o (PointerIs target))
      (toPhase accept oracle o .pointerSwitched)
      (fun o' w => o'.phase = .pointerSwitched ∧ At accept previous target o' Anything w)
      (Safe accept previous target) := by
  refine (toPhase_at .pointerSwitched (stable_pointerIs target) stable_anything
    fun w hw hvalid => ⟨?_, trivial⟩).weaken (fun _ hw => hw) (fun o' w hw => ?_) fun _ hw => hw
  · refine hw.1.wrote hvalid rfl rfl rfl (fun _ => hw.2) (fun h => by cases h)
      (fun _ => hw.1.selected (by rw [hphase]; rfl)) (fun h => by cases h) (fun h => by cases h)
      (fun h => by cases h) ?_ ?_
    · simp [hphase, Phase.picked]
    · simp [hphase, Phase.kept]
  · obtain ⟨rfl, hat⟩ := hw
    exact ⟨rfl, hat⟩

theorem choose_target (htarget : o.target = target) (hphase : o.phase = .candidateChosen)
    (w : World D W R P) (hw : At accept previous target o Anything w) :
    At accept previous target o (SelectedIs target) { w with selected := o.target } := by
  refine ⟨hw.1.chose o.target (fun h => ?_) fun _ => htarget, htarget⟩
  rw [hphase] at h
  cases h

theorem activate_safe (hphase : o.phase = .preparing) :
    Triple (At accept previous target o Anything) (activate accept oracle o)
      (fun _ => Safe accept previous target) (Safe accept previous target) := by
  unfold activate
  apply Triple.bind (quiesce_at hphase)
  intro o₁
  apply Triple.assume
  rintro rfl
  apply Triple.bind (takeSnapshot_at rfl)
  intro o₂
  apply Triple.assume
  intro hready
  apply Triple.bind (prepare_at hready)
  intro answer
  have hnext : o₂.phase.Next o₂.kind .checkpointReady := by
    rcases hready with ⟨hkind, hphase⟩ | ⟨hkind, hphase⟩
    · rw [hkind, hphase]
      decide
    · rw [hkind, hphase]
      decide
  apply Triple.bind (fill_at o₂ (prepared o₂ answer) .checkpointReady rfl rfl rfl rfl rfl hnext)
  intro o₃
  apply Triple.assume
  intro hready
  rw [← hready]
  have hphase₃ : o₃.phase = .checkpointReady := by rw [hready]
  apply move_bind .activating stable_anything (next_moves _ _ _ (by rw [hphase₃]; decide))
  intro o₄ hphase₄
  apply Triple.bind (activateRoots_at hphase₄)
  intro _
  apply assume_releases
  intro _ htarget _ _
  apply Triple.bind (switchPointer_at o₄.target _ stable_anything (point_target htarget hphase₄))
  intro _
  apply Triple.bind (pointerSwitched_at hphase₄)
  intro o₅
  apply Triple.assume
  intro hphase₅
  apply Triple.bind (probe_at true stable_anything fun _ => ?_)
  · intro _
    apply move_bind .candidateVerified stable_anything (next_moves _ _ _ (by rw [hphase₅]; decide))
    intro o₆ hphase₆
    apply move_bind .candidateChosen stable_anything (next_moves _ _ _ (by rw [hphase₆]; decide))
    intro o₇ hphase₇
    apply assume_releases
    intro _ htarget₇ _ _
    apply Triple.bind (select_at o₇.target stable_anything (choose_target htarget₇ hphase₇))
    intro _
    apply Triple.bind (startService_at (stable_selectedIs target) fun _ _ h => h)
    intro _
    exact commit_last hphase₇
  · rw [hphase₅]
    exact ⟨fun _ _ h => h, rfl, rfl⟩

/-- A failed deployment is recovered from its durable record. -/
theorem settleFailure_safe (error : Option String) (cause : String)
    (hterminal : o.phase.terminal = false) :
    Triple (At accept previous target o Anything)
      (settleFailure accept oracle { o with error := error } cause)
      (fun _ => Safe accept previous target) (Safe accept previous target) := by
  unfold settleFailure
  apply Triple.bind (writeError_at o error)
  intro _
  split
  · exact Triple.raise _ At.safe
  · apply Triple.bind (recoverFrom_safe (o := { o with error := error }) false hterminal)
    intro _
    exact Triple.raise _ fun _ h => h

theorem deployFailed_safe (cause : String) :
    Triple (Safe accept previous target) (deployFailed accept oracle cause)
      (fun _ => Safe accept previous target)
      (Safe accept previous target : World D W R P → Prop) := by
  unfold deployFailed
  apply Triple.bind active_safe
  intro answer
  cases answer with
  | none => exact Triple.raise _ fun w hw => hw.1
  | some current =>
      intro w hw
      obtain ⟨hterminal, hat⟩ := hw.2 current rfl
      exact settleFailure_safe _ cause hterminal w hat

theorem stable_fine : Stable accept (Fine accept previous target : World D W R P → Prop) := by
  rintro w c (h | h)
  · exact .inl (stable_idle w c h)
  · exact .inr (stable_safe w c h)

theorem fine_serving (w : World D W R P) (serving : Bool) (h : Fine accept previous target w) :
    Fine accept previous target { w with serving := serving } := by
  rcases h with h | ⟨o, h⟩
  · exact .inl ⟨h.journal, h.touched, h.log⟩
  · exact .inr ⟨o, h.serving serving⟩

/-- The durable record is read back, if there is one. -/
theorem active_fine :
    Triple (Fine accept previous target) (active accept oracle)
      (fun answer w => Fine accept previous target w ∧ ∀ o ∈ answer,
        o.phase.terminal = false ∧ At accept previous target o Anything w)
      (Fine accept previous target : World D W R P → Prop) := by
  unfold active
  apply Triple.bind (visit_rule stable_fine fun _ h => h)
  intro _ w hw
  refine ⟨hw, fun o ho => ?_⟩
  obtain ⟨hjournal, hopen⟩ := Option.filter_eq_some_iff.mp ho
  rcases hw with h | ⟨o', h⟩
  · rw [h.journal] at hjournal
    cases hjournal
  · rw [h.journal, Option.some.injEq] at hjournal
    subst hjournal
    exact ⟨by simpa using hopen, h, trivial⟩

/-- A recovery keeps what is durable. -/
theorem recover_fine (startup : Bool) :
    Triple (Fine accept previous target) (recover accept oracle startup)
      (fun _ => Fine accept previous target)
      (Fine accept previous target : World D W R P → Prop) := by
  have hwait : Triple (Fine accept previous target)
      (unlessIs (!startup) (step accept oracle fun w => { w with serving := false }))
      (fun _ => Fine accept previous target)
      (Fine accept previous target : World D W R P → Prop) := by
    unfold unlessIs
    split
    · exact Triple.pure () fun _ h => h
    · exact step_rule stable_fine (fun _ h => h) (fun w h => fine_serving w false h) fun _ h => h
  unfold recover
  apply Triple.bind hwait
  intro _
  apply Triple.bind (visit_rule stable_fine fun _ h => h)
  intro _
  apply Triple.bind active_fine
  intro answer
  cases answer with
  | none => exact Triple.pure none fun _ h => h.1
  | some current =>
      intro w hw
      obtain ⟨hterminal, hat⟩ := hw.2 current rfl
      have hrecover : Triple (At accept previous target current Anything)
          (visit accept oracle >>= fun _ => recoverFrom accept oracle current startup >>= fun o =>
            pure (some o))
          (fun _ => Safe accept previous target) (Safe accept previous target) := by
        apply Triple.bind (visit_at stable_anything)
        intro _
        apply Triple.bind (recoverFrom_safe startup hterminal)
        intro o
        exact Triple.pure _ fun _ h => h
      exact (hrecover.weaken (fun _ h => h) (fun _ _ h => .inr h) fun _ h => .inr h) w hat

/-- The first record of a deployment. -/
theorem Idle.began {w : World D W R P} (h : Idle w) (kind : Kind) (previousUninitialized : Bool)
    (hpointer : w.pointer = previous) (hselected : w.selected = previous)
    (hvalid : (newOperation previous target kind previousUninitialized : Operation D R P).valid =
      true) :
    Inv accept previous target (newOperation previous target kind previousUninitialized)
      (w.wrote (newOperation previous target kind previousUninitialized)) where
  journal := rfl
  valid := hvalid
  previous_eq := rfl
  target_eq := rfl
  version := rfl
  pointer := .inl hpointer
  ahead := fun h => by cases h
  behind := fun _ => hpointer
  selected := fun _ => hselected
  committed := fun h => by cases h
  clean := fun _ => h.touched
  back := fun h => by cases h
  ordered := by simp [World.wrote, h.log]
  picked := by simp [World.wrote, h.log, newOperation, Phase.picked]
  kept := by simp [World.wrote, h.log, newOperation]

theorem began_at (kind : Kind) (previousUninitialized : Bool) :
    Triple (fun w => Idle w ∧ PointerIs previous w ∧ SelectedIs previous w)
      (write accept oracle (newOperation previous target kind previousUninitialized))
      (fun _ => At accept previous target (newOperation previous target kind previousUninitialized)
        Anything)
      (Fine accept previous target : World D W R P → Prop) := by
  have hstable : Stable accept
      (fun w : World D W R P => Idle w ∧ PointerIs previous w ∧ SelectedIs previous w) :=
    fun w c h => ⟨stable_idle w c h.1, stable_pointerIs previous w c h.2.1,
      stable_selectedIs previous w c h.2.2⟩
  unfold write
  split
  next hvalid =>
    exact step_rule hstable (fun _ h => .inl h.1)
      (fun w h => ⟨h.1.began kind previousUninitialized h.2.1 h.2.2 hvalid, trivial⟩)
      fun w h => .inr h.1.safe
  next => exact Triple.raise _ fun _ h => .inl h.1

theorem deploy_fine (kind : Kind) (previousUninitialized : Bool) :
    Triple Idle (deploy accept oracle previous target kind previousUninitialized)
      (fun _ => Fine accept previous target)
      (Fine accept previous target : World D W R P → Prop) := by
  have hidle : ∀ w : World D W R P, Idle w → Fine accept previous target w := fun _ h => .inl h
  have hactive : Triple Idle (active accept oracle) (fun _ => Idle)
      (Fine accept previous target : World D W R P → Prop) := by
    unfold active
    apply Triple.bind (visit_rule stable_idle hidle)
    intro _ w hw
    exact hw
  have hselected : Triple Idle (selectedRelease accept oracle)
      (fun release w => Idle w ∧ PointerIs release w ∧ SelectedIs release w)
      (Fine accept previous target : World D W R P → Prop) := by
    unfold selectedRelease
    apply Triple.bind (visit_rule stable_idle hidle)
    intro _
    apply Triple.bind (Triple.get (Q := fun now w => now = w ∧ Idle w) fun _ h => ⟨rfl, h⟩)
    intro now
    split
    next hagree =>
      refine Triple.pure _ fun w hw => ?_
      obtain ⟨rfl, hw⟩ := hw
      exact ⟨hw, hagree, rfl⟩
    next => exact Triple.raise _ fun w hw => hidle w hw.2
  unfold deploy
  apply Triple.bind (visit_rule stable_idle hidle)
  intro _
  apply Triple.bind hactive
  intro unfinished
  split
  · exact Triple.raise _ hidle
  · apply Triple.bind hselected
    intro selected
    split
    · exact Triple.raise _ fun w hw => hidle w hw.1
    next hsame =>
      rw [not_not] at hsame
      subst hsame
      apply Triple.bind (began_at kind previousUninitialized)
      intro _
      refine (Triple.bind (visit_at stable_anything) fun _ => ?_).weaken (fun _ h => h)
        (fun _ _ h => .inr h) fun _ h => .inr h
      exact Triple.handle (activate_safe rfl) deployFailed_safe fun _ h => h

/-- What the journal promises of a deployment and its recoveries. -/
structure Sound (accept : D → W → D) (previous target : R) (w : World D W R P) : Prop where
  /-- No restore after a choice. -/
  ordered : w.log.Pairwise Event.Before
  committed : ∀ o, w.journal = some o → o.phase = .committed →
    w.pointer = target ∧ w.selected = target
  previous : ∀ o, w.journal = some o → o.phase = .rolledBack ∨ o.phase = .aborted →
    w.pointer = previous ∧ w.selected = previous ∧
      (w.touched = true → ∃ c, o.checkpoint = some c ∧ w.roots = w.kept.foldl accept c)
  outcome : ∀ o, w.journal = some o → o.phase.terminal = true →
    (o.phase = .committed ↔ Event.wrote .candidateChosen ∈ w.log)

theorem Fine.sound {w : World D W R P} (h : Fine accept previous target w) :
    Sound accept previous target w := by
  rcases h with h | ⟨r, h⟩
  · have hnone : ∀ o, w.journal ≠ some o := by
      intro o ho
      rw [h.journal] at ho
      cases ho
    refine ⟨?_, fun o ho => absurd ho (hnone o), fun o ho => absurd ho (hnone o),
      fun o ho => absurd ho (hnone o)⟩
    rw [h.log]
    exact List.Pairwise.nil
  · have hread : ∀ o, w.journal = some o → o = r := by
      intro o ho
      rw [h.journal, Option.some.injEq] at ho
      exact ho.symm
    refine ⟨h.ordered, fun o ho hphase => ?_, fun o ho hphase => ?_, fun o ho hterminal => ?_⟩
    · rw [hread o ho] at hphase
      exact ⟨h.ahead (by rw [hphase]; rfl), h.committed hphase⟩
    · rw [hread o ho] at hphase ⊢
      rcases hphase with hphase | hphase
      · exact ⟨h.behind (by rw [hphase]; rfl), h.selected (by rw [hphase]; rfl),
          fun _ => h.back (by rw [hphase]; rfl)⟩
      · refine ⟨h.behind (by rw [hphase]; rfl), h.selected (by rw [hphase]; rfl), fun htouched => ?_⟩
        rw [h.clean (by rw [hphase]; rfl)] at htouched
        cases htouched
    · rw [hread o ho] at hterminal ⊢
      rw [h.picked]
      revert hterminal
      cases r.phase <;> decide

end Deploy

/-- No deployment, however it is cut and recovered, replays old data over accepted work. -/
theorem sound_runs (accept : D → W → D) (oracle : Nat → Choice D W P) (previous target : R)
    (kind : Kind) (previousUninitialized : Bool) (startups : List Bool) (w : World D W R P)
    (h : Idle w) :
    Sound accept previous target
      (runs accept oracle previous target kind previousUninitialized startups w) := by
  have hdeploy : Fine accept previous target
      (deploy accept oracle previous target kind previousUninitialized w).2 :=
    (deploy_fine kind previousUninitialized).final (fun _ _ hw => hw) w h
  have hruns : ∀ u, Fine accept previous target u → Fine accept previous target
      (startups.foldl (fun u startup => (recover accept oracle startup u).2) u) := by
    induction startups with
    | nil => exact fun u hu => hu
    | cons startup startups ih =>
        intro u hu
        exact ih _ ((recover_fine startup).final (fun _ _ hw => hw) u hu)
  exact (hruns _ hdeploy).sound

/-- An environment that crashes the coordinator at one moment and otherwise lets it go on. -/
def crashAt (moment : Nat) (clock : Nat) : Choice Nat Nat Nat where
  point := if clock = moment then .midway else .never
  crash := true
  message := ""
  work := [1]
  left := 0
  candidate := 7
  proof := 0

/-- A service of release 1 with data 5. -/
def serving : World Nat Nat Nat Nat where
  journal := none
  pointer := 1
  selected := 1
  roots := 5
  serving := true
  clock := 0
  touched := false
  kept := []
  log := []

theorem sound_runs_crash :
    ((runs (· + ·) (crashAt 29) 1 2 .update false [true] serving).journal.map (·.phase) =
      some .rolledBack ∧
    (runs (· + ·) (crashAt 29) 1 2 .update false [true] serving).touched = true) ∧
    Sound (· + ·) 1 2 (runs (· + ·) (crashAt 29) 1 2 .update false [true] serving) :=
  ⟨by decide +kernel, sound_runs _ _ 1 2 .update false [true] serving ⟨rfl, rfl, rfl⟩⟩

end RcpGraph.Deploy
