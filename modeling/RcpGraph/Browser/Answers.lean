import RcpGraph.Browser.Quiet

/-!
The operations that bring values and versions: epochs and watermarks, accepted reads,
commands and writes. Each keeps what holds of the world.
-/

namespace RcpGraph.Browser

universe u

variable {V : Type u} {catalog : Catalog V} {server : Server catalog} {w : World V}
  {s s' : Store V}

/-- Another store under the same stamps. -/
def World.withStore (w : World V) (s : Store V) : World V := { w with store := s }

/-- The stamps of a world may be renewed. -/
theorem World.Inv.renew (h : w.Inv server) : (w.put w.store).Inv server := h.quiet (Quiet.refl _)

section OneState

variable {key : ResourceKey} {st st' : ResourceState V}

theorem get?_setState (s : Store V) (key key' : ResourceKey) (st : ResourceState V) :
    (s.setState key st).states.get? key' = if key' = key then some st else s.states.get? key' :=
  Dict.get?_insert s.states key key' st

theorem setState_ages (hst : s.states.get? key = some st) (hold : Older st st') :
    Ages s (s.setState key st') where
  nextUid := Nat.le_refl _
  reads := Nat.le_refl _
  mutations := Nat.le_refl _
  observationSerial := Nat.le_refl _
  presentationSerial := Nat.le_refl _
  states key' st'' hst'' := by
    rw [get?_setState] at hst''
    split at hst''
    · rename_i heq
      cases hst''
      exact .inl ⟨st, by rw [heq]; exact hst, hold⟩
    · exact .inl ⟨st'', hst'', Older.refl st''⟩
  reading _ h := .inl h
  commands _ h := .inl h

/-- A state is written: what it has must fit, and what grows must grow. -/
theorem World.Inv.setState (h : w.Inv server) (hst : w.store.states.get? key = some st)
    (hold : Older st st') (hok : StateOk server w key st')
    (hwaiters : ∀ waiter ∈ st'.waiters,
      waiter ∈ st.waiters ∨ st.invalidations < waiter.invalidation)
    (hcommit : st'.acceptedReads = st.acceptedReads →
      st'.committed = st.committed ∧ st'.acceptedReadStart = st.acceptedReadStart)
    (hmoment : st'.asOf = st.asOf ∨ ∀ read ∈ w.store.reading, read.key = key →
      read.uid = st.uid → read.sequence ≠ st'.sequence) :
    (w.withStore (w.store.setState key st')).Inv server := by
  have hcases : ∀ key' st'', (w.store.setState key st').states.get? key' = some st'' →
      (key' = key ∧ st'' = st') ∨ w.store.states.get? key' = some st'' := by
    intro key' st'' hst''
    rw [get?_setState] at hst''
    split at hst''
    · rename_i heq
      cases hst''
      exact .inl ⟨heq, rfl⟩
    · exact .inr hst''
  refine ⟨?_, ?_, ?_, ?_, h.tickets, ?_⟩
  · intro key' st'' hst''
    rcases hcases key' st'' hst'' with ⟨rfl, rfl⟩ | hst'
    · exact ⟨hok.uid, hok.reads, hok.observed, hok.committed, hok.asOf, hok.fresh, hok.waiters⟩
    · have hok' := h.states key' st'' hst'
      exact ⟨hok'.uid, hok'.reads, hok'.observed, hok'.committed, hok'.asOf, hok'.fresh,
        hok'.waiters⟩
  · intro read hread
    have hread' := h.reads read hread
    refine ⟨hread'.started, hread'.time, hread'.begun, hread'.uid, ?_, ?_⟩
    · intro st'' hst'' huid
      rcases hcases read.key st'' hst'' with ⟨hkey, rfl⟩ | hst'
      · obtain ⟨hg, hi, hversion, hw⟩ :=
          hread'.state st (by rw [hkey]; exact hst) (hold.uid.symm.trans huid)
        refine ⟨Nat.le_trans hg hold.generation, Nat.le_trans hi hold.invalidations, ?_, ?_⟩
        · intro hgen
          have := hold.generation
          exact hversion (by omega)
        · intro waiter hwaiter hle
          rcases hwaiters waiter hwaiter with hmem | hlt
          · exact hw waiter hmem hle
          · omega
      · exact hread'.state st'' hst' huid
    · intro st'' hst'' huid hsequence t ht
      rcases hcases read.key st'' hst'' with ⟨hkey, rfl⟩ | hst'
      · have hst' : w.store.states.get? read.key = some st := by
          rw [hkey]
          exact hst
        have huid' := hold.uid.symm.trans huid
        rcases hmoment with hsame | hnone
        · -- a read that still counts has started from the same value
          have hle := h.sorted.sequence read hread st hst' huid'
          have hle' := hold.sequence
          exact hread'.since st hst' huid' (by omega) t (hsame.symm.trans ht)
        · exact absurd hsequence.symm (hnone read hread hkey huid'.symm)
      · exact hread'.since st'' hst' huid hsequence t ht
  · intro command hcommand
    have hcommand' := h.commands command hcommand
    refine ⟨hcommand'.order, hcommand'.time, ?_⟩
    intro key' start hstart
    obtain ⟨huid, hstates⟩ := hcommand'.states key' start hstart
    refine ⟨huid, ?_⟩
    intro st'' hst'' huid'
    rcases hcases key' st'' hst'' with ⟨hkey, rfl⟩ | hst'
    · obtain ⟨hg, hr, hseen⟩ := hstates st (by rw [hkey]; exact hst) (hold.uid.symm.trans huid')
      refine ⟨Nat.le_trans hg hold.generation, Nat.le_trans hr hold.acceptedReads, ?_⟩
      intro hgen hreads
      have hgen' := hold.generation
      have hreads' := hold.acceptedReads
      obtain ⟨hc, ha⟩ := hcommit (by omega)
      rw [hc, ha]
      exact hseen (by omega) (by omega)
    · exact hstates st'' hst' huid'
  · intro owner entry hentry
    have hentry' := h.entries owner entry hentry
    exact ⟨hentry'.serial, hentry'.time, hentry'.tickets, hentry'.proofs⟩
  · refine ⟨h.sorted.order, h.sorted.started, ?_⟩
    intro read hread st'' hst'' huid
    rcases hcases read.key st'' hst'' with ⟨hkey, rfl⟩ | hst'
    · exact Nat.le_trans (h.sorted.sequence read hread st (by rw [hkey]; exact hst)
        (hold.uid.symm.trans huid)) hold.sequence
    · exact h.sorted.sequence read hread st'' hst' huid

end OneState

section Reads

/-- Two elements of an ordered list are one, or ordered. -/
theorem pairwise_cases {α : Type} {R : α → α → Prop} {xs : List α} (h : xs.Pairwise R) {a b : α}
    (ha : a ∈ xs) (hb : b ∈ xs) : a = b ∨ R a b ∨ R b a := by
  induction xs with
  | nil => cases ha
  | cons x xs ih =>
      rw [List.pairwise_cons] at h
      rcases List.mem_cons.mp ha with rfl | ha'
      · rcases List.mem_cons.mp hb with rfl | hb'
        · exact .inl rfl
        · exact .inr (.inl (h.1 b hb'))
      · rcases List.mem_cons.mp hb with rfl | hb'
        · exact .inr (.inr (h.1 a ha'))
        · exact ih h.2 ha' hb'

theorem accepts_iff (s : Store V) (read : Read) :
    s.accepts read = true ↔ ∃ st, s.states.get? read.key = some st ∧ st.uid = read.uid ∧
      st.generation = read.generation ∧ st.sequence = read.sequence := by
  unfold Store.accepts
  cases s.states.get? read.key with
  | none => simp
  | some st => simp [and_assoc]

/-- The store without a read that has ended. -/
def Store.without (s : Store V) (read : Read) : Store V :=
  { s with reading := s.reading.filter fun r => r.readStart ≠ read.readStart }

theorem World.Inv.without (h : w.Inv server) (read : Read) :
    (w.put (w.store.without read)).Inv server := h.quiet (quiet_reading _ _)

theorem Store.Sorted.sequence_ne (hs : s.Sorted) {read read' : Read} (hread : read ∈ s.reading)
    (hread' : read' ∈ s.reading) (hne : read'.readStart ≠ read.readStart)
    (hkey : read'.key = read.key) (huid : read'.uid = read.uid) :
    read'.sequence ≠ read.sequence := by
  rcases pairwise_cases hs.order hread' hread with rfl | hlt | hlt
  · exact absurd rfl hne
  · exact Nat.ne_of_lt (hlt.2 hkey huid)
  · exact Nat.ne_of_gt (hlt.2 hkey.symm huid.symm)

/-- The moment of a value that a read has brought, where there is one. -/
theorem readState_asOf {epoch : Option String} {read : Read} {value : V} {time t : Nat}
    {st : ResourceState V}
    (h : (Store.readState catalog epoch read value time st).asOf = some t) :
    t = time ∧ (st.merges catalog read.key epoch = true → ∃ t₀, st.asOf = some t₀) := by
  have h' : (if st.merges catalog read.key epoch then st.asOf.map fun _ => time
    else some time) = some t := h
  split at h'
  · obtain ⟨t₀, ht₀, heq⟩ := Option.map_eq_some_iff.mp h'
    exact ⟨heq.symm, fun _ => ⟨t₀, ht₀⟩⟩
  · rename_i hnot
    exact ⟨(Option.some_inj.mp h').symm, fun hmerges => absurd hmerges hnot⟩

/-- A read that is accepted brings what the server had after its version, and after the
value that is there. -/
theorem World.Inv.readState (h : w.Inv server) {read : Read} {st : ResourceState V}
    (hread : read ∈ w.store.reading) (hst : w.store.states.get? read.key = some st)
    (huid : st.uid = read.uid) (hgen : st.generation = read.generation)
    (hsequence : st.sequence = read.sequence) {time : Nat}
    (hstart : w.startedAt read.readStart ≤ time) (htime : time ≤ w.clock) :
    ((w.put (w.store.without read)).withStore ((w.store.without read).setState read.key
      (Store.readState catalog w.store.epoch read (server.value time read.key) time st))).Inv
      server := by
  have hok := (h.without read).states read.key st hst
  have hread' := h.reads read hread
  obtain ⟨-, -, hversion, -⟩ := hread'.state st hst huid
  have hseen := hversion hgen
  have hsince := hread'.since st hst huid hsequence
  have hsub : ∀ waiter ∈ (st.afterRefreshes read.invalidation).waiters, waiter ∈ st.waiters :=
    fun waiter hw => List.mem_of_mem_filter hw
  apply (h.without read).setState hst
  · exact ⟨rfl, Nat.le_refl _, Nat.le_refl _, Nat.le_refl _, Nat.le_succ _, Nat.le_refl _⟩
  · refine ⟨hok.uid, hread'.started, hok.observed, ?_, ?_, ?_, ?_⟩
    · intro version hv
      obtain ⟨t, ht, hs⟩ := hseen version hv
      exact ⟨t, Nat.le_trans ht hread'.time, hs⟩
    · intro t ht
      obtain ⟨rfl, hprevious⟩ := readState_asOf ht
      refine ⟨htime, ?_⟩
      intro hlaw
      refine congrArg some (hlaw.accepted_eq ?_)
      intro hmerges
      obtain ⟨t₀, ht₀⟩ := hprevious hmerges
      exact ⟨t₀, Nat.le_trans (hsince t₀ ht₀) hstart, (hok.asOf t₀ ht₀).2 hlaw⟩
    · intro t ht _
      obtain ⟨rfl, -⟩ := readState_asOf ht
      refine ⟨?_, ?_⟩
      · intro version hv
        obtain ⟨t', ht', hs⟩ := hseen version hv
        exact ⟨t', Nat.le_trans ht' hstart, hs⟩
      · exact (quiet_reading w.store _).begunBy h (hread'.begun.mono hstart)
    · exact fun waiter hw => hok.waiters waiter (hsub waiter hw)
  · exact fun waiter hw => .inl (hsub waiter hw)
  · intro hreads
    exact absurd hreads (Nat.succ_ne_self _)
  · right
    intro read' hread₁ hkey huid'
    obtain ⟨hmem, hne⟩ := List.mem_filter.mp hread₁
    have hother := h.sorted.sequence_ne hread hmem (of_decide_eq_true hne) hkey
      (huid'.trans huid)
    exact fun heq => hother (heq.trans hsequence)

/-- A failure brings nothing. -/
theorem keeps_failed (read : Read) (error : Option String) (now : Nat) (st : ResourceState V) :
    Keeps st (Store.failedState read error now st) :=
  ⟨⟨rfl, Nat.le_refl _, Nat.le_refl _, Nat.le_refl _, Nat.le_refl _, Nat.le_refl _⟩, rfl, rfl, id,
    rfl, rfl, rfl, rfl, fun _ hw => List.mem_of_mem_filter hw⟩

/-- Promises settle and are counted aside. -/
theorem World.Inv.promises (h : w.Inv server) (settled : List (RefreshCall × Settlement))
    (refreshes : Nat) : (w.withStore { w.store with settled, refreshes }).Inv server where
  states key st hst := by
    have hok := h.states key st hst
    exact ⟨hok.uid, hok.reads, hok.observed, hok.committed, hok.asOf, hok.fresh, hok.waiters⟩
  reads read hread := by
    have hok := h.reads read hread
    exact ⟨hok.started, hok.time, hok.begun, hok.uid, hok.state, hok.since⟩
  commands command hcommand := by
    have hok := h.commands command hcommand
    exact ⟨hok.order, hok.time, hok.states⟩
  entries owner entry hentry := by
    have hok := h.entries owner entry hentry
    exact ⟨hok.serial, hok.time, hok.tickets, hok.proofs⟩
  tickets := h.tickets
  sorted := ⟨h.sorted.order, h.sorted.started, h.sorted.sequence⟩

theorem ages_promises (s : Store V) (settled : List (RefreshCall × Settlement))
    (refreshes : Nat) : Ages s { s with settled, refreshes } :=
  { Ages.refl s with }

end Reads

section Commands

variable {key : ResourceKey} {st : ResourceState V}

/-- A value that the server had at its moment, after a start, if it has one. -/
def FitsSince (server : Server catalog) (w : World V) (start : Nat) (key : ResourceKey)
    (supply : Store.Supplied V) : Prop :=
  ∀ t, supply.asOf = some t → start ≤ t ∧ t ≤ w.clock ∧ supply.value = server.value t key

/-- The server had the value of a response in the time of the command, or never. -/
def FitsCommand (server : Server catalog) (w : World V) (command : Command) (key : ResourceKey)
    (supply : Store.Supplied V) : Prop :=
  FitsSince server w (w.commandAt command.order) key supply

/-- A value that is accepted is the server's of its moment, if it still has one. -/
theorem StateOk.supplied (hok : StateOk server w key st) {supply : Store.Supplied V}
    {start : Nat} (hfits : FitsSince server w start key supply) {epoch : Option String} {t : Nat}
    (ht : st.moment catalog key epoch supply.asOf = some t) :
    start ≤ t ∧ t ≤ w.clock ∧ (server.Reconciles key →
      some (st.accepted catalog key epoch supply.value) = some (server.value t key)) := by
  obtain ⟨hasOf, hprevious⟩ := ResourceState.moment_eq_some ht
  obtain ⟨hstart, hclock, hvalue⟩ := hfits t hasOf
  refine ⟨hstart, hclock, ?_⟩
  intro hlaw
  rw [hvalue]
  refine congrArg some (hlaw.accepted_eq ?_)
  intro hmerges
  obtain ⟨t₀, ht₀, hst⟩ := hprevious hmerges
  exact ⟨t₀, ht₀, (hok.asOf t₀ hst).2 hlaw⟩

theorem settleState_older (epoch : Option String) (order : Nat) (key : ResourceKey)
    (start : CommandStart) (supplied : Option (Store.Supplied V)) (st : ResourceState V) :
    Older st (Store.settleState catalog epoch order key start supplied st) := by
  have hmax : st.settledMutation ≤
      if st.settledMutation < order then order else st.settledMutation := by
    split <;> omega
  unfold Store.settleState
  dsimp only
  split
  · exact ⟨rfl, Nat.le_refl _, Nat.le_succ _, Nat.le_refl _, Nat.le_refl _, hmax⟩
  · exact ⟨rfl, Nat.le_refl _, Nat.le_succ _, Nat.le_refl _, Nat.le_refl _, hmax⟩

theorem settleState_sequence (epoch : Option String) (order : Nat) (key : ResourceKey)
    (start : CommandStart) (supplied : Option (Store.Supplied V)) (st : ResourceState V) :
    (Store.settleState catalog epoch order key start supplied st).sequence =
      st.sequence + 1 := by
  unfold Store.settleState
  dsimp only
  split
  · rfl
  · rfl

/-- A command that succeeds replaces what it found, or makes the state owe a read. -/
theorem World.Inv.settleState (h : w.Inv server) {command : Command} {start : CommandStart}
    (hcommand : command ∈ w.store.commands) (hst : w.store.states.get? key = some st)
    (hstart : command.startedAt.get? key = some start) (huid : start.uid = st.uid)
    {supplied : Option (Store.Supplied V)}
    (hfits : ∀ supply, supplied = some supply → FitsCommand server w command key supply) :
    (w.withStore (w.store.setState key (Store.settleState catalog w.store.epoch command.order key
      start supplied (st.withoutPending command.operationId)))).Inv server := by
  have hok := h.states key st hst
  have hcommand' := h.commands command hcommand
  obtain ⟨-, hstates⟩ := hcommand'.states key start hstart
  obtain ⟨-, -, hcurrent⟩ := hstates st hst huid.symm
  have hclear : Keeps st (st.withoutPending command.operationId) :=
    keeps_aside st _ _ _ _ _ _ _ _
  apply h.setState hst (hclear.toOlder.trans (settleState_older _ _ _ _ _ _))
  · unfold Store.settleState
    dsimp only
    split
    · rename_i supply hsupply
      split at hsupply
      · rename_i hnow
        simp only [Bool.and_eq_true, decide_eq_true_eq] at hnow
        obtain ⟨⟨-, hgen⟩, hreads⟩ := hnow
        obtain ⟨hseen, hbegun⟩ := hcurrent hgen hreads
        refine ⟨hok.uid, hok.reads, hok.observed, hok.committed, ?_, ?_, hok.waiters⟩
        · intro t ht
          obtain ⟨-, hclock, hvalue⟩ := hok.supplied (hfits supply hsupply) ht
          exact ⟨hclock, hvalue⟩
        · intro t ht _
          obtain ⟨hstart', -, -⟩ := hok.supplied (hfits supply hsupply) ht
          refine ⟨?_, hbegun.mono hstart'⟩
          intro version hversion
          obtain ⟨t', ht', hs⟩ := hseen version hversion
          exact ⟨t', Nat.le_trans ht' hstart', hs⟩
      · cases hsupply
    · refine ⟨hok.uid, hok.reads, hok.observed, hok.committed, hok.asOf, ?_, hok.waiters⟩
      intro t _ howed
      cases howed
  · unfold Store.settleState
    dsimp only
    split
    · exact fun _ hw => .inl hw
    · exact fun _ hw => .inl hw
  · unfold Store.settleState
    dsimp only
    split
    · exact fun _ => ⟨rfl, rfl⟩
    · exact fun _ => ⟨rfl, rfl⟩
  · -- every settlement fences
    right
    intro read hread hkey huid' heq
    have hle := h.sorted.sequence read hread st (by rw [hkey]; exact hst) huid'.symm
    rw [heq, settleState_sequence] at hle
    exact absurd hle (Nat.not_succ_le_self _)

theorem finishEffect_ages (command : Command) (values : Dict ResourceKey (Store.Supplied V))
    (s : Store V) (key : ResourceKey) :
    Ages s (Store.finishEffect catalog command (.settled values) s key) := by
  unfold Store.finishEffect
  cases hst : s.states.get? key with
  | none => exact Ages.refl _
  | some st =>
      cases hstart : command.startedAt.get? key with
      | none => exact Ages.refl _
      | some start =>
          dsimp only
          split
          · exact Ages.refl _
          · have hclear : Keeps st (st.withoutPending command.operationId) :=
              keeps_aside st _ _ _ _ _ _ _ _
            exact setState_ages hst (hclear.toOlder.trans (settleState_older _ _ _ _ _ _))

theorem finishEffects_ages (command : Command) (values : Dict ResourceKey (Store.Supplied V))
    (keys : List ResourceKey) (s : Store V) :
    Ages s (keys.foldl (Store.finishEffect catalog command (.settled values)) s) := by
  induction keys generalizing s with
  | nil => exact Ages.refl _
  | cons key keys ih => exact (finishEffect_ages command values s key).trans (ih _)

theorem World.Inv.finishEffect (h : w.Inv server) {command : Command}
    (hcommand : command ∈ w.store.commands) {values : Dict ResourceKey (Store.Supplied V)}
    (hfits : ∀ key supply, values.get? key = some supply → FitsCommand server w command key supply)
    (key : ResourceKey) :
    (w.withStore (Store.finishEffect catalog command (.settled values) w.store key)).Inv
      server := by
  unfold Store.finishEffect
  cases hst : w.store.states.get? key with
  | none => exact h
  | some st =>
      cases hstart : command.startedAt.get? key with
      | none => exact h
      | some start =>
          dsimp only
          split
          · exact h
          · rename_i huid
            exact h.settleState hcommand hst hstart (not_not.mp huid) (hfits key)

theorem finishEffect_commands (command : Command) (outcome : Store.CommandOutcome V)
    (s : Store V) (key : ResourceKey) :
    (Store.finishEffect catalog command outcome s key).commands = s.commands := by
  unfold Store.finishEffect
  split
  · split
    · rfl
    · rfl
  · rfl

theorem World.Inv.finishEffects (h : w.Inv server) {command : Command}
    (hcommand : command ∈ w.store.commands) {values : Dict ResourceKey (Store.Supplied V)}
    (hfits : ∀ key supply, values.get? key = some supply → FitsCommand server w command key supply)
    (keys : List ResourceKey) :
    (w.withStore (keys.foldl (Store.finishEffect catalog command (.settled values)) w.store)).Inv
      server := by
  induction keys generalizing w with
  | nil => exact h
  | cons key keys ih =>
      refine ih (h.finishEffect hcommand hfits key) ?_ hfits
      rw [show (w.withStore (Store.finishEffect catalog command (.settled values) w.store
        key)).store.commands = w.store.commands from finishEffect_commands _ _ _ _]
      exact hcommand

/-- A write owes the read that confirms it. -/
theorem World.Inv.written (h : w.Inv server) (hst : w.store.states.get? key = some st)
    {supply : Store.Supplied V} (hfits : FitsSince server w 0 key supply)
    (epoch : Option String) :
    (w.withStore (w.store.setState key
      { st.fence with
        value := some (st.accepted catalog key epoch supply.value)
        asOf := st.moment catalog key epoch supply.asOf
        valueEpoch := epoch, error := none, owed := true })).Inv server ∧
      Ages w.store (w.store.setState key
        { st.fence with
          value := some (st.accepted catalog key epoch supply.value)
          asOf := st.moment catalog key epoch supply.asOf
          valueEpoch := epoch, error := none, owed := true }) := by
  have hok := h.states key st hst
  have hold : Older st
      { st.fence with
        value := some (st.accepted catalog key epoch supply.value)
        asOf := st.moment catalog key epoch supply.asOf
        valueEpoch := epoch, error := none, owed := true } :=
    ⟨rfl, Nat.le_refl _, Nat.le_succ _, Nat.le_refl _, Nat.le_refl _, Nat.le_refl _⟩
  refine ⟨?_, setState_ages hst hold⟩
  apply h.setState hst hold
  · refine ⟨hok.uid, hok.reads, hok.observed, hok.committed, ?_, ?_, hok.waiters⟩
    · intro t ht
      obtain ⟨-, hclock, hvalue⟩ := hok.supplied hfits ht
      exact ⟨hclock, hvalue⟩
    · intro t _ howed
      cases howed
  · exact fun _ hw => .inl hw
  · exact fun _ => ⟨rfl, rfl⟩
  · right
    intro read hread hkey huid heq
    have hle := h.sorted.sequence read hread st (by rw [hkey]; exact hst) huid.symm
    rw [heq] at hle
    exact absurd hle (Nat.not_succ_le_self _)

/-- A call of `refresh` waits for reads that start after it. -/
theorem World.Inv.waiting (h : w.Inv server) (hst : w.store.states.get? key = some st)
    (serial : Nat) :
    (w.withStore (w.store.setState key (Store.invalidated
      { st with waiters := st.waiters ++
          [{ invalidation := st.invalidations + 1
             call := { serial, readsBefore := w.store.reads } }] }))).Inv server ∧
      Ages w.store (w.store.setState key (Store.invalidated
        { st with waiters := st.waiters ++
            [{ invalidation := st.invalidations + 1
               call := { serial, readsBefore := w.store.reads } }] })) := by
  have hok := h.states key st hst
  have hold : Older st (Store.invalidated
      { st with waiters := st.waiters ++
          [{ invalidation := st.invalidations + 1
             call := { serial, readsBefore := w.store.reads } }] }) :=
    ⟨rfl, Nat.le_refl _, Nat.le_refl _, Nat.le_succ _, Nat.le_refl _, Nat.le_refl _⟩
  refine ⟨?_, setState_ages hst hold⟩
  apply h.setState hst hold
  · refine ⟨hok.uid, hok.reads, hok.observed, hok.committed, hok.asOf, ?_, ?_⟩
    · intro t _ howed
      cases howed
    intro waiter hwaiter
    rcases List.mem_append.mp hwaiter with hmem | hnew
    · obtain ⟨hi, hr⟩ := hok.waiters waiter hmem
      exact ⟨Nat.le_succ_of_le hi, hr⟩
    · rw [List.mem_singleton] at hnew
      subst hnew
      exact ⟨Nat.le_refl _, Nat.le_refl _⟩
  · intro waiter hwaiter
    rcases List.mem_append.mp hwaiter with hmem | hnew
    · exact .inl hmem
    · rw [List.mem_singleton] at hnew
      subst hnew
      exact .inr (Nat.lt_succ_self _)
  · exact fun _ => ⟨rfl, rfl⟩
  · exact .inl rfl

end Commands

section Epochs

/-- Presentations that began as before and ask for the same reads. -/
theorem World.BegunBy.entries {presentations : Dict String PresentationEntry}
    (hsame : ∀ owner entry', presentations.get? owner = some entry' →
      ∃ entry, w.store.presentations.get? owner = some entry ∧ entry'.serial = entry.serial ∧
        entry'.minimumRead = entry.minimumRead)
    (hs : s.presentations = presentations) {start t : Nat} (h : w.BegunBy start t) :
    (w.withStore s).BegunBy start t := by
  intro owner entry' hentry' hmin
  have hentry'' : presentations.get? owner = some entry' := by
    rw [← hs]
    exact hentry'
  obtain ⟨entry, hentry, hserial, hread⟩ := hsame owner entry' hentry''
  rw [hserial]
  exact h owner entry hentry (by rw [← hread]; exact hmin)

theorem newEpoch_states (s : Store V) (epoch : String) {key : ResourceKey}
    {st' : ResourceState V} (h : (s.newEpoch epoch).states.get? key = some st') :
    ∃ st, s.states.get? key = some st ∧ st' = Store.forgetVersions st := by
  have h' : (s.states.map fun _ st => Store.forgetVersions st).get? key = some st' := h
  rw [Dict.get?_map] at h'
  obtain ⟨st, hst, rfl⟩ := Option.map_eq_some_iff.mp h'
  exact ⟨st, hst, rfl⟩

theorem newEpoch_entries (s : Store V) (owner : String) (entry' : PresentationEntry)
    (h : (s.presentations.map fun _ entry => Store.withdrawEntry entry).get? owner =
      some entry') :
    ∃ entry, s.presentations.get? owner = some entry ∧ entry' = Store.withdrawEntry entry := by
  rw [Dict.get?_map] at h
  obtain ⟨entry, hentry, rfl⟩ := Option.map_eq_some_iff.mp h
  exact ⟨entry, hentry, rfl⟩

theorem forgetVersions_older (st : ResourceState V) : Older st (Store.forgetVersions st) :=
  ⟨rfl, Nat.le_succ _, Nat.le_refl _, Nat.le_refl _, Nat.le_refl _, Nat.le_refl _⟩

theorem newEpoch_ages (s : Store V) (epoch : String) : Ages s (s.newEpoch epoch) :=
  { Ages.refl s with
    states := by
      intro key st' hst'
      obtain ⟨st, hst, rfl⟩ := newEpoch_states s epoch hst'
      exact .inl ⟨st, hst, forgetVersions_older st⟩ }

theorem World.Inv.newEpoch (h : w.Inv server) (epoch : String) :
    (w.withStore (w.store.newEpoch epoch)).Inv server := by
  have hbegun : ∀ {start t}, w.BegunBy start t →
      (w.withStore (w.store.newEpoch epoch)).BegunBy start t := by
    intro start t hb
    refine hb.entries ?_ rfl
    intro owner entry' hentry'
    obtain ⟨entry, hentry, rfl⟩ := newEpoch_entries w.store owner entry' hentry'
    exact ⟨entry, hentry, rfl, rfl⟩
  refine ⟨?_, ?_, ?_, ?_, h.tickets, ?_⟩
  · intro key st' hst'
    obtain ⟨st, hst, rfl⟩ := newEpoch_states w.store epoch hst'
    have hok := h.states key st hst
    refine ⟨hok.uid, hok.reads, ?_, ?_, hok.asOf, ?_, hok.waiters⟩
    · intro version hv
      cases hv
    · intro version hv
      cases hv
    · intro t _ howed
      cases howed
  · intro read hread
    have hok := h.reads read hread
    refine ⟨hok.started, hok.time, hbegun hok.begun, hok.uid, ?_, ?_⟩
    · intro st' hst' huid
      obtain ⟨st, hst, rfl⟩ := newEpoch_states w.store epoch hst'
      obtain ⟨hg, hi, -, hw⟩ := hok.state st hst huid
      refine ⟨Nat.le_succ_of_le hg, hi, ?_, hw⟩
      intro hgen
      have hgen' : st.generation + 1 = read.generation := hgen
      omega
    · intro st' hst' huid
      obtain ⟨st, hst, rfl⟩ := newEpoch_states w.store epoch hst'
      exact hok.since st hst huid
  · intro command hcommand
    have hok := h.commands command hcommand
    refine ⟨hok.order, hok.time, ?_⟩
    intro key start hstart
    obtain ⟨huid, hstates⟩ := hok.states key start hstart
    refine ⟨huid, ?_⟩
    intro st' hst' huid'
    obtain ⟨st, hst, rfl⟩ := newEpoch_states w.store epoch hst'
    obtain ⟨hg, hr, -⟩ := hstates st hst huid'
    refine ⟨Nat.le_succ_of_le hg, hr, ?_⟩
    intro hgen
    have hgen' : start.generation = st.generation + 1 := hgen
    omega
  · intro owner entry' hentry'
    obtain ⟨entry, hentry, rfl⟩ := newEpoch_entries w.store owner entry' hentry'
    have hok := h.entries owner entry hentry
    refine ⟨hok.serial, hok.time, hok.tickets, ?_⟩
    intro key proof hproof
    cases hproof
  · refine ⟨h.sorted.order, h.sorted.started, ?_⟩
    intro read hread st' hst' huid
    obtain ⟨st, hst, rfl⟩ := newEpoch_states w.store epoch hst'
    exact h.sorted.sequence read hread st hst huid

/-- Before the first epoch nothing has a version. -/
theorem World.Inv.firstEpoch (h : w.Inv server) (hnone : w.store.epoch = none) (epoch : String) :
    (w.withStore { w.store with epoch := some epoch }).Inv server := by
  have hunseen : ∀ {key version t}, ¬ Seen server w.store.epoch key version t := by
    intro key version t hseen
    have := hseen.1
    rw [hnone] at this
    cases this
  refine ⟨?_, ?_, ?_, ?_, h.tickets, ?_⟩
  · intro key st hst
    have hok := h.states key st hst
    refine ⟨hok.uid, hok.reads, ?_, ?_, hok.asOf, ?_, hok.waiters⟩
    · intro version hv
      obtain ⟨t, -, hs⟩ := hok.observed version hv
      exact absurd hs hunseen
    · intro version hv
      obtain ⟨t, -, hs⟩ := hok.committed version hv
      exact absurd hs hunseen
    · intro t ht howed
      obtain ⟨hversion, hb⟩ := hok.fresh t ht howed
      refine ⟨?_, hb⟩
      intro version hv'
      obtain ⟨t', -, hs⟩ := hversion version hv'
      exact absurd hs hunseen
  · intro read hread
    have hok := h.reads read hread
    refine ⟨hok.started, hok.time, hok.begun, hok.uid, ?_, hok.since⟩
    intro st hst huid
    obtain ⟨hg, hi, hversion, hw⟩ := hok.state st hst huid
    refine ⟨hg, hi, ?_, hw⟩
    intro hgen version hv
    obtain ⟨t, -, hs⟩ := hversion hgen version hv
    exact absurd hs hunseen
  · intro command hcommand
    have hok := h.commands command hcommand
    refine ⟨hok.order, hok.time, ?_⟩
    intro key start hstart
    obtain ⟨huid, hstates⟩ := hok.states key start hstart
    refine ⟨huid, ?_⟩
    intro st hst huid'
    obtain ⟨hg, hr, hcurrent⟩ := hstates st hst huid'
    refine ⟨hg, hr, ?_⟩
    intro hgen hreads
    obtain ⟨hseen, hb⟩ := hcurrent hgen hreads
    refine ⟨?_, hb⟩
    intro version hv
    obtain ⟨t, -, hs⟩ := hseen version hv
    exact absurd hs hunseen
  · intro owner entry hentry
    have hok := h.entries owner entry hentry
    exact ⟨hok.serial, hok.time, hok.tickets, hok.proofs⟩
  · exact ⟨h.sorted.order, h.sorted.started, h.sorted.sequence⟩

end Epochs

section Observations

variable {key : ResourceKey} {st : ResourceState V} {time : Nat} {part : ResponsePart}

theorem mapM_eq_map {α β : Type} {f : α → Option β} {g : α → β}
    (h : ∀ a b, f a = some b → b = g a) (xs : List α) (ys : List β)
    (hys : xs.mapM f = some ys) : ys = xs.map g := by
  induction xs generalizing ys with
  | nil => simpa using hys.symm
  | cons x xs ih =>
      rw [List.mapM_cons] at hys
      obtain ⟨y, hy, hys⟩ := Option.bind_eq_some_iff.mp hys
      obtain ⟨ys', hys', heq⟩ := Option.bind_eq_some_iff.mp hys
      cases heq
      rw [List.map_cons, ← ih ys' hys', ← h x y hy]

/-- A version that a response has is the server's. -/
theorem observedVersion_eq {version : Version}
    (h : Store.observedVersion catalog part.project (server.watermarks time part) key st =
      some version) : server.version time key = version := by
  unfold Store.observedVersion at h
  split at h
  · rename_i hwatched
    rw [Bool.and_eq_true, decide_eq_true_eq] at hwatched
    symm
    refine mapM_eq_map ?_ _ _ h
    intro request token htoken
    have hmem := Dict.mem_of_get?_ofList _ _ _ htoken
    obtain ⟨request', -, heq⟩ := List.mem_map.mp hmem
    cases heq
    rw [hwatched.1]
  · cases h

theorem observing_states (ticket : ObservationTicket) {st' : ResourceState V}
    (h : (s.observing catalog part.project (server.watermarks time part) ticket).states.get? key =
      some st') :
    ∃ st, s.states.get? key = some st ∧
      (st' = st ∨ st' = { st with observed := some (server.version time key), seen := true }) := by
  have h' : (s.states.map (Store.observeState catalog part.project
    (server.watermarks time part))).get? key = some st' := h
  rw [Dict.get?_map] at h'
  obtain ⟨st, hst, rfl⟩ := Option.map_eq_some_iff.mp h'
  refine ⟨st, hst, ?_⟩
  unfold Store.observeState
  split
  · exact .inl rfl
  · rename_i version hversion
    rw [observedVersion_eq hversion]
    exact .inr rfl

/-- What an observation may make of a presentation. -/
structure ProvedEntry (server : Server catalog) (epoch : Option String) (time : Nat)
    (entry entry' : PresentationEntry) : Prop where
  serial : entry'.serial = entry.serial
  minimumObservation : entry'.minimumObservation = entry.minimumObservation
  minimumRead : entry'.minimumRead = entry.minimumRead
  proofs : ∀ key proof, entry'.proofs.get? key = some proof →
    entry.proofs.get? key = some proof ∨
      (proof.epoch = epoch ∧ server.version time key = proof.version)

theorem ProvedEntry.refl {epoch : Option String} (entry : PresentationEntry) :
    ProvedEntry server epoch time entry entry :=
  ⟨rfl, rfl, rfl, fun _ _ h => .inl h⟩

theorem ProvedEntry.trans {epoch : Option String} {a b c : PresentationEntry}
    (h : ProvedEntry server epoch time a b) (h' : ProvedEntry server epoch time b c) :
    ProvedEntry server epoch time a c :=
  ⟨h'.serial.trans h.serial, h'.minimumObservation.trans h.minimumObservation,
    h'.minimumRead.trans h.minimumRead, fun key proof hp =>
      (h'.proofs key proof hp).elim (fun hold => h.proofs key proof hold) .inr⟩

theorem proveOne_proved (s : Store V) (entry : PresentationEntry)
    (e : ResourceKey × ResourceState V) :
    ProvedEntry server s.epoch time entry
      (s.proveOne catalog part.project (server.watermarks time part) entry e) := by
  unfold Store.proveOne
  split
  · exact ProvedEntry.refl entry
  · rename_i version hversion
    split
    · refine ⟨rfl, rfl, rfl, ?_⟩
      intro key proof hproof
      dsimp only at hproof
      rw [Dict.get?_insert] at hproof
      split at hproof
      · rename_i heq
        cases hproof
        rw [heq]
        exact .inr ⟨rfl, observedVersion_eq hversion⟩
      · exact .inl hproof
    · exact ProvedEntry.refl entry

theorem foldl_proved (s : Store V) (es : List (ResourceKey × ResourceState V))
    (entry : PresentationEntry) :
    ProvedEntry server s.epoch time entry
      (es.foldl (s.proveOne catalog part.project (server.watermarks time part)) entry) := by
  induction es generalizing entry with
  | nil => exact ProvedEntry.refl entry
  | cons e es ih => exact (proveOne_proved s entry e).trans (ih _)

/-- An entry that gets a proof was begun before the observation was asked for. -/
theorem proved_entry (s : Store V) (ticket : ObservationTicket) (entry : PresentationEntry) :
    s.proved catalog part.project (server.watermarks time part) ticket entry = entry ∨
      (entry.minimumObservation ≤ ticket.serial ∧
        ProvedEntry server s.epoch time entry
          (s.proved catalog part.project (server.watermarks time part) ticket entry)) := by
  unfold Store.proved
  split
  · exact .inl rfl
  · rename_i hcheck
    rw [Bool.or_eq_true, not_or] at hcheck
    have hmin : ¬ ticket.serial < entry.minimumObservation := by simpa using hcheck.2
    exact .inr ⟨Nat.not_lt.mp hmin, foldl_proved s _ entry⟩

theorem observing_ages (s : Store V) (ticket : ObservationTicket) :
    Ages s (s.observing catalog part.project (server.watermarks time part) ticket) :=
  { Ages.refl s with
    states := by
      intro key st' hst'
      obtain ⟨st, hst, rfl | rfl⟩ := observing_states ticket hst'
      · exact .inl ⟨st', hst, Older.refl st'⟩
      · exact .inl ⟨st, hst, { Older.refl st with }⟩ }

/-- Watermarks of the store's epoch are recorded. -/
theorem World.Inv.observing (h : w.Inv server)
    (hepoch : w.store.epoch = some (server.epoch time)) (htime : time ≤ w.clock)
    {ticket : ObservationTicket} (hticket : ticket ∈ w.tickets)
    (hissued : w.issuedAt ticket.serial ≤ time) :
    (w.withStore (w.store.observing catalog part.project (server.watermarks time part)
      ticket)).Inv server := by
  have hentries : ∀ owner entry', (w.store.observing catalog part.project
      (server.watermarks time part) ticket).presentations.get? owner = some entry' →
      ∃ entry, w.store.presentations.get? owner = some entry ∧ (entry' = entry ∨
        (entry.minimumObservation ≤ ticket.serial ∧
          ProvedEntry server w.store.epoch time entry entry')) := by
    intro owner entry' hentry'
    have hentry'' : (w.store.presentations.map fun _ entry =>
        w.store.proved catalog part.project (server.watermarks time part) ticket entry).get?
        owner = some entry' := hentry'
    rw [Dict.get?_map] at hentry''
    obtain ⟨entry, hentry, rfl⟩ := Option.map_eq_some_iff.mp hentry''
    exact ⟨entry, hentry, proved_entry w.store ticket entry⟩
  have hbegun : ∀ {start t}, w.BegunBy start t → (w.withStore (w.store.observing catalog
      part.project (server.watermarks time part) ticket)).BegunBy start t := by
    intro start t hb
    refine hb.entries ?_ rfl
    intro owner entry' hentry'
    obtain ⟨entry, hentry, rfl | ⟨-, hproved⟩⟩ := hentries owner entry' hentry'
    · exact ⟨entry', hentry, rfl, rfl⟩
    · exact ⟨entry, hentry, hproved.serial, hproved.minimumRead⟩
  refine ⟨?_, ?_, ?_, ?_, h.tickets, ?_⟩
  · intro key st' hst'
    obtain ⟨st, hst, hst'⟩ := observing_states ticket hst'
    have hok := h.states key st hst
    have hfresh : ∀ t, st.asOf = some t → st.owed = false →
        (∀ version, st.committed = some version →
          ∃ t' ≤ t, Seen server w.store.epoch key version t') ∧
        (w.withStore (w.store.observing catalog part.project (server.watermarks time part)
          ticket)).BegunBy st.acceptedReadStart t := by
      intro t ht howed
      obtain ⟨hversion, hb⟩ := hok.fresh t ht howed
      exact ⟨hversion, hbegun hb⟩
    rcases hst' with rfl | rfl
    · exact ⟨hok.uid, hok.reads, hok.observed, hok.committed, hok.asOf, hfresh, hok.waiters⟩
    · refine ⟨hok.uid, hok.reads, ?_, hok.committed, hok.asOf, hfresh, hok.waiters⟩
      intro version hv
      cases hv
      exact ⟨time, htime, hepoch, rfl⟩
  · intro read hread
    have hok := h.reads read hread
    refine ⟨hok.started, hok.time, hbegun hok.begun, hok.uid, ?_, ?_⟩
    · intro st' hst' huid
      obtain ⟨st, hst, rfl | rfl⟩ := observing_states ticket hst'
      · exact hok.state st' hst huid
      · exact hok.state st hst huid
    · intro st' hst' huid
      obtain ⟨st, hst, rfl | rfl⟩ := observing_states ticket hst'
      · exact hok.since st' hst huid
      · exact hok.since st hst huid
  · intro command hcommand
    have hok := h.commands command hcommand
    refine ⟨hok.order, hok.time, ?_⟩
    intro key start hstart
    obtain ⟨huid, hstates⟩ := hok.states key start hstart
    refine ⟨huid, ?_⟩
    intro st' hst' huid'
    obtain ⟨st, hst, hst'⟩ := observing_states ticket hst'
    rcases hst' with rfl | rfl
    · obtain ⟨hg, hr, hcurrent⟩ := hstates st' hst huid'
      refine ⟨hg, hr, ?_⟩
      intro hgen hreads
      obtain ⟨hseen, hb⟩ := hcurrent hgen hreads
      exact ⟨hseen, hbegun hb⟩
    · obtain ⟨hg, hr, hcurrent⟩ := hstates st hst huid'
      refine ⟨hg, hr, ?_⟩
      intro hgen hreads
      obtain ⟨hseen, hb⟩ := hcurrent hgen hreads
      exact ⟨hseen, hbegun hb⟩
  · intro owner entry' hentry'
    obtain ⟨entry, hentry, hcase⟩ := hentries owner entry' hentry'
    have hok := h.entries owner entry hentry
    rcases hcase with rfl | ⟨hmin, hproved⟩
    · exact ⟨hok.serial, hok.time, hok.tickets, hok.proofs⟩
    · have hserial := hproved.serial
      refine ⟨?_, ?_, ?_, ?_⟩
      · rw [hserial]
        exact hok.serial
      · rw [hserial]
        exact hok.time
      · rw [hserial, hproved.minimumObservation]
        exact hok.tickets
      · intro key proof hproof
        rw [hserial]
        rcases hproved.proofs key proof hproof with hold | ⟨hp, hv⟩
        · exact hok.proofs key proof hold
        · refine ⟨time, ?_, htime, hp.trans hepoch, hv⟩
          exact Nat.le_trans (hok.tickets ticket hticket hmin) hissued
  · refine ⟨h.sorted.order, h.sorted.started, ?_⟩
    intro read hread st' hst' huid
    obtain ⟨st, hst, rfl | rfl⟩ := observing_states ticket hst'
    · exact h.sorted.sequence read hread st' hst huid
    · exact h.sorted.sequence read hread st hst huid

end Observations

section Beginnings

theorem begun_ages (s : Store V) (owner activationKey : String) (ids : List ResourceKey) :
    Ages s (s.begun owner activationKey ids) :=
  { Ages.refl s with presentationSerial := Nat.le_succ _ }

/-- A presentation that begins asks for observations and reads that are still to come. -/
theorem World.Inv.begun (h : w.Inv server) (owner activationKey : String)
    (ids : List ResourceKey) : (w.put (w.store.begun owner activationKey ids)).Inv server := by
  have hentries : ∀ owner' entry', (w.store.begun owner activationKey ids).presentations.get?
      owner' = some entry' → entry' = w.store.begunEntry activationKey ids ∨
        w.store.presentations.get? owner' = some entry' := by
    intro owner' entry' hentry'
    have hentry'' : (w.store.presentations.insert owner (w.store.begunEntry activationKey
      ids)).get? owner' = some entry' := hentry'
    rw [Dict.get?_insert] at hentry''
    split at hentry''
    · cases hentry''
      exact .inl rfl
    · exact .inr hentry''
  have hold : ∀ owner' entry, w.store.presentations.get? owner' = some entry →
      (w.put (w.store.begun owner activationKey ids)).begunAt entry.serial =
        w.begunAt entry.serial := fun owner' entry hentry =>
    stamped_of_le (h.entries owner' entry hentry).serial
  have hbegun : ∀ {start t}, start ≤ w.store.reads → w.BegunBy start t →
      (w.put (w.store.begun owner activationKey ids)).BegunBy start t := by
    intro start t hstart hb owner' entry' hentry' hmin
    rcases hentries owner' entry' hentry' with rfl | hentry
    · have hmin' : w.store.reads + 1 ≤ start := hmin
      omega
    · exact (hold owner' entry' hentry).symm ▸ hb owner' entry' hentry hmin
  have hstarted : ∀ read ∈ w.store.reading,
      (w.put (w.store.begun owner activationKey ids)).startedAt read.readStart =
        w.startedAt read.readStart := fun read hread =>
    stamped_of_le (h.reads read hread).started
  have hcommand : ∀ command ∈ w.store.commands,
      (w.put (w.store.begun owner activationKey ids)).commandAt command.order =
        w.commandAt command.order := fun command hc =>
    stamped_of_le (h.commands command hc).order
  refine ⟨?_, ?_, ?_, ?_, h.tickets, ⟨h.sorted.order, h.sorted.started, h.sorted.sequence⟩⟩
  · intro key st hst
    have hok := h.states key st hst
    refine ⟨hok.uid, hok.reads, hok.observed, hok.committed, hok.asOf, ?_, hok.waiters⟩
    intro t ht howed
    obtain ⟨hversion, hb⟩ := hok.fresh t ht howed
    exact ⟨hversion, hbegun hok.reads hb⟩
  · intro read hread
    have hok := h.reads read hread
    refine ⟨hok.started, ?_, ?_, hok.uid, ?_, ?_⟩
    · rw [hstarted read hread]
      exact hok.time
    · rw [hstarted read hread]
      exact hbegun hok.started hok.begun
    · rw [hstarted read hread]
      exact hok.state
    · rw [hstarted read hread]
      exact hok.since
  · intro command hc
    have hok := h.commands command hc
    refine ⟨hok.order, ?_, ?_⟩
    · rw [hcommand command hc]
      exact hok.time
    · rw [hcommand command hc]
      intro key start hstart
      obtain ⟨huid, hstates⟩ := hok.states key start hstart
      refine ⟨huid, ?_⟩
      intro st hst huid'
      obtain ⟨hg, hr, hcurrent⟩ := hstates st hst huid'
      refine ⟨hg, hr, ?_⟩
      intro hgen hreads
      obtain ⟨hseen, hb⟩ := hcurrent hgen hreads
      exact ⟨hseen, hbegun (h.states key st hst).reads hb⟩
  · intro owner' entry' hentry'
    rcases hentries owner' entry' hentry' with rfl | hentry
    · have hstamp : (w.put (w.store.begun owner activationKey ids)).begunAt
          (w.store.begunEntry activationKey ids).serial = w.clock :=
        stamped_of_lt (Nat.lt_succ_self _)
      refine ⟨Nat.le_refl _, ?_, ?_, ?_⟩
      · rw [hstamp]
        exact Nat.le_refl _
      · intro ticket hticket hmin
        have hmin' : w.store.observationSerial + 1 ≤ ticket.serial := hmin
        have := h.tickets ticket hticket
        omega
      · intro key proof hproof
        cases hproof
    · have hok := h.entries owner' entry' hentry
      refine ⟨Nat.le_succ_of_le hok.serial, ?_, ?_, ?_⟩
      · rw [hold owner' entry' hentry]
        exact hok.time
      · intro ticket hticket hmin
        have hissued : (w.put (w.store.begun owner activationKey ids)).issuedAt ticket.serial =
            w.issuedAt ticket.serial := stamped_of_le (h.tickets ticket hticket)
        rw [hold owner' entry' hentry, hissued]
        exact hok.tickets ticket hticket hmin
      · rw [hold owner' entry' hentry]
        exact hok.proofs

/-- An observation is asked for after every presentation that is there. -/
theorem World.Inv.asked (h : w.Inv server) (project : String) :
    ({ w.put w.store.beginObservation with
        tickets := w.tickets ++ [{ project, serial := w.store.observationSerial + 1 }] } :
      World V).Inv server := by
  have hrenew := h.renew
  refine ⟨?_, ?_, ?_, ?_, ?_, ?_⟩
  · intro key st hst
    have hok := hrenew.states key st hst
    exact ⟨hok.uid, hok.reads, hok.observed, hok.committed, hok.asOf, hok.fresh, hok.waiters⟩
  · intro read hread
    have hok := hrenew.reads read hread
    exact ⟨hok.started, hok.time, hok.begun, hok.uid, hok.state, hok.since⟩
  · intro command hcommand
    have hok := hrenew.commands command hcommand
    exact ⟨hok.order, hok.time, hok.states⟩
  · intro owner entry hentry
    have hok := hrenew.entries owner entry hentry
    refine ⟨hok.serial, hok.time, ?_, hok.proofs⟩
    intro ticket hticket hmin
    rcases List.mem_append.mp hticket with hold | hnew
    · exact hok.tickets ticket hold hmin
    · rw [List.mem_singleton] at hnew
      subst hnew
      have hissued : stamped w.issuedAt w.store.observationSerial w.clock
          (w.store.observationSerial + 1) = w.clock := stamped_of_lt (Nat.lt_succ_self _)
      exact Nat.le_trans hok.time (Nat.le_of_eq hissued.symm)
  · intro ticket hticket
    rcases List.mem_append.mp hticket with hold | hnew
    · exact Nat.le_succ_of_le (h.tickets ticket hold)
    · rw [List.mem_singleton] at hnew
      subst hnew
      exact Nat.le_refl _
  · exact ⟨h.sorted.order, h.sorted.started, h.sorted.sequence⟩

/-- What a command has captured of a state, as the state still is. -/
structure Captured (s : Store V) (key : ResourceKey) (start : CommandStart) : Prop where
  uid : start.uid < s.nextUid
  state : ∀ st, s.states.get? key = some st → st.uid = start.uid →
    start.generation ≤ st.generation ∧ start.reads ≤ st.acceptedReads

theorem Captured.quiet {key : ResourceKey} {start : CommandStart} (h : Captured s key start)
    (hq : Quiet s s') : Captured s' key start := by
  refine ⟨Nat.lt_of_lt_of_le h.uid hq.ages.nextUid, ?_⟩
  intro st' hst' huid
  rcases hq.states key st' hst' with ⟨st, hst, hkeeps⟩ | ⟨-, hnew, -⟩
  · obtain ⟨hg, hr⟩ := h.state st hst (hkeeps.uid.symm.trans huid)
    exact ⟨Nat.le_trans hg hkeeps.generation, Nat.le_trans hr hkeeps.acceptedReads⟩
  · have := h.uid
    omega

theorem beginEffect_quiet (operationId : String) (acc : Store V × Dict ResourceKey CommandStart)
    (effect : ResourceKey × Apply V) (ht : acc.1.Tagged)
    (hacc : ∀ key start, acc.2.get? key = some start → Captured acc.1 key start) :
    Quiet acc.1 (Store.beginEffect operationId acc effect).1 ∧
      ∀ key start, (Store.beginEffect operationId acc effect).2.get? key = some start →
        Captured (Store.beginEffect operationId acc effect).1 key start := by
  unfold Store.beginEffect
  cases hst : acc.1.states.get? effect.1 with
  | none => exact ⟨Quiet.refl _, hacc⟩
  | some st =>
      dsimp only
      have hkeeps : Keeps st
          { st.fence with pending := st.pending ++ [{ id := operationId, apply := effect.2 }] } :=
        (keeps_fence st).trans (keeps_aside st.fence _ _ _ _ _ _ _ _)
      have hq := quiet_insert hst hkeeps
      refine ⟨hq, ?_⟩
      intro key start hstart
      rw [Dict.get?_insert] at hstart
      split at hstart
      · rename_i heq
        cases hstart
        refine ⟨ht effect.1 st hst, ?_⟩
        intro st' hst' _
        rw [heq] at hst'
        dsimp only at hst'
        rw [Dict.get?_insert, if_pos rfl] at hst'
        cases hst'
        exact ⟨Nat.le_refl _, Nat.le_refl _⟩
      · exact (hacc key start hstart).quiet hq

theorem beginEffects_quiet (operationId : String) (effects : List (ResourceKey × Apply V))
    (acc : Store V × Dict ResourceKey CommandStart) (ht : acc.1.Tagged)
    (hacc : ∀ key start, acc.2.get? key = some start → Captured acc.1 key start) :
    Quiet acc.1 (effects.foldl (Store.beginEffect operationId) acc).1 ∧
      ∀ key start, (effects.foldl (Store.beginEffect operationId) acc).2.get? key = some start →
        Captured (effects.foldl (Store.beginEffect operationId) acc).1 key start := by
  induction effects generalizing acc with
  | nil => exact ⟨Quiet.refl _, hacc⟩
  | cons effect effects ih =>
      obtain ⟨hq, hcaptured⟩ := beginEffect_quiet operationId acc effect ht hacc
      obtain ⟨hq', hcaptured'⟩ := ih _ (hq.tagged ht) hcaptured
      exact ⟨hq.trans hq', hcaptured'⟩

/-- The count of commands is nobody's data until a command has it. -/
theorem quiet_mutations (s : Store V) (mutations : Nat) (h : s.mutations ≤ mutations) :
    Quiet s { s with mutations } where
  ages := { Ages.refl s with mutations := h }
  epoch := rfl
  commands _ hc := hc
  states _ st hst := .inl ⟨st, hst, Keeps.refl st⟩
  entries _ entry he := ⟨entry, he, SameEntry.refl entry⟩
  reading _ hr := .inl hr
  sorted hs := ⟨hs.order, hs.started, hs.sequence⟩
  resolved _ hc := hc

theorem beginMutation_begun (ht : s.Tagged) (operationId : String)
    (effects : Dict ResourceKey (Apply V)) :
    ∃ before command, Quiet s before ∧ before.mutations = s.mutations + 1 ∧
      before.commands = s.commands ∧ command.order = s.mutations + 1 ∧
      (∀ key start, command.startedAt.get? key = some start → Captured before key start) ∧
      s.beginMutation operationId effects =
        { before with commands := before.commands ++ [command] } := by
  have hcount := quiet_mutations s (s.mutations + 1) (Nat.le_succ _)
  have hnone : ∀ key start, (Dict.empty : Dict ResourceKey CommandStart).get? key = some start →
      Captured { s with mutations := s.mutations + 1 } key start := by
    intro key start hstart
    cases hstart
  obtain ⟨hq, hcaptured⟩ := beginEffects_quiet operationId effects.entries
    ({ s with mutations := s.mutations + 1 }, Dict.empty) (hcount.tagged ht) hnone
  have hsame : ∀ (es : List (ResourceKey × Apply V)) (acc : Store V × Dict ResourceKey CommandStart),
      (es.foldl (Store.beginEffect operationId) acc).1.mutations = acc.1.mutations ∧
        (es.foldl (Store.beginEffect operationId) acc).1.commands = acc.1.commands := by
    intro es
    induction es with
    | nil => exact fun _ => ⟨rfl, rfl⟩
    | cons e es ih =>
        intro acc
        obtain ⟨hm, hc⟩ := ih (Store.beginEffect operationId acc e)
        have hone : (Store.beginEffect operationId acc e).1.mutations = acc.1.mutations ∧
            (Store.beginEffect operationId acc e).1.commands = acc.1.commands := by
          unfold Store.beginEffect
          split
          · exact ⟨rfl, rfl⟩
          · exact ⟨rfl, rfl⟩
        exact ⟨hm.trans hone.1, hc.trans hone.2⟩
  obtain ⟨hm, hc⟩ := hsame effects.entries ({ s with mutations := s.mutations + 1 }, Dict.empty)
  exact ⟨_, _, hcount.trans hq, hm, hc, rfl, hcaptured, rfl⟩

theorem beginMutation_ages (ht : s.Tagged) (operationId : String)
    (effects : Dict ResourceKey (Apply V)) : Ages s (s.beginMutation operationId effects) := by
  obtain ⟨before, command, hq, -, hc, horder, -, heq⟩ := beginMutation_begun ht operationId effects
  rw [heq]
  refine { hq.ages with commands := fun command' hcommand' => ?_ }
  rcases List.mem_append.mp hcommand' with hold | hnew
  · exact hq.ages.commands command' hold
  · rw [List.mem_singleton] at hnew
    subst hnew
    right
    omega

theorem World.Inv.mutated (h : w.Inv server) (operationId : String)
    (effects : Dict ResourceKey (Apply V)) :
    (w.put (w.store.beginMutation operationId effects)).Inv server := by
  obtain ⟨before, command, hq, hm, hc, horder, hcaptured, heq⟩ :=
    beginMutation_begun h.tagged operationId effects
  rw [heq]
  have hbefore := h.quiet hq
  have hstamp : (w.put before).commandAt command.order = w.clock := by
    apply stamped_of_lt
    omega
  refine ⟨?_, ?_, ?_, ?_, hbefore.tickets, ?_⟩
  · intro key st hst
    have hok := hbefore.states key st hst
    exact ⟨hok.uid, hok.reads, hok.observed, hok.committed, hok.asOf, hok.fresh, hok.waiters⟩
  · intro read hread
    have hok := hbefore.reads read hread
    exact ⟨hok.started, hok.time, hok.begun, hok.uid, hok.state, hok.since⟩
  · intro command' hcommand'
    rcases List.mem_append.mp hcommand' with hold | hnew
    · have hok := hbefore.commands command' hold
      exact ⟨hok.order, hok.time, hok.states⟩
    · rw [List.mem_singleton] at hnew
      subst hnew
      refine ⟨?_, ?_, ?_⟩
      · have hm' : (w.put { before with commands := before.commands ++ [command'] }).store.mutations
            = w.store.mutations + 1 := hm
        omega
      · exact hstamp.symm ▸ Nat.le_refl _
      · intro key start hstart
        obtain ⟨huid, hstate⟩ := hcaptured key start hstart
        refine ⟨huid, ?_⟩
        intro st hst huid'
        obtain ⟨hg, hr⟩ := hstate st hst huid'
        refine ⟨hg, hr, ?_⟩
        intro _ _
        have hstamp' : (w.put { before with commands := before.commands ++ [command'] }).commandAt
            command'.order = w.clock := hstamp
        rw [hstamp']
        exact ⟨(hbefore.states key st hst).committed, hbefore.begunBy_clock _⟩
  · intro owner entry hentry
    have hok := hbefore.entries owner entry hentry
    exact ⟨hok.serial, hok.time, hok.tickets, hok.proofs⟩
  · exact ⟨hbefore.sorted.order, hbefore.sorted.started, hbefore.sorted.sequence⟩

/-- Without states and presentations there is nothing left to fit. -/
theorem World.Inv.cleared (h : w.Inv server) (hnone : ∀ key, w.store.states.get? key = none) :
    (w.withStore { w.store with presentations := Dict.empty, epoch := none }).Inv server := by
  have hgone : ∀ key st, ¬ w.store.states.get? key = some st := by
    intro key st hst
    rw [hnone key] at hst
    cases hst
  refine ⟨?_, ?_, ?_, ?_, h.tickets, ⟨h.sorted.order, h.sorted.started, h.sorted.sequence⟩⟩
  · exact fun key st hst => absurd hst (hgone key st)
  · intro read hread
    have hok := h.reads read hread
    refine ⟨hok.started, hok.time, ?_, hok.uid, fun st hst => absurd hst (hgone _ st),
      fun st hst => absurd hst (hgone _ st)⟩
    intro owner entry hentry
    cases hentry
  · intro command hcommand
    have hok := h.commands command hcommand
    refine ⟨hok.order, hok.time, ?_⟩
    intro key start hstart
    exact ⟨(hok.states key start hstart).1, fun st hst => absurd hst (hgone key st)⟩
  · intro owner entry hentry
    cases hentry

theorem get?_drop (s : Store V) (key key' : ResourceKey) (error : String) :
    (s.drop key error).states.get? key' = if key' = key then none else s.states.get? key' := by
  unfold Store.drop
  cases hst : s.states.get? key with
  | none =>
      dsimp only
      by_cases heq : key' = key
      · rw [if_pos heq, heq]
        exact hst
      · rw [if_neg heq]
  | some st => exact Dict.get?_erase s.states key key'

theorem get?_dropAll (keys : List ResourceKey) (error : String) (s : Store V)
    (key : ResourceKey) :
    (keys.foldl (fun s key => s.drop key error) s).states.get? key =
      if key ∈ keys then none else s.states.get? key := by
  induction keys generalizing s with
  | nil => simp
  | cons k keys ih =>
      rw [List.foldl_cons, ih, get?_drop]
      by_cases hk : key = k <;> by_cases hm : key ∈ keys <;> simp [hk, hm]

theorem World.Inv.reset (h : w.Inv server) :
    (w.put w.store.reset).Inv server ∧ Ages w.store w.store.reset := by
  have hq : Quiet w.store
      (w.store.states.keys.foldl (fun s key => s.drop key "Resource store reset") w.store) :=
    quiet_foldl (fun s key _ => drop_quiet s key _) _ h.tagged
  have hdropped := h.quiet hq
  refine ⟨hdropped.cleared ?_, { hq.ages with }⟩
  intro key
  have hget := get?_dropAll w.store.states.keys "Resource store reset" w.store key
  refine hget.trans ?_
  split
  · rfl
  · rename_i hmem
    exact (Dict.not_mem_iff _ _).mp hmem

end Beginnings

end RcpGraph.Browser
