import Mathlib.Data.List.Induction
import RcpGraph.Browser.Overtaken

/-!
Whole runs of the browser's store: what an accepted read, a settlement or a new epoch puts
out of date stays so however the run goes on, and only a read that started after a call of
`refresh` resolves it.
-/

namespace RcpGraph.Browser

universe u

variable {V : Type u} {catalog : Catalog V} {server : Server catalog} {w w' w'' : World V}
  {s s' : Store V} {key : ResourceKey} {event : Event V}

/-- What holds in the world before the first event holds after every run. -/
theorem run_inv (server : Server catalog) (events : List (Event V)) :
    ((World.initial V).run server events).Inv server :=
  (run_carries World.initial_inv events).1

section Overtakes

/-- The event is an accepted read of the key, the settlement of a command that affects it,
or a new epoch. -/
def World.Brings (server : Server catalog) (w : World V) (key : ResourceKey)
    (event : Event V) : Prop :=
  match event.act with
  | .finishRead readStart (.sampled time) => ∃ read, w.read? readStart = some read ∧
      read.key = key ∧ w.store.accepts read = true ∧ w.startedAt read.readStart ≤ time ∧
      time ≤ w.clock
  | .settle order values => ∃ command start st, w.command? order = some command ∧
      key ∈ command.effects ∧ command.startedAt.get? key = some start ∧
      w.store.states.get? key = some st ∧ st.uid = start.uid ∧
      values.entries.all fun e => w.inTime (w.commandAt command.order) e.2
  | .respond time parts => time ≤ w.clock ∧
      (∀ part ∈ parts, part.ticket ∈ w.tickets ∧ w.issuedAt part.ticket.serial ≤ time) ∧
      w.store.epoch ≠ none ∧ w.store.epoch ≠ some (server.epoch time)
  | _ => False

/-- The last command that the event puts out of date. -/
def World.lastOvertaken (w : World V) (event : Event V) : Nat :=
  match event.act with
  | .settle order _ => order
  | _ => w.store.mutations

/-- The event answers a read of the key or a command that had started before. -/
def World.AnswersBefore (w w' : World V) (key : ResourceKey) (event' : Event V) : Prop :=
  match event'.act with
  | .finishRead readStart _ => readStart ≤ w.store.reads ∧
      ∃ read, w'.read? readStart = some read ∧ read.key = key
  | .settle order _ => order ≤ w.store.mutations
  | _ => False

/-- It answers what the former event has put out of date. -/
def World.AnswersLate (w : World V) (event : Event V) (w' : World V) (key : ResourceKey)
    (event' : Event V) : Prop :=
  w.AnswersBefore w' key event' ∧
    ∀ order values, event'.act = .settle order values → order ≤ w.lastOvertaken event

/-- What is in flight for the key since before is out of date. -/
structure World.Overtakes (w : World V) (event : Event V) (key : ResourceKey)
    (s : Store V) : Prop where
  reads : ∀ read ∈ s.reading, read.readStart ≤ w.store.reads → read.key = key → Outrun s read
  commands : ∀ command ∈ s.commands, command.order ≤ w.store.mutations →
    command.order ≤ w.lastOvertaken event → Overtaken s command key

theorem World.Overtakes.ages (h : w.Overtakes event key s) (hsorted : s.Sorted)
    (hfrom : Ages w.store s) (ha : Ages s s') : w.Overtakes event key s' where
  reads read hread hstart hkey := by
    rcases ha.reading read hread with hold | hnew
    · exact (h.reads read hold hstart hkey).ages (hsorted.started read hold).2 ha
    · have := hfrom.reads
      omega
  commands command hcommand horder hlast := by
    rcases ha.commands command hcommand with hold | hnew
    · exact (h.commands command hold horder hlast).ages ha
    · have := hfrom.mutations
      omega

/-- An accepted read counts more than a command that started before it. -/
theorem overtaken_acceptRead (h : w.Inv server) {read : Read}
    (haccepts : w.store.accepts read = true) (value : V) (time now : Nat) {command : Command}
    (hcommand : command ∈ w.store.commands) :
    Overtaken (w.store.acceptRead catalog read now (.value value time)) command read.key := by
  obtain ⟨st, hst, -, -, -⟩ := (accepts_iff w.store read).mp haccepts
  intro start hstart
  obtain ⟨huid, hstates⟩ := (h.commands command hcommand).states read.key start hstart
  unfold Store.acceptRead
  rw [hst]
  refine ⟨huid, ?_⟩
  intro st' hst' huid'
  have hst'' : (w.store.setState read.key
    (Store.readState catalog w.store.epoch read value time st)).states.get? read.key = some st' := hst'
  rw [get?_setState, if_pos rfl] at hst''
  obtain rfl := Option.some_inj.mp hst''
  obtain ⟨-, hreads, -⟩ := hstates st hst huid'
  exact .inr (.inl (Nat.lt_succ_of_le hreads))

theorem finishRead_overtakes (h : w.Inv server) {read : Read} (hread : read ∈ w.store.reading)
    (haccepts : w.store.accepts read = true) {time : Nat}
    (hstart : w.startedAt read.readStart ≤ time) (htime : time ≤ w.clock) (now : Nat) :
    w.Overtakes event read.key
      (w.store.finishRead catalog read (.value (server.value time read.key) time) now) := by
  have hsample : Sampled server w read (.value (server.value time read.key) time) := by
    intro value time heq
    cases heq
    exact ⟨hstart, htime, rfl⟩
  have hended := ended_carries h hread now hsample
  rw [if_pos haccepts] at hended
  have hend := endRead_quiet
    (w.store.acceptRead catalog read now (.value (server.value time read.key) time)) read
  have hpump := pump_quiet hended.1.tagged now
  have hover : w.Overtakes event read.key ((w.store.acceptRead catalog read now
      (.value (server.value time read.key) time)).endRead read) := by
    refine ⟨?_, ?_⟩
    · intro read' hread' hle hkey
      have hne : read'.readStart ≠ read.readStart := by
        have := (List.mem_filter.mp hread').2
        exact of_decide_eq_true this
      rcases hended.2.reading read' hread' with hold | hnew
      · exact (Outrun.of_accepted h.sorted hread hold hne hkey haccepts).ages
          (h.sorted.started read' hold).2 hended.2
      · omega
    · intro command hcommand hle _
      rcases hended.2.commands command hcommand with hold | hnew
      · exact (overtaken_acceptRead h haccepts _ _ now hold).ages hend.ages
      · omega
  unfold Store.finishRead
  rw [if_pos haccepts]
  exact hover.ages hended.1.sorted hended.2 hpump.ages

theorem settle_overtakes (h : w.Inv server) {command : Command}
    (hcommand : command ∈ w.store.commands) (hlast : w.lastOvertaken event = command.order)
    {start : CommandStart} {st : ResourceState V} (heffect : key ∈ command.effects)
    (hstart : command.startedAt.get? key = some start)
    (hst : w.store.states.get? key = some st) (huid : st.uid = start.uid)
    {values : Dict ResourceKey (Store.Supplied V)}
    (hfits : ∀ key supply, values.get? key = some supply → FitsCommand server w command key supply)
    (now : Nat) :
    w.Overtakes event key (w.store.finish catalog command (.settled values) now) := by
  have hnew := ((h.commands command hcommand).states key start hstart).1
  have hages : Ages w.store (command.effects.foldl
      (Store.finishEffect catalog command (.settled values)) w.store) :=
    finishEffects_ages command values command.effects w.store
  have hsettles : ∀ st', (command.effects.foldl (Store.finishEffect catalog command
      (.settled values)) w.store).states.get? key = some st' → st'.uid = start.uid →
      st.sequence < st'.sequence ∧ command.order ≤ st'.settledMutation := by
    intro st' hst' huid'
    obtain ⟨st₁, hst₁, -, hseq, horder⟩ := finishEffects_settles hstart hnew heffect hst' huid'
    rw [hst] at hst₁
    obtain rfl := Option.some_inj.mp hst₁
    exact ⟨hseq, horder⟩
  have hsorted := (h.finishEffects hcommand hfits command.effects).sorted
  have hkept : ∀ st', (command.effects.foldl (Store.finishEffect catalog command
      (.settled values)) w.store).states.get? key = some st' → st'.uid < w.store.nextUid →
      st'.uid = start.uid := by
    intro st' hst' hlt
    rcases hages.states key st' hst' with ⟨st₁, hst₁, hold⟩ | hlate
    · rw [hst] at hst₁
      obtain rfl := Option.some_inj.mp hst₁
      exact hold.uid.trans huid
    · omega
  have hover : w.Overtakes event key (command.effects.foldl
      (Store.finishEffect catalog command (.settled values)) w.store) := by
    refine ⟨?_, ?_⟩
    · intro read hread hle hkey st' hst' huid'
      rcases hages.reading read hread with hold | hlate
      · rw [hkey] at hst'
        have hstarted := (h.sorted.started read hold).2
        have hsame := hkept st' hst' (by omega)
        have := (hsettles st' hst' hsame).1
        have := h.sorted.sequence read hold st (by rw [hkey]; exact hst)
          (by rw [huid, ← hsame]; exact huid')
        right
        omega
      · omega
    · intro command' hcommand' hle horder start' hstart'
      rw [hlast] at horder
      rcases hages.commands command' hcommand' with hold | hlate
      · have hnew' := ((h.commands command' hold).states key start' hstart').1
        refine ⟨Nat.lt_of_lt_of_le hnew' hages.nextUid, ?_⟩
        intro st' hst' huid'
        have := (hsettles st' hst' (hkept st' hst' (by omega))).2
        right; right
        omega
      · omega
  have hpump := pump_quiet (World.Inv.tagged (h.finishEffects hcommand hfits command.effects)) now
  exact hover.ages hsorted hages hpump.ages

theorem newEpoch_overtakes (h : w.Inv server) (epoch : String) :
    w.Overtakes event key (w.store.newEpoch epoch) where
  reads read hread hle hkey st' hst' huid := by
    obtain ⟨st, hst, rfl⟩ := newEpoch_states w.store epoch hst'
    obtain ⟨hgen, -, -, -⟩ := (h.reads read hread).state st hst huid
    exact .inl (Nat.lt_succ_of_le hgen)
  commands command hcommand hle hlast start hstart := by
    obtain ⟨huid, hstates⟩ := (h.commands command hcommand).states key start hstart
    refine ⟨huid, ?_⟩
    intro st' hst' huid'
    obtain ⟨st, hst, rfl⟩ := newEpoch_states w.store epoch hst'
    exact .inl (Nat.lt_succ_of_le (hstates st hst huid').1)

theorem respond_overtakes (h : w.Inv server) {time : Nat} (htime : time ≤ w.clock)
    {parts : List ResponsePart} (hparts : ∀ part ∈ parts, part.ticket ∈ w.tickets ∧
      w.issuedAt part.ticket.serial ≤ time) (hsome : w.store.epoch ≠ none)
    (hother : w.store.epoch ≠ some (server.epoch time)) (now : Nat) :
    w.Overtakes event key (w.store.respond server time parts now) := by
  have hages := (respond_carries h htime hparts now).2
  have hnew : w.Carries server (w.store.newEpoch (server.epoch time)) :=
    ⟨h.renew.newEpoch _, newEpoch_ages _ _⟩
  have hepoch : w.store.observeEpoch (server.epoch time) now =
      (w.store.newEpoch (server.epoch time)).pump now := by
    unfold Store.observeEpoch
    rw [if_neg hother, if_neg hsome]
  rw [hepoch] at hages
  have hpump := pump_quiet hnew.1.tagged now
  exact (newEpoch_overtakes h _).ages hnew.1.sorted hnew.2 (hpump.ages.trans hages)

/-- An event that brings the key something puts out of date what is in flight for it. -/
theorem step_overtakes (h : w.Inv server) (hbrings : w.Brings server key event) :
    w.Overtakes event key (w.step server event).store := by
  obtain ⟨now, act⟩ := event
  unfold World.Brings at hbrings
  unfold World.step
  cases act with
  | finishRead readStart answer =>
      cases answer with
      | failed error => cases hbrings
      | sampled time =>
          obtain ⟨read, hread, rfl, haccepts, hstart, htime⟩ := hbrings
          dsimp only
          rw [hread]
          dsimp only [World.finishRead]
          rw [if_pos ⟨hstart, htime⟩]
          exact finishRead_overtakes h (mem_of_read? hread).1 haccepts hstart htime now
  | settle order values =>
      obtain ⟨command, start, st, hcommand, heffect, hstart, hst, huid, htimes⟩ := hbrings
      dsimp only
      rw [hcommand]
      dsimp only [World.settle]
      rw [if_pos htimes]
      obtain ⟨hmem, horder⟩ := mem_of_command? hcommand
      have hlast : w.lastOvertaken ⟨now, .settle order values⟩ = command.order := horder.symm
      exact settle_overtakes h hmem hlast heffect hstart hst huid (fits_of_inTime htimes) now
  | respond time parts =>
      obtain ⟨htime, hparts, hsome, hother⟩ := hbrings
      dsimp only [World.respond]
      rw [if_pos]
      · exact respond_overtakes h htime hparts hsome hother now
      · rw [Bool.and_eq_true, decide_eq_true_eq, List.all_eq_true]
        refine ⟨htime, ?_⟩
        intro part hpart
        rw [Bool.and_eq_true, decide_eq_true_eq, decide_eq_true_eq]
        exact hparts part hpart
  | _ => cases hbrings

/-- An answer that is out of date leaves the value of the key. -/
theorem step_of_answersLate {event' : Event V} (hover : w.Overtakes event key w'.store)
    (hlate : w.AnswersLate event w' key event') :
    (w'.step server event').store.committedValue key = w'.store.committedValue key := by
  obtain ⟨now, act⟩ := event'
  obtain ⟨hbefore, hlast⟩ := hlate
  unfold World.AnswersBefore at hbefore
  unfold World.step
  cases act with
  | finishRead readStart answer =>
      obtain ⟨hle, read, hread, hkey⟩ := hbefore
      obtain ⟨hmem, hstart⟩ := mem_of_read? hread
      have hout := hover.reads read hmem (by rw [hstart]; exact hle) hkey
      dsimp only
      rw [hread]
      cases answer with
      | failed error => exact hout.finishRead _ now key
      | sampled time =>
          dsimp only [World.finishRead]
          split
          · exact hout.finishRead _ now key
          · rfl
  | settle order values =>
      dsimp only
      cases hcommand : w'.command? order with
      | none => rfl
      | some command =>
          obtain ⟨hmem, horder⟩ := mem_of_command? hcommand
          have hcmd := hover.commands command hmem (by rw [horder]; exact hbefore)
            (by rw [horder]; exact hlast order values rfl)
          dsimp only [World.settle]
          split
          · exact (pump_value _ now key).trans (hcmd.finishEffects _ command.effects)
          · rfl
  | _ => cases hbefore

end Overtakes

section Promises

/-- No promise resolves. -/
def Unresolved (s s' : Store V) : Prop :=
  ∀ call, (call, Settlement.resolved) ∈ s'.settled → (call, Settlement.resolved) ∈ s.settled

theorem Unresolved.of_eq (h : s'.settled = s.settled) : Unresolved s s' := by
  intro call hcall
  rw [← h]
  exact hcall

theorem Unresolved.quiet {s₁ : Store V} (h : Unresolved s s₁) (hq : Quiet s₁ s') :
    Unresolved s s' := fun call hcall => h call (hq.resolved call hcall)

theorem finishEffects_settled (command : Command) (values : Dict ResourceKey (Store.Supplied V))
    (keys : List ResourceKey) (s : Store V) :
    (keys.foldl (Store.finishEffect catalog command (.settled values)) s).settled =
      s.settled := by
  induction keys generalizing s with
  | nil => rfl
  | cons key keys ih =>
      rw [List.foldl_cons, ih]
      unfold Store.finishEffect
      split
      · split
        · rfl
        · rfl
      · rfl

theorem beginEffects_settled (operationId : String) (effects : List (ResourceKey × Apply V))
    (acc : Store V × Dict ResourceKey CommandStart) :
    (effects.foldl (Store.beginEffect operationId) acc).1.settled = acc.1.settled := by
  induction effects generalizing acc with
  | nil => rfl
  | cons effect effects ih =>
      rw [List.foldl_cons, ih]
      unfold Store.beginEffect
      split
      · rfl
      · rfl

theorem pump_settled (s : Store V) (now : Nat) : (s.pump now).settled = s.settled := by
  have hloop : ∀ backgroundWaiting keys (s : Store V),
      (Store.pumpLoop backgroundWaiting keys s).settled = s.settled := by
    intro backgroundWaiting keys
    induction keys with
    | nil => exact fun s => rfl
    | cons key keys ih =>
        intro s
        have hstart : ∀ background, (s.startRead key background).settled = s.settled := by
          intro background
          unfold Store.startRead
          split
          · rfl
          · rfl
        unfold Store.pumpLoop
        dsimp only
        split
        · rfl
        split
        · exact ih s
        split
        · exact ih s
        · exact (ih _).trans (hstart _)
  exact hloop _ _ s

theorem respond_settled (s : Store V) (time : Nat) (parts : List ResponsePart) (now : Nat) :
    (s.respond server time parts now).settled = s.settled := by
  have hepoch : (s.observeEpoch (server.epoch time) now).settled = s.settled := by
    unfold Store.observeEpoch
    split
    · rfl
    · split
      · rfl
      · exact pump_settled _ now
  unfold Store.respond
  generalize s.observeEpoch (server.epoch time) now = s₁ at hepoch
  induction parts generalizing s₁ with
  | nil => exact hepoch
  | cons part parts ih => exact ih _ ((pump_settled _ now).trans hepoch)

theorem beginPresentation_unresolved (ht : s.Tagged) (owner activationKey : String)
    (ids : List ResourceKey) (now : Nat) :
    Unresolved s (s.beginPresentation owner activationKey ids now) := by
  unfold Store.beginPresentation
  split
  · exact .of_eq rfl
  · have hquiet : Quiet (s.begun owner activationKey ids)
        (ids.foldl (fun s id => s.invalidate id now) (s.begun owner activationKey ids)) :=
      quiet_foldl (fun s id ht => invalidate_quiet ht id now) ids ht
    have hbegun : Unresolved s (s.begun owner activationKey ids) := .of_eq rfl
    exact hbegun.quiet hquiet

theorem refresh_settled (s : Store V) (key : ResourceKey) (now : Nat) :
    (s.refresh key now).settled = s.settled := by
  unfold Store.refresh
  split
  · rfl
  · exact pump_settled _ now

theorem write_settled (s : Store V) (key : ResourceKey) (supply : Store.Supplied V) (now : Nat) :
    (s.write catalog key supply now).settled = s.settled := by
  unfold Store.write
  split
  · rfl
  · exact pump_settled _ now

/-- The calls that a read resolves had waited for it, or for one before it. -/
theorem finishRead_resolves (h : w.Inv server) {read : Read} (hread : read ∈ w.store.reading)
    {outcome : Store.ReadOutcome V} {now : Nat} {call : RefreshCall}
    (hcall : (call, Settlement.resolved) ∈
      (w.store.finishRead catalog read outcome now).settled)
    (hnew : (call, Settlement.resolved) ∉ w.store.settled) :
    w.store.accepts read = true ∧ call.readsBefore < read.readStart ∧
      ∀ error, outcome = .failed error → error = none := by
  have hend : ∀ s : Store V, (s.endRead read).settled = s.settled := by
    intro s
    unfold Store.endRead Store.modify
    dsimp only
    split
    · rfl
    · rfl
  unfold Store.finishRead at hcall
  rw [pump_settled, hend] at hcall
  split at hcall
  · rename_i haccepts
    obtain ⟨st, hst, huid, -, -⟩ := (accepts_iff w.store read).mp haccepts
    obtain ⟨-, -, -, hwaiters⟩ := (h.reads read hread).state st hst huid
    have hready : ∀ error, (call, Settlement.resolved) ∈
        st.finishedRefreshes read.invalidation error →
        call.readsBefore < read.readStart ∧ error = none := by
      intro error hmem
      obtain ⟨waiter, hwaiter, heq⟩ := List.mem_map.mp hmem
      obtain ⟨hin, hle⟩ := List.mem_filter.mp hwaiter
      have hlt := hwaiters waiter hin (of_decide_eq_true hle)
      cases error with
      | none =>
          cases heq
          exact ⟨hlt, rfl⟩
      | some e => cases heq
    unfold Store.acceptRead at hcall
    rw [hst] at hcall
    cases outcome with
    | value value time =>
        obtain ⟨hlt, -⟩ := hready none ((List.mem_append.mp hcall).resolve_left hnew)
        refine ⟨haccepts, hlt, ?_⟩
        intro error heq
        cases heq
    | failed error =>
        obtain ⟨hlt, hnone⟩ := hready error ((List.mem_append.mp hcall).resolve_left hnew)
        refine ⟨haccepts, hlt, ?_⟩
        intro error' heq
        cases heq
        exact hnone
  · exact absurd hcall hnew

/-- The event is the end of an accepted read that started after the call. A read that ends
with an error resolves nothing unless the error is undefined. -/
def World.Resolves (w : World V) (event : Event V) (call : RefreshCall) : Prop :=
  ∃ readStart answer read, event.act = .finishRead readStart answer ∧
    w.read? readStart = some read ∧ w.store.accepts read = true ∧
    call.readsBefore < readStart ∧ ∀ error, answer = .failed error → error = none

theorem step_resolves (h : w.Inv server) {call : RefreshCall}
    (hcall : (call, Settlement.resolved) ∈ (w.step server event).store.settled) :
    (call, Settlement.resolved) ∈ w.store.settled ∨ w.Resolves event call := by
  by_cases hnew : (call, Settlement.resolved) ∈ w.store.settled
  · exact .inl hnew
  have hquiet : ∀ {s}, Quiet w.store s → (call, Settlement.resolved) ∈ s.settled →
      (call, Settlement.resolved) ∈ w.store.settled ∨ w.Resolves event call :=
    fun hq hcall => .inl (hq.resolved call hcall)
  have hsame : ∀ {s : Store V}, s.settled = w.store.settled →
      (call, Settlement.resolved) ∈ s.settled →
      (call, Settlement.resolved) ∈ w.store.settled ∨ w.Resolves event call :=
    fun heq hcall => .inl (by rw [← heq]; exact hcall)
  obtain ⟨now, act⟩ := event
  unfold World.step at hcall
  cases act with
  | tick => exact .inl hcall
  | register owner key => exact hquiet (register_quiet h.tagged owner key now) hcall
  | release owner ids => exact hquiet (release_quiet h.tagged owner ids) hcall
  | suspend owner ids => exact hquiet (suspend_quiet h.tagged owner ids) hcall
  | dropProject project => exact hquiet (dropProject_quiet h.tagged project) hcall
  | reset =>
      have hdrop : Quiet w.store
          (w.store.states.keys.foldl (fun s key => s.drop key "Resource store reset") w.store) :=
        quiet_foldl (fun s key _ => drop_quiet s key _) _ h.tagged
      exact hquiet hdrop hcall
  | attachScheduler attached => exact hsame rfl hcall
  | beginObservation project => exact hsame rfl hcall
  | failObservation ticket error => exact hsame rfl hcall
  | respond time parts =>
      dsimp only [World.respond] at hcall
      split at hcall
      · exact hsame (respond_settled w.store time parts now) hcall
      · exact .inl hcall
  | beginPresentation owner activationKey ids =>
      exact .inl (beginPresentation_unresolved h.tagged owner activationKey ids now call hcall)
  | endPresentation owner serial =>
      exact hquiet (endPresentation_quiet w.store owner serial) hcall
  | presentationView owner activationKey =>
      exact hquiet (presentationView_quiet w.store owner activationKey) hcall
  | setActiveProject project =>
      exact hquiet (Quiet.pump (quiet_slots w.store _ _ project _) h.tagged now) hcall
  | pump => exact hsame (pump_settled _ now) hcall
  | finishRead readStart answer =>
      dsimp only at hcall
      cases hread : w.read? readStart with
      | none =>
          rw [hread] at hcall
          exact .inl hcall
      | some read =>
          rw [hread] at hcall
          obtain ⟨hmem, hstart⟩ := mem_of_read? hread
          right
          cases answer with
          | sampled time =>
              dsimp only [World.finishRead] at hcall
              split at hcall
              · obtain ⟨haccepts, hlt, -⟩ := finishRead_resolves h hmem hcall hnew
                refine ⟨readStart, _, read, rfl, hread, haccepts, by omega, ?_⟩
                intro error heq
                cases heq
              · exact absurd hcall hnew
          | failed error =>
              obtain ⟨haccepts, hlt, herror⟩ := finishRead_resolves h hmem hcall hnew
              refine ⟨readStart, _, read, rfl, hread, haccepts, by omega, ?_⟩
              intro error' heq
              cases heq
              exact herror error rfl
  | beginMutation operationId effects =>
      exact hsame (beginEffects_settled operationId effects.entries _) hcall
  | settle order values =>
      dsimp only at hcall
      cases hcommand : w.command? order with
      | none =>
          rw [hcommand] at hcall
          exact .inl hcall
      | some command =>
          rw [hcommand] at hcall
          dsimp only [World.settle] at hcall
          split at hcall
          · exact hsame ((pump_settled _ now).trans (finishEffects_settled command _ _ _)) hcall
          · exact .inl hcall
  | fail order feedback =>
      dsimp only at hcall
      cases hcommand : w.command? order with
      | none =>
          rw [hcommand] at hcall
          exact .inl hcall
      | some command =>
          rw [hcommand] at hcall
          exact hquiet (fail_quiet h.tagged command feedback now) hcall
  | write key answer =>
      dsimp only [World.write] at hcall
      split at hcall
      · exact hsame (write_settled w.store key _ now) hcall
      · exact .inl hcall
  | endBackoff => exact hquiet (endBackoff_quiet h.tagged now) hcall
  | invalidate key => exact hquiet (invalidate_quiet h.tagged key now) hcall
  | refresh key => exact hsame (refresh_settled w.store key now) hcall
  | clearOverlay key operationId => exact hquiet (clearOverlay_quiet w.store key operationId) hcall

/-- Of every promise that resolved, the run has the read that resolved it. -/
theorem run_resolves (events : List (Event V)) {call : RefreshCall}
    (hcall : (call, Settlement.resolved) ∈
      ((World.initial V).run server events).store.settled) :
    ∃ before event after, events = before ++ event :: after ∧
      ((World.initial V).run server before).Resolves event call := by
  induction events using List.reverseRecOn with
  | nil => cases hcall
  | append_singleton events event ih =>
      unfold World.run at hcall
      rw [List.foldl_append] at hcall
      rcases step_resolves (run_inv server events) hcall with hold | hnow
      · obtain ⟨before, event', after, rfl, hresolves⟩ := ih hold
        exact ⟨before, event', after ++ [event], by simp, hresolves⟩
      · exact ⟨events, event, [], rfl, hnow⟩

end Promises

section Claims

theorem presentationView_admits {owner activationKey : String}
    {entry entry' : PresentationEntry} (hentry : s.presentations.get? owner = some entry)
    (hnot : entry.admitted = false)
    (hentry' : (s.presentationView owner activationKey).presentations.get? owner = some entry')
    (hadmitted : entry'.admitted = true) :
    entry'.ids = entry.ids ∧ entry'.serial = entry.serial ∧
      ∀ key ∈ entry.ids, s.admits entry key = true := by
  unfold Store.presentationView at hentry'
  rw [hentry] at hentry'
  dsimp only at hentry'
  split at hentry'
  · rw [hentry] at hentry'
    cases hentry'
    rw [hnot] at hadmitted
    cases hadmitted
  · dsimp only at hentry'
    rw [Dict.get?_insert, if_pos rfl] at hentry'
    obtain rfl := Option.some_inj.mp hentry'
    exact ⟨rfl, rfl, List.all_eq_true.mp hadmitted⟩

/-- A server whose value and token move twice. Of its keys, the graph's reconciles. -/
def steppingCatalog : Catalog Nat where
  watch := fun _ => []
  reconcile := fun key => if key.name = "graph" then some (reconcileGraph id) else none

def steppingToken (time : Nat) : String := String.ofList (List.replicate (min time 2) 'v')

theorem steppingToken_kept {i j k : Nat} (hij : i ≤ j) (hjk : j ≤ k)
    (h : steppingToken i = steppingToken k) : steppingToken j = steppingToken i := by
  have hlength : min i 2 = min k 2 := by
    have := congrArg (fun token => token.toList.length) h
    simpa [steppingToken] using this
  have hmin : min j 2 = min i 2 := by omega
  unfold steppingToken
  rw [hmin]

def steppingServer : Server steppingCatalog where
  epoch := fun _ => "epoch"
  token := fun time _ _ => steppingToken time
  value := fun time _ => min time 2
  epoch_kept := fun _ _ _ _ _ _ => rfl
  token_kept := fun _ _ _ _ _ hij hjk _ h => steppingToken_kept hij hjk h
  value_moves := by
    intro key i _ hmoves
    refine ⟨key.toResourceRequest, List.mem_cons_self, ?_⟩
    have hi : i = 0 ∨ i = 1 := by omega
    rcases hi with rfl | rfl
    · decide
    · decide

def steppingKey : ResourceKey where
  name := "tasks"
  ref := none
  entity := none
  backend := "local"
  member := "member"
  project := "project"
  query := none

theorem steppingServer_reconciles (key : ResourceKey) : steppingServer.Reconciles key := by
  by_cases hname : key.name = "graph"
  · refine Server.Reconciles.of_revision (if_pos hname) ?_
    intro i k hik
    show min i 2 ≤ min k 2
    omega
  · intro reconcile hreconcile
    rw [show steppingCatalog.reconcile key = none from if_neg hname] at hreconcile
    cases hreconcile

def graphKey : ResourceKey := { steppingKey with name := "graph" }

def graphPart (serial : Nat) : ResponsePart where
  project := "project"
  requests := [graphKey.toResourceRequest]
  ticket := { project := "project", serial }

/-- A read brings the graph, the server moves, a write brings what it has now, and reads
confirm it. -/
def settlingEvents : List (Event Nat) :=
  [ ⟨0, .attachScheduler true⟩, ⟨0, .register "tab" graphKey⟩,
    ⟨0, .beginObservation "project"⟩, ⟨0, .respond 0 [graphPart 1]⟩,
    ⟨0, .finishRead 1 (.sampled 0)⟩, ⟨0, .tick⟩, ⟨0, .write graphKey (.sampled 1)⟩,
    ⟨0, .beginObservation "project"⟩, ⟨0, .respond 1 [graphPart 2]⟩,
    ⟨0, .finishRead 2 (.sampled 1)⟩, ⟨0, .finishRead 3 (.sampled 1)⟩ ]

/-- What `Settled` asks of a state, put to the test. -/
def settledState (w : World Nat) (st : ResourceState Nat) : Bool :=
  st.watched && st.value.isSome && !st.owed && decide (st.committed = st.observed) &&
    st.inFlight.isNone && st.pending.isEmpty && st.asOf.isSome &&
    decide (st.observed = some (steppingServer.version w.clock graphKey))

/-- Two commands start on a key, the server moves twice, and the first of them settles. -/
def overtakingEvents : List (Event Nat) :=
  [ ⟨0, .attachScheduler true⟩, ⟨0, .register "tab" steppingKey⟩,
    ⟨0, .beginMutation "a" (Dict.ofList [(steppingKey, id)])⟩,
    ⟨0, .beginMutation "b" (Dict.ofList [(steppingKey, id)])⟩,
    ⟨0, .tick⟩, ⟨0, .tick⟩ ]

/-- The first of them, as it was in flight. -/
def steppingCommand : Command where
  order := 1
  operationId := "a"
  effects := [steppingKey]
  startedAt := Dict.ofList [(steppingKey, { uid := 0, generation := 0, reads := 0 })]

def laterSettles : Event Nat := ⟨0, .settle 1 (Dict.ofList [(steppingKey, .sampled 2)])⟩

def earlierAnswer : Event Nat := ⟨0, .settle 2 (Dict.ofList [(steppingKey, .sampled 1)])⟩

end Claims

end RcpGraph.Browser
