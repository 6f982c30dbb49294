import RcpGraph.Browser.Answers

/-!
Runs of the store against a server. What holds between events is kept by each of them; that
nothing settles on stale data, that an overtaken answer counts for nothing, what resolves a
refresh and what a presentation admits follow from it.
-/

namespace RcpGraph.Browser

universe u

variable {V : Type u} {catalog : Catalog V} {server : Server catalog} {w : World V}
  {s s' : Store V}

section Steps

/-- The store moved on, and what holds of the world still does. -/
def World.Carries (server : Server catalog) (w : World V) (s : Store V) : Prop :=
  (w.put s).Inv server ∧ Ages w.store s

theorem World.Inv.carries (h : w.Inv server) (hq : Quiet w.store s) : w.Carries server s :=
  ⟨h.quiet hq, hq.ages⟩

theorem World.Carries.quiet (h : w.Carries server s) (hq : Quiet s s') : w.Carries server s' :=
  ⟨h.1.then_quiet h.2 hq, h.2.trans hq.ages⟩

theorem World.Carries.pump (h : w.Carries server s) (now : Nat) :
    w.Carries server (s.pump now) := h.quiet (pump_quiet h.1.tagged now)

theorem write_carries (h : w.Inv server) {key : ResourceKey} {supply : Store.Supplied V}
    (hfits : FitsSince server w 0 key supply) (now : Nat) :
    w.Carries server (w.store.write catalog key supply now) := by
  unfold Store.write
  cases hst : w.store.states.get? key with
  | none => exact ⟨h.renew, Ages.refl _⟩
  | some st =>
      apply World.Carries.pump
      exact h.renew.written hst hfits _

theorem refresh_carries (h : w.Inv server) (key : ResourceKey) (now : Nat) :
    w.Carries server (w.store.refresh key now) := by
  unfold Store.refresh
  cases hst : w.store.states.get? key with
  | none => exact ⟨h.renew, Ages.refl _⟩
  | some st =>
      obtain ⟨hinv, hages⟩ := h.renew.waiting hst (w.store.refreshes + 1)
      apply World.Carries.pump
      exact ⟨hinv.promises _ _, hages.trans (ages_promises _ _ _)⟩

theorem presentation_carries (h : w.Inv server) (owner activationKey : String)
    (ids : List ResourceKey) (now : Nat) :
    w.Carries server (w.store.beginPresentation owner activationKey ids now) := by
  have hbegun : w.Carries server (w.store.begun owner activationKey ids) :=
    ⟨h.begun owner activationKey ids, begun_ages _ _ _ _⟩
  unfold Store.beginPresentation
  split
  · exact hbegun
  · exact hbegun.quiet (quiet_foldl (fun s key ht => invalidate_quiet ht key now) ids hbegun.1.tagged)

theorem endRead_quiet (s : Store V) (read : Read) : Quiet s (s.endRead read) := by
  have hmodify : Quiet s (s.modify read.key (Store.letGo read)) := by
    apply quiet_modify
    intro st
    unfold Store.letGo
    split
    · exact keeps_aside st _ _ _ _ _ _ _ _
    · exact Keeps.refl st
  exact (hmodify.trans (quiet_reading _ _)).trans (quiet_slots _ _ _ _ _)

theorem acceptRead_without (s : Store V) (read : Read) (now : Nat)
    (outcome : Store.ReadOutcome V) :
    (s.without read).acceptRead catalog read now outcome =
      (s.acceptRead catalog read now outcome).without read := by
  unfold Store.acceptRead
  rw [show (s.without read).states = s.states from rfl]
  split
  · rfl
  · rfl
  · rfl

/-- A read that has ended may as well have ended before. -/
theorem endRead_without (s : Store V) (read : Read) :
    (s.without read).endRead read = s.endRead read := by
  unfold Store.endRead Store.without Store.modify
  dsimp only
  split
  · simp only [List.filter_filter, Bool.and_self]
  · simp only [Store.setState, List.filter_filter, Bool.and_self]

/-- An answer that the server gives in the time of the read. -/
def Sampled (server : Server catalog) (w : World V) (read : Read)
    (outcome : Store.ReadOutcome V) : Prop :=
  ∀ value time, outcome = .value value time → w.startedAt read.readStart ≤ time ∧
    time ≤ w.clock ∧ value = server.value time read.key

/-- The state of a read is written if the read is still the one that counts. -/
theorem written_carries (h : w.Inv server) {read : Read} (hread : read ∈ w.store.reading)
    {outcome : Store.ReadOutcome V} (now : Nat) (hsample : Sampled server w read outcome) :
    w.Carries server ((if w.store.accepts read then w.store.acceptRead catalog read now outcome
      else w.store).without read) := by
  have hleft : Quiet w.store (w.store.without read) := quiet_reading _ _
  split
  · rename_i haccepts
    obtain ⟨st, hst, huid, hgen, hsequence⟩ := (accepts_iff w.store read).mp haccepts
    rw [← acceptRead_without]
    have hst' : (w.store.without read).states.get? read.key = some st := hst
    unfold Store.acceptRead
    rw [hst']
    cases outcome with
    | value value time =>
        obtain ⟨hstart, htime, rfl⟩ := hsample value time rfl
        have hinv := h.readState hread hst huid hgen hsequence hstart htime
        refine ⟨hinv.promises _ _,
          hleft.ages.trans ((setState_ages hst' ?_).trans (ages_promises _ _ _))⟩
        exact ⟨rfl, Nat.le_refl _, Nat.le_refl _, Nat.le_refl _, Nat.le_succ _, Nat.le_refl _⟩
    | failed error =>
        have hq := hleft.trans (quiet_insert hst' (keeps_failed read error now st))
        exact ⟨World.Inv.promises (h.quiet hq) _ _, hq.ages.trans (ages_promises _ _ _)⟩
  · exact h.carries hleft

theorem ended_carries (h : w.Inv server) {read : Read} (hread : read ∈ w.store.reading)
    {outcome : Store.ReadOutcome V} (now : Nat) (hsample : Sampled server w read outcome) :
    w.Carries server ((if w.store.accepts read then w.store.acceptRead catalog read now outcome
      else w.store).endRead read) := by
  rw [← endRead_without]
  exact (written_carries h hread now hsample).quiet (endRead_quiet _ read)

theorem finishRead_carries (h : w.Inv server) {read : Read} (hread : read ∈ w.store.reading)
    {outcome : Store.ReadOutcome V} (now : Nat) (hsample : Sampled server w read outcome) :
    w.Carries server (w.store.finishRead catalog read outcome now) :=
  (ended_carries h hread now hsample).pump now

theorem settle_carries (h : w.Inv server) {command : Command}
    (hcommand : command ∈ w.store.commands) {values : Dict ResourceKey (Store.Supplied V)}
    (hfits : ∀ key supply, values.get? key = some supply → FitsCommand server w command key supply)
    (now : Nat) : w.Carries server (w.store.finish catalog command (.settled values) now) := by
  have hfits' : ∀ key supply, values.get? key = some supply →
      FitsCommand server (w.put w.store) command key supply := by
    intro key supply hsupply t ht
    obtain ⟨hstart, hrest⟩ := hfits key supply hsupply t ht
    refine ⟨?_, hrest⟩
    rw [show (w.put w.store).commandAt command.order = w.commandAt command.order from
      stamped_of_le (h.commands command hcommand).order]
    exact hstart
  apply World.Carries.pump
  exact ⟨h.renew.finishEffects hcommand hfits' command.effects, finishEffects_ages command _ _ _⟩

theorem observeEpoch_carries (h : w.Inv server) (epoch : String) (now : Nat) :
    w.Carries server (w.store.observeEpoch epoch now) ∧
      (w.store.observeEpoch epoch now).epoch = some epoch := by
  unfold Store.observeEpoch
  split
  · rename_i hsame
    exact ⟨⟨h.renew, Ages.refl _⟩, hsame⟩
  · split
    · rename_i hnone
      exact ⟨⟨h.renew.firstEpoch hnone epoch, { Ages.refl _ with }⟩, rfl⟩
    · have hnew : w.Carries server (w.store.newEpoch epoch) :=
        ⟨h.renew.newEpoch epoch, newEpoch_ages _ _⟩
      exact ⟨hnew.pump now, (pump_quiet hnew.1.tagged now).epoch⟩

/-- The watermarks of a response, one project after the other. -/
theorem observes_carries (h : w.Inv server) {time : Nat} (htime : time ≤ w.clock)
    {parts : List ResponsePart} (hparts : ∀ part ∈ parts, part.ticket ∈ w.tickets ∧
      w.issuedAt part.ticket.serial ≤ time) (now : Nat) (hcarries : w.Carries server s)
    (hepoch : s.epoch = some (server.epoch time)) :
    w.Carries server (parts.foldl (fun s part => s.observe catalog part.project
      (server.watermarks time part) part.ticket now) s) ∧
    Ages s (parts.foldl (fun s part => s.observe catalog part.project
      (server.watermarks time part) part.ticket now) s) := by
  induction parts generalizing s with
  | nil => exact ⟨hcarries, Ages.refl _⟩
  | cons part parts ih =>
      obtain ⟨hticket, hissued⟩ := hparts part List.mem_cons_self
      have hissued' : (w.put s).issuedAt part.ticket.serial ≤ time := by
        rw [show (w.put s).issuedAt part.ticket.serial = w.issuedAt part.ticket.serial from
          stamped_of_le (h.tickets part.ticket hticket)]
        exact hissued
      have hages : Ages s (s.observing catalog part.project (server.watermarks time part)
        part.ticket) := observing_ages s part.ticket
      have hobserving : w.Carries server (s.observing catalog part.project
          (server.watermarks time part) part.ticket) :=
        ⟨hcarries.1.observing hepoch htime hticket hissued', hcarries.2.trans hages⟩
      have hpump := pump_quiet hobserving.1.tagged now
      rw [List.foldl_cons]
      obtain ⟨hrest, hages'⟩ := ih (fun part' hpart' => hparts part' (List.mem_cons_of_mem part hpart'))
        (hobserving.pump now) (hpump.epoch.trans hepoch)
      exact ⟨hrest, (hages.trans hpump.ages).trans hages'⟩

theorem respond_carries (h : w.Inv server) {time : Nat} (htime : time ≤ w.clock)
    {parts : List ResponsePart} (hparts : ∀ part ∈ parts, part.ticket ∈ w.tickets ∧
      w.issuedAt part.ticket.serial ≤ time) (now : Nat) :
    w.Carries server (w.store.respond server time parts now) ∧
      Ages (w.store.observeEpoch (server.epoch time) now)
        (w.store.respond server time parts now) := by
  obtain ⟨hcarries, hepoch⟩ := observeEpoch_carries h (server.epoch time) now
  exact observes_carries h htime hparts now hcarries hepoch

theorem mem_of_read? {readStart : Nat} {read : Read} (h : w.read? readStart = some read) :
    read ∈ w.store.reading ∧ read.readStart = readStart := by
  refine ⟨List.mem_of_find?_eq_some h, ?_⟩
  have hfound := List.find?_some h
  exact of_decide_eq_true hfound

theorem mem_of_command? {order : Nat} {command : Command} (h : w.command? order = some command) :
    command ∈ w.store.commands ∧ command.order = order := by
  refine ⟨List.mem_of_find?_eq_some h, ?_⟩
  have hfound := List.find?_some h
  exact of_decide_eq_true hfound

theorem supplied_fits {start : Nat} {key : ResourceKey} {answer : CommandAnswer V}
    (h : w.inTime start answer = true) :
    FitsSince server w start key (answer.supplied server key) := by
  intro t ht
  cases answer with
  | sampled time =>
      obtain rfl := Option.some_inj.mp ht
      rw [World.inTime, Bool.and_eq_true, decide_eq_true_eq, decide_eq_true_eq] at h
      exact ⟨h.1, h.2, rfl⟩
  | other value => cases ht

/-- The values that a command's response may carry. -/
theorem fits_of_inTime {command : Command} {values : Dict ResourceKey (CommandAnswer V)}
    (h : values.entries.all fun e => w.inTime (w.commandAt command.order) e.2) :
    ∀ key supply, (values.map fun key answer => answer.supplied server key).get? key =
      some supply → FitsCommand server w command key supply := by
  intro key supply hsupply
  rw [Dict.get?_map] at hsupply
  obtain ⟨answer, hanswer, rfl⟩ := Option.map_eq_some_iff.mp hsupply
  exact supplied_fits
    (List.all_eq_true.mp h (key, answer) ((Dict.get?_eq_some_iff _ _ _).mp hanswer))

theorem World.Inv.ticked (h : w.Inv server) :
    ({ w with clock := w.clock + 1 } : World V).Inv server := by
  refine ⟨?_, ?_, ?_, ?_, h.tickets, h.sorted⟩
  · intro key st hst
    have hok := h.states key st hst
    refine ⟨hok.uid, hok.reads, ?_, ?_, ?_, hok.fresh, hok.waiters⟩
    · intro version hv
      obtain ⟨t, ht, hs⟩ := hok.observed version hv
      exact ⟨t, Nat.le_succ_of_le ht, hs⟩
    · intro version hv
      obtain ⟨t, ht, hs⟩ := hok.committed version hv
      exact ⟨t, Nat.le_succ_of_le ht, hs⟩
    · intro t ht
      obtain ⟨hclock, hvalue⟩ := hok.asOf t ht
      exact ⟨Nat.le_succ_of_le hclock, hvalue⟩
  · intro read hread
    have hok := h.reads read hread
    exact ⟨hok.started, Nat.le_succ_of_le hok.time, hok.begun, hok.uid, hok.state, hok.since⟩
  · intro command hcommand
    have hok := h.commands command hcommand
    exact ⟨hok.order, Nat.le_succ_of_le hok.time, hok.states⟩
  · intro owner entry hentry
    have hok := h.entries owner entry hentry
    refine ⟨hok.serial, Nat.le_succ_of_le hok.time, hok.tickets, ?_⟩
    intro key proof hproof
    obtain ⟨t, hb, ht, hs⟩ := hok.proofs key proof hproof
    exact ⟨t, hb, Nat.le_succ_of_le ht, hs⟩

/-- Every event keeps what holds of the world. -/
theorem step_carries (h : w.Inv server) (event : Event V) :
    (w.step server event).Inv server ∧ Ages w.store (w.step server event).store := by
  have hquiet : ∀ {s}, Quiet w.store s → (w.put s).Inv server ∧ Ages w.store (w.put s).store :=
    fun hq => h.carries hq
  obtain ⟨now, act⟩ := event
  unfold World.step
  cases act with
  | tick => exact ⟨h.ticked, Ages.refl _⟩
  | register owner key => exact hquiet (register_quiet h.tagged owner key now)
  | release owner ids => exact hquiet (release_quiet h.tagged owner ids)
  | suspend owner ids => exact hquiet (suspend_quiet h.tagged owner ids)
  | dropProject project => exact hquiet (dropProject_quiet h.tagged project)
  | reset => exact h.reset
  | attachScheduler attached => exact hquiet (quiet_slots w.store _ _ _ attached)
  | beginObservation project =>
      exact ⟨h.asked project, { Ages.refl w.store with observationSerial := Nat.le_succ _ }⟩
  | failObservation ticket error => exact hquiet (failObservation_quiet w.store ticket error)
  | respond time parts =>
      unfold World.respond
      dsimp only
      split
      · rename_i hguard
        rw [Bool.and_eq_true, decide_eq_true_eq, List.all_eq_true] at hguard
        refine (respond_carries h hguard.1 ?_ now).1
        intro part hpart
        have := hguard.2 part hpart
        rw [Bool.and_eq_true, decide_eq_true_eq, decide_eq_true_eq] at this
        exact this
      · exact ⟨h, Ages.refl _⟩
  | beginPresentation owner activationKey ids =>
      exact presentation_carries h owner activationKey ids now
  | endPresentation owner serial => exact hquiet (endPresentation_quiet w.store owner serial)
  | presentationView owner activationKey =>
      exact hquiet (presentationView_quiet w.store owner activationKey)
  | setActiveProject project =>
      exact hquiet (Quiet.pump (quiet_slots w.store _ _ project _) h.tagged now)
  | pump => exact hquiet (pump_quiet h.tagged now)
  | finishRead readStart answer =>
      dsimp only
      cases hread : w.read? readStart with
      | none => exact ⟨h, Ages.refl _⟩
      | some read =>
          have hmem := (mem_of_read? hread).1
          cases answer with
          | sampled time =>
              unfold World.finishRead
              dsimp only
              split
              · rename_i hguard
                apply finishRead_carries h hmem now
                intro value time heq
                cases heq
                exact ⟨hguard.1, hguard.2, rfl⟩
              · exact ⟨h, Ages.refl _⟩
          | failed error =>
              apply finishRead_carries h hmem now
              intro value time heq
              cases heq
  | beginMutation operationId effects =>
      exact ⟨h.mutated operationId effects, beginMutation_ages h.tagged operationId effects⟩
  | settle order values =>
      dsimp only
      cases hcommand : w.command? order with
      | none => exact ⟨h, Ages.refl _⟩
      | some command =>
          dsimp only
          unfold World.settle
          split
          · rename_i hguard
            exact settle_carries h (mem_of_command? hcommand).1 (fits_of_inTime hguard) now
          · exact ⟨h, Ages.refl _⟩
  | fail order feedback =>
      dsimp only
      cases w.command? order with
      | none => exact ⟨h, Ages.refl _⟩
      | some command => exact hquiet (fail_quiet h.tagged command feedback now)
  | write key answer =>
      dsimp only
      unfold World.write
      split
      · rename_i hguard
        exact write_carries h (supplied_fits hguard) now
      · exact ⟨h, Ages.refl _⟩
  | endBackoff => exact hquiet (endBackoff_quiet h.tagged now)
  | invalidate key => exact hquiet (invalidate_quiet h.tagged key now)
  | refresh key => exact refresh_carries h key now
  | clearOverlay key operationId => exact hquiet (clearOverlay_quiet w.store key operationId)

theorem run_carries (h : w.Inv server) (events : List (Event V)) :
    (w.run server events).Inv server ∧ Ages w.store (w.run server events).store := by
  induction events generalizing w with
  | nil => exact ⟨h, Ages.refl _⟩
  | cons event events ih =>
      obtain ⟨hinv, hages⟩ := step_carries h event
      obtain ⟨hinv', hages'⟩ := ih hinv
      exact ⟨hinv', hages.trans hages'⟩

end Steps

section Settled

variable {key : ResourceKey} {st : ResourceState V}

/-- A state with a value, no debt and nothing in flight or pending, whose observed version
is the one that the server has now. -/
structure Settled (server : Server catalog) (w : World V) (key : ResourceKey)
    (st : ResourceState V) : Prop where
  state : w.store.states.get? key = some st
  watched : st.watched = true
  value : st.value.isSome
  owed : st.owed = false
  committed : st.committed = st.observed
  inFlight : st.inFlight = none
  pending : st.pending = []
  asOf : st.asOf.isSome
  epoch : w.store.epoch = some (server.epoch w.clock)
  observed : st.observed = some (server.version w.clock key)

theorem Settled.current (h : w.Inv server) (hlaw : server.Reconciles key)
    (hs : Settled server w key st) : st.value = some (server.value w.clock key) := by
  have hok := h.states key st hs.state
  obtain ⟨t, hasOf⟩ := Option.isSome_iff_exists.mp hs.asOf
  obtain ⟨ht, hvalue⟩ := hok.asOf t hasOf
  obtain ⟨hversion, -⟩ := hok.fresh t hasOf hs.owed
  obtain ⟨t', ht', hepoch, hseen⟩ := hversion _ (hs.committed.trans hs.observed)
  have he : server.epoch t' = server.epoch w.clock :=
    Option.some_inj.mp (hepoch.symm.trans hs.epoch)
  have hstart := server.value_eq_of_version key he hseen ht' ht
  have hend := server.value_eq_of_version key he hseen
    (Nat.le_trans ht' ht) (Nat.le_refl _)
  rw [hvalue hlaw, hstart, hend]

/-- A presentation admits what the server had since it began. -/
theorem admits_fresh (h : w.Inv server) {owner : String} {entry : PresentationEntry}
    (hentry : w.store.presentations.get? owner = some entry)
    (hadmits : w.store.admits entry key = true) :
    ∃ st value, w.store.states.get? key = some st ∧ st.value = some value ∧
      (server.Reconciles key → st.asOf.isSome → ∃ t, w.begunAt entry.serial ≤ t ∧
        t ≤ w.clock ∧ value = server.value t key) := by
  unfold Store.admits at hadmits
  cases hst : w.store.states.get? key with
  | none =>
      rw [hst] at hadmits
      cases hadmits
  | some st =>
      rw [hst] at hadmits
      dsimp only at hadmits
      split at hadmits
      · cases hadmits
      · rename_i hcheck
        simp only [Bool.or_eq_true, decide_eq_true_eq, not_or, Bool.not_eq_true] at hcheck
        obtain ⟨⟨hsome, howed⟩, hepoch⟩ := hcheck
        obtain ⟨value, hvalue⟩ : ∃ value, st.value = some value := by
          cases hv : st.value with
          | none =>
              rw [hv] at hsome
              cases hsome
          | some value => exact ⟨value, rfl⟩
        refine ⟨st, value, rfl, hvalue, ?_⟩
        intro hlaw hasOf
        have hok := h.states key st hst
        obtain ⟨t, hasOf⟩ := Option.isSome_iff_exists.mp hasOf
        obtain ⟨ht, hst'⟩ := hok.asOf t hasOf
        have hv := Option.some_inj.mp (hvalue.symm.trans (hst' hlaw))
        obtain ⟨hversion, hbegun⟩ := hok.fresh t hasOf howed
        split at hadmits
        · exact ⟨t, hbegun owner entry hentry (of_decide_eq_true hadmits), ht, hv⟩
        · split at hadmits
          · cases hadmits
          · rename_i proof hproof
            rw [Bool.and_eq_true, decide_eq_true_eq, decide_eq_true_eq] at hadmits
            obtain ⟨hproofEpoch, hcommitted⟩ := hadmits
            obtain ⟨t', ht', hseenEpoch, hseen⟩ := hversion _ hcommitted.symm
            obtain ⟨u, hu, hu', hproofSeen, hproofVersion⟩ :=
              (h.entries owner entry hentry).proofs key proof hproof
            have he : server.epoch t' = server.epoch u := by
              have hsame : st.valueEpoch = w.store.epoch := not_not.mp hepoch
              rw [hproofSeen, hsame, hseenEpoch] at hproofEpoch
              exact (Option.some_inj.mp hproofEpoch).symm
            -- the proof confirms an older sample, and a newer one needs no proof
            by_cases hlate : t ≤ u
            · have hstart := server.value_eq_of_version key he
                (hseen.trans hproofVersion.symm) ht' hlate
              have hend := server.value_eq_of_version key he
                (hseen.trans hproofVersion.symm) (Nat.le_trans ht' hlate) (Nat.le_refl _)
              exact ⟨u, hu, hu', by rw [hv, hstart, hend]⟩
            · exact ⟨t, by omega, ht, hv⟩

end Settled

end RcpGraph.Browser
