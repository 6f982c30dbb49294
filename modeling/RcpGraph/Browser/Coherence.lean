import RcpGraph.Browser.World

/-!
What holds of a store between any two events. A version that a state has observed or
committed is one that the server had in the store's epoch; a value that is the server's
was sampled after its committed version, and so was what a command in flight may replace.
-/

namespace RcpGraph.Browser

universe u

variable {V : Type u} {catalog : Catalog V} {server : Server catalog}

/-- The server had the version at a moment of the epoch. -/
def Seen (server : Server catalog) (epoch : Option String) (key : ResourceKey)
    (version : Version) (time : Nat) : Prop :=
  epoch = some (server.epoch time) ∧ server.version time key = version

/-- Every presentation that asks for reads from `start` on began by `time`. -/
def World.BegunBy (w : World V) (start time : Nat) : Prop :=
  ∀ owner entry, w.store.presentations.get? owner = some entry → entry.minimumRead ≤ start →
    w.begunAt entry.serial ≤ time

structure StateOk (server : Server catalog) (w : World V) (key : ResourceKey)
    (st : ResourceState V) : Prop where
  uid : st.uid < w.store.nextUid
  reads : st.acceptedReadStart ≤ w.store.reads
  observed : ∀ version, st.observed = some version →
    ∃ t ≤ w.clock, Seen server w.store.epoch key version t
  committed : ∀ version, st.committed = some version →
    ∃ t ≤ w.clock, Seen server w.store.epoch key version t
  asOf : ∀ t, st.asOf = some t → t ≤ w.clock ∧
    (server.Reconciles key → st.value = some (server.value t key))
  fresh : ∀ t, st.asOf = some t → st.owed = false →
    (∀ version, st.committed = some version →
      ∃ t' ≤ t, Seen server w.store.epoch key version t') ∧
    w.BegunBy st.acceptedReadStart t
  waiters : ∀ waiter ∈ st.waiters, waiter.invalidation ≤ st.invalidations ∧
    waiter.call.readsBefore ≤ w.store.reads

/-- What a read in flight knows of its state. -/
structure ReadOk (server : Server catalog) (w : World V) (read : Read) : Prop where
  started : read.readStart ≤ w.store.reads
  time : w.startedAt read.readStart ≤ w.clock
  begun : w.BegunBy read.readStart (w.startedAt read.readStart)
  uid : read.uid < w.store.nextUid
  state : ∀ st, w.store.states.get? read.key = some st → st.uid = read.uid →
    read.generation ≤ st.generation ∧ read.invalidation ≤ st.invalidations ∧
    (st.generation = read.generation → ∀ version, read.version = some version →
      ∃ t ≤ w.startedAt read.readStart, Seen server w.store.epoch read.key version t) ∧
    ∀ waiter ∈ st.waiters, waiter.invalidation ≤ read.invalidation →
      waiter.call.readsBefore < read.readStart
  since : ∀ st, w.store.states.get? read.key = some st → st.uid = read.uid →
    st.sequence = read.sequence → ∀ t, st.asOf = some t → t ≤ w.startedAt read.readStart

/-- What a command in flight knows of the states it affects. -/
structure CommandOk (server : Server catalog) (w : World V) (command : Command) : Prop where
  order : command.order ≤ w.store.mutations
  time : w.commandAt command.order ≤ w.clock
  states : ∀ key start, command.startedAt.get? key = some start → start.uid < w.store.nextUid ∧
    ∀ st, w.store.states.get? key = some st → st.uid = start.uid →
      start.generation ≤ st.generation ∧ start.reads ≤ st.acceptedReads ∧
      (start.generation = st.generation → start.reads = st.acceptedReads →
        (∀ version, st.committed = some version →
          ∃ t ≤ w.commandAt command.order, Seen server w.store.epoch key version t) ∧
        w.BegunBy st.acceptedReadStart (w.commandAt command.order))

structure EntryOk (server : Server catalog) (w : World V) (entry : PresentationEntry) : Prop where
  serial : entry.serial ≤ w.store.presentationSerial
  time : w.begunAt entry.serial ≤ w.clock
  tickets : ∀ ticket ∈ w.tickets, entry.minimumObservation ≤ ticket.serial →
    w.begunAt entry.serial ≤ w.issuedAt ticket.serial
  proofs : ∀ key proof, entry.proofs.get? key = some proof →
    ∃ t, w.begunAt entry.serial ≤ t ∧ t ≤ w.clock ∧ Seen server proof.epoch key proof.version t

/-- Of one state, a later read in flight has a later sequence. -/
def ReadOrder (a b : Read) : Prop :=
  a.readStart < b.readStart ∧ (a.key = b.key → a.uid = b.uid → a.sequence < b.sequence)

/-- The reads in flight stand in the order of their starts. -/
structure Store.Sorted (s : Store V) : Prop where
  order : s.reading.Pairwise ReadOrder
  started : ∀ read ∈ s.reading, read.readStart ≤ s.reads ∧ read.uid < s.nextUid
  sequence : ∀ read ∈ s.reading, ∀ st, s.states.get? read.key = some st → st.uid = read.uid →
    read.sequence ≤ st.sequence

/-- Identities are given out in order. -/
def Store.Tagged (s : Store V) : Prop :=
  ∀ key st, s.states.get? key = some st → st.uid < s.nextUid

structure World.Inv (server : Server catalog) (w : World V) : Prop where
  states : ∀ key st, w.store.states.get? key = some st → StateOk server w key st
  reads : ∀ read ∈ w.store.reading, ReadOk server w read
  commands : ∀ command ∈ w.store.commands, CommandOk server w command
  entries : ∀ owner entry, w.store.presentations.get? owner = some entry → EntryOk server w entry
  tickets : ∀ ticket ∈ w.tickets, ticket.serial ≤ w.store.observationSerial
  sorted : w.store.Sorted

theorem World.initial_inv : (World.initial V).Inv server where
  states := by intro key st h; cases h
  reads := by intro read h; cases h
  commands := by intro command h; cases h
  entries := by intro owner entry h; cases h
  tickets := by intro ticket h; cases h
  sorted :=
    { order := List.Pairwise.nil
      started := by intro read h; cases h
      sequence := by intro read h; cases h }

/-- What of a state only grows. -/
structure Older (st st' : ResourceState V) : Prop where
  uid : st'.uid = st.uid
  generation : st.generation ≤ st'.generation
  sequence : st.sequence ≤ st'.sequence
  invalidations : st.invalidations ≤ st'.invalidations
  acceptedReads : st.acceptedReads ≤ st'.acceptedReads
  settledMutation : st.settledMutation ≤ st'.settledMutation

theorem Older.refl (st : ResourceState V) : Older st st :=
  ⟨rfl, Nat.le_refl _, Nat.le_refl _, Nat.le_refl _, Nat.le_refl _, Nat.le_refl _⟩

theorem Older.trans {st st' st'' : ResourceState V} (h : Older st st') (h' : Older st' st'') :
    Older st st'' :=
  ⟨h'.uid.trans h.uid, Nat.le_trans h.generation h'.generation,
    Nat.le_trans h.sequence h'.sequence, Nat.le_trans h.invalidations h'.invalidations,
    Nat.le_trans h.acceptedReads h'.acceptedReads,
    Nat.le_trans h.settledMutation h'.settledMutation⟩

/-- What of a store only grows. A state that is new has a new identity. -/
structure Ages (s s' : Store V) : Prop where
  nextUid : s.nextUid ≤ s'.nextUid
  reads : s.reads ≤ s'.reads
  mutations : s.mutations ≤ s'.mutations
  observationSerial : s.observationSerial ≤ s'.observationSerial
  presentationSerial : s.presentationSerial ≤ s'.presentationSerial
  states : ∀ key st', s'.states.get? key = some st' →
    (∃ st, s.states.get? key = some st ∧ Older st st') ∨ s.nextUid ≤ st'.uid
  reading : ∀ read ∈ s'.reading, read ∈ s.reading ∨ s.reads < read.readStart
  commands : ∀ command ∈ s'.commands, command ∈ s.commands ∨ s.mutations < command.order

variable {s s' s'' : Store V}

theorem Ages.refl (s : Store V) : Ages s s where
  nextUid := Nat.le_refl _
  reads := Nat.le_refl _
  mutations := Nat.le_refl _
  observationSerial := Nat.le_refl _
  presentationSerial := Nat.le_refl _
  states _ st h := .inl ⟨st, h, Older.refl st⟩
  reading _ h := .inl h
  commands _ h := .inl h

theorem Ages.trans (h : Ages s s') (h' : Ages s' s'') : Ages s s'' where
  nextUid := Nat.le_trans h.nextUid h'.nextUid
  reads := Nat.le_trans h.reads h'.reads
  mutations := Nat.le_trans h.mutations h'.mutations
  observationSerial := Nat.le_trans h.observationSerial h'.observationSerial
  presentationSerial := Nat.le_trans h.presentationSerial h'.presentationSerial
  states key st'' hst'' := by
    rcases h'.states key st'' hst'' with ⟨st', hst', hold'⟩ | hnew
    · rcases h.states key st' hst' with ⟨st, hst, hold⟩ | hnew
      · exact .inl ⟨st, hst, hold.trans hold'⟩
      · right
        rw [hold'.uid]
        exact hnew
    · exact .inr (Nat.le_trans h.nextUid hnew)
  reading read hread := by
    rcases h'.reading read hread with hold | hnew
    · exact h.reading read hold
    · exact .inr (Nat.lt_of_le_of_lt h.reads hnew)
  commands command hcommand := by
    rcases h'.commands command hcommand with hold | hnew
    · exact h.commands command hold
    · exact .inr (Nat.lt_of_le_of_lt h.mutations hnew)

section Stamps

variable {times : Nat → Nat} {last last' now n : Nat}

theorem stamped_of_le (h : n ≤ last) : stamped times last now n = times n :=
  if_neg (Nat.not_lt.mpr h)

theorem stamped_of_lt (h : last < n) : stamped times last now n = now := if_pos h

theorem stamped_stamped (h : last ≤ last') :
    stamped (stamped times last now) last' now = stamped times last now := by
  funext n
  unfold stamped
  by_cases h' : last' < n
  · rw [if_pos h', if_pos (by omega)]
  · rw [if_neg h']

theorem World.put_put {w : World V} (h : Ages w.store s) : (w.put s).put s' = w.put s' := by
  unfold World.put
  dsimp only
  rw [stamped_stamped h.reads, stamped_stamped h.mutations, stamped_stamped h.observationSerial,
    stamped_stamped h.presentationSerial]

end Stamps

section Frames

/-- A change of a state that its value and its versions do not see. -/
structure Keeps (st st' : ResourceState V) : Prop extends Older st st' where
  value : st'.value = st.value
  asOf : st'.asOf = st.asOf
  owed : st'.owed = false → st.owed = false
  committed : st'.committed = st.committed
  observed : st'.observed = st.observed
  reads : st'.acceptedReads = st.acceptedReads
  acceptedReadStart : st'.acceptedReadStart = st.acceptedReadStart
  waiters : ∀ waiter ∈ st'.waiters, waiter ∈ st.waiters

theorem Keeps.refl (st : ResourceState V) : Keeps st st :=
  ⟨Older.refl st, rfl, rfl, id, rfl, rfl, rfl, rfl, fun _ h => h⟩

theorem Keeps.trans {st st' st'' : ResourceState V} (h : Keeps st st') (h' : Keeps st' st'') :
    Keeps st st'' :=
  ⟨h.toOlder.trans h'.toOlder, h'.value.trans h.value, h'.asOf.trans h.asOf,
    fun howed => h.owed (h'.owed howed), h'.committed.trans h.committed, h'.observed.trans h.observed, h'.reads.trans h.reads,
    h'.acceptedReadStart.trans h.acceptedReadStart,
    fun waiter hw => h.waiters waiter (h'.waiters waiter hw)⟩

/-- A state that was registered and has nothing yet. -/
structure Blank (st : ResourceState V) : Prop where
  asOf : st.asOf = none
  committed : st.committed = none
  observed : st.observed = none
  acceptedReadStart : st.acceptedReadStart = 0
  waiters : st.waiters = []

theorem Blank.keeps {st st' : ResourceState V} (h : Blank st) (hk : Keeps st st') : Blank st' :=
  ⟨hk.asOf.trans h.asOf, hk.committed.trans h.committed, hk.observed.trans h.observed,
    hk.acceptedReadStart.trans h.acceptedReadStart, by
      apply List.eq_nil_iff_forall_not_mem.mpr
      intro waiter hw
      have hmem := hk.waiters waiter hw
      rw [h.waiters] at hmem
      cases hmem⟩

/-- A read that has just started from what its state has observed. -/
structure Begun (s : Store V) (read : Read) : Prop where
  started : read.readStart ≤ s.reads
  uid : read.uid < s.nextUid
  state : ∀ st, s.states.get? read.key = some st → st.uid = read.uid →
    read.generation ≤ st.generation ∧ read.invalidation ≤ st.invalidations ∧
      read.version = st.observed

/-- A presentation asks for the same, and has no new proof. -/
structure SameEntry (entry entry' : PresentationEntry) : Prop where
  serial : entry'.serial = entry.serial
  minimumObservation : entry'.minimumObservation = entry.minimumObservation
  minimumRead : entry'.minimumRead = entry.minimumRead
  proofs : ∀ key proof, entry'.proofs.get? key = some proof → entry.proofs.get? key = some proof

theorem SameEntry.refl (entry : PresentationEntry) : SameEntry entry entry :=
  ⟨rfl, rfl, rfl, fun _ _ h => h⟩

theorem SameEntry.trans {a b c : PresentationEntry} (h : SameEntry a b) (h' : SameEntry b c) :
    SameEntry a c :=
  ⟨h'.serial.trans h.serial, h'.minimumObservation.trans h.minimumObservation,
    h'.minimumRead.trans h.minimumRead,
    fun key proof hp => h.proofs key proof (h'.proofs key proof hp)⟩

/-- A change of the store that brings no value, no version and no command: reads may
start, and states may come and go. -/
structure Quiet (s s' : Store V) : Prop where
  ages : Ages s s'
  epoch : s'.epoch = s.epoch
  commands : ∀ command ∈ s'.commands, command ∈ s.commands
  states : ∀ key st', s'.states.get? key = some st' →
    (∃ st, s.states.get? key = some st ∧ Keeps st st') ∨
      (Blank st' ∧ s.nextUid ≤ st'.uid ∧ st'.uid < s'.nextUid)
  entries : ∀ owner entry', s'.presentations.get? owner = some entry' →
    ∃ entry, s.presentations.get? owner = some entry ∧ SameEntry entry entry'
  reading : ∀ read ∈ s'.reading, read ∈ s.reading ∨ (s.reads < read.readStart ∧ Begun s' read)
  sorted : s.Sorted → s'.Sorted
  resolved : ∀ call, (call, Settlement.resolved) ∈ s'.settled →
    (call, Settlement.resolved) ∈ s.settled

theorem Quiet.refl (s : Store V) : Quiet s s where
  ages := Ages.refl s
  epoch := rfl
  commands _ h := h
  states _ st h := .inl ⟨st, h, Keeps.refl st⟩
  entries _ entry h := ⟨entry, h, SameEntry.refl entry⟩
  reading _ h := .inl h
  sorted h := h
  resolved _ h := h

/-- What has begun goes on through a quiet change. -/
theorem Begun.quiet {read : Read} (h : Begun s read) (hq : Quiet s s') : Begun s' read := by
  refine ⟨Nat.le_trans h.started hq.ages.reads, Nat.lt_of_lt_of_le h.uid hq.ages.nextUid, ?_⟩
  intro st' hst' huid
  rcases hq.states read.key st' hst' with ⟨st, hst, hkeeps⟩ | ⟨-, hnew, -⟩
  · obtain ⟨hg, hi, hv⟩ := h.state st hst (hkeeps.uid.symm.trans huid)
    exact ⟨Nat.le_trans hg hkeeps.generation, Nat.le_trans hi hkeeps.invalidations,
      hv.trans hkeeps.observed.symm⟩
  · have := h.uid
    omega

theorem Quiet.trans (h : Quiet s s') (h' : Quiet s' s'') : Quiet s s'' where
  ages := h.ages.trans h'.ages
  epoch := h'.epoch.trans h.epoch
  commands command hc := h.commands command (h'.commands command hc)
  states key st'' hst'' := by
    rcases h'.states key st'' hst'' with ⟨st', hst', hkeeps'⟩ | ⟨hblank, hnew, hlt⟩
    · rcases h.states key st' hst' with ⟨st, hst, hkeeps⟩ | ⟨hblank, hnew, hlt⟩
      · exact .inl ⟨st, hst, hkeeps.trans hkeeps'⟩
      · right
        rw [hkeeps'.uid]
        exact ⟨hblank.keeps hkeeps', hnew, Nat.lt_of_lt_of_le hlt h'.ages.nextUid⟩
    · exact .inr ⟨hblank, Nat.le_trans h.ages.nextUid hnew, hlt⟩
  entries owner entry'' hentry'' := by
    obtain ⟨entry', hentry', hsame'⟩ := h'.entries owner entry'' hentry''
    obtain ⟨entry, hentry, hsame⟩ := h.entries owner entry' hentry'
    exact ⟨entry, hentry, hsame.trans hsame'⟩
  reading read hread := by
    rcases h'.reading read hread with hold | ⟨hlt, hbegun⟩
    · rcases h.reading read hold with hold | ⟨hlt, hbegun⟩
      · exact .inl hold
      · exact .inr ⟨hlt, hbegun.quiet h'⟩
    · exact .inr ⟨Nat.lt_of_le_of_lt h.ages.reads hlt, hbegun⟩
  sorted hs := h'.sorted (h.sorted hs)
  resolved call hc := h.resolved call (h'.resolved call hc)

theorem Quiet.tagged (h : Quiet s s') (ht : s.Tagged) : s'.Tagged := by
  intro key st' hst'
  rcases h.states key st' hst' with ⟨st, hst, hkeeps⟩ | ⟨-, -, hlt⟩
  · rw [hkeeps.uid]
    exact Nat.lt_of_lt_of_le (ht key st hst) h.ages.nextUid
  · exact hlt

theorem World.Inv.tagged {w : World V} (h : w.Inv server) : w.store.Tagged :=
  fun key st hst => (h.states key st hst).uid

theorem World.BegunBy.mono {w : World V} {start t t' : Nat} (h : w.BegunBy start t)
    (ht : t ≤ t') : w.BegunBy start t' := fun owner entry hentry hmin =>
  Nat.le_trans (h owner entry hentry hmin) ht

theorem World.Inv.begunBy_clock {w : World V} (h : w.Inv server) (start : Nat) :
    w.BegunBy start w.clock := fun owner entry hentry _ => (h.entries owner entry hentry).time

theorem Quiet.begunBy {w : World V} (hq : Quiet w.store s) (h : w.Inv server) {start t : Nat}
    (hb : w.BegunBy start t) : (w.put s).BegunBy start t := by
  intro owner entry' hentry' hmin
  obtain ⟨entry, hentry, hsame⟩ := hq.entries owner entry' hentry'
  have hserial := (h.entries owner entry hentry).serial
  have hbegun := hb owner entry hentry (by rw [← hsame.minimumRead]; exact hmin)
  have hstamp : (w.put s).begunAt entry.serial = w.begunAt entry.serial := stamped_of_le hserial
  rw [hsame.serial, hstamp]
  exact hbegun

/-- A quiet change keeps what holds of the world. -/
theorem World.Inv.quiet {w : World V} (h : w.Inv server) (hq : Quiet w.store s) :
    (w.put s).Inv server := by
  have hepoch : (w.put s).store.epoch = w.store.epoch := hq.epoch
  refine ⟨?_, ?_, ?_, ?_, ?_, hq.sorted h.sorted⟩
  · intro key st' hst'
    rcases hq.states key st' hst' with ⟨st, hst, hkeeps⟩ | ⟨hblank, -, hlt⟩
    · have hok := h.states key st hst
      refine ⟨?_, ?_, ?_, ?_, ?_, ?_, ?_⟩
      · rw [hkeeps.uid]
        exact Nat.lt_of_lt_of_le hok.uid hq.ages.nextUid
      · rw [hkeeps.acceptedReadStart]
        exact Nat.le_trans hok.reads hq.ages.reads
      · rw [hepoch, hkeeps.observed]
        exact hok.observed
      · rw [hepoch, hkeeps.committed]
        exact hok.committed
      · intro t ht
        rw [hkeeps.asOf] at ht
        rw [hkeeps.value]
        exact hok.asOf t ht
      · intro t ht howed
        rw [hkeeps.asOf] at ht
        obtain ⟨hversion, hbegun⟩ := hok.fresh t ht (hkeeps.owed howed)
        refine ⟨?_, ?_⟩
        · rw [hepoch, hkeeps.committed]
          exact hversion
        · rw [hkeeps.acceptedReadStart]
          exact hq.begunBy h hbegun
      · intro waiter hwaiter
        obtain ⟨hinv, hreads⟩ := hok.waiters waiter (hkeeps.waiters waiter hwaiter)
        exact ⟨Nat.le_trans hinv hkeeps.invalidations, Nat.le_trans hreads hq.ages.reads⟩
    · refine ⟨hlt, ?_, ?_, ?_, ?_, ?_, ?_⟩
      · rw [hblank.acceptedReadStart]
        exact Nat.zero_le _
      · rw [hblank.observed]
        intro version hv
        cases hv
      · rw [hblank.committed]
        intro version hv
        cases hv
      · rw [hblank.asOf]
        intro t ht
        cases ht
      · rw [hblank.asOf]
        intro t ht
        cases ht
      · rw [hblank.waiters]
        intro waiter hw
        cases hw
  · intro read hread
    rcases hq.reading read hread with hold | ⟨hlt, hbegun⟩
    · have hok := h.reads read hold
      have hstamp : (w.put s).startedAt read.readStart = w.startedAt read.readStart :=
        stamped_of_le hok.started
      refine ⟨Nat.le_trans hok.started hq.ages.reads, ?_, ?_,
        Nat.lt_of_lt_of_le hok.uid hq.ages.nextUid, ?_, ?_⟩
      · rw [hstamp]
        exact hok.time
      · rw [hstamp]
        exact hq.begunBy h hok.begun
      · intro st' hst' huid
        rw [hstamp, hepoch]
        rcases hq.states read.key st' hst' with ⟨st, hst, hkeeps⟩ | ⟨-, hnew, -⟩
        · obtain ⟨hg, hi, hversion, hwaiters⟩ := hok.state st hst (hkeeps.uid.symm.trans huid)
          refine ⟨Nat.le_trans hg hkeeps.generation, Nat.le_trans hi hkeeps.invalidations, ?_,
            fun waiter hw => hwaiters waiter (hkeeps.waiters waiter hw)⟩
          intro hgen
          have := hkeeps.generation
          exact hversion (by omega)
        · have := hok.uid
          omega
      · -- the sequence has not moved on, so the value has not either
        intro st' hst' huid hsequence t ht
        rw [hstamp]
        rcases hq.states read.key st' hst' with ⟨st, hst, hkeeps⟩ | ⟨-, hnew, -⟩
        · have huid' := hkeeps.uid.symm.trans huid
          have hle := h.sorted.sequence read hold st hst huid'
          have hle' := hkeeps.sequence
          exact hok.since st hst huid' (by omega) t (hkeeps.asOf.symm.trans ht)
        · have := hok.uid
          omega
    · -- a read that starts now takes over what its state has observed
      have hstamp : (w.put s).startedAt read.readStart = w.clock := stamped_of_lt hlt
      refine ⟨hbegun.started, ?_, ?_, hbegun.uid, ?_, ?_⟩
      · rw [hstamp]
        exact Nat.le_refl _
      · rw [hstamp]
        exact hq.begunBy h (h.begunBy_clock _)
      · intro st' hst' huid
        obtain ⟨hg, hi, hversion⟩ := hbegun.state st' hst' huid
        rw [hstamp, hepoch]
        rcases hq.states read.key st' hst' with ⟨st, hst, hkeeps⟩ | ⟨hblank, -, -⟩
        · have hok := h.states read.key st hst
          refine ⟨hg, hi, ?_, ?_⟩
          · intro _ version hv
            exact hok.observed version (by rw [← hkeeps.observed, ← hversion]; exact hv)
          · intro waiter hwaiter _
            have := (hok.waiters waiter (hkeeps.waiters waiter hwaiter)).2
            omega
        · refine ⟨hg, hi, ?_, ?_⟩
          · intro _ version hv
            rw [hversion, hblank.observed] at hv
            cases hv
          · rw [hblank.waiters]
            intro waiter hw
            cases hw
      · intro st' hst' huid _ t ht
        rw [hstamp]
        rcases hq.states read.key st' hst' with ⟨st, hst, hkeeps⟩ | ⟨hblank, -, -⟩
        · exact ((h.states read.key st hst).asOf t (hkeeps.asOf.symm.trans ht)).1
        · rw [hblank.asOf] at ht
          cases ht
  · intro command hcommand
    have hok := h.commands command (hq.commands command hcommand)
    have hstamp : (w.put s).commandAt command.order = w.commandAt command.order :=
      stamped_of_le hok.order
    refine ⟨Nat.le_trans hok.order hq.ages.mutations, ?_, ?_⟩
    · rw [hstamp]
      exact hok.time
    · intro key start hstart
      obtain ⟨huid, hstates⟩ := hok.states key start hstart
      refine ⟨Nat.lt_of_lt_of_le huid hq.ages.nextUid, ?_⟩
      intro st' hst' huid'
      rw [hstamp, hepoch]
      rcases hq.states key st' hst' with ⟨st, hst, hkeeps⟩ | ⟨-, hnew, -⟩
      · obtain ⟨hg, hr, hversion⟩ := hstates st hst (hkeeps.uid.symm.trans huid')
        refine ⟨Nat.le_trans hg hkeeps.generation, Nat.le_trans hr hkeeps.acceptedReads, ?_⟩
        intro hgen hreads
        have := hkeeps.generation
        obtain ⟨hseen, hbegun⟩ := hversion (by omega) (by rw [hreads, hkeeps.reads])
        rw [hkeeps.committed, hkeeps.acceptedReadStart]
        exact ⟨hseen, hq.begunBy h hbegun⟩
      · omega
  · intro owner entry' hentry'
    obtain ⟨entry, hentry, hsame⟩ := hq.entries owner entry' hentry'
    have hok := h.entries owner entry hentry
    have hstamp : (w.put s).begunAt entry.serial = w.begunAt entry.serial :=
      stamped_of_le hok.serial
    refine ⟨?_, ?_, ?_, ?_⟩
    · rw [hsame.serial]
      exact Nat.le_trans hok.serial hq.ages.presentationSerial
    · rw [hsame.serial, hstamp]
      exact hok.time
    · intro ticket hticket hmin
      rw [hsame.serial, hstamp]
      have hissued : (w.put s).issuedAt ticket.serial = w.issuedAt ticket.serial :=
        stamped_of_le (h.tickets ticket hticket)
      rw [hissued]
      exact hok.tickets ticket hticket (by rw [← hsame.minimumObservation]; exact hmin)
    · intro key proof hproof
      rw [hsame.serial, hstamp]
      exact hok.proofs key proof (hsame.proofs key proof hproof)
  · intro ticket hticket
    exact Nat.le_trans (h.tickets ticket hticket) hq.ages.observationSerial

/-- A quiet change after another one. -/
theorem World.Inv.then_quiet {w : World V} (h : (w.put s).Inv server) (ha : Ages w.store s)
    (hq : Quiet s s') : (w.put s').Inv server := by
  rw [← World.put_put ha]
  exact h.quiet hq

end Frames

end RcpGraph.Browser
