import RcpGraph.Browser.Coherence

/-!
The operations that bring no value and no version: registrations, releases and
suspensions, the starts of reads, invalidations and failures.
-/

namespace RcpGraph.Browser

universe u

variable {V : Type u} {catalog : Catalog V} {s s' : Store V}

section Primitives

/-- States are changed quietly or forgotten. -/
theorem quiet_states {states : Dict ResourceKey (ResourceState V)}
    (h : ∀ key st', states.get? key = some st' →
      ∃ st, s.states.get? key = some st ∧ Keeps st st') : Quiet s { s with states } where
  ages :=
    { Ages.refl s with
      states := fun key st' hst' => by
        obtain ⟨st, hst, hkeeps⟩ := h key st' hst'
        exact .inl ⟨st, hst, hkeeps.toOlder⟩ }
  epoch := rfl
  commands _ hc := hc
  states key st' hst' := .inl (h key st' hst')
  entries _ entry he := ⟨entry, he, SameEntry.refl entry⟩
  reading _ hr := .inl hr
  sorted hs :=
    { order := hs.order
      started := hs.started
      sequence := by
        intro read hread st' hst' huid
        obtain ⟨st, hst, hkeeps⟩ := h read.key st' hst'
        exact Nat.le_trans (hs.sequence read hread st hst (hkeeps.uid.symm.trans huid))
          hkeeps.sequence }
  resolved _ hc := hc

theorem quiet_map {change : ResourceKey → ResourceState V → ResourceState V}
    (h : ∀ key st, s.states.get? key = some st → Keeps st (change key st)) :
    Quiet s { s with states := s.states.map change } := by
  apply quiet_states
  intro key st' hst'
  rw [Dict.get?_map] at hst'
  obtain ⟨st, hst, rfl⟩ := Option.map_eq_some_iff.mp hst'
  exact ⟨st, hst, h key st hst⟩

theorem quiet_insert {key : ResourceKey} {st st' : ResourceState V}
    (hst : s.states.get? key = some st) (h : Keeps st st') :
    Quiet s { s with states := s.states.insert key st' } := by
  apply quiet_states
  intro key' st'' hst''
  rw [Dict.get?_insert] at hst''
  split at hst''
  · rename_i heq
    cases hst''
    exact ⟨st, by rw [heq]; exact hst, h⟩
  · exact ⟨st'', hst'', Keeps.refl st''⟩

theorem quiet_modify {key : ResourceKey} {change : ResourceState V → ResourceState V}
    (h : ∀ st, Keeps st (change st)) : Quiet s (s.modify key change) := by
  unfold Store.modify
  cases hst : s.states.get? key with
  | none => exact Quiet.refl s
  | some st => exact quiet_insert hst (h st)

/-- The slots, the active project and the scheduler are nobody's data. -/
theorem quiet_slots (s : Store V) (running runningBackground : Nat)
    (activeProject : Option String) (scheduled : Bool) :
    Quiet s { s with running, runningBackground, activeProject, scheduled } where
  ages := { Ages.refl s with }
  epoch := rfl
  commands _ h := h
  states _ st h := .inl ⟨st, h, Keeps.refl st⟩
  entries _ entry h := ⟨entry, h, SameEntry.refl entry⟩
  reading _ h := .inl h
  sorted h := { order := h.order, started := h.started, sequence := h.sequence }
  resolved _ h := h

/-- Reads may end without a trace. -/
theorem quiet_reading (s : Store V) (keep : Read → Bool) :
    Quiet s { s with reading := s.reading.filter keep } where
  ages := { Ages.refl s with reading := fun _ h => .inl (List.mem_of_mem_filter h) }
  epoch := rfl
  commands _ h := h
  states _ st h := .inl ⟨st, h, Keeps.refl st⟩
  entries _ entry h := ⟨entry, h, SameEntry.refl entry⟩
  reading _ h := .inl (List.mem_of_mem_filter h)
  sorted h :=
    { order := h.order.filter keep
      started := fun read hread => h.started read (List.mem_of_mem_filter hread)
      sequence := fun read hread => h.sequence read (List.mem_of_mem_filter hread) }
  resolved _ h := h

theorem quiet_entries {presentations : Dict String PresentationEntry}
    (h : ∀ owner entry', presentations.get? owner = some entry' →
      ∃ entry, s.presentations.get? owner = some entry ∧ SameEntry entry entry') :
    Quiet s { s with presentations } where
  ages := { Ages.refl s with }
  epoch := rfl
  commands _ hc := hc
  states _ st hst := .inl ⟨st, hst, Keeps.refl st⟩
  entries := h
  reading _ hr := .inl hr
  sorted hs := { order := hs.order, started := hs.started, sequence := hs.sequence }
  resolved _ hc := hc

/-- Promises may reject. -/
theorem quiet_rejected (s : Store V) (calls : List RefreshCall) (error : String) :
    Quiet s { s with settled := s.settled ++ calls.map fun call => (call, .rejected error) } where
  ages := { Ages.refl s with }
  epoch := rfl
  commands _ h := h
  states _ st h := .inl ⟨st, h, Keeps.refl st⟩
  entries _ entry h := ⟨entry, h, SameEntry.refl entry⟩
  reading _ h := .inl h
  sorted h := { order := h.order, started := h.started, sequence := h.sequence }
  resolved call h := by
    rcases List.mem_append.mp h with hold | hnew
    · exact hold
    · obtain ⟨call', -, heq⟩ := List.mem_map.mp hnew
      cases heq

theorem quiet_foldl {α : Type} {f : Store V → α → Store V}
    (h : ∀ s a, s.Tagged → Quiet s (f s a)) (xs : List α) (ht : s.Tagged) :
    Quiet s (xs.foldl f s) := by
  induction xs generalizing s with
  | nil => exact Quiet.refl s
  | cons x xs ih =>
      have hx := h s x ht
      exact hx.trans (ih (hx.tagged ht))

end Primitives

section Reads

theorem startRead_quiet (ht : s.Tagged) (key : ResourceKey) (background : Bool) :
    Quiet s (s.startRead key background) := by
  unfold Store.startRead
  cases hst : s.states.get? key with
  | none => exact Quiet.refl s
  | some st =>
      have hstates : ∀ key' st', (s.states.insert key
          { st with
            sequence := st.sequence + 1, lastRead := s.reads + 1
            inFlight := some (s.reads + 1) }).get? key' = some st' →
          ∃ st, s.states.get? key' = some st ∧ Keeps st st' := by
        intro key' st' hst'
        rw [Dict.get?_insert] at hst'
        split at hst'
        · rename_i heq
          cases hst'
          exact ⟨st, by rw [heq]; exact hst,
            ⟨⟨rfl, Nat.le_refl _, Nat.le_succ _, Nat.le_refl _, Nat.le_refl _, Nat.le_refl _⟩, rfl,
              rfl, id, rfl, rfl, rfl, rfl, fun _ h => h⟩⟩
        · exact ⟨st', hst', Keeps.refl st'⟩
      dsimp only
      refine ⟨?_, rfl, fun _ h => h, fun key' st' hst' => .inl (hstates key' st' hst'),
        fun _ entry h => ⟨entry, h, SameEntry.refl entry⟩, ?_, ?_, fun _ h => h⟩
      · refine { Ages.refl s with
          reads := Nat.le_succ _
          states := fun key' st' hst' => ?_
          reading := fun read hread => ?_ }
        · obtain ⟨st, hst, hkeeps⟩ := hstates key' st' hst'
          exact .inl ⟨st, hst, hkeeps.toOlder⟩
        · rcases List.mem_append.mp hread with hold | hnew
          · exact .inl hold
          · rw [List.mem_singleton] at hnew
            subst hnew
            exact .inr (Nat.lt_succ_self _)
      · intro read hread
        rcases List.mem_append.mp hread with hold | hnew
        · exact .inl hold
        · rw [List.mem_singleton] at hnew
          subst hnew
          refine .inr ⟨Nat.lt_succ_self _, Nat.le_refl _, ht key st hst, ?_⟩
          intro st' hst' _
          dsimp only at hst'
          rw [Dict.get?_insert, if_pos rfl] at hst'
          cases hst'
          exact ⟨Nat.le_refl _, Nat.le_refl _, rfl⟩
      · intro hs
        refine ⟨?_, ?_, ?_⟩
        · rw [List.pairwise_append]
          refine ⟨hs.order, List.pairwise_singleton _ _, ?_⟩
          intro read hread new hnew
          rw [List.mem_singleton] at hnew
          subst hnew
          refine ⟨Nat.lt_succ_of_le (hs.started read hread).1, ?_⟩
          intro hkey huid
          exact Nat.lt_succ_of_le (hs.sequence read hread st (by rw [hkey]; exact hst) huid.symm)
        · intro read hread
          rcases List.mem_append.mp hread with hold | hnew
          · obtain ⟨hstart, huid⟩ := hs.started read hold
            exact ⟨Nat.le_succ_of_le hstart, huid⟩
          · rw [List.mem_singleton] at hnew
            subst hnew
            exact ⟨Nat.le_refl _, ht key st hst⟩
        · intro read hread st' hst' huid
          rcases List.mem_append.mp hread with hold | hnew
          · obtain ⟨st, hst, hkeeps⟩ := hstates read.key st' hst'
            exact Nat.le_trans (hs.sequence read hold st hst (hkeeps.uid.symm.trans huid))
              hkeeps.sequence
          · rw [List.mem_singleton] at hnew
            subst hnew
            dsimp only at hst'
            rw [Dict.get?_insert, if_pos rfl] at hst'
            cases hst'
            exact Nat.le_refl _

theorem pumpLoop_quiet (backgroundWaiting : Bool) (keys : List ResourceKey) (ht : s.Tagged) :
    Quiet s (Store.pumpLoop backgroundWaiting keys s) := by
  induction keys generalizing s with
  | nil => exact Quiet.refl s
  | cons key keys ih =>
      unfold Store.pumpLoop
      dsimp only
      split
      · exact Quiet.refl s
      split
      · exact ih ht
      split
      · exact ih ht
      · have hstart := startRead_quiet ht key (decide (some key.project ≠ s.activeProject))
        exact hstart.trans (ih (hstart.tagged ht))

theorem pump_quiet (ht : s.Tagged) (now : Nat) : Quiet s (s.pump now) := pumpLoop_quiet _ _ ht

/-- A quiet change that ends in a pump. -/
theorem Quiet.pump (h : Quiet s s') (ht : s.Tagged) (now : Nat) : Quiet s (s'.pump now) :=
  h.trans (pump_quiet (h.tagged ht) now)

end Reads

section Operations

theorem ensured_quiet (s : Store V) (key : ResourceKey) : Quiet s (s.ensured key) := by
  unfold Store.ensured
  cases hst : s.states.get? key with
  | some st => exact Quiet.refl s
  | none =>
      have hstates : ∀ key' st',
          (s.states.insert key (ResourceState.fresh V s.nextUid)).get? key' = some st' →
          s.states.get? key' = some st' ∨ st' = ResourceState.fresh V s.nextUid := by
        intro key' st' hst'
        rw [Dict.get?_insert] at hst'
        split at hst'
        · cases hst'
          exact .inr rfl
        · exact .inl hst'
      refine ⟨?_, rfl, fun _ h => h, ?_, fun _ entry h => ⟨entry, h, SameEntry.refl entry⟩,
        fun _ h => .inl h, ?_, fun _ h => h⟩
      · refine { Ages.refl s with nextUid := Nat.le_succ _, states := fun key' st' hst' => ?_ }
        rcases hstates key' st' hst' with hold | rfl
        · exact .inl ⟨st', hold, Older.refl st'⟩
        · exact .inr (Nat.le_refl _)
      · intro key' st' hst'
        rcases hstates key' st' hst' with hold | rfl
        · exact .inl ⟨st', hold, Keeps.refl st'⟩
        · exact .inr ⟨⟨rfl, rfl, rfl, rfl, rfl⟩, Nat.le_refl _, Nat.lt_succ_self _⟩
      · intro hs
        refine ⟨hs.order, ?_, ?_⟩
        · intro read hread
          obtain ⟨hstart, huid⟩ := hs.started read hread
          exact ⟨hstart, Nat.lt_succ_of_lt huid⟩
        · intro read hread st' hst' huid
          rcases hstates read.key st' hst' with hold | rfl
          · exact hs.sequence read hread st' hold huid
          · have hlt := (hs.started read hread).2
            rw [← huid] at hlt
            exact absurd hlt (Nat.lt_irrefl _)

/-- Owners, errors, backoff and overlays are not seen by values and versions. -/
theorem keeps_aside (st : ResourceState V) (owners : Dict String Nat) (dormant : List String)
    (overlays : Dict String (Apply V)) (inFlight : Option Nat) (error : Option String)
    (failures retryAt : Nat) (pending : List (PendingOperation V)) :
    Keeps st
      { st with owners, dormant, overlays, inFlight, error, failures, retryAt, pending } :=
  ⟨{ Older.refl st with }, rfl, rfl, id, rfl, rfl, rfl, rfl, fun _ h => h⟩

theorem keeps_fence (st : ResourceState V) : Keeps st st.fence :=
  ⟨⟨rfl, Nat.le_refl _, Nat.le_succ _, Nat.le_refl _, Nat.le_refl _, Nat.le_refl _⟩, rfl, rfl,
    id, rfl, rfl, rfl, rfl, fun _ h => h⟩

theorem keeps_unwatch (st : ResourceState V) : Keeps st st.unwatch := by
  unfold ResourceState.unwatch
  split
  · exact Keeps.refl st
  · exact ⟨⟨rfl, Nat.le_succ _, Nat.le_succ _, Nat.le_refl _, Nat.le_refl _, Nat.le_refl _⟩, rfl,
      rfl, id, rfl, rfl, rfl, rfl, fun _ h => h⟩

theorem register_quiet (ht : s.Tagged) (owner : String) (key : ResourceKey) (now : Nat) :
    Quiet s (s.register owner key now) := by
  have hmodify : Quiet (s.ensured key) ((s.ensured key).modify key fun st =>
      { st with
        owners := st.owners.insert owner (st.owners.getD owner 0 + 1)
        dormant := st.dormant.filter (· ≠ owner) }) :=
    quiet_modify fun st => keeps_aside st _ _ _ _ _ _ _ _
  exact ((ensured_quiet s key).trans hmodify).pump ht now

theorem drop_quiet (s : Store V) (key : ResourceKey) (error : String) :
    Quiet s (s.drop key error) := by
  unfold Store.drop
  cases hst : s.states.get? key with
  | none => exact Quiet.refl s
  | some st =>
      have herase : Quiet s { s with states := s.states.erase key } := by
        apply quiet_states
        intro key' st' hst'
        rw [Dict.get?_erase] at hst'
        split at hst'
        · cases hst'
        · exact ⟨st', hst', Keeps.refl st'⟩
      have hreject := quiet_rejected { s with states := s.states.erase key }
        (st.waiters.map Waiter.call) error
      rw [List.map_map] at hreject
      exact herase.trans hreject

theorem releaseOne_quiet (owner : String) (all : Bool) (s : Store V) (key : ResourceKey) :
    Quiet s (Store.releaseOne owner all s key) := by
  unfold Store.releaseOne
  cases (s.states.get? key).bind fun st => st.owners.get? owner with
  | none => exact Quiet.refl s
  | some count =>
      dsimp only
      have hmodify : Quiet s (s.modify key (Store.releaseOwner owner all count)) := by
        apply quiet_modify
        intro st
        unfold Store.releaseOwner
        split
        · exact keeps_aside st _ _ _ _ _ _ _ _
        · exact keeps_aside st _ _ _ _ _ _ _ _
      split
      · exact hmodify
      · exact hmodify.trans (drop_quiet _ key _)

theorem release_quiet (ht : s.Tagged) (owner : String) (ids : Option (List ResourceKey)) :
    Quiet s (s.release owner ids) := by
  cases ids with
  | none => exact quiet_foldl (fun s key _ => releaseOne_quiet owner true s key) _ ht
  | some keys => exact quiet_foldl (fun s key _ => releaseOne_quiet owner false s key) keys ht

theorem suspend_quiet (ht : s.Tagged) (owner : String) (ids : List ResourceKey) :
    Quiet s (s.suspend owner ids) := by
  apply quiet_foldl _ ids ht
  intro s key _
  apply quiet_modify
  intro st
  split
  · exact Keeps.refl st
  · exact Keeps.trans (keeps_aside st _ _ _ _ _ _ _ _) (keeps_unwatch _)

theorem dropProject_quiet (ht : s.Tagged) (project : String) : Quiet s (s.dropProject project) :=
  quiet_foldl (fun s key _ => drop_quiet s key _) _ ht

theorem failObservation_quiet (s : Store V) (ticket : ObservationTicket) (error : String) :
    Quiet s (s.failObservation ticket error) := by
  apply quiet_entries
  intro owner entry' hentry'
  rw [Dict.get?_map] at hentry'
  obtain ⟨entry, hentry, rfl⟩ := Option.map_eq_some_iff.mp hentry'
  refine ⟨entry, hentry, ?_⟩
  split
  · exact ⟨rfl, rfl, rfl, fun _ _ h => h⟩
  · exact SameEntry.refl entry

theorem endPresentation_quiet (s : Store V) (owner : String) (serial : Nat) :
    Quiet s (s.endPresentation owner serial) := by
  unfold Store.endPresentation
  split
  · apply quiet_entries
    intro owner' entry' hentry'
    rw [Dict.get?_erase] at hentry'
    split at hentry'
    · cases hentry'
    · exact ⟨entry', hentry', SameEntry.refl entry'⟩
  · exact Quiet.refl s

theorem presentationView_quiet (s : Store V) (owner activationKey : String) :
    Quiet s (s.presentationView owner activationKey) := by
  unfold Store.presentationView
  cases hentry : s.presentations.get? owner with
  | none => exact Quiet.refl s
  | some entry =>
      dsimp only
      split
      · exact Quiet.refl s
      · apply quiet_entries
        intro owner' entry' hentry'
        rw [Dict.get?_insert] at hentry'
        split at hentry'
        · rename_i heq
          cases hentry'
          exact ⟨entry, by rw [heq]; exact hentry, ⟨rfl, rfl, rfl, fun _ _ h => h⟩⟩
        · exact ⟨entry', hentry', SameEntry.refl entry'⟩

theorem invalidate_quiet (ht : s.Tagged) (key : ResourceKey) (now : Nat) :
    Quiet s (s.invalidate key now) := by
  unfold Store.invalidate
  cases hst : s.states.get? key with
  | none => exact Quiet.refl s
  | some st =>
      refine (quiet_insert hst ?_).pump ht now
      exact ⟨⟨rfl, Nat.le_refl _, Nat.le_refl _, Nat.le_succ _, Nat.le_refl _, Nat.le_refl _⟩, rfl,
        rfl, (fun howed => by cases howed), rfl, rfl, rfl, rfl, fun _ h => h⟩

theorem endBackoff_quiet (ht : s.Tagged) (now : Nat) : Quiet s (s.endBackoff now) :=
  (quiet_map fun _ st _ => keeps_aside st _ _ _ _ _ _ _ _).pump ht now

theorem clearOverlay_quiet (s : Store V) (key : ResourceKey) (operationId : String) :
    Quiet s (s.clearOverlay key operationId) :=
  quiet_modify fun st => keeps_aside st _ _ _ _ _ _ _ _

theorem keeps_feedback {epoch : Option String} {command : Command} {key : ResourceKey}
    {start : CommandStart} (st : ResourceState V)
    (feedback : Dict ResourceKey (PendingOperation V)) :
    Keeps st (Store.endEffect catalog epoch command key start st (.failed feedback)) := by
  unfold Store.endEffect
  dsimp only
  cases feedback.get? key with
  | none => exact Keeps.refl st
  | some overlay => exact keeps_aside st _ _ _ _ _ _ _ _

/-- A command that fails takes back its overlay. -/
theorem fail_quiet (ht : s.Tagged) (command : Command)
    (feedback : Dict ResourceKey (PendingOperation V)) (now : Nat) :
    Quiet s (s.finish catalog command (.failed feedback) now) := by
  refine Quiet.pump (quiet_foldl ?_ command.effects ht) ht now
  intro s key _
  unfold Store.finishEffect
  cases hst : s.states.get? key with
  | none => exact Quiet.refl s
  | some st =>
      cases command.startedAt.get? key with
      | none => exact Quiet.refl s
      | some start =>
          dsimp only
          split
          · exact Quiet.refl s
          · apply quiet_insert hst
            exact Keeps.trans (keeps_aside st _ _ _ _ _ _ _ _) (keeps_feedback _ feedback)

end Operations

end RcpGraph.Browser
