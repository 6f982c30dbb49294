import RcpGraph.Graph.Decisions
import RcpGraph.Graph.Endpoints
import RcpGraph.Watchers.FirstLook
import RcpGraph.Watchers.Reconciliation

/-!
Runs of passes and other transactions. What a waiting condition shows after a pass is the
first boundary between its arming and the head of the pass that does not leave it active.
-/

namespace RcpGraph.Watchers

open Crash
open Cursor (first between)

variable {rt : Runtime} {histories : Histories rt} {sys : System rt}

/-- Of one target, a later entry of the log stands at a later revision. -/
def LogOrder (a b : String × GraphHeadRef) : Prop :=
  a.1 = b.1 → a.2.target = b.2.target → a.2.revision < b.2.revision

/-- What holds between any two events. -/
structure System.Inv (histories : Histories rt) (sys : System rt) : Prop where
  sound : sys.store.Sound
  waiting : sys.store.Waiting histories
  passes : ∀ projectId pass, sys.passes.get? projectId = some pass →
    pass.Ok histories sys.store projectId
  logged : ∀ entry ∈ sys.log, ∃ head,
    sys.store.consumed.get? (entry.1, entry.2.target) = some head ∧
      entry.2.revision ≤ head.revision
  ordered : sys.log.Pairwise LogOrder

/-- A store before its first reconciliation; its conditions may have no baseline yet. -/
structure InitialStore where
  store : Store
  sound : store.Sound
  unconsumed : store.consumed = Dict.empty

def System.initial (rt : Runtime) (init : InitialStore) : System rt where
  store := init.store
  passes := Dict.empty
  log := []

theorem System.initial_inv (histories : Histories rt) (init : InitialStore) :
    (System.initial rt init).Inv histories := by
  refine ⟨init.sound, ?_, ?_, ?_, List.Pairwise.nil⟩
  · intro id w condition armed _ _ _ _
    unfold Store.outcome Store.stretch System.initial
    rw [init.unconsumed, Dict.get?_empty]
    rfl
  · intro projectId pass hpass
    cases hpass
  · intro entry hentry
    cases hentry

section Steps

variable (cfg : Config) {projectId now : String} {pass : Pass rt} {rest : List (PassStep rt)}

/-- The store moves by one transaction and the passes stay. -/
theorem System.Inv.moved (h : sys.Inv histories) {t : Store} (ht : Moved False sys.store t) :
    ({ sys with store := t } : System rt).Inv histories := by
  have hc := ht.consumed not_false
  refine ⟨ht.sound, waiting_of_moved ht h.waiting, ?_, ?_, h.ordered⟩
  · intro p pass hpass
    exact (h.passes p pass hpass).congr (by rw [hc])
  · intro entry hentry
    rw [hc]
    exact h.logged entry hentry

/-- The passes change and the store stays. -/
theorem System.Inv.repassed (h : sys.Inv histories) {passes : Dict String (Pass rt)}
    (hpasses : ∀ p pass, passes.get? p = some pass → pass.Ok histories sys.store p) :
    ({ sys with passes } : System rt).Inv histories :=
  ⟨h.sound, h.waiting, hpasses, h.logged, h.ordered⟩

theorem System.Inv.erased (h : sys.Inv histories) (projectId : String) :
    ({ sys with passes := sys.passes.erase projectId } : System rt).Inv histories := by
  apply h.repassed
  intro p pass hpass
  rw [Dict.get?_erase] at hpass
  split at hpass
  · cases hpass
  · exact h.passes p pass hpass

theorem System.Inv.inserted (h : sys.Inv histories)
    (hpass : pass.Ok histories sys.store projectId) :
    ({ sys with passes := sys.passes.insert projectId pass } : System rt).Inv histories := by
  apply h.repassed
  intro p pass' hpass'
  rw [Dict.get?_insert] at hpass'
  split at hpass'
  · rename_i heq
    cases hpass'
    rw [heq]
    exact hpass
  · exact h.passes p pass' hpass'

/-- A pass goes on when the stored head has come to the boundary before it. -/
theorem Pass.Ok.tail {s : Store} (h : pass.Ok histories s projectId) {next : PassStep rt}
    (htodo : pass.todo = next :: rest)
    (hnext : ∀ step, next = .boundary step → ∃ head,
      s.consumed.get? (projectId, pass.target) = some head ∧ step.revision ≤ head.revision) :
    ({ pass with todo := rest } : Pass rt).Ok histories s projectId := by
  have hsub : (boundaries rest).Sublist (boundaries pass.todo) := by
    rw [htodo]
    exact (List.sublist_cons_self next rest).filterMap _
  refine ⟨h.behind, ?_, h.sorted.sublist hsub, fun step hstep => h.read step (hsub.subset hstep)⟩
  intro step hstep hle
  rcases h.covers step hstep hle with hdone | hleft
  · exact .inl hdone
  · rw [htodo] at hleft
    cases next with
    | baselines => exact .inr hleft
    | boundary step' =>
        rcases List.mem_cons.mp hleft with rfl | hrest
        · exact .inl (hnext step rfl)
        · exact .inr hrest

theorem get?_rebase (s : Store) (pass : Pass rt) (projectId now id : String) :
    (s.rebase projectId pass now).watchers.get? id = (s.watchers.get? id).map fun w =>
      if (w.projectId = projectId && w.graphTarget = pass.target && w.awaits &&
        w.armedRevision.isNone) = true then
        { w with armedRevision := some pass.head, lastCheckedAt := some now } else w :=
  get?_updateWatchers s _ _ id

/-- A condition that gets its baseline is armed ahead of its target. -/
theorem System.Inv.rebased (h : sys.Inv histories) (hpass : sys.passes.get? projectId = some pass)
    (htodo : pass.todo = .baselines :: rest) :
    ({ sys with
        store := sys.store.rebase projectId pass now
        passes := sys.passes.insert projectId { pass with todo := rest } } : System rt).Inv
      histories := by
  have hok := h.passes projectId pass hpass
  have hmoved : Moved True sys.store (sys.store.rebase projectId pass now) :=
    initializeGraphWatcherTargetBaselines_moves h.sound trivial projectId pass.target pass.head now
  have hstore : ({ sys with store := sys.store.rebase projectId pass now } : System rt).Inv
      histories := by
    refine ⟨hmoved.sound, ?_, ?_, h.logged, h.ordered⟩
    · intro id w' condition armed hw' hawaits hg ha
      dsimp only at hw' ⊢
      rw [get?_rebase] at hw'
      obtain ⟨w, hw, rfl⟩ := Option.map_eq_some_iff.mp hw'
      by_cases hpick : (w.projectId = projectId && w.graphTarget = pass.target && w.awaits &&
          w.armedRevision.isNone) = true
      · rw [if_pos hpick] at hg ha ⊢
        simp only [Bool.and_eq_true, decide_eq_true_eq] at hpick
        obtain ⟨⟨⟨rfl, htarget⟩, -⟩, -⟩ := hpick
        refine outcome_of_armedAhead ⟨pass.head, rfl, ?_⟩ ha condition
        intro head hhead
        apply hok.behind head
        rw [← htarget]
        exact hhead
      · rw [if_neg hpick] at hawaits hg ha ⊢
        exact h.waiting id w condition armed hw hawaits hg ha
    · intro p pass' hpass'
      exact (h.passes p pass' hpass').congr rfl
  refine hstore.inserted ((hok.tail htodo ?_).congr rfl)
  intro step hstep
  cases hstep

theorem consume_armedRevision (w : Watcher) (observed : Bool) (now : String)
    (result : GraphResult) :
    (if observed = true then w.settleGraph now result else w).armedRevision = w.armedRevision := by
  cases observed with
  | false => rfl
  | true =>
      cases result with
      | active | completed | removed => rfl

theorem Pass.Ok.advance {s : Store} (h : pass.Ok histories s projectId) {step : AcceptedStep rt}
    (htodo : pass.todo = .boundary step :: rest)
    (hnew : ∀ head, s.consumed.get? (projectId, pass.target) = some head →
      head.revision < step.revision) (now : String) :
    ({ pass with todo := rest } : Pass rt).Ok histories
      (s.consume projectId pass.target step now) projectId := by
  have hhead := get?_consumed s projectId projectId pass.target pass.target step now
  rw [if_pos rfl] at hhead
  have hmem : step ∈ boundaries pass.todo := by
    rw [htodo]
    exact List.mem_cons_self
  -- first the pass as it stands, over the moved head
  have hmoved : pass.Ok histories (s.consume projectId pass.target step now) projectId := by
    refine ⟨?_, ?_, h.sorted, h.read⟩
    · intro head hhead'
      rw [hhead] at hhead'
      cases hhead'
      exact (h.read step hmem).2
    · intro other hother hle
      rcases h.covers other hother hle with ⟨head, hold, hdone⟩ | hleft
      · exact .inl ⟨_, hhead, Nat.le_of_lt (Nat.lt_of_le_of_lt hdone (hnew head hold))⟩
      · exact .inr hleft
  apply hmoved.tail htodo
  intro step' hstep'
  cases hstep'
  exact ⟨_, hhead, Nat.le_refl _⟩

/-- The next boundary is consumed. -/
theorem System.Inv.consumed (h : sys.Inv histories)
    (hpass : sys.passes.get? projectId = some pass) {step : AcceptedStep rt}
    (htodo : pass.todo = .boundary step :: rest)
    (hnew : ∀ head, sys.store.consumed.get? (projectId, pass.target) = some head →
      head.revision < step.revision)
    (hmoved : Moved True sys.store (sys.store.consume projectId pass.target step now)) :
    ({ store := sys.store.consume projectId pass.target step now
       passes := sys.passes.insert projectId { pass with todo := rest }
       log := sys.log ++ [(projectId, GraphHeadRef.of pass.target step)] } : System rt).Inv
      histories := by
  have hok := h.passes projectId pass hpass
  have hnext := hok.nextIs htodo
  refine ⟨hmoved.sound, ?_, ?_, ?_, ?_⟩
  · intro id w' condition armed hw' hawaits hg ha
    dsimp only at hw' ⊢
    have hrow := hw'
    rw [get?_consume] at hrow
    obtain ⟨w, hw, rfl⟩ := Option.map_eq_some_iff.mp hrow
    obtain ⟨w'', hw'', hsince⟩ := hmoved.rows id w hw
    rw [hw'] at hw''
    cases hw''
    have hg' := hsince.frame.graphCondition.symm.trans hg
    have ha' := (consume_armedRevision _ _ _ _).symm.trans ha
    have hactive := h.waiting id w condition armed hw (hsince.waited hawaits) hg' ha'
    have htracks := tracks_consume hnext hnew now ⟨hg', ha', by
      rw [hactive]
      exact .active (hsince.waited hawaits)⟩
    exact htracks.shows.of_awaits hawaits
  · intro p pass' hpass'
    dsimp only at hpass' ⊢
    rw [Dict.get?_insert] at hpass'
    split at hpass'
    · rename_i heq
      cases hpass'
      subst heq
      exact hok.advance htodo hnew now
    · rename_i hne
      apply (h.passes p pass' hpass').congr
      rw [get?_consumed, if_neg]
      intro heq
      exact hne (Prod.mk.inj heq).1
  · intro entry hentry
    dsimp only at hentry ⊢
    rw [get?_consumed]
    rcases List.mem_append.mp hentry with hold | hlast
    · obtain ⟨head, hhead, hle⟩ := h.logged entry hold
      split
      · rename_i heq
        rw [heq] at hhead
        exact ⟨_, rfl, Nat.le_of_lt (Nat.lt_of_le_of_lt hle (hnew head hhead))⟩
      · exact ⟨head, hhead, hle⟩
    · rw [List.mem_singleton] at hlast
      subst hlast
      exact ⟨_, if_pos rfl, Nat.le_refl _⟩
  · dsimp only
    rw [List.pairwise_append]
    refine ⟨h.ordered, List.pairwise_singleton _ _, ?_⟩
    intro entry hentry last hlast hproject htarget
    rw [List.mem_singleton] at hlast
    subst hlast
    obtain ⟨head, hhead, hle⟩ := h.logged entry hentry
    dsimp only at hproject htarget ⊢
    rw [hproject, htarget] at hhead
    exact Nat.lt_of_le_of_lt hle (hnew head hhead)

theorem advance_moved (hs : sys.store.Sound) (projectId now : String) (pass : Pass rt)
    (next : PassStep rt) (rest : List (PassStep rt)) :
    Moved True sys.store (sys.advance projectId now pass next rest).store := by
  have hbody : Moves True sys.store (next.body projectId pass now) := by
    cases next with
    | baselines =>
        exact Moves.bind
          (initializeGraphWatcherTargetBaselines_moves hs trivial projectId pass.target pass.head
            now) fun _ _ ht => moves_pure ht _
    | boundary step => exact consumeGraphWatcherBoundary_moves hs trivial projectId _ _ now
  have hends := hbody.atomic
  unfold System.advance
  cases hout : (next.body projectId pass now).atomic sys.store with
  | mk out store =>
      rw [hout] at hends
      cases out with
      | ok consumed => exact hends
      | raised e | crashed =>
          cases hends
          exact Moved.refl hs

theorem System.Inv.advance (h : sys.Inv histories) (hpass : sys.passes.get? projectId = some pass)
    {next : PassStep rt} (htodo : pass.todo = next :: rest) (now : String) :
    (sys.advance projectId now pass next rest).Inv histories := by
  have hmoved := advance_moved h.sound projectId now pass next rest
  have hadvanced := advance_advanced sys projectId now pass next rest
  generalize sys.advance projectId now pass next rest = after at hmoved hadvanced ⊢
  cases hadvanced with
  | failed => exact h.erased projectId
  | rebased => exact h.rebased hpass htodo
  | known step head hhead hle =>
      apply h.inserted
      apply (h.passes projectId pass hpass).tail htodo
      intro step' hstep'
      cases hstep'
      exact ⟨head, hhead, hle⟩
  | consumed step hnew => exact h.consumed hpass htodo hnew hmoved

theorem transaction_moved (hs : sys.store.Sound) {t : Transaction} (other : t.reconciles = false) :
    Moved False sys.store (sys.store.step cfg t) := by
  apply (step_moved cfg hs t).mono
  rw [other]
  intro hfalse
  cases hfalse

theorem step_inv (h : sys.Inv histories) (event : Event) :
    (sys.step cfg histories event).Inv histories := by
  cases event with
  | transaction t other => exact h.moved (transaction_moved cfg h.sound other)
  | start projectId target head degraded =>
      unfold System.step
      dsimp only
      cases hstart : startPass histories sys.store projectId target head degraded with
      | error e => exact h.erased projectId
      | ok pass => exact h.inserted (startPass_ok hstart).2.2
  | advance projectId now =>
      unfold System.step
      dsimp only
      cases hpass : sys.passes.get? projectId with
      | none => exact h
      | some pass =>
          dsimp only
          cases htodo : pass.todo with
          | nil => exact h
          | cons next rest => exact h.advance hpass htodo now
  | abandon projectId => exact h.erased projectId

theorem run_inv (h : sys.Inv histories) (events : List Event) :
    (sys.run cfg histories events).Inv histories := by
  induction events generalizing sys with
  | nil => exact h
  | cons event events ih => exact ih (step_inv cfg h event)

end Steps

section Rows

variable (cfg : Config) {id : String} {w : Watcher} {condition : GraphCondition} {armed : Nat}

/-- What an event does to the store: a transaction of its own, nothing, or the next
transaction of a pass. -/
theorem step_store (sys : System rt) (histories : Histories rt) (event : Event) :
    (∃ t other, event = .transaction t other ∧
      (sys.step cfg histories event).store = sys.store.step cfg t) ∨
    (sys.step cfg histories event).store = sys.store ∨
    ∃ projectId now pass next rest, event = .advance projectId now ∧
      sys.passes.get? projectId = some pass ∧ pass.todo = next :: rest ∧
      sys.step cfg histories event = sys.advance projectId now pass next rest := by
  cases event with
  | transaction t other => exact .inl ⟨t, other, rfl, rfl⟩
  | start projectId target head degraded =>
      right; left
      unfold System.step
      dsimp only
      cases startPass histories sys.store projectId target head degraded with
      | error e | ok pass => rfl
  | advance projectId now =>
      right
      unfold System.step
      dsimp only
      cases hpass : sys.passes.get? projectId with
      | none => exact .inl rfl
      | some pass =>
          dsimp only
          cases htodo : pass.todo with
          | nil => exact .inl rfl
          | cons next rest =>
              exact .inr ⟨projectId, now, pass, next, rest, rfl, hpass, htodo, rfl⟩
  | abandon projectId => exact .inr (.inl rfl)

/-- The row shows what its target has consumed. -/
def System.Tracked (histories : Histories rt) (sys : System rt) (id : String)
    (condition : GraphCondition) (armed : Nat) : Prop :=
  ∃ w, sys.store.watchers.get? id = some w ∧ sys.store.Tracks histories w condition armed

/-- A pass of another target leaves the row. -/
theorem advance_other {projectId now : String} {pass : Pass rt} {next : PassStep rt}
    {rest : List (PassStep rt)} (hw : sys.store.watchers.get? id = some w)
    (hother : w.projectId ≠ projectId ∨ w.graphTarget ≠ pass.target) :
    (sys.advance projectId now pass next rest).store.watchers.get? id = some w := by
  have hadvanced := advance_advanced sys projectId now pass next rest
  generalize sys.advance projectId now pass next rest = after at hadvanced ⊢
  cases hadvanced with
  | failed | known => exact hw
  | rebased =>
      rw [get?_rebase, hw, Option.map_some, if_neg]
      rcases hother with h | h <;> simp [h]
  | consumed step hnew =>
      rw [get?_consume, hw, Option.map_some, if_neg]
      intro hobs
      obtain ⟨hproject, htarget, -⟩ := (w.observes_iff _ _).mp hobs
      rcases hother with h | h
      · exact h hproject
      · exact h htarget

/-- A pass leaves a row that does not wait. -/
theorem advance_settled {projectId now : String} {pass : Pass rt} {next : PassStep rt}
    {rest : List (PassStep rt)} (hw : sys.store.watchers.get? id = some w)
    (hawaits : w.awaits = false) :
    (sys.advance projectId now pass next rest).store.watchers.get? id = some w := by
  have hadvanced := advance_advanced sys projectId now pass next rest
  generalize sys.advance projectId now pass next rest = after at hadvanced ⊢
  cases hadvanced with
  | failed | known => exact hw
  | rebased =>
      rw [get?_rebase, hw, Option.map_some, if_neg]
      simp [hawaits]
  | consumed step hnew =>
      rw [get?_consume, hw, Option.map_some, if_neg]
      intro hobs
      have hawaits' := ((w.observes_iff _ _).mp hobs).2.2.1
      rw [hawaits] at hawaits'
      cases hawaits'

theorem advance_tracked (h : sys.Inv histories) {projectId now : String} {pass : Pass rt}
    {next : PassStep rt} {rest : List (PassStep rt)}
    (hpass : sys.passes.get? projectId = some pass) (htodo : pass.todo = next :: rest)
    (htracked : sys.Tracked histories id condition armed) :
    (sys.advance projectId now pass next rest).Tracked histories id condition armed := by
  obtain ⟨w, hw, htracks⟩ := htracked
  have hadvanced := advance_advanced sys projectId now pass next rest
  generalize sys.advance projectId now pass next rest = after at hadvanced ⊢
  cases hadvanced with
  | failed | known => exact ⟨w, hw, htracks⟩
  | rebased =>
      refine ⟨w, ?_, htracks.graphCondition, htracks.armedRevision, ?_⟩
      · rw [get?_rebase, hw, Option.map_some, if_neg]
        simp [htracks.armedRevision]
      · rw [outcome_congr rfl]
        exact htracks.shows
  | consumed step hnew =>
      refine ⟨_, ?_,
        tracks_consume ((h.passes projectId pass hpass).nextIs htodo) hnew now htracks⟩
      rw [get?_consume, hw, Option.map_some]

/-- The event does not stop the watcher, unless it is a step of a pass. -/
def Event.Spares (cfg : Config) (s : Store) (id : String) : Event → Prop
  | .transaction t _ => ∀ w w', s.watchers.get? id = some w →
      (s.step cfg t).watchers.get? id = some w' → w.status ≠ .stopped → w'.status ≠ .stopped
  | _ => True

/-- Nothing but a pass stops the watcher. -/
def Unstopped (cfg : Config) (histories : Histories rt) (id : String) :
    System rt → List Event → Prop
  | _, [] => True
  | sys, event :: events =>
      event.Spares cfg sys.store id ∧
        Unstopped cfg histories id (sys.step cfg histories event) events

theorem step_tracked (h : sys.Inv histories) {event : Event}
    (hspares : event.Spares cfg sys.store id)
    (htracked : sys.Tracked histories id condition armed) :
    (sys.step cfg histories event).Tracked histories id condition armed := by
  rcases step_store cfg sys histories event with
    ⟨t, other, rfl, hstore⟩ | hstore | ⟨projectId, now, pass, next, rest, rfl, hpass, htodo, heq⟩
  · obtain ⟨w, hw, htracks⟩ := htracked
    have hmoved := transaction_moved cfg h.sound other
    obtain ⟨w', hw', -, -, htracks'⟩ :=
      tracks_of_moved hmoved hw htracks fun w' hw' => hspares w w' hw hw'
    exact ⟨w', hw', htracks'⟩
  · unfold System.Tracked
    rw [hstore]
    exact htracked
  · rw [heq]
    exact advance_tracked h hpass htodo htracked

theorem run_tracked (h : sys.Inv histories) {events : List Event}
    (hunstopped : Unstopped cfg histories id sys events)
    (htracked : sys.Tracked histories id condition armed) :
    (sys.run cfg histories events).Tracked histories id condition armed := by
  induction events generalizing sys with
  | nil => exact htracked
  | cons event events ih =>
      exact ih (step_inv cfg h event) hunstopped.2 (step_tracked cfg h hunstopped.1 htracked)

/-- The watcher's row is completed. -/
def Store.Completed (s : Store) (id : String) : Prop :=
  ∃ w, s.watchers.get? id = some w ∧ w.status = .completed

theorem step_completed (h : sys.Inv histories) {event : Event}
    (hspares : event.Spares cfg sys.store id) (hcompleted : sys.store.Completed id) :
    (sys.step cfg histories event).store.Completed id := by
  obtain ⟨w, hw, hdone⟩ := hcompleted
  have hlive : w.status ≠ .stopped := by
    rw [hdone]
    exact WatcherStatus.noConfusion
  have hawaits : w.awaits = false := by
    rw [Watcher.awaits, hdone]
    simp
  rcases step_store cfg sys histories event with
    ⟨t, other, rfl, hstore⟩ | hstore | ⟨projectId, now, pass, next, rest, rfl, hpass, htodo, heq⟩
  · obtain ⟨w', hw', hsince⟩ := (step_moved cfg h.sound t).rows id w hw
    refine ⟨w', hw', ?_⟩
    exact (hsince.completed hdone).resolve_right (hspares w w' hw hw' hlive)
  · rw [hstore]
    exact ⟨w, hw, hdone⟩
  · rw [heq]
    exact ⟨w, advance_settled hw hawaits, hdone⟩

theorem run_completed (h : sys.Inv histories) {events : List Event}
    (hunstopped : Unstopped cfg histories id sys events) (hcompleted : sys.store.Completed id) :
    (sys.run cfg histories events).store.Completed id := by
  induction events generalizing sys with
  | nil => exact hcompleted
  | cons event events ih =>
      exact ih (step_inv cfg h event) hunstopped.2 (step_completed cfg h hunstopped.1 hcompleted)

/-- After a pass of its target that has come to its head, the row of a condition shows the
first result of the boundaries between its arming and that head. -/
def System.Settled (histories : Histories rt) (sys : System rt) (id : String) : Prop :=
  ∀ w condition armed pass, sys.store.watchers.get? id = some w →
    w.graphCondition = some condition → w.armedRevision = some armed →
    sys.passes.get? w.projectId = some pass → pass.target = w.graphTarget → pass.todo = [] →
    w.Shows (first (AcceptedStep.judge condition armed) .active
      (between AcceptedStep.revision (histories w.projectId w.graphTarget).steps armed pass.head))

/-- What the store has consumed is what a finished pass has read. -/
theorem Pass.Ok.outcome {s : Store} {projectId : String} {pass : Pass rt}
    (h : pass.Ok histories s projectId) (htodo : pass.todo = []) :
    s.outcome histories projectId pass.target condition armed =
      first (AcceptedStep.judge condition armed) .active
        (between AcceptedStep.revision (histories projectId pass.target).steps armed
          pass.head) := by
  have hdone : ∀ step ∈ (histories projectId pass.target).steps, step.revision ≤ pass.head →
      ∃ head, s.consumed.get? (projectId, pass.target) = some head ∧
        step.revision ≤ head.revision := by
    intro step hstep hle
    rcases h.covers step hstep hle with hdone | hleft
    · exact hdone
    · rw [htodo] at hleft
      cases hleft
  unfold Store.outcome Store.stretch
  cases hc : s.consumed.get? (projectId, pass.target) with
  | none =>
      dsimp only
      rw [Cursor.between_eq_nil]
      intro step hstep _
      by_contra hlt
      obtain ⟨head, hhead, -⟩ := hdone step hstep (by omega)
      rw [hc] at hhead
      cases hhead
  | some stored =>
      dsimp only
      congr 1
      apply Cursor.between_congr
      intro step hstep _
      constructor
      · intro hle
        exact Nat.le_trans hle (h.behind stored hc)
      · intro hle
        obtain ⟨head, hhead, hle'⟩ := hdone step hstep hle
        rw [hc] at hhead
        cases hhead
        exact hle'

theorem System.Tracked.settled (h : sys.Inv histories)
    (htracked : sys.Tracked histories id condition armed) : sys.Settled histories id := by
  obtain ⟨w, hw, hg, ha, hshows⟩ := htracked
  intro w' condition' armed' pass hw' hg' ha' hpass htarget htodo
  rw [hw] at hw'
  cases hw'
  rw [hg] at hg'
  cases hg'
  rw [ha] at ha'
  cases ha'
  rw [← htarget, ← (h.passes w.projectId pass hpass).outcome htodo, htarget]
  exact hshows

theorem Watcher.Satisfied.completed {s : Store} {w : Watcher}
    (hw : s.watchers.get? id = some w) (h : w.Satisfied condition armed false) :
    s.Completed id := ⟨w, hw, h.status⟩

/-- Along every run: a condition that waits and has its baseline is settled by the first
boundary that decides it, one that its first look finds satisfied is stored completed and
stays so, the boundaries of a target are consumed once and in order, and a pass leaves the
rows of other targets. -/
theorem graphConditions_fire (cfg : Config) (histories : Histories rt) (init : InitialStore)
    (before after : List Event) :
    let mid := (System.initial rt init).run cfg histories before
    let final := mid.run cfg histories after
    (∀ id w, mid.store.watchers.get? id = some w → w.awaits = true → w.armedRevision.isSome →
      Unstopped cfg histories id mid after →
        (∃ w', final.store.watchers.get? id = some w' ∧ w'.graphCondition = w.graphCondition ∧
          w'.armedRevision = w.armedRevision) ∧ final.Settled histories id) ∧
    (∀ t other new removed condition (state : GraphState rt) armed, new ∈ t.handedOver →
      firstLook removed condition state armed = .ok new.observation →
      graphConditionResult condition state armed = .completed →
      mid.store.watchers.get? new.watcherId = none →
      ((t.body cfg).atomic mid.store).1 = .ok ⟨⟩ →
      let stored := mid.step cfg histories (.transaction t other)
      (∃ w, stored.store.watchers.get? new.watcherId = some w ∧
        w.Satisfied condition armed t.stopsNew) ∧
      (t.stopsNew = false → Unstopped cfg histories new.watcherId stored after →
        (stored.run cfg histories after).store.Completed new.watcherId)) ∧
    (∀ id, mid.store.Completed id → Unstopped cfg histories id mid after →
      final.store.Completed id) ∧
    final.log.Pairwise LogOrder ∧
    ∀ projectId pass now id w, final.passes.get? projectId = some pass →
      final.store.watchers.get? id = some w →
      w.projectId ≠ projectId ∨ w.graphTarget ≠ pass.target →
        (final.step cfg histories (.advance projectId now)).store.watchers.get? id = some w := by
  intro mid final
  have hmid : mid.Inv histories := run_inv cfg (System.initial_inv histories init) before
  have hfinal : final.Inv histories := run_inv cfg hmid after
  refine ⟨?_, ?_, ?_, hfinal.ordered, ?_⟩
  · intro id w hw hawaits harmed hunstopped
    obtain ⟨condition, hg⟩ := Option.isSome_iff_exists.mp (w.awaits_iff.mp hawaits).1
    obtain ⟨armed, ha⟩ := Option.isSome_iff_exists.mp harmed
    have htracked : mid.Tracked histories id condition armed := by
      refine ⟨w, hw, hg, ha, ?_⟩
      rw [hmid.waiting id w condition armed hw hawaits hg ha]
      exact .active hawaits
    have hlast := run_tracked cfg hmid hunstopped htracked
    have hsettled := hlast.settled hfinal
    obtain ⟨w', hw', htracks⟩ := hlast
    refine ⟨⟨w', hw', ?_, ?_⟩, hsettled⟩
    · rw [htracks.graphCondition, hg]
    · rw [htracks.armedRevision, ha]
  · intro t other new removed condition state armed hnew hlook hresult hnone hok stored
    obtain ⟨w, hw, hborn⟩ :=
      handedOver_satisfied hnew (firstLook_completed hlook hresult) hnone hok
    refine ⟨⟨w, hw, hborn⟩, ?_⟩
    intro hstops hunstopped
    rw [hstops] at hborn
    have hstored : stored.Inv histories := step_inv cfg hmid (.transaction t other)
    exact run_completed cfg hstored hunstopped (hborn.completed hw)
  · intro id hcompleted hunstopped
    exact run_completed cfg hmid hunstopped hcompleted
  · intro projectId pass now id w hpass hw hother
    rcases step_store cfg final histories (.advance projectId now) with
      ⟨t, other, heq, -⟩ | hstore | ⟨_, _, pass', next, rest, heq, hpass', -, hstep⟩
    · cases heq
    · rw [hstore]
      exact hw
    · cases heq
      rw [hpass] at hpass'
      cases hpass'
      rw [hstep]
      exact advance_other hw hother

end Rows

section Satisfied

def filedDecision : Patch .plain := firstPatch [.createNodes [decisionDraft "dec/a"]]

def opened : GraphCondition := .nodeStatus "dec/a" ["open"]

def plainConfig : Config where
  backoff := fun _ now _ => now
  authorizer := fun _ => none

def openBinding : WatcherBinding where
  projectId := "p"
  originOperationId := "op"
  originTaskKind := .projectChat
  chatId := "chat"
  nodeId := none
  episodeId := none
  workerId := none
  graphTarget := .main
  machineId := "host"
  continuation :=
    { patchKind := .work, controlNodeId := none, controlEpisodeId := none
      controlInvocation := none, controlInvocationCeiling := none, rest := "" }

/-- The condition is armed on a state, and a pass comes to that state's revision. -/
def armedAndRead (observation : Observation) (head : Nat) : List Event :=
  [ .transaction (.arm { childRoute := none, stoppedEpisode := none }
      [ { watcherId := "w", binding := openBinding, observation, createdAt := "t0"
          group := none } ]) rfl,
    .start "p" .main head false, .advance "p" "t1", .advance "p" "t2" ]

def emptyStart : InitialStore where
  store := Store.empty
  sound := Store.empty_sound
  unconsumed := rfl

/-- A target with one accepted state. -/
def oneStep (state : GraphState .plain) : Histories .plain := fun _ _ =>
  { steps := [{ state, trace := none }], increasing := List.pairwise_singleton _ _ }

theorem satisfied_condition_completed :
    ∃ (state : GraphState .plain) (observation : Observation),
      applyValidPatch (.initial .plain ["repo"]) filedDecision = .ok state ∧
      armGraphCondition opened state = .ok observation ∧
      Unstopped plainConfig (oneStep state) "w" (System.initial .plain emptyStart)
        (armedAndRead observation state.revision) ∧
      ¬((System.initial .plain emptyStart).run plainConfig (oneStep state)
        (armedAndRead observation state.revision)).Settled (oneStep state) "w" := by
  refine ⟨_, _, rfl, rfl, ⟨?_, trivial, trivial, trivial, trivial⟩, ?_⟩
  · intro w w' hw
    cases hw
  · intro hsettled
    have hshows := hsettled _ _ _ _ rfl rfl rfl rfl rfl rfl
    cases hshows with
    | active hawaits => cases hawaits

end Satisfied

end RcpGraph.Watchers
