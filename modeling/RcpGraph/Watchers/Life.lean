import RcpGraph.Watchers.Claims
import RcpGraph.Watchers.Observing

/-!
The life of a watcher's result. `Write` says once what a transaction may do to the columns
that decide it; what a store keeps from one transaction to the next follows from that.
-/

namespace RcpGraph.Watchers

open Crash

variable {w w' w'' : Watcher} {reconciles : Prop} {claims : String → Prop}

/-- Columns that fit together: a claimed row is notified, a notified row is claimed or
stopped, a stopped row tells by whom and when, and a graph condition is not cancelled. -/
structure Watcher.Sound (w : Watcher) : Prop where
  claimed : w.notificationOperationId.isSome → w.notified = true
  notified : w.notified = true → w.status = .stopped ∨ w.notificationOperationId.isSome
  stopped : w.status = .stopped → w.notified = true ∧ w.stoppedBy.isSome ∧ w.stoppedAt.isSome
  uncancelled : w.graphCondition.isSome → w.cancelRequestedAt = none

/-- The result still waits, was handed to a task, or was given up by a recorded stop. -/
def Watcher.Accounted (w : Watcher) : Prop :=
  (w.status = .completed ∧ w.notified = false) ∨ w.notificationOperationId.isSome ∨
    (w.status = .stopped ∧ w.stoppedBy.isSome ∧ w.stoppedAt.isSome)

theorem Watcher.Sound.accounted (h : w.Sound) (hcompleted : w.status = .completed) :
    w.Accounted := by
  cases hn : w.notified with
  | false => exact .inl ⟨hcompleted, hn⟩
  | true =>
      rcases h.notified hn with hstopped | hclaimed
      · rw [hcompleted] at hstopped
        cases hstopped
      · exact .inr (.inl hclaimed)

theorem Watcher.Sound.unclaimed (h : w.Sound) (hn : w.notified = false) :
    w.notificationOperationId = none := by
  cases hc : w.notificationOperationId with
  | none => rfl
  | some op =>
      have hnotified := h.claimed (by rw [hc]; rfl)
      rw [hn] at hnotified
      cases hnotified

theorem Watcher.awaits_iff (w : Watcher) :
    w.awaits = true ↔ w.graphCondition.isSome ∧ w.status = .active ∧ w.notified = false := by
  simp [Watcher.awaits, and_assoc]

/-- The columns that are written once. Only a reconciliation gives a row its baseline. -/
structure Watcher.Frame (reconciles : Prop) (w w' : Watcher) : Prop where
  projectId : w'.projectId = w.projectId
  graphTarget : w'.graphTarget = w.graphTarget
  graphCondition : w'.graphCondition = w.graphCondition
  armedRevision : w'.armedRevision = w.armedRevision ∨ (reconciles ∧ w.armedRevision = none)
  cancel : w.graphCondition.isSome → w.cancelRequestedAt = none → w'.cancelRequestedAt = none

/-- What one write may do to the columns of the result. A claim is by a task that `claims`
allows, and only a reconciliation settles a graph condition. -/
inductive Watcher.Write (reconciles : Prop) (claims : String → Prop) (w w' : Watcher) :
    Prop where
  | kept : w'.status = w.status → w'.notified = w.notified →
      w'.notificationOperationId = w.notificationOperationId → w'.stoppedBy = w.stoppedBy →
      w'.stoppedAt = w.stoppedAt → Write reconciles claims w w'
  | observed : w.graphCondition = none → w.status.observing = true → w.notified = false →
      w'.status ≠ .stopped → w'.notified = false →
      w'.notificationOperationId = w.notificationOperationId → Write reconciles claims w w'
  | satisfied : reconciles → w.awaits = true → w'.status = .completed → w'.notified = false →
      w'.notificationOperationId = w.notificationOperationId → Write reconciles claims w w'
  | finished : w.cancelRequestedAt.isSome → w.status ≠ .stopped → w'.status = .completed →
      w'.notified = w.notified → w'.notificationOperationId = w.notificationOperationId →
      Write reconciles claims w w'
  | stopped : w'.status = .stopped → w'.notified = true →
      w'.notificationOperationId = w.notificationOperationId → w'.stoppedBy.isSome →
      w'.stoppedAt.isSome → Write reconciles claims w w'
  | claimed (op : String) : claims op → w.status.ready = true → w.notified = false →
      w'.status = w.status → w'.notified = true → w'.notificationOperationId = some op →
      Write reconciles claims w w'

/-- One write of a row. -/
structure Watcher.Step (reconciles : Prop) (claims : String → Prop) (w w' : Watcher) : Prop where
  frame : w.Frame reconciles w'
  write : w.Write reconciles claims w'

theorem WatcherStatus.ne_of_ready {st : WatcherStatus} (h : st.ready = true) :
    st ≠ .stopped ∧ st ≠ .active := by
  cases st with
  | degraded | completed => exact ⟨WatcherStatus.noConfusion, WatcherStatus.noConfusion⟩
  | active | stopped => cases h

theorem WatcherStatus.ne_of_observing {st : WatcherStatus} (h : st.observing = true) :
    st ≠ .stopped ∧ st ≠ .completed := by
  cases st with
  | active | degraded => exact ⟨WatcherStatus.noConfusion, WatcherStatus.noConfusion⟩
  | completed | stopped => cases h

theorem Watcher.Step.sound (h : w.Step reconciles claims w') (hw : w.Sound) : w'.Sound := by
  obtain ⟨hframe, hwrite⟩ := h
  have hcancel : w'.graphCondition.isSome → w'.cancelRequestedAt = none := by
    rw [hframe.graphCondition]
    intro hg
    exact hframe.cancel hg (hw.uncancelled hg)
  -- a row that is not notified has no claim either
  have hopen : w.notified = false → w'.notified = false →
      w'.notificationOperationId = w.notificationOperationId → w'.status ≠ .stopped →
      w'.Sound := by
    intro hfree hn hc hs
    refine ⟨?_, ?_, fun h => absurd h hs, hcancel⟩
    · rw [hc, hw.unclaimed hfree]
      intro h
      cases h
    · rw [hn]
      intro h
      cases h
  cases hwrite with
  | kept hs hn hc hb ha =>
      refine ⟨?_, ?_, ?_, hcancel⟩
      · rw [hc, hn]
        exact hw.claimed
      · rw [hn, hs, hc]
        exact hw.notified
      · rw [hs, hn, hb, ha]
        exact hw.stopped
  | observed _ _ hfree hs hn hc => exact hopen hfree hn hc hs
  | satisfied _ hawaits hs hn hc =>
      obtain ⟨-, -, hfree⟩ := w.awaits_iff.mp hawaits
      exact hopen hfree hn hc (by rw [hs]; exact WatcherStatus.noConfusion)
  | finished _ hlive hs hn hc =>
      refine ⟨?_, ?_, ?_, hcancel⟩
      · rw [hc, hn]
        exact hw.claimed
      · rw [hn, hc]
        intro h
        exact .inr ((hw.notified h).resolve_left hlive)
      · rw [hs]
        intro h
        cases h
  | stopped hs hn hc hb ha =>
      exact ⟨fun _ => hn, fun _ => .inl hs, fun _ => ⟨hn, hb, ha⟩, hcancel⟩
  | claimed op _ hready _ hs hn hc =>
      refine ⟨fun _ => hn, fun _ => .inr ?_, ?_, hcancel⟩
      · rw [hc]
        rfl
      · rw [hs]
        intro h
        exact absurd h (WatcherStatus.ne_of_ready hready).1

/-- What a row keeps of what it was, and a graph condition of its wait. -/
structure Watcher.Since (reconciles : Prop) (w w' : Watcher) : Prop where
  frame : w.Frame reconciles w'
  notified : w.notified = true → w'.notified = true
  claim : ∀ op, w.notificationOperationId = some op → w'.notificationOperationId = some op
  stopped : w.status = .stopped → w'.status = .stopped
  completed : w.status = .completed → w'.status = .completed ∨ w'.status = .stopped
  accounted : w.Accounted → w'.Accounted
  waits : w.awaits = true → w'.awaits = true ∨ w'.status = .stopped ∨ reconciles
  waited : w'.awaits = true → w.awaits = true

theorem Watcher.Frame.refl (w : Watcher) : w.Frame reconciles w :=
  ⟨rfl, rfl, rfl, .inl rfl, fun _ h => h⟩

theorem Watcher.Frame.trans (h : w.Frame reconciles w') (h' : w'.Frame reconciles w'') :
    w.Frame reconciles w'' where
  projectId := h'.projectId.trans h.projectId
  graphTarget := h'.graphTarget.trans h.graphTarget
  graphCondition := h'.graphCondition.trans h.graphCondition
  armedRevision := by
    rcases h.armedRevision with heq | hnone
    · rw [← heq]
      exact h'.armedRevision
    · exact .inr hnone
  cancel hg hc := h'.cancel (by rw [h.graphCondition]; exact hg) (h.cancel hg hc)

theorem Watcher.Since.refl (w : Watcher) : w.Since reconciles w :=
  ⟨.refl w, id, fun _ h => h, id, .inl, id, .inl, id⟩

theorem Watcher.Since.trans (h : w.Since reconciles w') (h' : w'.Since reconciles w'') :
    w.Since reconciles w'' where
  frame := h.frame.trans h'.frame
  notified hn := h'.notified (h.notified hn)
  claim op hc := h'.claim op (h.claim op hc)
  stopped hs := h'.stopped (h.stopped hs)
  completed hc := by
    rcases h.completed hc with hc | hs
    · exact h'.completed hc
    · exact .inr (h'.stopped hs)
  accounted ha := h'.accounted (h.accounted ha)
  waits hw := by
    rcases h.waits hw with hw | hs | hr
    · exact h'.waits hw
    · exact .inr (.inl (h'.stopped hs))
    · exact .inr (.inr hr)
  waited hw := h.waited (h'.waited hw)

theorem Watcher.not_awaits_of_status (h : w.status ≠ .active) : w.awaits ≠ true := by
  intro hw
  exact h (w.awaits_iff.mp hw).2.1

theorem Watcher.Step.since (h : w.Step reconciles claims w') (hw : w.Sound) :
    w.Since reconciles w' := by
  obtain ⟨hframe, hwrite⟩ := h
  cases hwrite with
  | kept hs hn hc hb ha =>
      have hawaits : w'.awaits = w.awaits := by
        simp only [Watcher.awaits, hframe.graphCondition, hs, hn]
      refine ⟨hframe, ?_, ?_, ?_, ?_, ?_, ?_, ?_⟩
      · rw [hn]
        exact id
      · rw [hc]
        exact fun _ h => h
      · rw [hs]
        exact id
      · rw [hs]
        exact .inl
      · unfold Watcher.Accounted
        rw [hs, hn, hc, hb, ha]
        exact id
      · rw [hawaits]
        exact .inl
      · rw [hawaits]
        exact id
  | observed hext hobs hfree hs hn hc =>
      obtain ⟨hlive, hunfinished⟩ := WatcherStatus.ne_of_observing hobs
      have hnone := hw.unclaimed hfree
      refine ⟨hframe, ?_, ?_, fun h => absurd h hlive, fun h => absurd h hunfinished, ?_, ?_, ?_⟩
      · rw [hfree]
        intro h
        cases h
      · rw [hc]
        exact fun _ h => h
      · rintro (⟨h, -⟩ | h | ⟨h, -⟩)
        · exact absurd h hunfinished
        · rw [hnone] at h
          cases h
        · exact absurd h hlive
      · intro h
        have hg := (w.awaits_iff.mp h).1
        rw [hext] at hg
        cases hg
      · intro h
        have hg := (w'.awaits_iff.mp h).1
        rw [hframe.graphCondition, hext] at hg
        cases hg
  | satisfied hr hawaits hs hn hc =>
      obtain ⟨-, hactive, hfree⟩ := w.awaits_iff.mp hawaits
      have hnone := hw.unclaimed hfree
      refine ⟨hframe, ?_, ?_, ?_, fun _ => .inl hs, fun _ => .inl ⟨hs, hn⟩,
        fun _ => .inr (.inr hr), fun _ => hawaits⟩
      · rw [hfree]
        intro h
        cases h
      · rw [hc]
        exact fun _ h => h
      · rw [hactive]
        intro h
        cases h
  | finished hcancel hlive hs hn hc =>
      refine ⟨hframe, ?_, ?_, fun h => absurd h hlive, fun _ => .inl hs, ?_, ?_, ?_⟩
      · rw [hn]
        exact id
      · rw [hc]
        exact fun _ h => h
      · rintro (⟨-, h⟩ | h | ⟨h, -⟩)
        · exact .inl ⟨hs, hn.trans h⟩
        · rw [← hc] at h
          exact .inr (.inl h)
        · exact absurd h hlive
      · intro h
        have hg := (w.awaits_iff.mp h).1
        rw [hw.uncancelled hg] at hcancel
        cases hcancel
      · intro h
        exact absurd h (Watcher.not_awaits_of_status (by rw [hs]; exact WatcherStatus.noConfusion))
  | stopped hs hn hc hb ha =>
      refine ⟨hframe, fun _ => hn, ?_, fun _ => hs, fun _ => .inr hs,
        fun _ => .inr (.inr ⟨hs, hb, ha⟩), fun _ => .inr (.inl hs), ?_⟩
      · rw [hc]
        exact fun _ h => h
      · intro h
        exact absurd h (Watcher.not_awaits_of_status (by rw [hs]; exact WatcherStatus.noConfusion))
  | claimed op _ hready hfree hs hn hc =>
      have hnone := hw.unclaimed hfree
      have hactive := (WatcherStatus.ne_of_ready hready).2
      refine ⟨hframe, fun _ => hn, ?_, ?_, ?_, fun _ => .inr (.inl ?_), ?_, ?_⟩
      · rw [hnone]
        intro op h
        cases h
      · rw [hs]
        exact id
      · rw [hs]
        exact .inl
      · rw [hc]
        rfl
      · intro h
        exact absurd h (Watcher.not_awaits_of_status hactive)
      · intro h
        exact absurd h (Watcher.not_awaits_of_status (by rw [hs]; exact hactive))

/-- Every row fits. -/
def Store.Sound (s : Store) : Prop := ∀ id w, s.watchers.get? id = some w → w.Sound

/-- The task that a watcher's result was handed to. -/
def Store.claimOf (s : Store) (id : String) : Option String :=
  (s.watchers.get? id).bind Watcher.notificationOperationId

/-- The condition is armed, and not behind what its target has consumed. -/
def Store.ArmedAhead (s : Store) (w : Watcher) : Prop :=
  ∃ armed, w.armedRevision = some armed ∧
    ∀ head, s.consumed.get? (w.projectId, w.graphTarget) = some head → head.revision ≤ armed

/-- What a transaction does to a store: rows and tasks stay, a row is claimed exactly when
the task that names it is queued, and a new condition is armed ahead of its target. -/
structure Moved (reconciles : Prop) (s t : Store) : Prop where
  sound : t.Sound
  rows : ∀ id w, s.watchers.get? id = some w →
    ∃ w', t.watchers.get? id = some w' ∧ w.Since reconciles w'
  born : ¬ reconciles → ∀ id w', s.watchers.get? id = none → t.watchers.get? id = some w' →
    w'.awaits = true → s.ArmedAhead w'
  consumed : ¬ reconciles → t.consumed = s.consumed
  tasks : ∀ op task, s.tasks.get? op = some task → t.tasks.get? op = some task
  claims : ∀ id op, s.claimOf id = none → t.claimOf id = some op → op ∉ s.tasks ∧
    ∃ task, t.tasks.get? op = some task ∧ task.cause.recovers = false ∧ id ∈ task.names
  named : ∀ op task, op ∉ s.tasks → t.tasks.get? op = some task → task.cause.recovers = false →
    ∀ id ∈ task.names, s.claimOf id = none ∧ t.claimOf id = some op

variable {s t u : Store}

theorem Moved.claim (h : Moved reconciles s t) {id op : String} (hc : s.claimOf id = some op) :
    t.claimOf id = some op := by
  obtain ⟨w, hw, hop⟩ := Option.bind_eq_some_iff.mp hc
  obtain ⟨w', hw', hsince⟩ := h.rows id w hw
  exact Option.bind_eq_some_iff.mpr ⟨w', hw', hsince.claim op hop⟩

theorem Moved.unclaimed (h : Moved reconciles s t) {id : String} (hc : t.claimOf id = none) :
    s.claimOf id = none := by
  cases hs : s.claimOf id with
  | none => rfl
  | some op =>
      rw [h.claim hs] at hc
      cases hc

theorem Moved.mem_tasks (h : Moved reconciles s t) {op : String} (hop : op ∈ s.tasks) :
    op ∈ t.tasks := by
  obtain ⟨task, htask⟩ := (Dict.mem_iff_exists _ _).mp hop
  exact Dict.mem_of_get? (h.tasks op task htask)

theorem Moved.refl (hs : s.Sound) : Moved reconciles s s where
  sound := hs
  rows _ w hw := ⟨w, hw, .refl w⟩
  born _ id w' hnone hsome := by
    rw [hnone] at hsome
    cases hsome
  consumed _ := rfl
  tasks _ _ h := h
  claims id op hnone hsome := by
    rw [hnone] at hsome
    cases hsome
  named op task hop htask := absurd (Dict.mem_of_get? htask) hop

/-- A reconciliation may do more. -/
theorem Moved.mono {reconciles' : Prop} (h : Moved reconciles s t)
    (hr : reconciles → reconciles') : Moved reconciles' s t where
  sound := h.sound
  rows id w hw := by
    obtain ⟨w', hw', hsince⟩ := h.rows id w hw
    obtain ⟨hframe, hn, hc, hs, hdone, ha, hwaits, hwaited⟩ := hsince
    refine ⟨w', hw', ⟨?_, hn, hc, hs, hdone, ha, ?_, hwaited⟩⟩
    · obtain ⟨h1, h2, h3, h4, h5⟩ := hframe
      exact ⟨h1, h2, h3, h4.imp_right fun h => ⟨hr h.1, h.2⟩, h5⟩
    · exact fun h => (hwaits h).imp_right (Or.imp_right hr)
  born hnot := h.born fun h => hnot (hr h)
  consumed hnot := h.consumed fun h => hnot (hr h)
  tasks := h.tasks
  claims := h.claims
  named := h.named

theorem Moved.trans (h : Moved reconciles s t) (h' : Moved reconciles t u) :
    Moved reconciles s u where
  sound := h'.sound
  rows id w hw := by
    obtain ⟨w', hw', hsince⟩ := h.rows id w hw
    obtain ⟨w'', hw'', hsince'⟩ := h'.rows id w' hw'
    exact ⟨w'', hw'', hsince.trans hsince'⟩
  born hr id w'' hnone hsome hawaits := by
    cases hw' : t.watchers.get? id with
    | none =>
        have hahead := h'.born hr id w'' hw' hsome hawaits
        unfold Store.ArmedAhead at hahead
        rwa [h.consumed hr] at hahead
    | some w' =>
        obtain ⟨u', hu', hsince⟩ := h'.rows id w' hw'
        rw [hsome] at hu'
        cases hu'
        have hahead := h.born hr id w' hnone hw' (hsince.waited hawaits)
        unfold Store.ArmedAhead
        rw [hsince.frame.projectId, hsince.frame.graphTarget,
          hsince.frame.armedRevision.resolve_right fun h => hr h.1]
        exact hahead
  consumed hr := (h'.consumed hr).trans (h.consumed hr)
  tasks op task htask := h'.tasks op task (h.tasks op task htask)
  claims id op hnone hsome := by
    cases ht : t.claimOf id with
    | none =>
        obtain ⟨hop, htask⟩ := h'.claims id op ht hsome
        exact ⟨fun hmem => hop (h.mem_tasks hmem), htask⟩
    | some op' =>
        have hkept := h'.claim ht
        rw [hsome] at hkept
        cases hkept
        obtain ⟨hop, task, htask, hcause, hnames⟩ := h.claims id op hnone ht
        exact ⟨hop, task, h'.tasks op task htask, hcause, hnames⟩
  named op task hop htask hcause id hid := by
    by_cases hmem : op ∈ t.tasks
    · obtain ⟨task', htask'⟩ := (Dict.mem_iff_exists _ _).mp hmem
      have hsame := h'.tasks op task' htask'
      rw [htask] at hsame
      cases hsame
      obtain ⟨hnone, hsome⟩ := h.named op task hop htask' hcause id hid
      exact ⟨hnone, h'.claim hsome⟩
    · obtain ⟨hnone, hsome⟩ := h'.named op task hmem htask hcause id hid
      exact ⟨h.unclaimed hnone, hsome⟩

end RcpGraph.Watchers
