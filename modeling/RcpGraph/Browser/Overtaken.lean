import RcpGraph.Browser.Freshness

/-!
An answer that was overtaken. After an accepted read, the settlement of a command or a new
epoch, the answers to what was asked before bring their key nothing.
-/

namespace RcpGraph.Browser

universe u

variable {V : Type u} {catalog : Catalog V} {server : Server catalog} {w : World V}
  {s s' : Store V}

section Values

theorem setState_value {key : ResourceKey} {st st' : ResourceState V}
    (hst : s.states.get? key = some st) (h : st'.value = st.value) (key' : ResourceKey) :
    (s.setState key st').committedValue key' = s.committedValue key' := by
  unfold Store.committedValue
  rw [get?_setState]
  by_cases heq : key' = key
  · rw [if_pos heq, heq, hst]
    exact h
  · rw [if_neg heq]

theorem modify_value {change : ResourceState V → ResourceState V}
    (h : ∀ st, (change st).value = st.value) (s : Store V) (key key' : ResourceKey) :
    (s.modify key change).committedValue key' = s.committedValue key' := by
  unfold Store.modify
  cases hst : s.states.get? key with
  | none => rfl
  | some st => exact setState_value hst (h st) key'

theorem startRead_value (s : Store V) (key : ResourceKey) (background : Bool)
    (key' : ResourceKey) :
    (s.startRead key background).committedValue key' = s.committedValue key' := by
  unfold Store.startRead
  cases hst : s.states.get? key with
  | none => rfl
  | some st =>
      have hvalue : ({ st with sequence := st.sequence + 1, lastRead := s.reads + 1
                               inFlight := some (s.reads + 1) } : ResourceState V).value =
          st.value := rfl
      exact setState_value hst hvalue key'

theorem pumpLoop_value (backgroundWaiting : Bool) (keys : List ResourceKey) (s : Store V)
    (key' : ResourceKey) :
    (Store.pumpLoop backgroundWaiting keys s).committedValue key' = s.committedValue key' := by
  induction keys generalizing s with
  | nil => rfl
  | cons key keys ih =>
      unfold Store.pumpLoop
      dsimp only
      split
      · rfl
      split
      · exact ih s
      split
      · exact ih s
      · exact (ih _).trans (startRead_value s key _ key')

theorem pump_value (s : Store V) (now : Nat) (key' : ResourceKey) :
    (s.pump now).committedValue key' = s.committedValue key' := pumpLoop_value _ _ s key'

theorem endRead_value (s : Store V) (read : Read) (key' : ResourceKey) :
    (s.endRead read).committedValue key' = s.committedValue key' := by
  refine modify_value ?_ s read.key key'
  intro st
  unfold Store.letGo
  split
  · rfl
  · rfl

end Values

section Reads

/-- The read is not the one that counts for its state, and will not be. -/
def Outrun (s : Store V) (read : Read) : Prop :=
  ∀ st, s.states.get? read.key = some st → st.uid = read.uid →
    read.generation < st.generation ∨ read.sequence < st.sequence

theorem Outrun.ages {read : Read} (h : Outrun s read) (huid : read.uid < s.nextUid)
    (ha : Ages s s') : Outrun s' read := by
  intro st' hst' huid'
  rcases ha.states read.key st' hst' with ⟨st, hst, hold⟩ | hnew
  · have hg := hold.generation
    have hs := hold.sequence
    rcases h st hst (hold.uid.symm.trans huid') with hlt | hlt
    · left
      omega
    · right
      omega
  · omega

theorem Outrun.not_accepts {read : Read} (h : Outrun s read) : ¬ s.accepts read = true := by
  intro haccepts
  obtain ⟨st, hst, huid, hgen, hseq⟩ := (accepts_iff s read).mp haccepts
  rcases h st hst huid with hlt | hlt
  · omega
  · omega

/-- A read that was outrun brings nothing. -/
theorem Outrun.finishRead {read : Read} (h : Outrun s read) (outcome : Store.ReadOutcome V)
    (now : Nat) (key' : ResourceKey) :
    (s.finishRead catalog read outcome now).committedValue key' = s.committedValue key' := by
  unfold Store.finishRead
  rw [if_neg h.not_accepts, pump_value, endRead_value]

/-- Of the reads of a state, only the accepted one was not outrun. -/
theorem Outrun.of_accepted (hs : s.Sorted) {read read' : Read} (hread : read ∈ s.reading)
    (hread' : read' ∈ s.reading) (hne : read'.readStart ≠ read.readStart)
    (hkey : read'.key = read.key) (haccepts : s.accepts read = true) : Outrun s read' := by
  intro st hst huid
  obtain ⟨st₀, hst₀, huid₀, -, hseq⟩ := (accepts_iff s read).mp haccepts
  have hle := hs.sequence read' hread' st hst huid
  rw [hkey, hst₀] at hst
  obtain rfl := Option.some_inj.mp hst
  right
  have hother := hs.sequence_ne hread hread' hne hkey (huid.symm.trans huid₀)
  omega

end Reads

section Commands

/-- The command has nothing more to bring the key. -/
def Overtaken (s : Store V) (command : Command) (key : ResourceKey) : Prop :=
  ∀ start, command.startedAt.get? key = some start → start.uid < s.nextUid ∧
    ∀ st, s.states.get? key = some st → st.uid = start.uid →
      start.generation < st.generation ∨ start.reads < st.acceptedReads ∨
        command.order ≤ st.settledMutation

theorem Overtaken.ages {command : Command} {key : ResourceKey} (h : Overtaken s command key)
    (ha : Ages s s') : Overtaken s' command key := by
  intro start hstart
  obtain ⟨huid, hstates⟩ := h start hstart
  refine ⟨Nat.lt_of_lt_of_le huid ha.nextUid, ?_⟩
  intro st' hst' huid'
  rcases ha.states key st' hst' with ⟨st, hst, hold⟩ | hnew
  · have hg := hold.generation
    have hr := hold.acceptedReads
    have hm := hold.settledMutation
    rcases hstates st hst (hold.uid.symm.trans huid') with hlt | hlt | hle
    · left
      omega
    · right; left
      omega
    · right; right
      omega
  · omega

theorem settleState_value {epoch : Option String} {order : Nat} {key : ResourceKey}
    {start : CommandStart} {supplied : Option (Store.Supplied V)} {st : ResourceState V}
    (h : start.generation < st.generation ∨ start.reads < st.acceptedReads ∨
      order ≤ st.settledMutation) :
    (Store.settleState catalog epoch order key start supplied st).value = st.value := by
  have hcurrent : (decide (st.settledMutation < order) &&
      decide (start.generation = st.generation) && decide (start.reads = st.acceptedReads)) =
        false := by
    rw [Bool.and_eq_false_iff, Bool.and_eq_false_iff]
    simp only [decide_eq_false_iff_not]
    omega
  unfold Store.settleState
  dsimp only
  rw [hcurrent]
  rfl

/-- An overtaken command brings its key nothing. -/
theorem Overtaken.finishEffect {command : Command} {key : ResourceKey}
    (h : Overtaken s command key) (values : Dict ResourceKey (Store.Supplied V))
    (key' : ResourceKey) :
    (Store.finishEffect catalog command (.settled values) s key').committedValue key =
      s.committedValue key := by
  unfold Store.finishEffect
  cases hst : s.states.get? key' with
  | none => rfl
  | some st =>
      cases hstart : command.startedAt.get? key' with
      | none => rfl
      | some start =>
          dsimp only
          split
          · rfl
          · rename_i huid
            by_cases heq : key = key'
            · subst heq
              refine setState_value hst ?_ key
              exact settleState_value ((h start hstart).2 st hst (not_not.mp huid).symm)
            · unfold Store.committedValue
              rw [get?_setState, if_neg heq]

theorem Overtaken.finishEffects {command : Command} {key : ResourceKey}
    (h : Overtaken s command key) (values : Dict ResourceKey (Store.Supplied V))
    (keys : List ResourceKey) :
    (keys.foldl (Store.finishEffect catalog command (.settled values)) s).committedValue key =
      s.committedValue key := by
  induction keys generalizing s with
  | nil => rfl
  | cons key' keys ih =>
      have hone : (Store.finishEffect catalog command (.settled values) s key').committedValue key =
          s.committedValue key := h.finishEffect values key'
      exact (ih (h.ages (finishEffect_ages command values s key'))).trans hone

/-- The effect of a command on a state that it knows. -/
theorem finishEffect_settles {command : Command} {key : ResourceKey} {start : CommandStart}
    (hstart : command.startedAt.get? key = some start)
    {values : Dict ResourceKey (Store.Supplied V)} {st' : ResourceState V}
    (hst' : (Store.finishEffect catalog command (.settled values) s key).states.get? key = some st')
    (huid : st'.uid = start.uid) :
    ∃ st, s.states.get? key = some st ∧ st.uid = start.uid ∧ st.sequence < st'.sequence ∧
      command.order ≤ st'.settledMutation := by
  unfold Store.finishEffect at hst'
  rw [hstart] at hst'
  cases hst : s.states.get? key with
  | none =>
      rw [hst] at hst'
      dsimp only at hst'
      rw [hst] at hst'
      cases hst'
  | some st =>
      rw [hst] at hst'
      dsimp only at hst'
      split at hst'
      · rename_i hne
        rw [hst] at hst'
        cases hst'
        exact absurd huid.symm hne
      · rename_i hsame
        rw [get?_setState, if_pos rfl] at hst'
        obtain rfl := Option.some_inj.mp hst'
        refine ⟨st, rfl, (not_not.mp hsame).symm, ?_⟩
        unfold Store.endEffect Store.settleState
        dsimp only
        split
        · refine ⟨Nat.lt_succ_self _, ?_⟩
          dsimp only
          split <;> omega
        · refine ⟨Nat.lt_succ_self _, ?_⟩
          dsimp only
          split <;> omega

/-- A settlement fences the reads in flight and the commands that started before its own. -/
theorem finishEffects_settles {command : Command} {key : ResourceKey} {start : CommandStart}
    (hstart : command.startedAt.get? key = some start) (hnew : start.uid < s.nextUid)
    {values : Dict ResourceKey (Store.Supplied V)} {keys : List ResourceKey} (hkey : key ∈ keys)
    {st' : ResourceState V}
    (hst' : (keys.foldl (Store.finishEffect catalog command (.settled values)) s).states.get? key =
      some st') (huid : st'.uid = start.uid) :
    ∃ st, s.states.get? key = some st ∧ st.uid = start.uid ∧ st.sequence < st'.sequence ∧
      command.order ≤ st'.settledMutation := by
  obtain ⟨before, after, rfl⟩ := List.append_of_mem hkey
  rw [List.foldl_append, List.foldl_cons] at hst'
  have hbefore : Ages s (before.foldl (Store.finishEffect catalog command (.settled values)) s) :=
    finishEffects_ages command values before s
  generalize before.foldl (Store.finishEffect catalog command (.settled values)) s = s₁
    at hst' hbefore
  have hone : Ages s₁ (Store.finishEffect catalog command (.settled values) s₁ key) :=
    finishEffect_ages command values s₁ key
  have hbound := Nat.le_trans hbefore.nextUid hone.nextUid
  rcases (finishEffects_ages command values after _).states key st' hst' with
    ⟨st₂, hst₂, hold₂⟩ | hlate
  · obtain ⟨st₁, hst₁, huid₁, hseq, horder⟩ :=
      finishEffect_settles hstart hst₂ (hold₂.uid.symm.trans huid)
    have hseq₂ := hold₂.sequence
    have hsettled := hold₂.settledMutation
    rcases hbefore.states key st₁ hst₁ with ⟨st, hst, hold⟩ | hlate
    · have hseq₁ := hold.sequence
      exact ⟨st, hst, hold.uid.symm.trans huid₁, by omega, by omega⟩
    · omega
  · omega

end Commands

end RcpGraph.Browser
