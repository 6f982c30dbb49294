import RcpGraph.History.Admitted

/-!
Decisions and their choices. A Decision that is decided selects one of its
options. Each update of a Decision is judged against the Decision from before its
operation, so two updates of one Decision in one operation can pass and leave an
incoherent choice; in appends that choose once per operation every Decision stays
coherent. Whatever the operation, an ordinary agent decides nothing.
-/

namespace RcpGraph

open Schema

variable {rt : Runtime}

/-- The fields that carry a Decision's choice. -/
structure Choice where
  status : Json
  selected : Json
  options : Json
  deriving DecidableEq

def choiceFields : List String := ["status", "selected_option", "options"]

def ProjectNode.choice (n : ProjectNode rt) : Choice where
  status := (n.field? "status").getD .null
  selected := (n.field? "selected_option").getD .null
  options := (n.field? "options").getD .null

/-- The choice with the changes of one update. -/
def Choice.after (c : Choice) (changes : Dict String Json) : Choice where
  status := changes.getD "status" c.status
  selected := changes.getD "selected_option" c.selected
  options := changes.getD "options" c.options

def NodeUpdate.writesChoice (u : NodeUpdate) : Bool :=
  choiceFields.any fun f => decide (f ∈ u.changes)

def ProjectNode.Decided (n : ProjectNode rt) : Prop :=
  n.type = .decision ∧ n.choice.status = .str "decided"

instance (n : ProjectNode rt) : Decidable n.Decided :=
  inferInstanceAs (Decidable (_ ∧ _))

/-- A decided Decision selects one of its options. -/
def ProjectNode.Coherent (n : ProjectNode rt) : Prop :=
  n.Decided → ∃ o ∈ n.texts "options", n.field? "selected_option" = some (.str o)

instance (n : ProjectNode rt) : Decidable n.Coherent :=
  inferInstanceAs (Decidable (_ → _))

def GraphState.DecisionsCoherent (s : GraphState rt) : Prop :=
  ∀ id n, s.nodes.get? id = some n → n.Coherent

instance (s : GraphState rt) : Decidable s.DecisionsCoherent :=
  decidable_of_iff (∀ n ∈ s.nodes.values, n.Coherent) (by
    simp only [Dict.mem_values]
    exact ⟨fun h id n hn => h n ⟨id, hn⟩, fun h n ⟨id, hn⟩ => h id n hn⟩)

section Fields

theorem verbatim_text : Fields.text.Verbatim := Kind.verbatim_str _ _

theorem verbatim_choice (options : List String) : (Fields.choice options).Verbatim :=
  Kind.verbatim_str _ _

/-- The declarations of the choice fields. -/
def choiceDeclarations : List Field :=
  [ Fields.choiceField "status" "open" ["ready", "decided", "revisit", "superseded"],
    Fields.nullableText "selected_option", Fields.textsField "options" ]

theorem choiceDeclarations_mem (rt : Runtime) (f : Field) (hf : f ∈ choiceDeclarations) :
    f ∈ contentFields rt .decision ∧ f.kind.Verbatim ∧ f.name ≠ "invocation_ceiling" ∧
      f.name ≠ "attempt_ceiling" := by
  simp only [choiceDeclarations, List.mem_cons, List.not_mem_nil, or_false] at hf
  rcases hf with rfl | rfl | rfl
  · exact ⟨by simp [contentFields, Fields.own], verbatim_choice _, by decide, by decide⟩
  · exact ⟨by simp [contentFields, Fields.own], Kind.verbatim_opt _ verbatim_text, by decide,
      by decide⟩
  · exact ⟨by simp [contentFields, Fields.own], Kind.verbatim_list _ verbatim_text, by decide,
      by decide⟩

theorem getD_or (a b : Option Json) : (a.or b).getD .null = a.getD (b.getD .null) := by
  cases a <;> rfl

/-- An update writes the choice fields it names and keeps the others. -/
theorem choice_revise (n m : ProjectNode rt) (co : Coercions) (changes : Dict String Json)
    (revision : Nat) (standing : Standing) (htype : n.type = .decision)
    (h : n.revise co changes revision standing = .ok m) : m.choice = n.choice.after changes := by
  obtain ⟨hcontent, -⟩ := ProjectNode.revise_ok n m co changes revision standing h
  have key : ∀ f ∈ choiceDeclarations,
      m.field? f.name = (changes.get? f.name).or (n.field? f.name) := by
    intro f hf
    obtain ⟨hmem, hv, h1, h2⟩ := choiceDeclarations_mem rt f hf
    exact n.find_reviseContent co changes m.content hcontent f (htype ▸ hmem) hv h1 h2
  have hstatus : m.field? "status" = (changes.get? "status").or (n.field? "status") :=
    key (Fields.choiceField "status" "open" ["ready", "decided", "revisit", "superseded"])
      (by simp [choiceDeclarations])
  have hselected : m.field? "selected_option" =
      (changes.get? "selected_option").or (n.field? "selected_option") :=
    key (Fields.nullableText "selected_option") (by simp [choiceDeclarations])
  have hoptions : m.field? "options" = (changes.get? "options").or (n.field? "options") :=
    key (Fields.textsField "options") (by simp [choiceDeclarations])
  simp only [ProjectNode.choice, Choice.after, Dict.getD, hstatus, hselected, hoptions, getD_or]

theorem Choice.after_of_not_writes (c : Choice) (u : NodeUpdate) (h : u.writesChoice = false) :
    c.after u.changes = c := by
  simp only [NodeUpdate.writesChoice, choiceFields, List.any_cons, List.any_nil, Bool.or_false,
    Bool.or_eq_false_iff, decide_eq_false_iff_not, Dict.not_mem_iff] at h
  obtain ⟨hstatus, hselected, hoptions⟩ := h
  simp [Choice.after, Dict.getD, hstatus, hselected, hoptions]

theorem strArr_of_texts (j : Json) (h : Fields.texts.check strict j = .ok j) :
    ∃ xs, j = Json.strArr xs := by
  have all : ∀ js out, Kind.checkAll Fields.text strict js = .ok out →
      ∃ xs : List String, js = xs.map .str := by
    intro js
    induction js with
    | nil => exact fun _ _ => ⟨[], rfl⟩
    | cons j js ih =>
        intro out h
        obtain ⟨j', js', hj, hjs, rfl⟩ := Kind.checkAll_cons_ok _ _ j js out h
        obtain ⟨xs, rfl⟩ := ih js' hjs
        cases j with
        | str x => exact ⟨x :: xs, rfl⟩
        | null | bool _ | num _ | arr _ | obj _ => cases hj
  cases j with
  | arr js =>
      simp only [Fields.texts, Kind.list] at h
      cases hjs : Kind.checkAll Fields.text strict js with
      | error e => simp [hjs, Except.map] at h
      | ok out =>
          obtain ⟨xs, rfl⟩ := all js out hjs
          exact ⟨xs, rfl⟩
  | null | bool _ | num _ | str _ | obj _ => cases h

theorem str_of_optText (j : Json) (h : Fields.optText.check strict j = .ok j) :
    j = .null ∨ ∃ o, j = .str o := by
  cases j with
  | null => exact .inl rfl
  | str o => exact .inr ⟨o, rfl⟩
  | bool _ | num _ | arr _ | obj _ => cases h

/-- The options of a Decision are texts, its selected option is one or null. -/
theorem choice_kinds (n : ProjectNode rt) (htype : n.type = .decision) :
    (∃ xs, n.choice.options = Json.strArr xs ∧ n.texts "options" = xs) ∧
      (n.choice.selected = .null ∨ ∃ o, n.field? "selected_option" = some (.str o) ∧
        n.choice.selected = .str o) := by
  have field : ∀ f ∈ choiceDeclarations, ∃ j, n.field? f.name = some j ∧
      f.kind.check strict j = .ok j := by
    intro f hf
    obtain ⟨j, hj, hc, -⟩ := n.conforms.field (nodup_contentFields rt n.type) f
      (htype ▸ (choiceDeclarations_mem rt f hf).1)
    exact ⟨j, hj, hc strict⟩
  constructor
  · obtain ⟨j, hj, hc⟩ := field (Fields.textsField "options") (by simp [choiceDeclarations])
    obtain ⟨xs, rfl⟩ := strArr_of_texts j hc
    change n.field? "options" = _ at hj
    exact ⟨xs, by simp [ProjectNode.choice, hj], by simp [ProjectNode.texts, hj]⟩
  · obtain ⟨j, hj, hc⟩ :=
      field (Fields.nullableText "selected_option") (by simp [choiceDeclarations])
    change n.field? "selected_option" = _ at hj
    rcases str_of_optText j hc with rfl | ⟨o, rfl⟩
    · exact .inl (by simp [ProjectNode.choice, hj])
    · exact .inr ⟨o, hj, by simp [ProjectNode.choice, hj]⟩

end Fields

section Steps

/-- A choice that the transition rule lets through is coherent. -/
theorem coherent_of_transition (n m : ProjectNode rt) (changes : Dict String Json)
    (hrule : decisionTransitionError n changes = none) (hm : m.type = .decision)
    (hchoice : m.choice = n.choice.after changes) : m.Coherent := by
  rintro ⟨-, hdecided⟩
  obtain ⟨⟨xs, hoptions, htexts⟩, hselected⟩ := choice_kinds m hm
  rw [hchoice] at hdecided hoptions hselected
  simp only [Choice.after, ProjectNode.choice] at hdecided hoptions hselected
  have hrule' := hrule
  simp only [decisionTransitionError] at hrule'
  rw [hdecided, hoptions] at hrule'
  split at hrule'
  next => cases hrule'
  split at hrule'
  next => cases hrule'
  next hok =>
    rcases hselected with hnull | ⟨o, hfield, hsel⟩
    · simp [hnull] at hok
    · rw [hsel] at hok
      refine ⟨o, ?_, hfield⟩
      rw [htexts]
      simp only [Json.strArr, memberOfList, Json.arr?] at hok
      simpa [List.any_map, Function.comp_def, Json.pyEq] using hok

/-- An accepted update of a Decision passed the transition rule. -/
theorem transition_of_accepted (ctx : OpContext rt) (hmode : ctx.mode = .admission)
    (u : NodeUpdate) (n : ProjectNode rt) (hn : ctx.state.nodes.get? u.id = some n)
    (htype : n.type = .decision) (h : refused (updateNodeIssues ctx u) = false) :
    refused (updateContentIssues ctx n u) = false ∧
      decisionTransitionError n u.changes = none := by
  have hadm : ctx.admission = true := by simp [OpContext.admission, hmode]
  have hcontent := updateContent_of_accepted ctx u n hn h
  refine ⟨hcontent, ?_⟩
  simp only [updateContentIssues, refused_append, Bool.or_eq_false_iff, hadm, htype,
    NodeType.isChooser, Bool.and_self, if_true] at hcontent
  obtain ⟨⟨-, hrule⟩, -⟩ := hcontent
  cases herror : decisionTransitionError n u.changes with
  | none => rfl
  | some text => simp [herror] at hrule

/-- One update, seen at a Decision. -/
theorem choice_updateNode (p : Patch rt) (generated : Bool) (u : NodeUpdate) (s t : GraphState rt)
    (hs : s.Keyed) (h : updateNode p generated u s = .ok t) (id : String) (n : ProjectNode rt)
    (hn : s.nodes.get? id = some n) (htype : n.type = .decision) :
    ∃ m, t.nodes.get? id = some m ∧ m.type = .decision ∧
      m.choice = if u.id = id then n.choice.after u.changes else n.choice := by
  by_cases hid : u.id = id
  · obtain ⟨k, m, hk, -, hm, rfl⟩ := updateNode_ok p generated u s t h
    rw [hid, hn] at hk
    cases hk
    obtain ⟨-, -, htype', -⟩ := ProjectNode.revise_ok _ _ _ _ _ _ hm
    refine ⟨m, ?_, htype'.trans htype, ?_⟩
    · simp [hs id n hn]
    · rw [if_pos hid]
      exact choice_revise n m _ _ _ _ htype hm
  · refine ⟨n, ?_, htype, by rw [if_neg hid]⟩
    rw [(updateNode_rewrites p generated u s t hs h).1.other (Ne.symm hid)]
    exact hn

/-- The updates of one Decision that write its choice. -/
def choiceUpdates (updates : List NodeUpdate) (id : String) : List NodeUpdate :=
  updates.filter fun u => decide (u.id = id) && u.writesChoice

theorem choice_updateNodes_none (p : Patch rt) (generated : Bool) (updates : List NodeUpdate)
    (id : String) (hnone : choiceUpdates updates id = []) (s t : GraphState rt) (hs : s.Keyed)
    (h : Steps.run (updateNode p generated) updates s = .ok t) (n : ProjectNode rt)
    (hn : s.nodes.get? id = some n) (htype : n.type = .decision) :
    ∃ m, t.nodes.get? id = some m ∧ m.type = .decision ∧ m.choice = n.choice := by
  have key := Steps.run_invariant (updateNode p generated)
    (fun v : GraphState rt => v.Keyed ∧ ∃ m, v.nodes.get? id = some m ∧ m.type = .decision ∧
      m.choice = n.choice) updates
    (fun u hu v w ⟨hv, k, hk, hkt, hkc⟩ hf => by
      refine ⟨(updateNode_rewrites p generated u v w hv hf).1.keyed hv, ?_⟩
      obtain ⟨m, hm, hmt, hmc⟩ := choice_updateNode p generated u v w hv hf id k hk hkt
      refine ⟨m, hm, hmt, ?_⟩
      rw [hmc]
      split
      next hid =>
        have hw : u.writesChoice = false := by
          have := List.filter_eq_nil_iff.mp hnone u hu
          simpa [hid] using this
        rw [Choice.after_of_not_writes _ u hw, hkc]
      next => exact hkc) s t ⟨hs, n, hn, htype, rfl⟩ h
  exact key.2

theorem choiceUpdates_cons (u : NodeUpdate) (us : List NodeUpdate) (id : String) :
    choiceUpdates (u :: us) id =
      if (decide (u.id = id) && u.writesChoice) = true then u :: choiceUpdates us id
      else choiceUpdates us id := List.filter_cons

/-- A Decision whose choice one operation writes at most once. -/
theorem choice_updateNodes (p : Patch rt) (generated : Bool) (updates : List NodeUpdate)
    (id : String) (honce : (choiceUpdates updates id).length ≤ 1) (s t : GraphState rt)
    (hs : s.Keyed) (h : Steps.run (updateNode p generated) updates s = .ok t) (n : ProjectNode rt)
    (hn : s.nodes.get? id = some n) (htype : n.type = .decision) :
    ∃ m, t.nodes.get? id = some m ∧ m.type = .decision ∧
      (m.choice = n.choice ∨ ∃ u ∈ updates, u.id = id ∧ m.choice = n.choice.after u.changes) := by
  induction updates generalizing s n with
  | nil =>
      cases h
      exact ⟨n, hn, htype, .inl rfl⟩
  | cons u us ih =>
      obtain ⟨s', hs', hrest⟩ := (Steps.run_cons_ok _ u us s t).mp h
      have hs'k := (updateNode_rewrites p generated u s s' hs hs').1.keyed hs
      obtain ⟨k, hk, hkt, hkc⟩ := choice_updateNode p generated u s s' hs hs' id n hn htype
      by_cases hwrites : (decide (u.id = id) && u.writesChoice) = true
      · -- This is the one update that writes the choice; the rest leave it alone.
        have hnone : choiceUpdates us id = [] := by
          rw [choiceUpdates_cons, if_pos hwrites, List.length_cons] at honce
          exact List.length_eq_zero_iff.mp (by omega)
        obtain ⟨m, hm, hmt, hmc⟩ :=
          choice_updateNodes_none p generated us id hnone s' t hs'k hrest k hk hkt
        have hid : u.id = id := by
          rw [Bool.and_eq_true, decide_eq_true_eq] at hwrites
          exact hwrites.1
        rw [if_pos hid] at hkc
        exact ⟨m, hm, hmt, .inr ⟨u, List.mem_cons_self, hid, hmc.trans hkc⟩⟩
      · have hkn : k.choice = n.choice := by
          rw [hkc]
          split
          next hid =>
            exact Choice.after_of_not_writes _ u (by simpa [hid] using hwrites)
          next => rfl
        rw [choiceUpdates_cons, if_neg hwrites] at honce
        obtain ⟨m, hm, hmt, hmc⟩ := ih honce s' hs'k hrest k hk hkt
        rw [hkn] at hmc
        refine ⟨m, hm, hmt, ?_⟩
        rcases hmc with hmc | ⟨u', hu', hid, hmc⟩
        · exact .inl hmc
        · exact .inr ⟨u', List.mem_cons_of_mem _ hu', hid, hmc⟩

/-- A retired Decision is not decided. -/
theorem not_decided_retire (n m : ProjectNode rt) (revision : Nat) (preserve : Bool)
    (h : n.retire revision preserve = .ok m) : ¬m.Decided := by
  rintro ⟨htype, hstatus⟩
  obtain ⟨-, -, htype', -⟩ := ProjectNode.revise_ok _ _ _ _ _ _ h
  rw [htype'] at htype
  rw [choice_revise n m _ _ _ _ htype h] at hstatus
  simp only [htype, NodeType.lifecycleField, Choice.after, retiredValue] at hstatus
  have hsuperseded : ∀ j : Json,
      (Dict.ofList [("status", Json.str "superseded")]).getD "status" j = .str "superseded" :=
    fun _ => rfl
  rw [hsuperseded] at hstatus
  exact absurd hstatus (by decide)

theorem retireNode_nodes (p : Patch rt) (id : String) (cause : Option BeliefCause)
    (s t : GraphState rt) (h : retireNode p id cause s = .ok t) :
    ∃ m, ¬m.Decided ∧ t.nodes = s.nodes.insert id m := by
  obtain ⟨n, m, -, hm, rfl⟩ := retireNode_ok p id cause s t h
  exact ⟨m, not_decided_retire n m _ _ hm, by simp⟩

/-- The nodes of a graph, each of which meets a condition on its id and itself. -/
def GraphState.Every (s : GraphState rt) (P : String → ProjectNode rt → Prop) : Prop :=
  ∀ id n, s.nodes.get? id = some n → P id n

theorem Every.insert {s t : GraphState rt} {P : String → ProjectNode rt → Prop} (h : s.Every P)
    (id : String) (m : ProjectNode rt) (hm : P id m) (ht : t.nodes = s.nodes.insert id m) :
    t.Every P := by
  intro x k hk
  rw [ht, Dict.get?_insert] at hk
  split at hk
  next hx =>
    cases hk
    exact hx ▸ hm
  next => exact h x k hk

/-- A condition that every undecided node meets and that does not look at standing is
kept by every operation but the creation and the update of nodes. -/
theorem every_applyOp (P : String → ProjectNode rt → Prop)
    (hopen : ∀ id n, ¬n.Decided → P id n)
    (hstanding : ∀ id n standing revision, P id n → P id (n.withStanding standing revision))
    (p : Patch rt) (generated : Bool) (op : GraphOperation rt)
    (hcreate : ∀ nodes, op ≠ .createNodes nodes) (hupdate : ∀ updates, op ≠ .updateNodes updates)
    (s t : GraphState rt) (hs : s.Keyed) (h : applyOp p generated op s = .ok t)
    (hP : s.Every P) : t.Every P := by
  cases op with
  | createNodes nodes => exact absurd rfl (hcreate nodes)
  | updateNodes updates => exact absurd rfl (hupdate updates)
  | supersedeNodes items =>
      refine Steps.run_invariant _ (GraphState.Every · P) items (fun i _ s t hs hf => ?_) s t hP h
      obtain ⟨u, hu, rfl⟩ := supersedeNode_ok p i s t hf
      obtain ⟨m, hm, hnodes⟩ := retireNode_nodes p i.id i.cause s u hu
      have key := Every.insert hs i.id m (hopen i.id m hm) hnodes
      cases i.edge? p.revision <;> exact key
  | mergeNodes merges =>
      refine Steps.run_invariant _ (GraphState.Every · P) merges (fun i _ s t hs hf => ?_) s t hP h
      obtain ⟨u, hu, rfl⟩ := mergeNode_ok p i s t hf
      obtain ⟨m, hm, hnodes⟩ := retireNode_nodes p i.duplicate i.cause s u hu
      exact Every.insert hs i.duplicate m (hopen i.duplicate m hm) hnodes
  | removeNodes ids =>
      cases h
      intro x n hn
      simp only [removeNodes, Dict.get?_filter] at hn
      exact hP x n (Option.filter_eq_some_iff.mp hn).1
  | setStanding id standing =>
      obtain ⟨n, hn, rfl⟩ := setStanding_ok p.revision id standing s t h
      refine Every.insert hP n.id _ (hstanding n.id n standing p.revision ?_) rfl
      rw [hs id n hn]
      exact hP id n hn
  | _ =>
      intro x n hn
      rw [nodes_applyOp_other p generated _ rfl s t h] at hn
      exact hP x n hn

end Steps

section Rules

/-- A created Decision is not decided. -/
theorem not_decided_create (ctx : OpContext rt) (hmode : ctx.mode = .admission)
    (nodes : List (RawNode rt)) (h : refused (patchRules ctx (.createNodes nodes)) = false)
    (raw : RawNode rt) (hraw : raw ∈ nodes) (revision : Nat) : ¬(raw.create revision).Decided := by
  rintro ⟨htype, hstatus⟩
  have hadm : ctx.admission = true := by simp [OpContext.admission, hmode]
  have htype' : raw.type = .decision := htype
  simp only [patchRules, effectRules, rulesOf, structuralIssues, authoringIssues, refused_append,
    Bool.or_eq_false_iff, hadm, if_true, authorCreateNodesIssues, not_refused_flatMap] at h
  obtain ⟨-, hauthor⟩ := h.2 raw hraw
  simp only [newNodeAuthoringIssues, htype', refused_append, Bool.or_eq_false_iff, if_true]
    at hauthor
  have hnew := hauthor.1.2
  have hfield : (raw.create revision).field? "status" =
      some ((raw.field? "status").getD (.str "open")) := by
    have hmem := (choiceDeclarations_mem rt _ (List.mem_cons_self :
      Fields.choiceField "status" "open" ["ready", "decided", "revisit", "superseded"] ∈
        choiceDeclarations)).1
    have := find_completeFields (contentFields rt raw.type) raw.content
      (nodup_contentFields rt raw.type) _ (htype'.symm ▸ hmem)
    change Assoc.find "status" (completeFields (contentFields rt raw.type) raw.content) = _ at this
    rw [ProjectNode.field?, RawNode.create, this, completeField, RawNode.field?]
    have hname : (Fields.choiceField "status" "open"
      ["ready", "decided", "revisit", "superseded"]).name = "status" := rfl
    simp only [hname]
    cases Assoc.find "status" raw.content <;> rfl
  have hdecided : (raw.field? "status").getD (.str "open") = .str "decided" := by
    simpa [ProjectNode.choice, hfield] using hstatus
  simp only [newDecisionIssues, hdecided] at hnew
  split at hnew
  · simp at hnew
  · simp at hnew

theorem every_createNodes (P : String → ProjectNode rt → Prop) (p : Patch rt) (generated : Bool)
    (nodes : List (RawNode rt)) (hnew : ∀ raw ∈ nodes, P raw.id (raw.create p.revision))
    (s t : GraphState rt) (h : applyOp p generated (.createNodes nodes) s = .ok t)
    (hP : s.Every P) : t.Every P := by
  cases h
  intro x n hn
  rw [get?_createNodes] at hn
  split at hn
  next raw hraw =>
    cases hn
    have hid : raw.id = x := by simpa using List.find?_some hraw
    rw [← hid]
    exact hnew raw (by simpa using List.mem_of_find?_eq_some hraw)
  next => exact hP x n hn

/-- One accepted operation that writes every choice at most once. -/
theorem coherent_applyOp (ctx : OpContext rt) (hmode : ctx.mode = .admission) (p : Patch rt)
    (op : GraphOperation rt) (s t : GraphState rt) (ha : Alike ctx.state s) (hs : s.Keyed)
    (hr : refused (patchRules ctx op) = false) (happ : applyOp p false op s = .ok t)
    (honce : ∀ updates, op = .updateNodes updates → ∀ id, s.nodeType? id = some .decision →
      (choiceUpdates updates id).length ≤ 1)
    (hc : s.DecisionsCoherent) : t.DecisionsCoherent := by
  have open_coherent : ∀ (id : String) (n : ProjectNode rt), ¬n.Decided → n.Coherent :=
    fun _ n h hd => absurd hd h
  cases op with
  | createNodes nodes =>
      exact every_createNodes (fun _ n => n.Coherent) p false nodes
        (fun raw hraw => open_coherent raw.id _ (not_decided_create ctx hmode nodes hr raw hraw _))
        s t happ hc
  | updateNodes updates =>
      intro id m hm hd
      -- The Decision was there before the operation, with the same type.
      have hold : s.nodeType? id = some .decision := by
        rw [← nodeType?_applyOp p false _ s t hs happ id (by simp [GraphOperation.createdIds])
          (fun ids h => by cases h)]
        simp [GraphState.nodeType?, hm, hd.1]
      obtain ⟨n, hn, htype⟩ := Option.map_eq_some_iff.mp hold
      obtain ⟨m', hm', hmt, hcase⟩ := choice_updateNodes p false updates id
        (honce updates rfl id hold) s t hs happ n hn htype
      rw [hm] at hm'
      cases hm'
      rcases hcase with hsame | ⟨u, hu, huid, hafter⟩
      · -- The choice is the one from before.
        obtain ⟨⟨xs, hoptions, htexts⟩, hselected⟩ := choice_kinds m hmt
        obtain ⟨⟨ys, hoptions', htexts'⟩, -⟩ := choice_kinds n htype
        obtain ⟨o, ho, hsel⟩ := hc id n hn ⟨htype, by rw [← hsame]; exact hd.2⟩
        rw [hsame, hoptions', Json.strArr_inj] at hoptions
        have hselm : m.choice.selected = .str o := by
          rw [hsame]
          simp [ProjectNode.choice, hsel]
        rcases hselected with hnull | ⟨o', hfield, ho'⟩
        · rw [hselm] at hnull
          cases hnull
        · rw [hselm] at ho'
          cases ho'
          exact ⟨o, by rw [htexts, ← hoptions, ← htexts']; exact ho, hfield⟩
      · have hn' : ctx.state.nodes.get? u.id = some n := by rw [ha.nodes, huid]; exact hn
        have hrule := (transition_of_accepted ctx hmode u n hn' htype
          (updates_accepted ctx updates hr u hu)).2
        exact coherent_of_transition n m u.changes hrule hmt hafter hd
  | _ =>
      refine every_applyOp (fun _ n => n.Coherent) open_coherent ?_ p false _ ?_ ?_ s t hs happ hc
      · exact fun _ n _ _ h => h
      · exact fun nodes h => by cases h
      · exact fun updates h => by cases h

end Rules

section Appends

/-- An id that names a Decision before an append or in what it creates. -/
def NamesDecision (s : GraphState rt) (raws : List (Patch rt)) (id : String) : Prop :=
  s.nodeType? id = some .decision ∨
    ∃ raw ∈ raws, ∃ node ∈ raw.createdNodes, node.id = id ∧ node.type = .decision

instance (s : GraphState rt) (raws : List (Patch rt)) (id : String) :
    Decidable (NamesDecision s raws id) :=
  inferInstanceAs (Decidable (_ ∨ _))

/-- The updates an operation makes. -/
def GraphOperation.updates : GraphOperation rt → List NodeUpdate
  | .updateNodes updates => updates
  | _ => []

/-- No operation writes the choice of one Decision in two updates. -/
def ChoosesOnce (s : GraphState rt) (raws : List (Patch rt)) : Prop :=
  ∀ raw ∈ raws, ∀ op ∈ raw.ops, ∀ u ∈ op.updates, NamesDecision s raws u.id →
    (choiceUpdates op.updates u.id).length ≤ 1

instance (s : GraphState rt) (raws : List (Patch rt)) : Decidable (ChoosesOnce s raws) :=
  inferInstanceAs (Decidable (∀ raw ∈ raws, ∀ op ∈ raw.ops, ∀ u ∈ op.updates, _ → _))

theorem choosesOnce_length (s : GraphState rt) (raws : List (Patch rt)) (h : ChoosesOnce s raws)
    (raw : Patch rt) (hraw : raw ∈ raws) (updates : List NodeUpdate)
    (hop : .updateNodes updates ∈ raw.ops) (id : String) (hid : NamesDecision s raws id) :
    (choiceUpdates updates id).length ≤ 1 := by
  have honce := h raw hraw _ hop
  cases hc : choiceUpdates updates id with
  | nil => simp
  | cons u us =>
      have hu : u ∈ choiceUpdates updates id := by rw [hc]; exact List.mem_cons_self
      obtain ⟨hmem, hwrites⟩ := List.mem_filter.mp hu
      rw [Bool.and_eq_true, decide_eq_true_eq] at hwrites
      rw [← hc, ← hwrites.1]
      exact honce u hmem (hwrites.1 ▸ hid)

/-- What an append keeps of Decisions: coherence, and that it knows all of them. -/
structure DecisionsKept (first : GraphState rt) (raws : List (Patch rt)) (s : GraphState rt) :
    Prop where
  keyed : s.Keyed
  coherent : s.DecisionsCoherent
  named : ∀ id, s.nodeType? id = some .decision → NamesDecision first raws id

theorem named_applyOp (first : GraphState rt) (raws : List (Patch rt)) (raw : Patch rt)
    (hraw : raw ∈ raws) (p : Patch rt) (op : GraphOperation rt)
    (hop : ∀ nodes, op = .createNodes nodes → op ∈ raw.ops) (s t : GraphState rt) (hs : s.Keyed)
    (happ : applyOp p false op s = .ok t)
    (h : ∀ id, s.nodeType? id = some .decision → NamesDecision first raws id) (id : String)
    (hid : t.nodeType? id = some .decision) : NamesDecision first raws id := by
  cases op with
  | createNodes nodes =>
      cases happ
      rw [GraphState.nodeType?, get?_createNodes] at hid
      split at hid
      next node hnode =>
        refine .inr ⟨raw, hraw, node, ?_, by simpa using List.find?_some hnode, ?_⟩
        · refine List.mem_flatMap.mpr ⟨_, hop nodes rfl, ?_⟩
          simpa using List.mem_of_find?_eq_some hnode
        · simpa [RawNode.create] using hid
      next => exact h id hid
  | removeNodes ids =>
      cases happ
      obtain ⟨n, hn, htype⟩ := Option.map_eq_some_iff.mp hid
      simp only [removeNodes, Dict.get?_filter] at hn
      refine h id ?_
      rw [GraphState.nodeType?, (Option.filter_eq_some_iff.mp hn).1]
      simp [htype]
  | _ =>
      refine h id ?_
      rw [← nodeType?_applyOp p false _ s t hs happ id (by simp [GraphOperation.createdIds])
        (fun ids hids => by cases hids)]
      exact hid

/-- A judged source patch keeps Decisions coherent. -/
theorem decisionsKept_source (project : Project rt) (revision : Nat) (first : GraphState rt)
    (raws : List (Patch rt)) (honce : ChoosesOnce first raws) (source p : Patch rt)
    (happ : source.applies = p.applies) (hplain : source.transition = none)
    (here s t : GraphState rt) (ha : Alike here s)
    (hj : Admitted project revision raws here source)
    (hrun : Steps.run (applyOp p false) source.ops s = .ok t)
    (h : DecisionsKept first raws s) : DecisionsKept first raws t := by
  obtain ⟨raw, hraw, hsource, -, hissues⟩ := hj.gates hplain
  have hmem : ∀ op ∈ source.ops, op ∈ raw.ops ∨ (∃ ps, op = .createProposals ps) ∨
      ∃ ts, op = .upsertGlossary ts := by
    intro op hop
    rw [hsource] at hop
    exact mem_prepareOperations here _ raw.ops _ op hop
  refine patchIssues_run here source _ _ hissues p happ hplain
    (fun _ s => DecisionsKept first raws s) ?_ s t ha hrun h
  rintro op rest ctx s t hop ⟨a, r, rfl⟩ ha hr happ hkept
  have hop := hmem op hop
  refine ⟨keyed_applyOp p false op s t hkept.keyed happ, ?_, ?_⟩
  · refine coherent_applyOp _ (mode_admissionContext project here source) p op s t ha hkept.keyed
      hr happ (fun updates hu id hid => ?_) hkept.coherent
    subst hu
    rcases hop with hop | ⟨ps, hps⟩ | ⟨ts, hts⟩
    · exact choosesOnce_length first raws honce raw hraw updates hop id (hkept.named id hid)
    · cases hps
    · cases hts
  · refine named_applyOp first raws raw hraw p op (fun nodes hn => ?_) s t hkept.keyed happ
      hkept.named
    subst hn
    rcases hop with hop | ⟨ps, hps⟩ | ⟨ts, hts⟩
    · exact hop
    · cases hps
    · cases hts

theorem decisionsCoherent_append (project : Project rt) (s : GraphState rt) (revision : Nat)
    (raws : List (Patch rt)) (sources : AdmittedSources rt) (preHead : Option GraphHeadRef)
    (prepared : PreparedTransition rt) (honce : ChoosesOnce s raws)
    (hgates : admitSources project s.revision revision raws s = .ok sources)
    (hprepared : prepareValidated s sources.patches preHead = .ok prepared)
    (hs : s.Keyed ∧ s.DecisionsCoherent) :
    prepared.graph.Keyed ∧ prepared.graph.DecisionsCoherent := by
  obtain ⟨admitted, generated, u, v, hrun⟩ :=
    appended_run project s revision raws sources preHead _ prepared hgates hprepared
  have hkept := hrun.judged.invariant (fun _ t => DecisionsKept s raws t)
    (fun here a b source rest happ hplain ha hj hrun h =>
      decisionsKept_source project revision s raws honce source prepared.patch happ hplain here a b
        ha hj hrun h)
    ⟨hs.1, hs.2, fun id hid => .inl hid⟩
  refine ⟨keyed_append project s revision raws sources preHead prepared hgates hprepared hs.1,
    fun id n hn hd => ?_⟩
  exact hkept.coherent id n (hrun.before hkept.keyed id n hn (by rw [hd.1]; decide)) hd

end Appends

section Ordinary

/-- An ordinary agent's accepted update of a Decision does not decide it. -/
theorem status_of_accepted (ctx : OpContext rt) (hmode : ctx.mode = .admission)
    (hauthor : ctx.writer.author ≠ some .human) (hprofile : ctx.writer.profile ≠ some .orchestrator)
    (u : NodeUpdate) (n : ProjectNode rt) (hn : ctx.state.nodes.get? u.id = some n)
    (htype : n.type = .decision) (hcontrol : isControlUpdate ctx u = false)
    (h : refused (updateNodeIssues ctx u) = false) :
    changed u.changes "status" ≠ .str "decided" := by
  have hcontent := (transition_of_accepted ctx hmode u n hn htype h).1
  simp only [updateContentIssues, refused_append, Bool.or_eq_false_iff] at hcontent
  have hgate := hcontent.1.1.2
  intro hdecided
  have hadm : ctx.admission = true := by simp [OpContext.admission, hmode]
  simp [gatedUpdateIssues, hcontrol, requiresProposal, htype, hdecided, NodeType.isChooser, hadm,
    hauthor, hprofile] at hgate

/-- Every decided Decision was decided in an earlier graph. -/
def DecidedIn (first : GraphState rt) (id : String) (m : ProjectNode rt) : Prop :=
  m.Decided → ∃ n, first.nodes.get? id = some n ∧ n.Decided

theorem decidedIn_updateNodes (first : GraphState rt) (p : Patch rt) (generated : Bool)
    (updates : List NodeUpdate) (s t : GraphState rt) (hs : s.Keyed)
    (hrule : ∀ u ∈ updates, s.nodeType? u.id = some .decision →
      changed u.changes "status" ≠ .str "decided")
    (h : Steps.run (updateNode p generated) updates s = .ok t)
    (hfirst : s.Every (DecidedIn first)) : t.Every (DecidedIn first) := by
  have key := Steps.run_invariant (updateNode p generated)
    (fun v : GraphState rt => v.Keyed ∧ (∀ x, v.nodeType? x = s.nodeType? x) ∧
      v.Every (DecidedIn first)) updates
    (fun u hu v w ⟨hv, htypes, hkept⟩ hf => by
      obtain ⟨hrw, -⟩ := updateNode_rewrites p generated u v w hv hf
      refine ⟨hrw.keyed hv, fun x => (hrw.nodeType? x).trans (htypes x), ?_⟩
      obtain ⟨k, m, hk, -, hm, rfl⟩ := updateNode_ok p generated u v w hf
      refine Every.insert hkept u.id m (fun hd => ?_) (by simp [hv u.id k hk])
      obtain ⟨-, -, htype, -⟩ := ProjectNode.revise_ok _ _ _ _ _ _ hm
      have hktype : k.type = .decision := htype.symm.trans hd.1
      have hrule' := hrule u hu (by rw [← htypes, GraphState.nodeType?, hk]; simp [hktype])
      have hstatus := hd.2
      rw [choice_revise k m _ _ _ _ hktype hm] at hstatus
      refine hkept u.id k hk ⟨hktype, ?_⟩
      simp only [Choice.after, Dict.getD] at hstatus
      cases hc : u.changes.get? "status" with
      | none => simpa [hc] using hstatus
      | some v =>
          rw [hc, Option.getD_some] at hstatus
          exact absurd (by simp [changed, Dict.getD, hc, hstatus]) hrule')
    s t ⟨hs, fun _ => rfl, hfirst⟩ h
  exact key.2.2

/-- The control node of an experiment-loop patch is an Experiment. -/
def LoopBound (base : OpContext rt) (s : GraphState rt) : Prop :=
  base.patch.kind = .experimentLoop →
    ∀ id, base.experimentControlNodeId = some id → s.nodeType? id = some .experiment

theorem typed?_nodeType? (s : GraphState rt) (type : NodeType) (id : String) (n : ProjectNode rt)
    (h : s.typed? type id = some n) : s.nodeType? id = some type := by
  obtain ⟨hn, htype⟩ := Option.filter_eq_some_iff.mp h
  simp [GraphState.nodeType?, hn, of_decide_eq_true htype]

/-- What the loop's own authority says about an accepted loop patch. -/
theorem loop_of_accepted (s : GraphState rt) (p : Patch rt) (vc : ValidationContext rt)
    (request : PatchRequest) (h : refused (patchIssues s p vc request) = false) :
    LoopBound (openContext s p vc request) s ∧
      (p.kind = .experimentLoop → ∀ op ∈ p.ops, ∀ ids, op ≠ .removeNodes ids) := by
  obtain ⟨henvelope, -⟩ := patchIssues_accepted s p vc request h
  by_cases hkind : p.kind = .experimentLoop
  · simp only [envelopeIssues, refused_append, Bool.or_eq_false_iff, hkind, if_true] at henvelope
    have hloop := henvelope.1.2
    simp only [experimentLoopIssues] at hloop
    split at hloop
    next => simp at hloop
    next experiment hexperiment =>
      obtain ⟨id, hid, htyped⟩ := Option.bind_eq_some_iff.mp hexperiment
      obtain ⟨hid, -⟩ := Option.filter_eq_some_iff.mp hid
      simp only [refused_append, Bool.or_eq_false_iff, not_refused_flatMap] at hloop
      refine ⟨fun _ id' hid' => ?_, fun _ op hop ids hremove => ?_⟩
      · rw [hid] at hid'
        cases hid'
        exact typed?_nodeType? s .experiment id experiment htyped
      · have := hloop.2 op hop
        rw [hremove] at this
        simp [loopOperationIssues] at this
  · exact ⟨fun hk => absurd hk hkind, fun hk => absurd hk hkind⟩

theorem loopBound_applyOp (base ctx : OpContext rt) (p : Patch rt) (op : GraphOperation rt)
    (s t : GraphState rt) (ha : Alike ctx.state s) (hs : s.Keyed)
    (hremove : base.patch.kind = .experimentLoop → ∀ ids, op ≠ .removeNodes ids)
    (hr : refused (patchRules ctx op) = false) (happ : applyOp p false op s = .ok t)
    (h : LoopBound base s) : LoopBound base t := by
  intro hkind id hid
  have hs' := h hkind id hid
  rw [nodeType?_applyOp p false op s t hs happ id ?_ (fun ids hids => absurd hids
    (hremove hkind ids)), hs']
  intro hmem
  cases op with
  | createNodes nodes =>
      obtain ⟨raw, hraw, rfl⟩ := List.mem_map.mp hmem
      refine created_new ctx nodes hr raw hraw ?_
      obtain ⟨n, hn, -⟩ := Option.map_eq_some_iff.mp hs'
      rw [ha.nodes]
      exact Dict.mem_of_get? hn
  | _ => cases hmem

/-- An accepted operation of an ordinary agent decides nothing. -/
theorem decidedIn_applyOp (first : GraphState rt) (ctx : OpContext rt)
    (hmode : ctx.mode = .admission) (hauthor : ctx.writer.author ≠ some .human)
    (hprofile : ctx.writer.profile ≠ some .orchestrator) (p : Patch rt) (op : GraphOperation rt)
    (s t : GraphState rt) (ha : Alike ctx.state s) (hs : s.Keyed) (hloop : LoopBound ctx s)
    (hr : refused (patchRules ctx op) = false) (happ : applyOp p false op s = .ok t)
    (hfirst : s.Every (DecidedIn first)) : t.Every (DecidedIn first) := by
  cases op with
  | createNodes nodes =>
      exact every_createNodes _ p false nodes
        (fun raw hraw hd => absurd hd (not_decided_create ctx hmode nodes hr raw hraw _))
        s t happ hfirst
  | updateNodes updates =>
      refine decidedIn_updateNodes first p false updates s t hs (fun u hu htype => ?_) happ hfirst
      obtain ⟨n, hn, hn'⟩ := Option.map_eq_some_iff.mp htype
      refine status_of_accepted ctx hmode hauthor hprofile u n (by rw [ha.nodes]; exact hn) hn' ?_
        (updates_accepted ctx updates hr u hu)
      -- The loop's control node is an Experiment, and this update is of a Decision.
      by_contra hcontrol
      have hcontrol : isControlUpdate ctx u = true := by simpa using hcontrol
      simp only [isControlUpdate, Bool.and_eq_true, decide_eq_true_eq] at hcontrol
      have hexperiment := hloop hcontrol.1.1 u.id hcontrol.1.2
      rw [htype] at hexperiment
      cases hexperiment
  | _ =>
      refine every_applyOp (DecidedIn first) (fun _ n h hd => absurd hd h)
        (fun _ n _ _ h => h) p false _ ?_ ?_ s t hs happ hfirst
      · exact fun nodes h => by cases h
      · exact fun updates h => by cases h

/-- An accepted patch of an ordinary agent decides nothing. -/
theorem decidedIn_source (first here : GraphState rt) (source : Patch rt)
    (vc : ValidationContext rt) (request : PatchRequest)
    (hissues : refused (patchIssues here source vc request) = false)
    (hmode : vc.mode = .admission)
    (hauthor : (request.writer.getD (Writer.ofPatch source)).author ≠ some .human)
    (hprofile : (request.writer.getD (Writer.ofPatch source)).profile ≠ some .orchestrator)
    (p : Patch rt) (happ : source.applies = p.applies) (hplain : source.transition = none)
    (s t : GraphState rt) (ha : Alike here s)
    (hrun : Steps.run (applyOp p false) source.ops s = .ok t)
    (h : s.Keyed ∧ s.Every (DecidedIn first)) : t.Keyed ∧ t.Every (DecidedIn first) := by
  obtain ⟨hbound, hremove⟩ := loop_of_accepted here source vc request hissues
  have hstart : LoopBound (openContext here source vc request) s := by
    intro hkind id hid
    rw [GraphState.nodeType?, ← ha.nodes]
    exact hbound hkind id hid
  have hkeep := patchIssues_run here source vc request hissues p happ hplain
    (fun _ t => t.Keyed ∧ LoopBound (openContext here source vc request) t ∧
      t.Every (DecidedIn first))
    (by
      rintro op rest ctx c d hop ⟨a', r, rfl⟩ hac hr happ ⟨hkeyed, hloop, hdecided⟩
      refine ⟨keyed_applyOp p false op c d hkeyed happ, ?_, ?_⟩
      · exact loopBound_applyOp (openContext here source vc request) _ p op c d hac hkeyed
          (fun hkind => hremove hkind op hop) hr happ hloop
      · exact decidedIn_applyOp first _ hmode hauthor hprofile p op c d hac hkeyed hloop hr happ
          hdecided)
    s t ha hrun ⟨h.1, hstart, h.2⟩
  exact ⟨hkeep.1, hkeep.2.2⟩

/-- An append by ordinary agents decides no Decision. -/
theorem decidedIn_append (project : Project rt) (s : GraphState rt) (revision : Nat)
    (raws : List (Patch rt)) (sources : AdmittedSources rt) (preHead : Option GraphHeadRef)
    (prepared : PreparedTransition rt)
    (hordinary : ∀ raw ∈ raws, raw.author = some .agent ∧ raw.profile ≠ some .orchestrator)
    (hgates : admitSources project s.revision revision raws s = .ok sources)
    (hprepared : prepareValidated s sources.patches preHead = .ok prepared) (hs : s.Keyed) :
    prepared.graph.Every (DecidedIn s) := by
  obtain ⟨admitted, generated, u, v, hrun⟩ :=
    appended_run project s revision raws sources preHead _ prepared hgates hprepared
  have hkept := hrun.judged.invariant (fun _ t => t.Keyed ∧ t.Every (DecidedIn s))
    (fun here a b source rest happ hplain ha hj hrun h => by
      obtain ⟨raw, hraw, -, -, hissues⟩ := hj.gates hplain
      refine decidedIn_source s here source _ _ hissues (mode_admissionContext project here source)
        ?_ ?_ prepared.patch happ hplain a b ha hrun h
      · show raw.author ≠ some .human
        rw [(hordinary raw hraw).1]
        decide
      · exact (hordinary raw hraw).2)
    ⟨hs, fun id n hn hd => ⟨n, hn, hd⟩⟩
  intro id n hn hd
  exact hkept.2 id n (hrun.before hkept.1 id n hn (by rw [hd.1]; decide)) hd

end Ordinary

/-- In every run of appends that choose once per operation every decided Decision
selects one of its options; and an append by ordinary agents decides no Decision. -/
theorem decisions_of_appends (project : Project rt) :
    (∀ s, Appended project ChoosesOnce s → s.DecisionsCoherent) ∧
      ∀ s revision raws sources preHead prepared, Appended project (fun _ _ => True) s →
        (∀ raw ∈ raws, raw.author = some .agent ∧ raw.profile ≠ some .orchestrator) →
        admitSources project s.revision revision raws s = .ok sources →
        prepareValidated s sources.patches preHead = .ok prepared →
        ∀ id n, prepared.graph.nodes.get? id = some n → n.Decided →
          ∃ m, s.nodes.get? id = some m ∧ m.Decided := by
  constructor
  · intro s h
    refine (Appended.invariant (fun s => s.Keyed ∧ s.DecisionsCoherent) ?_ ?_
      (fun _ _ h => h) (fun _ _ h => h) (fun _ _ h => h) s h).2
    · intro scope
      constructor <;> intro id n hn <;> cases hn
    · intro s revision raws sources preHead prepared honce hgates hprepared hs
      exact decisionsCoherent_append project s revision raws sources preHead prepared honce hgates
        hprepared hs
  · intro s revision raws sources preHead prepared hs hordinary hgates hprepared
    exact decidedIn_append project s revision raws sources preHead prepared hordinary hgates
      hprepared (keyed_of_appended s hs)

section Concrete

/-- An open Decision between two options. -/
def decisionDraft (id : String) : RawNode .plain where
  id := id
  type := .decision
  extensionType := none
  standing := none
  createdRev := none
  updatedRev := none
  content :=
    [ ("title", .str "Title"), ("question", .str "Question"),
      ("options", .arr [.str "a", .str "b"]) ]
  extensionType_ok := RawNode.no_extension
  content_ok := by rfl

/-- An orchestrator's first patch of a project, which may choose. -/
def choosingPatch (ops : List (GraphOperation .plain)) : Patch .plain where
  revision := 1
  kind := .work
  author := some .agent
  producer := .agent
  createdAt := "2026-01-01T00:00:00Z"
  summary := "Choose."
  runTruthScope := ["repo"]
  profile := some .orchestrator
  agentAction := some .decisionChoice
  authorizedBy := some ⟨"space", "user", "User"⟩
  taskId := some "task"
  ops := ops

def chooseA : NodeUpdate where
  id := "dec/a"
  changes := .ofList [("status", .str "decided"), ("selected_option", .str "a")]

def replaceOptions : NodeUpdate where
  id := "dec/a"
  changes := .ofList [("options", .arr [.str "x", .str "y"])]

/-- What one append to an empty project prepares. -/
def firstAppend (raw : Patch .plain) : Option (PreparedTransition .plain) :=
  nextAppend Project.solo (.initial .plain ["repo"]) [raw]

theorem appended_firstAppend (C : GraphState .plain → List (Patch .plain) → Prop)
    (raw : Patch .plain) (prepared : PreparedTransition .plain)
    (hC : C (.initial .plain ["repo"]) [raw]) (h : firstAppend raw = some prepared) :
    Appended Project.solo C (prepared.graph.record []) := by
  obtain ⟨sources, hgates, hprepared⟩ := nextAppend_ok _ _ _ prepared h
  exact .append _ 1 [raw] sources none prepared [] (.initial ["repo"]) hC hgates hprepared

/-- The Decision is created and chosen in one update. -/
def chosenOnce : Patch .plain :=
  choosingPatch [.createNodes [decisionDraft "dec/a"], .updateNodes [chooseA]]

/-- An ordinary agent creates an open Decision. -/
def filedDecision : Patch .plain :=
  { choosingPatch [.createNodes [decisionDraft "dec/a"]] with
    profile := some .ordinary
    agentAction := none }

/-- The choice and the new options are judged against the Decision as it was. -/
def chosenAndReplaced : Patch .plain :=
  choosingPatch [.createNodes [decisionDraft "dec/a"], .updateNodes [chooseA, replaceOptions]]

theorem decisions_of_choice :
    (∃ prepared, firstAppend chosenOnce = some prepared ∧
        (prepared.graph.record []).DecisionsCoherent) ∧
      ∃ prepared, firstAppend filedDecision = some prepared ∧
        ∀ id n, prepared.graph.nodes.get? id = some n → n.Decided →
          ∃ m, (GraphState.initial .plain ["repo"]).nodes.get? id = some m ∧ m.Decided := by
  constructor
  · obtain ⟨prepared, hp⟩ := Option.isSome_iff_exists.mp
      (by decide : (firstAppend chosenOnce).isSome = true)
    exact ⟨prepared, hp, (decisions_of_appends Project.solo).1 _
      (appended_firstAppend ChoosesOnce _ _ (by decide) hp)⟩
  · obtain ⟨prepared, hp⟩ := Option.isSome_iff_exists.mp
      (by decide : (firstAppend filedDecision).isSome = true)
    obtain ⟨sources, hgates, hprepared⟩ := nextAppend_ok _ _ _ prepared hp
    exact ⟨prepared, hp, (decisions_of_appends Project.solo).2 _ 1 _ sources none _
      (.initial ["repo"]) (by decide) hgates hprepared⟩

theorem incoherent_choice :
    ¬∀ s, Appended Project.solo (fun _ _ => True) s → s.DecisionsCoherent := by
  intro h
  have hsome : (firstAppend chosenAndReplaced).any (fun prepared =>
      decide (¬(prepared.graph.record []).DecisionsCoherent)) = true := by decide +kernel
  obtain ⟨prepared, hp, hincoherent⟩ := (Option.any_eq_true _ _).mp hsome
  exact of_decide_eq_true hincoherent
    (h _ (appended_firstAppend _ chosenAndReplaced prepared trivial hp))

end Concrete

end RcpGraph
