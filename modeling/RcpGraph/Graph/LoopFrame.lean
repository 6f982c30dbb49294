import RcpGraph.Core.Layers
import RcpGraph.Graph.GuidanceClosure

/-!
The authority of the experiment loop. Its updates are judged one by one against
the graph the patch starts from; what a whole patch, or several of one request,
leaves of the nodes and edges that were there is the frame stated here, with the
operations the guidance rule generates included.
-/

namespace RcpGraph

open Schema

variable {rt : Runtime}

/-- A node after updates that wrote the given fields only. An update also stamps the
revision and takes the node back to asserted. -/
structure ProjectNode.RevisedIn (fields : List String) (revision : Nat) (n m : ProjectNode rt) :
    Prop where
  id : m.id = n.id
  type : m.type = n.type
  extensionType : m.extensionType = n.extensionType
  createdRev : m.createdRev = n.createdRev
  content : ∀ f, f ∉ fields → m.field? f = n.field? f
  stamp : (m.updatedRev = n.updatedRev ∧ m.standing = n.standing) ∨
    (m.updatedRev = revision ∧ m.standing = .asserted)

namespace ProjectNode.RevisedIn

variable {fields fields' : List String} {revision : Nat} {n m k : ProjectNode rt}

theorem refl (fields : List String) (revision : Nat) (n : ProjectNode rt) :
    n.RevisedIn fields revision n :=
  ⟨rfl, rfl, rfl, rfl, fun _ _ => rfl, .inl ⟨rfl, rfl⟩⟩

theorem trans (h : n.RevisedIn fields revision m) (h' : m.RevisedIn fields revision k) :
    n.RevisedIn fields revision k := by
  refine ⟨h'.id.trans h.id, h'.type.trans h.type, h'.extensionType.trans h.extensionType,
    h'.createdRev.trans h.createdRev, fun f hf => (h'.content f hf).trans (h.content f hf), ?_⟩
  rcases h'.stamp with ⟨hrev, hstanding⟩ | hlast
  · rw [hrev, hstanding]
    exact h.stamp
  · exact .inr hlast

theorem mono (hsub : ∀ f ∈ fields, f ∈ fields') (h : n.RevisedIn fields revision m) :
    n.RevisedIn fields' revision m :=
  ⟨h.id, h.type, h.extensionType, h.createdRev,
    fun f hf => h.content f fun hmem => hf (hsub f hmem), h.stamp⟩

end ProjectNode.RevisedIn

/-- The attempts recorded on an Experiment. -/
def ProjectNode.attempts (n : ProjectNode rt) : List Json :=
  ((n.field? "attempts").bind Json.arr?).getD []

/-- An attempt that stays as it is, or is closed. -/
def AttemptKept (a b : Json) : Prop :=
  b = a ∨ (terminalAttempt a = false ∧ terminalAttempt b = true ∧
    ∀ f, f ∉ attemptCloseFields → b.get? f = a.get? f)

theorem AttemptKept.fixed {a b : Json} (h : AttemptKept a b) (f : String)
    (hf : f ∉ attemptCloseFields) : b.get? f = a.get? f := by
  rcases h with rfl | ⟨-, -, h⟩
  · rfl
  · exact h f hf

theorem AttemptKept.trans {a b c : Json} (h : AttemptKept a b) (h' : AttemptKept b c) :
    AttemptKept a c := by
  rcases h' with rfl | ⟨hopen, hclosed, hfixed⟩
  · exact h
  · rcases h with rfl | ⟨-, hterminal, -⟩
    · exact .inr ⟨hopen, hclosed, hfixed⟩
    -- A closed attempt is terminal and is not closed again.
    · rw [hopen] at hterminal
      cases hterminal

/-- The attempts of an Experiment before and after: each is kept in its place. -/
structure AttemptsKept (before after : List Json) : Prop where
  kept : ∀ (i : Nat) (a : Json), before[i]? = some a → ∃ b, after[i]? = some b ∧
    attemptText b "id" = attemptText a "id" ∧
    b.get? "decision_bundle" = a.get? "decision_bundle" ∧ AttemptKept a b
  distinct : (before.map fun a => attemptText a "id").Nodup →
    (after.map fun a => attemptText a "id").Nodup

theorem AttemptsKept.refl (as : List Json) : AttemptsKept as as :=
  ⟨fun _ a ha => ⟨a, ha, rfl, rfl, .inl rfl⟩, fun h => h⟩

theorem AttemptsKept.trans {as bs cs : List Json} (h : AttemptsKept as bs)
    (h' : AttemptsKept bs cs) : AttemptsKept as cs := by
  refine ⟨fun i a ha => ?_, fun hd => h'.distinct (h.distinct hd)⟩
  obtain ⟨b, hb, hid, hbundle, hkept⟩ := h.kept i a ha
  obtain ⟨c, hc, hid', hbundle', hkept'⟩ := h'.kept i b hb
  exact ⟨c, hc, hid'.trans hid, hbundle'.trans hbundle, hkept.trans hkept'⟩

/-- The fields of its own Experiment that a loop moves, its guidance marks included. -/
def controlFields : List String :=
  ["attempts", "status", "current_summary", "next_action"] ++ guidanceStaleFields

/-- What the loop of `x` with its pinned Decisions leaves of one node. -/
structure LoopNode (x : String) (pinned : List String) (revision : Nat) (id : String)
    (n m : ProjectNode rt) : Prop where
  control : id = x → n.RevisedIn controlFields revision m ∧ AttemptsKept n.attempts m.attempts
  ballot : id ≠ x → id ∈ pinned → n.type = .decision →
    n.RevisedIn pinnedDecisionFields revision m ∧
      m.field? "selected_option" = n.field? "selected_option" ∧
      (m.status? = some "decided" → n.status? = some "decided")
  experiment : id ≠ x → n.type = .experiment → n.RevisedIn guidanceStaleFields revision m
  other : id ≠ x → n.type ≠ .experiment → (id ∈ pinned → n.type ≠ .decision) → m = n

theorem LoopNode.refl (x : String) (pinned : List String) (revision : Nat) (id : String)
    (n : ProjectNode rt) : LoopNode x pinned revision id n n :=
  ⟨fun _ => ⟨.refl _ _ n, .refl _⟩, fun _ _ _ => ⟨.refl _ _ n, rfl, fun h => h⟩,
    fun _ _ => .refl _ _ n, fun _ _ _ => rfl⟩

theorem LoopNode.type {x : String} {pinned : List String} {revision : Nat} {id : String}
    {n m : ProjectNode rt} (h : LoopNode x pinned revision id n m) : m.type = n.type := by
  by_cases hx : id = x
  · exact (h.control hx).1.type
  · by_cases hexperiment : n.type = .experiment
    · exact (h.experiment hx hexperiment).type
    · by_cases hballot : id ∈ pinned ∧ n.type = .decision
      · exact (h.ballot hx hballot.1 hballot.2).1.type
      · rw [h.other hx hexperiment fun hp hd => hballot ⟨hp, hd⟩]

theorem LoopNode.trans {x : String} {pinned : List String} {revision : Nat} {id : String}
    {n m k : ProjectNode rt} (h : LoopNode x pinned revision id n m)
    (h' : LoopNode x pinned revision id m k) : LoopNode x pinned revision id n k := by
  refine ⟨fun hx => ?_, fun hx hp hd => ?_, fun hx he => ?_, fun hx he hd => ?_⟩
  · exact ⟨(h.control hx).1.trans (h'.control hx).1, (h.control hx).2.trans (h'.control hx).2⟩
  · obtain ⟨hrevised, hselected, hdecided⟩ := h.ballot hx hp hd
    obtain ⟨hrevised', hselected', hdecided'⟩ := h'.ballot hx hp (h.type.trans hd)
    exact ⟨hrevised.trans hrevised', hselected'.trans hselected,
      fun hk => hdecided (hdecided' hk)⟩
  · exact (h.experiment hx he).trans (h'.experiment hx (h.type.trans he))
  · rw [h'.other hx (h.type ▸ he) (h.type ▸ hd), h.other hx he hd]

/-- The frame of the loop of `x` with its pinned Decisions. -/
structure LoopFrame (x : String) (pinned : List String) (revision : Nat) (s t : GraphState rt) :
    Prop where
  nodes : ∀ id n, s.nodes.get? id = some n →
    ∃ m, t.nodes.get? id = some m ∧ LoopNode x pinned revision id n m
  created : ∀ id m, t.nodes.get? id = some m → s.nodes.get? id = none →
    m.type = .evidence ∨ m.type = .blocker
  edges : ∀ id e, s.edges.get? id = some e → t.edges.get? id = some e

theorem LoopFrame.refl (x : String) (pinned : List String) (revision : Nat) (s : GraphState rt) :
    LoopFrame x pinned revision s s :=
  ⟨fun id n hn => ⟨n, hn, .refl x pinned revision id n⟩,
    fun _ _ hm hnone => (nomatch hm.symm.trans hnone), fun _ _ he => he⟩

theorem LoopFrame.trans {x : String} {pinned : List String} {revision : Nat}
    {s t u : GraphState rt} (h : LoopFrame x pinned revision s t)
    (h' : LoopFrame x pinned revision t u) : LoopFrame x pinned revision s u := by
  refine ⟨fun id n hn => ?_, fun id k hk hnone => ?_, fun id e he => h'.edges id e (h.edges id e he)⟩
  · obtain ⟨m, hm, hstep⟩ := h.nodes id n hn
    obtain ⟨k, hk, hstep'⟩ := h'.nodes id m hm
    exact ⟨k, hk, hstep.trans hstep'⟩
  · cases hm : t.nodes.get? id with
    | none => exact h'.created id k hk hm
    | some m =>
        obtain ⟨k', hk', hstep⟩ := h'.nodes id m hm
        rw [hk] at hk'
        cases hk'
        rw [hstep.type]
        exact h.created id m hm hnone

section Attempts

/-- Kinds that are read alike under every coercion and compared exactly. -/
def Definite (k : Kind) : Prop := k.Exact ∧ k.Lenient

theorem definite_str (n : Normal) : Definite (.str n) := ⟨Kind.exact_str n, Kind.lenient_str n⟩

theorem definite_int (least : Option Int) : Definite (.int least) :=
  ⟨Kind.exact_int least, Kind.lenient_int least⟩

theorem definite_opt (k : Kind) (h : Definite k) : Definite k.opt :=
  ⟨Kind.exact_opt k h.1, Kind.lenient_opt k h.2⟩

theorem definite_list (k : Kind) (h : Definite k) : Definite k.list :=
  ⟨Kind.exact_list k h.1, Kind.lenient_list k h.2⟩

theorem definite_record (closed : Bool) (fields : List Field) (hn : (names fields).Nodup)
    (h : ∀ f ∈ fields, Definite f.kind) : Definite (.record closed fields hn) :=
  ⟨Kind.exact_record closed fields hn fun f hf => (h f hf).1,
    Kind.lenient_record closed fields hn fun f hf => (h f hf).2⟩

theorem definite_sourceRef : Definite (Fields.sourceRef rt) := by
  apply definite_record
  simp only [List.forall_mem_cons, List.not_mem_nil, false_imp_iff, implies_true, and_true]
  exact ⟨definite_str _, definite_str _, definite_str _, definite_str _, definite_str _,
    definite_str _, definite_str _⟩

theorem definite_decisionPin : Definite Fields.decisionPin := by
  apply definite_record
  simp only [List.forall_mem_cons, List.not_mem_nil, false_imp_iff, implies_true, and_true]
  exact ⟨definite_str _, definite_int (some 0), definite_str _⟩

theorem definite_attemptDebug : Definite Fields.attemptDebug := by
  apply definite_record
  simp only [List.forall_mem_cons, List.not_mem_nil, false_imp_iff, implies_true, and_true]
  exact ⟨definite_str _, definite_str _, definite_str _⟩

theorem attempt_record (rt : Runtime) : ∃ fields hn,
    Fields.attempt rt = .record false fields hn ∧ ∀ f ∈ fields, Definite f.kind := by
  refine ⟨_, _, rfl, ?_⟩
  simp only [List.forall_mem_cons, List.not_mem_nil, false_imp_iff, implies_true, and_true]
  exact ⟨definite_str _, definite_int (some 1), definite_str _, definite_str _,
    definite_list _ definite_decisionPin, definite_opt _ definite_attemptDebug, definite_str _,
    definite_str _, definite_list _ (definite_str _), definite_list _ definite_sourceRef,
    definite_opt _ (definite_str _), definite_opt _ (definite_str _),
    definite_opt _ (definite_str _), definite_opt _ (definite_str _)⟩

theorem definite_attempt (rt : Runtime) : Definite (Fields.attempt rt) := by
  obtain ⟨fields, hn, heq, hfields⟩ := attempt_record rt
  rw [heq]
  exact definite_record false fields hn hfields

/-- Attempts with equal fixed parts have the same fixed fields. -/
theorem fixedAttempt_fields (a b : Json) (ha : (Fields.attempt rt).Settled a)
    (hb : (Fields.attempt rt).Settled b) (h : (fixedAttempt a).pyEq (fixedAttempt b) = true)
    (f : String) (hf : f ∉ attemptCloseFields) : b.get? f = a.get? f := by
  obtain ⟨fields, hn, heq, hfields⟩ := attempt_record rt
  rw [heq] at ha hb
  obtain ⟨doc, rfl, hdoc⟩ := ha.of_record
  obtain ⟨doc', rfl, hdoc'⟩ := hb.of_record
  exact (hdoc.find_eq hdoc' hn (fun g hg => (hfields g hg).1)
    (fun name => decide (name ∉ attemptCloseFields)) h f (by simpa using hf)).symm

theorem attemptKept_of_accepted (x : String) (revision : Option Nat) (a b : Json)
    (ha : (Fields.attempt rt).Settled a) (hb : (Fields.attempt rt).Settled b)
    (h : refused (keptAttemptIssues x revision a b) = false) : AttemptKept a b := by
  unfold keptAttemptIssues at h
  split at h
  next => simp at h
  next hfixed =>
    rw [Bool.not_eq_true', Bool.not_eq_false] at hfixed
    rw [refused_rejectIf, Bool.and_eq_false_iff, Bool.not_eq_false', Bool.or_eq_false_iff,
      Bool.not_eq_false'] at h
    rcases h with hsame | ⟨hopen, hclosed⟩
    · exact .inl ((definite_attempt rt).1 a b ha hb hsame).symm
    · exact .inr ⟨hopen, hclosed, fixedAttempt_fields a b ha hb hfixed⟩

theorem attempts_settled (n : ProjectNode rt) (htype : n.type = .experiment) :
    ∀ a ∈ n.attempts, (Fields.attempt rt).Settled a := by
  have hdeclared : Fields.listField "attempts" (Fields.attempt rt) ∈ contentFields rt n.type := by
    rw [htype]
    simp [contentFields, Fields.own]
  obtain ⟨j, hj, hcheck, hcomplete⟩ :=
    n.conforms.field (nodup_contentFields rt n.type) _ hdeclared
  obtain ⟨as, rfl, has⟩ := Kind.Settled.of_list ⟨hcheck strict, hcomplete⟩
  intro a ha
  have hattempts : n.attempts = as := by
    unfold ProjectNode.attempts
    rw [show n.field? "attempts" = some (.arr as) from hj]
    rfl
  exact has a (hattempts ▸ ha)

/-- The attempts an update stores are the attempts the loop's rules have read. -/
theorem readAttempts_of_checkAll (co : Coercions) (hco : co = strict ∨ co = rt.lax)
    (items out : List Json) (h : Kind.checkAll (Fields.attempt rt) co items = .ok out) :
    readAttempts rt (.arr items) = some (out.map (Fields.attempt rt).complete) := by
  simp only [readAttempts, Json.arr?, Option.bind_some]
  induction items generalizing out with
  | nil =>
      cases h
      rfl
  | cons j js ih =>
      obtain ⟨j', js', hj, hjs, rfl⟩ := Kind.checkAll_cons_ok _ co j js out h
      have hlax : (Fields.attempt rt).check rt.lax j = .ok j' := by
        rcases hco with rfl | rfl
        · exact (definite_attempt rt).2 rt.lax j j' hj
        · exact hj
      rw [List.mapM_cons, hlax, ih js' hjs]
      rfl

end Attempts

section Updates

theorem revisedIn_revise (fields : List String) (hceiling : "attempt_ceiling" ∉ fields)
    (n m : ProjectNode rt) (co : Coercions) (changes : Dict String Json) (revision : Nat)
    (hkeys : ∀ f ∈ changes.keys, f ∈ fields)
    (h : n.revise co changes revision .asserted = .ok m) : n.RevisedIn fields revision m := by
  obtain ⟨-, hid, htype, hext, hstanding, hcreated, hupdated⟩ := n.revise_ok m _ _ _ _ h
  refine ⟨hid, htype, hext, hcreated, fun f hf => ?_, .inr ⟨hupdated, hstanding⟩⟩
  exact n.field?_revise m _ _ _ _ h f (fun hmem => hf (hkeys f hmem))
    fun _ hmem => hceiling (hkeys _ hmem)

theorem coercions_cases (p : Patch rt) : p.coercions = strict ∨ p.coercions = rt.lax := by
  unfold Patch.coercions
  split
  · exact .inr rfl
  · exact .inl rfl

/-- What an update leaves in the attempts of an Experiment. -/
theorem attempts_revise (n m : ProjectNode rt) (htype : n.type = .experiment) (co : Coercions)
    (hco : co = strict ∨ co = rt.lax) (changes : Dict String Json) (revision : Nat)
    (standing : Standing) (h : n.revise co changes revision standing = .ok m) :
    (changes.get? "attempts" = none ∧ m.attempts = n.attempts) ∨
      ∃ raw, changes.get? "attempts" = some raw ∧ readAttempts rt raw = some m.attempts := by
  cases hraw : changes.get? "attempts" with
  | none =>
      refine .inl ⟨rfl, ?_⟩
      unfold ProjectNode.attempts
      rw [n.field?_revise m co changes revision standing h "attempts"
        ((Dict.not_mem_iff changes "attempts").mpr hraw) (fun heq => by simp at heq)]
  | some raw =>
      refine .inr ⟨raw, rfl, ?_⟩
      have hdeclared : Fields.listField "attempts" (Fields.attempt rt) ∈
          contentFields rt n.type := by
        rw [htype]
        simp [contentFields, Fields.own]
      obtain ⟨hdoc, -⟩ := n.revise_ok m _ _ _ _ h
      have hnodup := Assoc.nodup_overwrite n.content changes.entries n.nodup_content
      have hwritten : Assoc.find "attempts" (ProjectNode.migrateAttemptCeiling n.type
          (Assoc.overwrite n.content changes.entries)) = some raw := by
        rw [ProjectNode.find_migrateAttemptCeiling _ _ hnodup _ (by simp) (by simp),
          Assoc.find_overwrite _ _ changes.nodup, show Assoc.find "attempts" changes.entries =
            some raw from hraw, Option.some_or]
      obtain ⟨j, j', hj, hcheck, hout⟩ | ⟨hnone, -⟩ := find_settle co _ _ m.content
        (nodup_contentFields rt n.type) (n.reviseContent_settle co changes m.content hdoc) _
        hdeclared
      · rw [show (Fields.listField "attempts" (Fields.attempt rt)).name = "attempts" from rfl,
          hwritten] at hj
        cases hj
        change (Fields.attempt rt).list.check co raw = .ok j' at hcheck
        cases raw with
        | arr items =>
            simp only [Kind.list] at hcheck
            cases hitems : Kind.checkAll (Fields.attempt rt) co items with
            | error e => simp [hitems, Except.map] at hcheck
            | ok out =>
                simp only [hitems, Except.map, Except.ok.injEq] at hcheck
                subst hcheck
                rw [readAttempts_of_checkAll co hco items out hitems]
                unfold ProjectNode.attempts
                rw [show m.field? "attempts" =
                  some (.arr (out.map (Fields.attempt rt).complete)) from hout]
                rfl
        | null | bool _ | num _ | str _ | obj _ => cases hcheck
      · rw [show (Fields.listField "attempts" (Fields.attempt rt)).name = "attempts" from rfl,
          hwritten] at hnone
        cases hnone

/-- Attempts that the loop's rules accept keep those of the Experiment they were judged on. -/
theorem attemptsKept_of_accepted (n : ProjectNode rt) (htype : n.type = .experiment) (raw : Json)
    (pinned : List DecisionPin) (hasProposals : Bool) (revision : Option Nat)
    (attempts : List Json) (hread : readAttempts rt raw = some attempts)
    (hsettled : ∀ a ∈ attempts, (Fields.attempt rt).Settled a)
    (h : refused (attemptsIssues n raw pinned hasProposals revision) = false) :
    AttemptsKept n.attempts attempts := by
  simp only [attemptsIssues, hread] at h
  split at h
  next => simp at h
  next hlength =>
    simp only [refused_append, Bool.or_eq_false_iff, not_refused_flatMap, refused_rejectIf,
      decide_eq_false_iff_not, not_not] at h
    obtain ⟨⟨⟨hkept, -⟩, -⟩, hdistinct⟩ := h
    refine ⟨fun i a ha => ?_, fun _ => hdistinct⟩
    obtain ⟨hi, hai⟩ := List.getElem?_eq_some_iff.mp ha
    have hi' : i < attempts.length := Nat.lt_of_lt_of_le hi (Nat.not_lt.mp hlength)
    have hb : attempts[i]? = some attempts[i] := List.getElem?_eq_getElem hi'
    have hpair : (a, attempts[i]) ∈ n.attempts.zip attempts := by
      apply List.mem_of_getElem? (i := i)
      rw [List.getElem?_zip_eq_some]
      exact ⟨ha, hb⟩
    have hkeep : AttemptKept a attempts[i] :=
      attemptKept_of_accepted n.id revision a _ (attempts_settled n htype a (List.mem_of_getElem? ha))
        (hsettled _ (List.mem_of_getElem? hb)) (hkept _ hpair)
    refine ⟨_, hb, ?_, hkeep.fixed _ (by decide), hkeep⟩
    unfold attemptText
    rw [hkeep.fixed "id" (by decide)]

theorem status_revise (n m : ProjectNode rt) (htype : n.type = .decision) (co : Coercions)
    (changes : Dict String Json) (revision : Nat) (standing : Standing)
    (h : n.revise co changes revision standing = .ok m) (q : String)
    (hq : changes.get? "status" = some (.str q)) : m.status? = some q := by
  have hdeclared : Fields.choiceField "status" "open" ["ready", "decided", "revisit",
      "superseded"] ∈ contentFields rt n.type := by
    rw [htype]
    simp [contentFields, Fields.own]
  obtain ⟨hdoc, -⟩ := n.revise_ok m _ _ _ _ h
  have hfind := n.find_reviseContent co changes m.content hdoc _ hdeclared
    (Kind.verbatim_str _ _) (by simp [Fields.choiceField, Field.withDefault])
    (by simp [Fields.choiceField, Field.withDefault])
  unfold ProjectNode.status? ProjectNode.field?
  rw [show Assoc.find "status" m.content = (changes.get? "status").or (n.field? "status") from
    hfind, hq]
  rfl

/-- An accepted update of a pinned Decision queues it. -/
theorem pinnedUpdate_accepted (s : GraphState rt) (x : String) (u : NodeUpdate)
    (revision : Option Nat) (h : refused (pinnedUpdateIssues s x u revision) = false) :
    (∀ f ∈ u.changes.keys, f ∈ pinnedDecisionFields) ∧
      (∃ q, u.changes.get? "status" = some (.str q) ∧ q ≠ "decided") ∧
      s.nodeType? u.id = some .decision := by
  unfold pinnedUpdateIssues at h
  split at h
  next => simp at h
  next queued hqueued =>
    split at h
    next => simp at h
    next hfields =>
      rw [Bool.or_eq_true, not_or, decide_eq_true_eq, not_not, Bool.not_eq_true', Bool.not_eq_false,
        outsideFields, Text.sortedSet_eq_nil, List.filter_eq_nil_iff] at hfields
      obtain ⟨hkeys, rfl⟩ := hfields
      rw [refused_rejectIf, Option.isNone_eq_false_iff, Option.isSome_iff_exists] at h
      obtain ⟨n, hn⟩ := h
      refine ⟨fun f hf => by simpa using hkeys f hf, ?_, typed?_nodeType? s _ _ n hn⟩
      cases hstatus : u.changes.get? "status" with
      | none => simp [memberOf, changed, Dict.getD, hstatus] at hqueued
      | some j =>
          cases j with
          | str q =>
              refine ⟨q, rfl, ?_⟩
              rintro rfl
              simp [memberOf, changed, Dict.getD, hstatus] at hqueued
          | null | bool _ | num _ | arr _ | obj _ =>
              simp [memberOf, changed, Dict.getD, hstatus] at hqueued

/-- What is known of the node that an accepted loop patch is bound to. -/
structure LoopJudged (here : GraphState rt) (source : Patch rt) (x : String)
    (pinned : List DecisionPin) (experiment : ProjectNode rt) : Prop where
  node : here.nodes.get? x = some experiment
  id : experiment.id = x
  type : experiment.type = .experiment
  ops : ∀ op ∈ source.ops,
    refused (loopOperationIssues here source experiment pinned .admission op) = false

/-- An accepted update takes the node it names on within the loop's frame. The rules
compare it with the node as the patch found it, not with the node it meets. -/
theorem loopNode_update (here : GraphState rt) (source : Patch rt) (x : String)
    (pinned : List DecisionPin) (experiment : ProjectNode rt)
    (hj : LoopJudged here source x pinned experiment) (hasProposals : Bool)
    (ref : Option Nat) (u : NodeUpdate)
    (hu : refused (loopUpdateIssues here experiment pinned hasProposals
      (allowedExperimentFields source .admission) ref u) = false)
    (co : Coercions) (hco : co = strict ∨ co = rt.lax) (revision : Nat) (k m : ProjectNode rt)
    (hm : k.revise co u.changes revision .asserted = .ok m) :
    ∃ n, here.nodes.get? u.id = some n ∧
      (LoopNode x (pinned.map (·.decisionId)) revision u.id n k →
        LoopNode x (pinned.map (·.decisionId)) revision u.id n m) := by
  unfold loopUpdateIssues at hu
  split at hu
  next hpinned =>
    obtain ⟨hkeys, ⟨q, hq, hqueued⟩, htype⟩ := pinnedUpdate_accepted here _ u ref hu
    obtain ⟨n, hn, hdecision⟩ := Option.map_eq_some_iff.mp htype
    have hne : u.id ≠ x := by
      intro heq
      rw [heq, hj.node] at hn
      cases hn
      rw [hj.type] at hdecision
      cases hdecision
    refine ⟨n, hn, fun hk => ⟨fun hx => absurd hx hne, fun hx hp hd => ?_, fun _ he => ?_,
      fun _ _ hd => absurd hdecision (hd hpinned)⟩⟩
    · obtain ⟨hrevised, hselected, -⟩ := hk.ballot hx hp hd
      have hstep := revisedIn_revise pinnedDecisionFields (by decide) k m co u.changes revision
        hkeys hm
      refine ⟨hrevised.trans hstep, (hstep.content _ (by decide)).trans hselected, fun hdecided => ?_⟩
      rw [status_revise k m (hrevised.type.trans hd) co u.changes revision _ hm q hq] at hdecided
      exact absurd (Option.some.inj hdecided) hqueued
    · rw [hdecision] at he
      cases he
  next =>
    split at hu
    next => simp at hu
    next hid =>
      rw [not_not, hj.id] at hid
      rw [refused_append, Bool.or_eq_false_iff, refused_rejectIf, decide_eq_false_iff_not,
        not_not, outsideFields, Text.sortedSet_eq_nil, List.filter_eq_nil_iff] at hu
      obtain ⟨hkeys, hattempts⟩ := hu
      have hallowed : ∀ f ∈ u.changes.keys, f ∈ controlFields := by
        intro f hf
        have := hkeys f hf
        rw [decide_eq_true_eq, not_not] at this
        simp only [allowedExperimentFields, reduceCtorEq, false_and, if_false,
          List.append_nil] at this
        exact List.mem_append_left _ this
      refine ⟨experiment, by rw [hid]; exact hj.node, fun hk => ⟨fun hx => ?_,
        fun hx => absurd hid hx, fun hx => absurd hid hx, fun hx => absurd hid hx⟩⟩
      obtain ⟨hrevised, hkept⟩ := hk.control hx
      have hktype : k.type = .experiment := hrevised.type.trans hj.type
      have hstep := revisedIn_revise controlFields (by decide) k m co u.changes revision hallowed hm
      refine ⟨hrevised.trans hstep, ?_⟩
      rcases attempts_revise k m hktype co hco u.changes revision _ hm with
        ⟨-, hsame⟩ | ⟨raw, hraw, hread⟩
      · rw [hsame]
        exact hkept
      · rw [hraw] at hattempts
        exact attemptsKept_of_accepted experiment hj.type raw pinned hasProposals ref m.attempts
          hread (attempts_settled m (hstep.type.trans hktype)) hattempts

end Updates

section Run

variable (x : String) (pinned : List DecisionPin) (experiment : ProjectNode rt)
  (here : GraphState rt) (source : Patch rt) (hj : LoopJudged here source x pinned experiment)

/-- The nodes that were there and the new ones, within the loop's frame. -/
def LoopNodes (x : String) (pinned : List String) (revision : Nat) (s t : GraphState rt) : Prop :=
  (∀ id n, s.nodes.get? id = some n →
    ∃ m, t.nodes.get? id = some m ∧ LoopNode x pinned revision id n m) ∧
  ∀ id m, t.nodes.get? id = some m → s.nodes.get? id = none → m.type = .evidence ∨ m.type = .blocker

theorem LoopNodes.congr {x : String} {pinned : List String} {revision : Nat}
    {s t u : GraphState rt} (h : LoopNodes x pinned revision s t)
    (hsame : ∀ id, u.nodes.get? id = t.nodes.get? id) : LoopNodes x pinned revision s u :=
  ⟨fun id n hn => by rw [hsame]; exact h.1 id n hn, fun id m hm => h.2 id m (hsame id ▸ hm)⟩

include hj in
theorem loopNodes_updateNodes (p : Patch rt) (hkind : p.kind ≠ .approval)
    (updates : List NodeUpdate) (hop : .updateNodes updates ∈ source.ops) (v w w' : GraphState rt)
    (hv : here.nodes = v.nodes) (hw : w.Keyed)
    (h : LoopNodes x (pinned.map (·.decisionId)) p.revision v w)
    (happ : applyOp p false (.updateNodes updates) w = .ok w') :
    LoopNodes x (pinned.map (·.decisionId)) p.revision v w' := by
  have hissues := hj.ops _ hop
  simp only [loopOperationIssues, not_refused_flatMap] at hissues
  have key := Steps.run_invariant (updateNode p false)
    (fun a : GraphState rt => a.Keyed ∧ LoopNodes x (pinned.map (·.decisionId)) p.revision v a)
    updates (fun u hu a b hinv hab => by
      obtain ⟨ha, hnodes, hcreated⟩ := hinv
      have hrewrites := (updateNode_rewrites p false u a b ha hab).1
      obtain ⟨k, m, hk, -, hm, rfl⟩ := updateNode_ok p false u a b hab
      rw [if_neg hkind] at hm
      obtain ⟨n, hn, hstep⟩ := loopNode_update here source x pinned experiment hj _ _ u
        (hissues u hu) p.coercions (coercions_cases p) p.revision k m hm
      rw [hv] at hn
      refine ⟨hrewrites.keyed ha, fun id n' hn' => ?_, fun id m' hm' hnone => ?_⟩
      · obtain ⟨k', hk', hframe⟩ := hnodes id n' hn'
        by_cases hid : id = u.id
        · subst hid
          rw [hn] at hn'
          cases hn'
          rw [hk] at hk'
          cases hk'
          exact ⟨m, by simp [ha u.id k hk], hstep hframe⟩
        · exact ⟨k', by rw [hrewrites.other hid]; exact hk', hframe⟩
      · by_cases hid : id = u.id
        · rw [hid, hn] at hnone
          cases hnone
        · rw [hrewrites.other hid] at hm'
          exact hcreated id m' hm' hnone)
    w w' ⟨hw, h⟩ happ
  exact key.2

include hj in
theorem loopNodes_createNodes (ctx : OpContext rt) (p : Patch rt) (nodes : List (RawNode rt))
    (hop : .createNodes nodes ∈ source.ops) (pins : List String) (v w w' : GraphState rt)
    (ha : Alike ctx.state w) (hr : refused (patchRules ctx (.createNodes nodes)) = false)
    (hw : w.Keyed) (h : LoopNodes x pins p.revision v w)
    (happ : applyOp p false (.createNodes nodes) w = .ok w') :
    LoopNodes x pins p.revision v w' := by
  have hissues := hj.ops _ hop
  simp only [loopOperationIssues, not_refused_flatMap, refused_rejectIf] at hissues
  have hkept : ∀ id n, w.nodes.get? id = some n → w'.nodes.get? id = some n := by
    intro id n hn
    rw [get?_nodes_applyOp p false _ w w' hw happ id, hn]
    intro hmem
    obtain ⟨raw, hraw, rfl⟩ := List.mem_map.mp hmem
    exact created_new ctx nodes hr raw hraw (ha.nodes ▸ Dict.mem_of_get? hn)
  refine ⟨fun id n hn => ?_, fun id m hm hnone => ?_⟩
  · obtain ⟨k, hk, hframe⟩ := h.1 id n hn
    exact ⟨k, hkept id k hk, hframe⟩
  · cases hk : w.nodes.get? id with
    | some k =>
        rw [hkept id k hk] at hm
        cases hm
        exact h.2 id _ hk hnone
    | none =>
        cases happ
        rw [get?_createNodes] at hm
        split at hm
        next raw hraw =>
          cases hm
          have htype := hissues raw (by simpa using List.mem_of_find?_eq_some hraw)
          simp only [Bool.and_eq_false_iff, decide_eq_false_iff_not, not_not] at htype
          exact htype
        next =>
          rw [hk] at hm
          cases hm

include hj in
/-- One accepted operation of a loop patch. -/
theorem loopFrame_applyOp (ctx : OpContext rt) (hmode : ctx.mode = .admission) (p : Patch rt)
    (hkind : p.kind ≠ .approval) (op : GraphOperation rt) (hop : op ∈ source.ops)
    (v w w' : GraphState rt) (hv : here.nodes = v.nodes) (ha : Alike ctx.state w)
    (hr : refused (patchRules ctx op) = false) (hw : w.Keyed)
    (happ : applyOp p false op w = .ok w')
    (h : LoopFrame x (pinned.map (·.decisionId)) p.revision v w) :
    LoopFrame x (pinned.map (·.decisionId)) p.revision v w' := by
  have hissues := hj.ops op hop
  have hnodes : LoopNodes x (pinned.map (·.decisionId)) p.revision v w' := by
    have hw' : LoopNodes x (pinned.map (·.decisionId)) p.revision v w := ⟨h.nodes, h.created⟩
    cases op with
    | updateNodes updates =>
        exact loopNodes_updateNodes x pinned experiment here source hj p hkind updates hop v w w' hv
          hw hw' happ
    | createNodes nodes =>
        exact loopNodes_createNodes x pinned experiment here source hj ctx p nodes hop _ v w w' ha hr
          hw hw' happ
    | createEdges edges =>
        exact hw'.congr fun id => get?_nodes_applyOp p false _ w w' hw happ id
          (by simp [GraphOperation.nodeTargets])
    | createProposals proposals =>
        exact hw'.congr fun id => get?_nodes_applyOp p false _ w w' hw happ id
          (by simp [GraphOperation.nodeTargets])
    | upsertGlossary terms =>
        exact hw'.congr fun id => get?_nodes_applyOp p false _ w w' hw happ id
          (by simp [GraphOperation.nodeTargets])
    | _ => simp [loopOperationIssues] at hissues
  refine ⟨hnodes.1, hnodes.2, fun id e he => ?_⟩
  have hthere := h.edges id e he
  rcases (edges_applyOp p false op w w' hw happ).2 id e hthere with hkept | hunlinks | hwritten
  · exact hkept
  · cases op with
    | removeNodes ids => simp [loopOperationIssues] at hissues
    | removeEdges ids => simp [loopOperationIssues] at hissues
    | _ => cases hunlinks
  · have hfresh := unwritten_of_accepted ctx hmode op hr id hwritten
    rw [ha.mem_edges] at hfresh
    exact absurd (Dict.mem_of_get? hthere) hfresh

end Run

section Transition

variable (project : Project rt) (revision : Nat) (raws : List (Patch rt)) (x : String)
  (pinned : List DecisionPin)

/-- Raw patches of the loop of `x`, with one pinned bundle. -/
def LoopRequest (raws : List (Patch rt)) (x : String) (pinned : List DecisionPin) : Prop :=
  ∀ raw ∈ raws, raw.kind = .experimentLoop ∧ raw.experimentControlNodeId = some x ∧
    raw.experimentDecisionBundle = pinned

variable (hloop : LoopRequest raws x pinned)

include hloop in
theorem loopJudged_of_admitted (here : GraphState rt) (source : Patch rt)
    (hadmitted : Admitted project revision raws here source) (hplain : source.transition = none)
    (hkeyed : here.Keyed) :
    source.kind = .experimentLoop ∧
      ∃ experiment, LoopJudged here source x pinned experiment := by
  obtain ⟨raw, hraw, hsource, -, hissues⟩ := hadmitted.gates hplain
  obtain ⟨hkind, hcontrol, hbundle⟩ := hloop raw hraw
  have hskind : source.kind = .experimentLoop := by rw [hsource]; exact hkind
  have hscontrol : source.experimentControlNodeId = some x := by rw [hsource]; exact hcontrol
  have hsbundle : source.experimentDecisionBundle = pinned := by rw [hsource]; exact hbundle
  obtain ⟨henvelope, -⟩ := patchIssues_accepted here source _ _ hissues
  simp only [envelopeIssues, refused_append, Bool.or_eq_false_iff, hskind, if_true] at henvelope
  have hauthority := henvelope.1.2
  simp only [experimentLoopIssues, openContext, hscontrol, hsbundle, Option.filter_none,
    Option.none_or, Option.getD_none, mode_admissionContext] at hauthority
  refine ⟨hskind, ?_⟩
  split at hauthority
  next => simp at hauthority
  next experiment hexperiment =>
    obtain ⟨id, hid, htyped⟩ := Option.bind_eq_some_iff.mp hexperiment
    obtain ⟨hid, -⟩ := Option.filter_eq_some_iff.mp hid
    cases hid
    obtain ⟨hnode, htype⟩ := (typed?_iff here _ x experiment).mp htyped
    simp only [refused_append, Bool.or_eq_false_iff, not_refused_flatMap] at hauthority
    exact ⟨experiment, hnode, hkeyed x experiment hnode, htype, hauthority.2⟩

include hloop in
/-- A whole loop patch. It creates no edge under the id of an edge it meets. -/
theorem loopFrame_patch (p : Patch rt) (here v w : GraphState rt) (source : Patch rt)
    (hadmitted : Admitted project revision raws here source)
    (henvelope : source.applies = p.applies) (hplain : source.transition = none)
    (ha : Alike here v) (hv : v.Keyed)
    (hrun : Steps.run (applyOp p false) source.ops v = .ok w) :
    p.kind = .experimentLoop ∧ v.nodeType? x = some .experiment ∧ w.Keyed ∧
      LoopFrame x (pinned.map (·.decisionId)) p.revision v w ∧
      ∀ id ∈ v.edges, id ∉ source.ops.flatMap createdEdgeIds := by
  obtain ⟨hskind, experiment, hj⟩ := loopJudged_of_admitted project revision raws x pinned hloop
    here source hadmitted hplain (keyed_of_nodes here v ha.nodes hv)
  have hkind : p.kind = .experimentLoop := by
    simp only [Patch.applies, Prod.mk.injEq] at henvelope
    rw [← henvelope.2.1, hskind]
  obtain ⟨raw, -, -, -, hissues⟩ := hadmitted.gates hplain
  have key := patchIssues_run here source _ _ hissues p henvelope hplain
    (fun rest a => a.Keyed ∧ LoopFrame x (pinned.map (·.decisionId)) p.revision v a ∧
      ∀ id ∈ v.edges, id ∈ source.ops.flatMap createdEdgeIds → id ∈ rest.flatMap createdEdgeIds)
    (by
      rintro op rest ctx a b hop ⟨c, r, rfl⟩ hca hr hab ⟨hkeyed, hframe, hcreated⟩
      have hmode := mode_admissionContext project here source
      refine ⟨keyed_applyOp p false op a b hkeyed hab,
        loopFrame_applyOp x pinned experiment here source hj _ hmode p (by rw [hkind]; decide) op
          hop v a b ha.nodes hca hr hkeyed hab hframe, fun id hid hall => ?_⟩
      have hrest := hcreated id hid hall
      rw [List.flatMap_cons, List.mem_append] at hrest
      rcases hrest with hhere | hrest
      · have hfresh := unwritten_of_accepted _ hmode op hr id (createdEdgeIds_written op id hhere)
        rw [hca.mem_edges] at hfresh
        obtain ⟨e, he⟩ := (Dict.mem_iff_exists _ _).mp hid
        exact absurd (Dict.mem_of_get? (hframe.edges id e he)) hfresh
      · exact hrest)
    v w ha hrun ⟨hv, .refl _ _ _ v, fun _ _ h => h⟩
  refine ⟨hkind, ?_, key.1, key.2.1, fun id hid hall => ?_⟩
  · rw [GraphState.nodeType?, ← ha.nodes, hj.node, Option.map_some, hj.type]
  · exact absurd (key.2.2 id hid hall) (by simp)

include hloop in
/-- All source patches of a request. -/
theorem loopFrame_sources (p : Patch rt) (admitted : List (Patch rt)) (s u : GraphState rt)
    (hrun : JudgedRun (Admitted project revision raws) p admitted s u) (hs : s.Keyed)
    (hne : admitted ≠ []) :
    p.kind = .experimentLoop ∧ s.nodeType? x = some .experiment ∧ u.Keyed ∧
      LoopFrame x (pinned.map (·.decisionId)) p.revision s u ∧
      ∀ id ∈ s.edges, id ∉ (admitted.flatMap (·.ops)).flatMap createdEdgeIds := by
  have key := hrun.invariant
    (fun rest a => a.Keyed ∧ LoopFrame x (pinned.map (·.decisionId)) p.revision s a ∧
      (rest = admitted ∧ a = s ∨ p.kind = .experimentLoop ∧ s.nodeType? x = some .experiment) ∧
      ∀ id ∈ s.edges, id ∈ (admitted.flatMap (·.ops)).flatMap createdEdgeIds →
        id ∈ (rest.flatMap (·.ops)).flatMap createdEdgeIds)
    (fun here a b source rest henvelope hplain ha hadmitted hab
        ⟨hkeyed, hframe, hfirst, hcreated⟩ => by
      obtain ⟨hkind, htype, hkeyed', hstep, hfresh⟩ := loopFrame_patch project revision raws x pinned
        hloop p here a b source hadmitted henvelope hplain ha hkeyed hab
      refine ⟨hkeyed', hframe.trans hstep, .inr ⟨hkind, ?_⟩, fun id hid hall => ?_⟩
      · rcases hfirst with ⟨-, rfl⟩ | ⟨-, hs⟩
        · exact htype
        · exact hs
      · have hrest := hcreated id hid hall
        rw [List.flatMap_cons, List.flatMap_append, List.mem_append] at hrest
        rcases hrest with hhere | hrest
        · obtain ⟨e, he⟩ := (Dict.mem_iff_exists _ _).mp hid
          exact absurd hhere (hfresh id (Dict.mem_of_get? (hframe.edges id e he)))
        · exact hrest)
    ⟨hs, .refl _ _ _ s, .inl ⟨rfl, rfl⟩, fun _ _ h => h⟩
  obtain ⟨hkeyed, hframe, hfirst, hcreated⟩ := key
  rcases hfirst with ⟨hnil, -⟩ | ⟨hkind, htype⟩
  · exact absurd hnil.symm hne
  · exact ⟨hkind, htype, hkeyed, hframe,
      fun id hid hall => absurd (hcreated id hid hall) (by simp)⟩

/-- A generated operation marks guidance within the frame. -/
theorem loopNode_marked (x : String) (pins : List String) (r : Nat) (id : String)
    (n m : ProjectNode rt) (htype : n.type = .experiment)
    (h : n.RevisedIn guidanceStaleFields r m) : LoopNode x pins r id n m := by
  refine ⟨fun _ => ⟨h.mono fun f hf => List.mem_append_right _ hf, ?_⟩, fun _ _ hd => ?_,
    fun _ _ => h, fun _ he => absurd htype he⟩
  · unfold ProjectNode.attempts
    rw [h.content "attempts" (by decide)]
    exact .refl _
  · rw [htype] at hd
    cases hd

theorem loopFrame_marks (pins : List String) (p : Patch rt) (hkind : p.kind ≠ .approval)
    (generated : List (GraphOperation rt)) (s t : GraphState rt)
    (hg : ∀ op ∈ generated, op.MarksGuidance s) (hs : s.Keyed)
    (h : Steps.run (applyOp p true) generated s = .ok t) :
    LoopFrame x pins p.revision s t := by
  have key := Steps.run_invariant (applyOp p true)
    (fun a : GraphState rt => a.Keyed ∧ LoopFrame x pins p.revision s a) generated
    (fun op hop a b ⟨ha, hframe⟩ hab => by
      have hkeyed := keyed_applyOp p true op a b ha hab
      obtain ⟨u, rfl, htype, -, hkeys⟩ := hg op hop
      refine ⟨hkeyed, hframe.trans ?_⟩
      obtain ⟨b', hb', hlast⟩ := (Steps.run_cons_ok _ _ _ _ _).mp hab
      cases hlast
      have hrewrites := (updateNode_rewrites p true u a b ha hb').1
      obtain ⟨k, m, hk, -, hm, rfl⟩ := updateNode_ok p true u a b hb'
      rw [if_neg hkind] at hm
      have hmarked := revisedIn_revise guidanceStaleFields (by decide) k m _ _ _ hkeys hm
      have hktype : k.type = .experiment := by
        obtain ⟨n, hn, hntype⟩ := Option.map_eq_some_iff.mp htype
        obtain ⟨k', hk', hnode⟩ := hframe.nodes u.id n hn
        rw [hk] at hk'
        cases hk'
        exact hnode.type.trans hntype
      refine ⟨fun id n hn => ?_, fun id m' hm' hnone => ?_, fun id e he => by simpa using he⟩
      · by_cases hid : id = u.id
        · subst hid
          rw [hk] at hn
          cases hn
          exact ⟨m, by simp [ha u.id k hk], loopNode_marked x pins _ _ k m hktype hmarked⟩
        · exact ⟨n, by rw [hrewrites.other hid]; exact hn, .refl _ _ _ _ n⟩
      · by_cases hid : id = u.id
        · rw [hid, hk] at hnone
          cases hnone
        · rw [hrewrites.other hid, hnone] at hm'
          cases hm')
    s t ⟨hs, .refl _ _ _ s⟩ h
  exact key.2

/-- The frame of the loop: whatever a loop patch of `x` with its pinned Decisions brings, the
complete transition stays within it. -/
theorem experimentLoop_frame (project : Project rt) (s : GraphState rt)
    (hs : Reachable (fun _ _ => True) s) (revision : Nat) (raws : List (Patch rt)) (x : String)
    (pinned : List DecisionPin) (hloop : LoopRequest raws x pinned)
    (sources : AdmittedSources rt) (preHead : Option GraphHeadRef)
    (prepared : PreparedTransition rt)
    (hgates : admitSources project s.revision revision raws s = .ok sources)
    (hprepared : prepareValidated s sources.patches preHead = .ok prepared) :
    s.nodeType? x = some .experiment ∧
      LoopFrame x (pinned.map (·.decisionId)) prepared.patch.revision s prepared.graph := by
  obtain ⟨first, rest, staged, w, admitted, u, v, hsources, -, -, -, -, -, -, -, hrun⟩ :=
    appended_staged project s revision raws sources preHead _ prepared hgates hprepared
  have hkeyed := keyed_of_reachable s hs
  have hne : admitted ≠ [] := by
    rintro rfl
    have hraws : raws = [] := List.length_eq_zero_iff.mp hrun.count.symm
    rw [hraws] at hgates
    cases hgates
    cases hsources
  obtain ⟨hkind, htype, hukeyed, hframe, hfresh⟩ := loopFrame_sources project revision raws x pinned
    hloop prepared.patch admitted s u hrun.judged hkeyed hne
  have hmarks := loopFrame_marks x (pinned.map (·.decisionId)) prepared.patch
    (by rw [hkind]; decide) _ u v hrun.marks hukeyed hrun.marked
  have hend := hframe.trans hmarks
  have hnodes : prepared.graph.nodes = v.nodes := by
    rw [hrun.graph]
    exact (relayer_alike _ v).nodes
  refine ⟨htype, hnodes ▸ hend.nodes, hnodes ▸ hend.created, fun id e he => ?_⟩
  -- The layers of created edges are derived once more; this edge is none of them.
  have hold : id ∉ prepared.patch.ops.flatMap createdEdgeIds := by
    rw [hrun.created]
    exact hfresh id (Dict.mem_of_get? he)
  rw [hrun.graph]
  change (relayer _ v).edges.get? id = some e
  rw [get?_relayer, if_neg hold]
  exact hend.edges id e he

end Transition

section Concrete

def attemptDraft (id status : String) : Json :=
  .obj [("id", .str id), ("sequence", .num 1), ("purpose", .str "Try."), ("status", .str status)]

/-- An Experiment with one attempt under way. -/
def runningDraft (id : String) : RawNode .plain where
  id := id
  type := .experiment
  extensionType := none
  standing := none
  createdRev := none
  updatedRev := none
  content :=
    [ ("title", .str "Title"), ("objective", .str "Objective"),
      ("attempts", .arr [attemptDraft "one" "running"]) ]
  extensionType_ok := RawNode.no_extension
  content_ok := by rfl

def runningExperiment : Patch .plain :=
  firstPatch
    [ .createNodes [runningDraft "exp/a", decisionDraft "dec/a"],
      .createEdges [governedDraft "exp/a" "dec/a"] ]

def loopPins : List DecisionPin := [⟨"dec/a", 1, "a"⟩]

/-- The loop closes its attempt and queues the Decision that governs it. -/
def closingTurn : Patch .plain where
  revision := 1
  kind := .experimentLoop
  author := some .agent
  producer := .agent
  createdAt := "2026-01-01T00:00:00Z"
  summary := "Close."
  runTruthScope := ["repo"]
  experimentControlNodeId := some "exp/a"
  experimentDecisionBundle := loopPins
  ops :=
    [ .updateNodes
        [ { id := "exp/a", changes := .ofList [("attempts", .arr [attemptDraft "one" "failed"])] },
          { id := "dec/a", changes := .ofList [("status", .str "ready")] } ] ]

theorem experimentLoop_frame_closing :
    ∃ s prepared,
      applyValidPatch (.initial .plain ["repo"]) runningExperiment = .ok s ∧
      nextAppend Project.solo (s.record []) [closingTurn] = some prepared ∧
      ((prepared.graph.nodes.get? "exp/a").map fun n : ProjectNode .plain =>
        n.attempts.map terminalAttempt) = some [true] ∧
      LoopFrame "exp/a" ["dec/a"] prepared.patch.revision (s.record []) prepared.graph := by
  have hrun : ∃ s, applyValidPatch (.initial .plain ["repo"]) runningExperiment = .ok s ∧
      (nextAppend Project.solo (s.record []) [closingTurn]).any (fun prepared =>
        ((prepared.graph.nodes.get? "exp/a").map fun n : ProjectNode .plain =>
          n.attempts.map terminalAttempt) = some [true]) = true :=
    ⟨_, rfl, by decide +kernel⟩
  obtain ⟨s, hs, hany⟩ := hrun
  obtain ⟨prepared, hp, hclosed⟩ := (Option.any_eq_true _ _).mp hany
  obtain ⟨sources, hgates, hprepared⟩ := nextAppend_ok _ _ _ prepared hp
  have hreachable : Reachable (fun _ _ => True) (s.record []) :=
    .accept _ s runningExperiment { projectTruthScope := ["repo"] } {} [] (.initial ["repo"]) trivial
      (by decide) hs
  have hloop : LoopRequest [closingTurn] "exp/a" loopPins := by
    intro raw hraw
    rw [List.mem_singleton.mp hraw]
    exact ⟨rfl, rfl, rfl⟩
  exact ⟨s, prepared, hs, hp, of_decide_eq_true hclosed,
    (experimentLoop_frame Project.solo _ hreachable _ _ "exp/a" loopPins hloop sources none prepared
      hgates hprepared).2⟩

end Concrete

end RcpGraph
