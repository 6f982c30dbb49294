import RcpGraph.Core.Layers
import RcpGraph.History.Admitted

/-!
Glossary spellings. Bookkeeping fixes the spelling of every term of a patch before the
operations run, and running them stores terms by their exact spelling; what an append
leaves is again unique up to lower-casing, with the last definition of every term.
-/

namespace RcpGraph

variable {rt : Runtime}

abbrev Glossary := Dict String GlossaryTerm

/-- No two terms are equal up to lower-casing. -/
def CaseUnique (rt : Runtime) (g : Glossary) : Prop :=
  ∀ k k', k ∈ g → k' ∈ g → rt.lower k = rt.lower k' → k = k'

/-- The terms an operation defines. -/
def GraphOperation.terms : GraphOperation rt → List NewGlossaryTerm
  | .upsertGlossary ts => ts
  | _ => []

def defineTerm (revision : Nat) (g : Glossary) (t : NewGlossaryTerm) : Glossary :=
  g.insert t.term { t with updatedRev := revision }

/-- The spelling in use for a lower-case form: the one a term of the glossary has, or the
first one that defines it. -/
def spellingInUse (rt : Runtime) (g : Glossary) (ts : List NewGlossaryTerm) (l : String) :
    Option String :=
  (g.keys.find? fun k => rt.lower k = l).or
    ((ts.find? fun t => rt.lower t.term = l).map (·.term))

/-- What the definitions of some terms, in written order, make of a glossary. -/
structure Glossed (rt : Runtime) (g g' : Glossary) (ts : List NewGlossaryTerm) : Prop where
  unique : CaseUnique rt g'
  kept : ∀ k, (∀ t ∈ ts, rt.lower t.term ≠ rt.lower k) → g'.get? k = g.get? k
  stored : ∀ t ∈ ts, ∃ k e last, spellingInUse rt g ts (rt.lower t.term) = some k ∧
    (ts.reverse.find? fun u => rt.lower u.term = rt.lower t.term) = some last ∧
    g'.get? k = some e ∧ e.term = k ∧ e.plainDefinition = last.plainDefinition ∧
    e.whereDefined = last.whereDefined

section Spellings

/-- The term of a lower-case form is the only one a search can find. -/
theorem find_of_unique {g : Glossary} (h : CaseUnique rt g) {k : String} (hk : k ∈ g) :
    (g.keys.find? fun x => rt.lower x = rt.lower k) = some k := by
  cases hfind : g.keys.find? fun x => rt.lower x = rt.lower k with
  | none =>
      rw [List.find?_eq_none] at hfind
      exact absurd (decide_eq_true rfl) (hfind k hk)
  | some x =>
      have hlower := List.find?_some hfind
      rw [h x k (List.mem_of_find?_eq_some hfind) hk (of_decide_eq_true hlower)]

theorem lower_of_inUse {g : Glossary} {ts : List NewGlossaryTerm} {l k : String}
    (h : spellingInUse rt g ts l = some k) : rt.lower k = l := by
  rw [spellingInUse, Option.or_eq_some_iff] at h
  rcases h with h | ⟨-, h⟩
  · simpa using List.find?_some h
  · obtain ⟨t, ht, rfl⟩ := Option.map_eq_some_iff.mp h
    simpa using List.find?_some ht

theorem inUse_of_mem {g : Glossary} (h : CaseUnique rt g) {k : String} (hk : k ∈ g)
    (ts : List NewGlossaryTerm) : spellingInUse rt g ts (rt.lower k) = some k := by
  rw [spellingInUse, find_of_unique h hk]
  rfl

theorem Glossed.nil {g : Glossary} (h : CaseUnique rt g) : Glossed rt g g [] :=
  ⟨h, fun _ _ => rfl, by simp⟩

/-- A term that is not there and not defined is not there afterwards. -/
theorem Glossed.find {g g' : Glossary} {ts : List NewGlossaryTerm} (h : Glossed rt g g' ts)
    (l : String) (hl : ∀ t ∈ ts, rt.lower t.term ≠ l) :
    (g'.keys.find? fun k => rt.lower k = l) = g.keys.find? fun k => rt.lower k = l := by
  have hmem : ∀ k, rt.lower k = l → (k ∈ g' ↔ k ∈ g) := by
    rintro k rfl
    rw [Dict.mem_iff_isSome, Dict.mem_iff_isSome, h.kept k hl]
  cases hfind : g.keys.find? fun k => rt.lower k = l with
  | none =>
      rw [List.find?_eq_none] at hfind ⊢
      intro k hk hlower
      exact hfind k ((hmem k (of_decide_eq_true hlower)).mp hk) hlower
  | some k =>
      have hlower : rt.lower k = l := by simpa using List.find?_some hfind
      have hk := (hmem k hlower).mpr (List.mem_of_find?_eq_some hfind)
      rw [← hlower]
      exact find_of_unique h.unique hk

/-- Definitions after definitions. -/
theorem Glossed.append {g g₁ g₂ : Glossary} {ts us : List NewGlossaryTerm}
    (h : Glossed rt g g₁ ts) (h' : Glossed rt g₁ g₂ us) : Glossed rt g g₂ (ts ++ us) := by
  refine ⟨h'.unique, fun k hk => ?_, fun t ht => ?_⟩
  · rw [h'.kept k fun u hu => hk u (List.mem_append_right _ hu),
      h.kept k fun u hu => hk u (List.mem_append_left _ hu)]
  · generalize hl : rt.lower t.term = l
    -- the spelling is the one that the first definitions leave
    have hspelling : ∀ k, (∃ u ∈ us, rt.lower u.term = l) → spellingInUse rt g₁ us l = some k →
        spellingInUse rt g (ts ++ us) l = some k := by
      intro k _ hk
      by_cases hts : ∃ u ∈ ts, rt.lower u.term = l
      · obtain ⟨u, hu, hul⟩ := hts
        obtain ⟨k₁, e, -, hin, -, hget, -⟩ := h.stored u hu
        rw [hul] at hin
        have hk₁ := Dict.mem_of_get? hget
        have hlower := lower_of_inUse hin
        rw [← hlower, inUse_of_mem h.unique hk₁] at hk
        cases hk
        rw [spellingInUse, Option.or_eq_some_iff] at hin ⊢
        refine hin.imp_right fun ⟨hnone, hfirst⟩ => ⟨hnone, ?_⟩
        obtain ⟨v, hv, rfl⟩ := Option.map_eq_some_iff.mp hfirst
        rw [List.find?_append, hv]
        rfl
      · push Not at hts
        rw [spellingInUse, h.find l hts] at hk
        have hnone : (ts.find? fun t => rt.lower t.term = l) = none := by
          rw [List.find?_eq_none]
          intro u hu
          simpa using hts u hu
        rw [spellingInUse, List.find?_append, hnone, Option.none_or]
        exact hk
    by_cases hus : ∃ u ∈ us, rt.lower u.term = l
    · obtain ⟨u, hu, hul⟩ := hus
      obtain ⟨k, e, last, hin, hlast, hrest⟩ := h'.stored u hu
      rw [hul] at hin hlast
      refine ⟨k, e, last, hspelling k ⟨u, hu, hul⟩ hin, ?_, hrest⟩
      rw [List.reverse_append, List.find?_append, hlast]
      rfl
    · push Not at hus
      have htts : t ∈ ts := by
        rcases List.mem_append.mp ht with ht | ht
        · exact ht
        · exact absurd hl (hus t ht)
      obtain ⟨k, e, last, hin, hlast, hget, hrest⟩ := h.stored t htts
      rw [hl] at hin hlast
      have hlower := lower_of_inUse hin
      refine ⟨k, e, last, ?_, ?_, ?_, hrest⟩
      · rw [spellingInUse, Option.or_eq_some_iff] at hin ⊢
        refine hin.imp_right fun ⟨hnone, hfirst⟩ => ⟨hnone, ?_⟩
        obtain ⟨v, hv, rfl⟩ := Option.map_eq_some_iff.mp hfirst
        rw [List.find?_append, hv]
        rfl
      · have hnone : (us.reverse.find? fun u => rt.lower u.term = l) = none := by
          rw [List.find?_eq_none]
          intro u hu
          simpa using hus u (List.mem_reverse.mp hu)
        rw [List.reverse_append, List.find?_append, hnone, Option.none_or, hlast]
      · rw [h'.kept k (by rw [hlower]; exact hus), hget]

end Spellings

section Respelling

/-- The spellings that bookkeeping knows are those of the glossary. -/
def Spelled (rt : Runtime) (spellings : Dict String String) (g : Glossary) : Prop :=
  ∀ l k, spellings.get? l = some k ↔ k ∈ g ∧ rt.lower k = l

theorem Spelled.unique {spellings : Dict String String} {g : Glossary}
    (h : Spelled rt spellings g) : CaseUnique rt g := by
  intro k k' hk hk' hlower
  have hget := (h (rt.lower k') k).mpr ⟨hk, hlower⟩
  rw [(h (rt.lower k') k').mpr ⟨hk', rfl⟩] at hget
  exact (Option.some.inj hget).symm

/-- One term, respelled and stored. -/
theorem glossed_define (revision : Nat) (spellings : Dict String String) (g : Glossary)
    (t : NewGlossaryTerm) (h : Spelled rt spellings g) :
    let known := learnSpelling spellings (rt.lower t.term) t.term
    let g' := defineTerm revision g { t with term := known.getD (rt.lower t.term) t.term }
    Glossed rt g g' [t] ∧ Spelled rt known g' := by
  intro known g'
  have hg := h.unique
  cases hget : spellings.get? (rt.lower t.term) with
  | some k =>
      have hmem := Dict.mem_of_get? hget
      obtain ⟨hk, hlower⟩ := (h _ _).mp hget
      have hknown : known = spellings := if_pos hmem
      have hspelling : known.getD (rt.lower t.term) t.term = k := by
        rw [hknown, Dict.getD, hget]
        rfl
      have hsame : ∀ x, x ∈ g' ↔ x ∈ g := by
        intro x
        show x ∈ defineTerm revision g _ ↔ x ∈ g
        rw [defineTerm, Dict.mem_insert, hspelling]
        exact ⟨fun hx => hx.elim (fun hx => hx ▸ hk) id, .inr⟩
      have hspelled : Spelled rt known g' := by
        intro l x
        rw [hknown, hsame]
        exact h l x
      refine ⟨⟨hspelled.unique, ?_, ?_⟩, hspelled⟩
      · intro x hx
        have hne : x ≠ k := by
          rintro rfl
          exact hx t List.mem_cons_self hlower.symm
        show (defineTerm revision g _).get? x = g.get? x
        rw [defineTerm, Dict.get?_insert, hspelling, if_neg hne]
      · intro u hu
        obtain rfl := List.mem_singleton.mp hu
        refine ⟨k, ⟨{ u with term := k }, revision⟩, u, ?_, by simp, ?_, rfl, rfl, rfl⟩
        · rw [← hlower]
          exact inUse_of_mem hg hk _
        · show (defineTerm revision g _).get? k = _
          rw [defineTerm, hspelling, Dict.get?_insert_self]
  | none =>
      have hmem := (Dict.not_mem_iff _ _).mpr hget
      have hknown : known = spellings.insert (rt.lower t.term) t.term := if_neg hmem
      have hspelling : known.getD (rt.lower t.term) t.term = t.term := by
        rw [hknown, Dict.getD, Dict.get?_insert_self]
        rfl
      have hnew : ∀ k ∈ g, rt.lower k ≠ rt.lower t.term := by
        intro k hk hlower
        rw [(h _ k).mpr ⟨hk, hlower⟩] at hget
        cases hget
      have hsame : ∀ x, x ∈ g' ↔ x = t.term ∨ x ∈ g := by
        intro x
        show x ∈ defineTerm revision g _ ↔ _
        rw [defineTerm, Dict.mem_insert, hspelling]
      have hspelled : Spelled rt known g' := by
        intro l x
        rw [hknown, hsame, Dict.get?_insert]
        by_cases hl : l = rt.lower t.term
        · subst hl
          rw [if_pos rfl, Option.some.injEq]
          constructor
          · rintro rfl
            exact ⟨.inl rfl, rfl⟩
          · rintro ⟨rfl | hx, hlower⟩
            · rfl
            · exact absurd hlower (hnew x hx)
        · rw [if_neg hl, h l x]
          constructor
          · rintro ⟨hx, hlower⟩
            exact ⟨.inr hx, hlower⟩
          · rintro ⟨rfl | hx, hlower⟩
            · exact absurd hlower.symm hl
            · exact ⟨hx, hlower⟩
      refine ⟨⟨hspelled.unique, ?_, ?_⟩, hspelled⟩
      · intro x hx
        have hne : x ≠ t.term := by
          rintro rfl
          exact hx t List.mem_cons_self rfl
        show (defineTerm revision g _).get? x = g.get? x
        rw [defineTerm, Dict.get?_insert, hspelling, if_neg hne]
      · intro u hu
        obtain rfl := List.mem_singleton.mp hu
        refine ⟨u.term, ⟨u, revision⟩, u, ?_, by simp, ?_, rfl, rfl, rfl⟩
        · have hnone : (g.keys.find? fun k => rt.lower k = rt.lower u.term) = none := by
            rw [List.find?_eq_none]
            intro k hk
            simpa using hnew k hk
          rw [spellingInUse, hnone]
          simp
        · show (defineTerm revision g _).get? u.term = _
          rw [defineTerm, hspelling, Dict.get?_insert_self]

/-- The terms of a patch, respelled and stored one after another. -/
theorem glossed_respellTerms (revision : Nat) (ts : List NewGlossaryTerm)
    (spellings : Dict String String) (g : Glossary) (h : Spelled rt spellings g) :
    Glossed rt g ((respellTerms rt ts spellings).1.foldl (defineTerm revision) g) ts := by
  induction ts generalizing spellings g with
  | nil => exact .nil h.unique
  | cons t ts ih =>
      obtain ⟨hhead, hspelled⟩ := glossed_define revision spellings g t h
      exact hhead.append (ih _ _ hspelled)

theorem respellTerms_append (ts us : List NewGlossaryTerm) (spellings : Dict String String) :
    respellTerms rt (ts ++ us) spellings =
      ((respellTerms rt ts spellings).1 ++
        (respellTerms rt us (respellTerms rt ts spellings).2).1,
        (respellTerms rt us (respellTerms rt ts spellings).2).2) := by
  induction ts generalizing spellings with
  | nil => rfl
  | cons t ts ih =>
      rw [List.cons_append, respellTerms, ih]
      rfl

/-- Bookkeeping respells the terms of all operations with one dictionary. -/
theorem terms_prepareOperations (s : GraphState rt) (p : Patch rt) (ops : List (GraphOperation rt))
    (spellings : Dict String String) :
    (prepareOperations s p ops spellings).flatMap GraphOperation.terms =
      (respellTerms rt (ops.flatMap GraphOperation.terms) spellings).1 := by
  induction ops generalizing spellings with
  | nil => rfl
  | cons op ops ih =>
      cases op with
      | upsertGlossary ts =>
          rw [prepareOperations, List.flatMap_cons, List.flatMap_cons, ih, respellTerms_append]
          rfl
      | createProposals proposals =>
          rw [prepareOperations, List.flatMap_cons, List.flatMap_cons, ih]
          rfl
      | _ => exact ih spellings

theorem get?_learned (ks : List String) (spellings : Dict String String) (l : String) :
    (ks.foldl (fun d k => learnSpelling d (rt.lower k) k) spellings).get? l =
      (spellings.get? l).or (ks.find? fun k => rt.lower k = l) := by
  induction ks generalizing spellings with
  | nil => simp
  | cons k ks ih =>
      rw [List.foldl_cons, ih, List.find?_cons, learnSpelling]
      by_cases hmem : rt.lower k ∈ spellings
      · rw [if_pos hmem]
        by_cases hl : rt.lower k = l
        · subst hl
          obtain ⟨x, hx⟩ := (Dict.mem_iff_exists _ _).mp hmem
          simp [hx]
        · simp [hl]
      · rw [if_neg hmem, Dict.get?_insert]
        by_cases hl : rt.lower k = l
        · subst hl
          rw [(Dict.not_mem_iff _ _).mp hmem]
          simp
        · simp [hl, Ne.symm hl]

theorem spelled_glossarySpellings (s : GraphState rt) (h : CaseUnique rt s.glossary) :
    Spelled rt (glossarySpellings s) s.glossary := by
  intro l k
  rw [glossarySpellings, get?_learned, Dict.get?_empty, Option.none_or]
  constructor
  · intro hfind
    have hmem := List.mem_of_find?_eq_some hfind
    rw [Text.mem_sortedSet] at hmem
    exact ⟨hmem, by simpa using List.find?_some hfind⟩
  · rintro ⟨hk, rfl⟩
    cases hfind : (Text.sortedSet s.glossary.keys).find? fun x => rt.lower x = rt.lower k with
    | none =>
        rw [List.find?_eq_none] at hfind
        exact absurd (decide_eq_true rfl) (hfind k ((Text.mem_sortedSet _ _).mpr hk))
    | some x =>
        have hx := List.mem_of_find?_eq_some hfind
        rw [Text.mem_sortedSet] at hx
        rw [h x k hx hk (by simpa using List.find?_some hfind)]

end Respelling

section Appends

theorem glossary_recordBeliefTransition (s : GraphState rt) (n m : ProjectNode rt) (r : Nat)
    (cause : Option BeliefCause) :
    (recordBeliefTransition s n m r cause).glossary = s.glossary := by
  unfold recordBeliefTransition
  cases cause with
  | none => rfl
  | some c =>
      simp only
      split <;> rfl

theorem glossary_retireNode (p : Patch rt) (id : String) (cause : Option BeliefCause)
    (s t : GraphState rt) (h : retireNode p id cause s = .ok t) : t.glossary = s.glossary := by
  obtain ⟨n, m, -, -, rfl⟩ := retireNode_ok p id cause s t h
  exact glossary_recordBeliefTransition _ _ _ _ _

/-- What an operation does to the glossary. -/
theorem glossary_applyOp (p : Patch rt) (generated : Bool) (op : GraphOperation rt)
    (s t : GraphState rt) (h : applyOp p generated op s = .ok t) :
    t.glossary = op.terms.foldl (defineTerm p.revision) s.glossary := by
  cases op with
  | createNodes nodes =>
      cases h
      exact foldl_constant (createNode p.revision) (·.glossary) (fun _ _ => rfl) nodes s
  | updateNodes updates =>
      exact Steps.run_constant _ (·.glossary) updates (fun u _ s t h => by
        obtain ⟨n, m, -, -, -, rfl⟩ := updateNode_ok p generated u s t h
        exact glossary_recordBeliefTransition _ _ _ _ _) s t h
  | createEdges edges =>
      exact Steps.run_constant _ (·.glossary) edges (fun e _ s t h => by
        obtain ⟨id, declared, -, -, rfl⟩ := createEdge_ok p.revision e s t h
        rfl) s t h
  | supersedeNodes items =>
      exact Steps.run_constant _ (·.glossary) items (fun i _ s t h => by
        obtain ⟨u, hu, rfl⟩ := supersedeNode_ok p i s t h
        have hretire := glossary_retireNode p i.id i.cause s u hu
        cases i.edge? p.revision <;> exact hretire) s t h
  | mergeNodes merges =>
      exact Steps.run_constant _ (·.glossary) merges (fun m _ s t h => by
        obtain ⟨u, hu, rfl⟩ := mergeNode_ok p m s t h
        exact glossary_retireNode p m.duplicate m.cause s u hu) s t h
  | resolveAmbiguities rs =>
      exact Steps.run_constant _ (·.glossary) rs (fun r _ s t h => by
        obtain ⟨as, rfl⟩ := resolveAmbiguity_ok r s t h
        rfl) s t h
  | resolveProposals rs =>
      exact Steps.run_constant _ (·.glossary) rs (fun r _ s t h => by
        obtain ⟨q, q', -, -, rfl⟩ := resolveProposal_ok p r s t h
        rfl) s t h
  | withdrawProposals ws =>
      exact Steps.run_constant _ (·.glossary) ws (fun w _ s t h => by
        obtain ⟨q, q', -, -, rfl⟩ := withdrawProposal_ok p w s t h
        rfl) s t h
  | createAmbiguities as =>
      cases h
      exact foldl_constant (createAmbiguity p.revision) (·.glossary) (fun _ _ => rfl) as s
  | createProposals ps =>
      cases h
      exact foldl_constant (createProposal p) (·.glossary) (fun _ _ => rfl) ps s
  | upsertGlossary terms =>
      cases h
      show (terms.foldl (fun s raw => upsertTerm p.revision raw s) s).glossary =
        terms.foldl (defineTerm p.revision) s.glossary
      induction terms generalizing s with
      | nil => rfl
      | cons t terms ih => exact ih _
  | setStanding id standing =>
      obtain ⟨n, -, rfl⟩ := setStanding_ok p.revision id standing s t h
      rfl
  | removeNodes _ | removeEdges _ | setCoverage _ | setProjectTruthScope _ _ | setOntology _ =>
      cases h
      rfl

/-- What a patch does to the glossary. -/
theorem glossary_applyValidPatch (p : Patch rt) (s t : GraphState rt)
    (h : applyValidPatch s p = .ok t) :
    t.glossary =
      (p.ops.flatMap GraphOperation.terms).foldl (defineTerm p.revision) s.glossary := by
  have hrun : ∀ (ops : List (GraphOperation rt × Nat)) (s t : GraphState rt),
      Steps.run (fun x => applyOp p (decide (x.2 ∈ p.generatedIndexes)) x.1) ops s = .ok t →
        t.glossary = ((ops.map Prod.fst).flatMap GraphOperation.terms).foldl
          (defineTerm p.revision) s.glossary := by
    intro ops
    induction ops with
    | nil =>
        intro s t h
        cases h
        rfl
    | cons x ops ih =>
        intro s t h
        obtain ⟨u, hu, hrest⟩ := (Steps.run_cons_ok _ _ _ _ _).mp h
        rw [ih u t hrest, glossary_applyOp p _ x.1 s u hu, List.map_cons, List.flatMap_cons,
          List.foldl_append]
  obtain ⟨u, hu, rfl⟩ := applyPatch_ok p _ s t h
  have hglossary := hrun _ s u hu
  rw [List.zipIdx_map_fst] at hglossary
  rw [← hglossary, relayer_eq]
  unfold stamp
  split <;> rfl

theorem terms_finalize (p : Patch rt) (staged : GraphState rt) :
    (finalizePatchBookkeeping p staged).ops.flatMap GraphOperation.terms =
      p.ops.flatMap GraphOperation.terms := by
  rw [finalizePatchBookkeeping, List.flatMap_map]
  apply List.flatMap_congr
  intro op _
  cases op <;> rfl

/-- The terms after some definitions. -/
theorem mem_defined (revision : Nat) (ts : List NewGlossaryTerm) (g : Glossary) (k : String) :
    k ∈ ts.foldl (defineTerm revision) g ↔ k ∈ g ∨ k ∈ ts.map (·.term) := by
  induction ts generalizing g with
  | nil => simp
  | cons t ts ih =>
      rw [List.foldl_cons, ih, defineTerm, Dict.mem_insert, List.map_cons, List.mem_cons]
      constructor
      · rintro ((rfl | hk) | hk)
        · exact .inr (.inl rfl)
        · exact .inl hk
        · exact .inr (.inr hk)
      · rintro (hk | rfl | hk)
        · exact .inl (.inr hk)
        · exact .inl (.inl rfl)
        · exact .inr hk

theorem Spelled.congr {spellings : Dict String String} {g g' : Glossary}
    (h : Spelled rt spellings g) (hg : ∀ k, k ∈ g ↔ k ∈ g') : Spelled rt spellings g' := by
  intro l k
  rw [h l k, hg k]

/-- The source patches of an append, each prepared on what the ones before it left. -/
theorem glossed_admitSources (project : Project rt) (base revision final : Nat)
    (raws : List (Patch rt)) (staged : GraphState rt) (g : Glossary) (sources : AdmittedSources rt)
    (hkeys : ∀ k, k ∈ staged.glossary ↔ k ∈ g) (hg : CaseUnique rt g)
    (h : admitSources project base revision raws staged = .ok sources) :
    Glossed rt g
      (((sources.patches.flatMap (·.ops)).flatMap GraphOperation.terms).foldl (defineTerm final) g)
      (raws.flatMap fun raw => raw.ops.flatMap GraphOperation.terms) := by
  induction raws generalizing staged g sources with
  | nil =>
      cases h
      exact .nil hg
  | cons raw raws ih =>
      simp only [admitSources] at h
      split at h
      next => cases h
      next =>
        split at h
        next => cases h
        next candidate hcandidate =>
          split at h
          next => cases h
          next =>
            split at h
            next => cases h
            next tail htail =>
              cases h
              have hterms := terms_prepareOperations { staged with revision := base }
                { raw with revision := revision } raw.ops
                (glossarySpellings { staged with revision := base })
              have hspelled : Spelled rt (glossarySpellings { staged with revision := base }) g :=
                (spelled_glossarySpellings { staged with revision := base } (by
                  intro k k' hk hk'
                  exact hg k k' ((hkeys k).mp hk) ((hkeys k').mp hk'))).congr hkeys
              have hhead := glossed_respellTerms final (raw.ops.flatMap GraphOperation.terms) _ g
                hspelled
              have hafter := glossary_applyValidPatch _ _ _ hcandidate
              rw [← hterms] at hhead
              rw [List.flatMap_cons, List.flatMap_cons, List.flatMap_append, List.foldl_append,
                terms_finalize]
              refine hhead.append (ih { candidate with revision := base } _ tail ?_ hhead.unique
                htail)
              intro k
              show k ∈ candidate.glossary ↔ _
              rw [hafter, mem_defined, mem_defined]
              exact or_congr_left (hkeys k)

/-- A committed append keeps the glossary unique up to lower-casing: every term it defines is
stored under the spelling in use, with the definition written last. -/
theorem glossary_append (project : Project rt) (s : GraphState rt) (revision : Nat)
    (raws : List (Patch rt)) (sources : AdmittedSources rt) (preHead : Option GraphHeadRef)
    (most : Nat) (prepared : PreparedTransition rt) (hs : CaseUnique rt s.glossary)
    (hgates : admitSources project s.revision revision raws s = .ok sources)
    (hprepared : prepareValidated s sources.patches preHead most = .ok prepared) :
    Glossed rt s.glossary prepared.graph.glossary
      (raws.flatMap fun raw => raw.ops.flatMap GraphOperation.terms) := by
  obtain ⟨first, rest, staged, hpatches, parts⟩ :=
    prepareValidated_ok s sources.patches preHead most prepared hprepared
  obtain ⟨_, _, staged', w, _, u, _, _, _, _, _, _, _, _, hops, hrun⟩ :=
    appended_staged project s revision raws sources preHead most prepared hgates hprepared
  have hmarks : (staged'.generatedOps.map Prod.fst).flatMap GraphOperation.terms = [] := by
    rw [List.flatMap_eq_nil_iff]
    intro op hop
    obtain ⟨update, rfl, -⟩ := hrun.marks op hop
    rfl
  rw [glossary_applyValidPatch _ _ _ parts.applied, hops, List.flatMap_append, hmarks,
    List.append_nil]
  exact glossed_admitSources project s.revision revision _ raws s s.glossary sources
    (fun _ => Iff.rfl) hs hgates

/-- A runtime that lowers letters, for a concrete append. -/
def Runtime.lowering : Runtime :=
  { Runtime.plain with lower := fun s => String.ofList (s.toList.map Char.toLower) }

def loweringProject : Project .lowering where
  repositoryAliases := ["repo"]
  machineAliases := ["local"]
  stateRepository := "repo"
  scopeUpdateError := fun _ _ => none
  stateAt := fun _ => none

/-- One patch that defines a term under three spellings. -/
def spelledThrice : Patch .lowering where
  revision := 1
  kind := .work
  author := some .agent
  producer := .agent
  createdAt := "2026-01-01T00:00:00Z"
  summary := "Define."
  runTruthScope := ["repo"]
  ops :=
    [ .upsertGlossary [⟨"Probe", "first", none⟩, ⟨"PROBE", "second", none⟩],
      .upsertGlossary [⟨"probe", "third", none⟩] ]

theorem glossary_spelledThrice :
    ∃ prepared, nextAppend loweringProject (.initial .lowering ["repo"]) [spelledThrice] =
        some prepared ∧
      prepared.graph.glossary.keys = ["Probe"] ∧
      Glossed .lowering .empty prepared.graph.glossary
        [⟨"Probe", "first", none⟩, ⟨"PROBE", "second", none⟩, ⟨"probe", "third", none⟩] := by
  have happend : (nextAppend loweringProject (.initial .lowering ["repo"]) [spelledThrice]).any
      (fun prepared => prepared.graph.glossary.keys = ["Probe"]) = true := by decide +kernel
  obtain ⟨prepared, hp, hkeys⟩ := (Option.any_eq_true _ _).mp happend
  obtain ⟨sources, hgates, hprepared⟩ := nextAppend_ok _ _ _ prepared hp
  exact ⟨prepared, hp, of_decide_eq_true hkeys, glossary_append loweringProject _ _
    [spelledThrice] sources none _ prepared (fun k k' hk => absurd hk (Dict.not_mem_empty k)) hgates
    hprepared⟩

end Appends

end RcpGraph
