import RcpGraph.Core.Layers
import RcpGraph.Graph.Endpoints
import RcpGraph.Graph.GuidanceClosure

/-!
Data against the ontology. A `set_ontology` is judged by comparing the old
definitions with the new ones, and an update by comparing old values with new
ones. A definition that comes back after its removal has no old one to be compared
with, and `True == 1`; in runs without either, and without an edge that outlives
its endpoint, every node and every edge fits the definitions in force.
-/

namespace RcpGraph

open Schema

variable {rt : Runtime}

/-- A node fits an ontology. -/
structure NodeConforms (o : OntologyState) (n : ProjectNode rt) : Prop where
  kinds : ∀ f ∈ o.fields, fieldApplies n f = true → ∀ v, extensionValue n f.name = some v →
    fieldValueMatches f v = true
  required : ∀ f ∈ o.fields, fieldApplies n f = true → f.required = true →
    (extensionValue n f.name).isSome = true
  base : ∀ ext d, n.extensionType = some ext → ontologyType o ext = some d → d.baseType = n.type

/-- Every node and every edge of a custom relation fits the ontology in force. -/
structure GraphState.Conforming (s : GraphState rt) : Prop where
  nodes : ∀ id n, s.nodes.get? id = some n → NodeConforms s.ontology n
  edges : ∀ id e r, s.edges.get? id = some e → customRelation s.ontology e.relation = some r →
    edgeMatchesRelation s e.source e.target r = true

/-- The boolean for a number, or the number for a boolean. -/
def swapsBoolean : Json → Json → Bool
  | .num _, .bool _ | .bool _, .num _ => true
  | _, _ => false

/-- The extension fields an update writes. -/
def NodeUpdate.extensionFields? (u : NodeUpdate) : Option Doc :=
  (u.changes.get? "extension_fields").bind Json.obj?

/-- An update does not write a boolean over the number it is equal to, or the other way round. -/
def NodeUpdate.KeepsKinds (s : GraphState rt) (u : NodeUpdate) : Prop :=
  ∀ n, s.nodes.get? u.id = some n → ∀ fields, u.extensionFields? = some fields →
    ∀ f ∈ s.ontology.fields, fieldApplies n f = true → ∀ old new,
      extensionValue n f.name = some old → Assoc.find f.name fields = some new →
      old.pyEq new = true → swapsBoolean old new = false

/-- What the graph still carries under the name of a definition fits it, for every
definition that the ontology in force does not have. -/
structure BringsBackFitting (s : GraphState rt) (o : OntologyState) : Prop where
  fields : ∀ f ∈ o.fields,
    (s.ontology.fields.find? fun g => g.ownerType = f.ownerType && g.name = f.name) = none →
    ∀ id n, s.nodes.get? id = some n → fieldApplies n f = true →
      ∀ v, extensionValue n f.name = some v → fieldValueMatches f v = true
  types : ∀ id n, s.nodes.get? id = some n → ∀ ext d, n.extensionType = some ext →
    ontologyType s.ontology ext = none → ontologyType o ext = some d → d.baseType = n.type
  relations : ∀ id e r, s.edges.get? id = some e → customRelation s.ontology e.relation = none →
    customRelation o e.relation = some r → edgeMatchesRelation s e.source e.target r = true

/-- What an operation must not do to the graph it meets. -/
def GraphOperation.KeepsFit (s : GraphState rt) : GraphOperation rt → Prop
  | .setOntology o => BringsBackFitting s o
  | .updateNodes updates => ∀ u ∈ updates, u.KeepsKinds s
  | _ => True

/-- Every operation of a list meets the condition on the graph it runs on. -/
def KeepsFitAll (p : Patch rt) : List (GraphOperation rt) → GraphState rt → Prop
  | [], _ => True
  | op :: ops, s => op.KeepsFit s ∧ ∀ t, applyOp p false op s = .ok t → KeepsFitAll p ops t

/-- No operation of an append stores what the definitions it meets do not fit. -/
def OperationsFit (project : Project rt) (s : GraphState rt) (raws : List (Patch rt)) : Prop :=
  ∀ revision sources, admitSources project s.revision revision raws s = .ok sources →
    ∀ first rest, sources.patches = first :: rest →
      KeepsFitAll first (sources.patches.flatMap (·.ops)) s

/-- The condition on one append. -/
def KeepsConforming (project : Project rt) (s : GraphState rt) (raws : List (Patch rt)) : Prop :=
  OperationsFit project s raws ∧ ∀ raw ∈ raws, raw.SparesRemoved

section Definitions

/-- What the structural rule guarantees of an accepted ontology. -/
structure OntologyState.Sound (o : OntologyState) : Prop where
  types : ∀ t ∈ o.types, NodeType.ofName? t.name = none
  owners : ∀ f ∈ o.fields, f.ownerType ∈ NodeType.all.map NodeType.name ++ o.types.map (·.name)
  inherited : ∀ t ∈ o.types, inheritedCollisions o t = []
  relations : ∀ r ∈ o.relations, relationSpec? r.name = none

theorem sound_of_accepted (o : OntologyState) (revision : Option Nat) (replay : Bool)
    (h : refused (validateOntologyStructure o revision replay) = false) : o.Sound := by
  simp only [validateOntologyStructure, refused_append, Bool.or_eq_false_iff,
    not_refused_flatMap] at h
  obtain ⟨⟨⟨htypes, hfields⟩, hinherited⟩, hrelations⟩ := h
  refine ⟨fun t ht => ?_, fun f hf => ?_, fun t ht => ?_, fun r hr => ?_⟩
  · have := htypes t ht
    simp only [typeIssues, refused_append, Bool.or_eq_false_iff, refused_rejectIf] at this
    simpa using this.1
  · have := hfields f hf
    simp only [fieldDefinitionIssues, refused_append, Bool.or_eq_false_iff, refused_rejectIf,
      decide_eq_false_iff_not, not_not] at this
    exact this.1
  · simpa using hinherited t ht
  · have := hrelations r hr
    simp only [relationIssues, refused_append, Bool.or_eq_false_iff, refused_rejectIf] at this
    simpa using this.1.1

theorem field_unique (o : OntologyState) (f g : OntologyFieldDefinition) (hf : f ∈ o.fields)
    (hg : g ∈ o.fields) (howner : f.ownerType = g.ownerType) (hname : f.name = g.name) :
    f = g := by
  have hok := o.ok
  simp only [ontologyWellFormed, Bool.and_eq_true, decide_eq_true_eq] at hok
  refine List.inj_on_of_nodup_map hok.1.2 hf hg ?_
  rw [howner, hname]

theorem ofName?_name (t : NodeType) : NodeType.ofName? t.name = some t := by
  cases t <;> rfl

/-- A type that a node may have: a custom one specializes the node's base type. -/
structure Specializes (o : OntologyState) (type : NodeType) (extension : Option String) : Prop where
  custom : ∀ e, extension = some e → NodeType.ofName? e = none
  base : ∀ e d, extension = some e → ontologyType o e = some d → d.baseType = type

/-- A custom type and its base type share no field name. -/
theorem owners_disjoint (o : OntologyState) (ho : o.Sound) (type : NodeType) (e : String)
    (he : Specializes o type (some e)) (f g : OntologyFieldDefinition) (hf : f ∈ o.fields)
    (hg : g ∈ o.fields) (hfowner : f.ownerType = type.name) (hgowner : g.ownerType = e) :
    f.name ≠ g.name := by
  intro hname
  have hcustom := he.custom e rfl
  have hknown := ho.owners g hg
  rw [hgowner, List.mem_append, List.mem_map, List.mem_map] at hknown
  rcases hknown with ⟨t, -, rfl⟩ | ⟨t, ht, htname⟩
  · rw [ofName?_name] at hcustom
    cases hcustom
  · have hfound : (ontologyType o e).isSome = true :=
      List.find?_isSome.mpr ⟨t, ht, by simpa using htname⟩
    obtain ⟨d, hd⟩ := Option.isSome_iff_exists.mp hfound
    have hdname : d.name = e := by simpa using List.find?_some hd
    have hdmem : d ∈ o.types := List.mem_of_find?_eq_some hd
    have hcollide : f.name ∈ inheritedCollisions o d := by
      rw [inheritedCollisions, Text.mem_sortedSet, List.mem_filter]
      refine ⟨?_, ?_⟩
      · rw [hname]
        exact List.mem_map.mpr
          ⟨g, List.mem_filter.mpr ⟨hg, by simpa using hgowner.trans hdname.symm⟩, rfl⟩
      · rw [decide_eq_true_eq, he.base e d rfl hd]
        exact List.mem_map.mpr ⟨f, List.mem_filter.mpr ⟨hf, by simpa using hfowner⟩, rfl⟩
    rw [ho.inherited d hdmem] at hcollide
    cases hcollide

/-- The definition an extension field is judged by is the applicable one. -/
theorem definitionNamed_applicable (o : OntologyState) (ho : o.Sound) (type : NodeType)
    (extension : Option String) (hs : Specializes o type extension) (f : OntologyFieldDefinition)
    (hf : f ∈ o.fields)
    (happlies : (f.ownerType = type.name || extension = some f.ownerType) = true) :
    definitionNamed (applicableFieldDefinitions o type extension) f.name = some f := by
  have hmem : f ∈ applicableFieldDefinitions o type extension :=
    List.mem_filter.mpr ⟨hf, happlies⟩
  have hfound : (definitionNamed (applicableFieldDefinitions o type extension) f.name).isSome :=
    List.find?_isSome.mpr ⟨f, List.mem_reverse.mpr hmem, by simp⟩
  obtain ⟨g, hg⟩ := Option.isSome_iff_exists.mp hfound
  have hgname : g.name = f.name := by simpa using List.find?_some hg
  obtain ⟨hgfield, hgapplies⟩ :=
    List.mem_filter.mp (List.mem_reverse.mp (List.mem_of_find?_eq_some hg))
  rw [hg, Option.some.injEq]
  simp only [Bool.or_eq_true, decide_eq_true_eq] at happlies hgapplies
  rcases happlies with hfo | hfo <;> rcases hgapplies with hgo | hgo
  · exact field_unique o g f hgfield hf (hgo.trans hfo.symm) hgname
  · exact absurd hgname.symm (owners_disjoint o ho type _ (hgo ▸ hs) f g hf hgfield hfo rfl)
  · exact absurd hgname (owners_disjoint o ho type _ (hfo ▸ hs) g f hgfield hf hgo rfl)
  · rw [hfo, Option.some.injEq] at hgo
    exact field_unique o g f hgfield hf hgo.symm hgname

end Definitions

section Nodes

/-- What the ontology rules read of a node. -/
def ProjectNode.facet (n : ProjectNode rt) : NodeType × Option String × Option Json :=
  (n.type, n.extensionType, n.field? "extension_fields")

/-- A node that fits an ontology and has no base type as its custom type. -/
structure NodeFits (o : OntologyState) (n : ProjectNode rt) : Prop where
  conforms : NodeConforms o n
  custom : ∀ e, n.extensionType = some e → NodeType.ofName? e = none

theorem NodeFits.specializes {o : OntologyState} {n : ProjectNode rt} (h : NodeFits o n) :
    Specializes o n.type n.extensionType := ⟨h.custom, h.conforms.base⟩

theorem NodeFits.congr {o : OntologyState} {n m : ProjectNode rt} (h : NodeFits o n)
    (hfacet : m.facet = n.facet) : NodeFits o m := by
  simp only [ProjectNode.facet, Prod.mk.injEq] at hfacet
  obtain ⟨htype, hext, hfields⟩ := hfacet
  have happlies : fieldApplies m = fieldApplies n := by
    funext f
    rw [fieldApplies, fieldApplies, htype, hext]
  have hvalue : extensionValue m = extensionValue n := by
    funext name
    rw [extensionValue, extensionValue, hfields]
  obtain ⟨⟨hkinds, hrequired, hbase⟩, hcustom⟩ := h
  refine ⟨⟨?_, ?_, ?_⟩, ?_⟩
  · rw [happlies, hvalue]
    exact hkinds
  · rw [happlies, hvalue]
    exact hrequired
  · rw [htype, hext]
    exact hbase
  · rw [hext]
    exact hcustom

theorem noExtension_ok : (Kind.dict .scalar).check strict (.obj []) = .ok (.obj []) ∧
    (Kind.dict .scalar).complete (.obj []) = .obj [] := ⟨rfl, rfl⟩

/-- The declaration of the extension fields. -/
def extensionDeclaration : Field :=
  .withDefault "extension_fields" (.dict .scalar) (.obj []) noExtension_ok

theorem extensionDeclaration_mem (type : NodeType) :
    extensionDeclaration ∈ contentFields rt type := by
  cases type <;> simp [contentFields, Fields.base, extensionDeclaration]

theorem verbatim_extension : extensionDeclaration.kind.Verbatim :=
  Kind.verbatim_dict _ Kind.verbatim_scalar

/-- A node's extension fields are a mapping. -/
theorem extension_obj (n : ProjectNode rt) :
    ∃ fs, n.field? "extension_fields" = some (.obj fs) := by
  obtain ⟨j, hj, hcheck, -⟩ := n.conforms.field (nodup_contentFields rt n.type) _
    (extensionDeclaration_mem n.type)
  obtain ⟨fs, rfl⟩ := Kind.obj_of_dict .scalar strict j j (hcheck strict)
  exact ⟨fs, hj⟩

theorem extensionValue_of_fields (n : ProjectNode rt) (fs : Doc)
    (h : n.field? "extension_fields" = some (.obj fs)) (name : String) :
    extensionValue n name = Assoc.find name fs := by
  rw [extensionValue, h]
  rfl

/-- A created node holds the extension fields of its payload. -/
theorem extension_create (raw : RawNode rt) (revision : Nat) :
    (raw.create revision).field? "extension_fields" =
      some (.obj (((raw.field? "extension_fields").bind Json.obj?).getD [])) := by
  have hread : settle strict (contentFields rt raw.type) raw.content =
      .ok (completeFields (contentFields rt raw.type) raw.content) := by
    rw [settle, raw.content_ok]
    rfl
  have hfind := find_settle_verbatim strict _ _ _ (nodup_contentFields rt raw.type) hread _
    (extensionDeclaration_mem raw.type) verbatim_extension
  have hfield : (raw.create revision).field? "extension_fields" =
      (raw.field? "extension_fields").or (some (.obj [])) := hfind
  obtain ⟨fs, hfs⟩ := extension_obj (raw.create revision)
  rw [hfield] at hfs ⊢
  cases hraw : raw.field? "extension_fields" with
  | none => rfl
  | some j =>
      rw [hraw, Option.some_or, Option.some.injEq] at hfs
      rw [hfs]
      rfl

theorem find_of_missing (definitions : List OntologyFieldDefinition) (fields : Doc)
    (h : missingRequired definitions fields = []) (f : OntologyFieldDefinition)
    (hf : f ∈ definitions) (hrequired : f.required = true) :
    (Assoc.find f.name fields).isSome = true := by
  rw [missingRequired, Text.sortedSet_eq_nil, List.map_eq_nil_iff, List.filter_eq_nil_iff] at h
  simpa [hrequired, Option.isSome_iff_ne_none] using h f hf

/-- A created node fits the ontology it is created under. -/
theorem fits_create (ctx : OpContext rt) (ho : ctx.state.ontology.Sound)
    (nodes : List (RawNode rt)) (h : refused (patchRules ctx (.createNodes nodes)) = false)
    (raw : RawNode rt) (hraw : raw ∈ nodes) (revision : Nat) :
    NodeFits ctx.state.ontology (raw.create revision) := by
  simp only [patchRules, effectRules, rulesOf, structuralIssues, refused_append,
    Bool.or_eq_false_iff, createNodesIssues, not_refused_flatMap, newNodeIssues,
    newNodeExtensionIssues] at h
  obtain ⟨htype, hfields⟩ := (h.1 raw hraw).1.2.2
  have hs : Specializes ctx.state.ontology raw.type raw.declaredExtension := by
    cases hext : raw.declaredExtension with
    | none =>
        constructor
        · intro e he
          cases he
        · intro e d he
          cases he
    | some e =>
        simp only [hext] at htype
        cases hdef : ontologyType ctx.state.ontology e with
        | none => simp [hdef] at htype
        | some d =>
            simp only [hdef, Bool.false_eq_true, if_false, refused_rejectIf,
              decide_eq_false_iff_not, not_not] at htype
            have hdname : d.name = e := by simpa using List.find?_some hdef
            refine ⟨fun e' he' => ?_, fun e' d' he' hd' => ?_⟩
            · cases he'
              rw [← hdname]
              exact ho.types d (List.mem_of_find?_eq_some hdef)
            · cases he'
              rw [hdef] at hd'
              cases hd'
              exact htype
  have hvalue := extensionValue_of_fields (raw.create revision) _ (extension_create raw revision)
  simp only [extensionFieldsIssues, refused_append, Bool.or_eq_false_iff, refused_rejectIf,
    not_refused_flatMap, Bool.not_false, Bool.true_and, decide_eq_false_iff_not, not_not]
    at hfields
  obtain ⟨⟨-, hkinds⟩, hmissing⟩ := hfields
  refine ⟨⟨fun f hf happlies v hv => ?_, fun f hf happlies hrequired => ?_, hs.base⟩, hs.custom⟩
  · rw [hvalue] at hv
    have hnamed := definitionNamed_applicable _ ho _ _ hs f hf happlies
    have := hkinds (f.name, v) (Assoc.mem_of_find _ _ _ hv)
    simp only [hnamed, oneFieldIssues, refused_append, Bool.or_eq_false_iff, refused_rejectIf,
      Bool.true_and, Bool.not_eq_false'] at this
    exact this.1.1
  · rw [hvalue]
    exact find_of_missing _ _ hmissing f (List.mem_filter.mpr ⟨hf, happlies⟩) hrequired

theorem texts_of_pyEqList (xs ys : List Json) (h : Json.pyEqList xs ys = true)
    (hxs : (xs.all fun x => x.str?.isSome) = true) : (ys.all fun y => y.str?.isSome) = true := by
  induction xs generalizing ys with
  | nil =>
      cases ys with
      | nil => rfl
      | cons y ys => cases h
  | cons x xs ih =>
      cases ys with
      | nil => cases h
      | cons y ys =>
          rw [Json.pyEqList, Bool.and_eq_true] at h
          rw [List.all_cons, Bool.and_eq_true] at hxs ⊢
          refine ⟨?_, ih ys h.2 hxs.2⟩
          cases x with
          | str a =>
              cases y with
              | str b => rfl
              | null | bool _ | num _ | arr _ | obj _ => cases h.1
          | null | bool _ | num _ | arr _ | obj _ => cases hxs.1

/-- A value equal to one of the kind is of the kind, unless it is a number for a boolean. -/
theorem matches_of_pyEq (f : OntologyFieldDefinition) (old new : Json) (heq : old.pyEq new = true)
    (hswap : swapsBoolean old new = false) (h : fieldValueMatches f old = true) :
    fieldValueMatches f new = true := by
  unfold fieldValueMatches at h ⊢
  cases hkind : f.kind with
  | text =>
      cases old <;> simp only [hkind, Bool.false_eq_true] at h
      cases new <;> first | rfl | cases heq
  | number =>
      cases old <;> simp only [hkind, Bool.false_eq_true] at h
      cases new <;> first | rfl | cases heq | cases hswap
  | boolean =>
      cases old <;> simp only [hkind, Bool.false_eq_true] at h
      cases new <;> first | rfl | cases heq | cases hswap
  | textList =>
      cases old with
      | arr xs =>
          cases new with
          | arr ys => exact texts_of_pyEqList xs ys heq (by simpa [hkind] using h)
          | null | bool _ | num _ | str _ | obj _ => cases heq
      | null | bool _ | num _ | str _ | obj _ => simp [hkind] at h

/-- A node fits with the extension fields of an accepted update. -/
theorem fits_update (s : GraphState rt) (ho : s.ontology.Sound) (n m : ProjectNode rt)
    (hn : NodeFits s.ontology n) (u : NodeUpdate) (fields : Doc)
    (hfields : u.extensionFields? = some fields) (revision : Option Nat) (agent : Bool)
    (hissues : refused (updatedExtensionIssues s n u.changes revision false agent) = false)
    (hkeeps : ∀ f ∈ s.ontology.fields, fieldApplies n f = true → ∀ old new,
      extensionValue n f.name = some old → Assoc.find f.name fields = some new →
      old.pyEq new = true → swapsBoolean old new = false)
    (hm : m.facet = (n.type, n.extensionType, some (.obj fields))) : NodeFits s.ontology m := by
  simp only [ProjectNode.facet, Prod.mk.injEq] at hm
  obtain ⟨htype, hext, hcontent⟩ := hm
  obtain ⟨old, hold⟩ := extension_obj n
  have hvalue := extensionValue_of_fields m fields hcontent
  have hnvalue := extensionValue_of_fields n old hold
  have happlies : fieldApplies m = fieldApplies n := by
    funext f
    rw [fieldApplies, fieldApplies, htype, hext]
  unfold NodeUpdate.extensionFields? at hfields
  simp only [updatedExtensionIssues, hfields, hold, Option.bind_some, Json.obj?, Option.getD_some,
    refused_append, Bool.or_eq_false_iff, not_refused_flatMap, refused_rejectIf,
    Bool.false_eq_true, if_false, decide_eq_false_iff_not, not_not] at hissues
  obtain ⟨htouched, hmissing⟩ := hissues
  refine ⟨⟨?_, ?_, ?_⟩, ?_⟩
  · intro f hf hfm v hv
    rw [happlies] at hfm
    rw [hvalue] at hv
    by_cases hsame : ∃ a, Assoc.find f.name old = some a ∧ a.pyEq v = true
    · obtain ⟨a, ha, heq⟩ := hsame
      rw [← hnvalue] at ha
      exact matches_of_pyEq f a v heq (hkeeps f hf hfm a v ha hv heq)
        (hn.conforms.kinds f hf hfm a ha)
    · have hmem : f.name ∈ fields.map Prod.fst :=
        List.mem_map.mpr ⟨(f.name, v), Assoc.mem_of_find _ _ _ hv, rfl⟩
      have hone := htouched f.name (by
        rw [Text.mem_sortedSet, List.mem_filter]
        refine ⟨List.mem_append_right _ hmem, ?_⟩
        cases ha : Assoc.find f.name old with
        | none => rfl
        | some a =>
            simp only [hv]
            cases heq : a.pyEq v with
            | false => rfl
            | true => exact absurd ⟨a, ha, heq⟩ hsame)
      simp only [definitionNamed_applicable _ ho _ _ hn.specializes f hf hfm, hv, oneFieldIssues,
        refused_append, Bool.or_eq_false_iff, refused_rejectIf, Bool.not_false, Bool.true_and,
        Bool.not_eq_false'] at hone
      exact hone.1.1
  · intro f hf hfm hrequired
    rw [happlies] at hfm
    rw [hvalue]
    exact find_of_missing _ _ hmissing f (List.mem_filter.mpr ⟨hf, hfm⟩) hrequired
  · rw [htype, hext]
    exact hn.conforms.base
  · rw [hext]
    exact hn.custom

/-- What an update leaves of a node's facet. -/
theorem facet_revise (n m : ProjectNode rt) (co : Coercions) (u : NodeUpdate) (revision : Nat)
    (standing : Standing) (h : n.revise co u.changes revision standing = .ok m) :
    m.facet = n.facet ∨ ∃ fields, u.extensionFields? = some fields ∧
      m.facet = (n.type, n.extensionType, some (.obj fields)) := by
  obtain ⟨hdoc, -, htype, hext, -⟩ := ProjectNode.revise_ok _ _ _ _ _ _ h
  have hfind : m.field? "extension_fields" =
      (u.changes.get? "extension_fields").or (n.field? "extension_fields") :=
    n.find_reviseContent co u.changes m.content hdoc extensionDeclaration
      (extensionDeclaration_mem n.type) verbatim_extension (by decide) (by decide)
  cases hchanges : u.changes.get? "extension_fields" with
  | none =>
      left
      rw [hchanges, Option.none_or] at hfind
      rw [ProjectNode.facet, ProjectNode.facet, htype, hext, hfind]
  | some j =>
      right
      obtain ⟨fields, hfields⟩ := extension_obj m
      rw [hchanges, Option.some_or, hfields, Option.some.injEq] at hfind
      refine ⟨fields, ?_, ?_⟩
      · rw [NodeUpdate.extensionFields?, hchanges, ← hfind]
        rfl
      · rw [ProjectNode.facet, htype, hext, hfields]

/-- Of several updates to a node, the last one that writes extension fields leaves them. -/
theorem facet_updateNodes (p : Patch rt) (generated : Bool) (updates : List NodeUpdate)
    (s t : GraphState rt) (hs : s.Keyed) (h : Steps.run (updateNode p generated) updates s = .ok t)
    (x : String) (n : ProjectNode rt) (hn : s.nodes.get? x = some n) :
    ∃ m, t.nodes.get? x = some m ∧ (m.facet = n.facet ∨ ∃ u ∈ updates, u.id = x ∧
      ∃ fields, u.extensionFields? = some fields ∧
        m.facet = (n.type, n.extensionType, some (.obj fields))) := by
  have key := Steps.run_invariant (updateNode p generated)
    (fun v : GraphState rt => v.Keyed ∧ ∃ m, v.nodes.get? x = some m ∧
      (m.facet = n.facet ∨ ∃ u ∈ updates, u.id = x ∧ ∃ fields, u.extensionFields? = some fields ∧
        m.facet = (n.type, n.extensionType, some (.obj fields)))) updates
    (fun u hu v w hv hw => by
      obtain ⟨hkeyed, m, hm, hfacet⟩ := hv
      have hrewrites := (updateNode_rewrites p generated u v w hkeyed hw).1
      refine ⟨hrewrites.keyed hkeyed, ?_⟩
      by_cases hid : u.id = x
      · obtain ⟨k, m', hk, -, hm', rfl⟩ := updateNode_ok p generated u v w hw
        rw [hid, hm] at hk
        cases hk
        refine ⟨m', by simp [hkeyed x m hm], ?_⟩
        have htypes : m.type = n.type ∧ m.extensionType = n.extensionType := by
          rcases hfacet with hfacet | ⟨_, _, _, _, _, hfacet⟩
          all_goals
            simp only [ProjectNode.facet, Prod.mk.injEq] at hfacet
            exact ⟨hfacet.1, hfacet.2.1⟩
        rcases facet_revise m m' _ u _ _ hm' with hsame | ⟨fields, hfields, hnew⟩
        · rw [hsame]
          exact hfacet
        · rw [htypes.1, htypes.2] at hnew
          exact .inr ⟨u, hu, hid, fields, hfields, hnew⟩
      · exact ⟨m, (hrewrites.other (Ne.symm hid)).trans hm, hfacet⟩)
    s t ⟨hs, n, hn, .inl rfl⟩ h
  exact key.2

/-- Every node fits the ontology in force. -/
structure GraphState.NodesFit (s : GraphState rt) : Prop where
  keyed : s.Keyed
  sound : s.ontology.Sound
  fits : ∀ id n, s.nodes.get? id = some n → NodeFits s.ontology n

theorem GraphState.NodesFit.congr {s t : GraphState rt} (h : s.NodesFit) (ht : t.Keyed)
    (hontology : t.ontology = s.ontology)
    (hfacets : ∀ x, (t.nodes.get? x).map ProjectNode.facet =
      (s.nodes.get? x).map ProjectNode.facet) : t.NodesFit := by
  refine ⟨ht, hontology ▸ h.sound, fun id m hm => ?_⟩
  have hfacet := hfacets id
  rw [hm, Option.map_some] at hfacet
  obtain ⟨n, hn, hsame⟩ := Option.map_eq_some_iff.mp hfacet.symm
  rw [hontology]
  exact (h.fits id n hn).congr hsame.symm

theorem facet_look (n m : ProjectNode rt) (htype : m.type = n.type)
    (hext : m.extensionType = n.extensionType)
    (hfields : ∀ f, f ≠ "status" → f ≠ "validity" → m.field? f = n.field? f) :
    m.facet = n.facet := by
  rw [ProjectNode.facet, ProjectNode.facet, htype, hext, hfields _ (by decide) (by decide)]

/-- A node fits the ontology that replaces the one it fits. -/
theorem fits_setOntology (s : GraphState rt) (o : OntologyState) (revision : Option Nat)
    (htypes : ∀ d ∈ s.ontology.types, refused (typeChangeIssues s o revision d) = false)
    (hfields : ∀ f ∈ o.fields, refused (fieldChangeIssues s revision f) = false)
    (hback : BringsBackFitting s o) (id : String) (n : ProjectNode rt)
    (hn : s.nodes.get? id = some n) (hfits : NodeFits s.ontology n) : NodeFits o n := by
  have hvalue : n ∈ s.nodes.values := (Dict.mem_values _ _).mpr ⟨id, hn⟩
  have hprevious : ∀ f g, (s.ontology.fields.find? fun g =>
      g.ownerType = f.ownerType && g.name = f.name) = some g → fieldApplies n f = true →
      g ∈ s.ontology.fields ∧ g.name = f.name ∧ fieldApplies n g = true := by
    intro f g hg happlies
    have hsame : g.ownerType = f.ownerType ∧ g.name = f.name := by simpa using List.find?_some hg
    refine ⟨List.mem_of_find?_eq_some hg, hsame.2, ?_⟩
    rw [fieldApplies, hsame.1]
    exact happlies
  refine ⟨⟨?_, ?_, ?_⟩, hfits.custom⟩
  · intro f hf happlies v hv
    have hissue := hfields f hf
    simp only [fieldChangeIssues, refused_append, Bool.or_eq_false_iff, refused_rejectIf]
      at hissue
    cases hg : s.ontology.fields.find? fun g =>
        g.ownerType = f.ownerType && g.name = f.name with
    | none => exact hback.fields f hf hg id n hn happlies v hv
    | some g =>
        obtain ⟨hgmem, hgname, hgapplies⟩ := hprevious f g hg happlies
        by_cases hkind : g.kind = f.kind
        · have := hfits.conforms.kinds g hgmem hgapplies v (hgname ▸ hv)
          unfold fieldValueMatches at this ⊢
          rw [← hkind]
          exact this
        · have hnone := hissue.2
          simp only [hg, Option.any_some, ne_eq, hkind, not_false_eq_true, decide_true,
            Bool.true_and, decide_eq_false_iff_not, not_not, Text.sortedSet_eq_nil,
            List.map_eq_nil_iff, List.filter_eq_nil_iff, List.mem_filter] at hnone
          simpa [hv] using hnone n ⟨hvalue, happlies⟩
  · intro f hf happlies hrequired
    have hissue := hfields f hf
    simp only [fieldChangeIssues, refused_append, Bool.or_eq_false_iff, refused_rejectIf]
      at hissue
    by_cases hwas : ∃ g, (s.ontology.fields.find? fun g =>
        g.ownerType = f.ownerType && g.name = f.name) = some g ∧ g.required = true
    · obtain ⟨g, hg, hgrequired⟩ := hwas
      obtain ⟨hgmem, hgname, hgapplies⟩ := hprevious f g hg happlies
      rw [← hgname]
      exact hfits.conforms.required g hgmem hgapplies hgrequired
    · have hall : ((s.ontology.fields.find? fun g =>
          g.ownerType = f.ownerType && g.name = f.name).all fun g => !g.required) = true := by
        cases hg : s.ontology.fields.find? fun g =>
            g.ownerType = f.ownerType && g.name = f.name with
        | none => rfl
        | some g =>
            cases hgrequired : g.required with
            | false => simp [hgrequired]
            | true => exact absurd ⟨g, hg, hgrequired⟩ hwas
      have hnone := hissue.1
      rw [hall, hrequired] at hnone
      simp only [Bool.and_self, Bool.true_and, ne_eq, decide_eq_false_iff_not, not_not,
        Text.sortedSet_eq_nil, List.map_eq_nil_iff, List.filter_eq_nil_iff, List.mem_filter]
        at hnone
      simpa [Option.isSome_iff_ne_none] using hnone n ⟨hvalue, happlies⟩
  · intro e d he hd
    cases hold : ontologyType s.ontology e with
    | none => exact hback.types id n hn e d he hold hd
    | some d' =>
        have hname : d'.name = e := by simpa using List.find?_some hold
        have hissue := htypes d' (List.mem_of_find?_eq_some hold)
        unfold ontologyType at hd
        simp only [typeChangeIssues, hname, hd, refused_rejectIf, Bool.or_eq_false_iff,
          decide_eq_false_iff_not, not_not] at hissue
        rw [hissue.1]
        exact hfits.conforms.base e d' he hold

/-- What the rule of `set_ontology` compares. -/
structure ChangeAccepted (s : GraphState rt) (o : OntologyState) (revision : Option Nat) : Prop where
  sound : o.Sound
  types : ∀ d ∈ s.ontology.types, refused (typeChangeIssues s o revision d) = false
  fields : ∀ f ∈ o.fields, refused (fieldChangeIssues s revision f) = false
  relations : ∀ r ∈ s.ontology.relations, refused (relationChangeIssues s o revision r) = false

theorem setOntology_accepted (ctx : OpContext rt) (hmode : ctx.mode = .admission)
    (o : OntologyState) (h : refused (patchRules ctx (.setOntology o)) = false) :
    ChangeAccepted ctx.state o ctx.revision := by
  have hadmission : ctx.admission = true := by simp [OpContext.admission, hmode]
  simp only [patchRules, effectRules, rulesOf, structuralIssues, setOntologyIssues,
    refused_append, Bool.or_eq_false_iff, hadmission, if_true, validateOntologyChange,
    not_refused_flatMap] at h
  obtain ⟨⟨hstructure, ⟨⟨-, htypes⟩, hfields⟩, hrelations⟩, -⟩ := h
  exact ⟨sound_of_accepted o _ _ hstructure, htypes, hfields, hrelations⟩

theorem nodesFit_applyOp (ctx : OpContext rt) (hmode : ctx.mode = .admission) (p : Patch rt)
    (op : GraphOperation rt) (s t : GraphState rt) (ha : Alike ctx.state s)
    (hr : refused (patchRules ctx op) = false) (hkeeps : op.KeepsFit s)
    (happ : applyOp p false op s = .ok t) (h : s.NodesFit) : t.NodesFit := by
  have hkeyed := keyed_applyOp p false op s t h.keyed happ
  cases op with
  | createNodes nodes =>
      have hontology := ontology_applyOp p false _ (fun _ h => by cases h) s t happ
      refine ⟨hkeyed, hontology ▸ h.sound, fun id n hn => ?_⟩
      rw [hontology]
      cases happ
      rw [get?_createNodes] at hn
      cases hraw : nodes.reverse.find? fun raw => raw.id = id with
      | none =>
          simp only [hraw] at hn
          exact h.fits id n hn
      | some raw =>
          simp only [hraw, Option.some.injEq] at hn
          rw [← hn, ← ha.ontology]
          exact fits_create ctx (ha.ontology ▸ h.sound) nodes hr raw
            (List.mem_reverse.mp (List.mem_of_find?_eq_some hraw)) _
  | updateNodes updates =>
      have hontology := ontology_applyOp p false _ (fun _ h => by cases h) s t happ
      refine ⟨hkeyed, hontology ▸ h.sound, fun id m hm => ?_⟩
      have hmem : id ∈ s.nodes := by
        have hnodes := mem_nodes_applyOp p false _ s t h.keyed happ id
        exact hnodes.mp (Dict.mem_of_get? hm)
      obtain ⟨n, hn⟩ := (Dict.mem_iff_exists _ _).mp hmem
      obtain ⟨m', hm', hfacet⟩ := facet_updateNodes p false updates s t h.keyed happ id n hn
      rw [hm] at hm'
      cases hm'
      rw [hontology]
      rcases hfacet with hfacet | ⟨u, hu, rfl, fields, hfields, hfacet⟩
      · exact (h.fits id n hn).congr hfacet
      · have hcontent := updateContent_of_accepted ctx u n (ha.nodes ▸ hn)
          (updates_accepted ctx updates hr u hu)
        simp only [updateContentIssues, refused_append, Bool.or_eq_false_iff] at hcontent
        have hissues := hcontent.1.1.1.2
        rw [← ha.ontology]
        refine fits_update ctx.state (ha.ontology ▸ h.sound) n m (ha.ontology ▸ h.fits _ n hn) u
          fields hfields _ _ hissues ?_ hfacet
        rw [ha.ontology]
        exact hkeeps u hu n hn fields hfields
  | removeNodes ids =>
      cases happ
      refine ⟨hkeyed, h.sound, fun id n hn => h.fits id n ?_⟩
      simp only [removeNodes, Dict.get?_filter, Option.filter_eq_some_iff] at hn
      exact hn.1
  | setOntology o =>
      obtain ⟨hsound, htypes, hfields, -⟩ := setOntology_accepted ctx hmode o hr
      simp only [typeChangeIssues, fieldChangeIssues, ha.nodes, ha.ontology] at htypes hfields
      cases happ
      exact ⟨hkeyed, hsound, fun id n hn =>
        fits_setOntology s o ctx.revision htypes hfields hkeeps id n hn (h.fits id n hn)⟩
  | _ =>
      exact h.congr hkeyed (ontology_applyOp p false _ (fun _ h => by cases h) s t happ)
        (look_applyOp ProjectNode.facet facet_look p false _ rfl s t h.keyed happ)

end Nodes

section Edges

/-- A node that is there has one of the types, unless the rest of the patch creates it
anew; a node that is not there yet gets one of them from the patch. -/
structure EndpointFits (source : Patch rt) (rest : List (GraphOperation rt)) (s : GraphState rt)
    (x : String) (types : List String) : Prop where
  present : ∀ n, s.nodes.get? x = some n → x ∈ createdBy rest ∨
    semanticType n.type n.extensionType ∈ types
  absent : s.nodes.get? x = none → ∃ raw,
    (source.createdNodes.reverse.find? fun raw => raw.id = x) = some raw ∧
      semanticType raw.type raw.declaredExtension ∈ types

/-- The edges of custom relations at a point of a source patch. -/
def EdgesFit (source : Patch rt) (rest : List (GraphOperation rt)) (s : GraphState rt) : Prop :=
  ∀ id e r, s.edges.get? id = some e → customRelation s.ontology e.relation = some r →
    EndpointFits source rest s e.source r.sourceTypes ∧
      EndpointFits source rest s e.target r.targetTypes

theorem endpointFits_of_type (source : Patch rt) (rest : List (GraphOperation rt))
    (s : GraphState rt) (x : String) (types : List String) (type : String)
    (h : endpointType s source.createdNodes x = some type) (ht : type ∈ types) :
    EndpointFits source rest s x types := by
  unfold endpointType at h
  constructor
  · intro n hn
    simp only [hn, Option.some.injEq] at h
    exact .inr (h ▸ ht)
  · intro hn
    simp only [hn] at h
    obtain ⟨raw, hraw, hsemantic⟩ := Option.map_eq_some_iff.mp h
    exact ⟨raw, hraw, hsemantic ▸ ht⟩

theorem edgeMatchesRelation_iff (s : GraphState rt) (source target : String)
    (r : OntologyRelationDefinition) (created : List (RawNode rt)) :
    edgeMatchesRelation s source target r created = true ↔
      (∃ a, endpointType s created source = some a ∧ a ∈ r.sourceTypes) ∧
        ∃ b, endpointType s created target = some b ∧ b ∈ r.targetTypes := by
  unfold edgeMatchesRelation
  cases endpointType s created source <;> cases endpointType s created target <;> simp

/-- A node that is there decides its type alone. -/
theorem endpointType_created (s : GraphState rt) (x type : String) (created : List (RawNode rt))
    (h : endpointType s [] x = some type) : endpointType s created x = some type := by
  unfold endpointType at h ⊢
  cases hn : s.nodes.get? x with
  | none => simp [hn] at h
  | some n => simpa [hn] using h

theorem edgeFits_of_matches (source : Patch rt) (rest : List (GraphOperation rt))
    (s : GraphState rt) (a b : String) (r : OntologyRelationDefinition)
    (h : edgeMatchesRelation s a b r source.createdNodes = true) :
    EndpointFits source rest s a r.sourceTypes ∧ EndpointFits source rest s b r.targetTypes := by
  obtain ⟨⟨x, hx, hxt⟩, y, hy, hyt⟩ := (edgeMatchesRelation_iff s a b r _).mp h
  exact ⟨endpointFits_of_type source rest s a _ x hx hxt,
    endpointFits_of_type source rest s b _ y hy hyt⟩

theorem matches_created (s : GraphState rt) (a b : String) (r : OntologyRelationDefinition)
    (created : List (RawNode rt)) (h : edgeMatchesRelation s a b r = true) :
    edgeMatchesRelation s a b r created = true := by
  obtain ⟨⟨x, hx, hxt⟩, y, hy, hyt⟩ := (edgeMatchesRelation_iff s a b r []).mp h
  exact (edgeMatchesRelation_iff s a b r created).mpr
    ⟨⟨x, endpointType_created s a x created hx, hxt⟩, y, endpointType_created s b y created hy, hyt⟩

theorem semantic_look (n m : ProjectNode rt) (htype : m.type = n.type)
    (hext : m.extensionType = n.extensionType) :
    semanticType m.type m.extensionType = semanticType n.type n.extensionType := by
  rw [htype, hext]

/-- An endpoint fits when its node keeps its type. -/
theorem EndpointFits.congr {source : Patch rt} {rest rest' : List (GraphOperation rt)}
    {s t : GraphState rt} {x : String} {types : List String}
    (h : EndpointFits source rest s x types)
    (hrest : ∀ y, y ∈ createdBy rest → y ∈ createdBy rest')
    (hsame : (t.nodes.get? x).map (fun n => semanticType n.type n.extensionType) =
      (s.nodes.get? x).map fun n => semanticType n.type n.extensionType) :
    EndpointFits source rest' t x types := by
  constructor
  · intro m hm
    rw [hm, Option.map_some] at hsame
    obtain ⟨n, hn, hnm⟩ := Option.map_eq_some_iff.mp hsame.symm
    rcases h.present n hn with hlater | htype
    · exact .inl (hrest x hlater)
    · exact .inr (hnm ▸ htype)
  · intro hm
    rw [hm, Option.map_none, eq_comm, Option.map_eq_none_iff] at hsame
    exact h.absent hsame

theorem createdNodes_split (source : Patch rt) (front rest : List (GraphOperation rt))
    (nodes : List (RawNode rt)) (hops : source.ops = front ++ .createNodes nodes :: rest) :
    ∃ before after, source.createdNodes = before ++ (nodes ++ after) ∧
      after.map (·.id) = createdBy rest := by
  refine ⟨_, _, by rw [Patch.createdNodes, hops, List.flatMap_append, List.flatMap_cons], ?_⟩
  rw [createdBy, List.map_flatMap]
  congr 1
  funext op
  cases op <;> rfl

/-- A node that the operation at hand creates, and no later one, has its last payload's type. -/
theorem EndpointFits.created {source p : Patch rt} {front rest : List (GraphOperation rt)}
    {nodes : List (RawNode rt)} {s t : GraphState rt} {x : String} {types : List String}
    (hops : source.ops = front ++ .createNodes nodes :: rest)
    (hnew : ∀ raw ∈ nodes, raw.id ∉ s.nodes)
    (happ : applyOp p false (.createNodes nodes) s = .ok t)
    (h : EndpointFits source (.createNodes nodes :: rest) s x types) :
    EndpointFits source rest t x types := by
  cases happ
  have hsplit : createdBy (.createNodes nodes :: rest) = nodes.map (·.id) ++ createdBy rest :=
    List.flatMap_cons
  constructor
  · intro m hm
    by_cases hlater : x ∈ createdBy rest
    · exact .inl hlater
    right
    rw [get?_createNodes] at hm
    cases hraw : nodes.reverse.find? fun raw => raw.id = x with
    | none =>
        simp only [hraw] at hm
        rcases h.present m hm with hx | htype
        · rw [hsplit, List.mem_append] at hx
          rcases hx with hx | hx
          · obtain ⟨raw, hmem, rfl⟩ := List.mem_map.mp hx
            exact absurd (Dict.mem_of_get? hm) (hnew raw hmem)
          · exact absurd hx hlater
        · exact htype
    | some raw =>
        simp only [hraw, Option.some.injEq] at hm
        have hid : raw.id = x := by simpa using List.find?_some hraw
        have hmem := List.mem_reverse.mp (List.mem_of_find?_eq_some hraw)
        have hnone : s.nodes.get? x = none := (Dict.not_mem_iff _ _).mp (hid ▸ hnew raw hmem)
        obtain ⟨last, hlast, htype⟩ := h.absent hnone
        -- No later payload has the id, so the last one is the last of this operation.
        have hsame : last = raw := by
          obtain ⟨before, after, hcreated, hafter⟩ := createdNodes_split source front rest nodes hops
          have hnone : (after.reverse.find? fun raw => raw.id = x) = none := by
            rw [List.find?_eq_none]
            intro raw' hraw' hid'
            apply hlater
            rw [← hafter]
            exact List.mem_map.mpr ⟨raw', List.mem_reverse.mp hraw', by simpa using hid'⟩
          rw [hcreated, List.reverse_append, List.reverse_append, List.append_assoc,
            List.find?_append, hnone, Option.none_or, List.find?_append, hraw, Option.some_or,
            Option.some.injEq] at hlast
          exact hlast.symm
        rw [← hm]
        exact hsame ▸ htype
  · intro hm
    apply h.absent
    rw [get?_createNodes] at hm
    cases hraw : nodes.reverse.find? fun raw => raw.id = x with
    | none => simpa [hraw] using hm
    | some raw => simp [hraw] at hm

theorem createEdges_matches (ctx : OpContext rt) (seen : List String) (edges : List NewEdge)
    (h : refused (createEdgesIssues ctx seen edges) = false) (raw : NewEdge) (hraw : raw ∈ edges)
    (r : OntologyRelationDefinition) (hr : customRelation ctx.state.ontology raw.relation = some r)
    (hspec : relationSpec? raw.relation = none) :
    edgeMatchesRelation ctx.state raw.source raw.target r ctx.patch.createdNodes = true := by
  obtain ⟨seen', es, hhead⟩ := createEdgesIssues_mem ctx seen edges h raw hraw
  simp only [createEdgesIssues, refused_append, Bool.or_eq_false_iff, hspec, hr,
    refused_rejectIf, Bool.not_eq_false'] at hhead
  exact hhead.2.1

theorem semantic_updateNodes (p : Patch rt) (updates : List NodeUpdate) (s t : GraphState rt)
    (hs : s.Keyed) (h : applyOp p false (.updateNodes updates) s = .ok t) (x : String) :
    (t.nodes.get? x).map (fun n => semanticType n.type n.extensionType) =
      (s.nodes.get? x).map fun n => semanticType n.type n.extensionType := by
  cases hn : s.nodes.get? x with
  | none =>
      have hnodes := mem_nodes_applyOp p false _ s t hs h x
      have hnone : t.nodes.get? x = none := by
        rw [← Dict.not_mem_iff] at hn ⊢
        exact fun hmem => hn (hnodes.mp hmem)
      rw [hnone]
  | some n =>
      obtain ⟨m, hm, hfacet⟩ := facet_updateNodes p false updates s t hs h x n hn
      rw [hm, Option.map_some, Option.map_some]
      rcases hfacet with hfacet | ⟨_, _, _, _, _, hfacet⟩
      all_goals
        simp only [ProjectNode.facet, Prod.mk.injEq] at hfacet
        rw [semantic_look n m hfacet.1 hfacet.2.1]

/-- A custom relation never has the name of a base one. -/
theorem relationSpec?_of_custom (o : OntologyState) (ho : o.Sound) (name : String)
    (r : OntologyRelationDefinition) (h : customRelation o name = some r) :
    relationSpec? name = none := by
  have hname : r.name = name := by simpa using List.find?_some h
  rw [← hname]
  exact ho.relations r (List.mem_of_find?_eq_some h)

theorem edgesFit_applyOp (ctx : OpContext rt) (hmode : ctx.mode = .admission)
    (source p : Patch rt) (hpatch : ctx.patch = source) (front rest : List (GraphOperation rt))
    (op : GraphOperation rt) (hops : source.ops = front ++ op :: rest) (s t : GraphState rt)
    (ha : Alike ctx.state s) (hr : refused (patchRules ctx op) = false) (hkeeps : op.KeepsFit s)
    (happ : applyOp p false op s = .ok t) (hn : s.NodesFit)
    (h : EdgesFit source (op :: rest) s) : EdgesFit source rest t := by
  have hsplit : createdBy (op :: rest) = op.createdIds ++ createdBy rest := List.flatMap_cons
  have hnodes : ∀ a b r created, edgeMatchesRelation ctx.state a b r created =
      edgeMatchesRelation s a b r created := by
    intro a b r created
    unfold edgeMatchesRelation endpointType
    rw [ha.nodes]
  -- An operation that keeps the types of nodes and creates none, and writes edges that match.
  have kept : op.createdIds = [] → t.ontology = s.ontology →
      (∀ x, (t.nodes.get? x).map (fun n => semanticType n.type n.extensionType) =
        (s.nodes.get? x).map fun n => semanticType n.type n.extensionType) →
      (∀ e r, op.Writes e → customRelation s.ontology e.relation = some r →
        edgeMatchesRelation s e.source e.target r source.createdNodes = true) →
      EdgesFit source rest t := by
    intro hcreates hontology htypes hwrites id e r he hcustom
    have hmono : ∀ y, y ∈ createdBy (op :: rest) → y ∈ createdBy rest := by
      intro y hy
      rw [hsplit, hcreates] at hy
      exact hy
    rw [hontology] at hcustom
    have hfits : EndpointFits source (op :: rest) s e.source r.sourceTypes ∧
        EndpointFits source (op :: rest) s e.target r.targetTypes := by
      rcases (edges_applyOp p false op s t hn.keyed happ).1 id e he with hbefore | ⟨-, hwritten⟩
      · exact h id e r hbefore hcustom
      · exact edgeFits_of_matches source _ s _ _ r (hwrites e r hwritten hcustom)
    exact ⟨hfits.1.congr hmono (htypes _), hfits.2.congr hmono (htypes _)⟩
  have quiet : op.editsNodes = false → (∀ x,
      (t.nodes.get? x).map (fun n => semanticType n.type n.extensionType) =
        (s.nodes.get? x).map fun n => semanticType n.type n.extensionType) := fun hop =>
    look_applyOp (fun n => semanticType n.type n.extensionType)
      (fun n m htype hext _ => semantic_look n m htype hext) p false op hop s t hn.keyed happ
  cases op with
  | createNodes nodes =>
      have hontology := ontology_applyOp p false _ (fun _ h => by cases h) s t happ
      have hedges := edges_applyOp_other p false _ rfl s t hn.keyed happ
      have hnew : ∀ raw ∈ nodes, raw.id ∉ s.nodes := by
        intro raw hraw
        rw [← ha.nodes]
        exact created_new ctx nodes hr raw hraw
      intro id e r he hcustom
      rw [hedges] at he
      rw [hontology] at hcustom
      obtain ⟨hsource, htarget⟩ := h id e r he hcustom
      exact ⟨hsource.created hops hnew happ, htarget.created hops hnew happ⟩
  | updateNodes updates =>
      refine kept rfl (ontology_applyOp p false _ (fun _ h => by cases h) s t happ) ?_
        (fun e r hwritten => hwritten.elim)
      exact semantic_updateNodes p updates s t hn.keyed happ
  | removeNodes ids =>
      cases happ
      intro id e r he hcustom
      simp only [removeNodes, Dict.get?_filter, Option.filter_eq_some_iff, Bool.and_eq_true,
        decide_eq_true_eq] at he
      obtain ⟨he, hsource, htarget⟩ := he
      have hsame : ∀ x, x ∉ ids → (removeNodes ids s).nodes.get? x = s.nodes.get? x := by
        intro x hx
        rw [removeNodes, Dict.get?_filter]
        cases s.nodes.get? x <;> simp [Option.filter, hx]
      obtain ⟨hfits, hfits'⟩ := h id e r he hcustom
      refine ⟨hfits.congr (fun y hy => hy) ?_, hfits'.congr (fun y hy => hy) ?_⟩
      · rw [hsame _ hsource]
      · rw [hsame _ htarget]
  | setOntology o =>
      have hchange := (setOntology_accepted ctx hmode o hr).relations
      cases happ
      intro id e r he hcustom
      apply edgeFits_of_matches
      apply matches_created
      cases hold : customRelation s.ontology e.relation with
      | none => exact hkeeps.relations id e r he hold hcustom
      | some r' =>
          have hname : r'.name = e.relation := by simpa using List.find?_some hold
          have hissue := hchange r' (by
            rw [ha.ontology]
            exact List.mem_of_find?_eq_some hold)
          unfold customRelation at hcustom
          simp only [relationChangeIssues, hname, hcustom, refused_append, Bool.or_eq_false_iff,
            refused_rejectIf, Bool.not_eq_false', List.isEmpty_iff, List.filter_eq_nil_iff,
            List.mem_filter, hnodes] at hissue
          -- The staged graph has the edge, up to its layer.
          have hget := ha.get?_edges id
          rw [he, Option.map_some] at hget
          obtain ⟨f, hf, hfe⟩ := Option.map_eq_some_iff.mp hget
          have hsource : f.source = e.source := show f.erased.source = e.erased.source by rw [hfe]
          have htarget : f.target = e.target := show f.erased.target = e.erased.target by rw [hfe]
          have hrelation : f.relation = e.relation := show f.erased.relation = e.erased.relation by rw [hfe]
          have := hissue.2 f ⟨(Dict.mem_values _ _).mpr ⟨id, hf⟩, by simpa using hrelation⟩
          rw [hsource, htarget] at this
          have hmatches : edgeMatchesRelation s e.source e.target r = true := by simpa using this
          exact hmatches
  | createEdges edges =>
      refine kept rfl (ontology_applyOp p false _ (fun _ h => by cases h) s t happ) (quiet rfl) ?_
      rintro e r ⟨raw, hraw, hrelation, hsource, htarget⟩ hcustom
      simp only [patchRules, effectRules, rulesOf, structuralIssues, refused_append,
        Bool.or_eq_false_iff] at hr
      have hspec := relationSpec?_of_custom _ hn.sound _ r hcustom
      rw [hrelation] at hcustom hspec
      rw [hsource, htarget, ← hnodes, ← hpatch]
      exact createEdges_matches ctx _ edges hr.1 raw hraw r (ha.ontology ▸ hcustom) hspec
  | supersedeNodes items =>
      refine kept rfl (ontology_applyOp p false _ (fun _ h => by cases h) s t happ) (quiet rfl) ?_
      rintro e r ⟨-, i, -, hrelation, -⟩ hcustom
      have hspec := relationSpec?_of_custom _ hn.sound _ r hcustom
      rw [hrelation] at hspec
      exact absurd hspec (by decide)
  | mergeNodes merges =>
      refine kept rfl (ontology_applyOp p false _ (fun _ h => by cases h) s t happ) (quiet rfl) ?_
      rintro e r ⟨-, m, -, hrelation, -⟩ hcustom
      have hspec := relationSpec?_of_custom _ hn.sound _ r hcustom
      rw [hrelation] at hspec
      exact absurd hspec (by decide)
  | _ =>
      exact kept rfl (ontology_applyOp p false _ (fun _ h => by cases h) s t happ) (quiet rfl)
        (fun e r hwritten => hwritten.elim)

end Edges

section Runs

/-- What appends preserve: every node and every edge fits, and no edge dangles. -/
structure GraphState.Fit (s : GraphState rt) : Prop where
  nodes : s.NodesFit
  edges : ∀ id e r, s.edges.get? id = some e → customRelation s.ontology e.relation = some r →
    edgeMatchesRelation s e.source e.target r = true
  ends : s.NoDangling

theorem GraphState.Fit.conforming {s : GraphState rt} (h : s.Fit) : s.Conforming :=
  ⟨fun id n hn => (h.nodes.fits id n hn).conforms, h.edges⟩

theorem GraphState.Fit.congr {s t : GraphState rt} (h : s.Fit) (ht : t.Keyed)
    (hontology : t.ontology = s.ontology)
    (hfacets : ∀ x, (t.nodes.get? x).map ProjectNode.facet =
      (s.nodes.get? x).map ProjectNode.facet)
    (hedges : ∀ id e, t.edges.get? id = some e → ∃ f, s.edges.get? id = some f ∧
      f.source = e.source ∧ f.target = e.target ∧ f.relation = e.relation) : t.Fit := by
  have htypes : ∀ x, endpointType t [] x = endpointType s [] x := by
    intro x
    have hfacet := hfacets x
    unfold endpointType
    cases hs : s.nodes.get? x with
    | none =>
        rw [hs, Option.map_none, Option.map_eq_none_iff] at hfacet
        rw [hfacet]
    | some n =>
        rw [hs, Option.map_some] at hfacet
        obtain ⟨m, hm, hsame⟩ := Option.map_eq_some_iff.mp hfacet
        simp only [ProjectNode.facet, Prod.mk.injEq] at hsame
        simp only [hm, semantic_look n m hsame.1 hsame.2.1]
  refine ⟨h.nodes.congr ht hontology hfacets, ?_, ?_⟩
  · intro id e r he hcustom
    obtain ⟨f, hf, hsource, htarget, hrelation⟩ := hedges id e he
    rw [hontology, ← hrelation] at hcustom
    have hmatches := h.edges id f r hf hcustom
    rw [edgeMatchesRelation_iff] at hmatches ⊢
    rw [htypes, htypes, ← hsource, ← htarget]
    exact hmatches
  · intro id e he
    obtain ⟨f, hf, hsource, htarget, -⟩ := hedges id e he
    have hmem : ∀ x, x ∈ s.nodes → x ∈ t.nodes := by
      intro x hx
      rw [Dict.mem_iff_isSome] at hx ⊢
      have := congrArg Option.isSome (hfacets x)
      rw [Option.isSome_map, Option.isSome_map] at this
      rw [this]
      exact hx
    obtain ⟨hs, ht⟩ := h.ends id f hf
    exact ⟨hmem _ (hsource ▸ hs), hmem _ (htarget ▸ ht)⟩

theorem KeepsFitAll.congr (p q : Patch rt) (h : p.applies = q.applies)
    (ops : List (GraphOperation rt)) (s : GraphState rt) (hfit : KeepsFitAll p ops s) :
    KeepsFitAll q ops s := by
  induction ops generalizing s with
  | nil => trivial
  | cons op ops ih =>
      refine ⟨hfit.1, fun t ht => ih t (hfit.2 t ?_)⟩
      rw [applyOp_congr p q h]
      exact ht

/-- Operations as the gates judged them meet the condition when they meet it as passed on. -/
theorem KeepsFitAll.of_finalized (p : Patch rt) (ops finals : List (GraphOperation rt))
    (h : List.Forall₂ Finalized ops finals) (s : GraphState rt) (hfit : KeepsFitAll p finals s) :
    KeepsFitAll p ops s := by
  induction h generalizing s with
  | nil => trivial
  | @cons op final ops finals hop _ ih =>
      obtain ⟨staged, rfl⟩ := hop
      refine ⟨?_, fun t ht => ih t (hfit.2 t ?_)⟩
      · have := hfit.1
        cases op <;> exact this
      · rw [applyOp_finalize]
        exact ht

/-- A judged source patch keeps a graph fit. -/
theorem fit_source (source p : Patch rt) (happ : source.applies = p.applies)
    (hplain : source.transition = none) (hspares : source.SparesRemoved)
    (here s t : GraphState rt) (ha : Alike here s) (hj : Judged .admission here source)
    (hrun : Steps.run (applyOp p false) source.ops s = .ok t) (later : List (GraphOperation rt))
    (hkeeps : KeepsFitAll p (source.ops ++ later) s) (h : s.Fit) :
    t.Fit ∧ KeepsFitAll p later t := by
  have htied := tied_source .admission source p happ hplain here s t ha hj hrun [] {} h.nodes.keyed
    (Tied.of_noDangling h.ends _ _)
  have hends := htied.noDangling hspares
  obtain ⟨vc, request, hmode, hissues⟩ := hj
  obtain ⟨-, -, hlater, hnodes, hedges⟩ := patchIssues_run here source vc request hissues p happ
    hplain
    (fun rest s => ∃ front, source.ops = front ++ rest ∧ KeepsFitAll p (rest ++ later) s ∧
      s.NodesFit ∧ EdgesFit source rest s)
    (fun op rest ctx s t _ hctx ha hr happ hP => by
      obtain ⟨a, r, rfl⟩ := hctx
      obtain ⟨front, hops, hkeeps, hnodes, hedges⟩ := hP
      refine ⟨front ++ [op], by simp [hops], hkeeps.2 t happ, ?_, ?_⟩
      · exact nodesFit_applyOp _ hmode p op s t ha hr hkeeps.1 happ hnodes
      · exact edgesFit_applyOp _ hmode source p rfl front rest op hops s t ha hr hkeeps.1 happ
          hnodes hedges)
    s t ha hrun ⟨[], rfl, hkeeps, h.nodes, fun id e r he hcustom =>
      edgeFits_of_matches _ _ _ _ _ _ (matches_created _ _ _ _ _ (h.edges id e r he hcustom))⟩
  refine ⟨⟨hnodes, fun id e r he hcustom => ?_, hends⟩, hlater⟩
  obtain ⟨hsource, htarget⟩ := hedges id e r he hcustom
  have present : ∀ x types, x ∈ t.nodes → EndpointFits source [] t x types →
      ∃ a, endpointType t [] x = some a ∧ a ∈ types := by
    intro x types hx hfits
    obtain ⟨n, hn⟩ := (Dict.mem_iff_exists _ _).mp hx
    rcases hfits.present n hn with hcreated | htype
    · cases hcreated
    · exact ⟨_, by simp [endpointType, hn], htype⟩
  obtain ⟨hs, ht⟩ := hends id e he
  exact (edgeMatchesRelation_iff _ _ _ _ _).mpr ⟨present _ _ hs hsource, present _ _ ht htarget⟩

/-- Bookkeeping changes neither nodes nor edges, so it leaves the trail alone. -/
theorem trail_prepareOperations (s : GraphState rt) (p : Patch rt) (ops : List (GraphOperation rt))
    (spellings : Dict String String) (trail : Trail) :
    (prepareOperations s p ops spellings).foldl Trail.after trail =
      ops.foldl Trail.after trail := by
  induction ops generalizing spellings trail with
  | nil => rfl
  | cons op ops ih => cases op <;> exact ih _ _

/-- Marks on guidance leave a graph fit. -/
theorem fit_marks (p : Patch rt) (generated : List (GraphOperation rt)) (s t : GraphState rt)
    (hg : ∀ op ∈ generated, op.MarksGuidance s)
    (h : Steps.run (applyOp p true) generated s = .ok t) (hs : s.Fit) : t.Fit := by
  have hkeyed := keyed_run p true generated s t hs.nodes.keyed h
  obtain ⟨hedges, -, -⟩ := marks_run p generated s t hg hs.nodes.keyed h
  have key := Steps.run_invariant (applyOp p true)
    (fun v : GraphState rt => v.Keyed ∧ v.ontology = s.ontology ∧
      ∀ x, (v.nodes.get? x).map ProjectNode.facet = (s.nodes.get? x).map ProjectNode.facet)
    generated
    (fun op hop v w hv hw => by
      obtain ⟨hvkeyed, hontology, hfacets⟩ := hv
      obtain ⟨u, rfl, -, -, hfields⟩ := hg op hop
      refine ⟨keyed_applyOp p true _ v w hvkeyed hw,
        (ontology_applyOp p true _ (fun _ h => by cases h) v w hw).trans hontology, fun x => ?_⟩
      rw [← hfacets x]
      have hnodes := mem_nodes_applyOp p true _ v w hvkeyed hw x
      cases hn : v.nodes.get? x with
      | none =>
          have hnone : w.nodes.get? x = none := by
            rw [← Dict.not_mem_iff] at hn ⊢
            exact fun hmem => hn (hnodes.mp hmem)
          rw [hnone]
      | some n =>
          obtain ⟨m, hm, hfacet⟩ := facet_updateNodes p true [u] v w hvkeyed hw x n hn
          rw [hm, Option.map_some, Option.map_some]
          rcases hfacet with hfacet | ⟨u', hu', -, fields, hwritten, -⟩
          · rw [hfacet]
          · rw [List.mem_singleton.mp hu'] at hwritten
            obtain ⟨j, hj, -⟩ := Option.bind_eq_some_iff.mp hwritten
            have := hfields _ (Dict.mem_of_get? hj)
            simp [guidanceStaleFields] at this)
    s t ⟨hs.nodes.keyed, rfl, fun _ => rfl⟩ h
  exact hs.congr hkeyed key.2.1 key.2.2 fun id e he => ⟨e, hedges ▸ he, rfl, rfl, rfl⟩

/-- In every run of appends that keep to the condition, the data fits the ontology in force. -/
theorem conforming_of_appends (project : Project rt) (s : GraphState rt)
    (h : Appended project (KeepsConforming project) s) : s.Conforming := by
  refine GraphState.Fit.conforming (Appended.invariant GraphState.Fit ?_ ?_ ?_ ?_ ?_ s h)
  · intro scope
    refine ⟨⟨fun id n hn => (nomatch hn), ?_, fun id n hn => (nomatch hn)⟩,
      fun id e r he => (nomatch he), fun id e he => (nomatch he)⟩
    exact ⟨fun t ht => (nomatch ht), fun f hf => (nomatch hf), fun t ht => (nomatch ht),
      fun r hr => (nomatch hr)⟩
  · intro s revision raws sources preHead prepared hcondition hgates hprepared hs
    obtain ⟨hfit, hspares⟩ := hcondition
    obtain ⟨first, rest, staged, w, admitted, u, v, hsources, -, -, -, -, -, hfirst, hops, hrun⟩ :=
      appended_staged project s revision raws sources preHead _ prepared hgates hprepared
    obtain ⟨finals, hfinal, hfinals⟩ := hrun.finalized
    rw [hops, List.append_left_inj] at hfinals
    have hkeeps : KeepsFitAll prepared.patch (admitted.flatMap (·.ops)) s := by
      apply KeepsFitAll.of_finalized prepared.patch _ finals hfinal
      rw [← hfinals]
      exact (hfit revision sources hgates first rest hsources).congr _ _ hfirst
    have hu := hrun.judged.invariant
      (fun rest s => KeepsFitAll prepared.patch (rest.flatMap (·.ops)) s ∧ s.Fit)
      (fun here s t source rest happ hplain ha hj hrun hP => by
        obtain ⟨hkeeps, hs⟩ := hP
        rw [List.flatMap_cons] at hkeeps
        have hsource : source.SparesRemoved := by
          obtain ⟨raw, hraw, rfl, -⟩ := hj
          have := hspares raw hraw
          unfold Patch.SparesRemoved at this ⊢
          rw [admitPatch, preparePatchBookkeeping, trail_prepareOperations]
          exact this
        obtain ⟨ht, hlater⟩ := fit_source source _ happ hplain hsource here s t ha
          (hj.judged hplain) hrun _ hkeeps hs
        exact ⟨hlater, ht⟩)
      ⟨hkeeps, hs⟩
    have hv := fit_marks _ _ u v hrun.marks hrun.marked hu.2
    rw [hrun.graph]
    have halike := relayer_alike (prepared.patch.ops.flatMap createdEdgeIds) v
    refine hv.congr (keyed_of_nodes _ v halike.nodes hv.nodes.keyed) halike.ontology
      (fun x => by rw [← halike.nodes]; rfl) fun id e he => ?_
    have hget := halike.get?_edges id
    rw [show (relayer _ v).edges.get? id = some e from he, Option.map_some] at hget
    obtain ⟨f, hf, hfe⟩ := Option.map_eq_some_iff.mp hget.symm
    exact ⟨f, hf, show f.erased.source = e.erased.source by rw [hfe],
      show f.erased.target = e.erased.target by rw [hfe],
      show f.erased.relation = e.erased.relation by rw [hfe]⟩
  all_goals
    intro s _ hs
    exact hs.congr hs.nodes.keyed rfl (fun _ => rfl) fun id e he => ⟨e, he, rfl, rfl, rfl⟩

end Runs

/-- The operations that bookkeeping completes. -/
def GraphOperation.files : GraphOperation rt → Bool
  | .createProposals _ | .upsertGlossary _ => true
  | _ => false

theorem ops_admitPatch (project : Project rt) (here staged : GraphState rt) (raw : Patch rt)
    (h : ∀ op ∈ raw.ops, op.files = false) :
    (finalizePatchBookkeeping (admitPatch project here raw).1 staged).ops = raw.ops := by
  have prepared : ∀ ops spellings, (∀ op ∈ ops, op.files = false) →
      (prepareOperations here raw ops spellings).map (finalizeOperation staged) = ops := by
    intro ops
    induction ops with
    | nil => exact fun _ _ => rfl
    | cons op ops ih =>
        intro spellings hops
        have hop := hops op List.mem_cons_self
        have htail := fun sp => ih sp fun o ho => hops o (List.mem_cons_of_mem op ho)
        cases op with
        | createProposals _ | upsertGlossary _ => cases hop
        | _ =>
            rw [prepareOperations, List.map_cons, htail]
            · rfl
            · exact fun _ h => nomatch h
            · exact fun _ h => nomatch h
  exact prepared raw.ops _ h

/-- The gate loop passes operations on as they are, filed Proposals and terms apart. -/
theorem admitSources_ops (project : Project rt) (base revision : Nat) (raws : List (Patch rt))
    (staged : GraphState rt) (sources : AdmittedSources rt)
    (hplain : ∀ raw ∈ raws, ∀ op ∈ raw.ops, op.files = false)
    (h : admitSources project base revision raws staged = .ok sources) :
    sources.patches.flatMap (·.ops) = raws.flatMap (·.ops) := by
  induction raws generalizing staged sources with
  | nil =>
      cases h
      rfl
  | cons raw raws ih =>
      simp only [admitSources] at h
      split at h
      next => cases h
      next =>
        split at h
        next => cases h
        next candidate hcandidate =>
          split at h
          next => cases h
          next =>
            split at h
            next => cases h
            next tail htail =>
              cases h
              rw [List.flatMap_cons, List.flatMap_cons,
                ih _ tail (fun q hq => hplain q (List.mem_cons_of_mem _ hq)) htail]
              congr 1
              exact ops_admitPatch project _ candidate _ (hplain raw List.mem_cons_self)

/-- A number that scores an Experiment, or a text. -/
def scoreField (kind : FieldKind) (deprecated : Bool) : OntologyFieldDefinition where
  ownerType := "experiment"
  name := "score"
  definition := "How the experiment scores."
  kind := kind
  required := false
  agentWritable := true
  deprecated := deprecated

def scoring (kind : FieldKind) (deprecated : Bool := false) : OntologyState :=
  ⟨[], [scoreField kind deprecated], [], by cases kind <;> cases deprecated <;> rfl⟩

def scoredDraft (id : String) : RawNode .plain where
  id := id
  type := .experiment
  extensionType := none
  standing := none
  createdRev := none
  updatedRev := none
  content :=
    [("title", .str "Title"), ("extension_fields", .obj [("score", .num 1)]),
      ("objective", .str "Objective")]
  extensionType_ok := RawNode.no_extension
  content_ok := by rfl

/-- The score is defined as a number, and an Experiment has one. -/
def scoredExperiment : List (Patch .plain) :=
  [syncPatch [.setOntology (scoring .number)], syncPatch [.createNodes [scoredDraft "exp/a"]]]

/-- The definition is deprecated and removed, and comes back as a text. -/
def retypedScore : List (Patch .plain) :=
  [syncPatch [.setOntology (scoring .number true)], syncPatch [.setOntology .initial],
    syncPatch [.setOntology (scoring .text)]]

/-- An update writes `true` over the number 1. -/
def flaggedScore : Patch .plain :=
  firstPatch [.updateNodes
    [{ id := "exp/a", changes := .ofList [("extension_fields", .obj [("score", .bool true)])] }]]

/-- An Experiment of the graph has a score that is not of the kind in force. -/
def misfitScore (s : GraphState .plain) : Bool :=
  (s.nodes.get? "exp/a").any fun n => s.ontology.fields.any fun f =>
    fieldApplies n f && (extensionValue n f.name).any fun v => !fieldValueMatches f v

theorem not_conforming_of_misfitScore (s : GraphState .plain) (h : misfitScore s = true) :
    ¬s.Conforming := by
  intro hs
  obtain ⟨n, hn, h⟩ := (Option.any_eq_true _ _).mp h
  obtain ⟨f, hf, h⟩ := List.any_eq_true.mp h
  rw [Bool.and_eq_true] at h
  obtain ⟨v, hv, hmisfit⟩ := (Option.any_eq_true _ _).mp h.2
  rw [(hs.nodes _ n hn).kinds f hf h.1 v hv] at hmisfit
  cases hmisfit

/-- One append or two append a graph that does not fit its ontology. -/
theorem misfit_after_appends :
    (∃ s, Appended Project.solo (fun _ _ => True) s ∧ s.ontology = scoring .text ∧
      ¬s.Conforming) ∧
    ∃ s, Appended Project.solo (fun _ _ => True) s ∧ s.ontology = scoring .number ∧
      ¬s.Conforming := by
  have appended : ∀ (s : GraphState .plain) raws prepared,
      Appended Project.solo (fun _ _ => True) s → nextAppend Project.solo s raws = some prepared →
      Appended Project.solo (fun _ _ => True) (prepared.graph.record []) := by
    intro s raws prepared hs hp
    obtain ⟨sources, hgates, hprepared⟩ := nextAppend_ok _ _ _ prepared hp
    exact .append s _ raws sources none prepared [] hs trivial hgates hprepared
  constructor
  · have hrun : ((nextAppend Project.solo (.initial .plain ["repo"])
        (scoredExperiment ++ retypedScore)).any fun prepared =>
          decide (prepared.graph.ontology = scoring .text) &&
            misfitScore (prepared.graph.record [])) = true := by decide +kernel
    obtain ⟨prepared, hp, hmisfit⟩ := (Option.any_eq_true _ _).mp hrun
    rw [Bool.and_eq_true, decide_eq_true_eq] at hmisfit
    exact ⟨_, appended _ _ _ (.initial ["repo"]) hp, hmisfit.1,
      not_conforming_of_misfitScore _ hmisfit.2⟩
  · have hrun : ((nextAppend Project.solo (.initial .plain ["repo"]) scoredExperiment).any
        fun first => (nextAppend Project.solo (first.graph.record []) [flaggedScore]).any
          fun prepared => decide (prepared.graph.ontology = scoring .number) &&
            misfitScore (prepared.graph.record [])) = true := by decide +kernel
    obtain ⟨first, hfirst, hsecond⟩ := (Option.any_eq_true _ _).mp hrun
    obtain ⟨prepared, hp, hmisfit⟩ := (Option.any_eq_true _ _).mp hsecond
    rw [Bool.and_eq_true, decide_eq_true_eq] at hmisfit
    exact ⟨_, appended _ _ _ (appended _ _ _ (.initial ["repo"]) hfirst) hp, hmisfit.1,
      not_conforming_of_misfitScore _ hmisfit.2⟩

theorem keepsConforming_scoredExperiment :
    KeepsConforming Project.solo (.initial .plain ["repo"]) scoredExperiment := by
  refine ⟨fun revision sources hgates first rest _ => ?_, by decide⟩
  rw [admitSources_ops _ _ _ _ _ sources (by decide) hgates]
  refine ⟨⟨?_, ?_, ?_⟩, fun t _ => ⟨trivial, fun _ _ => trivial⟩⟩
  · exact fun f _ _ id n hn => nomatch hn
  · exact fun id n hn => nomatch hn
  · exact fun id e r he => nomatch he

theorem conforming_of_appends_scored :
    ∃ prepared, nextAppend Project.solo (.initial .plain ["repo"]) scoredExperiment =
        some prepared ∧ prepared.graph.ontology = scoring .number ∧
      "exp/a" ∈ prepared.graph.nodes ∧ (prepared.graph.record []).Conforming := by
  have hrun : ((nextAppend Project.solo (.initial .plain ["repo"]) scoredExperiment).any
      fun prepared => decide (prepared.graph.ontology = scoring .number) &&
        decide ("exp/a" ∈ prepared.graph.nodes)) = true := by decide +kernel
  obtain ⟨prepared, hp, hgraph⟩ := (Option.any_eq_true _ _).mp hrun
  rw [Bool.and_eq_true, decide_eq_true_eq, decide_eq_true_eq] at hgraph
  obtain ⟨sources, hgates, hprepared⟩ := nextAppend_ok _ _ _ prepared hp
  refine ⟨prepared, hp, hgraph.1, hgraph.2, conforming_of_appends Project.solo _ ?_⟩
  exact .append _ _ _ sources none prepared [] (.initial ["repo"])
    keepsConforming_scoredExperiment hgates hprepared

end RcpGraph
