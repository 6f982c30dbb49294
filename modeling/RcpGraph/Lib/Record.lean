import RcpGraph.Lib.Schema

/-!
Records: documents with named fields, each of a kind, required or with a
default. Reading keeps the fields an author wrote; completing fills in the rest.
`Conforms` is the shape of a completed record, and `settle` is the only way the
models below build one.
-/

namespace Schema

/-- One named field. A field without a default is required. -/
structure Field where
  name : String
  kind : Kind
  default : Option Json
  default_ok : ∀ d, default = some d → kind.check strict d = .ok d ∧ kind.complete d = d

namespace Field

def required (name : String) (kind : Kind) : Field where
  name := name
  kind := kind
  default := none
  default_ok _ h := nomatch h

def withDefault (name : String) (kind : Kind) (d : Json)
    (h : kind.check strict d = .ok d ∧ kind.complete d = d) : Field where
  name := name
  kind := kind
  default := some d
  default_ok _ h' := Option.some.inj h' ▸ h

end Field

abbrev Doc := List (String × Json)

def names (fields : List Field) : List String := fields.map Field.name

/-- Check the written fields in declaration order. -/
def readFields (co : Coercions) : List Field → Doc → Except String Doc
  | [], _ => .ok []
  | f :: fields, doc =>
      match Assoc.find f.name doc with
      | some j => do
          let j' ← f.kind.check co j
          let out ← readFields co fields doc
          pure ((f.name, j') :: out)
      | none =>
          match f.default with
          | some _ => readFields co fields doc
          | none => .error "Field required"

def completeField (f : Field) (doc : Doc) : Json :=
  match Assoc.find f.name doc with
  | some j => f.kind.complete j
  | none => f.default.getD .null

def completeFields (fields : List Field) (doc : Doc) : Doc :=
  fields.map fun f => (f.name, completeField f doc)

/-- The three ways reading one field can go on. -/
theorem readFields_cons_ok (co : Coercions) (f : Field) (fields : List Field) (doc out : Doc)
    (h : readFields co (f :: fields) doc = .ok out) :
    (∃ j j' rest, Assoc.find f.name doc = some j ∧ f.kind.check co j = .ok j' ∧
        readFields co fields doc = .ok rest ∧ out = (f.name, j') :: rest) ∨
      (Assoc.find f.name doc = none ∧ f.default.isSome ∧ readFields co fields doc = .ok out) := by
  unfold readFields at h
  cases hf : Assoc.find f.name doc with
  | none =>
      simp only [hf] at h
      cases hd : f.default with
      | none => simp [hd] at h
      | some d =>
          simp only [hd] at h
          exact .inr ⟨rfl, rfl, h⟩
  | some j =>
      simp only [hf, bind, Except.bind, pure, Except.pure] at h
      cases hj : f.kind.check co j with
      | error e => simp [hj] at h
      | ok j' =>
          cases hr : readFields co fields doc with
          | error e => simp [hj, hr] at h
          | ok rest =>
              simp only [hj, hr, Except.ok.injEq] at h
              exact .inl ⟨j, j', rest, rfl, hj, rfl, h.symm⟩

theorem keys_readFields (co : Coercions) (fields : List Field) (doc out : Doc)
    (h : readFields co fields doc = .ok out) : (out.map Prod.fst).Sublist (names fields) := by
  induction fields generalizing out with
  | nil =>
      cases h
      exact List.Sublist.refl _
  | cons f fields ih =>
      obtain ⟨j, j', rest, -, -, hr, rfl⟩ | ⟨-, -, hr⟩ := readFields_cons_ok co f fields doc out h
      · exact (ih rest hr).cons_cons f.name
      · exact (ih out hr).cons f.name

theorem readFields_congr (co : Coercions) (fields : List Field) (doc doc' : Doc)
    (h : ∀ f ∈ fields, Assoc.find f.name doc = Assoc.find f.name doc') :
    readFields co fields doc = readFields co fields doc' := by
  induction fields with
  | nil => rfl
  | cons f fields ih =>
      have hf := h f List.mem_cons_self
      have ihf := ih fun g hg => h g (List.mem_cons_of_mem f hg)
      simp only [readFields, hf, ihf]

/-- A field of what reading returned. -/
theorem find_readFields (co : Coercions) (fields : List Field) (doc out : Doc)
    (hn : (names fields).Nodup) (h : readFields co fields doc = .ok out)
    (f : Field) (hf : f ∈ fields) :
    (∃ j j', Assoc.find f.name doc = some j ∧ f.kind.check co j = .ok j' ∧
        Assoc.find f.name out = some j') ∨
      (Assoc.find f.name doc = none ∧ f.default.isSome ∧ Assoc.find f.name out = none) := by
  induction fields generalizing out with
  | nil => cases hf
  | cons g fields ih =>
      obtain ⟨hg, hn⟩ := List.nodup_cons.mp hn
      have hne : ∀ rest, readFields co fields doc = .ok rest →
          Assoc.find g.name rest = none := fun rest hr =>
        Assoc.find_eq_none g.name rest fun hm => hg ((keys_readFields co fields doc rest hr).subset hm)
      rcases List.mem_cons.mp hf with rfl | hf
      · obtain ⟨j, j', rest, hj, hc, hr, rfl⟩ | ⟨hj, hd, hr⟩ :=
          readFields_cons_ok co f fields doc out h
        · exact .inl ⟨j, j', hj, hc, by simp [Assoc.find]⟩
        · exact .inr ⟨hj, hd, hne out hr⟩
      · have hfg : g.name ≠ f.name := fun he => hg (he ▸ List.mem_map_of_mem hf)
        obtain ⟨j, j', rest, -, -, hr, rfl⟩ | ⟨-, -, hr⟩ :=
          readFields_cons_ok co g fields doc out h
        · simpa [Assoc.find, hfg] using ih rest hn hr hf
        · exact ih out hn hr hf

theorem readFields_stable (co co' : Coercions) (fields : List Field) (doc out : Doc)
    (hn : (names fields).Nodup) (h : readFields co fields doc = .ok out) :
    readFields co' fields out = .ok out := by
  induction fields generalizing out with
  | nil =>
      cases h
      rfl
  | cons f fields ih =>
      obtain ⟨hf, hn⟩ := List.nodup_cons.mp hn
      have hne : ∀ rest, readFields co fields doc = .ok rest →
          Assoc.find f.name rest = none := fun rest hr =>
        Assoc.find_eq_none f.name rest fun hm => hf ((keys_readFields co fields doc rest hr).subset hm)
      obtain ⟨j, j', rest, hj, hc, hr, rfl⟩ | ⟨hj, hd, hr⟩ :=
        readFields_cons_ok co f fields doc out h
      · have hrest : readFields co' fields ((f.name, j') :: rest) = .ok rest := by
          rw [← ih rest hn hr]
          refine readFields_congr co' fields _ rest fun g hg => ?_
          have hfg : f.name ≠ g.name := fun he => hf (he ▸ List.mem_map_of_mem hg)
          simp [Assoc.find, hfg]
        simp [readFields, Assoc.find, f.kind.check_stable co j j' hc co', hrest, bind, Except.bind,
          pure, Except.pure]
      · obtain ⟨d, hd⟩ := Option.isSome_iff_exists.mp hd
        simp [readFields, hne out hr, hd, ih out hn hr]

@[simp] theorem keys_completeFields (fields : List Field) (doc : Doc) :
    (completeFields fields doc).map Prod.fst = names fields := by
  simp [completeFields, names, Function.comp_def]

theorem find_completeFields (fields : List Field) (doc : Doc) (hn : (names fields).Nodup)
    (f : Field) (hf : f ∈ fields) :
    Assoc.find f.name (completeFields fields doc) = some (completeField f doc) := by
  rw [Assoc.find_eq_some_iff _ (by simpa using hn)]
  exact List.mem_map.mpr ⟨f, hf, rfl⟩

theorem find_completeFields_of_not_mem (fields : List Field) (doc : Doc) (n : String)
    (hn : n ∉ names fields) : Assoc.find n (completeFields fields doc) = none :=
  Assoc.find_eq_none n _ (by simpa using hn)

/-- A completed record: reading and completing leave it alone. -/
structure Conforms (fields : List Field) (doc : Doc) : Prop where
  read : ∀ co, readFields co fields doc = .ok doc
  complete : completeFields fields doc = doc

/-- Read a document and fill in what it leaves out. -/
def settle (co : Coercions) (fields : List Field) (doc : Doc) : Except String Doc :=
  (readFields co fields doc).map (completeFields fields)

theorem settle_ok (co : Coercions) (fields : List Field) (doc out : Doc)
    (h : settle co fields doc = .ok out) :
    ∃ kept, readFields co fields doc = .ok kept ∧ out = completeFields fields kept := by
  unfold settle at h
  cases hr : readFields co fields doc with
  | error e => simp [hr, Except.map] at h
  | ok kept =>
      simp only [hr, Except.map, Except.ok.injEq] at h
      exact ⟨kept, rfl, h.symm⟩

/-- A completed field is accepted unchanged and has nothing left to complete. -/
theorem completeField_stable (co co' : Coercions) (fields : List Field) (doc out : Doc)
    (hn : (names fields).Nodup) (h : readFields co fields doc = .ok out)
    (f : Field) (hf : f ∈ fields) :
    f.kind.check co' (completeField f out) = .ok (completeField f out) ∧
      f.kind.complete (completeField f out) = completeField f out := by
  unfold completeField
  obtain ⟨j, j', -, hc, ho⟩ | ⟨-, hd, ho⟩ := find_readFields co fields doc out hn h f hf
  · simp only [ho]
    exact f.kind.check_complete co j' (f.kind.check_stable co j j' hc co) co'
  · obtain ⟨d, hd⟩ := Option.isSome_iff_exists.mp hd
    obtain ⟨hk, hi⟩ := f.default_ok d hd
    simp only [ho, hd, Option.getD_some]
    exact ⟨f.kind.check_stable strict d d hk co', hi⟩

theorem readFields_of_forall (co : Coercions) (fields : List Field) (value : Field → Json)
    (doc : Doc) (hv : ∀ f ∈ fields, Assoc.find f.name doc = some (value f) ∧
      f.kind.check co (value f) = .ok (value f)) :
    readFields co fields doc = .ok (fields.map fun f => (f.name, value f)) := by
  induction fields with
  | nil => rfl
  | cons f fields ih =>
      obtain ⟨hf, hc⟩ := hv f List.mem_cons_self
      have ihf := ih fun g hg => hv g (List.mem_cons_of_mem f hg)
      simp [readFields, hf, hc, ihf, bind, Except.bind, pure, Except.pure]

theorem conforms_settle (co : Coercions) (fields : List Field) (doc out : Doc)
    (hn : (names fields).Nodup) (h : settle co fields doc = .ok out) : Conforms fields out := by
  obtain ⟨kept, hr, rfl⟩ := settle_ok co fields doc out h
  have hfind := fun f hf => find_completeFields fields kept hn f hf
  have hstable := fun co' f hf => completeField_stable co co' fields doc kept hn hr f hf
  refine ⟨fun co' => ?_, ?_⟩
  · exact readFields_of_forall co' fields (fun f => completeField f kept) _ fun f hf =>
      ⟨hfind f hf, (hstable co' f hf).1⟩
  · refine List.map_congr_left fun f hf => ?_
    rw [completeField, hfind f hf]
    simp only
    rw [(hstable strict f hf).2]

/-- What a settled document holds under a declared field. -/
theorem find_settle (co : Coercions) (fields : List Field) (doc out : Doc)
    (hn : (names fields).Nodup) (h : settle co fields doc = .ok out)
    (f : Field) (hf : f ∈ fields) :
    (∃ j j', Assoc.find f.name doc = some j ∧ f.kind.check co j = .ok j' ∧
        Assoc.find f.name out = some (f.kind.complete j')) ∨
      (Assoc.find f.name doc = none ∧ Assoc.find f.name out = f.default) := by
  obtain ⟨kept, hr, rfl⟩ := settle_ok co fields doc out h
  rw [find_completeFields fields kept hn f hf, completeField]
  obtain ⟨j, j', hj, hc, ho⟩ | ⟨hj, hd, ho⟩ := find_readFields co fields doc kept hn hr f hf
  · exact .inl ⟨j, j', hj, hc, by rw [ho]⟩
  · obtain ⟨d, hd⟩ := Option.isSome_iff_exists.mp hd
    exact .inr ⟨hj, by rw [ho, hd]; rfl⟩

/-- A field that is stored as written holds what was written, else its default. -/
theorem find_settle_verbatim (co : Coercions) (fields : List Field) (doc out : Doc)
    (hn : (names fields).Nodup) (h : settle co fields doc = .ok out) (f : Field) (hf : f ∈ fields)
    (hv : f.kind.Verbatim) : Assoc.find f.name out = (Assoc.find f.name doc).or f.default := by
  obtain ⟨j, j', hj, hc, ho⟩ | ⟨hj, ho⟩ := find_settle co fields doc out hn h f hf
  · obtain ⟨rfl, hcomplete⟩ := hv co j j' hc
    rw [hj, ho, hcomplete, Option.some_or]
  · rw [hj, ho, Option.none_or]

/-- A field of a completed record is accepted unchanged and complete. -/
theorem Conforms.field {fields : List Field} {doc : Doc} (h : Conforms fields doc)
    (hn : (names fields).Nodup) (f : Field) (hf : f ∈ fields) :
    ∃ j, Assoc.find f.name doc = some j ∧ (∀ co, f.kind.check co j = .ok j) ∧
      f.kind.complete j = j := by
  have hfind := find_completeFields fields doc hn f hf
  rw [h.complete] at hfind
  have hstable := fun co => completeField_stable strict co fields doc doc hn (h.read strict) f hf
  exact ⟨completeField f doc, hfind, fun co => (hstable co).1, (hstable strict).2⟩

/-- Settling a change to a completed record leaves the other fields alone. -/
theorem find_settle_of_unchanged (co : Coercions) (fields : List Field) (doc doc' out : Doc)
    (hn : (names fields).Nodup) (hdoc : Conforms fields doc)
    (h : settle co fields doc' = .ok out) (f : Field) (hf : f ∈ fields)
    (hsame : Assoc.find f.name doc' = Assoc.find f.name doc) :
    Assoc.find f.name out = Assoc.find f.name doc := by
  obtain ⟨v, hv, hcheck, hcomplete⟩ := hdoc.field hn f hf
  obtain ⟨j, j', hj, hc, ho⟩ | ⟨hj, -⟩ := find_settle co fields doc' out hn h f hf
  · rw [hsame, hv] at hj
    cases hj
    rw [hcheck co] at hc
    cases hc
    rw [ho, hv, hcomplete]
  · rw [hsame, hv] at hj
    cases hj

theorem conforms_of_read (fields : List Field) (doc : Doc) (hn : (names fields).Nodup)
    (co : Coercions) (h : readFields co fields doc = .ok doc) :
    Conforms fields (completeFields fields doc) :=
  conforms_settle co fields doc _ hn (by simp [settle, h, Except.map])

/-- Read a document that may not have undeclared fields. -/
def readClosed (co : Coercions) (fields : List Field) (doc : Doc) : Except String Doc := do
  let out ← readFields co fields doc
  if doc.any (fun e => decide (e.1 ∉ names fields)) then throw "Extra inputs are not permitted"
  else pure out

theorem readClosed_ok (co : Coercions) (fields : List Field) (doc out : Doc)
    (h : readClosed co fields doc = .ok out) :
    readFields co fields doc = .ok out ∧ ∀ e ∈ doc, e.1 ∈ names fields := by
  simp only [readClosed, bind, Except.bind] at h
  cases hr : readFields co fields doc with
  | error e => simp [hr] at h
  | ok kept =>
      simp only [hr] at h
      split at h
      next => cases h
      next hany =>
        cases h
        refine ⟨rfl, fun e he => ?_⟩
        simp only [List.any_eq_true, decide_eq_true_eq, not_exists, not_and, not_not] at hany
        exact hany e he

/-- Records as a kind of their own. A closed record refuses undeclared fields;
an open one drops them. -/
def Kind.record (closed : Bool) (fields : List Field) (hn : (names fields).Nodup) : Kind where
  check co
    | .obj doc => do
        let out ← readFields co fields doc
        if closed && doc.any (fun e => decide (e.1 ∉ names fields)) then
          throw "Extra inputs are not permitted"
        else pure (.obj out)
    | _ => .error "Input should be a valid dictionary or instance"
  complete
    | .obj doc => .obj (completeFields fields doc)
    | j => j
  check_stable co j j' h co' := by
    cases j with
    | obj doc =>
        simp only [bind, Except.bind] at h
        cases hr : readFields co fields doc with
        | error e => simp [hr] at h
        | ok out =>
            simp only [hr] at h
            split at h
            next => cases h
            next =>
              cases h
              have hkeys : ∀ e ∈ out, e.1 ∈ names fields := fun e he =>
                (keys_readFields co fields doc out hr).subset (List.mem_map_of_mem he)
              simp only [readFields_stable co co' fields doc out hn hr, bind, Except.bind]
              rw [if_neg]
              · rfl
              · simp only [Bool.and_eq_true, List.any_eq_true, decide_eq_true_eq, not_and,
                  not_exists, not_not]
                exact fun _ e he => hkeys e he
    | null | bool _ | num _ | str _ | arr _ => cases h
  check_complete co j h co' := by
    cases j with
    | obj doc =>
        simp only [bind, Except.bind] at h
        cases hr : readFields co fields doc with
        | error e => simp [hr] at h
        | ok out =>
            simp only [hr] at h
            split at h
            next => cases h
            next =>
              cases h
              have hc := conforms_of_read fields doc hn co hr
              refine ⟨?_, congrArg Json.obj hc.complete⟩
              simp only [hc.read co', bind, Except.bind]
              rw [if_neg]
              · rfl
              · simp only [Bool.and_eq_true, List.any_eq_true, decide_eq_true_eq, not_and,
                  not_exists, not_not]
                intro _ e he
                rw [← keys_completeFields fields doc]
                exact List.mem_map_of_mem he
    | null | bool _ | num _ | str _ | arr _ => cases h

/-- Two completed records that agree on every declared field are the same. -/
theorem Conforms.ext {fields : List Field} {doc doc' : Doc} (h : Conforms fields doc)
    (h' : Conforms fields doc')
    (hsame : ∀ f ∈ fields, Assoc.find f.name doc = Assoc.find f.name doc') : doc = doc' := by
  rw [← h.complete, ← h'.complete]
  refine List.map_congr_left fun f hf => ?_
  rw [completeField, completeField, hsame f hf]

theorem pyEqFields_find (xs ys : Doc) (h : Json.pyEqFields xs ys = true) (name : String)
    (x : Json) (hx : (name, x) ∈ xs) : ∃ y, Assoc.find name ys = some y ∧ x.pyEq y = true := by
  induction xs with
  | nil => cases hx
  | cons e xs ih =>
      obtain ⟨k, v⟩ := e
      rw [Json.pyEqFields, Bool.and_eq_true] at h
      rcases List.mem_cons.mp hx with heq | hx
      · cases heq
        cases hy : Assoc.find name ys with
        | none => simp [hy] at h
        | some y => exact ⟨y, rfl, by simpa [hy] using h.1⟩
      · exact ih h.2 hx

/-- Completed records with equal parts, compared as the reading language does, agree there. -/
theorem Conforms.find_eq {fields : List Field} {doc doc' : Doc} (h : Conforms fields doc)
    (h' : Conforms fields doc') (hn : (names fields).Nodup) (hexact : ∀ f ∈ fields, f.kind.Exact)
    (p : String → Bool)
    (heq : (Json.obj (doc.filter fun e => p e.1)).pyEq (.obj (doc'.filter fun e => p e.1)) = true)
    (name : String) (hp : p name = true) : Assoc.find name doc = Assoc.find name doc' := by
  have hkeys : ∀ d, Conforms fields d → d.map Prod.fst = names fields := by
    intro d hd
    rw [← hd.complete, keys_completeFields]
  by_cases hname : name ∈ names fields
  · obtain ⟨f, hf, rfl⟩ := List.mem_map.mp hname
    obtain ⟨i, hi, hicheck, hicomplete⟩ := h.field hn f hf
    obtain ⟨j, hj, hjcheck, hjcomplete⟩ := h'.field hn f hf
    rw [Json.pyEq, Bool.and_eq_true] at heq
    have hmem : (f.name, i) ∈ doc.filter fun e => p e.1 := by
      rw [List.mem_filter]
      exact ⟨(Assoc.find_eq_some_iff _ (hkeys doc h ▸ hn) _ _).mp hi, hp⟩
    obtain ⟨y, hy, hpy⟩ := pyEqFields_find _ _ heq.2 f.name i hmem
    rw [Assoc.find_filter (fun k _ => p k) f.name doc' (hkeys doc' h' ▸ hn), hj] at hy
    simp only [Option.filter, hp, if_true, Option.some.injEq] at hy
    rw [hi, hj, hexact f hf i j ⟨hicheck strict, hicomplete⟩ ⟨hjcheck strict, hjcomplete⟩
      (hy ▸ hpy)]
  · rw [Assoc.find_eq_none name doc (hkeys doc h ▸ hname),
      Assoc.find_eq_none name doc' (hkeys doc' h' ▸ hname)]

theorem readFields_lenient (co : Coercions) (fields : List Field) (doc out : Doc)
    (hlenient : ∀ f ∈ fields, f.kind.Lenient) (h : readFields strict fields doc = .ok out) :
    readFields co fields doc = .ok out := by
  induction fields generalizing out with
  | nil => exact h
  | cons f fields ih =>
      have htail := fun g hg => hlenient g (List.mem_cons_of_mem f hg)
      obtain ⟨j, j', rest, hj, hc, hr, rfl⟩ | ⟨hj, hd, hr⟩ :=
        readFields_cons_ok strict f fields doc out h
      · simp [readFields, hj, hlenient f List.mem_cons_self co j j' hc, ih rest htail hr, bind,
          Except.bind, pure, Except.pure]
      · obtain ⟨d, hd⟩ := Option.isSome_iff_exists.mp hd
        simp [readFields, hj, hd, ih out htail hr]

namespace Kind

variable (closed : Bool) (fields : List Field) (hn : (names fields).Nodup)

theorem lenient_record (hlenient : ∀ f ∈ fields, f.kind.Lenient) :
    (record closed fields hn).Lenient := by
  intro co j j' h
  cases j with
  | obj doc =>
      simp only [record, bind, Except.bind] at h ⊢
      cases hr : readFields strict fields doc with
      | error e => simp [hr] at h
      | ok out =>
          rw [hr] at h
          rw [readFields_lenient co fields doc out hlenient hr]
          exact h
  | null | bool _ | num _ | str _ | arr _ => cases h

/-- A settled record is a completed one. -/
theorem Settled.of_record {closed : Bool} {fields : List Field} {hn : (names fields).Nodup}
    {j : Json} (h : (record closed fields hn).Settled j) :
    ∃ doc, j = .obj doc ∧ Conforms fields doc := by
  obtain ⟨hcheck, hcomplete⟩ := h
  cases j with
  | obj doc =>
      refine ⟨doc, rfl, ?_, by simpa [record] using hcomplete⟩
      intro co
      simp only [record, bind, Except.bind] at hcheck
      cases hr : readFields strict fields doc with
      | error e => simp [hr] at hcheck
      | ok out =>
          simp only [hr] at hcheck
          split at hcheck
          next => cases hcheck
          next =>
            cases hcheck
            exact readFields_stable strict co fields doc doc hn hr
  | null | bool _ | num _ | str _ | arr _ => cases hcheck

theorem exact_record (hexact : ∀ f ∈ fields, f.kind.Exact) : (record closed fields hn).Exact := by
  intro i j hi hj h
  obtain ⟨doc, rfl, hdoc⟩ := hi.of_record
  obtain ⟨doc', rfl, hdoc'⟩ := hj.of_record
  refine congrArg Json.obj (hdoc.ext hdoc' fun f _ => ?_)
  exact hdoc.find_eq hdoc' hn hexact (fun _ => true) (by simpa using h) f.name rfl

end Kind

end Schema
