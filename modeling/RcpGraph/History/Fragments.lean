import RcpGraph.History.Pages
import RcpGraph.Lib.JsonSize

/-!
Fragments of an entity change. A value whose text is longer than a chunk is cut into texts
that fit one, and the fragments of the fields are batched into changes that fit a page.
-/

namespace RcpGraph.Pages

def GRAPH_HISTORY_VALUE_CHUNK_BYTES : Nat := 8 * 1024

inductive EntityKind where
  | node
  | edge
  | proposal
  | ambiguity
  | glossary
  | global
  deriving DecidableEq, Repr

def EntityKind.name : EntityKind → String
  | node => "node"
  | edge => "edge"
  | proposal => "proposal"
  | ambiguity => "ambiguity"
  | glossary => "glossary"
  | global => "global"

inductive EntityVerb where
  | created
  | updated
  | removed
  deriving DecidableEq, Repr

def EntityVerb.name : EntityVerb → String
  | created => "created"
  | updated => "updated"
  | removed => "removed"

structure FieldChange where
  field : String
  before : Json := .null
  after : Json := .null
  continued : Bool := false
  deriving DecidableEq

structure EntityChange where
  kind : EntityKind
  id : String
  type : Option String := none
  title : Option String := none
  change : EntityVerb
  fields : List FieldChange := []
  deriving DecidableEq

def FieldChange.encode (f : FieldChange) : Json :=
  .obj [("field", .str f.field), ("before", f.before), ("after", f.after),
    ("continued", .bool f.continued)]

def EntityChange.encode (c : EntityChange) : Json :=
  .obj [("kind", .str c.kind.name), ("id", .str c.id), ("type", Json.ofOption c.type),
    ("title", Json.ofOption c.title), ("change", .str c.change.name),
    ("fields", .arr (c.fields.map FieldChange.encode))]

/-- `model_dump_json`. -/
def EntityChange.dump (c : EntityChange) : String := JsonText.text c.encode

/-- The bytes `_parts` counts for a character. -/
def partWidth (c : Char) : Nat :=
  if c = '"' ∨ c = '\\' ∨ c.toNat = 8 ∨ c.toNat = 12 ∨ c = '\n' ∨ c = '\r' ∨ c = '\t' then 2
  else if c.toNat < 32 then 6
  else c.utf8Size

/-- The loop of `_parts`: the text since the last cut, and its size. -/
def cutText : List Char → List Char → Nat → List String
  | [], current, _ => [String.ofList current]
  | c :: cs, current, size =>
      if GRAPH_HISTORY_VALUE_CHUNK_BYTES < size + partWidth c then
        String.ofList current :: cutText cs [c] (partWidth c)
      else cutText cs (current ++ [c]) (size + partWidth c)

/-- Large structured values are a stream of JSON text; strings remain raw text. -/
def exactText (value : Json) : String :=
  match value with
  | .str s => s
  | value => JsonText.dumps value

/-- `_parts`. -/
def parts (value : Json) : List Json :=
  if (JsonText.dumps value).utf8ByteSize ≤ GRAPH_HISTORY_VALUE_CHUNK_BYTES then [value]
  else (cutText (exactText value).toList [] 0).map .str

/-- The fragments of one field. -/
def fieldFragments (f : FieldChange) : List FieldChange :=
  let before := parts f.before
  let after := parts f.after
  let count := max before.length after.length
  (List.range count).map fun index =>
    { field := f.field
      before := before.getD index .null
      after := after.getD index .null
      continued := decide (index + 1 < count) }

/-- A change with some of its fragments; an oversized title is left out. -/
def EntityChange.holding (change : EntityChange) (fields : List FieldChange) : EntityChange :=
  { change with
    title := change.title.filter fun t =>
      (JsonText.dumps (.str t)).utf8ByteSize ≤ GRAPH_HISTORY_VALUE_CHUNK_BYTES
    fields }

@[simp] theorem EntityChange.holding_fields (change : EntityChange) (fields : List FieldChange) :
    (change.holding fields).fields = fields := rfl

/-- With one more fragment the pending ones would not fit a batch. -/
def EntityChange.overflows (change : EntityChange) (pending : List FieldChange)
    (fragment : FieldChange) : Bool :=
  !pending.isEmpty &&
    decide (3 * GRAPH_HISTORY_VALUE_CHUNK_BYTES <
      (change.holding (pending ++ [fragment])).dump.utf8ByteSize)

/-- One more fragment: what is yielded and what stays pending. -/
def addFragment (change : EntityChange) (many : Bool) (fragment : FieldChange)
    (pending : List FieldChange) : List EntityChange × List FieldChange :=
  let flushed := if change.overflows pending fragment then [change.holding pending] else []
  let pending := if change.overflows pending fragment then [fragment] else pending ++ [fragment]
  if many then (flushed ++ [change.holding pending], []) else (flushed, pending)

/-- The loop of `_fragments`, over the fragments of all fields. -/
def fragmentsFrom (change : EntityChange) :
    List (Bool × FieldChange) → List FieldChange → List EntityChange
  | [], pending => if pending.isEmpty then [] else [change.holding pending]
  | (many, fragment) :: rest, pending =>
      let next := addFragment change many fragment pending
      next.1 ++ fragmentsFrom change rest next.2

/-- `_fragments`. -/
def fragments (change : EntityChange) : List EntityChange :=
  fragmentsFrom change
    (change.fields.flatMap fun f =>
      (fieldFragments f).map fun fragment => (decide (1 < (fieldFragments f).length), fragment))
    []

section Parts

theorem partWidth_eq (c : Char) : partWidth c = JsonText.width c := (JsonText.width_eq c).symm

/-- The cuts leave nothing out. -/
theorem join_cutText (cs current : List Char) (size : Nat) :
    String.join (cutText cs current size) = String.ofList (current ++ cs) := by
  induction cs generalizing current size with
  | nil => simp [cutText]
  | cons c cs ih =>
      rw [cutText]
      split
      · rw [String.join_cons, ih, ← String.ofList_append, List.singleton_append]
      · rw [ih, List.append_assoc, List.singleton_append]

/-- Every piece fits a chunk. -/
theorem width_cutText (cs current : List Char) (size : Nat) (hsize : size = JsonText.widths current)
    (hfits : size ≤ GRAPH_HISTORY_VALUE_CHUNK_BYTES) :
    ∀ piece ∈ cutText cs current size,
      JsonText.widths piece.toList ≤ GRAPH_HISTORY_VALUE_CHUNK_BYTES := by
  induction cs generalizing current size with
  | nil =>
      intro piece hpiece
      rw [cutText, List.mem_singleton] at hpiece
      rw [hpiece, String.toList_ofList]
      omega
  | cons c cs ih =>
      have hwidth := JsonText.width_le c
      intro piece hpiece
      rw [cutText, partWidth_eq] at hpiece
      split at hpiece
      · rcases List.mem_cons.mp hpiece with rfl | hrest
        · rw [String.toList_ofList]
          omega
        · refine ih [c] (JsonText.width c) (by simp) ?_ piece hrest
          unfold GRAPH_HISTORY_VALUE_CHUNK_BYTES
          omega
      · refine ih (current ++ [c]) _ ?_ (by omega) piece hpiece
        simp [hsize]

/-- The bytes of a value's encoding, without the quotes of a string. -/
def bareSize (value : Json) : Nat :=
  match value with
  | .str s => JsonText.widths s.toList
  | value => (JsonText.dumps value).utf8ByteSize

theorem bareSize_le (value : Json) : bareSize value ≤ (JsonText.dumps value).utf8ByteSize := by
  cases value with
  | str s =>
      have htext : JsonText.dumps (.str s) = String.ofList (JsonText.quote s) := rfl
      rw [htext, JsonText.size_quote]
      exact Nat.le_add_right _ 2
  | _ => exact Nat.le_refl _

theorem size_le_bareSize (value : Json) :
    (JsonText.text value).utf8ByteSize ≤ bareSize value + 2 := by
  rw [← JsonText.size_dumps]
  cases value with
  | str s =>
      have htext : JsonText.dumps (.str s) = String.ofList (JsonText.quote s) := rfl
      rw [htext, JsonText.size_quote]
      exact Nat.le_refl _
  | _ => exact Nat.le_add_right _ 2

theorem bareSize_parts (value : Json) :
    ∀ part ∈ parts value, bareSize part ≤ GRAPH_HISTORY_VALUE_CHUNK_BYTES := by
  intro part hpart
  unfold parts at hpart
  split at hpart
  next hsmall =>
    rw [List.mem_singleton.mp hpart]
    exact Nat.le_trans (bareSize_le value) hsmall
  next =>
    obtain ⟨piece, hpiece, rfl⟩ := List.mem_map.mp hpart
    exact width_cutText _ [] 0 rfl (Nat.zero_le _) piece hpiece

theorem parts_ne_nil (value : Json) : parts value ≠ [] := by
  unfold parts
  split
  · simp
  · cases (exactText value).toList with
    | nil => simp [cutText]
    | cons c cs =>
        rw [cutText]
        split
        · simp
        · intro h
          have hjoin := join_cutText cs ([] ++ [c]) (0 + partWidth c)
          rw [List.map_eq_nil_iff.mp h] at hjoin
          have := congrArg String.toList hjoin
          simp at this

end Parts

section Splits

/-- The shown parts carry a value: the value itself, or pieces of its text, before blanks. -/
def Carries (value : Json) (shown : List Json) : Prop :=
  ∃ blanks : Nat,
    (JsonText.dumps value).utf8ByteSize ≤ GRAPH_HISTORY_VALUE_CHUNK_BYTES ∧
        shown = value :: List.replicate blanks .null ∨
      GRAPH_HISTORY_VALUE_CHUNK_BYTES < (JsonText.dumps value).utf8ByteSize ∧
        ∃ pieces : List String, String.join pieces = exactText value ∧
          shown = pieces.map .str ++ List.replicate blanks .null

/-- The fragments of one field: its name, its two values, and which fragment is the last. -/
structure Splits (f : FieldChange) (group : List FieldChange) : Prop where
  name : ∀ g ∈ group, g.field = f.field
  continued : group.map (·.continued) = List.replicate (group.length - 1) true ++ [false]
  before : Carries f.before (group.map (·.before))
  after : Carries f.after (group.map (·.after))

theorem getD_range {α : Type} (xs : List α) (default : α) (n : Nat) (h : xs.length ≤ n) :
    (List.range n).map (fun i => xs.getD i default) =
      xs ++ List.replicate (n - xs.length) default := by
  apply List.ext_getElem?
  intro i
  rw [List.getElem?_map, List.getElem?_append]
  by_cases hi : i < n
  · rw [List.getElem?_range hi, Option.map_some, List.getD_eq_getElem?_getD]
    split
    next hx => rw [List.getElem?_eq_getElem hx, Option.getD_some]
    next hx =>
      rw [List.getElem?_eq_none (by omega), Option.getD_none,
        List.getElem?_replicate_of_lt (by omega)]
  · rw [List.getElem?_eq_none (by simpa using hi), Option.map_none, if_neg (by omega),
      List.getElem?_eq_none (by simp; omega)]

theorem carries_parts (value : Json) (n : Nat) (h : (parts value).length ≤ n) :
    Carries value ((List.range n).map fun i => (parts value).getD i .null) := by
  rw [getD_range _ _ _ h]
  by_cases hsmall : (JsonText.dumps value).utf8ByteSize ≤ GRAPH_HISTORY_VALUE_CHUNK_BYTES
  · refine ⟨n - (parts value).length, .inl ⟨hsmall, ?_⟩⟩
    rw [parts, if_pos hsmall, List.singleton_append]
  · refine ⟨n - (parts value).length, .inr ⟨Nat.lt_of_not_le hsmall,
      cutText (exactText value).toList [] 0, ?_, ?_⟩⟩
    · rw [join_cutText, List.nil_append, String.ofList_toList]
    · rw [parts, if_neg hsmall]

theorem continued_range (n : Nat) (h : 0 < n) :
    (List.range n).map (fun i => decide (i + 1 < n)) = List.replicate (n - 1) true ++ [false] := by
  obtain ⟨n, rfl⟩ := Nat.exists_eq_succ_of_ne_zero (Nat.ne_of_gt h)
  rw [List.range_succ, List.map_append, List.map_cons, List.map_nil, Nat.succ_sub_one]
  congr 1
  · rw [List.eq_replicate_iff]
    refine ⟨by simp, fun b hb => ?_⟩
    obtain ⟨i, hi, rfl⟩ := List.mem_map.mp hb
    have := List.mem_range.mp hi
    simp only [decide_eq_true_eq]
    omega
  · simp

theorem splits_fieldFragments (f : FieldChange) : Splits f (fieldFragments f) := by
  have hpos : 0 < max (parts f.before).length (parts f.after).length :=
    Nat.lt_of_lt_of_le (List.length_pos_iff.mpr (parts_ne_nil f.before)) (Nat.le_max_left _ _)
  have hlength : (fieldFragments f).length = max (parts f.before).length (parts f.after).length := by
    simp [fieldFragments]
  refine ⟨?_, ?_, ?_, ?_⟩
  · intro g hg
    obtain ⟨i, -, rfl⟩ := List.mem_map.mp hg
    rfl
  · rw [hlength, ← continued_range _ hpos, fieldFragments, List.map_map]
    rfl
  · rw [fieldFragments, List.map_map]
    exact carries_parts f.before _ (Nat.le_max_left _ _)
  · rw [fieldFragments, List.map_map]
    exact carries_parts f.after _ (Nat.le_max_right _ _)

/-- Both values of a fragment fit a chunk. -/
theorem bareSize_fieldFragments (f g : FieldChange) (hg : g ∈ fieldFragments f) :
    bareSize g.before ≤ GRAPH_HISTORY_VALUE_CHUNK_BYTES ∧
      bareSize g.after ≤ GRAPH_HISTORY_VALUE_CHUNK_BYTES := by
  have hpart : ∀ (value : Json) (i : Nat),
      bareSize ((parts value).getD i .null) ≤ GRAPH_HISTORY_VALUE_CHUNK_BYTES := by
    intro value i
    rw [List.getD_eq_getElem?_getD]
    cases hi : (parts value)[i]? with
    | none => decide
    | some part => exact bareSize_parts value part (List.mem_of_getElem? hi)
  obtain ⟨i, -, rfl⟩ := List.mem_map.mp hg
  exact ⟨hpart f.before i, hpart f.after i⟩

end Splits

section Batches

/-- A change with these fragments holds one fragment, or stays within three chunks. -/
def Held (change : EntityChange) (fragments : List FieldChange) : Prop :=
  fragments.length = 1 ∨
    (change.holding fragments).dump.utf8ByteSize ≤ 3 * GRAPH_HISTORY_VALUE_CHUNK_BYTES

/-- What adding a fragment yields and leaves pending. -/
theorem addFragment_spec (change : EntityChange) (many : Bool) (fragment : FieldChange)
    (pending : List FieldChange) (h : pending = [] ∨ Held change pending) :
    ((addFragment change many fragment pending).1.flatMap (·.fields) ++
        (addFragment change many fragment pending).2 = pending ++ [fragment]) ∧
      (∀ g ∈ (addFragment change many fragment pending).1, g.fields ≠ [] ∧
        g = change.holding g.fields ∧ Held change g.fields) ∧
      ((addFragment change many fragment pending).2 = [] ∨
        Held change (addFragment change many fragment pending).2) := by
  have hone : Held change [fragment] := .inl rfl
  cases hfull : change.overflows pending fragment with
  | true =>
      rw [EntityChange.overflows, Bool.and_eq_true, Bool.not_eq_true', List.isEmpty_eq_false_iff]
        at hfull
      have hheld := h.resolve_left hfull.1
      have hfull' : change.overflows pending fragment = true := by
        simp [EntityChange.overflows, hfull]
      cases many with
      | true => simp [addFragment, hfull', hfull.1, hheld, hone]
      | false => simp [addFragment, hfull', hfull.1, hheld, hone]
  | false =>
      have hheld : Held change (pending ++ [fragment]) := by
        by_cases hnil : pending = []
        · rw [hnil]
          exact hone
        · rw [EntityChange.overflows, List.isEmpty_eq_false_iff.mpr hnil, Bool.not_false,
            Bool.true_and, decide_eq_false_iff_not] at hfull
          exact .inr (Nat.not_lt.mp hfull)
      cases many with
      | true => simp [addFragment, hfull, hheld]
      | false => simp [addFragment, hfull, hheld]

/-- The changes of a run of fragments hold them in order, and each stays small. -/
theorem fragmentsFrom_spec (change : EntityChange) (items : List (Bool × FieldChange))
    (pending : List FieldChange) (h : pending = [] ∨ Held change pending) :
    (fragmentsFrom change items pending).flatMap (·.fields) = pending ++ items.map Prod.snd ∧
      ∀ g ∈ fragmentsFrom change items pending, g.fields ≠ [] ∧ g = change.holding g.fields ∧
        Held change g.fields := by
  induction items generalizing pending with
  | nil =>
      cases pending with
      | nil => exact ⟨rfl, by simp [fragmentsFrom]⟩
      | cons f fs =>
          have hheld := h.resolve_left (List.cons_ne_nil f fs)
          simp [fragmentsFrom, hheld]
  | cons item items ih =>
      obtain ⟨many, fragment⟩ := item
      obtain ⟨hfields, hyielded, hpending⟩ := addFragment_spec change many fragment pending h
      obtain ⟨hrest, hlater⟩ := ih (addFragment change many fragment pending).2 hpending
      rw [fragmentsFrom]
      constructor
      · rw [List.flatMap_append, hrest, ← List.append_assoc, hfields, List.append_assoc]
        rfl
      · intro g hg
        rcases List.mem_append.mp hg with hg | hg
        · exact hyielded g hg
        · exact hlater g hg

end Batches

section Sizes

/-- A change without its title and fields. -/
def EntityChange.label (change : EntityChange) : EntityChange :=
  { change with title := none, fields := [] }

theorem size_shownTitle (change : EntityChange) (fields : List FieldChange) :
    (JsonText.text (Json.ofOption (change.holding fields).title)).utf8ByteSize ≤
      GRAPH_HISTORY_VALUE_CHUNK_BYTES := by
  have hnull : (JsonText.text .null).utf8ByteSize ≤ GRAPH_HISTORY_VALUE_CHUNK_BYTES := by
    decide +kernel
  rw [EntityChange.holding]
  cases change.title with
  | none => exact hnull
  | some t =>
      rw [Option.filter]
      split
      next h => exact of_decide_eq_true h
      next => exact hnull

/-- The size of a change with one fragment, from the sizes of its parts. -/
theorem size_holding_one (change : EntityChange) (g : FieldChange)
    (hbefore : bareSize g.before ≤ GRAPH_HISTORY_VALUE_CHUNK_BYTES)
    (hafter : bareSize g.after ≤ GRAPH_HISTORY_VALUE_CHUNK_BYTES) :
    (change.holding [g]).dump.utf8ByteSize ≤
      change.label.dump.utf8ByteSize + (quoted g.field).utf8ByteSize +
        3 * GRAPH_HISTORY_VALUE_CHUNK_BYTES + 64 := by
  have htitle : (JsonText.text (Json.ofOption (change.holding [g]).title)).utf8ByteSize ≤
      GRAPH_HISTORY_VALUE_CHUNK_BYTES := size_shownTitle change [g]
  have hb := size_le_bareSize g.before
  have ha := size_le_bareSize g.after
  have hfalse : (JsonText.text (.bool g.continued)).utf8ByteSize ≤ 5 := by
    cases g.continued <;> decide
  have hfield : (String.ofList (JsonText.quote "field")).utf8ByteSize = 7 := by decide +kernel
  have hbeforeKey : (String.ofList (JsonText.quote "before")).utf8ByteSize = 8 := by decide +kernel
  have hafterKey : (String.ofList (JsonText.quote "after")).utf8ByteSize = 7 := by decide +kernel
  have hcontinued : (String.ofList (JsonText.quote "continued")).utf8ByteSize = 11 := by
    decide +kernel
  have hnull : ("null".utf8ByteSize) = 4 := by decide +kernel
  have hcolon : (":".utf8ByteSize) = 1 := by decide +kernel
  have hcomma : (",".utf8ByteSize) = 1 := by decide +kernel
  have hopen : ("\x7b".utf8ByteSize) = 1 := by decide +kernel
  have hclose : ("\x7d".utf8ByteSize) = 1 := by decide +kernel
  simp only [EntityChange.dump, EntityChange.encode, EntityChange.label, EntityChange.holding,
    FieldChange.encode, JsonText.text, JsonText.texts, JsonText.fieldTexts, Text.join,
    List.map_cons, List.map_nil, String.utf8ByteSize_append, Json.ofOption, hfield, hbeforeKey,
    hafterKey, hcontinued, hnull, hcolon, hcomma, hopen, hclose, quoted] at htitle hfalse ⊢
  omega

end Sizes

/-- The fragments of a change list its fields in order, cut into bounded parts of their
values, and a change with short metadata has fragments that fit a page. -/
theorem fragments_lossless (change : EntityChange) :
    (∃ groups : List (List FieldChange),
      (fragments change).flatMap (·.fields) = groups.flatten ∧
        List.Forall₂ Splits change.fields groups) ∧
      (∀ g ∈ fragments change, g.fields ≠ [] ∧ g = change.holding g.fields) ∧
      (∀ g ∈ fragments change, ∀ f ∈ g.fields,
        bareSize f.before ≤ GRAPH_HISTORY_VALUE_CHUNK_BYTES ∧
          bareSize f.after ≤ GRAPH_HISTORY_VALUE_CHUNK_BYTES) ∧
      ((∀ f ∈ change.fields,
          change.label.dump.utf8ByteSize + (quoted f.field).utf8ByteSize ≤
            4 * GRAPH_HISTORY_VALUE_CHUNK_BYTES) →
        ∀ g ∈ fragments change, g.dump.utf8ByteSize ≤ GRAPH_HISTORY_PAGE_MAX_BYTES) := by
  obtain ⟨hfields, hyielded⟩ := fragmentsFrom_spec change
    (change.fields.flatMap fun f =>
      (fieldFragments f).map fun fragment => (decide (1 < (fieldFragments f).length), fragment))
    [] (.inl rfl)
  have hgroups : (fragments change).flatMap (·.fields) =
      (change.fields.map fieldFragments).flatten := by
    rw [fragments, hfields, List.nil_append, List.map_flatMap, List.flatMap_def]
    congr 1
    apply List.map_congr_left
    intro f _
    rw [List.map_map]
    exact List.map_id _
  have hmem : ∀ g ∈ fragments change, ∀ f ∈ g.fields,
      ∃ f' ∈ change.fields, f ∈ fieldFragments f' := by
    intro g hg f hf
    have hflat : f ∈ (change.fields.map fieldFragments).flatten := by
      rw [← hgroups]
      exact List.mem_flatMap.mpr ⟨g, hg, hf⟩
    obtain ⟨group, hgroup, hf⟩ := List.mem_flatten.mp hflat
    obtain ⟨f', hf', rfl⟩ := List.mem_map.mp hgroup
    exact ⟨f', hf', hf⟩
  refine ⟨⟨_, hgroups, ?_⟩, fun g hg => ⟨(hyielded g hg).1, (hyielded g hg).2.1⟩, ?_, ?_⟩
  · rw [List.forall₂_map_right_iff, List.forall₂_same]
    exact fun f _ => splits_fieldFragments f
  · intro g hg f hf
    obtain ⟨f', -, hf'⟩ := hmem g hg f hf
    exact bareSize_fieldFragments f' f hf'
  · intro hshort g hg
    obtain ⟨hne, hholding, hheld⟩ := hyielded g hg
    rw [hholding]
    rcases hheld with hone | hsmall
    · obtain ⟨f, hf⟩ := List.length_eq_one_iff.mp hone
      obtain ⟨f', hmem', hf'⟩ := hmem g hg f (by simp [hf])
      obtain ⟨hbefore, hafter⟩ := bareSize_fieldFragments f' f hf'
      have hsize := size_holding_one change f hbefore hafter
      have hname := (splits_fieldFragments f').name f hf'
      have hmetadata := hshort f' hmem'
      rw [hname] at hsize
      rw [hf]
      unfold GRAPH_HISTORY_PAGE_MAX_BYTES
      unfold GRAPH_HISTORY_VALUE_CHUNK_BYTES at hsize hmetadata
      omega
    · unfold GRAPH_HISTORY_PAGE_MAX_BYTES
      unfold GRAPH_HISTORY_VALUE_CHUNK_BYTES at hsmall
      omega

end RcpGraph.Pages
