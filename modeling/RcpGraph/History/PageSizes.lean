import RcpGraph.History.Pages

/-!
Cursors and sizes. A cursor reads back as the position it was made from, and what a page
counts while it is filled is the size of its text.
-/

namespace RcpGraph.Pages

section Cursors

theorem key_code (key : Key) {c : Char} (hc : c ∈ key.text.toList) :
    48 ≤ c.toNat ∧ c.toNat ≤ 57 ∨ 97 ≤ c.toNat ∧ c.toNat ≤ 102 := by
  rcases key.hex c hc with hdigit | ⟨hlow, hhigh⟩
  · left
    rw [Char.isDigit, Bool.and_eq_true, decide_eq_true_eq, decide_eq_true_eq] at hdigit
    exact hdigit
  · right
    exact ⟨hlow, hhigh⟩

theorem plain_key (key : Key) : ∀ c ∈ key.text.toList, JsonText.Plain c := by
  intro c hc
  have hcode := key_code key hc
  refine ⟨?_, ?_, by omega⟩
  · rintro rfl
    revert hcode
    decide
  · rintro rfl
    revert hcode
    decide

theorem text?_bytes (s : String) : text? (bytes s) = some s := by
  show (if h : s.toByteArray.IsValidUTF8 then some (String.fromUTF8 s.toByteArray h) else none) =
    some s
  exact dif_pos s.isValidUTF8

theorem length_bytes (s : String) : (bytes s).length = s.utf8ByteSize := rfl

theorem pair_bytes (key : Key) (offset : Nat) :
    (bytes (JsonText.pair key.text offset)).length =
      69 + (Nat.toDigits 10 offset).length := by
  rw [length_bytes]
  unfold JsonText.pair
  rw [JsonText.quote_plain (plain_key key), JsonText.size_of_narrow]
  · simp only [List.length_append, List.length_cons, List.length_nil, key.length]
    omega
  · intro c hc
    simp only [List.cons_append, List.mem_cons, List.mem_append, List.not_mem_nil, or_false,
      false_or, List.append_assoc] at hc
    apply JsonText.narrow_of_code
    rcases hc with rfl | rfl | hc | rfl | rfl | hc | rfl
    · decide
    · decide
    · have := key_code key hc
      omega
    · decide
    · decide
    · exact JsonText.code_digit hc
    · decide

theorem length_cursorAt (key : Key) {offset : Nat} (h : offset < 2 ^ 63) :
    (cursorAt key offset).length ≤ GRAPH_HISTORY_CURSOR_MAX_BYTES := by
  have hdigits : (Nat.toDigits 10 offset).length ≤ 19 := by
    rw [Nat.length_toDigits_le_iff (by decide) (by decide)]
    omega
  unfold cursorAt GRAPH_HISTORY_CURSOR_MAX_BYTES
  rw [String.length_ofList, Base64.length_unpadded, pair_bytes]
  omega

/-- A cursor decodes to the position it was made from. -/
theorem position_cursorAt (key : Key) {offset : Nat} (h : offset < 2 ^ 63) :
    position (cursorAt key offset) = .ok (key.text, offset) := by
  have hread : ((Base64.decode (Base64.padded (cursorAt key offset).toList)).bind text?).bind
      JsonText.loads = some (.arr [.str key.text, .num offset]) := by
    unfold cursorAt
    rw [String.toList_ofList, Base64.decode_padded, Option.bind_some, text?_bytes,
      Option.bind_some, JsonText.loads_pair (plain_key key)]
  unfold position
  rw [if_neg (Nat.not_lt.mpr (length_cursorAt key h)), hread]

theorem offsetOf_cursorAt (key : Key) {offset : Nat} (h : offset < 2 ^ 63) :
    offsetOf (some (cursorAt key offset)) key = .ok offset := by
  unfold offsetOf
  dsimp only
  rw [position_cursorAt key h]
  exact if_neg (not_not.mpr rfl)

theorem offsetOf_other {key key' : Key} (hne : key'.text ≠ key.text) {offset : Nat}
    (h : offset < 2 ^ 63) :
    offsetOf (some (cursorAt key' offset)) key =
      .error "history cursor does not match this query" := by
  unfold offsetOf
  dsimp only
  rw [position_cursorAt key' h]
  exact if_pos hne

theorem cursor_characters (key : Key) (offset : Nat) :
    ∀ c ∈ (cursorAt key offset).toList, JsonText.Plain c ∧ c.utf8Size = 1 := by
  intro c hc
  unfold cursorAt at hc
  rw [String.toList_ofList, Base64.unpadded_encode] at hc
  obtain ⟨n, hn, rfl⟩ := Base64.mem_characters hc
  obtain ⟨-, -, -, hcode, hquote, hslash, hsize⟩ := Base64.char_spec n hn
  exact ⟨⟨hquote, hslash, hcode⟩, hsize⟩

/-- A cursor needs no escapes. -/
theorem size_quoted_cursor (key : Key) (offset : Nat) :
    (quoted (cursorAt key offset)).utf8ByteSize = (cursorAt key offset).length + 2 := by
  have hchars := cursor_characters key offset
  unfold quoted
  rw [JsonText.quote_plain fun c hc => (hchars c hc).1, JsonText.size_of_narrow]
  · rw [← String.length_toList]
    simp
  · intro c hc
    simp only [List.cons_append, List.mem_cons, List.mem_append, List.not_mem_nil, or_false] at hc
    rcases hc with rfl | hc | rfl
    · decide
    · exact (hchars c hc).2
    · decide

end Cursors

section Sizes

variable {Change Step Entry : Type} {codecs : Codecs Change Step Entry}

theorem size_join (items : List String) (item : String) :
    (Text.join "," (items ++ [item])).utf8ByteSize =
      (Text.join "," items).utf8ByteSize + item.utf8ByteSize + (!items.isEmpty).toNat := by
  induction items with
  | nil => simp [Text.join]
  | cons first items ih =>
      cases items with
      | nil =>
          simp only [List.cons_append, List.nil_append, Text.join, String.utf8ByteSize_append]
          have hcomma : (",".utf8ByteSize) = 1 := rfl
          rw [hcomma]
          show first.utf8ByteSize + 1 + item.utf8ByteSize =
            first.utf8ByteSize + item.utf8ByteSize + 1
          omega
      | cons second items =>
          have hcomma : (",".utf8ByteSize) = 1 := rfl
          simp only [List.cons_append, Text.join, String.utf8ByteSize_append, hcomma] at ih ⊢
          rw [ih]
          simp only [List.isEmpty_cons, Bool.not_false, Bool.toNat_true]
          omega

theorem size_array (items : List String) (item : String) :
    (array (items ++ [item])).utf8ByteSize =
      (array items).utf8ByteSize + item.utf8ByteSize + (!items.isEmpty).toNat := by
  unfold array
  simp only [String.utf8ByteSize_append, size_join]
  omega

/-- A list in the middle of a text grows by an item and perhaps a comma. -/
theorem size_grown (before after : String) (items : List String) (item : String) :
    (before ++ array (items ++ [item]) ++ after).utf8ByteSize =
      (before ++ array items ++ after).utf8ByteSize +
        (item.utf8ByteSize + (!items.isEmpty).toNat) := by
  rw [String.utf8ByteSize_append, String.utf8ByteSize_append, String.utf8ByteSize_append,
    String.utf8ByteSize_append, size_array]
  omega

theorem add_three (a b c d : Nat) : a + b + c + d = a + c + d + b := by
  omega

/-- The unit is the encoding of an item of the kind. -/
def Encoded (codecs : Codecs Change Step Entry) (unit : String) : Kind → Prop
  | .change => ∃ change, unit = codecs.change.dump change
  | .step => ∃ step, unit = codecs.step.dump step
  | .entry => ∃ entry, unit = codecs.entry.dump entry

/-- What a page becomes with one more unit. -/
structure Added (codecs : Codecs Change Step Entry) (page : Page Change Step Entry)
    (unit : String) (kind : Kind) (page' : Page Change Step Entry) : Prop where
  texts : ∀ k, page'.texts codecs k = page.texts codecs k ++ if k = kind then [unit] else []
  cursor : page'.cursor = page.cursor
  kinds : ∀ changeCount index, page'.kind changeCount index = page.kind changeCount index
  size : (page'.body codecs).utf8ByteSize =
    (page.body codecs).utf8ByteSize + (unit.utf8ByteSize + (page.hasItems kind).toNat)

/-- An encoded unit is validated as what it encodes. -/
theorem validate_encoded {α : Type} {codec : Codec α} {unit : String} {a : α}
    (hunit : ∃ b, unit = codec.dump b) (ha : codec.validate unit = some a) :
    codec.dump a = unit := by
  obtain ⟨b, rfl⟩ := hunit
  rw [codec.validate_dump] at ha
  cases ha
  rfl

theorem size_entry (page : GraphLogPage Entry) (e : Entry) :
    (Page.body codecs (.log { page with entries := page.entries ++ [e] })).utf8ByteSize =
      (Page.body codecs (.log page)).utf8ByteSize +
        ((codecs.entry.dump e).utf8ByteSize + (!page.entries.isEmpty).toNat) := by
  unfold Page.body
  dsimp only
  rw [List.map_append, List.map_cons, List.map_nil, size_grown, List.isEmpty_map]

theorem size_step (page : GraphDiffPage Change Step) (s : Step) :
    (Page.body codecs (.diff { page with steps := page.steps ++ [s] })).utf8ByteSize =
      (Page.body codecs (.diff page)).utf8ByteSize +
        ((codecs.step.dump s).utf8ByteSize + (!page.steps.isEmpty).toNat) := by
  unfold Page.body
  dsimp only
  rw [List.map_append, List.map_cons, List.map_nil, size_grown, List.isEmpty_map]

theorem size_change (page : GraphDiffPage Change Step) (c : Change) :
    (Page.body codecs (.diff { page with changes := page.changes ++ [c] })).utf8ByteSize =
      (Page.body codecs (.diff page)).utf8ByteSize +
        ((codecs.change.dump c).utf8ByteSize + (!page.changes.isEmpty).toNat) := by
  unfold Page.body
  dsimp only
  rw [List.map_append, List.map_cons, List.map_nil, String.utf8ByteSize_append,
    String.utf8ByteSize_append, size_grown, List.isEmpty_map]
  conv => rhs; rw [String.utf8ByteSize_append, String.utf8ByteSize_append]
  exact add_three _ _ _ _

theorem size_second (a b c d e f g : String) :
    b.utf8ByteSize ≤ (a ++ b ++ c ++ d ++ e ++ f ++ g).utf8ByteSize := by
  simp only [String.utf8ByteSize_append]
  omega

theorem size_id (page : GraphLogPage Entry) :
    (quoted page.id).utf8ByteSize ≤ (Page.body codecs (.log page)).utf8ByteSize := by
  unfold Page.body
  exact size_second _ _ _ _ _ _ _

theorem add_added {page page' : Page Change Step Entry} {unit : String} {changeCount index : Nat}
    (hunit : Encoded codecs unit (page.kind changeCount index))
    (hadd : page.add codecs unit (page.kind changeCount index) = some page') :
    Added codecs page unit (page.kind changeCount index) page' := by
  cases page with
  | log page =>
      obtain ⟨e, he, rfl⟩ := Option.map_eq_some_iff.mp hadd
      have hdump := validate_encoded hunit he
      refine ⟨?_, rfl, fun _ _ => rfl, ?_⟩
      · intro k
        cases k with
        | change => rfl
        | step => rfl
        | entry => simp [Page.texts, Page.entries, Page.kind, hdump]
      · rw [size_entry, hdump]
        rfl
  | diff page =>
      unfold Page.kind at hunit hadd ⊢
      dsimp only at hunit hadd ⊢
      split at hadd
      · rename_i hlt
        rw [if_pos hlt] at hunit ⊢
        obtain ⟨c, hc, rfl⟩ := Option.map_eq_some_iff.mp hadd
        have hdump := validate_encoded hunit hc
        refine ⟨?_, rfl, fun _ _ => rfl, ?_⟩
        · intro k
          cases k with
          | change => simp [Page.texts, Page.changes, hdump]
          | step => simp [Page.texts, Page.steps]
          | entry => rfl
        · rw [size_change, hdump]
          rfl
      · rename_i hlt
        rw [if_neg hlt] at hunit ⊢
        obtain ⟨s, hs, rfl⟩ := Option.map_eq_some_iff.mp hadd
        have hdump := validate_encoded hunit hs
        refine ⟨?_, rfl, fun _ _ => rfl, ?_⟩
        · intro k
          cases k with
          | change => simp [Page.texts, Page.changes]
          | step => simp [Page.texts, Page.steps, hdump]
          | entry => rfl
        · rw [size_step, hdump]
          rfl

theorem add_isSome {page : Page Change Step Entry} {unit : String} {changeCount index : Nat}
    (hunit : Encoded codecs unit (page.kind changeCount index)) :
    ∃ page', page.add codecs unit (page.kind changeCount index) = some page' := by
  cases page with
  | log page =>
      obtain ⟨e, rfl⟩ := hunit
      exact ⟨_, Option.map_eq_some_iff.mpr ⟨e, codecs.entry.validate_dump e, rfl⟩⟩
  | diff page =>
      unfold Page.kind at hunit ⊢
      dsimp only at hunit ⊢
      split at hunit
      next hlt =>
        obtain ⟨c, rfl⟩ := hunit
        rw [if_pos hlt]
        exact ⟨_, Option.map_eq_some_iff.mpr ⟨c, codecs.change.validate_dump c, rfl⟩⟩
      next hlt =>
        obtain ⟨s, rfl⟩ := hunit
        rw [if_neg hlt]
        exact ⟨_, Option.map_eq_some_iff.mpr ⟨s, codecs.step.validate_dump s, rfl⟩⟩

theorem withCursor_cursor (page : Page Change Step Entry) (cursor : Option String) :
    (page.withCursor cursor).cursor = cursor := by
  cases page with
  | log page => rfl
  | diff page => rfl

theorem withCursor_texts (page : Page Change Step Entry) (cursor : Option String) (k : Kind) :
    (page.withCursor cursor).texts codecs k = page.texts codecs k := by
  cases page with
  | log page => cases k <;> rfl
  | diff page => cases k <;> rfl

theorem size_dump (page : Page Change Step Entry) :
    (page.dump codecs).utf8ByteSize =
      (page.body codecs).utf8ByteSize + (nullable page.cursor).utf8ByteSize + 1 := by
  unfold Page.dump
  rw [String.utf8ByteSize_append, String.utf8ByteSize_append]
  rfl

/-- The cursor takes the place of the four bytes of `null`. -/
theorem size_withCursor (page : Page Change Step Entry) (cursor : Option String) :
    ((page.withCursor cursor).dump codecs).utf8ByteSize =
      (page.body codecs).utf8ByteSize + (nullable cursor).utf8ByteSize + 1 := by
  rw [size_dump, withCursor_cursor]
  cases page with
  | log page => rfl
  | diff page => rfl

theorem count_eq (codecs : Codecs Change Step Entry) (page : Page Change Step Entry) :
    page.count = (page.texts codecs .change).length + (page.texts codecs .step).length +
      (page.texts codecs .entry).length := by
  simp only [Page.count, Page.texts, List.length_map]

theorem Added.count {page page' : Page Change Step Entry} {unit : String} {kind : Kind}
    (h : Added codecs page unit kind page') : page'.count = page.count + 1 := by
  rw [count_eq codecs, count_eq codecs page, h.texts, h.texts, h.texts]
  cases kind <;> simp <;> omega

end Sizes

end RcpGraph.Pages
