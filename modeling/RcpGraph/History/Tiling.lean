import RcpGraph.History.PageSizes

/-!
The pages of a history answer tile it. Every page begins where the cursor before it says,
and holds at least one unit; its size was counted, and the count is its size.
-/

namespace RcpGraph.Pages

section Loop

variable {Change Step Entry : Type} {codecs : Codecs Change Step Entry} {key : Key}
  {changeCount offset : Nat}

/-- The units of one kind, in order. -/
def unitsOf (kindAt : Nat → Kind) (k : Kind) : Nat → List String → List String
  | _, [] => []
  | index, unit :: rest =>
      (if k = kindAt index then [unit] else []) ++ unitsOf kindAt k (index + 1) rest

/-- Every unit is the encoding of an item of its kind. -/
def EncodedFrom (codecs : Codecs Change Step Entry) (kindAt : Nat → Kind) :
    Nat → List String → Prop
  | _, [] => True
  | index, unit :: rest =>
      Encoded codecs unit (kindAt index) ∧ EncodedFrom codecs kindAt (index + 1) rest

/-- What a page holds when it is done: some of the units, and a cursor to the others. -/
structure Filled (codecs : Codecs Change Step Entry) (key : Key) (kindAt : Nat → Kind)
    (page : Page Change Step Entry) (index : Nat) (taken left : List String)
    (page' : Page Change Step Entry) : Prop where
  texts : ∀ k, page'.texts codecs k = page.texts codecs k ++ unitsOf kindAt k index taken
  cursor : page'.cursor = nextCursor key (index + taken.length) left
  count : page'.count ≤ GRAPH_HISTORY_PAGE_MAX_ENTRIES

/-- The page is done here. -/
theorem Filled.done (page : Page Change Step Entry) (kindAt : Nat → Kind) (index : Nat)
    (left : List String) (hcount : page.count ≤ GRAPH_HISTORY_PAGE_MAX_ENTRIES) :
    Filled codecs key kindAt page index [] left
      (page.withCursor (nextCursor key index left)) where
  texts k := by
    rw [withCursor_texts]
    exact (List.append_nil _).symm
  cursor := withCursor_cursor _ _
  count := by
    rw [count_eq codecs]
    simp only [withCursor_texts]
    rw [← count_eq]
    exact hcount

theorem fillFrom_ok {rest : List String} {index size : Nat} {page page' : Page Change Step Entry}
    {kindAt : Nat → Kind} (hkinds : ∀ i, page.kind changeCount i = kindAt i)
    (hencoded : EncodedFrom codecs kindAt index rest) (hcursor : page.cursor = none)
    (hsize : size = (page.body codecs).utf8ByteSize + 5) (hoffset : offset ≤ index)
    (hcount : page.count = index - offset)
    (hle : index - offset ≤ GRAPH_HISTORY_PAGE_MAX_ENTRIES)
    (hfits : index ≠ offset →
      size + cursorSize (nextCursor key index rest) - 4 ≤ GRAPH_HISTORY_PAGE_MAX_BYTES)
    (h : fillFrom codecs key changeCount offset rest index page size = .ok page') :
    ∃ taken left, rest = taken ++ left ∧ Filled codecs key kindAt page index taken left page' ∧
      (index ≠ offset ∨ taken ≠ [] →
        (page'.dump codecs).utf8ByteSize ≤ GRAPH_HISTORY_PAGE_MAX_BYTES) ∧
      (index = offset → rest ≠ [] → taken ≠ []) := by
  have hclosed : ∀ {page : Page Change Step Entry} {size : Nat} (cursor : Option String),
      size = (page.body codecs).utf8ByteSize + 5 →
      (nullable cursor).utf8ByteSize = cursorSize cursor →
      size + cursorSize cursor - 4 ≤ GRAPH_HISTORY_PAGE_MAX_BYTES →
      ((page.withCursor cursor).dump codecs).utf8ByteSize ≤ GRAPH_HISTORY_PAGE_MAX_BYTES := by
    intro page size cursor hsize hcursor hfits
    rw [size_withCursor, hcursor]
    omega
  induction rest generalizing index page size with
  | nil =>
      cases h
      refine ⟨[], [], rfl, Filled.done page kindAt index [] (by omega), ?_, ?_⟩
      · intro hmoved
        have hne : index ≠ offset := hmoved.resolve_right fun hnil => hnil rfl
        exact hclosed none hsize rfl (hfits hne)
      · intro _ hnil
        exact absurd rfl hnil
  | cons unit rest ih =>
      have hdone : index ≠ offset →
          (page.withCursor (some (cursorAt key index))) = page' →
          ∃ taken left, unit :: rest = taken ++ left ∧
            Filled codecs key kindAt page index taken left page' ∧
            (index ≠ offset ∨ taken ≠ [] →
              (page'.dump codecs).utf8ByteSize ≤ GRAPH_HISTORY_PAGE_MAX_BYTES) ∧
            (index = offset → unit :: rest ≠ [] → taken ≠ []) := by
        intro hne heq
        subst heq
        refine ⟨[], unit :: rest, rfl, Filled.done page kindAt index (unit :: rest) (by omega), ?_,
          fun heq => absurd heq hne⟩
        intro _
        exact hclosed (some (cursorAt key index)) hsize (size_quoted_cursor key index) (hfits hne)
      unfold fillFrom at h
      split at h
      · rename_i hfull
        have hne : index ≠ offset := by
          unfold GRAPH_HISTORY_PAGE_MAX_ENTRIES at hfull
          omega
        exact hdone hne (Except.ok.inj h)
      · rename_i hroom
        dsimp only at h
        split at h
        · split at h
          · cases h
          · rename_i hne
            exact hdone hne (Except.ok.inj h)
        · rename_i hbytes
          split at h
          · cases h
          · rename_i page₁ hadd
            rw [hkinds] at hadd hbytes
            have hadded := add_added (by rw [hkinds]; exact hencoded.1) (by rw [hkinds]; exact hadd)
            rw [hkinds] at hadded
            have hsize₁ : size + unit.utf8ByteSize + (page.hasItems (kindAt index)).toNat =
                (page₁.body codecs).utf8ByteSize + 5 := by
              rw [hadded.size]
              omega
            obtain ⟨taken, left, hsplit, hfilled, hbound, -⟩ := ih
              (fun i => (hadded.kinds changeCount i).trans (hkinds i)) hencoded.2
              (hadded.cursor.trans hcursor) hsize₁ (by omega) (by rw [hadded.count]; omega)
              (by omega) (fun _ => Nat.not_lt.mp hbytes) (by rw [← hkinds]; exact h)
            refine ⟨unit :: taken, left, by rw [hsplit]; rfl, ⟨?_, ?_, hfilled.count⟩, ?_, ?_⟩
            · intro k
              rw [hfilled.texts, hadded.texts, List.append_assoc]
              rfl
            · rw [hfilled.cursor, List.length_cons]
              congr 1
              omega
            · intro _
              exact hbound (.inl (by omega))
            · intro _ _ hnil
              cases hnil

/-- Where the first unit of a page fits beside a cursor of any size, the page can be filled. -/
theorem fillFrom_isOk {rest : List String} {index size : Nat} {page : Page Change Step Entry}
    {kindAt : Nat → Kind} (hkinds : ∀ i, page.kind changeCount i = kindAt i)
    (hencoded : EncodedFrom codecs kindAt index rest) (hbound : index + rest.length < 2 ^ 63)
    (hoffset : offset ≤ index)
    (hfirst : index = offset → ∀ unit ∈ rest,
      size + unit.utf8ByteSize + (page.hasItems (kindAt index)).toNat +
        GRAPH_HISTORY_CURSOR_MAX_BYTES ≤ GRAPH_HISTORY_PAGE_MAX_BYTES + 2) :
    ∃ page', fillFrom codecs key changeCount offset rest index page size = .ok page' := by
  induction rest generalizing index size page with
  | nil => exact ⟨_, rfl⟩
  | cons unit rest ih =>
      rw [List.length_cons] at hbound
      rw [fillFrom]
      split
      · exact ⟨_, rfl⟩
      · dsimp only
        rw [hkinds]
        split
        · rename_i hlarge
          split
          · rename_i hsame
            have hfits := hfirst hsame unit List.mem_cons_self
            have hcursor : cursorSize (nextCursor key (index + 1) rest) ≤
                GRAPH_HISTORY_CURSOR_MAX_BYTES + 2 := by
              rw [nextCursor]
              split
              · decide
              · exact Nat.add_le_add_right (length_cursorAt key (by omega)) 2
            omega
          · exact ⟨_, rfl⟩
        · obtain ⟨page', hadd⟩ := add_isSome (hkinds index ▸ hencoded.1)
          rw [hkinds] at hadd
          rw [hadd]
          have hadded := add_added (hkinds index ▸ hencoded.1) (hkinds index ▸ hadd)
          exact ih (fun i => (hadded.kinds changeCount i).trans (hkinds i)) hencoded.2 (by omega)
            (by omega) (fun hsame => absurd hsame (by omega))

end Loop

section Walks

variable {Change Step Entry : Type} {codecs : Codecs Change Step Entry}

namespace Answer

/-- The cursors that following the pages from the first one meets. -/
inductive Reaches (answer : Answer codecs) : Option String → Prop
  | first : Reaches answer none
  | next {cursor : Option String} {page : Page Change Step Entry} {cursor' : String} :
      Reaches answer cursor → answer.page cursor = .ok page → page.cursor = some cursor' →
      Reaches answer (some cursor')

/-- Its pages can be produced. -/
def Producible (answer : Answer codecs) : Prop :=
  ∀ cursor, answer.Reaches cursor → ∃ page, answer.page cursor = .ok page

/-- The pages from a cursor to the end. -/
inductive Walk (answer : Answer codecs) :
    Option String → List (Page Change Step Entry) → Prop
  | last {cursor : Option String} {page : Page Change Step Entry} :
      answer.page cursor = .ok page → page.cursor = none → Walk answer cursor [page]
  | next {cursor : Option String} {page : Page Change Step Entry} {cursor' : String}
      {pages : List (Page Change Step Entry)} :
      answer.page cursor = .ok page → page.cursor = some cursor' →
      Walk answer (some cursor') pages → Walk answer cursor (page :: pages)

/-- The units of a diff that are read as one kind. -/
def diffUnits (units : List String) (changeCount : Nat) : Kind → List String
  | .change => units.take changeCount
  | .step => units.drop changeCount
  | .entry => []

/-- The units that are read as one kind. -/
def unitsOfKind : Answer codecs → Kind → List String
  | .diff answer, kind => diffUnits answer.units answer.changeCount kind
  | .log answer, kind => if kind = .entry then answer.units else []

/-- What a page of the answer keeps to. -/
structure Bounded (answer : Answer codecs) (page : Page Change Step Entry) : Prop where
  count : page.count ≤ GRAPH_HISTORY_PAGE_MAX_ENTRIES
  size : (page.dump codecs).utf8ByteSize ≤ GRAPH_HISTORY_PAGE_MAX_BYTES
  cursor : ∀ cursor, page.cursor = some cursor → ∃ offset,
    cursor = cursorAt answer.key offset ∧ position cursor = .ok (answer.key.text, offset)

/-- Following the cursors ends; the items of the pages, in order, are what the units encode;
every page keeps to its bounds; and a cursor of another key is refused. -/
def Tiles (answer : Answer codecs) : Prop :=
  (∃ pages, answer.Walk none pages ∧
    (∀ kind, pages.flatMap (fun page => page.texts codecs kind) = answer.unitsOfKind kind) ∧
    ∀ page ∈ pages, answer.Bounded page) ∧
  ∀ (key : Key) offset, key.text ≠ answer.key.text → offset < 2 ^ 63 →
    answer.page (some (cursorAt key offset)) = .error "history cursor does not match this query"

def kindAt (answer : Answer codecs) (index : Nat) : Kind :=
  answer.envelope.kind answer.changeCount index

theorem length_lt (answer : Answer codecs) : answer.units.length < 2 ^ 63 := by
  cases answer with
  | diff answer => exact answer.length_lt
  | log answer => exact answer.length_lt

theorem unitsOf_log (index : Nat) (units : List String) (k : Kind) :
    unitsOf (fun _ => .entry) k index units = if k = .entry then units else [] := by
  induction units generalizing index with
  | nil => simp [unitsOf]
  | cons unit units ih =>
      rw [unitsOf, ih]
      split <;> rfl

/-- The units of a diff are its changes and then its steps. -/
theorem unitsOf_diff (count index : Nat) (units : List String) (k : Kind) :
    unitsOf (fun i => if i < count then .change else .step) k index units =
      diffUnits units (count - index) k := by
  induction units generalizing index with
  | nil => cases k <;> simp [unitsOf, diffUnits]
  | cons unit units ih =>
      rw [unitsOf, ih]
      by_cases hlt : index < count
      · rw [if_pos hlt, show count - index = count - (index + 1) + 1 by omega]
        cases k <;> rfl
      · rw [if_neg hlt, show count - index = 0 by omega, show count - (index + 1) = 0 by omega]
        cases k <;> rfl

theorem unitsOf_kindAt (answer : Answer codecs) (k : Kind) :
    unitsOf answer.kindAt k 0 answer.units = answer.unitsOfKind k := by
  cases answer with
  | diff answer => exact unitsOf_diff answer.changeCount 0 answer.units k
  | log answer => exact unitsOf_log 0 answer.units k

theorem encoded_log {index : Nat} {units : List String}
    (h : ∀ unit ∈ units, ∃ entry, unit = codecs.entry.dump entry) :
    EncodedFrom codecs (fun _ => .entry) index units := by
  induction units generalizing index with
  | nil => trivial
  | cons unit units ih =>
      exact ⟨h unit List.mem_cons_self, ih fun u hu => h u (List.mem_cons_of_mem unit hu)⟩

theorem encoded_diff {count index : Nat} {units : List String}
    (hchanges : ∀ unit ∈ units.take (count - index), ∃ change, unit = codecs.change.dump change)
    (hsteps : ∀ unit ∈ units.drop (count - index), ∃ step, unit = codecs.step.dump step) :
    EncodedFrom codecs (fun i => if i < count then .change else .step) index units := by
  induction units generalizing index with
  | nil => trivial
  | cons unit units ih =>
      by_cases hlt : index < count
      · have hcount : count - index = count - (index + 1) + 1 := by omega
        rw [hcount] at hchanges hsteps
        refine ⟨?_, ih (fun u hu => hchanges u (List.mem_cons_of_mem unit hu)) hsteps⟩
        dsimp only
        rw [if_pos hlt]
        exact hchanges unit List.mem_cons_self
      · have hcount : count - index = 0 := by omega
        have hnext : count - (index + 1) = 0 := by omega
        rw [hcount] at hsteps
        refine ⟨?_, ih ?_ ?_⟩
        · dsimp only
          rw [if_neg hlt]
          exact hsteps unit List.mem_cons_self
        · rw [hnext]
          intro u hu
          cases hu
        · rw [hnext]
          exact fun u hu => hsteps u (List.mem_cons_of_mem unit hu)

theorem encoded (answer : Answer codecs) : EncodedFrom codecs answer.kindAt 0 answer.units := by
  cases answer with
  | diff answer => exact encoded_diff answer.changes answer.steps
  | log answer => exact encoded_log answer.entries

/-- Where the units of a cursor begin. -/
def Begins (answer : Answer codecs) (cursor : Option String) (offset : Nat) : Prop :=
  (cursor = none ∧ offset = 0) ∨
    (cursor = some (cursorAt answer.key offset) ∧ offset < answer.units.length)

theorem page_eq {answer : Answer codecs} {cursor : Option String} {offset : Nat}
    (h : answer.Begins cursor offset) :
    answer.page cursor = fillFrom codecs answer.key answer.changeCount offset
      (answer.units.drop offset) offset answer.envelope
      (answer.envelope.dump codecs).utf8ByteSize := by
  have hbound := answer.length_lt
  unfold Answer.page fill
  rcases h with ⟨rfl, rfl⟩ | ⟨rfl, hlt⟩
  · rfl
  · rw [offsetOf_cursorAt answer.key (by omega)]
    simp only [bind, Except.bind, Option.isSome_some, true_and]
    rw [if_neg (by omega)]

theorem unitsOf_append (kindAt : Nat → Kind) (k : Kind) (index : Nat) (xs ys : List String) :
    unitsOf kindAt k index (xs ++ ys) =
      unitsOf kindAt k index xs ++ unitsOf kindAt k (index + xs.length) ys := by
  induction xs generalizing index with
  | nil => rfl
  | cons x xs ih =>
      rw [List.cons_append, unitsOf, ih, unitsOf, List.append_assoc, List.length_cons]
      congr 3
      omega

theorem encodedFrom_append {kindAt : Nat → Kind} {index : Nat} {xs ys : List String}
    (h : EncodedFrom codecs kindAt index (xs ++ ys)) :
    EncodedFrom codecs kindAt (index + xs.length) ys := by
  induction xs generalizing index with
  | nil => exact h
  | cons x xs ih =>
      have hrest := ih h.2
      rw [List.length_cons, show index + (xs.length + 1) = index + 1 + xs.length by omega]
      exact hrest

/-- The envelope is empty and has no cursor. -/
theorem envelope_empty (answer : Answer codecs) :
    (∀ k, answer.envelope.texts codecs k = []) ∧ answer.envelope.cursor = none := by
  cases answer with
  | diff answer =>
      refine ⟨?_, rfl⟩
      intro k
      cases k <;> rfl
  | log answer =>
      refine ⟨?_, rfl⟩
      intro k
      cases k <;> rfl

theorem Begins.le {answer : Answer codecs} {cursor : Option String} {offset : Nat}
    (h : answer.Begins cursor offset) : offset ≤ answer.units.length := by
  rcases h with ⟨-, rfl⟩ | ⟨-, hlt⟩
  · exact Nat.zero_le _
  · exact Nat.le_of_lt hlt

theorem encoded_drop (answer : Answer codecs) {offset : Nat} (hle : offset ≤ answer.units.length) :
    EncodedFrom codecs answer.kindAt offset (answer.units.drop offset) := by
  have hall := answer.encoded
  rw [← List.take_append_drop offset answer.units] at hall
  have hdrop := encodedFrom_append hall
  rwa [List.length_take, Nat.min_eq_left hle, Nat.zero_add] at hdrop

/-- What a page holds that was produced from an offset. -/
theorem page_filled {answer : Answer codecs} {cursor : Option String} {offset : Nat}
    (hbegins : answer.Begins cursor offset) {page : Page Change Step Entry}
    (h : answer.page cursor = .ok page) :
    ∃ taken left, answer.units.drop offset = taken ++ left ∧
      Filled codecs answer.key answer.kindAt answer.envelope offset taken left page ∧
      (taken ≠ [] → (page.dump codecs).utf8ByteSize ≤ GRAPH_HISTORY_PAGE_MAX_BYTES) ∧
      (answer.units.drop offset ≠ [] → taken ≠ []) := by
  obtain ⟨hempty, hcursor⟩ := answer.envelope_empty
  rw [page_eq hbegins] at h
  have hencoded := encoded_drop answer hbegins.le
  have hsize : (answer.envelope.dump codecs).utf8ByteSize =
      (answer.envelope.body codecs).utf8ByteSize + 5 := by
    rw [size_dump, hcursor]
    rfl
  have hcount : answer.envelope.count = offset - offset := by
    rw [count_eq codecs, hempty, hempty, hempty]
    simp
  obtain ⟨taken, left, hsplit, hfilled, hbound, htaken⟩ := fillFrom_ok (fun _ => rfl) hencoded
    hcursor hsize (Nat.le_refl _) hcount (by omega) (fun hne => absurd rfl hne) h
  exact ⟨taken, left, hsplit, hfilled, fun hne => hbound (.inr hne), htaken rfl⟩

/-- The envelope of an answer without units fits, or the answer has units. -/
def Fits (answer : Answer codecs) : Prop :=
  answer.units ≠ [] ∨
    (answer.envelope.dump codecs).utf8ByteSize ≤ GRAPH_HISTORY_PAGE_MAX_BYTES

/-- Where a page begins there are units, or the answer has none at all. -/
theorem Begins.nonempty {answer : Answer codecs} {cursor : Option String} {offset : Nat}
    (h : answer.Begins cursor offset) (hempty : answer.units.drop offset = []) :
    answer.units = [] ∧ offset = 0 := by
  have hle := List.drop_eq_nil_iff.mp hempty
  rcases h with ⟨-, rfl⟩ | ⟨-, hlt⟩
  · exact ⟨List.eq_nil_of_length_eq_zero (by omega), rfl⟩
  · omega

/-- A page that is produced keeps to its bounds. -/
theorem page_bounded {answer : Answer codecs} (hfits : answer.Fits) {cursor : Option String}
    {offset : Nat} (hbegins : answer.Begins cursor offset) {page : Page Change Step Entry}
    (h : answer.page cursor = .ok page) :
    answer.Bounded page ∧ ∃ taken left, answer.units.drop offset = taken ++ left ∧
      Filled codecs answer.key answer.kindAt answer.envelope offset taken left page ∧
      (left ≠ [] → taken ≠ []) := by
  have hlength := answer.length_lt
  obtain ⟨taken, left, hsplit, hfilled, hsize, htaken⟩ := page_filled hbegins h
  refine ⟨⟨hfilled.count, ?_, ?_⟩, taken, left, hsplit, hfilled, ?_⟩
  · by_cases hnil : taken = []
    · -- nothing was taken, so nothing was there
      have hdrop : answer.units.drop offset = [] := by
        by_contra hne
        exact htaken hne hnil
      obtain ⟨hunits, rfl⟩ := hbegins.nonempty hdrop
      have henvelope := hfits.resolve_left fun hne => hne hunits
      rw [page_eq hbegins, hdrop] at h
      cases h
      rw [size_withCursor]
      rw [size_dump, answer.envelope_empty.2] at henvelope
      exact henvelope
    · exact hsize hnil
  · intro cursor' hcursor
    rw [hfilled.cursor] at hcursor
    unfold nextCursor at hcursor
    split at hcursor
    · cases hcursor
    · rename_i hleft
      obtain rfl := Option.some_inj.mp hcursor
      have hlen := congrArg List.length hsplit
      have hpos : 0 < left.length := by
        cases left with
        | nil => exact absurd rfl hleft
        | cons x xs => exact Nat.zero_lt_succ _
      rw [List.length_drop, List.length_append] at hlen
      exact ⟨offset + taken.length, rfl, position_cursorAt answer.key (by omega)⟩
  · intro hleft
    apply htaken
    rw [hsplit]
    exact List.append_ne_nil_of_right_ne_nil taken hleft

/-- From an offset on, the pages hold the units from there on. -/
theorem walk_from {answer : Answer codecs} (hproducible : answer.Producible)
    (hfits : answer.Fits) (remaining : Nat) {cursor : Option String} {offset : Nat}
    (hremaining : answer.units.length - offset ≤ remaining)
    (hbegins : answer.Begins cursor offset) (hreaches : answer.Reaches cursor) :
    ∃ pages, answer.Walk cursor pages ∧
      (∀ kind, pages.flatMap (fun page => page.texts codecs kind) =
        unitsOf answer.kindAt kind offset (answer.units.drop offset)) ∧
      ∀ page ∈ pages, answer.Bounded page := by
  induction remaining generalizing cursor offset with
  | zero =>
      obtain ⟨page, hpage⟩ := hproducible cursor hreaches
      obtain ⟨hbounded, taken, left, hsplit, hfilled, -⟩ := page_bounded hfits hbegins hpage
      have hdrop : answer.units.drop offset = [] := List.drop_eq_nil_iff.mpr (by omega)
      rw [hdrop] at hsplit
      obtain ⟨rfl, rfl⟩ := List.append_eq_nil_iff.mp hsplit.symm
      refine ⟨[page], .last hpage hfilled.cursor, ?_, ?_⟩
      · intro kind
        rw [hdrop, List.flatMap_singleton, hfilled.texts, answer.envelope_empty.1]
        rfl
      · intro page' hpage'
        rw [List.mem_singleton] at hpage'
        rw [hpage']
        exact hbounded
  | succ remaining ih =>
      obtain ⟨page, hpage⟩ := hproducible cursor hreaches
      obtain ⟨hbounded, taken, left, hsplit, hfilled, htaken⟩ := page_bounded hfits hbegins hpage
      have htexts : ∀ kind, page.texts codecs kind =
          unitsOf answer.kindAt kind offset taken := by
        intro kind
        rw [hfilled.texts, answer.envelope_empty.1, List.nil_append]
      by_cases hleft : left = []
      · subst hleft
        rw [List.append_nil] at hsplit
        refine ⟨[page], .last hpage hfilled.cursor, ?_, ?_⟩
        · intro kind
          rw [List.flatMap_singleton, htexts, hsplit]
        · intro page' hpage'
          rw [List.mem_singleton] at hpage'
          rw [hpage']
          exact hbounded
      · have hcursor : page.cursor = some (cursorAt answer.key (offset + taken.length)) := by
          rw [hfilled.cursor]
          exact if_neg fun hempty => hleft (List.isEmpty_iff.mp hempty)
        have hlen := congrArg List.length hsplit
        rw [List.length_drop, List.length_append] at hlen
        have htaken' := List.length_pos_iff.mpr (htaken hleft)
        have hleft' := List.length_pos_iff.mpr hleft
        have hdrop : answer.units.drop (offset + taken.length) = left := by
          rw [← List.drop_drop, hsplit, List.drop_left]
        obtain ⟨pages, hwalk, hunits, hpages⟩ := ih (by omega)
          (.inr ⟨rfl, by omega⟩) (.next hreaches hpage hcursor)
        refine ⟨page :: pages, .next hpage hcursor hwalk, ?_, ?_⟩
        · intro kind
          rw [List.flatMap_cons, htexts, hunits, hdrop, hsplit, unitsOf_append]
        · intro page' hpage'
          rcases List.mem_cons.mp hpage' with rfl | hmem
          · exact hbounded
          · exact hpages page' hmem

theorem page_of_otherKey (answer : Answer codecs) {key : Key} (hne : key.text ≠ answer.key.text)
    {offset : Nat} (h : offset < 2 ^ 63) :
    answer.page (some (cursorAt key offset)) =
      .error "history cursor does not match this query" := by
  unfold Answer.page fill
  rw [offsetOf_other hne h]
  rfl

/-- A cursor that following the pages meets begins where some unit is. -/
theorem Reaches.begins {answer : Answer codecs} {cursor : Option String}
    (h : answer.Reaches cursor) : ∃ offset, answer.Begins cursor offset := by
  induction h with
  | first => exact ⟨0, .inl ⟨rfl, rfl⟩⟩
  | next _ hpage hcursor ih =>
      obtain ⟨offset, hbegins⟩ := ih
      obtain ⟨taken, left, hsplit, hfilled, -⟩ := page_filled hbegins hpage
      rw [hfilled.cursor, nextCursor] at hcursor
      split at hcursor
      next => cases hcursor
      next hleft =>
        have hpos : 0 < left.length := List.length_pos_iff.mpr fun hnil =>
          hleft (List.isEmpty_iff.mpr hnil)
        have hlength := congrArg List.length hsplit
        rw [List.length_drop, List.length_append] at hlength
        exact ⟨offset + taken.length, .inr ⟨hcursor.symm, by omega⟩⟩

/-- The pages can be produced when every unit fits on a page of its own. -/
theorem producible_of_units_fit {answer : Answer codecs}
    (h : ∀ unit ∈ answer.units, (answer.envelope.dump codecs).utf8ByteSize + unit.utf8ByteSize +
      GRAPH_HISTORY_CURSOR_MAX_BYTES ≤ GRAPH_HISTORY_PAGE_MAX_BYTES) : answer.Producible := by
  intro cursor hreaches
  obtain ⟨offset, hbegins⟩ := hreaches.begins
  rw [page_eq hbegins]
  refine fillFrom_isOk (fun _ => rfl) (encoded_drop answer hbegins.le) ?_ (Nat.le_refl _) fun _ unit hunit => ?_
  · have hlength := answer.length_lt
    have hle := hbegins.le
    rw [List.length_drop]
    omega
  · have hfits := h unit (List.mem_of_mem_drop hunit)
    have hone := Bool.toNat_le
      (answer.envelope.hasItems (answer.envelope.kind answer.changeCount offset))
    omega

/-- An answer with one page. -/
theorem producible_of_page {answer : Answer codecs} {page : Page Change Step Entry}
    (hpage : answer.page none = .ok page) (hcursor : page.cursor = none) : answer.Producible := by
  have hnone : ∀ cursor, answer.Reaches cursor → cursor = none := by
    intro cursor hreaches
    induction hreaches with
    | first => rfl
    | next _ hok hnext ih =>
        rw [ih, hpage] at hok
        cases hok
        rw [hcursor] at hnext
        cases hnext
  intro cursor hreaches
  rw [hnone cursor hreaches]
  exact ⟨page, hpage⟩

theorem Tiles.fits {answer : Answer codecs} (h : answer.Tiles) : answer.Fits := by
  obtain ⟨⟨pages, hwalk, -, hbounded⟩, -⟩ := h
  by_cases hunits : answer.units = []
  · right
    have hpage : answer.page none = .ok (answer.envelope.withCursor none) := by
      rw [page_eq (.inl ⟨rfl, rfl⟩), hunits]
      rfl
    have hsize : ∀ page ∈ pages, answer.page none = .ok page →
        (answer.envelope.dump codecs).utf8ByteSize ≤ GRAPH_HISTORY_PAGE_MAX_BYTES := by
      intro page hmem hok
      rw [hpage] at hok
      cases hok
      have hpageSize := (hbounded _ hmem).size
      rw [size_withCursor] at hpageSize
      rw [size_dump, answer.envelope_empty.2]
      exact hpageSize
    cases hwalk with
    | last hok _ => exact hsize _ List.mem_cons_self hok
    | next hok _ _ => exact hsize _ List.mem_cons_self hok
  · exact .inl hunits

theorem Fits.tiles {answer : Answer codecs} (hfits : answer.Fits) (h : answer.Producible) :
    answer.Tiles := by
  refine ⟨?_, ?_⟩
  · obtain ⟨pages, hwalk, hunits, hbounded⟩ := walk_from h hfits answer.units.length
      (by omega) (.inl ⟨rfl, rfl⟩) .first
    refine ⟨pages, hwalk, ?_, hbounded⟩
    intro kind
    rw [hunits, List.drop_zero, unitsOf_kindAt]
  · intro key offset hne hlt
    exact answer.page_of_otherKey hne hlt

/-- The pages of an answer tile it unless it has no units and its envelope alone is too
large for a page: the size of an empty page is not looked at. -/
theorem tiles_iff_fits {answer : Answer codecs} (h : answer.Producible) :
    answer.Tiles ↔ answer.Fits :=
  ⟨fun htiles => htiles.fits, fun hfits => hfits.tiles h⟩

end Answer

end Walks

section Examples

def sampleKey : Key where
  text := String.ofList (List.replicate 64 '0')
  length := by simp
  hex := by
    intro c hc
    rw [String.toList_ofList] at hc
    rw [List.eq_of_mem_replicate hc]
    exact .inl rfl

/-- One entry of a log, as it is encoded. -/
def sampleEntry : String :=
  "\x7b\"step\":\x7b\"head\":\"main@1\",\"producer\":\"human\",\"task_id\":null," ++
  "\"episode_id\":null,\"summary\":\"\",\"inherited\":false\x7d,\"change\":\x7b\"kind\":" ++
  "\"node\",\"id\":\"ev/a\",\"type\":\"Evidence\",\"title\":null,\"change\":\"removed\"," ++
  "\"fields\":[]\x7d\x7d"

/-- A codec that knows one text. -/
def sampleCodec (text : String) : Codec Unit where
  dump := fun _ => text
  validate := fun s => if s = text then some () else none
  validate_dump := fun _ => if_pos rfl

def sampleCodecs : Codecs Unit Unit Unit where
  change := sampleCodec ""
  step := sampleCodec ""
  entry := sampleCodec sampleEntry

def sampleLog (entityId : String) (entries : List Unit) (h : entries.length < 2 ^ 63) :
    Answer sampleCodecs :=
  .log
    { key := sampleKey
      entityId
      head := "main@1"
      units := entries.map sampleCodecs.entry.dump
      length_lt := by
        rw [List.length_map]
        exact h
      entries := by
        intro unit hunit
        obtain ⟨entry, -, rfl⟩ := List.mem_map.mp hunit
        exact ⟨entry, rfl⟩ }

/-- A log of more entries than one page may hold. -/
def longLog : Answer sampleCodecs := sampleLog "ev/a" (List.replicate 129 ()) (by simp)

theorem longLog_units : longLog.units = List.replicate 129 sampleEntry := List.map_replicate

theorem longLog_producible : longLog.Producible := by
  apply Answer.producible_of_units_fit
  intro unit hunit
  rw [longLog_units] at hunit
  rw [List.eq_of_mem_replicate hunit]
  decide +kernel

theorem tiles_iff_fits_two_pages :
    longLog.Producible ∧ (∃ cursor, longLog.Reaches (some cursor)) ∧
      (longLog.Tiles ↔ longLog.Fits) := by
  refine ⟨longLog_producible, ?_, Answer.tiles_iff_fits longLog_producible⟩
  have hbegins : longLog.Begins none 0 := .inl ⟨rfl, rfl⟩
  obtain ⟨page, hpage⟩ := longLog_producible none .first
  obtain ⟨taken, left, hsplit, hfilled, -⟩ := Answer.page_filled hbegins hpage
  cases hcursor : page.cursor with
  | some cursor => exact ⟨cursor, .next .first hpage hcursor⟩
  | none =>
      -- This page would hold all of the entries.
      have hleft : left = [] := by
        rw [hfilled.cursor, nextCursor] at hcursor
        split at hcursor
        next hempty => exact List.isEmpty_iff.mp hempty
        next => cases hcursor
      have htaken : taken = longLog.units := by
        rw [hleft, List.append_nil] at hsplit
        exact hsplit.symm
      have hentries : (page.texts sampleCodecs .entry).length = 129 := by
        have hkind : longLog.unitsOfKind .entry = List.replicate 129 sampleEntry := longLog_units
        rw [hfilled.texts, htaken, Answer.unitsOf_kindAt, List.length_append,
          longLog.envelope_empty.1, hkind, List.length_replicate, List.length_nil]
      have hcount := hfilled.count
      rw [count_eq sampleCodecs, hentries, GRAPH_HISTORY_PAGE_MAX_ENTRIES] at hcount
      omega

/-- The log of an id that no step has touched. -/
def untouchedLog (length : Nat) : Answer sampleCodecs :=
  sampleLog (String.ofList (List.replicate length 'x')) [] (by decide)

theorem size_untouched (length : Nat) :
    (quoted (String.ofList (List.replicate length 'x'))).utf8ByteSize = length + 2 := by
  have hchars : ∀ c ∈ (String.ofList (List.replicate length 'x')).toList, c = 'x' := by
    intro c hc
    rw [String.toList_ofList] at hc
    exact List.eq_of_mem_replicate hc
  unfold quoted
  rw [JsonText.quote_plain, JsonText.size_of_narrow]
  · simp
  · intro c hc
    simp only [List.cons_append, List.mem_cons, List.mem_append, List.not_mem_nil, or_false] at hc
    rcases hc with rfl | hc | rfl
    · decide
    · rw [hchars c hc]
      decide
    · decide
  · intro c hc
    rw [hchars c hc]
    exact ⟨by decide, by decide, by decide⟩

/-- The one page of an id that is longer than a page may be. -/
theorem untouchedLog_exceeds {length : Nat} (h : GRAPH_HISTORY_PAGE_MAX_BYTES ≤ length) :
    (untouchedLog length).Producible ∧ ¬ (untouchedLog length).Tiles := by
  have hpage : (untouchedLog length).page none =
      .ok ((untouchedLog length).envelope.withCursor none) := Answer.page_eq (.inl ⟨rfl, rfl⟩)
  refine ⟨Answer.producible_of_page hpage rfl, ?_⟩
  intro htiles
  rcases htiles.fits with hunits | hsize
  · exact hunits rfl
  · have henvelope : (untouchedLog length).envelope =
        .log { id := String.ofList (List.replicate length 'x'), atHead := "main@1", entries := []
               cursor := none } := rfl
    rw [henvelope, size_dump] at hsize
    have hid := Nat.le_trans (size_id _) (Nat.le_trans (Nat.le_add_right _ _)
      (Nat.le_trans (Nat.le_add_right _ _) hsize))
    rw [size_untouched] at hid
    omega

theorem empty_page_exceeds :
    (untouchedLog 66000).Producible ∧ ¬ (untouchedLog 66000).Tiles :=
  untouchedLog_exceeds (by decide)

end Examples

end RcpGraph.Pages
