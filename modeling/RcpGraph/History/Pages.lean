import RcpGraph.Lib.Base64
import RcpGraph.Lib.JsonText

/-!
The pages of a history answer. An answer is a list of encoded units; a page takes units
while it stays within its bounds, and its cursor says where the next one begins.
-/

namespace RcpGraph.Pages

def GRAPH_HISTORY_PAGE_MAX_ENTRIES : Nat := 128
def GRAPH_HISTORY_PAGE_MAX_BYTES : Nat := 64 * 1024
def GRAPH_HISTORY_CURSOR_MAX_BYTES : Nat := 1024

/-- A SHA-256 digest in hexadecimal: what `_key` makes of an identity and a query. -/
structure Key where
  text : String
  length : text.toList.length = 64
  hex : ∀ c ∈ text.toList, c.isDigit ∨ ('a' ≤ c ∧ c ≤ 'f')

section Cursors

def bytes (s : String) : List UInt8 := s.toUTF8.data.toList

def text? (bs : List UInt8) : Option String := String.fromUTF8? ⟨bs.toArray⟩

/-- `_cursor`. -/
def cursorAt (key : Key) (offset : Nat) : String :=
  String.ofList (Base64.unpadded (Base64.encode (bytes (JsonText.pair key.text offset))))

/-- `_position`. -/
def position (cursor : String) : Except String (String × Nat) :=
  if GRAPH_HISTORY_CURSOR_MAX_BYTES < cursor.length then .error "invalid history cursor"
  else
    match ((Base64.decode (Base64.padded cursor.toList)).bind text?).bind JsonText.loads with
    | some (.arr [.str storedKey, .num (.ofNat offset)]) => .ok (storedKey, offset)
    | _ => .error "invalid history cursor"

/-- `_offset`. -/
def offsetOf (cursor : Option String) (key : Key) : Except String Nat :=
  match cursor with
  | none => .ok 0
  | some cursor =>
      match position cursor with
      | .error message => .error message
      | .ok (storedKey, offset) =>
          if storedKey ≠ key.text then .error "history cursor does not match this query"
          else .ok offset

end Cursors

/-- A model's encoder and validator: what was encoded is validated as itself. -/
structure Codec (α : Type) where
  dump : α → String
  validate : String → Option α
  validate_dump : ∀ a, validate (dump a) = some a

structure Codecs (Change Step Entry : Type) where
  change : Codec Change
  step : Codec Step
  entry : Codec Entry

structure GraphDiffPage (Change Step : Type) where
  fromHead : String
  toHead : String
  changes : List Change
  steps : List Step
  cursor : Option String
  deriving DecidableEq

structure GraphLogPage (Entry : Type) where
  id : String
  atHead : String
  entries : List Entry
  cursor : Option String
  deriving DecidableEq

inductive Page (Change Step Entry : Type) where
  | diff (page : GraphDiffPage Change Step)
  | log (page : GraphLogPage Entry)
  deriving DecidableEq

/-- What a unit is read as. -/
inductive Kind where
  | change
  | step
  | entry
  deriving DecidableEq, Repr

section Encoding

variable {Change Step Entry : Type} (codecs : Codecs Change Step Entry)

def quoted (s : String) : String := String.ofList (JsonText.quote s)

def array (items : List String) : String := "[" ++ Text.join "," items ++ "]"

def nullable : Option String → String
  | none => "null"
  | some s => quoted s

namespace Page

variable {codecs}

def cursor : Page Change Step Entry → Option String
  | .diff page => page.cursor
  | .log page => page.cursor

def withCursor (cursor : Option String) : Page Change Step Entry → Page Change Step Entry
  | .diff page => .diff { page with cursor }
  | .log page => .log { page with cursor }

def changes : Page Change Step Entry → List Change
  | .diff page => page.changes
  | .log _ => []

def steps : Page Change Step Entry → List Step
  | .diff page => page.steps
  | .log _ => []

def entries : Page Change Step Entry → List Entry
  | .diff _ => []
  | .log page => page.entries

/-- The units that the page holds. -/
def count (page : Page Change Step Entry) : Nat :=
  page.changes.length + page.steps.length + page.entries.length

/-- The encoded items of one kind. -/
def texts (codecs : Codecs Change Step Entry) (page : Page Change Step Entry) :
    Kind → List String
  | .change => page.changes.map codecs.change.dump
  | .step => page.steps.map codecs.step.dump
  | .entry => page.entries.map codecs.entry.dump

/-- The text of the page up to its cursor. -/
def body (codecs : Codecs Change Step Entry) : Page Change Step Entry → String
  | .diff page =>
      "\x7b\"from_head\":" ++ quoted page.fromHead ++ ",\"to_head\":" ++ quoted page.toHead ++
        ",\"changes\":" ++ array (page.changes.map codecs.change.dump) ++
        ",\"steps\":" ++ array (page.steps.map codecs.step.dump) ++ ",\"cursor\":"
  | .log page =>
      "\x7b\"id\":" ++ quoted page.id ++ ",\"at_head\":" ++ quoted page.atHead ++
        ",\"entries\":" ++ array (page.entries.map codecs.entry.dump) ++ ",\"cursor\":"

/-- `model_dump_json`. -/
def dump (codecs : Codecs Change Step Entry) (page : Page Change Step Entry) : String :=
  page.body codecs ++ nullable page.cursor ++ "\x7d"

/-- What the unit of an index is on the page. -/
def kind (changeCount index : Nat) : Page Change Step Entry → Kind
  | .log _ => .entry
  | .diff _ => if index < changeCount then .change else .step

/-- Whether the list of the kind has an item. -/
def hasItems (page : Page Change Step Entry) : Kind → Bool
  | .change => !page.changes.isEmpty
  | .step => !page.steps.isEmpty
  | .entry => !page.entries.isEmpty

/-- Validates a unit and appends it to the list of its kind. -/
def add (codecs : Codecs Change Step Entry) (unit : String) (kind : Kind)
    (page : Page Change Step Entry) : Option (Page Change Step Entry) :=
  match page, kind with
  | .log page, _ =>
      (codecs.entry.validate unit).map fun e => .log { page with entries := page.entries ++ [e] }
  | .diff page, .change =>
      (codecs.change.validate unit).map fun c => .diff { page with changes := page.changes ++ [c] }
  | .diff page, _ =>
      (codecs.step.validate unit).map fun s => .diff { page with steps := page.steps ++ [s] }

end Page

/-- The bytes that a cursor takes in a page. -/
def cursorSize : Option String → Nat
  | some cursor => cursor.length + 2
  | none => 4

/-- The cursor of a page that ends before the rest. -/
def nextCursor (key : Key) (index : Nat) (rest : List String) : Option String :=
  if rest.isEmpty then none else some (cursorAt key index)

/-- The loop of `_fill`. -/
def fillFrom (key : Key) (changeCount offset : Nat) :
    List String → Nat → Page Change Step Entry → Nat → Except String (Page Change Step Entry)
  | [], _, page, _ => .ok (page.withCursor none)
  | unit :: rest, index, page, size =>
      if GRAPH_HISTORY_PAGE_MAX_ENTRIES ≤ index - offset then
        .ok (page.withCursor (some (cursorAt key index)))
      else
        let kind := page.kind changeCount index
        let nextSize := size + unit.utf8ByteSize + (page.hasItems kind).toNat
        if GRAPH_HISTORY_PAGE_MAX_BYTES < nextSize + cursorSize (nextCursor key (index + 1) rest) - 4 then
          if index = offset then .error "history entry metadata exceeds page size"
          else .ok (page.withCursor (some (cursorAt key index)))
        else
          match page.add codecs unit kind with
          | none => .error "invalid history unit"
          | some page => fillFrom key changeCount offset rest (index + 1) page nextSize

/-- `_fill`. -/
def fill (page : Page Change Step Entry) (units : List String) (key : Key)
    (cursor : Option String) (changeCount : Nat) : Except String (Page Change Step Entry) := do
  let offset ← offsetOf cursor key
  if cursor.isSome ∧ units.length ≤ offset then throw "history cursor is out of range"
  fillFrom codecs key changeCount offset (units.drop offset) offset page
    (page.dump codecs).utf8ByteSize

/-- `DiffAnswer`: its first units are changes and the others steps. A tuple has fewer than
`2 ^ 63` items. -/
structure DiffAnswer where
  key : Key
  fromHead : String
  toHead : String
  units : List String
  changeCount : Nat
  length_lt : units.length < 2 ^ 63
  changes : ∀ unit ∈ units.take changeCount, ∃ change, unit = codecs.change.dump change
  steps : ∀ unit ∈ units.drop changeCount, ∃ step, unit = codecs.step.dump step

structure LogAnswer where
  key : Key
  entityId : String
  head : String
  units : List String
  length_lt : units.length < 2 ^ 63
  entries : ∀ unit ∈ units, ∃ entry, unit = codecs.entry.dump entry

inductive Answer where
  | diff (answer : DiffAnswer codecs)
  | log (answer : LogAnswer codecs)

namespace Answer

variable {codecs}

def key : Answer codecs → Key
  | .diff answer => answer.key
  | .log answer => answer.key

def units : Answer codecs → List String
  | .diff answer => answer.units
  | .log answer => answer.units

def changeCount : Answer codecs → Nat
  | .diff answer => answer.changeCount
  | .log _ => 0

/-- The page before it is filled. -/
def envelope : Answer codecs → Page Change Step Entry
  | .diff answer =>
      .diff { fromHead := answer.fromHead, toHead := answer.toHead, changes := [], steps := []
              cursor := none }
  | .log answer =>
      .log { id := answer.entityId, atHead := answer.head, entries := [], cursor := none }

def page (answer : Answer codecs) (cursor : Option String) :
    Except String (Page Change Step Entry) :=
  fill codecs answer.envelope answer.units answer.key cursor answer.changeCount

end Answer

end Encoding

end RcpGraph.Pages
