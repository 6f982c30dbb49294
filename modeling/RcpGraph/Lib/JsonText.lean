import Mathlib.Tactic.IntervalCases
import RcpGraph.Lib.Json

/-!
The text of JSON values and a reader of JSON text. The reader knows whole numbers only,
and no character that stands for half of another one.
-/

namespace JsonText

def hexDigit (n : Nat) : Char := Nat.digitChar n

/-- A character inside the quotes of a string. -/
def escape (c : Char) : List Char :=
  if c = '"' then ['\\', '"']
  else if c = '\\' then ['\\', '\\']
  else if c = '\n' then ['\\', 'n']
  else if c = '\r' then ['\\', 'r']
  else if c = '\t' then ['\\', 't']
  else if c.toNat = 8 then ['\\', 'b']
  else if c.toNat = 12 then ['\\', 'f']
  else if c.toNat < 32 then
    ['\\', 'u', '0', '0', hexDigit (c.toNat / 16), hexDigit (c.toNat % 16)]
  else [c]

/-- A string with its quotes. -/
def quote (s : String) : List Char := '"' :: s.toList.flatMap escape ++ ['"']

mutual

/-- The text of a value without blanks. -/
def text : Json → String
  | .null => "null"
  | .bool b => if b then "true" else "false"
  | .num n => toString n
  | .str s => String.ofList (quote s)
  | .arr xs => "[" ++ Text.join "," (texts xs) ++ "]"
  | .obj fs => "\x7b" ++ Text.join "," (fieldTexts fs) ++ "\x7d"

def texts : List Json → List String
  | [] => []
  | x :: xs => text x :: texts xs

def fieldTexts : List (String × Json) → List String
  | [] => []
  | (k, x) :: fs => (String.ofList (quote k) ++ ":" ++ text x) :: fieldTexts fs

end

/-- `json.dumps` with sorted keys and without blanks; every character stands for itself. -/
def dumps (j : Json) : String := text j.canonical

def isSpace (c : Char) : Bool := c = ' ' || c = '\t' || c = '\n' || c = '\r'

def hexValue? (c : Char) : Option Nat :=
  if 48 ≤ c.toNat ∧ c.toNat ≤ 57 then some (c.toNat - 48)
  else if 97 ≤ c.toNat ∧ c.toNat ≤ 102 then some (c.toNat - 87)
  else if 65 ≤ c.toNat ∧ c.toNat ≤ 70 then some (c.toNat - 55)
  else none

/-- Four hexadecimal digits. -/
def readHex : List Char → Option (Nat × List Char)
  | a :: b :: c :: d :: rest => do
      let a ← hexValue? a
      let b ← hexValue? b
      let c ← hexValue? c
      let d ← hexValue? d
      some (((a * 16 + b) * 16 + c) * 16 + d, rest)
  | _ => none

/-- The rest of an escape of two halves: the second one must follow. -/
def readPair (high : Nat) (cs : List Char) : Option (Char × List Char) :=
  if cs.take 2 = ['\\', 'u'] then do
    let (low, rest) ← readHex (cs.drop 2)
    if 0xDC00 ≤ low ∧ low < 0xE000 then
      some (Char.ofNat (0x10000 + (high - 0xD800) * 0x400 + (low - 0xDC00)), rest)
    else none
  else none

/-- What stands after a backslash. -/
def readEscape : List Char → Option (Char × List Char)
  | [] => none
  | c :: rest =>
      if c = '"' ∨ c = '\\' ∨ c = '/' then some (c, rest)
      else if c = 'b' then some (Char.ofNat 8, rest)
      else if c = 'f' then some (Char.ofNat 12, rest)
      else if c = 'n' then some ('\n', rest)
      else if c = 'r' then some ('\r', rest)
      else if c = 't' then some ('\t', rest)
      else if c = 'u' then do
        let (code, rest) ← readHex rest
        if 0xD800 ≤ code ∧ code < 0xDC00 then readPair code rest
        else if 0xDC00 ≤ code ∧ code < 0xE000 then none
        else some (Char.ofNat code, rest)
      else none

/-- The rest of a string, after its first quote. -/
def readString : Nat → List Char → Option (List Char × List Char)
  | 0, _ => none
  | _ + 1, [] => none
  | fuel + 1, c :: rest =>
      if c = '"' then some ([], rest)
      else if c = '\\' then do
        let (x, rest) ← readEscape rest
        let (xs, rest) ← readString fuel rest
        some (x :: xs, rest)
      else if c.toNat < 32 then none
      else do
        let (xs, rest) ← readString fuel rest
        some (c :: xs, rest)

/-- A whole number without sign; a second digit after a zero and a fraction are refused. -/
def readNat (cs : List Char) : Option (Nat × List Char) :=
  let digits := cs.takeWhile Char.isDigit
  let rest := cs.dropWhile Char.isDigit
  if digits = [] ∨ (digits.head? = some '0' ∧ digits ≠ ['0']) then none
  else if rest.head? = some '.' ∨ rest.head? = some 'e' ∨ rest.head? = some 'E' then none
  else some (Nat.ofDigitChars 10 digits 0, rest)

def readNumber (cs : List Char) : Option (Json × List Char) :=
  if cs.head? = some '-' then
    (readNat cs.tail).map fun (n, rest) => (.num (-(n : Int)), rest)
  else (readNat cs).map fun (n, rest) => (.num n, rest)

/-- `null`, `true` and `false`. -/
def readWord (cs : List Char) : Option (Json × List Char) :=
  if cs.take 4 = ['n', 'u', 'l', 'l'] then some (.null, cs.drop 4)
  else if cs.take 4 = ['t', 'r', 'u', 'e'] then some (.bool true, cs.drop 4)
  else if cs.take 5 = ['f', 'a', 'l', 's', 'e'] then some (.bool false, cs.drop 5)
  else none

/-- The rest of a text after its blanks, if that begins with the character. -/
def expect (c : Char) (cs : List Char) : Option (List Char) :=
  if (cs.dropWhile isSpace).head? = some c then some (cs.dropWhile isSpace).tail else none

mutual

def readValue : Nat → List Char → Option (Json × List Char)
  | 0, _ => none
  | fuel + 1, cs =>
      match expect '"' cs with
      | some rest => (readString fuel rest).map fun (s, rest) => (.str (String.ofList s), rest)
      | none =>
          match expect '[' cs with
          | some rest => readArray fuel rest
          | none =>
              match expect '\x7b' cs with
              | some rest => readObject fuel rest
              | none =>
                  (readWord (cs.dropWhile isSpace)).orElse fun _ =>
                    readNumber (cs.dropWhile isSpace)

def readArray : Nat → List Char → Option (Json × List Char)
  | 0, _ => none
  | fuel + 1, cs =>
      match expect ']' cs with
      | some rest => some (.arr [], rest)
      | none => (readItems fuel cs).map fun (xs, rest) => (.arr xs, rest)

/-- The items of an array that has one, up to its closing bracket. -/
def readItems : Nat → List Char → Option (List Json × List Char)
  | 0, _ => none
  | fuel + 1, cs => do
      let (x, rest) ← readValue fuel cs
      match expect ']' rest with
      | some rest => some ([x], rest)
      | none =>
          let rest ← expect ',' rest
          let (xs, rest) ← readItems fuel rest
          some (x :: xs, rest)

def readObject : Nat → List Char → Option (Json × List Char)
  | 0, _ => none
  | fuel + 1, cs =>
      match expect '\x7d' cs with
      | some rest => some (.obj [], rest)
      | none => (readFields fuel cs).map fun (fs, rest) => (.obj fs, rest)

def readFields : Nat → List Char → Option (List (String × Json) × List Char)
  | 0, _ => none
  | fuel + 1, cs => do
      let rest ← expect '"' cs
      let (k, rest) ← readString fuel rest
      let rest ← expect ':' rest
      let (x, rest) ← readValue fuel rest
      match expect '\x7d' rest with
      | some rest => some ([(String.ofList k, x)], rest)
      | none =>
          let rest ← expect ',' rest
          let (fs, rest) ← readFields fuel rest
          some ((String.ofList k, x) :: fs, rest)

end

/-- `loads`: one value, and nothing but blanks after it. -/
def loads (s : String) : Option Json := do
  let (x, rest) ← readValue (s.toList.length + 2) s.toList
  if rest.all isSpace then some x else none

/-- A character that stands for itself in a string. -/
def Plain (c : Char) : Prop := c ≠ '"' ∧ c ≠ '\\' ∧ 32 ≤ c.toNat

section Strings

theorem escape_plain {c : Char} (h : Plain c) : escape c = [c] := by
  obtain ⟨hquote, hslash, hcode⟩ := h
  have hcontrol : ∀ k < 32, c ≠ Char.ofNat k := by
    intro k hk heq
    have hle : (Char.ofNat k).toNat = k := by
      interval_cases k <;> rfl
    rw [heq, hle] at hcode
    omega
  unfold escape
  rw [if_neg hquote, if_neg hslash, if_neg (hcontrol 10 (by decide)),
    if_neg (hcontrol 13 (by decide)), if_neg (hcontrol 9 (by decide)), if_neg (by omega),
    if_neg (by omega), if_neg (by omega)]

theorem quote_plain {s : String} (h : ∀ c ∈ s.toList, Plain c) :
    quote s = '"' :: s.toList ++ ['"'] := by
  have hflat : ∀ cs : List Char, (∀ c ∈ cs, Plain c) → cs.flatMap escape = cs := by
    intro cs hcs
    induction cs with
    | nil => rfl
    | cons c cs ih =>
        rw [List.flatMap_cons, escape_plain (hcs c List.mem_cons_self),
          ih fun x hx => hcs x (List.mem_cons_of_mem c hx)]
        rfl
  unfold quote
  rw [hflat _ h]

theorem readString_plain (cs rest : List Char) (h : ∀ c ∈ cs, Plain c) {fuel : Nat}
    (hfuel : cs.length < fuel) : readString fuel (cs ++ '"' :: rest) = some (cs, rest) := by
  induction cs generalizing fuel with
  | nil =>
      obtain ⟨fuel, rfl⟩ := Nat.exists_eq_succ_of_ne_zero (Nat.ne_of_gt hfuel)
      rfl
  | cons c cs ih =>
      obtain ⟨fuel, rfl⟩ := Nat.exists_eq_succ_of_ne_zero (Nat.ne_of_gt (Nat.zero_lt_of_lt hfuel))
      obtain ⟨hquote, hslash, hcode⟩ := h c List.mem_cons_self
      have hrest := ih (fun x hx => h x (List.mem_cons_of_mem c hx)) (Nat.lt_of_succ_lt_succ hfuel)
      rw [List.cons_append, readString, if_neg hquote, if_neg hslash, if_neg (by omega), hrest]
      rfl

end Strings

section Numbers

theorem takeWhile_digits {cs rest : List Char} (h : ∀ c ∈ cs, c.isDigit)
    (hrest : rest.head?.all fun c => !c.isDigit) :
    (cs ++ rest).takeWhile Char.isDigit = cs ∧ (cs ++ rest).dropWhile Char.isDigit = rest := by
  induction cs with
  | nil =>
      cases rest with
      | nil => exact ⟨rfl, rfl⟩
      | cons c rest =>
          have hc : c.isDigit = false := by simpa using hrest
          exact ⟨by rw [List.nil_append, List.takeWhile_cons, hc]; rfl,
            by rw [List.nil_append, List.dropWhile_cons, hc]; rfl⟩
  | cons c cs ih =>
      obtain ⟨htake, hdrop⟩ := ih fun x hx => h x (List.mem_cons_of_mem c hx)
      have hc := h c List.mem_cons_self
      rw [List.cons_append, List.takeWhile_cons, List.dropWhile_cons, hc, htake, hdrop]
      exact ⟨rfl, rfl⟩

theorem narrow_of_code {c : Char} (h : c.toNat ≤ 127) : c.utf8Size = 1 := by
  rw [Char.utf8Size_eq_one_iff]
  exact h

/-- A text of characters of one byte has as many bytes. -/
theorem size_of_narrow {cs : List Char} (h : ∀ c ∈ cs, c.utf8Size = 1) :
    (String.ofList cs).utf8ByteSize = cs.length := by
  induction cs with
  | nil => rfl
  | cons c cs ih =>
      have hcons : String.ofList (c :: cs) = String.singleton c ++ String.ofList cs := by
        rw [String.singleton_eq_ofList, ← String.ofList_append]
        rfl
      rw [hcons, String.utf8ByteSize_append, String.utf8ByteSize_singleton,
        h c List.mem_cons_self, ih fun x hx => h x (List.mem_cons_of_mem c hx), List.length_cons]
      omega

theorem code_digit {n : Nat} {c : Char} (hc : c ∈ Nat.toDigits 10 n) : c.toNat ≤ 127 := by
  have hdigit := Nat.isDigit_of_mem_toDigits (by decide) (by decide) hc
  rw [Char.isDigit, Bool.and_eq_true, decide_eq_true_eq, decide_eq_true_eq] at hdigit
  exact Nat.le_trans hdigit.2 (by decide)

/-- The decimal digits of a number below a power of ten. -/
theorem size_digits {n k : Nat} (hk : 0 < k) (h : n < 10 ^ k) :
    (text (.num n)).utf8ByteSize ≤ k := by
  have htext : text (.num n) = String.ofList (Nat.toDigits 10 n) := rfl
  rw [htext, size_of_narrow fun c hc => narrow_of_code (code_digit hc)]
  exact (Nat.length_toDigits_le_iff (by decide) hk).mpr h

/-- The digits of a number begin with zero only when it is zero. -/
theorem toDigits_head (n : Nat) :
    (Nat.toDigits 10 n).head? ≠ some '0' ∨ Nat.toDigits 10 n = ['0'] := by
  induction n using Nat.strongRecOn with
  | _ n ih =>
      by_cases hlt : n < 10
      · rw [Nat.toDigits_of_lt_base hlt]
        interval_cases n <;> decide
      · rw [Nat.toDigits_of_base_le (by decide) (by omega)]
        left
        rcases ih (n / 10) (by omega) with hhead | hzero
        · cases hdigits : Nat.toDigits 10 (n / 10) with
          | nil => exact absurd hdigits Nat.toDigits_ne_nil
          | cons c cs =>
              rw [hdigits] at hhead
              exact hhead
        · have hvalue := Nat.ofDigitChars_ten_toDigits (n := n / 10)
          rw [hzero] at hvalue
          have : n / 10 = 0 := by rw [← hvalue]; rfl
          omega

theorem readNat_toDigits (n : Nat) {rest : List Char}
    (hdigit : rest.head?.all fun c => !c.isDigit)
    (hrest : rest.head? ≠ some '.' ∧ rest.head? ≠ some 'e' ∧ rest.head? ≠ some 'E') :
    readNat (Nat.toDigits 10 n ++ rest) = some (n, rest) := by
  have hdigits : ∀ c ∈ Nat.toDigits 10 n, c.isDigit :=
    fun c hc => Nat.isDigit_of_mem_toDigits (by decide) (by decide) hc
  obtain ⟨htake, hdrop⟩ := takeWhile_digits hdigits hdigit
  unfold readNat
  dsimp only
  rw [htake, hdrop, if_neg, if_neg, Nat.ofDigitChars_ten_toDigits]
  · rintro (h | h | h)
    · exact hrest.1 h
    · exact hrest.2.1 h
    · exact hrest.2.2 h
  · rintro (h | ⟨hhead, hne⟩)
    · exact Nat.toDigits_ne_nil h
    · rcases toDigits_head n with h | h
      · exact h hhead
      · exact hne h

end Numbers

section Pairs

/-- The text of a list of a string and a number. -/
def pair (s : String) (n : Nat) : String :=
  String.ofList ('[' :: quote s ++ ',' :: Nat.toDigits 10 n ++ [']'])

theorem dropWhile_space {c : Char} (h : isSpace c = false) (rest : List Char) :
    (c :: rest).dropWhile isSpace = c :: rest := by
  have hc : ¬ isSpace c = true := by simp [h]
  rw [List.dropWhile_cons, if_neg hc]

theorem expect_self {c : Char} (h : isSpace c = false) (rest : List Char) :
    expect c (c :: rest) = some rest := by
  unfold expect
  rw [dropWhile_space h]
  exact if_pos rfl

theorem expect_other {c d : Char} (h : isSpace d = false) (hne : d ≠ c) (rest : List Char) :
    expect c (d :: rest) = none := by
  unfold expect
  rw [dropWhile_space h]
  exact if_neg fun heq => hne (Option.some_inj.mp heq)

theorem readValue_string {s : String} (h : ∀ c ∈ s.toList, Plain c) (rest : List Char) {fuel : Nat}
    (hfuel : s.toList.length < fuel) :
    readValue (fuel + 1) ('"' :: (s.toList ++ '"' :: rest)) = some (.str s, rest) := by
  rw [readValue, expect_self (by decide)]
  dsimp only
  rw [readString_plain s.toList rest h hfuel]
  simp

theorem readValue_nat (n : Nat) {rest : List Char} (hdigit : rest.head?.all fun c => !c.isDigit)
    (hrest : rest.head? ≠ some '.' ∧ rest.head? ≠ some 'e' ∧ rest.head? ≠ some 'E') (fuel : Nat) :
    readValue (fuel + 1) (Nat.toDigits 10 n ++ rest) = some (.num n, rest) := by
  have hnat := readNat_toDigits n hdigit hrest
  obtain ⟨c, cs, hcs⟩ := List.exists_cons_of_ne_nil (Nat.toDigits_ne_nil (n := n) (b := 10))
  have hc : c.isDigit := by
    apply Nat.isDigit_of_mem_toDigits (n := n) (b := 10) (by decide) (by decide)
    rw [hcs]
    exact List.mem_cons_self
  have hother : ∀ d : Char, d.isDigit = false → c ≠ d := by
    intro d hd heq
    rw [heq, hd] at hc
    cases hc
  have hspace : isSpace c = false := by
    simp only [isSpace, Bool.or_eq_false_iff, decide_eq_false_iff_not]
    exact ⟨⟨⟨hother _ rfl, hother _ rfl⟩, hother _ rfl⟩, hother _ rfl⟩
  have hword : readWord (c :: (cs ++ rest)) = none := by
    unfold readWord
    rw [if_neg, if_neg, if_neg]
    · intro heq
      exact hother 'f' rfl (List.cons.inj heq).1
    · intro heq
      exact hother 't' rfl (List.cons.inj heq).1
    · intro heq
      exact hother 'n' rfl (List.cons.inj heq).1
  rw [hcs, List.cons_append] at hnat ⊢
  rw [readValue, expect_other hspace (hother _ rfl), expect_other hspace (hother _ rfl),
    expect_other hspace (hother _ rfl), dropWhile_space hspace, hword]
  dsimp only [Option.orElse]
  have hminus : (c :: (cs ++ rest)).head? ≠ some '-' :=
    fun heq => hother '-' rfl (Option.some_inj.mp heq)
  unfold readNumber
  rw [if_neg hminus, hnat]
  rfl

/-- The reader gets back a list of a string and a number. -/
theorem loads_pair {s : String} (h : ∀ c ∈ s.toList, Plain c) (n : Nat) :
    loads (pair s n) = some (.arr [.str s, .num n]) := by
  have htext : (pair s n).toList =
      '[' :: ('"' :: (s.toList ++ '"' :: (',' :: (Nat.toDigits 10 n ++ [']'])))) := by
    unfold pair
    rw [String.toList_ofList, quote_plain h]
    simp
  have hitems : ∀ fuel, s.toList.length + 2 ≤ fuel →
      readItems (fuel + 1) ('"' :: (s.toList ++ '"' :: (',' :: (Nat.toDigits 10 n ++ [']'])))) =
        some ([.str s, .num n], []) := by
    intro fuel hfuel
    obtain ⟨fuel, rfl⟩ := Nat.exists_eq_add_of_le' hfuel
    rw [readItems, show fuel + (s.toList.length + 2) = fuel + s.toList.length + 1 + 1 from rfl,
      readValue_string h _ (by omega)]
    dsimp only [bind, Option.bind]
    rw [expect_other (by decide) (by decide)]
    dsimp only
    rw [expect_self (by decide)]
    dsimp only
    rw [readItems, readValue_nat n (by decide) (by decide)]
    dsimp only [bind, Option.bind]
    rw [expect_self (by decide)]
  unfold loads
  rw [htext]
  simp only [List.length_cons, List.length_append]
  rw [readValue, expect_other (by decide) (by decide), expect_self (by decide)]
  dsimp only
  rw [readArray, expect_other (by decide) (by decide)]
  dsimp only
  rw [hitems _ (by omega)]
  rfl

end Pairs

end JsonText
