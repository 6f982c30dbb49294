import Mathlib.Data.List.DropRight
import Mathlib.Tactic.IntervalCases

/-!
The URL-safe base64 text of bytes, and the lenient reader of such text: it passes over
characters outside the alphabet and stops at a full padding.
-/

namespace Base64

/-- The character of six bits. -/
def char (n : Nat) : Char :=
  if n < 26 then Char.ofNat (65 + n)
  else if n < 52 then Char.ofNat (71 + n)
  else if n < 62 then Char.ofNat (n - 4)
  else if n = 62 then '-'
  else '_'

/-- The six bits of a character; those of the plain alphabet are read too. -/
def value? (c : Char) : Option Nat :=
  if 65 ≤ c.toNat ∧ c.toNat ≤ 90 then some (c.toNat - 65)
  else if 97 ≤ c.toNat ∧ c.toNat ≤ 122 then some (c.toNat - 71)
  else if 48 ≤ c.toNat ∧ c.toNat ≤ 57 then some (c.toNat + 4)
  else if c = '-' ∨ c = '+' then some 62
  else if c = '_' ∨ c = '/' then some 63
  else none

/-- The bits of bytes, six by six, with zeros at the end. -/
def sextets : List UInt8 → List Nat
  | a :: b :: c :: rest =>
      a.toNat / 4 :: (a.toNat % 4 * 16 + b.toNat / 16) :: (b.toNat % 16 * 4 + c.toNat / 64) ::
        c.toNat % 64 :: sextets rest
  | [a, b] => [a.toNat / 4, a.toNat % 4 * 16 + b.toNat / 16, b.toNat % 16 * 4]
  | [a] => [a.toNat / 4, a.toNat % 4 * 16]
  | [] => []

def encode (bytes : List UInt8) : List Char :=
  (sextets bytes).map char ++ List.replicate ((3 - bytes.length % 3) % 3) '='

/-- The reader: the place in the group of four, the bits left over, the padding seen. -/
def decodeFrom : List Char → Nat → Nat → Nat → List UInt8 → Option (List UInt8)
  | [], quad, _, _, out => if quad = 0 then some out else none
  | c :: cs, quad, left, pads, out =>
      if c = '=' then
        if 2 ≤ quad then
          if 4 ≤ quad + (pads + 1) then some out else decodeFrom cs quad left (pads + 1) out
        else decodeFrom cs quad left pads out
      else
        match value? c with
        | none => decodeFrom cs quad left pads out
        | some v =>
            match quad with
            | 0 => decodeFrom cs 1 v 0 out
            | 1 => decodeFrom cs 2 (v % 16) 0 (out ++ [UInt8.ofNat (left * 4 + v / 16)])
            | 2 => decodeFrom cs 3 (v % 4) 0 (out ++ [UInt8.ofNat (left * 16 + v / 4)])
            | _ => decodeFrom cs 0 0 0 (out ++ [UInt8.ofNat (left * 64 + v)])

def decode (cs : List Char) : Option (List UInt8) :=
  if cs.all fun c => c.toNat < 128 then decodeFrom cs 0 0 0 [] else none

/-- What is padded to a multiple of four. -/
def padded (cs : List Char) : List Char := cs ++ List.replicate ((4 - cs.length % 4) % 4) '='

/-- A text without its padding. -/
def unpadded (cs : List Char) : List Char := cs.rdropWhile (· = '=')

section Characters

theorem char_spec : ∀ n < 64, value? (char n) = some n ∧ char n ≠ '=' ∧ (char n).toNat < 128 ∧
    32 ≤ (char n).toNat ∧ char n ≠ '"' ∧ char n ≠ '\\' ∧ (char n).utf8Size = 1 := by
  decide

theorem lt_of_mem_sextets (bytes : List UInt8) : ∀ n ∈ sextets bytes, n < 64 := by
  have hbyte : ∀ b : UInt8, b.toNat < 256 := fun b => b.toNat_lt
  fun_induction sextets bytes with
  | case1 a b c rest ih =>
      intro n hn
      have ha := hbyte a
      have hb := hbyte b
      have hc := hbyte c
      simp only [List.mem_cons] at hn
      rcases hn with rfl | rfl | rfl | rfl | hn
      · omega
      · omega
      · omega
      · omega
      · exact ih n hn
  | case2 a b =>
      intro n hn
      have ha := hbyte a
      have hb := hbyte b
      simp only [List.mem_cons, List.not_mem_nil, or_false] at hn
      omega
  | case3 a =>
      intro n hn
      have ha := hbyte a
      simp only [List.mem_cons, List.not_mem_nil, or_false] at hn
      omega
  | case4 =>
      intro n hn
      cases hn

theorem length_sextets (bytes : List UInt8) :
    (sextets bytes).length = (bytes.length * 4 + 2) / 3 := by
  fun_induction sextets bytes with
  | case1 a b c rest ih =>
      simp only [List.length_cons, ih]
      omega
  | case2 a b => simp
  | case3 a => simp
  | case4 => simp

end Characters

section RoundTrip

variable {n : Nat} {left pads : Nat} {out : List UInt8}

theorem decodeFrom_first (hn : n < 64) (cs : List Char) :
    decodeFrom (char n :: cs) 0 left pads out = decodeFrom cs 1 n 0 out := by
  obtain ⟨hvalue, hne, -⟩ := char_spec n hn
  rw [decodeFrom, if_neg hne, hvalue]
  rfl

theorem decodeFrom_second (hn : n < 64) (cs : List Char) :
    decodeFrom (char n :: cs) 1 left pads out =
      decodeFrom cs 2 (n % 16) 0 (out ++ [UInt8.ofNat (left * 4 + n / 16)]) := by
  obtain ⟨hvalue, hne, -⟩ := char_spec n hn
  rw [decodeFrom, if_neg hne, hvalue]
  rfl

theorem decodeFrom_third (hn : n < 64) (cs : List Char) :
    decodeFrom (char n :: cs) 2 left pads out =
      decodeFrom cs 3 (n % 4) 0 (out ++ [UInt8.ofNat (left * 16 + n / 4)]) := by
  obtain ⟨hvalue, hne, -⟩ := char_spec n hn
  rw [decodeFrom, if_neg hne, hvalue]
  rfl

theorem decodeFrom_fourth (hn : n < 64) (cs : List Char) :
    decodeFrom (char n :: cs) 3 left pads out =
      decodeFrom cs 0 0 0 (out ++ [UInt8.ofNat (left * 64 + n)]) := by
  obtain ⟨hvalue, hne, -⟩ := char_spec n hn
  rw [decodeFrom, if_neg hne, hvalue]
  rfl

theorem ofNat_eq {m : Nat} {b : UInt8} (h : m = b.toNat) : UInt8.ofNat m = b := by
  rw [h, UInt8.ofNat_toNat]

/-- The reader gets back what was written. -/
theorem decodeFrom_encode (bytes out : List UInt8) :
    decodeFrom (encode bytes) 0 0 0 out = some (out ++ bytes) := by
  have hbyte : ∀ b : UInt8, b.toNat < 256 := fun b => b.toNat_lt
  unfold encode
  fun_induction sextets bytes generalizing out with
  | case1 a b c rest ih =>
      have ha := hbyte a
      have hb := hbyte b
      have hc := hbyte c
      have hlength : (a :: b :: c :: rest).length % 3 = rest.length % 3 := by
        simp only [List.length_cons]
        omega
      rw [hlength]
      simp only [List.map_cons, List.cons_append]
      rw [decodeFrom_first (by omega), decodeFrom_second (by omega), decodeFrom_third (by omega),
        decodeFrom_fourth (by omega), ih]
      rw [ofNat_eq (b := a) (by omega), ofNat_eq (b := b) (by omega), ofNat_eq (b := c) (by omega)]
      simp
  | case2 a b =>
      have ha := hbyte a
      have hb := hbyte b
      simp only [List.map_cons, List.map_nil, List.cons_append, List.nil_append]
      rw [decodeFrom_first (by omega), decodeFrom_second (by omega), decodeFrom_third (by omega),
        ofNat_eq (b := a) (by omega), ofNat_eq (b := b) (by omega)]
      simp [decodeFrom]
  | case3 a =>
      have ha := hbyte a
      simp only [List.map_cons, List.map_nil, List.cons_append, List.nil_append]
      rw [decodeFrom_first (by omega), decodeFrom_second (by omega), ofNat_eq (b := a) (by omega)]
      simp [decodeFrom, List.replicate]
  | case4 => simp [decodeFrom]

theorem rdropWhile_replicate {cs : List Char} (h : ∀ c ∈ cs, c ≠ '=') (k : Nat) :
    unpadded (cs ++ List.replicate k '=') = cs := by
  unfold unpadded
  induction k with
  | zero =>
      rw [List.replicate_zero, List.append_nil, List.rdropWhile_eq_self_iff]
      intro hne
      simpa using h _ (List.getLast_mem hne)
  | succ k ih =>
      rw [List.replicate_succ', ← List.append_assoc, List.rdropWhile_concat_pos _ _ _ (by simp)]
      exact ih

theorem mem_characters {bytes : List UInt8} {c : Char} (hc : c ∈ (sextets bytes).map char) :
    ∃ n < 64, c = char n := by
  obtain ⟨n, hn, rfl⟩ := List.mem_map.mp hc
  exact ⟨n, lt_of_mem_sextets bytes n hn, rfl⟩

theorem unpadded_encode (bytes : List UInt8) :
    unpadded (encode bytes) = (sextets bytes).map char := by
  apply rdropWhile_replicate
  intro c hc
  obtain ⟨n, hn, rfl⟩ := mem_characters hc
  exact (char_spec n hn).2.1

/-- What was written without padding is padded as it was. -/
theorem padded_unpadded (bytes : List UInt8) : padded (unpadded (encode bytes)) = encode bytes := by
  rw [unpadded_encode]
  unfold padded encode
  rw [List.length_map, length_sextets]
  have hpads : ∀ k r, r < 3 → (4 - ((3 * k + r) * 4 + 2) / 3 % 4) % 4 = (3 - r) % 3 := by
    intro k r hr
    have hlength : ((3 * k + r) * 4 + 2) / 3 = 4 * k + (r * 4 + 2) / 3 := by omega
    rw [hlength]
    interval_cases r <;> omega
  have hrest := hpads (bytes.length / 3) (bytes.length % 3) (Nat.mod_lt _ (by decide))
  rw [Nat.div_add_mod] at hrest
  rw [hrest]

theorem decode_padded (bytes : List UInt8) :
    decode (padded (unpadded (encode bytes))) = some bytes := by
  rw [padded_unpadded]
  unfold decode
  rw [if_pos, decodeFrom_encode, List.nil_append]
  rw [List.all_eq_true]
  intro c hc
  rcases List.mem_append.mp hc with hchar | hpad
  · obtain ⟨n, hn, rfl⟩ := mem_characters hchar
    exact decide_eq_true (char_spec n hn).2.2.1
  · rw [List.eq_of_mem_replicate hpad]
    decide

theorem length_unpadded (bytes : List UInt8) :
    (unpadded (encode bytes)).length = (bytes.length * 4 + 2) / 3 := by
  rw [unpadded_encode, List.length_map, length_sextets]

end RoundTrip

end Base64
