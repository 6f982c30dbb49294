import RcpGraph.Lib.JsonText

/-!
Sizes of JSON texts in UTF-8. Sorting the keys of a value keeps the size of its text, and
the size of a string's text is the width of its characters and two quotes.
-/

namespace JsonText

/-- The bytes of a character inside the quotes of a string. -/
def width (c : Char) : Nat := (String.ofList (escape c)).utf8ByteSize

def widths (cs : List Char) : Nat := (cs.map width).sum

@[simp] theorem widths_nil : widths [] = 0 := rfl

@[simp] theorem widths_cons (c : Char) (cs : List Char) : widths (c :: cs) = width c + widths cs :=
  List.sum_cons

@[simp] theorem widths_append (cs ds : List Char) : widths (cs ++ ds) = widths cs + widths ds := by
  rw [widths, List.map_append, List.sum_append]
  rfl

section Sizes

theorem size_cons (c : Char) (cs : List Char) :
    (String.ofList (c :: cs)).utf8ByteSize = c.utf8Size + (String.ofList cs).utf8ByteSize := by
  rw [← List.singleton_append, String.ofList_append, String.utf8ByteSize_append,
    ← String.singleton_eq_ofList, String.utf8ByteSize_singleton]

theorem size_append (cs ds : List Char) :
    (String.ofList (cs ++ ds)).utf8ByteSize =
      (String.ofList cs).utf8ByteSize + (String.ofList ds).utf8ByteSize := by
  rw [String.ofList_append, String.utf8ByteSize_append]

theorem size_flatMap_escape (cs : List Char) :
    (String.ofList (cs.flatMap escape)).utf8ByteSize = widths cs := by
  induction cs with
  | nil => rfl
  | cons c cs ih =>
      rw [List.flatMap_cons, size_append, ih, widths_cons]
      rfl

/-- A string takes the widths of its characters and two quotes. -/
theorem size_quote (s : String) :
    (String.ofList (quote s)).utf8ByteSize = widths s.toList + 2 := by
  rw [quote, List.cons_append, size_cons, size_append, size_flatMap_escape, size_cons]
  have hquote : ('"').utf8Size = 1 := rfl
  have hempty : (String.ofList []).utf8ByteSize = 0 := rfl
  omega

/-- The width of a character, by the kind of its escape. -/
theorem width_eq (c : Char) :
    width c =
      if c = '"' ∨ c = '\\' ∨ c.toNat = 8 ∨ c.toNat = 12 ∨ c = '\n' ∨ c = '\r' ∨ c = '\t' then 2
      else if c.toNat < 32 then 6 else c.utf8Size := by
  have hdigit : ∀ n < 16, (hexDigit n).utf8Size = 1 := by
    intro n hn
    interval_cases n <;> rfl
  have htwo : ∀ d : Char, d.toNat ≤ 127 → (String.ofList ['\\', d]).utf8ByteSize = 2 := by
    intro d hd
    rw [size_cons, size_cons, narrow_of_code hd]
    rfl
  unfold width escape
  split
  next h => simpa [h] using htwo '"' (by decide)
  next h1 =>
    split
    next h => simpa [h] using htwo '\\' (by decide)
    next h2 =>
      split
      next h => simpa [h] using htwo 'n' (by decide)
      next h3 =>
        split
        next h => simpa [h] using htwo 'r' (by decide)
        next h4 =>
          split
          next h => simpa [h] using htwo 't' (by decide)
          next h5 =>
            split
            next h => simpa [h] using htwo 'b' (by decide)
            next h6 =>
              split
              next h => simpa [h] using htwo 'f' (by decide)
              next h7 =>
                simp only [h1, h2, h3, h4, h5, h6, h7, or_self, if_false]
                split
                next h =>
                  have hlow := hdigit (c.toNat % 16) (Nat.mod_lt _ (by decide))
                  have hhigh := hdigit (c.toNat / 16) (by omega)
                  rw [size_cons, size_cons, size_cons, size_cons, size_cons, size_cons, hlow, hhigh]
                  rfl
                next h =>
                  rw [size_cons]
                  rfl

theorem width_le (c : Char) : width c ≤ 6 := by
  have hsize := c.utf8Size_le_four
  rw [width_eq]
  split
  · omega
  · split <;> omega

/-- A joined list takes its parts and the separators between them. -/
theorem size_join (items : List String) :
    (Text.join "," items).utf8ByteSize =
      (items.map String.utf8ByteSize).sum + (items.length - 1) := by
  have hcomma : (",".utf8ByteSize) = 1 := rfl
  induction items with
  | nil => rfl
  | cons item items ih =>
      cases items with
      | nil => simp [Text.join]
      | cons next items =>
          show (item ++ "," ++ Text.join "," (next :: items)).utf8ByteSize = _
          rw [String.utf8ByteSize_append, String.utf8ByteSize_append, ih, hcomma, List.map_cons, List.map_cons, List.sum_cons, List.sum_cons]
          simp only [List.length_cons, List.map_cons, List.sum_cons]
          omega

theorem size_join_perm {items others : List String}
    (h : (items.map String.utf8ByteSize).Perm (others.map String.utf8ByteSize)) :
    (Text.join "," items).utf8ByteSize = (Text.join "," others).utf8ByteSize := by
  have hlength := h.length_eq
  rw [List.length_map, List.length_map] at hlength
  rw [size_join, size_join, h.sum_nat, hlength]

theorem fieldTexts_insertField (k : String) (j : Json) (fs : List (String × Json)) :
    (fieldTexts (Json.insertField k j fs)).Perm (fieldTexts ((k, j) :: fs)) := by
  induction fs with
  | nil => exact List.Perm.refl _
  | cons f fs ih =>
      rw [Json.insertField]
      split
      · exact List.Perm.refl _
      · obtain ⟨name, value⟩ := f
        simp only [fieldTexts] at ih ⊢
        exact (ih.cons _).trans (List.Perm.swap _ _ _)

mutual

/-- Sorted keys take as many bytes. -/
theorem size_canonical (j : Json) : (text j.canonical).utf8ByteSize = (text j).utf8ByteSize :=
  match j with
  | .null | .bool _ | .num _ | .str _ => rfl
  | .arr xs => by
      rw [Json.canonical, text, text]
      simp only [String.utf8ByteSize_append]
      rw [size_join_perm (List.Perm.of_eq (sizes_canonicalList xs))]
  | .obj fs => by
      rw [Json.canonical, text, text]
      simp only [String.utf8ByteSize_append]
      rw [size_join_perm (sizes_canonicalFields fs)]

theorem sizes_canonicalList (xs : List Json) :
    (texts (Json.canonicalList xs)).map String.utf8ByteSize =
      (texts xs).map String.utf8ByteSize :=
  match xs with
  | [] => rfl
  | x :: xs => by
      rw [Json.canonicalList, texts, texts, List.map_cons, List.map_cons, size_canonical x,
        sizes_canonicalList xs]

theorem sizes_canonicalFields (fs : List (String × Json)) :
    ((fieldTexts (Json.canonicalFields fs)).map String.utf8ByteSize).Perm
      ((fieldTexts fs).map String.utf8ByteSize) :=
  match fs with
  | [] => List.Perm.refl _
  | (k, x) :: fs => by
      rw [Json.canonicalFields]
      refine ((fieldTexts_insertField k x.canonical _).map _).trans ?_
      simp only [fieldTexts, List.map_cons, String.utf8ByteSize_append, size_canonical x]
      exact (sizes_canonicalFields fs).cons _

end

theorem size_dumps (j : Json) : (dumps j).utf8ByteSize = (text j).utf8ByteSize := size_canonical j

end Sizes

end JsonText
