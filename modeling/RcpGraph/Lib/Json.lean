import RcpGraph.Lib.Dict
import RcpGraph.Lib.Text

/-!
JSON values with the equality and truth tests of the language that reads them.
Numbers are integers: floating point is outside this development.
-/

/-- A decoded JSON value. -/
inductive Json where
  | null
  | bool (b : Bool)
  | num (n : Int)
  | str (s : String)
  | arr (xs : List Json)
  | obj (fields : List (String × Json))
  deriving Repr, Inhabited

namespace Json

mutual

def decEq : (a b : Json) → Decidable (a = b)
  | .null, .null => isTrue rfl
  | .bool a, .bool b => decidable_of_iff (a = b) (by simp)
  | .num a, .num b => decidable_of_iff (a = b) (by simp)
  | .str a, .str b => decidable_of_iff (a = b) (by simp)
  | .arr a, .arr b =>
      haveI := decEqList a b
      decidable_of_iff (a = b) (by simp)
  | .obj a, .obj b =>
      haveI := decEqFields a b
      decidable_of_iff (a = b) (by simp)
  | .null, .bool _ | .null, .num _ | .null, .str _ | .null, .arr _ | .null, .obj _
  | .bool _, .null | .bool _, .num _ | .bool _, .str _ | .bool _, .arr _ | .bool _, .obj _
  | .num _, .null | .num _, .bool _ | .num _, .str _ | .num _, .arr _ | .num _, .obj _
  | .str _, .null | .str _, .bool _ | .str _, .num _ | .str _, .arr _ | .str _, .obj _
  | .arr _, .null | .arr _, .bool _ | .arr _, .num _ | .arr _, .str _ | .arr _, .obj _
  | .obj _, .null | .obj _, .bool _ | .obj _, .num _ | .obj _, .str _ | .obj _, .arr _ =>
      isFalse (by simp)

def decEqList : (a b : List Json) → Decidable (a = b)
  | [], [] => isTrue rfl
  | [], _ :: _ => isFalse (by simp)
  | _ :: _, [] => isFalse (by simp)
  | x :: xs, y :: ys =>
      haveI := decEq x y
      haveI := decEqList xs ys
      decidable_of_iff (x = y ∧ xs = ys) (by simp)

def decEqFields : (a b : List (String × Json)) → Decidable (a = b)
  | [], [] => isTrue rfl
  | [], _ :: _ => isFalse (by simp)
  | _ :: _, [] => isFalse (by simp)
  | (k, x) :: xs, (l, y) :: ys =>
      haveI := decEq x y
      haveI := decEqFields xs ys
      decidable_of_iff ((k = l ∧ x = y) ∧ xs = ys) (by simp)

end

instance : DecidableEq Json := decEq

mutual

/-- Equality as the reading language has it: `True == 1`, and an object is
compared as a mapping, without its order. -/
def pyEq : Json → Json → Bool
  | .null, .null => true
  | .bool a, .bool b => a == b
  | .bool a, .num n => decide ((if a then 1 else 0) = n)
  | .num n, .bool a => decide (n = (if a then 1 else 0))
  | .num a, .num b => decide (a = b)
  | .str a, .str b => decide (a = b)
  | .arr xs, .arr ys => pyEqList xs ys
  | .obj xs, .obj ys => xs.length == ys.length && pyEqFields xs ys
  | _, _ => false

def pyEqList : List Json → List Json → Bool
  | [], [] => true
  | x :: xs, y :: ys => pyEq x y && pyEqList xs ys
  | _, _ => false

def pyEqFields : List (String × Json) → List (String × Json) → Bool
  | [], _ => true
  | (k, x) :: xs, ys =>
      (match Assoc.find k ys with
        | some y => pyEq x y
        | none => false) && pyEqFields xs ys

end

/-- Insert a field into an object whose keys are in order. -/
def insertField (k : String) (j : Json) : List (String × Json) → List (String × Json)
  | [] => [(k, j)]
  | f :: fs => if k < f.1 then (k, j) :: f :: fs else f :: insertField k j fs

mutual

/-- The value with the keys of every object in order, as `sort_keys` writes it. -/
def canonical : Json → Json
  | .arr xs => .arr (canonicalList xs)
  | .obj fs => .obj (canonicalFields fs)
  | j => j

def canonicalList : List Json → List Json
  | [] => []
  | x :: xs => canonical x :: canonicalList xs

def canonicalFields : List (String × Json) → List (String × Json)
  | [] => []
  | (k, x) :: fs => insertField k (canonical x) (canonicalFields fs)

end

mutual

/-- A form that two values share when the reading language finds them equal: truth values as
numbers, and the keys of every object in order. -/
def equalForm : Json → Json
  | .bool b => .num (if b then 1 else 0)
  | .arr xs => .arr (equalFormList xs)
  | .obj fs => .obj (equalFormFields fs)
  | j => j

def equalFormList : List Json → List Json
  | [] => []
  | x :: xs => equalForm x :: equalFormList xs

def equalFormFields : List (String × Json) → List (String × Json)
  | [] => []
  | (k, x) :: fs => insertField k (equalForm x) (equalFormFields fs)

end

theorem mem_fst_insertField (k x : String) (j : Json) (fs : List (String × Json)) :
    x ∈ (insertField k j fs).map Prod.fst ↔ x = k ∨ x ∈ fs.map Prod.fst := by
  induction fs with
  | nil => simp [insertField]
  | cons f fs ih =>
      unfold insertField
      split
      · simp
      · rw [List.map_cons, List.mem_cons, ih, List.map_cons, List.mem_cons]
        tauto

theorem mem_fst_equalFormFields (x : String) (fs : List (String × Json)) :
    x ∈ (equalFormFields fs).map Prod.fst ↔ x ∈ fs.map Prod.fst := by
  induction fs with
  | nil => simp [equalFormFields]
  | cons f fs ih => rw [equalFormFields, mem_fst_insertField, ih, List.map_cons, List.mem_cons]

theorem find_insertField (k x : String) (j : Json) (fs : List (String × Json))
    (h : k ∉ fs.map Prod.fst) :
    Assoc.find x (insertField k j fs) = if k = x then some j else Assoc.find x fs := by
  induction fs with
  | nil => rfl
  | cons f fs ih =>
      rw [List.map_cons, List.mem_cons, not_or] at h
      unfold insertField
      split
      · rfl
      · rw [Assoc.find, ih h.2, Assoc.find]
        by_cases hf : f.1 = x
        · have hk : k ≠ x := fun hk => h.1 (hk.trans hf.symm)
          rw [if_pos hf, if_pos hf, if_neg hk]
        · rw [if_neg hf, if_neg hf]

theorem find_equalFormFields (x : String) (fs : List (String × Json))
    (h : (fs.map Prod.fst).Nodup) :
    Assoc.find x (equalFormFields fs) = (Assoc.find x fs).map equalForm := by
  induction fs with
  | nil => rfl
  | cons f fs ih =>
      rw [List.map_cons, List.nodup_cons] at h
      have hkeys : f.1 ∉ (equalFormFields fs).map Prod.fst := by
        rw [mem_fst_equalFormFields]
        exact h.1
      rw [equalFormFields, find_insertField _ _ _ _ hkeys, ih h.2, Assoc.find]
      split <;> rfl

mutual

/-- The compact text of a value. -/
def compact : Json → String
  | .null => "null"
  | .bool b => if b then "true" else "false"
  | .num n => toString n
  | .str s => Text.quoted s
  | .arr xs => "[" ++ compactList xs ++ "]"
  | .obj fs => "\x7b" ++ compactFields fs ++ "\x7d"

def compactList : List Json → String
  | [] => ""
  | x :: xs => compact x ++ "," ++ compactList xs

def compactFields : List (String × Json) → String
  | [] => ""
  | (k, x) :: fs => Text.quoted k ++ ":" ++ compact x ++ "," ++ compactFields fs

end

/-- The truth value of a JSON value in a condition. -/
def truthy : Json → Bool
  | .null => false
  | .bool b => b
  | .num n => n ≠ 0
  | .str s => s ≠ ""
  | .arr xs => !xs.isEmpty
  | .obj fs => !fs.isEmpty

def str? : Json → Option String
  | .str s => some s
  | _ => none

def arr? : Json → Option (List Json)
  | .arr xs => some xs
  | _ => none

def obj? : Json → Option (List (String × Json))
  | .obj fs => some fs
  | _ => none

/-- A field of an object, `none` on any other value. -/
def get? (j : Json) (k : String) : Option Json := j.obj?.bind (Assoc.find k)

/-- The strings of a list value; any other member is left out. -/
def strings (j : Json) : List String := (j.arr?.getD []).filterMap str?

def strArr (xs : List String) : Json := .arr (xs.map .str)

def ofOption : Option String → Json
  | some s => .str s
  | none => .null

@[simp] theorem strings_strArr (xs : List String) : (strArr xs).strings = xs := by
  simp [strings, strArr, arr?, List.filterMap_map, Function.comp_def, str?]

@[simp] theorem strArr_inj (xs ys : List String) : strArr xs = strArr ys ↔ xs = ys := by
  refine ⟨fun h => ?_, fun h => h ▸ rfl⟩
  simpa using congrArg strings h

end Json
