import RcpGraph.Lib.Json

/-!
Schemas for JSON documents. A kind checks a value, normalising it, and completes
a checked value with the defaults its author left out. Each kind carries the two
facts a reader of stored documents relies on: what was accepted is accepted
again unchanged, and a completed value is accepted unchanged.
-/

namespace Schema

/-- How a check reads integers and booleans that are written in another form. -/
structure Coercions where
  int : Json → Option Int
  bool : Json → Option Bool
  int_num : ∀ n, int (.num n) = some n
  bool_bool : ∀ b, bool (.bool b) = some b

/-- Only the value's own type is accepted. -/
def strict : Coercions where
  int
    | .num n => some n
    | _ => none
  bool
    | .bool b => some b
    | _ => none
  int_num _ := rfl
  bool_bool _ := rfl

/-- One accepted form of a JSON value. -/
structure Kind where
  check : Coercions → Json → Except String Json
  complete : Json → Json
  check_stable : ∀ co j j', check co j = .ok j' → ∀ co', check co' j' = .ok j'
  check_complete : ∀ co j, check co j = .ok j →
    ∀ co', check co' (complete j) = .ok (complete j) ∧ complete (complete j) = complete j

/-- A normal form for strings that is a fixed point of its own normalisation. -/
structure Normal where
  run : String → Except String String
  stable : ∀ s t, run s = .ok t → run t = .ok t

namespace Normal

/-- A test without normalisation. -/
def test (p : String → Bool) (refusal : String) : Normal where
  run s := if p s then .ok s else .error refusal
  stable s t h := by
    split at h
    next hp =>
      cases h
      simp [hp]
    next => cases h

def any : Normal := test (fun _ => true) ""

def literal (options : List String) : Normal :=
  test (fun s => decide (s ∈ options)) <|
    "Input should be " ++ match (options.map Text.quoted).reverse with
      | [] => ""
      | [o] => o
      | o :: os => Text.join ", " os.reverse ++ " or " ++ o

def minLength (n : Nat) : Normal :=
  test (fun s => decide (n ≤ s.length))
    ("String should have at least " ++ toString n ++ " character" ++ if n = 1 then "" else "s")

def maxLength (n : Nat) : Normal :=
  test (fun s => decide (s.length ≤ n))
    ("String should have at most " ++ toString n ++ " character" ++ if n = 1 then "" else "s")

end Normal

namespace Kind

def str (n : Normal) : Kind where
  check _
    | .str s => (n.run s).map .str
    | _ => .error "Input should be a valid string"
  complete := id
  check_stable co j j' h co' := by
    cases j with
    | str s =>
        simp only at h
        cases hs : n.run s with
        | error e => simp [hs, Except.map] at h
        | ok t =>
            simp only [hs, Except.map, Except.ok.injEq] at h
            subst h
            simp [n.stable s t hs, Except.map]
    | null | bool _ | num _ | arr _ | obj _ => cases h
  check_complete co j h co' := by
    refine ⟨?_, rfl⟩
    cases j with
    | str s => exact h
    | null | bool _ | num _ | arr _ | obj _ => cases h

def int (least : Option Int) : Kind where
  check co j :=
    match co.int j with
    | none => .error "Input should be a valid integer"
    | some n =>
        match least with
        | none => .ok (.num n)
        | some m =>
            if m ≤ n then .ok (.num n)
            else .error ("Input should be greater than or equal to " ++ toString m)
  complete := id
  check_stable co j j' h co' := by
    cases hn : co.int j with
    | none => simp [hn] at h
    | some n =>
        simp only [hn] at h
        cases least with
        | none =>
            cases h
            simp [co'.int_num]
        | some m =>
            simp only at h
            split at h
            next hm =>
              cases h
              simp [co'.int_num, hm]
            next => cases h
  check_complete co j h co' := by
    refine ⟨?_, rfl⟩
    cases hn : co.int j with
    | none => simp [hn] at h
    | some n =>
        simp only [hn] at h
        cases least with
        | none =>
            cases h
            simp [co'.int_num]
        | some m =>
            simp only at h
            split at h
            next hm =>
              cases h
              simp [co'.int_num, hm]
            next => cases h

def bool : Kind where
  check co j :=
    match co.bool j with
    | none => .error "Input should be a valid boolean"
    | some b => .ok (.bool b)
  complete := id
  check_stable co j j' h co' := by
    cases hb : co.bool j with
    | none => simp [hb] at h
    | some b =>
        simp only [hb, Except.ok.injEq] at h
        subst h
        simp [co'.bool_bool]
  check_complete co j h co' := by
    refine ⟨?_, rfl⟩
    cases hb : co.bool j with
    | none => simp [hb] at h
    | some b =>
        simp only [hb, Except.ok.injEq] at h
        subst h
        simp [co'.bool_bool]

/-- The kind, or null. -/
def opt (k : Kind) : Kind where
  check co j := if j = .null then .ok .null else k.check co j
  complete j := if j = .null then .null else k.complete j
  check_stable co j j' h co' := by
    by_cases hj' : j' = .null
    · simp [hj']
    · by_cases hj : j = .null
      · simp only [hj, if_true, Except.ok.injEq] at h
        exact absurd h.symm hj'
      · rw [if_neg hj] at h
        rw [if_neg hj', k.check_stable co j j' h co']
  check_complete co j h co' := by
    by_cases hj : j = .null
    · simp [hj]
    · rw [if_neg hj] at h
      obtain ⟨hc, hi⟩ := k.check_complete co j h co'
      simp only [hj, if_false]
      by_cases hn : k.complete j = .null
      · simp [hn]
      · exact ⟨by rw [if_neg hn, hc], by rw [if_neg hn, hi]⟩

/-- Check every member in order; the first refusal is reported. -/
def checkAll (k : Kind) (co : Coercions) : List Json → Except String (List Json)
  | [] => .ok []
  | j :: js => do
      let j' ← k.check co j
      let js' ← checkAll k co js
      pure (j' :: js')

theorem checkAll_cons_ok (k : Kind) (co : Coercions) (j : Json) (js out : List Json)
    (h : checkAll k co (j :: js) = .ok out) :
    ∃ j' js', k.check co j = .ok j' ∧ checkAll k co js = .ok js' ∧ out = j' :: js' := by
  simp only [checkAll, bind, Except.bind, pure, Except.pure] at h
  cases hj : k.check co j with
  | error e => simp [hj] at h
  | ok j' =>
      cases hjs : checkAll k co js with
      | error e => simp [hj, hjs] at h
      | ok js' =>
          simp only [hj, hjs, Except.ok.injEq] at h
          exact ⟨j', js', rfl, rfl, h.symm⟩

theorem checkAll_stable (k : Kind) (co co' : Coercions) (js out : List Json)
    (h : checkAll k co js = .ok out) : checkAll k co' out = .ok out := by
  induction js generalizing out with
  | nil =>
      cases h
      rfl
  | cons j js ih =>
      obtain ⟨j', js', hj, hjs, rfl⟩ := checkAll_cons_ok k co j js out h
      simp [checkAll, k.check_stable co j j' hj co', ih js' hjs, bind, Except.bind, pure,
        Except.pure]

theorem checkAll_complete (k : Kind) (co co' : Coercions) (js : List Json)
    (h : checkAll k co js = .ok js) :
    checkAll k co' (js.map k.complete) = .ok (js.map k.complete) ∧
      (js.map k.complete).map k.complete = js.map k.complete := by
  induction js with
  | nil => exact ⟨rfl, rfl⟩
  | cons j js ih =>
      obtain ⟨j', js', hj, hjs, he⟩ := checkAll_cons_ok k co j js _ h
      obtain ⟨rfl, rfl⟩ := List.cons.inj he
      obtain ⟨hc, hi⟩ := k.check_complete co j hj co'
      obtain ⟨hcs, his⟩ := ih hjs
      refine ⟨?_, ?_⟩
      · simp [checkAll, hc, hcs, bind, Except.bind, pure, Except.pure]
      · rw [List.map_cons, List.map_cons, hi, his]

/-- Lists of a kind. -/
def list (k : Kind) : Kind where
  check co
    | .arr js => (checkAll k co js).map .arr
    | _ => .error "Input should be a valid list"
  complete
    | .arr js => .arr (js.map k.complete)
    | j => j
  check_stable co j j' h co' := by
    cases j with
    | arr js =>
        simp only at h
        cases hjs : checkAll k co js with
        | error e => simp [hjs, Except.map] at h
        | ok out =>
            simp only [hjs, Except.map, Except.ok.injEq] at h
            subst h
            simp [checkAll_stable k co co' js out hjs, Except.map]
    | null | bool _ | num _ | str _ | obj _ => cases h
  check_complete co j h co' := by
    cases j with
    | arr js =>
        simp only at h
        cases hjs : checkAll k co js with
        | error e => simp [hjs, Except.map] at h
        | ok out =>
            simp only [hjs, Except.map, Except.ok.injEq, Json.arr.injEq] at h
            subst h
            obtain ⟨hc, hi⟩ := checkAll_complete k co co' out hjs
            exact ⟨by simp [hc, Except.map], congrArg Json.arr hi⟩
    | null | bool _ | num _ | str _ | obj _ => cases h

/-- A further test on checked values; it must not see what completion adds. -/
def guard (k : Kind) (p : Json → Bool) (refusal : String)
    (hp : ∀ j, p j = true → p (k.complete j) = true) : Kind where
  check co j := do
    let j' ← k.check co j
    if p j' then pure j' else throw refusal
  complete := k.complete
  check_stable co j j' h co' := by
    simp only [bind, Except.bind] at h
    cases hk : k.check co j with
    | error e => simp [hk] at h
    | ok i =>
        simp only [hk] at h
        split at h
        next hpi =>
          cases h
          simp [k.check_stable co j j' hk co', hpi, bind, Except.bind, pure, Except.pure]
        next => cases h
  check_complete co j h co' := by
    simp only [bind, Except.bind] at h
    cases hk : k.check co j with
    | error e => simp [hk] at h
    | ok i =>
        simp only [hk] at h
        split at h
        next hpi =>
          cases h
          obtain ⟨hc, hi⟩ := k.check_complete co j hk co'
          exact ⟨by simp [hc, hp j hpi, bind, Except.bind, pure, Except.pure], hi⟩
        next => cases h

/-- A text, a number, a boolean or a list of texts. -/
def scalar : Kind where
  check _
    | .str s => .ok (.str s)
    | .num n => .ok (.num n)
    | .bool b => .ok (.bool b)
    | .arr js =>
        if js.all fun j => j.str?.isSome then .ok (.arr js)
        else .error "Input should be a valid string"
    | _ => .error "Input should be a valid string"
  complete := id
  check_stable co j j' h co' := by
    cases j with
    | str _ | num _ | bool _ =>
        cases h
        rfl
    | arr js =>
        simp only at h
        split at h
        next hjs =>
          cases h
          simp [hjs]
        next => cases h
    | null | obj _ => cases h
  check_complete co j h co' := by
    refine ⟨?_, rfl⟩
    cases j with
    | str _ | num _ | bool _ => rfl
    | arr js => exact h
    | null | obj _ => cases h

/-- Check every value of a mapping, keeping keys and order. -/
def checkValues (k : Kind) (co : Coercions) :
    List (String × Json) → Except String (List (String × Json))
  | [] => .ok []
  | (n, j) :: fs => do
      let j' ← k.check co j
      let fs' ← checkValues k co fs
      pure ((n, j') :: fs')

def completeValues (k : Kind) (fs : List (String × Json)) : List (String × Json) :=
  fs.map fun e => (e.1, k.complete e.2)

theorem checkValues_cons_ok (k : Kind) (co : Coercions) (n : String) (j : Json)
    (fs out : List (String × Json)) (h : checkValues k co ((n, j) :: fs) = .ok out) :
    ∃ j' fs', k.check co j = .ok j' ∧ checkValues k co fs = .ok fs' ∧ out = (n, j') :: fs' := by
  simp only [checkValues, bind, Except.bind, pure, Except.pure] at h
  cases hj : k.check co j with
  | error e => simp [hj] at h
  | ok j' =>
      cases hfs : checkValues k co fs with
      | error e => simp [hj, hfs] at h
      | ok fs' =>
          simp only [hj, hfs, Except.ok.injEq] at h
          exact ⟨j', fs', rfl, rfl, h.symm⟩

theorem checkValues_stable (k : Kind) (co co' : Coercions) (fs out : List (String × Json))
    (h : checkValues k co fs = .ok out) : checkValues k co' out = .ok out := by
  induction fs generalizing out with
  | nil =>
      cases h
      rfl
  | cons f fs ih =>
      obtain ⟨j', fs', hj, hfs, rfl⟩ := checkValues_cons_ok k co f.1 f.2 fs out h
      simp [checkValues, k.check_stable co f.2 j' hj co', ih fs' hfs, bind, Except.bind, pure,
        Except.pure]

theorem checkValues_complete (k : Kind) (co co' : Coercions) (fs : List (String × Json))
    (h : checkValues k co fs = .ok fs) :
    checkValues k co' (completeValues k fs) = .ok (completeValues k fs) ∧
      completeValues k (completeValues k fs) = completeValues k fs := by
  induction fs with
  | nil => exact ⟨rfl, rfl⟩
  | cons f fs ih =>
      obtain ⟨n, j⟩ := f
      obtain ⟨j', fs', hj, hfs, he⟩ := checkValues_cons_ok k co n j fs _ h
      obtain ⟨hj', rfl⟩ := List.cons.inj he
      obtain ⟨-, rfl⟩ := Prod.mk.inj hj'
      obtain ⟨hc, hi⟩ := k.check_complete co j hj co'
      obtain ⟨hcs, his⟩ := ih hfs
      refine ⟨?_, ?_⟩
      · simp only [completeValues, List.map_cons] at hcs ⊢
        simp [checkValues, hc, hcs, bind, Except.bind, pure, Except.pure]
      · simp only [completeValues, List.map_cons] at his ⊢
        rw [hi, his]

/-- String-keyed mappings with values of a kind. -/
def dict (k : Kind) : Kind where
  check co
    | .obj fs => (checkValues k co fs).map .obj
    | _ => .error "Input should be a valid dictionary"
  complete
    | .obj fs => .obj (completeValues k fs)
    | j => j
  check_stable co j j' h co' := by
    cases j with
    | obj fs =>
        simp only at h
        cases hfs : checkValues k co fs with
        | error e => simp [hfs, Except.map] at h
        | ok out =>
            simp only [hfs, Except.map, Except.ok.injEq] at h
            subst h
            simp [checkValues_stable k co co' fs out hfs, Except.map]
    | null | bool _ | num _ | str _ | arr _ => cases h
  check_complete co j h co' := by
    cases j with
    | obj fs =>
        simp only at h
        cases hfs : checkValues k co fs with
        | error e => simp [hfs, Except.map] at h
        | ok out =>
            simp only [hfs, Except.map, Except.ok.injEq, Json.obj.injEq] at h
            subst h
            obtain ⟨hc, hi⟩ := checkValues_complete k co co' out hfs
            exact ⟨by simp [hc, Except.map], congrArg Json.obj hi⟩
    | null | bool _ | num _ | str _ | arr _ => cases h

/-- Kinds that store what was written. -/
def Verbatim (k : Kind) : Prop := ∀ co j j', k.check co j = .ok j' → j' = j ∧ k.complete j = j

theorem verbatim_str (p : String → Bool) (refusal : String) :
    (str (.test p refusal)).Verbatim := by
  intro co j j' h
  refine ⟨?_, rfl⟩
  cases j with
  | str s =>
      simp only [str, Normal.test] at h
      split at h
      · cases h
        rfl
      · cases h
  | null | bool _ | num _ | arr _ | obj _ => cases h

theorem verbatim_opt (k : Kind) (hk : k.Verbatim) : k.opt.Verbatim := by
  intro co j j' h
  simp only [opt] at h ⊢
  by_cases hj : j = .null
  · simp only [hj, if_true, Except.ok.injEq] at h ⊢
    exact ⟨h.symm, trivial⟩
  · simp only [hj, if_false] at h ⊢
    exact hk co j j' h

theorem verbatim_list (k : Kind) (hk : k.Verbatim) : k.list.Verbatim := by
  have all : ∀ co js out, checkAll k co js = .ok out → out = js ∧ js.map k.complete = js := by
    intro co js
    induction js with
    | nil =>
        intro out h
        cases h
        exact ⟨rfl, rfl⟩
    | cons j js ih =>
        intro out h
        obtain ⟨j', js', hj, hjs, rfl⟩ := checkAll_cons_ok k co j js out h
        obtain ⟨rfl, hc⟩ := hk co j j' hj
        obtain ⟨rfl, hcs⟩ := ih js' hjs
        exact ⟨rfl, by rw [List.map_cons, hc, hcs]⟩
  intro co j j' h
  cases j with
  | arr js =>
      simp only [list] at h ⊢
      cases hjs : checkAll k co js with
      | error e => simp [hjs, Except.map] at h
      | ok out =>
          obtain ⟨rfl, hc⟩ := all co js out hjs
          simp only [hjs, Except.map, Except.ok.injEq] at h
          exact ⟨h.symm, by rw [hc]⟩
  | null | bool _ | num _ | str _ | obj _ => cases h

theorem verbatim_scalar : scalar.Verbatim := by
  intro co j j' h
  refine ⟨?_, rfl⟩
  cases j with
  | str _ | num _ | bool _ =>
      cases h
      rfl
  | arr js =>
      simp only [scalar] at h
      split at h
      · cases h
        rfl
      · cases h
  | null | obj _ => cases h

theorem verbatim_dict (k : Kind) (hk : k.Verbatim) : k.dict.Verbatim := by
  have all : ∀ co fs out, checkValues k co fs = .ok out → out = fs ∧ completeValues k fs = fs := by
    intro co fs
    induction fs with
    | nil =>
        intro out h
        cases h
        exact ⟨rfl, rfl⟩
    | cons f fs ih =>
        intro out h
        obtain ⟨j', fs', hj, hfs, rfl⟩ := checkValues_cons_ok k co f.1 f.2 fs out h
        obtain ⟨rfl, hc⟩ := hk co f.2 j' hj
        obtain ⟨rfl, hcs⟩ := ih fs' hfs
        refine ⟨rfl, ?_⟩
        simp only [completeValues] at hcs ⊢
        rw [List.map_cons, hc, hcs]
  intro co j j' h
  cases j with
  | obj fs =>
      simp only [dict] at h ⊢
      cases hfs : checkValues k co fs with
      | error e => simp [hfs, Except.map] at h
      | ok out =>
          obtain ⟨rfl, hc⟩ := all co fs out hfs
          simp only [hfs, Except.map, Except.ok.injEq] at h
          exact ⟨h.symm, by rw [hc]⟩
  | null | bool _ | num _ | str _ | arr _ => cases h

theorem obj_of_dict (k : Kind) (co : Coercions) (j j' : Json) (h : k.dict.check co j = .ok j') :
    ∃ fs, j = .obj fs := by
  cases j with
  | obj fs => exact ⟨fs, rfl⟩
  | null | bool _ | num _ | str _ | arr _ => cases h

/-- Kinds that read a value of their own type alike under every coercion. -/
def Lenient (k : Kind) : Prop := ∀ co j j', k.check strict j = .ok j' → k.check co j = .ok j'

theorem lenient_str (n : Normal) : (str n).Lenient := fun _ _ _ h => h

theorem lenient_int (least : Option Int) : (int least).Lenient := by
  intro co j j' h
  cases j with
  | num n =>
      simp only [int, strict] at h
      simp only [int, co.int_num]
      exact h
  | null | bool _ | str _ | arr _ | obj _ => cases h

theorem lenient_opt (k : Kind) (hk : k.Lenient) : k.opt.Lenient := by
  intro co j j' h
  simp only [opt] at h ⊢
  by_cases hj : j = .null
  · rw [if_pos hj] at h ⊢
    exact h
  · rw [if_neg hj] at h ⊢
    exact hk co j j' h

theorem checkAll_lenient (k : Kind) (hk : k.Lenient) (co : Coercions) (js out : List Json)
    (h : checkAll k strict js = .ok out) : checkAll k co js = .ok out := by
  induction js generalizing out with
  | nil => exact h
  | cons j js ih =>
      obtain ⟨j', js', hj, hjs, rfl⟩ := checkAll_cons_ok k strict j js out h
      simp [checkAll, hk co j j' hj, ih js' hjs, bind, Except.bind, pure, Except.pure]

theorem lenient_list (k : Kind) (hk : k.Lenient) : k.list.Lenient := by
  intro co j j' h
  cases j with
  | arr js =>
      simp only [list] at h ⊢
      cases hjs : checkAll k strict js with
      | error e => simp [hjs, Except.map] at h
      | ok out =>
          rw [hjs] at h
          rw [checkAll_lenient k hk co js out hjs]
          exact h
  | null | bool _ | num _ | str _ | obj _ => cases h

/-- A value that was checked and completed. -/
def Settled (k : Kind) (j : Json) : Prop := k.check strict j = .ok j ∧ k.complete j = j

/-- Kinds whose settled values are equal in the reading language only when they are the same. -/
def Exact (k : Kind) : Prop :=
  ∀ i j, k.Settled i → k.Settled j → i.pyEq j = true → i = j

theorem exact_str (n : Normal) : (str n).Exact := by
  intro i j hi hj h
  cases i with
  | str s =>
      cases j with
      | str t =>
          simp only [Json.pyEq, decide_eq_true_eq] at h
          rw [h]
      | null | bool _ | num _ | arr _ | obj _ => cases hj.1
  | null | bool _ | num _ | arr _ | obj _ => cases hi.1

theorem exact_int (least : Option Int) : (int least).Exact := by
  intro i j hi hj h
  cases i with
  | num a =>
      cases j with
      | num b =>
          simp only [Json.pyEq, decide_eq_true_eq] at h
          rw [h]
      | null | bool _ | str _ | arr _ | obj _ => cases hj.1
  | null | bool _ | str _ | arr _ | obj _ => cases hi.1

theorem Settled.of_opt {k : Kind} {j : Json} (h : k.opt.Settled j) (hj : j ≠ .null) :
    k.Settled j := by
  simpa only [Settled, opt, if_neg hj] using h

theorem exact_opt (k : Kind) (hk : k.Exact) : k.opt.Exact := by
  intro i j hi hj h
  by_cases hi' : i = .null
  · subst hi'
    cases j with
    | null => rfl
    | bool _ | num _ | str _ | arr _ | obj _ => simp [Json.pyEq] at h
  · by_cases hj' : j = .null
    · subst hj'
      cases i with
      | null => rfl
      | bool _ | num _ | str _ | arr _ | obj _ => simp [Json.pyEq] at h
    · exact hk i j (hi.of_opt hi') (hj.of_opt hj') h

/-- A settled list, with its members. -/
theorem Settled.of_list {k : Kind} {j : Json} (h : k.list.Settled j) :
    ∃ js, j = .arr js ∧ ∀ i ∈ js, k.Settled i := by
  have all : ∀ js, checkAll k strict js = .ok js → js.map k.complete = js →
      ∀ i ∈ js, k.Settled i := by
    intro js
    induction js with
    | nil => intro _ _ i hi; cases hi
    | cons x xs ih =>
        intro hcheck hcomplete i hi
        obtain ⟨x', xs', hx, hxs, he⟩ := checkAll_cons_ok k strict x xs _ hcheck
        obtain ⟨rfl, rfl⟩ := List.cons.inj he
        rw [List.map_cons] at hcomplete
        obtain ⟨hc, hcs⟩ := List.cons.inj hcomplete
        rcases List.mem_cons.mp hi with rfl | hi
        · exact ⟨hx, hc⟩
        · exact ih hxs hcs i hi
  obtain ⟨hcheck, hcomplete⟩ := h
  cases j with
  | arr js =>
      refine ⟨js, rfl, ?_⟩
      simp only [list] at hcheck hcomplete
      cases hjs : checkAll k strict js with
      | error e => simp [hjs, Except.map] at hcheck
      | ok out =>
          simp only [hjs, Except.map, Except.ok.injEq, Json.arr.injEq] at hcheck hcomplete
          exact all js (hcheck ▸ hjs) hcomplete
  | null | bool _ | num _ | str _ | obj _ => cases hcheck

theorem exact_list (k : Kind) (hk : k.Exact) : k.list.Exact := by
  have all : ∀ is js : List Json, (∀ i ∈ is, k.Settled i) → (∀ j ∈ js, k.Settled j) →
      Json.pyEqList is js = true → is = js := by
    intro is
    induction is with
    | nil =>
        intro js _ _ h
        cases js with
        | nil => rfl
        | cons j js => simp [Json.pyEqList] at h
    | cons i is ih =>
        intro js his hjs h
        cases js with
        | nil => simp [Json.pyEqList] at h
        | cons j js =>
            simp only [Json.pyEqList, Bool.and_eq_true] at h
            rw [hk i j (his i List.mem_cons_self) (hjs j List.mem_cons_self) h.1,
              ih js (fun a ha => his a (List.mem_cons_of_mem i ha))
                (fun a ha => hjs a (List.mem_cons_of_mem j ha)) h.2]
  intro i j hi hj h
  obtain ⟨is, rfl, his⟩ := hi.of_list
  obtain ⟨js, rfl, hjs⟩ := hj.of_list
  rw [Json.pyEq] at h
  rw [all is js his hjs h]

end Kind

end Schema
