import Mathlib.Logic.Function.Basic
import RcpGraph.Lib.Steps

/-!
Objects that hold their containers by reference. Copying an object shares its
containers; a write into a container is seen through every object that holds
it. The rules relate a program that writes in place to a function on values, as
long as it only writes what was allocated after a given point.
-/

namespace Objects

variable {K : Type} {C : K → Type} {A : Type}

/-- What an object stands for: the contents of its containers and its attributes. -/
@[ext]
structure Value (C : K → Type) (A : Type) where
  contents : ∀ k, C k
  attrs : A

structure Object (K A : Type) where
  refs : K → Nat
  attrs : A

structure Store (C : K → Type) (A : Type) where
  cells : ∀ k, List (C k)
  objects : List (Object K A)

def Value.set [DecidableEq K] (v : Value C A) (k : K) (c : C k) : Value C A :=
  { v with contents := Function.update v.contents k c }

namespace Store

/-- The object at an address has this value. -/
def Holds (σ : Store C A) (o : Nat) (v : Value C A) : Prop :=
  ∃ obj, σ.objects[o]? = some obj ∧ obj.attrs = v.attrs ∧
    ∀ k, (σ.cells k)[obj.refs k]? = some (v.contents k)

/-- Every cell and object of the first store is the same in the second. -/
structure Keeps (σ τ : Store C A) : Prop where
  cells : ∀ (k : K) (a : Nat) (c : C k), (σ.cells k)[a]? = some c → (τ.cells k)[a]? = some c
  objects : ∀ (o : Nat) (obj : Object K A), σ.objects[o]? = some obj → τ.objects[o]? = some obj

theorem Keeps.refl (σ : Store C A) : σ.Keeps σ := ⟨fun _ _ _ h => h, fun _ _ h => h⟩

theorem Keeps.trans {σ τ υ : Store C A} (h : σ.Keeps τ) (h' : τ.Keeps υ) : σ.Keeps υ :=
  ⟨fun k a c hc => h'.cells k a c (h.cells k a c hc),
    fun o obj ho => h'.objects o obj (h.objects o obj ho)⟩

theorem Keeps.holds {σ τ : Store C A} (h : σ.Keeps τ) {o : Nat} {v : Value C A}
    (ho : σ.Holds o v) : τ.Holds o v := by
  obtain ⟨obj, hobj, hattrs, hcells⟩ := ho
  exact ⟨obj, h.objects o obj hobj, hattrs, fun k => h.cells k _ _ (hcells k)⟩

theorem Holds.unique {σ : Store C A} {o : Nat} {v w : Value C A} (hv : σ.Holds o v)
    (hw : σ.Holds o w) : v = w := by
  obtain ⟨obj, hobj, hattrs, hcells⟩ := hv
  obtain ⟨obj', hobj', hattrs', hcells'⟩ := hw
  rw [hobj] at hobj'
  cases hobj'
  ext k
  · exact Option.some.inj ((hcells k).symm.trans (hcells' k))
  · exact hattrs.symm.trans hattrs'

variable [DecidableEq K]

def alloc (σ : Store C A) (k : K) (c : C k) : Store C A :=
  { σ with cells := Function.update σ.cells k (σ.cells k ++ [c]) }

def write (σ : Store C A) (k : K) (a : Nat) (c : C k) : Store C A :=
  { σ with cells := Function.update σ.cells k ((σ.cells k).set a c) }

@[simp] theorem objects_alloc (σ : Store C A) (k : K) (c : C k) :
    (σ.alloc k c).objects = σ.objects := rfl

@[simp] theorem objects_write (σ : Store C A) (k : K) (a : Nat) (c : C k) :
    (σ.write k a c).objects = σ.objects := rfl

theorem cells_alloc (σ : Store C A) (k : K) (c : C k) (a : Nat) (k' : K) (c' : C k')
    (h : (σ.cells k')[a]? = some c') : ((σ.alloc k c).cells k')[a]? = some c' := by
  by_cases hk : k' = k
  · subst hk
    simp only [alloc, Function.update_self]
    rw [List.getElem?_append_left (List.getElem?_eq_some_iff.mp h).1]
    exact h
  · simpa [alloc, Function.update_of_ne hk] using h

theorem keeps_alloc (σ : Store C A) (k : K) (c : C k) : σ.Keeps (σ.alloc k c) :=
  ⟨fun k' a c' h => cells_alloc σ k c a k' c' h, fun _ _ h => h⟩

@[simp] theorem alloc_self (σ : Store C A) (k : K) (c : C k) :
    ((σ.alloc k c).cells k)[(σ.cells k).length]? = some c := by
  simp [alloc]

theorem write_self (σ : Store C A) (k : K) (a : Nat) (c old : C k)
    (h : (σ.cells k)[a]? = some old) : ((σ.write k a c).cells k)[a]? = some c := by
  simp only [write, Function.update_self]
  rw [List.getElem?_set_self (List.getElem?_eq_some_iff.mp h).1]

theorem write_other (σ : Store C A) (k k' : K) (a : Nat) (c : C k) (h : k' ≠ k) :
    (σ.write k a c).cells k' = σ.cells k' := by
  simp [write, Function.update_of_ne h]

end Store

/-- `σ` grew from the base store, and the object at `o` with its containers is no part of
the base. -/
structure Owned (base σ : Store C A) (o : Nat) : Prop where
  keeps : base.Keeps σ
  object : base.objects[o]? = none
  containers : ∀ obj, σ.objects[o]? = some obj → ∀ k, (base.cells k)[obj.refs k]? = none

/-- A program over the store. What it wrote before it failed stays written. -/
abbrev Exec (C : K → Type) (A ε α : Type) := ExceptT ε (StateM (Store C A)) α

section Programs

variable {ε : Type}

/-- A computation that touches no object. -/
def attempt {α : Type} (x : Except ε α) : Exec C A ε α := fun σ => (x, σ)

variable [Inhabited A]

def objectAt (σ : Store C A) (o : Nat) : Object K A := σ.objects.getD o ⟨fun _ => 0, default⟩

theorem objectAt_of_get? {σ : Store C A} {o : Nat} {obj : Object K A}
    (h : σ.objects[o]? = some obj) : objectAt σ o = obj := by
  simp [objectAt, List.getD_eq_getElem?_getD, h]

variable [∀ k, Inhabited (C k)]

/-- The value of an object. Addresses come from allocation, so no default is ever read. -/
def valueAt (σ : Store C A) (o : Nat) : Value C A where
  contents := fun k => (σ.cells k).getD ((objectAt σ o).refs k) default
  attrs := (objectAt σ o).attrs

theorem valueAt_of_holds {σ : Store C A} {o : Nat} {v : Value C A} (h : σ.Holds o v) :
    valueAt σ o = v := by
  obtain ⟨obj, hobj, hattrs, hcells⟩ := h
  have hat := objectAt_of_get? hobj
  ext k
  · simp [valueAt, hat, List.getD_eq_getElem?_getD, hcells k]
  · simp [valueAt, hat, hattrs]

def read (o : Nat) : Exec C A ε (Value C A) := fun σ => (.ok (valueAt σ o), σ)

variable [DecidableEq K]

/-- Write into the container that the object holds. -/
def modify (o : Nat) (k : K) (f : C k → C k) : Exec C A ε Unit := fun σ =>
  (.ok (), σ.write k ((objectAt σ o).refs k) (f ((valueAt σ o).contents k)))

/-- Give the object another container. -/
def rebind (o : Nat) (k : K) (c : C k) : Exec C A ε Unit := fun σ =>
  let obj := objectAt σ o
  (.ok (), { σ.alloc k c with
    objects := σ.objects.set o
      { obj with refs := Function.update obj.refs k (σ.cells k).length } })

def assign (o : Nat) (f : A → A) : Exec C A ε Unit := fun σ =>
  let obj := objectAt σ o
  (.ok (), { σ with objects := σ.objects.set o { obj with attrs := f obj.attrs } })

/-- New containers for an object that is about to be made. -/
def place : List (Σ k, C k) → Object K A → Store C A → Object K A × Store C A
  | [], obj, σ => (obj, σ)
  | ⟨k, c⟩ :: rest, obj, σ =>
      place rest { obj with refs := Function.update obj.refs k (σ.cells k).length } (σ.alloc k c)

/-- Copy an object with new containers at some keys and all others shared. -/
def copyWith (o : Nat) (fresh : List (Σ k, C k)) (f : A → A) (σ : Store C A) :
    Nat × Store C A :=
  let obj := objectAt σ o
  let (copy, τ) := place fresh { obj with attrs := f obj.attrs } σ
  (τ.objects.length, { τ with objects := τ.objects ++ [copy] })

end Programs

section Copies

variable [DecidableEq K]

/-- Contents with some containers replaced. -/
def Value.setAll : List (Σ k, C k) → Value C A → Value C A
  | [], v => v
  | ⟨k, c⟩ :: rest, v => Value.setAll rest (v.set k c)

theorem place_keeps (fresh : List (Σ k, C k)) (obj : Object K A) (σ : Store C A) :
    σ.Keeps (place fresh obj σ).2 ∧ (place fresh obj σ).2.objects = σ.objects := by
  induction fresh generalizing obj σ with
  | nil => exact ⟨.refl σ, rfl⟩
  | cons e rest ih =>
      obtain ⟨hkeeps, hobjects⟩ := ih
        { obj with refs := Function.update obj.refs e.1 (σ.cells e.1).length } (σ.alloc e.1 e.2)
      exact ⟨(σ.keeps_alloc e.1 e.2).trans hkeeps, hobjects⟩

/-- The containers of the new object hold the new contents; the replaced ones are new. -/
theorem place_spec (fresh : List (Σ k, C k)) (obj : Object K A) (σ : Store C A) (v : Value C A)
    (hcells : ∀ k, (σ.cells k)[obj.refs k]? = some (v.contents k)) (base : Store C A)
    (hbase : base.Keeps σ) :
    (place fresh obj σ).1.attrs = obj.attrs ∧
      (∀ k, ((place fresh obj σ).2.cells k)[(place fresh obj σ).1.refs k]? =
        some ((v.setAll fresh).contents k)) ∧
      ∀ k, ((base.cells k)[obj.refs k]? = none ∨ k ∈ fresh.map Sigma.fst) →
        (base.cells k)[(place fresh obj σ).1.refs k]? = none := by
  induction fresh generalizing obj σ v with
  | nil =>
      refine ⟨rfl, hcells, fun k hk => ?_⟩
      rcases hk with hk | hk
      · exact hk
      · cases hk
  | cons e rest ih =>
      obtain ⟨k, c⟩ := e
      have hplaced : ∀ k', ((σ.alloc k c).cells k')[Function.update obj.refs k
          (σ.cells k).length k']? = some ((v.set k c).contents k') := by
        intro k'
        by_cases hk : k' = k
        · subst hk
          simp [Value.set]
        · rw [Function.update_of_ne hk, Value.set]
          simp only [Function.update_of_ne hk]
          exact σ.cells_alloc k c _ k' _ (hcells k')
      obtain ⟨hattrs, hcontents, hfresh⟩ := ih
        { obj with refs := Function.update obj.refs k (σ.cells k).length } (σ.alloc k c)
        (v.set k c) hplaced (hbase.trans (σ.keeps_alloc k c))
      refine ⟨hattrs, hcontents, fun k' hk' => hfresh k' ?_⟩
      by_cases hk : k' = k
      · subst hk
        left
        simp only [Function.update_self]
        -- a cell of the base at that address would be a cell of `σ`
        cases hcell : (base.cells k')[(σ.cells k').length]? with
        | none => rfl
        | some c' =>
            have hlt := (List.getElem?_eq_some_iff.mp (hbase.cells k' _ c' hcell)).1
            exact absurd hlt (Nat.lt_irrefl _)
      · simp only [Function.update_of_ne hk]
        rcases hk' with hk' | hk'
        · exact .inl hk'
        · rcases List.mem_cons.mp hk' with h | h
          · exact absurd h hk
          · exact .inr h

variable [Inhabited A]

theorem copyWith_spec (o : Nat) (fresh : List (Σ k, C k)) (f : A → A) (σ : Store C A)
    (v : Value C A) (h : σ.Holds o v) :
    σ.Keeps (copyWith o fresh f σ).2 ∧
      (copyWith o fresh f σ).2.Holds (copyWith o fresh f σ).1
        { v.setAll fresh with attrs := f v.attrs } ∧
      ((∀ k, k ∈ fresh.map Sigma.fst) →
        Owned σ (copyWith o fresh f σ).2 (copyWith o fresh f σ).1) := by
  obtain ⟨obj, hobj, hattrs, hcells⟩ := h
  have hat := objectAt_of_get? hobj
  obtain ⟨hkeeps, hobjects⟩ := place_keeps fresh { obj with attrs := f obj.attrs } σ
  obtain ⟨hplaced, hcontents, hfresh⟩ := place_spec fresh { obj with attrs := f obj.attrs } σ v
    hcells σ (.refl σ)
  have hextended : σ.Keeps (copyWith o fresh f σ).2 := by
    refine ⟨fun k a c hc => ?_, fun o' obj' hobj' => ?_⟩
    · simp only [copyWith, hat]
      exact hkeeps.cells k a c hc
    · simp only [copyWith, hat]
      rw [hobjects, List.getElem?_append_left (List.getElem?_eq_some_iff.mp hobj').1]
      exact hobj'
  refine ⟨hextended, ⟨(place fresh { obj with attrs := f obj.attrs } σ).1, ?_, ?_, ?_⟩, ?_⟩
  · simp [copyWith, hat]
  · rw [hplaced, hattrs]
  · intro k
    simp only [copyWith, hat]
    exact hcontents k
  · intro hall
    refine ⟨hextended, ?_, fun obj' hobj' k => ?_⟩
    · simp [copyWith, hat, hobjects]
    · simp only [copyWith, hat, List.getElem?_append_right (Nat.le_refl _), Nat.sub_self,
        List.getElem?_cons_zero, Option.some.injEq] at hobj'
      rw [← hobj']
      exact hfresh k (.inr (hall k))

end Copies

/-- How states of a program are laid out as objects. -/
structure Layout (S : Type) (C : K → Type) (A : Type) where
  value : S → Value C A
  state : Value C A → S
  state_value : ∀ s, state (value s) = s

section Rules

variable {S ε : Type} (L : Layout S C A)

/-- How a program ended, against what a function on values answers. -/
def Answers (o : Nat) (answer : Except ε S) (r : Except ε Unit × Store C A) : Prop :=
  match answer with
  | .ok t => r.1 = .ok () ∧ r.2.Holds o (L.value t)
  | .error e => r.1 = .error e ∧ ∃ v, r.2.Holds o v

/-- Run on an object of value `s`, the program ends as `answer` says and has written
nothing of the base store, also when it fails. -/
def Refines (base : Store C A) (o : Nat) (s : S) (m : Exec C A ε Unit) (answer : Except ε S) :
    Prop :=
  ∀ σ, Owned base σ o → σ.Holds o (L.value s) → Owned base (m σ).2 o ∧ Answers L o answer (m σ)

variable {L} {base : Store C A} {o : Nat} {s : S}

theorem refines_pure : Refines L base o s (pure () : Exec C A ε Unit) (.ok s) :=
  fun _ howned hs => ⟨howned, rfl, hs⟩

theorem refines_throw (e : ε) : Refines L base o s (throw e : Exec C A ε Unit) (.error e) :=
  fun _ howned hs => ⟨howned, rfl, _, hs⟩

theorem refines_bind {m m' : Exec C A ε Unit} {answer : Except ε S} {g : S → Except ε S}
    (h : Refines L base o s m answer)
    (h' : ∀ t, answer = .ok t → Refines L base o t m' (g t)) :
    Refines L base o s (m >>= fun _ => m') (answer >>= g) := by
  intro σ howned hs
  obtain ⟨howned', hanswer⟩ := h σ howned hs
  have hrun : (m >>= fun _ => m') σ = Except.casesOn (m σ).1
      (fun e => (.error e, (m σ).2)) (fun _ => m' (m σ).2) := by
    show (ExceptT.bindCont (fun _ => m') (m σ).1) (m σ).2 = _
    cases (m σ).1 <;> rfl
  rw [hrun]
  cases answer with
  | error e =>
      obtain ⟨hr, hv⟩ := hanswer
      rw [hr]
      exact ⟨howned', rfl, hv⟩
  | ok t =>
      obtain ⟨hr, ht⟩ := hanswer
      rw [hr]
      exact h' t rfl _ howned' ht

theorem refines_then {m m' : Exec C A ε Unit} {t : S} {answer : Except ε S}
    (h : Refines L base o s m (.ok t)) (h' : Refines L base o t m' answer) :
    Refines L base o s (m >>= fun _ => m') answer :=
  refines_bind (g := fun _ => answer) h fun u hu => by
    cases hu
    exact h'

theorem refines_attempt {α : Type} {x : Except ε α} {m : α → Exec C A ε Unit}
    {g : α → Except ε S} (h : ∀ a, x = .ok a → Refines L base o s (m a) (g a)) :
    Refines L base o s (attempt x >>= m) (x >>= g) := by
  cases x with
  | error e => exact refines_throw e
  | ok a => exact h a rfl

/-- A loop refines a run of the steps its body refines. -/
theorem refines_forM {α : Type} (as : List α) (m : α → Exec C A ε Unit)
    (f : α → S → Except ε S) (h : ∀ a ∈ as, ∀ s, Refines L base o s (m a) (f a s)) :
    Refines L base o s (as.forM m) (Steps.run f as s) := by
  induction as generalizing s with
  | nil => exact refines_pure
  | cons a as ih =>
      have hrun : Steps.run f (a :: as) s = f a s >>= Steps.run f as := by
        rw [Steps.run]
        cases f a s <;> rfl
      rw [hrun]
      refine refines_bind (h a List.mem_cons_self s) fun t _ => ?_
      exact ih fun b hb => h b (List.mem_cons_of_mem a hb)

theorem refines_loop {α : Type} (as : List α) (m : α → Exec C A ε Unit) (f : α → S → S)
    (h : ∀ a ∈ as, ∀ s, Refines L base o s (m a) (.ok (f a s))) :
    Refines L base o s (as.forM m) (.ok (as.foldl (fun s a => f a s) s)) := by
  induction as generalizing s with
  | nil => exact refines_pure
  | cons a as ih =>
      refine refines_then (h a List.mem_cons_self s) ?_
      exact ih fun b hb => h b (List.mem_cons_of_mem a hb)

variable [Inhabited A]

theorem refines_read [∀ k, Inhabited (C k)] {m : S → Exec C A ε Unit} {answer : Except ε S}
    (h : Refines L base o s (m s) answer) :
    Refines L base o s (read o >>= fun v => m (L.state v)) answer := by
  intro σ howned hs
  have hrun : (read o >>= fun v => m (L.state v)) σ = m s σ := by
    show m (L.state (valueAt σ o)) σ = m s σ
    rw [valueAt_of_holds hs, L.state_value]
  rw [hrun]
  exact h σ howned hs

variable [DecidableEq K]

theorem refines_modify [∀ k, Inhabited (C k)] {k : K} {f : C k → C k} {t : S}
    (h : L.value t = (L.value s).set k (f ((L.value s).contents k))) :
    Refines L base o s (modify o k f : Exec C A ε Unit) (.ok t) := by
  intro σ howned hs
  have hvalue := valueAt_of_holds hs
  obtain ⟨obj, hobj, hattrs, hcells⟩ := hs
  have hat := objectAt_of_get? hobj
  have hrun : (modify o k f : Exec C A ε Unit) σ =
      (.ok (), σ.write k (obj.refs k) (f ((L.value s).contents k))) := by
    simp only [modify, hvalue, hat]
  have hfree := howned.containers obj hobj k
  rw [hrun]
  refine ⟨⟨⟨fun k' a c hc => ?_, howned.keeps.objects⟩, howned.object, howned.containers⟩, rfl,
    obj, hobj, ?_, fun k' => ?_⟩
  · by_cases hk : k' = k
    · subst hk
      have hne : obj.refs k' ≠ a := by
        rintro rfl
        rw [hfree] at hc
        cases hc
      simp only [Store.write, Function.update_self, List.getElem?_set_ne hne]
      exact howned.keeps.cells k' a c hc
    · rw [σ.write_other k k' _ _ hk]
      exact howned.keeps.cells k' a c hc
  · rw [h]
    exact hattrs
  · rw [h]
    by_cases hk : k' = k
    · subst hk
      rw [σ.write_self k' _ _ _ (hcells k')]
      simp [Value.set]
    · rw [σ.write_other k k' _ _ hk, hcells k']
      simp [Value.set, Function.update_of_ne hk]

theorem refines_rebind {k : K} {c : C k} {t : S}
    (h : L.value t = (L.value s).set k c) :
    Refines L base o s (rebind o k c : Exec C A ε Unit) (.ok t) := by
  intro σ howned hs
  obtain ⟨obj, hobj, hattrs, hcells⟩ := hs
  have hat := objectAt_of_get? hobj
  have hlt : o < σ.objects.length := (List.getElem?_eq_some_iff.mp hobj).1
  simp only [rebind, hat]
  refine ⟨⟨⟨fun k' a c' hc => ?_, fun o' obj' hobj' => ?_⟩, howned.object,
    fun obj' hobj' k' => ?_⟩, rfl, _, List.getElem?_set_self hlt, ?_, fun k' => ?_⟩
  · exact σ.cells_alloc k c a k' c' (howned.keeps.cells k' a c' hc)
  · have hne : o ≠ o' := by
      rintro rfl
      rw [howned.object] at hobj'
      cases hobj'
    simp only [List.getElem?_set_ne hne]
    exact howned.keeps.objects o' obj' hobj'
  · simp only [List.getElem?_set_self hlt, Option.some.injEq] at hobj'
    rw [← hobj']
    by_cases hk : k' = k
    · subst hk
      simp only [Function.update_self]
      cases hcell : (base.cells k')[(σ.cells k').length]? with
      | none => rfl
      | some c' =>
          have hin := (List.getElem?_eq_some_iff.mp (howned.keeps.cells k' _ c' hcell)).1
          exact absurd hin (Nat.lt_irrefl _)
    · simp only [Function.update_of_ne hk]
      exact howned.containers obj hobj k'
  · rw [h]
    exact hattrs
  · rw [h]
    by_cases hk : k' = k
    · subst hk
      simp [Value.set]
    · simp only [Value.set, Function.update_of_ne hk]
      exact σ.cells_alloc k c _ k' _ (hcells k')

omit [DecidableEq K] in
theorem refines_assign {f : A → A} {t : S}
    (h : L.value t = { L.value s with attrs := f (L.value s).attrs }) :
    Refines L base o s (assign o f : Exec C A ε Unit) (.ok t) := by
  intro σ howned hs
  obtain ⟨obj, hobj, hattrs, hcells⟩ := hs
  have hat := objectAt_of_get? hobj
  have hlt : o < σ.objects.length := (List.getElem?_eq_some_iff.mp hobj).1
  simp only [assign, hat]
  refine ⟨⟨⟨howned.keeps.cells, fun o' obj' hobj' => ?_⟩, howned.object,
    fun obj' hobj' k' => ?_⟩, rfl, _, List.getElem?_set_self hlt, ?_, fun k' => ?_⟩
  · have hne : o ≠ o' := by
      rintro rfl
      rw [howned.object] at hobj'
      cases hobj'
    simp only [List.getElem?_set_ne hne]
    exact howned.keeps.objects o' obj' hobj'
  · simp only [List.getElem?_set_self hlt, Option.some.injEq] at hobj'
    rw [← hobj']
    exact howned.containers obj hobj k'
  · rw [h, hattrs]
  · rw [h]
    exact hcells k'

end Rules

end Objects
