import Mathlib.Logic.Basic

/-!
Programs over a state that survives their failures. A step may raise or crash; a
handler sees what was raised and never a crash. `Triple` states what holds after a
program that returns and what holds after one that does not.
-/

namespace Crash

universe u v w

/-- How a program ends. -/
inductive Outcome (ε : Type u) (α : Type v) where
  | ok (a : α)
  | raised (e : ε)
  | crashed
  deriving DecidableEq

/-- The state is kept however the program ends. -/
def Prog (σ : Type w) (ε : Type u) (α : Type v) := σ → Outcome ε α × σ

variable {σ : Type w} {ε : Type u} {α β : Type v}

namespace Prog

def pure (a : α) : Prog σ ε α := fun s => (.ok a, s)

def bind (m : Prog σ ε α) (f : α → Prog σ ε β) : Prog σ ε β := fun s =>
  match m s with
  | (.ok a, t) => f a t
  | (.raised e, t) => (.raised e, t)
  | (.crashed, t) => (.crashed, t)

def raise (e : ε) : Prog σ ε α := fun s => (.raised e, s)

def get : Prog σ ε σ := fun s => (.ok s, s)

def modify (f : σ → σ) : Prog σ ε PUnit := fun s => (.ok ⟨⟩, f s)

/-- A transaction: a failure leaves the state as it was. -/
def atomic (m : Prog σ ε α) : Prog σ ε α := fun s =>
  match m s with
  | (.ok a, t) => (.ok a, t)
  | (.raised e, _) => (.raised e, s)
  | (.crashed, _) => (.crashed, s)

/-- A handler for what is raised. -/
def handle (m : Prog σ ε α) (h : ε → Prog σ ε α) : Prog σ ε α := fun s =>
  match m s with
  | (.raised e, t) => h e t
  | (.ok a, t) => (.ok a, t)
  | (.crashed, t) => (.crashed, t)

instance : Monad (Prog σ ε) where
  pure := pure
  bind := bind

end Prog

/-- What holds of an ending: `Q` after a return, `E` after a failure. -/
def Ends (Q : α → σ → Prop) (E : σ → Prop) : Outcome ε α × σ → Prop
  | (.ok a, s) => Q a s
  | (.raised _, s) => E s
  | (.crashed, s) => E s

namespace Ends

variable {E : σ → Prop} {s : σ}

theorem pure {Q : α → σ → Prop} {a : α} (h : Q a s) : Ends Q E ((Pure.pure a : Prog σ ε α) s) := h

theorem raise {Q : α → σ → Prop} {e : ε} (h : E s) : Ends Q E ((Prog.raise e : Prog σ ε α) s) := h

theorem read {σ β : Type v} {E : σ → Prop} {s : σ} {Q : β → σ → Prop} {k : σ → Prog σ ε β}
    (h : Ends Q E (k s s)) : Ends Q E ((Prog.get >>= k) s) := h

theorem write {Q : β → σ → Prop} {f : σ → σ} {k : PUnit → Prog σ ε β}
    (h : Ends Q E (k ⟨⟩ (f s))) : Ends Q E ((Prog.modify f >>= k) s) := h

theorem modify {Q : PUnit → σ → Prop} {f : σ → σ} (h : Q ⟨⟩ (f s)) :
    Ends Q E ((Prog.modify f : Prog σ ε PUnit) s) := h

theorem ite {Q : α → σ → Prop} {c : Prop} [Decidable c] {m n : Prog σ ε α}
    (hm : c → Ends Q E (m s)) (hn : ¬ c → Ends Q E (n s)) :
    Ends Q E ((if c then m else n) s) := by
  by_cases hc : c
  · rw [if_pos hc]
    exact hm hc
  · rw [if_neg hc]
    exact hn hc

theorem bind {Q : β → σ → Prop} {R : α → σ → Prop} {m : Prog σ ε α} {f : α → Prog σ ε β}
    (hm : Ends R E (m s)) (hf : ∀ a t, R a t → Ends Q E (f a t)) : Ends Q E ((m >>= f) s) := by
  change Ends Q E (Prog.bind m f s)
  unfold Prog.bind
  cases hout : m s with
  | mk out t =>
      rw [hout] at hm
      cases out with
      | ok a => exact hf a t hm
      | raised e => exact hm
      | crashed => exact hm

theorem weaken {Q Q' : α → σ → Prop} {E' : σ → Prop} {o : Outcome ε α × σ} (h : Ends Q' E' o)
    (hQ : ∀ a t, Q' a t → Q a t) (hE : ∀ t, E' t → E t) : Ends Q E o := by
  obtain ⟨out, t⟩ := o
  cases out with
  | ok a => exact hQ a t h
  | raised e => exact hE t h
  | crashed => exact hE t h

/-- After a transaction that fails, nothing has changed. -/
theorem atomic {Q : α → σ → Prop} {F : σ → Prop} {m : Prog σ ε α} (hm : Ends Q F (m s)) :
    Ends Q (fun t => t = s) (m.atomic s) := by
  unfold Prog.atomic
  cases hout : m s with
  | mk out t =>
      rw [hout] at hm
      cases out with
      | ok a => exact hm
      | raised e => rfl
      | crashed => rfl

end Ends

/-- From `P`, the program returns with `Q` or fails with `E`. -/
def Triple (P : σ → Prop) (m : Prog σ ε α) (Q : α → σ → Prop) (E : σ → Prop) : Prop :=
  ∀ s, P s → Ends Q E (m s)

namespace Triple

variable {P : σ → Prop} {E : σ → Prop}

theorem pure {Q : α → σ → Prop} (a : α) (h : ∀ s, P s → Q a s) :
    Triple P (Pure.pure a : Prog σ ε α) Q E := h

theorem raise {Q : α → σ → Prop} (e : ε) (h : ∀ s, P s → E s) :
    Triple P (Prog.raise e : Prog σ ε α) Q E := h

theorem bind {Q : β → σ → Prop} {R : α → σ → Prop} {m : Prog σ ε α} {f : α → Prog σ ε β}
    (hm : Triple P m R E) (hf : ∀ a, Triple (R a) (f a) Q E) : Triple P (m >>= f) Q E := by
  intro s hs
  have hends := hm s hs
  change Ends Q E (Prog.bind m f s)
  unfold Prog.bind
  cases hout : m s with
  | mk out t =>
      rw [hout] at hends
      cases out with
      | ok a => exact hf a t hends
      | raised e => exact hends
      | crashed => exact hends

/-- A handler starts from what the failure left. -/
theorem handle {Q : α → σ → Prop} {F : σ → Prop} {m : Prog σ ε α} {h : ε → Prog σ ε α}
    (hm : Triple P m Q F) (hh : ∀ e, Triple F (h e) Q E) (hcrash : ∀ s, F s → E s) :
    Triple P (m.handle h) Q E := by
  intro s hs
  have hends := hm s hs
  unfold Prog.handle
  cases hout : m s with
  | mk out t =>
      rw [hout] at hends
      cases out with
      | ok a => exact hends
      | raised e => exact hh e t hends
      | crashed => exact hcrash t hends

theorem weaken {P' : σ → Prop} {Q Q' : α → σ → Prop} {E' : σ → Prop} {m : Prog σ ε α}
    (hm : Triple P' m Q' E') (hP : ∀ s, P s → P' s) (hQ : ∀ a s, Q' a s → Q a s)
    (hE : ∀ s, E' s → E s) : Triple P m Q E := by
  intro s hs
  have hends := hm s (hP s hs)
  cases hout : m s with
  | mk out t =>
      rw [hout] at hends
      cases out with
      | ok a => exact hQ a t hends
      | raised e => exact hE t hends
      | crashed => exact hE t hends

/-- A fact about the past can be used at once. -/
theorem assume {p : Prop} {Q : α → σ → Prop} {m : Prog σ ε α} (h : p → Triple P m Q E) :
    Triple (fun s => p ∧ P s) m Q E := fun s hs => h hs.1 s hs.2

theorem get {Q : σ → σ → Prop} (h : ∀ s, P s → Q s s) :
    Triple P (Prog.get : Prog σ ε σ) Q E := h

/-- However a program ends, what holds in both cases holds. -/
theorem final {Q : α → σ → Prop} {m : Prog σ ε α} (hm : Triple P m Q E)
    (hQ : ∀ a s, Q a s → E s) (s : σ) (hs : P s) : E (m s).2 := by
  have hends := hm s hs
  cases hout : m s with
  | mk out t =>
      rw [hout] at hends
      cases out with
      | ok a => exact hQ a t hends
      | raised e => exact hends
      | crashed => exact hends

end Triple

end Crash
