import RcpGraph.Core.Patch

/-!
Reports of validation rules. A rule returns the messages it adds; an exception
that leaves a rule is an issue of its own, and replaces the whole report where
it is caught.
-/

namespace RcpGraph

variable {rt : Runtime}

inductive Issue where
  | message (m : ValidationMessage)
  | raised (text : String)
  deriving DecidableEq

/-- `patch.revision or None`. -/
def Patch.revisionRef (p : Patch rt) : Option Nat :=
  if p.revision = 0 then none else some p.revision

def reject (code message : String) (revision : Option Nat) (nodeIds edgeIds : List String := []) :
    Issue :=
  .message
    { level := .reject
      code := code
      message := message
      patchRevision := revision
      relatedNodeIds := nodeIds
      relatedEdgeIds := edgeIds }

def flag (code message : String) (revision : Option Nat) (nodeIds edgeIds : List String := []) :
    Issue :=
  .message
    { level := .flag
      code := code
      message := message
      patchRevision := revision
      relatedNodeIds := nodeIds
      relatedEdgeIds := edgeIds }

/-- One rejection under a condition. -/
def rejectIf (c : Bool) (code message : String) (revision : Option Nat)
    (nodeIds edgeIds : List String := []) : List Issue :=
  if c then [reject code message revision nodeIds edgeIds] else []

def Issue.refuses : Issue → Bool
  | .message m => decide (m.level = .reject)
  | .raised _ => true

/-- Whether a list of issues refuses the patch. -/
def refused (issues : List Issue) : Bool := issues.any Issue.refuses

def rejected (messages : List ValidationMessage) : Bool :=
  messages.any fun m => decide (m.level = .reject)

/-- The first exception, which ends the rule that raised it. -/
def firstRaised : List Issue → Option String
  | [] => none
  | .raised text :: _ => some text
  | .message _ :: issues => firstRaised issues

def messagesOf : List Issue → List ValidationMessage
  | [] => []
  | .raised _ :: issues => messagesOf issues
  | .message m :: issues => m :: messagesOf issues

/-- The report of a guarded rule: an exception discards what was reported before. -/
def settleIssues (issues : List Issue) (code lead : String) (revision : Option Nat) :
    List ValidationMessage :=
  match firstRaised issues with
  | some text =>
      [{ level := .reject, code := code, message := lead ++ text ++ ".", patchRevision := revision }]
  | none => messagesOf issues

@[simp] theorem refused_nil : refused [] = false := rfl

@[simp] theorem refused_append (a b : List Issue) : refused (a ++ b) = (refused a || refused b) :=
  List.any_append

@[simp] theorem refused_cons (i : Issue) (is : List Issue) :
    refused (i :: is) = (i.refuses || refused is) := rfl

theorem rejected_append (a b : List ValidationMessage) :
    rejected (a ++ b) = (rejected a || rejected b) :=
  List.any_append

theorem refused_flatMap {α : Type} (f : α → List Issue) (xs : List α) :
    refused (xs.flatMap f) = xs.any fun x => refused (f x) := by
  induction xs with
  | nil => rfl
  | cons x xs ih => simp [List.flatMap_cons, ih]

theorem not_refused_flatMap {α : Type} (f : α → List Issue) (xs : List α) :
    refused (xs.flatMap f) = false ↔ ∀ x ∈ xs, refused (f x) = false := by
  rw [refused_flatMap]
  simp

@[simp] theorem refuses_reject (code message : String) (revision : Option Nat)
    (nodeIds edgeIds : List String) : (reject code message revision nodeIds edgeIds).refuses = true :=
  rfl

@[simp] theorem refuses_flag (code message : String) (revision : Option Nat)
    (nodeIds edgeIds : List String) : (flag code message revision nodeIds edgeIds).refuses = false :=
  rfl

@[simp] theorem refuses_raised (text : String) : (Issue.raised text).refuses = true := rfl

@[simp] theorem refused_rejectIf (c : Bool) (code message : String) (revision : Option Nat)
    (nodeIds edgeIds : List String) :
    refused (rejectIf c code message revision nodeIds edgeIds) = c := by
  cases c <;> rfl

/-- A settled report refuses exactly when its issues do. -/
theorem rejected_settleIssues (issues : List Issue) (code lead : String) (revision : Option Nat) :
    rejected (settleIssues issues code lead revision) = refused issues := by
  have none_case : ∀ is : List Issue, firstRaised is = none →
      rejected (messagesOf is) = refused is := by
    intro is
    induction is with
    | nil => intro _; rfl
    | cons i is ih =>
        cases i with
        | raised text => intro h; cases h
        | message m =>
            intro h
            simp only [messagesOf, rejected, List.any_cons, refused_cons, Issue.refuses]
            rw [← ih h]
            rfl
  have some_case : ∀ (is : List Issue) text, firstRaised is = some text → refused is = true := by
    intro is
    induction is with
    | nil => intro _ h; cases h
    | cons i is ih =>
        cases i with
        | raised text => intro _ _; rfl
        | message m =>
            intro text h
            simp [ih text h]
  unfold settleIssues
  cases h : firstRaised issues with
  | none => exact none_case issues h
  | some text => exact (some_case issues text h).symm

/-- `value in frozenset(options)`; a list or an object is not hashable. -/
def memberOf (value : Json) (options : List String) : Except String Bool :=
  match value with
  | .str s => .ok (decide (s ∈ options))
  | .arr _ => .error "unhashable type: 'list'"
  | .obj _ => .error "unhashable type: 'dict'"
  | _ => .ok false

/-- `changes.get(name)`. -/
def changed (changes : Dict String Json) (name : String) : Json := changes.getD name .null

end RcpGraph
