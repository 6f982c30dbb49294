import RcpGraph.Validation.Ops

/-!
The staging loop. Each operation is judged against the graph the accepted
operations before it produced; an operation that is refused is reported and not
staged. The loop is parametric in the rules, because a Proposal's operations are
judged by the same loop inside the rule for `create_proposals`.
-/

namespace RcpGraph

variable {rt : Runtime}

/-- The report of one operation's rules. -/
abbrev OpRules (rt : Runtime) := OpContext rt → GraphOperation rt → List Issue

/-- Judge and stage one operation: the advanced context and the issues. -/
def stageOp (rules : OpRules rt) (ctx : OpContext rt) (op : GraphOperation rt) :
    OpContext rt × List Issue :=
  if ctx.admission && op.legacyOnly then
    (ctx,
      [reject "legacy-only-operation"
        ("Operation " ++ Text.quoted op.op ++
          " is retained for historical replay and cannot be admitted in a new patch.")
        ctx.revision])
  else
    let issues := rules ctx op
    let next := { ctx with repositories := repositoriesAfter ctx.repositories op }
    if refused issues then (next, issues)
    else
      match applyValidOperation ctx.state ctx.patch op with
      | .ok s => ({ next with state := s }, issues)
      | .error text =>
          (next,
            issues ++
              [reject "malformed-operation"
                ("Operation " ++ Text.quoted op.op ++ " could not be staged: " ++ text ++ ".")
                ctx.revision])

/-- `_validate_operations`. -/
def stageOps (rules : OpRules rt) : List (GraphOperation rt) → OpContext rt →
    OpContext rt × List Issue
  | [], ctx => (ctx, [])
  | op :: ops, ctx =>
      let staged := stageOp rules ctx op
      let rest := stageOps rules ops staged.1
      (rest.1, staged.2 ++ rest.2)

/-- Rules of an operation: structural always, authoring in admission. -/
def rulesOf (structural authoring : OpRules rt) : OpRules rt := fun ctx op =>
  structural ctx op ++ if ctx.admission then authoring ctx op else []

/-- The rules of the operations a Proposal may carry. -/
def effectRules : OpRules rt := rulesOf structuralIssues authoringIssues

/-- What an accepted operation did to the context. -/
theorem stageOp_accepted (rules : OpRules rt) (ctx : OpContext rt) (op : GraphOperation rt)
    (h : refused (stageOp rules ctx op).2 = false) :
    refused (rules ctx op) = false ∧ (ctx.admission = true → op.legacyOnly = false) ∧
      ∃ s, applyValidOperation ctx.state ctx.patch op = .ok s ∧
        (stageOp rules ctx op).1 =
          { ctx with
            state := s
            repositories := repositoriesAfter ctx.repositories op } := by
  unfold stageOp at h ⊢
  split at h
  next => simp at h
  next hl =>
    rw [if_neg hl]
    have hlegacy : ctx.admission = true → op.legacyOnly = false := by
      intro ha
      simpa [ha] using hl
    by_cases hr : refused (rules ctx op) = true
    · simp [hr] at h
    · have hr' : refused (rules ctx op) = false := by simpa using hr
      simp only [hr', Bool.false_eq_true, if_false] at h ⊢
      cases ha : applyValidOperation ctx.state ctx.patch op with
      | error text => simp [ha] at h
      | ok s => exact ⟨trivial, hlegacy, s, rfl, rfl⟩

/-- An accepted list of operations is accepted operation by operation. -/
theorem stageOps_cons_accepted (rules : OpRules rt) (op : GraphOperation rt)
    (ops : List (GraphOperation rt)) (ctx : OpContext rt) :
    refused (stageOps rules (op :: ops) ctx).2 = false ↔
      refused (stageOp rules ctx op).2 = false ∧
        refused (stageOps rules ops (stageOp rules ctx op).1).2 = false := by
  simp [stageOps]

end RcpGraph
