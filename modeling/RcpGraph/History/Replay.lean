import RcpGraph.Core.Effects
import RcpGraph.Validation.Accepted

/-!
Replay of a patch log. Every patch is validated again and applied; a rejected
receipt only advances the revision, and the first patch that fails stops replay
and leaves the graph degraded at the revision before it.
-/

namespace RcpGraph

variable {rt : Runtime}

/-- `current_cursor_key`: keys written with a machine segment are read without it. -/
def currentCursorKey (key : String) : String :=
  match key.splitOn "/" with
  | [repository, _, provider, session] => Text.join "/" [repository, provider, session]
  | _ => key

def currentCursors (cursors : Dict String String) : List (String × String) :=
  cursors.entries.map fun e => (currentCursorKey e.1, e.2)

/-- `MaterializationResult`, with the reports by revision. -/
structure MaterializationResult (rt : Runtime) where
  state : GraphState rt
  reports : Dict Nat (List ValidationMessage) := .empty
  processedCursors : Dict String String := .empty

/-- The graph after its replay stopped at a patch. -/
def GraphState.degrade (s : GraphState rt) (p : Patch rt) (code message : String) :
    GraphState rt :=
  { s with
    replayFailure :=
      some { revision := p.revision, createdAt := p.createdAt, code := code, message := message } }

def GraphState.record (s : GraphState rt) (messages : List ValidationMessage) : GraphState rt :=
  { s with validationMessages := s.validationMessages ++ messages }

/-- The graph after a rejected receipt. -/
def GraphState.skip (s : GraphState rt) (p : Patch rt) : GraphState rt :=
  { s with
    revision := max s.revision p.revision
    validationMessages := s.validationMessages ++ p.admissionMessages }

/-- The report replay keeps for a patch. -/
def replayReport (s : GraphState rt) (p : Patch rt) (vc : ValidationContext rt) :
    List ValidationMessage :=
  validatePatch s p { vc with projectTruthScope := s.projectTruthScope, mode := .replay } ++
    p.admissionMessages

/-- What replay makes of one patch. -/
inductive ReplayStep (rt : Runtime) where
  | skipped (report : List ValidationMessage) (s : GraphState rt)
  | applied (report : List ValidationMessage) (s : GraphState rt)
  | failed (report : List ValidationMessage) (s : GraphState rt)

def replayPatch (s : GraphState rt) (p : Patch rt) (vc : ValidationContext rt) : ReplayStep rt :=
  if p.admission = .rejected then .skipped p.admissionMessages (s.skip p)
  else
    let report := replayReport s p vc
    match report.find? fun m => decide (m.level = .reject) with
    | some failure => .failed report (s.degrade p failure.code failure.message)
    | none =>
        match applyValidPatch s p with
        | .error text =>
            let message := "Patch operations could not be applied atomically: " ++ text ++ "."
            .failed
              (report ++
                [{ level := .reject
                   code := "malformed-operation"
                   message := message
                   patchRevision := some p.revision }])
              (s.degrade p "malformed-operation" message)
        | .ok t => .applied report (t.record p.admissionMessages)

/-- `materialize_patches_from_state` from a partial result on. -/
def materializeFrom (vc : ValidationContext rt) :
    List (Patch rt) → MaterializationResult rt → MaterializationResult rt
  | [], r => r
  | p :: ps, r =>
      match replayPatch r.state p vc with
      | .skipped report s =>
          materializeFrom vc ps { r with state := s, reports := r.reports.insert p.revision report }
      | .applied report s =>
          materializeFrom vc ps
            { state := s
              reports := r.reports.insert p.revision report
              processedCursors := r.processedCursors.update (currentCursors p.processedCursors) }
      | .failed report s =>
          { r with state := s, reports := r.reports.insert p.revision report }

def materializePatchesFromState (ps : List (Patch rt)) (s : GraphState rt)
    (vc : ValidationContext rt) : MaterializationResult rt :=
  materializeFrom vc ps { state := s }

/-- `materialize_patches`. -/
def materializePatches (ps : List (Patch rt)) (vc : ValidationContext rt) :
    MaterializationResult rt :=
  materializePatchesFromState ps (.initial rt vc.projectTruthScope) vc

/-- Graphs reached from an empty project by patches that pass validation, each of
which meets a condition on the graph and the patch. -/
inductive Reachable (C : GraphState rt → Patch rt → Prop) : GraphState rt → Prop
  | initial (scope : List String) : Reachable C (.initial rt scope)
  | accept (s t : GraphState rt) (p : Patch rt) (vc : ValidationContext rt)
      (request : PatchRequest) (messages : List ValidationMessage) (before : Reachable C s)
      (condition : C s p) (valid : rejected (validatePatch s p vc request) = false)
      (applied : applyValidPatch s p = .ok t) : Reachable C (t.record messages)
  | skip (s : GraphState rt) (p : Patch rt) (before : Reachable C s) : Reachable C (s.skip p)

/-- What validated patches preserve holds of every graph that is reached. -/
theorem Reachable.invariant {C : GraphState rt → Patch rt → Prop} (P : GraphState rt → Prop)
    (hinitial : ∀ scope, P (.initial rt scope))
    (haccept : ∀ s p vc request t, C s p → rejected (validatePatch s p vc request) = false →
      applyValidPatch s p = .ok t → P s → P t)
    (hrecord : ∀ s messages, P s → P (s.record messages)) (hskip : ∀ s p, P s → P (s.skip p))
    (s : GraphState rt) (h : Reachable C s) : P s := by
  induction h with
  | initial scope => exact hinitial scope
  | accept s t p vc request messages before condition valid applied ih =>
      exact hrecord t messages (haccept s p vc request t condition valid applied ih)
  | skip s p before ih => exact hskip s p ih

/-- Every node of a reached graph is stored under its own id. -/
theorem keyed_of_reachable {C : GraphState rt → Patch rt → Prop} (s : GraphState rt)
    (h : Reachable C s) : s.Keyed := by
  refine Reachable.invariant GraphState.Keyed (fun scope id n hn => by cases hn) ?_
    (fun _ _ h => h) (fun _ _ h => h) s h
  intro s p vc request t _ hvalid happlied hs
  obtain ⟨sources, generated, u, v, -, hjudged, -, hv, rfl⟩ :=
    validatePatch_accepted s p vc request t hvalid happlied
  have hu := keyed_run _ false _ s u hs hjudged.run_sources
  exact keyed_of_nodes _ v (relayer_alike _ v).nodes (keyed_run _ true _ u v hu hv)

end RcpGraph
