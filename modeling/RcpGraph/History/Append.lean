import RcpGraph.Validation.Bookkeeping

/-!
The append path. Every source patch passes the authority gate and then
validation, on the graph the source patches before it lead to; the transition
manager combines them into the one patch that is recorded.
-/

namespace RcpGraph

variable {rt : Runtime}

/-- What the append path reads from the project beside its graph. -/
structure Project (rt : Runtime) where
  repositoryAliases : List String
  machineAliases : List String
  stateRepository : String
  /-- `validate_project_scope_update`: why a scope is refused. -/
  scopeUpdateError : List String → Option RepositoryDescriptor → Option String
  /-- The graph at a branch head that a merge names. -/
  stateAt : GraphHeadRef → Option (GraphState rt)

/-- A project of one repository, for concrete appends. -/
def Project.solo : Project .plain where
  repositoryAliases := ["repo"]
  machineAliases := ["local"]
  stateRepository := "repo"
  scopeUpdateError := fun _ _ => none
  stateAt := fun _ => none

/-- `build_validation_context`. -/
def Project.context (project : Project rt) (s : GraphState rt) (mode : Mode := .admission) :
    ValidationContext rt where
  projectTruthScope := s.projectTruthScope
  repositoryAliases := some project.repositoryAliases
  machineAliases := some project.machineAliases
  stateRepository := some project.stateRepository
  mode := mode

/-- The context of a patch; a branch merge brings its source graph. -/
def Project.admissionContext (project : Project rt) (s : GraphState rt) (p : Patch rt) :
    ValidationContext rt :=
  match p.branchMerge with
  | some merge =>
      if p.ops = [] then project.context s
      else { project.context s with mergeSource := project.stateAt merge.branchHead }
  | none => project.context s

/-- `_admit_patch_locked` on a patch whose attribution is stamped: both live gates. -/
def admitPatch (project : Project rt) (s : GraphState rt) (p : Patch rt) :
    Patch rt × List ValidationMessage :=
  let prepared := preparePatchBookkeeping s p
  (prepared,
    validatePermissions s p ++
      validatePatch s prepared (project.admissionContext s prepared)
        { writer := some (Writer.ofPatch p) })

/-- The repository descriptor of a scope change. -/
def scopeDescriptor (p : Patch rt) : Option RepositoryDescriptor :=
  p.ops.findSome? fun
    | .setProjectTruthScope _ repository => repository
    | _ => none

/-- The manifest's own check on a changed truth scope. -/
def scopeIssues (project : Project rt) (before after : GraphState rt) (p : Patch rt) :
    List ValidationMessage :=
  if after.projectTruthScope ≠ before.projectTruthScope ∨ (scopeDescriptor p).isSome then
    match project.scopeUpdateError after.projectTruthScope (scopeDescriptor p) with
    | none => []
    | some text =>
        [{ level := .reject
           code := "invalid-project-scope"
           message := text
           patchRevision := some p.revision }]
  else []

/-- Source patches that passed both gates, with their messages. -/
structure AdmittedSources (rt : Runtime) where
  patches : List (Patch rt)
  messages : List ValidationMessage

/-- The gate loop of `_prepare_transition_locked`. -/
def admitSources (project : Project rt) (base revision : Nat) :
    List (Patch rt) → GraphState rt → Except (List ValidationMessage) (AdmittedSources rt)
  | [], _ => .ok ⟨[], []⟩
  | raw :: rest, staged =>
      let here := { staged with revision := base }
      let admitted := admitPatch project here { raw with revision := revision }
      let p := admitted.1
      if rejected admitted.2 then .error admitted.2
      else
        match applyValidPatch here p with
        | .error text =>
            .error (admitted.2 ++
              [{ level := .reject
                 code := "malformed-operation"
                 message := "Patch operations could not be applied atomically: " ++ text ++ "."
                 patchRevision := some revision }])
        | .ok candidate =>
            if scopeIssues project here candidate p ≠ [] then
              .error (admitted.2 ++ scopeIssues project here candidate p)
            else
              match admitSources project base revision rest { candidate with revision := base } with
              | .error messages => .error (admitted.2 ++ messages)
              | .ok sources =>
                  .ok ⟨finalizePatchBookkeeping p candidate :: sources.patches,
                    admitted.2 ++ sources.messages⟩

end RcpGraph
