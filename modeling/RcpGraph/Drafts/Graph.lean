import RcpGraph.Core.Vocabulary

/-!
The graph as the browser reads it, and the names under which it keeps what belongs to one
project and graph target.
-/

namespace Dict

universe u v w

variable {κ : Type u} {α : Type v} {β : Type w}

/-- Keep the entries that a test maps to a value, in their order. -/
def filterMap (d : Dict κ α) (f : κ → α → Option β) : Dict κ β where
  entries := d.entries.filterMap fun e => (f e.1 e.2).map fun b => (e.1, b)
  nodup := by
    refine d.nodup.sublist ?_
    induction d.entries with
    | nil => exact .slnil
    | cons e es ih =>
        rw [List.filterMap_cons, List.map_cons]
        cases f e.1 e.2 with
        | none => exact ih.cons e.1
        | some b => exact ih.cons_cons e.1

@[simp] theorem get?_filterMap [DecidableEq κ] (d : Dict κ α) (f : κ → α → Option β) (x : κ) :
    (d.filterMap f).get? x = (d.get? x).bind (f x) := by
  obtain ⟨entries, nodup⟩ := d
  simp only [get?, filterMap]
  induction entries with
  | nil => rfl
  | cons e es ih =>
      obtain ⟨hfirst, hrest⟩ := List.nodup_cons.mp nodup
      specialize ih hrest
      rw [List.filterMap_cons, Assoc.find]
      by_cases hx : e.1 = x
      · subst hx
        rw [Assoc.find_eq_none e.1 es hfirst] at ih
        cases hf : f e.1 e.2 <;> simp [hf, Assoc.find, ih]
      · cases hf : f e.1 e.2 <;> simp [hx, Assoc.find, ih]

end Dict

namespace RcpGraph.Drafts

/-- A project's id: a canonical UUID, or a slug with a digest. -/
structure ProjectId where
  text : String
  nonempty : text ≠ ""
  plain : ':' ∉ text.toList

instance : DecidableEq ProjectId := fun p q =>
  decidable_of_iff (p.text = q.text) (by cases p; cases q; simp)

inductive GraphTarget where
  | main
  | branch (branchId : String)
  deriving DecidableEq, Repr, Inhabited

/-- Browser state identity. -/
def graphSessionKey (project : ProjectId) : GraphTarget → String
  | .main => project.text
  | .branch branchId => project.text ++ ":branch:" ++ branchId

/-- The project is what stands before the first colon of a key. -/
theorem takeWhile_graphSessionKey (project : ProjectId) (target : GraphTarget) :
    (graphSessionKey project target).toList.takeWhile (· ≠ ':') = project.text.toList := by
  have hplain : ∀ c ∈ project.text.toList, (decide (c ≠ ':')) = true := by
    intro c hc
    exact decide_eq_true fun heq => project.plain (heq ▸ hc)
  cases target with
  | main => exact List.takeWhile_eq_self_iff.mpr hplain
  | branch branchId =>
      simp only [graphSessionKey, String.toList_append, List.append_assoc]
      rw [List.takeWhile_append_of_pos hplain]
      simp

/-- No two projects and targets share a key. -/
theorem graphSessionKey_inj {project project' : ProjectId} {target target' : GraphTarget} :
    graphSessionKey project target = graphSessionKey project' target' ↔
      project = project' ∧ target = target' := by
  refine ⟨fun heq => ?_, fun heq => heq.1 ▸ heq.2 ▸ rfl⟩
  have htext : project.text = project'.text := by
    rw [← String.toList_inj, ← takeWhile_graphSessionKey project target, heq,
      takeWhile_graphSessionKey]
  obtain rfl : project = project' := by
    cases project
    cases project'
    simpa using htext
  refine ⟨rfl, ?_⟩
  have hlen : ∀ branchId : String,
      (project.text ++ ":branch:" ++ branchId).toList.length ≠ project.text.toList.length := by
    intro branchId
    simp [String.toList_append]
  cases target with
  | main =>
      cases target' with
      | main => rfl
      | branch branchId' =>
          exact absurd (congrArg (fun key : String => key.toList.length) heq.symm) (hlen branchId')
  | branch branchId =>
      cases target' with
      | main => exact absurd (congrArg (fun key : String => key.toList.length) heq) (hlen branchId)
      | branch branchId' =>
          simp only [graphSessionKey, ← String.toList_inj, String.toList_append,
            List.append_assoc, List.append_cancel_left_eq] at heq
          rw [String.toList_inj.mp heq]

/-- A reference to the head of a graph target. -/
structure GraphHead where
  target : GraphTarget
  revision : Nat
  transitionId : Option String
  deriving DecidableEq, Repr

/-- An attempt of an Experiment; `json` is the attempt as the node lists it. -/
structure ExperimentAttempt where
  id : String
  status : String
  json : Json
  deriving DecidableEq, Repr

/-- A node; `fields` holds its properties that are not read by name here. -/
structure GraphNode where
  type : NodeType
  extensionType : Option String
  standing : Standing
  updatedRev : Nat
  attempts : Option (List ExperimentAttempt)
  fields : Dict String Json

/-- `node[key]`. -/
def GraphNode.get (node : GraphNode) (key : String) : Option Json :=
  match key with
  | "type" => some (.str node.type.name)
  | "extension_type" => some (.ofOption node.extensionType)
  | "standing" => some (.str node.standing.name)
  | "updated_rev" => some (.num node.updatedRev)
  | "attempts" => node.attempts.map fun attempts => .arr (attempts.map ExperimentAttempt.json)
  | _ => node.fields.get? key

/-- An edge as it is staged; a field that is absent is `none`. -/
structure NewEdge where
  id : String
  source : String
  target : String
  relation : String
  explanation : String
  assessment : Option Json := none
  expectation : Option Json := none
  deriving DecidableEq, Repr

/-- Human-entered node fields. -/
structure NewNode where
  id : String
  type : NodeType
  extensionType : Option String
  fields : Dict String Json
  deriving DecidableEq

inductive ProposalStatus where
  | pending
  | approved
  | rejected
  | withdrawn
  deriving DecidableEq, Repr

structure Proposal where
  status : ProposalStatus
  ops : List Json
  deriving DecidableEq, Repr

structure GraphState where
  revision : Nat
  nodes : Dict String GraphNode
  edges : Dict String NewEdge
  proposals : Dict String Proposal
  ontology : Json

end RcpGraph.Drafts
