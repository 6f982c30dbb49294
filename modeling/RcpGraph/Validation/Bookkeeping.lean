import RcpGraph.Validation.Patch

/-!
Bookkeeping around validation. Before it, every filed Proposal gets fresh filing
stamps and a glossary term the spelling the graph already has; after it, a filed
Proposal keeps the dependencies its staged operation observed.
-/

namespace RcpGraph

variable {rt : Runtime}

/-- Spellings of glossary terms under their lower-case form; the first one stays. -/
def learnSpelling (spellings : Dict String String) (lower term : String) : Dict String String :=
  if lower ∈ spellings then spellings else spellings.insert lower term

def glossarySpellings (s : GraphState rt) : Dict String String :=
  (Text.sortedSet s.glossary.keys).foldl
    (fun spellings term => learnSpelling spellings (rt.lower term) term) .empty

/-- Respell the terms of one operation. -/
def respellTerms (rt : Runtime) : List NewGlossaryTerm → Dict String String →
    List NewGlossaryTerm × Dict String String
  | [], spellings => ([], spellings)
  | t :: ts, spellings =>
      let known := learnSpelling spellings (rt.lower t.term) t.term
      let rest := respellTerms rt ts known
      ({ t with term := known.getD (rt.lower t.term) t.term } :: rest.1, rest.2)

/-- The filing stamps of a Proposal that a patch files. -/
def fileProposal (s : GraphState rt) (p : Patch rt) (raw : NewProposal rt) : NewProposal rt :=
  let deps := proposalDependencies s raw.proposal.ops
  { proposal :=
      { raw.proposal with
        status := .pending
        resolvedRev := none
        resolvedBy := none
        resolvedByOperationId := none
        resolutionReason := none
        rejectionReason := none
        dependencyRule :=
          proposalFilingDependencyRule raw.proposal.ops.length p.branchMerge.isSome
        relatedNodeIds := deps.1
        relatedEdgeIds := deps.2.1
        relatedConfigKeys := deps.2.2
        baseRev := s.revision
        createdBy := p.actor
        createdByOperationId := p.sourceOperationId
        raisedRev := 0 }
    createdBySet := true
    createdByOperationIdSet := true }

/-- The operations of a patch after `prepare_patch_bookkeeping`. -/
def prepareOperations (s : GraphState rt) (p : Patch rt) :
    List (GraphOperation rt) → Dict String String → List (GraphOperation rt)
  | [], _ => []
  | .upsertGlossary terms :: ops, spellings =>
      let respelled := respellTerms rt terms spellings
      .upsertGlossary respelled.1 :: prepareOperations s p ops respelled.2
  | .createProposals proposals :: ops, spellings =>
      .createProposals (proposals.map (fileProposal s p)) :: prepareOperations s p ops spellings
  | op :: ops, spellings => op :: prepareOperations s p ops spellings

/-- `prepare_patch_bookkeeping`. -/
def preparePatchBookkeeping (s : GraphState rt) (p : Patch rt) : Patch rt :=
  { p with ops := prepareOperations s p p.ops (glossarySpellings s) }

/-- A filed Proposal with the dependencies its staged operation observed. -/
def finalizeProposal (staged : GraphState rt) (raw : NewProposal rt) : NewProposal rt :=
  match staged.proposals.get? raw.proposal.id with
  | none => raw
  | some q =>
      { raw with
        proposal :=
          { raw.proposal with
            relatedNodeIds := q.relatedNodeIds
            relatedEdgeIds := q.relatedEdgeIds
            relatedConfigKeys := q.relatedConfigKeys } }

def finalizeOperation (staged : GraphState rt) : GraphOperation rt → GraphOperation rt
  | .createProposals proposals => .createProposals (proposals.map (finalizeProposal staged))
  | op => op

/-- `finalize_patch_bookkeeping`. -/
def finalizePatchBookkeeping (p : Patch rt) (staged : GraphState rt) : Patch rt :=
  { p with ops := p.ops.map (finalizeOperation staged) }

end RcpGraph
