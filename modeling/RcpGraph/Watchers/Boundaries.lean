import RcpGraph.Lib.Cursor
import RcpGraph.Core.Patch
import RcpGraph.Watchers.Delivery

/-!
Graph conditions at the accepted boundaries of their target. The accepted history and the
watcher store share no transaction: a pass reads the history up to a head and then
consumes its boundaries one transaction at a time. It may fail or crash between any two,
and other transactions may come between them.
-/

namespace RcpGraph.Watchers

open Crash
open Schema

variable {rt : Runtime}

/-- The statuses that a node's type allows for it; `none` for a type without a status. -/
def statusField (node : ProjectNode rt) : Option Field :=
  (contentFields rt node.type).find? fun field => field.name = "status"

def allowsStatus (field : Field) (status : String) : Bool :=
  (field.kind.check strict (.str status)).isOk

/-- `validate_graph_conditions`, for one condition. -/
def validGraphCondition (condition : GraphCondition) (state : GraphState rt) : Bool :=
  state.complete &&
    match state.nodes.get? condition.nodeId, condition with
    | none, _ => false
    | some _, .proposalResolved _ => true
    | some node, .nodeStatus _ statusIn =>
        match statusField node with
        | none => false
        | some field => statusIn.all (allowsStatus field)

/-- `graph_condition_result`. -/
def graphConditionResult (condition : GraphCondition) (state : GraphState rt)
    (armedRevision : Nat) : GraphResult :=
  if !state.complete then .active
  else
    match state.nodes.get? condition.nodeId, condition with
    | none, _ => .removed
    | some node, .nodeStatus _ statusIn =>
        if node.status?.any (· ∈ statusIn) then .completed else .active
    | some _, .proposalResolved nodeId =>
        if state.proposals.values.any fun proposal => proposal.status ≠ .pending &&
            proposal.resolvedRev.any (armedRevision < ·) && nodeId ∈ proposal.relatedNodeIds
        then .completed else .active

/-- The first look at a condition that is armed at a revision, on the state that it is armed
with; `removed` says what is wrong when its target is gone. -/
def firstLook (removed : String → String) (condition : GraphCondition) (state : GraphState rt)
    (armedRevision : Nat) : Except Refusal Observation :=
  match graphConditionResult condition state armedRevision with
  | .removed => .error (.valueError (removed condition.nodeId))
  | .completed => .ok (.graph condition armedRevision true)
  | .active => .ok (.graph condition armedRevision false)

/-- The first look of `arm_watchers`. -/
def armGraphCondition (condition : GraphCondition) (state : GraphState rt) :
    Except Refusal Observation :=
  firstLook ("graph condition target does not exist: " ++ ·) condition state state.revision

/-- The first look of `prepare_experiment_watcher_records`. The condition is armed at the
revision at which it was validated; the state was read after that. -/
def handOverGraphCondition (condition : GraphCondition) (state : GraphState rt)
    (armedRevision : Nat) : Except Refusal Observation :=
  firstLook (fun nodeId => "Experiment graph condition target " ++ Text.quoted nodeId ++
    " is not canonical.") condition state armedRevision

/-- `graph_condition_transition_event_result`: whether an event of the boundary completes
the condition. -/
def graphConditionTransitionEvent (condition : GraphCondition) (events : List TransitionEvent)
    (armedRevision boundaryRevision : Nat) : Bool :=
  armedRevision < boundaryRevision &&
    match condition with
    | .proposalResolved _ => false
    | .nodeStatus nodeId statusIn =>
        events.any fun event => event.eventType = .nodeStatusChanged && event.nodeId = nodeId &&
          event.field = "status" && event.after.str?.any (· ∈ statusIn)

/-- `graph_watcher_boundary_result`, of an armed condition. -/
def graphWatcherBoundaryResult (condition : GraphCondition) (armedRevision : Nat)
    (state : GraphState rt) (events : List TransitionEvent) : GraphResult :=
  if graphConditionTransitionEvent condition events armedRevision state.revision then .completed
  else
    match graphConditionResult condition state armedRevision with
    | .removed => .removed
    | result => if validGraphCondition condition state then result else .active

/-- An accepted patch of a target: the state it leaves, and its transition if it has one. -/
structure AcceptedStep (rt : Runtime) where
  state : GraphState rt
  trace : Option TransitionTrace

namespace AcceptedStep

def revision (step : AcceptedStep rt) : Nat := step.state.revision

def transitionId (step : AcceptedStep rt) : Option String :=
  step.trace.map TransitionTrace.transitionId

def lifecycleEvents (step : AcceptedStep rt) : List TransitionEvent :=
  (step.trace.map TransitionTrace.lifecycleEvents).getD []

/-- What an armed condition is found to be at this boundary. -/
def judge (condition : GraphCondition) (armedRevision : Nat) (step : AcceptedStep rt) :
    GraphResult :=
  graphWatcherBoundaryResult condition armedRevision step.state step.lifecycleEvents

end AcceptedStep

/-- The accepted patches of one target, in the order of their revisions. Rejected ones take
a revision and leave no entry. -/
structure AcceptedHistory (rt : Runtime) where
  steps : List (AcceptedStep rt)
  increasing : steps.Pairwise fun a b => a.revision < b.revision

/-- The accepted histories of all targets, as far as the run comes. -/
abbrev Histories (rt : Runtime) := String → GraphTargetRef → AcceptedHistory rt

/-- What is left of a pass. -/
inductive PassStep (rt : Runtime) where
  | baselines
  | boundary (step : AcceptedStep rt)

/-- A pass over one target of a project, up to the head it read. -/
structure Pass (rt : Runtime) where
  target : GraphTargetRef
  head : Nat
  todo : List (PassStep rt)

def GraphHeadRef.of (target : GraphTargetRef) (step : AcceptedStep rt) : GraphHeadRef :=
  { target, revision := step.revision, transitionId := step.transitionId }

/-- `AcceptedGraphBoundary.__post_init__`, and the target of the transition. -/
def boundaryProblem (target : GraphTargetRef) (step : AcceptedStep rt) : Option Refusal :=
  if step.trace.any fun trace => trace.preHead.target ≠ target then
    some (.runtimeError "accepted transition target does not match its history view")
  else if !step.state.complete then
    some (.valueError "an accepted graph boundary requires a complete replay state")
  else if ¬ (step.lifecycleEvents.map TransitionEvent.eventId).Nodup then
    some (.valueError "an accepted transition cannot repeat a lifecycle event id")
  else none

/-- `_reconcile_graph_wake_target`, up to the first write: the boundaries of the view that
the stored head has not passed, in order, with the checks of
`reconcile_accepted_graph_boundaries`. -/
def startPass (histories : Histories rt) (s : Store) (projectId : String)
    (target : GraphTargetRef) (head : Nat) (degraded : Bool) : Except Refusal (Pass rt) :=
  let consumed := s.consumed.get? (projectId, target)
  let view := (histories projectId target).steps.filter fun step => step.revision ≤ head
  let boundaries := view.filter fun step => consumed.all fun stored => stored.revision ≤ step.revision
  if degraded then .error (.runtimeError "graph replay is degraded")
  else if consumed.any fun stored => head < stored.revision then
    .error (.runtimeError "the graph is behind its consumed watcher reconciliation head")
  else
    match boundaries.findSome? (boundaryProblem target) with
    | some e => .error e
    | none =>
        if ¬ (boundaries.flatMap fun step =>
            step.lifecycleEvents.map TransitionEvent.eventId).Nodup then
          .error (.valueError "a lifecycle event id was reused across accepted boundaries")
        else .ok { target, head, todo := .baselines :: boundaries.map .boundary }

/-- The row's result at a boundary. -/
def evaluateAt (step : AcceptedStep rt) (w : Watcher) : GraphResult :=
  match w.graphCondition, w.armedRevision with
  | some condition, some armed => step.judge condition armed
  | _, _ => .active

/-- One transaction of a pass, and whether it consumed a boundary. -/
def PassStep.body (projectId : String) (pass : Pass rt) (now : String) :
    PassStep rt → Txn Bool
  | .baselines => do
      initializeGraphWatcherTargetBaselines projectId pass.target pass.head now
      pure false
  | .boundary step =>
      consumeGraphWatcherBoundary projectId (GraphHeadRef.of pass.target step) (evaluateAt step) now

/-- The store, the passes under way, one for each project, and the boundaries consumed so
far, the oldest first. -/
structure System (rt : Runtime) where
  store : Store
  passes : Dict String (Pass rt)
  log : List (String × GraphHeadRef)

inductive Event where
  | transaction (t : Transaction) (other : t.reconciles = false)
  | start (projectId : String) (target : GraphTargetRef) (head : Nat) (degraded : Bool)
  | advance (projectId now : String)
  | abandon (projectId : String)

/-- The next transaction of a pass. A failure ends the pass and leaves the store. -/
def System.advance (sys : System rt) (projectId now : String) (pass : Pass rt)
    (next : PassStep rt) (rest : List (PassStep rt)) : System rt :=
  match (next.body projectId pass now).atomic sys.store with
  | (.ok consumed, store) =>
      { store
        passes := sys.passes.insert projectId { pass with todo := rest }
        log :=
          match consumed, next with
          | true, .boundary step => sys.log ++ [(projectId, GraphHeadRef.of pass.target step)]
          | _, _ => sys.log }
  | (_, store) => { sys with store, passes := sys.passes.erase projectId }

def System.step (cfg : Config) (histories : Histories rt) (sys : System rt) : Event → System rt
  | .transaction t _ => { sys with store := sys.store.step cfg t }
  | .start projectId target head degraded =>
      match startPass histories sys.store projectId target head degraded with
      | .error _ => { sys with passes := sys.passes.erase projectId }
      | .ok pass => { sys with passes := sys.passes.insert projectId pass }
  | .advance projectId now =>
      match sys.passes.get? projectId with
      | none => sys
      | some pass =>
          match pass.todo with
          | [] => sys
          | next :: rest => sys.advance projectId now pass next rest
  | .abandon projectId => { sys with passes := sys.passes.erase projectId }

def System.run (cfg : Config) (histories : Histories rt) (sys : System rt)
    (events : List Event) : System rt :=
  events.foldl (System.step cfg histories) sys

end RcpGraph.Watchers
