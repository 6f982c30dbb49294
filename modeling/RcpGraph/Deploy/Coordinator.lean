import RcpGraph.Lib.Crash
import Mathlib.Data.List.Basic

/-!
The deployment coordinator. Every runtime step and every journal write may fail
before, during or after its effect, by raising or by a crash of the coordinator; an
oracle decides. While the service runs it accepts work into the data roots.
-/

namespace RcpGraph.Deploy

open Crash

inductive Kind where
  | update
  | restore
  deriving DecidableEq, Repr

inductive Phase where
  | preparing
  | backupReady
  | enteringMaintenance
  | quiescent
  | snapshotting
  | snapshotReady
  | checkpointReady
  | activating
  | pointerSwitched
  | candidateVerified
  | candidateChosen
  | previousChosen
  | rollbackStarted
  | rollbackRootsComplete
  | previousPointerRestored
  | previousVerified
  | committed
  | rolledBack
  | aborted
  deriving DecidableEq, Repr

namespace Phase

/-- `TERMINAL`. -/
def terminal : Phase → Bool
  | .committed | .rolledBack | .aborted => true
  | _ => false

/-- `EARLY`. -/
def early : Phase → Bool
  | .preparing | .backupReady | .enteringMaintenance | .quiescent | .snapshotting
  | .checkpointReady => true
  | _ => false

/-- `ROLLBACK`. -/
def rollback : Phase → Bool
  | .rollbackStarted | .rollbackRootsComplete | .previousPointerRestored | .previousVerified => true
  | _ => false

/-- A release has been chosen for good. -/
def chosen : Phase → Bool
  | .candidateChosen | .previousChosen => true
  | _ => false

end Phase

/-- A journal record. `D` is the contents of the data roots, which a checkpoint holds, `R` a
release receipt and `P` an application proof. -/
structure Operation (D R P : Type) where
  version : Nat
  kind : Kind
  phase : Phase
  previous : R
  target : R
  checkpoint : Option D
  candidateCheckpoint : Option D
  previousUninitialized : Bool
  previousProof : Option P
  targetProof : Option P
  error : Option String

/-- A durable effect that the claims of the journal are about. -/
inductive Event where
  | wrote (phase : Phase)
  | restored
  deriving DecidableEq, Repr

/-- Where a step fails, if it does. -/
inductive Point where
  | before
  | midway
  | after
  | never
  deriving DecidableEq, Repr

/-- What the environment does during one step. -/
structure Choice (D W P : Type) where
  point : Point
  crash : Bool
  message : String
  /-- The work a running service accepts meanwhile. -/
  work : List W
  /-- What a candidate, or a restore cut short, leaves in the roots. -/
  left : D
  candidate : D
  proof : P

structure World (D W R P : Type) where
  journal : Option (Operation D R P)
  pointer : R
  selected : R
  roots : D
  serving : Bool
  clock : Nat
  /-- A restore or the candidate has touched the roots. -/
  touched : Bool
  /-- The work accepted since the roots were last restored. -/
  kept : List W
  log : List Event

variable {D W R P : Type} [DecidableEq R]

/-- A coordinator program. -/
abbrev Coord (D W R P : Type) (α : Type) := Prog (World D W R P) String α

section Steps

variable (accept : D → W → D) (oracle : Nat → Choice D W P)

/-- Time passes: a running service accepts work. -/
def World.pass (w : World D W R P) (c : Choice D W P) : World D W R P :=
  if w.serving then
    { w with
      roots := c.work.foldl accept w.roots
      kept := w.kept ++ c.work
      clock := w.clock + 1 }
  else { w with clock := w.clock + 1 }

def fail {α : Type} (c : Choice D W P) : Outcome String α :=
  if c.crash then .crashed else .raised c.message

/-- One step with its effect, and what it may leave when it is cut short. -/
def act (mid effect : Choice D W P → World D W R P → World D W R P) :
    Coord D W R P (Choice D W P) := fun w =>
  let c := oracle w.clock
  let w := w.pass accept c
  match c.point with
  | .before => (fail c, w)
  | .midway => (fail c, mid c w)
  | .after => (fail c, effect c w)
  | .never => (.ok c, effect c w)

/-- A step that happens at once or not. -/
def step (effect : World D W R P → World D W R P) : Coord D W R P Unit := do
  let _ ← act accept oracle (fun _ w => w) fun _ => effect
  pure ()

/-- A step without an effect on what is modelled: a lock, a backup, an inventory. -/
def visit : Coord D W R P Unit := step accept oracle id

def stopService : Coord D W R P Unit := step accept oracle fun w => { w with serving := false }

/-- A start that fails may leave the service running. -/
def startService : Coord D W R P Unit := do
  let _ ← act accept oracle (fun _ w => { w with serving := true }) fun _ w =>
    { w with serving := true }
  pure ()

/-- `enter_maintenance`: the application stops accepting work. -/
def enterMaintenance : Coord D W R P Unit :=
  step accept oracle fun w => { w with serving := false }

/-- `abort_maintenance`: the application accepts work again. -/
def abortMaintenance : Coord D W R P Unit :=
  step accept oracle fun w => { w with serving := true }

def switchPointer (release : R) (allowed : List R) : Coord D W R P Unit := do
  visit accept oracle
  if (← Prog.get).pointer ∈ allowed then
    step accept oracle fun w => { w with pointer := release }
  else Prog.raise "The installed release pointer differs from this authorized operation."

def select (release : R) : Coord D W R P Unit :=
  step accept oracle fun w => { w with selected := release }

/-- The roots hold something else, and a restore is on record. -/
def World.replaced (contents : D) (w : World D W R P) : World D W R P :=
  { w with roots := contents, kept := [], touched := true, log := w.log ++ [.restored] }

/-- `restore_roots`; cut short it leaves the roots in any state. -/
def restoreRoots (checkpoint : D) : Coord D W R P Unit := do
  let _ ← act accept oracle (fun c => World.replaced c.left) fun _ => World.replaced checkpoint
  pure ()

/-- What running the candidate may do to the roots. -/
def World.migrated (c : Choice D W P) (w : World D W R P) : World D W R P :=
  { w with roots := c.left, kept := [], touched := true }

/-- `probe`: the candidate may change the roots, the previous release does not. -/
def probe (candidate : Bool) : Coord D W R P Unit :=
  if candidate then do
    let _ ← act accept oracle World.migrated World.migrated
    pure ()
  else visit accept oracle

/-- `selected_release`, which refuses a pointer that disagrees. -/
def selectedRelease : Coord D W R P R := do
  visit accept oracle
  let w ← Prog.get
  if w.pointer = w.selected then pure w.selected
  else Prog.raise "The current pointer and root-selected release disagree."

/-- `snapshot` of the stopped roots. -/
def snapshot : Coord D W R P D := do
  visit accept oracle
  pure (← Prog.get).roots

/-- `prepare` and `prepare_fresh_restore`: the checkpoint, the proofs and the checkpoint of the
candidate. An update's candidate runs beside its own snapshot of the roots. -/
def prepare (operation : Operation D R P) : Coord D W R P (D × Option P × P × Option D) :=
  match operation.kind, operation.checkpoint with
  | .update, some checkpoint => do
      let c ← act accept oracle World.migrated World.migrated
      pure (checkpoint, none, c.proof, none)
  | _, _ => do
      let c ← act accept oracle (fun _ w => w) fun _ w => w
      pure ((← Prog.get).roots, none, c.proof, some c.candidate)

end Steps

section Journal

/-- `OperationStore.validate`, from the states of a record on: what a phase requires. -/
def Operation.valid (o : Operation D R P) : Bool :=
  let exactUpdate := decide (2 ≤ o.version) && decide (o.kind = .update)
  let needsCheckpoint :=
    !((o.phase.early && o.phase ≠ .checkpointReady) || o.phase = .aborted)
  let needsProofs := needsCheckpoint && (!exactUpdate || decide (o.phase ∈
    [.checkpointReady, .activating, .pointerSwitched, .candidateVerified, .candidateChosen,
      .committed]))
  decide (o.version = 1 ∨ o.version = 2 ∨ o.version = 3) &&
  !(decide (o.kind = .update) && decide (o.previous = o.target)) &&
  !(o.previousUninitialized && decide (o.kind ≠ .restore)) &&
  !(needsCheckpoint && o.checkpoint.isNone) &&
  !(needsProofs && (o.targetProof.isNone ||
    (decide (o.version < 3) && !o.previousUninitialized && o.previousProof.isNone))) &&
  !(decide (o.kind = .update) && o.candidateCheckpoint.isSome) &&
  !(decide (o.kind = .restore) && needsCheckpoint && o.candidateCheckpoint.isNone) &&
  o.error.all fun e => decide (e.length ≤ 4096)

variable (accept : D → W → D) (oracle : Nat → Choice D W P)

/-- The record is durable. -/
def World.wrote (operation : Operation D R P) (w : World D W R P) : World D W R P :=
  { w with journal := some operation, log := w.log ++ [.wrote operation.phase] }

/-- `OperationStore.write`. -/
def write (operation : Operation D R P) : Coord D W R P Unit :=
  if operation.valid then
    step accept oracle (World.wrote operation)
  else Prog.raise "Deployment journal format is unsupported."

/-- `OperationStore.active`. -/
def active : Coord D W R P (Option (Operation D R P)) := do
  visit accept oracle
  pure ((← Prog.get).journal.filter fun o => !o.phase.terminal)

/-- `Coordinator._phase`. -/
def toPhase (operation : Operation D R P) (phase : Phase) : Coord D W R P (Operation D R P) := do
  write accept oracle { operation with phase := phase }
  visit accept oracle
  pure { operation with phase := phase }

end Journal

section Coordinator

variable (accept : D → W → D) (oracle : Nat → Choice D W P)

/-- A step that is left out under a condition. -/
def unlessIs (skip : Bool) (m : Coord D W R P Unit) : Coord D W R P Unit :=
  if skip then pure () else m

/-- `_recover_operation` of a choice: no proof of the old boundary is used and no data is
restored. -/
def recoverChosen (operation : Operation D R P) (startup : Bool) :
    Coord D W R P (Operation D R P) := do
  let candidate := decide (operation.phase = .candidateChosen)
  let release := if candidate then operation.target else operation.previous
  unlessIs startup (stopService accept oracle)
  switchPointer accept oracle release [operation.previous, operation.target]
  select accept oracle release
  if !candidate && operation.previousUninitialized then
    toPhase accept oracle operation .rolledBack
  else do
    probe accept oracle candidate
    unlessIs startup (startService accept oracle)
    toPhase accept oracle operation (if candidate then .committed else .rolledBack)

/-- `_recover_operation` before anything is activated. -/
def abortEarly (operation : Operation D R P) (startup : Bool) : Coord D W R P (Operation D R P) :=
  if operation.previousUninitialized then do
    unlessIs startup (stopService accept oracle)
    toPhase accept oracle operation .aborted
  else if startup = false ∧ operation.phase ∈ [.preparing, .backupReady, .enteringMaintenance] then do
    abortMaintenance accept oracle
    toPhase accept oracle operation .aborted
  else do
    unlessIs startup (stopService accept oracle)
    switchPointer accept oracle operation.previous [operation.previous]
    probe accept oracle false
    select accept oracle operation.previous
    let operation ← toPhase accept oracle operation .aborted
    unlessIs startup (startService accept oracle)
    pure operation

def startRollback (operation : Operation D R P) : Coord D W R P (Operation D R P) :=
  if operation.phase.rollback then pure operation
  else toPhase accept oracle operation .rollbackStarted

/-- The data of the previous release. -/
def rollBackRoots (operation : Operation D R P) : Coord D W R P (Operation D R P) :=
  if operation.phase = .rollbackStarted then
    match operation.checkpoint with
    | some checkpoint => do
        restoreRoots accept oracle checkpoint
        toPhase accept oracle operation .rollbackRootsComplete
    | none => Prog.raise "Deployment state lacks its exact checked checkpoint."
  else pure operation

def rollBackPointer (operation : Operation D R P) : Coord D W R P (Operation D R P) :=
  if operation.phase = .rollbackRootsComplete then do
    switchPointer accept oracle operation.previous [operation.previous, operation.target]
    toPhase accept oracle operation .previousPointerRestored
  else pure operation

def verifyPrevious (operation : Operation D R P) : Coord D W R P (Operation D R P) :=
  if operation.phase = .previousPointerRestored then do
    unlessIs operation.previousUninitialized (probe accept oracle false)
    toPhase accept oracle operation .previousVerified
  else pure operation

/-- `_recover_operation` back to the previous release, from the phase it was cut at. -/
def rollBack (operation : Operation D R P) (startup : Bool) : Coord D W R P (Operation D R P) := do
  unlessIs startup (stopService accept oracle)
  let operation ← startRollback accept oracle operation
  let operation ← rollBackRoots accept oracle operation
  let operation ← rollBackPointer accept oracle operation
  let operation ← verifyPrevious accept oracle operation
  let operation ← toPhase accept oracle operation .previousChosen
  select accept oracle operation.previous
  unlessIs (startup || operation.previousUninitialized) (startService accept oracle)
  toPhase accept oracle operation .rolledBack

/-- `_recover_operation`. -/
def recoverOperation (operation : Operation D R P) (startup : Bool) :
    Coord D W R P (Operation D R P) :=
  let exactUpdate := decide (operation.kind = .update) && decide (2 ≤ operation.version)
  if operation.phase.chosen then recoverChosen accept oracle operation startup
  else if operation.kind = .update ∧ exactUpdate = false ∧ operation.phase ∉
      [.preparing, .backupReady, .enteringMaintenance] then
    Prog.raise ("operation_recovery_required: legacy rollback has no complete stopped-tree " ++
      "baseline; retain its payloads for operator recovery.")
  else if operation.phase.early && !(exactUpdate && operation.checkpoint.isSome) then
    abortEarly accept oracle operation startup
  else rollBack accept oracle operation startup

/-- `_recover`: the failure of a recovery is kept in the journal. -/
def recoverFrom (operation : Operation D R P) (startup : Bool) :
    Coord D W R P (Operation D R P) :=
  Prog.handle (recoverOperation accept oracle operation startup) fun cause => do
    match ← active accept oracle with
    | none => Prog.raise cause
    | some current =>
        let cause' := (cause.take 2048).toString
        let error := (current.error.map fun original =>
          original ++ "; recovery failed: " ++ cause').getD cause'
        write accept oracle { current with error := some (error.take 4096).toString }
        Prog.raise cause

/-- `recover`. At startup the service waits for it. -/
def recover (startup : Bool) : Coord D W R P (Option (Operation D R P)) := do
  unlessIs (!startup) (step accept oracle fun w => { w with serving := false })
  visit accept oracle
  match ← active accept oracle with
  | none => pure none
  | some operation => do
      visit accept oracle
      let operation ← recoverFrom accept oracle operation startup
      pure (some operation)

/-- `deploy` up to a stopped service. -/
def quiesce (operation : Operation D R P) : Coord D W R P (Operation D R P) := do
  unlessIs operation.previousUninitialized (visit accept oracle)
  let operation ← toPhase accept oracle operation .backupReady
  visit accept oracle
  let operation ← toPhase accept oracle operation .enteringMaintenance
  unlessIs operation.previousUninitialized (enterMaintenance accept oracle)
  unlessIs (operation.kind = .restore) (visit accept oracle)
  let operation ← toPhase accept oracle operation .quiescent
  stopService accept oracle
  pure operation

/-- An update takes its snapshot before the candidate is prepared. -/
def takeSnapshot (operation : Operation D R P) : Coord D W R P (Operation D R P) :=
  match operation.kind with
  | .update => do
      let operation ← toPhase accept oracle operation .snapshotting
      let checkpoint ← snapshot accept oracle
      toPhase accept oracle { operation with checkpoint := some checkpoint } .snapshotReady
  | .restore => pure operation

/-- The record with what `prepare` answers. -/
def prepared (operation : Operation D R P) (answer : D × Option P × P × Option D) :
    Operation D R P :=
  { operation with
    checkpoint := some answer.1
    previousProof := answer.2.1
    targetProof := some answer.2.2.1
    candidateCheckpoint := answer.2.2.2 }

/-- A restore puts the candidate's data in place. -/
def activateRoots (operation : Operation D R P) : Coord D W R P Unit :=
  match operation.candidateCheckpoint with
  | some candidate => restoreRoots accept oracle candidate
  | none => pure ()

/-- The steps of `deploy` after its first record is written. -/
def activate (operation : Operation D R P) : Coord D W R P (Operation D R P) := do
  let operation ← quiesce accept oracle operation
  let operation ← takeSnapshot accept oracle operation
  let answer ← prepare accept oracle operation
  let operation ← toPhase accept oracle (prepared operation answer) .checkpointReady
  let operation ← toPhase accept oracle operation .activating
  activateRoots accept oracle operation
  switchPointer accept oracle operation.target [operation.previous, operation.target]
  let operation ← toPhase accept oracle operation .pointerSwitched
  probe accept oracle true
  let operation ← toPhase accept oracle operation .candidateVerified
  -- From here on no failure may restore old data over accepted work.
  let operation ← toPhase accept oracle operation .candidateChosen
  select accept oracle operation.target
  startService accept oracle
  toPhase accept oracle operation .committed

/-- A failure is kept in the journal, and the operation recovered unless a release is chosen. -/
def settleFailure (operation : Operation D R P) (cause : String) :
    Coord D W R P (Operation D R P) := do
  write accept oracle operation
  if operation.phase.chosen then
    Prog.raise ("The selected release failed to start; recovery must preserve its data: " ++ cause)
  else do
    let _ ← recoverFrom accept oracle operation false
    Prog.raise cause

/-- What `deploy` does with a failure: it reads the durable record, not its own. -/
def deployFailed (cause : String) : Coord D W R P (Operation D R P) := do
  match ← active accept oracle with
  | none => Prog.raise cause
  | some operation =>
      settleFailure accept oracle { operation with error := some (cause.take 4096).toString } cause

/-- The first record of a deployment. -/
def newOperation (previous target : R) (kind : Kind) (previousUninitialized : Bool) :
    Operation D R P where
  version := 3
  kind := kind
  phase := .preparing
  previous := previous
  target := target
  checkpoint := none
  candidateCheckpoint := none
  previousUninitialized := previousUninitialized
  previousProof := none
  targetProof := none
  error := none

/-- `deploy`. -/
def deploy (previous target : R) (kind : Kind) (previousUninitialized : Bool) :
    Coord D W R P (Operation D R P) := do
  visit accept oracle
  let unfinished ← active accept oracle
  if unfinished.isSome then
    Prog.raise "Recover the unfinished supervisor operation before deploying."
  else do
    let selected ← selectedRelease accept oracle
    if selected ≠ previous then
      Prog.raise "The selected release changed before deployment; rerun the operation."
    else do
      let operation := newOperation previous target kind previousUninitialized
      write accept oracle operation
      visit accept oracle
      Prog.handle (activate accept oracle operation) (deployFailed accept oracle)

/-- The world after a deployment and the recoveries that follow it, each at startup or not. -/
def runs (previous target : R) (kind : Kind) (previousUninitialized : Bool) (startups : List Bool)
    (w : World D W R P) : World D W R P :=
  startups.foldl (fun w startup => (recover accept oracle startup w).2)
    (deploy accept oracle previous target kind previousUninitialized w).2

end Coordinator

end RcpGraph.Deploy
