import RcpGraph.Lib.Dict

/-!
The browser's store of backend resources. Tabs register interest in keys; watermarks say
which keys have moved, and the store reads those. Reads and commands are in flight between
the operations, and what they captured when they started decides whether their answers
count. A promise is its serial number here, and a state's identity is its `uid`.
-/

namespace RcpGraph.Browser

universe u

structure ResourceRequest where
  name : String
  ref : Option String
  entity : Option String
  deriving DecidableEq, Repr

/-- A key is its own id: `resourceKeyId` writes all of its parts. -/
structure ResourceKey extends ResourceRequest where
  backend : String
  member : String
  project : String
  query : Option String
  deriving DecidableEq, Repr

/-- The token of a key, or the tokens of all it watches. -/
abbrev Version := List String

/-- What the profiles of the keys say. Few of them reconcile. -/
structure Catalog (V : Type u) where
  watch : ResourceKey → List ResourceRequest
  reconcile : ResourceKey → Option (Option V → V → V)

structure ObservationTicket where
  project : String
  serial : Nat
  deriving DecidableEq, Repr

/-- A call of `refresh`, and how many reads had started before it. -/
structure RefreshCall where
  serial : Nat
  readsBefore : Nat
  deriving DecidableEq, Repr

structure Waiter where
  invalidation : Nat
  call : RefreshCall
  deriving DecidableEq, Repr

/-- How a promise of `refresh` ended. -/
inductive Settlement where
  | resolved
  | rejected (error : String)
  deriving DecidableEq, Repr

/-- An overlay on a value that may be missing. -/
abbrev Apply (V : Type u) := Option V → Option V

structure PendingOperation (V : Type u) where
  id : String
  apply : Apply V

/-- `ResourceState`. `value` is `none` while there is none, and an error that is
`undefined` is `none`. `asOf` is not of the source: the moment of the server that the value
is of, `none` where one that the server did not send has gone into it. -/
structure ResourceState (V : Type u) where
  uid : Nat
  owners : Dict String Nat
  dormant : List String
  value : Option V
  asOf : Option Nat
  valueEpoch : Option String
  invalidations : Nat
  lastRead : Nat
  waiters : List Waiter
  overlays : Dict String (Apply V)
  committed : Option Version
  observed : Option Version
  owed : Bool
  seen : Bool
  generation : Nat
  sequence : Nat
  /-- The start number of the read whose controller is held. -/
  inFlight : Option Nat
  error : Option String
  failures : Nat
  retryAt : Nat
  pending : List (PendingOperation V)
  settledMutation : Nat
  acceptedReads : Nat
  acceptedReadStart : Nat

/-- A new state, before its owner is noted. -/
def ResourceState.fresh (V : Type u) (uid : Nat) : ResourceState V where
  uid := uid
  owners := Dict.empty
  dormant := []
  value := none
  asOf := none
  valueEpoch := none
  invalidations := 0
  lastRead := 0
  waiters := []
  overlays := Dict.empty
  committed := none
  observed := none
  owed := false
  seen := false
  generation := 0
  sequence := 0
  inFlight := none
  error := none
  failures := 0
  retryAt := 0
  pending := []
  settledMutation := 0
  acceptedReads := 0
  acceptedReadStart := 0

/-- What a read captures when it starts; its start number is its controller's identity. -/
structure Read where
  key : ResourceKey
  uid : Nat
  generation : Nat
  sequence : Nat
  version : Option Version
  invalidation : Nat
  readStart : Nat
  background : Bool
  deriving DecidableEq, Repr

/-- What a command captures of a state it affects. -/
structure CommandStart where
  uid : Nat
  generation : Nat
  reads : Nat
  deriving DecidableEq, Repr

/-- The closure of `beginMutation`: the keys it affects and what it found there. -/
structure Command where
  order : Nat
  operationId : String
  effects : List ResourceKey
  startedAt : Dict ResourceKey CommandStart
  deriving DecidableEq

structure Proof where
  epoch : Option String
  version : Version
  deriving DecidableEq, Repr

structure PresentationEntry where
  serial : Nat
  activationKey : String
  ids : List ResourceKey
  minimumObservation : Nat
  minimumRead : Nat
  proofs : Dict ResourceKey Proof
  admitted : Bool
  error : Option String

structure Store (V : Type u) where
  states : Dict ResourceKey (ResourceState V)
  presentations : Dict String PresentationEntry
  presentationSerial : Nat
  observationSerial : Nat
  activeProject : Option String
  running : Nat
  runningBackground : Nat
  epoch : Option String
  /-- A scheduler is attached. -/
  scheduled : Bool
  mutations : Nat
  reads : Nat
  /-- The reads and commands that have not ended. -/
  reading : List Read
  commands : List Command
  /-- How the promises of `refresh` ended, the oldest first. -/
  settled : List (RefreshCall × Settlement)
  refreshes : Nat
  nextUid : Nat

def Store.empty (V : Type u) : Store V where
  states := Dict.empty
  presentations := Dict.empty
  presentationSerial := 0
  observationSerial := 0
  activeProject := none
  running := 0
  runningBackground := 0
  epoch := none
  scheduled := false
  mutations := 0
  reads := 0
  reading := []
  commands := []
  settled := []
  refreshes := 0
  nextUid := 0

def RESOURCE_READ_SLOTS : Nat := 3
def RESOURCE_BACKGROUND_READ_SLOTS : Nat := 1
def RESOURCE_RETRY_BACKOFF_MS : List Nat := [3000, 6000, 12000, 30000]

def retryBackoffMs (failures : Nat) : Nat :=
  if failures = 0 then 0
  else (RESOURCE_RETRY_BACKOFF_MS[min failures RESOURCE_RETRY_BACKOFF_MS.length - 1]?).getD 0

namespace ResourceState

variable {V : Type u}

def watched (st : ResourceState V) : Bool := st.dormant.length < st.owners.entries.length

/-- Fences reads in flight; a later read starts fresh. -/
def fence (st : ResourceState V) : ResourceState V :=
  { st with sequence := st.sequence + 1, inFlight := none }

def addDormant (st : ResourceState V) (owner : String) : ResourceState V :=
  { st with dormant := if owner ∈ st.dormant then st.dormant else st.dormant ++ [owner] }

/-- A state that nobody watches any more. -/
def unwatch (st : ResourceState V) : ResourceState V :=
  if st.watched then st else { st.fence with generation := st.generation + 1 }

def withoutPending (st : ResourceState V) (operationId : String) : ResourceState V :=
  { st with pending := st.pending.filter fun operation => operation.id ≠ operationId }

/-- The value a response leaves: a profile may reconcile it with the value of the epoch. -/
def accepted (catalog : Catalog V) (key : ResourceKey) (epoch : Option String)
    (st : ResourceState V) (value : V) : V :=
  match catalog.reconcile key with
  | some reconcile => reconcile (if st.valueEpoch = epoch then st.value else none) value
  | none => value

/-- A value that is accepted goes together with the one that is there. -/
def merges (catalog : Catalog V) (key : ResourceKey) (epoch : Option String)
    (st : ResourceState V) : Bool :=
  (catalog.reconcile key).isSome && st.valueEpoch = epoch && st.value.isSome

/-- What the value of a response is of, with the one that is there in it. -/
def moment (catalog : Catalog V) (key : ResourceKey) (epoch : Option String)
    (st : ResourceState V) (asOf : Option Nat) : Option Nat :=
  if st.merges catalog key epoch then
    match st.asOf, asOf with
    | some previous, some next => if previous ≤ next then some next else none
    | _, _ => none
  else asOf

/-- The waiters that an ended read leaves. -/
def afterRefreshes (st : ResourceState V) (invalidation : Nat) : ResourceState V :=
  { st with waiters := st.waiters.filter fun waiter => invalidation < waiter.invalidation }

/-- `finishRefreshes`, the promises it settles: without an error they resolve. -/
def finishedRefreshes (st : ResourceState V) (invalidation : Nat) (error : Option String) :
    List (RefreshCall × Settlement) :=
  (st.waiters.filter fun waiter => waiter.invalidation ≤ invalidation).map fun waiter =>
    (waiter.call, match error with | some e => .rejected e | none => .resolved)

/-- `finishRefreshes` at infinity. -/
def rejectedRefreshes (st : ResourceState V) (error : String) :
    List (RefreshCall × Settlement) :=
  st.waiters.map fun waiter => (waiter.call, .rejected error)

end ResourceState

namespace Store

variable {V : Type u}

def setState (s : Store V) (key : ResourceKey) (st : ResourceState V) : Store V :=
  { s with states := s.states.insert key st }

/-- Writes a state that is there. -/
def modify (s : Store V) (key : ResourceKey) (change : ResourceState V → ResourceState V) :
    Store V :=
  match s.states.get? key with
  | none => s
  | some st => s.setState key (change st)

def owes (s : Store V) (now : Nat) (st : ResourceState V) : Bool :=
  if !st.watched || st.inFlight.isSome || now < st.retryAt then false
  else if s.scheduled && !st.seen then false
  else st.value.isNone || st.owed || st.committed ≠ st.observed

/-- `read`, until it waits for its response. -/
def startRead (s : Store V) (key : ResourceKey) (background : Bool) : Store V :=
  match s.states.get? key with
  | none => s
  | some st =>
      { s with
        states := s.states.insert key
          { st with
            sequence := st.sequence + 1, lastRead := s.reads + 1, inFlight := some (s.reads + 1) }
        reads := s.reads + 1
        running := s.running + 1
        runningBackground := if background then s.runningBackground + 1 else s.runningBackground
        reading := s.reading ++
          [ { key, uid := st.uid, generation := st.generation, sequence := st.sequence + 1
              version := st.observed, invalidation := st.invalidations
              readStart := s.reads + 1, background } ] }

/-- The order of owed reads: the active project first, then the one read longest ago. -/
def pumpsBefore (active : Option String) (l r : ResourceKey × ResourceState V) : Bool :=
  let lActive := decide (some l.1.project = active)
  let rActive := decide (some r.1.project = active)
  if lActive = rActive then l.2.lastRead ≤ r.2.lastRead else lActive

/-- The loop of `pump`. -/
def pumpLoop (backgroundWaiting : Bool) : List ResourceKey → Store V → Store V
  | [], s => s
  | key :: keys, s =>
      let background := some key.project ≠ s.activeProject
      if RESOURCE_READ_SLOTS ≤ s.running then s
      else if background && RESOURCE_BACKGROUND_READ_SLOTS ≤ s.runningBackground then
        pumpLoop backgroundWaiting keys s
      else if !background && backgroundWaiting && s.runningBackground = 0 &&
          RESOURCE_READ_SLOTS - RESOURCE_BACKGROUND_READ_SLOTS ≤ s.running then
        -- the next slot is left to queued background work
        pumpLoop backgroundWaiting keys s
      else pumpLoop backgroundWaiting keys (s.startRead key background)

/-- Starts owed reads within the slots. -/
def pump (s : Store V) (now : Nat) : Store V :=
  let owed := s.states.entries.filter fun e => s.owes now e.2
  let backgroundWaiting := owed.any fun e => some e.1.project ≠ s.activeProject
  pumpLoop backgroundWaiting ((owed.mergeSort (pumpsBefore s.activeProject)).map Prod.fst) s

/-- The state of a key that is registered, or a new one. -/
def ensured (s : Store V) (key : ResourceKey) : Store V :=
  match s.states.get? key with
  | some _ => s
  | none =>
      { s with
        states := s.states.insert key (ResourceState.fresh V s.nextUid)
        nextUid := s.nextUid + 1 }

def register (s : Store V) (owner : String) (key : ResourceKey) (now : Nat) : Store V :=
  ((s.ensured key).modify key fun st =>
    { st with
      owners := st.owners.insert owner (st.owners.getD owner 0 + 1)
      dormant := st.dormant.filter (· ≠ owner) }).pump now

/-- Forgets a state; its promises reject. -/
def drop (s : Store V) (key : ResourceKey) (error : String) : Store V :=
  match s.states.get? key with
  | none => s
  | some st =>
      { s with
        states := s.states.erase key
        settled := s.settled ++ st.rejectedRefreshes error }

/-- One registration of the owner goes, or with `all` every one. -/
def releaseOwner (owner : String) (all : Bool) (count : Nat) (st : ResourceState V) :
    ResourceState V :=
  if !all && 1 < count then { st with owners := st.owners.insert owner (count - 1) }
  else { st with owners := st.owners.erase owner, dormant := st.dormant.filter (· ≠ owner) }

/-- `release`, of one key. -/
def releaseOne (owner : String) (all : Bool) (s : Store V) (key : ResourceKey) : Store V :=
  match (s.states.get? key).bind fun st => st.owners.get? owner with
  | none => s
  | some count =>
      let released := s.modify key (releaseOwner owner all count)
      if (released.states.get? key).any fun st => 0 < st.owners.entries.length then released
      else released.drop key "Resource released"

def release (s : Store V) (owner : String) (ids : Option (List ResourceKey)) : Store V :=
  match ids with
  | some keys => keys.foldl (releaseOne owner false) s
  | none => s.states.keys.foldl (releaseOne owner true) s

def suspendOne (owner : String) (s : Store V) (key : ResourceKey) : Store V :=
  s.modify key fun st => if owner ∉ st.owners then st else (st.addDormant owner).unwatch

def suspend (s : Store V) (owner : String) (ids : List ResourceKey) : Store V :=
  ids.foldl (suspendOne owner) s

def dropProject (s : Store V) (project : String) : Store V :=
  (s.states.keys.filter fun key => key.project = project).foldl
    (fun s key => s.drop key "Resource released") s

def reset (s : Store V) : Store V :=
  { s.states.keys.foldl (fun s key => s.drop key "Resource store reset") s with
    presentations := Dict.empty, epoch := none }

def beginObservation (s : Store V) : Store V :=
  { s with observationSerial := s.observationSerial + 1 }

def failObservation (s : Store V) (ticket : ObservationTicket) (error : String) : Store V :=
  { s with
    presentations := s.presentations.map fun _ entry =>
      if !entry.admitted && entry.minimumObservation ≤ ticket.serial &&
          entry.ids.any fun id => id ∈ s.states && id.project = ticket.project then
        { entry with error := some error }
      else entry }

/-- Owes a read, whatever the tokens say. -/
def invalidated (st : ResourceState V) : ResourceState V :=
  { st with owed := true, invalidations := st.invalidations + 1, retryAt := 0 }

def invalidate (s : Store V) (key : ResourceKey) (now : Nat) : Store V :=
  match s.states.get? key with
  | none => s
  | some st => (s.setState key (invalidated st)).pump now

/-- `refresh`, of a registered key: `invalidate` is its last part. -/
def refresh (s : Store V) (key : ResourceKey) (now : Nat) : Store V :=
  match s.states.get? key with
  | none => s
  | some st =>
      let waiter : Waiter :=
        { invalidation := st.invalidations + 1
          call := { serial := s.refreshes + 1, readsBefore := s.reads } }
      let waiting := invalidated { st with waiters := st.waiters ++ [waiter] }
      Store.pump { s.setState key waiting with refreshes := s.refreshes + 1 } now

/-- The presentation that begins. -/
def begunEntry (s : Store V) (activationKey : String) (ids : List ResourceKey) :
    PresentationEntry :=
  { serial := s.presentationSerial + 1, activationKey, ids
    minimumObservation := s.observationSerial + 1, minimumRead := s.reads + 1
    proofs := Dict.empty, admitted := false, error := none }

def begun (s : Store V) (owner activationKey : String) (ids : List ResourceKey) : Store V :=
  { s with
    presentationSerial := s.presentationSerial + 1
    presentations := s.presentations.insert owner (s.begunEntry activationKey ids) }

def beginPresentation (s : Store V) (owner activationKey : String) (ids : List ResourceKey)
    (now : Nat) : Store V :=
  if s.scheduled && !ids.isEmpty then s.begun owner activationKey ids
  else ids.foldl (fun s id => s.invalidate id now) (s.begun owner activationKey ids)

def endPresentation (s : Store V) (owner : String) (serial : Nat) : Store V :=
  if (s.presentations.get? owner).any fun entry => entry.serial = serial then
    { s with presentations := s.presentations.erase owner }
  else s

/-- The test of `presentationView`, for one key. -/
def admits (s : Store V) (entry : PresentationEntry) (key : ResourceKey) : Bool :=
  match s.states.get? key with
  | none => false
  | some st =>
      if st.value.isNone || st.owed || st.valueEpoch ≠ s.epoch then false
      else if !s.scheduled then entry.minimumRead ≤ st.acceptedReadStart
      else
        match entry.proofs.get? key with
        | none => false
        | some proof => proof.epoch = st.valueEpoch && some proof.version = st.committed

/-- `presentationView`, what it writes. -/
def presentationView (s : Store V) (owner activationKey : String) : Store V :=
  match s.presentations.get? owner with
  | none => s
  | some entry =>
      if entry.activationKey ≠ activationKey || entry.admitted then s
      else
        let viewed := { entry with admitted := entry.ids.all (s.admits entry) }
        { s with presentations := s.presentations.insert owner viewed }

def setActiveProject (s : Store V) (project : Option String) (now : Nat) : Store V :=
  pump { s with activeProject := project } now

def forgetVersions (st : ResourceState V) : ResourceState V :=
  { st with
    inFlight := none, generation := st.generation + 1, committed := none
    observed := none, seen := false, owed := true, failures := 0, retryAt := 0 }

def withdrawEntry (entry : PresentationEntry) : PresentationEntry :=
  { entry with admitted := false, proofs := Dict.empty, error := none }

/-- A new epoch fences every read and forgets every version. -/
def newEpoch (s : Store V) (epoch : String) : Store V :=
  { s with
    epoch := some epoch
    presentations := s.presentations.map fun _ entry => withdrawEntry entry
    states := s.states.map fun _ st => forgetVersions st }

def observeEpoch (s : Store V) (epoch : String) (now : Nat) : Store V :=
  if s.epoch = some epoch then s
  else if s.epoch = none then { s with epoch := some epoch }
  else (s.newEpoch epoch).pump now

/-- The version that a response has for a key, if it covers all that the key watches. -/
def versionIn (catalog : Catalog V) (watermarks : List (ResourceRequest × String))
    (key : ResourceKey) : Option Version :=
  (key.toResourceRequest :: catalog.watch key).mapM fun request =>
    (Dict.ofList watermarks).get? request

/-- The version that a response has for a key of the project that is watched. -/
def observedVersion (catalog : Catalog V) (project : String)
    (watermarks : List (ResourceRequest × String)) (key : ResourceKey) (st : ResourceState V) :
    Option Version :=
  if key.project = project && st.watched then versionIn catalog watermarks key else none

/-- The proof that an observation of one state gives an entry. -/
def proveOne (s : Store V) (catalog : Catalog V) (project : String)
    (watermarks : List (ResourceRequest × String)) (entry : PresentationEntry)
    (e : ResourceKey × ResourceState V) : PresentationEntry :=
  match observedVersion catalog project watermarks e.1 e.2 with
  | none => entry
  | some version =>
      if e.1 ∈ entry.ids then
        { entry with
          proofs := entry.proofs.insert e.1 { epoch := s.epoch, version }, error := none }
      else entry

/-- The proofs that an observation gives an entry. -/
def proved (s : Store V) (catalog : Catalog V) (project : String)
    (watermarks : List (ResourceRequest × String)) (ticket : ObservationTicket)
    (entry : PresentationEntry) : PresentationEntry :=
  if ticket.project ≠ project || ticket.serial < entry.minimumObservation then entry
  else s.states.entries.foldl (s.proveOne catalog project watermarks) entry

def observeState (catalog : Catalog V) (project : String)
    (watermarks : List (ResourceRequest × String)) (key : ResourceKey) (st : ResourceState V) :
    ResourceState V :=
  match observedVersion catalog project watermarks key st with
  | none => st
  | some version => { st with observed := some version, seen := true }

/-- `observe`, what it records. -/
def observing (s : Store V) (catalog : Catalog V) (project : String)
    (watermarks : List (ResourceRequest × String)) (ticket : ObservationTicket) : Store V :=
  { s with
    states := s.states.map (observeState catalog project watermarks)
    presentations := s.presentations.map fun _ entry =>
      s.proved catalog project watermarks ticket entry }

/-- Records a project's watermarks; a state whose token moved owes a read. -/
def observe (s : Store V) (catalog : Catalog V) (project : String)
    (watermarks : List (ResourceRequest × String)) (ticket : ObservationTicket) (now : Nat) :
    Store V :=
  (s.observing catalog project watermarks ticket).pump now

def accepts (s : Store V) (read : Read) : Bool :=
  (s.states.get? read.key).any fun st =>
    st.uid = read.uid && st.generation = read.generation && st.sequence = read.sequence

/-- How a read ends: with what the server had at a moment, or with an error that may be
`undefined`. -/
inductive ReadOutcome (V : Type u) where
  | value (value : V) (asOf : Nat)
  | failed (error : Option String)

/-- What a value leaves of the state of its read. -/
def readState (catalog : Catalog V) (epoch : Option String) (read : Read) (value : V)
    (asOf : Nat) (st : ResourceState V) : ResourceState V :=
  { st.afterRefreshes read.invalidation with
    value := some (st.accepted catalog read.key epoch value)
    asOf := if st.merges catalog read.key epoch then st.asOf.map fun _ => asOf else some asOf
    valueEpoch := epoch
    committed := read.version
    acceptedReads := st.acceptedReads + 1
    acceptedReadStart := read.readStart
    owed := st.invalidations ≠ read.invalidation
    error := none
    failures := 0
    retryAt := 0 }

/-- What a failure leaves of it. -/
def failedState (read : Read) (error : Option String) (now : Nat) (st : ResourceState V) :
    ResourceState V :=
  { st.afterRefreshes read.invalidation with
    error := error
    failures := st.failures + 1
    retryAt := now + retryBackoffMs (st.failures + 1) }

/-- What a read that is accepted writes. -/
def acceptRead (s : Store V) (catalog : Catalog V) (read : Read) (now : Nat)
    (outcome : ReadOutcome V) : Store V :=
  match s.states.get? read.key, outcome with
  | none, _ => s
  | some st, .value value asOf =>
      { s.setState read.key (readState catalog s.epoch read value asOf st) with
        settled := s.settled ++ st.finishedRefreshes read.invalidation none }
  | some st, .failed error =>
      { s.setState read.key (failedState read error now st) with
        settled := s.settled ++ st.finishedRefreshes read.invalidation error }

/-- A controller that has done its work is let go. -/
def letGo (read : Read) (st : ResourceState V) : ResourceState V :=
  if st.uid = read.uid && st.inFlight = some read.readStart then { st with inFlight := none }
  else st

/-- What is done however a read ends. -/
def endRead (s : Store V) (read : Read) : Store V :=
  let cleared := s.modify read.key (letGo read)
  { cleared with
    reading := cleared.reading.filter fun r => r.readStart ≠ read.readStart
    running := cleared.running - 1
    runningBackground :=
      if read.background then cleared.runningBackground - 1 else cleared.runningBackground }

/-- The rest of `read`, when its response has come. -/
def finishRead (s : Store V) (catalog : Catalog V) (read : Read) (outcome : ReadOutcome V)
    (now : Nat) : Store V :=
  ((if s.accepts read then s.acceptRead catalog read now outcome else s).endRead read).pump now

/-- `beginMutation`, of one key. -/
def beginEffect (operationId : String)
    (acc : Store V × Dict ResourceKey CommandStart) (effect : ResourceKey × Apply V) :
    Store V × Dict ResourceKey CommandStart :=
  match acc.1.states.get? effect.1 with
  | none => acc
  | some st =>
      let affected :=
        { st.fence with pending := st.pending ++ [{ id := operationId, apply := effect.2 }] }
      ( { acc.1 with states := acc.1.states.insert effect.1 affected },
        acc.2.insert effect.1
          { uid := st.uid, generation := st.generation, reads := st.acceptedReads } )

def beginMutation (s : Store V) (operationId : String) (effects : Dict ResourceKey (Apply V)) :
    Store V :=
  let begun := effects.entries.foldl (beginEffect operationId)
    ({ s with mutations := s.mutations + 1 }, Dict.empty)
  { begun.1 with
    commands := begun.1.commands ++
      [ { order := s.mutations + 1, operationId, effects := effects.keys
          startedAt := begun.2 } ] }

/-- A value that a response to a command carries. The server had it at a moment, or never. -/
structure Supplied (V : Type u) where
  value : V
  asOf : Option Nat

/-- What the success of a command writes on a state it has affected. -/
def settleState (catalog : Catalog V) (epoch : Option String) (order : Nat) (key : ResourceKey)
    (start : CommandStart) (supplied : Option (Supplied V)) (st : ResourceState V) :
    ResourceState V :=
  let fenced := st.fence
  let current := st.settledMutation < order && start.generation = st.generation &&
    start.reads = st.acceptedReads
  let settled := { fenced with
    settledMutation := if st.settledMutation < order then order else st.settledMutation }
  match (if current then supplied else none) with
  | some supply =>
      -- the version of the data it replaces stays committed
      { settled with
        value := some (st.accepted catalog key epoch supply.value)
        asOf := st.moment catalog key epoch supply.asOf
        valueEpoch := epoch
        error := none }
  | none => { settled with owed := true }

/-- How a command ends: `settle` with the values of its response, or `fail` with feedback. -/
inductive CommandOutcome (V : Type u) where
  | settled (values : Dict ResourceKey (Supplied V))
  | failed (feedback : Dict ResourceKey (PendingOperation V))

/-- What the end of a command writes on a state it has affected. -/
def endEffect (catalog : Catalog V) (epoch : Option String) (command : Command)
    (key : ResourceKey) (start : CommandStart) (st : ResourceState V) :
    CommandOutcome V → ResourceState V
  | .settled values => settleState catalog epoch command.order key start (values.get? key) st
  | .failed feedback =>
      match feedback.get? key with
      | none => st
      | some overlay => { st with overlays := st.overlays.insert overlay.id overlay.apply }

/-- `finish`, of one key. -/
def finishEffect (catalog : Catalog V) (command : Command) (outcome : CommandOutcome V)
    (s : Store V) (key : ResourceKey) : Store V :=
  match s.states.get? key, command.startedAt.get? key with
  | some st, some start =>
      if start.uid ≠ st.uid then s
      else
        let ended := endEffect catalog s.epoch command key start
          (st.withoutPending command.operationId) outcome
        s.setState key ended
  | _, _ => s

def finish (s : Store V) (catalog : Catalog V) (command : Command) (outcome : CommandOutcome V)
    (now : Nat) : Store V :=
  (command.effects.foldl (finishEffect catalog command outcome) s).pump now

def write (s : Store V) (catalog : Catalog V) (key : ResourceKey) (supply : Supplied V)
    (now : Nat) : Store V :=
  match s.states.get? key with
  | none => s
  | some st =>
      let written :=
        { st.fence with
          value := some (st.accepted catalog key s.epoch supply.value)
          asOf := st.moment catalog key s.epoch supply.asOf
          valueEpoch := s.epoch
          error := none
          owed := true }
      pump (s.setState key written) now

def endBackoff (s : Store V) (now : Nat) : Store V :=
  pump { s with states := s.states.map fun _ st => { st with failures := 0, retryAt := 0 } } now

def clearOverlay (s : Store V) (key : ResourceKey) (operationId : String) : Store V :=
  s.modify key fun st => { st with overlays := st.overlays.erase operationId }

/-- Accepted data only. -/
def committedValue (s : Store V) (key : ResourceKey) : Option V :=
  (s.states.get? key).bind ResourceState.value

end Store

end RcpGraph.Browser
