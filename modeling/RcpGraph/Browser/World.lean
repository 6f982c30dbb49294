import RcpGraph.Browser.Store

/-!
The store against a server. The server moves by its own clock; its answers are samples of
it, taken at any moment between a request and the arrival of the answer, and they arrive
late, out of order or never.
-/

namespace RcpGraph.Browser

universe u

variable {V : Type u} {catalog : Catalog V}

/-- A server over time. An epoch does not come back, a token is not used again within an
epoch, and a value changes only when a token of what its key watches does. -/
structure Server (catalog : Catalog V) where
  epoch : Nat → String
  token : Nat → String → ResourceRequest → String
  value : Nat → ResourceKey → V
  epoch_kept : ∀ i j k, i ≤ j → j ≤ k → epoch i = epoch k → epoch j = epoch i
  token_kept : ∀ project request i j k, i ≤ j → j ≤ k → epoch i = epoch k →
    token i project request = token k project request →
    token j project request = token i project request
  value_moves : ∀ key i, epoch i = epoch (i + 1) → value i key ≠ value (i + 1) key →
    ∃ request ∈ key.toResourceRequest :: catalog.watch key,
      token i key.project request ≠ token (i + 1) key.project request

/-- The version of a key at a moment. -/
def Server.version (server : Server catalog) (time : Nat) (key : ResourceKey) : Version :=
  (key.toResourceRequest :: catalog.watch key).map (server.token time key.project)

/-- While a version stands, the value does. -/
theorem Server.value_eq_of_version (server : Server catalog) (key : ResourceKey) {i k : Nat}
    (hepoch : server.epoch i = server.epoch k)
    (hversion : server.version i key = server.version k key) {j : Nat} (hij : i ≤ j)
    (hjk : j ≤ k) : server.value j key = server.value i key := by
  have htoken : ∀ request ∈ key.toResourceRequest :: catalog.watch key,
      server.token i key.project request = server.token k key.project request :=
    List.map_inj_left.mp hversion
  have hkept : ∀ j, i ≤ j → j ≤ k → ∀ request ∈ key.toResourceRequest :: catalog.watch key,
      server.token j key.project request = server.token i key.project request := by
    intro j hij hjk request hrequest
    exact server.token_kept _ _ i j k hij hjk hepoch (htoken request hrequest)
  obtain ⟨d, rfl⟩ := Nat.exists_eq_add_of_le hij
  clear hij
  induction d with
  | zero => rfl
  | succ d ih =>
      rw [← ih (by omega)]
      by_contra hne
      have he : server.epoch (i + d) = server.epoch (i + d + 1) := by
        rw [server.epoch_kept i (i + d) k (by omega) (by omega) hepoch,
          server.epoch_kept i (i + d + 1) k (by omega) hjk hepoch]
      obtain ⟨request, hrequest, hmoved⟩ := server.value_moves key (i + d) he fun h => hne h.symm
      apply hmoved
      rw [hkept (i + d) (by omega) (by omega) request hrequest,
        hkept (i + d + 1) (by omega) hjk request hrequest]

/-- A profile that reconciles keeps the newer of two values that the server had. -/
def Server.Reconciles (server : Server catalog) (key : ResourceKey) : Prop :=
  ∀ reconcile, catalog.reconcile key = some reconcile →
    (∀ next, reconcile none next = next) ∧
    ∀ i k, i ≤ k → reconcile (some (server.value i key)) (server.value k key) =
      server.value k key

/-- `reconcile` of the graph's profile: the higher revision stays. That it shares the parts
which did not change is nothing that a value shows. -/
def reconcileGraph (revision : V → Nat) : Option V → V → V
  | some previous, next => if revision next < revision previous then previous else next
  | none, next => next

/-- The graph's profile keeps the newer value of a server whose revisions do not fall. -/
theorem Server.Reconciles.of_revision {server : Server catalog} {key : ResourceKey}
    {revision : V → Nat} (hkey : catalog.reconcile key = some (reconcileGraph revision))
    (hgrows : ∀ i k, i ≤ k → revision (server.value i key) ≤ revision (server.value k key)) :
    server.Reconciles key := by
  intro reconcile hreconcile
  obtain rfl := Option.some_inj.mp (hkey.symm.trans hreconcile)
  refine ⟨fun _ => rfl, ?_⟩
  intro i k hik
  exact if_neg (Nat.not_lt.mpr (hgrows i k hik))

section Merging

variable {server : Server catalog} {key : ResourceKey} {epoch : Option String}
  {st : ResourceState V} {t : Nat}

/-- Over an older value of the server's, a value of the server's is accepted as it is. -/
theorem Server.Reconciles.accepted_eq (h : server.Reconciles key)
    (hprevious : st.merges catalog key epoch = true →
      ∃ t₀ ≤ t, st.value = some (server.value t₀ key)) :
    st.accepted catalog key epoch (server.value t key) = server.value t key := by
  unfold ResourceState.accepted
  cases hreconcile : catalog.reconcile key with
  | none => rfl
  | some reconcile =>
      obtain ⟨hnone, hnewer⟩ := h reconcile hreconcile
      dsimp only
      by_cases hepoch : st.valueEpoch = epoch
      · rw [if_pos hepoch]
        cases hvalue : st.value with
        | none => exact hnone _
        | some previous =>
            have hmerges : st.merges catalog key epoch = true := by
              simp [ResourceState.merges, hreconcile, hepoch, hvalue]
            obtain ⟨t₀, ht₀, hsample⟩ := hprevious hmerges
            rw [hvalue] at hsample
            rw [Option.some_inj.mp hsample]
            exact hnewer t₀ t ht₀
      · rw [if_neg hepoch]
        exact hnone _

/-- A value with a moment has brought the moment itself, over an older one. -/
theorem ResourceState.moment_eq_some {asOf : Option Nat}
    (h : st.moment catalog key epoch asOf = some t) :
    asOf = some t ∧ (st.merges catalog key epoch = true → ∃ t₀ ≤ t, st.asOf = some t₀) := by
  unfold ResourceState.moment at h
  split at h
  · split at h
    · rename_i previous next hprevious
      split at h
      · rename_i hle
        obtain rfl := Option.some_inj.mp h
        exact ⟨rfl, fun _ => ⟨previous, hle, hprevious⟩⟩
      · cases h
    · cases h
  · rename_i hnot
    exact ⟨h, fun hmerges => absurd hmerges hnot⟩

end Merging

/-- The store, the server's clock, the observations asked for, and when the reads,
commands, observations and presentations of a number began. -/
structure World (V : Type u) where
  store : Store V
  clock : Nat
  tickets : List ObservationTicket
  startedAt : Nat → Nat
  commandAt : Nat → Nat
  issuedAt : Nat → Nat
  begunAt : Nat → Nat

def World.initial (V : Type u) : World V where
  store := Store.empty V
  clock := 0
  tickets := []
  startedAt := fun _ => 0
  commandAt := fun _ => 0
  issuedAt := fun _ => 0
  begunAt := fun _ => 0

/-- The numbers after `last` begin now. -/
def stamped (times : Nat → Nat) (last now : Nat) : Nat → Nat := fun n =>
  if last < n then now else times n

def World.put (w : World V) (s : Store V) : World V :=
  { w with
    store := s
    startedAt := stamped w.startedAt w.store.reads w.clock
    commandAt := stamped w.commandAt w.store.mutations w.clock
    issuedAt := stamped w.issuedAt w.store.observationSerial w.clock
    begunAt := stamped w.begunAt w.store.presentationSerial w.clock }

/-- A project's part of a response: what it answers, and the observation it belongs to. -/
structure ResponsePart where
  project : String
  requests : List ResourceRequest
  ticket : ObservationTicket
  deriving DecidableEq, Repr

/-- What the server answers at a moment. -/
def Server.watermarks (server : Server catalog) (time : Nat) (part : ResponsePart) :
    List (ResourceRequest × String) :=
  part.requests.map fun request => (request, server.token time part.project request)

/-- What the scheduler does with a response: the epoch first, then each project. -/
def Store.respond (s : Store V) (server : Server catalog) (time : Nat)
    (parts : List ResponsePart) (now : Nat) : Store V :=
  parts.foldl
    (fun s part => s.observe catalog part.project (server.watermarks time part) part.ticket now)
    (s.observeEpoch (server.epoch time) now)

/-- How a read ends: with what the server had at a moment, or with an error. -/
inductive ReadAnswer where
  | sampled (time : Nat)
  | failed (error : Option String)
  deriving DecidableEq, Repr

/-- A value of a response to a command: what the server had at a moment, or another one. -/
inductive CommandAnswer (V : Type u) where
  | sampled (time : Nat)
  | other (value : V)

def CommandAnswer.supplied (server : Server catalog) (key : ResourceKey) :
    CommandAnswer V → Store.Supplied V
  | .sampled time => { value := server.value time key, asOf := some time }
  | .other value => { value, asOf := none }

/-- A sample is taken between a start and now. -/
def World.inTime (w : World V) (start : Nat) : CommandAnswer V → Bool
  | .sampled time => start ≤ time && time ≤ w.clock
  | .other _ => true

inductive Act (V : Type u) where
  | tick
  | register (owner : String) (key : ResourceKey)
  | release (owner : String) (ids : Option (List ResourceKey))
  | suspend (owner : String) (ids : List ResourceKey)
  | dropProject (project : String)
  | reset
  | attachScheduler (attached : Bool)
  | beginObservation (project : String)
  | failObservation (ticket : ObservationTicket) (error : String)
  | respond (time : Nat) (parts : List ResponsePart)
  | beginPresentation (owner activationKey : String) (ids : List ResourceKey)
  | endPresentation (owner : String) (serial : Nat)
  | presentationView (owner activationKey : String)
  | setActiveProject (project : Option String)
  | pump
  | finishRead (readStart : Nat) (answer : ReadAnswer)
  | beginMutation (operationId : String) (effects : Dict ResourceKey (Apply V))
  | settle (order : Nat) (values : Dict ResourceKey (CommandAnswer V))
  | fail (order : Nat) (feedback : Dict ResourceKey (PendingOperation V))
  | write (key : ResourceKey) (answer : CommandAnswer V)
  | endBackoff
  | invalidate (key : ResourceKey)
  | refresh (key : ResourceKey)
  | clearOverlay (key : ResourceKey) (operationId : String)

/-- An act at a time of the browser's clock. -/
structure Event (V : Type u) where
  now : Nat
  act : Act V

namespace World

def command? (w : World V) (order : Nat) : Option Command :=
  w.store.commands.find? fun command => command.order = order

def read? (w : World V) (readStart : Nat) : Option Read :=
  w.store.reading.find? fun read => read.readStart = readStart

/-- The end of a read in flight; a sample that the read cannot have seen is none. -/
def finishRead (w : World V) (server : Server catalog) (read : Read) (now : Nat) :
    ReadAnswer → World V
  | .sampled time =>
      if w.startedAt read.readStart ≤ time ∧ time ≤ w.clock then
        w.put (w.store.finishRead catalog read (.value (server.value time read.key) time) now)
      else w
  | .failed error => w.put (w.store.finishRead catalog read (.failed error) now)

def settle (w : World V) (server : Server catalog) (command : Command)
    (values : Dict ResourceKey (CommandAnswer V)) (now : Nat) : World V :=
  if values.entries.all fun e => w.inTime (w.commandAt command.order) e.2 then
    w.put (w.store.finish catalog command
      (.settled (values.map fun key answer => answer.supplied server key)) now)
  else w

/-- A write of what a response of any age has carried. -/
def write (w : World V) (server : Server catalog) (key : ResourceKey) (answer : CommandAnswer V)
    (now : Nat) : World V :=
  if w.inTime 0 answer then
    w.put (w.store.write catalog key (answer.supplied server key) now)
  else w

def respond (w : World V) (server : Server catalog) (time : Nat) (parts : List ResponsePart)
    (now : Nat) : World V :=
  if time ≤ w.clock && parts.all fun part =>
      part.ticket ∈ w.tickets && w.issuedAt part.ticket.serial ≤ time then
    w.put (w.store.respond server time parts now)
  else w

def step (server : Server catalog) (w : World V) (event : Event V) : World V :=
  match event.act with
  | .tick => { w with clock := w.clock + 1 }
  | .register owner key => w.put (w.store.register owner key event.now)
  | .release owner ids => w.put (w.store.release owner ids)
  | .suspend owner ids => w.put (w.store.suspend owner ids)
  | .dropProject project => w.put (w.store.dropProject project)
  | .reset => w.put w.store.reset
  | .attachScheduler attached => w.put { w.store with scheduled := attached }
  | .beginObservation project =>
      { w.put w.store.beginObservation with
        tickets := w.tickets ++ [{ project, serial := w.store.observationSerial + 1 }] }
  | .failObservation ticket error => w.put (w.store.failObservation ticket error)
  | .respond time parts => w.respond server time parts event.now
  | .beginPresentation owner activationKey ids =>
      w.put (w.store.beginPresentation owner activationKey ids event.now)
  | .endPresentation owner serial => w.put (w.store.endPresentation owner serial)
  | .presentationView owner activationKey => w.put (w.store.presentationView owner activationKey)
  | .setActiveProject project => w.put (w.store.setActiveProject project event.now)
  | .pump => w.put (w.store.pump event.now)
  | .finishRead readStart answer =>
      match w.read? readStart with
      | none => w
      | some read => w.finishRead server read event.now answer
  | .beginMutation operationId effects => w.put (w.store.beginMutation operationId effects)
  | .settle order values =>
      match w.command? order with
      | none => w
      | some command => w.settle server command values event.now
  | .fail order feedback =>
      match w.command? order with
      | none => w
      | some command =>
          w.put (w.store.finish catalog command (.failed feedback) event.now)
  | .write key answer => w.write server key answer event.now
  | .endBackoff => w.put (w.store.endBackoff event.now)
  | .invalidate key => w.put (w.store.invalidate key event.now)
  | .refresh key => w.put (w.store.refresh key event.now)
  | .clearOverlay key operationId => w.put (w.store.clearOverlay key operationId)

def run (server : Server catalog) (w : World V) (events : List (Event V)) : World V :=
  events.foldl (step server) w

end World

end RcpGraph.Browser
