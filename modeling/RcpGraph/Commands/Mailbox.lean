import RcpGraph.Commands.Broker
import RcpGraph.Lib.Steps

/-!
The mailbox server, step by step, and the system of broker, server and environment.
-/

namespace RcpGraph.Commands

/-- `COMMAND_MAILBOX_HANDLER_MAX_RETRIES`. -/
def handlerMaxRetries : Nat := 2

/-- `_error_response`. -/
def errorResponse (name : String) (status : Status) (text error : String) : Reply where
  requestId := name
  status := status
  message := some (String.ofList ((text ++ ": " ++ error).toList.take 2000))
  result := .fields []

/-- How `_read_request` ends on a file that is there. -/
inductive ReadOutcome where
  | request
  | invalid (error : String)
  /-- `_CredentialRefused`. -/
  | refused (error : String)
  deriving DecidableEq

/-- How the handler ends. A reply under another request id is raised as an error. -/
inductive HandleOutcome where
  | responds (status : Status) (message : Option String) (fields : List (String × Json))
  | raises (error : String)
  /-- The handler's own transport gave no verdict. -/
  | unreachable (error : String)
  deriving DecidableEq

inductive ServerAction where
  /-- The next step of the loop. -/
  | next
  | read (outcome : ReadOutcome)
  | handle (outcome : HandleOutcome)
  /-- The response file is written; the transport may fail to say so. -/
  | write (acknowledged : Bool)
  /-- A wait or a retry finds the turn interrupted. -/
  | interrupt
  /-- Anything else raised in the loop: a failed checkpoint, an unavailable stage. -/
  | raise (error : String)
  /-- The marker is written, or given up. -/
  | close (written : Bool)
  | restart
  deriving DecidableEq

namespace World

def withServer (s : World) (server : Server) : World := { s with server := server }

def serving (s : World) (serving : Serving) : World :=
  { s with server := { s.server with serving := serving } }

/-- `interrupted`. -/
def interrupted (s : World) (drain : Bool) : Bool :=
  s.server.suspend || !drain && s.server.stop

/-- The request files not answered yet, in the order of their names. -/
def unseen (s : World) : List String :=
  (Text.sortedSet s.requests.keys).filter fun name => name ∉ s.server.seen

/-- `answers[name] = response`. -/
def answered (s : World) (name : String) (reply : Reply) (transient : Bool)
    (refusal : Option String) (rest : List String) : World :=
  s.withServer { s.server with
    answers := s.server.answers.insert name reply
    serving := .keeping name transient refusal rest }

def checkpoint (server : Server) : Server := { server with saved := (server.answers, server.terminal) }

def readRequest (s : World) (name : String) (rest : List String) : ReadOutcome → World
  | .request =>
      match s.requests.get? name with
      | some call => s.serving (.handling name call handlerMaxRetries rest)
      | none =>
          s.answered name (errorResponse name .invalid "Command request invalid" name) false none rest
  | .invalid error =>
      s.answered name (errorResponse name .invalid "Command request invalid" error) false none rest
  | .refused error =>
      (s.withServer { s.server with
        terminal := some ("Command mailbox permanently closed: " ++ error) }).answered name
        (errorResponse name .invalid "Command request invalid" error) false (some error) rest

def handleRequest (s : World) (name : String) (call : Call) (retries : Nat) (rest : List String) :
    HandleOutcome → World
  | .responds status message fields =>
      s.answered name ⟨name, status, message, .fields fields⟩
        (call.verb = "ask" && Reply.pending ⟨name, status, message, .fields fields⟩) none rest
  | .raises error =>
      s.answered name (errorResponse name .unavailable "Command handler unavailable" error) false
        none rest
  | .unreachable error =>
      match retries with
      | 0 => s.answered name (errorResponse name .unavailable "Command handler unavailable" error)
          false none rest
      | retries + 1 => s.serving (.handling name call retries rest)

/-- After the response file is there. -/
def responded (s : World) (name : String) (transient : Bool) (refusal : Option String)
    (rest : List String) : World :=
  s.withServer { s.server with
    seen := name :: s.server.seen
    answers := if transient then s.server.answers.erase name else s.server.answers
    serving := match refusal with
      | some error => .ending (some error)
      | none => .choosing rest }

def writeResponse (s : World) (name : String) (transient : Bool) (refusal : Option String)
    (rest : List String) (acknowledged : Bool) : Option World :=
  match s.server.answers.get? name with
  | none => none
  | some reply =>
      let t := { s with
        responses := s.responses.insert name reply
        log := .gave name reply transient :: s.log }
      some (if acknowledged then t.responded name transient refusal rest else t)

/-- The reason a mailbox closes for: what ended the turn before wins. -/
def closureReason (s : World) (raised : Option String) : String :=
  match s.server.terminal, raised with
  | some reason, _ => reason
  | none, some error =>
      String.ofList (("Command mailbox permanently closed: " ++ error).toList.take 2000)
  | none, none => "Command mailbox permanently closed: turn stopped or entered settlement."

/-- The `finally` of the loop: suspension keeps the turn for a restart, anything else records
the reason. -/
def finish (s : World) (raised : Option String) : World :=
  if s.server.suspend then s.serving .down
  else s.withServer (checkpoint { s.server with
    terminal := some (s.closureReason raised)
    serving := .closing (s.closureReason raised) })

/-- The closure marker, as the server writes it. -/
def closureMarker (mailboxId reason : String) : Marker :=
  .value (.obj [("version", .num 1), ("mailbox_id", .str mailboxId), ("message", .str reason)])

/-- A restarted server knows what was saved. -/
def restarted (server : Server) : Server where
  serving := .listing
  seen := []
  answers := server.saved.1
  terminal := server.saved.2
  saved := server.saved
  stop := false
  suspend := false

/-- One step of `serve_command_mailbox`, or its restart. -/
def serve (s : World) (mailboxId : String) (action : ServerAction) : Option World :=
  match s.server.serving, action with
  | .listing, .next =>
      if s.interrupted false || s.server.terminal.isSome then some (s.serving (.ending none))
      else some (s.serving (.choosing s.unseen))
  | .choosing [], .next => some (s.serving .listing)
  | .choosing (name :: rest), .next =>
      if s.interrupted false then some (s.serving (.ending none))
      else if name ∈ s.server.answers then some (s.serving (.writing name false none rest))
      else some (s.serving (.reading name rest))
  | .reading name rest, .read outcome => some (s.readRequest name rest outcome)
  | .handling name call retries rest, .handle outcome =>
      some ({ s with log := .ran name call :: s.log }.handleRequest name call retries rest outcome)
  | .keeping name transient refusal rest, .next =>
      if transient then some (s.serving (.writing name transient refusal rest))
      else
        match s.server.answers.get? name with
        | none => none
        | some reply =>
            some { s with
              server := checkpoint { s.server with serving := .writing name transient refusal rest }
              log := .kept name reply :: s.log }
  | .writing name transient refusal rest, .write acknowledged =>
      s.writeResponse name transient refusal rest acknowledged
  | .ending raised, .next => some (s.finish raised)
  | .closing reason, .close written =>
      some ({ s with
        marker := if written then some (closureMarker mailboxId reason) else s.marker }.serving
          (if s.server.suspend then .down else .expired))
  | .down, .restart => some (s.withServer (restarted s.server))
  -- waits and retries that read or handle drain only past a stop
  | .listing, .interrupt | .choosing _, .interrupt | .reading _ _, .interrupt =>
      if s.interrupted false then some (s.serving (.ending none)) else none
  | .handling _ _ _ _, .interrupt | .writing _ _ _ _, .interrupt =>
      if s.interrupted true then some (s.serving (.ending none)) else none
  | .listing, .raise error | .choosing _, .raise error | .reading _ _, .raise error
  | .handling _ _ _ _, .raise error | .keeping _ _ _ _, .raise error
  | .writing _ _ _ _, .raise error => some (s.serving (.ending (some error)))
  -- the final checkpoint or the marker fails: the turn stays as it was saved
  | .ending _, .raise _ | .closing _, .raise _ => some (s.serving .down)
  | _, _ => none

end World

inductive Action where
  | connect (call : Call)
  | turn (requestId : String) (choice : Choice)
  | serve (action : ServerAction)
  | stop
  | suspend
  /-- A closure marker with any contents appears. -/
  | mark (marker : Option Marker)
  deriving DecidableEq

/-- One step of the system. -/
def World.step (mailboxId : String) (action : Action) (s : World) : Option World :=
  match action with
  | .connect call => s.connect call
  | .turn c choice =>
      match s.conns.get? c with
      | none => none
      | some conn => s.turn mailboxId c conn choice
  | .serve action => s.serve mailboxId action
  | .stop => some (s.withServer { s.server with stop := true })
  | .suspend => some (s.withServer { s.server with suspend := true })
  | .mark marker => some { s with marker := marker }

/-- Nothing sent and nothing answered. -/
def World.start : World where
  conns := Dict.empty
  entries := Dict.empty
  current := Dict.empty
  requests := Dict.empty
  responses := Dict.empty
  marker := none
  server := ⟨.listing, [], Dict.empty, none, (Dict.empty, none), false, false⟩
  log := []

end RcpGraph.Commands
