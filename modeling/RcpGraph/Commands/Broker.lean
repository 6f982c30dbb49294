import RcpGraph.Commands.Records

/-!
The broker: what one thread of a connection does next. Every shared variable is read or
written in a step of its own, and `_join_keyed_command` is one step under its lock.
-/

namespace RcpGraph.Commands

/-- How the operation a thread is at ends. -/
inductive Choice where
  | goes
  | fails (failure : Failure)
  | timesOut
  /-- The client is gone. -/
  | vanishes
  /-- It raises what no handler catches, as a file that is nested too deeply does. -/
  | crashes
  deriving DecidableEq

namespace World

def withConn (s : World) (c : String) (conn : Conn) : World :=
  { s with conns := s.conns.insert c conn }

/-- The entry a keyed call joins: one in flight, or one whose answer no client received. -/
def joinable (s : World) (signature : Signature) : Option String :=
  (s.current.get? signature).filter fun d =>
    (s.entries.get? d).any fun entry => !(entry.done && (entry.delivered || !entry.sent))

/-- `_join_keyed_command`, and what `_handle` does with its answer. -/
def join (s : World) (c : String) (conn : Conn) : World :=
  match conn.call.signature with
  | none => s.withConn c { conn with owner := true, phase := .writing }
  | some signature =>
      match s.joinable signature with
      | some d => s.withConn c { conn with entry := some d, written := true, phase := .waiting }
      | none =>
          { s.withConn c { conn with entry := some c, owner := true, phase := .writing } with
            entries := s.entries.insert c Entry.fresh
            current := s.current.insert signature c }

/-- The request file appears in one step. -/
def writeRequest (s : World) (c : String) (conn : Conn) : World :=
  { s.withConn c { conn with written := true, phase := .polling } with
    requests := s.requests.insert c conn.call
    log := .wrote c :: s.log }

/-- The phase after a look at the response file. -/
def polled (s : World) (c : String) (conn : Conn) : Phase :=
  match s.responses.get? c with
  | none => .closing
  | some reply =>
      if reply.requestId ≠ c then
        .settled (failedReply c conn.written (.unavailable "command response identity does not match"))
      else if conn.call.verb = "ask" && reply.pending then .clearing reply false
      else .settled reply

/-- The phase after a look at the closure marker while the response is missing. -/
def closed (s : World) (mailboxId c : String) (conn : Conn) : Phase :=
  match closedResponse mailboxId c s.marker with
  | .error failure => .settled (failedReply c conn.written failure)
  | .ok none => .polling
  | .ok (some reply) => .settled { reply with result := .delivery .unknown true }

/-- The owner's entry takes the reply and is done. -/
def settle (s : World) (c : String) (conn : Conn) (reply : Reply) : World :=
  match if conn.owner then conn.entry else none with
  | some d =>
      { s.withConn c { conn with phase := .sending reply true } with
        entries := s.entries.insert d ⟨true, some reply, conn.written,
          ((s.entries.get? d).map (·.delivered)).getD false⟩ }
  | none => s.withConn c { conn with phase := .sending reply false }

/-- `_joined_response`. -/
def joined (s : World) (c : String) (conn : Conn) (choice : Choice) : Option World :=
  match conn.entry.bind s.entries.get?, choice with
  | some ⟨true, some reply, _, _⟩, .goes =>
      some (s.withConn c { conn with phase := .sending (reply.answering c) true })
  | some ⟨false, _, _, _⟩, .timesOut =>
      some (s.withConn c { conn with
        phase := .sending (unavailableReply c "command response timed out" true) false })
  | _, _ => none

/-- The answer is sent. -/
def send (s : World) (c : String) (conn : Conn) (reply : Reply) (answersEntry : Bool) : World :=
  { s.withConn c { conn with phase := if answersEntry then .marking else .ended } with
    log := .received c reply (if answersEntry then conn.entry else none) :: s.log }

def mark (s : World) (c : String) (conn : Conn) : World :=
  { s.withConn c { conn with phase := .ended } with
    entries := match conn.entry with
      | none => s.entries
      | some d => match s.entries.get? d with
          | none => s.entries
          | some entry => s.entries.insert d { entry with delivered := true } }

/-- One step of `_handle` of a connection. -/
def turn (s : World) (mailboxId c : String) (conn : Conn) (choice : Choice) : Option World :=
  match conn.phase, choice with
  -- the peer, the session or the mailbox identity is refused, or the host cannot tell
  | .checking, .fails failure =>
      some (s.withConn c { conn with phase := .settled (failedReply c conn.written failure) })
  | .checking, .goes =>
      match closedResponse mailboxId c s.marker with
      | .error failure =>
          some (s.withConn c { conn with phase := .settled (failedReply c conn.written failure) })
      | .ok (some reply) => some (s.withConn c { conn with phase := .sending reply false })
      | .ok none => some (s.withConn c { conn with phase := .joining })
  | .joining, .goes => some (s.join c conn)
  | .writing, .goes => some (s.writeRequest c conn)
  | .writing, .fails failure =>
      some (s.withConn c { conn with phase := .settled (failedReply c conn.written failure) })
  | .polling, .goes => some (s.withConn c { conn with phase := s.polled c conn })
  -- a response file that cannot be read is a `BrokerUnavailable`
  | .polling, .fails (.unavailable error) =>
      some (s.withConn c
        { conn with phase := .settled (failedReply c conn.written (.unavailable error)) })
  | .polling, .timesOut =>
      some (s.withConn c { conn with
        phase := .settled (failedReply c conn.written (.unavailable "command response timed out")) })
  | .closing, .goes => some (s.withConn c { conn with phase := s.closed mailboxId c conn })
  | .clearing reply false, .goes =>
      some { s.withConn c { conn with phase := .clearing reply true } with
        requests := s.requests.erase c }
  | .clearing reply true, .goes =>
      some { s.withConn c { conn with phase := .settled reply } with
        responses := s.responses.erase c }
  -- the file is left behind
  | .clearing reply false, .fails _ => some (s.withConn c { conn with phase := .clearing reply true })
  | .clearing reply true, .fails _ => some (s.withConn c { conn with phase := .settled reply })
  | .settled reply, .goes => some (s.settle c conn reply)
  | .waiting, choice => s.joined c conn choice
  | .sending reply answersEntry, .goes => some (s.send c conn reply answersEntry)
  | .sending _ _, .vanishes => some (s.withConn c { conn with phase := .ended })
  | .marking, .goes => some (s.mark c conn)
  | .checking, .crashes | .joining, .crashes => some (s.withConn c { conn with phase := .ended })
  -- the owner's entry is never done
  | .writing, .crashes | .polling, .crashes | .closing, .crashes =>
      some (s.withConn c { conn with phase := .lost })
  | _, _ => none

/-- A client connects with a call of its own. -/
def connect (s : World) (call : Call) : Option World :=
  if call.requestId ∈ s.conns then none
  else some (s.withConn call.requestId ⟨call, none, false, false, .checking⟩)

end World

end RcpGraph.Commands
