import RcpGraph.Lib.Json

/-!
Agent commands: the calls clients make, the replies they get, the broker's connections and
keyed entries, the mailbox server and the files between them.
-/

namespace RcpGraph.Commands

/-- One client call. Each call has a request id of its own. -/
structure Call where
  requestId : String
  verb : String
  /-- `idempotency_key`, when it is a string. -/
  key : Option String
  arguments : Json
  deriving DecidableEq

abbrev Signature := String × String × Json

/-- `_keyed_signature`; a question key identifies durable input and is not joined. -/
def Call.signature (call : Call) : Option Signature :=
  if call.verb = "ask" then none
  else call.key.map fun key => (call.verb, key, call.arguments.canonical)

inductive Status where
  | ok
  | invalid
  | unavailable
  deriving DecidableEq, Repr

inductive Delivery where
  | notSent
  | unknown
  deriving DecidableEq, Repr

/-- The `result` of a reply: the broker's delivery label, or the fields RCP answered. -/
inductive Result where
  | delivery (label : Delivery) (permanent : Bool)
  | fields (fields : List (String × Json))
  deriving DecidableEq

structure Reply where
  requestId : String
  status : Status
  message : Option String
  result : Result
  deriving DecidableEq

/-- A round of a question that is still open. -/
def Reply.pending (reply : Reply) : Bool :=
  match reply.result with
  | .fields fields => Assoc.find "state" fields = some (.str "pending")
  | .delivery _ _ => false

def Reply.answering (reply : Reply) (requestId : String) : Reply :=
  { reply with requestId := requestId }

/-- RCP never received the call, says the reply. -/
def Reply.NotSent (reply : Reply) : Prop := ∃ permanent, reply.result = .delivery .notSent permanent

instance (reply : Reply) : Decidable reply.NotSent :=
  decidable_of_iff (reply.result = .delivery .notSent true ∨ reply.result = .delivery .notSent false)
    (by simp [Reply.NotSent, or_comm])

/-- `_error` of the broker. -/
def errorReply (requestId message : String) (status : Status) (delivery : Delivery) : Reply where
  requestId := if requestId.length = 32 then requestId else "00000000000000000000000000000000"
  status := status
  message := some (String.ofList (message.toList.take 2000))
  result := .delivery delivery false

/-- `_unavailable`. -/
def unavailableReply (requestId error : String) (written : Bool) : Reply :=
  if written then
    errorReply requestId ("RCP has this command but its answer did not arrive (" ++ error ++ "); " ++
      "it may still take effect. Repeat the exact same command to get the result.")
      .unavailable .unknown
  else errorReply requestId ("RCP command was not sent: " ++ error) .unavailable .notSent

/-- What a connection's handler catches: a `BrokerUnavailable` or an `OSError`, and a
`BrokerError` or a `ValueError`. -/
inductive Failure where
  | unavailable (error : String)
  | rejected (error : String)
  deriving DecidableEq

/-- The handlers of `_handle`. -/
def failedReply (requestId : String) (written : Bool) : Failure → Reply
  | .unavailable error => unavailableReply requestId error written
  | .rejected error =>
      errorReply requestId ("RCP command rejected: " ++ error) .invalid .notSent

/-- The closure marker's file: what reading and decoding it gives. -/
inductive Marker where
  | unreadable (error : String)
  | garbled (error : String)
  | value (value : Json)
  deriving DecidableEq

/-- `_closed_response`. -/
def closedResponse (mailboxId requestId : String) : Option Marker → Except Failure (Option Reply)
  | none => .ok none
  | some (.unreadable error) => .error (.unavailable error)
  | some (.garbled error) => .error (.rejected error)
  | some (.value value) =>
      match value.get? "version", value.get? "mailbox_id", value.get? "message" with
      | some version, some mailbox, some (.str message) =>
          if version.pyEq (.num 1) && mailbox = .str mailboxId then
            .ok (some { errorReply requestId message .unavailable .notSent with
              result := .delivery .notSent true })
          else .error (.unavailable "command mailbox closure is malformed")
      | _, _, _ => .error (.unavailable "command mailbox closure is malformed")

/-- `_KeyedCommand`, filed under the request id of the connection that owns it. -/
structure Entry where
  done : Bool
  response : Option Reply
  sent : Bool
  delivered : Bool
  deriving DecidableEq

def Entry.fresh : Entry := ⟨false, none, false, false⟩

/-- Where a connection's thread stands. -/
inductive Phase where
  /-- About to look for the closure marker. -/
  | checking
  | joining
  /-- The owner of its call, about to write the request. -/
  | writing
  /-- Looking for the response file. -/
  | polling
  /-- There was none: looking for the closure marker. -/
  | closing
  /-- Unlinking the files of an open round: the request first, then the response. -/
  | clearing (reply : Reply) (requestGone : Bool)
  /-- The reply is known; the owner's entry is next. -/
  | settled (reply : Reply)
  /-- Waiting for another connection's answer. -/
  | waiting
  | sending (reply : Reply) (answersEntry : Bool)
  /-- An entry's answer was sent; its flag is next. -/
  | marking
  | ended
  /-- The owner of its call ended without a reply. -/
  | lost
  deriving DecidableEq

/-- One connection, with the variables of its handler. -/
structure Conn where
  call : Call
  /-- The owner of the entry it holds. -/
  entry : Option String
  owner : Bool
  written : Bool
  phase : Phase
  deriving DecidableEq

/-- Where the mailbox server stands. -/
inductive Serving where
  | listing
  | choosing (names : List String)
  | reading (name : String) (rest : List String)
  | handling (name : String) (call : Call) (retries : Nat) (rest : List String)
  /-- The answer is recorded; its checkpoint is next. -/
  | keeping (name : String) (transient : Bool) (refusal : Option String) (rest : List String)
  | writing (name : String) (transient : Bool) (refusal : Option String) (rest : List String)
  /-- Out of the loop, with what was raised. -/
  | ending (raised : Option String)
  /-- The reason is recorded; the marker is next. -/
  | closing (reason : String)
  /-- Left for a restart. -/
  | down
  | expired
  deriving DecidableEq

structure Server where
  serving : Serving
  seen : List String
  answers : Dict String Reply
  terminal : Option String
  /-- The checkpoint: the answers and the terminal reason. -/
  saved : Dict String Reply × Option String
  stop : Bool
  suspend : Bool
  deriving DecidableEq

/-- What happened, for the statements about runs. -/
inductive Event where
  /-- A connection's request file was written. -/
  | wrote (requestId : String)
  /-- A client got a reply; `source` is the entry it answers from. -/
  | received (requestId : String) (reply : Reply) (source : Option String)
  /-- The handler ran for a request file. -/
  | ran (name : String) (call : Call)
  /-- An answer passed its checkpoint. -/
  | kept (name : String) (reply : Reply)
  /-- A response file was written. -/
  | gave (name : String) (reply : Reply) (transient : Bool)
  deriving DecidableEq

/-- The broker, the workspace and the server. Files go by their request id. -/
structure World where
  conns : Dict String Conn
  entries : Dict String Entry
  /-- `_keyed_commands`. -/
  current : Dict Signature String
  requests : Dict String Call
  responses : Dict String Reply
  marker : Option Marker
  server : Server
  /-- The newest event first. -/
  log : List Event
  deriving DecidableEq

end RcpGraph.Commands
