import RcpGraph.Commands.Refusals

/-!
What the mailbox server has answered: an answer that passed its checkpoint is the only one its
request file ever gets, across suspensions and restarts.
-/

namespace RcpGraph.Commands

namespace World

/-- What an event says of the events before it. -/
def Follows (s : World) (earlier : List Event) : Event → Prop
  | .wrote c => ∀ d, .wrote d ∈ earlier → (s.signatureOf c).isSome = true →
      s.signatureOf d = s.signatureOf c → ∃ x reply, .received x reply (some d) ∈ earlier
  | .received c reply _ => reply.NotSent → ∀ d, .wrote d ∈ earlier → ¬ s.Carries d c
  | .ran name _ => ∀ reply, .kept name reply ∉ earlier
  | .kept name _ => ∀ reply, .kept name reply ∉ earlier
  | .gave name reply transient => (transient = false → .kept name reply ∈ earlier) ∧
      ∀ kept, .kept name kept ∈ earlier → kept = reply

/-- Every event follows from the events before it. -/
def Ordered (s : World) : List Event → Prop
  | [] => True
  | e :: earlier => s.Follows earlier e ∧ s.Ordered earlier

theorem Ordered.split {s : World} {log later earlier : List Event} {e : Event}
    (h : s.Ordered log) (hlog : log = later ++ e :: earlier) : s.Follows earlier e := by
  induction later generalizing log with
  | nil =>
      subst hlog
      exact h.1
  | cons x later ih =>
      subst hlog
      exact ih h.2 rfl

/-- The answers of a server in its loop are those that passed their checkpoint. -/
def Exact (s : World) : Prop :=
  ∀ n reply, s.server.answers.get? n = some reply → .kept n reply ∈ s.log

/-- All but the one in hand. -/
def ExactBut (s : World) (name : String) : Prop :=
  ∀ n reply, n ≠ name → s.server.answers.get? n = some reply → .kept n reply ∈ s.log

/-- What the server knows at its place. -/
def ServingOk (s : World) : Prop :=
  match s.server.serving with
  | .listing => s.server.terminal = none → s.Exact
  | .choosing _ => s.server.terminal = none ∧ s.Exact
  | .reading name _ => s.server.terminal = none ∧ s.Exact ∧ s.server.answers.get? name = none
  | .handling name call _ _ => s.server.terminal = none ∧ s.Exact ∧
      s.server.answers.get? name = none ∧ ∃ conn, s.conns.get? name = some conn ∧ conn.call = call
  | .keeping name _ refusal _ => (refusal = none → s.server.terminal = none) ∧ s.ExactBut name ∧
      ∀ reply, .kept name reply ∉ s.log
  | .writing name transient refusal _ => (refusal = none → s.server.terminal = none) ∧
      s.ExactBut name ∧
        (transient = true → ∀ reply, .kept name reply ∉ s.log) ∧
          (transient = false → ∀ reply, s.server.answers.get? name = some reply →
            .kept name reply ∈ s.log)
  | .ending _ | .closing _ | .down | .expired => True

/-- The server's invariant. -/
structure Served (s : World) : Prop where
  place : s.ServingOk
  answered : ∀ n reply, .kept n reply ∈ s.log → s.server.answers.get? n = some reply
  saved : ∀ n reply, .kept n reply ∈ s.log → s.server.saved.1.get? n = some reply
  savedKept : s.server.saved.2 = none → ∀ n reply, s.server.saved.1.get? n = some reply →
    .kept n reply ∈ s.log
  terminal : s.server.terminal = none → s.server.saved.2 = none
  fields : ∀ n reply, s.server.answers.get? n = some reply ∨ s.server.saved.1.get? n = some reply →
    ∃ fields, reply.result = .fields fields
  ran : ∀ n call, .ran n call ∈ s.log → ∃ conn, s.conns.get? n = some conn ∧ conn.call = call
  ordered : s.Ordered s.log

end World

/-- The broker's own events. -/
def Event.ofBroker : Event → Bool
  | .wrote _ | .received _ _ _ => true
  | .ran _ _ | .kept _ _ | .gave _ _ _ => false

namespace World

variable {s t : World}

/-- Old events keep following when signatures stay. -/
theorem Ordered.since {log : List Event}
    (hsame : ∀ c, (.wrote c ∈ log ∨ ∃ reply source, .received c reply source ∈ log) →
      t.signatureOf c = s.signatureOf c) (h : s.Ordered log) : t.Ordered log := by
  induction log with
  | nil => trivial
  | cons e earlier ih =>
      refine ⟨?_, ih (fun c hc => hsame c (hc.imp (List.mem_cons_of_mem _) ?_)) h.2⟩
      · have hfollows := h.1
        cases e with
        | wrote c =>
            intro d hd hkeyed hsig
            rw [hsame c (Or.inl List.mem_cons_self)] at hkeyed hsig
            rw [hsame d (Or.inl (List.mem_cons_of_mem _ hd))] at hsig
            exact hfollows d hd hkeyed hsig
        | received x reply source =>
            intro hnot d hd hcarries
            unfold Carries at hcarries
            rw [hsame x (Or.inr ⟨reply, source, List.mem_cons_self⟩),
              hsame d (Or.inl (List.mem_cons_of_mem _ hd))] at hcarries
            exact hfollows hnot d hd hcarries
        | ran name call => exact hfollows
        | kept name reply => exact hfollows
        | gave name reply transient => exact hfollows
      · rintro ⟨reply, source, hmem⟩
        exact ⟨reply, source, List.mem_cons_of_mem _ hmem⟩

theorem Sound.known (hs : s.Sound) (c : String) (h : .wrote c ∈ s.log) : c ∈ s.conns := by
  obtain ⟨conn, hconn, -⟩ := hs.wrote c h
  exact Dict.mem_of_get? hconn

/-- What the server knows is untouched by the broker. -/
theorem Served.broker (hs : s.Sound) (hv : s.Served) (server : t.server = s.server)
    (calls : s.Calls t)
    (log : t.log = s.log ∨
      ∃ e, t.log = e :: s.log ∧ e.ofBroker = true ∧ t.Follows s.log e) : t.Served := by
  have hkept : ∀ n reply, .kept n reply ∈ t.log ↔ .kept n reply ∈ s.log := by
    intro n reply
    rcases log with hlog | ⟨e, hlog, hbroker, -⟩
    · rw [hlog]
    · rw [hlog, List.mem_cons]
      refine ⟨fun h => h.resolve_left ?_, Or.inr⟩
      rintro rfl
      cases hbroker
  have hran : ∀ n call, .ran n call ∈ t.log → .ran n call ∈ s.log := by
    intro n call h
    rcases log with hlog | ⟨e, hlog, hbroker, -⟩
    · rwa [hlog] at h
    · rw [hlog, List.mem_cons] at h
      refine h.resolve_left ?_
      rintro rfl
      cases hbroker
  constructor
  · have hplace := hv.place
    unfold ServingOk Exact ExactBut at hplace ⊢
    rw [server]
    simp only [hkept]
    cases hserving : s.server.serving with
    | handling name call retries rest =>
        rw [hserving] at hplace
        obtain ⟨hterminal, hexact, hnone, conn, hconn, hcall⟩ := hplace
        obtain ⟨conn', hconn', hcall'⟩ := calls name conn hconn
        exact ⟨hterminal, hexact, hnone, conn', hconn', hcall'.trans hcall⟩
    | listing | choosing | reading | keeping | writing | ending | closing | down | expired =>
        rw [hserving] at hplace
        exact hplace
  · intro n reply h
    rw [server]
    exact hv.answered n reply ((hkept n reply).mp h)
  · intro n reply h
    rw [server]
    exact hv.saved n reply ((hkept n reply).mp h)
  · intro hterminal n reply h
    rw [server] at hterminal h
    exact (hkept n reply).mpr (hv.savedKept hterminal n reply h)
  · rw [server]
    exact hv.terminal
  · rw [server]
    exact hv.fields
  · intro n call h
    obtain ⟨conn, hconn, hcall⟩ := hv.ran n call (hran n call h)
    obtain ⟨conn', hconn', hcall'⟩ := calls n conn hconn
    exact ⟨conn', hconn', hcall'.trans hcall⟩
  · have hold : t.Ordered s.log := by
      refine hv.ordered.since fun c hc => calls.signatureOf ?_
      rcases hc with hwrote | ⟨reply, source, hreceived⟩
      · exact hs.known c hwrote
      · obtain ⟨conn, hconn, -⟩ := hs.received c reply source hreceived
        exact Dict.mem_of_get? hconn
    rcases log with hlog | ⟨e, hlog, -, hfollows⟩
    · rw [hlog]
      exact hold
    · rw [hlog]
      exact ⟨hfollows, hold⟩

section Turn

variable {c : String} {conn : Conn}

theorem calls_insert {conn' : Conn} (hc : s.conns.get? c = some conn)
    (conns : t.conns = s.conns.insert c conn') (call : conn'.call = conn.call) : s.Calls t := by
  intro x k hk
  rw [conns, Dict.get?_insert]
  by_cases hx : x = c
  · subst hx
    rw [hc] at hk
    cases hk
    exact ⟨conn', if_pos rfl, call⟩
  · exact ⟨k, by rw [if_neg hx]; exact hk, rfl⟩

/-- A request is written again only once the last one's answer reached a client. -/
theorem write_follows (hs : s.Sound) (hc : s.conns.get? c = some conn)
    (hphase : conn.phase = .writing) :
    (s.writeRequest c conn).Follows s.log (.wrote c) := by
  have hok := hs.phase c conn hc
  unfold PhaseOk at hok
  rw [hphase] at hok
  obtain ⟨howner, hwritten⟩ := hok
  have hcalls : s.Calls (s.writeRequest c conn) := calls_insert hc rfl rfl
  intro d hd hkeyed hsame
  rw [hcalls.signatureOf (Dict.mem_of_get? hc)] at hkeyed hsame
  rw [hcalls.signatureOf (hs.known d hd)] at hsame
  obtain ⟨other, hother, hotherOwner, hotherWritten⟩ := hs.wrote d hd
  have hsignature : other.call.signature = conn.call.signature := by
    simpa [signatureOf, hc, hother] using hsame
  have hconnKeyed : conn.call.signature.isSome = true := by
    simpa [signatureOf, hc] using hkeyed
  obtain ⟨signature, hsig⟩ := Option.isSome_iff_exists.mp hconnKeyed
  -- the owner now underway is the newest of its signature
  obtain ⟨own, hown⟩ := (Dict.mem_iff_exists _ _).mp
    (hs.held c conn c hc (hs.owned c conn hc howner hconnKeyed)).1
  obtain ⟨k, hk, hentry⟩ := hs.entry c own hown
  rw [hc] at hk
  cases hk
  have hnow : s.current.get? signature = some c := by
    refine (hs.newest c own conn signature hown hc hsig).resolve_right ?_
    rintro ⟨hdone, -⟩
    rw [hentry.underway, hphase] at hdone
    cases hdone
  have hotherKeyed : other.call.signature.isSome = true := by
    rw [hsignature]
    exact hconnKeyed
  obtain ⟨filed, hfiled⟩ := (Dict.mem_iff_exists _ _).mp
    (hs.held d other d hother (hs.owned d other hother hotherOwner hotherKeyed)).1
  obtain ⟨k, hk, hfiledOk⟩ := hs.entry d filed hfiled
  rcases hs.newest d filed other signature hfiled hother (hsignature.trans hsig) with hcur | hclosed
  · rw [hnow] at hcur
    cases hcur
    rw [hc] at hother
    cases hother
    rw [hwritten] at hotherWritten
    cases hotherWritten
  · obtain ⟨reply, -, -, hsent⟩ := hfiledOk.answered hclosed.1
    rcases hclosed.2 with hdelivered | hunsent
    · exact hfiledOk.delivered hdelivered
    · rw [hsent hd] at hunsent
      cases hunsent

/-- "Not sent" reaches a client only of a call that no written request carries. -/
theorem send_follows (hs : s.Sound) (hh : s.Honest) (hc : s.conns.get? c = some conn)
    {reply : Reply} {answersEntry : Bool} (hphase : conn.phase = .sending reply answersEntry) :
    (s.send c conn reply answersEntry).Follows s.log
      (.received c reply (if answersEntry then conn.entry else none)) := by
  have hcalls : s.Calls (s.send c conn reply answersEntry) := calls_insert hc rfl rfl
  intro hnot d hd hcarries
  have hdue : s.due conn = some reply := due_iff.mpr (Or.inr (Or.inl ⟨_, hphase⟩))
  have hnone := hh.refused c (refused_iff.mpr ⟨conn, reply, hc, hdue, hnot⟩)
  rw [hcalls.carries (hs.known d hd) (Dict.mem_of_get? hc)] at hcarries
  rw [written_iff.mpr ⟨d, hd, hcarries⟩] at hnone
  cases hnone

/-- A step of a connection leaves the server and the calls alone. -/
theorem turn_frame (hs : s.Sound) (hh : s.Honest) (hc : s.conns.get? c = some conn)
    {mailboxId : String}
    {choice : Choice} (h : s.turn mailboxId c conn choice = some t) :
    t.server = s.server ∧ s.Calls t ∧ (t.log = s.log ∨
      ∃ e, t.log = e :: s.log ∧ e.ofBroker = true ∧ t.Follows s.log e) := by
  have hquiet : ∀ {conn' : Conn}, conn'.call = conn.call →
      s.Calls (s.withConn c conn') := fun hcall => calls_insert hc rfl hcall
  unfold turn at h
  split at h
  case h_24 => cases h
  · cases h
    exact ⟨rfl, hquiet rfl, Or.inl rfl⟩
  · split at h <;> cases h <;> exact ⟨rfl, hquiet rfl, Or.inl rfl⟩
  · cases h
    cases hsignature : conn.call.signature with
    | none =>
        rw [join_unkeyed hsignature]
        exact ⟨rfl, hquiet rfl, Or.inl rfl⟩
    | some signature =>
        cases hjoin : s.joinable signature with
        | some d =>
            rw [join_joined hsignature hjoin]
            exact ⟨rfl, hquiet rfl, Or.inl rfl⟩
        | none =>
            rw [join_owns hsignature hjoin]
            exact ⟨rfl, calls_insert hc rfl rfl, Or.inl rfl⟩
  · rename_i hphase
    cases h
    exact ⟨rfl, calls_insert hc rfl rfl, Or.inr ⟨_, rfl, rfl, write_follows hs hc hphase⟩⟩
  · cases h
    exact ⟨rfl, hquiet rfl, Or.inl rfl⟩
  · cases h
    exact ⟨rfl, hquiet rfl, Or.inl rfl⟩
  · cases h
    exact ⟨rfl, hquiet rfl, Or.inl rfl⟩
  · cases h
    exact ⟨rfl, hquiet rfl, Or.inl rfl⟩
  · cases h
    exact ⟨rfl, hquiet rfl, Or.inl rfl⟩
  · cases h
    exact ⟨rfl, calls_insert hc rfl rfl, Or.inl rfl⟩
  · cases h
    exact ⟨rfl, calls_insert hc rfl rfl, Or.inl rfl⟩
  · cases h
    exact ⟨rfl, hquiet rfl, Or.inl rfl⟩
  · cases h
    exact ⟨rfl, hquiet rfl, Or.inl rfl⟩
  · cases h
    unfold settle
    split
    · exact ⟨rfl, calls_insert hc rfl rfl, Or.inl rfl⟩
    · exact ⟨rfl, hquiet rfl, Or.inl rfl⟩
  · unfold joined at h
    split at h
    · cases h
      exact ⟨rfl, hquiet rfl, Or.inl rfl⟩
    · cases h
      exact ⟨rfl, hquiet rfl, Or.inl rfl⟩
    · cases h
  · rename_i reply answersEntry hphase
    cases h
    exact ⟨rfl, calls_insert hc rfl rfl, Or.inr ⟨_, rfl, rfl, send_follows hs hh hc hphase⟩⟩
  · cases h
    exact ⟨rfl, hquiet rfl, Or.inl rfl⟩
  · cases h
    exact ⟨rfl, calls_insert hc rfl rfl, Or.inl rfl⟩
  all_goals
    cases h
    exact ⟨rfl, hquiet rfl, Or.inl rfl⟩

theorem connect_frame {call : Call} (h : s.connect call = some t) :
    t.server = s.server ∧ s.Calls t ∧ t.log = s.log := by
  unfold connect at h
  split at h
  · cases h
  · rename_i hmem
    cases h
    refine ⟨rfl, ?_, rfl⟩
    intro x k hk
    refine ⟨k, ?_, rfl⟩
    unfold withConn
    rw [get?_insert_ne]
    · exact hk
    · rintro rfl
      exact hmem (Dict.mem_of_get? hk)

end Turn

end World

end RcpGraph.Commands
