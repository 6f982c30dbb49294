import RcpGraph.Commands.Mailbox

/-!
What the broker's connections and entries know of each other, and how a step of one
connection keeps it.
-/

namespace RcpGraph.Commands

/-- The owner of a call has no reply filed yet. -/
def Phase.underway : Phase → Bool
  | .writing | .polling | .closing | .clearing _ _ | .settled _ | .lost => true
  | _ => false

/-- A thread here never writes a request again. -/
def Phase.past : Phase → Bool
  | .settled _ | .sending _ _ | .marking | .ended => true
  | _ => false

/-- Done, and delivered or never sent: the next call of the signature is sent again. -/
def Entry.Closed (entry : Entry) : Prop :=
  entry.done = true ∧ (entry.delivered = true ∨ entry.sent = false)

namespace World

/-- A connection is past its write and did not write. -/
def Unsent (s : World) (n : String) : Prop :=
  .wrote n ∉ s.log ∧ ∃ conn, s.conns.get? n = some conn ∧ conn.phase.past = true

/-- A reply a connection has: an answer of RCP was given to its own request or to its entry's,
and "not sent" is true of both. -/
structure Holds (s : World) (c : String) (entry : Option String) (reply : Reply) : Prop where
  answer : ∀ fields, reply.result = .fields fields →
    ∃ d given transient, (d = c ∨ entry = some d) ∧ .gave d given transient ∈ s.log ∧
      reply = given.answering c
  told : reply.NotSent → s.Unsent c ∧ ∀ d, entry = some d → s.Unsent d

/-- What a thread knows at its place. -/
def PhaseOk (s : World) (c : String) (conn : Conn) : Prop :=
  match conn.phase with
  | .checking => conn.owner = false ∧ conn.entry = none ∧ conn.written = false
  | .joining => conn.owner = false ∧ conn.entry = none ∧ conn.written = false
  | .writing => conn.owner = true ∧ conn.written = false
  | .polling => conn.owner = true ∧ conn.written = true
  | .closing => conn.owner = true ∧ conn.written = true
  | .clearing reply _ => conn.owner = true ∧ conn.written = true ∧ s.Holds c conn.entry reply
  | .settled reply => (conn.owner = false → conn.entry = none) ∧ s.Holds c conn.entry reply
  | .waiting => conn.owner = false ∧ conn.entry.isSome = true
  | .sending reply answersEntry =>
      s.Holds c conn.entry reply ∧ (answersEntry = true → conn.entry.isSome = true)
  | .marking => ∃ d reply, conn.entry = some d ∧ .received c reply (some d) ∈ s.log
  | .ended => True
  | .lost => conn.owner = true

/-- What an entry knows: its owner is underway exactly until it is done. -/
structure EntryOk (s : World) (d : String) (entry : Entry) (conn : Conn) : Prop where
  owner : conn.owner = true
  own : conn.entry = some d
  keyed : conn.call.signature.isSome = true
  underway : entry.done = !conn.phase.underway
  answered : entry.done = true →
    ∃ reply, entry.response = some reply ∧ s.Holds d (some d) reply ∧
      (.wrote d ∈ s.log → entry.sent = true)
  delivered : entry.delivered = true → ∃ c reply, .received c reply (some d) ∈ s.log

/-- The broker's invariant. -/
structure Sound (s : World) : Prop where
  phase : ∀ c conn, s.conns.get? c = some conn → s.PhaseOk c conn
  owned : ∀ c conn, s.conns.get? c = some conn → conn.owner = true →
    conn.call.signature.isSome = true → conn.entry = some c
  held : ∀ c conn d, s.conns.get? c = some conn → conn.entry = some d →
    d ∈ s.entries ∧ (conn.owner = true → d = c) ∧ conn.call.signature.isSome = true ∧
      ∃ other, s.conns.get? d = some other ∧ other.call.signature = conn.call.signature
  entry : ∀ d entry, s.entries.get? d = some entry →
    ∃ conn, s.conns.get? d = some conn ∧ s.EntryOk d entry conn
  newest : ∀ d entry conn signature, s.entries.get? d = some entry →
    s.conns.get? d = some conn → conn.call.signature = some signature →
      s.current.get? signature = some d ∨ entry.Closed
  current : ∀ signature d, s.current.get? signature = some d →
    ∃ conn, s.conns.get? d = some conn ∧ conn.call.signature = some signature
  wrote : ∀ c, .wrote c ∈ s.log →
    ∃ conn, s.conns.get? c = some conn ∧ conn.owner = true ∧ conn.written = true
  received : ∀ c reply source, .received c reply source ∈ s.log →
    ∃ conn, s.conns.get? c = some conn ∧ conn.phase.past = true ∧ s.Holds c conn.entry reply
  requests : ∀ n call, s.requests.get? n = some call →
    ∃ conn, s.conns.get? n = some conn ∧ conn.call = call
  responses : ∀ n reply, s.responses.get? n = some reply →
    (∃ fields, reply.result = .fields fields) ∧ ∃ transient, .gave n reply transient ∈ s.log

/-- What later states keep of what was held. -/
structure Since (s t : World) : Prop where
  log : ∀ e, e ∈ s.log → e ∈ t.log
  unsent : ∀ n, s.Unsent n → t.Unsent n

theorem Holds.since {s t : World} {c : String} {entry : Option String} {reply : Reply}
    (h : s.Holds c entry reply) (hst : s.Since t) : t.Holds c entry reply := by
  constructor
  · intro fields hfields
    obtain ⟨d, given, transient, hd, hgave, heq⟩ := h.answer fields hfields
    exact ⟨d, given, transient, hd, hst.log _ hgave, heq⟩
  · intro hnot
    obtain ⟨hc, hentry⟩ := h.told hnot
    exact ⟨hst.unsent c hc, fun d hd => hst.unsent d (hentry d hd)⟩

theorem PhaseOk.since {s t : World} {c : String} {conn : Conn} (h : s.PhaseOk c conn)
    (hst : s.Since t) : t.PhaseOk c conn := by
  unfold PhaseOk at h ⊢
  cases hphase : conn.phase with
  | clearing reply gone =>
      rw [hphase] at h
      exact ⟨h.1, h.2.1, h.2.2.since hst⟩
  | settled reply =>
      rw [hphase] at h
      exact ⟨h.1, h.2.since hst⟩
  | sending reply answersEntry =>
      rw [hphase] at h
      exact ⟨h.1.since hst, h.2⟩
  | marking =>
      rw [hphase] at h
      obtain ⟨d, reply, hd, hreceived⟩ := h
      exact ⟨d, reply, hd, hst.log _ hreceived⟩
  | checking | joining | writing | polling | closing | waiting | ended | lost =>
      rw [hphase] at h
      exact h

/-- A reply the broker made itself. -/
theorem holds_of_delivery {s : World} {c : String} {entry : Option String} {reply : Reply}
    {label : Delivery} {permanent : Bool} (h : reply.result = .delivery label permanent)
    (told : label = .notSent → s.Unsent c ∧ ∀ d, entry = some d → s.Unsent d) :
    s.Holds c entry reply := by
  constructor
  · intro fields hfields
    rw [h] at hfields
    cases hfields
  · rintro ⟨permanent', hnot⟩
    rw [h] at hnot
    cases hnot
    exact told rfl

/-- One connection before and after a step that keeps its variables. -/
structure Quiet (conn conn' : Conn) : Prop where
  call : conn'.call = conn.call
  entry : conn'.entry = conn.entry
  owner : conn'.owner = conn.owner
  written : conn'.written = conn.written
  past : conn.phase.past = true → conn'.phase.past = true

theorem Quiet.refl (conn : Conn) : Quiet conn conn := ⟨rfl, rfl, rfl, rfl, fun h => h⟩

/-- An entry whose owner stays underway, or stays done. -/
theorem EntryOk.since {s t : World} {d : String} {entry : Entry} {conn conn' : Conn}
    (h : s.EntryOk d entry conn) (hst : s.Since t)
    (hwrote : .wrote d ∈ t.log → .wrote d ∈ s.log) (hq : Quiet conn conn')
    (hunderway : conn'.phase.underway = conn.phase.underway) : t.EntryOk d entry conn' := by
  constructor
  · rw [hq.owner]
    exact h.owner
  · rw [hq.entry]
    exact h.own
  · rw [hq.call]
    exact h.keyed
  · rw [hunderway]
    exact h.underway
  · intro hdone
    obtain ⟨reply, hreply, hholds, hsent⟩ := h.answered hdone
    exact ⟨reply, hreply, hholds.since hst, fun hw => hsent (hwrote hw)⟩
  · intro hdelivered
    obtain ⟨c, reply, hreceived⟩ := h.delivered hdelivered
    exact ⟨c, reply, hst.log _ hreceived⟩

/-- A step that keeps every connection's variables and the requests, and whose entries, replies
and responses are what they should be, keeps the invariant. -/
theorem Sound.carry {s t : World} (hs : s.Sound) (current : t.current = s.current)
    (members : ∀ d, d ∈ s.entries → d ∈ t.entries)
    (back : ∀ x k', t.conns.get? x = some k' → ∃ k, s.conns.get? x = some k ∧ Quiet k k')
    (forth : ∀ x k, s.conns.get? x = some k → ∃ k', t.conns.get? x = some k' ∧ Quiet k k')
    (log : ∀ e, e ∈ s.log → e ∈ t.log)
    (wrote : ∀ n, .wrote n ∈ t.log → .wrote n ∈ s.log)
    (received : s.Since t → ∀ c reply source, .received c reply source ∈ t.log →
      .received c reply source ∈ s.log ∨ ∃ conn, t.conns.get? c = some conn ∧
        conn.phase.past = true ∧ t.Holds c conn.entry reply)
    (requests : ∀ n call, t.requests.get? n = some call → s.requests.get? n = some call)
    (responses : ∀ n reply, t.responses.get? n = some reply →
      (∃ fields, reply.result = .fields fields) ∧ ∃ transient, .gave n reply transient ∈ t.log)
    (entries : s.Since t → ∀ d entry', t.entries.get? d = some entry' →
      ∃ entry conn', s.entries.get? d = some entry ∧ (entry.Closed → entry'.Closed) ∧
        t.conns.get? d = some conn' ∧ t.EntryOk d entry' conn')
    (phases : s.Since t → ∀ x k', t.conns.get? x = some k' → t.PhaseOk x k') : t.Sound := by
  have hst : s.Since t := by
    refine ⟨log, ?_⟩
    rintro n ⟨hwrote, conn, hconn, hpast⟩
    obtain ⟨conn', hconn', hq⟩ := forth n conn hconn
    exact ⟨fun h => hwrote (wrote n h), conn', hconn', hq.past hpast⟩
  constructor
  · exact phases hst
  · intro c conn' hconn' howner hkeyed
    obtain ⟨conn, hconn, hq⟩ := back c conn' hconn'
    rw [hq.owner] at howner
    rw [hq.call] at hkeyed
    rw [hq.entry]
    exact hs.owned c conn hconn howner hkeyed
  · intro c conn' d hconn' hd
    obtain ⟨conn, hconn, hq⟩ := back c conn' hconn'
    rw [hq.entry] at hd
    obtain ⟨hmem, hown, hkeyed, other, hother, hsame⟩ := hs.held c conn d hconn hd
    obtain ⟨other', hother', hq'⟩ := forth d other hother
    rw [hq.owner, hq.call]
    exact ⟨members d hmem, hown, hkeyed, other', hother', by rw [hq'.call]; exact hsame⟩
  · intro d entry hentry
    obtain ⟨_, conn', -, -, hconn', hok⟩ := entries hst d entry hentry
    exact ⟨conn', hconn', hok⟩
  · intro d entry' conn' signature hentry' hconn' hsignature
    obtain ⟨conn, hconn, hq⟩ := back d conn' hconn'
    obtain ⟨entry, _, hentry, hclosed, -, -⟩ := entries hst d entry' hentry'
    rw [hq.call] at hsignature
    rw [current]
    rcases hs.newest d entry conn signature hentry hconn hsignature with hnow | hold
    · exact Or.inl hnow
    · exact Or.inr (hclosed hold)
  · intro signature d hd
    rw [current] at hd
    obtain ⟨conn, hconn, hsignature⟩ := hs.current signature d hd
    obtain ⟨conn', hconn', hq⟩ := forth d conn hconn
    exact ⟨conn', hconn', by rw [hq.call]; exact hsignature⟩
  · intro c hc
    obtain ⟨conn, hconn, howner, hwritten⟩ := hs.wrote c (wrote c hc)
    obtain ⟨conn', hconn', hq⟩ := forth c conn hconn
    exact ⟨conn', hconn', by rw [hq.owner]; exact howner, by rw [hq.written]; exact hwritten⟩
  · intro c reply source hmem
    rcases received hst c reply source hmem with hold | hnew
    · obtain ⟨conn, hconn, hpast, hholds⟩ := hs.received c reply source hold
      obtain ⟨conn', hconn', hq⟩ := forth c conn hconn
      refine ⟨conn', hconn', hq.past hpast, ?_⟩
      rw [hq.entry]
      exact hholds.since hst
    · exact hnew
  · intro n call hcall
    obtain ⟨conn, hconn, heq⟩ := hs.requests n call (requests n call hcall)
    obtain ⟨conn', hconn', hq⟩ := forth n conn hconn
    exact ⟨conn', hconn', by rw [hq.call]; exact heq⟩
  · exact responses

section Insert

variable {s : World} {c : String} {conn conn' : Conn}

theorem quiet_back (hc : s.conns.get? c = some conn) (hq : Quiet conn conn') (x : String)
    (k' : Conn) (hk' : (s.conns.insert c conn').get? x = some k') :
    ∃ k, s.conns.get? x = some k ∧ Quiet k k' := by
  rw [Dict.get?_insert] at hk'
  by_cases hx : x = c
  · subst hx
    rw [if_pos rfl] at hk'
    cases hk'
    exact ⟨conn, hc, hq⟩
  · rw [if_neg hx] at hk'
    exact ⟨k', hk', Quiet.refl k'⟩

theorem quiet_forth (hc : s.conns.get? c = some conn) (hq : Quiet conn conn') (x : String)
    (k : Conn) (hk : s.conns.get? x = some k) :
    ∃ k', (s.conns.insert c conn').get? x = some k' ∧ Quiet k k' := by
  rw [Dict.get?_insert]
  by_cases hx : x = c
  · subst hx
    rw [hc] at hk
    cases hk
    exact ⟨conn', if_pos rfl, hq⟩
  · exact ⟨k, by rw [if_neg hx]; exact hk, Quiet.refl k⟩

/-- The places of the other threads. -/
theorem Sound.phases_insert {t : World} (hs : s.Sound) (conns : t.conns = s.conns.insert c conn')
    (phase : s.Since t → t.PhaseOk c conn') (hst : s.Since t) (x : String) (k' : Conn)
    (hk' : t.conns.get? x = some k') : t.PhaseOk x k' := by
  rw [conns, Dict.get?_insert] at hk'
  by_cases hx : x = c
  · subst hx
    rw [if_pos rfl] at hk'
    cases hk'
    exact phase hst
  · rw [if_neg hx] at hk'
    exact (hs.phase x k' hk').since hst

/-- An entry that a step of one connection leaves alone. -/
theorem Sound.entry_kept {t : World} (hs : s.Sound) (hst : s.Since t)
    (conns : t.conns = s.conns.insert c conn') (hc : s.conns.get? c = some conn)
    (hq : Quiet conn conn') (wrote : ∀ n, .wrote n ∈ t.log → .wrote n ∈ s.log) {d : String}
    {entry : Entry} (hentry : s.entries.get? d = some entry)
    (hunderway : d = c → conn.owner = true → conn.entry = some c →
      conn'.phase.underway = conn.phase.underway) :
    ∃ k', t.conns.get? d = some k' ∧ t.EntryOk d entry k' := by
  obtain ⟨k, hk, hok⟩ := hs.entry d entry hentry
  rw [conns, Dict.get?_insert]
  by_cases hd : d = c
  · subst hd
    rw [hc] at hk
    cases hk
    refine ⟨conn', if_pos rfl, hok.since hst (wrote d) hq ?_⟩
    exact hunderway rfl hok.owner hok.own
  · refine ⟨k, by rw [if_neg hd]; exact hk, ?_⟩
    exact hok.since hst (wrote d) (Quiet.refl k) rfl

/-- A step of one connection that keeps its variables and writes nothing. -/
theorem Sound.advance {t : World} (hs : s.Sound) (hc : s.conns.get? c = some conn)
    (hq : Quiet conn conn') (conns : t.conns = s.conns.insert c conn')
    (hunderway : conn.owner = true → conn.entry = some c →
      conn'.phase.underway = conn.phase.underway)
    (entries : t.entries = s.entries) (current : t.current = s.current) (log : t.log = s.log)
    (requests : ∀ n call, t.requests.get? n = some call → s.requests.get? n = some call)
    (responses : ∀ n reply, t.responses.get? n = some reply → s.responses.get? n = some reply)
    (phase : s.Since t → t.PhaseOk c conn') : t.Sound := by
  have hwrote : ∀ n, .wrote n ∈ t.log → .wrote n ∈ s.log := by
    intro n hn
    rwa [log] at hn
  apply hs.carry current
  · intro d hd
    rw [entries]
    exact hd
  · rw [conns]
    exact quiet_back hc hq
  · rw [conns]
    exact quiet_forth hc hq
  · intro e he
    rw [log]
    exact he
  · exact hwrote
  · intro _ x reply source hx
    rw [log] at hx
    exact Or.inl hx
  · exact requests
  · intro n reply hreply
    rw [log]
    exact hs.responses n reply (responses n reply hreply)
  · intro hst d entry hentry
    rw [entries] at hentry
    obtain ⟨k', hk', hok⟩ := hs.entry_kept hst conns hc hq hwrote hentry fun _ => hunderway
    exact ⟨entry, k', hentry, fun h => h, hk', hok⟩
  · exact hs.phases_insert conns phase

end Insert

end World

end RcpGraph.Commands
