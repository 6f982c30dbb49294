import RcpGraph.Commands.Admission

/-!
Who is told that a call was not sent. A request carries the calls of its signature, and a
client that makes one again may be refused before its connection looks for the first.
-/

namespace RcpGraph.Commands.World

/-- The signature of a connection's call. -/
def signatureOf (s : World) (c : String) : Option Signature :=
  (s.conns.get? c).bind fun conn => conn.call.signature

/-- The requests that carry a connection's call: its own, and those of its signature. -/
def Carries (s : World) (n c : String) : Prop :=
  n = c ∨ (s.signatureOf c).isSome = true ∧ s.signatureOf n = s.signatureOf c

instance (s : World) (n c : String) : Decidable (s.Carries n c) :=
  inferInstanceAs (Decidable (_ ∨ _))

/-- A request that carries the call of a connection was written. -/
def written (s : World) (c : String) : Bool :=
  s.log.any fun e =>
    match e with
    | .wrote d => decide (s.Carries d c)
    | _ => false

/-- The reply that is on its way to a connection's client. -/
def due (s : World) (conn : Conn) : Option Reply :=
  match conn.phase with
  | .settled reply => some reply
  | .sending reply _ => some reply
  | .waiting =>
      match conn.entry.bind s.entries.get? with
      | some ⟨true, response, _, _⟩ => response
      | _ => none
  | _ => none

/-- "Not sent" is on its way to a connection's client. -/
def refused (s : World) (c : String) : Bool :=
  (s.conns.get? c).any fun conn => (s.due conn).any fun reply => reply.NotSent

/-- "Not sent" is on its way to a client that made the call of a connection. -/
def refusing (s : World) (c : String) : Bool :=
  s.conns.keys.any fun x => s.refused x && decide (s.Carries x c)

/-- A step that tells no client "not sent" of a call that a written request carries: a thread
that waits for its response does not read a closure marker that is not JSON; a connection is
refused before its write, or fails to write, only while no request carries its call; and a
request is written only while no client that made its call is being refused. -/
def meets (s : World) : Action → Bool
  | .turn c choice =>
      match s.conns.get? c with
      | none => true
      | some conn =>
          match conn.phase, choice with
          | .closing, .goes =>
              match s.marker with
              | some (.garbled _) => false
              | _ => true
          | .checking, .goes => s.marker.isNone || !s.written c
          | .checking, .fails _ => !s.written c
          | .writing, .fails _ => !s.written c
          | .writing, .goes => !s.refusing c
          | _, _ => true
  | _ => true

variable {s t : World} {c : String} {conn conn' : Conn}

theorem written_iff : s.written c = true ↔ ∃ d, .wrote d ∈ s.log ∧ s.Carries d c := by
  rw [written, List.any_eq_true]
  constructor
  · rintro ⟨e, he, hcarries⟩
    cases e with
    | wrote d => exact ⟨d, he, of_decide_eq_true hcarries⟩
    | received | ran | kept | gave => cases hcarries
  · rintro ⟨d, hd, hcarries⟩
    exact ⟨_, hd, decide_eq_true hcarries⟩

/-- A reply is on its way: the connection has it, or the entry that it waits for. -/
theorem due_iff {reply : Reply} : s.due conn = some reply ↔
    conn.phase = .settled reply ∨ (∃ answersEntry, conn.phase = .sending reply answersEntry) ∨
      conn.phase = .waiting ∧ ∃ d entry, conn.entry = some d ∧ s.entries.get? d = some entry ∧
        entry.done = true ∧ entry.response = some reply := by
  unfold due
  cases hphase : conn.phase with
  | settled found => simp
  | sending found answersEntry => simp
  | waiting =>
      simp only [reduceCtorEq, false_or, exists_false, true_and]
      cases hentry : conn.entry.bind s.entries.get? with
      | none =>
          simp only [reduceCtorEq, false_iff]
          rintro ⟨d, entry, hd, hfound, -⟩
          rw [hd, Option.bind_some, hfound] at hentry
          cases hentry
      | some entry =>
          obtain ⟨d, hd, hfound⟩ := Option.bind_eq_some_iff.mp hentry
          obtain ⟨done, response, sent, delivered⟩ := entry
          constructor
          · intro h
            cases done with
            | false => cases h
            | true => exact ⟨d, _, hd, hfound, rfl, h⟩
          · rintro ⟨e, entry, he, hother, hdone, hresponse⟩
            rw [hd] at he
            cases he
            rw [hfound] at hother
            cases hother
            cases hdone
            exact hresponse
  | checking | joining | writing | polling | closing | clearing | marking | ended | lost => simp

/-- What waits for an entry that is done as before. -/
theorem due_since {reply : Reply} (h : t.due conn = some reply)
    (hentries : ∀ d entry, conn.entry = some d → t.entries.get? d = some entry →
      entry.done = true → ∃ old, s.entries.get? d = some old ∧ old.done = true ∧
        old.response = entry.response) : s.due conn = some reply := by
  rw [due_iff] at h ⊢
  rcases h with h | h | ⟨hphase, d, entry, hd, hentry, hdone, hresponse⟩
  · exact Or.inl h
  · exact Or.inr (Or.inl h)
  · obtain ⟨old, hold, holdDone, hsame⟩ := hentries d entry hd hentry hdone
    exact Or.inr (Or.inr ⟨hphase, d, old, hd, hold, holdDone, hsame.trans hresponse⟩)

theorem refused_iff : s.refused c = true ↔
    ∃ conn reply, s.conns.get? c = some conn ∧ s.due conn = some reply ∧ reply.NotSent := by
  simp only [refused, Option.any_eq_true, decide_eq_true_eq]
  constructor
  · rintro ⟨conn, hconn, reply, hdue, hnot⟩
    exact ⟨conn, reply, hconn, hdue, hnot⟩
  · rintro ⟨conn, reply, hconn, hdue, hnot⟩
    exact ⟨conn, hconn, reply, hdue, hnot⟩

theorem carries_comm (d c : String) : s.Carries d c ↔ s.Carries c d := by
  have hone : ∀ d c, s.Carries d c → s.Carries c d := by
    rintro d c (rfl | ⟨hkeyed, hsame⟩)
    · exact Or.inl rfl
    · exact Or.inr ⟨by rw [hsame]; exact hkeyed, hsame.symm⟩
  exact ⟨hone d c, hone c d⟩

theorem refusing_of_refused {x : String} (hx : s.refused x = true) (hcarries : s.Carries x c) :
    s.refusing c = true := by
  obtain ⟨k, _, hk, -, -⟩ := refused_iff.mp hx
  refine List.any_eq_true.mpr ⟨x, Dict.mem_of_get? hk, ?_⟩
  rw [hx, decide_eq_true hcarries]
  rfl

/-- Calls never change. -/
def Calls (s t : World) : Prop :=
  ∀ c conn, s.conns.get? c = some conn → ∃ conn', t.conns.get? c = some conn' ∧ conn'.call = conn.call

theorem Calls.signatureOf (h : s.Calls t) {c : String} (hc : c ∈ s.conns) :
    t.signatureOf c = s.signatureOf c := by
  obtain ⟨conn, hconn⟩ := (Dict.mem_iff_exists _ _).mp hc
  obtain ⟨conn', hconn', hcall⟩ := h c conn hconn
  unfold World.signatureOf
  rw [hconn, hconn', Option.bind_some, Option.bind_some, hcall]

/-- What a request carries is known from the calls. -/
theorem Calls.carries (h : s.Calls t) {d c : String} (hd : d ∈ s.conns) (hc : c ∈ s.conns) :
    t.Carries d c ↔ s.Carries d c := by
  rw [Carries, Carries, h.signatureOf hd, h.signatureOf hc]

/-- "Not sent" is told of calls that no written request carries. -/
structure Honest (s : World) : Prop where
  refused : ∀ c, s.refused c = true → s.written c = false
  unsent : ∀ d entry reply, s.entries.get? d = some entry → entry.done = true →
    entry.response = some reply → reply.NotSent → entry.sent = false
  unwritten : ∀ c conn reply, s.conns.get? c = some conn → conn.phase = .settled reply →
    reply.NotSent → conn.owner = true → conn.written = false

/-- Without a new request, what no request carried stays so. -/
theorem written_since (hs : s.Sound) (calls : s.Calls t)
    (wrote : ∀ d, .wrote d ∈ t.log → .wrote d ∈ s.log) (hc : c ∈ s.conns)
    (h : s.written c = false) : t.written c = false := by
  rw [Bool.eq_false_iff, ne_eq, written_iff] at h ⊢
  rintro ⟨d, hd, hcarries⟩
  obtain ⟨k, hk, -⟩ := hs.wrote d (wrote d hd)
  exact h ⟨d, wrote d hd, (calls.carries (Dict.mem_of_get? hk) hc).mp hcarries⟩

/-- A step of one connection that writes no request. -/
theorem Honest.turned (hs : s.Sound) (hh : s.Honest) (hc : s.conns.get? c = some conn)
    (conns : t.conns = s.conns.insert c conn') (call : conn'.call = conn.call)
    (wrote : ∀ d, .wrote d ∈ t.log → .wrote d ∈ s.log)
    (others : ∀ x k reply, x ≠ c → s.conns.get? x = some k → t.due k = some reply →
      reply.NotSent → s.due k = some reply ∨ s.written x = false)
    (own : ∀ reply, t.due conn' = some reply → reply.NotSent →
      s.due conn = some reply ∨ s.written c = false)
    (unsent : ∀ d entry reply, t.entries.get? d = some entry → entry.done = true →
      entry.response = some reply → reply.NotSent → entry.sent = false)
    (unwritten : ∀ reply, conn'.phase = .settled reply → reply.NotSent → conn'.owner = true →
      conn'.written = false) : t.Honest := by
  have hcalls : s.Calls t := by
    intro x k hk
    rw [conns, Dict.get?_insert]
    by_cases hx : x = c
    · subst hx
      rw [hc] at hk
      cases hk
      exact ⟨conn', if_pos rfl, call⟩
    · exact ⟨k, by rw [if_neg hx]; exact hk, rfl⟩
  constructor
  · intro x hx
    obtain ⟨k, reply, hk, hdue, hnot⟩ := refused_iff.mp hx
    rw [conns, Dict.get?_insert] at hk
    by_cases hxc : x = c
    · subst hxc
      rw [if_pos rfl] at hk
      cases hk
      refine written_since hs hcalls wrote (Dict.mem_of_get? hc) ?_
      rcases own reply hdue hnot with hold | hnone
      · exact hh.refused x (refused_iff.mpr ⟨conn, reply, hc, hold, hnot⟩)
      · exact hnone
    · rw [if_neg hxc] at hk
      refine written_since hs hcalls wrote (Dict.mem_of_get? hk) ?_
      rcases others x k reply hxc hk hdue hnot with hold | hnone
      · exact hh.refused x (refused_iff.mpr ⟨k, reply, hk, hold, hnot⟩)
      · exact hnone
  · exact unsent
  · intro x k reply hk
    rw [conns, Dict.get?_insert] at hk
    by_cases hxc : x = c
    · rw [if_pos hxc] at hk
      cases hk
      exact unwritten reply
    · rw [if_neg hxc] at hk
      exact hh.unwritten x k reply hk

/-- A step of one connection that leaves the entries alone. -/
theorem Honest.moved (hs : s.Sound) (hh : s.Honest) (hc : s.conns.get? c = some conn)
    (conns : t.conns = s.conns.insert c conn') (call : conn'.call = conn.call)
    (entries : t.entries = s.entries) (wrote : ∀ d, .wrote d ∈ t.log → .wrote d ∈ s.log)
    (own : ∀ reply, t.due conn' = some reply → reply.NotSent →
      s.due conn = some reply ∨ s.written c = false)
    (unwritten : ∀ reply, conn'.phase = .settled reply → reply.NotSent → conn'.owner = true →
      conn'.written = false) : t.Honest := by
  have hdue : ∀ k, t.due k = s.due k := by
    intro k
    unfold due
    rw [entries]
  refine hh.turned hs hc conns call wrote (fun x k reply _ _ h _ => ?_) own ?_ unwritten
  · rw [hdue] at h
    exact Or.inl h
  · rw [entries]
    exact hh.unsent

/-- A step of one connection after which nothing is on its way to its client. -/
theorem Honest.silent (hs : s.Sound) (hh : s.Honest) (hc : s.conns.get? c = some conn)
    (conns : t.conns = s.conns.insert c conn') (call : conn'.call = conn.call)
    (entries : t.entries = s.entries) (wrote : ∀ d, .wrote d ∈ t.log → .wrote d ∈ s.log)
    (hnone : t.due conn' = none) : t.Honest := by
  refine hh.moved hs hc conns call entries wrote (fun reply h => ?_) fun reply hphase => ?_
  · rw [hnone] at h
    cases h
  · rw [due, hphase] at hnone
    cases hnone

/-- A reply that is found where none was due does not say "not sent". -/
theorem Honest.answered (hs : s.Sound) (hh : s.Honest) (hc : s.conns.get? c = some conn)
    (conns : t.conns = s.conns.insert c conn') (call : conn'.call = conn.call)
    (entries : t.entries = s.entries) (wrote : ∀ d, .wrote d ∈ t.log → .wrote d ∈ s.log)
    (hsent : ∀ reply, t.due conn' = some reply → ¬ reply.NotSent) : t.Honest := by
  refine hh.moved hs hc conns call entries wrote (fun reply h hnot => ?_) fun reply hphase hnot => ?_
  · exact absurd hnot (hsent reply h)
  · refine absurd hnot (hsent reply ?_)
    rw [due, hphase]

/-- A connection that is refused before its write. -/
theorem Honest.refuses (hs : s.Sound) (hh : s.Honest) (hc : s.conns.get? c = some conn)
    (hwritten : conn.written = false) (hnone : s.written c = false) (phase : Phase) :
    (s.withConn c { conn with phase := phase }).Honest :=
  hh.moved hs hc rfl rfl rfl (fun _ h => h) (fun _ _ _ => Or.inr hnone) fun _ _ _ _ => hwritten

theorem not_told_unknown {reply : Reply} {permanent : Bool}
    (h : reply.result = .delivery .unknown permanent) : ¬ reply.NotSent := by
  rintro ⟨_, hnot⟩
  rw [h] at hnot
  cases hnot

theorem Sound.response_told (hs : s.Sound) {n : String} {reply : Reply}
    (h : s.responses.get? n = some reply) : ¬ reply.NotSent := by
  obtain ⟨⟨fields, hfields⟩, -⟩ := hs.responses n reply h
  rintro ⟨_, hnot⟩
  rw [hfields] at hnot
  cases hnot

/-- A reply whose files are still to be unlinked was given to a written request. -/
theorem Sound.clearing_told (hs : s.Sound) (hc : s.conns.get? c = some conn) {reply : Reply}
    {gone : Bool} (hphase : conn.phase = .clearing reply gone) : ¬ reply.NotSent := by
  intro hnot
  have hok := hs.phase c conn hc
  unfold PhaseOk at hok
  rw [hphase] at hok
  obtain ⟨⟨-, k, hk, hpast⟩, -⟩ := hok.2.2.told hnot
  rw [hc] at hk
  cases hk
  rw [hphase] at hpast
  cases hpast

theorem join_honest (hs : s.Sound) (hh : s.Honest) (hc : s.conns.get? c = some conn)
    (hphase : conn.phase = .joining) : (s.join c conn).Honest := by
  have hok := hs.phase c conn hc
  unfold PhaseOk at hok
  rw [hphase] at hok
  have hnot := hs.no_entry hc hok.1
  cases hsignature : conn.call.signature with
  | none =>
      rw [join_unkeyed hsignature]
      exact hh.silent hs hc rfl rfl rfl (fun _ h => h) rfl
  | some signature =>
      cases hjoin : s.joinable signature with
      | some d =>
          rw [join_joined hsignature hjoin]
          refine hh.moved hs hc rfl rfl rfl (fun _ h => h) ?_ fun _ h => by cases h
          intro reply hdue hnot
          -- an entry that is joined done was sent, so its answer does not say "not sent"
          unfold joinable at hjoin
          obtain ⟨-, hany⟩ := Option.filter_eq_some_iff.mp hjoin
          obtain ⟨entry, hentry, hopen⟩ := Option.any_eq_true _ _ |>.mp hany
          rcases due_iff.mp hdue with h | ⟨_, h⟩ | ⟨-, e, found, he, hfound, hdone, hresponse⟩
          · cases h
          · cases h
          · cases he
            have hsame : s.entries.get? d = some found := hfound
            rw [hentry] at hsame
            cases hsame
            rw [hdone, hh.unsent d entry reply hentry hdone hresponse hnot] at hopen
            simp at hopen
      | none =>
          rw [join_owns hsignature hjoin]
          refine hh.turned hs hc rfl rfl (fun _ h => h) ?_ (fun _ h => by cases h) ?_
            fun _ h => by cases h
          · intro x k reply hx hk hdue _
            refine Or.inl (due_since hdue fun d entry hd hentry _ => ?_)
            have hdc : d ≠ c := by
              rintro rfl
              exact hnot (hs.held x k d hk hd).1
            have hentry : (s.entries.insert c Entry.fresh).get? d = some entry := hentry
            rw [get?_insert_ne hdc] at hentry
            exact ⟨entry, hentry, by assumption, rfl⟩
          · intro d entry reply hentry hdone
            rw [Dict.get?_insert] at hentry
            split at hentry
            · cases hentry
              cases hdone
            · exact hh.unsent d entry reply hentry hdone

theorem write_honest (hs : s.Sound) (hh : s.Honest) (hc : s.conns.get? c = some conn)
    (hnone : s.refusing c = false) : (s.writeRequest c conn).Honest := by
  have hcalls : s.Calls (s.writeRequest c conn) := by
    intro x k hk
    unfold writeRequest withConn
    rw [Dict.get?_insert]
    by_cases hx : x = c
    · subst hx
      rw [hc] at hk
      cases hk
      exact ⟨_, if_pos rfl, rfl⟩
    · exact ⟨k, by rw [if_neg hx]; exact hk, rfl⟩
  constructor
  · intro x hx
    obtain ⟨k, reply, hk, hdue, hnot⟩ := refused_iff.mp hx
    unfold writeRequest withConn at hk
    rw [Dict.get?_insert] at hk
    by_cases hxc : x = c
    · rw [if_pos hxc] at hk
      cases hk
      cases hdue
    · rw [if_neg hxc] at hk
      have hold : s.refused x = true := refused_iff.mpr ⟨k, reply, hk, hdue, hnot⟩
      have hunwritten := hh.refused x hold
      rw [Bool.eq_false_iff, ne_eq, written_iff] at hunwritten ⊢
      rintro ⟨d, hd, hcarries⟩
      rcases List.mem_cons.mp hd with heq | hd
      · cases heq
        rw [hcalls.carries (Dict.mem_of_get? hc) (Dict.mem_of_get? hk), carries_comm] at hcarries
        rw [refusing_of_refused hold hcarries] at hnone
        cases hnone
      · obtain ⟨other, hother, -⟩ := hs.wrote d hd
        exact hunwritten ⟨d, hd,
          (hcalls.carries (Dict.mem_of_get? hother) (Dict.mem_of_get? hk)).mp hcarries⟩
  · exact hh.unsent
  · intro x k reply hk hsettled
    unfold writeRequest withConn at hk
    rw [Dict.get?_insert] at hk
    split at hk
    · cases hk
      cases hsettled
    · exact hh.unwritten x k reply hk hsettled

theorem settle_honest (hs : s.Sound) (hh : s.Honest) (hc : s.conns.get? c = some conn)
    {reply : Reply} (hphase : conn.phase = .settled reply) : (s.settle c conn reply).Honest := by
  have hdue : s.due conn = some reply := by
    rw [due, hphase]
  unfold settle
  cases hfiled : (if conn.owner then conn.entry else none) with
  | none =>
      exact hh.moved hs hc rfl rfl rfl (fun _ h => h) (fun _ h _ => Or.inl (hdue.trans h))
        fun _ h => by cases h
  | some d =>
      obtain ⟨howner, hentry⟩ := settle_entry hfiled
      obtain rfl := hs.own_entry hc (Or.inl howner) hentry
      refine hh.turned hs hc rfl rfl (fun _ h => h) ?_ (fun _ h _ => Or.inl (hdue.trans h)) ?_
        fun _ h => by cases h
      · intro x k reply' hx hk hdue' hnot
        by_cases hwaits : k.phase = .waiting ∧ k.entry = some d
        · -- the owner's own refusal: the call is the same
          obtain ⟨hkphase, hheld⟩ := hwaits
          have hreply : reply' = reply := by
            rcases due_iff.mp hdue' with h | ⟨_, h⟩ | ⟨-, e, found, he, hfound, -, hresponse⟩
            · rw [hkphase] at h
              cases h
            · rw [hkphase] at h
              cases h
            · rw [hheld] at he
              cases he
              have hfound : (s.entries.insert d _).get? d = some found := hfound
              rw [Dict.get?_insert_self] at hfound
              cases hfound
              cases hresponse
              rfl
          subst hreply
          right
          have hunwritten := hh.refused d (refused_iff.mpr ⟨conn, _, hc, hdue, hnot⟩)
          obtain ⟨-, -, hkeyed, other, hother, hsame⟩ := hs.held x k d hk hheld
          have hsignature : s.signatureOf d = s.signatureOf x := by
            simp only [signatureOf, hother, hk, Option.bind_some, hsame]
          have hisSome : (s.signatureOf x).isSome = true := by
            simp only [signatureOf, hk, Option.bind_some, hkeyed]
          rw [Bool.eq_false_iff, ne_eq, written_iff] at hunwritten ⊢
          rintro ⟨n, hn, hcarries⟩
          refine hunwritten ⟨n, hn, Or.inr ?_⟩
          rw [hsignature]
          refine ⟨hisSome, ?_⟩
          rcases hcarries with rfl | ⟨-, hsame⟩
          · rfl
          · exact hsame
        · left
          rw [due_iff] at hdue' ⊢
          rcases hdue' with h | h | ⟨hkphase, e, entry, he, hentry, hrest⟩
          · exact Or.inl h
          · exact Or.inr (Or.inl h)
          · have hne : e ≠ d := by
              rintro rfl
              exact hwaits ⟨hkphase, he⟩
            have hentry : (s.entries.insert d _).get? e = some entry := hentry
            rw [get?_insert_ne hne] at hentry
            exact Or.inr (Or.inr ⟨hkphase, e, entry, he, hentry, hrest⟩)
      · intro e entry reply' he hdone hresponse hnot
        rw [Dict.get?_insert] at he
        split at he
        · cases he
          cases hresponse
          exact hh.unwritten d conn reply hc hphase hnot howner
        · exact hh.unsent e entry reply' he hdone hresponse hnot

theorem joined_honest (hs : s.Sound) (hh : s.Honest) (hc : s.conns.get? c = some conn)
    (hphase : conn.phase = .waiting) {choice : Choice} (h : s.joined c conn choice = some t) :
    t.Honest := by
  unfold joined at h
  split at h
  · rename_i reply sent delivered hentry
    cases h
    have hdue : s.due conn = some reply := by
      simp only [due, hphase, hentry]
    refine hh.moved hs hc rfl rfl rfl (fun _ h => h) ?_ fun _ h => by cases h
    intro reply' hnew hnot
    cases hnew
    exact Or.inr (hh.refused c (refused_iff.mpr ⟨conn, reply, hc, hdue, hnot⟩))
  · cases h
    refine hh.answered hs hc rfl rfl rfl (fun _ h => h) ?_
    intro reply hdue
    cases hdue
    exact not_told_unknown (unavailableReply_result _ _ _)
  · cases h

theorem mark_honest (hs : s.Sound) (hh : s.Honest) (hc : s.conns.get? c = some conn) :
    (s.mark c conn).Honest := by
  have hkept : ∀ d entry, (s.mark c conn).entries.get? d = some entry →
      ∃ old, s.entries.get? d = some old ∧ entry.done = old.done ∧
        entry.response = old.response ∧ entry.sent = old.sent := by
    intro d entry hentry
    unfold mark at hentry
    dsimp only at hentry
    split at hentry
    · exact ⟨entry, hentry, rfl, rfl, rfl⟩
    · rename_i e _
      split at hentry
      · exact ⟨entry, hentry, rfl, rfl, rfl⟩
      · rename_i old hold
        rw [Dict.get?_insert] at hentry
        split at hentry
        next heq =>
          cases hentry
          rw [heq]
          exact ⟨old, hold, rfl, rfl, rfl⟩
        next => exact ⟨entry, hentry, rfl, rfl, rfl⟩
  refine hh.turned hs hc rfl (show ({ conn with phase := .ended } : Conn).call = conn.call from rfl)
    (fun _ h => h) ?_
    (fun _ h => by cases h) ?_ fun _ h => by cases h
  · intro x k reply _ _ hdue _
    refine Or.inl (due_since hdue fun d entry _ hentry hdone => ?_)
    obtain ⟨old, hold, hsameDone, hsameResponse, -⟩ := hkept d entry hentry
    exact ⟨old, hold, hsameDone ▸ hdone, hsameResponse.symm⟩
  · intro d entry reply hentry hdone hresponse hnot
    obtain ⟨old, hold, hsameDone, hsameResponse, hsent⟩ := hkept d entry hentry
    rw [hsent]
    exact hh.unsent d old reply hold (hsameDone ▸ hdone) (hsameResponse ▸ hresponse) hnot

/-- The answer of a failed wait. -/
theorem failed_told (hw : conn.written = true) (error : String) :
    ¬ (failedReply c conn.written (.unavailable error)).NotSent := by
  rw [hw]
  exact not_told_unknown (failedReply_unknown c error)

theorem polled_told (hs : s.Sound) (hw : conn.written = true) (reply : Reply)
    (hdue : t.due { conn with phase := s.polled c conn } = some reply) : ¬ reply.NotSent := by
  unfold polled at hdue
  cases hresponse : s.responses.get? c with
  | none =>
      rw [hresponse] at hdue
      cases hdue
  | some found =>
      rw [hresponse] at hdue
      dsimp only at hdue
      split at hdue
      · cases hdue
        exact failed_told hw _
      · split at hdue
        · cases hdue
        · cases hdue
          exact hs.response_told hresponse

theorem closed_told (hw : conn.written = true) {mailboxId : String}
    (hmarker : ∀ error, s.marker ≠ some (.garbled error)) (reply : Reply)
    (hdue : t.due { conn with phase := s.closed mailboxId c conn } = some reply) :
    ¬ reply.NotSent := by
  unfold closed at hdue
  cases hclosed : closedResponse mailboxId c s.marker with
  | error failure =>
      rw [hclosed] at hdue
      cases hdue
      rcases closedResponse_error hclosed with ⟨error, rfl⟩ | ⟨error, hgarbled⟩
      · exact failed_told hw error
      · exact absurd hgarbled (hmarker error)
  | ok found =>
      rw [hclosed] at hdue
      cases found with
      | none => cases hdue
      | some found =>
          cases hdue
          exact not_told_unknown rfl

/-- Every step of a connection that meets the condition keeps what "not sent" says true. -/
theorem turn_honest (hs : s.Sound) (hh : s.Honest) (hc : s.conns.get? c = some conn)
    {mailboxId : String} {choice : Choice} (hmeets : s.meets (.turn c choice) = true)
    (h : s.turn mailboxId c conn choice = some t) : t.Honest := by
  have hplace := hs.phase c conn hc
  simp only [meets, hc] at hmeets
  unfold turn at h
  unfold PhaseOk at hplace
  split at h
  case h_24 => cases h
  all_goals rename_i hphase
  all_goals rw [hphase] at hplace
  all_goals simp only [hphase] at hmeets
  case h_1 failure =>
    cases h
    exact hh.refuses hs hc hplace.2.2 (by simpa using hmeets) _
  case h_2 =>
    -- a marker that is there refuses the connection, whatever it holds
    have hmarked : s.marker ≠ none → s.written c = false := by
      intro hmarker
      cases hm : s.marker with
      | none => exact absurd hm hmarker
      | some marker => simpa [hm] using hmeets
    split at h
    · rename_i hclosed
      cases h
      refine hh.refuses hs hc hplace.2.2 (hmarked fun hm => ?_) _
      rw [hm] at hclosed
      cases hclosed
    · rename_i hclosed
      cases h
      refine hh.refuses hs hc hplace.2.2 (hmarked fun hm => ?_) _
      rw [hm] at hclosed
      cases hclosed
    · cases h
      exact hh.silent hs hc rfl rfl rfl (fun _ h => h) rfl
  case h_3 =>
    cases h
    exact join_honest hs hh hc hphase
  case h_4 =>
    cases h
    exact write_honest hs hh hc (by simpa using hmeets)
  case h_5 failure =>
    cases h
    exact hh.refuses hs hc hplace.2 (by simpa using hmeets) _
  case h_6 =>
    cases h
    exact hh.answered hs hc rfl rfl rfl (fun _ h => h) (polled_told hs hplace.2)
  case h_7 error =>
    cases h
    exact hh.answered hs hc rfl rfl rfl (fun _ h => h) fun _ h => by
      cases h
      exact failed_told hplace.2 error
  case h_8 =>
    cases h
    exact hh.answered hs hc rfl rfl rfl (fun _ h => h) fun _ h => by
      cases h
      exact failed_told hplace.2 _
  case h_9 =>
    cases h
    have hmarker : ∀ error, s.marker ≠ some (.garbled error) := by
      intro error hm
      rw [hm] at hmeets
      cases hmeets
    exact hh.answered hs hc rfl rfl rfl (fun _ h => h) (closed_told hplace.2 hmarker)
  case h_10 | h_12 =>
    cases h
    exact hh.silent hs hc rfl rfl rfl (fun _ h => h) rfl
  case h_11 | h_13 =>
    cases h
    refine hh.answered hs hc rfl rfl rfl (fun _ h => h) fun _ h => ?_
    cases h
    exact hs.clearing_told hc hphase
  case h_14 =>
    cases h
    exact settle_honest hs hh hc hphase
  case h_15 => exact joined_honest hs hh hc hphase h
  case h_16 reply answersEntry =>
    cases h
    refine hh.silent hs hc rfl rfl rfl (fun _ h => ?_) ?_
    · simpa [send] using h
    · cases answersEntry <;> rfl
  case h_17 =>
    cases h
    exact hh.silent hs hc rfl rfl rfl (fun _ h => h) rfl
  case h_18 =>
    cases h
    exact mark_honest hs hh hc
  all_goals
    cases h
    exact hh.silent hs hc rfl rfl rfl (fun _ h => h) rfl

theorem connect_honest (hs : s.Sound) (hh : s.Honest) {call : Call}
    (h : s.connect call = some t) : t.Honest := by
  unfold connect at h
  split at h
  · cases h
  · rename_i hmem
    cases h
    have hne : ∀ {x : String}, x ∈ s.conns → x ≠ call.requestId := by
      rintro x hx rfl
      exact hmem hx
    have hcalls : s.Calls (s.withConn call.requestId ⟨call, none, false, false, .checking⟩) := by
      intro x k hk
      refine ⟨k, ?_, rfl⟩
      unfold withConn
      rw [get?_insert_ne (hne (Dict.mem_of_get? hk))]
      exact hk
    refine ⟨fun x hx => ?_, hh.unsent, fun x k reply hk hphase => ?_⟩
    · obtain ⟨k, reply, hk, hdue, hnot⟩ := refused_iff.mp hx
      unfold withConn at hk
      rw [Dict.get?_insert] at hk
      split at hk
      · cases hk
        cases hdue
      · refine written_since hs hcalls (fun _ h => h) (Dict.mem_of_get? hk) ?_
        exact hh.refused x (refused_iff.mpr ⟨k, reply, hk, hdue, hnot⟩)
    · unfold withConn at hk
      rw [Dict.get?_insert] at hk
      split at hk
      · cases hk
        cases hphase
      · exact hh.unwritten x k reply hk hphase

/-- What the broker's parts do not see. -/
theorem Honest.unseen (hh : s.Honest) (conns : t.conns = s.conns) (entries : t.entries = s.entries)
    (wrote : ∀ d, .wrote d ∈ t.log → .wrote d ∈ s.log) : t.Honest := by
  have hrefused : ∀ c, t.refused c = s.refused c := by
    intro c
    unfold World.refused due
    rw [conns, entries]
  have hcarries : ∀ d c, t.Carries d c ↔ s.Carries d c := by
    intro d c
    unfold Carries signatureOf
    rw [conns]
  constructor
  · intro c hc
    rw [hrefused] at hc
    have hnone := hh.refused c hc
    rw [Bool.eq_false_iff, ne_eq, written_iff] at hnone ⊢
    rintro ⟨d, hd, hcarry⟩
    exact hnone ⟨d, wrote d hd, (hcarries d c).mp hcarry⟩
  · rw [entries]
    exact hh.unsent
  · rw [conns]
    exact hh.unwritten

end RcpGraph.Commands.World
