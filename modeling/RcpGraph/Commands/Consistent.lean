import RcpGraph.Commands.Serving

/-!
Commands are sent, run and answered consistently over whole runs of broker and server.
-/

namespace RcpGraph.Commands

namespace World

/-- The owner of a keyed call is without its answer. -/
def Awaits (s : World) (signature : Signature) (c : String) : Prop :=
  ∃ conn, s.conns.get? c = some conn ∧ conn.owner = true ∧
    conn.call.signature = some signature ∧ conn.phase.underway = true

/-- Two connections made the same call. -/
def SameCall (s : World) (d c : String) : Prop :=
  ∃ first second, s.conns.get? d = some first ∧ s.conns.get? c = some second ∧
    first.call.verb = second.call.verb ∧ first.call.key = second.call.key ∧
      first.call.arguments.canonical = second.call.arguments.canonical

structure Consistent (s : World) : Prop where
  owners : ∀ signature c d, s.Awaits signature c → s.Awaits signature d → c = d
  /-- A call is written again only after the last answer reached a client. -/
  rewritten : ∀ later c earlier, s.log = later ++ .wrote c :: earlier → ∀ d,
    .wrote d ∈ earlier → (s.signatureOf c).isSome = true → s.signatureOf d = s.signatureOf c →
      ∃ x reply, .received x reply (some d) ∈ earlier
  answered : ∀ c reply source fields, .received c reply source ∈ s.log →
    reply.result = .fields fields → ∃ d given transient, .gave d given transient ∈ s.log ∧
      reply = given.answering c ∧ s.SameCall d c
  handled : ∀ n call, .ran n call ∈ s.log → ∃ conn, s.conns.get? n = some conn ∧ conn.call = call
  /-- A client is told "not sent" before any request that carries its call is written. -/
  told : ∀ later c reply source earlier, s.log = later ++ .received c reply source :: earlier →
    reply.NotSent → ∀ n, .wrote n ∈ earlier → ¬ s.Carries n c
  /-- Its own request is not written later either. -/
  unwritten : ∀ c reply source, .received c reply source ∈ s.log → reply.NotSent →
    .wrote c ∉ s.log
  givenOnce : ∀ n reply reply', .gave n reply false ∈ s.log → .gave n reply' false ∈ s.log →
    reply = reply'
  /-- Once an answer is kept, the handler does not run again and no other answer is given. -/
  keptOnce : ∀ later n reply earlier, s.log = later ++ .kept n reply :: earlier →
    (∀ call, .ran n call ∉ later) ∧ ∀ given transient, .gave n given transient ∈ later →
      given = reply

theorem meets_closing {s : World} {c : String} {conn : Conn} {choice : Choice}
    (hc : s.conns.get? c = some conn) (h : s.meets (.turn c choice) = true)
    (hgoes : choice = .goes) (hphase : conn.phase = .closing) (error : String) :
    s.marker ≠ some (.garbled error) := by
  subst hgoes
  intro hmarker
  simp only [meets, hc, hphase, hmarker] at h
  cases h

theorem start_sound : World.start.Sound := by
  constructor <;> intros <;> simp_all [World.start]

theorem start_served : World.start.Served := by
  constructor
  · intro _ n reply h
    cases h
  all_goals simp [World.start, Ordered]

theorem start_honest : World.start.Honest := by
  constructor <;> intros <;> simp_all [World.start, refused]

/-- The invariants of the broker, of the server, and of what is told. -/
structure Kept (s : World) : Prop where
  sound : s.Sound
  served : s.Served
  honest : s.Honest

theorem step_kept {s t : World} {mailboxId : String} {action : Action} (hk : s.Kept)
    (hmeets : s.meets action = true) (h : s.step mailboxId action = some t) : t.Kept := by
  obtain ⟨hs, hv, hh⟩ := hk
  cases action with
  | connect call =>
      obtain ⟨hserver, hcalls, hlog⟩ := connect_frame h
      exact ⟨connect_sound hs h, hv.broker hs hserver hcalls (Or.inl hlog),
        connect_honest hs hh h⟩
  | turn c choice =>
      cases hc : s.conns.get? c with
      | none =>
          simp only [step, hc] at h
          cases h
      | some conn =>
          simp only [step, hc] at h
          obtain ⟨hserver, hcalls, hlog⟩ := turn_frame hs hh hc h
          exact ⟨turn_sound hs hc (meets_closing hc hmeets) h, hv.broker hs hserver hcalls hlog,
            turn_honest hs hh hc hmeets h⟩
  | serve action =>
      obtain ⟨hconns, hentries, hwrote⟩ := serve_frame h
      exact ⟨serve_sound hs hv h, serve_served hs hv h, hh.unseen hconns hentries hwrote⟩
  | stop =>
      cases h
      exact ⟨hs.served rfl rfl rfl rfl (Or.inl rfl) (Or.inl rfl),
        hv.placed rfl rfl rfl rfl rfl hv.place, hh.unseen rfl rfl fun _ h => h⟩
  | suspend =>
      cases h
      exact ⟨hs.served rfl rfl rfl rfl (Or.inl rfl) (Or.inl rfl),
        hv.placed rfl rfl rfl rfl rfl hv.place, hh.unseen rfl rfl fun _ h => h⟩
  | mark marker =>
      cases h
      exact ⟨hs.served rfl rfl rfl rfl (Or.inl rfl) (Or.inl rfl),
        hv.placed rfl rfl rfl rfl rfl hv.place, hh.unseen rfl rfl fun _ h => h⟩

theorem signature_same {first second : Call} (hkeyed : first.signature.isSome = true)
    (h : second.signature = first.signature) : first.verb = second.verb ∧ first.key = second.key ∧
      first.arguments.canonical = second.arguments.canonical := by
  obtain ⟨signature, hsignature⟩ := Option.isSome_iff_exists.mp hkeyed
  rw [hsignature] at h
  unfold Call.signature at h hsignature
  split at hsignature
  · cases hsignature
  · split at h
    · cases h
    · obtain ⟨key, hkey, heq⟩ := Option.map_eq_some_iff.mp hsignature
      obtain ⟨key', hkey', heq'⟩ := Option.map_eq_some_iff.mp h
      rw [← heq] at heq'
      obtain ⟨hverb, hrest⟩ := Prod.mk.injEq .. ▸ heq'
      obtain ⟨hkeys, harguments⟩ := Prod.mk.injEq .. ▸ hrest
      rw [hkey, hkey', hkeys]
      exact ⟨hverb.symm, rfl, harguments.symm⟩

section Consistent

variable {s : World}

/-- An owner without its answer is the newest of its signature. -/
theorem Sound.awaits_current (hs : s.Sound) {signature : Signature} {c : String}
    (h : s.Awaits signature c) : s.current.get? signature = some c := by
  obtain ⟨conn, hc, howner, hsignature, hunderway⟩ := h
  have hkeyed : conn.call.signature.isSome = true := by
    rw [hsignature]
    rfl
  obtain ⟨entry, hentry⟩ := (Dict.mem_iff_exists _ _).mp
    (hs.held c conn c hc (hs.owned c conn hc howner hkeyed)).1
  obtain ⟨k, hk, hok⟩ := hs.entry c entry hentry
  rw [hc] at hk
  cases hk
  refine (hs.newest c entry conn signature hentry hc hsignature).resolve_right ?_
  rintro ⟨hdone, -⟩
  rw [hok.underway, hunderway] at hdone
  cases hdone

theorem Sound.sameCall (hs : s.Sound) {c d : String} {conn : Conn}
    (hc : s.conns.get? c = some conn) (hd : d = c ∨ conn.entry = some d) : s.SameCall d c := by
  rcases hd with rfl | hd
  · exact ⟨conn, conn, hc, hc, rfl, rfl, rfl⟩
  · obtain ⟨-, -, hkeyed, other, hother, hsame⟩ := hs.held c conn d hc hd
    rw [← hsame] at hkeyed
    exact ⟨other, conn, hother, hc, signature_same hkeyed hsame.symm⟩

/-- What was kept before it stays the only answer. -/
theorem Served.kept_once (hv : s.Served) {later earlier : List Event} {n : String} {reply : Reply}
    (hlog : s.log = later ++ .kept n reply :: earlier) :
    (∀ call, .ran n call ∉ later) ∧ ∀ given transient, .gave n given transient ∈ later →
      given = reply := by
  have hsplit : ∀ e ∈ later, ∃ between, s.Follows (between ++ .kept n reply :: earlier) e := by
    intro e he
    obtain ⟨newer, between, rfl⟩ := List.append_of_mem he
    have hsplit : s.log = newer ++ e :: (between ++ .kept n reply :: earlier) := by
      rw [hlog]
      simp
    exact ⟨between, hv.ordered.split hsplit⟩
  constructor
  · intro call hran
    obtain ⟨between, hfollows⟩ := hsplit _ hran
    exact hfollows reply (by simp)
  · intro given transient hgave
    obtain ⟨between, hfollows⟩ := hsplit _ hgave
    exact (hfollows.2 reply (by simp)).symm

theorem consistent_of_kept (hk : s.Kept) : s.Consistent := by
  obtain ⟨hs, hv, -⟩ := hk
  constructor
  · intro signature c d hc hd
    have hcurrent := hs.awaits_current hc
    rw [hs.awaits_current hd] at hcurrent
    cases hcurrent
    rfl
  · intro later c earlier hlog
    exact hv.ordered.split hlog
  · intro c reply source fields hreceived hfields
    obtain ⟨conn, hc, -, hholds⟩ := hs.received c reply source hreceived
    obtain ⟨d, given, transient, hd, hgave, heq⟩ := hholds.answer fields hfields
    exact ⟨d, given, transient, hgave, heq, hs.sameCall hc hd⟩
  · exact hv.ran
  · intro later c reply source earlier hlog hnot n hwrote
    exact hv.ordered.split hlog hnot n hwrote
  · intro c reply source hreceived hnot
    obtain ⟨conn, hc, -, hholds⟩ := hs.received c reply source hreceived
    exact (hholds.told hnot).1.1
  · intro n reply reply' hgave hgave'
    obtain ⟨later, earlier, hlog⟩ := List.append_of_mem hgave
    have hkept := (hv.ordered.split hlog).1 rfl
    obtain ⟨later', earlier', hlog'⟩ := List.append_of_mem hgave'
    have hkept' := (hv.ordered.split hlog').1 rfl
    have hin : .kept n reply ∈ s.log := by
      rw [hlog]
      exact List.mem_append_right _ (List.mem_cons_of_mem _ hkept)
    have hin' : .kept n reply' ∈ s.log := by
      rw [hlog']
      exact List.mem_append_right _ (List.mem_cons_of_mem _ hkept')
    have hsame := hv.answered n reply hin
    rw [hv.answered n reply' hin'] at hsame
    cases hsame
    rfl
  · intro later n reply earlier hlog
    exact hv.kept_once hlog

end Consistent

end World

/-- In every run whose steps meet the condition, commands are consistent in every state
reached. -/
theorem commands_consistent {mailboxId : String} {s : World}
    (h : Steps.Reached (World.step mailboxId) (fun s a => s.meets a = true) World.start s) :
    s.Consistent := by
  have hkept : s.Kept := by
    refine h.invariant World.Kept
      ⟨World.start_sound, World.start_served, World.start_honest⟩ ?_
    intro t u a ht hmeets hstep
    exact World.step_kept ht hmeets hstep
  exact World.consistent_of_kept hkept

/-- A keyed call of one client. -/
def firstCall : Call :=
  ⟨"c0000000000000000000000000000001", "launch", some "k", .null⟩

/-- Another call. -/
def otherCall : Call := ⟨"c0000000000000000000000000000003", "launch", some "other", .null⟩

/-- A call is written, handled, kept, answered and received. A closed mailbox refuses another
one, which no request carries. -/
def answeredRun : List Action :=
  [.connect firstCall, .turn firstCall.requestId .goes, .turn firstCall.requestId .goes,
    .turn firstCall.requestId .goes, .serve .next, .serve .next, .serve (.read .request),
    .serve (.handle (.responds .ok none [])), .serve .next, .serve (.write true),
    .turn firstCall.requestId .goes, .turn firstCall.requestId .goes,
    .turn firstCall.requestId .goes, .connect otherCall,
    .mark (some (World.closureMarker "m" "turn stopped")), .turn otherCall.requestId .goes,
    .turn otherCall.requestId .goes]

/-- The marker turns up in the middle of the wait and is not JSON. -/
def garbledRun : List Action :=
  [.connect firstCall, .turn firstCall.requestId .goes, .turn firstCall.requestId .goes,
    .turn firstCall.requestId .goes, .turn firstCall.requestId .goes,
    .mark (some (.garbled "Expecting value")), .turn firstCall.requestId .goes,
    .turn firstCall.requestId .goes, .turn firstCall.requestId .goes]

/-- The state a run ends in. -/
def World.after (meets : World → Action → Bool) (actions : List Action) : Option World :=
  Steps.runWhile (World.step "m") meets actions World.start

theorem commands_consistent_answered :
    ∃ s, World.after World.meets answeredRun = some s ∧ s.Consistent ∧
      .received firstCall.requestId ⟨firstCall.requestId, .ok, none, .fields []⟩
        (some firstCall.requestId) ∈ s.log ∧
      .received otherCall.requestId { errorReply otherCall.requestId "turn stopped" .unavailable
        .notSent with result := .delivery .notSent true } none ∈ s.log := by
  have hrun : (World.after World.meets answeredRun).any (fun s =>
      .received firstCall.requestId ⟨firstCall.requestId, .ok, none, .fields []⟩
        (some firstCall.requestId) ∈ s.log ∧
      .received otherCall.requestId { errorReply otherCall.requestId "turn stopped" .unavailable
        .notSent with result := .delivery .notSent true } none ∈ s.log) = true := by
    decide +kernel
  obtain ⟨s, hs, hlog⟩ := Option.any_eq_true _ _ |>.mp hrun
  exact ⟨s, hs, commands_consistent (Steps.reached_runWhile .start hs), of_decide_eq_true hlog⟩

/-- The same call again. -/
def secondCall : Call := { firstCall with requestId := "c0000000000000000000000000000002" }

/-- A closed mailbox refuses the second call while the first one's request is out. -/
def repeatedRun : List Action :=
  [.connect firstCall, .turn firstCall.requestId .goes, .turn firstCall.requestId .goes,
    .turn firstCall.requestId .goes, .connect secondCall,
    .mark (some (World.closureMarker "m" "turn stopped")), .turn secondCall.requestId .goes,
    .turn secondCall.requestId .goes]

/-- A client is told that its call was not sent, though its request was written, and another
one though the request of the same call was. -/
theorem told_not_sent_though_written :
    (∃ s, Steps.Reached (World.step "m") (fun _ _ => True) World.start s ∧
      ∃ reply source, .received firstCall.requestId reply source ∈ s.log ∧ reply.NotSent ∧
        .wrote firstCall.requestId ∈ s.log ∧ ¬ s.Consistent) ∧
    ∃ s, Steps.Reached (World.step "m") (fun _ _ => True) World.start s ∧
      ∃ reply source earlier, s.log = .received secondCall.requestId reply source :: earlier ∧
        reply.NotSent ∧ .wrote firstCall.requestId ∈ earlier ∧ ¬ s.Consistent := by
  constructor
  · have hrun : (World.after (fun _ _ => true) garbledRun).any (fun s =>
        .wrote firstCall.requestId ∈ s.log ∧ .received firstCall.requestId
          (failedReply firstCall.requestId true (.rejected "Expecting value"))
          (some firstCall.requestId) ∈ s.log) = true := by
      decide +kernel
    obtain ⟨s, hs, hlog⟩ := Option.any_eq_true _ _ |>.mp hrun
    obtain ⟨hwrote, hreceived⟩ := of_decide_eq_true hlog
    have hreached := Steps.reached_runWhile .start hs
    refine ⟨s, hreached.mono fun _ _ _ => trivial, _, _, hreceived, ⟨false, rfl⟩, hwrote, ?_⟩
    intro hconsistent
    exact hconsistent.unwritten _ _ _ hreceived ⟨false, rfl⟩ hwrote
  · have hrun : (World.after (fun _ _ => true) repeatedRun).any (fun s =>
        s.log = [.received secondCall.requestId { errorReply secondCall.requestId "turn stopped"
            .unavailable .notSent with result := .delivery .notSent true } none,
          .wrote firstCall.requestId] ∧ s.Carries firstCall.requestId secondCall.requestId) =
        true := by
      decide +kernel
    obtain ⟨s, hs, hlog⟩ := Option.any_eq_true _ _ |>.mp hrun
    obtain ⟨hlog, hcarries⟩ := of_decide_eq_true hlog
    have hreached := Steps.reached_runWhile .start hs
    have hwrote : Event.wrote firstCall.requestId ∈ [Event.wrote firstCall.requestId] :=
      List.mem_cons_self
    refine ⟨s, hreached.mono fun _ _ _ => trivial, _, _, _, hlog, ⟨true, rfl⟩, hwrote, ?_⟩
    intro hconsistent
    exact hconsistent.told [] _ _ _ _ hlog ⟨true, rfl⟩ _ hwrote hcarries

end RcpGraph.Commands
