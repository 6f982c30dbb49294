import RcpGraph.Commands.Ownership

/-!
Each step of a connection keeps the broker's invariant.
-/

namespace RcpGraph.Commands

theorem unavailableReply_result (requestId error : String) (written : Bool) :
    (unavailableReply requestId error written).result =
      .delivery (if written then .unknown else .notSent) false := by
  cases written <;> rfl

theorem failedReply_result (requestId : String) (written : Bool) (failure : Failure) :
    ∃ label, (failedReply requestId written failure).result = .delivery label false := by
  cases failure with
  | unavailable error => exact ⟨_, unavailableReply_result requestId error written⟩
  | rejected error => exact ⟨_, rfl⟩

/-- What a closure marker says. -/
theorem closedResponse_ok {mailboxId requestId : String} {marker : Option Marker} {reply : Reply}
    (h : closedResponse mailboxId requestId marker = .ok (some reply)) :
    reply.result = .delivery .notSent true := by
  unfold closedResponse at h
  split at h
  · cases h
  · cases h
  · cases h
  · split at h
    · split at h
      · cases h
        rfl
      · cases h
    · cases h

/-- Only a marker that is not JSON is taken for a bad request. -/
theorem closedResponse_error {mailboxId requestId : String} {marker : Option Marker}
    {failure : Failure} (h : closedResponse mailboxId requestId marker = .error failure) :
    (∃ error, failure = .unavailable error) ∨ ∃ error, marker = some (.garbled error) := by
  unfold closedResponse at h
  split at h
  · cases h
  · cases h
    exact Or.inl ⟨_, rfl⟩
  · exact Or.inr ⟨_, rfl⟩
  · split at h
    · split at h
      · cases h
      · cases h
        exact Or.inl ⟨_, rfl⟩
    · cases h
      exact Or.inl ⟨_, rfl⟩

namespace World

section Turn

variable {s : World} {c : String} {conn : Conn}

theorem Sound.unwritten (hs : s.Sound) (hc : s.conns.get? c = some conn)
    (hw : conn.owner = false ∨ conn.written = false) : .wrote c ∉ s.log := by
  intro hwrote
  obtain ⟨conn', hconn', howner, hwritten⟩ := hs.wrote c hwrote
  rw [hc] at hconn'
  cases hconn'
  rcases hw with hw | hw
  · rw [hw] at howner
    cases howner
  · rw [hw] at hwritten
    cases hwritten

/-- The entry of a connection that owns or holds none is its own. -/
theorem Sound.own_entry (hs : s.Sound) (hc : s.conns.get? c = some conn)
    (hw : conn.owner = true ∨ conn.entry = none) {d : String} (hd : conn.entry = some d) :
    d = c := by
  rcases hw with hw | hw
  · exact (hs.held c conn d hc hd).2.1 hw
  · rw [hw] at hd
    cases hd

/-- The next place of a thread whose variables stay. -/
theorem Sound.moved (hs : s.Sound) (hc : s.conns.get? c = some conn) {phase : Phase}
    (underway : conn.owner = true → conn.entry = some c → phase.underway = conn.phase.underway)
    (past : conn.phase.past = true → phase.past = true)
    (hphase : s.Since (s.withConn c { conn with phase := phase }) →
      (s.withConn c { conn with phase := phase }).PhaseOk c { conn with phase := phase }) :
    (s.withConn c { conn with phase := phase }).Sound := by
  have hq : Quiet conn { conn with phase := phase } := ⟨rfl, rfl, rfl, rfl, past⟩
  exact hs.advance hc hq rfl underway rfl rfl rfl (fun _ _ h => h) (fun _ _ h => h) hphase

theorem get?_withConn (s : World) (c : String) (conn : Conn) :
    (s.withConn c conn).conns.get? c = some conn := by
  unfold withConn
  rw [Dict.get?_insert_self]

/-- A reply of the broker before the request was written. -/
theorem Sound.holds_unsent (hs : s.Sound) (hc : s.conns.get? c = some conn)
    (hwritten : conn.written = false) (hentry : conn.owner = true ∨ conn.entry = none)
    {phase : Phase} (hpast : phase.past = true) {reply : Reply} {label : Delivery}
    {permanent : Bool} (hreply : reply.result = .delivery label permanent) :
    (s.withConn c { conn with phase := phase }).Holds c conn.entry reply := by
  have hunsent : (s.withConn c { conn with phase := phase }).Unsent c :=
    ⟨hs.unwritten hc (Or.inr hwritten), _, get?_withConn s c _, hpast⟩
  apply holds_of_delivery hreply
  intro _
  refine ⟨hunsent, ?_⟩
  intro d hd
  rw [hs.own_entry hc hentry hd]
  exact hunsent

theorem holds_unknown {c : String} {entry : Option String} {reply : Reply} {permanent : Bool}
    (s : World) (h : reply.result = .delivery .unknown permanent) : s.Holds c entry reply :=
  holds_of_delivery h fun h => by cases h

/-- The answer in the response file. -/
theorem Sound.holds_response (hs : s.Sound) {reply : Reply} (hreply : s.responses.get? c = some reply)
    (hid : reply.requestId = c) (entry : Option String) : s.Holds c entry reply := by
  obtain ⟨⟨fields, hfields⟩, transient, hgave⟩ := hs.responses c reply hreply
  constructor
  · intro _ _
    refine ⟨c, reply, transient, Or.inl rfl, hgave, ?_⟩
    unfold Reply.answering
    rw [← hid]
  · rintro ⟨permanent, hnot⟩
    rw [hfields] at hnot
    cases hnot

theorem checking_sound (hs : s.Sound) (hc : s.conns.get? c = some conn)
    (hphase : conn.phase = .checking) :
    (∀ failure, (s.withConn c
      { conn with phase := .settled (failedReply c conn.written failure) }).Sound) ∧
      (∀ reply, reply.result = .delivery .notSent true →
        (s.withConn c { conn with phase := .sending reply false }).Sound) ∧
      (s.withConn c { conn with phase := .joining }).Sound := by
  have hok := hs.phase c conn hc
  unfold PhaseOk at hok
  rw [hphase] at hok
  obtain ⟨howner, hentry, hwritten⟩ := hok
  have hnone : conn.entry ≠ some c := by
    rw [hentry]
    simp
  refine ⟨?_, ?_, ?_⟩
  · intro failure
    obtain ⟨label, hlabel⟩ := failedReply_result c conn.written failure
    apply hs.moved hc (fun _ h => absurd h hnone) (fun _ => rfl)
    intro _
    exact ⟨fun _ => hentry, hs.holds_unsent hc hwritten (Or.inr hentry) rfl hlabel⟩
  · intro reply hreply
    apply hs.moved hc (fun _ h => absurd h hnone) (fun _ => rfl)
    intro _
    exact ⟨hs.holds_unsent hc hwritten (Or.inr hentry) rfl hreply, fun h => by cases h⟩
  · apply hs.moved hc (fun _ h => absurd h hnone) (fun h => by rw [hphase] at h; cases h)
    intro _
    exact ⟨howner, hentry, hwritten⟩

theorem writing_failed_sound (hs : s.Sound) (hc : s.conns.get? c = some conn)
    (hphase : conn.phase = .writing) (failure : Failure) :
    (s.withConn c { conn with phase := .settled (failedReply c conn.written failure) }).Sound := by
  have hok := hs.phase c conn hc
  unfold PhaseOk at hok
  rw [hphase] at hok
  obtain ⟨howner, hwritten⟩ := hok
  obtain ⟨label, hlabel⟩ := failedReply_result c conn.written failure
  apply hs.moved hc (fun _ _ => by rw [hphase]; rfl) (fun _ => rfl)
  intro _
  refine ⟨fun h => ?_, hs.holds_unsent hc hwritten (Or.inl howner) rfl hlabel⟩
  have h : conn.owner = false := h
  rw [howner] at h
  cases h

/-- From one place of a request that is out to another. -/
theorem Sound.underways (hs : s.Sound) (hc : s.conns.get? c = some conn) {phase phase' : Phase}
    (hphase : conn.phase = phase) (hsame : phase'.underway = phase.underway)
    (hpast : phase.past = false)
    (hok : s.Since (s.withConn c { conn with phase := phase' }) →
      (s.withConn c { conn with phase := phase' }).PhaseOk c { conn with phase := phase' }) :
    (s.withConn c { conn with phase := phase' }).Sound := by
  refine hs.moved hc (fun _ _ => ?_) (fun h => ?_) hok
  · rw [hphase]
    exact hsame
  · rw [hphase, hpast] at h
    cases h

/-- A reply found while the request is out. -/
theorem Sound.settles (hs : s.Sound) (hc : s.conns.get? c = some conn)
    (hunderway : conn.phase.underway = true) (howner : conn.owner = true) {reply : Reply}
    (hreply : s.Since (s.withConn c { conn with phase := .settled reply }) →
      (s.withConn c { conn with phase := .settled reply }).Holds c conn.entry reply) :
    (s.withConn c { conn with phase := .settled reply }).Sound := by
  refine hs.moved hc (fun _ _ => ?_) (fun _ => rfl) ?_
  · rw [hunderway]
    rfl
  intro hst
  refine ⟨fun h => ?_, hreply hst⟩
  have h : conn.owner = false := h
  rw [howner] at h
  cases h

theorem failedReply_unknown (c error : String) :
    (failedReply c true (.unavailable error)).result = .delivery .unknown false := by
  unfold failedReply
  rw [unavailableReply_result]
  rfl

theorem polling_sound (hs : s.Sound) (hc : s.conns.get? c = some conn)
    (hphase : conn.phase = .polling) :
    (∀ error, (s.withConn c
      { conn with phase := .settled (failedReply c conn.written (.unavailable error)) }).Sound) ∧
      (s.withConn c { conn with phase := s.polled c conn }).Sound := by
  have hok := hs.phase c conn hc
  unfold PhaseOk at hok
  rw [hphase] at hok
  obtain ⟨howner, hwritten⟩ := hok
  have hunderway : conn.phase.underway = true := by
    rw [hphase]
    rfl
  have hfailed : ∀ error, (s.withConn c
      { conn with phase := .settled (failedReply c conn.written (.unavailable error)) }).Sound := by
    intro error
    apply hs.settles hc hunderway howner
    intro _
    rw [hwritten]
    exact holds_unknown _ (failedReply_unknown c error)
  refine ⟨hfailed, ?_⟩
  cases hresponse : s.responses.get? c with
  | none =>
      simp only [polled, hresponse]
      refine hs.underways hc hphase rfl rfl ?_
      intro _
      exact ⟨howner, hwritten⟩
  | some reply =>
      simp only [polled, hresponse]
      by_cases hid : reply.requestId = c
      · rw [if_neg (not_not.mpr hid)]
        have hholds := hs.holds_response hresponse hid conn.entry
        by_cases hask : (conn.call.verb = "ask" && reply.pending) = true
        · rw [if_pos hask]
          refine hs.underways hc hphase rfl rfl ?_
          intro hst
          exact ⟨howner, hwritten, hholds.since hst⟩
        · rw [if_neg hask]
          exact hs.settles hc hunderway howner fun hst => hholds.since hst
      · rw [if_pos hid]
        exact hfailed _

theorem closing_sound (hs : s.Sound) (hc : s.conns.get? c = some conn)
    (hphase : conn.phase = .closing) (mailboxId : String)
    (hmarker : ∀ error, s.marker ≠ some (.garbled error)) :
    (s.withConn c { conn with phase := s.closed mailboxId c conn }).Sound := by
  have hok := hs.phase c conn hc
  unfold PhaseOk at hok
  rw [hphase] at hok
  obtain ⟨howner, hwritten⟩ := hok
  have hunderway : conn.phase.underway = true := by
    rw [hphase]
    rfl
  unfold closed
  cases hclosed : closedResponse mailboxId c s.marker with
  | error failure =>
      rcases closedResponse_error hclosed with ⟨error, rfl⟩ | ⟨error, hgarbled⟩
      · apply hs.settles hc hunderway howner
        intro _
        rw [hwritten]
        exact holds_unknown _ (failedReply_unknown c error)
      · exact absurd hgarbled (hmarker error)
  | ok found =>
      cases found with
      | none =>
          refine hs.underways hc hphase rfl rfl ?_
          intro _
          exact ⟨howner, hwritten⟩
      | some reply =>
          exact hs.settles hc hunderway howner fun _ => holds_unknown _ rfl

/-- Unlinking the files of an open round. -/
theorem clearing_sound (hs : s.Sound) (hc : s.conns.get? c = some conn) {reply : Reply}
    {gone : Bool} (hphase : conn.phase = .clearing reply gone) {phase : Phase}
    (hnext : phase = .clearing reply true ∨ phase = .settled reply) {requests : Dict String Call}
    {responses : Dict String Reply}
    (hrequests : ∀ n call, requests.get? n = some call → s.requests.get? n = some call)
    (hresponses : ∀ n reply, responses.get? n = some reply → s.responses.get? n = some reply) :
    ({ s.withConn c { conn with phase := phase } with
      requests := requests, responses := responses } : World).Sound := by
  have hok := hs.phase c conn hc
  unfold PhaseOk at hok
  rw [hphase] at hok
  obtain ⟨howner, hwritten, hholds⟩ := hok
  have hq : Quiet conn { conn with phase := phase } := by
    refine ⟨rfl, rfl, rfl, rfl, fun h => ?_⟩
    rw [hphase] at h
    cases h
  refine hs.advance hc hq rfl (fun _ _ => ?_) rfl rfl rfl hrequests hresponses ?_
  · rw [hphase]
    rcases hnext with rfl | rfl <;> rfl
  intro hst
  rcases hnext with rfl | rfl
  · exact ⟨howner, hwritten, hholds.since hst⟩
  · refine ⟨fun h => ?_, hholds.since hst⟩
    have h : conn.owner = false := h
    rw [howner] at h
    cases h

/-- The entry a settled owner files its reply in. -/
theorem settle_entry {d : String} (h : (if conn.owner then conn.entry else none) = some d) :
    conn.owner = true ∧ conn.entry = some d := by
  cases howner : conn.owner with
  | false =>
      rw [howner] at h
      cases h
  | true =>
      rw [howner] at h
      exact ⟨rfl, h⟩

theorem settle_sound (hs : s.Sound) (hc : s.conns.get? c = some conn) {reply : Reply}
    (hphase : conn.phase = .settled reply) : (s.settle c conn reply).Sound := by
  have hok := hs.phase c conn hc
  unfold PhaseOk at hok
  rw [hphase] at hok
  obtain ⟨-, hholds⟩ := hok
  unfold settle
  cases hfiled : (if conn.owner then conn.entry else none) with
  | none =>
      refine hs.moved hc (fun howner hown => ?_) (fun _ => rfl) ?_
      · rw [howner, hown] at hfiled
        cases hfiled
      · intro hst
        exact ⟨hholds.since hst, fun h => by cases h⟩
  | some d =>
      obtain ⟨howner, hentry⟩ := settle_entry hfiled
      obtain rfl := hs.own_entry hc (Or.inl howner) hentry
      have hq : Quiet conn { conn with phase := .sending reply true } :=
        ⟨rfl, rfl, rfl, rfl, fun _ => rfl⟩
      obtain ⟨hmem, -, hkeyed, -⟩ := hs.held d conn d hc hentry
      refine hs.carry rfl ?_ (quiet_back hc hq) (quiet_forth hc hq) (fun _ h => h)
        (fun _ h => h) (fun _ _ _ _ h => Or.inl h) (fun _ _ h => h) hs.responses ?_ ?_
      · intro e he
        exact (Dict.mem_insert _ _ _ _).mpr (Or.inr he)
      · intro hst e entry' hentry'
        rw [Dict.get?_insert] at hentry'
        by_cases he : e = d
        · subst he
          rw [if_pos rfl] at hentry'
          cases hentry'
          obtain ⟨entry, hold⟩ := (Dict.mem_iff_exists _ _).mp hmem
          obtain ⟨other, hother, hentryOk⟩ := hs.entry e entry hold
          rw [hc] at hother
          cases hother
          refine ⟨entry, _, hold, ?_, get?_withConn s e _, howner, hentry, hkeyed, rfl, ?_, ?_⟩
          · rintro ⟨hdone, -⟩
            rw [hentryOk.underway, hphase] at hdone
            cases hdone
          · intro _
            refine ⟨reply, rfl, ?_, ?_⟩
            · rw [hentry] at hholds
              exact hholds.since hst
            · intro hwrote
              obtain ⟨other, hother, -, hwritten⟩ := hs.wrote e hwrote
              rw [hc] at hother
              cases hother
              exact hwritten
          · intro hdelivered
            rw [hold] at hdelivered
            exact hentryOk.delivered hdelivered
        · rw [if_neg he] at hentry'
          obtain ⟨k', hk', hok'⟩ := hs.entry_kept hst rfl hc hq (fun _ h => h) hentry'
            fun h => absurd h he
          exact ⟨entry', k', hentry', fun h => h, hk', hok'⟩
      · apply hs.phases_insert rfl
        intro hst
        refine ⟨hholds.since hst, fun _ => ?_⟩
        rw [hentry]
        rfl

theorem waiting_sound (hs : s.Sound) (hc : s.conns.get? c = some conn)
    (hphase : conn.phase = .waiting) {choice : Choice} {t : World}
    (h : s.joined c conn choice = some t) : t.Sound := by
  have hok := hs.phase c conn hc
  unfold PhaseOk at hok
  rw [hphase] at hok
  obtain ⟨howner, hsome⟩ := hok
  obtain ⟨d, hd⟩ := Option.isSome_iff_exists.mp hsome
  obtain ⟨hmem, -, -, -⟩ := hs.held c conn d hc hd
  have hunderway : ∀ phase : Phase, conn.owner = true → conn.entry = some c →
      phase.underway = conn.phase.underway := by
    intro phase hown
    rw [howner] at hown
    cases hown
  have hpast : ∀ phase : Phase, conn.phase.past = true → phase.past = true := by
    intro phase h
    rw [hphase] at h
    cases h
  unfold joined at h
  split at h
  · rename_i reply sent delivered hentry
    cases h
    rw [hd, Option.bind_some] at hentry
    obtain ⟨other, hother, hentryOk⟩ := hs.entry d _ hentry
    obtain ⟨reply', hreply', hholds, -⟩ := hentryOk.answered rfl
    cases hreply'
    refine hs.moved hc (hunderway _) (hpast _) ?_
    intro hst
    refine ⟨⟨?_, ?_⟩, fun _ => hsome⟩
    · intro fields hfields
      obtain ⟨e, given, transient, he, hgave, heq⟩ := hholds.answer fields hfields
      have hde : e = d := by
        rcases he with rfl | he
        · rfl
        · cases he
          rfl
      refine ⟨d, given, transient, Or.inr hd, hst.log _ (by rw [← hde]; exact hgave), ?_⟩
      rw [heq]
      rfl
    · intro hnot
      obtain ⟨hunsent, -⟩ := hholds.told hnot
      refine ⟨⟨hs.unwritten hc (Or.inl howner), _, get?_withConn s c _, rfl⟩, ?_⟩
      intro e he
      have he : conn.entry = some e := he
      rw [hd] at he
      cases he
      exact hst.unsent d hunsent
  · cases h
    refine hs.moved hc (hunderway _) (hpast _) ?_
    intro _
    exact ⟨holds_unknown _ (unavailableReply_result _ _ _), fun h => by cases h⟩
  · cases h

/-- A thread that raises before it owns a call. -/
theorem crashed_sound (hs : s.Sound) (hc : s.conns.get? c = some conn)
    (hphase : conn.phase = .checking ∨ conn.phase = .joining) :
    (s.withConn c { conn with phase := .ended }).Sound := by
  have hok := hs.phase c conn hc
  unfold PhaseOk at hok
  have hentry : conn.entry = none := by
    rcases hphase with hphase | hphase <;>
    · rw [hphase] at hok
      exact hok.2.1
  refine hs.moved hc (fun _ h => ?_) (fun _ => rfl) fun _ => trivial
  rw [hentry] at h
  cases h

/-- An owner that raises while its request is being written or is out. -/
theorem lost_sound (hs : s.Sound) (hc : s.conns.get? c = some conn) (howner : conn.owner = true)
    {phase : Phase} (hphase : conn.phase = phase) (hunderway : phase.underway = true)
    (hpast : phase.past = false) : (s.withConn c { conn with phase := .lost }).Sound := by
  refine hs.underways hc hphase ?_ hpast fun _ => howner
  rw [hunderway]
  rfl

theorem vanished_sound (hs : s.Sound) (hc : s.conns.get? c = some conn) {reply : Reply}
    {answersEntry : Bool} (hphase : conn.phase = .sending reply answersEntry) :
    (s.withConn c { conn with phase := .ended }).Sound := by
  refine hs.moved hc (fun _ _ => ?_) (fun _ => rfl) fun _ => trivial
  rw [hphase]
  rfl

theorem send_sound (hs : s.Sound) (hc : s.conns.get? c = some conn) {reply : Reply}
    {answersEntry : Bool} (hphase : conn.phase = .sending reply answersEntry) :
    (s.send c conn reply answersEntry).Sound := by
  have hok := hs.phase c conn hc
  unfold PhaseOk at hok
  rw [hphase] at hok
  obtain ⟨hholds, hsome⟩ := hok
  have hplace : ∀ {phase : Phase}, phase = (if answersEntry then .marking else .ended) →
      phase.past = true ∧ phase.underway = false := by
    rintro phase rfl
    cases answersEntry <;> exact ⟨rfl, rfl⟩
  unfold send
  have hq : Quiet conn { conn with phase := if answersEntry then .marking else .ended } :=
    ⟨rfl, rfl, rfl, rfl, fun _ => (hplace rfl).1⟩
  have hwrote : ∀ n, .wrote n ∈ Event.received c reply (if answersEntry then conn.entry else none) :: s.log →
      .wrote n ∈ s.log := by
    intro n hn
    simpa using hn
  refine hs.carry rfl (fun _ h => h) (quiet_back hc hq) (quiet_forth hc hq)
    (fun _ h => List.mem_cons_of_mem _ h) hwrote ?_ (fun _ _ h => h) ?_ ?_ ?_
  · intro hst x r source hmem
    rcases List.mem_cons.mp hmem with heq | hold
    · cases heq
      exact Or.inr ⟨_, get?_withConn s c _, (hplace rfl).1, hholds.since hst⟩
    · exact Or.inl hold
  · intro n r hr
    obtain ⟨hfields, transient, hgave⟩ := hs.responses n r hr
    exact ⟨hfields, transient, List.mem_cons_of_mem _ hgave⟩
  · intro hst d entry hentry
    obtain ⟨k', hk', hok'⟩ := hs.entry_kept hst rfl hc hq hwrote hentry fun _ _ _ => by
      rw [hphase]
      exact (hplace rfl).2
    exact ⟨entry, k', hentry, fun h => h, hk', hok'⟩
  · apply hs.phases_insert rfl
    intro _
    cases answersEntry with
    | false => trivial
    | true =>
        obtain ⟨d, hd⟩ := Option.isSome_iff_exists.mp (hsome rfl)
        refine ⟨d, reply, hd, List.mem_cons.mpr (Or.inl ?_)⟩
        simp [hd]

theorem mark_sound (hs : s.Sound) (hc : s.conns.get? c = some conn)
    (hphase : conn.phase = .marking) : (s.mark c conn).Sound := by
  have hok := hs.phase c conn hc
  unfold PhaseOk at hok
  rw [hphase] at hok
  obtain ⟨d, reply, hd, hreceived⟩ := hok
  obtain ⟨hmem, -, -, -⟩ := hs.held c conn d hc hd
  obtain ⟨entry, hentry⟩ := (Dict.mem_iff_exists _ _).mp hmem
  have hmark : s.mark c conn = { s.withConn c { conn with phase := .ended } with
      entries := s.entries.insert d { entry with delivered := true } } := by
    simp only [mark, hd, hentry]
  rw [hmark]
  have hq : Quiet conn { conn with phase := .ended } := ⟨rfl, rfl, rfl, rfl, fun _ => rfl⟩
  have hkept : s.Since { s.withConn c { conn with phase := .ended } with
        entries := s.entries.insert d { entry with delivered := true } } →
      ∀ e old, s.entries.get? e = some old →
        ∃ k', (s.conns.insert c { conn with phase := .ended }).get? e = some k' ∧
          ({ s.withConn c { conn with phase := .ended } with
            entries := s.entries.insert d { entry with delivered := true } } : World).EntryOk
              e old k' := by
    intro hst e old hold
    refine hs.entry_kept hst rfl hc hq (fun _ h => h) hold fun _ _ _ => ?_
    rw [hphase]
    rfl
  refine hs.carry rfl ?_ (quiet_back hc hq) (quiet_forth hc hq) (fun _ h => h) (fun _ h => h)
    (fun _ _ _ _ h => Or.inl h) (fun _ _ h => h) hs.responses ?_ ?_
  · intro e he
    exact (Dict.mem_insert _ _ _ _).mpr (Or.inr he)
  · intro hst e entry' hentry'
    rw [Dict.get?_insert] at hentry'
    by_cases he : e = d
    · subst he
      rw [if_pos rfl] at hentry'
      cases hentry'
      obtain ⟨k', hk', hok'⟩ := hkept hst e entry hentry
      refine ⟨entry, k', hentry, fun h => ⟨h.1, Or.inl rfl⟩, hk', ?_⟩
      exact ⟨hok'.owner, hok'.own, hok'.keyed, hok'.underway, hok'.answered,
        fun _ => ⟨c, reply, hreceived⟩⟩
    · rw [if_neg he] at hentry'
      obtain ⟨k', hk', hok'⟩ := hkept hst e entry' hentry'
      exact ⟨entry', k', hentry', fun h => h, hk', hok'⟩
  · apply hs.phases_insert rfl
    intro _
    trivial

end Turn

end World

end RcpGraph.Commands
