import RcpGraph.Commands.Answers

/-!
Each step of the mailbox server keeps its invariant and the broker's.
-/

namespace RcpGraph.Commands.World

variable {s t : World}

theorem Ordered.same (conns : t.conns = s.conns) {log : List Event} (h : s.Ordered log) :
    t.Ordered log := by
  apply h.since
  intro c _
  unfold signatureOf
  rw [conns]

/-- A step of the server that leaves the answers, the checkpoint and the log alone. -/
theorem Served.placed (hv : s.Served) (conns : t.conns = s.conns) (log : t.log = s.log)
    (answers : t.server.answers = s.server.answers) (saved : t.server.saved = s.server.saved)
    (terminal : t.server.terminal = s.server.terminal) (place : t.ServingOk) : t.Served := by
  constructor
  · exact place
  · rw [log, answers]
    exact hv.answered
  · rw [log, saved]
    exact hv.saved
  · rw [log, saved]
    exact hv.savedKept
  · rw [terminal, saved]
    exact hv.terminal
  · rw [answers, saved]
    exact hv.fields
  · rw [log, conns]
    exact hv.ran
  · rw [log]
    exact hv.ordered.same conns

/-- An answer in hand, not yet checkpointed. -/
theorem Served.answers (hv : s.Served) {name : String} (hexact : s.Exact)
    (hnone : s.server.answers.get? name = none) {reply : Reply}
    (hfields : ∃ fields, reply.result = .fields fields) (terminal : Option String)
    {refusal : Option String}
    (hterminal : refusal = none → terminal = none) (hrefused : terminal = none → s.server.terminal = none)
    (transient : Bool) (rest : List String) :
    ((s.withServer { s.server with terminal := terminal }).answered name reply transient refusal
      rest).Served := by
  have hkept : ∀ r, .kept name r ∉ s.log := by
    intro r hr
    rw [hv.answered name r hr] at hnone
    cases hnone
  constructor
  · refine ⟨hterminal, ?_, hkept⟩
    intro n r hn hr
    refine hexact n r ?_
    rw [← get?_insert_ne hn]
    exact hr
  · intro n r hr
    have hn : n ≠ name := by
      rintro rfl
      exact hkept r hr
    have hold := hv.answered n r hr
    rw [← get?_insert_ne hn] at hold
    exact hold
  · exact hv.saved
  · exact hv.savedKept
  · intro h
    exact hv.terminal (hrefused h)
  · intro n r hr
    rcases hr with hr | hr
    · by_cases hn : n = name
      · subst hn
        have hr : (s.server.answers.insert n reply).get? n = some r := hr
        rw [Dict.get?_insert_self] at hr
        cases hr
        exact hfields
      · have hr : (s.server.answers.insert name reply).get? n = some r := hr
        rw [get?_insert_ne hn] at hr
        exact hv.fields n r (Or.inl hr)
    · exact hv.fields n r (Or.inr hr)
  · exact hv.ran
  · apply hv.ordered.same
    rfl

/-- A request is read, or answered without being read. -/
theorem read_served (hs : s.Sound) (hv : s.Served) {name : String} {rest : List String}
    (hserving : s.server.serving = .reading name rest) (outcome : ReadOutcome) :
    (s.readRequest name rest outcome).Served := by
  have hplace := hv.place
  unfold ServingOk at hplace
  rw [hserving] at hplace
  obtain ⟨hterminal, hexact, hnone⟩ := hplace
  have hanswer : ∀ reply : Reply, (∃ fields, reply.result = .fields fields) →
      (s.answered name reply false none rest).Served := by
    intro reply hfields
    exact hv.answers hexact hnone hfields s.server.terminal (fun _ => hterminal)
      (fun h => h) false rest
  cases outcome with
  | request =>
      unfold readRequest
      cases hrequest : s.requests.get? name with
      | none => exact hanswer _ ⟨[], rfl⟩
      | some call =>
          refine hv.placed rfl rfl rfl rfl rfl ?_
          exact ⟨hterminal, hexact, hnone, hs.requests name call hrequest⟩
  | invalid error => exact hanswer _ ⟨[], rfl⟩
  | refused error =>
      exact hv.answers hexact hnone ⟨[], rfl⟩ (some _) (fun h => by cases h) (fun h => by cases h)
        false rest

/-- The handler ran; nothing was kept for its request before. -/
theorem Served.runs (hv : s.Served) {name : String} {call : Call} {retries : Nat}
    {rest : List String} (hserving : s.server.serving = .handling name call retries rest) :
    ({ s with log := .ran name call :: s.log } : World).Served := by
  have hplace := hv.place
  unfold ServingOk at hplace
  rw [hserving] at hplace
  obtain ⟨hterminal, hexact, hnone, hconn⟩ := hplace
  have hkept : ∀ n r, .kept n r ∈ Event.ran name call :: s.log ↔ .kept n r ∈ s.log := by
    intro n r
    simp
  constructor
  · unfold ServingOk
    rw [hserving]
    refine ⟨hterminal, ?_, hnone, hconn⟩
    intro n r hr
    exact (hkept n r).mpr (hexact n r hr)
  · intro n r hr
    exact hv.answered n r ((hkept n r).mp hr)
  · intro n r hr
    exact hv.saved n r ((hkept n r).mp hr)
  · intro h n r hr
    exact (hkept n r).mpr (hv.savedKept h n r hr)
  · exact hv.terminal
  · exact hv.fields
  · intro n asked h
    rcases List.mem_cons.mp h with heq | h
    · cases heq
      exact hconn
    · exact hv.ran n asked h
  · constructor
    · intro r hr
      rw [hv.answered name r hr] at hnone
      cases hnone
    · apply hv.ordered.same
      rfl

theorem handle_served (hv : s.Served) {name : String} {call : Call} {retries : Nat}
    {rest : List String} (hserving : s.server.serving = .handling name call retries rest)
    (outcome : HandleOutcome) : (s.handleRequest name call retries rest outcome).Served := by
  have hplace := hv.place
  unfold ServingOk at hplace
  rw [hserving] at hplace
  obtain ⟨hterminal, hexact, hnone, hconn⟩ := hplace
  have hanswer : ∀ (reply : Reply) (transient : Bool), (∃ fields, reply.result = .fields fields) →
      (s.answered name reply transient none rest).Served := by
    intro reply transient hfields
    exact hv.answers hexact hnone hfields s.server.terminal (fun _ => hterminal)
      (fun h => h) transient rest
  cases outcome with
  | responds status message fields => exact hanswer _ _ ⟨fields, rfl⟩
  | raises error => exact hanswer _ _ ⟨[], rfl⟩
  | unreachable error =>
      cases retries with
      | zero => exact hanswer _ _ ⟨[], rfl⟩
      | succ retries =>
          refine hv.placed rfl rfl rfl rfl rfl ?_
          exact ⟨hterminal, hexact, hnone, hconn⟩

/-- The checkpoint of an answer. -/
theorem keep_served (hv : s.Served) {name : String} {refusal : Option String} {rest : List String}
    (hserving : s.server.serving = .keeping name false refusal rest) {reply : Reply}
    (hreply : s.server.answers.get? name = some reply) :
    ({ s with
      server := checkpoint { s.server with serving := .writing name false refusal rest }
      log := .kept name reply :: s.log } : World).Served := by
  have hplace := hv.place
  unfold ServingOk at hplace
  rw [hserving] at hplace
  obtain ⟨hterminal, hexact, hfresh⟩ := hplace
  have hanswered : ∀ n r, .kept n r ∈ Event.kept name reply :: s.log →
      s.server.answers.get? n = some r := by
    intro n r hr
    rcases List.mem_cons.mp hr with heq | hr
    · cases heq
      exact hreply
    · exact hv.answered n r hr
  have hkept : ∀ n r, s.server.answers.get? n = some r →
      .kept n r ∈ Event.kept name reply :: s.log := by
    intro n r hr
    by_cases hn : n = name
    · subst hn
      rw [hreply] at hr
      cases hr
      exact List.mem_cons_self
    · exact List.mem_cons_of_mem _ (hexact n r hn hr)
  constructor
  · refine ⟨hterminal, fun n r _ hr => hkept n r hr, fun h => ?_, fun _ r hr => hkept name r hr⟩
    cases h
  · exact hanswered
  · exact hanswered
  · exact fun _ => hkept
  · exact fun h => h
  · intro n r hr
    exact hv.fields n r (Or.inl (hr.elim id id))
  · intro n call h
    exact hv.ran n call (by simpa using h)
  · refine ⟨hfresh, ?_⟩
    apply hv.ordered.same
    rfl

/-- The response file is written with the answer in hand. -/
theorem Served.gives (hv : s.Served) {name : String} {transient : Bool} {refusal : Option String}
    {rest : List String} (hserving : s.server.serving = .writing name transient refusal rest)
    {reply : Reply} (hreply : s.server.answers.get? name = some reply) :
    ({ s with
      responses := s.responses.insert name reply
      log := .gave name reply transient :: s.log } : World).Served := by
  have hplace := hv.place
  unfold ServingOk at hplace
  rw [hserving] at hplace
  obtain ⟨hterminal, hexact, hfresh, hkeptName⟩ := hplace
  have hkept : ∀ n r, .kept n r ∈ Event.gave name reply transient :: s.log ↔ .kept n r ∈ s.log := by
    intro n r
    simp
  constructor
  · unfold ServingOk
    rw [hserving]
    refine ⟨hterminal, ?_, ?_, ?_⟩
    · intro n r hn hr
      exact (hkept n r).mpr (hexact n r hn hr)
    · intro h r hr
      exact hfresh h r ((hkept name r).mp hr)
    · intro h r hr
      exact (hkept name r).mpr (hkeptName h r hr)
  · intro n r hr
    exact hv.answered n r ((hkept n r).mp hr)
  · intro n r hr
    exact hv.saved n r ((hkept n r).mp hr)
  · intro h n r hr
    exact (hkept n r).mpr (hv.savedKept h n r hr)
  · exact hv.terminal
  · exact hv.fields
  · intro n call h
    exact hv.ran n call (by simpa using h)
  · refine ⟨⟨fun h => hkeptName h reply hreply, ?_⟩, ?_⟩
    · intro kept hold
      have hsame := hv.answered name kept hold
      rw [hreply] at hsame
      cases hsame
      rfl
    · apply hv.ordered.same
      rfl

theorem responded_served (hv : s.Served) {name : String} {transient : Bool}
    {refusal : Option String} {rest : List String}
    (hserving : s.server.serving = .writing name transient refusal rest) :
    (s.responded name transient refusal rest).Served := by
  have hplace := hv.place
  unfold ServingOk at hplace
  rw [hserving] at hplace
  obtain ⟨hterminal, hexact, hfresh, hkeptName⟩ := hplace
  have hsub : ∀ n r, (if transient then s.server.answers.erase name
      else s.server.answers).get? n = some r → s.server.answers.get? n = some r ∧
        (transient = true → n ≠ name) := by
    intro n r hr
    cases transient with
    | false => exact ⟨hr, fun h => by cases h⟩
    | true =>
        rw [if_pos rfl, Dict.get?_erase] at hr
        by_cases hn : n = name
        · rw [if_pos hn] at hr
          cases hr
        · rw [if_neg hn] at hr
          exact ⟨hr, fun _ => hn⟩
  constructor
  · unfold ServingOk responded
    cases refusal with
    | some error => trivial
    | none =>
        refine ⟨hterminal rfl, ?_⟩
        intro n r hr
        obtain ⟨hold, hn⟩ := hsub n r hr
        by_cases heq : n = name
        · subst heq
          refine hkeptName ?_ r hold
          by_contra htransient
          exact hn (by simpa using htransient) rfl
        · exact hexact n r heq hold
  · intro n r hr
    have hold := hv.answered n r hr
    unfold responded withServer
    cases htransient : transient with
    | false => exact hold
    | true =>
        have hn : n ≠ name := by
          rintro rfl
          exact hfresh htransient r hr
        simp only [if_true]
        rw [Dict.get?_erase, if_neg hn]
        exact hold
  · exact hv.saved
  · exact hv.savedKept
  · exact hv.terminal
  · intro n r hr
    rcases hr with hr | hr
    · exact hv.fields n r (Or.inl (hsub n r hr).1)
    · exact hv.fields n r (Or.inr hr)
  · exact hv.ran
  · apply hv.ordered.same
    rfl

theorem finish_served (hv : s.Served) (raised : Option String) : (s.finish raised).Served := by
  unfold finish
  split
  · exact hv.placed rfl rfl rfl rfl rfl trivial
  · constructor
    · trivial
    · exact hv.answered
    · exact hv.answered
    · intro h
      cases h
    · intro h
      cases h
    · intro n r hr
      exact hv.fields n r (Or.inl (hr.elim id id))
    · exact hv.ran
    · apply hv.ordered.same
      rfl

theorem restart_served (hv : s.Served) : (s.withServer (restarted s.server)).Served := by
  constructor
  · exact hv.savedKept
  · exact hv.saved
  · exact hv.saved
  · exact hv.savedKept
  · exact fun h => h
  · intro n r hr
    exact hv.fields n r (Or.inr (hr.elim id id))
  · exact hv.ran
  · apply hv.ordered.same
    rfl

/-- Every step of the server keeps its invariant. -/
theorem serve_served (hs : s.Sound) (hv : s.Served) {mailboxId : String} {action : ServerAction}
    (h : s.serve mailboxId action = some t) : t.Served := by
  have hending : ∀ raised, (s.serving (.ending raised)).Served := fun _ =>
    hv.placed rfl rfl rfl rfl rfl trivial
  have hdown : (s.serving .down).Served := hv.placed rfl rfl rfl rfl rfl trivial
  have hplace := hv.place
  unfold ServingOk at hplace
  unfold serve at h
  split at h
  · rename_i hserving
    rw [hserving] at hplace
    split at h
    · cases h
      exact hending none
    · rename_i hopen
      cases h
      have hterminal : s.server.terminal = none := by
        rw [Bool.or_eq_true, not_or] at hopen
        simpa using hopen.2
      exact hv.placed rfl rfl rfl rfl rfl ⟨hterminal, hplace hterminal⟩
  · rename_i hserving
    rw [hserving] at hplace
    cases h
    exact hv.placed rfl rfl rfl rfl rfl fun _ => hplace.2
  · rename_i name rest hserving
    rw [hserving] at hplace
    split at h
    · cases h
      exact hending none
    · split at h
      · cases h
        refine hv.placed rfl rfl rfl rfl rfl ⟨fun _ => hplace.1, fun n r _ => hplace.2 n r, ?_, ?_⟩
        · intro hfalse
          cases hfalse
        · exact fun _ r => hplace.2 name r
      · rename_i hmem
        cases h
        refine hv.placed rfl rfl rfl rfl rfl ⟨hplace.1, hplace.2, ?_⟩
        rw [Dict.mem_iff_isSome, Option.not_isSome_iff_eq_none] at hmem
        exact hmem
  · rename_i name rest outcome hserving
    cases h
    exact read_served hs hv hserving outcome
  · rename_i name call retries rest outcome hserving
    cases h
    exact handle_served (hv.runs hserving) hserving outcome
  · rename_i name transient refusal rest hserving
    rw [hserving] at hplace
    cases htransient : transient with
    | true =>
        rw [htransient, if_pos rfl] at h
        cases h
        refine hv.placed rfl rfl rfl rfl rfl ⟨hplace.1, hplace.2.1, fun _ => hplace.2.2, ?_⟩
        intro hfalse
        cases hfalse
    | false =>
        rw [htransient] at h hserving
        rw [if_neg (by simp)] at h
        cases hreply : s.server.answers.get? name with
        | none =>
            rw [hreply] at h
            cases h
        | some reply =>
            rw [hreply] at h
            cases h
            exact keep_served hv hserving hreply
  · rename_i name transient refusal rest acknowledged hserving
    unfold writeResponse at h
    cases hreply : s.server.answers.get? name with
    | none =>
        rw [hreply] at h
        cases h
    | some reply =>
        rw [hreply] at h
        cases h
        have hgives := hv.gives hserving hreply
        cases acknowledged with
        | false => exact hgives
        | true => exact responded_served hgives hserving
  · cases h
    exact finish_served hv _
  · cases h
    refine hv.placed rfl rfl rfl rfl rfl ?_
    cases s.server.suspend <;> trivial
  · cases h
    exact restart_served hv
  · split at h
    · cases h
      exact hending none
    · cases h
  · split at h
    · cases h
      exact hending none
    · cases h
  · split at h
    · cases h
      exact hending none
    · cases h
  · split at h
    · cases h
      exact hending none
    · cases h
  · split at h
    · cases h
      exact hending none
    · cases h
  · cases h
    exact hending _
  · cases h
    exact hending _
  · cases h
    exact hending _
  · cases h
    exact hending _
  · cases h
    exact hending _
  · cases h
    exact hending _
  · cases h
    exact hdown
  · cases h
    exact hdown
  · cases h

/-- What the broker knows is untouched by the server. -/
theorem Sound.served (hs : s.Sound) (conns : t.conns = s.conns) (entries : t.entries = s.entries)
    (current : t.current = s.current) (requests : t.requests = s.requests)
    (log : t.log = s.log ∨ ∃ e, t.log = e :: s.log ∧ e.ofBroker = false)
    (responses : t.responses = s.responses ∨ ∃ n reply transient,
      t.responses = s.responses.insert n reply ∧ (∃ fields, reply.result = .fields fields) ∧
        .gave n reply transient ∈ t.log) : t.Sound := by
  have hlog : ∀ e, e ∈ s.log → e ∈ t.log := by
    intro e he
    rcases log with hlog | ⟨new, hlog, -⟩
    · rw [hlog]
      exact he
    · rw [hlog]
      exact List.mem_cons_of_mem _ he
  have hold : ∀ e, e ∈ t.log → e.ofBroker = true → e ∈ s.log := by
    intro e he hbroker
    rcases log with hlog | ⟨new, hlog, hserver⟩
    · rwa [hlog] at he
    · rw [hlog, List.mem_cons] at he
      refine he.resolve_left ?_
      rintro rfl
      rw [hserver] at hbroker
      cases hbroker
  have hwrote : ∀ n, .wrote n ∈ t.log → .wrote n ∈ s.log := fun n h => hold _ h rfl
  refine hs.carry current ?_ ?_ ?_ hlog hwrote ?_ ?_ ?_ ?_ ?_
  · intro d hd
    rw [entries]
    exact hd
  · intro x k hk
    rw [conns] at hk
    exact ⟨k, hk, Quiet.refl k⟩
  · intro x k hk
    rw [conns]
    exact ⟨k, hk, Quiet.refl k⟩
  · intro _ c reply source h
    exact Or.inl (hold _ h rfl)
  · intro n call h
    rwa [requests] at h
  · intro n reply hreply
    have hkept : s.responses.get? n = some reply → (∃ fields, reply.result = .fields fields) ∧
        ∃ transient, .gave n reply transient ∈ t.log := by
      intro h
      obtain ⟨hfields, transient, hgave⟩ := hs.responses n reply h
      exact ⟨hfields, transient, hlog _ hgave⟩
    rcases responses with hsame | ⟨m, given, transient, hinsert, hfields, hgave⟩
    · rw [hsame] at hreply
      exact hkept hreply
    · rw [hinsert, Dict.get?_insert] at hreply
      by_cases hm : n = m
      · rw [if_pos hm] at hreply
        cases hreply
        subst hm
        exact ⟨hfields, transient, hgave⟩
      · rw [if_neg hm] at hreply
        exact hkept hreply
  · intro hst d entry hentry
    rw [entries] at hentry
    obtain ⟨k, hk, hok⟩ := hs.entry d entry hentry
    refine ⟨entry, k, hentry, fun h => h, by rw [conns]; exact hk, ?_⟩
    exact hok.since hst (hwrote d) (Quiet.refl k) rfl
  · intro hst x k hk
    rw [conns] at hk
    exact (hs.phase x k hk).since hst

/-- Every step of the server keeps the broker's invariant. -/
theorem serve_sound (hs : s.Sound) (hv : s.Served) {mailboxId : String} {action : ServerAction}
    (h : s.serve mailboxId action = some t) : t.Sound := by
  have hquiet : ∀ {u : World}, u.conns = s.conns → u.entries = s.entries →
      u.current = s.current → u.requests = s.requests → u.log = s.log →
        u.responses = s.responses → u.Sound := fun hc he hcur hr hl hres =>
    hs.served hc he hcur hr (Or.inl hl) (Or.inl hres)
  have hplaced : ∀ place, (s.serving place).Sound := fun _ => hquiet rfl rfl rfl rfl rfl rfl
  unfold serve at h
  split at h
  · split at h <;> cases h <;> exact hplaced _
  · cases h
    exact hplaced _
  · split at h
    · cases h
      exact hplaced _
    · split at h <;> cases h <;> exact hplaced _
  · rename_i name rest outcome hserving
    cases h
    cases outcome with
    | request =>
        unfold readRequest
        cases s.requests.get? name <;> exact hquiet rfl rfl rfl rfl rfl rfl
    | invalid error => exact hquiet rfl rfl rfl rfl rfl rfl
    | refused error => exact hquiet rfl rfl rfl rfl rfl rfl
  · rename_i name call retries rest outcome hserving
    cases h
    have hran : ∀ {u : World}, u.conns = s.conns → u.entries = s.entries →
        u.current = s.current → u.requests = s.requests → u.log = .ran name call :: s.log →
          u.responses = s.responses → u.Sound := fun hc he hcur hr hl hres =>
      hs.served hc he hcur hr (Or.inr ⟨_, hl, rfl⟩) (Or.inl hres)
    cases outcome with
    | responds status message fields => exact hran rfl rfl rfl rfl rfl rfl
    | raises error => exact hran rfl rfl rfl rfl rfl rfl
    | unreachable error => cases retries <;> exact hran rfl rfl rfl rfl rfl rfl
  · rename_i name transient refusal rest hserving
    split at h
    · cases h
      exact hplaced _
    · cases hreply : s.server.answers.get? name with
      | none =>
          rw [hreply] at h
          cases h
      | some reply =>
          rw [hreply] at h
          cases h
          exact hs.served rfl rfl rfl rfl (Or.inr ⟨_, rfl, rfl⟩) (Or.inl rfl)
  · rename_i name transient refusal rest acknowledged hserving
    unfold writeResponse at h
    cases hreply : s.server.answers.get? name with
    | none =>
        rw [hreply] at h
        cases h
    | some reply =>
        rw [hreply] at h
        cases h
        have hfields := hv.fields name reply (Or.inl hreply)
        cases acknowledged <;>
          exact hs.served rfl rfl rfl rfl (Or.inr ⟨_, rfl, rfl⟩)
            (Or.inr ⟨name, reply, transient, rfl, hfields, List.mem_cons_self⟩)
  · cases h
    unfold finish
    split
    · exact hplaced _
    · exact hquiet rfl rfl rfl rfl rfl rfl
  · cases h
    exact hquiet rfl rfl rfl rfl rfl rfl
  · cases h
    exact hquiet rfl rfl rfl rfl rfl rfl
  all_goals first
    | (split at h
       · cases h
         exact hplaced _
       · cases h)
    | (cases h
       exact hplaced _)
    | cases h

/-- A step of the server leaves the broker's parts alone, and writes no request. -/
theorem serve_frame {mailboxId : String} {action : ServerAction}
    (h : s.serve mailboxId action = some t) :
    t.conns = s.conns ∧ t.entries = s.entries ∧ ∀ d, .wrote d ∈ t.log → .wrote d ∈ s.log := by
  have hquiet : ∀ {u : World}, u.conns = s.conns → u.entries = s.entries → u.log = s.log →
      u.conns = s.conns ∧ u.entries = s.entries ∧ ∀ d, .wrote d ∈ u.log → .wrote d ∈ s.log := by
    intro u hconns hentries hlog
    rw [hlog]
    exact ⟨hconns, hentries, fun _ h => h⟩
  have hnoted : ∀ {u : World} {e : Event}, u.conns = s.conns → u.entries = s.entries →
      e.ofBroker = false → u.log = e :: s.log →
        u.conns = s.conns ∧ u.entries = s.entries ∧ ∀ d, .wrote d ∈ u.log → .wrote d ∈ s.log := by
    intro u e hconns hentries hserver hlog
    rw [hlog]
    refine ⟨hconns, hentries, fun d hd => (List.mem_cons.mp hd).resolve_left ?_⟩
    rintro rfl
    cases hserver
  unfold serve at h
  split at h
  · split at h <;> cases h <;> exact hquiet rfl rfl rfl
  · cases h
    exact hquiet rfl rfl rfl
  · split at h
    · cases h
      exact hquiet rfl rfl rfl
    · split at h <;> cases h <;> exact hquiet rfl rfl rfl
  · rename_i name rest outcome hserving
    cases h
    cases outcome with
    | request =>
        unfold readRequest
        cases s.requests.get? name <;> exact hquiet rfl rfl rfl
    | invalid error => exact hquiet rfl rfl rfl
    | refused error => exact hquiet rfl rfl rfl
  · rename_i name call retries rest outcome hserving
    cases h
    cases outcome with
    | responds status message fields => exact hnoted rfl rfl rfl rfl
    | raises error => exact hnoted rfl rfl rfl rfl
    | unreachable error => cases retries <;> exact hnoted rfl rfl rfl rfl
  · rename_i name transient refusal rest hserving
    split at h
    · cases h
      exact hquiet rfl rfl rfl
    · cases hreply : s.server.answers.get? name with
      | none =>
          rw [hreply] at h
          cases h
      | some reply =>
          rw [hreply] at h
          cases h
          exact hnoted rfl rfl rfl rfl
  · rename_i name transient refusal rest acknowledged hserving
    unfold writeResponse at h
    cases hreply : s.server.answers.get? name with
    | none =>
        rw [hreply] at h
        cases h
    | some reply =>
        rw [hreply] at h
        cases h
        cases acknowledged <;> exact hnoted rfl rfl rfl rfl
  · cases h
    unfold finish
    split <;> exact hquiet rfl rfl rfl
  · cases h
    exact hquiet rfl rfl rfl
  · cases h
    exact hquiet rfl rfl rfl
  all_goals first
    | (split at h
       · cases h
         exact hquiet rfl rfl rfl
       · cases h)
    | (cases h
       exact hquiet rfl rfl rfl)
    | cases h

end RcpGraph.Commands.World
