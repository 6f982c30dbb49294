import RcpGraph.Commands.Turns

/-!
The steps that admit a call: a client connects, its call joins an entry or becomes an owner,
and the owner's request is written.
-/

namespace RcpGraph.Commands.World

variable {s t : World} {c : String} {conn conn' : Conn}

theorem get?_insert_ne {α : Type} {d : Dict String α} {x c : String} {a : α} (h : x ≠ c) :
    (d.insert c a).get? x = d.get? x := by
  rw [Dict.get?_insert, if_neg h]

/-- A step that gives one connection its part, before it is past its write. -/
theorem Sound.enter (hs : s.Sound) (hc : s.conns.get? c = some conn)
    (hpast : conn.phase.past = false) (conns : t.conns = s.conns.insert c conn')
    (call : conn'.call = conn.call) (log : ∀ e, e ∈ s.log → e ∈ t.log)
    (wrote : ∀ n, .wrote n ∈ t.log → n ≠ c → .wrote n ∈ s.log)
    (wroteOwn : .wrote c ∈ t.log → conn'.owner = true ∧ conn'.written = true)
    (received : ∀ n reply source, .received n reply source ∈ t.log →
      .received n reply source ∈ s.log)
    (requests : ∀ n asked, t.requests.get? n = some asked → n ≠ c → s.requests.get? n = some asked)
    (requestsOwn : ∀ asked, t.requests.get? c = some asked → asked = conn.call)
    (responses : t.responses = s.responses)
    (others : ∀ d, d ≠ c → t.entries.get? d = s.entries.get? d)
    (members : c ∈ s.entries → c ∈ t.entries)
    (phase : t.PhaseOk c conn')
    (owned : conn'.owner = true → conn'.call.signature.isSome = true → conn'.entry = some c)
    (held : ∀ d, conn'.entry = some d → d ∈ t.entries ∧ (conn'.owner = true → d = c) ∧
      conn'.call.signature.isSome = true ∧
        ∃ other, t.conns.get? d = some other ∧ other.call.signature = conn'.call.signature)
    (entry : ∀ own, t.entries.get? c = some own → t.EntryOk c own conn')
    (newest : ∀ d own k signature, t.entries.get? d = some own → t.conns.get? d = some k →
      k.call.signature = some signature → t.current.get? signature = some d ∨ own.Closed)
    (current : ∀ signature d, t.current.get? signature = some d →
      ∃ k, t.conns.get? d = some k ∧ k.call.signature = some signature) : t.Sound := by
  have hown : t.conns.get? c = some conn' := by
    rw [conns, Dict.get?_insert_self]
  have hother : ∀ {x : String}, x ≠ c → t.conns.get? x = s.conns.get? x := by
    intro x hx
    rw [conns, get?_insert_ne hx]
  have hne : ∀ {x : String} {k : Conn}, s.conns.get? x = some k → k.phase.past = true → x ≠ c := by
    rintro x k hk hkpast rfl
    rw [hc] at hk
    cases hk
    rw [hpast] at hkpast
    cases hkpast
  have hst : s.Since t := by
    refine ⟨log, ?_⟩
    rintro n ⟨hwrote, k, hk, hkpast⟩
    have hn := hne hk hkpast
    exact ⟨fun h => hwrote (wrote n h hn), k, by rw [hother hn]; exact hk, hkpast⟩
  have hcalls : ∀ x k, s.conns.get? x = some k →
      ∃ k', t.conns.get? x = some k' ∧ k'.call = k.call := by
    intro x k hk
    by_cases hx : x = c
    · subst hx
      rw [hc] at hk
      cases hk
      exact ⟨conn', hown, call⟩
    · exact ⟨k, by rw [hother hx]; exact hk, rfl⟩
  constructor
  · exact hs.phases_insert conns (fun _ => phase) hst
  · intro x k hk howner hkeyed
    by_cases hx : x = c
    · subst hx
      rw [hown] at hk
      cases hk
      exact owned howner hkeyed
    · rw [hother hx] at hk
      exact hs.owned x k hk howner hkeyed
  · intro x k d hk hd
    by_cases hx : x = c
    · subst hx
      rw [hown] at hk
      cases hk
      exact held d hd
    · rw [hother hx] at hk
      obtain ⟨hmem, hsame, hkeyed, other, hotherConn, hsignature⟩ := hs.held x k d hk hd
      obtain ⟨other', hother', hcall⟩ := hcalls d other hotherConn
      refine ⟨?_, hsame, hkeyed, other', hother', by rw [hcall]; exact hsignature⟩
      by_cases hdc : d = c
      · subst hdc
        exact members hmem
      · rw [Dict.mem_iff_isSome, others d hdc, ← Dict.mem_iff_isSome]
        exact hmem
  · intro d own hentry
    by_cases hd : d = c
    · subst hd
      exact ⟨conn', hown, entry own hentry⟩
    · rw [others d hd] at hentry
      obtain ⟨k, hk, hok⟩ := hs.entry d own hentry
      exact ⟨k, by rw [hother hd]; exact hk, hok.since hst (fun h => wrote d h hd) (Quiet.refl k) rfl⟩
  · exact newest
  · exact current
  · intro n hn
    by_cases hnc : n = c
    · subst hnc
      exact ⟨conn', hown, wroteOwn hn⟩
    · obtain ⟨k, hk, hrest⟩ := hs.wrote n (wrote n hn hnc)
      exact ⟨k, by rw [hother hnc]; exact hk, hrest⟩
  · intro n reply source hmem
    obtain ⟨k, hk, hkpast, hholds⟩ := hs.received n reply source (received n reply source hmem)
    exact ⟨k, by rw [hother (hne hk hkpast)]; exact hk, hkpast, hholds.since hst⟩
  · intro n asked hasked
    by_cases hnc : n = c
    · subst hnc
      exact ⟨conn', hown, by rw [call, requestsOwn asked hasked]⟩
    · obtain ⟨k, hk, hcall⟩ := hs.requests n asked (requests n asked hasked hnc)
      exact ⟨k, by rw [hother hnc]; exact hk, hcall⟩
  · intro n reply hreply
    rw [responses] at hreply
    obtain ⟨hfields, transient, hgave⟩ := hs.responses n reply hreply
    exact ⟨hfields, transient, log _ hgave⟩

/-- The entries' order, where neither the entries nor the calls change. -/
theorem Sound.newest_same (hs : s.Sound) (hc : s.conns.get? c = some conn)
    (conns : t.conns = s.conns.insert c conn') (call : conn'.call = conn.call)
    (entries : t.entries = s.entries) (current : t.current = s.current) :
    (∀ d own k signature, t.entries.get? d = some own → t.conns.get? d = some k →
      k.call.signature = some signature → t.current.get? signature = some d ∨ own.Closed) ∧
      ∀ signature d, t.current.get? signature = some d →
        ∃ k, t.conns.get? d = some k ∧ k.call.signature = some signature := by
  rw [entries, current, conns]
  constructor
  · intro d own k signature hentry hk hsignature
    by_cases hd : d = c
    · subst hd
      rw [Dict.get?_insert_self] at hk
      cases hk
      rw [call] at hsignature
      exact hs.newest d own conn signature hentry hc hsignature
    · rw [get?_insert_ne hd] at hk
      exact hs.newest d own k signature hentry hk hsignature
  · intro signature d hd
    obtain ⟨k, hk, hsignature⟩ := hs.current signature d hd
    by_cases hdc : d = c
    · subst hdc
      rw [hc] at hk
      cases hk
      exact ⟨conn', Dict.get?_insert_self _ _ _, by rw [call]; exact hsignature⟩
    · exact ⟨k, by rw [get?_insert_ne hdc]; exact hk, hsignature⟩

/-- A connection that owns nothing has no entry. -/
theorem Sound.no_entry (hs : s.Sound) (hc : s.conns.get? c = some conn)
    (howner : conn.owner = false) : c ∉ s.entries := by
  intro hmem
  obtain ⟨entry, hentry⟩ := (Dict.mem_iff_exists _ _).mp hmem
  obtain ⟨k, hk, hok⟩ := hs.entry c entry hentry
  rw [hc] at hk
  cases hk
  rw [hok.owner] at howner
  cases howner

/-- What joins an entry finds it in flight or undelivered. -/
theorem joinable_some {signature : Signature} {d : String} (h : s.joinable signature = some d) :
    s.current.get? signature = some d ∧ d ∈ s.entries := by
  unfold joinable at h
  rw [Option.filter_eq_some_iff] at h
  obtain ⟨hcurrent, hany⟩ := h
  refine ⟨hcurrent, ?_⟩
  rw [Dict.mem_iff_isSome]
  cases hentry : s.entries.get? d with
  | none =>
      rw [hentry] at hany
      cases hany
  | some entry => rfl

/-- What joins no entry finds the newest one closed. -/
theorem joinable_none {signature : Signature} {d : String} {entry : Entry}
    (h : s.joinable signature = none) (hd : s.current.get? signature = some d)
    (hentry : s.entries.get? d = some entry) : entry.Closed := by
  unfold joinable at h
  rw [hd, Option.filter_some, hentry] at h
  unfold Entry.Closed
  cases hdone : entry.done <;> cases hdelivered : entry.delivered <;> cases hsent : entry.sent <;>
    simp [hdone, hdelivered, hsent] at h ⊢

theorem join_unkeyed (h : conn.call.signature = none) :
    s.join c conn = s.withConn c { conn with owner := true, phase := .writing } := by
  simp only [join, h]

theorem join_joined {signature : Signature} {d : String}
    (h : conn.call.signature = some signature) (hjoin : s.joinable signature = some d) :
    s.join c conn =
      s.withConn c { conn with entry := some d, written := true, phase := .waiting } := by
  simp only [join, h, hjoin]

theorem join_owns {signature : Signature} (h : conn.call.signature = some signature)
    (hjoin : s.joinable signature = none) :
    s.join c conn =
      { s.withConn c { conn with entry := some c, owner := true, phase := .writing } with
        entries := s.entries.insert c Entry.fresh
        current := s.current.insert signature c } := by
  simp only [join, h, hjoin]

theorem join_sound (hs : s.Sound) (hc : s.conns.get? c = some conn)
    (hphase : conn.phase = .joining) : (s.join c conn).Sound := by
  have hok := hs.phase c conn hc
  unfold PhaseOk at hok
  rw [hphase] at hok
  obtain ⟨howner, hentry, hwritten⟩ := hok
  have hpast : conn.phase.past = false := by
    rw [hphase]
    rfl
  have hnot := hs.no_entry hc howner
  have hunwritten := hs.unwritten hc (Or.inl howner)
  have hrequest : ∀ asked, s.requests.get? c = some asked → asked = conn.call := by
    intro asked hasked
    obtain ⟨k, hk, hcall⟩ := hs.requests c asked hasked
    rw [hc] at hk
    cases hk
    exact hcall.symm
  cases hsignature : conn.call.signature with
  | none =>
      rw [join_unkeyed hsignature]
      obtain ⟨hnewest, hcurrent⟩ := hs.newest_same
        (t := s.withConn c { conn with owner := true, phase := .writing }) hc rfl rfl rfl rfl
      refine hs.enter hc hpast rfl rfl (fun _ h => h) (fun _ h _ => h)
        (fun h => absurd h hunwritten) (fun _ _ _ h => h) (fun _ _ h _ => h) hrequest rfl
        (fun _ _ => rfl) (fun h => h) ⟨rfl, hwritten⟩ ?_ ?_ ?_ hnewest hcurrent
      · intro _ hkeyed
        rw [hsignature] at hkeyed
        cases hkeyed
      · intro d hd
        rw [hentry] at hd
        cases hd
      · intro own hown
        exact absurd (Dict.mem_of_get? hown) hnot
  | some signature =>
      have hkeyed : conn.call.signature.isSome = true := by
        rw [hsignature]
        rfl
      cases hjoin : s.joinable signature with
      | some d =>
          rw [join_joined hsignature hjoin]
          obtain ⟨hcurrentD, hmem⟩ := joinable_some hjoin
          obtain ⟨other, hother, hsame⟩ := hs.current signature d hcurrentD
          have hdc : d ≠ c := by
            rintro rfl
            exact hnot hmem
          obtain ⟨hnewest, hcurrent⟩ := hs.newest_same
            (t := s.withConn c { conn with entry := some d, written := true, phase := .waiting })
            hc rfl rfl rfl rfl
          refine hs.enter hc hpast rfl rfl (fun _ h => h) (fun _ h _ => h)
            (fun h => absurd h hunwritten) (fun _ _ _ h => h) (fun _ _ h _ => h) hrequest rfl
            (fun _ _ => rfl) (fun h => h) ⟨howner, rfl⟩ ?_ ?_ ?_ hnewest hcurrent
          · intro hown
            have hown : conn.owner = true := hown
            rw [howner] at hown
            cases hown
          · intro e he
            cases he
            refine ⟨hmem, fun hown => ?_, hkeyed, other, ?_, hsame.trans hsignature.symm⟩
            · have hown : conn.owner = true := hown
              rw [howner] at hown
              cases hown
            · unfold withConn
              rw [get?_insert_ne hdc]
              exact hother
          · intro own hown
            exact absurd (Dict.mem_of_get? hown) hnot
      | none =>
          rw [join_owns hsignature hjoin]
          refine hs.enter hc hpast rfl rfl (fun _ h => h) (fun _ h _ => h)
            (fun h => absurd h hunwritten) (fun _ _ _ h => h) (fun _ _ h _ => h) hrequest rfl
            (fun d hd => get?_insert_ne hd) (fun h => absurd h hnot) ⟨rfl, hwritten⟩
            (fun _ _ => rfl) ?_ ?_ ?_ ?_
          · intro d hd
            cases hd
            refine ⟨(Dict.mem_insert _ _ _ _).mpr (Or.inl rfl), fun _ => rfl, hkeyed, ?_⟩
            exact ⟨_, get?_withConn s c _, rfl⟩
          · intro own hown
            rw [Dict.get?_insert_self] at hown
            cases hown
            refine ⟨rfl, rfl, hkeyed, rfl, fun h => ?_, fun h => ?_⟩ <;> cases h
          · intro d own k sig hown hk hsig
            by_cases hd : d = c
            · subst hd
              rw [get?_withConn] at hk
              cases hk
              have hsig : conn.call.signature = some sig := hsig
              rw [hsignature] at hsig
              cases hsig
              exact Or.inl (Dict.get?_insert_self _ _ _)
            · have hk : (s.conns.insert c { conn with entry := some c, owner := true, phase := .writing }).get? d = some k := hk
              rw [get?_insert_ne hd] at hown hk
              rcases hs.newest d own k sig hown hk hsig with hnow | hclosed
              · by_cases hsame : sig = signature
                · subst hsame
                  exact Or.inr (joinable_none hjoin hnow hown)
                · left
                  rw [Dict.get?_insert, if_neg hsame]
                  exact hnow
              · exact Or.inr hclosed
          · intro sig d hd
            rw [Dict.get?_insert] at hd
            by_cases hsame : sig = signature
            · rw [if_pos hsame] at hd
              cases hd
              exact ⟨_, get?_withConn s c _, by rw [hsame]; exact hsignature⟩
            · rw [if_neg hsame] at hd
              obtain ⟨k, hk, hsig⟩ := hs.current sig d hd
              have hdc : d ≠ c := by
                rintro rfl
                rw [hc] at hk
                cases hk
                rw [hsignature] at hsig
                cases hsig
                exact hsame rfl
              refine ⟨k, ?_, hsig⟩
              unfold withConn
              rw [get?_insert_ne hdc]
              exact hk

theorem write_sound (hs : s.Sound) (hc : s.conns.get? c = some conn)
    (hphase : conn.phase = .writing) : (s.writeRequest c conn).Sound := by
  have hok := hs.phase c conn hc
  unfold PhaseOk at hok
  rw [hphase] at hok
  obtain ⟨howner, hwritten⟩ := hok
  have hpast : conn.phase.past = false := by
    rw [hphase]
    rfl
  obtain ⟨hnewest, hcurrent⟩ := hs.newest_same (t := s.writeRequest c conn) hc rfl rfl rfl rfl
  unfold writeRequest
  refine hs.enter hc hpast rfl rfl (fun _ h => List.mem_cons_of_mem _ h) ?_ (fun _ => ⟨howner, rfl⟩)
    ?_ ?_ ?_ rfl (fun _ _ => rfl) (fun h => h) ⟨howner, rfl⟩ ?_ ?_ ?_ hnewest hcurrent
  · intro n hn hne
    rcases List.mem_cons.mp hn with heq | hn
    · cases heq
      exact absurd rfl hne
    · exact hn
  · intro n reply source hmem
    simpa using hmem
  · intro n asked hasked hne
    rw [get?_insert_ne hne] at hasked
    exact hasked
  · intro asked hasked
    rw [Dict.get?_insert_self] at hasked
    cases hasked
    rfl
  · intro _ hkeyed
    exact hs.owned c conn hc howner hkeyed
  · intro d hd
    obtain ⟨hmem, hown, hkeyed, -⟩ := hs.held c conn d hc hd
    obtain rfl := hown howner
    exact ⟨hmem, fun _ => rfl, hkeyed, _, get?_withConn s d _, rfl⟩
  · intro own hown
    obtain ⟨k, hk, hentry⟩ := hs.entry c own hown
    rw [hc] at hk
    cases hk
    have hdone : own.done = false := by
      rw [hentry.underway, hphase]
      rfl
    refine ⟨howner, hentry.own, hentry.keyed, by rw [hdone]; rfl, fun h => ?_, fun h => ?_⟩
    · rw [hdone] at h
      cases h
    · obtain ⟨d, reply, hreceived⟩ := hentry.delivered h
      exact ⟨d, reply, List.mem_cons_of_mem _ hreceived⟩

theorem connect_sound (hs : s.Sound) {call : Call} (h : s.connect call = some t) : t.Sound := by
  unfold connect at h
  by_cases hmem : call.requestId ∈ s.conns
  · rw [if_pos hmem] at h
    cases h
  rw [if_neg hmem] at h
  cases h
  have hne : ∀ {x : String} {k : Conn}, s.conns.get? x = some k → x ≠ call.requestId := by
    rintro x k hk rfl
    exact hmem (Dict.mem_of_get? hk)
  have hkept : ∀ {x : String} {k : Conn}, s.conns.get? x = some k →
      (s.withConn call.requestId ⟨call, none, false, false, .checking⟩).conns.get? x = some k := by
    intro x k hk
    unfold withConn
    rw [get?_insert_ne (hne hk)]
    exact hk
  have hst : s.Since (s.withConn call.requestId ⟨call, none, false, false, .checking⟩) := by
    refine ⟨fun _ h => h, ?_⟩
    rintro n ⟨hwrote, k, hk, hpast⟩
    exact ⟨hwrote, k, hkept hk, hpast⟩
  have hcases : ∀ {x : String} {k : Conn},
      (s.withConn call.requestId ⟨call, none, false, false, .checking⟩).conns.get? x = some k →
        k = ⟨call, none, false, false, .checking⟩ ∨ s.conns.get? x = some k := by
    intro x k hk
    unfold withConn at hk
    rw [Dict.get?_insert] at hk
    by_cases hx : x = call.requestId
    · rw [if_pos hx] at hk
      cases hk
      exact Or.inl rfl
    · rw [if_neg hx] at hk
      exact Or.inr hk
  constructor
  · intro x k hk
    rcases hcases hk with rfl | hk
    · exact ⟨rfl, rfl, rfl⟩
    · exact (hs.phase x k hk).since hst
  · intro x k hk howner hkeyed
    rcases hcases hk with rfl | hk
    · cases howner
    · exact hs.owned x k hk howner hkeyed
  · intro x k d hk hd
    rcases hcases hk with rfl | hk
    · cases hd
    · obtain ⟨hin, hown, hkeyed, other, hother, hsame⟩ := hs.held x k d hk hd
      exact ⟨hin, hown, hkeyed, other, hkept hother, hsame⟩
  · intro d entry hentry
    obtain ⟨k, hk, hok⟩ := hs.entry d entry hentry
    exact ⟨k, hkept hk, hok.since hst (fun h => h) (Quiet.refl k) rfl⟩
  · intro d entry k signature hentry hk hsignature
    obtain ⟨k', hk', -⟩ := hs.entry d entry hentry
    rw [hkept hk'] at hk
    cases hk
    exact hs.newest d entry k signature hentry hk' hsignature
  · intro signature d hd
    obtain ⟨k, hk, hsignature⟩ := hs.current signature d hd
    exact ⟨k, hkept hk, hsignature⟩
  · intro n hn
    obtain ⟨k, hk, hrest⟩ := hs.wrote n hn
    exact ⟨k, hkept hk, hrest⟩
  · intro n reply source hmem
    obtain ⟨k, hk, hpast, hholds⟩ := hs.received n reply source hmem
    exact ⟨k, hkept hk, hpast, hholds.since hst⟩
  · intro n asked hasked
    obtain ⟨k, hk, hcall⟩ := hs.requests n asked hasked
    exact ⟨k, hkept hk, hcall⟩
  · exact hs.responses

/-- Every step of a connection keeps the broker's invariant, as long as no thread that waits for
its response reads a closure marker that is not JSON. -/
theorem turn_sound (hs : s.Sound) (hc : s.conns.get? c = some conn) {mailboxId : String}
    {choice : Choice}
    (hmarker : choice = .goes → conn.phase = .closing → ∀ error, s.marker ≠ some (.garbled error))
    (h : s.turn mailboxId c conn choice = some t) : t.Sound := by
  have hplace := hs.phase c conn hc
  unfold PhaseOk at hplace
  unfold turn at h
  split at h
  · rename_i failure hphase
    cases h
    exact (checking_sound hs hc hphase).1 failure
  · rename_i hphase
    split at h
    · cases h
      exact (checking_sound hs hc hphase).1 _
    · rename_i hclosed
      cases h
      exact (checking_sound hs hc hphase).2.1 _ (closedResponse_ok hclosed)
    · cases h
      exact (checking_sound hs hc hphase).2.2
  · rename_i hphase
    cases h
    exact join_sound hs hc hphase
  · rename_i hphase
    cases h
    exact write_sound hs hc hphase
  · rename_i failure hphase
    cases h
    exact writing_failed_sound hs hc hphase failure
  · rename_i hphase
    cases h
    exact (polling_sound hs hc hphase).2
  · rename_i error hphase
    cases h
    exact (polling_sound hs hc hphase).1 error
  · rename_i hphase
    cases h
    exact (polling_sound hs hc hphase).1 _
  · rename_i hphase
    cases h
    exact closing_sound hs hc hphase mailboxId (hmarker rfl hphase)
  · rename_i reply hphase
    cases h
    refine clearing_sound hs hc hphase (Or.inl rfl) ?_ (fun _ _ h => h)
    intro n asked hasked
    rw [Dict.get?_erase] at hasked
    split at hasked
    · cases hasked
    · exact hasked
  · rename_i reply hphase
    cases h
    refine clearing_sound hs hc hphase (Or.inr rfl) (fun _ _ h => h) ?_
    intro n reply hreply
    rw [Dict.get?_erase] at hreply
    split at hreply
    · cases hreply
    · exact hreply
  · rename_i reply failure hphase
    cases h
    exact clearing_sound hs hc hphase (Or.inl rfl) (fun _ _ h => h) (fun _ _ h => h)
  · rename_i reply failure hphase
    cases h
    exact clearing_sound hs hc hphase (Or.inr rfl) (fun _ _ h => h) (fun _ _ h => h)
  · rename_i reply hphase
    cases h
    exact settle_sound hs hc hphase
  · rename_i hphase
    exact waiting_sound hs hc hphase h
  · rename_i reply answersEntry hphase
    cases h
    exact send_sound hs hc hphase
  · rename_i reply answersEntry hphase
    cases h
    exact vanished_sound hs hc hphase
  · rename_i hphase
    cases h
    exact mark_sound hs hc hphase
  · rename_i hphase
    cases h
    exact crashed_sound hs hc (Or.inl hphase)
  · rename_i hphase
    cases h
    exact crashed_sound hs hc (Or.inr hphase)
  · rename_i hphase
    cases h
    rw [hphase] at hplace
    exact lost_sound hs hc hplace.1 hphase rfl rfl
  · rename_i hphase
    cases h
    rw [hphase] at hplace
    exact lost_sound hs hc hplace.1 hphase rfl rfl
  · rename_i hphase
    cases h
    rw [hphase] at hplace
    exact lost_sound hs hc hplace.1 hphase rfl rfl
  · cases h

end RcpGraph.Commands.World
