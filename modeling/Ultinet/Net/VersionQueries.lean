import Ultinet.Net.ListenerAddrs
import Ultinet.Packet.Dispatch
import Ultinet.Packet.Resend

/-!
# The version queries of a client

A version query is an empty datagram.  Whether a server is asked again depends on when it was asked last,
so this is followed through every operation: which version queries are tried, what the socket answers
(`Env.Asks`), and what the listener of the server remembers of it (`Pending`).

Creating or refreshing a listener asks its server once (`Opens`).  An update asks the servers whose
listeners remember a query that is old enough (`Retried`), and nothing else asks.
-/

namespace Ultinet

variable {P : Packets} {addr : SocketAddr}

/-! ## The version queries of a call -/

/-- What the socket answers to the version queries to an address, among some datagrams that are tried
after others. -/
def answersTo (addr : SocketAddr)
    (answer : List (SocketAddr × Bytes) → SocketAddr × Bytes → SendAnswer) :
    List (SocketAddr × Bytes) → List (SocketAddr × Bytes) → List SendAnswer
  | _, [] => []
  | before, datagram :: tried =>
      let answers := answersTo addr answer (before ++ [datagram]) tried
      if datagram = (addr, []) then answer before datagram :: answers else answers

section AnswersTo

variable {answer : List (SocketAddr × Bytes) → SocketAddr × Bytes → SendAnswer}

theorem answersTo_cons_of_ne (before : List (SocketAddr × Bytes)) {datagram : SocketAddr × Bytes}
    (tried : List (SocketAddr × Bytes)) (hne : datagram ≠ (addr, [])) :
    answersTo addr answer before (datagram :: tried) =
      answersTo addr answer (before ++ [datagram]) tried :=
  if_neg hne

theorem answersTo_query (before tried : List (SocketAddr × Bytes)) :
    answersTo addr answer before ((addr, []) :: tried) =
      answer before (addr, []) :: answersTo addr answer (before ++ [(addr, [])]) tried :=
  if_pos rfl

theorem answersTo_append (before tried tried' : List (SocketAddr × Bytes)) :
    answersTo addr answer before (tried ++ tried') =
      answersTo addr answer before tried ++ answersTo addr answer (before ++ tried) tried' := by
  induction tried generalizing before with
  | nil => rw [List.nil_append, List.append_nil, answersTo, List.nil_append]
  | cons datagram tried ih =>
    have hbefore : before ++ [datagram] ++ tried = before ++ datagram :: tried := by
      rw [List.append_assoc, List.singleton_append]
    rw [List.cons_append]
    by_cases hquery : datagram = (addr, [])
    · rw [hquery, answersTo_query, answersTo_query, ih, ← hquery, hbefore, List.cons_append]
    · rw [answersTo_cons_of_ne _ _ hquery, answersTo_cons_of_ne _ _ hquery, ih, hbefore]

/-- There is an answer if and only if there is a query. -/
theorem answersTo_ne_nil (before tried : List (SocketAddr × Bytes)) :
    answersTo addr answer before tried ≠ [] ↔ (addr, []) ∈ tried := by
  induction tried generalizing before with
  | nil => exact iff_of_false (fun h => h rfl) List.not_mem_nil
  | cons datagram tried ih =>
    by_cases hquery : datagram = (addr, [])
    · rw [hquery, answersTo_query]
      exact iff_of_true (List.cons_ne_nil _ _) List.mem_cons_self
    · rw [answersTo_cons_of_ne _ _ hquery, ih, List.mem_cons, or_iff_right fun h => hquery h.symm]

end AnswersTo

/-- Between two moments of a call, the version queries to an address have some answers. -/
structure Env.Asks (addr : SocketAddr) (env env' : Env) (answers : List SendAnswer) : Prop where
  now : env'.now = env.now
  answer : env'.answer = env.answer
  tried : ∃ tried, env'.attempts = env.attempts ++ tried ∧
    answersTo addr env.answer env.attempts tried = answers

namespace Env.Asks

variable {env env' env'' : Env} {answers answers' : List SendAnswer}

theorem refl (addr : SocketAddr) (env : Env) : env.Asks addr env [] :=
  ⟨rfl, rfl, [], (List.append_nil _).symm, rfl⟩

theorem trans (h : env.Asks addr env' answers) (h' : env'.Asks addr env'' answers') :
    env.Asks addr env'' (answers ++ answers') := by
  obtain ⟨tried, hattempts, hanswers⟩ := h.tried
  obtain ⟨tried', hattempts', hanswers'⟩ := h'.tried
  refine ⟨h'.now.trans h.now, h'.answer.trans h.answer, tried ++ tried', ?_, ?_⟩
  · rw [hattempts', hattempts, List.append_assoc]
  · rw [h.answer, hattempts] at hanswers'
    rw [answersTo_append, hanswers, hanswers']

/-- A part of a call without a version query to the address comes first. -/
theorem quiet_trans (h : env.Asks addr env' []) (h' : env'.Asks addr env'' answers) :
    env.Asks addr env'' answers :=
  h.trans h'

/-- A part of a call without a version query to the address comes last. -/
theorem trans_quiet (h : env.Asks addr env' answers) (h' : env'.Asks addr env'' []) :
    env.Asks addr env'' answers := by
  simpa using h.trans h'

/-- Whatever is tried, the version queries among it have some answers. -/
theorem record (addr : SocketAddr) (env : Env) (tried sent : List (SocketAddr × Bytes)) :
    env.Asks addr (env.record tried sent) (answersTo addr env.answer env.attempts tried) :=
  ⟨rfl, rfl, tried, rfl, rfl⟩

/-- Other datagrams are no version queries to the address. -/
theorem quiet {tried : List (SocketAddr × Bytes)} (sent : List (SocketAddr × Bytes))
    (hother : (addr, []) ∉ tried) : env.Asks addr (env.record tried sent) [] := by
  have hnone : answersTo addr env.answer env.attempts tried = [] :=
    of_not_not fun h => hother ((answersTo_ne_nil _ _).mp h)
  exact hnone ▸ record addr env tried sent

/-- What is sent to another address is no version query to this one. -/
theorem to_other {addr' : SocketAddr} (hne : addr' ≠ addr) (tried bufs : List Bytes) :
    env.Asks addr (env.record (tried.map (Prod.mk addr')) (bufs.map (Prod.mk addr'))) [] := by
  refine quiet _ fun hmem => ?_
  obtain ⟨buf, -, heq⟩ := List.mem_map.mp hmem
  exact hne (Prod.ext_iff.mp heq).1

/-- A datagram that is no version query to the address. -/
theorem send_other {addr' : SocketAddr} {buf : Bytes} (hne : (addr', buf) ≠ (addr, [])) :
    env.Asks addr (env.send addr' buf).2 [] := by
  have hother : (addr, []) ∉ [(addr', buf)] := fun hmem => hne (List.mem_singleton.mp hmem).symm
  rcases env.send_cases addr' buf with ⟨hsend, -⟩ | ⟨hsend, -⟩ | ⟨error, hsend, -⟩ <;> rw [hsend] <;>
    exact quiet _ hother

/-- A version query to the address. -/
theorem query {answer : SendAnswer} (sent : List (SocketAddr × Bytes))
    (hanswer : env.answer env.attempts (addr, []) = answer) :
    env.Asks addr (env.record [(addr, [])] sent) [answer] := by
  have hasks := record addr env [(addr, [])] sent
  rw [answersTo_query, hanswer] at hasks
  exact hasks

/-- The answers are those of the whole call. -/
theorem answersTo_eq (h : env.Asks addr env' answers) (hstart : env.attempts = []) :
    answersTo addr env'.answer [] env'.attempts = answers := by
  obtain ⟨tried, hattempts, hanswers⟩ := h.tried
  rw [hstart] at hattempts hanswers
  rw [h.answer, hattempts]
  exact hanswers

/-- A query was tried if and only if there is an answer. -/
theorem mem_attempts (h : env.Asks addr env' answers) (hstart : env.attempts = []) :
    (addr, []) ∈ env'.attempts ↔ answers ≠ [] := by
  rw [← h.answersTo_eq hstart, answersTo_ne_nil]

end Env.Asks

/-! ## Buffers do not ask for versions -/

/-- An ack is not empty. -/
theorem Env.Acks.asks {env env' : Env} {addr' : SocketAddr} (h : env.Acks addr' env') :
    env.Asks addr env' [] := by
  obtain ⟨tried, bufs, rfl, hacks⟩ := h
  refine .quiet _ fun hmem => ?_
  obtain ⟨buf, hbuf, heq⟩ := List.mem_map.mp hmem
  obtain ⟨id, seqIndex, rfl⟩ := hacks buf hbuf
  rw [ackDatagram_eq] at heq
  cases (Prod.ext_iff.mp heq).2

/-- Sending a packet tries some datagrams; none of them is sent to another address. -/
theorem PacketBuffers.send_asks (addr : SocketAddr) {b b' : PacketBuffers} {packet : List Bytes}
    {threshold : ℕ} {addr' : SocketAddr} {env env' : Env} {result : IoResult PacketId}
    (h : b.send packet threshold addr' env = .ok (result, b', env')) :
    ∃ answers, env.Asks addr env' answers ∧ (addr' ≠ addr → answers = []) := by
  have huuid : env.Asks addr env.newUuid.2 [] := ⟨rfl, rfl, [], (List.append_nil _).symm, rfl⟩
  obtain ⟨tried, bufs, rfl⟩ := send_env h
  by_cases hne : addr' = addr
  · exact ⟨_, huuid.quiet_trans (.record _ _ _ _), fun h => absurd hne h⟩
  · exact ⟨[], huuid.quiet_trans (.to_other hne _ _), fun _ => rfl⟩

/-! ## Listeners that wait for a version -/

/-- The version of a server is not known yet.  The listener remembers when the server was asked. -/
def ServerListener.IsPending (l : ServerListener P) (addr : SocketAddr) (last : Option ℕ) : Prop :=
  l.serverAddr = addr ∧ l.state = .pendingVersion last

/-- One of the listeners waits for the version of a server. -/
def Pending (ls : List (ServerListener P)) (addr : SocketAddr) (last : Option ℕ) : Prop :=
  ∃ l ∈ ls, l.IsPending addr last

section Pending

variable {ls ls' : List (ServerListener P)} {l : ServerListener P} {last : Option ℕ}

theorem ServerListener.IsPending.isCompatible (h : l.IsPending addr last) :
    ¬l.state.isCompatible = true := by
  rw [h.2]
  exact Bool.false_ne_true

theorem Pending.mono (h : Pending ls addr last) (hsub : ls ⊆ ls') : Pending ls' addr last := by
  obtain ⟨l, hl, hpending⟩ := h
  exact ⟨l, hsub hl, hpending⟩

theorem Pending.mem (h : Pending ls addr last) : addr ∈ ls.map ServerListener.serverAddr := by
  obtain ⟨l, hl, hpending⟩ := h
  exact List.mem_map.mpr ⟨l, hl, hpending.1⟩

/-- A listener that is replaced by one with a version does not wait. -/
theorem Pending.of_set {index : ℕ} (h : Pending (ls.set index l) addr last)
    (hl : ∀ last, l.state ≠ .pendingVersion last) : Pending ls addr last := by
  obtain ⟨l', hl', hpending⟩ := h
  rcases List.mem_or_eq_of_mem_set hl' with hmem | rfl
  · exact ⟨l', hmem, hpending⟩
  · exact absurd hpending.2 (hl last)

/-- A server has one listener only. -/
theorem eq_of_nodup {l' : ServerListener P} (hnodup : (ls.map ServerListener.serverAddr).Nodup)
    (hl : l ∈ ls) (hl' : l' ∈ ls) (haddr : l.serverAddr = l'.serverAddr) : l = l' :=
  List.inj_on_of_nodup_map hnodup hl hl' haddr

end Pending

/-! ## Creating and refreshing listeners -/

/-- What becomes of a listener that waits for a version in a call that is no update: it stays, the
server being asked in vain at most; or the server is asked for the first time. -/
inductive Opens (now : ℕ) (before : Option ℕ → Prop) : List SendAnswer → Option ℕ → Prop
  | kept {last : Option ℕ} (hbefore : before last) : Opens now before [] last
  | failed {last : Option ℕ} (hbefore : before last) (error : IoError) :
      Opens now before [.failed error] last
  | sent : Opens now before [.sent] (some now)
  | blocked : Opens now before [.wouldBlock] none

theorem Opens.mono {now : ℕ} {before before' : Option ℕ → Prop} {answers : List SendAnswer}
    {last : Option ℕ} (h : Opens now before answers last) (hmono : ∀ last, before last → before' last) :
    Opens now before' answers last := by
  cases h with
  | kept hbefore => exact .kept (hmono _ hbefore)
  | failed hbefore error => exact .failed (hmono _ hbefore) error
  | sent => exact .sent
  | blocked => exact .blocked

/-- A call that creates or refreshes listeners, or does nothing to those that wait. -/
def Opening (addr : SocketAddr) (env : Env) (ls : List (ServerListener P)) (env' : Env)
    (ls' : List (ServerListener P)) : Prop :=
  ∃ answers, env.Asks addr env' answers ∧
    ∀ last, Pending ls' addr last → Opens env.now (Pending ls addr) answers last

namespace Opening

variable {env env' : Env} {ls ls' : List (ServerListener P)}

/-- Nothing is asked, and no listener starts to wait. -/
theorem quiet (hasks : env.Asks addr env' [])
    (hkept : ∀ last, Pending ls' addr last → Pending ls addr last) :
    Opening addr env ls env' ls' :=
  ⟨[], hasks, fun last h => .kept (hkept last h)⟩

theorem refl (addr : SocketAddr) (env : Env) (ls : List (ServerListener P)) :
    Opening addr env ls env ls :=
  .quiet (.refl addr env) fun _ => id

/-- A packet is sent to a compatible server. -/
theorem of_sends [Rkyv P] {c : Client P} {packet : ClientConnectionPacket P} {index : ℕ}
    {l l' : ServerListener P} {sent : IoResult PacketId} (hnodup : c.addrs.Nodup)
    (h : c.Sends packet env index l sent l' env') :
    Opening addr env c.listeners env' (c.listeners.set index l') := by
  obtain ⟨buffers, lastInteraction, buffers', hstate, hsend, rfl⟩ := h.send
  have hkept : ∀ last, Pending (c.listeners.set index { l with
      state := .compatible buffers' lastInteraction }) addr last → Pending c.listeners addr last :=
    fun last hpending => hpending.of_set (by simp)
  obtain ⟨answers, hasks, hother⟩ := PacketBuffers.send_asks addr hsend
  by_cases haddr : l.serverAddr = addr
  · -- the listener of the server does not wait
    refine ⟨answers, hasks, fun last hpending => ?_⟩
    obtain ⟨l', hl', haddr', hstate'⟩ := hkept last hpending
    rw [eq_of_nodup hnodup h.mem hl' (haddr.trans haddr'.symm), hstate'] at hstate
    cases hstate
  · rw [hother haddr] at hasks
    exact .quiet hasks hkept

/-- Listeners may be dropped afterwards. -/
theorem subset {ls'' : List (ServerListener P)} (h : Opening addr env ls env' ls')
    (hsub : ls'' ⊆ ls') : Opening addr env ls env' ls'' := by
  obtain ⟨answers, hasks, hopens⟩ := h
  exact ⟨answers, hasks, fun last hpending => hopens last (hpending.mono hsub)⟩

end Opening

/-- Asking a server for its version, for the first time or again. -/
theorem ServerListener.pendingVersionQuery_cases (serverAddr : SocketAddr) (env : Env) :
    (∃ last sent, pendingVersionQuery serverAddr env =
        ((.ok (.pendingVersion last) : IoResult (ServerState P)),
          env.record [(serverAddr, [])] sent) ∧
      (env.answer env.attempts (serverAddr, []) = .sent ∧ last = some env.now ∨
        env.answer env.attempts (serverAddr, []) = .wouldBlock ∧ last = none)) ∨
    ∃ error, pendingVersionQuery serverAddr env =
        ((.error error : IoResult (ServerState P)), env.record [(serverAddr, [])] []) ∧
      env.answer env.attempts (serverAddr, []) = .failed error := by
  unfold pendingVersionQuery sendVersionQuery
  rcases env.send_cases serverAddr [] with ⟨hsend, hanswer⟩ | ⟨hsend, hanswer⟩ |
    ⟨error, hsend, hanswer⟩
  · rw [hsend]
    exact Or.inl ⟨_, _, rfl, Or.inl ⟨hanswer, rfl⟩⟩
  · rw [hsend]
    exact Or.inl ⟨_, _, rfl, Or.inr ⟨hanswer, rfl⟩⟩
  · rw [hsend]
    exact Or.inr ⟨error, rfl, hanswer⟩

namespace Client

variable {c c' : Client P} {serverAddr : SocketAddr} {env env' : Env}

/-- Looking for a listener asks its server only if the listener is added. -/
theorem getOrAddListener_opening (addr : SocketAddr) (c : Client P) (serverAddr : SocketAddr)
    (env : Env) :
    Opening addr env c.listeners (c.getOrAddListener serverAddr env).2.2
      (c.getOrAddListener serverAddr env).2.1.listeners := by
  unfold getOrAddListener
  cases hposition : c.position serverAddr with
  | some found => exact .refl addr env c.listeners
  | none =>
    have hnone : serverAddr ∉ c.addrs := position_eq_none.mp hposition
    unfold ServerListener.new
    rcases ServerListener.pendingVersionQuery_cases (P := P) serverAddr env with
      ⟨last, sent, hquery, hanswer⟩ | ⟨error, hquery, hanswer⟩
    · rw [hquery]
      by_cases haddr : serverAddr = addr
      · -- only the new listener waits for the version of the server
        subst haddr
        have hlast : ∀ last', Pending (c.listeners ++ [⟨serverAddr, .pendingVersion last⟩]) serverAddr
            last' → last' = last := by
          rintro last' ⟨l, hl, hpending⟩
          rcases List.mem_append.mp hl with hold | hnew
          · exact absurd (Pending.mem ⟨l, hold, hpending⟩) hnone
          · rw [List.mem_singleton.mp hnew] at hpending
            cases hpending.2
            rfl
        rcases hanswer with ⟨hanswer, rfl⟩ | ⟨hanswer, rfl⟩
        · exact ⟨_, .query sent hanswer, fun last' h => hlast last' h ▸ .sent⟩
        · exact ⟨_, .query sent hanswer, fun last' h => hlast last' h ▸ .blocked⟩
      · refine .quiet (.quiet sent fun hmem => ?_) ?_
        · exact haddr (Prod.ext_iff.mp (List.mem_singleton.mp hmem)).1.symm
        · rintro last' ⟨l, hl, hpending⟩
          rcases List.mem_append.mp hl with hold | hnew
          · exact ⟨l, hold, hpending⟩
          · rw [List.mem_singleton.mp hnew] at hpending
            exact absurd hpending.1 haddr
    · rw [hquery]
      by_cases haddr : serverAddr = addr
      · subst haddr
        exact ⟨_, .query [] hanswer, fun last h => .failed h error⟩
      · refine .quiet (.quiet [] fun hmem => ?_) fun _ => id
        exact haddr (Prod.ext_iff.mp (List.mem_singleton.mp hmem)).1.symm

theorem listen_opening (addr : SocketAddr) (c : Client P) (serverAddr : SocketAddr) (env : Env) :
    Opening addr env c.listeners (c.listen serverAddr env).2.2
      (c.listen serverAddr env).2.1.listeners := by
  have h := c.getOrAddListener_opening addr serverAddr env
  unfold listen
  split <;> rename_i heq <;> rw [heq] at h <;> exact h

/-- Forgetting a server makes no listener wait. -/
theorem forget_pending {last : Option ℕ} (h : Pending (c.forget serverAddr).2.listeners addr last) :
    Pending c.listeners addr last := by
  unfold forget at h
  split at h
  · exact h
  · split_ifs at h
    · exact h
    · exact h.mono (Vec.swapRemove_subperm c.listeners _).subset

theorem forgetAll_pending {last : Option ℕ} (hforget : c.forgetAll = .ok c')
    (h : Pending c'.listeners addr last) : Pending c.listeners addr last := by
  unfold forgetAll at hforget
  split_ifs at hforget
  · cases hforget
    exact h.mono (List.nil_subset _)
  · split at hforget
    · cases hforget
    · rename_i l ls hlisteners
      cases hforget
      rw [hlisteners]
      exact h.mono (List.cons_subset_cons l (List.nil_subset ls))

/-- Refreshing other listeners does not ask the server. -/
theorem refreshListeners_asks (ls : List (ServerListener P)) (env : Env)
    (hother : addr ∉ ls.map ServerListener.serverAddr) :
    env.Asks addr (refreshListeners ls env).2.2 [] := by
  induction ls generalizing env with
  | nil => exact .refl addr env
  | cons l ls ih =>
    rw [List.map_cons, List.mem_cons, not_or] at hother
    have hquiet : ∀ sent, env.Asks addr (env.record [(l.serverAddr, [])] sent) [] := fun sent =>
      .quiet sent fun hmem => hother.1 (Prod.ext_iff.mp (List.mem_singleton.mp hmem)).1
    unfold refreshListeners ServerListener.refresh
    rcases ServerListener.pendingVersionQuery_cases (P := P) l.serverAddr env with
      ⟨last, sent, hquery, -⟩ | ⟨error, hquery, -⟩
    · rw [hquery]
      exact (hquiet sent).quiet_trans (ih _ hother.2)
    · rw [hquery]
      exact hquiet []

/-- Refreshing asks every server once, up to the first query that fails. -/
theorem refreshListeners_opening (ls : List (ServerListener P)) (env : Env)
    (hnodup : (ls.map ServerListener.serverAddr).Nodup) :
    Opening addr env ls (refreshListeners ls env).2.2 (refreshListeners ls env).2.1 := by
  induction ls generalizing env with
  | nil => exact .refl addr env []
  | cons l ls ih =>
    rw [List.map_cons, List.nodup_cons] at hnodup
    unfold refreshListeners ServerListener.refresh
    rcases ServerListener.pendingVersionQuery_cases (P := P) l.serverAddr env with
      ⟨last, sent, hquery, hanswer⟩ | ⟨error, hquery, hanswer⟩
    · rw [hquery]
      dsimp only
      by_cases haddr : l.serverAddr = addr
      · -- only the refreshed listener waits for the version of the server
        subst haddr
        have hrest := refreshListeners_asks ls (env.record [(l.serverAddr, [])] sent) hnodup.1
        have hlast : ∀ last', Pending ({ l with state := .pendingVersion last } ::
            (refreshListeners ls (env.record [(l.serverAddr, [])] sent)).2.1) l.serverAddr last' →
            last' = last := by
          rintro last' ⟨l', hl', hpending⟩
          rcases List.mem_cons.mp hl' with rfl | hmem
          · cases hpending.2
            rfl
          · have hin : l.serverAddr ∈ _ := Pending.mem ⟨l', hmem, hpending⟩
            rw [refreshListeners_serverAddr] at hin
            exact absurd hin hnodup.1
        rcases hanswer with ⟨hanswer, rfl⟩ | ⟨hanswer, rfl⟩
        · exact ⟨_, Env.Asks.trans_quiet (.query sent hanswer) hrest, fun last' h =>
            hlast last' h ▸ .sent⟩
        · exact ⟨_, Env.Asks.trans_quiet (.query sent hanswer) hrest, fun last' h =>
            hlast last' h ▸ .blocked⟩
      · have hquiet : env.Asks addr (env.record [(l.serverAddr, [])] sent) [] :=
          .quiet sent fun hmem => haddr (Prod.ext_iff.mp (List.mem_singleton.mp hmem)).1.symm
        obtain ⟨answers, hasks, hopens⟩ := ih (env.record [(l.serverAddr, [])] sent) hnodup.2
        refine ⟨answers, hquiet.quiet_trans hasks, ?_⟩
        rintro last' ⟨l', hl', hpending⟩
        rcases List.mem_cons.mp hl' with rfl | hmem
        · exact absurd hpending.1 haddr
        · exact (hopens last' ⟨l', hmem, hpending⟩).mono fun last h =>
            h.mono (List.subset_cons_self l ls)
    · rw [hquery]
      dsimp only
      by_cases haddr : l.serverAddr = addr
      · subst haddr
        exact ⟨_, .query [] hanswer, fun last h => .failed h error⟩
      · refine .quiet (.quiet [] fun hmem => ?_) fun _ => id
        exact haddr (Prod.ext_iff.mp (List.mem_singleton.mp hmem)).1.symm

section Sending

variable [Rkyv P]

/-- What a query means for the versions of servers. -/
theorem query_opening {query : P.Query} {result : Except QueryError PacketId}
    (hnodup : c.addrs.Nodup) (h : c.query serverAddr query env = .ok (result, c', env')) :
    Opening addr env c.listeners env' c'.listeners := by
  cases query_outcome h with
  | refused error => exact c.getOrAddListener_opening addr serverAddr env
  | sends hposition hsends => exact .of_sends hnodup hsends

/-- What connecting means for the versions of servers. -/
theorem connect_opening {peer : IoResult SocketAddr} {connect : P.Connect}
    {result : Except ConnectError PacketId} (hnodup : c.addrs.Nodup)
    (h : c.connect peer connect env = .ok (result, c', env')) :
    Opening addr env c.listeners env' c'.listeners := by
  cases connect_outcome h with
  | notDisconnected | noPeer => exact .refl addr env c.listeners
  | refused hstate serverAddr => exact c.getOrAddListener_opening addr serverAddr env
  | failed _ _ hsends | sends _ _ hsends => exact .of_sends hnodup hsends

/-- What sending to the connected server means for the versions of servers. -/
theorem sendConnected_opening {packet : ClientConnectionPacket P} {state : ClientState}
    {result : Except SendError PacketId} (hnodup : c.addrs.Nodup)
    (h : c.sendConnected packet state env = .ok (result, c', env')) :
    Opening addr env c.listeners env' c'.listeners := by
  cases sendConnected_outcome h with
  | notConnected => exact .refl addr env c.listeners
  | failed _ hsends =>
    exact Opening.subset (.of_sends hnodup hsends) (Vec.swapRemove_subperm _ 0).subset
  | sends _ hsends => exact .of_sends hnodup hsends

end Sending

end Client

/-! ## Updating listeners -/

/-- A server that was asked long enough ago has to be asked again. -/
def QueryDue (resendDelay now : ℕ) (last : Option ℕ) : Prop :=
  ∃ it, last = some it ∧ resendDelay ≤ elapsed now it

/-- What an update makes of a listener that waits for a version and is kept. -/
inductive Retried (resendDelay now : ℕ) (last : Option ℕ) : List SendAnswer → Option ℕ → Prop
  | early (hearly : ¬QueryDue resendDelay now last) : Retried resendDelay now last [] last
  | sent (hdue : QueryDue resendDelay now last) :
      Retried resendDelay now last [.sent] (some now)
  | blocked (hdue : QueryDue resendDelay now last) :
      Retried resendDelay now last [.wouldBlock] last

namespace ServerListener

variable {l l' : ServerListener P} {last : Option ℕ} {state state' : Option ClientState}
  {config : ClientConfig} {error : Option IoError} {kept : Option (ServerListener P)} {env env' : Env}

/-- Updating a listener that waits for a version asks the server if this is due, and only then. -/
theorem update_pending (hl : l.IsPending addr last)
    (h : l.update state config env = (kept, state', error, env')) :
    ∃ answers, env.Asks addr env' answers ∧
      (answers ≠ [] ↔ QueryDue config.connection.resendDelay env.now last) ∧
      ∀ l' last', kept = some l' → l'.IsPending addr last' →
        Retried config.connection.resendDelay env.now last answers last' := by
  obtain ⟨rfl, hstate⟩ := hl
  have hdecide : (last.any fun it => decide (config.connection.resendDelay ≤ elapsed env.now it)) =
      true ↔ QueryDue config.connection.resendDelay env.now last := by
    rw [Option.any_eq_true]
    exact exists_congr fun it => and_congr_right fun _ => decide_eq_true_iff
  unfold update at h
  rw [hstate] at h
  dsimp only at h
  split_ifs at h with hif
  · have hdue := hdecide.mp hif
    unfold sendVersionQuery at h
    rcases env.send_cases l.serverAddr [] with ⟨hsend, hanswer⟩ | ⟨hsend, hanswer⟩ |
      ⟨e, hsend, hanswer⟩
    · rw [hsend] at h
      cases h
      refine ⟨_, .query _ hanswer, iff_of_true (List.cons_ne_nil _ _) hdue, ?_⟩
      rintro l' last' hkept ⟨-, hlast⟩
      cases hkept
      cases hlast
      exact .sent hdue
    · rw [hsend] at h
      cases h
      refine ⟨_, .query _ hanswer, iff_of_true (List.cons_ne_nil _ _) hdue, ?_⟩
      rintro l' last' hkept ⟨-, hlast⟩
      cases hkept
      cases hlast
      exact .blocked hdue
    · rw [hsend] at h
      cases h
      exact ⟨_, .query _ hanswer, iff_of_true (List.cons_ne_nil _ _) hdue, by simp⟩
  · have hearly := fun hdue => hif (hdecide.mpr hdue)
    cases h
    refine ⟨[], .refl _ _, iff_of_false (fun hne => hne rfl) hearly, ?_⟩
    rintro l' last' hkept ⟨-, hlast⟩
    cases hkept
    rw [hstate] at hlast
    cases hlast
    exact .early hearly

/-- Updating a listener uses the socket only to send to its server. -/
theorem update_env (h : l.update state config env = (kept, state', error, env')) :
    ∃ tried bufs : List Bytes, env' =
      env.record (tried.map (Prod.mk l.serverAddr)) (bufs.map (Prod.mk l.serverAddr)) := by
  unfold update at h
  split at h
  · split_ifs at h
    · unfold sendVersionQuery at h
      rcases env.send_cases l.serverAddr [] with ⟨hsend, -⟩ | ⟨hsend, -⟩ | ⟨e, hsend, -⟩ <;>
        rw [hsend] at h <;> cases h
      · exact ⟨[[]], [[]], rfl⟩
      · exact ⟨[[]], [], rfl⟩
      · exact ⟨[[]], [], rfl⟩
    · cases h
      exact ⟨[], [], env.record_nil.symm⟩
  · rename_i buffers lastInteraction hstate
    rcases hupdate : buffers.update config.connection.resendDelay config.connection.maxMissedAcks
      config.connection.receiveTimeout l.serverAddr env with ⟨result, buffers', env''⟩
    rw [hupdate] at h
    cases result <;> cases h <;> exact PacketBuffers.update_env hupdate
  · cases h
    exact ⟨[], [], env.record_nil.symm⟩

/-- Updating a listener does not make it wait. -/
theorem update_of_isPending (h : l.update state config env = (some l', state', error, env'))
    (hl' : l'.IsPending addr last) : ∃ last, l.IsPending addr last := by
  obtain ⟨haddr, hstate'⟩ := hl'
  unfold update at h
  split at h
  · rename_i lastVersionQuery hstate
    have haddr' : l'.serverAddr = l.serverAddr := by
      split_ifs at h
      · split at h <;> cases h
        rfl
      · cases h
        rfl
    exact ⟨lastVersionQuery, haddr'.symm.trans haddr, hstate⟩
  · split at h <;> cases h
    cases hstate'
  · rename_i e hstate
    cases h
    rw [hstate] at hstate'
    cases hstate'

end ServerListener

namespace ClientUpdate

theorem visitListener_pending (config : ClientConfig) (pass : Pass P) {l : ServerListener P}
    {last : Option ℕ} (hl : l.IsPending addr last) :
    ∃ answers, pass.env.Asks addr (visitListener config pass l).1.env answers ∧
      (answers ≠ [] ↔ QueryDue config.connection.resendDelay pass.env.now last) ∧
      ∀ l' last', (visitListener config pass l).2 = some l' → l'.IsPending addr last' →
        Retried config.connection.resendDelay pass.env.now last answers last' :=
  ServerListener.update_pending hl rfl

/-- The pass over the listeners of other servers does not ask the server. -/
theorem retainListeners_asks (config : ClientConfig) (pass : Pass P) (ls : List (ServerListener P))
    (hother : addr ∉ ls.map ServerListener.serverAddr) :
    pass.env.Asks addr (Vec.retainMut (visitListener config) pass ls).1.env [] := by
  refine Vec.retainMut_state (I := fun pass' : Pass P => pass.env.Asks addr pass'.env [])
    (fun pass' l hl hasks => ?_) (.refl addr pass.env)
  obtain ⟨tried, bufs, henv⟩ : ∃ tried bufs : List Bytes, (visitListener config pass' l).1.env =
      pass'.env.record (tried.map (Prod.mk l.serverAddr)) (bufs.map (Prod.mk l.serverAddr)) :=
    ServerListener.update_env rfl
  refine hasks.quiet_trans ?_
  rw [henv]
  exact .to_other (fun haddr => hother (List.mem_map.mpr ⟨l, hl, haddr⟩)) tried bufs

/-- What a pass over some listeners does to the one that waits for the version of a server. -/
theorem retainListeners_retries (config : ClientConfig) (pass : Pass P)
    {ls : List (ServerListener P)} {last : Option ℕ}
    (hnodup : (ls.map ServerListener.serverAddr).Nodup) (hpending : Pending ls addr last) :
    ∃ answers, pass.env.Asks addr (Vec.retainMut (visitListener config) pass ls).1.env answers ∧
      (answers ≠ [] ↔ QueryDue config.connection.resendDelay pass.env.now last) ∧
      ∀ last', Pending (Vec.retainMut (visitListener config) pass ls).2 addr last' →
        Retried config.connection.resendDelay pass.env.now last answers last' := by
  obtain ⟨l, hl, hwaits⟩ := hpending
  obtain ⟨as, bs, rfl⟩ := List.append_of_mem hl
  rw [List.map_append, List.map_cons, hwaits.1] at hnodup
  obtain ⟨-, hcons, hdisjoint⟩ := List.nodup_append.mp hnodup
  -- no other listener is the one of the server
  have has : addr ∉ as.map ServerListener.serverAddr := fun hmem =>
    hdisjoint addr hmem addr List.mem_cons_self rfl
  have hbs : addr ∉ bs.map ServerListener.serverAddr := (List.nodup_cons.mp hcons).1
  have hbefore := retainListeners_asks config pass as has
  have haddrs := retainListeners_addrs config pass as
  rw [Vec.retainMut_append, Vec.retainMut_cons]
  generalize Vec.retainMut (visitListener config) pass as = first at hbefore haddrs ⊢
  obtain ⟨pass₁, as'⟩ := first
  obtain ⟨answers, hasks, hdue, hretried⟩ := visitListener_pending config pass₁ hwaits
  have hafter := retainListeners_asks config (visitListener config pass₁ l).1 bs hbs
  have haddrs' := retainListeners_addrs config (visitListener config pass₁ l).1 bs
  rw [hbefore.now] at hdue hretried
  refine ⟨answers, hbefore.quiet_trans (Env.Asks.trans_quiet hasks hafter), hdue, ?_⟩
  rintro last' ⟨l', hl', hwaits'⟩
  rcases List.mem_append.mp hl' with hmem | hmem
  · exact absurd (haddrs.subset (Pending.mem ⟨l', hmem, hwaits'⟩)) has
  · rcases List.mem_append.mp hmem with hkept | hrest
    · exact hretried l' last' (Option.mem_toList.mp hkept) hwaits'
    · exact absurd (haddrs'.subset (Pending.mem ⟨l', hrest, hwaits'⟩)) hbs

/-- **What the pass over the listeners does to one that waits for a version.**  It asks the server if
this is due, and only then. -/
theorem updateListeners_retries {u : ClientUpdate P} {last : Option ℕ}
    (hnodup : u.client.addrs.Nodup) (hpending : Pending u.client.listeners addr last) :
    ∃ answers, u.env.Asks addr u.updateListeners.env answers ∧
      (answers ≠ [] ↔ QueryDue u.client.config.connection.resendDelay u.env.now last) ∧
      ∀ last', Pending u.updateListeners.client.listeners addr last' →
        Retried u.client.config.connection.resendDelay u.env.now last answers last' :=
  retainListeners_retries u.client.config
    { connected := u.client.state ≠ .disconnected
      state := u.client.state
      env := u.env
      events := u.events } hnodup hpending

/-- The pass over the listeners makes none of them wait. -/
theorem updateListeners_pending {u : ClientUpdate P} {last' : Option ℕ}
    (h : Pending u.updateListeners.client.listeners addr last') :
    ∃ last, Pending u.client.listeners addr last := by
  obtain ⟨l', hl', hwaits'⟩ := h
  obtain ⟨pass, l, hl, hkept⟩ := Vec.exists_of_mem_retainMut hl'
  obtain ⟨last, hwaits⟩ := ServerListener.update_of_isPending (Prod.ext hkept rfl) hwaits'
  exact ⟨last, l, hl, hwaits⟩

/-! ### The receive loop -/

/-- No version query to the server is tried, and no listener starts to wait for its version. -/
def Quiet (addr : SocketAddr) (u u' : ClientUpdate P) : Prop :=
  u.env.Asks addr u'.env [] ∧
    ∀ last, Pending u'.client.listeners addr last → Pending u.client.listeners addr last

theorem Quiet.refl (addr : SocketAddr) (u : ClientUpdate P) : Quiet addr u u :=
  ⟨.refl addr u.env, fun _ => id⟩

theorem Quiet.trans {u u' u'' : ClientUpdate P} (h : Quiet addr u u') (h' : Quiet addr u' u'') :
    Quiet addr u u'' :=
  ⟨h.1.quiet_trans h'.1, fun last hpending => h.2 last (h'.2 last hpending)⟩

theorem handleVersion_quiet (addr : SocketAddr) (handler : ClientHandler P) (u : ClientUpdate P)
    (index : ℕ) (listener : ServerListener P) (buf : Bytes) :
    Quiet addr u (u.handleVersion handler index listener buf) := by
  unfold handleVersion
  split
  · exact .refl addr u
  · split_ifs
    · split
      · exact .refl addr u
      · dsimp only
        split
        · exact ⟨.refl addr u.env, fun last hpending => hpending.of_set (by simp)⟩
        · exact ⟨.refl addr u.env, fun last hpending => hpending.of_set (by simp)⟩
    · exact .refl addr u

/-- A ping is sent back, which is not empty. -/
theorem handlePing_quiet (addr : SocketAddr) (u : ClientUpdate P) (serverAddr : SocketAddr)
    {buf : Bytes} (hbuf : buf ≠ []) : Quiet addr u (u.handlePing serverAddr buf) := by
  have hsend : u.env.Asks addr (u.env.send serverAddr buf).2 [] :=
    .send_other fun heq => hbuf (Prod.ext_iff.mp heq).2
  unfold handlePing
  dsimp only
  split <;> rename_i heq <;> rw [tell_env] at heq <;> rw [heq] at hsend <;>
    exact ⟨hsend, fun _ => id⟩

section Receive

variable [Rkyv P] {u u' : ClientUpdate P}

/-- What the buffers made of a datagram is told only. -/
theorem Resulted.env {serverAddr : SocketAddr} {isConnectionListener : Bool}
    {result : Except HandlePacketError PacketHandling}
    (h : u.Resulted serverAddr isConnectionListener result u') : u'.env = u.env := by
  have hin : ∀ (v : ClientUpdate P) state event next,
      (v.handleInState serverAddr isConnectionListener state event next).env = v.env := by
    intro v state event next
    unfold handleInState
    split_ifs <;> rfl
  cases h with
  | error error => rfl
  | rawPacket handling packet => rfl
  | invalid bytes error hcheck => rfl
  | valid bytes packet hcheck =>
    cases packet with
    | status status => rfl
    | accept accept => exact hin _ _ _ _
    | reject reject => exact hin _ _ _ _
    | kick kick => exact hin _ _ _ _
    | user packet => exact hin _ _ _ _

theorem handleCompatible_quiet (addr : SocketAddr) {isConnectionListener : Bool} {index : ℕ}
    {listener : ServerListener P} {buffers : PacketBuffers} {buf : Bytes}
    (h : u.handleCompatible isConnectionListener index listener buffers buf = .ok u') :
    Quiet addr u u' := by
  unfold handleCompatible at h
  dsimp only at h
  split_ifs at h with hping
  · have hbuf : buf ≠ [] := by
      rintro rfl
      cases hping.2
    cases h
    obtain ⟨hasks, hpending⟩ := handlePing_quiet addr (u.setListener index
      { listener with state := .compatible buffers u.env.now }) listener.serverAddr hbuf
    exact ⟨hasks, fun last h => (hpending last h).of_set (by simp)⟩
  · rw [setListener_env] at h
    obtain ⟨⟨result, buffers', env'⟩, hhandle, hresult⟩ := exists_of_bind_ok h
    refine ⟨?_, fun last hpending => ?_⟩
    · rw [(resulted hresult).env]
      exact (PacketBuffers.handle_acks hhandle).asks
    · rw [(resulted hresult).cases.1] at hpending
      exact (hpending.of_set (by simp)).of_set (by simp)

theorem handleDatagram_quiet (addr : SocketAddr) {handler : ClientHandler P}
    {serverAddr : SocketAddr} {buf : Bytes}
    (h : u.handleDatagram handler serverAddr buf = .ok u') : Quiet addr u u' := by
  unfold handleDatagram at h
  split at h
  · cases h
    exact .refl addr u
  · dsimp only at h
    split at h
    · cases h
      exact handleVersion_quiet addr handler u _ _ buf
    · exact handleCompatible_quiet addr h
    · cases h
      exact .refl addr u

/-- The receive loop sends no version queries, and makes no listener wait. -/
theorem receive_quiet (addr : SocketAddr) {handler : ClientHandler P} {incoming : Incoming}
    (h : u.receive handler incoming = .ok u') : Quiet addr u u' := by
  obtain ⟨v, hfold, rfl⟩ := receive_eq_ok h
  have hloop : Quiet addr u v := Vec.foldlM_rule (R := Quiet addr) (.refl addr)
    (fun _ _ _ => .trans) (fun _ _ _ _ => handleDatagram_quiet addr) hfold
  refine hloop.trans ?_
  cases incoming.error with
  | none => exact .refl addr v
  | some error => exact .refl addr v

end Receive

end ClientUpdate

namespace Client

variable [Rkyv P] {c : Client P} {handler : ClientHandler P} {incoming : Incoming} {env : Env}
  {u : ClientUpdate P}

/-- After the pass over the listeners, an update asks no server and makes no listener wait. -/
theorem update_quiet (addr : SocketAddr) (h : c.update handler incoming env = .ok u) :
    ClientUpdate.Quiet addr (ClientUpdate.updateListeners { client := c, env, events := [] }) u := by
  obtain ⟨v, hreceive, rfl⟩ := update_eq_ok h
  obtain ⟨hasks, hpending⟩ := ClientUpdate.receive_quiet addr hreceive
  refine ⟨hasks, fun last hlast => hpending last (hlast.mono ?_)⟩
  rw [v.timeoutConnection_eq.1]
  exact List.filter_sublist.subset

/-- **What an update does to a listener that waits for a version.** -/
theorem update_retries {last : Option ℕ} (hnodup : c.addrs.Nodup)
    (hpending : Pending c.listeners addr last) (h : c.update handler incoming env = .ok u) :
    ∃ answers, env.Asks addr u.env answers ∧
      (answers ≠ [] ↔ QueryDue c.config.connection.resendDelay env.now last) ∧
      ∀ last', Pending u.client.listeners addr last' →
        Retried c.config.connection.resendDelay env.now last answers last' := by
  obtain ⟨hasks, hkept⟩ := update_quiet addr h
  obtain ⟨answers, hpass, hdue, hretried⟩ := ClientUpdate.updateListeners_retries
    (u := { client := c, env, events := [] }) hnodup hpending
  exact ⟨answers, hpass.trans_quiet hasks, hdue, fun last' hlast => hretried last' (hkept last' hlast)⟩

/-- An update makes no listener wait. -/
theorem update_pending {last' : Option ℕ} (h : c.update handler incoming env = .ok u)
    (hpending : Pending u.client.listeners addr last') : ∃ last, Pending c.listeners addr last :=
  ClientUpdate.updateListeners_pending ((update_quiet addr h).2 last' hpending)

end Client

end Ultinet
