import Ultinet.Net.AddressBook

/-!
# The callbacks of a server

What the handler of a server may be told about an address follows an automaton with the states of
`AddrStatus`: what is told about an address in a step is allowed in the state the address is in before
the step (`ServerEvent.AllowedIn`), and a step moves the address along one of the edges of `Moves`,
each of which says what has to happen for it.
-/

namespace Ultinet

variable {P : Packets}

namespace Server

variable {s t : Server} {addr : SocketAddr}

/-! ## The state of an address -/

theorem status_eq_client : s.status addr = .client ↔ (s.findClient addr).isSome = true := by
  unfold status
  split_ifs with hclient hlistener
  · simp [hclient]
  · simp [hclient]
  · simp [hclient]

theorem status_eq_listener (hclient : s.findClient addr = none)
    (hlistener : (s.listeners.get? addr).isSome = true) : s.status addr = .listener := by
  simp [status, hclient, hlistener]

theorem status_eq_unknown (hclient : s.findClient addr = none)
    (hlistener : s.listeners.get? addr = none) : s.status addr = .unknown := by
  simp [status, hclient, hlistener]

/-- The state depends only on whether there is a slot, and whether there is a listener. -/
theorem status_congr (hclient : (t.findClient addr).isSome = (s.findClient addr).isSome)
    (hlistener : (t.listeners.get? addr).isSome = (s.listeners.get? addr).isSome) :
    t.status addr = s.status addr := by
  simp only [status, hclient, hlistener]

theorem SameEntry.status_eq (h : s.SameEntry addr t) : t.status addr = s.status addr :=
  status_congr (by rw [h.2]) (by rw [h.1])

/-- Replacing a client by one with the same address changes no state. -/
theorem status_setClient {i : ℕ} {c c' : ClientConnection}
    (hget : s.clients[i]? = some (some c)) (haddr : c'.clientAddr = c.clientAddr)
    (addr : SocketAddr) : (s.setClient i (some c')).status addr = s.status addr := by
  have hlt := (List.getElem?_eq_some_iff.mp hget).1
  refine status_congr (Bool.eq_iff_iff.mpr ?_) rfl
  rw [isSome_findClient, isSome_findClient]
  constructor
  · rintro ⟨j, d, hj, hd⟩
    rw [getElem?_setClient _ hlt] at hj
    split_ifs at hj with hji
    · cases hj
      exact ⟨i, c, hget, haddr.symm.trans hd⟩
    · exact ⟨j, d, hj, hd⟩
  · rintro ⟨j, d, hj, hd⟩
    by_cases hji : j = i
    · subst hji
      rw [hget] at hj
      cases hj
      refine ⟨j, c', ?_, haddr.trans hd⟩
      rw [getElem?_setClient _ hlt, if_pos rfl]
    · refine ⟨j, d, ?_, hd⟩
      rw [getElem?_setClient _ hlt, if_neg hji, hj]

/-- A client that is disconnected is a listener. -/
theorem status_disconnectClient (hs : s.UniqueAddrs) {i : ℕ} {c c' : ClientConnection}
    (hget : s.clients[i]? = some (some c)) (haddr : c'.clientAddr = c.clientAddr) :
    (s.disconnectClient i c').status c.clientAddr = .listener := by
  have hlt := (List.getElem?_eq_some_iff.mp hget).1
  refine status_eq_listener (findClient_eq_none.mpr fun j d hj hd => ?_) ?_
  · have hj' : (s.setClient i none).clients[j]? = some (some d) := hj
    rw [getElem?_setClient _ hlt] at hj'
    split_ifs at hj' with hji
    · cases hj'
    · exact hji (hs.slots j i d c hj' hget hd)
  · have hinsert : (s.disconnectClient i c').listeners.get? c.clientAddr = some c'.buffers := by
      rw [← haddr]
      exact SortedMap.get?_insert_self _ _ _
    rw [hinsert]
    rfl

/-! ## Forgetting a listener -/

theorem unlisten_clients (s : Server) (addr : SocketAddr) :
    (s.unlisten addr).2.clients = s.clients := by
  unfold unlisten
  split_ifs <;> rfl

theorem get?_unlisten_of_ne (s : Server) {a : SocketAddr} (hne : a ≠ addr) :
    (s.unlisten addr).2.listeners.get? a = s.listeners.get? a := by
  unfold unlisten
  split_ifs
  · dsimp only
    rw [SortedMap.get?_erase, if_neg hne]
  · rfl
  · rfl

theorem get?_unlisten_self (s : Server) (addr : SocketAddr) :
    (s.unlisten addr).2.listeners.get? addr = none ∨
      (s.unlisten addr).2.listeners.get? addr = s.listeners.get? addr := by
  unfold unlisten
  split_ifs
  · dsimp only
    rw [SortedMap.get?_erase, if_pos rfl]
    exact Or.inl rfl
  · exact Or.inr rfl
  · exact Or.inr rfl

end Server

/-- Where the callbacks about the packets of a client are allowed. -/
theorem ServerEvent.AllowedIn.status_eq {event : ServerEvent P} {status : AddrStatus}
    (h : event.AllowedIn status) :
    match event with
    | .connect _ _ => status = .listener
    | .packet _ _ | .disconnect _ _ | .pong _ _ => status = .client
    | .query _ _ => status ≠ .unknown
    | _ => True := by
  cases event <;> cases status <;> first | trivial | simp

/-! ## The automaton -/

section Automaton

variable [Rkyv P]

/-- **The edges of the automaton.**  What moves an address from one state to another. -/
inductive Moves (u : ServerUpdate P) (addr : SocketAddr) (new : List (ServerEvent P)) :
    ServerStep P → AddrStatus → AddrStatus → Prop
  | stays (l : ServerStep P) (status : AddrStatus) : Moves u addr new l status status
  /-- The reply to a version request was sent. -/
  | listens (handler : ServerHandler P) (buf : Bytes) (hbuf : recv buf = [])
      (hsend : (u.env.send addr (PacketKind.version.toByte ::
        (VersionPacket.write (handler.version u.events)).val)).1 = .ok true) :
      Moves u addr new (.datagram handler addr buf) .unknown .listener
  /-- A valid `Connect` was reassembled and answered with `Accept`, which could be sent. -/
  | accepts (handler : ServerHandler P) (buf : Bytes) (buffers buffers' buffers'' : PacketBuffers)
      (connect : P.Connect) (accept : P.Accept) (env env' : Env) (packetId : PacketId)
      (hget : u.server.listeners.get? addr = some buffers)
      (hcompletes : buffers.Completes addr (recv buf) u.env
        (.connect connect : ClientConnectionPacket P) buffers' env)
      (haccept : handler.connect (u.events ++ [.rawPacket (.part addr .reassembled)]) addr connect =
        .accept accept)
      (hsend : buffers'.send (Rkyv.serializeServer (.accept accept))
        u.server.config.connection.backgroundSerializationThreshold addr env =
          .ok (.ok packetId, buffers'', env')) :
      Moves u addr new (.datagram handler addr buf) .listener .client
  /-- A valid `Disconnect`, a second `Connect`, or a query whose `Status` cannot be sent. -/
  | disconnects (handler : ServerHandler P) (buf : Bytes) (index : ℕ) (client : ClientConnection)
      (packet : ClientConnectionPacket P) (buffers : PacketBuffers) (env : Env)
      (hfind : u.server.findClient addr = some (index, client))
      (hcompletes : client.buffers.Completes addr (recv buf) u.env packet buffers env)
      (hends : EndsConnection handler u addr buffers env packet new) :
      Moves u addr new (.datagram handler addr buf) .client .listener
  /-- An I/O error while the packets are sent, or while the client is pinged, or a ping timeout. -/
  | loses (l : ServerStep P) (hl : l = .updateBuffers ∨ l = .sendPings) (e : ServerEvent P)
      (he : e ∈ new) (hloses : e.Loses addr) : Moves u addr new l .client .unknown
  | unlistens : Moves u addr new (.unlisten addr) .listener .unknown
  | unlistensAll : Moves u addr new .unlistenAll .listener .unknown

/-- What the handler was told in the current call before a step. -/
def toldBefore (u : ServerUpdate P) : ServerStep P → List (ServerEvent P)
  | .call _ => []
  | _ => u.events

/-- What a step does to an address: what the handler is told about it is allowed in the state the
address is in, and the state moves along an edge. -/
structure FollowsAutomaton (u u' : ServerUpdate P) (l : ServerStep P)
    (new : List (ServerEvent P)) (addr : SocketAddr) : Prop where
  allowed : ∀ e ∈ new, e.addr? = some addr → e.AllowedIn (u.server.status addr)
  moves : Moves u addr new l (u.server.status addr) (u'.server.status addr)

namespace FollowsAutomaton

variable {u u' : ServerUpdate P} {l : ServerStep P} {new : List (ServerEvent P)} {addr : SocketAddr}

/-- Nothing is told, and nothing changes. -/
theorem quiet (h : u'.server.status addr = u.server.status addr) :
    FollowsAutomaton u u' l [] addr := by
  constructor
  · intro e he
    cases he
  · rw [h]
    exact .stays l _

/-- What is told is about another address. -/
theorem of_other {a : SocketAddr} (hne : addr ≠ a)
    (hnew : ∀ e ∈ new, e.addr? = none ∨ e.addr? = some a)
    (h : u'.server.status addr = u.server.status addr) : FollowsAutomaton u u' l new addr := by
  constructor
  · intro e he haddr
    rcases hnew e he with hnone | hsome
    · rw [hnone] at haddr
      cases haddr
    · rw [hsome] at haddr
      cases haddr
      exact absurd rfl hne
  · rw [h]
    exact .stays l _

end FollowsAutomaton

/-! ## A datagram -/

namespace ServerUpdate

variable {handler : ServerHandler P} {u u' : ServerUpdate P} {addr : SocketAddr} {buf : Bytes}

/-- What is told about a packet that ends the connection is allowed for a client. -/
theorem endsConnection_aboutIn {buffers : PacketBuffers} {env : Env}
    {packet : ClientConnectionPacket P} {new : List (ServerEvent P)}
    (h : EndsConnection handler u addr buffers env packet new) :
    ∀ e ∈ new, e.AboutIn addr .client := by
  intro e he
  cases h with
  | disconnect disconnect => rcases List.mem_pair.mp he with rfl | rfl <;> exact ⟨rfl, trivial⟩
  | connect connect => rcases List.mem_pair.mp he with rfl | rfl <;> exact ⟨rfl, trivial⟩
  | query query hsend =>
    simp only [List.mem_cons, List.not_mem_nil, or_false] at he
    rcases he with rfl | rfl | rfl <;> exact ⟨rfl, trivial⟩

omit [Rkyv P] in
/-- What is allowed in the state of the address it is about. -/
theorem allowed_of_aboutIn {status : AddrStatus} {new : List (ServerEvent P)} {s : Server}
    (hstatus : s.status addr = status) (hnew : ∀ e ∈ new, e.AboutIn addr status) :
    ∀ e ∈ new, e.addr? = some addr → e.AllowedIn (s.status addr) := by
  intro e he _
  rw [hstatus]
  exact (hnew e he).2

/-- **A datagram follows the automaton.**  Everything that is told is about the address it comes
from, and a datagram from an unknown address that has any bytes changes nothing. -/
theorem Handled.follows (h : u.Handled handler addr (recv buf) u') (hs : u.server.UniqueAddrs)
    (hs' : u'.server.UniqueAddrs) :
    ∃ new, u'.events = u.events ++ new ∧ (∀ e ∈ new, e = .version ∨ e.addr? = some addr) ∧
      FollowsAutomaton u u' (.datagram handler addr buf) new addr ∧
      (u.server.status addr = .unknown → recv buf ≠ [] → u'.server = u.server) := by
  cases h with
  | version new hbuf hnew hevents hserver =>
    refine ⟨new, hevents, fun e he => ?_, ⟨fun e he haddr => ?_, ?_⟩, fun _ hne => absurd hbuf hne⟩
    · rcases hnew e he with rfl | ⟨error, rfl⟩
      · exact Or.inl rfl
      · exact Or.inr rfl
    · rcases hnew e he with rfl | ⟨error, rfl⟩
      · cases haddr
      · -- a send error is allowed in every state
        cases u.server.status addr <;> trivial
    · rw [hserver]
      exact .stays _ _
  | versionAnswered hbuf hsend hlistener hclient hevents hserver =>
    have hbefore := Server.status_eq_unknown hclient hlistener
    have hafter : u'.server.status addr = .listener := by
      refine Server.status_eq_listener (by rw [hserver]; exact hclient) ?_
      rw [hserver]
      simp
    refine ⟨_, hevents, fun e he => Or.inl (List.mem_singleton.mp he), ⟨fun e he haddr => ?_, ?_⟩,
      fun _ hne => absurd hbuf hne⟩
    · rw [List.mem_singleton.mp he] at haddr
      cases haddr
    · rw [hbefore, hafter]
      exact .listens handler buf hbuf hsend
  | unknown hbuf hlistener hclient hevents hserver =>
    refine ⟨_, hevents, fun e he => ?_, ⟨fun e he _ => ?_, ?_⟩, fun _ _ => hserver⟩
    · rw [List.mem_singleton.mp he]
      exact Or.inr rfl
    · rw [List.mem_singleton.mp he, Server.status_eq_unknown hclient hlistener]
      trivial
    · rw [hserver]
      exact .stays _ _
  | client index client client' new hbuf hfind haddr hevolves hnew hevents hserver =>
    obtain ⟨hget, haddr'⟩ := Server.findClient_eq_some hfind
    have hstatus : u.server.status addr = .client :=
      Server.status_eq_client.mpr (by rw [hfind]; rfl)
    refine ⟨new, hevents, fun e he => Or.inr (hnew e he).1, ⟨allowed_of_aboutIn hstatus hnew, ?_⟩,
      fun hunknown => ?_⟩
    · rw [hserver, Server.status_setClient hget (haddr.trans haddr'.symm)]
      exact .stays _ _
    · rw [hstatus] at hunknown
      cases hunknown
  | disconnected index client client' new packet buffers env hbuf hfind haddr hcompletes hends
      hevolves hevents hserver =>
    obtain ⟨hget, haddr'⟩ := Server.findClient_eq_some hfind
    have hstatus : u.server.status addr = .client :=
      Server.status_eq_client.mpr (by rw [hfind]; rfl)
    have hnew := endsConnection_aboutIn hends
    refine ⟨new, hevents, fun e he => Or.inr (hnew e he).1, ⟨allowed_of_aboutIn hstatus hnew, ?_⟩,
      fun hunknown => ?_⟩
    · have hafter := Server.status_disconnectClient hs hget (haddr.trans haddr'.symm)
      rw [haddr', ← hserver] at hafter
      rw [hstatus, hafter]
      exact .disconnects handler buf index client packet buffers env hfind hcompletes hends
    · rw [hstatus] at hunknown
      cases hunknown
  | listener buffers buffers' new hbuf hclient hget hevolves hnew hevents hlisteners hclients
      hconfig =>
    have hstatus : u.server.status addr = .listener :=
      Server.status_eq_listener hclient (by rw [hget]; rfl)
    refine ⟨new, hevents, fun e he => Or.inr (hnew e he).1, ⟨allowed_of_aboutIn hstatus hnew, ?_⟩,
      fun hunknown => ?_⟩
    · have hafter : u'.server.status addr = u.server.status addr := by
        have hfind : u'.server.findClient addr = u.server.findClient addr :=
          Server.findClient_congr hs' fun i c _ => by rw [hclients]
        exact Server.status_congr (by rw [hfind]) (by rw [hlisteners, if_pos rfl, hget]; rfl)
      rw [hafter]
      exact .stays _ _
    · rw [hstatus] at hunknown
      cases hunknown
  | accepted buffers buffers' buffers'' connect accept env env' packetId hbuf hclient hget hcompletes
      haccept hsend hevents hlisteners hclients hconfig =>
    have hstatus : u.server.status addr = .listener :=
      Server.status_eq_listener hclient (by rw [hget]; rfl)
    have hafter : u'.server.status addr = .client := by
      obtain ⟨index, -, hslots, -, -⟩ := u.server.addClient_spec (.new addr buffers'')
      rw [Server.status_eq_client, Server.isSome_findClient]
      refine ⟨index, .new addr buffers'', ?_, rfl⟩
      rw [hclients, hslots, if_pos rfl]
    have hnew : ∀ e ∈ [ServerEvent.rawPacket (.part addr .reassembled), .connect addr connect],
        e.AboutIn addr .listener := by
      intro e he
      rcases List.mem_pair.mp he with rfl | rfl <;> exact ⟨rfl, trivial⟩
    refine ⟨_, hevents, fun e he => Or.inr (hnew e he).1, ⟨allowed_of_aboutIn hstatus hnew, ?_⟩,
      fun hunknown => ?_⟩
    · rw [hstatus, hafter]
      exact .accepts handler buf buffers buffers' buffers'' connect accept env env' packetId hget
        hcompletes haccept hsend
    · rw [hstatus] at hunknown
      cases hunknown

end ServerUpdate

/-! ## The passes -/

omit [Rkyv P] in
/-- After a pass an address has a slot, or the handler was told that its client was lost. -/
theorem VisitsSlots.status_cases {s t : Server} {new : List (ServerEvent P)}
    (h : VisitsSlots s.clients t.clients new) (hs : s.UniqueAddrs)
    (hlisteners : t.listeners = s.listeners) (addr : SocketAddr) :
    t.status addr = s.status addr ∨
      s.status addr = .client ∧ t.status addr = .unknown ∧ ∃ e ∈ new, e.Loses addr := by
  have hkept : (t.findClient addr).isSome = true → (s.findClient addr).isSome = true := by
    rw [Server.isSome_findClient, Server.isSome_findClient]
    rintro ⟨i, d, hget, haddr⟩
    obtain ⟨c, hget', haddr', -⟩ := h.kept i d hget
    exact ⟨i, c, hget', haddr'.symm.trans haddr⟩
  cases hfind : s.findClient addr with
  | none =>
    rw [hfind] at hkept
    refine Or.inl (Server.status_congr ?_ (by rw [hlisteners]))
    rw [hfind]
    exact Bool.eq_false_iff.mpr fun hsome => by cases hkept hsome
  | some found =>
    obtain ⟨i, c⟩ := found
    obtain ⟨hget, haddr⟩ := Server.findClient_eq_some hfind
    cases hafter : t.findClient addr with
    | some found' => exact Or.inl (Server.status_congr (by rw [hafter, hfind]; rfl) (by rw [hlisteners]))
    | none =>
      refine Or.inr ⟨Server.status_eq_client.mpr (by rw [hfind]; rfl), ?_, ?_⟩
      · refine Server.status_eq_unknown hafter ?_
        rw [hlisteners, ← haddr]
        exact hs.listeners i c hget
      · rcases h.lost i c hget with ⟨d, hget'⟩ | hlost
        · obtain ⟨c', hget'', haddr', -⟩ := h.kept i d hget'
          rw [hget] at hget''
          cases hget''
          exact absurd (haddr'.trans haddr) (Server.findClient_eq_none.mp hafter i d hget')
        · rwa [haddr] at hlost

/-- **A pass follows the automaton.** -/
theorem VisitsSlots.follows {u u' : ServerUpdate P} {l : ServerStep P} {new : List (ServerEvent P)}
    (h : VisitsSlots u.server.clients u'.server.clients new) (hs : u.server.UniqueAddrs)
    (hlisteners : u'.server.listeners = u.server.listeners) (hl : l = .updateBuffers ∨ l = .sendPings)
    (addr : SocketAddr) : FollowsAutomaton u u' l new addr := by
  constructor
  · intro e he haddr
    obtain ⟨i, c, hget, hsome, hallowed⟩ := h.about e he
    rw [haddr, Option.some.injEq] at hsome
    subst hsome
    have hstatus : u.server.status c.clientAddr = .client :=
      Server.status_eq_client.mpr (Server.isSome_findClient.mpr ⟨i, c, hget, rfl⟩)
    rw [hstatus]
    exact hallowed
  · rcases h.status_cases hs hlisteners addr with hsame | ⟨hbefore, hafter, e, he, hloses⟩
    · rw [hsame]
      exact .stays l _
    · rw [hbefore, hafter]
      exact .loses l hl e he hloses

/-! ## Runs -/

namespace ServerRun

open Server

variable {u u' : ServerUpdate P} {l : ServerStep P}

omit [Rkyv P] in
/-- Forgetting listeners changes the state of listeners only. -/
theorem status_unlisten (hs : u.server.UniqueAddrs) {s' : Server} {addr : SocketAddr}
    (hclients : s'.clients = u.server.clients) (hs' : s'.UniqueAddrs)
    (hlisteners : s'.listeners.get? addr = none ∨
      s'.listeners.get? addr = u.server.listeners.get? addr) :
    s'.status addr = u.server.status addr ∨
      u.server.status addr = .listener ∧ s'.status addr = .unknown := by
  have hfind : s'.findClient addr = u.server.findClient addr :=
    findClient_congr hs' fun i c _ => by rw [hclients]
  rcases hlisteners with hnone | hsame
  · cases hclient : u.server.findClient addr with
    | some found =>
      obtain ⟨i, c⟩ := found
      obtain ⟨hget, haddr⟩ := findClient_eq_some hclient
      refine Or.inl (status_congr (by rw [hfind]) ?_)
      rw [hnone, ← haddr, hs.listeners i c hget]
    | none =>
      cases hget : u.server.listeners.get? addr with
      | none => exact Or.inl (status_congr (by rw [hfind]) (by rw [hnone, hget]))
      | some buffers =>
        exact Or.inr ⟨status_eq_listener hclient (by rw [hget]; rfl),
          status_eq_unknown (hfind.trans hclient) hnone⟩
  · exact Or.inl (status_congr (by rw [hfind]) (by rw [hsame]))

/-- **A step follows the automaton**, for every address. -/
theorem step_follows (hs : u.server.UniqueAddrs) (h : step u l = some u') :
    ∃ new, u'.events = toldBefore u l ++ new ∧ (∀ addr, FollowsAutomaton u u' l new addr) ∧
      ∀ handler addr buf, l = .datagram handler addr buf →
        (∀ e ∈ new, e = .version ∨ e.addr? = some addr) ∧
          (u.server.status addr = .unknown → recv buf ≠ [] → u'.server = u.server) := by
  have hs' := step_uniqueAddrs hs h
  cases l with
  | call env =>
    cases h
    exact ⟨[], rfl, fun addr => .quiet rfl, fun _ _ _ heq => by cases heq⟩
  | updateBuffers =>
    cases h
    obtain ⟨new, hevents, hslots, hlisteners, -⟩ := u.updateBuffers_spec
    exact ⟨new, hevents, hslots.follows hs hlisteners (Or.inl rfl), fun _ _ _ heq => by cases heq⟩
  | datagram handler clientAddr buf =>
    rw [step, toOption_eq_some] at h
    have hhandled := ServerUpdate.handled h
    obtain ⟨new, hevents, hnew, hfollows, hunknown⟩ := hhandled.follows hs hs'
    refine ⟨new, hevents, fun addr => ?_, fun _ _ _ heq => ?_⟩
    · by_cases heq : addr = clientAddr
      · rw [heq]
        exact hfollows
      · refine .of_other heq (fun e he => ?_) (hhandled.sameEntry hs' heq).status_eq
        rcases hnew e he with rfl | hsome
        · exact Or.inl rfl
        · exact Or.inr hsome
    · cases heq
      exact ⟨hnew, hunknown⟩
  | recvError error =>
    cases h
    refine ⟨[.error (.recv error)], rfl, fun addr => ⟨fun e he haddr => ?_, .stays _ _⟩,
      fun _ _ _ heq => by cases heq⟩
    rw [List.mem_singleton.mp he] at haddr
    cases haddr
  | sendPings =>
    cases h
    obtain ⟨new, hevents, hslots, hlisteners, -⟩ := u.sendPings_spec
    exact ⟨new, hevents, hslots.follows hs hlisteners (Or.inr rfl), fun _ _ _ heq => by cases heq⟩
  | send clientAddr packet =>
    simp only [step, Option.bind_eq_bind, Option.bind_eq_some_iff] at h
    obtain ⟨⟨result, s', env'⟩, hsend, heq⟩ := h
    cases heq
    rw [toOption_eq_some] at hsend
    refine ⟨[], (List.append_nil _).symm, fun addr => .quiet ?_, fun _ _ _ heq => by cases heq⟩
    rcases send_shrinks hsend with rfl | ⟨index, client, buffers, hfind, -, rfl⟩
    · rfl
    · exact status_setClient (findClient_eq_some hfind).1 (by rfl) addr
  | unlisten clientAddr =>
    cases h
    refine ⟨[], (List.append_nil _).symm, fun addr => ?_, fun _ _ _ heq => by cases heq⟩
    by_cases heq : addr = clientAddr
    · subst heq
      constructor
      · intro e he
        cases he
      · rcases status_unlisten hs (Server.unlisten_clients u.server addr) hs'
          (Server.get?_unlisten_self u.server addr) with hsame | ⟨hbefore, hafter⟩
        · dsimp only
          rw [hsame]
          exact .stays _ _
        · dsimp only
          rw [hbefore, hafter]
          exact .unlistens
    · refine .quiet (SameEntry.status_eq ⟨Server.get?_unlisten_of_ne u.server heq,
        findClient_congr hs' fun i c _ => ?_⟩)
      rw [Server.unlisten_clients]
  | unlistenAll =>
    cases h
    refine ⟨[], (List.append_nil _).symm, fun addr => ?_, fun _ _ _ heq => by cases heq⟩
    constructor
    · intro e he
      cases he
    · have hclients : u.server.unlistenAll.clients = u.server.clients := rfl
      rcases status_unlisten hs hclients hs' (Or.inl rfl) with hsame | ⟨hbefore, hafter⟩
      · rw [hsame]
        exact .stays _ _
      · rw [hbefore, hafter]
        exact .unlistensAll

end ServerRun

end Automaton

end Ultinet
