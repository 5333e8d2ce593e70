import Ultinet.Net.AddressBook
import Ultinet.Packet.Resend

/-!
# Which packets a server resends

An update of a server services the packets of its connected clients, with a socket that accepts
everything, and does nothing about the packets of the peers it only listens to: `update_buffers` passes
over the slots, never over the map of listeners.  So a packet that is due is serviced if and only if
the peer it is sent to is connected (`serviced_iff`).
-/

namespace Ultinet

variable {P : Packets}

/-! ## The buffers of the peers -/

namespace Server

variable {s t : Server} {addr : SocketAddr}

/-- The buffers of all peers have a property. -/
structure AllBuffers (I : PacketBuffers → Prop) (s : Server) : Prop where
  listeners : ∀ addr buffers, s.listeners.get? addr = some buffers → I buffers
  clients : ∀ (i : ℕ) (c : ClientConnection), s.clients[i]? = some (some c) → I c.buffers

/-- The buffers of a peer, in whichever place they are. -/
def buffersOf (s : Server) (addr : SocketAddr) : Option PacketBuffers :=
  match s.findClient addr with
  | some (_, client) => some client.buffers
  | none => s.listeners.get? addr

/-- A packet that is being sent to a peer. -/
def outstanding (s : Server) (addr : SocketAddr) (id : PacketId) : Option PacketOut :=
  (s.buffersOf addr).bind fun buffers => buffers.sendBuffer.packets.get? id

end Server

namespace ServerRun

open Server

variable [Rkyv P] {u u' : ServerUpdate P} {l : ServerStep P} {I : PacketBuffers → Prop}

omit [Rkyv P] in
/-- What every step of some buffers keeps is kept all along. -/
theorem evolves_invariant (hI : ∀ addr b b', I b → PacketBuffers.Step addr b b' → I b')
    {addr : SocketAddr} {b b' : PacketBuffers} (h : PacketBuffers.Evolves addr b b') (hb : I b) :
    I b' := by
  induction h with
  | refl => exact hb
  | tail _ hstep ih => exact hI addr _ _ ih hstep

omit [Rkyv P] in
theorem allBuffers_setClient {s : Server} (hs : s.AllBuffers I) (index : ℕ)
    {entry : Option ClientConnection} (hentry : ∀ c, entry = some c → I c.buffers) :
    (s.setClient index entry).AllBuffers I := by
  constructor
  · exact hs.listeners
  · intro i c hget
    rcases List.mem_or_eq_of_mem_set (List.mem_of_getElem? hget) with hmem | heq
    · obtain ⟨j, hj⟩ := List.getElem?_of_mem hmem
      exact hs.clients j c hj
    · exact hentry c heq.symm

omit [Rkyv P] in
theorem allBuffers_visitsSlots {s t : Server} {new : List (ServerEvent P)} (hs : s.AllBuffers I)
    (hI : ∀ addr b b', I b → PacketBuffers.Step addr b b' → I b')
    (hslots : VisitsSlots s.clients t.clients new) (hlisteners : t.listeners = s.listeners) :
    t.AllBuffers I := by
  constructor
  · rw [hlisteners]
    exact hs.listeners
  · intro i c hget
    obtain ⟨d, hget', -, hevolves⟩ := hslots.kept i c hget
    exact evolves_invariant hI hevolves (hs.clients i d hget')

theorem handled_allBuffers {handler : ServerHandler P} {addr : SocketAddr} {buf : Bytes}
    (hnew : ∀ n, I (.new n)) (hI : ∀ addr b b', I b → PacketBuffers.Step addr b b' → I b')
    (hs : u.server.AllBuffers I) (h : u.Handled handler addr buf u') : u'.server.AllBuffers I := by
  cases h with
  | version new hbuf _ hevents hserver =>
    rw [hserver]
    exact hs
  | versionAnswered hbuf hsend hlistener hclient hevents hserver =>
    rw [hserver]
    refine ⟨fun a buffers hget => ?_, hs.clients⟩
    dsimp only at hget
    rw [SortedMap.get?_insert] at hget
    split_ifs at hget
    · cases hget
      exact hnew _
    · exact hs.listeners a buffers hget
  | unknown hbuf hlistener hclient hevents hserver =>
    rw [hserver]
    exact hs
  | client index client client' new hbuf hfind haddr hevolves _ hevents hserver =>
    obtain ⟨hget, -⟩ := findClient_eq_some hfind
    rw [hserver]
    refine allBuffers_setClient hs index fun c hc => ?_
    cases hc
    exact evolves_invariant hI hevolves (hs.clients index client hget)
  | disconnected index client client' new packet buffers env hbuf hfind haddr hcompletes hends
      hevolves hevents hserver =>
    obtain ⟨hget, -⟩ := findClient_eq_some hfind
    rw [hserver]
    refine ⟨fun a buffers' hget' => ?_, fun i c hget' => ?_⟩
    · have hget'' : (u.server.listeners.insert client'.clientAddr client'.buffers).get? a =
          some buffers' := hget'
      rw [SortedMap.get?_insert] at hget''
      split_ifs at hget''
      · cases hget''
        exact evolves_invariant hI hevolves (hs.clients index client hget)
      · exact hs.listeners a buffers' hget''
    · have hfree : (u.server.setClient index none).AllBuffers I :=
        allBuffers_setClient hs index fun c hc => nomatch hc
      exact hfree.clients i c hget'
  | listener buffers buffers' new hbuf hclient hget hevolves _ hevents hlisteners hclients hconfig =>
    refine ⟨fun a b hget' => ?_, fun i c hget' => ?_⟩
    · rw [hlisteners] at hget'
      split_ifs at hget'
      · cases hget'
        exact evolves_invariant hI hevolves (hs.listeners addr buffers hget)
      · exact hs.listeners a b hget'
    · rw [hclients] at hget'
      exact hs.clients i c hget'
  | accepted buffers buffers' buffers'' connect accept env env' packetId hbuf hclient hget hcompletes
      haccept hsend hevents hlisteners hclients hconfig =>
    obtain ⟨bytes, hhandle, -⟩ := hcompletes
    have haccepted : I buffers'' :=
      hI addr _ _ (hI addr _ _ (hs.listeners addr buffers hget) (.handle hhandle)) (.send hsend)
    refine ⟨fun a b hget' => ?_, fun i c hget' => ?_⟩
    · rw [hlisteners] at hget'
      split_ifs at hget'
      exact hs.listeners a b hget'
    · obtain ⟨index, -, hslots, -, -⟩ := u.server.addClient_spec (.new addr buffers'')
      rw [hclients, hslots] at hget'
      split_ifs at hget'
      · cases hget'
        exact haccepted
      · exact hs.clients i c hget'

/-- Every step keeps what every step of some buffers keeps. -/
theorem step_allBuffers (hnew : ∀ n, I (.new n))
    (hI : ∀ addr b b', I b → PacketBuffers.Step addr b b' → I b') (hs : u.server.AllBuffers I)
    (h : step u l = some u') : u'.server.AllBuffers I := by
  cases l with
  | call env =>
    cases h
    exact hs
  | updateBuffers =>
    cases h
    obtain ⟨new, -, hslots, hlisteners, -⟩ := u.updateBuffers_spec
    exact allBuffers_visitsSlots hs hI hslots hlisteners
  | datagram handler clientAddr buf =>
    rw [step, toOption_eq_some] at h
    exact handled_allBuffers hnew hI hs (ServerUpdate.handled h)
  | recvError error =>
    cases h
    exact hs
  | sendPings =>
    cases h
    obtain ⟨new, -, hslots, hlisteners, -⟩ := u.sendPings_spec
    exact allBuffers_visitsSlots hs hI hslots hlisteners
  | send clientAddr packet =>
    simp only [step, Option.bind_eq_bind, Option.bind_eq_some_iff] at h
    obtain ⟨⟨result, s', env'⟩, hsend, heq⟩ := h
    cases heq
    rw [toOption_eq_some] at hsend
    rcases send_shrinks hsend with rfl | ⟨index, client, buffers, hfind, hstep, rfl⟩
    · exact hs
    · refine allBuffers_setClient hs index fun c hc => ?_
      cases hc
      exact hI clientAddr _ _ (hs.clients index client (findClient_eq_some hfind).1) hstep
  | unlisten clientAddr =>
    cases h
    dsimp only
    unfold Server.unlisten
    split_ifs
    · refine ⟨fun a b hget => ?_, hs.clients⟩
      dsimp only at hget
      rw [SortedMap.get?_erase] at hget
      split_ifs at hget
      exact hs.listeners a b hget
    · exact hs
    · exact hs
  | unlistenAll =>
    cases h
    refine ⟨fun a b hget => ?_, hs.clients⟩
    cases hget

/-- **The rule for the buffers of a server.**  What new buffers have and every step of some buffers
keeps, all buffers have in every run. -/
theorem Run.allBuffers {config : ServerConfig} {env : Env} (hrun : Run (init config env) u)
    (hnew : ∀ n, I (.new n)) (hI : ∀ addr b b', I b → PacketBuffers.Step addr b b' → I b') :
    u.server.AllBuffers I := by
  refine Lts.GuardedRun.invariant (M := system P) (I := fun v => v.server.AllBuffers I)
    (fun _ _ _ hs _ h => step_allBuffers hnew hI hs h) hrun ⟨fun a b hget => ?_, fun i c hget => ?_⟩
  · cases hget
  · cases hget

end ServerRun

/-! ## What the passes send -/

/-- Datagrams were sent to some addresses, and nothing else of what the socket and the clock answer
was changed. -/
structure Env.SendsTo (addrs : SocketAddr → Prop) (env env' : Env) : Prop where
  now : env'.now = env.now
  answer : env'.answer = env.answer
  subset : env.sent ⊆ env'.sent
  mem_sent : ∀ datagram ∈ env'.sent, datagram ∈ env.sent ∨ addrs datagram.1

namespace Env.SendsTo

variable {addrs addrs' : SocketAddr → Prop} {env env' env'' : Env}

theorem refl (env : Env) : SendsTo addrs env env :=
  ⟨rfl, rfl, List.Subset.refl _, fun _ h => Or.inl h⟩

theorem trans (h : SendsTo addrs env env') (h' : SendsTo addrs env' env'') :
    SendsTo addrs env env'' := by
  refine ⟨h'.now.trans h.now, h'.answer.trans h.answer, List.Subset.trans h.subset h'.subset, ?_⟩
  intro datagram hmem
  rcases h'.mem_sent datagram hmem with hbefore | haddr
  · exact h.mem_sent datagram hbefore
  · exact Or.inr haddr

theorem mono (h : SendsTo addrs env env') (hsub : ∀ a, addrs a → addrs' a) :
    SendsTo addrs' env env' :=
  ⟨h.now, h.answer, h.subset, fun d hd => (h.mem_sent d hd).imp_right (hsub d.1)⟩

theorem record {addr : SocketAddr} (haddr : addrs addr) (env : Env)
    (attempts : List (SocketAddr × Bytes)) (bufs : List Bytes) :
    SendsTo addrs env (env.record attempts (bufs.map (Prod.mk addr))) := by
  refine ⟨rfl, rfl, List.subset_append_left _ _, fun datagram hmem => ?_⟩
  rw [Env.record_sent] at hmem
  rcases List.mem_append.mp hmem with hbefore | hnew
  · exact Or.inl hbefore
  · obtain ⟨buf, -, rfl⟩ := List.mem_map.mp hnew
    exact Or.inr haddr

theorem perfect (h : SendsTo addrs env env') (hperfect : env.Perfect) : env'.Perfect := by
  intro attempts datagram
  rw [h.answer]
  exact hperfect attempts datagram

end Env.SendsTo

/-- An address has one of the slots. -/
def HasSlot (clients : List (Option ClientConnection)) (addr : SocketAddr) : Prop :=
  ∃ client, some client ∈ clients ∧ client.clientAddr = addr

namespace ServerUpdate

theorem updateClient_sendsTo (config : ServerConfig) {clients : List (Option ClientConnection)}
    (pass : Pass P) (entry : Option ClientConnection) (hentry : entry ∈ clients) :
    Env.SendsTo (HasSlot clients) pass.env (updateClient config pass entry).1.env := by
  cases entry with
  | none => exact .refl _
  | some client =>
    rcases hupdate : client.buffers.update config.connection.resendDelay
        config.connection.maxMissedAcks config.connection.receiveTimeout client.clientAddr
        pass.env with ⟨result, buffers, env⟩
    obtain ⟨attempts, bufs, henv⟩ := PacketBuffers.update_env hupdate
    have hsends : Env.SendsTo (HasSlot clients) pass.env env := by
      rw [henv]
      exact .record ⟨client, hentry, rfl⟩ _ _ _
    simp only [updateClient, hupdate]
    cases result <;> exact hsends

theorem sendPing_sendsTo (config : ServerConfig) {clients : List (Option ClientConnection)}
    (pass : Env × List (ServerEvent P)) (entry : Option ClientConnection)
    (hentry : entry ∈ clients) :
    Env.SendsTo (HasSlot clients) pass.1 (sendPing config pass entry).1.1 := by
  obtain ⟨env, events⟩ := pass
  cases entry with
  | none => exact .refl _
  | some client =>
    have hsend : Env.SendsTo (HasSlot clients) env
        (env.newUuid.2.send client.clientAddr (pingDatagram env.newUuid.1)).2 := by
      have hslot : HasSlot clients client.clientAddr := ⟨client, hentry, rfl⟩
      have huuid : Env.SendsTo (HasSlot clients) env env.newUuid.2 :=
        ⟨rfl, rfl, List.Subset.refl _, fun _ h => Or.inl h⟩
      refine huuid.trans ?_
      rcases env.newUuid.2.send_cases client.clientAddr (pingDatagram env.newUuid.1) with
        ⟨hsend, -⟩ | ⟨hsend, -⟩ | ⟨error, hsend, -⟩
      · rw [hsend]
        exact .record hslot _ _ [_]
      · rw [hsend]
        exact .record hslot _ _ []
      · rw [hsend]
        exact .record hslot _ _ []
    unfold sendPing
    dsimp only
    split
    · exact .refl _
    · generalize (if (client.activePing.isSome && client.lastPong.isNone) = true
        then client.missedPongs + 1 else client.missedPongs) = missedPongs
      split
      · exact .refl _
      · split <;> rename_i heq <;> rw [heq] at hsend <;> exact hsend

/-- Pinging a client leaves its buffers alone. -/
theorem sendPing_buffers (config : ServerConfig) (pass : Env × List (ServerEvent P))
    {client client' : ClientConnection}
    (h : (sendPing config pass (some client)).2 = some client') :
    client'.buffers = client.buffers ∧ client'.clientAddr = client.clientAddr := by
  obtain ⟨env, events⟩ := pass
  unfold sendPing at h
  dsimp only at h
  split at h
  · cases h
    exact ⟨rfl, rfl⟩
  · generalize (if (client.activePing.isSome && client.lastPong.isNone) = true
      then client.missedPongs + 1 else client.missedPongs) = missedPongs at h
    split at h
    · cases h
    · split at h <;> cases h <;> exact ⟨rfl, rfl⟩

/-- What the pass over the buffers sends. -/
theorem updateBuffers_sendsTo (u : ServerUpdate P) :
    Env.SendsTo (HasSlot u.server.clients) u.env u.updateBuffers.env :=
  Vec.mapState_state (R := fun pass pass' : Pass P =>
    Env.SendsTo (HasSlot u.server.clients) pass.env pass'.env) (fun _ => .refl _)
    (fun _ _ _ => .trans) (updateClient_sendsTo u.server.config)
    { index := 0, firstEmptySlot := 0, env := u.env, events := u.events }

/-- What the pass that pings sends. -/
theorem sendPings_sendsTo (u : ServerUpdate P) :
    Env.SendsTo (HasSlot u.server.clients) u.env u.sendPings.env :=
  Vec.mapState_state (R := fun pass pass' : Env × List (ServerEvent P) =>
    Env.SendsTo (HasSlot u.server.clients) pass.1 pass'.1) (fun _ => .refl _)
    (fun _ _ _ => .trans) (sendPing_sendsTo u.server.config) (u.env, u.events)

/-- A pass over the buffers services the packets of every client. -/
theorem updateBuffers_serviced {u : ServerUpdate P} {i : ℕ} {client : ClientConnection}
    {id : PacketId} {p : PacketOut} (hget : u.server.clients[i]? = some (some client))
    (hunmarked : client.buffers.Unmarked)
    (hpacket : client.buffers.sendBuffer.packets.get? id = some p)
    (hdue : p.Due u.server.config.connection.resendDelay u.env.now) (hperfect : u.env.Perfect) :
    ∃ client', u.updateBuffers.server.clients[i]? = some (some client') ∧
      client'.clientAddr = client.clientAddr ∧
      p.Serviced id u.server.config.connection.maxMissedAcks client.clientAddr
        u.updateBuffers.env.sent (client'.buffers.sendBuffer.packets.get? id) := by
  obtain ⟨pass, hbefore, hvisit, hafter⟩ := Vec.getElem?_mapState
    (R := fun pass pass' : Pass P => Env.SendsTo (HasSlot u.server.clients) pass.env pass'.env)
    (fun _ => .refl _) (fun _ _ _ => .trans) (updateClient_sendsTo u.server.config)
    { index := 0, firstEmptySlot := 0, env := u.env, events := u.events } hget
  obtain ⟨-, hlt⟩ := firstEmptySlot_le u.server.config u.server.clients
    { index := 0, firstEmptySlot := 0, env := u.env, events := u.events } le_rfl
  rcases hupdate : client.buffers.update u.server.config.connection.resendDelay
      u.server.config.connection.maxMissedAcks u.server.config.connection.receiveTimeout
      client.clientAddr pass.env with ⟨result, buffers, env⟩
  obtain ⟨rfl, hserviced⟩ := PacketBuffers.update_serviced hunmarked hpacket
    (by rw [hbefore.now]; exact hdue) (hbefore.perfect hperfect) hupdate
  simp only [updateClient, hupdate] at hvisit hafter
  refine ⟨{ client with buffers }, ?_, rfl, hserviced.mono hafter.subset fun h => h⟩
  have hi := hlt i client hget
  rw [Nat.zero_add] at hi
  exact (List.getElem?_take_of_lt hi).trans hvisit

end ServerUpdate

/-! ## An update without datagrams -/

namespace Server

variable [Rkyv P] {s : Server} {addr : SocketAddr}

/-- An update without datagrams consists of the two passes. -/
theorem update_quiet (s : Server) (handler : ServerHandler P) (env : Env) :
    s.update handler {} env =
      .ok (ServerUpdate.updateBuffers { server := s, env, events := [] }).sendPings := rfl

omit [Rkyv P] in
/-- What is being sent to a connected client. -/
theorem outstanding_of_slot (hs : s.UniqueAddrs) {i : ℕ} {c : ClientConnection}
    (hget : s.clients[i]? = some (some c)) (id : PacketId) :
    s.outstanding c.clientAddr id = c.buffers.sendBuffer.packets.get? id := by
  simp only [outstanding, buffersOf, findClient_of_slot hs hget, Option.bind_some]

omit [Rkyv P] in
/-- What is being sent to a peer that is not connected. -/
theorem outstanding_of_findClient_eq_none (h : s.findClient addr = none) (id : PacketId) :
    s.outstanding addr id =
      (s.listeners.get? addr).bind fun buffers => buffers.sendBuffer.packets.get? id := by
  simp only [outstanding, buffersOf, h]

end Server

namespace ServerUpdate

open Server

variable {u : ServerUpdate P} {addr : SocketAddr} {id : PacketId} {p : PacketOut}

/-- The two passes, one after the other, move no client to another slot. -/
theorem passes_kept {i : ℕ} {d : ClientConnection}
    (hget : u.updateBuffers.sendPings.server.clients[i]? = some (some d)) :
    ∃ c, u.server.clients[i]? = some (some c) ∧ d.clientAddr = c.clientAddr := by
  obtain ⟨new, -, hslots, -⟩ := u.updateBuffers_spec
  obtain ⟨new', -, hslots', -⟩ := u.updateBuffers.sendPings_spec
  obtain ⟨d', hget', haddr', -⟩ := hslots'.kept i d hget
  obtain ⟨c, hget'', haddr, -⟩ := hslots.kept i d' hget'
  exact ⟨c, hget'', haddr'.trans haddr⟩

theorem passes_listeners (u : ServerUpdate P) :
    u.updateBuffers.sendPings.server.listeners = u.server.listeners := by
  obtain ⟨new, -, -, hlisteners, -⟩ := u.updateBuffers_spec
  obtain ⟨new', -, -, hlisteners', -⟩ := u.updateBuffers.sendPings_spec
  exact hlisteners'.trans hlisteners

/-- The packets of a connected client are serviced. -/
theorem passes_serviced {i : ℕ} {client : ClientConnection} (hs : u.server.UniqueAddrs)
    (hs' : u.updateBuffers.sendPings.server.UniqueAddrs)
    (hget : u.server.clients[i]? = some (some client)) (hunmarked : client.buffers.Unmarked)
    (hpacket : client.buffers.sendBuffer.packets.get? id = some p)
    (hdue : p.Due u.server.config.connection.resendDelay u.env.now) (hperfect : u.env.Perfect) :
    p.Serviced id u.server.config.connection.maxMissedAcks client.clientAddr
      u.updateBuffers.sendPings.env.sent
      (u.updateBuffers.sendPings.server.outstanding client.clientAddr id) := by
  obtain ⟨client', hget', haddr, hserviced⟩ :=
    updateBuffers_serviced hget hunmarked hpacket hdue hperfect
  refine hserviced.mono u.updateBuffers.sendPings_sendsTo.subset fun hdropped => ?_
  -- the client is still there and has the same buffers, or its slot is free
  obtain ⟨pass, -, hvisit, -⟩ := Vec.getElem?_mapState
    (R := fun pass pass' : Env × List (ServerEvent P) =>
      Env.SendsTo (HasSlot u.updateBuffers.server.clients) pass.1 pass'.1) (fun _ => .refl _)
    (fun _ _ _ => .trans) (sendPing_sendsTo u.updateBuffers.server.config)
    (u.updateBuffers.env, u.updateBuffers.events) hget'
  have hslot : u.updateBuffers.sendPings.server.clients[i]? =
      some (sendPing u.updateBuffers.server.config pass (some client')).2 := hvisit
  cases hping : (sendPing u.updateBuffers.server.config pass (some client')).2 with
  | some client'' =>
    obtain ⟨hbuffers, haddr'⟩ := sendPing_buffers _ pass hping
    rw [hping] at hslot
    have houtstanding := outstanding_of_slot hs' hslot id
    rw [haddr', haddr, hbuffers] at houtstanding
    rw [houtstanding]
    exact hdropped
  | none =>
    have hnone : u.updateBuffers.sendPings.server.findClient client.clientAddr = none := by
      rw [findClient_eq_none]
      intro j d hj hd
      obtain ⟨c, hc, hdc⟩ := passes_kept hj
      obtain rfl : j = i := hs.slots j i c client hc hget (hdc.symm.trans hd)
      rw [hslot, hping] at hj
      cases hj
    rw [outstanding_of_findClient_eq_none hnone, passes_listeners, hs.listeners i client hget]
    rfl

/-- The packets of a peer that is not connected are not serviced. -/
theorem passes_not_serviced (hclient : u.server.findClient addr = none)
    (hpacket : u.server.outstanding addr id = some p) (hsent : u.env.sent = [])
    (maxMissedAcks : Option ℕ) :
    ¬p.Serviced id maxMissedAcks addr u.updateBuffers.sendPings.env.sent
      (u.updateBuffers.sendPings.server.outstanding addr id) := by
  have hslot : ¬HasSlot u.server.clients addr := by
    rintro ⟨c, hmem, haddr⟩
    obtain ⟨i, hi⟩ := List.getElem?_of_mem hmem
    exact findClient_eq_none.mp hclient i c hi haddr
  have hslot' : ¬HasSlot u.updateBuffers.server.clients addr := by
    rintro ⟨c, hmem, haddr⟩
    obtain ⟨i, hi⟩ := List.getElem?_of_mem hmem
    obtain ⟨new, -, hslots, -⟩ := u.updateBuffers_spec
    obtain ⟨c', hget, haddr', -⟩ := hslots.kept i c hi
    exact findClient_eq_none.mp hclient i c' hget (haddr'.symm.trans haddr)
  -- nothing is sent to the address
  have hnothing : ∀ buf, (addr, buf) ∉ u.updateBuffers.sendPings.env.sent := by
    intro buf hmem
    rcases u.updateBuffers.sendPings_sendsTo.mem_sent _ hmem with hbefore | haddr
    · rcases u.updateBuffers_sendsTo.mem_sent _ hbefore with hstart | haddr
      · rw [hsent] at hstart
        cases hstart
      · exact hslot haddr
    · exact hslot' haddr
  -- and the packet stays
  have hstays : u.updateBuffers.sendPings.server.outstanding addr id = some p := by
    have hnone : u.updateBuffers.sendPings.server.findClient addr = none := by
      rw [findClient_eq_none]
      intro j d hj hd
      obtain ⟨c, hc, hdc⟩ := passes_kept hj
      exact findClient_eq_none.mp hclient j c hc (hdc.symm.trans hd)
    rw [outstanding_of_findClient_eq_none hclient] at hpacket
    rw [outstanding_of_findClient_eq_none hnone, passes_listeners]
    exact hpacket
  intro hserviced
  cases hserviced with
  | resent batch hne hparts hsent =>
    obtain ⟨buf, hbuf⟩ := List.exists_mem_of_ne_nil batch hne
    exact hnothing buf (hsent buf hbuf)
  | done hacked hsent hdropped => exact hnothing _ hsent
  | exceeded m hm hmissed hdropped =>
    rw [hstays] at hdropped
    cases hdropped

end ServerUpdate

/-! ## Runs -/

namespace ServerRun

open Server

variable [Rkyv P] {u : ServerUpdate P} {addr : SocketAddr} {id : PacketId} {p : PacketOut}

omit [Rkyv P] in
/-- No step marks a buffer in a channel. -/
theorem step_unmarked (addr : SocketAddr) (b b' : PacketBuffers) (hb : b.Unmarked)
    (h : PacketBuffers.Step addr b b') : b'.Unmarked := by
  cases h with
  | handle h => exact hb.handle h
  | send h => exact hb.send h
  | update h => exact hb.update h

/-- **Which packets a server resends.**  In every state of every run, a call of `update` without
datagrams and with a socket that accepts everything services a packet that is due if and only if the
peer it is being sent to is connected. -/
theorem serviced_iff {config : ServerConfig} {env₀ env : Env} (hrun : Run (init config env₀) u)
    (hpacket : u.server.outstanding addr id = some p)
    (hdue : p.Due u.server.config.connection.resendDelay env.now) (hperfect : env.Perfect)
    (handler : ServerHandler P) :
    ∃ v, u.server.update handler {} env.start = .ok v ∧
      (p.Serviced id u.server.config.connection.maxMissedAcks addr v.env.sent
          (v.server.outstanding addr id) ↔
        (u.server.findClient addr).isSome = true) := by
  have hs := hrun.uniqueAddrs (uniqueAddrs_host config)
  have hupdate := u.server.update_quiet handler env.start
  have hs' := (hrun.trans (update_run hupdate)).uniqueAddrs (uniqueAddrs_host config)
  have hall := hrun.allBuffers (I := PacketBuffers.Unmarked) PacketBuffers.unmarked_new step_unmarked
  refine ⟨_, hupdate, ?_⟩
  cases hfind : u.server.findClient addr with
  | some found =>
    obtain ⟨i, client⟩ := found
    obtain ⟨hget, haddr⟩ := findClient_eq_some hfind
    subst haddr
    rw [outstanding_of_slot hs hget] at hpacket
    refine iff_of_true ?_ rfl
    exact ServerUpdate.passes_serviced (u := { server := u.server, env := env.start, events := [] })
      hs hs' hget (hall.clients i client hget) hpacket hdue hperfect
  | none =>
    refine iff_of_false ?_ (by simp)
    exact ServerUpdate.passes_not_serviced
      (u := { server := u.server, env := env.start, events := [] }) hfind hpacket rfl _

/-- A client connects and does not ack the `Accept`, which is sent again. -/
theorem serviced_iff_accept :
    ∃ (u v : ServerUpdate DefaultPackets) (p : PacketOut),
      Run (init .default (.accepting 0)) u ∧ u.server.outstanding 5 (.replicate 7) = some p ∧
        u.server.update .default {} (Env.accepting 1000).start = .ok v ∧
        p.Serviced (.replicate 7) u.server.config.connection.maxMissedAcks 5 v.env.sent
          (v.server.outstanding 5 (.replicate 7)) := by
  obtain ⟨u, hrun, hcheck⟩ := Lts.exists_guardedRun (system DefaultPackets) (fun _ _ => True)
    (fun _ _ => true) (init .default (.accepting 0))
    [.datagram .default 5 [], .datagram .default 5 (partDatagram true (.replicate 9) 0 [1])]
    (fun u : ServerUpdate DefaultPackets => (u.server.findClient 5).isSome &&
      decide (u.server.config.connection.resendDelay = 1000) &&
      (u.server.outstanding 5 (.replicate 7)).any fun p : PacketOut => decide (p.lastSend = some 0))
    (fun _ _ _ _ => trivial) (by decide +kernel)
  rw [Bool.and_eq_true, Bool.and_eq_true, decide_eq_true_eq, Option.any_eq_true] at hcheck
  obtain ⟨⟨hclient, hdelay⟩, p, hpacket, hlast⟩ := hcheck
  have hdue : p.Due u.server.config.connection.resendDelay (Env.accepting 1000).now :=
    ⟨0, of_decide_eq_true hlast, by rw [hdelay]; decide⟩
  have hperfect : (Env.accepting 1000).Perfect := fun _ _ => rfl
  obtain ⟨v, hupdate, hiff⟩ := serviced_iff hrun hpacket hdue hperfect .default
  exact ⟨u, v, p, hrun, hpacket, hupdate, hiff.mpr hclient⟩

/-- A listener that does not ack the answer to its query: the `Status` is due, but an update does
nothing about it. -/
theorem listener_not_serviced :
    ∃ (u v : ServerUpdate DefaultPackets) (p : PacketOut),
      Run (init .default (.accepting 0)) u ∧ (u.server.listeners.get? 5).isSome = true ∧
        u.server.outstanding 5 (.replicate 7) = some p ∧
        p.Due u.server.config.connection.resendDelay 1000 ∧ (Env.accepting 1000).Perfect ∧
        u.server.update .default {} (Env.accepting 1000).start = .ok v ∧
        ¬p.Serviced (.replicate 7) u.server.config.connection.maxMissedAcks 5 v.env.sent
          (v.server.outstanding 5 (.replicate 7)) := by
  obtain ⟨u, hrun, hcheck⟩ := Lts.exists_guardedRun (system DefaultPackets) (fun _ _ => True)
    (fun _ _ => true) (init .default (.accepting 0))
    [.datagram .default 5 [], .datagram .default 5 (partDatagram true (.replicate 9) 0 [0])]
    (fun u : ServerUpdate DefaultPackets => (u.server.findClient 5).isNone &&
      (u.server.listeners.get? 5).isSome &&
      decide (u.server.config.connection.resendDelay = 1000) &&
      (u.server.outstanding 5 (.replicate 7)).any fun p : PacketOut => decide (p.lastSend = some 0))
    (fun _ _ _ _ => trivial) (by decide +kernel)
  rw [Bool.and_eq_true, Bool.and_eq_true, Bool.and_eq_true, decide_eq_true_eq,
    Option.any_eq_true] at hcheck
  obtain ⟨⟨⟨hclient, hlistener⟩, hdelay⟩, p, hpacket, hlast⟩ := hcheck
  refine ⟨u, _, p, hrun, hlistener, hpacket, ⟨0, of_decide_eq_true hlast, ?_⟩, fun _ _ => rfl,
    u.server.update_quiet .default (Env.accepting 1000).start, ?_⟩
  · rw [hdelay]
    decide
  · exact ServerUpdate.passes_not_serviced
      (u := { server := u.server, env := (Env.accepting 1000).start, events := [] })
      (Option.isNone_iff_eq_none.mp hclient) hpacket rfl _

end ServerRun

end Ultinet
