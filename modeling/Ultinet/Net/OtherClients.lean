import Ultinet.Net.AddressBook
import Ultinet.Net.Link
import Ultinet.Packet.Dispatch

/-!
# What a server does for its other clients

Whatever a server does for one client leaves every other client alone: nothing is sent to it, and what
the server keeps for it stays the same (`Server.LeavesAlone`).
-/

namespace Ultinet

variable {P : Packets} {addr other : SocketAddr} {H : Bytes → Prop} {env env' : Env}

/-! ## Buffers send to their peer only -/

namespace PacketBuffers

variable {b b' : PacketBuffers}

/-- Handling a datagram answers the peer of the buffers. -/
theorem handle_tells {buf : Bytes} {result : Except HandlePacketError PacketHandling}
    (hne : addr ≠ other) (h : b.handle buf addr env = .ok (result, b', env')) :
    env.Tells other H env' := by
  obtain ⟨tried, bufs, henv, -⟩ := handle_acks h
  rw [henv]
  exact .record _ fun h => absurd h hne

/-- Sending a packet sends to the peer of the buffers. -/
theorem send_tells {value : List Bytes} {threshold : ℕ} {result : IoResult PacketId}
    (hne : addr ≠ other) (h : b.send value threshold addr env = .ok (result, b', env')) :
    env.Tells other H env' := by
  have hnew : env.Tells other H env.newUuid.2 := ⟨rfl, rfl, [], by simp [Env.newUuid], by simp⟩
  obtain ⟨tried, bufs, henv⟩ := send_env h
  rw [henv]
  exact hnew.trans (.record _ fun h => absurd h hne)

end PacketBuffers

/-! ## Datagrams of other clients -/

namespace ServerUpdate

open Server

variable {u u' : ServerUpdate P} {handler : ServerHandler P} {buf : Bytes}

/-- A request for the version is answered with the version. -/
theorem handleVersionRequest_tells (hversion : addr = other →
      H (PacketKind.version.toByte :: (VersionPacket.write (handler.version u.events)).val)) :
    u.env.Tells other H (u.handleVersionRequest handler addr).env := by
  have hsend : u.env.Tells other H (u.env.send addr (PacketKind.version.toByte ::
      (VersionPacket.write (handler.version u.events)).val)).2 :=
    .send _ _ hversion
  unfold handleVersionRequest
  dsimp only [tell]
  split
  · rename_i heq
    rw [heq] at hsend
    split_ifs <;> exact hsend
  · rename_i heq
    rw [heq] at hsend
    exact hsend

/-- A pong is not answered. -/
theorem handlePong_env (index : ℕ) (client : ClientConnection) (data : Bytes) :
    (u.handlePong index client data).env = u.env := by
  unfold handlePong
  split
  · rfl
  · split
    · rfl
    · split_ifs <;> rfl

/-- Nothing is reassembled from a ping. -/
theorem handlePong_events (other : SocketAddr) (index : ℕ) (client : ClientConnection) (data : Bytes) :
    ∃ e, (u.handlePong index client data).events = u.events ++ [e] ∧
      e.reassembles other = false := by
  unfold handlePong
  split
  · exact ⟨_, rfl, rfl⟩
  · split
    · exact ⟨_, rfl, rfl⟩
    · split_ifs <;> exact ⟨_, rfl, rfl⟩

section Receive

variable [Rkyv P] {buffers buffers' : PacketBuffers}

/-- What is sent for a datagram is what its buffers send. -/
theorem handleBuffers_env {packet : Option (ClientConnectionPacket P)}
    (h : u.handleBuffers buffers addr buf = .ok (packet, buffers', u')) :
    ∃ result, buffers.handle buf addr u.env = .ok (result, buffers', u'.env) := by
  unfold handleBuffers at h
  obtain ⟨⟨result, buffers'', env⟩, hhandle, h⟩ := exists_of_bind_ok h
  refine ⟨result, ?_⟩
  dsimp only at h
  split at h
  · cases h
    exact hhandle
  · cases h
    exact hhandle
  · cases h
    exact hhandle
  · obtain ⟨checked, -, h⟩ := exists_of_bind_ok h
    cases checked <;> cases h <;> exact hhandle
  · cases h
    exact hhandle
  · cases h
    exact hhandle

/-- A packet is sent to its client. -/
theorem sendPacket_tells {packet : ServerConnectionPacket P} {result : IoResult PacketId}
    (hne : addr ≠ other) (h : u.sendPacket buffers addr packet = .ok (result, buffers', u')) :
    u.env.Tells other H u'.env := by
  obtain ⟨-, hsend, -⟩ := sendPacket_cases h
  exact PacketBuffers.send_tells hne hsend

/-- The packet of a client is answered to that client. -/
theorem handleClientPacket_tells {index : ℕ} {client : ClientConnection}
    {packet : ClientConnectionPacket P} (hne : client.clientAddr ≠ other)
    (h : u.handleClientPacket handler index client packet = .ok u') : u.env.Tells other H u'.env := by
  unfold handleClientPacket at h
  cases packet with
  | query query =>
    dsimp only at h
    cases hsend : (u.tell (.query client.clientAddr query)).sendPacket client.buffers
        client.clientAddr (.status (handler.query u.events client.clientAddr query)) with
    | error abort => simp [hsend, bind, Except.bind] at h
    | ok sent =>
      obtain ⟨result, buffers, v⟩ := sent
      have htells : (u.tell _).env.Tells other H v.env := sendPacket_tells hne hsend
      simp only [hsend, bind, Except.bind, pure, Except.pure] at h
      cases result <;> cases h <;> exact htells
  | connect connect =>
    cases h
    exact .refl _
  | disconnect disconnect =>
    cases h
    exact .refl _
  | user packet =>
    cases h
    exact .refl _

/-- The packet of a peer without a slot is answered to that peer. -/
theorem handleListenerPacket_tells {packet : ClientConnectionPacket P} (hne : addr ≠ other)
    (h : u.handleListenerPacket handler addr buffers packet = .ok u') : u.env.Tells other H u'.env := by
  unfold handleListenerPacket at h
  cases packet with
  | query query =>
    dsimp only at h
    cases hsend : (u.tell (.query addr query)).sendPacket buffers addr
        (.status (handler.query u.events addr query)) with
    | error abort => simp [hsend, bind, Except.bind] at h
    | ok sent =>
      obtain ⟨result, buffers, v⟩ := sent
      have htells : (u.tell _).env.Tells other H v.env := sendPacket_tells hne hsend
      simp only [hsend, bind, Except.bind, pure, Except.pure] at h
      cases h
      exact htells
  | connect connect =>
    dsimp only at h
    cases hanswer : handler.connect u.events addr connect with
    | accept accept =>
      rw [hanswer] at h
      dsimp only at h
      cases hsend : (u.tell (.connect addr connect)).sendPacket buffers addr (.accept accept) with
      | error abort => simp [hsend, bind, Except.bind] at h
      | ok sent =>
        obtain ⟨result, buffers, v⟩ := sent
        have htells : (u.tell _).env.Tells other H v.env := sendPacket_tells hne hsend
        simp only [hsend, bind, Except.bind, pure, Except.pure] at h
        cases result <;> cases h <;> exact htells
    | reject reject =>
      rw [hanswer] at h
      dsimp only at h
      cases hsend : (u.tell (.connect addr connect)).sendPacket buffers addr (.reject reject) with
      | error abort => simp [hsend, bind, Except.bind] at h
      | ok sent =>
        obtain ⟨result, buffers, v⟩ := sent
        have htells : (u.tell _).env.Tells other H v.env := sendPacket_tells hne hsend
        simp only [hsend, bind, Except.bind, pure, Except.pure] at h
        cases h
        exact htells
  | disconnect disconnect =>
    cases h
    exact .refl _
  | user packet =>
    cases h
    exact .refl _

/-- Every datagram of a client is answered to that client. -/
theorem handleClient_tells {index : ℕ} {client : ClientConnection} {kind : UInt8} {data : Bytes}
    (hne : client.clientAddr ≠ other)
    (h : u.handleClient handler index client kind data = .ok u') : u.env.Tells other H u'.env := by
  unfold handleClient at h
  split_ifs at h with hping
  · cases h
    rw [handlePong_env]
    exact .refl _
  · cases hbuffers : u.handleBuffers client.buffers client.clientAddr (kind :: data) with
    | error abort => simp [hbuffers, bind, Except.bind] at h
    | ok handled =>
      obtain ⟨packet, buffers, v⟩ := handled
      obtain ⟨result, hhandle⟩ := handleBuffers_env hbuffers
      have htells : u.env.Tells other H v.env := PacketBuffers.handle_tells hne hhandle
      simp only [hbuffers, bind, Except.bind, pure, Except.pure] at h
      cases packet with
      | none =>
        cases h
        exact htells
      | some packet =>
        have hne' : ({ client with buffers } : ClientConnection).clientAddr ≠ other := hne
        have hset : (v.setClient index { client with buffers }).env.Tells other H u'.env :=
          handleClientPacket_tells hne' h
        exact htells.trans hset

/-- Every datagram of a listener is answered to that listener. -/
theorem handleListener_tells (hne : addr ≠ other)
    (h : u.handleListener handler addr buffers buf = .ok u') : u.env.Tells other H u'.env := by
  unfold handleListener at h
  cases hbuffers : u.handleBuffers buffers addr buf with
  | error abort => simp [hbuffers, bind, Except.bind] at h
  | ok handled =>
    obtain ⟨packet, buffers', v⟩ := handled
    obtain ⟨result, hhandle⟩ := handleBuffers_env hbuffers
    have htells : u.env.Tells other H v.env := PacketBuffers.handle_tells hne hhandle
    simp only [hbuffers, bind, Except.bind, pure, Except.pure] at h
    cases packet with
    | none =>
      cases h
      exact htells
    | some packet =>
      have hset : (v.setListener addr buffers').env.Tells other H u'.env :=
        handleListenerPacket_tells hne h
      exact htells.trans hset

/-- **A datagram is answered to its sender only.** -/
theorem handleDatagram_tells (hne : addr ≠ other) (h : u.handleDatagram handler addr buf = .ok u') :
    u.env.Tells other H u'.env := by
  unfold handleDatagram at h
  cases buf with
  | nil =>
    cases h
    exact handleVersionRequest_tells fun h => absurd h hne
  | cons kind data =>
    dsimp only at h
    split at h
    · rename_i index client hfind
      obtain ⟨-, rfl⟩ := findClient_eq_some hfind
      exact handleClient_tells hne h
    · split at h
      · exact handleListener_tells hne h
      · cases h
        exact .refl _

/-- Nothing is told about the packets of another client. -/
theorem Handled.not_reassembles (h : u.Handled handler addr buf u') (hne : addr ≠ other) :
    (u'.events.drop u.events.length).any (ServerEvent.reassembles other) = false := by
  have habout : ∀ new : List (ServerEvent P), u'.events = u.events ++ new →
      (∀ e ∈ new, e.addr? = some addr ∨ e = .version) →
      (u'.events.drop u.events.length).any (ServerEvent.reassembles other) = false := by
    intro new hevents hnew
    rw [hevents, List.drop_left, List.any_eq_false]
    intro e he
    rcases hnew e he with haddr | rfl
    · intro hreassembles
      unfold ServerEvent.reassembles at hreassembles
      split at hreassembles
      · cases haddr
        exact hne (of_decide_eq_true hreassembles)
      · cases hreassembles
    · simp [ServerEvent.reassembles]
  cases h with
  | version new hbuf hnew hevents hserver =>
    refine habout new hevents fun e he => ?_
    rcases hnew e he with rfl | ⟨error, rfl⟩
    · exact Or.inr rfl
    · exact Or.inl rfl
  | versionAnswered hbuf hsend hlistener hclient hevents hserver =>
    refine habout _ hevents fun e he => ?_
    exact Or.inr (List.mem_singleton.mp he)
  | unknown hbuf hlistener hclient hevents hserver =>
    refine habout _ hevents fun e he => ?_
    rw [List.mem_singleton.mp he]
    exact Or.inl rfl
  | client index client client' new hbuf hfind haddr hevolves hnew hevents hserver =>
    exact habout new hevents fun e he => Or.inl (hnew e he).1
  | disconnected index client client' new packet buffers env hbuf hfind haddr hcompletes hends
      hevolves hevents hserver =>
    refine habout new hevents fun e he => Or.inl ?_
    cases hends <;> simp at he <;> aesop
  | listener buffers buffers' new hbuf hclient hget hevolves hnew hevents hlisteners hclients
      hconfig =>
    exact habout new hevents fun e he => Or.inl (hnew e he).1
  | accepted buffers buffers' buffers'' connect accept env env' packetId hbuf hclient hget hcompletes
      haccept hsend hevents hlisteners hclients hconfig =>
    refine habout _ hevents fun e he => Or.inl ?_
    simp only [List.mem_cons, List.not_mem_nil, or_false] at he
    rcases he with rfl | rfl <;> rfl

end Receive

end ServerUpdate

/-! ## Packets for other clients -/

namespace Server

variable {s s' : Server}

/-- Only the slot of the client changes with it. -/
theorem setClient_sameEntry {index : ℕ} {client client' : ClientConnection}
    (hs' : (s.setClient index (some client')).UniqueAddrs)
    (hget : s.clients[index]? = some (some client)) (hne : client.clientAddr ≠ other)
    (hne' : client'.clientAddr ≠ other) :
    s.SameEntry other (s.setClient index (some client')) := by
  refine ⟨rfl, findClient_congr hs' fun i c hc => ?_⟩
  rw [getElem?_setClient _ (List.getElem?_eq_some_iff.mp hget).1]
  split_ifs with hi
  · subst hi
    rw [hget]
    constructor
    · intro heq
      cases heq
      exact absurd hc hne'
    · intro heq
      cases heq
      exact absurd hc hne
  · rfl

/-- Sending to a client leaves the others alone. -/
theorem send_other [Rkyv P] {packet : P.Server} {result : Option (IoResult PacketId)}
    (hs' : s'.UniqueAddrs) (hne : addr ≠ other)
    (h : s.send addr packet env = .ok (result, s', env')) :
    s.SameEntry other s' ∧ env.Tells other H env' := by
  unfold send at h
  split at h
  · cases h
    exact ⟨⟨rfl, rfl⟩, .refl _⟩
  · rename_i index client hfind
    obtain ⟨hget, haddr⟩ := findClient_eq_some hfind
    cases hsend : client.buffers.send (Rkyv.serializeServer (.user packet))
        s.config.connection.backgroundSerializationThreshold addr env with
    | error abort => simp [hsend, bind, Except.bind] at h
    | ok sent =>
      simp only [hsend, bind, Except.bind, pure, Except.pure] at h
      cases h
      exact ⟨setClient_sameEntry hs' hget (haddr ▸ hne) (haddr ▸ hne),
        PacketBuffers.send_tells hne hsend⟩

end Server

end Ultinet
