import Ultinet.Net.HonestServer

/-!
# Connection agreement

A client and a server that exchange packets of a single part over a network that loses, duplicates and
reorders datagrams.  The server may have other clients; the client listens to this server only.

A server forgets the id of a packet once it is done, so a duplicate of a `Connect` that arrives later
is handled as another `Connect`: a server that has accepted the client disconnects it, while the
client stays connected (`agreement_wrong`).  As long as no `Connect` and no `Reject` is reassembled a
second time, a client that is connected has a slot (`agreement`).
-/

namespace Ultinet

variable {P : Packets}

namespace Link

/-! ## What is assumed of a step -/

section Conditions

variable [Rkyv P] (clientAddr serverAddr : SocketAddr)

/-- The socket reports no errors, nothing times out, packets have a single part, and whatever arrives
from the peer was sent by the peer. -/
def Environment (l : Link P) : LinkEvent P → Prop
  | .listen env => env.NoError
  | .query query env => env.NoError ∧
      chunkCount (Rkyv.serializeClient (.query query : ClientConnectionPacket P)).flatten = 1
  | .connect connect env => env.NoError ∧
      chunkCount (Rkyv.serializeClient (.connect connect : ClientConnectionPacket P)).flatten = 1
  | .disconnect disconnect env => env.NoError ∧
      chunkCount (Rkyv.serializeClient (.disconnect disconnect : ClientConnectionPacket P)).flatten = 1
  | .send packet env => env.NoError ∧
      chunkCount (Rkyv.serializeClient (.user packet : ClientConnectionPacket P)).flatten = 1
  | .forget _ | .forgetAll => True
  | .clientListeners env _ => env.NoError
  | .clientReceives _ sender buf env _ => env.NoError ∧ (sender = serverAddr → buf ∈ l.toClient)
  | .clientTimeouts env _ =>
      ∀ listener ∈ l.client.listeners,
        ClientUpdate.idle l.client.config.timeout env.now listener = false
  | .unlisten _ | .unlistenAll => True
  | .serverSend receiver packet env => env.NoError ∧ (receiver = clientAddr →
      chunkCount (Rkyv.serializeServer (.user packet : ServerConnectionPacket P)).flatten = 1)
  | .serverBuffers env _ => env.NoError
  | .serverReceives handler sender buf env _ => env.NoError ∧ handler.SinglePart clientAddr ∧
      (sender = clientAddr → buf ∈ l.toServer)
  | .serverPings env _ => env.NoError ∧ ∀ (i : ℕ) (c : ClientConnection),
      l.server.clients[i]? = some (some c) → c.clientAddr = clientAddr →
        c.timesOut l.server.config env.now = false

/-- A packet of some kind was reassembled from a datagram before, and its id is not known any more. -/
def Repeats (kind : Issued → Bool) (log : List Bytes) (buffers : Option PacketBuffers)
    (buf : Bytes) : Prop :=
  buf ∈ log ∧ ∃ packet, buf = onlyPart packet ∧ kind packet = true ∧
    ∃ b ∈ buffers, b.receiveBuffer.packets.get? packet.1 = none

/-- No `Connect` of the client and no `Reject` of the server is reassembled a second time. -/
def NoRedelivery (l : Link P) : LinkEvent P → Prop
  | .clientReceives _ sender buf _ _ => sender = serverAddr →
      ¬Repeats (rejects P) l.clientLog (l.client.buffersOf serverAddr) (recv buf)
  | .serverReceives _ sender buf _ _ => sender = clientAddr →
      ¬Repeats (connects P) l.serverLog (l.server.buffersOf clientAddr) (recv buf)
  | _ => True

end Conditions

/-! ## The invariant -/

section Invariant

variable [Rkyv P] {clientAddr serverAddr : SocketAddr} {l : Link P} {x : Exchange}

/-- The buffers of both sides, everything that was ever sent and the logs go back to the packets of an
exchange, which is a handshake. -/
structure Agrees (clientAddr serverAddr : SocketAddr) (l : Link P) (x : Exchange) : Prop where
  client : l.client.ListensTo serverAddr x.byClient
  server : l.server.SoundFor clientAddr x.byServer
  clientSingle : ∀ packet ∈ x.byClient, chunkCount packet.2 = 1
  serverSingle : ∀ packet ∈ x.byServer, chunkCount packet.2 = 1
  toServer : ∀ buf ∈ l.toServer, Honest x.byClient buf
  toClient : ∀ buf ∈ l.toClient, Honest x.byServer buf
  clientLog : l.clientLog = x.atClient.map onlyPart
  serverLog : l.serverLog = x.atServer.map onlyPart
  coupled : x.Coupled P l.client.state (l.server.findClient clientAddr).isSome

/-- In the beginning nothing was issued. -/
theorem Agrees.init (clientConfig : ClientConfig) (serverConfig : ServerConfig) :
    (Link.init (P := P) clientConfig serverConfig).Agrees clientAddr serverAddr .init where
  client := ⟨none, rfl, by simp⟩
  server :=
    { unique := Server.uniqueAddrs_host serverConfig
      client := fun i c hget => by simp [Link.init, Server.host] at hget
      listener := fun buffers hget => by cases hget }
  clientSingle := by simp [Exchange.init]
  serverSingle := by simp [Exchange.init]
  toServer := by simp [Link.init]
  toClient := by simp [Link.init]
  clientLog := rfl
  serverLog := rfl
  coupled := .init

/-- All that matters about a datagram of the peer is whether its packet was reassembled before. -/
theorem not_mem_of_not_repeats {kind : Issued → Bool} {log : List Bytes} {before : List Issued}
    {buffers : Option PacketBuffers} {packet : Issued} (hlog : log = before.map onlyPart)
    (hrepeats : ¬Repeats kind log buffers (onlyPart packet)) (hkind : kind packet = true)
    (hget : ∃ b, buffers = some b ∧ b.receiveBuffer.packets.get? packet.1 = none) :
    packet ∉ before := by
  intro hmem
  obtain ⟨b, hbuffers, hnone⟩ := hget
  refine hrepeats ⟨?_, packet, rfl, hkind, b, hbuffers, hnone⟩
  rw [hlog]
  exact List.mem_map_of_mem hmem

/-- **A move of the client.** -/
theorem Agrees.clientMoves {client : Client P} {env env' : Env} {received : Option Issued}
    {sent log : List Bytes} (h : l.Agrees clientAddr serverAddr x)
    (hdoes : l.client.Does serverAddr x.byClient env received client env')
    (hsent : ∀ H : Bytes → Prop, env.Tells serverAddr H env' → ∀ buf ∈ sent, H buf)
    (hlog : log = l.clientLog ++ received.toList.map onlyPart)
    (hreceived : ∀ packet ∈ received, packet ∈ x.byServer ∧
      (rejects P packet = true → packet ∉ x.atClient)) :
    ∃ x', Agrees clientAddr serverAddr { l.withClient client sent with clientLog := log } x' := by
  obtain ⟨issued, hmove, hsingle, hlistens, htells⟩ := hdoes
  refine ⟨x.clientMoves received issued, ?_⟩
  exact {
    client := hlistens
    server := h.server
    clientSingle := fun packet hpacket => by
      rcases List.mem_append.mp hpacket with hold | hnew
      · exact h.clientSingle packet hold
      · exact hsingle packet hnew
    serverSingle := h.serverSingle
    toServer := fun buf hbuf => by
      rcases List.mem_append.mp hbuf with hold | hnew
      · exact (h.toServer buf hold).mono (List.subset_append_left _ _)
      · exact hsent _ htells buf hnew
    toClient := h.toClient
    clientLog := by
      rw [hlog, h.clientLog]
      exact List.map_append.symm
    serverLog := h.serverLog
    coupled := h.coupled.clientMoves hmove hreceived }

/-- **A move of the server.** -/
theorem Agrees.serverMoves {server : Server} {env env' : Env} {received : Option Issued}
    {sent log : List Bytes} (h : l.Agrees clientAddr serverAddr x)
    (hdoes : Server.Does (P := P) clientAddr x.byServer l.server env received server env')
    (hsent : ∀ H : Bytes → Prop, env.Tells clientAddr H env' → ∀ buf ∈ sent, H buf)
    (hlog : log = l.serverLog ++ received.toList.map onlyPart)
    (hreceived : ∀ packet ∈ received, packet ∈ x.byClient ∧
      (connects P packet = true → packet ∉ x.atServer)) :
    ∃ x', Agrees clientAddr serverAddr { l.withServer server sent with serverLog := log } x' := by
  obtain ⟨issued, hmove, hsingle, hsound, htells⟩ := hdoes
  refine ⟨x.serverMoves received issued, ?_⟩
  exact {
    client := h.client
    server := hsound
    clientSingle := h.clientSingle
    serverSingle := fun packet hpacket => by
      rcases List.mem_append.mp hpacket with hold | hnew
      · exact h.serverSingle packet hold
      · exact hsingle packet hnew
    toServer := h.toServer
    toClient := fun buf hbuf => by
      rcases List.mem_append.mp hbuf with hold | hnew
      · exact (h.toClient buf hold).mono (List.subset_append_left _ _)
      · exact hsent _ htells buf hnew
    clientLog := h.clientLog
    serverLog := by
      rw [hlog, h.serverLog]
      exact List.map_append.symm
    coupled := h.coupled.serverMoves hmove hreceived }

/-- A call of the client, in which nothing is received. -/
theorem Agrees.clientCalls {client : Client P} {env env' : Env} {sent : List Bytes}
    (h : l.Agrees clientAddr serverAddr x)
    (hdoes : l.client.Does serverAddr x.byClient env none client env')
    (hsent : ∀ H : Bytes → Prop, env.Tells serverAddr H env' → ∀ buf ∈ sent, H buf) :
    ∃ x', (l.withClient client sent).Agrees clientAddr serverAddr x' :=
  h.clientMoves hdoes hsent (List.append_nil _).symm (by simp)

/-- A call of the server, in which nothing is received. -/
theorem Agrees.serverCalls {server : Server} {env env' : Env} {sent : List Bytes}
    (h : l.Agrees clientAddr serverAddr x)
    (hdoes : Server.Does (P := P) clientAddr x.byServer l.server env none server env')
    (hsent : ∀ H : Bytes → Prop, env.Tells clientAddr H env' → ∀ buf ∈ sent, H buf) :
    ∃ x', (l.withServer server sent).Agrees clientAddr serverAddr x' :=
  h.serverMoves hdoes hsent (List.append_nil _).symm (by simp)

/-- The client handled a datagram of the server. -/
theorem Agrees.clientHandled {u u' : ClientUpdate P} {buf : Bytes}
    (h : l.Agrees clientAddr serverAddr x) (hu : u.client = l.client)
    (hhears : ClientUpdate.Hears serverAddr x.byClient x.byServer buf u u')
    (hrepeats : ¬Repeats (rejects P) l.clientLog (l.client.buffersOf serverAddr) buf) :
    ∃ x', (l.clientHandled serverAddr buf u u').Agrees clientAddr serverAddr x' := by
  obtain ⟨received, hdoes, hreassembled, hreceived⟩ := hhears
  rw [hu] at hdoes hreceived
  refine h.clientMoves hdoes (fun H htells sent hsent => htells.mem_sentTo hsent) ?_ ?_
  · rw [hreassembled]
    cases received with
    | none => exact (List.append_nil _).symm
    | some packet =>
      rw [(hreceived packet rfl).2.1]
      rfl
  · intro packet hpacket
    obtain ⟨hpeer, rfl, hget⟩ := hreceived packet hpacket
    exact ⟨hpeer, fun hreject => not_mem_of_not_repeats h.clientLog hrepeats hreject hget⟩

/-- The server handled a datagram of the client. -/
theorem Agrees.serverHandled {u u' : ServerUpdate P} {buf : Bytes}
    (h : l.Agrees clientAddr serverAddr x) (hu : u.server = l.server)
    (hhears : ServerUpdate.Hears clientAddr x.byServer x.byClient buf u u')
    (hrepeats : ¬Repeats (connects P) l.serverLog (l.server.buffersOf clientAddr) buf) :
    ∃ x', (l.serverHandled clientAddr buf u u').Agrees clientAddr serverAddr x' := by
  obtain ⟨received, hdoes, hreassembled, hreceived⟩ := hhears
  rw [hu] at hdoes hreceived
  refine h.serverMoves hdoes (fun H htells sent hsent => htells.mem_sentTo hsent) ?_ ?_
  · rw [hreassembled]
    cases received with
    | none => exact (List.append_nil _).symm
    | some packet =>
      rw [(hreceived packet rfl).2.1]
      rfl
  · intro packet hpacket
    obtain ⟨hpeer, rfl, hget⟩ := hreceived packet hpacket
    exact ⟨hpeer, fun hconnect => not_mem_of_not_repeats h.serverLog hrepeats hconnect hget⟩

/-- **One step.** -/
theorem step_agrees [LawfulRkyv P] {l' : Link P} {e : LinkEvent P}
    (h : l.Agrees clientAddr serverAddr x) (henv : l.Environment clientAddr serverAddr e)
    (honce : l.NoRedelivery clientAddr serverAddr e)
    (hstep : step clientAddr serverAddr l e = some l') :
    ∃ x', l'.Agrees clientAddr serverAddr x' := by
  have hsentTo : ∀ (addr : SocketAddr) (env env' : Env) (H : Bytes → Prop), env.Tells addr H env' →
      ∀ buf ∈ sentTo addr env env', H buf :=
    fun addr env env' H htells buf hbuf => htells.mem_sentTo hbuf
  cases e with
  | listen env =>
    cases hstep
    exact h.clientCalls (Client.listen_does h.client henv) (hsentTo _ _ _)
  | query query env =>
    obtain ⟨⟨result, client, env'⟩, hr, hl⟩ := exists_of_bind_toOption hstep
    cases hl
    exact h.clientCalls (Client.query_does h.client henv.1 henv.2 hr) (hsentTo _ _ _)
  | connect connect env =>
    obtain ⟨⟨result, client, env'⟩, hr, hl⟩ := exists_of_bind_toOption hstep
    cases hl
    exact h.clientCalls (Client.connect_does h.client henv.1 henv.2 hr) (hsentTo _ _ _)
  | disconnect disconnect env =>
    obtain ⟨⟨result, client, env'⟩, hr, hl⟩ := exists_of_bind_toOption hstep
    cases hl
    refine h.clientCalls (Client.sendConnected_does h.client henv.1 henv.2 (fun id => ?_) hr)
      (hsentTo _ _ _)
    refine .disconnect _ ?_
    simp [connects, readsClient, LawfulRkyv.checkClient_serialize, ClientConnectionPacket.isConnect]
  | send packet env =>
    obtain ⟨⟨result, client, env'⟩, hr, hl⟩ := exists_of_bind_toOption hstep
    cases hl
    refine h.clientCalls (Client.sendConnected_does h.client henv.1 henv.2 (fun id => ?_) hr)
      (hsentTo _ _ _)
    refine .issue _ _ ?_
    simp [connects, disconnects, readsClient, LawfulRkyv.checkClient_serialize,
      ClientConnectionPacket.isConnect, ClientConnectionPacket.isDisconnect]
  | forget addr =>
    cases hstep
    have hstate : (l.client.forget addr).2.state = l.client.state := by
      unfold Client.forget
      split
      · rfl
      · split_ifs <;> rfl
    have hdoes : l.client.Does serverAddr x.byClient (.accepting 0) none (l.client.forget addr).2
        (.accepting 0) :=
      .of_state hstate (Client.forget_listensTo h.client addr) (.refl _)
    exact h.clientCalls hdoes (by simp)
  | forgetAll =>
    obtain ⟨client, hr, hl⟩ := exists_of_bind_toOption hstep
    cases hl
    have hstate : client.state = l.client.state := by
      unfold Client.forgetAll at hr
      split at hr
      · cases hr
        rfl
      · split at hr <;> cases hr
        rfl
    have hdoes : l.client.Does serverAddr x.byClient (.accepting 0) none client (.accepting 0) :=
      .of_state hstate (Client.forgetAll_listensTo h.client hr) (.refl _)
    exact h.clientCalls hdoes (by simp)
  | clientListeners env events =>
    cases hstep
    exact h.clientCalls (ClientUpdate.updateListeners_does (u := { client := l.client, env, events })
      h.client h.clientSingle henv) (hsentTo _ _ _)
  | clientReceives handler sender buf env events =>
    obtain ⟨u', hr, hl⟩ := exists_of_bind_toOption hstep
    cases hl
    obtain ⟨hno, hsent⟩ := henv
    by_cases hsender : sender = serverAddr
    · subst hsender
      have hbuf := (h.toClient buf (hsent rfl)).recv h.serverSingle
      exact h.clientHandled rfl (ClientUpdate.handleDatagram_hears h.client hno hbuf hr) (honce rfl)
    · obtain ⟨hdoes, hquiet⟩ := ClientUpdate.handleDatagram_other h.client hsender hr
      refine h.clientMoves hdoes (hsentTo _ _ _) ?_ (by simp)
      rw [hquiet]
      exact (List.append_nil _).symm
  | clientTimeouts env events =>
    cases hstep
    exact h.clientCalls (ClientUpdate.timeoutConnection_does (u := { client := l.client, env, events })
      h.client henv) (by simp)
  | unlisten addr =>
    cases hstep
    have hdoes : Server.Does (P := P) clientAddr x.byServer l.server (.accepting 0) none
        (l.server.unlisten addr).2 (.accepting 0) :=
      Server.unlisten_does h.server addr
    exact h.serverCalls hdoes (by simp)
  | unlistenAll =>
    cases hstep
    have hdoes : Server.Does (P := P) clientAddr x.byServer l.server (.accepting 0) none
        l.server.unlistenAll (.accepting 0) :=
      Server.unlistenAll_does h.server
    exact h.serverCalls hdoes (by simp)
  | serverSend receiver packet env =>
    obtain ⟨⟨result, server, env'⟩, hr, hl⟩ := exists_of_bind_toOption hstep
    cases hl
    exact h.serverCalls (Server.send_does h.server henv.1 henv.2 hr) (hsentTo _ _ _)
  | serverBuffers env events =>
    cases hstep
    exact h.serverCalls (ServerUpdate.updateBuffers_does (u := { server := l.server, env, events })
      h.server h.serverSingle henv) (hsentTo _ _ _)
  | serverReceives handler sender buf env events =>
    obtain ⟨u', hr, hl⟩ := exists_of_bind_toOption hstep
    cases hl
    obtain ⟨hno, hhandler, hsent⟩ := henv
    by_cases hsender : sender = clientAddr
    · subst hsender
      have hbuf := (h.toServer buf (hsent rfl)).recv h.clientSingle
      exact h.serverHandled rfl (ServerUpdate.handleDatagram_hears h.server hno hbuf hhandler hr)
        (honce rfl)
    · obtain ⟨hdoes, hquiet⟩ := ServerUpdate.handleDatagram_other h.server hsender hr
      refine h.serverMoves hdoes (hsentTo _ _ _) ?_ (by simp)
      rw [hquiet]
      exact (List.append_nil _).symm
  | serverPings env events =>
    cases hstep
    exact h.serverCalls (ServerUpdate.sendPings_does (u := { server := l.server, env, events })
      h.server henv.1 henv.2) (hsentTo _ _ _)

end Invariant

/-! ## Agreement -/

/-- **Connection agreement.**  As long as no `Connect` of the client and no `Reject` of the server is
reassembled a second time, a client that is connected has a slot. -/
theorem agreement [Rkyv P] [LawfulRkyv P] {clientAddr serverAddr : SocketAddr}
    {clientConfig : ClientConfig} {serverConfig : ServerConfig} {l : Link P}
    (hrun : (system P clientAddr serverAddr).GuardedRun
      (fun l e => l.Environment clientAddr serverAddr e ∧ l.NoRedelivery clientAddr serverAddr e)
      (init clientConfig serverConfig) l)
    (hconnected : l.client.state = .connected) : (l.server.findClient clientAddr).isSome = true := by
  have hagrees : ∃ x, l.Agrees clientAddr serverAddr x := by
    refine hrun.invariant (I := fun l : Link P => ∃ x, l.Agrees clientAddr serverAddr x) ?_
      ⟨.init, Agrees.init clientConfig serverConfig⟩
    rintro s e t ⟨x, hx⟩ ⟨henv, honce⟩ hstep
    exact step_agrees hx henv honce hstep
  obtain ⟨x, hx⟩ := hagrees
  have hcoupled := hx.coupled
  rw [hconnected] at hcoupled
  exact hcoupled.member_of_connected

/-! ## Two runs -/

theorem singlePart_default (clientAddr : SocketAddr) :
    ServerHandler.default.SinglePart clientAddr where
  status := fun _ _ => (by decide : chunkCount [0] = 1)
  accept := fun _ _ _ _ => (by decide : chunkCount [1] = 1)
  reject := fun _ _ _ h => by cases h

/-- Whatever arrives was sent by the peer, and it is not a duplicate if there are to be none. -/
def checkDelivery (fresh : Bool) (l : Link DefaultPackets) : LinkEvent DefaultPackets → Bool
  | .clientReceives _ _ buf _ _ => decide (buf ∈ l.toClient ∧ (fresh → recv buf ∉ l.clientLog))
  | .serverReceives _ _ buf _ _ => decide (buf ∈ l.toServer ∧ (fresh → recv buf ∉ l.serverLog))
  | _ => true

theorem noRedelivery_of_check {clientAddr serverAddr : SocketAddr} {l : Link DefaultPackets}
    {e : LinkEvent DefaultPackets} (h : checkDelivery true l e = true) :
    l.NoRedelivery clientAddr serverAddr e := by
  cases e with
  | clientReceives handler sender buf env events =>
    intro _ hrepeats
    exact (of_decide_eq_true h).2 rfl hrepeats.1
  | serverReceives handler sender buf env events =>
    intro _ hrepeats
    exact (of_decide_eq_true h).2 rfl hrepeats.1
  | _ => trivial

/-- The only part of the `Connect` in the two runs. -/
def connectPart : Bytes :=
  partDatagram true (.replicate 4) 0 [1]

/-- A client asks for the version, connects and is accepted. -/
def connecting : List (LinkEvent DefaultPackets) :=
  [.listen (.accepting 0), .serverReceives .default 5 [] (.accepting 0) [],
    .clientReceives (.default DefaultPackets) 7 [PacketKind.version.toByte] (.accepting 0) [],
    .connect () (.accepting 0 4), .serverReceives .default 5 connectPart (.accepting 0 5) [],
    .clientReceives (.default DefaultPackets) 7 (partDatagram true (.replicate 5) 0 [1])
      (.accepting 0) []]

/-- The `Connect` is acknowledged and done, and then it arrives again. -/
def connectingAgain : List (LinkEvent DefaultPackets) :=
  [.clientReceives (.default DefaultPackets) 7 (ackDatagram (.replicate 4) 0) (.accepting 0) [],
    .clientListeners (.accepting 1000) [],
    .serverReceives .default 5 (doneDatagram (.replicate 4)) (.accepting 1000) [],
    .serverReceives .default 5 connectPart (.accepting 1000) []]

theorem environment_of_check {fresh : Bool} {l : Link DefaultPackets} {e : LinkEvent DefaultPackets}
    (he : e ∈ connecting ++ connectingAgain) (h : checkDelivery fresh l e = true) :
    l.Environment 5 7 e := by
  simp only [connecting, connectingAgain, List.cons_append, List.nil_append, List.mem_cons,
    List.not_mem_nil, or_false] at he
  have hno : ∀ now uuid, (Env.accepting now uuid).NoError := Env.accepting_noError
  rcases he with rfl | rfl | rfl | rfl | rfl | rfl | rfl | rfl | rfl | rfl
  · exact hno _ _
  · exact ⟨hno _ _, singlePart_default 5, fun _ => (of_decide_eq_true h).1⟩
  · exact ⟨hno _ _, fun _ => (of_decide_eq_true h).1⟩
  · exact ⟨hno _ _, by decide⟩
  · exact ⟨hno _ _, singlePart_default 5, fun _ => (of_decide_eq_true h).1⟩
  · exact ⟨hno _ _, fun _ => (of_decide_eq_true h).1⟩
  · exact ⟨hno _ _, fun _ => (of_decide_eq_true h).1⟩
  · exact hno _ _
  · exact ⟨hno _ _, singlePart_default 5, fun _ => (of_decide_eq_true h).1⟩
  · exact ⟨hno _ _, singlePart_default 5, fun _ => (of_decide_eq_true h).1⟩

/-- A client that was accepted has a slot. -/
theorem agreement_accepted :
    ∃ l : Link DefaultPackets, (system DefaultPackets 5 7).GuardedRun
        (fun l e => l.Environment 5 7 e ∧ l.NoRedelivery 5 7 e) (init .default .default) l ∧
      l.client.state = .connected ∧ (l.server.findClient 5).isSome = true := by
  obtain ⟨l, hrun, hl⟩ := Lts.exists_guardedRun (system DefaultPackets 5 7)
    (fun l e => l.Environment 5 7 e ∧ l.NoRedelivery 5 7 e) (checkDelivery true)
    (init .default .default) connecting (fun l => decide (l.client.state = .connected))
    (fun l e he hcheck => ⟨environment_of_check (List.mem_append_left _ he) hcheck,
      noRedelivery_of_check hcheck⟩)
    (by decide +kernel)
  exact ⟨l, hrun, of_decide_eq_true hl, agreement hrun (of_decide_eq_true hl)⟩

/-- **A duplicate of a `Connect` disconnects the client.**  The client does not hear of it. -/
theorem agreement_wrong :
    ∃ l : Link DefaultPackets, (system DefaultPackets 5 7).GuardedRun
        (fun l e => l.Environment 5 7 e) (init .default .default) l ∧
      l.client.state = .connected ∧ l.server.findClient 5 = none := by
  obtain ⟨l, hrun, hl⟩ := Lts.exists_guardedRun (system DefaultPackets 5 7)
    (fun l e => l.Environment 5 7 e) (checkDelivery false) (init .default .default)
    (connecting ++ connectingAgain)
    (fun l => decide (l.client.state = .connected) && (l.server.findClient 5).isNone)
    (fun l e he hcheck => environment_of_check he hcheck) (by decide +kernel)
  obtain ⟨hstate, hnone⟩ := Bool.and_eq_true_iff.mp hl
  exact ⟨l, hrun, of_decide_eq_true hstate, by simpa using hnone⟩

end Link

end Ultinet
