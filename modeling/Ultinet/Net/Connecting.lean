import Ultinet.Net.Agreement

/-!
# Connecting works

A client that is disconnected, and a server that has no slot for it: whatever else the two were doing
before, they can get connected, over a network that only delivers what was sent (`Link.can_connect`).
Seven steps are enough, which are given by what holds after each of them, from `Asked` to `Granted`:
the client asks for the version, the server answers, the client finds it compatible and sends a
`Connect`, and the server accepts it.
-/

namespace Ultinet

variable {P : Packets}

/-! ## Sending a packet of a single part -/

theorem Env.accepting_perfect (now : ℕ) (uuid : UInt8) : (accepting now uuid).Perfect :=
  fun _ _ => rfl

theorem Env.send_of_perfect {env : Env} (hperfect : env.Perfect) {addr : SocketAddr} {buf : Bytes} :
    env.send addr buf = (.ok true, env.record [(addr, buf)] [(addr, buf)]) := by
  unfold send
  rw [hperfect]

namespace PacketBuffers

/-- A packet of a single part is sent at once, with a socket that accepts everything. -/
theorem send_onlyPart (b : PacketBuffers) {value : List Bytes} (threshold : ℕ) (addr : SocketAddr)
    {env : Env} (hone : chunkCount value.flatten = 1) (hperfect : env.Perfect) :
    ∃ b' env', b.send value threshold addr env = .ok (.ok env.newUuid.1, b', env') ∧
      b'.receiveBuffer = b.receiveBuffer ∧
      env.Sends addr env' [onlyPart (env.newUuid.1, value.flatten)] := by
  have hsmall : chunkCount value.flatten < seqIndexBound := by
    rw [hone]
    decide
  set serialized := if chunkCount value.flatten ≤ threshold then
    SerializedPacket.vec (chunkBuffers env.newUuid.1 value.flatten)
    else .channel (chunkBuffers env.newUuid.1 value.flatten) with hserialized
  have hvec : serialized = .vec (chunkBuffers env.newUuid.1 value.flatten) ∨
      serialized = .channel (chunkBuffers env.newUuid.1 value.flatten) := by
    rw [hserialized]
    split_ifs
    · exact Or.inl rfl
    · exact Or.inr rfl
  have hfirst : PacketOut.FirstBatchSent env.newUuid.1 value.flatten b.sendBuffer.batchSize.val addr
      env.newUuid.2 := fun _ _ _ _ => hperfect _ _
  obtain ⟨packet, hsend, -⟩ := PacketOut.send_of_firstBatchSent hvec hfirst
  have hbatch : PacketOut.firstBatch env.newUuid.1 value.flatten b.sendBuffer.batchSize.val =
      [onlyPart (env.newUuid.1, value.flatten)] := by
    obtain ⟨m, hm⟩ : ∃ m, b.sendBuffer.batchSize.val = m + 1 :=
      Nat.exists_eq_succ_of_ne_zero b.sendBuffer.batchSize.property.1.ne'
    rw [PacketOut.firstBatch, hone, hm, ← chunkDatagram_zero hone]
    simp
  rw [hbatch] at hsend
  refine ⟨{ b with sendBuffer :=
      { b.sendBuffer with packets := b.sendBuffer.packets.insert env.newUuid.1 packet } },
    env.newUuid.2.record [(addr, onlyPart (env.newUuid.1, value.flatten))]
      [(addr, onlyPart (env.newUuid.1, value.flatten))], ?_, rfl, rfl, rfl, rfl⟩
  unfold send SendPacketBuffer.send
  have hserialize : serializePacket env.newUuid.1 threshold value = .ok serialized :=
    serializePacket_eq hsmall
  simp only [hserialize, bind, Except.bind, pure, Except.pure, hsend, List.map_singleton]

end PacketBuffers

/-- What was sent is found. -/
theorem Env.Sends.mem_sentTo {env env' : Env} {addr : SocketAddr} {bufs : List Bytes}
    (h : env.Sends addr env' bufs) {buf : Bytes} (hbuf : buf ∈ bufs) : buf ∈ sentTo addr env env' := by
  unfold sentTo
  rw [h.sent, List.drop_left]
  refine List.mem_map.mpr ⟨(addr, buf), List.mem_filter.mpr ⟨List.mem_map_of_mem hbuf, ?_⟩, rfl⟩
  exact decide_eq_true rfl

/-- A client that the server knows nothing of asks for the version. -/
theorem ServerUpdate.handleVersionRequest_unheard (handler : ServerHandler P) (u : ServerUpdate P)
    {clientAddr : SocketAddr} (hlistener : u.server.listeners.get? clientAddr = none)
    (hclient : u.server.findClient clientAddr = none) (hperfect : u.env.Perfect) :
    (u.handleVersionRequest handler clientAddr).server = { u.server with
        listeners := u.server.listeners.insert clientAddr
          (.new u.server.config.connection.initialSendBatchSize) } ∧
      u.env.Sends clientAddr (u.handleVersionRequest handler clientAddr).env
        [PacketKind.version.toByte :: (VersionPacket.write (handler.version u.events)).val] := by
  have hsend : u.env.send clientAddr
      (PacketKind.version.toByte :: (VersionPacket.write (handler.version u.events)).val) = _ :=
    Env.send_of_perfect hperfect
  unfold handleVersionRequest
  dsimp only [tell]
  rw [hsend]
  dsimp only
  rw [if_pos ⟨rfl, hlistener, hclient⟩]
  exact ⟨rfl, rfl, rfl, rfl⟩

/-! ## The calls on the way -/

/-- The only listener is found. -/
theorem Client.position_only {c : Client P} {listener : ServerListener P}
    (h : c.listeners = [listener]) : c.position listener.serverAddr = some (0, listener) := by
  simp [Client.position, Vec.position, h]

/-- The only part of a packet starts with its kind. -/
theorem exists_onlyPart_eq_cons (id : PacketId) (payload : Bytes) :
    ∃ rest, onlyPart (id, payload) = PacketKind.lastPart.toByte :: rest :=
  ⟨id.bytes ++ SeqIndex.toLeBytes 0 ++ payload, by simp [onlyPart, partDatagram, partHeader]⟩

section Calls

variable [Rkyv P]

/-- The server that was asked for its version is compatible. -/
theorem ClientUpdate.handleDatagram_version {handler : ClientHandler P} (u : ClientUpdate P)
    {serverAddr : SocketAddr} {last : Option ℕ} {data : Bytes} {version : P.Version}
    (hlisteners : u.client.listeners = [⟨serverAddr, .pendingVersion last⟩])
    (hread : VersionPacket.read data = some version)
    (hcompatible : handler.compatibility u.events version = .ok ()) :
    u.handleDatagram handler serverAddr (PacketKind.version.toByte :: data) =
      .ok ((u.tell (.compatibility version)).setListener 0
        ⟨serverAddr, .compatible (.new u.client.config.connection.initialSendBatchSize)
          u.env.now⟩) := by
  have hposition : u.client.position serverAddr = some (0, ⟨serverAddr, .pendingVersion last⟩) :=
    Client.position_only hlisteners
  have hkind : PacketKind.tryFrom PacketKind.version.toByte = some .version := by decide
  simp only [handleDatagram, hposition, handleVersion, if_pos hkind, hread, hcompatible]

/-- A `Connect` of a single part is sent to the only server. -/
theorem Client.connect_only {c : Client P} {serverAddr : SocketAddr} {buffers : PacketBuffers}
    {time : ℕ} {connect : P.Connect} {env : Env} {issued : List Issued}
    (hbuffers : Sound issued buffers) (hstate : c.state = .disconnected)
    (hlisteners : c.listeners = [⟨serverAddr, .compatible buffers time⟩])
    (hone : chunkCount
      (Rkyv.serializeClient (.connect connect : ClientConnectionPacket P)).flatten = 1)
    (hperfect : env.Perfect) :
    ∃ buffers' env' issued', c.connect (.ok serverAddr) connect env =
        .ok (.ok env.newUuid.1, { c with
          state := .connecting
          listeners := [⟨serverAddr, .compatible buffers' time⟩] }, env') ∧
      Sound issued' buffers' ∧ buffers'.receiveBuffer = buffers.receiveBuffer ∧
      env.Sends serverAddr env'
        [onlyPart (env.newUuid.1,
          (Rkyv.serializeClient (.connect connect : ClientConnectionPacket P)).flatten)] := by
  obtain ⟨buffers', env', hsend, hreceive, hsends⟩ := buffers.send_onlyPart
    c.config.connection.backgroundSerializationThreshold serverAddr hone hperfect
  obtain ⟨_, _, -, -, -, hsound⟩ := hbuffers.send_spec hone hperfect.noError hsend
  refine ⟨buffers', env', _, ?_, hsound, hreceive, hsends⟩
  have hposition : c.position serverAddr = some (0, ⟨serverAddr, .compatible buffers time⟩) :=
    Client.position_only hlisteners
  simp only [Client.connect, if_pos hstate, Client.getOrAddListener, hposition, hsend, bind,
    Except.bind, pure, Except.pure, Client.setListener, hlisteners, List.set_cons_zero]

/-- The only part of a packet that the server never heard of is reassembled. -/
theorem ServerUpdate.handleBuffers_onlyPart [LawfulRkyv P] (u : ServerUpdate P)
    (batchSize : NonZeroBatchSize) (clientAddr : SocketAddr) (id : PacketId)
    (packet : ClientConnectionPacket P) (hperfect : u.env.Perfect) :
    ∃ receiveBuffer env' acks, u.env.Sends clientAddr env' acks ∧
      u.handleBuffers (.new batchSize) clientAddr
          (onlyPart (id, (Rkyv.serializeClient packet).flatten)) =
        .ok (some packet, { PacketBuffers.new batchSize with receiveBuffer },
          { u with env := env' }.tell (.rawPacket (.part clientAddr .reassembled))) := by
  obtain ⟨receiveBuffer, env', acks, -, hacks, -, hhandle⟩ :=
    @Sound.handle_onlyPart [] (.new batchSize) clientAddr u.env (Sound.new [] batchSize)
      (id, (Rkyv.serializeClient packet).flatten) hperfect.noError
  have hunknown : (PacketBuffers.new batchSize).receiveBuffer.packets.get? id = none := rfl
  rw [if_pos hunknown] at hhandle
  refine ⟨receiveBuffer, env', acks, hacks, ?_⟩
  simp only [handleBuffers, hhandle, bind, Except.bind, pure, Except.pure,
    LawfulRkyv.checkClient_serialize]

/-- A client that is accepted gets a slot, and the `Accept` is sent. -/
theorem ServerUpdate.handleListenerPacket_accept {handler : ServerHandler P} (u : ServerUpdate P)
    {clientAddr : SocketAddr} (buffers : PacketBuffers) {connect : P.Connect} {accept : P.Accept}
    (haccept : handler.connect u.events clientAddr connect = .accept accept)
    (hone : chunkCount
      (Rkyv.serializeServer (.accept accept : ServerConnectionPacket P)).flatten = 1)
    (hperfect : u.env.Perfect) :
    ∃ u', u.handleListenerPacket handler clientAddr buffers (.connect connect) = .ok u' ∧
      (u'.server.findClient clientAddr).isSome = true ∧ u.env.Sends clientAddr u'.env
        [onlyPart (u.env.newUuid.1,
          (Rkyv.serializeServer (.accept accept : ServerConnectionPacket P)).flatten)] := by
  obtain ⟨buffers', env', hsend, -, hsends⟩ := buffers.send_onlyPart
    u.server.config.connection.backgroundSerializationThreshold clientAddr hone hperfect
  have hpacket : (u.tell (.connect clientAddr connect)).sendPacket buffers clientAddr
      (.accept accept) = .ok (.ok u.env.newUuid.1, buffers',
        { u.tell (.connect clientAddr connect) with env := env' }) := by
    unfold sendPacket
    change (buffers.send _ u.server.config.connection.backgroundSerializationThreshold clientAddr
      u.env >>= _) = _
    rw [hsend]
    rfl
  unfold handleListenerPacket
  dsimp only
  rw [haccept]
  dsimp only
  rw [hpacket]
  refine ⟨_, rfl, ?_, hsends⟩
  exact Server.isSome_findClient.mpr (by
    obtain ⟨index, -, hslots, -⟩ := Server.addClient_spec
      { u.server with listeners := (u.server.listeners.insert clientAddr buffers').erase clientAddr }
      (.new clientAddr buffers')
    exact ⟨index, .new clientAddr buffers', (hslots index).trans (if_pos rfl), rfl⟩)

/-- A client that the server listens to sends a `Connect` of a single part, and it is accepted. -/
theorem ServerUpdate.handleDatagram_connect [LawfulRkyv P] {handler : ServerHandler P}
    (u : ServerUpdate P) {clientAddr : SocketAddr} {batchSize : NonZeroBatchSize} (id : PacketId)
    {connect : P.Connect} {accept : P.Accept} (hperfect : u.env.Perfect)
    (hslot : u.server.findClient clientAddr = none)
    (hlistener : u.server.listeners.get? clientAddr = some (.new batchSize))
    (haccept : handler.connect (u.events ++ [.rawPacket (.part clientAddr .reassembled)])
      clientAddr connect = .accept accept)
    (hone : chunkCount
      (Rkyv.serializeServer (.accept accept : ServerConnectionPacket P)).flatten = 1) :
    ∃ u' id' acks, u.handleDatagram handler clientAddr (onlyPart (id,
        (Rkyv.serializeClient (.connect connect : ClientConnectionPacket P)).flatten)) = .ok u' ∧
      (u'.server.findClient clientAddr).isSome = true ∧
      u.env.Sends clientAddr u'.env (acks ++ [onlyPart (id', (Rkyv.serializeServer
        (.accept accept : ServerConnectionPacket P)).flatten)]) := by
  obtain ⟨receiveBuffer, env', acks, hacks, hhandle⟩ :=
    u.handleBuffers_onlyPart batchSize clientAddr id (.connect connect) hperfect
  have hperfect' : env'.Perfect := fun attempts datagram =>
    (congrFun (congrFun hacks.answer attempts) datagram).trans (hperfect attempts datagram)
  obtain ⟨u', haccepted, hslotted, hsends⟩ := ServerUpdate.handleListenerPacket_accept
    (({ u with env := env' }.tell (.rawPacket (.part clientAddr .reassembled))).setListener
      clientAddr { PacketBuffers.new batchSize with receiveBuffer })
    { PacketBuffers.new batchSize with receiveBuffer } haccept hone hperfect'
  refine ⟨u', env'.newUuid.1, acks, ?_, hslotted, hacks.trans hsends⟩
  obtain ⟨rest, hbuf⟩ := exists_onlyPart_eq_cons id
    (Rkyv.serializeClient (.connect connect : ClientConnectionPacket P)).flatten
  rw [hbuf] at hhandle ⊢
  simp only [handleDatagram, hslot, hlistener, handleListener, hhandle, bind, Except.bind]
  exact haccepted

/-- A client that waits for the answer of the only server is accepted. -/
theorem ClientUpdate.handleDatagram_accept [LawfulRkyv P] (handler : ClientHandler P)
    (u : ClientUpdate P) {serverAddr : SocketAddr} {buffers : PacketBuffers} {time : ℕ}
    {issued : List Issued} (id : PacketId) (accept : P.Accept) (hno : u.env.NoError)
    (hbuffers : Sound issued buffers) (hreceive : buffers.receiveBuffer = .new)
    (hstate : u.client.state = .connecting)
    (hlisteners : u.client.listeners = [⟨serverAddr, .compatible buffers time⟩]) :
    ∃ u', u.handleDatagram handler serverAddr (onlyPart (id,
        (Rkyv.serializeServer (.accept accept : ServerConnectionPacket P)).flatten)) = .ok u' ∧
      u'.client.state = .connected := by
  obtain ⟨receiveBuffer, env', acks, -, -, -, hhandle⟩ :=
    @Sound.handle_onlyPart issued buffers serverAddr u.env hbuffers (id,
      (Rkyv.serializeServer (.accept accept : ServerConnectionPacket P)).flatten) hno
  have hunknown : buffers.receiveBuffer.packets.get? id = none := by
    rw [hreceive]
    rfl
  rw [if_pos hunknown] at hhandle
  have hposition : u.client.position serverAddr =
      some (0, ⟨serverAddr, .compatible buffers time⟩) := Client.position_only hlisteners
  obtain ⟨rest, hbuf⟩ := exists_onlyPart_eq_cons id
    (Rkyv.serializeServer (.accept accept : ServerConnectionPacket P)).flatten
  have hkind : (PacketKind.lastPart.toByte :: rest).head?.bind PacketKind.tryFrom ≠ some .ping :=
    (by decide : PacketKind.tryFrom PacketKind.lastPart.toByte ≠ some .ping)
  set handled : ClientUpdate P :=
    { (u.setListener 0 ⟨serverAddr, .compatible buffers u.env.now⟩).setListener 0
        ⟨serverAddr, .compatible { buffers with receiveBuffer } u.env.now⟩ with env := env' }
    with hhandled
  have hconnecting : decide (0 = 0 ∧ u.client.state ≠ .disconnected) = true := by
    rw [hstate]
    decide
  have hdatagram : u.handleDatagram handler serverAddr (PacketKind.lastPart.toByte :: rest) =
      handled.handleResult serverAddr true (.ok (.received (.reassembled
        (Rkyv.serializeServer (.accept accept : ServerConnectionPacket P)).flatten))) := by
    rw [hbuf] at hhandle
    unfold handleDatagram
    rw [hposition]
    dsimp only
    rw [hconnecting, handleCompatible, if_neg fun h => hkind h.2]
    simp only [setListener_env, hhandle, bind, Except.bind, hhandled]
  have hresult : handled.handleResult serverAddr true (.ok (.received (.reassembled
      (Rkyv.serializeServer (.accept accept : ServerConnectionPacket P)).flatten))) =
      .ok (((handled.tell (.rawPacket (.part serverAddr .reassembled))).tell
        (.accept accept)).setState .connected) := by
    unfold handleResult
    dsimp only
    rw [LawfulRkyv.checkServer_serialize]
    exact congrArg Except.ok (if_pos ⟨rfl, hstate⟩)
  rw [hbuf]
  exact ⟨_, hdatagram.trans hresult, rfl⟩

end Calls

/-! ## The steps -/

namespace Link

variable {clientAddr serverAddr : SocketAddr} {l : Link P}

/-- The client waits for the version of the server, which knows nothing of the client. -/
structure Asked (clientAddr serverAddr : SocketAddr) (l : Link P) : Prop where
  state : l.client.state = .disconnected
  listeners : ∃ last, l.client.listeners = [⟨serverAddr, .pendingVersion last⟩]
  unslotted : l.server.findClient clientAddr = none
  unheard : l.server.listeners.get? clientAddr = none
  sent : [] ∈ l.toServer

/-- The server listens to the client, and its version is on its way. -/
structure Answered (clientAddr serverAddr : SocketAddr) (version : Bytes) (l : Link P) : Prop where
  state : l.client.state = .disconnected
  listeners : ∃ last, l.client.listeners = [⟨serverAddr, .pendingVersion last⟩]
  unslotted : l.server.findClient clientAddr = none
  heard : ∃ batchSize, l.server.listeners.get? clientAddr = some (.new batchSize)
  sent : PacketKind.version.toByte :: version ∈ l.toClient

/-- The server is compatible, and listens to the client. -/
structure Compatible (clientAddr serverAddr : SocketAddr) (l : Link P) : Prop where
  state : l.client.state = .disconnected
  listeners : ∃ batchSize time,
    l.client.listeners = [⟨serverAddr, .compatible (.new batchSize) time⟩]
  unslotted : l.server.findClient clientAddr = none
  heard : ∃ batchSize, l.server.listeners.get? clientAddr = some (.new batchSize)

/-- The client waits for the answer of the server, of which it received no packet yet. -/
def Expectant (serverAddr : SocketAddr) (l : Link P) : Prop :=
  l.client.state = .connecting ∧ ∃ buffers time issued, Sound issued buffers ∧
    buffers.receiveBuffer = .new ∧ l.client.listeners = [⟨serverAddr, .compatible buffers time⟩]

/-- The `Connect` is on its way. -/
structure Requested (clientAddr serverAddr : SocketAddr) (payload : Bytes) (l : Link P) : Prop where
  expectant : l.Expectant serverAddr
  unslotted : l.server.findClient clientAddr = none
  heard : ∃ batchSize, l.server.listeners.get? clientAddr = some (.new batchSize)
  sent : ∃ id, onlyPart (id, payload) ∈ l.toServer

/-- The client has a slot, and the `Accept` is on its way. -/
structure Granted (clientAddr serverAddr : SocketAddr) (payload : Bytes) (l : Link P) : Prop where
  expectant : l.Expectant serverAddr
  slotted : (l.server.findClient clientAddr).isSome = true
  sent : ∃ id, onlyPart (id, payload) ∈ l.toClient

variable [Rkyv P]

/-- A run in which the socket reports no errors, packets have a single part and whatever arrives was
sent. -/
def Reaches (clientAddr serverAddr : SocketAddr) (l l' : Link P) : Prop :=
  (system P clientAddr serverAddr).GuardedRun (fun l e => l.Environment clientAddr serverAddr e) l l'

theorem Reaches.of_step {l' : Link P} {e : LinkEvent P}
    (henv : l.Environment clientAddr serverAddr e) (h : step clientAddr serverAddr l e = some l') :
    l.Reaches clientAddr serverAddr l' :=
  Relation.ReflTransGen.single ⟨e, henv, h⟩

theorem Reaches.trans {l' l'' : Link P} (h : l.Reaches clientAddr serverAddr l')
    (h' : l'.Reaches clientAddr serverAddr l'') : l.Reaches clientAddr serverAddr l'' :=
  Relation.ReflTransGen.trans h h'

/-- The client receives a datagram of the server. -/
theorem Reaches.clientReceives {handler : ClientHandler P} {buf : Bytes} {u : ClientUpdate P}
    (hsent : buf ∈ l.toClient) (hlen : buf.length ≤ packetBufferSize)
    (h : ({ client := l.client, env := .accepting 0, events := [] } : ClientUpdate P).handleDatagram
      handler serverAddr buf = .ok u) :
    l.Reaches clientAddr serverAddr (l.clientHandled serverAddr buf
      { client := l.client, env := .accepting 0, events := [] } u) := by
  refine .of_step (e := .clientReceives handler serverAddr buf (.accepting 0) [])
    ⟨Env.accepting_noError 0 7, fun _ => hsent⟩ ?_
  simp only [step, recv_of_length_le hlen, h]
  rfl

/-- The server receives a datagram of the client. -/
theorem Reaches.serverReceives {handler : ServerHandler P} {buf : Bytes} {u : ServerUpdate P}
    (hsingle : handler.SinglePart clientAddr) (hsent : buf ∈ l.toServer)
    (hlen : buf.length ≤ packetBufferSize)
    (h : ({ server := l.server, env := .accepting 0, events := [] } : ServerUpdate P).handleDatagram
      handler clientAddr buf = .ok u) :
    l.Reaches clientAddr serverAddr (l.serverHandled clientAddr buf
      { server := l.server, env := .accepting 0, events := [] } u) := by
  refine .of_step (e := .serverReceives handler clientAddr buf (.accepting 0) [])
    ⟨Env.accepting_noError 0 7, hsingle, fun _ => hsent⟩ ?_
  simp only [step, recv_of_length_le hlen, h]
  rfl

/-- **Starting over.**  The client forgets all servers, the server forgets the client, and the client
asks for the version. -/
theorem exists_asked (serverAddr : SocketAddr) (hstate : l.client.state = .disconnected)
    (hslot : l.server.findClient clientAddr = none) :
    ∃ l', l.Reaches clientAddr serverAddr l' ∧ l'.Asked clientAddr serverAddr := by
  have hforget : l.client.forgetAll = .ok { l.client with listeners := [] } := if_pos hstate
  have hlisten : ({ l.client with listeners := [] } : Client P).listen serverAddr (.accepting 0) =
      (.ok .pending,
        { l.client with listeners := [⟨serverAddr, .pendingVersion (some 0)⟩] },
        (Env.accepting 0).record [(serverAddr, [])] [(serverAddr, [])]) := rfl
  have hunlisten : (l.server.unlisten clientAddr).2.findClient clientAddr = none ∧
      (l.server.unlisten clientAddr).2.listeners.get? clientAddr = none := by
    unfold Server.unlisten
    split_ifs with hlistener
    · refine ⟨hslot, ?_⟩
      rw [SortedMap.get?_erase, if_pos rfl]
    · exact ⟨hslot, by simpa using hlistener⟩
    · exact ⟨hslot, by simpa using hlistener⟩
  have hfirst : step clientAddr serverAddr l .forgetAll =
      some (l.withClient { l.client with listeners := [] } []) := by
    simp only [step, hforget]
    rfl
  refine ⟨_, ((Reaches.of_step (e := .forgetAll) trivial hfirst).trans
    (.of_step (e := .unlisten clientAddr) trivial rfl)).trans
    (.of_step (e := .listen (.accepting 0)) (Env.accepting_noError 0 7) rfl), ?_⟩
  refine ⟨?_, ?_, hunlisten.1, hunlisten.2, ?_⟩
  · exact hstate
  · exact ⟨some 0, rfl⟩
  · refine List.mem_append_right _ ?_
    change [] ∈ sentTo serverAddr (.accepting 0)
      (({ l.client with listeners := [] } : Client P).listen serverAddr (.accepting 0)).2.2
    rw [hlisten]
    simp [sentTo, Env.accepting]

/-- **The server answers.** -/
theorem Asked.answered {handler : ServerHandler P} (h : l.Asked clientAddr serverAddr)
    (hsingle : handler.SinglePart clientAddr) :
    ∃ l', l.Reaches clientAddr serverAddr l' ∧
      l'.Answered clientAddr serverAddr (VersionPacket.write (handler.version [])).val := by
  obtain ⟨hserver, hsends⟩ := ServerUpdate.handleVersionRequest_unheard handler
    { server := l.server, env := .accepting 0, events := [] } h.unheard h.unslotted
    (Env.accepting_perfect 0 7)
  refine ⟨_, .of_step (e := .serverReceives handler clientAddr [] (.accepting 0) [])
    ⟨Env.accepting_noError 0 7, hsingle, fun _ => h.sent⟩ rfl, ?_⟩
  refine ⟨h.state, h.listeners, ?_, ?_, List.mem_append_right _ (hsends.mem_sentTo List.mem_cons_self)⟩
  · exact (congrArg (Server.findClient · clientAddr) hserver).trans h.unslotted
  · refine ⟨l.server.config.connection.initialSendBatchSize, ?_⟩
    refine (congrArg (fun s : Server => s.listeners.get? clientAddr) hserver).trans ?_
    exact SortedMap.get?_insert_self _ _ _

/-- **The client finds the server compatible.** -/
theorem Answered.compatible {handler : ClientHandler P} {data : Bytes} {version : P.Version}
    (h : l.Answered clientAddr serverAddr data) (hdata : data.length ≤ packetDataSize)
    (hread : VersionPacket.read data = some version)
    (hcompatible : handler.compatibility [] version = .ok ()) :
    ∃ l', l.Reaches clientAddr serverAddr l' ∧ l'.Compatible clientAddr serverAddr := by
  obtain ⟨last, hlisteners⟩ := h.listeners
  have hlen : (PacketKind.version.toByte :: data).length ≤ packetBufferSize := by
    rw [List.length_cons]
    simp only [packetDataSize, packetKindSize, packetBufferSize] at hdata ⊢
    omega
  refine ⟨_, .clientReceives h.sent hlen (ClientUpdate.handleDatagram_version
    { client := l.client, env := .accepting 0, events := [] } hlisteners hread hcompatible), ?_⟩
  refine ⟨h.state, ⟨l.client.config.connection.initialSendBatchSize, 0, ?_⟩, h.unslotted, h.heard⟩
  exact congrArg (List.set · 0 _) hlisteners

/-- **The client sends a `Connect`.** -/
theorem Compatible.requested {connect : P.Connect} (h : l.Compatible clientAddr serverAddr)
    (hone : chunkCount
      (Rkyv.serializeClient (.connect connect : ClientConnectionPacket P)).flatten = 1) :
    ∃ l', l.Reaches clientAddr serverAddr l' ∧ l'.Requested clientAddr serverAddr
      (Rkyv.serializeClient (.connect connect : ClientConnectionPacket P)).flatten := by
  obtain ⟨batchSize, time, hlisteners⟩ := h.listeners
  obtain ⟨buffers, env', issued, hconnect, hsound, hreceive, hsends⟩ :=
    Client.connect_only (Sound.new [] batchSize) h.state hlisteners hone (Env.accepting_perfect 0 7)
  have hstep : step clientAddr serverAddr l (.connect connect (.accepting 0)) =
      some (l.withClient { l.client with
        state := .connecting
        listeners := [⟨serverAddr, .compatible buffers time⟩] }
        (sentTo serverAddr (.accepting 0) env')) := by
    simp only [step, hconnect]
    rfl
  refine ⟨_, .of_step (e := .connect connect (.accepting 0)) ⟨Env.accepting_noError 0 7, hone⟩ hstep,
    ?_⟩
  exact ⟨⟨rfl, buffers, time, issued, hsound, hreceive, rfl⟩, h.unslotted, h.heard,
    ⟨_, List.mem_append_right _ (hsends.mem_sentTo List.mem_cons_self)⟩⟩

/-- **The server accepts the client.** -/
theorem Requested.granted [LawfulRkyv P] {handler : ServerHandler P} {connect : P.Connect}
    {accept : P.Accept} (h : l.Requested clientAddr serverAddr
      (Rkyv.serializeClient (.connect connect : ClientConnectionPacket P)).flatten)
    (hone : chunkCount
      (Rkyv.serializeClient (.connect connect : ClientConnectionPacket P)).flatten = 1)
    (hsingle : handler.SinglePart clientAddr)
    (haccept : handler.connect [.rawPacket (.part clientAddr .reassembled)] clientAddr connect =
      .accept accept) :
    ∃ l', l.Reaches clientAddr serverAddr l' ∧ l'.Granted clientAddr serverAddr
      (Rkyv.serializeServer (.accept accept : ServerConnectionPacket P)).flatten := by
  obtain ⟨id, hsent⟩ := h.sent
  obtain ⟨batchSize, hheard⟩ := h.heard
  obtain ⟨u, id', acks, hhandle, hslotted, hsends⟩ := ServerUpdate.handleDatagram_connect
    { server := l.server, env := .accepting 0, events := [] } id (Env.accepting_perfect 0 7)
    h.unslotted hheard haccept (hsingle.accept _ _ _ haccept)
  refine ⟨_, .serverReceives hsingle hsent (length_onlyPart_le hone) hhandle, ?_⟩
  exact ⟨h.expectant, hslotted,
    ⟨id', List.mem_append_right _ (hsends.mem_sentTo (List.mem_append_right _ List.mem_cons_self))⟩⟩

/-- **The client is connected.** -/
theorem Granted.connected [LawfulRkyv P] {accept : P.Accept}
    (h : l.Granted clientAddr serverAddr
      (Rkyv.serializeServer (.accept accept : ServerConnectionPacket P)).flatten)
    (hone : chunkCount
      (Rkyv.serializeServer (.accept accept : ServerConnectionPacket P)).flatten = 1) :
    ∃ l', l.Reaches clientAddr serverAddr l' ∧ l'.client.state = .connected ∧
      (l'.server.findClient clientAddr).isSome = true := by
  obtain ⟨id, hsent⟩ := h.sent
  obtain ⟨hstate, buffers, time, issued, hsound, hreceive, hlisteners⟩ := h.expectant
  obtain ⟨u, hhandle, hconnected⟩ := ClientUpdate.handleDatagram_accept
    (.default P) { client := l.client, env := .accepting 0, events := [] } id accept
    (Env.accepting_noError 0 7) hsound hreceive hstate hlisteners
  exact ⟨_, .clientReceives hsent (length_onlyPart_le hone) hhandle, hconnected, h.slotted⟩

/-- **Connecting works.**  From whatever a client that is disconnected and a server that has no slot
for it were left in, they get connected, if the versions are compatible, the server accepts and the
packets have a single part. -/
theorem can_connect [LawfulRkyv P] (l : Link P) (clientHandler : ClientHandler P)
    (serverHandler : ServerHandler P) (connect : P.Connect) (accept : P.Accept)
    (version : P.Version) (hstate : l.client.state = .disconnected)
    (hslot : l.server.findClient clientAddr = none)
    (hsingle : serverHandler.SinglePart clientAddr)
    (hversion : VersionPacket.read (VersionPacket.write (serverHandler.version [])).val =
      some version)
    (hcompatible : clientHandler.compatibility [] version = .ok ())
    (hone : chunkCount
      (Rkyv.serializeClient (.connect connect : ClientConnectionPacket P)).flatten = 1)
    (haccept : serverHandler.connect [.rawPacket (.part clientAddr .reassembled)] clientAddr
      connect = .accept accept) :
    ∃ l', l.Reaches clientAddr serverAddr l' ∧ l'.client.state = .connected ∧
      (l'.server.findClient clientAddr).isSome = true := by
  obtain ⟨asked, hasked, h⟩ := exists_asked serverAddr hstate hslot
  obtain ⟨answered, hanswered, h⟩ := h.answered hsingle
  obtain ⟨compatible, hcompatible, h⟩ := h.compatible (VersionPacket.write _).property hversion
    hcompatible
  obtain ⟨requested, hrequested, h⟩ := h.requested hone
  obtain ⟨granted, hgranted, h⟩ := h.granted hone hsingle haccept
  obtain ⟨connected, hconnected, h⟩ := h.connected (hsingle.accept _ _ _ haccept)
  exact ⟨connected, ((((hasked.trans hanswered).trans hcompatible).trans hrequested).trans
    hgranted).trans hconnected, h⟩

/-- A client and a server without any packets get connected from the beginning. -/
theorem can_connect_default : ∃ l' : Link DefaultPackets,
    (init .default .default : Link DefaultPackets).Reaches 5 7 l' ∧
      l'.client.state = .connected ∧ (l'.server.findClient 5).isSome = true :=
  can_connect (init .default .default) (.default DefaultPackets) .default () () () rfl rfl
    (singlePart_default 5) rfl rfl (by decide) rfl

end Link

end Ultinet
