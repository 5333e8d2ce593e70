import Ultinet.Net.Exchange
import Ultinet.Net.Link

/-!
# A client that hears an honest server

What a client does that listens to one server at most, when the server is honest, packets have a
single part and the socket reports no errors: every call and every part of an update is a move of the
client, which leaves sound buffers behind and sends honest datagrams only (`Client.Does`).
-/

namespace Ultinet

variable {P : Packets}

/-! ## Receiving honest datagrams -/

/-- The only part of a packet fits into the buffer of a socket. -/
theorem length_onlyPart_le {packet : Issued} (hone : chunkCount packet.2 = 1) :
    (onlyPart packet).length ≤ packetBufferSize := by
  have hpayload := length_chunkPayload_le packet.2 0
  rw [chunkPayload_zero hone] at hpayload
  rw [Honest.length_onlyPart]
  exact Nat.add_le_add_left hpayload headerLen

/-- Reading a datagram cuts off its end. -/
theorem recv_cons (kind : UInt8) (data : Bytes) :
    recv (kind :: data) = kind :: data.take packetDataSize :=
  List.take_succ_cons

/-- Honest datagrams are received as they were sent. -/
theorem Honest.recv {issued : List Issued} {buf : Bytes} (h : Honest issued buf)
    (hone : ∀ packet ∈ issued, chunkCount packet.2 = 1) : Honest issued (recv buf) := by
  cases h with
  | part packet hpacket =>
    rw [recv_of_length_le (length_onlyPart_le (hone packet hpacket))]
    exact .part packet hpacket
  | ack id =>
    rw [recv_of_length_le (by simp [ackDatagram_eq, packetBufferSize, id.length_bytes])]
    exact .ack id
  | done id =>
    rw [recv_of_length_le (by simp [doneDatagram_eq, packetBufferSize, id.length_bytes])]
    exact .done id
  | ping data =>
    rw [recv_cons]
    exact .ping _
  | versionRequest => exact .versionRequest
  | version data =>
    rw [recv_cons]
    exact .version _

/-! ## Clients that listen to one server -/

/-- The listener of the server, with sound buffers. -/
structure ServerListener.SoundFor (serverAddr : SocketAddr) (issued : List Issued)
    (l : ServerListener P) : Prop where
  addr : l.serverAddr = serverAddr
  sound : ∀ buffers lastInteraction, l.state = .compatible buffers lastInteraction →
    Sound issued buffers

namespace Client

/-- The client listens to the server at most, with sound buffers. -/
def ListensTo (c : Client P) (serverAddr : SocketAddr) (issued : List Issued) : Prop :=
  ∃ l : Option (ServerListener P), c.listeners = l.toList ∧
    ∀ listener ∈ l, listener.SoundFor serverAddr issued

/-- The buffers for a server, if it is compatible. -/
def buffersOf (c : Client P) (serverAddr : SocketAddr) : Option PacketBuffers :=
  (c.position serverAddr).bind fun found =>
    match found.2.state with
    | .compatible buffers _ => some buffers
    | .pendingVersion _ | .incompatible _ => none

/-- The client makes a move in a call. -/
def Does [Rkyv P] (serverAddr : SocketAddr) (before : List Issued) (c : Client P) (env : Env)
    (received : Option Issued) (c' : Client P) (env' : Env) : Prop :=
  ∃ issued, ClientMove P c.state received c'.state issued ∧
    (∀ packet ∈ issued, chunkCount packet.2 = 1) ∧
    c'.ListensTo serverAddr (before ++ issued) ∧
    env.Tells serverAddr (Honest (before ++ issued)) env'

variable {c c' : Client P} {serverAddr : SocketAddr} {before : List Issued} {env env' : Env}

/-- The position of the only listener. -/
theorem position_singleton {l : ServerListener P} (hc : c.listeners = [l])
    (hl : l.serverAddr = serverAddr) : c.position serverAddr = some (0, l) := by
  unfold position
  rw [hc]
  exact Vec.position_cons_of_pos (by simpa using hl)

/-- Without listeners there is no position. -/
theorem position_nil (hc : c.listeners = []) : c.position serverAddr = none := by
  unfold position
  rw [hc]
  rfl

/-- The listener of the server is there afterwards. -/
theorem getOrAddListener_spec (hc : c.ListensTo serverAddr before) (hno : env.NoError) :
    ∃ l env', c.getOrAddListener serverAddr env =
        (.ok (0, l), { c with listeners := [l] }, env') ∧
      l.SoundFor serverAddr before ∧ env.Tells serverAddr (Honest before) env' := by
  obtain ⟨_ | l, hlisteners, hsound⟩ := hc
  · have htells : env.Tells serverAddr (Honest before) (env.send serverAddr []).2 :=
      .send env [] fun _ => .versionRequest
    unfold getOrAddListener
    rw [position_nil hlisteners]
    simp only [ServerListener.new, ServerListener.pendingVersionQuery, sendVersionQuery]
    rcases env.send_cases serverAddr [] with ⟨hsend, -⟩ | ⟨hsend, -⟩ | ⟨error, hsend, hfail⟩
    · rw [hsend] at htells ⊢
      exact ⟨_, _, by rw [hlisteners]; rfl, ⟨rfl, by simp⟩, htells⟩
    · rw [hsend] at htells ⊢
      exact ⟨_, _, by rw [hlisteners]; rfl, ⟨rfl, by simp⟩, htells⟩
    · exact absurd hfail (hno _ _ error)
  · have hl := hsound l rfl
    refine ⟨l, env, ?_, hl, .refl env⟩
    unfold getOrAddListener
    rw [position_singleton hlisteners hl.addr]
    have hself : { c with listeners := [l] } = c := by
      cases c
      simp_all
    rw [hself]

/-- Nothing but the listeners may change in a call that issues nothing. -/
theorem Does.of_state [Rkyv P] (hstate : c'.state = c.state) (hc : c'.ListensTo serverAddr before)
    (htells : env.Tells serverAddr (Honest before) env') : c.Does serverAddr before env none c' env' := by
  refine ⟨[], ?_, by simp, by simpa using hc, by simpa using htells⟩
  rw [hstate]
  exact .issue _ _ (by simp)

/-- The listener stays sound when more packets are issued. -/
theorem ListensTo.mono {before' : List Issued} (hc : c.ListensTo serverAddr before)
    (hsub : before ⊆ before') : c.ListensTo serverAddr before' := by
  obtain ⟨l, hlisteners, hsound⟩ := hc
  refine ⟨l, hlisteners, fun listener hl => ⟨(hsound listener hl).addr, ?_⟩⟩
  intro buffers lastInteraction hstate
  exact ((hsound listener hl).sound buffers lastInteraction hstate).mono hsub

/-! ### The operations -/

/-- Listening issues no packet. -/
theorem listen_does [Rkyv P] (hc : c.ListensTo serverAddr before) (hno : env.NoError) :
    c.Does serverAddr before env none (c.listen serverAddr env).2.1 (c.listen serverAddr env).2.2 := by
  obtain ⟨l, env', heq, hl, htells⟩ := getOrAddListener_spec hc hno
  unfold listen
  rw [heq]
  exact .of_state rfl ⟨some l, rfl, fun listener hlistener => by cases hlistener; exact hl⟩ htells

/-- Forgetting a server, or another address. -/
theorem forget_listensTo (hc : c.ListensTo serverAddr before) (addr : SocketAddr) :
    (c.forget addr).2.ListensTo serverAddr before := by
  unfold forget
  cases hposition : c.position addr with
  | none => exact hc
  | some found =>
    obtain ⟨index, listener⟩ := found
    dsimp only
    split_ifs with hfirst
    · exact hc
    · obtain ⟨_ | l, hlisteners, hsound⟩ := hc
      · rw [position_nil hlisteners] at hposition
        cases hposition
      · obtain ⟨hget, -⟩ := position_eq_some hposition
        rw [hlisteners] at hget
        have hzero : index = 0 := by
          have hlt := (List.getElem?_eq_some_iff.mp hget).1
          simpa using hlt
        refine ⟨none, ?_, by simp⟩
        rw [hlisteners, hzero]
        rfl

/-- Forgetting all servers. -/
theorem forgetAll_listensTo (hc : c.ListensTo serverAddr before) (h : c.forgetAll = .ok c') :
    c'.ListensTo serverAddr before := by
  unfold forgetAll at h
  split_ifs at h with hstate
  · cases h
    exact ⟨none, rfl, by simp⟩
  · obtain ⟨_ | l, hlisteners, hsound⟩ := hc
    · rw [hlisteners] at h
      cases h
    · rw [hlisteners] at h
      cases h
      exact ⟨some l, rfl, hsound⟩

/-- **Sending a packet** to the server, which is compatible. -/
theorem send_spec {l : ServerListener P} {buffers buffers' : PacketBuffers} {lastInteraction : ℕ}
    {value : List Bytes} {threshold : ℕ} {result : IoResult PacketId}
    (hl : l.SoundFor serverAddr before) (hstate : l.state = .compatible buffers lastInteraction)
    (hone : chunkCount value.flatten = 1) (hno : env.NoError)
    (h : buffers.send value threshold serverAddr env = .ok (result, buffers', env')) :
    ∃ id, result = .ok id ∧
      ServerListener.SoundFor serverAddr (before ++ [(id, value.flatten)])
        (P := P) { l with state := .compatible buffers' lastInteraction } ∧
      env.Tells serverAddr (Honest (before ++ [(id, value.flatten)])) env' := by
  obtain ⟨id, bufs, hok, hsends, hbufs, hsound⟩ :=
    (hl.sound buffers lastInteraction hstate).send_spec hone hno h
  refine ⟨id, hok, ⟨hl.addr, ?_⟩, .of_sends hsends fun buf hbuf => ?_⟩
  · intro b t heq
    cases heq
    exact hsound
  · rw [hbufs buf hbuf]
    exact .part _ (by simp)

section Sending

variable [Rkyv P]

/-- A query issues its packet, if it is sent at all. -/
theorem query_does {query : P.Query} {result : Except QueryError PacketId} [LawfulRkyv P]
    (hc : c.ListensTo serverAddr before) (hno : env.NoError)
    (hone : chunkCount (Rkyv.serializeClient (.query query : ClientConnectionPacket P)).flatten = 1)
    (h : c.query serverAddr query env = .ok (result, c', env')) :
    c.Does serverAddr before env none c' env' := by
  obtain ⟨l, env'', heq, hl, htells⟩ := getOrAddListener_spec hc hno
  unfold Client.query at h
  rw [heq] at h
  dsimp only at h
  have hkept : Client.ListensTo { c with listeners := [l] } serverAddr before :=
    ⟨some l, rfl, fun listener hlistener => by cases hlistener; exact hl⟩
  cases hstate : l.state with
  | pendingVersion _ =>
    rw [hstate] at h
    cases h
    exact .of_state rfl hkept htells
  | incompatible _ =>
    rw [hstate] at h
    cases h
    exact .of_state rfl hkept htells
  | compatible buffers lastInteraction =>
    rw [hstate] at h
    dsimp only at h
    cases hsend : buffers.send (Rkyv.serializeClient (.query query))
        c.config.connection.backgroundSerializationThreshold serverAddr env'' with
    | error abort => simp [hsend, bind, Except.bind] at h
    | ok sent =>
      obtain ⟨sent, buffers', env'''⟩ := sent
      obtain ⟨id, rfl, hl', htells'⟩ := send_spec hl hstate hone (htells.noError hno) hsend
      simp only [hsend, bind, Except.bind, pure, Except.pure] at h
      cases h
      refine ⟨[(id, (Rkyv.serializeClient (.query query : ClientConnectionPacket P)).flatten)],
        .issue _ _ ?_, by simpa using hone, ?_, ?_⟩
      · simp [connects, disconnects, readsClient, LawfulRkyv.checkClient_serialize,
          ClientConnectionPacket.isConnect, ClientConnectionPacket.isDisconnect]
      · exact ⟨some _, rfl, fun listener hlistener => by cases hlistener; exact hl'⟩
      · exact (htells.mono fun buf hbuf => hbuf.mono (List.subset_append_left _ _)).trans htells'

/-- Connecting issues the connect packet, if it is sent at all. -/
theorem connect_does {connect : P.Connect} {result : Except ConnectError PacketId} [LawfulRkyv P]
    (hc : c.ListensTo serverAddr before) (hno : env.NoError)
    (hone :
      chunkCount (Rkyv.serializeClient (.connect connect : ClientConnectionPacket P)).flatten = 1)
    (h : c.connect (.ok serverAddr) connect env = .ok (result, c', env')) :
    c.Does serverAddr before env none c' env' := by
  unfold Client.connect at h
  split_ifs at h with hdisconnected
  · obtain ⟨l, env'', heq, hl, htells⟩ := getOrAddListener_spec hc hno
    dsimp only at h
    rw [heq] at h
    dsimp only at h
    have hkept : Client.ListensTo { c with listeners := [l] } serverAddr before :=
      ⟨some l, rfl, fun listener hlistener => by cases hlistener; exact hl⟩
    cases hstate : l.state with
    | pendingVersion _ =>
      rw [hstate] at h
      cases h
      exact .of_state rfl hkept htells
    | incompatible _ =>
      rw [hstate] at h
      cases h
      exact .of_state rfl hkept htells
    | compatible buffers lastInteraction =>
      rw [hstate] at h
      dsimp only at h
      cases hsend : buffers.send (Rkyv.serializeClient (.connect connect))
          c.config.connection.backgroundSerializationThreshold serverAddr env'' with
      | error abort => simp [hsend, bind, Except.bind] at h
      | ok sent =>
        obtain ⟨sent, buffers', env'''⟩ := sent
        obtain ⟨id, rfl, hl', htells'⟩ := send_spec hl hstate hone (htells.noError hno) hsend
        simp only [hsend, bind, Except.bind, pure, Except.pure] at h
        cases h
        refine ⟨[(id, (Rkyv.serializeClient (.connect connect : ClientConnectionPacket P)).flatten)],
          ?_, by simpa using hone, ?_, ?_⟩
        · rw [hdisconnected]
          refine .connect _ ?_
          simp [connects, readsClient, LawfulRkyv.checkClient_serialize,
            ClientConnectionPacket.isConnect]
        · exact ⟨some _, rfl, fun listener hlistener => by cases hlistener; exact hl'⟩
        · exact (htells.mono fun buf hbuf => hbuf.mono (List.subset_append_left _ _)).trans htells'
  · cases h
    exact .of_state rfl hc (.refl env)

/-- Sending to the connected server is a move if issuing the packet is one. -/
theorem sendConnected_does {packet : ClientConnectionPacket P} {state : ClientState}
    {result : Except SendError PacketId} (hc : c.ListensTo serverAddr before) (hno : env.NoError)
    (hone : chunkCount (Rkyv.serializeClient packet).flatten = 1)
    (hmove : ∀ id, ClientMove P .connected none state [(id, (Rkyv.serializeClient packet).flatten)])
    (h : c.sendConnected packet state env = .ok (result, c', env')) :
    c.Does serverAddr before env none c' env' := by
  unfold sendConnected at h
  split_ifs at h with hconnected
  · obtain ⟨_ | l, hlisteners, hsound⟩ := hc
    · rw [hlisteners] at h
      cases h
    · have hl := hsound l rfl
      rw [hlisteners] at h
      dsimp only [Option.toList] at h
      cases hstate : l.state with
      | pendingVersion _ =>
        rw [hstate] at h
        cases h
      | incompatible _ =>
        rw [hstate] at h
        cases h
      | compatible buffers lastInteraction =>
        rw [hstate, hl.addr] at h
        dsimp only at h
        cases hsend : buffers.send (Rkyv.serializeClient packet)
            c.config.connection.backgroundSerializationThreshold serverAddr env with
        | error abort => simp [hsend, bind, Except.bind] at h
        | ok sent =>
          obtain ⟨sent, buffers', env''⟩ := sent
          obtain ⟨id, rfl, hl', htells⟩ := send_spec hl hstate hone hno hsend
          simp only [hsend, bind, Except.bind, pure, Except.pure] at h
          cases h
          refine ⟨[(id, (Rkyv.serializeClient packet).flatten)], ?_, by simpa using hone, ?_, htells⟩
          · rw [hconnected]
            exact hmove id
          · refine ⟨some _, ?_, fun listener hlistener => by cases hlistener; exact hl'⟩
            simp only [setListener_listeners, hlisteners, hl.addr]
            rfl
  · cases h
    exact .of_state rfl hc (.refl env)

end Sending

end Client

/-! ## An update -/

/-- Updating the listener of the server keeps it. -/
theorem ServerListener.update_spec {l : ServerListener P} {serverAddr : SocketAddr}
    {before : List Issued} {env : Env} (hl : l.SoundFor serverAddr before)
    (hone : ∀ packet ∈ before, chunkCount packet.2 = 1) (hno : env.NoError)
    (state : Option ClientState) (config : ClientConfig) :
    ∃ l' env', l.update state config env = (some l', state, none, env') ∧
      l'.SoundFor serverAddr before ∧ env.Tells serverAddr (Honest before) env' := by
  unfold ServerListener.update
  cases hstate : l.state with
  | incompatible error => exact ⟨l, env, rfl, hl, .refl env⟩
  | pendingVersion lastVersionQuery =>
    dsimp only
    split_ifs with hdue
    · have htells : env.Tells serverAddr (Honest before) (env.send l.serverAddr []).2 :=
        .send env [] fun _ => .versionRequest
      rcases env.send_cases l.serverAddr [] with ⟨hsend, -⟩ | ⟨hsend, -⟩ | ⟨error, -, hfail⟩
      · rw [hsend] at htells
        refine ⟨{ l with state := .pendingVersion (some env.now) }, _, ?_, ⟨hl.addr, by simp⟩, htells⟩
        simp only [sendVersionQuery, hsend]
        rfl
      · rw [hsend] at htells
        refine ⟨{ l with state := .pendingVersion lastVersionQuery }, _, ?_, ⟨hl.addr, by simp⟩, htells⟩
        simp only [sendVersionQuery, hsend]
        rfl
      · exact absurd hfail (hno _ _ error)
    · exact ⟨l, env, rfl, hl, .refl env⟩
  | compatible buffers lastInteraction =>
    rcases hupdate : buffers.update config.connection.resendDelay config.connection.maxMissedAcks
      config.connection.receiveTimeout l.serverAddr env with ⟨result, buffers', env'⟩
    obtain ⟨bufs, rfl, hsends, hhonest, hsound⟩ :=
      (hl.sound buffers lastInteraction hstate).update_spec hone hno hupdate
    rw [hl.addr] at hsends
    dsimp only
    refine ⟨{ l with state := .compatible buffers' lastInteraction }, env', by rw [hupdate],
      ⟨hl.addr, ?_⟩, .of_sends hsends hhonest⟩
    intro b t heq
    cases heq
    exact hsound

namespace ClientUpdate

variable {u u' : ClientUpdate P} {serverAddr : SocketAddr} {before : List Issued}

/-- The pass over the listeners issues no packet. -/
theorem updateListeners_does [Rkyv P] (hc : u.client.ListensTo serverAddr before)
    (hone : ∀ packet ∈ before, chunkCount packet.2 = 1) (hno : u.env.NoError) :
    u.client.Does serverAddr before u.env none u.updateListeners.client u.updateListeners.env := by
  obtain ⟨_ | l, hlisteners, hsound⟩ := hc
  · have hsame : u.updateListeners = u := by
      unfold updateListeners
      rw [hlisteners]
      obtain ⟨⟨config, state, listeners⟩, env, events⟩ := u
      simp_all
    rw [hsame]
    exact .of_state rfl ⟨none, hlisteners, by simp⟩ (.refl _)
  · obtain ⟨l', env', hupdate, hl', htells⟩ :=
      ServerListener.update_spec (hsound l rfl) hone hno
      (if u.client.state ≠ .disconnected then some u.client.state else none) u.client.config
    have hvisit : u.updateListeners = { client := { u.client with listeners := [l'] }
                                        env := env'
                                        events := u.events } := by
      unfold updateListeners
      rw [hlisteners]
      simp only [Option.toList, Vec.retainMut_cons, Vec.retainMut_nil, visitListener, decide_eq_true_eq,
        hupdate]
      cases u.client.state <;> simp
    rw [hvisit]
    exact .of_state rfl ⟨some l', rfl, fun listener hlistener => by cases hlistener; exact hl'⟩ htells

/-- Without timeouts, looking for timeouts changes nothing. -/
theorem timeoutConnection_does [Rkyv P] (hc : u.client.ListensTo serverAddr before)
    (hbusy : ∀ l ∈ u.client.listeners, idle u.client.config.timeout u.env.now l = false) :
    u.client.Does serverAddr before u.env none u.timeoutConnection.client u.env := by
  obtain ⟨hlisteners, hstate⟩ := u.timeoutConnection_eq
  have hkept : u.timeoutConnection.client.listeners = u.client.listeners := by
    rw [hlisteners, List.filter_eq_self]
    intro l hl
    simp [hbusy l hl]
  have hnone : u.client.listeners.any (idle u.client.config.timeout u.env.now) = false := by
    rw [List.any_eq_false]
    intro l hl
    simp [hbusy l hl]
  refine .of_state ?_ ?_ (.refl _)
  · rw [hstate, hnone]
    rfl
  · obtain ⟨l, hl, hsound⟩ := hc
    exact ⟨l, hkept.trans hl, hsound⟩

/-! ### A datagram of the server -/

section Receive

variable [Rkyv P] {peer : List Issued} {buf : Bytes}

/-- Handling a datagram is a move of the client.  A packet is reassembled only from its only part, and
only if its id is not known. -/
def Hears (serverAddr : SocketAddr) (before peer : List Issued) (buf : Bytes)
    (u u' : ClientUpdate P) : Prop :=
  ∃ received, u.client.Does serverAddr before u.env received u'.client u'.env ∧
    (u'.events.drop u.events.length).any (ClientEvent.reassembles serverAddr) = received.isSome ∧
    ∀ packet ∈ received, packet ∈ peer ∧ buf = onlyPart packet ∧
      ∃ buffers, u.client.buffersOf serverAddr = some buffers ∧
        buffers.receiveBuffer.packets.get? packet.1 = none

/-- Nothing is reassembled. -/
theorem Hears.quiet {event : ClientEvent P} (hevents : u'.events = u.events ++ [event])
    (hevent : event.reassembles serverAddr = false) (hstate : u'.client.state = u.client.state)
    (hc : u'.client.ListensTo serverAddr before)
    (htells : u.env.Tells serverAddr (Honest before) u'.env) :
    Hears serverAddr before peer buf u u' :=
  ⟨none, .of_state hstate hc htells, by simp [hevents, hevent], by simp⟩

/-- A version response of the server. -/
theorem handleVersion_hears {handler : ClientHandler P} {l : ServerListener P}
    (hlisteners : u.client.listeners = [l]) (hl : l.SoundFor serverAddr before) :
    Hears serverAddr before peer buf u (u.handleVersion handler 0 l buf) := by
  have hc : u.client.ListensTo serverAddr before :=
    ⟨some l, hlisteners, fun listener hlistener => by cases hlistener; exact hl⟩
  have hset : ∀ state : ServerState P,
      (∀ buffers lastInteraction, state = .compatible buffers lastInteraction →
        Sound before buffers) →
      (u.client.setListener 0 { l with state }).ListensTo serverAddr before := by
    intro state hstate
    refine ⟨some { l with state }, by simp [hlisteners], fun listener hlistener => ?_⟩
    cases hlistener
    exact ⟨hl.addr, hstate⟩
  unfold handleVersion
  cases buf with
  | nil => exact .quiet rfl rfl rfl hc (.refl _)
  | cons kind data =>
    dsimp only
    split_ifs with hkind
    · split
      · exact .quiet rfl rfl rfl hc (.refl _)
      · split
        · refine .quiet rfl rfl rfl (hset _ fun buffers lastInteraction heq => ?_) (.refl _)
          cases heq
          exact .new _ _
        · refine .quiet rfl rfl rfl (hset _ fun buffers lastInteraction heq => ?_) (.refl _)
          cases heq
    · exact .quiet rfl rfl rfl hc (.refl _)

omit [Rkyv P] in
/-- A packet that is only meant for a state of the connection. -/
theorem handleInState_eq (u : ClientUpdate P) (serverAddr : SocketAddr) (state : ClientState)
    (hstate : state ≠ .disconnected) (event : ClientEvent P) (next : ClientState) :
    ∃ event', u.handleInState serverAddr (decide (u.client.state ≠ .disconnected)) state event next =
      { client := { u.client with
          state := if u.client.state = state then next else u.client.state }
        env := u.env
        events := u.events ++ [event'] } := by
  unfold handleInState
  by_cases heq : u.client.state = state
  · rw [if_pos ⟨by simpa [heq] using hstate, heq⟩, if_pos heq]
    exact ⟨event, rfl⟩
  · rw [if_neg fun h => heq h.2, if_neg heq]
    exact ⟨_, rfl⟩

/-- What becomes of a packet that was reassembled. -/
theorem handleResult_reassembled {bytes : Bytes}
    (h : u.handleResult serverAddr (decide (u.client.state ≠ .disconnected))
      (.ok (.received (.reassembled bytes))) = .ok u') :
    ∃ event, u' =
      { client := { u.client with state := u.client.state.after (Rkyv.checkServer bytes :
          Exec (Except ValidationError (ServerConnectionPacket P))) }
        env := u.env
        events := u.events ++ [.rawPacket (.part serverAddr .reassembled), event] } := by
  set v := u.tell (.rawPacket (.part serverAddr .reassembled)) with hv
  have hevents : ∀ event, u.events ++ [.rawPacket (.part serverAddr .reassembled), event] =
      v.events ++ [event] := by
    intro event
    rw [hv, tell, List.append_assoc]
    rfl
  simp only [hevents]
  obtain ⟨checked, hcheck, h⟩ := exists_of_bind_ok h
  rw [hcheck]
  cases checked with
  | error error =>
    cases h
    exact ⟨_, rfl⟩
  | ok packet =>
    cases h
    cases packet with
    | status status => exact ⟨_, rfl⟩
    | accept accept => exact v.handleInState_eq serverAddr .connecting (by decide) (.accept accept) .connected
    | reject reject =>
      exact v.handleInState_eq serverAddr .connecting (by decide) (.reject reject) .disconnected
    | kick kick => exact v.handleInState_eq serverAddr .connected (by decide) (.kick kick) .disconnected
    | user packet =>
      obtain ⟨event, heq⟩ := v.handleInState_eq serverAddr .connected (by decide) (.packet packet) .connected
      refine ⟨event, heq.trans ?_⟩
      have hsame : (if v.client.state = .connected then .connected else v.client.state) =
          v.client.state := by
        split_ifs with hstate
        · exact hstate.symm
        · rfl
      rw [hsame]
      rfl

/-- What becomes of anything else. -/
theorem handleResult_quiet {isConnectionListener : Bool}
    {result : Except HandlePacketError PacketHandling}
    (hresult : ∀ bytes, result ≠ .ok (.received (.reassembled bytes)))
    (h : u.handleResult serverAddr isConnectionListener result = .ok u') :
    ∃ event, u' = u.tell event ∧ event.reassembles serverAddr = false := by
  unfold handleResult at h
  split at h
  case h_4 bytes => exact absurd rfl (hresult bytes)
  all_goals
    cases h
    exact ⟨_, rfl, rfl⟩

/-- **A datagram of the server.** -/
theorem handleDatagram_hears {handler : ClientHandler P} (hc : u.client.ListensTo serverAddr before)
    (hno : u.env.NoError) (hbuf : Honest peer buf)
    (h : u.handleDatagram handler serverAddr buf = .ok u') : Hears serverAddr before peer buf u u' := by
  obtain ⟨_ | l, hlisteners, hsound⟩ := id hc
  · unfold handleDatagram at h
    rw [Client.position_nil hlisteners] at h
    cases h
    exact .quiet rfl rfl rfl hc (.refl _)
  have hl := hsound l rfl
  obtain rfl := hl.addr
  have hposition := Client.position_singleton hlisteners rfl
  unfold handleDatagram at h
  rw [hposition] at h
  dsimp only at h
  cases hstate : l.state with
  | pendingVersion _ =>
    rw [hstate] at h
    cases h
    exact handleVersion_hears hlisteners hl
  | incompatible _ =>
    rw [hstate] at h
    cases h
    exact .quiet rfl rfl rfl hc (.refl _)
  | compatible buffers lastInteraction =>
    rw [hstate] at h
    dsimp only at h
    have hconnection : decide (0 = 0 ∧ u.client.state ≠ .disconnected) =
        decide (u.client.state ≠ .disconnected) := by
      simp
    -- whatever the state of the connection, the listener has sound buffers
    have hset : ∀ (state : ClientState) (buffers' : PacketBuffers) (time : ℕ),
        Sound before buffers' →
        Client.ListensTo { u.client with
          state
          listeners := u.client.listeners.set 0 { l with state := .compatible buffers' time } }
          l.serverAddr before := by
      intro state buffers' time hsound'
      refine ⟨some { l with state := .compatible buffers' time }, by simp [hlisteners],
        fun listener hlistener => ?_⟩
      cases hlistener
      refine ⟨rfl, fun b t heq => ?_⟩
      cases heq
      exact hsound'
    have hbuffers := hl.sound buffers lastInteraction hstate
    unfold handleCompatible at h
    dsimp only at h
    rw [hconnection] at h
    split_ifs at h with hping
    · -- the ping is sent back
      obtain ⟨kind, hhead, hkind⟩ := Option.bind_eq_some_iff.mp hping.2
      obtain ⟨data, rfl⟩ := List.head?_eq_some_iff.mp hhead
      have htells : u.env.Tells l.serverAddr (Honest before)
          (u.env.send l.serverAddr (kind :: data)).2 :=
        .send _ _ fun _ => by
          rw [← PacketKind.toByte_of_tryFrom hkind]
          exact .ping data
      simp only [pure, Except.pure, Except.ok.injEq, handlePing, tell_env, setListener_env]
        at h
      rcases u.env.send_cases l.serverAddr (kind :: data) with
        ⟨hsend, -⟩ | ⟨hsend, -⟩ | ⟨error, -, hfail⟩
      · rw [hsend] at h htells
        subst h
        exact .quiet rfl rfl rfl (hset _ _ _ hbuffers) htells
      · rw [hsend] at h htells
        subst h
        exact .quiet rfl rfl rfl (hset _ _ _ hbuffers) htells
      · exact absurd hfail (hno _ _ error)
    · simp only [setListener_env] at h
      obtain ⟨result, buffers', env', bufs, hhandle, hsound', hsends, hacks, hcases⟩ :=
        hbuffers.handle_spec hbuf hno l.serverAddr
      have htells : u.env.Tells l.serverAddr (Honest before) env' :=
        .of_sends hsends fun sent hsent => by
          obtain ⟨id, rfl⟩ := hacks sent hsent
          exact .ack id
      rw [hhandle] at h
      dsimp only [bind, Except.bind] at h
      obtain ⟨v, hv⟩ : ∃ v : ClientUpdate P, v =
          { (u.setListener 0 { l with state := .compatible buffers u.env.now }).setListener 0
              { l with state := .compatible buffers' u.env.now } with env := env' } := ⟨_, rfl⟩
      rw [← hv] at h
      have hstate_v : v.client.state = u.client.state := by rw [hv]; rfl
      have hevents_v : v.events = u.events := by rw [hv]; rfl
      have henv_v : v.env = env' := by rw [hv]
      have hc_v : ∀ state, Client.ListensTo { v.client with state } l.serverAddr before := by
        intro state
        rw [hv]
        simpa using hset state buffers' u.env.now hsound'
      rcases hcases with ⟨packet, hpacket, hpart, hget, rfl⟩ | hquiet
      · rw [← hstate_v] at h
        obtain ⟨event, rfl⟩ := handleResult_reassembled h
        rw [hstate_v]
        refine ⟨some packet, ⟨[], .receive _ packet, by simp, ?_, ?_⟩, ?_, ?_⟩
        · simpa using hc_v _
        · simpa [henv_v] using htells
        · simp [hevents_v, ClientEvent.reassembles]
        · rintro packet' ⟨⟩
          refine ⟨hpacket, hpart, buffers, ?_, hget⟩
          simp [Client.buffersOf, hposition, hstate]
      · obtain ⟨event, rfl, hevent⟩ := handleResult_quiet hquiet h
        exact .quiet (by rw [tell, hevents_v]) hevent hstate_v (hc_v v.client.state) (henv_v ▸ htells)

/-- **A datagram of anyone else.** -/
theorem handleDatagram_other {handler : ClientHandler P} {sender : SocketAddr}
    (hc : u.client.ListensTo serverAddr before) (hne : sender ≠ serverAddr)
    (h : u.handleDatagram handler sender buf = .ok u') :
    u.client.Does serverAddr before u.env none u'.client u'.env ∧
      (u'.events.drop u.events.length).any (ClientEvent.reassembles serverAddr) = false := by
  have hnone : u.client.position sender = none := by
    obtain ⟨_ | l, hlisteners, hsound⟩ := hc
    · exact Client.position_nil hlisteners
    · cases hposition : u.client.position sender with
      | none => rfl
      | some found =>
        obtain ⟨hget, haddr⟩ := Client.position_eq_some hposition
        rw [hlisteners] at hget
        have hfound : found.2 = l := by
          simpa using List.mem_of_getElem? hget
        rw [hfound, (hsound l rfl).addr] at haddr
        exact absurd haddr.symm hne
  unfold handleDatagram at h
  rw [hnone] at h
  cases h
  refine ⟨.of_state rfl hc (.refl _), ?_⟩
  rw [tell, List.drop_left]
  rfl

end Receive

end ClientUpdate

end Ultinet
