import Ultinet.Lib.GuardedRun
import Ultinet.Net.Server

/-!
# Runs of a server

The operations of a server as a transition system.  The two passes of an update, the datagrams that
arrive and the calls in between are steps of their own, with the clock and the answers of the socket
and of the handler in the labels, so a run of this system contains every sequence of operations; a
whole call of `update` is such a run (`update_run`).

What a step can do is said once, and every property of runs is derived from that:

* `Handled` lists what handling a datagram of a peer can do: whether the peer is connected, listened
  to or unknown, what the handler is told, and how the address moves;
* `Passed` says the same about the two passes over the slots of the clients.
-/

namespace Ultinet

variable {P : Packets}

/-! ## Finding clients -/

namespace Server

variable {s : Server} {index : ℕ} {client : ClientConnection} {clientAddr : SocketAddr}

/-- A client that was found has its slot, and its address. -/
theorem findClient_eq_some (h : s.findClient clientAddr = some (index, client)) :
    s.clients[index]? = some (some client) ∧ client.clientAddr = clientAddr := by
  unfold findClient at h
  rw [Option.bind_eq_some_iff] at h
  obtain ⟨⟨i, entry⟩, hfound, hentry⟩ := h
  obtain ⟨hget, hany⟩ := Vec.position_eq_some hfound
  cases entry with
  | none => cases hentry
  | some c =>
    cases hentry
    exact ⟨hget, by simpa using hany⟩

/-- A client that is not found has no slot. -/
theorem findClient_eq_none :
    s.findClient clientAddr = none ↔
      ∀ (i : ℕ) (c : ClientConnection), s.clients[i]? = some (some c) →
        c.clientAddr ≠ clientAddr := by
  constructor
  · intro h i c hget haddr
    unfold findClient at h
    cases hposition : Vec.position (fun entry : Option ClientConnection =>
        entry.any fun client => decide (client.clientAddr = clientAddr)) s.clients with
    | none =>
      refine Vec.position_eq_none.mp hposition (some c) (List.mem_of_getElem? hget) ?_
      simpa using haddr
    | some found =>
      obtain ⟨j, entry⟩ := found
      obtain ⟨-, hany⟩ := Vec.position_eq_some hposition
      rw [hposition] at h
      cases entry with
      | none => cases hany
      | some c' => cases h
  · intro h
    by_contra hne
    obtain ⟨⟨i, c⟩, hfound⟩ := Option.ne_none_iff_exists'.mp hne
    obtain ⟨hget, haddr⟩ := findClient_eq_some hfound
    exact h i c hget haddr

/-- The address has a slot if and only if a client with the address is found. -/
theorem isSome_findClient :
    (s.findClient clientAddr).isSome = true ↔
      ∃ (i : ℕ) (c : ClientConnection), s.clients[i]? = some (some c) ∧
        c.clientAddr = clientAddr := by
  rw [← Option.ne_none_iff_isSome, Ne, findClient_eq_none]
  simp only [not_forall, not_not, exists_prop]

/-- Setting a slot. -/
theorem getElem?_setClient (entry : Option ClientConnection) {i : ℕ}
    (hlt : index < s.clients.length) :
    (s.setClient index entry).clients[i]? = if i = index then some entry else s.clients[i]? := by
  unfold setClient
  dsimp only
  rw [List.getElem?_set]
  by_cases h : index = i
  · subst h
    rw [if_pos rfl, if_pos hlt, if_pos rfl]
  · rw [if_neg h, if_neg fun h' => h h'.symm]

/-- **Adding a client** fills one slot that was free or did not exist. -/
theorem addClient_spec (s : Server) (client : ClientConnection) :
    ∃ index, (∀ c, s.clients[index]? ≠ some (some c)) ∧
      (∀ i : ℕ, (s.addClient client).clients[i]? =
        if i = index then some (some client) else s.clients[i]?) ∧
      (s.addClient client).listeners = s.listeners ∧ (s.addClient client).config = s.config := by
  unfold addClient
  split
  · rename_i index entry hposition
    obtain ⟨hget, hnone⟩ := Vec.position_eq_some hposition
    have hlt := (List.getElem?_eq_some_iff.mp hget).1
    refine ⟨index, fun c hc => ?_, fun i => getElem?_setClient _ hlt, rfl, rfl⟩
    rw [hget] at hc
    cases hc
    cases hnone
  · refine ⟨s.clients.length, fun c hc => ?_, fun i => ?_, rfl, rfl⟩
    · rw [List.getElem?_eq_none le_rfl] at hc
      cases hc
    · dsimp only
      rcases lt_trichotomy i s.clients.length with hlt | rfl | hgt
      · rw [List.getElem?_append_left hlt, if_neg hlt.ne]
      · simp
      · rw [List.getElem?_eq_none (by simpa using hgt), if_neg hgt.ne',
          List.getElem?_eq_none hgt.le]

end Server

/-! ## The state of an address and what the handler is told about it -/

/-- What the server knows of an address. -/
inductive AddrStatus
  /-- The server does not listen to the address. -/
  | unknown
  /-- The server listens to the address, which is not connected. -/
  | listener
  /-- The address is connected. -/
  | client
  deriving DecidableEq

/-- What the server knows of an address. -/
def Server.status (s : Server) (addr : SocketAddr) : AddrStatus :=
  if (s.findClient addr).isSome then .client
  else if (s.listeners.get? addr).isSome then .listener
  else .unknown

/-- The address that a report about packets is about. -/
def RawPacket.addr : RawPacket → SocketAddr
  | .part addr _ | .done addr _ | .ack addr _ => addr

/-- The address that an error is about. -/
def HandlerError.addr? : HandlerError → Option SocketAddr
  | .recv _ => none
  | .send addr _ | .packetValidation addr _ | .handle addr _ | .timeout addr => some addr

namespace ServerEvent

/-- The address that an event is about. -/
def addr? : ServerEvent P → Option SocketAddr
  | .rawPacket raw => some raw.addr
  | .error failure => failure.addr?
  | .version => none
  | .query addr _ | .connect addr _ | .disconnect addr _ | .ping addr | .pong addr _
  | .packet addr _ | .unexpected addr _ => some addr

/-- What the handler may be told about an address of which the server knows this much. -/
def AllowedIn : AddrStatus → ServerEvent P → Prop
  | .unknown, .error (.send _ _) | .unknown, .unexpected _ .unknownCompatibility => True
  | .listener, .rawPacket _ | .listener, .error (.send _ _) | .listener, .error (.handle _ _)
  | .listener, .error (.packetValidation _ _) | .listener, .query _ _ | .listener, .connect _ _
  | .listener, .unexpected _ .notConnected => True
  | .client, .rawPacket _ | .client, .error (.send _ _) | .client, .error (.handle _ _)
  | .client, .error (.packetValidation _ _) | .client, .error (.timeout _)
  | .client, .query _ _ | .client, .disconnect _ _ | .client, .ping _ | .client, .pong _ _
  | .client, .packet _ _ | .client, .unexpected _ .alreadyConnected => True
  | _, _ => False

/-- An event is about an address, and it is allowed there. -/
def AboutIn (addr : SocketAddr) (status : AddrStatus) (event : ServerEvent P) : Prop :=
  event.addr? = some addr ∧ event.AllowedIn status

end ServerEvent

/-! ## What can happen to the buffers of a peer -/

/-- The buffers of a peer handle a datagram, send a packet or are updated. -/
inductive PacketBuffers.Step (addr : SocketAddr) (b b' : PacketBuffers) : Prop
  | handle {buf : Bytes} {env env' : Env} {result : Except HandlePacketError PacketHandling}
      (h : b.handle buf addr env = .ok (result, b', env'))
  | send {packet : List Bytes} {threshold : ℕ} {env env' : Env} {result : IoResult PacketId}
      (h : b.send packet threshold addr env = .ok (result, b', env'))
  | update {resendDelay : ℕ} {maxMissedAcks receiveTimeout : Option ℕ} {env env' : Env}
      {result : IoResult Unit}
      (h : b.update resendDelay maxMissedAcks receiveTimeout addr env = (result, b', env'))

/-- What any number of steps can do to the buffers of a peer. -/
def PacketBuffers.Evolves (addr : SocketAddr) : PacketBuffers → PacketBuffers → Prop :=
  Relation.ReflTransGen (PacketBuffers.Step addr)

/-! ## Handling a datagram -/

section Receive

variable [Rkyv P]

/-- A datagram completes a packet, which is valid. -/
def PacketBuffers.Completes (buffers : PacketBuffers) (addr : SocketAddr) (buf : Bytes) (env : Env)
    (packet : ClientConnectionPacket P) (buffers' : PacketBuffers) (env' : Env) : Prop :=
  ∃ bytes, buffers.handle buf addr env =
      .ok (.ok (.received (.reassembled bytes)), buffers', env') ∧
    Rkyv.checkClient bytes = .ok (.ok packet)

/-- A connected client is to be disconnected because of a packet: it disconnects, it connects a
second time, or the answer to its query cannot be sent. -/
inductive EndsConnection (handler : ServerHandler P) (u : ServerUpdate P) (addr : SocketAddr)
    (buffers : PacketBuffers) (env : Env) :
    ClientConnectionPacket P → List (ServerEvent P) → Prop
  | disconnect (disconnect : P.Disconnect) :
      EndsConnection handler u addr buffers env (.disconnect disconnect)
        [.rawPacket (.part addr .reassembled), .disconnect addr disconnect]
  | connect (connect : P.Connect) :
      EndsConnection handler u addr buffers env (.connect connect)
        [.rawPacket (.part addr .reassembled), .unexpected addr .alreadyConnected]
  | query (query : P.Query) {error : IoError} {buffers' : PacketBuffers} {env' : Env}
      (hsend : buffers.send (Rkyv.serializeServer (.status (handler.query
          (u.events ++ [.rawPacket (.part addr .reassembled)]) addr query)))
        u.server.config.connection.backgroundSerializationThreshold addr env =
          .ok (.error error, buffers', env')) :
      EndsConnection handler u addr buffers env (.query query)
        [.rawPacket (.part addr .reassembled), .query addr query, .error (.send addr error)]

/-- **What handling a datagram of a peer can do.** -/
inductive ServerUpdate.Handled (handler : ServerHandler P) (u : ServerUpdate P) (addr : SocketAddr)
    (buf : Bytes) (u' : ServerUpdate P) : Prop
  /-- A version request that has no consequences. -/
  | version (new : List (ServerEvent P)) (hbuf : buf = [])
      (hnew : ∀ e ∈ new, e = .version ∨ ∃ error, e = .error (.send addr error))
      (hevents : u'.events = u.events ++ new) (hserver : u'.server = u.server)
  /-- A version request of an unknown peer is answered. -/
  | versionAnswered (hbuf : buf = [])
      (hsend : (u.env.send addr (PacketKind.version.toByte ::
        (VersionPacket.write (handler.version u.events)).val)).1 = .ok true)
      (hlistener : u.server.listeners.get? addr = none)
      (hclient : u.server.findClient addr = none)
      (hevents : u'.events = u.events ++ [.version])
      (hserver : u'.server = { u.server with
        listeners := u.server.listeners.insert addr
          (.new u.server.config.connection.initialSendBatchSize) })
  /-- Something else from an unknown peer. -/
  | unknown (hbuf : buf ≠ []) (hlistener : u.server.listeners.get? addr = none)
      (hclient : u.server.findClient addr = none)
      (hevents : u'.events = u.events ++ [.unexpected addr .unknownCompatibility])
      (hserver : u'.server = u.server)
  /-- The client stays connected. -/
  | client (index : ℕ) (client client' : ClientConnection) (new : List (ServerEvent P))
      (hbuf : buf ≠ []) (hfind : u.server.findClient addr = some (index, client))
      (haddr : client'.clientAddr = addr)
      (hevolves : PacketBuffers.Evolves addr client.buffers client'.buffers)
      (hnew : ∀ e ∈ new, e.AboutIn addr .client) (hevents : u'.events = u.events ++ new)
      (hserver : u'.server = u.server.setClient index (some client'))
  /-- The client is disconnected, and the server listens to it again. -/
  | disconnected (index : ℕ) (client client' : ClientConnection) (new : List (ServerEvent P))
      (packet : ClientConnectionPacket P) (buffers : PacketBuffers) (env : Env)
      (hbuf : buf ≠ []) (hfind : u.server.findClient addr = some (index, client))
      (haddr : client'.clientAddr = addr)
      (hcompletes : client.buffers.Completes addr buf u.env packet buffers env)
      (hends : EndsConnection handler u addr buffers env packet new)
      (hevolves : PacketBuffers.Evolves addr client.buffers client'.buffers)
      (hevents : u'.events = u.events ++ new)
      (hserver : u'.server = u.server.disconnectClient index client')
  /-- The server goes on listening to the peer. -/
  | listener (buffers buffers' : PacketBuffers) (new : List (ServerEvent P)) (hbuf : buf ≠ [])
      (hclient : u.server.findClient addr = none)
      (hget : u.server.listeners.get? addr = some buffers)
      (hevolves : PacketBuffers.Evolves addr buffers buffers')
      (hnew : ∀ e ∈ new, e.AboutIn addr .listener) (hevents : u'.events = u.events ++ new)
      (hlisteners : ∀ a, u'.server.listeners.get? a =
        if a = addr then some buffers' else u.server.listeners.get? a)
      (hclients : u'.server.clients = u.server.clients)
      (hconfig : u'.server.config = u.server.config)
  /-- The peer is accepted and gets a slot. -/
  | accepted (buffers buffers' buffers'' : PacketBuffers) (connect : P.Connect) (accept : P.Accept)
      (env env' : Env) (packetId : PacketId) (hbuf : buf ≠ [])
      (hclient : u.server.findClient addr = none)
      (hget : u.server.listeners.get? addr = some buffers)
      (hcompletes : buffers.Completes addr buf u.env (.connect connect : ClientConnectionPacket P)
        buffers' env)
      (haccept : handler.connect (u.events ++ [.rawPacket (.part addr .reassembled)]) addr connect =
        .accept accept)
      (hsend : buffers'.send (Rkyv.serializeServer (.accept accept))
        u.server.config.connection.backgroundSerializationThreshold addr env =
          .ok (.ok packetId, buffers'', env'))
      (hevents : u'.events = u.events ++
        [.rawPacket (.part addr .reassembled), .connect addr connect])
      (hlisteners : ∀ a, u'.server.listeners.get? a =
        if a = addr then none else u.server.listeners.get? a)
      (hclients : u'.server.clients = (u.server.addClient (.new addr buffers'')).clients)
      (hconfig : u'.server.config = u.server.config)

/-! ### The branches of the receive loop -/

theorem Server.setClient_self {s : Server} {index : ℕ} {entry : Option ClientConnection}
    (hget : s.clients[index]? = some entry) : s.setClient index entry = s := by
  obtain ⟨hlt, heq⟩ := List.getElem?_eq_some_iff.mp hget
  unfold setClient
  rw [← heq, List.set_getElem_self]

@[simp] theorem Server.setClient_setClient (s : Server) (index : ℕ)
    (entry entry' : Option ClientConnection) :
    (s.setClient index entry).setClient index entry' = s.setClient index entry' := by
  simp [setClient]

@[simp] theorem Server.disconnectClient_setClient (s : Server) (index : ℕ)
    (entry : Option ClientConnection) (client : ClientConnection) :
    (s.setClient index entry).disconnectClient index client = s.disconnectClient index client := by
  simp [disconnectClient, setClient]

namespace ServerUpdate

variable {handler : ServerHandler P} {u u' : ServerUpdate P} {addr : SocketAddr} {buf : Bytes}
  {buffers buffers' : PacketBuffers}

omit [Rkyv P] in
theorem setClient_server (u : ServerUpdate P) (index : ℕ) (client : ClientConnection) :
    (u.setClient index client).server = u.server.setClient index (some client) := rfl

/-- What the buffers of a peer that is not unknown make of a datagram. -/
theorem handleBuffers_cases {packet : Option (ClientConnectionPacket P)}
    (h : u.handleBuffers buffers addr buf = .ok (packet, buffers', u')) :
    u'.server = u.server ∧ buffers.Step addr buffers' ∧
      ((packet = none ∧ ∃ new, u'.events = u.events ++ new ∧
          ∀ e ∈ new, e.AboutIn addr .listener ∧ e.AboutIn addr .client) ∨
        ∃ p, packet = some p ∧ buffers.Completes addr buf u.env p buffers' u'.env ∧
          u'.events = u.events ++ [.rawPacket (.part addr .reassembled)]) := by
  unfold handleBuffers at h
  obtain ⟨⟨result, buffers'', env⟩, hhandle, h⟩ := exists_of_bind_ok h
  dsimp only at h
  have hstep : buffers.Step addr buffers'' := .handle hhandle
  have htold : ∀ e : ServerEvent P, e.AboutIn addr .listener → e.AboutIn addr .client →
      ∀ e' ∈ [e], e'.AboutIn addr .listener ∧ e'.AboutIn addr .client := by
    intro e hlistener hclient e' he'
    rw [List.mem_singleton.mp he']
    exact ⟨hlistener, hclient⟩
  split at h
  · cases h
    exact ⟨rfl, hstep, Or.inl ⟨rfl, _, rfl, htold _ ⟨rfl, trivial⟩ ⟨rfl, trivial⟩⟩⟩
  · cases h
    exact ⟨rfl, hstep, Or.inl ⟨rfl, _, rfl, htold _ ⟨rfl, trivial⟩ ⟨rfl, trivial⟩⟩⟩
  · cases h
    exact ⟨rfl, hstep, Or.inl ⟨rfl, _, rfl, htold _ ⟨rfl, trivial⟩ ⟨rfl, trivial⟩⟩⟩
  · rename_i bytes
    obtain ⟨checked, hcheck, h⟩ := exists_of_bind_ok h
    cases checked with
    | ok packet =>
      cases h
      exact ⟨rfl, hstep, Or.inr ⟨_, rfl, ⟨bytes, hhandle, hcheck⟩, rfl⟩⟩
    | error error =>
      cases h
      refine ⟨rfl, hstep, Or.inl ⟨rfl, _, List.append_assoc _ _ _, fun e he => ?_⟩⟩
      rcases List.mem_append.mp he with he | he
      · exact htold (.rawPacket (.part addr .reassembled)) ⟨rfl, trivial⟩ ⟨rfl, trivial⟩ e he
      · exact htold (.error (.packetValidation addr error)) ⟨rfl, trivial⟩ ⟨rfl, trivial⟩ e he
  · cases h
    exact ⟨rfl, hstep, Or.inl ⟨rfl, _, rfl, htold _ ⟨rfl, trivial⟩ ⟨rfl, trivial⟩⟩⟩
  · cases h
    exact ⟨rfl, hstep, Or.inl ⟨rfl, _, rfl, htold _ ⟨rfl, trivial⟩ ⟨rfl, trivial⟩⟩⟩

/-- What sending a packet can do. -/
theorem sendPacket_cases {packet : ServerConnectionPacket P} {result : IoResult PacketId}
    (h : u.sendPacket buffers addr packet = .ok (result, buffers', u')) :
    u'.server = u.server ∧
      buffers.send (Rkyv.serializeServer packet)
        u.server.config.connection.backgroundSerializationThreshold addr u.env =
          .ok (result, buffers', u'.env) ∧
      ((∃ error, result = .error error ∧ u'.events = u.events ++ [.error (.send addr error)]) ∨
        ∃ packetId, result = .ok packetId ∧ u'.events = u.events) := by
  unfold sendPacket at h
  cases hsend : buffers.send (Rkyv.serializeServer packet)
      u.server.config.connection.backgroundSerializationThreshold addr u.env with
  | error abort => simp [hsend, bind, Except.bind] at h
  | ok sent =>
    obtain ⟨result', buffers'', env⟩ := sent
    simp only [hsend, bind, Except.bind, pure, Except.pure] at h
    cases result' with
    | error error =>
      cases h
      exact ⟨rfl, rfl, Or.inl ⟨error, rfl, rfl⟩⟩
    | ok packetId =>
      cases h
      exact ⟨rfl, rfl, Or.inr ⟨packetId, rfl, rfl⟩⟩

omit [Rkyv P] in
/-- What a version request can do. -/
theorem handleVersionRequest_cases (h : u.handleVersionRequest handler addr = u') :
    ((∃ new, u'.events = u.events ++ new ∧
        ∀ e ∈ new, e = .version ∨ ∃ error, e = .error (.send addr error)) ∧
      u'.server = u.server) ∨
    ((u.env.send addr (PacketKind.version.toByte ::
        (VersionPacket.write (handler.version u.events)).val)).1 = .ok true ∧
      u.server.listeners.get? addr = none ∧ u.server.findClient addr = none ∧
      u'.events = u.events ++ [.version] ∧
      u'.server = { u.server with
        listeners := u.server.listeners.insert addr
          (.new u.server.config.connection.initialSendBatchSize) }) := by
  have hversion : ∀ e ∈ [ServerEvent.version (P := P)],
      e = .version ∨ ∃ error, e = .error (.send addr error) := by
    intro e he
    exact Or.inl (List.mem_singleton.mp he)
  unfold handleVersionRequest at h
  dsimp only at h
  split at h
  · rename_i sent env hsend
    split at h
    · rename_i hcond
      obtain ⟨hsent, hlistener, hclient⟩ := hcond
      subst h
      have hanswer := congrArg Prod.fst hsend
      rw [hsent] at hanswer
      exact Or.inr ⟨hanswer, hlistener, hclient, rfl, rfl⟩
    · subst h
      exact Or.inl ⟨⟨_, rfl, hversion⟩, rfl⟩
  · rename_i error env hsend
    subst h
    refine Or.inl ⟨⟨_, List.append_assoc _ _ _, fun e he => ?_⟩, rfl⟩
    rcases List.mem_append.mp he with he | he
    · exact hversion e he
    · exact Or.inr ⟨error, List.mem_singleton.mp he⟩

omit [Rkyv P] in
/-- What the answer to a ping can do. -/
theorem handlePong_cases {index : ℕ} {client : ClientConnection}
    (hget : u.server.clients[index]? = some (some client)) (data : Bytes) :
    ∃ client' new, client'.clientAddr = client.clientAddr ∧ client'.buffers = client.buffers ∧
      (∀ e ∈ new, e.AboutIn client.clientAddr .client) ∧
      (u.handlePong index client data).events = u.events ++ new ∧
      (u.handlePong index client data).server = u.server.setClient index (some client') := by
  have hquiet : ∀ e : ServerEvent P, e.AboutIn client.clientAddr .client →
      ∃ client' new, client'.clientAddr = client.clientAddr ∧ client'.buffers = client.buffers ∧
        (∀ e ∈ new, e.AboutIn client.clientAddr .client) ∧
        (u.tell e).events = u.events ++ new ∧
        (u.tell e).server = u.server.setClient index (some client') := by
    intro e he
    refine ⟨client, [e], rfl, rfl, fun e' he' => ?_, rfl, (Server.setClient_self hget).symm⟩
    rw [List.mem_singleton.mp he']
    exact he
  unfold handlePong
  split
  · exact hquiet _ ⟨rfl, trivial⟩
  · split
    · exact hquiet _ ⟨rfl, trivial⟩
    · split_ifs
      · refine ⟨{ client with lastPong := some u.env.now, missedPongs := 0 }, _, rfl, rfl,
          fun e he => ?_, rfl, rfl⟩
        rw [List.mem_singleton.mp he]
        exact ⟨rfl, trivial⟩
      · exact hquiet _ ⟨rfl, trivial⟩

/-- A packet from a connected client. -/
theorem handleClientPacket_handled {v : ServerUpdate P} {index : ℕ} {client : ClientConnection}
    {packet : ClientConnectionPacket P} (hbuf : buf ≠ [])
    (hfind : u.server.findClient addr = some (index, client))
    (hserver : v.server = u.server.setClient index (some { client with buffers }))
    (hstep : client.buffers.Step addr buffers)
    (hcompletes : client.buffers.Completes addr buf u.env packet buffers v.env)
    (hevents : v.events = u.events ++ [.rawPacket (.part addr .reassembled)])
    (h : v.handleClientPacket handler index { client with buffers } packet = .ok u') :
    u.Handled handler addr buf u' := by
  obtain ⟨-, haddr⟩ := Server.findClient_eq_some hfind
  subst haddr
  have hevolves : PacketBuffers.Evolves client.clientAddr client.buffers buffers := .single hstep
  have hconfig : v.server.config = u.server.config := by
    rw [hserver]
    rfl
  cases packet with
  | query query =>
    unfold handleClientPacket at h
    cases hsend : (v.tell (.query client.clientAddr query)).sendPacket buffers client.clientAddr
        (.status (handler.query v.events client.clientAddr query)) with
    | error abort => simp [hsend, bind, Except.bind] at h
    | ok sent =>
      obtain ⟨result, buffers', w⟩ := sent
      simp only [hsend, bind, Except.bind, pure, Except.pure] at h
      obtain ⟨hw, hsend', hcases⟩ := sendPacket_cases hsend
      have hevolves' := hevolves.tail (.send hsend')
      simp only [tell] at hw hcases
      rcases hcases with ⟨error, rfl, hevents'⟩ | ⟨packetId, rfl, hevents'⟩
      · cases h
        rw [hevents] at hsend'
        simp only [tell, hconfig] at hsend'
        refine .disconnected index client { client with buffers := buffers' } _ _ _ _ hbuf hfind rfl
          hcompletes (.query query hsend') hevolves' ?_ ?_
        · simp [disconnectClient, hevents', hevents]
        · simp [disconnectClient, hw, hserver]
      · cases h
        refine .client index client { client with buffers := buffers' }
          [.rawPacket (.part client.clientAddr .reassembled), .query client.clientAddr query] hbuf
          hfind rfl hevolves' ?_ ?_ ?_
        · intro e he
          rcases List.mem_pair.mp he with rfl | rfl <;> exact ⟨rfl, trivial⟩
        · simp [setClient, hevents', hevents]
        · simp [setClient_server, hw, hserver]
  | connect connect =>
    cases h
    refine .disconnected index client { client with buffers } _ _ _ _ hbuf hfind rfl hcompletes
      (.connect connect) hevolves ?_ ?_
    · simp [disconnectClient, tell, hevents]
    · simp [disconnectClient, tell, hserver]
  | disconnect disconnect =>
    cases h
    refine .disconnected index client { client with buffers } _ _ _ _ hbuf hfind rfl hcompletes
      (.disconnect disconnect) hevolves ?_ ?_
    · simp [disconnectClient, tell, hevents]
    · simp [disconnectClient, tell, hserver]
  | user packet =>
    cases h
    refine .client index client { client with buffers }
      [.rawPacket (.part client.clientAddr .reassembled), .packet client.clientAddr packet] hbuf
      hfind rfl hevolves ?_ ?_ ?_
    · intro e he
      rcases List.mem_pair.mp he with rfl | rfl <;> exact ⟨rfl, trivial⟩
    · simp [tell, hevents]
    · simp [tell, hserver]

/-- A datagram from a connected client. -/
theorem handleClient_handled {index : ℕ} {client : ClientConnection} {kind : UInt8} {data : Bytes}
    (hfind : u.server.findClient addr = some (index, client))
    (h : u.handleClient handler index client kind data = .ok u') :
    u.Handled handler addr (kind :: data) u' := by
  obtain ⟨hget, haddr⟩ := Server.findClient_eq_some hfind
  subst haddr
  unfold handleClient at h
  by_cases hping : PacketKind.tryFrom kind = some .ping
  · rw [if_pos hping] at h
    cases h
    obtain ⟨client', new, haddr', hbuffers, hnew, hevents, hserver⟩ := handlePong_cases hget data
    exact .client index client client' new (List.cons_ne_nil _ _) hfind haddr'
      (hbuffers ▸ Relation.ReflTransGen.refl) hnew hevents hserver
  · rw [if_neg hping] at h
    cases hhandle : u.handleBuffers client.buffers client.clientAddr (kind :: data) with
    | error abort => simp [hhandle, bind, Except.bind] at h
    | ok handled =>
      obtain ⟨packet, buffers, v⟩ := handled
      simp only [hhandle, bind, Except.bind, pure, Except.pure] at h
      obtain ⟨hv, hstep, ⟨rfl, new, hevents, hnew⟩ | ⟨p, rfl, hcompletes, hevents⟩⟩ :=
        handleBuffers_cases hhandle
      · cases h
        refine .client index client { client with buffers } new (List.cons_ne_nil _ _) hfind rfl
          (.single hstep) (fun e he => (hnew e he).2) hevents ?_
        rw [setClient_server, hv]
      · refine handleClientPacket_handled (v := v.setClient index { client with buffers })
          (List.cons_ne_nil _ _) hfind ?_ hstep hcompletes hevents h
        rw [setClient_server, hv]

omit [Rkyv P] in
theorem get?_setListener (u : ServerUpdate P) (addr a : SocketAddr) (buffers : PacketBuffers) :
    (u.setListener addr buffers).server.listeners.get? a =
      if a = addr then some buffers else u.server.listeners.get? a :=
  SortedMap.get?_insert _ _ _ _

/-- A packet from a client that is not connected. -/
theorem handleListenerPacket_handled {v : ServerUpdate P} {packet : ClientConnectionPacket P}
    (hbuf : buf ≠ []) (hclient : u.server.findClient addr = none)
    (hget : u.server.listeners.get? addr = some buffers)
    (hserver : v.server = (u.setListener addr buffers').server)
    (hstep : buffers.Step addr buffers')
    (hcompletes : buffers.Completes addr buf u.env packet buffers' v.env)
    (hevents : v.events = u.events ++ [.rawPacket (.part addr .reassembled)])
    (h : v.handleListenerPacket handler addr buffers' packet = .ok u') :
    u.Handled handler addr buf u' := by
  have hevolves : PacketBuffers.Evolves addr buffers buffers' := .single hstep
  -- the server goes on listening to the client
  have hlistens : ∀ (w : ServerUpdate P) (buffers'' : PacketBuffers) (new : List (ServerEvent P)),
      w.server = v.server → PacketBuffers.Evolves addr buffers buffers'' →
      (∀ e ∈ new, e.AboutIn addr .listener) → w.events = u.events ++ new →
      u.Handled handler addr buf (w.setListener addr buffers'') := by
    intro w buffers'' new hw hevolves'' hnew hevents'
    refine .listener buffers buffers'' new hbuf hclient hget hevolves'' hnew hevents' ?_ ?_ ?_
    · intro a
      rw [get?_setListener, hw, hserver, get?_setListener]
      split_ifs <;> rfl
    · rw [setListener, hw, hserver]
      rfl
    · rw [setListener, hw, hserver]
      rfl
  cases packet with
  | query query =>
    unfold handleListenerPacket at h
    cases hsend : (v.tell (.query addr query)).sendPacket buffers' addr
        (.status (handler.query v.events addr query)) with
    | error abort => simp [hsend, bind, Except.bind] at h
    | ok sent =>
      obtain ⟨result, buffers'', w⟩ := sent
      simp only [hsend, bind, Except.bind, pure, Except.pure] at h
      cases h
      obtain ⟨hw, hsend', hcases⟩ := sendPacket_cases hsend
      simp only [tell, hevents] at hw hcases
      rcases hcases with ⟨error, -, hevents'⟩ | ⟨packetId, -, hevents'⟩
      · refine hlistens w buffers'' [.rawPacket (.part addr .reassembled), .query addr query,
          .error (.send addr error)] hw (hevolves.tail (.send hsend')) ?_ (by simpa using hevents')
        intro e he
        simp only [List.mem_cons, List.not_mem_nil, or_false] at he
        rcases he with rfl | rfl | rfl <;> exact ⟨rfl, trivial⟩
      · refine hlistens w buffers'' [.rawPacket (.part addr .reassembled), .query addr query] hw
          (hevolves.tail (.send hsend')) ?_ (by simpa using hevents')
        intro e he
        rcases List.mem_pair.mp he with rfl | rfl <;> exact ⟨rfl, trivial⟩
  | connect connect =>
    unfold handleListenerPacket at h
    have hfailed : ∀ e ∈ [ServerEvent.rawPacket (.part addr .reassembled),
        .connect addr connect], e.AboutIn addr .listener := by
      intro e he
      rcases List.mem_pair.mp he with rfl | rfl <;> exact ⟨rfl, trivial⟩
    have hfailed' : ∀ error, ∀ e ∈ [ServerEvent.rawPacket (.part addr .reassembled),
        .connect addr connect, .error (.send addr error)], e.AboutIn addr .listener := by
      intro error e he
      simp only [List.mem_cons, List.not_mem_nil, or_false] at he
      rcases he with rfl | rfl | rfl <;> exact ⟨rfl, trivial⟩
    cases hconnect : handler.connect v.events addr connect with
    | accept accept =>
      cases hsend : (v.tell (.connect addr connect)).sendPacket buffers' addr (.accept accept) with
      | error abort => simp [hconnect, hsend, bind, Except.bind] at h
      | ok sent =>
        obtain ⟨result, buffers'', w⟩ := sent
        simp only [hconnect, hsend, bind, Except.bind, pure, Except.pure] at h
        obtain ⟨hw, hsend', hcases⟩ := sendPacket_cases hsend
        simp only [tell, hevents] at hw hcases
        rcases hcases with ⟨error, rfl, hevents'⟩ | ⟨packetId, rfl, hevents'⟩
        · cases h
          exact hlistens w buffers'' _ hw (hevolves.tail (.send hsend')) (hfailed' error)
            (by simpa using hevents')
        · cases h
          rw [hevents] at hconnect
          refine .accepted buffers buffers' buffers'' connect accept v.env w.env packetId hbuf hclient
            hget hcompletes hconnect ?_ ?_ ?_ ?_ ?_
          · rw [← hsend']
            simp only [tell, hserver]
            rfl
          · simpa [setListener] using hevents'
          · intro a
            obtain ⟨-, -, -, hlisteners, -⟩ := Server.addClient_spec
              { (w.setListener addr buffers'').server with
                listeners := (w.setListener addr buffers'').server.listeners.erase addr }
              (.new addr buffers'')
            rw [hlisteners]
            dsimp only
            rw [SortedMap.get?_erase, get?_setListener, hw, hserver, get?_setListener]
            split_ifs <;> rfl
          · simp only [setListener, hw, hserver]
            unfold Server.addClient
            dsimp only
            split <;> rfl
          · simp only [setListener, hw, hserver]
            unfold Server.addClient
            dsimp only
            split <;> rfl
    | reject reject =>
      cases hsend : (v.tell (.connect addr connect)).sendPacket buffers' addr (.reject reject) with
      | error abort => simp [hconnect, hsend, bind, Except.bind] at h
      | ok sent =>
        obtain ⟨result, buffers'', w⟩ := sent
        simp only [hconnect, hsend, bind, Except.bind, pure, Except.pure] at h
        cases h
        obtain ⟨hw, hsend', hcases⟩ := sendPacket_cases hsend
        simp only [tell, hevents] at hw hcases
        rcases hcases with ⟨error, -, hevents'⟩ | ⟨packetId, -, hevents'⟩
        · exact hlistens w buffers'' _ hw (hevolves.tail (.send hsend')) (hfailed' error)
            (by simpa using hevents')
        · exact hlistens w buffers'' _ hw (hevolves.tail (.send hsend')) hfailed
            (by simpa using hevents')
  | disconnect disconnect =>
    cases h
    refine .listener buffers buffers' [.rawPacket (.part addr .reassembled),
      .unexpected addr .notConnected] hbuf hclient hget hevolves ?_ ?_ ?_ ?_ ?_
    · intro e he
      rcases List.mem_pair.mp he with rfl | rfl <;> exact ⟨rfl, trivial⟩
    · simp [tell, hevents]
    · intro a
      simp only [tell, hserver, get?_setListener]
    · simp [tell, hserver, setListener]
    · simp [tell, hserver, setListener]
  | user packet =>
    cases h
    refine .listener buffers buffers' [.rawPacket (.part addr .reassembled),
      .unexpected addr .notConnected] hbuf hclient hget hevolves ?_ ?_ ?_ ?_ ?_
    · intro e he
      rcases List.mem_pair.mp he with rfl | rfl <;> exact ⟨rfl, trivial⟩
    · simp [tell, hevents]
    · intro a
      simp only [tell, hserver, get?_setListener]
    · simp [tell, hserver, setListener]
    · simp [tell, hserver, setListener]

/-- **Handling a datagram** does one of the listed things. -/
theorem handled (h : u.handleDatagram handler addr buf = .ok u') : u.Handled handler addr buf u' := by
  unfold handleDatagram at h
  cases buf with
  | nil =>
    cases h
    rcases handleVersionRequest_cases (rfl : u.handleVersionRequest handler addr = _) with
      ⟨⟨new, hevents, hnew⟩, hserver⟩ | ⟨hsend, hlistener, hclient, hevents, hserver⟩
    · exact .version new rfl hnew hevents hserver
    · exact .versionAnswered rfl hsend hlistener hclient hevents hserver
  | cons kind data =>
    dsimp only at h
    cases hfind : u.server.findClient addr with
    | some found =>
      obtain ⟨index, client⟩ := found
      rw [hfind] at h
      exact handleClient_handled hfind h
    | none =>
      rw [hfind] at h
      cases hget : u.server.listeners.get? addr with
      | none =>
        rw [hget] at h
        cases h
        exact .unknown (List.cons_ne_nil _ _) hget hfind rfl rfl
      | some buffers =>
        rw [hget] at h
        dsimp only [handleListener] at h
        cases hhandle : u.handleBuffers buffers addr (kind :: data) with
        | error abort => simp [hhandle, bind, Except.bind] at h
        | ok handled =>
          obtain ⟨packet, buffers', v⟩ := handled
          simp only [hhandle, bind, Except.bind, pure, Except.pure] at h
          obtain ⟨hv, hstep, ⟨rfl, new, hevents, hnew⟩ | ⟨p, rfl, hcompletes, hevents⟩⟩ :=
            handleBuffers_cases hhandle
          · cases h
            refine .listener buffers buffers' new (List.cons_ne_nil _ _) hfind hget (.single hstep)
              (fun e he => (hnew e he).1) hevents ?_ ?_ ?_
            · intro a
              rw [get?_setListener, hv]
            · simp only [setListener, hv]
            · simp only [setListener, hv]
          · refine handleListenerPacket_handled (v := v.setListener addr buffers')
              (List.cons_ne_nil _ _) hfind hget ?_ hstep hcompletes hevents h
            simp only [setListener, hv]

end ServerUpdate

end Receive

/-! ## The passes over the slots -/

/-- An event tells that the connection to a client was lost. -/
def ServerEvent.Loses (addr : SocketAddr) (event : ServerEvent P) : Prop :=
  event = .error (.timeout addr) ∨ ∃ error, event = .error (.send addr error)

/-- What the visit of a slot can do: the client evolves, or it is lost and its slot is freed. -/
structure VisitsSlot (entry entry' : Option ClientConnection) (new : List (ServerEvent P)) :
    Prop where
  about : ∀ e ∈ new, ∃ client, entry = some client ∧ e.AboutIn client.clientAddr .client
  kept : ∀ client', entry' = some client' → ∃ client, entry = some client ∧
    client'.clientAddr = client.clientAddr ∧
    PacketBuffers.Evolves client.clientAddr client.buffers client'.buffers
  lost : ∀ client, entry = some client → entry' = none →
    ∃ e ∈ new, e.Loses client.clientAddr

namespace VisitsSlot

/-- A free slot stays free. -/
theorem free : VisitsSlot none none ([] : List (ServerEvent P)) := by
  constructor
  · intro e he
    cases he
  · intro client' h
    cases h
  · intro client h
    cases h

/-- The client stays. -/
theorem stays {client client' : ClientConnection} {new : List (ServerEvent P)}
    (hnew : ∀ e ∈ new, e.AboutIn client.clientAddr .client)
    (haddr : client'.clientAddr = client.clientAddr)
    (hevolves : PacketBuffers.Evolves client.clientAddr client.buffers client'.buffers) :
    VisitsSlot (some client) (some client') new := by
  constructor
  · intro e he
    exact ⟨client, rfl, hnew e he⟩
  · intro client'' h
    cases h
    exact ⟨client, rfl, haddr, hevolves⟩
  · intro client'' _ h
    cases h

/-- The client is lost. -/
theorem loses {client : ClientConnection} {event : ServerEvent P}
    (habout : event.AboutIn client.clientAddr .client) (hloses : event.Loses client.clientAddr) :
    VisitsSlot (some client) none [event] := by
  constructor
  · intro e he
    rw [List.mem_singleton.mp he]
    exact ⟨client, rfl, habout⟩
  · intro client' h
    cases h
  · intro client' h _
    cases h
    exact ⟨event, List.mem_singleton_self event, hloses⟩

end VisitsSlot

/-- **What a pass over the slots can do.** -/
structure VisitsSlots (clients clients' : List (Option ClientConnection))
    (new : List (ServerEvent P)) : Prop where
  about : ∀ e ∈ new, ∃ (i : ℕ) (client : ClientConnection), clients[i]? = some (some client) ∧
    e.AboutIn client.clientAddr .client
  kept : ∀ (i : ℕ) (client' : ClientConnection), clients'[i]? = some (some client') →
    ∃ client, clients[i]? = some (some client) ∧ client'.clientAddr = client.clientAddr ∧
      PacketBuffers.Evolves client.clientAddr client.buffers client'.buffers
  lost : ∀ (i : ℕ) (client : ClientConnection), clients[i]? = some (some client) →
    (∃ client', clients'[i]? = some (some client')) ∨ ∃ e ∈ new, e.Loses client.clientAddr

/-- A pass visits every slot. -/
theorem visitsSlots_mapState {σ : Type} {f : σ → Option ClientConnection → σ × Option ClientConnection}
    (told : σ → List (ServerEvent P))
    (hvisit : ∀ s entry, ∃ new, told (f s entry).1 = told s ++ new ∧
      VisitsSlot entry (f s entry).2 new)
    (clients : List (Option ClientConnection)) (s : σ) :
    ∃ new, told (Vec.mapState f s clients).1 = told s ++ new ∧
      VisitsSlots clients (Vec.mapState f s clients).2 new := by
  -- whatever is told during the pass is about a client that has a slot
  let R : σ → σ → Prop := fun s t => ∃ new, told t = told s ++ new ∧
    ∀ e ∈ new, ∃ (i : ℕ) (client : ClientConnection), clients[i]? = some (some client) ∧
      e.AboutIn client.clientAddr .client
  have hrefl : ∀ s, R s s := fun s => ⟨[], (List.append_nil _).symm, fun e he => by cases he⟩
  have htrans : ∀ s t u, R s t → R t u → R s u := by
    rintro s t u ⟨new, htold, habout⟩ ⟨new', htold', habout'⟩
    refine ⟨new ++ new', by rw [htold', htold, List.append_assoc], fun e he => ?_⟩
    rcases List.mem_append.mp he with he | he
    · exact habout e he
    · exact habout' e he
  have hrel : ∀ s, ∀ entry ∈ clients, R s (f s entry).1 := by
    intro s entry hentry
    obtain ⟨new, htold, hslot⟩ := hvisit s entry
    refine ⟨new, htold, fun e he => ?_⟩
    obtain ⟨client, rfl, he⟩ := hslot.about e he
    obtain ⟨i, hi⟩ := List.getElem?_of_mem hentry
    exact ⟨i, client, hi, he⟩
  obtain ⟨new, htold, habout⟩ := Vec.mapState_state hrefl htrans hrel s
  refine ⟨new, htold, habout, fun i client' hget' => ?_, fun i client hget => ?_⟩
  · have hlt := (List.getElem?_eq_some_iff.mp hget').1
    rw [Vec.length_mapState] at hlt
    have hget := List.getElem?_eq_getElem hlt
    obtain ⟨s', -, hanswer, -⟩ := Vec.getElem?_mapState hrefl htrans hrel s hget
    obtain ⟨here, -, hslot⟩ := hvisit s' clients[i]
    rw [hget'] at hanswer
    obtain ⟨client, hclient, hkept⟩ := hslot.kept client' (Option.some.inj hanswer).symm
    exact ⟨client, hget.trans (congrArg some hclient), hkept⟩
  · obtain ⟨s', ⟨before, hbefore, -⟩, hanswer, ⟨after, hafter, -⟩⟩ :=
      Vec.getElem?_mapState hrefl htrans hrel s hget
    obtain ⟨here, hhere, hslot⟩ := hvisit s' (some client)
    cases hkept : (f s' (some client)).2 with
    | some client' => exact Or.inl ⟨client', hanswer.trans (congrArg some hkept)⟩
    | none =>
      obtain ⟨e, he, hloses⟩ := hslot.lost client rfl hkept
      have hall : new = before ++ here ++ after := by
        rw [hhere, hbefore, htold] at hafter
        simpa using hafter
      exact Or.inr ⟨e, by simp [hall, he], hloses⟩

namespace ServerUpdate

/-- The visit of a slot in the pass that updates the buffers. -/
theorem updateClient_visitsSlot (config : ServerConfig) (pass : Pass P)
    (entry : Option ClientConnection) :
    ∃ new, (updateClient config pass entry).1.events = pass.events ++ new ∧
      VisitsSlot entry (updateClient config pass entry).2 new := by
  cases entry with
  | none => exact ⟨[], (List.append_nil _).symm, .free⟩
  | some client =>
    rcases hupdate : client.buffers.update config.connection.resendDelay
        config.connection.maxMissedAcks config.connection.receiveTimeout client.clientAddr
        pass.env with ⟨result, buffers, env⟩
    simp only [updateClient, hupdate]
    cases result with
    | ok _ =>
      refine ⟨[], (List.append_nil _).symm, .stays (fun e he => ?_) rfl (.single (.update hupdate))⟩
      cases he
    | error error => exact ⟨_, rfl, .loses ⟨rfl, trivial⟩ (Or.inr ⟨error, rfl⟩)⟩

/-- The pass counts the slots, and remembers where the last client was. -/
theorem firstEmptySlot_le (config : ServerConfig) (clients : List (Option ClientConnection))
    (pass : Pass P) (hpass : pass.firstEmptySlot ≤ pass.index) :
    pass.firstEmptySlot ≤
        (Vec.mapState (updateClient config) pass clients).1.firstEmptySlot ∧
      ∀ (i : ℕ) (client : ClientConnection), clients[i]? = some (some client) →
        pass.index + i < (Vec.mapState (updateClient config) pass clients).1.firstEmptySlot := by
  induction clients generalizing pass with
  | nil => exact ⟨le_rfl, fun i client h => by cases h⟩
  | cons entry clients ih =>
    have hindex : (updateClient config pass entry).1.index = pass.index + 1 := by
      cases entry with
      | none => rfl
      | some client =>
        unfold updateClient
        dsimp only
        split <;> rfl
    have hslot : (updateClient config pass entry).1.firstEmptySlot =
        if entry.isSome then pass.index + 1 else pass.firstEmptySlot := by
      cases entry with
      | none => rfl
      | some client =>
        unfold updateClient
        dsimp only
        split <;> rfl
    obtain ⟨hle, hlt⟩ := ih (updateClient config pass entry).1 (by
      rw [hindex, hslot]
      split_ifs
      · exact le_rfl
      · exact hpass.trans (Nat.le_succ _))
    rw [hindex] at hlt
    rw [hslot] at hle
    rw [Vec.mapState_cons]
    refine ⟨le_trans ?_ hle, fun i client hget => ?_⟩
    · split_ifs
      · exact hpass.trans (Nat.le_succ _)
      · exact le_rfl
    · cases i with
      | zero =>
        cases hget
        exact Nat.lt_of_succ_le hle
      | succ i =>
        have := hlt i client hget
        rwa [Nat.succ_add_eq_add_succ] at this

/-- **The pass that updates the buffers.** -/
theorem updateBuffers_spec (u : ServerUpdate P) :
    ∃ new, u.updateBuffers.events = u.events ++ new ∧
      VisitsSlots u.server.clients u.updateBuffers.server.clients new ∧
      u.updateBuffers.server.listeners = u.server.listeners ∧
      u.updateBuffers.server.config = u.server.config := by
  obtain ⟨new, hevents, hslots⟩ := visitsSlots_mapState Pass.events
    (updateClient_visitsSlot u.server.config) u.server.clients
    { index := 0, firstEmptySlot := 0, env := u.env, events := u.events }
  obtain ⟨-, hlt⟩ := firstEmptySlot_le u.server.config u.server.clients
    { index := 0, firstEmptySlot := 0, env := u.env, events := u.events } le_rfl
  refine ⟨new, hevents, ⟨hslots.about, fun i client' hget => ?_, fun i client hget => ?_⟩, rfl, rfl⟩
  · refine hslots.kept i client' ?_
    have hget' : (List.take _ _)[i]? = some (some client') := hget
    rw [List.getElem?_take] at hget'
    split_ifs at hget' with hi
    exact hget'
  · rcases hslots.lost i client hget with ⟨client', hget'⟩ | hlost
    · refine Or.inl ⟨client', ?_⟩
      have hi := hlt i client hget
      rw [Nat.zero_add] at hi
      exact (List.getElem?_take_of_lt hi).trans hget'
    · exact Or.inr hlost

/-- The visit of a slot in the pass that pings the clients. -/
theorem sendPing_visitsSlot (config : ServerConfig) (pass : Env × List (ServerEvent P))
    (entry : Option ClientConnection) :
    ∃ new, (sendPing config pass entry).1.2 = pass.2 ++ new ∧
      VisitsSlot entry (sendPing config pass entry).2 new := by
  obtain ⟨env, events⟩ := pass
  cases entry with
  | none => exact ⟨[], (List.append_nil _).symm, .free⟩
  | some client =>
    have hquiet : ∀ e ∈ ([] : List (ServerEvent P)), e.AboutIn client.clientAddr .client := by
      intro e he
      cases he
    unfold sendPing
    dsimp only
    split
    · exact ⟨[], (List.append_nil _).symm, .stays hquiet rfl .refl⟩
    · generalize (if (client.activePing.isSome && client.lastPong.isNone) = true
        then client.missedPongs + 1 else client.missedPongs) = missedPongs
      split
      · exact ⟨_, rfl, .loses ⟨rfl, trivial⟩ (Or.inl rfl)⟩
      · split
        · refine ⟨[.ping client.clientAddr], rfl, .stays (fun e he => ?_) rfl .refl⟩
          rw [List.mem_singleton.mp he]
          exact ⟨rfl, trivial⟩
        · exact ⟨[], (List.append_nil _).symm, .stays hquiet rfl .refl⟩
        · exact ⟨_, rfl, .loses ⟨rfl, trivial⟩ (Or.inr ⟨_, rfl⟩)⟩

/-- **The pass that pings the clients.** -/
theorem sendPings_spec (u : ServerUpdate P) :
    ∃ new, u.sendPings.events = u.events ++ new ∧
      VisitsSlots u.server.clients u.sendPings.server.clients new ∧
      u.sendPings.server.listeners = u.server.listeners ∧
      u.sendPings.server.config = u.server.config := by
  obtain ⟨new, hevents, hslots⟩ := visitsSlots_mapState Prod.snd
    (sendPing_visitsSlot u.server.config) u.server.clients (u.env, u.events)
  exact ⟨new, hevents, hslots, rfl, rfl⟩

end ServerUpdate

/-! ## The transition system -/

/-- One step of a server: a call of `update` begins, one of its parts runs, or another operation is
called. -/
inductive ServerStep (P : Packets)
  | call (env : Env)
  | updateBuffers
  | datagram (handler : ServerHandler P) (clientAddr : SocketAddr) (buf : Bytes)
  | recvError (error : IoError)
  | sendPings
  | send (clientAddr : SocketAddr) (packet : P.Server)
  | unlisten (clientAddr : SocketAddr)
  | unlistenAll

namespace ServerRun

/-- The beginning. -/
def init (config : ServerConfig) (env : Env) : ServerUpdate P where
  server := .host config
  env
  events := []

variable [Rkyv P]

/-- One step; there is none if the code panics. -/
def step (u : ServerUpdate P) : ServerStep P → Option (ServerUpdate P)
  | .call env => some { u with env := env.start, events := [] }
  | .updateBuffers => some u.updateBuffers
  | .datagram handler clientAddr buf => (u.handleDatagram handler clientAddr (recv buf)).toOption
  | .recvError error => some (u.tell (.error (.recv error)))
  | .sendPings => some u.sendPings
  | .send clientAddr packet => do
      let (_, server, env) ← (u.server.send clientAddr packet u.env).toOption
      return { u with server, env }
  | .unlisten clientAddr => some { u with server := (u.server.unlisten clientAddr).2 }
  | .unlistenAll => some { u with server := u.server.unlistenAll }

/-- The transition system of a server. -/
def system (P : Packets) [Rkyv P] : Lts (ServerUpdate P) (ServerStep P) where
  step := step

/-- The runs of a server, with any labels. -/
def Run (u u' : ServerUpdate P) : Prop :=
  (system P).GuardedRun (fun _ _ => True) u u'

theorem Run.single {u u' : ServerUpdate P} {l : ServerStep P} (h : step u l = some u') : Run u u' :=
  Relation.ReflTransGen.single ⟨l, trivial, h⟩

theorem Run.trans {u v w : ServerUpdate P} (h : Run u v) (h' : Run v w) : Run u w :=
  Relation.ReflTransGen.trans h h'

/-- The parts of an update of the server. -/
theorem update_eq_ok {s : Server} {handler : ServerHandler P} {incoming : Incoming} {env : Env}
    {u : ServerUpdate P} (h : s.update handler incoming env = .ok u) :
    ∃ v : ServerUpdate P, incoming.datagrams.foldlM (fun u (clientAddr, datagram) =>
        u.handleDatagram handler clientAddr (recv datagram))
        (ServerUpdate.updateBuffers { server := s, env, events := [] }) = .ok v ∧
      u = (incoming.error.elim v fun error => v.tell (.error (.recv error))).sendPings := by
  unfold Server.update ServerUpdate.handlePackets at h
  obtain ⟨w, hpackets, hpings⟩ := exists_of_bind_ok h
  obtain ⟨v, hfold, herror⟩ := exists_of_bind_ok hpackets
  cases herror
  cases hpings
  exact ⟨v, hfold, rfl⟩

/-- Handling datagrams one after the other is a run. -/
theorem handleDatagrams_run {handler : ServerHandler P} {datagrams : List (SocketAddr × Bytes)}
    {u v : ServerUpdate P}
    (h : datagrams.foldlM (fun u (clientAddr, datagram) =>
      u.handleDatagram handler clientAddr (recv datagram)) u = Except.ok (ε := Abort) v) : Run u v := by
  refine Vec.foldlM_rule (fun u => Relation.ReflTransGen.refl) (fun u v w => Run.trans)
    (fun u v datagram _ hdatagram => ?_) h
  exact Run.single (l := .datagram handler datagram.1 datagram.2) (toOption_eq_some.mpr hdatagram)

/-- **A call of `update` is a run.** -/
theorem update_run {u : ServerUpdate P} {handler : ServerHandler P} {incoming : Incoming} {env : Env}
    {u' : ServerUpdate P} (h : u.server.update handler incoming env.start = .ok u') : Run u u' := by
  obtain ⟨v, hfold, rfl⟩ := update_eq_ok h
  have hcall : Run u { u with env := env.start, events := [] } := .single (l := .call env) rfl
  have hbuffers : Run (P := P) { u with env := env.start, events := [] }
      (ServerUpdate.updateBuffers { server := u.server, env := env.start, events := [] }) :=
    .single (l := .updateBuffers) rfl
  refine hcall.trans (hbuffers.trans ((handleDatagrams_run hfold).trans ?_))
  cases incoming.error with
  | none => exact .single (l := .sendPings) rfl
  | some error =>
    exact (Run.single (l := .recvError error) rfl).trans (.single (l := .sendPings) rfl)

end ServerRun

end Ultinet
