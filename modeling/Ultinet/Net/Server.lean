import Ultinet.Lib.Vec
import Ultinet.Net.Connection

/-!
# The server

`net/server.rs`: a server listens to clients, which become connected when the server accepts them.
Connected clients have slots that are reused.

Each operation reads the clock and uses the socket through `Env`.  What a handler is told during a
call is recorded in order; the callbacks with an answer may depend on everything the handler was told
before.
-/

namespace Ultinet

/-! ## The handler -/

inductive UnexpectedClientPacket
  /-- Client can't know if it is compatible. -/
  | unknownCompatibility
  /-- Not connected to this client. -/
  | notConnected
  /-- Already connected to this client. -/
  | alreadyConnected
  deriving DecidableEq

/-- What a handler of a server is told or asked. -/
inductive ServerEvent (P : Packets)
  | rawPacket (packet : RawPacket)
  | error (error : HandlerError)
  | version
  | query (clientAddr : SocketAddr) (query : P.Query)
  | connect (clientAddr : SocketAddr) (connect : P.Connect)
  | disconnect (clientAddr : SocketAddr) (disconnect : P.Disconnect)
  | ping (clientAddr : SocketAddr)
  | pong (clientAddr : SocketAddr) (valid : Bool)
  | packet (clientAddr : SocketAddr) (packet : P.Client)
  | unexpected (clientAddr : SocketAddr) (unexpected : UnexpectedClientPacket)

/-- Whether a client is allowed to connect. -/
inductive Connect (P : Packets)
  | accept (accept : P.Accept)
  | reject (reject : P.Reject)

/-- A handler: its answers, after what it was told before. -/
structure ServerHandler (P : Packets) where
  version : List (ServerEvent P) → P.Version
  query : List (ServerEvent P) → SocketAddr → P.Query → P.Status
  connect : List (ServerEvent P) → SocketAddr → P.Connect → Connect P

namespace ServerHandler

/-- The handler that accepts all clients. -/
def default : ServerHandler DefaultPackets where
  version := fun _ => ()
  query := fun _ _ _ => ()
  connect := fun _ _ _ => .accept ()

end ServerHandler

/-! ## The server -/

variable {P : Packets}

/-- A ping that was sent to a client. -/
structure ActivePing where
  pingId : Uuid
  ping : ℕ

/-- A connected client. -/
structure ClientConnection where
  clientAddr : SocketAddr
  buffers : PacketBuffers
  /-- The current ping sent out to the client. -/
  activePing : Option ActivePing
  /-- The last time the client responded to a ping. -/
  lastPong : Option ℕ
  /-- How many pings the client has not responded to in a row. -/
  missedPongs : ℕ

/-- A client that was just accepted. -/
def ClientConnection.new (clientAddr : SocketAddr) (buffers : PacketBuffers) : ClientConnection where
  clientAddr
  buffers
  activePing := none
  lastPong := none
  missedPongs := 0

/-- A server. -/
structure Server where
  config : ServerConfig
  /-- All clients that the server is listening to, excluding the ones that are connected. -/
  listeners : SortedMap SocketAddr PacketBuffers
  /-- The slots of the clients that are connected to the server. -/
  clients : List (Option ClientConnection)

namespace Server

/-- A server without any clients. -/
def host (config : ServerConfig) : Server where
  config
  listeners := .empty
  clients := []

/-- The slot of a connected client, and the client. -/
def findClient (s : Server) (clientAddr : SocketAddr) : Option (ℕ × ClientConnection) :=
  (Vec.position (fun entry : Option ClientConnection =>
    entry.any fun client => decide (client.clientAddr = clientAddr)) s.clients).bind
    fun (index, entry) => entry.map (Prod.mk index)

/-- Set the slot of a client. -/
def setClient (s : Server) (index : ℕ) (entry : Option ClientConnection) : Server :=
  { s with clients := s.clients.set index entry }

/-- The client cannot be removed because it is connected. -/
inductive UnlistenError
  | unlistenError
  deriving DecidableEq

/-- Stop listening to a client. -/
def unlisten (s : Server) (clientAddr : SocketAddr) : Except UnlistenError Bool × Server :=
  if (s.listeners.get? clientAddr).isSome then
    (.ok true, { s with listeners := s.listeners.erase clientAddr })
  else if (s.findClient clientAddr).isSome then (.error .unlistenError, s)
  else (.ok false, s)

/-- Stop listening to all clients that are not connected. -/
def unlistenAll (s : Server) : Server :=
  { s with listeners := .empty }

/-- Put a client into the first free slot, or into a new one. -/
def addClient (s : Server) (client : ClientConnection) : Server :=
  match Vec.position Option.isNone s.clients with
  | some (index, _) => s.setClient index (some client)
  | none => { s with clients := s.clients ++ [some client] }

/-- Free the slot of a client and go on listening to it. -/
def disconnectClient (s : Server) (index : ℕ) (client : ClientConnection) : Server :=
  { s.setClient index none with
    listeners := s.listeners.insert client.clientAddr client.buffers }

variable [Rkyv P]

/-- Send a user-defined packet to a connected client, if it is one. -/
def send (s : Server) (clientAddr : SocketAddr) (packet : P.Server) (env : Env) :
    Exec (Option (IoResult PacketId) × Server × Env) :=
  match s.findClient clientAddr with
  | none => .ok (none, s, env)
  | some (index, client) => do
      let (result, buffers, env) ← client.buffers.send (Rkyv.serializeServer (.user packet))
        s.config.connection.backgroundSerializationThreshold clientAddr env
      return (some result, s.setClient index (some { client with buffers }), env)

end Server

/-! ## Updating -/

/-- A call of `update` in progress. -/
structure ServerUpdate (P : Packets) where
  server : Server
  env : Env
  /-- What the handler was told so far. -/
  events : List (ServerEvent P)

namespace ServerUpdate

/-- Tell the handler something. -/
def tell (u : ServerUpdate P) (event : ServerEvent P) : ServerUpdate P :=
  { u with events := u.events ++ [event] }

/-- Set the slot of a client. -/
def setClient (u : ServerUpdate P) (index : ℕ) (client : ClientConnection) : ServerUpdate P :=
  { u with server := u.server.setClient index (some client) }

/-- Set the buffers of a client the server is listening to. -/
def setListener (u : ServerUpdate P) (clientAddr : SocketAddr) (buffers : PacketBuffers) :
    ServerUpdate P :=
  { u with server :=
    { u.server with listeners := u.server.listeners.insert clientAddr buffers } }

/-- Free the slot of a client and go on listening to it. -/
def disconnectClient (u : ServerUpdate P) (index : ℕ) (client : ClientConnection) :
    ServerUpdate P :=
  { u with server := u.server.disconnectClient index client }

/-! ### The pass over the clients -/

/-- What the pass over the clients carries along. -/
structure Pass (P : Packets) where
  index : ℕ
  firstEmptySlot : ℕ
  env : Env
  events : List (ServerEvent P)

/-- Update the buffers of one client; its slot is freed if that fails. -/
def updateClient (config : ServerConfig) (pass : Pass P) (entry : Option ClientConnection) :
    Pass P × Option ClientConnection :=
  match entry with
  | none => ({ pass with index := pass.index + 1 }, none)
  | some client =>
      let (result, buffers, env) := client.buffers.update config.connection.resendDelay
        config.connection.maxMissedAcks config.connection.receiveTimeout client.clientAddr pass.env
      let pass := { pass with index := pass.index + 1, firstEmptySlot := pass.index + 1, env }
      match result with
      | .ok () => (pass, some { client with buffers })
      | .error error =>
          ({ pass with events := pass.events ++ [.error (.send client.clientAddr error)] }, none)

/-- Update the buffers of all clients, and drop the free slots at the end. -/
def updateBuffers (u : ServerUpdate P) : ServerUpdate P :=
  let (pass, clients) := Vec.mapState (updateClient u.server.config)
    { index := 0, firstEmptySlot := 0, env := u.env, events := u.events } u.server.clients
  { server := { u.server with clients := clients.take pass.firstEmptySlot }
    env := pass.env
    events := pass.events }

/-! ### The receive loop -/

/-- A client asks for the version.  If the answer is sent then the server listens to the client. -/
def handleVersionRequest (handler : ServerHandler P) (u : ServerUpdate P) (clientAddr : SocketAddr) :
    ServerUpdate P :=
  let version := VersionPacket.write (handler.version u.events)
  let u := u.tell .version
  match u.env.send clientAddr (PacketKind.version.toByte :: version.val) with
  | (.ok sent, env) =>
      let u := { u with env }
      if sent ∧ u.server.listeners.get? clientAddr = none ∧
          u.server.findClient clientAddr = none then
        u.setListener clientAddr (.new u.server.config.connection.initialSendBatchSize)
      else u
  | (.error error, env) => { u with env }.tell (.error (.send clientAddr error))

/-- A connected client answers a ping. -/
def handlePong (u : ServerUpdate P) (index : ℕ) (client : ClientConnection) (data : Bytes) :
    ServerUpdate P :=
  match client.activePing with
  | none => u.tell (.pong client.clientAddr false)
  | some activePing =>
      match Uuid.fromSlice data with
      | none => u.tell (.error (.handle client.clientAddr .malformed))
      | some pingId =>
          if pingId = activePing.pingId then
            let client := { client with lastPong := some u.env.now, missedPongs := 0 }
            (u.setClient index client).tell (.pong client.clientAddr true)
          else u.tell (.pong client.clientAddr false)

section Receive

variable [Rkyv P]

/-- Let the buffers handle a datagram.  The packet is one that was reassembled and validated. -/
def handleBuffers (u : ServerUpdate P) (buffers : PacketBuffers) (clientAddr : SocketAddr)
    (buf : Bytes) : Exec (Option (ClientConnectionPacket P) × PacketBuffers × ServerUpdate P) := do
  let (result, buffers, env) ← buffers.handle buf clientAddr u.env
  let u := { u with env }
  match result with
  | .error error => return (none, buffers, u.tell (.error (.handle clientAddr error)))
  | .ok (.received .pending) =>
      return (none, buffers, u.tell (.rawPacket (.part clientAddr .pending)))
  | .ok (.received .duplicate) =>
      return (none, buffers, u.tell (.rawPacket (.part clientAddr .duplicate)))
  | .ok (.received (.reassembled bytes)) =>
      let u := u.tell (.rawPacket (.part clientAddr .reassembled))
      match ← Rkyv.checkClient bytes with
      | .ok packet => return (some packet, buffers, u)
      | .error error => return (none, buffers, u.tell (.error (.packetValidation clientAddr error)))
  | .ok (.done knownPacket) =>
      return (none, buffers, u.tell (.rawPacket (.done clientAddr knownPacket)))
  | .ok (.ack duplicate) =>
      return (none, buffers, u.tell (.rawPacket (.ack clientAddr duplicate)))

/-- Send a packet to a client. -/
def sendPacket (u : ServerUpdate P) (buffers : PacketBuffers) (clientAddr : SocketAddr)
    (packet : ServerConnectionPacket P) : Exec (IoResult PacketId × PacketBuffers × ServerUpdate P) :=
  do
    let (result, buffers, env) ← buffers.send (Rkyv.serializeServer packet)
      u.server.config.connection.backgroundSerializationThreshold clientAddr u.env
    let u := { u with env }
    match result with
    | .error error => return (.error error, buffers, u.tell (.error (.send clientAddr error)))
    | .ok packetId => return (.ok packetId, buffers, u)

/-- A packet from a connected client. -/
def handleClientPacket (handler : ServerHandler P) (u : ServerUpdate P) (index : ℕ)
    (client : ClientConnection) :
    ClientConnectionPacket P → Exec (ServerUpdate P)
  | .query query => do
      let status := handler.query u.events client.clientAddr query
      let u := u.tell (.query client.clientAddr query)
      let (result, buffers, u) ← u.sendPacket client.buffers client.clientAddr (.status status)
      let client := { client with buffers }
      match result with
      | .error _ => return u.disconnectClient index client
      | .ok _ => return u.setClient index client
  | .connect _ =>
      .ok ((u.tell (.unexpected client.clientAddr .alreadyConnected)).disconnectClient index client)
  | .disconnect disconnect =>
      .ok ((u.tell (.disconnect client.clientAddr disconnect)).disconnectClient index client)
  | .user packet => .ok (u.tell (.packet client.clientAddr packet))

/-- A datagram from a connected client. -/
def handleClient (handler : ServerHandler P) (u : ServerUpdate P) (index : ℕ)
    (client : ClientConnection) (kind : UInt8) (data : Bytes) : Exec (ServerUpdate P) :=
  if PacketKind.tryFrom kind = some .ping then .ok (u.handlePong index client data)
  else do
    let (packet, buffers, u) ← u.handleBuffers client.buffers client.clientAddr (kind :: data)
    let client := { client with buffers }
    let u := u.setClient index client
    match packet with
    | none => return u
    | some packet => u.handleClientPacket handler index client packet

/-- A packet from a client that is not connected. -/
def handleListenerPacket (handler : ServerHandler P) (u : ServerUpdate P) (clientAddr : SocketAddr)
    (buffers : PacketBuffers) : ClientConnectionPacket P → Exec (ServerUpdate P)
  | .query query => do
      let status := handler.query u.events clientAddr query
      let u := u.tell (.query clientAddr query)
      let (_, buffers, u) ← u.sendPacket buffers clientAddr (.status status)
      return u.setListener clientAddr buffers
  | .connect connect =>
      let u' := u.tell (.connect clientAddr connect)
      match handler.connect u.events clientAddr connect with
      | .accept accept => do
          let (result, buffers, u) ← u'.sendPacket buffers clientAddr (.accept accept)
          let u := u.setListener clientAddr buffers
          match result with
          | .error _ => return u
          | .ok _ =>
              let listeners := u.server.listeners.erase clientAddr
              let client := ClientConnection.new clientAddr buffers
              return { u with server := { u.server with listeners }.addClient client }
      | .reject reject => do
          let (_, buffers, u) ← u'.sendPacket buffers clientAddr (.reject reject)
          return u.setListener clientAddr buffers
  | .disconnect _ | .user _ => .ok (u.tell (.unexpected clientAddr .notConnected))

/-- A datagram from a client that is not connected. -/
def handleListener (handler : ServerHandler P) (u : ServerUpdate P) (clientAddr : SocketAddr)
    (buffers : PacketBuffers) (buf : Bytes) : Exec (ServerUpdate P) := do
  let (packet, buffers, u) ← u.handleBuffers buffers clientAddr buf
  let u := u.setListener clientAddr buffers
  match packet with
  | none => return u
  | some packet => u.handleListenerPacket handler clientAddr buffers packet

/-- A datagram arrives. -/
def handleDatagram (handler : ServerHandler P) (u : ServerUpdate P) (clientAddr : SocketAddr)
    (buf : Bytes) : Exec (ServerUpdate P) :=
  match buf with
  | [] => .ok (u.handleVersionRequest handler clientAddr)
  | kind :: data =>
      -- look for clients first (most packets should generally come from connected clients)
      match u.server.findClient clientAddr with
      | some (index, client) => u.handleClient handler index client kind data
      | none =>
          match u.server.listeners.get? clientAddr with
          | some buffers => u.handleListener handler clientAddr buffers (kind :: data)
          | none => .ok (u.tell (.unexpected clientAddr .unknownCompatibility))

/-- Handle the datagrams that arrive, until there are no more or the socket fails. -/
def handlePackets (handler : ServerHandler P) (u : ServerUpdate P) (incoming : Incoming) :
    Exec (ServerUpdate P) := do
  let u ← incoming.datagrams.foldlM (fun u (clientAddr, datagram) =>
    u.handleDatagram handler clientAddr (recv datagram)) u
  return incoming.error.elim u fun error => u.tell (.error (.recv error))

end Receive

/-! ### Pings -/

/-- The datagram of a ping. -/
def pingDatagram (pingId : Uuid) : Bytes :=
  PacketKind.ping.toByte :: pingId.bytes

/-- Ping one client if it is time to; its slot is freed if it missed too many pings or the ping cannot
be sent. -/
def sendPing (config : ServerConfig) (pass : Env × List (ServerEvent P))
    (entry : Option ClientConnection) : (Env × List (ServerEvent P)) × Option ClientConnection :=
  let (env, events) := pass
  match entry with
  | none => (pass, none)
  | some client =>
      let pingDue := client.activePing.all fun activePing =>
        config.pingDelay ≤ elapsed env.now activePing.ping
      if !pingDue then (pass, some client)
      else
        let missed := client.activePing.isSome && client.lastPong.isNone
        -- the source's counter saturates, at a number of pings that no run reaches
        let missedPongs := if missed then client.missedPongs + 1 else client.missedPongs
        if missed && config.maxMissedPongs.any (fun max => max < missedPongs) then
          ((env, events ++ [.error (.timeout client.clientAddr)]), none)
        else
          let client := { client with activePing := none, lastPong := none, missedPongs }
          let (pingId, env) := env.newUuid
          match env.send client.clientAddr (pingDatagram pingId) with
          | (.ok true, env) =>
              let activePing := some { pingId, ping := env.now }
              ((env, events ++ [.ping client.clientAddr]), some { client with activePing })
          | (.ok false, env) => ((env, events), some client)
          | (.error error, env) =>
              ((env, events ++ [.error (.send client.clientAddr error)]), none)

/-- Ping all clients. -/
def sendPings (u : ServerUpdate P) : ServerUpdate P :=
  let ((env, events), clients) :=
    Vec.mapState (sendPing u.server.config) (u.env, u.events) u.server.clients
  { server := { u.server with clients }, env, events }

end ServerUpdate

namespace Server

variable [Rkyv P]

/-- Update the buffers of the clients, handle the datagrams that arrive and ping the clients. -/
def update (s : Server) (handler : ServerHandler P) (incoming : Incoming) (env : Env) :
    Exec (ServerUpdate P) := do
  let u : ServerUpdate P := { server := s, env, events := [] }
  let u ← u.updateBuffers.handlePackets handler incoming
  return u.sendPings

end Server

end Ultinet
