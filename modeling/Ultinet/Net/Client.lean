import Ultinet.Lib.Vec
import Ultinet.Net.Connection

/-!
# The client

`net/client.rs`: a client listens to servers and is connected to at most one of them.

Each operation reads the clock and uses the socket through `Env`.  Operations that may panic have
results in `Exec`; a call that panics leaves no state behind.  What a handler is told during a call
is recorded in order; the only callback with an answer is `compatibility`, which may depend on
everything the handler was told before.
-/

namespace Ultinet

/-! ## States and errors -/

/-- The state of the connection. -/
inductive ClientState
  /-- Client is not connected to a server. -/
  | disconnected
  /-- Client is awaiting acceptance by the server. -/
  | connecting
  /-- Client was accepted by the server and is connected. -/
  | connected
  /-- Client is waiting for the server to acknowledge it has disconnected. -/
  | disconnecting
  deriving DecidableEq

/-- The compatibility to a server. -/
inductive Compatibility (P : Packets)
  | pending
  | compatible
  | incompatible (error : P.CompatibilityError)

inductive UnexpectedServerPacket
  /-- Not listening to this server. -/
  | unknownServer
  /-- Not connected to this server. -/
  | notConnected
  /-- Incompatible with this server. -/
  | incompatible
  /-- Empty packet. -/
  | emptyPacket
  /-- Packet before compatible check. -/
  | pendingCompatibility
  /-- Malformed version packet. -/
  | malformedVersion
  deriving DecidableEq

inductive ForgetError
  /-- Client is not disconnected from this server. -/
  | notDisconnected
  /-- Client was not listening to this server. -/
  | unknownServer
  deriving DecidableEq

inductive CompatibilityError
  /-- Compatibility to the server has not yet been determined. -/
  | compatibilityPending
  /-- Server is incompatible with the client. -/
  | incompatible
  deriving DecidableEq

inductive QueryError
  | compatibility (error : CompatibilityError)
  | io (error : IoError)
  deriving DecidableEq

inductive ConnectError
  | compatibility (error : CompatibilityError)
  /-- Client can only connect while fully disconnected. -/
  | notDisconnected
  | io (error : IoError)
  deriving DecidableEq

inductive SendError
  /-- Client can only send packets while connected. -/
  | notConnected
  | io (error : IoError)
  deriving DecidableEq

/-! ## The handler -/

/-- What a handler of a client is told. -/
inductive ClientEvent (P : Packets)
  | rawPacket (packet : RawPacket)
  | error (error : HandlerError)
  | compatibility (version : P.Version)
  | status (serverAddr : SocketAddr) (status : P.Status)
  | accept (accept : P.Accept)
  | reject (reject : P.Reject)
  | kick (kick : P.Kick)
  | ping
  | packet (packet : P.Server)
  | unexpected (serverAddr : SocketAddr) (unexpected : UnexpectedServerPacket)

/-- A handler: whether the client is compatible with a version, after what it was told before. -/
structure ClientHandler (P : Packets) where
  compatibility : List (ClientEvent P) → P.Version → Except P.CompatibilityError Unit

namespace ClientHandler

/-- The handler that is compatible with every version. -/
def default (P : Packets) : ClientHandler P where
  compatibility := fun _ _ => .ok ()

end ClientHandler

/-! ## Servers the client listens to -/

variable {P : Packets}

/-- What is known about a server. -/
inductive ServerState (P : Packets)
  | pendingVersion (lastVersionQuery : Option ℕ)
  | compatible (buffers : PacketBuffers) (lastInteraction : ℕ)
  | incompatible (error : P.CompatibilityError)

/-- Whether a server was found to be compatible. -/
def ServerState.isCompatible : ServerState P → Bool
  | .compatible _ _ => true
  | _ => false

/-- Ask a server for its version. -/
def sendVersionQuery (serverAddr : SocketAddr) (env : Env) : IoResult Bool × Env :=
  env.send serverAddr []

/-- A server the client listens to. -/
structure ServerListener (P : Packets) where
  serverAddr : SocketAddr
  state : ServerState P

namespace ServerListener

/-- The state of a server that was just asked for its version. -/
def pendingVersionQuery (serverAddr : SocketAddr) (env : Env) : IoResult (ServerState P) × Env :=
  match sendVersionQuery serverAddr env with
  | (.error error, env) => (.error error, env)
  | (.ok sent, env) => (.ok (.pendingVersion (if sent then some env.now else none)), env)

/-- Start to listen to a server. -/
def new (serverAddr : SocketAddr) (env : Env) : IoResult (ServerListener P) × Env :=
  match pendingVersionQuery serverAddr env with
  | (.error error, env) => (.error error, env)
  | (.ok state, env) => (.ok { serverAddr, state }, env)

/-- Ask the server for its version again, forgetting what is known about it. -/
def refresh (l : ServerListener P) (env : Env) : IoResult Unit × ServerListener P × Env :=
  match pendingVersionQuery l.serverAddr env with
  | (.error error, env) => (.error error, l, env)
  | (.ok state, env) => (.ok (), { l with state }, env)

/-- The compatibility to the server. -/
def compatibility (l : ServerListener P) : Compatibility P :=
  match l.state with
  | .pendingVersion _ => .pending
  | .compatible _ _ => .compatible
  | .incompatible error => .incompatible error

/-- Time out old packets and (re)send pending ones, including version queries.  `state` is the state
of the connection, if this is the listener of the connected server.  The listener is kept unless an
error occurs, which is answered too. -/
def update (l : ServerListener P) (state : Option ClientState) (config : ClientConfig) (env : Env) :
    Option (ServerListener P) × Option ClientState × Option IoError × Env :=
  match l.state with
  | .pendingVersion lastVersionQuery =>
      if lastVersionQuery.any fun it => config.connection.resendDelay ≤ elapsed env.now it then
        match sendVersionQuery l.serverAddr env with
        | (.ok sent, env) =>
            let lastVersionQuery := if sent then some env.now else lastVersionQuery
            (some { l with state := .pendingVersion lastVersionQuery }, state, none, env)
        | (.error error, env) => (none, state, some error, env)
      else (some l, state, none, env)
  | .compatible buffers lastInteraction =>
      match buffers.update config.connection.resendDelay config.connection.maxMissedAcks
        config.connection.receiveTimeout l.serverAddr env with
      | (.error error, _, env) => (none, state.map fun _ => .disconnected, some error, env)
      | (.ok (), buffers, env) =>
          (some { l with state := .compatible buffers lastInteraction }, state, none, env)
  | .incompatible _ => (some l, state, none, env)

end ServerListener

/-! ## The operations of a client -/

/-- A client. -/
structure Client (P : Packets) where
  config : ClientConfig
  state : ClientState
  /-- The servers that the client is listening to.

  Unless `state` is `disconnected`, the first entry contains the connection to the server that the
  client is currently connected to.  All other entries are just used for status queries. -/
  listeners : List (ServerListener P)

namespace Client

/-- A client that does not listen to any server. -/
def new (config : ClientConfig) : Client P where
  config
  state := .disconnected
  listeners := []

/-- Replace a listener. -/
def setListener (c : Client P) (index : ℕ) (listener : ServerListener P) : Client P :=
  { c with listeners := c.listeners.set index listener }

section SetListener

variable (c : Client P) (index : ℕ) (listener : ServerListener P)

@[simp] theorem setListener_state : (c.setListener index listener).state = c.state := rfl

@[simp] theorem setListener_config : (c.setListener index listener).config = c.config := rfl

@[simp] theorem setListener_listeners :
    (c.setListener index listener).listeners = c.listeners.set index listener := rfl

end SetListener

/-- The position of the listener of a server, and the listener. -/
def position (c : Client P) (serverAddr : SocketAddr) : Option (ℕ × ServerListener P) :=
  Vec.position (fun server => decide (server.serverAddr = serverAddr)) c.listeners

/-- The server to which the client is connected to (or trying to connect to/disconnect from). -/
def serverAddr (c : Client P) : Exec (Option SocketAddr) :=
  match c.state with
  | .disconnected => .ok none
  | .connecting | .connected | .disconnecting =>
      match c.listeners.head? with
      | none => .error (.panic "servers should not be empty")
      | some server => .ok (some server.serverAddr)

/-- The compatibility to the given server. -/
def compatibility (c : Client P) (serverAddr : SocketAddr) : Option (Compatibility P) :=
  (c.position serverAddr).map fun found => found.2.compatibility

/-- The listener of a server with its position, which is added if it is missing. -/
def getOrAddListener (c : Client P) (serverAddr : SocketAddr) (env : Env) :
    IoResult (ℕ × ServerListener P) × Client P × Env :=
  match c.position serverAddr with
  | some found => (.ok found, c, env)
  | none =>
      match ServerListener.new serverAddr env with
      | (.error error, env) => (.error error, c, env)
      | (.ok listener, env) =>
          (.ok (c.listeners.length, listener),
            { c with listeners := c.listeners ++ [listener] }, env)

/-- Start sending version requests to the server if its compatibility is not known yet. -/
def listen (c : Client P) (serverAddr : SocketAddr) (env : Env) :
    IoResult (Compatibility P) × Client P × Env :=
  match c.getOrAddListener serverAddr env with
  | (.error error, c, env) => (.error error, c, env)
  | (.ok (_, listener), c, env) => (.ok listener.compatibility, c, env)

/-- Stop listening to the given server.  Only works if the client is disconnected from it. -/
def forget (c : Client P) (serverAddr : SocketAddr) : Except ForgetError Unit × Client P :=
  match c.position serverAddr with
  | none => (.error .unknownServer, c)
  | some (index, _) =>
      if index = 0 ∧ c.state ≠ .disconnected then (.error .notDisconnected, c)
      else (.ok (), { c with listeners := Vec.swapRemove c.listeners index })

/-- Stop listening to all disconnected servers. -/
def forgetAll (c : Client P) : Exec (Client P) :=
  if c.state = .disconnected then .ok { c with listeners := [] }
  else
    match c.listeners with
    | [] => .error (.panic "slice index starts at 1 but ends at 0")
    | listener :: _ => .ok { c with listeners := [listener] }

/-- Refresh listeners one after the other, until a version query fails. -/
def refreshListeners : List (ServerListener P) → Env →
    IoResult Unit × List (ServerListener P) × Env
  | [], env => (.ok (), [], env)
  | listener :: listeners, env =>
      match listener.refresh env with
      | (.error error, listener, env) => (.error error, listener :: listeners, env)
      | (.ok (), listener, env) =>
          let (result, listeners, env) := refreshListeners listeners env
          (result, listener :: listeners, env)

/-- Reset the compatibility of all servers. -/
def refreshAll (c : Client P) (env : Env) : IoResult Unit × Client P × Env :=
  let (result, listeners, env) := refreshListeners c.listeners env
  (result, { c with listeners }, env)

section Sending

variable [Rkyv P]

/-- Send a query to the given server. -/
def query (c : Client P) (serverAddr : SocketAddr) (query : P.Query) (env : Env) :
    Exec (Except QueryError PacketId × Client P × Env) :=
  match c.getOrAddListener serverAddr env with
  | (.error error, c, env) => .ok (.error (.io error), c, env)
  | (.ok (index, listener), c, env) =>
      match listener.state with
      | .pendingVersion _ => .ok (.error (.compatibility .compatibilityPending), c, env)
      | .compatible buffers lastInteraction => do
          let (result, buffers, env) ← buffers.send (Rkyv.serializeClient (.query query))
            c.config.connection.backgroundSerializationThreshold serverAddr env
          let c := c.setListener index { listener with state := .compatible buffers lastInteraction }
          return (result.mapError .io, c, env)
      | .incompatible _ => .ok (.error (.compatibility .incompatible), c, env)

/-- Try to connect to a server.  `peer` is what connecting the socket and asking for the address of
its peer answers. -/
def connect (c : Client P) (peer : IoResult SocketAddr) (connect : P.Connect) (env : Env) :
    Exec (Except ConnectError PacketId × Client P × Env) :=
  if c.state = .disconnected then
    match peer with
    | .error error => .ok (.error (.io error), c, env)
    | .ok serverAddr =>
        match c.getOrAddListener serverAddr env with
        | (.error error, c, env) => .ok (.error (.io error), c, env)
        | (.ok (index, listener), c, env) =>
            match listener.state with
            | .pendingVersion _ => .ok (.error (.compatibility .compatibilityPending), c, env)
            | .compatible buffers lastInteraction => do
                let (result, buffers, env) ← buffers.send (Rkyv.serializeClient (.connect connect))
                  c.config.connection.backgroundSerializationThreshold serverAddr env
                let c := c.setListener index
                  { listener with state := .compatible buffers lastInteraction }
                match result with
                | .error error => return (.error (.io error), c, env)
                | .ok packetId => return (.ok packetId, { c with state := .connecting }, env)
            | .incompatible _ => .ok (.error (.compatibility .incompatible), c, env)
  else .ok (.error .notDisconnected, c, env)

/-- Send a packet to the connected server.  `state` is the state of the connection afterwards; if the
packet cannot be sent then the client stops listening to the server and is disconnected. -/
def sendConnected (c : Client P) (packet : ClientConnectionPacket P) (state : ClientState)
    (env : Env) : Exec (Except SendError PacketId × Client P × Env) :=
  if c.state = .connected then
    match c.listeners with
    | [] => .error (.panic "index out of bounds: the len is 0 but the index is 0")
    | listener :: _ =>
        match listener.state with
        | .compatible buffers lastInteraction => do
            let (result, buffers, env) ← buffers.send (Rkyv.serializeClient packet)
              c.config.connection.backgroundSerializationThreshold listener.serverAddr env
            let c := c.setListener 0 { listener with state := .compatible buffers lastInteraction }
            match result with
            | .ok packetId => return (.ok packetId, { c with state }, env)
            | .error error =>
                let listeners := Vec.swapRemove c.listeners 0
                return (.error (.io error), { c with state := .disconnected, listeners }, env)
        | .pendingVersion _ | .incompatible _ =>
            .error (.panic "connected server should be compatible")
  else .ok (.error .notConnected, c, env)

/-- Disconnect from the server. -/
def disconnect (c : Client P) (disconnect : P.Disconnect) (env : Env) :
    Exec (Except SendError PacketId × Client P × Env) :=
  c.sendConnected (.disconnect disconnect) .disconnecting env

/-- Send a user-defined packet to the server. -/
def send (c : Client P) (packet : P.Client) (env : Env) :
    Exec (Except SendError PacketId × Client P × Env) :=
  c.sendConnected (.user packet) .connected env

end Sending

end Client

/-! ## Updating -/

/-- A call of `update` in progress. -/
structure ClientUpdate (P : Packets) where
  client : Client P
  env : Env
  /-- What the handler was told so far. -/
  events : List (ClientEvent P)

namespace ClientUpdate

/-- Tell the handler something. -/
def tell (u : ClientUpdate P) (event : ClientEvent P) : ClientUpdate P :=
  { u with events := u.events ++ [event] }

/-- Change the state of the connection. -/
def setState (u : ClientUpdate P) (state : ClientState) : ClientUpdate P :=
  { u with client := { u.client with state } }

/-- Replace a listener. -/
def setListener (u : ClientUpdate P) (index : ℕ) (listener : ServerListener P) : ClientUpdate P :=
  { u with client := u.client.setListener index listener }

section Fields

variable (u : ClientUpdate P) (event : ClientEvent P) (state : ClientState) (index : ℕ)
  (listener : ServerListener P)

@[simp] theorem tell_client : (u.tell event).client = u.client := rfl

@[simp] theorem tell_env : (u.tell event).env = u.env := rfl

@[simp] theorem setState_client :
    (u.setState state).client = { u.client with state } := rfl

@[simp] theorem setState_env : (u.setState state).env = u.env := rfl

@[simp] theorem setListener_client :
    (u.setListener index listener).client = u.client.setListener index listener := rfl

@[simp] theorem setListener_env : (u.setListener index listener).env = u.env := rfl

end Fields

/-! ### The pass over the listeners -/

/-- What the pass over the listeners carries along. -/
structure Pass (P : Packets) where
  /-- Whether the next listener is the one of the connected server. -/
  connected : Bool
  state : ClientState
  env : Env
  events : List (ClientEvent P)

/-- Update one listener. -/
def visitListener (config : ClientConfig) (pass : Pass P) (listener : ServerListener P) :
    Pass P × Option (ServerListener P) :=
  let (kept, state, error, env) :=
    listener.update (if pass.connected then some pass.state else none) config pass.env
  let events := error.toList.map fun error => .error (.send listener.serverAddr error)
  ({ connected := false
     state := state.getD pass.state
     env
     events := pass.events ++ events }, kept)

/-- Update the listeners; only the first one may change the state of the connection. -/
def updateListeners (u : ClientUpdate P) : ClientUpdate P :=
  let (pass, listeners) := Vec.retainMut (visitListener u.client.config)
    { connected := u.client.state ≠ .disconnected
      state := u.client.state
      env := u.env
      events := u.events } u.client.listeners
  { client := { u.client with state := pass.state, listeners }
    env := pass.env
    events := pass.events }

/-! ### The receive loop -/

/-- A datagram from a server that was asked for its version. -/
def handleVersion (handler : ClientHandler P) (u : ClientUpdate P) (index : ℕ)
    (listener : ServerListener P) (buf : Bytes) : ClientUpdate P :=
  match buf with
  | [] => u.tell (.unexpected listener.serverAddr .emptyPacket)
  | kind :: data =>
      if PacketKind.tryFrom kind = some .version then
        match VersionPacket.read data with
        | none => u.tell (.unexpected listener.serverAddr .malformedVersion)
        | some version =>
            let u' := u.tell (.compatibility version)
            match handler.compatibility u.events version with
            | .ok () =>
                let buffers := .new u.client.config.connection.initialSendBatchSize
                u'.setListener index { listener with state := .compatible buffers u.env.now }
            | .error error => u'.setListener index { listener with state := .incompatible error }
      else u.tell (.unexpected listener.serverAddr .pendingCompatibility)

/-- A ping from the connected server is sent back. -/
def handlePing (u : ClientUpdate P) (serverAddr : SocketAddr) (buf : Bytes) : ClientUpdate P :=
  let u := u.tell .ping
  match u.env.send serverAddr buf with
  | (.ok _, env) => { u with env }
  | (.error error, env) =>
      ({ u with env }.tell (.error (.send serverAddr error))).setState .disconnected

/-- A packet of the server that the client is only supposed to get in a state of the connection. -/
def handleInState (u : ClientUpdate P) (serverAddr : SocketAddr) (isConnectionListener : Bool)
    (state : ClientState) (event : ClientEvent P) (next : ClientState) : ClientUpdate P :=
  if isConnectionListener ∧ u.client.state = state then (u.tell event).setState next
  else u.tell (.unexpected serverAddr .notConnected)

/-- A packet of the server was reassembled and validated. -/
def handlePacket (u : ClientUpdate P) (serverAddr : SocketAddr) (isConnectionListener : Bool) :
    ServerConnectionPacket P → ClientUpdate P
  | .status status => u.tell (.status serverAddr status)
  | .accept accept =>
      u.handleInState serverAddr isConnectionListener .connecting (.accept accept) .connected
  | .reject reject =>
      u.handleInState serverAddr isConnectionListener .connecting (.reject reject) .disconnected
  | .kick kick =>
      u.handleInState serverAddr isConnectionListener .connected (.kick kick) .disconnected
  | .user packet =>
      u.handleInState serverAddr isConnectionListener .connected (.packet packet) .connected

section Receive

variable [Rkyv P]

/-- What the buffers made of a datagram. -/
def handleResult (u : ClientUpdate P) (serverAddr : SocketAddr) (isConnectionListener : Bool) :
    Except HandlePacketError PacketHandling → Exec (ClientUpdate P)
  | .error error => .ok (u.tell (.error (.handle serverAddr error)))
  | .ok (.received .pending) => .ok (u.tell (.rawPacket (.part serverAddr .pending)))
  | .ok (.received .duplicate) => .ok (u.tell (.rawPacket (.part serverAddr .duplicate)))
  | .ok (.received (.reassembled bytes)) => do
      let u := u.tell (.rawPacket (.part serverAddr .reassembled))
      match ← Rkyv.checkServer bytes with
      | .error error => return u.tell (.error (.packetValidation serverAddr error))
      | .ok packet => return u.handlePacket serverAddr isConnectionListener packet
  | .ok (.done knownPacket) => .ok (u.tell (.rawPacket (.done serverAddr knownPacket)))
  | .ok (.ack duplicate) => .ok (u.tell (.rawPacket (.ack serverAddr duplicate)))

/-- A datagram from a compatible server. -/
def handleCompatible (u : ClientUpdate P) (isConnectionListener : Bool) (index : ℕ)
    (listener : ServerListener P) (buffers : PacketBuffers) (buf : Bytes) :
    Exec (ClientUpdate P) := do
  let u := u.setListener index { listener with state := .compatible buffers u.env.now }
  if isConnectionListener ∧ buf.head?.bind PacketKind.tryFrom = some .ping then
    return u.handlePing listener.serverAddr buf
  let (result, buffers, env) ← buffers.handle buf listener.serverAddr u.env
  let u := u.setListener index { listener with state := .compatible buffers u.env.now }
  { u with env }.handleResult listener.serverAddr isConnectionListener result

/-- A datagram arrives. -/
def handleDatagram (handler : ClientHandler P) (u : ClientUpdate P) (serverAddr : SocketAddr)
    (buf : Bytes) : Exec (ClientUpdate P) :=
  match u.client.position serverAddr with
  | none => .ok (u.tell (.unexpected serverAddr .unknownServer))
  | some (index, listener) =>
      -- if there is a connection, the first entry is the connected server
      let isConnectionListener := decide (index = 0 ∧ u.client.state ≠ .disconnected)
      match listener.state with
      | .pendingVersion _ => .ok (u.handleVersion handler index listener buf)
      | .compatible buffers _ => u.handleCompatible isConnectionListener index listener buffers buf
      | .incompatible _ => .ok (u.tell (.unexpected serverAddr .incompatible))

/-- Handle the datagrams that arrive, until there are no more or the socket fails. -/
def receive (handler : ClientHandler P) (u : ClientUpdate P) (incoming : Incoming) :
    Exec (ClientUpdate P) := do
  let u ← incoming.datagrams.foldlM (fun u (serverAddr, datagram) =>
    u.handleDatagram handler serverAddr (recv datagram)) u
  return incoming.error.elim u fun error => u.tell (.error (.recv error))

end Receive

/-! ### Timeouts -/

/-- Drop a listener whose server was silent for too long, which ends the connection. -/
def timeoutListener (timeout : Option ℕ) (now : ℕ) (pass : ClientState × List (ClientEvent P))
    (listener : ServerListener P) :
    (ClientState × List (ClientEvent P)) × Option (ServerListener P) :=
  match listener.state with
  | .compatible _ lastInteraction =>
      if timeout.any fun timeout => timeout < elapsed now lastInteraction then
        ((.disconnected, pass.2 ++ [.error (.timeout listener.serverAddr)]), none)
      else (pass, some listener)
  | .pendingVersion _ | .incompatible _ => (pass, some listener)

/-- Drop the listeners whose servers were silent for too long. -/
def timeoutConnection (u : ClientUpdate P) : ClientUpdate P :=
  let ((state, events), listeners) :=
    Vec.retainMut (timeoutListener u.client.config.timeout u.env.now)
      (u.client.state, u.events) u.client.listeners
  { u with client := { u.client with state, listeners }, events }

end ClientUpdate

namespace Client

variable [Rkyv P]

/-- Update the listeners, handle the datagrams that arrive and time out the connection. -/
def update (c : Client P) (handler : ClientHandler P) (incoming : Incoming) (env : Env) :
    Exec (ClientUpdate P) := do
  let u : ClientUpdate P := { client := c, env, events := [] }
  let u ← u.updateListeners.receive handler incoming
  return u.timeoutConnection

end Client

end Ultinet
