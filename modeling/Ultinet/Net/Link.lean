import Ultinet.Lib.GuardedRun
import Ultinet.Net.ClientSystem
import Ultinet.Net.ServerSystem
import Ultinet.Packet.SinglePart

/-!
# A client, a server and the network between them

A client that listens to a single server, and that server, which may have other clients.  Everything
the client and the server ever sent to each other stays in the network, and any of it may arrive at
any time and any number of times.

The passes of an update are steps of their own, and so is each datagram that arrives, so the runs of
this system contain every interleaving of updates and calls (`clientUpdate_run`, `serverUpdate_run`).

The two logs are the datagrams from which the client and the server reassembled a packet of each
other.
-/

namespace Ultinet

variable {P : Packets}

/-! ## The system -/

/-- A client, a server and the network between them. -/
structure Link (P : Packets) where
  client : Client P
  server : Server
  toServer : List Bytes
  toClient : List Bytes
  clientLog : List Bytes
  serverLog : List Bytes

/-- What can happen next.  A pass of an update goes on with the events the handler was told before. -/
inductive LinkEvent (P : Packets)
  | listen (env : Env)
  | query (query : P.Query) (env : Env)
  | connect (connect : P.Connect) (env : Env)
  | disconnect (disconnect : P.Disconnect) (env : Env)
  | send (packet : P.Client) (env : Env)
  | forget (addr : SocketAddr)
  | forgetAll
  | clientListeners (env : Env) (events : List (ClientEvent P))
  | clientReceives (handler : ClientHandler P) (sender : SocketAddr) (buf : Bytes) (env : Env)
      (events : List (ClientEvent P))
  | clientTimeouts (env : Env) (events : List (ClientEvent P))
  | unlisten (addr : SocketAddr)
  | unlistenAll
  | serverSend (receiver : SocketAddr) (packet : P.Server) (env : Env)
  | serverBuffers (env : Env) (events : List (ServerEvent P))
  | serverReceives (handler : ServerHandler P) (sender : SocketAddr) (buf : Bytes) (env : Env)
      (events : List (ServerEvent P))
  | serverPings (env : Env) (events : List (ServerEvent P))

/-- The datagrams that were sent to an address since an earlier moment of a call. -/
def sentTo (addr : SocketAddr) (earlier env : Env) : List Bytes :=
  ((env.sent.drop earlier.sent.length).filter fun datagram => decide (datagram.1 = addr)).map Prod.snd

/-- Whatever is sent to an address has a property, and neither the clock nor what the socket
answers changes. -/
structure Env.Tells (env : Env) (addr : SocketAddr) (H : Bytes → Prop) (env' : Env) : Prop where
  now : env'.now = env.now
  answer : env'.answer = env.answer
  sent : ∃ new, env'.sent = env.sent ++ new ∧ ∀ datagram ∈ new, datagram.1 = addr → H datagram.2

namespace Env.Tells

variable {env env' env'' : Env} {addr addr' : SocketAddr} {H H' : Bytes → Prop}

/-- Nothing is sent. -/
theorem refl (env : Env) : env.Tells addr H env :=
  ⟨rfl, rfl, [], by simp, by simp⟩

/-- What is sent after each other. -/
theorem trans (h : env.Tells addr H env') (h' : env'.Tells addr H env'') :
    env.Tells addr H env'' := by
  obtain ⟨new, hsent, hnew⟩ := h.sent
  obtain ⟨new', hsent', hnew'⟩ := h'.sent
  refine ⟨h'.now.trans h.now, h'.answer.trans h.answer, new ++ new',
    by rw [hsent', hsent, List.append_assoc], fun datagram hmem => ?_⟩
  rcases List.mem_append.mp hmem with hmem | hmem
  · exact hnew datagram hmem
  · exact hnew' datagram hmem

/-- The datagrams to the address satisfy every weaker predicate. -/
theorem mono (h : env.Tells addr H env') (hmono : ∀ buf, H buf → H' buf) :
    env.Tells addr H' env' := by
  obtain ⟨new, hsent, hnew⟩ := h.sent
  exact ⟨h.now, h.answer, new, hsent, fun datagram hmem haddr => hmono _ (hnew datagram hmem haddr)⟩

/-- Sending does not change what the socket answers. -/
theorem noError (h : env.Tells addr H env') (hno : env.NoError) : env'.NoError := by
  intro attempts datagram error
  rw [h.answer]
  exact hno attempts datagram error

/-- Only the datagrams sent to the address matter. -/
theorem record {attempts : List (SocketAddr × Bytes)} {bufs : List Bytes} (env : Env)
    (hbufs : addr' = addr → ∀ buf ∈ bufs, H buf) :
    env.Tells addr H (env.record attempts (bufs.map (Prod.mk addr'))) := by
  refine ⟨rfl, rfl, bufs.map (Prod.mk addr'), rfl, fun datagram hmem haddr => ?_⟩
  obtain ⟨buf, hbuf, rfl⟩ := List.mem_map.mp hmem
  exact hbufs haddr buf hbuf

/-- Everything that is sent goes to one address. -/
theorem of_sends {bufs : List Bytes} (h : env.Sends addr env' bufs) (hbufs : ∀ buf ∈ bufs, H buf) :
    env.Tells addr H env' := by
  refine ⟨h.now, h.answer, bufs.map (Prod.mk addr), h.sent, fun datagram hmem _ => ?_⟩
  obtain ⟨buf, hbuf, rfl⟩ := List.mem_map.mp hmem
  exact hbufs buf hbuf

/-- A single datagram. -/
theorem send (env : Env) (buf : Bytes) (hbuf : addr' = addr → H buf) :
    env.Tells addr H (env.send addr' buf).2 := by
  rcases env.send_cases addr' buf with ⟨hsend, -⟩ | ⟨hsend, -⟩ | ⟨error, hsend, -⟩
  · rw [hsend]
    refine ⟨rfl, rfl, [(addr', buf)], rfl, fun datagram hmem haddr => ?_⟩
    rw [List.mem_singleton.mp hmem] at haddr ⊢
    exact hbuf haddr
  · rw [hsend]
    exact ⟨rfl, rfl, [], rfl, by simp⟩
  · rw [hsend]
    exact ⟨rfl, rfl, [], rfl, by simp⟩

/-- What was sent to the address satisfies the predicate. -/
theorem mem_sentTo (h : env.Tells addr H env') {buf : Bytes} (hbuf : buf ∈ sentTo addr env env') :
    H buf := by
  obtain ⟨new, hsent, hnew⟩ := h.sent
  unfold sentTo at hbuf
  rw [hsent, List.drop_left] at hbuf
  obtain ⟨datagram, hmem, rfl⟩ := List.mem_map.mp hbuf
  obtain ⟨hmem, haddr⟩ := List.mem_filter.mp hmem
  exact hnew datagram hmem (by simpa using haddr)

end Env.Tells

/-- The handler of a client was told that a packet of a server was reassembled. -/
def ClientEvent.reassembles (serverAddr : SocketAddr) : ClientEvent P → Bool
  | .rawPacket (.part addr .reassembled) => decide (addr = serverAddr)
  | _ => false

/-- The handler of a server was told that a packet of a client was reassembled. -/
def ServerEvent.reassembles (clientAddr : SocketAddr) : ServerEvent P → Bool
  | .rawPacket (.part addr .reassembled) => decide (addr = clientAddr)
  | _ => false

namespace Link

/-- The beginning: the client does not listen to the server yet. -/
def init (clientConfig : ClientConfig) (serverConfig : ServerConfig) : Link P where
  client := .new clientConfig
  server := .host serverConfig
  toServer := []
  toClient := []
  clientLog := []
  serverLog := []

/-- The client did something. -/
def withClient (l : Link P) (client : Client P) (sent : List Bytes) : Link P :=
  { l with client, toServer := l.toServer ++ sent }

/-- The server did something. -/
def withServer (l : Link P) (server : Server) (sent : List Bytes) : Link P :=
  { l with server, toClient := l.toClient ++ sent }

/-- The client handled a datagram. -/
def clientHandled (l : Link P) (serverAddr : SocketAddr) (buf : Bytes) (u u' : ClientUpdate P) :
    Link P :=
  { l.withClient u'.client (sentTo serverAddr u.env u'.env) with
    clientLog :=
      if (u'.events.drop u.events.length).any (ClientEvent.reassembles serverAddr)
      then l.clientLog ++ [buf] else l.clientLog }

/-- The server handled a datagram. -/
def serverHandled (l : Link P) (clientAddr : SocketAddr) (buf : Bytes) (u u' : ServerUpdate P) :
    Link P :=
  { l.withServer u'.server (sentTo clientAddr u.env u'.env) with
    serverLog :=
      if (u'.events.drop u.events.length).any (ServerEvent.reassembles clientAddr)
      then l.serverLog ++ [buf] else l.serverLog }

section Step

variable [Rkyv P] (clientAddr serverAddr : SocketAddr)

/-- One step; there is none if the code panics. -/
def step (l : Link P) : LinkEvent P → Option (Link P)
  | .listen env =>
      let (_, client, env') := l.client.listen serverAddr env
      some (l.withClient client (sentTo serverAddr env env'))
  | .query query env => do
      let (_, client, env') ← (l.client.query serverAddr query env).toOption
      return l.withClient client (sentTo serverAddr env env')
  | .connect connect env => do
      let (_, client, env') ← (l.client.connect (.ok serverAddr) connect env).toOption
      return l.withClient client (sentTo serverAddr env env')
  | .disconnect disconnect env => do
      let (_, client, env') ← (l.client.disconnect disconnect env).toOption
      return l.withClient client (sentTo serverAddr env env')
  | .send packet env => do
      let (_, client, env') ← (l.client.send packet env).toOption
      return l.withClient client (sentTo serverAddr env env')
  | .forget addr => some (l.withClient (l.client.forget addr).2 [])
  | .forgetAll => do
      let client ← l.client.forgetAll.toOption
      return l.withClient client []
  | .clientListeners env events =>
      let u := ClientUpdate.updateListeners { client := l.client, env, events }
      some (l.withClient u.client (sentTo serverAddr env u.env))
  | .clientReceives handler sender buf env events => do
      let u : ClientUpdate P := { client := l.client, env, events }
      let u' ← (u.handleDatagram handler sender (recv buf)).toOption
      return l.clientHandled serverAddr (recv buf) u u'
  | .clientTimeouts env events =>
      let u := ClientUpdate.timeoutConnection { client := l.client, env, events }
      some (l.withClient u.client [])
  | .unlisten addr => some (l.withServer (l.server.unlisten addr).2 [])
  | .unlistenAll => some (l.withServer l.server.unlistenAll [])
  | .serverSend receiver packet env => do
      let (_, server, env') ← (l.server.send receiver packet env).toOption
      return l.withServer server (sentTo clientAddr env env')
  | .serverBuffers env events =>
      let u : ServerUpdate P := ServerUpdate.updateBuffers { server := l.server, env, events }
      some (l.withServer u.server (sentTo clientAddr env u.env))
  | .serverReceives handler sender buf env events => do
      let u : ServerUpdate P := { server := l.server, env, events }
      let u' ← (u.handleDatagram handler sender (recv buf)).toOption
      return l.serverHandled clientAddr (recv buf) u u'
  | .serverPings env events =>
      let u : ServerUpdate P := ServerUpdate.sendPings { server := l.server, env, events }
      some (l.withServer u.server (sentTo clientAddr env u.env))

/-- The transition system of a client and a server at two addresses. -/
def system (P : Packets) [Rkyv P] (clientAddr serverAddr : SocketAddr) :
    Lts (Link P) (LinkEvent P) where
  step := step clientAddr serverAddr

end Step

/-! ## Updates are runs -/

section Updates

variable [Rkyv P] {clientAddr serverAddr : SocketAddr} {l l' : Link P}

/-- A run in which the client gets from one moment of an update to another. -/
def ClientRuns (clientAddr serverAddr : SocketAddr) (l : Link P) (u : ClientUpdate P) : Prop :=
  ∃ l', (system P clientAddr serverAddr).GuardedRun (fun _ _ => True) l l' ∧
    l'.client = u.client ∧ l'.server = l.server

/-- A run in which the server gets from one moment of an update to another. -/
def ServerRuns (clientAddr serverAddr : SocketAddr) (l : Link P) (u : ServerUpdate P) : Prop :=
  ∃ l', (system P clientAddr serverAddr).GuardedRun (fun _ _ => True) l l' ∧
    l'.server = u.server ∧ l'.client = l.client

/-- One step is a run. -/
theorem run_step {e : LinkEvent P} (h : step clientAddr serverAddr l e = some l') :
    (system P clientAddr serverAddr).GuardedRun (fun _ _ => True) l l' :=
  Relation.ReflTransGen.single ⟨e, trivial, h⟩

/-- A step that leads to the client. -/
theorem ClientRuns.of_step {e : LinkEvent P} {u : ClientUpdate P}
    (h : step clientAddr serverAddr l e = some l') (hclient : l'.client = u.client)
    (hserver : l'.server = l.server) : ClientRuns clientAddr serverAddr l u :=
  ⟨l', run_step h, hclient, hserver⟩

/-- A step that leads to the server. -/
theorem ServerRuns.of_step {e : LinkEvent P} {u : ServerUpdate P}
    (h : step clientAddr serverAddr l e = some l') (hserver : l'.server = u.server)
    (hclient : l'.client = l.client) : ServerRuns clientAddr serverAddr l u :=
  ⟨l', run_step h, hserver, hclient⟩

/-- One part of an update after the other. -/
theorem ClientRuns.trans {u v : ClientUpdate P} (h : ClientRuns clientAddr serverAddr l u)
    (h' : ∀ l : Link P, l.client = u.client → ClientRuns clientAddr serverAddr l v) :
    ClientRuns clientAddr serverAddr l v := by
  obtain ⟨l', hrun, hclient, hserver⟩ := h
  obtain ⟨l'', hrun', hclient', hserver'⟩ := h' l' hclient
  exact ⟨l'', Relation.ReflTransGen.trans hrun hrun', hclient', hserver'.trans hserver⟩

/-- One part of an update after the other. -/
theorem ServerRuns.trans {u v : ServerUpdate P} (h : ServerRuns clientAddr serverAddr l u)
    (h' : ∀ l : Link P, l.server = u.server → ServerRuns clientAddr serverAddr l v) :
    ServerRuns clientAddr serverAddr l v := by
  obtain ⟨l', hrun, hserver, hclient⟩ := h
  obtain ⟨l'', hrun', hserver', hclient'⟩ := h' l' hserver
  exact ⟨l'', Relation.ReflTransGen.trans hrun hrun', hserver', hclient'.trans hclient⟩

/-- The client handles a datagram. -/
theorem clientReceives_run {handler : ClientHandler P} {sender : SocketAddr} {buf : Bytes}
    {u v : ClientUpdate P} (h : u.handleDatagram handler sender (recv buf) = .ok v)
    (hl : l.client = u.client) : ClientRuns clientAddr serverAddr l v := by
  have hstep : step clientAddr serverAddr l (.clientReceives handler sender buf u.env u.events) =
      some (l.clientHandled serverAddr (recv buf) u v) := by
    simp only [step, hl, h, Except.toOption]
    rfl
  exact .of_step hstep rfl rfl

/-- The server handles a datagram. -/
theorem serverReceives_run {handler : ServerHandler P} {sender : SocketAddr} {buf : Bytes}
    {u v : ServerUpdate P} (h : u.handleDatagram handler sender (recv buf) = .ok v)
    (hl : l.server = u.server) : ServerRuns clientAddr serverAddr l v := by
  have hstep : step clientAddr serverAddr l (.serverReceives handler sender buf u.env u.events) =
      some (l.serverHandled clientAddr (recv buf) u v) := by
    simp only [step, hl, h, Except.toOption]
    rfl
  exact .of_step hstep rfl rfl

/-- **An update of the client is a run.** -/
theorem clientUpdate_run {handler : ClientHandler P} {incoming : Incoming} {env : Env}
    {u : ClientUpdate P} (h : l.client.update handler incoming env = .ok u) :
    ClientRuns clientAddr serverAddr l u := by
  obtain ⟨v, hreceive, rfl⟩ := Client.update_eq_ok h
  obtain ⟨w, hfold, rfl⟩ := ClientUpdate.receive_eq_ok hreceive
  have hlisteners : ClientRuns clientAddr serverAddr l
      (ClientUpdate.updateListeners { client := l.client, env, events := [] }) :=
    .of_step (e := .clientListeners env []) rfl rfl rfl
  have hdatagrams := Vec.foldlM_rule
    (R := fun u v : ClientUpdate P => ∀ l : Link P, l.client = u.client →
      ClientRuns clientAddr serverAddr l v)
    (fun u l hl => ⟨l, Relation.ReflTransGen.refl, hl, rfl⟩)
    (fun u v w hu hv l hl => (hu l hl).trans hv)
    (fun u v datagram _ hv l hl => clientReceives_run hv hl) hfold
  refine (hlisteners.trans hdatagrams).trans fun l hl => ?_
  have hclient := ClientUpdate.client_reported w incoming.error
  refine .of_step (e := .clientTimeouts
    (incoming.error.elim w fun error => w.tell (.error (.recv error))).env
    (incoming.error.elim w fun error => w.tell (.error (.recv error))).events) rfl ?_ rfl
  simp only [withClient, hl, ← hclient]

/-- **An update of the server is a run.** -/
theorem serverUpdate_run {handler : ServerHandler P} {incoming : Incoming} {env : Env}
    {u : ServerUpdate P} (h : l.server.update handler incoming env = .ok u) :
    ServerRuns clientAddr serverAddr l u := by
  obtain ⟨w, hfold, rfl⟩ := ServerRun.update_eq_ok h
  have hbuffers : ServerRuns clientAddr serverAddr l
      (ServerUpdate.updateBuffers { server := l.server, env, events := [] }) :=
    .of_step (e := .serverBuffers env []) rfl rfl rfl
  have hdatagrams := Vec.foldlM_rule
    (R := fun u v : ServerUpdate P => ∀ l : Link P, l.server = u.server →
      ServerRuns clientAddr serverAddr l v)
    (fun u l hl => ⟨l, Relation.ReflTransGen.refl, hl, rfl⟩)
    (fun u v w hu hv l hl => (hu l hl).trans hv)
    (fun u v datagram _ hv l hl => serverReceives_run hv hl) hfold
  refine (hbuffers.trans hdatagrams).trans fun l hl => ?_
  have hserver : (incoming.error.elim w fun error =>
      w.tell (.error (.recv error))).server = w.server := by
    cases incoming.error <;> rfl
  refine .of_step (e := .serverPings
    (incoming.error.elim w fun error => w.tell (.error (.recv error))).env
    (incoming.error.elim w fun error => w.tell (.error (.recv error))).events) rfl ?_ rfl
  simp only [withServer, hl, ← hserver]

end Updates

end Link

end Ultinet
